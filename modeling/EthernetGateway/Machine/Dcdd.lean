import EthernetGateway.Machine.Host

/-!
# The 88-DCDD floppy board

Three ports and sixteen drives. A guest selects a drive, loads its head, polls the position
register until the sector it wants comes round, and reads or writes that sector a byte at a time.
The board holds a sector that is being written in the buffer of its drive and asks the machine to
store it once the sector passes, the head moves or is lifted, or the drive is deselected.
-/

namespace EthernetGateway.Machine

/-- `SECTOR_LEN`. -/
abbrev dcddSectorLen : Nat := 137

/-- `MAX_DRIVES`. -/
abbrev dcddMaxDrives : Nat := 16

/-- The bytes of one sector on the wire. -/
abbrev DcddSector := Fin dcddSectorLen → UInt8

namespace Dcdd

/-- `Geometry`. -/
structure Geometry where
  tracks : Nat
  sectors : Nat
  deriving DecidableEq

/-- `Geometry::EIGHT_INCH`. -/
def Geometry.eightInch : Geometry := ⟨77, 32⟩

/-- `Geometry::MINIDISK`. -/
def Geometry.minidisk : Geometry := ⟨35, 16⟩

/-- `Geometry::offset`. -/
def Geometry.offset (geometry : Geometry) (track sector : Nat) : Nat :=
  track * geometry.sectors * dcddSectorLen + sector * dcddSectorLen

/-- `Geometry::image_len`. -/
def Geometry.imageLen (geometry : Geometry) : Nat :=
  geometry.tracks * geometry.sectors * dcddSectorLen

/-- `geometry_for`: the geometry of an image of some size, a trailer shorter than a sector
allowed. -/
def geometryFor (len : Nat) : Option Geometry :=
  [Geometry.eightInch, Geometry.minidisk].find? fun geometry =>
    decide (geometry.imageLen ≤ len ∧ len - geometry.imageLen < dcddSectorLen)

/-- `Disk`. -/
structure Disk where
  geometry : Geometry
  readOnly : Bool
  deriving DecidableEq

/-- `Drive`. -/
structure Drive where
  /-- Present only when a disk is loaded. -/
  disk : Option Disk
  track : Nat
  sector : Nat
  headLoaded : Bool
  /-- Set between the start of a write and the end of the sector. -/
  writing : Bool
  /-- Where the sector being written belongs. -/
  writeAt : Option (Nat × Nat)
  /-- Cursor into the buffer. -/
  byte : Option Nat
  buffer : DcddSector
  /-- Whether the buffer holds changes not yet given back. -/
  dirty : Bool

/-- `Drive::default`. -/
def Drive.default : Drive where
  disk := none
  track := 0
  sector := 0
  headLoaded := false
  writing := false
  writeAt := none
  byte := none
  buffer := fun _ => 0
  dirty := false

/-- `Request`. -/
inductive Request where
  /-- Nothing to do. -/
  | none
  /-- Fill the sector buffer. -/
  | read (drive track sector : Nat)
  /-- Write the sector buffer back. -/
  | write (drive track sector : Nat)
  deriving DecidableEq

/-- Whether a drive holds a disk that may be written. -/
def Drive.writable (d : Drive) : Bool := d.disk.any fun disk => !disk.readOnly

/-- The last byte handed over is one of the sector. -/
theorem lastByte_lt {n : Nat} (inside : 1 ≤ n ∧ n < dcddSectorLen) : n - 1 < dcddSectorLen := by
  omega

/-- A sector cut short, finished with its last byte. -/
def Drive.padded (d : Drive) : DcddSector :=
  match d.byte with
  | some n =>
    if inside : 1 ≤ n ∧ n < dcddSectorLen then
      fun i => if i.val < n then d.buffer i else d.buffer ⟨n - 1, lastByte_lt inside⟩
    else d.buffer
  | none => d.buffer

/-- Whether `finish_write` gives a sector back. -/
def Drive.pending (d : Drive) : Bool :=
  d.writing && d.dirty && !(d.disk.any fun disk => disk.readOnly)

end Dcdd

/-- `Dcdd`, without the count of polls a watchdog reads. -/
structure Dcdd where
  drives : Nat → Dcdd.Drive
  /-- The selected drive. -/
  selected : Option Nat
  /-- The rotation flag. -/
  sectorTrue : Bool
  /-- Whether disk interrupts are enabled. -/
  interrupts : Bool

namespace Dcdd

/-- `Dcdd::new`. -/
def new : Dcdd := ⟨fun _ => .default, none, false, false⟩

/-- The board with another state of a drive. -/
def setDrive (board : Dcdd) (drive : Nat) (d : Drive) : Dcdd :=
  { board with drives := Function.update board.drives drive d }

/-- `Dcdd::insert`. -/
def insert (board : Dcdd) (drive : Nat) (disk : Disk) : Dcdd :=
  if drive < dcddMaxDrives then board.setDrive drive { Drive.default with disk := some disk }
  else board

/-- `finish_write`: end a write in progress. -/
def finishWrite (board : Dcdd) (sel : Nat) : Request × Dcdd :=
  let d := board.drives sel
  let request : Request :=
    match d.pending, d.writeAt with
    | true, some (track, sector) => .write sel track sector
    | _, _ => .none
  (request, board.setDrive sel
    { d with
      buffer := if d.pending then d.padded else d.buffer
      writing := false
      dirty := false
      writeAt := none
      byte := none })

/-- `read_status`, returned inverted. -/
def readStatus (board : Dcdd) : UInt8 :=
  match board.selected with
  | none => ~~~0
  | some sel =>
    let d := board.drives sel
    if d.disk.isNone then ~~~0
    else ~~~(0x18 ||| (if d.track = 0 then 0x40 else 0) |||
      (if d.headLoaded then 0x04 ||| (if d.writing then 0x01 else 0x80) else 0) |||
      (if board.interrupts then 0x20 else 0) ||| 0x02)

/-- Whether the selected drive has a disk turning under its head. -/
def turning (board : Dcdd) : Bool :=
  board.selected.any fun sel => (board.drives sel).disk.isSome && (board.drives sel).headLoaded

/-- The head of the selected drive over the next sector. -/
def advance (board : Dcdd) (sel : Nat) : Dcdd :=
  let d := board.drives sel
  let sectors := (d.disk.map fun disk => disk.geometry.sectors).getD 32
  { board.setDrive sel { d with sector := (d.sector + 1) % max sectors 1, byte := none } with
    sectorTrue := true }

/-- `read_position`. -/
def readPosition (board : Dcdd) : (UInt8 × Request) × Dcdd :=
  match board.selected with
  | none => ((0xFF, .none), board)
  | some sel =>
    if !board.turning then ((0xFF, .none), board)
    else
      let moved : Request × Dcdd :=
        if board.sectorTrue then (.none, { board with sectorTrue := false })
        else ((board.finishWrite sel).1, (board.finishWrite sel).2.advance sel)
      let position := 0xC0 ||| UInt8.ofNat ((moved.2.drives sel).sector * 2)
      ((if moved.2.sectorTrue then position else position ||| 1, moved.1), moved.2)

/-- `read_data`. -/
def readData (board : Dcdd) : (UInt8 × Request) × Dcdd :=
  match board.selected with
  | none => ((0xFF, .none), board)
  | some sel =>
    let d := board.drives sel
    if d.disk.isNone || d.writing then ((0xFF, .none), board)
    else
      match d.byte with
      | none => ((0xFF, .read sel d.track d.sector), board.setDrive sel { d with byte := some 0 })
      | some i =>
        let value := if inside : i < dcddSectorLen then d.buffer ⟨i, inside⟩ else 0
        ((value, .none), board.setDrive sel { d with byte := some (min (i + 1) dcddSectorLen) })

/-- `sector_loaded`. -/
def sectorLoaded (board : Dcdd) (drive : Nat) (bytes : List UInt8) : Dcdd :=
  if drive < dcddMaxDrives then
    board.setDrive drive
      { board.drives drive with
        buffer := fun i => bytes.getD i.val 0
        byte := some 0
        dirty := false }
  else board

/-- The board after a write to port 08h once a write in progress has been finished. -/
def selectDrive (board : Dcdd) (selected : Option Nat) : Dcdd :=
  { board with selected, sectorTrue := false }

/-- `select`: port 08h. -/
def select (board : Dcdd) (value : UInt8) : Request × Dcdd :=
  if value &&& 0x80 ≠ 0 then
    match board.selected with
    | none => (.none, { board with interrupts := false }.selectDrive none)
    | some sel =>
      let finished := board.finishWrite sel
      let d := finished.2.drives sel
      (finished.1,
        { finished.2.setDrive sel { d with headLoaded := false, writing := false, byte := none } with
          interrupts := false }.selectDrive none)
  else
    let drive := (value &&& 0x0F).toNat
    match board.selected with
    | none => (.none, board.selectDrive (some drive))
    | some old =>
      if old = drive then (.none, board.selectDrive (some drive))
      else ((board.finishWrite old).1, (board.finishWrite old).2.selectDrive (some drive))

/-- Whether a control byte moves or lifts the head. -/
def moves (value : UInt8) : Bool := decide (value &&& 0x0B ≠ 0)

/-- The head of a drive after the steps, the load and the unload of a control byte. -/
def Drive.steer (d : Drive) (value : UInt8) : Drive :=
  let tracks := (d.disk.map fun disk => disk.geometry.tracks).getD 77
  let d := if value &&& 0x01 ≠ 0 ∧ d.track + 1 < tracks then
    { d with track := d.track + 1, byte := none } else d
  let d := if value &&& 0x02 ≠ 0 ∧ d.track > 0 then
    { d with track := d.track - 1, byte := none } else d
  let d := if value &&& 0x04 ≠ 0 then { d with headLoaded := true } else d
  if value &&& 0x08 ≠ 0 then { d with headLoaded := false, byte := none } else d

/-- A drive after the write bit of a control byte. -/
def Drive.begin (d : Drive) (value : UInt8) : Drive :=
  if value &&& 0x80 ≠ 0 ∧ d.disk.isSome then
    { d with writing := true, byte := some 0, writeAt := some (d.track, d.sector) }
  else d

/-- `control`: port 09h. -/
def control (board : Dcdd) (value : UInt8) : Request × Dcdd :=
  match board.selected with
  | none => (.none, board)
  | some sel =>
    let finished : Request × Dcdd := if moves value then board.finishWrite sel else (.none, board)
    let interrupts :=
      if value &&& 0x20 ≠ 0 then false
      else if value &&& 0x10 ≠ 0 then true else finished.2.interrupts
    (finished.1, { finished.2.setDrive sel (((finished.2.drives sel).steer value).begin value) with
      interrupts })

/-- `write_data`: port 0Ah. -/
def writeData (board : Dcdd) (value : UInt8) : Dcdd :=
  match board.selected with
  | none => board
  | some sel =>
    let d := board.drives sel
    if !d.writing then board
    else
      let i := d.byte.getD 0
      if inside : i < dcddSectorLen then
        board.setDrive sel
          { d with
            buffer := Function.update d.buffer ⟨i, inside⟩ value
            dirty := true
            byte := some (i + 1) }
      else board

/-- `port_in`. -/
def portIn (board : Dcdd) (port : UInt8) : (UInt8 × Request) × Dcdd :=
  if port &&& 0x0F = 0x08 then ((board.readStatus, .none), board)
  else if port &&& 0x0F = 0x09 then board.readPosition
  else if port &&& 0x0F = 0x0A then board.readData
  else ((0xFF, .none), board)

/-- `port_out`. -/
def portOut (board : Dcdd) (port value : UInt8) : Request × Dcdd :=
  if port &&& 0x0F = 0x08 then board.select value
  else if port &&& 0x0F = 0x09 then board.control value
  else if port &&& 0x0F = 0x0A then (.none, board.writeData value)
  else (.none, board)

/-- One drive of the loop of `finish_all_writes`: a whole sector is given back. -/
def finishDrive (board : Dcdd) (drive : Nat) : List Request × Dcdd :=
  let whole := (board.drives drive).byte.any fun n => decide (dcddSectorLen ≤ n)
  let finished := board.finishWrite drive
  (if whole && decide (finished.1 ≠ .none) then [finished.1] else [], finished.2)

/-- The loop of `finish_all_writes` over some drives. -/
def finishDrives : List Nat → Dcdd → List Request × Dcdd
  | [], board => ([], board)
  | drive :: drives, board =>
    let finished := board.finishDrive drive
    let rest := finishDrives drives finished.2
    (finished.1 ++ rest.1, rest.2)

/-- `finish_all_writes`. -/
def finishAllWrites (board : Dcdd) : List Request × Dcdd :=
  finishDrives (List.range dcddMaxDrives) board

/-- `to_host`: the byte range a request means; nothing for a drive without a disk. -/
def toHost (board : Dcdd) : Request → HostRequest
  | .none => .none
  | .read drive track sector =>
    match (board.drives drive).disk with
    | none => .none
    | some disk => .read drive (disk.geometry.offset track sector) dcddSectorLen
  | .write drive track sector =>
    match (board.drives drive).disk with
    | none => .none
    | some disk => .write drive (disk.geometry.offset track sector) dcddSectorLen

end Dcdd

instance : Controller Dcdd where
  portIn board port :=
    let answer := board.portIn port
    ((answer.1.1, answer.2.toHost answer.1.2), answer.2)
  portOut board port value :=
    let answer := board.portOut port value
    (answer.2.toHost answer.1, answer.2)
  bufferLoaded board drive bytes := board.sectorLoaded drive bytes
  buffer board drive :=
    if drive < dcddMaxDrives then some (List.ofFn (board.drives drive).buffer) else none
  insert board drive length readOnly :=
    (Dcdd.geometryFor length).map fun geometry => board.insert drive ⟨geometry, readOnly⟩

end EthernetGateway.Machine
