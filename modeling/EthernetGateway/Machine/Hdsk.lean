import EthernetGateway.Machine.Host

/-!
# The 88-HDSK hard disk controller

The Datakeeper is asked to do things, in sixteen-bit commands: a sector goes between the platter
and one of four buffers, and a buffer goes between the board and the guest a byte at a time. A
head number chooses the platter, and with it the image, as well as the side; the cylinder is the
drive's.
-/

namespace EthernetGateway.Machine

/-- `SECTOR_LEN`, the bytes of a sector. -/
abbrev hdskSectorLen : Nat := 256

/-- `SECTORS`, the sectors of a cylinder under one head. -/
abbrev hdskSectors : Nat := 24

/-- `HEADS`, the sides of a platter. -/
abbrev hdskHeads : Nat := 2

/-- `PLATTERS`, the platters of a drive. -/
abbrev hdskPlatters : Nat := 4

/-- `UNITS`, the drives of the board. -/
abbrev hdskUnits : Nat := 4

/-- `CYLINDERS`. -/
abbrev hdskCylinders : Nat := 406

/-- `IMAGE_LEN`, the bytes of a platter. -/
abbrev hdskImageLen : Nat := hdskCylinders * hdskHeads * hdskSectors * hdskSectorLen

/-- What a sector or a buffer holds. -/
abbrev HdskSector : Type := Fin hdskSectorLen → UInt8

namespace Hdsk

/-- `Command`. -/
inductive Command where
  | seek
  | readSector
  | readUnformatted
  | writeSector
  | readBuffer
  | writeBuffer
  | readStatus
  | setByte
  | format
  | initialise
  deriving DecidableEq

/-- `Command::of`: bits 15 to 13 choose the group, bit 12 the direction of a transfer. -/
def Command.of (word : Nat) : Command :=
  match word / 2 ^ 13 % 8 with
  | 0 => .seek
  | 1 => if word / 2 ^ 12 % 2 = 1 then .readSector else .writeSector
  | 2 => if word / 2 ^ 12 % 2 = 1 then .readBuffer else .writeBuffer
  | 3 => .readStatus
  | 4 => .setByte
  | 5 => .readUnformatted
  | 6 => .format
  | _ => .initialise

/-- The drive a command names, in bits 11 and 10. -/
def unitOf (word : Nat) : Fin hdskUnits := ⟨word / 2 ^ 10 % 4, Nat.mod_lt _ (by decide)⟩

/-- The head a sector command or a format names, in bits 7 to 5. -/
def headOf (word : Nat) : Nat := word / 2 ^ 5 % 8

/-- The platter of a head. -/
def platterOf (word : Nat) : Fin hdskPlatters :=
  ⟨headOf word / hdskHeads, show headOf word / 2 < 4 by unfold headOf; omega⟩

/-- The side of a head. -/
def sideOf (word : Nat) : Fin hdskHeads := ⟨headOf word % hdskHeads, Nat.mod_lt _ (by decide)⟩

/-- The sector number of a sector command, in its low five bits. -/
def sectorOf (word : Nat) : Nat := word % 2 ^ 5

/-- The buffer a command names, in bits 9 and 8. -/
def bufferOf (word : Nat) : Fin 4 := ⟨word / 2 ^ 8 % 4, Nat.mod_lt _ (by decide)⟩

/-- `error::NOT_READY`. -/
def notReady : UInt8 := 1

/-- `error::ILLEGAL_SECTOR`. -/
def illegalSector : UInt8 := 2

/-- `error::WRITE_PROTECT`. -/
def writeProtect : UInt8 := 128

/-- `iv::DISK_CONTROL_A`. -/
def diskControlA : UInt8 := 17

/-- `iv::DISK_CONTROL_B`. -/
def diskControlB : UInt8 := 18

/-- `iv::CYL_LOW`. -/
def cylLow : UInt8 := 19

/-- `iv::CYL_RESTORE`. -/
def cylRestore : UInt8 := 0x08

/-- `FORMAT_FILL`. -/
def formatFill : UInt8 := 0xE5

/-- `Platter`. -/
structure Platter where
  present : Bool
  readOnly : Bool
  /-- The machine's slot with this platter's image. -/
  slot : Nat

/-- `Transfer`: a byte-at-a-time move between a buffer and the guest. -/
structure Transfer where
  buffer : Fin 4
  pos : Nat
  len : Nat
  writing : Bool

end Hdsk

open Hdsk in
/-- `Hdsk`, without its count of idle polls. -/
structure Hdsk where
  /-- `units`, each a cylinder. -/
  cylinders : Fin hdskUnits → Nat
  platters : Fin hdskUnits → Fin hdskPlatters → Platter
  buffers : Fin 4 → HdskSector
  pendingLow : UInt8
  selected : Fin hdskUnits
  ready : Bool
  ack : Bool
  readReady : Bool
  writeReady : Bool
  status : UInt8
  firstStatusRead : Bool
  fresh : Bool
  iv : UInt8 → UInt8
  ivPending : Option UInt8
  statusByte : Option UInt8
  transfer : Option Transfer
  pendingBuffer : Fin 4

namespace Hdsk

/-- The board has a first drive. -/
theorem drives_pos : 0 < hdskUnits := by decide

/-- The board has a first buffer. -/
theorem buffers_pos : 0 < 4 := by decide

/-- `Hdsk::new`. -/
def new : Hdsk where
  cylinders := fun _ => 0
  platters := fun _ _ => ⟨false, true, 0⟩
  buffers := fun _ _ => 0
  pendingLow := 0
  selected := ⟨0, drives_pos⟩
  ready := true
  ack := false
  readReady := false
  writeReady := false
  status := 0
  firstStatusRead := true
  fresh := true
  iv := fun _ => 0
  ivPending := none
  statusByte := none
  transfer := none
  pendingBuffer := ⟨0, buffers_pos⟩

/-- `insert`, for a slot of the board and an image of a length the board accepts. -/
def insert (board : Hdsk) (drive length : Nat) (readOnly : Bool) : Option Hdsk :=
  if accepted : hdskImageLen ≤ length ∧ length - hdskImageLen ≤ hdskSectorLen - 1 ∧
      drive / hdskPlatters < hdskUnits then
    let unit : Fin hdskUnits := ⟨drive / hdskPlatters, accepted.2.2⟩
    let platter : Fin hdskPlatters := ⟨drive % hdskPlatters, Nat.mod_lt _ (by decide)⟩
    some { board with
      platters := Function.update board.platters unit
        (Function.update (board.platters unit) platter ⟨true, readOnly, drive⟩) }
  else none

/-- `unit_ready`. -/
def unitReady (board : Hdsk) (unit : Fin hdskUnits) : Bool :=
  decide (∃ platter, (board.platters unit platter).present)

/-- The place of a sector in its image: cylinder, then side, then sector. -/
def place (cylinder side sector : Nat) : Nat :=
  ((cylinder * hdskHeads + side) * hdskSectors + sector) * hdskSectorLen

/-- `offset`: the slot with a sector's image, and the sector's place there. -/
def offset (board : Hdsk) (word : Nat) : Option (Nat × Nat) :=
  let platter := board.platters (unitOf word) (platterOf word)
  let cylinder := board.cylinders (unitOf word)
  if ¬platter.present ∨ hdskSectors ≤ sectorOf word ∨ hdskCylinders ≤ cylinder then none
  else some (platter.slot, place cylinder (sideOf word) (sectorOf word))

/-- `iv_read`: two bytes read back the inverted head position. -/
def ivRead (board : Hdsk) (addr : UInt8) (unit : Fin hdskUnits) : UInt8 :=
  let cylinder := board.cylinders unit
  let stored := board.iv addr
  if addr = diskControlB then
    (stored &&& ~~~1) ||| (~~~(UInt8.ofNat (cylinder / 2 ^ 8) &&& 1) &&& 1)
  else if addr = cylLow then ~~~UInt8.ofNat cylinder
  else stored

/-- A command that ends at once with an error. -/
def fail (board : Hdsk) (error : UInt8) : Hdsk :=
  { board with status := board.status ||| error, ready := true }

/-- A drive's heads moved. -/
def moveTo (board : Hdsk) (unit : Fin hdskUnits) (cylinder : Nat) : Hdsk :=
  { board with cylinders := Function.update board.cylinders unit cylinder }

/-- The arm of `execute` for Seek. -/
def seek (board : Hdsk) (word : Nat) : HostRequest × Hdsk :=
  let unit := unitOf word
  let cylinder := word % 2 ^ 9
  if ¬board.unitReady unit then (.none, board.fail notReady)
  else if hdskCylinders ≤ cylinder then (.none, board.fail illegalSector)
  else (.none, { board.moveTo unit cylinder with ready := true })

/-- The arm of `execute` for the three sector commands. -/
def sectorCommand (board : Hdsk) (word : Nat) : HostRequest × Hdsk :=
  let platter := board.platters (unitOf word) (platterOf word)
  let writing := Command.of word = .writeSector
  match board.offset word with
  | none => (.none, board.fail (if platter.present then illegalSector else notReady))
  | some (slot, offset) =>
    if writing ∧ platter.readOnly then (.none, board.fail writeProtect)
    else
      let status :=
        if Command.of word = .readUnformatted ∧ platter.readOnly then
          board.status ||| writeProtect
        else board.status
      let board := { board with status, pendingBuffer := bufferOf word }
      if writing then (.write slot offset hdskSectorLen, { board with ready := true })
      else (.read slot offset hdskSectorLen, { board with ready := false })

/-- The arm of `execute` for the two buffer commands: a length of 0 is a whole buffer. -/
def bufferCommand (board : Hdsk) (word : Nat) : HostRequest × Hdsk :=
  let raw := word % 2 ^ 8
  let writing : Bool := Command.of word = .writeBuffer
  let transfer := ⟨bufferOf word, 0, if raw = 0 then hdskSectorLen else raw, writing⟩
  (.none,
    { board with
      transfer := some transfer
      writeReady := writing || board.writeReady
      readReady := !writing || board.readReady
      ready := false })

/-- The arm of `execute` for Set Byte. -/
def setByte (board : Hdsk) (word : Nat) : HostRequest × Hdsk :=
  (.none, { board with ivPending := some (.ofNat word), writeReady := true, ready := false })

/-- The arm of `execute` for Read Status. -/
def readStatus (board : Hdsk) (word : Nat) : HostRequest × Hdsk :=
  let unit := unitOf word
  if ¬board.unitReady unit then (.none, board.fail notReady)
  else
    let control : UInt8 :=
      (board.iv diskControlA &&& 0x80) ||| 0x30 ||| ((1 : UInt8) <<< UInt8.ofNat unit.val)
    let board := { board with iv := Function.update board.iv diskControlA control }
    (.none,
      { board with
        statusByte := some (board.ivRead (.ofNat word) unit), readReady := true, ready := true })

/-- The arm of `execute` for Format: one side of one platter, and the heads at cylinder 0. -/
def format (board : Hdsk) (word : Nat) : HostRequest × Hdsk :=
  let platter := board.platters (unitOf word) (platterOf word)
  if ¬platter.present then (.none, board.fail notReady)
  else if platter.readOnly then (.none, board.fail writeProtect)
  else
    (.fill platter.slot (sideOf word * hdskSectors * hdskSectorLen) (hdskSectors * hdskSectorLen)
        (hdskHeads * hdskSectors * hdskSectorLen) hdskCylinders formatFill,
      { board.moveTo (unitOf word) 0 with ready := true })

/-- The arm of `execute` for Initialize: every drive's heads come home. -/
def initialise (board : Hdsk) : HostRequest × Hdsk :=
  (.none,
    { board with
      cylinders := fun unit => if board.unitReady unit then 0 else board.cylinders unit
      transfer := none
      statusByte := none
      ivPending := none
      readReady := false
      writeReady := false
      ready := true })

/-- The `match` of `execute`. -/
def arm (board : Hdsk) (word : Nat) : HostRequest × Hdsk :=
  match Command.of word with
  | .seek => board.seek word
  | .readSector | .writeSector | .readUnformatted => board.sectorCommand word
  | .readBuffer | .writeBuffer => board.bufferCommand word
  | .setByte => board.setByte word
  | .readStatus => board.readStatus word
  | .format => board.format word
  | .initialise => board.initialise

/-- `execute`: the command is acknowledged and the error byte cleared before it is looked at. -/
def execute (board : Hdsk) (word : Nat) : HostRequest × Hdsk :=
  { board with ack := true, status := 0, fresh := false, selected := unitOf word }.arm word

/-- A handshake flag, as bit 7 of its port. -/
def flag (raised : Bool) : UInt8 := if raised then 0x80 else 0

/-- A byte of a buffer a transfer is at. -/
def Transfer.at (transfer : Transfer) : Fin hdskSectorLen :=
  ⟨transfer.pos % hdskSectorLen, Nat.mod_lt _ (by decide)⟩

/-- `port_in` on the data port. -/
def dataIn (board : Hdsk) : UInt8 × Hdsk :=
  let board := { board with readReady := false }
  match board.statusByte with
  | some byte => (byte, { board with statusByte := none })
  | none =>
    match board.transfer with
    | none => (0xFF, board)
    | some transfer =>
      if transfer.writing then (0xFF, board)
      else
        let byte := board.buffers transfer.buffer transfer.at
        if transfer.pos + 1 ≥ transfer.len then
          (byte, { board with transfer := none, ready := true })
        else
          (byte,
            { board with
              transfer := some { transfer with pos := transfer.pos + 1 }, readReady := true })

/-- `port_in`. -/
def portIn (board : Hdsk) (port : UInt8) : (UInt8 × HostRequest) × Hdsk :=
  if port = 0xA0 then ((flag board.ready, .none), board)
  else if port = 0xA1 then
    if board.firstStatusRead ∧ board.fresh then
      ((0xFF, .none), { board with ready := false, firstStatusRead := false })
    else ((board.status, .none), { board with ready := false })
  else if port = 0xA2 then ((flag board.ack, .none), board)
  else if port = 0xA3 then ((0xFF, .none), { board with ack := false })
  else if port = 0xA4 then ((flag board.readReady, .none), board)
  else if port = 0xA5 then ((board.dataIn.1, .none), board.dataIn.2)
  else if port = 0xA6 then ((flag board.writeReady, .none), board)
  else if port = 0xA7 then ((0xFF, .none), { board with writeReady := false })
  else ((0xFF, .none), board)

/-- A Set Byte's data byte: with the restore line low, the heads of the selected drive come
home. -/
def takeByte (board : Hdsk) (addr value : UInt8) : Hdsk :=
  let board :=
    { board with ivPending := none, iv := Function.update board.iv addr value, ready := true }
  if addr = diskControlB ∧ (value &&& cylRestore) = 0 ∧ board.unitReady board.selected then
    board.moveTo board.selected 0
  else board

/-- `port_out` on the data port. -/
def dataOut (board : Hdsk) (value : UInt8) : Hdsk :=
  let board := { board with writeReady := false }
  match board.ivPending with
  | some addr => board.takeByte addr value
  | none =>
    match board.transfer with
    | none => { board with pendingLow := value }
    | some transfer =>
      if ¬transfer.writing then { board with pendingLow := value }
      else
        let board :=
          { board with
            buffers := Function.update board.buffers transfer.buffer
              (Function.update (board.buffers transfer.buffer) transfer.at value) }
        if transfer.pos + 1 ≥ transfer.len then { board with transfer := none, ready := true }
        else
          { board with
            transfer := some { transfer with pos := transfer.pos + 1 }, writeReady := true }

/-- `port_out`. -/
def portOut (board : Hdsk) (port value : UInt8) : HostRequest × Hdsk :=
  if port = 0xA3 then
    { board with ack := false }.execute (value.toNat * 2 ^ 8 + board.pendingLow.toNat)
  else if port = 0xA7 then (.none, board.dataOut value)
  else (.none, board)

/-- `buffer_loaded`. -/
def bufferLoaded (board : Hdsk) (bytes : List UInt8) : Hdsk :=
  { board with
    buffers := Function.update board.buffers board.pendingBuffer fun i =>
      (bytes[i.val]?).getD (board.buffers board.pendingBuffer i)
    ready := true }

instance : Controller Hdsk where
  portIn := portIn
  portOut := portOut
  bufferLoaded board _ bytes := board.bufferLoaded bytes
  buffer board _ := some (List.ofFn (board.buffers board.pendingBuffer))
  insert := insert

end Hdsk

/-- A machine with platter images inserted. -/
def hdskMachine (images : List (Nat × Mounted)) : BootMachine Hdsk :=
  (BootMachine.mk Hdsk.new fun _ => none).insertAll images

end EthernetGateway.Machine
