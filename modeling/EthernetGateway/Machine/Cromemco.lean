import EthernetGateway.Machine.Floppy

/-!
# The Cromemco 4FDC and 16FDC

Three sizes of disk, two sides, and two densities on one disk: track 0 is recorded single-density
on every one. The control port selects a drive, the auxiliary port a side, and a command holds
both until it finishes.
-/

namespace EthernetGateway.Machine

open Wd1771 (Reg)

/-- `SD_SECTOR_LEN`. -/
abbrev sdSectorLen : Nat := 128

/-- `SD_SECTORS`. -/
abbrev sdSectors : Nat := 26

/-- `SD_TRACK_BYTES`. -/
abbrev sdTrackBytes : Nat := sdSectorLen * sdSectors

/-- `DD_SECTOR_LEN`. -/
abbrev ddSectorLen : Nat := 512

/-- `DD_SECTORS`. -/
abbrev ddSectors : Nat := 16

/-- `DD_TRACK_BYTES`. -/
abbrev ddTrackBytes : Nat := ddSectorLen * ddSectors

/-- `CYLINDERS`. -/
abbrev cromemcoCylinders : UInt8 := 77

/-- `DRIVES`. -/
abbrev cromemcoDrives : Nat := 4

/-- `Format`, without its label. -/
structure CromemcoFormat where
  bytes : Nat
  sides : Nat
  doubleDensity : Bool
  deriving DecidableEq

namespace CromemcoFormat

/-- `FORMATS`. -/
def formats : List CromemcoFormat :=
  [⟨256256, 1, false⟩, ⟨625920, 1, true⟩, ⟨1256704, 2, true⟩]

/-- `track_bytes`. -/
def trackBytes (format : CromemcoFormat) : Nat :=
  if format.doubleDensity then ddTrackBytes else sdTrackBytes

/-- `track_format`: the length of a sector, and the number of them. -/
def trackFormat (format : CromemcoFormat) (index : Nat) : Nat × Nat :=
  if 0 < index ∧ format.doubleDensity then (ddSectorLen, ddSectors) else (sdSectorLen, sdSectors)

/-- `track_offset`. -/
def trackOffset (format : CromemcoFormat) (index : Nat) : Nat :=
  if index = 0 then 0 else sdTrackBytes + (index - 1) * format.trackBytes

/-- `tracks`. -/
def tracks (format : CromemcoFormat) : Nat := cromemcoCylinders.toNat * format.sides

end CromemcoFormat

/-- A drive of the board. -/
structure CromemcoDrive where
  present : Bool
  readOnly : Bool
  format : Option CromemcoFormat

/-- `Cromemco`, without its count of idle polls. -/
structure Cromemco where
  chip : Wd1771
  drives : Nat → CromemcoDrive
  selected : Nat
  control : UInt8
  aux : UInt8
  inFlight : Option (Nat × UInt8)

namespace Cromemco

/-- `Cromemco::new`. -/
def new : Cromemco where
  chip := .new
  drives := fun _ => ⟨false, true, none⟩
  selected := 0
  control := 0
  aux := 0x02
  inFlight := none

/-- `format`. -/
def format (board : Cromemco) : Option CromemcoFormat := (board.drives board.selected).format

/-- `side`: always 0 on a single-sided disk. -/
def side (board : Cromemco) : Nat :=
  match board.format with
  | some format => if 1 < format.sides ∧ board.aux &&& 0x02 = 0 then 1 else 0
  | none => 0

/-- `track_index`. -/
def trackIndex (board : Cromemco) (cylinder : UInt8) : Option Nat :=
  board.format.bind fun format =>
    let index := cylinder.toNat * format.sides + board.side
    if cylinder < cromemcoCylinders ∧ index < format.tracks then some index else none

/-- `offset`. -/
def offset (board : Cromemco) (cylinder sector : UInt8) : Option (Nat × Nat) :=
  board.format.bind fun format =>
    (board.trackIndex cylinder).bind fun index =>
      let (len, count) := format.trackFormat index
      if sector = 0 ∨ count < sector.toNat then none
      else some (format.trackOffset index + (sector.toNat - 1) * len, len)

/-- `refresh_for`: the format is left alone under a transfer in flight. -/
def refreshFor (board : Cromemco) (command : Bool) : Cromemco :=
  let drive := board.drives board.selected
  let chip :=
    (board.chip.setDrive drive.present drive.readOnly cromemcoCylinders).setSide
      (.ofNat board.side)
  match drive.format with
  | some format =>
    if command ∨ ¬chip.busy then
      let (len, count) := format.trackFormat ((board.trackIndex chip.track).getD 0)
      { board with chip := chip.setFormat len count }
    else { board with chip }
  | none => { board with chip }

/-- `refresh`. -/
def refresh (board : Cromemco) : Cromemco := board.refreshFor false

/-- The board as it was selected when the command in flight was issued. -/
def issued (board : Cromemco) : Cromemco :=
  match board.inFlight with
  | some (drive, aux) => { board with selected := drive, aux }
  | none => board

/-- `serve_selected`. -/
def serveSelected (board : Cromemco) (need : Need) (ahead : Bool) : HostRequest × Cromemco :=
  match need with
  | .none => (.none, board)
  | .read track sector =>
    match board.issued.offset track sector with
    | some (place, len) =>
      (if ahead then .readAhead board.issued.selected place len
        else .read board.issued.selected place len, board)
    | none => (.none, { board with chip := board.chip.recordMissing })
  | .write track sector =>
    match board.issued.offset track sector with
    | some (place, len) => (.write board.issued.selected place len, board)
    | none => (.none, { board with chip := board.chip.recordMissing })

/-- `serve`. -/
def serve (board : Cromemco) (need : Need) (ahead : Bool) : HostRequest × Cromemco :=
  let (request, board) := board.serveSelected need ahead
  (request, if board.chip.busy then board else { board with inFlight := none })

/-- `disk_status`. -/
def diskStatus (board : Cromemco) : UInt8 :=
  0x20 ||| (if board.chip.intrq then 0x01 else 0) ||| (if board.chip.drq then 0x02 else 0)

/-- `port_in`. -/
def portIn (board : Cromemco) (port : UInt8) : (UInt8 × HostRequest) × Cromemco :=
  if port = 0x34 then ((board.diskStatus, .none), board)
  else if port = 0x04 then ((0x00, .none), board)
  else
    let out := board.chip.read (.of port)
    let served := { board with chip := out.2 }.serve out.1.2 true
    ((out.1.1, served.1), served.2)

/-- The drive a control value selects: the lowest bit raised, and none when no bit is. -/
def selects (value : UInt8) : Option Nat :=
  if value &&& 1 ≠ 0 then some 0
  else if value &&& 2 ≠ 0 then some 1
  else if value &&& 4 ≠ 0 then some 2
  else if value &&& 8 ≠ 0 then some 3
  else none

/-- `port_out`. -/
def portOut (board : Cromemco) (port value : UInt8) : HostRequest × Cromemco :=
  if port = 0x34 then
    (.none,
      { board with control := value, selected := (selects value).getD board.selected }.refresh)
  else if port = 0x04 then (.none, { board with aux := value }.refresh)
  else
    let board := if Reg.of port = .command then board.refreshFor true else board
    let out := board.chip.write value (.of port)
    let board := { board with chip := out.2 }
    let board :=
      if Reg.of port = .command then
        { board with
          inFlight := if board.chip.busy then some (board.selected, board.aux) else none }
      else board
    board.serve out.1 false

/-- `insert`. -/
def insert (board : Cromemco) (drive length : Nat) (readOnly : Bool) : Option Cromemco :=
  let format := CromemcoFormat.formats.find? fun format =>
    decide (format.bytes ≤ length ∧ length - format.bytes < sdSectorLen)
  format.bind fun format =>
    if drive < cromemcoDrives then
      let board :=
        { board with drives := Function.update board.drives drive ⟨true, readOnly, some format⟩ }
      some (if drive = board.selected then board.refresh else board)
    else none

/-- `cold_started`. -/
def coldStarted (board : Cromemco) (drive : Nat) : Cromemco :=
  let board :=
    { board with
      selected := min drive (cromemcoDrives - 1), aux := 0x02
      chip := board.chip.setFormat sdSectorLen sdSectors }.refresh
  { board with chip := board.chip.assumeReadCompleted 0 1 }

instance : FloppyBoard Cromemco where
  portIn := portIn
  portOut := portOut
  bufferLoaded board _ bytes := { board with chip := board.chip.sectorLoaded bytes }
  buffer board _ := some board.chip.sectorOut
  insert := insert
  chip := Cromemco.chip
  drive := selected
  side := Cromemco.side
  latched board := board.inFlight.map fun held =>
    (held.1, { board with selected := held.1, aux := held.2 }.side)
  trackAt board drive side cylinder :=
    (board.drives drive).format.bind fun format =>
      let index := cylinder.toNat * format.sides + side
      if cylinder < cromemcoCylinders ∧ index < format.tracks then
        some ⟨format.trackOffset index, (format.trackFormat index).1, (format.trackFormat index).2⟩
      else none
  register port := if port = 0x34 ∨ port = 0x04 then none else some (.of port)

end Cromemco

/-- A machine with images inserted, and a drive it was booted from. -/
def cromemcoMachine (images : List (Nat × Mounted)) (boot : Option Nat) : BootMachine Cromemco :=
  let machine := (BootMachine.mk Cromemco.new fun _ => none).insertAll images
  { machine with board := boot.elim machine.board machine.board.coldStarted }

end EthernetGateway.Machine
