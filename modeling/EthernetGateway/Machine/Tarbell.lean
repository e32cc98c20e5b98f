import EthernetGateway.Machine.Floppy

/-!
# The Tarbell 1011

Five ports on top of the chip, and a latch that selects between two drives. A command holds the
drive it was issued on until it finishes.
-/

namespace EthernetGateway.Machine

open Wd1771 (Reg)

/-- `TRACKS`. -/
abbrev tarbellTracks : UInt8 := 77

/-- `IMAGE_LEN`. -/
abbrev tarbellImageLen : Nat := 77 * fdSectorsPerTrack * fdSectorLen

/-- `SELECTABLE`. -/
abbrev tarbellSelectable : Nat := 2

/-- A drive of the board. -/
structure TarbellDrive where
  present : Bool
  readOnly : Bool

/-- `Tarbell`, without its count of idle waits. -/
structure Tarbell where
  chip : Wd1771
  drives : Nat → TarbellDrive
  selected : Nat
  latch : UInt8
  pending : Nat
  inFlight : Option Nat

namespace Tarbell

/-- `Tarbell::new`. -/
def new : Tarbell where
  chip := .new
  drives := fun _ => ⟨false, true⟩
  selected := 0
  latch := 0
  pending := 0
  inFlight := none

/-- `offset`. -/
def offset (track sector : UInt8) : Option Nat :=
  if tarbellTracks ≤ track ∨ sector = 0 ∨ fdSectorsPerTrack < sector.toNat then none
  else some ((track.toNat * fdSectorsPerTrack + (sector.toNat - 1)) * fdSectorLen)

/-- `refresh_drive`. -/
def refreshDrive (board : Tarbell) : Tarbell :=
  let drive := board.drives board.selected
  { board with chip := board.chip.setDrive drive.present drive.readOnly tarbellTracks }

/-- `serve`. -/
def serve (board : Tarbell) (need : Need) (ahead : Bool) : HostRequest × Tarbell :=
  let drive := board.inFlight.getD board.selected
  let board := if board.chip.busy then board else { board with inFlight := none }
  match need with
  | .none => (.none, board)
  | .read track sector =>
    match offset track sector with
    | some place =>
      (if ahead then .readAhead drive place fdSectorLen else .read drive place fdSectorLen,
        { board with pending := drive })
    | none => (.none, { board with chip := board.chip.recordMissing })
  | .write track sector =>
    match offset track sector with
    | some place => (.write drive place fdSectorLen, { board with pending := drive })
    | none => (.none, { board with chip := board.chip.recordMissing })

/-- `wait_port`. -/
def waitPort (board : Tarbell) : UInt8 := if board.chip.drq then 0x80 else 0x00

/-- `port_in`. -/
def portIn (board : Tarbell) (port : UInt8) : (UInt8 × HostRequest) × Tarbell :=
  if port = 0xFC then ((board.waitPort, .none), board)
  else
    let out := board.chip.read (.of port)
    let served := { board with chip := out.2 }.serve out.1.2 true
    ((out.1.1, served.1), served.2)

/-- A strobe of the latch: the drive select is active low. -/
def strobe (board : Tarbell) (value : UInt8) : Tarbell :=
  { board with
    latch := value &&& 0xF0
    selected := if value &&& 0x10 = 0 then 1 else 0 }.refreshDrive

/-- `port_out`. -/
def portOut (board : Tarbell) (port value : UInt8) : HostRequest × Tarbell :=
  if port = 0xFC then (.none, if value &&& 7 = 2 then board.strobe value else board)
  else
    let board := if Reg.of port = .command then board.refreshDrive else board
    let out := board.chip.write value (.of port)
    let board := { board with chip := out.2 }
    let board :=
      if Reg.of port = .command then
        { board with inFlight := if board.chip.busy then some board.selected else none }
      else board
    board.serve out.1 false

/-- `insert`, for an image of a length the board accepts. -/
def insert (board : Tarbell) (drive length : Nat) (readOnly : Bool) : Option Tarbell :=
  if tarbellImageLen ≤ length ∧ length - tarbellImageLen ≤ fdSectorLen - 1 ∧
      drive < tarbellSelectable then
    let board := { board with drives := Function.update board.drives drive ⟨true, readOnly⟩ }
    some (if drive = board.selected then board.refreshDrive else board)
  else none

/-- `cold_started`. -/
def coldStarted (board : Tarbell) (drive : Nat) : Tarbell :=
  let board := { board with selected := min drive 3 }.refreshDrive
  { board with chip := board.chip.assumeReadCompleted 0 1 }

instance : FloppyBoard Tarbell where
  portIn := portIn
  portOut := portOut
  bufferLoaded board _ bytes := { board with chip := board.chip.sectorLoaded bytes }
  buffer board _ := some board.chip.sectorOut
  insert := insert
  chip := Tarbell.chip
  drive := selected
  side _ := 0
  latched board := board.inFlight.map fun drive => (drive, 0)
  trackAt _ _ _ track :=
    if tarbellTracks ≤ track then none
    else some ⟨track.toNat * fdSectorsPerTrack * fdSectorLen, fdSectorLen, fdSectorsPerTrack⟩
  register port := if port = 0xFC then none else some (.of port)

end Tarbell

/-- A machine with images inserted, and a drive it was booted from. -/
def tarbellMachine (images : List (Nat × Mounted)) (boot : Option Nat) : BootMachine Tarbell :=
  let machine := (BootMachine.mk Tarbell.new fun _ => none).insertAll images
  { machine with board := boot.elim machine.board machine.board.coldStarted }

end EthernetGateway.Machine
