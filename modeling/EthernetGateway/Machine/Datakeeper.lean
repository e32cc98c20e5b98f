import EthernetGateway.Machine.Hdsk

/-!
# The 88-HDSK as a disk

A `Datakeeper` is what the board is for: heads on cylinders, four buffers, and a sector at every
address of every platter, whatever the images and the offsets in them. A guest that sends whole
commands sees one. The only thing it must not leave behind is the byte of a Read Status: the data
port hands that out first, ahead of a buffer.
-/

namespace EthernetGateway.Machine

open Hdsk (Command unitOf platterOf sideOf sectorOf bufferOf)

/-! ## The disk -/

/-- Where a sector is. -/
structure HdskAddress where
  unit : Fin hdskUnits
  platter : Fin hdskPlatters
  side : Fin hdskHeads
  cylinder : Fin hdskCylinders
  sector : Fin hdskSectors
  deriving DecidableEq

namespace HdskAddress

/-- The slot of the machine with a sector's image. -/
def slot (address : HdskAddress) : Nat := address.unit * hdskPlatters + address.platter

/-- Where a sector starts in its image. -/
def place (address : HdskAddress) : Nat :=
  Hdsk.place address.cylinder address.side address.sector

end HdskAddress

/-- The disk a guest works with. -/
structure Datakeeper where
  /-- The cylinder each drive's heads are on. -/
  heads : Fin hdskUnits → Nat
  buffers : Fin 4 → HdskSector
  /-- What each sector holds. -/
  surface : HdskAddress → HdskSector

/-- The platters on the drives, each with whether it is read-only. -/
abbrev HdskDrives : Type := Fin hdskUnits → Fin hdskPlatters → Option Bool

/-- What a guest does to the board: it sends a whole command, low byte first, with the buffer or
the byte the command takes or gives, or it reads a port. The byte of a Read Status is read, or
left, that way. -/
inductive GuestOp where
  | command (high low : UInt8) (data : HdskSector)
  | poll (port : UInt8)

namespace GuestOp

/-- The word of a command. -/
def word (high low : UInt8) : Nat := high.toNat * 2 ^ 8 + low.toNat

/-- A buffer goes up or down whole. -/
def Whole : GuestOp → Prop
  | command high low _ =>
    Command.of (word high low) = .readBuffer ∨ Command.of (word high low) = .writeBuffer → low = 0
  | poll _ => True

/-- Whether the guest asks for a buffer. -/
def ReadsBuffer : GuestOp → Prop
  | command high low _ => Command.of (word high low) = .readBuffer
  | poll _ => False

/-- Whether a guest's doings leave a buffer what it was. -/
def Keeps (buffer : Fin 4) : GuestOp → Prop
  | command high low _ =>
    let word := GuestOp.word high low
    Command.of word = .readSector ∨ Command.of word = .readUnformatted ∨
      Command.of word = .writeBuffer → bufferOf word ≠ buffer
  | poll _ => True

end GuestOp

namespace Datakeeper

variable (drives : HdskDrives)

/-- Whether a drive has a platter. -/
def Ready (unit : Fin hdskUnits) : Prop :=
  ∃ platter : Fin hdskPlatters, (drives unit platter).isSome

/-- The sector a sector command is about: on the cylinder its drive's heads are on. -/
def addressed (disk : Datakeeper) (word : Nat) : Option HdskAddress :=
  if there : (drives (unitOf word) (platterOf word)).isSome ∧ sectorOf word < hdskSectors ∧
      disk.heads (unitOf word) < hdskCylinders then
    some ⟨unitOf word, platterOf word, sideOf word, ⟨_, there.2.2⟩, ⟨_, there.2.1⟩⟩
  else none

instance (unit : Fin hdskUnits) : Decidable (Ready drives unit) :=
  inferInstanceAs (Decidable (∃ platter : Fin hdskPlatters, (drives unit platter).isSome))

/-- What a command does to the disk. -/
def command (disk : Datakeeper) (word : Nat) (data : HdskSector) : Datakeeper :=
  let unit := unitOf word
  match Command.of word with
  | .seek =>
    if Ready drives unit ∧ word % 2 ^ 9 < hdskCylinders then
      { disk with heads := Function.update disk.heads unit (word % 2 ^ 9) }
    else disk
  | .readSector | .readUnformatted =>
    (disk.addressed drives word).elim disk fun address =>
      { disk with
        buffers := Function.update disk.buffers (bufferOf word) (disk.surface address) }
  | .writeSector =>
    (disk.addressed drives word).elim disk fun address =>
      if drives unit (platterOf word) = some false then
        { disk with
          surface := Function.update disk.surface address (disk.buffers (bufferOf word)) }
      else disk
  | .writeBuffer => { disk with buffers := Function.update disk.buffers (bufferOf word) data }
  | .readBuffer | .readStatus => disk
  | .setByte =>
    if (.ofNat word) = Hdsk.diskControlB ∧ (data ⟨0, by decide⟩ &&& Hdsk.cylRestore) = 0 ∧
        Ready drives unit then
      { disk with heads := Function.update disk.heads unit 0 }
    else disk
  | .format =>
    if drives unit (platterOf word) = some false then
      { disk with
        heads := Function.update disk.heads unit 0
        surface := fun address =>
          if address.unit = unit ∧ address.platter = platterOf word ∧
              address.side = sideOf word then
            fun _ => Hdsk.formatFill
          else disk.surface address }
    else disk
  | .initialise =>
    { disk with heads := fun unit => if Ready drives unit then 0 else disk.heads unit }

/-- The sectors a command may change: the one it writes, or those of the side it formats, and
only on a platter that is not read-only. -/
def Touches (disk : Datakeeper) (word : Nat) (address : HdskAddress) : Prop :=
  drives (unitOf word) (platterOf word) = some false ∧
    (Command.of word = .writeSector ∧ disk.addressed drives word = some address ∨
      Command.of word = .format ∧ address.unit = unitOf word ∧
        address.platter = platterOf word ∧ address.side = sideOf word)

/-- What each sector a command changes holds after it. -/
def puts (disk : Datakeeper) (word : Nat) : HdskSector :=
  if Command.of word = .writeSector then disk.buffers (bufferOf word)
  else fun _ => Hdsk.formatFill

/-- What a guest's doings do to the disk. -/
def step (disk : Datakeeper) : GuestOp → Datakeeper
  | .command high low data => disk.command drives (GuestOp.word high low) data
  | .poll _ => disk

/-- The sectors a guest's doings may change. -/
def Changes (disk : Datakeeper) : GuestOp → HdskAddress → Prop
  | .command high low _, address => disk.Touches drives (GuestOp.word high low) address
  | .poll _, _ => False

/-- A run that changes a sector at no step. -/
def Spares (disk : Datakeeper) : List GuestOp → HdskAddress → Prop
  | [], _ => True
  | op :: ops, address => ¬disk.Changes drives op address ∧ (disk.step drives op).Spares ops address

/-- A run. -/
def run (disk : Datakeeper) (ops : List GuestOp) : Datakeeper :=
  ops.foldl (step drives) disk

end Datakeeper

/-! ## The board as a guest drives it -/

section Guest

/-- Read the data port some number of times. -/
def readMany : Nat → BootMachine Hdsk → List UInt8 × BootMachine Hdsk
  | 0, machine => ([], machine)
  | count + 1, machine =>
    let (byte, next) := machine.portIn 0xA5
    let (bytes, last) := readMany count next
    (byte :: bytes, last)

/-- Write bytes to the data port. -/
def writeMany (machine : BootMachine Hdsk) (bytes : List UInt8) : BootMachine Hdsk :=
  bytes.foldl (fun machine byte => machine.portOut 0xA7 byte) machine

/-- What a guest does: the bytes it gets, and the machine after. -/
def perform (machine : BootMachine Hdsk) : GuestOp → List UInt8 × BootMachine Hdsk
  | .command high low data =>
    let sent := (machine.portOut 0xA7 low).portOut 0xA3 high
    match Command.of (GuestOp.word high low) with
    | .readBuffer => readMany hdskSectorLen sent
    | .writeBuffer => ([], writeMany sent (List.ofFn data))
    | .setByte => ([], sent.portOut 0xA7 (data ⟨0, by decide⟩))
    | _ => ([], sent)
  | .poll port =>
    let (byte, next) := machine.portIn port
    ([byte], next)

/-- The machine after a run. -/
def runOps (machine : BootMachine Hdsk) (ops : List GuestOp) : BootMachine Hdsk :=
  ops.foldl (fun machine op => (perform machine op).2) machine

/-- A run that asks for no buffer while the byte of a Read Status is still to be taken. -/
def Orderly : BootMachine Hdsk → List GuestOp → Prop
  | _, [] => True
  | machine, op :: ops =>
    (op.ReadsBuffer → machine.board.statusByte = none) ∧ Orderly (perform machine op).2 ops

end Guest

/-! ## The disk in a machine -/

/-- The platters in a board. -/
def Hdsk.drives (board : Hdsk) : HdskDrives := fun unit platter =>
  if (board.platters unit platter).present then some (board.platters unit platter).readOnly
  else none

/-- The disk a machine holds. -/
def disk (machine : BootMachine Hdsk) : Datakeeper where
  heads := machine.board.cylinders
  buffers := machine.board.buffers
  surface address i :=
    ((machine.disks address.slot).map fun image => image.bytes (address.place + i)).getD 0

/-- A machine between two commands: every platter is where the board has it, the heads are on
the platters, and nothing is owed. -/
structure Idle (machine : BootMachine Hdsk) : Prop where
  loaded : ∀ unit platter, (machine.board.platters unit platter).present →
    (machine.board.platters unit platter).slot = unit * hdskPlatters + platter ∧
      ∃ image, machine.disks (unit * hdskPlatters + platter) = some image ∧
        hdskImageLen ≤ image.length ∧
        image.readOnly = (machine.board.platters unit platter).readOnly
  heads : ∀ unit, machine.board.cylinders unit < hdskCylinders
  transfer : machine.board.transfer = none
  ivPending : machine.board.ivPending = none

/-- Images that differ in nothing but bytes of some sectors. -/
structure ChangesOnly (machine next : BootMachine Hdsk) (touched : HdskAddress → Prop) : Prop where
  empty : ∀ slot, machine.disks slot = none → next.disks slot = none
  image : ∀ slot image, machine.disks slot = some image →
    ∃ after, next.disks slot = some after ∧ after.length = image.length ∧
      after.readOnly = image.readOnly ∧
      ∀ place, after.bytes place ≠ image.bytes place →
        ∃ address, touched address ∧ address.slot = slot ∧ address.place ≤ place ∧
          place < address.place + hdskSectorLen

/-- What a command has to come to: an idle machine with the same platters that holds the disk
after the command, and no byte changed but in sectors the command touches. -/
structure Refined (machine next : BootMachine Hdsk) (after : Datakeeper)
    (touched : HdskAddress → Prop) : Prop where
  idle : Idle next
  drives : next.board.drives = machine.board.drives
  disk : disk next = after
  changes : ChangesOnly machine next touched

/-- A machine that is a disk to a guest over a run. -/
structure Served (machine : BootMachine Hdsk) (ops : List GuestOp) : Prop where
  /-- A sector read, and then its buffer, gives what the disk holds there. -/
  delivers : ∀ before between after high low data high' data' address,
    ops = before ++ .command high low data :: between ++ .command high' 0 data' :: after →
    Command.of (GuestOp.word high low) = .readSector ∨
      Command.of (GuestOp.word high low) = .readUnformatted →
    Command.of (GuestOp.word high' 0) = .readBuffer →
    bufferOf (GuestOp.word high' 0) = bufferOf (GuestOp.word high low) →
    (∀ op ∈ between, op.Keeps (bufferOf (GuestOp.word high low))) →
    let held := (disk machine).run machine.board.drives before
    held.addressed machine.board.drives (GuestOp.word high low) = some address →
    (perform (runOps machine (before ++ .command high low data :: between))
      (.command high' 0 data')).1 = List.ofFn (held.surface address)
  /-- A sector no command has changed holds the image's bytes. -/
  original : ∀ before after address, ops = before ++ after →
    (disk machine).Spares machine.board.drives before address →
    ((disk machine).run machine.board.drives before).surface address =
      (disk machine).surface address
  /-- A sector holds what the last command to change it put there. -/
  latest : ∀ before since after high low data address,
    ops = before ++ .command high low data :: since ++ after →
    let held := (disk machine).run machine.board.drives before
    held.Touches machine.board.drives (GuestOp.word high low) address →
    (held.command machine.board.drives (GuestOp.word high low) data).Spares machine.board.drives
      since address →
    ((disk machine).run machine.board.drives
      (before ++ .command high low data :: since)).surface address =
        held.puts (GuestOp.word high low)
  /-- A command changes no byte but in sectors it addresses. -/
  changes : ∀ before op after, ops = before ++ op :: after →
    ChangesOnly (runOps machine before) (runOps machine (before ++ [op]))
      (((disk machine).run machine.board.drives before).Changes machine.board.drives op)

end EthernetGateway.Machine
