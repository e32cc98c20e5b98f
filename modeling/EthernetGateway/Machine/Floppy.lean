import EthernetGateway.Machine.Host
import EthernetGateway.Machine.Wd1771

/-!
# A floppy board and the sector a guest is writing

A board wraps the chip: it selects a drive and a side, and knows where a track is in the image.
What a guest asks for is a `Flight`: the drive, side, track and sector of its last Write Sector,
and the bytes it has written for it since. It is made of nothing but what the guest did and what
was selected when it did it.
-/

namespace EthernetGateway.Machine

open Wd1771 (Reg Kind Move)

/-! ## Boards -/

/-- Where a track is in an image, and how it is recorded. -/
structure TrackFormat where
  start : Nat
  len : Nat
  count : Nat
  deriving DecidableEq

/-- The place of a sector of a track, numbered from 1. -/
def TrackFormat.place (format : TrackFormat) (sector : UInt8) : Option Nat :=
  if sector = 0 ∨ format.count < sector.toNat then none
  else some (format.start + (sector.toNat - 1) * format.len)

/-- A board built on the chip. -/
class FloppyBoard (β : Type) extends Controller β where
  chip : β → Wd1771
  /-- The drive selected. -/
  drive : β → Nat
  /-- The side selected. -/
  side : β → Nat
  /-- The drive and the side the command in progress was issued on. -/
  latched : β → Option (Nat × Nat)
  /-- A track of the disk in a drive. -/
  trackAt : β → Nat → Nat → UInt8 → Option TrackFormat
  /-- The chip's register at a port. -/
  register : UInt8 → Option Reg

/-- What a guest does to a port. -/
inductive PortOp where
  | input (port : UInt8)
  | output (port value : UInt8)

/-- A guest at a port. -/
def BootMachine.access {β : Type} [Controller β] (machine : BootMachine β) :
    PortOp → BootMachine β
  | .input port => (machine.portIn port).2
  | .output port value => machine.portOut port value

/-! ## The sector in flight -/

/-- Whether a command byte is a Write Sector. -/
def IsWriteSector (cmd : UInt8) : Prop := Kind.of cmd = .two ∧ cmd &&& 0x20 ≠ 0

instance (cmd : UInt8) : Decidable (IsWriteSector cmd) := inferInstanceAs (Decidable (_ ∧ _))

/-- The sector a guest is writing. -/
structure Flight where
  drive : Nat
  side : Nat
  track : UInt8
  sector : UInt8
  multi : Bool
  /-- What the guest has written for the sector so far. -/
  bytes : List UInt8
  deriving DecidableEq

section Boards

variable {β : Type} [FloppyBoard β]

open FloppyBoard (chip trackAt register)

namespace Flight

/-- The track a sector is on. -/
def format (flight : Flight) (board : β) : Option TrackFormat :=
  trackAt board flight.drive flight.side flight.track

/-- A byte for the sector: once it is full, the next sector of the track is in flight, if the
command asked for more and there is one. -/
def collect (flight : Flight) (board : β) (byte : UInt8) : Option Flight :=
  let more := { flight with bytes := flight.bytes ++ [byte] }
  (flight.format board).elim (some more) fun format =>
    if more.bytes.length < format.len then some more
    else if flight.multi ∧ flight.sector.toNat + 1 ≤ format.count then
      some { flight with sector := flight.sector + 1, bytes := [] }
    else none

/-- The sector in flight after a guest's doing: a command puts an end to one, and a Write Sector
starts another on what is selected. -/
def next (board : β) (flight : Option Flight) : PortOp → Option Flight
  | .input _ => flight
  | .output port value =>
    match register β port with
    | some .command =>
      if IsWriteSector value then
        some ⟨FloppyBoard.drive board, FloppyBoard.side board, (chip board).track,
          (chip board).sector, value &&& 0x10 ≠ 0, []⟩
      else none
    | some .data => flight.bind fun flight => flight.collect board value
    | _ => flight

end Flight

/-- A step that writes as asked: the images stay as they were, or the guest has given the last
byte of the sector in flight, and that whole sector of the image holds what it gave. -/
def WrittenAsAsked (machine : BootMachine β) (flight : Option Flight) (op : PortOp) : Prop :=
  (machine.access op).disks = machine.disks ∨
    ∃ asked format place port byte image, flight = some asked ∧
      op = .output port byte ∧ register β port = some .data ∧
      asked.format machine.board = some format ∧ format.place asked.sector = some place ∧
      (asked.bytes ++ [byte]).length = format.len ∧
      machine.disks asked.drive = some image ∧ image.readOnly = false ∧
      (machine.access op).disks =
        Function.update machine.disks asked.drive
          (some (image.put place (asked.bytes ++ [byte])))

/-- A run that writes as asked at every step. -/
def WritesAsAsked (machine : BootMachine β) (flight : Option Flight) : List PortOp → Prop
  | [] => True
  | op :: ops =>
    WrittenAsAsked machine flight op ∧
      WritesAsAsked (machine.access op) (Flight.next machine.board flight op) ops

/-- The track and sector registers, where a byte completes a sector, are those of the sector in
flight. -/
def RegistersHeld (board : β) (flight : Option Flight) : PortOp → Prop
  | .input _ => True
  | .output port _ =>
    register β port = some .data → (chip board).moving = .writing →
      (chip board).pos + 1 = (chip board).xferLen →
      ∀ asked ∈ flight, (chip board).track = asked.track ∧ (chip board).sector = asked.sector

/-- A run in which every byte that completes a sector finds the registers held. -/
def HoldsRegisters (machine : BootMachine β) (flight : Option Flight) : List PortOp → Prop
  | [] => True
  | op :: ops =>
    RegistersHeld machine.board flight op ∧
      HoldsRegisters (machine.access op) (Flight.next machine.board flight op) ops

instance (board : β) (flight : Option Flight) (op : PortOp) :
    Decidable (RegistersHeld board flight op) :=
  match op, flight with
  | .input _, _ => isTrue trivial
  | .output _ _, none => isTrue fun _ _ _ _ none => nomatch none
  | .output port _, some asked =>
    decidable_of_iff (register β port = some .data → (chip board).moving = .writing →
      (chip board).pos + 1 = (chip board).xferLen →
        (chip board).track = asked.track ∧ (chip board).sector = asked.sector)
      (by simp [RegistersHeld])

instance decidableHoldsRegisters (machine : BootMachine β) (flight : Option Flight) :
    (ops : List PortOp) → Decidable (HoldsRegisters machine flight ops)
  | [] => isTrue trivial
  | op :: ops =>
    have := decidableHoldsRegisters (machine.access op) (Flight.next machine.board flight op) ops
    inferInstanceAs (Decidable (_ ∧ _))

end Boards

end EthernetGateway.Machine
