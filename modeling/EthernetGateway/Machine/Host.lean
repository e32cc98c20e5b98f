import EthernetGateway.Medium

/-!
# The seam between a booted machine and a disk controller

A controller claims ports and does its own address arithmetic. When it needs the medium it asks
the machine for a byte range (`HostRequest`), and `BootMachine.service` copies those bytes out of
or into the image in the slot named. Everything a guest can do to a disk is a read or a write of
one of the controller's ports.
-/

namespace EthernetGateway.Machine

/-- `HostRequest`, without the transfer straight to guest memory, which only a board with no data
register asks for. -/
inductive HostRequest where
  /-- Nothing to do. -/
  | none
  /-- Fill the controller's buffer; the port read that asked has no answer yet. -/
  | read (drive : Nat) (offset len : Nat)
  /-- Fill the controller's buffer; the port read that asked has been answered. -/
  | readAhead (drive : Nat) (offset len : Nat)
  /-- Write the controller's buffer back. -/
  | write (drive : Nat) (offset len : Nat)
  /-- Set runs of bytes, a stride apart, to one byte. -/
  | fill (drive : Nat) (offset chunk stride count : Nat) (byte : UInt8)
  deriving DecidableEq

/-- `Controller`: the parts of a disk controller its ports and the machine use. -/
class Controller (β : Type) where
  /-- `port_in`. -/
  portIn : β → UInt8 → (UInt8 × HostRequest) × β
  /-- `port_out`. -/
  portOut : β → UInt8 → UInt8 → HostRequest × β
  /-- `buffer_loaded`. -/
  bufferLoaded : β → Nat → List UInt8 → β
  /-- `buffer`. -/
  buffer : β → Nat → Option (List UInt8)
  /-- `insert`, for a drive, the length of an image, and whether it is read-only. -/
  insert : β → Nat → Nat → Bool → Option β

/-- `Mounted`: an image in a slot of the machine, a byte at every address below its length. -/
structure Mounted where
  length : Nat
  bytes : Contents
  readOnly : Bool
  dirty : Bool

namespace Mounted

/-- `bytes.get(offset..offset + len)`. -/
def get (image : Mounted) (offset len : Nat) : Option (List UInt8) :=
  if offset + len ≤ image.length then
    some (List.ofFn fun i : Fin len => image.bytes (offset + i))
  else none

/-- `copy_from_slice` into the bytes from an offset on. -/
def put (image : Mounted) (offset : Nat) (data : List UInt8) : Mounted :=
  { image with
    bytes := Write.apply ⟨offset, data.length, fun i => data.get i⟩ image.bytes
    dirty := true }

/-- One run of a fill: skipped when it does not fit. -/
def fillRun (image : Mounted) (offset chunk : Nat) (byte : UInt8) : Mounted :=
  if offset + chunk ≤ image.length then
    { image with
      bytes := fun address =>
        if offset ≤ address ∧ address < offset + chunk then byte else image.bytes address
      dirty := true }
  else image

/-- The runs of a fill, in order. -/
def fill (image : Mounted) (offset chunk stride : Nat) (byte : UInt8) : Nat → Mounted
  | 0 => image
  | count + 1 => (image.fill offset chunk stride byte count).fillRun (offset + stride * count)
      chunk byte

end Mounted

/-- The parts of `BootMachine` a disk controller has to do with: the controller, and the image in
each slot. -/
structure BootMachine (β : Type) where
  board : β
  disks : Nat → Option Mounted

namespace BootMachine

variable {β : Type} [Controller β]

/-- Put an image back in a slot that holds one. -/
def setDisk (machine : BootMachine β) (drive : Nat) (image : Mounted) : BootMachine β :=
  { machine with disks := Function.update machine.disks drive (some image) }

/-- `BootMachine::insert`, on a machine with one controller. -/
def insert (machine : BootMachine β) (drive : Nat) (image : Mounted) : BootMachine β :=
  match Controller.insert machine.board drive image.length image.readOnly with
  | none => machine
  | some board => { machine with board }.setDisk drive { image with dirty := false }

/-- A machine with images inserted, one after the other. -/
def insertAll (machine : BootMachine β) (images : List (Nat × Mounted)) : BootMachine β :=
  images.foldl (fun machine image => machine.insert image.1 image.2) machine

/-- The arms of `service` that fill the controller's buffer: bytes past the end of the image, or
of a slot that is empty, come as an erased sector. -/
def load (machine : BootMachine β) (drive offset len : Nat) : BootMachine β :=
  let bytes := (machine.disks drive).bind fun image => image.get offset len
  { machine with
    board := Controller.bufferLoaded machine.board drive (bytes.getD (List.replicate len 0xE5)) }

/-- The arm of `service` that writes the controller's buffer back: not to a read-only image, not
past its end, and not more than the buffer holds. -/
def store (machine : BootMachine β) (drive offset len : Nat) : BootMachine β :=
  match Controller.buffer machine.board drive, machine.disks drive with
  | some buffer, some image =>
    if image.readOnly then machine
    else if offset + len ≤ image.length ∧ len ≤ buffer.length then
      machine.setDisk drive (image.put offset (buffer.take len))
    else machine
  | _, _ => machine

/-- The arm of `service` that fills runs of an image. -/
def erase (machine : BootMachine β) (drive offset chunk stride count : Nat) (byte : UInt8) :
    BootMachine β :=
  match machine.disks drive with
  | none => machine
  | some image =>
    if image.readOnly then machine
    else machine.setDisk drive (image.fill offset chunk stride byte count)

/-- `BootMachine::service`. -/
def service (machine : BootMachine β) : HostRequest → BootMachine β
  | .none => machine
  | .read drive offset len => machine.load drive offset len
  | .readAhead drive offset len => machine.load drive offset len
  | .write drive offset len => machine.store drive offset len
  | .fill drive offset chunk stride count byte => machine.erase drive offset chunk stride count byte

/-- `BootMachine::port_in` on a port of the controller: a read that had to fetch the sector first
asks the controller again. -/
def portIn (machine : BootMachine β) (port : UInt8) : UInt8 × BootMachine β :=
  let first := Controller.portIn machine.board port
  let served := { machine with board := first.2 }.service first.1.2
  match first.1.2 with
  | .read _ _ _ =>
    let second := Controller.portIn served.board port
    (second.1.1, { served with board := second.2 }.service second.1.2)
  | _ => (first.1.1, served)

/-- `BootMachine::port_out` on a port of the controller. -/
def portOut (machine : BootMachine β) (port value : UInt8) : BootMachine β :=
  let out := Controller.portOut machine.board port value
  { machine with board := out.2 }.service out.1

/-! ## What the machine does for a controller -/

/-- A port read that asks for nothing changes the board alone. -/
theorem portIn_none {machine : BootMachine β} {port : UInt8}
    (quiet : (Controller.portIn machine.board port).1.2 = .none) :
    machine.portIn port =
      ((Controller.portIn machine.board port).1.1,
        { machine with board := (Controller.portIn machine.board port).2 }) := by
  simp only [BootMachine.portIn, quiet, BootMachine.service]

/-- A port read that fetches no sector first. -/
theorem portIn_ahead {machine : BootMachine β} {port : UInt8}
    (ahead : ∀ drive place len, (Controller.portIn machine.board port).1.2 ≠ .read drive place len) :
    (machine.portIn port).2 =
      { machine with board := (Controller.portIn machine.board port).2 }.service
        (Controller.portIn machine.board port).1.2 := by
  cases request : (Controller.portIn machine.board port).1.2 with
  | read drive place len => exact absurd request (ahead drive place len)
  | none | readAhead | write | fill => simp only [BootMachine.portIn, request]

@[simp] theorem service_none (machine : BootMachine β) : machine.service .none = machine := rfl

/-- What writing the buffer back does to the images. -/
theorem store_cases (machine : BootMachine β) (drive offset len : Nat) :
    (machine.store drive offset len).board = machine.board ∧
      ((machine.store drive offset len).disks = machine.disks ∨
        ∃ buffer image, Controller.buffer machine.board drive = some buffer ∧
          machine.disks drive = some image ∧ image.readOnly = false ∧
          (machine.store drive offset len).disks =
            Function.update machine.disks drive (some (image.put offset (buffer.take len)))) := by
  unfold store
  cases held : Controller.buffer machine.board drive with
  | none => exact ⟨rfl, .inl rfl⟩
  | some buffer =>
    cases there : machine.disks drive with
    | none => exact ⟨rfl, .inl rfl⟩
    | some image =>
      simp only
      split_ifs with locked fits
      · exact ⟨rfl, .inl rfl⟩
      · exact ⟨rfl, .inr ⟨buffer, image, rfl, rfl, by simpa using locked, rfl⟩⟩
      · exact ⟨rfl, .inl rfl⟩

/-- Inserting images keeps what every insertion keeps of the board. -/
theorem insertAll_board {kept : β → Prop}
    (inserted : ∀ board drive length readOnly after, kept board →
      Controller.insert board drive length readOnly = some after → kept after)
    {machine : BootMachine β} (start : kept machine.board) (images : List (Nat × Mounted)) :
    kept (machine.insertAll images).board := by
  unfold insertAll
  induction images generalizing machine with
  | nil => exact start
  | cons image images ih =>
    refine ih ?_
    show kept (machine.insert image.1 image.2).board
    unfold insert
    cases taken : Controller.insert machine.board image.1 image.2.length image.2.readOnly with
    | none => exact start
    | some board => exact inserted _ _ _ _ _ start taken

end BootMachine

/-! ## What a fill and a write leave -/

namespace Mounted

@[simp] theorem put_length (image : Mounted) (offset : Nat) (data : List UInt8) :
    (image.put offset data).length = image.length := rfl

@[simp] theorem put_readOnly (image : Mounted) (offset : Nat) (data : List UInt8) :
    (image.put offset data).readOnly = image.readOnly := rfl

/-- A byte that was put. -/
theorem put_inside (image : Mounted) {offset : Nat} {data : List UInt8} {i : Nat}
    (inside : i < data.length) : (image.put offset data).bytes (offset + i) = data[i] :=
  Write.apply_inside ⟨offset, data.length, fun i => data.get i⟩ image.bytes ⟨i, inside⟩

/-- A byte outside what was put. -/
theorem put_outside (image : Mounted) {offset address : Nat} {data : List UInt8}
    (outside : address < offset ∨ offset + data.length ≤ address) :
    (image.put offset data).bytes address = image.bytes address :=
  Write.apply_outside _ _ _ outside

@[simp] theorem fillRun_length (image : Mounted) (offset chunk : Nat) (byte : UInt8) :
    (image.fillRun offset chunk byte).length = image.length := by
  unfold fillRun
  split <;> rfl

@[simp] theorem fillRun_readOnly (image : Mounted) (offset chunk : Nat) (byte : UInt8) :
    (image.fillRun offset chunk byte).readOnly = image.readOnly := by
  unfold fillRun
  split <;> rfl

@[simp] theorem fill_length (image : Mounted) (offset chunk stride : Nat) (byte : UInt8)
    (count : Nat) : (image.fill offset chunk stride byte count).length = image.length := by
  induction count with
  | zero => rfl
  | succ count ih => rw [fill, fillRun_length, ih]

@[simp] theorem fill_readOnly (image : Mounted) (offset chunk stride : Nat) (byte : UInt8)
    (count : Nat) : (image.fill offset chunk stride byte count).readOnly = image.readOnly := by
  induction count with
  | zero => rfl
  | succ count ih => rw [fill, fillRun_readOnly, ih]

/-- A fill whose runs all fit sets exactly the bytes under its runs. -/
theorem fill_bytes (image : Mounted) {offset chunk stride count : Nat} (byte : UInt8)
    (fits : ∀ i < count, offset + stride * i + chunk ≤ image.length) (address : Nat) :
    (image.fill offset chunk stride byte count).bytes address =
      if ∃ i < count, offset + stride * i ≤ address ∧ address < offset + stride * i + chunk then
        byte
      else image.bytes address := by
  induction count with
  | zero => simp [fill]
  | succ count ih =>
    have here := fits count (Nat.lt_succ_self count)
    rw [fill, fillRun, fill_length, if_pos here]
    simp only
    split_ifs with inRun inRuns inRuns
    · rfl
    · exact absurd ⟨count, Nat.lt_succ_self count, inRun⟩ inRuns
    · obtain ⟨i, bound, within⟩ := inRuns
      rcases Nat.lt_succ_iff_lt_or_eq.1 bound with earlier | rfl
      · rw [ih fun i bound => fits i (Nat.lt_succ_of_lt bound), if_pos ⟨i, earlier, within⟩]
      · exact absurd within inRun
    · rw [ih fun i bound => fits i (Nat.lt_succ_of_lt bound), if_neg]
      rintro ⟨i, bound, within⟩
      exact inRuns ⟨i, Nat.lt_succ_of_lt bound, within⟩

end Mounted

end EthernetGateway.Machine
