import Mathlib

/-!
# A memory of sixteen address bits

Blocks of bytes are read and written from an address upward, and the address after the last is the
first. A block that is no longer than the memory is read back as it was written, and every byte
outside it stays.
-/

namespace EthernetGateway

/-- A byte at every address of sixteen bits. -/
abbrev Memory := UInt16 → UInt8

namespace Memory

/-- Put one byte. -/
def poke (mem : Memory) (address : UInt16) (byte : UInt8) : Memory := fun a =>
  if a = address then byte else mem a

/-- The bytes from an address upward. -/
def readBlock (mem : Memory) (address : UInt16) : Nat → UInt8 := fun i =>
  mem (address + UInt16.ofNat i)

/-- Put bytes from an address upward. -/
def writeBlock (mem : Memory) (address : UInt16) : List UInt8 → Memory
  | [] => mem
  | byte :: data => (mem.poke address byte).writeBlock (address + 1) data

/-! ## Addresses -/

/-- One address up, then `i`, is `i + 1` up. -/
theorem add_one_ofNat (address : UInt16) (i : Nat) :
    address + 1 + UInt16.ofNat i = address + UInt16.ofNat (i + 1) := by
  rw [UInt16.ofNat_add, UInt16.add_assoc, UInt16.add_comm 1]
  rfl

/-- Offsets below the size of the memory are apart when they differ. -/
theorem add_ofNat_inj {address : UInt16} {i j : Nat} (first : i < 65536) (second : j < 65536) :
    address + UInt16.ofNat i = address + UInt16.ofNat j ↔ i = j := by
  rw [UInt16.add_right_inj, ← UInt16.toNat_inj, UInt16.toNat_ofNat', UInt16.toNat_ofNat',
    Nat.mod_eq_of_lt first, Nat.mod_eq_of_lt second]

/-! ## Bytes after a write -/

@[simp] theorem poke_here (mem : Memory) (address : UInt16) (byte : UInt8) :
    mem.poke address byte address = byte := if_pos rfl

theorem poke_other (mem : Memory) {address a : UInt16} (byte : UInt8) (other : a ≠ address) :
    mem.poke address byte a = mem a := if_neg other

/-- A byte outside the block stays. -/
theorem writeBlock_outside (mem : Memory) (address : UInt16) (data : List UInt8) (a : UInt16)
    (outside : ∀ i < data.length, a ≠ address + UInt16.ofNat i) :
    mem.writeBlock address data a = mem a := by
  induction data generalizing mem address with
  | nil => rfl
  | cons byte data ih =>
    have first : a ≠ address := by
      have apart := outside 0 (Nat.zero_lt_succ _)
      rwa [show address + UInt16.ofNat 0 = address from UInt16.add_zero address] at apart
    have rest : ∀ i < data.length, a ≠ address + 1 + UInt16.ofNat i := fun i inside => by
      rw [add_one_ofNat]
      exact outside (i + 1) (Nat.succ_lt_succ inside)
    rw [writeBlock, ih _ _ rest, poke_other mem byte first]

/-- A byte of the block is the byte written. -/
theorem writeBlock_inside (mem : Memory) (address : UInt16) (data : List UInt8)
    (fits : data.length ≤ 65536) (i : Nat) (inside : i < data.length) :
    mem.writeBlock address data (address + UInt16.ofNat i) = data[i] := by
  induction data generalizing mem address i with
  | nil => exact absurd inside (Nat.not_lt_zero i)
  | cons byte data ih =>
    rw [List.length_cons] at fits inside
    cases i with
    | zero =>
      have before : ∀ j < data.length,
          address + UInt16.ofNat 0 ≠ address + 1 + UInt16.ofNat j := fun j below => by
        rw [add_one_ofNat, Ne, add_ofNat_inj (by decide) (by omega)]
        omega
      rw [writeBlock, writeBlock_outside _ _ _ _ before,
        show address + UInt16.ofNat 0 = address from UInt16.add_zero address, poke_here]
      rfl
    | succ i =>
      have below : i < data.length := by omega
      rw [writeBlock, ← add_one_ofNat, ih _ _ (by omega) i below]
      rfl

end Memory

end EthernetGateway
