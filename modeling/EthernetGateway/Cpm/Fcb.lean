import EthernetGateway.Image.Entry

/-!
# File control blocks

A program names a file, and a position in it, by the 36 bytes of a file control block. The position
is a record of an extent of a module; the extents and modules a sequential read goes through follow
from the count of records.
-/

namespace EthernetGateway.Cpm

open EthernetGateway.Image

/-- `Fcb`. -/
structure Fcb where
  drive : UInt8
  name : Fin 8 → UInt8
  ext : Fin 3 → UInt8
  ex : UInt8
  s2 : UInt8
  cr : UInt8
  rc : UInt8
  /-- `r`, the random record number, the low byte first. -/
  r : Fin 3 → UInt8

/-- `Fcb::from_bytes`. -/
def Fcb.fromBytes (byte : Nat → UInt8) : Fcb where
  drive := byte 0
  name := strip fun i => byte (1 + i)
  ext := strip fun i => byte (9 + i)
  ex := byte 12
  s2 := byte 14
  cr := byte 32
  rc := byte 15
  r := fun i => byte (33 + i)

/-- `NUM_DRIVES`. -/
def numDrives : UInt8 := 16

/-- `MAX_CPM_FILE_BYTES`. -/
def maxCpmFileBytes : Nat := 8 * 1024 * 1024

/-- `CpmFs::drive_index_for`, given the current drive. -/
def driveIndexFor (current fcbDrive : UInt8) : Option UInt8 :=
  if fcbDrive = 0 then some current
  else if fcbDrive ≤ numDrives then some (fcbDrive - 1)
  else none

/-- The extent number of a position. -/
def Fcb.extent (fcb : Fcb) : Nat := ((fcb.s2.toNat &&& 0x3F) <<< 5) ||| (fcb.ex.toNat &&& 0x1F)

/-- `Fcb::seq_record`. -/
def Fcb.seqRecord (fcb : Fcb) : Nat := fcb.extent * 128 + fcb.cr.toNat

/-- `Fcb::random_record`. -/
def Fcb.randomRecord (fcb : Fcb) : Nat :=
  (fcb.r 0).toNat ||| (fcb.r 1).toNat <<< 8 ||| (fcb.r 2).toNat <<< 16

/-- `Fcb::advance_record`. -/
def Fcb.advanceRecord (fcb : Fcb) : Fcb :=
  if fcb.cr < 127 then { fcb with cr := fcb.cr + 1 }
  else if fcb.ex < 31 then { fcb with cr := 0, ex := fcb.ex + 1 }
  else { fcb with cr := 0, ex := 0, s2 := fcb.s2 + 1 }

/-- `Fcb::store_position`. -/
def Fcb.storePosition (fcb : Fcb) (byte : Nat → UInt8) : Nat → UInt8 := fun i =>
  if i = 12 then fcb.ex
  else if i = 14 then fcb.s2
  else if i = 15 then fcb.rc
  else if i = 32 then fcb.cr
  else byte i

/-- `Fcb::matches`: a question mark matches every character. -/
def Fcb.matches (fcb : Fcb) (name : Fin 8 → UInt8) (ext : Fin 3 → UInt8) : Bool :=
  decide ((∀ i, fcb.name i = 0x3F ∨ fcb.name i = name i) ∧
    ∀ i, fcb.ext i = 0x3F ∨ fcb.ext i = ext i)

/-- `Fcb::search_matches_entry`. -/
def Fcb.searchMatchesEntry (fcb : Fcb) (entry : RawEntry) (exm : UInt8) : Bool :=
  if fcb.matches (strip entry.name) (strip entry.ext) = false then false
  else if fcb.ex ≠ 0x3F ∧ (fcb.ex &&& ~~~exm) &&& 0x1F ≠ (entry.ex &&& ~~~exm) &&& 0x1F then false
  else
    let s2 := if fcb.ex = 0x3F then fcb.s2 else 0
    s2 = 0x3F || (s2 - entry.s2) &&& 0x7F = 0

/-- `format_8_3`: each field up to its first blank, with a dot before an extension. -/
def format83 (name : Fin 8 → UInt8) (ext : Fin 3 → UInt8) : List UInt8 :=
  let n := (List.ofFn name).takeWhile (· != 0x20)
  let e := (List.ofFn ext).takeWhile (· != 0x20)
  if e.isEmpty then n else n ++ 0x2E :: e

/-- An extent number is six bits of the module over five of the extent. -/
theorem Fcb.extent_eq (fcb : Fcb) : fcb.extent = fcb.s2.toNat % 64 * 32 + fcb.ex.toNat % 32 := by
  have module' : fcb.s2.toNat &&& 0x3F = fcb.s2.toNat % 64 :=
    Nat.and_two_pow_sub_one_eq_mod fcb.s2.toNat 6
  have low : fcb.ex.toNat &&& 0x1F = fcb.ex.toNat % 32 :=
    Nat.and_two_pow_sub_one_eq_mod fcb.ex.toNat 5
  have small : fcb.ex.toNat % 32 < 2 ^ 5 := Nat.mod_lt _ (by decide)
  rw [extent, module', low, ← Nat.shiftLeft_add_eq_or_of_lt small, Nat.shiftLeft_eq]

/-- A random record number is its three bytes, the low one first. -/
theorem Fcb.randomRecord_eq (fcb : Fcb) : fcb.randomRecord =
    (fcb.r 0).toNat + 256 * (fcb.r 1).toNat + 65536 * (fcb.r 2).toNat := by
  have low : (fcb.r 0).toNat < 2 ^ 8 := (fcb.r 0).toNat_lt
  have middle := (fcb.r 1).toNat_lt
  have pair : (fcb.r 0).toNat ||| (fcb.r 1).toNat <<< 8 =
      (fcb.r 1).toNat <<< 8 + (fcb.r 0).toNat := by
    rw [Nat.or_comm, Nat.shiftLeft_add_eq_or_of_lt low]
  have below : (fcb.r 1).toNat <<< 8 + (fcb.r 0).toNat < 2 ^ 16 := by
    rw [Nat.shiftLeft_eq]
    omega
  rw [randomRecord, pair, Nat.or_comm, ← Nat.shiftLeft_add_eq_or_of_lt below, Nat.shiftLeft_eq,
    Nat.shiftLeft_eq]
  omega

end EthernetGateway.Cpm
