import EthernetGateway.Bytes
import EthernetGateway.Cpm.Fcb

/-!
# The directory of a folder drive

A program that asks a folder drive for its directory gets entries that are made up from the lengths
of the host files, laid out as the disk parameter block of the drive says. Read by that block they
account for every record and every block of each file, no two of them share a block, and a search
for the first extent finds each file once.
-/

namespace EthernetGateway.Cpm

open EthernetGateway.Image

/-! ## The disk parameter block -/

/-- `VD_BLS`, the size of a block. -/
def vdBls : Nat := 4096

/-- `VD_BSH`. -/
def vdBsh : UInt8 := 5

/-- `VD_BLM`. -/
def vdBlm : UInt8 := 31

/-- `VD_EXM`. -/
def vdExm : UInt8 := 1

/-- `VD_DSM`, the highest block number. -/
def vdDsm : Nat := 2047

/-- `VD_DRM`, the highest directory entry. -/
def vdDrm : Nat := 1023

/-- `VD_AL0`. -/
def vdAl0 : UInt8 := 0xFF

/-- `VD_AL1`. -/
def vdAl1 : UInt8 := 0

/-- `VD_DIR_BLOCKS`, the blocks of the directory. -/
def vdDirBlocks : Nat := 8

/-- `VD_CKS`. -/
def vdCks : Nat := 0

/-- `VD_OFF`. -/
def vdOff : Nat := 0

/-- `VD_SPT`. -/
def vdSpt : Nat := 128

/-- The two bytes of a number, the low one first. -/
def wordBytes (n : Nat) : List UInt8 := [UInt8.ofNat n, UInt8.ofNat (n / 256)]

/-- `build_dpb`. -/
def buildDpb : List UInt8 :=
  wordBytes vdSpt ++ [vdBsh, vdBlm, vdExm] ++ wordBytes vdDsm ++ wordBytes vdDrm ++
    [vdAl0, vdAl1] ++ wordBytes vdCks ++ wordBytes vdOff

/-- The extent mask that a disk parameter block gives. -/
def dpbExm (dpb : List UInt8) : UInt8 := dpb.getD 4 0

/-- The highest block number that a disk parameter block gives. -/
def dpbDsm (dpb : List UInt8) : Nat := (dpb.getD 5 0).toNat + 256 * (dpb.getD 6 0).toNat

/-- The records of an entry, as a program counts them. -/
def entryRecords (dpb : List UInt8) (e : RawEntry) : Nat :=
  (e.ex &&& dpbExm dpb).toNat * 128 + e.rc.toNat

/-- The first slot of a two-byte number. -/
theorem even_slot (i : Fin 8) : 2 * i.val < 16 := by omega

/-- The second slot of a two-byte number. -/
theorem odd_slot (i : Fin 8) : 2 * i.val + 1 < 16 := by omega

/-- The blocks of an entry, as a program reads them: their numbers take two bytes where the highest
does not fit one, and a slot without a block is zero. -/
def entryBlocks (dpb : List UInt8) (e : RawEntry) : List Nat :=
  let slots :=
    if dpbDsm dpb > 255 then
      List.ofFn fun i : Fin 8 =>
        (e.map ⟨2 * i, even_slot i⟩).toNat + 256 * (e.map ⟨2 * i + 1, odd_slot i⟩).toNat
    else List.ofFn fun i : Fin 16 => (e.map i).toNat
  slots.filter (· ≠ 0)

/-! ## The entries -/

/-- A host file with a name of eight and three letters. -/
structure HostFile where
  name : Fin 8 → UInt8
  ext : Fin 3 → UInt8
  size : Nat
  ro : Bool

/-- `EXTENTS_PER_ENTRY`. -/
def extentsPerEntry : Nat := vdExm.toNat + 1

/-- `RECORDS_PER_ENTRY`. -/
def recordsPerEntry : Nat := 128 * extentsPerEntry

/-- The records of a file. -/
def HostFile.records (f : HostFile) : Nat := (f.size + 127) / 128

/-- The blocks that some records take. -/
def blocksFor (records : Nat) : Nat := (records + (vdBls / 128 - 1)) / (vdBls / 128)

/-- The records of one entry of a file. -/
def recordsAt (records j : Nat) : Nat := min (records - j * recordsPerEntry) recordsPerEntry

/-- The block after a block. -/
def nextAfter (next : Nat) : Nat := if next ≥ vdDsm then vdDirBlocks else next + 1

/-- Some blocks, and the one after them. -/
def takeBlocks : Nat → Nat → List Nat × Nat
  | 0, next => ([], next)
  | count + 1, next =>
    let (blocks, last) := takeBlocks count (nextAfter next)
    (next :: blocks, last)

/-- An entry of a file, with its records and its blocks. -/
def dirEntry (f : HostFile) (j recs : Nat) (blocks : List Nat) : RawEntry :=
  let within := (recs - 1) / 128
  let extent := j * extentsPerEntry + within
  { user := 0
    name := f.name
    ext := fun i => if i.val = 0 ∧ f.ro = true then f.ext i ||| 0x80 else f.ext i
    ex := UInt8.ofNat (extent &&& 0x1F)
    s1 := 0
    s2 := UInt8.ofNat ((extent >>> 5) &&& 0x3F)
    rc := UInt8.ofNat (recs - within * 128)
    map := fun i =>
      let block := blocks.getD (i.val / 2) 0
      UInt8.ofNat (if i.val % 2 = 0 then block else block / 256) }

/-- The loop of `dir_entries_for_file`, with the entries that are left. -/
def entriesFrom (f : HostFile) : Nat → Nat → Nat → List RawEntry × Nat
  | 0, _, next => ([], next)
  | left + 1, j, next =>
    let recs := recordsAt f.records j
    let (blocks, next) := takeBlocks (blocksFor recs) next
    let (later, next) := entriesFrom f left (j + 1) next
    (dirEntry f j recs blocks :: later, next)

/-- `dir_entries_for_file`, and the block it leaves as the next. -/
def dirEntriesForFile (f : HostFile) (nextBlock : Nat) : List RawEntry × Nat :=
  let entries := max ((f.records + recordsPerEntry - 1) / recordsPerEntry) 1
  entriesFrom f entries 0 nextBlock

/-- The entries of some files, which share the count of blocks. -/
def listing : List HostFile → Nat → List (List RawEntry)
  | [], _ => []
  | f :: files, next =>
    let (entries, next) := dirEntriesForFile f next
    entries :: listing files next

/-! ## Blocks -/

/-- The number of a block by how many come before it: past the last, the count starts again. -/
def blockAt (used : Nat) : Nat :=
  if used = vdDsm + 1 - vdDirBlocks then vdDirBlocks else vdDirBlocks + used

/-- While there are blocks, those that are taken follow one another. -/
theorem takeBlocks_eq (count used : Nat) (fits : used + count ≤ vdDsm + 1 - vdDirBlocks) :
    takeBlocks count (blockAt used) =
      (List.range' (vdDirBlocks + used) count, blockAt (used + count)) := by
  induction count generalizing used with
  | zero => rfl
  | succ count ih =>
    have fits : used + (count + 1) ≤ 2040 := fits
    have here : blockAt used = vdDirBlocks + used := if_neg (show used ≠ 2040 by omega)
    have next : nextAfter (vdDirBlocks + used) = blockAt (used + 1) := by
      unfold nextAfter blockAt
      by_cases last : used + 1 = 2040
      · have reached : vdDirBlocks + used ≥ vdDsm := show 8 + used ≥ 2047 by omega
        have all : used + 1 = vdDsm + 1 - vdDirBlocks := last
        rw [if_pos reached, if_pos all]
      · have below : ¬ vdDirBlocks + used ≥ vdDsm := show ¬ 8 + used ≥ 2047 by omega
        have some : ¬ used + 1 = vdDsm + 1 - vdDirBlocks := last
        rw [if_neg below, if_neg some, Nat.add_assoc]
    have rest := ih (used + 1) (show used + 1 + count ≤ 2040 by omega)
    rw [takeBlocks, here, next, rest, List.range'_succ, Nat.add_assoc used 1 count,
      Nat.add_comm 1 count, ← Nat.add_assoc vdDirBlocks used 1]

/-- The blocks of an entry are read back. -/
theorem entryBlocks_dirEntry (f : HostFile) (j recs : Nat) (blocks : List Nat)
    (few : blocks.length ≤ 8) (numbers : ∀ b ∈ blocks, 0 < b ∧ b < 65536) :
    entryBlocks buildDpb (dirEntry f j recs blocks) = blocks := by
  have slot (i : Nat) : (UInt8.ofNat (blocks.getD i 0)).toNat +
      256 * (UInt8.ofNat (blocks.getD i 0 / 256)).toNat = blocks.getD i 0 := by
    have small : blocks.getD i 0 < 65536 := by
      rw [List.getD_eq_getElem?_getD]
      cases found : blocks[i]? with
      | none => decide
      | some b => exact (numbers b (List.mem_of_getElem? found)).2
    rw [UInt8.toNat_ofNat', UInt8.toNat_ofNat']
    omega
  have slots : (List.ofFn fun i : Fin 8 => blocks.getD i 0) =
      blocks ++ List.replicate (8 - blocks.length) 0 := by
    apply List.ext_getElem?
    intro i
    rw [List.getElem?_ofFn, List.getElem?_append, List.getElem?_replicate]
    split
    · rename_i inside
      rw [List.getD_eq_getElem?_getD]
      split
      · rename_i here
        rw [List.getElem?_eq_getElem here, Option.getD_some]
      · rename_i beyond
        have past : blocks.length ≤ i := Nat.le_of_not_lt beyond
        rw [List.getElem?_eq_none past, Option.getD_none, if_pos (by omega)]
    · rename_i outside
      rw [if_neg (by omega), if_neg (by omega)]
  have read : entryBlocks buildDpb (dirEntry f j recs blocks) =
      (List.ofFn fun i : Fin 8 => blocks.getD i 0).filter (· ≠ 0) := by
    show (List.ofFn fun i : Fin 8 =>
      (UInt8.ofNat (if 2 * i.val % 2 = 0 then blocks.getD (2 * i.val / 2) 0
        else blocks.getD (2 * i.val / 2) 0 / 256)).toNat +
      256 * (UInt8.ofNat (if (2 * i.val + 1) % 2 = 0 then blocks.getD ((2 * i.val + 1) / 2) 0
        else blocks.getD ((2 * i.val + 1) / 2) 0 / 256)).toNat).filter (· ≠ 0) = _
    congr 1
    congr 1
    funext i
    have even : 2 * i.val % 2 = 0 := by omega
    have odd : (2 * i.val + 1) % 2 ≠ 0 := by omega
    have half : 2 * i.val / 2 = i.val := by omega
    have half' : (2 * i.val + 1) / 2 = i.val := by omega
    rw [if_pos even, if_neg odd, half, half']
    exact slot i
  rw [read, slots, List.filter_append]
  have kept : blocks.filter (· ≠ 0) = blocks := by
    apply List.filter_eq_self.mpr
    intro b mem
    exact decide_eq_true (Nat.ne_of_gt (numbers b mem).1)
  have none : (List.replicate (8 - blocks.length) 0).filter (· ≠ 0) = [] := by
    apply List.filter_eq_nil_iff.mpr
    intro b mem
    rw [List.eq_of_mem_replicate mem]
    decide
  rw [kept, none, List.append_nil]

/-! ## Entries -/

/-- An entry has room for its records. -/
theorem recordsAt_le (records j : Nat) : recordsAt records j ≤ recordsPerEntry :=
  Nat.min_le_right _ _

/-- The records of an entry are read back. -/
theorem entryRecords_dirEntry (f : HostFile) (j : Nat) {recs : Nat} (few : recs ≤ recordsPerEntry)
    (blocks : List Nat) : entryRecords buildDpb (dirEntry f j recs blocks) = recs := by
  have few : recs ≤ 256 := few
  have low : (j * 2 + (recs - 1) / 128) &&& 0x1F = (j * 2 + (recs - 1) / 128) % 32 :=
    Nat.and_two_pow_sub_one_eq_mod _ 5
  have odd : (UInt8.ofNat ((j * 2 + (recs - 1) / 128) % 32) &&& 1).toNat = (recs - 1) / 128 := by
    rw [UInt8.toNat_and, UInt8.toNat_ofNat', show (1 : UInt8).toNat = 1 from rfl,
      Nat.and_one_is_mod]
    omega
  show (UInt8.ofNat ((j * 2 + (recs - 1) / 128) &&& 0x1F) &&& 1).toNat * 128 +
    (UInt8.ofNat (recs - (recs - 1) / 128 * 128)).toNat = recs
  rw [low, odd, UInt8.toNat_ofNat']
  omega

/-- Of the extent a search masks, the first is left as none. -/
theorem masked_eq_zero (b : UInt8) :
    ((0 : UInt8) &&& ~~~vdExm) &&& 0x1F = (b &&& ~~~vdExm) &&& 0x1F ↔
    b.toNat % 32 < 2 :=
  byte_forall (P := fun b => ((0 : UInt8) &&& ~~~vdExm) &&& 0x1F = (b &&& ~~~vdExm) &&& 0x1F ↔
    b.toNat % 32 < 2) (by decide +kernel) b

/-- Of the module a search compares, the first is none. -/
theorem module_eq_zero (b : UInt8) : ((0 : UInt8) - b) &&& 0x7F = 0 ↔ b.toNat % 128 = 0 :=
  byte_forall (P := fun b => ((0 : UInt8) - b) &&& 0x7F = 0 ↔ b.toNat % 128 = 0)
    (by decide +kernel) b

/-- An attribute bit on a letter does not show. -/
theorem attribute_clear (b : UInt8) : b < 0x80 → b &&& 0x7F = b ∧ (b ||| 0x80) &&& 0x7F = b :=
  byte_forall (P := fun b => b < 0x80 → b &&& 0x7F = b ∧ (b ||| 0x80) &&& 0x7F = b)
    (by decide +kernel) b

/-- A file whose name is of letters without attribute bits. -/
structure HostFile.Named (f : HostFile) : Prop where
  name : ∀ i, f.name i < 0x80
  ext : ∀ i, f.ext i < 0x80

/-- An entry has the name of its file. -/
theorem strip_dirEntry {f : HostFile} (named : f.Named) (j recs : Nat) (blocks : List Nat) :
    strip (dirEntry f j recs blocks).name = f.name ∧
      strip (dirEntry f j recs blocks).ext = f.ext := by
  constructor
  · funext i
    exact (attribute_clear _ (named.name i)).1
  · funext i
    show (if i.val = 0 ∧ f.ro = true then f.ext i ||| 0x80 else f.ext i) &&& 0x7F = f.ext i
    split
    · exact (attribute_clear _ (named.ext i)).2
    · exact (attribute_clear _ (named.ext i)).1

/-- A search for the first extent of a name finds the first of its entries. -/
theorem searchMatchesEntry_dirEntry {f : HostFile} (named : f.Named) {j recs : Nat}
    (few : recs ≤ recordsPerEntry) (most : j < 256) (blocks : List Nat) {fcb : Fcb}
    (first : fcb.ex = 0) (matched : fcb.matches f.name f.ext = true) :
    fcb.searchMatchesEntry (dirEntry f j recs blocks) vdExm = decide (j = 0) := by
  have few : recs ≤ 256 := few
  obtain ⟨name, ext⟩ := strip_dirEntry named j recs blocks
  have low : (dirEntry f j recs blocks).ex.toNat = (j * 2 + (recs - 1) / 128) % 32 := by
    have mask : (j * 2 + (recs - 1) / 128) &&& 0x1F = (j * 2 + (recs - 1) / 128) % 32 :=
      Nat.and_two_pow_sub_one_eq_mod _ 5
    show (UInt8.ofNat ((j * 2 + (recs - 1) / 128) &&& 0x1F)).toNat = _
    rw [mask, UInt8.toNat_ofNat']
    omega
  have high : (dirEntry f j recs blocks).s2.toNat = (j * 2 + (recs - 1) / 128) / 32 := by
    have mask : ((j * 2 + (recs - 1) / 128) >>> 5) &&& 0x3F =
        (j * 2 + (recs - 1) / 128) >>> 5 % 64 := Nat.and_two_pow_sub_one_eq_mod _ 6
    show (UInt8.ofNat (((j * 2 + (recs - 1) / 128) >>> 5) &&& 0x3F)).toNat = _
    rw [mask, UInt8.toNat_ofNat', Nat.shiftRight_eq_div_pow]
    omega
  have extent := masked_eq_zero (dirEntry f j recs blocks).ex
  have module' := module_eq_zero (dirEntry f j recs blocks).s2
  rw [low, Nat.mod_mod] at extent
  rw [high] at module'
  rw [Fcb.searchMatchesEntry, name, ext, matched, first, if_neg (by decide)]
  by_cases start : j = 0
  · have here : (j * 2 + (recs - 1) / 128) % 32 < 2 := by omega
    have zero : (j * 2 + (recs - 1) / 128) / 32 % 128 = 0 := by omega
    rw [if_neg fun apart => apart.2 (extent.mpr here), decide_eq_true start]
    exact (Bool.or_eq_true_iff).mpr (.inr (decide_eq_true (module'.mpr zero)))
  · rw [decide_eq_false start]
    by_cases here : (j * 2 + (recs - 1) / 128) % 32 < 2
    · have later : (j * 2 + (recs - 1) / 128) / 32 % 128 ≠ 0 := by omega
      rw [if_neg fun apart => apart.2 (extent.mpr here)]
      have other : ¬ ((0 : UInt8) - (dirEntry f j recs blocks).s2) &&& 0x7F = 0 :=
        fun same => later (module'.mp same)
      exact (Bool.or_eq_false_iff).mpr ⟨rfl, decide_eq_false other⟩
    · rw [if_pos ⟨by decide, fun same => here (extent.mp same)⟩]

/-! ## Files -/

/-- What the entries of a file from one of them on come to. -/
theorem entriesFrom_eq (f : HostFile) (left j used : Nat)
    (fits : used + blocksFor (min (f.records - j * recordsPerEntry) (left * recordsPerEntry)) ≤
      vdDsm + 1 - vdDirBlocks) :
    ((entriesFrom f left j (blockAt used)).1.map (entryRecords buildDpb)).sum =
        min (f.records - j * recordsPerEntry) (left * recordsPerEntry) ∧
      (entriesFrom f left j (blockAt used)).1.flatMap (entryBlocks buildDpb) =
        List.range' (vdDirBlocks + used)
          (blocksFor (min (f.records - j * recordsPerEntry) (left * recordsPerEntry))) ∧
      (entriesFrom f left j (blockAt used)).2 = blockAt
        (used + blocksFor (min (f.records - j * recordsPerEntry) (left * recordsPerEntry))) := by
  induction left generalizing j used with
  | zero =>
    have none : blocksFor (min (f.records - j * recordsPerEntry) (0 * recordsPerEntry)) = 0 := by
      rw [Nat.zero_mul, Nat.min_zero]
      rfl
    rw [none, Nat.zero_mul, Nat.min_zero]
    exact ⟨rfl, rfl, rfl⟩
  | succ left ih =>
    have fits : used + (min (f.records - j * 256) ((left + 1) * 256) + 31) / 32 ≤ 2040 := fits
    have next : f.records - (j + 1) * 256 = f.records - j * 256 - 256 := by omega
    have own : recordsAt f.records j = min (f.records - j * 256) 256 := rfl
    have ownBlocks :
        blocksFor (recordsAt f.records j) = (min (f.records - j * 256) 256 + 31) / 32 :=
      rfl
    have split : (min (f.records - j * 256) 256 + 31) / 32 +
        (min (f.records - (j + 1) * 256) (left * 256) + 31) / 32 =
          (min (f.records - j * 256) ((left + 1) * 256) + 31) / 32 := by
      rw [next]
      omega
    have sum : min (f.records - j * 256) 256 + min (f.records - (j + 1) * 256) (left * 256) =
        min (f.records - j * 256) ((left + 1) * 256) := by
      rw [next]
      omega
    have taken := takeBlocks_eq (blocksFor (recordsAt f.records j)) used
      (show used + (min (f.records - j * 256) 256 + 31) / 32 ≤ 2040 by omega)
    obtain ⟨records, blocks, last⟩ := ih (j + 1) (used + blocksFor (recordsAt f.records j))
      (show used + (min (f.records - j * 256) 256 + 31) / 32 +
        (min (f.records - (j + 1) * 256) (left * 256) + 31) / 32 ≤ 2040 by omega)
    have here := entryBlocks_dirEntry f j (recordsAt f.records j)
      (List.range' (vdDirBlocks + used) (blocksFor (recordsAt f.records j)))
      (by
        rw [List.length_range']
        show (min (f.records - j * 256) 256 + 31) / 32 ≤ 8
        omega)
      (by
        intro b mem
        obtain ⟨low, high⟩ := List.mem_range'_1.mp mem
        have low : 8 + used ≤ b := low
        have high : b < 8 + used + (min (f.records - j * 256) 256 + 31) / 32 := high
        omega)
    simp only [entriesFrom, taken]
    refine ⟨?_, ?_, ?_⟩
    · rw [List.map_cons, List.sum_cons, records,
        entryRecords_dirEntry f j (recordsAt_le f.records j)]
      exact sum
    · rw [List.flatMap_cons, blocks, here, ← Nat.add_assoc, List.range'_append_1]
      exact congrArg (List.range' (vdDirBlocks + used)) split
    · rw [last, Nat.add_assoc]
      exact congrArg (fun count => blockAt (used + count)) split

/-- The entries of a file but for the first answer no search for the first extent. -/
theorem entriesFrom_later {f : HostFile} (named : f.Named) {left j : Nat} (later : 0 < j)
    (most : j + left ≤ 256) (next : Nat) {fcb : Fcb} (first : fcb.ex = 0)
    (matched : fcb.matches f.name f.ext = true) :
    (entriesFrom f left j next).1.countP (fun e => fcb.searchMatchesEntry e vdExm) = 0 := by
  induction left generalizing j next with
  | zero => rfl
  | succ left ih =>
    have none := searchMatchesEntry_dirEntry named (recordsAt_le f.records j)
      (show j < 256 by omega)
      (takeBlocks (blocksFor (recordsAt f.records j)) next).1 first matched
    rw [decide_eq_false (Nat.ne_of_gt later)] at none
    show List.countP _ (dirEntry f j (recordsAt f.records j)
      (takeBlocks (blocksFor (recordsAt f.records j)) next).1 :: (entriesFrom f left (j + 1)
        (takeBlocks (blocksFor (recordsAt f.records j)) next).2).1) = 0
    rw [List.countP_cons_of_neg (by rw [none]; decide)]
    exact ih (Nat.succ_pos j) (by omega) _

/-- Read by the disk parameter block, the entries of a file account for its records and its blocks,
and a search for the first extent of its name finds one of them. -/
structure Accounts (f : HostFile) (entries : List RawEntry) : Prop where
  records : (entries.map (entryRecords buildDpb)).sum = (f.size + 127) / 128
  blocks : (entries.flatMap (entryBlocks buildDpb)).length = ((f.size + 127) / 128 + 31) / 32
  search : ∀ fcb : Fcb, fcb.ex = 0 → fcb.matches f.name f.ext = true →
    entries.countP (fun e => fcb.searchMatchesEntry e (dpbExm buildDpb)) = 1

/-- The blocks of a file. -/
def HostFile.blocks (f : HostFile) : Nat := blocksFor f.records

/-- The entries of a file. -/
theorem dirEntriesForFile_eq {f : HostFile} (named : f.Named) (small : f.size ≤ maxCpmFileBytes)
    (used : Nat) (fits : used + f.blocks ≤ vdDsm + 1 - vdDirBlocks) :
    Accounts f (dirEntriesForFile f (blockAt used)).1 ∧
      (dirEntriesForFile f (blockAt used)).1.flatMap (entryBlocks buildDpb) =
        List.range' (vdDirBlocks + used) f.blocks ∧
      (dirEntriesForFile f (blockAt used)).2 = blockAt (used + f.blocks) := by
  have size : f.size ≤ 8 * 1024 * 1024 := small
  have count : f.records = (f.size + 127) / 128 := rfl
  have all : min (f.records - 0 * recordsPerEntry)
      (max ((f.records + recordsPerEntry - 1) / recordsPerEntry) 1 * recordsPerEntry) =
        f.records := by
    show min (f.records - 0 * 256) (max ((f.records + 256 - 1) / 256) 1 * 256) = f.records
    omega
  have entries := entriesFrom_eq f (max ((f.records + recordsPerEntry - 1) / recordsPerEntry) 1) 0
    used
  rw [all] at entries
  obtain ⟨records, blocks, last⟩ := entries fits
  refine ⟨⟨records, ?_, ?_⟩, blocks, last⟩
  · exact (congrArg List.length blocks).trans List.length_range'
  · intro fcb first matched
    obtain ⟨left, more⟩ : ∃ left, max ((f.records + recordsPerEntry - 1) / recordsPerEntry) 1 =
        left + 1 := ⟨max ((f.records + recordsPerEntry - 1) / recordsPerEntry) 1 - 1, by omega⟩
    have most : left + 1 ≤ 256 := by
      rw [← more]
      show max ((f.records + 256 - 1) / 256) 1 ≤ 256
      omega
    have found := searchMatchesEntry_dirEntry named (recordsAt_le f.records 0)
      (show 0 < 256 by decide)
      (takeBlocks (blocksFor (recordsAt f.records 0)) (blockAt used)).1 first matched
    rw [dirEntriesForFile, more]
    show List.countP _ (dirEntry f 0 (recordsAt f.records 0)
      (takeBlocks (blocksFor (recordsAt f.records 0)) (blockAt used)).1 :: (entriesFrom f left 1
        (takeBlocks (blocksFor (recordsAt f.records 0)) (blockAt used)).2).1) = 1
    rw [List.countP_cons_of_pos (by exact found)]
    exact congrArg (· + 1) (entriesFrom_later named Nat.one_pos (by omega) _ first matched)

/-- The entries of some files, which share the count of blocks. -/
theorem listing_eq (files : List HostFile) (named : ∀ f ∈ files, f.Named)
    (small : ∀ f ∈ files, f.size ≤ maxCpmFileBytes) (used : Nat)
    (fits : used + (files.map HostFile.blocks).sum ≤ vdDsm + 1 - vdDirBlocks) :
    List.Forall₂ Accounts files (listing files (blockAt used)) ∧
      (listing files (blockAt used)).flatten.flatMap (entryBlocks buildDpb) =
        List.range' (vdDirBlocks + used) (files.map HostFile.blocks).sum := by
  induction files generalizing used with
  | nil => exact ⟨.nil, rfl⟩
  | cons f files ih =>
    rw [List.map_cons, List.sum_cons] at fits ⊢
    obtain ⟨accounts, blocks, last⟩ := dirEntriesForFile_eq (named f List.mem_cons_self)
      (small f List.mem_cons_self) used (by omega)
    obtain ⟨others, rest⟩ := ih (fun f mem => named f (List.mem_cons_of_mem _ mem))
      (fun f mem => small f (List.mem_cons_of_mem _ mem)) (used + f.blocks) (by omega)
    have made : listing (f :: files) (blockAt used) =
        (dirEntriesForFile f (blockAt used)).1 :: listing files (blockAt (used + f.blocks)) := by
      rw [← last]
      rfl
    rw [made]
    constructor
    · exact .cons accounts others
    · rw [List.flatten_cons, List.flatMap_append, blocks, rest, ← Nat.add_assoc,
        List.range'_append_1]

/-- Where the files of a folder drive fit its blocks, its directory accounts for each of them, and
no two entries share a block or have one outside the data area. -/
theorem folder_directory_sound (files : List HostFile) (named : ∀ f ∈ files, f.Named)
    (small : ∀ f ∈ files, f.size ≤ maxCpmFileBytes)
    (fits : (files.map HostFile.blocks).sum ≤ vdDsm + 1 - vdDirBlocks) :
    List.Forall₂ Accounts files (listing files vdDirBlocks) ∧
      ((listing files vdDirBlocks).flatten.flatMap (entryBlocks buildDpb)).Nodup ∧
      ∀ b ∈ (listing files vdDirBlocks).flatten.flatMap (entryBlocks buildDpb),
        vdDirBlocks ≤ b ∧ b ≤ vdDsm := by
  obtain ⟨accounts, blocks⟩ := listing_eq files named small 0 (by omega)
  have start : blockAt 0 = vdDirBlocks := rfl
  rw [start] at accounts blocks
  refine ⟨accounts, ?_, ?_⟩
  · rw [blocks]
    exact List.nodup_range'
  · intro b mem
    rw [blocks] at mem
    obtain ⟨low, high⟩ := List.mem_range'_1.mp mem
    have low : 8 + 0 ≤ b := low
    have high : b < 8 + 0 + (files.map HostFile.blocks).sum := high
    have fits : (files.map HostFile.blocks).sum ≤ 2040 := fits
    exact ⟨show 8 ≤ b by omega, show b ≤ 2047 by omega⟩

/-- A file of forty thousand bytes takes two entries, and an empty one takes one. -/
theorem folder_directory_sound_two_files :
    List.Forall₂ Accounts
      [⟨fun _ => 0x41, fun _ => 0x20, 40000, true⟩, ⟨fun _ => 0x42, fun _ => 0x20, 0, false⟩]
      (listing [⟨fun _ => 0x41, fun _ => 0x20, 40000, true⟩,
        ⟨fun _ => 0x42, fun _ => 0x20, 0, false⟩] vdDirBlocks) := by
  apply (folder_directory_sound _ _ _ (by decide)).1
  · intro f mem
    obtain first | second := List.mem_pair.mp mem
    · rw [first]
      exact ⟨fun _ => (by decide : (0x41 : UInt8) < 0x80),
        fun _ => (by decide : (0x20 : UInt8) < 0x80)⟩
    · rw [second]
      exact ⟨fun _ => (by decide : (0x42 : UInt8) < 0x80),
        fun _ => (by decide : (0x20 : UInt8) < 0x80)⟩
  · intro f mem
    obtain first | second := List.mem_pair.mp mem
    · rw [first]
      decide
    · rw [second]
      decide

end EthernetGateway.Cpm
