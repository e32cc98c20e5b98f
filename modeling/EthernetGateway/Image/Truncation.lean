import EthernetGateway.Image.Crash

/-!
# Truncation is exact

A truncation erases the entries of a file that start at or past the new length, cuts the one that
straddles it, and leaves all others. So the file reads as before up to the new length and as ended
from there on, the blocks of the slots past it come back, nothing else on the disk changes, and
truncating again finds nothing to do.
-/

namespace EthernetGateway.Image

/-! ## One entry -/

/-- What a truncation leaves of an entry of its file. -/
def RawEntry.truncated (raw : RawEntry) (params : Params) (records : Nat) : RawEntry :=
  if records ≤ raw.group params * recordsPerExtent then raw.erased
  else if records < raw.group params * recordsPerExtent + raw.count params then
    raw.cut params (records - raw.group params * recordsPerExtent)
  else raw

section Entry

variable {params : Params} {raw : RawEntry} {records : Nat}

/-- An entry that is changed is replaced by what is left of it. -/
theorem truncateChange_new {index : Nat} {change : Change}
    (changed : truncateChange params records (raw.slot index params) = some change) :
    change.index = index ∧ change.new = raw.truncated params records := by
  obtain ⟨place, _, ⟨new, past⟩ | ⟨new, begun, partly⟩⟩ := truncateChange_some changed
  · exact ⟨place, new.trans (if_pos past).symm⟩
  · have first : ¬ records ≤ raw.group params * recordsPerExtent := Nat.not_le.mpr begun
    exact ⟨place, by rw [new, RawEntry.truncated, if_neg first]; exact (if_pos partly).symm⟩

/-- An entry that is not changed is left as it is. -/
theorem truncateChange_none {index : Nat}
    (unchanged : truncateChange params records (raw.slot index params) = none) :
    raw.truncated params records = raw := by
  simp only [truncateChange] at unchanged
  split at unchanged
  · cases unchanged
  · rename_i begun
    split at unchanged
    · cases unchanged
    · rename_i whole
      exact (if_neg begun).trans (if_neg whole)

/-- An erased entry is not live. -/
theorem RawEntry.erased_dead (raw : RawEntry) : ¬ raw.erased.Live := fun live => by
  have free := live.1
  simp [RawEntry.isFree, RawEntry.erased] at free

/-- What is left of an entry that starts before the new length is of the same file. -/
theorem RawEntry.truncated_file (begun : raw.group params * recordsPerExtent < records) :
    (raw.truncated params records).file = raw.file := by
  rw [truncated, if_neg (Nat.not_le.mpr begun)]
  split <;> rfl

/-- What is left of an entry is of the file when the entry was and starts before the new length. -/
theorem RawEntry.truncated_of_iff {f : File} (own : raw.Of f) :
    (raw.truncated params records).Of f ↔ raw.group params * recordsPerExtent < records := by
  constructor
  · intro left
    by_contra past
    rw [truncated, if_pos (Nat.not_lt.mp past)] at left
    exact raw.erased_dead left.1
  · intro begun
    exact (RawEntry.Of.congr (RawEntry.truncated_file begun)).mpr own

/-- What is left of an entry that starts before the new length is of the same group and counts the
records before that length. -/
theorem RawEntry.truncated_group (mask : params.exm = 0 ∨ params.exm = 1) (counted : raw.rc ≤ 128)
    (small : raw.extent < 2048) (begun : raw.group params * recordsPerExtent < records) :
    (raw.truncated params records).group params = raw.group params ∧
      (raw.truncated params records).count params =
        min (raw.count params) (records - raw.group params * recordsPerExtent) ∧
      (raw.truncated params records).rc ≤ 128 := by
  rw [truncated, if_neg (Nat.not_le.mpr begun)]
  split
  · rename_i partly
    have most := raw.count_le mask counted
    have folded : raw.group params + params.exm < 2048 := by
      have group := raw.group_eq mask
      rcases mask with mask | mask <;> rw [mask] at group ⊢ <;> omega
    obtain ⟨group, count, rc⟩ := RawEntry.cut_group mask (by omega :
      0 < records - raw.group params * recordsPerExtent) (by omega) folded
    exact ⟨group, by rw [count]; omega, rc⟩
  · exact ⟨rfl, by omega, counted⟩

/-- A slot of what is left of an entry: the slots before the new length are kept. -/
theorem RawEntry.truncated_slot {fmt : Format} (sound : fmt.Sound)
    (begun : raw.group (Params.derive fmt) * recordsPerExtent < records) {slot : Nat}
    (kept : raw.group (Params.derive fmt) * recordsPerExtent +
      slot * (Params.derive fmt).recordsPerBlock < records) :
    (decodeBlocks (raw.truncated (Params.derive fmt) records) (Params.derive fmt))[slot]? =
      (decodeBlocks raw (Params.derive fmt))[slot]? := by
  rw [truncated, if_neg (Nat.not_le.mpr begun)]
  split
  · have within : slot < (Params.derive fmt).blocksFor
        (records - raw.group (Params.derive fmt) * recordsPerExtent) := by
      have place : slot * (Params.derive fmt).recordsPerBlock <
          records - raw.group (Params.derive fmt) * recordsPerExtent := by omega
      have below := slot_lt_blocksFor sound.block place
      rwa [Nat.mul_div_cancel _ sound.block] at below
    rw [cut_blocks sound]
    by_cases room : slot < (decodeBlocks raw (Params.derive fmt)).length
    · rw [List.getElem?_append_left (by rw [List.length_take]; exact Nat.lt_min.mpr ⟨within, room⟩),
        List.getElem?_take]
      exact if_pos within
    · have length : ((decodeBlocks raw (Params.derive fmt)).take ((Params.derive fmt).blocksFor
          (records - raw.group (Params.derive fmt) * recordsPerExtent)) ++
          ((decodeBlocks raw (Params.derive fmt)).drop ((Params.derive fmt).blocksFor
            (records - raw.group (Params.derive fmt) * recordsPerExtent))).map fun _ => 0).length =
          (decodeBlocks raw (Params.derive fmt)).length := by
        rw [List.length_append, List.length_map, ← List.length_append, List.take_append_drop]
      rw [List.getElem?_eq_none (by omega), List.getElem?_eq_none (by omega)]
  · rfl

/-- A block that is left was in the same slot of the entry before, and its slot was kept if the
entry was cut. -/
theorem RawEntry.truncated_names {fmt : Format} (sound : fmt.Sound)
    (begun : raw.group (Params.derive fmt) * recordsPerExtent < records) {block : Nat}
    (positive : block ≠ 0)
    (left : block ∈ decodeBlocks (raw.truncated (Params.derive fmt) records) (Params.derive fmt)) :
    ∃ slot, (decodeBlocks raw (Params.derive fmt))[slot]? = some block ∧
      (records < raw.group (Params.derive fmt) * recordsPerExtent + raw.count (Params.derive fmt) →
        raw.group (Params.derive fmt) * recordsPerExtent +
          slot * (Params.derive fmt).recordsPerBlock < records) := by
  rw [truncated, if_neg (Nat.not_le.mpr begun)] at left
  split at left
  · rw [cut_blocks sound, List.mem_append] at left
    rcases left with kept | zeroed
    · obtain ⟨slot, inside, named⟩ := List.getElem_of_mem kept
      rw [List.length_take] at inside
      rw [List.getElem_take] at named
      have within : slot < (Params.derive fmt).blocksFor
          (records - raw.group (Params.derive fmt) * recordsPerExtent) := by omega
      refine ⟨slot, by rw [← named]; exact List.getElem?_eq_getElem (by omega), fun _ => ?_⟩
      have block := sound.block
      rw [Params.blocksFor, Nat.lt_iff_add_one_le, Nat.le_div_iff_mul_le block,
        Nat.add_mul] at within
      omega
    · obtain ⟨_, _, rfl⟩ := List.mem_map.mp zeroed
      exact absurd rfl positive
  · rename_i whole
    obtain ⟨slot, inside, named⟩ := List.getElem_of_mem left
    exact ⟨slot, by rw [← named]; exact List.getElem?_eq_getElem inside,
      fun partly => absurd partly whole⟩

end Entry

/-! ## One file of a disk -/

/-- The entries of a file count at most 128 records in their last extent, have extent numbers of a
directory entry, and differ in their groups. -/
structure Ordinary (fmt : Format) (disk : Disk) (f : File) : Prop where
  /-- Record counts are those of one extent. -/
  counts : ∀ i < fmt.dirEntries, (disk.entry i).Of f → (disk.entry i).rc ≤ 128
  /-- Extent numbers are those two bytes can name. -/
  small : ∀ i < fmt.dirEntries, (disk.entry i).Of f → (disk.entry i).extent < 2048
  /-- Groups differ. -/
  apart : ∀ i < fmt.dirEntries, ∀ j < fmt.dirEntries, (disk.entry i).Of f → (disk.entry j).Of f →
    (disk.entry i).group (Params.derive fmt) = (disk.entry j).group (Params.derive fmt) → i = j

/-- An entry of a file covers a record. -/
def Covers (fmt : Format) (disk : Disk) (f : File) (record i : Nat) : Prop :=
  i < fmt.dirEntries ∧ (disk.entry i).Of f ∧
    (disk.entry i).group (Params.derive fmt) * recordsPerExtent ≤ record ∧
    record < (disk.entry i).group (Params.derive fmt) * recordsPerExtent +
      (disk.entry i).count (Params.derive fmt)

/-- The entry a read finds is one that covers the record. -/
theorem covering_covers {fmt : Format} {disk : Disk} {f : File} {record start : Nat}
    {blocks : List Nat} (covering : coveringEntry (Params.derive fmt) (directoryOf fmt disk) f
      record = some (start, blocks)) :
    ∃ i, Covers fmt disk f record i ∧
      start = (disk.entry i).group (Params.derive fmt) * recordsPerExtent ∧
      blocks = decodeBlocks (disk.entry i) (Params.derive fmt) := by
  obtain ⟨e, listed, file, above, below, rfl, rfl⟩ := coveringEntry_some covering
  obtain ⟨i, inside, live, rfl⟩ := mem_directoryOf.mp listed
  exact ⟨i, ⟨inside, ⟨live, file⟩, above, below⟩, rfl, rfl⟩

/-- A covered record is found. -/
theorem covers_covering {fmt : Format} {disk : Disk} {f : File} {record i : Nat}
    (covers : Covers fmt disk f record i) :
    ∃ found, coveringEntry (Params.derive fmt) (directoryOf fmt disk) f record = some found := by
  obtain ⟨inside, own, above, below⟩ := covers
  have member : (disk.entry i).slot i (Params.derive fmt) ∈ extentsOf (directoryOf fmt disk) f :=
    mem_extentsOf.mpr ⟨mem_directoryOf.mpr ⟨i, inside, own.1, rfl⟩, own.2⟩
  rw [← Option.isSome_iff_exists, coveringEntry, List.findSome?_isSome_iff]
  refine ⟨_, member, ?_⟩
  have here : record ≥ extentStart (Params.derive fmt)
      ((disk.entry i).slot i (Params.derive fmt)) ∧
      record < extentStart (Params.derive fmt) ((disk.entry i).slot i (Params.derive fmt)) +
        extentCount (Params.derive fmt) ((disk.entry i).slot i (Params.derive fmt)) :=
    ⟨above, below⟩
  simp only
  rw [if_pos here]
  rfl

/-- No two entries of an ordinary file cover a record. -/
theorem Ordinary.covers_unique {fmt : Format} {disk : Disk} {f : File}
    (ordinary : Ordinary fmt disk f)
    (mask : (Params.derive fmt).exm = 0 ∨ (Params.derive fmt).exm = 1) {record i j : Nat}
    (one : Covers fmt disk f record i) (two : Covers fmt disk f record j) : i = j := by
  have first := (covers_iff mask (ordinary.counts i one.1 one.2.1) record).mp one.2.2
  have second := (covers_iff mask (ordinary.counts j two.1 two.2.1) record).mp two.2.2
  exact ordinary.apart i one.1 j two.1 one.2.1 two.2.1 (first.1.trans second.1.symm)

/-- Reading a record that one entry covers is looking into that entry. -/
theorem reads_covered {fmt : Format} {disk : Disk} {f : File} {record i : Nat}
    (covers : Covers fmt disk f record i)
    (unique : ∀ j, Covers fmt disk f record j → j = i) :
    reads fmt (directoryOf fmt disk) disk f record =
      valueAt fmt disk ((disk.entry i).group (Params.derive fmt) * recordsPerExtent)
        (decodeBlocks (disk.entry i) (Params.derive fmt)) record := by
  obtain ⟨⟨start, blocks⟩, found⟩ := covers_covering covers
  obtain ⟨j, other, rfl, rfl⟩ := covering_covers found
  rw [reads, found, unique j other]

/-- A record no entry covers is not there. -/
theorem reads_uncovered {fmt : Format} {disk : Disk} {f : File} {record : Nat}
    (uncovered : ∀ i, ¬ Covers fmt disk f record i) :
    reads fmt (directoryOf fmt disk) disk f record = .ok none := by
  cases covering : coveringEntry (Params.derive fmt) (directoryOf fmt disk) f record with
  | none => rw [reads, covering]
  | some found =>
    obtain ⟨i, covers, _⟩ := @covering_covers _ _ _ _ found.1 found.2 covering
    exact absurd covers (uncovered i)

/-! ## A disk after a truncation -/

/-- What a truncation does to a disk. -/
structure Truncated (fmt : Format) (before after : Disk) (f : File) (records : Nat) : Prop where
  /-- Every entry of the file becomes what is left of it. -/
  own : ∀ i < fmt.dirEntries, (before.entry i).Of f →
    after.entry i = (before.entry i).truncated (Params.derive fmt) records
  /-- Every other entry stays. -/
  other : ∀ i < fmt.dirEntries, ¬ (before.entry i).Of f → after.entry i = before.entry i
  /-- Every record outside the directory stays. -/
  data : ∀ record, fmt.dirRecords ≤ record → after record = before record

section Truncated

variable {fmt : Format} {before after : Disk} {f : File} {records : Nat}

/-- The entries of the file that are left are those that start before the new length. -/
theorem Truncated.of_iff (truncated : Truncated fmt before after f records) {i : Nat}
    (inside : i < fmt.dirEntries) : (after.entry i).Of f ↔ (before.entry i).Of f ∧
      (before.entry i).group (Params.derive fmt) * recordsPerExtent < records := by
  by_cases own : (before.entry i).Of f
  · rw [truncated.own i inside own, RawEntry.truncated_of_iff own]
    exact ⟨fun begun => ⟨own, begun⟩, fun both => both.2⟩
  · rw [truncated.other i inside own]
    exact ⟨fun left => absurd left own, fun both => both.1⟩

/-- An ordinary file is one after the truncation, but for its extent numbers: counts and groups. -/
theorem Truncated.covers_iff (truncated : Truncated fmt before after f records)
    (mask : (Params.derive fmt).exm = 0 ∨ (Params.derive fmt).exm = 1)
    (ordinary : Ordinary fmt before f) {record i : Nat} :
    Covers fmt after f record i ↔ Covers fmt before f record i ∧ record < records := by
  unfold Covers
  by_cases inside : i < fmt.dirEntries
  · rw [truncated.of_iff inside]
    by_cases own : (before.entry i).Of f ∧
        (before.entry i).group (Params.derive fmt) * recordsPerExtent < records
    · obtain ⟨group, count, _⟩ := RawEntry.truncated_group mask (ordinary.counts i inside own.1)
        (ordinary.small i inside own.1) own.2
      rw [truncated.own i inside own.1, group, count]
      constructor
      · rintro ⟨_, _, above, below⟩
        exact ⟨⟨inside, own.1, above, by omega⟩, by omega⟩
      · rintro ⟨⟨_, _, above, below⟩, early⟩
        exact ⟨inside, own, above, by omega⟩
    · refine ⟨fun left => absurd left.2.1 own, ?_⟩
      rintro ⟨⟨_, named, above, _⟩, early⟩
      exact absurd ⟨named, by omega⟩ own
  · exact ⟨fun left => absurd left.1 inside, fun left => absurd left.1.1 inside⟩

/-- Past the new length a read finds nothing. -/
theorem Truncated.reads_past (truncated : Truncated fmt before after f records)
    (mask : (Params.derive fmt).exm = 0 ∨ (Params.derive fmt).exm = 1)
    (ordinary : Ordinary fmt before f) {record : Nat} (past : records ≤ record) :
    reads fmt (directoryOf fmt after) after f record = .ok none :=
  reads_uncovered fun _ covers =>
    absurd ((truncated.covers_iff mask ordinary).mp covers).2 (Nat.not_lt.mpr past)

/-- Before the new length a read finds what it found. -/
theorem Truncated.reads_below (truncated : Truncated fmt before after f records)
    (sound : fmt.Sound) (ordinary : Ordinary fmt before f)
    (bounded : ∀ i < fmt.dirEntries, (before.entry i).Of f →
      ∀ block ∈ (before.entry i).named (Params.derive fmt), (Params.derive fmt).dirBlocks ≤ block)
    {record : Nat} (below : record < records) :
    reads fmt (directoryOf fmt after) after f record =
      reads fmt (directoryOf fmt before) before f record := by
  by_cases covered : ∃ i, Covers fmt before f record i
  · obtain ⟨i, covers⟩ := covered
    have later : Covers fmt after f record i :=
      (truncated.covers_iff sound.mask ordinary).mpr ⟨covers, below⟩
    rw [reads_covered covers fun j other => ordinary.covers_unique sound.mask other covers,
      reads_covered later fun j other => ordinary.covers_unique sound.mask
        ((truncated.covers_iff sound.mask ordinary).mp other).1 covers]
    obtain ⟨inside, own, above, _⟩ := covers
    have begun : (before.entry i).group (Params.derive fmt) * recordsPerExtent < records := by
      omega
    obtain ⟨group, _, _⟩ := RawEntry.truncated_group sound.mask (ordinary.counts i inside own)
      (ordinary.small i inside own) begun
    have place := Nat.div_mul_le_self
      (record - (before.entry i).group (Params.derive fmt) * recordsPerExtent)
      (Params.derive fmt).recordsPerBlock
    have kept : (before.entry i).group (Params.derive fmt) * recordsPerExtent + (record -
        (before.entry i).group (Params.derive fmt) * recordsPerExtent) /
          (Params.derive fmt).recordsPerBlock * (Params.derive fmt).recordsPerBlock < records := by
      omega
    have slot := RawEntry.truncated_slot sound begun kept
    rw [truncated.own i inside own, group]
    simp only [valueAt, slot]
    split
    · rfl
    · rfl
    · rename_i block positive named
      have known := bounded i inside own block
        (RawEntry.mem_named.mpr ⟨List.mem_of_getElem? named, positive⟩)
      rw [truncated.data _ (blockRecord_outside sound known _)]
  · have uncovered (i : Nat) : ¬ Covers fmt before f record i := fun covers => covered ⟨i, covers⟩
    rw [reads_uncovered uncovered, reads_uncovered fun i covers =>
      uncovered i ((truncated.covers_iff sound.mask ordinary).mp covers).1]

/-- A block the file gives back: one in a slot past the new length, of an entry that is erased or
cut. -/
def GivenBack (fmt : Format) (disk : Disk) (f : File) (records block : Nat) : Prop :=
  ∃ i < fmt.dirEntries, (disk.entry i).Of f ∧ ∃ slot,
    (decodeBlocks (disk.entry i) (Params.derive fmt))[slot]? = some block ∧ block ≠ 0 ∧
      records ≤ (disk.entry i).group (Params.derive fmt) * recordsPerExtent +
        slot * (Params.derive fmt).recordsPerBlock ∧
      (records ≤ (disk.entry i).group (Params.derive fmt) * recordsPerExtent ∨
        records < (disk.entry i).group (Params.derive fmt) * recordsPerExtent +
          (disk.entry i).count (Params.derive fmt))

/-- A disk names a block in a live entry. -/
def Names (fmt : Format) (disk : Disk) (block : Nat) : Prop :=
  ∃ i < fmt.dirEntries, (disk.entry i).Live ∧
    block ∈ decodeBlocks (disk.entry i) (Params.derive fmt)

/-- The blocks a disk no longer names are those given back. -/
theorem Truncated.names_iff (truncated : Truncated fmt before after f records)
    (sound : fmt.Sound)
    (apart : ∀ i < fmt.dirEntries, ∀ j < fmt.dirEntries, (before.entry i).Live →
      (before.entry j).Live → ∀ block ∈ (before.entry i).named (Params.derive fmt),
        block ∈ (before.entry j).named (Params.derive fmt) → i = j)
    (once : ∀ i < fmt.dirEntries, (before.entry i).Live →
      ((before.entry i).named (Params.derive fmt)).Nodup) {block : Nat} (positive : block ≠ 0) :
    Names fmt after block ↔ Names fmt before block ∧ ¬ GivenBack fmt before f records block := by
  have same {i j slot other : Nat} (hi : i < fmt.dirEntries) (hj : j < fmt.dirEntries)
      (liveI : (before.entry i).Live) (liveJ : (before.entry j).Live)
      (one : (decodeBlocks (before.entry i) (Params.derive fmt))[slot]? = some block)
      (two : (decodeBlocks (before.entry j) (Params.derive fmt))[other]? = some block) :
      i = j ∧ slot = other := by
    have entry : i = j := apart i hi j hj liveI liveJ block
      (RawEntry.mem_named.mpr ⟨List.mem_of_getElem? one, positive⟩)
      (RawEntry.mem_named.mpr ⟨List.mem_of_getElem? two, positive⟩)
    subst entry
    exact ⟨rfl, slot_unique (once i hi liveI) positive one two⟩
  constructor
  · rintro ⟨i, inside, live, left⟩
    by_cases own : (before.entry i).Of f
    · rw [truncated.own i inside own] at live left
      have begun : (before.entry i).group (Params.derive fmt) * recordsPerExtent < records := by
        by_contra past
        rw [RawEntry.truncated, if_pos (Nat.not_lt.mp past)] at live
        exact RawEntry.erased_dead _ live
      obtain ⟨slot, named, kept⟩ := RawEntry.truncated_names sound begun positive left
      refine ⟨⟨i, inside, own.1, List.mem_of_getElem? named⟩, ?_⟩
      rintro ⟨j, hj, other, slot', named', _, past, changed⟩
      obtain ⟨rfl, rfl⟩ := same inside hj own.1 other.1 named named'
      rcases changed with erased | partly
      · omega
      · have early := kept partly
        omega
    · rw [truncated.other i inside own] at live left
      refine ⟨⟨i, inside, live, left⟩, ?_⟩
      rintro ⟨j, hj, other, slot', named', _⟩
      obtain ⟨slot, room, named⟩ := List.getElem_of_mem left
      have here := List.getElem?_eq_getElem room
      rw [named] at here
      obtain ⟨rfl, _⟩ := same inside hj live other.1 here named'
      exact own other
  · rintro ⟨⟨i, inside, live, member⟩, stays⟩
    by_cases own : (before.entry i).Of f
    · obtain ⟨slot, room, named⟩ := List.getElem_of_mem member
      have here := List.getElem?_eq_getElem room
      rw [named] at here
      have begun : (before.entry i).group (Params.derive fmt) * recordsPerExtent < records := by
        by_contra past
        exact stays ⟨i, inside, own, slot, here, positive, by omega, .inl (by omega)⟩
      refine ⟨i, inside, ((truncated.of_iff inside).mpr ⟨own, begun⟩).1, ?_⟩
      rw [truncated.own i inside own]
      by_cases kept : (before.entry i).group (Params.derive fmt) * recordsPerExtent +
          slot * (Params.derive fmt).recordsPerBlock < records
      · rw [← RawEntry.truncated_slot sound begun kept] at here
        exact List.mem_of_getElem? here
      · have whole : ¬ records < (before.entry i).group (Params.derive fmt) * recordsPerExtent +
            (before.entry i).count (Params.derive fmt) := fun partly =>
          stays ⟨i, inside, own, slot, here, positive, by omega, .inr partly⟩
        rw [RawEntry.truncated, if_neg (Nat.not_le.mpr begun), if_neg whole]
        exact member
    · have still := truncated.other i inside own
      exact ⟨i, inside, by rw [still]; exact live, by rw [still]; exact member⟩

/-- A truncation leaves the blocks of entries that are not read as files. -/
theorem Truncated.foreign (truncated : Truncated fmt before after f records) :
    foreignOf fmt after = foreignOf fmt before := by
  apply List.flatMap_congr
  intro i member
  have inside := List.mem_range.mp member
  by_cases own : (before.entry i).Of f
  · rw [truncated.own i inside own, if_pos own.1]
    by_cases begun : (before.entry i).group (Params.derive fmt) * recordsPerExtent < records
    · rw [if_pos ((RawEntry.truncated_of_iff own).mpr begun).1]
    · rw [RawEntry.truncated, if_pos (Nat.not_lt.mp begun), if_neg (RawEntry.erased_dead _)]
      simp [foreignBlocks, RawEntry.isFree, RawEntry.erased]
  · rw [truncated.other i inside own]

/-- Truncated once, no entry of the file reaches past the new length. -/
theorem Truncated.settled (truncated : Truncated fmt before after f records)
    (mask : (Params.derive fmt).exm = 0 ∨ (Params.derive fmt).exm = 1)
    (ordinary : Ordinary fmt before f) :
    (extentsOf (directoryOf fmt after) f).filterMap
      (truncateChange (Params.derive fmt) records) = [] := by
  rw [List.filterMap_eq_nil_iff]
  intro e member
  obtain ⟨listed, file⟩ := mem_extentsOf.mp member
  obtain ⟨i, inside, live, rfl⟩ := mem_directoryOf.mp listed
  obtain ⟨own, begun⟩ := (truncated.of_iff inside).mp ⟨live, file⟩
  obtain ⟨group, count, _⟩ := RawEntry.truncated_group mask (ordinary.counts i inside own)
    (ordinary.small i inside own) begun
  have start : extentStart (Params.derive fmt) ((after.entry i).slot i (Params.derive fmt)) =
      (before.entry i).group (Params.derive fmt) * recordsPerExtent := by
    rw [truncated.own i inside own, ← group]
    rfl
  have held : extentCount (Params.derive fmt) ((after.entry i).slot i (Params.derive fmt)) =
      min ((before.entry i).count (Params.derive fmt))
        (records - (before.entry i).group (Params.derive fmt) * recordsPerExtent) := by
    rw [truncated.own i inside own, ← count]
    rfl
  simp only [truncateChange, start, held]
  rw [if_neg (by omega), if_neg (by omega)]

end Truncated

/-! ## The operation -/

section Operation

variable {fs : ImageFs}

/-- The plan of a truncation truncates the disk. -/
theorem plan_truncated (valid : fs.Valid) (synced : fs.Synced) (f : File) (records : Nat) :
    Truncated fs.fmt fs.disk (fs.disk.run (planOf fs (.truncate f records)).steps) f records := by
  have found {i : Nat} (inside : i < fs.fmt.dirEntries) (own : (fs.disk.entry i).Of f) :
      (fs.disk.entry i).slot i fs.params ∈ extentsOf fs.dir f :=
    mem_extentsOf.mpr ⟨synced.listed inside own.1, own.2⟩
  cases planned : planOf fs (.truncate f records) with
  | refuse =>
    rw [planOf] at planned
    split at planned <;> cases planned
  | edit e =>
    rw [planOf] at planned
    split at planned <;> cases planned
  | idle =>
    have absent : (fileRecords fs.params fs.dir f).isNone = true := by
      cases planOf_idle planned with
      | truncate empty => exact empty
    refine ⟨fun i inside own => ?_, fun _ _ _ => rfl, fun _ _ => rfl⟩
    have listed := found inside own
    by_cases empty : (extentsOf fs.dir f).isEmpty = true
    · rw [List.isEmpty_iff.mp empty] at listed
      cases listed
    · simp [fileRecords, empty] at absent
  | batch changes =>
    have batches := planOf_batch planned
    have distinct := batches.distinct valid
    have inside := batches.inside valid
    obtain ⟨_⟩ := batches
    refine ⟨fun i here own => ?_, fun i here other => ?_, fun record outside => ?_⟩
    · cases changed : truncateChange fs.params records ((fs.disk.entry i).slot i fs.params) with
      | some change =>
        obtain ⟨place, new⟩ := truncateChange_new changed
        have member := List.mem_filterMap.mpr ⟨_, found here own, changed⟩
        have written := Disk.entry_run_mem fs.disk _ Change.new distinct member
        rw [place, new] at written
        exact written
      | none =>
        have unnamed : ∀ change ∈ (extentsOf fs.dir f).filterMap
            (truncateChange fs.params records), change.index ≠ i := by
          intro change member same
          obtain ⟨e, listed, made⟩ := List.mem_filterMap.mp member
          have known := (mem_extentsOf.mp listed).1
          have there := (truncateChange_some made).1
          rw [valid.unique known (mem_extentsOf.mp (found here own)).1
            (there.symm.trans same), changed] at made
          cases made
        rw [show (fs.disk.entry i).truncated (Params.derive fs.fmt) records = fs.disk.entry i from
          truncateChange_none changed]
        exact Disk.entry_run_other fs.disk _ Change.new unnamed
    · refine Disk.entry_run_other fs.disk _ Change.new fun change member same => other ?_
      obtain ⟨e, listed, made⟩ := List.mem_filterMap.mp member
      obtain ⟨known, file⟩ := mem_extentsOf.mp listed
      have there := (truncateChange_some made).1
      obtain ⟨_, entry, live⟩ := synced.entry known
      rw [← same, there, entry]
      refine ⟨live, ?_⟩
      rw [← file, (valid.listed e known).2.2]
      rfl
    · exact Disk.run_apart fs.disk _ (edits_apart Change.new inside outside)

/-- The operation leaves what the method leaves. -/
theorem truncate_run_after (f : File) (records : Nat) (fs : ImageFs) :
    ((Operation.truncate f records).run fs).2 = (truncateToRecords f records fs).2 := by
  change ((do let _ ← truncateToRecords f records : FsM Unit) fs).2 = _
  rw [Fallible.bind_run]
  split <;> rename_i ran <;> rw [ran] <;> rfl

/-- The operation ends well only when the method does. -/
theorem truncate_run_ok (f : File) (records : Nat) (fs : ImageFs)
    (ok : ((Operation.truncate f records).run fs).1 = .ok ()) :
    ∃ value, (truncateToRecords f records fs).1 = .ok value := by
  change ((do let _ ← truncateToRecords f records : FsM Unit) fs).1 = _ at ok
  rw [Fallible.bind_run] at ok
  split at ok
  · rename_i value after ran
    exact ⟨value, by rw [ran]⟩
  · cases ok

/-- A change of no entry writes nothing. -/
theorem writeDirEntries_nil (valid : fs.Valid) :
    Medium.Unwritten fs.media (writeDirEntries [] fs).2.media := by
  rw [writeDirEntries, Fallible.bind_run, Fallible.view_run]
  have ran : onMedia (writeOrUndo fs.fmt []) fs = (.ok (.ok ()), fs) := rfl
  simp only [id_eq, Fallible.bind_run, ran, Fallible.attempt_run]
  rcases reload_ran valid with ⟨media, again, unwritten⟩ | ⟨reason, media, again, unwritten, _⟩
  · rw [again]
    exact unwritten
  · rw [again]
    exact unwritten

/-- A truncation that finds nothing to change writes nothing. -/
theorem truncate_settled (valid : fs.Valid) (writable : fs.readOnly = false) {f : File}
    {records : Nat} (settled : (extentsOf fs.dir f).filterMap
      (truncateChange fs.params records) = []) :
    Medium.Unwritten fs.media (truncateToRecords f records fs).2.media := by
  rw [truncateToRecords, Fallible.bind_ok (checkWritable_run writable), Fallible.bind_run,
    Fallible.view_run]
  simp only [id_eq]
  split
  · exact Medium.Unwritten.refl fs.media
  · rw [settled, Fallible.bind_run]
    have unwritten := writeDirEntries_nil valid
    split <;> rename_i ran <;> rw [ran] at unwritten <;> exact unwritten

/-- The blocks of the entries read as files are those the disk names. -/
theorem mem_blocks_iff {fmt : Format} {disk : Disk} {block : Nat} :
    block ∈ (directoryOf fmt disk).flatMap DirSlot.blocks ↔ Names fmt disk block := by
  simp only [List.mem_flatMap, mem_directoryOf]
  constructor
  · rintro ⟨_, ⟨i, inside, live, rfl⟩, named⟩
    exact ⟨i, inside, live, named⟩
  · rintro ⟨i, inside, live, named⟩
    exact ⟨_, ⟨i, inside, live, rfl⟩, named⟩

/-- The bitmap a disk asks for. -/
def bitmapAt (fmt : Format) (disk : Disk) : List Bool :=
  bitmapOf (Params.derive fmt) (directoryOf fmt disk) (foreignOf fmt disk)

/-- A block is taken when it is the directory's, or named by an entry. -/
theorem taken_bitmapAt {fmt : Format} {disk : Disk} {block : Nat}
    (known : block ≤ (Params.derive fmt).maxBlock) :
    Taken (bitmapAt fmt disk) block ↔ block < (Params.derive fmt).dirBlocks ∨
      block ≠ 0 ∧ (Names fmt disk block ∨ block ∈ foreignOf fmt disk) := by
  rw [bitmapAt, taken_bitmapOf known, mem_blocks_iff]

/-- A tight memory that follows its medium has the bitmap the disk asks for. -/
theorem ImageFs.Tight.bitmap (tight : fs.Tight) (synced : fs.Synced) :
    fs.used = bitmapAt fs.fmt fs.disk := by
  have dir : fs.dir = directoryOf fs.fmt fs.disk := synced
  rw [tight.used, tight.foreign, dir]
  rfl

/-- A truncation frees the blocks given back that no other entry names, and takes none. -/
theorem Truncated.returned {fmt : Format} {before after : Disk} {f : File} {records : Nat}
    (truncated : Truncated fmt before after f records) (sound : fmt.Sound)
    (apart : ∀ i < fmt.dirEntries, ∀ j < fmt.dirEntries, (before.entry i).Live →
      (before.entry j).Live → ∀ block ∈ (before.entry i).named (Params.derive fmt),
        block ∈ (before.entry j).named (Params.derive fmt) → i = j)
    (once : ∀ i < fmt.dirEntries, (before.entry i).Live →
      ((before.entry i).named (Params.derive fmt)).Nodup)
    (bounded : ∀ i < fmt.dirEntries, (before.entry i).Live →
      ∀ block ∈ (before.entry i).named (Params.derive fmt), (Params.derive fmt).dirBlocks ≤ block)
    {block : Nat} (known : block ≤ (Params.derive fmt).maxBlock) :
    (Taken (bitmapAt fmt before) block ∧ ¬ Taken (bitmapAt fmt after) block ↔
      GivenBack fmt before f records block ∧ block ∉ foreignOf fmt before) ∧
    (Taken (bitmapAt fmt after) block → Taken (bitmapAt fmt before) block) := by
  have left : block ≠ 0 → (Names fmt after block ↔
      Names fmt before block ∧ ¬ GivenBack fmt before f records block) :=
    truncated.names_iff sound apart once
  have back (given : GivenBack fmt before f records block) :
      Names fmt before block ∧ block ≠ 0 ∧ ¬ block < (Params.derive fmt).dirBlocks := by
    obtain ⟨i, inside, own, slot, named, positive, _⟩ := given
    have member := List.mem_of_getElem? named
    exact ⟨⟨i, inside, own.1, member⟩, positive, Nat.not_lt.mpr
      (bounded i inside own.1 block (RawEntry.mem_named.mpr ⟨member, positive⟩))⟩
  rw [taken_bitmapAt known, taken_bitmapAt known, truncated.foreign]
  clear truncated apart once bounded
  tauto

end Operation

/-- Truncating an ordinary file of a writable image is exact. Past the new length it reads as ended,
and before it as it did. The blocks that come back are those in its slots past the new length, of
the entries that are erased or cut, unless an entry that is not read as a file names them. Every
other entry and every record outside the directory stays, and truncating again writes nothing. -/
theorem truncation_exact {fmt : Format} (listed : fmt ∈ formats) {media : Media}
    (healthy : media.Healthy) {fs : ImageFs} (reachable : Reachable media fmt fs) {f : File}
    (ordinary : Ordinary fmt fs.disk f) (records : Nat) :
    (∃ value, (truncateToRecords f records fs).1 = .ok value) ∧
    (∀ r, records ≤ r →
      (readRecord f r (truncateToRecords f records fs).2).1 = .ok none) ∧
    (∀ r < records,
      (readRecord f r (truncateToRecords f records fs).2).1 = (readRecord f r fs).1) ∧
    (∀ block ≤ fs.params.maxBlock,
      (Taken fs.used block ∧ ¬ Taken (truncateToRecords f records fs).2.used block ↔
        GivenBack fmt fs.disk f records block ∧ block ∉ fs.foreign) ∧
      (Taken (truncateToRecords f records fs).2.used block → Taken fs.used block)) ∧
    (∀ i < fmt.dirEntries, ¬ (fs.disk.entry i).Of f →
      (truncateToRecords f records fs).2.disk.entry i = fs.disk.entry i) ∧
    (∀ record, fmt.dirRecords ≤ record →
      (truncateToRecords f records fs).2.disk record = fs.disk record) ∧
    Medium.Unwritten (truncateToRecords f records fs).2.media
      (truncateToRecords f records (truncateToRecords f records fs).2).2.media := by
  have sound := formats_sound fmt listed
  obtain ⟨valid, format, writable⟩ := reachable.kept sound
  subst format
  obtain ⟨⟨names, owned⟩, _⟩ := reachable.owned sound
  obtain ⟨well, synced, tight⟩ := reachable.healthy sound healthy
  -- The operation makes its plan, and memory follows.
  have kept := run_kept valid (.truncate f records)
  obtain ⟨moved, synced', tightens, ended⟩ :=
    run_faultless owned valid writable synced (.truncate f records) well.not_faulted
  obtain ⟨well', _, _⟩ := (reachable.step (.truncate f records)).healthy sound healthy
  have tight' := tightens tight
  have shown : ((Operation.truncate f records).run fs).2.disk =
      fs.disk.run (planOf fs (.truncate f records)).steps := by
    rw [ImageFs.disk, kept.fmt]
    exact ImageFs.disk_moved moved
  have truncated := plan_truncated valid synced f records
  rw [← shown] at truncated
  have willing : planOf fs (.truncate f records) ≠ .refuse := by
    rw [planOf]
    split <;> intro same <;> cases same
  have value := truncate_run_ok f records fs (ended.mpr willing)
  have fmt' := kept.fmt
  have valid' := kept.valid
  have writable' := kept.readOnly.trans writable
  rw [truncate_run_after] at truncated synced' tight' well' fmt' valid' writable'
  generalize (truncateToRecords f records fs).2 = after at *
  have dir' : after.dir = directoryOf fs.fmt after.disk := by
    rw [show after.dir = directoryOf after.fmt after.disk from synced', fmt']
  have dir : fs.dir = directoryOf fs.fmt fs.disk := synced
  have bounded {i : Nat} (inside : i < fs.fmt.dirEntries) (live : (fs.disk.entry i).Live)
      {block : Nat} (named : block ∈ (fs.disk.entry i).named (Params.derive fs.fmt)) :=
    owned.bounded i block ((owned.medium i inside live).2 block named)
  refine ⟨value, fun r past => ?_, fun r below => ?_, fun block known => ?_, truncated.other,
    truncated.data, ?_⟩
  · rw [readRecord_run valid' well', dir', fmt']
    exact truncated.reads_past sound.mask ordinary past
  · rw [readRecord_run valid' well', readRecord_run valid well, dir', dir, fmt']
    exact truncated.reads_below sound ordinary
      (fun i inside own block named => (bounded inside own.1 named).1) below
  · have taken' : after.used = bitmapAt fs.fmt after.disk := by
      rw [tight'.bitmap synced', fmt']
    rw [tight.bitmap synced, taken', tight.foreign]
    exact truncated.returned sound
      (fun i hi j hj liveI liveJ block one two => owned.apart i j block
        ((owned.medium i hi liveI).2 block one) ((owned.medium j hj liveJ).2 block two))
      (fun i inside live => (owned.medium i inside live).1)
      (fun i inside live block named => (bounded inside live named).1) known
  · refine truncate_settled valid' writable' ?_
    rw [ImageFs.params, dir', fmt']
    exact truncated.settled sound.mask ordinary

/-- The entries of a file have record counts of one extent and differing groups. -/
def Counted (fmt : Format) (disk : Disk) (f : File) : Prop :=
  (∀ i < fmt.dirEntries, (disk.entry i).Of f → (disk.entry i).rc ≤ 128) ∧
    ∀ i < fmt.dirEntries, ∀ j < fmt.dirEntries, (disk.entry i).Of f → (disk.entry j).Of f →
      (disk.entry i).group (Params.derive fmt) = (disk.entry j).group (Params.derive fmt) → i = j

/-- A file whose one entry is the first of a directory is such a file. -/
theorem counted_single {fmt : Format} {disk : Disk} {f : File}
    (single : ∀ i < fmt.dirEntries, (disk.entry i).Live → i = 0)
    (count : (disk.entry 0).rc ≤ 128) : Counted fmt disk f := by
  constructor
  · intro i inside own
    rw [single i inside own.1]
    exact count
  · intro i hi j hj one two _
    rw [single i hi one.1, single j hj two.1]

/-- A file of 148 records in two entries, the first of which names sixteen blocks. -/
def twoEntries : Media :=
  erasedMedia ibm3740 [⟨ibm3740.offset 0, 128, putEntry (putEntry (fun _ => fill) 0
    (entryA 128 fun i => 2 + UInt8.ofNat i.val)) 1
    { entryA 20 (fun i => if i.val < 3 then 18 + UInt8.ofNat i.val else 0) with ex := 1 }⟩]

/-- The theorem at work: of a file of two entries cut to 100 records the second is erased and the
first loses three blocks. -/
theorem truncation_exact_two :
    ∃ fs, Reachable twoEntries ibm3740 fs ∧
      (readRecord fileA 110 (truncateToRecords fileA 100 fs).2).1 = .ok none ∧
      (readRecord fileA 99 (truncateToRecords fileA 100 fs).2).1 = (readRecord fileA 99 fs).1 ∧
      (∀ block ∈ [15, 20], Taken fs.used block ∧
        ¬ Taken (truncateToRecords fileA 100 fs).2.used block) ∧
      Medium.Unwritten (truncateToRecords fileA 100 fs).2.media
        (truncateToRecords fileA 100 (truncateToRecords fileA 100 fs).2).2.media := by
  have sound := formats_sound ibm3740 (by simp [formats])
  have checked : mountsTo twoEntries ibm3740 (fun fs => fs.foreign == []) = true := by
    decide +kernel
  obtain ⟨fs, mounted, reachable, native⟩ := mountsTo_reachable checked
  have found := mount_ok sound mounted
  have disk : fs.disk = diskOf ibm3740 twoEntries.contents := by
    rw [ImageFs.disk, found.format, found.unwritten.contents]
  have two : ∀ i < ibm3740.dirEntries, (fs.disk.entry i).Live → i = 0 ∨ i = 1 := by
    rw [disk]
    decide +kernel
  have groups : (fs.disk.entry 0).group (Params.derive ibm3740) ≠
      (fs.disk.entry 1).group (Params.derive ibm3740) := by
    rw [disk]
    decide +kernel
  have ordinary : Ordinary ibm3740 fs.disk fileA := by
    refine ⟨fun i inside own => ?_, fun i inside own => ?_, fun i hi j hj one other same => ?_⟩
    · rw [disk]
      rcases two i inside own.1 with rfl | rfl <;> decide +kernel
    · rw [disk]
      rcases two i inside own.1 with rfl | rfl <;> decide +kernel
    · rcases two i hi one.1 with rfl | rfl <;> rcases two j hj other.1 with rfl | rfl
      · rfl
      · exact absurd same groups
      · exact absurd same.symm groups
      · rfl
  obtain ⟨_, past, below, blocks, _, _, settled⟩ :=
    truncation_exact (by simp [formats]) (fun _ _ => rfl) reachable ordinary 100
  have known : fs.params.maxBlock = 242 := by
    rw [ImageFs.params, found.format]
    decide
  refine ⟨fs, reachable, past 110 (by omega), below 99 (by omega), fun block member => ?_, settled⟩
  have foreign : block ∉ fs.foreign := by
    rw [eq_of_beq native]
    exact List.not_mem_nil
  simp only [List.mem_cons, List.not_mem_nil, or_false] at member
  refine (blocks block (by omega)).1.mpr ⟨?_, foreign⟩
  rw [disk]
  rcases member with rfl | rfl
  · exact ⟨0, by decide, ⟨by decide +kernel, by decide +kernel⟩, 13, by decide +kernel, by decide,
      by decide +kernel, .inr (by decide +kernel)⟩
  · exact ⟨1, by decide, ⟨by decide +kernel, by decide +kernel⟩, 2, by decide +kernel, by decide,
      by decide +kernel, .inl (by decide +kernel)⟩

/-- A truncation that ends well keeps every record before the new length and gives back every
block past it. -/
def TruncatesExactly (fs : ImageFs) (f : File) (records : Nat) : Prop :=
  (truncateToRecords f records fs).1.isOk = true →
    (∀ r < records,
      (readRecord f r (truncateToRecords f records fs).2).1 = (readRecord f r fs).1) ∧
    ∀ block, GivenBack fs.fmt fs.disk f records block →
      ¬ Taken (truncateToRecords f records fs).2.used block

/-- A truncation that ends well and changes the first byte read of a record is not exact. -/
theorem truncatesExactly_fails {media : Media} {f : File} {records r : Nat} (below : r < records)
    (single : ∀ i < ibm3740.dirEntries, ((diskOf ibm3740 media.contents).entry i).Live → i = 0)
    (count : ((diskOf ibm3740 media.contents).entry 0).rc ≤ 128)
    (checked : mountsTo media ibm3740 (fun fs => (truncateToRecords f records fs).1.isOk &&
      leading (readRecord f r (truncateToRecords f records fs).2).1 !=
        leading (readRecord f r fs).1) = true) :
    ∃ fs, Reachable media ibm3740 fs ∧ Counted ibm3740 fs.disk f ∧
      ¬ TruncatesExactly fs f records := by
  obtain ⟨fs, mounted, reachable, held⟩ := mountsTo_reachable checked
  have found := mount_ok (formats_sound ibm3740 (by simp [formats])) mounted
  have disk : fs.disk = diskOf ibm3740 media.contents := by
    rw [ImageFs.disk, found.format, found.unwritten.contents]
  rw [Bool.and_eq_true, bne_iff_ne] at held
  exact ⟨fs, reachable, by rw [disk]; exact counted_single single count,
    fun exactly => held.2 (congrArg leading ((exactly held.1).1 r below))⟩

/-- A file of two blocks, the second of which an entry of user 16 names as well. -/
def sharedBlock : Media :=
  erasedMedia ibm3740 [⟨ibm3740.offset 0, 128, putEntry (putEntry (fun _ => fill) 0
    (entryA 16 fun i => if i.val = 0 then 2 else if i.val = 1 then 3 else 0)) (Fin.last 3)
    { entryA 8 (fun i => if i.val = 0 then 3 else 0) with user := 16 }⟩]

/-- A file whose extent number is the first that two bytes of five and six bits cannot hold. -/
def farExtent : Media :=
  erasedMedia ibm3740 [firstEntry ibm3740
    { entryA 2 (fun i => if i.val = 0 then 2 else 0) with ex := 0x20, s2 := 0x3F }]

/-- A truncation may keep a block past the new length, one that an entry not read as a file names
as well; it may lose a record before it, one of an extent number that wraps when it is written
again; and a medium that fails later no longer gives the records it gave. -/
theorem truncation_inexact :
    (∃ fs, Reachable sharedBlock ibm3740 fs ∧ Counted ibm3740 fs.disk fileA ∧
      ¬ TruncatesExactly fs fileA 8) ∧
    (∃ fs, Reachable farExtent ibm3740 fs ∧ Counted ibm3740 fs.disk fileA ∧
      ¬ TruncatesExactly fs fileA 262145) ∧
    ∃ fs, Reachable (oneFileFailing 32) ibm3740 fs ∧ Counted ibm3740 fs.disk fileA ∧
      ¬ TruncatesExactly fs fileA 1 := by
  refine ⟨?_, truncatesExactly_fails (r := 262144) (by decide) (by decide +kernel)
    (by decide +kernel) (by decide +kernel), truncatesExactly_fails (r := 0) (by decide)
    (by decide +kernel) (by decide +kernel) (by decide +kernel)⟩
  have checked : mountsTo sharedBlock ibm3740 (fun fs => (truncateToRecords fileA 8 fs).1.isOk &&
      (truncateToRecords fileA 8 fs).2.used[3]? == some true) = true := by decide +kernel
  obtain ⟨fs, mounted, reachable, held⟩ := mountsTo_reachable checked
  have found := mount_ok (formats_sound ibm3740 (by simp [formats])) mounted
  have disk : fs.disk = diskOf ibm3740 sharedBlock.contents := by
    rw [ImageFs.disk, found.format, found.unwritten.contents]
  have single : ∀ i < ibm3740.dirEntries,
      ((diskOf ibm3740 sharedBlock.contents).entry i).Live → i = 0 := by decide +kernel
  rw [Bool.and_eq_true, beq_iff_eq] at held
  refine ⟨fs, reachable, by rw [disk]; exact counted_single single (by decide +kernel),
    fun exactly => (exactly held.1).2 3 ?_ held.2⟩
  rw [found.format, disk]
  exact ⟨0, by decide, ⟨by decide +kernel, by decide +kernel⟩, 1, by decide +kernel, by decide,
    by decide +kernel, .inr (by decide +kernel)⟩

end EthernetGateway.Image
