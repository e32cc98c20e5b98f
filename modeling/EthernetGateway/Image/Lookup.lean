import EthernetGateway.Image.Faultless

/-!
# Where a record of a file lies

On a medium without faults a read is a function of the list of entries and the records of the
medium. In a directory whose entries count at most 128 records and of which no two share a file
and an extent group, a record of a file lies in at most one entry, and reading it is looking
into the block that entry names for it.
-/

namespace EthernetGateway.Image

/-- The file an entry belongs to, attribute bits stripped. -/
def RawEntry.file (raw : RawEntry) : File := ⟨raw.user, strip raw.name, strip raw.ext⟩

/-- A live entry of a file. -/
def RawEntry.Of (raw : RawEntry) (f : File) : Prop := raw.Live ∧ raw.file = f

/-- The extent group of an entry, `extent & !exm`. -/
def RawEntry.group (raw : RawEntry) (params : Params) : Nat := maskOff raw.extent params.exm

/-- How many records an entry holds. -/
def RawEntry.count (raw : RawEntry) (params : Params) : Nat :=
  (raw.extent &&& params.exm) * recordsPerExtent + raw.rc.toNat

/-- A directory whose live entries count at most 128 records in their last extent, and of which
no two share a file and an extent group. -/
structure Grouped (fmt : Format) (disk : Disk) : Prop where
  /-- Record counts are those of one extent. -/
  counts : ∀ i < fmt.dirEntries, (disk.entry i).Live → (disk.entry i).rc ≤ 128
  /-- Two live entries differ in file or group. -/
  apart : ∀ i < fmt.dirEntries, ∀ j < fmt.dirEntries, (disk.entry i).Live → (disk.entry j).Live →
    (disk.entry i).file = (disk.entry j).file →
    (disk.entry i).group (Params.derive fmt) = (disk.entry j).group (Params.derive fmt) → i = j

/-! ## Arithmetic of groups -/

section Groups

variable {params : Params}

/-- A group is a multiple of the extents an entry folds. -/
theorem RawEntry.group_eq (raw : RawEntry) (mask : params.exm = 0 ∨ params.exm = 1) :
    raw.group params = raw.extent / (params.exm + 1) * (params.exm + 1) :=
  maskOff_eq raw.extent_lt mask

theorem RawEntry.count_eq (raw : RawEntry) (mask : params.exm = 0 ∨ params.exm = 1) :
    raw.count params = raw.extent % (params.exm + 1) * recordsPerExtent + raw.rc.toNat := by
  rw [RawEntry.count, and_mask_eq _ mask]

/-- The records an entry holds lie in its group. -/
theorem RawEntry.count_le (raw : RawEntry) (mask : params.exm = 0 ∨ params.exm = 1)
    (counted : raw.rc ≤ 128) : raw.count params ≤ recordsPerEntry params := by
  have few : raw.rc.toNat ≤ 128 := UInt8.le_iff_toNat_le.mp counted
  rw [raw.count_eq mask, recordsPerEntry]
  unfold recordsPerExtent
  rcases mask with mask | mask <;> rw [mask] <;> omega

/-- The first record of a record's group and the record's place after it. -/
theorem baseExtent_add_withinEntry (params : Params) (record : Nat) :
    baseExtent params record * recordsPerExtent + withinEntry params record = record := by
  have whole : baseExtent params record * recordsPerExtent =
      record / recordsPerEntry params * recordsPerEntry params := by
    rw [baseExtent, recordsPerEntry, Nat.mul_assoc]
  have below := Nat.div_mul_le_self record (recordsPerEntry params)
  rw [whole, withinEntry]
  omega

theorem withinEntry_lt (params : Params) (record : Nat) :
    withinEntry params record < recordsPerEntry params := by
  have positive : 0 < recordsPerEntry params := by
    rw [recordsPerEntry, recordsPerExtent]
    omega
  have remainder := Nat.mod_lt record positive
  have quotient := Nat.div_add_mod record (recordsPerEntry params)
  rw [Nat.mul_comm] at quotient
  rw [withinEntry]
  omega

/-- A record between the first of a group and the first of the next is of that group. -/
theorem baseExtent_of_within (params : Params) (quotient within : Nat)
    (inside : within < recordsPerEntry params) :
    baseExtent params (quotient * recordsPerEntry params + within) =
      quotient * (params.exm + 1) := by
  have positive : 0 < recordsPerEntry params := Nat.lt_of_le_of_lt (Nat.zero_le _) inside
  rw [baseExtent, Nat.mul_comm quotient, Nat.mul_add_div positive, Nat.div_eq_of_lt inside,
    Nat.add_zero]

/-- An entry covers a record exactly when the record is of its group and one of those it
counts. -/
theorem covers_iff {raw : RawEntry} (mask : params.exm = 0 ∨ params.exm = 1)
    (counted : raw.rc ≤ 128) (record : Nat) :
    (raw.group params * recordsPerExtent ≤ record ∧
      record < raw.group params * recordsPerExtent + raw.count params) ↔
    raw.group params = baseExtent params record ∧ withinEntry params record < raw.count params := by
  have few := raw.count_le mask counted
  constructor
  · rintro ⟨above, below⟩
    have place : record = raw.extent / (params.exm + 1) * recordsPerEntry params +
        (record - raw.group params * recordsPerExtent) := by
      rw [recordsPerEntry, ← Nat.mul_assoc, ← raw.group_eq mask]
      omega
    have base := baseExtent_of_within params (raw.extent / (params.exm + 1))
      (record - raw.group params * recordsPerExtent) (by omega)
    rw [← place, ← raw.group_eq mask] at base
    have whole := baseExtent_add_withinEntry params record
    rw [base] at whole
    exact ⟨base.symm, by omega⟩
  · rintro ⟨group, within⟩
    have whole := baseExtent_add_withinEntry params record
    rw [group]
    omega

end Groups

/-! ## Reading -/

/-- What a read finds in an entry. -/
def valueAt (fmt : Format) (disk : Disk) (start : Nat) (blocks : List Nat) (record : Nat) :
    Except IoError (Option Record) :=
  let params := Params.derive fmt
  match blocks[(record - start) / params.recordsPerBlock]? with
  | none => .ok none
  | some 0 => .ok none
  | some block =>
    if block > params.maxBlock then
      .error ⟨.invalidData, s!"directory names block {block}, past the end of the disk"⟩
    else .ok (some (disk (fmt.blockRecord block ((record - start) % params.recordsPerBlock))))

/-- What a read of a record returns, from the list of entries and the records of the medium. -/
def reads (fmt : Format) (dir : List DirSlot) (disk : Disk) (f : File) (record : Nat) :
    Except IoError (Option Record) :=
  match coveringEntry (Params.derive fmt) dir f record with
  | none => .ok none
  | some (start, blocks) => valueAt fmt disk start blocks record

/-- On a medium without faults `read_record` returns what a read finds and writes nothing. -/
theorem readRecord_reached {fs : ImageFs} (valid : fs.Valid) (healthy : fs.media.Healthy) (f : File)
    (record : Nat) : ∃ media, Medium.Unwritten fs.media media ∧
      readRecord f record fs = (reads fs.fmt fs.dir fs.disk f record, fs.withMedia media) := by
  have still : Medium.Unwritten fs.media fs.media := Medium.Unwritten.refl fs.media
  rw [readRecord, Fallible.bind_run, Fallible.view_run, reads]
  simp only [id_eq]
  cases covering : coveringEntry fs.params fs.dir f record with
  | none =>
    rw [show coveringEntry (Params.derive fs.fmt) fs.dir f record = none from covering]
    split <;> exact ⟨fs.media, still, rfl⟩
  | some found =>
    obtain ⟨start, blocks⟩ := found
    rw [show coveringEntry (Params.derive fs.fmt) fs.dir f record = some (start, blocks) from
      covering]
    have some : (extentsOf fs.dir f).isEmpty = false := by
      cases listed : extentsOf fs.dir f with
      | nil =>
        rw [coveringEntry, listed] at covering
        cases covering
      | cons e rest => rfl
    rw [some]
    simp only [Bool.false_eq_true, ↓reduceIte, valueAt, ImageFs.params]
    cases named : blocks[(record - start) / (Params.derive fs.fmt).recordsPerBlock]? with
    | none => exact ⟨fs.media, still, rfl⟩
    | some block =>
      cases block with
      | zero => exact ⟨fs.media, still, rfl⟩
      | succ block =>
        by_cases past : block + 1 > (Params.derive fs.fmt).maxBlock
        · simp only [past, ↓reduceIte]
          exact ⟨fs.media, still, rfl⟩
        · have within : (record - start) % (Params.derive fs.fmt).recordsPerBlock <
              (Params.derive fs.fmt).recordsPerBlock := Nat.mod_lt _ valid.sound.block
          have inside := Format.blockRecord_lt valid.sound (Nat.not_lt.mp past) within
          have read := (readDataRecord_plays valid.sound fs.media valid.long inside).healthy healthy
          rw [Format.blockRecord] at read
          simp only [past, ↓reduceIte, Fallible.bind_run, onMedia_run, read, Fallible.pure_run]
          exact ⟨_, Medium.landAll_reads fs.media [()], rfl⟩

/-- On a medium without faults `read_record` returns what a read finds. -/
theorem readRecord_run {fs : ImageFs} (valid : fs.Valid) (healthy : fs.media.Healthy) (f : File)
    (record : Nat) : (readRecord f record fs).1 = reads fs.fmt fs.dir fs.disk f record := by
  obtain ⟨media, _, ran⟩ := readRecord_reached valid healthy f record
  rw [ran]

/-- The entry a read finds is one of the file's. -/
theorem coveringEntry_some {params : Params} {dir : List DirSlot} {f : File} {record start : Nat}
    {blocks : List Nat} (covering : coveringEntry params dir f record = some (start, blocks)) :
    ∃ e ∈ dir, e.file = f ∧ extentStart params e ≤ record ∧
      record < extentStart params e + extentCount params e ∧ start = extentStart params e ∧
      blocks = e.blocks := by
  obtain ⟨e, member, found⟩ := List.exists_of_findSome?_eq_some covering
  obtain ⟨listed, file⟩ := mem_extentsOf.mp member
  simp only at found
  split at found
  · rename_i covers
    cases found
    exact ⟨e, listed, file, covers.1, covers.2, rfl, rfl⟩
  · cases found

/-- A record past the length of a file lies in none of its entries. -/
theorem coveringEntry_past {params : Params} {dir : List DirSlot} {f : File} {n record : Nat}
    (length : fileRecords params dir f = some n) (past : n ≤ record) :
    coveringEntry params dir f record = none := by
  cases covering : coveringEntry params dir f record with
  | none => rfl
  | some found =>
    obtain ⟨e, found⟩ := List.exists_of_findSome?_eq_some covering
    obtain ⟨member, found⟩ := found
    rw [fileRecords] at length
    split at length
    · cases length
    · have bound : extentStart params e + extentCount params e ≤ n := by
        rw [← Option.some.inj length]
        exact List.le_max?_getD_of_mem (List.mem_map_of_mem member)
      simp only at found
      rw [if_neg (by omega)] at found
      cases found

/-- A file whose entries, and the records of the blocks they name, are the same is read the
same. -/
theorem reads_congr {fmt : Format} {dir dir' : List DirSlot} {disk disk' : Disk} {f : File}
    (entries : entriesOf dir' f = entriesOf dir f)
    (records : ∀ e ∈ dir, e.file = f → ∀ block ∈ e.blocks, block ≠ 0 →
      ∀ offset < (Params.derive fmt).recordsPerBlock,
        disk' (fmt.blockRecord block offset) = disk (fmt.blockRecord block offset))
    (block : 0 < (Params.derive fmt).recordsPerBlock) (record : Nat) :
    reads fmt dir' disk' f record = reads fmt dir disk f record := by
  have same : coveringEntry (Params.derive fmt) dir' f record =
      coveringEntry (Params.derive fmt) dir f record := by
    rw [coveringEntry, coveringEntry, extentsOf, extentsOf, entries]
  rw [reads, reads, same]
  cases covering : coveringEntry (Params.derive fmt) dir f record with
  | none => rfl
  | some found =>
    obtain ⟨start, blocks⟩ := found
    obtain ⟨e, listed, file, _, _, rfl, rfl⟩ := coveringEntry_some covering
    simp only [valueAt]
    split
    · rfl
    · rfl
    · rename_i number positive named
      rw [records e listed file number (List.mem_of_getElem? named) positive _ (Nat.mod_lt _ block)]

/-- The length of a file depends on its entries alone. -/
theorem fileRecords_congr {params : Params} {dir dir' : List DirSlot} {f : File}
    (entries : entriesOf dir' f = entriesOf dir f) :
    fileRecords params dir' f = fileRecords params dir f := by
  rw [fileRecords, fileRecords, extentsOf, extentsOf, entries]

/-! ## Where a record lies -/

/-- A record of a file lies in the block that the entry at an index names for it. -/
structure Located (fmt : Format) (disk : Disk) (f : File) (record index block : Nat) : Prop where
  /-- The entry is in the directory. -/
  inside : index < fmt.dirEntries
  /-- It is the file's. -/
  own : (disk.entry index).Of f
  /-- It is of the record's group. -/
  group : (disk.entry index).group (Params.derive fmt) = baseExtent (Params.derive fmt) record
  /-- It counts the record. -/
  covered : withinEntry (Params.derive fmt) record < (disk.entry index).count (Params.derive fmt)
  /-- It names the block in the record's slot. -/
  slot : (decodeBlocks (disk.entry index) (Params.derive fmt))[withinEntry (Params.derive fmt)
    record / (Params.derive fmt).recordsPerBlock]? = some block
  /-- The block is one. -/
  positive : block ≠ 0

/-- Where in its block a record lies. -/
def Format.placeOf (fmt : Format) (record block : Nat) : Nat :=
  fmt.blockRecord block (withinEntry (Params.derive fmt) record %
    (Params.derive fmt).recordsPerBlock)

/-- A record of a file holds these bytes. -/
def Holds (fmt : Format) (disk : Disk) (f : File) (record : Nat) (data : Record) : Prop :=
  ∃ index block, Located fmt disk f record index block ∧ disk (fmt.placeOf record block) = data

/-- The block a record lies in is named by its entry. -/
theorem Located.named {fmt : Format} {disk : Disk} {f : File} {record index block : Nat}
    (located : Located fmt disk f record index block) :
    block ∈ (disk.entry index).named (Params.derive fmt) :=
  RawEntry.mem_named.mpr ⟨List.mem_of_getElem? located.slot, located.positive⟩

/-- What a record holds is what a read of it returns. -/
theorem reads_of_holds {fmt : Format} (mask : (Params.derive fmt).exm = 0 ∨
    (Params.derive fmt).exm = 1) {disk : Disk} (grouped : Grouped fmt disk)
    (bounded : ∀ i < fmt.dirEntries, (disk.entry i).Live →
      ∀ block ∈ (disk.entry i).named (Params.derive fmt), block ≤ (Params.derive fmt).maxBlock)
    {f : File} {record : Nat} {data : Record} (holds : Holds fmt disk f record data) :
    reads fmt (directoryOf fmt disk) disk f record = .ok (some data) := by
  obtain ⟨index, block, located, rfl⟩ := holds
  have counted := grouped.counts index located.inside located.own.1
  have listed : (disk.entry index).slot index (Params.derive fmt) ∈ directoryOf fmt disk :=
    mem_directoryOf.mpr ⟨index, located.inside, located.own.1, rfl⟩
  -- The entry covers the record, so the search ends with an entry.
  have covers := (covers_iff mask counted record).mpr ⟨located.group, located.covered⟩
  have member : (disk.entry index).slot index (Params.derive fmt) ∈
      extentsOf (directoryOf fmt disk) f := mem_extentsOf.mpr ⟨listed, located.own.2⟩
  obtain ⟨⟨start, blocks⟩, found⟩ : ∃ found,
      coveringEntry (Params.derive fmt) (directoryOf fmt disk) f record = some found := by
    rw [← Option.isSome_iff_exists, coveringEntry, List.findSome?_isSome_iff]
    refine ⟨_, member, ?_⟩
    have here : record ≥ extentStart (Params.derive fmt)
        ((disk.entry index).slot index (Params.derive fmt)) ∧
        record < extentStart (Params.derive fmt)
          ((disk.entry index).slot index (Params.derive fmt)) +
          extentCount (Params.derive fmt)
            ((disk.entry index).slot index (Params.derive fmt)) := covers
    rw [if_pos here]
    rfl
  -- No other entry of the file covers it.
  obtain ⟨e, listed', file, above, below, rfl, rfl⟩ := coveringEntry_some found
  obtain ⟨other, inside, live, rfl⟩ := mem_directoryOf.mp listed'
  have group := ((covers_iff mask (grouped.counts other inside live) record).mp ⟨above, below⟩).1
  have same : other = index := grouped.apart other inside index located.inside live located.own.1
    ((show (disk.entry other).file = f from file).trans located.own.2.symm)
    (group.trans located.group.symm)
  subst same
  have start : extentStart (Params.derive fmt) ((disk.entry other).slot other (Params.derive fmt)) =
      baseExtent (Params.derive fmt) record * recordsPerExtent := by
    rw [← group]
    rfl
  have whole := baseExtent_add_withinEntry (Params.derive fmt) record
  have within : record - extentStart (Params.derive fmt)
      ((disk.entry other).slot other (Params.derive fmt)) =
        withinEntry (Params.derive fmt) record := by
    rw [start]
    omega
  have known := bounded other inside live block located.named
  have slot := located.slot
  rw [reads, found]
  simp only [valueAt, within]
  rw [show ((disk.entry other).slot other (Params.derive fmt)).blocks =
    decodeBlocks (disk.entry other) (Params.derive fmt) from rfl, slot]
  cases block with
  | zero => exact absurd rfl located.positive
  | succ block =>
    simp only [if_neg (Nat.not_lt.mpr known)]
    rfl

end EthernetGateway.Image
