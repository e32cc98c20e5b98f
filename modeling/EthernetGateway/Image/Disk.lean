import EthernetGateway.Image.Entry

/-!
# The medium as records and directory entries

Seen through a format, a medium is a store of records, and its first records are directory
entries. The programs of the filesystem that touch only the medium are here: reading a record,
writing one, editing one directory entry, scanning for a free entry and reading the whole
directory. Each is proved to play a fixed list of calls, and that list is seen as at most one
step on the store of records, whatever check bytes the framing keeps beside them.
-/

namespace EthernetGateway.Image

/-- The records of a medium, by logical record number. -/
abbrev Disk := Nat → Record

/-- The records a format sees on a medium. -/
def diskOf (fmt : Format) (contents : Contents) : Disk := fun record =>
  if record < fmt.dataRecords then recordAt fmt contents record else fun _ => 0

/-- The slot of an entry inside its record. -/
def entrySlot (index : Nat) : Fin 4 := ⟨index % 4, Nat.mod_lt _ (by decide)⟩

/-- The directory entry at an index. -/
def Disk.entry (disk : Disk) (index : Nat) : RawEntry :=
  takeEntry (disk (index / entriesPerRecord)) (entrySlot index)

/-- One change of the store of records. -/
inductive DiskStep where
  /-- A record is replaced. -/
  | write (record : Nat) (data : Record)
  /-- A directory entry is edited in its record. -/
  | edit (index : Nat) (raw : RawEntry)

/-- What a step does. -/
def DiskStep.apply : DiskStep → Disk → Disk
  | .write record data, disk => fun other => if other = record then data else disk other
  | .edit index raw, disk => fun other =>
    if other = index / entriesPerRecord then putEntry (disk other) (entrySlot index) raw
    else disk other

theorem DiskStep.write_apply (record other : Nat) (data : Record) (disk : Disk) :
    DiskStep.apply (.write record data) disk other = if other = record then data else disk other :=
  rfl

theorem DiskStep.edit_apply (index other : Nat) (raw : RawEntry) (disk : Disk) :
    DiskStep.apply (.edit index raw) disk other =
      if other = index / entriesPerRecord then putEntry (disk other) (entrySlot index) raw
      else disk other :=
  rfl

/-- The store after steps. -/
abbrev Disk.run (disk : Disk) (steps : List DiskStep) : Disk :=
  Medium.runSteps DiskStep.apply steps disk

/-- The program makes these steps on the media while its calls succeed. -/
abbrev Makes {α : Type} (fmt : Format) (program : MediaM α) (media : Media)
    (steps : List DiskStep) (value : α) : Prop :=
  Medium.Performs (diskOf fmt) DiskStep.apply program media steps value

/-- The media moved by these steps. -/
abbrev Moved (fmt : Format) (before after : Media) (steps : List DiskStep) : Prop :=
  Medium.Traced (diskOf fmt) DiskStep.apply before after steps

/-- Replacing a record outside the directory entry's record leaves the entry. -/
theorem Disk.entry_write (disk : Disk) {record index : Nat} (data : Record)
    (apart : record ≠ index / entriesPerRecord) :
    Disk.entry (DiskStep.apply (.write record data) disk) index = disk.entry index := by
  rw [Disk.entry, DiskStep.write_apply, if_neg apart.symm, Disk.entry]

/-- Editing an entry changes that entry only. -/
theorem Disk.entry_edit (disk : Disk) (index other : Nat) (raw : RawEntry) :
    Disk.entry (DiskStep.apply (.edit index raw) disk) other =
      if other = index then raw else disk.entry other := by
  simp only [Disk.entry, DiskStep.edit_apply]
  split
  · rename_i same
    rw [takeEntry_putEntry]
    have slots : entrySlot other = entrySlot index ↔ other = index := by
      simp only [entrySlot, Fin.mk.injEq, entriesPerRecord] at same ⊢
      omega
    simp only [slots]
  · rename_i apart
    rw [if_neg fun same => apart (by rw [same])]

/-- Entries in which two stores agree everywhere make the records they fill equal. -/
theorem Disk.records_eq {left right : Disk} {records : Nat}
    (same : ∀ index < records * entriesPerRecord, left.entry index = right.entry index) :
    ∀ record < records, left record = right record := by
  intro record inside
  apply record_eq_of_entries
  intro slot
  have bound := slot.isLt
  have entry := same (record * entriesPerRecord + slot) (by unfold entriesPerRecord; omega)
  have quotient : (record * entriesPerRecord + slot.val) / entriesPerRecord = record := by
    unfold entriesPerRecord; omega
  have remainder : entrySlot (record * entriesPerRecord + slot) = slot := by
    apply Fin.ext
    simp only [entrySlot, entriesPerRecord]
    omega
  rwa [Disk.entry, Disk.entry, quotient, remainder] at entry

/-! ## Reading a record -/

/-- `ImageFs::read_data_record`. -/
def readDataRecord (fmt : Format) (record : Nat) : MediaM Record :=
  match fmt.dataRecordOffset record with
  | none => Fallible.fail ⟨.unexpectedEof, s!"record {record} is past the end of the disk"⟩
  | some off => readAt off 128

/-- Reading a record is one call and returns what the store holds. -/
theorem readDataRecord_plays {fmt : Format} (sound : fmt.Sound) (media : Media)
    (long : fmt.minBytes ≤ media.length) {record : Nat} (inside : record < fmt.dataRecords) :
    Medium.Plays (readDataRecord fmt record) media [.read]
      (diskOf fmt media.contents record) := by
  rw [readDataRecord, Format.dataRecordOffset_eq sound inside, diskOf, if_pos inside]
  exact readAt_plays media _ 128
    (Nat.le_trans (Format.offset_inside sound inside) long)

/-! ## Writing a record -/

/-- The loop of `ImageFs::write_physical_record` over the other bytes of a check sum. -/
def sumExtras : List Nat → UInt8 → MediaM UInt8
  | [], sum => pure sum
  | extra :: also, sum => do
    let byte ← readAt extra 1
    sumExtras also (sum + byte 0)

/-- `ImageFs::write_physical_record`. -/
def writePhysicalRecord (fmt : Format) (phys : Nat) (data : Record) : MediaM Unit := do
  writeAt (fmt.framing.recordOffset phys) data
  match fmt.framing.sectorCheck phys with
  | none => pure ()
  | some (checkAt, also) =>
    let sum ← sumExtras also ((List.ofFn data).foldl (· + ·) 0)
    writeAt checkAt fun _ : Fin 1 => sum

/-- Summing the other bytes of a check sum only reads. -/
theorem sumExtras_plays (media : Media) (also : List Nat) (sum : UInt8)
    (inside : ∀ extra ∈ also, extra + 1 ≤ media.length) :
    Medium.Plays (sumExtras also sum) media (also.map fun _ => Call.read)
      (also.foldl (fun sum extra => sum + media.contents extra) sum) := by
  induction also generalizing media sum with
  | nil => exact .pure media sum
  | cons extra also ih =>
    have head := readAt_plays media extra 1 (inside extra List.mem_cons_self)
    have rest := ih (media.landAll [.read]) (sum + media.contents extra)
      fun other member => by
        rw [Medium.landAll_length]
        exact inside other (List.mem_cons_of_mem _ member)
    exact head.bind rest

/-- Writing a physical record plays the calls of the record. -/
theorem writePhysicalRecord_plays {fmt : Format} (sound : fmt.Sound) (media : Media)
    (long : fmt.minBytes ≤ media.length) {record : Nat} (inside : record < fmt.dataRecords)
    (data : Record) :
    Medium.Plays (writePhysicalRecord fmt (fmt.physical record) data) media
      (recordCalls fmt media.contents record data) () := by
  have place := Format.offset_inside sound inside
  have sector := Format.sector_inside _ (Format.physical_lt sound inside)
  have head := writeAt_plays media (fmt.offset record) data (by omega)
  unfold writePhysicalRecord recordCalls
  cases check : fmt.framing.sectorCheck (fmt.physical record) with
  | none => exact head.bind (.pure _ ())
  | some found =>
    obtain ⟨checkAt, also⟩ := found
    have bounds := (Framing.sectorCheck_inside sound.framing _ _ _ check).1
    have sums := sumExtras_plays (media.landAll [.write ⟨fmt.offset record, 128, data⟩]) also
      ((List.ofFn data).foldl (· + ·) 0) fun extra member => by
        rw [Medium.landAll_length]
        have bound := bounds extra (List.mem_cons_of_mem _ member)
        omega
    refine head.bind (sums.bind (writeAt_plays _ checkAt _ ?_))
    rw [Medium.landAll_length, Medium.landAll_length]
    have bound := bounds checkAt List.mem_cons_self
    omega

/-- The calls that write a record are seen as one step on the store. -/
theorem recordCalls_follows {fmt : Format} (sound : fmt.Sound) (contents : Contents)
    {record : Nat} (inside : record < fmt.dataRecords) (data : Record) (step : DiskStep)
    (same : step.apply (diskOf fmt contents) =
      DiskStep.apply (.write record data) (diskOf fmt contents)) :
    Medium.Follows (diskOf fmt) DiskStep.apply contents (recordCalls fmt contents record data)
      [step] := by
  have written : diskOf fmt ((Write.mk (fmt.offset record) 128 data).apply contents) =
      step.apply (diskOf fmt contents) := by
    rw [same]
    funext other
    simp only [diskOf, DiskStep.write_apply]
    by_cases here : other < fmt.dataRecords
    · simp only [here, ↓reduceIte]
      exact recordAt_write sound contents inside here data
    · rw [if_neg here, if_neg here, if_neg fun (equal : other = record) => here (equal ▸ inside)]
  unfold recordCalls
  refine .step written ?_
  cases check : fmt.framing.sectorCheck (fmt.physical record) with
  | none => exact .nil _
  | some found =>
    obtain ⟨checkAt, also⟩ := found
    apply Medium.Follows.unseen
    intro call member reached equal
    simp only [List.mem_append, List.mem_map, List.mem_singleton] at member
    rcases member with ⟨_, _, rfl⟩ | rfl
    · exact equal
    · rw [← equal]
      funext other
      simp only [diskOf]
      split
      · rename_i here
        exact recordAt_check sound reached inside here check _
      · rfl

/-- `ImageFs::write_block_record`. -/
def writeBlockRecord (fmt : Format) (block offsetInBlock : Nat) (data : Record) : MediaM Unit :=
  if block = 0 ∨ block > (Params.derive fmt).maxBlock then
    Fallible.fail ⟨.invalidData, s!"refusing to write block {block}: outside the data area"⟩
  else
    match fmt.dataPhysicalRecord (block * (Params.derive fmt).recordsPerBlock + offsetInBlock) with
    | none => Fallible.fail ⟨.unexpectedEof,
        s!"block {block} record {offsetInBlock} is past the end of the disk"⟩
    | some phys => writePhysicalRecord fmt phys data

/-- The record at an offset in a block. -/
def Format.blockRecord (fmt : Format) (block offsetInBlock : Nat) : Nat :=
  block * (Params.derive fmt).recordsPerBlock + offsetInBlock

/-- The records of a block of the disk lie in the data area. -/
theorem Format.blockRecord_lt {fmt : Format} (sound : fmt.Sound) {block offsetInBlock : Nat}
    (known : block ≤ (Params.derive fmt).maxBlock)
    (within : offsetInBlock < (Params.derive fmt).recordsPerBlock) :
    fmt.blockRecord block offsetInBlock < fmt.dataRecords := by
  have room := sound.blocks
  have whole := Nat.mul_le_mul_right (Params.derive fmt).recordsPerBlock known
  rw [Nat.succ_mul] at room
  rw [blockRecord]
  omega

/-- Writing a record of a block plays the calls of that record. -/
theorem writeBlockRecord_plays {fmt : Format} (sound : fmt.Sound) (media : Media)
    (long : fmt.minBytes ≤ media.length) {block offsetInBlock : Nat} (positive : block ≠ 0)
    (known : block ≤ (Params.derive fmt).maxBlock)
    (within : offsetInBlock < (Params.derive fmt).recordsPerBlock) (data : Record) :
    Medium.Plays (writeBlockRecord fmt block offsetInBlock data) media
      (recordCalls fmt media.contents (fmt.blockRecord block offsetInBlock) data) () := by
  have inside := Format.blockRecord_lt sound known within
  have placed := Format.dataPhysicalRecord_eq sound inside
  rw [Format.blockRecord] at placed
  rw [writeBlockRecord, if_neg (by omega), placed]
  exact writePhysicalRecord_plays sound media long inside data

theorem writeBlockRecord_makes {fmt : Format} (sound : fmt.Sound) (media : Media)
    (long : fmt.minBytes ≤ media.length) {block offsetInBlock : Nat} (positive : block ≠ 0)
    (known : block ≤ (Params.derive fmt).maxBlock)
    (within : offsetInBlock < (Params.derive fmt).recordsPerBlock) (data : Record) :
    Makes fmt (writeBlockRecord fmt block offsetInBlock data) media
      [.write (fmt.blockRecord block offsetInBlock) data] () :=
  ⟨_, writeBlockRecord_plays sound media long positive known within data,
    recordCalls_follows sound _ (Format.blockRecord_lt sound known within) data _ rfl⟩

/-! ## Editing a directory entry -/

/-- Number of entries of the directory, `dir_records * ENTRIES_PER_RECORD`. -/
def Format.dirEntries (fmt : Format) : Nat := fmt.dirRecords * entriesPerRecord

/-- Directory records lie in the data area. -/
theorem Format.dirRecord_lt {fmt : Format} (sound : fmt.Sound) {record : Nat}
    (inside : record < fmt.dirRecords) : record < fmt.dataRecords := by
  have room := sound.blocks
  have fits := Nat.mul_le_mul_right (Params.derive fmt).recordsPerBlock sound.directory.2
  have cover : fmt.dirRecords ≤
      (Params.derive fmt).dirBlocks * (Params.derive fmt).recordsPerBlock := by
    have block := sound.block
    have same : (Params.derive fmt).dirRecords = fmt.dirRecords := rfl
    have quotient := Nat.div_add_mod
      ((Params.derive fmt).dirRecords + (Params.derive fmt).recordsPerBlock - 1)
      (Params.derive fmt).recordsPerBlock
    have remainder := Nat.mod_lt
      ((Params.derive fmt).dirRecords + (Params.derive fmt).recordsPerBlock - 1) block
    rw [Params.dirBlocks, Nat.mul_comm]
    omega
  rw [Nat.succ_mul] at room
  omega

theorem Format.entryRecord_lt {fmt : Format} {index : Nat} (inside : index < fmt.dirEntries) :
    index / entriesPerRecord < fmt.dirRecords := by
  apply Nat.div_lt_of_lt_mul
  rw [Nat.mul_comm]
  exact inside

/-- `ImageFs::write_dir_entry`. -/
def writeDirEntry (fmt : Format) (index : Nat) (raw : RawEntry) : MediaM Unit :=
  if index ≥ fmt.dirEntries then
    Fallible.fail ⟨.invalidData, s!"directory entry {index} is past the end of the directory"⟩
  else
    match fmt.dataPhysicalRecord (index / entriesPerRecord) with
    | none => Fallible.fail ⟨.unexpectedEof, "directory record is past the end of the disk"⟩
    | some phys => do
      let off := fmt.framing.recordOffset phys
      let buf ← readAt off 128
      let buf := putEntry buf (entrySlot index) raw
      writePhysicalRecord fmt phys buf
      flush
      let check ← readAt off 128
      if check ≠ buf then
        Fallible.fail ⟨.other, "directory write did not take — the image may be damaged"⟩
      else pure ()

/-- The calls that edit one directory entry: read its record, write it with the entry in
place, flush, and read it back. -/
def entryCalls (fmt : Format) (contents : Contents) (index : Nat) (raw : RawEntry) : List Call :=
  .read :: (recordCalls fmt contents (index / entriesPerRecord)
    (putEntry (diskOf fmt contents (index / entriesPerRecord)) (entrySlot index) raw) ++
      [.flush, .read])

/-- How many calls the directory step of an entry makes: a read, those of the record write, the
flush and the read-back. -/
def entryCallCount (fmt : Format) (index : Nat) : Nat :=
  recordCallCount fmt (index / entriesPerRecord) + 3

theorem entryCalls_length (fmt : Format) (contents : Contents) (index : Nat) (raw : RawEntry) :
    (entryCalls fmt contents index raw).length = entryCallCount fmt index := by
  rw [entryCalls, List.length_cons, List.length_append, recordCalls_length]
  rfl

/-- Editing an entry of the directory plays its calls; the read-back agrees. -/
theorem writeDirEntry_plays {fmt : Format} (sound : fmt.Sound) (media : Media)
    (long : fmt.minBytes ≤ media.length) {index : Nat} (inside : index < fmt.dirEntries)
    (raw : RawEntry) :
    Medium.Plays (writeDirEntry fmt index raw) media (entryCalls fmt media.contents index raw)
      () := by
  have record := Format.dirRecord_lt sound (Format.entryRecord_lt inside)
  have place := Nat.le_trans (Format.offset_inside sound record) long
  have reading (reached : Media) (same : reached.length = media.length) :
      Medium.Plays (readAt (fmt.offset (index / entriesPerRecord)) 128) reached [.read]
        (diskOf fmt reached.contents (index / entriesPerRecord)) := by
    rw [diskOf, if_pos record]
    exact readAt_plays reached _ 128 (by omega)
  rw [writeDirEntry, if_neg (Nat.not_le.mpr inside), Format.dataPhysicalRecord_eq sound record]
  refine (reading media rfl).bind ?_
  have writing := writePhysicalRecord_plays sound (media.landAll [.read])
    (by rwa [Medium.landAll_length]) record
    (putEntry (diskOf fmt media.contents (index / entriesPerRecord)) (entrySlot index) raw)
  refine writing.bind (List.append_nil [Call.flush, Call.read] ▸ (flush_plays _).bind
    ((reading _ (by simp)).bind ?_))
  -- The bytes read back are the bytes written.
  have same : diskOf fmt (applyCalls (recordCalls fmt media.contents (index / entriesPerRecord)
      (putEntry (diskOf fmt media.contents (index / entriesPerRecord)) (entrySlot index) raw))
      media.contents) (index / entriesPerRecord) =
        putEntry (diskOf fmt media.contents (index / entriesPerRecord)) (entrySlot index) raw := by
    have seen := (recordCalls_follows sound media.contents record
      (putEntry (diskOf fmt media.contents (index / entriesPerRecord)) (entrySlot index) raw)
      (.write _ _) rfl).look_applyCalls
    rw [seen, Medium.runSteps_cons, Medium.runSteps_nil, DiskStep.write_apply, if_pos rfl]
  rw [if_neg]
  · exact .pure _ ()
  · simp only [Medium.landAll_contents, applyCalls_cons, applyCalls_nil, Call.apply, same,
      not_not, ne_eq]

/-- The calls that edit an entry are seen as that edit. -/
theorem entryCalls_follows {fmt : Format} (sound : fmt.Sound) (contents : Contents) {index : Nat}
    (inside : index < fmt.dirEntries) (raw : RawEntry) :
    Medium.Follows (diskOf fmt) DiskStep.apply contents (entryCalls fmt contents index raw)
      [.edit index raw] := by
  have record := Format.dirRecord_lt sound (Format.entryRecord_lt inside)
  refine .silent rfl ?_
  have writing := recordCalls_follows sound contents record
    (putEntry (diskOf fmt contents (index / entriesPerRecord)) (entrySlot index) raw)
    (.edit index raw) (by
      funext other
      simp only [DiskStep.write_apply, DiskStep.edit_apply]
      split <;> simp_all)
  exact writing.append (.silent rfl (.silent rfl (.nil _)))

theorem writeDirEntry_makes {fmt : Format} (sound : fmt.Sound) (media : Media)
    (long : fmt.minBytes ≤ media.length) {index : Nat} (inside : index < fmt.dirEntries)
    (raw : RawEntry) :
    Makes fmt (writeDirEntry fmt index raw) media [.edit index raw] () :=
  ⟨_, writeDirEntry_plays sound media long inside raw, entryCalls_follows sound _ inside raw⟩

end EthernetGateway.Image
