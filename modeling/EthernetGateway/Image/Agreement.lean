import EthernetGateway.Image.Identify

/-!
# Identification and mounting on one directory

`directory_is_consistent` and `ImageFs::inconsistency` judge the same entries at two moments.
Whatever the first accepts the second finds sound, save for one thing the first never looks
at: a block number in a map slot the format does not use. It counts such a block like any
other, and the mount goes read-only over it.
-/

namespace EthernetGateway.Image

/-- The directory records of a store. -/
def directoryRecords (fmt : Format) (disk : Disk) : List Record :=
  (List.range fmt.dirRecords).map disk

/-- The entries of the directory records are the entries of the store. -/
theorem recordEntries_directoryRecords (fmt : Format) (disk : Disk) :
    recordEntries (directoryRecords fmt disk) = (List.range fmt.dirEntries).map disk.entry := by
  rw [recordEntries, directoryRecords, Format.dirEntries, range_dirEntries, List.map_flatMap,
    List.flatMap_map]
  congr 1
  funext record
  simp [recordIndices, entry_recordIndices]

/-- The blocks the list of a store names, entry by entry. -/
theorem namedBy_directoryOf (fmt : Format) (disk : Disk) :
    namedBy (directoryOf fmt disk) = (List.range fmt.dirEntries).flatMap fun index =>
      if (disk.entry index).Live then (disk.entry index).named (Params.derive fmt) else [] := by
  rw [namedBy, directoryOf]
  generalize List.range fmt.dirEntries = indices
  induction indices with
  | nil => rfl
  | cons index indices ih =>
    rw [List.filterMap_cons, List.flatMap_cons, ← ih, parseEntry_eq]
    by_cases live : (disk.entry index).Live
    · rw [if_pos live, if_pos live]
      rfl
    · rw [if_neg live, if_neg live]
      rfl

/-- The blocks the file entries of a store name, entry by entry. -/
theorem mappedBy_entries (params : Params) (disk : Disk) (indices : List Nat) :
    mappedBy params (indices.map disk.entry) = indices.flatMap fun index =>
      if (disk.entry index).Judged then (disk.entry index).mapped params else [] := by
  induction indices with
  | nil => rfl
  | cons index indices ih =>
    rw [List.flatMap_cons, ← ih]
    by_cases judged : (disk.entry index).Judged <;> simp [mappedBy, judged]

/-- The blocks in the slots of the format are among those of the whole map. -/
theorem RawEntry.named_sublist (raw : RawEntry) (params : Params) :
    (raw.named params).Sublist (raw.mapped params) :=
  (List.take_sublist _ _).filter _

/-- A judged entry of an accepted directory is live. -/
theorem RawEntry.Judged.live {raw : RawEntry} {params : Params} (judged : raw.Judged)
    (fair : raw.Fair params) : raw.Live := ⟨judged.1, judged.2, fair.name⟩

theorem RawEntry.Live.judged {raw : RawEntry} (live : raw.Live) : raw.Judged := ⟨live.1, live.2.1⟩

/-- An accepted directory is undamaged exactly when its files leave the unused map bytes
zero. -/
theorem undamaged_iff_unused_zero {fmt : Format} {disk : Disk}
    (accepted : Consistent (Params.derive fmt) (recordEntries (directoryRecords fmt disk))) :
    Undamaged (Params.derive fmt) (directoryOf fmt disk) ↔
      ∀ index < fmt.dirEntries, (disk.entry index).Live →
        (disk.entry index).UnusedZero (Params.derive fmt) := by
  rw [recordEntries_directoryRecords] at accepted
  have fair (index : Nat) (inside : index < fmt.dirEntries) (judged : (disk.entry index).Judged) :
      (disk.entry index).Fair (Params.derive fmt) :=
    accepted.fair _ (List.mem_map_of_mem (List.mem_range.mpr inside)) judged
  -- The list names a part of what the whole maps name.
  have part : (namedBy (directoryOf fmt disk)).Sublist
      (mappedBy (Params.derive fmt) ((List.range fmt.dirEntries).map disk.entry)) := by
    rw [namedBy_directoryOf, mappedBy_entries]
    refine List.Sublist.flatMap_right _ fun index _ => ?_
    by_cases live : (disk.entry index).Live
    · simpa [live, live.judged] using (disk.entry index).named_sublist (Params.derive fmt)
    · simp [live]
  constructor
  · intro undamaged index inside live
    exact undamaged.unused _ (mem_directoryOf.mpr ⟨index, inside, live, rfl⟩)
  · intro zero
    refine ⟨?_, ?_, accepted.once.sublist part⟩
    · intro slot member
      obtain ⟨index, inside, live, rfl⟩ := mem_directoryOf.mp member
      exact zero index inside live
    · intro block member
      obtain ⟨raw, listed, named⟩ := List.mem_flatMap.mp (part.subset member)
      obtain ⟨listed, judged⟩ := List.mem_filter.mp listed
      exact (accepted.fair raw listed (of_decide_eq_true judged)).bounded block named

/-- A medium of erased bytes on which every call succeeds, some writes applied. -/
def erasedMedia (fmt : Format) (writes : List Write) : Media where
  length := fmt.minBytes
  contents := applyWrites writes fun _ => fill
  outcomes := fun _ => .done
  calls := 0
  log := []

/-- An entry of a file `A` of user 0 with a map and a record count. -/
def entryA (rc : UInt8) (map : Fin 16 → UInt8) : RawEntry where
  user := 0
  name := fun i => if i = 0 then 0x41 else 0x20
  ext := fun _ => 0x20
  ex := 0
  s1 := 0
  s2 := 0
  rc := rc
  map := map

/-- The write that puts an entry into the first slot of an erased directory. -/
def firstEntry (fmt : Format) (raw : RawEntry) : Write :=
  ⟨fmt.offset 0, 128, putEntry (fun _ => fill) 0 raw⟩

/-- On an image whose directory `directory_is_consistent` accepts, a mount asked to write finds
no inconsistency and stays writable exactly when no file names a block in a map slot the format
does not use. -/
theorem mount_writable_iff_unused_zero {fmt : Format} (listed : fmt ∈ formats) (media : Media)
    (healthy : media.Healthy) (long : fmt.minBytes ≤ media.length)
    (accepted : directoryIsConsistent (directoryRecords fmt (diskOf fmt media.contents)) fmt =
      .ok ()) :
    (∃ fs, mount media fmt false = .ok fs ∧ inconsistency fs.params fs.dir = none ∧
      fs.readOnly = false) ↔
    ∀ index < fmt.dirEntries, ((diskOf fmt media.contents).entry index).Live →
      ((diskOf fmt media.contents).entry index).UnusedZero (Params.derive fmt) := by
  have sound := formats_sound fmt listed
  obtain ⟨fs, ran⟩ := mount_healthy sound healthy long false
  have mounted := mount_ok sound ran
  have params : fs.params = Params.derive fmt := by rw [ImageFs.params, mounted.format]
  rw [← undamaged_iff_unused_zero ((directoryIsConsistent_ok_iff _ fmt).mp accepted),
    ← mounted.dir]
  constructor
  · rintro ⟨other, ran', clean, _⟩
    rw [ran] at ran'
    cases ran'
    rwa [inconsistency_none_iff, params] at clean
  · intro undamaged
    refine ⟨fs, ran, ?_, mounted.writable.mpr ⟨rfl, undamaged⟩⟩
    rwa [inconsistency_none_iff, params]

/-- The theorem at work: a `cromemcodd` image holding one entry of one record mounts
writable. -/
theorem mount_writable_one_record :
    ∃ fs, mount (erasedMedia cromemcodd
        [firstEntry cromemcodd (entryA 1 fun i => if i = 0 then 2 else 0)]) cromemcodd false =
          .ok fs ∧
      inconsistency fs.params fs.dir = none ∧ fs.readOnly = false :=
  (mount_writable_iff_unused_zero (by simp [formats]) _ (fun _ _ => rfl) (Nat.le_refl _)
    (by decide +kernel)).mpr (by decide +kernel)

/-- Not every accepted directory mounts writable: a `cromemcodd` entry of one record with a
block in its ninth map slot. -/
theorem accepted_not_writable :
    ¬ ∀ fmt ∈ formats, ∀ media : Media, media.Healthy → fmt.minBytes ≤ media.length →
      directoryIsConsistent (directoryRecords fmt (diskOf fmt media.contents)) fmt = .ok () →
      ∃ fs, mount media fmt false = .ok fs ∧ inconsistency fs.params fs.dir = none ∧
        fs.readOnly = false := by
  intro every
  let media := erasedMedia cromemcodd
    [firstEntry cromemcodd (entryA 1 fun i => if i = 0 then 2 else if i = 8 then 3 else 0)]
  have accepted : directoryIsConsistent
      (directoryRecords cromemcodd (diskOf cromemcodd media.contents)) cromemcodd = .ok () := by
    decide +kernel
  obtain ⟨fs, ran, clean, _⟩ := every cromemcodd (by simp [formats]) media (fun _ _ => rfl)
    (Nat.le_refl _) accepted
  have damaged : (inconsistency (Params.derive cromemcodd)
      (directoryOf cromemcodd (diskOf cromemcodd media.contents))).isSome = true := by
    decide +kernel
  have mounted := mount_ok (formats_sound cromemcodd (by simp [formats])) ran
  rw [ImageFs.params, mounted.format, mounted.dir] at clean
  rw [clean] at damaged
  cases damaged

end EthernetGateway.Image
