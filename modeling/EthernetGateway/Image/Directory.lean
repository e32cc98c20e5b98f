import EthernetGateway.Image.Disk

/-!
# The directory as a list

Reading the directory visits its records in order and parses four entries from each. The list
it returns, the blocks of the entries it does not read as files and the first free entry are
functions of the store of records, and a file's entries are found in the list.
-/

namespace EthernetGateway.Image

/-- The indices of the entries in one directory record. -/
def recordIndices (record : Nat) : List Nat :=
  (List.finRange 4).map fun slot : Fin 4 => record * entriesPerRecord + slot.val

/-- The entries of the first records are numbered through. -/
theorem range_dirEntries (records : Nat) :
    List.range (records * entriesPerRecord) = (List.range records).flatMap recordIndices := by
  induction records with
  | zero => rfl
  | succ records ih =>
    rw [Nat.succ_mul, List.range_add, ih, List.range_succ, List.flatMap_append]
    rfl

/-- The four entries of a record, as the store numbers them. -/
theorem entry_recordIndices (disk : Disk) (record : Nat) (slot : Fin 4) :
    disk.entry (record * entriesPerRecord + slot) = takeEntry (disk record) slot := by
  have bound := slot.isLt
  have quotient : (record * entriesPerRecord + slot.val) / entriesPerRecord = record := by
    unfold entriesPerRecord at *; omega
  have remainder : entrySlot (record * entriesPerRecord + slot) = slot := by
    apply Fin.ext
    simp only [entrySlot, entriesPerRecord] at *
    omega
  rw [Disk.entry, quotient, remainder]

/-- What parsing one entry adds to the list and to the foreign blocks. -/
def gatherEntry (params : Params) (index : Nat) (raw : RawEntry)
    (found : List DirSlot × List Nat) : List DirSlot × List Nat :=
  match parseEntry index raw params with
  | some slot => (found.1 ++ [slot], found.2)
  | none => (found.1, found.2 ++ foreignBlocks raw params)

/-- The inner loop of `ImageFs::read_directory`. -/
def gatherRecord (params : Params) (record : Nat) (buf : Record)
    (found : List DirSlot × List Nat) : List DirSlot × List Nat :=
  (List.finRange 4).foldl
    (fun found (slot : Fin 4) => gatherEntry params (record * entriesPerRecord + slot.val) (takeEntry buf slot)
      found) found

/-- The outer loop of `ImageFs::read_directory`. -/
def readRecords (fmt : Format) : List Nat → List DirSlot × List Nat →
    MediaM (List DirSlot × List Nat)
  | [], found => pure found
  | record :: records, found => do
    let buf ← readDataRecord fmt record
    readRecords fmt records (gatherRecord (Params.derive fmt) record buf found)

/-- `ImageFs::read_directory`. -/
def readDirectory (fmt : Format) : MediaM (List DirSlot × List Nat) :=
  readRecords fmt (List.range fmt.dirRecords) ([], [])

/-- Every live entry of a store, in directory order. -/
def directoryOf (fmt : Format) (disk : Disk) : List DirSlot :=
  (List.range fmt.dirEntries).filterMap fun index =>
    parseEntry index (disk.entry index) (Params.derive fmt)

/-- The blocks of the entries in use that are not read as files. -/
def foreignOf (fmt : Format) (disk : Disk) : List Nat :=
  (List.range fmt.dirEntries).flatMap fun index =>
    if (disk.entry index).Live then []
    else foreignBlocks (disk.entry index) (Params.derive fmt)

/-- Gathering entry after entry is parsing them all. -/
theorem foldl_gatherEntry (params : Params) (disk : Disk) (indices : List Nat)
    (found : List DirSlot × List Nat) :
    indices.foldl (fun found index => gatherEntry params index (disk.entry index) found) found =
      (found.1 ++ indices.filterMap (fun index => parseEntry index (disk.entry index) params),
        found.2 ++ indices.flatMap fun index =>
          if (disk.entry index).Live then [] else foreignBlocks (disk.entry index) params) := by
  induction indices generalizing found with
  | nil => simp
  | cons index indices ih =>
    rw [List.foldl_cons, ih, gatherEntry, parseEntry_eq]
    by_cases live : (disk.entry index).Live
    · simp [live, parseEntry_eq]
    · simp [live, parseEntry_eq]

theorem gatherRecord_eq (params : Params) (disk : Disk) (record : Nat)
    (found : List DirSlot × List Nat) :
    gatherRecord params record (disk record) found =
      (recordIndices record).foldl
        (fun found index => gatherEntry params index (disk.entry index) found) found := by
  rw [gatherRecord, recordIndices, List.foldl_map]
  simp only [entry_recordIndices]

/-- Reading directory records plays one read for each. -/
theorem readRecords_plays {fmt : Format} (sound : fmt.Sound) (media : Media)
    (long : fmt.minBytes ≤ media.length) (records : List Nat)
    (inside : ∀ record ∈ records, record < fmt.dirRecords) (found : List DirSlot × List Nat) :
    Medium.Plays (readRecords fmt records found) media (records.map fun _ => Call.read)
      ((records.flatMap recordIndices).foldl (fun found index =>
        gatherEntry (Params.derive fmt) index ((diskOf fmt media.contents).entry index) found)
        found) := by
  induction records generalizing media found with
  | nil => exact .pure media found
  | cons record records ih =>
    have head := readDataRecord_plays sound media long
      (Format.dirRecord_lt sound (inside record List.mem_cons_self))
    have rest := ih (media.landAll [.read]) (by rwa [Medium.landAll_length])
      (fun later member => inside later (List.mem_cons_of_mem _ member))
      (gatherRecord (Params.derive fmt) record (diskOf fmt media.contents record) found)
    rw [List.flatMap_cons, List.foldl_append, ← gatherRecord_eq]
    exact head.bind rest

/-- Reading the directory plays one read for each of its records and returns the lists of the
store. -/
theorem readDirectory_plays {fmt : Format} (sound : fmt.Sound) (media : Media)
    (long : fmt.minBytes ≤ media.length) :
    Medium.Plays (readDirectory fmt) media
      ((List.range fmt.dirRecords).map fun _ => Call.read)
      (directoryOf fmt (diskOf fmt media.contents), foreignOf fmt (diskOf fmt media.contents)) := by
  have plays := readRecords_plays sound media long (List.range fmt.dirRecords)
    (fun record member => List.mem_range.mp member) ([], [])
  rwa [← range_dirEntries, foldl_gatherEntry, List.nil_append, List.nil_append] at plays

/-! ## The first free entry -/

/-- The first free entry of one record. -/
def freeInRecord (record : Nat) (buf : Record) : Option Nat :=
  (List.finRange 4).findSome? fun slot : Fin 4 =>
    if (takeEntry buf slot).isFree then some (record * entriesPerRecord + slot.val) else none

/-- The outer loop of `ImageFs::free_dir_slot`. -/
def scanForFree (fmt : Format) : List Nat → MediaM (Option Nat)
  | [] => pure none
  | record :: records => do
    let buf ← readDataRecord fmt record
    match freeInRecord record buf with
    | some index => pure (some index)
    | none => scanForFree fmt records

/-- `ImageFs::free_dir_slot`. -/
def freeDirSlot (fmt : Format) : MediaM (Option Nat) := scanForFree fmt (List.range fmt.dirRecords)

/-- The first free entry of a store. -/
def freeOf (fmt : Format) (disk : Disk) : Option Nat :=
  (List.range fmt.dirEntries).find? fun index => (disk.entry index).isFree

theorem freeInRecord_eq (disk : Disk) (record : Nat) :
    freeInRecord record (disk record) =
      (recordIndices record).find? fun index => (disk.entry index).isFree := by
  rw [freeInRecord, recordIndices, List.find?_map]
  generalize List.finRange 4 = slots
  induction slots with
  | nil => rfl
  | cons slot slots ih =>
    simp only [Function.comp_def, entry_recordIndices] at ih ⊢
    rw [List.findSome?_cons, List.find?_cons, ih]
    cases (takeEntry (disk record) slot).isFree <;> rfl

/-- An entry found in a record is one of that record. -/
theorem freeInRecord_some {record index : Nat} {buf : Record}
    (found : freeInRecord record buf = some index) : index / entriesPerRecord = record := by
  obtain ⟨slot, _, here⟩ := List.exists_of_findSome?_eq_some found
  have bound := slot.isLt
  split at here
  · obtain rfl := Option.some.inj here
    unfold entriesPerRecord
    omega
  · cases here

/-- Scanning for a free entry only reads, and finds the first: one read for each record up to that
of the entry found. -/
theorem scanForFree_plays {fmt : Format} (sound : fmt.Sound) (media : Media)
    (long : fmt.minBytes ≤ media.length) (records : List Nat)
    (inside : ∀ record ∈ records, record < fmt.dirRecords) :
    ∃ visited : List Nat, Medium.Plays (scanForFree fmt records) media
      (visited.map fun _ => Call.read)
      ((records.flatMap recordIndices).find? fun index =>
        ((diskOf fmt media.contents).entry index).isFree) ∧
      ∀ index, ((records.flatMap recordIndices).find? fun index =>
          ((diskOf fmt media.contents).entry index).isFree) = some index →
        visited <+: records ∧ visited.getLast? = some (index / entriesPerRecord) := by
  induction records generalizing media with
  | nil => exact ⟨[], .pure media none, fun index found => by cases found⟩
  | cons record records ih =>
    have head := readDataRecord_plays sound media long
      (Format.dirRecord_lt sound (inside record List.mem_cons_self))
    rw [List.flatMap_cons, List.find?_append, ← freeInRecord_eq]
    cases free : freeInRecord record (diskOf fmt media.contents record) with
    | some index =>
      have ended : Medium.Plays (match freeInRecord record (diskOf fmt media.contents record) with
          | some index => pure (some index)
          | none => scanForFree fmt records) (media.landAll [.read]) [] (some index) := by
        rw [free]
        exact .pure _ (some index)
      refine ⟨[record], head.bind ended, fun other found => ⟨by simp, ?_⟩⟩
      obtain rfl := Option.some.inj found
      rw [freeInRecord_some free]
      rfl
    | none =>
      obtain ⟨visited, rest, place⟩ := ih (media.landAll [.read]) (by rwa [Medium.landAll_length])
        fun later member => inside later (List.mem_cons_of_mem _ member)
      refine ⟨record :: visited, head.bind ?_, fun index found => ?_⟩
      · rw [free]
        exact rest
      · obtain ⟨front, last⟩ := place index found
        exact ⟨(List.prefix_cons_inj record).mpr front, by rw [List.getLast?_cons, last]; rfl⟩

/-- Finding a free entry only reads. -/
theorem freeDirSlot_plays {fmt : Format} (sound : fmt.Sound) (media : Media)
    (long : fmt.minBytes ≤ media.length) :
    ∃ visited : List Nat, Medium.Plays (freeDirSlot fmt) media (visited.map fun _ => Call.read)
      (freeOf fmt (diskOf fmt media.contents)) := by
  obtain ⟨visited, found, _⟩ := scanForFree_plays sound media long (List.range fmt.dirRecords)
    fun record member => List.mem_range.mp member
  rw [← range_dirEntries] at found
  exact ⟨visited, found⟩

/-- Finding a free entry reads the records up to its own. -/
theorem freeDirSlot_playsFor {fmt : Format} (sound : fmt.Sound) (media : Media)
    (long : fmt.minBytes ≤ media.length) {index : Nat}
    (free : freeOf fmt (diskOf fmt media.contents) = some index) :
    Medium.PlaysFor (freeDirSlot fmt) media (index / entriesPerRecord + 1) (some index) := by
  obtain ⟨visited, found, place⟩ := scanForFree_plays sound media long (List.range fmt.dirRecords)
    fun record member => List.mem_range.mp member
  rw [← range_dirEntries] at found place
  obtain ⟨front, last⟩ := place index free
  rw [freeOf, Format.dirEntries] at free
  rw [free] at found
  refine ⟨_, ?_, found⟩
  -- The records visited are the first ones, and the last of them is that of the entry.
  have some : visited ≠ [] := by
    rintro rfl
    cases last
  have positive := List.length_pos_of_ne_nil some
  have counted := front.getElem (i := visited.length - 1) (by omega)
  rw [List.getElem_range, List.getElem_length_sub_one_eq_getLast] at counted
  rw [List.getLast?_eq_some_getLast some, Option.some.injEq] at last
  rw [List.length_map, ← last, counted]
  omega

/-- The entry found is free, inside the directory and the first such. -/
theorem freeOf_some {fmt : Format} {disk : Disk} {index : Nat}
    (found : freeOf fmt disk = some index) :
    index < fmt.dirEntries ∧ (disk.entry index).isFree = true ∧
      ∀ earlier < index, (disk.entry earlier).isFree = false := by
  rw [freeOf, List.find?_range_eq_some] at found
  exact ⟨by simpa using found.2.1, found.1, fun earlier before => by
    simpa using found.2.2 earlier before⟩

/-! ## Entries of the list -/

/-- An entry of the list is the parsed form of a live entry of the store. -/
theorem mem_directoryOf {fmt : Format} {disk : Disk} {slot : DirSlot} :
    slot ∈ directoryOf fmt disk ↔ ∃ index < fmt.dirEntries, (disk.entry index).Live ∧
      slot = (disk.entry index).slot index (Params.derive fmt) := by
  simp only [directoryOf, List.mem_filterMap, List.mem_range, parseEntry_some_iff]

/-- Stores with the same entries have the same list. -/
theorem directoryOf_congr {fmt : Format} {left right : Disk}
    (same : ∀ index < fmt.dirEntries, left.entry index = right.entry index) :
    directoryOf fmt left = directoryOf fmt right := by
  apply List.filterMap_congr
  intro index member
  rw [same index (List.mem_range.mp member)]

theorem foreignOf_congr {fmt : Format} {left right : Disk}
    (same : ∀ index < fmt.dirEntries, left.entry index = right.entry index) :
    foreignOf fmt left = foreignOf fmt right := by
  apply List.flatMap_congr
  intro index member
  rw [same index (List.mem_range.mp member)]

/-- Stores with the same list hold the same live entries. -/
theorem parseEntry_of_directoryOf_eq {fmt : Format} {left right : Disk}
    (same : directoryOf fmt left = directoryOf fmt right) :
    ∀ index < fmt.dirEntries, parseEntry index (left.entry index) (Params.derive fmt) =
      parseEntry index (right.entry index) (Params.derive fmt) := by
  intro index inside
  have oneWay {one other : Disk} (equal : directoryOf fmt one = directoryOf fmt other)
      (live : (one.entry index).Live) : (other.entry index).Live ∧
        (other.entry index).slot index (Params.derive fmt) =
          (one.entry index).slot index (Params.derive fmt) := by
    have listed : (one.entry index).slot index (Params.derive fmt) ∈ directoryOf fmt other :=
      equal ▸ mem_directoryOf.mpr ⟨index, inside, live, rfl⟩
    obtain ⟨place, _, liveThere, slots⟩ := mem_directoryOf.mp listed
    have places : index = place := congrArg DirSlot.index slots
    subst places
    exact ⟨liveThere, slots.symm⟩
  rw [parseEntry_eq, parseEntry_eq]
  by_cases live : (left.entry index).Live
  · obtain ⟨there, slots⟩ := oneWay same live
    rw [if_pos live, if_pos there, slots]
  · rw [if_neg live, if_neg fun there => live (oneWay same.symm there).1]

end EthernetGateway.Image
