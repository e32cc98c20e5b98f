import EthernetGateway.Image.Store

/-!
# A write that is cut off

The medium may keep any first writes of a `write_record` and lose the rest. Mounted again, such
an image lists every other file as before and reads it as before. The target's other records
read as before too, save those the write gave a place: a record in a freshly claimed block is
zero, and a record that the grown entry newly covers in a block it already had shows what that
block held. This is so in a directory that memory follows and that has no two entries for one
extent group of the target.
-/

namespace EthernetGateway.Image

/-- What `read_record` returns on a medium that answers (`readRecord_run`). -/
def ImageFs.shows (fs : ImageFs) (f : File) (record : Nat) : Except IoError (Option Record) :=
  reads fs.fmt fs.dir fs.disk f record

/-- A medium that kept the first writes of a run and no others. -/
structure Interrupted (before after left : Media) : Prop where
  /-- The image is as long as it was. -/
  length : left.length = before.length
  /-- It holds what some first writes made of it. -/
  contents : ∃ writes n, after.log = before.log ++ writes ∧
    left.contents = applyWrites (writes.take n) before.contents

/-- What a mount of an image left by a cut off write shows, beside the mount before it. -/
structure Survives (fs again : ImageFs) (f : File) (record : Nat) (data : Record) : Prop where
  /-- Other files have the entries they had and are read as they were. -/
  others : ∀ g ≠ f, entriesOf again.dir g = entriesOf fs.dir g ∧
    ∀ r, again.shows g r = fs.shows g r
  /-- Other records of the file are read as they were, or were no records and are zeros now, or
  were covered by no entry and are what a block of the file's own held. -/
  target : ∀ r ≠ record, again.shows f r = fs.shows f r ∨
    fs.shows f r = .ok none ∧ again.shows f r = .ok (some fun _ => 0) ∨
    coveringEntry fs.params fs.dir f r = none ∧
      ∃ e ∈ fs.dir, e.file = f ∧ ∃ block ∈ e.blocks, block ≠ 0 ∧
        ∃ offset < fs.params.recordsPerBlock,
          again.shows f r = .ok (some (fs.disk (fs.fmt.blockRecord block offset)))
  /-- A block that no entry named before is named by the file alone, and holds the record
  written and zeros. -/
  claimed : ∀ e ∈ again.dir, ∀ block ∈ e.blocks, block ≠ 0 → (∀ old ∈ fs.dir, block ∉ old.blocks) →
    e.file = f ∧ ∀ offset < fs.params.recordsPerBlock,
      again.disk (fs.fmt.blockRecord block offset) =
        if offset = withinEntry fs.params record % fs.params.recordsPerBlock then data
        else fun _ => 0

/-- No two entries of a file are for one extent group. -/
def Alone (fmt : Format) (disk : Disk) (f : File) : Prop :=
  ∀ i < fmt.dirEntries, ∀ j < fmt.dirEntries, (disk.entry i).Of f → (disk.entry j).Of f →
    (disk.entry i).group (Params.derive fmt) = (disk.entry j).group (Params.derive fmt) → i = j

/-! ## Which entry a read finds -/

/-- An entry covers a record: it is one of those from its group's first that the entry counts. -/
def RawEntry.Covers (raw : RawEntry) (params : Params) (record : Nat) : Prop :=
  raw.group params * recordsPerExtent ≤ record ∧
    record < raw.group params * recordsPerExtent + raw.count params

/-- A search for the entry that covers a record stops at one that does. -/
theorem RawEntry.Covers.found {raw : RawEntry} {params : Params} {record : Nat}
    (covers : raw.Covers params record) (index : Nat) :
    (if record ≥ extentStart params (raw.slot index params) ∧
        record < extentStart params (raw.slot index params) +
          extentCount params (raw.slot index params) then
      some (extentStart params (raw.slot index params), (raw.slot index params).blocks)
    else none) = some (raw.group params * recordsPerExtent, decodeBlocks raw params) :=
  if_pos covers

/-- An entry of the file that covers the record, of the first group to have one. -/
structure Leads (fmt : Format) (disk : Disk) (f : File) (record index : Nat) : Prop where
  /-- The entry is in the directory. -/
  inside : index < fmt.dirEntries
  /-- It is the file's. -/
  own : (disk.entry index).Of f
  /-- It covers the record. -/
  covers : (disk.entry index).Covers (Params.derive fmt) record
  /-- No entry of an earlier group does. -/
  least : ∀ other < fmt.dirEntries, (disk.entry other).Of f →
    (disk.entry other).Covers (Params.derive fmt) record →
    (disk.entry index).group (Params.derive fmt) ≤ (disk.entry other).group (Params.derive fmt)

/-- Without an entry that covers the record a read finds none. -/
theorem coveringEntry_none_iff {fmt : Format} {disk : Disk} {f : File} {record : Nat} :
    coveringEntry (Params.derive fmt) (directoryOf fmt disk) f record = none ↔
      ∀ index < fmt.dirEntries, (disk.entry index).Of f →
        ¬ (disk.entry index).Covers (Params.derive fmt) record := by
  rw [coveringEntry, List.findSome?_eq_none_iff]
  constructor
  · intro missed index inside own covers
    have passed := missed _
      (mem_extentsOf.mpr ⟨mem_directoryOf.mpr ⟨index, inside, own.1, rfl⟩, own.2⟩)
    cases (covers.found index).symm.trans passed
  · intro uncovered e member
    obtain ⟨listed, file⟩ := mem_extentsOf.mp member
    obtain ⟨index, inside, live, rfl⟩ := mem_directoryOf.mp listed
    exact if_neg (uncovered index inside ⟨live, file⟩)

/-- Groups are in the order of extents. -/
theorem RawEntry.group_mono {left right : RawEntry} {params : Params}
    (mask : params.exm = 0 ∨ params.exm = 1) (order : left.extent ≤ right.extent) :
    left.group params ≤ right.group params := by
  rw [left.group_eq mask, right.group_eq mask]
  exact Nat.mul_le_mul_right _ (Nat.div_le_div_right order)

/-- A read that finds an entry finds one that leads. -/
theorem coveringEntry_leads {fmt : Format} (mask : (Params.derive fmt).exm = 0 ∨
    (Params.derive fmt).exm = 1) {disk : Disk} {f : File} {record start : Nat} {blocks : List Nat}
    (found : coveringEntry (Params.derive fmt) (directoryOf fmt disk) f record =
      some (start, blocks)) :
    ∃ index, Leads fmt disk f record index ∧
      start = (disk.entry index).group (Params.derive fmt) * recordsPerExtent ∧
      blocks = decodeBlocks (disk.entry index) (Params.derive fmt) := by
  rw [coveringEntry, List.findSome?_eq_some_iff] at found
  obtain ⟨before, e, later, whole, here, missed⟩ := found
  have sorted : (extentsOf (directoryOf fmt disk) f).Pairwise fun left right =>
      left.extent ≤ right.extent := by
    have : Std.Total fun left right : DirSlot => left.extent ≤ right.extent :=
      ⟨fun left right => Nat.le_total left.extent right.extent⟩
    have : IsTrans DirSlot fun left right => left.extent ≤ right.extent :=
      ⟨fun _ _ _ first second => Nat.le_trans first second⟩
    exact List.pairwise_insertionSort _ _
  have member : e ∈ extentsOf (directoryOf fmt disk) f := by
    rw [whole]
    simp
  obtain ⟨listed, file⟩ := mem_extentsOf.mp member
  obtain ⟨index, inside, live, rfl⟩ := mem_directoryOf.mp listed
  simp only at here
  split at here
  · rename_i covers
    cases here
    refine ⟨index, ⟨inside, ⟨live, file⟩, covers, fun other within own covered => ?_⟩, rfl, rfl⟩
    have present := mem_extentsOf.mpr
      ⟨mem_directoryOf.mpr ⟨other, within, own.1, rfl⟩, own.2⟩
    -- An entry before the one found covers nothing here, and one after it is of no earlier extent.
    rw [whole] at present sorted
    rcases List.mem_append.mp present with first | rest
    · cases (covered.found other).symm.trans (missed _ first)
    · rcases List.mem_cons.mp rest with same | after
      · exact Nat.le_of_eq (congrArg (fun slot : DirSlot =>
          maskOff slot.extent (Params.derive fmt).exm) same.symm)
      · exact RawEntry.group_mono mask
          ((List.pairwise_cons.mp (List.pairwise_append.mp sorted).2.1).1 _ after)
  · cases here

/-- Entries that lead for one record are of one group. -/
theorem Leads.group {fmt : Format} {disk : Disk} {f : File} {record left right : Nat}
    (one : Leads fmt disk f record left) (two : Leads fmt disk f record right) :
    (disk.entry left).group (Params.derive fmt) = (disk.entry right).group (Params.derive fmt) :=
  Nat.le_antisymm (one.least _ two.inside two.own two.covers)
    (two.least _ one.inside one.own one.covers)

/-- A read of a record for which an entry leads looks into that entry. -/
theorem Leads.covering {fmt : Format} (mask : (Params.derive fmt).exm = 0 ∨
    (Params.derive fmt).exm = 1) {disk : Disk} {f : File} (alone : Alone fmt disk f)
    {record index : Nat} (leads : Leads fmt disk f record index) :
    coveringEntry (Params.derive fmt) (directoryOf fmt disk) f record =
      some ((disk.entry index).group (Params.derive fmt) * recordsPerExtent,
        decodeBlocks (disk.entry index) (Params.derive fmt)) := by
  cases found : coveringEntry (Params.derive fmt) (directoryOf fmt disk) f record with
  | none => exact absurd leads.covers (coveringEntry_none_iff.mp found index leads.inside leads.own)
  | some pair =>
    obtain ⟨start, blocks⟩ := pair
    obtain ⟨other, leads', rfl, rfl⟩ := coveringEntry_leads mask found
    have same := alone other leads'.inside index leads.inside leads'.own leads.own
      (leads'.group leads)
    rw [same]

/-- What a lookup finds depends on the block in the record's slot and on that one record. -/
theorem valueAt_congr {fmt : Format} {disk disk' : Disk} {start record : Nat}
    {blocks blocks' : List Nat}
    (slot : blocks'[(record - start) / (Params.derive fmt).recordsPerBlock]? =
      blocks[(record - start) / (Params.derive fmt).recordsPerBlock]?)
    (kept : ∀ block, blocks[(record - start) / (Params.derive fmt).recordsPerBlock]? = some block →
      block ≠ 0 →
      disk' (fmt.blockRecord block ((record - start) % (Params.derive fmt).recordsPerBlock)) =
        disk (fmt.blockRecord block ((record - start) % (Params.derive fmt).recordsPerBlock))) :
    valueAt fmt disk' start blocks' record = valueAt fmt disk start blocks record := by
  simp only [valueAt]
  rw [slot]
  cases named : blocks[(record - start) / (Params.derive fmt).recordsPerBlock]? with
  | none => rfl
  | some block =>
    cases block with
    | zero => rfl
    | succ block => simp only [kept _ named (Nat.succ_ne_zero block)]

section Writes

variable {fs : ImageFs} {start : Disk} {names : Nat → Nat → Prop}

/-! ## What a write has settled before it writes -/

/-- The entry, the block and whether the block was claimed, as a write has them once it goes to
the medium. -/
structure Writes (fs : ImageFs) (f : File) (record : Nat) (data : Record) (index : Nat)
    (raw : RawEntry) (block : Nat) (fresh : Bool) : Prop where
  /-- The file exists. -/
  there : existsFile fs.dir f = true
  /-- The entry is the file's for the record's group, or a new one. -/
  target : planTarget fs f (baseExtent fs.params record) = some (index, raw)
  /-- It is what the operation edits. -/
  edits : Edits fs (.writeRecord f record data) (planEdit fs record data index raw block fresh)
  /-- The record's slot names the block, or nothing if the block was claimed. -/
  slot : (decodeBlocks raw fs.params)[withinEntry fs.params record / fs.params.recordsPerBlock]? =
    some (if fresh then 0 else block)
  /-- The block lies outside the directory. -/
  above : fs.params.dirBlocks ≤ block
  /-- The block is one of the disk's. -/
  below : block ≤ fs.params.maxBlock
  /-- A claimed block is named by no entry. -/
  unnamed : fresh = true → ∀ i < fs.fmt.dirEntries, (fs.disk.entry i).Live →
    block ∉ (fs.disk.entry i).named fs.params

/-- An edit of a write is one with all this settled. -/
theorem Edits.writes (owned : fs.Owned start names) (valid : fs.Valid) {f : File} {record : Nat}
    {data : Record} {e : Edit} (edits : Edits fs (.writeRecord f record data) e) :
    ∃ index raw block fresh, e = planEdit fs record data index raw block fresh ∧
      Writes fs f record data index raw block fresh := by
  cases edits with
  | @fresh _ _ _ index raw block there target slot free =>
    obtain ⟨low, high, untaken⟩ := freeBlock_some free
    refine ⟨index, raw, block, true, rfl, there, target, .fresh there target slot free, slot, low,
      high, fun _ i inside live named => ?_⟩
    have taken := owned.taken i block ((owned.medium i inside live).2 block named)
    rw [Taken] at taken
    rw [List.getD_eq_getElem?_getD, taken] at untaken
    cases untaken
  | @owned _ _ _ index raw block there target slot positive known =>
    have named : block ∈ raw.named fs.params :=
      RawEntry.mem_named.mpr ⟨List.mem_of_getElem? slot, positive⟩
    have above := (owned.bounded index block ((planTarget_fair owned valid target).2.2 block
      named)).1
    exact ⟨index, raw, block, false, rfl, there, target, .owned there target slot positive known,
      slot, above, known, by simp⟩

variable {f : File} {record : Nat} {data : Record} {index : Nat} {raw : RawEntry} {block : Nat}
  {fresh : Bool}

/-- The file of a write is a plain one. -/
theorem Writes.plain (writes : Writes fs f record data index raw block fresh) (valid : fs.Valid) :
    f.Plain := by
  have listed : ∃ e ∈ fs.dir, e.file = f := by
    cases found : extentsOf fs.dir f with
    | nil =>
      have there := writes.there
      rw [existsFile, found] at there
      cases there
    | cons e rest =>
      have member : e ∈ extentsOf fs.dir f := found ▸ List.mem_cons_self
      exact ⟨e, mem_extentsOf.mp member⟩
  obtain ⟨e, member, file⟩ := listed
  obtain ⟨_, live, slot⟩ := valid.listed e member
  rw [← file, slot]
  exact ⟨RawEntry.live_iff_listed.mp live, strip_strip _, strip_strip _⟩

theorem Writes.positive (writes : Writes fs f record data index raw block fresh)
    (valid : fs.Valid) : block ≠ 0 := by
  have dir := valid.sound.dirBlocks_pos
  have above := writes.above
  rw [ImageFs.params] at above
  omega

/-- The entry at the index written is the one the write starts from, or is free. -/
theorem Writes.replaced (writes : Writes fs f record data index raw block fresh)
    (synced : fs.Synced) : fs.disk.entry index = raw ∨
      ¬ (fs.disk.entry index).Live ∧ raw = newRawEntry f (baseExtent fs.params record) ∧
        entryFor fs.params fs.dir f (baseExtent fs.params record) = none := by
  rcases planTarget_some writes.target with ⟨old, found, rfl, rfl⟩ | ⟨none, free, made⟩
  · exact .inl (synced.entry (entryFor_some found).1).2.1
  · refine .inr ⟨fun live => ?_, made, none⟩
    have unfree := live.1
    rw [(freeOf_some free).2.1] at unfree
    cases unfree

/-- The entries once the write is through. -/
theorem Writes.entry (writes : Writes fs f record data index raw block fresh)
    (owned : fs.Owned start names) (valid : fs.Valid) {i : Nat} (inside : i < fs.fmt.dirEntries) :
    (fs.disk.run (planEdit fs record data index raw block fresh).steps).entry i =
      if i = index then (planEdit fs record data index raw block fresh).raw
      else fs.disk.entry i :=
  writes.edits.entry owned valid inside

/-- A place in a block that an entry names keeps its record through every first steps of the
write, unless it is the place written. -/
theorem Writes.kept (writes : Writes fs f record data index raw block fresh)
    (owned : fs.Owned start names) (valid : fs.Valid) (synced : fs.Synced) {i slot place : Nat}
    {number : Nat} (inside : i < fs.fmt.dirEntries) (live : (fs.disk.entry i).Live)
    (named : (decodeBlocks (fs.disk.entry i) fs.params)[slot]? = some number)
    (positive : number ≠ 0) (within : place < fs.params.recordsPerBlock)
    (apart : ¬ (i = index ∧ slot = withinEntry fs.params record / fs.params.recordsPerBlock ∧
      place = withinEntry fs.params record % fs.params.recordsPerBlock)) (j : Nat) :
    fs.disk.run ((planEdit fs record data index raw block fresh).steps.take j)
      (fs.fmt.blockRecord number place) = fs.disk (fs.fmt.blockRecord number place) := by
  have member : number ∈ (fs.disk.entry i).named fs.params :=
    RawEntry.mem_named.mpr ⟨List.mem_of_getElem? named, positive⟩
  by_cases elsewhere : i = index
  · subst elsewhere
    have same : fs.disk.entry i = raw :=
      (writes.replaced synced).resolve_right fun free => free.1 live
    have bounded := owned.bounded i number ((owned.medium i inside live).2 number member)
    refine Disk.run_apart _ _ fun step taken => ?_
    rcases List.mem_append.mp (List.mem_of_mem_take taken) with written | edited
    · have own : (planEdit fs record data i raw block fresh).Within fs.fmt fun _ b => b = block :=
        planEdit_within valid rfl
      obtain ⟨target, offset, bytes, rfl, below, equal⟩ := own step written
      by_cases other : number = block
      · -- The block is the entry's own, so only the one record is written.
        cases fresh with
        | true => exact absurd member (other ▸ writes.unnamed rfl i inside live)
        | false =>
          have once := (owned.medium i inside live).1
          have there : (decodeBlocks (fs.disk.entry i) fs.params)[withinEntry fs.params record /
              fs.params.recordsPerBlock]? = some number := by
            rw [same, writes.slot, other]
            rfl
          have slots := slot_unique once positive named there
          simp only [planEdit, Bool.false_eq_true, ↓reduceIte, List.nil_append,
            List.mem_singleton] at written
          rw [DiskStep.Apart, (DiskStep.write.inj written).1, other]
          exact fun equal => apart ⟨rfl, slots, (blockRecord_inj.mp equal).symm⟩
      · exact (blockRecord_ne (fun equal' => other (equal'.trans equal)) within below).symm
    · rw [List.mem_singleton] at edited
      subst edited
      exact Nat.ne_of_lt (Nat.lt_of_lt_of_le (Format.entryRecord_lt inside)
        (blockRecord_outside valid.sound bounded.1 _))
  · exact writes.edits.record owned valid inside live member elsewhere within j

/-! ## What the first steps of a write show -/

/-- First steps of a write are first data steps, or the whole write. -/
theorem Writes.cut (j : Nat) : (∃ k, (planEdit fs record data index raw block fresh).steps.take j =
      (planEdit fs record data index raw block fresh).data.take k) ∨
    (planEdit fs record data index raw block fresh).steps.take j =
      (planEdit fs record data index raw block fresh).steps := by
  rcases Nat.lt_or_ge (planEdit fs record data index raw block fresh).data.length j with
    late | early
  · refine .inr (List.take_of_length_le ?_)
    rw [Edit.steps, List.length_append]
    exact late
  · exact .inl ⟨j, List.take_append_of_le_length early⟩

/-- Data steps leave every entry. -/
theorem Writes.entry_data (writes : Writes fs f record data index raw block fresh)
    (owned : fs.Owned start names) (valid : fs.Valid) (k : Nat) {i : Nat}
    (inside : i < fs.fmt.dirEntries) :
    (fs.disk.run ((planEdit fs record data index raw block fresh).data.take k)).entry i =
      fs.disk.entry i :=
  Disk.entry_run_outside _ _ (fun step member =>
    writes.edits.data_outside owned valid step (List.mem_of_mem_take member)) inside

/-- The file of the entry that a live one is replaced by. -/
theorem Writes.file (writes : Writes fs f record data index raw block fresh)
    (valid : fs.Valid) (synced : fs.Synced) : raw.file = f ∧
      ((fs.disk.entry index).Live → (fs.disk.entry index).file = f) :=
  planTarget_file synced valid (writes.plain valid) writes.target

/-- First steps of a write leave the entries of other files and what reads of them return. -/
theorem Writes.others (writes : Writes fs f record data index raw block fresh)
    (owned : fs.Owned start names) (valid : fs.Valid) (synced : fs.Synced) {g : File}
    (other : g ≠ f) (j : Nat) :
    let after := fs.disk.run ((planEdit fs record data index raw block fresh).steps.take j)
    entriesOf (directoryOf fs.fmt after) g = entriesOf fs.dir g ∧
      ∀ r, reads fs.fmt (directoryOf fs.fmt after) after g r = fs.shows g r := by
  intro after
  have plain : ∀ own ∈ (Operation.writeRecord f record data).files, own.Plain :=
    fun own member => List.mem_singleton.mp member ▸ writes.plain valid
  have outside : g ∉ (Operation.writeRecord f record data).files := fun member =>
    other (List.mem_singleton.mp member)
  have alien := writes.edits.files synced valid plain outside
  have entries : entriesOf (directoryOf fs.fmt after) g = entriesOf fs.dir g := by
    rw [show fs.dir = directoryOf fs.fmt fs.disk from synced]
    refine entriesOf_directoryOf_congr fun i inside => ?_
    rcases @Writes.cut fs record data index raw block fresh j with ⟨k, early⟩ | whole
    · left
      rw [show after = fs.disk.run _ from congrArg fs.disk.run early]
      exact writes.entry_data owned valid k inside
    · rw [show after = fs.disk.run _ from congrArg fs.disk.run whole, writes.entry owned valid inside]
      split
      · rename_i here
        subst here
        exact .inr alien
      · exact .inl rfl
  refine ⟨entries, reads_congr entries ?_ valid.sound.block⟩
  intro e listed file number member positive offset within
  obtain ⟨inside, entry, live⟩ := synced.entry listed
  have slot := (valid.listed e listed).2.2
  rw [slot] at member file
  obtain ⟨place, named⟩ := List.mem_iff_getElem?.mp member
  refine writes.kept owned valid synced inside (entry ▸ live) (entry ▸ named) positive within ?_ j
  rintro ⟨same, _⟩
  have owner := (writes.file valid synced).2 (same ▸ entry ▸ live)
  rw [← same, entry] at owner
  exact other (file.symm.trans owner)

/-- Data steps leave what reads of the file's other records return. -/
theorem Writes.target_data (writes : Writes fs f record data index raw block fresh)
    (owned : fs.Owned start names) (valid : fs.Valid) (synced : fs.Synced)
    (small : record < 2048 * recordsPerExtent) (k : Nat) {r : Nat} (other : r ≠ record) :
    let after := fs.disk.run ((planEdit fs record data index raw block fresh).data.take k)
    directoryOf fs.fmt after = fs.dir ∧
      reads fs.fmt (directoryOf fs.fmt after) after f r = fs.shows f r := by
  intro after
  have dir : directoryOf fs.fmt after = fs.dir := by
    rw [show fs.dir = directoryOf fs.fmt fs.disk from synced]
    exact directoryOf_congr fun i inside => writes.entry_data owned valid k inside
  refine ⟨dir, ?_⟩
  rw [dir, ImageFs.shows, reads, reads]
  cases covering : coveringEntry (Params.derive fs.fmt) fs.dir f r with
  | none => rfl
  | some found =>
    obtain ⟨first, blocks⟩ := found
    obtain ⟨e, listed, _, above, _, rfl, rfl⟩ := coveringEntry_some covering
    obtain ⟨inside, entry, live⟩ := synced.entry listed
    have slot := (valid.listed e listed).2.2
    refine valueAt_congr rfl fun number named positive => ?_
    rw [show e.blocks = decodeBlocks e.raw fs.params from congrArg DirSlot.blocks slot] at named
    have early : ∃ j, (planEdit fs record data index raw block fresh).data.take k =
        (planEdit fs record data index raw block fresh).steps.take j :=
      ⟨min k (planEdit fs record data index raw block fresh).data.length, by
        rw [Edit.steps, List.take_append_of_le_length (Nat.min_le_right _ _), List.take_eq_take_iff]
        omega⟩
    obtain ⟨j, same⟩ := early
    rw [show after = fs.disk.run _ from congrArg fs.disk.run same]
    refine writes.kept owned valid synced inside (entry ▸ live) (entry ▸ named) positive
      (Nat.mod_lt _ valid.sound.block) ?_ j
    -- The place written is the record's, and no other's.
    rintro ⟨here, slots, places⟩
    have started : extentStart (Params.derive fs.fmt) e =
        baseExtent fs.params record * recordsPerExtent := by
      have raw' : e.raw = raw := by
        rcases writes.replaced synced with same | ⟨dead, _⟩
        · rw [← same, ← here, entry]
        · exact absurd (here ▸ entry ▸ live) dead
      rw [← planTarget_group valid small writes.target, ← raw', slot]
      rfl
    have whole := baseExtent_add_withinEntry fs.params record
    have within : r - extentStart (Params.derive fs.fmt) e = withinEntry fs.params record :=
      place_of_slot slots places
    omega

/-! ## What the whole write shows -/

/-- The entry a write puts down: the file's, of the record's group, with the records counted
before and the one written, and the block in its slot. -/
theorem Writes.made (writes : Writes fs f record data index raw block fresh) (valid : fs.Valid)
    (synced : fs.Synced) (small : record < 2048 * recordsPerExtent) :
    (planEdit fs record data index raw block fresh).raw.Of f ∧
      (planEdit fs record data index raw block fresh).raw.group fs.params =
        baseExtent fs.params record ∧
      (planEdit fs record data index raw block fresh).raw.count fs.params =
        max (raw.count fs.params) (withinEntry fs.params record + 1) ∧
      decodeBlocks (planEdit fs record data index raw block fresh).raw fs.params =
        if fresh then (decodeBlocks raw fs.params).set
          (withinEntry fs.params record / fs.params.recordsPerBlock) block
        else decodeBlocks raw fs.params := by
  have live := valid.target_live writes.there writes.target
  obtain ⟨group, count⟩ := planEdit_group valid data index block fresh small
    (planTarget_group valid small writes.target)
  exact ⟨⟨planEdit_live.mpr live, planEdit_file.trans (writes.file valid synced).1⟩, group, count,
    planEdit_blocks valid record data index raw block fresh fun _ => writes.below⟩

/-- The write leaves no two entries of the file for one group. -/
theorem Writes.alone (writes : Writes fs f record data index raw block fresh)
    (owned : fs.Owned start names) (valid : fs.Valid) (synced : fs.Synced)
    (alone : Alone fs.fmt fs.disk f) (small : record < 2048 * recordsPerExtent) :
    Alone fs.fmt (fs.disk.run (planEdit fs record data index raw block fresh).steps) f := by
  obtain ⟨_, group, _⟩ := writes.made valid synced small
  have inside := planTarget_inside valid writes.target
  -- No other entry of the file is of the record's group.
  have sole {i : Nat} (within : i < fs.fmt.dirEntries) (elsewhere : i ≠ index)
      (own : (fs.disk.entry i).Of f) :
      (fs.disk.entry i).group fs.params ≠ baseExtent fs.params record := by
    intro same
    rcases writes.replaced synced with entry | ⟨_, _, none⟩
    · have live := valid.target_live writes.there writes.target
      refine elsewhere (alone i within index inside own ?_ ?_)
      · rw [entry]
        exact ⟨live, (writes.file valid synced).1⟩
      · rw [entry]
        exact same.trans (planTarget_group valid small writes.target).symm
    · have missed := List.find?_eq_none.mp none _ (synced.listed within own.1)
      simp only [decide_eq_true_eq, not_and] at missed
      exact missed own.2 same
  intro i hi j hj ownI ownJ same
  rw [writes.entry owned valid hi] at ownI same
  rw [writes.entry owned valid hj] at ownJ same
  by_cases one : i = index
  · by_cases two : j = index
    · rw [one, two]
    · rw [if_pos one, if_neg two] at same
      rw [if_neg two] at ownJ
      exact absurd (same.symm.trans group) (sole hj two ownJ)
  · by_cases two : j = index
    · rw [if_neg one, if_pos two] at same
      rw [if_neg one] at ownI
      exact absurd (same.trans group) (sole hi one ownI)
    · rw [if_neg one, if_neg two] at same
      rw [if_neg one] at ownI
      rw [if_neg two] at ownJ
      exact alone i hi j hj ownI ownJ same

/-- An entry that covered a record still does. -/
theorem Writes.covers (writes : Writes fs f record data index raw block fresh)
    (owned : fs.Owned start names) (valid : fs.Valid) (synced : fs.Synced)
    (small : record < 2048 * recordsPerExtent) {i r : Nat} (inside : i < fs.fmt.dirEntries)
    (own : (fs.disk.entry i).Of f) (covers : (fs.disk.entry i).Covers fs.params r) :
    let after := fs.disk.run (planEdit fs record data index raw block fresh).steps
    (after.entry i).Of f ∧ (after.entry i).Covers fs.params r ∧
      (after.entry i).group fs.params = (fs.disk.entry i).group fs.params := by
  intro after
  rw [writes.entry owned valid inside]
  split
  · rename_i here
    obtain ⟨made, group, count, _⟩ := writes.made valid synced small
    have entry : fs.disk.entry i = raw := by
      rcases writes.replaced synced with entry | ⟨dead, _⟩
      · rw [here, entry]
      · exact absurd (here ▸ own.1) dead
    have before := planTarget_group valid small writes.target
    rw [RawEntry.Covers, entry, before] at covers
    rw [RawEntry.Covers, group, count, entry, before]
    exact ⟨made, ⟨covers.1, by omega⟩, rfl⟩
  · exact ⟨own, covers, rfl⟩

/-- What the entry written shows for another record: zeros in a claimed block, and else what
the entry it started from would. -/
theorem Writes.value (writes : Writes fs f record data index raw block fresh)
    (owned : fs.Owned start names) (valid : fs.Valid) (synced : fs.Synced) {r : Nat}
    (other : r ≠ record) (above : baseExtent fs.params record * recordsPerExtent ≤ r) :
    let after := fs.disk.run (planEdit fs record data index raw block fresh).steps
    let first := baseExtent fs.params record * recordsPerExtent
    let shown := valueAt fs.fmt after first
      (decodeBlocks (planEdit fs record data index raw block fresh).raw fs.params) r
    let was := valueAt fs.fmt fs.disk first (decodeBlocks raw fs.params) r
    shown = was ∨ was = .ok none ∧ shown = .ok (some fun _ => 0) := by
  intro after first shown was
  have whole := baseExtent_add_withinEntry fs.params record
  have inside := planTarget_inside valid writes.target
  have blocks := planEdit_blocks valid record data index raw block fresh fun _ => writes.below
  by_cases filled : fresh = true ∧ (r - first) / fs.params.recordsPerBlock =
      withinEntry fs.params record / fs.params.recordsPerBlock
  · right
    obtain ⟨rfl, slots⟩ := filled
    have was' : was = .ok none := by
      simp only [was, valueAt]
      rw [show (r - first) / (Params.derive fs.fmt).recordsPerBlock = _ from slots, writes.slot]
      rfl
    refine ⟨was', ?_⟩
    obtain ⟨room, _⟩ := List.getElem?_eq_some_iff.mp writes.slot
    have offset : (r - first) % fs.params.recordsPerBlock ≠
        withinEntry fs.params record % fs.params.recordsPerBlock := fun same => by
      have places : r - first = withinEntry fs.params record := place_of_slot slots same
      omega
    have zero : after (fs.fmt.blockRecord block ((r - first) % fs.params.recordsPerBlock)) =
        fun _ => 0 := by
      rw [show after = fs.disk.run _ from rfl, Edit.steps_record (e := planEdit fs record data index
        raw block true) valid inside writes.above, planEdit_data record data index raw block true
        fs.disk (Nat.mod_lt _ valid.sound.block), if_neg offset]
      rfl
    have named : (decodeBlocks (planEdit fs record data index raw block true).raw
        fs.params)[(r - first) / fs.params.recordsPerBlock]? = some block := by
      rw [blocks, if_pos rfl, slots]
      exact List.getElem?_set_self room
    have positive := writes.positive valid
    simp only [shown, valueAt]
    rw [show (decodeBlocks (planEdit fs record data index raw block true).raw
      fs.params)[(r - first) / (Params.derive fs.fmt).recordsPerBlock]? = _ from named]
    cases block with
    | zero => exact absurd rfl positive
    | succ block =>
      have known : ¬ block + 1 > (Params.derive fs.fmt).maxBlock := Nat.not_lt.mpr writes.below
      simp only [if_neg known]
      rw [show after (fs.fmt.blockRecord (block + 1)
        ((r - first) % (Params.derive fs.fmt).recordsPerBlock)) = _ from zero]
  · left
    refine valueAt_congr ?_ fun number named positive => ?_
    · rw [show decodeBlocks (planEdit fs record data index raw block fresh).raw fs.params = _ from
        blocks]
      split
      · rename_i fresh'
        exact List.getElem?_set_ne fun same => filled ⟨fresh', same.symm⟩
      · rfl
    · rcases writes.replaced synced with entry | ⟨_, made, _⟩
      · have live := valid.target_live writes.there writes.target
        have kept := writes.kept owned valid synced inside (entry ▸ live) (entry ▸ named) positive
          (Nat.mod_lt (r - first) valid.sound.block)
          (fun same => other (by
            have places : r - first = withinEntry fs.params record :=
              place_of_slot same.2.1 same.2.2
            omega)) (planEdit fs record data index raw block fresh).steps.length
        rwa [List.take_length] at kept
      · rw [made] at named
        exact absurd (newRawEntry_blocks f _ fs.params number (List.mem_of_getElem? named)) positive

/-- An entry that led for a record that the entry written covers is of no later group. -/
theorem Writes.before_group (writes : Writes fs f record data index raw block fresh)
    (valid : fs.Valid) (synced : fs.Synced) (small : record < 2048 * recordsPerExtent) {r k : Nat}
    (was : Leads fs.fmt fs.disk f r k)
    (covers : (planEdit fs record data index raw block fresh).raw.Covers fs.params r) :
    (fs.disk.entry k).group fs.params ≤ baseExtent fs.params record := by
  have mask : fs.params.exm = 0 ∨ fs.params.exm = 1 := valid.sound.mask
  obtain ⟨_, group, count, _⟩ := writes.made valid synced small
  rw [RawEntry.Covers, group, count] at covers
  by_cases grown : r < baseExtent fs.params record * recordsPerExtent +
      (withinEntry fs.params record + 1)
  · -- The record is of the group written, and the entry starts no later than the record.
    have above : (fs.disk.entry k).group fs.params * recordsPerExtent ≤ r := was.covers.1
    have inside := withinEntry_lt fs.params record
    have whole := group_whole (fs.disk.entry k) mask
    have even := baseExtent_whole fs.params record
    rw [recordsPerEntry] at inside
    unfold recordsPerExtent at *
    rcases mask with mask | mask <;> rw [mask] at inside whole even <;> omega
  · rcases writes.replaced synced with entry | ⟨_, made, _⟩
    · have before := planTarget_group valid small writes.target
      have live := valid.target_live writes.there writes.target
      have least := was.least index (planTarget_inside valid writes.target)
        (entry ▸ ⟨live, (writes.file valid synced).1⟩)
        (entry ▸ ⟨by rw [show raw.group (Params.derive fs.fmt) = _ from before]; exact covers.1, by
          rw [show raw.group (Params.derive fs.fmt) = _ from before]
          change r < _ + raw.count fs.params
          omega⟩)
      rw [entry] at least
      exact least.trans_eq before
    · have room : baseExtent fs.params record + fs.params.exm < 2048 := baseExtent_small mask small
      have none := (newRawEntry_group f mask (baseExtent_whole _ _)
        (Nat.lt_of_le_of_lt (Nat.le_add_right _ _) room)).2
      rw [← made] at none
      omega

/-- What a lookup in the entry a write starts from finds: nothing, or what a block of the
file's own holds. -/
theorem Writes.exposed (writes : Writes fs f record data index raw block fresh)
    (owned : fs.Owned start names) (valid : fs.Valid) (synced : fs.Synced) (r : Nat) :
    let was := valueAt fs.fmt fs.disk (baseExtent fs.params record * recordsPerExtent)
      (decodeBlocks raw fs.params) r
    was = .ok none ∨ ∃ e ∈ fs.dir, e.file = f ∧ ∃ number ∈ e.blocks, number ≠ 0 ∧
      ∃ offset < fs.params.recordsPerBlock,
        was = .ok (some (fs.disk (fs.fmt.blockRecord number offset))) := by
  intro was
  have shown : was = valueAt fs.fmt fs.disk (baseExtent fs.params record * recordsPerExtent)
    (decodeBlocks raw fs.params) r := rfl
  rw [valueAt] at shown
  cases named : (decodeBlocks raw fs.params)[(r - baseExtent fs.params record * recordsPerExtent) /
      (Params.derive fs.fmt).recordsPerBlock]? with
  | none =>
    simp only [named] at shown
    exact .inl shown
  | some number =>
    cases number with
    | zero =>
      simp only [named] at shown
      exact .inl shown
    | succ number =>
      have inside := planTarget_inside valid writes.target
      have live := valid.target_live writes.there writes.target
      have member := List.mem_of_getElem? named
      rcases writes.replaced synced with entry | ⟨_, made, _⟩
      · have listed := synced.listed inside (entry ▸ live)
        have bounded := owned.bounded index (number + 1)
          ((owned.medium index inside (entry ▸ live)).2 _ (entry ▸ RawEntry.mem_named.mpr
            ⟨member, Nat.succ_ne_zero number⟩))
        have known : ¬ number + 1 > (Params.derive fs.fmt).maxBlock := Nat.not_lt.mpr bounded.2
        simp only [named, if_neg known] at shown
        rw [entry] at listed
        exact .inr ⟨_, listed, (writes.file valid synced).1, number + 1, member,
          Nat.succ_ne_zero number, _, Nat.mod_lt _ valid.sound.block, shown⟩
      · rw [made] at member
        exact absurd (newRawEntry_blocks f _ fs.params _ member) (Nat.succ_ne_zero number)

/-- What the whole write shows of the file's other records. -/
theorem Writes.target_done (writes : Writes fs f record data index raw block fresh)
    (owned : fs.Owned start names) (valid : fs.Valid) (synced : fs.Synced)
    (alone : Alone fs.fmt fs.disk f) (small : record < 2048 * recordsPerExtent) {r : Nat}
    (other : r ≠ record) :
    let after := fs.disk.run (planEdit fs record data index raw block fresh).steps
    let shown := reads fs.fmt (directoryOf fs.fmt after) after f r
    shown = fs.shows f r ∨ fs.shows f r = .ok none ∧ shown = .ok (some fun _ => 0) ∨
      coveringEntry fs.params fs.dir f r = none ∧
        ∃ e ∈ fs.dir, e.file = f ∧ ∃ number ∈ e.blocks, number ≠ 0 ∧
          ∃ offset < fs.params.recordsPerBlock,
            shown = .ok (some (fs.disk (fs.fmt.blockRecord number offset))) := by
  intro after shown
  have mask := valid.sound.mask
  have alone' := writes.alone owned valid synced alone small
  have listing : fs.dir = directoryOf fs.fmt fs.disk := synced
  have unchanged {i : Nat} (within : i < fs.fmt.dirEntries) (elsewhere : i ≠ index) :
      after.entry i = fs.disk.entry i := by
    rw [show after.entry i = _ from writes.entry owned valid within, if_neg elsewhere]
  have atIndex : after.entry index = (planEdit fs record data index raw block fresh).raw := by
    rw [show after.entry index = _ from writes.entry owned valid (planTarget_inside valid
      writes.target), if_pos rfl]
  obtain ⟨_, group, count, _⟩ := writes.made valid synced small
  cases covering : coveringEntry (Params.derive fs.fmt) (directoryOf fs.fmt after) f r with
  | none =>
    -- Nothing covers it now, so nothing did before.
    left
    have before : coveringEntry (Params.derive fs.fmt) fs.dir f r = none := by
      rw [listing]
      refine coveringEntry_none_iff.mpr fun i inside own covers => ?_
      obtain ⟨own', covers', _⟩ := writes.covers owned valid synced small inside own covers
      exact coveringEntry_none_iff.mp covering i inside own' covers'
    simp only [shown, ImageFs.shows, reads, covering, before]
  | some pair =>
    obtain ⟨first, blocks⟩ := pair
    obtain ⟨i, leads, rfl, rfl⟩ := coveringEntry_leads mask covering
    -- An entry that led before leads now.
    have led {k : Nat} (was : Leads fs.fmt fs.disk f r k) : k = i := by
      obtain ⟨own', covers', group'⟩ :=
        writes.covers owned valid synced small was.inside was.own was.covers
      refine alone' k was.inside i leads.inside own' leads.own (Nat.le_antisymm ?_
        (leads.least k was.inside own' covers'))
      by_cases here : i = index
      · subst here
        have settled : (after.entry i).group fs.params = baseExtent fs.params record := by
          rw [atIndex, group]
        exact group'.le.trans ((writes.before_group valid synced small was
          (atIndex ▸ leads.covers)).trans settled.ge)
      · have own := leads.own
        have covers := leads.covers
        rw [unchanged leads.inside here] at own covers
        have least := was.least i leads.inside own covers
        rw [← unchanged leads.inside here] at least
        exact group'.le.trans least
    have found : shown = valueAt fs.fmt after
        ((after.entry i).group (Params.derive fs.fmt) * recordsPerExtent)
        (decodeBlocks (after.entry i) (Params.derive fs.fmt)) r := by
      simp only [shown, reads, covering]
    cases covered : coveringEntry (Params.derive fs.fmt) (directoryOf fs.fmt fs.disk) f r with
    | none =>
      -- Newly covered, so by the entry written.
      have here : i = index := by
        by_contra elsewhere
        have missed := coveringEntry_none_iff.mp covered i leads.inside
        rw [← unchanged leads.inside elsewhere] at missed
        exact missed leads.own leads.covers
      subst here
      have none : fs.shows f r = .ok none := by
        simp only [ImageFs.shows, reads, listing, covered]
      have above := leads.covers.1
      rw [atIndex, show RawEntry.group _ (Params.derive fs.fmt) = _ from group] at found above
      rcases writes.value owned valid synced other above with same | ⟨_, zero⟩
      · rcases writes.exposed owned valid synced r with missing | own
        · exact .inl (found.trans (same.trans (missing.trans none.symm)))
        · obtain ⟨e, member, file, number, named, positive, offset, within, held⟩ := own
          exact .inr (.inr ⟨listing ▸ covered, e, member, file, number, named, positive, offset,
            within, found.trans (same.trans held)⟩)
      · exact .inr (.inl ⟨none, found.trans zero⟩)
    | some pair =>
      obtain ⟨first, blocks⟩ := pair
      obtain ⟨k, was, rfl, rfl⟩ := coveringEntry_leads mask covered
      obtain rfl := led was
      have before : fs.shows f r = valueAt fs.fmt fs.disk
          ((fs.disk.entry k).group (Params.derive fs.fmt) * recordsPerExtent)
          (decodeBlocks (fs.disk.entry k) (Params.derive fs.fmt)) r := by
        simp only [ImageFs.shows, reads, listing, covered]
      by_cases here : k = index
      · subst here
        have entry := (writes.replaced synced).resolve_right fun free => free.1 was.own.1
        have above := leads.covers.1
        rw [atIndex, show RawEntry.group _ (Params.derive fs.fmt) = _ from group] at found above
        rw [entry, show raw.group (Params.derive fs.fmt) = _ from
          planTarget_group valid small writes.target] at before
        rcases writes.value owned valid synced other above with same | ⟨none, zero⟩
        · exact .inl (found.trans (same.trans before.symm))
        · exact .inr (.inl ⟨before.trans none, found.trans zero⟩)
      · left
        rw [found, before, unchanged was.inside here]
        refine valueAt_congr rfl fun number named positive => ?_
        have kept := writes.kept owned valid synced was.inside was.own.1 named positive
          (Nat.mod_lt (r - (fs.disk.entry k).group (Params.derive fs.fmt) * recordsPerExtent)
            valid.sound.block) (fun same => here same.1)
          (planEdit fs record data index raw block fresh).steps.length
        rwa [List.take_length] at kept

/-- A block that the whole write made some entry name holds the record written and zeros. -/
theorem Writes.claimed_done (writes : Writes fs f record data index raw block fresh)
    (owned : fs.Owned start names) (valid : fs.Valid) (synced : fs.Synced)
    (small : record < 2048 * recordsPerExtent) :
    let after := fs.disk.run (planEdit fs record data index raw block fresh).steps
    ∀ e ∈ directoryOf fs.fmt after, ∀ number ∈ e.blocks, number ≠ 0 →
      (∀ old ∈ fs.dir, number ∉ old.blocks) →
      e.file = f ∧ ∀ offset < fs.params.recordsPerBlock,
        after (fs.fmt.blockRecord number offset) =
          if offset = withinEntry fs.params record % fs.params.recordsPerBlock then data
          else fun _ => 0 := by
  intro after e member number named positive unknown
  obtain ⟨i, inside, live, rfl⟩ := mem_directoryOf.mp member
  obtain ⟨own, _, _, blocks⟩ := writes.made valid synced small
  have entry : after.entry i = _ := writes.entry owned valid inside
  by_cases here : i = index
  · rw [if_pos here] at entry
    -- The blocks the entry had before were known, so this is the one claimed.
    have before : number ∉ decodeBlocks raw fs.params := fun named => by
      rcases writes.replaced synced with same | ⟨_, made, _⟩
      · have live := valid.target_live writes.there writes.target
        have listed := synced.listed (here ▸ inside) (same ▸ live)
        exact unknown _ listed (same ▸ named)
      · rw [made] at named
        exact positive (newRawEntry_blocks f _ fs.params number named)
    have now : number ∈ decodeBlocks (planEdit fs record data index raw block fresh).raw
        fs.params := entry ▸ named
    rw [blocks] at now
    split at now
    · rename_i claimed
      subst claimed
      have same : number = block := (List.mem_or_eq_of_mem_set now).resolve_left before
      refine ⟨(congrArg RawEntry.file entry).trans own.2, fun offset within => ?_⟩
      have held := planEdit_data record data index raw block true fs.disk within
      rw [same, show after = fs.disk.run _ from rfl, Edit.steps_record (e := planEdit fs record data
        index raw block true) valid (here ▸ inside) writes.above, held]
      rfl
    · exact absurd now before
  · rw [if_neg here] at entry
    exact absurd named (unknown _ (by
      rw [entry]
      exact synced.listed inside (entry ▸ live)))

/-- The image that first steps of a write leave shows what `Survives` says. -/
theorem Writes.survives (writes : Writes fs f record data index raw block fresh)
    (owned : fs.Owned start names) (valid : fs.Valid) (synced : fs.Synced)
    (alone : Alone fs.fmt fs.disk f) (small : record < 2048 * recordsPerExtent) (j : Nat)
    {again : ImageFs} (format : again.fmt = fs.fmt)
    (disk : again.disk = fs.disk.run ((planEdit fs record data index raw block fresh).steps.take j))
    (dir : again.dir = directoryOf fs.fmt again.disk) : Survives fs again f record data := by
  refine ⟨fun g other => ?_, fun r other => ?_, ?_⟩
  · rw [dir, disk]
    obtain ⟨entries, same⟩ := writes.others owned valid synced other j
    refine ⟨entries, fun r => ?_⟩
    rw [ImageFs.shows, format, dir, disk]
    exact same r
  · rw [ImageFs.shows, format, dir, disk]
    rcases @Writes.cut fs record data index raw block fresh j with ⟨k, early⟩ | whole
    · rw [early]
      exact .inl (writes.target_data owned valid synced small k other).2
    · rw [whole]
      exact writes.target_done owned valid synced alone small other
  · rw [dir, disk]
    rcases @Writes.cut fs record data index raw block fresh j with ⟨k, early⟩ | whole
    · rw [early]
      intro e member number named _ unknown
      have same : directoryOf fs.fmt _ = fs.dir := (directoryOf_congr fun i inside =>
        writes.entry_data owned valid k inside).trans synced.symm
      rw [same] at member
      exact absurd named (unknown e member)
    · rw [whole]
      exact writes.claimed_done owned valid synced small

end Writes

/-! ## Crash consistency -/

/-- What a cut off `write_record` leaves can be mounted where the medium answers; mounted again,
it shows every other file as before, and of the target's other records what they were, zeros in
a block claimed for the write, or, where the entry grew over them, what a block of the file's
own held. -/
theorem write_record_survives {fmt : Format} (listed : fmt ∈ formats) {media : Media}
    {fs : ImageFs} (reachable : Reachable media fmt fs) (synced : fs.Synced) {f : File}
    {record : Nat} (data : Record) (alone : Alone fs.fmt fs.disk f)
    (small : record < 2048 * recordsPerExtent) {left : Media}
    (cut : Interrupted fs.media ((Operation.writeRecord f record data).run fs).2.media left)
    (readOnly : Bool) :
    (left.Healthy → ∃ again, mount left fs.fmt readOnly = .ok again) ∧
      ∀ again, mount left fs.fmt readOnly = .ok again → Survives fs again f record data := by
  have sound := formats_sound fmt listed
  obtain ⟨valid, _, writable⟩ := reachable.kept sound
  obtain ⟨⟨names, owned⟩, _⟩ := reachable.owned sound
  refine ⟨fun healthy => mount_healthy valid.sound healthy (cut.length ▸ valid.long) readOnly,
    fun again mounted => ?_⟩
  have found := mount_ok valid.sound mounted
  have disk : again.disk = diskOf fs.fmt left.contents := by
    rw [ImageFs.disk, found.format, found.unwritten.contents]
  have dir : again.dir = directoryOf fs.fmt again.disk := by
    rw [disk]
    exact found.dir
  -- Whatever first writes were kept, they are first steps of the plan.
  have kept {steps : List DiskStep} (moved : Moved fs.fmt fs.media
      ((Operation.writeRecord f record data).run fs).2.media steps) :
      ∃ j, again.disk = fs.disk.run (steps.take j) := by
    obtain ⟨writes, n, log, contents⟩ := cut.contents
    obtain ⟨made, log', _, _, prefixes⟩ := moved.writes
    obtain rfl := List.append_cancel_left (log.symm.trans log')
    obtain ⟨j, seen⟩ := prefixes n
    exact ⟨j, by rw [disk, contents]; exact seen⟩
  have ran := run_ran valid writable (.writeRecord f record data)
  cases planned : planOf fs (.writeRecord f record data) with
  | refuse =>
    rw [planned] at ran
    obtain ⟨reason, after, ended, unwritten⟩ := ran
    rw [ended] at kept
    obtain ⟨j, same⟩ := kept unwritten.traced
    have unchanged : again.disk = fs.disk := by simpa [Disk.run] using same
    have listing : again.dir = fs.dir := by
      rw [dir, unchanged]
      exact synced.symm
    have shows (g : File) (r : Nat) : again.shows g r = fs.shows g r := by
      rw [ImageFs.shows, ImageFs.shows, found.format, listing, unchanged]
    refine ⟨fun g _ => ⟨by rw [listing], shows g⟩, fun r _ => .inl (shows f r), ?_⟩
    intro e member number named _ unknown
    exact absurd named (unknown e (listing ▸ member))
  | idle => cases planOf_idle planned
  | batch changes => cases planOf_batch planned
  | edit e =>
    rw [planned] at ran
    obtain ⟨j, same⟩ : ∃ j, again.disk = fs.disk.run (e.steps.take j) := by
      rcases ran with ⟨media, ended, moved⟩ | ⟨reason, media, k, used, ended, _, _, moved⟩
      · rw [ended] at kept
        exact kept moved
      · rw [ended] at kept
        obtain ⟨j, same⟩ := kept moved
        exact ⟨min j k, by rw [same, List.take_take]⟩
    obtain ⟨index, raw, block, fresh, rfl, writes⟩ := (planOf_edit planned).writes owned valid
    exact writes.survives owned valid synced alone small j found.format same dir

/-- The medium that only the first so many writes of a run reached. -/
def keptWrites (before after : Media) (n : Nat) : Media :=
  { after with contents := applyWrites ((after.log.drop before.log.length).take n) before.contents }

/-- A run of which only the first writes were kept was interrupted. -/
theorem interrupted_kept {fs : ImageFs} (valid : fs.Valid) (op : Operation) (n : Nat) :
    Interrupted fs.media (op.run fs).2.media (keptWrites fs.media (op.run fs).2.media n) := by
  obtain ⟨steps, moved⟩ := (run_kept valid op).moved
  obtain ⟨writes, log, _⟩ := moved.writes
  exact ⟨moved.length, writes, n, log, by rw [keptWrites, log, List.drop_left]⟩

/-- A run that lost no write is one that kept its first writes. -/
theorem interrupted_whole {fs : ImageFs} (valid : fs.Valid) (op : Operation) :
    Interrupted fs.media (op.run fs).2.media (op.run fs).2.media := by
  obtain ⟨steps, moved⟩ := (run_kept valid op).moved
  obtain ⟨writes, log, contents, _⟩ := moved.writes
  exact ⟨moved.length, writes, writes.length, log, by rw [List.take_length]; exact contents⟩

/-- An `ibm3740` image of one file of one record. -/
def oneFile : Media :=
  erasedMedia ibm3740 [firstEntry ibm3740 (entryA 1 fun i => if i.val = 0 then 2 else 0)]

/-- The theorem at work: a write that claims a second block for a file of one record, of whose nine
writes the first five were kept. -/
theorem write_record_survives_grown :
    ∃ fs again, Reachable oneFile ibm3740 fs ∧
      ((Operation.writeRecord fileA 8 fun _ => 0x1A).run fs).2.media.log.length = 9 ∧
      mount (keptWrites fs.media ((Operation.writeRecord fileA 8 fun _ => 0x1A).run fs).2.media 5)
        fs.fmt false = .ok again ∧
      Survives fs again fileA 8 fun _ => 0x1A := by
  have sound := formats_sound ibm3740 (by simp [formats])
  have checked : mountsTo oneFile ibm3740 (fun fs =>
      ((Operation.writeRecord fileA 8 fun _ => 0x1A).run fs).2.media.log.length == 9) = true := by
    decide +kernel
  obtain ⟨fs, mounted, reachable, nine⟩ := mountsTo_reachable checked
  obtain ⟨valid, _, _⟩ := reachable.kept sound
  have healthy : oneFile.Healthy := fun _ _ => rfl
  obtain ⟨_, synced, _⟩ := reachable.healthy sound healthy
  have single : ∀ i < ibm3740.dirEntries, ((diskOf ibm3740 oneFile.contents).entry i).Live →
      i = 0 := by decide +kernel
  have alone : Alone fs.fmt fs.disk fileA := by
    have found := mount_ok sound mounted
    rw [ImageFs.disk, found.format, found.unwritten.contents]
    intro i hi j hj one two _
    rw [single i hi one.1, single j hj two.1]
  obtain ⟨well, _⟩ := (reachable.step (.writeRecord fileA 8 fun _ => 0x1A)).healthy sound healthy
  have survives := write_record_survives (by simp [formats]) reachable synced (fun _ => 0x1A) alone
    (by decide : 8 < 2048 * recordsPerExtent) (interrupted_kept valid _ 5) false
  obtain ⟨again, mounted'⟩ := survives.1 well
  exact ⟨fs, again, reachable, eq_of_beq nine, mounted', survives.2 again mounted'⟩

/-- Every other record of the target is read as before, or was no record and is zeros. -/
def KeepsTarget (fs : ImageFs) (f : File) (record : Nat) (data : Record) : Prop :=
  ∀ left again, Interrupted fs.media ((Operation.writeRecord f record data).run fs).2.media left →
    mount left fs.fmt false = .ok again → ∀ r ≠ record, again.shows f r = fs.shows f r ∨
      fs.shows f r = .ok none ∧ again.shows f r = .ok (some fun _ => 0)

/-- The first byte of the record a read returned. -/
def leading : Except IoError (Option Record) → Option UInt8
  | .ok (some data) => (List.ofFn data).head?
  | _ => none

/-- After a whole write a record starts with another byte than it did, and not with the zero of
a record that was none. -/
def showsOtherwise (f : File) (record r : Nat) (data : Record) (fs : ImageFs) : Bool :=
  match mount ((Operation.writeRecord f record data).run fs).2.media fs.fmt false with
  | .ok again =>
    leading (again.shows f r) != leading (fs.shows f r) &&
      !(leading (fs.shows f r) == none && leading (again.shows f r) == some 0)
  | .error _ => false

/-- Such a write does not keep the target. -/
theorem keepsTarget_fails {media : Media} {fmt : Format} (sound : fmt.Sound) {f : File}
    {record r : Nat} {data : Record} (other : r ≠ record)
    (checked : mountsTo media fmt (showsOtherwise f record r data) = true) :
    ∃ fs, Reachable media fmt fs ∧ ¬ KeepsTarget fs f record data := by
  obtain ⟨fs, _, reachable, held⟩ := mountsTo_reachable checked
  refine ⟨fs, reachable, fun keeps => ?_⟩
  have cut := interrupted_whole (reachable.kept sound).1 (.writeRecord f record data)
  rw [showsOtherwise] at held
  split at held
  · rename_i again mounted
    rw [Bool.and_eq_true] at held
    rcases keeps _ again cut mounted r other with same | ⟨none, zero⟩
    · rw [same] at held
      simp at held
    · rw [none, zero] at held
      simp [leading] at held
  · cases held

/-- A file of one record whose block holds what an erased disk does. -/
def twoGroups : Media :=
  erasedMedia ibm3740 [⟨ibm3740.offset 0, 128, putEntry (putEntry (fun _ => fill) (Fin.last 3)
    (entryA 10 fun i => if i.val = 0 then 2 else 0)) (Fin.last 2).castSucc (entryA 5 fun _ => 0)⟩]

/-- A file of one record whose entry has free ones before it. -/
def lateEntry : Media :=
  erasedMedia ibm3740 [⟨ibm3740.offset 0, 128, putEntry (fun _ => fill) (Fin.last 3)
    (entryA 1 fun i => if i.val = 0 then 2 else 0)⟩]

/-- A whole write may leave another record of the target neither as it was nor zero: one that the
entry grew over in a block of its own, one that a second entry of the group held, and one that
an extent number past the last an entry holds wrapped onto. -/
theorem target_changed :
    (∃ fs, Reachable oneFile ibm3740 fs ∧ ¬ KeepsTarget fs fileA 3 fun _ => 0x1A) ∧
    (∃ fs, Reachable twoGroups ibm3740 fs ∧ ¬ KeepsTarget fs fileA 6 fun _ => 0x1A) ∧
    (∃ fs, Reachable lateEntry ibm3740 fs ∧ ¬ KeepsTarget fs fileA 262144 fun _ => 0x1A) := by
  have sound := formats_sound ibm3740 (by simp [formats])
  refine ⟨keepsTarget_fails (r := 1) sound (by decide) (by decide +kernel),
    keepsTarget_fails (r := 5) sound (by decide) (by decide +kernel),
    keepsTarget_fails (r := 0) sound (by decide) (by decide +kernel)⟩

end EthernetGateway.Image
