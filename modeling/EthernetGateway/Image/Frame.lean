import EthernetGateway.Image.Edited

/-!
# What an operation leaves alone

An operation touches the entries of the files it is about, free entries, and blocks that no
other entry names. So the plan of an operation leaves every entry of every other file, and every
record of the blocks those name; and reads of other files return what they returned.
-/

namespace EthernetGateway.Image

/-- The files an operation is about. -/
def Operation.files : Operation → List File
  | .create f => [f]
  | .writeRecord f _ _ => [f]
  | .delete f => [f]
  | .rename f name ext => [f, ⟨f.user, name, ext⟩]
  | .setReadOnly f _ => [f]
  | .truncate f _ => [f]

/-- An operation on plain files and record numbers below 65536. -/
def Operation.Plain : Operation → Prop
  | .create f => f.Plain
  | .writeRecord f record _ => f.Plain ∧ record < 65536
  | .delete f => f.Plain
  | .rename f name ext => f.Plain ∧ File.Plain ⟨f.user, name, ext⟩
  | .setReadOnly f _ => f.Plain
  | .truncate f records => f.Plain ∧ records ≤ 65536

/-- Such an operation is about plain files. -/
theorem Operation.Plain.files {op : Operation} (plain : op.Plain) : ∀ f ∈ op.files, f.Plain := by
  intro f member
  cases op with
  | rename g name ext =>
    rcases List.mem_cons.mp member with rfl | renamed
    · exact plain.1
    · exact List.mem_singleton.mp renamed ▸ plain.2
  | create _ => exact List.mem_singleton.mp member ▸ plain
  | writeRecord _ _ _ => exact List.mem_singleton.mp member ▸ plain.1
  | delete _ => exact List.mem_singleton.mp member ▸ plain
  | setReadOnly _ _ => exact List.mem_singleton.mp member ▸ plain
  | truncate _ _ => exact List.mem_singleton.mp member ▸ plain.1

/-! ## Steps -/

/-- A step that leaves a record. -/
def DiskStep.Apart (record : Nat) : DiskStep → Prop
  | .write other _ => other ≠ record
  | .edit index _ => index / entriesPerRecord ≠ record

/-- Steps that leave a record leave it. -/
theorem Disk.run_apart (disk : Disk) (steps : List DiskStep) {record : Nat}
    (apart : ∀ step ∈ steps, step.Apart record) : disk.run steps record = disk record := by
  induction steps generalizing disk with
  | nil => rfl
  | cons step steps ih =>
    rw [Disk.run, Medium.runSteps_cons]
    refine (ih _ fun later member => apart later (List.mem_cons_of_mem _ member)).trans ?_
    have first := apart step List.mem_cons_self
    cases step with
    | write other data => rw [DiskStep.write_apply, if_neg (Ne.symm first)]
    | edit index raw => rw [DiskStep.edit_apply, if_neg (Ne.symm first)]

/-- Records of two blocks are apart. -/
theorem blockRecord_ne {fmt : Format} {block other offset place : Nat} (different : block ≠ other)
    (within : offset < (Params.derive fmt).recordsPerBlock)
    (inside : place < (Params.derive fmt).recordsPerBlock) :
    fmt.blockRecord block offset ≠ fmt.blockRecord other place := by
  rw [Format.blockRecord, Format.blockRecord]
  rcases Nat.lt_or_gt_of_ne different with less | more
  · have scaled := Nat.mul_le_mul_right (Params.derive fmt).recordsPerBlock less
    rw [Nat.succ_mul] at scaled
    omega
  · have scaled := Nat.mul_le_mul_right (Params.derive fmt).recordsPerBlock more
    rw [Nat.succ_mul] at scaled
    omega

/-- Edits of entries leave the records outside the directory. -/
theorem edits_apart {fmt : Format} {changes : List Change} (value : Change → RawEntry)
    (inside : ∀ change ∈ changes, change.index < fmt.dirEntries) {record : Nat}
    (outside : fmt.dirRecords ≤ record) :
    ∀ step ∈ changes.map (fun change => DiskStep.edit change.index (value change)),
      step.Apart record := by
  intro step member
  obtain ⟨change, listed, rfl⟩ := List.mem_map.mp member
  exact Nat.ne_of_lt (Nat.lt_of_lt_of_le (Format.entryRecord_lt (inside change listed)) outside)

section Operations

variable {fs : ImageFs} {start : Disk} {names : Nat → Nat → Prop}

/-! ## Entries -/

/-- The entries after an edit: the one edited, and all others as before. -/
theorem Edits.entry (owned : fs.Owned start names) (valid : fs.Valid) {op : Operation} {e : Edit}
    (edits : Edits fs op e) {index : Nat} (inside : index < fs.fmt.dirEntries) :
    (fs.disk.run e.steps).entry index = if index = e.index then e.raw else fs.disk.entry index := by
  have split : fs.disk.run e.steps = DiskStep.apply (.edit e.index e.raw) (fs.disk.run e.data) := by
    rw [Edit.steps, Disk.run, Medium.runSteps_append]
    rfl
  rw [split, Disk.entry_edit]
  split
  · rfl
  · exact Disk.entry_run_outside _ _ (edits.data_outside owned valid) inside

/-- The entry a write starts from belongs to its file, and so does the one at its index if that
is live. -/
theorem planTarget_file (synced : fs.Synced) (valid : fs.Valid) {f : File} (plain : f.Plain)
    {base index : Nat} {raw : RawEntry} (target : planTarget fs f base = some (index, raw)) :
    raw.file = f ∧ ((fs.disk.entry index).Live → (fs.disk.entry index).file = f) := by
  rcases planTarget_some target with ⟨e, found, rfl, rfl⟩ | ⟨_, free, rfl⟩
  · obtain ⟨listed, file, _⟩ := entryFor_some found
    obtain ⟨_, entry, _⟩ := synced.entry listed
    have own : e.raw.file = f := by
      rw [← file, (valid.listed e listed).2.2]
      rfl
    exact ⟨own, fun _ => by rw [entry, own]⟩
  · refine ⟨newRawEntry_file plain base, fun live => ?_⟩
    have unfree := live.1
    rw [(freeOf_some free).2.1] at unfree
    cases unfree

/-- The entry an edit puts down, and the live one it replaces, belong to the operation's file. -/
theorem Edits.files (synced : fs.Synced) (valid : fs.Valid) {op : Operation}
    (plain : ∀ f ∈ op.files, f.Plain) {e : Edit} (edits : Edits fs op e) {g : File} (other : g ∉ op.files) :
    ¬ (fs.disk.entry e.index).Of g ∧ ¬ e.raw.Of g := by
  have apart {f : File} {raw : RawEntry} (outside : g ∉ [f]) (same : raw.Live → raw.file = f) :
      ¬ raw.Of g := fun own => outside (List.mem_singleton.mpr (own.2 ▸ same own.1))
  have named {f : File} (only : op.files = [f]) : f.Plain := plain f (by simp [only])
  cases edits with
  | create _ _ free =>
    refine ⟨fun own => ?_, apart other fun _ => newRawEntry_file (named rfl) 0⟩
    have unfree := own.1.1
    rw [(freeOf_some free).2.1] at unfree
    cases unfree
  | fresh _ target _ _ =>
    obtain ⟨file, replaced⟩ := planTarget_file synced valid (named rfl) target
    exact ⟨apart other replaced, apart other fun _ => planEdit_file.trans file⟩
  | owned _ target _ _ _ =>
    obtain ⟨file, replaced⟩ := planTarget_file synced valid (named rfl) target
    exact ⟨apart other replaced, apart other fun _ => planEdit_file.trans file⟩

/-- What a change of a batch makes of an entry of the operation's file: nothing that is read as
a file, or an entry of the same file, or of the new name. -/
theorem Batches.file (valid : fs.Valid) {op : Operation} {changes : List Change}
    (batches : Batches fs op changes) {change : Change} (member : change ∈ changes) :
    change.old.file ∈ op.files ∧ change.old.Live ∧
      (¬ change.new.Live ∨ change.new.file = change.old.file ∨
        ∃ f name ext, op = .rename f name ext ∧ change.old.file = f ∧
          change.new.file = ⟨f.user, strip name, strip ext⟩) := by
  have erased (raw : RawEntry) : ¬ raw.erased.Live := fun live => by
    have free := live.1
    simp [RawEntry.isFree, RawEntry.erased] at free
  have own {f : File} {e : DirSlot} (listed : e ∈ fs.dir) (file : e.file = f) :
      e.raw.file = f ∧ e.raw.Live := by
    obtain ⟨_, live, slot⟩ := valid.listed e listed
    rw [← file, slot]
    exact ⟨rfl, live⟩
  have entryOf {f : File} {e : DirSlot} (listed : e ∈ entriesOf fs.dir f) :
      e.raw.file = f ∧ e.raw.Live := by
    obtain ⟨known, file⟩ := List.mem_filter.mp listed
    exact own known (by simpa using file)
  cases batches with
  | delete =>
    obtain ⟨e, listed, rfl⟩ := List.mem_map.mp member
    obtain ⟨file, live⟩ := entryOf listed
    exact ⟨by simp [Operation.files, file], live, .inl (erased _)⟩
  | @rename f name ext =>
    obtain ⟨e, listed, rfl⟩ := List.mem_map.mp member
    obtain ⟨file, live⟩ := entryOf listed
    refine ⟨by simp [Operation.files, file], live, .inr (.inr ⟨f, name, ext, rfl, file, ?_⟩)⟩
    rw [RawEntry.renamed_file, ← file]
    rfl
  | setReadOnly =>
    obtain ⟨e, listed, rfl⟩ := List.mem_map.mp member
    obtain ⟨file, live⟩ := entryOf listed
    exact ⟨by simp [Operation.files, file], live, .inr (.inl (e.raw.withLock_file _))⟩
  | truncate =>
    obtain ⟨e, listed, changed⟩ := List.mem_filterMap.mp member
    obtain ⟨known, file⟩ := mem_extentsOf.mp listed
    obtain ⟨own, live⟩ := own known file
    obtain ⟨_, old, new⟩ := truncateChange_some changed
    rw [old]
    refine ⟨by simp [Operation.files, own], live, ?_⟩
    rcases new with ⟨new, _⟩ | ⟨new, _⟩
    · rw [new]
      exact .inl (erased _)
    · rw [new]
      exact .inr (.inl (e.raw.cut_file _ _))

/-- The plan of an operation leaves every entry of another file, and puts down none. -/
theorem plan_entries (owned : fs.Owned start names) (valid : fs.Valid) (synced : fs.Synced)
    {op : Operation} (plain : op.Plain) {g : File} (other : g ∉ op.files) {index : Nat}
    (inside : index < fs.fmt.dirEntries) :
    (fs.disk.run (planOf fs op).steps).entry index = fs.disk.entry index ∨
      (¬ (fs.disk.entry index).Of g ∧
        ¬ ((fs.disk.run (planOf fs op).steps).entry index).Of g) := by
  cases planned : planOf fs op with
  | refuse => exact .inl rfl
  | idle => exact .inl rfl
  | edit e =>
    have edits := planOf_edit planned
    rw [Plan.steps, edits.entry owned valid inside]
    by_cases here : index = e.index
    · rw [if_pos here, here]
      exact .inr (edits.files synced valid plain.files other)
    · rw [if_neg here]
      exact .inl rfl
  | batch changes =>
    have batches := planOf_batch planned
    have distinct := batches.distinct valid
    by_cases changed : ∃ change ∈ changes, change.index = index
    · obtain ⟨change, member, rfl⟩ := changed
      rw [Plan.steps, Disk.entry_run_mem _ _ Change.new distinct member]
      obtain ⟨e, listed, place, old⟩ := batches.entry member
      obtain ⟨_, entry, _⟩ := synced.entry listed
      obtain ⟨file, _, new⟩ := batches.file valid member
      rw [place, entry, ← old]
      refine .inr ⟨fun own => other (own.2 ▸ file), fun own => ?_⟩
      rcases new with dead | same | ⟨f, name, ext, rfl, _, moved⟩
      · exact dead own.1
      · exact other (own.2 ▸ same ▸ file)
      · have nameKept : strip name = name := plain.2.name
        have extKept : strip ext = ext := plain.2.ext
        rw [nameKept, extKept] at moved
        exact other (own.2 ▸ moved ▸ by simp [Operation.files])
    · exact .inl (Disk.entry_run_other _ _ _ fun change member same =>
        changed ⟨change, member, same⟩)

/-! ## Records -/

/-- An edit leaves the records of blocks that other entries name. -/
theorem Edits.record (owned : fs.Owned start names) (valid : fs.Valid) {op : Operation} {e : Edit}
    (edits : Edits fs op e) {index block offset : Nat} (inside : index < fs.fmt.dirEntries)
    (live : (fs.disk.entry index).Live)
    (named : block ∈ (fs.disk.entry index).named (Params.derive fs.fmt))
    (other : index ≠ e.index) (within : offset < (Params.derive fs.fmt).recordsPerBlock) (j : Nat) :
    fs.disk.run (e.steps.take j) (fs.fmt.blockRecord block offset) =
      fs.disk (fs.fmt.blockRecord block offset) := by
  obtain ⟨ledger, claimed, _, data⟩ := edits.ledger owned valid
  have promised := (claimed.medium index inside live).2 block named
  apply Disk.run_apart
  intro step member
  rcases List.mem_append.mp (List.mem_of_mem_take member) with written | edited
  · obtain ⟨target, place, bytes, rfl, below, owner⟩ := data step written
    refine (blockRecord_ne (fun same => ?_) within below).symm
    exact other (claimed.apart _ _ block promised (same ▸ owner))
  · rw [List.mem_singleton] at edited
    subst edited
    exact Nat.ne_of_lt (Nat.lt_of_lt_of_le (Format.entryRecord_lt (edits.inside valid))
      (blockRecord_outside valid.sound (claimed.bounded _ _ promised).1 offset))

/-- The plan of an operation leaves the records of another file's blocks. -/
theorem plan_records (owned : fs.Owned start names) (valid : fs.Valid) (synced : fs.Synced)
    {op : Operation} (plain : op.Plain) {g : File} (other : g ∉ op.files) {index block offset : Nat}
    (inside : index < fs.fmt.dirEntries) (own : (fs.disk.entry index).Of g)
    (named : block ∈ (fs.disk.entry index).named (Params.derive fs.fmt))
    (within : offset < (Params.derive fs.fmt).recordsPerBlock) :
    fs.disk.run (planOf fs op).steps (fs.fmt.blockRecord block offset) =
      fs.disk (fs.fmt.blockRecord block offset) := by
  cases planned : planOf fs op with
  | refuse => rfl
  | idle => rfl
  | edit e =>
    have edits := planOf_edit planned
    have apart : index ≠ e.index := fun same =>
      (edits.files synced valid plain.files other).1 (same ▸ own)
    have kept := edits.record owned valid inside own.1 named apart within e.steps.length
    rwa [List.take_length] at kept
  | batch changes =>
    have bounded := owned.bounded index block ((owned.medium index inside own.1).2 block named)
    exact Disk.run_apart _ _ (edits_apart Change.new ((planOf_batch planned).inside valid)
      (blockRecord_outside valid.sound bounded.1 offset))

/-! ## Other files -/

/-- Stores that differ in no entry of a file list it the same. -/
theorem entriesOf_directoryOf_congr {fmt : Format} {left right : Disk} {g : File}
    (same : ∀ index < fmt.dirEntries, left.entry index = right.entry index ∨
      (¬ (right.entry index).Of g ∧ ¬ (left.entry index).Of g)) :
    entriesOf (directoryOf fmt left) g = entriesOf (directoryOf fmt right) g := by
  rw [entriesOf, entriesOf, directoryOf, directoryOf, List.filter_filterMap,
    List.filter_filterMap]
  apply List.filterMap_congr
  intro index member
  have unlisted {raw : RawEntry} (foreign : ¬ raw.Of g) :
      (parseEntry index raw (Params.derive fmt)).filter (fun e => decide (e.file = g)) = none := by
    rw [parseEntry_eq]
    split
    · rename_i live
      have apart : raw.file ≠ g := fun file => foreign ⟨live, file⟩
      exact if_neg (by rw [decide_eq_true_eq]; exact apart)
    · rfl
  rcases same index (List.mem_range.mp member) with equal | ⟨one, two⟩
  · rw [equal]
  · rw [unlisted one, unlisted two]

/-- The plan of an operation leaves what reads of another file return, and its length. -/
theorem plan_reads (owned : fs.Owned start names) (valid : fs.Valid) (synced : fs.Synced)
    {op : Operation} (plain : op.Plain) {g : File} (other : g ∉ op.files) :
    (∀ record, reads fs.fmt (directoryOf fs.fmt (fs.disk.run (planOf fs op).steps))
      (fs.disk.run (planOf fs op).steps) g record = reads fs.fmt fs.dir fs.disk g record) ∧
    fileRecords fs.params (directoryOf fs.fmt (fs.disk.run (planOf fs op).steps)) g =
      fileRecords fs.params fs.dir g := by
  have entries : entriesOf (directoryOf fs.fmt (fs.disk.run (planOf fs op).steps)) g =
      entriesOf fs.dir g := by
    rw [show fs.dir = directoryOf fs.fmt fs.disk from synced]
    exact entriesOf_directoryOf_congr fun index inside =>
      plan_entries owned valid synced plain other inside
  refine ⟨reads_congr entries ?_ valid.sound.block, fileRecords_congr entries⟩
  intro e listed file block member positive offset within
  obtain ⟨inside, entry, live⟩ := synced.entry listed
  have slot := (valid.listed e listed).2.2
  rw [slot] at member file
  exact plan_records owned valid synced plain other inside ⟨entry ▸ live, entry ▸ file⟩
    (entry ▸ RawEntry.mem_named.mpr ⟨member, positive⟩) within

end Operations

end EthernetGateway.Image
