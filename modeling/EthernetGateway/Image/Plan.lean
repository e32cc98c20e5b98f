import EthernetGateway.Image.Mount

/-!
# What an operation sets out to do

An operation decides on its list of entries and the medium's first free entry, and then either
refuses, or edits one entry after writing data, or changes several entries as one. The plan is
that decision as a function of the state. Every run of an operation, whatever the medium does
to it, is a run of its plan: this is the one place where the operations are taken apart.
-/

namespace EthernetGateway.Image

/-- What every filesystem state keeps: a sound format, an image long enough for it, a bitmap
of its blocks, and a list of parsed live entries in directory order. -/
structure ImageFs.Valid (fs : ImageFs) : Prop where
  /-- The format is sound. -/
  sound : fs.fmt.Sound
  /-- The image is long enough. -/
  long : fs.fmt.minBytes ≤ fs.media.length
  /-- The bitmap has one flag for each block. -/
  sized : fs.used.length = fs.params.maxBlock + 1
  /-- The list holds parsed live entries of the directory. -/
  listed : ∀ e ∈ fs.dir, e.index < fs.fmt.dirEntries ∧ e.raw.Live ∧
    e = e.raw.slot e.index fs.params
  /-- The list is in directory order. -/
  ordered : fs.dir.Pairwise fun left right => left.index < right.index

/-- The records a filesystem's medium holds. -/
def ImageFs.disk (fs : ImageFs) : Disk := diskOf fs.fmt fs.media.contents

/-- What the medium shows after steps. -/
theorem ImageFs.disk_moved {fs : ImageFs} {media : Media} {steps : List DiskStep}
    (moved : Moved fs.fmt fs.media media steps) :
    diskOf fs.fmt media.contents = fs.disk.run steps := moved.look_eq

/-- One entry to edit, with the data to write before it and the block claimed for that. -/
structure Edit where
  /-- Index of the entry. -/
  index : Nat
  /-- The entry as it should be. -/
  raw : RawEntry
  /-- The block claimed, if one was. -/
  claimed : Option Nat
  /-- The data written first. -/
  data : List DiskStep

/-- Everything an edit writes, in order. -/
def Edit.steps (e : Edit) : List DiskStep := e.data ++ [.edit e.index e.raw]

/-- What an operation sets out to do. -/
inductive Plan where
  /-- End with an error, nothing written. -/
  | refuse
  /-- End well, nothing done. -/
  | idle
  /-- Write data and one entry. -/
  | edit (e : Edit)
  /-- Change several entries as one. -/
  | batch (changes : List Change)

/-! ## The plans -/

/-- The entry a write of a record edits. -/
def planTarget (fs : ImageFs) (f : File) (base : Nat) : Option (Nat × RawEntry) :=
  match entryFor fs.params fs.dir f base with
  | some e => some (e.index, e.raw)
  | none => (freeOf fs.fmt fs.disk).map fun index => (index, newRawEntry f base)

/-- The zeros written over the records of a fresh block beside the one written. -/
def zeroSteps (fmt : Format) (block : Nat) (records : List Nat) : List DiskStep :=
  records.map fun record => .write (fmt.blockRecord block record) fun _ => 0

/-- The edit of a write into a block, fresh or not. -/
def planEdit (fs : ImageFs) (record : Nat) (data : Record) (index : Nat) (raw : RawEntry)
    (block : Nat) (fresh : Bool) : Edit :=
  let base := baseExtent fs.params record
  let within := withinEntry fs.params record
  let slot := within / fs.params.recordsPerBlock
  let offsetInBlock := within % fs.params.recordsPerBlock
  let blocks := decodeBlocks raw fs.params
  { index
    raw := (encodeBlocks raw (if fresh then blocks.set slot block else blocks) fs.params).grown
      fs.params base within
    claimed := if fresh then some block else none
    data := (if fresh then zeroSteps fs.fmt block (otherRecords fs.params offsetInBlock) else []) ++
      [.write (fs.fmt.blockRecord block offsetInBlock) data] }

/-- The plan of `write_record` once its entry is known. -/
def planBlock (fs : ImageFs) (record : Nat) (data : Record) (index : Nat) (raw : RawEntry) : Plan :=
  match (decodeBlocks raw fs.params)[withinEntry fs.params record / fs.params.recordsPerBlock]? with
  | none => .refuse
  | some 0 =>
    match freeBlock fs.params fs.used with
    | none => .refuse
    | some block => .edit (planEdit fs record data index raw block true)
  | some block =>
    if block > fs.params.maxBlock then .refuse
    else .edit (planEdit fs record data index raw block false)

/-- The plan of `write_record`. -/
def planWrite (fs : ImageFs) (f : File) (record : Nat) (data : Record) : Plan :=
  if ¬ existsFile fs.dir f then .refuse
  else if (findEntry fs.dir f).any (·.readOnly) then .refuse
  else
    match planTarget fs f (baseExtent fs.params record) with
    | none => .refuse
    | some (index, raw) => planBlock fs record data index raw

/-- The plan of an operation on a writable filesystem. -/
def planOf (fs : ImageFs) : Operation → Plan
  | .create f =>
    if ¬ PrintableName f.name f.ext then .refuse
    else if existsFile fs.dir f then .refuse
    else
      match freeOf fs.fmt fs.disk with
      | none => .refuse
      | some index => .edit ⟨index, newRawEntry f 0, none, []⟩
  | .writeRecord f record data => planWrite fs f record data
  | .delete f =>
    if (entriesOf fs.dir f).any (·.raw.locked) then .refuse
    else .batch (changesOf (entriesOf fs.dir f) RawEntry.erased)
  | .rename f name ext =>
    if ¬ PrintableName name ext then .refuse
    else if existsFile fs.dir ⟨f.user, name, ext⟩ then .refuse
    else if (entriesOf fs.dir f).isEmpty then .idle
    else if (entriesOf fs.dir f).any (·.raw.locked) then .refuse
    else .batch (changesOf (entriesOf fs.dir f) fun raw => raw.renamed name ext)
  | .setReadOnly f ro =>
    if (entriesOf fs.dir f).isEmpty then .idle
    else .batch (changesOf (entriesOf fs.dir f) fun raw => raw.withLock ro)
  | .truncate f records =>
    if (fileRecords fs.params fs.dir f).isNone then .idle
    else .batch ((extentsOf fs.dir f).filterMap (truncateChange fs.params records))

/-! ## Running a plan -/

/-- The bitmap once a block was claimed. -/
def ImageFs.marked (fs : ImageFs) : Option Nat → List Bool
  | none => fs.used
  | some block => fs.used.set block true

/-- The filesystem on another medium with another bitmap. -/
def ImageFs.onto (fs : ImageFs) (media : Media) (used : List Bool) : ImageFs :=
  { fs with media, used }

/-- The filesystem after its directory was read again from a medium. -/
def ImageFs.reloaded (fs : ImageFs) (media : Media) : ImageFs :=
  rebuildBitmap { fs with
    media
    dir := directoryOf fs.fmt (diskOf fs.fmt media.contents)
    foreign := foreignOf fs.fmt (diskOf fs.fmt media.contents) }

/-- How the part of an edit before its directory step can end: its data written, or cut short
by a fault. -/
def Edit.Prepared (fs : ImageFs) (e : Edit) (ran : Except IoError (Nat × RawEntry) × ImageFs) :
    Prop :=
  (∃ media, ran = (.ok (e.index, e.raw), fs.onto media (fs.marked e.claimed)) ∧
    Moved fs.fmt fs.media media e.data) ∨
  (∃ reason media j used, ran = (.error reason, fs.onto media used) ∧
    (used = fs.used ∧ j = 0 ∨ used = fs.marked e.claimed) ∧ Medium.Faulted fs.media media ∧
    Moved fs.fmt fs.media media (e.data.take j))

/-- How an edit can end: made and folded into memory, or cut short by a fault, the steps
before it made and memory untouched but for the claimed block. -/
def Edit.Ran (fs : ImageFs) (e : Edit) (ran : Except IoError Unit × ImageFs) : Prop :=
  (∃ media, ran = (.ok (), applyEntry e.index e.raw (fs.onto media (fs.marked e.claimed))) ∧
    Moved fs.fmt fs.media media e.steps) ∨
  (∃ reason media j used, ran = (.error reason, fs.onto media used) ∧
    (used = fs.used ∧ j = 0 ∨ used = fs.marked e.claimed) ∧ Medium.Faulted fs.media media ∧
    Moved fs.fmt fs.media media (e.steps.take j))

/-- How a change of several entries can end: old and new entries of the change were written,
all of them the new ones if the writing went well, and then the directory was read again or
that reading failed. -/
def BatchRan (fs : ImageFs) (changes : List Change) (ran : Except IoError Unit × ImageFs) :
    Prop :=
  ∃ result middle steps media, Moved fs.fmt fs.media middle steps ∧
    (∀ step ∈ steps, ∃ change ∈ changes,
      step = .edit change.index change.old ∨ step = .edit change.index change.new) ∧
    (result = .ok () → steps = changes.map fun change => .edit change.index change.new) ∧
    (∀ reason, result = .error reason → Medium.Faulted fs.media middle) ∧
    Medium.Unwritten middle media ∧
    (ran = (result, fs.reloaded media) ∨
      ∃ reason, ran = (.error reason, fs.withMedia media) ∧ Medium.Faulted middle media)

/-- How the part of a plan before its directory step can end. -/
def Plan.Prepared (fs : ImageFs) (ran : Except IoError (Nat × RawEntry) × ImageFs) :
    Plan → Prop
  | .refuse => ∃ reason media, ran = (.error reason, fs.withMedia media) ∧
      Medium.Unwritten fs.media media
  | .edit e => e.Prepared fs ran
  | .idle => False
  | .batch _ => False

/-- How a plan can end. -/
def Plan.Ran (fs : ImageFs) (ran : Except IoError Unit × ImageFs) : Plan → Prop
  | .refuse => ∃ reason media, ran = (.error reason, fs.withMedia media) ∧
      Medium.Unwritten fs.media media
  | .idle => ran = (.ok (), fs)
  | .edit e => e.Ran fs ran
  | .batch changes => BatchRan fs changes ran

@[simp] theorem onMedia_run {α : Type} (program : MediaM α) (fs : ImageFs) :
    onMedia program fs = ((program fs.media).1, fs.withMedia (program fs.media).2) := rfl

/-! ## Several entries -/

/-- Writing the new entries never fails as a program: it says how far it came. -/
theorem writeNew_ran {fmt : Format} (sound : fmt.Sound) (changes : List Change)
    (inside : ∀ change ∈ changes, change.index < fmt.dirEntries) (media : Media)
    (long : fmt.minBytes ≤ media.length) :
    ∃ done result reached steps, writeNew fmt changes media = (.ok (done, result), reached) ∧
      Moved fmt media reached steps ∧
      (∀ step ∈ steps, ∃ change ∈ changes, step = .edit change.index change.new) ∧
      (result = .ok () → steps = changes.map fun change => .edit change.index change.new) ∧
      ∀ reason, result = .error reason → Medium.Faulted media reached := by
  induction changes generalizing media with
  | nil => exact ⟨0, .ok (), media, [], rfl, .refl media, by simp, fun _ => rfl, by simp⟩
  | cons change changes ih =>
    rw [writeNew, Fallible.bind_run, Fallible.attempt_run]
    rcases (writeDirEntry_makes sound media long (inside change List.mem_cons_self)
        change.new).traced with
      ⟨reached, ran, moved⟩ | ⟨reason, reached, j, ran, faulted, moved⟩
    · obtain ⟨done, result, last, steps, rest, moved', each, all, failed⟩ :=
        ih (fun later member => inside later (List.mem_cons_of_mem _ member)) reached
          (by rwa [moved.length])
      refine ⟨done + 1, result, last, .edit change.index change.new :: steps, ?_,
        moved.trans moved', ?_, ?_, ?_⟩
      · simp only [ran, Fallible.bind_run, rest, Fallible.pure_run]
      · intro step member
        rcases List.mem_cons.mp member with rfl | member
        · exact ⟨change, List.mem_cons_self, rfl⟩
        · obtain ⟨other, listed, same⟩ := each step member
          exact ⟨other, List.mem_cons_of_mem _ listed, same⟩
      · intro ok
        rw [all ok, List.map_cons]
      · intro reason error
        exact (failed reason error).precede moved.outcomes moved.calls
    · refine ⟨0, .error reason, reached, _, ?_, moved, ?_, by simp, fun _ _ => faulted⟩
      · simp only [ran, Fallible.pure_run]
      · intro step member
        have made := List.mem_of_mem_take member
        rw [List.mem_singleton] at made
        exact ⟨change, List.mem_cons_self, made⟩

/-- Writing old entries back never fails as a program. -/
theorem writeOld_ran {fmt : Format} (sound : fmt.Sound) (changes : List Change)
    (inside : ∀ change ∈ changes, change.index < fmt.dirEntries) (media : Media)
    (long : fmt.minBytes ≤ media.length) :
    ∃ reached steps, writeOld fmt changes media = (.ok (), reached) ∧
      Moved fmt media reached steps ∧
      ∀ step ∈ steps, ∃ change ∈ changes, step = .edit change.index change.old := by
  induction changes generalizing media with
  | nil => exact ⟨media, [], rfl, .refl media, by simp⟩
  | cons change changes ih =>
    obtain ⟨reached, first, moved, ran, own⟩ : ∃ reached first,
        Moved fmt media reached first ∧
        (writeDirEntry fmt change.index change.old media).2 = reached ∧
        ∀ step ∈ first, step = .edit change.index change.old := by
      rcases (writeDirEntry_makes sound media long (inside change List.mem_cons_self)
          change.old).traced with
        ⟨reached, ran, moved⟩ | ⟨reason, reached, j, ran, _, moved⟩
      · exact ⟨reached, _, moved, by rw [ran], by simp⟩
      · exact ⟨reached, _, moved, by rw [ran], fun step member => by
          simpa using List.mem_of_mem_take member⟩
    obtain ⟨last, steps, rest, moved', each⟩ :=
      ih (fun later member => inside later (List.mem_cons_of_mem _ member)) reached
        (by rwa [moved.length])
    refine ⟨last, first ++ steps, ?_, moved.trans moved', ?_⟩
    · rw [writeOld, Fallible.bind_run, Fallible.attempt_run]
      simp only [ran, rest]
    · intro step member
      rcases List.mem_append.mp member with member | member
      · exact ⟨change, List.mem_cons_self, own step member⟩
      · obtain ⟨other, listed, same⟩ := each step member
        exact ⟨other, List.mem_cons_of_mem _ listed, same⟩

/-- Writing entries with undo ends with a result and writes nothing but old and new entries of
the change. -/
theorem writeOrUndo_ran {fmt : Format} (sound : fmt.Sound) (changes : List Change)
    (inside : ∀ change ∈ changes, change.index < fmt.dirEntries) (media : Media)
    (long : fmt.minBytes ≤ media.length) :
    ∃ result reached steps, writeOrUndo fmt changes media = (.ok result, reached) ∧
      Moved fmt media reached steps ∧
      (∀ step ∈ steps, ∃ change ∈ changes,
        step = .edit change.index change.old ∨ step = .edit change.index change.new) ∧
      (result = .ok () → steps = changes.map fun change => .edit change.index change.new) ∧
      ∀ reason, result = .error reason → Medium.Faulted media reached := by
  obtain ⟨done, result, reached, steps, ran, moved, each, all, failed⟩ :=
    writeNew_ran sound changes inside media long
  rw [writeOrUndo, Fallible.bind_ok ran]
  cases result with
  | ok _ =>
    refine ⟨.ok (), reached, steps, rfl, moved, fun step member => ?_, fun _ => all rfl, by simp⟩
    obtain ⟨change, listed, same⟩ := each step member
    exact ⟨change, listed, .inr same⟩
  | error reason =>
    have taken : ∀ change ∈ (changes.take done).reverse, change ∈ changes := fun change member =>
      List.mem_of_mem_take (List.mem_reverse.mp member)
    obtain ⟨last, undone, ran', moved', each'⟩ := writeOld_ran sound (changes.take done).reverse
      (fun change member => inside change (taken change member)) reached (by rwa [moved.length])
    refine ⟨.error reason, last, steps ++ undone, ?_, moved.trans moved', ?_, by simp, ?_⟩
    · simp only [Fallible.bind_ok ran', Fallible.pure_run]
    · intro step member
      rcases List.mem_append.mp member with member | member
      · obtain ⟨change, listed, same⟩ := each step member
        exact ⟨change, listed, .inr same⟩
      · obtain ⟨change, listed, same⟩ := each' step member
        exact ⟨change, taken change listed, .inl same⟩
    · intro _ _
      exact (failed reason rfl).extend moved'.calls

/-- Reading the directory again replaces the lists and the bitmap, or fails and leaves them. -/
theorem reload_ran {fs : ImageFs} (valid : fs.Valid) :
    (∃ media, reload fs = (.ok (), fs.reloaded media) ∧ Medium.Unwritten fs.media media) ∨
    (∃ reason media, reload fs = (.error reason, fs.withMedia media) ∧
      Medium.Unwritten fs.media media ∧ Medium.Faulted fs.media media) := by
  rw [reload, Fallible.bind_run, Fallible.view_run]
  simp only [id_eq, Fallible.bind_run, onMedia_run]
  rcases (readDirectory_plays valid.sound fs.media valid.long).reads with
    ⟨media, ran, unwritten⟩ | ⟨reason, media, ran, unwritten, faulted⟩
  · left
    refine ⟨media, ?_, unwritten⟩
    simp only [ran, Fallible.change_run, ImageFs.withMedia, ImageFs.reloaded, unwritten.contents]
  · right
    exact ⟨reason, media, by simp only [ran], unwritten, faulted⟩

/-- A filesystem stays valid on a medium of the same length. -/
theorem ImageFs.Valid.withMedia {fs : ImageFs} (valid : fs.Valid) {media : Media}
    (length : media.length = fs.media.length) : (fs.withMedia media).Valid :=
  ⟨valid.sound, by simpa [ImageFs.withMedia, length] using valid.long, valid.sized, valid.listed,
    valid.ordered⟩

/-- A change of several entries runs as one. -/
theorem writeDirEntries_ran {fs : ImageFs} (valid : fs.Valid) (changes : List Change)
    (inside : ∀ change ∈ changes, change.index < fs.fmt.dirEntries) :
    BatchRan fs changes (writeDirEntries changes fs) := by
  obtain ⟨result, middle, steps, ran, moved, each, all, failed⟩ :=
    writeOrUndo_ran valid.sound changes inside fs.media valid.long
  rw [writeDirEntries, Fallible.bind_run, Fallible.view_run]
  simp only [id_eq, Fallible.bind_run, onMedia_run, ran, Fallible.attempt_run]
  have middleValid := valid.withMedia moved.length
  rcases reload_ran middleValid with
    ⟨media, again, unwritten⟩ | ⟨reason, media, again, unwritten, faulted⟩
  · refine ⟨result, middle, steps, media, moved, each, all, failed, unwritten, .inl ?_⟩
    rw [again]
    cases result <;> rfl
  · refine ⟨result, middle, steps, media, moved, each, all, failed, unwritten, .inr ?_⟩
    rw [again]
    cases result with
    | ok _ => exact ⟨reason, rfl, faulted⟩
    | error first => exact ⟨first, rfl, faulted⟩

/-! ## One entry -/

/-- A claimed block lies on the disk, outside the directory, and was free. -/
theorem freeBlock_some {params : Params} {used : List Bool} {block : Nat}
    (found : freeBlock params used = some block) :
    params.dirBlocks ≤ block ∧ block ≤ params.maxBlock ∧ used.getD block true = false := by
  have free := List.find?_some found
  have member := List.mem_range'_1.mp (List.mem_of_find?_eq_some found)
  exact ⟨member.1, by omega, by simpa using free⟩

/-- The directory occupies at least one block. -/
theorem Format.Sound.dirBlocks_pos {fmt : Format} (sound : fmt.Sound) :
    0 < (Params.derive fmt).dirBlocks := by
  have records := sound.directory.1
  have block := sound.block
  have same : (Params.derive fmt).dirRecords = fmt.dirRecords := rfl
  exact Nat.div_pos (by omega) block

/-- Zeroing records of a block makes one step for each. -/
theorem zeroRecords_makes {fmt : Format} (sound : fmt.Sound) {block : Nat} (positive : block ≠ 0)
    (known : block ≤ (Params.derive fmt).maxBlock) (records : List Nat)
    (within : ∀ record ∈ records, record < (Params.derive fmt).recordsPerBlock) (media : Media)
    (long : fmt.minBytes ≤ media.length) :
    Makes fmt (zeroRecords fmt block records) media (zeroSteps fmt block records) () := by
  induction records generalizing media with
  | nil => exact .pure media ()
  | cons record records ih =>
    exact (writeBlockRecord_makes sound media long positive known (within record List.mem_cons_self)
      _).bind fun reached moved =>
        ih (fun later member => within later (List.mem_cons_of_mem _ member)) reached
          (by rwa [moved.length])

/-- The data step of a write makes its data steps. -/
theorem writeData_makes {fmt : Format} (sound : fmt.Sound) {block offsetInBlock : Nat}
    (positive : block ≠ 0) (known : block ≤ (Params.derive fmt).maxBlock)
    (within : offsetInBlock < (Params.derive fmt).recordsPerBlock) (data : Record) (fresh : Bool)
    (media : Media) (long : fmt.minBytes ≤ media.length) :
    Makes fmt (writeData fmt block offsetInBlock data fresh) media
      ((if fresh then zeroSteps fmt block (otherRecords (Params.derive fmt) offsetInBlock) else []) ++
        [.write (fmt.blockRecord block offsetInBlock) data]) () := by
  have others : ∀ record ∈ otherRecords (Params.derive fmt) offsetInBlock,
      record < (Params.derive fmt).recordsPerBlock := fun record member =>
    List.mem_range.mp (List.mem_filter.mp member).1
  have pushed (reached : Media) (call : MediaM Unit)
      (plays : Medium.Plays call reached [.flush] ()) : Makes fmt call reached [] () :=
    ⟨_, plays, .silent rfl (.nil _)⟩
  have writing (reached : Media) (same : reached.length = media.length) :=
    writeBlockRecord_makes sound reached (by rwa [same]) positive known within data
  cases fresh with
  | true =>
    refine (zeroRecords_makes sound positive known _ others media long).bind fun reached moved => ?_
    exact (writing reached moved.length).bind fun last _ => pushed last sync (sync_plays last)
  | false => exact (writing media rfl).bind fun last _ => pushed last flush (flush_plays last)

/-- Writing the data of an edit prepares it. -/
theorem data_prepared {fs : ImageFs} {e : Edit} {program : MediaM Unit} {media : Media}
    (unwritten : Medium.Unwritten fs.media media) (makes : Makes fs.fmt program media e.data ()) :
    e.Prepared fs ((onMedia program >>= fun _ => pure (e.index, e.raw))
      (fs.onto media (fs.marked e.claimed))) := by
  simp only [Fallible.bind_run, onMedia_run, ImageFs.onto]
  have first : Moved fs.fmt fs.media media [] := unwritten.traced
  rcases makes.traced with ⟨middle, ran, moved⟩ | ⟨reason, reached, j, ran, faulted, moved⟩
  · left
    simp only [ran]
    exact ⟨middle, rfl, first.trans moved⟩
  · right
    simp only [ran]
    exact ⟨reason, reached, j, _, rfl, .inr rfl,
      faulted.precede unwritten.outcomes unwritten.calls, first.trans moved⟩

/-- An edit cut off before it wrote anything. -/
theorem Edit.prepared_unwritten {fs : ImageFs} (e : Edit) {reason : IoError} {media : Media}
    (unwritten : Medium.Unwritten fs.media media) (faulted : Medium.Faulted fs.media media) :
    e.Prepared fs (.error reason, fs.withMedia media) :=
  .inr ⟨reason, media, 0, fs.used, rfl, .inl ⟨rfl, rfl⟩, faulted, unwritten.traced⟩

/-- A filesystem stays valid on a medium of the same length with a bitmap of the same size. -/
theorem ImageFs.Valid.onto {fs : ImageFs} (valid : fs.Valid) {media : Media}
    (length : media.length = fs.media.length) {used : List Bool}
    (sized : used.length = fs.used.length) : (fs.onto media used).Valid :=
  ⟨valid.sound, by simpa [ImageFs.onto, length] using valid.long,
    sized.trans valid.sized, valid.listed, valid.ordered⟩

@[simp] theorem ImageFs.marked_length (fs : ImageFs) (claimed : Option Nat) :
    (fs.marked claimed).length = fs.used.length := by
  cases claimed <;> simp [ImageFs.marked]

/-- The directory step of a valid filesystem: the entry is written and folded into memory, or
the writing was cut short. -/
theorem commitEntry_ran {fs : ImageFs} (valid : fs.Valid) {index : Nat}
    (inside : index < fs.fmt.dirEntries) (raw : RawEntry) :
    (∃ media, commitEntry index raw fs = (.ok (), applyEntry index raw (fs.withMedia media)) ∧
      Moved fs.fmt fs.media media [.edit index raw]) ∨
    (∃ reason media j, commitEntry index raw fs = (.error reason, fs.withMedia media) ∧
      Medium.Faulted fs.media media ∧ Moved fs.fmt fs.media media ([DiskStep.edit index raw].take j)) := by
  simp only [commitEntry, Fallible.bind_run, Fallible.view_run, id_eq, onMedia_run]
  rcases (writeDirEntry_makes valid.sound fs.media valid.long inside raw).traced with
    ⟨last, ran, moved⟩ | ⟨reason, last, j, ran, faulted, moved⟩
  · left
    simp only [ran, Fallible.change_run]
    exact ⟨last, rfl, moved⟩
  · right
    simp only [ran]
    exact ⟨reason, last, j, rfl, faulted, moved⟩

/-- A prepared edit, its directory step made, ran. -/
theorem Edit.Prepared.ran {fs : ImageFs} (valid : fs.Valid) {e : Edit}
    {program : FsM (Nat × RawEntry)} (prepared : e.Prepared fs (program fs))
    (inside : e.index < fs.fmt.dirEntries) :
    e.Ran fs ((program >>= fun (index, raw) => commitEntry index raw) fs) := by
  rcases prepared with ⟨media, began, moved⟩ | ⟨reason, media, j, used, began, which, faulted, moved⟩
  · rw [Fallible.bind_ok began]
    have middle := valid.onto moved.length (fs.marked_length e.claimed)
    rcases commitEntry_ran middle inside e.raw with
      ⟨last, ran, moved'⟩ | ⟨reason, last, j, ran, faulted, moved'⟩
    · exact .inl ⟨last, ran, moved.trans moved'⟩
    · right
      refine ⟨reason, last, e.data.length + j, fs.marked e.claimed, ran, .inr rfl,
        faulted.precede moved.outcomes moved.calls, ?_⟩
      have steps : e.steps.take (e.data.length + j) =
          e.data ++ [DiskStep.edit e.index e.raw].take j := by
        rw [Edit.steps, List.take_append, List.take_of_length_le (by omega),
          Nat.add_sub_cancel_left]
      rw [steps]
      exact moved.trans moved'
  · rw [Fallible.bind_error began]
    refine .inr ⟨reason, media, min j e.data.length, used, rfl, ?_, faulted, ?_⟩
    · rcases which with ⟨same, rfl⟩ | same
      · exact .inl ⟨same, Nat.zero_min _⟩
      · exact .inr same
    · have steps : e.steps.take (min j e.data.length) = e.data.take j := by
        rw [Edit.steps, List.take_append_of_le_length (Nat.min_le_right _ _), ← List.take_take,
          List.take_length]
      rwa [steps]

/-- The name check lets printable names pass and ends the operation on others. -/
theorem checkName_run (name : Fin 8 → UInt8) (ext : Fin 3 → UInt8) (fs : ImageFs) :
    (PrintableName name ext →
      (Fallible.given (checkName name ext) : FsM Unit) fs = (.ok (), fs)) ∧
    (¬ PrintableName name ext →
      ∃ reason, (Fallible.given (checkName name ext) : FsM Unit) fs = (.error reason, fs)) := by
  rw [← checkName_ok_iff, Fallible.given_run]
  cases checkName name ext with
  | ok _ => exact ⟨fun _ => rfl, fun refused => absurd rfl refused⟩
  | error reason => exact ⟨fun passed => (nomatch passed), fun _ => ⟨reason, rfl⟩⟩

/-- The write check lets a writable mount pass. -/
theorem checkWritable_run {fs : ImageFs} (writable : fs.readOnly = false) :
    checkWritable fs = (.ok (), fs) := by
  rw [checkWritable, Fallible.bind_run, Fallible.view_run]
  simp only [id_eq, writable, Bool.false_eq_true, ↓reduceIte, Fallible.pure_run]

/-- The write check ends every operation on a read-only mount. -/
theorem checkWritable_refuses {fs : ImageFs} (readOnly : fs.readOnly = true) :
    ∃ reason, checkWritable fs = (.error reason, fs) := by
  rw [checkWritable, Fallible.bind_run, Fallible.view_run]
  simp only [id_eq, readOnly, ↓reduceIte, Fallible.fail_run]
  exact ⟨_, rfl⟩

/-- `create` prepares its plan. -/
theorem prepareCreate_prepared {fs : ImageFs} (valid : fs.Valid) (writable : fs.readOnly = false)
    (f : File) : (planOf fs (.create f)).Prepared fs (prepareCreate f fs) := by
  rw [prepareCreate, Fallible.bind_ok (checkWritable_run writable), planOf]
  by_cases printable : PrintableName f.name f.ext
  · rw [if_neg (not_not.mpr printable),
      Fallible.bind_ok ((checkName_run f.name f.ext fs).1 printable), Fallible.bind_run,
      Fallible.view_run]
    simp only [id_eq]
    cases there : existsFile fs.dir f with
    | true => exact ⟨_, fs.media, rfl, .refl _⟩
    | false =>
      simp only [Bool.false_eq_true, ↓reduceIte, Fallible.bind_run, onMedia_run]
      obtain ⟨visited, plays⟩ := freeDirSlot_plays valid.sound fs.media valid.long
      have shown : diskOf fs.fmt fs.media.contents = fs.disk := rfl
      rw [shown] at plays
      rcases plays.reads with ⟨media, ran, unwritten⟩ | ⟨reason, media, ran, unwritten, faulted⟩
      · simp only [ran]
        cases free : freeOf fs.fmt fs.disk with
        | none => exact ⟨_, media, rfl, unwritten⟩
        | some index => exact .inl ⟨media, rfl, unwritten.traced⟩
      · simp only [ran]
        cases free : freeOf fs.fmt fs.disk with
        | none => exact ⟨reason, media, rfl, unwritten⟩
        | some index => exact Edit.prepared_unwritten _ unwritten faulted
  · obtain ⟨reason, ran⟩ := (checkName_run f.name f.ext fs).2 printable
    rw [if_pos printable, Fallible.bind_error ran]
    exact ⟨_, fs.media, rfl, .refl _⟩

/-- Looking up the entry to edit only reads. -/
theorem targetEntry_ran {fs : ImageFs} (valid : fs.Valid) (f : File) (base : Nat) :
    match planTarget fs f base with
    | some target =>
      (∃ media, targetEntry f base fs = (.ok target, fs.withMedia media) ∧
        Medium.Unwritten fs.media media) ∨
      (∃ reason media, targetEntry f base fs = (.error reason, fs.withMedia media) ∧
        Medium.Unwritten fs.media media ∧ Medium.Faulted fs.media media)
    | none => ∃ reason media, targetEntry f base fs = (.error reason, fs.withMedia media) ∧
        Medium.Unwritten fs.media media := by
  rw [planTarget, targetEntry, Fallible.bind_run, Fallible.view_run]
  simp only [id_eq]
  cases entryFor fs.params fs.dir f base with
  | some e => exact .inl ⟨fs.media, rfl, .refl _⟩
  | none =>
    simp only [Fallible.bind_run, onMedia_run]
    obtain ⟨visited, plays⟩ := freeDirSlot_plays valid.sound fs.media valid.long
    have shown : diskOf fs.fmt fs.media.contents = fs.disk := rfl
    rw [shown] at plays
    rcases plays.reads with ⟨media, ran, unwritten⟩ | ⟨reason, media, ran, unwritten, faulted⟩
    · simp only [ran]
      cases freeOf fs.fmt fs.disk with
      | none => exact ⟨_, media, rfl, unwritten⟩
      | some index => exact .inl ⟨media, rfl, unwritten⟩
    · simp only [ran]
      cases freeOf fs.fmt fs.disk with
      | none => exact ⟨reason, media, rfl, unwritten⟩
      | some index => exact .inr ⟨reason, media, rfl, unwritten, faulted⟩

/-- The data step of `write_record` once its entry is known prepares its plan. -/
theorem writeBlock_prepared {fs : ImageFs} (valid : fs.Valid) (record : Nat) (data : Record)
    (index : Nat) (raw : RawEntry) {media : Media} (unwritten : Medium.Unwritten fs.media media) :
    (planBlock fs record data index raw).Prepared fs ((do
      let (block, blocks, fresh) ← targetBlock raw
        (withinEntry fs.params record / fs.params.recordsPerBlock)
      onMedia (writeData fs.fmt block (withinEntry fs.params record % fs.params.recordsPerBlock)
        data fresh)
      pure (index, (encodeBlocks raw blocks fs.params).grown fs.params
        (baseExtent fs.params record) (withinEntry fs.params record)) : FsM (Nat × RawEntry))
      (fs.withMedia media)) := by
  have sound := valid.sound
  have long : fs.fmt.minBytes ≤ media.length := unwritten.length ▸ valid.long
  have within : withinEntry fs.params record % fs.params.recordsPerBlock <
      fs.params.recordsPerBlock := Nat.mod_lt _ sound.block
  have params : (fs.withMedia media).params = fs.params := rfl
  have bitmap : (fs.withMedia media).used = fs.used := rfl
  rw [planBlock, Fallible.bind_run, targetBlock, Fallible.bind_run, Fallible.view_run]
  simp only [id_eq, params]
  cases slot : (decodeBlocks raw fs.params)[withinEntry fs.params record /
      fs.params.recordsPerBlock]? with
  | none => exact ⟨_, media, rfl, unwritten⟩
  | some block =>
    cases block with
    | zero =>
      -- The slot is empty: a block is claimed, zeroed and written.
      simp only [allocBlock, Fallible.bind_run, Fallible.view_run, id_eq, params, bitmap]
      cases free : freeBlock fs.params fs.used with
      | none => exact ⟨_, media, rfl, unwritten⟩
      | some block =>
        obtain ⟨low, high, _⟩ := freeBlock_some free
        have positive : block ≠ 0 := by
          have dir := sound.dirBlocks_pos
          rw [ImageFs.params] at low
          omega
        exact data_prepared (e := planEdit fs record data index raw block true) unwritten
          (writeData_makes sound positive high within data true media long)
    | succ block =>
      -- The slot names a block, which is written in place.
      by_cases past : block + 1 > fs.params.maxBlock
      · simp only [past, ↓reduceIte]
        exact ⟨_, media, rfl, unwritten⟩
      · simp only [past, ↓reduceIte]
        exact data_prepared (e := planEdit fs record data index raw (block + 1) false) unwritten
          (writeData_makes sound (Nat.succ_ne_zero block) (Nat.not_lt.mp past) within data false
            media long)

/-- A plan none of whose calls wrote before a fault is prepared so far. -/
theorem Plan.prepared_unwritten {fs : ImageFs} (record : Nat) (data : Record) (index : Nat)
    (raw : RawEntry) {reason : IoError} {media : Media}
    (unwritten : Medium.Unwritten fs.media media) (faulted : Medium.Faulted fs.media media) :
    (planBlock fs record data index raw).Prepared fs (.error reason, fs.withMedia media) := by
  unfold planBlock
  split
  · exact ⟨reason, media, rfl, unwritten⟩
  · split
    · exact ⟨reason, media, rfl, unwritten⟩
    · exact Edit.prepared_unwritten _ unwritten faulted
  · split
    · exact ⟨reason, media, rfl, unwritten⟩
    · exact Edit.prepared_unwritten _ unwritten faulted

/-- The entry of a file for an extent range is one of the file's, of that range. -/
theorem entryFor_some {params : Params} {dir : List DirSlot} {f : File} {base : Nat}
    {e : DirSlot} (found : entryFor params dir f base = some e) :
    e ∈ dir ∧ e.file = f ∧ maskOff e.extent params.exm = base := by
  have holds := List.find?_some found
  simp only [decide_eq_true_eq] at holds
  exact ⟨List.mem_of_find?_eq_some found, holds.1, holds.2⟩

/-- The entry a write edits lies in the directory. -/
theorem planTarget_inside {fs : ImageFs} (valid : fs.Valid) {f : File} {base index : Nat}
    {raw : RawEntry} (target : planTarget fs f base = some (index, raw)) :
    index < fs.fmt.dirEntries := by
  rw [planTarget] at target
  split at target
  · rename_i e found
    cases target
    exact (valid.listed e (entryFor_some found).1).1
  · obtain ⟨free, found, same⟩ := Option.map_eq_some_iff.mp target
    cases same
    exact (freeOf_some found).1

/-- `write_record` prepares its plan. -/
theorem prepareRecord_prepared {fs : ImageFs} (valid : fs.Valid) (writable : fs.readOnly = false)
    (f : File) (record : Nat) (data : Record) :
    (planOf fs (.writeRecord f record data)).Prepared fs (prepareRecord f record data fs) := by
  rw [prepareRecord, Fallible.bind_ok (checkWritable_run writable), planOf, planWrite,
    Fallible.bind_run, Fallible.view_run]
  simp only [id_eq]
  cases there : existsFile fs.dir f with
  | false => exact ⟨_, fs.media, rfl, .refl _⟩
  | true =>
    simp only [not_true_eq_false, ↓reduceIte]
    cases locked : (findEntry fs.dir f).any (·.readOnly) with
    | true => exact ⟨_, fs.media, rfl, .refl _⟩
    | false =>
      simp only [Bool.false_eq_true, ↓reduceIte]
      have looked := targetEntry_ran valid f (baseExtent fs.params record)
      cases target : planTarget fs f (baseExtent fs.params record) with
      | none =>
        rw [target] at looked
        obtain ⟨reason, media, ran, unwritten⟩ := looked
        rw [Fallible.bind_error ran]
        exact ⟨reason, media, rfl, unwritten⟩
      | some found =>
        obtain ⟨index, raw⟩ := found
        rw [target] at looked
        rcases looked with ⟨media, ran, unwritten⟩ | ⟨reason, media, ran, unwritten, faulted⟩
        · rw [Fallible.bind_ok ran]
          exact writeBlock_prepared valid record data index raw unwritten
        · rw [Fallible.bind_error ran]
          exact Plan.prepared_unwritten record data index raw unwritten faulted

/-! ## What the plans are -/

/-- The edits an operation can set out to make, with what it has checked by then. -/
inductive Edits (fs : ImageFs) : Operation → Edit → Prop
  | create {f : File} {index : Nat} (printable : PrintableName f.name f.ext)
      (absent : existsFile fs.dir f = false) (free : freeOf fs.fmt fs.disk = some index) :
      Edits fs (.create f) ⟨index, newRawEntry f 0, none, []⟩
  | fresh {f : File} {record : Nat} {data : Record} {index : Nat} {raw : RawEntry} {block : Nat}
      (there : existsFile fs.dir f = true)
      (target : planTarget fs f (baseExtent fs.params record) = some (index, raw))
      (slot : (decodeBlocks raw fs.params)[withinEntry fs.params record /
        fs.params.recordsPerBlock]? = some 0)
      (free : freeBlock fs.params fs.used = some block) :
      Edits fs (.writeRecord f record data) (planEdit fs record data index raw block true)
  | owned {f : File} {record : Nat} {data : Record} {index : Nat} {raw : RawEntry} {block : Nat}
      (there : existsFile fs.dir f = true)
      (target : planTarget fs f (baseExtent fs.params record) = some (index, raw))
      (slot : (decodeBlocks raw fs.params)[withinEntry fs.params record /
        fs.params.recordsPerBlock]? = some block)
      (positive : block ≠ 0) (known : block ≤ fs.params.maxBlock) :
      Edits fs (.writeRecord f record data) (planEdit fs record data index raw block false)

/-- The changes an operation can set out to make, with what it has checked by then. -/
inductive Batches (fs : ImageFs) : Operation → List Change → Prop
  | delete {f : File} : Batches fs (.delete f) (changesOf (entriesOf fs.dir f) RawEntry.erased)
  | rename {f : File} {name : Fin 8 → UInt8} {ext : Fin 3 → UInt8}
      (printable : PrintableName name ext)
      (absent : existsFile fs.dir ⟨f.user, name, ext⟩ = false) :
      Batches fs (.rename f name ext)
        (changesOf (entriesOf fs.dir f) fun raw => raw.renamed name ext)
  | setReadOnly {f : File} {ro : Bool} :
      Batches fs (.setReadOnly f ro)
        (changesOf (entriesOf fs.dir f) fun raw => raw.withLock ro)
  | truncate {f : File} {records : Nat} :
      Batches fs (.truncate f records)
        ((extentsOf fs.dir f).filterMap (truncateChange fs.params records))

/-- An edit that is planned is one of the possible edits. -/
theorem planOf_edit {fs : ImageFs} {op : Operation} {e : Edit} (planned : planOf fs op = .edit e) :
    Edits fs op e := by
  cases op with
  | create f =>
    rw [planOf] at planned
    split at planned
    · cases planned
    · rename_i printable
      split at planned
      · cases planned
      · rename_i absent
        split at planned
        · cases planned
        · rename_i index free
          cases planned
          exact .create (not_not.mp printable) (Bool.not_eq_true _ ▸ absent) free
  | writeRecord f record data =>
    rw [planOf, planWrite] at planned
    split at planned
    · cases planned
    · rename_i there
      split at planned
      · cases planned
      · split at planned
        · cases planned
        · rename_i index raw target
          rw [planBlock] at planned
          split at planned
          · cases planned
          · rename_i slot
            split at planned
            · cases planned
            · rename_i block free
              cases planned
              exact .fresh (not_not.mp there) target slot free
          · rename_i block nonzero slot
            split at planned
            · cases planned
            · rename_i known
              cases planned
              exact .owned (not_not.mp there) target slot
                nonzero (Nat.not_lt.mp known)
  | delete f =>
    rw [planOf] at planned
    split at planned <;> cases planned
  | rename f name ext =>
    rw [planOf] at planned
    split at planned
    · cases planned
    · split at planned
      · cases planned
      · split at planned
        · cases planned
        · split at planned <;> cases planned
  | setReadOnly f ro =>
    rw [planOf] at planned
    split at planned <;> cases planned
  | truncate f records =>
    rw [planOf] at planned
    split at planned <;> cases planned

/-- A batch that is planned is one of the possible batches. -/
theorem planOf_batch {fs : ImageFs} {op : Operation} {changes : List Change}
    (planned : planOf fs op = .batch changes) : Batches fs op changes := by
  cases op with
  | create f =>
    rw [planOf] at planned
    split at planned
    · cases planned
    · split at planned
      · cases planned
      · split at planned <;> cases planned
  | writeRecord f record data =>
    rw [planOf, planWrite] at planned
    split at planned
    · cases planned
    · split at planned
      · cases planned
      · split at planned
        · cases planned
        · rw [planBlock] at planned
          split at planned
          · cases planned
          · split at planned <;> cases planned
          · split at planned <;> cases planned
  | delete f =>
    rw [planOf] at planned
    split at planned
    · cases planned
    · cases planned
      exact .delete
  | rename f name ext =>
    rw [planOf] at planned
    split at planned
    · cases planned
    · rename_i printable
      split at planned
      · cases planned
      · rename_i absent
        split at planned
        · cases planned
        · split at planned
          · cases planned
          · cases planned
            exact .rename (not_not.mp printable) (Bool.not_eq_true _ ▸ absent)
  | setReadOnly f ro =>
    rw [planOf] at planned
    split at planned
    · cases planned
    · cases planned
      exact .setReadOnly
  | truncate f records =>
    rw [planOf] at planned
    split at planned
    · cases planned
    · cases planned
      exact .truncate

/-- The operations that find nothing to do: those that change every entry of a file that has
none. -/
inductive Idles (fs : ImageFs) : Operation → Prop
  | rename {f : File} {name : Fin 8 → UInt8} {ext : Fin 3 → UInt8}
      (empty : (entriesOf fs.dir f).isEmpty = true) : Idles fs (.rename f name ext)
  | setReadOnly {f : File} {ro : Bool} (empty : (entriesOf fs.dir f).isEmpty = true) :
      Idles fs (.setReadOnly f ro)
  | truncate {f : File} {records : Nat} (none : (fileRecords fs.params fs.dir f).isNone = true) :
      Idles fs (.truncate f records)

/-- An idle plan is that of an operation that finds nothing to do. -/
theorem planOf_idle {fs : ImageFs} {op : Operation} (planned : planOf fs op = .idle) :
    Idles fs op := by
  cases op with
  | create f =>
    rw [planOf] at planned
    split at planned
    · cases planned
    · split at planned
      · cases planned
      · split at planned <;> cases planned
  | writeRecord f record data =>
    rw [planOf, planWrite] at planned
    split at planned
    · cases planned
    · split at planned
      · cases planned
      · split at planned
        · cases planned
        · rw [planBlock] at planned
          split at planned
          · cases planned
          · split at planned <;> cases planned
          · split at planned <;> cases planned
  | delete f =>
    rw [planOf] at planned
    split at planned <;> cases planned
  | rename f name ext =>
    rw [planOf] at planned
    split at planned
    · cases planned
    · split at planned
      · cases planned
      · split at planned
        · exact .rename (by assumption)
        · split at planned <;> cases planned
  | setReadOnly f ro =>
    rw [planOf] at planned
    split at planned
    · exact .setReadOnly (by assumption)
    · cases planned
  | truncate f records =>
    rw [planOf] at planned
    split at planned
    · exact .truncate (by assumption)
    · cases planned

/-- The extents of a file are its entries. -/
theorem mem_extentsOf {dir : List DirSlot} {f : File} {e : DirSlot} :
    e ∈ extentsOf dir f ↔ e ∈ dir ∧ e.file = f := by
  rw [extentsOf, List.mem_insertionSort, entriesOf, List.mem_filter, decide_eq_true_eq]

/-- What a truncation does to an entry: erase it, or cut it. -/
theorem truncateChange_some {params : Params} {records : Nat} {e : DirSlot} {change : Change}
    (changed : truncateChange params records e = some change) :
    change.index = e.index ∧ change.old = e.raw ∧
      (change.new = e.raw.erased ∧ records ≤ extentStart params e ∨
        change.new = e.raw.cut params (records - extentStart params e) ∧
          extentStart params e < records ∧
          records < extentStart params e + extentCount params e) := by
  simp only [truncateChange] at changed
  split at changed
  · cases changed
    exact ⟨rfl, rfl, .inl ⟨rfl, by assumption⟩⟩
  · split at changed
    · cases changed
      exact ⟨rfl, rfl, .inr ⟨rfl, by omega, by omega⟩⟩
    · cases changed

/-- An edited entry lies in the directory. -/
theorem Edits.inside {fs : ImageFs} (valid : fs.Valid) {op : Operation} {e : Edit}
    (edits : Edits fs op e) : e.index < fs.fmt.dirEntries := by
  cases edits with
  | create _ _ free => exact (freeOf_some free).1
  | fresh _ target _ _ => exact planTarget_inside valid target
  | owned _ target _ _ _ => exact planTarget_inside valid target

/-- Every change of a batch is one of an entry in memory. -/
theorem Batches.entry {fs : ImageFs} {op : Operation} {changes : List Change}
    (batches : Batches fs op changes) {change : Change} (member : change ∈ changes) :
    ∃ e ∈ fs.dir, change.index = e.index ∧ change.old = e.raw := by
  cases batches with
  | delete | rename | setReadOnly =>
    obtain ⟨e, listed, rfl⟩ := List.mem_map.mp member
    exact ⟨e, (List.mem_filter.mp listed).1, rfl, rfl⟩
  | truncate =>
    obtain ⟨e, listed, changed⟩ := List.mem_filterMap.mp member
    exact ⟨e, (mem_extentsOf.mp listed).1, (truncateChange_some changed).1,
      (truncateChange_some changed).2.1⟩

/-! ## All operations -/

/-- A prepared plan, its directory step made, ran. -/
theorem Plan.Prepared.ran {fs : ImageFs} (valid : fs.Valid) {plan : Plan}
    {program : FsM (Nat × RawEntry)} (prepared : plan.Prepared fs (program fs))
    (inside : ∀ e, plan = .edit e → e.index < fs.fmt.dirEntries) :
    plan.Ran fs ((program >>= fun (index, raw) => commitEntry index raw) fs) := by
  cases plan with
  | refuse =>
    obtain ⟨reason, media, ended, unwritten⟩ := prepared
    rw [Fallible.bind_error ended]
    exact ⟨reason, media, rfl, unwritten⟩
  | idle => exact prepared.elim
  | edit e => exact Edit.Prepared.ran valid prepared (inside e rfl)
  | batch changes => exact prepared.elim

/-- An operation that plans a batch is the writing of that batch. -/
theorem run_batch {fs : ImageFs} (writable : fs.readOnly = false) {op : Operation}
    {changes : List Change} (planned : planOf fs op = .batch changes) :
    op.run fs = writeDirEntries changes fs := by
  have batched {α : Type} {program : FsM α} (value : α)
      (ran : program fs = (writeDirEntries changes >>= fun _ => pure value) fs) :
      (program >>= fun _ => pure ()) fs = writeDirEntries changes fs := by
    rw [Fallible.bind_run, ran, Fallible.bind_run]
    cases writeDirEntries changes fs with
    | mk ending reached => cases ending <;> rfl
  cases op with
  | create f =>
    obtain ⟨_⟩ := planOf_batch planned
  | writeRecord f record data =>
    obtain ⟨_⟩ := planOf_batch planned
  | delete f =>
    refine batched (entriesOf fs.dir f).length ?_
    rw [delete, Fallible.bind_ok (checkWritable_run writable), Fallible.bind_run,
      Fallible.view_run]
    simp only [id_eq]
    rw [planOf] at planned
    split at planned
    · cases planned
    · rename_i unlocked
      cases planned
      rw [if_neg unlocked]
  | rename f name ext =>
    refine batched true ?_
    rw [planOf] at planned
    split at planned
    · cases planned
    · rename_i printable
      rw [rename, Fallible.bind_ok (checkWritable_run writable),
        Fallible.bind_ok ((checkName_run name ext fs).1 (not_not.mp printable)), Fallible.bind_run,
        Fallible.view_run]
      simp only [id_eq]
      split at planned
      · cases planned
      · rename_i absent
        split at planned
        · cases planned
        · rename_i present
          split at planned
          · cases planned
          · rename_i unlocked
            cases planned
            rw [if_neg absent, if_neg present, if_neg unlocked]
  | setReadOnly f ro =>
    refine batched true ?_
    rw [setReadOnly, Fallible.bind_ok (checkWritable_run writable), Fallible.bind_run,
      Fallible.view_run]
    simp only [id_eq]
    rw [planOf] at planned
    split at planned
    · cases planned
    · rename_i present
      cases planned
      rw [if_neg present]
  | truncate f records =>
    refine batched (some records) ?_
    rw [truncateToRecords, Fallible.bind_ok (checkWritable_run writable), Fallible.bind_run,
      Fallible.view_run]
    simp only [id_eq]
    rw [planOf] at planned
    split at planned
    · cases planned
    · rename_i present
      cases planned
      rw [if_neg present]

/-- The changes of a batch lie in the directory. -/
theorem Batches.inside {fs : ImageFs} (valid : fs.Valid) {op : Operation} {changes : List Change}
    (batches : Batches fs op changes) : ∀ change ∈ changes, change.index < fs.fmt.dirEntries := by
  intro change member
  obtain ⟨e, listed, index, _⟩ := batches.entry member
  rw [index]
  exact (valid.listed e listed).1

/-- An operation that plans no step ends at once. -/
theorem run_refuse {fs : ImageFs} (valid : fs.Valid) (writable : fs.readOnly = false)
    {op : Operation} (planned : planOf fs op = .refuse) : Plan.refuse.Ran fs (op.run fs) := by
  have dropped {α : Type} {program : FsM α}
      (ran : ∃ reason, program fs = (.error reason, fs)) :
      Plan.refuse.Ran fs ((program >>= fun _ => pure ()) fs) := by
    obtain ⟨reason, ran⟩ := ran
    rw [Fallible.bind_error ran]
    exact ⟨reason, fs.media, rfl, .refl _⟩
  cases op with
  | create f =>
    have prepared := prepareCreate_prepared valid writable f
    rw [planned] at prepared
    exact prepared.ran valid (by simp)
  | writeRecord f record data =>
    have prepared := prepareRecord_prepared valid writable f record data
    rw [planned] at prepared
    exact prepared.ran valid (by simp)
  | delete f =>
    refine dropped ?_
    rw [delete, Fallible.bind_ok (checkWritable_run writable), Fallible.bind_run,
      Fallible.view_run]
    simp only [id_eq]
    rw [planOf] at planned
    split at planned
    · rename_i locked
      rw [if_pos locked]
      exact ⟨_, rfl⟩
    · cases planned
  | rename f name ext =>
    refine dropped ?_
    rw [rename, Fallible.bind_ok (checkWritable_run writable)]
    rw [planOf] at planned
    split at planned
    · rename_i unprintable
      obtain ⟨reason, ran⟩ := (checkName_run name ext fs).2 unprintable
      exact ⟨reason, Fallible.bind_error ran _⟩
    · rename_i printable
      rw [Fallible.bind_ok ((checkName_run name ext fs).1 (not_not.mp printable)),
        Fallible.bind_run, Fallible.view_run]
      simp only [id_eq]
      split at planned
      · rename_i there
        rw [if_pos there]
        exact ⟨_, rfl⟩
      · rename_i absent
        rw [if_neg absent]
        split at planned
        · cases planned
        · rename_i present
          rw [if_neg present]
          split at planned
          · rename_i locked
            rw [if_pos locked]
            exact ⟨_, rfl⟩
          · cases planned
  | setReadOnly f ro =>
    rw [planOf] at planned
    split at planned <;> cases planned
  | truncate f records =>
    rw [planOf] at planned
    split at planned <;> cases planned

/-- An operation with nothing to do does nothing. -/
theorem run_idle {fs : ImageFs} (writable : fs.readOnly = false) {op : Operation}
    (planned : planOf fs op = .idle) : op.run fs = (.ok (), fs) := by
  have dropped {α : Type} {program : FsM α} {value : α} (ran : program fs = (.ok value, fs)) :
      (program >>= fun _ => pure ()) fs = (.ok (), fs) := Fallible.bind_ok ran _
  cases op with
  | create | writeRecord | delete => obtain ⟨_⟩ := planOf_idle planned
  | rename f name ext =>
    refine dropped (show rename f name ext fs = (.ok false, fs) from ?_)
    rw [rename, Fallible.bind_ok (checkWritable_run writable)]
    rw [planOf] at planned
    split at planned
    · cases planned
    · rename_i printable
      rw [Fallible.bind_ok ((checkName_run name ext fs).1 (not_not.mp printable)),
        Fallible.bind_run, Fallible.view_run]
      simp only [id_eq]
      split at planned
      · cases planned
      · rename_i absent
        rw [if_neg absent]
        split at planned
        · rename_i empty
          rw [if_pos empty]
          rfl
        · split at planned <;> cases planned
  | setReadOnly f ro =>
    refine dropped (show setReadOnly f ro fs = (.ok false, fs) from ?_)
    rw [setReadOnly, Fallible.bind_ok (checkWritable_run writable), Fallible.bind_run,
      Fallible.view_run]
    simp only [id_eq]
    rw [planOf] at planned
    split at planned
    · rename_i empty
      rw [if_pos empty]
      rfl
    · cases planned
  | truncate f records =>
    refine dropped (show truncateToRecords f records fs = (.ok none, fs) from ?_)
    rw [truncateToRecords, Fallible.bind_ok (checkWritable_run writable), Fallible.bind_run,
      Fallible.view_run]
    simp only [id_eq]
    rw [planOf] at planned
    split at planned
    · rename_i empty
      rw [if_pos empty]
      rfl
    · cases planned

/-- Every run of an operation on a writable filesystem is a run of its plan. -/
theorem run_ran {fs : ImageFs} (valid : fs.Valid) (writable : fs.readOnly = false)
    (op : Operation) : (planOf fs op).Ran fs (op.run fs) := by
  cases planned : planOf fs op with
  | refuse => exact run_refuse valid writable planned
  | idle => exact run_idle writable planned
  | edit e =>
    cases op with
    | create f =>
      have prepared := prepareCreate_prepared valid writable f
      rw [planned] at prepared
      exact prepared.ran valid fun other same => by
        cases same
        exact (planOf_edit planned).inside valid
    | writeRecord f record data =>
      have prepared := prepareRecord_prepared valid writable f record data
      rw [planned] at prepared
      exact prepared.ran valid fun other same => by
        cases same
        exact (planOf_edit planned).inside valid
    | delete | rename | setReadOnly | truncate => obtain ⟨_⟩ := planOf_edit planned
  | batch changes =>
    rw [run_batch writable planned]
    exact writeDirEntries_ran valid changes ((planOf_batch planned).inside valid)

end EthernetGateway.Image
