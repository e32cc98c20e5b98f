import EthernetGateway.Image.Faultless
import EthernetGateway.Image.Script

/-!
# When memory follows the medium

Memory follows the medium when the list of entries is the one a fresh read of the directory
would return. An operation that ends well keeps it so, and so does one whose failing call came
before its directory write took effect. The rest drift: an entry that reached the medium and was
then reported as failed is on the disk and not in memory, and a closing re-read that fails
leaves memory as it was before the entries were rewritten.
-/

namespace EthernetGateway.Image

/-! ## The directory step -/

/-- Editing an entry leaves the list as it is exactly when it parses as before. -/
theorem directoryOf_edit_eq_iff {fmt : Format} (disk : Disk) {index : Nat}
    (inside : index < fmt.dirEntries) (raw : RawEntry) :
    directoryOf fmt (DiskStep.apply (.edit index raw) disk) = directoryOf fmt disk ↔
      parseEntry index raw (Params.derive fmt) =
        parseEntry index (disk.entry index) (Params.derive fmt) := by
  constructor
  · intro same
    have parsed := parseEntry_of_directoryOf_eq same index inside
    rwa [Disk.entry_edit, if_pos rfl] at parsed
  · intro parsed
    apply List.filterMap_congr
    intro other _
    rw [Disk.entry_edit]
    split
    · rename_i same
      rw [same, parsed]
    · rfl

/-- A script on which the directory step of an entry, its first call having this number, leaves
memory and medium agreeing: where one of its calls fails, the record write has not taken effect by
then, unless the entry parses as the one already there. -/
def EntrySettles (fs : ImageFs) (index : Nat) (raw : RawEntry) (n : Nat) : Prop :=
  (∀ c, entryFault fs.fmt fs.media.outcomes index n = some c →
    ¬ Wrote fs.media.outcomes (n + c) c) ∨
  parseEntry index raw fs.params = parseEntry index (fs.disk.entry index) fs.params

instance EntrySettles.decidable (fs : ImageFs) (index : Nat) (raw : RawEntry) (n : Nat) :
    Decidable (EntrySettles fs index raw n) :=
  decidable_of_iff
    ((entryFault fs.fmt fs.media.outcomes index n).all (fun c =>
        ¬ Wrote fs.media.outcomes (n + c) c) ∨
      parseEntry index raw fs.params = parseEntry index (fs.disk.entry index) fs.params)
    (by simp [EntrySettles, Option.all_eq_true])

/-- Memory follows the medium through a directory step exactly when the script settles it. -/
theorem commitEntry_synced_iff {fs : ImageFs} (valid : fs.Valid) (synced : fs.Synced) {index : Nat}
    (inside : index < fs.fmt.dirEntries) (raw : RawEntry) :
    (commitEntry index raw fs).2.Synced ↔ EntrySettles fs index raw fs.media.calls := by
  rcases writeDirEntry_cut valid.sound fs.media valid.long inside raw with
    ⟨fault, reached, ran, moved, _⟩ | ⟨c, reason, reached, fault, ran, _, _, wrote, unwrote⟩
  · -- The step was made, and its entry folded into memory.
    refine ⟨fun _ => .inl fun c failed => ?_, fun _ => ?_⟩
    · rw [fault] at failed
      cases failed
    · have after : (commitEntry index raw fs).2 = applyEntry index raw (fs.withMedia reached) := by
        simp only [commitEntry, Fallible.bind_run, Fallible.view_run, id_eq, onMedia_run, ran,
          Fallible.change_run]
      have shown : diskOf fs.fmt reached.contents =
          DiskStep.apply (.edit index raw) fs.disk := moved.look_eq
      rw [after, ImageFs.Synced]
      change insertEntry fs.dir index (parseEntry index raw fs.params) =
        directoryOf fs.fmt (diskOf fs.fmt reached.contents)
      rw [shown, directoryOf_edit _ inside, synced]
      rfl
  · -- The step was cut short, and memory is as before.
    have after : (commitEntry index raw fs).2 = fs.withMedia reached := by
      simp only [commitEntry, Fallible.bind_run, Fallible.view_run, id_eq, onMedia_run, ran]
    have stays : (fs.withMedia reached).Synced ↔
        fs.dir = directoryOf fs.fmt (diskOf fs.fmt reached.contents) := Iff.rfl
    rw [after, stays]
    by_cases written : Wrote fs.media.outcomes (fs.media.calls + c) c
    · rw [wrote written, synced, eq_comm]
      refine (directoryOf_edit_eq_iff fs.disk inside raw).trans ⟨.inr, fun either => ?_⟩
      exact either.resolve_left fun none => none c fault written
    · refine ⟨fun _ => .inl fun other failed => ?_, fun _ => by rw [unwrote written]; exact synced⟩
      rw [fault, Option.some.injEq] at failed
      exact failed ▸ written

/-! ## The operations -/

/-- A script on which an operation on one entry, making so many calls before its directory step,
leaves memory and medium agreeing: one of those calls fails, or the directory step settles. -/
def EditSettles (fs : ImageFs) (e : Edit) (ready : Nat) : Prop :=
  (∃ i < ready, fs.media.outcomes (fs.media.calls + i) ≠ .done) ∨
  EntrySettles fs e.index e.raw (fs.media.calls + ready)

instance EditSettles.decidable (fs : ImageFs) (e : Edit) (ready : Nat) :
    Decidable (EditSettles fs e ready) :=
  inferInstanceAs (Decidable ((∃ i < ready, fs.media.outcomes (fs.media.calls + i) ≠ .done) ∨ _))

/-- A script on which a change of several entries leaves memory and medium agreeing: the calls of
the closing re-read succeed, or what the writing and its undo leave in place is what was there. -/
def BatchSettles (fs : ImageFs) (changes : List Change) : Prop :=
  let leaves := writeLeaves fs.fmt fs.media.outcomes [] changes fs.media.calls
  (∀ i < fs.fmt.dirRecords, fs.media.outcomes (leaves.2 + i) = .done) ∨
  ∀ change ∈ leaves.1, change.new = change.old

instance BatchSettles.decidable (fs : ImageFs) (changes : List Change) :
    Decidable (BatchSettles fs changes) :=
  inferInstanceAs (Decidable ((∀ i < fs.fmt.dirRecords, _) ∨ _))

/-- A script on which an operation leaves memory and medium agreeing. -/
def Operation.Settles (fs : ImageFs) (op : Operation) : Prop :=
  match planOf fs op with
  | .refuse => True
  | .idle => True
  | .edit e => EditSettles fs e (op.readyCount fs e)
  | .batch changes => BatchSettles fs changes

instance Operation.Settles.decidable (fs : ImageFs) (op : Operation) : Decidable (op.Settles fs) :=
  match planned : planOf fs op with
  | .refuse => isTrue (by rw [Operation.Settles, planned]; trivial)
  | .idle => isTrue (by rw [Operation.Settles, planned]; trivial)
  | .edit e =>
    decidable_of_iff (EditSettles fs e (op.readyCount fs e)) (by rw [Operation.Settles, planned])
  | .batch changes =>
    decidable_of_iff (BatchSettles fs changes) (by rw [Operation.Settles, planned])

section Operations

variable {fs : ImageFs} {start : Disk} {names : Nat → Nat → Prop}

/-- Memory follows a medium with the same entries. -/
theorem ImageFs.Synced.onto (synced : fs.Synced) (media : Media) (used : List Bool)
    (same : ∀ index < fs.fmt.dirEntries,
      (diskOf fs.fmt media.contents).entry index = fs.disk.entry index) :
    (fs.onto media used).Synced := by
  change fs.dir = directoryOf fs.fmt (diskOf fs.fmt media.contents)
  rw [show fs.dir = directoryOf fs.fmt fs.disk from synced]
  exact (directoryOf_congr same).symm

/-- Memory follows the medium through the preparation of an edit. -/
theorem Edit.Prepared.synced (owned : fs.Owned start names) (valid : fs.Valid)
    (synced : fs.Synced) {op : Operation} {e : Edit} (edits : Edits fs op e)
    {ran : Except IoError (Nat × RawEntry) × ImageFs} (prepared : e.Prepared fs ran) :
    ran.2.Synced := by
  have outside := edits.data_outside owned valid
  rcases prepared with ⟨media, rfl, moved⟩ | ⟨reason, media, j, used, rfl, _, _, moved⟩
  · refine synced.onto _ _ fun index inside => ?_
    rw [ImageFs.disk_moved moved]
    exact Disk.entry_run_outside _ _ outside inside
  · refine synced.onto _ _ fun index inside => ?_
    rw [ImageFs.disk_moved moved]
    exact Disk.entry_run_outside _ _ (fun step member => outside step (List.mem_of_mem_take member))
      inside

/-- A directory step settles by the script and by what the medium holds of its entry. -/
theorem EntrySettles.onto_iff {media : Media} {used : List Bool} {index n : Nat} {raw : RawEntry}
    (outcomes : media.outcomes = fs.media.outcomes)
    (same : (diskOf fs.fmt media.contents).entry index = fs.disk.entry index) :
    EntrySettles (fs.onto media used) index raw n ↔ EntrySettles fs index raw n := by
  have shown : (fs.onto media used).disk.entry index = fs.disk.entry index := same
  have script : (fs.onto media used).media.outcomes = fs.media.outcomes := outcomes
  rw [EntrySettles, EntrySettles, shown, script]
  rfl

/-- Memory follows the medium through an operation on one entry exactly when the script settles
it. -/
theorem prepared_synced_iff (owned : fs.Owned start names) (valid : fs.Valid)
    (synced : fs.Synced) {op : Operation} {e : Edit} (edits : Edits fs op e) {ready : Nat}
    {program : FsM (Nat × RawEntry)} (prepared : e.Prepared fs (program fs))
    (spent : Spent fs ready (program fs)) :
    ((program >>= fun (index, raw) => commitEntry index raw) fs).2.Synced ↔
      EditSettles fs e ready := by
  have reached := Edit.Prepared.synced owned valid synced edits prepared
  have inside := edits.inside valid
  rcases prepared with ⟨media, ended, moved⟩ | ⟨reason, media, j, used, ended, _⟩
  · rw [ended] at reached spent
    rcases spent with ⟨_, _, outcomes, calls, done⟩ | ⟨_, failed, _⟩
    · have same : (diskOf fs.fmt media.contents).entry e.index = fs.disk.entry e.index := by
        rw [ImageFs.disk_moved moved]
        exact Disk.entry_run_outside _ _ (edits.data_outside owned valid) inside
      rw [Fallible.bind_ok ended]
      refine (commitEntry_synced_iff (valid.onto moved.length (fs.marked_length _)) reached
        inside e.raw).trans ?_
      have script : media.outcomes = fs.media.outcomes := outcomes
      rw [calls, EntrySettles.onto_iff script same]
      refine ⟨.inr, fun either => either.resolve_left ?_⟩
      rintro ⟨i, before, failed⟩
      exact failed (done i before)
    · cases failed
  · rw [ended] at reached spent
    rcases spent with ⟨_, done, _⟩ | ⟨_, _, failed⟩
    · cases done
    · rw [Fallible.bind_error ended]
      exact ⟨fun _ => .inl failed, fun _ => reached⟩

/-- A list follows a store that changes were left in exactly when these are what was there. -/
theorem Leaves.synced_iff (synced : fs.Synced) {disk : Disk}
    {left : List Change} (leaves : Leaves fs.disk disk left)
    (olds : ∀ change ∈ left, ∃ e ∈ fs.dir, change.index = e.index ∧ change.old = e.raw) :
    fs.dir = directoryOf fs.fmt disk ↔ ∀ change ∈ left, change.new = change.old := by
  rw [show fs.dir = directoryOf fs.fmt fs.disk from synced]
  constructor
  · intro same change member
    obtain ⟨e, listed, index, old⟩ := olds change member
    obtain ⟨inside, stored, live⟩ := synced.entry listed
    have parsed := parseEntry_of_directoryOf_eq same e.index inside
    rw [stored, ← index, leaves.new change member, parseEntry_eq, parseEntry_eq, if_pos live]
      at parsed
    split at parsed
    · rw [old]
      exact (congrArg DirSlot.raw (Option.some.inj parsed)).symm
    · cases parsed
  · intro same
    refine directoryOf_congr fun index _ => ?_
    by_cases changed : ∃ change ∈ left, change.index = index
    · obtain ⟨change, member, rfl⟩ := changed
      obtain ⟨e, listed, place, old⟩ := olds change member
      rw [leaves.new change member, same change member, old, place]
      exact (synced.entry listed).2.1
    · exact (leaves.rest index fun change member equal => changed ⟨change, member, equal⟩).symm

/-- The closing re-read ends well when its calls succeed, one for each directory record, and fails
where one of them does. -/
theorem reload_cut (valid : fs.Valid) :
    ((∀ i < fs.fmt.dirRecords, fs.media.outcomes (fs.media.calls + i) = .done) ∧
      ∃ media, reload fs = (.ok (), fs.reloaded media)) ∨
    (∃ i < fs.fmt.dirRecords, fs.media.outcomes (fs.media.calls + i) ≠ .done ∧
      ∃ reason media, reload fs = (.error reason, fs.withMedia media) ∧
        Medium.Unwritten fs.media media) := by
  have plays : Medium.PlaysFor (readDirectory fs.fmt) fs.media fs.fmt.dirRecords _ :=
    ⟨_, by simp, readDirectory_plays valid.sound fs.media valid.long⟩
  have ending : (reload fs).1.isOk = (readDirectory fs.fmt fs.media).1.isOk := by
    rw [reload, Fallible.bind_run, Fallible.view_run]
    simp only [id_eq, Fallible.bind_run, onMedia_run]
    cases (readDirectory fs.fmt fs.media).1 <;> rfl
  rcases reload_ran valid with ⟨media, ran, _⟩ | ⟨reason, media, ran, unwritten, _⟩
  · rcases plays.cut with ⟨_, _, _, _, _, done⟩ | ⟨_, _, read, _⟩
    · exact .inl ⟨done, media, ran⟩
    · rw [ran, read] at ending
      cases ending
  · rcases plays.cut with ⟨_, read, _⟩ | ⟨_, _, _, i, before, failed⟩
    · rw [ran, read] at ending
      cases ending
    · exact .inr ⟨i, before, failed, reason, media, ran, unwritten⟩

/-- Memory follows the medium through a change of several entries exactly when the script settles
it. -/
theorem writeDirEntries_synced_iff (valid : fs.Valid) (synced : fs.Synced) {changes : List Change}
    (inside : ∀ change ∈ changes, change.index < fs.fmt.dirEntries)
    (distinct : (changes.map Change.index).Nodup)
    (olds : ∀ change ∈ changes, ∃ e ∈ fs.dir, change.index = e.index ∧ change.old = e.raw) :
    (writeDirEntries changes fs).2.Synced ↔ BatchSettles fs changes := by
  have stored : ∀ change ∈ changes,
      change.old = (diskOf fs.fmt fs.media.contents).entry change.index := by
    intro change member
    obtain ⟨e, listed, place, old⟩ := olds change member
    rw [old, place]
    exact (synced.entry listed).2.1.symm
  obtain ⟨result, middle, ran, outcomes, calls, leaves⟩ :=
    writeOrUndo_leaves valid.sound changes inside fs.media valid.long distinct stored
  have moved : middle.length = fs.media.length := by
    obtain ⟨_, other, _, ran', moved, _⟩ :=
      writeOrUndo_ran valid.sound changes inside fs.media valid.long
    rw [ran] at ran'
    cases ran'
    exact moved.length
  have stands := leaves.synced_iff synced fun change member =>
    olds change ((writeLeaves_subset _ _ _ _ _ change member).resolve_left (List.not_mem_nil))
  have middleValid := valid.withMedia moved
  have after : (writeDirEntries changes fs).2 = (reload (fs.withMedia middle)).2 := by
    rw [writeDirEntries, Fallible.bind_run, Fallible.view_run]
    simp only [id_eq, Fallible.bind_run, onMedia_run, ran, Fallible.attempt_run]
    cases result with
    | ok _ => cases (reload (fs.withMedia middle)).1 <;> rfl
    | error _ => rfl
  have settles : BatchSettles fs changes ↔
      (∀ i < fs.fmt.dirRecords, middle.outcomes (middle.calls + i) = .done) ∨
      fs.dir = directoryOf fs.fmt (diskOf fs.fmt middle.contents) := by
    rw [stands, calls, outcomes]
    rfl
  rw [after, settles]
  rcases reload_cut middleValid with
    ⟨done, media, again⟩ | ⟨i, before, failed, reason, media, again, unwritten⟩
  · rw [again]
    exact ⟨fun _ => .inl done, fun _ => rfl⟩
  · rw [again]
    have kept : ((fs.withMedia middle).withMedia media).Synced ↔
        fs.dir = directoryOf fs.fmt (diskOf fs.fmt middle.contents) := by
      have held : media.contents = middle.contents := unwritten.contents
      rw [← held]
      rfl
    rw [kept]
    exact ⟨.inr, fun either => either.resolve_left fun done => failed (done i before)⟩

/-- From a state in which memory follows the medium, an operation keeps it so exactly when the
script settles it. -/
theorem run_synced_iff (owned : fs.Owned start names) (valid : fs.Valid)
    (writable : fs.readOnly = false) (synced : fs.Synced) (op : Operation) :
    (op.run fs).2.Synced ↔ op.Settles fs := by
  rw [Operation.Settles]
  cases planned : planOf fs op with
  | refuse =>
    obtain ⟨reason, media, ended, unwritten⟩ := run_refuse valid writable planned
    rw [ended]
    refine ⟨fun _ => trivial, fun _ => synced.onto media fs.used fun index _ => ?_⟩
    rw [unwritten.contents]
    rfl
  | idle =>
    rw [run_idle writable planned]
    exact ⟨fun _ => trivial, fun _ => synced⟩
  | edit e =>
    have edits := planOf_edit planned
    cases op with
    | create f =>
      have prepared := prepareCreate_prepared valid writable f
      rw [planned] at prepared
      exact prepared_synced_iff owned valid synced edits prepared
        (prepareCreate_spent valid writable planned)
    | writeRecord f record data =>
      have prepared := prepareRecord_prepared valid writable f record data
      rw [planned] at prepared
      exact prepared_synced_iff owned valid synced edits prepared
        (prepareRecord_spent valid writable planned)
    | delete | rename | setReadOnly | truncate => obtain ⟨_⟩ := edits
  | batch changes =>
    have batches := planOf_batch planned
    rw [run_batch writable planned]
    exact writeDirEntries_synced_iff valid synced (batches.inside valid) (batches.distinct valid)
      fun change member => batches.entry member

end Operations

/-! ## Runs -/

/-- The states reached from a writable mount by operations that the script all settles. -/
inductive SettledRun (media : Media) (fmt : Format) : ImageFs → Prop
  | mount {fs : ImageFs} (mounted : mount media fmt false = .ok fs)
      (writable : fs.readOnly = false) : SettledRun media fmt fs
  | step {fs : ImageFs} (before : SettledRun media fmt fs) (op : Operation)
      (settles : op.Settles fs) : SettledRun media fmt (op.run fs).2

theorem SettledRun.reachable {media : Media} {fmt : Format} {fs : ImageFs}
    (settled : SettledRun media fmt fs) : Reachable media fmt fs := by
  induction settled with
  | mount mounted writable => exact .mount mounted writable
  | step before op settles ih => exact ih.step op

/-- In a reachable state in which memory follows the medium, an operation keeps it so exactly
when the script settles it. -/
theorem Reachable.synced_iff {media : Media} {fmt : Format} (sound : fmt.Sound) {fs : ImageFs}
    (reachable : Reachable media fmt fs) (synced : fs.Synced) (op : Operation) :
    (op.run fs).2.Synced ↔ op.Settles fs := by
  obtain ⟨valid, _, writable⟩ := reachable.kept sound
  obtain ⟨⟨names, owned⟩, _⟩ := reachable.owned sound
  exact run_synced_iff owned valid writable synced op

/-- A mount follows its medium. -/
theorem mount_synced {media : Media} {fmt : Format} (sound : fmt.Sound) {fs : ImageFs}
    {readOnly : Bool} (mounted : mount media fmt readOnly = .ok fs) : fs.Synced := by
  have found := mount_ok sound mounted
  rw [ImageFs.Synced, ImageFs.disk, found.format, found.unwritten.contents]
  exact found.dir

/-- A run without a fault is settled throughout. -/
theorem Reachable.settled {media : Media} {fmt : Format} (sound : fmt.Sound) {fs : ImageFs}
    (reachable : Reachable media fmt fs) (faultless : ¬ Medium.Faulted media fs.media) :
    SettledRun media fmt fs := by
  induction reachable with
  | mount mounted writable => exact .mount mounted writable
  | @step fs before op ih =>
    obtain ⟨steps, moved⟩ := (run_kept (before.kept sound).1 op).moved
    have earlier : ¬ Medium.Faulted media fs.media := fun faulted =>
      faultless (faulted.extend moved.calls)
    have synced := (before.tight sound earlier).1
    have after := ((before.step op).tight sound faultless).1
    exact (ih earlier).step op ((before.synced_iff sound synced op).mp after)

/-- In every run whose operations the script settles, memory follows the medium; an operation
that it does not settle makes them differ; and a run without a fault is settled, its bitmap that
of the directory. -/
theorem settled_run_synced {fmt : Format} (listed : fmt ∈ formats) (media : Media) :
    (∀ fs, SettledRun media fmt fs → fs.Synced) ∧
    (∀ fs (op : Operation), Reachable media fmt fs → fs.Synced →
      ((op.run fs).2.Synced ↔ op.Settles fs)) ∧
    (∀ fs, Reachable media fmt fs → ¬ Medium.Faulted media fs.media →
      SettledRun media fmt fs ∧ fs.Tight) := by
  have sound := formats_sound fmt listed
  refine ⟨fun fs settled => ?_, fun fs op reachable => fun synced =>
    reachable.synced_iff sound synced op, fun fs reachable faultless =>
      ⟨reachable.settled sound faultless, (reachable.tight sound faultless).2⟩⟩
  induction settled with
  | mount mounted writable => exact mount_synced sound mounted
  | step before op settles ih => exact (before.reachable.synced_iff sound ih op).mpr settles

/-- An erased `ibm3740` image whose twentieth call, the flush of the directory step of a first
`create`, fails. -/
def failingFlush : Media :=
  { erasedMedia ibm3740 [] with
    outcomes := fun n => if n = 19 then .lost ⟨.other, "flush failed"⟩ else .done }

/-- An erased `ibm3740` image on which the record write of a first `create` fails, and after a
second that of a `delete` and the first read of the re-read that closes it. -/
def failingWrites : Media :=
  { erasedMedia ibm3740 [] with
    outcomes := fun n =>
      if n = 18 ∨ n = 25 ∨ n = 26 then .lost ⟨.other, "call failed"⟩ else .done }

/-- The theorem at work: memory follows the medium through record writes that fail, and does not
when the flush of a `create` does; and without a fault the bitmap is that of the directory. -/
theorem settled_run_synced_created :
    (∃ fs, SettledRun failingWrites ibm3740 fs ∧ fs.media.calls = 27 ∧ fs.Synced) ∧
    (∃ fs, Reachable failingFlush ibm3740 fs ∧ ¬ ((Operation.create fileAs).run fs).2.Synced) ∧
    ∃ fs, Reachable (erasedMedia ibm3740 []) ibm3740 fs ∧ fs.Synced ∧ fs.Tight := by
  have listed : ibm3740 ∈ formats := by simp [formats]
  refine ⟨?_, ?_, ?_⟩
  · have checked : mountsTo failingWrites ibm3740 (fun fs =>
        let once := ((Operation.create fileAs).run fs).2
        let twice := ((Operation.create fileAs).run once).2
        !fs.readOnly && decide ((Operation.create fileAs).Settles fs) &&
          decide ((Operation.create fileAs).Settles once) &&
          decide ((Operation.delete fileAs).Settles twice) &&
          ((Operation.delete fileAs).run twice).2.media.calls == 27) = true := by decide +kernel
    obtain ⟨fs, mounted, _, held⟩ := mountsTo_reachable checked
    simp only [Bool.and_eq_true, Bool.not_eq_true', decide_eq_true_eq, beq_iff_eq] at held
    obtain ⟨⟨⟨⟨writable, first⟩, second⟩, third⟩, calls⟩ := held
    have settled := (((SettledRun.mount mounted writable).step _ first).step _ second).step _ third
    exact ⟨_, settled, calls, (settled_run_synced listed failingWrites).1 _ settled⟩
  · have checked : mountsTo failingFlush ibm3740 (fun fs =>
        !decide ((Operation.create fileAs).Settles fs)) = true := by decide +kernel
    obtain ⟨fs, mounted, reachable, held⟩ := mountsTo_reachable checked
    simp only [Bool.not_eq_true', decide_eq_false_iff_not] at held
    have synced := mount_synced (formats_sound ibm3740 listed) mounted
    exact ⟨fs, reachable, fun same =>
      held (((settled_run_synced listed failingFlush).2.1 fs _ reachable synced).mp same)⟩
  · obtain ⟨fs, reachable⟩ := reachable_erased
    have after := reachable.step (.create fileAs)
    have healthy : (erasedMedia ibm3740 []).Healthy := fun _ _ => rfl
    obtain ⟨follows, _, tight⟩ := settled_run_synced listed (erasedMedia ibm3740 [])
    obtain ⟨settled, bitmap⟩ := tight _ after healthy.not_faulted
    exact ⟨_, after, follows _ settled, bitmap⟩

/-- Memory does not always follow the medium: an entry whose flush failed is on the disk and not
in memory. -/
theorem directory_drifts :
    ¬ ∀ fmt ∈ formats, ∀ media fs, Reachable media fmt fs →
      (∀ n, fs.media.calls ≤ n → fs.media.outcomes n = .done) → fs.Synced := by
  intro every
  have checked : mountsTo failingFlush ibm3740 (fun fs =>
      let after := (create fileAs fs).2
      after.media.calls == 20 &&
        decide (after.dir ≠ directoryOf ibm3740 (diskOf ibm3740 after.media.contents))) = true := by
    decide +kernel
  obtain ⟨fs, _, reachable, held⟩ := mountsTo_reachable checked
  simp only [Bool.and_eq_true, beq_iff_eq, decide_eq_true_eq] at held
  have sound := formats_sound ibm3740 (by simp [formats])
  have after := reachable.step (.create fileAs)
  have synced := every ibm3740 (by simp [formats]) _ _ after fun n later => by
    rw [(after.onward sound).1]
    have above : 20 ≤ n := held.1 ▸ later
    exact if_neg (by omega)
  rw [ImageFs.Synced, ImageFs.disk, (after.kept sound).2.1] at synced
  exact held.2 synced

end EthernetGateway.Image
