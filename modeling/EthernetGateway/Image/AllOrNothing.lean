import EthernetGateway.Image.Drift

/-!
# All entries or none

A change of several entries that meets a single fault puts back the entries written before the
one that failed, and reads the directory again. The entry that failed is not put back, although
its record may have been written; and a fault of the closing re-read puts nothing back at all.
What such a change leaves behind is decided by the call at which the fault falls.
-/

namespace EthernetGateway.Image

/-- Exactly one call between two media failed. -/
structure OneFault (before after : Media) (n : Nat) : Prop where
  /-- The call was made. -/
  made : before.calls ≤ n ∧ n < after.calls
  /-- It failed. -/
  failed : before.outcomes n ≠ .done
  /-- No other call did. -/
  alone : ∀ m, before.calls ≤ m → m < after.calls → before.outcomes m ≠ .done → m = n

/-- Directory records and memory are what they were. -/
structure Restored (before after : ImageFs) : Prop where
  /-- The directory records on the medium are as before. -/
  records : ∀ record < before.fmt.dirRecords, after.disk record = before.disk record
  /-- The list in memory is as before. -/
  memory : after.dir = before.dir

/-- The operations that change every entry of a file as one. -/
def Operation.Several : Operation → Prop
  | .create _ => False
  | .writeRecord _ _ _ => False
  | .delete _ => True
  | .rename _ _ _ => True
  | .setReadOnly _ _ => True
  | .truncate _ _ => True

/-! ## The calls of a change -/

/-- How many calls the directory steps of some changes make. -/
def callCount (fmt : Format) (changes : List Change) : Nat :=
  (changes.map fun change => entryCallCount fmt change.index).sum

@[simp] theorem callCount_cons (fmt : Format) (change : Change) (changes : List Change) :
    callCount fmt (change :: changes) = entryCallCount fmt change.index + callCount fmt changes :=
  rfl

/-- The edits to the new entries of a change. -/
def newSteps (changes : List Change) : List DiskStep :=
  changes.map fun change => .edit change.index change.new

/-- The edits to the old entries of a change. -/
def oldSteps (changes : List Change) : List DiskStep :=
  changes.map fun change => .edit change.index change.old

/-! ## What the loops leave -/

/-- The first loop cut by the script: all new entries are written, or those before the one whose
directory step failed, and that one if its record write took effect. -/
theorem writeNew_cut {fmt : Format} (sound : fmt.Sound) (changes : List Change)
    (inside : ∀ change ∈ changes, change.index < fmt.dirEntries) (media : Media)
    (long : fmt.minBytes ≤ media.length) :
    (∃ reached, writeNew fmt changes media = (.ok (changes.length, .ok ()), reached) ∧
      Moved fmt media reached (newSteps changes) ∧
      reached.calls = media.calls + callCount fmt changes ∧ ¬ Medium.Faulted media reached) ∨
    (∃ done change rest c reason reached, changes = done ++ change :: rest ∧
      c < entryCallCount fmt change.index ∧
      media.outcomes (media.calls + callCount fmt done + c) ≠ .done ∧
      writeNew fmt changes media = (.ok (done.length, .error reason), reached) ∧
      (∃ steps, Moved fmt media reached steps) ∧
      reached.calls = media.calls + callCount fmt done + c + 1 ∧
      (Wrote media.outcomes (media.calls + callCount fmt done + c) c → diskOf fmt reached.contents =
        (diskOf fmt media.contents).run (newSteps (done ++ [change]))) ∧
      (¬ Wrote media.outcomes (media.calls + callCount fmt done + c) c → diskOf fmt reached.contents =
        (diskOf fmt media.contents).run (newSteps done))) := by
  induction changes generalizing media with
  | nil =>
    exact .inl ⟨media, rfl, .refl media, rfl, fun ⟨n, above, below, _⟩ =>
      Nat.lt_irrefl n (Nat.lt_of_lt_of_le below above)⟩
  | cons change changes ih =>
    rw [writeNew, Fallible.bind_run, Fallible.attempt_run]
    rcases writeDirEntry_cut sound media long (inside change List.mem_cons_self) change.new with
      ⟨_, reached, ran, moved, calls, unfaulted⟩ |
      ⟨c, reason, reached, fault, ran, moved, calls, wrote, unwrote⟩
    · simp only [ran]
      have shown := moved.look_eq
      rw [Medium.runSteps_cons, Medium.runSteps_nil] at shown
      rcases ih (fun later member => inside later (List.mem_cons_of_mem _ member)) reached
          (by rwa [moved.length]) with
        ⟨last, rest, moved', calls', unfaulted'⟩ |
        ⟨done, later, rest, c, reason, last, split, place, failed, went, ⟨steps, moved'⟩, calls',
          wrote, unwrote⟩
      · left
        refine ⟨last, ?_, moved.trans moved', by rw [calls', calls, callCount_cons]; omega,
          fun faulted => (faulted.split moved.outcomes).elim unfaulted unfaulted'⟩
        rw [Fallible.bind_ok rest]
        rfl
      · right
        have number : media.calls + callCount fmt (change :: done) + c =
            reached.calls + callCount fmt done + c := by
          rw [callCount_cons, calls]
          omega
        refine ⟨change :: done, later, rest, c, reason, last, by rw [split]; rfl, place, ?_, ?_,
          ⟨_, moved.trans moved'⟩, by rw [calls', number], ?_, ?_⟩
        · rw [number, ← moved.outcomes]
          exact failed
        · rw [Fallible.bind_ok went]
          rfl
        · rw [number, ← moved.outcomes]
          intro held
          rw [wrote held, shown]
          rfl
        · rw [number, ← moved.outcomes]
          intro held
          rw [unwrote held, shown]
          rfl
    · right
      obtain ⟨place, failed, _⟩ := Medium.firstFailed_some.mp fault
      simp only [ran]
      have number : media.calls + callCount fmt [] + c = media.calls + c := rfl
      refine ⟨[], change, changes, c, reason, reached, rfl, place, ?_, rfl, moved, ?_, ?_, ?_⟩
      · rw [number]
        exact failed
      · rw [number, calls]
      · rw [number]
        exact wrote
      · rw [number]
        exact unwrote

/-- The undo loop, meeting no fault, puts back every entry. -/
theorem writeOld_faultless {fmt : Format} (sound : fmt.Sound) (changes : List Change)
    (inside : ∀ change ∈ changes, change.index < fmt.dirEntries) (media : Media)
    (long : fmt.minBytes ≤ media.length)
    (unfaulted : ¬ Medium.Faulted media (writeOld fmt changes media).2) :
    ∃ reached, writeOld fmt changes media = (.ok (), reached) ∧
      Moved fmt media reached (oldSteps changes) := by
  induction changes generalizing media with
  | nil => exact ⟨media, rfl, .refl media⟩
  | cons change changes ih =>
    have later : ∀ change ∈ changes, change.index < fmt.dirEntries := fun other member =>
      inside other (List.mem_cons_of_mem _ member)
    have rest (reached : Media) (length : reached.length = media.length) :=
      writeOld_ran sound changes later reached (by rwa [length])
    have unfold : writeOld fmt (change :: changes) media =
        writeOld fmt changes (writeDirEntry fmt change.index change.old media).2 := rfl
    rw [unfold] at unfaulted ⊢
    rcases writeDirEntry_cut sound media long (inside change List.mem_cons_self) change.old with
      ⟨_, reached, ran, moved, _⟩ | ⟨c, reason, reached, fault, ran, ⟨_, moved⟩, calls, _⟩
    · rw [ran] at unfaulted ⊢
      obtain ⟨last, went, moved'⟩ := ih later reached (by rwa [moved.length]) fun faulted =>
        unfaulted (faulted.precede moved.outcomes moved.calls)
      exact ⟨last, went, moved.trans moved'⟩
    · rw [ran] at unfaulted
      obtain ⟨_, failed, _⟩ := Medium.firstFailed_some.mp fault
      obtain ⟨last, _, went, moved', _⟩ := rest reached moved.length
      rw [went] at unfaulted
      have onward := moved'.calls
      have faulted : Medium.Faulted media last := ⟨media.calls + c, by omega, by omega, failed⟩
      exact absurd faulted unfaulted

/-! ## One fault -/

/-- The place of a call in the directory steps of some changes is unique. -/
theorem callCount_unique {fmt : Format} {done other : List Change} {change second : Change}
    {rest more : List Change} {c d : Nat}
    (same : done ++ change :: rest = other ++ second :: more)
    (number : callCount fmt done + c = callCount fmt other + d)
    (within : c < entryCallCount fmt change.index) (inside : d < entryCallCount fmt second.index) :
    change = second ∧ c = d := by
  induction done generalizing other with
  | nil =>
    cases other with
    | nil =>
      simp only [List.nil_append, List.cons.injEq] at same
      exact ⟨same.1, by simpa [callCount] using number⟩
    | cons head other =>
      simp only [List.nil_append, List.cons_append, List.cons.injEq] at same
      rw [callCount_cons, ← same.1] at number
      simp only [callCount, List.map_nil, List.sum_nil] at number
      omega
  | cons first done ih =>
    cases other with
    | nil =>
      simp only [List.nil_append, List.cons_append, List.cons.injEq] at same
      rw [callCount_cons, same.1] at number
      simp only [callCount, List.map_nil, List.sum_nil] at number
      omega
    | cons head other =>
      simp only [List.cons_append, List.cons.injEq] at same
      rw [callCount_cons, callCount_cons, same.1] at number
      exact ih same.2 (by omega)

/-- What a single fault may not break. In the directory step of an entry, memory must have been
right about the medium, and an entry whose record write took effect must be what was there; in
the closing re-read, every entry written must be what was there. -/
structure FaultUndone (fs : ImageFs) (changes : List Change) (n : Nat) : Prop where
  /-- The fault falls in the directory step of an entry. -/
  entry : ∀ done change rest c, changes = done ++ change :: rest →
    n = fs.media.calls + callCount fs.fmt done + c → c < entryCallCount fs.fmt change.index →
    fs.Synced ∧ (Wrote fs.media.outcomes n c → change.new = fs.disk.entry change.index)
  /-- The fault falls after them. -/
  reread : fs.media.calls + callCount fs.fmt changes ≤ n →
    ∀ change ∈ changes, change.new = fs.disk.entry change.index

section Restoring

variable {fs : ImageFs} {changes : List Change} {n : Nat}

/-- A re-read that ended well met no fault. -/
theorem reload_unfaulted (valid : fs.Valid) {after : ImageFs}
    (ended : reload fs = (.ok (), after)) : ¬ Medium.Faulted fs.media after.media := by
  have plays := readDirectory_plays valid.sound fs.media valid.long
  rw [reload, Fallible.bind_run, Fallible.view_run] at ended
  simp only [id_eq, Fallible.bind_run, onMedia_run] at ended
  cases read : readDirectory fs.fmt fs.media with
  | mk ending media =>
    rw [read] at ended
    cases ending with
    | error reason => cases ended
    | ok lists =>
      cases ended
      exact plays.unfaulted read

/-- Directory records are as before exactly when every entry is. -/
theorem records_iff_entries {fmt : Format} {left right : Disk} :
    (∀ record < fmt.dirRecords, left record = right record) ↔
      ∀ index < fmt.dirEntries, left.entry index = right.entry index := by
  refine ⟨fun same index inside => ?_, fun same => Disk.records_eq same⟩
  rw [Disk.entry, Disk.entry, same _ (Format.entryRecord_lt inside)]

/-- A change all of whose entries were written and whose closing re-read failed. -/
theorem restored_reread_iff (distinct : (changes.map Change.index).Nodup)
    (inside : ∀ change ∈ changes, change.index < fs.fmt.dirEntries) {media : Media}
    (shown : diskOf fs.fmt media.contents = fs.disk.run (newSteps changes)) :
    Restored fs (fs.withMedia media) ↔
      ∀ change ∈ changes, change.new = fs.disk.entry change.index := by
  have records : (∀ record < fs.fmt.dirRecords, (fs.withMedia media).disk record = fs.disk record) ↔
      ∀ index < fs.fmt.dirEntries, (fs.disk.run (newSteps changes)).entry index =
        fs.disk.entry index := by
    rw [← shown]
    exact records_iff_entries
  constructor
  · intro restored change member
    have same := records.mp restored.records change.index (inside change member)
    rwa [newSteps, Disk.entry_run_mem _ _ Change.new distinct member] at same
  · intro same
    refine ⟨records.mpr fun index _ => ?_, rfl⟩
    by_cases named : ∃ change ∈ changes, change.index = index
    · obtain ⟨change, member, rfl⟩ := named
      rw [newSteps, Disk.entry_run_mem _ _ Change.new distinct member, same change member]
    · exact Disk.entry_run_other _ _ _ fun change member equal => named ⟨change, member, equal⟩

/-- A change whose entries before the failing one were put back, and whose directory was then
read again. -/
theorem restored_undone_iff (distinct : (changes.map Change.index).Nodup)
    (inside : ∀ change ∈ changes, change.index < fs.fmt.dirEntries)
    (olds : ∀ change ∈ changes, ∃ e ∈ fs.dir, change.index = e.index ∧ change.old = e.raw)
    {done rest : List Change} {change : Change} (split : changes = done ++ change :: rest)
    {written : Prop} {middle : Disk} {media : Media}
    (wrote : written → middle = fs.disk.run (newSteps (done ++ [change])))
    (unwrote : ¬ written → middle = fs.disk.run (newSteps done))
    (shown : diskOf fs.fmt media.contents = middle.run (oldSteps done.reverse)) :
    Restored fs (fs.reloaded media) ↔
      fs.Synced ∧ (written → change.new = fs.disk.entry change.index) := by
  have whole : ((done ++ [change]).map Change.index).Nodup := by
    refine distinct.sublist (List.Sublist.map _ ?_)
    rw [split]
    exact (List.Sublist.refl done).append (List.singleton_sublist.mpr List.mem_cons_self)
  have apart : change.index ∉ done.map Change.index := fun member => by
    rw [List.map_append, List.nodup_append] at whole
    exact whole.2.2 _ member _ (by simp) rfl
  have first : (done.map Change.index).Nodup := by
    rw [List.map_append, List.nodup_append] at whole
    exact whole.1
  have last : (done.reverse.map Change.index).Nodup := by
    rw [List.map_reverse, List.nodup_reverse]
    exact first
  -- What stands in the directory once the undo is through.
  have undone (earlier : Change) (member : earlier ∈ done) :
      (diskOf fs.fmt media.contents).entry earlier.index = earlier.old := by
    rw [shown, oldSteps]
    exact Disk.entry_run_mem _ _ Change.old last (List.mem_reverse.mpr member)
  have untouched (index : Nat) (other : ∀ earlier ∈ done, earlier.index ≠ index) :
      (diskOf fs.fmt media.contents).entry index = middle.entry index := by
    rw [shown, oldSteps]
    exact Disk.entry_run_other _ _ Change.old fun earlier member =>
      other earlier (List.mem_reverse.mp member)
  have failing : (diskOf fs.fmt media.contents).entry change.index =
      middle.entry change.index :=
    untouched _ fun earlier member same => apart (List.mem_map.mpr ⟨earlier, member, same⟩)
  have member : change ∈ changes := by rw [split]; simp
  have records : (∀ record < fs.fmt.dirRecords, (fs.reloaded media).disk record = fs.disk record) ↔
      ∀ index < fs.fmt.dirEntries, (diskOf fs.fmt media.contents).entry index =
        fs.disk.entry index := records_iff_entries
  have memory : (fs.reloaded media).dir = directoryOf fs.fmt (diskOf fs.fmt media.contents) := rfl
  constructor
  · intro restored
    have entries := records.mp restored.records
    refine ⟨?_, fun written => ?_⟩
    · rw [ImageFs.Synced, ← restored.memory, memory]
      exact directoryOf_congr entries
    · have same := entries change.index (inside change member)
      rw [failing, wrote written, newSteps,
        Disk.entry_run_mem _ _ Change.new whole (List.mem_append_right _ (by simp))] at same
      exact same
  · rintro ⟨synced, same⟩
    have entries : ∀ index < fs.fmt.dirEntries,
        (diskOf fs.fmt media.contents).entry index = fs.disk.entry index := by
      intro index _
      by_cases early : ∃ earlier ∈ done, earlier.index = index
      · obtain ⟨earlier, listed, rfl⟩ := early
        obtain ⟨e, known, place, old⟩ := olds earlier (by rw [split]; simp [listed])
        rw [undone earlier listed, old, place]
        exact (synced.entry known).2.1.symm
      · have other : ∀ earlier ∈ done, earlier.index ≠ index := fun earlier listed equal =>
          early ⟨earlier, listed, equal⟩
        rw [untouched index other]
        by_cases written : written
        · rw [wrote written, newSteps]
          by_cases here : change.index = index
          · subst here
            rw [Disk.entry_run_mem _ _ Change.new whole (List.mem_append_right _ (by simp)),
              same written]
          · refine Disk.entry_run_other _ _ Change.new fun later listed => ?_
            rcases List.mem_append.mp listed with before | itself
            · exact other later before
            · rw [List.mem_singleton.mp itself]
              exact here
        · rw [unwrote written]
          exact Disk.entry_run_other _ _ Change.new other
    refine ⟨records.mpr entries, ?_⟩
    rw [memory, directoryOf_congr entries]
    exact synced.symm

/-- A change of several entries that meets one fault ends with an error, and leaves directory
and memory as they were exactly when the fault breaks nothing. -/
theorem writeDirEntries_restored_iff (valid : fs.Valid)
    (inside : ∀ change ∈ changes, change.index < fs.fmt.dirEntries)
    (distinct : (changes.map Change.index).Nodup)
    (olds : ∀ change ∈ changes, ∃ e ∈ fs.dir, change.index = e.index ∧ change.old = e.raw)
    (fault : OneFault fs.media (writeDirEntries changes fs).2.media n) :
    (∃ reason, (writeDirEntries changes fs).1 = .error reason) ∧
      (Restored fs (writeDirEntries changes fs).2 ↔ FaultUndone fs changes n) := by
  have unfold (result : Except IoError Unit) (middle : Media)
      (ran : writeOrUndo fs.fmt changes fs.media = (.ok result, middle)) :
      writeDirEntries changes fs = match result, reload (fs.withMedia middle) with
        | .error reason, (_, after) => (.error reason, after)
        | .ok (), (.error reason, after) => (.error reason, after)
        | .ok (), (.ok (), after) => (.ok (), after) := by
    rw [writeDirEntries, Fallible.bind_run, Fallible.view_run]
    simp only [id_eq, Fallible.bind_run, onMedia_run, ran, Fallible.attempt_run]
    cases result with
    | error reason => rfl
    | ok _ =>
      cases reload (fs.withMedia middle) with
      | mk ending after => cases ending <;> rfl
  rcases writeNew_cut valid.sound changes inside fs.media valid.long with
    ⟨reached, wrote, moved, calls, unfaulted⟩ |
    ⟨done, change, rest, c, reason, reached, split, place, failed, wrote, ⟨_, moved⟩, calls,
      effect, none⟩
  · -- All entries were written: the fault is one of the closing re-read.
    have ran : writeOrUndo fs.fmt changes fs.media = (.ok (.ok ()), reached) := by
      rw [writeOrUndo, Fallible.bind_ok wrote]
      rfl
    have middleValid := valid.withMedia moved.length
    rcases reload_ran middleValid with
      ⟨media, again, unwritten⟩ | ⟨reason, media, again, unwritten, _⟩
    · -- It cannot have ended well.
      rw [unfold _ _ ran, again] at fault
      have faulted : Medium.Faulted fs.media media := ⟨n, fault.made.1, fault.made.2, fault.failed⟩
      rcases faulted.split moved.outcomes with early | late
      · exact absurd early unfaulted
      · exact absurd late (reload_unfaulted middleValid again)
    · rw [unfold _ _ ran, again] at fault ⊢
      refine ⟨⟨reason, rfl⟩, ?_⟩
      have late : fs.media.calls + callCount fs.fmt changes ≤ n := by
        rw [← calls]
        by_contra early
        exact unfaulted ⟨n, fault.made.1, Nat.not_le.mp early, fault.failed⟩
      have shown : diskOf fs.fmt media.contents = fs.disk.run (newSteps changes) := by
        rw [unwritten.contents]
        exact ImageFs.disk_moved moved
      change Restored fs (fs.withMedia media) ↔ _
      rw [restored_reread_iff distinct inside shown]
      refine ⟨fun same => ⟨?_, fun _ => same⟩, fun undone => undone.reread late⟩
      intro done change rest c split number place
      rw [split, callCount, List.map_append, List.sum_append] at late
      change fs.media.calls + (callCount fs.fmt done + callCount fs.fmt (change :: rest)) ≤ n at late
      rw [callCount_cons] at late
      omega
  · -- The directory step of an entry failed: the undo and the re-read meet no fault.
    have taken : changes.take done.length = done := by rw [split, List.take_left]
    have earlier : ∀ other ∈ done.reverse, other.index < fs.fmt.dirEntries := fun other member =>
      inside other (by rw [split]; simp [List.mem_reverse.mp member])
    have long : fs.fmt.minBytes ≤ reached.length := moved.length ▸ valid.long
    obtain ⟨middle, _, undid, moved', _⟩ := writeOld_ran valid.sound done.reverse earlier reached long
    have ran : writeOrUndo fs.fmt changes fs.media = (.ok (.error reason), middle) := by
      rw [writeOrUndo, Fallible.bind_ok wrote]
      simp only [taken, Fallible.bind_ok undid, Fallible.pure_run]
    have middleValid := valid.withMedia (moved'.length.trans moved.length)
    have ended := unfold _ _ ran
    obtain ⟨media, unwritten, final⟩ : ∃ media, Medium.Unwritten middle media ∧
        ((reload (fs.withMedia middle) = (.ok (), fs.reloaded media)) ∨
          (Medium.Faulted middle media ∧ (reload (fs.withMedia middle)).2 = fs.withMedia media)) := by
      rcases reload_ran middleValid with
        ⟨media, again, unwritten⟩ | ⟨reason, media, again, unwritten, faulted⟩
      · exact ⟨media, unwritten, .inl again⟩
      · exact ⟨media, unwritten, .inr ⟨faulted, by rw [again]; rfl⟩⟩
    have reachedMedia : (writeDirEntries changes fs).2.media = media := by
      rw [ended]
      rcases final with again | ⟨_, again⟩
      · rw [again]
        rfl
      · exact congrArg ImageFs.media again
    rw [reachedMedia] at fault
    have onward := moved'.calls
    have further := unwritten.calls
    have here : n = fs.media.calls + callCount fs.fmt done + c :=
      (fault.alone _ (by omega) (by omega) failed).symm
    -- No later stretch holds another fault.
    have alone (first second : Media) (outcomes : first.outcomes = fs.media.outcomes)
        (from' : reached.calls ≤ first.calls) (upto : second.calls ≤ media.calls) :
        ¬ Medium.Faulted first second := by
      rintro ⟨m, above, below, bad⟩
      have equal := fault.alone m (by omega) (by omega) (outcomes ▸ bad)
      omega
    obtain ⟨other, undid', steps⟩ := writeOld_faultless valid.sound done.reverse earlier reached long
      (alone _ _ moved.outcomes (Nat.le_refl _) (by rw [undid]; exact further))
    rw [undid] at undid'
    cases undid'
    have again := final.resolve_right fun held =>
      alone _ _ (moved'.outcomes.trans moved.outcomes) onward (Nat.le_refl _) held.1
    rw [again] at ended
    rw [ended]
    refine ⟨⟨reason, rfl⟩, ?_⟩
    have shown : diskOf fs.fmt media.contents =
        (diskOf fs.fmt reached.contents).run (oldSteps done.reverse) := by
      rw [unwritten.contents]
      exact steps.look_eq
    change Restored fs (fs.reloaded media) ↔ _
    rw [restored_undone_iff distinct inside olds split effect none shown, ← here]
    constructor
    · intro held
      refine ⟨fun done' change' rest' c' split' number place' => ?_, fun late => ?_⟩
      · obtain ⟨same, equal⟩ := callCount_unique (split.symm.trans split')
          (by omega : callCount fs.fmt done + c = callCount fs.fmt done' + c') place place'
        rw [← same, ← equal]
        exact held
      · rw [split, callCount, List.map_append, List.sum_append] at late
        change fs.media.calls + (callCount fs.fmt done + callCount fs.fmt (change :: rest)) ≤ n
          at late
        rw [callCount_cons] at late
        omega
    · exact fun undone => undone.entry done change rest c split here place

end Restoring

/-- An operation on every entry of a file that meets a single fault, and then ends with an error,
leaves directory and memory as they were exactly when its fault breaks nothing. -/
theorem several_restored_iff {fmt : Format} (listed : fmt ∈ formats) {media : Media} {fs : ImageFs}
    (reachable : Reachable media fmt fs) {op : Operation} (several : op.Several) {n : Nat}
    (fault : OneFault fs.media (op.run fs).2.media n) :
    ((∃ reason, (op.run fs).1 = .error reason) → Restored fs (op.run fs).2) ↔
      ∀ changes, planOf fs op = .batch changes → FaultUndone fs changes n := by
  obtain ⟨valid, _, writable⟩ := reachable.kept (formats_sound fmt listed)
  cases planned : planOf fs op with
  | refuse =>
    obtain ⟨reason, after, ended, unwritten⟩ := run_refuse valid writable planned
    rw [ended]
    refine ⟨fun _ _ same => (nomatch same), fun _ _ => ⟨fun record _ => ?_, rfl⟩⟩
    exact congrFun (congrArg (diskOf fs.fmt) unwritten.contents) record
  | idle =>
    rw [run_idle writable planned]
    exact ⟨fun _ _ same => (nomatch same), fun _ _ => ⟨fun _ _ => rfl, rfl⟩⟩
  | edit e =>
    have edits := planOf_edit planned
    cases edits <;> exact several.elim
  | batch changes =>
    have batches := planOf_batch planned
    rw [run_batch writable planned] at fault ⊢
    obtain ⟨failed, exact⟩ := writeDirEntries_restored_iff valid (batches.inside valid)
      (batches.distinct valid) (fun change member => batches.entry member) fault
    refine ⟨fun held other same => ?_, fun undone _ => exact.mpr (undone changes rfl)⟩
    cases same
    exact exact.mp (held failed)

/-- An `ibm3740` image of one file of one record whose call of a number fails. -/
def oneFileFailing (n : Nat) : Media :=
  { erasedMedia ibm3740 [firstEntry ibm3740 (entryA 1 fun i => if i = 0 then 2 else 0)] with
    outcomes := fun m => if m = n then .lost ⟨.other, "call failed"⟩ else .done }

/-- The file on it. -/
def fileA : File := ⟨0, fun i => if i.val = 0 then 0x41 else 0x20, fun _ => 0x20⟩

/-- The one failing call of such an image is its only fault. -/
theorem oneFileFailing_fault {n : Nat} {fs after : ImageFs}
    (reachable : Reachable (oneFileFailing n) ibm3740 fs) (above : fs.media.calls ≤ n)
    (below : n < after.media.calls) : OneFault fs.media after.media n := by
  have outcomes := (reachable.onward (formats_sound ibm3740 (by simp [formats]))).1
  refine ⟨⟨above, below⟩, ?_, fun m _ _ failed => ?_⟩
  · rw [outcomes]
    simp [oneFileFailing]
  · rw [outcomes] at failed
    by_contra other
    exact failed (if_neg other)

/-- The theorem at work: a `delete` whose first read fails leaves everything as it was. -/
theorem several_restored_unread :
    ∃ fs, Reachable (oneFileFailing 16) ibm3740 fs ∧
      ((∃ reason, (Operation.run (.delete fileA) fs).1 = .error reason) →
        Restored fs (Operation.run (.delete fileA) fs).2) := by
  have checked : mountsTo (oneFileFailing 16) ibm3740 (fun fs => fs.media.calls == 16 &&
      (Operation.run (.delete fileA) fs).2.media.calls == 33) = true := by decide +kernel
  obtain ⟨fs, mounted, reachable, held⟩ := mountsTo_reachable checked
  simp only [Bool.and_eq_true, beq_iff_eq] at held
  have sound := formats_sound ibm3740 (by simp [formats])
  have several : Operation.Several (.delete fileA) := trivial
  have fault := oneFileFailing_fault reachable (Nat.le_of_eq held.1)
    (by omega : 16 < (Operation.run (.delete fileA) fs).2.media.calls)
  refine ⟨fs, reachable, (several_restored_iff (by simp [formats]) reachable several fault).mpr
    fun changes _ => ⟨fun done change rest c _ number _ => ?_, fun late change member => ?_⟩⟩
  · have first : c = 0 := by omega
    refine ⟨mount_synced sound mounted, fun wrote => ?_⟩
    rw [first, Wrote] at wrote
    omega
  · obtain ⟨front, back, rfl⟩ := List.append_of_mem member
    have some := entryCallCount_pos fs.fmt change.index
    rw [callCount, List.map_append, List.sum_append, List.map_cons, List.sum_cons] at late
    omega

/-- Not every such operation leaves everything as it was: a `delete` whose flush fails has erased
the entry on the medium, and memory says so too. -/
theorem erased_by_failed_delete :
    ¬ ∀ fmt ∈ formats, ∀ media fs, Reachable media fmt fs → ∀ op : Operation, op.Several → ∀ n,
      OneFault fs.media (op.run fs).2.media n → (∃ reason, (op.run fs).1 = .error reason) →
      Restored fs (op.run fs).2 := by
  intro every
  have checked : mountsTo (oneFileFailing 18) ibm3740 (fun fs =>
      let after := Operation.run (.delete fileA) fs
      fs.media.calls == 16 && after.2.media.calls == 35 && !after.1.isOk &&
        decide (after.2.dir ≠ fs.dir)) = true := by decide +kernel
  obtain ⟨fs, _, reachable, held⟩ := mountsTo_reachable checked
  simp only [Bool.and_eq_true, beq_iff_eq, decide_eq_true_eq] at held
  obtain ⟨⟨⟨calls, further⟩, failed⟩, apart⟩ := held
  refine apart (every ibm3740 (by simp [formats]) _ fs reachable (.delete fileA) trivial 18
    (oneFileFailing_fault reachable (by omega) (by omega)) ?_).memory
  cases ended : (Operation.run (.delete fileA) fs).1 with
  | ok _ =>
    rw [ended] at failed
    cases failed
  | error reason => exact ⟨reason, rfl⟩

end EthernetGateway.Image
