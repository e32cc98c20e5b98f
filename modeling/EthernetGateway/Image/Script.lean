import EthernetGateway.Image.Plan

/-!
# What a script does to a change

Every call on the medium has a number, and the script says how each numbered call ends. So the
calls a program makes can be counted before it runs, and what a change of several entries leaves
on a medium that fails it, in the writing and then in the undo, is worked out from the script
alone: which entries stand as they were to become, and which call comes next.
-/

namespace EthernetGateway.Image

/-! ## One entry -/

/-- The calls that edit an entry have edited it from the second on. -/
theorem entryCalls_take {fmt : Format} (sound : fmt.Sound) (contents : Contents) {index : Nat}
    (inside : index < fmt.dirEntries) (raw : RawEntry) (k : Nat) :
    diskOf fmt (applyCalls ((entryCalls fmt contents index raw).take k) contents) =
      if 2 ≤ k then DiskStep.apply (.edit index raw) (diskOf fmt contents)
      else diskOf fmt contents := by
  have record := Format.dirRecord_lt sound (Format.entryRecord_lt inside)
  have tail (n : Nat) (reached : Contents) :
      applyCalls ([Call.flush, Call.read].take n) reached = reached := by
    match n with
    | 0 => rfl
    | 1 => rfl
    | _ + 2 => simp [Call.apply]
  cases k with
  | zero => rfl
  | succ k =>
    rw [entryCalls, List.take_succ_cons, applyCalls_cons, Call.apply, List.take_append,
      applyCalls_append, tail]
    funext other
    by_cases here : other < fmt.dataRecords
    · rw [diskOf, if_pos here, recordAt_recordCalls sound contents record here]
      by_cases written : 0 < k
      · rw [if_pos (by omega : 2 ≤ k + 1), DiskStep.edit_apply]
        by_cases same : other = index / entriesPerRecord
        · simp [same, written, diskOf, record]
        · simp [same, here, diskOf]
      · rw [if_neg (by omega : ¬ 2 ≤ k + 1), if_neg (fun held => written held.2), diskOf,
          if_pos here]
    · rw [diskOf, if_neg here]
      split
      · rw [DiskStep.edit_apply,
          if_neg fun same : other = index / entriesPerRecord => here (same ▸ record), diskOf,
          if_neg here]
      · rw [diskOf, if_neg here]

/-- The record write of a directory step took effect, its call of this number having failed: the
record write came before it, or is that call and landed. -/
def Wrote (outcomes : Nat → Outcome IoError) (n c : Nat) : Prop :=
  2 ≤ c ∨ (c = 1 ∧ ∃ reason, outcomes n = .landed reason)

instance decidableWrote (outcomes : Nat → Outcome IoError) (n c : Nat) :
    Decidable (Wrote outcomes n c) :=
  match ended : outcomes n with
  | .landed reason => decidable_of_iff (2 ≤ c ∨ c = 1) (by simp [Wrote, ended])
  | .done => decidable_of_iff (2 ≤ c) (by simp [Wrote, ended])
  | .lost reason => decidable_of_iff (2 ≤ c) (by simp [Wrote, ended])

/-- The place of the call at which the directory step of an entry fails, its first call having this
number, if one of its calls does. -/
def entryFault (fmt : Format) (outcomes : Nat → Outcome IoError) (index n : Nat) : Option Nat :=
  Medium.firstFailed outcomes n (entryCallCount fmt index)

/-- A directory step makes a read, a record write, a flush and a read at least. -/
theorem entryCallCount_pos (fmt : Format) (index : Nat) : 4 ≤ entryCallCount fmt index := by
  rw [entryCallCount, recordCallCount]
  omega

/-- A directory step under the script: it makes all its calls, or ends at the one that fails, the
entry written or not. -/
theorem writeDirEntry_cut {fmt : Format} (sound : fmt.Sound) (media : Media)
    (long : fmt.minBytes ≤ media.length) {index : Nat} (inside : index < fmt.dirEntries)
    (raw : RawEntry) :
    (entryFault fmt media.outcomes index media.calls = none ∧
      ∃ reached, writeDirEntry fmt index raw media = (.ok (), reached) ∧
        Moved fmt media reached [.edit index raw] ∧
        reached.calls = media.calls + entryCallCount fmt index ∧
        ¬ Medium.Faulted media reached) ∨
    (∃ c reason reached, entryFault fmt media.outcomes index media.calls = some c ∧
      writeDirEntry fmt index raw media = (.error reason, reached) ∧
      (∃ steps, Moved fmt media reached steps) ∧ reached.calls = media.calls + c + 1 ∧
      (Wrote media.outcomes (media.calls + c) c → diskOf fmt reached.contents =
        DiskStep.apply (.edit index raw) (diskOf fmt media.contents)) ∧
      (¬ Wrote media.outcomes (media.calls + c) c →
        diskOf fmt reached.contents = diskOf fmt media.contents)) := by
  have count := entryCalls_length fmt media.contents index raw
  have taken := entryCalls_take sound media.contents inside raw
  have makes := (writeDirEntry_makes sound media long inside raw).traced
  rcases (writeDirEntry_plays sound media long inside raw).cut with
    ⟨done, ran⟩ | ⟨c, reason, before, done, ended⟩
  · refine .inl ⟨Medium.firstFailed_none.mpr fun i inside => done i (count ▸ inside), _, ran, ?_,
      by rw [Medium.landAll_calls, count],
      (writeDirEntry_plays sound media long inside raw).unfaulted ran⟩
    exact Medium.Traced.landAll media (entryCalls_follows sound media.contents inside raw)
  · right
    have first (failed : media.outcomes (media.calls + c) ≠ .done) :
        entryFault fmt media.outcomes index media.calls = some c :=
      Medium.firstFailed_some.mpr ⟨count ▸ before, failed, done⟩
    have moved (reached : Media) (ran : writeDirEntry fmt index raw media =
        (.error reason, reached)) : ∃ steps, Moved fmt media reached steps := by
      rcases makes with ⟨other, ran', _⟩ | ⟨_, other, _, ran', _, moved⟩
      · rw [ran] at ran'
        cases ran'
      · rw [ran] at ran'
        cases ran'
        exact ⟨_, moved⟩
    have few : min c (entryCalls fmt media.contents index raw).length = c :=
      Nat.min_eq_left (Nat.le_of_lt before)
    rcases ended with ⟨failed, ran⟩ | ⟨failed, ran⟩
    · refine ⟨c, reason, _, first (by simp [failed]), ran, moved _ ran, ?_, ?_, ?_⟩
      · rw [Medium.miss_calls, Medium.landAll_calls, List.length_take, few]
      · rintro (late | ⟨_, _, landed⟩)
        · rw [Medium.miss_contents, Medium.landAll_contents, taken, if_pos late]
        · rw [failed] at landed
          cases landed
      · intro early
        rw [Medium.miss_contents, Medium.landAll_contents, taken,
          if_neg fun late => early (.inl late)]
    · have next : min (c + 1) (entryCalls fmt media.contents index raw).length = c + 1 :=
        Nat.min_eq_left before
      refine ⟨c, reason, _, first (by simp [failed]), ran, moved _ ran, ?_, ?_, ?_⟩
      · rw [Medium.landAll_calls, List.length_take, next]
        omega
      · intro wrote
        rw [Medium.landAll_contents, taken, if_pos]
        rcases wrote with late | ⟨one, _⟩ <;> omega
      · intro early
        rw [Medium.landAll_contents, taken, if_neg]
        intro late
        rcases Nat.lt_or_ge 1 c with more | upto
        · exact early (.inl more)
        · exact early (.inr ⟨by omega, reason, failed⟩)

/-! ## Several entries -/

section Walk

variable (fmt : Format) (outcomes : Nat → Outcome IoError)

/-- What the undo of some changes leaves in place, its first call having this number, and the number
of the call that comes next. -/
def undoLeaves : List Change → Nat → List Change × Nat
  | [], n => ([], n)
  | change :: changes, n =>
    match entryFault fmt outcomes change.index n with
    | none => undoLeaves changes (n + entryCallCount fmt change.index)
    | some c =>
      let (left, next) := undoLeaves changes (n + c + 1)
      (if Wrote outcomes (n + c) c then left else change :: left, next)

/-- What the writing of some changes leaves in place, its first call having this number and some
changes having been written before it, the last first; and the number of the call that comes
next. -/
def writeLeaves : List Change → List Change → Nat → List Change × Nat
  | done, [], n => (done, n)
  | done, change :: changes, n =>
    match entryFault fmt outcomes change.index n with
    | none => writeLeaves (change :: done) changes (n + entryCallCount fmt change.index)
    | some c =>
      let (left, next) := undoLeaves fmt outcomes done (n + c + 1)
      (if Wrote outcomes (n + c) c then change :: left else left, next)

end Walk

/-- The entries of a store are those of an earlier one, but for changes left in place. -/
structure Leaves (before after : Disk) (left : List Change) : Prop where
  /-- A change left in place has its new entry. -/
  new : ∀ change ∈ left, after.entry change.index = change.new
  /-- All other entries are as before. -/
  rest : ∀ index, (∀ change ∈ left, change.index ≠ index) →
    after.entry index = before.entry index

namespace Leaves

variable {before disk : Disk}

/-- The order of the changes does not matter. -/
theorem congr {left other : List Change} (leaves : Leaves before disk left)
    (same : ∀ change, change ∈ other ↔ change ∈ left) : Leaves before disk other :=
  ⟨fun change member => leaves.new change ((same change).mp member), fun index apart =>
    leaves.rest index fun change member => apart change ((same change).mpr member)⟩

/-- Writing the new entry of a change leaves it in place. -/
theorem write {change : Change} {left : List Change} (leaves : Leaves before disk left)
    (apart : change.index ∉ left.map Change.index) :
    Leaves before (DiskStep.apply (.edit change.index change.new) disk) (change :: left) := by
  constructor
  · intro other member
    rw [Disk.entry_edit]
    rcases List.mem_cons.mp member with rfl | listed
    · exact if_pos rfl
    · have different : other.index ≠ change.index := fun same =>
        apart (same ▸ List.mem_map_of_mem listed)
      rw [if_neg different, leaves.new other listed]
  · intro index other
    rw [Disk.entry_edit, if_neg fun same => other change List.mem_cons_self same.symm]
    exact leaves.rest index fun later member => other later (List.mem_cons_of_mem _ member)

/-- Writing the old entry of a change puts it back. -/
theorem undo {change : Change} {left : List Change} (leaves : Leaves before disk (change :: left))
    (apart : change.index ∉ left.map Change.index) (old : change.old = before.entry change.index) :
    Leaves before (DiskStep.apply (.edit change.index change.old) disk) left := by
  constructor
  · intro other member
    have different : other.index ≠ change.index := fun same =>
      apart (same ▸ List.mem_map_of_mem member)
    rw [Disk.entry_edit, if_neg different]
    exact leaves.new other (List.mem_cons_of_mem _ member)
  · intro index other
    rw [Disk.entry_edit]
    split
    · rename_i same
      rw [same, old]
    · rename_i different
      refine leaves.rest index fun later member => ?_
      rcases List.mem_cons.mp member with rfl | listed
      · exact fun same => different same.symm
      · exact other later listed

end Leaves

/-- An undo leaves changes it was given. -/
theorem undoLeaves_subset (fmt : Format) (outcomes : Nat → Outcome IoError)
    (changes : List Change) (n : Nat) : (undoLeaves fmt outcomes changes n).1 ⊆ changes := by
  induction changes generalizing n with
  | nil => exact List.Subset.refl _
  | cons change changes ih =>
    simp only [undoLeaves]
    split
    · exact List.subset_cons_of_subset _ (ih _)
    · split
      · exact List.subset_cons_of_subset _ (ih _)
      · exact List.cons_subset_cons _ (ih _)

/-- A writing leaves changes it was given or had written before. -/
theorem writeLeaves_subset (fmt : Format) (outcomes : Nat → Outcome IoError)
    (done changes : List Change) (n : Nat) :
    ∀ change ∈ (writeLeaves fmt outcomes done changes n).1, change ∈ done ∨ change ∈ changes := by
  induction changes generalizing done n with
  | nil => exact fun change member => .inl member
  | cons change changes ih =>
    intro other member
    simp only [writeLeaves] at member
    split at member
    · rcases ih _ _ other member with before | later
      · exact (List.mem_cons.mp before).elim (fun same => .inr (same ▸ List.mem_cons_self)) .inl
      · exact .inr (List.mem_cons_of_mem _ later)
    · have undone := undoLeaves_subset fmt outcomes done
      split at member
      · exact (List.mem_cons.mp member).elim (fun same => .inr (same ▸ List.mem_cons_self))
          fun left => .inl (undone _ left)
      · exact .inl (undone _ member)

section Loops

variable {fmt : Format} {before : Disk}

/-- The undo loop leaves in place what the script makes it leave, beside what was not its own. -/
theorem writeOld_leaves (sound : fmt.Sound) (changes apart : List Change)
    (inside : ∀ change ∈ changes, change.index < fmt.dirEntries) (media : Media)
    (long : fmt.minBytes ≤ media.length)
    (distinct : ((changes ++ apart).map Change.index).Nodup)
    (olds : ∀ change ∈ changes, change.old = before.entry change.index)
    (leaves : Leaves before (diskOf fmt media.contents) (changes ++ apart)) :
    ∃ reached, writeOld fmt changes media = (.ok (), reached) ∧
      reached.length = media.length ∧ reached.outcomes = media.outcomes ∧
      reached.calls = (undoLeaves fmt media.outcomes changes media.calls).2 ∧
      Leaves before (diskOf fmt reached.contents)
        ((undoLeaves fmt media.outcomes changes media.calls).1 ++ apart) := by
  induction changes generalizing media apart with
  | nil => exact ⟨media, rfl, rfl, rfl, rfl, leaves⟩
  | cons change changes ih =>
    have later : ∀ change ∈ changes, change.index < fmt.dirEntries := fun other member =>
      inside other (List.mem_cons_of_mem _ member)
    have oldsLater : ∀ change ∈ changes, change.old = before.entry change.index :=
      fun other member => olds other (List.mem_cons_of_mem _ member)
    have split : writeOld fmt (change :: changes) media =
        writeOld fmt changes (writeDirEntry fmt change.index change.old media).2 := rfl
    -- What the later changes make of any medium the first step leaves.
    have rest (beside : List Change) {reached : Media} {steps : List DiskStep} {n : Nat}
        (moved : Moved fmt media reached steps) (calls : reached.calls = n)
        (among : ((changes ++ beside).map Change.index).Nodup)
        (stands : Leaves before (diskOf fmt reached.contents) (changes ++ beside)) :
        ∃ last, writeOld fmt changes reached = (.ok (), last) ∧
          last.length = media.length ∧ last.outcomes = media.outcomes ∧
          last.calls = (undoLeaves fmt media.outcomes changes n).2 ∧
          Leaves before (diskOf fmt last.contents)
            ((undoLeaves fmt media.outcomes changes n).1 ++ beside) := by
      obtain ⟨last, went, length, outcomes, next, left⟩ :=
        ih beside later reached (by rwa [moved.length]) among oldsLater stands
      rw [moved.outcomes, calls] at next left
      exact ⟨last, went, length.trans moved.length, outcomes.trans moved.outcomes, next, left⟩
    rw [List.cons_append, List.map_cons, List.nodup_cons] at distinct
    have put := leaves.undo distinct.1 (olds change List.mem_cons_self)
    rw [split, undoLeaves]
    rcases writeDirEntry_cut sound media long (inside change List.mem_cons_self) change.old with
      ⟨fault, reached, ran, moved, calls, _⟩ |
      ⟨c, reason, reached, fault, ran, ⟨_, moved⟩, calls, wrote, unwrote⟩
    · have shown : diskOf fmt reached.contents =
          DiskStep.apply (.edit change.index change.old) (diskOf fmt media.contents) := moved.look_eq
      rw [ran, fault]
      rw [← shown] at put
      exact rest apart moved calls distinct.2 put
    · rw [ran, fault]
      simp only
      split_ifs with written
      · rw [← wrote written] at put
        exact rest apart moved calls distinct.2 put
      · -- The entry stays as it was to become: it is not the undo's own any more.
        have stays : Leaves before (diskOf fmt reached.contents) (changes ++ change :: apart) := by
          rw [unwrote written]
          exact leaves.congr fun other => by simp [or_left_comm]
        have among : ((changes ++ change :: apart).map Change.index).Nodup := by
          rw [(List.perm_middle.map Change.index).nodup_iff]
          exact List.nodup_cons.mpr distinct
        obtain ⟨last, went, length, outcomes, next, left⟩ :=
          rest (change :: apart) moved calls among stays
        exact ⟨last, went, length, outcomes, next,
          left.congr fun other => by simp [or_left_comm]⟩

/-- The first loop writes all changes, or ends at the one whose directory step fails: then the undo
of those before it leaves what the script makes the whole leave, beside that one. -/
theorem writeNew_leaves (sound : fmt.Sound) (changes done : List Change)
    (inside : ∀ change ∈ changes, change.index < fmt.dirEntries) (media : Media)
    (long : fmt.minBytes ≤ media.length)
    (distinct : ((changes ++ done).map Change.index).Nodup)
    (leaves : Leaves before (diskOf fmt media.contents) done) :
    (∃ reached, writeNew fmt changes media = (.ok (changes.length, .ok ()), reached) ∧
      reached.length = media.length ∧ reached.outcomes = media.outcomes ∧
      writeLeaves fmt media.outcomes done changes media.calls =
        (changes.reverse ++ done, reached.calls) ∧
      Leaves before (diskOf fmt reached.contents) (changes.reverse ++ done)) ∨
    (∃ count reason reached apart,
      writeNew fmt changes media = (.ok (count, .error reason), reached) ∧
      reached.length = media.length ∧ reached.outcomes = media.outcomes ∧
      (((changes.take count).reverse ++ done ++ apart).map Change.index).Nodup ∧
      Leaves before (diskOf fmt reached.contents) ((changes.take count).reverse ++ done ++ apart) ∧
      ∃ left next, undoLeaves fmt media.outcomes ((changes.take count).reverse ++ done)
          reached.calls = (left, next) ∧
        writeLeaves fmt media.outcomes done changes media.calls = (apart ++ left, next)) := by
  induction changes generalizing media done with
  | nil => exact .inl ⟨media, rfl, rfl, rfl, rfl, leaves⟩
  | cons change changes ih =>
    rw [List.cons_append, List.map_cons, List.nodup_cons] at distinct
    have own : change.index ∉ done.map Change.index := fun member =>
      distinct.1 (by simp [List.map_append, member])
    rw [writeNew, Fallible.bind_run, Fallible.attempt_run, writeLeaves]
    rcases writeDirEntry_cut sound media long (inside change List.mem_cons_self) change.new with
      ⟨fault, reached, ran, moved, calls, _⟩ |
      ⟨c, reason, reached, fault, ran, ⟨_, moved⟩, calls, wrote, unwrote⟩
    · simp only [ran, fault]
      have written := leaves.write own
      have shown : diskOf fmt reached.contents =
          DiskStep.apply (.edit change.index change.new) (diskOf fmt media.contents) := moved.look_eq
      rw [← shown] at written
      have among : ((changes ++ change :: done).map Change.index).Nodup := by
        rw [(List.perm_middle.map Change.index).nodup_iff]
        exact List.nodup_cons.mpr distinct
      have reversed (first : List Change) :
          first.reverse ++ change :: done = (change :: first).reverse ++ done := by simp
      rw [← calls, ← moved.outcomes]
      rcases ih (change :: done) (fun later member => inside later (List.mem_cons_of_mem _ member))
          reached (by rwa [moved.length]) among written with
        ⟨last, rest, length, outcomes, walk, left⟩ |
        ⟨count, reason, last, apart, rest, length, outcomes, nodup, left, undone⟩
      · refine .inl ⟨last, ?_, length.trans moved.length, outcomes,
          by rw [walk, reversed], by rwa [← reversed]⟩
        rw [Fallible.bind_ok rest]
        rfl
      · rw [reversed] at nodup left undone
        refine .inr ⟨count + 1, reason, last, apart, ?_, length.trans moved.length, outcomes, nodup,
          left, undone⟩
        rw [Fallible.bind_ok rest]
        rfl
    · simp only [ran, fault]
      refine .inr ⟨0, reason, reached, if Wrote media.outcomes (media.calls + c) c then [change]
        else [], rfl, moved.length, moved.outcomes, ?_, ?_, _, _, rfl, ?_⟩
      · split_ifs
        · rw [(List.perm_append_comm.map Change.index).nodup_iff]
          exact List.nodup_cons.mpr ⟨own, (distinct.2.sublist
            ((List.sublist_append_right changes done).map _))⟩
        · simpa using distinct.2.sublist ((List.sublist_append_right changes done).map _)
      · split_ifs with written
        · rw [wrote written]
          exact (leaves.write own).congr fun other => by simp [or_comm]
        · rw [unwrote written]
          simpa using leaves
      · rw [calls]
        split_ifs <;> rfl

/-- The writing of changes, their undo included, leaves in place what the script makes it leave. -/
theorem writeOrUndo_leaves (sound : fmt.Sound) (changes : List Change)
    (inside : ∀ change ∈ changes, change.index < fmt.dirEntries) (media : Media)
    (long : fmt.minBytes ≤ media.length) (distinct : (changes.map Change.index).Nodup)
    (olds : ∀ change ∈ changes, change.old = (diskOf fmt media.contents).entry change.index) :
    ∃ result reached, writeOrUndo fmt changes media = (.ok result, reached) ∧
      reached.outcomes = media.outcomes ∧
      reached.calls = (writeLeaves fmt media.outcomes [] changes media.calls).2 ∧
      Leaves (diskOf fmt media.contents) (diskOf fmt reached.contents)
        (writeLeaves fmt media.outcomes [] changes media.calls).1 := by
  have none : Leaves (diskOf fmt media.contents) (diskOf fmt media.contents) [] :=
    ⟨fun _ member => (List.not_mem_nil member).elim, fun _ _ => rfl⟩
  rcases writeNew_leaves sound changes [] inside media long (by rwa [List.append_nil]) none with
    ⟨reached, wrote, _, outcomes, walk, left⟩ |
    ⟨count, reason, reached, apart, wrote, length, outcomes, nodup, stands, left, next, undone,
      walk⟩
  · refine ⟨.ok (), reached, ?_, outcomes, by rw [walk], by rwa [walk]⟩
    rw [writeOrUndo, Fallible.bind_ok wrote]
    rfl
  · rw [List.append_nil] at nodup stands undone
    have taken : ∀ change ∈ (changes.take count).reverse, change ∈ changes := fun change member =>
      List.mem_of_mem_take (List.mem_reverse.mp member)
    obtain ⟨last, went, _, outcomes', calls, leaves⟩ := writeOld_leaves sound
      (changes.take count).reverse apart (fun change member => inside change (taken change member))
      reached (by rwa [length]) nodup (fun change member => olds change (taken change member)) stands
    rw [outcomes, undone] at calls leaves
    refine ⟨.error reason, last, ?_, outcomes'.trans outcomes, by rw [calls, walk], ?_⟩
    · rw [writeOrUndo, Fallible.bind_ok wrote]
      simp only [Fallible.bind_ok went, Fallible.pure_run]
    · rw [walk]
      exact leaves.congr fun other => by simp [or_comm]

end Loops

/-! ## Before the directory step -/

/-- How many calls a step on the store of records makes. -/
def DiskStep.callCount (fmt : Format) : DiskStep → Nat
  | .write record _ => recordCallCount fmt record
  | .edit index _ => entryCallCount fmt index

/-- How many calls some steps on the store of records make. -/
def stepCallCount (fmt : Format) (steps : List DiskStep) : Nat :=
  (steps.map (DiskStep.callCount fmt)).sum

/-- How many calls look up the entry a write edits: none where the file has it, and otherwise one
for each record up to that of the first free entry. -/
def lookupCallCount (fs : ImageFs) (f : File) (base index : Nat) : Nat :=
  if (entryFor fs.params fs.dir f base).isSome then 0 else index / entriesPerRecord + 1

/-- How many calls an operation on one entry makes before its directory step: those that look up
the entry, and those that write its data and flush them. -/
def Operation.readyCount (fs : ImageFs) (e : Edit) : Operation → Nat
  | .create _ => e.index / entriesPerRecord + 1
  | .writeRecord f record _ =>
    lookupCallCount fs f (baseExtent fs.params record) e.index +
      (stepCallCount fs.fmt e.data + 1)
  | .delete _ => 0
  | .rename _ _ _ => 0
  | .setReadOnly _ _ => 0
  | .truncate _ _ => 0

/-- A program ended after so many calls, all of which succeeded, or one of them failed. -/
def Spent {α : Type} (fs : ImageFs) (count : Nat) (ran : Except IoError α × ImageFs) : Prop :=
  (∃ value, ran.1 = .ok value ∧ ran.2.media.outcomes = fs.media.outcomes ∧
    ran.2.media.calls = fs.media.calls + count ∧
    ∀ i < count, fs.media.outcomes (fs.media.calls + i) = .done) ∨
  (∃ reason, ran.1 = .error reason ∧
    ∃ i < count, fs.media.outcomes (fs.media.calls + i) ≠ .done)

/-- Calls made before a counted part count with it. -/
theorem Spent.after {α : Type} {fs : ImageFs} {media : Media} {first count : Nat}
    {ran : Except IoError α × ImageFs} (spent : Spent (fs.withMedia media) count ran)
    (outcomes : media.outcomes = fs.media.outcomes) (calls : media.calls = fs.media.calls + first)
    (done : ∀ i < first, fs.media.outcomes (fs.media.calls + i) = .done) :
    Spent fs (first + count) ran := by
  have place : (fs.withMedia media).media.calls = fs.media.calls + first := calls
  have script : (fs.withMedia media).media.outcomes = fs.media.outcomes := outcomes
  rcases spent with ⟨value, ended, same, reached, more⟩ | ⟨reason, ended, i, inside, failed⟩
  · refine .inl ⟨value, ended, same.trans script, by rw [reached, place, Nat.add_assoc],
      fun i inside => ?_⟩
    by_cases early : i < first
    · exact done i early
    · have later := more (i - first) (by omega)
      rw [script, place, Nat.add_assoc, Nat.add_sub_cancel' (Nat.le_of_not_lt early)] at later
      exact later
  · refine .inr ⟨reason, ended, first + i, by omega, ?_⟩
    rwa [script, place, Nat.add_assoc] at failed

/-- Zeroing records of a block makes the calls of each. -/
theorem zeroRecords_playsFor {fmt : Format} (sound : fmt.Sound) {block : Nat}
    (positive : block ≠ 0) (known : block ≤ (Params.derive fmt).maxBlock) (records : List Nat)
    (within : ∀ record ∈ records, record < (Params.derive fmt).recordsPerBlock) (media : Media)
    (long : fmt.minBytes ≤ media.length) :
    Medium.PlaysFor (zeroRecords fmt block records) media
      (stepCallCount fmt (zeroSteps fmt block records)) () := by
  induction records generalizing media with
  | nil => exact ⟨[], rfl, .pure media ()⟩
  | cons record records ih =>
    have head := writeBlockRecord_plays sound media long positive known
      (within record List.mem_cons_self) fun _ => 0
    exact Medium.PlaysFor.bind ⟨_, recordCalls_length fmt _ _ _, head⟩ fun reached length =>
      ih (fun later member => within later (List.mem_cons_of_mem _ member)) reached (by rwa [length])

/-- The data step of a write makes the calls of its data and a flush. -/
theorem writeData_playsFor {fmt : Format} (sound : fmt.Sound) {block offsetInBlock : Nat}
    (positive : block ≠ 0) (known : block ≤ (Params.derive fmt).maxBlock)
    (within : offsetInBlock < (Params.derive fmt).recordsPerBlock) (data : Record) (fresh : Bool)
    (media : Media) (long : fmt.minBytes ≤ media.length) :
    Medium.PlaysFor (writeData fmt block offsetInBlock data fresh) media
      (stepCallCount fmt ((if fresh then
        zeroSteps fmt block (otherRecords (Params.derive fmt) offsetInBlock) else []) ++
          [.write (fmt.blockRecord block offsetInBlock) data]) + 1) () := by
  have others : ∀ record ∈ otherRecords (Params.derive fmt) offsetInBlock,
      record < (Params.derive fmt).recordsPerBlock := fun record member =>
    List.mem_range.mp (List.mem_filter.mp member).1
  have writing (reached : Media) (same : reached.length = media.length) (push : MediaM Unit)
      (pushes : ∀ last, Medium.Plays push last [.flush] ()) :
      Medium.PlaysFor (writeBlockRecord fmt block offsetInBlock data >>= fun _ => push) reached
        (recordCallCount fmt (fmt.blockRecord block offsetInBlock) + 1) () :=
    Medium.PlaysFor.bind ⟨_, recordCalls_length fmt _ _ _,
      writeBlockRecord_plays sound reached (by rwa [same]) positive known within data⟩
      fun last _ => ⟨[.flush], rfl, pushes last⟩
  cases fresh with
  | true =>
    have whole : Medium.PlaysFor (zeroRecords fmt block _ >>= fun _ =>
        writeBlockRecord fmt block offsetInBlock data >>= fun _ => sync) media _ () :=
      (zeroRecords_playsFor sound positive known _ others media long).bind fun reached length =>
        writing reached length sync sync_plays
    simpa [writeData, stepCallCount, DiskStep.callCount, Nat.add_assoc] using whole
  | false =>
    have whole := writing media rfl flush flush_plays
    simpa [writeData, stepCallCount, DiskStep.callCount] using whole

section Preparing

variable {fs : ImageFs}

/-- `create` makes its calls before the directory step. -/
theorem prepareCreate_spent (valid : fs.Valid) (writable : fs.readOnly = false) {f : File}
    {e : Edit} (planned : planOf fs (.create f) = .edit e) :
    Spent fs (Operation.readyCount fs e (.create f)) (prepareCreate f fs) := by
  obtain ⟨printable, absent, free⟩ := planOf_edit planned
  rw [prepareCreate, Fallible.bind_ok (checkWritable_run writable),
    Fallible.bind_ok ((checkName_run f.name f.ext fs).1 printable), Fallible.bind_run,
    Fallible.view_run]
  simp only [id_eq, absent, Bool.false_eq_true, ↓reduceIte, Fallible.bind_run, onMedia_run]
  rcases (freeDirSlot_playsFor valid.sound fs.media valid.long free).cut with
    ⟨reached, ran, _, outcomes, calls, done⟩ | ⟨reason, reached, ran, failed⟩
  · simp only [ran]
    exact .inl ⟨_, rfl, outcomes, calls, done⟩
  · simp only [ran]
    exact .inr ⟨reason, rfl, failed⟩

/-- Looking up the entry to edit makes its calls. -/
theorem targetEntry_spent (valid : fs.Valid) {f : File} {base index : Nat} {raw : RawEntry}
    (target : planTarget fs f base = some (index, raw)) :
    (∃ media, targetEntry f base fs = (.ok (index, raw), fs.withMedia media) ∧
      media.length = fs.media.length ∧ media.outcomes = fs.media.outcomes ∧
      media.calls = fs.media.calls + lookupCallCount fs f base index ∧
      ∀ i < lookupCallCount fs f base index,
        fs.media.outcomes (fs.media.calls + i) = .done) ∨
    (∃ reason media, targetEntry f base fs = (.error reason, fs.withMedia media) ∧
      ∃ i < lookupCallCount fs f base index,
        fs.media.outcomes (fs.media.calls + i) ≠ .done) := by
  rw [planTarget] at target
  rw [targetEntry, Fallible.bind_run, Fallible.view_run, lookupCallCount]
  simp only [id_eq]
  cases known : entryFor fs.params fs.dir f base with
  | some e =>
    rw [known] at target
    obtain ⟨rfl, rfl⟩ := Prod.mk.inj (Option.some.inj target)
    exact .inl ⟨fs.media, rfl, rfl, rfl, rfl, fun i inside => absurd inside (Nat.not_lt_zero i)⟩
  | none =>
    rw [known] at target
    obtain ⟨place, free, same⟩ := Option.map_eq_some_iff.mp target
    obtain ⟨rfl, rfl⟩ := Prod.mk.inj same
    simp only [Fallible.bind_run, onMedia_run, Option.isSome_none, Bool.false_eq_true, ↓reduceIte]
    rcases (freeDirSlot_playsFor valid.sound fs.media valid.long free).cut with
      ⟨reached, ran, length, outcomes, calls, done⟩ | ⟨reason, reached, ran, failed⟩
    · simp only [ran]
      exact .inl ⟨reached, rfl, length, outcomes, calls, done⟩
    · simp only [ran]
      exact .inr ⟨reason, reached, rfl, failed⟩

/-- The data step of `write_record` makes its calls. -/
theorem writeBlock_spent (valid : fs.Valid) {record : Nat} {data : Record} {index : Nat}
    {raw : RawEntry} {e : Edit} (planned : planBlock fs record data index raw = .edit e)
    {media : Media} (length : media.length = fs.media.length) :
    Spent (fs.withMedia media) (stepCallCount fs.fmt e.data + 1) ((do
      let (block, blocks, fresh) ← targetBlock raw
        (withinEntry fs.params record / fs.params.recordsPerBlock)
      onMedia (writeData fs.fmt block (withinEntry fs.params record % fs.params.recordsPerBlock)
        data fresh)
      pure (index, (encodeBlocks raw blocks fs.params).grown fs.params
        (baseExtent fs.params record) (withinEntry fs.params record)) : FsM (Nat × RawEntry))
      (fs.withMedia media)) := by
  have sound := valid.sound
  have long : fs.fmt.minBytes ≤ media.length := length ▸ valid.long
  have within : withinEntry fs.params record % fs.params.recordsPerBlock <
      fs.params.recordsPerBlock := Nat.mod_lt _ sound.block
  have params : (fs.withMedia media).params = fs.params := rfl
  have bitmap : (fs.withMedia media).used = fs.used := rfl
  -- Once the block is known, the calls are those of its data.
  have written (reached : ImageFs) (same : reached.media = media) (block : Nat)
      (positive : block ≠ 0) (known : block ≤ fs.params.maxBlock) (fresh : Bool)
      (value : Nat × RawEntry) :
      Spent (fs.withMedia media)
        (stepCallCount fs.fmt (planEdit fs record data index raw block fresh).data + 1)
        ((onMedia (writeData fs.fmt block
          (withinEntry fs.params record % fs.params.recordsPerBlock) data fresh) >>=
            fun _ => pure value) reached) := by
    simp only [Fallible.bind_run, onMedia_run, same]
    rcases (writeData_playsFor sound positive known within data fresh media long).cut with
      ⟨last, ran, _, outcomes, calls, done⟩ | ⟨reason, last, ran, failed⟩
    · simp only [ran]
      exact .inl ⟨value, rfl, outcomes, calls, done⟩
    · simp only [ran]
      exact .inr ⟨reason, rfl, failed⟩
  rw [planBlock] at planned
  rw [Fallible.bind_run, targetBlock, Fallible.bind_run, Fallible.view_run]
  simp only [id_eq, params]
  cases slot : (decodeBlocks raw fs.params)[withinEntry fs.params record /
      fs.params.recordsPerBlock]? with
  | none =>
    rw [slot] at planned
    cases planned
  | some block =>
    rw [slot] at planned
    cases block with
    | zero =>
      simp only at planned
      simp only [allocBlock, Fallible.bind_run, Fallible.view_run, id_eq, params, bitmap]
      cases free : freeBlock fs.params fs.used with
      | none =>
        rw [free] at planned
        cases planned
      | some block =>
        rw [free] at planned
        cases planned
        obtain ⟨low, high, _⟩ := freeBlock_some free
        have positive : block ≠ 0 := by
          have dir := sound.dirBlocks_pos
          rw [ImageFs.params] at low
          omega
        exact written _ rfl block positive high true _
    | succ block =>
      simp only at planned
      split_ifs at planned with past
      cases planned
      simp only [past, ↓reduceIte]
      exact written _ rfl (block + 1) (Nat.succ_ne_zero block) (Nat.not_lt.mp past) false _

/-- `write_record` makes its calls before the directory step. -/
theorem prepareRecord_spent (valid : fs.Valid) (writable : fs.readOnly = false) {f : File}
    {record : Nat} {data : Record} {e : Edit}
    (planned : planOf fs (.writeRecord f record data) = .edit e) :
    Spent fs (Operation.readyCount fs e (.writeRecord f record data))
      (prepareRecord f record data fs) := by
  rw [planOf, planWrite] at planned
  rw [prepareRecord, Fallible.bind_ok (checkWritable_run writable), Fallible.bind_run,
    Fallible.view_run]
  simp only [id_eq]
  split_ifs at planned with there locked
  rw [if_neg (not_not.mpr there), if_neg locked]
  cases target : planTarget fs f (baseExtent fs.params record) with
  | none =>
    rw [target] at planned
    cases planned
  | some found =>
    obtain ⟨index, raw⟩ := found
    rw [target] at planned
    have place : e.index = index := by
      simp only [planBlock] at planned
      split at planned
      · cases planned
      · split at planned <;> cases planned
        rfl
      · split at planned <;> cases planned
        rfl
    rw [Operation.readyCount, place]
    rcases targetEntry_spent valid target with
      ⟨media, ran, length, outcomes, calls, done⟩ | ⟨reason, media, ran, i, inside, failed⟩
    · rw [Fallible.bind_ok ran]
      exact (writeBlock_spent valid planned length).after outcomes calls done
    · rw [Fallible.bind_error ran]
      exact .inr ⟨reason, rfl, i, by omega, failed⟩

end Preparing

end EthernetGateway.Image
