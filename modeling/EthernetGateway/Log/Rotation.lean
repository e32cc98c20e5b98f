import EthernetGateway.Fallible
import EthernetGateway.Text
import EthernetGateway.Turnover

/-!
# Rotating the log

The log is an active file and its generations. A rotation deletes the generations past the limit,
moves the others down by a rename each and opens the active file empty; each of these calls can
fail, and a failing rename or open ends the rotation where it is.
-/

namespace EthernetGateway.Log

/-- `FilePolicy`, its `path` left to the names that `rotated_path` makes of it. -/
structure FilePolicy where
  /-- `max_bytes`. -/
  maxBytes : Nat
  /-- `max_files`. -/
  maxFiles : Nat
  deriving DecidableEq

/-- `MAX_LOG_MAX_FILES`. -/
def maxLogMaxFiles : Nat := 99

/-- A file as the writes it holds, in order; its bytes are theirs. -/
abbrev Contents := List (List UInt8)

/-- The files at the names of a log: `path` at 0 and `rotated_path(path, n)` at `n`. -/
abbrev Generations := Nat → Option Contents

/-- What the file at a name holds, nothing when there is none. -/
def held (files : Generations) (n : Nat) : Contents := (files n).getD []

/-- `should_rotate`. -/
def shouldRotate (written nextLen maxBytes : Nat) : Bool :=
  -- The saturating addition would tell only for files of 2^64 bytes.
  decide (maxBytes > 0) && decide (written > 0) && decide (written + nextLen > maxBytes)

/-- How the calls of one rotation end. -/
structure RotationCalls where
  /-- `remove_file` of a generation. -/
  removes : Nat → Except Text Unit
  /-- `rename` of a generation to the next. -/
  renames : Nat → Except Text Unit
  /-- `open_log`. -/
  opens : Except Text Unit

/-- Delete a generation if it is there; a failure is only reported. -/
def removeIfThere (calls : RotationCalls) (n : Nat) (files : Generations) : Generations :=
  if (files n).isSome && (calls.removes n).isOk then Function.update files n none else files

/-- Delete some generations. -/
def removeEach (calls : RotationCalls) : List Nat → Generations → Generations
  | [], files => files
  | n :: rest, files => removeEach calls rest (removeIfThere calls n files)

/-- Rename a generation to the next if it is there. -/
def renameIfThere (calls : RotationCalls) (n : Nat) : Fallible Generations Text Unit := fun files =>
  match files n with
  | none => (.ok (), files)
  | some contents =>
    match calls.renames n with
    | .ok () => (.ok (), Function.update (Function.update files (n + 1) (some contents)) n none)
    | .error e => (.error e, files)

/-- `for n in (1..max_files).rev()`: rename the generations, the oldest first. -/
def shiftDown (calls : RotationCalls) : Nat → Fallible Generations Text Unit
  | 0 => pure ()
  | n + 1 => do
    renameIfThere calls (n + 1)
    shiftDown calls n

/-- `open_log`: create the active file, and empty it when asked to. -/
def openLog (truncate : Bool) (opens : Except Text Unit) : Fallible Generations Text Unit :=
  fun files =>
    match opens with
    | .ok () => (.ok (), Function.update files 0 (some (if truncate then [] else held files 0)))
    | .error e => (.error e, files)

/-- The generations past the limit, up to the cap. -/
def staleGenerations (policy : FilePolicy) : List Nat :=
  List.range' (policy.maxFiles + 1) (maxLogMaxFiles - policy.maxFiles)

/-- `rotate`. -/
def rotate (policy : FilePolicy) (calls : RotationCalls) : Fallible Generations Text Unit := do
  Fallible.change (removeEach calls (staleGenerations policy))
  if policy.maxFiles = 0 then
    openLog true calls.opens
  else do
    Fallible.change (removeIfThere calls policy.maxFiles)
    shiftDown calls (policy.maxFiles - 1)
    renameIfThere calls 0
    openLog true calls.opens

/-! ## Reading the generations -/

/-- What the generations hold, read from the oldest to the active file. -/
def readFrom : Nat → Generations → Contents
  | 0, files => held files 0
  | n + 1, files => held files (n + 1) ++ readFrom n files

section Reading

variable {files : Generations} {top n : Nat}

theorem held_update_same (files : Generations) (n : Nat) (file : Option Contents) :
    held (Function.update files n file) n = file.getD [] := by
  rw [held, Function.update_self]

theorem held_update_other (files : Generations) {n m : Nat} (other : m ≠ n)
    (file : Option Contents) : held (Function.update files n file) m = held files m := by
  rw [held, held, Function.update_of_ne other]

/-- A generation past those read does not count. -/
theorem readFrom_update_past (files : Generations) (past : top < n) (file : Option Contents) :
    readFrom top (Function.update files n file) = readFrom top files := by
  induction top with
  | zero => exact held_update_other files (by omega) file
  | succ top ih =>
    rw [readFrom, readFrom, held_update_other files (by omega), ih (by omega)]

/-- Replacing a file replaces its part of the reading. -/
theorem readFrom_split (files : Generations) (inside : n ≤ top) :
    ∃ older younger, readFrom top files = older ++ held files n ++ younger ∧
      (n = top → older = []) ∧ (n = 0 → younger = []) ∧
      ∀ file, readFrom top (Function.update files n file) = older ++ file.getD [] ++ younger := by
  induction top with
  | zero =>
    obtain rfl : n = 0 := by omega
    exact ⟨[], [], by simp [readFrom], fun _ => rfl, fun _ => rfl,
      fun file => by simp [readFrom, held_update_same]⟩
  | succ top ih =>
    by_cases last : n = top + 1
    · subst last
      refine ⟨[], readFrom top files, by simp [readFrom], fun _ => rfl, fun zero => by omega,
        fun file => ?_⟩
      rw [readFrom, held_update_same, readFrom_update_past files (Nat.lt_succ_self top)]
      simp
    · obtain ⟨older, younger, before, _, least, after⟩ := ih (by omega)
      refine ⟨held files (top + 1) ++ older, younger, ?_, fun same => absurd same last, least,
        fun file => ?_⟩
      · rw [readFrom, before]
        simp
      · rw [readFrom, after, held_update_other files (by omega)]
        simp

/-- Replacing two files that follow each other replaces their parts of the reading. -/
theorem readFrom_split_pair (files : Generations) (inside : n + 1 ≤ top) :
    ∃ older younger, readFrom top files = older ++ held files (n + 1) ++ held files n ++ younger ∧
      ∀ file next, readFrom top (Function.update (Function.update files (n + 1) file) n next) =
        older ++ file.getD [] ++ next.getD [] ++ younger := by
  induction top with
  | zero => omega
  | succ top ih =>
    by_cases last : n = top
    · subst last
      obtain ⟨older, younger, before, first, _, after⟩ := readFrom_split files (Nat.le_refl n)
      obtain rfl := first rfl
      refine ⟨[], younger, ?_, fun file next => ?_⟩
      · rw [readFrom, before]
        simp
      · rw [readFrom, Function.update_comm (by omega), held_update_same,
          readFrom_update_past _ (Nat.lt_succ_self n), after]
        simp
    · obtain ⟨older, younger, before, after⟩ := ih (by omega)
      refine ⟨held files (top + 1) ++ older, younger, ?_, fun file next => ?_⟩
      · rw [readFrom, before]
        simp
      · rw [readFrom, after, held_update_other _ (by omega), held_update_other _ (by omega)]
        simp

end Reading

/-! ## What the calls do to the reading -/

section Calls

variable {calls : RotationCalls} {files : Generations} {top n : Nat}

/-- Deleting a generation loses what it held, when the call succeeds. -/
theorem removeIfThere_turnover (calls : RotationCalls) (files : Generations) (inside : n ≤ top) :
    Turnover (readFrom top files) [] (if (calls.removes n).isOk then held files n else [])
      (readFrom top (removeIfThere calls n files)) := by
  obtain ⟨older, younger, before, _, _, after⟩ := readFrom_split files inside
  rw [removeIfThere]
  cases there : files n with
  | none =>
    have nothing : held files n = [] := by rw [held, there]; rfl
    rw [nothing, ite_self]
    exact Turnover.refl _
  | some contents =>
    by_cases removed : (calls.removes n).isOk = true
    · rw [if_pos removed, if_pos (by simp [removed]), after, before]
      simpa using Turnover.drop older (held files n) younger
    · rw [if_neg removed, if_neg (by simp [removed])]
      exact Turnover.refl _

/-- Deleting a generation leaves the others. -/
theorem removeIfThere_other {m : Nat} (other : m ≠ n) :
    removeIfThere calls n files m = files m := by
  rw [removeIfThere]
  split
  · exact Function.update_of_ne other _ _
  · rfl

/-- A generation whose deletion succeeds is gone. -/
theorem removeIfThere_gone (removed : (calls.removes n).isOk = true) :
    removeIfThere calls n files n = none := by
  rw [removeIfThere, removed, Bool.and_true]
  split
  · exact Function.update_self _ _ _
  · rename_i absent
    rwa [Bool.not_eq_true, Option.isSome_eq_false_iff, Option.isNone_iff_eq_none] at absent

/-- Deleting some generations leaves the others. -/
theorem removeEach_other {m : Nat} {list : List Nat} (other : m ∉ list) :
    removeEach calls list files m = files m := by
  induction list generalizing files with
  | nil => rfl
  | cons n rest ih =>
    rw [List.mem_cons, not_or] at other
    rw [removeEach, ih other.2, removeIfThere_other other.1]

/-- Generations whose deletions succeed are gone. -/
theorem removeEach_gone {list : List Nat} (distinct : list.Nodup) {m : Nat} (member : m ∈ list)
    (removed : (calls.removes m).isOk = true) : removeEach calls list files m = none := by
  induction list generalizing files with
  | nil => cases member
  | cons n rest ih =>
    rw [List.nodup_cons] at distinct
    rw [removeEach]
    rcases List.mem_cons.mp member with rfl | later
    · rw [removeEach_other distinct.1]
      exact removeIfThere_gone removed
    · exact ih distinct.2 later

/-- Deleting some generations loses what those held whose deletions succeed. -/
theorem removeEach_turnover (calls : RotationCalls) (files : Generations) {list : List Nat}
    (distinct : list.Nodup) (inside : ∀ n ∈ list, n ≤ top) :
    Turnover (readFrom top files) []
      (list.flatMap fun n => if (calls.removes n).isOk then held files n else [])
      (readFrom top (removeEach calls list files)) := by
  induction list generalizing files with
  | nil => exact Turnover.refl _
  | cons n rest ih =>
    rw [List.nodup_cons] at distinct
    have first := removeIfThere_turnover calls files (inside n List.mem_cons_self)
    have later := ih (removeIfThere calls n files) distinct.2
      fun m member => inside m (List.mem_cons_of_mem n member)
    have same : (rest.flatMap fun m =>
        if (calls.removes m).isOk then held (removeIfThere calls n files) m else []) =
        rest.flatMap fun m => if (calls.removes m).isOk then held files m else [] :=
      List.flatMap_congr fun m member => by
        have other : m ≠ n := fun equal => distinct.1 (equal ▸ member)
        rw [held, held, removeIfThere_other other]
    rw [same] at later
    exact first.trans later

/-- Renaming a generation to the next loses what the next held, when there is something to rename
and the call succeeds. -/
theorem renameIfThere_turnover (calls : RotationCalls) (files : Generations)
    (inside : n + 1 ≤ top) :
    Turnover (readFrom top files) []
      (if (files n).isSome && (calls.renames n).isOk then held files (n + 1) else [])
      (readFrom top (renameIfThere calls n files).2) := by
  obtain ⟨older, younger, before, after⟩ := readFrom_split_pair files inside
  rw [renameIfThere]
  cases there : files n with
  | none => exact Turnover.refl _
  | some contents =>
    cases renamed : calls.renames n with
    | error e => exact Turnover.refl _
    | ok value =>
      have same : held files n = contents := by rw [held, there]; rfl
      simp only [Option.isSome_some, Bool.true_and, Except.isOk, Except.toBool, if_true]
      rw [after, before, same]
      simpa using Turnover.drop older (held files (n + 1)) (contents ++ younger)

/-- A rename fails exactly when there is something to rename and the call fails. -/
theorem renameIfThere_ok_iff :
    (renameIfThere calls n files).1.isOk = true ↔
      ((files n).isSome = true → (calls.renames n).isOk = true) := by
  rw [renameIfThere]
  cases there : files n with
  | none => simp [Except.isOk, Except.toBool]
  | some contents =>
    cases renamed : calls.renames n with
    | error e => simp [Except.isOk, Except.toBool]
    | ok value => simp [Except.isOk, Except.toBool]

/-- After a rename that does not fail nothing is left at the name. -/
theorem renameIfThere_moved (ran : (renameIfThere calls n files).1.isOk = true) :
    (renameIfThere calls n files).2 n = none := by
  rw [renameIfThere] at ran ⊢
  cases there : files n with
  | none => exact there
  | some contents =>
    rw [there] at ran
    cases renamed : calls.renames n with
    | error e =>
      rw [renamed] at ran
      cases ran
    | ok value => exact Function.update_self _ _ _

/-- A rename leaves all but two names. -/
theorem renameIfThere_other {m : Nat} (other : m ≠ n) (next : m ≠ n + 1) :
    (renameIfThere calls n files).2 m = files m := by
  rw [renameIfThere]
  cases there : files n with
  | none => rfl
  | some contents =>
    cases renamed : calls.renames n with
    | error e => rfl
    | ok value =>
      exact (Function.update_of_ne other _ _).trans (Function.update_of_ne next _ _)

end Calls

/-! ## All renames of a rotation -/

section Shift

variable {calls : RotationCalls} {files : Generations} {top : Nat}

/-- The renames of a rotation, the last of which is that of the active file. -/
def shiftAll (calls : RotationCalls) : Nat → Fallible Generations Text Unit
  | 0 => renameIfThere calls 0
  | n + 1 => do
    renameIfThere calls (n + 1)
    shiftAll calls n

/-- The renames of the generations and that of the active file are all renames. -/
theorem shiftDown_then (calls : RotationCalls) (last : Nat)
    (next : Unit → Fallible Generations Text Unit) :
    (shiftDown calls last >>= fun _ => renameIfThere calls 0 >>= next) =
      shiftAll calls last >>= next := by
  induction last with
  | zero => rfl
  | succ n ih =>
    rw [shiftDown, shiftAll, Fallible.bind_assoc_run, Fallible.bind_assoc_run]
    simp only [ih]

/-- One rename, then the others, when it does not fail. -/
theorem shiftAll_succ (n : Nat) (files : Generations) :
    shiftAll calls (n + 1) files =
      if (renameIfThere calls (n + 1) files).1.isOk then
        shiftAll calls n (renameIfThere calls (n + 1) files).2
      else renameIfThere calls (n + 1) files := by
  rw [shiftAll, Fallible.bind_run]
  cases ran : renameIfThere calls (n + 1) files with
  | mk ending reached => cases ending <;> rfl

/-- The renames lose what the name past the last holds, when they overwrite it. -/
theorem shiftAll_turnover (calls : RotationCalls) (files : Generations) {last : Nat}
    (inside : last + 1 ≤ top) :
    Turnover (readFrom top files) []
      (if (files last).isSome && (calls.renames last).isOk then held files (last + 1) else [])
      (readFrom top (shiftAll calls last files).2) := by
  induction last generalizing files with
  | zero => exact renameIfThere_turnover calls files inside
  | succ n ih =>
    have first := renameIfThere_turnover calls files inside
    rw [shiftAll_succ]
    by_cases ran : (renameIfThere calls (n + 1) files).1.isOk = true
    · rw [if_pos ran]
      have later := ih (renameIfThere calls (n + 1) files).2 (by omega)
      have nothing : held (renameIfThere calls (n + 1) files).2 (n + 1) = [] := by
        rw [held, renameIfThere_moved ran]
        rfl
      rw [nothing, ite_self] at later
      simpa using first.trans later
    · rw [if_neg ran]
      exact first

/-- The renames succeed exactly when each that has something to rename does. -/
theorem shiftAll_ok_iff {last : Nat} :
    (shiftAll calls last files).1.isOk = true ↔
      ∀ n ≤ last, (files n).isSome = true → (calls.renames n).isOk = true := by
  induction last generalizing files with
  | zero =>
    rw [shiftAll, renameIfThere_ok_iff]
    constructor
    · intro ran n least
      obtain rfl : n = 0 := by omega
      exact ran
    · intro every
      exact every 0 (Nat.le_refl 0)
  | succ last ih =>
    rw [shiftAll_succ]
    by_cases ran : (renameIfThere calls (last + 1) files).1.isOk = true
    · rw [if_pos ran, ih]
      have kept {n : Nat} (below : n ≤ last) :
          (renameIfThere calls (last + 1) files).2 n = files n :=
        renameIfThere_other (by omega) (by omega)
      constructor
      · intro every n below
        rcases Nat.lt_or_ge last n with above | inside
        · obtain rfl : n = last + 1 := by omega
          exact renameIfThere_ok_iff.mp ran
        · rw [← kept inside]
          exact every n inside
      · intro every n below
        rw [kept below]
        exact every n (by omega)
    · rw [if_neg ran]
      constructor
      · intro same
        exact absurd same ran
      · intro every
        exact absurd (renameIfThere_ok_iff.mpr (every (last + 1) (Nat.le_refl _))) ran

/-- After all renames nothing is left at the active name. -/
theorem shiftAll_moved {last : Nat} (ran : (shiftAll calls last files).1.isOk = true) :
    (shiftAll calls last files).2 0 = none := by
  induction last generalizing files with
  | zero => exact renameIfThere_moved ran
  | succ n ih =>
    rw [shiftAll_succ] at ran ⊢
    by_cases first : (renameIfThere calls (n + 1) files).1.isOk = true
    · rw [if_pos first] at ran ⊢
      exact ih ran
    · rw [if_neg first] at ran
      exact absurd ran first

/-- Renames one of which fails leave the active file. -/
theorem shiftAll_failed {last : Nat} (failed : ¬ (shiftAll calls last files).1.isOk = true) :
    (shiftAll calls last files).2 0 = files 0 := by
  induction last generalizing files with
  | zero =>
    rw [shiftAll, renameIfThere] at failed ⊢
    cases there : files 0 with
    | none => exact there
    | some contents =>
      rw [there] at failed
      cases renamed : calls.renames 0 with
      | error e => exact there
      | ok value =>
        rw [renamed] at failed
        exact absurd rfl failed
  | succ n ih =>
    have first : (renameIfThere calls (n + 1) files).2 0 = files 0 :=
      renameIfThere_other (by omega) (by omega)
    rw [shiftAll_succ] at failed ⊢
    split at failed
    · rename_i ran
      rw [if_pos ran, ih failed, first]
    · rename_i stopped
      rw [if_neg stopped, first]

/-- The renames leave the names past those they rename to. -/
theorem shiftAll_past {last m : Nat} (past : last + 1 < m) :
    (shiftAll calls last files).2 m = files m := by
  induction last generalizing files with
  | zero => exact renameIfThere_other (by omega) (by omega)
  | succ n ih =>
    rw [shiftAll_succ]
    split
    · rw [ih (by omega)]
      exact renameIfThere_other (by omega) (by omega)
    · exact renameIfThere_other (by omega) (by omega)

end Shift

/-! ## One attempt -/

/-- A rotation that is attempted: the policy, how its calls end, and the files it starts from. -/
structure Attempt where
  /-- The policy. -/
  policy : FilePolicy
  /-- How its calls end. -/
  calls : RotationCalls
  /-- The files it starts from. -/
  files : Generations

namespace Attempt

variable (attempt : Attempt)

/-- The attempt made. -/
def run : Except Text Unit × Generations :=
  rotate attempt.policy attempt.calls attempt.files

/-- No rename it makes fails, nor the open. -/
def Clear : Prop :=
  (∀ n < attempt.policy.maxFiles,
    (attempt.files n).isSome = true → (attempt.calls.renames n).isOk = true) ∧
  attempt.calls.opens.isOk = true

/-- What it deletes of the generations past the limit. -/
def stale : Contents :=
  (staleGenerations attempt.policy).flatMap fun n =>
    if (attempt.calls.removes n).isOk then held attempt.files n else []

/-- What it deletes or overwrites at the limit. -/
def oldest : Contents :=
  if attempt.policy.maxFiles = 0 then
    if attempt.calls.opens.isOk then held attempt.files 0 else []
  else if (attempt.calls.removes attempt.policy.maxFiles).isOk ||
      ((attempt.files (attempt.policy.maxFiles - 1)).isSome &&
        (attempt.calls.renames (attempt.policy.maxFiles - 1)).isOk) then
    held attempt.files attempt.policy.maxFiles
  else []

/-- What it deletes or overwrites: the oldest generation and those past the limit. -/
def lost : Contents := attempt.stale ++ attempt.oldest

/-- The generations past the limit differ, and are none of those within it. -/
theorem mem_staleGenerations {policy : FilePolicy} {n : Nat} :
    n ∈ staleGenerations policy ↔ policy.maxFiles < n ∧ n ≤ maxLogMaxFiles := by
  rw [staleGenerations, List.mem_range'_1]
  omega

/-- The files after the generations past the limit were deleted. -/
def trimmed : Generations :=
  removeEach attempt.calls (staleGenerations attempt.policy) attempt.files

/-- The generations within the limit are not touched by deleting those past it. -/
theorem trimmed_within {n : Nat} (within : n ≤ attempt.policy.maxFiles) :
    attempt.trimmed n = attempt.files n :=
  removeEach_other fun member => by
    have := mem_staleGenerations.mp member
    omega

/-- Deleting the generations past the limit loses what is counted as stale. -/
theorem trimmed_turnover {top : Nat} (capped : maxLogMaxFiles ≤ top) :
    Turnover (readFrom top attempt.files) [] attempt.stale (readFrom top attempt.trimmed) :=
  removeEach_turnover attempt.calls attempt.files List.nodup_range' fun n member => by
    have := mem_staleGenerations.mp member
    omega

/-- Without generations to keep a rotation opens the active file empty. -/
theorem run_zero (zero : attempt.policy.maxFiles = 0) :
    attempt.run = openLog true attempt.calls.opens attempt.trimmed := by
  rw [run, rotate, if_pos zero]
  rfl

/-- The files after the oldest generation was deleted. -/
def freed : Generations :=
  removeIfThere attempt.calls attempt.policy.maxFiles attempt.trimmed

/-- The generations that are moved are not touched by the deletions. -/
theorem freed_below {n : Nat} (below : n < attempt.policy.maxFiles) :
    attempt.freed n = attempt.files n := by
  rw [freed, removeIfThere_other (by omega), attempt.trimmed_within (by omega)]

/-- With generations to keep a rotation deletes the oldest, renames the others and opens. -/
theorem run_succ (some : attempt.policy.maxFiles ≠ 0) :
    attempt.run = (shiftAll attempt.calls (attempt.policy.maxFiles - 1) >>=
      fun _ => openLog true attempt.calls.opens) attempt.freed := by
  rw [run, rotate, if_neg some, ← shiftDown_then]
  rfl

/-- Opening empty loses what the active file held, when the call succeeds. -/
theorem openLog_turnover (opens : Except Text Unit) (files : Generations) (top : Nat) :
    Turnover (readFrom top files) [] (if opens.isOk then held files 0 else [])
      (readFrom top (openLog true opens files).2) := by
  obtain ⟨older, younger, before, _, _, after⟩ := readFrom_split files (Nat.zero_le top)
  cases opens with
  | error e => exact Turnover.refl _
  | ok value =>
    have opened : (openLog true (.ok value) files).2 = Function.update files 0 (some []) := rfl
    rw [opened, after, before, if_pos (by rfl)]
    simpa using Turnover.drop older (held files 0) younger

/-- The renames and the open, when no rename fails, else the renames. -/
theorem run_succ_eq (some : attempt.policy.maxFiles ≠ 0) :
    attempt.run =
      let shifted := shiftAll attempt.calls (attempt.policy.maxFiles - 1) attempt.freed
      if shifted.1.isOk then openLog true attempt.calls.opens shifted.2 else shifted := by
  rw [attempt.run_succ some, Fallible.bind_run]
  cases ran : shiftAll attempt.calls (attempt.policy.maxFiles - 1) attempt.freed with
  | mk ending reached => cases ending <;> rfl

/-- A rotation loses what is counted as lost, whether it completes or not. -/
theorem run_turnover {top : Nat} (capped : maxLogMaxFiles ≤ top)
    (inside : attempt.policy.maxFiles ≤ top) :
    Turnover (readFrom top attempt.files) [] attempt.lost (readFrom top attempt.run.2) := by
  have first := attempt.trimmed_turnover capped
  by_cases zero : attempt.policy.maxFiles = 0
  · have last := openLog_turnover attempt.calls.opens attempt.trimmed top
    have same : held attempt.trimmed 0 = held attempt.files 0 := by
      rw [held, held, attempt.trimmed_within (by omega)]
    rw [attempt.run_zero zero, lost, oldest, if_pos zero]
    rw [same] at last
    exact first.trans last
  · have second := removeIfThere_turnover attempt.calls attempt.trimmed inside
    have third := shiftAll_turnover attempt.calls attempt.freed
      (by omega : attempt.policy.maxFiles - 1 + 1 ≤ top)
    have same : held attempt.trimmed attempt.policy.maxFiles =
        held attempt.files attempt.policy.maxFiles := by
      rw [held, held, attempt.trimmed_within (Nat.le_refl _)]
    rw [same] at second
    rw [attempt.freed_below (by omega),
      (by omega : attempt.policy.maxFiles - 1 + 1 = attempt.policy.maxFiles)] at third
    have shifted := first.trans (second.trans third)
    -- The oldest is lost to the deletion, or else to the rename over it.
    have counted : (if (attempt.calls.removes attempt.policy.maxFiles).isOk then
          held attempt.files attempt.policy.maxFiles else []) ++
        (if (attempt.files (attempt.policy.maxFiles - 1)).isSome &&
            (attempt.calls.renames (attempt.policy.maxFiles - 1)).isOk then
          held attempt.freed attempt.policy.maxFiles else []) = attempt.oldest := by
      rw [oldest, if_neg zero]
      by_cases removed : (attempt.calls.removes attempt.policy.maxFiles).isOk = true
      · have gone : held attempt.freed attempt.policy.maxFiles = [] := by
          rw [held, freed, removeIfThere_gone removed]
          rfl
        simp [removed, gone]
      · have stays : held attempt.freed attempt.policy.maxFiles =
            held attempt.files attempt.policy.maxFiles := by
          rw [← same, freed, removeIfThere, if_neg (by simp [removed])]
        simp [removed, stays]
    rw [counted] at shifted
    rw [attempt.run_succ_eq zero]
    simp only
    split
    · rename_i ran
      have last := openLog_turnover attempt.calls.opens
        (shiftAll attempt.calls (attempt.policy.maxFiles - 1) attempt.freed).2 top
      have nothing : held (shiftAll attempt.calls (attempt.policy.maxFiles - 1)
          attempt.freed).2 0 = [] := by
        rw [held, shiftAll_moved ran]
        rfl
      rw [nothing, ite_self] at last
      simpa [lost] using shifted.trans last
    · simpa [lost] using shifted

/-- A rotation completes exactly when no rename it makes fails, nor the open. -/
theorem run_ok_iff : attempt.run.1.isOk = true ↔ attempt.Clear := by
  have opened (files : Generations) :
      (openLog true attempt.calls.opens files).1.isOk = attempt.calls.opens.isOk := by
    cases attempt.calls.opens <;> rfl
  by_cases zero : attempt.policy.maxFiles = 0
  · rw [attempt.run_zero zero, opened, Clear]
    constructor
    · intro ran
      exact ⟨fun n below => by omega, ran⟩
    · intro clear
      exact clear.2
  · rw [attempt.run_succ_eq zero, Clear]
    have renamed := @shiftAll_ok_iff attempt.calls attempt.freed (attempt.policy.maxFiles - 1)
    simp only
    split
    · rename_i ran
      rw [opened]
      refine ⟨fun last => ⟨fun n below there => renamed.mp ran n (by omega) ?_, last⟩,
        fun clear => clear.2⟩
      rwa [attempt.freed_below below]
    · rename_i failed
      refine ⟨fun same => absurd same failed, fun clear => absurd (renamed.mpr ?_) failed⟩
      intro n below there
      exact clear.1 n (by omega) (by rwa [attempt.freed_below (by omega)] at there)

/-- A rotation that completes leaves the active file empty. -/
theorem run_active (ran : attempt.run.1.isOk = true) : attempt.run.2 0 = some [] := by
  have opened {files : Generations}
      (ended : (openLog true attempt.calls.opens files).1.isOk = true) :
      (openLog true attempt.calls.opens files).2 0 = some [] := by
    cases made : attempt.calls.opens with
    | error e =>
      rw [made] at ended
      cases ended
    | ok value => rfl
  by_cases zero : attempt.policy.maxFiles = 0
  · rw [attempt.run_zero zero] at ran ⊢
    exact opened ran
  · rw [attempt.run_succ_eq zero] at ran ⊢
    simp only at ran ⊢
    split at ran
    · rename_i shifted
      rw [if_pos shifted]
      exact opened ran
    · rename_i failed
      exact absurd ran failed

/-- A rotation that does not complete leaves the active file or has moved it away. -/
theorem run_active_failed (failed : ¬ attempt.run.1.isOk = true) :
    attempt.run.2 0 = attempt.files 0 ∨ attempt.run.2 0 = none := by
  have opened {files : Generations}
      (ended : ¬ (openLog true attempt.calls.opens files).1.isOk = true) :
      (openLog true attempt.calls.opens files).2 = files := by
    cases made : attempt.calls.opens with
    | error e => rfl
    | ok value =>
      rw [made] at ended
      exact absurd rfl ended
  by_cases zero : attempt.policy.maxFiles = 0
  · rw [attempt.run_zero zero] at failed ⊢
    rw [opened failed]
    exact .inl (attempt.trimmed_within (by omega))
  · rw [attempt.run_succ_eq zero] at failed ⊢
    simp only at failed ⊢
    split at failed
    · rename_i shifted
      rw [if_pos shifted, opened failed]
      exact .inr (shiftAll_moved shifted)
    · rename_i stopped
      rw [if_neg stopped, shiftAll_failed stopped]
      exact .inl (attempt.freed_below (by omega))

/-- A rotation that completes and whose deletions succeed leaves nothing past the limit. -/
theorem run_limited (ran : attempt.run.1.isOk = true)
    (removed : ∀ n, (attempt.calls.removes n).isOk = true) {n : Nat}
    (past : attempt.policy.maxFiles < n) (capped : n ≤ maxLogMaxFiles) :
    attempt.run.2 n = none := by
  have gone : attempt.trimmed n = none :=
    removeEach_gone List.nodup_range' (mem_staleGenerations.mpr ⟨past, capped⟩) (removed n)
  have opened (files : Generations) : (openLog true attempt.calls.opens files).2 n = files n := by
    cases attempt.calls.opens with
    | error e => rfl
    | ok value => exact Function.update_of_ne (by omega : n ≠ 0) (some []) files
  by_cases zero : attempt.policy.maxFiles = 0
  · rw [attempt.run_zero zero, opened, gone]
  · rw [attempt.run_succ_eq zero] at ran ⊢
    simp only at ran ⊢
    split at ran
    · rename_i shifted
      rw [if_pos shifted, opened, shiftAll_past (by omega), freed,
        removeIfThere_other (by omega), gone]
    · rename_i stopped
      exact absurd ran stopped

end Attempt

end EthernetGateway.Log
