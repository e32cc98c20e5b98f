import EthernetGateway.Fallible

/-!
# A byte medium whose calls may fail

The medium is a function from addresses to bytes. Each call on it is numbered, and a script
decides how every numbered call ends: done, failed without effect, or failed although its
bytes arrived. The script is the adversary of every fault argument, and it is fixed before
the program runs.

A program that performs a fixed list of calls as long as they succeed *plays* that list.
Playing is compositional, and everything a fault can do to such a program follows from one
theorem (`play_cut`): the calls before the first failing one are done, and the failing one
either took effect or did not.
-/

namespace EthernetGateway

/-- What a medium holds: a byte at every address. -/
abbrev Contents := Nat → UInt8

/-- A run of bytes written at an offset. -/
structure Write where
  /-- First address written. -/
  offset : Nat
  /-- Number of bytes. -/
  size : Nat
  /-- The bytes. -/
  data : Fin size → UInt8

/-- The bytes a write covers are replaced, all others stay. -/
def Write.apply (w : Write) (contents : Contents) : Contents := fun address =>
  if inside : w.offset ≤ address ∧ address < w.offset + w.size then
    w.data ⟨address - w.offset, by omega⟩
  else contents address

/-- A byte under a write is the byte written. -/
theorem Write.apply_inside (w : Write) (contents : Contents) (i : Fin w.size) :
    w.apply contents (w.offset + i) = w.data i := by
  have bound := i.isLt
  rw [Write.apply, dif_pos (by omega)]
  congr 1
  apply Fin.ext
  simp

/-- A byte outside a write stays. -/
theorem Write.apply_outside (w : Write) (contents : Contents) (address : Nat)
    (outside : address < w.offset ∨ w.offset + w.size ≤ address) :
    w.apply contents address = contents address := by
  rw [Write.apply, dif_neg (by omega)]

/-- One call on a medium. -/
inductive Call where
  /-- Read some bytes. -/
  | read
  /-- Write some bytes. -/
  | write (w : Write)
  /-- Push what was written towards the device. -/
  | flush

/-- What a call that takes effect does to the contents. -/
def Call.apply : Call → Contents → Contents
  | .read, contents => contents
  | .write w, contents => w.apply contents
  | .flush, contents => contents

/-- The writes among a call. -/
def Call.writes : Call → List Write
  | .read => []
  | .write w => [w]
  | .flush => []

/-- Contents after a list of calls that all take effect. -/
def applyCalls (calls : List Call) (contents : Contents) : Contents :=
  calls.foldl (fun reached call => call.apply reached) contents

@[simp] theorem applyCalls_nil (contents : Contents) : applyCalls [] contents = contents := rfl

@[simp] theorem applyCalls_cons (call : Call) (calls : List Call) (contents : Contents) :
    applyCalls (call :: calls) contents = applyCalls calls (call.apply contents) := rfl

theorem applyCalls_append (first second : List Call) (contents : Contents) :
    applyCalls (first ++ second) contents = applyCalls second (applyCalls first contents) := by
  simp [applyCalls]

/-- Contents after a list of writes. -/
def applyWrites (writes : List Write) (contents : Contents) : Contents :=
  writes.foldl (fun reached w => w.apply reached) contents

@[simp] theorem applyWrites_nil (contents : Contents) : applyWrites [] contents = contents := rfl

theorem applyWrites_append (first second : List Write) (contents : Contents) :
    applyWrites (first ++ second) contents = applyWrites second (applyWrites first contents) := by
  simp [applyWrites]

/-- How one call ends. -/
inductive Outcome (ε : Type) where
  /-- It succeeds. -/
  | done
  /-- It fails and has no effect. -/
  | lost (reason : ε)
  /-- It fails although it took effect. -/
  | landed (reason : ε)

/-- Whether a call fails. -/
def Outcome.failed {ε : Type} : Outcome ε → Bool
  | .done => false
  | .lost _ => true
  | .landed _ => true

theorem Outcome.failed_iff {ε : Type} {outcome : Outcome ε} :
    outcome.failed = true ↔ outcome ≠ .done := by
  cases outcome <;> simp [failed]

instance Outcome.decidableDone {ε : Type} (outcome : Outcome ε) : Decidable (outcome = .done) :=
  decidable_of_iff (outcome.failed = false) (by cases outcome <;> simp [failed])

/-- A medium: its length and contents, the script of its outcomes, the number of calls made
so far, and the writes that took effect, in order. -/
structure Medium (ε : Type) where
  /-- Length in bytes. -/
  length : Nat
  /-- Bytes held. -/
  contents : Contents
  /-- How the call of each number ends. -/
  outcomes : Nat → Outcome ε
  /-- Number of the next call. -/
  calls : Nat
  /-- Writes that took effect. -/
  log : List Write

namespace Medium

variable {ε α β : Type}

/-- The medium after a call that took effect. -/
def land (medium : Medium ε) (call : Call) : Medium ε :=
  { medium with
    contents := call.apply medium.contents
    calls := medium.calls + 1
    log := medium.log ++ call.writes }

/-- The medium after a call that had no effect. -/
def miss (medium : Medium ε) : Medium ε := { medium with calls := medium.calls + 1 }

/-- Perform one call under the script. -/
def perform (call : Call) : Fallible (Medium ε) ε Unit := fun medium =>
  match medium.outcomes medium.calls with
  | .done => (.ok (), medium.land call)
  | .lost reason => (.error reason, medium.miss)
  | .landed reason => (.error reason, medium.land call)

/-- Perform calls in order, stopping at the first that fails. -/
def play : List Call → Fallible (Medium ε) ε Unit
  | [] => pure ()
  | call :: calls => do
    perform call
    play calls

/-- The medium after calls that all took effect. -/
def landAll (medium : Medium ε) (calls : List Call) : Medium ε := calls.foldl land medium

@[simp] theorem landAll_nil (medium : Medium ε) : medium.landAll [] = medium := rfl

@[simp] theorem landAll_cons (medium : Medium ε) (call : Call) (calls : List Call) :
    medium.landAll (call :: calls) = (medium.land call).landAll calls := rfl

@[simp] theorem land_outcomes (medium : Medium ε) (call : Call) :
    (medium.land call).outcomes = medium.outcomes := rfl

@[simp] theorem land_calls (medium : Medium ε) (call : Call) :
    (medium.land call).calls = medium.calls + 1 := rfl

@[simp] theorem land_length (medium : Medium ε) (call : Call) :
    (medium.land call).length = medium.length := rfl

@[simp] theorem land_contents (medium : Medium ε) (call : Call) :
    (medium.land call).contents = call.apply medium.contents := rfl

@[simp] theorem miss_contents (medium : Medium ε) : medium.miss.contents = medium.contents := rfl

@[simp] theorem miss_outcomes (medium : Medium ε) : medium.miss.outcomes = medium.outcomes := rfl

@[simp] theorem miss_length (medium : Medium ε) : medium.miss.length = medium.length := rfl

@[simp] theorem miss_calls (medium : Medium ε) : medium.miss.calls = medium.calls + 1 := rfl

@[simp] theorem landAll_outcomes (medium : Medium ε) (calls : List Call) :
    (medium.landAll calls).outcomes = medium.outcomes := by
  induction calls generalizing medium with
  | nil => rfl
  | cons call calls ih => rw [landAll_cons, ih, land_outcomes]

@[simp] theorem landAll_length (medium : Medium ε) (calls : List Call) :
    (medium.landAll calls).length = medium.length := by
  induction calls generalizing medium with
  | nil => rfl
  | cons call calls ih => rw [landAll_cons, ih, land_length]

@[simp] theorem landAll_calls (medium : Medium ε) (calls : List Call) :
    (medium.landAll calls).calls = medium.calls + calls.length := by
  induction calls generalizing medium with
  | nil => rfl
  | cons call calls ih =>
    rw [landAll_cons, ih, land_calls, List.length_cons]
    omega

@[simp] theorem landAll_contents (medium : Medium ε) (calls : List Call) :
    (medium.landAll calls).contents = applyCalls calls medium.contents := by
  induction calls generalizing medium with
  | nil => rfl
  | cons call calls ih => rw [landAll_cons, ih, land_contents, applyCalls_cons]

/-- Every call from here on succeeds. -/
def Healthy (medium : Medium ε) : Prop := ∀ n, medium.calls ≤ n → medium.outcomes n = .done

theorem play_append (first second : List Call) :
    (play (first ++ second) : Fallible (Medium ε) ε Unit) =
      (play first >>= fun _ => play second) := by
  induction first with
  | nil => rfl
  | cons call calls ih =>
    change (perform call >>= fun _ => play (calls ++ second)) = _
    rw [ih]
    exact (Fallible.bind_assoc_run _ _ _).symm

/-- Playing calls that all succeed lands them all. -/
theorem play_done (medium : Medium ε) (calls : List Call)
    (done : ∀ i < calls.length, medium.outcomes (medium.calls + i) = .done) :
    play calls medium = (.ok (), medium.landAll calls) := by
  induction calls generalizing medium with
  | nil => rfl
  | cons call calls ih =>
    have first : perform call medium = (.ok (), medium.land call) := by
      have now := done 0 (by simp)
      rw [Nat.add_zero] at now
      rw [perform, now]
    change (perform call >>= fun _ => play calls) medium = _
    rw [Fallible.bind_ok first, ih, landAll_cons]
    intro i inside
    have later := done (i + 1) (by simpa using inside)
    rw [land_outcomes, land_calls, ← later]
    congr 1
    omega

/-- Playing calls of which one fails stops there, and that call took effect or not. -/
theorem play_stops (medium : Medium ε) (calls : List Call) (stop : Nat)
    (inside : stop < calls.length)
    (done : ∀ i < stop, medium.outcomes (medium.calls + i) = .done) :
    (∀ reason, medium.outcomes (medium.calls + stop) = .lost reason →
      play calls medium = (.error reason, (medium.landAll (calls.take stop)).miss)) ∧
    (∀ reason, medium.outcomes (medium.calls + stop) = .landed reason →
      play calls medium = (.error reason, medium.landAll (calls.take (stop + 1)))) := by
  induction calls generalizing medium stop with
  | nil => simp at inside
  | cons call calls ih =>
    change (∀ reason, _ → (perform call >>= fun _ => play calls) medium = _) ∧
      (∀ reason, _ → (perform call >>= fun _ => play calls) medium = _)
    cases stop with
    | zero =>
      constructor
      · intro reason failed
        rw [Nat.add_zero] at failed
        apply Fallible.bind_error
        rw [perform, failed]
        rfl
      · intro reason failed
        rw [Nat.add_zero] at failed
        apply Fallible.bind_error
        rw [perform, failed]
        rfl
    | succ stop =>
      have first : perform call medium = (.ok (), medium.land call) := by
        have now := done 0 (by omega)
        rw [Nat.add_zero] at now
        rw [perform, now]
      have rest := ih (medium.land call) stop (by simpa using inside) (by
        intro i before
        have later := done (i + 1) (by omega)
        rw [land_outcomes, land_calls, ← later]
        congr 1
        omega)
      have number : (medium.land call).calls + stop = medium.calls + (stop + 1) := by
        rw [land_calls]
        omega
      rw [Fallible.bind_ok first]
      simpa only [land_outcomes, number, List.take_succ_cons, landAll_cons] using rest

/-- A cut of a list of calls by a script: either all calls succeed, or there is a first one
that fails, and it took effect or not. -/
theorem play_cut (medium : Medium ε) (calls : List Call) :
    ((∀ i < calls.length, medium.outcomes (medium.calls + i) = .done) ∧
      play calls medium = (.ok (), medium.landAll calls)) ∨
    (∃ stop reason, stop < calls.length ∧
      (∀ i < stop, medium.outcomes (medium.calls + i) = .done) ∧
      ((medium.outcomes (medium.calls + stop) = .lost reason ∧
          play calls medium = (.error reason, (medium.landAll (calls.take stop)).miss)) ∨
        (medium.outcomes (medium.calls + stop) = .landed reason ∧
          play calls medium = (.error reason, medium.landAll (calls.take (stop + 1)))))) := by
  by_cases all : ∀ i < calls.length, medium.outcomes (medium.calls + i) = .done
  · exact .inl ⟨all, play_done medium calls all⟩
  · right
    have found : ∃ i, i < calls.length ∧ medium.outcomes (medium.calls + i) ≠ .done := by
      by_contra none
      exact all fun i inside => by_contra fun failed => none ⟨i, inside, failed⟩
    classical
    let stop := Nat.find found
    have failed := Nat.find_spec found
    have before : ∀ i < stop, medium.outcomes (medium.calls + i) = .done := by
      intro i earlier
      have least := Nat.find_min found earlier
      by_contra failing
      exact least ⟨Nat.lt_trans earlier failed.1, failing⟩
    have stops := play_stops medium calls stop failed.1 before
    cases ended : medium.outcomes (medium.calls + stop) with
    | done => exact absurd ended failed.2
    | lost reason => exact ⟨stop, reason, failed.1, before, .inl ⟨ended, stops.1 reason ended⟩⟩
    | landed reason =>
      exact ⟨stop, reason, failed.1, before, .inr ⟨ended, stops.2 reason ended⟩⟩

/-- The place of the first call that fails, among so many from a number on. -/
def firstFailed (outcomes : Nat → Outcome ε) (start count : Nat) : Option Nat :=
  (List.range count).find? fun i => (outcomes (start + i)).failed

/-- No call of a stretch fails exactly when all succeed. -/
theorem firstFailed_none {outcomes : Nat → Outcome ε} {start count : Nat} :
    firstFailed outcomes start count = none ↔ ∀ i < count, outcomes (start + i) = .done := by
  simp only [firstFailed, List.find?_eq_none, List.mem_range, Outcome.failed_iff, not_not]

/-- The first call that fails is the one before which all succeed. -/
theorem firstFailed_some {outcomes : Nat → Outcome ε} {start count stop : Nat} :
    firstFailed outcomes start count = some stop ↔ stop < count ∧
      outcomes (start + stop) ≠ .done ∧ ∀ i < stop, outcomes (start + i) = .done := by
  rw [firstFailed, List.find?_range_eq_some, Outcome.failed_iff, List.mem_range]
  simp only [Bool.not_eq_eq_eq_not, Bool.not_true, ← Bool.not_eq_true, Outcome.failed_iff, not_not]
  exact and_left_comm

/-- From this medium the program performs exactly these calls while they succeed, and then
ends with this value. -/
def Plays (program : Fallible (Medium ε) ε α) (medium : Medium ε) (calls : List Call)
    (value : α) : Prop :=
  program medium = (play calls >>= fun _ => pure value) medium

theorem Plays.pure (medium : Medium ε) (value : α) :
    Plays (pure value : Fallible (Medium ε) ε α) medium [] value := rfl

theorem Plays.perform (medium : Medium ε) (call : Call) :
    Plays (perform call : Fallible (Medium ε) ε Unit) medium [call] () := by
  change _ = ((Medium.perform call >>= fun _ => Pure.pure ()) >>= fun _ => Pure.pure ()) medium
  rw [Fallible.bind_run, Fallible.bind_run]
  cases Medium.perform call medium with
  | mk ending reached => cases ending <;> rfl

/-- Playing composes along a bind: the second part only has to play from the medium all of
whose calls landed. -/
theorem Plays.bind {first : Fallible (Medium ε) ε α} {next : α → Fallible (Medium ε) ε β}
    {medium : Medium ε} {calls more : List Call} {value : α} {result : β}
    (began : Plays first medium calls value)
    (went : Plays (next value) (medium.landAll calls) more result) :
    Plays (first >>= next) medium (calls ++ more) result := by
  rw [Plays, play_append, Fallible.bind_assoc_run, Fallible.bind_run, began, Fallible.bind_run,
    Fallible.bind_run]
  rcases play_cut medium calls with ⟨_, ran⟩ | ⟨stop, reason, _, _, ⟨_, ran⟩ | ⟨_, ran⟩⟩
  · rw [ran]
    exact went
  · rw [ran]
  · rw [ran]

/-- A playing program on a healthy medium performs its calls and returns its value. -/
theorem Plays.healthy {program : Fallible (Medium ε) ε α} {medium : Medium ε}
    {calls : List Call} {value : α} (plays : Plays program medium calls value)
    (healthy : medium.Healthy) : program medium = (.ok value, medium.landAll calls) := by
  rw [plays, Fallible.bind_ok (play_done medium calls fun i _ => healthy _ (by omega))]
  rfl

/-- Everything a script can make of a playing program. -/
theorem Plays.cut {program : Fallible (Medium ε) ε α} {medium : Medium ε}
    {calls : List Call} {value : α} (plays : Plays program medium calls value) :
    ((∀ i < calls.length, medium.outcomes (medium.calls + i) = .done) ∧
      program medium = (.ok value, medium.landAll calls)) ∨
    (∃ stop reason, stop < calls.length ∧
      (∀ i < stop, medium.outcomes (medium.calls + i) = .done) ∧
      ((medium.outcomes (medium.calls + stop) = .lost reason ∧
          program medium = (.error reason, (medium.landAll (calls.take stop)).miss)) ∨
        (medium.outcomes (medium.calls + stop) = .landed reason ∧
          program medium = (.error reason, medium.landAll (calls.take (stop + 1)))))) := by
  rw [plays]
  rcases play_cut medium calls with ⟨done, ran⟩ | ⟨stop, reason, inside, before, ended⟩
  · exact .inl ⟨done, by rw [Fallible.bind_ok ran]; rfl⟩
  · refine .inr ⟨stop, reason, inside, before, ?_⟩
    rcases ended with ⟨failed, ran⟩ | ⟨failed, ran⟩
    · exact .inl ⟨failed, by rw [Fallible.bind_error ran]⟩
    · exact .inr ⟨failed, by rw [Fallible.bind_error ran]⟩

/-- From this medium the program performs so many calls while they succeed, and then ends with
this value. -/
def PlaysFor (program : Fallible (Medium ε) ε α) (medium : Medium ε) (count : Nat) (value : α) :
    Prop :=
  ∃ calls, calls.length = count ∧ Plays program medium calls value

/-- The calls of two parts add up. -/
theorem PlaysFor.bind {first : Fallible (Medium ε) ε α} {next : α → Fallible (Medium ε) ε β}
    {medium : Medium ε} {count more : Nat} {value : α} {result : β}
    (began : PlaysFor first medium count value)
    (went : ∀ reached, reached.length = medium.length →
      PlaysFor (next value) reached more result) :
    PlaysFor (first >>= next) medium (count + more) result := by
  obtain ⟨calls, length, plays⟩ := began
  obtain ⟨later, length', plays'⟩ := went (medium.landAll calls) (landAll_length medium calls)
  exact ⟨calls ++ later, by rw [List.length_append, length, length'], plays.bind plays'⟩

/-- A program that plays for so many calls ended after them all, or one of them failed. -/
theorem PlaysFor.cut {program : Fallible (Medium ε) ε α} {medium : Medium ε} {count : Nat}
    {value : α} (plays : PlaysFor program medium count value) :
    (∃ reached, program medium = (.ok value, reached) ∧ reached.length = medium.length ∧
      reached.outcomes = medium.outcomes ∧ reached.calls = medium.calls + count ∧
      ∀ i < count, medium.outcomes (medium.calls + i) = .done) ∨
    (∃ reason reached, program medium = (.error reason, reached) ∧
      ∃ i < count, medium.outcomes (medium.calls + i) ≠ .done) := by
  obtain ⟨calls, rfl, plays⟩ := plays
  rcases plays.cut with ⟨done, ran⟩ | ⟨stop, reason, inside, _, ended⟩
  · exact .inl ⟨_, ran, landAll_length medium calls, landAll_outcomes medium calls,
      landAll_calls medium calls, done⟩
  · right
    rcases ended with ⟨failed, ran⟩ | ⟨failed, ran⟩
    · exact ⟨reason, _, ran, stop, inside, by simp [failed]⟩
    · exact ⟨reason, _, ran, stop, inside, by simp [failed]⟩

/-! ## Faults -/

/-- Some call between two media failed. -/
def Faulted (before after : Medium ε) : Prop :=
  ∃ n, before.calls ≤ n ∧ n < after.calls ∧ before.outcomes n ≠ .done

/-- A playing program that ended well met no fault. -/
theorem Plays.unfaulted {program : Fallible (Medium ε) ε α} {medium reached : Medium ε}
    {calls : List Call} {value result : α} (plays : Plays program medium calls value)
    (ended : program medium = (.ok result, reached)) : ¬ Faulted medium reached := by
  rintro ⟨n, above, below, failed⟩
  rcases plays.cut with ⟨done, ran⟩ | ⟨_, _, _, _, ⟨_, ran⟩ | ⟨_, ran⟩⟩
  · rw [ran] at ended
    cases ended
    rw [landAll_calls] at below
    have now := done (n - medium.calls) (by omega)
    rw [Nat.add_sub_cancel' above] at now
    exact failed now
  · rw [ran] at ended
    cases ended
  · rw [ran] at ended
    cases ended

/-- A fault of the whole is a fault of one of its stretches. -/
theorem Faulted.split {first second third : Medium ε} (faulted : Faulted first third)
    (same : second.outcomes = first.outcomes) : Faulted first second ∨ Faulted second third := by
  obtain ⟨n, above, below, failed⟩ := faulted
  by_cases early : n < second.calls
  · exact .inl ⟨n, above, early, failed⟩
  · exact .inr ⟨n, Nat.not_lt.mp early, below, same ▸ failed⟩

/-! ## Following a view of the contents -/

/-- Steps of a view, one after the other. -/
def runSteps {δ σ : Type} (act : σ → δ → δ) (steps : List σ) (start : δ) : δ :=
  steps.foldl (fun reached step => act step reached) start

section Following

variable {δ σ : Type} {look : Contents → δ} {act : σ → δ → δ}

@[simp] theorem runSteps_nil (start : δ) : runSteps act [] start = start := rfl

@[simp] theorem runSteps_cons (step : σ) (steps : List σ) (start : δ) :
    runSteps act (step :: steps) start = runSteps act steps (act step start) := rfl

theorem runSteps_append (first second : List σ) (start : δ) :
    runSteps act (first ++ second) start = runSteps act second (runSteps act first start) := by
  simp [runSteps]

/-- Calls whose effects, seen through a view, are these steps: each call is one step or is
not seen at all. -/
inductive Follows (look : Contents → δ) (act : σ → δ → δ) :
    Contents → List Call → List σ → Prop
  | nil (contents : Contents) : Follows look act contents [] []
  | silent {contents : Contents} {call : Call} {calls : List Call} {steps : List σ}
      (same : look (call.apply contents) = look contents)
      (rest : Follows look act (call.apply contents) calls steps) :
      Follows look act contents (call :: calls) steps
  | step {contents : Contents} {call : Call} {calls : List Call} {step : σ} {steps : List σ}
      (moved : look (call.apply contents) = act step (look contents))
      (rest : Follows look act (call.apply contents) calls steps) :
      Follows look act contents (call :: calls) (step :: steps)

namespace Follows

/-- Calls and steps compose. -/
theorem append {contents : Contents} {calls more : List Call} {steps further : List σ}
    (first : Follows look act contents calls steps)
    (second : Follows look act (applyCalls calls contents) more further) :
    Follows look act contents (calls ++ more) (steps ++ further) := by
  induction first with
  | nil contents => exact second
  | silent same rest ih => exact .silent same (ih second)
  | step moved rest ih => exact .step moved (ih second)

/-- Calls that are not seen are no steps. -/
theorem unseen {contents : Contents} (calls : List Call)
    (same : ∀ call ∈ calls, ∀ reached, look reached = look contents →
      look (call.apply reached) = look contents) :
    Follows look act contents calls [] := by
  suffices general : ∀ reached, look reached = look contents →
      Follows look act reached calls [] from general contents rfl
  induction calls with
  | nil => exact fun reached _ => .nil reached
  | cons call calls ih =>
    intro reached equal
    have next := same call List.mem_cons_self reached equal
    exact .silent (next.trans equal.symm)
      (ih (fun later member => same later (List.mem_cons_of_mem _ member)) _ next)

/-- What the calls did, seen through the view. -/
theorem look_applyCalls {contents : Contents} {calls : List Call} {steps : List σ}
    (follows : Follows look act contents calls steps) :
    look (applyCalls calls contents) = runSteps act steps (look contents) := by
  induction follows with
  | nil contents => rfl
  | silent same rest ih => rw [applyCalls_cons, ih, same]
  | step moved rest ih => rw [applyCalls_cons, ih, moved, runSteps_cons]

/-- The first calls are the first steps. -/
theorem take {contents : Contents} {calls : List Call} {steps : List σ}
    (follows : Follows look act contents calls steps) (k : Nat) :
    ∃ j, Follows look act contents (calls.take k) (steps.take j) := by
  induction follows generalizing k with
  | nil contents => exact ⟨0, by simpa using .nil contents⟩
  | silent same rest ih =>
    cases k with
    | zero => exact ⟨0, .nil _⟩
    | succ k =>
      obtain ⟨j, taken⟩ := ih k
      exact ⟨j, .silent same taken⟩
  | step moved rest ih =>
    cases k with
    | zero => exact ⟨0, .nil _⟩
    | succ k =>
      obtain ⟨j, taken⟩ := ih k
      exact ⟨j + 1, .step moved taken⟩

end Follows

/-- One medium became the other by writes which, seen through a view, are these steps, and
every prefix of the writes is a prefix of the steps. -/
structure Traced (look : Contents → δ) (act : σ → δ → δ) (before after : Medium ε)
    (steps : List σ) : Prop where
  /-- The length stays. -/
  length : after.length = before.length
  /-- The script stays. -/
  outcomes : after.outcomes = before.outcomes
  /-- Calls are counted up. -/
  calls : before.calls ≤ after.calls
  /-- The writes extend the log and are seen as the steps. -/
  writes : ∃ ws, after.log = before.log ++ ws ∧
    after.contents = applyWrites ws before.contents ∧
    look after.contents = runSteps act steps (look before.contents) ∧
    ∀ n, ∃ j, look (applyWrites (ws.take n) before.contents) =
      runSteps act (steps.take j) (look before.contents)

namespace Traced

theorem refl (medium : Medium ε) : Traced look act medium medium [] :=
  ⟨rfl, rfl, Nat.le_refl _, [], by simp, rfl, rfl, fun n => ⟨0, by simp⟩⟩

/-- What is seen afterwards. -/
theorem look_eq {before after : Medium ε} {steps : List σ}
    (traced : Traced look act before after steps) :
    look after.contents = runSteps act steps (look before.contents) := by
  obtain ⟨ws, _, _, seen, _⟩ := traced.writes
  exact seen

theorem trans {first second third : Medium ε} {steps further : List σ}
    (began : Traced look act first second steps) (went : Traced look act second third further) :
    Traced look act first third (steps ++ further) := by
  obtain ⟨ws, log, contents, seen, prefixes⟩ := began.writes
  obtain ⟨ws', log', contents', seen', prefixes'⟩ := went.writes
  refine ⟨went.length.trans began.length, went.outcomes.trans began.outcomes,
    Nat.le_trans began.calls went.calls, ws ++ ws', ?_, ?_, ?_, ?_⟩
  · rw [log', log, List.append_assoc]
  · rw [contents', contents, applyWrites_append]
  · rw [seen', seen, runSteps_append]
  · intro n
    by_cases short : n ≤ ws.length
    · obtain ⟨j, equal⟩ := prefixes n
      refine ⟨min j steps.length, ?_⟩
      rw [List.take_append_of_le_length short, equal,
        List.take_append_of_le_length (Nat.min_le_right _ _), ← List.take_take, List.take_length]
    · obtain ⟨j, equal⟩ := prefixes' (n - ws.length)
      have written : (ws ++ ws').take n = ws ++ ws'.take (n - ws.length) := by
        rw [List.take_append, List.take_of_length_le (by omega)]
      have made : (steps ++ further).take (steps.length + j) = steps ++ further.take j := by
        rw [List.take_append, List.take_of_length_le (by omega), Nat.add_sub_cancel_left]
      refine ⟨steps.length + j, ?_⟩
      rw [written, made, applyWrites_append, ← contents, equal, seen, runSteps_append]

/-- One call that lands. -/
theorem land (medium : Medium ε) (call : Call) {steps : List σ}
    (seen : look (call.apply medium.contents) = runSteps act steps (look medium.contents)) :
    Traced look act medium (medium.land call) steps := by
  have effect : call.apply medium.contents = applyWrites call.writes medium.contents := by
    cases call <;> rfl
  refine ⟨rfl, rfl, Nat.le_succ _, call.writes, rfl, effect, seen, fun n => ?_⟩
  by_cases whole : call.writes.length ≤ n
  · exact ⟨steps.length, by rw [List.take_of_length_le whole, List.take_length, ← effect, seen]⟩
  · have none : n = 0 := by
      cases call <;> simp [Call.writes] at whole
      omega
    exact ⟨0, by simp [none]⟩

/-- One call that is missed. -/
theorem miss (medium : Medium ε) : Traced look act medium medium.miss [] :=
  ⟨rfl, rfl, Nat.le_succ _, [], by simp [Medium.miss], rfl, rfl, fun n => ⟨0, by simp⟩⟩

/-- Calls that follow steps, landing one after the other. -/
theorem landAll {calls : List Call} {steps : List σ} (medium : Medium ε)
    (follows : Follows look act medium.contents calls steps) :
    Traced look act medium (medium.landAll calls) steps := by
  generalize started : medium.contents = contents at follows
  induction follows generalizing medium with
  | nil contents => exact refl medium
  | silent same rest ih =>
    have head : Traced look act medium (medium.land _) [] := land medium _ (by
      rw [started, same, runSteps_nil])
    exact head.trans (ih (medium.land _) (by rw [land_contents, started]))
  | step moved rest ih =>
    rename_i _ call _ step _
    have head : Traced look act medium (medium.land call) [step] := land medium call (by
      rw [started, moved, runSteps_cons, runSteps_nil])
    exact head.trans (ih (medium.land _) (by rw [land_contents, started]))

end Traced

/-- What a playing program whose calls follow steps can end in: success with all steps made,
or a fault with some first steps made. -/
theorem Plays.traced {program : Fallible (Medium ε) ε α} {medium : Medium ε}
    {calls : List Call} {value : α} {steps : List σ} (plays : Plays program medium calls value)
    (follows : Follows look act medium.contents calls steps) :
    (∃ reached, program medium = (.ok value, reached) ∧
      reached = medium.landAll calls ∧ Traced look act medium reached steps) ∨
    (∃ reason reached j, program medium = (.error reason, reached) ∧ Faulted medium reached ∧
      Traced look act medium reached (steps.take j)) := by
  rcases plays.cut with ⟨_, ran⟩ | ⟨stop, reason, inside, _, ended⟩
  · exact .inl ⟨_, ran, rfl, .landAll medium follows⟩
  · right
    have counted : (medium.landAll (calls.take stop)).calls = medium.calls + stop := by
      rw [landAll_calls, List.length_take, Nat.min_eq_left (Nat.le_of_lt inside)]
    rcases ended with ⟨failed, ran⟩ | ⟨failed, ran⟩
    · obtain ⟨j, taken⟩ := follows.take stop
      refine ⟨reason, _, j, ran, ⟨medium.calls + stop, by omega, ?_, ?_⟩, ?_⟩
      · rw [miss_calls, counted]
        omega
      · rw [failed]
        intro done
        cases done
      · have whole := (Traced.landAll medium taken).trans (Traced.miss _)
        rwa [List.append_nil] at whole
    · obtain ⟨j, taken⟩ := follows.take (stop + 1)
      refine ⟨reason, _, j, ran, ⟨medium.calls + stop, by omega, ?_, ?_⟩, .landAll medium taken⟩
      · rw [landAll_calls, List.length_take, Nat.min_eq_left inside]
        omega
      · rw [failed]
        intro done
        cases done

/-- From this medium the program makes these steps, seen through the view, while its calls
succeed, and then ends with this value. -/
def Performs (look : Contents → δ) (act : σ → δ → δ) (program : Fallible (Medium ε) ε α)
    (medium : Medium ε) (steps : List σ) (value : α) : Prop :=
  ∃ calls, Plays program medium calls value ∧ Follows look act medium.contents calls steps

namespace Performs

theorem pure (medium : Medium ε) (value : α) :
    Performs look act (pure value : Fallible (Medium ε) ε α) medium [] value :=
  ⟨[], .pure medium value, .nil _⟩

/-- Performing composes along a bind. -/
theorem bind {first : Fallible (Medium ε) ε α} {next : α → Fallible (Medium ε) ε β}
    {medium : Medium ε} {steps further : List σ} {value : α} {result : β}
    (began : Performs look act first medium steps value)
    (went : ∀ reached, Traced look act medium reached steps →
      Performs look act (next value) reached further result) :
    Performs look act (first >>= next) medium (steps ++ further) result := by
  obtain ⟨calls, plays, follows⟩ := began
  obtain ⟨more, plays', follows'⟩ := went _ (Traced.landAll medium follows)
  rw [landAll_contents] at follows'
  exact ⟨calls ++ more, plays.bind plays', follows.append follows'⟩

/-- What a performing program can end in: success with all steps made, or a fault with some
first steps made. -/
theorem traced {program : Fallible (Medium ε) ε α} {medium : Medium ε} {steps : List σ}
    {value : α} (performs : Performs look act program medium steps value) :
    (∃ reached, program medium = (.ok value, reached) ∧ Traced look act medium reached steps) ∨
    (∃ reason reached j, program medium = (.error reason, reached) ∧ Faulted medium reached ∧
      Traced look act medium reached (steps.take j)) := by
  obtain ⟨calls, plays, follows⟩ := performs
  rcases plays.traced follows with ⟨reached, ran, _, traced⟩ | failed
  · exact .inl ⟨reached, ran, traced⟩
  · exact .inr failed

end Performs

/-! ## Reading only -/

/-- Calls passed between two media and nothing was written. -/
structure Unwritten (before after : Medium ε) : Prop where
  /-- The length stays. -/
  length : after.length = before.length
  /-- The contents stay. -/
  contents : after.contents = before.contents
  /-- The log stays. -/
  log : after.log = before.log
  /-- The script stays. -/
  outcomes : after.outcomes = before.outcomes
  /-- Calls are counted up. -/
  calls : before.calls ≤ after.calls

theorem Unwritten.refl (medium : Medium ε) : Unwritten medium medium :=
  ⟨rfl, rfl, rfl, rfl, Nat.le_refl _⟩

theorem Unwritten.trans {first second third : Medium ε} (began : Unwritten first second)
    (went : Unwritten second third) : Unwritten first third :=
  ⟨went.length.trans began.length, went.contents.trans began.contents, went.log.trans began.log,
    went.outcomes.trans began.outcomes, Nat.le_trans began.calls went.calls⟩

/-- Nothing written is no step of any view. -/
theorem Unwritten.traced {before after : Medium ε} (unwritten : Unwritten before after) :
    Traced look act before after [] :=
  ⟨unwritten.length, unwritten.outcomes, unwritten.calls, [], by simp [unwritten.log],
    unwritten.contents, by rw [unwritten.contents, runSteps_nil], fun n => ⟨0, by simp⟩⟩

theorem Healthy.unwritten {before after : Medium ε} (healthy : before.Healthy)
    (unwritten : Unwritten before after) : after.Healthy := fun n above => by
  rw [unwritten.outcomes]
  exact healthy n (Nat.le_trans unwritten.calls above)

/-- Reads that land write nothing. -/
theorem landAll_reads {items : Type} (medium : Medium ε) (list : List items) :
    Unwritten medium (medium.landAll (list.map fun _ => Call.read)) := by
  induction list generalizing medium with
  | nil => exact .refl medium
  | cons _ list ih =>
    have head : Unwritten medium (medium.land .read) :=
      ⟨rfl, rfl, by simp [land, Call.writes], rfl, Nat.le_succ _⟩
    exact head.trans (ih _)

/-- A program that plays reads returns its value or faults, and writes nothing. -/
theorem Plays.reads {items : Type} {program : Fallible (Medium ε) ε α} {medium : Medium ε}
    {list : List items} {value : α}
    (plays : Plays program medium (list.map fun _ => Call.read) value) :
    (∃ reached, program medium = (.ok value, reached) ∧ Unwritten medium reached) ∨
    (∃ reason reached, program medium = (.error reason, reached) ∧ Unwritten medium reached ∧
      Faulted medium reached) := by
  rcases plays.cut with ⟨_, ran⟩ | ⟨stop, reason, inside, _, ended⟩
  · exact .inl ⟨_, ran, landAll_reads medium list⟩
  · right
    rw [List.length_map] at inside
    have faulted (reached : Medium ε) (counted : medium.calls + stop < reached.calls)
        (failed : medium.outcomes (medium.calls + stop) ≠ .done) : Faulted medium reached :=
      ⟨medium.calls + stop, by omega, counted, failed⟩
    rcases ended with ⟨failed, ran⟩ | ⟨failed, ran⟩
    · refine ⟨reason, _, ran, ?_, faulted _ ?_ fun done => ?_⟩
      · rw [← List.map_take]
        exact (landAll_reads medium _).trans ⟨rfl, rfl, rfl, rfl, Nat.le_succ _⟩
      · rw [miss_calls, landAll_calls, List.length_take, List.length_map,
          Nat.min_eq_left (Nat.le_of_lt inside)]
        omega
      · rw [failed] at done
        cases done
    · refine ⟨reason, _, ran, ?_, faulted _ ?_ fun done => ?_⟩
      · rw [← List.map_take]
        exact landAll_reads medium _
      · rw [landAll_calls, List.length_take, List.length_map, Nat.min_eq_left inside]
        omega
      · rw [failed] at done
        cases done

/-- A fault of a first stretch of calls is a fault of the whole. -/
theorem Faulted.extend {first second third : Medium ε} (faulted : Faulted first second)
    (later : second.calls ≤ third.calls) : Faulted first third := by
  obtain ⟨n, above, below, failed⟩ := faulted
  exact ⟨n, above, Nat.lt_of_lt_of_le below later, failed⟩

/-- A fault of a last stretch of calls is a fault of the whole. -/
theorem Faulted.precede {first second third : Medium ε} (faulted : Faulted second third)
    (same : second.outcomes = first.outcomes) (earlier : first.calls ≤ second.calls) :
    Faulted first third := by
  obtain ⟨n, above, below, failed⟩ := faulted
  exact ⟨n, Nat.le_trans earlier above, below, same ▸ failed⟩

/-- A healthy stretch of calls has no fault. -/
theorem Healthy.not_faulted {before after : Medium ε} (healthy : before.Healthy) :
    ¬ Faulted before after := fun ⟨n, above, _, failed⟩ => failed (healthy n above)

end Following

end Medium

end EthernetGateway
