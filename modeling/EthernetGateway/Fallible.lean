import Mathlib

/-!
# Computations that may fail and keep the state they reached

A fallible computation reads and changes a state and ends with a value or a reason. Failure
does not undo anything: the state a failing computation hands back is the one it had reached,
which is what an operation on a real device leaves behind. The rules here take a run of a
compound computation apart at its binds.
-/

namespace EthernetGateway

/-- A computation over a state that ends with a value or with a reason for failing. -/
def Fallible (σ ε α : Type) : Type := σ → Except ε α × σ

namespace Fallible

variable {σ ε α β : Type}

instance : Monad (Fallible σ ε) where
  pure value := fun state => (.ok value, state)
  bind first next := fun state =>
    match first state with
    | (.ok value, reached) => next value reached
    | (.error reason, reached) => (.error reason, reached)

/-- Stop with a reason, in the state reached. -/
def fail (reason : ε) : Fallible σ ε α := fun state => (.error reason, state)

/-- End as a check has ended, the state unchanged. -/
def given (ending : Except ε α) : Fallible σ ε α := fun state => (ending, state)

/-- Look at the state. -/
def view (look : σ → α) : Fallible σ ε α := fun state => (.ok (look state), state)

/-- Change the state. -/
def change (next : σ → σ) : Fallible σ ε Unit := fun state => (.ok (), next state)

/-- Run a computation and hand its ending back as a value, so that the caller goes on. -/
def attempt (program : Fallible σ ε α) : Fallible σ ε (Except ε α) := fun state =>
  let (ending, reached) := program state
  (.ok ending, reached)

/-- Run a computation on a part of the state. -/
def within {τ : Type} (part : σ → τ) (replace : σ → τ → σ) (program : Fallible τ ε α) :
    Fallible σ ε α := fun state =>
  let (ending, reached) := program (part state)
  (ending, replace state reached)

@[simp] theorem pure_run (value : α) (state : σ) :
    (pure value : Fallible σ ε α) state = (.ok value, state) := rfl

@[simp] theorem fail_run (reason : ε) (state : σ) :
    (fail reason : Fallible σ ε α) state = (.error reason, state) := rfl

@[simp] theorem given_run (ending : Except ε α) (state : σ) :
    (given ending : Fallible σ ε α) state = (ending, state) := rfl

@[simp] theorem view_run (look : σ → α) (state : σ) :
    (view look : Fallible σ ε α) state = (.ok (look state), state) := rfl

@[simp] theorem change_run (next : σ → σ) (state : σ) :
    (change next : Fallible σ ε Unit) state = (.ok (), next state) := rfl

@[simp] theorem attempt_run (program : Fallible σ ε α) (state : σ) :
    attempt program state = (.ok (program state).1, (program state).2) := rfl

@[simp] theorem within_run {τ : Type} (part : σ → τ) (replace : σ → τ → σ)
    (program : Fallible τ ε α) (state : σ) :
    within part replace program state =
      ((program (part state)).1, replace state (program (part state)).2) := rfl

/-- A bind runs its second computation on the value and state of a first that succeeded. -/
theorem bind_run (first : Fallible σ ε α) (next : α → Fallible σ ε β) (state : σ) :
    (first >>= next) state =
      match first state with
      | (.ok value, reached) => next value reached
      | (.error reason, reached) => (.error reason, reached) := rfl

/-- A bind after success is its second computation. -/
theorem bind_ok {first : Fallible σ ε α} {state reached : σ} {value : α}
    (ran : first state = (.ok value, reached)) (next : α → Fallible σ ε β) :
    (first >>= next) state = next value reached := by
  rw [bind_run, ran]

/-- A bind after failure is that failure. -/
theorem bind_error {first : Fallible σ ε α} {state reached : σ} {reason : ε}
    (ran : first state = (.error reason, reached)) (next : α → Fallible σ ε β) :
    (first >>= next) state = (.error reason, reached) := by
  rw [bind_run, ran]

/-- A bind that succeeded ran both parts to success. -/
theorem bind_ok_inv {first : Fallible σ ε α} {next : α → Fallible σ ε β} {state last : σ}
    {result : β} (ran : (first >>= next) state = (.ok result, last)) :
    ∃ value reached, first state = (.ok value, reached) ∧
      next value reached = (.ok result, last) := by
  rw [bind_run] at ran
  cases began : first state with
  | mk ending reached =>
    rw [began] at ran
    cases ending with
    | ok value => exact ⟨value, reached, rfl, ran⟩
    | error reason => cases ran

/-- Binding after a pure value is applying to it. -/
@[simp] theorem pure_bind_run (value : α) (next : α → Fallible σ ε β) :
    ((pure value : Fallible σ ε α) >>= next) = next value := rfl

/-- Binds reassociate. -/
theorem bind_assoc_run {γ : Type} (first : Fallible σ ε α) (second : α → Fallible σ ε β)
    (third : β → Fallible σ ε γ) :
    ((first >>= second) >>= third) = (first >>= fun value => second value >>= third) := by
  funext state
  rw [bind_run, bind_run, bind_run]
  cases first state with
  | mk ending reached => cases ending <;> rfl

/-- A property of both endings of a run. -/
def Ends (run : Except ε α × σ) (good : α → σ → Prop) (bad : σ → Prop) : Prop :=
  match run with
  | (.ok value, reached) => good value reached
  | (.error _, reached) => bad reached

/-- Endings compose along a bind. -/
theorem Ends.bind {first : Fallible σ ε α} {next : α → Fallible σ ε β} {state : σ}
    {middle : α → σ → Prop} {good : β → σ → Prop} {bad : σ → Prop}
    (began : Ends (first state) middle bad)
    (went : ∀ value reached, middle value reached → Ends (next value reached) good bad) :
    Ends ((first >>= next) state) good bad := by
  rw [bind_run]
  cases ran : first state with
  | mk ending reached =>
    rw [ran] at began
    cases ending with
    | ok value => exact went value reached began
    | error reason => exact began

/-! ## What every ending keeps -/

/-- A computation keeps a property of the state however it ends, and its value has another. -/
def Keeps (holds : σ → Prop) (yields : α → Prop) (program : Fallible σ ε α) : Prop :=
  ∀ state, holds state →
    Ends (program state) (fun value reached => yields value ∧ holds reached) holds

section Keeps

variable {holds : σ → Prop} {yields : α → Prop}

/-- A computation that always fails. -/
theorem Keeps.fail (reason : ε) : Keeps holds yields (fail reason : Fallible σ ε α) :=
  fun _ kept => kept

/-- A pure value. -/
theorem Keeps.pure {value : α} (yielded : yields value) :
    Keeps holds yields (pure value : Fallible σ ε α) :=
  fun _ kept => ⟨yielded, kept⟩

/-- The ending of a check. -/
theorem Keeps.given {ending : Except ε α} (yielded : ∀ value, ending = .ok value → yields value) :
    Keeps holds yields (given ending : Fallible σ ε α) := by
  intro state kept
  cases ended : ending with
  | ok value => exact ⟨yielded value ended, kept⟩
  | error reason => exact kept

/-- A look at the state. -/
theorem Keeps.view {look : σ → α} (yielded : ∀ state, holds state → yields (look state)) :
    Keeps holds yields (view look : Fallible σ ε α) :=
  fun state kept => ⟨yielded state kept, kept⟩

/-- A change of the state. -/
theorem Keeps.change {next : σ → σ} (step : ∀ state, holds state → holds (next state)) :
    Keeps holds (fun _ => True) (change next : Fallible σ ε Unit) :=
  fun state kept => ⟨trivial, step state kept⟩

/-- One computation after another. -/
theorem Keeps.bind {results : β → Prop} {first : Fallible σ ε α} {next : α → Fallible σ ε β}
    (began : Keeps holds yields first)
    (went : ∀ value, yields value → Keeps holds results (next value)) :
    Keeps holds results (first >>= next) :=
  fun state kept => (began state kept).bind fun value reached ended =>
    went value ended.1 reached ended.2

/-- What a run ends in. -/
theorem Keeps.reached {program : Fallible σ ε α} (kept : Keeps holds yields program) {state : σ}
    (held : holds state) : holds (program state).2 := by
  have ended := kept state held
  cases ran : program state with
  | mk ending last =>
    rw [ran] at ended
    cases ending with
    | ok value => exact ended.2
    | error reason => exact ended

end Keeps

/-! ## Successes -/

/-- The successes of a computation keep a property, and end in states related to those they began
in. -/
def Carries (holds : σ → Prop) (moved : σ → σ → Prop) (program : Fallible σ ε α) : Prop :=
  ∀ state value reached, holds state → program state = (.ok value, reached) →
    holds reached ∧ moved state reached

section Carries

variable {holds : σ → Prop} {moved : σ → σ → Prop}

/-- A computation that always fails has no successes. -/
theorem Carries.fail (reason : ε) : Carries holds moved (fail reason : Fallible σ ε α) := by
  intro state value reached _ ran
  cases ran

/-- A computation that leaves the state alone. -/
theorem Carries.still (refl : ∀ state, moved state state) {program : Fallible σ ε α}
    (unmoved : ∀ state, (program state).2 = state) : Carries holds moved program := by
  intro state value reached kept ran
  have same := unmoved state
  rw [ran] at same
  cases same
  exact ⟨kept, refl reached⟩

/-- A pure value. -/
theorem Carries.pure (refl : ∀ state, moved state state) (value : α) :
    Carries holds moved (pure value : Fallible σ ε α) :=
  .still refl fun _ => rfl

/-- One computation after another. -/
theorem Carries.bind (trans : ∀ first second third, moved first second → moved second third →
      moved first third)
    {first : Fallible σ ε α} {next : α → Fallible σ ε β} (began : Carries holds moved first)
    (went : ∀ value, Carries holds moved (next value)) : Carries holds moved (first >>= next) := by
  intro state value reached kept ran
  obtain ⟨middle, between, ran, later⟩ := bind_ok_inv ran
  obtain ⟨kept', moved'⟩ := began state middle between kept ran
  obtain ⟨kept'', moved''⟩ := went middle between value reached kept' later
  exact ⟨kept'', trans _ _ _ moved' moved''⟩

/-- A look at a state that has the property. -/
theorem Carries.view {look : σ → α} {next : α → Fallible σ ε β}
    (went : ∀ state, holds state → Carries holds moved (next (look state))) :
    Carries holds moved (view look >>= next) := by
  intro state value reached kept ran
  exact went state kept state value reached kept ran

end Carries

end Fallible

end EthernetGateway
