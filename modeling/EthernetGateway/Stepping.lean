import Mathlib.Data.Nat.Basic
import Mathlib.Data.List.Induction
import Mathlib.Tactic.Cases

/-!
# Machines that read a stream

A machine takes one input at a time, and each time it goes on or returns. What its runs come to is
read off a potential: a number that every step brings down, except that a step may be paid for from
a budget. A machine that can be kept in a set of states is one that never returns.
-/

namespace EthernetGateway.Stepping

/-- What a step comes to. -/
inductive Progress (σ ρ : Type) where
  | next (state : σ)
  | returned (result : ρ)

variable {σ ι ρ : Type} (step : σ → ι → Progress σ ρ)

/-- What a machine comes to after a number of inputs. -/
def run (inputs : Nat → ι) : Nat → σ → Progress σ ρ
  | 0, state => .next state
  | count + 1, state =>
    match step state (inputs 0) with
    | .next later => run (fun i => inputs (i + 1)) count later
    | .returned result => .returned result

/-- The weight of the steps a machine takes on a number of inputs. -/
def tally (weight : σ → ι → Nat) (inputs : Nat → ι) : Nat → σ → Nat
  | 0, _ => 0
  | count + 1, state =>
    weight state (inputs 0) +
      match step state (inputs 0) with
      | .next later => tally weight (fun i => inputs (i + 1)) count later
      | .returned _ => 0

/-- A machine returns on some number of its inputs. -/
def ReturnsWithin (inputs : Nat → ι) (count : Nat) (state : σ) : Prop :=
  ∃ result, run step inputs count state = .returned result

/-- What a machine comes to from what it was started with. -/
def resume (inputs : Nat → ι) (count : Nat) : Progress σ ρ → Progress σ ρ
  | .next state => run step inputs count state
  | .returned result => .returned result

variable {step}

/-- A run whose first step goes on. -/
theorem run_next {inputs : Nat → ι} {state later : σ} (first : step state (inputs 0) = .next later)
    (count : Nat) :
    run step inputs (count + 1) state = run step (fun i => inputs (i + 1)) count later := by
  simp only [run, first]

/-- A run whose first step returns. -/
theorem run_returned {inputs : Nat → ι} {state : σ} {result : ρ}
    (first : step state (inputs 0) = .returned result) (count : Nat) :
    run step inputs (count + 1) state = .returned result := by
  simp only [run, first]

/-- The weight of a run whose first step goes on. -/
theorem tally_next {weight : σ → ι → Nat} {inputs : Nat → ι} {state later : σ}
    (first : step state (inputs 0) = .next later) (count : Nat) :
    tally step weight inputs (count + 1) state =
      weight state (inputs 0) + tally step weight (fun i => inputs (i + 1)) count later := by
  simp only [tally, first]

/-- A run of steps without weight weighs nothing. -/
theorem tally_zero {invariant : σ → Prop} {weight : σ → ι → Nat}
    (free : ∀ state input, invariant state → weight state input = 0)
    (kept : ∀ state input later, invariant state → step state input = .next later → invariant later)
    (count : Nat) (inputs : Nat → ι) {state : σ} (holds : invariant state) :
    tally step weight inputs count state = 0 := by
  induction count generalizing inputs state with
  | zero => rfl
  | succ count ih =>
    cases first : step state (inputs 0) with
    | next later =>
      rw [tally_next first, free state (inputs 0) holds,
        ih _ (kept state (inputs 0) later holds first)]
    | returned result => simp [tally, first, free state (inputs 0) holds]

/-- A machine returns once its inputs outnumber its potential, when every step brings the potential
down, less what it takes from a budget that lasts. -/
theorem returnsWithin_of_potential {invariant : σ → Prop} {weight : σ → ι → Nat}
    {potential : Nat → σ → Nat} {most : Nat}
    (drops : ∀ state input later budget, invariant state → step state input = .next later →
      weight state input ≤ budget → budget ≤ most →
        invariant later ∧ potential (budget - weight state input) later < potential budget state)
    {inputs : Nat → ι} {count budget : Nat} {state : σ} (holds : invariant state)
    (enough : potential budget state < count)
    (lasts : tally step weight inputs count state ≤ budget) (within : budget ≤ most) :
    ReturnsWithin step inputs count state := by
  induction count generalizing inputs budget state with
  | zero => exact absurd enough (Nat.not_lt_zero _)
  | succ count ih =>
    cases first : step state (inputs 0) with
    | returned result => exact ⟨result, run_returned first count⟩
    | next later =>
      rw [tally_next first] at lasts
      obtain ⟨holds', less⟩ := drops state (inputs 0) later budget holds first (by omega) within
      obtain ⟨result, is⟩ := @ih (fun i => inputs (i + 1)) _ later holds'
        (Nat.lt_of_lt_of_le less (Nat.le_of_lt_succ enough)) (by omega) (by omega)
      exact ⟨result, by rw [run_next first, is]⟩

/-- A machine returns once its inputs outnumber a measure that every step brings down. -/
theorem returnsWithin_of_measure {invariant : σ → Prop} {measure : σ → Nat}
    (drops : ∀ state input later, invariant state → step state input = .next later →
      invariant later ∧ measure later < measure state)
    {inputs : Nat → ι} {count : Nat} {state : σ} (holds : invariant state)
    (enough : measure state < count) : ReturnsWithin step inputs count state := by
  exact @returnsWithin_of_potential σ ι ρ step invariant (fun _ _ => 0) (fun _ => measure) 0
    (fun state input later _ kept first _ _ => drops state input later kept first) inputs count 0
    state holds enough
    (Nat.le_of_eq (tally_zero (fun _ _ _ => rfl) (fun state input later kept first =>
      (drops state input later kept first).1) count inputs holds)) (Nat.le_refl 0)

/-- A number of two digits drops when its high digit does, whatever a low digit below the base. -/
theorem digits_lt {high high' low low' base : Nat} (drops : high' < high) (small : low' ≤ base) :
    high' * (base + 1) + low' + 1 ≤ high * (base + 1) + low :=
  calc high' * (base + 1) + low' + 1
      ≤ high' * (base + 1) + (base + 1) := by omega
    _ = (high' + 1) * (base + 1) := (Nat.succ_mul high' (base + 1)).symm
    _ ≤ high * (base + 1) := Nat.mul_le_mul_right _ drops
    _ ≤ high * (base + 1) + low := Nat.le_add_right _ _

/-- A stream that keeps a machine in sets of states, one for each moment, keeps it from
returning. -/
theorem run_kept {kept : Nat → σ → Prop} {inputs : Nat → ι}
    (keeps : ∀ i state, kept i state → ∃ later, step state (inputs i) = .next later ∧
      kept (i + 1) later)
    {state : σ} (start : kept 0 state) (count : Nat) :
    ∃ later, run step inputs count state = .next later ∧ kept count later := by
  induction count generalizing inputs kept state with
  | zero => exact ⟨state, rfl, start⟩
  | succ count ih =>
    obtain ⟨later, first, then'⟩ := keeps 0 state start
    rw [run_next first]
    exact @ih (fun i => kept (i + 1)) (fun i => inputs (i + 1)) (fun i => keeps (i + 1)) later then'

/-- A machine that goes on after a number of inputs has not returned within them. -/
theorem not_returnsWithin {inputs : Nat → ι} {count : Nat} {state later : σ}
    (goesOn : run step inputs count state = .next later) : ¬ ReturnsWithin step inputs count state := by
  rintro ⟨result, returned⟩
  rw [goesOn] at returned
  cases returned

/-- A step that grows a size by a limit at most. -/
def Grows (size : σ → Nat) (final : ρ → Nat) (limit : Nat) : Progress σ ρ → Prop
  | .next later => size later ≤ limit
  | .returned result => final result ≤ limit

/-- What a run has grown a size to, when no step grows it by more than a limit. -/
theorem run_grows {size : σ → Nat} {final : ρ → Nat} {limit : Nat}
    (grows : ∀ state input, Grows size final (size state + limit) (step state input))
    (inputs : Nat → ι) (count : Nat) (state : σ) :
    Grows size final (size state + limit * count) (run step inputs count state) := by
  induction count generalizing inputs state with
  | zero => exact Nat.le_refl _
  | succ count ih =>
    have first' := grows state (inputs 0)
    rw [Nat.mul_succ]
    cases first : step state (inputs 0) with
    | returned result =>
      rw [first] at first'
      rw [run_returned first]
      have : final result ≤ size state + limit := first'
      show final result ≤ _
      omega
    | next later =>
      rw [first] at first'
      rw [run_next first]
      have : size later ≤ size state + limit := first'
      have rest := ih (fun i => inputs (i + 1)) later
      cases ran : run step (fun i => inputs (i + 1)) count later with
      | next last =>
        rw [ran] at rest
        have : size last ≤ size later + limit * count := rest
        show size last ≤ _
        omega
      | returned result =>
        rw [ran] at rest
        have : final result ≤ size later + limit * count := rest
        show final result ≤ _
        omega

/-- What a run weighs that returns, when each step but for one unit pays for its weight from a size
of the state. -/
theorem tally_le_of_returns {weight : σ → ι → Nat} {size : σ → Nat}
    (next : ∀ state input later, step state input = .next later →
      weight state input + size later ≤ size state + 1)
    (returned : ∀ state input result, step state input = .returned result →
      weight state input ≤ size state + 1)
    {inputs : Nat → ι} {bound : Nat} {state : σ} (returns : ReturnsWithin step inputs bound state)
    (count : Nat) : tally step weight inputs count state ≤ size state + bound := by
  induction bound generalizing inputs state count with
  | zero =>
    obtain ⟨result, is⟩ := returns
    cases is
  | succ bound ih =>
    cases count with
    | zero => exact Nat.zero_le _
    | succ count =>
      cases first : step state (inputs 0) with
      | returned result =>
        have light := returned state (inputs 0) result first
        simp only [tally, first]
        omega
      | next later =>
        have light := next state (inputs 0) later first
        obtain ⟨result, is⟩ := returns
        rw [run_next first] at is
        have rest := ih ⟨result, is⟩ count
        rw [tally_next first]
        omega

/-! ## Lists of inputs -/

/-- What follows a machine that goes on. -/
def Progress.andThen (progress : Progress σ ρ) (next : σ → Progress σ ρ) : Progress σ ρ :=
  match progress with
  | .next state => next state
  | .returned result => .returned result

/-- What a machine comes to after a list of inputs. -/
def feed (step : σ → ι → Progress σ ρ) (inputs : List ι) (state : σ) : Progress σ ρ :=
  inputs.foldl (fun (progress : Progress σ ρ) input => progress.andThen fun state => step state input)
    (.next state)

/-- A machine goes on after a list and one more input when it does after each. -/
theorem feed_concat {inputs : List ι} {input : ι} {state later : σ}
    (goesOn : feed step (inputs ++ [input]) state = .next later) :
    ∃ middle, feed step inputs state = .next middle ∧ step middle input = .next later := by
  unfold feed at goesOn ⊢
  rw [List.foldl_append] at goesOn
  cases before : inputs.foldl
      (fun (progress : Progress σ ρ) input => progress.andThen fun state => step state input)
      (.next state) with
  | next middle =>
    rw [before] at goesOn
    exact ⟨middle, rfl, goesOn⟩
  | returned result =>
    rw [before] at goesOn
    cases goesOn

/-- What holds of a machine and the inputs it has taken, when every step keeps it. -/
theorem feed_holds {holds : List ι → σ → Prop} {allowed : List ι → Prop} {start : σ}
    (shorter : ∀ inputs input, allowed (inputs ++ [input]) → allowed inputs) (first : holds [] start)
    (kept : ∀ inputs input state later, allowed (inputs ++ [input]) → holds inputs state →
      step state input = .next later → holds (inputs ++ [input]) later)
    {inputs : List ι} {state : σ} (permitted : allowed inputs)
    (goesOn : feed step inputs start = .next state) : holds inputs state := by
  induction inputs using List.reverseRecOn generalizing state with
  | nil =>
    cases goesOn
    exact first
  | append_singleton inputs input ih =>
    obtain ⟨middle, before, last⟩ := feed_concat goesOn
    exact kept inputs input middle state permitted (ih (shorter inputs input permitted) before) last

end EthernetGateway.Stepping
