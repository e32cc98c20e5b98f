import Mathlib.Data.List.Nodup
import Mathlib.Data.List.ReduceOption

/-!
# Machines that answer

A machine takes one input at a time and answers it at once. Two machines answer alike when a
relation between their states is kept by every step and makes the steps answer alike; the relation
may speak of the inputs still to come, so that a bound on all of them is spent step by step. A
machine whose answers it may not give again gives each of them once.
-/

namespace EthernetGateway.Answering

variable {σ τ ι ο : Type} {step : σ → ι → σ × ο} {other : τ → ι → τ × ο}

/-- The answers to a list of inputs. -/
def answers (step : σ → ι → σ × ο) : σ → List ι → List ο
  | _, [] => []
  | state, input :: inputs => (step state input).2 :: answers step (step state input).1 inputs

/-- Machines whose steps keep a relation and answer alike answer alike. -/
theorem answers_eq (alike : List ι → σ → τ → Prop)
    (kept : ∀ input inputs state state', alike (input :: inputs) state state' →
      (step state input).2 = (other state' input).2 ∧
        alike inputs (step state input).1 (other state' input).1)
    {inputs : List ι} {state : σ} {state' : τ} (start : alike inputs state state') :
    answers step state inputs = answers other state' inputs := by
  induction inputs generalizing state state' with
  | nil => rfl
  | cons input inputs ih =>
    obtain ⟨same, later⟩ := kept input inputs state state' start
    rw [answers, answers, same, ih later]

/-- A machine gives a value once that each step giving it takes from what the machine may still
give. -/
theorem answers_nodup {given : σ → ι → σ × Option ο} (sound : σ → Prop) (mayGive : σ → ο → Prop)
    (sounder : ∀ state input, sound state → sound (given state input).1)
    (fewer : ∀ state input, sound state → ∀ value, mayGive (given state input).1 value →
      mayGive state value)
    (taken : ∀ state input, sound state → ∀ value, (given state input).2 = some value →
      mayGive state value ∧ ¬ mayGive (given state input).1 value)
    (inputs : List ι) {state : σ} (start : sound state) :
    (answers given state inputs).reduceOption.Nodup ∧
      ∀ value ∈ (answers given state inputs).reduceOption, mayGive state value := by
  induction inputs generalizing state with
  | nil =>
    refine ⟨List.nodup_nil, ?_⟩
    intro value member
    cases member
  | cons input inputs ih =>
    obtain ⟨nodup, later⟩ := ih (sounder state input start)
    have before := fun value member => fewer state input start value (later value member)
    rw [answers]
    cases gives : (given state input).2 with
    | none =>
      rw [List.reduceOption_cons_of_none]
      exact ⟨nodup, before⟩
    | some value =>
      obtain ⟨now, gone⟩ := taken state input start value gives
      rw [List.reduceOption_cons_of_some]
      refine ⟨List.nodup_cons.mpr ⟨fun again => gone (later value again), nodup⟩, ?_⟩
      intro other member
      rcases List.mem_cons.mp member with rfl | member
      · exact now
      · exact before other member

end EthernetGateway.Answering
