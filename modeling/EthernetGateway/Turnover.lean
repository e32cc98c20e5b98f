import Mathlib

/-!
# Lists that grow at the end and lose elements

A log, a queue or a history is written at its end and loses elements somewhere. What it becomes is
described by two lists, the elements written and the elements lost: nothing else comes or goes, and
what is left keeps its order. Such descriptions compose.
-/

namespace EthernetGateway

variable {α : Type}

/-- A list became another: some elements were written at its end, and some were lost. -/
structure Turnover (before written lost after : List α) : Prop where
  /-- What was there and what was written is what was lost and what is left. -/
  kept : (before ++ written).Perm (lost ++ after)
  /-- What is left is in its order. -/
  order : after.Sublist (before ++ written)

namespace Turnover

variable {before middle after written written' lost lost' : List α}

/-- A list is what it was. -/
theorem refl (list : List α) : Turnover list [] [] list :=
  ⟨by simp, by simp⟩

/-- Turnovers follow each other. -/
theorem trans (first : Turnover before written lost middle)
    (second : Turnover middle written' lost' after) :
    Turnover before (written ++ written') (lost ++ lost') after where
  kept := by
    have early := first.kept.append_right written'
    have late := second.kept.append_left lost
    rw [List.append_assoc, List.append_assoc] at early
    rw [List.append_assoc]
    exact early.trans late
  order := by
    rw [← List.append_assoc]
    exact second.order.trans (first.order.append_right written')

/-- Elements written at the end. -/
theorem append (list written : List α) : Turnover list written [] (list ++ written) :=
  ⟨by simp, List.Sublist.refl _⟩

/-- Elements lost between others. -/
theorem drop (front lost back : List α) :
    Turnover (front ++ lost ++ back) [] lost (front ++ back) where
  kept := by
    rw [List.append_nil, ← List.append_assoc]
    exact List.perm_append_comm.append_right back
  order := by
    rw [List.append_nil]
    exact (List.sublist_append_left front lost).append_right back

/-- A list to which nothing was written is unchanged exactly when nothing was lost. -/
theorem unchanged_iff (turned : Turnover before [] lost after) : after = before ↔ lost = [] := by
  have count := turned.kept.length_eq
  rw [List.append_nil, List.length_append] at count
  constructor
  · intro same
    rw [same] at count
    exact List.length_eq_zero_iff.mp (by omega)
  · intro none
    rw [none, List.length_nil, Nat.zero_add] at count
    have order := turned.order
    rw [List.append_nil] at order
    exact order.eq_of_length count.symm

end Turnover

end EthernetGateway
