import Mathlib.Data.List.Basic
import Mathlib.Tactic.Linarith

/-!
# Lists in pieces

A list is cut into pieces of one size, the last of which may be shorter. The pieces are the list
again, none is empty, and their number is the length over the size, rounded up.
-/

namespace EthernetGateway

variable {α : Type}

/-- The pieces of a list, of a size that is one at least. -/
def chunks (size : Nat) (list : List α) : List (List α) :=
  match list with
  | [] => []
  | a :: rest => (a :: rest.take (size - 1)) :: chunks size (rest.drop (size - 1))
termination_by list.length

@[simp] theorem chunks_nil (size : Nat) : chunks size ([] : List α) = [] := by
  rw [chunks]

theorem chunks_cons (size : Nat) (a : α) (rest : List α) :
    chunks size (a :: rest) =
      (a :: rest.take (size - 1)) :: chunks size (rest.drop (size - 1)) := by
  rw [chunks]

/-- The pieces are the list again. -/
theorem chunks_flatten (size : Nat) (list : List α) : (chunks size list).flatten = list := by
  induction list using chunks.induct size with
  | case1 => simp
  | case2 a rest ih => rw [chunks_cons, List.flatten_cons, ih, List.cons_append, List.take_append_drop]

/-- A piece is not empty, and not longer than the size. -/
theorem chunks_bounds {size : Nat} (positive : 0 < size) (list : List α) :
    ∀ piece ∈ chunks size list, 0 < piece.length ∧ piece.length ≤ size := by
  induction list using chunks.induct size with
  | case1 => simp
  | case2 a rest ih =>
    intro piece mem
    rw [chunks_cons] at mem
    obtain first | later := List.mem_cons.mp mem
    · rw [first, List.length_cons, List.length_take]
      omega
    · exact ih piece later

/-- The number of pieces. -/
theorem chunks_length {size : Nat} (positive : 0 < size) (list : List α) :
    (chunks size list).length = (list.length + size - 1) / size := by
  induction list using chunks.induct size with
  | case1 =>
    have none : (0 + size - 1) / size = 0 := Nat.div_eq_of_lt (by omega)
    rw [chunks_nil, List.length_nil, List.length_nil, none]
  | case2 a rest ih =>
    rw [chunks_cons, List.length_cons, ih, List.length_drop, List.length_cons]
    by_cases short : rest.length ≤ size - 1
    · have none : (rest.length - (size - 1) + size - 1) / size = 0 :=
        Nat.div_eq_of_lt (by omega)
      have one : (rest.length + 1 + size - 1) / size = 1 :=
        Nat.div_eq_of_lt_le (by omega) (by omega)
      rw [none, one]
    · have before : rest.length - (size - 1) + size - 1 = rest.length := by omega
      have after : rest.length + 1 + size - 1 = rest.length + size := by omega
      rw [before, after, Nat.add_div_right _ positive]

/-- A list without elements has no pieces, and no other has. -/
theorem chunks_ne_nil {size : Nat} {list : List α} (some : list ≠ []) : chunks size list ≠ [] := by
  cases list with
  | nil => exact absurd rfl some
  | cons a rest =>
    rw [chunks_cons]
    exact List.cons_ne_nil _ _

end EthernetGateway
