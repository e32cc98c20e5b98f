import Mathlib

/-!
# Lists of keyed entries

Entries sorted by key with a stable sort, of which the first of each run of equal keys is kept:
the result lists every key once, in order, with the first entry the unsorted list has for it.
-/

namespace EthernetGateway.KeyedList

variable {κ α : Type} [LinearOrder κ]

/-- Sort by key; entries with equal keys keep their order. -/
def sortByKey (entries : List (κ × α)) : List (κ × α) :=
  entries.mergeSort fun left right => decide (left.1 ≤ right.1)

/-- Keep an entry and, of the entries after it, the first of every later run of equal keys. -/
def keepFirst (entry : κ × α) : List (κ × α) → List (κ × α)
  | [] => [entry]
  | next :: entries =>
    if entry.1 = next.1 then keepFirst entry entries else entry :: keepFirst next entries

/-- Keep the first of every run of entries with equal keys. -/
def dedupByKey : List (κ × α) → List (κ × α)
  | [] => []
  | entry :: entries => keepFirst entry entries

/-- The first entry of a key. -/
def first (entries : List (κ × α)) (key : κ) : Option (κ × α) :=
  entries.find? fun entry => decide (entry.1 = key)

/-- Keys grow from each entry to the next. -/
def Ascending (entries : List (κ × α)) : Prop :=
  entries.Pairwise fun left right => left.1 < right.1

/-- Keys do not shrink from an entry to a later one. -/
def Sorted (entries : List (κ × α)) : Prop :=
  entries.Pairwise fun left right => left.1 ≤ right.1

/-- A list made from the keys below a bound is in ascending order. -/
theorem ascending_filterMap_range (bound : Nat) (image : Nat → Option α) :
    Ascending ((List.range bound).filterMap fun key =>
      (image key).map fun value => (key, value)) := by
  refine List.Pairwise.filterMap _ ?_ List.pairwise_lt_range
  intro left right below entry made other also
  obtain ⟨_, _, rfl⟩ := Option.map_eq_some_iff.mp made
  obtain ⟨_, _, rfl⟩ := Option.map_eq_some_iff.mp also
  exact below

/-- Sorting sorts. -/
theorem sortByKey_sorted (entries : List (κ × α)) : Sorted (sortByKey entries) := by
  have ordered := @List.pairwise_mergeSort _ (fun left right : κ × α => decide (left.1 ≤ right.1))
    (fun _ _ _ below above => by
      simp only [decide_eq_true_eq] at below above ⊢
      exact below.trans above)
    (fun left right => by simpa using le_total left.1 right.1) entries
  exact ordered.imp fun le => of_decide_eq_true le

/-- Entries in ascending order stay as they are. -/
theorem Ascending.sortByKey_eq {entries : List (κ × α)} (ascending : Ascending entries) :
    sortByKey entries = entries :=
  List.mergeSort_of_pairwise (ascending.imp fun below => decide_eq_true below.le)

/-- The entries of one key are sorted to one another's order. -/
theorem sortByKey_filter (entries : List (κ × α)) (key : κ) :
    (sortByKey entries).filter (fun entry => decide (entry.1 = key)) =
      entries.filter fun entry => decide (entry.1 = key) := by
  have alike : (entries.filter fun entry => decide (entry.1 = key)).Pairwise
      fun left right => decide (left.1 ≤ right.1) = true := by
    refine List.Pairwise.imp_of_mem ?_ (List.pairwise_of_forall fun _ _ => trivial)
    intro left right left_mem right_mem _
    have left_key := of_decide_eq_true (List.mem_filter.mp left_mem).2
    have right_key := of_decide_eq_true (List.mem_filter.mp right_mem).2
    exact decide_eq_true (left_key.trans right_key.symm).le
  have kept := List.sublist_mergeSort
    (fun _ _ _ below above => by
      simp only [decide_eq_true_eq] at below above ⊢
      exact below.trans above)
    (fun left right => by simpa using le_total left.1 right.1) alike List.filter_sublist
  have within := kept.filter fun entry => decide (entry.1 = key)
  rw [List.filter_filter] at within
  simp only [Bool.and_self] at within
  refine (within.eq_of_length ?_).symm
  exact ((List.mergeSort_perm entries _).filter _).length_eq.symm

/-- Sorting does not change which entry of a key comes first. -/
theorem sortByKey_first (entries : List (κ × α)) (key : κ) :
    first (sortByKey entries) key = first entries key := by
  rw [first, first, ← List.head?_filter, ← List.head?_filter, sortByKey_filter]

/-- The entries kept from a sorted list have ascending keys, none below the first. -/
theorem keepFirst_ascending (entry : κ × α) (entries : List (κ × α))
    (sorted : Sorted (entry :: entries)) :
    Ascending (keepFirst entry entries) ∧ ∀ kept ∈ keepFirst entry entries, entry.1 ≤ kept.1 := by
  induction entries generalizing entry with
  | nil => simp [keepFirst, Ascending]
  | cons next entries ih =>
    obtain ⟨above, rest⟩ := List.pairwise_cons.mp sorted
    rw [keepFirst]
    split_ifs with same
    · exact ih entry (List.pairwise_cons.mpr
        ⟨fun later member => above later (List.mem_cons_of_mem _ member),
          (List.pairwise_cons.mp rest).2⟩)
    · have below : entry.1 < next.1 := lt_of_le_of_ne (above next List.mem_cons_self) same
      obtain ⟨ascending, bound⟩ := ih next rest
      constructor
      · exact List.pairwise_cons.mpr ⟨fun kept member => below.trans_le (bound kept member),
          ascending⟩
      · intro kept member
        rcases List.mem_cons.mp member with rfl | member
        · exact le_refl _
        · exact below.le.trans (bound kept member)

/-- The entries kept from a sorted list have ascending keys. -/
theorem dedupByKey_ascending {entries : List (κ × α)} (sorted : Sorted entries) :
    Ascending (dedupByKey entries) := by
  cases entries with
  | nil => exact List.Pairwise.nil
  | cons entry entries => exact (keepFirst_ascending entry entries sorted).1

/-- The entries kept from a sorted list are the first ones of their keys. -/
theorem mem_keepFirst (entry : κ × α) (entries : List (κ × α))
    (sorted : Sorted (entry :: entries)) (kept : κ × α) :
    kept ∈ keepFirst entry entries ↔ first (entry :: entries) kept.1 = some kept := by
  induction entries generalizing entry with
  | nil =>
    rw [keepFirst, first, List.find?_cons]
    by_cases same : entry.1 = kept.1
    · simp [same, eq_comm]
    · simp only [same, decide_false, List.find?_nil, List.mem_singleton, reduceCtorEq, iff_false]
      rintro rfl
      exact same rfl
  | cons next entries ih =>
    obtain ⟨above, rest⟩ := List.pairwise_cons.mp sorted
    rw [keepFirst]
    split_ifs with same
    · rw [ih entry (List.pairwise_cons.mpr
        ⟨fun later member => above later (List.mem_cons_of_mem _ member),
          (List.pairwise_cons.mp rest).2⟩)]
      simp only [first, List.find?_cons]
      by_cases here : entry.1 = kept.1
      · simp [here]
      · simp [here, show next.1 ≠ kept.1 from same ▸ here]
    · have below : entry.1 < next.1 := lt_of_le_of_ne (above next List.mem_cons_self) same
      rw [List.mem_cons, ih next rest]
      by_cases here : entry.1 = kept.1
      · have absent : first (next :: entries) kept.1 ≠ some kept := by
          intro found
          have member := List.mem_of_find?_eq_some found
          have bound : next.1 ≤ kept.1 := by
            rcases List.mem_cons.mp member with rfl | member
            · exact le_refl _
            · exact (List.pairwise_cons.mp rest).1 kept member
          exact absurd here (below.trans_le bound).ne
        have head : first (entry :: next :: entries) kept.1 = some entry := by
          simp [first, here]
        rw [head]
        simp [absent, eq_comm]
      · have head : first (entry :: next :: entries) kept.1 = first (next :: entries) kept.1 := by
          simp [first, here]
        rw [head]
        constructor
        · rintro (rfl | found)
          · exact absurd rfl here
          · exact found
        · exact Or.inr

/-- The entries kept from a sorted list are the first ones of their keys. -/
theorem mem_dedupByKey {entries : List (κ × α)} (sorted : Sorted entries) (kept : κ × α) :
    kept ∈ dedupByKey entries ↔ first entries kept.1 = some kept := by
  cases entries with
  | nil => simp [dedupByKey, first]
  | cons entry entries => exact mem_keepFirst entry entries sorted kept

/-- Entries in ascending order are determined by their members. -/
theorem Ascending.ext {left right : List (κ × α)} (ascending : Ascending left)
    (also : Ascending right) (same : ∀ entry, entry ∈ left ↔ entry ∈ right) : left = right := by
  have distinct : ∀ {entries : List (κ × α)}, Ascending entries → entries.Nodup :=
    fun ordered => ordered.imp fun below equal => absurd (congrArg Prod.fst equal) below.ne
  refine List.Perm.eq_of_pairwise ?_ ascending also
    ((List.perm_ext_iff_of_nodup (distinct ascending) (distinct also)).mpr same)
  intro one other _ _ below above
  exact absurd (below.trans above) (lt_irrefl _)

/-- In ascending order every entry is the first of its key. -/
theorem Ascending.mem_iff_first {entries : List (κ × α)} (ascending : Ascending entries)
    (entry : κ × α) : entry ∈ entries ↔ first entries entry.1 = some entry := by
  constructor
  · intro member
    induction entries with
    | nil => cases member
    | cons head entries ih =>
      obtain ⟨above, rest⟩ := List.pairwise_cons.mp ascending
      rcases List.mem_cons.mp member with rfl | member
      · simp [first]
      · rw [first, List.find?_cons_of_neg (by simpa using (above entry member).ne)]
        exact ih rest member
  · exact List.mem_of_find?_eq_some

/-- The first entry of a key in a list made from the keys below a bound. -/
theorem first_filterMap_range {bound : Nat} (image : Nat → Option α) {key : Nat}
    (inside : ∀ value, image key = some value → key < bound) :
    first ((List.range bound).filterMap fun other =>
      (image other).map fun value => (other, value)) key =
      (image key).map fun value => (key, value) := by
  have ascending := ascending_filterMap_range bound image
  cases found : image key with
  | none =>
    rw [first, Option.map_none, List.find?_eq_none]
    rintro ⟨other, value⟩ member
    obtain ⟨_, _, made⟩ := List.mem_filterMap.mp member
    obtain ⟨_, held, same⟩ := Option.map_eq_some_iff.mp made
    cases same
    simp only [decide_eq_true_eq]
    rintro rfl
    rw [found] at held
    cases held
  | some value =>
    exact (ascending.mem_iff_first (key, value)).mp (List.mem_filterMap.mpr
      ⟨key, List.mem_range.mpr (inside value found), by rw [found]; rfl⟩)

/-- Entries sorted and kept once are an ascending list exactly when that list has, for each key,
the first entry of it. -/
theorem dedupByKey_sortByKey {entries merged : List (κ × α)} (ascending : Ascending merged)
    (firsts : ∀ entry, entry ∈ merged ↔ first entries entry.1 = some entry) :
    dedupByKey (sortByKey entries) = merged := by
  refine (dedupByKey_ascending (sortByKey_sorted entries)).ext ascending fun entry => ?_
  rw [mem_dedupByKey (sortByKey_sorted entries), sortByKey_first, firsts]

end EthernetGateway.KeyedList
