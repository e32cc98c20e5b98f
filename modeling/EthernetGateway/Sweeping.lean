import Mathlib

/-!
# Stores that sweep expired entries

A store keeps one entry a key, and entries expire. Some calls first drop every expired entry of the
store, so that it does not grow with keys that never come back. Where an expired entry counts as
none, sweeping is not seen: each key is answered as if it had the store to itself.
-/

namespace EthernetGateway

/-- What calls do with the entry of their key. -/
structure SweepRule (ν ι ο : Type) where
  /-- An entry has expired at a time. -/
  expired : Nat → ν → Bool
  /-- A call drops the expired entries first. -/
  sweeps : ι → Bool
  /-- What a call at a time answers. -/
  answer : Nat → ι → Option ν → ο
  /-- The entry a call at a time leaves. -/
  next : Nat → ι → Option ν → Option ν

namespace SweepRule

variable {κ ν ι ο : Type} [DecidableEq κ] (rule : SweepRule ν ι ο)

/-- An entry unless it has expired. -/
def fresh (now : Nat) (entry : Option ν) : Option ν :=
  entry.filter fun value => !rule.expired now value

/-- The entry a call sees. -/
def seen (now : Nat) (input : ι) (entry : Option ν) : Option ν :=
  if rule.sweeps input then rule.fresh now entry else entry

/-- Entries stay expired, and a call that does not sweep takes an expired entry for none. -/
structure Lawful : Prop where
  /-- An expired entry stays expired. -/
  lasting : ∀ {now later value}, now ≤ later → rule.expired now value = true →
    rule.expired later value = true
  /-- The answer is that of the entry if it has not expired. -/
  answer_fresh : ∀ now input entry, rule.sweeps input = false →
    rule.answer now input entry = rule.answer now input (rule.fresh now entry)
  /-- What is left is what is left of the entry if it has not expired, but for expired ones. -/
  next_fresh : ∀ now input entry, rule.sweeps input = false →
    rule.fresh now (rule.next now input entry) =
      rule.fresh now (rule.next now input (rule.fresh now entry))

/-- A call: its key, its time and what it asks. -/
structure Call (κ ι : Type) where
  /-- The key. -/
  key : κ
  /-- The time. -/
  now : Nat
  /-- What is asked. -/
  input : ι

/-- The answer of a call to a store. -/
def answerTo (store : κ → Option ν) (call : Call κ ι) : ο :=
  rule.answer call.now call.input (rule.seen call.now call.input (store call.key))

/-- The store after a call. -/
def apply (store : κ → Option ν) (call : Call κ ι) : κ → Option ν :=
  Function.update (fun key => rule.seen call.now call.input (store key)) call.key
    (rule.next call.now call.input (rule.seen call.now call.input (store call.key)))

/-- The store after some calls. -/
def after (store : κ → Option ν) (calls : List (Call κ ι)) : κ → Option ν :=
  calls.foldl rule.apply store

/-- The entry of a key after calls to that key alone, from a time and what is asked. -/
def own (entry : Option ν) (calls : List (Nat × ι)) : Option ν :=
  calls.foldl (fun entry call => rule.next call.1 call.2 (rule.seen call.1 call.2 entry)) entry

/-- The calls to a key. -/
def callsOf (key : κ) (calls : List (Call κ ι)) : List (Nat × ι) :=
  (calls.filter fun call => decide (call.key = key)).map fun call => (call.now, call.input)

variable {rule}

/-- Dropping an expired entry twice is dropping it once. -/
theorem fresh_fresh (now : Nat) (entry : Option ν) :
    rule.fresh now (rule.fresh now entry) = rule.fresh now entry := by
  cases entry with
  | none => rfl
  | some value => simp [fresh]

/-- Entries that agree but for expired ones agree later. -/
theorem Lawful.fresh_later (lawful : rule.Lawful) {now later : Nat} (le : now ≤ later)
    {entry entry' : Option ν} (same : rule.fresh now entry = rule.fresh now entry') :
    rule.fresh later entry = rule.fresh later entry' := by
  have through (entry : Option ν) :
      rule.fresh later entry = rule.fresh later (rule.fresh now entry) := by
    cases entry with
    | none => rfl
    | some value =>
      by_cases gone : rule.expired now value = true
      · simp [fresh, Option.filter, gone, lawful.lasting le gone]
      · simp [fresh, Option.filter, gone]
  rw [through entry, same, ← through entry']

/-- Entries that agree but for expired ones look the same to a call that sweeps. -/
theorem fresh_seen (now : Nat) (input : ι) (entry : Option ν) :
    rule.fresh now (rule.seen now input entry) = rule.fresh now entry := by
  rw [seen]
  split
  · exact fresh_fresh now entry
  · rfl

/-- Entries that agree but for expired ones are answered alike. -/
theorem Lawful.answer_congr (lawful : rule.Lawful) {now : Nat} {input : ι}
    {entry entry' : Option ν} (same : rule.fresh now entry = rule.fresh now entry') :
    rule.answer now input (rule.seen now input entry) =
      rule.answer now input (rule.seen now input entry') := by
  cases sweeps : rule.sweeps input with
  | true => rw [seen, seen, if_pos sweeps, if_pos sweeps, same]
  | false =>
    rw [lawful.answer_fresh now input _ sweeps, fresh_seen, same,
      lawful.answer_fresh now input (rule.seen now input entry') sweeps, fresh_seen]

/-- Entries that agree but for expired ones do so after a call. -/
theorem Lawful.next_congr (lawful : rule.Lawful) {now : Nat} {input : ι}
    {entry entry' : Option ν} (same : rule.fresh now entry = rule.fresh now entry') :
    rule.fresh now (rule.next now input (rule.seen now input entry)) =
      rule.fresh now (rule.next now input (rule.seen now input entry')) := by
  cases sweeps : rule.sweeps input with
  | true => rw [seen, seen, if_pos sweeps, if_pos sweeps, same]
  | false =>
    rw [lawful.next_fresh now input _ sweeps, fresh_seen, same,
      lawful.next_fresh now input (rule.seen now input entry') sweeps, fresh_seen]

/-- After calls at growing times each key holds what its own calls leave, but for expired ones. -/
theorem Lawful.after_own (lawful : rule.Lawful) (calls : List (Call κ ι)) {since : Nat}
    (ordered : calls.Pairwise fun early late => early.now ≤ late.now)
    (started : ∀ call ∈ calls, since ≤ call.now) {store : κ → Option ν} {key : κ}
    {entry : Option ν} (same : rule.fresh since (store key) = rule.fresh since entry)
    {ending : Nat} (ended : ∀ call ∈ calls, call.now ≤ ending) (le : since ≤ ending) :
    rule.fresh ending (rule.after store calls key) =
      rule.fresh ending (rule.own entry (callsOf key calls)) := by
  induction calls generalizing since store entry with
  | nil => exact lawful.fresh_later le same
  | cons call rest ih =>
    rw [List.pairwise_cons] at ordered
    have now := started call List.mem_cons_self
    have later := lawful.fresh_later now same
    have inner (other : Call κ ι) (member : other ∈ rest) : other.now ≤ ending :=
      ended other (List.mem_cons_of_mem call member)
    have bounded := ended call List.mem_cons_self
    rw [after, List.foldl_cons]
    by_cases mine : call.key = key
    · have first : callsOf key (call :: rest) = (call.now, call.input) :: callsOf key rest := by
        simp [callsOf, mine]
      rw [first, own, List.foldl_cons]
      refine ih ordered.2 ordered.1 ?_ inner bounded
      subst mine
      rw [apply, Function.update_self]
      exact lawful.next_congr later
    · have none : callsOf key (call :: rest) = callsOf key rest := by
        simp [callsOf, mine]
      rw [none]
      refine ih ordered.2 ordered.1 ?_ inner bounded
      rw [apply, Function.update_of_ne (Ne.symm mine), fresh_seen]
      exact later

/-- After calls at growing times a call is answered as if its key had the store to itself. -/
theorem Lawful.answerTo_own (lawful : rule.Lawful) (calls : List (Call κ ι))
    (ordered : calls.Pairwise fun early late => early.now ≤ late.now) (call : Call κ ι)
    (last : ∀ other ∈ calls, other.now ≤ call.now) :
    rule.answerTo (rule.after (fun _ => none) calls) call =
      rule.answer call.now call.input
        (rule.seen call.now call.input (rule.own none (callsOf call.key calls))) :=
  lawful.answer_congr (lawful.after_own calls ordered (fun _ _ => Nat.zero_le _) rfl last
    (Nat.zero_le _))

end SweepRule

end EthernetGateway
