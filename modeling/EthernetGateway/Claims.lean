import Mathlib.Data.Option.Basic
import Mathlib.Tactic.Common

/-!
# Exclusive claims

A key is claimed by at most one owner. Claiming is refused while another owner holds the key and
repeated freely by the one that does, and only the holder can release it. So a claim outlasts
whatever other owners do.
-/

namespace EthernetGateway

/-- Who holds each key. -/
abbrev Claims (κ ω : Type) : Type := κ → Option ω

namespace Claims

variable {κ ω : Type} [DecidableEq κ] [DecidableEq ω] {held : Claims κ ω} {holder owner : ω}
  {key other : κ}

/-- Set who holds a key. -/
def put (held : Claims κ ω) (key : κ) (holder : Option ω) : Claims κ ω := fun k =>
  if k = key then holder else held k

/-- Claim a key for an owner, unless another one holds it. -/
def claim (held : Claims κ ω) (owner : ω) (key : κ) : Option (Claims κ ω) :=
  match held key with
  | some holder => if holder ≠ owner then none else some (held.put key (some owner))
  | none => some (held.put key (some owner))

/-- Give up a key, if the owner holds it. -/
def release (held : Claims κ ω) (owner : ω) (key : κ) : Claims κ ω :=
  if held key = some owner then held.put key none else held

/-- Give up every key of an owner. -/
def releaseAll (held : Claims κ ω) (owner : ω) : Claims κ ω := fun k =>
  if held k = some owner then none else held k

/-- A key that another owner holds cannot be claimed. -/
theorem claim_held (holds : held key = some holder) (apart : owner ≠ holder) :
    held.claim owner key = none := by
  rw [claim, holds]
  exact if_pos apart.symm

/-- A claim that is granted sets the holder of its key. -/
theorem claim_eq {after : Claims κ ω} (claimed : held.claim owner other = some after) :
    after = held.put other (some owner) := by
  rw [claim] at claimed
  split at claimed
  · split at claimed
    · cases claimed
    · exact (Option.some.inj claimed).symm
  · exact (Option.some.inj claimed).symm

/-- A claim leaves who holds a held key. -/
theorem claim_keeps {after : Claims κ ω} (holds : held key = some holder)
    (claimed : held.claim owner other = some after) : after key = some holder := by
  by_cases same : key = other
  · subst same
    have own : owner = holder := by
      by_contra apart
      rw [claim_held holds apart] at claimed
      cases claimed
    rw [claim_eq claimed, put, if_pos rfl, own]
  · rw [claim_eq claimed, put, if_neg same, holds]

/-- The key claimed is then the owner's. -/
theorem claim_own {after : Claims κ ω} (claimed : held.claim owner key = some after) :
    after key = some owner := by
  rw [claim_eq claimed, put, if_pos rfl]

/-- Claiming and releasing leaves a free key free. -/
theorem release_claim_free {after : Claims κ ω} (free : held key = none)
    (claimed : held.claim owner other = some after) : after.release owner other key = none := by
  rw [release, if_pos (claim_own claimed), put]
  split
  · rfl
  · rename_i apart
    rw [claim_eq claimed, put, if_neg apart, free]

/-- The holder can claim its key again. -/
theorem claim_again (holds : held key = some owner) :
    ∃ after, held.claim owner key = some after := by
  rw [claim, holds]
  exact ⟨_, if_neg (not_not.mpr rfl)⟩

/-- A release takes a held key from its holder alone. -/
theorem release_eq (holds : held key = some holder) (owner : ω) (other : κ) :
    held.release owner other key =
      if owner = holder ∧ key = other then none else some holder := by
  unfold release
  by_cases same : key = other
  · subst same
    by_cases own : owner = holder
    · subst own
      rw [if_pos holds, put, if_pos rfl, if_pos ⟨rfl, rfl⟩]
    · rw [if_neg (fun both => own (Option.some.inj (both.symm.trans holds))),
        if_neg (fun both => own both.1), holds]
  · rw [if_neg (fun both : owner = holder ∧ key = other => same both.2)]
    split
    · rw [put, if_neg same, holds]
    · exact holds

omit [DecidableEq κ] in
/-- Giving up everything takes a held key from its holder alone. -/
theorem releaseAll_eq (holds : held key = some holder) :
    held.releaseAll owner key = if owner = holder then none else some holder := by
  rw [releaseAll, holds]
  by_cases own : owner = holder
  · rw [if_pos own, if_pos (by rw [own])]
  · rw [if_neg own, if_neg fun same => own (Option.some.inj same).symm]

end Claims

end EthernetGateway
