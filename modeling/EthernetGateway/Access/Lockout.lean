import EthernetGateway.Sweeping

/-!
# Locking out addresses that fail to log in

Failed credentials are counted for each address, and an address with three of them is refused until
five minutes after the last. The count is shared by all listeners; each address checks one
credential at a time, from the question whether it is locked out to the count of a failure.
-/

namespace EthernetGateway.Access

variable {Address : Type} [DecidableEq Address]

/-- `MAX_AUTH_ATTEMPTS`. -/
def maxAuthAttempts : Nat := 3

/-- `LOCKOUT_DURATION`, in milliseconds. -/
def lockoutDuration : Nat := 300000

/-- `LockoutMap`: for each address its failures and when the last one was. -/
abbrev LockoutMap (Address : Type) := Address → Option (Nat × Nat)

/-- `within_lockout_window`. -/
def withinLockoutWindow (age : Nat) : Bool := decide (age < lockoutDuration)

/-- A time is within the window of an earlier one. -/
theorem withinLockoutWindow_iff (now since : Nat) :
    withinLockoutWindow (now - since) = true ↔ now < since + lockoutDuration := by
  rw [withinLockoutWindow, decide_eq_true_eq, lockoutDuration]
  omega

/-- `lockout_is_active`. -/
def lockoutIsActive (count age : Nat) : Bool :=
  decide (count ≥ maxAuthAttempts) && withinLockoutWindow age

/-- `is_locked_out`. -/
def isLockedOut (lockouts : LockoutMap Address) (ip : Address) (now : Nat) : Bool :=
  match lockouts ip with
  | some (count, since) => lockoutIsActive count (now - since)
  | none => false

/-- `record_auth_failure`. -/
def recordAuthFailure (lockouts : LockoutMap Address) (ip : Address) (now : Nat) :
    Nat × LockoutMap Address :=
  let swept : LockoutMap Address := fun other =>
    (lockouts other).filter fun entry => withinLockoutWindow (now - entry.2)
  let count := ((swept ip).getD (0, now)).1 + 1
  (count, Function.update swept ip (some (count, now)))

/-- `clear_lockout`. -/
def clearLockout (lockouts : LockoutMap Address) (ip : Address) : LockoutMap Address :=
  Function.update lockouts ip none

/-! ## The map as a store that sweeps -/

/-- What is asked of the map. -/
inductive Request where
  /-- Whether an address is locked out. -/
  | check
  /-- To count a failure. -/
  | fail
  /-- To forget the failures. -/
  | clear
  deriving DecidableEq

/-- What the map answers. -/
inductive Answer where
  /-- Whether the address is locked out. -/
  | locked (active : Bool)
  /-- The failures counted. -/
  | counted (count : Nat)
  /-- Nothing. -/
  | cleared
  deriving DecidableEq

/-- The map as a rule for the entry of one address. -/
def lockoutRule : SweepRule (Nat × Nat) Request Answer where
  expired now entry := !withinLockoutWindow (now - entry.2)
  sweeps request := decide (request = .fail)
  answer now request entry :=
    match request with
    | .check =>
      .locked (match entry with
        | some (count, since) => lockoutIsActive count (now - since)
        | none => false)
    | .fail => .counted ((entry.getD (0, now)).1 + 1)
    | .clear => .cleared
  next now request entry :=
    match request with
    | .check => entry
    | .fail => some ((entry.getD (0, now)).1 + 1, now)
    | .clear => none

/-- A call to the map. -/
abbrev LockoutCall (Address : Type) := SweepRule.Call Address Request

omit [DecidableEq Address] in
/-- Asking is a call of the rule. -/
theorem isLockedOut_eq (lockouts : LockoutMap Address) (ip : Address) (now : Nat) :
    lockoutRule.answerTo lockouts ⟨ip, now, .check⟩ =
      .locked (isLockedOut lockouts ip now) := rfl

omit [DecidableEq Address] in
/-- What a counting call sees is what the sweep leaves. -/
theorem seen_fail (lockouts : LockoutMap Address) (now : Nat) (other : Address) :
    lockoutRule.seen now .fail (lockouts other) =
      (lockouts other).filter fun entry => withinLockoutWindow (now - entry.2) := by
  simp [SweepRule.seen, SweepRule.fresh, lockoutRule]

/-- Counting is a call of the rule. -/
theorem recordAuthFailure_eq (lockouts : LockoutMap Address) (ip : Address) (now : Nat) :
    lockoutRule.answerTo lockouts ⟨ip, now, .fail⟩ =
        .counted (recordAuthFailure lockouts ip now).1 ∧
      lockoutRule.apply lockouts ⟨ip, now, .fail⟩ =
        (recordAuthFailure lockouts ip now).2 := by
  constructor
  · rw [SweepRule.answerTo, seen_fail]
    rfl
  · simp only [SweepRule.apply, seen_fail]
    rfl

/-- Forgetting is a call of the rule. -/
theorem clearLockout_eq (lockouts : LockoutMap Address) (ip : Address) (now : Nat) :
    lockoutRule.apply lockouts ⟨ip, now, .clear⟩ = clearLockout lockouts ip := rfl

/-- An entry past the window counts as none. -/
theorem lockoutRule_lawful : lockoutRule.Lawful where
  lasting {now later entry} le gone := by
    simp only [lockoutRule, withinLockoutWindow, Bool.not_eq_true', decide_eq_false_iff_not]
      at gone ⊢
    omega
  answer_fresh now request entry quiet := by
    cases request with
    | fail => cases quiet
    | clear => rfl
    | check =>
      cases entry with
      | none => rfl
      | some entry =>
        by_cases gone : withinLockoutWindow (now - entry.2) = true
        · simp [SweepRule.fresh, lockoutRule, Option.filter_some, gone]
        · simp [SweepRule.fresh, lockoutRule, lockoutIsActive, Option.filter_some, gone]
  next_fresh now request entry quiet := by
    cases request with
    | fail => cases quiet
    | clear => rfl
    | check => exact (SweepRule.fresh_fresh now entry).symm

/-! ## An address is locked out for its own failures -/

/-- Times each of which is within the window of the next. -/
def Close (times : List Nat) : Prop :=
  times.IsChain fun early late => late < early + lockoutDuration

/-- The times of the failures among calls of one address. -/
def failures (calls : List (Nat × Request)) : List Nat :=
  (calls.filter fun call => decide (call.2 = .fail)).map Prod.fst

/-- No call forgets the failures. -/
def Unforgiven (calls : List (Nat × Request)) : Prop := ∀ call ∈ calls, call.2 ≠ .clear

/-- Calls at an end leave what they make of what those before left. -/
theorem own_append (calls later : List (Nat × Request)) (entry : Option (Nat × Nat)) :
    lockoutRule.own entry (calls ++ later) = lockoutRule.own (lockoutRule.own entry calls) later :=
  List.foldl_append

/-- A failure within the window of the last is one more, and any other the first. -/
theorem own_fail (entry : Option (Nat × Nat)) (now : Nat) :
    lockoutRule.own entry [(now, .fail)] =
      some (((entry.filter fun entry => withinLockoutWindow (now - entry.2)).getD (0, now)).1 + 1,
        now) := by
  simp [SweepRule.own, SweepRule.seen, SweepRule.fresh, lockoutRule]

/-- Failures close to each other are all counted. -/
theorem close_counted (entry : Option (Nat × Nat)) {calls : List (Nat × Request)}
    (unforgiven : Unforgiven calls) (close : Close (failures calls)) {last : Nat}
    (ended : (failures calls).getLast? = some last) :
    ∃ count, lockoutRule.own entry calls = some (count, last) ∧
      (failures calls).length ≤ count := by
  induction calls using List.reverseRecOn generalizing last with
  | nil => cases ended
  | append_singleton calls call ih =>
    have earlier : Unforgiven calls := fun other member =>
      unforgiven other (List.mem_append_left _ member)
    obtain ⟨now, request⟩ := call
    rw [own_append]
    cases request with
    | clear => exact absurd rfl (unforgiven _ (List.mem_append_right _ List.mem_cons_self))
    | check =>
      have same : failures (calls ++ [(now, .check)]) = failures calls := by
        simp [failures]
      rw [same] at close ended ⊢
      exact ih earlier close ended
    | fail =>
      have more : failures (calls ++ [(now, .fail)]) = failures calls ++ [now] := by
        simp [failures]
      rw [more] at close ended ⊢
      obtain rfl : now = last := by simpa using ended
      rw [own_fail, List.length_append]
      refine ⟨_, rfl, ?_⟩
      cases before : (failures calls).getLast? with
      | none =>
        rw [List.getLast?_eq_none_iff.mp before]
        simp
      | some last =>
        rw [Close, List.isChain_append] at close
        have gap : now < last + lockoutDuration := close.2.2 last before now (by simp)
        obtain ⟨count, held, counted⟩ := ih earlier close.1 before
        have live := (withinLockoutWindow_iff now last).mpr gap
        rw [held]
        simp only [Option.filter_some, live, if_true, Option.getD_some, List.length_singleton]
        omega

/-- What is counted are the latest failures, close to each other. -/
theorem counted_close {calls : List (Nat × Request)} {count last : Nat}
    (held : lockoutRule.own none calls = some (count, last)) :
    ∃ before later, calls = before ++ later ∧ Unforgiven later ∧
      (failures later).length = count ∧ Close (failures later) ∧
      (failures later).getLast? = some last := by
  induction calls using List.reverseRecOn generalizing count last with
  | nil => cases held
  | append_singleton calls call ih =>
    obtain ⟨now, request⟩ := call
    rw [own_append] at held
    cases request with
    | clear => cases held
    | check =>
      obtain ⟨before, later, rfl, unforgiven, counted, close, ended⟩ := ih held
      have same : failures (later ++ [(now, .check)]) = failures later := by
        simp [failures]
      refine ⟨before, later ++ [(now, .check)], by simp, fun other member => ?_, ?_⟩
      · rcases List.mem_append.mp member with old | new
        · exact unforgiven other old
        · rw [List.mem_singleton.mp new]
          exact fun same => nomatch same
      · rw [same]
        exact ⟨counted, close, ended⟩
    | fail =>
      rw [own_fail, Option.some.injEq, Prod.mk.injEq] at held
      obtain ⟨counted, rfl⟩ := held
      -- Without an entry in the window the failure is the first of its streak.
      by_cases live : ∃ earlier, lockoutRule.own none calls = some earlier ∧
          withinLockoutWindow (now - earlier.2) = true
      · obtain ⟨⟨earlier, last⟩, entry, live⟩ := live
        obtain ⟨before, later, rfl, unforgiven, length, close, ended⟩ := ih entry
        have more : failures (later ++ [(now, .fail)]) = failures later ++ [now] := by
          simp [failures]
        simp only [entry, Option.filter_some, live, if_true, Option.getD_some] at counted
        refine ⟨before, later ++ [(now, .fail)], by simp, fun other member => ?_, ?_, ?_, ?_⟩
        · rcases List.mem_append.mp member with old | new
          · exact unforgiven other old
          · rw [List.mem_singleton.mp new]
            exact fun same => nomatch same
        · rw [more, List.length_append, length, ← counted]
          rfl
        · rw [more, Close, List.isChain_append]
          refine ⟨close, List.isChain_singleton now, fun early is late at' => ?_⟩
          rw [ended, Option.mem_some_iff] at is
          obtain rfl : now = late := by simpa using at'
          subst is
          exact (withinLockoutWindow_iff now last).mp live
        · rw [more]
          simp
      · have none : (lockoutRule.own none calls).filter
            (fun entry => withinLockoutWindow (now - entry.2)) = none := by
          rw [Option.filter_eq_none_iff]
          exact fun entry held kept => live ⟨entry, held, kept⟩
        rw [none] at counted
        refine ⟨calls, [(now, .fail)], rfl, fun other member => ?_, ?_, ?_, ?_⟩
        · rw [List.mem_singleton.mp member]
          exact fun same => nomatch same
        · rw [← counted]
          rfl
        · exact List.isChain_singleton now
        · rfl

/-- Which failures lock an address out at a time: at least as many as the limit without a success
between, close to each other, the last close to the time. -/
def LockedBy (calls : List (Nat × Request)) (now : Nat) : Prop :=
  ∃ before later, calls = before ++ later ∧ Unforgiven later ∧
    maxAuthAttempts ≤ (failures later).length ∧ Close (failures later ++ [now])

/-- An address with an entry is locked out exactly by its own failures. -/
theorem lockedBy_iff (calls : List (Nat × Request)) (now : Nat) :
    (∃ count last, lockoutRule.own none calls = some (count, last) ∧
      lockoutIsActive count (now - last) = true) ↔ LockedBy calls now := by
  simp only [lockoutIsActive, Bool.and_eq_true, decide_eq_true_eq, withinLockoutWindow_iff]
  constructor
  · rintro ⟨count, last, held, enough, live⟩
    obtain ⟨before, later, split, unforgiven, length, close, ended⟩ := counted_close held
    refine ⟨before, later, split, unforgiven, by omega, ?_⟩
    rw [Close, List.isChain_append]
    refine ⟨close, List.isChain_singleton now, fun early is late at' => ?_⟩
    rw [ended, Option.mem_some_iff] at is
    obtain rfl : now = late := by simpa using at'
    subst is
    exact live
  · rintro ⟨before, later, rfl, unforgiven, enough, close⟩
    rw [Close, List.isChain_append] at close
    cases ended : (failures later).getLast? with
    | none =>
      rw [List.getLast?_eq_none_iff.mp ended] at enough
      simp [maxAuthAttempts] at enough
    | some last =>
      obtain ⟨count, held, counted⟩ :=
        close_counted (lockoutRule.own none before) unforgiven close.1 ended
      have gap : now < last + lockoutDuration := close.2.2 last ended now (by simp)
      exact ⟨count, last, by rw [own_append, held], by omega, gap⟩

/-- An address is locked out exactly by its own failures, whatever the calls of other addresses and
whatever they sweep: three without a success between, each within the window of the next, and the
last within the window of the question. -/
theorem isLockedOut_iff (calls : List (LockoutCall Address))
    (ordered : calls.Pairwise fun early late => early.now ≤ late.now) (ip : Address) {now : Nat}
    (asked : ∀ call ∈ calls, call.now ≤ now) :
    isLockedOut (lockoutRule.after (fun _ => none) calls) ip now = true ↔
      LockedBy (SweepRule.callsOf ip calls) now := by
  have own := lockoutRule_lawful.answerTo_own calls ordered ⟨ip, now, .check⟩ asked
  rw [isLockedOut_eq] at own
  have same : isLockedOut (lockoutRule.after (fun _ => none) calls) ip now =
      isLockedOut (fun _ : Address => lockoutRule.own none (SweepRule.callsOf ip calls)) ip now := by
    simpa [lockoutRule, SweepRule.seen, isLockedOut] using own
  rw [same, isLockedOut, ← lockedBy_iff]
  cases lockoutRule.own none (SweepRule.callsOf ip calls) with
  | none => simp
  | some entry =>
    obtain ⟨count, last⟩ := entry
    simp

/-- The theorem at work: three failures in a row. -/
theorem isLockedOut_three :
    LockedBy (SweepRule.callsOf 7
      [⟨7, 0, .fail⟩, ⟨7, 10, .fail⟩, ⟨8, 15, .clear⟩, ⟨7, 20, .fail⟩]) 30 :=
  (isLockedOut_iff [⟨7, 0, .fail⟩, ⟨7, 10, .fail⟩, ⟨8, 15, .clear⟩, ⟨7, 20, .fail⟩] (by simp) 7
    (by simp)).mp (by decide)

end EthernetGateway.Access
