import EthernetGateway.Access.Lockout

/-!
# How many guesses an address has

Telnet, SSH and the web listener check a credential in the same steps: they take the turn of the
caller's address, ask whether it is locked out, and give the turn back when the answer is known and
counted. Sessions of any number of addresses take these steps in any order.
-/

namespace EthernetGateway.Access

variable {Address : Type} [DecidableEq Address]

/-- What a listener does with the credentials of an address. -/
inductive GuessEvent (Address : Type) where
  /-- A session takes the turn of its address in `auth_turn` and asks `is_locked_out`. -/
  | ask (ip : Address) (now : Nat)
  /-- The session that has the turn finds its credential wrong and counts it. -/
  | wrong (ip : Address) (now : Nat)
  /-- The session that has the turn finds its credential right. -/
  | right (ip : Address) (now : Nat)
  /-- The session that has the turn is dropped. -/
  | dropped (ip : Address) (now : Nat)
  /-- `auth_publickey` accepts a key. -/
  | key (ip : Address) (now : Nat)

/-- The time of an event. -/
def GuessEvent.now : GuessEvent Address → Nat
  | .ask _ now => now
  | .wrong _ now => now
  | .right _ now => now
  | .dropped _ now => now
  | .key _ now => now

/-- The shared count of failures, and which addresses a session has the turn of. -/
structure Gate (Address : Type) where
  /-- The failures. -/
  lockouts : LockoutMap Address
  /-- The turns that are taken. -/
  turn : Address → Bool

/-- The gate after an event, if it can happen. -/
def Gate.step (gate : Gate Address) : GuessEvent Address → Option (Gate Address)
  | .ask ip now =>
    -- A turn that is taken is waited for.
    if gate.turn ip then none
    else if isLockedOut gate.lockouts ip now then some gate
    else some ⟨gate.lockouts, Function.update gate.turn ip true⟩
  | .wrong ip now =>
    if gate.turn ip then
      some ⟨(recordAuthFailure gate.lockouts ip now).2, Function.update gate.turn ip false⟩
    else none
  | .right ip _ =>
    if gate.turn ip then
      some ⟨clearLockout gate.lockouts ip, Function.update gate.turn ip false⟩
    else none
  | .dropped ip _ =>
    if gate.turn ip then some ⟨gate.lockouts, Function.update gate.turn ip false⟩ else none
  | .key ip now =>
    if isLockedOut gate.lockouts ip now then some gate
    else some ⟨clearLockout gate.lockouts ip, gate.turn⟩

/-- The gate after some events, if they can happen. -/
def Gate.run : Gate Address → List (GuessEvent Address) → Option (Gate Address)
  | gate, [] => some gate
  | gate, event :: rest => gate.step event >>= fun gate => gate.run rest

/-- An event forgets the failures of an address. A key that the lockout refuses does not. -/
def GuessEvent.Forgives (gate : Gate Address) (ip : Address) : GuessEvent Address → Prop
  | .right other _ => other = ip
  | .key other now => other = ip ∧ ¬ isLockedOut gate.lockouts ip now = true
  | _ => False

/-- No event of a run forgets the failures of an address. -/
def Gate.Unforgiven (ip : Address) : Gate Address → List (GuessEvent Address) → Prop
  | _, [] => True
  | gate, event :: rest =>
    ¬ event.Forgives gate ip ∧ ∀ next ∈ gate.step event, next.Unforgiven ip rest

instance GuessEvent.decidableForgives (gate : Gate Address) (ip : Address) :
    (event : GuessEvent Address) → Decidable (event.Forgives gate ip)
  | .right other _ => inferInstanceAs (Decidable (other = ip))
  | .key other now =>
    inferInstanceAs (Decidable (other = ip ∧ ¬ isLockedOut gate.lockouts ip now = true))
  | .ask _ _ | .wrong _ _ | .dropped _ _ => inferInstanceAs (Decidable False)

instance Gate.decidableUnforgiven (ip : Address) :
    (gate : Gate Address) → (events : List (GuessEvent Address)) →
      Decidable (gate.Unforgiven ip events)
  | _, [] => inferInstanceAs (Decidable True)
  | gate, event :: rest =>
    have : ∀ next : Gate Address, Decidable (next.Unforgiven ip rest) := fun next =>
      next.decidableUnforgiven ip rest
    inferInstanceAs (Decidable (¬ event.Forgives gate ip ∧
      ∀ next ∈ gate.step event, next.Unforgiven ip rest))

/-- An event is a wrong guess of an address in a window that starts at a time. -/
def GuessEvent.isGuess (ip : Address) (start : Nat) : GuessEvent Address → Bool
  | .wrong other now =>
    decide (other = ip ∧ start ≤ now ∧ now < start + lockoutDuration)
  | _ => false

/-- The wrong guesses of an address in a window. -/
def guessesIn (ip : Address) (start : Nat) (events : List (GuessEvent Address)) : Nat :=
  (events.filter (GuessEvent.isGuess ip start)).length

/-- After some guesses in a window the map has counted them, and a session has the turn of the
address only while there are fewer than the limit. -/
structure Counted (gate : Gate Address) (ip : Address) (start guesses : Nat) : Prop where
  /-- Every guess is counted, and the last was in the window. -/
  counted : 0 < guesses → ∃ count last, gate.lockouts ip = some (count, last) ∧
    guesses ≤ count ∧ start ≤ last
  /-- A session that checks is below the limit. -/
  turn : gate.turn ip = true → guesses < maxAuthAttempts

section Step

variable {gate after : Gate Address} {ip : Address} {start guesses : Nat}
  {event : GuessEvent Address}

/-- Entries in the window survive the sweep of a failure of another address. -/
theorem recordAuthFailure_other {lockouts : LockoutMap Address} {other : Address} (differ : ip ≠ other)
    {now count last : Nat} (held : lockouts ip = some (count, last))
    (live : now < last + lockoutDuration) :
    (recordAuthFailure lockouts other now).2 ip = some (count, last) := by
  have kept := (withinLockoutWindow_iff now last).mpr live
  simp [recordAuthFailure, Function.update_of_ne differ, held, Option.filter_some, kept]

/-- A failure of an address whose entry is in the window is one more. -/
theorem recordAuthFailure_own {lockouts : LockoutMap Address} {now count last : Nat}
    (held : lockouts ip = some (count, last)) (live : now < last + lockoutDuration) :
    (recordAuthFailure lockouts ip now).2 ip = some (count + 1, now) := by
  have kept := (withinLockoutWindow_iff now last).mpr live
  simp [recordAuthFailure, held, Option.filter_some, kept]

/-- A failure is counted at its time. -/
theorem recordAuthFailure_counts (lockouts : LockoutMap Address) (ip : Address) (now : Nat) :
    ∃ count, (recordAuthFailure lockouts ip now).2 ip = some (count + 1, now) := by
  simp [recordAuthFailure]

omit [DecidableEq Address] in
/-- A session that finds an address not locked out is below the limit. -/
theorem Counted.asked (counted : Counted gate ip start guesses) {now : Nat}
    (below : now < start + lockoutDuration) (allowed : ¬ isLockedOut gate.lockouts ip now = true) :
    guesses < maxAuthAttempts := by
  rcases Nat.eq_zero_or_pos guesses with none | some
  · rw [none]
    decide
  · obtain ⟨count, last, held, enough, late⟩ := counted.counted some
    simp only [isLockedOut, held, lockoutIsActive, Bool.and_eq_true, decide_eq_true_eq,
      withinLockoutWindow_iff] at allowed
    omega

omit [DecidableEq Address] in
/-- What is counted stays when the entry does and the turn does or is given back. -/
theorem Counted.congr (counted : Counted gate ip start guesses)
    (entry : after.lockouts ip = gate.lockouts ip)
    (turn : after.turn ip = gate.turn ip ∨ after.turn ip = false) :
    Counted after ip start guesses := by
  refine ⟨fun some => ?_, fun held => ?_⟩
  · rw [entry]
    exact counted.counted some
  · rcases turn with same | given
    · exact counted.turn (same ▸ held)
    · rw [given] at held
      cases held

/-- A wrong guess of an address is counted, and one of another address keeps what is counted. -/
theorem Counted.wrong (counted : Counted gate ip start guesses) {other : Address} {now : Nat}
    (taken : gate.turn other = true) (below : now < start + lockoutDuration)
    (later : 0 < guesses → start ≤ now) :
    Counted ⟨(recordAuthFailure gate.lockouts other now).2, Function.update gate.turn other false⟩
      ip start (guesses + if (GuessEvent.wrong other now).isGuess ip start then 1 else 0) := by
  by_cases mine : ip = other
  · subst mine
    have below' := counted.turn taken
    refine ⟨fun some => ?_, fun held => by simp at held⟩
    simp only [GuessEvent.isGuess, true_and, decide_eq_true_eq] at some ⊢
    have early : start ≤ now := by
      by_contra past
      rw [if_neg (by omega)] at some
      exact past (later some)
    rw [if_pos ⟨early, below⟩]
    rcases Nat.eq_zero_or_pos guesses with none | counting
    · obtain ⟨count, held⟩ := recordAuthFailure_counts gate.lockouts ip now
      exact ⟨count + 1, now, held, by omega, early⟩
    · obtain ⟨count, last, held, enough, late⟩ := counted.counted counting
      have live : now < last + lockoutDuration := by omega
      exact ⟨count + 1, now, recordAuthFailure_own held live, by omega, early⟩
  · have none : GuessEvent.isGuess ip start (.wrong other now) = false := by
      simp [GuessEvent.isGuess, Ne.symm mine]
    rw [none]
    refine ⟨fun some => ?_, fun held => ?_⟩
    · obtain ⟨count, last, held, enough, late⟩ := counted.counted some
      have live : now < last + lockoutDuration := by omega
      exact ⟨count, last, recordAuthFailure_other mine held live, enough, late⟩
    · simp only [Function.update_of_ne mine] at held
      exact counted.turn held

/-- An event in the window keeps what is counted. -/
theorem Counted.step (counted : Counted gate ip start guesses)
    (unforgiven : ¬ event.Forgives gate ip) (below : event.now < start + lockoutDuration)
    (later : 0 < guesses → start ≤ event.now) (ran : gate.step event = some after) :
    Counted after ip start (guesses + if event.isGuess ip start then 1 else 0) := by
  cases event with
  | ask other now =>
    simp only [Gate.step] at ran
    simp only [GuessEvent.isGuess, Bool.false_eq_true, if_false, Nat.add_zero]
    split at ran
    · cases ran
    · split at ran
      · cases ran
        exact counted
      · rename_i allowed
        cases ran
        refine ⟨counted.counted, fun taken => ?_⟩
        by_cases mine : ip = other
        · subst mine
          exact counted.asked below allowed
        · simp only [Function.update_of_ne mine] at taken
          exact counted.turn taken
  | wrong other now =>
    simp only [Gate.step] at ran
    split at ran
    · rename_i taken
      cases ran
      exact counted.wrong taken below later
    · cases ran
  | right other now =>
    have mine : ip ≠ other := fun same => unforgiven same.symm
    simp only [Gate.step] at ran
    split at ran
    · cases ran
      exact counted.congr (Function.update_of_ne mine _ _) (.inl (Function.update_of_ne mine _ _))
    · cases ran
  | dropped other now =>
    simp only [Gate.step] at ran
    split at ran
    · cases ran
      refine counted.congr rfl ?_
      by_cases mine : ip = other
      · subst mine
        exact .inr (Function.update_self _ _ _)
      · exact .inl (Function.update_of_ne mine _ _)
    · cases ran
  | key other now =>
    simp only [Gate.step] at ran
    split at ran
    · cases ran
      exact counted
    · rename_i allowed
      have mine : ip ≠ other := by
        rintro rfl
        exact unforgiven ⟨rfl, allowed⟩
      cases ran
      exact counted.congr (Function.update_of_ne mine _ _) (.inl rfl)

/-- No event leaves more guesses counted than the limit. -/
theorem Counted.limit (counted : Counted gate ip start guesses) (le : guesses ≤ maxAuthAttempts)
    (ran : gate.step event = some after) :
    guesses + (if event.isGuess ip start then 1 else 0) ≤ maxAuthAttempts := by
  by_cases guess : event.isGuess ip start = true
  · rw [if_pos guess]
    cases event with
    | wrong other now =>
      simp only [GuessEvent.isGuess, decide_eq_true_eq] at guess
      obtain ⟨rfl, _⟩ := guess
      simp only [Gate.step] at ran
      split at ran
      · rename_i taken
        exact counted.turn taken
      · cases ran
    | ask | right | dropped | key => cases guess
  · rw [if_neg guess]
    exact le

end Step

/-- A guess in a window is before its end. -/
theorem isGuess_below {ip : Address} {start : Nat} {event : GuessEvent Address}
    (guess : event.isGuess ip start = true) : start ≤ event.now ∧
      event.now < start + lockoutDuration := by
  cases event with
  | wrong other now =>
    simp only [GuessEvent.isGuess, decide_eq_true_eq] at guess
    exact guess.2
  | ask | right | dropped | key => cases guess

/-- Guesses counted so far and those of a run are no more than the limit. -/
theorem Counted.run {gate after : Gate Address} {ip : Address} {start guesses : Nat}
    {events : List (GuessEvent Address)} (counted : Counted gate ip start guesses)
    (le : guesses ≤ maxAuthAttempts) (later : ∀ event ∈ events, 0 < guesses → start ≤ event.now)
    (ordered : events.Pairwise fun early late => early.now ≤ late.now)
    (unforgiven : gate.Unforgiven ip events) (ran : gate.run events = some after) :
    guesses + guessesIn ip start events ≤ maxAuthAttempts := by
  induction events generalizing gate guesses with
  | nil => exact le
  | cons event rest ih =>
    rw [Gate.run, Option.bind_eq_bind, Option.bind_eq_some_iff] at ran
    obtain ⟨middle, stepped, ran⟩ := ran
    rw [List.pairwise_cons] at ordered
    by_cases below : event.now < start + lockoutDuration
    · have next := counted.step unforgiven.1 below
        (later event List.mem_cons_self) stepped
      have limit := counted.limit le stepped
      have rest' := ih next limit (fun other member some => ?_) ordered.2
        (unforgiven.2 middle stepped) ran
      · have split : guessesIn ip start (event :: rest) =
            (if event.isGuess ip start then 1 else 0) + guessesIn ip start rest := by
          rw [guessesIn, guessesIn, List.filter_cons]
          split
          · rw [List.length_cons, Nat.add_comm]
          · rw [Nat.zero_add]
        omega
      · have order := ordered.1 other member
        by_cases guess : event.isGuess ip start = true
        · have := isGuess_below guess
          omega
        · rw [if_neg guess, Nat.add_zero] at some
          exact later other (List.mem_cons_of_mem event member) some
    · -- The window is over, and so is the counting.
      have none : guessesIn ip start (event :: rest) = 0 := by
        rw [guessesIn, List.length_eq_zero_iff, List.filter_eq_nil_iff]
        intro other member guess
        have inside := isGuess_below guess
        rcases List.mem_cons.mp member with rfl | member
        · exact below inside.2
        · have order := ordered.1 other member
          omega
      omega

/-- In any window as long as a lockout an address has at most three guesses that are checked and
found wrong, unless one of its credentials was accepted: whatever the listeners, however their
sessions interleave and whatever the state they started from. -/
theorem guesses_bounded {gate after : Gate Address} {events : List (GuessEvent Address)}
    (ordered : events.Pairwise fun early late => early.now ≤ late.now) {ip : Address}
    (unforgiven : gate.Unforgiven ip events) (ran : gate.run events = some after)
    (start : Nat) : guessesIn ip start events ≤ maxAuthAttempts := by
  have begun : Counted gate ip start 0 :=
    ⟨fun some => absurd some (Nat.lt_irrefl 0), fun _ => by decide⟩
  have bound := begun.run (Nat.zero_le _) (fun _ _ some => absurd some (Nat.lt_irrefl 0)) ordered
    unforgiven ran
  omega

/-- The theorem at work: three guesses of one address and one of another between, and then a key
that the lockout refuses. -/
theorem guesses_bounded_three :
    guessesIn 7 0 [.ask 7 0, .ask 8 1, .wrong 7 2, .ask 7 3, .wrong 8 4, .wrong 7 5, .ask 7 6,
      .wrong 7 7, .key 7 8, .ask 7 9] ≤ maxAuthAttempts :=
  @guesses_bounded Nat _ ⟨fun _ => none, fun _ => false⟩ _ _ (by simp [GuessEvent.now]) 7
    (by decide) rfl 0

end EthernetGateway.Access
