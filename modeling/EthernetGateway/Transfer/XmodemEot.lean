import EthernetGateway.Transfer.Xmodem

/-!
# Ends of transmission that are believed

An end of transmission that has to be verified is NAKed first. What may then close the file is a
second one, with nothing between them but duplicates and silence, or a timeout with nothing at all
before it. The main loop keeps to this as long as no damaged block and no lone CAN arrives while
the NAK stands: those two arms leave both flags as they were.
-/

namespace EthernetGateway.Transfer.Xmodem

/-! ## What one turn does to the two flags -/

/-- What may lie between the NAK of an end of transmission and the closing of the file. -/
def Confirmed : Closing → List Event → Prop
  | .eot, events => ∀ event ∈ events, event = .duplicate ∨ event = .silent
  | .silence, events => ∀ event ∈ events, event = .silent

/-- An end of transmission has been NAKed, and only what may confirm it has happened since. -/
def Pending (how : Closing) (events : List Event) : Prop :=
  ∃ earlier later, events = earlier ++ .naked :: later ∧ Confirmed how later

namespace Receiver

/-- What waits on the line is a CAN, or a block that arrives damaged. -/
def Troubled (config : Config) (receiver : Receiver) : Prop :=
  ∃ byte left line, receiver.line.read (config.blockTimeout * 1000) = (.got byte, left, line) ∧
    (byte = can ∨
      byte = soh ∧ (receiveBlock receiver.expectedBlock receiver.mode blockSize line).1 = .damaged ∨
      byte = stx ∧ (receiveBlock receiver.expectedBlock receiver.mode blockSize1k line).1 = .damaged)

/-- What an event leaves of `eot_naked` and `awaiting_eot_confirm`. -/
def Leaves (receiver later : Receiver) : Event → Prop
  | .accepted | .stray | .closed _ _ =>
    later.eotNaked = false ∧ later.awaitingEotConfirm = false
  | .duplicate => later.eotNaked = receiver.eotNaked ∧ later.awaitingEotConfirm = false
  | .damaged | .lone | .silent =>
    later.eotNaked = receiver.eotNaked ∧ later.awaitingEotConfirm = receiver.awaitingEotConfirm
  | .naked => later.eotNaked = true ∧ later.awaitingEotConfirm = true
  | .gaveUp => False

/-- What one turn can do, as far as the ends of transmission are concerned. -/
structure Turns (receiver : Receiver) (result : Event × Outcome) : Prop where
  /-- The flags of the receiver that goes on. -/
  leaves : ∀ later, result.2 = .next later → receiver.Leaves later result.1
  /-- A file that is to be verified is closed only while its end stands NAKed, and by silence only
  while that is still to be confirmed. -/
  closes : ∀ how, result.1 = .closed how true →
    receiver.eotNaked = true ∧ (how = .silence → receiver.awaitingEotConfirm = true)
  /-- Nothing else records a file or finishes the transfer. -/
  records : (∀ how guarded, result.1 ≠ .closed how guarded) →
    (∀ later, result.2 = .next later → later.files = receiver.files) ∧
      ∀ later, result.2 ≠ .finished later

/-- A failure does nothing to the flags, and closes no file. -/
theorem turns_failed (receiver later : Receiver) (reason : String) :
    receiver.Turns (.gaveUp, .failed reason later) :=
  ⟨by intro later next; simp at next, by intro how closed; simp at closed, by simp⟩

/-- Giving up does nothing to the flags, and closes no file. -/
theorem turns_cancel (receiver later : Receiver) (reason : String) :
    receiver.Turns (later.cancel reason) :=
  turns_failed receiver _ reason

/-- A turn that goes on without closing a file. -/
theorem turns_next {receiver later : Receiver} {event : Event}
    (leaves : receiver.Leaves later event) (files : later.files = receiver.files)
    (goesOn : ∀ how, event ≠ .closed how true) :
    receiver.Turns (event, .next later) where
  leaves := by
    intro found next
    injection next with same
    exact same ▸ leaves
  closes how closed := absurd closed (goesOn how)
  records _ := by
    refine ⟨?_, by simp⟩
    intro found next
    injection next with same
    exact same ▸ files

/-- A purge leaves the flags of the receiver that is purged. -/
theorem turns_purgeAndNak {receiver purged : Receiver} {event : Event}
    (leaves : ∀ later, later.eotNaked = purged.eotNaked →
      later.awaitingEotConfirm = purged.awaitingEotConfirm → receiver.Leaves later event)
    (files : purged.files = receiver.files) (goesOn : ∀ how, event ≠ .closed how true) :
    receiver.Turns (purged.purgeAndNak event) := by
  unfold purgeAndNak
  split
  · exact turns_failed _ _ _
  · exact turns_next (leaves _ rfl rfl) files goesOn

/-- The arm for a start of a block. -/
theorem turns_block (config : Config) {receiver taken : Receiver} (size : Nat)
    (naked : taken.eotNaked = receiver.eotNaked)
    (awaiting : taken.awaitingEotConfirm = receiver.awaitingEotConfirm)
    (files : taken.files = receiver.files) :
    receiver.Turns (taken.block config size) := by
  unfold block
  split
  · dsimp only
    split
    · exact turns_cancel _ _ _
    · exact turns_next ⟨rfl, rfl⟩ files (by simp)
  · exact turns_next ⟨naked, rfl⟩ files (by simp)
  · exact turns_cancel _ _ _
  · dsimp only
    split
    · exact turns_cancel _ _ _
    · apply turns_purgeAndNak
      · intro later sameNaked sameAwaiting
        exact ⟨sameNaked.trans naked, sameAwaiting.trans awaiting⟩
      · exact files
      · simp

/-- What follows a closed file starts the next one with both flags down. -/
theorem interFile_next {config : Config} {receiver later : Receiver}
    (next : receiver.interFile config = .next later) :
    later.eotNaked = false ∧ later.awaitingEotConfirm = false := by
  unfold interFile at next
  dsimp only at next
  split at next
  · split at next
    · simp at next
    · injection next with same
      subst same
      exact ⟨rfl, rfl⟩
  · simp at next
  · simp at next

/-- The arm for an end of transmission. -/
theorem turns_endOfFile (config : Config) {receiver taken : Receiver} (how : Closing)
    (naked : taken.eotNaked = receiver.eotNaked)
    (awaiting : how = .silence → receiver.awaitingEotConfirm = true)
    (files : taken.files = receiver.files) :
    receiver.Turns (taken.endOfFile config how) := by
  unfold endOfFile
  split
  · exact turns_next ⟨rfl, rfl⟩ files (by simp)
  · rename_i stands
    constructor
    · intro later next
      dsimp only at next
      split at next
      · exact interFile_next next
      · simp at next
    · intro found closed
      simp only [Event.closed.injEq] at closed
      rw [closed.2, Bool.true_and, Bool.not_eq_true, Bool.not_eq_false'] at stands
      refine ⟨naked ▸ stands, ?_⟩
      intro silence
      exact awaiting (closed.1.trans silence)
    · intro other
      exact absurd rfl (other _ _)

/-- The arm for a byte that starts nothing. -/
theorem turns_strayByte (config : Config) {receiver taken : Receiver}
    (files : taken.files = receiver.files) : receiver.Turns (taken.strayByte config) := by
  unfold strayByte
  dsimp only
  split
  · exact turns_cancel _ _ _
  · apply turns_purgeAndNak
    · intro later naked awaiting
      exact ⟨naked, awaiting⟩
    · exact files
    · simp

/-- The arm for a timeout. -/
theorem turns_timeout (config : Config) {receiver taken : Receiver}
    (naked : taken.eotNaked = receiver.eotNaked)
    (awaiting : taken.awaitingEotConfirm = receiver.awaitingEotConfirm)
    (files : taken.files = receiver.files) :
    receiver.Turns (taken.timeout config) := by
  unfold timeout
  split
  · rename_i confirm
    simp only [Bool.and_eq_true] at confirm
    apply turns_endOfFile
    · exact naked
    · intro _
      exact awaiting ▸ confirm.1
    · exact files
  · split
    · exact turns_cancel _ _ _
    · dsimp only
      split
      · exact turns_cancel _ _ _
      · exact turns_next ⟨naked, awaiting⟩ files (by simp)

/-- A byte read at the top of the loop. -/
theorem turns_take (config : Config) {receiver taken : Receiver} (byte : UInt8)
    (naked : taken.eotNaked = receiver.eotNaked)
    (awaiting : taken.awaitingEotConfirm = receiver.awaitingEotConfirm)
    (files : taken.files = receiver.files) :
    receiver.Turns (taken.take config byte) := by
  unfold take
  dsimp only
  split
  · exact turns_failed _ _ _
  · split
    · exact turns_block config _ naked awaiting files
    · split
      · exact turns_block config _ naked awaiting files
      · split
        · exact turns_endOfFile config _ naked (by simp) files
        · split
          · exact turns_next ⟨naked, awaiting⟩ files (by simp)
          · exact turns_strayByte config files

/-- Every turn of the main loop keeps to what one turn can do. -/
theorem turn_turns (config : Config) (receiver : Receiver) :
    receiver.Turns (receiver.turn config) := by
  unfold turn
  split
  · exact turns_take config _ rfl rfl rfl
  · exact turns_failed _ _ _
  · exact turns_timeout config rfl rfl rfl

/-! ## Which turns the two arms are -/

/-- A purge is about what led to it, or gives up. -/
theorem purgeAndNak_event (receiver : Receiver) (event : Event) :
    (receiver.purgeAndNak event).1 = event ∨ (receiver.purgeAndNak event).1 = .gaveUp := by
  unfold purgeAndNak
  split
  · exact .inr rfl
  · exact .inl rfl

/-- The arm for a start of a block is about a damaged block only when it read one. -/
theorem block_damaged {config : Config} {receiver : Receiver} {size : Nat}
    (event : (receiver.block config size).1 = .damaged ∨ (receiver.block config size).1 = .lone) :
    (receiveBlock receiver.expectedBlock receiver.mode size receiver.line).1 = .damaged := by
  unfold block at event
  split at event
  · dsimp only at event
    split at event <;> simp [cancel] at event
  · simp at event
  · simp [cancel] at event
  · rename_i read
    simp [read]

/-- The arm for an end of transmission is never about a damaged block or a lone CAN. -/
theorem endOfFile_event (config : Config) (receiver : Receiver) (how : Closing) :
    (receiver.endOfFile config how).1 ≠ .damaged ∧ (receiver.endOfFile config how).1 ≠ .lone := by
  unfold endOfFile
  split <;> simp

/-- The arm for a byte that starts nothing is never about a damaged block or a lone CAN. -/
theorem strayByte_event (config : Config) (receiver : Receiver) :
    (receiver.strayByte config).1 ≠ .damaged ∧ (receiver.strayByte config).1 ≠ .lone := by
  unfold strayByte
  dsimp only
  split
  · simp [cancel]
  · rcases purgeAndNak_event { receiver with
      eotNaked := false, awaitingEotConfirm := false, errorCount := receiver.errorCount + 1 }
      .stray with stray | gaveUp
    · simp [stray]
    · simp [gaveUp]

/-- A timeout is never about a damaged block or a lone CAN. -/
theorem timeout_event (config : Config) (receiver : Receiver) :
    (receiver.timeout config).1 ≠ .damaged ∧ (receiver.timeout config).1 ≠ .lone := by
  unfold timeout
  split
  · exact endOfFile_event _ _ _
  · split
    · simp [cancel]
    · dsimp only
      split <;> simp [cancel]

/-- A turn about a damaged block or a lone CAN found one waiting on the line. -/
theorem turn_troubled {config : Config} {receiver : Receiver}
    (event : (receiver.turn config).1 = .damaged ∨ (receiver.turn config).1 = .lone) :
    receiver.Troubled config := by
  unfold turn at event
  split at event
  · rename_i byte left line read
    refine ⟨byte, left, line, read, ?_⟩
    unfold take at event
    dsimp only at event
    split at event
    · simp at event
    · split at event
      · rename_i start
        exact .inr (.inl ⟨start, block_damaged event⟩)
      · split at event
        · rename_i start
          exact .inr (.inr ⟨start, block_damaged event⟩)
        · split at event
          · exact (not_or.mpr (endOfFile_event _ _ _) event).elim
          · split at event
            · rename_i lone
              exact .inl lone
            · exact (not_or.mpr (strayByte_event _ _) event).elim
  · simp at event
  · exact (not_or.mpr (timeout_event _ _) event).elim

/-! ## Runs -/

/-- No damaged block and no lone CAN arrives while an end of transmission stands NAKed, as far as
some number of turns. -/
def Steady (config : Config) : Nat → Receiver → Prop
  | 0, _ => True
  | turns + 1, receiver =>
    (receiver.eotNaked = true → ¬receiver.Troubled config) ∧
      ∀ later, (receiver.turn config).2 = .next later → Steady config turns later

/-- What the flags of a receiver say about what has happened so far. -/
structure Stands (receiver : Receiver) (events : List Event) : Prop where
  naked : receiver.eotNaked = true → Pending .eot events
  awaiting : receiver.awaitingEotConfirm = true →
    receiver.eotNaked = true ∧ Pending .silence events

/-- One more event that may confirm leaves an end of transmission pending. -/
theorem pending_append {how : Closing} {events : List Event} {event : Event}
    (pending : Pending how events) (confirms : Confirmed how [event]) :
    Pending how (events ++ [event]) := by
  obtain ⟨earlier, later, same, confirmed⟩ := pending
  refine ⟨earlier, later ++ [event], by simp [same], ?_⟩
  cases how
  all_goals
    intro found member
    rcases List.mem_append.mp member with before | last
    · exact confirmed found before
    · exact confirms found last

/-- An end of transmission that was just NAKed is pending. -/
theorem pending_naked (how : Closing) (events : List Event) :
    Pending how (events ++ [.naked]) :=
  ⟨events, [], rfl, by cases how <;> simp [Confirmed]⟩

/-- One turn keeps what the flags say, unless a damaged block or a lone CAN arrives while an end of
transmission stands NAKed. -/
theorem stands_step {config : Config} {receiver later : Receiver} {events : List Event}
    {event : Event} (stands : receiver.Stands events)
    (steady : receiver.eotNaked = true → ¬receiver.Troubled config)
    (step : receiver.turn config = (event, .next later)) :
    later.Stands (events ++ [event]) := by
  have leaves := (turn_turns config receiver).leaves later (by rw [step])
  rw [step] at leaves
  have quiet : receiver.eotNaked = true → event ≠ .damaged ∧ event ≠ .lone := by
    intro naked
    have calm := mt (@turn_troubled config receiver) (steady naked)
    rw [step] at calm
    exact not_or.mp calm
  cases event with
  | accepted | stray | closed =>
    exact ⟨fun naked => by simp [leaves.1] at naked, fun awaiting => by simp [leaves.2] at awaiting⟩
  | duplicate =>
    constructor
    · intro naked
      exact pending_append (stands.naked (leaves.1 ▸ naked)) (by simp [Confirmed])
    · intro awaiting
      simp [leaves.2] at awaiting
  | damaged =>
    constructor
    · intro naked
      exact absurd rfl (quiet (leaves.1 ▸ naked)).1
    · intro awaiting
      exact absurd rfl (quiet (stands.awaiting (leaves.2 ▸ awaiting)).1).1
  | lone =>
    constructor
    · intro naked
      exact absurd rfl (quiet (leaves.1 ▸ naked)).2
    · intro awaiting
      exact absurd rfl (quiet (stands.awaiting (leaves.2 ▸ awaiting)).1).2
  | silent =>
    constructor
    · intro naked
      exact pending_append (stands.naked (leaves.1 ▸ naked)) (by simp [Confirmed])
    · intro awaiting
      have before := stands.awaiting (leaves.2 ▸ awaiting)
      exact ⟨leaves.1.trans before.1, pending_append before.2 (by simp [Confirmed])⟩
  | naked => exact ⟨fun _ => pending_naked _ _, fun _ => ⟨leaves.1, pending_naked _ _⟩⟩
  | gaveUp => exact leaves.elim

/-- A turn that closes a file to be verified finds its end of transmission pending. -/
theorem stands_closed {config : Config} {receiver : Receiver} {events : List Event}
    {how : Closing} (stands : receiver.Stands events)
    (closed : (receiver.turn config).1 = .closed how true) : Pending how events := by
  have closes := (turn_turns config receiver).closes how closed
  cases how with
  | eot => exact stands.naked closes.1
  | silence => exact (stands.awaiting (closes.2 rfl)).2

/-- Every file to be verified is closed after a NAKed end of transmission, by what confirms it. -/
def Verified (events : List Event) : Prop :=
  ∀ before how after, events = before ++ .closed how true :: after → Pending how before

/-- A run from a receiver that has seen some events. -/
theorem run_pending {config : Config} {turns : Nat} {receiver : Receiver} {events : List Event}
    (stands : receiver.Stands events) (steady : receiver.Steady config turns)
    {before after : List Event} {how : Closing}
    (same : receiver.run config turns = before ++ .closed how true :: after) :
    Pending how (events ++ before) := by
  induction turns generalizing receiver events before with
  | zero => simp [run] at same
  | succ turns ih =>
    unfold run at same
    cases before with
    | nil =>
      rw [List.append_nil]
      refine stands_closed stands (?_ : (receiver.turn config).1 = _)
      split at same
      all_goals
        rename_i step
        simp only [List.nil_append, List.cons.injEq] at same
        rw [step, same.1]
    | cons first before =>
      split at same
      · rename_i event later step
        simp only [List.cons_append, List.cons.injEq] at same
        have next := stands_step stands steady.1 step
        have rest := ih next (steady.2 later (by rw [step])) same.2
        rw [← same.1]
        simpa only [List.append_assoc, List.singleton_append] using rest
      · simp at same

/-- Over every run, a file to be verified is closed only by what confirms its NAKed end, as long as
no damaged block and no lone CAN arrives while the NAK stands. -/
theorem run_verified (config : Config) (turns : Nat) (receiver : Receiver)
    (naked : receiver.eotNaked = false) (awaiting : receiver.awaitingEotConfirm = false)
    (steady : receiver.Steady config turns) : Verified (receiver.run config turns) := by
  intro before how after same
  have start : receiver.Stands [] :=
    ⟨fun up => by simp [naked] at up, fun up => by simp [awaiting] at up⟩
  simpa only [List.nil_append] using run_pending start steady same

/-- A plain XMODEM receiver that has one byte of the file. -/
def started (line : Line) : Receiver where
  fileData := [0x41]
  expectedBlock := 2
  mode := .crc16
  ymodemMode := false
  ymodemMeta := none
  currentFilename := none
  files := []
  errorCount := 0
  eotNaked := false
  awaitingEotConfirm := false
  shortCancelSeen := false
  pendingCan := false
  line := line
  sent := []

/-- A finished sender that answers the NAK with silence is believed. -/
theorem run_verified_silence :
    Verified ((started [(0, .byte eot)]).run ⟨20, 10⟩ 2) := by
  apply run_verified
  · rfl
  · rfl
  · refine ⟨fun naked => absurd naked (by decide), ?_⟩
    intro later next
    have same : later = { started [] with
        eotNaked := true, awaitingEotConfirm := true, sent := [nak] } :=
      (Outcome.next.inj next).symm
    refine ⟨?_, fun _ _ => trivial⟩
    rintro _ ⟨byte, left, line, read, _⟩
    subst same
    simp [started, Line.read] at read

/-- A sender interrupted inside the block it resends after a spurious end of transmission: a second
such byte, more than a minute later, closes the file. -/
theorem verified_not_damaged :
    ¬∀ (config : Config) (turns : Nat) (receiver : Receiver), receiver.eotNaked = false →
      receiver.awaitingEotConfirm = false → Verified (receiver.run config turns) := by
  intro all
  let start := started [(0, .byte eot), (0, .byte soh), (70000, .byte eot)]
  have events : start.run ⟨20, 10⟩ 3 = [.naked, .damaged] ++ .closed .eot true :: [] := by decide
  obtain ⟨earlier, later, same, confirmed⟩ :=
    all ⟨20, 10⟩ 3 start rfl rfl [.naked, .damaged] .eot [] events
  have last : Event.damaged ∈ later := by
    cases earlier with
    | nil =>
      simp only [List.nil_append, List.cons.injEq, true_and] at same
      simp [← same]
    | cons first earlier => cases earlier <;> simp at same
  exact absurd (confirmed _ last) (by simp)

end Receiver

end EthernetGateway.Transfer.Xmodem
