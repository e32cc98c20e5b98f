import EthernetGateway.Kermit.Receive

/-!
# The arms of a Kermit receiver

What each arm of the loop makes of the records, where it goes on, and that it otherwise returns an
error, or at the end of a batch the records. An arm touches nothing else that the loop is steered
by.
-/

namespace EthernetGateway.Kermit

open EthernetGateway.Stepping

variable {terms : Terms} {r later : Receiver} {arrival : Arrival} {p : Packet} {receipt : Receipt}

/-- Two states of the loop that differ in their records and replies only. -/
structure Steady (r later : Receiver) : Prop where
  expectedSeq : later.expectedSeq = r.expectedSeq
  consecutiveFailures : later.consecutiveFailures = r.consecutiveFailures
  noProgress : later.noProgress = r.noProgress
  outOfOrder : later.outOfOrder = r.outOfOrder
  nextDrained : later.nextDrained = r.nextDrained

/-- A receiver that has returned an error, without another file committed. -/
structure Failed (r : Receiver) (receipt : Receipt) : Prop where
  committed : receipt.receiver.committed = r.committed
  outcome : ∃ error, receipt.outcome = .failed error

/-- A receiver that has returned its records. -/
structure Finished (r : Receiver) (receipt : Receipt) : Prop where
  committed : receipt.receiver.committed = r.committed
  outcome : receipt.outcome = .complete r.received.reverse

/-- A failure is an error. -/
theorem fail_failed {σ : Type} {error : String}
    (returned : (r.fail error : Progress σ Receipt) = .returned receipt) : Failed r receipt := by
  cases returned
  exact ⟨rfl, _, rfl⟩

/-- So is a refusal. -/
theorem refuse_failed {σ : Type} {seq : UInt8} {message error : String}
    (returned : (r.refuse terms seq message error : Progress σ Receipt) = .returned receipt) :
    Failed r receipt := by
  cases returned
  exact ⟨rfl, _, rfl⟩

/-- A header that is accepted opens a record under the name that is read from it. -/
theorem onHeader_next (accepted : r.onHeader terms arrival p = .next later) :
    Steady r later ∧ later.committed = r.committed ∧
      later.received = .named (headerName terms.session.quoting p.payload) :: r.received ∧
      r.received.length < maxBatchFiles ∧
      (kindOf p.kind = .file →
        validateFilename (headerName terms.session.quoting p.payload) = none) ∧
      (terms.config.resumePartial = false → later.pendingResumeOffset = none) := by
  unfold Receiver.onHeader at accepted
  simp only at accepted
  split at accepted
  · cases accepted
  next valid =>
    split at accepted
    · cases accepted
    next room =>
      cases accepted
      refine ⟨⟨rfl, rfl, rfl, rfl, rfl⟩, rfl, rfl, Nat.lt_of_not_le room, fun file => ?_,
        fun plain => ?_⟩
      · rwa [if_pos file] at valid
      · show (if terms.config.resumePartial = true ∧ _ then _ else none) = none
        rw [if_neg fun resumes => absurd resumes.1 (by simp [plain])]

/-- A header that is not is an error. -/
theorem onHeader_returned (returned : r.onHeader terms arrival p = .returned receipt) :
    Failed r receipt := by
  unfold Receiver.onHeader at returned
  simp only at returned
  split at returned
  · exact refuse_failed returned
  · split at returned
    · exact refuse_failed returned
    · cases returned

/-- Attributes describe the last record, and only a transfer that is resumed puts data in it. -/
theorem onAttribute_next (accepted : r.onAttribute terms arrival p = .next later) :
    Steady r later ∧ later.committed = r.committed ∧ later.pendingResumeOffset = none ∧
      ∃ last older record, r.received = last :: older ∧ later.received = record :: older ∧
        record.filename = last.filename ∧
        (r.pendingResumeOffset = none → record.data = last.data) := by
  unfold Receiver.onAttribute at accepted
  split at accepted
  · cases accepted
  next raw decoded =>
    split at accepted
    · cases accepted
    next last older received =>
      simp only at accepted
      split at accepted
      · cases accepted
      · split at accepted
        next n bytes resumed =>
          cases accepted
          refine ⟨⟨rfl, rfl, rfl, rfl, rfl⟩, rfl, rfl, last, older, _, received, rfl, rfl,
            fun none => ?_⟩
          rw [none] at resumed
          cases resumed
        next =>
          cases accepted
          exact ⟨⟨rfl, rfl, rfl, rfl, rfl⟩, rfl, rfl, last, older, _, received, rfl, rfl,
            fun _ => rfl⟩

/-- Or there is an error. -/
theorem onAttribute_returned (returned : r.onAttribute terms arrival p = .returned receipt) :
    Failed r receipt := by
  unfold Receiver.onAttribute at returned
  split at returned
  · exact fail_failed returned
  · split at returned
    · exact refuse_failed returned
    · simp only at returned
      split at returned
      · have failed := refuse_failed returned
        exact ⟨failed.committed, failed.outcome⟩
      · split at returned <;> cases returned

/-- Data go to the last record, which they fit in. -/
theorem onData_next (accepted : r.onData terms p = .next later) :
    Steady r later ∧ later.committed = r.committed ∧
      later.pendingResumeOffset = r.pendingResumeOffset ∧
      ∃ raw last older, terms.session.quoting.decodeData p.payload = .ok raw ∧
        r.received = last :: older ∧
        later.received = { last with data := last.data ++ raw } :: older ∧
        last.data.length + raw.length ≤ maxFileSize := by
  unfold Receiver.onData at accepted
  split at accepted
  · cases accepted
  next raw decoded =>
    split at accepted
    · cases accepted
    next last older received =>
      split at accepted
      · cases accepted
      next fits =>
        cases accepted
        refine ⟨?_, ?_, ?_, raw, last, older, decoded, received, ?_, Nat.le_of_not_lt fits⟩
        · split <;> exact ⟨rfl, rfl, rfl, rfl, rfl⟩
        all_goals split <;> rfl

/-- Or there is an error. -/
theorem onData_returned (returned : r.onData terms p = .returned receipt) : Failed r receipt := by
  unfold Receiver.onData at returned
  split at returned
  · exact fail_failed returned
  · split at returned
    · exact refuse_failed returned
    · split at returned
      · exact refuse_failed returned
      · cases returned

/-- The end of a file drops the last record, where it says so, or completes it. -/
theorem onEof_next (accepted : r.onEof terms p = .next later) :
    Steady r later ∧ later.pendingResumeOffset = r.pendingResumeOffset ∧
      ∃ last older, r.received = last :: older ∧
        (isDiscard terms.session.quoting p.payload = true ∧ later.received = older ∧
            later.committed = r.committed ∨
          isDiscard terms.session.quoting p.payload = false ∧
            later.received = terms.onComplete last :: older ∧
            later.committed = last :: r.committed) := by
  unfold Receiver.onEof at accepted
  split at accepted
  · cases accepted
  next last older received =>
    split at accepted
    next discard =>
      cases accepted
      exact ⟨⟨rfl, rfl, rfl, rfl, rfl⟩, rfl, last, older, received, .inl ⟨discard, rfl, rfl⟩⟩
    next kept =>
      split at accepted
      · cases accepted
      · cases accepted
        exact ⟨⟨rfl, rfl, rfl, rfl, rfl⟩, rfl, last, older, received,
          .inr ⟨Bool.not_eq_true _ ▸ kept, rfl, rfl⟩⟩

/-- Or there is an error. -/
theorem onEof_returned (returned : r.onEof terms p = .returned receipt) : Failed r receipt := by
  unfold Receiver.onEof at returned
  split at returned
  · exact refuse_failed returned
  · split at returned
    · cases returned
    · split at returned
      · exact refuse_failed returned
      · cases returned

/-- A generic command that ends the session. -/
def endsSession (q : Quoting) (payload : List UInt8) : Prop :=
  ((q.decodeData payload).toOption.getD []).head? = some 0x46 ∨
    ((q.decodeData payload).toOption.getD []).head? = some 0x4C

/-- Another generic command is answered. -/
theorem onGeneric_next (accepted : r.onGeneric terms p = .next later) :
    Steady r later ∧ later.committed = r.committed ∧
      later.pendingResumeOffset = r.pendingResumeOffset ∧ later.received = r.received := by
  unfold Receiver.onGeneric at accepted
  simp only at accepted
  split at accepted
  · cases accepted
  · cases accepted
    exact ⟨⟨rfl, rfl, rfl, rfl, rfl⟩, rfl, rfl, rfl⟩

/-- Such a command returns the records. -/
theorem onGeneric_returned (returned : r.onGeneric terms p = .returned receipt) :
    endsSession terms.session.quoting p.payload ∧ Finished r receipt := by
  unfold Receiver.onGeneric at returned
  simp only at returned
  split at returned
  next ends =>
    cases returned
    exact ⟨ends, rfl, rfl⟩
  · cases returned

/-- With nothing in the buffer nothing is taken from it. -/
theorem drain_zero (progress : Progress Receiver Receipt) :
    Receiver.drain terms arrival 0 progress = progress := by
  cases progress <;> rfl

end EthernetGateway.Kermit
