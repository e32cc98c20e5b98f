import EthernetGateway.Kermit.ReceiveArms

/-!
# How long a Kermit sender can hold a receiver

A packet in sequence clears both counts of the loop. One that opens a file or brings data uses up
the batch or the file; one that does neither uses up nothing, and the loop counts it nowhere. So a
receiver returns within a bound exactly when the packets of the second kind are bounded.
-/

namespace EthernetGateway.Kermit

open EthernetGateway.Stepping

variable {terms : Terms} {r later : Receiver} {arrival : Arrival} {p : Packet} {receipt : Receipt}

/-! ## Packets that use up nothing -/

/-- A packet in sequence that neither opens a file, nor brings data, nor ends the session by its
kind: 1, and 0 for any other. -/
def Receiver.idlePacket (terms : Terms) (r : Receiver) (p : Packet) : Nat :=
  if p.seq ≠ r.expectedSeq then 0
  else
    match kindOf p.kind with
    | .file | .text | .eot | .error => 0
    | .data => if terms.session.quoting.decodeData p.payload = .ok [] then 1 else 0
    | .attributes | .eof | .generic | .other => 1

/-- The idle packets that are taken from the buffer. -/
def idleDrained (terms : Terms) (arrival : Arrival) : Nat → Progress Receiver Receipt → Nat
  | more + 1, .next r =>
    match r.nextDrained with
    | some p =>
      r.idlePacket terms p +
        idleDrained terms arrival more ({ r with nextDrained := none }.pass terms arrival p)
    | none => 0
  | _, _ => 0

/-- The idle packets of a step. -/
def Receiver.idle (terms : Terms) (r : Receiver) (arrival : Arrival) : Nat :=
  match arrival.reading with
  | .packet p =>
    r.idlePacket terms p +
      idleDrained terms arrival r.outOfOrder.length
        ({ r with consecutiveFailures := 0 }.pass terms arrival p)
  | _ => 0

/-! ## What a packet uses up -/

/-- The room in the last record. -/
def Receiver.room (r : Receiver) : Nat := (r.received.head?.map fun last => maxFileSize - last.data.length).getD 0

/-- The files and the data that can still come, with a budget of idle packets. -/
def Receiver.remaining (budget : Nat) (r : Receiver) : Nat :=
  budget * (2 * (maxFileSize + 1)) + (maxBatchFiles - r.received.length) * (maxFileSize + 1) + r.room

/-- The packets that can still come, by the passes they take. -/
def Receiver.passes (terms : Terms) (budget : Nat) (r : Receiver) : Nat :=
  r.remaining budget * (progressLimit terms + 1 + 1) + (progressLimit terms + 1 - r.noProgress)

/-- The reads that can still come. -/
def Receiver.reads (terms : Terms) (budget : Nat) (r : Receiver) : Nat :=
  r.passes terms budget * (terms.config.maxRetries + 1 + 1) +
    (terms.config.maxRetries + 1 - r.consecutiveFailures)

/-- A record has no more room than there is. -/
theorem room_le (r : Receiver) : r.room ≤ maxFileSize := by
  unfold Receiver.room
  cases r.received with
  | nil => exact Nat.zero_le _
  | cons last older => exact Nat.sub_le _ _

/-- A packet that uses up nothing is paid for from the budget, whatever it does to the last
record. -/
theorem remaining_idle {budget : Nat} (positive : 1 ≤ budget)
    (popped : r.received.length ≤ later.received.length + 1) :
    later.remaining (budget - 1) < r.remaining budget := by
  have room := room_le later
  obtain ⟨rest, rfl⟩ : ∃ rest, budget = rest + 1 := ⟨budget - 1, by omega⟩
  have files : (maxBatchFiles - later.received.length) * (maxFileSize + 1) ≤
      (maxBatchFiles - r.received.length + 1) * (maxFileSize + 1) :=
    Nat.mul_le_mul_right _ (by omega)
  unfold Receiver.remaining
  rw [Nat.add_sub_cancel, Nat.succ_mul rest]
  rw [Nat.succ_mul] at files
  omega

/-- A header uses up a place in the batch. -/
theorem remaining_header (budget : Nat) {record : KermitReceive} (empty : record.data = [])
    (received : later.received = record :: r.received) (place : r.received.length < maxBatchFiles) :
    later.remaining budget < r.remaining budget := by
  have files : (maxBatchFiles - later.received.length + 1) * (maxFileSize + 1) =
      (maxBatchFiles - r.received.length) * (maxFileSize + 1) := by
    rw [received, List.length_cons]
    congr 1
    omega
  have room : later.room = maxFileSize := by
    unfold Receiver.room
    rw [received]
    show maxFileSize - record.data.length = maxFileSize
    rw [empty]
    rfl
  rw [Nat.succ_mul] at files
  unfold Receiver.remaining
  omega

/-- Data use up room in the last record. -/
theorem remaining_data (budget : Nat) {last record : KermitReceive} {older : List KermitReceive}
    (before : r.received = last :: older) (after : later.received = record :: older)
    (longer : last.data.length < record.data.length) (fits : record.data.length ≤ maxFileSize) :
    later.remaining budget < r.remaining budget := by
  unfold Receiver.remaining Receiver.room
  rw [before, after]
  simp only [List.length_cons, List.head?_cons, Option.map_some, Option.getD_some]
  omega

/-- What follows the end of a pass. -/
theorem thenAdvance_next {progress : Progress Receiver Receipt}
    (next : Receiver.thenAdvance progress = .next later) :
    ∃ middle, progress = .next middle ∧ later = middle.advance := by
  cases progress with
  | next middle =>
    cases next
    exact ⟨middle, rfl, rfl⟩
  | returned receipt => cases next

/-- A packet in sequence leaves less to come, or is paid for, and the counts are as they were. -/
theorem inOrder_remaining {budget : Nat} (paid : r.idlePacket terms p ≤ budget)
    (known : kindOf p.kind ≠ .error) (sequence : p.seq = r.expectedSeq)
    (next : r.inOrder terms arrival p = .next later) :
    later.remaining (budget - r.idlePacket terms p) < r.remaining budget ∧
      later.noProgress = r.noProgress ∧ later.consecutiveFailures = r.consecutiveFailures := by
  unfold Receiver.idlePacket at paid ⊢
  rw [if_neg (not_not.mpr sequence)] at paid ⊢
  unfold Receiver.inOrder at next
  cases kind : kindOf p.kind with
  | file | text =>
    simp only [kind] at next
    obtain ⟨middle, accepted, rfl⟩ := thenAdvance_next next
    obtain ⟨steady, _, received, place, _⟩ := onHeader_next accepted
    exact ⟨remaining_header budget rfl received place, steady.noProgress, steady.consecutiveFailures⟩
  | attributes =>
    simp only [kind] at next paid ⊢
    obtain ⟨middle, accepted, rfl⟩ := thenAdvance_next next
    obtain ⟨steady, _, _, last, older, record, before, after, _⟩ := onAttribute_next accepted
    refine ⟨remaining_idle paid ?_, steady.noProgress, steady.consecutiveFailures⟩
    show r.received.length ≤ middle.received.length + 1
    rw [before, after]
    simp
  | data =>
    simp only [kind] at next paid ⊢
    obtain ⟨middle, accepted, rfl⟩ := thenAdvance_next next
    obtain ⟨steady, _, _, raw, last, older, is, before, after, fits⟩ := onData_next accepted
    refine ⟨?_, steady.noProgress, steady.consecutiveFailures⟩
    rw [is] at paid ⊢
    split
    next empty =>
      rw [if_pos empty] at paid
      refine remaining_idle paid ?_
      show r.received.length ≤ middle.received.length + 1
      rw [before, after]
      simp
    next some =>
      have longer : raw ≠ [] := fun none => some (congrArg Except.ok none)
      have := List.length_pos_iff.mpr longer
      refine remaining_data budget before after ?_ ?_
      · show last.data.length < (last.data ++ raw).length
        rw [List.length_append]
        omega
      · show (last.data ++ raw).length ≤ maxFileSize
        rw [List.length_append]
        exact fits
  | eof =>
    simp only [kind] at next paid ⊢
    obtain ⟨middle, accepted, rfl⟩ := thenAdvance_next next
    obtain ⟨steady, _, last, older, before, after⟩ := onEof_next accepted
    refine ⟨remaining_idle paid ?_, steady.noProgress, steady.consecutiveFailures⟩
    show r.received.length ≤ middle.received.length + 1
    rcases after with ⟨_, received, _⟩ | ⟨_, received, _⟩ <;>
      · rw [before, received]
        simp
  | eot =>
    simp only [kind] at next
    cases next
  | generic =>
    simp only [kind] at next paid ⊢
    obtain ⟨middle, accepted, rfl⟩ := thenAdvance_next next
    obtain ⟨steady, _, _, received⟩ := onGeneric_next accepted
    refine ⟨remaining_idle paid ?_, steady.noProgress, steady.consecutiveFailures⟩
    show r.received.length ≤ middle.received.length + 1
    rw [received]
    exact Nat.le_succ _
  | error => exact absurd kind known
  | other =>
    simp only [kind] at next paid ⊢
    cases next
    exact ⟨remaining_idle paid (Nat.le_succ _), rfl, rfl⟩

/-! ## Passes -/

/-- Two states of the loop that differ in their buffer and replies only. -/
structure Kept (r later : Receiver) : Prop where
  received : later.received = r.received
  consecutiveFailures : later.consecutiveFailures = r.consecutiveFailures
  noProgress : later.noProgress = r.noProgress
  nextDrained : later.nextDrained = r.nextDrained
  outOfOrder : later.outOfOrder.length ≤ r.outOfOrder.length + 1

/-- A packet that came early is kept without anything else. -/
theorem buffer_kept (r : Receiver) (p : Packet) : Kept r (r.buffer p) := by
  unfold Receiver.buffer
  split
  · exact ⟨rfl, rfl, rfl, rfl, Nat.le_succ _⟩
  · exact ⟨rfl, rfl, rfl, rfl, Nat.le_refl _⟩

/-- Another packet than the one expected is answered, and kept at most. -/
theorem answerStray_kept (terms : Terms) (r : Receiver) (p : Packet) :
    Kept r (r.answerStray terms p) := by
  have replied (r : Receiver) (seq : UInt8) (payload : List UInt8) (chkt : UInt8) :
      Kept r (r.ackWith seq payload chkt) := ⟨rfl, rfl, rfl, rfl, Nat.le_succ _⟩
  unfold Receiver.answerStray
  simp only
  split
  · have buffered := buffer_kept r p
    unfold Receiver.nakOnce
    split
    · exact ⟨buffered.received, buffered.consecutiveFailures, buffered.noProgress,
        buffered.nextDrained, buffered.outOfOrder⟩
    · exact ⟨buffered.received, buffered.consecutiveFailures, buffered.noProgress,
        buffered.nextDrained, buffered.outOfOrder⟩
  · split
    · split
      · exact replied r _ _ _
      · exact replied r _ _ _
    · exact ⟨rfl, rfl, rfl, rfl, Nat.le_succ _⟩

/-- A packet out of sequence is counted, within the limit. -/
theorem outOfSequence_next (next : r.outOfSequence terms p = .next later) :
    Kept { r with noProgress := r.noProgress + 1 } later ∧ r.noProgress < progressLimit terms := by
  unfold Receiver.outOfSequence at next
  simp only at next
  split at next
  · cases next
  · split at next
    · cases next
    next within =>
      cases next
      exact ⟨answerStray_kept terms _ p, by omega⟩

/-- A pass leaves fewer to come. -/
theorem pass_passes {budget : Nat} (paid : r.idlePacket terms p ≤ budget)
    (next : r.pass terms arrival p = .next later) :
    later.passes terms (budget - r.idlePacket terms p) < r.passes terms budget ∧
      later.consecutiveFailures = r.consecutiveFailures := by
  unfold Receiver.pass at next
  split at next
  · cases next
  next known =>
    simp only at next
    split at next
    next stray =>
      have free : r.idlePacket terms p = 0 := if_pos stray
      obtain ⟨kept, within⟩ := outOfSequence_next next
      have same : later.remaining budget = r.remaining budget := by
        unfold Receiver.remaining Receiver.room
        rw [kept.received]
        rfl
      have counted : later.noProgress = r.noProgress + 1 := kept.noProgress
      have below : r.noProgress < progressLimit terms := within
      refine ⟨?_, kept.consecutiveFailures⟩
      unfold Receiver.passes
      rw [free, Nat.sub_zero, same, counted]
      omega
    next sequence =>
      obtain ⟨less, progress, failures⟩ := @inOrder_remaining terms
        { r.dropReplay terms with noProgress := 0 } later arrival p budget paid known
        (not_not.mp sequence) next
      refine ⟨?_, failures⟩
      have drops := @digits_lt (r.remaining budget) (later.remaining (budget - r.idlePacket terms p))
        (progressLimit terms + 1 - r.noProgress) (progressLimit terms + 1) (progressLimit terms + 1)
        less (Nat.le_refl _)
      unfold Receiver.passes
      rw [progress]
      exact drops

/-- The passes that take packets from the buffer leave fewer to come. -/
theorem drain_passes {more budget : Nat} (paid : idleDrained terms arrival more (.next r) ≤ budget)
    (next : Receiver.drain terms arrival more (.next r) = .next later) :
    later.passes terms (budget - idleDrained terms arrival more (.next r)) ≤
        r.passes terms budget ∧ later.consecutiveFailures = r.consecutiveFailures := by
  induction more generalizing r budget with
  | zero =>
    cases next
    exact ⟨Nat.le_refl _, rfl⟩
  | succ more ih =>
    unfold Receiver.drain at next
    unfold idleDrained at paid ⊢
    cases drained : r.nextDrained with
    | none =>
      simp only [drained] at next ⊢
      cases next
      exact ⟨Nat.le_refl _, rfl⟩
    | some p =>
      simp only [drained] at next paid ⊢
      cases passed : { r with nextDrained := none }.pass terms arrival p with
      | returned receipt =>
        rw [passed] at next
        cases more <;> cases next
      | next middle =>
        rw [passed] at next paid
        obtain ⟨less, failures⟩ := @pass_passes terms { r with nextDrained := none } middle arrival
          p budget
          (show r.idlePacket terms p ≤ budget by omega) passed
        obtain ⟨rest, failures'⟩ := @ih middle (budget - r.idlePacket terms p) (by omega) next
        rw [Nat.sub_add_eq]
        exact ⟨Nat.le_trans rest (Nat.le_of_lt less), failures'.trans failures⟩

/-- A step leaves fewer reads to come. -/
theorem step_reads {budget : Nat} (paid : r.idle terms arrival ≤ budget)
    (next : r.step terms arrival = .next later) :
    later.reads terms (budget - r.idle terms arrival) < r.reads terms budget := by
  unfold Receiver.idle at paid ⊢
  unfold Receiver.step at next
  cases reading : arrival.reading with
  | packet p =>
    simp only [reading] at next paid ⊢
    cases passed : { r with consecutiveFailures := 0 }.pass terms arrival p with
    | returned receipt =>
      rw [passed] at next
      cases length : r.outOfOrder.length <;> rw [length] at next <;> cases next
    | next middle =>
      rw [passed] at next paid
      obtain ⟨less, failures⟩ := @pass_passes terms { r with consecutiveFailures := 0 } middle
        arrival p budget (show r.idlePacket terms p ≤ budget by omega) passed
      obtain ⟨rest, failures'⟩ := @drain_passes terms middle later arrival r.outOfOrder.length
        (budget - r.idlePacket terms p) (by omega) next
      rw [Nat.sub_add_eq]
      have fewer := Nat.lt_of_le_of_lt rest less
      have drops := @digits_lt (r.passes terms budget) _
        (terms.config.maxRetries + 1 - r.consecutiveFailures)
        (terms.config.maxRetries + 1 - later.consecutiveFailures) (terms.config.maxRetries + 1)
        fewer (Nat.sub_le _ _)
      exact drops
  | cancelled error =>
    simp only [reading] at next
    cases next
  | aborted error =>
    simp only [reading] at next
    cases next
  | failed error =>
    simp only [reading] at next ⊢
    unfold Receiver.onFailure at next
    simp only at next
    split at next
    · cases next
    · split at next
      · cases next
      next within =>
        cases next
        show r.passes terms budget * _ + (terms.config.maxRetries + 1 - (r.consecutiveFailures + 1)) <
          r.passes terms budget * _ + (terms.config.maxRetries + 1 - r.consecutiveFailures)
        omega

/-! ## Runs -/

/-- How many readings a receiver can take, with so many idle packets among them. -/
def readBound (terms : Terms) (most : Nat) : Nat :=
  (((most * (2 * (maxFileSize + 1)) + maxBatchFiles * (maxFileSize + 1)) *
    (progressLimit terms + 1 + 1) + (progressLimit terms + 1)) * (terms.config.maxRetries + 1 + 1) +
      (terms.config.maxRetries + 1)) + 1

/-- What a receiver that starts has before it. -/
theorem start_remaining (most : Nat) (seq : UInt8) (answer : List UInt8) :
    (Receiver.start seq answer).remaining most =
      most * (2 * (maxFileSize + 1)) + maxBatchFiles * (maxFileSize + 1) := by
  have room : (Receiver.start seq answer).room = 0 := rfl
  have received : (Receiver.start seq answer).received.length = 0 := rfl
  unfold Receiver.remaining
  rw [room, received, Nat.sub_zero, Nat.add_zero]

/-- It can take no more readings than the bound. -/
theorem start_reads (most : Nat) (seq : UInt8) (answer : List UInt8) :
    (Receiver.start seq answer).reads terms most + 1 = readBound terms most := by
  have progress : (Receiver.start seq answer).noProgress = 0 := rfl
  have failures : (Receiver.start seq answer).consecutiveFailures = 0 := rfl
  unfold Receiver.reads Receiver.passes readBound
  rw [start_remaining, progress, failures, Nat.sub_zero, Nat.sub_zero]

/-- A receiver returns within the bound, where the idle packets are so many. -/
theorem returns_within_readBound {most : Nat} (seq : UInt8) (answer : List UInt8)
    {arrivals : Nat → Arrival}
    (few : tally (Receiver.step terms) (Receiver.idle terms) arrivals (readBound terms most)
      (.start seq answer) ≤ most) :
    ReturnsWithin (Receiver.step terms) arrivals (readBound terms most) (.start seq answer) := by
  have enough : (Receiver.start seq answer).reads terms most < readBound terms most := by
    rw [← start_reads most seq answer]
    exact Nat.lt_succ_self _
  exact @returnsWithin_of_potential _ _ _ (Receiver.step terms) (fun _ => True)
    (Receiver.idle terms) (Receiver.reads terms) most
    (fun _ _ _ _ _ next paid _ => ⟨trivial, step_reads paid next⟩) arrivals _ most _ trivial enough
    few (Nat.le_refl _)

/-! ## Idle packets of a run -/

/-- The packets in the buffer and on their way out of it. -/
def Receiver.kept (r : Receiver) : Nat := r.outOfOrder.length + (if r.nextDrained.isSome then 1 else 0)

/-- Those of a receiver that goes on. -/
def keptAfter : Progress Receiver Receipt → Nat
  | .next r => r.kept
  | .returned _ => 0

/-- A packet that is taken from the buffer is on its way out of it. -/
theorem advance_kept (r : Receiver) : r.advance.kept = r.outOfOrder.length := by
  show (r.outOfOrder.eraseP fun p => p.seq = (r.expectedSeq + 1) &&& 0x3F).length +
    (if (r.outOfOrder.find? fun p => p.seq = (r.expectedSeq + 1) &&& 0x3F).isSome then 1 else 0) = _
  induction r.outOfOrder with
  | nil => rfl
  | cons p packets ih =>
    by_cases found : p.seq = (r.expectedSeq + 1) &&& 0x3F
    · simp [found]
    · simp only [List.eraseP_cons, List.find?_cons, found, decide_false, Bool.cond_false,
        List.length_cons]
      omega

/-- A packet is idle once at most. -/
theorem idlePacket_le (terms : Terms) (r : Receiver) (p : Packet) : r.idlePacket terms p ≤ 1 := by
  unfold Receiver.idlePacket
  split
  · exact Nat.zero_le _
  · split
    · exact Nat.zero_le _
    · exact Nat.zero_le _
    · exact Nat.zero_le _
    · exact Nat.zero_le _
    · split <;> decide
    all_goals exact Nat.le_refl _

/-- What an arm and the end of its pass keep. -/
theorem thenAdvance_kept {progress : Progress Receiver Receipt}
    (steady : ∀ middle, progress = .next middle → Steady r middle) :
    keptAfter (Receiver.thenAdvance progress) ≤ r.kept := by
  cases progress with
  | returned receipt => exact Nat.zero_le _
  | next middle =>
    show middle.advance.kept ≤ r.kept
    rw [advance_kept, (steady middle rfl).outOfOrder]
    exact Nat.le_add_right _ _

/-- A packet in sequence is not kept. -/
theorem inOrder_kept (terms : Terms) (r : Receiver) (arrival : Arrival) (p : Packet) :
    keptAfter (r.inOrder terms arrival p) ≤ r.kept := by
  unfold Receiver.inOrder
  split
  · exact thenAdvance_kept fun _ accepted => (onHeader_next accepted).1
  · exact thenAdvance_kept fun _ accepted => (onHeader_next accepted).1
  · exact thenAdvance_kept fun _ accepted => (onAttribute_next accepted).1
  · exact thenAdvance_kept fun _ accepted => (onData_next accepted).1
  · exact thenAdvance_kept fun _ accepted => (onEof_next accepted).1
  · exact Nat.zero_le _
  · exact thenAdvance_kept fun _ accepted => (onGeneric_next accepted).1
  · exact Nat.le_refl _

/-- A packet is idle or kept, but not both. -/
theorem pass_kept (terms : Terms) (r : Receiver) (arrival : Arrival) (p : Packet) :
    r.idlePacket terms p + keptAfter (r.pass terms arrival p) ≤ r.kept + 1 := by
  have once := idlePacket_le terms r p
  unfold Receiver.pass
  split
  · exact Nat.le_trans once (Nat.le_add_left _ _)
  · simp only
    split
    next stray =>
      have free : r.idlePacket terms p = 0 := if_pos stray
      cases result : (r.dropReplay terms).outOfSequence terms p with
      | returned receipt =>
        rw [free]
        exact Nat.zero_le _
      | next later =>
        obtain ⟨kept, _⟩ := outOfSequence_next result
        have longer : later.outOfOrder.length ≤ r.outOfOrder.length + 1 := kept.outOfOrder
        have drained : later.nextDrained = r.nextDrained := kept.nextDrained
        rw [free]
        show 0 + later.kept ≤ r.kept + 1
        unfold Receiver.kept
        rw [drained]
        omega
    next sequence =>
      have kept : keptAfter ({ r.dropReplay terms with noProgress := 0 }.inOrder terms arrival p) ≤
        r.kept := inOrder_kept terms _ arrival p
      exact Nat.le_trans (Nat.add_le_add once kept) (Nat.le_of_eq (Nat.add_comm _ _))

/-- The idle packets that are taken from the buffer were kept in it. -/
theorem idleDrained_le (terms : Terms) (arrival : Arrival) (more : Nat)
    (progress : Progress Receiver Receipt) :
    idleDrained terms arrival more progress + keptAfter (Receiver.drain terms arrival more progress) ≤
      keptAfter progress := by
  induction more generalizing progress with
  | zero => cases progress <;> exact Nat.le_of_eq (Nat.zero_add _)
  | succ more ih =>
    cases progress with
    | returned receipt => exact Nat.le_refl _
    | next r =>
      unfold idleDrained Receiver.drain
      cases drained : r.nextDrained with
      | none => exact Nat.le_of_eq (Nat.zero_add _)
      | some p =>
        have rest := ih ({ r with nextDrained := none }.pass terms arrival p)
        have first := pass_kept terms { r with nextDrained := none } arrival p
        have one : keptAfter (.next r) = ({ r with nextDrained := none } : Receiver).kept + 1 := by
          show r.kept = _
          unfold Receiver.kept
          rw [drained]
          rfl
        have same : ({ r with nextDrained := none } : Receiver).idlePacket terms p =
            r.idlePacket terms p := rfl
        rw [same] at first
        simp only
        omega

/-- A step has no more idle packets than it takes from the buffer, and one. -/
theorem idle_kept (terms : Terms) (r : Receiver) (arrival : Arrival) :
    r.idle terms arrival + keptAfter (r.step terms arrival) ≤ r.kept + 1 := by
  unfold Receiver.idle Receiver.step
  cases reading : arrival.reading with
  | packet p =>
    have first := pass_kept terms { r with consecutiveFailures := 0 } arrival p
    have rest := idleDrained_le terms arrival r.outOfOrder.length
      ({ r with consecutiveFailures := 0 }.pass terms arrival p)
    have same : ({ r with consecutiveFailures := 0 } : Receiver).idlePacket terms p =
        r.idlePacket terms p := rfl
    have kept : ({ r with consecutiveFailures := 0 } : Receiver).kept = r.kept := rfl
    rw [same, kept] at first
    simp only
    omega
  | cancelled error => exact Nat.zero_le _
  | aborted error => exact Nat.zero_le _
  | failed error =>
    simp only [Nat.zero_add]
    unfold Receiver.onFailure
    simp only
    split
    · exact Nat.zero_le _
    · split
      · exact Nat.zero_le _
      · exact Nat.le_succ _

/-- The idle packets of a run that returns are no more than its readings. -/
theorem idle_le_of_returns {seq : UInt8} {answer : List UInt8} {arrivals : Nat → Arrival}
    {bound : Nat} (returns : ReturnsWithin (Receiver.step terms) arrivals bound (.start seq answer))
    (count : Nat) :
    tally (Receiver.step terms) (Receiver.idle terms) arrivals count (.start seq answer) ≤ bound := by
  have light := @tally_le_of_returns _ _ _ (Receiver.step terms) (Receiver.idle terms) Receiver.kept
    (fun state arrival later next => by
      have kept := idle_kept terms state arrival
      rwa [next] at kept)
    (fun state arrival receipt returned => Nat.le_trans (Nat.le_add_right _ _)
      (idle_kept terms state arrival)) arrivals bound _ returns count
  have none : (Receiver.start seq answer).kept = 0 := rfl
  omega

/-! ## Peers -/

/-- The peers in a set are through with a receiver within one number of readings. -/
def Bounded (terms : Terms) (seq : UInt8) (answer : List UInt8) (peers : Set (Nat → Arrival)) :
    Prop :=
  ∃ bound, ∀ arrivals ∈ peers,
    ReturnsWithin (Receiver.step terms) arrivals bound (.start seq answer)

/-- The peers in a set send one number of idle packets at most. -/
def FewIdle (terms : Terms) (seq : UInt8) (answer : List UInt8) (peers : Set (Nat → Arrival)) :
    Prop :=
  ∃ most, ∀ arrivals ∈ peers, ∀ count,
    tally (Receiver.step terms) (Receiver.idle terms) arrivals count (.start seq answer) ≤ most

/-- The peers in a set are through with a receiver within one number of readings exactly when they
send one number of idle packets at most. -/
theorem receiver_bounded_iff (terms : Terms) (seq : UInt8) (answer : List UInt8)
    (peers : Set (Nat → Arrival)) :
    Bounded terms seq answer peers ↔ FewIdle terms seq answer peers := by
  constructor
  · rintro ⟨bound, returns⟩
    exact ⟨bound, fun arrivals peer count => idle_le_of_returns (returns arrivals peer) count⟩
  · rintro ⟨most, few⟩
    exact ⟨readBound terms most, fun arrivals peer =>
      returns_within_readBound seq answer (few arrivals peer _)⟩

/-- A line that sends the receiver's own NAK back, again and again. -/
def echo : Nat → Arrival := fun _ => Packet.arrival (.empty 0x4E 1)

/-- A receiver that waits for its first packet answers a NAK with a NAK. -/
theorem echo_step (terms : Terms) (r : Receiver) (waits : r.expectedSeq = 1 ∧ r.outOfOrder = []) :
    ∃ later, r.step terms (echo 0) = .next later ∧ later.expectedSeq = 1 ∧
      later.outOfOrder = [] := by
  obtain ⟨expected, empty⟩ := waits
  have sequence : ¬ (1 : UInt8) ≠ ({ r with consecutiveFailures := 0 }.dropReplay terms).expectedSeq :=
    not_not.mpr expected.symm
  have read : (echo 0).reading = .packet (.empty 0x4E 1) := rfl
  unfold Receiver.step
  rw [read]
  show ∃ later, Receiver.drain terms _ r.outOfOrder.length _ = .next later ∧ _
  rw [empty, List.length_nil, drain_zero]
  exact ⟨_, (if_neg (by decide)).trans (if_neg sequence), expected, rfl⟩

/-- So it never returns. -/
theorem echo_holds_receiver :
    ¬ ∃ count, ReturnsWithin (Receiver.step .default) echo count (.start 0 []) := by
  rintro ⟨count, returns⟩
  obtain ⟨later, goesOn, _⟩ := @run_kept _ _ _ (Receiver.step .default)
    (fun _ r => r.expectedSeq = 1 ∧ r.outOfOrder = []) echo
    (fun _ r waits => echo_step .default r waits) (.start 0 []) ⟨rfl, rfl⟩ count
  exact not_returnsWithin goesOn returns

end EthernetGateway.Kermit
