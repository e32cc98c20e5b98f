import EthernetGateway.Kermit.ReceiveArms

/-!
# The files of a Kermit batch

What the packets of a batch say was sent: a header opens a file, data are added to it, and its Z
finishes it or takes it back. The receiver keeps no such state, so it reports just what was finished
only while every packet finds a file as it needs one.
-/

namespace EthernetGateway.Kermit

open EthernetGateway.Stepping

/-! ## What was sent -/

/-- A file as its sender sent it. -/
structure SentFile where
  name : Text
  data : List UInt8
  deriving DecidableEq

/-- What the packets so far say: the number of the next, the files finished, the last one first, and
the file that is open. -/
structure Batch where
  expected : UInt8
  finished : List SentFile
  current : Option SentFile

/-- The data of a packet. -/
def decoded (q : Quoting) (payload : List UInt8) : List UInt8 := (q.decodeData payload).toOption.getD []

/-- What a packet says of its batch, besides its number. -/
def Batch.follow (q : Quoting) (b : Batch) (p : Packet) : Batch :=
  match kindOf p.kind with
  | .file | .text => { b with current := some ⟨headerName q p.payload, []⟩ }
  | .data =>
    { b with current := b.current.map fun f => { f with data := f.data ++ decoded q p.payload } }
  | .eof =>
    { b with
      finished := if isDiscard q p.payload then b.finished else b.current.toList ++ b.finished
      current := none }
  | _ => b

/-- A batch with one more packet. A packet of no kind the receiver knows does not count. -/
def Batch.take (q : Quoting) (b : Batch) (p : Packet) : Batch :=
  if kindOf p.kind = .other then b
  else { b.follow q p with expected := (b.expected + 1) &&& 0x3F }

/-- The batch behind a Send-Init with a number. -/
def Batch.start (seq : UInt8) : Batch := ⟨(seq + 1) &&& 0x3F, [], none⟩

/-- A batch with one more reading. -/
def Batch.see (q : Quoting) (b : Batch) (arrival : Arrival) : Batch :=
  match arrival.reading with
  | .packet p => b.take q p
  | _ => b

/-- A batch with more readings. -/
def Batch.seeAll (q : Quoting) (b : Batch) (arrivals : List Arrival) : Batch :=
  arrivals.foldl (Batch.see q) b

/-- A packet that comes in sequence and finds a file open, or none, as it needs it. -/
structure Batch.InPlace (q : Quoting) (b : Batch) (p : Packet) : Prop where
  sequence : p.seq = b.expected
  header : kindOf p.kind = .file ∨ kindOf p.kind = .text → b.current = none
  data : kindOf p.kind = .data → b.current = none → decoded q p.payload = [] ∨ b.finished = []
  eof : kindOf p.kind = .eof → b.current = none → b.finished = []
  ending : kindOf p.kind = .eot ∨ kindOf p.kind = .generic ∧ endsSession q p.payload →
    b.current = none

instance (q : Quoting) (payload : List UInt8) : Decidable (endsSession q payload) :=
  inferInstanceAs (Decidable (_ ∨ _))

instance (q : Quoting) (b : Batch) (p : Packet) : Decidable (b.InPlace q p) :=
  decidable_of_iff
    (p.seq = b.expected ∧ (kindOf p.kind = .file ∨ kindOf p.kind = .text → b.current = none) ∧
      (kindOf p.kind = .data → b.current = none → decoded q p.payload = [] ∨ b.finished = []) ∧
      (kindOf p.kind = .eof → b.current = none → b.finished = []) ∧
      (kindOf p.kind = .eot ∨ kindOf p.kind = .generic ∧ endsSession q p.payload →
        b.current = none))
    ⟨fun ⟨sequence, header, data, eof, ending⟩ => ⟨sequence, header, data, eof, ending⟩,
      fun ⟨sequence, header, data, eof, ending⟩ => ⟨sequence, header, data, eof, ending⟩⟩

/-- Readings that each bring a packet in its place. -/
def Orderly (q : Quoting) : Batch → List Arrival → Prop
  | _, [] => True
  | b, arrival :: arrivals =>
    (∃ p, arrival.reading = .packet p ∧ b.InPlace q p) ∧ Orderly q (b.see q arrival) arrivals

/-- The file of a record. -/
def KermitReceive.sent (record : KermitReceive) : SentFile := ⟨record.filename, record.data⟩

/-- The files of some records. -/
def sentFiles (records : List KermitReceive) : List SentFile := records.map KermitReceive.sent

/-- A receiver that keeps what a batch says: each finished file was committed once, with its data,
at its Z, and the records are those of the committed files, as the hook left them, and of the file
that is open. -/
structure Faithful (terms : Terms) (b : Batch) (r : Receiver) : Prop where
  expectedSeq : r.expectedSeq = b.expected
  outOfOrder : r.outOfOrder = []
  nextDrained : r.nextDrained = none
  pendingResumeOffset : r.pendingResumeOffset = none
  committed : sentFiles r.committed = b.finished
  received : sentFiles r.received = b.current.toList ++ sentFiles (r.committed.map terms.onComplete)

/-- What a receiver reports at its end: every finished file was committed once, and the records it
returns are those of the committed files, as the hook left them. -/
structure Reported (terms : Terms) (b : Batch) (receipt : Receipt) : Prop where
  committed : sentFiles receipt.receiver.committed = b.finished
  complete : ∀ files, receipt.outcome = .complete files → b.current = none ∧
    sentFiles files.reverse = sentFiles (receipt.receiver.committed.map terms.onComplete)

variable {terms : Terms} {r later : Receiver} {arrival : Arrival} {p : Packet} {receipt : Receipt}
  {b : Batch}

/-! ## One packet -/

/-- An error leaves what was committed. -/
theorem Failed.reported (failed : Failed r receipt) (committed : sentFiles r.committed = b.finished) :
    Reported terms b receipt := by
  obtain ⟨error, outcome⟩ := failed.outcome
  refine ⟨failed.committed ▸ committed, fun files complete => ?_⟩
  rw [outcome] at complete
  cases complete

/-- The end of a batch between files reports what was finished. -/
theorem Finished.reported (finished : Finished r receipt) (faithful : Faithful terms b r)
    (closed : b.current = none) : Reported terms b receipt := by
  refine ⟨finished.committed ▸ faithful.committed, fun files complete => ⟨closed, ?_⟩⟩
  rw [finished.outcome] at complete
  cases complete
  rw [List.reverse_reverse, finished.committed, faithful.received, closed]
  rfl

/-- The end of a pass keeps what the batch says, as its number grows. -/
theorem Faithful.advance (faithful : Faithful terms b r) :
    Faithful terms { b with expected := (b.expected + 1) &&& 0x3F } r.advance where
  expectedSeq := congrArg (fun seq => (seq + 1) &&& 0x3F) faithful.expectedSeq
  outOfOrder := by
    show r.outOfOrder.eraseP _ = []
    rw [faithful.outOfOrder]
    rfl
  nextDrained := by
    show r.outOfOrder.find? _ = none
    rw [faithful.outOfOrder]
    rfl
  pendingResumeOffset := faithful.pendingResumeOffset
  committed := faithful.committed
  received := faithful.received

/-- A header that is accepted opens a file. -/
theorem onHeader_faithful (plain : terms.config.resumePartial = false)
    (faithful : Faithful terms b r) (closed : b.current = none)
    (accepted : r.onHeader terms arrival p = .next later) :
    Faithful terms { b with current := some ⟨headerName terms.session.quoting p.payload, []⟩ }
      later := by
  obtain ⟨steady, committed, received, _, _, pending⟩ := onHeader_next accepted
  refine ⟨steady.expectedSeq.trans faithful.expectedSeq,
    steady.outOfOrder.trans faithful.outOfOrder, steady.nextDrained.trans faithful.nextDrained,
    pending plain, committed ▸ faithful.committed, ?_⟩
  rw [received, committed]
  show KermitReceive.sent _ :: sentFiles r.received = _
  rw [faithful.received, closed]
  rfl

/-- Attributes leave the files as they are. -/
theorem onAttribute_faithful (faithful : Faithful terms b r)
    (accepted : r.onAttribute terms arrival p = .next later) : Faithful terms b later := by
  obtain ⟨steady, committed, pending, last, older, record, before, after, name, data⟩ :=
    onAttribute_next accepted
  refine ⟨steady.expectedSeq.trans faithful.expectedSeq,
    steady.outOfOrder.trans faithful.outOfOrder, steady.nextDrained.trans faithful.nextDrained,
    pending, committed ▸ faithful.committed, ?_⟩
  have same : record.sent = last.sent := by
    unfold KermitReceive.sent
    rw [name, data faithful.pendingResumeOffset]
  rw [committed, ← faithful.received, before, after]
  show record.sent :: sentFiles older = last.sent :: sentFiles older
  rw [same]

/-- Data go to the file that is open. -/
theorem onData_faithful (faithful : Faithful terms b r)
    (closed : b.current = none →
      decoded terms.session.quoting p.payload = [] ∨ b.finished = [])
    (accepted : r.onData terms p = .next later) :
    Faithful terms
      { b with
        current := b.current.map fun f =>
          { f with data := f.data ++ decoded terms.session.quoting p.payload } } later := by
  obtain ⟨steady, committed, pending, raw, last, older, is, before, after, _⟩ := onData_next accepted
  have raw' : decoded terms.session.quoting p.payload = raw := by
    unfold decoded
    rw [is]
    rfl
  refine ⟨steady.expectedSeq.trans faithful.expectedSeq,
    steady.outOfOrder.trans faithful.outOfOrder, steady.nextDrained.trans faithful.nextDrained,
    pending.trans faithful.pendingResumeOffset, committed ▸ faithful.committed, ?_⟩
  have records := faithful.received
  rw [before] at records
  rw [committed, after, raw']
  cases current : b.current with
  | some f =>
    rw [current] at records
    obtain ⟨last', rest⟩ := List.cons.inj records
    rw [← last']
    exact congrArg _ rest
  | none =>
    rw [current] at records
    rcases closed current with empty | unopened
    · rw [raw'] at empty
      rw [empty]
      show (⟨last.filename, last.data ++ []⟩ : SentFile) :: sentFiles older = _
      rw [List.append_nil]
      exact records
    · -- nothing was received, and the packet would have been refused
      have none' := faithful.committed
      rw [unopened] at none'
      rw [List.eq_nil_of_map_eq_nil none'] at records
      cases records

/-- The end of a file finishes the file that is open, or takes it back. -/
theorem onEof_faithful (faithful : Faithful terms b r)
    (closed : b.current = none → b.finished = [])
    (accepted : r.onEof terms p = .next later) :
    Faithful terms
      { b with
        finished := if isDiscard terms.session.quoting p.payload then b.finished
          else b.current.toList ++ b.finished
        current := none } later := by
  obtain ⟨steady, pending, last, older, before, after⟩ := onEof_next accepted
  have records := faithful.received
  rw [before] at records
  cases current : b.current with
  | none =>
    -- then nothing was received, and the packet would have been refused
    have none' := faithful.committed
    rw [closed current] at none'
    rw [current, List.eq_nil_of_map_eq_nil none'] at records
    cases records
  | some f =>
    rw [current] at records
    obtain ⟨last', rest⟩ := List.cons.inj records
    have kept := faithful.committed
    rcases after with ⟨discard, received, committed⟩ | ⟨complete, received, committed⟩
    · refine ⟨steady.expectedSeq.trans faithful.expectedSeq,
        steady.outOfOrder.trans faithful.outOfOrder, steady.nextDrained.trans faithful.nextDrained,
        pending.trans faithful.pendingResumeOffset, ?_, ?_⟩
      · rw [discard, if_pos rfl, committed, kept]
      · rw [received, committed]
        exact rest
    · refine ⟨steady.expectedSeq.trans faithful.expectedSeq,
        steady.outOfOrder.trans faithful.outOfOrder, steady.nextDrained.trans faithful.nextDrained,
        pending.trans faithful.pendingResumeOffset, ?_, ?_⟩
      · rw [complete, if_neg Bool.false_ne_true, committed, ← last', ← kept]
        rfl
      · rw [received, committed]
        exact congrArg (fun files => (terms.onComplete last).sent :: files) rest

/-- Arms that go on are followed by the end of the pass. -/
theorem thenAdvance_faithful {progress : Progress Receiver Receipt} {b' : Batch}
    (kept : ∀ middle, progress = .next middle → Faithful terms b' middle)
    (next : Receiver.thenAdvance progress = .next later) :
    Faithful terms { b' with expected := (b'.expected + 1) &&& 0x3F } later := by
  cases progress with
  | next middle =>
    cases next
    exact (kept middle rfl).advance
  | returned receipt => cases next

/-- A packet in its place is handled as the batch says. -/
theorem inOrder_faithful (plain : terms.config.resumePartial = false)
    (faithful : Faithful terms b r) (inPlace : b.InPlace terms.session.quoting p)
    (known : kindOf p.kind ≠ .error) (next : r.inOrder terms arrival p = .next later) :
    Faithful terms (b.take terms.session.quoting p) later := by
  unfold Receiver.inOrder at next
  unfold Batch.take Batch.follow
  cases kind : kindOf p.kind with
  | file | text =>
    simp only [kind] at next ⊢
    exact thenAdvance_faithful (fun middle accepted =>
      onHeader_faithful plain faithful (inPlace.header (by simp [kind])) accepted) next
  | attributes =>
    simp only [kind] at next ⊢
    exact thenAdvance_faithful (fun middle accepted => onAttribute_faithful faithful accepted) next
  | data =>
    simp only [kind] at next ⊢
    exact thenAdvance_faithful
      (fun middle accepted => onData_faithful faithful (inPlace.data kind) accepted) next
  | eof =>
    simp only [kind] at next ⊢
    exact thenAdvance_faithful
      (fun middle accepted => onEof_faithful faithful (inPlace.eof kind) accepted) next
  | eot =>
    simp only [kind] at next
    cases next
  | generic =>
    simp only [kind] at next ⊢
    refine thenAdvance_faithful (fun middle accepted => ?_) next
    obtain ⟨steady, committed, pending, received⟩ := onGeneric_next accepted
    exact ⟨steady.expectedSeq.trans faithful.expectedSeq,
      steady.outOfOrder.trans faithful.outOfOrder, steady.nextDrained.trans faithful.nextDrained,
      pending.trans faithful.pendingResumeOffset, committed ▸ faithful.committed,
      received ▸ committed ▸ faithful.received⟩
  | error => exact absurd kind known
  | other =>
    simp only [kind] at next ⊢
    cases next
    exact ⟨faithful.expectedSeq, faithful.outOfOrder, faithful.nextDrained,
      faithful.pendingResumeOffset, faithful.committed, faithful.received⟩

/-- Arms that return do so before the end of the pass. -/
theorem thenAdvance_returned {progress : Progress Receiver Receipt}
    (returned : Receiver.thenAdvance progress = .returned receipt) : progress = .returned receipt := by
  cases progress with
  | next middle => cases returned
  | returned result =>
    cases returned
    rfl

/-- What is returned at a packet in its place is what the batch says. -/
theorem inOrder_reported (faithful : Faithful terms b r)
    (inPlace : b.InPlace terms.session.quoting p)
    (returned : r.inOrder terms arrival p = .returned receipt) : Reported terms b receipt := by
  have committed := faithful.committed
  unfold Receiver.inOrder at returned
  cases kind : kindOf p.kind with
  | file | text =>
    simp only [kind] at returned
    exact (onHeader_returned (thenAdvance_returned returned)).reported committed
  | attributes =>
    simp only [kind] at returned
    exact (onAttribute_returned (thenAdvance_returned returned)).reported committed
  | data =>
    simp only [kind] at returned
    exact (onData_returned (thenAdvance_returned returned)).reported committed
  | eof =>
    simp only [kind] at returned
    exact (onEof_returned (thenAdvance_returned returned)).reported committed
  | eot =>
    simp only [kind] at returned
    cases returned
    have finished : Finished r ⟨r.ack terms p.seq, .complete r.received.reverse⟩ := ⟨rfl, rfl⟩
    exact finished.reported faithful (inPlace.ending (.inl kind))
  | generic =>
    simp only [kind] at returned
    obtain ⟨ends, finished⟩ := onGeneric_returned (thenAdvance_returned returned)
    exact finished.reported faithful (inPlace.ending (.inr ⟨kind, ends⟩))
  | error | other =>
    simp only [kind] at returned
    cases returned

/-- A receiver that keeps what a batch says, with the variables that a pass sets first. -/
theorem Faithful.readied (faithful : Faithful terms b r) :
    Faithful terms b
      { { r with consecutiveFailures := 0 }.dropReplay terms with noProgress := 0 } :=
  ⟨faithful.expectedSeq, faithful.outOfOrder, faithful.nextDrained, faithful.pendingResumeOffset,
    faithful.committed, faithful.received⟩

/-- A packet in sequence is handled in one pass, unless it is an error. -/
theorem step_packet (faithful : Faithful terms b r) (sequence : p.seq = b.expected)
    (read : arrival.reading = .packet p) :
    r.step terms arrival =
      if kindOf p.kind = .error then
        { r with consecutiveFailures := 0 }.fail ("Kermit: peer sent E-packet: " ++
          String.ofList (decodeErrorMessage terms.session.quoting p.payload))
      else
        { { r with consecutiveFailures := 0 }.dropReplay terms with noProgress := 0 }.inOrder terms
          arrival p := by
  have same : ¬ p.seq ≠ ({ r with consecutiveFailures := 0 }.dropReplay terms).expectedSeq :=
    not_not.mpr (sequence.trans faithful.expectedSeq.symm)
  unfold Receiver.step
  rw [read]
  show Receiver.drain terms arrival r.outOfOrder.length _ = _
  rw [faithful.outOfOrder, List.length_nil, drain_zero]
  unfold Receiver.pass
  split
  · rfl
  · exact if_neg same

/-- A step on a packet in its place keeps what the batch says. -/
theorem step_faithful (plain : terms.config.resumePartial = false) (faithful : Faithful terms b r)
    (inPlace : b.InPlace terms.session.quoting p) (read : arrival.reading = .packet p)
    (next : r.step terms arrival = .next later) :
    Faithful terms (b.take terms.session.quoting p) later := by
  rw [step_packet faithful inPlace.sequence read] at next
  split at next
  · cases next
  next known => exact inOrder_faithful plain faithful.readied inPlace known next

/-- And what it returns there is what the batch says. -/
theorem step_reported (faithful : Faithful terms b r)
    (inPlace : b.InPlace terms.session.quoting p) (read : arrival.reading = .packet p)
    (returned : r.step terms arrival = .returned receipt) : Reported terms b receipt := by
  rw [step_packet faithful inPlace.sequence read] at returned
  split at returned
  · exact (fail_failed returned).reported faithful.committed
  · exact inOrder_reported faithful.readied inPlace returned

/-! ## A batch -/

/-- Readings are orderly when the first of them are, and the rest are behind those. -/
theorem orderly_append {q : Quoting} {arrivals more : List Arrival} (b : Batch) :
    Orderly q b (arrivals ++ more) ↔ Orderly q b arrivals ∧ Orderly q (b.seeAll q arrivals) more := by
  induction arrivals generalizing b with
  | nil => exact ⟨fun rest => ⟨trivial, rest⟩, And.right⟩
  | cons first arrivals ih =>
    show _ ∧ Orderly q (b.see q first) (arrivals ++ more) ↔ _
    rw [ih]
    exact and_assoc.symm

/-- A reading that brings a packet is the packet. -/
theorem see_packet {q : Quoting} (read : arrival.reading = .packet p) :
    b.see q arrival = b.take q p := by
  unfold Batch.see
  rw [read]

/-- A receiver that starts keeps what a batch that starts says. -/
theorem start_faithful (terms : Terms) (seq : UInt8) (answer : List UInt8) :
    Faithful terms (.start seq) (Receiver.start seq answer) := ⟨rfl, rfl, rfl, rfl, rfl, rfl⟩

/-- Without resume, in every batch whose packets come in sequence and in their places, the receiver
commits each finished file once, at its Z and with its data, and keeps and returns the records of
those files. -/
theorem files_faithful (terms : Terms) (plain : terms.config.resumePartial = false) (seq : UInt8)
    (answer : List UInt8) (arrivals : List Arrival)
    (orderly : Orderly terms.session.quoting (.start seq) arrivals) :
    (∀ r, feed (Receiver.step terms) arrivals (.start seq answer) = .next r →
      Faithful terms (Batch.seeAll terms.session.quoting (.start seq) arrivals) r) ∧
    ∀ before arrival after r receipt, arrivals = before ++ arrival :: after →
      feed (Receiver.step terms) before (.start seq answer) = .next r →
      r.step terms arrival = .returned receipt →
        Reported terms (Batch.seeAll terms.session.quoting (.start seq) before) receipt := by
  have keeps : ∀ arrivals r, Orderly terms.session.quoting (.start seq) arrivals →
      feed (Receiver.step terms) arrivals (.start seq answer) = .next r →
        Faithful terms (Batch.seeAll terms.session.quoting (.start seq) arrivals) r := by
    intro arrivals r orderly goesOn
    refine @feed_holds _ _ _ (Receiver.step terms)
      (fun arrivals r =>
        Faithful terms (Batch.seeAll terms.session.quoting (.start seq) arrivals) r)
      (Orderly terms.session.quoting (.start seq)) _ ?_ (start_faithful terms seq answer) ?_
      arrivals r orderly goesOn
    · exact fun inputs input orderly => ((orderly_append _).mp orderly).1
    · intro inputs input state later orderly faithful next
      obtain ⟨⟨p, read, inPlace⟩, _⟩ := ((orderly_append _).mp orderly).2
      have kept := step_faithful plain faithful inPlace read next
      unfold Batch.seeAll at kept ⊢
      rw [List.foldl_append]
      show Faithful terms (Batch.see terms.session.quoting _ input) later
      rwa [see_packet read]
  refine ⟨fun r => keeps arrivals r orderly, ?_⟩
  intro before arrival after r receipt is goesOn returned
  rw [is] at orderly
  obtain ⟨before', ⟨p, read, inPlace⟩, _⟩ := (orderly_append _).mp orderly
  exact step_reported (keeps before r before' goesOn) inPlace read returned

/-- A file of one byte in its batch. -/
def wholeBatch : List Arrival :=
  [filePacket 1 ['A'], ⟨0x44, 2, [0x78]⟩, .empty 0x5A 3, .empty 0x42 4].map Packet.arrival

/-- A batch of one file is reported as it was sent. -/
theorem files_faithful_whole :
    (∀ r, feed (Receiver.step .default) wholeBatch (.start 0 []) = .next r →
      Faithful .default (Batch.seeAll Terms.default.session.quoting (.start 0) wholeBatch) r) ∧
    ∀ before arrival after r receipt, wholeBatch = before ++ arrival :: after →
      feed (Receiver.step .default) before (.start 0 []) = .next r →
      r.step .default arrival = .returned receipt →
        Reported .default (Batch.seeAll Terms.default.session.quoting (.start 0) before) receipt :=
  files_faithful .default rfl 0 [] wholeBatch
    ⟨⟨_, rfl, by decide +kernel⟩, ⟨_, rfl, by decide +kernel⟩, ⟨_, rfl, by decide +kernel⟩,
      ⟨_, rfl, by decide +kernel⟩, trivial⟩

/-- The records that a receiver returns, and those it has committed. -/
def reportOf : Progress Receiver Receipt → Option (List KermitReceive × List KermitReceive)
  | .returned ⟨r, .complete files⟩ => some (files, r.committed)
  | _ => none

/-- A file whose batch ends before its Z is returned with the data that came, and never was
committed. -/
theorem unfinished_file_reported :
    reportOf (feed (Receiver.step .default)
      ([filePacket 1 ['A'], ⟨0x44, 2, [0x78]⟩, .empty 0x42 3].map Packet.arrival)
      (.start 0 [])) = some ([{ KermitReceive.named ['A'] with data := [0x78] }], []) := by
  decide +kernel

end EthernetGateway.Kermit
