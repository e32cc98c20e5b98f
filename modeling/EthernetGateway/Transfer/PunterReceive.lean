import EthernetGateway.Stepping
import EthernetGateway.Transfer.Punter

/-!
# A Punter receiver

`receive_phase` asks for one block in each round: it signals how the last one came, waits for the
answer, reads the block and judges it. Three counts and the size of the file bound its rounds: a
damaged block, a repeated one, an empty one and one that is taken each use up one of the four, and
no round gives back more than it leaves to those after it. The counts of damaged and of repeated
blocks stop at the largest number they can hold, which a limit of that number is never below.
-/

namespace EthernetGateway.Transfer.Punter

open EthernetGateway.Stepping

/-! ## Codes -/

/-- `Code`. -/
inductive Code where
  | goo
  | bad
  | ack
  | sb
  | syn
  deriving DecidableEq

/-- `Code::bytes`. -/
def Code.bytes : Code → List UInt8
  | .goo => [0x47, 0x4F, 0x4F]
  | .bad => [0x42, 0x41, 0x44]
  | .ack => [0x41, 0x43, 0x4B]
  | .sb => [0x53, 0x2F, 0x42]
  | .syn => [0x53, 0x59, 0x4E]

/-- `to_ascii_uppercase` on a byte. -/
def toAsciiUppercase (b : UInt8) : UInt8 := if 0x61 ≤ b ∧ b ≤ 0x7A then b - 0x20 else b

/-- `Code::from_window`. -/
def Code.fromWindow (window : List UInt8) : Option Code :=
  [Code.goo, .bad, .ack, .sb, .syn].find? fun c => window.map toAsciiUppercase = c.bytes

/-- `is_esc_key`. -/
def isEscKey (b : UInt8) (isPetscii : Bool) : Bool := b = 0x1B || (isPetscii && b = 0x5F)

/-- What comes next to a reader: a byte, nothing for as long as it waits, a telnet sequence that
stalls, or a failure. -/
inductive Arrival where
  | byte (b : UInt8)
  | quiet
  | stalled
  | failed (error : String)

/-- A byte is moved into the window, which has taken some. -/
def slide (window : List UInt8) (b : UInt8) : List UInt8 :=
  if window.length < 3 then window ++ [b] else window.tail ++ [b]

/-- The code in a full window, if it is allowed. -/
def allowedCode (allowed : List Code) (window : List UInt8) : Option Code :=
  if window.length = 3 then (Code.fromWindow window).filter (· ∈ allowed) else none

/-- `accept_code`, on what arrives before its deadline. -/
def acceptCode (isPetscii : Bool) (allowed : List Code) :
    List UInt8 → List Arrival → Except String (Option Code)
  | _, [] => .ok none
  | _, .quiet :: _ => .ok none
  | _, .stalled :: _ => .ok none
  | _, .failed error :: _ => .error error
  | window, .byte b :: later =>
    let taken :=
      match allowedCode allowed (slide window b) with
      | some c => .ok (some c)
      | none => acceptCode isPetscii allowed (slide window b) later
    if isEscKey b isPetscii then
      -- an escape that stands alone is a key that was pressed
      match later with
      | .quiet :: _ => .error "Transfer cancelled"
      | .stalled :: _ => .ok none
      | .failed error :: _ => .error error
      | _ => taken
    else taken

/-- A try to get an answer: a code that could not be sent, or what arrives behind it. -/
abbrev Try : Type := Except String (List Arrival)

/-- The signal of a round, sent until its ACK comes. -/
def awaitAck (isPetscii : Bool) (tries : Nat → Try) : Nat → Except String Bool
  | 0 => .ok false
  | attempts + 1 =>
    match tries 0 with
    | .error error => .error error
    | .ok arrivals =>
      match acceptCode isPetscii [.ack] [] arrivals with
      | .error error => .error error
      | .ok (some .ack) => .ok true
      | .ok _ => awaitAck isPetscii (fun i => tries (i + 1)) attempts

/-! ## Blocks -/

/-- The bytes of a block, up to the first that does not come. -/
def readBytes : Nat → List Arrival → List UInt8
  | count + 1, .byte b :: later => b :: readBytes count later
  | _, _ => []

/-- `read_block`, with the tries it has left. -/
def readBlock (size : UInt8) (tries : Nat → Try) : Nat → Except String (List UInt8)
  | 0 => .error "Punter receive: block read failed"
  | attempts + 1 =>
    match tries 0 with
    | .error error => .error error
    | .ok arrivals =>
      let buf := readBytes size.toNat arrivals
      if buf.length = 3 ∧ Code.fromWindow buf = some .ack then
        readBlock size (fun i => tries (i + 1)) attempts
      else if buf = [] then readBlock size (fun i => tries (i + 1)) attempts
      else .ok buf

/-! ## Rounds -/

/-- `MAX_FILE_SIZE`. -/
def maxFileSize : Nat := 8 * 1024 * 1024

/-- `MAX_EMPTY_NONFINAL_BLOCKS`. -/
def maxEmptyNonfinalBlocks : Nat := 4

/-- `Tunables`. -/
structure Tunables where
  negotiationTimeout : Nat
  blockTimeout : Nat
  maxRetries : UInt32
  maxBadRounds : UInt32
  retryInterval : Nat

/-- `saturating_add(1)`. -/
def saturatingSucc (n : UInt32) : UInt32 := if n = 0xFFFFFFFF then n else n + 1

/-- The variables of `receive_phase`. -/
structure Receiver where
  out : List UInt8
  nextSize : UInt8
  emptyNonfinalBlocks : Nat
  signal : Code
  badRounds : UInt32
  lastIndex : Option UInt16
  dupRounds : UInt32
  acceptedNone : Bool

/-- The variables before the first round. -/
def Receiver.start (initialSize : UInt8) : Receiver := ⟨[], initialSize, 0, .goo, 0, none, 0, true⟩

/-- What the peer does in a round: the answers to the signal, and those to the S/B. -/
structure Round where
  signals : Nat → Try
  reads : Nat → Try

/-- How often the signal of a round is sent. -/
def Tunables.attempts (t : Tunables) (r : Receiver) : Nat :=
  let firstRound := r.acceptedNone && r.signal = .goo
  let totalBudget := if firstRound then t.negotiationTimeout else t.blockTimeout
  let probe := min totalBudget (max t.retryInterval 1)
  max ((totalBudget + max probe 1 - 1) / max probe 1) 1

/-- What a round comes to. -/
abbrev Outcome : Type := Progress Receiver (Except String (List UInt8))

/-- The phase fails. -/
def giveUp (reason : String) : Outcome := .returned (.error ("Punter receive: " ++ reason))

/-- A block announces the next, which has a header at least. -/
def announced (r : Receiver) : Outcome :=
  if r.nextSize.toNat < dataPos then giveUp ("bad next-block size " ++ toString r.nextSize.toNat)
  else .next r

/-- A repeated block is dropped. -/
def onDuplicate (t : Tunables) (r : Receiver) (blk : List UInt8) : Outcome :=
  let dupRounds := saturatingSucc r.dupRounds
  if t.maxBadRounds < dupRounds then
    giveUp (toString dupRounds.toNat ++ " repeated duplicate blocks, giving up")
  else
    announced { r with dupRounds, nextSize := sizeField blk, signal := .goo, badRounds := 0 }

/-- A block without payload that is not the last. -/
def isEmptyNonfinal (blk : List UInt8) : Bool := (blockPayload blk).isEmpty && !isFinalBlock blk

/-- The count of such blocks after a block. -/
def emptyAfter (count : Nat) (blk : List UInt8) : Nat :=
  if isEmptyNonfinal blk then count + 1 else count

/-- A new block is taken. The end-off that follows the last one cannot fail. -/
def onNewBlock (r : Receiver) (blk : List UInt8) : Outcome :=
  let out := r.out ++ blockPayload blk
  let emptyNonfinalBlocks := emptyAfter r.emptyNonfinalBlocks blk
  if blockPayload blk ≠ [] ∧ maxFileSize < out.length then
    giveUp ("file exceeds " ++ toString maxFileSize ++ " bytes")
  else if isEmptyNonfinal blk = true ∧ maxEmptyNonfinalBlocks < emptyNonfinalBlocks then
    giveUp (toString emptyNonfinalBlocks ++ " empty non-final blocks, giving up")
  else if isFinalBlock blk then .returned (.ok out)
  else
    announced { r with
      out, emptyNonfinalBlocks
      nextSize := sizeField blk
      signal := .goo
      badRounds := 0
      dupRounds := 0
      acceptedNone := false
      lastIndex := some (blockIndex blk) }

/-- A damaged block is asked for again. -/
def onBadBlock (t : Tunables) (r : Receiver) : Outcome :=
  let badRounds := saturatingSucc r.badRounds
  if t.maxBadRounds < badRounds then
    giveUp (toString badRounds.toNat ++ " consecutive bad blocks, giving up")
  else .next { r with signal := .bad, badRounds }

/-- A block that came is judged. -/
def judge (t : Tunables) (r : Receiver) (blk : List UInt8) : Outcome :=
  if checksumOk blk then
    if isFinalBlock blk = false ∧ blockPayload blk ≠ [] ∧ r.lastIndex = some (blockIndex blk) then
      onDuplicate t r blk
    else onNewBlock r blk
  else onBadBlock t r

/-- A round of `receive_phase`. -/
def step (t : Tunables) (isPetscii : Bool) (r : Receiver) (round : Round) : Outcome :=
  match awaitAck isPetscii round.signals (t.attempts r) with
  | .error error => .returned (.error error)
  | .ok false => giveUp "no ACK from sender"
  | .ok true =>
    match readBlock r.nextSize round.reads (t.maxRetries.toNat + 1) with
    | .error error => .returned (.error error)
    | .ok blk => judge t r blk

/-! ## The bound -/

/-- The counts of a receiver are within their limits. -/
structure Receiver.Counted (t : Tunables) (r : Receiver) : Prop where
  out : r.out.length ≤ maxFileSize
  empty : r.emptyNonfinalBlocks ≤ maxEmptyNonfinalBlocks
  dup : r.dupRounds ≤ t.maxBadRounds
  bad : r.badRounds ≤ t.maxBadRounds

/-- The blocks that can still be taken. -/
def Receiver.room (r : Receiver) : Nat :=
  (maxFileSize - r.out.length) + (maxEmptyNonfinalBlocks - r.emptyNonfinalBlocks)

/-- The rounds that are left to a receiver: a block that is taken leaves all repetitions to those
after it, and a repeated one all damaged ones. -/
def Receiver.left (t : Tunables) (r : Receiver) : Nat :=
  (r.room * (t.maxBadRounds.toNat + 1) + (t.maxBadRounds.toNat - r.dupRounds.toNat)) *
      (t.maxBadRounds.toNat + 1) + (t.maxBadRounds.toNat - r.badRounds.toNat)

/-- The rounds of a phase at most. -/
def roundBound (t : Tunables) : Nat :=
  (maxFileSize + maxEmptyNonfinalBlocks + 1) * (t.maxBadRounds.toNat + 1) *
    (t.maxBadRounds.toNat + 1)

/-- A round that goes on leaves the receiver within its limits, and fewer rounds to it. -/
def Lowers (t : Tunables) (r : Receiver) (outcome : Outcome) : Prop :=
  ∀ later, outcome = .next later → later.Counted t ∧ later.left t < r.left t

section Bound

variable {t : Tunables} {r : Receiver} {blk : List UInt8}

/-- A phase that fails does not go on. -/
theorem lowers_giveUp (reason : String) : Lowers t r (giveUp reason) := by
  intro later next
  cases next

/-- Nor does one that returns. -/
theorem lowers_returned (result : Except String (List UInt8)) : Lowers t r (.returned result) := by
  intro later next
  cases next

/-- The length that is announced counts no round. -/
theorem lowers_announced {r' : Receiver} (counted : r'.Counted t) (less : r'.left t < r.left t) :
    Lowers t r (announced r') := by
  unfold announced
  split
  · exact lowers_giveUp _
  · intro later next
    cases next
    exact ⟨counted, less⟩

/-- A count goes up below the largest number. -/
theorem saturatingSucc_toNat {n : UInt32} (small : n.toNat < 2 ^ 32 - 1) :
    (saturatingSucc n).toNat = n.toNat + 1 := by
  have other : n ≠ 0xFFFFFFFF := by
    intro same
    rw [same] at small
    exact absurd small (by decide)
  rw [saturatingSucc, if_neg other]
  show (n.toNat + 1) % 2 ^ 32 = n.toNat + 1
  omega

/-- A count that did not pass a limit has gone up, to the limit at most. -/
theorem saturatingSucc_le {n limit : UInt32} (limited : limit ≠ 0xFFFFFFFF) (below : n ≤ limit)
    (passes : ¬ limit < saturatingSucc n) :
    n.toNat + 1 ≤ limit.toNat ∧ (saturatingSucc n).toNat = n.toNat + 1 := by
  have small : limit.toNat < 2 ^ 32 - 1 := by
    have bound : limit.toNat < 2 ^ 32 := limit.toNat_lt
    have other : limit.toNat ≠ 2 ^ 32 - 1 := fun same => limited (UInt32.toNat_inj.mp same)
    omega
  have order : n.toNat ≤ limit.toNat := below
  have count := @saturatingSucc_toNat n (by omega)
  have reached : ¬ limit.toNat < (saturatingSucc n).toNat := passes
  omega

/-- A repeated block uses up one repetition. -/
theorem lowers_onDuplicate (limited : t.maxBadRounds ≠ 0xFFFFFFFF) (counted : r.Counted t) :
    Lowers t r (onDuplicate t r blk) := by
  unfold onDuplicate
  by_cases passes : t.maxBadRounds < saturatingSucc r.dupRounds
  · rw [if_pos passes]
    exact lowers_giveUp _
  · rw [if_neg passes]
    obtain ⟨most, count⟩ := saturatingSucc_le limited counted.dup passes
    apply lowers_announced
    · exact ⟨counted.out, counted.empty, Nat.le_of_not_lt passes, Nat.zero_le _⟩
    · apply digits_lt
      · show r.room * (t.maxBadRounds.toNat + 1) +
            (t.maxBadRounds.toNat - (saturatingSucc r.dupRounds).toNat) <
          r.room * (t.maxBadRounds.toNat + 1) + (t.maxBadRounds.toNat - r.dupRounds.toNat)
        omega
      · exact Nat.sub_le _ _

/-- A receiver with less room has fewer rounds left, whatever its counts. -/
theorem left_lt {r' : Receiver} (room : r'.room < r.room) : r'.left t < r.left t := by
  apply digits_lt
  · exact digits_lt room (Nat.sub_le _ _)
  · exact Nat.sub_le _ _

/-- What is taken from a block that is not the last grows the file or the count of empty ones. -/
theorem room_drops (counted : r.Counted t) (open' : isFinalBlock blk = false)
    (fits : ¬(blockPayload blk ≠ [] ∧ maxFileSize < (r.out ++ blockPayload blk).length))
    (few : ¬(isEmptyNonfinal blk = true ∧
      maxEmptyNonfinalBlocks < emptyAfter r.emptyNonfinalBlocks blk)) :
    (r.out ++ blockPayload blk).length ≤ maxFileSize ∧
      emptyAfter r.emptyNonfinalBlocks blk ≤ maxEmptyNonfinalBlocks ∧
      (maxFileSize - (r.out ++ blockPayload blk).length) +
        (maxEmptyNonfinalBlocks - emptyAfter r.emptyNonfinalBlocks blk) < r.room := by
  have full : r.out.length ≤ maxFileSize := counted.out
  have empty : r.emptyNonfinalBlocks ≤ maxEmptyNonfinalBlocks := counted.empty
  rw [Receiver.room, List.length_append]
  rw [List.length_append] at fits
  cases payload : blockPayload blk with
  | nil =>
    have isEmpty : isEmptyNonfinal blk = true := by
      rw [isEmptyNonfinal, payload, open']
      rfl
    have counts : emptyAfter r.emptyNonfinalBlocks blk = r.emptyNonfinalBlocks + 1 := by
      rw [emptyAfter, if_pos isEmpty]
    rw [counts] at few ⊢
    have below : ¬ maxEmptyNonfinalBlocks < r.emptyNonfinalBlocks + 1 :=
      fun beyond => few ⟨isEmpty, beyond⟩
    rw [List.length_nil]
    omega
  | cons b rest =>
    have counts : emptyAfter r.emptyNonfinalBlocks blk = r.emptyNonfinalBlocks := by
      rw [emptyAfter, isEmptyNonfinal, payload]
      rfl
    rw [payload] at fits
    have below : ¬ maxFileSize < r.out.length + (b :: rest).length :=
      fun beyond => fits ⟨List.cons_ne_nil _ _, beyond⟩
    rw [counts]
    rw [List.length_cons] at below ⊢
    omega

/-- A block that is taken uses up room. -/
theorem lowers_onNewBlock (counted : r.Counted t) : Lowers t r (onNewBlock r blk) := by
  simp only [onNewBlock]
  split
  · exact lowers_giveUp _
  · rename_i fits
    split
    · exact lowers_giveUp _
    · rename_i few
      split
      · exact lowers_returned _
      · rename_i other
        obtain ⟨outFits, emptyFits, less⟩ :=
          room_drops counted (Bool.eq_false_iff.mpr other) fits few
        apply lowers_announced
        · exact ⟨outFits, emptyFits, Nat.zero_le _, Nat.zero_le _⟩
        · exact left_lt less

/-- A damaged block uses up one bad round. -/
theorem lowers_onBadBlock (limited : t.maxBadRounds ≠ 0xFFFFFFFF) (counted : r.Counted t) :
    Lowers t r (onBadBlock t r) := by
  unfold onBadBlock
  by_cases passes : t.maxBadRounds < saturatingSucc r.badRounds
  · rw [if_pos passes]
    exact lowers_giveUp _
  · rw [if_neg passes]
    obtain ⟨most, count⟩ := saturatingSucc_le limited counted.bad passes
    intro later next
    cases next
    constructor
    · exact ⟨counted.out, counted.empty, counted.dup, Nat.le_of_not_lt passes⟩
    · apply Nat.add_lt_add_left
      show t.maxBadRounds.toNat - (saturatingSucc r.badRounds).toNat <
        t.maxBadRounds.toNat - r.badRounds.toNat
      omega

/-- Every round that goes on leaves fewer. -/
theorem step_lowers (limited : t.maxBadRounds ≠ 0xFFFFFFFF) (isPetscii : Bool)
    (counted : r.Counted t) (round : Round) : Lowers t r (step t isPetscii r round) := by
  unfold step
  cases awaitAck isPetscii round.signals (t.attempts r) with
  | error error => exact lowers_returned _
  | ok answered =>
    cases answered with
    | false => exact lowers_giveUp _
    | true =>
      cases readBlock r.nextSize round.reads (t.maxRetries.toNat + 1) with
      | error error => exact lowers_returned _
      | ok blk =>
        show Lowers t r (judge t r blk)
        unfold judge
        split
        · split
          · exact lowers_onDuplicate limited counted
          · exact lowers_onNewBlock counted
        · exact lowers_onBadBlock limited counted

/-- A phase returns within the bound, unless its limit is the largest number. -/
theorem returns_within_roundBound (limited : t.maxBadRounds ≠ 0xFFFFFFFF) (isPetscii : Bool)
    (initialSize : UInt8) (rounds : Nat → Round) :
    ReturnsWithin (step t isPetscii) rounds (roundBound t) (.start initialSize) := by
  apply @returnsWithin_of_measure _ _ _ (step t isPetscii) (Receiver.Counted t) (Receiver.left t)
  · intro r round later counted next
    exact step_lowers limited isPetscii counted round later next
  · exact ⟨Nat.zero_le _, Nat.zero_le _, Nat.zero_le _, Nat.zero_le _⟩
  · show ((maxFileSize + maxEmptyNonfinalBlocks) * (t.maxBadRounds.toNat + 1) +
        t.maxBadRounds.toNat) * (t.maxBadRounds.toNat + 1) + t.maxBadRounds.toNat < roundBound t
    have inner : (maxFileSize + maxEmptyNonfinalBlocks) * (t.maxBadRounds.toNat + 1) +
        t.maxBadRounds.toNat + 1 =
          (maxFileSize + maxEmptyNonfinalBlocks + 1) * (t.maxBadRounds.toNat + 1) := by
      rw [Nat.succ_mul, Nat.add_assoc]
    rw [roundBound, ← inner, Nat.succ_mul]
    omega

end Bound

/-! ## The limit that does not limit -/

/-- The largest limit on damaged blocks. -/
def unlimited : Tunables := ⟨60, 20, 10, 0xFFFFFFFF, 5⟩

/-- A peer that answers each signal with an ACK and each S/B with one byte. -/
def oneByteRound : Round where
  signals := fun _ => .ok (Code.ack.bytes.map .byte)
  reads := fun _ => .ok [.byte 0]

/-- A signal that is answered at once. -/
theorem awaitAck_answered (isPetscii : Bool) (attempts : Nat) (some : 0 < attempts) :
    awaitAck isPetscii oneByteRound.signals attempts = .ok true := by
  cases attempts with
  | zero => exact absurd some (Nat.lt_irrefl 0)
  | succ attempts => cases isPetscii <;> rfl

/-- One byte of a block is read as such. -/
theorem readBlock_oneByte (size : UInt8) (some : 0 < size.toNat) (attempts : Nat) :
    readBlock size oneByteRound.reads (attempts + 1) = .ok [0] := by
  obtain ⟨more, is⟩ : ∃ more, size.toNat = more + 1 := ⟨size.toNat - 1, by omega⟩
  have read : readBytes size.toNat [.byte 0] = [0] := by
    rw [is]
    cases more <;> rfl
  simp only [readBlock, oneByteRound, read]
  rfl

/-- A damaged block goes on for ever where the limit is the largest number. -/
theorem step_oneByte {t : Tunables} (unlimited : t.maxBadRounds = 0xFFFFFFFF) (isPetscii : Bool)
    {r : Receiver} (size : r.nextSize = dataPhaseFirstSize) :
    ∃ later, step t isPetscii r oneByteRound = .next later ∧
      later.nextSize = dataPhaseFirstSize := by
  have answered := awaitAck_answered isPetscii (t.attempts r)
    (Nat.lt_of_lt_of_le Nat.zero_lt_one (Nat.le_max_right _ _))
  have read := readBlock_oneByte r.nextSize (by rw [size]; decide) t.maxRetries.toNat
  have passes : ¬ t.maxBadRounds < saturatingSucc r.badRounds := by
    rw [unlimited]
    exact Nat.not_lt.mpr (Nat.le_of_lt_succ (saturatingSucc r.badRounds).toNat_lt)
  refine ⟨{ r with signal := .bad, badRounds := saturatingSucc r.badRounds }, ?_, size⟩
  rw [step, answered]
  simp only [read]
  exact if_neg passes

/-- A peer that sends one byte for each block holds a receiver whose limit is the largest number. -/
theorem oneByte_holds {t : Tunables} (unlimited : t.maxBadRounds = 0xFFFFFFFF) (bound : Nat) :
    ¬ ReturnsWithin (step t false) (fun _ => oneByteRound) bound (.start dataPhaseFirstSize) := by
  obtain ⟨later, goesOn, _⟩ := @run_kept _ _ _ (step t false)
    (fun _ r => r.nextSize = dataPhaseFirstSize) (fun _ => oneByteRound)
    (fun _ r size => step_oneByte unlimited false size) (.start dataPhaseFirstSize) rfl bound
  exact not_returnsWithin goesOn

/-- Whatever its peer does, a phase returns within a number of rounds exactly where its limit on
damaged blocks is not the largest number a count can hold, and then within that of the bound. -/
theorem receive_phase_bounded_iff (t : Tunables) :
    ((∃ bound, ∀ isPetscii initialSize rounds,
      ReturnsWithin (step t isPetscii) rounds bound (.start initialSize)) ↔
        t.maxBadRounds ≠ 0xFFFFFFFF) ∧
    (t.maxBadRounds ≠ 0xFFFFFFFF → ∀ isPetscii initialSize rounds,
      ReturnsWithin (step t isPetscii) rounds (roundBound t) (.start initialSize)) := by
  constructor
  · constructor
    · rintro ⟨bound, bounded⟩ unlimited
      exact oneByte_holds unlimited bound (bounded false dataPhaseFirstSize fun _ => oneByteRound)
    · intro limited
      exact ⟨roundBound t, returns_within_roundBound limited⟩
  · intro limited
    exact returns_within_roundBound limited

/-- The peer of one byte does not hold a receiver that gives up after twenty damaged blocks. -/
theorem receive_phase_bounded_twenty :
    ReturnsWithin (step ⟨60, 20, 10, 20, 5⟩ false) (fun _ => oneByteRound)
      (roundBound ⟨60, 20, 10, 20, 5⟩) (.start dataPhaseFirstSize) :=
  (receive_phase_bounded_iff ⟨60, 20, 10, 20, 5⟩).2 (by decide) false dataPhaseFirstSize _

/-- A limit of the largest number is none. -/
theorem one_byte_blocks_hold_receiver :
    ¬ ∀ t : Tunables, ∃ bound, ∀ isPetscii initialSize rounds,
      ReturnsWithin (step t isPetscii) rounds bound (.start initialSize) := by
  intro all
  obtain ⟨bound, bounded⟩ := all unlimited
  exact oneByte_holds rfl bound (bounded false dataPhaseFirstSize fun _ => oneByteRound)

end EthernetGateway.Transfer.Punter
