import EthernetGateway.Transfer.ZmodemReceive

/-!
# A ZMODEM receiver comes to an end

What a receiver has left to read is measured: the files of the batch, the frames and damaged headers
it takes between two of them, and in a file the data, the empty subpackets and the errors it still
takes. Each read brings the measure down, as long as the retry limit is one whose double a counter
can pass. From half of the largest counter on it cannot, and a stream of control frames holds the
receiver for ever.
-/

namespace EthernetGateway.Transfer.Zmodem

open EthernetGateway.Stepping

/-! ## The measure -/

/-- The data and the empty subpackets a file still takes. -/
def Incoming.room (file : Incoming) : Nat :=
  (maxFileSize - file.data.length) * 65 + (maxEmptySubpackets - file.emptySubpackets)

/-- What a file in its data phase still takes. -/
def Incoming.work (retries : Nat) (file : Incoming) : Nat :=
  (file.room * (retries + 1) + (retries - file.errors)) * 2

/-- The most a file in its data phase takes. -/
def dataWork (retries : Nat) : Nat :=
  ((maxFileSize * 65 + maxEmptySubpackets) * (retries + 1) + retries) * 2

/-- What a phase still takes. -/
def Phase.work (retries : Nat) : Phase → Nat
  | .between => 0
  | .attention _ => 1
  | .command _ => 1
  | .message _ => 1
  | .info _ errors => dataWork retries + 2 + (retries - errors) * 2
  | .retransmit _ errors => dataWork retries + 2 + (retries - errors) * 2 + 1
  | .header file => file.work retries + 1
  | .body _ file => file.work retries

/-- What a receiver takes before its next file. -/
def Session.gap (retries : Nat) (session : Session) : Nat :=
  ((2 * retries - session.progresslessFrames) * (retries + 1) +
    (retries - session.interFileHeaderErrors)) * 2

/-- The most a receiver takes for a file and what comes after it. -/
def fileWork (retries : Nat) : Nat :=
  (2 * retries * (retries + 1) + retries) * 2 + (dataWork retries + 2 + retries * 2)

/-- What a receiver still takes. -/
def Session.work (retries : Nat) (session : Session) : Nat :=
  (maxBatchFiles - session.zfileSeen) * (fileWork retries + 1) + session.gap retries +
    session.phase.work retries

/-- A bound on the reads of a receiver after its first ZFILE. -/
def readBound (retries : Nat) : Nat := maxBatchFiles * (fileWork retries + 1) + fileWork retries + 1

/-- A file in its data phase takes no more than an empty one. -/
theorem Incoming.work_le (retries : Nat) (file : Incoming) :
    file.work retries ≤ dataWork retries := by
  have room : file.room ≤ maxFileSize * 65 + maxEmptySubpackets := by
    unfold Incoming.room
    omega
  have scaled := Nat.mul_le_mul_right (retries + 1) room
  unfold Incoming.work dataWork
  omega

/-- A phase takes no more than a file. -/
theorem Phase.work_le (retries : Nat) (phase : Phase) :
    phase.work retries ≤ dataWork retries + 2 + retries * 2 + 1 := by
  cases phase with
  | header file =>
    have := file.work_le retries
    simp only [Phase.work]
    omega
  | body crc file =>
    have := file.work_le retries
    simp only [Phase.work]
    omega
  | _ => simp only [Phase.work]; omega

/-- A receiver takes no more before its next file than one that has counted nothing. -/
theorem Session.gap_le (retries : Nat) (session : Session) :
    session.gap retries ≤ (2 * retries * (retries + 1) + retries) * 2 := by
  have scaled := Nat.mul_le_mul_right (retries + 1)
    (Nat.sub_le (2 * retries) session.progresslessFrames)
  unfold Session.gap
  omega

/-- What a receiver still takes is bounded. -/
theorem Session.work_le (retries : Nat) (session : Session) :
    session.work retries ≤ readBound retries := by
  have files := Nat.mul_le_mul_right (fileWork retries + 1)
    (Nat.sub_le maxBatchFiles session.zfileSeen)
  have gap := session.gap_le retries
  have phase := session.phase.work_le retries
  have whole : fileWork retries =
    (2 * retries * (retries + 1) + retries) * 2 + (dataWork retries + 2 + retries * 2) := rfl
  unfold Session.work readBound
  omega

/-! ## Every read brings it down -/

/-- A step of a receiver that has seen a file returns, or brings what is left below a number. -/
def Descends (retries limit : Nat) (progress : Progress Session BatchReceipt) : Prop :=
  ∀ later, progress = .next later → 1 ≤ later.zfileSeen ∧ later.work retries < limit

variable {retries : Nat} {session : Session}

/-- An error ends a receiver. -/
theorem descends_fail (limit : Nat) (error : String) :
    Descends retries limit (session.fail error) := by
  intro later next
  cases next

/-- So does a cancelled session. -/
theorem descends_cancel (limit : Nat) (error : String) :
    Descends retries limit (session.cancel error) := descends_fail limit error

/-- So does the end of the batch. -/
theorem descends_finish (limit : Nat) : Descends retries limit session.finish := by
  intro later next
  unfold Session.finish at next
  split at next <;> cases next

/-- A step that keeps the count of files goes down when the rest of the measure does. -/
theorem descends_next {later : Session} (seen : 1 ≤ session.zfileSeen)
    (files : later.zfileSeen = session.zfileSeen)
    (less : later.gap retries + later.phase.work retries <
      session.gap retries + session.phase.work retries) :
    Descends retries (session.work retries) (.next later) := by
  intro state next
  cases next
  refine ⟨by rw [files]; exact seen, ?_⟩
  unfold Session.work
  rw [files]
  omega

/-! ### Between files -/

/-- A frame that brings no file is taken from the budget of those. -/
theorem gap_control {later : Session} (small : retries < 2 ^ 31)
    (within : ¬ saturated (2 * retries) < saturated (session.progresslessFrames + 1))
    (frames : later.progresslessFrames = saturated (session.progresslessFrames + 1))
    (_ : later.interFileHeaderErrors = 0) :
    later.gap retries + 2 ≤ session.gap retries := by
  have counted : saturated (session.progresslessFrames + 1) = session.progresslessFrames + 1 ∧
      session.progresslessFrames + 1 ≤ 2 * retries := by
    unfold saturated at *
    omega
  have drops : 2 * retries - later.progresslessFrames < 2 * retries - session.progresslessFrames := by
    omega
  have lower := @digits_lt _ _ (retries - session.interFileHeaderErrors) _ _ drops
    (Nat.sub_le retries later.interFileHeaderErrors)
  unfold Session.gap
  omega

/-- A header between files brings the measure down. -/
theorem onHeader_descends (small : retries < 2 ^ 31) (seen : 1 ≤ session.zfileSeen)
    (header : Header) :
    Descends retries (session.work retries) (session.onHeader retries header) := by
  unfold Session.onHeader
  split
  · exact descends_cancel _ _
  next within =>
    have control (later : Session) (frames : later.progresslessFrames =
        session.count.progresslessFrames) (errors : later.interFileHeaderErrors = 0)
        (files : later.zfileSeen = session.zfileSeen) (light : later.phase.work retries ≤ 1) :
        Descends retries (session.work retries) (.next later) := by
      have gap := gap_control small within frames errors
      exact descends_next seen files (by omega)
    unfold Session.answer
    cases header.kind with
    | zfile =>
      show Descends _ _ (if maxBatchFiles ≤ session.zfileSeen then _ else _)
      split
      · exact descends_cancel _ _
      next room =>
        intro later next
        cases next
        refine ⟨Nat.le_add_left 1 session.zfileSeen, ?_⟩
        have files := @digits_lt _ _ (session.gap retries) _ _
          (show maxBatchFiles - (session.zfileSeen + 1) < maxBatchFiles - session.zfileSeen by omega)
          (Nat.le_refl (fileWork retries))
        show (maxBatchFiles - (session.zfileSeen + 1)) * (fileWork retries + 1) +
          (2 * retries * (retries + 1) + retries) * 2 + (dataWork retries + 2 + retries * 2) <
            session.work retries
        have whole : fileWork retries =
          (2 * retries * (retries + 1) + retries) * 2 + (dataWork retries + 2 + retries * 2) := rfl
        unfold Session.work
        omega
    | zfin => exact descends_finish _
    | zabort => exact descends_fail _ _
    | zferr => exact descends_fail _ _
    | zsinit => exact control _ rfl rfl rfl (Nat.le_refl 1)
    | zcommand => exact control _ rfl rfl rfl (Nat.le_refl 1)
    | zstderr => exact control _ rfl rfl rfl (Nat.le_refl 1)
    | _ => exact control _ rfl rfl rfl (Nat.zero_le 1)

/-- A read between files brings the measure down. -/
theorem readBetween_descends (small : retries < 2 ^ 31) (seen : 1 ≤ session.zfileSeen)
    (phase : session.phase = .between) (reading : HeaderReading) (expired : Bool) :
    Descends retries (session.work retries) (session.readBetween retries reading expired) := by
  have opened : session.zfileSeen ≠ 0 := by omega
  cases reading with
  | got header => exact onHeader_descends small seen header
  | gone error => exact descends_fail _ error
  | late =>
    simp only [Session.readBetween, if_neg opened]
    exact descends_finish _
  | damaged error =>
    simp only [Session.readBetween, if_neg opened]
    split
    · exact descends_cancel _ _
    next within =>
      have counted : saturated (session.interFileHeaderErrors + 1) =
          session.interFileHeaderErrors + 1 := by
        unfold saturated at *
        omega
      refine descends_next seen rfl ?_
      show ((2 * retries - session.progresslessFrames) * (retries + 1) +
        (retries - saturated (session.interFileHeaderErrors + 1))) * 2 + 0 < _
      rw [phase, counted]
      unfold Session.gap
      show _ < _ + 0
      omega

/-! ### The information of a file -/

/-- One more error of a ZFILE brings the measure down. -/
theorem countZfileError_descends {crc : CrcKind} {errors : Nat} {what : String}
    {within : Nat → Session} (small : retries < 2 ^ 31) (seen : 1 ≤ session.zfileSeen)
    (kept : ∀ errors', (within errors').zfileSeen = session.zfileSeen ∧
      (within errors').gap retries = session.gap retries ∧
      (within errors').phase = .retransmit crc errors')
    (heavy : dataWork retries + 2 + (retries - errors) * 2 ≤ session.phase.work retries) :
    Descends retries (session.work retries)
      (session.countZfileError retries errors what within) := by
  show Descends _ _ (if retries < saturated (errors + 1) then _ else _)
  split
  · exact descends_cancel _ _
  next budget =>
    have counted : saturated (errors + 1) = errors + 1 := by
      unfold saturated at *
      omega
    obtain ⟨files, gap, is⟩ := kept (saturated (errors + 1))
    refine descends_next seen files ?_
    rw [gap, is, counted]
    refine Nat.add_lt_add_left
      (?_ : dataWork retries + 2 + (retries - (errors + 1)) * 2 + 1 < _) _
    omega

/-- An offered file takes less than its offer. -/
theorem offer_descends {decide : Nat → List UInt8 → Option Nat → Bool}
    (seen : 1 ≤ session.zfileSeen) (heavy : dataWork retries + 2 ≤ session.phase.work retries)
    (data : List UInt8) :
    Descends retries (session.work retries) (session.offer decide data) := by
  have between (reply : Reply) : Descends retries (session.work retries)
      ((session.reply reply).toPhase .between) :=
    descends_next seen rfl (Nat.add_lt_add_left (show 0 < _ by omega) _)
  unfold Session.offer
  split
  · exact descends_fail _ _
  next info _ =>
    split
    · split
      · exact between _
      · have light := Incoming.work_le retries ⟨info, [], 0, 0, 0, false⟩
        exact descends_next seen rfl
          (Nat.add_lt_add_left (show Incoming.work retries _ + 1 < _ by omega) _)
    · exact between _

/-- A read of the information of a file brings the measure down. -/
theorem readInfo_descends {decide : Nat → List UInt8 → Option Nat → Bool} {crc : CrcKind}
    {errors : Nat} (small : retries < 2 ^ 31) (seen : 1 ≤ session.zfileSeen)
    (phase : session.phase = .info crc errors) (reading : SubpacketReading) :
    Descends retries (session.work retries) (session.readInfo retries decide crc errors reading) := by
  have work : session.phase.work retries = dataWork retries + 2 + (retries - errors) * 2 := by
    rw [phase]; rfl
  cases reading with
  | got subpacket => exact offer_descends seen (by omega) subpacket.data
  | gone error => exact descends_fail _ error
  | damaged error =>
    simp only [Session.readInfo]
    exact countZfileError_descends small seen (fun _ => ⟨rfl, rfl, rfl⟩) (Nat.le_of_eq work.symm)

/-- So does the read of a header of a ZFILE asked for again. -/
theorem readRetransmit_descends {crc : CrcKind} {errors : Nat} (small : retries < 2 ^ 31)
    (seen : 1 ≤ session.zfileSeen) (phase : session.phase = .retransmit crc errors)
    (reading : HeaderReading) :
    Descends retries (session.work retries)
      (session.readRetransmit retries crc errors reading) := by
  have work : session.phase.work retries = dataWork retries + 2 + (retries - errors) * 2 + 1 := by
    rw [phase]; rfl
  have heavy : dataWork retries + 2 + (retries - errors) * 2 ≤ session.phase.work retries := by
    omega
  cases reading with
  | gone error => exact descends_fail _ error
  | damaged error =>
    simp only [Session.readRetransmit]
    exact countZfileError_descends small seen (fun _ => ⟨rfl, rfl, rfl⟩) heavy
  | late =>
    simp only [Session.readRetransmit]
    exact countZfileError_descends small seen (fun _ => ⟨rfl, rfl, rfl⟩) heavy
  | got header =>
    simp only [Session.readRetransmit]
    cases header.kind with
    | zabort => exact descends_fail _ _
    | zfile =>
      refine descends_next seen rfl ?_
      refine Nat.add_lt_add_left (?_ : dataWork retries + 2 + (retries - errors) * 2 < _) _
      omega
    | _ => exact countZfileError_descends small seen (fun _ => ⟨rfl, rfl, rfl⟩) heavy

/-! ### The data of a file -/

/-- An error of the data phase is taken from the budget of those. -/
theorem Incoming.work_error {file : Incoming} (budget : file.errors + 1 ≤ retries) :
    ({ file with errors := file.errors + 1 } : Incoming).work retries + 2 ≤ file.work retries := by
  show (file.room * (retries + 1) + (retries - (file.errors + 1))) * 2 + 2 ≤ _
  unfold Incoming.work
  omega

/-- A good subpacket leaves a file less to take. -/
theorem Incoming.work_extend {file : Incoming} {data : List UInt8}
    (filled : (file.extend data).emptySubpackets ≤ maxEmptySubpackets)
    (fits : (file.extend data).data.length ≤ maxFileSize) :
    (file.extend data).work retries + 2 ≤ file.work retries := by
  have room : (file.extend data).room < file.room := by
    unfold Incoming.room Incoming.extend at *
    cases data with
    | nil =>
      simp only [List.append_nil, if_true] at *
      omega
    | cons byte data =>
      simp only [List.length_append, List.length_cons, reduceCtorEq, if_false] at *
      unfold maxEmptySubpackets at *
      omega
  have lower := @digits_lt _ _ (retries - file.errors) _ _ room
    (Nat.sub_le retries (file.extend data).errors)
  unfold Incoming.work
  omega

/-- One more error of the data phase brings the measure down. -/
theorem countError_descends {file : Incoming} {within : Incoming → Session}
    (seen : 1 ≤ session.zfileSeen)
    (kept : ∀ file, (within file).zfileSeen = session.zfileSeen ∧
      (within file).gap retries = session.gap retries ∧ (within file).phase = .header file)
    (heavy : file.work retries ≤ session.phase.work retries) :
    Descends retries (session.work retries) (session.countError retries file within) := by
  show Descends _ _ (if 2 ^ 32 ≤ file.errors + 1 then _ else if retries < file.errors + 1 then _ else _)
  split
  · intro later next
    cases next
  · split
    · exact descends_cancel _ _
    next budget =>
      have light := @Incoming.work_error retries file (by omega)
      obtain ⟨files, gap, is⟩ := kept { file with errors := file.errors + 1 }
      refine descends_next seen files ?_
      rw [gap, is]
      refine Nat.add_lt_add_left (?_ : Incoming.work retries _ + 1 < _) _
      omega

/-- So does an error that is answered with the position. -/
theorem nakOrAbort_descends {file : Incoming} (seen : 1 ≤ session.zfileSeen)
    (heavy : file.work retries ≤ session.phase.work retries) :
    Descends retries (session.work retries) (session.nakOrAbort retries file) :=
  countError_descends seen (fun _ => ⟨rfl, rfl, rfl⟩) heavy

/-- A read of a header of the data phase brings the measure down. -/
theorem readHeader_descends {file : Incoming} (seen : 1 ≤ session.zfileSeen)
    (phase : session.phase = .header file) (reading : HeaderReading) :
    Descends retries (session.work retries) (session.readHeader retries file reading) := by
  have work : session.phase.work retries = file.work retries + 1 := by rw [phase]; rfl
  have nak : Descends retries (session.work retries) (session.nakOrAbort retries file) :=
    nakOrAbort_descends seen (by omega)
  cases reading with
  | gone error => exact descends_fail _ error
  | damaged error => exact nak
  | late => exact nak
  | got header =>
    simp only [Session.readHeader]
    cases header.kind with
    | zabort => exact descends_fail _ _
    | zrqinit => exact countError_descends seen (fun _ => ⟨rfl, rfl, rfl⟩) (by omega)
    | zdata =>
      simp only
      split
      · exact nak
      · refine descends_next seen rfl (Nat.add_lt_add_left (?_ : file.work retries < _) _)
        omega
    | zeof =>
      have ignored (eofIgnored : Bool) :
          ({ file with eofIgnored := eofIgnored } : Incoming).work retries ≤
            session.phase.work retries := Nat.le_trans (Nat.le_succ _) (Nat.le_of_eq work.symm)
      simp only
      split
      · split
        · exact nakOrAbort_descends seen (ignored false)
        · exact countError_descends seen (fun _ => ⟨rfl, rfl, rfl⟩) (ignored true)
      · exact descends_next seen rfl (Nat.add_lt_add_left (show 0 < _ by omega) _)
    | _ => exact nak

/-- A read of a subpacket of a ZDATA brings the measure down. -/
theorem readBody_descends {crc : CrcKind} {file : Incoming} (seen : 1 ≤ session.zfileSeen)
    (phase : session.phase = .body crc file) (reading : SubpacketReading) :
    Descends retries (session.work retries) (session.readBody retries crc file reading) := by
  have work : session.phase.work retries = file.work retries := by rw [phase]; rfl
  cases reading with
  | gone error => exact descends_fail _ error
  | damaged error => exact nakOrAbort_descends seen (Nat.le_of_eq work.symm)
  | got subpacket =>
    simp only [Session.readBody]
    split
    · exact descends_cancel _ _
    next filled =>
      split
      · exact descends_cancel _ _
      next fits =>
        have light := @Incoming.work_extend retries file subpacket.data (by omega) (by omega)
        have body (later : Session) (files : later.zfileSeen = session.zfileSeen)
            (gap : later.gap retries = session.gap retries)
            (lighter : later.phase.work retries ≤ (file.extend subpacket.data).work retries + 1) :
            Descends retries (session.work retries) (.next later) :=
          descends_next seen files (by omega)
        cases subpacket.endMarker with
        | zcrcg => exact body _ rfl rfl (Nat.le_succ _)
        | zcrcq => exact body _ rfl rfl (Nat.le_succ _)
        | zcrcw => exact body _ rfl rfl (Nat.le_refl _)
        | zcrce => exact body _ rfl rfl (Nat.le_refl _)

/-! ### A read -/

/-- A read of a receiver that has seen a file returns, or brings the measure down. -/
theorem step_descends {decide : Nat → List UInt8 → Option Nat → Bool} (small : retries < 2 ^ 31)
    (seen : 1 ≤ session.zfileSeen) (arrival : Arrival) :
    Descends retries (session.work retries) (step retries decide session arrival) := by
  have drained (at' : session.phase.work retries = 1) (later : Session)
      (files : later.zfileSeen = session.zfileSeen)
      (gap : later.gap retries = session.gap retries) (between : later.phase = .between) :
      Descends retries (session.work retries) (.next later) := by
    refine descends_next seen files ?_
    rw [gap, between, at']
    exact Nat.lt_succ_self _
  unfold step
  split
  next phase => exact readBetween_descends small seen phase arrival.header arrival.expired
  next crc phase =>
    have at' : session.phase.work retries = 1 := by rw [phase]; rfl
    unfold Session.readAttention
    split
    · exact descends_fail _ _
    · exact drained at' _ rfl rfl rfl
  next crc phase =>
    unfold Session.readCommand
    split <;> exact descends_fail _ _
  next crc phase =>
    have at' : session.phase.work retries = 1 := by rw [phase]; rfl
    unfold Session.readMessage
    split
    · exact descends_fail _ _
    · exact drained at' _ rfl rfl rfl
  next crc errors phase => exact readInfo_descends small seen phase _
  next crc errors phase => exact readRetransmit_descends small seen phase arrival.header
  next file phase => exact readHeader_descends seen phase arrival.header
  next crc file phase => exact readBody_descends seen phase _

/-! ## The end of a session -/

/-- A receiver that has seen a file returns within the bound. -/
theorem returns_within_readBound {decide : Nat → List UInt8 → Option Nat → Bool}
    (small : retries < 2 ^ 31) (seen : 1 ≤ session.zfileSeen) (arrivals : Nat → Arrival) :
    ReturnsWithin (step retries decide) arrivals (readBound retries + 1) session :=
  @returnsWithin_of_measure _ _ _ (step retries decide) (fun state => 1 ≤ state.zfileSeen)
    (fun state => state.work retries)
    (fun _ arrival later seen next => step_descends small seen arrival later next) arrivals _
    session seen (Nat.lt_succ_of_le (session.work_le retries))

/-- Once a receiver has read its first ZFILE, it returns within a number of reads that depends on
the retry limit alone, whatever it is asked to decide and whatever arrives. -/
def ReturnsAfterFirstFile (retries : Nat) : Prop :=
  ∃ bound, ∀ (decide : Nat → List UInt8 → Option Nat → Bool) (arrivals : Nat → Arrival)
    (count : Nat) (session : Session),
    run (step retries decide) arrivals count .start = .next session → session.zfileSeen ≠ 0 →
      ReturnsWithin (step retries decide) (fun i => arrivals (count + i)) bound session

/-- A header with a frame type and no data. -/
def Header.plain (frame : UInt8) : Header := ⟨frame, #v[0, 0, 0, 0], .crc16⟩

/-- A ZFILE with a name alone, and then ZRQINIT without end. -/
def controlFlood (i : Nat) : Arrival :=
  { header := .got (.plain (if i = 0 then 0x04 else 0x00))
    subpacket := fun _ _ => .got ⟨[0x41, 0], .zcrcw⟩
    expired := false }

/-- Where a receiver that declines its file is when the flood has come to a reading. -/
def Flooded : Nat → Session → Prop
  | 0, session => session = .start
  | 1, session => session = { Session.start with zfileSeen := 1, phase := .info .crc16 0 }
  | _, session => session.zfileSeen = 1 ∧ session.phase = .between

/-- With a retry limit whose double no counter passes, every header between files is answered. -/
theorem onHeader_answers (large : 2 ^ 31 ≤ retries) (header : Header) :
    session.onHeader retries header = session.count.answer header := by
  have within : ¬ saturated (2 * retries) < session.count.progresslessFrames := by
    show ¬ saturated (2 * retries) < saturated (session.progresslessFrames + 1)
    unfold saturated
    omega
  exact if_neg within

/-- So the flood keeps such a receiver reading. -/
theorem flooded_step (large : 2 ^ 31 ≤ retries) (i : Nat) (session : Session)
    (flooded : Flooded i session) :
    ∃ later, step retries (fun _ _ _ => false) session (controlFlood i) = .next later ∧
      Flooded (i + 1) later := by
  match i, flooded with
  | 0, flooded =>
    subst flooded
    exact ⟨_, onHeader_answers large (.plain 0x04), rfl⟩
  | 1, flooded =>
    subst flooded
    exact ⟨_, rfl, rfl, rfl⟩
  | i + 2, ⟨files, phase⟩ =>
    refine ⟨{ session.count.reply .zrinit with phase := .between }, ?_, files, rfl⟩
    unfold step
    rw [phase]
    exact onHeader_answers large (.plain 0x00)

/-- The flood runs on for ever. -/
theorem flood_runs (large : 2 ^ 31 ≤ retries) (count : Nat) :
    ∃ later, run (step retries fun _ _ _ => false) controlFlood count .start = .next later ∧
      Flooded count later := run_kept (flooded_step large) rfl count

/-- After a ZFILE has been read, a receiver is through within a bounded number of reads exactly
when twice its retry limit is below the largest count. -/
theorem receiver_not_held_iff (retries : Nat) : ReturnsAfterFirstFile retries ↔ retries < 2 ^ 31 := by
  constructor
  · rintro ⟨bound, returns⟩
    by_contra large
    obtain ⟨first, ran, flooded⟩ := flood_runs (Nat.le_of_not_lt large) 1
    have seen : first.zfileSeen ≠ 0 := by
      rw [show first = _ from flooded]
      exact Nat.one_ne_zero
    obtain ⟨later, on, _⟩ := @run_kept _ _ _ (step retries fun _ _ _ => false)
      (fun i => Flooded (1 + i)) (fun i => controlFlood (1 + i))
      (fun i => flooded_step (Nat.le_of_not_lt large) (1 + i)) first flooded bound
    exact not_returnsWithin on (returns _ controlFlood 1 first ran seen)
  · intro small
    refine ⟨readBound retries + 1, fun decide arrivals count session _ seen => ?_⟩
    exact returns_within_readBound small (Nat.pos_of_ne_zero seen) _

/-- With a retry limit of half the range of a counter, a peer that sends one ZFILE and then ZRQINIT
again and again holds the receiver. -/
theorem control_frames_hold_receiver :
    (∃ session, run (step 2147483648 fun _ _ _ => false) controlFlood 1 .start = .next session ∧
      session.zfileSeen = 1) ∧
    ∀ count, ¬ ReturnsWithin (step 2147483648 fun _ _ _ => false) controlFlood count .start := by
  constructor
  · obtain ⟨session, ran, flooded⟩ := @flood_runs 2147483648 (by decide) 1
    exact ⟨session, ran, by rw [show session = _ from flooded]⟩
  · intro count
    obtain ⟨session, ran, _⟩ := @flood_runs 2147483648 (by decide) count
    exact not_returnsWithin ran

end EthernetGateway.Transfer.Zmodem
