import EthernetGateway.Stepping
import EthernetGateway.Transfer.XmodemEot

/-!
# How long an XMODEM sender can hold a receiver

A new block uses up the file, and a new file uses up the batch. What is damaged or stray, and what
does not come, is counted against the retries; an end of transmission is NAKed once and a CAN is
let pass once before either ends something. A duplicate is answered and counted nowhere. So the
main loop returns within a bound exactly when the duplicates are bounded.
-/

namespace EthernetGateway.Transfer.Xmodem

open EthernetGateway.Stepping

/-! ## The loop as a machine -/

/-- One turn of the main loop, which reads its line by itself. -/
def Receiver.step (config : Config) (receiver : Receiver) (_ : Unit) : Progress Receiver Outcome :=
  match (receiver.turn config).2 with
  | .next later => .next later
  | outcome => .returned outcome

/-- A turn about a duplicate: 1, and 0 for any other. -/
def Receiver.duplicates (config : Config) (receiver : Receiver) (_ : Unit) : Nat :=
  if (receiver.turn config).1 = .duplicate then 1 else 0

/-- A machine that goes on has had a turn that goes on. -/
theorem turn_of_step {config : Config} {receiver later : Receiver}
    (next : receiver.step config () = .next later) : (receiver.turn config).2 = .next later := by
  unfold Receiver.step at next
  cases outcome : (receiver.turn config).2 with
  | next found =>
    rw [outcome] at next
    injection next with same
    rw [same]
  | finished found =>
    rw [outcome] at next
    cases next
  | failed reason found =>
    rw [outcome] at next
    cases next

/-! ## What the reads take -/

/-- A read of several bytes that succeeds has read them all. -/
theorem readMany_length {limit count left : Nat} {line rest : Line} {bytes : List UInt8}
    (read : line.readMany limit count = (.got bytes, left, rest)) : bytes.length = count := by
  induction count generalizing limit line bytes with
  | zero =>
    cases read
    rfl
  | succ count ih =>
    unfold Line.readMany at read
    split at read
    · split at read
      · rename_i values _ _ later
        cases read
        rw [List.length_cons, ih later]
      · cases read
      · cases read
    · cases read
    · cases read

/-- A block that is accepted brings as many bytes as its size. -/
theorem receiveBlock_accepted {expected : UInt8} {mode : TransferMode} {size : Nat}
    {line rest : Line} {data : List UInt8}
    (accepted : receiveBlock expected mode size line = (.accepted data, rest)) :
    data.length = size := by
  unfold receiveBlock at accepted
  split at accepted
  next number complement bytes _ _ read =>
    have length := readMany_length read
    simp only [List.length_cons] at length
    have same : checkBlock expected mode number complement (bytes.take size) (bytes.drop size) =
        .accepted data := congrArg Prod.fst accepted
    unfold checkBlock at same
    split at same
    · cases same
    · split at same
      · cases same
      · split at same
        · cases same
        · split at same
          · cases same
          · cases same
            rw [List.length_take]
            omega
  next => cases accepted

/-! ## What a turn uses up -/

/-- The files and the data of a receiver are those of another. -/
def Receiver.Holds (receiver later : Receiver) : Prop :=
  later.files = receiver.files ∧ later.fileData = receiver.fileData

/-- What an event uses up. -/
def Receiver.Spends (config : Config) (receiver later : Receiver) : Event → Prop
  | .accepted =>
    later.files = receiver.files ∧ receiver.fileData.length < later.fileData.length ∧
      later.fileData.length ≤ maxFileSize
  | .duplicate => receiver.Holds later
  | .damaged | .stray | .silent =>
    receiver.Holds later ∧ later.errorCount = receiver.errorCount + 1 ∧
      later.errorCount ≤ config.maxRetries
  | .naked =>
    receiver.Holds later ∧ later.errorCount = receiver.errorCount ∧
      receiver.eotNaked = false ∧ later.eotNaked = true
  | .lone =>
    receiver.Holds later ∧ later.errorCount = receiver.errorCount ∧
      later.eotNaked = receiver.eotNaked ∧ receiver.pendingCan = false ∧ later.pendingCan = true
  | .closed _ _ =>
    later.files.length = receiver.files.length + 1 ∧ later.files.length < maxBatchFiles ∧
      later.fileData = []
  | .gaveUp => False

/-- A turn that goes on has used up what its event says. -/
def Receiver.Pays (config : Config) (receiver : Receiver) (result : Event × Outcome) : Prop :=
  ∀ later, result.2 = .next later → receiver.Spends config later result.1

namespace Receiver

variable {config : Config} {receiver taken : Receiver}

/-- A turn that goes on to a receiver that has paid. -/
theorem pays_next {later : Receiver} {event : Event} (spent : receiver.Spends config later event) :
    receiver.Pays config (event, .next later) := by
  intro found next
  injection next with same
  exact same ▸ spent

/-- A turn that fails has nothing to pay. -/
theorem pays_failed (event : Event) (reason : String) (later : Receiver) :
    receiver.Pays config (event, .failed reason later) := by
  intro found next
  cases next

/-- A turn that gives up has nothing to pay. -/
theorem pays_cancel (reason : String) (later : Receiver) :
    receiver.Pays config (later.cancel reason) :=
  pays_failed _ _ _

/-- A purge after an error that was counted. -/
theorem pays_purgeAndNak {event : Event} (counts : event = .damaged ∨ event = .stray)
    (holds : receiver.Holds taken) (counted : taken.errorCount = receiver.errorCount + 1)
    (retried : taken.errorCount ≤ config.maxRetries) :
    receiver.Pays config (taken.purgeAndNak event) := by
  unfold purgeAndNak
  split
  · exact pays_failed _ _ _
  · apply pays_next
    rcases counts with damaged | stray
    · subst damaged
      exact ⟨holds, counted, retried⟩
    · subst stray
      exact ⟨holds, counted, retried⟩

/-- The arm for a start of a block. -/
theorem pays_block {size : Nat} (positive : 0 < size) (holds : receiver.Holds taken)
    (errors : taken.errorCount = receiver.errorCount) :
    receiver.Pays config (taken.block config size) := by
  obtain ⟨files, data⟩ := holds
  unfold block
  split
  next bytes line accepted =>
    have length := receiveBlock_accepted accepted
    dsimp only
    split
    · exact pays_cancel _ _
    · rename_i fits
      apply pays_next
      have longer : (taken.fileData ++ bytes).length = receiver.fileData.length + size := by
        rw [List.length_append, data, length]
      refine ⟨files, ?_, ?_⟩
      · show receiver.fileData.length < (taken.fileData ++ bytes).length
        omega
      · show (taken.fileData ++ bytes).length ≤ maxFileSize
        rw [List.length_append]
        exact Nat.le_of_not_lt fits
  next => exact pays_next ⟨files, data⟩
  next => exact pays_cancel _ _
  next =>
    dsimp only
    split
    · exact pays_cancel _ _
    · rename_i retried
      apply pays_purgeAndNak (.inl rfl)
      · exact ⟨files, data⟩
      · exact congrArg (· + 1) errors
      · exact Nat.le_of_not_lt retried

/-- What follows a closed file. -/
theorem interFile_spends {later : Receiver} {how : Closing} {guarded : Bool}
    (closed : taken.files.length = receiver.files.length + 1) (empty : taken.fileData = [])
    (next : taken.interFile config = .next later) :
    receiver.Spends config later (.closed how guarded) := by
  unfold interFile at next
  dsimp only at next
  split at next
  · split at next
    · cases next
    · rename_i room
      injection next with same
      subst same
      exact ⟨closed, Nat.lt_of_not_le room, empty⟩
  · cases next
  · cases next

/-- The arm for an end of transmission. -/
theorem pays_endOfFile (how : Closing) (holds : receiver.Holds taken)
    (errors : taken.errorCount = receiver.errorCount)
    (naked : taken.eotNaked = receiver.eotNaked) :
    receiver.Pays config (taken.endOfFile config how) := by
  unfold endOfFile
  split
  · rename_i verified
    simp only [Bool.and_eq_true, Bool.not_eq_true'] at verified
    exact pays_next ⟨holds, errors, naked ▸ verified.2, rfl⟩
  · intro later next
    dsimp only at next
    split at next
    · apply interFile_spends _ rfl next
      show (taken.files ++ [_]).length = _
      rw [List.length_append, holds.1]
      rfl
    · cases next

/-- The arm for a byte that starts nothing. -/
theorem pays_strayByte (holds : receiver.Holds taken)
    (errors : taken.errorCount = receiver.errorCount) :
    receiver.Pays config (taken.strayByte config) := by
  unfold strayByte
  dsimp only
  split
  · exact pays_cancel _ _
  · rename_i retried
    apply pays_purgeAndNak (.inr rfl)
    · exact holds
    · exact congrArg (· + 1) errors
    · exact Nat.le_of_not_lt retried

/-- The arm for a timeout. -/
theorem pays_timeout (holds : receiver.Holds taken)
    (errors : taken.errorCount = receiver.errorCount)
    (naked : taken.eotNaked = receiver.eotNaked) :
    receiver.Pays config (taken.timeout config) := by
  unfold timeout
  split
  · exact pays_endOfFile _ holds errors naked
  · split
    · exact pays_cancel _ _
    · dsimp only
      split
      · exact pays_cancel _ _
      · rename_i retried
        exact pays_next ⟨holds, congrArg (· + 1) errors, Nat.le_of_not_lt retried⟩

/-- A byte read at the top of the loop. -/
theorem pays_take (byte : UInt8) (holds : receiver.Holds taken)
    (errors : taken.errorCount = receiver.errorCount)
    (naked : taken.eotNaked = receiver.eotNaked) (pending : taken.pendingCan = receiver.pendingCan) :
    receiver.Pays config (taken.take config byte) := by
  unfold take
  dsimp only
  split
  · exact pays_failed _ _ _
  · rename_i first
    split
    · exact pays_block (by decide) holds errors
    · split
      · exact pays_block (by decide) holds errors
      · split
        · exact pays_endOfFile _ holds errors naked
        · split
          · rename_i lone
            have fresh : receiver.pendingCan = false := by
              rw [← pending]
              exact Bool.eq_false_iff.mpr fun up => first ⟨lone, up⟩
            exact pays_next ⟨holds, errors, naked, fresh, decide_eq_true lone⟩
          · exact pays_strayByte holds errors

/-- Every turn of the main loop that goes on has used up what its event says. -/
theorem turn_pays (config : Config) (receiver : Receiver) :
    receiver.Pays config (receiver.turn config) := by
  unfold turn
  split
  · exact pays_take _ ⟨rfl, rfl⟩ rfl rfl rfl
  · exact pays_failed _ _ _
  · exact pays_timeout ⟨rfl, rfl⟩ rfl rfl

/-! ## The bound -/

/-- The files and the data that can still come, with a budget of duplicates. -/
def remaining (budget : Nat) (receiver : Receiver) : Nat :=
  budget + ((maxBatchFiles + 1 - receiver.files.length) * (maxFileSize + 1) +
    (maxFileSize - receiver.fileData.length))

/-- The errors that can still come. -/
def tries (config : Config) (budget : Nat) (receiver : Receiver) : Nat :=
  receiver.remaining budget * (config.maxRetries + 1 + 1) +
    (config.maxRetries + 1 - receiver.errorCount)

/-- The ends of transmission that can still be NAKed. -/
def ends (config : Config) (budget : Nat) (receiver : Receiver) : Nat :=
  receiver.tries config budget * (1 + 1) + (if receiver.eotNaked then 0 else 1)

/-- The turns that can still come. -/
def turns (config : Config) (budget : Nat) (receiver : Receiver) : Nat :=
  receiver.ends config budget * (1 + 1) + (if receiver.pendingCan then 0 else 1)

variable {later : Receiver} {budget budget' : Nat}

/-- What is taken from the files and the data brings the turns down, whatever it clears. -/
theorem turns_of_remaining (config : Config)
    (less : later.remaining budget' < receiver.remaining budget) :
    later.turns config budget' < receiver.turns config budget := by
  have errors := @digits_lt _ _ (config.maxRetries + 1 - receiver.errorCount)
    (config.maxRetries + 1 - later.errorCount) (config.maxRetries + 1) less (Nat.sub_le _ _)
  have naked := @digits_lt _ _ (if receiver.eotNaked then 0 else 1)
    (if later.eotNaked then 0 else 1) 1 errors (by split <;> omega)
  exact @digits_lt _ _ (if receiver.pendingCan then 0 else 1) (if later.pendingCan then 0 else 1) 1
    naked (by split <;> omega)

/-- An error that is counted brings the turns down, whatever it clears. -/
theorem turns_of_error (same : later.remaining budget = receiver.remaining budget)
    (counted : later.errorCount = receiver.errorCount + 1)
    (retried : later.errorCount ≤ config.maxRetries) :
    later.turns config budget < receiver.turns config budget := by
  have errors : later.tries config budget < receiver.tries config budget := by
    unfold tries
    rw [same]
    omega
  have naked := @digits_lt _ _ (if receiver.eotNaked then 0 else 1)
    (if later.eotNaked then 0 else 1) 1 errors (by split <;> omega)
  exact @digits_lt _ _ (if receiver.pendingCan then 0 else 1) (if later.pendingCan then 0 else 1) 1
    naked (by split <;> omega)

/-- What holds the same files and data has as much to come. -/
theorem remaining_holds (holds : receiver.Holds later) (budget : Nat) :
    later.remaining budget = receiver.remaining budget := by
  unfold remaining
  rw [holds.1, holds.2]

/-- A turn that goes on brings down the turns that can still come, when a duplicate is paid for. -/
theorem step_turns (paid : receiver.duplicates config () ≤ budget)
    (next : receiver.step config () = .next later) :
    later.turns config (budget - receiver.duplicates config ()) <
      receiver.turns config budget := by
  have spent := turn_pays config receiver later (turn_of_step next)
  unfold duplicates at paid ⊢
  cases event : (receiver.turn config).1 with
  | duplicate =>
    rw [event] at spent paid
    apply turns_of_remaining
    have same := remaining_holds spent (budget - 1)
    rw [if_pos rfl, same]
    rw [if_pos rfl] at paid
    unfold remaining
    omega
  | accepted =>
    rw [event] at spent
    rw [if_neg (by decide), Nat.sub_zero]
    apply turns_of_remaining
    obtain ⟨files, more, fits⟩ := spent
    unfold remaining
    rw [files]
    omega
  | damaged =>
    rw [event] at spent
    rw [if_neg (by decide), Nat.sub_zero]
    exact turns_of_error (remaining_holds spent.1 budget) spent.2.1 spent.2.2
  | stray =>
    rw [event] at spent
    rw [if_neg (by decide), Nat.sub_zero]
    exact turns_of_error (remaining_holds spent.1 budget) spent.2.1 spent.2.2
  | silent =>
    rw [event] at spent
    rw [if_neg (by decide), Nat.sub_zero]
    exact turns_of_error (remaining_holds spent.1 budget) spent.2.1 spent.2.2
  | lone =>
    rw [event] at spent
    obtain ⟨holds, errors, naked, fresh, up⟩ := spent
    rw [if_neg (by decide), Nat.sub_zero]
    unfold turns ends tries
    rw [remaining_holds holds budget, errors, naked, fresh, up]
    exact Nat.add_lt_add_left (by decide) _
  | naked =>
    rw [event] at spent
    obtain ⟨holds, errors, fresh, up⟩ := spent
    rw [if_neg (by decide), Nat.sub_zero]
    have fewer : later.ends config budget < receiver.ends config budget := by
      unfold ends tries
      rw [remaining_holds holds budget, errors, fresh, up]
      exact Nat.add_lt_add_left (by decide) _
    exact @digits_lt _ _ (if receiver.pendingCan then 0 else 1)
      (if later.pendingCan then 0 else 1) 1 fewer (by split <;> omega)
  | closed how guarded =>
    rw [event] at spent
    obtain ⟨files, room, empty⟩ := spent
    rw [if_neg (by simp), Nat.sub_zero]
    apply turns_of_remaining
    have fewer := @digits_lt (maxBatchFiles + 1 - receiver.files.length)
      (maxBatchFiles + 1 - later.files.length) (maxFileSize - receiver.fileData.length)
      (maxFileSize - later.fileData.length) maxFileSize (by omega) (Nat.sub_le _ _)
    unfold remaining
    omega
  | gaveUp =>
    rw [event] at spent
    exact spent.elim

end Receiver

/-- The turns within which a receiver returns, when there are so many duplicates at most. -/
def turnBound (retries most : Nat) : Nat :=
  (((most + ((maxBatchFiles + 1) * (maxFileSize + 1) + maxFileSize)) * (retries + 1 + 1) +
    (retries + 1)) * (1 + 1) + 1) * (1 + 1) + 1 + 1

/-- No receiver can take more turns than the bound. -/
theorem turns_lt (config : Config) (most : Nat) (receiver : Receiver) :
    receiver.turns config most < turnBound config.maxRetries most := by
  have files : (maxBatchFiles + 1 - receiver.files.length) * (maxFileSize + 1) ≤
      (maxBatchFiles + 1) * (maxFileSize + 1) := Nat.mul_le_mul_right _ (Nat.sub_le _ _)
  have data : maxFileSize - receiver.fileData.length ≤ maxFileSize := Nat.sub_le _ _
  have remaining : receiver.remaining most ≤
      most + ((maxBatchFiles + 1) * (maxFileSize + 1) + maxFileSize) :=
    Nat.add_le_add_left (Nat.add_le_add files data) most
  have tries := Nat.add_le_add (Nat.mul_le_mul_right (config.maxRetries + 1 + 1) remaining)
    (Nat.sub_le (config.maxRetries + 1) receiver.errorCount)
  have naked : (if receiver.eotNaked then 0 else 1) ≤ 1 := by split <;> omega
  have ends := Nat.add_le_add (Nat.mul_le_mul_right (1 + 1) tries) naked
  have pending : (if receiver.pendingCan then 0 else 1) ≤ 1 := by split <;> omega
  exact Nat.lt_succ_of_le (Nat.add_le_add (Nat.mul_le_mul_right (1 + 1) ends) pending)

/-- A receiver returns within the bound, where the duplicates are so many. -/
theorem returns_within_turnBound {config : Config} {most : Nat} {receiver : Receiver}
    (few : tally (Receiver.step config) (Receiver.duplicates config) (fun _ => ())
      (turnBound config.maxRetries most) receiver ≤ most) :
    ReturnsWithin (Receiver.step config) (fun _ => ()) (turnBound config.maxRetries most) receiver :=
  @returnsWithin_of_potential _ _ _ (Receiver.step config) (fun _ => True)
    (Receiver.duplicates config) (Receiver.turns config) most
    (fun _ _ _ _ _ next paid _ => ⟨trivial, Receiver.step_turns paid next⟩) _ _ most receiver
    trivial (turns_lt config most receiver) few (Nat.le_refl _)

/-- The duplicates of a run that returns are no more than its turns. -/
theorem duplicates_le_of_returns {config : Config} {bound : Nat} {receiver : Receiver}
    (returns : ReturnsWithin (Receiver.step config) (fun _ => ()) bound receiver) (count : Nat) :
    tally (Receiver.step config) (Receiver.duplicates config) (fun _ => ()) count receiver ≤
      bound := by
  have once : ∀ (receiver : Receiver) input, receiver.duplicates config input ≤ 1 := by
    intro receiver input
    unfold Receiver.duplicates
    split <;> omega
  have light := @tally_le_of_returns _ _ _ (Receiver.step config) (Receiver.duplicates config)
    (fun _ => 0) (fun receiver input _ _ => once receiver input)
    (fun receiver input _ _ => once receiver input) _ bound receiver returns count
  rwa [Nat.zero_add] at light

/-! ## What a turn takes from the line -/

/-- The receiver a turn ends with. -/
def Outcome.receiver : Outcome → Receiver
  | .next receiver => receiver
  | .finished receiver => receiver
  | .failed _ receiver => receiver

/-- No more than so many items have been taken from a line. -/
def TakesAtMost (most : Nat) (line rest : Line) : Prop := line.length ≤ rest.length + most

/-- One read takes one item. -/
theorem read_takes (limit : Nat) (line : Line) : TakesAtMost 1 line (line.read limit).2.2 := by
  unfold TakesAtMost Line.read
  split
  · exact Nat.zero_le _
  · split
    · split <;> exact Nat.le_refl _
    · exact Nat.le_succ _

/-- A read of several bytes takes no more items than bytes. -/
theorem readMany_takes (limit : Nat) (line : Line) (count : Nat) :
    TakesAtMost count line (line.readMany limit count).2.2 := by
  induction count generalizing limit line with
  | zero => exact Nat.le_refl _
  | succ count ih =>
    have first := read_takes limit line
    unfold Line.readMany
    unfold TakesAtMost at first ih ⊢
    split
    next value left rest read =>
      rw [read] at first
      have later := ih left rest
      split
      all_goals
        rename_i taken
        rw [taken] at later
        simp only at first later ⊢
        omega
    next reason left rest read =>
      rw [read] at first
      simp only at first ⊢
      omega
    next left rest read =>
      rw [read] at first
      simp only at first ⊢
      omega

/-- A purge takes no more items than its budget. -/
theorem purgeFrom_takes (elapsed trailing : Nat) (line : Line) (budget : Nat) :
    TakesAtMost budget line (purgeFrom elapsed trailing line budget).2 := by
  induction budget generalizing elapsed trailing line with
  | zero => exact Nat.le_refl _
  | succ budget ih =>
    have first := read_takes 1000 line
    unfold purgeFrom
    unfold TakesAtMost at first ih ⊢
    split
    · exact Nat.le_add_right _ _
    · split
      next value left rest read =>
        rw [read] at first
        simp only at first ⊢
        exact Nat.le_trans first (Nat.succ_le_succ (ih _ _ rest))
      next reason left rest read =>
        rw [read] at first
        simp only at first ⊢
        omega
      next left rest read =>
        rw [read] at first
        split
        all_goals
          simp only at first ⊢
          omega

/-- What two readings take, one after the other. -/
theorem TakesAtMost.trans {first second : Nat} {line middle rest : Line}
    (earlier : TakesAtMost first line middle) (later : TakesAtMost second middle rest) :
    TakesAtMost (first + second) line rest := by
  unfold TakesAtMost at earlier later ⊢
  omega

/-- A limit on what is taken can be raised. -/
theorem TakesAtMost.mono {fewer more : Nat} {line rest : Line}
    (taken : TakesAtMost fewer line rest) (le : fewer ≤ more) : TakesAtMost more line rest :=
  Nat.le_trans taken (Nat.add_le_add_left le _)

/-- What a reading and the one after it take. -/
theorem andThen_takes {α β : Type} {first second : Nat} {line : Line}
    {reading : Reading α × Nat × Line} {next : α → Nat → Line → Reading β × Nat × Line}
    (earlier : TakesAtMost first line reading.2.2)
    (later : ∀ value left rest, TakesAtMost second rest (next value left rest).2.2) :
    TakesAtMost (first + second) line (Reading.andThen reading next).2.2 := by
  unfold Reading.andThen
  split
  · exact earlier.trans (later _ _ _)
  · exact earlier.mono (Nat.le_add_right _ _)
  · exact earlier.mono (Nat.le_add_right _ _)

/-- The most bytes of a block 0. -/
def interFileBytes : Nat := 1 + (2 + (blockSize1k + 2))

/-- An attempt to read the block 0 between two files takes no more than its bytes. -/
theorem readInterFile_takes (limit : Nat) (line : Line) :
    TakesAtMost interFileBytes line (readInterFile limit line).2.2 := by
  unfold readInterFile interFileBytes
  apply andThen_takes (read_takes limit line)
  intro start left line
  split
  · exact Nat.le_add_right _ _
  · apply andThen_takes (readMany_takes left line 2)
    intro header left line
    split
    · exact Nat.le_add_right _ _
    · unfold readBlockZeroBody
      show TakesAtMost (blockSize1k + 2 + 0) line _
      apply andThen_takes
      · apply (readMany_takes left line _).mono
        split <;> decide
      · intro bytes left line
        exact Nat.le_refl _

/-- The attempts to read the block 0 between two files. -/
theorem awaitInterFile_takes (limit : Nat) (line : Line) (retries : Nat) :
    TakesAtMost (interFileBytes * (retries + 1)) line (awaitInterFile limit line retries).2.2 := by
  induction retries generalizing line with
  | zero =>
    have first := readInterFile_takes limit line
    rw [Nat.zero_add, Nat.mul_one]
    unfold awaitInterFile
    split
    all_goals
      rename_i read
      rwa [read] at first
  | succ retries ih =>
    have first := readInterFile_takes limit line
    rw [Nat.mul_succ, Nat.add_comm]
    unfold awaitInterFile
    split
    next left rest read =>
      rw [read] at first
      exact first.trans (ih rest)
    all_goals
      rename_i read
      rw [read] at first
      exact first.mono (Nat.le_add_right _ _)

/-- A block takes no more than its bytes. -/
theorem receiveBlock_takes (expected : UInt8) (mode : TransferMode) (size : Nat) (line : Line) :
    TakesAtMost (2 + size + mode.trailer) line (receiveBlock expected mode size line).2 := by
  have taken := readMany_takes (blockBodyTimeoutSecs * 1000) line (2 + size + mode.trailer)
  unfold receiveBlock
  split
  all_goals
    rename_i read
    rwa [read] at taken

/-- The most bytes one turn takes: a start, a block, a purge, and the attempts between two files. -/
def turnBytes (retries : Nat) : Nat :=
  1 + (2 + blockSize1k + 2 + purgeMaxBytes + interFileBytes * (retries + 1))

namespace Receiver

variable {config : Config} {most : Nat}

/-- A purge that ends an arm takes no more than its budget. -/
theorem purgeAndNak_takes {line : Line} {purged : Receiver} (same : purged.line = line)
    (event : Event) :
    TakesAtMost purgeMaxBytes line (purged.purgeAndNak event).2.receiver.line := by
  have drained := purgeFrom_takes 0 0 purged.line purgeMaxBytes
  rw [← same]
  unfold purgeAndNak purgeLine
  split
  all_goals
    rename_i read
    rwa [read] at drained

/-- The arm for a start of a block takes the block and a purge. -/
theorem block_takes (config : Config) {line : Line} {taken : Receiver} (same : taken.line = line)
    {size : Nat} (le : size ≤ blockSize1k) :
    TakesAtMost (2 + blockSize1k + 2 + purgeMaxBytes) line
      (taken.block config size).2.receiver.line := by
  have trailer : taken.mode.trailer ≤ 2 := by cases taken.mode <;> decide
  have read := (receiveBlock_takes taken.expectedBlock taken.mode size taken.line).mono
    (by omega : 2 + size + taken.mode.trailer ≤ 2 + blockSize1k + 2)
  have whole := read.mono (Nat.le_add_right _ purgeMaxBytes)
  rw [← same]
  unfold block
  split
  next data rest accepted =>
    rw [accepted] at whole
    dsimp only
    split
    · exact whole
    · exact whole
  next rest duplicate =>
    rw [duplicate] at whole
    exact whole
  next rest mismatch =>
    rw [mismatch] at whole
    exact whole
  next rest damaged =>
    rw [damaged] at read whole
    dsimp only
    split
    · exact whole
    · apply read.trans
      apply purgeAndNak_takes
      rfl

/-- What follows a closed file takes the attempts to read a block 0. -/
theorem interFile_takes (config : Config) (receiver : Receiver) :
    TakesAtMost (interFileBytes * (config.maxRetries + 1)) receiver.line
      (receiver.interFile config).receiver.line := by
  have awaited := awaitInterFile_takes (min config.blockTimeout interFileWaitSecs * 1000)
    receiver.line config.maxRetries
  unfold interFile
  dsimp only
  split
  · split
    · exact awaited
    · exact awaited
  · exact awaited
  · exact awaited

/-- The arm for an end of transmission takes at most those. -/
theorem endOfFile_takes (config : Config) {line : Line} {taken : Receiver}
    (same : taken.line = line) (how : Closing) :
    TakesAtMost (interFileBytes * (config.maxRetries + 1)) line
      (taken.endOfFile config how).2.receiver.line := by
  rw [← same]
  unfold endOfFile
  split
  · exact Nat.le_add_right _ _
  · dsimp only
    split
    · exact interFile_takes config (taken.send [ack]).record
    · exact Nat.le_add_right _ _

/-- The arm for a byte that starts nothing takes a purge. -/
theorem strayByte_takes (config : Config) {line : Line} {taken : Receiver}
    (same : taken.line = line) :
    TakesAtMost purgeMaxBytes line (taken.strayByte config).2.receiver.line := by
  rw [← same]
  unfold strayByte
  dsimp only
  split
  · exact Nat.le_add_right _ _
  · apply purgeAndNak_takes
    rfl

/-- The arm for a timeout takes what an end of transmission does. -/
theorem timeout_takes (config : Config) {line : Line} {taken : Receiver}
    (same : taken.line = line) :
    TakesAtMost (interFileBytes * (config.maxRetries + 1)) line
      (taken.timeout config).2.receiver.line := by
  unfold timeout
  split
  · apply endOfFile_takes
    exact same
  · rw [← same]
    split
    · exact Nat.le_add_right _ _
    · dsimp only
      split
      · exact Nat.le_add_right _ _
      · exact Nat.le_add_right _ _

/-- What follows a byte read at the top of the loop. -/
theorem take_takes (config : Config) {line : Line} {taken : Receiver} (same : taken.line = line)
    (byte : UInt8) :
    TakesAtMost (2 + blockSize1k + 2 + purgeMaxBytes + interFileBytes * (config.maxRetries + 1))
      line (taken.take config byte).2.receiver.line := by
  unfold take
  dsimp only
  split
  · rw [← same]
    exact Nat.le_add_right _ _
  · split
    · apply TakesAtMost.mono (block_takes config _ _) (Nat.le_add_right _ _)
      · exact same
      · decide
    · split
      · apply TakesAtMost.mono (block_takes config _ _) (Nat.le_add_right _ _)
        · exact same
        · exact Nat.le_refl _
      · split
        · apply TakesAtMost.mono (endOfFile_takes config _ .eot) (Nat.le_add_left _ _)
          exact same
        · split
          · rw [← same]
            exact Nat.le_add_right _ _
          · apply TakesAtMost.mono (strayByte_takes config _)
            · omega
            · exact same

/-- A turn takes no more than its bytes. -/
theorem turn_takes (config : Config) (receiver : Receiver) :
    TakesAtMost (turnBytes config.maxRetries) receiver.line (receiver.turn config).2.receiver.line := by
  have first := read_takes (config.blockTimeout * 1000) receiver.line
  unfold turn turnBytes
  split
  next byte left line read =>
    rw [read] at first
    apply first.trans
    apply take_takes
    rfl
  next reason left line read =>
    rw [read] at first
    exact first.mono (Nat.le_add_right _ _)
  next left line read =>
    rw [read] at first
    apply first.trans
    apply TakesAtMost.mono (timeout_takes config _) (Nat.le_add_left _ _)
    rfl

end Receiver

/-- A run that returns has taken no more than the bytes of its turns. -/
theorem run_takes {config : Config} {count : Nat} {receiver : Receiver} {outcome : Outcome}
    (returned : run (Receiver.step config) (fun _ => ()) count receiver = .returned outcome) :
    TakesAtMost (turnBytes config.maxRetries * count) receiver.line outcome.receiver.line := by
  -- What has been taken is counted from the line the run starts with.
  have grows : ∀ (middle : Receiver) (input : Unit),
      Grows (fun later : Receiver => receiver.line.length - later.line.length)
        (fun result : Outcome => receiver.line.length - result.receiver.line.length)
        (receiver.line.length - middle.line.length + turnBytes config.maxRetries)
        (middle.step config input) := by
    intro middle input
    have taken : middle.line.length ≤ _ := Receiver.turn_takes config middle
    unfold Receiver.step
    split
    next later next =>
      rw [next] at taken
      show receiver.line.length - later.line.length ≤ _
      have same : (Outcome.next later).receiver = later := rfl
      rw [same] at taken
      omega
    next =>
      show receiver.line.length - (middle.turn config).2.receiver.line.length ≤ _
      omega
  have whole := run_grows grows (fun _ => ()) count receiver
  rw [returned] at whole
  have most : receiver.line.length - outcome.receiver.line.length ≤
      receiver.line.length - receiver.line.length + turnBytes config.maxRetries * count := whole
  unfold TakesAtMost
  omega

/-! ## Senders -/

/-- The senders in a set are through with the receivers they face within a number of turns, and of
bytes, that are functions of the retries. -/
def Bounded (senders : Config → Set Receiver) : Prop :=
  ∃ turns bytes : Nat → Nat, ∀ config, ∀ receiver ∈ senders config, ∃ outcome,
    run (Receiver.step config) (fun _ => ()) (turns config.maxRetries) receiver =
        .returned outcome ∧
      TakesAtMost (bytes config.maxRetries) receiver.line outcome.receiver.line

/-- The senders in a set send no more duplicates than a function of the retries. -/
def FewDuplicates (senders : Config → Set Receiver) : Prop :=
  ∃ most : Nat → Nat, ∀ config, ∀ receiver ∈ senders config, ∀ count,
    tally (Receiver.step config) (Receiver.duplicates config) (fun _ => ()) count receiver ≤
      most config.maxRetries

/-- The senders in a set are through with the receivers they face within bounds exactly when they
send no more duplicates than a bound. -/
theorem loop_bounded_iff (senders : Config → Set Receiver) :
    Bounded senders ↔ FewDuplicates senders := by
  constructor
  · rintro ⟨turns, bytes, returns⟩
    refine ⟨turns, ?_⟩
    intro config receiver sender count
    obtain ⟨outcome, returned, _⟩ := returns config receiver sender
    exact duplicates_le_of_returns ⟨outcome, returned⟩ count
  · rintro ⟨most, few⟩
    refine ⟨fun retries => turnBound retries (most retries),
      fun retries => turnBytes retries * turnBound retries (most retries), ?_⟩
    intro config receiver sender
    obtain ⟨outcome, returned⟩ := returns_within_turnBound (few config receiver sender _)
    exact ⟨outcome, returned, run_takes returned⟩

/-! ## Duplicates for ever -/

/-- Bytes that arrive without a pause are read at once. -/
theorem readMany_immediate {limit : Nat} (positive : 0 < limit) (bytes : List UInt8) (rest : Line) :
    Line.readMany limit (bytes.map (fun byte => (0, .byte byte)) ++ rest) bytes.length =
      (.got bytes, limit, rest) := by
  induction bytes with
  | nil => rfl
  | cons byte bytes ih =>
    have first : Line.read limit ((0, .byte byte) :: (bytes.map (fun byte => (0, .byte byte)) ++ rest)) =
        (.got byte, limit, bytes.map (fun byte => (0, .byte byte)) ++ rest) := if_pos positive
    simp only [List.map_cons, List.cons_append, List.length_cons, Line.readMany, first, ih]

/-- The data and the CRC of a block of zeros. -/
def zeros : List UInt8 := List.replicate blockSize 0 ++ [0, 0]

/-- The CRC of zeros is zero. -/
theorem crc16_zeros (count : Nat) : crc16 (List.replicate count 0) = 0 := by
  have byte : crc16Byte 0 0 = 0 := by decide
  show (List.replicate count 0).foldl crc16Byte 0 = 0
  induction count with
  | zero => rfl
  | succ count ih => rw [List.replicate_succ, List.foldl_cons, byte, ih]

/-- A block of zeros is valid. -/
theorem zeros_valid :
    TransferMode.crc16.valid (zeros.take blockSize) (zeros.drop blockSize) = true := by
  have length : (List.replicate blockSize (0 : UInt8)).length = blockSize := List.length_replicate
  have data : zeros.take blockSize = List.replicate blockSize 0 := List.take_left' length
  have trailer : zeros.drop blockSize = [0, 0] := List.drop_left' length
  rw [data, trailer]
  unfold TransferMode.valid
  simp only [crc16_zeros]
  decide

/-- The first block of a file once more, after its start byte. -/
def secondCopy : List UInt8 := 0x01 :: 0xFE :: zeros

/-- A sender that sends the first block of a file again and again. -/
def repeats : Nat → Line
  | 0 => []
  | count + 1 =>
    (0, .byte soh) :: (secondCopy.map (fun byte => (0, .byte byte)) ++ repeats count)

/-- A second copy of the first block is a duplicate. -/
theorem receiveBlock_secondCopy (rest : Line) :
    receiveBlock 2 .crc16 blockSize (secondCopy.map (fun byte => (0, .byte byte)) ++ rest) =
      (.duplicate, rest) := by
  have length : 2 + blockSize + TransferMode.crc16.trailer = secondCopy.length := by
    decide +kernel
  have duplicate : checkBlock 2 .crc16 0x01 0xFE (zeros.take blockSize) (zeros.drop blockSize) =
      .duplicate := by
    unfold checkBlock
    rw [zeros_valid, if_neg (by decide), if_neg (by decide), if_pos (.inl rfl)]
  unfold receiveBlock
  rw [length, readMany_immediate (by decide) secondCopy rest]
  show (checkBlock 2 .crc16 0x01 0xFE (zeros.take blockSize) (zeros.drop blockSize), rest) = _
  rw [duplicate]

/-- A receiver of the second block that is sent the first again and again. -/
def Waits (count : Nat) (receiver : Receiver) : Prop :=
  receiver.line = repeats count ∧ receiver.expectedBlock = 2 ∧ receiver.mode = .crc16

/-- A turn on a duplicate. -/
theorem waits_step {count : Nat} {receiver : Receiver} (waits : Waits (count + 1) receiver) :
    ∃ later, receiver.step ⟨20, 10⟩ () = .next later ∧ Waits count later := by
  obtain ⟨line, expected, mode⟩ := waits
  have read : receiver.line.read (20 * 1000) =
      (.got soh, 20 * 1000, secondCopy.map (fun byte => (0, .byte byte)) ++ repeats count) := by
    rw [line]
    rfl
  have noise : ¬ (soh = can ∧ receiver.pendingCan = true) := fun both => absurd both.1 (by decide)
  have turn : receiver.turn ⟨20, 10⟩ = (.duplicate, .next ({ receiver with
      line := repeats count
      shortCancelSeen := false
      pendingCan := false
      awaitingEotConfirm := false }.send [ack])) := by
    unfold Receiver.turn
    simp only [read]
    unfold Receiver.take
    simp only [if_neg noise, if_true]
    unfold Receiver.block
    simp only [expected, mode, receiveBlock_secondCopy]
    rfl
  have next : receiver.step ⟨20, 10⟩ () = .next ({ receiver with
      line := repeats count
      shortCancelSeen := false
      pendingCan := false
      awaitingEotConfirm := false }.send [ack]) := by
    unfold Receiver.step
    rw [turn]
  exact ⟨_, next, rfl, expected, mode⟩

/-- As many turns as there are duplicates go on. -/
theorem waits_run {count : Nat} {receiver : Receiver} (waits : Waits count receiver) :
    ∃ later, run (Receiver.step ⟨20, 10⟩) (fun _ => ()) count receiver = .next later := by
  induction count generalizing receiver with
  | zero => exact ⟨receiver, rfl⟩
  | succ count ih =>
    obtain ⟨middle, next, waits'⟩ := waits_step waits
    rw [run_next next]
    exact ih waits'

/-- A receiver that has the first block and is sent it again, any number of times. -/
def again : Set Receiver := Set.range fun count => Receiver.started (repeats count)

/-- No bound on the turns holds for all of them. -/
theorem duplicates_hold_receiver : ¬ Bounded fun _ => again := by
  rintro ⟨turns, bytes, returns⟩
  obtain ⟨outcome, returned, _⟩ := returns ⟨20, 10⟩ (Receiver.started (repeats (turns 10))) ⟨_, rfl⟩
  obtain ⟨later, goesOn⟩ := @waits_run (turns 10) (Receiver.started (repeats (turns 10)))
    ⟨rfl, rfl, rfl⟩
  exact not_returnsWithin goesOn ⟨outcome, returned⟩

end EthernetGateway.Transfer.Xmodem
