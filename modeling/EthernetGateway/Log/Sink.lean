import EthernetGateway.Log.Rotation
import EthernetGateway.Utf8

/-!
# Writing the log

A line goes to the active file, after a rotation when it would not fit. A call that fails pauses
the log; lines that come before the retry time are counted and dropped, and the first after it
tries to open the file again, to record the gap and to write.
-/

namespace EthernetGateway.Log

/-- `FileSink`; its `file` is the active one. -/
structure FileSink where
  /-- `policy`. -/
  policy : FilePolicy
  /-- `written`. -/
  written : Nat
  deriving DecidableEq

/-- `Sink`, with its times and durations in milliseconds. -/
inductive Sink where
  /-- `Off`. -/
  | off
  /-- `Armed`. -/
  | armed (sink : FileSink)
  /-- `Paused`. -/
  | paused (policy : FilePolicy) (retryAt backoff dropped : Nat)
  deriving DecidableEq

/-- `Sink::policy`. -/
def Sink.policy : Sink → Option FilePolicy
  | .off => none
  | .armed sink => some sink.policy
  | .paused policy _ _ _ => some policy

/-- `RETRY_BACKOFF_START`. -/
def retryBackoffStart : Nat := 30000

/-- `RETRY_BACKOFF_MAX`. -/
def retryBackoffMax : Nat := 300000

/-- `next_backoff`. -/
def nextBackoff (current : Nat) : Nat := min (current * 2) retryBackoffMax

/-- `saturating_add(1)` of a `u64`. -/
def oneMore (n : Nat) : Nat := min (n + 1) 18446744073709551615

/-- How the calls that write one line end. -/
structure LineCalls where
  /-- Those of a rotation. -/
  rotation : RotationCalls
  /-- `write_all`: whole, or after some bytes with an error. -/
  writes : Option (Nat × Text)

/-- The bytes of a line and its newline. -/
def lineBytes (line : Text) : List UInt8 := Text.toUtf8 line ++ [0x0A]

/-- What of a line reaches the file. -/
def LineCalls.piece (calls : LineCalls) (line : Text) : List UInt8 :=
  match calls.writes with
  | none => lineBytes line
  | some (n, _) => (lineBytes line).take n

/-- `write_all` of a line and its newline to the active file. -/
def writeAll (line : Text) (calls : LineCalls) : Fallible Generations Text Unit := fun files =>
  let reached := Function.update files 0 (some (held files 0 ++ [calls.piece line]))
  match calls.writes with
  | none => (.ok (), reached)
  | some (_, e) => (.error e, reached)

/-- `write_line_to`. -/
def writeLineTo (line : Text) (calls : LineCalls) (sink : FileSink) :
    Fallible Generations Text FileSink := do
  let bytes := (Text.toUtf8 line).length + 1
  let written ←
    if shouldRotate sink.written bytes sink.policy.maxBytes then do
      rotate sink.policy calls.rotation
      pure 0
    else pure sink.written
  writeAll line calls
  pure { sink with written := written + bytes }

/-- How the calls of one line given to the log end. -/
structure Calls where
  /-- `open_log` of a paused log. -/
  opens : Except Text Unit
  /-- Those that write the notice of the gap. -/
  notice : LineCalls
  /-- Those that write the line. -/
  line : LineCalls

/-- The bytes the active file holds. -/
def size (files : Generations) : Nat := (held files 0).flatten.length

/-- The notice of a gap. -/
def gapNotice (dropped : Nat) : Text :=
  "--- file logging resumed after an error; ".toList ++ Text.ofNat dropped ++
    " line(s) were not written ---".toList

/-- `resume`, its `None` a failure. -/
def resume (policy : FilePolicy) (dropped : Nat) (line : Text) (calls : Calls) :
    Fallible Generations Text FileSink := do
  openLog false calls.opens
  let written ← Fallible.view size
  let sink ← writeLineTo (gapNotice dropped) calls.notice ⟨policy, written⟩
  writeLineTo line calls.line sink

/-- `FileWrite`. -/
structure FileWrite where
  /-- `wrote`. -/
  wrote : Bool
  /-- `notice`. -/
  notice : Option Text
  deriving DecidableEq

/-- A log: what it is doing, and its files. -/
structure LogState where
  /-- The sink. -/
  slot : Sink
  /-- The files. -/
  files : Generations

/-- One line given to the log: the line, the time, and how the calls made for it end. -/
structure Event where
  /-- `line`. -/
  line : Text
  /-- `now`. -/
  now : Nat
  /-- How the calls end. -/
  calls : Calls

/-- `write_to_file_at`. -/
def writeToFileAt (log : LogState) (event : Event) : FileWrite × LogState :=
  match log.slot with
  | .off => (⟨false, none⟩, log)
  | .armed sink =>
    match writeLineTo event.line event.calls.line sink log.files with
    | (.ok sink, files) => (⟨true, none⟩, ⟨.armed sink, files⟩)
    | (.error err, files) =>
      (⟨false, some ("File logging paused: ".toList ++ err ++ " — retrying in ".toList ++
          Text.ofNat (retryBackoffStart / 1000) ++ "s.".toList)⟩,
        ⟨.paused sink.policy (event.now + retryBackoffStart) retryBackoffStart 1, files⟩)
  | .paused policy retryAt backoff dropped =>
    if event.now < retryAt then
      (⟨false, none⟩, ⟨.paused policy retryAt backoff (oneMore dropped), log.files⟩)
    else
      match resume policy dropped event.line event.calls log.files with
      | (.ok sink, files) =>
        (⟨true, some ("File logging resumed; ".toList ++ Text.ofNat dropped ++
            " line(s) were lost while it was paused.".toList)⟩, ⟨.armed sink, files⟩)
      | (.error _, files) =>
        (⟨false, none⟩, ⟨.paused policy (event.now + nextBackoff backoff) (nextBackoff backoff)
          (oneMore dropped), files⟩)

/-- The log after some lines. -/
def LogState.after : LogState → List Event → LogState
  | log, [] => log
  | log, event :: rest => (writeToFileAt log event).2.after rest

/-! ## What a line writes and which rotations it attempts -/

/-- What was written to the files, and the rotations attempted. -/
structure Account where
  /-- What was written, in order. -/
  written : Contents
  /-- The rotations attempted, in order. -/
  attempts : List Attempt

/-- Nothing written, no rotation attempted. -/
def Account.none : Account := ⟨[], []⟩

/-- Two accounts one after the other. -/
def Account.append (first second : Account) : Account :=
  ⟨first.written ++ second.written, first.attempts ++ second.attempts⟩

/-- What the rotations of an account lost. -/
def Account.lost (account : Account) : Contents := account.attempts.flatMap Attempt.lost

/-- A line is due a rotation first. -/
def Due (line : Text) (sink : FileSink) : Prop :=
  shouldRotate sink.written ((Text.toUtf8 line).length + 1) sink.policy.maxBytes = true

instance (line : Text) (sink : FileSink) : Decidable (Due line sink) := by
  unfold Due
  infer_instance

/-- The account of a line given to an open sink. -/
def lineAccount (line : Text) (calls : LineCalls) (sink : FileSink) (files : Generations) :
    Account :=
  if Due line sink then
    let attempt : Attempt := ⟨sink.policy, calls.rotation, files⟩
    ⟨if attempt.run.1.isOk then [calls.piece line] else [], [attempt]⟩
  else ⟨[calls.piece line], []⟩

/-- The account of a line given to a paused log that tries again. -/
def resumeAccount (policy : FilePolicy) (dropped : Nat) (line : Text) (calls : Calls)
    (files : Generations) : Account :=
  match openLog false calls.opens files with
  | (.error _, _) => .none
  | (.ok _, files) =>
    (lineAccount (gapNotice dropped) calls.notice ⟨policy, size files⟩ files).append
      (match writeLineTo (gapNotice dropped) calls.notice ⟨policy, size files⟩ files with
      | (.ok sink, files) => lineAccount line calls.line sink files
      | (.error _, _) => .none)

/-- The account of one line. -/
def eventAccount (log : LogState) (event : Event) : Account :=
  match log.slot with
  | .off => .none
  | .armed sink => lineAccount event.line event.calls.line sink log.files
  | .paused policy retryAt _ dropped =>
    if event.now < retryAt then .none
    else resumeAccount policy dropped event.line event.calls log.files

/-- The account of some lines. -/
def LogState.account : LogState → List Event → Account
  | _, [] => .none
  | log, event :: rest =>
    (eventAccount log event).append ((writeToFileAt log event).2.account rest)

/-! ## One line -/

section Line

variable {top : Nat}

/-- Elements written at the end of the active file are written at the end of the reading. -/
theorem readFrom_write (files : Generations) (piece : List UInt8) :
    readFrom top (Function.update files 0 (some (held files 0 ++ [piece]))) =
      readFrom top files ++ [piece] := by
  obtain ⟨older, younger, before, _, last, after⟩ := readFrom_split files (Nat.zero_le top)
  rw [after, before, last rfl]
  simp

/-- Creating the active file, or opening it as it is, leaves the reading. -/
theorem readFrom_opened (opens : Except Text Unit) (files : Generations) :
    readFrom top (openLog false opens files).2 = readFrom top files := by
  obtain ⟨older, younger, before, _, _, after⟩ := readFrom_split files (Nat.zero_le top)
  cases opens with
  | error e => rfl
  | ok value =>
    have opened : (openLog false (.ok value) files).2 =
        Function.update files 0 (some (held files 0)) := rfl
    rw [opened, after, before]
    rfl

/-- What is written of a line is appended to the active file, whether the write fails or not. -/
theorem writeAll_files (line : Text) (calls : LineCalls) (files : Generations) :
    (writeAll line calls files).2 =
      Function.update files 0 (some (held files 0 ++ [calls.piece line])) := by
  rw [writeAll]
  split <;> rfl

/-- The end of `write_line_to`: write the line and count it. -/
def record (line : Text) (calls : LineCalls) (sink : FileSink) (written : Nat) :
    Fallible Generations Text FileSink :=
  writeAll line calls >>= fun _ =>
    pure { sink with written := written + ((Text.toUtf8 line).length + 1) }

/-- What is written of a line is appended, whether the write fails or not. -/
theorem record_files (line : Text) (calls : LineCalls) (sink : FileSink) (written : Nat)
    (files : Generations) : (record line calls sink written files).2 =
      Function.update files 0 (some (held files 0 ++ [calls.piece line])) := by
  rw [record, Fallible.bind_run, ← writeAll_files]
  split <;> rename_i ran <;> rw [ran] <;> rfl

/-- A line that is due no rotation is written at once. -/
theorem writeLineTo_fits {line : Text} {sink : FileSink} (fits : ¬ Due line sink)
    (calls : LineCalls) (files : Generations) :
    writeLineTo line calls sink files = record line calls sink sink.written files := by
  rw [Due] at fits
  rw [writeLineTo]
  simp only
  rw [if_neg fits]
  rfl

/-- A line that is due a rotation is written after it. -/
theorem writeLineTo_due {line : Text} {sink : FileSink} (due : Due line sink) (calls : LineCalls)
    (files : Generations) : writeLineTo line calls sink files =
      (rotate sink.policy calls.rotation >>= fun _ => record line calls sink 0) files := by
  rw [Due] at due
  rw [writeLineTo]
  simp only
  rw [if_pos due]
  rfl

/-- A line whose rotation does not complete is not written. -/
theorem writeLineTo_stopped {line : Text} {calls : LineCalls} {sink : FileSink}
    {files : Generations} (due : Due line sink)
    (stopped : ¬ (Attempt.mk sink.policy calls.rotation files).run.1.isOk = true) :
    (∃ e, (writeLineTo line calls sink files).1 = .error e) ∧
      (writeLineTo line calls sink files).2 =
        (Attempt.mk sink.policy calls.rotation files).run.2 := by
  rw [writeLineTo_due due, Fallible.bind_run]
  rw [Attempt.run] at stopped ⊢
  cases ran : rotate sink.policy calls.rotation files with
  | mk ending reached =>
    rw [ran] at stopped
    cases ending with
    | ok value => exact absurd rfl stopped
    | error e => exact ⟨⟨e, rfl⟩, rfl⟩

/-- A line whose rotation completes is written to the files it leaves. -/
theorem writeLineTo_rotated {line : Text} {calls : LineCalls} {sink : FileSink}
    {files : Generations} (due : Due line sink)
    (completed : (Attempt.mk sink.policy calls.rotation files).run.1.isOk = true) :
    writeLineTo line calls sink files =
      record line calls sink 0 (Attempt.mk sink.policy calls.rotation files).run.2 := by
  rw [writeLineTo_due due, Fallible.bind_run]
  rw [Attempt.run] at completed ⊢
  cases ran : rotate sink.policy calls.rotation files with
  | mk ending reached =>
    rw [ran] at completed
    cases ending with
    | ok value => rfl
    | error e => cases completed

/-- The size after something is appended. -/
theorem size_write (files : Generations) (piece : List UInt8) :
    size (Function.update files 0 (some (held files 0 ++ [piece]))) =
      size files + piece.length := by
  rw [size, held_update_same, size]
  simp

/-- A line that was written and counted is counted right, if what was counted before was. -/
theorem record_ok {line : Text} {calls : LineCalls} {sink after : FileSink} {written : Nat}
    {files reached : Generations} (counted : written = size files)
    (ran : record line calls sink written files = (.ok after, reached)) :
    after.policy = sink.policy ∧ after.written = size reached := by
  have ended := record_files line calls sink written files
  rw [ran] at ended
  simp only at ended
  rw [record, Fallible.bind_run, writeAll] at ran
  cases writes : calls.writes with
  | some fault =>
    obtain ⟨n, e⟩ := fault
    rw [writes] at ran
    cases ran
  | none =>
    have whole : calls.piece line = lineBytes line := by rw [LineCalls.piece, writes]
    rw [writes] at ran
    simp only [Fallible.pure_run, Prod.mk.injEq, Except.ok.injEq] at ran
    refine ⟨by rw [← ran.1], ?_⟩
    rw [ended, size_write, whole, ← ran.1, counted, lineBytes, List.length_append]
    rfl

/-- A sink after a line that was written has the same policy and counts the line. -/
theorem writeLineTo_ok {line : Text} {calls : LineCalls} {sink after : FileSink}
    {files reached : Generations} (counted : sink.written = size files)
    (ran : writeLineTo line calls sink files = (.ok after, reached)) :
    after.policy = sink.policy ∧ after.written = size reached := by
  by_cases due : Due line sink
  · by_cases completed : (Attempt.mk sink.policy calls.rotation files).run.1.isOk = true
    · rw [writeLineTo_rotated due completed] at ran
      refine record_ok ?_ ran
      rw [size, held, Attempt.run_active _ completed]
      rfl
    · obtain ⟨⟨e, failed⟩, _⟩ := writeLineTo_stopped due completed
      rw [ran] at failed
      cases failed
  · rw [writeLineTo_fits due] at ran
    exact record_ok counted ran

/-- A line turns the reading over as its account says. -/
theorem writeLineTo_turnover (line : Text) (calls : LineCalls) (sink : FileSink)
    (files : Generations) (capped : maxLogMaxFiles ≤ top) (inside : sink.policy.maxFiles ≤ top) :
    Turnover (readFrom top files) (lineAccount line calls sink files).written
      (lineAccount line calls sink files).lost
      (readFrom top (writeLineTo line calls sink files).2) := by
  by_cases due : Due line sink
  · have turned := Attempt.run_turnover ⟨sink.policy, calls.rotation, files⟩ capped inside
    rw [lineAccount, if_pos due]
    simp only [Account.lost, List.flatMap_cons, List.flatMap_nil, List.append_nil]
    by_cases completed : (Attempt.mk sink.policy calls.rotation files).run.1.isOk = true
    · rw [if_pos completed, writeLineTo_rotated due completed, record_files, readFrom_write]
      simpa using turned.trans (Turnover.append _ [calls.piece line])
    · rw [if_neg completed, (writeLineTo_stopped due completed).2]
      exact turned
  · rw [lineAccount, if_neg due, writeLineTo_fits due, record_files, readFrom_write]
    exact Turnover.append _ _

/-- What reaches the file of a line is no longer than the line. -/
theorem piece_length (line : Text) (calls : LineCalls) :
    (calls.piece line).length ≤ (Text.toUtf8 line).length + 1 := by
  have whole : (lineBytes line).length = (Text.toUtf8 line).length + 1 := by
    rw [lineBytes, List.length_append]
    rfl
  rw [LineCalls.piece]
  split
  · omega
  · rw [List.length_take]
    omega

/-- The active file holds no more than the limit, or a single write. -/
def Bounded (policy : FilePolicy) (files : Generations) : Prop :=
  size files ≤ policy.maxBytes ∨ ∃ piece ∈ held files 0, (held files 0).flatten = piece

/-- A write to an empty file, or one that fits, leaves the file within the limit. -/
theorem bounded_write {policy : FilePolicy} {files : Generations} {piece : List UInt8}
    (small : size files = 0 ∨ size files + piece.length ≤ policy.maxBytes) :
    Bounded policy (Function.update files 0 (some (held files 0 ++ [piece]))) := by
  rcases small with empty | fits
  · refine .inr ⟨piece, ?_, ?_⟩
    · rw [held_update_same]
      simp
    · rw [size, List.length_eq_zero_iff] at empty
      rw [held_update_same]
      simp [empty]
  · left
    rwa [size_write]

/-- An attempt among those of a list completed. -/
def Completed (attempts : List Attempt) : Prop :=
  ∃ attempt ∈ attempts, attempt.run.1.isOk = true

/-- A line leaves the active file within the limit when it was, or when its rotation completes. -/
theorem writeLineTo_bounded {line : Text} {calls : LineCalls} {sink : FileSink}
    {files : Generations} (positive : 0 < sink.policy.maxBytes)
    (counted : sink.written = size files)
    (start : Bounded sink.policy files ∨ Completed (lineAccount line calls sink files).attempts) :
    Bounded sink.policy (writeLineTo line calls sink files).2 := by
  have short := piece_length line calls
  by_cases due : Due line sink
  · by_cases completed : (Attempt.mk sink.policy calls.rotation files).run.1.isOk = true
    · rw [writeLineTo_rotated due completed, record_files]
      refine bounded_write (.inl ?_)
      rw [size, held, Attempt.run_active _ completed]
      rfl
    · rw [(writeLineTo_stopped due completed).2]
      rcases Attempt.run_active_failed _ completed with same | moved
      · have before : Bounded sink.policy files := by
          rcases start with before | ⟨attempt, member, ran⟩
          · exact before
          · rw [lineAccount, if_pos due] at member
            rw [List.mem_singleton.mp member] at ran
            exact absurd ran completed
        have active : held (Attempt.mk sink.policy calls.rotation files).run.2 0 =
            held files 0 := by
          rw [held, same]
          rfl
        rwa [Bounded, size, active]
      · left
        rw [size, held, moved]
        exact Nat.zero_le _
  · rw [writeLineTo_fits due, record_files]
    refine bounded_write ?_
    simp only [Due, shouldRotate, Bool.and_eq_true, decide_eq_true_eq] at due
    omega

end Line

/-! ## Any number of lines -/

/-- The generations of a policy, and those that a larger limit may have left. -/
def reading (policy : FilePolicy) (files : Generations) : Contents :=
  readFrom (max maxLogMaxFiles policy.maxFiles) files

/-- Files became others as an account says, and the active one stayed within the limit. -/
structure Follows (policy : FilePolicy) (files : Generations) (account : Account)
    (after : Generations) : Prop where
  /-- The reading is turned over. -/
  turnover : Turnover (reading policy files) account.written account.lost (reading policy after)
  /-- The active file is within the limit if it was, or if a rotation completed. -/
  bounded : Bounded policy files ∨ Completed account.attempts → Bounded policy after
  /-- Every rotation is of the policy. -/
  own : ∀ attempt ∈ account.attempts, attempt.policy = policy

section Follows

variable {policy : FilePolicy} {files middle after : Generations} {first second : Account}

/-- Files follow from themselves. -/
theorem Follows.refl (policy : FilePolicy) (files : Generations) :
    Follows policy files .none files where
  turnover := Turnover.refl _
  bounded start := by
    rcases start with before | ⟨_, member, _⟩
    · exact before
    · cases member
  own _ member := by cases member

/-- Accounts follow each other. -/
theorem Follows.trans (one : Follows policy files first middle)
    (two : Follows policy middle second after) :
    Follows policy files (first.append second) after where
  turnover := by
    have turned := one.turnover.trans two.turnover
    rwa [Account.lost, Account.lost, ← List.flatMap_append] at turned
  bounded start := by
    refine two.bounded ?_
    rcases start with before | ⟨attempt, member, ran⟩
    · exact .inl (one.bounded (.inl before))
    · rcases List.mem_append.mp member with early | late
      · exact .inl (one.bounded (.inr ⟨attempt, early, ran⟩))
      · exact .inr ⟨attempt, late, ran⟩
  own attempt member := by
    rcases List.mem_append.mp member with early | late
    · exact one.own attempt early
    · exact two.own attempt late

/-- Files that are read alike and have the same active file follow from each other. -/
theorem Follows.opened (policy : FilePolicy) (opens : Except Text Unit) (files : Generations) :
    Follows policy files .none (openLog false opens files).2 where
  turnover := by
    rw [reading, reading, readFrom_opened]
    exact Turnover.refl _
  bounded start := by
    have active : held (openLog false opens files).2 0 = held files 0 := by
      cases opens <;> rfl
    rcases start with before | ⟨_, member, _⟩
    · rwa [Bounded, size, active]
    · cases member
  own _ member := by cases member

/-- A line given to an open sink follows its account. -/
theorem writeLineTo_follows {line : Text} {calls : LineCalls} {sink : FileSink}
    {files : Generations} (positive : 0 < sink.policy.maxBytes)
    (counted : sink.written = size files) :
    Follows sink.policy files (lineAccount line calls sink files)
      (writeLineTo line calls sink files).2 where
  turnover := writeLineTo_turnover line calls sink files (Nat.le_max_left _ _)
    (Nat.le_max_right _ _)
  bounded := writeLineTo_bounded positive counted
  own attempt member := by
    rw [lineAccount] at member
    split at member
    · rw [List.mem_singleton.mp member]
    · cases member

/-- A paused log that tries again follows its account, and its sink counts the active file. -/
theorem resume_follows {policy : FilePolicy} (positive : 0 < policy.maxBytes) (dropped : Nat)
    (line : Text) (calls : Calls) (files : Generations) :
    Follows policy files (resumeAccount policy dropped line calls files)
      (resume policy dropped line calls files).2 ∧
    ∀ sink after, resume policy dropped line calls files = (.ok sink, after) →
      sink.policy = policy ∧ sink.written = size after := by
  have opened := Follows.opened policy calls.opens files
  rw [resume, resumeAccount, Fallible.bind_run]
  cases opening : openLog false calls.opens files with
  | mk ending middle =>
    rw [opening] at opened
    cases ending with
    | error e => exact ⟨opened, fun sink after same => nomatch same⟩
    | ok value =>
      simp only [Fallible.bind_run, Fallible.view_run]
      have noticed := @writeLineTo_follows (gapNotice dropped) calls.notice ⟨policy, size middle⟩
        middle positive rfl
      cases noticing : writeLineTo (gapNotice dropped) calls.notice ⟨policy, size middle⟩ middle with
      | mk ending last =>
        rw [noticing] at noticed
        cases ending with
        | error e =>
          refine ⟨?_, fun sink after same => nomatch same⟩
          exact opened.trans (noticed.trans (Follows.refl policy last))
        | ok sink =>
          obtain ⟨same, right⟩ := @writeLineTo_ok _ _ ⟨policy, size middle⟩ _ _ _ rfl noticing
          simp only at same
          subst same
          have written := @writeLineTo_follows line calls.line sink last positive right
          refine ⟨opened.trans (noticed.trans written), fun sink' after ran => ?_⟩
          exact writeLineTo_ok right ran

/-- An open sink counts what the active file holds. -/
def LogState.Opened (log : LogState) : Prop :=
  ∀ sink, log.slot = .armed sink → sink.written = size log.files

/-- A line given to a log follows its account, keeps the policy, and an open sink counts right. -/
theorem writeToFileAt_follows {policy : FilePolicy} (positive : 0 < policy.maxBytes)
    {log : LogState} (wanted : log.slot.policy = some policy) (opened : log.Opened)
    (event : Event) :
    Follows policy log.files (eventAccount log event) (writeToFileAt log event).2.files ∧
      (writeToFileAt log event).2.slot.policy = some policy ∧
      (writeToFileAt log event).2.Opened := by
  obtain ⟨slot, files⟩ := log
  cases slot with
  | off => cases wanted
  | armed sink =>
    have counted : sink.written = size files := opened sink rfl
    obtain rfl : sink.policy = policy := Option.some.inj wanted
    have follows := @writeLineTo_follows event.line event.calls.line sink files positive counted
    have right {after : FileSink} {reached : Generations} :=
      @writeLineTo_ok event.line event.calls.line sink after files reached counted
    simp only [eventAccount, writeToFileAt]
    cases ran : writeLineTo event.line event.calls.line sink files with
    | mk ending reached =>
      rw [ran] at follows
      cases ending with
      | ok after =>
        obtain ⟨same, size⟩ := right ran
        refine ⟨follows, congrArg some same, fun sink' armed => ?_⟩
        cases armed
        exact size
      | error e => exact ⟨follows, rfl, fun sink' armed => nomatch armed⟩
  | paused policy' retryAt backoff dropped =>
    obtain rfl : policy' = policy := Option.some.inj wanted
    simp only [eventAccount, writeToFileAt]
    by_cases early : event.now < retryAt
    · rw [if_pos early, if_pos early]
      exact ⟨Follows.refl _ _, rfl, fun sink' armed => nomatch armed⟩
    · rw [if_neg early, if_neg early]
      obtain ⟨follows, right⟩ := resume_follows positive dropped event.line event.calls files
      cases ran : resume policy' dropped event.line event.calls files with
      | mk ending reached =>
        rw [ran] at follows
        cases ending with
        | ok after =>
          obtain ⟨same, size⟩ := right after reached ran
          refine ⟨follows, congrArg some same, fun sink' armed => ?_⟩
          cases armed
          exact size
        | error e => exact ⟨follows, rfl, fun sink' armed => nomatch armed⟩

/-- Lines given to a log follow their account. -/
theorem after_follows {policy : FilePolicy} (positive : 0 < policy.maxBytes) (events : List Event)
    {log : LogState} (wanted : log.slot.policy = some policy) (opened : log.Opened) :
    Follows policy log.files (log.account events) (log.after events).files := by
  induction events generalizing log with
  | nil => exact Follows.refl policy log.files
  | cons event rest ih =>
    obtain ⟨follows, same, still⟩ := writeToFileAt_follows positive wanted opened event
    exact follows.trans (ih same still)

end Follows

/-! ## What a log keeps -/

/-- A rotation that meets no failing rename or open, or that has nothing to delete or overwrite. -/
def Attempt.Spared (attempt : Attempt) : Prop := attempt.Clear ∨ attempt.lost = []

instance Attempt.decidableSpared (attempt : Attempt) : Decidable attempt.Spared :=
  inferInstanceAs (Decidable ((∀ n < _, _ → _) ∧ _ ∨ _))

/-- A rotation that does not complete leaves every line exactly when it is spared. -/
theorem Attempt.kept_iff (attempt : Attempt) :
    (attempt.run.1.isOk = false → reading attempt.policy attempt.run.2 =
      reading attempt.policy attempt.files) ↔ attempt.Spared := by
  have turned := attempt.run_turnover (Nat.le_max_left _ attempt.policy.maxFiles)
    (Nat.le_max_right maxLogMaxFiles _)
  rw [Spared, ← attempt.run_ok_iff, ← turned.unchanged_iff, reading, reading]
  cases attempt.run.1.isOk <;> simp

/-- What a log keeps over any lines given to it, however its calls end. What was there and what was
written is what the rotations deleted and what is left, in order. The active file stays within the
limit from the first rotation that completes, and one whose deletions succeed leaves none past the
limit. A rotation that does not complete keeps every line exactly when it is spared, and when all
are, only rotations that complete delete any. -/
theorem log_kept {policy : FilePolicy} (positive : 0 < policy.maxBytes) {log : LogState}
    (wanted : log.slot.policy = some policy) (opened : log.Opened) (events : List Event) :
    Turnover (reading policy log.files) (log.account events).written (log.account events).lost
      (reading policy (log.after events).files) ∧
    (Bounded policy log.files ∨ Completed (log.account events).attempts →
      Bounded policy (log.after events).files) ∧
    (∀ attempt ∈ (log.account events).attempts, attempt.run.1.isOk = true →
      (∀ n, (attempt.calls.removes n).isOk = true) →
      ∀ n, policy.maxFiles < n → n ≤ maxLogMaxFiles → attempt.run.2 n = none) ∧
    (∀ attempt ∈ (log.account events).attempts,
      (attempt.run.1.isOk = false → reading policy attempt.run.2 =
        reading policy attempt.files) ↔ attempt.Spared) ∧
    ((∀ attempt ∈ (log.account events).attempts, attempt.Spared) →
      (log.account events).lost =
        ((log.account events).attempts.filter fun attempt => attempt.run.1.isOk).flatMap
          Attempt.lost) := by
  have follows := after_follows positive events wanted opened
  refine ⟨follows.turnover, follows.bounded, fun attempt member ran removed n past capped => ?_,
    fun attempt member => ?_, fun spared => ?_⟩
  · rw [← follows.own attempt member] at past
    exact attempt.run_limited ran removed past capped
  · rw [← follows.own attempt member]
    exact attempt.kept_iff
  · rw [Account.lost]
    generalize (log.account events).attempts = attempts at spared
    induction attempts with
    | nil => rfl
    | cons attempt rest ih =>
      have later := ih fun other member => spared other (List.mem_cons_of_mem _ member)
      rw [List.flatMap_cons, later, List.filter_cons]
      split
      · rw [List.flatMap_cons]
      · rename_i failed
        rcases spared attempt List.mem_cons_self with clear | nothing
        · exact absurd (attempt.run_ok_iff.mpr clear) failed
        · rw [nothing, List.nil_append]

/-- Calls of a rotation all of which succeed, but for the renames. -/
def renamesFailing (e : Text) : RotationCalls := ⟨fun _ => .ok (), fun _ => .error e, .ok ()⟩

/-- A log of a file of one line and one generation of one line, full with either. -/
def fullLog : LogState :=
  ⟨.armed ⟨⟨2, 1⟩, 2⟩, fun n =>
    if n = 0 then some [[0x62, 0x0A]] else if n = 1 then some [[0x61, 0x0A]] else none⟩

/-- A line that is due a rotation whose rename fails. -/
def stuckLine : Event :=
  ⟨['c'], 0, .ok (), ⟨renamesFailing ['x'], none⟩, ⟨renamesFailing ['x'], none⟩⟩

/-- A log of a file of one line, full with it. -/
def youngLog : LogState :=
  ⟨.armed ⟨⟨2, 1⟩, 2⟩, fun n => if n = 0 then some [[0x62, 0x0A]] else none⟩

/-- A line that comes when a stuck log tries again, and whose calls succeed. -/
def freeLine : Event :=
  let calls : LineCalls := ⟨⟨fun _ => .ok (), fun _ => .ok (), .ok ()⟩, none⟩
  ⟨['d'], 30000, .ok (), calls, calls⟩

/-- The theorem at work: a line whose rotation fails at its rename; and of a log without an older
generation the same line, and one whose rotations complete. -/
theorem log_kept_stuck :
    Turnover (reading ⟨2, 1⟩ fullLog.files) (fullLog.account [stuckLine]).written
      (fullLog.account [stuckLine]).lost (reading ⟨2, 1⟩ (fullLog.after [stuckLine]).files) ∧
    ((youngLog.account [stuckLine, freeLine]).attempts.map fun attempt => attempt.run.1.isOk) =
      [false, true, true] ∧
    (youngLog.account [stuckLine, freeLine]).lost =
      ((youngLog.account [stuckLine, freeLine]).attempts.filter fun attempt =>
        attempt.run.1.isOk).flatMap Attempt.lost := by
  have young := @log_kept ⟨2, 1⟩ (by decide) youngLog rfl (fun sink armed => by cases armed; rfl)
    [stuckLine, freeLine]
  refine ⟨(log_kept (by decide) rfl (fun sink armed => by cases armed; rfl) [stuckLine]).1,
    by decide +kernel, young.2.2.2.2 (by decide +kernel)⟩

/-- Not every line stays while no rotation completes: the oldest generation is deleted before the
rename that fails. -/
theorem line_lost_uncompleted :
    ¬ ∀ (policy : FilePolicy) (log : LogState) (events : List Event), 0 < policy.maxBytes →
      log.slot.policy = some policy → log.Opened →
      (∀ attempt ∈ (log.account events).attempts, attempt.run.1.isOk = false) →
      ∀ line ∈ reading policy log.files, line ∈ reading policy (log.after events).files := by
  intro every
  have stays := every ⟨2, 1⟩ fullLog [stuckLine] (by decide) rfl
    (fun sink armed => by cases armed; rfl) (by decide +kernel) [0x61, 0x0A] (by decide +kernel)
  exact absurd stays (by decide +kernel)

/-! ## The notice of a gap -/

end EthernetGateway.Log
