import Mathlib

/-!
# The escape detector of an online call

`PlusEscape` holds back escape characters that may begin the escape sequence: guard time of
silence, three escape characters each within guard time of the one before, guard time of silence.
An online loop polls it, feeds it what a read returned, and polls again. The bytes it let
through, and the ones it holds, are the bytes read, in order; and it reports the escape exactly
when the newest three bytes read are the sequence and the line was quiet since.
-/

namespace EthernetGateway.Serial

/-- `PlusEscape`. -/
structure PlusEscape where
  /-- When the last byte forwarded as data arrived. -/
  lastDataTime : Nat
  /-- Escape characters held so far. -/
  plusCount : Nat
  /-- When the most recent held escape character arrived. -/
  plusStart : Nat
  deriving DecidableEq

/-- `PlusPoll`: what a poll decided while the line was idle. -/
inductive PlusPoll where
  /-- Nothing to do. -/
  | idle
  /-- Back to command mode. -/
  | escape
  /-- Held characters that were data. -/
  | release (held : List UInt8)
  deriving DecidableEq

namespace PlusEscape

/-- `PlusEscape::new`. -/
def new (now : Nat) : PlusEscape := ⟨now, 0, now⟩

/-- `PlusEscape::reset`. -/
def reset (detector : PlusEscape) (now : Nat) : PlusEscape :=
  { detector with plusCount := 0, lastDataTime := now }

/-- Whether an escape character and a guard time allow an escape at all. -/
def enabled (esc : UInt8) (guard : Nat) : Bool := esc ≤ 127 && guard != 0

/-- The first part of the loop body of `feed`: one or two characters held past guard time were
data. -/
def giveUp (detector : PlusEscape) (esc : UInt8) (guard now : Nat) : PlusEscape × List UInt8 :=
  if 1 ≤ detector.plusCount ∧ detector.plusCount < 3 ∧ guard ≤ now - detector.plusStart then
    ({ detector with plusCount := 0, lastDataTime := detector.plusStart },
      List.replicate detector.plusCount esc)
  else (detector, [])

/-- The rest of the loop body of `feed`: hold the byte, or let the held ones and it through. -/
def take (detector : PlusEscape) (esc : UInt8) (guard now : Nat) (byte : UInt8) :
    PlusEscape × List UInt8 :=
  if enabled esc guard ∧ byte = esc ∧ detector.plusCount = 0 ∧
      guard ≤ now - detector.lastDataTime then
    ({ detector with plusCount := 1, plusStart := now }, [])
  else if enabled esc guard ∧ byte = esc ∧ 0 < detector.plusCount ∧ detector.plusCount < 3 then
    ({ detector with plusCount := detector.plusCount + 1, plusStart := now }, [])
  else
    ({ detector with plusCount := 0, lastDataTime := now },
      List.replicate detector.plusCount esc ++ [byte])

/-- The loop body of `feed`: the detector after a byte, and what it let through. -/
def feedByte (detector : PlusEscape) (esc : UInt8) (guard now : Nat) (byte : UInt8) :
    PlusEscape × List UInt8 :=
  let (detector, released) := detector.giveUp esc guard now
  let (detector, through) := detector.take esc guard now byte
  (detector, released ++ through)

/-- `PlusEscape::feed`: the detector after a read, and what it appends to `forward`. -/
def feed (detector : PlusEscape) (esc : UInt8) (guard now : Nat) :
    List UInt8 → PlusEscape × List UInt8
  | [] => (detector, [])
  | byte :: data =>
    let (middle, through) := detector.feedByte esc guard now byte
    let (last, further) := middle.feed esc guard now data
    (last, through ++ further)

/-- `PlusEscape::poll`. -/
def poll (detector : PlusEscape) (esc : UInt8) (guard now : Nat) : PlusPoll × PlusEscape :=
  if detector.plusCount = 0 ∨ now - detector.plusStart < guard then (.idle, detector)
  else if detector.plusCount = 3 then (.escape, { detector with plusCount := 0 })
  else
    (.release (List.replicate detector.plusCount esc),
      { detector with plusCount := 0, lastDataTime := detector.plusStart })

end PlusEscape

/-! ## An online loop -/

/-- The parts of `ModemState` an online loop has the detector in. -/
structure Line where
  /-- `escape`. -/
  escape : PlusEscape
  /-- `s_regs[2]`, the escape character. -/
  escapeChar : UInt8
  /-- `s_regs[12]` as a time, the guard time. -/
  guardTime : Nat
  /-- `pending_input`: bytes the next read of the port serves first. -/
  pendingInput : List UInt8

namespace Line

/-- `poll_plus_escape`. -/
def pollPlusEscape (line : Line) (now : Nat) : PlusPoll × Line :=
  let (poll, escape) := line.escape.poll line.escapeChar line.guardTime now
  (poll, { line with escape })

/-- `process_online_bytes`: the line after a read was fed, and what that appends to the bytes to
forward. -/
def processOnlineBytes (line : Line) (data : List UInt8) (now : Nat) : Line × List UInt8 :=
  let (escape, forward) := line.escape.feed line.escapeChar line.guardTime now data
  ({ line with escape }, forward)

/-- `escape_before_read`: what to forward ahead of a read, or nothing if the escape was
complete, the read then being kept for command mode. -/
def escapeBeforeRead (line : Line) (data : List UInt8) (now : Nat) : Option (List UInt8) × Line :=
  match line.pollPlusEscape now with
  | (.idle, line) => (some [], line)
  | (.escape, line) => (none, { line with pendingInput := line.pendingInput ++ data })
  | (.release held, line) => (some held, line)

end Line

/-- One turn of an online loop: what the read of the port returned, or that it timed out, and
when. -/
inductive Turn where
  /-- A read returned these bytes. -/
  | read (data : List UInt8) (now : Nat)
  /-- The read timed out. -/
  | idle (now : Nat)

/-- When a turn is made. -/
def Turn.time : Turn → Nat
  | .read _ now => now
  | .idle now => now

/-- What a turn read. -/
def Turn.data : Turn → List UInt8
  | .read data _ => data
  | .idle _ => []

/-- An online loop under way. -/
structure Online where
  /-- The line. -/
  line : Line
  /-- What went to the remote so far. -/
  forwarded : List UInt8
  /-- The loop ended with the escape. -/
  escaped : Bool

namespace Online

/-- The loop on going online. -/
def start (line : Line) (now : Nat) : Online :=
  ⟨{ line with escape := line.escape.reset now }, [], false⟩

/-- The poll that ends a turn. -/
def pollAfter (online : Online) (now : Nat) : Online :=
  match online.line.pollPlusEscape now with
  | (.idle, line) => { online with line }
  | (.escape, line) => { online with line, escaped := true }
  | (.release held, line) => { online with line, forwarded := online.forwarded ++ held }

/-- One turn of the body of `online_mode_tcp`. -/
def turn (online : Online) : Turn → Online
  | .idle now => online.pollAfter now
  | .read data now =>
    match online.line.escapeBeforeRead data now with
    | (none, line) => { online with line, escaped := true }
    | (some ahead, line) =>
      let (line, forward) := line.processOnlineBytes data now
      pollAfter { online with line, forwarded := online.forwarded ++ (ahead ++ forward) } now

/-- The loop over turns, up to the first that ends it. -/
def run (online : Online) : List Turn → Online
  | [] => online
  | turn :: turns => if online.escaped then online else (online.turn turn).run turns

end Online

/-! ## What was read, and when it is an escape -/

/-- The bytes read so far with their times, newest first. -/
abbrev History := List (UInt8 × Nat)

/-- The bytes of a history in the order they were read. -/
def History.bytes (history : History) : List UInt8 := history.reverse.map Prod.fst

/-- When the newest byte was read, or when the line went online if none was. -/
def lastTime (online : Nat) : History → Nat
  | [] => online
  | (_, time) :: _ => time

/-- The three newest bytes are escape characters, the first at least guard time after the byte
before it, each less than guard time after the one before it, and nothing was read for guard time
since. -/
def Escapes (esc : UInt8) (guard online : Nat) (history : History) (now : Nat) : Prop :=
  PlusEscape.enabled esc guard ∧ ∃ first second third before,
    history = (esc, third) :: (esc, second) :: (esc, first) :: before ∧
    lastTime online before + guard ≤ first ∧ second < first + guard ∧ third < second + guard ∧
    third + guard ≤ now

/-- The newest `k` bytes are escape characters, the first at least guard time after the byte
before it and each other less than guard time after the one before it. -/
inductive Held (esc : UInt8) (guard online : Nat) : Nat → History → Prop
  | first {before : History} {now : Nat} (quiet : lastTime online before + guard ≤ now) :
      Held esc guard online 1 ((esc, now) :: before)
  | next {k : Nat} {before : History} {now : Nat} (held : Held esc guard online k before)
      (soon : now < lastTime online before + guard) :
      Held esc guard online (k + 1) ((esc, now) :: before)

section Detector

variable {esc : UInt8} {guard online : Nat}

/-- A history ends in one run of escape characters. -/
theorem Held.unique {k j : Nat} {history : History} (one : Held esc guard online k history)
    (two : Held esc guard online j history) : k = j := by
  induction one generalizing j with
  | first quiet =>
    cases two with
    | first _ => rfl
    | next _ soon => omega
  | next _ soon ih =>
    cases two with
    | first quiet => omega
    | next held _ => rw [ih held]

theorem Held.positive {k : Nat} {history : History} (held : Held esc guard online k history) :
    0 < k := by
  cases held <;> omega

/-- The escape is a run of three and then guard time. -/
theorem escapes_iff {history : History} {now : Nat} :
    Escapes esc guard online history now ↔ PlusEscape.enabled esc guard ∧
      Held esc guard online 3 history ∧ lastTime online history + guard ≤ now := by
  constructor
  · rintro ⟨on, first, second, third, before, rfl, quiet, soon, sooner, silent⟩
    exact ⟨on, .next (.next (.first quiet) soon) sooner, silent⟩
  · rintro ⟨on, held, silent⟩
    cases held with
    | next held sooner =>
      cases held with
      | next held soon =>
        cases held with
        | first quiet => exact ⟨on, _, _, _, _, rfl, quiet, soon, sooner, silent⟩
        | next held _ => exact absurd held.positive (Nat.lt_irrefl 0)

/-! ## The detector follows the history -/

/-- What a detector knows of the bytes read, at a time up to which it was polled or fed. -/
structure Tracks (esc : UInt8) (guard online : Nat) (history : History) (clock : Nat)
    (detector : PlusEscape) : Prop where
  /-- The newest byte is not from the future. -/
  past : lastTime online history ≤ clock
  /-- At most three characters are held. -/
  few : detector.plusCount ≤ 3
  /-- With none held the newest byte was data, and a run of up to three is over. -/
  free : detector.plusCount = 0 → detector.lastDataTime = lastTime online history ∧
    (PlusEscape.enabled esc guard → ∀ k ≤ 3, Held esc guard online k history →
      k < 3 ∧ lastTime online history + guard ≤ clock)
  /-- The characters held are the run the history ends in. -/
  held : 0 < detector.plusCount → PlusEscape.enabled esc guard ∧
    Held esc guard online detector.plusCount history ∧
    detector.plusStart = lastTime online history

/-- The run held, if any, is not over. -/
def PlusEscape.Settled (detector : PlusEscape) (guard now : Nat) : Prop :=
  0 < detector.plusCount → now < detector.plusStart + guard

theorem PlusEscape.enabled_guard (on : PlusEscape.enabled esc guard) : 0 < guard := by
  simp only [PlusEscape.enabled, Bool.and_eq_true, bne_iff_ne] at on
  omega

variable {history : History} {clock now : Nat} {detector : PlusEscape}

/-- What a poll can do: nothing, the run not being over; report the escape; or release a run of
one or two that is over. -/
theorem Tracks.poll (tracks : Tracks esc guard online history clock detector)
    (later : clock ≤ now) :
    (detector.poll esc guard now = (.idle, detector) ∧ ¬ Escapes esc guard online history now ∧
      detector.Settled guard now ∧ Tracks esc guard online history now detector) ∨
    (∃ free, detector.poll esc guard now = (.escape, free) ∧
      Escapes esc guard online history now ∧ detector.plusCount = 3) ∨
    ∃ free, detector.poll esc guard now =
        (.release (List.replicate detector.plusCount esc), free) ∧
      ¬ Escapes esc guard online history now ∧ free.plusCount = 0 ∧
      Tracks esc guard online history now free := by
  have past := tracks.past
  rw [escapes_iff, PlusEscape.poll]
  by_cases none : detector.plusCount = 0
  · left
    obtain ⟨last, ended⟩ := tracks.free none
    rw [if_pos (.inl none)]
    refine ⟨rfl, fun ⟨on, held, _⟩ => absurd (ended on 3 (Nat.le_refl 3) held).1 (Nat.lt_irrefl 3),
      fun some => by omega, by omega, tracks.few, fun _ => ⟨last, fun on k small held => ?_⟩,
      fun some => by omega⟩
    obtain ⟨short, silent⟩ := ended on k small held
    exact ⟨short, by omega⟩
  · obtain ⟨on, held, start⟩ := tracks.held (by omega)
    have positive := PlusEscape.enabled_guard on
    by_cases waiting : now - detector.plusStart < guard
    · left
      rw [if_pos (.inr waiting)]
      refine ⟨rfl, fun ⟨_, _, silent⟩ => by omega, fun _ => by omega, by omega, tracks.few,
        fun absent => absurd absent none, fun _ => ⟨on, held, start⟩⟩
    · right
      rw [if_neg (by omega)]
      by_cases three : detector.plusCount = 3
      · left
        rw [if_pos three]
        exact ⟨_, rfl, ⟨on, three ▸ held, by omega⟩, three⟩
      · right
        rw [if_neg three]
        refine ⟨_, rfl, fun ⟨_, other, _⟩ => three (held.unique other), rfl, by omega,
          Nat.zero_le _, fun _ => ⟨start, fun _ k small other => ?_⟩,
          fun some => absurd some (Nat.lt_irrefl 0)⟩
        have same := held.unique other
        have few := tracks.few
        exact ⟨by omega, by omega⟩

/-- A byte is held or let through behind the ones held before, and the detector follows. -/
theorem Tracks.feedByte (tracks : Tracks esc guard online history clock detector)
    (settled : detector.Settled guard now) (later : clock ≤ now) (byte : UInt8) :
    Tracks esc guard online ((byte, now) :: history) now
      (detector.feedByte esc guard now byte).1 ∧
    (detector.feedByte esc guard now byte).1.Settled guard now ∧
    (detector.feedByte esc guard now byte).2 ++
        List.replicate (detector.feedByte esc guard now byte).1.plusCount esc =
      List.replicate detector.plusCount esc ++ [byte] := by
  have past := tracks.past
  have kept : detector.giveUp esc guard now = (detector, []) := by
    rw [PlusEscape.giveUp, if_neg]
    rintro ⟨some, _, ended⟩
    have waiting := settled some
    obtain ⟨on, _⟩ := tracks.held some
    have positive := PlusEscape.enabled_guard on
    omega
  rw [PlusEscape.feedByte, kept]
  simp only [List.nil_append]
  rw [PlusEscape.take]
  by_cases begins : PlusEscape.enabled esc guard ∧ byte = esc ∧ detector.plusCount = 0 ∧
      guard ≤ now - detector.lastDataTime
  · -- The first of a run.
    obtain ⟨on, rfl, none, quiet⟩ := begins
    obtain ⟨last, _⟩ := tracks.free none
    have positive := PlusEscape.enabled_guard on
    rw [if_pos ⟨on, rfl, none, quiet⟩]
    refine ⟨⟨Nat.le_refl _, by simp, by simp, fun _ => ⟨on, .first ?_, rfl⟩⟩, fun _ => ?_, ?_⟩
    · omega
    · simpa using positive
    · simp [none]
  · by_cases continues : PlusEscape.enabled esc guard ∧ byte = esc ∧ 0 < detector.plusCount ∧
        detector.plusCount < 3
    · -- One more of a run.
      obtain ⟨on, rfl, some, few⟩ := continues
      obtain ⟨_, held, start⟩ := tracks.held some
      have waiting := settled some
      have positive := PlusEscape.enabled_guard on
      rw [if_neg begins, if_pos ⟨on, rfl, some, few⟩]
      refine ⟨⟨Nat.le_refl _, few, by simp, fun _ => ⟨on, .next held ?_, rfl⟩⟩, fun _ => ?_, ?_⟩
      · omega
      · simpa using positive
      · simp [List.replicate_succ']
    · -- Data, and whatever was held with it.
      rw [if_neg begins, if_neg continues]
      refine ⟨⟨Nat.le_refl _, Nat.zero_le _, fun _ => ⟨rfl, fun on k small held => ?_⟩,
        fun some => absurd some (Nat.lt_irrefl 0)⟩, fun some => absurd some (Nat.lt_irrefl 0), ?_⟩
      · exfalso
        rcases Nat.eq_zero_or_pos detector.plusCount with none | some
        · obtain ⟨last, ended⟩ := tracks.free none
          cases held with
          | first quiet => exact begins ⟨on, rfl, none, by omega⟩
          | next held soon =>
            have silent := (ended on _ (by omega) held).2
            omega
        · obtain ⟨_, run, start⟩ := tracks.held some
          have waiting := settled some
          cases held with
          | first quiet => omega
          | next held soon =>
            have same := run.unique held
            exact continues ⟨on, rfl, some, by omega⟩
      · simp

/-- A read is let through behind the characters held, but for those held after it. -/
theorem Tracks.feed (tracks : Tracks esc guard online history clock detector)
    (settled : detector.Settled guard now) (later : clock ≤ now) (data : List UInt8) :
    (∃ clock' ≤ now, Tracks esc guard online ((data.map (·, now)).reverse ++ history) clock'
      (detector.feed esc guard now data).1) ∧
    (detector.feed esc guard now data).1.Settled guard now ∧
    (detector.feed esc guard now data).2 ++
        List.replicate (detector.feed esc guard now data).1.plusCount esc =
      List.replicate detector.plusCount esc ++ data := by
  induction data generalizing detector history clock with
  | nil => exact ⟨⟨clock, later, tracks⟩, settled, by simp [PlusEscape.feed]⟩
  | cons byte data ih =>
    obtain ⟨tracks', settled', through⟩ := tracks.feedByte settled later byte
    obtain ⟨last, settledLast, rest⟩ := ih tracks' settled' (Nat.le_refl now)
    simp only [PlusEscape.feed]
    refine ⟨?_, settledLast, ?_⟩
    · simpa using last
    · rw [List.append_assoc, rest, ← List.append_assoc, through, List.append_assoc]
      rfl

/-- A run that is not over leaves nothing for a poll to do. -/
theorem Tracks.poll_settled (tracks : Tracks esc guard online history clock detector)
    (settled : detector.Settled guard now) :
    detector.poll esc guard now = (.idle, detector) := by
  rw [PlusEscape.poll, if_pos]
  rcases Nat.eq_zero_or_pos detector.plusCount with none | some
  · exact .inl none
  · have waiting := settled some
    have positive := PlusEscape.enabled_guard (tracks.held some).1
    exact .inr (by omega)

end Detector

/-! ## The loop follows what was read -/

/-- The times of turns do not run backwards, from the time the line went online. -/
def Ordered (online : Nat) (turns : List Turn) : Prop :=
  (online :: turns.map Turn.time).Pairwise (· ≤ ·)

/-- What an online loop that has not ended keeps, at a time up to which it turned. -/
structure Online.Keeps (esc : UInt8) (guard : Nat) (kept : List UInt8) (online : Nat)
    (history : History) (clock : Nat) (loop : Online) : Prop where
  /-- It has not ended. -/
  running : loop.escaped = false
  /-- The escape character stays. -/
  escapeChar : loop.line.escapeChar = esc
  /-- The guard time stays. -/
  guardTime : loop.line.guardTime = guard
  /-- Nothing was kept for command mode. -/
  pending : loop.line.pendingInput = kept
  /-- The detector follows what was read. -/
  tracks : ∃ before ≤ clock, Tracks esc guard online history before loop.line.escape
  /-- What went to the remote, and then what is held, is what was read. -/
  through : loop.forwarded ++ List.replicate loop.line.escape.plusCount esc = history.bytes

section Loop

variable {esc : UInt8} {guard online clock now : Nat} {kept : List UInt8} {history : History}
  {loop : Online} {free : PlusEscape} {held : List UInt8}

theorem Online.pollAfter_idle (polled : loop.line.escape.poll loop.line.escapeChar
    loop.line.guardTime now = (.idle, loop.line.escape)) : loop.pollAfter now = loop := by
  simp [pollAfter, Line.pollPlusEscape, polled]

theorem Online.pollAfter_escape (polled : loop.line.escape.poll loop.line.escapeChar
    loop.line.guardTime now = (.escape, free)) :
    loop.pollAfter now =
      { loop with line := { loop.line with escape := free }, escaped := true } := by
  simp [pollAfter, Line.pollPlusEscape, polled]

theorem Online.pollAfter_release (polled : loop.line.escape.poll loop.line.escapeChar
    loop.line.guardTime now = (.release held, free)) :
    loop.pollAfter now =
      { loop with
        line := { loop.line with escape := free }
        forwarded := loop.forwarded ++ held } := by
  simp [pollAfter, Line.pollPlusEscape, polled]

theorem History.bytes_read (history : History) (data : List UInt8) (now : Nat) :
    History.bytes ((data.map (·, now)).reverse ++ history) = history.bytes ++ data := by
  simp [History.bytes, Function.comp_def]

/-- A read fed to a detector that a poll just settled keeps what a loop keeps. -/
theorem Online.Keeps.fed (keeps : Keeps esc guard kept online history clock loop)
    (settled : loop.line.escape.Settled guard now) (later : clock ≤ now) (data : List UInt8) :
    Keeps esc guard kept online ((data.map (·, now)).reverse ++ history) now
      (pollAfter { loop with
        line := (loop.line.processOnlineBytes data now).1
        forwarded := loop.forwarded ++ (loop.line.processOnlineBytes data now).2 } now) := by
  obtain ⟨running, rfl, rfl, rfl, ⟨before, early, tracks⟩, through⟩ := keeps
  obtain ⟨⟨after, soon, tracks'⟩, settled', rest⟩ :=
    tracks.feed settled (Nat.le_trans early later) data
  have idle := tracks'.poll_settled settled'
  rw [Online.pollAfter_idle idle]
  refine ⟨running, rfl, rfl, rfl, ⟨after, soon, tracks'⟩, ?_⟩
  simp only [Line.processOnlineBytes, List.append_assoc] at rest ⊢
  rw [rest, ← List.append_assoc, through, History.bytes_read]

/-- A turn ends the loop when what was read is the escape, keeping what it read for command mode;
and else the loop goes on. -/
theorem Online.Keeps.turn (keeps : Keeps esc guard kept online history clock loop) {turn : Turn}
    (later : clock ≤ turn.time) :
    (¬ Escapes esc guard online history turn.time ∧
      Keeps esc guard kept online ((turn.data.map (·, turn.time)).reverse ++ history) turn.time
        (loop.turn turn)) ∨
    (Escapes esc guard online history turn.time ∧ (loop.turn turn).escaped = true ∧
      (loop.turn turn).forwarded = loop.forwarded ∧ loop.line.escape.plusCount = 3 ∧
      (loop.turn turn).line.pendingInput = kept ++ turn.data) := by
  have keeps' := keeps
  obtain ⟨running, rfl, rfl, rfl, ⟨before, early, tracks⟩, through⟩ := keeps
  have polled := tracks.poll (Nat.le_trans early later)
  cases turn with
  | idle now =>
    rw [Online.turn]
    simp only [Turn.time, Turn.data] at later polled ⊢
    rcases polled with ⟨idle, quiet, _, after⟩ | ⟨free, escape, escapes, three⟩ |
      ⟨free, released, quiet, zero, after⟩
    · left
      rw [Online.pollAfter_idle idle]
      exact ⟨quiet, running, rfl, rfl, rfl, ⟨now, Nat.le_refl _, after⟩, through⟩
    · right
      rw [Online.pollAfter_escape escape]
      exact ⟨escapes, rfl, rfl, three, (List.append_nil _).symm⟩
    · left
      rw [Online.pollAfter_release released]
      refine ⟨quiet, running, rfl, rfl, rfl, ⟨now, Nat.le_refl _, after⟩, ?_⟩
      simpa [zero] using through
  | read data now =>
    rw [Online.turn, Line.escapeBeforeRead, Line.pollPlusEscape]
    simp only [Turn.time, Turn.data] at later polled ⊢
    rcases polled with ⟨idle, quiet, settled, _⟩ | ⟨free, escape, escapes, three⟩ |
      ⟨free, released, quiet, zero, after⟩
    · left
      rw [idle]
      exact ⟨quiet, keeps'.fed settled later data⟩
    · right
      rw [escape]
      exact ⟨escapes, rfl, rfl, three, rfl⟩
    · left
      rw [released]
      have freed : Keeps loop.line.escapeChar loop.line.guardTime loop.line.pendingInput online
          history now { loop with
            line := { loop.line with escape := free }
            forwarded := loop.forwarded ++
              List.replicate loop.line.escape.plusCount loop.line.escapeChar } :=
        ⟨running, rfl, rfl, rfl, ⟨now, Nat.le_refl _, after⟩, by simpa [zero] using through⟩
      have fed := freed.fed (fun some => absurd some (by simp [zero])) (Nat.le_refl now) data
      simp only [List.append_assoc] at fed
      exact ⟨quiet, fed⟩

/-- When the last turn was made, or when the line went online if none was. -/
def lastTurn (online : Nat) (turns : List Turn) : Nat :=
  (turns.getLast?.map Turn.time).getD online

/-- Turns that are ordered, one turn on. -/
theorem Ordered.concat {turns : List Turn} {turn : Turn}
    (ordered : Ordered online (turns ++ [turn])) :
    Ordered online turns ∧ lastTurn online turns ≤ turn.time := by
  rw [Ordered, List.map_append, ← List.cons_append] at ordered
  obtain ⟨before, _, later⟩ := List.pairwise_append.mp ordered
  refine ⟨before, ?_⟩
  rw [lastTurn]
  cases last : turns.getLast? with
  | none => exact later online List.mem_cons_self _ (by simp)
  | some newest =>
    exact later _ (List.mem_cons_of_mem _ (List.mem_map_of_mem (List.mem_of_getLast? last))) _
      (by simp)

end Loop

end EthernetGateway.Serial
