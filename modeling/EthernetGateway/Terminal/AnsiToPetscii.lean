import Mathlib

/-!
# Escape sequences on their way to a Commodore

`AnsiToPetscii` reads a remote's output a byte at a time. What belongs to no escape sequence is
handed to the caller as text; a control sequence becomes the PETSCII control bytes that mean the
same, if there are any; everything else is dropped. A sequence that is never finished has to be
given up, or the screen stays silent: a control sequence is, after a fixed number of parameter
bytes, while a string sequence is only if its escape bytes all belong to its terminator.
-/

namespace EthernetGateway.Terminal

/-- The byte that starts an escape sequence. -/
abbrev esc : UInt8 := 0x1B

/-- The byte that ends a string sequence. -/
abbrev bel : UInt8 := 0x07

/-- A backslash, which after an escape byte ends a string sequence. -/
abbrev backslash : UInt8 := 0x5C

/-- The byte that after an escape byte starts a control sequence. -/
abbrev csiIntroducer : UInt8 := 0x5B

/-- `CSI_PARAM_CAP`. -/
abbrev csiParamCap : Nat := 64

/-- `STRING_SEQ_CAP`. -/
abbrev stringSeqCap : Nat := 8192

/-- What `ESC[0m` and `ESC[39m` restore. -/
abbrev defaultColour : UInt8 := 0x9B

/-- `RVS_ON`. -/
abbrev rvsOn : UInt8 := 0x12

/-- `RVS_OFF`. -/
abbrev rvsOff : UInt8 := 0x92

/-- `CLR`. -/
abbrev clr : UInt8 := 0x93

/-- `HOME`. -/
abbrev home : UInt8 := 0x13

/-- `FG_NORMAL`: the eight foreground colours at normal intensity. -/
def fgNormal : List UInt8 := [0x97, 0x1C, 0x1E, 0x9E, 0x1F, 0x9C, 0x9F, 0x9B]

/-- `FG_BRIGHT`: the same eight at high intensity. -/
def fgBright : List UInt8 := [0x98, 0x96, 0x99, 0x9E, 0x9A, 0x9C, 0x9F, 0x05]

/-- The parser phase of `AnsiToPetscii::state`. -/
inductive AnsiPhase where
  /-- Ordinary text. -/
  | text
  /-- An escape byte was read. -/
  | escape
  /-- Inside a control sequence. -/
  | csi
  /-- Inside a string sequence. -/
  | string
  /-- An escape byte was read inside a string sequence. -/
  | stringEscape
  deriving DecidableEq

/-- `AnsiToPetscii`. -/
structure AnsiToPetscii where
  /-- Where the parser is. -/
  state : AnsiPhase
  /-- Parameter and intermediate bytes of the control sequence being read. -/
  params : List UInt8
  /-- Bytes counted inside the current string sequence. -/
  swallowed : Nat
  /-- Whether `ESC[1m` is in force. -/
  bold : Bool
  deriving DecidableEq

/-- What `AnsiToPetscii::feed` does with a byte: hand it to the text callback, or push a control
byte of its own. -/
inductive Shown where
  /-- A byte for the text callback. -/
  | text (byte : UInt8)
  /-- A PETSCII control byte. -/
  | control (byte : UInt8)
  deriving DecidableEq

namespace AnsiToPetscii

/-- `AnsiToPetscii::new`. -/
def new : AnsiToPetscii := ⟨.text, [], 0, false⟩

/-! ## Control sequences -/

/-- `split` of the parameter bytes at each semicolon. -/
def fields : List UInt8 → List (List UInt8)
  | [] => [[]]
  | byte :: raw =>
    if byte = 0x3B then [] :: fields raw
    else
      match fields raw with
      | [] => [[byte]]
      | field :: rest => (byte :: field) :: rest

/-- One field of `parse_params`: its digits as a saturating sixteen-bit number. -/
def fieldValue (field : List UInt8) : Nat :=
  (field.filter fun byte => 0x30 ≤ byte ∧ byte ≤ 0x39).foldl
    (fun value byte => min 65535 (min 65535 (value * 10) + (byte.toNat - 0x30))) 0

/-- `parse_params`. -/
def parseParams (raw : List UInt8) : List Nat :=
  if raw = [] then [] else (fields raw).map fieldValue

/-- `first_param`. -/
def firstParam (raw : List UInt8) (default : Nat) : Nat :=
  match (parseParams raw).head? with
  | none => default
  | some 0 => default
  | some (n + 1) => n + 1

/-- The colour of a palette index below sixteen, nothing for the others. -/
def paletteColour (index : Nat) : List UInt8 :=
  if index < 8 then [fgNormal.getD index 0]
  else if index < 16 then [fgBright.getD (index - 8) 0]
  else []

/-- One parameter of `emit_sgr` that is not an extended colour: the bold flag after it, and the
bytes it shows. -/
def sgrParam (bold : Bool) (p : Nat) : Bool × List UInt8 :=
  if p = 0 then (false, [rvsOff, defaultColour])
  else if p = 1 then (true, [])
  else if p = 2 ∨ p = 22 then (false, [])
  else if p = 7 then (bold, [rvsOn])
  else if p = 27 then (bold, [rvsOff])
  else if 30 ≤ p ∧ p ≤ 37 then (bold, [(if bold then fgBright else fgNormal).getD (p - 30) 0])
  else if p = 39 then (bold, [defaultColour])
  else if 90 ≤ p ∧ p ≤ 97 then (bold, [fgBright.getD (p - 90) 0])
  else (bold, [])

/-- The loop of `emit_sgr` over the parameters, left to right. -/
def sgrLoop (bold : Bool) : List Nat → Bool × List UInt8
  | [] => (bold, [])
  | p :: params =>
    if p = 38 ∨ p = 48 then
      match params with
      | 5 :: index :: rest =>
        let after := sgrLoop bold rest
        (after.1, (if p = 38 then paletteColour index else []) ++ after.2)
      | 2 :: _ :: _ :: _ :: rest => sgrLoop bold rest
      -- A cut short or malformed extended colour takes what follows it along.
      | _ => (bold, [])
    else
      let here := sgrParam bold p
      let after := sgrLoop here.1 params
      (after.1, here.2 ++ after.2)

/-- `emit_sgr`. -/
def emitSgr (bold : Bool) (params : List Nat) : Bool × List UInt8 :=
  if params = [] then (false, [rvsOff, defaultColour]) else sgrLoop bold params

/-- The cursor key of `emit_csi` for the final bytes `A` to `D`. -/
def cursorKey (final : UInt8) : UInt8 :=
  if final = 0x41 then 0x91
  else if final = 0x42 then 0x11
  else if final = 0x43 then 0x1D
  else 0x9D

/-- Whether a control sequence's parameters begin with a private-use byte. -/
def isPrivate (params : List UInt8) : Bool :=
  params.head?.any fun byte => 0x3C ≤ byte && byte ≤ 0x3F

/-- `emit_csi`: the bold flag after a complete control sequence, and the bytes it shows. -/
def emitCsi (bold : Bool) (params : List UInt8) (final : UInt8) : Bool × List UInt8 :=
  if isPrivate params then (bold, [])
  else if final = 0x6D then emitSgr bold (parseParams params)
  else if final = 0x4A then
    (bold, if firstParam params 0 = 2 ∨ firstParam params 0 = 3 then [clr] else [])
  else if final = 0x48 ∨ final = 0x66 then
    (bold, if (parseParams params).all (· ≤ 1) then [home] else [])
  else if 0x41 ≤ final ∧ final ≤ 0x44 then
    (bold, List.replicate (max 1 (min 80 (firstParam params 1))) (cursorKey final))
  else (bold, [])

/-! ## The parser -/

/-- Whether a byte after an escape byte starts a string sequence. -/
def isStringIntroducer (byte : UInt8) : Bool :=
  byte = 0x5D || byte = 0x50 || byte = 0x58 || byte = 0x5E || byte = 0x5F

/-- Whether a byte ends a control sequence. -/
def isFinal (byte : UInt8) : Bool := 0x40 ≤ byte && byte ≤ 0x7E

/-- `AnsiToPetscii::feed`. -/
def feed (ansi : AnsiToPetscii) (byte : UInt8) : AnsiToPetscii × List Shown :=
  match ansi.state with
  | .text => if byte = esc then ({ ansi with state := .escape }, []) else (ansi, [.text byte])
  | .escape =>
    if byte < 0x20 ∧ byte ≠ esc then ({ ansi with state := .text }, [.text byte])
    else if byte = csiIntroducer then ({ ansi with params := [], state := .csi }, [])
    else if isStringIntroducer byte then ({ ansi with state := .string }, [])
    else if byte = esc then ({ ansi with state := .escape }, [])
    else ({ ansi with state := .text }, [])
  | .csi =>
    if isFinal byte then
      let csi := emitCsi ansi.bold ansi.params byte
      ({ ansi with bold := csi.1, params := [], state := .text }, csi.2.map .control)
    else if byte = esc then ({ ansi with params := [], state := .escape }, [])
    else if byte < 0x20 then ({ ansi with params := [], state := .text }, [.text byte])
    else if byte = 0x7F ∨ csiParamCap ≤ ansi.params.length then
      ({ ansi with params := [], state := .text }, [])
    else ({ ansi with params := ansi.params ++ [byte] }, [])
  | .string =>
    let swallowed := ansi.swallowed + 1
    if byte = bel then ({ ansi with state := .text, swallowed := 0 }, [])
    else if byte = esc then ({ ansi with state := .stringEscape, swallowed }, [])
    else if stringSeqCap ≤ swallowed then ({ ansi with state := .text, swallowed := 0 }, [])
    else ({ ansi with swallowed }, [])
  | .stringEscape =>
    if byte = backslash then ({ ansi with state := .text, swallowed := 0 }, [])
    else ({ ansi with state := .string }, [])

/-- The parser after a run of bytes. -/
def after (ansi : AnsiToPetscii) : List UInt8 → AnsiToPetscii
  | [] => ansi
  | byte :: bytes => after (ansi.feed byte).1 bytes

/-- What a run of bytes shows. -/
def shown (ansi : AnsiToPetscii) : List UInt8 → List Shown
  | [] => []
  | byte :: bytes => (ansi.feed byte).2 ++ shown (ansi.feed byte).1 bytes

@[simp] theorem after_append (ansi : AnsiToPetscii) (first second : List UInt8) :
    ansi.after (first ++ second) = (ansi.after first).after second := by
  induction first generalizing ansi with
  | nil => rfl
  | cons byte first ih => exact ih (ansi.feed byte).1

@[simp] theorem shown_append (ansi : AnsiToPetscii) (first second : List UInt8) :
    ansi.shown (first ++ second) = ansi.shown first ++ (ansi.after first).shown second := by
  induction first generalizing ansi with
  | nil => rfl
  | cons byte first ih => simp only [List.cons_append, shown, after, ih, List.append_assoc]

/-- The parser after one byte more. -/
theorem after_concat (ansi : AnsiToPetscii) (bytes : List UInt8) (byte : UInt8) :
    ansi.after (bytes ++ [byte]) = ((ansi.after bytes).feed byte).1 :=
  after_append ansi bytes [byte]

/-! ## One byte at a time -/

/-- A text byte is handed on. -/
theorem feed_text {ansi : AnsiToPetscii} {byte : UInt8} (text : ansi.state = .text)
    (plain : byte ≠ esc) : ansi.feed byte = (ansi, [.text byte]) := by
  simp [feed, text, plain]

/-- An escape byte in text starts a sequence. -/
theorem feed_esc {ansi : AnsiToPetscii} (text : ansi.state = .text) :
    ansi.feed esc = ({ ansi with state := .escape }, []) := by
  simp [feed, text]

/-- An escape byte and `[` start a control sequence. -/
theorem feed_csiIntroducer {ansi : AnsiToPetscii} (escaped : ansi.state = .escape) :
    ansi.feed csiIntroducer = ({ ansi with params := [], state := .csi }, []) := by
  have high : ¬ (csiIntroducer < 0x20 ∧ csiIntroducer ≠ esc) := by decide
  simp only [feed, escaped, high, ↓reduceIte]

/-- The bytes that start a string sequence are printable and do not start a control sequence. -/
theorem isStringIntroducer_printable {byte : UInt8} (starts : isStringIntroducer byte) :
    ¬ (byte < 0x20 ∧ byte ≠ esc) ∧ byte ≠ csiIntroducer := by
  simp only [isStringIntroducer, Bool.or_eq_true, decide_eq_true_eq] at starts
  rcases starts with (((rfl | rfl) | rfl) | rfl) | rfl <;> decide

/-- An escape byte and one of the introducers start a string sequence. -/
theorem feed_stringIntroducer {ansi : AnsiToPetscii} {byte : UInt8}
    (escaped : ansi.state = .escape) (starts : isStringIntroducer byte) :
    ansi.feed byte = ({ ansi with state := .string }, []) := by
  have printable := isStringIntroducer_printable starts
  simp only [feed, escaped, if_neg printable.1, if_neg printable.2, if_pos starts]

/-- An escape byte inside a string sequence is counted and may start its terminator. -/
theorem feed_string_esc {ansi : AnsiToPetscii} (string : ansi.state = .string) :
    ansi.feed esc =
      ({ ansi with state := .stringEscape, swallowed := ansi.swallowed + 1 }, []) := by
  have other : esc ≠ bel := by decide
  simp only [feed, string, if_neg other, ↓reduceIte]

/-- A backslash after an escape byte inside a string sequence ends it. -/
theorem feed_stringEscape_backslash {ansi : AnsiToPetscii} (escaped : ansi.state = .stringEscape) :
    ansi.feed backslash = ({ ansi with state := .text, swallowed := 0 }, []) := by
  simp only [feed, escaped, ↓reduceIte]

/-- Any other byte after an escape byte inside a string sequence is taken as payload, uncounted. -/
theorem feed_stringEscape {ansi : AnsiToPetscii} {byte : UInt8}
    (escaped : ansi.state = .stringEscape) (other : byte ≠ backslash) :
    ansi.feed byte = ({ ansi with state := .string }, []) := by
  simp only [feed, escaped, if_neg other]

/-! ## How long a sequence can last -/

/-- Whether the parser is inside a string sequence. -/
def inString (ansi : AnsiToPetscii) : Bool :=
  ansi.state = .string || ansi.state = .stringEscape

/-- Whether the parser takes the next byte as text or as part of a sequence just started. -/
def between (ansi : AnsiToPetscii) : Bool := ansi.state = .text || ansi.state = .escape

/-- How many bytes of a run the sequence under way consumes before the parser is back to text or to
the start of a new sequence. An escape byte that starts a new sequence belongs to that one. -/
def consumed (ansi : AnsiToPetscii) : List UInt8 → Nat
  | [] => 0
  | byte :: bytes =>
    if ansi.between ∨ (ansi.feed byte).1.state = .escape then 0
    else 1 + consumed (ansi.feed byte).1 bytes

/-- A string sequence stays open over a whole run of bytes. -/
def StaysOpen (ansi : AnsiToPetscii) : List UInt8 → Prop
  | [] => ansi.inString
  | byte :: bytes => ansi.inString ∧ StaysOpen (ansi.feed byte).1 bytes

/-- A byte after an escape byte inside a string sequence is the backslash that ends it. -/
def Calm (ansi : AnsiToPetscii) (byte : UInt8) : Prop :=
  ansi.state = .stringEscape → byte = backslash

/-- Every byte of a run is calm where it is read. -/
def CalmRun (ansi : AnsiToPetscii) : List UInt8 → Prop
  | [] => True
  | byte :: bytes => ansi.Calm byte ∧ CalmRun (ansi.feed byte).1 bytes

instance decidableStaysOpen :
    (ansi : AnsiToPetscii) → (bytes : List UInt8) → Decidable (ansi.StaysOpen bytes)
  | ansi, [] => inferInstanceAs (Decidable (ansi.inString = true))
  | ansi, byte :: bytes =>
    @instDecidableAnd _ _ (inferInstanceAs (Decidable (ansi.inString = true)))
      (decidableStaysOpen (ansi.feed byte).1 bytes)

instance decidableCalm (ansi : AnsiToPetscii) (byte : UInt8) : Decidable (ansi.Calm byte) :=
  inferInstanceAs (Decidable (ansi.state = .stringEscape → byte = backslash))

instance decidableCalmRun :
    (ansi : AnsiToPetscii) → (bytes : List UInt8) → Decidable (ansi.CalmRun bytes)
  | _, [] => .isTrue trivial
  | ansi, byte :: bytes =>
    @instDecidableAnd _ _ (decidableCalm ansi byte) (decidableCalmRun (ansi.feed byte).1 bytes)

/-- What holds of a parser between two bytes: it counts inside a string sequence only. -/
structure Settled (ansi : AnsiToPetscii) : Prop where
  /-- No byte is counted outside a string sequence. -/
  swallowed : ansi.inString = false → ansi.swallowed = 0

/-- A fresh parser is settled. -/
theorem new_settled : new.Settled := ⟨fun _ => rfl⟩

/-- A byte leaves a settled parser settled. -/
theorem feed_settled {ansi : AnsiToPetscii} (settled : ansi.Settled) (byte : UInt8) :
    (ansi.feed byte).1.Settled := by
  obtain ⟨state, params, swallowed, bold⟩ := ansi
  have counted := settled.swallowed
  constructor
  cases state <;> simp only [feed, inString] at counted ⊢ <;> split_ifs <;> simp_all

/-- A run leaves a settled parser settled. -/
theorem after_settled {ansi : AnsiToPetscii} (settled : ansi.Settled) (bytes : List UInt8) :
    (ansi.after bytes).Settled := by
  induction bytes generalizing ansi with
  | nil => exact settled
  | cons byte bytes ih => exact ih (feed_settled settled byte)

/-- A calm run cut in two is calm in both parts. -/
theorem calmRun_append {ansi : AnsiToPetscii} {first second : List UInt8} :
    ansi.CalmRun (first ++ second) ↔ ansi.CalmRun first ∧ (ansi.after first).CalmRun second := by
  induction first generalizing ansi with
  | nil => simp [CalmRun, after]
  | cons byte first ih => simp only [List.cons_append, CalmRun, after, ih, and_assoc]

/-- Between two sequences none is consumed. -/
theorem consumed_between {ansi : AnsiToPetscii} (between : ansi.between) (bytes : List UInt8) :
    ansi.consumed bytes = 0 := by
  cases bytes with
  | nil => rfl
  | cons byte bytes => simp [consumed, between]

/-- A control sequence under way ends at the latest with the byte after its last parameter. -/
theorem consumed_csi {ansi : AnsiToPetscii} (bytes : List UInt8) (csi : ansi.state = .csi)
    (kept : ansi.params.length ≤ csiParamCap) :
    ansi.consumed bytes + ansi.params.length ≤ csiParamCap + 1 := by
  induction bytes generalizing ansi with
  | nil => exact Nat.le_succ_of_le (by simpa [consumed] using kept)
  | cons byte bytes ih =>
    have inside : ansi.between = false := by simp [between, csi]
    by_cases grows : (ansi.feed byte).1.state = .csi
    · -- The byte was kept, so there was room for it.
      have room : ansi.params.length < csiParamCap ∧
          (ansi.feed byte).1.params.length = ansi.params.length + 1 := by
        simp only [feed, csi] at grows ⊢
        split_ifs at grows ⊢
        simp_all
      have rest := ih grows (by omega)
      simp only [consumed, inside, grows]
      simp only [Bool.false_eq_true, reduceCtorEq, or_self, ↓reduceIte]
      omega
    · have ended : (ansi.feed byte).1.between := by
        simp only [feed, csi] at grows ⊢
        split_ifs at grows ⊢ <;> simp_all [between]
      simp only [consumed, consumed_between ended]
      split_ifs <;> omega

/-- An escape byte inside a string sequence is followed by the backslash that ends it. -/
theorem consumed_stringEscape {ansi : AnsiToPetscii} (bytes : List UInt8)
    (escaped : ansi.state = .stringEscape) (calm : ansi.CalmRun bytes) :
    ansi.consumed bytes ≤ 1 := by
  cases bytes with
  | nil => simp [consumed]
  | cons byte bytes =>
    have ends : byte = backslash := calm.1 escaped
    have ended : (ansi.feed byte).1.between := by simp [feed, escaped, ends, between]
    simp only [consumed, consumed_between ended]
    split_ifs <;> omega

/-- A calm string sequence under way ends at the latest two bytes after the last one it counts. -/
theorem consumed_string {ansi : AnsiToPetscii} (bytes : List UInt8) (string : ansi.state = .string)
    (counted : ansi.swallowed < stringSeqCap) (calm : ansi.CalmRun bytes) :
    ansi.consumed bytes + ansi.swallowed ≤ stringSeqCap + 1 := by
  induction bytes generalizing ansi with
  | nil => simp only [consumed]; omega
  | cons byte bytes ih =>
    have inside : ansi.between = false := by simp [between, string]
    cases next : (ansi.feed byte).1.state with
    | string =>
      have counts : (ansi.feed byte).1.swallowed = ansi.swallowed + 1 ∧
          ansi.swallowed + 1 < stringSeqCap := by
        simp only [feed, string] at next ⊢
        split_ifs at next ⊢
        simp_all
      have rest := ih next (by omega) calm.2
      simp only [consumed, inside, next]
      simp only [Bool.false_eq_true, reduceCtorEq, or_self, ↓reduceIte]
      omega
    | stringEscape =>
      have rest := consumed_stringEscape bytes next calm.2
      simp only [consumed, inside, next]
      simp only [Bool.false_eq_true, reduceCtorEq, or_self, ↓reduceIte]
      omega
    | text =>
      have ended : (ansi.feed byte).1.between := by simp [between, next]
      simp only [consumed, consumed_between ended]
      split_ifs <;> omega
    | escape =>
      have ended : (ansi.feed byte).1.between := by simp [between, next]
      simp only [consumed, consumed_between ended]
      split_ifs <;> omega
    | csi =>
      simp only [feed, string] at next
      split_ifs at next

/-- An escape byte leaves no calm string sequence half way through another one. -/
theorem staysOpen_string {ansi : AnsiToPetscii} {payload later : List UInt8}
    (stays : ansi.StaysOpen payload) (calm : ansi.CalmRun (payload ++ esc :: later)) :
    (ansi.after payload).state = .string := by
  induction payload generalizing ansi with
  | nil =>
    have first : ansi.Calm esc := calm.1
    have inside : ansi.inString := stays
    simp only [inString, Bool.or_eq_true, decide_eq_true_eq] at inside
    cases inside with
    | inl string => exact string
    | inr escaped => exact absurd (first escaped) (by decide)
  | cons byte payload ih => exact ih stays.2 calm.2

/-- **A broken sequence cannot silence the screen, as long as strings are calm.** In a stream whose
string sequences hold no escape byte but the one of their terminator, a control sequence consumes
at most `CSI_PARAM_CAP + 3` bytes, a string sequence at most `STRING_SEQ_CAP + 3`, and a string
sequence still open ends at an escape byte and a backslash. -/
theorem sequences_bounded (earlier : List UInt8) (introducer : UInt8) (rest : List UInt8)
    (calm : new.CalmRun (earlier ++ introducer :: rest))
    (escaped : (new.after earlier).state = .escape) :
    (introducer = csiIntroducer →
      2 + (new.after (earlier ++ [introducer])).consumed rest ≤ csiParamCap + 3) ∧
    (isStringIntroducer introducer →
      2 + (new.after (earlier ++ [introducer])).consumed rest ≤ stringSeqCap + 3 ∧
      ∀ payload later, rest = payload ++ [esc, backslash] ++ later →
        (new.after (earlier ++ [introducer])).StaysOpen payload →
        (new.after (earlier ++ introducer :: payload ++ [esc, backslash])).state = .text) := by
  have settled := after_settled new_settled earlier
  have zero : (new.after earlier).swallowed = 0 := settled.swallowed (by simp [inString, escaped])
  have calmRest : (new.after (earlier ++ [introducer])).CalmRun rest := by
    rw [show earlier ++ introducer :: rest = (earlier ++ [introducer]) ++ rest by simp] at calm
    exact (calmRun_append.mp calm).2
  constructor
  · intro starts
    have entered : new.after (earlier ++ [introducer]) =
        { new.after earlier with params := [], state := .csi } := by
      rw [after_concat, starts, feed_csiIntroducer escaped]
    have bare : (new.after (earlier ++ [introducer])).params.length = 0 := by simp [entered]
    have bound := consumed_csi rest (congrArg state entered) (by omega)
    omega
  · intro starts
    have entered : new.after (earlier ++ [introducer]) =
        { new.after earlier with state := .string } := by
      rw [after_concat, feed_stringIntroducer escaped starts]
    constructor
    · have bound := consumed_string rest (congrArg state entered) (by simp [entered, zero]) calmRest
      omega
    · intro payload later split stays
      have string : ((new.after (earlier ++ [introducer])).after payload).state = .string := by
        apply staysOpen_string stays
        simpa only [split, List.append_assoc, List.cons_append, List.nil_append] using calmRest
      have whole : earlier ++ introducer :: payload ++ [esc, backslash] =
          (((earlier ++ [introducer]) ++ payload) ++ [esc]) ++ [backslash] := by simp
      rw [whole, after_concat, after_concat, after_append, feed_string_esc string,
        feed_stringEscape_backslash rfl]

/-- The bound at work: a control sequence of seventy digits is given up after the sixty-fifth. -/
theorem sequences_bounded_digits :
    2 + (new.after [esc, csiIntroducer]).consumed (List.replicate 70 0x31) ≤ csiParamCap + 3 :=
  (sequences_bounded [esc] csiIntroducer (List.replicate 70 0x31)
    (by decide) (by decide)).1 rfl

/-- Payload bytes that come in pairs of an escape byte and another byte are never too many. -/
theorem consumed_pairs {ansi : AnsiToPetscii} (string : ansi.state = .string) (count : Nat) :
    ansi.consumed (List.replicate count [esc, 0x78]).flatten = 2 * count := by
  induction count generalizing ansi with
  | zero => rfl
  | succ count ih =>
    have escaped := feed_string_esc string
    have resumed := @feed_stringEscape (ansi.feed esc).1 0x78 (by rw [escaped]) (by decide)
    have first : (ansi.feed esc).1.state = .stringEscape := by rw [escaped]
    have second : ((ansi.feed esc).1.feed 0x78).1.state = .string := by rw [resumed]
    simp only [List.replicate_succ, List.flatten_cons, List.cons_append, List.nil_append, consumed,
      between, string, first, second, ih second, reduceCtorEq, decide_false, Bool.or_self,
      Bool.false_eq_true, or_self, ↓reduceIte]
    omega

/-- An operating system command whose payload is eight thousand escape bytes, each followed by an
`x`, consumes more than `STRING_SEQ_CAP + 3` bytes; and `ESC ] ESC ESC \\` ends no string. -/
theorem string_outlives_cap :
    ¬ 2 + (new.after [esc, 0x5D]).consumed (List.replicate 8000 [esc, 0x78]).flatten ≤
      stringSeqCap + 3 ∧
    (new.after [esc, 0x5D]).StaysOpen [esc] ∧
    (new.after [esc, 0x5D, esc, esc, backslash]).state ≠ .text := by
  refine ⟨?_, by decide, by decide⟩
  rw [consumed_pairs (by decide)]
  decide

end AnsiToPetscii

end EthernetGateway.Terminal
