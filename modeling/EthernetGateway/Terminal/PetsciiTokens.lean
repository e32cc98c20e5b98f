import EthernetGateway.Terminal.GatewayFilter
import EthernetGateway.Bytes

/-!
# A Commodore sees a stream token by token

A well-formed stream is a sequence of tokens: characters, control sequences, string sequences and
two-byte escape sequences. Each token has a translation of its own, which besides the token only
depends on the bold flag, and the translation of the stream is that of its tokens, one after the
other, wherever the stream is cut into reads.
-/

namespace EthernetGateway.Terminal

open AnsiToPetscii

/-! ## Tokens -/

/-- A token of a well-formed stream. -/
inductive Token where
  /-- A character other than the escape character. -/
  | char (c : Char) (plain : c.toNat ≠ 0x1B)
  /-- A control sequence. -/
  | csi (params : List UInt8) (final : UInt8) (inner : ∀ byte ∈ params, 0x20 ≤ byte ∧ byte ≤ 0x3F)
      (short : params.length ≤ csiParamCap) (ends : isFinal final)
  /-- A string sequence. -/
  | string (introducer : UInt8) (payload terminator : List UInt8)
      (starts : isStringIntroducer introducer) (free : ∀ byte ∈ payload, byte ≠ bel ∧ byte ≠ esc)
      (short : payload.length < stringSeqCap)
      (ended : terminator = [bel] ∨ terminator = [esc, backslash])
  /-- Another escape sequence of two bytes. -/
  | pair (byte : UInt8) (printable : isPrintable byte)
      (other : byte ≠ csiIntroducer ∧ isStringIntroducer byte = false)

/-- An ASCII byte as it shows on a Commodore. -/
def glyph (byte : UInt8) : UInt8 :=
  translateAsciiToPetsciiByte (if byte = 0x60 then 0x27 else if byte = 0x7E then 0x2D else byte)

/-- The replacement of a character of three or four bytes. -/
def foldedChar (c : Char) : List UInt8 :=
  if c.toNat = 0x2018 ∨ c.toNat = 0x2019 then [0x27]
  else if c.toNat = 0x201C ∨ c.toNat = 0x201D then [0x22]
  else if c.toNat = 0x2013 ∨ c.toNat = 0x2014 then [0x2D]
  else if c.toNat = 0x2026 then [0x2E, 0x2E, 0x2E]
  else [0x3F]

/-- The translation of a character: ASCII as itself, two bytes one by one, more bytes as one. -/
def charTranslation (c : Char) : List UInt8 :=
  if c.toNat ≤ 0x7F then [glyph (UInt8.ofNat c.toNat)]
  else if c.toNat ≤ 0x7FF then (String.utf8EncodeChar c).flatMap pushHighByte
  else foldedChar c

namespace Token

/-- The bytes of a token. -/
def bytes : Token → List UInt8
  | char c _ => String.utf8EncodeChar c
  | csi params final _ _ _ => esc :: csiIntroducer :: (params ++ [final])
  | string introducer payload terminator _ _ _ _ => esc :: introducer :: (payload ++ terminator)
  | pair byte _ _ => [esc, byte]

/-- A token's own translation: the bold flag after it, and what it shows. -/
def translation (bold : Bool) : Token → Bool × List UInt8
  | char c _ => (bold, charTranslation c)
  | csi params final _ _ _ => emitCsi bold params final
  | string .. => (bold, [])
  | pair .. => (bold, [])

/-- The translations of a list of tokens, one after the other. -/
def translations (bold : Bool) : List Token → List UInt8
  | [] => []
  | token :: tokens =>
    (token.translation bold).2 ++ translations (token.translation bold).1 tokens

end Token

/-! ## Text -/

/-- A run of text. -/
def textRun (text : PunctState) : List UInt8 → PunctState × List UInt8
  | [] => (text, [])
  | byte :: bytes =>
    ((textRun (feedText text byte).1 bytes).1,
      (feedText text byte).2 ++ (textRun (feedText text byte).1 bytes).2)

/-- Bytes between escape sequences go through the text half only. -/
theorem feed_textRun {parsers : Petscii} {bytes : List UInt8} (between : parsers.ansi.state = .text)
    (plain : ∀ byte ∈ bytes, byte ≠ esc) :
    parsers.feed bytes =
      (⟨parsers.ansi, (textRun parsers.text bytes).1⟩, (textRun parsers.text bytes).2) := by
  induction bytes generalizing parsers with
  | nil => rfl
  | cons byte bytes ih =>
    have other := plain byte (by simp)
    have fed : parsers.feedByte byte =
        (⟨parsers.ansi, (feedText parsers.text byte).1⟩, (feedText parsers.text byte).2) := by
      simp [Petscii.feedByte, other, feed_text between other, Petscii.put]
    have rest := @ih ⟨parsers.ansi, (feedText parsers.text byte).1⟩ between
      fun b mem => plain b (by simp [mem])
    simp only [Petscii.feed, fed, rest, textRun]

/-- A byte as a number. -/
theorem toNat_ofNat {n : Nat} (small : n < 256) : (UInt8.ofNat n).toNat = n := by
  rw [UInt8.toNat_ofNat']
  exact Nat.mod_eq_of_lt small

set_option synthInstance.maxSize 1000 in
/-- What each kind of byte shows, and what it leaves held, on the ground. -/
theorem feedGround_kinds : ∀ byte : UInt8,
    (byte ≤ 0x7F → PunctState.feedGround byte =
      (.normal, [if byte = 0x60 then 0x27 else if byte = 0x7E then 0x2D else byte])) ∧
    (0xC0 ≤ byte ∧ byte ≤ 0xDF → PunctState.feedGround byte = (.normal, pushHighByte byte)) ∧
    (isContinuation byte → PunctState.feedGround byte = (.normal, pushHighByte byte)) ∧
    (0xE0 ≤ byte ∧ byte ≤ 0xEF →
      PunctState.feedGround byte = (if byte = 0xE2 then .sawE2 else .multi [byte] 3, [])) ∧
    (0xF0 ≤ byte ∧ byte ≤ 0xF4 → PunctState.feedGround byte = (.multi [byte] 4, [])) :=
  byte_forall (by decide +kernel)

/-- An ASCII byte is shown at once. -/
theorem feedGround_ascii (byte : UInt8) : byte ≤ 0x7F → PunctState.feedGround byte =
    (.normal, [if byte = 0x60 then 0x27 else if byte = 0x7E then 0x2D else byte]) :=
  (feedGround_kinds byte).1

/-- The first byte of a two-byte character is shown at once. -/
theorem feedGround_lead2 (byte : UInt8) : 0xC0 ≤ byte ∧ byte ≤ 0xDF →
    PunctState.feedGround byte = (.normal, pushHighByte byte) :=
  (feedGround_kinds byte).2.1

/-- A continuation byte on its own is shown at once. -/
theorem feedGround_continuation (byte : UInt8) : isContinuation byte →
    PunctState.feedGround byte = (.normal, pushHighByte byte) :=
  (feedGround_kinds byte).2.2.1

/-- The first byte of a three-byte character is held. -/
theorem feedGround_lead3 (byte : UInt8) : 0xE0 ≤ byte ∧ byte ≤ 0xEF →
    PunctState.feedGround byte = (if byte = 0xE2 then .sawE2 else .multi [byte] 3, []) :=
  (feedGround_kinds byte).2.2.2.1

/-- The first byte of a four-byte character is held. -/
theorem feedGround_lead4 (byte : UInt8) : 0xF0 ≤ byte ∧ byte ≤ 0xF4 →
    PunctState.feedGround byte = (.multi [byte] 4, []) :=
  (feedGround_kinds byte).2.2.2.2

/-- A high byte shows the same after the case swap. -/
theorem pushHighByte_translate (byte : UInt8) :
    (pushHighByte byte).map translateAsciiToPetsciiByte = pushHighByte byte := by
  simp only [pushHighByte]
  split_ifs
  · rfl
  · decide

/-- The last byte of a character that starts with `E2 80` always folds to something, which shows
the same after the case swap. -/
theorem foldPunctuation_continuation (byte : UInt8) (continues : isContinuation byte) :
    ∃ shown ∈ [[0x27], [0x22], [0x2D], [0x2E, 0x2E, 0x2E], [0x3F]],
      PunctState.foldPunctuation byte = some shown ∧
        shown.map translateAsciiToPetsciiByte = shown := by
  simp only [PunctState.foldPunctuation, if_pos continues]
  split_ifs <;> exact ⟨_, by simp, rfl, by decide⟩

/-- A question mark shows the same after the case swap. -/
theorem question_translate : translateAsciiToPetsciiByte 0x3F = 0x3F := by decide

/-- A character of one byte. -/
theorem textRun_one {byte : UInt8} (ascii : byte ≤ 0x7F) :
    textRun .normal [byte] = (.normal, [glyph byte]) := by
  simp [textRun, feedText, PunctState.feed, feedGround_ascii byte ascii, glyph]

/-- A character of two bytes. -/
theorem textRun_two {lead byte : UInt8} (leads : 0xC0 ≤ lead ∧ lead ≤ 0xDF)
    (continues : isContinuation byte) :
    textRun .normal [lead, byte] = (.normal, [lead, byte].flatMap pushHighByte) := by
  simp [textRun, feedText, PunctState.feed, feedGround_lead2 lead leads,
    feedGround_continuation byte continues, pushHighByte_translate]

/-- A character of three bytes. -/
theorem textRun_three {lead second third : UInt8} (leads : 0xE0 ≤ lead ∧ lead ≤ 0xEF)
    (continues : isContinuation second) (continues' : isContinuation third) :
    textRun .normal [lead, second, third] =
      (.normal, if lead = 0xE2 ∧ second = 0x80 then (PunctState.foldPunctuation third).getD []
        else [0x3F]) := by
  have ground := feedGround_lead3 lead leads
  by_cases punctuation : lead = 0xE2
  · rw [if_pos punctuation] at ground
    have first : feedText .normal lead = (.sawE2, []) := by
      simp [feedText, PunctState.feed, ground]
    by_cases general : second = 0x80
    · obtain ⟨shown, -, folds, plain⟩ := foldPunctuation_continuation third continues'
      have next : feedText .sawE2 second = (.sawE280, []) := by
        simp [feedText, PunctState.feed, general]
      have last : feedText .sawE280 third = (.normal, shown) := by
        simp [feedText, PunctState.feed, folds, plain]
      rw [if_pos ⟨punctuation, general⟩]
      simp [textRun, first, next, last, folds]
    · have next : feedText .sawE2 second = (.multi [0xE2, second] 3, []) := by
        simp [feedText, PunctState.feed, general, continues]
      have last : feedText (.multi [0xE2, second] 3) third = (.normal, [0x3F]) := by
        simp [feedText, PunctState.feed, continues', question_translate]
      simp [textRun, first, next, last, general]
  · rw [if_neg punctuation] at ground
    have first : feedText .normal lead = (.multi [lead] 3, []) := by
      simp [feedText, PunctState.feed, ground]
    have next : feedText (.multi [lead] 3) second = (.multi [lead, second] 3, []) := by
      simp [feedText, PunctState.feed, continues]
    have last : feedText (.multi [lead, second] 3) third = (.normal, [0x3F]) := by
      simp [feedText, PunctState.feed, continues', question_translate]
    simp [textRun, first, next, last, punctuation]

/-- A character of four bytes. -/
theorem textRun_four {lead second third fourth : UInt8} (leads : 0xF0 ≤ lead ∧ lead ≤ 0xF4)
    (continues : isContinuation second) (continues' : isContinuation third)
    (continues'' : isContinuation fourth) :
    textRun .normal [lead, second, third, fourth] = (.normal, [0x3F]) := by
  simp [textRun, feedText, PunctState.feed, feedGround_lead4 lead leads, continues, continues',
    continues'', question_translate]

/-- The bytes that the encoding of a character makes of its low bits are continuation bytes. -/
theorem isContinuation_bits (n : Nat) : isContinuation (UInt8.ofNat (n % 64 + 0x80)) := by
  have bits : n % 64 < 64 := Nat.mod_lt n (by decide)
  simp only [isContinuation, Bool.and_eq_true, decide_eq_true_eq, UInt8.le_iff_toNat_le]
  rw [toNat_ofNat (by omega)]
  exact ⟨Nat.le_add_left _ _, by change _ ≤ 191; omega⟩

/-- A byte given as a number is another one just when the numbers are the same. -/
theorem ofNat_eq_iff {n : Nat} {byte : UInt8} (small : n < 256) :
    UInt8.ofNat n = byte ↔ n = byte.toNat := by
  rw [← UInt8.toNat_inj, toNat_ofNat small]

/-- The punctuation block of UTF-8, by the low bits of its characters. -/
theorem foldPunctuation_bits : ∀ n < 64, PunctState.foldPunctuation (UInt8.ofNat (n + 0x80)) =
    some (if n = 0x18 ∨ n = 0x19 then [0x27] else if n = 0x1C ∨ n = 0x1D then [0x22]
      else if n = 0x13 ∨ n = 0x14 then [0x2D] else if n = 0x26 then [0x2E, 0x2E, 0x2E]
      else [0x3F]) := by
  decide +kernel

/-- A code point is below the end of Unicode. -/
theorem toNat_lt_unicode (c : Char) : c.toNat < 0x110000 := by
  have valid := c.valid
  rcases valid with low | high
  · exact Nat.lt_trans low (by decide)
  · exact high.2

/-- A character outside the punctuation block is a question mark. -/
theorem foldedChar_other {c : Char} (other : c.toNat < 0x2000 ∨ 0x2040 ≤ c.toNat) :
    foldedChar c = [0x3F] := by
  simp only [foldedChar]
  split_ifs
  all_goals first | rfl | omega

/-- A complete character is shown as its translation. -/
theorem textRun_char (c : Char) :
    textRun .normal (String.utf8EncodeChar c) = (.normal, charTranslation c) := by
  have code : c.val.toNat = c.toNat := rfl
  simp only [String.utf8EncodeChar, code, charTranslation]
  by_cases ascii : c.toNat ≤ 0x7F
  · rw [if_pos ascii, if_pos ascii]
    apply textRun_one
    rw [UInt8.le_iff_toNat_le, toNat_ofNat (by omega)]
    exact ascii
  · rw [if_neg ascii, if_neg ascii]
    by_cases two : c.toNat ≤ 0x7FF
    · rw [if_pos two, if_pos two]
      apply textRun_two _ (isContinuation_bits _)
      rw [UInt8.le_iff_toNat_le, UInt8.le_iff_toNat_le, toNat_ofNat (by omega)]
      change 192 ≤ _ ∧ _ ≤ 223
      omega
    · rw [if_neg two, if_neg two]
      by_cases three : c.toNat ≤ 0xFFFF
      · rw [if_pos three]
        rw [textRun_three _ (isContinuation_bits _) (isContinuation_bits _)]
        · have leads : UInt8.ofNat (c.toNat / 4096 % 16 + 0xE0) = 0xE2 ∧
              UInt8.ofNat (c.toNat / 64 % 64 + 0x80) = 0x80 ↔
              0x2000 ≤ c.toNat ∧ c.toNat < 0x2040 := by
            rw [ofNat_eq_iff (by omega), ofNat_eq_iff (by omega)]
            change (_ = 226 ∧ _ = 128) ↔ _
            omega
          by_cases block : 0x2000 ≤ c.toNat ∧ c.toNat < 0x2040
          · rw [if_pos (leads.mpr block), foldPunctuation_bits _ (Nat.mod_lt _ (by decide))]
            have low : c.toNat = 0x2000 + c.toNat % 64 := by omega
            simp only [Option.getD_some, foldedChar]
            congr 1
            split_ifs
            all_goals first | rfl | omega
          · rw [if_neg (fun head => block (leads.mp head)), foldedChar_other (by omega)]
        · rw [UInt8.le_iff_toNat_le, UInt8.le_iff_toNat_le, toNat_ofNat (by omega)]
          change 224 ≤ _ ∧ _ ≤ 239
          omega
      · have valid := toNat_lt_unicode c
        rw [if_neg three, textRun_four _ (isContinuation_bits _) (isContinuation_bits _)
          (isContinuation_bits _)]
        · rw [foldedChar_other (by omega)]
        · rw [UInt8.le_iff_toNat_le, UInt8.le_iff_toNat_le, toNat_ofNat (by omega)]
          change 240 ≤ _ ∧ _ ≤ 244
          omega

/-! ## Escape sequences -/

set_option synthInstance.maxSize 1000 in
/-- What a parameter byte and a printable byte are not. -/
theorem byte_plain : ∀ byte : UInt8,
    (0x20 ≤ byte ∧ byte ≤ 0x3F → ¬ isFinal byte ∧ byte ≠ esc ∧ ¬ byte < 0x20 ∧ byte ≠ 0x7F) ∧
    (isPrintable byte → ¬ (byte < 0x20 ∧ byte ≠ esc) ∧ byte ≠ esc ∧ byte ≤ 0x7F ∧ byte ≠ 0x80 ∧
      ¬ isContinuation byte ∧ PunctState.foldPunctuation byte = none) :=
  byte_forall (by decide +kernel)

/-- Control bytes are put out as they are. -/
theorem put_control (text : PunctState) (out : List UInt8) :
    Petscii.put text (out.map .control) = (text, out) := by
  induction out with
  | nil => rfl
  | cons byte out ih => simp only [List.map_cons, Petscii.put, ih]

/-- A run that hands nothing to the text half puts out its control bytes. -/
theorem feed_controls {parsers : Petscii} {bytes out : List UInt8} (text : parsers.text = .normal)
    (controls : parsers.ansi.shown bytes = out.map .control) :
    parsers.feed bytes = (⟨parsers.ansi.after bytes, .normal⟩, out) := by
  induction bytes generalizing parsers out with
  | nil =>
    have none : out = [] := by simpa [shown] using controls.symm
    rw [none, Petscii.feed, after, ← text]
  | cons byte bytes ih =>
    obtain ⟨first, rest, rfl, here, there⟩ := List.map_eq_append_iff.mp controls.symm
    have held : flushHeld PunctState.normal = [] := rfl
    have fed : parsers.feedByte byte = (⟨(parsers.ansi.feed byte).1, .normal⟩, first) := by
      simp [Petscii.feedByte, text, ← here, put_control, held]
    have remains := @ih ⟨(parsers.ansi.feed byte).1, .normal⟩ rest rfl there.symm
    simp only [Petscii.feed, fed, remains, after]

/-- The parameters of a control sequence are kept as long as there is room. -/
theorem feed_params {ansi : AnsiToPetscii} {params : List UInt8} (csi : ansi.state = .csi)
    (inner : ∀ byte ∈ params, 0x20 ≤ byte ∧ byte ≤ 0x3F)
    (room : ansi.params.length + params.length ≤ csiParamCap) :
    ansi.after params = { ansi with params := ansi.params ++ params } ∧ ansi.shown params = [] := by
  induction params generalizing ansi with
  | nil => simp [after, shown]
  | cons byte params ih =>
    have kept := (byte_plain byte).1 (inner byte (by simp))
    simp only [List.length_cons] at room
    have fed : ansi.feed byte = ({ ansi with params := ansi.params ++ [byte] }, []) := by
      have full : ¬ csiParamCap ≤ ansi.params.length := by omega
      simp [feed, csi, kept, full]
    have rest := @ih { ansi with params := ansi.params ++ [byte] } csi
      (fun b mem => inner b (by simp [mem])) (by simp; omega)
    simp [after, shown, fed, rest]

/-- The payload of a string sequence is counted and swallowed. -/
theorem feed_payload {ansi : AnsiToPetscii} {payload : List UInt8} (string : ansi.state = .string)
    (free : ∀ byte ∈ payload, byte ≠ bel ∧ byte ≠ esc)
    (room : ansi.swallowed + payload.length < stringSeqCap) :
    ansi.after payload = { ansi with swallowed := ansi.swallowed + payload.length } ∧
      ansi.shown payload = [] := by
  induction payload generalizing ansi with
  | nil => simp [after, shown]
  | cons byte payload ih =>
    have other := free byte (by simp)
    simp only [List.length_cons] at room
    have fed : ansi.feed byte = ({ ansi with swallowed := ansi.swallowed + 1 }, []) := by
      have short : ¬ stringSeqCap ≤ ansi.swallowed + 1 := by omega
      simp [feed, string, other, short]
    have rest := @ih { ansi with swallowed := ansi.swallowed + 1 } string
      (fun b mem => free b (by simp [mem])) (by simp; omega)
    simp only [after, shown, fed, rest, List.length_cons, List.nil_append, and_true]
    simp
    omega

/-- Both parsers are between tokens. -/
structure Idle (parsers : Petscii) (bold : Bool) : Prop where
  /-- No sequence is under way. -/
  between : parsers.ansi.state = .text
  /-- Nothing is counted. -/
  swallowed : parsers.ansi.swallowed = 0
  /-- No character is held. -/
  text : parsers.text = .normal
  /-- The bold flag. -/
  bold : parsers.ansi.bold = bold

/-- Both parsers start between tokens. -/
theorem new_idle : Idle .new false := ⟨rfl, rfl, rfl, rfl⟩

/-- A complete sequence is put out as its control bytes and leaves both parsers between tokens. -/
theorem feed_sequence {parsers : Petscii} {bold bold' : Bool} {bytes out : List UInt8}
    (idle : Idle parsers bold) (controls : parsers.ansi.shown bytes = out.map .control)
    (ended : (parsers.ansi.after bytes).state = .text)
    (uncounted : (parsers.ansi.after bytes).swallowed = 0)
    (bolds : (parsers.ansi.after bytes).bold = bold') :
    Idle (parsers.feed bytes).1 bold' ∧ (parsers.feed bytes).2 = out := by
  rw [feed_controls idle.text controls]
  exact ⟨⟨ended, uncounted, rfl, bolds⟩, rfl⟩

/-- A complete control sequence. -/
theorem run_csi {ansi : AnsiToPetscii} {params : List UInt8} {final : UInt8}
    (between : ansi.state = .text) (inner : ∀ byte ∈ params, 0x20 ≤ byte ∧ byte ≤ 0x3F)
    (short : params.length ≤ csiParamCap) (ends : isFinal final) :
    ansi.after (esc :: csiIntroducer :: (params ++ [final])) =
        { ansi with bold := (emitCsi ansi.bold params final).1, params := [] } ∧
      ansi.shown (esc :: csiIntroducer :: (params ++ [final])) =
        (emitCsi ansi.bold params final).2.map .control := by
  have escaped := feed_esc between
  have opened := @feed_csiIntroducer { ansi with state := .escape } rfl
  have kept := @feed_params { ansi with params := [], state := .csi } _ rfl inner
    (by simpa using short)
  simp only [List.nil_append] at kept
  simp only [after, shown, escaped, opened, after_append, shown_append, kept, List.nil_append]
  simp [feed, ends, between]

/-- A complete string sequence. -/
theorem run_string {ansi : AnsiToPetscii} {introducer : UInt8} {payload terminator : List UInt8}
    (between : ansi.state = .text) (uncounted : ansi.swallowed = 0)
    (starts : isStringIntroducer introducer) (free : ∀ byte ∈ payload, byte ≠ bel ∧ byte ≠ esc)
    (short : payload.length < stringSeqCap)
    (ended : terminator = [bel] ∨ terminator = [esc, backslash]) :
    ansi.after (esc :: introducer :: (payload ++ terminator)) = ansi ∧
      ansi.shown (esc :: introducer :: (payload ++ terminator)) = [] := by
  have escaped := feed_esc between
  have opened := @feed_stringIntroducer { ansi with state := .escape } _ rfl starts
  have kept := @feed_payload { ansi with state := .string } _ rfl free
    (by simpa [uncounted] using short)
  have same : ({ ansi with state := .text, swallowed := 0 } : AnsiToPetscii) = ansi := by
    rw [← between, ← uncounted]
  simp only [after, shown, escaped, opened, after_append, shown_append, kept, List.nil_append]
  cases ended with
  | inl bell =>
    have other : bel ≠ esc := by decide
    simp [bell, after, shown, feed, same]
  | inr string =>
    rw [string]
    have first := @feed_string_esc
      { ansi with state := .string, swallowed := ansi.swallowed + payload.length } rfl
    simp only [after, shown, first]
    rw [feed_stringEscape_backslash rfl]
    exact ⟨same, rfl⟩

/-- Another escape sequence of two bytes. -/
theorem run_pair {ansi : AnsiToPetscii} {byte : UInt8} (between : ansi.state = .text)
    (printable : isPrintable byte)
    (other : byte ≠ csiIntroducer ∧ isStringIntroducer byte = false) :
    ansi.after [esc, byte] = ansi ∧ ansi.shown [esc, byte] = [] := by
  have plain := (byte_plain byte).2 printable
  have escaped := feed_esc between
  have same : ({ ansi with state := .text } : AnsiToPetscii) = ansi := by rw [← between]
  have fed : ({ ansi with state := .escape } : AnsiToPetscii).feed byte = (ansi, []) := by
    simp only [feed, if_neg plain.1, if_neg other.1, other.2, Bool.false_eq_true, ↓reduceIte,
      if_neg plain.2.1, same]
  simp [after, shown, escaped, fed]

/-- A byte of a character other than the escape character is not an escape byte. -/
theorem utf8EncodeChar_plain {c : Char} (plain : c.toNat ≠ 0x1B) :
    ∀ byte ∈ String.utf8EncodeChar c, byte ≠ esc := by
  have code : c.val.toNat = c.toNat := rfl
  have high {n : Nat} (small : n < 256) (other : n ≠ 27) : UInt8.ofNat n ≠ esc := by
    rw [Ne, ofNat_eq_iff small]
    exact other
  intro byte mem
  simp only [String.utf8EncodeChar, code] at mem
  split_ifs at mem <;> simp only [List.mem_cons, List.not_mem_nil, or_false] at mem
  · rw [mem]
    exact high (by omega) plain
  · rcases mem with rfl | rfl
    all_goals exact high (by omega) (by omega)
  · rcases mem with rfl | rfl | rfl
    all_goals exact high (by omega) (by omega)
  · rcases mem with rfl | rfl | rfl | rfl
    all_goals exact high (by omega) (by omega)

/-- A token is put out as its translation and leaves both parsers between tokens. -/
theorem feed_token {parsers : Petscii} {bold : Bool} (idle : Idle parsers bold) (token : Token) :
    Idle (parsers.feed token.bytes).1 (token.translation bold).1 ∧
      (parsers.feed token.bytes).2 = (token.translation bold).2 := by
  have bolds := idle.bold
  cases token with
  | char c plain =>
    have fed := feed_textRun idle.between (utf8EncodeChar_plain plain)
    rw [idle.text, textRun_char] at fed
    simp only [Token.bytes, Token.translation, fed]
    exact ⟨⟨idle.between, idle.swallowed, rfl, bolds⟩, trivial⟩
  | csi params final inner short ends =>
    have run := run_csi idle.between inner short ends
    rw [bolds] at run
    apply feed_sequence idle run.2
    · rw [run.1]
      exact idle.between
    · rw [run.1]
      exact idle.swallowed
    · rw [run.1]
      rfl
  | string introducer payload terminator starts free short ended =>
    have run := run_string idle.between idle.swallowed starts free short ended
    exact @feed_sequence _ _ _ _ [] idle run.2 (by rw [Token.bytes, run.1]; exact idle.between)
      (by rw [Token.bytes, run.1]; exact idle.swallowed) (by rw [Token.bytes, run.1]; exact bolds)
  | pair byte printable other =>
    have run := run_pair idle.between printable other
    exact @feed_sequence _ _ _ _ [] idle run.2 (by rw [Token.bytes, run.1]; exact idle.between)
      (by rw [Token.bytes, run.1]; exact idle.swallowed) (by rw [Token.bytes, run.1]; exact bolds)

/-- A list of tokens is put out as its translations. -/
theorem feed_tokens {parsers : Petscii} {bold : Bool} (idle : Idle parsers bold)
    (tokens : List Token) :
    (parsers.feed (tokens.flatMap Token.bytes)).2 = Token.translations bold tokens := by
  induction tokens generalizing parsers bold with
  | nil => rfl
  | cons token tokens ih =>
    have first := feed_token idle token
    rw [List.flatMap_cons, Petscii.feed_append, Token.translations, first.2, ih first.1]

/-! ## What a token shows -/

/-- How many of the parameters after an extended colour's code belong to it. -/
def subParameters : List Nat → Nat
  | 5 :: _ :: _ => 2
  | 2 :: _ :: _ :: _ :: _ => 4
  | params => params.length

/-- What an extended colour shows: the palette colour of a foreground index. -/
def extendedColour (code : Nat) : List Nat → List UInt8
  | 5 :: index :: _ => if code = 38 then paletteColour index else []
  | _ => []

/-- An extended colour takes its parameters along: none of them is read as a code. -/
theorem sgrLoop_extended (bold : Bool) (code : Nat) (params : List Nat)
    (extended : code = 38 ∨ code = 48) :
    sgrLoop bold (code :: params) =
      ((sgrLoop bold (params.drop (subParameters params))).1,
        extendedColour code params ++ (sgrLoop bold (params.drop (subParameters params))).2) := by
  rw [sgrLoop.eq_def]
  dsimp only
  rw [if_pos extended]
  split
  · rfl
  · rfl
  · rename_i other other'
    have whole : subParameters params = params.length := by
      rw [subParameters.eq_def]
      split
      · exact absurd rfl (other _ _)
      · exact absurd rfl (other' _ _ _ _)
      · rfl
    have none : extendedColour code params = [] := by
      rw [extendedColour.eq_def]
      split
      · exact absurd rfl (other _ _)
      · rfl
    simp [whole, none, sgrLoop]

/-- Only `SGR` changes the bold flag. -/
theorem emitCsi_bold (bold : Bool) (params : List UInt8) (final : UInt8) (other : final ≠ 0x6D) :
    (emitCsi bold params final).1 = bold := by
  simp only [emitCsi, if_neg other]
  split_ifs <;> rfl

/-- A character of three or four bytes shows as one question mark or as its punctuation. -/
theorem charTranslation_long (c : Char) (long : 0x800 ≤ c.toNat) :
    charTranslation c = foldedChar c := by
  rw [charTranslation, if_neg (by omega), if_neg (by omega)]

/-- Printable text is shown where it is read, after what was held. -/
theorem feed_printable {parsers : Petscii} {byte : UInt8} (between : parsers.ansi.state = .text)
    (printable : isPrintable byte) :
    parsers.feedByte byte =
      (⟨parsers.ansi, .normal⟩, flushHeld parsers.text ++ [glyph byte]) := by
  have plain := ((byte_plain byte).2 printable).2
  have ground := feedGround_ascii byte plain.2.1
  have fed : feedText parsers.text byte = (.normal, flushHeld parsers.text ++ [glyph byte]) := by
    cases parsers.text <;>
      simp [feedText, flushHeld, PunctState.feed, PunctState.afresh, PunctState.flush, ground, glyph,
        plain]
  simp [Petscii.feedByte, plain.1, feed_text between plain.1, Petscii.put, fed]

/-- **A Commodore sees a stream token by token.** However a stream of tokens is cut into reads, the
output is the concatenation of the tokens' translations, and only `SGR` changes the bold flag they
depend on; a character of three or four bytes shows as its folded punctuation or one question mark;
an extended colour takes its parameters along and shows a palette colour at most; and printable
text is shown where it is read, whatever bytes came before and after. -/
theorem petscii_token_by_token (tokens : List Token) (reads : List (List UInt8))
    (cut : reads.flatten = tokens.flatMap Token.bytes) :
    (Petscii.new.feedReads reads).2 = Token.translations false tokens ∧
    (∀ bold params final, final ≠ 0x6D → (emitCsi bold params final).1 = bold) ∧
    (∀ c : Char, 0x800 ≤ c.toNat → charTranslation c = foldedChar c) ∧
    (∀ bold code params, code = 38 ∨ code = 48 → sgrLoop bold (code :: params) =
      ((sgrLoop bold (params.drop (subParameters params))).1,
        extendedColour code params ++ (sgrLoop bold (params.drop (subParameters params))).2)) ∧
    (∀ earlier byte later, (Petscii.new.feed earlier).1.ansi.state = .text → isPrintable byte →
      (Petscii.new.feed (earlier ++ byte :: later)).2 =
        (Petscii.new.feed earlier).2 ++ flushHeld (Petscii.new.feed earlier).1.text ++
          [glyph byte] ++
          (Petscii.feed ⟨(Petscii.new.feed earlier).1.ansi, .normal⟩ later).2) := by
  refine ⟨?_, emitCsi_bold, charTranslation_long, sgrLoop_extended, ?_⟩
  · rw [Petscii.feedReads_flatten, cut]
    exact feed_tokens new_idle tokens
  · intro earlier byte later between printable
    rw [Petscii.feed_append, Petscii.feed, feed_printable between printable]
    simp

/-- The translations at work: a dash in three bytes, cut in two, and a bold colour after it. -/
theorem petscii_token_by_token_dash :
    (Petscii.new.feedReads
      [[0xE2], [0x80, 0x93, 0x1B, 0x5B, 0x31, 0x3B], [0x33, 0x32, 0x6D, 0x61]]).2 =
      [0x2D, 0x99, 0x41] :=
  (petscii_token_by_token
    [.char (Char.ofNat 0x2013) (by decide +kernel),
      .csi [0x31, 0x3B, 0x33, 0x32] 0x6D (by simp) (by decide) (by decide),
      .char 'a' (by decide +kernel)] _ (by decide +kernel)).1

/-- `ESC[38;5;1m` sets the basic colour that its last parameter names, as `ESC[31m` does. -/
theorem palette_sets_basic_colour :
    (Petscii.new.feed [0x1B, 0x5B, 0x33, 0x38, 0x3B, 0x35, 0x3B, 0x31, 0x6D]).2 = [0x1C] ∧
    (Petscii.new.feed [0x1B, 0x5B, 0x33, 0x31, 0x6D]).2 = [0x1C] := by
  decide

end EthernetGateway.Terminal
