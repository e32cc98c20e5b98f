import EthernetGateway.Terminal.GatewayFilter

/-!
# Two parsers of the same escape sequences

The gateway's filter for an ASCII terminal and the translator for a Commodore decide separately
what belongs to an escape sequence. They agree until a control byte cuts a sequence short, which
the translator hands on and the filter loses, or until a control sequence has too many parameters,
which the translator gives up and the filter does not.
-/

namespace EthernetGateway.Terminal

open AnsiToPetscii

/-- The bytes handed to the text callback. -/
def textBytes (shown : List Shown) : List UInt8 :=
  shown.filterMap fun
    | .text byte => some byte
    | .control _ => none

@[simp] theorem textBytes_append (first second : List Shown) :
    textBytes (first ++ second) = textBytes first ++ textBytes second :=
  List.filterMap_append ..

/-- Control bytes are not text. -/
@[simp] theorem textBytes_control (bytes : List UInt8) : textBytes (bytes.map .control) = [] := by
  simp [textBytes]

/-- A control byte other than the escape byte. -/
def isCut (byte : UInt8) : Bool := byte < 0x20 && byte ≠ esc

/-- A byte that a control sequence takes as a parameter or an intermediate byte. -/
def isParam (byte : UInt8) : Bool := !isFinal byte && 0x20 ≤ byte && byte ≠ 0x7F

/-- A stream is over or starts a new sequence. -/
def startsOver (stream : List UInt8) : Bool := stream = [] || stream.head? = some esc

/-- As the translator reads a stream, no control byte follows an escape byte or stands inside a
control sequence, and one parameter too many is followed by an escape byte or by nothing. -/
def Aligned (ansi : AnsiToPetscii) : List UInt8 → Prop
  | [] => True
  | byte :: stream =>
    (ansi.state = .escape ∨ ansi.state = .csi → isCut byte = false) ∧
    (ansi.state = .csi ∧ csiParamCap ≤ ansi.params.length ∧ isParam byte → startsOver stream) ∧
    Aligned (ansi.feed byte).1 stream

/-- The filter's phase where the translator's is given. -/
def phaseOf : AnsiPhase → GatewayPhase
  | .text => .normal
  | .escape => .escape
  | .csi => .csi
  | .string => .string
  | .stringEscape => .stringEscape

/-- The two parsers are in the same phase. -/
structure Together (ansi : AnsiToPetscii) (st : GatewayOutState) : Prop where
  /-- The filter strips everything. -/
  mode : st.mode = .ascii
  /-- The phases match. -/
  phase : st.state = phaseOf ansi.state
  /-- Both have counted the same. -/
  swallowed : st.swallowed = ansi.swallowed

/-- The translator has given up a control sequence that the filter is still reading. -/
structure Behind (ansi : AnsiToPetscii) (st : GatewayOutState) : Prop where
  /-- The filter strips everything. -/
  mode : st.mode = .ascii
  /-- The translator reads text. -/
  text : ansi.state = .text
  /-- The filter reads a control sequence. -/
  csi : st.state = .csi
  /-- Both have counted the same. -/
  swallowed : st.swallowed = ansi.swallowed

/-- Both parsers start in the same phase. -/
theorem new_together : Together .new (.new .ascii) := ⟨rfl, rfl, rfl⟩

/-- What one byte does to two parsers in the same phase. -/
inductive Parting (ansi : AnsiToPetscii) (st : GatewayOutState) (byte : UInt8) : Prop where
  /-- They stay together and show the same. -/
  | same : Together (ansi.feed byte).1 (st.filterByte byte).1 →
      textBytes (ansi.feed byte).2 = (st.filterByte byte).2 →
      (ansi.state = .escape ∨ ansi.state = .csi → isCut byte = false) →
      ¬ (ansi.state = .csi ∧ csiParamCap ≤ ansi.params.length ∧ isParam byte) →
      Parting ansi st byte
  /-- They stay together, but the filter loses the byte. -/
  | lost : Together (ansi.feed byte).1 (st.filterByte byte).1 →
      textBytes (ansi.feed byte).2 = [byte] → (st.filterByte byte).2 = [] →
      (ansi.state = .escape ∨ ansi.state = .csi) → isCut byte →
      Parting ansi st byte
  /-- The translator gives up. -/
  | behind : Behind (ansi.feed byte).1 (st.filterByte byte).1 →
      textBytes (ansi.feed byte).2 = [] → (st.filterByte byte).2 = [] →
      isCut byte = false →
      ansi.state = .csi ∧ csiParamCap ≤ ansi.params.length ∧ isParam byte →
      Parting ansi st byte

/-- A byte between two sequences, or one in a string sequence. -/
theorem parting_same {ansi : AnsiToPetscii} {st : GatewayOutState} {byte : UInt8}
    (together : Together (ansi.feed byte).1 (st.filterByte byte).1)
    (shows : textBytes (ansi.feed byte).2 = (st.filterByte byte).2)
    (outside : ansi.state ≠ .escape ∧ ansi.state ≠ .csi) : Parting ansi st byte :=
  .same together shows (fun inside => absurd inside (by simp [outside])) (fun full => outside.2 full.1)

/-- A byte after an escape byte. -/
theorem parting_escape {ansi : AnsiToPetscii} {st : GatewayOutState} (together : Together ansi st)
    (byte : UInt8) (state : ansi.state = .escape) : Parting ansi st byte := by
  obtain ⟨mode, phase, swallowed⟩ := together
  rw [state] at phase
  have notCsi : ¬ (ansi.state = .csi ∧ csiParamCap ≤ ansi.params.length ∧ isParam byte) := by
    simp [state]
  cases cut : isCut byte with
  | true =>
    have control : byte < 0x20 ∧ byte ≠ esc := by simpa [isCut] using cut
    have other : byte ≠ csiIntroducer ∧ isStringIntroducer byte = false := by
      constructor
      · rintro rfl
        exact absurd control.1 (by decide)
      · cases starts : isStringIntroducer byte with
        | false => rfl
        | true => exact absurd control (isStringIntroducer_printable starts).1
    have fed : ansi.feed byte = ({ ansi with state := .text }, [.text byte]) := by
      simp only [feed, state, if_pos control]
    have filtered : st.filterByte byte = ({ st with state := .normal }, []) := by
      simp [GatewayOutState.filterByte, phase, phaseOf, mode, other, control.2]
    apply Parting.lost
    · rw [fed, filtered]
      exact ⟨mode, rfl, swallowed⟩
    · rw [fed]
      rfl
    · rw [filtered]
    · exact .inl state
    · exact cut
  | false =>
    have plain : ¬ (byte < 0x20 ∧ byte ≠ esc) := by simpa [isCut] using cut
    have shape : (ansi.feed byte).2 = [] ∧ (st.filterByte byte).2 = [] ∧
        Together (ansi.feed byte).1 (st.filterByte byte).1 := by
      by_cases csi : byte = csiIntroducer
      · rw [csi, feed_csiIntroducer state]
        have other : isStringIntroducer csiIntroducer = false ∧ csiIntroducer ≠ esc := by decide
        have filtered : st.filterByte csiIntroducer = ({ st with state := .csi }, []) := by
          simp [GatewayOutState.filterByte, phase, phaseOf, mode, other]
        rw [filtered]
        exact ⟨rfl, rfl, mode, rfl, swallowed⟩
      · cases starts : isStringIntroducer byte with
        | true =>
          rw [feed_stringIntroducer state starts]
          have filtered : st.filterByte byte = ({ st with state := .string }, []) := by
            simp [GatewayOutState.filterByte, phase, phaseOf, mode, starts]
          rw [filtered]
          exact ⟨rfl, rfl, mode, rfl, swallowed⟩
        | false =>
          by_cases again : byte = esc
          · have fed : ansi.feed byte = ({ ansi with state := .escape }, []) := by
              simp only [feed, state, if_neg plain, if_neg csi, starts, Bool.false_eq_true,
                ↓reduceIte, if_pos again]
            have filtered : st.filterByte byte = ({ st with state := .escape }, []) := by
              simp [GatewayOutState.filterByte, phase, phaseOf, mode, starts, if_pos again]
            rw [fed, filtered]
            exact ⟨rfl, rfl, mode, rfl, swallowed⟩
          · have fed : ansi.feed byte = ({ ansi with state := .text }, []) := by
              simp only [feed, state, if_neg plain, if_neg csi, starts, Bool.false_eq_true,
                ↓reduceIte, if_neg again]
            have filtered : st.filterByte byte = ({ st with state := .normal }, []) := by
              simp [GatewayOutState.filterByte, phase, phaseOf, mode, again, starts, csi]
            rw [fed, filtered]
            exact ⟨rfl, rfl, mode, rfl, swallowed⟩
    apply Parting.same shape.2.2
    · rw [shape.1, shape.2.1]
      rfl
    · exact fun _ => cut
    · exact notCsi

/-- A byte inside a control sequence. -/
theorem parting_csi {ansi : AnsiToPetscii} {st : GatewayOutState} (together : Together ansi st)
    (byte : UInt8) (state : ansi.state = .csi) : Parting ansi st byte := by
  obtain ⟨mode, phase, swallowed⟩ := together
  rw [state] at phase
  cases final : isFinal byte with
  | true =>
    have plain : isCut byte = false := by
      have high : 0x40 ≤ byte := by simp only [isFinal, Bool.and_eq_true, decide_eq_true_eq] at final; exact final.1
      have low : ¬ byte < 0x20 := fun low => by
        have := UInt8.lt_iff_toNat_lt.mp low
        have := UInt8.le_iff_toNat_le.mp high
        simp at *
        omega
      simp [isCut, low]
    apply Parting.same
    · simp only [feed, state, GatewayOutState.filterByte, phase, phaseOf, final, ↓reduceIte]
      exact ⟨mode, rfl, swallowed⟩
    · simp only [feed, state, GatewayOutState.filterByte, phase, phaseOf, final, ↓reduceIte,
        textBytes_control]
    · exact fun _ => plain
    · simp [isParam, final]
  | false =>
    by_cases escaped : byte = esc
    · have fed : ansi.feed byte = ({ ansi with params := [], state := .escape }, []) := by
        simp only [feed, state, final, Bool.false_eq_true, ↓reduceIte, if_pos escaped]
      have filtered : st.filterByte byte = ({ st with state := .escape }, []) := by
        simp [GatewayOutState.filterByte, phase, phaseOf, final, if_pos escaped]
      apply Parting.same
      · rw [fed, filtered]
        exact ⟨mode, rfl, swallowed⟩
      · rw [fed, filtered]
        rfl
      · simp [isCut, escaped]
      · rw [escaped]
        exact fun full => absurd full.2.2 (by decide)
    · cases cut : isCut byte with
      | true =>
        have control : byte < 0x20 := by simpa [isCut, escaped] using cut
        have fed : ansi.feed byte = ({ ansi with params := [], state := .text }, [.text byte]) := by
          simp only [feed, state, final, Bool.false_eq_true, ↓reduceIte, if_neg escaped,
            if_pos control]
        have filtered : st.filterByte byte = ({ st with state := .normal }, []) := by
          simp [GatewayOutState.filterByte, phase, phaseOf, final, escaped, control]
        apply Parting.lost
        · rw [fed, filtered]
          exact ⟨mode, rfl, swallowed⟩
        · rw [fed]
          rfl
        · rw [filtered]
        · exact .inr state
        · exact cut
      | false =>
        have high : ¬ byte < 0x20 := by simpa [isCut, escaped] using cut
        by_cases deleted : byte = 0x7F
        · have fed : ansi.feed byte = ({ ansi with params := [], state := .text }, []) := by
            simp only [feed, state, final, Bool.false_eq_true, ↓reduceIte, if_neg escaped,
              if_neg high, if_pos (Or.inl deleted)]
          have filtered : st.filterByte byte = ({ st with state := .normal }, []) := by
            simp [GatewayOutState.filterByte, phase, phaseOf, final, escaped,
              if_pos (Or.inr deleted)]
          apply Parting.same
          · rw [fed, filtered]
            exact ⟨mode, rfl, swallowed⟩
          · rw [fed, filtered]
            rfl
          · exact fun _ => cut
          · simp [isParam, deleted]
        · have filtered : st.filterByte byte = (st, []) := by
            simp [GatewayOutState.filterByte, phase, phaseOf, final, escaped, deleted, high]
          by_cases full : csiParamCap ≤ ansi.params.length
          · have fed : ansi.feed byte = ({ ansi with params := [], state := .text }, []) := by
              simp only [feed, state, final, Bool.false_eq_true, ↓reduceIte, if_neg escaped,
                if_neg high, full, or_true]
            have param : isParam byte := by
              have low : 0x20 ≤ byte := UInt8.not_lt.mp high
              simp [isParam, final, low, deleted]
            apply Parting.behind
            · rw [fed, filtered]
              exact ⟨mode, rfl, phase, swallowed⟩
            · rw [fed]
              rfl
            · rw [filtered]
            · exact cut
            · exact ⟨state, full, param⟩
          · have fed : ansi.feed byte = ({ ansi with params := ansi.params ++ [byte] }, []) := by
              simp only [feed, state, final, Bool.false_eq_true, ↓reduceIte, if_neg escaped,
                if_neg high, deleted, full, or_self]
            apply Parting.same
            · rw [fed, filtered]
              exact ⟨mode, by rw [phase]; simp [state], swallowed⟩
            · rw [fed, filtered]
              rfl
            · exact fun _ => cut
            · exact fun all => full all.2.1

/-- The three cases are all there are. -/
theorem parting {ansi : AnsiToPetscii} {st : GatewayOutState} (together : Together ansi st)
    (byte : UInt8) : Parting ansi st byte := by
  obtain ⟨mode, phase, swallowed⟩ := together
  cases state : ansi.state with
  | text =>
    have outside : ansi.state ≠ .escape ∧ ansi.state ≠ .csi := by simp [state]
    rw [state] at phase
    by_cases escaped : byte = esc
    · rw [escaped]
      have filtered : st.filterByte esc = ({ st with state := .escape }, []) := by
        simp [GatewayOutState.filterByte, phase, phaseOf]
      apply parting_same _ _ outside
      · rw [feed_esc state, filtered]
        exact ⟨mode, rfl, swallowed⟩
      · rw [feed_esc state, filtered]
        rfl
    · have filtered : st.filterByte byte = (st, [byte]) := by
        simp [GatewayOutState.filterByte, phase, phaseOf, escaped]
      apply parting_same _ _ outside
      · rw [feed_text state escaped, filtered]
        exact ⟨mode, by rw [phase, state], swallowed⟩
      · rw [feed_text state escaped, filtered]
        rfl
  | escape => exact parting_escape ⟨mode, phase, swallowed⟩ byte state
  | csi => exact parting_csi ⟨mode, phase, swallowed⟩ byte state
  | string =>
    have outside : ansi.state ≠ .escape ∧ ansi.state ≠ .csi := by simp [state]
    rw [state] at phase
    apply parting_same _ _ outside
    · simp only [feed, state, GatewayOutState.filterByte, phase, phaseOf, swallowed]
      split_ifs
      · exact ⟨mode, rfl, rfl⟩
      · exact ⟨mode, rfl, rfl⟩
      · exact ⟨mode, rfl, rfl⟩
      · exact ⟨mode, rfl, rfl⟩
    · simp only [feed, state, GatewayOutState.filterByte, phase, phaseOf, swallowed]
      split_ifs <;> rfl
  | stringEscape =>
    have outside : ansi.state ≠ .escape ∧ ansi.state ≠ .csi := by simp [state]
    rw [state] at phase
    apply parting_same _ _ outside
    · simp only [feed, state, GatewayOutState.filterByte, phase, phaseOf]
      split_ifs
      · exact ⟨mode, rfl, rfl⟩
      · exact ⟨mode, rfl, swallowed⟩
    · simp only [feed, state, GatewayOutState.filterByte, phase, phaseOf]
      split_ifs <;> rfl

/-- A filter that is behind loses every byte but an escape byte, which brings it back. -/
theorem behind_esc {ansi : AnsiToPetscii} {st : GatewayOutState} (behind : Behind ansi st) :
    Together (ansi.feed esc).1 (st.filterByte esc).1 ∧ (st.filterByte esc).2 = [] := by
  have other : isFinal esc = false := by decide
  have filtered : st.filterByte esc = ({ st with state := .escape }, []) := by
    simp [GatewayOutState.filterByte, behind.csi, other]
  rw [feed_esc behind.text, filtered]
  exact ⟨⟨behind.mode, rfl, behind.swallowed⟩, rfl⟩

/-- A filter that is behind loses what the translator hands on. -/
theorem behind_lost {ansi : AnsiToPetscii} {st : GatewayOutState} (behind : Behind ansi st)
    {byte : UInt8} (plain : byte ≠ esc) :
    (Together (ansi.feed byte).1 (st.filterByte byte).1 ∨
      Behind (ansi.feed byte).1 (st.filterByte byte).1) ∧
    textBytes (ansi.feed byte).2 = [byte] ∧ (st.filterByte byte).2 = [] := by
  rw [feed_text behind.text plain]
  simp only [GatewayOutState.filterByte, behind.csi, if_neg plain]
  split_ifs
  · exact ⟨.inl ⟨behind.mode, by rw [behind.text]; rfl, behind.swallowed⟩, rfl, rfl⟩
  · exact ⟨.inl ⟨behind.mode, by rw [behind.text]; rfl, behind.swallowed⟩, rfl, rfl⟩
  · exact ⟨.inr behind, rfl, rfl⟩

/-- The filter never shows more than the translator hands on. -/
theorem filterLoop_shorter {ansi : AnsiToPetscii} {st : GatewayOutState}
    (paired : Together ansi st ∨ Behind ansi st) (stream : List UInt8) :
    (st.filterLoop stream).2.length ≤ (textBytes (ansi.shown stream)).length := by
  induction stream generalizing ansi st with
  | nil => exact Nat.le_refl 0
  | cons byte stream ih =>
    simp only [GatewayOutState.filterLoop, shown, textBytes_append, List.length_append]
    cases paired with
    | inl together =>
      cases parting together byte with
      | same next shows => exact Nat.add_le_add (by rw [shows]) (ih (.inl next))
      | lost next shows filtered =>
        have rest := ih (.inl next)
        rw [shows, filtered]
        simp only [List.length_nil, List.length_singleton]
        omega
      | behind next shows filtered =>
        have rest := ih (.inr next)
        rw [shows, filtered]
        omega
    | inr behind =>
      by_cases escaped : byte = esc
      · have next := behind_esc behind
        have rest := ih (.inl next.1)
        rw [escaped, next.2]
        simp only [List.length_nil]
        omega
      · have next := behind_lost behind escaped
        have rest := ih next.1
        rw [next.2.1, next.2.2]
        simp only [List.length_nil, List.length_singleton]
        omega

/-- Once the filter has lost a byte the outputs differ. -/
theorem lost_ne {ansi : AnsiToPetscii} {st : GatewayOutState}
    (paired : Together ansi st ∨ Behind ansi st) (byte : UInt8) (stream : List UInt8) :
    (st.filterLoop stream).2 ≠ byte :: textBytes (ansi.shown stream) := by
  intro same
  have shorter := filterLoop_shorter paired stream
  rw [same, List.length_cons] at shorter
  omega

/-- Two parsers in the same phase show the same just when the stream is aligned, and a filter that
is behind shows the same just when the stream is besides over or starts a new sequence. -/
theorem same_iff (stream : List UInt8) :
    (∀ {ansi : AnsiToPetscii} {st : GatewayOutState}, Together ansi st →
      ((st.filterLoop stream).2 = textBytes (ansi.shown stream) ↔ Aligned ansi stream)) ∧
    (∀ {ansi : AnsiToPetscii} {st : GatewayOutState}, Behind ansi st →
      ((st.filterLoop stream).2 = textBytes (ansi.shown stream) ↔
        startsOver stream ∧ Aligned ansi stream)) := by
  induction stream with
  | nil => exact ⟨fun _ => by simp [GatewayOutState.filterLoop, shown, textBytes, Aligned],
      fun _ => by simp [GatewayOutState.filterLoop, shown, textBytes, Aligned, startsOver]⟩
  | cons byte stream ih =>
    constructor
    · intro ansi st together
      simp only [GatewayOutState.filterLoop, shown, textBytes_append, Aligned]
      cases parting together byte with
      | same next shows uncut room =>
        rw [shows, List.append_cancel_left_eq, ih.1 next]
        exact ⟨fun rest => ⟨uncut, fun full => absurd full room, rest⟩, fun all => all.2.2⟩
      | lost next shows filtered inside cut =>
        rw [shows, filtered]
        constructor
        · exact fun same => absurd same (lost_ne (.inl next) byte stream)
        · intro all
          have uncut := all.1 inside
          rw [cut] at uncut
          exact absurd uncut (by decide)
      | behind next shows filtered uncut full =>
        rw [shows, filtered, List.nil_append, List.nil_append, ih.2 next]
        exact ⟨fun rest => ⟨fun _ => uncut, fun _ => rest.1, rest.2⟩,
          fun all => ⟨all.2.1 full, all.2.2⟩⟩
    · intro ansi st behind
      have outside : ansi.state ≠ .escape ∧ ansi.state ≠ .csi := by simp [behind.text]
      simp only [GatewayOutState.filterLoop, shown, textBytes_append, Aligned]
      by_cases escaped : byte = esc
      · have next := behind_esc behind
        have quiet : textBytes (ansi.feed esc).2 = [] := by
          rw [feed_esc behind.text]
          rfl
        rw [escaped, next.2, quiet, List.nil_append, List.nil_append, ih.1 next.1]
        simp [startsOver, outside]
      · have next := behind_lost behind escaped
        rw [next.2.1, next.2.2]
        constructor
        · exact fun same => absurd same (lost_ne next.1 byte stream)
        · intro all
          exact absurd all.1 (by simp [startsOver, escaped])

/-- **When the two strippers agree.** However a stream is cut into reads, the filter of an ASCII
terminal passes exactly the bytes the translator hands to its text callback if and only if the
stream is aligned. -/
theorem strippers_agree_iff (reads : List (List UInt8)) :
    ((GatewayOutState.new .ascii).filterReads reads).2 =
      textBytes (AnsiToPetscii.new.shown reads.flatten) ↔ Aligned .new reads.flatten := by
  rw [GatewayOutState.filterReads_flatten reads (.inr rfl)]
  exact (same_iff reads.flatten).1 new_together

/-- `ESC CR`: the translator hands the carriage return on, and the filter loses it. -/
theorem strippers_escape_return :
    ((GatewayOutState.new .ascii).filterReads [[esc, 0x0D]]).2 = [] ∧
    textBytes (AnsiToPetscii.new.shown [esc, 0x0D]) = [0x0D] := by
  decide

end EthernetGateway.Terminal
