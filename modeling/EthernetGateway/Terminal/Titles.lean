import EthernetGateway.Terminal.GatewayFilter

/-!
# An ANSI terminal loses window titles and nothing else

A window title is an operating system command with code 0, 1 or 2 and a printable text, short
enough and properly ended. No title begins inside another one, so removing them all from a stream
leaves one result. The filter of an ANSI terminal puts out just that, and if it is made to release
what it holds now and then, it removes some of the titles and keeps every other byte in order.
-/

namespace EthernetGateway.Terminal

/-! ## Titles in a stream -/

/-- A window title. -/
inductive Title : List UInt8 → Prop where
  /-- The escape byte, `]`, the code, a semicolon, the text and the terminator. -/
  | mk {code : UInt8} {payload terminator : List UInt8}
      (titleCode : code = 0x30 ∨ code = 0x31 ∨ code = 0x32)
      (printable : ∀ byte ∈ payload, isPrintable byte)
      (short : payload.length + 4 ≤ oscTitleMax)
      (ended : terminator = [bel] ∨ terminator = [esc, backslash]) :
      Title ([esc, oscIntroducer] ++ (code :: 0x3B :: payload) ++ terminator)

/-- A stream begins with a title. -/
def TitleLeads (stream : List UInt8) : Prop := ∃ title rest, Title title ∧ stream = title ++ rest

/-- A stream and what remains of it when every title is removed. -/
inductive Untitled : List UInt8 → List UInt8 → Prop where
  /-- Nothing remains of nothing. -/
  | nil : Untitled [] []
  /-- A title is removed. -/
  | drop {title rest out : List UInt8} :
      Title title → Untitled rest out → Untitled (title ++ rest) out
  /-- A byte that begins no title is kept. -/
  | keep {byte : UInt8} {rest out : List UInt8} :
      ¬ TitleLeads (byte :: rest) → Untitled rest out → Untitled (byte :: rest) (byte :: out)

/-- A stream and what remains of it when some of its titles are removed. -/
inductive SomeUntitled : List UInt8 → List UInt8 → Prop where
  /-- Nothing remains of nothing. -/
  | nil : SomeUntitled [] []
  /-- A title may be removed. -/
  | drop {title rest out : List UInt8} :
      Title title → SomeUntitled rest out → SomeUntitled (title ++ rest) out
  /-- A byte may be kept. -/
  | keep {byte : UInt8} {rest out : List UInt8} :
      SomeUntitled rest out → SomeUntitled (byte :: rest) (byte :: out)

/-- Two ways to cut a list after its longest run of elements with a property are the same. -/
theorem run_unique {P : UInt8 → Prop} {run run' rest rest' : List UInt8}
    (all : ∀ byte ∈ run, P byte) (all' : ∀ byte ∈ run', P byte)
    (stops : ∀ byte ∈ rest.head?, ¬ P byte) (stops' : ∀ byte ∈ rest'.head?, ¬ P byte)
    (same : run ++ rest = run' ++ rest') : run = run' ∧ rest = rest' := by
  induction run generalizing run' with
  | nil =>
    cases run' with
    | nil => exact ⟨rfl, same⟩
    | cons byte run' =>
      simp only [List.nil_append, List.cons_append] at same
      exact absurd (all' byte (by simp)) (stops byte (by simp [same]))
  | cons byte run ih =>
    cases run' with
    | nil =>
      simp only [List.nil_append, List.cons_append] at same
      exact absurd (all byte (by simp)) (stops' byte (by simp [← same]))
    | cons byte' run' =>
      simp only [List.cons_append, List.cons.injEq] at same
      have shorter := ih (fun b mem => all b (by simp [mem])) (fun b mem => all' b (by simp [mem]))
        same.2
      exact ⟨by rw [same.1, shorter.1], shorter.2⟩

/-- What follows the printable text of a title cannot be taken for more text. -/
theorem terminator_stops {terminator : List UInt8}
    (ended : terminator = [bel] ∨ terminator = [esc, backslash]) (rest : List UInt8) :
    ∀ byte ∈ (terminator ++ rest).head?, ¬ isPrintable byte := by
  intro byte mem
  cases ended with
  | inl bell => simp [bell] at mem; subst mem; decide
  | inr string => simp [string] at mem; subst mem; decide

/-- The code and the semicolon of a title are printable like its text. -/
theorem title_printable {code : UInt8} {payload : List UInt8}
    (titleCode : code = 0x30 ∨ code = 0x31 ∨ code = 0x32)
    (printable : ∀ byte ∈ payload, isPrintable byte) :
    ∀ byte ∈ code :: 0x3B :: payload, isPrintable byte := by
  intro byte mem
  simp only [List.mem_cons] at mem
  rcases mem with rfl | rfl | mem
  · rcases titleCode with rfl | rfl | rfl <;> decide
  · decide
  · exact printable byte mem

/-- A candidate that begins as a title does is one when it is ended. -/
theorem title_of {body terminator : List UInt8}
    (begins : GatewayOutState.isTitle ([esc, oscIntroducer] ++ body))
    (printable : ∀ byte ∈ body, isPrintable byte) (short : body.length + 2 ≤ oscTitleMax)
    (ended : terminator = [bel] ∨ terminator = [esc, backslash]) :
    Title ([esc, oscIntroducer] ++ body ++ terminator) := by
  match body, printable, begins, short with
  | [], _, begins, _ => simp [GatewayOutState.isTitle] at begins
  | [_], _, begins, _ => simp [GatewayOutState.isTitle] at begins
  | code :: separator :: payload, printable, begins, short =>
    simp only [GatewayOutState.isTitle, List.cons_append, List.nil_append, Bool.and_eq_true,
      Bool.or_eq_true, decide_eq_true_eq, or_assoc] at begins
    obtain ⟨titleCode, rfl⟩ := begins
    have text : ∀ byte ∈ payload, isPrintable byte := fun byte mem => printable byte (by simp [mem])
    have fits : payload.length + 4 ≤ oscTitleMax := by simpa using short
    exact .mk titleCode text fits ended

/-- A stream that begins with `ESC ]` and a longest run of printable bytes begins with a title just
when the run begins as a title does, is short enough and is ended. -/
theorem titleLeads_iff {body rest : List UInt8} (printable : ∀ byte ∈ body, isPrintable byte)
    (stops : ∀ byte ∈ rest.head?, ¬ isPrintable byte) :
    TitleLeads ([esc, oscIntroducer] ++ body ++ rest) ↔
      GatewayOutState.isTitle ([esc, oscIntroducer] ++ body) ∧ body.length + 2 ≤ oscTitleMax ∧
        (rest.head? = some bel ∨ rest.take 2 = [esc, backslash]) := by
  constructor
  · rintro ⟨_, after, ⟨titleCode, printable', short, ended⟩, same⟩
    simp only [List.append_assoc, List.append_cancel_left_eq] at same
    have cut := run_unique printable (title_printable titleCode printable') stops
      (terminator_stops ended after) same
    refine ⟨?_, ?_, ?_⟩
    · rw [cut.1]
      simpa [GatewayOutState.isTitle, or_assoc] using titleCode
    · rw [cut.1]
      simpa using short
    · rw [cut.2]
      cases ended with
      | inl bell => simp [bell]
      | inr string => simp [string]
  · rintro ⟨begins, short, ended⟩
    cases ended with
    | inl bell =>
      obtain ⟨after, rfl⟩ := List.head?_eq_some_iff.mp bell
      exact ⟨_, after, title_of begins printable short (.inl rfl), by simp⟩
    | inr string =>
      refine ⟨_, rest.drop 2, title_of begins printable short (.inr rfl), ?_⟩
      rw [← string, List.append_assoc _ (rest.take 2), List.take_append_drop]

/-- A stream that begins with a title begins with an escape byte and `]`. -/
theorem titleLeads_start {byte : UInt8} {rest : List UInt8} (leads : TitleLeads (byte :: rest)) :
    byte = esc ∧ rest.head? = some oscIntroducer := by
  obtain ⟨_, after, ⟨_, _, _, _⟩, same⟩ := leads
  simp only [List.cons_append, List.cons.injEq] at same
  exact ⟨same.1, by rw [same.2]; rfl⟩

/-- Printable bytes hold no escape byte. -/
theorem printable_ne_esc {byte : UInt8} (printable : isPrintable byte) : byte ≠ esc := by
  intro same
  subst same
  exact absurd printable (by decide)

/-- The only escape byte after text is the one of the terminator. -/
theorem esc_then_backslash {text before after : List UInt8} (plain : ∀ byte ∈ text, byte ≠ esc)
    (same : text ++ [esc, backslash] = before ++ esc :: after) : after = [backslash] := by
  induction text generalizing before with
  | nil =>
    cases before with
    | nil => exact (List.cons.inj same).2.symm
    | cons first before =>
      have tail := (List.cons.inj same).2
      cases before with
      | nil => exact absurd (List.cons.inj tail).1 (by decide)
      | cons second before => exact absurd (List.cons.inj tail).2 (by simp)
  | cons byte text ih =>
    cases before with
    | nil => exact absurd (List.cons.inj same).1 (plain byte (by simp))
    | cons first before =>
      exact ih (fun b mem => plain b (by simp [mem])) (List.cons.inj same).2

/-- No title begins inside another one. -/
theorem titles_apart {before inside after : List UInt8} (title : Title (before ++ inside))
    (started : before ≠ []) (within : inside ≠ []) : ¬ TitleLeads (inside ++ after) := by
  intro leads
  cases inside with
  | nil => exact within rfl
  | cons byte inside =>
    obtain ⟨rfl, next⟩ := titleLeads_start leads
    cases before with
    | nil => exact started rfl
    | cons first before =>
      generalize whole : first :: before ++ esc :: inside = all at title
      obtain ⟨titleCode, printable, -, ended⟩ := title
      rename_i code payload terminator
      have same : oscIntroducer :: code :: 0x3B :: payload ++ terminator = before ++ esc :: inside :=
        (List.cons.inj whole).2.symm
      have plain : ∀ byte ∈ oscIntroducer :: code :: 0x3B :: payload, byte ≠ esc := by
        intro byte mem
        rcases List.mem_cons.mp mem with rfl | mem
        · decide
        · exact printable_ne_esc (title_printable titleCode printable byte mem)
      cases ended with
      | inl bell =>
        have mem : esc ∈ oscIntroducer :: code :: 0x3B :: payload ++ terminator := by simp [same]
        rw [bell, List.mem_append, List.mem_singleton] at mem
        cases mem with
        | inl text => exact plain esc text rfl
        | inr bell => exact absurd bell (by decide)
      | inr string =>
        rw [string] at same
        rw [esc_then_backslash plain same] at next
        exact absurd (Option.some.inj next) (by decide)

/-- A stream begins with one title at most. -/
theorem title_unique {title title' rest rest' : List UInt8} (first : Title title)
    (second : Title title') (same : title ++ rest = title' ++ rest') : title = title' := by
  obtain ⟨titleCode, printable, -, ended⟩ := first
  obtain ⟨titleCode', printable', -, ended'⟩ := second
  rename_i code payload terminator code' payload' terminator'
  simp only [List.append_assoc, List.append_cancel_left_eq] at same
  have cut := run_unique (title_printable titleCode printable) (title_printable titleCode' printable')
    (terminator_stops ended rest) (terminator_stops ended' rest') same
  have ends : terminator = terminator' := by
    rcases ended with rfl | rfl <;> rcases ended' with rfl | rfl
    · rfl
    · exact absurd (List.cons.inj cut.2).1 (by decide)
    · exact absurd (List.cons.inj cut.2).1 (by decide)
    · rfl
  rw [cut.1, ends]

/-- Removing every title from a stream has one result. -/
theorem untitled_unique {stream out out' : List UInt8} (first : Untitled stream out)
    (second : Untitled stream out') : out = out' := by
  induction first generalizing out' with
  | nil =>
    generalize empty : [] = stream at second
    cases second with
    | nil => rfl
    | drop title rest =>
      obtain ⟨-, -, -, -⟩ := title
      exact absurd empty (by simp)
    | keep => exact absurd empty (by simp)
  | @drop title rest out isTitle _ ih =>
    generalize whole : title ++ rest = stream at second
    cases second with
    | nil =>
      obtain ⟨-, -, -, -⟩ := isTitle
      exact absurd whole (by simp)
    | drop isTitle' rest' =>
      have same := title_unique isTitle isTitle' whole
      subst same
      exact ih (List.append_cancel_left whole ▸ rest')
    | keep none => exact absurd ⟨_, _, isTitle, whole.symm⟩ none
  | @keep byte rest out none _ ih =>
    generalize whole : byte :: rest = stream at second
    cases second with
    | nil => exact absurd whole (by simp)
    | drop isTitle rest' => exact absurd ⟨_, _, isTitle, whole⟩ none
    | keep _ rest' =>
      obtain ⟨rfl, rfl⟩ := List.cons.inj whole
      rw [ih rest']

/-- Bytes without an escape byte are kept. -/
theorem Untitled.keepPlain {plain rest out : List UInt8} (none : ∀ byte ∈ plain, byte ≠ esc)
    (remains : Untitled rest out) : Untitled (plain ++ rest) (plain ++ out) := by
  induction plain with
  | nil => exact remains
  | cons byte plain ih =>
    apply Untitled.keep
    · intro leads
      exact none byte (by simp) (titleLeads_start leads).1
    · exact ih fun b mem => none b (by simp [mem])

/-- A candidate that is no title is kept. -/
theorem Untitled.keepCandidate {body rest out : List UInt8}
    (printable : ∀ byte ∈ body, isPrintable byte)
    (none : ¬ TitleLeads ([esc, oscIntroducer] ++ body ++ rest)) (remains : Untitled rest out) :
    Untitled ([esc, oscIntroducer] ++ body ++ rest) ([esc, oscIntroducer] ++ body ++ out) := by
  have text : ∀ byte ∈ oscIntroducer :: body, byte ≠ esc := by
    intro byte mem
    rcases List.mem_cons.mp mem with rfl | mem
    · decide
    · exact printable_ne_esc (printable byte mem)
  exact .keep none (remains.keepPlain text)

/-- A stream without all its titles is one without some of them. -/
theorem Untitled.some {stream out : List UInt8} (untitled : Untitled stream out) :
    SomeUntitled stream out := by
  induction untitled with
  | nil => exact .nil
  | drop title _ ih => exact .drop title ih
  | keep _ _ ih => exact .keep ih

/-- Two streams without some of their titles, one after the other. -/
theorem SomeUntitled.append {first second out out' : List UInt8} (untitled : SomeUntitled first out)
    (untitled' : SomeUntitled second out') : SomeUntitled (first ++ second) (out ++ out') := by
  induction untitled with
  | nil => exact untitled'
  | drop title _ ih =>
    rw [List.append_assoc]
    exact .drop title ih
  | keep _ ih => exact .keep ih

/-! ## What the filter holds -/

namespace GatewayOutState

/-- Between two bytes the filter of an ANSI terminal holds nothing, an escape byte, or a candidate
title whose text is printable and not too long. -/
inductive Sound : GatewayOutState → Prop where
  /-- Nothing is held. -/
  | normal {st : GatewayOutState} :
      st.mode = .ansi → st.state = .normal → st.held = [] → Sound st
  /-- An escape byte is held. -/
  | escape {st : GatewayOutState} :
      st.mode = .ansi → st.state = .escape → st.held = [] → Sound st
  /-- A candidate is held. -/
  | weighing {st : GatewayOutState} {body : List UInt8} :
      st.mode = .ansi → st.state = .weighing → st.held = [esc, oscIntroducer] ++ body →
      (∀ byte ∈ body, isPrintable byte) → body.length + 2 ≤ oscTitleMax → Sound st
  /-- A candidate and an escape byte after it are held. -/
  | weighingEscape {st : GatewayOutState} {body : List UInt8} :
      st.mode = .ansi → st.state = .weighingEscape → st.held = [esc, oscIntroducer] ++ body →
      (∀ byte ∈ body, isPrintable byte) → body.length + 2 ≤ oscTitleMax → Sound st

/-- The filter starts with nothing held. -/
theorem new_sound : Sound (new .ansi) := .normal rfl rfl rfl

/-- Releasing what is held leaves nothing held. -/
theorem flushPending_sound {st : GatewayOutState} (sound : Sound st) : Sound st.flushPending := by
  cases sound with
  | normal mode state held =>
    have none : st.hasPending = false := by simp [hasPending, held, state]
    simpa [flushPending, none] using Sound.normal mode state held
  | escape mode state held =>
    have some : st.hasPending = true := by simp [hasPending, mode, state]
    simpa [flushPending, some] using @Sound.normal { st with held := [], state := .normal }
      mode rfl rfl
  | weighing mode state held =>
    have some : st.hasPending = true := by simp [hasPending, mode, held]
    simpa [flushPending, some] using @Sound.normal { st with held := [], state := .normal }
      mode rfl rfl
  | weighingEscape mode state held =>
    have some : st.hasPending = true := by simp [hasPending, mode, held]
    simpa [flushPending, some] using @Sound.normal { st with held := [], state := .normal }
      mode rfl rfl

/-- Nothing is withheld after a release. -/
theorem flushPending_hasPending (st : GatewayOutState) : st.flushPending.hasPending = false := by
  cases held : st.hasPending with
  | false => rw [flushPending, held, if_neg (by decide), held]
  | true =>
    rw [flushPending, held, if_pos rfl]
    simp [hasPending]

/-- What is withheld is nothing when nothing is pending. -/
theorem pending_nil {st : GatewayOutState} (none : st.hasPending = false) : st.pending = [] := by
  simp [pending, none]

/-- What is held while text passes. -/
theorem pending_normal {st : GatewayOutState} (state : st.state = .normal) (held : st.held = []) :
    st.pending = [] := by
  simp [pending, hasPending, state, held]

/-- What is held after an escape byte. -/
theorem pending_escape {st : GatewayOutState} (mode : st.mode = .ansi) (state : st.state = .escape)
    (held : st.held = []) : st.pending = [esc] := by
  simp [pending, hasPending, mode, state, held]

/-- What is held while a candidate is weighed. -/
theorem pending_weighing {st : GatewayOutState} {body : List UInt8} (mode : st.mode = .ansi)
    (state : st.state = .weighing) (held : st.held = [esc, oscIntroducer] ++ body) :
    st.pending = [esc, oscIntroducer] ++ body := by
  simp [pending, hasPending, mode, state, held]

/-- What is held after an escape byte while a candidate is weighed. -/
theorem pending_weighingEscape {st : GatewayOutState} {body : List UInt8} (mode : st.mode = .ansi)
    (state : st.state = .weighingEscape) (held : st.held = [esc, oscIntroducer] ++ body) :
    st.pending = [esc, oscIntroducer] ++ body ++ [esc] := by
  simp [pending, hasPending, mode, state, held]

/-- What is held at the end of a stream holds no title. -/
theorem pending_untitled {st : GatewayOutState} (sound : Sound st) :
    Untitled st.pending st.pending := by
  cases sound with
  | normal mode state held =>
    rw [pending_normal state held]
    exact .nil
  | escape mode state held =>
    rw [pending_escape mode state held]
    refine .keep (fun leads => ?_) .nil
    exact absurd (titleLeads_start leads).2 (by simp)
  | weighing mode state held printable short =>
    rw [pending_weighing mode state held]
    have whole := @Untitled.keepCandidate _ [] [] printable ?_ .nil
    · simpa using whole
    · rw [titleLeads_iff printable (by simp)]
      simp
  | weighingEscape mode state held printable short =>
    rw [pending_weighingEscape mode state held]
    refine @Untitled.keepCandidate _ [esc] [esc] printable ?_ (.keep ?_ .nil)
    · rw [titleLeads_iff printable (by simp; decide)]
      have other : esc ≠ bel := by decide
      simp [other]
    · exact fun leads => absurd (titleLeads_start leads).2 (by simp)

/-! ## One byte at a time -/

/-- A byte while text passes. -/
theorem filterByte_normal {st : GatewayOutState} (b : UInt8) (state : st.state = .normal) :
    st.filterByte b = if b = esc then ({ st with state := .escape }, []) else (st, [b]) := by
  simp only [filterByte, state]

/-- A byte after an escape byte, for an ANSI terminal. -/
theorem filterByte_escape {st : GatewayOutState} (b : UInt8) (mode : st.mode = .ansi)
    (state : st.state = .escape) :
    st.filterByte b =
      if b = oscIntroducer then ({ st with held := [esc, oscIntroducer], state := .weighing }, [])
      else if b = esc then ({ st with state := .escape }, [esc])
      else ({ st with state := .normal }, [esc, b]) := by
  simp only [filterByte, state, mode]
  simp

/-- A byte while a candidate is weighed. -/
theorem filterByte_weighing {st : GatewayOutState} (b : UInt8) (state : st.state = .weighing) :
    st.filterByte b =
      if b = bel then
        ({ st with held := [], state := .normal }, if isTitle st.held then [] else st.held ++ [b])
      else if b = esc then ({ st with state := .weighingEscape }, [])
      else if ¬ isPrintable b ∨ oscTitleMax ≤ st.held.length then
        ({ st with held := [], state := .normal }, st.held ++ [b])
      else ({ st with held := st.held ++ [b] }, []) := by
  simp only [filterByte, state]

/-- A byte after an escape byte while a candidate is weighed. -/
theorem filterByte_weighingEscape {st : GatewayOutState} (b : UInt8)
    (state : st.state = .weighingEscape) :
    st.filterByte b =
      if b = backslash then
        ({ st with held := [], state := .normal },
          if isTitle st.held then [] else st.held ++ [esc, backslash])
      else if b = oscIntroducer then
        ({ st with held := [esc, oscIntroducer], state := .weighing }, st.held)
      else if b = esc then ({ st with held := [], state := .escape }, st.held ++ [esc])
      else ({ st with held := [], state := .normal }, st.held ++ [esc, b]) := by
  simp only [filterByte, state]

/-- What one byte does to the filter of an ANSI terminal: it stays sound, and if what it then holds
and the rest of the stream lose their titles, so do what it held, the byte and the rest. -/
structure Step (st : GatewayOutState) (b : UInt8) : Prop where
  /-- The filter stays sound. -/
  sound : Sound (st.filterByte b).1
  /-- What the byte releases is kept. -/
  untitled : ∀ rest out, Untitled ((st.filterByte b).1.pending ++ rest) out →
    Untitled (st.pending ++ b :: rest) ((st.filterByte b).2 ++ out)

/-- A step from what the byte makes of the filter. -/
theorem step_of {st next : GatewayOutState} {b : UInt8} {released held : List UInt8}
    (fed : st.filterByte b = (next, released)) (sound : Sound next) (holds : next.pending = held)
    (kept : ∀ rest out, Untitled (held ++ rest) out →
      Untitled (st.pending ++ b :: rest) (released ++ out)) : Step st b := by
  constructor
  · rw [fed]
    exact sound
  · intro rest out remains
    rw [fed] at remains ⊢
    rw [holds] at remains
    exact kept rest out remains

/-- A byte while text passes. -/
theorem step_normal {st : GatewayOutState} (b : UInt8) (mode : st.mode = .ansi)
    (state : st.state = .normal) (held : st.held = []) : Step st b := by
  have before := pending_normal state held
  have fed := filterByte_normal b state
  by_cases escaped : b = esc
  · rw [if_pos escaped] at fed
    apply step_of fed (.escape mode rfl held) (pending_escape mode rfl held)
    intro rest out remains
    rw [before, escaped]
    exact remains
  · rw [if_neg escaped] at fed
    apply step_of fed (.normal mode state held) before
    intro rest out remains
    rw [before]
    exact @Untitled.keepPlain [b] _ _ (by simpa using escaped) remains

/-- The start of a candidate, as a candidate without text. -/
theorem candidate_nil : ([esc, oscIntroducer] : List UInt8) = [esc, oscIntroducer] ++ [] := by simp

/-- A byte after an escape byte. -/
theorem step_escape {st : GatewayOutState} (b : UInt8) (mode : st.mode = .ansi)
    (state : st.state = .escape) (held : st.held = []) : Step st b := by
  have before := pending_escape mode state held
  have fed := filterByte_escape b mode state
  have kept (rest : List UInt8) (other : b ≠ oscIntroducer) : ¬ TitleLeads (esc :: b :: rest) :=
    fun leads => other (Option.some.inj (titleLeads_start leads).2)
  by_cases opened : b = oscIntroducer
  · rw [if_pos opened] at fed
    apply step_of fed (.weighing mode rfl candidate_nil (by simp) (by decide))
      (pending_weighing mode rfl candidate_nil)
    intro rest out remains
    rw [before, opened]
    exact remains
  · rw [if_neg opened] at fed
    by_cases escaped : b = esc
    · rw [if_pos escaped] at fed
      apply step_of fed (.escape mode rfl held) (pending_escape mode rfl held)
      intro rest out remains
      rw [before]
      exact .keep (kept rest opened) (escaped ▸ remains)
    · rw [if_neg escaped] at fed
      apply step_of fed (.normal mode rfl held) (pending_normal rfl held)
      intro rest out remains
      rw [before]
      have plain := @Untitled.keepPlain [b] _ _ (by simpa using escaped) remains
      exact .keep (kept rest opened) plain

/-- A candidate that is ended is dropped when it begins as a title does, and kept otherwise. -/
theorem decided {body terminator rest out : List UInt8}
    (printable : ∀ byte ∈ body, isPrintable byte) (short : body.length + 2 ≤ oscTitleMax)
    (ended : terminator = [bel] ∨ terminator = [esc, backslash]) (remains : Untitled rest out) :
    Untitled ([esc, oscIntroducer] ++ body ++ (terminator ++ rest))
      ((if isTitle ([esc, oscIntroducer] ++ body) then []
        else [esc, oscIntroducer] ++ body ++ terminator) ++ out) := by
  cases title : isTitle ([esc, oscIntroducer] ++ body) with
  | true =>
    rw [if_pos rfl, ← List.append_assoc]
    exact .drop (title_of title printable short ended) remains
  | false =>
    have none : ¬ TitleLeads ([esc, oscIntroducer] ++ body ++ (terminator ++ rest)) := by
      rw [titleLeads_iff printable (terminator_stops ended rest), title]
      exact fun leads => absurd leads.1 (by decide)
    rw [if_neg (by decide), List.append_assoc _ terminator]
    apply Untitled.keepCandidate printable none
    cases ended with
    | inl bell =>
      rw [bell]
      exact remains.keepPlain (by simp; decide)
    | inr string =>
      rw [string]
      have plain := @Untitled.keepPlain [backslash] _ _ (by simp; decide) remains
      refine .keep (fun leads => ?_) plain
      exact absurd (Option.some.inj (titleLeads_start leads).2) (by decide)

/-- A candidate as long as a title can get is none if its text goes on. -/
theorem overlong {body rest : List UInt8} {b : UInt8} (printable : ∀ byte ∈ body, isPrintable byte)
    (text : isPrintable b) (long : oscTitleMax ≤ body.length + 2) :
    ¬ TitleLeads ([esc, oscIntroducer] ++ body ++ b :: rest) := by
  have split : b :: rest = (b :: rest.takeWhile isPrintable) ++ rest.dropWhile isPrintable := by
    rw [List.cons_append, List.takeWhile_append_dropWhile]
  have run : ∀ byte ∈ body ++ b :: rest.takeWhile isPrintable, isPrintable byte := by
    intro byte mem
    rcases List.mem_append.mp mem with mem | mem
    · exact printable byte mem
    · rcases List.mem_cons.mp mem with rfl | mem
      · exact text
      · exact List.mem_takeWhile_imp mem
  have stops : ∀ byte ∈ (rest.dropWhile isPrintable).head?, ¬ isPrintable byte := by
    intro byte mem
    have first := List.head?_dropWhile_not isPrintable rest
    rw [Option.mem_def.mp mem] at first
    simpa using first
  rw [split, ← List.append_assoc, List.append_assoc _ body, titleLeads_iff run stops]
  intro leads
  have short := leads.2.1
  simp only [List.length_append, List.length_cons] at short
  omega

/-- A byte while a candidate is weighed. -/
theorem step_weighing {st : GatewayOutState} {body : List UInt8} (b : UInt8)
    (mode : st.mode = .ansi) (state : st.state = .weighing)
    (held : st.held = [esc, oscIntroducer] ++ body) (printable : ∀ byte ∈ body, isPrintable byte)
    (short : body.length + 2 ≤ oscTitleMax) : Step st b := by
  have before := pending_weighing mode state held
  have fed := filterByte_weighing b state
  have longer : st.held.length = body.length + 2 := by simp [held]
  by_cases bell : b = bel
  · rw [if_pos bell, bell] at fed
    subst bell
    apply step_of fed (.normal mode rfl rfl) (pending_normal rfl rfl)
    intro rest out remains
    rw [before, held]
    exact decided printable short (.inl rfl) remains
  · rw [if_neg bell] at fed
    by_cases escaped : b = esc
    · rw [if_pos escaped] at fed
      apply step_of fed (.weighingEscape mode rfl held printable short)
        (pending_weighingEscape mode rfl held)
      intro rest out remains
      rw [before, escaped]
      simpa using remains
    · rw [if_neg escaped] at fed
      by_cases data : ¬ isPrintable b ∨ oscTitleMax ≤ st.held.length
      · rw [if_pos data] at fed
        apply step_of fed (.normal mode rfl rfl) (pending_normal rfl rfl)
        intro rest out remains
        rw [before, held, List.append_assoc _ [b]]
        apply Untitled.keepCandidate printable
        · by_cases text : isPrintable b
          · have full := data.resolve_left (not_not_intro text)
            exact overlong printable text (by omega)
          · rw [titleLeads_iff printable (by simpa using text)]
            simp [bell, escaped]
        · exact @Untitled.keepPlain [b] _ _ (by simpa using escaped) remains
      · rw [if_neg data] at fed
        have text : isPrintable b := by
          by_contra none
          exact data (.inl none)
        have room : ¬ oscTitleMax ≤ st.held.length := fun full => data (.inr full)
        have grown : st.held ++ [b] = [esc, oscIntroducer] ++ (body ++ [b]) := by simp [held]
        apply step_of fed
          (.weighing mode state grown (by simpa [or_imp, forall_and] using ⟨printable, text⟩) (by
            simp only [List.length_append, List.length_singleton]
            omega))
          (pending_weighing mode state grown)
        intro rest out remains
        rw [before]
        simpa using remains

/-- A byte after an escape byte while a candidate is weighed. -/
theorem step_weighingEscape {st : GatewayOutState} {body : List UInt8} (b : UInt8)
    (mode : st.mode = .ansi) (state : st.state = .weighingEscape)
    (held : st.held = [esc, oscIntroducer] ++ body) (printable : ∀ byte ∈ body, isPrintable byte)
    (short : body.length + 2 ≤ oscTitleMax) : Step st b := by
  have before := pending_weighingEscape mode state held
  have fed := filterByte_weighingEscape b state
  have around (rest : List UInt8) : [esc, oscIntroducer] ++ body ++ [esc] ++ b :: rest =
      [esc, oscIntroducer] ++ body ++ (esc :: b :: rest) := by simp
  by_cases string : b = backslash
  · rw [if_pos string] at fed
    apply step_of fed (.normal mode rfl rfl) (pending_normal rfl rfl)
    intro rest out remains
    rw [before, held, around, string]
    exact decided printable short (.inr rfl) remains
  · have candidate (rest : List UInt8) :
        ¬ TitleLeads ([esc, oscIntroducer] ++ body ++ (esc :: b :: rest)) := by
      rw [titleLeads_iff printable (by simp; decide)]
      have other : esc ≠ bel := by decide
      simp [string, other]
    rw [if_neg string] at fed
    by_cases opened : b = oscIntroducer
    · rw [if_pos opened] at fed
      apply step_of fed (.weighing mode rfl candidate_nil (by simp) (by decide))
        (pending_weighing mode rfl candidate_nil)
      intro rest out remains
      rw [before, held, around]
      exact .keepCandidate printable (candidate rest) (opened ▸ remains)
    · have kept (rest : List UInt8) : ¬ TitleLeads (esc :: b :: rest) :=
        fun leads => opened (Option.some.inj (titleLeads_start leads).2)
      rw [if_neg opened] at fed
      by_cases escaped : b = esc
      · rw [if_pos escaped] at fed
        apply step_of fed (.escape mode rfl rfl) (pending_escape mode rfl rfl)
        intro rest out remains
        rw [before, held, around, List.append_assoc _ [esc]]
        exact .keepCandidate printable (candidate rest) (.keep (kept rest) (escaped ▸ remains))
      · rw [if_neg escaped] at fed
        apply step_of fed (.normal mode rfl rfl) (pending_normal rfl rfl)
        intro rest out remains
        rw [before, held, around, List.append_assoc _ [esc, b]]
        have plain := @Untitled.keepPlain [b] _ _ (by simpa using escaped) remains
        exact .keepCandidate printable (candidate rest) (.keep (kept rest) plain)

/-- A byte, whatever is held. -/
theorem step_sound {st : GatewayOutState} (sound : Sound st) (b : UInt8) : Step st b := by
  cases sound with
  | normal mode state held => exact step_normal b mode state held
  | escape mode state held => exact step_escape b mode state held
  | weighing mode state held printable short => exact step_weighing b mode state held printable short
  | weighingEscape mode state held printable short =>
    exact step_weighingEscape b mode state held printable short

/-! ## Whole streams -/

/-- A run leaves the filter sound. -/
theorem filterLoop_sound {st : GatewayOutState} (sound : Sound st) (input : List UInt8) :
    Sound (st.filterLoop input).1 := by
  induction input generalizing st with
  | nil => exact sound
  | cons b input ih => exact ih (step_sound sound b).sound

/-- What was held and a run lose their titles: the rest is put out or still held. -/
theorem filterLoop_untitled {st : GatewayOutState} (sound : Sound st) (input : List UInt8) :
    Untitled (st.pending ++ input) ((st.filterLoop input).2 ++ (st.filterLoop input).1.pending) := by
  induction input generalizing st with
  | nil => simpa [filterLoop] using pending_untitled sound
  | cons b input ih =>
    have step := step_sound sound b
    have rest := step.untitled input _ (ih step.sound)
    simpa [filterLoop, List.append_assoc] using rest

/-- What an ANSI terminal's gateway does: read some output, or release what is held. -/
inductive Action where
  /-- A read from the remote. -/
  | read (input : List UInt8)
  /-- The remote has gone quiet. -/
  | quiet
  deriving DecidableEq

/-- What the remote sent in a run of actions. -/
def sent : List Action → List UInt8
  | [] => []
  | .read input :: actions => input ++ sent actions
  | .quiet :: actions => sent actions

/-- A run of actions: the filter after it, and what the client was given. -/
def run (st : GatewayOutState) : List Action → GatewayOutState × List UInt8
  | [] => (st, [])
  | .read input :: actions =>
    let first := st.filterGatewayOutput input
    let rest := first.1.run actions
    (rest.1, first.2 ++ rest.2)
  | .quiet :: actions =>
    let rest := st.flushPending.run actions
    (rest.1, st.pending ++ rest.2)

/-- A sound filter reads byte by byte. -/
theorem filterGatewayOutput_sound {st : GatewayOutState} (sound : Sound st) (input : List UInt8) :
    st.filterGatewayOutput input = st.filterLoop input := by
  have mode : st.mode = .ansi := by cases sound <;> assumption
  simp [filterGatewayOutput, mode]

/-- A stream read so far and a run of actions lose some of their titles at most. -/
theorem run_someUntitled {st : GatewayOutState} (sound : Sound st) (input : List UInt8)
    (actions : List Action) :
    SomeUntitled (st.pending ++ input ++ sent actions)
      ((st.filterLoop input).2 ++ ((st.filterLoop input).1.run actions).2 ++
        ((st.filterLoop input).1.run actions).1.pending) := by
  induction actions generalizing st input with
  | nil => simpa [run, sent] using (filterLoop_untitled sound input).some
  | cons action actions ih =>
    have middle := filterLoop_sound sound input
    cases action with
    | read more =>
      have whole := ih sound (input ++ more)
      rw [filterLoop_append] at whole
      simpa [run, sent, filterGatewayOutput_sound middle, List.append_assoc] using whole
    | quiet =>
      have flushed := flushPending_sound middle
      have rest := ih flushed []
      rw [pending_nil (flushPending_hasPending _)] at rest
      have whole := (filterLoop_untitled sound input).some.append rest
      simpa [run, sent, filterLoop, List.append_assoc] using whole

/-- **An ANSI terminal loses titles only.** Whatever the remote sends and wherever its output is
cut into reads, what the client was given and what a release would add is the stream without its
titles. If the filter is made to release what it holds in between, it is the stream without some of
its titles, and nothing is withheld after a release. -/
theorem ansi_drops_titles :
    (∀ reads : List (List UInt8),
      Untitled reads.flatten
        (((new .ansi).filterReads reads).2 ++ ((new .ansi).filterReads reads).1.pending)) ∧
    (∀ actions : List Action,
      SomeUntitled (sent actions)
        (((new .ansi).run actions).2 ++ ((new .ansi).run actions).1.pending)) ∧
    (∀ actions : List Action, ((new .ansi).run (actions ++ [.quiet])).1.hasPending = false) := by
  refine ⟨fun reads => ?_, fun actions => ?_, fun actions => ?_⟩
  · rw [filterReads_flatten reads (.inl rfl)]
    exact filterLoop_untitled new_sound reads.flatten
  · exact run_someUntitled new_sound [] actions
  · have ends (st : GatewayOutState) : (st.run (actions ++ [.quiet])).1.hasPending = false := by
      induction actions generalizing st with
      | nil => exact flushPending_hasPending st
      | cons action actions ih =>
        cases action with
        | read input => exact ih (st.filterGatewayOutput input).1
        | quiet => exact ih st.flushPending
    exact ends _

/-- A title cut into three reads is dropped, and the text around it is not. -/
example : ((new .ansi).filterReads
    [[0x61, esc], [oscIntroducer, 0x30, 0x3B, 0x78], [bel, 0x62]]).2 = [0x61, 0x62] := by
  decide

end GatewayOutState

end EthernetGateway.Terminal
