import EthernetGateway.Terminal.PetsciiText

/-!
# What a gateway lets through to its user's terminal

`filterGatewayOutput` reads the remote's output a byte at a time. For an ASCII terminal it strips
escape sequences; for an ANSI terminal it lets everything through except window titles. A
candidate title is held until its terminator proves it to be one; whatever else happens to it, it
is released in the order it arrived, so that a file transfer comes through unharmed.
-/

namespace EthernetGateway.Terminal

/-- `OSC_TITLE_MAX`. -/
abbrev oscTitleMax : Nat := 256

/-- The byte that after an escape byte starts an operating system command. -/
abbrev oscIntroducer : UInt8 := 0x5D

/-- `GatewayFilter`: what the client's terminal wants done to the remote's output. -/
inductive GatewayFilter where
  /-- Nothing. -/
  | raw
  /-- Everything translated for a Commodore. -/
  | petscii
  /-- Window titles dropped. -/
  | ansi
  /-- Escape sequences stripped. -/
  | ascii
  deriving DecidableEq

/-- The parser phase of `GatewayOutState::state`. -/
inductive GatewayPhase where
  /-- Ordinary output. -/
  | normal
  /-- An escape byte was read. -/
  | escape
  /-- Inside a control sequence. -/
  | csi
  /-- Inside a string sequence. -/
  | string
  /-- An escape byte was read inside a string sequence. -/
  | stringEscape
  /-- Weighing a candidate title. -/
  | weighing
  /-- An escape byte was read while weighing one. -/
  | weighingEscape
  deriving DecidableEq

/-- `GatewayOutState`. -/
structure GatewayOutState where
  /-- What the client's terminal wants. -/
  mode : GatewayFilter
  /-- Where the parser is. -/
  state : GatewayPhase
  /-- Bytes consumed inside the current string sequence. -/
  swallowed : Nat
  /-- The candidate title so far. -/
  held : List UInt8
  /-- The parsers of the PETSCII path. -/
  petscii : Petscii
  deriving DecidableEq

/-- A printable ASCII byte. -/
def isPrintable (byte : UInt8) : Bool := 0x20 ≤ byte && byte ≤ 0x7E

namespace GatewayOutState

/-- `GatewayOutState::new`. -/
def new (mode : GatewayFilter) : GatewayOutState := ⟨mode, .normal, 0, [], .new⟩

/-- `has_pending`. -/
def hasPending (st : GatewayOutState) : Bool :=
  st.mode = .ansi && (st.held ≠ [] || st.state = .escape)

/-- What `flush_pending` releases. -/
def pending (st : GatewayOutState) : List UInt8 :=
  if st.hasPending then
    if st.state = .weighingEscape then st.held ++ [esc]
    else if st.held ≠ [] then st.held
    else if st.state = .escape then [esc]
    else []
  else []

/-- `flush_pending`: the state after it. -/
def flushPending (st : GatewayOutState) : GatewayOutState :=
  if st.hasPending then { st with held := [], state := .normal } else st

/-- `is_title`: whether a candidate begins as the window-title codes do. -/
def isTitle (held : List UInt8) : Bool :=
  match held with
  | _ :: _ :: code :: separator :: _ =>
    (code = 0x30 || code = 0x31 || code = 0x32) && separator = 0x3B
  | _ => false

/-- The loop body of `filter_gateway_output` in the phases both kinds of terminal know. -/
def filterByte (st : GatewayOutState) (b : UInt8) : GatewayOutState × List UInt8 :=
  let stripAll := st.mode ≠ .ansi
  match st.state with
  | .normal => if b = esc then ({ st with state := .escape }, []) else (st, [b])
  | .escape =>
    if b = oscIntroducer ∧ ¬ stripAll then
      ({ st with held := [esc, oscIntroducer], state := .weighing }, [])
    else if AnsiToPetscii.isStringIntroducer b ∧ stripAll then ({ st with state := .string }, [])
    else if b = esc then ({ st with state := .escape }, if stripAll then [] else [esc])
    else if stripAll then
      ({ st with state := if b = csiIntroducer then .csi else .normal }, [])
    else ({ st with state := .normal }, [esc, b])
  | .csi =>
    if AnsiToPetscii.isFinal b then ({ st with state := .normal }, [])
    else if b = esc then ({ st with state := .escape }, [])
    else if b < 0x20 ∨ b = 0x7F then ({ st with state := .normal }, [])
    else (st, [])
  | .string =>
    let swallowed := st.swallowed + 1
    if b = bel then ({ st with state := .normal, swallowed := 0 }, [])
    else if b = esc then ({ st with state := .stringEscape, swallowed }, [])
    else if stringSeqCap ≤ swallowed then ({ st with state := .normal, swallowed := 0 }, [])
    else ({ st with swallowed }, [])
  | .stringEscape =>
    if b = backslash then ({ st with state := .normal, swallowed := 0 }, [])
    else ({ st with state := .string }, [])
  | .weighing =>
    if b = bel then
      ({ st with held := [], state := .normal }, if isTitle st.held then [] else st.held ++ [b])
    else if b = esc then ({ st with state := .weighingEscape }, [])
    else if ¬ isPrintable b ∨ oscTitleMax ≤ st.held.length then
      ({ st with held := [], state := .normal }, st.held ++ [b])
    else ({ st with held := st.held ++ [b] }, [])
  | .weighingEscape =>
    if b = backslash then
      ({ st with held := [], state := .normal },
        if isTitle st.held then [] else st.held ++ [esc, backslash])
    else if b = oscIntroducer then
      ({ st with held := [esc, oscIntroducer], state := .weighing }, st.held)
    else if b = esc then ({ st with held := [], state := .escape }, st.held ++ [esc])
    else ({ st with held := [], state := .normal }, st.held ++ [esc, b])

/-- The loop of `filter_gateway_output`. -/
def filterLoop (st : GatewayOutState) : List UInt8 → GatewayOutState × List UInt8
  | [] => (st, [])
  | b :: input =>
    let first := st.filterByte b
    let rest := first.1.filterLoop input
    (rest.1, first.2 ++ rest.2)

/-- `filter_gateway_output`. -/
def filterGatewayOutput (st : GatewayOutState) (input : List UInt8) :
    GatewayOutState × List UInt8 :=
  if st.mode = .raw then (st, input)
  else if st.mode = .petscii then
    ({ st with petscii := (st.petscii.feed input).1 }, (st.petscii.feed input).2)
  else st.filterLoop input

/-- One read after the other. -/
def filterReads (st : GatewayOutState) : List (List UInt8) → GatewayOutState × List UInt8
  | [] => (st, [])
  | input :: reads =>
    let first := st.filterGatewayOutput input
    let rest := first.1.filterReads reads
    (rest.1, first.2 ++ rest.2)

/-- The stream filtered in two runs. -/
theorem filterLoop_append (st : GatewayOutState) (first second : List UInt8) :
    st.filterLoop (first ++ second) =
      (((st.filterLoop first).1.filterLoop second).1,
        (st.filterLoop first).2 ++ ((st.filterLoop first).1.filterLoop second).2) := by
  induction first generalizing st with
  | nil => rfl
  | cons b first ih => simp only [List.cons_append, filterLoop, ih, List.append_assoc]

/-- A byte leaves the client's terminal as it is. -/
@[simp] theorem filterByte_mode (st : GatewayOutState) (b : UInt8) :
    (st.filterByte b).1.mode = st.mode := by
  simp only [filterByte]
  cases st.state <;> dsimp only <;> split_ifs <;> rfl

/-- A run leaves the client's terminal as it is. -/
@[simp] theorem filterLoop_mode (st : GatewayOutState) (input : List UInt8) :
    (st.filterLoop input).1.mode = st.mode := by
  induction input generalizing st with
  | nil => rfl
  | cons b input ih => rw [filterLoop, ih, filterByte_mode]

/-- Where a stream is cut into reads makes no difference to a terminal that is filtered byte by
byte. -/
theorem filterReads_flatten {st : GatewayOutState} (reads : List (List UInt8))
    (filtered : st.mode = .ansi ∨ st.mode = .ascii) :
    st.filterReads reads = st.filterLoop reads.flatten := by
  induction reads generalizing st with
  | nil => rfl
  | cons input reads ih =>
    have loop : st.filterGatewayOutput input = st.filterLoop input := by
      cases filtered with
      | inl ansi => simp [filterGatewayOutput, ansi]
      | inr ascii => simp [filterGatewayOutput, ascii]
    have rest := @ih (st.filterLoop input).1 (by simpa using filtered)
    rw [filterReads, loop, rest, List.flatten_cons, filterLoop_append]

end GatewayOutState

end EthernetGateway.Terminal
