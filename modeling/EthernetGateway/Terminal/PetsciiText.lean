import EthernetGateway.Terminal.AnsiToPetscii

/-!
# Host text on its way to a Commodore

`PetsciiPunctState` folds the punctuation of UTF-8 text and holds the bytes of a character until it
is complete; `PetsciiText` then swaps the case of what it lets through. `feedPetscii` runs both
parsers over one stream and shows what is held before an escape sequence starts.
-/

namespace EthernetGateway.Terminal

/-- `translate_ascii_to_petscii_byte`. -/
def translateAsciiToPetsciiByte (byte : UInt8) : UInt8 :=
  if 0x41 ≤ byte ∧ byte ≤ 0x5A then byte + 32
  else if 0x61 ≤ byte ∧ byte ≤ 0x7A then byte - 32
  else if byte = 0x08 ∨ byte = 0x7F then 0x9D
  else byte

/-- `PetsciiPunctState`. -/
inductive PunctState where
  /-- Between characters. -/
  | normal
  /-- The lead byte `E2` was read. -/
  | sawE2
  /-- `E2 80` was read. -/
  | sawE280
  /-- The bytes of a longer character so far, and how many there will be. -/
  | multi (held : List UInt8) (want : Nat)
  deriving DecidableEq

/-- `is_continuation`. -/
def isContinuation (byte : UInt8) : Bool := 0x80 ≤ byte && byte ≤ 0xBF

/-- `push_high_byte`: a held byte as a lone high byte is shown. -/
def pushHighByte (byte : UInt8) : List UInt8 :=
  if 0x80 ≤ byte ∧ byte ≤ 0x9F then [] else [0x3F]

namespace PunctState

/-- What `PetsciiPunctState::flush` shows of a held character. -/
def flush : PunctState → List UInt8
  | normal => []
  | sawE2 => [0x3F]
  | sawE280 => [0x3F]
  | multi held _ => held.flatMap pushHighByte

/-- `PetsciiPunctState::feed_ground`. -/
def feedGround (byte : UInt8) : PunctState × List UInt8 :=
  if byte = 0xE2 then (sawE2, [])
  else if byte = 0x60 then (normal, [0x27])
  else if byte = 0x7E then (normal, [0x2D])
  else if 0x80 ≤ byte ∧ byte ≤ 0x9F then (normal, [])
  else if 0xE0 ≤ byte ∧ byte ≤ 0xEF then (multi [byte] 3, [])
  else if 0xF0 ≤ byte ∧ byte ≤ 0xF4 then (multi [byte] 4, [])
  else if 0xA0 ≤ byte then (normal, [0x3F])
  else (normal, [byte])

/-- The replacement of the last byte of a character that starts with `E2 80`, nothing for a byte
that cannot continue it. -/
def foldPunctuation (byte : UInt8) : Option (List UInt8) :=
  if byte = 0x98 ∨ byte = 0x99 then some [0x27]
  else if byte = 0x9C ∨ byte = 0x9D then some [0x22]
  else if byte = 0x93 ∨ byte = 0x94 then some [0x2D]
  else if byte = 0xA6 then some [0x2E, 0x2E, 0x2E]
  else if isContinuation byte then some [0x3F]
  else none

/-- A byte that cannot continue the held character: what is held is shown, the byte read afresh. -/
def afresh (state : PunctState) (byte : UInt8) : PunctState × List UInt8 :=
  ((feedGround byte).1, state.flush ++ (feedGround byte).2)

/-- `PetsciiPunctState::feed`. -/
def feed (state : PunctState) (byte : UInt8) : PunctState × List UInt8 :=
  match state with
  | normal => feedGround byte
  | sawE2 =>
    if byte = 0x80 then (sawE280, [])
    else if isContinuation byte then (multi [0xE2, byte] 3, [])
    else afresh sawE2 byte
  | sawE280 =>
    match foldPunctuation byte with
    | some shown => (normal, shown)
    | none => afresh sawE280 byte
  | multi held want =>
    if isContinuation byte then
      if held.length + 1 = want then (normal, [0x3F]) else (multi (held ++ [byte]) want, [])
    else afresh (multi held want) byte

end PunctState

/-- `PetsciiText::feed`. -/
def feedText (state : PunctState) (byte : UInt8) : PunctState × List UInt8 :=
  ((state.feed byte).1, (state.feed byte).2.map translateAsciiToPetsciiByte)

/-- `PetsciiText::flush_held`. -/
def flushHeld (state : PunctState) : List UInt8 := state.flush.map translateAsciiToPetsciiByte

/-- The two parsers a host's output to a Commodore goes through. -/
structure Petscii where
  /-- The escape sequences. -/
  ansi : AnsiToPetscii
  /-- The text. -/
  text : PunctState
  deriving DecidableEq

namespace Petscii

/-- Both parsers afresh. -/
def new : Petscii := ⟨.new, .normal⟩

/-- What the callback and the control bytes of `AnsiToPetscii::feed` put out, in order. -/
def put (text : PunctState) : List Shown → PunctState × List UInt8
  | [] => (text, [])
  | .text byte :: rest =>
    ((put (feedText text byte).1 rest).1, (feedText text byte).2 ++ (put (feedText text byte).1 rest).2)
  | .control byte :: rest => ((put text rest).1, byte :: (put text rest).2)

/-- The loop body of `feed_petscii`. -/
def feedByte (parsers : Petscii) (byte : UInt8) : Petscii × List UInt8 :=
  let starts := byte = esc ∧ parsers.ansi.state = .text
  let held := if starts then flushHeld parsers.text else []
  let text := if starts then .normal else parsers.text
  let fed := parsers.ansi.feed byte
  let out := put text fed.2
  (⟨fed.1, out.1⟩, held ++ out.2)

/-- `feed_petscii`. -/
def feed (parsers : Petscii) : List UInt8 → Petscii × List UInt8
  | [] => (parsers, [])
  | byte :: input =>
    let first := parsers.feedByte byte
    let rest := first.1.feed input
    (rest.1, first.2 ++ rest.2)

/-- One read after the other. -/
def feedReads (parsers : Petscii) : List (List UInt8) → Petscii × List UInt8
  | [] => (parsers, [])
  | input :: reads =>
    let first := parsers.feed input
    let rest := first.1.feedReads reads
    (rest.1, first.2 ++ rest.2)

/-- The stream fed in two runs. -/
theorem feed_append (parsers : Petscii) (first second : List UInt8) :
    parsers.feed (first ++ second) =
      (((parsers.feed first).1.feed second).1,
        (parsers.feed first).2 ++ ((parsers.feed first).1.feed second).2) := by
  induction first generalizing parsers with
  | nil => rfl
  | cons byte first ih => simp only [List.cons_append, feed, ih, List.append_assoc]

/-- Where a stream is cut into reads makes no difference. -/
theorem feedReads_flatten (parsers : Petscii) (reads : List (List UInt8)) :
    parsers.feedReads reads = parsers.feed reads.flatten := by
  induction reads generalizing parsers with
  | nil => rfl
  | cons input reads ih => rw [feedReads, List.flatten_cons, feed_append, ih]

end Petscii

end EthernetGateway.Terminal
