import EthernetGateway.Telnet.Readers

/-!
# The byte layer of a transfer

A transfer on a telnet connection writes its bytes with every `IAC` doubled, and reads bytes with the
telnet commands between them taken out. The stream comes in reads of any length; a byte is taken
from the first that has one.
-/

namespace EthernetGateway.Transfer

open EthernetGateway.Telnet

/-- What is to be read, in the pieces it comes in. -/
abbrev Stream : Type := List (List UInt8)

/-- `PEER_CLOSED_ERR`: the error of a read past the end. -/
def peerClosedError : String := "connection closed by the peer"

/-- `read_exact` of one byte. -/
def Stream.readExact : Stream → Except String (UInt8 × Stream)
  | [] => .error peerClosedError
  | [] :: reads => Stream.readExact reads
  | (b :: piece) :: reads => .ok (b, piece :: reads)

/-- A byte that was read came first. -/
theorem readExact_flatten {stream rest : Stream} {b : UInt8}
    (read : stream.readExact = .ok (b, rest)) : stream.flatten = b :: rest.flatten := by
  induction stream with
  | nil => cases read
  | cons piece reads ih =>
    cases piece with
    | nil => exact ih read
    | cons c piece =>
      cases read
      rfl

/-- The drain of a subnegotiation, up to its `IAC SE`. -/
def Stream.drainSub (stream : Stream) : Except String Stream :=
  match _first : stream.readExact with
  | .error error => .error error
  | .ok (b, rest) =>
    if b = iac then
      match _second : rest.readExact with
      | .error error => .error error
      | .ok (c, rest) => if c = se then .ok rest else rest.drainSub
    else rest.drainSub
termination_by stream.flatten.length
decreasing_by
  · rw [readExact_flatten _first, readExact_flatten _second]
    simp only [List.length_cons]
    omega
  · rw [readExact_flatten _first]
    exact Nat.lt_succ_self _

/-- `consume_telnet_command`. -/
def Stream.consumeTelnetCommand (stream : Stream) (command : UInt8) : Except String Stream :=
  if command = sb then stream.drainSub
  else
    match Verb.ofByte command with
    | some _ => stream.readExact.map Prod.snd
    | none => .ok stream

/-- Draining a subnegotiation leaves no more than there was. -/
theorem drainSub_length {stream rest : Stream} (drained : stream.drainSub = .ok rest) :
    rest.flatten.length ≤ stream.flatten.length := by
  induction size : stream.flatten.length using Nat.strong_induction_on generalizing stream with
  | _ size ih =>
    rw [Stream.drainSub] at drained
    split at drained
    · cases drained
    next b middle first =>
      have less := congrArg List.length (readExact_flatten first)
      rw [List.length_cons] at less
      split at drained
      · split at drained
        · cases drained
        next c last second =>
          have less' := congrArg List.length (readExact_flatten second)
          rw [List.length_cons] at less'
          split at drained
          · cases drained
            omega
          · have := ih _ (by omega) drained rfl
            omega
      · have := ih _ (by omega) drained rfl
        omega

/-- So does a command. -/
theorem consume_length {stream rest : Stream} {command : UInt8}
    (consumed : stream.consumeTelnetCommand command = .ok rest) :
    rest.flatten.length ≤ stream.flatten.length := by
  unfold Stream.consumeTelnetCommand at consumed
  split at consumed
  · exact drainSub_length consumed
  · split at consumed
    · cases read : stream.readExact with
      | error error =>
        rw [read] at consumed
        cases consumed
      | ok found =>
        rw [read] at consumed
        cases consumed
        rw [readExact_flatten read]
        exact Nat.le_succ _
    · cases consumed
      exact Nat.le_refl _

/-- `raw_read_byte`. -/
def Stream.rawReadByte (isTcp : Bool) (stream : Stream) : Except String (UInt8 × Stream) :=
  match _first : stream.readExact with
  | .error error => .error error
  | .ok (b, rest) =>
    if isTcp ∧ b = iac then
      match _second : rest.readExact with
      | .error error => .error error
      | .ok (command, rest) =>
        if command = iac then .ok (iac, rest)
        else
          match _consumed : rest.consumeTelnetCommand command with
          | .error error => .error error
          | .ok rest => rest.rawReadByte isTcp
    else .ok (b, rest)
termination_by stream.flatten.length
decreasing_by
  have less := consume_length _consumed
  rw [readExact_flatten _first, readExact_flatten _second]
  simp only [List.length_cons]
  omega

/-- `raw_write_bytes`: what goes out. -/
def rawWriteBytes (data : List UInt8) (isTcp : Bool) : List UInt8 :=
  if isTcp then escape data else data

/-- A byte that was read leaves less than there was. -/
theorem rawReadByte_length {isTcp : Bool} {stream rest : Stream} {b : UInt8}
    (read : stream.rawReadByte isTcp = .ok (b, rest)) :
    rest.flatten.length < stream.flatten.length := by
  induction size : stream.flatten.length using Nat.strong_induction_on generalizing stream with
  | _ size ih =>
    rw [Stream.rawReadByte] at read
    split at read
    · cases read
    next c middle first =>
      have less := congrArg List.length (readExact_flatten first)
      rw [List.length_cons] at less
      split at read
      · split at read
        · cases read
        next command last second =>
          have less' := congrArg List.length (readExact_flatten second)
          rw [List.length_cons] at less'
          split at read
          · cases read
            omega
          · split at read
            · cases read
            next after consumed =>
              have := consume_length consumed
              have := ih _ (by omega) read rfl
              omega
      · cases read
        omega

/-- Successive reads, until one fails: the bytes they give, and the error. -/
def Stream.readAll (isTcp : Bool) (stream : Stream) : List UInt8 × String :=
  match _read : stream.rawReadByte isTcp with
  | .error error => ([], error)
  | .ok (b, rest) => (b :: (rest.readAll isTcp).1, (rest.readAll isTcp).2)
termination_by stream.flatten.length
decreasing_by all_goals exact rawReadByte_length _read

/-! ## Commands between the bytes -/

/-- A complete telnet command. -/
inductive Command where
  /-- A command of two bytes. -/
  | simple (command : UInt8) (other : command ≠ iac ∧ command ≠ sb ∧ Verb.ofByte command = none)
  /-- An option command. -/
  | option (verb : Verb) (opt : UInt8)
  /-- A subnegotiation, with every `IAC` of its body doubled or before a byte without meaning. -/
  | sub (items : List SubItem)

/-- The bytes of a command. -/
def Command.bytes : Command → List UInt8
  | simple command _ => [iac, command]
  | option verb opt => [iac, verb.byte, opt]
  | sub items => [iac, sb] ++ items.flatMap SubItem.bytes ++ [iac, se]

/-- A stream that carries data: its bytes, each escaped, with any commands before, between and after
them. -/
inductive Carries : List UInt8 → List UInt8 → Prop where
  | done : Carries [] []
  | byte {data stream : List UInt8} (b : UInt8) (rest : Carries data stream) :
      Carries (b :: data) (escape [b] ++ stream)
  | command {data stream : List UInt8} (command : Command) (rest : Carries data stream) :
      Carries data (command.bytes ++ stream)

/-- What is written carries its data. -/
theorem carries_write (data : List UInt8) : Carries data (rawWriteBytes data true) := by
  induction data with
  | nil => exact .done
  | cons b data ih =>
    have first : rawWriteBytes (b :: data) true = escape [b] ++ rawWriteBytes data true := by
      simp [rawWriteBytes, escape]
    rw [first]
    exact .byte b ih

/-- Two streams after each other carry the data of both. -/
theorem Carries.append {data data' stream stream' : List UInt8} (first : Carries data stream)
    (second : Carries data' stream') : Carries (data ++ data') (stream ++ stream') := by
  induction first with
  | done => exact second
  | byte b _ ih =>
    rw [List.cons_append, List.append_assoc]
    exact .byte b ih
  | command command _ ih =>
    rw [List.append_assoc]
    exact .command command ih

/-- What a writer puts on a connection: data and commands. -/
inductive Output where
  | data (bytes : List UInt8)
  | command (sent : Command)

/-- The bytes of it on a telnet connection. -/
def Output.bytes : Output → List UInt8
  | data bytes => rawWriteBytes bytes true
  | command sent => sent.bytes

/-- The data in it. -/
def Output.content : Output → List UInt8
  | data bytes => bytes
  | command _ => []

/-- Whatever is written carries its data. -/
theorem carries_outputs (outputs : List Output) :
    Carries (outputs.flatMap Output.content) (outputs.flatMap Output.bytes) := by
  induction outputs with
  | nil => exact .done
  | cons output outputs ih =>
    rw [List.flatMap_cons, List.flatMap_cons]
    cases output with
    | data bytes => exact (carries_write bytes).append ih
    | command sent => exact .command sent ih

/-! ## Reading it -/

/-- The first byte of a stream is read, however it is split. -/
theorem readExact_of_flatten {stream : Stream} {b : UInt8} {bytes : List UInt8}
    (is : stream.flatten = b :: bytes) :
    ∃ rest, stream.readExact = .ok (b, rest) ∧ rest.flatten = bytes := by
  induction stream with
  | nil => cases is
  | cons piece reads ih =>
    cases piece with
    | nil => exact ih is
    | cons c piece =>
      rw [List.flatten_cons, List.cons_append, List.cons.injEq] at is
      obtain ⟨rfl, rest⟩ := is
      exact ⟨piece :: reads, rfl, rest⟩

/-- An empty stream fails. -/
theorem readExact_nil {stream : Stream} (is : stream.flatten = []) :
    stream.readExact = .error peerClosedError := by
  induction stream with
  | nil => rfl
  | cons piece reads ih =>
    rw [List.flatten_cons, List.append_eq_nil_iff] at is
    rw [is.1]
    exact ih is.2

/-- A drain after its first byte. -/
theorem drainSub_read {stream rest : Stream} {b : UInt8}
    (first : stream.readExact = .ok (b, rest)) :
    stream.drainSub =
      if b = iac then
        rest.readExact.bind fun found => if found.1 = se then .ok found.2 else found.2.drainSub
      else rest.drainSub := by
  rw [Stream.drainSub]
  split
  next error failed =>
    rw [first] at failed
    cases failed
  next c middle found =>
    rw [first] at found
    cases found
    split
    · split
      next error failed =>
        rw [failed]
        rfl
      next c last second =>
        rw [second]
        rfl
    · rfl

/-- A read after its first byte. -/
theorem rawReadByte_read {stream rest : Stream} {b : UInt8}
    (first : stream.readExact = .ok (b, rest)) :
    stream.rawReadByte true =
      if b = iac then
        rest.readExact.bind fun found =>
          if found.1 = iac then .ok (iac, found.2)
          else (found.2.consumeTelnetCommand found.1).bind fun last => last.rawReadByte true
      else .ok (b, rest) := by
  rw [Stream.rawReadByte]
  split
  next error failed =>
    rw [first] at failed
    cases failed
  next c middle found =>
    rw [first] at found
    cases found
    simp only [true_and]
    split
    · split
      next error failed =>
        rw [failed]
        rfl
      next command last second =>
        rw [second]
        simp only [Except.bind]
        split
        · rfl
        · split
          next error failed => rw [failed]
          next after consumed => rw [consumed]
    · rfl

/-- Successive reads after a byte. -/
theorem readAll_ok {isTcp : Bool} {stream rest : Stream} {b : UInt8}
    (read : stream.rawReadByte isTcp = .ok (b, rest)) :
    stream.readAll isTcp = (b :: (rest.readAll isTcp).1, (rest.readAll isTcp).2) := by
  rw [Stream.readAll]
  split
  next error failed =>
    rw [read] at failed
    cases failed
  next c rest' found =>
    rw [read] at found
    cases found
    rfl

/-- Successive reads that fail at once. -/
theorem readAll_error {isTcp : Bool} {stream : Stream} {error : String}
    (failed : stream.rawReadByte isTcp = .error error) : stream.readAll isTcp = ([], error) := by
  rw [Stream.readAll]
  split
  next error' failed' =>
    rw [failed] at failed'
    cases failed'
    rfl
  next c rest found =>
    rw [failed] at found
    cases found

/-- Successive reads depend on the next one alone. -/
theorem readAll_congr {stream other : Stream}
    (same : stream.rawReadByte true = other.rawReadByte true) :
    stream.readAll true = other.readAll true := by
  cases read : other.rawReadByte true with
  | error error => rw [readAll_error read, readAll_error (same.trans read)]
  | ok found => rw [readAll_ok read, readAll_ok (same.trans read)]

/-- A byte of a body is drained. -/
theorem drainSub_plain {stream : Stream} {b : UInt8} {bytes : List UInt8} (plain : b ≠ iac)
    (is : stream.flatten = b :: bytes) :
    ∃ rest : Stream, stream.drainSub = rest.drainSub ∧ rest.flatten = bytes := by
  obtain ⟨rest, first, flat⟩ := readExact_of_flatten is
  exact ⟨rest, by rw [drainSub_read first, if_neg plain], flat⟩

/-- An `IAC` is drained with the byte after it, which may end the body. -/
theorem drainSub_pair {stream : Stream} {b : UInt8} {bytes : List UInt8}
    (is : stream.flatten = iac :: b :: bytes) :
    ∃ rest : Stream, stream.drainSub = (if b = se then .ok rest else rest.drainSub) ∧
      rest.flatten = bytes := by
  obtain ⟨middle, first, flat⟩ := readExact_of_flatten is
  obtain ⟨rest, second, flat'⟩ := readExact_of_flatten flat
  refine ⟨rest, ?_, flat'⟩
  rw [drainSub_read first, if_pos rfl, second]
  rfl

/-- A whole body is drained up to its end. -/
theorem drainSub_items (items : List SubItem) {stream : Stream} {bytes : List UInt8}
    (is : stream.flatten = items.flatMap SubItem.bytes ++ iac :: se :: bytes) :
    ∃ rest : Stream, stream.drainSub = .ok rest ∧ rest.flatten = bytes := by
  induction items generalizing stream with
  | nil =>
    obtain ⟨rest, drained, flat⟩ := drainSub_pair is
    exact ⟨rest, drained.trans (if_pos rfl), flat⟩
  | cons item items ih =>
    rw [List.flatMap_cons, List.append_assoc] at is
    have step : ∃ rest : Stream, stream.drainSub = rest.drainSub ∧
        rest.flatten = items.flatMap SubItem.bytes ++ iac :: se :: bytes := by
      cases item with
      | plain b other => exact drainSub_plain other is
      | escaped =>
        obtain ⟨rest, drained, flat⟩ := drainSub_pair is
        exact ⟨rest, drained.trans (if_neg (by decide)), flat⟩
      | stray b other =>
        obtain ⟨rest, drained, flat⟩ := drainSub_pair is
        exact ⟨rest, drained.trans (if_neg other.2), flat⟩
    obtain ⟨rest, same, flat⟩ := step
    obtain ⟨after, drained, flat'⟩ := ih flat
    exact ⟨after, same.trans drained, flat'⟩

/-- A command is consumed whole. -/
theorem rawReadByte_command (command : Command) {stream : Stream} {bytes : List UInt8}
    (is : stream.flatten = command.bytes ++ bytes) :
    ∃ rest : Stream, stream.rawReadByte true = rest.rawReadByte true ∧ rest.flatten = bytes := by
  -- the byte after the IAC, and what consuming it leaves
  have consumed {c : UInt8} {after : List UInt8} (start : stream.flatten = iac :: c :: after)
      (other : c ≠ iac)
      (eats : ∀ middle : Stream, middle.flatten = after →
        ∃ rest, middle.consumeTelnetCommand c = .ok rest ∧ rest.flatten = bytes) :
      ∃ rest : Stream, stream.rawReadByte true = rest.rawReadByte true ∧ rest.flatten = bytes := by
    obtain ⟨middle, first, flat⟩ := readExact_of_flatten start
    obtain ⟨last, second, flat'⟩ := readExact_of_flatten flat
    obtain ⟨rest, ate, flat''⟩ := eats last flat'
    refine ⟨rest, ?_, flat''⟩
    rw [rawReadByte_read first, if_pos rfl, second]
    show (if c = iac then _ else (last.consumeTelnetCommand c).bind _) = _
    rw [if_neg other, ate]
    rfl
  cases command with
  | simple c other =>
    refine consumed is other.1 fun middle flat => ⟨middle, ?_, flat⟩
    unfold Stream.consumeTelnetCommand
    rw [if_neg other.2.1, other.2.2]
  | option verb opt =>
    refine consumed is (by cases verb <;> decide) fun middle flat => ?_
    obtain ⟨rest, read, flat'⟩ := readExact_of_flatten flat
    refine ⟨rest, ?_, flat'⟩
    unfold Stream.consumeTelnetCommand
    rw [if_neg (by cases verb <;> decide), Verb.ofByte_byte, read]
    rfl
  | sub items =>
    have start : stream.flatten =
        iac :: sb :: (items.flatMap SubItem.bytes ++ iac :: se :: bytes) := by
      rw [is]
      simp [Command.bytes]
    refine consumed start (by decide) fun middle flat => ?_
    obtain ⟨rest, drained, flat'⟩ := drainSub_items items flat
    refine ⟨rest, ?_, flat'⟩
    unfold Stream.consumeTelnetCommand
    rw [if_pos rfl, drained]

/-- An escaped byte is read. -/
theorem rawReadByte_escaped (b : UInt8) {stream : Stream} {bytes : List UInt8}
    (is : stream.flatten = escape [b] ++ bytes) :
    ∃ rest, stream.rawReadByte true = .ok (b, rest) ∧ rest.flatten = bytes := by
  by_cases doubled : b = iac
  · subst doubled
    obtain ⟨middle, first, flat⟩ := readExact_of_flatten is
    obtain ⟨rest, second, flat'⟩ := readExact_of_flatten flat
    refine ⟨rest, ?_, flat'⟩
    rw [rawReadByte_read first, if_pos rfl, second]
    simp only [Except.bind, if_true]
  · have single : escape [b] = [b] := by simp [escape, doubled]
    rw [single] at is
    obtain ⟨rest, first, flat⟩ := readExact_of_flatten is
    exact ⟨rest, by rw [rawReadByte_read first, if_neg doubled], flat⟩

/-- The data is read back, and then comes the end. -/
theorem readAll_carries {data bytes : List UInt8} (carries : Carries data bytes) (stream : Stream)
    (is : stream.flatten = bytes) : stream.readAll true = (data, peerClosedError) := by
  induction carries generalizing stream with
  | done =>
    refine readAll_error ?_
    rw [Stream.rawReadByte]
    split
    next error failed =>
      rw [readExact_nil is] at failed
      exact failed.symm
    next found =>
      rw [readExact_nil is] at found
      cases found
  | byte b _ ih =>
    obtain ⟨rest, read, flat⟩ := rawReadByte_escaped b is
    rw [readAll_ok read, ih rest flat]
  | command command _ ih =>
    obtain ⟨rest, same, flat⟩ := rawReadByte_command command is
    rw [readAll_congr same, ih rest flat]

/-- Successive reads of a stream that carries data give the data and then its end, however the
stream is split. -/
theorem reads_transparent (data bytes : List UInt8) (carries : Carries data bytes) (stream : Stream)
    (is : stream.flatten = bytes) : stream.readAll true = (data, peerClosedError) :=
  readAll_carries carries stream is

/-- A doubled `IAC` next to a subnegotiation, read one byte at a time. -/
theorem reads_transparent_iac :
    Carries [0xFF, 0x41] ([0xFF, 0xFF] ++ ([0xFF, 0xFA] ++ [0xFF, 0xFF] ++ [0xFF, 0xF0] ++ [0x41])) ∧
      Stream.readAll true [[0xFF], [0xFF], [0xFF], [0xFA, 0xFF], [], [0xFF, 0xFF], [0xF0], [0x41]] =
        ([0xFF, 0x41], peerClosedError) := by
  have carries : Carries [0xFF, 0x41]
      ([0xFF, 0xFF] ++ ([0xFF, 0xFA] ++ [0xFF, 0xFF] ++ [0xFF, 0xF0] ++ [0x41])) :=
    .byte 0xFF (.command (.sub [.escaped]) (.byte 0x41 .done))
  exact ⟨carries, reads_transparent _ _ carries _ rfl⟩

/-- So the data of any writes is read back, whatever commands go out between them. -/
theorem outputs_read_back (outputs : List Output) (stream : Stream)
    (is : stream.flatten = outputs.flatMap Output.bytes) :
    stream.readAll true = (outputs.flatMap Output.content, peerClosedError) :=
  readAll_carries (carries_outputs outputs) stream is

/-- Where the connection is not telnet, a read takes the next byte as it is. -/
theorem rawReadByte_plain (stream : Stream) : stream.rawReadByte false = stream.readExact := by
  rw [Stream.rawReadByte]
  split
  next error failed => rw [failed]
  next b rest first =>
    rw [first, if_neg]
    intro both
    cases both.1

/-- What is written is read back, on either kind of connection. -/
theorem written_read_back (data : List UInt8) (isTcp : Bool) (stream : Stream)
    (is : stream.flatten = rawWriteBytes data isTcp) :
    stream.readAll isTcp = (data, peerClosedError) := by
  cases isTcp with
  | true => exact readAll_carries (carries_write data) stream is
  | false =>
    induction data generalizing stream with
    | nil => exact readAll_error ((rawReadByte_plain stream).trans (readExact_nil is))
    | cons b data ih =>
      obtain ⟨rest, read, flat⟩ := readExact_of_flatten is
      rw [readAll_ok ((rawReadByte_plain stream).trans read), ih rest flat]

end EthernetGateway.Transfer
