import EthernetGateway.Telnet.GatewayIac

/-!
# Two readers of one telnet stream

`InboundTelnet` reads the local user's stream and `GatewayTelnetIac` the remote's. Both deliver the
same data from every stream: the data bytes and the doubled `IAC` between complete commands.
`InboundTelnet` besides reports a window size for each subnegotiation that carries one.
-/

namespace EthernetGateway.Telnet

/-- `InboundState`. -/
inductive InboundState where
  /-- A data byte or the start of a command. -/
  | data
  /-- `IAC` was read. -/
  | iac
  /-- An option verb was read. -/
  | option
  /-- `IAC SB` was read. -/
  | sbOption
  /-- Inside a subnegotiation. -/
  | sb
  /-- `IAC` was read inside a subnegotiation. -/
  | sbIac
  deriving DecidableEq

/-- `InboundTelnet`. -/
structure InboundTelnet where
  /-- Where the reader is. -/
  state : InboundState
  /-- The option of the subnegotiation being read. -/
  opt : UInt8
  /-- Its body so far. -/
  body : List UInt8
  deriving DecidableEq

/-- `Inbound`: one inbound byte's meaning. -/
inductive Inbound where
  /-- A data byte. -/
  | data (byte : UInt8)
  /-- A window size. -/
  | naws (width height : UInt16)
  /-- Part of a command. -/
  | nothing
  deriving DecidableEq

namespace InboundTelnet

/-- `InboundTelnet::default`. -/
def new : InboundTelnet := ⟨.data, 0, []⟩

/-- The window size that a complete subnegotiation reports. -/
def nawsOf (opt : UInt8) (body : List UInt8) : Inbound :=
  match body with
  | [a, b, c, d] => if opt = optNaws then .naws (fromBeBytes a b) (fromBeBytes c d) else .nothing
  | _ => .nothing

/-- `InboundTelnet::feed`. -/
def feed (inbound : InboundTelnet) (b : UInt8) : InboundTelnet × Inbound :=
  match inbound.state with
  | .data => if b = iac then ({ inbound with state := .iac }, .nothing) else (inbound, .data b)
  | .iac =>
    if b = iac then ({ inbound with state := .data }, .data iac)
    else if b = sb then ({ inbound with state := .sbOption }, .nothing)
    else if 0xFB ≤ b ∧ b ≤ 0xFE then ({ inbound with state := .option }, .nothing)
    else ({ inbound with state := .data }, .nothing)
  | .option => ({ inbound with state := .data }, .nothing)
  | .sbOption => ({ inbound with opt := b, body := [], state := .sb }, .nothing)
  | .sb =>
    if b = iac then ({ inbound with state := .sbIac }, .nothing)
    else if inbound.body.length < maxSbBodyBytes then
      ({ inbound with body := inbound.body ++ [b] }, .nothing)
    else (inbound, .nothing)
  | .sbIac =>
    if b = se then ({ inbound with state := .data }, nawsOf inbound.opt inbound.body)
    else if b = iac ∧ inbound.body.length < maxSbBodyBytes then
      ({ inbound with body := inbound.body ++ [iac], state := .sb }, .nothing)
    else ({ inbound with state := .sb }, .nothing)

/-- The reader after a run of bytes. -/
def after (inbound : InboundTelnet) : List UInt8 → InboundTelnet
  | [] => inbound
  | b :: bytes => after (inbound.feed b).1 bytes

/-- The meanings of a run of bytes. -/
def meanings (inbound : InboundTelnet) : List UInt8 → List Inbound
  | [] => []
  | b :: bytes => (inbound.feed b).2 :: meanings (inbound.feed b).1 bytes

end InboundTelnet

/-- The data among meanings. -/
def dataOf (meanings : List Inbound) : List UInt8 :=
  meanings.filterMap fun
    | .data byte => some byte
    | _ => none

/-- The window sizes among meanings. -/
def resizesOf (meanings : List Inbound) : List (UInt16 × UInt16) :=
  meanings.filterMap fun
    | .naws width height => some (width, height)
    | _ => none

@[simp] theorem dataOf_append (first second : List Inbound) :
    dataOf (first ++ second) = dataOf first ++ dataOf second :=
  List.filterMap_append ..

@[simp] theorem resizesOf_append (first second : List Inbound) :
    resizesOf (first ++ second) = resizesOf first ++ resizesOf second :=
  List.filterMap_append ..

@[simp] theorem dataOf_nothing (rest : List Inbound) : dataOf (.nothing :: rest) = dataOf rest :=
  rfl

@[simp] theorem resizesOf_nothing (rest : List Inbound) :
    resizesOf (.nothing :: rest) = resizesOf rest :=
  rfl

/-! ## The two readers in step -/

/-- A verb's byte is one of four in a row. -/
theorem ofByte_range (b : UInt8) : (0xFB ≤ b ∧ b ≤ 0xFE) ↔ (Verb.ofByte b).isSome := by
  have checked : ∀ n < 256, (0xFB ≤ UInt8.ofNat n ∧ UInt8.ofNat n ≤ 0xFE) ↔
      (Verb.ofByte (UInt8.ofNat n)).isSome := by
    decide +kernel
  have whole := checked b.toNat b.toNat_lt
  rwa [UInt8.ofNat_toNat] at whole

/-- The state of one reader where the other's is given. -/
def stateOf : GatewayIacState → InboundState
  | .normal => .data
  | .sawIac => .iac
  | .sawVerb _ => .option
  | .sawSbOption => .sbOption
  | .inSb => .sb
  | .inSbIac => .sbIac

/-- Handling a command leaves the reader where it is. -/
@[simp] theorem handleRecv_state (gateway : GatewayTelnetIac) (verb : Verb) (opt : UInt8) :
    (gateway.handleRecv verb opt).1.state = gateway.state := by
  cases verb <;> rfl

/-- One byte keeps the two readers in step and delivers the same data. -/
theorem feed_together {inbound : InboundTelnet} {gateway : GatewayTelnetIac}
    (together : inbound.state = stateOf gateway.state) (b : UInt8) :
    (inbound.feed b).1.state = stateOf (gateway.feed b).gateway.state ∧
      dataOf [(inbound.feed b).2] = (gateway.feed b).data := by
  simp only [InboundTelnet.feed, together, GatewayTelnetIac.feed]
  cases state : gateway.state with
  | normal =>
    by_cases command : b = iac
    · simp [stateOf, command, dataOf]
    · simp [stateOf, command, dataOf, together, state]
  | sawIac =>
    dsimp only [stateOf]
    by_cases escaped : b = iac
    · simp [escaped, dataOf]
    · rw [if_neg escaped, if_neg escaped]
      by_cases opens : b = sb
      · simp [opens, dataOf]
      · rw [if_neg opens, if_neg opens]
        have range := ofByte_range b
        cases verb : Verb.ofByte b with
        | none =>
          rw [verb] at range
          simp [dataOf, show ¬ (0xFB ≤ b ∧ b ≤ 0xFE) by simpa using range]
        | some verb' =>
          rw [verb] at range
          simp [dataOf, show 0xFB ≤ b ∧ b ≤ 0xFE by simpa using range]
  | sawVerb verb => simp [stateOf, dataOf]
  | sawSbOption => simp [stateOf, dataOf]
  | inSb =>
    dsimp only [stateOf]
    by_cases escaped : b = iac
    · simp [escaped, dataOf]
    · rw [if_neg escaped, if_neg escaped]
      split_ifs <;> simp [dataOf, together, state, stateOf]
  | inSbIac =>
    dsimp only [stateOf]
    by_cases ended : b = se
    · rw [if_pos ended, if_pos ended]
      simp only [InboundTelnet.nawsOf]
      split
      · split_ifs <;> simp [dataOf]
      · simp [dataOf]
    · rw [if_neg ended, if_neg ended]
      by_cases escaped : b = iac
      · rw [if_pos escaped]
        split_ifs <;> simp [dataOf]
      · rw [if_neg escaped, if_neg (fun both => escaped both.1)]
        simp [dataOf]

/-- Two readers in step deliver the same data from every stream. -/
theorem data_together {inbound : InboundTelnet} {gateway : GatewayTelnetIac}
    (together : inbound.state = stateOf gateway.state) (stream : List UInt8) :
    dataOf (inbound.meanings stream) = gateway.data stream := by
  induction stream generalizing inbound gateway with
  | nil => rfl
  | cons b stream ih =>
    have step := feed_together together b
    rw [InboundTelnet.meanings, GatewayTelnetIac.data, ← step.2, ← ih step.1]
    exact dataOf_append [_] _

/-! ## Complete commands -/

/-- A part of a subnegotiation's body. -/
inductive SubItem where
  /-- A byte. -/
  | plain (byte : UInt8) (other : byte ≠ iac)
  /-- A doubled `IAC`. -/
  | escaped
  /-- An `IAC` before a byte that gives it no meaning. -/
  | stray (byte : UInt8) (other : byte ≠ iac ∧ byte ≠ se)

namespace SubItem

/-- The bytes of a part. -/
def bytes : SubItem → List UInt8
  | plain byte _ => [byte]
  | escaped => [iac, iac]
  | stray byte _ => [iac, byte]

/-- What a part adds to the body. -/
def kept : SubItem → List UInt8
  | plain byte _ => [byte]
  | escaped => [iac]
  | stray _ _ => []

end SubItem

/-- A unit of a telnet stream: a data byte or a complete command. -/
inductive TelnetUnit where
  /-- A data byte. -/
  | data (byte : UInt8) (plain : byte ≠ iac)
  /-- A doubled `IAC`. -/
  | escaped
  /-- A command of two bytes. -/
  | simple (command : UInt8) (other : command ≠ iac ∧ command ≠ sb ∧ Verb.ofByte command = none)
  /-- An option command. -/
  | option (verb : Verb) (opt : UInt8)
  /-- A subnegotiation. -/
  | sub (opt : UInt8) (items : List SubItem)

namespace TelnetUnit

/-- The bytes of a unit. -/
def bytes : TelnetUnit → List UInt8
  | data byte _ => [byte]
  | escaped => [iac, iac]
  | simple command _ => [iac, command]
  | option verb opt => [iac, verb.byte, opt]
  | sub opt items => [iac, sb, opt] ++ items.flatMap SubItem.bytes ++ [iac, se]

/-- The data a unit carries. -/
def carried : TelnetUnit → List UInt8
  | data byte _ => [byte]
  | escaped => [iac]
  | _ => []

/-- Whether a unit is data. -/
def isData : TelnetUnit → Bool
  | data .. => true
  | escaped => true
  | _ => false

/-- The window size a unit carries: four body bytes for the window-size option. -/
def resize : TelnetUnit → Option (UInt16 × UInt16)
  | sub opt items =>
    match items.flatMap SubItem.kept with
    | [a, b, c, d] => if opt = optNaws then some (fromBeBytes a b, fromBeBytes c d) else none
    | _ => none
  | _ => none

/-- The data units of a stream are its data, escaped. -/
theorem writeTelnetData_carried (units : List TelnetUnit) :
    writeTelnetData (units.flatMap carried) = (units.filter isData).flatMap bytes := by
  induction units with
  | nil => rfl
  | cons unit units ih =>
    have split : writeTelnetData ((unit :: units).flatMap carried) =
        writeTelnetData unit.carried ++ writeTelnetData (units.flatMap carried) := by
      simp [writeTelnetData, escape]
    rw [split, ih]
    cases unit with
    | data byte plain =>
      rw [List.filter_cons_of_pos rfl, List.flatMap_cons]
      simp [carried, bytes, writeTelnetData, escape, plain]
    | escaped =>
      rw [List.filter_cons_of_pos rfl, List.flatMap_cons]
      simp [carried, bytes, writeTelnetData, escape]
    | simple => simp [carried, isData, writeTelnetData, escape]
    | option => simp [carried, isData, writeTelnetData, escape]
    | sub => simp [carried, isData, writeTelnetData, escape]

end TelnetUnit

/-- The beginning of a command that is not complete. -/
inductive Incomplete : List UInt8 → Prop where
  /-- Nothing. -/
  | nil : Incomplete []
  /-- An `IAC`. -/
  | iac : Incomplete [iac]
  /-- An option verb. -/
  | verb (verb : Verb) : Incomplete [iac, verb.byte]
  /-- The start of a subnegotiation. -/
  | sb : Incomplete [iac, sb]
  /-- A subnegotiation without its end. -/
  | body (opt : UInt8) (items : List SubItem) :
      Incomplete ([iac, sb, opt] ++ items.flatMap SubItem.bytes)
  /-- A subnegotiation without the last byte of its end. -/
  | bodyIac (opt : UInt8) (items : List SubItem) :
      Incomplete ([iac, sb, opt] ++ items.flatMap SubItem.bytes ++ [iac])

/-- Every stream is a run of complete units and an incomplete command. -/
theorem units_of_stream (stream : List UInt8) :
    ∃ (units : List TelnetUnit) (tail : List UInt8),
      Incomplete tail ∧ stream = units.flatMap TelnetUnit.bytes ++ tail := by
  induction stream using List.reverseRecOn with
  | nil => exact ⟨[], [], .nil, rfl⟩
  | append_singleton stream b ih =>
    obtain ⟨units, tail, incomplete, rfl⟩ := ih
    cases incomplete with
    | nil =>
      by_cases command : b = iac
      · exact ⟨units, [iac], .iac, by simp [command]⟩
      · exact ⟨units ++ [.data b command], [], .nil, by simp [TelnetUnit.bytes]⟩
    | iac =>
      by_cases escaped : b = iac
      · exact ⟨units ++ [.escaped], [], .nil, by simp [TelnetUnit.bytes, escaped]⟩
      · by_cases opens : b = sb
        · exact ⟨units, [iac, sb], .sb, by simp [opens]⟩
        · cases read : Verb.ofByte b with
          | none =>
            exact ⟨units ++ [.simple b ⟨escaped, opens, read⟩], [], .nil,
              by simp [TelnetUnit.bytes]⟩
          | some verb =>
            exact ⟨units, [iac, verb.byte], .verb verb, by simp [Verb.byte_of_ofByte read]⟩
    | verb verb => exact ⟨units ++ [.option verb b], [], .nil, by simp [TelnetUnit.bytes]⟩
    | sb => exact ⟨units, _, .body b [], by simp⟩
    | body opt items =>
      by_cases command : b = iac
      · exact ⟨units, _, .bodyIac opt items, by simp [command]⟩
      · exact ⟨units, _, .body opt (items ++ [.plain b command]), by simp [SubItem.bytes]⟩
    | bodyIac opt items =>
      by_cases ended : b = se
      · exact ⟨units ++ [.sub opt items], [], .nil, by simp [TelnetUnit.bytes, ended]⟩
      · by_cases escaped : b = iac
        · exact ⟨units, _, .body opt (items ++ [.escaped]), by simp [SubItem.bytes, escaped]⟩
        · exact ⟨units, _, .body opt (items ++ [.stray b ⟨escaped, ended⟩]),
            by simp [SubItem.bytes]⟩

/-! ## What a unit means -/

namespace InboundTelnet

@[simp] theorem after_append (inbound : InboundTelnet) (first second : List UInt8) :
    inbound.after (first ++ second) = (inbound.after first).after second := by
  induction first generalizing inbound with
  | nil => rfl
  | cons b first ih => exact ih (inbound.feed b).1

@[simp] theorem meanings_append (inbound : InboundTelnet) (first second : List UInt8) :
    inbound.meanings (first ++ second) =
      inbound.meanings first ++ (inbound.after first).meanings second := by
  induction first generalizing inbound with
  | nil => rfl
  | cons b first ih => simp only [List.cons_append, meanings, after, ih]

/-- A body byte is kept while there is room. -/
theorem feed_body {inbound : InboundTelnet} {byte : UInt8} (inside : inbound.state = .sb)
    (other : byte ≠ iac) :
    inbound.feed byte =
      ({ inbound with body := if inbound.body.length < maxSbBodyBytes then inbound.body ++ [byte]
          else inbound.body }, .nothing) := by
  simp only [feed, inside, if_neg other]
  split_ifs
  · rfl
  · rw [← inside]

/-- What a body becomes when a byte is added to it up to the cap. -/
theorem capped_append (body : List UInt8) (byte : UInt8) :
    (if (body.take maxSbBodyBytes).length < maxSbBodyBytes then
      body.take maxSbBodyBytes ++ [byte] else body.take maxSbBodyBytes) =
      (body ++ [byte]).take maxSbBodyBytes := by
  simp only [List.length_take]
  split_ifs with room
  · have short : body.length < maxSbBodyBytes := by omega
    rw [List.take_of_length_le (by omega), List.take_of_length_le (by simp; omega)]
  · have full : maxSbBodyBytes ≤ body.length := by omega
    rw [List.take_append_of_le_length full]

/-- An `IAC` inside a subnegotiation. -/
theorem feed_body_iac {inbound : InboundTelnet} (inside : inbound.state = .sb) :
    inbound.feed iac = ({ inbound with state := .sbIac }, .nothing) := by
  simp [feed, inside]

/-- A doubled `IAC` inside a subnegotiation is kept while there is room. -/
theorem feed_body_escaped {inbound : InboundTelnet} (inside : inbound.state = .sbIac) :
    inbound.feed iac =
      ({ inbound with
          body := if inbound.body.length < maxSbBodyBytes then inbound.body ++ [iac]
            else inbound.body
          state := .sb }, .nothing) := by
  have other : iac ≠ se := by decide
  simp only [feed, inside, if_neg other, true_and]
  split_ifs <;> rfl

/-- A part of a body is kept up to the cap and means nothing. -/
theorem feed_item {inbound : InboundTelnet} {body : List UInt8} (inside : inbound.state = .sb)
    (held : inbound.body = body.take maxSbBodyBytes) (item : SubItem) :
    inbound.after item.bytes =
        { inbound with body := (body ++ item.kept).take maxSbBodyBytes } ∧
      dataOf (inbound.meanings item.bytes) = [] ∧ resizesOf (inbound.meanings item.bytes) = [] := by
  cases item with
  | plain byte other =>
    have fed := feed_body inside other
    rw [held, capped_append] at fed
    simp [SubItem.bytes, SubItem.kept, after, meanings, fed, dataOf, resizesOf]
  | escaped =>
    have first := feed_body_iac inside
    have second : ({ inbound with state := .sbIac } : InboundTelnet).feed iac =
        ({ inbound with body := (body ++ [iac]).take maxSbBodyBytes, state := .sb }, .nothing) := by
      rw [feed_body_escaped rfl]
      simp only [held, capped_append]
    simp only [SubItem.bytes, SubItem.kept, after, meanings, first, second]
    exact ⟨by rw [inside], rfl, rfl⟩
  | stray byte other =>
    have first := feed_body_iac inside
    have second : ({ inbound with state := .sbIac } : InboundTelnet).feed byte =
        (inbound, .nothing) := by
      simp [feed, other, ← inside]
    simp only [SubItem.bytes, SubItem.kept, after, meanings, first, second, List.append_nil]
    exact ⟨by rw [← held], rfl, rfl⟩

/-- A body is kept up to the cap and means nothing. -/
theorem feed_items {inbound : InboundTelnet} {body : List UInt8} (inside : inbound.state = .sb)
    (held : inbound.body = body.take maxSbBodyBytes) (items : List SubItem) :
    inbound.after (items.flatMap SubItem.bytes) =
        { inbound with body := (body ++ items.flatMap SubItem.kept).take maxSbBodyBytes } ∧
      dataOf (inbound.meanings (items.flatMap SubItem.bytes)) = [] ∧
      resizesOf (inbound.meanings (items.flatMap SubItem.bytes)) = [] := by
  induction items generalizing inbound body with
  | nil => simp [after, meanings, dataOf, resizesOf, ← held]
  | cons item items ih =>
    have first := feed_item inside held item
    have rest := @ih { inbound with body := (body ++ item.kept).take maxSbBodyBytes } _ inside rfl
    simp only [List.flatMap_cons, after_append, meanings_append, first, rest, List.append_assoc,
      dataOf_append, resizesOf_append, List.append_nil, and_self]

/-- The cap does not make a body of four bytes out of another one. -/
theorem nawsOf_capped (opt : UInt8) (body : List UInt8) :
    nawsOf opt (body.take maxSbBodyBytes) = nawsOf opt body := by
  by_cases short : body.length ≤ maxSbBodyBytes
  · rw [List.take_of_length_le short]
  · have none (long : List UInt8) (many : 4 < long.length) : nawsOf opt long = .nothing := by
      match long, many with
      | _ :: _ :: _ :: _ :: _ :: _, _ => rfl
    have cap : 4 < maxSbBodyBytes := by decide
    rw [none _ (by rw [List.length_take]; omega), none _ (by omega)]

/-- A subnegotiation carries no data. -/
theorem dataOf_nawsOf (opt : UInt8) (body : List UInt8) : dataOf [nawsOf opt body] = [] := by
  simp only [nawsOf]
  split
  · split_ifs <;> rfl
  · rfl

/-- A subnegotiation reports the window size it carries. -/
theorem resizesOf_nawsOf (opt : UInt8) (items : List SubItem) :
    resizesOf [nawsOf opt (items.flatMap SubItem.kept)] =
      (TelnetUnit.sub opt items).resize.toList := by
  simp only [nawsOf, TelnetUnit.resize]
  split
  · split_ifs <;> rfl
  · rfl

/-- A unit is delivered as its data and its window size, and the reader is between units again. -/
theorem feed_unit {inbound : InboundTelnet} (between : inbound.state = .data)
    (unit : TelnetUnit) :
    (inbound.after unit.bytes).state = .data ∧
      dataOf (inbound.meanings unit.bytes) = unit.carried ∧
      resizesOf (inbound.meanings unit.bytes) = unit.resize.toList := by
  have command : inbound.feed iac = ({ inbound with state := .iac }, .nothing) := by
    simp [feed, between]
  cases unit with
  | data byte plain =>
    have fed : inbound.feed byte = (inbound, .data byte) := by simp [feed, between, plain]
    simp [TelnetUnit.bytes, after, meanings, fed, between, dataOf, resizesOf, TelnetUnit.carried,
      TelnetUnit.resize]
  | escaped =>
    have fed : ({ inbound with state := .iac } : InboundTelnet).feed iac =
        ({ inbound with state := .data }, .data iac) := by simp [feed]
    simp [TelnetUnit.bytes, after, meanings, command, fed, dataOf, resizesOf, TelnetUnit.carried,
      TelnetUnit.resize]
  | simple byte other =>
    have range : ¬ (0xFB ≤ byte ∧ byte ≤ 0xFE) := by
      rw [ofByte_range, other.2.2]
      decide
    have fed : ({ inbound with state := .iac } : InboundTelnet).feed byte =
        ({ inbound with state := .data }, .nothing) := by
      simp only [feed, if_neg other.1, if_neg other.2.1, if_neg range]
    simp [TelnetUnit.bytes, after, meanings, command, fed, dataOf, resizesOf, TelnetUnit.carried,
      TelnetUnit.resize]
  | option verb opt =>
    have shape : verb.byte ≠ iac ∧ verb.byte ≠ sb ∧ (0xFB ≤ verb.byte ∧ verb.byte ≤ 0xFE) := by
      cases verb <;> decide
    have fed : ({ inbound with state := .iac } : InboundTelnet).feed verb.byte =
        ({ inbound with state := .option }, .nothing) := by
      simp only [feed, if_neg shape.1, if_neg shape.2.1, if_pos shape.2.2]
    have last : ({ inbound with state := .option } : InboundTelnet).feed opt =
        ({ inbound with state := .data }, .nothing) := by simp [feed]
    simp [TelnetUnit.bytes, after, meanings, command, fed, last, dataOf, resizesOf,
      TelnetUnit.carried, TelnetUnit.resize]
  | sub opt items =>
    have other : sb ≠ iac := by decide
    have opened : ({ inbound with state := .iac } : InboundTelnet).feed sb =
        ({ inbound with state := .sbOption }, .nothing) := by simp [feed, other]
    have named : ({ inbound with state := .sbOption } : InboundTelnet).feed opt =
        ({ inbound with opt := opt, body := [], state := .sb }, .nothing) := by simp [feed]
    have body := @feed_items { inbound with opt := opt, body := [], state := .sb } [] rfl rfl items
    simp only [List.nil_append] at body
    have escaped := @feed_body_iac
      (.mk .sb opt ((items.flatMap SubItem.kept).take maxSbBodyBytes)) rfl
    have ended : (InboundTelnet.mk .sbIac opt
        ((items.flatMap SubItem.kept).take maxSbBodyBytes)).feed se =
        (⟨.data, opt, (items.flatMap SubItem.kept).take maxSbBodyBytes⟩,
          nawsOf opt (items.flatMap SubItem.kept)) := by
      simp [feed, nawsOf_capped]
    simp only [TelnetUnit.bytes, List.cons_append, List.nil_append, after, meanings, command,
      opened, named, after_append, meanings_append, body, escaped, ended, dataOf_append,
      resizesOf_append, dataOf_nothing, resizesOf_nothing]
    exact ⟨trivial, dataOf_nawsOf _ _, resizesOf_nawsOf _ _⟩

/-- A run of units is delivered as their data and their window sizes. -/
theorem feed_units {inbound : InboundTelnet} (between : inbound.state = .data)
    (units : List TelnetUnit) :
    (inbound.after (units.flatMap TelnetUnit.bytes)).state = .data ∧
      dataOf (inbound.meanings (units.flatMap TelnetUnit.bytes)) =
        units.flatMap TelnetUnit.carried ∧
      resizesOf (inbound.meanings (units.flatMap TelnetUnit.bytes)) =
        units.filterMap TelnetUnit.resize := by
  induction units generalizing inbound with
  | nil => exact ⟨between, rfl, rfl⟩
  | cons unit units ih =>
    have first := feed_unit between unit
    have rest := ih first.1
    simp only [List.flatMap_cons, after_append, meanings_append, dataOf_append, resizesOf_append,
      first, rest, List.filterMap_cons, true_and]
    cases unit.resize <;> rfl

/-- An incomplete command means nothing. -/
theorem feed_incomplete {inbound : InboundTelnet} (between : inbound.state = .data)
    {tail : List UInt8} (incomplete : Incomplete tail) :
    dataOf (inbound.meanings tail) = [] ∧ resizesOf (inbound.meanings tail) = [] := by
  have command : inbound.feed Telnet.iac = ({ inbound with state := .iac }, .nothing) := by
    simp [feed, between]
  have other : Telnet.sb ≠ Telnet.iac := by decide
  have opened : ({ inbound with state := .iac } : InboundTelnet).feed Telnet.sb =
      ({ inbound with state := .sbOption }, .nothing) := by simp [feed, other]
  have named (opt : UInt8) : ({ inbound with state := .sbOption } : InboundTelnet).feed opt =
      ({ inbound with opt := opt, body := [], state := .sb }, .nothing) := by simp [feed]
  cases incomplete with
  | nil => exact ⟨rfl, rfl⟩
  | iac => simp [meanings, command, dataOf, resizesOf]
  | verb verb =>
    have shape : verb.byte ≠ Telnet.iac ∧ verb.byte ≠ Telnet.sb ∧
        (0xFB ≤ verb.byte ∧ verb.byte ≤ 0xFE) := by
      cases verb <;> decide
    have fed : ({ inbound with state := .iac } : InboundTelnet).feed verb.byte =
        ({ inbound with state := .option }, .nothing) := by
      simp only [feed, if_neg shape.1, if_neg shape.2.1, if_pos shape.2.2]
    simp [meanings, command, fed, dataOf, resizesOf]
  | sb => simp [meanings, command, opened, dataOf, resizesOf]
  | body opt items =>
    have body := @feed_items { inbound with opt := opt, body := [], state := .sb } [] rfl rfl items
    simp only [List.cons_append, List.nil_append, meanings, command, opened, named, dataOf_nothing,
      resizesOf_nothing]
    exact body.2
  | bodyIac opt items =>
    have body := @feed_items { inbound with opt := opt, body := [], state := .sb } [] rfl rfl items
    have escaped := @feed_body_iac (InboundTelnet.after
      { inbound with opt := opt, body := [], state := .sb } (items.flatMap SubItem.bytes))
      (by rw [body.1])
    simp only [List.cons_append, List.nil_append, meanings, command, opened, named, meanings_append,
      dataOf_append, resizesOf_append, dataOf_nothing, resizesOf_nothing, body.2,
      escaped]
    exact ⟨rfl, rfl⟩

end InboundTelnet

/-! ## Window sizes -/

/-- A number is read back from its two bytes. -/
theorem fromBeBytes_toBeBytes (value : UInt16) :
    ∃ high low, toBeBytes value = [high, low] ∧ fromBeBytes high low = value := by
  have bound := value.toNat_lt
  refine ⟨_, _, rfl, ?_⟩
  rw [fromBeBytes, UInt8.toNat_ofNat', UInt8.toNat_ofNat', ← UInt16.toNat_inj, UInt16.toNat_ofNat']
  omega

/-- A body, part by part. -/
def itemsOf (body : List UInt8) : List SubItem :=
  body.map fun byte => if other : byte = iac then .escaped else .plain byte other

/-- The parts of a body are its bytes, escaped. -/
theorem itemsOf_bytes (body : List UInt8) : (itemsOf body).flatMap SubItem.bytes = escape body := by
  induction body with
  | nil => rfl
  | cons byte body ih =>
    have first : (itemsOf (byte :: body)).flatMap SubItem.bytes =
        (if byte = iac then [iac, iac] else [byte]) ++ (itemsOf body).flatMap SubItem.bytes := by
      by_cases other : byte = iac <;> simp [itemsOf, other, SubItem.bytes]
    rw [first, ih]
    simp [escape]

/-- The parts of a body add the body. -/
theorem itemsOf_kept (body : List UInt8) : (itemsOf body).flatMap SubItem.kept = body := by
  induction body with
  | nil => rfl
  | cons byte body ih =>
    have first : (itemsOf (byte :: body)).flatMap SubItem.kept =
        byte :: (itemsOf body).flatMap SubItem.kept := by
      by_cases other : byte = iac <;> simp [itemsOf, other, SubItem.kept]
    rw [first, ih]

/-- What `emit_naws_sb` sends is a complete subnegotiation. -/
theorem emitNawsSb_bytes (gateway : GatewayTelnetIac) :
    gateway.emitNawsSb.bytes = (TelnetUnit.sub optNaws (itemsOf
      (toBeBytes gateway.windowCols ++ toBeBytes gateway.windowRows))).bytes := by
  rw [TelnetUnit.bytes, itemsOf_bytes]
  rfl

/-- What `emit_naws_sb` sends carries the window size. -/
theorem emitNawsSb_resize (width height : UInt16) :
    (TelnetUnit.sub optNaws (itemsOf (toBeBytes width ++ toBeBytes height))).resize =
      some (width, height) := by
  obtain ⟨a, b, bytes, value⟩ := fromBeBytes_toBeBytes width
  obtain ⟨c, d, bytes', value'⟩ := fromBeBytes_toBeBytes height
  simp only [TelnetUnit.resize, itemsOf_kept, bytes, bytes', List.cons_append, List.nil_append,
    if_pos, value, value']

/-- **The telnet readers decode alike.** From every stream both readers deliver the same data after
every prefix; from a stream of units it is the data the units carry, whose escaped form is the
stream without its commands; every stream is such a run of units and an incomplete command, and the
window sizes reported are just those of its subnegotiations with a body of four bytes; and what
`emit_naws_sb` sends is read back as the size it was sent for. -/
theorem readers_decode_alike (cooperate : Bool) (name : List UInt8) (cols rows : UInt16) :
    (∀ (stream : List UInt8) (length : Nat),
      dataOf (InboundTelnet.new.meanings (stream.take length)) =
        (GatewayTelnetIac.new cooperate name cols rows).data (stream.take length)) ∧
    (∀ units : List TelnetUnit,
      writeTelnetData (units.flatMap TelnetUnit.carried) =
        (units.filter TelnetUnit.isData).flatMap TelnetUnit.bytes ∧
      dataOf (InboundTelnet.new.meanings (units.flatMap TelnetUnit.bytes)) =
        units.flatMap TelnetUnit.carried ∧
      (GatewayTelnetIac.new cooperate name cols rows).data (units.flatMap TelnetUnit.bytes) =
        units.flatMap TelnetUnit.carried) ∧
    (∀ stream : List UInt8, ∃ (units : List TelnetUnit) (tail : { tail // Incomplete tail }),
      stream = units.flatMap TelnetUnit.bytes ++ tail.1) ∧
    (∀ (units : List TelnetUnit) (tail : { tail // Incomplete tail }),
      resizesOf (InboundTelnet.new.meanings (units.flatMap TelnetUnit.bytes ++ tail.1)) =
        units.filterMap TelnetUnit.resize) ∧
    resizesOf (InboundTelnet.new.meanings
      (GatewayTelnetIac.new cooperate name cols rows).emitNawsSb.bytes) = [(cols, rows)] := by
  have together : InboundTelnet.new.state =
      stateOf (GatewayTelnetIac.new cooperate name cols rows).state := rfl
  refine ⟨fun stream length => data_together together _, fun units => ⟨?_, ?_, ?_⟩,
    fun stream => ?_, fun units tail => ?_, ?_⟩
  · exact TelnetUnit.writeTelnetData_carried units
  · exact (InboundTelnet.feed_units rfl units).2.1
  · rw [← data_together together]
    exact (InboundTelnet.feed_units rfl units).2.1
  · obtain ⟨units, tail, incomplete, split⟩ := units_of_stream stream
    exact ⟨units, ⟨tail, incomplete⟩, split⟩
  · have read := @InboundTelnet.feed_units .new rfl units
    rw [InboundTelnet.meanings_append, resizesOf_append, read.2.2,
      (InboundTelnet.feed_incomplete read.1 tail.2).2, List.append_nil]
  · rw [emitNawsSb_bytes, (InboundTelnet.feed_unit rfl _).2.2]
    exact congrArg Option.toList (emitNawsSb_resize cols rows)

end EthernetGateway.Telnet
