import EthernetGateway.Utf8
import EthernetGateway.Stepping
import EthernetGateway.Kermit.Dates
import EthernetGateway.Kermit.SendInit

/-!
# A Kermit receiver

The loop of `kermit_receive_committing`: a packet is read, or taken from the buffer of those that
came early, and handled where it is the one expected. The loop acts on the last record it keeps,
whatever packet comes. Two counts guard it, of failed reads and of packets out of order, and each
packet in order clears both.
-/

namespace EthernetGateway.Kermit

open EthernetGateway.Stepping

/-! ## Packets -/

/-- The kinds of packets the receiver tells apart. -/
inductive Kind where
  | file
  | text
  | attributes
  | data
  | eof
  | eot
  | generic
  | error
  | other
  deriving DecidableEq

/-- `TYPE_FILE`, `TYPE_TEXT`, `TYPE_ATTRIBUTE`, `TYPE_DATA`, `TYPE_EOF`, `TYPE_EOT`, `TYPE_GENERIC`
and `TYPE_ERROR`. -/
def kindOf (c : UInt8) : Kind :=
  if c = 0x46 then .file
  else if c = 0x58 then .text
  else if c = 0x41 then .attributes
  else if c = 0x44 then .data
  else if c = 0x5A then .eof
  else if c = 0x42 then .eot
  else if c = 0x47 then .generic
  else if c = 0x45 then .error
  else .other

/-- What the receiver sends, and under which block check. -/
structure Reply where
  packet : Packet
  chkt : UInt8

/-- `MAX_BATCH_FILES`. -/
def maxBatchFiles : Nat := 1000

/-- `MAX_FILE_SIZE`. -/
def maxFileSize : Nat := 8 * 1024 * 1024

/-! ## Attributes -/

/-- `Attributes`, the fields that the receiver acts on. -/
structure Attributes where
  length : Option Nat
  date : Option Text
  mode : Option Nat
  fileType : Option UInt8
  disposition : Option UInt8
  longLength : Option Nat

/-- The default of `Attributes`. -/
def Attributes.none : Attributes := ⟨.none, .none, .none, .none, .none, .none⟩

/-- `encode_attributes`, of the length and the disposition. -/
def encodeAttributes (length : Nat) (disposition : UInt8) : List UInt8 :=
  let number := Text.toUtf8 (Text.ofNat length)
  [0x21, tochar number.length.toUInt8] ++ number ++ [0x40, tochar 1, disposition]

/-- `from_str_radix` to the base eight, with values below a bound. -/
def parseOctal (bound : Nat) (text : Text) : Option Nat :=
  let number := if text.head? = some '+' then text.tail else text
  let value := number.foldl (fun value c => value * 8 + (c.toNat - 48)) 0
  if number ≠ [] ∧ number.all (fun c => 48 ≤ c.toNat && c.toNat ≤ 55) ∧ value < bound then some value
  else none

/-- An attribute with its value. -/
def Attributes.read (a : Attributes) (tag : UInt8) (value : List UInt8) : Attributes :=
  let number := (Text.fromUtf8 value).bind fun s => Text.parseUnsigned (2 ^ 64) s.trim
  if tag = 0x21 then { a with length := number <|> a.length }
  else if tag = 0x23 then { a with date := Text.fromUtf8 value <|> a.date }
  else if tag = 0x2B then
    { a with mode := ((Text.fromUtf8 value).bind fun s => parseOctal (2 ^ 32) s.trim) <|> a.mode }
  else if tag = 0x22 then { a with fileType := value.head? <|> a.fileType }
  else if tag = 0x40 then { a with disposition := value.head? <|> a.disposition }
  else if tag = 0x26 then { a with longLength := number <|> a.longLength }
  else a

/-- `parse_attributes` from the attributes read before. -/
def Attributes.parse (a : Attributes) (data : List UInt8) : Attributes :=
  match data with
  | tag :: length :: rest =>
    if rest.length < (unchar length).toNat then a
    else (a.read tag (rest.take (unchar length).toNat)).parse (rest.drop (unchar length).toNat)
  | _ => a
termination_by data.length
decreasing_by
  simp only [List.length_drop, List.length_cons]
  omega

/-- `parse_attributes`. -/
def parseAttributes (data : List UInt8) : Attributes := Attributes.none.parse data

/-! ## Records -/

/-- `KermitReceive`. -/
structure KermitReceive where
  filename : Text
  data : List UInt8
  declaredSize : Option Nat
  textDeclared : Bool
  modtime : Option Nat
  mode : Option Nat
  resumed : Bool
  deriving DecidableEq

/-- A record with a name and nothing else. -/
def KermitReceive.named (filename : Text) : KermitReceive :=
  ⟨filename, [], none, false, none, none, false⟩

/-- `has_non_text_bytes`. -/
def hasNonTextBytes (data : List UInt8) : Bool :=
  data.any fun b => b ≤ 0x06 || (0x0E ≤ b && b ≤ 0x19) || (0x1C ≤ b && b ≤ 0x1F)

/-- `validate_filename`: why a name is refused. -/
def validateFilename (name : Text) : Option String :=
  if name = [] then some "Filename cannot be empty"
  else if 64 < Text.byteLength name then some "Filename too long (max 64 chars)"
  else if name.head? = some '.' then some "Filename cannot start with a dot"
  else if ¬ name.all (fun c => c.isAlphanum || c = '.' || c = '-' || c = '_') then
    some "Only letters, numbers, dots, hyphens, underscores"
  else if ¬ name.any Char.isAlphanum then some "Filename must contain a letter or number"
  else if ['.', '.'] <:+: name then some "Invalid filename"
  else none

/-- The name in a header: the decoded one, or the bytes as they are where nothing is decoded. -/
def headerName (q : Quoting) (payload : List UInt8) : Text :=
  match q.decodeData payload with
  | .ok name => if name ≠ [] then Text.fromUtf8Lossy name else Text.fromUtf8Lossy payload
  | .error _ => Text.fromUtf8Lossy payload

/-- `sanitize_for_terminal`. -/
def sanitizeForTerminal (text : Text) : Text :=
  text.filter fun c =>
    c.toNat = 9 || (0x20 ≤ c.toNat && c.toNat ≠ 0x7F && !(0x80 ≤ c.toNat && c.toNat ≤ 0x9F))

/-- `decode_error_message`. -/
def decodeErrorMessage (q : Quoting) (payload : List UInt8) : Text :=
  ((q.decodeData payload).toOption.bind Text.fromUtf8).getD "(unparseable)".toList

/-! ## The state of the loop -/

/-- The variables of the loop, and what it has sent and committed. The lists have their last
elements first. -/
structure Receiver where
  received : List KermitReceive
  expectedSeq : UInt8
  replayAck : Option (UInt8 × List UInt8 × UInt8)
  pendingResumeOffset : Option Nat
  consecutiveFailures : Nat
  noProgress : Nat
  outOfOrder : List Packet
  nextDrained : Option Packet
  lastNakSeq : Option UInt8
  sent : List Reply
  /-- What `on_complete` was called with. -/
  committed : List KermitReceive

/-- What the receiver returns. -/
inductive Outcome where
  | complete (received : List KermitReceive)
  | failed (error : String)
  /-- An addition that overflows ends the task. -/
  | panicked

/-- A receiver that has returned. -/
structure Receipt where
  receiver : Receiver
  outcome : Outcome

/-- What the loop is run with. -/
structure Terms where
  config : KermitConfig
  session : Capabilities
  /-- `on_complete`: the record as the hook leaves it. -/
  onComplete : KermitReceive → KermitReceive

/-- A receiver between two gateways with the default configuration, whose hook does nothing. -/
def Terms.default : Terms := ⟨.default, gatewaySession .default .default, id⟩

/-- What `read_packet` returns. -/
inductive Reading where
  | packet (packet : Packet)
  /-- The user's ESC. -/
  | cancelled (error : String)
  /-- CAN twice from the peer. -/
  | aborted (error : String)
  | failed (error : String)

/-- A reading, and the files on disk that a transfer could be resumed from. -/
structure Arrival where
  reading : Reading
  /-- `compute_resume_offset`. -/
  resumeOffset : Text → Option Nat
  partialFile : Text → Option (List UInt8)

/-- A reading of a packet, with no file on disk to resume. -/
def Packet.arrival (p : Packet) : Arrival := ⟨.packet p, fun _ => none, fun _ => none⟩

/-- The F packet of a file in `kermit_send_impl`. -/
def filePacket (seq : UInt8) (name : Text) : Packet := ⟨0x46, seq, name.toUtf8⟩

/-- The receiver when it has answered the Send-Init. -/
def Receiver.start (seq : UInt8) (answer : List UInt8) : Receiver where
  received := []
  expectedSeq := (seq + 1) &&& 0x3F
  replayAck := some (seq, answer, 0x31)
  pendingResumeOffset := none
  consecutiveFailures := 0
  noProgress := 0
  outOfOrder := []
  nextDrained := none
  lastNakSeq := none
  sent := [⟨⟨0x59, seq, answer⟩, 0x31⟩]
  committed := []

variable (terms : Terms)

/-- `send_ack_with_payload`. -/
def Receiver.ackWith (r : Receiver) (seq : UInt8) (payload : List UInt8) (chkt : UInt8) : Receiver :=
  { r with sent := ⟨⟨0x59, seq, payload⟩, chkt⟩ :: r.sent }

/-- `send_ack`. -/
def Receiver.ack (r : Receiver) (seq : UInt8) : Receiver := r.ackWith seq [] terms.session.chkt

/-- `send_nak`. -/
def Receiver.nak (r : Receiver) (seq : UInt8) : Receiver :=
  { r with sent := ⟨⟨0x4E, seq, []⟩, terms.session.chkt⟩ :: r.sent }

/-- `send_error`, with the quoting every session knows. -/
def Receiver.sendError (r : Receiver) (seq : UInt8) (message : String) : Receiver :=
  let payload := Quoting.encodeData ⟨0x23, none, none, false⟩ (Text.toUtf8 message.toList)
  { r with sent := ⟨⟨0x45, seq, payload⟩, terms.session.chkt⟩ :: r.sent }

/-- The receiver returns an error. -/
def Receiver.fail {σ : Type} (r : Receiver) (error : String) : Progress σ Receipt :=
  .returned ⟨r, .failed error⟩

/-- The receiver tells its peer of an error and returns it. -/
def Receiver.refuse {σ : Type} (r : Receiver) (seq : UInt8) (message error : String) :
    Progress σ Receipt :=
  (r.sendError terms seq message).fail error

/-- The receiver returns its records. -/
def Receiver.finish {σ : Type} (r : Receiver) : Progress σ Receipt :=
  .returned ⟨r, .complete r.received.reverse⟩

/-! ## The arms -/

/-- The arm of `TYPE_FILE` and `TYPE_TEXT`. -/
def Receiver.onHeader (r : Receiver) (arrival : Arrival) (p : Packet) : Progress Receiver Receipt :=
  let name := headerName terms.session.quoting p.payload
  -- a text header carries no name to save under
  match if kindOf p.kind = .file then validateFilename name else none with
  | some reason =>
    r.refuse terms p.seq reason
      ("Kermit recv: refused filename '" ++ String.ofList name ++ "': " ++ reason)
  | none =>
    if maxBatchFiles ≤ r.received.length then
      r.refuse terms p.seq "Batch too large" "Kermit recv: batch exceeds 1000 file cap"
    else
      let offset :=
        if terms.config.resumePartial ∧ terms.session.attributePackets ∧ terms.session.resend then
          (arrival.resumeOffset name).filter fun n => 0 < n
        else none
      .next ({ r with
        pendingResumeOffset := offset
        received := .named name :: r.received }.ack terms p.seq)

/-- A record with its attributes. -/
def KermitReceive.describe (record : KermitReceive) (a : Attributes) : KermitReceive :=
  { record with
    textDeclared := record.textDeclared || (a.fileType = some 0x41 || a.fileType = some 0x61)
    declaredSize := a.length <|> a.longLength
    mode := a.mode
    modtime := a.date.bind parseKermitDate }

/-- A record with the file on disk in it, up to an offset, and the answer that asks for the rest. -/
def Receiver.resumeFrom (r : Receiver) (p : Packet) (record : KermitReceive)
    (older : List KermitReceive) (bytes : List UInt8) (offset : Nat) : Receiver :=
  let effective := min offset bytes.length
  let payload := terms.session.quoting.encodeData (encodeAttributes effective 0x52)
  { r with
    received := { record with data := bytes.take effective, resumed := true } :: older
    replayAck := some (p.seq, payload, terms.session.chkt) }.ackWith p.seq payload terms.session.chkt

/-- The arm of `TYPE_ATTRIBUTE`. -/
def Receiver.onAttribute (r : Receiver) (arrival : Arrival) (p : Packet) :
    Progress Receiver Receipt :=
  match terms.session.quoting.decodeData p.payload with
  | .error error => r.fail error
  | .ok raw =>
    match r.received with
    | [] =>
      r.refuse terms p.seq "Attribute packet without file header"
        "Kermit recv: A-packet arrived before any F-packet"
    | last :: older =>
      let record := last.describe (parseAttributes raw)
      let r := { r with received := record :: older }
      if record.declaredSize.any fun size => maxFileSize < size then
        r.refuse terms p.seq "File too large"
          ("Kermit recv: peer file size " ++ toString (record.declaredSize.getD 0) ++ " exceeds " ++
            toString maxFileSize ++ " cap")
      else
        let offset := r.pendingResumeOffset.filter fun n => record.declaredSize.any fun size => n ≤ size
        let r := { r with pendingResumeOffset := none }
        match offset.bind fun n => (arrival.partialFile record.filename).map fun bytes => (n, bytes) with
        | some (n, bytes) => .next (r.resumeFrom terms p record older bytes n)
        | none => .next (r.ack terms p.seq)

/-- The arm of `TYPE_DATA`. -/
def Receiver.onData (r : Receiver) (p : Packet) : Progress Receiver Receipt :=
  match terms.session.quoting.decodeData p.payload with
  | .error error => r.fail error
  | .ok raw =>
    match r.received with
    | [] =>
      r.refuse terms p.seq "Data packet before file header" "Kermit: D-packet before F-packet"
    | last :: older =>
      if maxFileSize < last.data.length + raw.length then
        r.refuse terms p.seq "File too large" "Kermit: file size cap exceeded"
      else
        let r := { r with received := { last with data := last.data ++ raw } :: older }
        .next (if terms.session.streaming then r else r.ack terms p.seq)

/-- A Z packet with a D in it. -/
def isDiscard (q : Quoting) (payload : List UInt8) : Bool :=
  (q.decodeData payload).toOption.any fun raw => raw.head? = some 0x44 || raw.head? = some 0x64

/-- Why a record is not taken for complete at its Z: the message to the peer and the error. -/
def KermitReceive.incomplete (record : KermitReceive) : Option (String × String) :=
  let name := String.ofList (sanitizeForTerminal record.filename)
  match record.declaredSize with
  | some declared =>
    if record.data.length < declared then
      some ("Short file: got " ++ toString record.data.length ++ " of " ++ toString declared ++
          " bytes",
        "Kermit recv: '" ++ name ++ "' truncated — " ++ toString record.data.length ++ " of " ++
          toString declared ++ " declared bytes")
    else none
  | none =>
    if record.textDeclared && hasNonTextBytes record.data then
      some ("Binary file sent in text mode: set FILE TYPE BINARY",
        "Kermit recv: '" ++ name ++ "' declared TEXT but is binary — refused as truncated")
    else none

/-- The arm of `TYPE_EOF`. -/
def Receiver.onEof (r : Receiver) (p : Packet) : Progress Receiver Receipt :=
  match r.received with
  | [] => r.refuse terms p.seq "EOF without file header" "Kermit: Z-packet before F-packet"
  | last :: older =>
    if isDiscard terms.session.quoting p.payload then
      .next ({ r with received := older }.ack terms p.seq)
    else
      match last.incomplete with
      | some (message, error) => r.refuse terms p.seq message error
      | none =>
        .next ({ r with
          received := terms.onComplete last :: older
          committed := last :: r.committed }.ack terms p.seq)

/-- The arm of `TYPE_GENERIC`. -/
def Receiver.onGeneric (r : Receiver) (p : Packet) : Progress Receiver Receipt :=
  let raw := (terms.session.quoting.decodeData p.payload).toOption.getD []
  let r := r.ack terms p.seq
  if raw.head? = some 0x46 ∨ raw.head? = some 0x4C then r.finish else .next r

/-! ## A pass of the loop -/

/-- The end of a pass: the next packet is expected, and taken from the buffer where it came early. -/
def Receiver.advance (r : Receiver) : Receiver :=
  let expected := (r.expectedSeq + 1) &&& 0x3F
  { r with
    expectedSeq := expected
    lastNakSeq := none
    nextDrained := r.outOfOrder.find? fun p => p.seq = expected
    outOfOrder := r.outOfOrder.eraseP fun p => p.seq = expected }

/-- What follows a pass that reaches its end. -/
def Receiver.thenAdvance : Progress Receiver Receipt → Progress Receiver Receipt
  | .next r => .next r.advance
  | .returned receipt => .returned receipt

/-- The packet expected is handled. -/
def Receiver.inOrder (r : Receiver) (arrival : Arrival) (p : Packet) : Progress Receiver Receipt :=
  match kindOf p.kind with
  | .file | .text => Receiver.thenAdvance (r.onHeader terms arrival p)
  | .attributes => Receiver.thenAdvance (r.onAttribute terms arrival p)
  | .data => Receiver.thenAdvance (r.onData terms p)
  | .eof => Receiver.thenAdvance (r.onEof terms p)
  | .eot => (r.ack terms p.seq).finish
  | .generic => Receiver.thenAdvance (r.onGeneric terms p)
  | _ => .next (r.nak terms r.expectedSeq)

/-- How many packets in a row may come that are not the one expected. -/
def progressLimit : Nat :=
  min (2 ^ 32 - 1) (max terms.config.maxRetries 20 * (max terms.session.window 1).toNat)

/-- A packet that came early is kept, unless one with its number is. -/
def Receiver.buffer (r : Receiver) (p : Packet) : Receiver :=
  if r.outOfOrder.any fun kept => kept.seq = p.seq then r
  else { r with outOfOrder := p :: r.outOfOrder }

/-- A packet is asked for, once for each gap. -/
def Receiver.nakOnce (r : Receiver) : Receiver :=
  if r.lastNakSeq = some r.expectedSeq then r
  else { r.nak terms r.expectedSeq with lastNakSeq := some r.expectedSeq }

/-- A packet other than the one expected is answered. -/
def Receiver.answerStray (r : Receiver) (p : Packet) : Receiver :=
  let window := max terms.session.window 1
  let forward := (p.seq - r.expectedSeq) &&& 0x3F
  let back := (r.expectedSeq - p.seq) &&& 0x3F
  if 1 < window ∧ 0 < forward ∧ forward < window then
    ((r.buffer p).ack terms p.seq).nakOnce terms
  else if 0 < back ∧ back ≤ window then
    match r.replayAck.filter fun replay => replay.1 = p.seq with
    | some (_, payload, chkt) => r.ackWith p.seq payload chkt
    | none => r.ack terms p.seq
  else r.nak terms r.expectedSeq

/-- A packet other than the one expected is counted. -/
def Receiver.outOfSequence (r : Receiver) (p : Packet) : Progress Receiver Receipt :=
  let count := r.noProgress + 1
  if 2 ^ 32 ≤ count then .returned ⟨r, .panicked⟩
  else if progressLimit terms < count then
    { r with noProgress := count }.refuse terms r.expectedSeq "No progress"
      ("Kermit recv: aborting after " ++ toString count ++ " packets in a row without seq " ++
        toString r.expectedSeq.toNat)
  else .next ({ r with noProgress := count }.answerStray terms p)

/-- The answer that is sent again for a packet that comes again, while it can come again. -/
def Receiver.dropReplay (r : Receiver) : Receiver :=
  { r with
    replayAck :=
      r.replayAck.filter fun replay =>
        ¬ max terms.session.window 1 < (r.expectedSeq - replay.1) &&& 0x3F }

/-- A pass of the loop with a packet at hand. -/
def Receiver.pass (r : Receiver) (arrival : Arrival) (p : Packet) : Progress Receiver Receipt :=
  if kindOf p.kind = .error then
    r.fail ("Kermit: peer sent E-packet: " ++
      String.ofList (decodeErrorMessage terms.session.quoting p.payload))
  else
    let r := r.dropReplay terms
    if p.seq ≠ r.expectedSeq then r.outOfSequence terms p
    else { r with noProgress := 0 }.inOrder terms arrival p

/-- The passes that take their packets from the buffer, which holds fewer of them each time. -/
def Receiver.drain (arrival : Arrival) : Nat → Progress Receiver Receipt → Progress Receiver Receipt
  | more + 1, .next r =>
    match r.nextDrained with
    | some p => Receiver.drain arrival more ({ r with nextDrained := none }.pass terms arrival p)
    | none => .next r
  | _, progress => progress

/-- A read failed. -/
def Receiver.onFailure (r : Receiver) (error : String) : Progress Receiver Receipt :=
  let count := r.consecutiveFailures + 1
  if 2 ^ 32 ≤ count then .returned ⟨r, .panicked⟩
  else if terms.config.maxRetries < count then
    { r with consecutiveFailures := count }.refuse terms r.expectedSeq
      "Too many consecutive read errors"
      ("Kermit recv: aborting after " ++ toString count ++ " consecutive read errors: " ++ error)
  else .next ({ r with consecutiveFailures := count }.nak terms r.expectedSeq)

/-- A read of the loop, and the passes up to the next. -/
def Receiver.step (r : Receiver) (arrival : Arrival) : Progress Receiver Receipt :=
  match arrival.reading with
  | .packet p =>
    Receiver.drain terms arrival r.outOfOrder.length
      ({ r with consecutiveFailures := 0 }.pass terms arrival p)
  | .cancelled error => r.refuse terms r.expectedSeq "Cancelled by user" error
  | .aborted error => r.fail error
  | .failed error => r.onFailure terms error

end EthernetGateway.Kermit
