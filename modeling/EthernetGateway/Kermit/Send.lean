import EthernetGateway.Fallible
import EthernetGateway.Kermit.Receive

/-!
# A Kermit sender

`kermit_send_impl` from its Send-Init to the end of the session: a header for each file, its
attributes where they were negotiated, its data under one of three disciplines, and its end. What
the peer answers, and when a packet is overdue, is given; what the sender writes is kept in order,
each packet with the block check it is framed under.
-/

namespace EthernetGateway.Kermit

/-! ## Packets -/

/-- `TYPE_FILE`. -/
def typeFile : UInt8 := 0x46

/-- `TYPE_TEXT`. -/
def typeText : UInt8 := 0x58

/-- `TYPE_ATTRIBUTE`. -/
def typeAttribute : UInt8 := 0x41

/-- `TYPE_DATA`. -/
def typeData : UInt8 := 0x44

/-- `TYPE_EOF`. -/
def typeEof : UInt8 := 0x5A

/-- `TYPE_EOT`. -/
def typeEot : UInt8 := 0x42

/-- `TYPE_ACK`. -/
def typeAck : UInt8 := 0x59

/-- `TYPE_NAK`. -/
def typeNak : UInt8 := 0x4E

/-- `TYPE_ERROR`. -/
def typeError : UInt8 := 0x45

/-- The number of the next packet. -/
def nextSeq (seq : UInt8) : UInt8 := (seq + 1) &&& 0x3F

/-- `max_payload_for`. -/
def maxPayloadFor (session : Capabilities) : Nat :=
  let cklen := checkSize session.chkt
  let headerOverhead :=
    if session.longPackets ∧ session.maxl > classicMaxPacketLen then 6 + cklen else 2 + cklen
  session.maxl - headerOverhead

/-- `check_encoded_fits`. -/
def checkEncodedFits (encoded : List UInt8) (session : Capabilities) : Except String Unit :=
  let maxPayload := maxPayloadFor session
  if encoded.length > maxPayload then
    .error ("Kermit send: encoded D-packet body " ++ toString encoded.length ++
      " B exceeds MAXL payload area " ++ toString maxPayload ++
      " B (worst-case quoting blowup on adversarial input; reduce chunk_size or disable QBIN)")
  else .ok ()

/-- The chunk size of a session, half of what fits but 16 at least. -/
def chunkSize (session : Capabilities) : Nat := max (maxPayloadFor session * 1 / 2) 16

/-! ## Files -/

/-- `KermitSendFile`. -/
structure SendFile where
  name : Text
  data : List UInt8
  modtime : Option Nat
  mode : Option Nat

/-- One attribute of `encode_attributes`. -/
def attributeField (tag : UInt8) (value : List UInt8) : List UInt8 :=
  [tag, tochar value.length.toUInt8] ++ value

/-- `encode_attributes` on the attributes a sender has: the length, the date and the mode of the
file, and that it is a new binary file of a UNIX system. -/
def SendFile.attributes (f : SendFile) : List UInt8 :=
  let date := (f.modtime.map fun secs => (unixSecsToKermitDate secs).toUtf8).filter fun bytes =>
    bytes.length ≤ 94
  attributeField 0x21 (Text.toUtf8 (Text.ofNat f.data.length)) ++
    ((date.map (attributeField 0x23)).getD [] ++
      ((f.mode.map fun mode =>
          attributeField 0x2B (Text.toUtf8 (Nat.toDigits 8 (mode % 4096)))).getD [] ++
        (attributeField 0x2E (Text.toUtf8 ['U', 'N', 'I', 'X']) ++
          (attributeField 0x22 [0x42] ++ attributeField 0x40 [0x4E]))))

/-- The offset that the answer to an A packet asks to resume from. -/
def resumeFrom (q : Quoting) (ack : List UInt8) (size : Nat) : Nat :=
  match q.decodeData ack with
  | .error _ => 0
  | .ok raw =>
    match (parseAttributes raw).disposition, (parseAttributes raw).length with
    | some 0x52, some n => min n size
    | _, _ => 0

/-! ## The wire -/

/-- What a read comes to, and which packets are overdue when it fails: of those still unanswered,
counted from the oldest, and the end of a stream. -/
structure Answer where
  reading : Reading
  overdue : Nat → Bool
  endOverdue : Bool

/-- What is still to be read, and what has been written. -/
structure Wire where
  answers : List Answer
  written : List Reply

/-- Why a sender stops: it failed, or it waits for an answer. -/
inductive Stop where
  | failed (reason : String)
  | waiting

/-- A part of the sender. -/
abbrev Sending (α : Type) : Type := Fallible Wire Stop α

/-- A failure. -/
def giveUp {α : Type} (reason : String) : Sending α := Fallible.fail (.failed reason)

/-- `raw_write_bytes` on a packet. -/
def write (chkt : UInt8) (p : Packet) : Sending Unit :=
  Fallible.change fun wire => { wire with written := wire.written ++ [⟨p, chkt⟩] }

/-- `read_packet`. -/
def readAnswer : Sending Answer := fun wire =>
  match wire.answers with
  | [] => (.error .waiting, wire)
  | answer :: answers => (.ok answer, { wire with answers := answers })

/-- `wrap_send_err`. -/
def wrapSendErr (context inner : String) : String :=
  let head := "Kermit: ".toList
  let detail := if head.isPrefixOf inner.toList then inner.toList.drop head.length else inner.toList
  "Kermit send " ++ context ++ ": " ++ String.ofList detail

/-- A part of the sender whose failures say where they come from. -/
def inContext {α : Type} (context : String) (program : Sending α) : Sending α := fun wire =>
  match program wire with
  | (.error (.failed reason), reached) => (.error (.failed (wrapSendErr context reason)), reached)
  | result => result

/-- A kind as the errors show it. -/
def showKind (kind : UInt8) : String := String.singleton (Char.ofNat kind.toNat)

/-- A number as the errors show it. -/
def showSeq (seq : UInt8) : String := toString seq.toNat

/-- The failure of a peer that sent an E packet. -/
def peerError (payload : List UInt8) : String :=
  "Kermit: peer sent E-packet: " ++
    String.ofList (decodeErrorMessage ⟨0x23, none, none, false⟩ payload)

/-! ## One packet at a time -/

/-- What an answer to a packet comes to. -/
inductive Verdict where
  | acked (payload : List UInt8)
  | failed (reason : String)
  /-- The packet is written again, unless it was too often. -/
  | resend (error : String)
  | stale

/-- The failure of a packet that was NAKed too often. -/
def tooManyNaks (maxRetries : Nat) (p : Packet) : String :=
  "Kermit: too many NAKs (>" ++ toString maxRetries ++ ") for seq " ++ showSeq p.seq ++ " type '" ++
    showKind p.kind ++ "'"

/-- The arms of `send_and_await_ack`. -/
def verdict (maxRetries : Nat) (p : Packet) (isSendInit : Bool) : Reading → Verdict
  | .packet answer =>
    if answer.kind = typeError then .failed (peerError answer.payload)
    else if answer.kind = typeAck ∧ answer.seq = p.seq then .acked answer.payload
    else if answer.kind = typeNak ∧ answer.seq = nextSeq p.seq then
      -- a NAK for the next packet accepts this one, but cannot carry what its ACK would
      if isSendInit ∨ p.kind = typeSendInit ∨ p.kind = typeAttribute then
        .resend (tooManyNaks maxRetries p)
      else .acked []
    else if answer.kind = typeNak ∧ answer.seq = p.seq then .resend (tooManyNaks maxRetries p)
    else if answer.kind = typeAck ∧ isSendInit then .acked answer.payload
    else if answer.kind = typeAck then .stale
    else .failed ("Kermit: unexpected response type='" ++ showKind answer.kind ++ "' seq=" ++
      showSeq answer.seq ++ " (expected ACK seq=" ++ showSeq p.seq ++ ")")
  | .cancelled error => .failed error
  | .aborted error => .failed error
  | .failed error => .resend ("Kermit: too many timeouts: " ++ error)

/-- The loop of `send_and_await_ack`. Each turn reads an answer, so the answers bound the turns. -/
def awaitAck (maxRetries : Nat) (chkt : UInt8) (p : Packet) (isSendInit : Bool) :
    Nat → Nat → Sending (List UInt8)
  | 0, _ => Fallible.fail .waiting
  | turns + 1, attempts => do
    let answer ← readAnswer
    match verdict maxRetries p isSendInit answer.reading with
    | .acked payload => pure payload
    | .failed reason => giveUp reason
    | .stale => awaitAck maxRetries chkt p isSendInit turns attempts
    | .resend error =>
      if attempts + 1 > maxRetries then giveUp error
      else do
        write chkt p
        awaitAck maxRetries chkt p isSendInit turns (attempts + 1)

/-- The turns a loop can take. -/
def turnsLeft : Sending Nat := Fallible.view fun wire => wire.answers.length + 1

/-- `send_and_await_ack`. -/
def sendAndAwaitAck (maxRetries : Nat) (chkt : UInt8) (p : Packet) (isSendInit : Bool) :
    Sending (List UInt8) := do
  write chkt p
  let turns ← turnsLeft
  awaitAck maxRetries chkt p isSendInit turns 0

/-! ## Data -/

/-- What every part of the sender is run with, once the Send-Init is answered. -/
structure SendTerms where
  session : Capabilities
  maxRetries : Nat
  textResponse : Bool

/-- The chunks of a file that are still to be sent. -/
abbrev Chunks : Type := List (List UInt8)

/-- A chunk encoded, where it fits. -/
def encodeChunk (session : Capabilities) (seq : UInt8) (chunk : List UInt8) : Sending Packet := do
  let encoded := session.quoting.encodeData chunk
  Fallible.given ((checkEncodedFits encoded session).mapError .failed)
  pure ⟨typeData, seq, encoded⟩

/-- The data of a file, one packet at a time. -/
def sendChunks (terms : SendTerms) : Chunks → UInt8 → Sending UInt8
  | [], seq => pure seq
  | chunk :: chunks, seq => do
    let p ← encodeChunk terms.session seq chunk
    let _ ← inContext "D-packet" (sendAndAwaitAck terms.maxRetries terms.session.chkt p false)
    sendChunks terms chunks (nextSeq seq)

/-- `OutstandingPacket`. -/
structure OutstandingPacket where
  packet : Packet
  retries : Nat

/-- The place of a packet among those outstanding. -/
def placeOf (outstanding : List OutstandingPacket) (seq : UInt8) : Option Nat :=
  outstanding.findIdx? fun o => o.packet.seq = seq

/-- A packet outstanding is written again, unless it was too often. -/
def resendAt (terms : SendTerms) (error : Packet → String) (outstanding : List OutstandingPacket)
    (place : Nat) : Sending (List OutstandingPacket) :=
  match outstanding[place]? with
  | none => pure outstanding
  | some o =>
    if o.retries + 1 > terms.maxRetries then giveUp (error o.packet)
    else do
      write terms.session.chkt o.packet
      pure (outstanding.set place { o with retries := o.retries + 1 })

/-- Several packets outstanding are written again. -/
def resendAll (terms : SendTerms) (error : Packet → String) :
    List Nat → List OutstandingPacket → Sending (List OutstandingPacket)
  | [], outstanding => pure outstanding
  | place :: places, outstanding => do
    let outstanding ← resendAt terms error outstanding place
    resendAll terms error places outstanding

/-- `outstanding_seq_count`. -/
def outstandingSeqCount (outstanding : List OutstandingPacket) (seq : UInt8) : Nat :=
  outstanding.countP fun o => o.packet.seq = seq

/-- `window_has_room`. -/
def windowHasRoom (outstanding : Nat) (oldest : Option UInt8) (next : UInt8) (window : UInt8) :
    Bool :=
  if outstanding ≥ window.toNat then false
  else
    match oldest with
    | none => true
    | some o => (next - o) &&& 0x3F < window

/-- The variables of `send_d_packets_windowed`. -/
structure Window where
  chunks : Chunks
  next : UInt8
  outstanding : List OutstandingPacket

/-- The first step of its loop: packets go out while there is room. -/
def fillWindow (session : Capabilities) :
    Chunks → UInt8 → List OutstandingPacket → Sending Window
  | [], next, outstanding => pure ⟨[], next, outstanding⟩
  | chunk :: chunks, next, outstanding =>
    if windowHasRoom outstanding.length (outstanding.head?.map fun o => o.packet.seq) next
        (max session.window 1) then do
      let p ← encodeChunk session next chunk
      write session.chkt p
      fillWindow session chunks (nextSeq next) (outstanding ++ [⟨p, 0⟩])
    else pure ⟨chunk :: chunks, next, outstanding⟩

/-- The rest of a turn of its loop, on an answer. -/
def windowAnswer (terms : SendTerms) (outstanding : List OutstandingPacket) (answer : Answer) :
    Sending (List OutstandingPacket) :=
  match answer.reading with
  | .packet p =>
    if p.kind = typeError then giveUp (peerError p.payload)
    else
      match placeOf outstanding p.seq with
      | none => pure outstanding
      | some place =>
        if p.kind = typeAck then pure (outstanding.eraseIdx place)
        else if p.kind = typeNak then
          resendAt terms (fun o => "Kermit: too many NAKs (>" ++ toString terms.maxRetries ++
            ") for seq " ++ showSeq o.seq ++ " (window)") outstanding place
        else pure outstanding
  | .cancelled error => giveUp error
  | .aborted error => giveUp error
  | .failed error =>
    if error = peerClosed then giveUp error
    else
      resendAll terms (fun o => "Kermit: too many timeouts for seq " ++ showSeq o.seq ++ " (window)")
        ((List.range outstanding.length).filter answer.overdue) outstanding

/-- The loop of `send_d_packets_windowed`. -/
def windowLoop (terms : SendTerms) : Nat → Window → Sending UInt8
  | 0, _ => Fallible.fail .waiting
  | turns + 1, window => do
    let window ← fillWindow terms.session window.chunks window.next window.outstanding
    if window.outstanding.isEmpty then pure window.next
    else do
      let answer ← readAnswer
      let outstanding ← windowAnswer terms window.outstanding answer
      windowLoop terms turns { window with outstanding }

/-- `send_d_packets_windowed`. -/
def sendWindowed (terms : SendTerms) (chunks : Chunks) (seq : UInt8) : Sending UInt8 := do
  let turns ← turnsLeft
  windowLoop terms turns ⟨chunks, seq, []⟩

/-- The first step of `send_d_and_z_streaming`: all data packets, one after the other. -/
def pushChunks (session : Capabilities) :
    Chunks → UInt8 → List OutstandingPacket → Sending (UInt8 × List OutstandingPacket)
  | [], next, outstanding => pure (next, outstanding)
  | chunk :: chunks, next, outstanding => do
    let p ← encodeChunk session next chunk
    write session.chkt p
    pushChunks session chunks (nextSeq next) (outstanding ++ [⟨p, 0⟩])

/-- `handle_streaming_response`. -/
def handleStreamingResponse (terms : SendTerms) (outstanding : List OutstandingPacket)
    (p : Packet) : Sending (List OutstandingPacket) :=
  if p.kind = typeError then giveUp (peerError p.payload)
  else if p.kind = typeAck then
    match placeOf outstanding p.seq with
    | none => pure outstanding
    | some place => pure (outstanding.eraseIdx place)
  else if p.kind = typeNak then
    if outstandingSeqCount outstanding p.seq > 1 then
      giveUp ("Kermit: streaming NAK on ambiguous seq " ++ showSeq p.seq ++
        " — the link dropped a packet mid-stream and streaming cannot recover it without " ++
        "corruption; disable kermit_streaming for this peer")
    else
      match placeOf outstanding p.seq with
      | none => pure outstanding
      | some place =>
        resendAt terms (fun o => "Kermit: too many NAKs (>" ++ toString terms.maxRetries ++
          ") for seq " ++ showSeq o.seq ++ " (stream)") outstanding place
  else pure outstanding

/-- The packets of a stream that are overdue and have a number of their own. -/
def overdueAlone (outstanding : List OutstandingPacket) (overdue : Nat → Bool) : List Nat :=
  (List.range outstanding.length).filter fun place =>
    overdue place && (outstanding[place]?).all fun o =>
      decide (outstandingSeqCount outstanding o.packet.seq ≤ 1)

/-- The last step of `send_d_and_z_streaming`: answers are read until the end is acknowledged. -/
def drainLoop (terms : SendTerms) (z : Packet) : Nat → Nat → List OutstandingPacket → Sending Unit
  | 0, _, _ => Fallible.fail .waiting
  | turns + 1, attempts, outstanding => do
    let answer ← readAnswer
    match answer.reading with
    | .packet p =>
      if p.kind = typeError then giveUp (peerError p.payload)
      else if p.kind = typeAck ∧ p.seq = z.seq then pure ()
      else if p.kind = typeNak ∧ p.seq = z.seq then
        if attempts + 1 > terms.maxRetries then
          giveUp ("Kermit: too many NAKs for Z-packet seq " ++ showSeq z.seq ++ " (stream)")
        else do
          write terms.session.chkt z
          drainLoop terms z turns (attempts + 1) outstanding
      else do
        let outstanding ← handleStreamingResponse terms outstanding p
        drainLoop terms z turns attempts outstanding
    | .cancelled error => giveUp error
    | .aborted error => giveUp error
    | .failed error =>
      if error = peerClosed then giveUp error
      else if answer.endOverdue && decide (attempts + 1 > terms.maxRetries) then
        giveUp ("Kermit: too many timeouts for Z-packet seq " ++ showSeq z.seq ++ " (stream)")
      else do
        if answer.endOverdue then write terms.session.chkt z else pure ()
        let outstanding ← resendAll terms
          (fun o => "Kermit: too many timeouts for D-packet seq " ++ showSeq o.seq ++ " (stream)")
          (overdueAlone outstanding answer.overdue) outstanding
        drainLoop terms z turns (if answer.endOverdue then attempts + 1 else attempts) outstanding

/-- `send_d_and_z_streaming`. -/
def sendStreaming (terms : SendTerms) (chunks : Chunks) (seq : UInt8) : Sending UInt8 := do
  let (next, outstanding) ← pushChunks terms.session chunks seq []
  let z := Packet.empty typeEof next
  write terms.session.chkt z
  let turns ← turnsLeft
  drainLoop terms z turns 0 outstanding
  pure (nextSeq next)

/-! ## Files -/

/-- The header of a file. -/
def sendHeader (terms : SendTerms) (seq : UInt8) (f : SendFile) : Sending (List UInt8) :=
  inContext "F-packet" (sendAndAwaitAck terms.maxRetries terms.session.chkt
    ⟨if terms.textResponse then typeText else typeFile, seq, f.name.toUtf8⟩ false)

/-- The attributes of a file, and the offset its receiver asks to resume from. -/
def sendAttributes (terms : SendTerms) (seq : UInt8) (f : SendFile) : Sending Nat := do
  let payload := terms.session.quoting.encodeData f.attributes
  Fallible.given ((checkEncodedFits payload terms.session).mapError .failed)
  let ack ← inContext "A-packet" (sendAndAwaitAck terms.maxRetries terms.session.chkt
    ⟨typeAttribute, seq, payload⟩ false)
  pure (resumeFrom terms.session.quoting ack f.data.length)

/-- The chunks of a file from an offset. -/
def SendFile.chunksFrom (f : SendFile) (session : Capabilities) (offset : Nat) : Chunks :=
  (f.data.drop offset).toChunks (chunkSize session)

/-- The data of a file and its end. -/
def sendData (terms : SendTerms) (seq : UInt8) (chunks : Chunks) : Sending UInt8 :=
  if terms.session.streaming then inContext "D/Z stream" (sendStreaming terms chunks seq)
  else do
    let seq ← if 1 < terms.session.window then inContext "D-packet" (sendWindowed terms chunks seq)
      else sendChunks terms chunks seq
    let _ ← inContext "Z-packet" (sendAndAwaitAck terms.maxRetries terms.session.chkt
      (.empty typeEof seq) false)
    pure (nextSeq seq)

/-- One file. -/
def sendFile (terms : SendTerms) (seq : UInt8) (f : SendFile) : Sending UInt8 := do
  let _ ← sendHeader terms seq f
  let seq := nextSeq seq
  if terms.session.attributePackets && !terms.textResponse then do
    let offset ← sendAttributes terms seq f
    sendData terms (nextSeq seq) (f.chunksFrom terms.session offset)
  else sendData terms seq (f.chunksFrom terms.session 0)

/-- The files, one after the other. -/
def sendFiles (terms : SendTerms) : List SendFile → UInt8 → Sending UInt8
  | [], seq => pure seq
  | f :: files, seq => do
    let seq ← sendFile terms seq f
    sendFiles terms files seq

/-- The part of `kermit_send_impl` that follows its Send-Init. -/
def transfer (terms : SendTerms) (files : List SendFile) (seq : UInt8) : Sending Unit := do
  let seq ← sendFiles terms files seq
  let _ ← inContext "B-packet" (sendAndAwaitAck terms.maxRetries terms.session.chkt
    (.empty typeEot seq) false)
  pure ()

/-! ## The Send-Init -/

/-- `KERMIT_SEND_INIT_ATTEMPT_MS`. -/
def sendInitAttemptMs : Nat := 5000

/-- `send_init_attempts_for`. -/
def sendInitAttemptsFor (windowSecs least : Nat) : Nat :=
  max (max (min (windowSecs * 1000) (2 ^ 64 - 1) / sendInitAttemptMs % 2 ^ 32) least) 1

/-- What `kermit_send_impl` is called with, besides the files. -/
structure SendRequest where
  startingSeq : UInt8
  textResponse : Bool
  waitForReceiver : Bool
  /-- `kermit_negotiation_timeout`. -/
  negotiationTimeout : Nat

/-- `wait_for_initiating_nak`. -/
def waitForInitiatingNak : Sending Unit := do
  let answer ← readAnswer
  match answer.reading with
  | .cancelled error => giveUp error
  | .aborted error => giveUp error
  | _ => pure ()

/-- The Send-Init of a proposal. -/
def sendInit (maxRetries : Nat) (seq : UInt8) (ours : Capabilities) : Sending (List UInt8) :=
  sendAndAwaitAck maxRetries 0x31 ⟨typeSendInit, seq, buildSendInitPayload ours⟩ true

/-- The Send-Init, with what was proposed: to a peer that does not answer, the defaults are. -/
def negotiate (maxRetries : Nat) (request : SendRequest) (seq : UInt8) (ours : Capabilities) :
    Sending (Capabilities × List UInt8) := do
  match ← Fallible.attempt (sendInit maxRetries seq ours) with
  | .ok payload => pure (ours, payload)
  | .error .waiting => Fallible.fail .waiting
  | .error (.failed reason) =>
    if "Kermit: too many timeouts".toList.isPrefixOf reason.toList then do
      let payload ← inContext "Send-Init (classic)" (sendInit
        (sendInitAttemptsFor request.negotiationTimeout maxRetries) seq .default)
      pure (.default, payload)
    else giveUp (wrapSendErr "Send-Init" reason)

/-- The opening of `kermit_send_impl`, up to the answer of its Send-Init. -/
def opening (config : KermitConfig) (request : SendRequest) (files : List SendFile) :
    Sending (Capabilities × List UInt8) := do
  if files.isEmpty then giveUp "Kermit: no files to send"
  else
    match files.find? fun f => decide (f.data.length > maxFileSize) with
    | some f =>
      giveUp ("Kermit: file '" ++ String.ofList f.name ++ "' exceeds " ++ toString maxFileSize ++
        " byte cap")
    | none => do
      if request.waitForReceiver then waitForInitiatingNak else pure ()
      negotiate config.maxRetries request (request.startingSeq &&& 0x3F) (configCapabilities config)

/-- The terms that two sets of capabilities lead to. -/
def termsOf (config : KermitConfig) (request : SendRequest) (ours theirs : Capabilities) :
    SendTerms :=
  ⟨intersectCapabilities ours theirs, config.maxRetries, request.textResponse⟩

/-- `kermit_send_impl`. -/
def kermitSendImpl (config : KermitConfig) (request : SendRequest) (files : List SendFile) :
    Sending Unit := do
  let (ours, payload) ← opening config request files
  transfer (termsOf config request ours (parseSendInitPayload payload)) files
    (nextSeq (request.startingSeq &&& 0x3F))

end EthernetGateway.Kermit
