import EthernetGateway.Transfer.Zmodem
import EthernetGateway.Stepping

/-!
# A ZMODEM receiver

`receive_into` with `receive_one_file`, one read of a header or of a subpacket to a step. Between
two files it counts damaged headers and frames that bring no file, in a file it counts errors and
empty subpackets; each count is cleared by progress of its own kind.
-/

namespace EthernetGateway.Transfer.Zmodem

open EthernetGateway.Stepping

/-- `ZmodemReceive`. -/
structure ZmodemReceive where
  filename : List UInt8
  data : List UInt8
  modtime : Option Nat
  mode : Option Nat

/-- What the receiver sends. -/
inductive Reply where
  | zrinit
  | znak
  | zack (position : Nat)
  | zrpos (position : Nat)
  | zskip
  | zcompl (status : Nat)
  | zfin
  | cancel

/-- A file in its data phase. -/
structure Incoming where
  info : ZfileInfo
  data : List UInt8
  expectedPos : Nat
  errors : Nat
  emptySubpackets : Nat
  eofIgnored : Bool

/-- The read the receiver is at. -/
inductive Phase where
  /-- The header of the next file. -/
  | between
  /-- The Attn sequence of a ZSINIT. -/
  | attention (crc : CrcKind)
  /-- The command of a ZCOMMAND. -/
  | command (crc : CrcKind)
  /-- The text of a ZSTDERR. -/
  | message (crc : CrcKind)
  /-- The information of a ZFILE. -/
  | info (crc : CrcKind) (zfileErrors : Nat)
  /-- The header of a ZFILE asked for again. -/
  | retransmit (crc : CrcKind) (zfileErrors : Nat)
  /-- A header of the data phase. -/
  | header (file : Incoming)
  /-- A subpacket of a ZDATA. -/
  | body (crc : CrcKind) (file : Incoming)

/-- The state of a receiver. -/
structure Session where
  zfileSeen : Nat
  interFileHeaderErrors : Nat
  progresslessFrames : Nat
  files : List ZmodemReceive
  sent : List Reply
  phase : Phase

/-- A receiver that has returned. -/
structure BatchReceipt where
  session : Session
  outcome : Outcome

/-- A receiver that has sent its first ZRINIT. -/
def Session.start : Session := ⟨0, 0, 0, [], [.zrinit], .between⟩

/-- A reply goes out. -/
def Session.reply (session : Session) (reply : Reply) : Session :=
  { session with sent := session.sent ++ [reply] }

/-- The receiver goes on to a read. -/
def Session.toPhase (session : Session) (phase : Phase) : Progress Session BatchReceipt :=
  .next { session with phase := phase }

/-- The receiver gives an error. -/
def Session.fail (session : Session) (error : String) : Progress Session BatchReceipt :=
  .returned ⟨session, .failed error⟩

/-- The receiver cancels and gives an error. -/
def Session.cancel (session : Session) (error : String) : Progress Session BatchReceipt :=
  (session.reply .cancel).fail error

/-- The batch is over. -/
def Session.finish (session : Session) : Progress Session BatchReceipt :=
  if session.zfileSeen = 0 then session.fail "ZMODEM: session ended with no files received"
  else .returned ⟨session, .complete⟩

/-! ## Between files -/

/-- What a header between files asks for. -/
def Session.answer (session : Session) (header : Header) : Progress Session BatchReceipt :=
  match header.kind with
  | .zrqinit => (session.reply .zrinit).toPhase .between
  | .zeof => (session.reply .zrinit).toPhase .between
  | .zfile =>
    let session := { session with progresslessFrames := 0 }
    if maxBatchFiles ≤ session.zfileSeen then
      session.cancel "ZMODEM batch exceeds file-count limit"
    else { session with zfileSeen := session.zfileSeen + 1 }.toPhase (.info header.crcKind 0)
  | .zfin => (session.reply .zfin).finish
  | .zabort => session.fail "ZMODEM: sender aborted"
  | .zferr => session.fail "ZMODEM: sender reported a file I/O error (ZFERR)"
  | .zsinit => session.toPhase (.attention header.crcKind)
  | .zfreecnt => (session.reply (.zack zfreecntReply)).toPhase .between
  | .zcommand => session.toPhase (.command header.crcKind)
  | .zstderr => session.toPhase (.message header.crcKind)
  | _ => session.toPhase .between

/-- The counts with one more frame that may bring no file. -/
def Session.count (session : Session) : Session :=
  { session with
    interFileHeaderErrors := 0
    progresslessFrames := saturated (session.progresslessFrames + 1) }

/-- A header arrived between files. -/
def Session.onHeader (retries : Nat) (session : Session) (header : Header) :
    Progress Session BatchReceipt :=
  if saturated (2 * retries) < session.count.progresslessFrames then
    session.count.cancel "ZMODEM: too many control frames without a ZFILE/ZFIN from sender"
  else session.count.answer header

/-- A read between files. -/
def Session.readBetween (retries : Nat) (session : Session) (reading : HeaderReading)
    (expired : Bool) : Progress Session BatchReceipt :=
  match reading with
  | .got header => session.onHeader retries header
  | .gone error => session.fail error
  | .damaged _ =>
    if session.zfileSeen = 0 then
      if expired then session.cancel "ZMODEM: no ZFILE received from sender"
      else (session.reply .zrinit).toPhase .between
    else
      let errors := saturated (session.interFileHeaderErrors + 1)
      if retries < errors then
        { session with interFileHeaderErrors := errors }.cancel
          ("ZMODEM: " ++ toString errors ++ " consecutive inter-file header errors, aborting")
      else ({ session with interFileHeaderErrors := errors }.reply .znak).toPhase .between
  | .late =>
    if session.zfileSeen = 0 then
      if expired then session.cancel "ZMODEM: no ZFILE received from sender"
      else (session.reply .zrinit).toPhase .between
    else session.finish

/-- The Attn sequence of a ZSINIT was read. -/
def Session.readAttention (session : Session) (reading : SubpacketReading) :
    Progress Session BatchReceipt :=
  match reading with
  | .gone error => session.fail error
  | _ => (session.reply (.zack 0)).toPhase .between

/-- The command of a ZCOMMAND was read, and is refused. -/
def Session.readCommand (session : Session) (reading : SubpacketReading) :
    Progress Session BatchReceipt :=
  match reading with
  | .gone error => session.fail error
  | _ =>
    (session.reply (.zcompl 1)).fail "ZMODEM: refused remote command request (ZCOMMAND)"

/-- The text of a ZSTDERR was read. -/
def Session.readMessage (session : Session) (reading : SubpacketReading) :
    Progress Session BatchReceipt :=
  match reading with
  | .gone error => session.fail error
  | _ => session.toPhase .between

/-! ## The information of a file -/

/-- The information of a file was read. -/
def Session.offer (decide : Nat → List UInt8 → Option Nat → Bool) (session : Session)
    (data : List UInt8) : Progress Session BatchReceipt :=
  match parseZfileInfo data with
  | .error error => session.fail error
  | .ok info =>
    -- the index of the file is the count of the ZFILEs before it
    if decide (session.zfileSeen - 1) info.filename info.length then
      if info.length.any fun size => maxFileSize < size then
        (session.reply .zskip).toPhase .between
      else (session.reply (.zrpos 0)).toPhase (.header ⟨info, [], 0, 0, 0, false⟩)
    else (session.reply .zskip).toPhase .between

/-- One more error of a ZFILE, which ends the session when the budget is used up. -/
def Session.countZfileError (retries : Nat) (session : Session) (zfileErrors : Nat) (what : String)
    (within : Nat → Session) : Progress Session BatchReceipt :=
  let errors := saturated (zfileErrors + 1)
  if retries < errors then
    session.cancel ("ZMODEM: " ++ toString errors ++ " " ++ what ++ ", aborting")
  else .next (within errors)

/-- The information of a file is read. -/
def Session.readInfo (retries : Nat) (decide : Nat → List UInt8 → Option Nat → Bool)
    (session : Session) (crc : CrcKind) (zfileErrors : Nat) (reading : SubpacketReading) :
    Progress Session BatchReceipt :=
  match reading with
  | .got subpacket => session.offer decide subpacket.data
  | .gone error => session.fail error
  | .damaged _ =>
    session.countZfileError retries zfileErrors "consecutive ZFILE info-subpacket errors"
      fun errors => { session.reply .znak with phase := .retransmit crc errors }

/-- The header of a ZFILE asked for again is read. -/
def Session.readRetransmit (retries : Nat) (session : Session) (crc : CrcKind) (zfileErrors : Nat)
    (reading : HeaderReading) : Progress Session BatchReceipt :=
  match reading with
  | .gone error => session.fail error
  | .got header =>
    match header.kind with
    | .zfile => session.toPhase (.info header.crcKind zfileErrors)
    | .zabort => session.fail "ZMODEM: sender aborted"
    | _ =>
      session.countZfileError retries zfileErrors "stray frames awaiting ZFILE retransmit"
        fun errors => { session with phase := .retransmit crc errors }
  | _ =>
    session.countZfileError retries zfileErrors "errors awaiting ZFILE retransmit"
      fun errors => { session.reply .znak with phase := .retransmit crc errors }

/-! ## The data of a file -/

/-- One more error of the data phase, which ends the session when the budget is used up. -/
def Session.countError (retries : Nat) (session : Session) (file : Incoming)
    (within : Incoming → Session) : Progress Session BatchReceipt :=
  let errors := file.errors + 1
  if 2 ^ 32 ≤ errors then .returned ⟨session, .panicked⟩
  else if retries < errors then
    session.cancel ("ZMODEM: too many errors during receive (" ++ toString errors ++ ")")
  else .next (within { file with errors := errors })

/-- `nak_or_abort`. -/
def Session.nakOrAbort (retries : Nat) (session : Session) (file : Incoming) :
    Progress Session BatchReceipt :=
  session.countError retries file fun file =>
    { session.reply (.zrpos file.expectedPos) with phase := .header file }

/-- The file as it is kept, no longer than its sender announced. -/
def Incoming.complete (file : Incoming) : ZmodemReceive :=
  { filename := file.info.filename
    data := file.info.length.elim file.data fun size => file.data.take size
    modtime := file.info.modtime
    mode := file.info.mode }

/-- A header of the data phase is read. -/
def Session.readHeader (retries : Nat) (session : Session) (file : Incoming)
    (reading : HeaderReading) : Progress Session BatchReceipt :=
  match reading with
  | .gone error => session.fail error
  | .damaged _ => session.nakOrAbort retries file
  | .late => session.nakOrAbort retries file
  | .got header =>
    match header.kind with
    | .zdata =>
      if header.position ≠ file.expectedPos then session.nakOrAbort retries file
      else session.toPhase (.body header.crcKind file)
    | .zeof =>
      if header.position ≠ file.data.length then
        if file.eofIgnored then session.nakOrAbort retries { file with eofIgnored := false }
        else
          session.countError retries { file with eofIgnored := true } fun file =>
            { session with phase := .header file }
      else
        { session.reply .zrinit with files := session.files ++ [file.complete] }.toPhase .between
    | .zrqinit =>
      session.countError retries file fun file =>
        { session.reply .zrinit with phase := .header file }
    | .zabort => session.fail "ZMODEM: sender aborted"
    | _ => session.nakOrAbort retries file

/-- The file with a good subpacket. -/
def Incoming.extend (file : Incoming) (data : List UInt8) : Incoming :=
  { file with
    data := file.data ++ data
    expectedPos := saturated (file.expectedPos + data.length)
    errors := 0
    emptySubpackets := if data = [] then file.emptySubpackets + 1 else 0
    eofIgnored := if data = [] then file.eofIgnored else false }

/-- A subpacket of a ZDATA is read. -/
def Session.readBody (retries : Nat) (session : Session) (crc : CrcKind) (file : Incoming)
    (reading : SubpacketReading) : Progress Session BatchReceipt :=
  match reading with
  | .gone error => session.fail error
  | .damaged _ => session.nakOrAbort retries file
  | .got subpacket =>
    let file := file.extend subpacket.data
    if maxEmptySubpackets < file.emptySubpackets then
      session.cancel "ZMODEM: too many empty subpackets (no forward progress)"
    else if maxFileSize < file.data.length then
      session.cancel "ZMODEM: file exceeds size limit"
    else
      match subpacket.endMarker with
      | .zcrcg => session.toPhase (.body crc file)
      | .zcrcq => (session.reply (.zack file.expectedPos)).toPhase (.body crc file)
      | .zcrcw => (session.reply (.zack file.expectedPos)).toPhase (.header file)
      | .zcrce => session.toPhase (.header file)

/-! ## A read -/

/-- One read of a receiver with a retry limit and a callback that decides on each file. -/
def step (retries : Nat) (decide : Nat → List UInt8 → Option Nat → Bool) (session : Session)
    (arrival : Arrival) : Progress Session BatchReceipt :=
  match session.phase with
  | .between => session.readBetween retries arrival.header arrival.expired
  | .attention crc => session.readAttention (arrival.subpacket crc zattnLen)
  | .command crc => session.readCommand (arrival.subpacket crc maxSubpacketData)
  | .message crc => session.readMessage (arrival.subpacket crc maxSubpacketData)
  | .info crc errors =>
    session.readInfo retries decide crc errors (arrival.subpacket crc maxSubpacketData)
  | .retransmit crc errors => session.readRetransmit retries crc errors arrival.header
  | .header file => session.readHeader retries file arrival.header
  | .body crc file => session.readBody retries crc file (arrival.subpacket crc maxSubpacketData)

end EthernetGateway.Transfer.Zmodem
