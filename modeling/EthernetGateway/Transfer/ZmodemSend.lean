import EthernetGateway.Transfer.Zmodem
import EthernetGateway.Stepping

/-!
# A ZMODEM sender

`zmodem_send` from the receiver's ZRINIT on, one read of a header to a step: a file is offered until
the receiver asks for a position, its data goes out in subpackets that wait for their ZACKs, and its
end is announced until the next ZRINIT. Each wait has its budgets.
-/

namespace EthernetGateway.Transfer.Zmodem

open EthernetGateway.Stepping

/-- A file of a batch, whose length a position can hold, as `zmodem_send` checks up front. -/
structure SendFile where
  filename : List UInt8
  data : List UInt8
  fits : data.length < 2 ^ 32

/-- The information a ZFILE carries. -/
def SendFile.info (file : SendFile) : List UInt8 :=
  let length := (Text.ofNat file.data.length).map fun c => c.toNat.toUInt8
  file.filename ++ [0] ++ length ++ [32, 48, 32, 48, 32, 48, 32, 48, 32] ++ length ++ [0]

/-- What a session is given: the files, the ZRINIT of the receiver and the retry limit, which the
configuration keeps above zero. -/
structure Batch where
  files : List SendFile
  zrinit : Header
  retries : Nat
  retries_pos : 1 ≤ retries

/-- The window the receiver asked for in its ZRINIT. -/
def Batch.window (batch : Batch) : RxWindow :=
  .fromZrinit ((getElem batch.zrinit.data 0 Header.low_inside).toNat +
    256 * (getElem batch.zrinit.data 1 Header.high_inside).toNat)

/-- What the sender writes. -/
inductive Written where
  | zfile (info : List UInt8)
  | zcrc (value : UInt32)
  | zdata (position : Nat)
  | subpacket (data : List UInt8) (endMarker : EndMarker)
  | zeof (length : Nat)
  | zfin
  | overAndOut
  | cancel

/-- The header a sender waits for, with the counts of its budgets. -/
inductive Wait where
  /-- The answer to a ZFILE. -/
  | zrpos (zfileAttempts zrinitDrains zcrcAnswers : Nat)
  /-- The ZACK of a subpacket. -/
  | zack (pos zdataAttempts strayAcks zeofAttempts : Nat)
  /-- The answer to a ZEOF. -/
  | zrinit (zeofAttempts : Nat)

/-- The state of a sender: the file it is at, the files after it, and what it has written. -/
structure Sender where
  file : SendFile
  rest : List SendFile
  written : List Written
  wait : Wait

/-- A sender that has returned. -/
structure Report where
  written : List Written
  outcome : Outcome

/-- Something goes out. -/
def Sender.write (sender : Sender) (written : Written) : Sender :=
  { sender with written := sender.written ++ [written] }

/-- The sender waits for a header. -/
def Sender.toWait (sender : Sender) (wait : Wait) : Progress Sender Report :=
  .next { sender with wait := wait }

/-- The sender gives an error. -/
def Sender.fail (sender : Sender) (error : String) : Progress Sender Report :=
  .returned ⟨sender.written, .failed error⟩

/-- The sender cancels and gives an error. -/
def Sender.cancel (sender : Sender) (error : String) : Progress Sender Report :=
  (sender.write .cancel).fail error

/-- A count goes up by one. -/
def Sender.bump (sender : Sender) (count : Nat) (within : Nat → Progress Sender Report) :
    Progress Sender Report :=
  if 2 ^ 32 ≤ count + 1 then .returned ⟨sender.written, .panicked⟩ else within (count + 1)

/-- `retries_exhausted`. -/
def retriesExhausted (failures maxRetries : Nat) : Bool := maxRetries < failures

/-- The next file is offered for the first time. After the last, the ZFIN goes out; the wait for the
receiver's has a deadline, and whatever it reads the sender ends with its OO. -/
def openFile (written : List Written) : List SendFile → Progress Sender Report
  | [] => .returned ⟨written ++ [.zfin, .overAndOut], .complete⟩
  | file :: rest => .next ⟨file, rest, written ++ [.zfile file.info], .zrpos 1 0 0⟩

/-- A sender that has the receiver's ZRINIT. -/
def Batch.start (batch : Batch) : Progress Sender Report := openFile [] batch.files

/-- The ZFILE goes out, again. -/
def Sender.sendZfile (batch : Batch) (sender : Sender) (zfileAttempts zcrcAnswers : Nat) :
    Progress Sender Report :=
  if retriesExhausted zfileAttempts batch.retries then
    sender.cancel "ZMODEM: no ZRPOS from receiver"
  else
    sender.bump zfileAttempts fun attempts =>
      (sender.write (.zfile sender.file.info)).toWait (.zrpos attempts 0 zcrcAnswers)

/-- The ZEOF goes out. -/
def Sender.sendZeof (batch : Batch) (sender : Sender) (zeofAttempts : Nat) :
    Progress Sender Report :=
  if retriesExhausted zeofAttempts batch.retries then
    sender.cancel "ZMODEM: receiver did not acknowledge ZEOF"
  else
    sender.bump zeofAttempts fun attempts =>
      (sender.write (.zeof sender.file.data.length)).toWait (.zrinit attempts)

/-- The data of the subpacket at a position. -/
def Sender.chunk (batch : Batch) (sender : Sender) (pos : Nat) : List UInt8 :=
  (sender.file.data.drop pos).take batch.window.chunk

/-- The subpacket at a position goes out. The last one ends the run, and the ZEOF follows. -/
def Sender.sendChunk (batch : Batch) (sender : Sender) (pos zdataAttempts zeofAttempts : Nat) :
    Progress Sender Report :=
  let chunk := sender.chunk batch pos
  if pos + chunk.length = sender.file.data.length then
    (sender.write (.subpacket chunk .zcrce)).sendZeof batch zeofAttempts
  else
    (sender.write (.subpacket chunk batch.window.midFileMarker)).toWait
      (.zack pos zdataAttempts 0 zeofAttempts)

/-- `send_zdata_run`, up to its first wait. -/
def Sender.sendZdataRun (batch : Batch) (sender : Sender) (pos zdataAttempts zeofAttempts : Nat) :
    Progress Sender Report :=
  if sender.file.data.length ≤ pos then sender.sendZeof batch zeofAttempts
  else if retriesExhausted zdataAttempts batch.retries then
    sender.cancel "ZMODEM: too many retransmissions"
  else
    sender.bump zdataAttempts fun attempts =>
      (sender.write (.zdata pos)).sendChunk batch pos attempts zeofAttempts

/-- The answer to a ZFILE is read. -/
def Sender.readZrpos (batch : Batch) (sender : Sender)
    (zfileAttempts zrinitDrains zcrcAnswers : Nat) (reading : HeaderReading) :
    Progress Sender Report :=
  match reading with
  | .gone _ => sender.fail peerCancelError
  | .got header =>
    match header.kind with
    | .zrpos => sender.sendZdataRun batch (min header.position sender.file.data.length) 0 0
    | .zskip => openFile sender.written sender.rest
    | .zrinit =>
      sender.bump zrinitDrains fun drains =>
        if batch.retries < drains then sender.sendZfile batch zfileAttempts zcrcAnswers
        else sender.toWait (.zrpos zfileAttempts drains zcrcAnswers)
    | .zabort => sender.fail "ZMODEM: receiver aborted"
    | .zcrc =>
      sender.bump zcrcAnswers fun answers =>
        if batch.retries < answers then
          sender.cancel "ZMODEM: too many ZCRC requests from receiver"
        else
          let n :=
            if header.position = 0 ∨ sender.file.data.length < header.position then
              sender.file.data.length
            else header.position
          (sender.write (.zcrc (crc32 (sender.file.data.take n)))).toWait
            (.zrpos zfileAttempts zrinitDrains answers)
    | _ => sender.sendZfile batch zfileAttempts zcrcAnswers
  | _ => sender.sendZfile batch zfileAttempts zcrcAnswers

/-- The answer to a subpacket is read. -/
def Sender.readZack (batch : Batch) (sender : Sender)
    (pos zdataAttempts strayAcks zeofAttempts : Nat) (reading : HeaderReading) :
    Progress Sender Report :=
  match reading with
  | .gone _ => sender.fail peerCancelError
  | .got header =>
    match header.kind with
    | .zack =>
      let next := pos + (sender.chunk batch pos).length
      if header.position = next then
        -- a segment ends its frame, so that the next one is a run of its own
        if batch.window.segmented then sender.sendZdataRun batch next 0 zeofAttempts
        else sender.sendChunk batch next 0 zeofAttempts
      else
        sender.bump strayAcks fun strays =>
          if batch.retries < strays then sender.sendZdataRun batch pos zdataAttempts zeofAttempts
          else sender.toWait (.zack pos zdataAttempts strays zeofAttempts)
    | .zrpos =>
      sender.sendZdataRun batch (min header.position sender.file.data.length) zdataAttempts
        zeofAttempts
    | .zabort => sender.fail "ZMODEM: receiver aborted"
    | _ => sender.sendZdataRun batch pos zdataAttempts zeofAttempts
  | _ => sender.sendZdataRun batch pos zdataAttempts zeofAttempts

/-- The answer to a ZEOF is read. -/
def Sender.readZrinit (batch : Batch) (sender : Sender) (zeofAttempts : Nat)
    (reading : HeaderReading) : Progress Sender Report :=
  match reading with
  | .gone _ => sender.fail peerCancelError
  | .got header =>
    match header.kind with
    | .zrinit => openFile sender.written sender.rest
    | .zrpos =>
      sender.sendZdataRun batch (min header.position sender.file.data.length) 0 zeofAttempts
    | _ => sender.sendZeof batch zeofAttempts
  | _ => sender.sendZeof batch zeofAttempts

/-- One read of a sender. -/
def Sender.step (batch : Batch) (sender : Sender) (reading : HeaderReading) :
    Progress Sender Report :=
  match sender.wait with
  | .zrpos attempts drains answers => sender.readZrpos batch attempts drains answers reading
  | .zack pos attempts strays zeofAttempts =>
    sender.readZack batch pos attempts strays zeofAttempts reading
  | .zrinit attempts => sender.readZrinit batch attempts reading

end EthernetGateway.Transfer.Zmodem
