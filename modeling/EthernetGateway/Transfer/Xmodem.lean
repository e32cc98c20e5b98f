import EthernetGateway.Text
import EthernetGateway.Transfer.Line

/-!
# Receiving by XMODEM and YMODEM

The main loop of the receiver, from the first data block on. It reads a start byte, then a block,
and answers each with ACK or NAK. An end of transmission is not believed at once: the first is
NAKed, and the file is closed when it comes again or when nothing answers. A YMODEM batch reads
the header of the next file after each file.
-/

namespace EthernetGateway.Transfer.Xmodem

/-! ## Constants -/

/-- `SOH`. -/
abbrev soh : UInt8 := 0x01

/-- `STX`. -/
abbrev stx : UInt8 := 0x02

/-- `EOT`. -/
abbrev eot : UInt8 := 0x04

/-- `ACK`. -/
abbrev ack : UInt8 := 0x06

/-- `NAK`. -/
abbrev nak : UInt8 := 0x15

/-- `CAN`. -/
abbrev can : UInt8 := 0x18

/-- `SUB`. -/
abbrev sub : UInt8 := 0x1A

/-- `CRC_REQUEST`. -/
abbrev crcRequest : UInt8 := 0x43

/-- `XMODEM_BLOCK_SIZE`. -/
def blockSize : Nat := 128

/-- `XMODEM_1K_BLOCK_SIZE`. -/
def blockSize1k : Nat := 1024

/-- `MAX_FILE_SIZE`. -/
def maxFileSize : Nat := 8 * 1024 * 1024

/-- `MAX_BATCH_FILES`. -/
def maxBatchFiles : Nat := 1000

/-- `BLOCK_BODY_TIMEOUT_SECS`. -/
def blockBodyTimeoutSecs : Nat := 60

/-- `PURGE_MAX_BYTES`. -/
def purgeMaxBytes : Nat := 2 * 1029

/-- `INTER_FILE_WAIT_SECS`. -/
def interFileWaitSecs : Nat := 10

/-! ## Blocks -/

/-- `TransferMode`. -/
inductive TransferMode where
  | checksum
  | crc16
  deriving DecidableEq

/-- How `receive_block` ends, for the loop that calls it. -/
inductive BlockResult where
  | accepted (data : List UInt8)
  | duplicate
  | mismatch
  | damaged

/-- The bytes of the trailer of a block. -/
def TransferMode.trailer : TransferMode → Nat
  | .checksum => 1
  | .crc16 => 2

/-- Whether a trailer is the one the data of a block asks for. -/
def TransferMode.valid (mode : TransferMode) (data trailer : List UInt8) : Bool :=
  match mode, trailer with
  | .checksum, [sum] => sum == data.foldl (· + ·) 0
  | .crc16, [high, low] => (high.toUInt16 <<< 8) ||| low.toUInt16 == Transfer.crc16 data
  | _, _ => false

/-- The checks of `receive_block_body` on a block that has been read whole. -/
def checkBlock (expected : UInt8) (mode : TransferMode) (number complement : UInt8)
    (data trailer : List UInt8) : BlockResult :=
  if complement ≠ ~~~number then .damaged
  else if !mode.valid data trailer then .damaged
  else if number = expected - 1 ∨ number = expected - 2 then .duplicate
  else if number ≠ expected then .mismatch
  else .accepted data

/-- `receive_block` under the deadline of a block body. A block that does not arrive in time, or
whose line fails, is damaged as far as the loop is concerned. -/
def receiveBlock (expected : UInt8) (mode : TransferMode) (size : Nat) (line : Line) :
    BlockResult × Line :=
  match line.readMany (blockBodyTimeoutSecs * 1000) (2 + size + mode.trailer) with
  | (.got (number :: complement :: rest), _, line) =>
    (checkBlock expected mode number complement (rest.take size) (rest.drop size), line)
  | (_, _, line) => (.damaged, line)

/-- `purge_line`: drain until a second of silence, for at most some bytes and a minute. It ends
in error on a line that failed or a long run of CANs, else answers whether it ended on a short
one. -/
def purgeFrom (elapsed trailing : Nat) (line : Line) : Nat → Except String Bool × Line
  | 0 => (.ok false, line)
  | budget + 1 =>
    if 60000 ≤ elapsed then (.ok false, line)
    else
      match line.read 1000 with
      | (.got value, left, line) =>
        let trailing :=
          if value = can then trailing + 1
          else if value = 0x08 ∧ 2 ≤ trailing then trailing else 0
        purgeFrom (elapsed + (1000 - left)) trailing line budget
      | (.failed reason, _, line) => (.error reason, line)
      | (.timedOut, _, line) =>
        if 4 ≤ trailing then (.error "Transfer cancelled by sender", line)
        else (.ok (decide (2 ≤ trailing)), line)

/-- `purge_line`. -/
def purgeLine (line : Line) : Except String Bool × Line := purgeFrom 0 0 line purgeMaxBytes

/-! ## Block 0 -/

/-- `YmodemReceiveMeta`. -/
structure Meta where
  size : Option Nat
  modtime : Option Nat
  mode : Option Nat
  deriving DecidableEq

/-- `std::str::from_utf8`. -/
def fromUtf8 (bytes : List UInt8) : Option Text :=
  (String.fromUTF8? (ByteArray.mk bytes.toArray)).map String.toList

/-- `str::split_ascii_whitespace`. -/
def splitAsciiWhitespace (text : Text) : List Text :=
  (text.splitBy fun left right => isBlank left = isBlank right).filter fun part =>
    !(part.head?.any isBlank)
where
  /-- `char::is_ascii_whitespace`. -/
  isBlank (c : Char) : Bool :=
    c.toNat = 0x20 || c.toNat = 0x09 || c.toNat = 0x0A || c.toNat = 0x0C || c.toNat = 0x0D

/-- `from_str_radix` with radix eight, for an unsigned type with values below a bound. -/
def parseOctal (bound : Nat) (text : Text) : Option Nat :=
  let number := if text.head? = some '+' then text.tail else text
  let value := number.foldl (fun value c => value * 8 + (c.toNat - 48)) 0
  if number ≠ [] ∧ (number.all fun c => 48 ≤ c.toNat && c.toNat ≤ 55) ∧ value < bound then
    some value
  else none

/-- `parse_ymodem_block_zero_payload`. -/
def parseBlockZero (payload : List UInt8) : Option Meta :=
  match payload.findIdx? (· == 0) with
  | none => none
  | some 0 => none
  | some nameEnd =>
    let after := payload.drop (nameEnd + 1)
    match after.findIdx? (· == 0) with
    | none => some ⟨none, none, none⟩
    | some fieldsEnd =>
      match fromUtf8 (after.take fieldsEnd) with
      | none => some ⟨none, none, none⟩
      | some text =>
        let fields := splitAsciiWhitespace text
        some
          { size := (fields[0]?).bind (Text.parseUnsigned (2 ^ 64))
            modtime := ((fields[1]?).bind (parseOctal (2 ^ 64))).filter fun n => decide (n ≠ 0)
            mode := (((fields[2]?).bind (parseOctal (2 ^ 32))).filter fun n =>
              decide (n ≠ 0)).map fun n => n % 4096 }

/-- The filename of a block 0: its bytes up to the first zero, when they are UTF-8. -/
def blockZeroName (payload : List UInt8) : Option Text :=
  ((payload.findIdx? (· == 0)).filter fun n => decide (n > 0)).bind fun n =>
    fromUtf8 (payload.take n)

/-- `InterFileBlock0`. -/
inductive InterFile where
  | file (name : Option Text) (info : Option Meta)
  | terminator
  | invalid
  | notBlock0

/-- The body of a block 0, always under CRC-16. -/
def readBlockZeroBody (size limit : Nat) (line : Line) : Reading InterFile × Nat × Line :=
  Reading.andThen (line.readMany limit (size + 2)) fun bytes left line =>
    let payload := bytes.take size
    (.got (if !TransferMode.crc16.valid payload (bytes.drop size) then .invalid
      else if payload.head? = some 0 then .terminator
      else .file (blockZeroName payload) (parseBlockZero payload)), left, line)

/-- One attempt to read the block 0 between two files. -/
def readInterFile (limit : Nat) (line : Line) : Reading InterFile × Nat × Line :=
  Reading.andThen (line.read limit) fun start left line =>
    if start ≠ soh ∧ start ≠ stx then (.got .notBlock0, left, line)
    else
      Reading.andThen (line.readMany left 2) fun header left line =>
        if header ≠ [0, 0xFF] then (.got .invalid, left, line)
        else readBlockZeroBody (if start = stx then blockSize1k else blockSize) left line

/-- The loop over the attempts, with the NAKs it sends. -/
def awaitInterFile (limit : Nat) (line : Line) : Nat → InterFile × List UInt8 × Line
  | 0 =>
    match readInterFile limit line with
    | (.got .invalid, _, line) => (.notBlock0, [], line)
    | (.got found, _, line) => (found, [], line)
    | (_, _, line) => (.notBlock0, [], line)
  | retries + 1 =>
    match readInterFile limit line with
    | (.got .invalid, _, line) =>
      let (found, sent, line) := awaitInterFile limit line retries
      (found, nak :: sent, line)
    | (.got found, _, line) => (found, [], line)
    | (_, _, line) => (.notBlock0, [], line)

/-! ## The loop -/

/-- `XmodemReceivedFile`. -/
structure ReceivedFile where
  filename : Option Text
  data : List UInt8
  info : Option Meta

/-- `finalize_received_file`: cut to the declared size, else without the padding. -/
def finalizeReceivedFile (data : List UInt8) (info : Option Meta) : List UInt8 :=
  match info.bind Meta.size with
  | some size => if size ≤ data.length then data.take size else data.rdropWhile (· == sub)
  | none => data.rdropWhile (· == sub)

/-- The two settings the loop reads. -/
structure Config where
  /-- `xmodem_block_timeout`, in seconds. -/
  blockTimeout : Nat
  /-- `xmodem_max_retries`. -/
  maxRetries : Nat

/-- The variables of the main loop of `receive_batch_into`, with what has been written. -/
structure Receiver where
  fileData : List UInt8
  expectedBlock : UInt8
  mode : TransferMode
  ymodemMode : Bool
  ymodemMeta : Option Meta
  currentFilename : Option Text
  files : List ReceivedFile
  errorCount : Nat
  eotNaked : Bool
  awaitingEotConfirm : Bool
  shortCancelSeen : Bool
  pendingCan : Bool
  line : Line
  sent : List UInt8

/-- How a file comes to be closed. -/
inductive Closing where
  /-- An end of transmission was read. -/
  | eot
  /-- None was: a timeout was taken for one. -/
  | silence
  deriving DecidableEq

/-- What one turn of the loop was about. -/
inductive Event where
  /-- A new block was accepted. -/
  | accepted
  /-- A block already accepted came again. -/
  | duplicate
  /-- A block arrived damaged, or only in part. -/
  | damaged
  /-- A byte arrived that starts nothing. -/
  | stray
  /-- A lone CAN arrived. -/
  | lone
  /-- An end of transmission was NAKed. -/
  | naked
  /-- Nothing arrived in time, and the sender was asked again. -/
  | silent
  /-- The file was closed as complete. Guarded: in plain XMODEM, or more than 254 bytes short. -/
  | closed (how : Closing) (guarded : Bool)
  /-- The transfer was given up. -/
  | gaveUp
  deriving DecidableEq

/-- How one turn of the loop ends. -/
inductive Outcome where
  | next (receiver : Receiver)
  | finished (receiver : Receiver)
  | failed (reason : String) (receiver : Receiver)

namespace Receiver

/-- Bytes written to the peer. -/
def send (receiver : Receiver) (bytes : List UInt8) : Receiver :=
  { receiver with sent := receiver.sent ++ bytes }

/-- A failure announced with three CANs. -/
def cancel (receiver : Receiver) (reason : String) : Event × Outcome :=
  (.gaveUp, .failed reason (receiver.send [can, can, can]))

/-- Whether a YMODEM file is more than 254 bytes short of its declared size. -/
def short (receiver : Receiver) : Bool :=
  receiver.ymodemMode &&
    (receiver.ymodemMeta.bind Meta.size).any fun size =>
      decide (size - receiver.fileData.length > 254)

/-- Whether an end of transmission is to be verified. -/
def guarded (receiver : Receiver) : Bool := !receiver.ymodemMode || receiver.short

/-- A purge followed by a NAK: the end of the arms for a damaged block and for a stray byte. -/
def purgeAndNak (receiver : Receiver) (event : Event) : Event × Outcome :=
  match purgeLine receiver.line with
  | (.error reason, line) => (.gaveUp, .failed reason { receiver with line })
  | (.ok tail, line) =>
    (event, .next ({ receiver with line, shortCancelSeen := tail }.send [nak]))

/-- The arm for a start of a block. -/
def block (config : Config) (receiver : Receiver) (size : Nat) : Event × Outcome :=
  match receiveBlock receiver.expectedBlock receiver.mode size receiver.line with
  | (.accepted data, line) =>
    let receiver := { receiver with line, expectedBlock := receiver.expectedBlock + 1 }
    if receiver.fileData.length + data.length > maxFileSize then
      receiver.cancel "File exceeds 8 MB size limit"
    else
      (.accepted, .next ({ receiver with
        fileData := receiver.fileData ++ data
        errorCount := 0
        eotNaked := false
        awaitingEotConfirm := false }.send [ack]))
  | (.duplicate, line) =>
    (.duplicate, .next ({ receiver with line, awaitingEotConfirm := false }.send [ack]))
  | (.mismatch, line) => { receiver with line }.cancel "Block sequence error"
  | (.damaged, line) =>
    let receiver := { receiver with line, errorCount := receiver.errorCount + 1 }
    if receiver.errorCount > config.maxRetries then receiver.cancel "Too many block errors"
    else receiver.purgeAndNak .damaged

/-- The receiver once the file is recorded. -/
def record (receiver : Receiver) : Receiver :=
  { receiver with
    files := receiver.files ++ [⟨receiver.currentFilename,
      finalizeReceivedFile receiver.fileData receiver.ymodemMeta, receiver.ymodemMeta⟩]
    fileData := []
    ymodemMeta := none
    currentFilename := none }

/-- What follows a closed file of a YMODEM batch. -/
def interFile (config : Config) (receiver : Receiver) : Outcome :=
  let receiver := receiver.send [crcRequest]
  let (found, sent, line) := awaitInterFile
    (min config.blockTimeout interFileWaitSecs * 1000) receiver.line config.maxRetries
  let receiver := { receiver with line }.send sent
  match found with
  | .file name info =>
    if receiver.files.length ≥ maxBatchFiles then
      .failed "YMODEM batch exceeds file-count limit" (receiver.send [can, can, can])
    else
      .next ({ receiver with
        currentFilename := name
        ymodemMeta := info
        expectedBlock := 1
        errorCount := 0
        eotNaked := false
        awaitingEotConfirm := false }.send [ack, crcRequest])
  | .terminator => .finished (receiver.send [ack])
  | _ => .finished receiver

/-- The arm for an end of transmission, read or taken from silence. -/
def endOfFile (config : Config) (receiver : Receiver) (how : Closing) : Event × Outcome :=
  if receiver.guarded && !receiver.eotNaked then
    (.naked, .next ({ receiver with eotNaked := true, awaitingEotConfirm := true }.send [nak]))
  else
    let guarded := receiver.guarded
    let receiver := (receiver.send [ack]).record
    (.closed how guarded,
      if receiver.ymodemMode then receiver.interFile config else .finished receiver)

/-- The arm for a byte that starts nothing. -/
def strayByte (config : Config) (receiver : Receiver) : Event × Outcome :=
  let receiver :=
    { receiver with
      eotNaked := false, awaitingEotConfirm := false, errorCount := receiver.errorCount + 1 }
  if receiver.errorCount > config.maxRetries then receiver.cancel "Too many block errors"
  else receiver.purgeAndNak .stray

/-- The arm for a timeout. -/
def timeout (config : Config) (receiver : Receiver) : Event × Outcome :=
  if receiver.awaitingEotConfirm && !receiver.fileData.isEmpty then
    { receiver with shortCancelSeen := false, pendingCan := false }.endOfFile config .silence
  else if receiver.shortCancelSeen then
    { receiver with shortCancelSeen := false }.cancel "Transfer cancelled by sender"
  else
    let receiver := { receiver with errorCount := receiver.errorCount + 1 }
    if receiver.errorCount > config.maxRetries then
      receiver.cancel "Transfer timeout: no data after retries"
    else (.silent, .next (receiver.send [nak]))

/-- A byte read at the top of the loop. -/
def take (config : Config) (receiver : Receiver) (byte : UInt8) : Event × Outcome :=
  let receiver := { receiver with shortCancelSeen := false }
  if byte = can ∧ receiver.pendingCan then
    (.gaveUp, .failed "Transfer cancelled by sender" { receiver with pendingCan := false })
  else
    let receiver := { receiver with pendingCan := decide (byte = can) }
    if byte = soh then receiver.block config blockSize
    else if byte = stx then receiver.block config blockSize1k
    else if byte = eot then receiver.endOfFile config .eot
    else if byte = can then (.lone, .next receiver)
    else receiver.strayByte config

/-- One turn of the main loop. -/
def turn (config : Config) (receiver : Receiver) : Event × Outcome :=
  match receiver.line.read (config.blockTimeout * 1000) with
  | (.got byte, _, line) => { receiver with line }.take config byte
  | (.failed reason, _, line) => (.gaveUp, .failed reason { receiver with line })
  | (.timedOut, _, line) => { receiver with line }.timeout config

/-- What the turns of the loop are about, as far as some number of them. -/
def run (config : Config) : Nat → Receiver → List Event
  | 0, _ => []
  | turns + 1, receiver =>
    match receiver.turn config with
    | (event, .next receiver) => event :: run config turns receiver
    | (event, _) => [event]

end Receiver

end EthernetGateway.Transfer.Xmodem
