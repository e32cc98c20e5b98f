import EthernetGateway.Transfer.Xmodem

/-!
# ZMODEM frames

A frame is a header, a type and four bytes of data, that data subpackets may follow. What a session
sees of the line is what each of its reads comes to: a header or a subpacket, a damaged one, the end
of the session, or nothing in time.
-/

namespace EthernetGateway.Transfer.Zmodem

/-- The frame types. -/
inductive Frame where
  | zrqinit
  | zrinit
  | zsinit
  | zack
  | zfile
  | zskip
  | znak
  | zabort
  | zfin
  | zrpos
  | zdata
  | zeof
  | zferr
  | zcrc
  | zchallenge
  | zcompl
  | zcan
  | zfreecnt
  | zcommand
  | zstderr
  /-- A type the gateway has no name for. -/
  | unnamed (code : UInt8)

/-- The frame type a byte stands for. -/
def Frame.ofCode (code : UInt8) : Frame :=
  if code = 0x00 then .zrqinit
  else if code = 0x01 then .zrinit
  else if code = 0x02 then .zsinit
  else if code = 0x03 then .zack
  else if code = 0x04 then .zfile
  else if code = 0x05 then .zskip
  else if code = 0x06 then .znak
  else if code = 0x07 then .zabort
  else if code = 0x08 then .zfin
  else if code = 0x09 then .zrpos
  else if code = 0x0A then .zdata
  else if code = 0x0B then .zeof
  else if code = 0x0C then .zferr
  else if code = 0x0D then .zcrc
  else if code = 0x0E then .zchallenge
  else if code = 0x0F then .zcompl
  else if code = 0x10 then .zcan
  else if code = 0x11 then .zfreecnt
  else if code = 0x12 then .zcommand
  else if code = 0x13 then .zstderr
  else .unnamed code

/-- `CrcKind`: the width of the CRC of the subpackets that follow a header. -/
inductive CrcKind where
  | crc16
  | crc32
  deriving DecidableEq

/-- `ZHeader`. -/
structure Header where
  frame : UInt8
  data : Vector UInt8 4
  crcKind : CrcKind
  deriving DecidableEq

/-- The frame type of a header. -/
def Header.kind (header : Header) : Frame := Frame.ofCode header.frame

/-- `ZHeader::position`: the data as a number, the lowest byte first. -/
def Header.position (header : Header) : Nat :=
  header.data[0].toNat + 256 * header.data[1].toNat + 65536 * header.data[2].toNat +
    16777216 * header.data[3].toNat

/-- The low byte of a header's length is in its data. -/
theorem Header.low_inside : 0 < 4 := by decide

/-- The high byte of a header's length is in its data. -/
theorem Header.high_inside : 1 < 4 := by decide

/-- The ends of a data subpacket. -/
inductive EndMarker where
  /-- `ZCRCE`: the frame ends. -/
  | zcrce
  /-- `ZCRCG`: more data follows. -/
  | zcrcg
  /-- `ZCRCQ`: more data follows, and an answer is asked for. -/
  | zcrcq
  /-- `ZCRCW`: the frame ends, and an answer is asked for. -/
  | zcrcw
  deriving DecidableEq

/-- `Subpacket`. -/
structure Subpacket where
  data : List UInt8
  endMarker : EndMarker
  deriving DecidableEq

/-- What `read_header` under a deadline comes to. -/
inductive HeaderReading where
  | got (header : Header)
  /-- A read error other than the end of the session. -/
  | damaged (error : String)
  /-- The error of a peer that cancelled or hung up, as `is_peer_cancel` tells it. -/
  | gone (error : String)
  /-- The deadline passed. -/
  | late

/-- What `read_subpacket` comes to. -/
inductive SubpacketReading where
  | got (subpacket : Subpacket)
  | damaged (error : String)
  | gone (error : String)

/-- What is on the line for the next read: a header, or the subpacket that `read_subpacket` makes
of it for a CRC width and a size limit. It also tells if the negotiation deadline has passed. -/
structure Arrival where
  header : HeaderReading
  subpacket : CrcKind → Nat → SubpacketReading
  expired : Bool

/-- How a session ends. -/
inductive Outcome where
  | complete
  | failed (error : String)
  /-- An addition that overflows ends the task. -/
  | panicked

/-- `PEER_CANCEL_ERR`. -/
def peerCancelError : String := "ZMODEM: peer cancelled (CAN)"

/-- `SUBPACKET_DATA_SIZE`. -/
def subpacketDataSize : Nat := 1024

/-- `MIN_SUBPACKET_DATA_SIZE`. -/
def minSubpacketDataSize : Nat := 1

/-- `MAX_SUBPACKET_DATA`. -/
def maxSubpacketData : Nat := 8192

/-- `MAX_EMPTY_SUBPACKETS`. -/
def maxEmptySubpackets : Nat := 64

/-- `MAX_BATCH_FILES`. -/
def maxBatchFiles : Nat := 1000

/-- `MAX_FILE_SIZE`. -/
def maxFileSize : Nat := 8 * 1024 * 1024

/-- `ZFREECNT_REPLY`. -/
def zfreecntReply : Nat := 0x7FFFFFFF

/-- The longest Attn sequence of a ZSINIT. -/
def zattnLen : Nat := 32

/-- `saturating_add` and `saturating_mul` of `u32`: a number held at the largest one. -/
def saturated (n : Nat) : Nat := min n (2 ^ 32 - 1)

/-- One byte of `crc32`. -/
def crc32Byte (crc : UInt32) (byte : UInt8) : UInt32 :=
  (List.range 8).foldl
    (fun crc _ => if crc &&& 1 ≠ 0 then (crc >>> 1) ^^^ 0xEDB88320 else crc >>> 1)
    (crc ^^^ byte.toUInt32)

/-- `crc32`. -/
def crc32 (data : List UInt8) : UInt32 := ~~~ data.foldl crc32Byte 0xFFFFFFFF

/-- `RxWindow`: how the receiver's ZRINIT asks for its data. -/
structure RxWindow where
  /-- Data bytes of a subpacket. -/
  chunk : Nat
  /-- Each subpacket but the last ends its frame. -/
  segmented : Bool
  deriving DecidableEq

/-- `RxWindow::from_zrinit`. -/
def RxWindow.fromZrinit (bufferSize : Nat) : RxWindow :=
  if bufferSize = 0 then ⟨subpacketDataSize, false⟩
  else ⟨max minSubpacketDataSize (min bufferSize subpacketDataSize), true⟩

/-- `RxWindow::mid_file_marker`. -/
def RxWindow.midFileMarker (window : RxWindow) : EndMarker :=
  if window.segmented then .zcrcw else .zcrcq

/-- `ZfileInfo`, with the name as its bytes, which the gateway spells with `from_utf8_lossy`. -/
structure ZfileInfo where
  filename : List UInt8
  length : Option Nat
  modtime : Option Nat
  mode : Option Nat
  deriving DecidableEq

/-- The fields after the name: the runs between spaces and zeros that are UTF-8. -/
def zfileTokens (rest : List UInt8) : List Text :=
  ((rest.splitBy fun left right => isBlank left = isBlank right).filter fun part =>
    !(part.head?.any isBlank)).filterMap Xmodem.fromUtf8
where
  /-- A byte that ends a field. -/
  isBlank (b : UInt8) : Bool := b = 0x20 || b = 0

/-- `parse_zfile_info`. -/
def parseZfileInfo (data : List UInt8) : Except String ZfileInfo :=
  match data.findIdx? (· == 0) with
  | none => .error "ZMODEM: malformed ZFILE subpacket (no NUL after filename)"
  | some nameEnd =>
    let tokens := zfileTokens (data.drop (nameEnd + 1))
    .ok
      { filename := data.take nameEnd
        length := (tokens[0]?).bind (Text.parseUnsigned (2 ^ 64))
        modtime := ((tokens[1]?).bind (Xmodem.parseOctal (2 ^ 64))).filter fun n => decide (n ≠ 0)
        mode := ((tokens[2]?).bind (Xmodem.parseOctal (2 ^ 32))).filter fun n => decide (n ≠ 0) }

end EthernetGateway.Transfer.Zmodem
