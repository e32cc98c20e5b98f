import Mathlib

/-!
# Telnet commands

Telnet data and telnet commands share one stream: the byte `IAC` starts a command, and a data byte
of that value is sent twice. A command negotiates an option, carries a subnegotiation, or is a
single byte.
-/

namespace EthernetGateway.Telnet

/-- `IAC`. -/
abbrev iac : UInt8 := 0xFF

/-- `SE`. -/
abbrev se : UInt8 := 0xF0

/-- `SB`. -/
abbrev sb : UInt8 := 0xFA

/-- `OPT_BINARY`. -/
abbrev optBinary : UInt8 := 0x00

/-- `OPT_ECHO`. -/
abbrev optEcho : UInt8 := 0x01

/-- `OPT_STATUS`. -/
abbrev optStatus : UInt8 := 0x05

/-- `OPT_TIMING_MARK`. -/
abbrev optTimingMark : UInt8 := 0x06

/-- `OPT_TTYPE`. -/
abbrev optTtype : UInt8 := 0x18

/-- `OPT_NAWS`. -/
abbrev optNaws : UInt8 := 0x1F

/-- `TTYPE_IS`. -/
abbrev ttypeIs : UInt8 := 0x00

/-- `TTYPE_SEND`. -/
abbrev ttypeSend : UInt8 := 0x01

/-- `MAX_SB_BODY_BYTES`. -/
abbrev maxSbBodyBytes : Nat := 8192

/-- The verb of an option command. -/
inductive Verb where
  | will
  | wont
  | do
  | dont
  deriving DecidableEq

namespace Verb

/-- The byte of a verb. -/
def byte : Verb → UInt8
  | will => 0xFB
  | wont => 0xFC
  | .do => 0xFD
  | dont => 0xFE

/-- The verb of a byte. -/
def ofByte (byte : UInt8) : Option Verb :=
  if byte = 0xFB then some will
  else if byte = 0xFC then some wont
  else if byte = 0xFD then some .do
  else if byte = 0xFE then some dont
  else none

/-- A verb is read back from its byte. -/
@[simp] theorem ofByte_byte (verb : Verb) : ofByte verb.byte = some verb := by
  cases verb <;> decide

/-- A byte that is read as a verb is its byte. -/
theorem byte_of_ofByte {byte : UInt8} {verb : Verb} (read : ofByte byte = some verb) :
    verb.byte = byte := by
  simp only [ofByte] at read
  split_ifs at read with will wont do' dont
  all_goals
    cases read
    exact (by assumption : _ = _).symm

end Verb

/-- Data or a subnegotiation's body with every `IAC` doubled. -/
def escape (bytes : List UInt8) : List UInt8 :=
  bytes.flatMap fun byte => if byte = iac then [iac, iac] else [byte]

/-- `write_telnet_data`: what it writes. -/
def writeTelnetData (bytes : List UInt8) : List UInt8 := escape bytes

/-- `to_be_bytes` of a sixteen-bit number. -/
def toBeBytes (value : UInt16) : List UInt8 :=
  [UInt8.ofNat (value.toNat / 256), UInt8.ofNat (value.toNat % 256)]

/-- `from_be_bytes` of two bytes. -/
def fromBeBytes (high low : UInt8) : UInt16 := UInt16.ofNat (high.toNat * 256 + low.toNat)

/-- What a party sends besides data. -/
inductive Reply where
  /-- An option command. -/
  | option (verb : Verb) (opt : UInt8)
  /-- A subnegotiation. -/
  | sub (opt : UInt8) (body : List UInt8)
  deriving DecidableEq

/-- The bytes of a reply. -/
def Reply.bytes : Reply → List UInt8
  | option verb opt => [iac, verb.byte, opt]
  | sub opt body => [iac, sb, opt] ++ escape body ++ [iac, se]

end EthernetGateway.Telnet
