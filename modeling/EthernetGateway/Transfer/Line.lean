import Mathlib

/-!
# A line as a file transfer reads it

What a peer sends is a list of bytes, each with the time that passes before it, in milliseconds;
after the last there is silence. A read waits for a byte up to a deadline, and a read of several
bytes has one deadline for all of them. A line can also fail, as it does when the peer hangs up.
-/

namespace EthernetGateway.Transfer

/-- What arrives on a line: a byte, or the failure of the line. -/
inductive Item where
  | byte (value : UInt8)
  | failure (reason : String)

/-- What is still to arrive, each item with the time before it. -/
abbrev Line : Type := List (Nat × Item)

/-- How a read under a deadline ends. -/
inductive Reading (α : Type) where
  | got (value : α)
  | failed (reason : String)
  | timedOut

/-- `nvt_read_byte` under a deadline: the byte, what is left of the deadline, and the line. -/
def Line.read (limit : Nat) : Line → Reading UInt8 × Nat × Line
  | [] => (.timedOut, 0, [])
  | (delay, item) :: line =>
    if delay < limit then
      match item with
      | .byte value => (.got value, limit - delay, line)
      | .failure reason => (.failed reason, limit - delay, line)
    else (.timedOut, 0, (delay - limit, item) :: line)

/-- Some bytes under one deadline. -/
def Line.readMany (limit : Nat) (line : Line) : Nat → Reading (List UInt8) × Nat × Line
  | 0 => (.got [], limit, line)
  | count + 1 =>
    match line.read limit with
    | (.got value, left, line) =>
      match line.readMany left count with
      | (.got values, left, line) => (.got (value :: values), left, line)
      | (.failed reason, left, line) => (.failed reason, left, line)
      | (.timedOut, left, line) => (.timedOut, left, line)
    | (.failed reason, left, line) => (.failed reason, left, line)
    | (.timedOut, left, line) => (.timedOut, left, line)

/-- A read that got a value is followed by another read under what is left of the deadline. -/
def Reading.andThen {α β : Type} (reading : Reading α × Nat × Line)
    (next : α → Nat → Line → Reading β × Nat × Line) : Reading β × Nat × Line :=
  match reading with
  | (.got value, left, line) => next value left line
  | (.failed reason, left, line) => (.failed reason, left, line)
  | (.timedOut, left, line) => (.timedOut, left, line)

/-- One byte of `crc16_update`. -/
def crc16Byte (crc : UInt16) (byte : UInt8) : UInt16 :=
  (List.range 8).foldl
    (fun crc _ => if crc &&& 0x8000 ≠ 0 then (crc <<< 1) ^^^ 0x1021 else crc <<< 1)
    (crc ^^^ (byte.toUInt16 <<< 8))

/-- `crc16_update`. -/
def crc16Update (crc : UInt16) (data : List UInt8) : UInt16 := data.foldl crc16Byte crc

/-- `crc16`. -/
def crc16 (data : List UInt8) : UInt16 := crc16Update 0 data

end EthernetGateway.Transfer
