import EthernetGateway.Kermit.Quoting
import EthernetGateway.Transfer.Tnio

/-!
# Kermit packets

A packet is framed in one of two forms, by its length: a classic one counts what follows its length
in one character, an extended one counts its data in two behind a check of the header. The reader
hunts for a mark, and what stands before it can cancel the transfer. What a packet is framed as is
read back as the packet, behind any padding that is neither a mark nor a cancel.
-/

namespace EthernetGateway.Kermit

/-- `SOH`. -/
def soh : UInt8 := 0x01

/-- `SP`: the length of a packet that has its length elsewhere. -/
def sp : UInt8 := 0x20

/-- `CAN`. -/
def can : UInt8 := 0x18

/-- `TYPE_SEND_INIT`. -/
def typeSendInit : UInt8 := 0x53

/-- `TYPE_INIT`. -/
def typeInit : UInt8 := 0x49

/-- `CLASSIC_MAX_PACKET_LEN`. -/
def classicMaxPacketLen : Nat := 94

/-- `EXTENDED_MAX_PACKET_LEN`. -/
def extendedMaxPacketLen : Nat := 9024

/-- `Packet`. -/
structure Packet where
  kind : UInt8
  seq : UInt8
  payload : List UInt8
  deriving DecidableEq

/-! ## Block checks -/

/-- The sum of the bytes. -/
def byteSum (data : List UInt8) : Nat := (data.map UInt8.toNat).sum

/-- The six bits of a type-1 check. -/
def folded (data : List UInt8) : UInt8 :=
  ((byteSum data + ((byteSum data &&& 0xC0) >>> 6)) &&& 0x3F).toUInt8

/-- `chk1`. -/
def chk1 (data : List UInt8) : UInt8 := tochar (folded data)

/-- The twelve bits of a type-2 check. -/
def sum12 (data : List UInt8) : Nat := byteSum data &&& 0x0FFF

/-- `chk2`. -/
def chk2 (data : List UInt8) : List UInt8 :=
  [tochar ((sum12 data >>> 6) &&& 0x3F).toUInt8, tochar (sum12 data &&& 0x3F).toUInt8]

/-- `chk2_decode`. -/
def chk2Decode (hi lo : UInt8) : Nat :=
  (((unchar hi).toNat &&& 0x3F) <<< 6) ||| ((unchar lo).toNat &&& 0x3F)

/-- One byte of `kermit_crc16`. -/
def crcByte (crc : UInt16) (b : UInt8) : UInt16 :=
  (List.range 8).foldl (fun crc _ => if crc &&& 1 ≠ 0 then (crc >>> 1) ^^^ 0x8408 else crc >>> 1)
    (crc ^^^ b.toUInt16)

/-- `kermit_crc16`. -/
def kermitCrc16 (data : List UInt8) : Nat := (data.foldl crcByte 0).toNat

/-- `chk3_encode`. -/
def chk3Encode (crc : Nat) : List UInt8 :=
  [tochar ((crc >>> 12) &&& 0x0F).toUInt8, tochar ((crc >>> 6) &&& 0x3F).toUInt8,
    tochar (crc &&& 0x3F).toUInt8]

/-- `chk3_decode`. -/
def chk3Decode (c1 c2 c3 : UInt8) : Nat :=
  (((unchar c1).toNat &&& 0x0F) <<< 12) ||| (((unchar c2).toNat &&& 0x3F) <<< 6) |||
    ((unchar c3).toNat &&& 0x3F)

/-- `check_size`. -/
def checkSize (chkt : UInt8) : Nat := if chkt = 0x32 then 2 else if chkt = 0x33 then 3 else 1

/-- `block_check`. -/
def blockCheck (chkt : UInt8) (data : List UInt8) : List UInt8 :=
  if chkt = 0x32 then chk2 data
  else if chkt = 0x33 then chk3Encode (kermitCrc16 data)
  else [chk1 data]

/-- A number as the errors show it. -/
def hex (n : Nat) : String := "0x" ++ String.ofList (Nat.toDigits 16 n)

/-- The error of a check that does not fit. -/
def checkMismatch (chkt : String) (expected actual : Nat) : String :=
  "Kermit: CHKT-" ++ chkt ++ " mismatch: expected " ++ hex expected ++ " got " ++ hex actual

/-- The error of a check of the wrong length. -/
def checkLength (chkt size : String) (got : Nat) : String :=
  "Kermit: CHKT-" ++ chkt ++ " expects " ++ size ++ ", got " ++ toString got

/-- `verify_check`. -/
def verifyCheck (chkt : UInt8) (data check : List UInt8) : Except String Unit :=
  if chkt = 0x32 then
    match check with
    | [hi, lo] =>
      if sum12 data = chk2Decode hi lo then .ok ()
      else .error (checkMismatch "2" (chk2Decode hi lo) (sum12 data))
    | _ => .error (checkLength "2" "2 check bytes" check.length)
  else if chkt = 0x33 then
    match check with
    | [c1, c2, c3] =>
      if chk3Decode c1 c2 c3 = kermitCrc16 data then .ok ()
      else .error (checkMismatch "3" (chk3Decode c1 c2 c3) (kermitCrc16 data))
    | _ => .error (checkLength "3" "3 check bytes" check.length)
  else
    match check with
    | [c] =>
      if folded data = unchar c &&& 0x3F then .ok ()
      else .error (checkMismatch "1" (unchar c &&& 0x3F).toNat (folded data).toNat)
    | _ => .error (checkLength "1" "1 check byte" check.length)

/-! ## The builder -/

/-- The bytes that the check of a packet covers. -/
def Packet.body (p : Packet) (chkt : UInt8) : List UInt8 :=
  let seq := tochar (p.seq &&& 0x3F)
  let classic := 1 + 1 + p.payload.length + checkSize chkt
  if classic ≤ classicMaxPacketLen then [tochar classic.toUInt8, seq, p.kind] ++ p.payload
  else
    let extended := p.payload.length + checkSize chkt
    let header :=
      [sp, seq, p.kind, tochar (extended / 95).toUInt8, tochar (extended % 95).toUInt8]
    header ++ [chk1 header] ++ p.payload

/-- `build_packet`. -/
def Packet.build (p : Packet) (chkt : UInt8) (padCount : Nat) (padChar eol : UInt8) : List UInt8 :=
  List.replicate padCount padChar ++ [soh] ++ p.body chkt ++ blockCheck chkt (p.body chkt) ++ [eol]

/-! ## The reader -/

/-- `ReadState`, with the bytes that are still to come. -/
structure Source where
  pushback : Option UInt8
  pendingCan : Bool
  resync : Bool
  wire : List UInt8

/-- A read of a source that can fail. -/
abbrev Read (α : Type) : Type := ExceptT String (StateM Source) α

/-- The error of a read past the end. -/
def peerClosed : String := Transfer.peerClosedError

/-- `nvt_read_byte`. -/
def readByte : Read UInt8 := fun s =>
  match s.pushback with
  | some b => (.ok b, { s with pushback := none })
  | none =>
    match s.wire with
    | [] => (.error peerClosed, s)
    | b :: wire => (.ok b, { s with wire := wire })

/-- Some bytes. -/
def readMany : Nat → Read (List UInt8)
  | 0 => pure []
  | count + 1 => do
    let b ← readByte
    let rest ← readMany count
    pure (b :: rest)

/-- Up to some bytes, which are thrown away. -/
def skipUpTo : Nat → Read Unit
  | 0 => pure ()
  | count + 1 => fun s =>
    match readByte s with
    | (.ok _, s) => skipUpTo count s
    | (.error _, s) => (.ok (), s)

/-- `is_esc_key`. -/
def isEscKey (b : UInt8) (isPetscii : Bool) : Bool := b = 0x1B || (isPetscii && b = 0x5F)

/-- The hunt for a mark in the bytes to come. -/
def huntIn (isPetscii : Bool) (s : Source) : List UInt8 → Except String Unit × Source
  | [] => (.error peerClosed, { s with pushback := none, resync := false, wire := [] })
  | b :: wire =>
    let s := { s with pushback := none, wire := wire }
    if b = soh then (.ok (), s)
    else if s.resync then huntIn isPetscii s wire
    else if isEscKey b isPetscii then (.error "Kermit: cancelled by user", s)
    else if b = can then
      if s.pendingCan then
        (.error "Kermit: peer aborted (CAN×2)", { s with pendingCan := false })
      else huntIn isPetscii { s with pendingCan := true } wire
    else huntIn isPetscii { s with pendingCan := false } wire

/-- The hunt for a mark. -/
def hunt (isPetscii : Bool) : Read Unit := fun s =>
  huntIn isPetscii s (s.pushback.toList ++ s.wire)

/-- The end of line behind a packet is taken, and another byte is put back. -/
def takeEol (eol : UInt8) : Read Unit := fun s =>
  if eol = 0 then (.ok (), s)
  else
    match readByte s with
    | (.ok b, s) => (.ok (), if b = eol then s else { s with pushback := some b })
    | (.error _, s) => (.ok (), s)

/-- The data and the check of a packet, behind its header. -/
def readBody (chkt eol : UInt8) (header : List UInt8) (seq kind : UInt8) (size : Nat) :
    Read Packet := do
  let payload ← readMany size
  let check ← readMany (checkSize chkt)
  match verifyCheck chkt (header ++ payload) check with
  | .error error => throw error
  | .ok () => do
    takeEol eol
    pure ⟨kind, seq, payload⟩

/-- An extended packet behind its length. -/
def readExtended (chkt eol : UInt8) : Read Packet := do
  let seq ← readByte
  let kind ← readByte
  let lenx1 ← readByte
  let lenx2 ← readByte
  let hcheck ← readByte
  let header := [sp, seq, kind, lenx1, lenx2]
  let extended := (unchar lenx1).toNat * 95 + (unchar lenx2).toNat
  if hcheck ≠ chk1 header then
    throw ("Kermit: extended-length header check mismatch (" ++ hex hcheck.toNat ++ " vs " ++
      hex (chk1 header).toNat ++ ")")
  else if extended < checkSize chkt then
    throw ("Kermit: extended length " ++ toString extended ++ " too short for check")
  else if extendedMaxPacketLen < extended - checkSize chkt then
    throw ("Kermit: extended packet length " ++ toString extended ++ " exceeds spec cap")
  else
    readBody chkt eol (header ++ [hcheck]) (unchar seq &&& 0x3F) kind (extended - checkSize chkt)

/-- Kinds that are always under a type-1 check. -/
def isInit (kind : UInt8) : Bool := kind = typeSendInit || kind = typeInit

/-- A classic packet behind its length. -/
def readClassic (chkt eol len : UInt8) : Read Packet := do
  let n := (unchar len).toNat
  if n < 3 then
    throw ("Kermit: packet length " ++ toString n ++ " too small (LEN byte " ++ hex len.toNat ++ ")")
  else
    let seq ← readByte
    let kind ← readByte
    let chkt := if isInit kind then 0x31 else chkt
    if n < 2 + checkSize chkt then do
      skipUpTo (min (n - 2) 32)
      throw ("Kermit: packet length " ++ toString n ++ " short for header+check (cklen " ++
        toString (checkSize chkt) ++ ")")
    else
      readBody chkt eol [len, seq, kind] (unchar seq &&& 0x3F) kind (n - 2 - checkSize chkt)

/-- `read_packet_after_mark`. -/
def readPacketAfterMark (chkt eol : UInt8) : Read Packet := do
  let len ← readByte
  if len = sp then readExtended chkt eol else readClassic chkt eol len

/-- `read_packet`. -/
def readPacket (isPetscii : Bool) (chkt eol : UInt8) : Read Packet := do
  hunt isPetscii
  fun s =>
    match readPacketAfterMark chkt eol s with
    | (.ok p, s) => (.ok p, { s with resync := false })
    -- silence leaves no part of the packet behind
    | (.error error, s) => (.error error, { s with resync := error ≠ peerClosed })

/-- Packets one after another. -/
def readPackets (isPetscii : Bool) (chkt eol : UInt8) : Nat → Read (List Packet)
  | 0 => pure []
  | count + 1 => do
    let p ← readPacket isPetscii chkt eol
    let rest ← readPackets isPetscii chkt eol count
    pure (p :: rest)

/-! ## Checks that fit -/

/-- A six-bit number is read back from its character. -/
theorem unchar_tochar (n : UInt8) : unchar (tochar n) = n := by
  unfold unchar tochar
  exact UInt8.add_sub_cancel n 0x20

/-- A low part of a number is the remainder. -/
theorem and_mask (n bits : Nat) : n &&& (2 ^ bits - 1) = n % 2 ^ bits :=
  Nat.and_two_pow_sub_one_eq_mod n bits

/-- Twelve bits are read back from two characters. -/
theorem chk2Decode_chk2 {n : Nat} (small : n < 4096) :
    chk2Decode (tochar ((n >>> 6) &&& 0x3F).toUInt8) (tochar (n &&& 0x3F).toUInt8) = n := by
  have high : ((n >>> 6) &&& 0x3F).toUInt8.toNat = n / 64 := by
    rw [show (0x3F : Nat) = 2 ^ 6 - 1 from rfl, and_mask, Nat.shiftRight_eq_div_pow]
    simp only [Nat.toUInt8_eq, UInt8.toNat_ofNat']
    omega
  have low : (n &&& 0x3F).toUInt8.toNat = n % 64 := by
    rw [show (0x3F : Nat) = 2 ^ 6 - 1 from rfl, and_mask]
    simp only [Nat.toUInt8_eq, UInt8.toNat_ofNat']
    omega
  unfold chk2Decode
  rw [unchar_tochar, unchar_tochar, high, low, show (0x3F : Nat) = 2 ^ 6 - 1 from rfl, and_mask,
    and_mask, ← Nat.shiftLeft_add_eq_or_of_lt (Nat.mod_lt _ (by decide)), Nat.shiftLeft_eq]
  omega

/-- Sixteen bits are read back from three. -/
theorem chk3Decode_chk3Encode {n : Nat} (small : n < 65536) :
    chk3Decode (tochar ((n >>> 12) &&& 0x0F).toUInt8) (tochar ((n >>> 6) &&& 0x3F).toUInt8)
      (tochar (n &&& 0x3F).toUInt8) = n := by
  have high : ((n >>> 12) &&& 0x0F).toUInt8.toNat = n / 4096 := by
    rw [show (0x0F : Nat) = 2 ^ 4 - 1 from rfl, and_mask, Nat.shiftRight_eq_div_pow]
    simp only [Nat.toUInt8_eq, UInt8.toNat_ofNat']
    omega
  have middle : ((n >>> 6) &&& 0x3F).toUInt8.toNat = n / 64 % 64 := by
    rw [show (0x3F : Nat) = 2 ^ 6 - 1 from rfl, and_mask, Nat.shiftRight_eq_div_pow]
    simp only [Nat.toUInt8_eq, UInt8.toNat_ofNat']
    omega
  have low : (n &&& 0x3F).toUInt8.toNat = n % 64 := by
    rw [show (0x3F : Nat) = 2 ^ 6 - 1 from rfl, and_mask]
    simp only [Nat.toUInt8_eq, UInt8.toNat_ofNat']
    omega
  unfold chk3Decode
  rw [unchar_tochar, unchar_tochar, unchar_tochar, high, middle, low,
    show (0x3F : Nat) = 2 ^ 6 - 1 from rfl, show (0x0F : Nat) = 2 ^ 4 - 1 from rfl, and_mask,
    and_mask, and_mask, Nat.or_assoc, ← Nat.shiftLeft_add_eq_or_of_lt (Nat.mod_lt _ (by decide)),
    ← Nat.shiftLeft_add_eq_or_of_lt, Nat.shiftLeft_eq, Nat.shiftLeft_eq]
  · omega
  · rw [Nat.shiftLeft_eq]
    omega

/-- The check of a packet fits it. -/
theorem verifyCheck_blockCheck (chkt : UInt8) (data : List UInt8) :
    verifyCheck chkt data (blockCheck chkt data) = .ok () := by
  unfold verifyCheck blockCheck
  split
  next =>
    have small : sum12 data < 4096 := by
      rw [sum12, show (0x0FFF : Nat) = 2 ^ 12 - 1 from rfl, and_mask]
      exact Nat.mod_lt _ (by decide)
    exact if_pos (chk2Decode_chk2 small).symm
  next =>
    split
    next => exact if_pos (chk3Decode_chk3Encode (UInt16.toNat_lt _))
    next =>
      have six : ∀ n, (n &&& 0x3F : Nat).toUInt8 &&& 0x3F = (n &&& 0x3F : Nat).toUInt8 := by
        intro n
        rw [← UInt8.toNat_inj, UInt8.toNat_and, Nat.toUInt8_eq, UInt8.toNat_ofNat',
          show (0x3F : Nat) = 2 ^ 6 - 1 from rfl, and_mask,
          show (0x3F : UInt8).toNat = 2 ^ 6 - 1 from rfl, and_mask]
        omega
      refine if_pos ?_
      rw [chk1, unchar_tochar]
      exact (six _).symm

/-- A check has its size. -/
theorem blockCheck_length (chkt : UInt8) (data : List UInt8) :
    (blockCheck chkt data).length = checkSize chkt := by
  unfold blockCheck checkSize
  split_ifs <;> rfl

/-! ## Bytes taken from a source -/

/-- A read takes its bytes off the front of any source that nothing was put back to. -/
def Takes {α : Type} (read : Read α) (bytes : List UInt8) (value : α) : Prop :=
  ∀ (pendingCan resync : Bool) (rest : List UInt8),
    read ⟨none, pendingCan, resync, bytes ++ rest⟩ = (.ok value, ⟨none, pendingCan, resync, rest⟩)

/-- Nothing is taken for a value at hand. -/
theorem takes_pure {α : Type} (value : α) : Takes (pure value) [] value := fun _ _ _ => rfl

/-- A read that succeeds hands its value to the next. -/
theorem bind_of_ok {α β : Type} {read : Read α} {next : α → Read β} {s s' : Source} {value : α}
    (first : read s = (.ok value, s')) : (read >>= next) s = next value s' := by
  show (match read s with | (a, s) => ExceptT.bindCont next a s : Except String β × Source) = _
  rw [first]
  rfl

/-- One read after another takes the bytes of both. -/
theorem Takes.bind {α β : Type} {read : Read α} {bytes later : List UInt8} {value : α}
    {next : α → Read β} {result : β} (first : Takes read bytes value)
    (second : Takes (next value) later result) : Takes (read >>= next) (bytes ++ later) result := by
  intro pendingCan resync rest
  rw [List.append_assoc, bind_of_ok (first pendingCan resync (later ++ rest))]
  exact second pendingCan resync rest

/-- A byte is taken. -/
theorem takes_readByte (b : UInt8) : Takes readByte [b] b := fun _ _ _ => rfl

/-- A byte in front of others is taken. -/
theorem Takes.byte {β : Type} {b : UInt8} {later : List UInt8} {next : UInt8 → Read β} {result : β}
    (second : Takes (next b) later result) : Takes (readByte >>= next) (b :: later) result :=
  (takes_readByte b).bind second

/-- Some bytes are taken. -/
theorem takes_readMany (bytes : List UInt8) : Takes (readMany bytes.length) bytes bytes := by
  induction bytes with
  | nil => exact takes_pure []
  | cons b bytes ih =>
    refine Takes.byte ?_
    have rest : Takes (readMany bytes.length >>= fun rest => pure (b :: rest)) (bytes ++ [])
        (b :: bytes) := ih.bind (takes_pure (b :: bytes))
    rwa [List.append_nil] at rest

/-- What is taken of an end of line. -/
def eolTaken (eol : UInt8) : List UInt8 := if eol = 0 then [] else [eol]

/-- An end of line is taken, unless it is none. -/
theorem takes_takeEol (eol : UInt8) : Takes (takeEol eol) (eolTaken eol) () := by
  intro pendingCan resync rest
  unfold takeEol eolTaken
  split
  · rfl
  · simp [readByte]

/-- The data and the check of a packet are taken. -/
theorem takes_readBody {chkt eol : UInt8} {header payload : List UInt8} {seq kind : UInt8} :
    Takes (readBody chkt eol header seq kind payload.length)
      (payload ++ blockCheck chkt (header ++ payload) ++ eolTaken eol) ⟨kind, seq, payload⟩ := by
  have checked := takes_readMany (blockCheck chkt (header ++ payload))
  rw [blockCheck_length] at checked
  rw [List.append_assoc]
  refine (takes_readMany payload).bind (checked.bind ?_)
  rw [verifyCheck_blockCheck]
  have ended : Takes (takeEol eol >>= fun _ => pure ⟨kind, seq, payload⟩) (eolTaken eol ++ [])
      (⟨kind, seq, payload⟩ : Packet) := (takes_takeEol eol).bind (takes_pure _)
  rwa [List.append_nil] at ended

/-! ## Packets that fit -/

/-- The block check a packet is built under: that of a Send-Init is of type 1 whatever was
negotiated. -/
def Packet.chkt (p : Packet) (chkt : UInt8) : UInt8 := if isInit p.kind then 0x31 else chkt

/-- The length of a packet in classic form. -/
def Packet.classicLength (p : Packet) (chkt : UInt8) : Nat :=
  1 + 1 + p.payload.length + checkSize (p.chkt chkt)

/-- Packets that can be framed and read under a block check: the number is one of 64, what follows
the header fits in an extended packet, and a Send-Init under another check is classic. -/
structure Packet.Fits (p : Packet) (chkt : UInt8) : Prop where
  seq : p.seq < 64
  size : p.payload.length + checkSize (p.chkt chkt) ≤ extendedMaxPacketLen
  init : isInit p.kind = true → p.classicLength chkt ≤ classicMaxPacketLen ∨ chkt = 0x31

/-- A number below 64 is read back. -/
theorem seq_masked {seq : UInt8} (small : seq < 64) :
    seq &&& 0x3F = seq ∧ unchar (tochar seq) &&& 0x3F = seq := by
  have masked : seq &&& 0x3F = seq := by
    rw [← UInt8.toNat_inj, UInt8.toNat_and, show (0x3F : UInt8).toNat = 2 ^ 6 - 1 from rfl,
      and_mask]
    exact Nat.mod_eq_of_lt (UInt8.lt_iff_toNat_lt.mp small)
  rw [unchar_tochar]
  exact ⟨masked, masked⟩

/-- A small number is read back from its character. -/
theorem toNat_unchar_tochar {n : Nat} (small : n < 256) : (unchar (tochar n.toUInt8)).toNat = n := by
  rw [unchar_tochar, Nat.toUInt8_eq, UInt8.toNat_ofNat']
  exact Nat.mod_eq_of_lt small

/-- A check has one character to three. -/
theorem checkSize_bounds (chkt : UInt8) : 1 ≤ checkSize chkt ∧ checkSize chkt ≤ 3 := by
  unfold checkSize
  split_ifs <;> decide

/-- A classic packet is taken behind its length. -/
theorem takes_readClassic {p : Packet} {chkt : UInt8} (eol : UInt8) (fits : p.Fits chkt)
    (classic : p.classicLength chkt ≤ classicMaxPacketLen) :
    Takes (readClassic chkt eol (tochar (p.classicLength chkt).toUInt8))
      ([tochar (p.seq &&& 0x3F), p.kind] ++ p.payload ++
        blockCheck (p.chkt chkt)
          ([tochar (p.classicLength chkt).toUInt8, tochar (p.seq &&& 0x3F), p.kind] ++ p.payload) ++
        eolTaken eol) p := by
  have bounds := checkSize_bounds (p.chkt chkt)
  have length : p.classicLength chkt = 2 + p.payload.length + checkSize (p.chkt chkt) := rfl
  have below : p.classicLength chkt ≤ 94 := classic
  obtain ⟨masked, read⟩ := seq_masked fits.seq
  unfold readClassic
  simp only [toNat_unchar_tochar (show p.classicLength chkt < 256 by omega)]
  rw [if_neg (by omega)]
  simp only [List.append_assoc, List.cons_append, List.nil_append]
  refine Takes.byte (Takes.byte ?_)
  show Takes (if p.classicLength chkt < 2 + checkSize (p.chkt chkt) then _
    else readBody (p.chkt chkt) eol _ _ _ (p.classicLength chkt - 2 - checkSize (p.chkt chkt))) _ _
  rw [if_neg (by omega), show p.classicLength chkt - 2 - checkSize (p.chkt chkt) = p.payload.length
    by omega, masked, unchar_tochar, masked]
  have taken := @takes_readBody (p.chkt chkt) eol
    [tochar (p.classicLength chkt).toUInt8, tochar p.seq, p.kind] p.payload p.seq p.kind
  rwa [List.append_assoc] at taken

/-- An extended packet is taken behind its length. -/
theorem takes_readExtended {p : Packet} {chkt : UInt8} (eol : UInt8) (fits : p.Fits chkt)
    (extended : classicMaxPacketLen < p.classicLength chkt) :
    Takes (readExtended chkt eol)
      ((p.body (p.chkt chkt)).tail ++ blockCheck (p.chkt chkt) (p.body (p.chkt chkt)) ++
        eolTaken eol) p := by
  have same : p.chkt chkt = chkt := by
    unfold Packet.chkt
    split
    next init => exact ((fits.init init).resolve_left (by omega)).symm
    next => rfl
  have bounds := checkSize_bounds chkt
  have size := fits.size
  obtain ⟨masked, read⟩ := seq_masked fits.seq
  unfold extendedMaxPacketLen at size
  rw [same] at size ⊢
  unfold Packet.classicLength at extended
  rw [same] at extended
  simp only [Packet.body, if_neg (Nat.not_le_of_lt extended)]
  generalize total : p.payload.length + checkSize chkt = n at *
  have high := toNat_unchar_tochar (show n / 95 < 256 by omega)
  have low := toNat_unchar_tochar (show n % 95 < 256 by omega)
  have whole : (unchar (tochar (n / 95).toUInt8)).toNat * 95 +
      (unchar (tochar (n % 95).toUInt8)).toNat = n := by
    rw [high, low]
    omega
  unfold readExtended
  simp only [List.append_assoc, List.cons_append, List.nil_append, List.tail_cons]
  refine Takes.byte (Takes.byte (Takes.byte (Takes.byte (Takes.byte ?_))))
  rw [if_neg (not_not.mpr rfl), whole, if_neg (by omega), if_neg (by
    unfold extendedMaxPacketLen
    omega), show n - checkSize chkt = p.payload.length by omega, masked, unchar_tochar, masked]
  have taken := @takes_readBody chkt eol
    ([sp, tochar p.seq, p.kind, tochar (n / 95).toUInt8, tochar (n % 95).toUInt8] ++
      [chk1 [sp, tochar p.seq, p.kind, tochar (n / 95).toUInt8, tochar (n % 95).toUInt8]])
    p.payload p.seq p.kind
  rwa [List.append_assoc] at taken

/-- A packet with its check and end of line is taken. -/
theorem takes_readPacketAfterMark {p : Packet} {chkt : UInt8} (eol : UInt8) (fits : p.Fits chkt) :
    Takes (readPacketAfterMark chkt eol)
      (p.body (p.chkt chkt) ++ blockCheck (p.chkt chkt) (p.body (p.chkt chkt)) ++ eolTaken eol)
      p := by
  by_cases classic : p.classicLength chkt ≤ classicMaxPacketLen
  · have body : p.body (p.chkt chkt) = [tochar (p.classicLength chkt).toUInt8,
        tochar (p.seq &&& 0x3F), p.kind] ++ p.payload := if_pos classic
    have counted : tochar (p.classicLength chkt).toUInt8 ≠ sp := by
      intro marker
      have zero := toNat_unchar_tochar
        (show p.classicLength chkt < 256 from Nat.lt_of_le_of_lt classic (by decide))
      rw [marker] at zero
      have : p.classicLength chkt = 2 + p.payload.length + checkSize (p.chkt chkt) := rfl
      have : (unchar sp).toNat = 0 := rfl
      omega
    have taken := takes_readClassic eol fits classic
    rw [body]
    simp only [List.append_assoc, List.cons_append, List.nil_append] at taken ⊢
    refine Takes.byte ?_
    rwa [if_neg counted]
  · have extended := Nat.lt_of_not_le classic
    have body : p.body (p.chkt chkt) = sp :: (p.body (p.chkt chkt)).tail := by
      have not : ¬ 1 + 1 + p.payload.length + checkSize (p.chkt chkt) ≤ classicMaxPacketLen := classic
      simp only [Packet.body, if_neg not, List.cons_append, List.tail_cons]
    have taken := takes_readExtended eol fits extended
    rw [body] at taken ⊢
    exact Takes.byte taken

/-! ## Packets behind padding -/

/-- Padding that the hunt passes: no mark, and nothing that cancels. -/
def Quiet (isPetscii : Bool) (b : UInt8) : Prop :=
  b ≠ soh ∧ isEscKey b isPetscii = false ∧ b ≠ can

/-- The hunt passes what is quiet, up to the mark. -/
theorem huntIn_quiet {isPetscii : Bool} {noise : List UInt8} (quiet : ∀ b ∈ noise, Quiet isPetscii b)
    (s : Source) (rest : List UInt8) :
    ∃ pendingCan, huntIn isPetscii s (noise ++ soh :: rest) =
      (.ok (), ⟨none, pendingCan, s.resync, rest⟩) := by
  induction noise generalizing s with
  | nil => exact ⟨s.pendingCan, rfl⟩
  | cons b noise ih =>
    obtain ⟨mark, esc, cancel⟩ := quiet b List.mem_cons_self
    have passes := ih fun c member => quiet c (List.mem_cons_of_mem _ member)
    simp only [List.cons_append, huntIn, if_neg mark, esc, Bool.false_eq_true, if_false,
      if_neg cancel]
    split
    · exact passes _
    · exact passes _

/-- A packet behind quiet bytes is read. -/
theorem readPacket_quiet {isPetscii : Bool} {noise : List UInt8}
    (quiet : ∀ b ∈ noise, Quiet isPetscii b) {p : Packet} {chkt : UInt8} (fits : p.Fits chkt)
    (eol : UInt8) (pendingCan resync : Bool) (rest : List UInt8) :
    ∃ pendingCan', readPacket isPetscii chkt eol
      ⟨none, pendingCan, resync, noise ++ soh ::
        (p.body (p.chkt chkt) ++ blockCheck (p.chkt chkt) (p.body (p.chkt chkt)) ++ eolTaken eol ++
          rest)⟩ = (.ok p, ⟨none, pendingCan', false, rest⟩) := by
  obtain ⟨pendingCan', hunted⟩ := huntIn_quiet quiet ⟨none, pendingCan, resync, noise ++ soh ::
    (p.body (p.chkt chkt) ++ blockCheck (p.chkt chkt) (p.body (p.chkt chkt)) ++ eolTaken eol ++
      rest)⟩ (p.body (p.chkt chkt) ++ blockCheck (p.chkt chkt) (p.body (p.chkt chkt)) ++
        eolTaken eol ++ rest)
  refine ⟨pendingCan', ?_⟩
  have taken := takes_readPacketAfterMark eol fits pendingCan' resync rest
  unfold readPacket
  rw [bind_of_ok hunted]
  simp only [taken]

/-- A packet as it is sent, behind its padding. -/
structure Padded where
  packet : Packet
  padCount : Nat
  padChar : UInt8

/-- The bytes of a padded packet. -/
def Padded.build (f : Padded) (chkt eol : UInt8) : List UInt8 :=
  f.packet.build (f.packet.chkt chkt) f.padCount f.padChar eol

/-- What is left of an end of line. -/
def eolLeft (eol : UInt8) : List UInt8 := if eol = 0 then [0] else []

/-- An end of line is taken or left. -/
theorem eolTaken_eolLeft (eol : UInt8) : eolTaken eol ++ eolLeft eol = [eol] := by
  unfold eolTaken eolLeft
  split
  next zero => rw [zero, List.nil_append]
  next => rfl

/-- What is left of an end of line is quiet. -/
theorem eolLeft_quiet (isPetscii : Bool) (eol : UInt8) : ∀ b ∈ eolLeft eol, Quiet isPetscii b := by
  intro b member
  unfold eolLeft at member
  split at member
  · rw [List.mem_singleton.mp member]
    cases isPetscii <;> exact ⟨by decide, by decide, by decide⟩
  · cases member

/-- Packets behind quiet bytes are read one after another. -/
theorem readPackets_quiet {isPetscii : Bool} {chkt eol : UInt8} {packets : List Padded}
    (fits : ∀ f ∈ packets, f.packet.Fits chkt)
    (padding : ∀ f ∈ packets, f.padCount ≠ 0 → Quiet isPetscii f.padChar) {noise : List UInt8}
    (quiet : ∀ b ∈ noise, Quiet isPetscii b) (pendingCan resync : Bool) :
    ∃ s, readPackets isPetscii chkt eol packets.length
      ⟨none, pendingCan, resync, noise ++ packets.flatMap fun f => f.build chkt eol⟩ =
        (.ok (packets.map Padded.packet), s) := by
  induction packets generalizing noise pendingCan resync with
  | nil => exact ⟨_, rfl⟩
  | cons f packets ih =>
    have silent : ∀ b ∈ noise ++ List.replicate f.padCount f.padChar, Quiet isPetscii b := by
      intro b member
      cases List.mem_append.mp member with
      | inl before => exact quiet b before
      | inr pad =>
        obtain ⟨some, is⟩ := List.mem_replicate.mp pad
        rw [is]
        exact padding f List.mem_cons_self some
    obtain ⟨pendingCan', read⟩ := readPacket_quiet silent (fits f List.mem_cons_self) eol pendingCan
      resync (eolLeft eol ++ packets.flatMap fun f => f.build chkt eol)
    obtain ⟨s, rest⟩ := @ih (fun f member => fits f (List.mem_cons_of_mem _ member))
      (fun f member => padding f (List.mem_cons_of_mem _ member)) (eolLeft eol)
      (eolLeft_quiet isPetscii eol) pendingCan' false
    refine ⟨s, ?_⟩
    have framed : noise ++ (f :: packets).flatMap (fun f => f.build chkt eol) =
        noise ++ List.replicate f.padCount f.padChar ++ soh ::
          (f.packet.body (f.packet.chkt chkt) ++
            blockCheck (f.packet.chkt chkt) (f.packet.body (f.packet.chkt chkt)) ++ eolTaken eol ++
              (eolLeft eol ++ packets.flatMap fun f => f.build chkt eol)) := by
      simp only [List.flatMap_cons, Padded.build, Packet.build, ← eolTaken_eolLeft eol,
        List.append_assoc, List.cons_append, List.nil_append]
    rw [framed]
    show (readPacket isPetscii chkt eol >>= fun p =>
      readPackets isPetscii chkt eol packets.length >>= fun rest => pure (p :: rest)) _ = _
    rw [bind_of_ok read, bind_of_ok rest]
    rfl

/-- Packets that fit, behind any padding that is neither a mark nor a cancel, are read back one
after another under the same block check and end of line. -/
theorem framing_roundtrip (isPetscii : Bool) (chkt eol : UInt8) (packets : List Padded)
    (fits : ∀ f ∈ packets, f.packet.Fits chkt)
    (padding : ∀ f ∈ packets, f.padCount ≠ 0 → Quiet isPetscii f.padChar) :
    ∃ s, readPackets isPetscii chkt eol packets.length
      ⟨none, false, false, packets.flatMap fun f => f.build chkt eol⟩ =
        (.ok (packets.map Padded.packet), s) :=
  @readPackets_quiet isPetscii chkt eol packets fits padding [] (fun _ none => nomatch none) false
    false

/-- An empty packet. -/
def Packet.empty (kind seq : UInt8) : Packet := ⟨kind, seq, []⟩

/-- A packet other than a Send-Init fits under every check when its data leave room for one. -/
theorem fits_of_length {p : Packet} (seq : p.seq < 64) (other : isInit p.kind = false)
    (small : p.payload.length ≤ 9021) (chkt : UInt8) : p.Fits chkt := by
  have bounds := checkSize_bounds (p.chkt chkt)
  refine ⟨seq, ?_, fun init => ?_⟩
  · show p.payload.length + checkSize _ ≤ 9024
    omega
  · rw [init] at other
    cases other

/-- An extended packet of marks and an end of line, and a classic one behind padding. -/
def marks : List Padded :=
  [⟨⟨0x44, 5, List.replicate 200 0x01 ++ [0x0D]⟩, 0, 0x01⟩, ⟨.empty 0x5A 6, 2, 0⟩]

/-- Marks and an end of line as data are read back, and so is the packet behind them. -/
theorem framing_roundtrip_marks :
    ∃ s, readPackets true 0x33 0x0D marks.length
      ⟨none, false, false, marks.flatMap fun f => f.build 0x33 0x0D⟩ =
        (.ok (marks.map Padded.packet), s) := by
  refine framing_roundtrip true 0x33 0x0D marks ?_ ?_
  · intro f member
    simp only [marks, List.mem_cons, List.not_mem_nil, or_false] at member
    rcases member with rfl | rfl
    · refine fits_of_length (by decide) rfl ?_ 0x33
      rw [List.length_append, List.length_replicate]
      decide
    · exact fits_of_length (by decide) rfl (Nat.zero_le _) 0x33
  · intro f member
    simp only [marks, List.mem_cons, List.not_mem_nil, or_false] at member
    rcases member with rfl | rfl
    · exact fun padded => absurd rfl padded
    · exact fun _ => ⟨by decide, by decide, by decide⟩

/-- A packet behind an ESC, which is no mark, is not read: the ESC cancels the transfer. -/
theorem escape_padding_cancels :
    (Packet.empty 0x5A 6).Fits 0x31 ∧ (0x1B : UInt8) ≠ soh ∧
      (readPackets false 0x31 0x0D 1
        ⟨none, false, false, (⟨.empty 0x5A 6, 1, 0x1B⟩ : Padded).build 0x31 0x0D⟩).1 =
          .error "Kermit: cancelled by user" :=
  ⟨fits_of_length (by decide) rfl (Nat.zero_le _) 0x31, by decide, rfl⟩

end EthernetGateway.Kermit
