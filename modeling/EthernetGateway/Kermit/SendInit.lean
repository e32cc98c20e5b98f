import EthernetGateway.Kermit.Packet

/-!
# Kermit negotiation

Each side proposes what the configuration allows in the data field of a Send-Init or of the answer
to one, and the session runs on what both propose. Of the fields of a proposal only the
identification of the peer is left out, which names its implementation in the log.
-/

namespace EthernetGateway.Kermit

/-- `MIN_PACKET_LEN`. -/
def minPacketLen : Nat := 10

/-- `MAX_WINDOW_SIZE`. -/
def maxWindowSize : UInt8 := 31

/-- `CAPAS_ATTRIBUTE`. -/
def capasAttribute : UInt8 := 0x08

/-- `CAPAS_LONGPKT`. -/
def capasLongpkt : UInt8 := 0x02

/-- `CAPAS_SLIDING`. -/
def capasSliding : UInt8 := 0x04

/-- `CAPAS_CONTINUE`. -/
def capasContinue : UInt8 := 0x01

/-- `CAPAS_RESEND`. -/
def capasResend : UInt8 := 0x10

/-- `CAPAS_LOCKING_SHIFT`. -/
def capasLockingShift : UInt8 := 0x20

/-- `CAPAS_STREAMING_BYTE3_BIT`. -/
def capasStreaming : UInt8 := 0x04

/-- The `kermit_` options of the configuration. -/
structure KermitConfig where
  maxRetries : Nat
  maxPacketLength : Nat
  windowSize : UInt8
  blockCheckType : Nat
  slidingWindows : Bool
  longPackets : Bool
  streaming : Bool
  attributePackets : Bool
  repeatCompression : Bool
  eightBitQuote : Bool
  resumePartial : Bool
  lockingShifts : Bool

/-- The defaults of the configuration. -/
def KermitConfig.default : KermitConfig where
  maxRetries := 5
  maxPacketLength := 4096
  windowSize := 4
  blockCheckType := 3
  slidingWindows := true
  longPackets := true
  streaming := true
  attributePackets := true
  repeatCompression := true
  eightBitQuote := false
  resumePartial := false
  lockingShifts := false

/-- `Capabilities`. -/
structure Capabilities where
  maxl : Nat
  time : UInt8
  npad : UInt8
  padc : UInt8
  eol : UInt8
  qctl : UInt8
  qbin : Option UInt8
  chkt : UInt8
  rept : Option UInt8
  window : UInt8
  longPackets : Bool
  attributePackets : Bool
  streaming : Bool
  resend : Bool
  lockingShifts : Bool
  deriving DecidableEq

/-- The defaults of `Capabilities`, for the fields a peer leaves out. -/
def Capabilities.default : Capabilities where
  maxl := 80
  time := 5
  npad := 0
  padc := 0
  eol := 0x0D
  qctl := 0x23
  qbin := none
  chkt := 0x31
  rept := none
  window := 1
  longPackets := false
  attributePackets := false
  streaming := false
  resend := false
  lockingShifts := false

/-- The prefixes of a session. -/
def Capabilities.quoting (c : Capabilities) : Quoting := ⟨c.qctl, c.qbin, c.rept, c.lockingShifts⟩

/-- `clamp` on a byte. -/
def clamp (low high n : UInt8) : UInt8 := if n < low then low else if high < n then high else n

/-- `config_capabilities`. -/
def configCapabilities (config : KermitConfig) : Capabilities where
  maxl := config.maxPacketLength
  time := 7
  npad := 0
  padc := 0
  eol := 0x0D
  qctl := 0x23
  qbin := if config.eightBitQuote then some 0x26 else none
  chkt := if config.blockCheckType = 1 then 0x31 else if config.blockCheckType = 2 then 0x32 else 0x33
  rept := if config.repeatCompression then some 0x7E else none
  window := if config.slidingWindows then clamp 1 maxWindowSize config.windowSize else 1
  longPackets := config.longPackets
  attributePackets := config.attributePackets
  streaming := config.streaming
  resend := config.resumePartial
  lockingShifts := config.lockingShifts

/-- A bit of a capability byte. -/
def bitIf (set : Bool) (bit : UInt8) : UInt8 := if set then bit else 0

/-- The first capability byte of a proposal. -/
def Capabilities.capas (c : Capabilities) : UInt8 :=
  bitIf c.attributePackets capasAttribute ||| bitIf c.longPackets capasLongpkt |||
    bitIf (1 < c.window) capasSliding ||| bitIf c.resend capasResend |||
      bitIf c.lockingShifts capasLockingShift ||| bitIf c.streaming capasContinue

/-- `build_send_init_payload`. -/
def buildSendInitPayload (c : Capabilities) : List UInt8 :=
  [tochar (min c.maxl classicMaxPacketLen).toUInt8, tochar (min c.time 94), tochar (min c.npad 94),
    ctl c.padc, tochar (c.eol &&& 0x7F), c.qctl, c.qbin.getD 0x59, c.chkt, c.rept.getD 0x20,
    tochar c.capas] ++
    -- the streaming bit stands in the third capability byte
    (if c.streaming then [tochar capasContinue, tochar capasStreaming] else []) ++
    (if 1 < c.window then [tochar (min c.window maxWindowSize)] else []) ++
    if c.longPackets then
      let maxl := min c.maxl extendedMaxPacketLen
      [tochar (maxl / 95).toUInt8, tochar (maxl % 95).toUInt8]
    else []

/-- The capability bytes at the start of the data: up to the first without a continuation bit. -/
def capasBytes : List UInt8 → List UInt8
  | [] => []
  | c :: data =>
    unchar c :: if unchar c &&& capasContinue = 0 then [] else capasBytes data

/-- `parse_send_init_payload`. -/
def parseSendInitPayload (data : List UInt8) : Capabilities :=
  let base := Capabilities.default
  let capas := capasBytes (data.drop 9)
  let has (bit : UInt8) : Bool := capas.head?.any fun first => first &&& bit ≠ 0
  let trailing := data.drop (9 + capas.length)
  let windowed := has capasSliding && trailing ≠ []
  let lengths := if windowed then trailing.tail else trailing
  let short := (data.head?.map fun c => (unchar c).toNat).getD base.maxl
  { maxl :=
      match lengths with
      | high :: low :: _ =>
        let extended := (unchar high).toNat * 95 + (unchar low).toNat
        if has capasLongpkt ∧ minPacketLen ≤ extended ∧ extended ≤ extendedMaxPacketLen then extended
        else short
      | _ => short
    time := (data[1]?.map unchar).getD base.time
    npad := (data[2]?.map unchar).getD base.npad
    padc := (data[3]?.map unctl).getD base.padc
    eol := (data[4]?.map unchar).getD base.eol
    qctl := data[5]?.getD base.qctl
    qbin := data[6]?.bind fun q => if q = 0x59 ∨ q = 0x20 ∨ q = 0x4E then none else some q
    chkt := (data[7]?.map fun c => if c = 0x31 ∨ c = 0x32 ∨ c = 0x33 then c else 0x31).getD base.chkt
    rept := data[8]?.bind fun r => if r = 0x20 ∨ r = 0x4E then none else some r
    window :=
      if windowed then clamp 1 maxWindowSize (unchar (trailing.headD 0)) else base.window
    longPackets := has capasLongpkt
    attributePackets := has capasAttribute
    streaming := capas[2]?.any fun third => third &&& capasStreaming ≠ 0
    resend := has capasResend
    lockingShifts := has capasLockingShift }

/-- The order of block checks in `pick_chkt`. -/
def chktPriority (c : UInt8) : Nat := if c = 0x32 then 2 else if c = 0x33 then 3 else 1

/-- `pick_chkt`. -/
def pickChkt (a b : UInt8) : UInt8 := if chktPriority a ≤ chktPriority b then a else b

/-- `intersect_capabilities`. -/
def intersectCapabilities (ours theirs : Capabilities) : Capabilities :=
  let useLshift :=
    ours.lockingShifts && theirs.lockingShifts && (ours.qbin.isSome || theirs.qbin.isSome)
  { maxl := max (min theirs.maxl ours.maxl) minPacketLen
    time := max theirs.time 1
    npad := theirs.npad
    padc := theirs.padc
    eol := theirs.eol
    qctl := theirs.qctl
    qbin := if useLshift then none else ours.qbin <|> theirs.qbin
    chkt := pickChkt ours.chkt theirs.chkt
    rept := if ours.rept = theirs.rept then ours.rept else none
    window := max (min ours.window theirs.window) 1
    longPackets := ours.longPackets && theirs.longPackets
    attributePackets := ours.attributePackets && theirs.attributePackets
    streaming := ours.streaming && theirs.streaming
    resend := ours.resend && theirs.resend
    lockingShifts := useLshift }

/-- The session of a gateway whose peer is a gateway too, from the proposal it received. -/
def gatewaySession (ours theirs : KermitConfig) : Capabilities :=
  intersectCapabilities (configCapabilities ours)
    (parseSendInitPayload (buildSendInitPayload (configCapabilities theirs)))

variable {c : Capabilities}

/-- The prefixes of a proposal are read back, but for the letters that say there is none. -/
theorem parse_build_prefixes (c : Capabilities) :
    (parseSendInitPayload (buildSendInitPayload c)).qctl = c.qctl ∧
      (parseSendInitPayload (buildSendInitPayload c)).qbin =
        c.qbin.filter (fun q => q ≠ 0x59 ∧ q ≠ 0x20 ∧ q ≠ 0x4E) ∧
      (parseSendInitPayload (buildSendInitPayload c)).rept =
        c.rept.filter fun r => r ≠ 0x20 ∧ r ≠ 0x4E := by
  refine ⟨rfl, ?_, ?_⟩
  · show (if c.qbin.getD 0x59 = 0x59 ∨ c.qbin.getD 0x59 = 0x20 ∨ c.qbin.getD 0x59 = 0x4E then none
      else some (c.qbin.getD 0x59)) = _
    cases c.qbin with
    | none => rfl
    | some q => by_cases y : q = 0x59 <;> by_cases s : q = 0x20 <;> by_cases n : q = 0x4E <;>
        simp [Option.filter, y, s, n]
  · show (if c.rept.getD 0x20 = 0x20 ∨ c.rept.getD 0x20 = 0x4E then none
      else some (c.rept.getD 0x20)) = _
    cases c.rept with
    | none => rfl
    | some r => by_cases s : r = 0x20 <;> by_cases n : r = 0x4E <;> simp [Option.filter, s, n]

/-- The prefixes of two gateways. -/
theorem gatewaySession_quoting (ours theirs : KermitConfig) :
    (gatewaySession ours theirs).qctl = 0x23 ∧
      (∀ q, (gatewaySession ours theirs).qbin = some q → q = 0x26) ∧
      ∀ r, (gatewaySession ours theirs).rept = some r → r = 0x7E := by
  obtain ⟨qctl, qbin, rept⟩ := parse_build_prefixes (configCapabilities theirs)
  refine ⟨qctl, fun q is => ?_, fun r is => ?_⟩
  · have ampersand (config : KermitConfig) :
        ∀ q, (configCapabilities config).qbin = some q → q = 0x26 := by
      intro q is
      simp only [configCapabilities] at is
      split at is
      · exact (Option.some.inj is).symm
      · cases is
    simp only [gatewaySession, intersectCapabilities, qbin] at is
    split at is
    · cases is
    · cases ours' : (configCapabilities ours).qbin with
      | some p =>
        rw [ours'] at is
        cases is
        exact ampersand ours q ours'
      | none =>
        rw [ours'] at is
        exact ampersand theirs q (Option.filter_eq_some_iff.mp is).1
  · simp only [gatewaySession, intersectCapabilities] at is
    split at is
    · simp only [configCapabilities] at is
      split at is
      · exact (Option.some.inj is).symm
      · cases is
    · cases is

end EthernetGateway.Kermit
