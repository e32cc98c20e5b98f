import EthernetGateway.Telnet.Iac

/-!
# The telnet gateway's side of a connection

`GatewayTelnetIac` reads what the remote sends: it delivers the data, follows each option through
the six states of its machine on either side, and answers the few subnegotiations it knows. It asks
for options only at the start; afterwards it answers what the remote asks for.
-/

namespace EthernetGateway.Telnet

/-- `OptState`. -/
inductive OptState where
  /-- The option is off. -/
  | no
  /-- The option is on. -/
  | yes
  /-- Asked to enable it, no answer yet. -/
  | wantYes
  /-- Asked to enable it and changed our mind. -/
  | wantYesOpposite
  /-- Asked to disable it, no answer yet. -/
  | wantNo
  /-- Asked to disable it and changed our mind. -/
  | wantNoOpposite
  deriving DecidableEq

/-- One option on one side, as the gateway keeps it. -/
structure OptSide where
  /-- The state of its machine. -/
  state : OptState
  /-- Whether a refusal was sent and not contradicted since. -/
  refused : Bool
  deriving DecidableEq

namespace OptSide

/-- What `handle_recv_will` and `handle_recv_do` do when the remote says the option is, or asks it
to be, on: the side after it, and whether to answer with an accepting or a refusing verb. -/
def recvOn (cooperates : Bool) (side : OptSide) : OptSide × Option Bool :=
  match side.state with
  | .no =>
    if cooperates then (⟨.yes, false⟩, some true)
    else if side.refused then (side, none)
    else (⟨.no, true⟩, some false)
  | .yes => (side, none)
  | .wantYes => (⟨.yes, side.refused⟩, none)
  | .wantYesOpposite => (⟨.wantNo, true⟩, some false)
  | .wantNo => (⟨.no, true⟩, if side.refused then none else some false)
  | .wantNoOpposite => (⟨.yes, false⟩, none)

/-- What `handle_recv_wont` and `handle_recv_dont` do when the remote says the option is, or asks it
to be, off. -/
def recvOff (side : OptSide) : OptSide × Option Bool :=
  match side.state with
  | .no => (⟨.no, false⟩, none)
  | .yes => (⟨.no, false⟩, some false)
  | .wantNo => (⟨.no, false⟩, none)
  | .wantNoOpposite => (⟨.wantYes, false⟩, some true)
  | .wantYes => (⟨.no, false⟩, none)
  | .wantYesOpposite => (⟨.no, false⟩, none)

end OptSide

/-- `GatewayIacState`. -/
inductive GatewayIacState where
  /-- A data byte or the start of a command. -/
  | normal
  /-- `IAC` was read. -/
  | sawIac
  /-- `IAC` and an option verb were read. -/
  | sawVerb (verb : Verb)
  /-- `IAC SB` was read. -/
  | sawSbOption
  /-- Inside a subnegotiation. -/
  | inSb
  /-- `IAC` was read inside a subnegotiation. -/
  | inSbIac
  deriving DecidableEq

/-- `GatewayTelnetIac`. -/
structure GatewayTelnetIac where
  /-- Where the reader is. -/
  state : GatewayIacState
  /-- Whether to cooperate on the terminal type and the window size. -/
  cooperate : Bool
  /-- The terminal's name. -/
  terminalName : List UInt8
  /-- The terminal's width. -/
  windowCols : UInt16
  /-- The terminal's height. -/
  windowRows : UInt16
  /-- What we have said about our own side of each option. -/
  usState : UInt8 → OptState
  /-- What the remote has said about its side. -/
  himState : UInt8 → OptState
  /-- Whether a `DONT` refusal was sent. -/
  sentDont : UInt8 → Bool
  /-- Whether a `WONT` refusal was sent. -/
  sentWont : UInt8 → Bool
  /-- The option of the subnegotiation being read. -/
  sbOption : UInt8
  /-- Its body so far. -/
  sbBody : List UInt8

namespace GatewayTelnetIac

/-- `GatewayTelnetIac::new`: the reader. -/
def new (cooperate : Bool) (terminalName : List UInt8) (windowCols windowRows : UInt16) :
    GatewayTelnetIac where
  state := .normal
  cooperate := cooperate
  terminalName := terminalName
  windowCols := windowCols
  windowRows := windowRows
  usState := fun opt => if cooperate ∧ (opt = optTtype ∨ opt = optNaws) then .wantYes else .no
  himState := fun opt => if cooperate ∧ opt = optEcho then .wantYes else .no
  sentDont := fun _ => false
  sentWont := fun _ => false
  sbOption := 0
  sbBody := []

/-- `GatewayTelnetIac::new`: the initial offers. -/
def initialOffers (cooperate : Bool) : List Reply :=
  if cooperate then [.option .will optTtype, .option .will optNaws, .option .do optEcho] else []

/-- `cooperate_with_his_will`. -/
def cooperateWithHisWill (opt : UInt8) : Bool := opt = optEcho

/-- `cooperate_with_his_do`. -/
def cooperateWithHisDo (gateway : GatewayTelnetIac) (opt : UInt8) : Bool :=
  gateway.cooperate && (opt = optTtype || opt = optNaws)

/-- The remote's side of an option. -/
def him (gateway : GatewayTelnetIac) (opt : UInt8) : OptSide :=
  ⟨gateway.himState opt, gateway.sentDont opt⟩

/-- Our side of an option. -/
def us (gateway : GatewayTelnetIac) (opt : UInt8) : OptSide :=
  ⟨gateway.usState opt, gateway.sentWont opt⟩

/-- Set the remote's side of an option. -/
def setHim (gateway : GatewayTelnetIac) (opt : UInt8) (side : OptSide) : GatewayTelnetIac :=
  { gateway with
    himState := Function.update gateway.himState opt side.state
    sentDont := Function.update gateway.sentDont opt side.refused }

/-- Set our side of an option. -/
def setUs (gateway : GatewayTelnetIac) (opt : UInt8) (side : OptSide) : GatewayTelnetIac :=
  { gateway with
    usState := Function.update gateway.usState opt side.state
    sentWont := Function.update gateway.sentWont opt side.refused }

/-- `emit_naws_sb`. -/
def emitNawsSb (gateway : GatewayTelnetIac) : Reply :=
  .sub optNaws (toBeBytes gateway.windowCols ++ toBeBytes gateway.windowRows)

/-- An answer on the remote's side. -/
def answerHim (opt : UInt8) : Option Bool → List Reply
  | none => []
  | some true => [.option .do opt]
  | some false => [.option .dont opt]

/-- An answer on our side. -/
def answerUs (opt : UInt8) : Option Bool → List Reply
  | none => []
  | some true => [.option .will opt]
  | some false => [.option .wont opt]

/-- `handle_recv_will`. -/
def handleRecvWill (gateway : GatewayTelnetIac) (opt : UInt8) : GatewayTelnetIac × List Reply :=
  let received := (gateway.him opt).recvOn (cooperateWithHisWill opt)
  (gateway.setHim opt received.1, answerHim opt received.2)

/-- `handle_recv_wont`. -/
def handleRecvWont (gateway : GatewayTelnetIac) (opt : UInt8) : GatewayTelnetIac × List Reply :=
  let received := (gateway.him opt).recvOff
  (gateway.setHim opt received.1, answerHim opt received.2)

/-- `handle_recv_do`: as `handle_recv_will`, and the window size is sent when its option comes on. -/
def handleRecvDo (gateway : GatewayTelnetIac) (opt : UInt8) : GatewayTelnetIac × List Reply :=
  let received := (gateway.us opt).recvOn (gateway.cooperateWithHisDo opt)
  (gateway.setUs opt received.1,
    answerUs opt received.2 ++
      if opt = optNaws ∧ gateway.usState opt ≠ .yes ∧ received.1.state = .yes then
        [gateway.emitNawsSb] else [])

/-- `handle_recv_dont`. -/
def handleRecvDont (gateway : GatewayTelnetIac) (opt : UInt8) : GatewayTelnetIac × List Reply :=
  let received := (gateway.us opt).recvOff
  (gateway.setUs opt received.1, answerUs opt received.2)

/-- The arm of `feed` for a complete option command. -/
def handleRecv (gateway : GatewayTelnetIac) (verb : Verb) (opt : UInt8) :
    GatewayTelnetIac × List Reply :=
  match verb with
  | .will => gateway.handleRecvWill opt
  | .wont => gateway.handleRecvWont opt
  | .do => gateway.handleRecvDo opt
  | .dont => gateway.handleRecvDont opt

/-- `process_subneg`. -/
def processSubneg (gateway : GatewayTelnetIac) : List Reply :=
  if gateway.sbOption = optTtype ∧ gateway.usState optTtype = .yes ∧
      gateway.sbBody.head? = some ttypeSend then
    [.sub optTtype (ttypeIs :: gateway.terminalName)]
  else []

/-- What `feed` makes of a byte: the reader after it, the data it delivers, and the replies. -/
structure Fed where
  /-- The reader after the byte. -/
  gateway : GatewayTelnetIac
  /-- Data for the user. -/
  data : List UInt8
  /-- Replies to the remote. -/
  replies : List Reply

/-- `GatewayTelnetIac::feed`. -/
def feed (gateway : GatewayTelnetIac) (byte : UInt8) : Fed :=
  match gateway.state with
  | .normal =>
    if byte = iac then ⟨{ gateway with state := .sawIac }, [], []⟩ else ⟨gateway, [byte], []⟩
  | .sawIac =>
    if byte = iac then ⟨{ gateway with state := .normal }, [iac], []⟩
    else if byte = sb then ⟨{ gateway with state := .sawSbOption }, [], []⟩
    else
      match Verb.ofByte byte with
      | some verb => ⟨{ gateway with state := .sawVerb verb }, [], []⟩
      | none => ⟨{ gateway with state := .normal }, [], []⟩
  | .sawVerb verb =>
    let handled := gateway.handleRecv verb byte
    ⟨{ handled.1 with state := .normal }, [], handled.2⟩
  | .sawSbOption => ⟨{ gateway with sbOption := byte, sbBody := [], state := .inSb }, [], []⟩
  | .inSb =>
    if byte = iac then ⟨{ gateway with state := .inSbIac }, [], []⟩
    else if gateway.sbBody.length < maxSbBodyBytes then
      ⟨{ gateway with sbBody := gateway.sbBody ++ [byte] }, [], []⟩
    else ⟨gateway, [], []⟩
  | .inSbIac =>
    if byte = se then ⟨{ gateway with state := .normal }, [], gateway.processSubneg⟩
    else if byte = iac then
      ⟨{ gateway with
          sbBody := if gateway.sbBody.length < maxSbBodyBytes then gateway.sbBody ++ [iac]
            else gateway.sbBody
          state := .inSb }, [], []⟩
    else ⟨{ gateway with state := .inSb }, [], []⟩

/-- The data a run of bytes delivers. -/
def data (gateway : GatewayTelnetIac) : List UInt8 → List UInt8
  | [] => []
  | byte :: bytes => (gateway.feed byte).data ++ data (gateway.feed byte).gateway bytes

end GatewayTelnetIac

end EthernetGateway.Telnet
