import EthernetGateway.Serial.AtParse

/-!
# Executing an AT command line

`processAtCommand` reads a whole line and then executes its results in order. The line can also
be given one subcommand at a time. Everything but the three flags comes out the same; the flags
come out the same exactly when what the last reset of the line puts back is what was last asked
for.
-/

namespace EthernetGateway.Serial

/-! ## The modem and its stored profile -/

/-- The parts of `SerialPortConfig` the modem saves and restores. -/
structure SerialPortConfig where
  /-- `echo`, `verbose` and `quiet`. -/
  flags : Flags
  /-- The S-registers, decimal, with commas between them. -/
  sRegs : Text
  xCode : UInt8
  dtrMode : UInt8
  flowMode : UInt8
  dcdMode : UInt8
  storedNumbers : Fin 4 → Text
  petsciiTranslate : Bool

/-- The configuration of the modem's port: the copy in memory, and the file as it would be
read. -/
structure Profile where
  memory : SerialPortConfig
  file : SerialPortConfig

/-- What `read_serial_port_config` makes of what `write_serial_port_config` writes. -/
def SerialPortConfig.reread (port : SerialPortConfig) : SerialPortConfig :=
  { port with
    sRegs := Text.sanitize port.sRegs
    xCode := if port.xCode ≤ 4 then port.xCode else 4
    dtrMode := if port.dtrMode ≤ 3 then port.dtrMode else 0
    flowMode := if port.flowMode ≤ 4 then port.flowMode else 0
    dcdMode := if port.dcdMode ≤ 1 then port.dcdMode else 1
    storedNumbers := fun slot => Text.sanitize (port.storedNumbers slot) }

/-- `update_config_values` on keys of the port: the file is read again, changed, written, and
becomes the copy in memory. -/
def Profile.update (profile : Profile) (change : SerialPortConfig → SerialPortConfig) : Profile :=
  ⟨change profile.file, (change profile.file).reread⟩

/-- The settings of `ModemState` beside the flags. -/
structure Settings where
  sRegs : Fin numSRegs → UInt8
  xCode : UInt8
  dtrMode : UInt8
  flowMode : UInt8
  dcdMode : UInt8
  petsciiTranslate : Bool
  storedNumbers : Fin 4 → Text

/-- `ModemState`, with `κ` for the connections it can park. -/
structure ModemState (κ : Type) where
  flags : Flags
  settings : Settings
  lastDial : Text
  activeConnection : Option κ
  lastCommand : Text
  profile : Profile

/-- What the network and the user at the terminal make of a call: the connection that is parked
when the modem is back in command mode. -/
structure Network (κ : Type) where
  /-- `handle_dial`. -/
  call : Settings → Text → Option κ
  /-- `handle_return_online` on a parked connection. -/
  resume : Settings → κ → Option κ

/-- `S_REG_DEFAULTS`. -/
def sRegDefaults : Fin numSRegs → UInt8 := fun reg =>
  [5, 0, 43, 13, 10, 8, 2, 15, 2, 6, 14, 95, 50, 0, 0, 0, 0, 0, 0, 0, 0, 0, 0, 0, 0, 5, 1].getD
    reg.val 0

/-- `parse_s_regs`: what is missing or is no byte keeps its default. -/
def parseSRegs (text : Text) : Fin numSRegs → UInt8 := fun reg =>
  match (Text.split ',' text)[reg.val]? with
  | none => sRegDefaults reg
  | some part =>
    match Text.parseUnsigned 256 (Text.trim part) with
    | none => sRegDefaults reg
    | some value => .ofNat value

/-- `format_s_regs`. -/
def formatSRegs (regs : Fin numSRegs → UInt8) : Text :=
  Text.join [','] (List.ofFn fun reg => Text.ofNat (regs reg).toNat)

/-! ## Dial strings -/

/-- Whether a character can stand in a telephone number, its modifiers included. -/
def isPhoneChar (c : Char) : Bool :=
  Text.isDigit c ||
    c ∈ ['-', ' ', '(', ')', '+', '*', '#', ',', 'W', 'w', 'P', 'p', 'T', 't', '@', '!']

/-- `looks_like_phone_dial_string`. -/
def looksLikePhoneDialString (text : Text) : Bool :=
  text.any Text.isDigit && text.all isPhoneChar

/-- `ParsedDial`, without the pause before the call. -/
structure ParsedDial where
  target : Text
  stayInCommand : Bool

/-- `parse_dial_string`. -/
def parseDialString (raw : Text) : ParsedDial :=
  let trimmed := Text.trim raw
  let stay : Bool := trimmed.getLast? = some ';'
  let body := if stay then trimmed.dropLast else trimmed
  if looksLikePhoneDialString body then
    let dialled := body.filter fun c =>
      c ∉ [',', 'W', 'w', 'P', 'p', 'T', 't', '@', '!']
    ⟨Text.trim dialled, stay⟩
  else ⟨Text.trim body, stay⟩

/-! ## Executing results -/

section Execute

variable {κ : Type} (network : Network κ)

namespace ModemState

/-- `clear_active_connection`. -/
def clearActiveConnection (state : ModemState κ) : ModemState κ :=
  { state with activeConnection := none }

/-- The rest of every dial arm, from the pause on: `handle_dial_with_modifiers` on a target that
is not empty. -/
def dialParsed (state : ModemState κ) (parsed : ParsedDial) : ModemState κ :=
  if parsed.target = [] ∨ parsed.stayInCommand then state
  else { state with activeConnection := network.call state.settings parsed.target }

/-- `handle_return_online`. -/
def handleReturnOnline (state : ModemState κ) : ModemState κ :=
  { state with
    activeConnection := state.activeConnection.bind (network.resume state.settings) }

/-- The arm of `AT&F`. -/
def factoryReset (state : ModemState κ) : ModemState κ :=
  { state with
    flags := .factory
    activeConnection := none
    settings :=
      { state.settings with
        sRegs := sRegDefaults, xCode := 4, dtrMode := 0, flowMode := 0, dcdMode := 1
        petsciiTranslate := false } }

/-- The arm of `ATZ`. -/
def restore (state : ModemState κ) : ModemState κ :=
  let port := state.profile.memory
  { state with
    flags := port.flags
    activeConnection := none
    settings :=
      { sRegs := parseSRegs port.sRegs, xCode := port.xCode, dtrMode := port.dtrMode
        flowMode := port.flowMode, dcdMode := port.dcdMode, storedNumbers := port.storedNumbers
        petsciiTranslate := port.petsciiTranslate } }

/-- The keys of `AT&W` applied to the port, with the ranges of `apply_serial_port_key`. -/
def saveTo (state : ModemState κ) (port : SerialPortConfig) : SerialPortConfig :=
  let settings := state.settings
  { flags := state.flags
    sRegs := formatSRegs settings.sRegs
    xCode := if settings.xCode ≤ 4 then settings.xCode else port.xCode
    dtrMode := if settings.dtrMode ≤ 3 then settings.dtrMode else port.dtrMode
    flowMode := if settings.flowMode ≤ 4 then settings.flowMode else port.flowMode
    dcdMode := if settings.dcdMode ≤ 1 then settings.dcdMode else port.dcdMode
    storedNumbers := settings.storedNumbers
    petsciiTranslate := settings.petsciiTranslate }

/-- The arm of `AT&W`. -/
def save (state : ModemState κ) : ModemState κ :=
  { state with profile := state.profile.update state.saveTo }

/-- The arm of `AT+PETSCII`, which is saved at once. -/
def setPetscii (state : ModemState κ) (n : UInt8) : ModemState κ :=
  { state with
    settings := { state.settings with petsciiTranslate := n ≠ 0 }
    profile := state.profile.update fun port => { port with petsciiTranslate := n ≠ 0 } }

end ModemState

/-- One arm of the loop of `process_at_command`. What it sends to the terminal is left out. -/
def execute (state : ModemState κ) : AtResult → ModemState κ
  | .dial target =>
    { state.clearActiveConnection with lastDial := target }.dialParsed network
      (parseDialString target)
  | .redial =>
    if state.lastDial = [] then state
    else state.clearActiveConnection.dialParsed network (parseDialString state.lastDial)
  | .dialStored slot =>
    let stored := state.settings.storedNumbers slot
    if stored = [] then state
    else
      { state.clearActiveConnection with lastDial := stored }.dialParsed network
        (parseDialString stored)
  | .online => state.handleReturnOnline network
  | .hangup => state.clearActiveConnection
  | .reset => state.factoryReset
  | .resetStored => state.restore
  | .saveConfig => state.save
  | .xSet n => { state with settings := { state.settings with xCode := n } }
  | .dcdSet n => { state with settings := { state.settings with dcdMode := n } }
  | .dtrSet n => { state with settings := { state.settings with dtrMode := n } }
  | .flowSet n => { state with settings := { state.settings with flowMode := n } }
  | .petsciiSet n => state.setPetscii n
  | .storeNumber slot value =>
    { state with
      settings :=
        { state.settings with
          storedNumbers := Function.update state.settings.storedNumbers slot value } }
  | .sRegSet reg value =>
    { state with
      settings := { state.settings with sRegs := Function.update state.settings.sRegs reg value } }
  | .ok | .error | .noCarrier | .info _ | .sRegQuery _ | .showConfig | .help | .sRegHelp => state

/-- The results no other result of the line is executed after: a refusal, an answer, a call. -/
def AtResult.last : AtResult → Bool
  | .error | .noCarrier | .dial _ | .redial | .dialStored _ | .online => true
  | _ => false

/-- The loop of `process_at_command`. -/
def executeAll (state : ModemState κ) : List AtResult → ModemState κ
  | [] => state
  | result :: results =>
    if result.last then execute network state result
    else executeAll (execute network state result) results

/-- The search of `skip_to_at`. -/
def findAt : Text → Option Text
  | [] => none
  | c :: rest => if ['A', 'T'] <+: Text.upper (c :: rest) then some (c :: rest) else findAt rest

/-- `skip_to_at`. -/
def skipToAt (cmd : Text) : Option Text := if cmd.all Text.isAscii then findAt cmd else none

/-- `process_at_command`. -/
def processAtCommand (state : ModemState κ) (cmd : Text) : ModemState κ :=
  let cmd := (skipToAt cmd).getD cmd
  let parsed := parseAtCommand cmd state.flags
  executeAll network { state with lastCommand := cmd, flags := parsed.2 } parsed.1

end Execute

end EthernetGateway.Serial
