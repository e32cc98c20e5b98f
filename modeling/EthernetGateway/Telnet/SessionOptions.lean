import EthernetGateway.Telnet.Negotiation

/-!
# The session's options against a Q-method client

A session keeps four flags for every option: what it has offered, asked for, and refused on either
side. Five rules cover how it answers a command, and each rule makes a link of its own.
-/

namespace EthernetGateway.Telnet

/-- `STATUS_IS`. -/
abbrev statusIs : UInt8 := 0x00

/-- The fields of `TelnetSession` that negotiate options. -/
structure TelnetSession where
  /-- `WILL` was sent. -/
  negSentWill : UInt8 → Bool
  /-- `DO` was sent. -/
  negSentDo : UInt8 → Bool
  /-- `WONT` was sent. -/
  negSentWont : UInt8 → Bool
  /-- `DONT` was sent. -/
  negSentDont : UInt8 → Bool
  /-- The terminal's name was recognised. -/
  ttypeMatched : Bool

namespace TelnetSession

/-- Set a `WILL` flag. -/
def setWill (session : TelnetSession) (opt : UInt8) (sent : Bool) : TelnetSession :=
  { session with negSentWill := Function.update session.negSentWill opt sent }

/-- Set a `DO` flag. -/
def setDo (session : TelnetSession) (opt : UInt8) (sent : Bool) : TelnetSession :=
  { session with negSentDo := Function.update session.negSentDo opt sent }

/-- Set a `WONT` flag. -/
def setWont (session : TelnetSession) (opt : UInt8) : TelnetSession :=
  { session with negSentWont := Function.update session.negSentWont opt true }

/-- Set a `DONT` flag. -/
def setDont (session : TelnetSession) (opt : UInt8) : TelnetSession :=
  { session with negSentDont := Function.update session.negSentDont opt true }

/-- The arms of `handle_telnet_option` for `DO`. -/
def handleDo (session : TelnetSession) (opt : UInt8) : TelnetSession × List Reply :=
  if opt = optBinary then
    if session.negSentWill optBinary then (session, [])
    else (session.setWill optBinary true, [.option .will optBinary])
  else if opt = optTimingMark then (session, [.option .will optTimingMark])
  else if opt = optStatus then
    if session.negSentWill optStatus then (session, [])
    else (session.setWill optStatus true, [.option .will optStatus])
  else if session.negSentWill opt then (session, [])
  else if session.negSentWont opt then (session, [])
  else (session.setWont opt, [.option .wont opt])

/-- The arms of `handle_telnet_option` for `DONT`. -/
def handleDont (session : TelnetSession) (opt : UInt8) : TelnetSession × List Reply :=
  if opt = optBinary then
    if session.negSentWill optBinary then
      (session.setWill optBinary false, [.option .wont optBinary])
    else (session, [])
  else if opt = optTimingMark then (session, [])
  else if opt = optStatus then
    if session.negSentWill optStatus then
      (session.setWill optStatus false, [.option .wont optStatus])
    else (session, [])
  else if session.negSentWill opt ∧ ¬ session.negSentWont opt then
    (session.setWont opt, [.option .wont opt])
  else (session, [])

/-- The arms of `handle_telnet_option` for `WILL`. -/
def handleWill (session : TelnetSession) (opt : UInt8) : TelnetSession × List Reply :=
  if opt = optBinary then
    if session.negSentDo optBinary then (session, [])
    else (session.setDo optBinary true, [.option .do optBinary])
  else if opt = optStatus then
    if session.negSentDont optStatus then (session, [])
    else (session.setDont optStatus, [.option .dont optStatus])
  else if session.negSentDo opt ∧ opt ≠ optTtype then (session, [])
  else if opt = optTtype then
    (if session.negSentDo opt then session else session.setDo opt true,
      (if session.negSentDo opt then [] else [.option .do optTtype]) ++
        if session.ttypeMatched then [] else [.sub optTtype [ttypeSend]])
  else if opt = optNaws then
    if session.negSentDo opt then (session, [])
    else (session.setDo opt true, [.option .do optNaws])
  else if session.negSentDont opt then (session, [])
  else (session.setDont opt, [.option .dont opt])

/-- The arms of `handle_telnet_option` for `WONT`. -/
def handleWont (session : TelnetSession) (opt : UInt8) : TelnetSession × List Reply :=
  if opt = optBinary then
    if session.negSentDo optBinary then
      (session.setDo optBinary false, [.option .dont optBinary])
    else (session, [])
  else if session.negSentDo opt ∧ ¬ session.negSentDont opt then
    (session.setDont opt, [.option .dont opt])
  else (session, [])

/-- `TelnetSession::handle_telnet_option`. -/
def handleTelnetOption (session : TelnetSession) (verb : Verb) (opt : UInt8) :
    TelnetSession × List Reply :=
  match verb with
  | .do => session.handleDo opt
  | .dont => session.handleDont opt
  | .will => session.handleWill opt
  | .wont => session.handleWont opt

/-- Whether `send_status_is` reports that the session does an option. -/
def willed (session : TelnetSession) (opt : UInt8) : Bool :=
  session.negSentWill opt && !session.negSentWont opt

/-- Whether `send_status_is` reports that the client does an option. -/
def doed (session : TelnetSession) (opt : UInt8) : Bool :=
  session.negSentDo opt && !session.negSentDont opt

/-- `TelnetSession::send_status_is`. -/
def sendStatusIs (session : TelnetSession) : Reply :=
  .sub optStatus (statusIs :: (List.range 256).flatMap fun index =>
    (if session.willed (UInt8.ofNat index) then [Verb.will.byte, UInt8.ofNat index] else []) ++
      if session.doed (UInt8.ofNat index) then [Verb.do.byte, UInt8.ofNat index] else [])

/-- A status report names the options that the session reports, on either side. -/
theorem sendStatusIs_reports (session : TelnetSession) :
    ∃ commands : List Command,
      session.sendStatusIs = .sub optStatus
        (statusIs :: commands.flatMap fun command => [command.1.byte, command.2]) ∧
      ∀ opt, ((.will, opt) ∈ commands ↔ session.willed opt) ∧
        ((.do, opt) ∈ commands ↔ session.doed opt) := by
  refine ⟨(List.range 256).flatMap fun index =>
    (if session.willed (UInt8.ofNat index) then [(.will, UInt8.ofNat index)] else []) ++
      if session.doed (UInt8.ofNat index) then [(.do, UInt8.ofNat index)] else [], ?_, fun opt => ?_⟩
  · rw [sendStatusIs, List.flatMap_assoc]
    congr 3
    funext index
    split_ifs <;> rfl
  · -- Every option has a number below 256, and only one.
    have numbered (holds : UInt8 → Bool) :
        (∃ index < 256, holds (UInt8.ofNat index) = true ∧ opt = UInt8.ofNat index) ↔
          holds opt = true := by
      constructor
      · rintro ⟨index, _, held, rfl⟩
        exact held
      · intro held
        exact ⟨opt.toNat, opt.toNat_lt, by rwa [UInt8.ofNat_toNat], by rw [UInt8.ofNat_toNat]⟩
    constructor
    · rw [← numbered]
      simp
    · rw [← numbered]
      simp

/-! ## Rules -/

/-- The rules by which a session answers commands about an option of a side. -/
inductive Rule where
  /-- It follows every change. -/
  | follows
  /-- It agrees to the option, and withdraws it once. -/
  | agrees
  /-- It refuses the option once, offered or not. -/
  | refuses
  /-- It neither agrees to an option it has not offered nor renews one it has withdrawn. -/
  | keeps
  /-- It marks the time and remembers nothing. -/
  | marks
  deriving DecidableEq

/-- The rule of an option of a side. -/
def rule : Key → Rule
  | (.ours, opt) =>
    if opt = optBinary ∨ opt = optStatus then .follows
    else if opt = optTimingMark then .marks
    else .keeps
  | (.theirs, opt) =>
    if opt = optBinary then .follows
    else if opt = optStatus then .refuses
    else if opt = optTtype ∨ opt = optNaws then .agrees
    else .keeps

/-- The two flags of an option of a side. -/
structure Flags where
  /-- The session has said the option is, or should be, on. -/
  said : Bool
  /-- It has said that it is, or should be, off. -/
  refused : Bool
  deriving DecidableEq

namespace Rule

/-- What a rule makes of a command that turns the option on. -/
def answerOn : Rule → Flags → Flags × Option Bool
  | follows, flags => if flags.said then (flags, none) else (⟨true, flags.refused⟩, some true)
  | agrees, flags => if flags.said then (flags, none) else (⟨true, flags.refused⟩, some true)
  | refuses, flags => if flags.refused then (flags, none) else (⟨flags.said, true⟩, some false)
  | keeps, flags =>
    if flags.said ∨ flags.refused then (flags, none) else (⟨flags.said, true⟩, some false)
  | marks, flags => (flags, some true)

/-- What a rule makes of a command that turns the option off. -/
def answerOff : Rule → Flags → Flags × Option Bool
  | follows, flags => if flags.said then (⟨false, flags.refused⟩, some false) else (flags, none)
  | marks, flags => (flags, none)
  | _, flags =>
    if flags.said ∧ ¬ flags.refused then (⟨flags.said, true⟩, some false) else (flags, none)

/-- What a rule makes of a command. -/
def answer (rule : Rule) (flags : Flags) (on : Bool) : Flags × Option Bool :=
  if on then rule.answerOn flags else rule.answerOff flags

end Rule

/-- The flags of an option of a side. -/
def flags (key : Key) (session : TelnetSession) : Flags :=
  match key with
  | (.ours, opt) => ⟨session.negSentWill opt, session.negSentWont opt⟩
  | (.theirs, opt) => ⟨session.negSentDo opt, session.negSentDont opt⟩

/-- A link on which the option is off, or offered and the offer is on its way. -/
def openedLink (offered : Bool) : Link Flags where
  responder := ⟨offered, false⟩
  peer := .no
  toPeer := if offered then [true] else []
  toResponder := []

/-- The client does not wait, and the option is reported on exactly when the client holds it on. A
time mark is neither on nor off. -/
def Rule.settled (rule : Rule) (flags : Flags) (peer : QState) : Bool :=
  rule = .marks || (!peer.waits && ((flags.said && !flags.refused) == (peer = .yes)))

/-- The session has not refused an option that is turned on, where it remembers refusals. -/
def Rule.refusalClear (rule : Rule) (flags : Flags) (on : Bool) : Bool :=
  rule = .follows || rule = .marks || !(on && flags.refused)

/-- The links found from one that was just opened. -/
def foundLinks (rule : Rule) (permits : Flags → Bool → Bool) (offered : Bool) :
    List (Link Flags) :=
  explore (Link.next rule.answer permits) 12 [openedLink offered] [openedLink offered]

/-- How many signals a link can still deliver. -/
def linkCost (rule : Rule) (permits : Flags → Bool → Bool) (link : Link Flags) : Nat :=
  longest (Link.deliveries rule.answer permits) 8 link

/-- Each kind of link is sound when no option is turned on while its refusal is remembered. -/
theorem links_settle (rule : Rule) (offered : Bool) :
    Link.Sound rule.answer rule.refusalClear rule.settled (openedLink offered)
      (foundLinks rule rule.refusalClear offered) (linkCost rule rule.refusalClear) := by
  cases rule <;> cases offered <;> decide +kernel

/-- Each kind of link delivers only so much, whatever is remembered. -/
theorem links_bounded (rule : Rule) (offered : Bool) :
    Link.Sound rule.answer (fun _ _ => true) (fun _ _ => true) (openedLink offered)
      (foundLinks rule (fun _ _ => true) offered) (linkCost rule fun _ _ => true) := by
  cases rule <;> cases offered <;> decide +kernel

/-! ## The session as an answering party -/

/-- The flags after a `WILL` flag is set. -/
theorem flags_setWill (session : TelnetSession) (opt : UInt8) (sent : Bool) (key : Key) :
    flags key (session.setWill opt sent) =
      if key = (.ours, opt) then ⟨sent, session.negSentWont opt⟩ else flags key session := by
  obtain ⟨_ | _, other⟩ := key
  · by_cases same : other = opt
    · subst same
      simp [flags, setWill]
    · simp [flags, setWill, same]
  · simp [flags, setWill]

/-- The flags after a `DO` flag is set. -/
theorem flags_setDo (session : TelnetSession) (opt : UInt8) (sent : Bool) (key : Key) :
    flags key (session.setDo opt sent) =
      if key = (.theirs, opt) then ⟨sent, session.negSentDont opt⟩ else flags key session := by
  obtain ⟨_ | _, other⟩ := key
  · simp [flags, setDo]
  · by_cases same : other = opt
    · subst same
      simp [flags, setDo]
    · simp [flags, setDo, same]

/-- The flags after a `WONT` flag is set. -/
theorem flags_setWont (session : TelnetSession) (opt : UInt8) (key : Key) :
    flags key (session.setWont opt) =
      if key = (.ours, opt) then ⟨session.negSentWill opt, true⟩ else flags key session := by
  obtain ⟨_ | _, other⟩ := key
  · by_cases same : other = opt
    · subst same
      simp [flags, setWont]
    · simp [flags, setWont, same]
  · simp [flags, setWont]

/-- The flags after a `DONT` flag is set. -/
theorem flags_setDont (session : TelnetSession) (opt : UInt8) (key : Key) :
    flags key (session.setDont opt) =
      if key = (.theirs, opt) then ⟨session.negSentDo opt, true⟩ else flags key session := by
  obtain ⟨_ | _, other⟩ := key
  · simp [flags, setDont]
  · by_cases same : other = opt
    · subst same
      simp [flags, setDont]
    · simp [flags, setDont, same]

/-- What handling a command makes of the flags of every key, of the commands sent, and of the number
of subnegotiations. -/
structure Handles (key : Key) (on : Bool) (session : TelnetSession)
    (handled : TelnetSession × List Reply) : Prop where
  /-- The flags follow the rule of the key. -/
  flags_eq : ∀ other, flags other handled.1 =
    if other = key then ((rule other).answer (flags other session) on).1 else flags other session
  /-- The commands sent are the rule's answer. -/
  commands_eq : commands handled.2 =
    ((rule key).answer (flags key session) on).2.toList.map (Command.of (Key.other key))
  /-- At most one subnegotiation is sent. -/
  subs_le : subs handled.2 ≤ 1

/-- A session that says nothing handles a command its rule ignores. -/
theorem handles_none {key : Key} {on : Bool} {session : TelnetSession}
    (ignored : (rule key).answer (flags key session) on = (flags key session, none)) :
    Handles key on session (session, []) where
  flags_eq := by
    intro other
    split_ifs with same
    · rw [same, ignored]
    · rfl
  commands_eq := by
    rw [ignored]
    rfl
  subs_le := Nat.zero_le 1

/-- A session that sends one command and changes its own flags handles a command its rule answers
so. -/
theorem handles_some {key : Key} {on : Bool} {session changed : TelnetSession} {after : Flags}
    {verb : Verb} (answer : Bool)
    (answered : (rule key).answer (flags key session) on = (after, some answer))
    (changes : ∀ other, flags other changed = if other = key then after else flags other session)
    (spoken : (verb, key.2) = Command.of (Key.other key) answer) :
    Handles key on session (changed, [.option verb key.2]) where
  flags_eq := by
    intro other
    rw [changes]
    split_ifs with same
    · rw [same, answered]
    · rfl
  commands_eq := by
    rw [answered]
    exact congrArg (fun command => [command]) spoken
  subs_le := Nat.zero_le 1

/-- `DO` is handled by the rule of our side. -/
theorem handleDo_handles (session : TelnetSession) (opt : UInt8) :
    Handles (.ours, opt) true session (session.handleDo opt) := by
  simp only [handleDo]
  split_ifs with binary said mark status said said refused
  · subst binary
    exact handles_none (by simp [rule, Rule.answer, Rule.answerOn, flags, said])
  · subst binary
    exact handles_some true (by simp [rule, Rule.answer, Rule.answerOn, flags, said])
      (flags_setWill session optBinary true) rfl
  · subst mark
    exact handles_some true rfl (by simp) rfl
  · subst status
    exact handles_none (by simp [rule, Rule.answer, Rule.answerOn, flags, said])
  · subst status
    exact handles_some true (by simp [rule, Rule.answer, Rule.answerOn, flags, said])
      (flags_setWill session optStatus true) rfl
  · exact handles_none (by simp [rule, Rule.answer, Rule.answerOn, flags, *])
  · exact handles_none (by simp [rule, Rule.answer, Rule.answerOn, flags, *])
  · exact handles_some false (by simp [rule, Rule.answer, Rule.answerOn, flags, *])
      (flags_setWont session opt) rfl

/-- `DONT` is handled by the rule of our side. -/
theorem handleDont_handles (session : TelnetSession) (opt : UInt8) :
    Handles (.ours, opt) false session (session.handleDont opt) := by
  simp only [handleDont]
  split_ifs with binary said mark status said said
  · subst binary
    exact handles_some false (by simp [rule, Rule.answer, Rule.answerOff, flags, said])
      (flags_setWill session optBinary false) rfl
  · subst binary
    exact handles_none (by simp [rule, Rule.answer, Rule.answerOff, flags, said])
  · subst mark
    exact handles_none rfl
  · subst status
    exact handles_some false (by simp [rule, Rule.answer, Rule.answerOff, flags, said])
      (flags_setWill session optStatus false) rfl
  · subst status
    exact handles_none (by simp [rule, Rule.answer, Rule.answerOff, flags, said])
  · exact handles_some false (by simp [rule, Rule.answer, Rule.answerOff, flags, *])
      (flags_setWont session opt) rfl
  · exact handles_none (by
      simp only [rule, if_neg mark, if_neg (not_or.mpr ⟨binary, status⟩), Rule.answer]
      exact if_neg said)

/-- A session may ask for the terminal's name besides. -/
theorem Handles.asks_name {key : Key} {on : Bool} {session changed : TelnetSession}
    {replies : List Reply} (handles : Handles key on session (changed, replies))
    (plain : subs replies = 0) (matched : Bool) :
    Handles key on session
      (changed, replies ++ if matched then [] else [.sub optTtype [ttypeSend]]) where
  flags_eq := handles.flags_eq
  commands_eq := by
    have none_asked : commands (if matched then [] else [.sub optTtype [ttypeSend]]) = [] := by
      cases matched <;> rfl
    rw [commands_append, none_asked, List.append_nil]
    exact handles.commands_eq
  subs_le := by
    rw [subs_append, plain]
    cases matched <;> decide

/-- A session ignores that a client does what it was asked to do. -/
theorem handles_ignored {session : TelnetSession} {opt : UInt8} (binary : opt ≠ optBinary)
    (status : opt ≠ optStatus) (said : session.negSentDo opt) :
    Handles (.theirs, opt) true session (session, []) := by
  apply handles_none
  by_cases agreed : opt = optTtype ∨ opt = optNaws
  · simp [rule, binary, status, agreed, Rule.answer, Rule.answerOn, flags, said]
  · simp [rule, binary, status, agreed, Rule.answer, Rule.answerOn, flags, said]

/-- `WILL` of the terminal type is handled by the rule of the client's side. -/
theorem handleWill_ttype (session : TelnetSession) :
    Handles (.theirs, optTtype) true session (session.handleWill optTtype) := by
  have named : optTtype ≠ optBinary ∧ optTtype ≠ optStatus := by decide
  by_cases said : session.negSentDo optTtype
  · have handled : session.handleWill optTtype =
        (session, [] ++ if session.ttypeMatched then [] else [.sub optTtype [ttypeSend]]) := by
      simp [handleWill, named, said]
    rw [handled]
    exact (handles_ignored named.1 named.2 said).asks_name rfl session.ttypeMatched
  · have handled : session.handleWill optTtype =
        (session.setDo optTtype true, [.option .do optTtype] ++
          if session.ttypeMatched then [] else [.sub optTtype [ttypeSend]]) := by
      simp [handleWill, named, said]
    have agreed : Handles (.theirs, optTtype) true session
        (session.setDo optTtype true, [.option .do optTtype]) :=
      handles_some true (by simp [rule, named, Rule.answer, Rule.answerOn, flags, said])
        (flags_setDo session optTtype true) rfl
    rw [handled]
    exact agreed.asks_name rfl session.ttypeMatched

/-- `WILL` is handled by the rule of the client's side. -/
theorem handleWill_handles (session : TelnetSession) (opt : UInt8) :
    Handles (.theirs, opt) true session (session.handleWill opt) := by
  by_cases ttype : opt = optTtype
  · subst ttype
    exact handleWill_ttype session
  · simp only [handleWill, if_neg ttype]
    split_ifs with binary said status refused said naws said refused
    · subst binary
      exact handles_none (by simp [rule, Rule.answer, Rule.answerOn, flags, said])
    · subst binary
      exact handles_some true (by simp [rule, Rule.answer, Rule.answerOn, flags, said])
        (flags_setDo session optBinary true) rfl
    · subst status
      exact handles_none (by simp [rule, binary, Rule.answer, Rule.answerOn, flags, refused])
    · subst status
      exact handles_some false (by simp [rule, binary, Rule.answer, Rule.answerOn, flags, refused])
        (flags_setDont session optStatus) rfl
    · exact handles_ignored binary status said.1
    · exact handles_ignored binary status said
    · subst naws
      exact handles_some true
        (by simp [rule, binary, status, Rule.answer, Rule.answerOn, flags, said])
        (flags_setDo session optNaws true) rfl
    · exact handles_none (by simp [rule, Rule.answer, Rule.answerOn, flags, *])
    · have unsaid : ¬ session.negSentDo opt := fun asked => said ⟨asked, ttype⟩
      exact handles_some false (by simp [rule, Rule.answer, Rule.answerOn, flags, *])
        (flags_setDont session opt) rfl

/-- The rules of the client's side withdraw an option once. -/
theorem answer_wont {session : TelnetSession} {opt : UInt8} (binary : opt ≠ optBinary) :
    (rule (.theirs, opt)).answer (flags (.theirs, opt) session) false =
      if session.negSentDo opt ∧ ¬ session.negSentDont opt then
        (⟨session.negSentDo opt, true⟩, some false)
      else (flags (.theirs, opt) session, none) := by
  simp only [rule, if_neg binary]
  by_cases status : opt = optStatus
  · rw [if_pos status]
    rfl
  · rw [if_neg status]
    by_cases agreed : opt = optTtype ∨ opt = optNaws
    · rw [if_pos agreed]
      rfl
    · rw [if_neg agreed]
      rfl

/-- `WONT` is handled by the rule of the client's side. -/
theorem handleWont_handles (session : TelnetSession) (opt : UInt8) :
    Handles (.theirs, opt) false session (session.handleWont opt) := by
  simp only [handleWont]
  split_ifs with binary said said
  · subst binary
    exact handles_some false (by simp [rule, Rule.answer, Rule.answerOff, flags, said])
      (flags_setDo session optBinary false) rfl
  · subst binary
    exact handles_none (by simp [rule, Rule.answer, Rule.answerOff, flags, said])
  · exact handles_some false (by rw [answer_wont binary, if_pos said])
      (flags_setDont session opt) rfl
  · exact handles_none (by rw [answer_wont binary, if_neg said])

/-- A command is handled by the rule of its option and side. -/
theorem handleTelnetOption_handles (session : TelnetSession) (verb : Verb) (opt : UInt8) :
    Handles (Command.key (verb, opt)) verb.on session (session.handleTelnetOption verb opt) := by
  cases verb
  case will => exact handleWill_handles session opt
  case wont => exact handleWont_handles session opt
  case «do» => exact handleDo_handles session opt
  case dont => exact handleDont_handles session opt

/-- The session as a party that answers option commands. -/
def party : Responder TelnetSession Flags where
  receive := handleTelnetOption
  keeps := flags
  answer := fun key => (rule key).answer
  keeps_receive := fun session verb opt key =>
    (handleTelnetOption_handles session verb opt).flags_eq key
  commands_receive := fun session verb opt => (handleTelnetOption_handles session verb opt).commands_eq
  subs_receive := fun session verb opt => (handleTelnetOption_handles session verb opt).subs_le

/-! ## Runs -/

/-- What a session advertises when it starts: options turned on, each once. -/
structure Advertised where
  /-- The commands sent. -/
  offers : List Command
  /-- No command is sent twice. -/
  distinct : offers.Nodup
  /-- Every one turns its option on. -/
  affirm : ∀ command ∈ offers, command.1.on

/-- A connection on which only what a session advertises is on its way. -/
def opened (advertised : Advertised) (ttypeMatched : Bool) : Connection TelnetSession where
  responder :=
    { negSentWill := fun opt => (.will, opt) ∈ advertised.offers
      negSentDo := fun opt => (.do, opt) ∈ advertised.offers
      negSentWont := fun _ => false
      negSentDont := fun _ => false
      ttypeMatched := ttypeMatched }
  peer := fun _ => .no
  toPeer := advertised.offers.map fun command => .option command.1 command.2
  toResponder := []

/-- Whether a session advertises an option of a side. -/
def Advertised.has (advertised : Advertised) (key : Key) : Bool :=
  Command.of (Key.other key) true ∈ advertised.offers

/-- A command that turns an option on is the one made for its key. -/
theorem Command.of_key {command : Command} (affirms : command.1.on) :
    Command.of command.key true = command := by
  obtain ⟨_ | _ | _ | _, opt⟩ := command <;> first | rfl | cases affirms

/-- Options turned on, each once, say at most one thing about a key. -/
theorem signals_offers (key : Key) {offers : List Command} (distinct : offers.Nodup)
    (affirm : ∀ command ∈ offers, command.1.on) :
    signals key offers = if Command.of key true ∈ offers then [true] else [] := by
  induction offers with
  | nil => rfl
  | cons command rest made =>
    have affirms := affirm command List.mem_cons_self
    have made := made distinct.tail fun other among => affirm other (List.mem_cons_of_mem _ among)
    rw [signals_cons, made]
    by_cases same : command.key = key
    · have whole : Command.of key true = command := by
        rw [← same]
        exact Command.of_key affirms
      have once : command ∉ rest := (List.nodup_cons.mp distinct).1
      simp [same, whole, once, affirms]
    · have other : Command.of key true ≠ command := by
        intro whole
        exact same (by rw [← whole, Command.key_of])
      simp [same, other]

/-- The links of a connection that was just opened. -/
theorem view_opened (advertised : Advertised) (ttypeMatched : Bool) (key : Key) :
    party.view (opened advertised ttypeMatched) key = openedLink (advertised.has key) := by
  have sent : commands (opened advertised ttypeMatched).toPeer = advertised.offers := by
    simp [opened, commands, List.filterMap_map]
  have waiting := signals_offers (Key.other key) advertised.distinct advertised.affirm
  simp only [Responder.view, sent, waiting]
  obtain ⟨_ | _, opt⟩ := key
  · by_cases offered : (Verb.will, opt) ∈ advertised.offers
    · simp [opened, openedLink, party, flags, Advertised.has, Command.of, Key.other, Side.other,
        Verb.of, offered]
    · simp [opened, openedLink, party, flags, Advertised.has, Command.of, Key.other, Side.other,
        Verb.of, offered]
  · by_cases offered : (Verb.do, opt) ∈ advertised.offers
    · simp [opened, openedLink, party, flags, Advertised.has, Command.of, Key.other, Side.other,
        Verb.of, offered]
    · simp [opened, openedLink, party, flags, Advertised.has, Command.of, Key.other, Side.other,
        Verb.of, offered]

/-- The session receives an option turned on only when it has not refused it, where it remembers
refusals. -/
def RefusalClear (session : TelnetSession) (verb : Verb) (opt : UInt8) : Prop :=
  (verb = .do → opt ≠ optBinary → opt ≠ optStatus → opt ≠ optTimingMark →
    session.negSentWont opt = false) ∧
  (verb = .will → opt ≠ optBinary → session.negSentDont opt = false)

/-- A refusal that is clear is clear on its link. -/
theorem refusalClear_permits : party.Permits RefusalClear fun key => (rule key).refusalClear := by
  intro session verb opt clear
  cases verb
  case will =>
    by_cases binary : opt = optBinary
    · simp [Command.key, Verb.side, rule, binary, Rule.refusalClear]
    · simp [Command.key, Verb.side, Verb.on, party, flags, Rule.refusalClear, clear.2 rfl binary]
  case wont => simp [Command.key, Verb.on, Rule.refusalClear]
  case «do» =>
    by_cases binary : opt = optBinary ∨ opt = optStatus
    · simp [Command.key, Verb.side, rule, binary, Rule.refusalClear]
    · by_cases mark : opt = optTimingMark
      · have marks : rule (.ours, opt) = .marks := by
          simp only [rule, if_neg binary, if_pos mark]
        simp [Command.key, Verb.side, marks, Rule.refusalClear]
      · have kept := clear.1 rfl (fun same => binary (.inl same)) (fun same => binary (.inr same)) mark
        simp [Command.key, Verb.side, Verb.on, party, flags, Rule.refusalClear, kept]
  case dont => simp [Command.key, Verb.on, Rule.refusalClear]

/-- The messages of a run are paid for by the start and by the changes of mind. -/
theorem run_bounded {advertised : Advertised} {ttypeMatched : Bool} {asks messages : Nat}
    {connection : Connection TelnetSession}
    (run : party.Run (fun _ _ _ => True) (opened advertised ttypeMatched) asks messages
      connection) : messages ≤ 4096 + 8 * asks := by
  have sound : party.LinksSound (fun _ _ _ => true) (fun _ _ _ => true)
      (opened advertised ttypeMatched)
      (fun key => foundLinks (rule key) (fun _ _ => true) (advertised.has key))
      (fun key => linkCost (rule key) fun _ _ => true) := by
    intro key
    rw [view_opened]
    exact links_bounded (rule key) (advertised.has key)
  have few : ∀ key, linkCost (rule key) (fun _ _ => true)
      (party.view (opened advertised ttypeMatched) key) ≤ 4 := by
    intro key
    rw [view_opened]
    generalize rule key = rule
    generalize advertised.has key = offered
    cases rule <;> cases offered <;> decide +kernel
  have unsent : subs (opened advertised ttypeMatched).toPeer = 0 := by
    simp [opened, subs, List.countP_map, Function.comp_def]
  exact Responder.run_messages (fun _ _ _ _ => rfl) sound few unsent run

/-- A quiet connection whose refusals were clear is settled. -/
theorem run_settled {advertised : Advertised} {ttypeMatched : Bool} {asks messages : Nat}
    {connection : Connection TelnetSession}
    (run : party.Run RefusalClear (opened advertised ttypeMatched) asks messages connection)
    (quiet : connection.quiet) (key : Key) :
    (rule key).settled (flags key connection.responder) (connection.peer key) := by
  have sound : party.LinksSound (fun key => (rule key).refusalClear)
      (fun key => (rule key).settled) (opened advertised ttypeMatched)
      (fun key => foundLinks (rule key) (rule key).refusalClear (advertised.has key))
      (fun key => linkCost (rule key) (rule key).refusalClear) := by
    intro key
    rw [view_opened]
    exact links_settle (rule key) (advertised.has key)
  exact Responder.run_settled refusalClear_permits sound run quiet key

/-- A settled link that is no time mark is reported on exactly when the client holds it on, and the
client does not wait. -/
theorem settled_iff {rule : Rule} (timed : rule ≠ .marks) {flags : Flags} {peer : QState} :
    rule.settled flags peer ↔
      ((flags.said && !flags.refused) = true ↔ peer = .yes) ∧ ¬ peer.waits := by
  obtain ⟨said, refused⟩ := flags
  cases peer <;> cases said <;> cases refused <;> simp [Rule.settled, QState.waits, timed]

/-- Against a client that runs the Q-method, whatever options the session advertises, a run exchanges
no more messages than its changes of mind pay for. As long as no option is turned on that the session
remembers having refused, a quiet connection has every option on for the client exactly when the
session reports it on, and the client does not wait. -/
theorem session_options_agree (advertised : Advertised) (ttypeMatched : Bool) :
    (∀ asks messages connection,
      party.Run (fun _ _ _ => True) (opened advertised ttypeMatched) asks messages connection →
        messages ≤ 4096 + 8 * asks) ∧
    ∀ asks messages connection,
      party.Run RefusalClear (opened advertised ttypeMatched) asks messages connection →
        connection.quiet → ∀ opt,
          (opt ≠ optTimingMark →
            (connection.responder.willed opt ↔ connection.peer (.ours, opt) = .yes) ∧
              ¬ (connection.peer (.ours, opt)).waits) ∧
          (connection.responder.doed opt ↔ connection.peer (.theirs, opt) = .yes) ∧
            ¬ (connection.peer (.theirs, opt)).waits := by
  refine ⟨fun _ _ _ => run_bounded, ?_⟩
  intro asks messages connection run quiet opt
  have unmarked : rule (.theirs, opt) ≠ .marks := by
    simp only [rule]
    split_ifs <;> simp
  constructor
  · intro timed
    have unmarked : rule (.ours, opt) ≠ .marks := by
      simp only [rule, if_neg timed]
      split_ifs <;> simp
    exact (settled_iff unmarked).mp (run_settled run quiet (.ours, opt))
  · exact (settled_iff unmarked).mp (run_settled run quiet (.theirs, opt))

/-- A session that advertises its echo. -/
def advertisedEcho : Advertised where
  offers := [(.will, optEcho)]
  distinct := List.nodup_singleton _
  affirm := by simp [Verb.on]

/-- The client declines the echo, and the session withdraws it. -/
def echoDeclined : Connection TelnetSession :=
  (party.respond ((opened advertisedEcho false).hear false (.option .will optEcho) []) .dont optEcho
    []).hear true (.option .wont optEcho) []

/-- Declining the echo is a run, whatever of turning options on is allowed. -/
theorem echoDeclined_run (allowed : TelnetSession → Verb → UInt8 → Prop)
    (permitted : ∀ session opt, allowed session .dont opt) :
    party.Run allowed (opened advertisedEcho false) 0 3 echoDeclined := by
  have heard := @Responder.Run.hear _ _ party allowed (opened advertisedEcho false) _ _ _ _ [] false
    .start rfl
  have withdrawn := @Responder.Run.respond _ _ party allowed _ _ _ _ .dont optEcho [] heard rfl
    (permitted _ _)
  exact .hear true withdrawn rfl

/-- Then the client offers its window size, and the session takes the offer. -/
def windowOffered : Connection TelnetSession :=
  (party.respond (echoDeclined.ask (.theirs, optNaws) true) .will optNaws []).hear true
    (.option .do optNaws) []

/-- A session whose echo was declined reports it off and the window size that it was offered then
on, as the client has them. -/
theorem session_options_agree_declined :
    (¬ windowOffered.responder.willed optEcho ∧ windowOffered.peer (.ours, optEcho) ≠ .yes) ∧
      windowOffered.responder.doed optNaws ∧ windowOffered.peer (.theirs, optNaws) = .yes ∧
      ¬ (windowOffered.peer (.theirs, optNaws)).waits := by
  have declined := echoDeclined_run RefusalClear fun _ _ => ⟨nofun, nofun⟩
  have asked := Responder.Run.ask (.theirs, optNaws) true declined
  have taken := @Responder.Run.respond _ _ party RefusalClear _ _ _ _ .will optNaws [] asked rfl
    ⟨nofun, fun _ _ => by decide⟩
  have run : party.Run RefusalClear (opened advertisedEcho false) 1 5 windowOffered :=
    .hear true taken rfl
  have agreed := (session_options_agree advertisedEcho false).2 _ _ _ run ⟨rfl, rfl⟩
  have off : ¬ windowOffered.responder.willed optEcho := by decide
  have on : windowOffered.responder.doed optNaws := by decide
  exact ⟨⟨off, fun held => off ((agreed optEcho).1 (by decide) |>.1.mpr held)⟩, on,
    (agreed optNaws).2.1.mp on, (agreed optNaws).2.2⟩

/-- An echo asked for after it was declined is never answered. -/
theorem session_options_disagree :
    ∃ asks messages connection,
      party.Run (fun _ _ _ => True) (opened advertisedEcho false) asks messages connection ∧
        connection.quiet ∧ (connection.peer (.ours, optEcho)).waits := by
  have asked := Responder.Run.ask (.ours, optEcho) true
    (echoDeclined_run (fun _ _ _ => True) fun _ _ => trivial)
  have unanswered := @Responder.Run.respond _ _ party _ _ _ _ _ .do optEcho [] asked rfl trivial
  exact ⟨_, _, _, unanswered, ⟨rfl, rfl⟩, rfl⟩

end TelnetSession

end EthernetGateway.Telnet
