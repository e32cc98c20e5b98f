import EthernetGateway.Telnet.GatewayIac
import EthernetGateway.Telnet.Negotiation

/-!
# The gateway's options against a Q-method peer

The gateway answers each option command by the machine of its own option and side, so it is an
answering party. Three kinds of links start a connection: the gateway refuses the option, it would
accept it, or it has already offered it.
-/

namespace EthernetGateway.Telnet

/-- Whether an option waits for an answer. -/
def OptState.waits (state : OptState) : Bool := state ≠ .no && state ≠ .yes

namespace GatewayTelnetIac

/-- Whether the gateway cooperates on an option of a side, and what it keeps about it. -/
def keeps (key : Key) (gateway : GatewayTelnetIac) : Bool × OptSide :=
  match key with
  | (.ours, opt) => (gateway.cooperateWithHisDo opt, gateway.us opt)
  | (.theirs, opt) => (cooperateWithHisWill opt, gateway.him opt)

/-- The machine of one option on one side. -/
def answer (kept : Bool × OptSide) (on : Bool) : (Bool × OptSide) × Option Bool :=
  let received := if on then kept.2.recvOn kept.1 else kept.2.recvOff
  ((kept.1, received.1), received.2)

/-- What is kept on the remote's side after it is set. -/
theorem keeps_setHim (gateway : GatewayTelnetIac) (opt : UInt8) (side : OptSide) (key : Key) :
    keeps key (gateway.setHim opt side) =
      if key = (.theirs, opt) then ((keeps key gateway).1, side) else keeps key gateway := by
  obtain ⟨_ | _, other⟩ := key
  · simp [keeps, setHim, us, cooperateWithHisDo]
  · by_cases same : other = opt
    · subst same
      simp [keeps, setHim, him]
    · simp [keeps, setHim, him, same]

/-- What is kept on our side after it is set. -/
theorem keeps_setUs (gateway : GatewayTelnetIac) (opt : UInt8) (side : OptSide) (key : Key) :
    keeps key (gateway.setUs opt side) =
      if key = (.ours, opt) then ((keeps key gateway).1, side) else keeps key gateway := by
  obtain ⟨_ | _, other⟩ := key
  · by_cases same : other = opt
    · subst same
      simp [keeps, setUs, us, cooperateWithHisDo]
    · simp [keeps, setUs, us, cooperateWithHisDo, same]
  · simp [keeps, setUs, him]

/-- A command changes what is kept about its own option and side only. -/
theorem keeps_handleRecv (gateway : GatewayTelnetIac) (verb : Verb) (opt : UInt8) (key : Key) :
    keeps key (gateway.handleRecv verb opt).1 =
      if key = Command.key (verb, opt) then (answer (keeps key gateway) verb.on).1
      else keeps key gateway := by
  by_cases same : key = Command.key (verb, opt)
  · subst same
    rw [if_pos rfl]
    cases verb
    case will => exact (keeps_setHim gateway opt _ _).trans (if_pos rfl)
    case wont => exact (keeps_setHim gateway opt _ _).trans (if_pos rfl)
    case «do» => exact (keeps_setUs gateway opt _ _).trans (if_pos rfl)
    case dont => exact (keeps_setUs gateway opt _ _).trans (if_pos rfl)
  · rw [if_neg same]
    cases verb
    case will => exact (keeps_setHim gateway opt _ _).trans (if_neg same)
    case wont => exact (keeps_setHim gateway opt _ _).trans (if_neg same)
    case «do» => exact (keeps_setUs gateway opt _ _).trans (if_neg same)
    case dont => exact (keeps_setUs gateway opt _ _).trans (if_neg same)

/-- The commands sent on the remote's side. -/
theorem commands_answerHim (opt : UInt8) (answer : Option Bool) :
    commands (answerHim opt answer) = answer.toList.map (Command.of (.ours, opt)) := by
  obtain _ | _ | _ := answer <;> rfl

/-- The commands sent on our side. -/
theorem commands_answerUs (opt : UInt8) (answer : Option Bool) :
    commands (answerUs opt answer) = answer.toList.map (Command.of (.theirs, opt)) := by
  obtain _ | _ | _ := answer <;> rfl

/-- The commands sent are the answer of the machine. -/
theorem commands_handleRecv (gateway : GatewayTelnetIac) (verb : Verb) (opt : UInt8) :
    commands (gateway.handleRecv verb opt).2 =
      (answer (keeps (Command.key (verb, opt)) gateway) verb.on).2.toList.map
        (Command.of (Key.other (Command.key (verb, opt)))) := by
  cases verb
  case will => exact commands_answerHim opt _
  case wont => exact commands_answerHim opt _
  case «do» =>
    simp only [handleRecv, handleRecvDo, commands_append, commands_answerUs]
    split_ifs
    · exact List.append_nil _
    · exact List.append_nil _
  case dont => exact commands_answerUs opt _

/-- An answer on the remote's side is no subnegotiation. -/
@[simp] theorem subs_answerHim (opt : UInt8) (answer : Option Bool) :
    subs (answerHim opt answer) = 0 := by
  obtain _ | _ | _ := answer <;> rfl

/-- An answer on our side is no subnegotiation. -/
@[simp] theorem subs_answerUs (opt : UInt8) (answer : Option Bool) :
    subs (answerUs opt answer) = 0 := by
  obtain _ | _ | _ := answer <;> rfl

/-- At most one subnegotiation is sent. -/
theorem subs_handleRecv (gateway : GatewayTelnetIac) (verb : Verb) (opt : UInt8) :
    subs (gateway.handleRecv verb opt).2 ≤ 1 := by
  cases verb
  case will => simp [handleRecv, handleRecvWill]
  case wont => simp [handleRecv, handleRecvWont]
  case «do» =>
    simp only [handleRecv, handleRecvDo, subs_append, subs_answerUs, Nat.zero_add]
    split_ifs
    · exact Nat.le_refl 1
    · exact Nat.zero_le 1
  case dont => simp [handleRecv, handleRecvDont]

/-- The gateway as a party that answers option commands. -/
def party : Responder GatewayTelnetIac (Bool × OptSide) where
  receive := handleRecv
  keeps := keeps
  answer := fun _ => answer
  keeps_receive := keeps_handleRecv
  commands_receive := commands_handleRecv
  subs_receive := subs_handleRecv

/-- A connection on which only the initial offers are on their way. -/
def opened (cooperate : Bool) (terminalName : List UInt8) (windowCols windowRows : UInt16) :
    Connection GatewayTelnetIac where
  responder := new cooperate terminalName windowCols windowRows
  peer := fun _ => .no
  toPeer := initialOffers cooperate
  toResponder := []

/-- A link on which the option is off, or offered and the offer is on its way. -/
def openedLink (cooperates offered : Bool) : Link (Bool × OptSide) where
  responder := (cooperates, ⟨if offered then .wantYes else .no, false⟩)
  peer := .no
  toPeer := if offered then [true] else []
  toResponder := []

/-- Whether a key's option is offered. -/
def offers (cooperate : Bool) : Key → Bool
  | (.ours, opt) => cooperate && (opt = optTtype || opt = optNaws)
  | (.theirs, opt) => cooperate && opt = optEcho

/-- Whether the gateway cooperates on a key's option. -/
def cooperates (cooperate : Bool) : Key → Bool
  | (.ours, opt) => cooperate && (opt = optTtype || opt = optNaws)
  | (.theirs, opt) => opt = optEcho

/-- The gateway cooperates on what it offers. -/
theorem cooperates_of_offers {cooperate : Bool} {key : Key} (offered : offers cooperate key) :
    cooperates cooperate key := by
  obtain ⟨_ | _, opt⟩ := key
  · exact offered
  · exact (Bool.and_eq_true_iff.mp offered).2

/-- The links of a connection that was just opened. -/
theorem view_opened (cooperate : Bool) (terminalName : List UInt8)
    (windowCols windowRows : UInt16) (key : Key) :
    party.view (opened cooperate terminalName windowCols windowRows) key =
      openedLink (cooperates cooperate key) (offers cooperate key) := by
  obtain ⟨_ | _, opt⟩ := key <;> cases cooperate
  · simp [Responder.view, opened, openedLink, party, keeps, new, us, cooperateWithHisDo, offers,
      cooperates, initialOffers, commands]
  · by_cases ttype : opt = optTtype
    · subst ttype
      rfl
    · by_cases naws : opt = optNaws
      · subst naws
        rfl
      · simp [Responder.view, opened, openedLink, party, keeps, new, us, cooperateWithHisDo, offers,
          cooperates, initialOffers, commands, signals, Key.other, Command.key, Side.other,
          Verb.side, ttype, naws, Ne.symm ttype, Ne.symm naws]
  · simp [Responder.view, opened, openedLink, party, keeps, new, him, cooperateWithHisWill, offers,
      cooperates, initialOffers, commands]
  · by_cases echo : opt = optEcho
    · subst echo
      rfl
    · simp [Responder.view, opened, openedLink, party, keeps, new, him, cooperateWithHisWill,
        offers, cooperates, initialOffers, commands, signals, Key.other, Command.key, Side.other,
        Verb.side, echo, Ne.symm echo]

/-- Neither party waits, and the option is on for both or for neither. -/
def settled (kept : Bool × OptSide) (peer : QState) : Bool :=
  !kept.2.state.waits && !peer.waits && ((kept.2.state = .yes) == (peer = .yes))

/-- The gateway has no refusal outstanding on an option that is turned on. -/
def refusalClear (kept : Bool × OptSide) (on : Bool) : Bool := !(on && kept.2.refused)

/-- The links found from one that was just opened. -/
def foundLinks (permits : Bool × OptSide → Bool → Bool) (cooperates offered : Bool) :
    List (Link (Bool × OptSide)) :=
  explore (Link.next answer permits) 12 [openedLink cooperates offered]
    [openedLink cooperates offered]

/-- How many signals a link can still deliver. -/
def linkCost (permits : Bool × OptSide → Bool → Bool) (link : Link (Bool × OptSide)) : Nat :=
  longest (Link.deliveries answer permits) 6 link

/-- Each kind of link is sound when no refusal is outstanding on an option turned on. -/
theorem links_settle {cooperates offered : Bool} (offered_cooperates : offered → cooperates) :
    Link.Sound answer refusalClear settled (openedLink cooperates offered)
      (foundLinks refusalClear cooperates offered) (linkCost refusalClear) := by
  obtain _ | _ := offered
  · obtain _ | _ := cooperates
    · decide +kernel
    · decide +kernel
  · obtain rfl := offered_cooperates rfl
    decide +kernel

/-- Each kind of link delivers only so much, whatever is outstanding. -/
theorem links_bounded {cooperates offered : Bool} (offered_cooperates : offered → cooperates) :
    Link.Sound answer (fun _ _ => true) (fun _ _ => true) (openedLink cooperates offered)
      (foundLinks (fun _ _ => true) cooperates offered) (linkCost fun _ _ => true) := by
  obtain _ | _ := offered
  · obtain _ | _ := cooperates
    · decide +kernel
    · decide +kernel
  · obtain rfl := offered_cooperates rfl
    decide +kernel

/-- The gateway receives an option turned on only when it has no refusal of it outstanding. -/
def RefusalClear (gateway : GatewayTelnetIac) (verb : Verb) (opt : UInt8) : Prop :=
  (verb = .will → gateway.sentDont opt = false) ∧ (verb = .do → gateway.sentWont opt = false)

/-- A refusal that is clear is clear on its link. -/
theorem refusalClear_permits :
    party.Permits RefusalClear fun _ => refusalClear := by
  intro gateway verb opt clear
  cases verb
  case will => simp [refusalClear, party, keeps, Command.key, Verb.side, him, clear.1 rfl]
  case wont => rfl
  case «do» => simp [refusalClear, party, keeps, Command.key, Verb.side, us, clear.2 rfl]
  case dont => rfl

/-- A message makes the gateway send at most one option command. -/
theorem handleRecv_answers_once (gateway : GatewayTelnetIac) (verb : Verb) (opt : UInt8) :
    (commands (gateway.handleRecv verb opt).2).length ≤ 1 := by
  rw [commands_handleRecv, List.length_map]
  obtain _ | _ := (answer (keeps (Command.key (verb, opt)) gateway) verb.on).2
  · exact Nat.zero_le 1
  · exact Nat.le_refl 1

/-- A subnegotiation makes the gateway send no option command. -/
theorem processSubneg_commands (gateway : GatewayTelnetIac) :
    commands gateway.processSubneg = [] := by
  simp only [processSubneg]
  split_ifs
  · rfl
  · rfl

/-- Nothing is sent at the start but commands. -/
theorem subs_initialOffers (cooperate : Bool) : subs (initialOffers cooperate) = 0 := by
  cases cooperate <;> rfl

/-- The messages of a run are paid for by the start and by the changes of mind. -/
theorem run_bounded {cooperate : Bool} {terminalName : List UInt8} {windowCols windowRows : UInt16}
    {asks messages : Nat} {connection : Connection GatewayTelnetIac}
    (run : party.Run (fun _ _ _ => True) (opened cooperate terminalName windowCols windowRows) asks
      messages connection) : messages ≤ 2048 + 8 * asks := by
  have sound : party.LinksSound (fun _ _ _ => true) (fun _ _ _ => true)
      (opened cooperate terminalName windowCols windowRows)
      (fun key => foundLinks (fun _ _ => true) (cooperates cooperate key) (offers cooperate key))
      (fun _ => linkCost fun _ _ => true) := by
    intro key
    rw [view_opened]
    exact links_bounded cooperates_of_offers
  have few : ∀ key, linkCost (fun _ _ => true)
      (party.view (opened cooperate terminalName windowCols windowRows) key) ≤ 2 := by
    intro key
    rw [view_opened]
    generalize cooperates cooperate key = cooperates
    generalize offers cooperate key = offered
    decide +kernel +revert
  exact Responder.run_messages (fun _ _ _ _ => rfl) sound few (subs_initialOffers cooperate) run

/-- A quiet connection whose refusals were clear is settled. -/
theorem run_settled {cooperate : Bool} {terminalName : List UInt8} {windowCols windowRows : UInt16}
    {asks messages : Nat} {connection : Connection GatewayTelnetIac}
    (run : party.Run RefusalClear (opened cooperate terminalName windowCols windowRows) asks
      messages connection) (quiet : connection.quiet) (key : Key) :
    settled (keeps key connection.responder) (connection.peer key) := by
  have sound : party.LinksSound (fun _ => refusalClear) (fun _ => settled)
      (opened cooperate terminalName windowCols windowRows)
      (fun key => foundLinks refusalClear (cooperates cooperate key) (offers cooperate key))
      (fun _ => linkCost refusalClear) := by
    intro key
    rw [view_opened]
    exact links_settle cooperates_of_offers
  exact Responder.run_settled refusalClear_permits sound run quiet key

/-- A settled link is on for both parties or for neither, and neither waits. -/
theorem settled_iff {kept : Bool × OptSide} {peer : QState} :
    settled kept peer ↔
      (kept.2.state = .yes ↔ peer = .yes) ∧ ¬ kept.2.state.waits ∧ ¬ peer.waits := by
  obtain ⟨cooperates, state, refused⟩ := kept
  cases state <;> cases peer <;> simp [settled, OptState.waits, QState.waits]

/-- Against a peer that runs the Q-method, a message makes the gateway send at most one option
command, and a run exchanges no more messages than its changes of mind pay for. As long as no option
is turned on while the gateway's refusal of it is outstanding, a quiet connection has every option
on for both parties or for neither, with nobody waiting. -/
theorem gateway_options_agree (cooperate : Bool) (terminalName : List UInt8)
    (windowCols windowRows : UInt16) :
    (∀ gateway verb opt, (commands (handleRecv gateway verb opt).2).length ≤ 1) ∧
    (∀ gateway, commands (processSubneg gateway) = []) ∧
    (∀ asks messages connection,
      party.Run (fun _ _ _ => True) (opened cooperate terminalName windowCols windowRows) asks
        messages connection → messages ≤ 2048 + 8 * asks) ∧
    ∀ asks messages connection,
      party.Run RefusalClear (opened cooperate terminalName windowCols windowRows) asks messages
        connection → connection.quiet → ∀ opt,
        ((connection.responder.usState opt = .yes ↔ connection.peer (.ours, opt) = .yes) ∧
          ¬ (connection.responder.usState opt).waits ∧ ¬ (connection.peer (.ours, opt)).waits) ∧
        ((connection.responder.himState opt = .yes ↔ connection.peer (.theirs, opt) = .yes) ∧
          ¬ (connection.responder.himState opt).waits ∧
          ¬ (connection.peer (.theirs, opt)).waits) := by
  refine ⟨handleRecv_answers_once, processSubneg_commands, fun _ _ _ => run_bounded, ?_⟩
  intro asks messages connection run quiet opt
  exact ⟨settled_iff.mp (run_settled run quiet (.ours, opt)),
    settled_iff.mp (run_settled run quiet (.theirs, opt))⟩

/-- The peer offers an option, is refused, and hears of it. -/
def refusedOnce : Connection GatewayTelnetIac :=
  (party.respond ((opened false [] 80 24).ask (.theirs, 0) true) .will 0 []).hear true
    (.option .dont 0) []

/-- A refusal is a run wherever the offer is allowed. -/
theorem refusedOnce_run (allowed : GatewayTelnetIac → Verb → UInt8 → Prop)
    (permitted : allowed (new false [] 80 24) .will 0) :
    party.Run allowed (opened false [] 80 24) 1 2 refusedOnce := by
  have asked := Responder.Run.ask (.theirs, 0) true (@Responder.Run.start _ _ party allowed
    (opened false [] 80 24))
  have answered := @Responder.Run.respond _ _ party allowed _ _ _ _ .will 0 [] asked rfl permitted
  exact .hear true answered rfl

/-- A refusal heard leaves the option off for both parties. -/
theorem gateway_options_agree_refused :
    refusedOnce.responder.himState 0 ≠ .yes ∧ refusedOnce.peer (.theirs, 0) ≠ .yes ∧
      ¬ (refusedOnce.peer (.theirs, 0)).waits := by
  have run := refusedOnce_run RefusalClear ⟨fun _ => rfl, nofun⟩
  have agreed := ((gateway_options_agree false [] 80 24).2.2.2 _ _ _ run ⟨rfl, rfl⟩ 0).2
  have off : refusedOnce.responder.himState 0 ≠ .yes := by decide
  exact ⟨off, fun on => off (agreed.1.mpr on), agreed.2.2⟩

/-- An option offered again after a refusal is never answered. -/
theorem gateway_options_disagree :
    ∃ asks messages connection,
      party.Run (fun _ _ _ => True) (opened false [] 80 24) asks messages connection ∧
        connection.quiet ∧ (connection.peer (.theirs, 0)).waits := by
  have again := Responder.Run.ask (.theirs, 0) true (refusedOnce_run (fun _ _ _ => True) trivial)
  have unanswered := @Responder.Run.respond _ _ party _ _ _ _ _ .will 0 [] again rfl trivial
  exact ⟨_, _, _, unanswered, ⟨rfl, rfl⟩, rfl⟩

end GatewayTelnetIac

end EthernetGateway.Telnet
