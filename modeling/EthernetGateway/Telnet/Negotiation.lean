import EthernetGateway.Telnet.QMethod
import EthernetGateway.Telnet.Iac

/-!
# A connection that negotiates options

A party that answers option commands is joined, over two queues, with a peer that runs the Q-method
on both sides of every option. One option on one side sees only its own commands, so the connection
is a family of independent links, and what every link keeps, the connection keeps.
-/

namespace EthernetGateway.Telnet

/-! ## Sides of an option -/

/-- The two sides of an option, as the answering party names them. -/
inductive Side where
  | ours
  | theirs
  deriving DecidableEq

instance : Fintype Side where
  elems := {.ours, .theirs}
  complete := fun side => by cases side <;> decide

/-- The same side, as the peer names it. -/
def Side.other : Side → Side
  | ours => theirs
  | theirs => ours

/-- A side is the other one's other. -/
@[simp] theorem Side.other_other (side : Side) : side.other.other = side := by
  cases side <;> rfl

namespace Verb

/-- The side a verb speaks of, for the party that receives it. -/
def side : Verb → Side
  | will => .theirs
  | wont => .theirs
  | .do => .ours
  | dont => .ours

/-- Whether a verb turns its option on. -/
def on : Verb → Bool
  | will => true
  | wont => false
  | .do => true
  | dont => false

/-- The verb that turns a side of its receiver on or off. -/
def of : Side → Bool → Verb
  | .theirs, true => will
  | .theirs, false => wont
  | .ours, true => .do
  | .ours, false => dont

/-- A verb speaks of the side it was made for. -/
@[simp] theorem side_of (side : Side) (on : Bool) : (of side on).side = side := by
  cases side <;> cases on <;> rfl

/-- A verb turns its option the way it was made for. -/
@[simp] theorem on_of (side : Side) (on : Bool) : (of side on).on = on := by
  cases side <;> cases on <;> rfl

end Verb

/-- One option on one side, as the answering party names it. -/
abbrev Key := Side × UInt8

/-- There are two keys for every option. -/
theorem keys_card : Fintype.card Key = 512 := by
  rw [Fintype.card_prod, ← @FinEnum.card_eq_fintypeCard UInt8 _ _, FinEnum.card_UInt8]
  rfl

/-- The same option and side, as the peer names it. -/
def Key.other (key : Key) : Key := (key.1.other, key.2)

/-- A key is the other one's other. -/
@[simp] theorem Key.other_other (key : Key) : Key.other (Key.other key) = key := by
  simp [Key.other]

/-- Two keys are the same when their others are. -/
theorem Key.other_eq_iff (key key' : Key) : Key.other key = key' ↔ key = Key.other key' := by
  constructor <;> intro same
  · rw [← same, Key.other_other]
  · rw [same, Key.other_other]

/-! ## Commands on a queue -/

/-- An option command. -/
abbrev Command := Verb × UInt8

/-- The option and side a command speaks of, for its receiver. -/
def Command.key (command : Command) : Key := (command.1.side, command.2)

/-- The command that turns an option on a side of its receiver on or off. -/
def Command.of (key : Key) (on : Bool) : Command := (Verb.of key.1 on, key.2)

/-- A command speaks of the key it was made for. -/
@[simp] theorem Command.key_of (key : Key) (on : Bool) : (Command.of key on).key = key := by
  simp [Command.key, Command.of]

/-- A command turns its option the way it was made for. -/
@[simp] theorem Command.on_of (key : Key) (on : Bool) : (Command.of key on).1.on = on := by
  simp [Command.of]

/-- The option commands among replies. -/
def commands (replies : List Reply) : List Command :=
  replies.filterMap fun
    | .option verb opt => some (verb, opt)
    | .sub _ _ => none

/-- How many subnegotiations are among replies. -/
def subs (replies : List Reply) : Nat :=
  replies.countP fun
    | .option _ _ => false
    | .sub _ _ => true

/-- What a queue of commands says about a key. -/
def signals (key : Key) (queue : List Command) : List Bool :=
  queue.filterMap fun command => if command.key = key then some command.1.on else none

/-- Signals of two queues in a row. -/
@[simp] theorem signals_append (key : Key) (left right : List Command) :
    signals key (left ++ right) = signals key left ++ signals key right := by
  simp [signals]

/-- An empty queue says nothing. -/
@[simp] theorem signals_nil (key : Key) : signals key [] = [] := rfl

/-- Signals of a queue with a command at its head. -/
theorem signals_cons (key : Key) (command : Command) (queue : List Command) :
    signals key (command :: queue) =
      (if command.key = key then [command.1.on] else []) ++ signals key queue := by
  by_cases same : command.key = key <;> simp [signals, same]

/-- Signals of at most one command made for a key. -/
theorem signals_answer (key key' : Key) (answer : Option Bool) :
    signals key (answer.toList.map (Command.of key')) = if key = key' then answer.toList else [] := by
  cases answer with
  | none => simp
  | some on =>
    by_cases same : key = key'
    · simp [signals, same]
    · simp [signals, same, Ne.symm same]

/-- Commands of replies in a row. -/
@[simp] theorem commands_append (left right : List Reply) :
    commands (left ++ right) = commands left ++ commands right := by
  simp [commands]

/-- Subnegotiations of replies in a row. -/
@[simp] theorem subs_append (left right : List Reply) :
    subs (left ++ right) = subs left + subs right := by
  simp [subs]

/-! ## The two parties -/

/-- A party that answers option commands. It keeps something about each option on each side, which
only commands about that option and side change, and it answers a command with at most one command
about the same option and side and at most one subnegotiation. -/
structure Responder (α ρ : Type) where
  /-- The party receives a command. -/
  receive : α → Verb → UInt8 → α × List Reply
  /-- What it keeps about an option on a side. -/
  keeps : Key → α → ρ
  /-- What a command makes of it, and the answer. -/
  answer : Key → ρ → Bool → ρ × Option Bool
  /-- A command changes what is kept about its own option and side only. -/
  keeps_receive : ∀ party verb opt key,
    keeps key (receive party verb opt).1 =
      if key = Command.key (verb, opt) then (answer key (keeps key party) verb.on).1
      else keeps key party
  /-- The commands sent are the answer. -/
  commands_receive : ∀ party verb opt,
    commands (receive party verb opt).2 =
      (answer (Command.key (verb, opt)) (keeps (Command.key (verb, opt)) party) verb.on).2.toList.map
        (Command.of (Key.other (Command.key (verb, opt))))
  /-- At most one subnegotiation is sent. -/
  subs_receive : ∀ party verb opt, subs (receive party verb opt).2 ≤ 1

/-- An answering party, its peer, and the two queues between them. -/
structure Connection (α : Type) where
  /-- The party that answers. -/
  responder : α
  /-- The peer's Q-method, option by option and side by side. -/
  peer : Key → QState
  /-- What is on its way to the peer. -/
  toPeer : List Reply
  /-- What is on its way to the answering party. -/
  toResponder : List Command

namespace Connection

variable {α : Type}

/-- The peer's user wants an option on or off. -/
def ask (connection : Connection α) (key : Key) (on : Bool) : Connection α :=
  { connection with
    peer := Function.update connection.peer key ((connection.peer key).ask on).1
    toResponder :=
      connection.toResponder ++ ((connection.peer key).ask on).2.toList.map (Command.of key) }

/-- The peer receives a reply. A subnegotiation is none of the Q-method's business. -/
def hear (connection : Connection α) (agrees : Bool) (reply : Reply) (rest : List Reply) :
    Connection α :=
  match reply with
  | .option verb opt =>
    let key := Key.other (Command.key (verb, opt))
    let heard := (connection.peer key).receive agrees verb.on
    { connection with
      peer := Function.update connection.peer key heard.1
      toPeer := rest
      toResponder := connection.toResponder ++ heard.2.toList.map (Command.of key) }
  | .sub _ _ => { connection with toPeer := rest }

/-- Nothing is on its way. -/
def quiet (connection : Connection α) : Prop :=
  connection.toPeer = [] ∧ connection.toResponder = []

end Connection

namespace Responder

variable {α ρ : Type} (party : Responder α ρ)

/-- The answering party receives a command. -/
def respond (connection : Connection α) (verb : Verb) (opt : UInt8) (rest : List Command) :
    Connection α :=
  { connection with
    responder := (party.receive connection.responder verb opt).1
    toPeer := connection.toPeer ++ (party.receive connection.responder verb opt).2
    toResponder := rest }

/-- A run from a start, with the number of times the peer's user changed its mind and the number of
messages received. The answering party receives only what is allowed. -/
inductive Run (allowed : α → Verb → UInt8 → Prop) (start : Connection α) :
    Nat → Nat → Connection α → Prop
  /-- Nothing has happened. -/
  | start : Run allowed start 0 0 start
  /-- The peer's user changes its mind. -/
  | ask {asks messages connection} (key : Key) (on : Bool)
      (run : Run allowed start asks messages connection) :
      Run allowed start (asks + 1) messages (connection.ask key on)
  /-- The answering party receives a command. -/
  | respond {asks messages connection verb opt rest}
      (run : Run allowed start asks messages connection)
      (arrives : connection.toResponder = (verb, opt) :: rest)
      (permitted : allowed connection.responder verb opt) :
      Run allowed start asks (messages + 1) (party.respond connection verb opt rest)
  /-- The peer receives a reply. -/
  | hear {asks messages connection reply rest} (agrees : Bool)
      (run : Run allowed start asks messages connection)
      (arrives : connection.toPeer = reply :: rest) :
      Run allowed start asks (messages + 1) (connection.hear agrees reply rest)

/-! ## The links of a connection -/

/-- One option on one side of a connection. -/
def view (connection : Connection α) (key : Key) : Link ρ where
  responder := party.keeps key connection.responder
  peer := connection.peer key
  toPeer := signals (Key.other key) (commands connection.toPeer)
  toResponder := signals key connection.toResponder

/-- A change of mind is one of its own link. -/
theorem view_ask (connection : Connection α) (key key' : Key) (on : Bool) :
    party.view (connection.ask key on) key' =
      if key' = key then (party.view connection key').ask on else party.view connection key' := by
  by_cases same : key' = key
  · subst same
    simp [view, Connection.ask, Link.ask, signals_answer]
  · simp [view, Connection.ask, signals_answer, same]

/-- What a link has waiting for the answering party when a command about it arrives. -/
theorem view_arrives {connection : Connection α} {verb : Verb} {opt : UInt8} {rest : List Command}
    (arrives : connection.toResponder = (verb, opt) :: rest) :
    (party.view connection (Command.key (verb, opt))).toResponder =
      verb.on :: signals (Command.key (verb, opt)) rest := by
  simp [view, arrives, signals_cons]

/-- A command received is received on its own link. -/
theorem view_respond {connection : Connection α} {verb : Verb} {opt : UInt8} {rest : List Command}
    (arrives : connection.toResponder = (verb, opt) :: rest) (key : Key) :
    party.view (party.respond connection verb opt rest) key =
      if key = Command.key (verb, opt) then
        (party.view connection key).respond (party.answer key) verb.on (signals key rest)
      else party.view connection key := by
  by_cases same : key = Command.key (verb, opt)
  · subst same
    simp [view, respond, Link.respond, party.keeps_receive, party.commands_receive, signals_answer]
  · have elsewhere : ¬ Key.other key = Key.other (Command.key (verb, opt)) := by
      simpa [Key.other_eq_iff] using same
    simp [view, respond, party.keeps_receive, party.commands_receive, signals_answer, same,
      elsewhere, arrives, signals_cons, Ne.symm same]

/-- What a link has waiting for the peer when a command about it arrives. -/
theorem view_hears {connection : Connection α} {verb : Verb} {opt : UInt8} {rest : List Reply}
    (arrives : connection.toPeer = .option verb opt :: rest) :
    (party.view connection (Key.other (Command.key (verb, opt)))).toPeer =
      verb.on :: signals (Command.key (verb, opt)) (commands rest) := by
  simp [view, arrives, commands, signals_cons]

/-- A command the peer receives is received on its own link. -/
theorem view_hear {connection : Connection α} {verb : Verb} {opt : UInt8} {rest : List Reply}
    (arrives : connection.toPeer = .option verb opt :: rest) (agrees : Bool) (key : Key) :
    party.view (connection.hear agrees (.option verb opt) rest) key =
      if key = Key.other (Command.key (verb, opt)) then
        (party.view connection key).receive agrees verb.on
          (signals (Key.other key) (commands rest))
      else party.view connection key := by
  by_cases same : key = Key.other (Command.key (verb, opt))
  · subst same
    simp [view, Connection.hear, Link.receive, signals_answer]
  · have elsewhere : ¬ Command.key (verb, opt) = Key.other key := by
      rw [eq_comm, Key.other_eq_iff]
      exact same
    simp [view, Connection.hear, signals_answer, same, elsewhere, arrives, commands, signals_cons]

/-- A subnegotiation the peer receives changes no link. -/
theorem view_hear_sub {connection : Connection α} {opt : UInt8} {body : List UInt8}
    {rest : List Reply} (arrives : connection.toPeer = .sub opt body :: rest) (agrees : Bool)
    (key : Key) :
    party.view (connection.hear agrees (.sub opt body) rest) key = party.view connection key := by
  simp [view, Connection.hear, arrives, commands]

/-! ## Runs -/

/-- Two sums over all keys whose terms differ at one key only. -/
theorem sum_changed (before after : Key → Nat) (key : Key)
    (elsewhere : ∀ other, other ≠ key → after other = before other) :
    ∑ other, after other + before key = ∑ other, before other + after key := by
  have same : (Finset.univ.erase key).sum after = (Finset.univ.erase key).sum before :=
    Finset.sum_congr rfl fun other erased => elsewhere other (Finset.ne_of_mem_erase erased)
  calc
    ∑ other, after other + before key
        = after key + (Finset.univ.erase key).sum after + before key := by
          rw [Finset.add_sum_erase Finset.univ after (Finset.mem_univ key)]
    _ = before key + (Finset.univ.erase key).sum before + after key := by
          rw [same]
          ring
    _ = ∑ other, before other + after key := by
          rw [Finset.add_sum_erase Finset.univ before (Finset.mem_univ key)]

section Sound

variable [DecidableEq ρ] {party : Responder α ρ}
  {allowed : α → Verb → UInt8 → Prop} {start : Connection α}
  {permits : Key → ρ → Bool → Bool} {settled : Key → ρ → QState → Bool}
  {found : Key → List (Link ρ)} {cost : Key → Link ρ → Nat}

/-- What is allowed of a connection is allowed of its links. -/
def Permits (party : Responder α ρ) (allowed : α → Verb → UInt8 → Prop)
    (permits : Key → ρ → Bool → Bool) : Prop :=
  ∀ state verb opt, allowed state verb opt →
    permits (Command.key (verb, opt)) (party.keeps (Command.key (verb, opt)) state) verb.on

/-- The links a connection starts from are sound. -/
def LinksSound (party : Responder α ρ) (permits : Key → ρ → Bool → Bool)
    (settled : Key → ρ → QState → Bool) (start : Connection α) (found : Key → List (Link ρ))
    (cost : Key → Link ρ → Nat) : Prop :=
  ∀ key, Link.Sound (party.answer key) (permits key) (settled key) (party.view start key)
    (found key) (cost key)

/-- What all links together can still deliver. -/
def total (party : Responder α ρ) (cost : Key → Link ρ → Nat) (connection : Connection α) : Nat :=
  ∑ key, cost key (party.view connection key)

variable (permitted : Permits party allowed permits)
  (sound : LinksSound party permits settled start found cost)

omit [DecidableEq ρ] in
/-- The link a command arrives on has it delivered. -/
theorem respond_delivered (permitted : Permits party allowed permits) {connection : Connection α}
    {verb : Verb} {opt : UInt8} {rest : List Command}
    (arrives : connection.toResponder = (verb, opt) :: rest)
    (passes : allowed connection.responder verb opt) :
    party.view (party.respond connection verb opt rest) (Command.key (verb, opt)) ∈
      (party.view connection (Command.key (verb, opt))).deliveries
        (party.answer (Command.key (verb, opt))) (permits (Command.key (verb, opt))) := by
  rw [view_respond party arrives, if_pos rfl]
  exact Link.respond_deliveries (party.view_arrives arrives) (permitted _ _ _ passes)

omit [DecidableEq ρ] in
/-- The link a command to the peer arrives on has it delivered. -/
theorem hear_delivered (permits : Key → ρ → Bool → Bool) {connection : Connection α} {verb : Verb}
    {opt : UInt8} {rest : List Reply} (arrives : connection.toPeer = .option verb opt :: rest)
    (agrees : Bool) :
    party.view (connection.hear agrees (.option verb opt) rest)
        (Key.other (Command.key (verb, opt))) ∈
      (party.view connection (Key.other (Command.key (verb, opt)))).deliveries
        (party.answer (Key.other (Command.key (verb, opt))))
        (permits (Key.other (Command.key (verb, opt)))) := by
  rw [view_hear party arrives, if_pos rfl, Key.other_other]
  exact Link.receive_deliveries (party.view_hears arrives) agrees

include permitted sound in
/-- Every link of every connection reached was found. -/
theorem run_found {asks messages : Nat} {connection : Connection α}
    (run : party.Run allowed start asks messages connection) (key : Key) :
    party.view connection key ∈ found key := by
  induction run generalizing key with
  | start => exact (sound key).started
  | @ask asks messages connection changed on run reached =>
    rw [view_ask]
    split_ifs with same
    · exact (sound key).closed _ (reached key) _ (Link.ask_next _ _ _ on)
    · exact reached key
  | @respond asks messages connection verb opt rest run arrives passes reached =>
    by_cases same : key = Command.key (verb, opt)
    · subst same
      exact (sound _).closed _ (reached _) _
        (Link.deliveries_next (respond_delivered permitted arrives passes))
    · rw [view_respond party arrives, if_neg same]
      exact reached key
  | @hear asks messages connection reply rest agrees run arrives reached =>
    cases reply with
    | option verb opt =>
      by_cases same : key = Key.other (Command.key (verb, opt))
      · subst same
        exact (sound _).closed _ (reached _) _
          (Link.deliveries_next (hear_delivered permits arrives agrees))
      · rw [view_hear party arrives, if_neg same]
        exact reached key
    | sub opt body =>
      rw [view_hear_sub party arrives]
      exact reached key

include permitted sound in
/-- Every quiet connection reached is settled, option by option and side by side. -/
theorem run_settled {asks messages : Nat} {connection : Connection α}
    (run : party.Run allowed start asks messages connection) (quiet : connection.quiet)
    (key : Key) : settled key (party.keeps key connection.responder) (connection.peer key) := by
  apply (sound key).agrees _ (run_found permitted sound run key)
  simp [Link.quiet, view, quiet.1, quiet.2, commands]

include permitted sound in
/-- The messages received and those that can still be are paid for by the start and by the changes
of mind. A command counts twice, because it may set off a subnegotiation. -/
theorem run_paid {asks messages : Nat} {connection : Connection α}
    (run : party.Run allowed start asks messages connection) :
    messages + 2 * party.total cost connection + subs connection.toPeer ≤
      2 * party.total cost start + subs start.toPeer + 8 * asks := by
  induction run with
  | start => omega
  | @ask asks messages connection changed on run paid =>
    have reached := run_found permitted sound run changed
    have added := (sound changed).asks _ reached on
    have moved := sum_changed (fun key => cost key (party.view connection key))
      (fun key => cost key (party.view (connection.ask changed on) key)) changed
      fun other elsewhere => by simp only [view_ask, if_neg elsewhere]
    simp only [view_ask, if_pos] at moved
    simp only [total, view_ask] at paid ⊢
    simp only [Connection.ask]
    omega
  | @respond asks messages connection verb opt rest run arrives passes paid =>
    have reached := run_found permitted sound run (Command.key (verb, opt))
    have lowered := (sound _).delivers _ reached _ (respond_delivered permitted arrives passes)
    have moved := sum_changed (fun key => cost key (party.view connection key))
      (fun key => cost key (party.view (party.respond connection verb opt rest) key))
      (Command.key (verb, opt))
      fun other elsewhere => by simp only [view_respond party arrives, if_neg elsewhere]
    have sent := party.subs_receive connection.responder verb opt
    have queued : subs (party.respond connection verb opt rest).toPeer =
        subs connection.toPeer + subs (party.receive connection.responder verb opt).2 := by
      simp [respond]
    simp only [total] at paid ⊢
    omega
  | @hear asks messages connection reply rest agrees run arrives paid =>
    cases reply with
    | option verb opt =>
      have reached := run_found permitted sound run (Key.other (Command.key (verb, opt)))
      have lowered := (sound _).delivers _ reached _ (hear_delivered permits arrives agrees)
      have moved := sum_changed (fun key => cost key (party.view connection key))
        (fun key => cost key (party.view (connection.hear agrees (.option verb opt) rest) key))
        (Key.other (Command.key (verb, opt)))
        fun other elsewhere => by simp only [view_hear party arrives, if_neg elsewhere]
      have queued : subs (connection.hear agrees (.option verb opt) rest).toPeer =
          subs connection.toPeer := by
        simp [Connection.hear, arrives, subs]
      simp only [total] at paid ⊢
      omega
    | sub opt body =>
      have queued : subs (connection.hear agrees (.sub opt body) rest).toPeer + 1 =
          subs connection.toPeer := by
        simp [Connection.hear, arrives, subs]
      simp only [total, view_hear_sub party arrives] at paid ⊢
      omega

include permitted sound in
/-- When no link can deliver more than a number of signals at the start, a run receives no more
messages than that and its changes of mind pay for. -/
theorem run_messages {each : Nat} (few : ∀ key, cost key (party.view start key) ≤ each)
    (unsent : subs start.toPeer = 0) {asks messages : Nat} {connection : Connection α}
    (run : party.Run allowed start asks messages connection) :
    messages ≤ 1024 * each + 8 * asks := by
  have paid := run_paid permitted sound run
  have bounded : party.total cost start ≤ 512 * each := by
    calc
      party.total cost start ≤ ∑ _key : Key, each := Finset.sum_le_sum fun key _ => few key
      _ = 512 * each := by rw [Finset.sum_const, Finset.card_univ, keys_card, smul_eq_mul]
  omega

end Sound

end Responder

end EthernetGateway.Telnet
