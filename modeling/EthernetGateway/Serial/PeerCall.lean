import Mathlib

/-!
# Peer calls

A caller places a call in a slot and waits for what its target reports over the call's own channel.
A modem port takes calls from its slot, a CP/M session from the slot the pool shares. Every locked
or atomic access is a step, and the steps of all parties interleave in any order.
-/

namespace EthernetGateway.Serial.Peer

/-- `SerialPortId`. -/
inductive SerialPortId where
  | a
  | b
  deriving DecidableEq

/-- Where a placed call waits. -/
inductive CallSlot where
  /-- `PEER_CALL_REQUEST` of a port. -/
  | port (id : SerialPortId)
  /-- `CPM_CALL_REQUEST`. -/
  | cpm
  deriving DecidableEq

/-- Who takes calls. -/
inductive Endpoint where
  /-- A modem port's thread. -/
  | port (id : SerialPortId)
  /-- A CP/M session with a virtual modem. -/
  | session (number : Nat)
  deriving DecidableEq

/-- The slot an endpoint takes calls from. -/
def Endpoint.slot : Endpoint → CallSlot
  | port id => .port id
  | session _ => .cpm

/-- `PeerCallOutcome`, of a call that failed. -/
inductive PeerCallOutcome where
  | busy
  | noAnswer
  | error
  deriving DecidableEq

/-- How a request ends. -/
inductive Ending where
  /-- It returns the caller's end of a call. -/
  | ok (call : Nat)
  /-- It returns an outcome. -/
  | err (outcome : PeerCallOutcome)
  /-- It is cancelled. -/
  | cancelled
  deriving DecidableEq

/-- Where a caller is in `request_peer_call` or `request_cpm_call`. -/
inductive Caller where
  /-- Not called yet. -/
  | idle
  /-- `request_cpm_call` has found somebody listening. -/
  | counted
  /-- In `await_peer_outcome`, with the slot's guard armed. -/
  | waiting (slot : CallSlot) (call : Nat) (sawRing : Bool)
  /-- Ending, with the slot's guard still armed. -/
  | leaving (slot : CallSlot) (call : Nat) (ending : Ending)
  /-- The guard is gone, the channel is still open. -/
  | returning (call : Nat) (ending : Ending)
  /-- Over. -/
  | returned (ending : Ending)
  deriving DecidableEq

/-- Whether a caller is about to place its call in a slot. -/
def Caller.readyFor : Caller → CallSlot → Prop
  | idle, .port _ => True
  | counted, .cpm => True
  | _, _ => False

/-- What `await_peer_outcome` makes of a progress byte. -/
def Caller.awaitPeerOutcome (slot : CallSlot) (call : Nat) (byte : UInt8) : Caller :=
  if byte = 0 then waiting slot call true
  else if byte = 1 then returning call (.ok call)
  else leaving slot call (.err .error)

/-- The progress channel of a call. -/
structure Channel where
  /-- Bytes sent and not received. -/
  queue : List UInt8
  /-- Whether the receiver is gone. -/
  closed : Bool

/-- Whether `try_send` succeeds: the receiver is there and the eight places are not full. -/
def Channel.accepts (channel : Channel) : Bool := !channel.closed && channel.queue.length < 8

/-- What an endpoint's line is doing. -/
inductive Line where
  /-- No call was taken. -/
  | idle
  /-- A call is ringing. -/
  | ringing (call : Nat)
  /-- A call is up. -/
  | online (call : Nat)
  deriving DecidableEq

/-- Where a CP/M session is with respect to the pool. -/
inductive Pool where
  /-- Not in the pool. -/
  | outside
  /-- In the pool. -/
  | listening
  /-- Its `cpm_peer_listen_exit` has counted down to none, and has not yet emptied the slot. -/
  | leaving
  deriving DecidableEq

/-- The shared state and the state of every party. A call is named by the number of its channel. -/
structure World where
  /-- The slots. -/
  slots : CallSlot → Option Nat
  /-- The next channel. -/
  next : Nat
  /-- The channels. -/
  channels : Nat → Channel
  /-- The callers. -/
  callers : Nat → Caller
  /-- The endpoints' lines. -/
  lines : Endpoint → Line
  /-- The CP/M sessions. -/
  pool : Nat → Pool
  /-- `CPM_PEER_LISTENERS`. -/
  listeners : Nat

namespace World

/-- Nobody has called, and no session has started. -/
def start : World where
  slots := fun _ => none
  next := 0
  channels := fun _ => ⟨[], false⟩
  callers := fun _ => .idle
  lines := fun _ => .idle
  pool := fun _ => .outside
  listeners := 0

/-- Change a slot. -/
def setSlot (world : World) (slot : CallSlot) (held : Option Nat) : World :=
  { world with slots := Function.update world.slots slot held }

/-- Change a caller. -/
def setCaller (world : World) (caller : Nat) (now : Caller) : World :=
  { world with callers := Function.update world.callers caller now }

/-- Change a line. -/
def setLine (world : World) (endpoint : Endpoint) (now : Line) : World :=
  { world with lines := Function.update world.lines endpoint now }

/-- Change a channel. -/
def setChannel (world : World) (call : Nat) (now : Channel) : World :=
  { world with channels := Function.update world.channels call now }

/-- Change where a session is and how many listen. -/
def setPool (world : World) (session : Nat) (now : Pool) (listeners : Nat) : World :=
  { world with pool := Function.update world.pool session now, listeners := listeners }

/-- `try_place_peer_call` and `try_place_cpm_call` in an empty slot, with the channel just made. -/
def place (world : World) (caller : Nat) (slot : CallSlot) : World :=
  { (world.setSlot slot (some world.next)).setCaller caller (.waiting slot world.next false) with
    next := world.next + 1 }

/-- `try_send` of a progress byte. -/
def trySend (world : World) (call : Nat) (byte : UInt8) : World :=
  if (world.channels call).accepts then
    world.setChannel call
      { world.channels call with queue := (world.channels call).queue ++ [byte] }
  else world

/-- `take_if_mine`. -/
def takeIfMine (world : World) (slot : CallSlot) (call : Nat) : World :=
  if world.slots slot = some call then world.setSlot slot none else world

/-- Whether an endpoint may look at its slot: a session only while it is in the pool. -/
def attends (world : World) : Endpoint → Prop
  | .port _ => True
  | .session number => world.pool number = .listening

end World

/-- What happens in a step. -/
inductive Event where
  /-- A caller looked at the number of listeners. -/
  | counted (caller : Nat)
  /-- A caller placed a call in a slot. -/
  | placed (caller : Nat) (slot : CallSlot) (call : Nat)
  /-- A caller found its slot taken. -/
  | refused (caller : Nat)
  /-- A caller received a progress byte. -/
  | heard (caller : Nat) (byte : UInt8)
  /-- A caller stopped waiting. -/
  | gaveUp (caller : Nat)
  /-- A caller's guard was dropped. -/
  | reclaimed (caller : Nat)
  /-- A caller returned. -/
  | returned (caller : Nat)
  /-- A session joined the pool. -/
  | entered (session : Nat)
  /-- A session left the pool. -/
  | departed (session : Nat)
  /-- The last session to leave emptied the slot. -/
  | emptied (session : Nat)
  /-- An endpoint took a call. -/
  | took (endpoint : Endpoint) (call : Nat)
  /-- An endpoint sent the answer byte of a call. -/
  | answered (endpoint : Endpoint) (call : Nat)
  /-- An endpoint's line changed some other way. -/
  | moved (endpoint : Endpoint)
  deriving DecidableEq

open World in
/-- One locked or atomic access of one party. -/
inductive Step (world : World) : Event → World → Prop where
  /-- `request_cpm_call` loads the number of listeners. -/
  | count {caller} (idle : world.callers caller = .idle) :
      Step world (.counted caller) (world.setCaller caller
        (if world.listeners = 0 then .returned (.err .busy) else .counted))
  /-- The slot is empty. -/
  | place {caller slot} (ready : (world.callers caller).readyFor slot)
      (free : world.slots slot = none) :
      Step world (.placed caller slot world.next) (world.place caller slot)
  /-- The slot is taken. -/
  | refuse {caller slot} (ready : (world.callers caller).readyFor slot)
      (full : world.slots slot ≠ none) :
      Step world (.refused caller) (world.setCaller caller (.returned (.err .busy)))
  /-- A progress byte arrives. -/
  | hear {caller slot call sawRing byte rest}
      (waiting : world.callers caller = .waiting slot call sawRing)
      (queued : (world.channels call).queue = byte :: rest) :
      Step world (.heard caller byte)
        ((world.setChannel call { world.channels call with queue := rest }).setCaller caller
          (.awaitPeerOutcome slot call byte))
  /-- No byte is left, and nobody who has not answered holds the sender. -/
  | lose {caller slot call sawRing}
      (waiting : world.callers caller = .waiting slot call sawRing)
      (silent : (world.channels call).queue = []) (gone : ∀ slot, world.slots slot ≠ some call)
      (dropped : ∀ endpoint, world.lines endpoint ≠ .ringing call) :
      Step world (.gaveUp caller) (world.setCaller caller (.leaving slot call (.err .error)))
  /-- The wait for the pickup or for the answer is over. -/
  | expire {caller slot call sawRing}
      (waiting : world.callers caller = .waiting slot call sawRing) :
      Step world (.gaveUp caller) (world.setCaller caller
        (.leaving slot call (.err (if sawRing then .noAnswer else .busy))))
  /-- The request is dropped while it waits. -/
  | cancel {caller slot call sawRing}
      (waiting : world.callers caller = .waiting slot call sawRing) :
      Step world (.gaveUp caller) (world.setCaller caller (.leaving slot call .cancelled))
  /-- `PeerSlotGuard::drop` and `CpmSlotGuard::drop`, armed. -/
  | reclaim {caller slot call ending} (leaving : world.callers caller = .leaving slot call ending) :
      Step world (.reclaimed caller)
        ((world.takeIfMine slot call).setCaller caller (.returning call ending))
  /-- The receiver is dropped. -/
  | finish {caller call ending} (returning : world.callers caller = .returning call ending) :
      Step world (.returned caller)
        ((world.setChannel call { world.channels call with closed := true }).setCaller caller
          (.returned ending))
  /-- `cpm_peer_listen_enter`. -/
  | enter {session} (outside : world.pool session = .outside) :
      Step world (.entered session) (world.setPool session .listening (world.listeners + 1))
  /-- `cpm_peer_listen_exit` counts down. -/
  | depart {session} (listening : world.pool session = .listening) :
      Step world (.departed session) (world.setPool session
        (if world.listeners ≤ 1 then .leaving else .outside) (world.listeners - 1))
  /-- `cpm_peer_listen_exit` empties the slot. -/
  | empty {session} (leaving : world.pool session = .leaving) :
      Step world (.emptied session)
        ((world.setPool session .outside world.listeners).setSlot .cpm none)
  /-- `take_peer_call_request` and `take_cpm_call_request`. -/
  | take {endpoint call} (idle : world.lines endpoint = .idle) (attends : world.attends endpoint)
      (waiting : world.slots endpoint.slot = some call) :
      Step world (.took endpoint call)
        ((world.setSlot endpoint.slot none).setLine endpoint (.ringing call))
  /-- A ring is reported. -/
  | ring {endpoint call} (ringing : world.lines endpoint = .ringing call)
      (accepts : (world.channels call).accepts) :
      Step world (.moved endpoint) (world.trySend call 0)
  /-- A port fails to write its `RING`, and says so if it can. -/
  | fail {id call} (ringing : world.lines (.port id) = .ringing call) :
      Step world (.moved (.port id)) ((world.trySend call 2).setLine (.port id) .idle)
  /-- The ringing stops unanswered: the caller is gone, the port restarts, the session ends. -/
  | abort {endpoint call} (ringing : world.lines endpoint = .ringing call) :
      Step world (.moved endpoint) (world.setLine endpoint .idle)
  /-- The call is answered. -/
  | answer {endpoint call} (ringing : world.lines endpoint = .ringing call)
      (accepts : (world.channels call).accepts) :
      Step world (.answered endpoint call)
        ((world.trySend call 1).setLine endpoint (.online call))
  /-- A session answers a caller that is gone. -/
  | answerGone {session call} (ringing : world.lines (.session session) = .ringing call)
      (gone : (world.channels call).closed) :
      Step world (.moved (.session session))
        (world.setLine (.session session) (.online call))
  /-- The call is over. -/
  | hangUp {endpoint call} (online : world.lines endpoint = .online call) :
      Step world (.moved endpoint) (world.setLine endpoint .idle)

/-- A run whose steps are all allowed, with its events, the last one first. -/
inductive Run (allowed : World → Event → Prop) : List Event → World → Prop where
  /-- Nothing has happened. -/
  | start : Run allowed [] .start
  /-- One more step. -/
  | step {events world event world'} (run : Run allowed events world)
      (permitted : allowed world event) (step : Step world event world') :
      Run allowed (event :: events) world'

end EthernetGateway.Serial.Peer
