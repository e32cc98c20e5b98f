import Mathlib

/-!
# The Q-method and one option between two parties

The Q-method keeps one option on one side in one of six states and says what to answer when the
other party turns it on or off, and what to send when the own user wants it on or off. A link joins
a party that runs the Q-method with one that only answers, over two queues. A link has few states,
so what holds of all of them is found by exploring them.
-/

namespace EthernetGateway.Telnet

/-! ## The Q-method -/

/-- The states of an option under the Q-method. -/
inductive QState where
  | no
  | yes
  | wantNo
  | wantNoOpposite
  | wantYes
  | wantYesOpposite
  deriving DecidableEq

namespace QState

/-- The other party turns the option on or off: the state after it, and the answer. Whether to agree
to an option that is off is this party's free choice. -/
def receive (agrees : Bool) (state : QState) (on : Bool) : QState × Option Bool :=
  match on, state with
  | true, no => if agrees then (yes, some true) else (no, some false)
  | true, yes => (yes, none)
  | true, wantNo => (no, none)
  | true, wantNoOpposite => (yes, none)
  | true, wantYes => (yes, none)
  | true, wantYesOpposite => (wantNo, some false)
  | false, no => (no, none)
  | false, yes => (no, some false)
  | false, wantNo => (no, none)
  | false, wantNoOpposite => (wantYes, some true)
  | false, wantYes => (no, none)
  | false, wantYesOpposite => (no, none)

/-- The own user wants the option on or off: the state after it, and what to send. -/
def ask (state : QState) (on : Bool) : QState × Option Bool :=
  match on, state with
  | true, no => (wantYes, some true)
  | true, wantNo => (wantNoOpposite, none)
  | true, wantYesOpposite => (wantYes, none)
  | true, state => (state, none)
  | false, yes => (wantNo, some false)
  | false, wantYes => (wantYesOpposite, none)
  | false, wantNoOpposite => (wantNo, none)
  | false, state => (state, none)

/-- Whether the party is waiting for an answer. -/
def waits (state : QState) : Bool := state ≠ no && state ≠ yes

end QState

/-! ## Exploring finitely many states -/

section Explore

variable {σ : Type} [DecidableEq σ]

/-- The states found after a number of rounds, from those found and those of them that are fresh. -/
def explore (next : σ → List σ) : Nat → List σ → List σ → List σ
  | 0, found, _ => found
  | rounds + 1, found, fresh =>
    let reached := ((fresh.flatMap next).filter fun s => s ∉ found).dedup
    explore next rounds (found ++ reached) reached

/-- Every successor of a state found is found. -/
def Closed (next : σ → List σ) (found : List σ) : Prop := ∀ s ∈ found, ∀ t ∈ next s, t ∈ found

instance (next : σ → List σ) (found : List σ) : Decidable (Closed next found) :=
  inferInstanceAs (Decidable (∀ s ∈ found, ∀ t ∈ next s, t ∈ found))

/-- The longest run from a state, up to a number of steps. -/
def longest (next : σ → List σ) : Nat → σ → Nat
  | 0, _ => 0
  | steps + 1, s => ((next s).dedup.map fun t => longest next steps t + 1).foldr max 0

end Explore

/-! ## A link -/

/-- One option on one side between two parties: the answering party, the asking one, and the
signals between them. -/
structure Link (ρ : Type) where
  /-- The party that answers. -/
  responder : ρ
  /-- The party that runs the Q-method. -/
  peer : QState
  /-- Signals on their way to the asking party. -/
  toPeer : List Bool
  /-- Signals on their way to the answering party. -/
  toResponder : List Bool
  deriving DecidableEq

namespace Link

variable {ρ : Type}

/-- The asking party's user wants the option on or off. -/
def ask (link : Link ρ) (on : Bool) : Link ρ :=
  { link with
    peer := (link.peer.ask on).1
    toResponder := link.toResponder ++ (link.peer.ask on).2.toList }

/-- The answering party receives a signal. -/
def respond (answer : ρ → Bool → ρ × Option Bool) (link : Link ρ) (on : Bool) (rest : List Bool) :
    Link ρ :=
  { link with
    responder := (answer link.responder on).1
    toPeer := link.toPeer ++ (answer link.responder on).2.toList
    toResponder := rest }

/-- The asking party receives a signal. -/
def receive (link : Link ρ) (agrees : Bool) (on : Bool) (rest : List Bool) : Link ρ :=
  { link with
    peer := (link.peer.receive agrees on).1
    toPeer := rest
    toResponder := link.toResponder ++ (link.peer.receive agrees on).2.toList }

/-- The links after a signal is received. -/
def deliveries (answer : ρ → Bool → ρ × Option Bool) (allowed : ρ → Bool → Bool)
    (link : Link ρ) : List (Link ρ) :=
  (match link.toResponder with
    | [] => []
    | on :: rest => if allowed link.responder on then [link.respond answer on rest] else []) ++
  match link.toPeer with
    | [] => []
    | on :: rest => [link.receive true on rest, link.receive false on rest]

/-- The links after any step. -/
def next (answer : ρ → Bool → ρ × Option Bool) (allowed : ρ → Bool → Bool) (link : Link ρ) :
    List (Link ρ) :=
  [link.ask true, link.ask false] ++ link.deliveries answer allowed

/-- Nothing is on its way. -/
def quiet (link : Link ρ) : Bool := link.toPeer = [] && link.toResponder = []

/-- What exploring a link from a start has to show: the links found are closed under every step, a
quiet one is settled as the answering party reports it, a delivery shortens what can still be
delivered, and a change of mind adds two deliveries at most. -/
structure Sound [DecidableEq ρ] (answer : ρ → Bool → ρ × Option Bool) (allowed : ρ → Bool → Bool)
    (settled : ρ → QState → Bool) (start : Link ρ) (found : List (Link ρ)) (cost : Link ρ → Nat) :
    Prop where
  /-- The start is found. -/
  started : start ∈ found
  /-- Every successor is found. -/
  closed : Closed (next answer allowed) found
  /-- A quiet link is settled. -/
  agrees : ∀ link ∈ found, link.quiet → settled link.responder link.peer
  /-- A delivery costs one. -/
  delivers : ∀ link ∈ found, ∀ link' ∈ link.deliveries answer allowed, cost link' + 1 ≤ cost link
  /-- A change of mind adds four. -/
  asks : ∀ link ∈ found, ∀ on, cost (link.ask on) ≤ cost link + 4

instance [DecidableEq ρ] (answer : ρ → Bool → ρ × Option Bool) (allowed : ρ → Bool → Bool)
    (settled : ρ → QState → Bool) (start : Link ρ) (found : List (Link ρ)) (cost : Link ρ → Nat) :
    Decidable (Sound answer allowed settled start found cost) :=
  decidable_of_iff
    (start ∈ found ∧ Closed (next answer allowed) found ∧
      (∀ link ∈ found, link.quiet → settled link.responder link.peer) ∧
      (∀ link ∈ found, ∀ link' ∈ link.deliveries answer allowed, cost link' + 1 ≤ cost link) ∧
      ∀ link ∈ found, ∀ on, cost (link.ask on) ≤ cost link + 4)
    ⟨fun holds => ⟨holds.1, holds.2.1, holds.2.2.1, holds.2.2.2.1, holds.2.2.2.2⟩,
      fun sound => ⟨sound.started, sound.closed, sound.agrees, sound.delivers, sound.asks⟩⟩

/-- A change of mind is a step. -/
theorem ask_next (answer : ρ → Bool → ρ × Option Bool) (allowed : ρ → Bool → Bool) (link : Link ρ)
    (on : Bool) : link.ask on ∈ link.next answer allowed := by
  cases on <;> simp [next]

/-- An allowed signal received by the answering party is a delivery. -/
theorem respond_deliveries {answer : ρ → Bool → ρ × Option Bool} {allowed : ρ → Bool → Bool}
    {link : Link ρ} {on : Bool} {rest : List Bool} (arrives : link.toResponder = on :: rest)
    (permitted : allowed link.responder on) :
    link.respond answer on rest ∈ link.deliveries answer allowed := by
  simp [deliveries, arrives, permitted]

/-- A signal received by the asking party is a delivery. -/
theorem receive_deliveries {answer : ρ → Bool → ρ × Option Bool} {allowed : ρ → Bool → Bool}
    {link : Link ρ} {on : Bool} {rest : List Bool} (arrives : link.toPeer = on :: rest)
    (agrees : Bool) : link.receive agrees on rest ∈ link.deliveries answer allowed := by
  cases agrees <;> simp [deliveries, arrives]

/-- A delivery is a step. -/
theorem deliveries_next {answer : ρ → Bool → ρ × Option Bool} {allowed : ρ → Bool → Bool}
    {link link' : Link ρ} (delivered : link' ∈ link.deliveries answer allowed) :
    link' ∈ link.next answer allowed :=
  List.mem_append_right _ delivered

end Link

end EthernetGateway.Telnet
