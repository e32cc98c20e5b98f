import EthernetGateway.Answering
import EthernetGateway.Relay.Command

/-!
# The registry of remote ports

A master keeps the idle channels of its slaves' ports by address and label. A registration replaces
the one before it, a claim takes whatever is there, and a channel that closes takes out its own
registration only: the registry tells one registration from another by a stamp. The stamp is drawn
before the registry is locked, so the steps of several connections come in any order.
-/

namespace EthernetGateway.Relay

open Answering

variable {Address Channel : Type} [DecidableEq Address] [DecidableEq Channel]

/-- The key of a port: the slave's address and its label. -/
abbrev PortKey (Address : Type) : Type := Address × Text

/-- `RegisteredPort`. The master's end of a channel is a fresh stream, named by the number of those
before it. -/
structure RegisteredPort where
  /-- The stream. -/
  stream : Nat
  /-- The stamp of the registration. -/
  generation : UInt64
  /-- What the slave told. -/
  facts : RemotePortFacts

/-- A registration between `REMOTE_PORT_GEN.fetch_add` and the lock of `REMOTE_PORTS`. -/
structure Registering (Address Channel : Type) where
  /-- The channel that registers. -/
  channel : Channel
  /-- The port it offers. -/
  key : PortKey Address
  /-- What goes into the registry. -/
  port : RegisteredPort

/-- The master's registry and what its connections remember of it. -/
structure Registry (Address Channel : Type) where
  /-- `REMOTE_PORTS`. -/
  ports : PortKey Address → Option RegisteredPort
  /-- `REMOTE_PORT_GEN`. -/
  nextGeneration : UInt64
  /-- The streams made so far. -/
  opened : Nat
  /-- The registrations on their way into the registry. -/
  registering : List (Registering Address Channel)
  /-- `registered_ports` of every connection: the port and the stamp of each channel. -/
  registeredPorts : Channel → Option (PortKey Address × UInt64)

/-- What happens to the registry, one atomic step at a time. -/
inductive RegistryEvent (Address Channel : Type) where
  /-- A channel draws the stamp of a registration. -/
  | stamp (channel : Channel) (key : PortKey Address) (facts : RemotePortFacts)
  /-- The registration with a stream goes in. -/
  | insert (stream : Nat)
  /-- `remove_remote_port`: someone claims a port. -/
  | claim (key : PortKey Address)
  /-- `teardown_channel`, or the end of its connection. -/
  | teardown (channel : Channel)

namespace Registry

/-- An empty registry. -/
def empty : Registry Address Channel := ⟨fun _ => none, 0, 0, [], fun _ => none⟩

/-- The first half of `register_remote_port`. -/
def stamp (registry : Registry Address Channel) (channel : Channel) (key : PortKey Address)
    (facts : RemotePortFacts) : Registry Address Channel :=
  { registry with
    nextGeneration := registry.nextGeneration + 1
    opened := registry.opened + 1
    registering :=
      ⟨channel, key, ⟨registry.opened, registry.nextGeneration, facts⟩⟩ :: registry.registering }

/-- The second half of `register_remote_port`, and what `register_console_port` remembers of it. The
stream that is replaced is dropped. -/
def insert (registry : Registry Address Channel) (stream : Nat) :
    Registry Address Channel × Option Nat :=
  match registry.registering.find? fun entry => entry.port.stream = stream with
  | none => (registry, none)
  | some entry =>
    ({ registry with
        ports := Function.update registry.ports entry.key (some entry.port)
        registering := registry.registering.filter fun entry => entry.port.stream ≠ stream
        registeredPorts := Function.update registry.registeredPorts entry.channel
          (some (entry.key, entry.port.generation)) },
      (registry.ports entry.key).map RegisteredPort.stream)

/-- `remove_remote_port`. -/
def removeRemotePort (registry : Registry Address Channel) (key : PortKey Address) :
    Registry Address Channel × Option Nat :=
  ({ registry with ports := Function.update registry.ports key none },
    (registry.ports key).map RegisteredPort.stream)

/-- `remove_remote_port_gen`. -/
def removeRemotePortGen (registry : Registry Address Channel) (key : PortKey Address)
    (generation : UInt64) : Registry Address Channel × Option Nat :=
  match registry.ports key with
  | none => (registry, none)
  | some port =>
    if port.generation = generation then registry.removeRemotePort key else (registry, none)

/-- `teardown_channel`, as far as it concerns the registry. -/
def teardown (registry : Registry Address Channel) (channel : Channel) :
    Registry Address Channel × Option Nat :=
  match registry.registeredPorts channel with
  | none => (registry, none)
  | some (key, generation) =>
    { registry with
      registeredPorts := Function.update registry.registeredPorts channel none
      }.removeRemotePortGen key generation

/-- One step, and the stream it takes out of the registry. -/
def step (registry : Registry Address Channel) :
    RegistryEvent Address Channel → Registry Address Channel × Option Nat
  | .stamp channel key facts => (registry.stamp channel key facts, none)
  | .insert stream => registry.insert stream
  | .claim key => registry.removeRemotePort key
  | .teardown channel => registry.teardown channel

end Registry

/-! ## What the registry is for -/

/-- The ports on offer, without stamps: who holds a port is told by the stream itself. -/
structure Offers (Address Channel : Type) where
  /-- The stream on offer under each key. -/
  held : PortKey Address → Option Nat
  /-- The streams made so far. -/
  opened : Nat
  /-- The registrations on their way. -/
  coming : List (Channel × PortKey Address × Nat)
  /-- The last registration of each channel. -/
  last : Channel → Option (PortKey Address × Nat)

namespace Offers

/-- No offers. -/
def empty : Offers Address Channel := ⟨fun _ => none, 0, [], fun _ => none⟩

/-- What each step means: the last registration to come in holds its port until it is claimed or its
own channel closes. -/
def step (offers : Offers Address Channel) :
    RegistryEvent Address Channel → Offers Address Channel × Option Nat
  | .stamp channel key _ =>
    ({ offers with
        opened := offers.opened + 1
        coming := (channel, key, offers.opened) :: offers.coming }, none)
  | .insert stream =>
    match offers.coming.find? fun entry => entry.2.2 = stream with
    | none => (offers, none)
    | some entry =>
      ({ offers with
          held := Function.update offers.held entry.2.1 (some entry.2.2)
          coming := offers.coming.filter fun entry => entry.2.2 ≠ stream
          last := Function.update offers.last entry.1 (some entry.2) },
        offers.held entry.2.1)
  | .claim key => ({ offers with held := Function.update offers.held key none }, offers.held key)
  | .teardown channel =>
    match offers.last channel with
    | none => (offers, none)
    | some (key, stream) =>
      if offers.held key = some stream then
        ({ offers with
            held := Function.update offers.held key none
            last := Function.update offers.last channel none }, some stream)
      else ({ offers with last := Function.update offers.last channel none }, none)

end Offers

/-! ## The stamps tell registrations apart -/

/-- An event draws a stamp. -/
def RegistryEvent.isStamp : RegistryEvent Address Channel → Bool
  | stamp .. => true
  | _ => false

/-- A port whose stamp is the number of its stream, one of those made so far. -/
structure RegisteredPort.Dated (port : RegisteredPort) (opened : Nat) : Prop where
  /-- The stamp is the number of the stream. -/
  generation : port.generation = UInt64.ofNat port.stream
  /-- The stream has been made. -/
  made : port.stream < opened

/-- A port stays dated. -/
theorem RegisteredPort.Dated.later {port : RegisteredPort} {opened : Nat}
    (dated : port.Dated opened) : port.Dated (opened + 1) :=
  ⟨dated.generation, Nat.lt_succ_of_lt dated.made⟩

/-- As long as the stamps have not come round, a stamp is one stream's. -/
theorem RegisteredPort.Dated.generation_eq_iff {port : RegisteredPort} {opened stream : Nat}
    (dated : port.Dated opened) (other : stream < opened) (room : opened ≤ 2 ^ 64) :
    port.generation = UInt64.ofNat stream ↔ port.stream = stream := by
  rw [dated.generation, ← UInt64.toNat_inj, UInt64.toNat_ofNat', UInt64.toNat_ofNat',
    Nat.mod_eq_of_lt (dated.made.trans_le room), Nat.mod_eq_of_lt (other.trans_le room)]

/-- A registry and the offers it stands for, with the events still to come. -/
structure StandsFor (events : List (RegistryEvent Address Channel))
    (registry : Registry Address Channel) (offers : Offers Address Channel) : Prop where
  /-- The same streams were made. -/
  opened : offers.opened = registry.opened
  /-- The stamps do not come round. -/
  room : registry.opened + events.countP RegistryEvent.isStamp ≤ 2 ^ 64
  /-- The next stamp is the number of the next stream. -/
  next : registry.nextGeneration = UInt64.ofNat registry.opened
  /-- The same streams are on offer. -/
  held : ∀ key, offers.held key = (registry.ports key).map RegisteredPort.stream
  /-- The ports in the registry are dated. -/
  dated : ∀ key port, registry.ports key = some port → port.Dated registry.opened
  /-- The same registrations are on their way. -/
  coming : offers.coming =
    registry.registering.map fun entry => (entry.channel, entry.key, entry.port.stream)
  /-- The registrations on their way are dated. -/
  comingDated : ∀ entry ∈ registry.registering, entry.port.Dated registry.opened
  /-- A channel remembers the stamp of its last registration. -/
  last : ∀ channel, registry.registeredPorts channel =
    (offers.last channel).map fun port => (port.1, UInt64.ofNat port.2)
  /-- The last registration of a channel was made. -/
  lastMade : ∀ channel port, offers.last channel = some port → port.2 < registry.opened

namespace StandsFor

variable {registry : Registry Address Channel} {offers : Offers Address Channel}
  {events : List (RegistryEvent Address Channel)}

omit [DecidableEq Address] [DecidableEq Channel] in
/-- The streams made so far can be told apart. -/
theorem few (stands : StandsFor events registry offers) : registry.opened ≤ 2 ^ 64 :=
  (Nat.le_add_right _ _).trans stands.room

omit [DecidableEq Address] [DecidableEq Channel] in
/-- An event that draws no stamp leaves the others to come. -/
theorem passed {event : RegistryEvent Address Channel} (drawn : event.isStamp = false)
    (stands : StandsFor (event :: events) registry offers) : StandsFor events registry offers := by
  have room := stands.room
  rw [List.countP_cons_of_neg (by simp [drawn])] at room
  exact { stands with room := room }

/-- A stamp is drawn. -/
theorem stamp {channel : Channel} {key : PortKey Address} {facts : RemotePortFacts}
    (stands : StandsFor (.stamp channel key facts :: events) registry offers) :
    StandsFor events (registry.step (.stamp channel key facts)).1
      (offers.step (.stamp channel key facts)).1 where
  opened := congrArg (· + 1) stands.opened
  room := by
    have room := stands.room
    rw [List.countP_cons_of_pos rfl] at room
    simp only [Registry.step, Registry.stamp]
    omega
  next := by
    simp only [Registry.step, Registry.stamp]
    rw [stands.next, UInt64.ofNat_add]
    rfl
  held := stands.held
  dated := fun key port found => (stands.dated key port found).later
  coming := by
    simp only [Registry.step, Registry.stamp, Offers.step, List.map_cons, stands.coming,
      stands.opened]
  comingDated := by
    intro entry member
    rcases List.mem_cons.mp member with rfl | member
    · exact ⟨stands.next, Nat.lt_succ_self _⟩
    · exact (stands.comingDated entry member).later
  last := stands.last
  lastMade := fun channel port found => Nat.lt_succ_of_lt (stands.lastMade channel port found)

omit [DecidableEq Address] [DecidableEq Channel] in
/-- The registration found on its way is the same. -/
theorem find (stands : StandsFor events registry offers) (stream : Nat) :
    offers.coming.find? (fun entry => entry.2.2 = stream) =
      (registry.registering.find? fun entry => entry.port.stream = stream).map fun entry =>
        (entry.channel, entry.key, entry.port.stream) := by
  rw [stands.coming, List.find?_map]
  rfl

/-- A registration goes in. -/
theorem insert (stands : StandsFor events registry offers) (stream : Nat) :
    (registry.step (.insert stream)).2 = (offers.step (.insert stream)).2 ∧
      StandsFor events (registry.step (.insert stream)).1 (offers.step (.insert stream)).1 := by
  have found := stands.find stream
  simp only [Registry.step, Registry.insert, Offers.step]
  cases same : registry.registering.find? fun entry => entry.port.stream = stream with
  | none =>
    rw [same] at found
    simp only [found, Option.map_none, true_and]
    exact stands
  | some entry =>
    rw [same] at found
    have dated := stands.comingDated entry (List.mem_of_find?_eq_some same)
    simp only [found, Option.map_some]
    refine ⟨(stands.held entry.key).symm, ?_⟩
    exact {
      opened := stands.opened
      room := stands.room
      next := stands.next
      held := by
        intro other
        simp only [Function.update_apply]
        split_ifs
        · rfl
        · exact stands.held other
      dated := by
        intro other port held
        simp only [Function.update_apply] at held
        split_ifs at held
        · cases held
          exact dated
        · exact stands.dated other port held
      coming := by
        simp only [stands.coming, List.filter_map]
        rfl
      comingDated := fun other member => stands.comingDated other (List.mem_filter.mp member).1
      last := by
        intro other
        simp only [Function.update_apply]
        split_ifs
        · rw [dated.generation]
          rfl
        · exact stands.last other
      lastMade := by
        intro other port remembered
        simp only [Function.update_apply] at remembered
        split_ifs at remembered
        · cases remembered
          exact dated.made
        · exact stands.lastMade other port remembered }

omit [DecidableEq Address] in
/-- What a channel remembers is forgotten. -/
theorem forget (stands : StandsFor events registry offers) (channel : Channel) :
    StandsFor events
      { registry with
        registeredPorts := Function.update registry.registeredPorts channel none }
      { offers with last := Function.update offers.last channel none } where
  opened := stands.opened
  room := stands.room
  next := stands.next
  held := stands.held
  dated := stands.dated
  coming := stands.coming
  comingDated := stands.comingDated
  last := by
    intro other
    simp only [Function.update_apply]
    split_ifs
    · rfl
    · exact stands.last other
  lastMade := by
    intro other port remembered
    simp only [Function.update_apply] at remembered
    split_ifs at remembered
    exact stands.lastMade other port remembered

omit [DecidableEq Channel] in
/-- A port is taken out. -/
theorem remove (stands : StandsFor events registry offers) (key : PortKey Address) :
    StandsFor events (registry.removeRemotePort key).1
      { offers with held := Function.update offers.held key none } where
  opened := stands.opened
  room := stands.room
  next := stands.next
  held := by
    intro other
    simp only [Registry.removeRemotePort, Function.update_apply]
    split_ifs
    · rfl
    · exact stands.held other
  dated := by
    intro other port found
    simp only [Registry.removeRemotePort, Function.update_apply] at found
    split_ifs at found
    exact stands.dated other port found
  coming := stands.coming
  comingDated := stands.comingDated
  last := stands.last
  lastMade := stands.lastMade

/-- A channel closes: the stamp it remembers is that of the port exactly when the stream is. -/
theorem teardown (stands : StandsFor events registry offers) (channel : Channel) :
    (registry.step (.teardown channel)).2 = (offers.step (.teardown channel)).2 ∧
      StandsFor events (registry.step (.teardown channel)).1
        (offers.step (.teardown channel)).1 := by
  simp only [Registry.step, Registry.teardown, Offers.step, stands.last channel]
  cases remembered : offers.last channel with
  | none => exact ⟨rfl, stands⟩
  | some port =>
    obtain ⟨key, stream⟩ := port
    have made := stands.lastMade channel _ remembered
    have later := stands.forget channel
    simp only [Option.map_some, Registry.removeRemotePortGen]
    have held := stands.held key
    cases there : registry.ports key with
    | none =>
      rw [there] at held
      rw [if_neg (by rw [held]; exact Option.some_ne_none stream ∘ Eq.symm)]
      exact ⟨rfl, later⟩
    | some port =>
      rw [there, Option.map_some] at held
      have own := (stands.dated key port there).generation_eq_iff made stands.few
      simp only [held, Option.some.injEq, own]
      split_ifs with same
      · refine ⟨?_, later.remove key⟩
        simp only [Registry.removeRemotePort, there, Option.map_some, same]
      · exact ⟨rfl, later⟩

end StandsFor

/-- **The registry keeps the last registration of each port, and only its own channel ends it.** In
every run of registrations, claims and closing channels, whatever their steps' order, each step
takes out of the registry the stream that it takes from the offers: that of the port's last
registration to come in, unless the port has been claimed since, or the channel has closed whose
last registration it was. At most `2 ^ 64` stamps are drawn, so that none comes round. -/
theorem registry_refines (events : List (RegistryEvent Address Channel))
    (few : events.countP RegistryEvent.isStamp ≤ 2 ^ 64) :
    answers Registry.step Registry.empty events = answers Offers.step Offers.empty events := by
  refine answers_eq StandsFor ?_ ?_
  · intro event later registry offers stands
    cases event with
    | stamp => exact ⟨rfl, stands.stamp⟩
    | insert stream => exact (stands.passed rfl).insert stream
    | claim key => exact ⟨(stands.held key).symm, (stands.passed rfl).remove key⟩
    | teardown channel => exact (stands.passed rfl).teardown channel
  · exact {
      opened := rfl
      room := by simpa [Registry.empty] using few
      next := rfl
      held := fun _ => rfl
      dated := by
        intro key port found
        cases found
      coming := rfl
      comingDated := by
        intro entry member
        cases member
      last := fun _ => rfl
      lastMade := by
        intro channel port found
        cases found }

/-- A port is taken over by a new channel: the old one closes without effect, and the claim gets the
new stream. -/
theorem registry_refines_takeover :
    answers Registry.step (Registry.empty : Registry Nat Nat)
      [.stamp 0 (7, "A".toList) ⟨none, none⟩, .insert 0, .stamp 1 (7, "A".toList) ⟨none, none⟩,
        .insert 1, .teardown 0, .claim (7, "A".toList)] =
      [none, none, none, some 0, none, some 1] :=
  (registry_refines _ (by decide)).trans rfl

/-! ## A stream leaves once -/

/-- A stream that the registry may still give: one to be made, one on offer or one on its way. -/
def Registry.MayGive (registry : Registry Address Channel) (stream : Nat) : Prop :=
  registry.opened ≤ stream ∨ (∃ key port, registry.ports key = some port ∧ port.stream = stream) ∨
    ∃ entry ∈ registry.registering, entry.port.stream = stream

/-- No stream is in the registry twice. -/
structure Registry.Sound (registry : Registry Address Channel) : Prop where
  /-- The streams on offer were made. -/
  made : ∀ key port, registry.ports key = some port → port.stream < registry.opened
  /-- The streams on their way were made. -/
  comingMade : ∀ entry ∈ registry.registering, entry.port.stream < registry.opened
  /-- A stream is on offer under one key. -/
  apart : ∀ key other port port', registry.ports key = some port →
    registry.ports other = some port' → port.stream = port'.stream → key = other
  /-- A stream on its way is not on offer. -/
  fresh : ∀ entry ∈ registry.registering, ∀ key port, registry.ports key = some port →
    port.stream ≠ entry.port.stream

namespace Registry.Sound

variable {registry : Registry Address Channel}

section

omit [DecidableEq Address] [DecidableEq Channel]

/-- The empty registry. -/
theorem empty : (Registry.empty : Registry Address Channel).Sound where
  made := by
    intro key port found
    cases found
  comingMade := by
    intro entry member
    cases member
  apart := by
    intro key other port port' found
    cases found
  fresh := by
    intro entry member
    cases member

/-- What the channels remember plays no part. -/
theorem forget (sound : registry.Sound)
    (remembered : Channel → Option (PortKey Address × UInt64)) :
    Registry.Sound { registry with registeredPorts := remembered } :=
  ⟨sound.made, sound.comingMade, sound.apart, sound.fresh⟩

/-- A stamp is drawn. -/
theorem stamp (sound : registry.Sound) (channel : Channel) (key : PortKey Address)
    (facts : RemotePortFacts) : (registry.stamp channel key facts).Sound where
  made := fun key port found => Nat.lt_succ_of_lt (sound.made key port found)
  comingMade := by
    intro entry member
    rcases List.mem_cons.mp member with rfl | member
    · exact Nat.lt_succ_self _
    · exact Nat.lt_succ_of_lt (sound.comingMade entry member)
  apart := sound.apart
  fresh := by
    intro entry member key port found
    rcases List.mem_cons.mp member with rfl | member
    · exact (sound.made key port found).ne
    · exact sound.fresh entry member key port found

/-- A stream made anew was not there before. -/
theorem mayGive_stamp {channel : Channel} {key : PortKey Address} {facts : RemotePortFacts}
    {stream : Nat} (gives : (registry.stamp channel key facts).MayGive stream) :
    registry.MayGive stream := by
  rcases gives with unmade | offered | ⟨entry, member, same⟩
  · exact .inl (Nat.le_of_succ_le unmade)
  · exact .inr (.inl offered)
  · rcases List.mem_cons.mp member with rfl | member
    · exact .inl same.le
    · exact .inr (.inr ⟨entry, member, same⟩)

end

section

omit [DecidableEq Channel]

/-- A port on offer after one was taken out was on offer before, under another key. -/
theorem offered_remove {key other : PortKey Address} {port : RegisteredPort}
    (found : (registry.removeRemotePort key).1.ports other = some port) :
    other ≠ key ∧ registry.ports other = some port := by
  simp only [Registry.removeRemotePort, Function.update_apply] at found
  split_ifs at found with same
  exact ⟨same, found⟩

/-- A port is taken out. -/
theorem remove (sound : registry.Sound) (key : PortKey Address) :
    (registry.removeRemotePort key).1.Sound where
  made := fun other port found => sound.made other port (offered_remove found).2
  comingMade := sound.comingMade
  apart := fun key other port port' found found' =>
    sound.apart key other port port' (offered_remove found).2 (offered_remove found').2
  fresh := fun entry member other port found =>
    sound.fresh entry member other port (offered_remove found).2

/-- Taking a port out brings no stream back. -/
theorem mayGive_remove {key : PortKey Address} {stream : Nat}
    (gives : (registry.removeRemotePort key).1.MayGive stream) : registry.MayGive stream := by
  rcases gives with unmade | ⟨other, port, found, same⟩ | coming
  · exact .inl unmade
  · exact .inr (.inl ⟨other, port, (offered_remove found).2, same⟩)
  · exact .inr (.inr coming)

/-- The stream of a port that is taken out was there, and is there no more. -/
theorem taken_remove (sound : registry.Sound) {key : PortKey Address} {stream : Nat}
    (taken : (registry.removeRemotePort key).2 = some stream) :
    registry.MayGive stream ∧ ¬ (registry.removeRemotePort key).1.MayGive stream := by
  obtain ⟨port, there, rfl⟩ := Option.map_eq_some_iff.mp taken
  refine ⟨.inr (.inl ⟨key, port, there, rfl⟩), ?_⟩
  rintro (unmade | ⟨other, port', found, same⟩ | ⟨entry, member, same⟩)
  · exact absurd (sound.made key port there) (Nat.not_lt.mpr unmade)
  · obtain ⟨differs, found⟩ := offered_remove found
    exact differs (sound.apart other key port' port found there same)
  · exact sound.fresh entry member key port there same.symm

/-- A port on offer after a registration went in is that registration's, or was on offer before. -/
theorem offered_insert {entry : Registering Address Channel} {key : PortKey Address}
    {port : RegisteredPort}
    (found : Function.update registry.ports entry.key (some entry.port) key = some port) :
    (key = entry.key ∧ port = entry.port) ∨ (key ≠ entry.key ∧ registry.ports key = some port) := by
  rw [Function.update_apply] at found
  split_ifs at found with same
  · exact .inl ⟨same, (Option.some.inj found).symm⟩
  · exact .inr ⟨same, found⟩

end

/-- A registration goes in. -/
theorem insert (sound : registry.Sound) (stream : Nat) : (registry.insert stream).1.Sound := by
  unfold Registry.insert
  cases same : registry.registering.find? fun entry => entry.port.stream = stream with
  | none => exact sound
  | some entry =>
    have member := List.mem_of_find?_eq_some same
    have named : entry.port.stream = stream := by simpa using List.find?_some same
    exact {
      made := by
        intro key port found
        rcases offered_insert found with ⟨-, rfl⟩ | ⟨-, found⟩
        · exact sound.comingMade entry member
        · exact sound.made key port found
      comingMade := fun other waits => sound.comingMade other (List.mem_filter.mp waits).1
      apart := by
        intro key other port port' found found' streams
        rcases offered_insert found with ⟨rfl, rfl⟩ | ⟨-, found⟩ <;>
          rcases offered_insert found' with ⟨rfl, rfl⟩ | ⟨-, found'⟩
        · rfl
        · exact absurd streams.symm (sound.fresh entry member other port' found')
        · exact absurd streams (sound.fresh entry member key port found)
        · exact sound.apart key other port port' found found' streams
      fresh := by
        intro other waits key port found
        obtain ⟨waits, differs⟩ := List.mem_filter.mp waits
        rcases offered_insert found with ⟨-, rfl⟩ | ⟨-, found⟩
        · rw [named]
          exact fun equal => (of_decide_eq_true differs) equal.symm
        · exact sound.fresh other waits key port found }

/-- A registration that goes in brings no stream but its own, which was on its way. -/
theorem mayGive_insert {stream value : Nat} (gives : (registry.insert stream).1.MayGive value) :
    registry.MayGive value := by
  unfold Registry.insert at gives
  cases same : registry.registering.find? fun entry => entry.port.stream = stream with
  | none =>
    rw [same] at gives
    exact gives
  | some entry =>
    rw [same] at gives
    rcases gives with unmade | ⟨key, port, found, named⟩ | ⟨other, waits, named⟩
    · exact .inl unmade
    · rcases offered_insert found with ⟨-, rfl⟩ | ⟨-, found⟩
      · exact .inr (.inr ⟨entry, List.mem_of_find?_eq_some same, named⟩)
      · exact .inr (.inl ⟨key, port, found, named⟩)
    · exact .inr (.inr ⟨other, (List.mem_filter.mp waits).1, named⟩)

/-- The stream a registration replaces was there, and is there no more. -/
theorem taken_insert (sound : registry.Sound) {stream value : Nat}
    (taken : (registry.insert stream).2 = some value) :
    registry.MayGive value ∧ ¬ (registry.insert stream).1.MayGive value := by
  unfold Registry.insert at taken ⊢
  cases same : registry.registering.find? fun entry => entry.port.stream = stream with
  | none =>
    rw [same] at taken
    cases taken
  | some entry =>
    rw [same] at taken
    have member := List.mem_of_find?_eq_some same
    obtain ⟨old, there, rfl⟩ := Option.map_eq_some_iff.mp taken
    refine ⟨.inr (.inl ⟨entry.key, old, there, rfl⟩), ?_⟩
    rintro (unmade | ⟨key, port, found, named⟩ | ⟨other, waits, named⟩)
    · exact absurd (sound.made entry.key old there) (Nat.not_lt.mpr unmade)
    · rcases offered_insert found with ⟨-, rfl⟩ | ⟨differs, found⟩
      · exact sound.fresh entry member entry.key old there named.symm
      · exact differs (sound.apart key entry.key port old found there named)
    · exact sound.fresh other (List.mem_filter.mp waits).1 entry.key old there named.symm

/-- A channel that closes changes nothing, or takes its port out, besides forgetting it. -/
theorem teardown_cases (registry : Registry Address Channel) (channel : Channel) :
    registry.teardown channel = (registry, none) ∨
      ∃ remembered,
        registry.teardown channel = ({ registry with registeredPorts := remembered }, none) ∨
        ∃ key, registry.teardown channel =
          { registry with registeredPorts := remembered }.removeRemotePort key := by
  unfold Registry.teardown
  split
  · exact .inl rfl
  · refine .inr ⟨Function.update registry.registeredPorts channel none, ?_⟩
    unfold Registry.removeRemotePortGen
    split
    · exact .inl rfl
    · split_ifs
      · exact .inr ⟨_, rfl⟩
      · exact .inl rfl

/-- Every step keeps the streams apart. -/
theorem step (sound : registry.Sound) (event : RegistryEvent Address Channel) :
    (registry.step event).1.Sound := by
  cases event with
  | stamp channel key facts => exact sound.stamp channel key facts
  | insert stream => exact sound.insert stream
  | claim key => exact sound.remove key
  | teardown channel =>
    simp only [Registry.step]
    obtain same | ⟨remembered, same | ⟨key, same⟩⟩ := teardown_cases registry channel <;> rw [same]
    · exact sound
    · exact sound.forget remembered
    · exact (sound.forget remembered).remove key

/-- No step brings back a stream. -/
theorem mayGive_step {event : RegistryEvent Address Channel} {stream : Nat}
    (gives : (registry.step event).1.MayGive stream) : registry.MayGive stream := by
  cases event with
  | stamp => exact mayGive_stamp gives
  | insert => exact mayGive_insert gives
  | claim => exact mayGive_remove gives
  | teardown channel =>
    simp only [Registry.step] at gives
    obtain same | ⟨remembered, same | ⟨key, same⟩⟩ := teardown_cases registry channel <;>
      rw [same] at gives
    · exact gives
    · exact gives
    · exact mayGive_remove gives

/-- The stream a step takes out was there, and is there no more. -/
theorem taken_step (sound : registry.Sound) {event : RegistryEvent Address Channel} {stream : Nat}
    (taken : (registry.step event).2 = some stream) :
    registry.MayGive stream ∧ ¬ (registry.step event).1.MayGive stream := by
  cases event with
  | stamp => cases taken
  | insert => exact sound.taken_insert taken
  | claim => exact sound.taken_remove taken
  | teardown channel =>
    simp only [Registry.step] at taken ⊢
    obtain same | ⟨remembered, same | ⟨key, same⟩⟩ := teardown_cases registry channel <;>
      rw [same] at taken ⊢
    · cases taken
    · cases taken
    · exact (sound.forget remembered).taken_remove taken

end Registry.Sound

/-- **No stream leaves the registry twice.** In every run of registrations, claims and closing
channels, whatever their steps' order, the streams taken out of the registry are all different: a
port is claimed by one caller, and one that was claimed is not ended by the registration that
follows or by its channel. -/
theorem registry_gives_once (events : List (RegistryEvent Address Channel)) :
    (answers Registry.step Registry.empty events).reduceOption.Nodup := by
  refine (answers_nodup Registry.Sound Registry.MayGive ?_ ?_ ?_ events Registry.Sound.empty).1
  · intro registry event sound
    exact sound.step event
  · intro registry event _ stream gives
    exact Registry.Sound.mayGive_step gives
  · intro registry event sound stream taken
    exact sound.taken_step taken

end EthernetGateway.Relay
