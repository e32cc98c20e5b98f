import EthernetGateway.Serial.PeerCall

/-!
# What every order of steps keeps

Each part of the world changes in few ways, and one lemma a part says which. What holds of every run
follows from these: a call in a slot is guarded by its own caller and was never taken, a line holds
what it took, and an answer byte was sent by the endpoint that took the call.
-/

namespace EthernetGateway.Serial.Peer

/-! ## What a party has of a call -/

/-- The call a caller has. -/
def Caller.call : Caller → Option Nat
  | waiting _ call _ => some call
  | leaving _ call _ => some call
  | returning call _ => some call
  | returned (.ok call) => some call
  | _ => none

/-- Whether a caller's guard is armed for a call in a slot. -/
def Caller.guards (slot : CallSlot) (call : Nat) : Caller → Prop
  | waiting slot' call' _ => slot' = slot ∧ call' = call
  | leaving slot' call' _ => slot' = slot ∧ call' = call
  | _ => False

/-- The call whose end a caller returns. -/
def Caller.okay : Caller → Option Nat
  | leaving _ _ (.ok call) => some call
  | returning _ (.ok call) => some call
  | returned (.ok call) => some call
  | _ => none

/-- The call a line holds. -/
def Line.call : Line → Option Nat
  | idle => none
  | ringing call => some call
  | online call => some call

/-- A caller has the call it guards. -/
theorem Caller.call_of_guards {caller : Caller} {slot : CallSlot} {call : Nat}
    (guards : caller.guards slot call) : caller.call = some call := by
  cases caller <;> simp_all [Caller.guards, Caller.call]

/-- A caller guards one slot. -/
theorem Caller.guards_slot {caller : Caller} {slot slot' : CallSlot} {call call' : Nat}
    (guards : caller.guards slot call) (guards' : caller.guards slot' call') : slot = slot' := by
  cases caller <;> simp_all [Caller.guards]

/-- A caller that is ready to place a call has none. -/
theorem Caller.readyFor_call {caller : Caller} {slot : CallSlot} (ready : caller.readyFor slot) :
    caller.call = none := by
  cases caller <;> simp_all [Caller.readyFor, Caller.call]

/-! ## What a step changes -/

section Steps

variable {world world' : World} {event : Event}

/-- A progress byte changes no slot. -/
@[simp] theorem trySend_slots (world : World) (call : Nat) (byte : UInt8) :
    (world.trySend call byte).slots = world.slots := by
  simp only [World.trySend]
  split_ifs <;> rfl

/-- A progress byte changes no caller. -/
@[simp] theorem trySend_callers (world : World) (call : Nat) (byte : UInt8) :
    (world.trySend call byte).callers = world.callers := by
  simp only [World.trySend]
  split_ifs <;> rfl

/-- A progress byte changes no line. -/
@[simp] theorem trySend_lines (world : World) (call : Nat) (byte : UInt8) :
    (world.trySend call byte).lines = world.lines := by
  simp only [World.trySend]
  split_ifs <;> rfl

/-- A progress byte changes not the next channel. -/
@[simp] theorem trySend_next (world : World) (call : Nat) (byte : UInt8) :
    (world.trySend call byte).next = world.next := by
  simp only [World.trySend]
  split_ifs <;> rfl

/-- A progress byte changes neither the pool nor its count. -/
@[simp] theorem trySend_pool (world : World) (call : Nat) (byte : UInt8) :
    (world.trySend call byte).pool = world.pool ∧
      (world.trySend call byte).listeners = world.listeners := by
  simp only [World.trySend]
  split_ifs <;> exact ⟨rfl, rfl⟩

/-- How a slot changes in a step. -/
inductive SlotStep (world : World) (event : Event) (slot : CallSlot) : Option Nat → Prop where
  /-- It does not. -/
  | same : SlotStep world event slot (world.slots slot)
  /-- A call is placed in it. -/
  | placed {caller} (placed : event = .placed caller slot world.next)
      (free : world.slots slot = none) : SlotStep world event slot (some world.next)
  /-- Its call is taken. -/
  | taken {endpoint call} (took : event = .took endpoint call) (own : endpoint.slot = slot)
      (held : world.slots slot = some call) : SlotStep world event slot none
  /-- Its caller takes its call back. -/
  | reclaimed {caller call ending} (reclaimed : event = .reclaimed caller)
      (leaving : world.callers caller = .leaving slot call ending)
      (held : world.slots slot = some call) : SlotStep world event slot none
  /-- The pool's last member empties it. -/
  | emptied {session} (emptied : event = .emptied session) (shared : slot = .cpm) :
      SlotStep world event slot none

/-- Every slot changes in one of these ways. -/
theorem step_slots (step : Step world event world') (slot : CallSlot) :
    SlotStep world event slot (world'.slots slot) := by
  cases step
  case place caller placed ready free =>
    by_cases own : slot = placed
    · subst own
      simpa [World.place, World.setSlot, World.setCaller] using SlotStep.placed rfl free
    · simpa [World.place, World.setSlot, World.setCaller, own] using SlotStep.same
  case take endpoint call idle attends held =>
    by_cases own : slot = endpoint.slot
    · subst own
      simpa [World.setSlot, World.setLine] using SlotStep.taken rfl rfl held
    · simpa [World.setSlot, World.setLine, own] using SlotStep.same
  case reclaim caller guarded call ending leaving =>
    by_cases held : world.slots guarded = some call
    · by_cases own : slot = guarded
      · subst own
        simpa [World.takeIfMine, World.setSlot, World.setCaller, held] using
          SlotStep.reclaimed rfl leaving held
      · simpa [World.takeIfMine, World.setSlot, World.setCaller, held, own] using SlotStep.same
    · simpa [World.takeIfMine, World.setCaller, held] using SlotStep.same
  case empty session leaving =>
    by_cases own : slot = .cpm
    · subst own
      simpa [World.setSlot, World.setPool] using SlotStep.emptied rfl rfl
    · simpa [World.setSlot, World.setPool, own] using SlotStep.same
  all_goals
    first
      | exact SlotStep.same
      | simpa [World.setLine] using SlotStep.same

/-- How a caller changes in a step. -/
inductive CallerStep (world : World) (event : Event) (caller : Nat) : Caller → Prop where
  /-- It does not. -/
  | same : CallerStep world event caller (world.callers caller)
  /-- It has found somebody listening. -/
  | counted (idle : world.callers caller = .idle) : CallerStep world event caller .counted
  /-- It is refused. -/
  | refused (vacant : (world.callers caller).call = none) :
      CallerStep world event caller (.returned (.err .busy))
  /-- It places its call. -/
  | placed {slot} (placed : event = .placed caller slot world.next)
      (ready : (world.callers caller).readyFor slot) :
      CallerStep world event caller (.waiting slot world.next false)
  /-- It hears a ring. -/
  | rang {slot call sawRing} (waiting : world.callers caller = .waiting slot call sawRing) :
      CallerStep world event caller (.waiting slot call true)
  /-- It hears the answer. -/
  | answered {slot call sawRing} (waiting : world.callers caller = .waiting slot call sawRing)
      (queued : 1 ∈ (world.channels call).queue) :
      CallerStep world event caller (.returning call (.ok call))
  /-- It stops waiting. -/
  | gaveUp {slot call sawRing ending} (waiting : world.callers caller = .waiting slot call sawRing)
      (failed : ∀ other, ending ≠ .ok other) :
      CallerStep world event caller (.leaving slot call ending)
  /-- Its guard is dropped. -/
  | reclaimed {slot call ending} (reclaimed : event = .reclaimed caller)
      (leaving : world.callers caller = .leaving slot call ending) :
      CallerStep world event caller (.returning call ending)
  /-- It returns. -/
  | finished {call ending} (returning : world.callers caller = .returning call ending) :
      CallerStep world event caller (.returned ending)

/-- A caller that is set changes as it is set, and no other changes. -/
theorem callerStep_set {changed : Nat} {now : Caller}
    (own : CallerStep world event changed now) (caller : Nat) :
    CallerStep world event caller ((Function.update world.callers changed now) caller) := by
  by_cases same : caller = changed
  · subst same
    simpa using own
  · simpa [same] using CallerStep.same

/-- Every caller changes in one of these ways. -/
theorem step_callers (step : Step world event world') (caller : Nat) :
    CallerStep world event caller (world'.callers caller) := by
  cases step
  case count changed idle =>
    apply callerStep_set
    split_ifs
    · exact .refused (by rw [idle]; rfl)
    · exact .counted idle
  case place changed slot ready free => exact callerStep_set (.placed rfl ready) caller
  case refuse changed slot ready full =>
    exact callerStep_set (.refused (Caller.readyFor_call ready)) caller
  case hear changed slot call sawRing byte rest waiting queued =>
    apply callerStep_set
    simp only [Caller.awaitPeerOutcome]
    split_ifs with ring answer
    · exact .rang waiting
    · exact .answered waiting (by simp [queued, answer])
    · exact .gaveUp waiting (by simp)
  case lose changed slot call sawRing waiting silent gone dropped =>
    exact callerStep_set (.gaveUp waiting (by simp)) caller
  case expire changed slot call sawRing waiting =>
    exact callerStep_set (.gaveUp waiting (by simp)) caller
  case cancel changed slot call sawRing waiting =>
    exact callerStep_set (.gaveUp waiting (by simp)) caller
  case reclaim changed slot call ending leaving =>
    have kept : (world.takeIfMine slot call).callers = world.callers := by
      simp only [World.takeIfMine]
      split_ifs <;> rfl
    simp only [World.setCaller, kept]
    exact callerStep_set (.reclaimed rfl leaving) caller
  case finish changed call ending returning =>
    exact callerStep_set (.finished returning) caller
  all_goals
    first
      | exact .same
      | simpa [World.setLine] using CallerStep.same

/-- A line holds what it held, or what it takes. -/
theorem step_lines (step : Step world event world') {endpoint : Endpoint} {call : Nat}
    (holds : (world'.lines endpoint).call = some call) :
    (world.lines endpoint).call = some call ∨ event = .took endpoint call := by
  have line_set : ∀ (lines : Endpoint → Line) (changed : Endpoint) (now : Line),
      (Function.update lines changed now endpoint).call = some call →
        (endpoint = changed ∧ now.call = some call) ∨ (lines endpoint).call = some call := by
    intro lines changed now holds
    by_cases same : endpoint = changed
    · subst same
      exact .inl ⟨rfl, by simpa using holds⟩
    · exact .inr (by simpa [same] using holds)
  cases step
  case take taker taken idle attends held =>
    obtain ⟨rfl, taken⟩ | held := line_set _ _ _ holds
    · cases taken
      exact .inr rfl
    · exact .inl held
  case fail id failed ringing =>
    obtain ⟨rfl, taken⟩ | held := line_set _ _ _ holds
    · cases taken
    · exact .inl (by simpa using held)
  case abort stopped rung ringing =>
    obtain ⟨rfl, taken⟩ | held := line_set _ _ _ holds
    · cases taken
    · exact .inl held
  case answer answering rung ringing accepts =>
    obtain ⟨rfl, taken⟩ | held := line_set _ _ _ holds
    · exact .inl (by rw [ringing]; exact taken)
    · exact .inl (by simpa using held)
  case answerGone session rung ringing gone =>
    obtain ⟨rfl, taken⟩ | held := line_set _ _ _ holds
    · exact .inl (by rw [ringing]; exact taken)
    · exact .inl held
  case hangUp ended rung online =>
    obtain ⟨rfl, taken⟩ | held := line_set _ _ _ holds
    · cases taken
    · exact .inl held
  case ring => exact .inl (by simpa using holds)
  case reclaim caller slot other ending leaving =>
    have kept : (world.takeIfMine slot other).lines = world.lines := by
      simp only [World.takeIfMine]
      split_ifs <;> rfl
    exact .inl (by simpa [World.setCaller, kept] using holds)
  all_goals exact .inl holds

/-- A channel's bytes were there, or are the byte sent. -/
theorem trySend_queue {world : World} {call sent : Nat} {byte byte' : UInt8}
    (queued : byte' ∈ ((world.trySend sent byte).channels call).queue) :
    byte' ∈ (world.channels call).queue ∨ (call = sent ∧ byte' = byte) := by
  simp only [World.trySend] at queued
  split_ifs at queued
  · by_cases same : call = sent
    · subst same
      simpa [World.setChannel] using queued
    · exact .inl (by simpa [World.setChannel, same] using queued)
  · exact .inl queued

/-- An answer byte was on its channel, or is sent by an endpoint that answers the call. -/
theorem step_answer (step : Step world event world') {call : Nat}
    (queued : 1 ∈ (world'.channels call).queue) :
    1 ∈ (world.channels call).queue ∨ ∃ endpoint, event = .answered endpoint call := by
  cases step
  case hear caller slot heard sawRing byte rest waiting before =>
    left
    by_cases same : call = heard
    · subst same
      simp only [World.setCaller, World.setChannel, Function.update_self] at queued
      rw [before]
      exact List.mem_cons_of_mem _ queued
    · simpa [World.setCaller, World.setChannel, same] using queued
  case finish caller closed ending returning =>
    left
    by_cases same : call = closed
    · subst same
      simpa [World.setCaller, World.setChannel] using queued
    · simpa [World.setCaller, World.setChannel, same] using queued
  case reclaim caller slot other ending leaving =>
    have kept : (world.takeIfMine slot other).channels = world.channels := by
      simp only [World.takeIfMine]
      split_ifs <;> rfl
    exact .inl (by simpa [World.setCaller, kept] using queued)
  case ring endpoint rung ringing accepts =>
    obtain before | ⟨_, byte⟩ := trySend_queue queued
    · exact .inl before
    · cases byte
  case fail id rung ringing =>
    obtain before | ⟨_, byte⟩ := trySend_queue queued
    · exact .inl before
    · cases byte
  case answer endpoint rung ringing accepts =>
    obtain before | ⟨same, _⟩ := trySend_queue queued
    · exact .inl before
    · exact .inr ⟨endpoint, by rw [same]⟩
  all_goals exact .inl queued

/-- A call that is taken was in the slot, which is empty afterwards. -/
theorem step_took (step : Step world event world') {endpoint : Endpoint} {call : Nat}
    (took : event = .took endpoint call) :
    world.slots endpoint.slot = some call ∧ world'.slots endpoint.slot = none := by
  cases step <;> cases took
  case take idle attends held => exact ⟨held, by simp [World.setSlot, World.setLine]⟩

/-- A call that is answered is ringing. -/
theorem step_answered (step : Step world event world') {endpoint : Endpoint} {call : Nat}
    (answered : event = .answered endpoint call) :
    (world.lines endpoint).call = some call := by
  cases step <;> cases answered
  case answer accepts ringing =>
    rw [ringing]
    rfl

/-- The next channel only grows, and a call that is placed gets a new one. -/
theorem step_next (step : Step world event world') :
    world.next ≤ world'.next ∧
      ∀ caller slot call, event = .placed caller slot call → call < world'.next := by
  cases step
  case place =>
    refine ⟨Nat.le_succ _, ?_⟩
    intro caller slot call placed
    cases placed
    exact Nat.lt_succ_self _
  case reclaim caller slot call ending leaving =>
    have kept : (world.takeIfMine slot call).next = world.next := by
      simp only [World.takeIfMine]
      split_ifs <;> rfl
    exact ⟨by simp [World.setCaller, kept], nofun⟩
  all_goals
    first
      | exact ⟨Nat.le_refl _, nofun⟩
      | exact ⟨by simp [World.setLine], nofun⟩

/-- A caller that places a call guards it. -/
theorem step_placed (step : Step world event world') {caller : Nat} {slot : CallSlot} {call : Nat}
    (placed : event = .placed caller slot call) :
    call = world.next ∧ (world'.callers caller).guards slot call := by
  cases step <;> cases placed
  case place => exact ⟨rfl, by simp [World.place, World.setCaller, Caller.guards]⟩

/-- A caller whose guard is dropped leaves none of its call in the slot. -/
theorem step_reclaimed (step : Step world event world') {caller : Nat} {slot : CallSlot}
    {call : Nat} {ending : Ending} (reclaimed : event = .reclaimed caller)
    (leaving : world.callers caller = .leaving slot call ending) :
    world'.slots slot ≠ some call := by
  cases step <;> cases reclaimed
  case reclaim slot' call' ending' leaving' =>
    cases leaving.symm.trans leaving'
    by_cases held : world.slots slot = some call
    · simp [World.takeIfMine, World.setSlot, World.setCaller, held]
    · simp [World.takeIfMine, World.setCaller, held]

end Steps

/-! ## The invariant -/

/-- The endpoints that took a call. -/
def takers (call : Nat) (events : List Event) : List Endpoint :=
  events.filterMap fun
    | .took endpoint taken => if taken = call then some endpoint else none
    | _ => none

/-- A call with no taker was not taken. -/
theorem takers_eq_nil_iff {call : Nat} {events : List Event} :
    takers call events = [] ↔ ∀ endpoint, .took endpoint call ∉ events := by
  constructor
  · intro none endpoint taken
    have found := List.filterMap_eq_nil_iff.mp none _ taken
    simp at found
  · intro untaken
    apply List.filterMap_eq_nil_iff.mpr
    intro event happened
    cases event
    case took endpoint taken =>
      have other : taken ≠ call := by
        rintro rfl
        exact untaken endpoint happened
      simp [other]
    all_goals rfl

/-- What holds after every run, whatever is allowed. -/
structure Sound (events : List Event) (world : World) : Prop where
  /-- A call in a slot is guarded by a caller. -/
  guarded : ∀ slot call, world.slots slot = some call →
    ∃ caller, (world.callers caller).guards slot call
  /-- A caller has placed the call it has. -/
  placed : ∀ caller call, (world.callers caller).call = some call →
    ∃ slot, .placed caller slot call ∈ events
  /-- A call that was placed is not the next one. -/
  fresh : ∀ caller slot call, .placed caller slot call ∈ events → call < world.next
  /-- Two callers have different calls. -/
  own : ∀ caller caller' call, (world.callers caller).call = some call →
    (world.callers caller').call = some call → caller = caller'
  /-- A call in a slot was not taken. -/
  untaken : ∀ slot call endpoint, world.slots slot = some call → .took endpoint call ∉ events
  /-- A call that was taken is not the next one. -/
  taken_fresh : ∀ endpoint call, .took endpoint call ∈ events → call < world.next
  /-- A call is taken once. -/
  once : ∀ call, (takers call events).length ≤ 1
  /-- A line holds what it took. -/
  holds : ∀ endpoint call, (world.lines endpoint).call = some call →
    .took endpoint call ∈ events
  /-- A call is answered by the endpoint that took it. -/
  answered : ∀ endpoint call, .answered endpoint call ∈ events → .took endpoint call ∈ events
  /-- An answer byte was sent by an endpoint that answered. -/
  byte : ∀ call, 1 ∈ (world.channels call).queue → ∃ endpoint, .answered endpoint call ∈ events
  /-- A caller returns the end of its own call, and the call was answered. -/
  okay : ∀ caller call, (world.callers caller).okay = some call →
    (world.callers caller).call = some call ∧ ∃ endpoint, .answered endpoint call ∈ events

/-- Nothing has happened at the start. -/
theorem sound_start : Sound [] .start where
  guarded := nofun
  placed := nofun
  fresh := nofun
  own := nofun
  untaken := nofun
  taken_fresh := nofun
  once := fun _ => Nat.zero_le 1
  holds := nofun
  answered := nofun
  byte := nofun
  okay := nofun

section Preserved

variable {events : List Event} {world world' : World} {event : Event}

/-- Of a call whose answer byte is on its channel, nothing is left in a slot. -/
theorem Sound.answered_gone (sound : Sound events world) {call : Nat}
    (queued : 1 ∈ (world.channels call).queue) (slot : CallSlot) :
    world.slots slot ≠ some call := by
  intro held
  obtain ⟨endpoint, answered⟩ := sound.byte call queued
  exact sound.untaken slot call endpoint held (sound.answered endpoint call answered)

/-- A guard stays armed as long as its call is in the slot. -/
theorem Sound.guards_step (sound : Sound events world) (step : Step world event world')
    {caller : Nat} {slot : CallSlot} {call : Nat} (held : world.slots slot = some call)
    (still : world'.slots slot = some call) (guards : (world.callers caller).guards slot call) :
    (world'.callers caller).guards slot call := by
  have changed := step_callers step caller
  generalize world'.callers caller = now at changed ⊢
  cases changed with
  | same => exact guards
  | counted idle =>
    rw [idle] at guards
    exact guards.elim
  | refused vacant => cases vacant.symm.trans (Caller.call_of_guards guards)
  | placed _ ready =>
    cases (Caller.readyFor_call ready).symm.trans (Caller.call_of_guards guards)
  | rang waiting =>
    rw [waiting] at guards
    exact guards
  | answered waiting queued =>
    rw [waiting] at guards
    exact absurd held (guards.2 ▸ sound.answered_gone queued slot)
  | gaveUp waiting _ =>
    rw [waiting] at guards
    exact guards
  | reclaimed reclaimed leaving =>
    rw [leaving] at guards
    obtain ⟨rfl, rfl⟩ := guards
    exact absurd still (step_reclaimed step reclaimed leaving)
  | finished returning =>
    rw [returning] at guards
    exact guards.elim

/-- A call in a slot stays guarded. -/
theorem Sound.guarded_step (sound : Sound events world) (step : Step world event world')
    {slot : CallSlot} {call : Nat} (still : world'.slots slot = some call) :
    ∃ caller, (world'.callers caller).guards slot call := by
  have changed := step_slots step slot
  generalize now_eq : world'.slots slot = now at changed still
  cases changed with
  | same =>
    obtain ⟨caller, guards⟩ := sound.guarded slot call still
    exact ⟨caller, sound.guards_step step still (now_eq.trans still) guards⟩
  | @placed caller placed free =>
    cases still
    exact ⟨caller, (step_placed step placed).2⟩
  | taken => cases still
  | reclaimed => cases still
  | emptied => cases still

/-- A caller has its call from before, or places it now. -/
theorem Sound.call_step (sound : Sound events world) (step : Step world event world')
    {caller call : Nat} (has : (world'.callers caller).call = some call) :
    (world.callers caller).call = some call ∨
      (world.callers caller).call = none ∧ ∃ slot, event = .placed caller slot call := by
  have changed := step_callers step caller
  generalize world'.callers caller = now at changed has
  cases changed with
  | same => exact .inl has
  | counted idle => cases has
  | refused vacant => cases has
  | placed placed ready =>
    cases has
    exact .inr ⟨Caller.readyFor_call ready, _, placed⟩
  | rang waiting =>
    rw [waiting]
    exact .inl has
  | answered waiting queued =>
    rw [waiting]
    exact .inl has
  | gaveUp waiting failed =>
    rw [waiting]
    exact .inl has
  | reclaimed reclaimed leaving =>
    rw [leaving]
    exact .inl has
  | @finished call' ending returning =>
    cases ending with
    | ok other =>
      cases has
      have okay : (world.callers caller).okay = some call := by
        rw [returning]
        rfl
      exact .inl (sound.okay caller call okay).1
    | err outcome => cases has
    | cancelled => cases has

/-- A caller that returns an end did so before, or has just heard the answer. -/
theorem Sound.okay_step (sound : Sound events world) (step : Step world event world')
    {caller call : Nat} (okay : (world'.callers caller).okay = some call) :
    (world'.callers caller).call = some call ∧
      ∃ endpoint, .answered endpoint call ∈ events := by
  have changed := step_callers step caller
  generalize world'.callers caller = now at changed okay ⊢
  cases changed with
  | same => exact sound.okay caller call okay
  | counted idle => cases okay
  | refused vacant => cases okay
  | placed placed ready => cases okay
  | rang waiting => cases okay
  | answered waiting queued =>
    cases okay
    exact ⟨rfl, sound.byte call queued⟩
  | @gaveUp slot other sawRing ending waiting failed =>
    cases ending with
    | ok other => exact absurd rfl (failed other)
    | err outcome => cases okay
    | cancelled => cases okay
  | @reclaimed slot other ending reclaimed leaving =>
    have before := sound.okay caller call
    rw [leaving] at before
    cases ending with
    | ok other =>
      cases okay
      exact before rfl
    | err outcome => cases okay
    | cancelled => cases okay
  | @finished other ending returning =>
    have before := sound.okay caller call
    rw [returning] at before
    cases ending with
    | ok other =>
      cases okay
      exact ⟨rfl, (before rfl).2⟩
    | err outcome => cases okay
    | cancelled => cases okay

/-- A call in a slot was there before, or is placed now. -/
theorem step_held (step : Step world event world') {slot : CallSlot} {call : Nat}
    (still : world'.slots slot = some call) :
    world.slots slot = some call ∨ call = world.next ∧ ∃ caller, event = .placed caller slot call := by
  have changed := step_slots step slot
  generalize world'.slots slot = now at changed still
  cases changed with
  | same => exact .inl still
  | @placed caller placed free =>
    cases still
    exact .inr ⟨rfl, caller, placed⟩
  | taken => cases still
  | reclaimed => cases still
  | emptied => cases still

/-- A call in a slot was placed before. -/
theorem Sound.held_fresh (sound : Sound events world) {slot : CallSlot} {call : Nat}
    (held : world.slots slot = some call) : call < world.next := by
  obtain ⟨caller, guards⟩ := sound.guarded slot call held
  obtain ⟨slot', placed⟩ := sound.placed caller call (Caller.call_of_guards guards)
  exact sound.fresh caller slot' call placed

/-- A call is in one slot at most. -/
theorem Sound.held_once (sound : Sound events world) {slot slot' : CallSlot} {call : Nat}
    (held : world.slots slot = some call) (held' : world.slots slot' = some call) : slot = slot' := by
  obtain ⟨caller, guards⟩ := sound.guarded slot call held
  obtain ⟨caller', guards'⟩ := sound.guarded slot' call held'
  cases sound.own caller caller' call (Caller.call_of_guards guards) (Caller.call_of_guards guards')
  exact Caller.guards_slot guards guards'

/-- A call in a slot was never taken. -/
theorem Sound.untaken_step (sound : Sound events world) (step : Step world event world')
    {slot : CallSlot} {call : Nat} {endpoint : Endpoint} (still : world'.slots slot = some call) :
    .took endpoint call ∉ event :: events := by
  intro taken
  obtain took | taken := List.mem_cons.mp taken
  · obtain ⟨held, emptied⟩ := step_took step took.symm
    obtain before | ⟨_, caller, placed⟩ := step_held step still
    · rw [sound.held_once before held, emptied] at still
      cases still
    · rw [placed] at took
      cases took
  · obtain before | ⟨fresh, _⟩ := step_held step still
    · exact sound.untaken slot call endpoint before taken
    · exact absurd (sound.taken_fresh endpoint call taken) (by omega)

/-- A call is taken once. -/
theorem Sound.once_step (sound : Sound events world) (step : Step world event world') (call : Nat) :
    (takers call (event :: events)).length ≤ 1 := by
  have before := sound.once call
  by_cases took : ∃ endpoint, event = .took endpoint call
  · obtain ⟨endpoint, rfl⟩ := took
    have none : takers call events = [] := takers_eq_nil_iff.mpr fun other =>
      sound.untaken endpoint.slot call other (step_took step rfl).1
    simp only [takers] at none ⊢
    simp [none]
  · have same : takers call (event :: events) = takers call events := by
      simp only [takers]
      apply List.filterMap_cons_none
      cases event
      case took endpoint taken =>
        have other : taken ≠ call := by
          rintro rfl
          exact took ⟨endpoint, rfl⟩
        simp [other]
      all_goals rfl
    rw [same]
    exact before

/-- Two callers still have different calls. -/
theorem Sound.own_step (sound : Sound events world) (step : Step world event world')
    {caller caller' call : Nat} (has : (world'.callers caller).call = some call)
    (has' : (world'.callers caller').call = some call) : caller = caller' := by
  obtain before | ⟨_, slot, placed⟩ := sound.call_step step has
  · obtain before' | ⟨_, slot', placed'⟩ := sound.call_step step has'
    · exact sound.own caller caller' call before before'
    · obtain ⟨slot, already⟩ := sound.placed caller call before
      have old := sound.fresh caller slot call already
      exact absurd (step_placed step placed').1 (by omega)
  · obtain before' | ⟨_, slot', placed'⟩ := sound.call_step step has'
    · obtain ⟨slot, already⟩ := sound.placed caller' call before'
      have old := sound.fresh caller' slot call already
      exact absurd (step_placed step placed).1 (by omega)
    · rw [placed] at placed'
      cases placed'
      rfl

/-- One step keeps the invariant. -/
theorem Sound.step (sound : Sound events world) (step : Step world event world') :
    Sound (event :: events) world' where
  guarded := fun slot call still => sound.guarded_step step still
  placed := by
    intro caller call has
    obtain before | ⟨_, slot, placed⟩ := sound.call_step step has
    · obtain ⟨slot, placed⟩ := sound.placed caller call before
      exact ⟨slot, List.mem_cons_of_mem _ placed⟩
    · exact ⟨slot, placed ▸ List.mem_cons_self⟩
  fresh := by
    intro caller slot call placed
    obtain now | before := List.mem_cons.mp placed
    · exact (step_next step).2 caller slot call now.symm
    · exact (sound.fresh caller slot call before).trans_le (step_next step).1
  own := fun caller caller' call has has' => sound.own_step step has has'
  untaken := fun slot call endpoint still => sound.untaken_step step still
  taken_fresh := by
    intro endpoint call taken
    obtain now | before := List.mem_cons.mp taken
    · exact (sound.held_fresh (step_took step now.symm).1).trans_le (step_next step).1
    · exact (sound.taken_fresh endpoint call before).trans_le (step_next step).1
  once := sound.once_step step
  holds := by
    intro endpoint call holds
    obtain before | took := step_lines step holds
    · exact List.mem_cons_of_mem _ (sound.holds endpoint call before)
    · exact took ▸ List.mem_cons_self
  answered := by
    intro endpoint call answered
    obtain now | before := List.mem_cons.mp answered
    · exact List.mem_cons_of_mem _ (sound.holds endpoint call (step_answered step now.symm))
    · exact List.mem_cons_of_mem _ (sound.answered endpoint call before)
  byte := by
    intro call queued
    obtain before | ⟨endpoint, answered⟩ := step_answer step queued
    · obtain ⟨endpoint, answered⟩ := sound.byte call before
      exact ⟨endpoint, List.mem_cons_of_mem _ answered⟩
    · exact ⟨endpoint, answered ▸ List.mem_cons_self⟩
  okay := by
    intro caller call okay
    obtain ⟨own, endpoint, answered⟩ := sound.okay_step step okay
    exact ⟨own, endpoint, List.mem_cons_of_mem _ answered⟩

end Preserved

/-- The invariant holds after every run. -/
theorem Run.sound {allowed : World → Event → Prop} {events : List Event} {world : World}
    (run : Run allowed events world) : Sound events world := by
  induction run with
  | start => exact sound_start
  | step run permitted step sound => exact sound.step step

/-! ## Who listens -/

/-- The number of listeners is the number of sessions in the pool. -/
def Counted (world : World) : Prop :=
  ∃ members : Finset Nat, (∀ session, session ∈ members ↔ world.pool session = .listening) ∧
    members.card = world.listeners

/-- A session that joins is counted, and one that leaves is no longer. -/
theorem Counted.step {world world' : World} {event : Event} (counted : Counted world)
    (step : Step world event world') : Counted world' := by
  obtain ⟨members, member_iff, count⟩ := counted
  cases step
  case enter session outside =>
    refine ⟨insert session members, ?_, ?_⟩
    · intro other
      by_cases same : other = session
      · simp [World.setPool, same]
      · simp [World.setPool, same, member_iff]
    · have absent : session ∉ members := by
        rw [member_iff, outside]
        decide
      simp [World.setPool, Finset.card_insert_of_notMem absent, count]
  case depart session listening =>
    refine ⟨members.erase session, ?_, ?_⟩
    · intro other
      by_cases same : other = session
      · subst same
        simp only [Finset.notMem_erase, World.setPool, Function.update_self, false_iff]
        split_ifs <;> decide
      · simp [World.setPool, same, member_iff]
    · have present : session ∈ members := (member_iff session).mpr listening
      simp [World.setPool, Finset.card_erase_of_mem present, count]
  case empty session leaving =>
    refine ⟨members, ?_, count⟩
    intro other
    by_cases same : other = session
    · subst same
      simp [World.setPool, World.setSlot, member_iff, leaving]
    · simp [World.setPool, World.setSlot, same, member_iff]
  case reclaim caller slot call ending leaving =>
    refine ⟨members, ?_, ?_⟩
    · simp only [World.takeIfMine]
      split_ifs <;> exact member_iff
    · simp only [World.takeIfMine]
      split_ifs <;> exact count
  case ring endpoint call ringing accepts =>
    exact ⟨members, by simpa using member_iff, by simpa using count⟩
  case fail id call ringing =>
    exact ⟨members, by simpa [World.setLine] using member_iff, by simpa [World.setLine] using count⟩
  case answer endpoint call ringing accepts =>
    exact ⟨members, by simpa [World.setLine] using member_iff, by simpa [World.setLine] using count⟩
  all_goals exact ⟨members, member_iff, count⟩

/-- After every run the number of listeners is right. -/
theorem Run.counted {allowed : World → Event → Prop} {events : List Event} {world : World}
    (run : Run allowed events world) : Counted world := by
  induction run with
  | start => exact ⟨∅, by simp [World.start], rfl⟩
  | step run permitted step counted => exact counted.step step

/-- When no listener is counted, nobody listens. -/
theorem Counted.none_listens {world : World} (counted : Counted world) (none : world.listeners = 0)
    (session : Nat) : world.pool session ≠ .listening := by
  obtain ⟨members, member_iff, count⟩ := counted
  have empty : members = ∅ := Finset.card_eq_zero.mp (count.trans none)
  intro listening
  simpa [empty] using (member_iff session).mpr listening

/-- When listeners are counted, somebody listens. -/
theorem Counted.some_listens {world : World} (counted : Counted world)
    (some : world.listeners ≠ 0) : ∃ session, world.pool session = .listening := by
  obtain ⟨members, member_iff, count⟩ := counted
  have occupied : 0 < members.card := by omega
  obtain ⟨session, member⟩ := Finset.card_pos.mp occupied
  exact ⟨session, (member_iff session).mp member⟩

/-! ## The order of joins and placements -/

/-- The sessions that have joined since a session counted down, and have not left again. -/
def joinedSince (session : Nat) : List Event → List Nat
  | [] => []
  | .entered other :: events => other :: joinedSince session events
  | .departed other :: events =>
    if other = session then [] else (joinedSince session events).filter (· ≠ other)
  | _ :: events => joinedSince session events

/-- The caller and the call that were placed last in the slot of the pool, if since then nobody took
the call, its caller did not take it back and no session emptied the slot. -/
def lying : List Event → Option (Nat × Nat)
  | [] => none
  | .placed caller .cpm call :: _ => some (caller, call)
  | .took (.session _) _ :: _ => none
  | .emptied _ :: _ => none
  | .reclaimed caller :: events => (lying events).filter fun placed => placed.1 ≠ caller
  | _ :: events => lying events

section Order

variable {events : List Event} {world world' : World} {event : Event}

/-- Who listens while a session is about to empty the slot: those that joined since. -/
def Joined (events : List Event) (world : World) : Prop :=
  ∀ session, world.pool session = .leaving →
    ∀ other, other ∈ joinedSince session events ↔ world.pool other = .listening

/-- A step keeps track of who joined. -/
theorem Joined.step (joined : Joined events world) (counted : Counted world)
    (step : Step world event world') : Joined (event :: events) world' := by
  have counted' := counted.step step
  cases step
  case enter entering outside =>
    intro session leaving other
    have apart : session ≠ entering := by
      rintro rfl
      simp [World.setPool] at leaving
    simp only [World.setPool, Function.update_apply, apart, if_false] at leaving ⊢
    simp only [joinedSince, List.mem_cons, joined session leaving other]
    split_ifs with same <;> simp [same]
  case depart departing listening =>
    intro session leaving other
    simp only [joinedSince]
    by_cases own : departing = session
    · subst own
      simp only [World.setPool, Function.update_self, ite_eq_left_iff] at leaving
      have last : world.listeners ≤ 1 := by
        by_contra many
        cases leaving many
      have none := counted'.none_listens (by simp only [World.setPool]; omega) other
      simp only [if_true, List.not_mem_nil, false_iff]
      exact none
    · have before : world.pool session = .leaving := by
        simpa [World.setPool, Function.update_apply, Ne.symm own] using leaving
      rw [if_neg own, List.mem_filter, joined session before other]
      simp only [World.setPool, Function.update_apply, decide_eq_true_eq]
      by_cases same : other = departing
      · simp only [same, ne_eq, not_true_eq_false, and_false, if_true, false_iff]
        split_ifs <;> exact nofun
      · simp [same]
  case empty emptying leaving =>
    intro session leaving' other
    have apart : session ≠ emptying := by
      rintro rfl
      simp [World.setPool, World.setSlot] at leaving'
    have before : world.pool session = .leaving := by
      simpa [World.setPool, World.setSlot, Function.update_apply, apart] using leaving'
    simp only [joinedSince, joined session before other, World.setPool, World.setSlot,
      Function.update_apply]
    split_ifs with same
    · rw [same, leaving]
      simp
    · rfl
  all_goals
    intro session leaving other
    simp only [World.setCaller, World.place, World.setSlot, World.setChannel, World.takeIfMine,
      World.setLine, trySend_pool] at leaving ⊢
    first
    | exact joined session leaving other
    | (split_ifs at leaving ⊢ <;> exact joined session leaving other)

/-- What lies in the slot of the pool by the order of the events is in it, its caller's guard
armed. -/
structure Lies (events : List Event) (world : World) : Prop where
  /-- The call is in the slot. -/
  held : world.slots .cpm = (lying events).map Prod.snd
  /-- Its caller guards it. -/
  guards : ∀ caller call, lying events = some (caller, call) →
    (world.callers caller).guards .cpm call

/-- Where the same call still lies in the slot, its caller guards it after a step. -/
theorem Lies.guards_step (lies : Lies events world) (sound : Sound events world)
    (step : Step world event world')
    (held : world'.slots .cpm = (lying events).map Prod.snd) {caller call : Nat}
    (lay : lying events = some (caller, call)) : (world'.callers caller).guards .cpm call := by
  have before : world.slots .cpm = some call := by rw [lies.held, lay, Option.map_some]
  exact sound.guards_step step before (by rw [held, lay, Option.map_some])
    (lies.guards caller call lay)

/-- A caller that gives up takes the call that lies in the slot if it is its own, and no other. -/
theorem Lies.reclaim (lies : Lies events world) (sound : Sound events world) {caller call : Nat}
    {slot : CallSlot} {ending : Ending} (leaving : world.callers caller = .leaving slot call ending) :
    Lies (.reclaimed caller :: events)
      ((world.takeIfMine slot call).setCaller caller (.returning call ending)) := by
  have has : (world.callers caller).guards slot call := by
    rw [leaving]
    exact ⟨rfl, rfl⟩
  cases lay : lying events with
  | none =>
    have free := lies.held
    rw [lay, Option.map_none] at free
    refine ⟨?_, by simp [lying, lay]⟩
    simp only [World.takeIfMine, World.setCaller, lying, lay, Option.filter_none, Option.map_none]
    split_ifs
    · simp [World.setSlot, Function.update_apply, free]
    · exact free
  | some placed =>
    obtain ⟨own, placed⟩ := placed
    have guards := lies.guards own placed lay
    have before := lies.held
    rw [lay, Option.map_some] at before
    by_cases same : own = caller
    · subst same
      cases Caller.guards_slot guards has
      cases (Caller.call_of_guards guards).symm.trans (Caller.call_of_guards has)
      have taken : lying (.reclaimed own :: events) = none := by simp [lying, lay]
      refine ⟨by simp [World.takeIfMine, World.setCaller, World.setSlot, taken, before], ?_⟩
      intro other call lay'
      rw [taken] at lay'
      cases lay'
    · have apart : world.slots slot ≠ some call ∨ slot ≠ .cpm := by
        by_contra both
        obtain ⟨here, shared⟩ := not_or.mp both
        rw [not_not] at here shared
        subst shared
        cases before.symm.trans here
        exact same (sound.own own caller placed (Caller.call_of_guards guards)
          (Caller.call_of_guards has))
      have left : lying (.reclaimed caller :: events) = lying events := by
        simp [lying, lay, same]
      have held : (((world.takeIfMine slot call).setCaller caller (.returning call ending)).slots
          .cpm) = (lying events).map Prod.snd := by
        simp only [World.takeIfMine, World.setCaller]
        split_ifs with mine
        · have other := apart.resolve_left (not_not.mpr mine)
          simp [World.setSlot, Ne.symm other, lies.held]
        · exact lies.held
      refine ⟨left ▸ held, ?_⟩
      intro other call' lay'
      exact lies.guards_step sound (.reclaim leaving) held (left ▸ lay')

/-- A step keeps track of the call that lies in the slot. -/
theorem Lies.step (lies : Lies events world) (sound : Sound events world)
    (step : Step world event world') : Lies (event :: events) world' := by
  -- A caller keeps its guard as long as the call that lies there is the same.
  have kept := @Lies.guards_step _ _ _ _ lies sound step
  cases step
  case place caller slot ready free =>
    cases slot with
    | cpm =>
      refine ⟨by simp [World.place, World.setSlot, World.setCaller, lying], ?_⟩
      intro other call lay
      simp only [lying, Option.some.injEq, Prod.mk.injEq] at lay
      obtain ⟨rfl, rfl⟩ := lay
      simp [World.place, World.setSlot, World.setCaller, Caller.guards]
    | port id =>
      have held : ((world.place caller (.port id)).slots .cpm) = (lying events).map Prod.snd := by
        simp [World.place, World.setSlot, World.setCaller, lies.held]
      exact ⟨held, fun other call lay => kept held lay⟩
  case take endpoint call idle attends waiting =>
    cases endpoint with
    | session number =>
      refine ⟨by simp [World.setSlot, World.setLine, lying, Endpoint.slot], ?_⟩
      intro other call lay
      cases lay
    | port id =>
      have held : (((world.setSlot (.port id) none).setLine (.port id) (.ringing call)).slots .cpm) =
          (lying events).map Prod.snd := by
        simp [World.setSlot, World.setLine, lies.held]
      exact ⟨held, fun other call lay => kept held lay⟩
  case empty session leaving =>
    refine ⟨by simp [World.setSlot, lying], ?_⟩
    intro other call lay
    cases lay
  case reclaim caller slot call ending leaving =>
    exact lies.reclaim sound leaving
  all_goals
    refine ⟨?_, fun other call lay => kept ?_ lay⟩ <;>
      simp [World.setCaller, World.setChannel, World.setPool, World.setLine, lying, lies.held]

end Order

/-- After every run, while a session is about to empty the slot, those listen that joined since. -/
theorem Run.joined {allowed : World → Event → Prop} {events : List Event} {world : World}
    (run : Run allowed events world) : Joined events world := by
  induction run with
  | start =>
    intro session leaving
    cases leaving
  | step run permitted step joined => exact joined.step run.counted step

/-- After every run the slot of the pool holds the call that lies there by the order of the
events. -/
theorem Run.lies {allowed : World → Event → Prop} {events : List Event} {world : World}
    (run : Run allowed events world) : Lies events world := by
  induction run with
  | start =>
    refine ⟨rfl, ?_⟩
    intro caller call lay
    cases lay
  | step run permitted step lies => exact lies.step run.sound step

/-! ## A call joins two parties -/

/-- A session that empties the slot on its way out finds nobody listening, or no call. -/
def EmptiedInTime (world : World) (event : Event) : Prop :=
  ∀ session, event = .emptied session → world.listeners = 0 ∨ world.slots .cpm = none

/-- No session overtakes one on its way out: when a session empties the slot, those that joined since
it counted down have left again, or no call lies in the slot. -/
def NotOvertaken (events : List Event) (event : Event) : Prop :=
  ∀ session, event = .emptied session → joinedSince session events = [] ∨ lying events = none

/-- A session empties the slot in time exactly when none overtook it. -/
theorem Run.emptiedInTime_iff {allowed : World → Event → Prop} {events : List Event}
    {world world' : World} {event : Event} (run : Run allowed events world)
    (step : Step world event world') : EmptiedInTime world event ↔ NotOvertaken events event := by
  refine forall_congr' fun session => forall_congr' fun emptied => ?_
  subst emptied
  have leaving : world.pool session = .leaving := by
    cases step
    assumption
  have joined := run.joined session leaving
  have nobody : world.listeners = 0 ↔ joinedSince session events = [] := by
    constructor
    · intro none
      apply List.eq_nil_iff_forall_not_mem.mpr
      exact fun other member => run.counted.none_listens none other ((joined other).mp member)
    · intro left
      by_contra some
      obtain ⟨other, listening⟩ := run.counted.some_listens some
      have member := (joined other).mpr listening
      rw [left] at member
      cases member
  rw [nobody, run.lies.held, Option.map_eq_none_iff]

/-- How a call may leave its slot: an endpoint takes it, its own caller gives up, or nobody listens
at the slot. -/
def LeavesProperly (world : World) (event : Event) (slot : CallSlot) (call : Nat) : Prop :=
  (∃ endpoint, endpoint.slot = slot ∧ event = .took endpoint call) ∨
  (∃ caller ending, world.callers caller = .leaving slot call ending ∧ event = .reclaimed caller) ∨
  (slot = .cpm ∧ ∀ session, world.pool session ≠ .listening)

/-- A call that leaves its slot in a timely step leaves it properly. -/
theorem Counted.leaves_properly {world world' : World} {event : Event} (counted : Counted world)
    (step : Step world event world') (timely : EmptiedInTime world event) {slot : CallSlot}
    {call : Nat} (held : world.slots slot = some call) (left : world'.slots slot ≠ some call) :
    LeavesProperly world event slot call := by
  have changed := step_slots step slot
  generalize world'.slots slot = now at changed left
  cases changed with
  | same => exact absurd held left
  | placed placed free => cases free.symm.trans held
  | @taken endpoint taken took own before =>
    cases before.symm.trans held
    exact .inl ⟨endpoint, own, took⟩
  | @reclaimed caller other ending reclaimed leaving before =>
    cases before.symm.trans held
    exact .inr (.inl ⟨caller, ending, leaving, reclaimed⟩)
  | @emptied session emptied shared =>
    subst shared
    obtain none | empty := timely session emptied
    · exact .inr (.inr ⟨rfl, counted.none_listens none⟩)
    · cases empty.symm.trans held

/-- A step that lets calls leave properly only is timely. -/
theorem Counted.timely_of_proper {world world' : World} {event : Event} (counted : Counted world)
    (step : Step world event world')
    (proper : ∀ slot call, world.slots slot = some call → world'.slots slot ≠ some call →
      LeavesProperly world event slot call) : EmptiedInTime world event := by
  rintro session rfl
  by_contra late
  obtain ⟨some, full⟩ := not_or.mp late
  obtain ⟨call, held⟩ := Option.ne_none_iff_exists'.mp full
  have left : world'.slots .cpm ≠ Option.some call := by
    cases step
    simp [World.setSlot]
  obtain ⟨listener, listening⟩ := counted.some_listens some
  obtain ⟨endpoint, own, took⟩ | ⟨caller, ending, leaving, reclaimed⟩ | ⟨shared, none⟩ :=
    proper .cpm call held left
  · cases took
  · cases reclaimed
  · exact none listener listening

/-- Once every caller has returned, no slot holds a call. -/
theorem Sound.slots_empty {events : List Event} {world : World} (sound : Sound events world)
    (returned : ∀ caller, world.callers caller = .idle ∨
      ∃ ending, world.callers caller = .returned ending) (slot : CallSlot) :
    world.slots slot = none := by
  cases held : world.slots slot with
  | none => rfl
  | some call =>
    obtain ⟨caller, guards⟩ := sound.guarded slot call held
    obtain idle | ⟨ending, ended⟩ := returned caller
    · rw [idle] at guards
      exact guards.elim
    · rw [ended] at guards
      exact guards.elim

/-- In every run, a call leaves its slot only by being taken, by its own caller giving up, or because
nobody listens, exactly as long as no session that empties the slot was overtaken on its way out: by
the order of the steps, each session that joined since it counted down has left again, or each call
placed in the slot has left it. Whatever happens, a call is taken once, a caller returns only the
end of its own call, which the endpoint that took it has answered, an endpoint is online on a call
it took, and when every caller has returned the slots are empty. -/
theorem peer_call_joins_two {allowed : World → Event → Prop} {events : List Event} {world : World}
    (run : Run allowed events world) :
    (∀ event world', Step world event world' →
      ((∀ slot call, world.slots slot = some call → world'.slots slot ≠ some call →
        LeavesProperly world event slot call) ↔ NotOvertaken events event)) ∧
    (∀ call, (takers call events).length ≤ 1) ∧
    (∀ caller call, world.callers caller = .returned (.ok call) →
      (∃ slot, .placed caller slot call ∈ events) ∧
      (∃ endpoint, .took endpoint call ∈ events ∧ .answered endpoint call ∈ events) ∧
      ∀ caller', world.callers caller' = .returned (.ok call) → caller' = caller) ∧
    (∀ endpoint call, world.lines endpoint = .online call → .took endpoint call ∈ events) ∧
    ((∀ caller, world.callers caller = .idle ∨
      ∃ ending, world.callers caller = .returned ending) → ∀ slot, world.slots slot = none) := by
  have sound := run.sound
  have counted := run.counted
  refine ⟨?_, sound.once, ?_, ?_, sound.slots_empty⟩
  · intro event world' step
    rw [← run.emptiedInTime_iff step]
    exact ⟨counted.timely_of_proper step, fun timely slot call held left =>
      counted.leaves_properly step timely held left⟩
  · intro caller call returned
    have has : (world.callers caller).call = some call := by
      rw [returned]
      rfl
    have okay : (world.callers caller).okay = some call := by
      rw [returned]
      rfl
    obtain ⟨_, endpoint, answered⟩ := sound.okay caller call okay
    refine ⟨sound.placed caller call has,
      ⟨endpoint, sound.answered endpoint call answered, answered⟩, ?_⟩
    intro caller' returned'
    have has' : (world.callers caller').call = some call := by
      rw [returned']
      rfl
    exact sound.own caller' caller call has' has
  · intro endpoint call online
    have holds : (world.lines endpoint).call = some call := by
      rw [online]
      rfl
    exact sound.holds endpoint call holds

/-- A caller that returns with its call does so after the session that took the call has answered. -/
theorem peer_call_joins_two_answered :
    ∃ events world, Run (fun _ _ => True) events world ∧ world.callers 0 = .returned (.ok 0) ∧
      ∃ endpoint, .took endpoint 0 ∈ events ∧ .answered endpoint 0 ∈ events := by
  have entered := Run.step (@Run.start fun _ _ => True) trivial (@Step.enter _ 0 rfl)
  have counted := Run.step entered trivial (@Step.count _ 0 rfl)
  have placed := Run.step counted trivial (@Step.place _ 0 .cpm trivial rfl)
  have taken := Run.step placed trivial (@Step.take _ (.session 0) 0 rfl rfl rfl)
  have answered := Run.step taken trivial (@Step.answer _ (.session 0) 0 rfl rfl)
  have heard := Run.step answered trivial (@Step.hear _ 0 .cpm 0 false 1 [] rfl rfl)
  have returned := Run.step heard trivial (@Step.finish _ 0 0 (.ok 0) rfl)
  exact ⟨_, _, returned, rfl, ((peer_call_joins_two returned).2.2.1 0 0 rfl).2.1⟩

/-- A session joins and leaves, another joins while the first has yet to empty the slot, and a call is
placed. -/
def reopened : World :=
  ((((World.start.setPool 0 .listening 1).setPool 0 .leaving 0).setPool 1 .listening 1).setCaller 0
    .counted).place 0 .cpm

/-- The events of that run. -/
def reopening : List Event :=
  [.placed 0 .cpm 0, .counted 0, .entered 1, .departed 0, .entered 0]

/-- It is a run. -/
theorem reopened_run : Run (fun _ _ => True) reopening reopened := by
  have entered := Run.step (@Run.start fun _ _ => True) trivial (@Step.enter _ 0 rfl)
  have departed := Run.step entered trivial (@Step.depart _ 0 rfl)
  have again := Run.step departed trivial (@Step.enter _ 1 rfl)
  have counted := Run.step again trivial (@Step.count _ 0 rfl)
  exact Run.step counted trivial (@Step.place _ 0 .cpm trivial rfl)

/-- The session that leaves then throws away the call placed while another listens. -/
theorem call_thrown_away :
    ∃ events world event world', Run (fun _ _ => True) events world ∧ Step world event world' ∧
      world.slots .cpm = some 0 ∧ world'.slots .cpm ≠ some 0 ∧ world.pool 1 = .listening ∧
      ¬ LeavesProperly world event .cpm 0 := by
  refine ⟨reopening, reopened, .emptied 0, _, reopened_run, @Step.empty _ 0 rfl, rfl, nofun, rfl, ?_⟩
  rintro (⟨endpoint, own, took⟩ | ⟨caller, ending, leaving, reclaimed⟩ | ⟨shared, none⟩)
  · cases took
  · cases reclaimed
  · exact none 1 rfl

end EthernetGateway.Serial.Peer
