import EthernetGateway.Sweeping

/-!
# Limiting the connections of an address

Connections are counted for each address over a sliding window, and one past the limit is refused.
A refused connection is not stored, and of the refusals in a row only the first is logged.
-/

namespace EthernetGateway.Access

variable {Address : Type} [DecidableEq Address] {max window : Nat}

/-- `ConnRate`. -/
structure ConnRate where
  /-- `seen`, in milliseconds. -/
  seen : List Nat
  /-- `refusal_logged`. -/
  refusalLogged : Bool
  deriving DecidableEq

/-- `ConnRateMap`. -/
abbrev ConnRateMap (Address : Type) := Address → Option ConnRate

/-- `now.duration_since(t) < window`. -/
def inWindow (window now t : Nat) : Bool := decide (now - t < window)

/-- `note_connection`: how many connections count, and whether a refusal is to be logged. -/
def noteConnection (rates : ConnRateMap Address) (ip : Address) (max window now : Nat) :
    (Nat × Bool) × ConnRateMap Address :=
  let swept : ConnRateMap Address := fun other =>
    (rates other).filter fun rate => rate.seen.any (inWindow window now)
  let rate := (swept ip).getD ⟨[], false⟩
  let seen := rate.seen.filter (inWindow window now)
  if seen.length ≥ max then
    ((seen.length + 1, !rate.refusalLogged), Function.update swept ip (some ⟨seen, true⟩))
  else ((seen.length + 1, false), Function.update swept ip (some ⟨seen ++ [now], false⟩))

/-- `over_rate_limit`: a connection is refused. -/
def overRateLimit (rates : ConnRateMap Address) (ip : Address) (max window now : Nat) : Bool :=
  decide (max > 0) && decide ((noteConnection rates ip max window now).1.1 > max)

/-- The map as a rule for the entry of one address. -/
def connRule (max window : Nat) : SweepRule ConnRate Unit (Nat × Bool) where
  expired now rate := !rate.seen.any (inWindow window now)
  sweeps _ := true
  answer now _ entry :=
    let rate := entry.getD ⟨[], false⟩
    let seen := rate.seen.filter (inWindow window now)
    if seen.length ≥ max then (seen.length + 1, !rate.refusalLogged) else (seen.length + 1, false)
  next now _ entry :=
    let rate := entry.getD ⟨[], false⟩
    let seen := rate.seen.filter (inWindow window now)
    if seen.length ≥ max then some ⟨seen, true⟩ else some ⟨seen ++ [now], false⟩

/-- A connection: its address and its time. -/
abbrev Connection (Address : Type) := SweepRule.Call Address Unit

/-- What a connection sees is what the sweep leaves. -/
theorem seen_connection (now : Nat) (entry : Option ConnRate) :
    (connRule max window).seen now () entry =
      entry.filter fun rate => rate.seen.any (inWindow window now) := by
  simp [SweepRule.seen, SweepRule.fresh, connRule]

/-- Noting a connection is a call of the rule. -/
theorem noteConnection_eq (rates : ConnRateMap Address) (ip : Address) (now : Nat) :
    noteConnection rates ip max window now =
      ((connRule max window).answerTo rates ⟨ip, now, ()⟩,
        (connRule max window).apply rates ⟨ip, now, ()⟩) := by
  simp only [SweepRule.answerTo, SweepRule.apply, seen_connection]
  rw [noteConnection]
  simp only [connRule]
  split <;> rfl

/-- An entry with nothing in the window has nothing in it later. -/
theorem connRule_lawful : (connRule max window).Lawful where
  lasting {now later rate} le gone := by
    simp only [connRule, inWindow, Bool.not_eq_true', List.any_eq_false, decide_eq_true_eq]
      at gone ⊢
    intro t member
    have := gone t member
    omega
  answer_fresh _ _ _ quiet := by cases quiet
  next_fresh _ _ _ quiet := by cases quiet

/-! ## A sliding window -/

/-- How many of some times are in the window before a time. -/
def inside (window now : Nat) (times : List Nat) : Nat :=
  (times.filter (inWindow window now)).length

/-- The connections of one address that a limit on every window admits. -/
def admitted (max window : Nat) (times : List Nat) : List Nat :=
  times.foldl (fun before now =>
    if inside window now before < max then before ++ [now] else before) []

/-- A connection after some others is admitted. -/
def Admits (max window : Nat) (times : List Nat) (now : Nat) : Prop :=
  inside window now (admitted max window times) < max

instance (times : List Nat) (now : Nat) : Decidable (Admits max window times now) := by
  unfold Admits
  infer_instance

theorem admitted_append (times : List Nat) (now : Nat) :
    admitted max window (times ++ [now]) =
      if Admits max window times now then admitted max window times ++ [now]
      else admitted max window times := by
  rw [admitted, List.foldl_append]
  rfl

/-- No window holds more admitted connections than the limit. -/
theorem admitted_window {times : List Nat} (ordered : times.Pairwise (· ≤ ·)) (start : Nat) :
    ((admitted max window times).filter fun t =>
      decide (start ≤ t) && decide (t < start + window)).length ≤ max := by
  induction times using List.reverseRecOn with
  | nil => exact Nat.zero_le max
  | append_singleton times now ih =>
    rw [List.pairwise_append] at ordered
    rw [admitted_append]
    split
    · rename_i admits
      by_cases here : start ≤ now ∧ now < start + window
      · -- Those in the window that starts here are in the window before the last.
        have counted : ((admitted max window times).filter fun t =>
            decide (start ≤ t) && decide (t < start + window)).length ≤
            inside window now (admitted max window times) := by
          refine (List.monotone_filter_right _ fun t inWin => ?_).length_le
          rw [Bool.and_eq_true, decide_eq_true_eq, decide_eq_true_eq] at inWin
          rw [inWindow, decide_eq_true_eq]
          omega
        rw [Admits] at admits
        rw [List.filter_append, List.length_append]
        have one : ([now].filter fun t =>
            decide (start ≤ t) && decide (t < start + window)).length ≤ 1 := List.length_filter_le _ _
        omega
      · rw [List.filter_append, List.filter_cons_of_neg (by simpa using here), List.filter_nil,
          List.append_nil]
        exact ih ordered.1
    · exact ih ordered.1

/-! ## The limit is a sliding window for each address -/

/-- The times an entry holds that are in the window. -/
def live (window now : Nat) (entry : Option ConnRate) : List Nat :=
  (entry.getD ⟨[], false⟩).seen.filter (inWindow window now)

/-- Sweeping drops no time that is in the window. -/
theorem live_seen (now : Nat) (entry : Option ConnRate) :
    live window now ((connRule max window).seen now () entry) = live window now entry := by
  rw [seen_connection]
  cases entry with
  | none => rfl
  | some rate =>
    by_cases kept : rate.seen.any (inWindow window now) = true
    · rw [Option.filter_some, if_pos kept]
    · rw [Option.filter_some, if_neg kept]
      rw [List.any_eq_true, not_exists] at kept
      exact (List.filter_eq_nil_iff.mpr fun t member inWin => kept t ⟨member, inWin⟩).symm

/-- What is left after a connection. -/
theorem next_eq (now : Nat) (entry : Option ConnRate) :
    (connRule max window).next now () ((connRule max window).seen now () entry) =
      if (live window now entry).length ≥ max then some ⟨live window now entry, true⟩
      else some ⟨live window now entry ++ [now], false⟩ := by
  rw [← live_seen]
  rfl

/-- The answer to a connection. -/
theorem answer_eq (now : Nat) (entry : Option ConnRate) :
    (connRule max window).answer now () ((connRule max window).seen now () entry) =
      ((live window now entry).length + 1,
        decide ((live window now entry).length ≥ max) &&
          !(((connRule max window).seen now () entry).getD ⟨[], false⟩).refusalLogged) := by
  rw [← @live_seen max]
  simp only [connRule, live]
  split <;> simp_all

/-- The entry of an address after its connections. -/
def ownEntry (max window : Nat) (times : List Nat) : Option ConnRate :=
  (connRule max window).own none (times.map fun t => (t, ()))

theorem ownEntry_append (times : List Nat) (now : Nat) :
    ownEntry max window (times ++ [now]) =
      if (live window now (ownEntry max window times)).length ≥ max then
        some ⟨live window now (ownEntry max window times), true⟩
      else some ⟨live window now (ownEntry max window times) ++ [now], false⟩ := by
  rw [← next_eq]
  simp [ownEntry, SweepRule.own]

/-- A time in the window is in that of an earlier question. -/
theorem inWindow_earlier {now later t : Nat} (le : now ≤ later)
    (inWin : inWindow window later t = true) : inWindow window now t = true := by
  rw [inWindow, decide_eq_true_eq] at inWin ⊢
  omega

/-- Of the times in a window those in a later one are those in the later one. -/
theorem filter_later (times : List Nat) {now later : Nat} (le : now ≤ later) :
    (times.filter (inWindow window now)).filter (inWindow window later) =
      times.filter (inWindow window later) := by
  rw [List.filter_filter]
  refine List.filter_congr fun t _ => ?_
  by_cases inWin : inWindow window later t = true
  · rw [inWin, inWindow_earlier le inWin]
    rfl
  · rw [Bool.not_eq_true] at inWin
    rw [inWin]
    rfl

/-- An entry holds the admitted connections that are in the window. -/
theorem live_ownEntry {times : List Nat} (ordered : times.Pairwise (· ≤ ·)) {now : Nat}
    (last : ∀ t ∈ times, t ≤ now) :
    live window now (ownEntry max window times) =
      (admitted max window times).filter (inWindow window now) := by
  induction times using List.reverseRecOn generalizing now with
  | nil => rfl
  | append_singleton times t ih =>
    rw [List.pairwise_append] at ordered
    have before (other : Nat) (member : other ∈ times) : other ≤ t :=
      ordered.2.2 other member t List.mem_cons_self
    have le : t ≤ now := last t (by simp)
    rw [ownEntry_append, admitted_append, ih ordered.1 before]
    by_cases admits : Admits max window times t
    · have short : ¬ ((admitted max window times).filter (inWindow window t)).length ≥ max := by
        rw [Admits, inside] at admits
        omega
      rw [if_pos admits, if_neg short]
      simp only [live, Option.getD_some]
      rw [List.filter_append, List.filter_append, filter_later _ le]
    · have long : ((admitted max window times).filter (inWindow window t)).length ≥ max := by
        rw [Admits, inside] at admits
        omega
      rw [if_neg admits, if_pos long]
      exact filter_later _ le

/-- An entry remembers whether the last connection was refused. -/
theorem ownEntry_flag {front : List Nat} {prev : Nat}
    (ordered : (front ++ [prev]).Pairwise (· ≤ ·)) :
    ∃ rate, ownEntry max window (front ++ [prev]) = some rate ∧
      (rate.refusalLogged = false ↔ Admits max window front prev) := by
  rw [List.pairwise_append] at ordered
  rw [ownEntry_append, live_ownEntry ordered.1 fun t member =>
    ordered.2.2 t member prev List.mem_cons_self]
  by_cases admits : Admits max window front prev
  · rw [Admits, inside] at admits
    rw [if_neg (by omega)]
    exact ⟨_, rfl, ⟨fun _ => admits, fun _ => rfl⟩⟩
  · rw [Admits, inside] at admits
    rw [if_pos (by omega)]
    exact ⟨_, rfl, ⟨fun same => (nomatch same), fun less => absurd less admits⟩⟩

/-- The times of the connections of an address. -/
def timesOf (ip : Address) (calls : List (Connection Address)) : List Nat :=
  (SweepRule.callsOf ip calls).map Prod.fst

/-- The times of an address grow. -/
theorem timesOf_ordered {calls : List (Connection Address)}
    (ordered : calls.Pairwise fun early late => early.now ≤ late.now) (ip : Address) :
    (timesOf ip calls).Pairwise (· ≤ ·) := by
  rw [timesOf, SweepRule.callsOf, List.map_map, List.pairwise_map]
  exact ordered.filter _

/-- The times of an address are those of its connections. -/
theorem timesOf_last {calls : List (Connection Address)} {ip : Address} {now : Nat}
    (last : ∀ call ∈ calls, call.now ≤ now) : ∀ t ∈ timesOf ip calls, t ≤ now := by
  intro t member
  rw [timesOf, SweepRule.callsOf, List.map_map, List.mem_map] at member
  obtain ⟨call, listed, rfl⟩ := member
  exact last call (List.mem_of_mem_filter listed)

/-- What a sweep leaves was there, and has a connection in the window. -/
theorem seen_some {entry : Option ConnRate} {now : Nat} {rate : ConnRate}
    (held : (connRule max window).seen now () entry = some rate) :
    entry = some rate ∧ ∃ t ∈ rate.seen, now - t < window := by
  rw [seen_connection, Option.filter_eq_some_iff, List.any_eq_true] at held
  obtain ⟨same, t, member, inWin⟩ := held
  exact ⟨same, t, member, of_decide_eq_true inWin⟩

/-- A connection leaves an entry within the limit if it was. -/
theorem next_bounded {entry : Option ConnRate} {now : Nat} {rate : ConnRate}
    (before : ∀ rate, entry = some rate → rate.seen.length ≤ max)
    (held : (connRule max window).next now () ((connRule max window).seen now () entry) =
      some rate) : rate.seen.length ≤ max := by
  rw [next_eq] at held
  split at held
  · cases held
    cases entry with
    | none => exact Nat.zero_le max
    | some rate => exact (List.length_filter_le _ _).trans (before rate rfl)
  · rename_i short
    cases held
    rw [List.length_append, List.length_singleton]
    omega

/-- Entries stay within the limit. -/
theorem after_bounded (calls : List (Connection Address)) {ip : Address} {rate : ConnRate}
    (held : (connRule max window).after (fun _ => none) calls ip = some rate) :
    rate.seen.length ≤ max := by
  induction calls using List.reverseRecOn generalizing ip rate with
  | nil => cases held
  | append_singleton calls call ih =>
    rw [SweepRule.after, List.foldl_append, List.foldl_cons, List.foldl_nil, SweepRule.apply]
      at held
    by_cases mine : ip = call.key
    · subst mine
      rw [Function.update_self] at held
      exact next_bounded (fun rate before => ih before) held
    · rw [Function.update_of_ne mine] at held
      exact ih (seen_some held).1

/-- An entry with a time in the window is not swept. -/
theorem seen_live {rate : ConnRate} {now : Nat} (recent : live window now (some rate) ≠ []) :
    (connRule max window).seen now () (some rate) = some rate := by
  obtain ⟨t, member⟩ := List.exists_mem_of_ne_nil _ recent
  obtain ⟨listed, inWin⟩ := List.mem_filter.mp member
  have kept : rate.seen.any (inWindow window now) = true :=
    List.any_eq_true.mpr ⟨t, listed, inWin⟩
  rw [seen_connection, Option.filter_some, if_pos kept]

/-- A refusal of an address is to be logged exactly when the connection before was admitted. -/
theorem logged_iff (positive : 0 < max) {times : List Nat} (ordered : times.Pairwise (· ≤ ·))
    {now : Nat} (last : ∀ t ∈ times, t ≤ now) :
    (¬ Admits max window times now ∧ (((connRule max window).seen now ()
      (ownEntry max window times)).getD ⟨[], false⟩).refusalLogged = false) ↔
    ¬ Admits max window times now ∧
      ∃ front prev, times = front ++ [prev] ∧ Admits max window front prev := by
  refine and_congr_right fun refused => ?_
  have held := @live_ownEntry max window _ ordered now last
  have recent : (admitted max window times).filter (inWindow window now) ≠ [] := by
    intro none
    rw [Admits, inside, none] at refused
    exact refused positive
  rcases List.eq_nil_or_concat times with rfl | ⟨front, prev, rfl⟩
  · exact absurd rfl recent
  · rw [List.concat_eq_append] at ordered held recent ⊢
    obtain ⟨rate, entry, flag⟩ := @ownEntry_flag max window _ _ ordered
    rw [entry] at held ⊢
    rw [seen_live (held ▸ recent), Option.getD_some, flag]
    constructor
    · intro admits
      exact ⟨front, prev, rfl, admits⟩
    · rintro ⟨front', prev', same, admits⟩
      obtain ⟨rfl, rfl⟩ := List.append_singleton_inj.mp same
      exact admits

/-- An address has the entry its own connections leave. -/
theorem own_timesOf (ip : Address) (calls : List (Connection Address)) :
    (connRule max window).own none (SweepRule.callsOf ip calls) =
      ownEntry max window (timesOf ip calls) := by
  rw [ownEntry, timesOf, List.map_map]
  congr 1
  exact (List.map_id _).symm

/-- Connections of any addresses, at growing times, under a limit. A connection is refused exactly
when the admitted connections of its address in the window before it reach the limit, whatever other
addresses do; so no window holds more. A refusal is logged exactly when the connection of the
address before it was admitted. The map holds no more times for an address than the limit, and only
addresses with a connection in the window but for the one that connects. -/
theorem connections_limited (positive : 0 < max) (calls : List (Connection Address))
    (ordered : calls.Pairwise fun early late => early.now ≤ late.now) (ip : Address) {now : Nat}
    (last : ∀ call ∈ calls, call.now ≤ now) :
    (overRateLimit ((connRule max window).after (fun _ => none) calls) ip max window now = true ↔
      ¬ Admits max window (timesOf ip calls) now) ∧
    (∀ start, ((admitted max window (timesOf ip calls)).filter fun t =>
      decide (start ≤ t) && decide (t < start + window)).length ≤ max) ∧
    ((noteConnection ((connRule max window).after (fun _ => none) calls) ip max window now).1.2 =
      true ↔ ¬ Admits max window (timesOf ip calls) now ∧
        ∃ front prev, timesOf ip calls = front ++ [prev] ∧ Admits max window front prev) ∧
    ∀ other rate, (noteConnection ((connRule max window).after (fun _ => none) calls) ip max
      window now).2 other = some rate → rate.seen.length ≤ max ∧
        (other ≠ ip → ∃ t ∈ rate.seen, now - t < window) := by
  have own := (@connRule_lawful max window).answerTo_own calls ordered ⟨ip, now, ()⟩ last
  rw [own_timesOf] at own
  rw [answer_eq] at own
  have times := @timesOf_last _ _ calls ip now last
  have held := @live_ownEntry max window _ (timesOf_ordered ordered ip) now times
  have answered : (noteConnection ((connRule max window).after (fun _ => none) calls) ip max window
      now).1 = _ := (congrArg Prod.fst (noteConnection_eq _ ip now)).trans own
  rw [held] at answered
  have refused : ((admitted max window (timesOf ip calls)).filter (inWindow window now)).length ≥
      max ↔ ¬ Admits max window (timesOf ip calls) now := by
    rw [Admits, inside, Nat.not_lt]
  refine ⟨?_, admitted_window (timesOf_ordered ordered ip), ?_, fun other rate entry => ?_⟩
  · rw [overRateLimit, answered, ← refused]
    simp only [Bool.and_eq_true, decide_eq_true_eq]
    omega
  · rw [answered, ← logged_iff positive (timesOf_ordered ordered ip) times, ← refused]
    simp only [Bool.and_eq_true, decide_eq_true_eq, Bool.not_eq_true']
  · rw [noteConnection_eq, SweepRule.apply] at entry
    simp only at entry
    by_cases mine : other = ip
    · subst mine
      rw [Function.update_self] at entry
      exact ⟨next_bounded (fun rate before => after_bounded calls before) entry,
        fun differ => absurd rfl differ⟩
    · rw [Function.update_of_ne mine] at entry
      obtain ⟨before, recent⟩ := seen_some entry
      exact ⟨after_bounded calls before, fun _ => recent⟩

/-- The theorem at work: the third connection in a second, of a limit of two, is refused. -/
theorem connections_limited_third :
    overRateLimit ((connRule 2 1000).after (fun _ => none) [⟨7, 0, ()⟩, ⟨7, 10, ()⟩]) 7 2 1000 20 =
      true :=
  (connections_limited (by decide) [⟨7, 0, ()⟩, ⟨7, 10, ()⟩] (by simp) 7 (by simp)).1.mpr
    (by decide)

end EthernetGateway.Access
