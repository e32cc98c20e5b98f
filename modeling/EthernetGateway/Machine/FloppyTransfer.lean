import EthernetGateway.Machine.FloppyFlight

/-!
# A transfer keeps moving

A chip that is busy has a byte to give or takes one, and every byte that moves brings the end of
the transfer nearer. What the board and the machine do between two accesses of the guest hands the
chip the sector it needs, or ends its command.
-/

namespace EthernetGateway.Machine

open Wd1771 (Reg Kind Move)

namespace Wd1771

/-! ## The chip -/

/-- How a record ends: the command is over, or the chip goes on to the next record of the track. -/
theorem advanceRecord_cases (chip : Wd1771) :
    (chip.advanceRecord.1 = .none ∧ chip.advanceRecord.2.busy = false ∧
        chip.advanceRecord.2.moving = .none ∧ chip.advanceRecord.2.intrq = true ∧
        (chip.multi → chip.sectorsPerTrack ≤ chip.sector.toNat ∨ chip.sector = 255) ∧
        (chip.multi → chip.advanceRecord.2.error = chip.error ||| recordNotFound)) ∨
      chip.multi ∧ chip.sector.toNat + 1 ≤ chip.sectorsPerTrack ∧
        (chip.sector + 1).toNat = chip.sector.toNat + 1 ∧
        (chip.cmd &&& 0x20 ≠ 0 ∧ chip.advanceRecord =
            (.none, { chip with sector := chip.sector + 1, pos := 0, moving := .writing, drq := true }) ∨
          chip.cmd &&& 0x20 = 0 ∧ chip.advanceRecord =
            (.read chip.track (chip.sector + 1),
              { chip with sector := chip.sector + 1, pos := 0, moving := .none, drq := false })) := by
  have bound := chip.sector.toNat_lt
  unfold advanceRecord
  cases multi : chip.multi with
  | false =>
    simp only [Bool.false_eq_true, not_false_eq_true, if_true]
    exact .inl ⟨trivial, rfl, rfl, rfl, nofun, nofun⟩
  | true =>
    simp only [not_true_eq_false, if_false]
    split_ifs with last writes
    · refine .inl ⟨rfl, rfl, rfl, rfl, fun _ => ?_, fun _ => rfl⟩
      by_cases top : chip.sector = 255
      · exact .inr top
      · have next : (chip.sector + 1).toNat = chip.sector.toNat + 1 := by
          rw [UInt8.toNat_add, UInt8.toNat_one]
          have other : chip.sector.toNat ≠ 255 := fun same => top (UInt8.toNat_inj.1 same)
          omega
        rcases last with zero | beyond
        · rw [zero] at next
          exact absurd next (by simp)
        · exact .inl (by omega)
    all_goals
      obtain ⟨zero, inside⟩ := not_or.1 last
      have next : (chip.sector + 1).toNat = chip.sector.toNat + 1 := by
        rw [UInt8.toNat_add, UInt8.toNat_one]
        refine Nat.mod_eq_of_lt (Nat.lt_of_le_of_ne (by omega) fun full => zero ?_)
        apply UInt8.toNat_inj.1
        rw [UInt8.toNat_add, UInt8.toNat_one, full]
        rfl
      refine .inr ⟨trivial, by omega, next, ?_⟩
    · exact .inl ⟨writes, rfl⟩
    · exact .inr ⟨not_not.1 writes, rfl⟩

/-- A busy chip waits for the guest to move a byte, and is not at the end of its transfer. -/
structure Live (chip : Wd1771) : Prop extends chip.Sound where
  waits : chip.busy → chip.drq ∧ chip.moving ≠ .none
  within : chip.moving ≠ .none → chip.pos < chip.xferLen
  whole : chip.busy → chip.xferLen = chip.sectorLen

/-- The bytes of the records a command asks for behind the one it is at. -/
def behind (chip : Wd1771) : Nat :=
  if chip.multi then (chip.sectorsPerTrack - chip.sector.toNat) * chip.sectorLen else 0

/-- The bytes a transfer can still move. -/
def remaining (chip : Wd1771) : Nat := chip.xferLen - chip.pos + chip.behind

/-- A chip with nothing to transfer, and not busy, is live. -/
theorem live_of_rest {chip : Wd1771} (busy : chip.busy = false) (rest : chip.moving = .none) :
    chip.Live where
  toSound := (sound_of_none rest).2
  waits is := by simp [busy] at is
  within moving := absurd rest moving
  whole is := by simp [busy] at is

/-- What a chip is, once the board and the machine have done what it needed. -/
def Settles (need : Need) (next after : Wd1771) : Prop :=
  match need with
  | .none => after = next
  | .read _ _ => after = next.recordMissing ∨ ∃ bytes, after = next.sectorLoaded bytes
  | .write _ _ => after = next ∨ after = next.recordMissing

/-- A transfer goes on: it was in progress, in the same format, and is so many bytes on. -/
def Continues (chip after : Wd1771) (moved : Nat) : Prop :=
  chip.busy = true ∧ chip.SameFormat after ∧ after.remaining + moved ≤ chip.remaining

/-- A chip of the same transfer is as live. -/
theorem Live.of_transfer {chip next : Wd1771} (live : chip.Live)
    (same : next.transfer = chip.transfer) (drq : next.drq = chip.drq) : next.Live where
  toSound := live.toSound.of_transfer same
  waits := by
    have busy := congrArg Transfer.busy same
    have moving := congrArg Transfer.moving same
    simp only [transfer] at busy moving
    rw [busy, moving, drq]
    exact live.waits
  within := by
    have moving := congrArg Transfer.moving same
    have pos := congrArg Transfer.pos same
    have xferLen := congrArg Transfer.xferLen same
    simp only [transfer] at moving pos xferLen
    rw [moving, pos, xferLen]
    exact live.within
  whole := by
    have busy := congrArg Transfer.busy same
    have xferLen := congrArg Transfer.xferLen same
    have sectorLen := congrArg Transfer.sectorLen same
    simp only [transfer] at busy xferLen sectorLen
    rw [busy, xferLen, sectorLen]
    exact live.whole

/-- A chip of the same transfer, at the same sector, goes on with it. -/
theorem continues_of_transfer {chip next : Wd1771} (same : next.transfer = chip.transfer)
    (sector : next.sector = chip.sector) (busy : next.busy = true) : chip.Continues next 0 := by
  simp only [transfer, Transfer.mk.injEq] at same
  obtain ⟨-, sectorLen, count, xferLen, wasBusy, -, pos, -, multi⟩ := same
  refine ⟨wasBusy ▸ busy, ⟨sectorLen, count⟩, ?_⟩
  simp only [remaining, behind, sectorLen, count, xferLen, pos, multi, sector, Nat.add_zero, Nat.le_refl]

/-- A chip handed a sector is live, and has the sector and the rest of its command to give. -/
theorem sectorLoaded_live {chip : Wd1771} (reads : chip.multi → chip.cmd &&& 0x20 = 0)
    (some : 0 < chip.sectorLen) (bytes : List UInt8) : (chip.sectorLoaded bytes).Live where
  toSound := sectorLoaded_sound reads bytes
  waits _ := ⟨rfl, by simp [sectorLoaded]⟩
  within _ := some
  whole _ := rfl

/-- What the next record adds to what is left was counted before. -/
theorem remaining_next {count sector len : Nat} (more : sector + 1 ≤ count) :
    len + (count - (sector + 1)) * len = (count - sector) * len := by
  have split : count - sector = count - (sector + 1) + 1 := by omega
  rw [split, Nat.succ_mul, Nat.add_comm]

/-- A byte more is a byte less to move. -/
theorem remaining_byte {chip : Wd1771} (data : UInt8) (drq : Bool) (buffer : Nat → UInt8)
    (more : chip.pos < chip.xferLen) :
    ({ chip with data, drq, buffer, pos := chip.pos + 1 } : Wd1771).remaining + 1 =
      chip.remaining := by
  show chip.xferLen - (chip.pos + 1) + chip.behind + 1 = chip.xferLen - chip.pos + chip.behind
  omega

/-- A chip that gives bytes is as sound wherever it is in its sector. -/
theorem Sound.given {chip : Wd1771} (sound : chip.Sound) (reading : chip.moving = .reading)
    (data : UInt8) (pos : Nat) (drq : Bool) : ({ chip with data, pos, drq } : Wd1771).Sound := by
  constructor
  case reading => exact sound.reading
  all_goals
    intro writing
    exact absurd (reading.symm.trans writing) (by decide)

/-- A chip with one byte less of its sector to give. -/
def given (chip : Wd1771) : Wd1771 :=
  { chip with data := chip.buffer chip.pos, pos := chip.pos + 1, drq := true }

/-- A chip that has given a sector, and needs the next one. -/
def sought (chip : Wd1771) : Wd1771 :=
  { chip with
    data := chip.buffer chip.pos, sector := chip.sector + 1, pos := 0, moving := .none, drq := false }

/-- What reading the data register of a chip with bytes to give comes to. -/
theorem readData_cases {chip : Wd1771} (live : chip.Live) (reading : chip.moving = .reading) :
    chip.pos + 1 < chip.xferLen ∧ chip.readData = ((chip.buffer chip.pos, .none), chip.given) ∨
      chip.pos + 1 = chip.xferLen ∧ chip.multi ∧ chip.cmd &&& 0x20 = 0 ∧
        chip.sector.toNat + 1 ≤ chip.sectorsPerTrack ∧
        (chip.sector + 1).toNat = chip.sector.toNat + 1 ∧
        chip.readData =
          ((chip.buffer chip.pos, .read chip.track (chip.sector + 1)), chip.sought) ∨
      chip.pos + 1 = chip.xferLen ∧
        (chip.multi → chip.sectorsPerTrack ≤ chip.sector.toNat ∨ chip.sector = 255) ∧
        ∃ after, chip.readData = ((chip.buffer chip.pos, .none), after) ∧ after.busy = false ∧
          after.moving = .none ∧ after.intrq = true ∧
          (chip.multi → after.error = chip.error ||| recordNotFound) := by
  have within := live.within (by rw [reading]; decide)
  have cursor : chip.cursor = chip.pos := by
    unfold Wd1771.cursor
    omega
  unfold readData
  rw [if_pos reading]
  dsimp only
  rw [cursor]
  split_ifs with last
  · have full : chip.pos + 1 = chip.xferLen := by omega
    rcases advanceRecord_cases { chip with pos := chip.pos + 1 } with
      ⟨need, busy, moving, intrq, ended, error⟩ | ⟨multi, more, next, ⟨writes, -⟩ | ⟨reads, out⟩⟩
    · rw [need]
      exact .inr (.inr ⟨full, ended, _, rfl, busy, moving, intrq, error⟩)
    · exact absurd (live.reading reading multi) writes
    · rw [out]
      exact .inr (.inl ⟨full, multi, reads, more, next, rfl⟩)
  · exact .inl ⟨by omega, rfl⟩

/-- Reading the data register of a chip with bytes to give moves one. -/
theorem readData_live {chip after : Wd1771} (live : chip.Live) (some : 0 < chip.sectorLen)
    (reading : chip.moving = .reading) (settles : Settles chip.readData.1.2 chip.readData.2 after) :
    after.Live ∧ (after.busy = true → chip.Continues after 1) := by
  rcases readData_cases live reading with
    ⟨more, out⟩ | ⟨last, multi, reads, more, next, out⟩ | ⟨-, -, ended, out, busy, moving, -⟩
  · rw [out] at settles
    subst settles
    refine ⟨?_, fun busy => ⟨busy, ⟨rfl, rfl⟩, ?_⟩⟩
    · constructor
      case toSound => exact live.toSound.given reading _ _ _
      case waits => exact fun busy => ⟨rfl, (live.waits busy).2⟩
      case within => exact fun _ => more
      case whole => exact live.whole
    · exact Nat.le_of_eq (remaining_byte (chip.buffer chip.pos) true chip.buffer (by omega))
  · rw [out] at settles
    rcases settles with rfl | ⟨bytes, rfl⟩
    · exact ⟨live_of_rest rfl rfl, fun is => by simp [recordMissing] at is⟩
    · refine ⟨@sectorLoaded_live chip.sought (fun _ => reads) some bytes, fun busy => ⟨busy, ⟨rfl, rfl⟩, ?_⟩⟩
      have sum := @remaining_next chip.sectorsPerTrack chip.sector.toNat chip.sectorLen more
      simp only [remaining, behind, sectorLoaded, sought, multi, if_true, next, Nat.sub_zero]
      omega
  · rw [out] at settles
    subst settles
    exact ⟨live_of_rest busy moving, fun is => by simp [busy] at is⟩

/-- Writing the data register of a chip that collects bytes moves one. -/
theorem writeData_live {chip after : Wd1771} (live : chip.Live)
    (writing : chip.moving = .writing) {value : UInt8}
    (settles : Settles (chip.writeData value).1 (chip.writeData value).2 after) :
    after.Live ∧ (after.busy = true → chip.Continues after 1) := by
  have busy := live.busy writing
  have inside := live.inside writing
  have commanded := live.commanded writing
  rcases Nat.lt_or_ge (chip.pos + 1) chip.xferLen with more | full
  · rw [writeData_more writing more] at settles
    subst settles
    refine ⟨?_, fun _ => ⟨busy, ⟨rfl, rfl⟩, ?_⟩⟩
    · constructor
      case toSound => exact ⟨fun _ => busy, fun _ => more, live.length, live.commanded, live.reading⟩
      case waits => exact fun _ => ⟨rfl, (live.waits busy).2⟩
      case within => exact fun _ => more
      case whole => exact live.whole
    · exact Nat.le_of_eq (remaining_byte value true _ (by omega))
  · rw [writeData_last writing (Nat.le_antisymm inside full)] at settles
    have missing : ∀ next : Wd1771, next.recordMissing.Live ∧
        (next.recordMissing.busy = true → chip.Continues next.recordMissing 1) := by
      intro next
      exact ⟨live_of_rest rfl rfl, fun is => by simp [recordMissing] at is⟩
    rcases advanceRecord_cases (chip.taken value) with
      ⟨-, ended, moving, -⟩ | ⟨multi, more, next, ⟨writes, out⟩ | ⟨reads, -⟩⟩
    · rcases settles with rfl | rfl
      · exact ⟨live_of_rest ended moving, fun is => by simp [ended] at is⟩
      · exact missing _
    · rw [out] at settles
      rcases settles with rfl | rfl
      · have whole : chip.xferLen = chip.sectorLen := live.length writing
        have room : 0 < chip.xferLen := Nat.zero_lt_of_lt inside
        refine ⟨?_, fun _ => ⟨busy, ⟨rfl, rfl⟩, ?_⟩⟩
        · constructor
          case toSound =>
            exact ⟨fun _ => busy, fun _ => room, fun _ => whole, fun _ => commanded, nofun⟩
          case waits => exact fun _ => ⟨rfl, by simp⟩
          case within => exact fun _ => room
          case whole => exact live.whole
        · simp only [taken] at multi more next
          have sum := @remaining_next chip.sectorsPerTrack chip.sector.toNat chip.sectorLen more
          simp only [remaining, behind, taken, multi, if_true, next, Nat.sub_zero]
          omega
      · exact missing _
    · exact absurd reads commanded

/-- An access of the guest that moves a byte of the transfer in progress. -/
def MovesByte (chip : Wd1771) (reg : Reg) (way : Move) : Prop :=
  reg = .data ∧ chip.busy = true ∧ chip.moving = way

instance (chip : Wd1771) (reg : Reg) (way : Move) : Decidable (chip.MovesByte reg way) :=
  inferInstanceAs (Decidable (_ ∧ _ ∧ _))

/-- Reading a register keeps a chip live, and a transfer that goes on is a byte on if the read moved
one. -/
theorem read_live {chip after : Wd1771} (live : chip.Live) (some : 0 < chip.sectorLen) {reg : Reg}
    (settles : Settles (chip.read reg).1.2 (chip.read reg).2 after) :
    after.Live ∧ (after.busy = true →
      chip.Continues after (if chip.MovesByte reg .reading then 1 else 0)) := by
  have quiet : ∀ next, after = next → next.transfer = chip.transfer → next.drq = chip.drq →
      next.sector = chip.sector → reg ≠ .data ∨ chip.moving ≠ .reading →
      after.Live ∧ (after.busy = true →
        chip.Continues after (if chip.MovesByte reg .reading then 1 else 0)) := by
    rintro next rfl same drq sector other
    refine ⟨live.of_transfer same drq, fun busy => ?_⟩
    rw [if_neg fun moves => other.elim (· moves.1) (· moves.2.2)]
    exact continues_of_transfer same sector busy
  cases reg with
  | command => exact quiet _ settles rfl rfl rfl (.inl (by decide))
  | track => exact quiet _ settles rfl rfl rfl (.inl (by decide))
  | sector => exact quiet _ settles rfl rfl rfl (.inl (by decide))
  | data =>
    by_cases reading : chip.moving = .reading
    · obtain ⟨live', moved⟩ := readData_live live some reading settles
      refine ⟨live', fun busy => ?_⟩
      have goes := moved busy
      rw [if_pos ⟨rfl, goes.1, reading⟩]
      exact goes
    · simp only [read, readData, if_neg reading] at settles
      exact quiet _ settles rfl rfl rfl (.inr reading)

/-- Writing a register other than the command and sector registers keeps a chip live, and a transfer
that goes on is a byte on if the write moved one. -/
theorem write_live {chip after : Wd1771} (live : chip.Live)
    {value : UInt8} {reg : Reg} (command : reg ≠ .command)
    (settles : Settles (chip.write value reg).1 (chip.write value reg).2 after) :
    after.Live ∧ (after.busy = true → reg ≠ .sector →
      chip.Continues after (if chip.MovesByte reg .writing then 1 else 0)) := by
  have quiet : ∀ next, after = next → next.transfer = chip.transfer → next.drq = chip.drq →
      (reg ≠ .sector → next.sector = chip.sector) → reg ≠ .data ∨ chip.moving ≠ .writing →
      after.Live ∧ (after.busy = true → reg ≠ .sector →
        chip.Continues after (if chip.MovesByte reg .writing then 1 else 0)) := by
    rintro next rfl same drq sector other
    refine ⟨live.of_transfer same drq, fun busy isOther => ?_⟩
    rw [if_neg fun moves => other.elim (· moves.1) (· moves.2.2)]
    exact continues_of_transfer same (sector isOther) busy
  cases reg with
  | command => exact absurd rfl command
  | track => exact quiet _ settles rfl rfl (fun _ => rfl) (.inl (by decide))
  | sector => exact quiet _ settles rfl rfl (fun other => absurd rfl other) (.inl (by decide))
  | data =>
    by_cases writing : chip.moving = .writing
    · obtain ⟨live', moved⟩ := writeData_live live writing settles
      refine ⟨live', fun busy _ => ?_⟩
      have goes := moved busy
      rw [if_pos ⟨rfl, goes.1, writing⟩]
      exact goes
    · simp only [write, writeData_rest writing] at settles
      exact quiet _ settles rfl rfl (fun _ => rfl) (.inr writing)

/-- What a command leaves: a chip that is over with it, and says so unless it was told not to, or
one with at most the bytes of a track to move. -/
structure Started (value : UInt8) (after : Wd1771) : Prop where
  live : after.Live
  ended : after.busy = false → after.intrq = true ∨ Kind.of value = .four ∧ value &&& 0x08 = 0
  forced : Kind.of value = .four → after.busy = false
  track : after.busy = true → after.remaining ≤ after.sectorsPerTrack * after.sectorLen

/-- A command that is over. -/
theorem started_of_rest {value : UInt8} {after : Wd1771} (live : after.Live)
    (busy : after.busy = false) (intrq : after.intrq = true) : Started value after :=
  ⟨live, fun _ => .inl intrq, fun _ => busy, fun is => by simp [busy] at is⟩

/-- The records of a track, from one of them on. -/
theorem track_bytes {count sector len : Nat} (first : sector ≠ 0) (inside : sector ≤ count)
    (multi : Bool) : len + (if multi then (count - sector) * len else 0) ≤ count * len := by
  have one : len + (count - sector) * len = (count - sector + 1) * len := by ring
  have most : (count - sector + 1) * len ≤ count * len := Nat.mul_le_mul_right _ (by omega)
  split
  · omega
  · have least : 1 * len ≤ (count - sector + 1) * len := Nat.mul_le_mul_right _ (by omega)
    omega

/-- Read Sector and Write Sector. -/
theorem commandTwo_started {chip after : Wd1771} {value : UInt8} (two : Kind.of value = .two)
    (some : 0 < chip.sectorLen) (moving : chip.moving = .none)
    (cmd : chip.cmd = value)
    (settles : Settles (chip.commandTwo value).1 (chip.commandTwo value).2 after) :
    Started value after := by
  have other : Kind.of value ≠ .four := by rw [two]; decide
  unfold commandTwo at settles
  dsimp only at settles
  have done : chip.finish.Live := live_of_rest rfl moving
  have failed : ∀ error, (chip.finishWith error).Live := fun _ => live_of_rest rfl moving
  split at settles
  · subst settles
    exact started_of_rest done rfl rfl
  split at settles
  · subst settles
    exact started_of_rest (failed _) rfl rfl
  split at settles
  · subst settles
    exact started_of_rest (failed _) rfl rfl
  rename_i present
  obtain ⟨zero, inside⟩ := not_or.1 present
  have first : chip.sector.toNat ≠ 0 := by
    intro same
    exact zero (UInt8.toNat_inj.1 same)
  have most := @track_bytes chip.sectorsPerTrack chip.sector.toNat chip.sectorLen first
    (Nat.not_lt.1 inside) (decide (value &&& 0x10 ≠ 0))
  split at settles
  · rename_i writes
    subst settles
    constructor
    · constructor
      case toSound =>
        exact ⟨fun _ => rfl, fun _ => some, fun _ => rfl, fun _ => cmd ▸ writes, nofun⟩
      case waits => exact fun _ => ⟨rfl, by simp⟩
      case within => exact fun _ => some
      case whole => exact fun _ => rfl
    · exact nofun
    · exact fun four => absurd four other
    · exact fun _ => most
  · rename_i reads
    have commanded : chip.cmd &&& 0x20 = 0 := cmd ▸ not_not.1 reads
    rcases settles with rfl | ⟨bytes, rfl⟩
    · exact started_of_rest (live_of_rest rfl rfl) rfl rfl
    · constructor
      · refine sectorLoaded_live (fun _ => ?_) ?_ bytes
        · exact commanded
        · exact some
      · exact nofun
      · exact fun four => absurd four other
      · exact fun _ => most

/-- Every command leaves the chip over with it, or with a transfer that waits for the guest. -/
theorem command_started {chip after : Wd1771} (some : 0 < chip.sectorLen) {value : UInt8}
    (settles : Settles (chip.command value).1 (chip.command value).2 after) :
    Started value after := by
  unfold command at settles
  cases kind : Kind.of value with
  | four =>
    simp only [kind] at settles
    subst settles
    constructor
    · exact live_of_rest rfl rfl
    · intro _
      by_cases immediate : value &&& 0x08 = 0
      · exact .inr ⟨kind, immediate⟩
      · exact .inl (by simp [forceInterrupt, immediate])
    · exact fun _ => rfl
    · exact nofun
  | one =>
    simp only [kind] at settles
    subst settles
    have moved := seek_moving { chip.superseded value with
      headLoaded := (chip.superseded value).headLoaded || decide (value &&& 0x08 ≠ 0) } value
    unfold commandOne
    dsimp only
    split
    · exact started_of_rest (live_of_rest rfl moved) rfl rfl
    · exact started_of_rest (live_of_rest rfl moved) rfl rfl
  | two =>
    simp only [kind] at settles
    exact @commandTwo_started (chip.superseded value) _ _ kind some rfl rfl settles
  | three =>
    simp only [kind] at settles
    subst settles
    have sound := (@commandThree_rest (chip.superseded value) rfl rfl value).2
    unfold commandThree at sound ⊢
    split at sound
    · rename_i empty
      rw [if_pos empty]
      exact started_of_rest (live_of_rest rfl rfl) rfl rfl
    · rename_i ready
      rw [if_neg ready]
      split at sound
      · rename_i address
        rw [if_pos address]
        refine started_of_rest ?_ rfl rfl
        constructor
        case toSound => exact sound
        case waits => exact nofun
        case within => exact fun _ => Nat.zero_lt_succ 5
        case whole => exact nofun
      · rename_i other
        rw [if_neg other]
        exact started_of_rest (live_of_rest rfl rfl) rfl rfl

end Wd1771

/-! ## The board and the machine -/

section Boards

variable {β : Type} [FloppyBoard β]

open FloppyBoard (chip trackAt register latched drive side)

/-- The drive and the side a board serves: those of the command in progress, or those selected. -/
def heldOn (board : β) : Nat × Nat := (latched board).getD (drive board, side board)

/-- Exactly what a board asks of the machine for what its chip needs, on a drive and a side. -/
def Serves (board : β) (held : Nat × Nat) (need : Need) (next : Wd1771) (request : HostRequest)
    (after : β) : Prop :=
  match need with
  | .none => request = .none ∧ chip after = next
  | .read track sector =>
    (sectorPlace board held.1 held.2 track sector).elim
      (request = .none ∧ chip after = next.recordMissing) fun place =>
        (request = .read held.1 place.1 place.2 ∨ request = .readAhead held.1 place.1 place.2) ∧
          chip after = next
  | .write track sector =>
    (sectorPlace board held.1 held.2 track sector).elim
      (request = .none ∧ chip after = next.recordMissing) fun place =>
        request = .write held.1 place.1 place.2 ∧ chip after = next

/-- Only the chip of the board after counts. -/
theorem Serves.of_chip {board after other : β} {held : Nat × Nat} {need : Need} {next : Wd1771}
    {request : HostRequest} (serves : Serves board held need next request after)
    (same : chip other = chip after) : Serves board held need next request other := by
  unfold Serves at serves ⊢
  rwa [same]

/-- What a board does for its chip, given what it knows of the drives with an image. -/
structure Serving (Valid : β → Prop) (Holds : β → Nat → Nat → Prop) : Prop where
  recorded : ∀ board, Valid board → 0 < (chip board).sectorLen
  input : ∀ (board : β) port reg, register β port = some reg →
    let out := (chip board).read reg
    let done := Controller.portIn board port
    done.1.1 = out.1.1 ∧ Serves board (heldOn board) out.1.2 out.2 done.1.2 done.2
  output : ∀ (board : β) port value reg, register β port = some reg → reg ≠ .command →
    let out := (chip board).write value reg
    let done := Controller.portOut board port value
    Serves board (heldOn board) out.1 out.2 done.1 done.2
  command : ∀ (board : β) port value, register β port = some .command → Valid board →
    ∃ told : Wd1771,
      let out := told.command value
      let done := Controller.portOut board port value
      told.track = (chip board).track ∧ told.sector = (chip board).sector ∧ 0 < told.sectorLen ∧
      (∀ length, Holds board (drive board) length → told.ready = true) ∧
      (∀ format, trackAt board (drive board) (side board) told.track = some format →
        told.sectorLen = format.len ∧ told.sectorsPerTrack = format.count) ∧
      Serves board (drive board, side board) out.1 out.2 done.1 done.2
  fits : ∀ (board : β) drive side track length format, Holds board drive length →
    trackAt board drive side track = some format →
      format.start + format.count * format.len ≤ length ∧ 0 < format.len ∧ format.count < 256
  kept : ∀ (board : β), (∀ port, Holds (Controller.portIn board port).2 = Holds board) ∧
    (∀ port value, Holds (Controller.portOut board port value).2 = Holds board) ∧
    ∀ drive bytes, Holds (Controller.bufferLoaded board drive bytes) = Holds board

/-- The machine settles what the chip needed. -/
theorem served_settles {Valid : β → Prop} (laws : Lawful Valid) (machine : BootMachine β)
    {board after : β} {held : Nat × Nat} {need : Need} {next : Wd1771} {request : HostRequest}
    (valid : Valid after) (serves : Serves board held need next request after) :
    Wd1771.Settles need next
      (chip ({ machine with board := after }.service request).board) := by
  cases need with
  | none =>
    obtain ⟨rfl, same⟩ := serves
    exact same
  | read track sector =>
    simp only [Serves] at serves
    cases located : sectorPlace board held.1 held.2 track sector with
    | none =>
      rw [located] at serves
      obtain ⟨rfl, same⟩ := serves
      exact .inl same
    | some place =>
      rw [located] at serves
      obtain ⟨asks, same⟩ := serves
      have loaded := laws.loaded after held.1
        (((machine.disks held.1).bind fun image => image.get place.1 place.2).getD
          (List.replicate place.2 0xE5)) valid
      rcases asks with rfl | rfl
      · exact .inr ⟨_, loaded.2.1.trans (congrArg (Wd1771.sectorLoaded · _) same)⟩
      · exact .inr ⟨_, loaded.2.1.trans (congrArg (Wd1771.sectorLoaded · _) same)⟩
  | write track sector =>
    simp only [Serves] at serves
    cases located : sectorPlace board held.1 held.2 track sector with
    | none =>
      rw [located] at serves
      obtain ⟨rfl, same⟩ := serves
      exact .inr same
    | some place =>
      rw [located] at serves
      obtain ⟨rfl, same⟩ := serves
      exact .inl ((congrArg chip ({ machine with board := after }.store_cases held.1 place.1
        place.2).1).trans same)

/-- Telling a chip about its drive, and when it is not busy about its track, keeps it live and its
transfer as it was. -/
theorem refreshed_live {told next : Wd1771} (live : told.Live) (refreshed : Refreshed told next) :
    next.Live ∧ (next.busy = true → told.Continues next 0) := by
  obtain ⟨⟨ready, readOnly, tracks, side, sectorLen, count, same⟩, format⟩ := refreshed
  cases isBusy : told.busy with
  | true =>
    obtain ⟨sameLen, sameCount⟩ := format isBusy
    rw [same] at sameLen sameCount
    have transfer : next.transfer = told.transfer := by
      rw [same]
      simp only [Wd1771.transfer] at sameLen sameCount ⊢
      rw [sameLen, sameCount]
    exact ⟨live.of_transfer transfer (by rw [same]),
      fun busy => Wd1771.continues_of_transfer transfer (by rw [same]) busy⟩
  | false =>
    have idle : told.moving ≠ .writing := by
      intro writing
      exact absurd (live.busy writing) (by simp [isBusy])
    subst same
    refine ⟨?_, fun busy => absurd busy (by simp [isBusy])⟩
    constructor
    case toSound =>
      exact ⟨fun writing => absurd writing idle, fun writing => absurd writing idle,
        fun writing => absurd writing idle, fun writing => absurd writing idle, live.reading⟩
    case waits => exact live.waits
    case within => exact live.within
    case whole => exact fun busy => absurd busy (by simp [isBusy])

/-- Accesses of the guest, one after the other. -/
def BootMachine.accesses (machine : BootMachine β) (ops : List PortOp) : BootMachine β :=
  ops.foldl BootMachine.access machine

@[simp] theorem accesses_cons (machine : BootMachine β) (op : PortOp) (ops : List PortOp) :
    machine.accesses (op :: ops) = (machine.access op).accesses ops := rfl

/-- An access that moves a byte of the transfer in progress. -/
def Moves (board : β) : PortOp → Prop
  | .input port => ∃ reg ∈ register β port, (chip board).MovesByte reg .reading
  | .output port _ => ∃ reg ∈ register β port, (chip board).MovesByte reg .writing

instance (board : β) (op : PortOp) : Decidable (Moves board op) :=
  match op with
  | .input port =>
    match same : register β port with
    | none => isFalse (by simp [Moves, same])
    | some reg =>
      decidable_of_iff ((chip board).MovesByte reg .reading) (by simp [Moves, same])
  | .output port _ =>
    match same : register β port with
    | none => isFalse (by simp [Moves, same])
    | some reg =>
      decidable_of_iff ((chip board).MovesByte reg .writing) (by simp [Moves, same])

/-- The accesses of a run that move a byte. -/
def moved (machine : BootMachine β) : List PortOp → Nat
  | [] => 0
  | op :: ops => (if Moves machine.board op then 1 else 0) + moved (machine.access op) ops

/-- A write that moves no byte is not counted. -/
theorem moved_output {machine : BootMachine β} {port value : UInt8}
    (still : ¬Moves machine.board (.output port value)) (ops : List PortOp) :
    moved machine (.output port value :: ops) = moved (machine.portOut port value) ops := by
  rw [moved, if_neg still, Nat.zero_add]
  rfl

/-- An access that starts no command. -/
def NoCommand (β : Type) [FloppyBoard β] : PortOp → Prop
  | .input _ => True
  | .output port _ => register β port ≠ some .command

/-- An access that starts no command, and leaves the sector register alone. -/
def KeepsSector (β : Type) [FloppyBoard β] : PortOp → Prop
  | .input _ => True
  | .output port _ => register β port ≠ some .command ∧ register β port ≠ some .sector

/-- A board whose chip is live. -/
structure Ready (Valid : β → Prop) (board : β) : Prop where
  valid : Valid board
  live : (chip board).Live

section Steps

variable {Valid : β → Prop} {Holds : β → Nat → Nat → Prop} (laws : Lawful Valid)
  (serving : Serving Valid Holds) {machine : BootMachine β}

include laws in
/-- The machine leaves the board as valid as the board left it. -/
theorem service_valid {after : β} (valid : Valid after) (request : HostRequest) :
    Valid ({ machine with board := after }.service request).board := by
  cases request with
  | none => exact valid
  | read place offset len => exact (laws.loaded _ _ _ valid).1
  | readAhead place offset len => exact (laws.loaded _ _ _ valid).1
  | write place offset len =>
    exact ({ machine with board := after }.store_cases place offset len).1 ▸ valid
  | fill place offset chunk stride count byte =>
    simp only [BootMachine.service, BootMachine.erase]
    split
    · exact valid
    · split
      · exact valid
      · exact valid

include laws serving in
/-- Reading a port keeps a board ready, and a transfer that goes on is a byte on if it moved one. -/
theorem input_ready (ready : Ready Valid machine.board) (port : UInt8) :
    Ready Valid (machine.access (.input port)).board ∧
      ((chip (machine.access (.input port)).board).busy = true →
        (chip machine.board).Continues (chip (machine.access (.input port)).board)
          (if Moves machine.board (.input port) then 1 else 0)) := by
  simp only [BootMachine.access]
  rw [BootMachine.portIn_ahead (laws.ahead machine.board port)]
  cases isReg : register β port with
  | none =>
    obtain ⟨quiet, same⟩ := laws.inputOther machine.board port isReg
    rw [quiet, same, BootMachine.service_none]
    refine ⟨ready, fun busy => ?_⟩
    rw [if_neg (by simp [Moves, isReg])]
    exact Wd1771.continues_of_transfer rfl rfl busy
  | some reg =>
    obtain ⟨-, valid, -⟩ := laws.input machine.board port reg isReg ready.valid
    have settles := served_settles laws machine valid (serving.input machine.board port reg isReg).2
    obtain ⟨live, goes⟩ :=
      Wd1771.read_live ready.live (serving.recorded _ ready.valid) settles
    refine ⟨⟨service_valid laws valid _, live⟩, fun busy => ?_⟩
    simpa [Moves, isReg] using goes busy

include laws serving in
/-- Writing a port keeps a board ready, and a transfer that goes on is a byte on if it moved one,
unless the sector register was written. -/
theorem output_ready (ready : Ready Valid machine.board) (port value : UInt8)
    (other : NoCommand β (.output port value)) :
    Ready Valid (machine.access (.output port value)).board ∧
      ((chip (machine.access (.output port value)).board).busy = true →
        KeepsSector β (.output port value) →
        (chip machine.board).Continues (chip (machine.access (.output port value)).board)
          (if Moves machine.board (.output port value) then 1 else 0)) := by
  simp only [BootMachine.access, BootMachine.portOut]
  cases isReg : register β port with
  | none =>
    obtain ⟨quiet, valid, refreshed, -, -⟩ :=
      laws.outputOther machine.board port value isReg ready.valid
    rw [quiet, BootMachine.service_none]
    obtain ⟨live, goes⟩ := refreshed_live ready.live refreshed
    refine ⟨⟨valid, live⟩, fun busy _ => ?_⟩
    rw [if_neg (by simp [Moves, isReg])]
    exact goes busy
  | some reg =>
    have command : reg ≠ .command := by
      intro same
      exact other (by rw [isReg, same])
    obtain ⟨-, valid, -⟩ := laws.output machine.board port value reg isReg command ready.valid
    have settles := served_settles laws machine valid
      (serving.output machine.board port value reg isReg command)
    obtain ⟨live, goes⟩ := Wd1771.write_live ready.live command settles
    refine ⟨⟨service_valid laws valid _, live⟩, fun busy keeps => ?_⟩
    have sector : reg ≠ .sector := by
      intro same
      exact keeps.2 (by rw [isReg, same])
    simpa [Moves, isReg] using goes busy sector

include laws serving in
/-- A command leaves a board ready, with the command over or a transfer that waits for the guest. -/
theorem command_ready (ready : Ready Valid machine.board) {port : UInt8} (value : UInt8)
    (isCommand : register β port = some .command) :
    Ready Valid (machine.access (.output port value)).board ∧
      Wd1771.Started value (chip (machine.access (.output port value)).board) := by
  obtain ⟨_, -, -, -, -, -, valid, -⟩ := laws.command machine.board port value isCommand ready.valid
  obtain ⟨told, -, -, some, -, -, serves⟩ :=
    serving.command machine.board port value isCommand ready.valid
  have started := Wd1771.command_started some (served_settles laws machine valid serves)
  exact ⟨⟨service_valid laws valid _, started.live⟩, started⟩

include laws serving in
/-- Every access keeps a board ready. -/
theorem access_ready (ready : Ready Valid machine.board) (op : PortOp) :
    Ready Valid (machine.access op).board := by
  cases op with
  | input port => exact (input_ready laws serving ready port).1
  | output port value =>
    by_cases isCommand : register β port = some .command
    · exact (command_ready laws serving ready value isCommand).1
    · exact (output_ready laws serving ready port value isCommand).1

include laws serving in
/-- Every run keeps a board ready. -/
theorem accesses_ready (ready : Ready Valid machine.board) (ops : List PortOp) :
    Ready Valid (machine.accesses ops).board := by
  induction ops generalizing machine with
  | nil => exact ready
  | cons op ops ih => exact ih (access_ready laws serving ready op)

include laws serving in
/-- An access that leaves the command and sector registers alone: a transfer that goes on was in
progress, and is a byte on if the access moved one. -/
theorem access_continues (ready : Ready Valid machine.board) {op : PortOp}
    (keeps : KeepsSector β op) (busy : (chip (machine.access op).board).busy = true) :
    (chip machine.board).Continues (chip (machine.access op).board)
      (if Moves machine.board op then 1 else 0) := by
  cases op with
  | input port => exact (input_ready laws serving ready port).2 busy
  | output port value => exact (output_ready laws serving ready port value keeps.1).2 busy keeps

include laws serving in
/-- Over a run that leaves the command and sector registers alone, a transfer still in progress has
moved no more bytes than it had, less those it has. -/
theorem accesses_continue (ready : Ready Valid machine.board) {ops : List PortOp}
    (keeps : ∀ op ∈ ops, KeepsSector β op)
    (busy : (chip (machine.accesses ops).board).busy = true) :
    (chip machine.board).busy = true ∧
      (chip (machine.accesses ops).board).remaining + moved machine ops ≤
        (chip machine.board).remaining := by
  induction ops generalizing machine with
  | nil => exact ⟨busy, Nat.le_refl _⟩
  | cons op ops ih =>
    obtain ⟨still, rest⟩ := ih (access_ready laws serving ready op)
      (fun other member => keeps other (List.mem_cons_of_mem _ member)) busy
    obtain ⟨before, -, step⟩ :=
      access_continues laws serving ready (keeps op List.mem_cons_self) still
    refine ⟨before, ?_⟩
    simp only [moved, accesses_cons] at rest ⊢
    omega

/-- A guest of the board is never left waiting. -/
structure NeverWaits (machine : BootMachine β) : Prop where
  /-- A busy chip has a byte to give, or takes one. -/
  waits : (chip machine.board).busy = true →
    (chip machine.board).drq = true ∧ (chip machine.board).moving ≠ .none
  /-- A byte that moves, in a transfer that goes on, brings its end nearer. -/
  progress : ∀ op, Moves machine.board op → (chip (machine.access op).board).busy = true →
    (chip (machine.access op).board).remaining < (chip machine.board).remaining
  /-- A command that opens no transfer leaves the chip not busy, with its interrupt raised unless
  it was a Force Interrupt without one. -/
  answers : ∀ port value, register β port = some .command →
    (chip (machine.access (.output port value)).board).busy = false →
      (chip (machine.access (.output port value)).board).intrq = true ∨
        Kind.of value = .four ∧ value &&& 0x08 = 0
  /-- A Force Interrupt leaves the chip not busy. -/
  forced : ∀ port value, register β port = some .command → Kind.of value = .four →
    (chip (machine.access (.output port value)).board).busy = false
  /-- A transfer is over once as many bytes have moved as a track has, if the sector register is
  left alone. -/
  ends : ∀ port value ops, register β port = some .command → (∀ op ∈ ops, KeepsSector β op) →
    (chip ((machine.access (.output port value)).accesses ops).board).busy = true →
      moved (machine.access (.output port value)) ops <
        (chip (machine.access (.output port value)).board).sectorsPerTrack *
          (chip (machine.access (.output port value)).board).sectorLen

include laws serving in
/-- A guest of a ready board is never left waiting. -/
theorem ready_neverWaits (ready : Ready Valid machine.board) : NeverWaits machine where
  waits := ready.live.waits
  progress op moves busy := by
    have keeps : KeepsSector β op := by
      cases op with
      | input port => trivial
      | output port value =>
        obtain ⟨reg, isReg, isData, -⟩ := moves
        simp only [KeepsSector, Option.mem_def.1 isReg, isData]
        decide
    have goes := (access_continues laws serving ready keeps busy).2.2
    rw [if_pos moves] at goes
    omega
  answers port value isCommand := (command_ready laws serving ready value isCommand).2.ended
  forced port value isCommand := (command_ready laws serving ready value isCommand).2.forced
  ends port value ops isCommand keeps busy := by
    obtain ⟨begun, started⟩ := command_ready laws serving ready value isCommand
    obtain ⟨open', bound⟩ := accesses_continue laws serving begun keeps busy
    have most := started.track open'
    have last := (accesses_ready laws serving begun ops).live
    have left : 0 < (chip ((machine.access (.output port value)).accesses ops).board).remaining := by
      have inside := last.within (last.waits busy).2
      unfold Wd1771.remaining
      omega
    omega

end Steps

end Boards

end EthernetGateway.Machine
