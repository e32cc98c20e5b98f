import EthernetGateway.Image.Run

/-!
# Check bytes of sectors

A framing may keep a check byte beside the data of a sector, which a write of the sector refreshes.
A write that succeeds changes the data and the check byte of its sector and no other byte, and what
every sector's check byte says of it stays true. So it stays true over every sequence of operations
that succeed, whatever is in the directory.
-/

namespace EthernetGateway.Image

/-! ## What a sector holds -/

/-- The bytes of a sector that a write of it changes: its data and its check byte. -/
def Framing.Touches (framing : Framing) (phys address : Nat) : Prop :=
  (framing.recordOffset phys ≤ address ∧ address < framing.recordOffset phys + 128) ∨
    ∃ also, framing.sectorCheck phys = some (address, also)

/-- The check byte of a sector is the one `sector_check` prescribes. -/
def Framing.SectorChecked (framing : Framing) (contents : Contents) (phys : Nat) : Prop :=
  ∀ checkAt also, framing.sectorCheck phys = some (checkAt, also) →
    contents checkAt =
      checkSum contents also fun i : Fin 128 => contents (framing.recordOffset phys + i)

/-- Every sector of an image has the check byte that is prescribed. -/
def Checked (fmt : Format) (contents : Contents) : Prop :=
  ∀ phys < fmt.totalRecords, fmt.framing.SectorChecked contents phys

/-- The sectors whose data are among some writes. -/
def Written (fmt : Format) (writes : List Write) (phys : Nat) : Prop :=
  ∃ w ∈ writes, w.offset = fmt.framing.recordOffset phys ∧ w.size = 128

/-- What the writes between two media come to: they change nothing but the data and the check bytes
of the sectors they write, and leave every sector checked. -/
structure Refreshed (fmt : Format) (before after : Media) : Prop where
  /-- The length stays. -/
  length : after.length = before.length
  /-- Only bytes of the sectors written change. -/
  writes : ∃ ws, after.log = before.log ++ ws ∧
    ∀ address, (∀ phys, Written fmt ws phys → ¬ fmt.framing.Touches phys address) →
      after.contents address = before.contents address
  /-- Checked sectors stay so. -/
  checked : Checked fmt before.contents → Checked fmt after.contents

namespace Framing

variable {framing : Framing}

/-- The bytes beside the data that enter a sum do not include the check byte. -/
theorem sectorCheck_apart {phys checkAt : Nat} {also : List Nat}
    (check : framing.sectorCheck phys = some (checkAt, also)) : checkAt ∉ also := by
  cases framing with
  | raw => cases check
  | framed seclen dataOff => cases check
  | altairSplit seclen sectrk splitTrack firstOff restOff =>
    simp only [sectorCheck] at check
    split at check
    all_goals
      simp only [Option.some.injEq, Prod.mk.injEq] at check
      obtain ⟨rfl, rfl⟩ := check
      simp

/-- A byte a write of a sector changes lies in the sector. -/
theorem Touches.inside (regular : framing.Regular) {phys address : Nat}
    (touches : framing.Touches phys address) :
    phys * framing.unit ≤ address ∧ address + 1 ≤ (phys + 1) * framing.unit := by
  rcases touches with ⟨above, below⟩ | ⟨also, check⟩
  · have sector := recordOffset_inside regular phys
    omega
  · exact (sectorCheck_inside regular _ _ _ check).1 address (List.mem_cons_self)

/-- A sector stays checked when its bytes stay. -/
theorem SectorChecked.congr (regular : framing.Regular) {before after : Contents} {phys : Nat}
    (checked : framing.SectorChecked before phys)
    (same : ∀ address, phys * framing.unit ≤ address → address + 1 ≤ (phys + 1) * framing.unit →
      after address = before address) : framing.SectorChecked after phys := by
  intro checkAt also check
  have place := (sectorCheck_inside regular _ _ _ check).1
  have sector := recordOffset_inside regular phys
  have data : (fun i : Fin 128 => after (framing.recordOffset phys + i)) =
      fun i : Fin 128 => before (framing.recordOffset phys + i) := by
    funext i
    have bound := i.isLt
    exact same _ (by omega) (by omega)
  have sums : ∀ sum, also.foldl (fun sum extra => sum + after extra) sum =
      also.foldl (fun sum extra => sum + before extra) sum := by
    intro sum
    apply List.foldl_ext
    intro sum extra member
    have inside := place extra (List.mem_cons_of_mem _ member)
    rw [same extra inside.1 inside.2]
  have own := place checkAt List.mem_cons_self
  rw [same checkAt own.1 own.2, checked checkAt also check]
  unfold checkSum
  rw [data, sums]

end Framing

namespace Refreshed

variable {fmt : Format} {first second third : Media}

/-- Nothing written. -/
theorem of_unwritten (unwritten : Medium.Unwritten first second) : Refreshed fmt first second where
  length := unwritten.length
  writes := ⟨[], by simp [unwritten.log], fun _ _ => by rw [unwritten.contents]⟩
  checked before := by rwa [unwritten.contents]

/-- No calls at all. -/
theorem refl (media : Media) : Refreshed fmt media media := of_unwritten (.refl media)

/-- Writes follow on writes. -/
theorem trans (began : Refreshed fmt first second) (went : Refreshed fmt second third) :
    Refreshed fmt first third := by
  obtain ⟨writes, log, same⟩ := began.writes
  obtain ⟨writes', log', same'⟩ := went.writes
  refine ⟨went.length.trans began.length, ⟨writes ++ writes', ?_, ?_⟩,
    fun before => went.checked (began.checked before)⟩
  · rw [log', log, List.append_assoc]
  · intro address apart
    rw [same' address, same address]
    · intro phys written
      obtain ⟨w, member, place⟩ := written
      exact apart phys ⟨w, List.mem_append_left _ member, place⟩
    · intro phys written
      obtain ⟨w, member, place⟩ := written
      exact apart phys ⟨w, List.mem_append_right _ member, place⟩

end Refreshed

/-! ## One write -/

/-- The contents after a sector is written and its check byte refreshed. -/
def refresh (framing : Framing) (phys : Nat) (data : Record) (contents : Contents) : Contents :=
  let written := (Write.mk (framing.recordOffset phys) 128 data).apply contents
  match framing.sectorCheck phys with
  | none => written
  | some (checkAt, also) =>
    (Write.mk checkAt 1 fun _ => checkSum written also data).apply written

/-- A sector that is written changes its data and its check byte only. -/
theorem refresh_outside {framing : Framing} {phys : Nat} (data : Record) (contents : Contents)
    {address : Nat} (apart : ¬ framing.Touches phys address) :
    refresh framing phys data contents address = contents address := by
  have written : (Write.mk (framing.recordOffset phys) 128 data).apply contents address =
      contents address := by
    apply Write.apply_outside
    show address < framing.recordOffset phys ∨ framing.recordOffset phys + 128 ≤ address
    by_contra inside
    exact apart (.inl (by omega))
  unfold refresh
  cases check : framing.sectorCheck phys with
  | none => exact written
  | some found =>
    obtain ⟨checkAt, also⟩ := found
    have other : address ≠ checkAt := by
      intro same
      exact apart (.inr ⟨also, same ▸ check⟩)
    have last := Write.apply_outside ⟨checkAt, 1, fun _ => checkSum
      ((Write.mk (framing.recordOffset phys) 128 data).apply contents) also data⟩
      ((Write.mk (framing.recordOffset phys) 128 data).apply contents) address
      (by show address < checkAt ∨ checkAt + 1 ≤ address; omega)
    exact last.trans written

/-- A sector that is written is checked. -/
theorem refresh_checked {framing : Framing} (regular : framing.Regular) (phys : Nat) (data : Record)
    (contents : Contents) : framing.SectorChecked (refresh framing phys data contents) phys := by
  intro checkAt also check
  have outside := (Framing.sectorCheck_inside regular _ _ _ check).2
  have apart := Framing.sectorCheck_apart check
  let written := (Write.mk (framing.recordOffset phys) 128 data).apply contents
  have is : refresh framing phys data contents =
      (Write.mk checkAt 1 fun _ => checkSum written also data).apply written := by
    unfold refresh
    rw [check]
  have own : refresh framing phys data contents checkAt = checkSum written also data := by
    rw [is]
    exact Write.apply_inside ⟨checkAt, 1, fun _ => checkSum written also data⟩ written 0
  have kept : ∀ address, address ≠ checkAt →
      refresh framing phys data contents address = written address := by
    intro address other
    rw [is]
    apply Write.apply_outside
    show address < checkAt ∨ checkAt + 1 ≤ address
    omega
  have bytes : (fun i : Fin 128 =>
      refresh framing phys data contents (framing.recordOffset phys + i)) = data := by
    funext i
    have bound := i.isLt
    rw [kept _ (by omega)]
    exact Write.apply_inside ⟨framing.recordOffset phys, 128, data⟩ contents i
  have sums : ∀ sum, also.foldl (fun sum extra =>
      sum + refresh framing phys data contents extra) sum =
        also.foldl (fun sum extra => sum + written extra) sum := by
    intro sum
    apply List.foldl_ext
    intro sum extra member
    rw [kept extra fun same => apart (same ▸ member)]
  rw [own, bytes]
  unfold checkSum
  rw [sums]

/-- A write inside a medium that succeeds. -/
theorem writeAt_ok {media after : Media} {offset size : Nat} {data : Fin size → UInt8}
    (ran : writeAt offset data media = (.ok (), after)) :
    after = media.land (.write ⟨offset, size, data⟩) := by
  unfold writeAt at ran
  rw [Fallible.bind_run, Fallible.view_run] at ran
  dsimp only at ran
  split at ran
  · unfold Medium.perform at ran
    split at ran
    · cases ran
      rfl
    · cases ran
    · cases ran
  · cases ran

/-- A read that succeeds. -/
theorem readAt_ok {media after : Media} {offset size : Nat} {bytes : Fin size → UInt8}
    (ran : readAt offset size media = (.ok bytes, after)) :
    bytes = (fun i : Fin size => media.contents (offset + i)) ∧ Medium.Unwritten media after := by
  unfold readAt at ran
  rw [Fallible.bind_run, Fallible.view_run] at ran
  dsimp only at ran
  split at ran
  · obtain ⟨_, reached, read, viewed⟩ := Fallible.bind_ok_inv ran
    unfold Medium.perform at read
    split at read
    · cases read
      cases viewed
      exact ⟨rfl, rfl, rfl, by simp [Medium.land, Call.writes], rfl, Nat.le_succ _⟩
    · cases read
    · cases read
  · cases ran

/-- The sum over the other bytes of a check sum. -/
theorem sumExtras_ok {media after : Media} {also : List Nat} {start sum : UInt8}
    (ran : sumExtras also start media = (.ok sum, after)) :
    sum = also.foldl (fun sum extra => sum + media.contents extra) start ∧
      Medium.Unwritten media after := by
  induction also generalizing media start with
  | nil =>
    cases ran
    exact ⟨rfl, .refl _⟩
  | cons extra also ih =>
    obtain ⟨byte, reached, read, later⟩ := Fallible.bind_ok_inv ran
    obtain ⟨is, still⟩ := readAt_ok read
    obtain ⟨total, still'⟩ := ih later
    rw [still.contents, is] at total
    exact ⟨total, still.trans still'⟩

/-- A write of a sector that succeeds refreshes it. -/
theorem writePhysicalRecord_ok {fmt : Format} {media after : Media} {phys : Nat} {data : Record}
    (ran : writePhysicalRecord fmt phys data media = (.ok (), after)) :
    after.length = media.length ∧
      after.contents = refresh fmt.framing phys data media.contents ∧
        ∃ ws, after.log = media.log ++ ws ∧ Written fmt ws phys := by
  obtain ⟨_, first, wrote, later⟩ := Fallible.bind_ok_inv ran
  cases writeAt_ok wrote
  cases check : fmt.framing.sectorCheck phys with
  | none =>
    rw [check] at later
    cases later
    refine ⟨rfl, ?_, [⟨fmt.framing.recordOffset phys, 128, data⟩], rfl, _,
      List.mem_cons_self, rfl, rfl⟩
    unfold refresh
    rw [check]
    rfl
  | some found =>
    obtain ⟨checkAt, also⟩ := found
    rw [check] at later
    obtain ⟨sum, middle, summed, last⟩ := Fallible.bind_ok_inv later
    obtain ⟨total, still⟩ := sumExtras_ok summed
    cases writeAt_ok last
    refine ⟨still.length, ?_, [⟨fmt.framing.recordOffset phys, 128, data⟩,
      ⟨checkAt, 1, fun _ => sum⟩], ?_, _, List.mem_cons_self, rfl, rfl⟩
    · unfold refresh
      rw [check]
      show (Write.mk checkAt 1 fun _ => sum).apply middle.contents = _
      rw [still.contents, total]
      rfl
    · show middle.log ++ _ = _
      rw [still.log]
      exact List.append_assoc media.log [_] [_]

/-- A refreshed sector leaves every sector checked. -/
theorem refresh_all {framing : Framing} (regular : framing.Regular) (phys : Nat) (data : Record)
    {contents : Contents} {other : Nat} (checked : framing.SectorChecked contents other) :
    framing.SectorChecked (refresh framing phys data contents) other := by
  by_cases same : other = phys
  · rw [same]
    exact refresh_checked regular phys data contents
  · apply checked.congr regular
    intro address above below
    apply refresh_outside
    intro touches
    have inside := touches.inside regular
    have apart := Format.sectors_apart framing.unit other phys same
    omega

/-! ## Programs of the byte store -/

/-- A program of the byte store whose successes refresh what they write. -/
abbrev Refreshes (fmt : Format) {α : Type} (program : MediaM α) : Prop :=
  Fallible.Carries (fun _ => True) (Refreshed fmt) program

section Programs

variable {fmt : Format} {α β : Type}

/-- One program after another. -/
theorem Refreshes.bind {first : MediaM α} {next : α → MediaM β} (began : Refreshes fmt first)
    (went : ∀ value, Refreshes fmt (next value)) : Refreshes fmt (first >>= next) :=
  Fallible.Carries.bind (fun _ _ _ earlier later => earlier.trans later) began went

/-- A pure value. -/
theorem Refreshes.pure (value : α) : Refreshes fmt (pure value) :=
  Fallible.Carries.pure Refreshed.refl value

/-- A read. -/
theorem readAt_refreshes (offset size : Nat) : Refreshes fmt (readAt offset size) := by
  intro media bytes after _ ran
  exact ⟨trivial, .of_unwritten (readAt_ok ran).2⟩

/-- A flush. -/
theorem flush_refreshes : Refreshes fmt flush := by
  intro media value after _ ran
  unfold flush Medium.perform at ran
  split at ran
  · cases ran
    exact ⟨trivial, .of_unwritten ⟨rfl, rfl, by simp [Medium.land, Call.writes], rfl,
      Nat.le_succ _⟩⟩
  · cases ran
  · cases ran

/-- A write of a sector. -/
theorem writePhysicalRecord_refreshes (regular : fmt.framing.Regular) (phys : Nat) (data : Record) :
    Refreshes fmt (writePhysicalRecord fmt phys data) := by
  intro media value after _ ran
  obtain ⟨length, contents, ws, log, written⟩ := writePhysicalRecord_ok ran
  refine ⟨trivial, length, ⟨ws, log, ?_⟩, ?_⟩
  · intro address apart
    rw [contents]
    exact refresh_outside data media.contents (apart phys written)
  · intro checked other inside
    rw [contents]
    exact refresh_all regular phys data (checked other inside)

/-- A read of a record. -/
theorem readDataRecord_refreshes (record : Nat) : Refreshes fmt (readDataRecord fmt record) := by
  unfold readDataRecord
  split
  · exact .fail _
  · exact readAt_refreshes _ _

/-- A write of a record of a block. -/
theorem writeBlockRecord_refreshes (regular : fmt.framing.Regular) (block offset : Nat)
    (data : Record) : Refreshes fmt (writeBlockRecord fmt block offset data) := by
  unfold writeBlockRecord
  split
  · exact .fail _
  · split
    · exact .fail _
    · exact writePhysicalRecord_refreshes regular _ data

/-- The zero-fill of a fresh block. -/
theorem zeroRecords_refreshes (regular : fmt.framing.Regular) (block : Nat) (records : List Nat) :
    Refreshes fmt (zeroRecords fmt block records) := by
  induction records with
  | nil => exact .pure ()
  | cons record records ih =>
    exact (writeBlockRecord_refreshes regular block record _).bind fun _ => ih

/-- The data step of a write. -/
theorem writeData_refreshes (regular : fmt.framing.Regular) (block offset : Nat) (data : Record)
    (fresh : Bool) : Refreshes fmt (writeData fmt block offset data fresh) := by
  have record := writeBlockRecord_refreshes regular block offset data
  unfold writeData
  cases fresh with
  | true =>
    exact (zeroRecords_refreshes regular block _).bind fun _ =>
      record.bind fun _ => flush_refreshes
  | false => exact (Refreshes.pure ()).bind fun _ => record.bind fun _ => flush_refreshes

/-- A write of a directory entry. -/
theorem writeDirEntry_refreshes (regular : fmt.framing.Regular) (index : Nat) (raw : RawEntry) :
    Refreshes fmt (writeDirEntry fmt index raw) := by
  unfold writeDirEntry
  split
  · exact .fail _
  · split
    · exact .fail _
    · refine (readAt_refreshes _ _).bind fun buf => ?_
      refine (writePhysicalRecord_refreshes regular _ _).bind fun _ => ?_
      refine flush_refreshes.bind fun _ => (readAt_refreshes _ _).bind fun check => ?_
      split
      · exact .fail _
      · exact .pure ()

/-- The scan for a free entry. -/
theorem freeDirSlot_refreshes : Refreshes fmt (freeDirSlot fmt) := by
  unfold freeDirSlot
  induction List.range fmt.dirRecords with
  | nil => exact .pure none
  | cons record records ih =>
    refine (readDataRecord_refreshes record).bind fun buf => ?_
    split
    · exact .pure _
    · exact ih

/-- The read of the directory. -/
theorem readDirectory_refreshes : Refreshes fmt (readDirectory fmt) := by
  have records (list : List Nat) (found : List DirSlot × List Nat) :
      Refreshes fmt (readRecords fmt list found) := by
    induction list generalizing found with
    | nil => exact .pure found
    | cons record list ih => exact (readDataRecord_refreshes record).bind fun buf => ih _
  exact records _ _

/-- The first loop of a change of several entries, when no entry fails. -/
theorem writeNew_refreshed (regular : fmt.framing.Regular) {changes : List Change} {done : Nat}
    {media after : Media} (ran : writeNew fmt changes media = (.ok (done, .ok ()), after)) :
    Refreshed fmt media after := by
  induction changes generalizing media done with
  | nil =>
    cases ran
    exact .refl _
  | cons change changes ih =>
    obtain ⟨ending, middle, tried, later⟩ := Fallible.bind_ok_inv ran
    rw [Fallible.attempt_run] at tried
    cases tried
    cases wrote : writeDirEntry fmt change.index change.new media with
    | mk ending middle =>
      rw [wrote] at later
      cases ending with
      | error reason => cases later
      | ok value =>
        obtain ⟨⟨count, result⟩, last, rest, final⟩ := Fallible.bind_ok_inv later
        cases final
        have first := (writeDirEntry_refreshes regular change.index change.new media value middle
          trivial wrote).2
        exact first.trans (ih rest)

/-- A change of several entries that is not undone. -/
theorem writeOrUndo_refreshed (regular : fmt.framing.Regular) {changes : List Change}
    {media after : Media} (ran : writeOrUndo fmt changes media = (.ok (.ok ()), after)) :
    Refreshed fmt media after := by
  obtain ⟨⟨done, result⟩, middle, wrote, later⟩ := Fallible.bind_ok_inv ran
  cases result with
  | error reason =>
    obtain ⟨_, _, _, final⟩ := Fallible.bind_ok_inv later
    cases final
  | ok value =>
    cases later
    exact writeNew_refreshed regular wrote

end Programs

/-! ## Operations -/

/-- A program of a filesystem whose successes refresh what they write. -/
abbrev FsRefreshes (fmt : Format) {α : Type} (program : FsM α) : Prop :=
  Fallible.Carries (fun fs => fs.fmt = fmt)
    (fun before after => Refreshed fmt before.media after.media) program

section Operations

variable {fmt : Format} {α β : Type}

/-- One program after another. -/
theorem FsRefreshes.bind {first : FsM α} {next : α → FsM β} (began : FsRefreshes fmt first)
    (went : ∀ value, FsRefreshes fmt (next value)) : FsRefreshes fmt (first >>= next) :=
  Fallible.Carries.bind (fun _ _ _ earlier later => earlier.trans later) began went

/-- A program that leaves the filesystem alone. -/
theorem FsRefreshes.still {program : FsM α} (unmoved : ∀ fs, (program fs).2 = fs) :
    FsRefreshes fmt program :=
  Fallible.Carries.still (fun fs => .refl fs.media) unmoved

/-- A pure value. -/
theorem FsRefreshes.pure (value : α) : FsRefreshes fmt (pure value) :=
  .still fun _ => rfl

/-- A change of memory only. -/
theorem FsRefreshes.change {next : ImageFs → ImageFs}
    (same : ∀ fs, (next fs).fmt = fs.fmt ∧ (next fs).media = fs.media) :
    FsRefreshes fmt (Fallible.change next) := by
  intro fs value after format ran
  cases ran
  obtain ⟨sameFormat, sameMedia⟩ := same fs
  refine ⟨sameFormat.trans format, ?_⟩
  show Refreshed fmt fs.media (next fs).media
  rw [sameMedia]
  exact .refl fs.media

/-- A program of the byte store. -/
theorem onMedia_refreshes {program : MediaM α} (refreshes : Refreshes fmt program) :
    FsRefreshes fmt (onMedia program) := by
  intro fs value after format ran
  unfold onMedia at ran
  rw [Fallible.within_run] at ran
  cases played : program fs.media with
  | mk ending media =>
    rw [played] at ran
    cases ran
    exact ⟨format, (refreshes fs.media value media trivial played).2⟩

/-- The check for a read-only mount. -/
theorem checkWritable_refreshes : FsRefreshes fmt checkWritable := by
  apply FsRefreshes.still
  intro fs
  unfold checkWritable
  rw [Fallible.bind_run, Fallible.view_run]
  dsimp only [id]
  split <;> rfl

/-- Claiming a block. -/
theorem allocBlock_refreshes : FsRefreshes fmt allocBlock := by
  unfold allocBlock
  refine Fallible.Carries.view fun fs _ => ?_
  split
  · exact FsRefreshes.pure none
  · apply FsRefreshes.bind
    · exact FsRefreshes.change fun _ => ⟨rfl, rfl⟩
    · intro _
      exact FsRefreshes.pure _

/-- The reread of the directory. -/
theorem reload_refreshes : FsRefreshes fmt reload := by
  unfold reload
  refine Fallible.Carries.view fun fs format => ?_
  have same : fs.fmt = fmt := format
  dsimp only [id]
  rw [same]
  refine (onMedia_refreshes readDirectory_refreshes).bind fun found => ?_
  exact FsRefreshes.change fun _ => ⟨rfl, rfl⟩

/-- A change of several entries. -/
theorem writeDirEntries_refreshes (regular : fmt.framing.Regular) (changes : List Change) :
    FsRefreshes fmt (writeDirEntries changes) := by
  intro fs value after format ran
  obtain ⟨_, _, looked, ran⟩ := Fallible.bind_ok_inv ran
  cases looked
  obtain ⟨result, middle, wrote, ran⟩ := Fallible.bind_ok_inv ran
  obtain ⟨reloaded, last, read, ran⟩ := Fallible.bind_ok_inv ran
  unfold onMedia at wrote
  rw [Fallible.within_run] at wrote
  cases played : writeOrUndo fs.fmt changes fs.media with
  | mk ending media =>
    dsimp only [id] at wrote
    rw [played] at wrote
    cases wrote
    cases result with
    | error reason => cases ran
    | ok done =>
      rw [Fallible.attempt_run] at read
      cases read
      cases again : reload (fs.withMedia media) with
      | mk ending last =>
        rw [again] at ran
        cases ending with
        | error reason => cases ran
        | ok value =>
          cases ran
          have first : Refreshed fmt fs.media media :=
            format ▸ writeOrUndo_refreshed (format ▸ regular) played
          have second := reload_refreshes (fs.withMedia media) value _ format again
          exact ⟨second.1, first.trans second.2⟩

/-- The directory step of a creation and of a write. -/
theorem commitEntry_refreshes (regular : fmt.framing.Regular) (index : Nat) (raw : RawEntry) :
    FsRefreshes fmt (commitEntry index raw) := by
  unfold commitEntry
  refine Fallible.Carries.view fun fs format => ?_
  have same : fs.fmt = fmt := format
  dsimp only [id]
  rw [same]
  refine (onMedia_refreshes (writeDirEntry_refreshes regular index raw)).bind fun _ => ?_
  exact FsRefreshes.change fun _ => ⟨rfl, rfl⟩

/-- A creation. -/
theorem create_refreshes (regular : fmt.framing.Regular) (f : File) :
    FsRefreshes fmt (create f) := by
  have prepare : FsRefreshes fmt (prepareCreate f) := by
    unfold prepareCreate
    refine checkWritable_refreshes.bind fun _ => ?_
    refine (FsRefreshes.still fun _ => rfl).bind fun _ => Fallible.Carries.view fun fs format => ?_
    have same : fs.fmt = fmt := format
    dsimp only [id]
    rw [same]
    split
    · exact .fail _
    · refine (onMedia_refreshes freeDirSlot_refreshes).bind fun slot => ?_
      split
      · exact .fail _
      · exact FsRefreshes.pure _
  exact prepare.bind fun found => commitEntry_refreshes regular _ _

/-- A write of a record. -/
theorem writeRecord_refreshes (regular : fmt.framing.Regular) (f : File) (record : Nat)
    (data : Record) : FsRefreshes fmt (writeRecord f record data) := by
  have target (base : Nat) : FsRefreshes fmt (targetEntry f base) := by
    unfold targetEntry
    refine Fallible.Carries.view fun fs format => ?_
    have same : fs.fmt = fmt := format
    dsimp only [id]
    rw [same]
    split
    · exact FsRefreshes.pure _
    · refine (onMedia_refreshes freeDirSlot_refreshes).bind fun slot => ?_
      split
      · exact .fail _
      · exact FsRefreshes.pure _
  have block (raw : RawEntry) (slot : Nat) : FsRefreshes fmt (targetBlock raw slot) := by
    unfold targetBlock
    refine Fallible.Carries.view fun fs _ => ?_
    dsimp only [id]
    split
    · exact .fail _
    · refine allocBlock_refreshes.bind fun claimed => ?_
      split
      · exact .fail _
      · exact FsRefreshes.pure _
    · split
      · exact .fail _
      · exact FsRefreshes.pure _
  have prepare : FsRefreshes fmt (prepareRecord f record data) := by
    unfold prepareRecord
    refine checkWritable_refreshes.bind fun _ => Fallible.Carries.view fun fs format => ?_
    have same : fs.fmt = fmt := format
    dsimp only [id]
    rw [same]
    split
    · exact .fail _
    · split
      · exact .fail _
      · refine (target _).bind fun found => (block _ _).bind fun claimed => ?_
        refine (onMedia_refreshes (writeData_refreshes regular _ _ _ _)).bind fun _ => ?_
        exact FsRefreshes.pure _
  exact prepare.bind fun found => commitEntry_refreshes regular _ _

/-- A program whose value is dropped. -/
theorem dropped_refreshes {program : FsM α} (refreshes : FsRefreshes fmt program) :
    FsRefreshes fmt (do let _ ← program) :=
  refreshes.bind fun _ => FsRefreshes.pure ()

/-- Every operation, when it succeeds, refreshes what it writes. -/
theorem run_refreshes (regular : fmt.framing.Regular) (op : Operation) :
    FsRefreshes fmt op.run := by
  cases op with
  | create f => exact create_refreshes regular f
  | writeRecord f record data => exact writeRecord_refreshes regular f record data
  | delete f =>
    apply dropped_refreshes
    unfold Image.delete
    refine checkWritable_refreshes.bind fun _ => Fallible.Carries.view fun fs _ => ?_
    dsimp only [id]
    split
    · exact .fail _
    · exact (writeDirEntries_refreshes regular _).bind fun _ => FsRefreshes.pure _
  | rename f name ext =>
    apply dropped_refreshes
    unfold Image.rename
    refine checkWritable_refreshes.bind fun _ => ?_
    refine (FsRefreshes.still fun _ => rfl).bind fun _ => Fallible.Carries.view fun fs _ => ?_
    dsimp only [id]
    split
    · exact .fail _
    · split
      · exact FsRefreshes.pure _
      · split
        · exact .fail _
        · exact (writeDirEntries_refreshes regular _).bind fun _ => FsRefreshes.pure _
  | setReadOnly f ro =>
    apply dropped_refreshes
    unfold Image.setReadOnly
    refine checkWritable_refreshes.bind fun _ => Fallible.Carries.view fun fs _ => ?_
    dsimp only [id]
    split
    · exact FsRefreshes.pure _
    · exact (writeDirEntries_refreshes regular _).bind fun _ => FsRefreshes.pure _
  | truncate f records =>
    apply dropped_refreshes
    unfold truncateToRecords
    refine checkWritable_refreshes.bind fun _ => Fallible.Carries.view fun fs _ => ?_
    dsimp only [id]
    split
    · exact FsRefreshes.pure _
    · exact (writeDirEntries_refreshes regular _).bind fun _ => FsRefreshes.pure _

/-- A read of a record that succeeds. -/
theorem readRecord_refreshes (f : File) (record : Nat) :
    FsRefreshes fmt (readRecord f record) := by
  unfold readRecord
  refine Fallible.Carries.view fun fs format => ?_
  have same : fs.fmt = fmt := format
  dsimp only [id]
  rw [same]
  split
  · exact FsRefreshes.pure _
  · split
    · exact FsRefreshes.pure _
    · split
      · exact FsRefreshes.pure _
      · exact FsRefreshes.pure _
      · split
        · exact .fail _
        · exact (onMedia_refreshes (readDataRecord_refreshes _)).bind fun _ => FsRefreshes.pure _

end Operations

/-- The states reached from a mount by operations and reads that succeed. -/
inductive Succeeded (media : Media) (fmt : Format) : ImageFs → Prop
  | mount {readOnly : Bool} {fs : ImageFs} (mounted : mount media fmt readOnly = .ok fs) :
      Succeeded media fmt fs
  | operation {fs after : ImageFs} (before : Succeeded media fmt fs) (op : Operation)
      (ran : op.run fs = (.ok (), after)) : Succeeded media fmt after
  | read {fs after : ImageFs} {value : Option Record} (before : Succeeded media fmt fs) (f : File)
      (record : Nat) (ran : readRecord f record fs = (.ok value, after)) :
      Succeeded media fmt after

/-- A mount writes nothing. -/
theorem mount_refreshed {media : Media} {fmt : Format} {readOnly : Bool} {fs : ImageFs}
    (mounted : mount media fmt readOnly = .ok fs) :
    fs.fmt = fmt ∧ Refreshed fmt media fs.media := by
  unfold mount at mounted
  dsimp only at mounted
  split at mounted
  · cases mounted
  · split at mounted
    · cases mounted
    · split at mounted
      · cases mounted
      · rename_i dir foreign reached read
        have refreshed := (readDirectory_refreshes media _ reached trivial read).2
        split at mounted
        · cases mounted
          exact ⟨rfl, refreshed⟩
        · cases mounted
          exact ⟨rfl, refreshed⟩

/-- A run of successes refreshes what it writes. -/
theorem Succeeded.refreshed {media : Media} {fmt : Format} (regular : fmt.framing.Regular)
    {fs : ImageFs} (succeeded : Succeeded media fmt fs) :
    fs.fmt = fmt ∧ Refreshed fmt media fs.media := by
  induction succeeded with
  | mount mounted => exact mount_refreshed mounted
  | operation before op ran ih =>
    obtain ⟨format, refreshed⟩ := ih
    obtain ⟨format', refreshed'⟩ := run_refreshes regular op _ _ _ format ran
    exact ⟨format', refreshed.trans refreshed'⟩
  | read before f record ran ih =>
    obtain ⟨format, refreshed⟩ := ih
    obtain ⟨format', refreshed'⟩ := readRecord_refreshes f record _ _ _ format ran
    exact ⟨format', refreshed.trans refreshed'⟩

end EthernetGateway.Image
