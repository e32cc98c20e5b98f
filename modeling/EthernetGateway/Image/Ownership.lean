import EthernetGateway.Image.Agreement
import EthernetGateway.Image.Run

/-!
# No block is owned twice

Memory and medium can differ while calls fail, so neither of them alone says which blocks are
spoken for. The invariant is a ledger that promises each block to at most one directory index:
entries on the medium and in memory name only blocks promised to their index, and the bitmap
keeps every promised block from being claimed. Every step an operation makes on the medium, and
every change of memory, respects a ledger; claiming a free block extends it, and reading the
directory again replaces it by what the medium names.
-/

namespace EthernetGateway.Image

/-- An entry in use that is not read as a file. -/
def RawEntry.Foreign (raw : RawEntry) : Prop := raw.isFree = false ∧ ¬ raw.Live

/-- A directory in which no block is owned twice, every owned block lies on the disk outside
the directory, and no block of a foreign entry at the start came to be owned since. -/
structure SoundDirectory (fmt : Format) (start disk : Disk) : Prop where
  /-- Two live entries name no common block. -/
  apart : ∀ i < fmt.dirEntries, ∀ j < fmt.dirEntries, i ≠ j → (disk.entry i).Live →
    (disk.entry j).Live → ∀ block ∈ (disk.entry i).named (Params.derive fmt),
      block ∉ (disk.entry j).named (Params.derive fmt)
  /-- A live entry names blocks of the disk, outside the directory. -/
  bounded : ∀ i < fmt.dirEntries, (disk.entry i).Live →
    ∀ block ∈ (disk.entry i).named (Params.derive fmt),
      (Params.derive fmt).dirBlocks ≤ block ∧ block ≤ (Params.derive fmt).maxBlock
  /-- A live entry that names a block foreign at the start was live and named it then. -/
  foreign : ∀ block ∈ foreignOf fmt start, ∀ i < fmt.dirEntries, (disk.entry i).Live →
    block ∈ (disk.entry i).named (Params.derive fmt) →
      (start.entry i).Live ∧ block ∈ (start.entry i).named (Params.derive fmt)

/-- An entry that respects a ledger: it names each block once and only blocks promised to its
index. -/
def Promised (fmt : Format) (names : Nat → Nat → Prop) (index : Nat) (raw : RawEntry) : Prop :=
  (raw.named (Params.derive fmt)).Nodup ∧
    ∀ block ∈ raw.named (Params.derive fmt), names index block

/-- A ledger of blocks that medium, memory and bitmap all respect. -/
structure Owned (fmt : Format) (start : Disk) (names : Nat → Nat → Prop) (disk : Disk)
    (dir : List DirSlot) (used : List Bool) : Prop where
  /-- Live entries on the medium respect the ledger. -/
  medium : ∀ i < fmt.dirEntries, (disk.entry i).Live → Promised fmt names i (disk.entry i)
  /-- Entries in memory respect the ledger. -/
  memory : ∀ e ∈ dir, Promised fmt names e.index e.raw
  /-- A block is promised to one index. -/
  apart : ∀ i j block, names i block → names j block → i = j
  /-- A promised block lies on the disk, outside the directory. -/
  bounded : ∀ i block, names i block →
    (Params.derive fmt).dirBlocks ≤ block ∧ block ≤ (Params.derive fmt).maxBlock
  /-- A promised block is taken. -/
  taken : ∀ i block, names i block → Taken used block
  /-- Entries foreign at the start stay, and memory holds none at their index. -/
  kept : ∀ i < fmt.dirEntries, (start.entry i).Foreign →
    disk.entry i = start.entry i ∧ ∀ e ∈ dir, e.index ≠ i
  /-- Blocks foreign at the start are taken. -/
  foreignTaken : ∀ block ∈ foreignOf fmt start, Taken used block
  /-- A block foreign at the start is promised only to an entry that named it then. -/
  foreignNames : ∀ block ∈ foreignOf fmt start, ∀ i, names i block →
    (start.entry i).Live ∧ block ∈ (start.entry i).named (Params.derive fmt)

/-- A step that respects a ledger: data outside the directory, or an entry that respects it in
a slot that was not foreign. -/
def DiskStep.Fair (fmt : Format) (start : Disk) (names : Nat → Nat → Prop) : DiskStep → Prop
  | .write record _ => fmt.dirRecords ≤ record
  | .edit index raw => ¬ (start.entry index).Foreign ∧ (raw.Live → Promised fmt names index raw)

namespace Owned

variable {fmt : Format} {start disk : Disk} {names : Nat → Nat → Prop} {dir : List DirSlot}
  {used : List Bool}

/-- A medium that respects a ledger has a sound directory. -/
theorem sound (owned : Owned fmt start names disk dir used) : SoundDirectory fmt start disk where
  apart i hi j hj different liveI liveJ block memberI memberJ :=
    different (owned.apart i j block ((owned.medium i hi liveI).2 block memberI)
      ((owned.medium j hj liveJ).2 block memberJ))
  bounded i hi live block member := owned.bounded i block ((owned.medium i hi live).2 block member)
  foreign block listed i hi live member :=
    owned.foreignNames block listed i ((owned.medium i hi live).2 block member)

/-- A fair step keeps the ledger. -/
theorem step (owned : Owned fmt start names disk dir used) {step : DiskStep}
    (fair : step.Fair fmt start names) :
    Owned fmt start names (step.apply disk) dir used := by
  have entries : ∀ i < fmt.dirEntries, (step.apply disk).entry i = disk.entry i ∨
      (¬ (start.entry i).Foreign ∧
        (((step.apply disk).entry i).Live → Promised fmt names i ((step.apply disk).entry i))) := by
    intro i inside
    cases step with
    | write record data =>
      left
      exact Disk.entry_write disk data fun same =>
        absurd (same ▸ fair) (Nat.not_le.mpr (Format.entryRecord_lt inside))
    | edit index raw =>
      rw [Disk.entry_edit]
      by_cases same : i = index
      · subst same
        simp only [↓reduceIte]
        exact .inr fair
      · rw [if_neg same]
        exact .inl rfl
  refine { owned with medium := ?_, kept := ?_ }
  · intro i inside live
    rcases entries i inside with same | ⟨_, promised⟩
    · rw [same] at live ⊢
      exact owned.medium i inside live
    · exact promised live
  · intro i inside foreign
    rcases entries i inside with same | ⟨native, _⟩
    · rw [same]
      exact owned.kept i inside foreign
    · exact absurd foreign native

/-- Fair steps keep the ledger, all of them and any first of them. -/
theorem run (owned : Owned fmt start names disk dir used) (steps : List DiskStep)
    (fair : ∀ step ∈ steps, step.Fair fmt start names) :
    Owned fmt start names (disk.run steps) dir used := by
  induction steps generalizing disk with
  | nil => exact owned
  | cons step steps ih =>
    exact ih (owned.step (fair step List.mem_cons_self)) fun later member =>
      fair later (List.mem_cons_of_mem _ member)

/-- The ledger with a block promised to one index more. -/
def extended (names : Nat → Nat → Prop) (index block : Nat) : Nat → Nat → Prop :=
  fun i b => names i b ∨ (i = index ∧ b = block)

/-- Claiming a free block promises it. -/
theorem claim (owned : Owned fmt start names disk dir used) (index : Nat) {block : Nat}
    (free : freeBlock (Params.derive fmt) used = some block)
    (sized : used.length = (Params.derive fmt).maxBlock + 1) :
    Owned fmt start (extended names index block) disk dir (used.set block true) := by
  obtain ⟨low, high, unused⟩ := freeBlock_some free
  have untaken : ¬ Taken used block := fun taken => by
    rw [Taken] at taken
    rw [List.getD_eq_getElem?_getD, taken] at unused
    cases unused
  have marked : Taken (used.set block true) block := by
    rw [Taken, List.getElem?_set_self (by omega)]
  have widened {i : Nat} {raw : RawEntry} (promised : Promised fmt names i raw) :
      Promised fmt (extended names index block) i raw :=
    ⟨promised.1, fun b member => .inl (promised.2 b member)⟩
  refine ⟨fun i inside live => widened (owned.medium i inside live),
    fun e member => widened (owned.memory e member), ?_, ?_, ?_, owned.kept,
    fun b listed => (owned.foreignTaken b listed).set block, ?_⟩
  · rintro i j b (left | ⟨rfl, rfl⟩) (right | ⟨rfl, same⟩)
    · exact owned.apart i j b left right
    · exact absurd (same ▸ owned.taken i b left) untaken
    · exact absurd (owned.taken j b right) untaken
    · rfl
  · rintro i b (named | ⟨rfl, rfl⟩)
    · exact owned.bounded i b named
    · exact ⟨low, high⟩
  · rintro i b (named | ⟨rfl, rfl⟩)
    · exact (owned.taken i b named).set block
    · exact marked
  · rintro b listed i (named | ⟨rfl, rfl⟩)
    · exact owned.foreignNames b listed i named
    · exact absurd (owned.foreignTaken b listed) untaken

/-- Folding a fair entry into memory keeps the ledger. -/
theorem insert (owned : Owned fmt start names disk dir used)
    (ordered : dir.Pairwise fun left right => left.index < right.index) {index : Nat}
    {raw : RawEntry} (fair : DiskStep.Fair fmt start names (.edit index raw)) (blocks : List Nat) :
    Owned fmt start names disk (insertEntry dir index (parseEntry index raw (Params.derive fmt)))
      (markBlocks used blocks) := by
  refine { owned with memory := ?_, taken := ?_, kept := ?_, foreignTaken := ?_ }
  · intro e member
    rcases (mem_insertEntry ordered).mp member with ⟨listed, _⟩ | parsed
    · exact owned.memory e listed
    · obtain ⟨live, rfl⟩ := parseEntry_some_iff.mp parsed
      exact fair.2 live
  · exact fun i block named => (owned.taken i block named).markBlocks blocks
  · intro i inside foreign
    refine ⟨(owned.kept i inside foreign).1, fun e member => ?_⟩
    rcases (mem_insertEntry ordered).mp member with ⟨listed, _⟩ | parsed
    · exact (owned.kept i inside foreign).2 e listed
    · rw [(parseEntry_some_iff.mp parsed).2]
      intro same
      exact fair.1 ((show index = i from same) ▸ foreign)
  · exact fun block listed => (owned.foreignTaken block listed).markBlocks blocks

/-- Blocks of an entry that stayed foreign are foreign blocks still. -/
theorem foreignOf_kept (owned : Owned fmt start names disk dir used) :
    ∀ block ∈ foreignOf fmt start, block ∈ foreignOf fmt disk := by
  intro block listed
  obtain ⟨i, inside, named⟩ := List.mem_flatMap.mp listed
  have bound := List.mem_range.mp inside
  by_cases live : (start.entry i).Live
  · simp [live] at named
  · rw [if_neg live] at named
    have inUse : (start.entry i).isFree = false := by
      cases free : (start.entry i).isFree with
      | false => rfl
      | true => simp [foreignBlocks, free] at named
    refine List.mem_flatMap.mpr ⟨i, inside, ?_⟩
    rw [(owned.kept i bound ⟨inUse, live⟩).1, if_neg live]
    exact named

/-- A foreign block is a block of the disk. -/
theorem foreignOf_bounded {block : Nat} (listed : block ∈ foreignOf fmt disk) :
    block ≠ 0 ∧ block ≤ (Params.derive fmt).maxBlock := by
  obtain ⟨i, _, named⟩ := List.mem_flatMap.mp listed
  split at named
  · cases named
  · rw [foreignBlocks] at named
    split at named
    · cases named
    · simpa using (List.mem_filter.mp named).2

/-- The ledger of what a medium names. -/
def mediumLedger (fmt : Format) (disk : Disk) : Nat → Nat → Prop := fun i block =>
  i < fmt.dirEntries ∧ (disk.entry i).Live ∧ block ∈ (disk.entry i).named (Params.derive fmt)

/-- Reading the directory again leaves the ledger of what the medium names. -/
theorem reload (owned : Owned fmt start names disk dir used) :
    Owned fmt start (mediumLedger fmt disk) disk (directoryOf fmt disk)
      (bitmapOf (Params.derive fmt) (directoryOf fmt disk) (foreignOf fmt disk)) := by
  have promised (i : Nat) (block : Nat) (named : mediumLedger fmt disk i block) : names i block :=
    (owned.medium i named.1 named.2.1).2 block named.2.2
  refine ⟨?_, ?_, ?_, ?_, ?_, ?_, ?_, ?_⟩
  · exact fun i inside live =>
      ⟨(owned.medium i inside live).1, fun block member => ⟨inside, live, member⟩⟩
  · intro e member
    obtain ⟨i, inside, live, rfl⟩ := mem_directoryOf.mp member
    exact ⟨(owned.medium i inside live).1, fun block named => ⟨inside, live, named⟩⟩
  · exact fun i j block left right =>
      owned.apart i j block (promised i block left) (promised j block right)
  · exact fun i block named => owned.bounded i block (promised i block named)
  · intro i block named
    have bound := owned.bounded i block (promised i block named)
    have member := RawEntry.mem_named.mp named.2.2
    rw [Taken, bitmapOf_getElem? _ _ _ bound.2, decide_eq_true]
    exact .inr ⟨member.2, .inl (List.mem_flatMap.mpr
      ⟨_, mem_directoryOf.mpr ⟨i, named.1, named.2.1, rfl⟩, member.1⟩)⟩
  · intro i inside foreign
    have same := (owned.kept i inside foreign).1
    refine ⟨same, fun e member => ?_⟩
    obtain ⟨j, _, live, rfl⟩ := mem_directoryOf.mp member
    rintro rfl
    exact foreign.2 (same ▸ live)
  · intro block listed
    have still := owned.foreignOf_kept block listed
    obtain ⟨positive, bound⟩ := foreignOf_bounded still
    rw [Taken, bitmapOf_getElem? _ _ _ bound, decide_eq_true]
    exact .inr ⟨positive, .inr still⟩
  · exact fun block listed i named => owned.foreignNames block listed i (promised i block named)

/-- The ledger of an undamaged directory. -/
theorem ofUndamaged (undamaged : Undamaged (Params.derive fmt) (directoryOf fmt disk)) :
    Owned fmt disk (mediumLedger fmt disk) disk (directoryOf fmt disk)
      (bitmapOf (Params.derive fmt) (directoryOf fmt disk) (foreignOf fmt disk)) := by
  have once := undamaged.once
  have bounded := undamaged.bounded
  rw [namedBy_directoryOf] at once bounded
  obtain ⟨each, disjoint⟩ := List.nodup_flatMap.mp once
  have listed (i block : Nat) (named : mediumLedger fmt disk i block) :
      (Params.derive fmt).dirBlocks ≤ block ∧ block ≤ (Params.derive fmt).maxBlock :=
    bounded block (List.mem_flatMap.mpr
      ⟨i, List.mem_range.mpr named.1, by rw [if_pos named.2.1]; exact named.2.2⟩)
  have distinct (i : Nat) (inside : i < fmt.dirEntries) (live : (disk.entry i).Live) :
      ((disk.entry i).named (Params.derive fmt)).Nodup := by
    have nodup := each i (List.mem_range.mpr inside)
    rwa [if_pos live] at nodup
  -- An Owned with some ledger is enough: reading again leaves the one stated.
  have start : Owned fmt disk (mediumLedger fmt disk) disk []
      (List.replicate ((Params.derive fmt).maxBlock + 1) true) := by
    refine ⟨fun i inside live => ⟨distinct i inside live, fun block member =>
      ⟨inside, live, member⟩⟩, by simp, ?_, listed, ?_, ?_, ?_, ?_⟩
    · intro i j block left right
      by_contra different
      have symmetric : Std.Symm (Function.onFun List.Disjoint fun index =>
          if (disk.entry index).Live then (disk.entry index).named (Params.derive fmt) else []) :=
        ⟨fun _ _ apart => List.Disjoint.symm apart⟩
      have separate := disjoint.forall (List.mem_range.mpr left.1) (List.mem_range.mpr right.1)
        different
      rw [Function.onFun, if_pos left.2.1, if_pos right.2.1] at separate
      exact separate left.2.2 right.2.2
    · intro i block named
      have bound := listed i block named
      rw [Taken, List.getElem?_replicate, if_pos (by omega)]
    · exact fun i _ _ => ⟨rfl, by simp⟩
    · intro block member
      have bound := foreignOf_bounded member
      rw [Taken, List.getElem?_replicate, if_pos (by omega)]
    · exact fun block _ i named => named.2
  exact start.reload

end Owned

/-! ## The operations -/

section Operations

variable {fs : ImageFs} {start : Disk} {names : Nat → Nat → Prop}

/-- The ledger of a filesystem state. -/
abbrev ImageFs.Owned (fs : ImageFs) (start : Disk) (names : Nat → Nat → Prop) : Prop :=
  Image.Owned fs.fmt start names fs.disk fs.dir fs.used

/-- The entry a write edits was not foreign and respects the ledger. -/
theorem planTarget_fair (owned : fs.Owned start names) (valid : fs.Valid) {f : File}
    {base index : Nat} {raw : RawEntry} (target : planTarget fs f base = some (index, raw)) :
    ¬ (start.entry index).Foreign ∧ Promised fs.fmt names index raw := by
  have inside := planTarget_inside valid target
  rw [planTarget] at target
  split at target
  · rename_i e found
    cases target
    have listed := (entryFor_some found).1
    exact ⟨fun foreign => (owned.kept _ inside foreign).2 e listed rfl, owned.memory e listed⟩
  · obtain ⟨free, found, same⟩ := Option.map_eq_some_iff.mp target
    cases same
    have empty : (newRawEntry f base).named (Params.derive fs.fmt) = [] :=
      List.filter_eq_nil_iff.mpr fun block member => by
        simp [newRawEntry_blocks f base _ block member]
    refine ⟨fun foreign => ?_, by rw [empty]; exact List.nodup_nil, by simp [empty]⟩
    have unfree := foreign.1
    rw [← (owned.kept _ inside foreign).1, (freeOf_some found).2.1] at unfree
    cases unfree

/-- Data steps of an edit lie outside the directory. -/
theorem blockRecord_outside {fmt : Format} (sound : fmt.Sound) {block : Nat}
    (above : (Params.derive fmt).dirBlocks ≤ block) (offsetInBlock : Nat) :
    fmt.dirRecords ≤ fmt.blockRecord block offsetInBlock := by
  have cover : fmt.dirRecords ≤
      (Params.derive fmt).dirBlocks * (Params.derive fmt).recordsPerBlock := by
    have block := sound.block
    have same : (Params.derive fmt).dirRecords = fmt.dirRecords := rfl
    have quotient := Nat.div_add_mod
      ((Params.derive fmt).dirRecords + (Params.derive fmt).recordsPerBlock - 1)
      (Params.derive fmt).recordsPerBlock
    have remainder := Nat.mod_lt
      ((Params.derive fmt).dirRecords + (Params.derive fmt).recordsPerBlock - 1) block
    rw [Params.dirBlocks, Nat.mul_comm]
    omega
  have scaled := Nat.mul_le_mul_right (Params.derive fmt).recordsPerBlock above
  rw [Format.blockRecord]
  omega

/-- The steps of an edit respect a ledger once its entry does and its block is promised. -/
theorem planEdit_fair (valid : fs.Valid) {ledger : Nat → Nat → Prop} {record : Nat}
    {data : Record} {index : Nat} {raw : RawEntry} {block : Nat} {fresh : Bool}
    (above : fs.params.dirBlocks ≤ block)
    (edit : DiskStep.Fair fs.fmt start ledger
      (.edit index (planEdit fs record data index raw block fresh).raw)) :
    ∀ step ∈ (planEdit fs record data index raw block fresh).steps,
      step.Fair fs.fmt start ledger := by
  intro step member
  rw [Edit.steps, List.mem_append, List.mem_singleton] at member
  rcases member with member | rfl
  · simp only [planEdit, List.mem_append, List.mem_singleton] at member
    rcases member with zeroed | rfl
    · split at zeroed
      · obtain ⟨other, _, rfl⟩ := List.mem_map.mp zeroed
        exact blockRecord_outside valid.sound above other
      · cases zeroed
    · exact blockRecord_outside valid.sound above _
  · exact edit

/-- The data of an edit is written to records of blocks promised to its index. -/
def Edit.Within (fmt : Format) (names : Nat → Nat → Prop) (e : Edit) : Prop :=
  ∀ step ∈ e.data, ∃ block offset data, step = .write (fmt.blockRecord block offset) data ∧
    offset < (Params.derive fmt).recordsPerBlock ∧ names e.index block

/-- The data of a write is written to the block it goes to. -/
theorem planEdit_within (valid : fs.Valid) {ledger : Nat → Nat → Prop} {record : Nat}
    {data : Record} {index : Nat} {raw : RawEntry} {block : Nat} {fresh : Bool}
    (promised : ledger index block) :
    (planEdit fs record data index raw block fresh).Within fs.fmt ledger := by
  intro step member
  simp only [planEdit, List.mem_append, List.mem_singleton] at member
  rcases member with zeroed | rfl
  · split at zeroed
    · obtain ⟨other, listed, rfl⟩ := List.mem_map.mp zeroed
      exact ⟨block, other, _, rfl, List.mem_range.mp (List.mem_filter.mp listed).1, promised⟩
    · cases zeroed
  · exact ⟨block, _, _, rfl, Nat.mod_lt _ valid.sound.block, promised⟩

/-- An edit is fair to a ledger that memory and the bitmap with its block claimed respect, and
its data goes to blocks promised to its index. -/
theorem Edits.ledger (owned : fs.Owned start names) (valid : fs.Valid) {op : Operation} {e : Edit}
    (edits : Edits fs op e) :
    ∃ ledger, Image.Owned fs.fmt start ledger fs.disk fs.dir (fs.marked e.claimed) ∧
      (∀ step ∈ e.steps, step.Fair fs.fmt start ledger) ∧ e.Within fs.fmt ledger := by
  cases edits with
  | @create f index printable absent free =>
    refine ⟨names, owned, fun step member => ?_, by simp [Edit.Within]⟩
    have target : ¬ (start.entry index).Foreign := fun foreign => by
      have inside := (freeOf_some free).1
      have unfree := foreign.1
      rw [← (owned.kept _ inside foreign).1, (freeOf_some free).2.1] at unfree
      cases unfree
    have empty : (newRawEntry f 0).named (Params.derive fs.fmt) = [] :=
      List.filter_eq_nil_iff.mpr fun block member => by
        simp [newRawEntry_blocks f 0 _ block member]
    rw [Edit.steps, List.nil_append, List.mem_singleton] at member
    subst member
    exact ⟨target, fun _ => ⟨by rw [empty]; exact List.nodup_nil, by simp [empty]⟩⟩
  | @fresh f record data index raw block there target slot free =>
    obtain ⟨native, promised⟩ := planTarget_fair owned valid target
    obtain ⟨low, high, _⟩ := freeBlock_some free
    have claimed := owned.claim index free valid.sized
    refine ⟨Owned.extended names index block, claimed,
      planEdit_fair valid low ⟨native, fun _ => ?_⟩, planEdit_within valid (.inr ⟨rfl, rfl⟩)⟩
    -- The new map has the claimed block where the old one had zero.
    have blocks := planEdit_blocks valid record data index raw block true fun _ => high
    rw [if_pos rfl] at blocks
    have positive : block ≠ 0 := by
      have dir := valid.sound.dirBlocks_pos
      rw [ImageFs.params] at low
      omega
    have unnamed : block ∉ raw.named fs.params := fun member => by
      have taken := owned.taken index block (promised.2 block member)
      have untaken := (freeBlock_some free).2.2
      rw [Taken] at taken
      rw [List.getD_eq_getElem?_getD, taken] at untaken
      cases untaken
    rw [Promised, RawEntry.named, show Params.derive fs.fmt = fs.params from rfl, blocks]
    obtain ⟨inside, _⟩ := List.getElem?_eq_some_iff.mp slot
    obtain ⟨front, back, whole, length⟩ : ∃ front back,
        decodeBlocks raw fs.params = front ++ 0 :: back ∧
          front.length = withinEntry fs.params record / fs.params.recordsPerBlock :=
      ⟨_, _, by
        rw [← (List.getElem?_eq_some_iff.mp slot).2, ← List.drop_eq_getElem_cons,
          List.take_append_drop],
        List.length_take_of_le (Nat.le_of_lt inside)⟩
    have filtered : raw.named fs.params = front.filter (· ≠ 0) ++ back.filter (· ≠ 0) := by
      rw [RawEntry.named, whole]
      simp
    have replaced : ((decodeBlocks raw fs.params).set
        (withinEntry fs.params record / fs.params.recordsPerBlock) block).filter (· ≠ 0) =
        front.filter (· ≠ 0) ++ block :: back.filter (· ≠ 0) := by
      rw [whole, ← length, List.set_append_right _ _ (Nat.le_refl _), Nat.sub_self]
      simp [positive]
    rw [replaced]
    have perm : (front.filter (· ≠ 0) ++ block :: back.filter (· ≠ 0)).Perm
        (block :: raw.named fs.params) := by
      rw [filtered]
      exact List.perm_middle
    refine ⟨perm.nodup_iff.mpr (List.nodup_cons.mpr ⟨unnamed, promised.1⟩), fun other member => ?_⟩
    rcases List.mem_cons.mp (perm.mem_iff.mp member) with rfl | own
    · exact .inr ⟨rfl, rfl⟩
    · exact .inl (promised.2 other own)
  | @owned f record data index raw block there target slot positive known =>
    obtain ⟨native, promised⟩ := planTarget_fair owned valid target
    have named : block ∈ raw.named fs.params :=
      RawEntry.mem_named.mpr ⟨List.mem_of_getElem? slot, positive⟩
    have above := (owned.bounded index block (promised.2 block named)).1
    refine ⟨names, owned, planEdit_fair valid above ⟨native, fun _ => ?_⟩,
      planEdit_within valid (promised.2 block named)⟩
    have blocks := planEdit_blocks valid record data index raw block false (by simp)
    rw [if_neg (by simp)] at blocks
    rw [Promised, RawEntry.named, show Params.derive fs.fmt = fs.params from rfl, blocks]
    exact promised

/-- A step that writes data outside the directory. -/
def DiskStep.Outside (fmt : Format) : DiskStep → Prop
  | .write record _ => fmt.dirRecords ≤ record
  | .edit _ _ => False

/-- Data written outside the directory leaves its entries. -/
theorem Disk.entry_run_outside {fmt : Format} (disk : Disk) (steps : List DiskStep)
    (outside : ∀ step ∈ steps, step.Outside fmt) {index : Nat} (inside : index < fmt.dirEntries) :
    (disk.run steps).entry index = disk.entry index := by
  induction steps generalizing disk with
  | nil => rfl
  | cons step steps ih =>
    have first := outside step List.mem_cons_self
    rw [Disk.run, Medium.runSteps_cons]
    refine (ih _ fun later member => outside later (List.mem_cons_of_mem _ member)).trans ?_
    cases step with
    | write record data =>
      exact Disk.entry_write disk data fun same =>
        absurd (same ▸ first) (Nat.not_le.mpr (Format.entryRecord_lt inside))
    | edit index raw => exact first.elim

/-- The data of an edit is written outside the directory. -/
theorem Edits.data_outside (owned : fs.Owned start names) (valid : fs.Valid) {op : Operation}
    {e : Edit} (edits : Edits fs op e) : ∀ step ∈ e.data, step.Outside fs.fmt := by
  obtain ⟨ledger, claimed, _, within⟩ := edits.ledger owned valid
  intro step member
  obtain ⟨block, offset, data, rfl, _, promised⟩ := within step member
  exact blockRecord_outside valid.sound (claimed.bounded _ _ promised).1 offset

/-- The new entry of a change names a part of what the old one names, or is no file. -/
theorem Batches.named (valid : fs.Valid) {op : Operation} {changes : List Change}
    (batches : Batches fs op changes) {change : Change} (member : change ∈ changes) :
    change.new.Live →
      (change.new.named fs.params).Sublist (change.old.named fs.params) := by
  have erased (raw : RawEntry) (live : raw.erased.Live) : False := by
    have free := live.1
    simp [RawEntry.isFree, RawEntry.erased] at free
  have sameMap {left right : RawEntry} (same : left.map = right.map) :
      (left.named fs.params).Sublist (right.named fs.params) := by
    rw [RawEntry.named, RawEntry.named, decodeBlocks_congr fs.params same]
  intro live
  cases batches with
  | delete =>
    obtain ⟨e, _, rfl⟩ := List.mem_map.mp member
    exact (erased _ live).elim
  | rename =>
    obtain ⟨e, _, rfl⟩ := List.mem_map.mp member
    exact sameMap rfl
  | setReadOnly =>
    obtain ⟨e, _, rfl⟩ := List.mem_map.mp member
    exact sameMap rfl
  | truncate =>
    obtain ⟨e, _, changed⟩ := List.mem_filterMap.mp member
    obtain ⟨_, old, ⟨new, _⟩ | ⟨new, _⟩⟩ := truncateChange_some changed
    · rw [new] at live
      exact (erased _ live).elim
    · rw [new, old]
      exact cut_named_sublist valid.sound _ _

/-- A batch is fair to the ledger. -/
theorem Batches.fair (owned : fs.Owned start names) (valid : fs.Valid) {op : Operation}
    {changes : List Change} (batches : Batches fs op changes) {change : Change}
    (member : change ∈ changes) :
    DiskStep.Fair fs.fmt start names (.edit change.index change.old) ∧
      DiskStep.Fair fs.fmt start names (.edit change.index change.new) := by
  obtain ⟨e, listed, index, old⟩ := batches.entry member
  have inside := (valid.listed e listed).1
  have native : ¬ (start.entry change.index).Foreign := fun foreign =>
    (owned.kept _ (index ▸ inside) foreign).2 e listed index.symm
  have promised := owned.memory e listed
  rw [← index, ← old] at promised
  refine ⟨⟨native, fun _ => promised⟩, native, fun live => ?_⟩
  have part := batches.named valid member live
  exact ⟨promised.1.sublist part, fun block named => promised.2 block (part.subset named)⟩

/-- Editing entries of distinct indices leaves the other entries. -/
theorem Disk.entry_run_other (disk : Disk) (changes : List Change) (value : Change → RawEntry)
    {index : Nat} (other : ∀ change ∈ changes, change.index ≠ index) :
    (disk.run (changes.map fun change => .edit change.index (value change))).entry index =
      disk.entry index := by
  induction changes generalizing disk with
  | nil => rfl
  | cons change changes ih =>
    rw [List.map_cons, Disk.run, Medium.runSteps_cons]
    refine (ih _ fun later member => other later (List.mem_cons_of_mem _ member)).trans ?_
    rw [Disk.entry_edit, if_neg (other change List.mem_cons_self).symm]

/-- Editing entries of distinct indices puts each down. -/
theorem Disk.entry_run_mem (disk : Disk) (changes : List Change) (value : Change → RawEntry)
    (distinct : (changes.map Change.index).Nodup) {change : Change} (member : change ∈ changes) :
    (disk.run (changes.map fun change => .edit change.index (value change))).entry change.index =
      value change := by
  induction changes generalizing disk with
  | nil => cases member
  | cons head changes ih =>
    rw [List.map_cons, List.nodup_cons] at distinct
    rw [List.map_cons, Disk.run, Medium.runSteps_cons]
    rcases List.mem_cons.mp member with rfl | later
    · refine (Disk.entry_run_other _ changes value fun other listed same => ?_).trans ?_
      · exact distinct.1 (List.mem_map.mpr ⟨other, listed, same⟩)
      · rw [Disk.entry_edit, if_pos rfl]
    · exact ih _ distinct.2 later

/-- The changes of a batch are of distinct entries. -/
theorem Batches.distinct {fs : ImageFs} (valid : fs.Valid) {op : Operation}
    {changes : List Change} (batches : Batches fs op changes) :
    (changes.map Change.index).Nodup := by
  have listed (f : File) : ((entriesOf fs.dir f).map DirSlot.index).Nodup := by
    rw [List.Nodup, List.pairwise_map]
    exact (valid.ordered.imp fun before => Nat.ne_of_lt before).filter _
  have plain (f : File) (edit : RawEntry → RawEntry) :
      ((changesOf (entriesOf fs.dir f) edit).map Change.index).Nodup := by
    rw [changesOf, List.map_map]
    exact listed f
  cases batches with
  | @delete f => exact plain f _
  | @rename f => exact plain f _
  | @setReadOnly f => exact plain f _
  | @truncate f records =>
    have sorted : ((extentsOf fs.dir f).map DirSlot.index).Nodup :=
      ((List.perm_insertionSort _ (entriesOf fs.dir f)).map _).nodup_iff.mpr (listed f)
    rw [List.Nodup, List.pairwise_map] at sorted ⊢
    rw [List.pairwise_filterMap]
    refine sorted.imp fun {left right} apart one changed other changed' => ?_
    rw [(truncateChange_some changed).1, (truncateChange_some changed').1]
    exact apart

/-- Every operation moves the medium by steps fair to a ledger that the state before it
respects, and leaves a state that respects a ledger. -/
theorem run_owned (valid : fs.Valid) (owned : fs.Owned start names) (op : Operation) :
    ∃ ledger used steps names', Image.Owned fs.fmt start ledger fs.disk fs.dir used ∧
      Moved fs.fmt fs.media (op.run fs).2.media steps ∧
      (∀ step ∈ steps, step.Fair fs.fmt start ledger) ∧
      (op.run fs).2.Owned start names' := by
  cases permission : fs.readOnly with
  | true =>
    obtain ⟨reason, ran⟩ := run_readOnly permission op
    rw [ran]
    exact ⟨names, fs.used, [], names, owned, .refl _, by simp, owned⟩
  | false =>
    have ran := run_ran valid permission op
    cases planned : planOf fs op with
    | refuse =>
      rw [planned] at ran
      obtain ⟨reason, media, ended, unwritten⟩ := ran
      rw [ended]
      have same : (fs.withMedia media).disk = fs.disk :=
        congrArg (diskOf fs.fmt) unwritten.contents
      refine ⟨names, fs.used, [], names, owned, unwritten.traced, by simp, ?_⟩
      rw [ImageFs.Owned, same]
      exact owned
    | idle =>
      rw [planned] at ran
      rw [show op.run fs = (.ok (), fs) from ran]
      exact ⟨names, fs.used, [], names, owned, .refl _, by simp, owned⟩
    | edit e =>
      rw [planned] at ran
      have edits := planOf_edit planned
      obtain ⟨ledger, claimed, fair, _⟩ := edits.ledger owned valid
      rcases ran with ⟨media, ended, moved⟩ | ⟨reason, media, j, used, ended, which, _, moved⟩
      · rw [ended]
        have after := claimed.run e.steps fair
        rw [← ImageFs.disk_moved moved] at after
        have entry := fair (.edit e.index e.raw) (List.mem_append_right _ (by simp))
        refine ⟨ledger, _, e.steps, ledger, claimed, moved, fair, ?_⟩
        have folded (blocks : List Nat) := after.insert valid.ordered entry blocks
        simp only [ImageFs.Owned, applyEntry, ImageFs.onto]
        split
        · exact folded _
        · exact folded []
      · rw [ended]
        have taken : ∀ step ∈ e.steps.take j, step ∈ e.steps := fun step => List.mem_of_mem_take
        rcases which with ⟨rfl, rfl⟩ | rfl
        · -- Nothing was written and nothing claimed.
          have same : diskOf fs.fmt media.contents = fs.disk := ImageFs.disk_moved moved
          refine ⟨names, fs.used, [], names, owned, moved, by simp, ?_⟩
          simp only [ImageFs.Owned, ImageFs.onto, ImageFs.disk, same]
          exact owned
        · have after := claimed.run (e.steps.take j) fun step member => fair step (taken step member)
          rw [← ImageFs.disk_moved moved] at after
          exact ⟨ledger, _, _, ledger, claimed, moved,
            fun step member => fair step (taken step member), after⟩
    | batch changes =>
      rw [planned] at ran
      have batches := planOf_batch planned
      obtain ⟨result, middle, steps, media, moved, each, _, _, unwritten, ended⟩ := ran
      have fair : ∀ step ∈ steps, step.Fair fs.fmt start names := by
        intro step member
        obtain ⟨change, listed, rfl | rfl⟩ := each step member
        · exact (batches.fair owned valid listed).1
        · exact (batches.fair owned valid listed).2
      have whole := moved.trans unwritten.traced
      rw [List.append_nil] at whole
      have after := owned.run steps fair
      rw [← ImageFs.disk_moved whole] at after
      rcases ended with ended | ⟨reason, ended, _⟩
      · rw [ended]
        exact ⟨names, fs.used, steps, _, owned, whole, fair, after.reload⟩
      · rw [ended]
        exact ⟨names, fs.used, steps, names, owned, whole, fair, after⟩

end Operations

/-! ## Runs -/

/-- Writes that took a medium from its start to where it is, the directory sound before the
first of them and after each. -/
def SoundlyWritten (fmt : Format) (start now : Media) : Prop :=
  ∃ writes, now.log = start.log ++ writes ∧
    now.contents = applyWrites writes start.contents ∧
    ∀ n, SoundDirectory fmt (diskOf fmt start.contents)
      (diskOf fmt (applyWrites (writes.take n) start.contents))

/-- Fair steps write soundly on. -/
theorem SoundlyWritten.trans {fmt : Format} {start now after : Media} {dir : List DirSlot}
    {used : List Bool} {ledger : Nat → Nat → Prop} {steps : List DiskStep}
    (before : SoundlyWritten fmt start now)
    (owned : Owned fmt (diskOf fmt start.contents) ledger (diskOf fmt now.contents) dir used)
    (moved : Moved fmt now after steps)
    (fair : ∀ step ∈ steps, step.Fair fmt (diskOf fmt start.contents) ledger) :
    SoundlyWritten fmt start after := by
  obtain ⟨writes, log, contents, each⟩ := before
  obtain ⟨more, log', contents', _, prefixes⟩ := moved.writes
  refine ⟨writes ++ more, ?_, ?_, fun n => ?_⟩
  · rw [log', log, List.append_assoc]
  · rw [contents', contents, applyWrites_append]
  · by_cases short : n ≤ writes.length
    · rw [List.take_append_of_le_length short]
      exact each n
    · obtain ⟨j, seen⟩ := prefixes (n - writes.length)
      rw [List.take_append, List.take_of_length_le (by omega), applyWrites_append, ← contents, seen]
      exact (owned.run (steps.take j) fun step member =>
        fair step (List.mem_of_mem_take member)).sound

/-- Every reachable state has a ledger, and its medium was written soundly all along. -/
theorem Reachable.owned {media : Media} {fmt : Format} (sound : fmt.Sound) {fs : ImageFs}
    (reachable : Reachable media fmt fs) :
    (∃ names, fs.Owned (diskOf fmt media.contents) names) ∧
      SoundlyWritten fmt media fs.media := by
  induction reachable with
  | mount mounted writable =>
    have found := mount_ok sound mounted
    have undamaged := (found.writable.mp writable).2
    rw [found.dir] at undamaged
    have owned := Owned.ofUndamaged undamaged
    have contents := found.unwritten.contents
    refine ⟨⟨Owned.mediumLedger fmt (diskOf fmt media.contents), ?_⟩, [],
      by simpa using found.unwritten.log, contents, fun n => ?_⟩
    · rw [ImageFs.Owned, ImageFs.disk, found.format, contents, found.used, found.foreign, found.dir]
      exact owned
    · rw [List.take_nil, applyWrites_nil]
      exact owned.sound
  | step before op ih =>
    obtain ⟨⟨names, owned⟩, written⟩ := ih
    obtain ⟨valid, format, _⟩ := before.kept sound
    obtain ⟨ledger, used, steps, names', carried, moved, fair, after⟩ := run_owned valid owned op
    refine ⟨⟨names', after⟩, ?_⟩
    rw [ImageFs.disk, format] at carried
    rw [format] at moved fair
    exact written.trans carried moved fair

/-- In every state reached from a writable mount of any image, by any operations and with any
of their media calls failing, with or without effect, the directory on the medium is sound, and
so it was after every single write on the way. -/
theorem reachable_directory_sound {fmt : Format} (listed : fmt ∈ formats) {media : Media}
    {fs : ImageFs} (reachable : Reachable media fmt fs) :
    SoundDirectory fmt (diskOf fmt media.contents) fs.disk ∧ SoundlyWritten fmt media fs.media := by
  have sound := formats_sound fmt listed
  obtain ⟨⟨names, owned⟩, written⟩ := reachable.owned sound
  refine ⟨?_, written⟩
  rw [ImageFs.Owned, (reachable.kept sound).2.1] at owned
  rw [ImageFs.disk, (reachable.kept sound).2.1] at owned ⊢
  exact owned.sound

/-- An erased `ibm3740` image mounts writable. -/
theorem reachable_erased : ∃ fs, Reachable (erasedMedia ibm3740 []) ibm3740 fs := by
  have sound := formats_sound ibm3740 (by simp [formats])
  obtain ⟨fs, mounted⟩ := mount_healthy sound (fun _ _ => rfl : (erasedMedia ibm3740 []).Healthy)
    (Nat.le_refl _) false
  have found := mount_ok sound mounted
  refine ⟨fs, .mount mounted (found.writable.mpr ⟨rfl, ?_⟩)⟩
  rw [found.dir, ← inconsistency_none_iff]
  decide +kernel

/-- The file `AAAAAAAA` of user 0. -/
def fileAs : File := ⟨0, fun _ => 0x41, fun _ => 0x20⟩

/-- An erased `ibm3740` image on which a file is created and grows by a block, and the flush of the
directory step fails when it grows by another. -/
def failingGrowth : Media :=
  { erasedMedia ibm3740 [] with
    outcomes := fun n => if n = 45 then .lost ⟨.other, "flush failed"⟩ else .done }

/-- The theorem at work: the directory is sound where memory lost the block the medium names. -/
theorem reachable_directory_sound_created :
    ∃ fs, Reachable failingGrowth ibm3740 fs ∧
      (decodeBlocks (fs.disk.entry 0) fs.params).take 3 = [2, 3, 0] ∧
      fs.dir.map (fun e => e.blocks.take 3) = [[2, 0, 0]] ∧
      SoundDirectory ibm3740 (diskOf ibm3740 failingGrowth.contents) fs.disk ∧
      SoundlyWritten ibm3740 failingGrowth fs.media := by
  have checked : mountsTo failingGrowth ibm3740 (fun fs =>
      let created := ((Operation.create fileAs).run fs).2
      let written := ((Operation.writeRecord fileAs 0 fun _ => 0x1A).run created).2
      let after := ((Operation.writeRecord fileAs 8 fun _ => 0x1A).run written).2
      (decodeBlocks (after.disk.entry 0) after.params).take 3 == [2, 3, 0] &&
        after.dir.map (fun e => e.blocks.take 3) == [[2, 0, 0]]) = true := by decide +kernel
  obtain ⟨fs, _, reachable, held⟩ := mountsTo_reachable checked
  rw [Bool.and_eq_true, beq_iff_eq, beq_iff_eq] at held
  have after := ((reachable.step (.create fileAs)).step
    (.writeRecord fileAs 0 fun _ => 0x1A)).step (.writeRecord fileAs 8 fun _ => 0x1A)
  exact ⟨_, after, held.1, held.2, reachable_directory_sound (by simp [formats]) after⟩

end EthernetGateway.Image
