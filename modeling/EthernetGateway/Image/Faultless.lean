import EthernetGateway.Image.Ownership

/-!
# Operations none of whose calls fail

When no call of an operation fails, what it does is its plan: the steps of the plan reach the
medium, all of them, and memory is again what a fresh mount of that medium would hold. A run
without a fault is therefore a run of plans on the directory of the medium alone.
-/

namespace EthernetGateway.Image

/-- Memory lists what a read of the directory would return. -/
def ImageFs.Synced (fs : ImageFs) : Prop := fs.dir = directoryOf fs.fmt fs.disk

/-- The foreign blocks and the bitmap are those a rebuild would compute. -/
structure ImageFs.Tight (fs : ImageFs) : Prop where
  /-- The foreign blocks are those of the medium. -/
  foreign : fs.foreign = foreignOf fs.fmt fs.disk
  /-- The bitmap is that of the lists. -/
  used : fs.used = bitmapOf fs.params fs.dir fs.foreign

/-- Everything a plan writes, in order. -/
def Plan.steps : Plan → List DiskStep
  | .refuse => []
  | .idle => []
  | .edit e => e.steps
  | .batch changes => changes.map fun change => .edit change.index change.new

/-! ## Bitmaps -/

/-- Bitmaps of one size that take the same blocks are equal. -/
theorem bitmap_ext {left right : List Bool} (size : left.length = right.length)
    (same : ∀ block < left.length, Taken left block ↔ Taken right block) : left = right := by
  refine List.ext_getElem size fun block inside there => ?_
  have both := same block inside
  simp only [Taken, List.getElem?_eq_getElem inside, List.getElem?_eq_getElem there,
    Option.some.injEq] at both
  cases one : left[block] <;> cases other : right[block] <;> simp_all

/-- Setting a flag takes that block and releases none. -/
theorem taken_set {used : List Bool} {claimed block : Nat} (inside : block < used.length) :
    Taken (used.set claimed true) block ↔ claimed = block ∨ Taken used block := by
  rw [Taken, List.getElem?_set]
  by_cases same : claimed = block
  · simp [same, inside]
  · simp [same, Taken]

/-- Marking takes the blocks marked, zero apart, and releases none. -/
theorem taken_markBlocks {used : List Bool} {blocks : List Nat} {block : Nat}
    (inside : block < used.length) :
    Taken (markBlocks used blocks) block ↔ (block ∈ blocks ∧ block ≠ 0) ∨ Taken used block := by
  rw [Taken, markBlocks_getElem?]
  by_cases marked : block ∈ blocks ∧ block ≠ 0
  · simp [marked.1, marked.2, inside]
  · rw [if_neg fun held => marked ⟨held.1, held.2.1⟩]
    simp [marked, Taken]

/-- The blocks the bitmap of a directory takes. -/
theorem taken_bitmapOf {params : Params} {dir : List DirSlot} {foreign : List Nat} {block : Nat}
    (known : block ≤ params.maxBlock) :
    Taken (bitmapOf params dir foreign) block ↔ block < params.dirBlocks ∨
      block ≠ 0 ∧ (block ∈ dir.flatMap DirSlot.blocks ∨ block ∈ foreign) := by
  rw [Taken, bitmapOf_getElem? _ _ _ known, Option.some.injEq, decide_eq_true_iff]

/-! ## Folding one entry in -/

section Folding

variable {fs : ImageFs}

/-- An entry of a memory that follows the medium is the medium's. -/
theorem ImageFs.Synced.entry (synced : fs.Synced) {e : DirSlot} (listed : e ∈ fs.dir) :
    e.index < fs.fmt.dirEntries ∧ fs.disk.entry e.index = e.raw ∧ e.raw.Live := by
  rw [show fs.dir = directoryOf fs.fmt fs.disk from synced] at listed
  obtain ⟨index, inside, live, rfl⟩ := mem_directoryOf.mp listed
  exact ⟨inside, rfl, live⟩

/-- A slot free on the medium holds no entry of a memory that follows it. -/
theorem ImageFs.Synced.vacant (synced : fs.Synced) {index : Nat}
    (free : freeOf fs.fmt fs.disk = some index) : ∀ e ∈ fs.dir, e.index ≠ index := by
  intro e listed same
  obtain ⟨_, entry, live⟩ := synced.entry listed
  have empty := (freeOf_some free).2.1
  rw [← same, entry, live.1] at empty
  cases empty

/-- The entry a write edits is one of the file's, or a new one in a free slot. -/
theorem planTarget_some {f : File} {base index : Nat} {raw : RawEntry}
    (target : planTarget fs f base = some (index, raw)) :
    (∃ e, entryFor fs.params fs.dir f base = some e ∧ e.index = index ∧ e.raw = raw) ∨
    (entryFor fs.params fs.dir f base = none ∧ freeOf fs.fmt fs.disk = some index ∧
      raw = newRawEntry f base) := by
  rw [planTarget] at target
  split at target
  · rename_i e found
    cases target
    exact .inl ⟨e, found, rfl, rfl⟩
  · rename_i none
    obtain ⟨free, found, equal⟩ := Option.map_eq_some_iff.mp target
    cases equal
    exact .inr ⟨none, found, rfl⟩

/-- An edit replaces a free entry or a live one. -/
theorem Edits.replaces (synced : fs.Synced) {op : Operation} {e : Edit} (edits : Edits fs op e) :
    (fs.disk.entry e.index).isFree = true ∨ (fs.disk.entry e.index).Live := by
  have started {f : File} {base index : Nat} {raw : RawEntry}
      (target : planTarget fs f base = some (index, raw)) :
      (fs.disk.entry index).isFree = true ∨ (fs.disk.entry index).Live := by
    rcases planTarget_some target with ⟨e, found, rfl, rfl⟩ | ⟨_, free, _⟩
    · obtain ⟨_, entry, live⟩ := synced.entry (entryFor_some found).1
      rw [entry]
      exact .inr live
    · exact .inl (freeOf_some free).2.1
  cases edits with
  | create _ _ free => exact .inl (freeOf_some free).2.1
  | fresh _ target _ _ => exact started target
  | owned _ target _ _ _ => exact started target

/-- An edit puts down a live entry, or one that names nothing and claims nothing. -/
theorem Edits.puts (valid : fs.Valid) {op : Operation} {e : Edit} (edits : Edits fs op e) :
    e.raw.Live ∨ e.claimed = none ∧ ∀ block ∈ mapNumbers fs.params e.raw.map, block = 0 := by
  cases edits with
  | @create f _ _ _ _ => exact .inr ⟨rfl, newRawEntry_numbers f 0 fs.params⟩
  | fresh there target _ _ => exact .inl (planEdit_live.mpr (valid.target_live there target))
  | owned there target _ _ _ => exact .inl (planEdit_live.mpr (valid.target_live there target))

/-- The entry an edit puts down names the block claimed for it and whatever its index named
before. -/
theorem Edits.widens (valid : fs.Valid) (synced : fs.Synced) {op : Operation} {e : Edit}
    (edits : Edits fs op e) :
    (∀ block, e.claimed = some block → block ∈ decodeBlocks e.raw fs.params ∧ block ≠ 0) ∧
    (∀ old ∈ fs.dir, old.index = e.index → ∀ block ∈ old.blocks,
      block = 0 ∨ block ∈ decodeBlocks e.raw fs.params) := by
  -- The map of the entry a write starts from is that of the entry at its index.
  have began {f : File} {base index : Nat} {raw : RawEntry}
      (target : planTarget fs f base = some (index, raw)) :
      ∀ old ∈ fs.dir, old.index = index → old.blocks = decodeBlocks raw fs.params := by
    intro old listed same
    rcases planTarget_some target with ⟨e, found, rfl, rfl⟩ | ⟨_, free, _⟩
    · have own := (entryFor_some found).1
      rw [valid.unique listed own same, (valid.listed e own).2.2]
      rfl
    · exact absurd same (synced.vacant free old listed)
  cases edits with
  | @create f index printable absent free =>
    exact ⟨by simp, fun old listed same => absurd same (synced.vacant free old listed)⟩
  | @fresh f record data index raw block there target slot free =>
    obtain ⟨low, high, _⟩ := freeBlock_some free
    have positive : block ≠ 0 := by
      have dir := valid.sound.dirBlocks_pos
      rw [ImageFs.params] at low
      omega
    have blocks := planEdit_blocks valid record data index raw block true fun _ => high
    rw [if_pos rfl] at blocks
    obtain ⟨inside, zero⟩ := List.getElem?_eq_some_iff.mp slot
    refine ⟨fun other same => ?_, fun old listed same other member => ?_⟩
    · cases same
      rw [blocks]
      exact ⟨List.mem_set inside block, positive⟩
    · rw [began target old listed same] at member
      rw [blocks]
      obtain ⟨i, within, rfl⟩ := List.getElem_of_mem member
      by_cases here : withinEntry fs.params record / fs.params.recordsPerBlock = i
      · subst here
        exact .inl zero
      · right
        rw [← List.getElem_set_ne here (by simpa using within)]
        exact List.getElem_mem _
  | @owned f record data index raw block there target slot positive known =>
    have blocks := planEdit_blocks valid record data index raw block false (by simp)
    rw [if_neg (by simp)] at blocks
    refine ⟨by simp [planEdit], fun old listed same other member => ?_⟩
    rw [blocks, ← began target old listed same]
    exact .inr member

/-- An edit of an entry that was free or live, by one that is live or names nothing, leaves the
foreign blocks. -/
theorem foreignOf_edit {fmt : Format} (disk : Disk) {index : Nat} {raw : RawEntry}
    (before : (disk.entry index).isFree = true ∨ (disk.entry index).Live)
    (after : raw.Live ∨ ∀ block ∈ mapNumbers (Params.derive fmt) raw.map, block = 0) :
    foreignOf fmt (DiskStep.apply (.edit index raw) disk) = foreignOf fmt disk := by
  have own (entry : RawEntry)
      (empty : entry.isFree = true ∨ entry.Live ∨
        ∀ block ∈ mapNumbers (Params.derive fmt) entry.map, block = 0) :
      (if entry.Live then [] else foreignBlocks entry (Params.derive fmt)) = [] := by
    split
    · rfl
    · rename_i dead
      rcases empty with free | live | zero
      · simp [foreignBlocks, free]
      · exact absurd live dead
      · rw [foreignBlocks]
        split
        · rfl
        · exact List.filter_eq_nil_iff.mpr fun block member => by simp [zero block member]
  apply List.flatMap_congr
  intro other _
  rw [Disk.entry_edit]
  split
  · rename_i same
    rw [own raw (.inr after), same, own _ (before.imp_right .inl)]
  · rfl

/-- Committing an entry that is listed marks its blocks. -/
theorem applyEntry_marks {index : Nat} {raw : RawEntry} {slot : DirSlot}
    (found : (insertEntry fs.dir index (parseEntry index raw fs.params)).find? (·.index = index) =
      some slot) :
    (applyEntry index raw fs).used = markBlocks fs.used slot.blocks := by
  rw [applyEntry]
  simp only [found]

/-- Committing an entry that is not listed leaves the bitmap alone. -/
theorem applyEntry_unmarked {index : Nat} {raw : RawEntry}
    (found : (insertEntry fs.dir index (parseEntry index raw fs.params)).find? (·.index = index) =
      none) :
    (applyEntry index raw fs).used = fs.used := by
  rw [applyEntry]
  simp only [found]

/-- The bitmap after an entry was folded in is that of the new list. -/
theorem applyEntry_bitmap (valid : fs.Valid) (tight : fs.Tight) {e : Edit}
    (widens : (∀ block, e.claimed = some block → block ∈ decodeBlocks e.raw fs.params ∧ block ≠ 0) ∧
      ∀ old ∈ fs.dir, old.index = e.index → ∀ block ∈ old.blocks,
        block = 0 ∨ block ∈ decodeBlocks e.raw fs.params)
    (puts : e.raw.Live ∨ e.claimed = none ∧ ∀ block ∈ decodeBlocks e.raw fs.params, block = 0)
    (media : Media) :
    (applyEntry e.index e.raw (fs.onto media (fs.marked e.claimed))).used =
      bitmapOf fs.params (insertEntry fs.dir e.index (parseEntry e.index e.raw fs.params))
        fs.foreign := by
  obtain ⟨claims, covers⟩ := widens
  let dir := insertEntry fs.dir e.index (parseEntry e.index e.raw fs.params)
  have listed {slot : DirSlot} : slot ∈ dir ↔ (slot ∈ fs.dir ∧ slot.index ≠ e.index) ∨
      parseEntry e.index e.raw fs.params = some slot := mem_insertEntry valid.ordered
  -- The blocks marked are those of the entry, when it is one.
  have marks : ∃ blocks, (applyEntry e.index e.raw (fs.onto media (fs.marked e.claimed))).used =
      markBlocks (fs.marked e.claimed) blocks ∧
      ∀ block ≠ 0, block ∈ blocks ↔ e.raw.Live ∧ block ∈ decodeBlocks e.raw fs.params := by
    cases found : dir.find? (·.index = e.index) with
    | some slot =>
      refine ⟨slot.blocks, applyEntry_marks found, fun block _ => ?_⟩
      have here := List.find?_some found
      simp only [decide_eq_true_eq] at here
      rcases listed.mp (List.mem_of_find?_eq_some found) with ⟨_, other⟩ | parsed
      · exact absurd here other
      · obtain ⟨live, rfl⟩ := parseEntry_some_iff.mp parsed
        exact ⟨fun member => ⟨live, member⟩, And.right⟩
    | none =>
      refine ⟨[], applyEntry_unmarked found, fun block _ => ⟨by simp, fun both => ?_⟩⟩
      have parsed : parseEntry e.index e.raw fs.params = some (e.raw.slot e.index fs.params) :=
        parseEntry_some_iff.mpr ⟨both.1, rfl⟩
      have absent := List.find?_eq_none.mp found _ (listed.mpr (.inr parsed))
      simp [RawEntry.slot] at absent
  obtain ⟨blocks, folded, marked⟩ := marks
  have sized := valid.sized
  rw [folded]
  refine bitmap_ext (by simp [sized]) fun block inside => ?_
  rw [markBlocks_length, ImageFs.marked_length, sized] at inside
  have known : block ≤ fs.params.maxBlock := by omega
  have before : Taken fs.used block ↔ block < fs.params.dirBlocks ∨
      block ≠ 0 ∧ (block ∈ fs.dir.flatMap DirSlot.blocks ∨ block ∈ fs.foreign) := by
    rw [tight.used, taken_bitmapOf known]
  have claimed : Taken (fs.marked e.claimed) block ↔
      e.claimed = some block ∨ Taken fs.used block := by
    cases chosen : e.claimed with
    | none => simp [ImageFs.marked]
    | some other =>
      rw [ImageFs.marked, taken_set (by omega), Option.some.injEq]
  have own : block ∈ dir.flatMap DirSlot.blocks ↔
      (∃ slot ∈ fs.dir, slot.index ≠ e.index ∧ block ∈ slot.blocks) ∨
        (e.raw.Live ∧ block ∈ decodeBlocks e.raw fs.params) := by
    simp only [List.mem_flatMap, listed, parseEntry_some_iff]
    constructor
    · rintro ⟨slot, ⟨member, other⟩ | ⟨live, rfl⟩, named⟩
      · exact .inl ⟨slot, member, other, named⟩
      · exact .inr ⟨live, named⟩
    · rintro (⟨slot, member, other, named⟩ | ⟨live, named⟩)
      · exact ⟨slot, .inl ⟨member, other⟩, named⟩
      · exact ⟨_, .inr ⟨live, rfl⟩, named⟩
  rw [taken_markBlocks (by rw [ImageFs.marked_length]; omega), claimed, before,
    taken_bitmapOf known, own, List.mem_flatMap]
  by_cases zero : block = 0
  · have unclaimed : e.claimed ≠ some 0 := fun same => (claims 0 same).2 rfl
    simp [zero, unclaimed]
  · have mark := marked block zero
    constructor
    · rintro (⟨member, _⟩ | same | low | ⟨_, ⟨slot, member, named⟩ | foreign⟩)
      · exact .inr ⟨zero, .inl (.inr (mark.mp member))⟩
      · have live := puts.resolve_right fun held => by rw [held.1] at same; cases same
        exact .inr ⟨zero, .inl (.inr ⟨live, (claims block same).1⟩)⟩
      · exact .inl low
      · by_cases here : slot.index = e.index
        · have still := (covers slot member here block named).resolve_left zero
          have live := puts.resolve_right fun held => zero (held.2 block still)
          exact .inr ⟨zero, .inl (.inr ⟨live, still⟩)⟩
        · exact .inr ⟨zero, .inl (.inl ⟨slot, member, here, named⟩)⟩
      · exact .inr ⟨zero, .inr foreign⟩
    · rintro (low | ⟨_, (⟨slot, member, _, named⟩ | held) | foreign⟩)
      · exact .inr (.inr (.inl low))
      · exact .inr (.inr (.inr ⟨zero, .inl ⟨slot, member, named⟩⟩))
      · exact .inl ⟨mark.mpr held, zero⟩
      · exact .inr (.inr (.inr ⟨zero, .inr foreign⟩))

/-- Folding the entry of an edit into the lists of the medium leaves those of the medium after
the edit. -/
theorem applyEntry_follows {start : Disk} {names : Nat → Nat → Prop}
    (owned : fs.Owned start names) (valid : fs.Valid) (synced : fs.Synced)
    {op : Operation} {e : Edit} (edits : Edits fs op e) {media : Media}
    (moved : Moved fs.fmt fs.media media e.steps) :
    (applyEntry e.index e.raw (fs.onto media (fs.marked e.claimed))).Synced ∧
      (fs.Tight → (applyEntry e.index e.raw (fs.onto media (fs.marked e.claimed))).Tight) := by
  have outside := edits.data_outside owned valid
  have inside := edits.inside valid
  have entries (index : Nat) (within : index < fs.fmt.dirEntries) :
      (fs.disk.run e.data).entry index = fs.disk.entry index :=
    Disk.entry_run_outside _ _ outside within
  have shown : diskOf fs.fmt media.contents =
      DiskStep.apply (.edit e.index e.raw) (fs.disk.run e.data) := by
    rw [ImageFs.disk_moved moved, Edit.steps, Disk.run, Medium.runSteps_append]
    rfl
  refine ⟨?_, fun tight => ?_⟩
  · change insertEntry fs.dir e.index (parseEntry e.index e.raw fs.params) =
      directoryOf fs.fmt (diskOf fs.fmt media.contents)
    rw [shown, directoryOf_edit _ inside, directoryOf_congr entries, synced.symm]
    rfl
  · have puts := edits.puts valid
    constructor
    · change fs.foreign = foreignOf fs.fmt (diskOf fs.fmt media.contents)
      rw [shown, foreignOf_edit _ (entries e.index inside ▸ edits.replaces synced)
        (puts.imp_right And.right), foreignOf_congr entries, tight.foreign]
    · exact applyEntry_bitmap valid tight (edits.widens valid synced)
        (puts.imp_right fun quiet => ⟨quiet.1, fun block member =>
          quiet.2 block (List.mem_of_mem_take member)⟩) media

/-! ## A run of an operation -/

/-- An operation none of whose calls failed made its plan, and memory follows the medium. -/
theorem run_faultless {start : Disk} {names : Nat → Nat → Prop} (owned : fs.Owned start names)
    (valid : fs.Valid) (writable : fs.readOnly = false) (synced : fs.Synced) (op : Operation)
    (faultless : ¬ Medium.Faulted fs.media (op.run fs).2.media) :
    Moved fs.fmt fs.media (op.run fs).2.media (planOf fs op).steps ∧ (op.run fs).2.Synced ∧
      (fs.Tight → (op.run fs).2.Tight) ∧
      ((op.run fs).1 = .ok () ↔ planOf fs op ≠ .refuse) := by
  have ran := run_ran valid writable op
  cases planned : planOf fs op with
  | refuse =>
    rw [planned] at ran
    obtain ⟨reason, media, ended, unwritten⟩ := ran
    have same : diskOf fs.fmt media.contents = fs.disk :=
      congrArg (diskOf fs.fmt) unwritten.contents
    rw [ended]
    refine ⟨unwritten.traced, ?_, fun tight => ⟨?_, tight.used⟩, by simp⟩
    · change fs.dir = directoryOf fs.fmt (diskOf fs.fmt media.contents)
      rw [same]
      exact synced
    · change fs.foreign = foreignOf fs.fmt (diskOf fs.fmt media.contents)
      rw [same]
      exact tight.foreign
  | idle =>
    rw [planned] at ran
    rw [show op.run fs = (.ok (), fs) from ran]
    exact ⟨.refl _, synced, id, by simp⟩
  | edit e =>
    rw [planned] at ran
    rcases ran with ⟨media, ended, moved⟩ | ⟨reason, media, j, used, ended, _, faulted, _⟩
    · rw [ended]
      obtain ⟨follows, tight⟩ := applyEntry_follows owned valid synced (planOf_edit planned) moved
      exact ⟨moved, follows, tight, by simp⟩
    · rw [ended] at faultless
      exact absurd faulted faultless
  | batch changes =>
    rw [planned] at ran
    obtain ⟨result, middle, steps, media, moved, _, all, failed, unwritten, ended⟩ := ran
    have ok : (op.run fs).2.media = media → result = .ok () := by
      intro same
      cases result with
      | ok _ => rfl
      | error reason =>
        rw [same] at faultless
        exact absurd ((failed reason rfl).extend unwritten.calls) faultless
    rcases ended with ended | ⟨reason, ended, faulted⟩
    · have went := ok (by rw [ended]; rfl)
      have whole := moved.trans unwritten.traced
      rw [List.append_nil, all went] at whole
      rw [ended]
      exact ⟨whole, rfl, fun _ => ⟨rfl, rfl⟩, by simp [went]⟩
    · rw [ended] at faultless
      exact absurd (faulted.precede moved.outcomes moved.calls) faultless

end Folding

/-! ## Runs -/

/-- The media of a run only ever move on. -/
theorem Reachable.onward {media : Media} {fmt : Format} (sound : fmt.Sound) {fs : ImageFs}
    (reachable : Reachable media fmt fs) :
    fs.media.outcomes = media.outcomes ∧ media.calls ≤ fs.media.calls := by
  induction reachable with
  | mount mounted writable =>
    have unwritten := (mount_ok sound mounted).unwritten
    exact ⟨unwritten.outcomes, unwritten.calls⟩
  | step before op ih =>
    obtain ⟨steps, moved⟩ := (run_kept (before.kept sound).1 op).moved
    exact ⟨moved.outcomes.trans ih.1, Nat.le_trans ih.2 moved.calls⟩

/-- In a run without a fault memory follows the medium, bitmap and all. -/
theorem Reachable.tight {media : Media} {fmt : Format} (sound : fmt.Sound) {fs : ImageFs}
    (reachable : Reachable media fmt fs) (faultless : ¬ Medium.Faulted media fs.media) :
    fs.Synced ∧ fs.Tight := by
  induction reachable with
  | mount mounted writable =>
    have found := mount_ok sound mounted
    have same : ∀ fs' : ImageFs, fs'.fmt = fmt → fs'.media.contents = media.contents →
        fs'.disk = diskOf fmt media.contents := fun fs' format contents => by
      rw [ImageFs.disk, format, contents]
    have shown := same _ found.format found.unwritten.contents
    refine ⟨?_, ?_, ?_⟩
    · rw [ImageFs.Synced, shown, found.format]
      exact found.dir
    · rw [shown, found.format]
      exact found.foreign
    · rw [ImageFs.params, found.format]
      exact found.used
  | @step fs before op ih =>
    obtain ⟨valid, _, writable⟩ := before.kept sound
    obtain ⟨⟨names, owned⟩, _⟩ := before.owned sound
    obtain ⟨steps, moved⟩ := (run_kept valid op).moved
    obtain ⟨outcomes, onward⟩ := before.onward sound
    obtain ⟨synced, tight⟩ := ih fun faulted => faultless (faulted.extend moved.calls)
    obtain ⟨_, synced', tight', _⟩ := run_faultless owned valid writable synced op fun faulted =>
      faultless (faulted.precede outcomes onward)
    exact ⟨synced', tight' tight⟩

end EthernetGateway.Image
