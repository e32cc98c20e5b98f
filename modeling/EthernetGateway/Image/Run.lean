import EthernetGateway.Image.Identify
import EthernetGateway.Image.Plan

/-!
# States an image filesystem can reach

Memory is kept in step with the medium in two ways: one entry folded into the ordered list, or
the whole directory read again. Both give the list of a store with that entry in it, and both
keep a state valid, so every state reached from a mount by any operations on any medium is
valid.
-/

namespace EthernetGateway.Image

/-! ## The list of entries -/

/-- Folding an entry into an ordered list replaces what stood at its index. -/
theorem insertEntry_eq (dir : List DirSlot) (index : Nat) (parsed : Option DirSlot)
    (ordered : dir.Pairwise fun left right => left.index < right.index) :
    insertEntry dir index parsed = dir.filter (fun e => decide (e.index < index)) ++
      parsed.toList ++ dir.filter (fun e => decide (index < e.index)) := by
  induction dir with
  | nil => cases parsed <;> simp [insertEntry]
  | cons e dir ih =>
    obtain ⟨above, ordered⟩ := List.pairwise_cons.mp ordered
    have rest := ih ordered
    rcases Nat.lt_trichotomy e.index index with before | here | after
    · -- The entry stands before the index: the tail is folded.
      have skip : insertEntry (e :: dir) index parsed = e :: insertEntry dir index parsed := by
        have notHere : ¬ e.index = index := by omega
        have notAbove : ¬ e.index > index := by omega
        simp only [insertEntry, List.findIdx?_cons, notHere, notAbove, decide_false,
          Bool.false_eq_true, ↓reduceIte]
        cases dir.findIdx? fun e => decide (e.index = index) with
        | some pos => cases parsed <;> rfl
        | none =>
          cases parsed with
          | none => rfl
          | some slot =>
            cases dir.findIdx? fun e => decide (e.index > index) with
            | some pos => rfl
            | none => rfl
      rw [skip, rest]
      simp [before, Nat.not_lt.mpr (Nat.le_of_lt before)]
    · -- The entry stands at the index: it is replaced or removed.
      have below : dir.filter (fun e => decide (e.index < index)) = [] :=
        List.filter_eq_nil_iff.mpr fun other member => by
          have bound := above other member
          simp only [decide_eq_true_eq]
          omega
      have beyond : dir.filter (fun e => decide (index < e.index)) = dir :=
        List.filter_eq_self.mpr fun other member => by
          have bound := above other member
          simp only [decide_eq_true_eq]
          omega
      simp only [insertEntry, List.findIdx?_cons, here, decide_true, ↓reduceIte,
        List.filter_cons, Nat.lt_irrefl, decide_false, Bool.false_eq_true, below, beyond,
        List.nil_append]
      cases parsed <;> rfl
    · -- Every entry stands past the index.
      have below : (e :: dir).filter (fun e => decide (e.index < index)) = [] :=
        List.filter_eq_nil_iff.mpr fun other member => by
          rcases List.mem_cons.mp member with rfl | member
          · simp only [decide_eq_true_eq]
            omega
          · have bound := above other member
            simp only [decide_eq_true_eq]
            omega
      have beyond : (e :: dir).filter (fun e => decide (index < e.index)) = e :: dir :=
        List.filter_eq_self.mpr fun other member => by
          rcases List.mem_cons.mp member with rfl | member
          · simpa using after
          · have bound := above other member
            simp only [decide_eq_true_eq]
            omega
      have absent : (e :: dir).findIdx? (fun e => decide (e.index = index)) = none :=
        List.findIdx?_eq_none_iff.mpr fun other member => by
          rcases List.mem_cons.mp member with rfl | member
          · simp only [decide_eq_false_iff_not]
            omega
          · have bound := above other member
            simp only [decide_eq_false_iff_not]
            omega
      rw [below, beyond]
      simp only [insertEntry, absent]
      cases parsed with
      | none => rfl
      | some slot => simp [List.findIdx?_cons, after]

/-- The entries of a list after one was folded in. -/
theorem mem_insertEntry {dir : List DirSlot} {index : Nat} {parsed : Option DirSlot}
    (ordered : dir.Pairwise fun left right => left.index < right.index) {e : DirSlot} :
    e ∈ insertEntry dir index parsed ↔ (e ∈ dir ∧ e.index ≠ index) ∨ parsed = some e := by
  rw [insertEntry_eq dir index parsed ordered]
  simp only [List.mem_append, List.mem_filter, decide_eq_true_eq, Option.mem_toList]
  constructor
  · rintro ((⟨member, before⟩ | same) | ⟨member, after⟩)
    · exact .inl ⟨member, by omega⟩
    · exact .inr same
    · exact .inl ⟨member, by omega⟩
  · rintro (⟨member, other⟩ | same)
    · rcases Nat.lt_or_gt_of_ne other with before | after
      · exact .inl (.inl ⟨member, before⟩)
      · exact .inr ⟨member, after⟩
    · exact .inl (.inr same)

/-- Folding an entry in keeps the order. -/
theorem insertEntry_ordered {dir : List DirSlot} {index : Nat} {parsed : Option DirSlot}
    (ordered : dir.Pairwise fun left right => left.index < right.index)
    (placed : ∀ e, parsed = some e → e.index = index) :
    (insertEntry dir index parsed).Pairwise fun left right => left.index < right.index := by
  rw [insertEntry_eq dir index parsed ordered]
  simp only [List.pairwise_append, List.mem_append, List.mem_filter, decide_eq_true_eq,
    Option.mem_toList]
  refine ⟨⟨ordered.filter _, ?_, ?_⟩, ordered.filter _, ?_⟩
  · cases parsed <;> simp
  · rintro left ⟨_, before⟩ right same
    rw [placed right same]
    exact before
  · rintro left (⟨_, before⟩ | same) right ⟨_, after⟩
    · omega
    · rw [placed left same]
      exact after

/-- Ordered lists with the same entries are the same list. -/
theorem ordered_ext {left right : List DirSlot}
    (one : left.Pairwise fun left right => left.index < right.index)
    (two : right.Pairwise fun left right => left.index < right.index)
    (same : ∀ e, e ∈ left ↔ e ∈ right) : left = right := by
  have distinct {list : List DirSlot}
      (ordered : list.Pairwise fun left right => left.index < right.index) : list.Nodup :=
    ordered.imp fun before same => by
      rw [same] at before
      exact Nat.lt_irrefl _ before
  have perm := (List.perm_ext_iff_of_nodup (distinct one) (distinct two)).mpr same
  exact perm.eq_of_pairwise (fun a b _ _ before after => absurd before (Nat.not_lt.mpr
    (Nat.le_of_lt after))) one two

/-- The list of a store is in directory order. -/
theorem directoryOf_ordered (fmt : Format) (disk : Disk) :
    (directoryOf fmt disk).Pairwise fun left right => left.index < right.index := by
  rw [directoryOf, List.pairwise_filterMap]
  refine List.pairwise_lt_range.imp fun {left right} before => ?_
  intro one parsed two parsed'
  rw [(parseEntry_some_iff.mp parsed).2, (parseEntry_some_iff.mp parsed').2]
  exact before

/-- The list of a store is one of parsed live entries. -/
theorem directoryOf_listed (fmt : Format) (disk : Disk) :
    ∀ e ∈ directoryOf fmt disk, e.index < fmt.dirEntries ∧ e.raw.Live ∧
      e = e.raw.slot e.index (Params.derive fmt) := by
  intro e member
  obtain ⟨index, inside, live, rfl⟩ := mem_directoryOf.mp member
  exact ⟨inside, live, rfl⟩

/-- Editing an entry of a store folds it into its list. -/
theorem directoryOf_edit {fmt : Format} (disk : Disk) {index : Nat}
    (inside : index < fmt.dirEntries) (raw : RawEntry) :
    directoryOf fmt (DiskStep.apply (.edit index raw) disk) =
      insertEntry (directoryOf fmt disk) index (parseEntry index raw (Params.derive fmt)) := by
  have ordered := directoryOf_ordered fmt disk
  apply ordered_ext (directoryOf_ordered fmt _)
  · refine insertEntry_ordered ordered fun e parsed => ?_
    rw [(parseEntry_some_iff.mp parsed).2]
    rfl
  · intro e
    rw [mem_insertEntry ordered, mem_directoryOf, mem_directoryOf, parseEntry_some_iff]
    simp only [Disk.entry_edit]
    constructor
    · rintro ⟨place, here, live, rfl⟩
      by_cases same : place = index
      · simp only [same, ↓reduceIte] at live ⊢
        exact .inr ⟨live, trivial⟩
      · simp only [same, ↓reduceIte] at live ⊢
        exact .inl ⟨⟨place, here, live, rfl⟩, same⟩
    · rintro (⟨⟨place, here, live, rfl⟩, other⟩ | ⟨live, rfl⟩)
      · have apart : place ≠ index := other
        exact ⟨place, here, by rwa [if_neg apart], by rw [if_neg apart]⟩
      · exact ⟨index, inside, by rwa [if_pos rfl], by rw [if_pos rfl]⟩

/-! ## The bitmap -/

/-- A block the bitmap keeps from being claimed. -/
def Taken (used : List Bool) (block : Nat) : Prop := used[block]? = some true

@[simp] theorem markBlocks_length (used : List Bool) (blocks : List Nat) :
    (markBlocks used blocks).length = used.length := by
  induction blocks generalizing used with
  | nil => rfl
  | cons block blocks ih =>
    rw [markBlocks, List.foldl_cons]
    refine (ih _).trans ?_
    split <;> simp

/-- Marking takes the blocks marked and releases none. -/
theorem markBlocks_getElem? (used : List Bool) (blocks : List Nat) (block : Nat) :
    (markBlocks used blocks)[block]? =
      if block ∈ blocks ∧ block ≠ 0 ∧ block < used.length then some true else used[block]? := by
  induction blocks generalizing used with
  | nil => simp [markBlocks]
  | cons head blocks ih =>
    rw [markBlocks, List.foldl_cons]
    change (markBlocks _ blocks)[block]? = _
    rw [ih]
    by_cases zero : head = 0
    · simp only [zero, ne_eq, not_true_eq_false, ↓reduceIte, List.mem_cons]
      congr 1
      simp only [eq_iff_iff]
      constructor
      · rintro ⟨member, rest⟩
        exact ⟨.inr member, rest⟩
      · rintro ⟨rfl | member, rest⟩
        · exact absurd rfl rest.1
        · exact ⟨member, rest⟩
    · simp only [zero, ne_eq, not_false_eq_true, ↓reduceIte, List.length_set, List.mem_cons,
        List.getElem?_set]
      by_cases same : head = block
      · subst same
        by_cases inside : head < used.length <;> simp [inside, zero]
      · simp [same, Ne.symm same]

theorem Taken.markBlocks {used : List Bool} {block : Nat} (taken : Taken used block)
    (blocks : List Nat) : Taken (markBlocks used blocks) block := by
  rw [Taken, markBlocks_getElem?]
  split
  · rfl
  · exact taken

theorem Taken.set {used : List Bool} {block : Nat} (taken : Taken used block) (other : Nat) :
    Taken (used.set other true) block := by
  rw [Taken, List.getElem?_set]
  split
  · rename_i same
    have inside : block < used.length := by
      by_contra outside
      rw [Taken, List.getElem?_eq_none (Nat.not_lt.mp outside)] at taken
      cases taken
    rw [if_pos (same ▸ inside)]
  · exact taken

@[simp] theorem bitmapOf_length (params : Params) (dir : List DirSlot) (foreign : List Nat) :
    (bitmapOf params dir foreign).length = params.maxBlock + 1 := by
  have fold (blocks : List Nat) (used : List Bool) :
      (blocks.foldl (fun used block => used.set block true) used).length = used.length := by
    induction blocks generalizing used with
    | nil => rfl
    | cons block blocks ih => rw [List.foldl_cons, ih, List.length_set]
  rw [bitmapOf, markBlocks_length, fold, List.length_replicate]

/-- The bitmap of a directory takes the directory's own blocks and those named, by files and
by foreign entries. -/
theorem bitmapOf_getElem? (params : Params) (dir : List DirSlot) (foreign : List Nat)
    {block : Nat} (known : block ≤ params.maxBlock) :
    (bitmapOf params dir foreign)[block]? = some (decide (block < params.dirBlocks ∨
      block ≠ 0 ∧ (block ∈ dir.flatMap DirSlot.blocks ∨ block ∈ foreign))) := by
  have fold (n : Nat) (used : List Bool) :
      ((List.range n).foldl (fun used block => used.set block true) used)[block]? =
        if block < n ∧ block < used.length then some true else used[block]? := by
    induction n with
    | zero => simp
    | succ n ih =>
      have length : ((List.range n).foldl (fun used block => used.set block true) used).length =
          used.length := by
        clear ih
        induction n with
        | zero => rfl
        | succ n ih => rw [List.range_succ, List.foldl_append, List.foldl_cons, List.foldl_nil,
            List.length_set, ih]
      rw [List.range_succ, List.foldl_append, List.foldl_cons, List.foldl_nil, List.getElem?_set,
        length, ih]
      by_cases same : n = block
      · subst same
        by_cases inside : n < used.length <;> simp [inside]
      · have bounds : block < n + 1 ↔ block < n := by omega
        simp [same, bounds]
  have ownLength : ((List.range (min params.dirBlocks
      (List.replicate (params.maxBlock + 1) false).length)).foldl
        (fun used block => used.set block true)
        (List.replicate (params.maxBlock + 1) false)).length = params.maxBlock + 1 := by
    have whole := bitmapOf_length params [] []
    simpa [bitmapOf, markBlocks] using whole
  rw [bitmapOf, markBlocks_getElem?, ownLength, fold, List.length_replicate,
    List.getElem?_replicate]
  have inside : block < params.maxBlock + 1 := by omega
  simp only [List.mem_append, inside, and_true, ↓reduceIte, Nat.lt_min]
  by_cases named : (block ∈ dir.flatMap DirSlot.blocks ∨ block ∈ foreign) ∧ block ≠ 0
  · rw [if_pos named, decide_eq_true (.inr named.symm)]
  · rw [if_neg named]
    by_cases own : block < params.dirBlocks
    · simp [own]
    · have out : ¬ (block ≠ 0 ∧ (block ∈ dir.flatMap DirSlot.blocks ∨ block ∈ foreign)) :=
        fun held => named held.symm
      rw [if_neg own, decide_eq_false fun held => held.elim own out]

/-! ## What the operations do to the map of an entry -/

/-- Two entries with one map name the same blocks. -/
theorem decodeBlocks_congr {left right : RawEntry} (params : Params)
    (same : left.map = right.map) : decodeBlocks left params = decodeBlocks right params := by
  rw [decodeBlocks, decodeBlocks, same]

/-- The map of a new entry is zero. -/
theorem newRawEntry_numbers (f : File) (extent : Nat) (params : Params) :
    ∀ block ∈ mapNumbers params (newRawEntry f extent).map, block = 0 := by
  intro block listed
  rw [mapNumbers] at listed
  split at listed
  · obtain ⟨i, rfl⟩ := List.mem_ofFn.mp listed
    rfl
  · obtain ⟨i, rfl⟩ := List.mem_ofFn.mp listed
    rfl

/-- A new entry names no block. -/
theorem newRawEntry_blocks (f : File) (extent : Nat) (params : Params) :
    ∀ block ∈ decodeBlocks (newRawEntry f extent) params, block = 0 := fun block member =>
  newRawEntry_numbers f extent params block (List.mem_of_mem_take member)

@[simp] theorem RawEntry.grown_map (raw : RawEntry) (params : Params) (base within : Nat) :
    (raw.grown params base within).map = raw.map := by
  simp only [RawEntry.grown]
  split <;> rfl

@[simp] theorem RawEntry.grown_user (raw : RawEntry) (params : Params) (base within : Nat) :
    (raw.grown params base within).user = raw.user := by
  simp only [RawEntry.grown]
  split <;> rfl

@[simp] theorem RawEntry.grown_name (raw : RawEntry) (params : Params) (base within : Nat) :
    (raw.grown params base within).name = raw.name := by
  simp only [RawEntry.grown]
  split <;> rfl

@[simp] theorem RawEntry.grown_ext (raw : RawEntry) (params : Params) (base within : Nat) :
    (raw.grown params base within).ext = raw.ext := by
  simp only [RawEntry.grown]
  split <;> rfl

/-- The entry a write puts down is live when the entry it edits is. -/
theorem planEdit_live {fs : ImageFs} {record : Nat} {data : Record} {index : Nat} {raw : RawEntry}
    {block : Nat} {fresh : Bool} :
    (planEdit fs record data index raw block fresh).raw.Live ↔ raw.Live :=
  RawEntry.live_congr (by simp [planEdit, encodeBlocks]) (by simp [planEdit, encodeBlocks])
    (by simp [planEdit, encodeBlocks])

/-- Numbers read from a map fit its width. -/
theorem decodeBlocks_fits (raw : RawEntry) (params : Params) :
    (params.wideBlocks = true → ∀ block ∈ decodeBlocks raw params, block < 65536) ∧
    (params.wideBlocks = false → ∀ block ∈ decodeBlocks raw params, block < 256) := by
  constructor
  · intro width block member
    have listed := List.mem_of_mem_take member
    rw [mapNumbers, if_pos width] at listed
    obtain ⟨i, rfl⟩ := List.mem_ofFn.mp listed
    have low := (raw.map ⟨2 * i, by omega⟩).toNat_lt
    have high := (raw.map ⟨2 * i + 1, by omega⟩).toNat_lt
    omega
  · intro width block member
    have listed := List.mem_of_mem_take member
    rw [mapNumbers, if_neg (by simp [width])] at listed
    obtain ⟨i, rfl⟩ := List.mem_ofFn.mp listed
    exact (raw.map i).toNat_lt

/-- A full set of numbers of the disk or of the map itself is written and read back. -/
theorem decodeBlocks_encode {fmt : Format} (sound : fmt.Sound) (raw : RawEntry)
    (blocks : List Nat) (length : blocks.length = (Params.derive fmt).mapSlots)
    (known : ∀ block ∈ blocks, block ∈ decodeBlocks raw (Params.derive fmt) ∨
      block ≤ (Params.derive fmt).maxBlock) :
    decodeBlocks (encodeBlocks raw blocks (Params.derive fmt)) (Params.derive fmt) = blocks := by
  have fits := decodeBlocks_fits raw (Params.derive fmt)
  have width := sound.width
  have numbers := sound.numbers
  refine decodeBlocks_encodeBlocks raw blocks _ sound.slots.2 length ?_ ?_
  · intro wide block member
    rcases known block member with own | small
    · exact fits.1 wide block own
    · omega
  · intro narrow block member
    rcases known block member with own | small
    · exact fits.2 narrow block own
    · rw [narrow, eq_comm, decide_eq_false_iff_not] at width
      omega

/-- The map of the entry an edit writes: the claimed block in its slot, or the map as it was. -/
theorem planEdit_blocks {fs : ImageFs} (valid : fs.Valid) (record : Nat) (data : Record)
    (index : Nat) (raw : RawEntry) (block : Nat) (fresh : Bool)
    (known : fresh = true → block ≤ fs.params.maxBlock) :
    decodeBlocks (planEdit fs record data index raw block fresh).raw fs.params =
      if fresh then (decodeBlocks raw fs.params).set
        (withinEntry fs.params record / fs.params.recordsPerBlock) block
      else decodeBlocks raw fs.params := by
  have length := decodeBlocks_length raw fs.params valid.sound.slots.2
  rw [planEdit, decodeBlocks_congr fs.params (RawEntry.grown_map _ _ _ _)]
  cases fresh with
  | true =>
    refine decodeBlocks_encode valid.sound raw _ (by rw [if_pos rfl, List.length_set]; exact length)
      fun other member => ?_
    rcases List.mem_or_eq_of_mem_set member with own | rfl
    · exact .inl own
    · exact .inr (known rfl)
  | false => exact decodeBlocks_encode valid.sound raw _ length fun other member => .inl member

/-- The map of a cut entry: its first slots kept, the others zeroed. -/
theorem cut_blocks {fmt : Format} (sound : fmt.Sound) (raw : RawEntry) (keep : Nat) :
    decodeBlocks (raw.cut (Params.derive fmt) keep) (Params.derive fmt) =
      (decodeBlocks raw (Params.derive fmt)).take ((Params.derive fmt).blocksFor keep) ++
        ((decodeBlocks raw (Params.derive fmt)).drop ((Params.derive fmt).blocksFor keep)).map
          fun _ => 0 := by
  have length := decodeBlocks_length raw (Params.derive fmt) sound.slots.2
  rw [RawEntry.cut]
  refine decodeBlocks_encode sound _ _ ?_ fun block member => ?_
  · rw [List.length_append, List.length_map, ← List.length_append, List.take_append_drop]
    exact length
  · rcases List.mem_append.mp member with kept | zeroed
    · exact .inl (List.mem_of_mem_take kept)
    · obtain ⟨_, _, rfl⟩ := List.mem_map.mp zeroed
      exact .inr (Nat.zero_le _)

/-- A cut entry names a part of what it named. -/
theorem cut_named_sublist {fmt : Format} (sound : fmt.Sound) (raw : RawEntry) (keep : Nat) :
    ((raw.cut (Params.derive fmt) keep).named (Params.derive fmt)).Sublist
      (raw.named (Params.derive fmt)) := by
  have zeroed (list : List Nat) : (list.map fun _ => 0).filter (· ≠ 0) = [] :=
    List.filter_eq_nil_iff.mpr fun block member => by
      obtain ⟨_, _, rfl⟩ := List.mem_map.mp member
      simp
  rw [RawEntry.named, cut_blocks sound, List.filter_append, zeroed, List.append_nil]
  exact (List.take_sublist _ _).filter _

/-! ## Validity -/

namespace ImageFs.Valid

variable {fs : ImageFs}

/-- Folding an entry of the directory into memory keeps a filesystem valid. -/
theorem applyEntry (valid : fs.Valid) {index : Nat} (inside : index < fs.fmt.dirEntries)
    (raw : RawEntry) : (applyEntry index raw fs).Valid := by
  refine ⟨valid.sound, valid.long, ?_, ?_, ?_⟩
  · have sized := valid.sized
    simp only [Image.applyEntry]
    split
    · rw [markBlocks_length]
      exact sized
    · exact sized
  · intro e member
    rcases (mem_insertEntry valid.ordered).mp member with ⟨listed, _⟩ | parsed
    · exact valid.listed e listed
    · obtain ⟨live, rfl⟩ := parseEntry_some_iff.mp parsed
      exact ⟨inside, live, rfl⟩
  · refine insertEntry_ordered valid.ordered fun e parsed => ?_
    rw [(parseEntry_some_iff.mp parsed).2]
    rfl

/-- Two entries of the list at one index are the same. -/
theorem unique (valid : fs.Valid) {left right : DirSlot} (one : left ∈ fs.dir)
    (two : right ∈ fs.dir) (same : left.index = right.index) : left = right := by
  by_contra different
  have symmetric : Std.Symm fun left right : DirSlot => left.index ≠ right.index :=
    ⟨fun _ _ apart => apart.symm⟩
  exact (valid.ordered.imp fun before => Nat.ne_of_lt before).forall one two different same

/-- A file that exists has a live entry in the list. -/
theorem exists_entry (valid : fs.Valid) {f : File} (there : existsFile fs.dir f = true) :
    ∃ e ∈ fs.dir, e.file = f ∧ e.raw.Live := by
  have some : extentsOf fs.dir f ≠ [] := by simpa [existsFile] using there
  obtain ⟨e, member⟩ := List.exists_mem_of_ne_nil _ some
  obtain ⟨listed, file⟩ := mem_extentsOf.mp member
  exact ⟨e, listed, file, (valid.listed e listed).2.1⟩

/-- The entry a write edits is live. -/
theorem target_live (valid : fs.Valid) {f : File} (there : existsFile fs.dir f = true)
    {base index : Nat} {raw : RawEntry} (target : planTarget fs f base = some (index, raw)) :
    raw.Live := by
  rw [planTarget] at target
  split at target
  · rename_i e found
    cases target
    exact (valid.listed e (entryFor_some found).1).2.1
  · obtain ⟨free, _, same⟩ := Option.map_eq_some_iff.mp target
    cases same
    obtain ⟨e, listed, rfl, live⟩ := valid.exists_entry there
    rw [RawEntry.live_iff] at live ⊢
    rw [(valid.listed e listed).2.2]
    refine ⟨live.1, fun i => ?_, fun i => ?_⟩
    · change printable (e.raw.name i &&& 0x7F &&& 0x7F) = true
      rw [UInt8.and_assoc]
      exact live.2.1 i
    · change printable (e.raw.ext i &&& 0x7F &&& 0x7F) = true
      rw [UInt8.and_assoc]
      exact live.2.2 i

/-- Reading the directory again keeps a filesystem valid. -/
theorem reloaded (valid : fs.Valid) {media : Media} (length : media.length = fs.media.length) :
    (fs.reloaded media).Valid :=
  ⟨valid.sound, by simpa [ImageFs.reloaded, rebuildBitmap, length] using valid.long,
    bitmapOf_length _ _ _, directoryOf_listed _ _, directoryOf_ordered _ _⟩

end ImageFs.Valid

/-- A mount is valid. -/
theorem Mounted.valid {media : Media} {fmt : Format} {readOnly : Bool} {fs : ImageFs}
    (mounted : Mounted media fmt readOnly fs) (sound : fmt.Sound) : fs.Valid := by
  obtain ⟨long, unwritten, rfl, dir, foreign, used, _⟩ := mounted
  refine ⟨sound, by rwa [unwritten.length], ?_, ?_, ?_⟩
  · rw [used, bitmapOf_length]
    rfl
  · rw [dir]
    exact directoryOf_listed _ _
  · rw [dir]
    exact directoryOf_ordered _ _

/-- What no operation changes: the format, the write permission and the length of the image;
and the state stays valid. -/
structure Kept (fs after : ImageFs) : Prop where
  /-- The format stays. -/
  fmt : after.fmt = fs.fmt
  /-- The write permission stays. -/
  readOnly : after.readOnly = fs.readOnly
  /-- The medium only moved on. -/
  moved : ∃ steps, Moved fs.fmt fs.media after.media steps
  /-- The state is valid. -/
  valid : after.Valid

/-- A read-only mount runs no operation. -/
theorem run_readOnly {fs : ImageFs} (readOnly : fs.readOnly = true) (op : Operation) :
    ∃ reason, op.run fs = (.error reason, fs) := by
  obtain ⟨reason, refused⟩ := checkWritable_refuses readOnly
  refine ⟨reason, ?_⟩
  have dropped {α : Type} {program : FsM α} (ran : program fs = (.error reason, fs)) :
      (do let _ ← program : FsM Unit) fs = (.error reason, fs) := Fallible.bind_error ran _
  cases op with
  | create f => exact Fallible.bind_error (Fallible.bind_error refused _) _
  | writeRecord f record data => exact Fallible.bind_error (Fallible.bind_error refused _) _
  | delete f => exact dropped (Fallible.bind_error refused _)
  | rename f name ext => exact dropped (Fallible.bind_error refused _)
  | setReadOnly f ro => exact dropped (Fallible.bind_error refused _)
  | truncate f records => exact dropped (Fallible.bind_error refused _)

/-- Every operation keeps a state valid, whatever the medium does. -/
theorem run_kept {fs : ImageFs} (valid : fs.Valid) (op : Operation) :
    Kept fs (op.run fs).2 := by
  cases permission : fs.readOnly with
  | true =>
    obtain ⟨reason, ran⟩ := run_readOnly permission op
    rw [ran]
    exact ⟨rfl, rfl, ⟨[], .refl _⟩, valid⟩
  | false =>
    have ran := run_ran valid permission op
    cases planned : planOf fs op with
    | refuse =>
      rw [planned] at ran
      obtain ⟨reason, media, ended, unwritten⟩ := ran
      rw [ended]
      exact ⟨rfl, rfl, ⟨[], unwritten.traced⟩, valid.withMedia unwritten.length⟩
    | idle =>
      rw [planned] at ran
      rw [show op.run fs = (.ok (), fs) from ran]
      exact ⟨rfl, rfl, ⟨[], .refl _⟩, valid⟩
    | edit e =>
      rw [planned] at ran
      have inside := (planOf_edit planned).inside valid
      rcases ran with ⟨media, ended, moved⟩ | ⟨reason, media, j, used, ended, which, _, moved⟩
      · rw [ended]
        have middle := valid.onto moved.length (fs.marked_length e.claimed)
        exact ⟨rfl, rfl, ⟨_, moved⟩, middle.applyEntry inside e.raw⟩
      · rw [ended]
        have sized : used.length = fs.used.length := by
          rcases which with ⟨rfl, _⟩ | rfl <;> simp
        exact ⟨rfl, rfl, ⟨_, moved⟩, valid.onto moved.length sized⟩
    | batch changes =>
      rw [planned] at ran
      obtain ⟨result, middle, steps, media, moved, _, _, _, unwritten, ended⟩ := ran
      have whole := moved.trans unwritten.traced
      rcases ended with ended | ⟨reason, ended, _⟩
      · rw [ended]
        exact ⟨rfl, rfl, ⟨_, whole⟩, valid.reloaded whole.length⟩
      · rw [ended]
        exact ⟨rfl, rfl, ⟨_, whole⟩, valid.withMedia whole.length⟩

/-- The states reached from a mount that was asked to write and stayed writable, by any
operations, on whatever the medium's script makes of their calls. -/
inductive Reachable (media : Media) (fmt : Format) : ImageFs → Prop
  | mount {fs : ImageFs} (mounted : mount media fmt false = .ok fs)
      (writable : fs.readOnly = false) : Reachable media fmt fs
  | step {fs : ImageFs} (before : Reachable media fmt fs) (op : Operation) :
      Reachable media fmt (op.run fs).2

/-- What every reachable state keeps. -/
theorem Reachable.kept {media : Media} {fmt : Format} (sound : fmt.Sound) {fs : ImageFs}
    (reachable : Reachable media fmt fs) :
    fs.Valid ∧ fs.fmt = fmt ∧ fs.readOnly = false := by
  induction reachable with
  | mount mounted writable =>
    have found := mount_ok sound mounted
    exact ⟨found.valid sound, found.format, writable⟩
  | step before op ih =>
    obtain ⟨valid, format, writable⟩ := ih
    have kept := run_kept valid op
    exact ⟨kept.valid, kept.fmt.trans format, kept.readOnly.trans writable⟩

/-- A check of the state that a writable mount of an image returns. -/
def mountsTo (media : Media) (fmt : Format) (check : ImageFs → Bool) : Bool :=
  match mount media fmt false with
  | .ok fs => !fs.readOnly && check fs
  | .error _ => false

/-- A check that holds is about a reachable state. -/
theorem mountsTo_reachable {media : Media} {fmt : Format} {check : ImageFs → Bool}
    (held : mountsTo media fmt check = true) :
    ∃ fs, mount media fmt false = .ok fs ∧ Reachable media fmt fs ∧ check fs = true := by
  rw [mountsTo] at held
  cases mounted : mount media fmt false with
  | error reason =>
    rw [mounted] at held
    cases held
  | ok fs =>
    rw [mounted] at held
    simp only [Bool.and_eq_true, Bool.not_eq_true'] at held
    exact ⟨fs, rfl, .mount mounted held.1, held.2⟩

end EthernetGateway.Image
