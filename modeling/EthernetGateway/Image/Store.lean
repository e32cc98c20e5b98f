import EthernetGateway.Image.AllOrNothing
import EthernetGateway.Image.Frame

/-!
# An image as a store of records

What the operations are for: a file is a set of numbered records, and reading a record returns
what was last written to it. The abstract store knows files and record numbers only, and each
operation has its effect on it. On a medium without faults every state an image reaches holds
what the store holds, through extents, allocation maps, blocks and skew.
-/

namespace EthernetGateway.Image

/-- What was written and not removed since, by file and record number. -/
abbrev Store := File → Nat → Option Record

/-- The effect an operation that ended well has on a store. -/
def Operation.effect (store : Store) : Operation → Store
  | .create _ => store
  | .writeRecord f record data => fun g r => if g = f ∧ r = record then some data else store g r
  | .delete f => fun g r => if g = f then none else store g r
  | .rename f name ext => fun g r =>
    if g = ⟨f.user, name, ext⟩ then store f r else if g = f then none else store g r
  | .setReadOnly _ _ => store
  | .truncate f records => fun g r => if g = f ∧ records ≤ r then none else store g r

/-- The directory and the records of a medium hold what a store holds. -/
def Reflects (fmt : Format) (disk : Disk) (store : Store) : Prop :=
  ∀ f record data, store f record = some data → Holds fmt disk f record data

/-! ## Locations -/

section Locations

variable {fmt : Format} {left right : Disk} {f g : File} {record index block : Nat}

/-- A location survives in an entry of the same group and slot that counts its record. -/
theorem Located.carry (located : Located fmt left f record index block)
    (own : (right.entry index).Of g)
    (group : (right.entry index).group (Params.derive fmt) =
      (left.entry index).group (Params.derive fmt))
    (covered : withinEntry (Params.derive fmt) record <
      (right.entry index).count (Params.derive fmt))
    (slot : (decodeBlocks (right.entry index) (Params.derive fmt))[withinEntry (Params.derive fmt)
      record / (Params.derive fmt).recordsPerBlock]? = some block) :
    Located fmt right g record index block :=
  ⟨located.inside, own, group.trans located.group, covered, slot, located.positive⟩

/-- A location survives where its entry does. -/
theorem Located.keep (located : Located fmt left f record index block)
    (same : right.entry index = left.entry index) : Located fmt right f record index block :=
  located.carry (same ▸ located.own) (by rw [same]) (same ▸ located.covered)
    (same ▸ located.slot)

/-- Files that are different after a map of files that keeps them apart, in the same groups, are
grouped. -/
theorem Grouped.map (grouped : Grouped fmt left) (move : File → File)
    (apart : ∀ i < fmt.dirEntries, ∀ j < fmt.dirEntries, (left.entry i).Live → (left.entry j).Live →
      move (left.entry i).file = move (left.entry j).file →
      (left.entry i).file = (left.entry j).file)
    (each : ∀ i < fmt.dirEntries, (right.entry i).Live → (left.entry i).Live ∧
      (right.entry i).rc ≤ 128 ∧
      (right.entry i).group (Params.derive fmt) = (left.entry i).group (Params.derive fmt) ∧
      (right.entry i).file = move (left.entry i).file) : Grouped fmt right := by
  refine ⟨fun i inside live => (each i inside live).2.1, ?_⟩
  intro i hi j hj liveI liveJ file group
  obtain ⟨wasI, _, groupI, fileI⟩ := each i hi liveI
  obtain ⟨wasJ, _, groupJ, fileJ⟩ := each j hj liveJ
  exact grouped.apart i hi j hj wasI wasJ
    (apart i hi j hj wasI wasJ (fileI.symm.trans (file.trans fileJ)))
    (groupI.symm.trans (group.trans groupJ))

end Locations

/-! ## Writing -/

/-- What zeroing records of a block leaves. -/
theorem Disk.run_zeroSteps (disk : Disk) (fmt : Format) (block : Nat) (records : List Nat)
    (record : Nat) :
    disk.run (zeroSteps fmt block records) record =
      if ∃ offset ∈ records, record = fmt.blockRecord block offset then fun _ => 0
      else disk record := by
  induction records generalizing disk with
  | nil => simp [zeroSteps]
  | cons offset records ih =>
    have unfold : disk.run (zeroSteps fmt block (offset :: records)) =
        (Disk.run (DiskStep.apply (.write (fmt.blockRecord block offset) fun _ => 0) disk)
          (zeroSteps fmt block records)) := rfl
    rw [unfold, ih, DiskStep.write_apply]
    by_cases later : ∃ offset ∈ records, record = fmt.blockRecord block offset
    · obtain ⟨other, member, same⟩ := later
      rw [if_pos ⟨other, member, same⟩, if_pos ⟨other, List.mem_cons_of_mem _ member, same⟩]
    · rw [if_neg later]
      by_cases here : record = fmt.blockRecord block offset
      · rw [if_pos here, if_pos ⟨offset, List.mem_cons_self, here⟩]
      · rw [if_neg here, if_neg]
        rintro ⟨other, member, same⟩
        rcases List.mem_cons.mp member with rfl | member
        · exact here same
        · exact later ⟨other, member, same⟩

theorem blockRecord_inj {fmt : Format} {block offset place : Nat} :
    fmt.blockRecord block offset = fmt.blockRecord block place ↔ offset = place := by
  rw [Format.blockRecord, Format.blockRecord]
  omega

section Operations

variable {fs : ImageFs} {start : Disk} {names : Nat → Nat → Prop}

/-- What the data of a write leaves in the records of its block. -/
theorem planEdit_data (record : Nat) (data : Record) (index : Nat) (raw : RawEntry) (block : Nat)
    (fresh : Bool) (disk : Disk) {offset : Nat} (inside : offset < fs.params.recordsPerBlock) :
    disk.run (planEdit fs record data index raw block fresh).data (fs.fmt.blockRecord block offset) =
      if offset = withinEntry fs.params record % fs.params.recordsPerBlock then data
      else if fresh then fun _ => 0 else disk (fs.fmt.blockRecord block offset) := by
  simp only [planEdit, Disk.run, Medium.runSteps_append, Medium.runSteps_cons,
    Medium.runSteps_nil, DiskStep.write_apply, blockRecord_inj]
  split
  · rfl
  · rename_i other
    cases fresh with
    | false => rfl
    | true =>
      simp only [↓reduceIte]
      refine (Disk.run_zeroSteps disk fs.fmt block _ _).trans (if_pos ⟨offset, ?_, rfl⟩)
      exact List.mem_filter.mpr ⟨List.mem_range.mpr inside, by simpa using other⟩

/-- The entry a write starts from is of the record's group. -/
theorem planTarget_group (valid : fs.Valid) {f : File} {record index : Nat} {raw : RawEntry}
    (small : record < 2048 * recordsPerExtent)
    (target : planTarget fs f (baseExtent fs.params record) = some (index, raw)) :
    raw.group fs.params = baseExtent fs.params record := by
  rcases planTarget_some target with ⟨e, found, rfl, rfl⟩ | ⟨_, _, rfl⟩
  · obtain ⟨listed, _, group⟩ := entryFor_some found
    have slot := (valid.listed e listed).2.2
    rw [slot] at group
    exact group
  · have mask := valid.sound.mask
    have room : baseExtent fs.params record + fs.params.exm < 2048 := baseExtent_small mask small
    exact (newRawEntry_group f mask (baseExtent_whole _ _)
      (Nat.lt_of_le_of_lt (Nat.le_add_right _ _) room)).1

/-- The entry a write starts from counts at most one extent's records in its last extent. -/
theorem planTarget_counted (synced : fs.Synced) (grouped : Grouped fs.fmt fs.disk) {f : File}
    {base index : Nat} {raw : RawEntry} (target : planTarget fs f base = some (index, raw)) :
    raw.rc ≤ 128 := by
  rcases planTarget_some target with ⟨e, found, rfl, rfl⟩ | ⟨_, _, rfl⟩
  · obtain ⟨inside, entry, live⟩ := synced.entry (entryFor_some found).1
    exact entry ▸ grouped.counts _ inside (entry ▸ live)
  · exact (by decide : (0 : UInt8) ≤ 128)

/-- The entry a write puts down is of the record's group, and counts the record and those the
entry counted before. -/
theorem planEdit_group (valid : fs.Valid) {record : Nat} (data : Record) (index : Nat)
    {raw : RawEntry} (block : Nat) (fresh : Bool) (small : record < 2048 * recordsPerExtent)
    (group : raw.group fs.params = baseExtent fs.params record) :
    (planEdit fs record data index raw block fresh).raw.group fs.params =
        baseExtent fs.params record ∧
      (planEdit fs record data index raw block fresh).raw.count fs.params =
        max (raw.count fs.params) (withinEntry fs.params record + 1) := by
  have mask := valid.sound.mask
  let mapped := encodeBlocks raw (if fresh then (decodeBlocks raw fs.params).set
    (withinEntry fs.params record / fs.params.recordsPerBlock) block
      else decodeBlocks raw fs.params) fs.params
  have inGroup : mapped.group fs.params = baseExtent fs.params record := group
  exact RawEntry.grown_group mask inGroup (withinEntry_lt fs.params record)
    (baseExtent_small mask small)

/-- The entry a write puts down counts at most one extent's records in its last extent. -/
theorem planEdit_counted (record : Nat) (data : Record) (index : Nat) {raw : RawEntry}
    (block : Nat) (fresh : Bool) (counted : raw.rc ≤ 128) :
    (planEdit fs record data index raw block fresh).raw.rc ≤ 128 := by
  let mapped := encodeBlocks raw (if fresh then (decodeBlocks raw fs.params).set
    (withinEntry fs.params record / fs.params.recordsPerBlock) block
      else decodeBlocks raw fs.params) fs.params
  have counts : mapped.rc ≤ 128 := counted
  exact RawEntry.grown_rc counts _ _

/-- A record number below 65536 lies in the extents an entry can number. -/
theorem record_small {record : Nat} (small : record < 65536) :
    record < 2048 * recordsPerExtent := by
  unfold recordsPerExtent
  omega

/-- No live entry belongs to a file that does not exist. -/
theorem ImageFs.Synced.absent (synced : fs.Synced) {f : File}
    (absent : existsFile fs.dir f = false) {index : Nat} (inside : index < fs.fmt.dirEntries) :
    ¬ (fs.disk.entry index).Of f := by
  intro own
  have listed : (fs.disk.entry index).slot index (Params.derive fs.fmt) ∈ fs.dir := by
    rw [show fs.dir = directoryOf fs.fmt fs.disk from synced]
    exact mem_directoryOf.mpr ⟨index, inside, own.1, rfl⟩
  have member : (fs.disk.entry index).slot index (Params.derive fs.fmt) ∈ extentsOf fs.dir f :=
    mem_extentsOf.mpr ⟨listed, own.2⟩
  have empty : extentsOf fs.dir f = [] := by simpa [existsFile] using absent
  rw [empty] at member
  cases member

/-- A live entry of the directory is in the list. -/
theorem ImageFs.Synced.listed (synced : fs.Synced) {index : Nat}
    (inside : index < fs.fmt.dirEntries) (live : (fs.disk.entry index).Live) :
    (fs.disk.entry index).slot index fs.params ∈ fs.dir := by
  rw [show fs.dir = directoryOf fs.fmt fs.disk from synced]
  exact mem_directoryOf.mpr ⟨index, inside, live, rfl⟩

/-- An edit keeps the directory grouped. -/
theorem Edits.grouped (owned : fs.Owned start names) (valid : fs.Valid) (synced : fs.Synced)
    (grouped : Grouped fs.fmt fs.disk) {op : Operation} (plain : op.Plain) {e : Edit}
    (edits : Edits fs op e) : Grouped fs.fmt (fs.disk.run e.steps) := by
  -- It is enough that the entry put down counts well and shares file and group with no other.
  have enough (counted : e.raw.rc ≤ 128)
      (alone : ∀ i < fs.fmt.dirEntries, i ≠ e.index → (fs.disk.entry i).Live →
        (fs.disk.entry i).file = e.raw.file →
        (fs.disk.entry i).group fs.params ≠ e.raw.group fs.params) :
      Grouped fs.fmt (fs.disk.run e.steps) := by
    refine ⟨fun i inside live => ?_, fun i hi j hj liveI liveJ file group => ?_⟩
    · rw [edits.entry owned valid inside] at live ⊢
      split at live
      · rw [if_pos (by assumption)]
        exact counted
      · rw [if_neg (by assumption)]
        exact grouped.counts i inside live
    · rw [edits.entry owned valid hi] at liveI file group
      rw [edits.entry owned valid hj] at liveJ file group
      by_cases one : i = e.index
      · by_cases two : j = e.index
        · rw [one, two]
        · rw [if_pos one, if_neg two] at file group
          rw [if_neg two] at liveJ
          exact absurd group.symm (alone j hj two liveJ file.symm)
      · by_cases two : j = e.index
        · rw [if_neg one, if_pos two] at file group
          rw [if_neg one] at liveI
          exact absurd group (alone i hi one liveI file)
        · rw [if_neg one, if_neg two] at file group
          rw [if_neg one] at liveI
          rw [if_neg two] at liveJ
          exact grouped.apart i hi j hj liveI liveJ file group
  -- A write is alone because its target was, or because its group had no entry.
  have written {f : File} {record index : Nat} {data : Record} {raw : RawEntry} {block : Nat}
      {fresh : Bool} (plain : f.Plain ∧ record < 65536)
      (same : e = planEdit fs record data index raw block fresh)
      (target : planTarget fs f (baseExtent fs.params record) = some (index, raw)) :
      Grouped fs.fmt (fs.disk.run e.steps) := by
    subst same
    have room := record_small plain.2
    obtain ⟨group', _⟩ := planEdit_group valid data index block fresh room
      (planTarget_group valid room target)
    have counted := planTarget_counted synced grouped target
    have file := (planTarget_file synced valid plain.1 target).1
    refine enough (planEdit_counted record data index block fresh counted)
      fun i inside other live same grouping => ?_
    rw [planEdit_file, file] at same
    rw [group'] at grouping
    rcases planTarget_some target with ⟨old, found, rfl, rfl⟩ | ⟨none, _, _⟩
    · obtain ⟨within, entry, alive⟩ := synced.entry (entryFor_some found).1
      exact other (grouped.apart i inside old.index within live (entry ▸ alive)
        (by rw [entry, same, file]) (grouping.trans (by
          rw [entry]
          exact (planTarget_group valid room target).symm)))
    · have missed := List.find?_eq_none.mp none _ (synced.listed inside live)
      simp only [decide_eq_true_eq, not_and] at missed
      exact missed same grouping
  cases edits with
  | @create f _ _ absent _ =>
    refine enough (by decide : (0 : UInt8) ≤ 128) fun i inside _ live same => ?_
    rw [newRawEntry_file plain] at same
    exact absurd ⟨live, same⟩ (synced.absent absent inside)
  | fresh _ target _ _ => exact written plain rfl target
  | owned _ target _ _ _ => exact written plain rfl target

/-- A number that a map names once stands in one slot. -/
theorem slot_unique {blocks : List Nat} (once : (blocks.filter (· ≠ 0)).Nodup) {block i j : Nat}
    (positive : block ≠ 0) (one : blocks[i]? = some block) (two : blocks[j]? = some block) :
    i = j := by
  induction blocks generalizing i j with
  | nil => cases one
  | cons head blocks ih =>
    have tail : (blocks.filter (· ≠ 0)).Nodup := by
      rw [List.filter_cons] at once
      split at once
      · exact (List.nodup_cons.mp once).2
      · exact once
    have here (rest : block ∈ blocks) : head ≠ block := by
      rintro rfl
      rw [List.filter_cons_of_pos (by simpa using positive)] at once
      exact (List.nodup_cons.mp once).1 (List.mem_filter.mpr ⟨rest, by simpa using positive⟩)
    cases i with
    | zero =>
      cases j with
      | zero => rfl
      | succ j =>
        simp only [List.getElem?_cons_zero, Option.some.injEq] at one
        rw [List.getElem?_cons_succ] at two
        exact absurd one (here (List.mem_of_getElem? two))
    | succ i =>
      cases j with
      | zero =>
        simp only [List.getElem?_cons_zero, Option.some.injEq] at two
        rw [List.getElem?_cons_succ] at one
        exact absurd two (here (List.mem_of_getElem? one))
      | succ j =>
        rw [List.getElem?_cons_succ] at one two
        rw [ih tail one two]

/-- Records of one group whose places in it are equal are the same. -/
theorem record_of_place {params : Params} {record other : Nat}
    (group : baseExtent params record = baseExtent params other)
    (place : withinEntry params record = withinEntry params other) : record = other := by
  have one := baseExtent_add_withinEntry params record
  have two := baseExtent_add_withinEntry params other
  rw [group, place, two] at one
  exact one.symm

/-- Two places with one slot and one offset in it are equal. -/
theorem place_of_slot {a b size : Nat} (slot : a / size = b / size) (offset : a % size = b % size) :
    a = b := by
  have one := Nat.div_add_mod a size
  have two := Nat.div_add_mod b size
  rw [slot, offset, two] at one
  exact one.symm

/-- The directory step of an edit leaves the records of the blocks its data goes to. -/
theorem Edit.steps_record (valid : fs.Valid) {e : Edit} (inside : e.index < fs.fmt.dirEntries)
    {block : Nat} (above : fs.params.dirBlocks ≤ block) (offset : Nat) :
    fs.disk.run e.steps (fs.fmt.blockRecord block offset) =
      fs.disk.run e.data (fs.fmt.blockRecord block offset) := by
  rw [Edit.steps, Disk.run, Disk.run, Medium.runSteps_append, Medium.runSteps_cons,
    Medium.runSteps_nil, DiskStep.edit_apply, if_neg]
  exact Nat.ne_of_gt (Nat.lt_of_lt_of_le (Format.entryRecord_lt inside)
    (blockRecord_outside valid.sound above offset))

/-- A write into a block the entry names for the record, or into one just claimed for its empty
slot: the record holds the data, and every other record what it held. -/
theorem write_holds (owned : fs.Owned start names) (valid : fs.Valid) (synced : fs.Synced)
    {f : File} {record : Nat} {data : Record} (plain : f.Plain)
    (small : record < 65536) {index : Nat} {raw : RawEntry} {block : Nat} {fresh : Bool}
    (there : existsFile fs.dir f = true)
    (edits : Edits fs (.writeRecord f record data)
      (planEdit fs record data index raw block fresh))
    (target : planTarget fs f (baseExtent fs.params record) = some (index, raw))
    (slot : (decodeBlocks raw fs.params)[withinEntry fs.params record /
      fs.params.recordsPerBlock]? = some (if fresh then 0 else block))
    (known : fs.params.dirBlocks ≤ block ∧ block ≤ fs.params.maxBlock)
    (unnamed : fresh = true → block ∉ raw.named fs.params) :
    let after := fs.disk.run (planEdit fs record data index raw block fresh).steps
    Holds fs.fmt after f record data ∧
      ∀ g r d, ¬ (g = f ∧ r = record) → Holds fs.fmt fs.disk g r d → Holds fs.fmt after g r d := by
  intro after
  have inside : index < fs.fmt.dirEntries := planTarget_inside valid target
  have positive : block ≠ 0 := by
    have dir := valid.sound.dirBlocks_pos
    have above := known.1
    rw [ImageFs.params] at above
    omega
  have group := planTarget_group valid (record_small small) target
  obtain ⟨group', count⟩ := planEdit_group valid data index block fresh (record_small small) group
  have file := (planTarget_file synced valid plain target).1
  have live := valid.target_live there target
  have blocks := planEdit_blocks valid record data index raw block fresh fun _ => known.2
  have entry (i : Nat) (within : i < fs.fmt.dirEntries) : after.entry i = if i = index then
      (planEdit fs record data index raw block fresh).raw else fs.disk.entry i :=
    edits.entry owned valid within
  have here : after.entry index = (planEdit fs record data index raw block fresh).raw := by
    rw [entry index inside, if_pos rfl]
  have own : (after.entry index).Of f := by
    rw [here]
    exact ⟨planEdit_live.mpr live, planEdit_file.trans file⟩
  have records (offset : Nat) (within : offset < fs.params.recordsPerBlock) :
      after (fs.fmt.blockRecord block offset) =
        if offset = withinEntry fs.params record % fs.params.recordsPerBlock then data
        else if fresh then fun _ => 0 else fs.disk (fs.fmt.blockRecord block offset) := by
    rw [← planEdit_data record data index raw block fresh fs.disk within]
    exact Edit.steps_record (e := planEdit fs record data index raw block fresh) valid inside
      known.1 offset
  refine ⟨⟨index, block, ⟨inside, own, by rw [here]; exact group', ?_, ?_, positive⟩, ?_⟩, ?_⟩
  · rw [here]
    change _ < RawEntry.count _ fs.params
    rw [count]
    exact Nat.lt_of_lt_of_le (Nat.lt_succ_self _) (Nat.le_max_right _ _)
  · rw [here]
    change (decodeBlocks _ fs.params)[_]? = some block
    rw [blocks]
    obtain ⟨room, _⟩ := List.getElem?_eq_some_iff.mp slot
    cases fresh with
    | true => exact List.getElem?_set_self room
    | false => exact slot
  · refine (records _ (Nat.mod_lt _ valid.sound.block)).trans (if_pos rfl)
  · rintro g r d apart ⟨i, owner, located, rfl⟩
    by_cases elsewhere : i = index
    · -- The record lies in the entry written: it is another record of the same file.
      subst elsewhere
      have same : fs.disk.entry i = raw := by
        rcases planTarget_some target with ⟨old, found, rfl, rfl⟩ | ⟨_, free, _⟩
        · exact (synced.entry (entryFor_some found).1).2.1
        · have unfree := located.own.1.1
          rw [(freeOf_some free).2.1] at unfree
          cases unfree
      have ofFile : g = f := by
        rw [← located.own.2, same, file]
      have inGroup : baseExtent fs.params r = baseExtent fs.params record := by
        have grouping := located.group
        rw [same] at grouping
        exact grouping.symm.trans group
      have otherPlace : withinEntry fs.params r ≠ withinEntry fs.params record := fun equal =>
        apart ⟨ofFile, record_of_place inGroup equal⟩
      have slotThere := located.slot
      rw [same] at slotThere
      have named : owner ∈ raw.named fs.params := same ▸ located.named
      -- Its slot names what it named, and its record is not one the data step writes.
      have kept : (decodeBlocks (planEdit fs record data i raw block fresh).raw
          fs.params)[withinEntry fs.params r / fs.params.recordsPerBlock]? = some owner ∧
          after (fs.fmt.placeOf r owner) = fs.disk (fs.fmt.placeOf r owner) := by
        rw [blocks]
        by_cases sameSlot : withinEntry fs.params r / fs.params.recordsPerBlock =
            withinEntry fs.params record / fs.params.recordsPerBlock
        · have value : (decodeBlocks raw fs.params)[withinEntry fs.params r /
              fs.params.recordsPerBlock]? = some owner := slotThere
          rw [sameSlot, slot, Option.some.injEq] at value
          cases fresh with
          | true => exact absurd value.symm located.positive
          | false =>
            simp only [Bool.false_eq_true, ↓reduceIte] at value slot ⊢
            subst value
            exact ⟨slotThere, (records _ (Nat.mod_lt _ valid.sound.block)).trans
              (if_neg fun equal => otherPlace (place_of_slot sameSlot equal))⟩
        · have different : owner ≠ block := by
            rintro rfl
            cases fresh with
            | true => exact unnamed rfl named
            | false =>
              have once := (owned.medium i inside located.own.1).1
              rw [same] at once
              exact sameSlot (slot_unique once positive slotThere slot)
          refine ⟨?_, Disk.run_apart _ _ fun step member => ?_⟩
          · cases fresh with
            | true =>
              rw [if_pos rfl, List.getElem?_set_ne (Ne.symm sameSlot)]
              exact slotThere
            | false => exact slotThere
          · rcases List.mem_append.mp member with written | edited
            · have own : (planEdit fs record data i raw block fresh).Within fs.fmt fun _ b =>
                  b = block := planEdit_within valid rfl
              obtain ⟨_, place, bytes, rfl, below, equal⟩ := own step written
              exact (blockRecord_ne (fun same => different (same.trans equal))
                (Nat.mod_lt _ valid.sound.block) below).symm
            · rw [List.mem_singleton] at edited
              subst edited
              have bounded := owned.bounded i owner ((owned.medium i inside located.own.1).2 owner
                located.named)
              exact Nat.ne_of_lt (Nat.lt_of_lt_of_le (Format.entryRecord_lt inside)
                (blockRecord_outside valid.sound bounded.1 _))
      refine ⟨i, owner, located.carry (ofFile ▸ own) ?_ ?_ ?_, kept.2⟩
      · rw [here, same]
        exact group'.trans group.symm
      · rw [here]
        change _ < RawEntry.count _ fs.params
        rw [count]
        exact Nat.lt_of_lt_of_le (same ▸ located.covered) (Nat.le_max_left _ _)
      · rw [here]
        exact kept.1
    · -- The record lies in another entry, whose blocks are its own.
      refine ⟨i, owner, located.keep ?_, ?_⟩
      · rw [entry i located.inside, if_neg elsewhere]
      · have kept := edits.record owned valid located.inside located.own.1 located.named elsewhere
          (Nat.mod_lt (withinEntry (Params.derive fs.fmt) r) valid.sound.block)
          (planEdit fs record data index raw block fresh).steps.length
        rwa [List.take_length] at kept

/-- An edit keeps what the other records hold, and a write puts down its own. -/
theorem Edits.reflects (owned : fs.Owned start names) (valid : fs.Valid) (synced : fs.Synced)
    {op : Operation} (plain : op.Plain) {e : Edit} (edits : Edits fs op e) {store : Store}
    (reflects : Reflects fs.fmt fs.disk store) :
    Reflects fs.fmt (fs.disk.run e.steps) (op.effect store) := by
  have written {f : File} {record : Nat} {data : Record} {after : Disk}
      (holds : Holds fs.fmt after f record data ∧ ∀ g r d, ¬ (g = f ∧ r = record) →
        Holds fs.fmt fs.disk g r d → Holds fs.fmt after g r d) :
      Reflects fs.fmt after (Operation.effect store (.writeRecord f record data)) := by
    intro g r d kept
    simp only [Operation.effect] at kept
    split at kept
    · rename_i same
      cases kept
      rw [same.1, same.2]
      exact holds.1
    · rename_i other
      exact holds.2 g r d other (reflects g r d kept)
  cases edits with
  | @create f index printable absent free =>
    intro g r d kept
    obtain ⟨i, block, located, rfl⟩ := reflects g r d kept
    have other : i ≠ index := fun same => by
      have unfree := located.own.1.1
      rw [same, (freeOf_some free).2.1] at unfree
      cases unfree
    have edits : Edits fs (.create f) ⟨index, newRawEntry f 0, none, []⟩ :=
      .create printable absent free
    refine ⟨i, block, located.keep ?_, ?_⟩
    · rw [edits.entry owned valid located.inside, if_neg other]
    · exact edits.record owned valid located.inside located.own.1 located.named other
        (Nat.mod_lt (withinEntry (Params.derive fs.fmt) r) valid.sound.block) 1
  | @fresh f record data index raw block there target slot free =>
    obtain ⟨low, high, untaken⟩ := freeBlock_some free
    refine written (write_holds owned valid synced plain.1 plain.2 there
      (.fresh there target slot free) target slot ⟨low, high⟩ fun _ named => ?_)
    have taken := owned.taken index block ((planTarget_fair owned valid target).2.2 block named)
    rw [Taken] at taken
    rw [List.getD_eq_getElem?_getD, taken] at untaken
    cases untaken
  | @owned f record data index raw block there target slot positive known =>
    have named : block ∈ raw.named fs.params :=
      RawEntry.mem_named.mpr ⟨List.mem_of_getElem? slot, positive⟩
    have above := (owned.bounded index block ((planTarget_fair owned valid target).2.2 block
      named)).1
    exact written (write_holds owned valid synced plain.1 plain.2 there
      (.owned there target slot positive known) target slot ⟨above, known⟩ (by simp))

/-! ## Changing every entry -/

/-- The entry a change replaces is the medium's. -/
theorem Batches.old (synced : fs.Synced) {op : Operation} {changes : List Change}
    (batches : Batches fs op changes) {change : Change} (member : change ∈ changes) :
    change.index < fs.fmt.dirEntries ∧ change.old = fs.disk.entry change.index := by
  obtain ⟨e, listed, place, old⟩ := batches.entry member
  obtain ⟨inside, entry, _⟩ := synced.entry listed
  exact ⟨place ▸ inside, by rw [old, place, entry]⟩

/-- What a cut of an entry by a truncation keeps. -/
theorem truncate_cut (valid : fs.Valid) {e : DirSlot} {records : Nat} (small : records ≤ 65536)
    (counted : e.raw.rc ≤ 128) (slot : e = e.raw.slot e.index fs.params)
    (partly : extentStart fs.params e < records ∧
      records < extentStart fs.params e + extentCount fs.params e) :
    let cut := e.raw.cut fs.params (records - extentStart fs.params e)
    cut.group fs.params = e.raw.group fs.params ∧
      cut.count fs.params = records - e.raw.group fs.params * recordsPerExtent ∧ cut.rc ≤ 128 := by
  have mask : fs.params.exm = 0 ∨ fs.params.exm = 1 := valid.sound.mask
  have startOf : extentStart fs.params e = e.raw.group fs.params * recordsPerExtent := by
    rw [slot]
    rfl
  have countOf : extentCount fs.params e = e.raw.count fs.params := by
    rw [slot]
    rfl
  have most : e.raw.count fs.params ≤ recordsPerEntry fs.params := e.raw.count_le mask counted
  rw [startOf, countOf] at partly
  rw [startOf]
  refine RawEntry.cut_group mask (by omega) (by omega) ?_
  have room := partly.1
  have folded : fs.params.exm ≤ 1 := by rcases mask with mask | mask <;> omega
  unfold recordsPerExtent at room
  omega

/-- A change leaves a live entry in its group and its record count within one extent. -/
theorem Batches.group (valid : fs.Valid) (synced : fs.Synced) (grouped : Grouped fs.fmt fs.disk)
    {op : Operation} (plain : op.Plain) {changes : List Change} (batches : Batches fs op changes)
    {change : Change} (member : change ∈ changes) (live : change.new.Live) :
    change.new.rc ≤ 128 ∧ change.new.group fs.params = change.old.group fs.params := by
  obtain ⟨inside, entry⟩ := batches.old synced member
  have counted : change.old.rc ≤ 128 := by
    rw [entry]
    exact grouped.counts _ inside (entry ▸ (batches.file valid member).2.1)
  have dead (raw : RawEntry) (alive : raw.erased.Live) : False := by
    have free := alive.1
    simp [RawEntry.isFree, RawEntry.erased] at free
  cases batches with
  | delete =>
    obtain ⟨e, _, rfl⟩ := List.mem_map.mp member
    exact (dead _ live).elim
  | rename =>
    obtain ⟨e, _, rfl⟩ := List.mem_map.mp member
    exact ⟨counted, rfl⟩
  | setReadOnly =>
    obtain ⟨e, _, rfl⟩ := List.mem_map.mp member
    exact ⟨counted, rfl⟩
  | truncate =>
    obtain ⟨e, listed, changed⟩ := List.mem_filterMap.mp member
    obtain ⟨_, old, ⟨new, _⟩ | ⟨new, partly⟩⟩ := truncateChange_some changed
    · rw [new] at live
      exact (dead _ live).elim
    · have slot := (valid.listed e (mem_extentsOf.mp listed).1).2.2
      rw [old] at counted
      obtain ⟨group, _, rc⟩ := truncate_cut valid plain.2 counted slot partly
      rw [new, old]
      exact ⟨rc, group⟩

/-- A batch keeps the directory grouped. -/
theorem Batches.grouped (valid : fs.Valid) (synced : fs.Synced) (grouped : Grouped fs.fmt fs.disk)
    {op : Operation} (plain : op.Plain) {changes : List Change} (batches : Batches fs op changes) :
    Grouped fs.fmt (fs.disk.run (Plan.batch changes).steps) := by
  have distinct := batches.distinct valid
  -- It is enough that the files of the entries changed move somewhere no other file is.
  have enough (move : File → File)
      (apart : ∀ i < fs.fmt.dirEntries, ∀ j < fs.fmt.dirEntries, (fs.disk.entry i).Live →
        (fs.disk.entry j).Live → move (fs.disk.entry i).file = move (fs.disk.entry j).file →
        (fs.disk.entry i).file = (fs.disk.entry j).file)
      (changed : ∀ change ∈ changes, change.new.Live → change.new.file = move change.old.file)
      (unchanged : ∀ i < fs.fmt.dirEntries, (fs.disk.entry i).Live →
        (∀ change ∈ changes, change.index ≠ i) →
        (fs.disk.entry i).file = move (fs.disk.entry i).file) :
      Grouped fs.fmt (fs.disk.run (Plan.batch changes).steps) := by
    refine grouped.map move apart fun i inside live => ?_
    by_cases named : ∃ change ∈ changes, change.index = i
    · obtain ⟨change, member, rfl⟩ := named
      rw [Plan.steps, Disk.entry_run_mem _ _ Change.new distinct member] at live ⊢
      obtain ⟨_, entry⟩ := batches.old synced member
      obtain ⟨counted, group⟩ := batches.group valid synced grouped plain member live
      rw [← entry]
      exact ⟨(batches.file valid member).2.1, counted, group, changed change member live⟩
    · have other : ∀ change ∈ changes, change.index ≠ i := fun change member same =>
        named ⟨change, member, same⟩
      rw [Plan.steps, Disk.entry_run_other _ _ Change.new other] at live ⊢
      exact ⟨live, grouped.counts i inside live, rfl, unchanged i inside live other⟩
  have still (fixed : ∀ change ∈ changes, change.new.Live → change.new.file = change.old.file) :
      Grouped fs.fmt (fs.disk.run (Plan.batch changes).steps) :=
    enough id (fun _ _ _ _ _ _ same => same) fixed fun _ _ _ _ => rfl
  have fileOf {change : Change} (member : change ∈ changes) (live : change.new.Live) :=
    (batches.file valid member).2.2.resolve_left (not_not.mpr live)
  cases op with
  | create | writeRecord => obtain ⟨_⟩ := batches
  | delete | setReadOnly | truncate =>
    refine still fun change member live => (fileOf member live).resolve_right ?_
    rintro ⟨_, _, _, same, _⟩
    cases same
  | rename f name ext =>
    have nameKept : strip name = name := plain.2.name
    have extKept : strip ext = ext := plain.2.ext
    have kept := batches
    cases kept with
    | rename printable absent =>
      -- The new name was free, and every entry of the old one is changed.
      refine enough (fun g => if g = f then ⟨f.user, name, ext⟩ else g) ?_ ?_ ?_
      · intro i hi j hj liveI liveJ same
        split at same
        · rename_i one
          split at same
          · rename_i two
            rw [one, two]
          · exact absurd ⟨liveJ, same.symm⟩ (synced.absent absent hj)
        · split at same
          · exact absurd ⟨liveI, same⟩ (synced.absent absent hi)
          · exact same
      · intro change member _
        obtain ⟨e, listed, rfl⟩ := List.mem_map.mp member
        obtain ⟨known, file⟩ := List.mem_filter.mp listed
        have own : e.raw.file = f := by
          rw [decide_eq_true_eq] at file
          rw [← file, (valid.listed e known).2.2]
          rfl
        rw [if_pos own, RawEntry.renamed_file, nameKept, extKept, ← own]
        rfl
      · intro i inside live other
        refine (if_neg fun file => ?_).symm
        have listed : (fs.disk.entry i).slot i fs.params ∈ entriesOf fs.dir f :=
          List.mem_filter.mpr ⟨synced.listed inside live, decide_eq_true file⟩
        exact other _ (List.mem_map.mpr ⟨_, listed, rfl⟩) rfl

/-- A record survives a batch in an entry that is not changed, or whose change keeps its group,
its slot and its count of the record. -/
theorem Batches.carry (owned : fs.Owned start names) (valid : fs.Valid) (synced : fs.Synced)
    (grouped : Grouped fs.fmt fs.disk) {op : Operation} (plain : op.Plain) {changes : List Change}
    (batches : Batches fs op changes) {f g : File} {record : Nat} {data : Record}
    (holds : Holds fs.fmt fs.disk f record data)
    (unchanged : (∃ i < fs.fmt.dirEntries, (fs.disk.entry i).Of f ∧
      ∀ change ∈ changes, change.index ≠ i) → g = f)
    (changed : ∀ change ∈ changes, change.old.Of f →
      change.old.group fs.params = baseExtent fs.params record →
      withinEntry fs.params record < change.old.count fs.params →
      change.new.Of g ∧ withinEntry fs.params record < change.new.count fs.params ∧
        (decodeBlocks change.new fs.params)[withinEntry fs.params record /
          fs.params.recordsPerBlock]? = (decodeBlocks change.old fs.params)[withinEntry fs.params
            record / fs.params.recordsPerBlock]?) :
    Holds fs.fmt (fs.disk.run (Plan.batch changes).steps) g record data := by
  obtain ⟨i, block, located, rfl⟩ := holds
  have bounded := owned.bounded i block ((owned.medium i located.inside located.own.1).2 block
    located.named)
  have same := Disk.run_apart fs.disk (newSteps changes) (edits_apart Change.new
    (batches.inside valid) (blockRecord_outside valid.sound bounded.1
      (withinEntry (Params.derive fs.fmt) record % (Params.derive fs.fmt).recordsPerBlock)))
  refine ⟨i, block, ?_, same⟩
  by_cases named : ∃ change ∈ changes, change.index = i
  · obtain ⟨change, member, rfl⟩ := named
    obtain ⟨_, entry⟩ := batches.old synced member
    have after : (fs.disk.run (Plan.batch changes).steps).entry change.index = change.new :=
      Disk.entry_run_mem _ _ Change.new (batches.distinct valid) member
    obtain ⟨own, covered, slot⟩ := changed change member (entry ▸ located.own)
      (entry ▸ located.group) (entry ▸ located.covered)
    obtain ⟨_, group⟩ := batches.group valid synced grouped plain member own.1
    refine located.carry (after ▸ own) (by rw [after, ← entry]; exact group) (after ▸ covered) ?_
    rw [after]
    exact slot.trans (entry ▸ located.slot)
  · have other : ∀ change ∈ changes, change.index ≠ i := fun change member same =>
      named ⟨change, member, same⟩
    have equal := unchanged ⟨i, located.inside, located.own, other⟩
    subst equal
    exact located.keep (Disk.entry_run_other _ _ Change.new other)

/-- The plan of an operation keeps what the records of other files hold. -/
theorem plan_holds_other (owned : fs.Owned start names) (valid : fs.Valid) (synced : fs.Synced)
    {op : Operation} (plain : op.Plain) {g : File} (other : g ∉ op.files) {record : Nat}
    {data : Record} (holds : Holds fs.fmt fs.disk g record data) :
    Holds fs.fmt (fs.disk.run (planOf fs op).steps) g record data := by
  obtain ⟨i, block, located, rfl⟩ := holds
  refine ⟨i, block, located.keep ?_, ?_⟩
  · exact (plan_entries owned valid synced plain other located.inside).resolve_right
      fun apart => apart.1 located.own
  · exact plan_records owned valid synced plain other located.inside located.own located.named
      (Nat.mod_lt _ valid.sound.block)

/-- A slot of a place below a count is one of the blocks the count takes. -/
theorem slot_lt_blocksFor {params : Params} (block : 0 < params.recordsPerBlock) {within keep : Nat}
    (below : within < keep) : within / params.recordsPerBlock < params.blocksFor keep := by
  have next : (within + params.recordsPerBlock) / params.recordsPerBlock =
      within / params.recordsPerBlock + 1 := Nat.add_div_right within block
  have scaled := Nat.div_le_div_right (c := params.recordsPerBlock)
    (by omega : within + params.recordsPerBlock ≤ keep + params.recordsPerBlock - 1)
  rw [Params.blocksFor]
  omega

/-- Every change of a truncation is what it does to an entry of the list. -/
theorem Batches.truncated {f : File} {records : Nat} {changes : List Change}
    (batches : Batches fs (.truncate f records) changes) {change : Change}
    (member : change ∈ changes) :
    ∃ e ∈ fs.dir, truncateChange fs.params records e = some change := by
  cases batches with
  | truncate =>
    obtain ⟨e, listed, changed⟩ := List.mem_filterMap.mp member
    exact ⟨e, (mem_extentsOf.mp listed).1, changed⟩

/-- A truncation keeps the records before its length. -/
theorem truncate_keeps (valid : fs.Valid) (synced : fs.Synced) (grouped : Grouped fs.fmt fs.disk)
    {records : Nat} (small : records ≤ 65536) {e : DirSlot} (listed : e ∈ fs.dir) {change : Change}
    (changed : truncateChange fs.params records e = some change) {f : File} {record : Nat}
    (below : record < records) (own : change.old.Of f)
    (group : change.old.group fs.params = baseExtent fs.params record) :
    change.new.Of f ∧ withinEntry fs.params record < change.new.count fs.params ∧
      (decodeBlocks change.new fs.params)[withinEntry fs.params record /
        fs.params.recordsPerBlock]? = (decodeBlocks change.old fs.params)[withinEntry fs.params
          record / fs.params.recordsPerBlock]? := by
  have slot := (valid.listed e listed).2.2
  obtain ⟨inside, entry, live⟩ := synced.entry listed
  have startOf : extentStart fs.params e = e.raw.group fs.params * recordsPerExtent := by
    rw [slot]
    rfl
  have whole := baseExtent_add_withinEntry fs.params record
  obtain ⟨_, old, ⟨_, past⟩ | ⟨new, partly⟩⟩ := truncateChange_some changed
  · rw [old] at group
    rw [startOf, group] at past
    omega
  · rw [old] at own group ⊢
    have counted : e.raw.rc ≤ 128 := entry ▸ grouped.counts _ inside (entry ▸ live)
    obtain ⟨_, count, _⟩ := truncate_cut valid small counted slot partly
    rw [startOf, group] at new partly count
    have within : withinEntry fs.params record <
        records - baseExtent fs.params record * recordsPerExtent := by omega
    rw [new]
    refine ⟨(RawEntry.Of.congr (e.raw.cut_file _ _)).mpr own, by rw [count]; exact within, ?_⟩
    have kept := slot_lt_blocksFor valid.sound.block within
    have blocks := cut_blocks valid.sound e.raw
      (records - baseExtent fs.params record * recordsPerExtent)
    rw [show decodeBlocks (e.raw.cut fs.params _) fs.params = _ from blocks]
    by_cases room : withinEntry fs.params record / fs.params.recordsPerBlock <
        (decodeBlocks e.raw fs.params).length
    · rw [List.getElem?_append_left (by rw [List.length_take]; exact Nat.lt_min.mpr ⟨kept, room⟩),
        List.getElem?_take]
      exact if_pos kept
    · have none : (decodeBlocks e.raw fs.params)[withinEntry fs.params record /
          fs.params.recordsPerBlock]? = none := List.getElem?_eq_none (Nat.not_lt.mp room)
      rw [none, List.getElem?_eq_none]
      rw [List.length_append, List.length_map, ← List.length_append, List.take_append_drop]
      exact Nat.not_lt.mp room

/-- A batch has its effect on the store. -/
theorem Batches.reflects (owned : fs.Owned start names) (valid : fs.Valid) (synced : fs.Synced)
    (grouped : Grouped fs.fmt fs.disk) {op : Operation} (plain : op.Plain) {changes : List Change}
    (batches : Batches fs op changes) {store : Store} (reflects : Reflects fs.fmt fs.disk store)
    (others : ∀ g record data, g ∉ op.files → Holds fs.fmt fs.disk g record data →
      Holds fs.fmt (fs.disk.run (Plan.batch changes).steps) g record data) :
    Reflects fs.fmt (fs.disk.run (Plan.batch changes).steps) (op.effect store) := by
  intro g r d kept
  cases op with
  | create | writeRecord => obtain ⟨_⟩ := batches
  | delete f =>
    simp only [Operation.effect] at kept
    split at kept
    · cases kept
    · rename_i other
      exact others g r d (by simpa [Operation.files] using other) (reflects g r d kept)
  | rename f name ext =>
    have nameKept : strip name = name := plain.2.name
    have extKept : strip ext = ext := plain.2.ext
    simp only [Operation.effect] at kept
    split at kept
    · rename_i moved
      subst moved
      refine batches.carry owned valid synced grouped plain (reflects f r d kept) ?_ ?_
      · rintro ⟨i, inside, own, other⟩
        obtain ⟨_⟩ := batches
        have listed : (fs.disk.entry i).slot i fs.params ∈ entriesOf fs.dir f :=
          List.mem_filter.mpr ⟨synced.listed inside own.1, decide_eq_true own.2⟩
        exact absurd rfl (other _ (List.mem_map.mpr ⟨_, listed, rfl⟩))
      · intro change member own _ covered
        obtain ⟨_⟩ := batches
        obtain ⟨e, _, rfl⟩ := List.mem_map.mp member
        refine ⟨RawEntry.of_iff.mpr ⟨plain.2.listed, ?_⟩, covered, rfl⟩
        rw [RawEntry.renamed_file, nameKept, extKept, ← own.2]
        rfl
    · rename_i different
      split at kept
      · cases kept
      · rename_i other
        exact others g r d (by simp [Operation.files, different, other]) (reflects g r d kept)
  | setReadOnly f ro =>
    by_cases own : g = f
    · subst own
      refine batches.carry owned valid synced grouped plain (reflects g r d kept) (fun _ => rfl) ?_
      intro change member own _ covered
      obtain ⟨_⟩ := batches
      obtain ⟨e, _, rfl⟩ := List.mem_map.mp member
      exact ⟨(RawEntry.Of.congr (e.raw.withLock_file ro)).mpr own, covered, rfl⟩
    · exact others g r d (by simpa [Operation.files] using own) (reflects g r d kept)
  | truncate f records =>
    simp only [Operation.effect] at kept
    split at kept
    · cases kept
    · rename_i apart
      by_cases own : g = f
      · subst own
        have below : r < records := Nat.not_le.mp fun above => apart ⟨rfl, above⟩
        refine batches.carry owned valid synced grouped plain (reflects g r d kept) (fun _ => rfl) ?_
        intro change member own group _
        obtain ⟨e, listed, changed⟩ := batches.truncated member
        exact truncate_keeps valid synced grouped plain.2 listed changed below own group
      · exact others g r d (by simpa [Operation.files] using own) (reflects g r d kept)

/-- The plan of an operation that is not refused has the operation's effect on the store, and
keeps the directory grouped. -/
theorem plan_reflects (owned : fs.Owned start names) (valid : fs.Valid) (synced : fs.Synced)
    (grouped : Grouped fs.fmt fs.disk) {op : Operation} (plain : op.Plain) {store : Store}
    (reflects : Reflects fs.fmt fs.disk store) :
    Grouped fs.fmt (fs.disk.run (planOf fs op).steps) ∧
      (planOf fs op ≠ .refuse →
        Reflects fs.fmt (fs.disk.run (planOf fs op).steps) (op.effect store)) := by
  have others (g : File) (record : Nat) (data : Record) (other : g ∉ op.files)
      (holds : Holds fs.fmt fs.disk g record data) :=
    plan_holds_other owned valid synced plain other holds
  cases planned : planOf fs op with
  | refuse => exact ⟨grouped, fun same => absurd rfl same⟩
  | idle =>
    refine ⟨grouped, fun _ g r d kept => ?_⟩
    change Holds fs.fmt fs.disk g r d
    cases planOf_idle planned with
    | @rename f name ext empty =>
      -- A file without entries holds nothing that could move.
      have absent (record : Nat) (data : Record) : ¬ Holds fs.fmt fs.disk f record data := by
        rintro ⟨i, block, located, _⟩
        have listed : (fs.disk.entry i).slot i fs.params ∈ entriesOf fs.dir f :=
          List.mem_filter.mpr ⟨synced.listed located.inside located.own.1,
            decide_eq_true located.own.2⟩
        rw [List.isEmpty_iff.mp empty] at listed
        cases listed
      simp only [Operation.effect] at kept
      split at kept
      · exact absurd (reflects f r d kept) (absent r d)
      · split at kept
        · cases kept
        · exact reflects g r d kept
    | setReadOnly => exact reflects g r d kept
    | truncate =>
      simp only [Operation.effect] at kept
      split at kept
      · cases kept
      · exact reflects g r d kept
  | edit e =>
    have edits := planOf_edit planned
    exact ⟨edits.grouped owned valid synced grouped plain,
      fun _ => edits.reflects owned valid synced plain reflects⟩
  | batch changes =>
    have batches := planOf_batch planned
    rw [planned] at others
    exact ⟨batches.grouped valid synced grouped plain,
      fun _ => batches.reflects owned valid synced grouped plain reflects others⟩

end Operations

/-! ## Runs -/

/-- A state reached from a writable mount, and what was written to it and not removed since. An
operation that ends with an error has no effect on the store. -/
inductive StoreRun (media : Media) (fmt : Format) : ImageFs → Store → Prop
  | mount {fs : ImageFs} (mounted : mount media fmt false = .ok fs)
      (writable : fs.readOnly = false) : StoreRun media fmt fs fun _ _ => none
  | done {fs after : ImageFs} {store : Store} (before : StoreRun media fmt fs store)
      {op : Operation} (plain : op.Plain) (ran : op.run fs = (.ok (), after)) :
      StoreRun media fmt after (op.effect store)
  | failed {fs after : ImageFs} {store : Store} (before : StoreRun media fmt fs store)
      {op : Operation} (plain : op.Plain) {reason : IoError}
      (ran : op.run fs = (.error reason, after)) : StoreRun media fmt after store

/-- An operation that ended well is a step with its effect. -/
theorem StoreRun.step {media : Media} {fmt : Format} {fs : ImageFs} {store : Store}
    (before : StoreRun media fmt fs store) {op : Operation} (plain : op.Plain)
    (ended : (op.run fs).1.isOk = true) : StoreRun media fmt (op.run fs).2 (op.effect store) := by
  refine before.done plain (show op.run fs = (.ok (), (op.run fs).2) from ?_)
  cases ran : op.run fs with
  | mk ending after =>
    rw [ran] at ended
    cases ending with
    | ok _ => rfl
    | error reason => cases ended

theorem StoreRun.reachable {media : Media} {fmt : Format} {fs : ImageFs} {store : Store}
    (run : StoreRun media fmt fs store) : Reachable media fmt fs := by
  induction run with
  | mount mounted writable => exact .mount mounted writable
  | done before plain ran ih =>
    have next := ih.step (by assumption : Operation)
    rwa [ran] at next
  | failed before plain ran ih =>
    have next := ih.step (by assumption : Operation)
    rwa [ran] at next

/-- On a healthy medium a reachable state is healthy, owned and in step with its medium. -/
theorem Reachable.healthy {media : Media} {fmt : Format} (sound : fmt.Sound)
    (healthy : media.Healthy) {fs : ImageFs} (reachable : Reachable media fmt fs) :
    fs.media.Healthy ∧ fs.Synced ∧ fs.Tight := by
  obtain ⟨outcomes, onward⟩ := reachable.onward sound
  refine ⟨fun n above => ?_, reachable.tight sound healthy.not_faulted⟩
  rw [outcomes]
  exact healthy n (Nat.le_trans onward above)

/-- In a run on a healthy medium the directory stays grouped and reflects the store. -/
theorem StoreRun.reflects {media : Media} {fmt : Format} (sound : fmt.Sound)
    (healthy : media.Healthy) (grouped : Grouped fmt (diskOf fmt media.contents)) {fs : ImageFs}
    {store : Store} (run : StoreRun media fmt fs store) :
    Grouped fs.fmt fs.disk ∧ Reflects fs.fmt fs.disk store := by
  -- One step: the medium moved by the plan, whether or not it was refused.
  have step {fs after : ImageFs} {store : Store} (before : StoreRun media fmt fs store)
      (ih : Grouped fs.fmt fs.disk ∧ Reflects fs.fmt fs.disk store) {op : Operation}
      (plain : op.Plain) {ending : Except IoError Unit} (ran : op.run fs = (ending, after)) :
      Grouped after.fmt after.disk ∧
        (ending = .ok () → Reflects after.fmt after.disk (op.effect store)) ∧
        ((∃ reason, ending = .error reason) → Reflects after.fmt after.disk store) := by
    obtain ⟨valid, _, writable⟩ := before.reachable.kept sound
    obtain ⟨⟨names, owned⟩, _⟩ := before.reachable.owned sound
    obtain ⟨well, synced, _⟩ := before.reachable.healthy sound healthy
    obtain ⟨moved, _, _, ended⟩ := run_faultless owned valid writable synced op well.not_faulted
    have format := (run_kept valid op).fmt
    rw [ran] at moved ended format
    have shown : after.disk = fs.disk.run (planOf fs op).steps := by
      rw [ImageFs.disk, show after.fmt = fs.fmt from format]
      exact ImageFs.disk_moved moved
    obtain ⟨stays, effect⟩ := plan_reflects owned valid synced ih.1 plain ih.2
    rw [shown, show after.fmt = fs.fmt from format]
    refine ⟨stays, fun ok => effect (ended.mp ok), ?_⟩
    rintro ⟨reason, error⟩
    have refused : planOf fs op = .refuse := by
      by_contra planned
      have ok := ended.mpr planned
      rw [show ending = .error reason from error] at ok
      cases ok
    rw [refused]
    exact ih.2
  induction run with
  | mount mounted writable =>
    have found := mount_ok sound mounted
    refine ⟨?_, fun f record data kept => by cases kept⟩
    rw [ImageFs.disk, found.format, found.unwritten.contents]
    exact grouped
  | done before plain ran ih => exact ⟨(step before ih plain ran).1, (step before ih plain ran).2.1 rfl⟩
  | failed before plain ran ih =>
    exact ⟨(step before ih plain ran).1, (step before ih plain ran).2.2 ⟨_, rfl⟩⟩

/-- An image is a store of records. From a writable mount of a grouped directory on a healthy
medium, and after any operations on plain files, reading a record that the store holds returns
it; and no operation changes what reads of a file it is not about return, nor that file's
length. -/
theorem image_refines_store {fmt : Format} (listed : fmt ∈ formats) {media : Media}
    (healthy : media.Healthy) (grouped : Grouped fmt (diskOf fmt media.contents)) {fs : ImageFs}
    {store : Store} (run : StoreRun media fmt fs store) :
    (∀ f record data, store f record = some data →
      (readRecord f record fs).1 = .ok (some data)) ∧
    (∀ op : Operation, op.Plain → ∀ g ∉ op.files,
      (∀ record, (readRecord g record (op.run fs).2).1 = (readRecord g record fs).1) ∧
      fileRecords (op.run fs).2.params (op.run fs).2.dir g = fileRecords fs.params fs.dir g) := by
  have sound := formats_sound fmt listed
  obtain ⟨stays, reflects⟩ := run.reflects sound healthy grouped
  obtain ⟨valid, _, writable⟩ := run.reachable.kept sound
  obtain ⟨⟨names, owned⟩, _⟩ := run.reachable.owned sound
  obtain ⟨well, synced, _⟩ := run.reachable.healthy sound healthy
  refine ⟨fun f record data kept => ?_, fun op plain g other => ?_⟩
  · rw [readRecord_run valid well, show fs.dir = directoryOf fs.fmt fs.disk from synced]
    exact reads_of_holds valid.sound.mask stays (fun i inside live block named =>
      (owned.bounded i block ((owned.medium i inside live).2 block named)).2)
      (reflects f record data kept)
  · have kept := run_kept valid op
    obtain ⟨moved, synced', _, _⟩ := run_faultless owned valid writable synced op well.not_faulted
    obtain ⟨well', _, _⟩ := (run.reachable.step op).healthy sound healthy
    obtain ⟨same, length⟩ := plan_reads owned valid synced plain other
    have shown : (op.run fs).2.disk = fs.disk.run (planOf fs op).steps := by
      rw [ImageFs.disk, kept.fmt]
      exact ImageFs.disk_moved moved
    have dir : (op.run fs).2.dir =
        directoryOf fs.fmt (fs.disk.run (planOf fs op).steps) := by
      rw [show (op.run fs).2.dir = _ from synced', shown, kept.fmt]
    refine ⟨fun record => ?_, ?_⟩
    · rw [readRecord_run kept.valid well', readRecord_run valid well, dir, shown, kept.fmt]
      exact same record
    · rw [dir, ImageFs.params, kept.fmt]
      exact length

/-- The theorem at work: a record written to a new file of an erased `ibm3740` image is read
back. -/
theorem image_refines_store_written :
    ∃ fs, Reachable (erasedMedia ibm3740 []) ibm3740 fs ∧
      (readRecord fileA 3 fs).1 = .ok (some fun _ => 0x1A) := by
  have plain : fileA.Plain := ⟨⟨by decide, by decide⟩, by decide, by decide⟩
  have healthy : (erasedMedia ibm3740 []).Healthy := fun _ _ => rfl
  have empty : ∀ i < ibm3740.dirEntries,
      ¬ ((diskOf ibm3740 (erasedMedia ibm3740 []).contents).entry i).Live := by decide +kernel
  have grouped : Grouped ibm3740 (diskOf ibm3740 (erasedMedia ibm3740 []).contents) :=
    ⟨fun i inside live => absurd live (empty i inside),
      fun i inside _ _ live => absurd live (empty i inside)⟩
  have checked : mountsTo (erasedMedia ibm3740 []) ibm3740 (fun fs =>
      let created := Operation.run (.create fileA) fs
      created.1.isOk && (Operation.run (.writeRecord fileA 3 fun _ => 0x1A) created.2).1.isOk) =
        true := by decide +kernel
  obtain ⟨fs, mounted, reachable, held⟩ := mountsTo_reachable checked
  simp only [Bool.and_eq_true] at held
  have writable := (reachable.kept (formats_sound ibm3740 (by simp [formats]))).2.2
  have creates : Operation.Plain (.create fileA) := plain
  have writes : Operation.Plain (.writeRecord fileA 3 fun _ => 0x1A) := ⟨plain, by decide⟩
  have written := ((StoreRun.mount mounted writable).step creates held.1).step writes held.2
  exact ⟨_, written.reachable,
    (image_refines_store (by simp [formats]) healthy grouped written).1 fileA 3 (fun _ => 0x1A) rfl⟩

end EthernetGateway.Image
