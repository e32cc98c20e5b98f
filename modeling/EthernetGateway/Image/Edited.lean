import EthernetGateway.Image.Lookup

/-!
# What an edit makes of an entry

The operations rewrite an entry's name, its lock, its map, its extent and its record count. Here
is what each rewriting does to the file, the group and the count of the entry: a new name moves
it to another file and nothing else does, and none of them moves it to another group.
-/

namespace EthernetGateway.Image

/-! ## Files -/

/-- A file that entries can belong to. -/
def File.Listed (f : File) : Prop := f.user ≤ 15 ∧ PrintableName f.name f.ext

/-- A file of a user number up to 15 with a printable name free of attribute bits. -/
structure File.Plain (f : File) : Prop where
  /-- Its user number and name are ones that are listed. -/
  listed : f.Listed
  /-- Its name carries no attribute bit. -/
  name : strip f.name = f.name
  /-- Nor does its extension. -/
  ext : strip f.ext = f.ext

theorem strip_strip {n : Nat} (bytes : Fin n → UInt8) : strip (strip bytes) = strip bytes := by
  funext i
  rw [strip, strip, UInt8.and_assoc]
  rfl

/-- Attribute bits kept under a name do not show. -/
theorem and_or_attribute (a b : UInt8) : (a ||| (b &&& 0x80)) &&& 0x7F = a &&& 0x7F := by
  apply UInt8.toBitVec_inj.mp
  ext i
  simp only [UInt8.toBitVec_and, UInt8.toBitVec_or, BitVec.getElem_and, BitVec.getElem_or]
  have high : (UInt8.toBitVec 0x80)[i] = true → (UInt8.toBitVec 0x7F)[i] = false := by
    revert i
    decide
  cases top : (UInt8.toBitVec 0x80)[i] with
  | false => simp
  | true => rw [high top, Bool.and_false, Bool.and_false]

theorem strip_renamed {n : Nat} (name old : Fin n → UInt8) :
    strip (fun i => name i ||| (old i &&& 0x80)) = strip name := by
  funext i
  exact and_or_attribute (name i) (old i)

/-- Whether an entry is live is decided by the file it belongs to. -/
theorem RawEntry.live_iff_listed {raw : RawEntry} : raw.Live ↔ raw.file.Listed := by
  rw [RawEntry.live_iff, File.Listed]
  simp only [RawEntry.file, PrintableName, strip, UInt8.and_assoc, UInt8.and_self]

theorem RawEntry.of_iff {raw : RawEntry} {f : File} : raw.Of f ↔ f.Listed ∧ raw.file = f := by
  rw [RawEntry.Of, RawEntry.live_iff_listed]
  constructor
  · rintro ⟨listed, rfl⟩
    exact ⟨listed, rfl⟩
  · rintro ⟨listed, rfl⟩
    exact ⟨listed, rfl⟩

/-- Entries of one file are live together. -/
theorem RawEntry.Of.congr {left right : RawEntry} {f : File} (same : left.file = right.file) :
    left.Of f ↔ right.Of f := by
  rw [RawEntry.of_iff, RawEntry.of_iff, same]

theorem newRawEntry_file {f : File} (plain : f.Plain) (extent : Nat) :
    (newRawEntry f extent).file = f := by
  rw [RawEntry.file]
  change File.mk f.user (strip f.name) (strip f.ext) = f
  rw [plain.name, plain.ext]

theorem planEdit_file {fs : ImageFs} {record : Nat} {data : Record} {index : Nat} {raw : RawEntry}
    {block : Nat} {fresh : Bool} :
    (planEdit fs record data index raw block fresh).raw.file = raw.file := by
  simp [RawEntry.file, planEdit, encodeBlocks]

theorem RawEntry.renamed_file (raw : RawEntry) (name : Fin 8 → UInt8) (ext : Fin 3 → UInt8) :
    (raw.renamed name ext).file = ⟨raw.user, strip name, strip ext⟩ := by
  rw [RawEntry.file, RawEntry.renamed]
  congr 1
  · exact strip_renamed name raw.name
  · exact strip_renamed ext raw.ext

theorem RawEntry.withLock_file (raw : RawEntry) (ro : Bool) : (raw.withLock ro).file = raw.file := by
  rw [RawEntry.file, RawEntry.file, RawEntry.withLock]
  congr 1
  funext i
  simp only [strip]
  split
  · have set := and_or_attribute (raw.ext i) 0x80
    cases ro with
    | true => exact set
    | false => simp [UInt8.and_assoc]
  · rfl

theorem RawEntry.cut_file (raw : RawEntry) (params : Params) (keep : Nat) :
    (raw.cut params keep).file = raw.file := rfl

/-! ## Groups and counts -/

section Groups

variable {params : Params}

/-- A group stays under its own mask. -/
theorem group_of_extent {raw : RawEntry} (mask : params.exm = 0 ∨ params.exm = 1) {base last : Nat}
    (whole : base % (params.exm + 1) = 0) (small : last ≤ params.exm)
    (extent : raw.extent = base + last) :
    raw.group params = base ∧ raw.extent % (params.exm + 1) = last := by
  rw [raw.group_eq mask, extent]
  rcases mask with mask | mask <;> rw [mask] at whole small ⊢ <;> omega

theorem group_whole (raw : RawEntry) (mask : params.exm = 0 ∨ params.exm = 1) :
    raw.group params % (params.exm + 1) = 0 := by
  rw [raw.group_eq mask]
  exact Nat.mul_mod_left _ _

theorem baseExtent_whole (params : Params) (record : Nat) :
    baseExtent params record % (params.exm + 1) = 0 := Nat.mul_mod_left _ _

/-- A record of the first 2048 extents lies in an extent whose number an entry holds. -/
theorem baseExtent_small (mask : params.exm = 0 ∨ params.exm = 1) {record : Nat}
    (small : record < 2048 * recordsPerExtent) : baseExtent params record + params.exm < 2048 := by
  have whole := baseExtent_add_withinEntry params record
  have even := baseExtent_whole params record
  unfold recordsPerExtent at whole small
  rcases mask with mask | mask <;> rw [mask] at even ⊢ <;> omega

/-- A new entry is of the group it was made for, and empty. -/
theorem newRawEntry_group (f : File) (mask : params.exm = 0 ∨ params.exm = 1) {base : Nat}
    (whole : base % (params.exm + 1) = 0) (small : base < 2048) :
    (newRawEntry f base).group params = base ∧ (newRawEntry f base).count params = 0 := by
  have extent : (newRawEntry f base).extent = base :=
    RawEntry.extent_withExtent (newRawEntry f base) small
  obtain ⟨group, place⟩ := group_of_extent mask whole (Nat.zero_le _) extent
  refine ⟨group, ?_⟩
  rw [RawEntry.count_eq _ mask, place]
  rfl

/-- An entry after a record of its group was written is of the same group and counts that record
and those it counted. -/
theorem RawEntry.grown_group {raw : RawEntry} (mask : params.exm = 0 ∨ params.exm = 1)
    {base within : Nat} (group : raw.group params = base)
    (inside : within < recordsPerEntry params) (small : base + params.exm < 2048) :
    (raw.grown params base within).group params = base ∧
      (raw.grown params base within).count params = max (raw.count params) (within + 1) := by
  have whole := group_whole raw mask
  rw [group] at whole
  simp only [RawEntry.grown]
  change (if within + 1 > raw.count params then _ else raw).group params = base ∧
    (if within + 1 > raw.count params then _ else raw).count params = _
  by_cases more : within + 1 > raw.count params
  · simp only [if_pos more]
    have last : (within + 1 - 1) / recordsPerExtent ≤ params.exm := by
      rw [recordsPerEntry] at inside
      unfold recordsPerExtent at *
      rcases mask with mask | mask <;> rw [mask] at inside ⊢ <;> omega
    have extent : RawEntry.extent { raw.withExtent (base + (within + 1 - 1) / recordsPerExtent) with
        rc := UInt8.ofNat (within + 1 - (within + 1 - 1) / recordsPerExtent * recordsPerExtent) } =
        base + (within + 1 - 1) / recordsPerExtent :=
      RawEntry.extent_withExtent raw (by omega)
    obtain ⟨grouped, place⟩ := group_of_extent mask whole last extent
    refine ⟨grouped, ?_⟩
    rw [RawEntry.count_eq _ mask, place, UInt8.toNat_ofNat']
    unfold recordsPerExtent
    omega
  · simp only [if_neg more]
    exact ⟨group, by omega⟩

/-- Growing keeps a record count within one extent. -/
theorem RawEntry.grown_rc {raw : RawEntry} (counted : raw.rc ≤ 128) (base within : Nat) :
    (raw.grown params base within).rc ≤ 128 := by
  simp only [RawEntry.grown]
  split
  · rw [UInt8.le_iff_toNat_le]
    change (UInt8.ofNat _).toNat ≤ 128
    rw [UInt8.toNat_ofNat']
    unfold recordsPerExtent
    omega
  · exact counted

/-- A cut entry is of the same group and counts what was kept. -/
theorem RawEntry.cut_group {raw : RawEntry} (mask : params.exm = 0 ∨ params.exm = 1) {keep : Nat}
    (some : 0 < keep) (inside : keep ≤ recordsPerEntry params)
    (small : raw.group params + params.exm < 2048) :
    (raw.cut params keep).group params = raw.group params ∧
      (raw.cut params keep).count params = keep ∧ (raw.cut params keep).rc ≤ 128 := by
  have whole := group_whole raw mask
  have last : (keep - 1) / recordsPerExtent ≤ params.exm := by
    rw [recordsPerEntry] at inside
    unfold recordsPerExtent at *
    rcases mask with mask | mask <;> rw [mask] at inside ⊢ <;> omega
  have extent : (raw.cut params keep).extent =
      raw.group params + (keep - 1) / recordsPerExtent :=
    RawEntry.extent_withExtent raw (by rw [RawEntry.group] at *; omega)
  obtain ⟨grouped, place⟩ := group_of_extent mask whole last extent
  have rc : (raw.cut params keep).rc.toNat =
      keep - (keep - 1) / recordsPerExtent * recordsPerExtent := by
    change (UInt8.ofNat _).toNat = _
    rw [UInt8.toNat_ofNat']
    unfold recordsPerExtent
    omega
  refine ⟨grouped, ?_, ?_⟩
  · rw [RawEntry.count_eq _ mask, place, rc]
    unfold recordsPerExtent
    omega
  · rw [UInt8.le_iff_toNat_le, rc]
    unfold recordsPerExtent
    change _ ≤ 128
    omega

end Groups

end EthernetGateway.Image
