import EthernetGateway.Image.Layout

/-!
# Where the logical records are placed

The logical records of a format whose tracks its skew permutes are its physical ones behind the
reserved area, each once. That keeps their bytes apart where the framing does: every sector has to
hold its data and its check byte, the two side by side.
-/

namespace EthernetGateway.Image

namespace Format

variable {fmt : Format}

/-- Every physical record behind the reserved area is that of a logical one. -/
theorem Tracked.physical_surjective (tracked : fmt.Tracked) {physical : Nat}
    (behind : fmt.reservedRecords ≤ physical) (inside : physical < fmt.totalRecords) :
    ∃ record < fmt.dataRecords, fmt.physical record = physical := by
  have onto := Finset.surjOn_of_injOn_of_card_le fmt.physical
    (s := Finset.range fmt.dataRecords) (t := Finset.Ico fmt.reservedRecords fmt.totalRecords)
    (fun record mem => by
      have place := tracked.physical_mem (Finset.mem_range.mp mem)
      exact Finset.mem_coe.mpr (Finset.mem_Ico.mpr place))
    (fun left hl right hr same =>
      tracked.physical_inj (Finset.mem_range.mp hl) (Finset.mem_range.mp hr) same)
    (by rw [Nat.card_Ico, Finset.card_range]; exact Nat.le_refl _)
  obtain ⟨record, mem, same⟩ :=
    onto (Finset.mem_coe.mpr (Finset.mem_Ico.mpr ⟨behind, inside⟩))
  exact ⟨record, Finset.mem_range.mp (Finset.mem_coe.mp mem), same⟩

/-- The tracks of the data area are counted. -/
theorem Tracked.counts (tracked : fmt.Tracked) (sized : fmt.totalRecords < 2 ^ 32) {record : Nat}
    (inside : record < fmt.dataRecords) : fmt.Counts record := by
  have reserved := Nat.div_le_self fmt.reservedRecords fmt.sectrk
  have track := Nat.div_le_self record fmt.sectrk
  have area : fmt.dataRecords = fmt.totalRecords - fmt.reservedRecords := rfl
  refine ⟨tracked.track, ?_⟩
  omega

/-- Where a track has two records at least, every track is counted. -/
theorem counts_of_two {record : Nat} (two : 2 ≤ fmt.sectrk)
    (reserved : fmt.reservedRecords < 2 ^ 32) (sized : record < 2 ^ 32) : fmt.Counts record := by
  have half : fmt.reservedRecords / fmt.sectrk ≤ fmt.reservedRecords / 2 :=
    Nat.div_le_div_left two (Nat.succ_pos 1)
  have half' : record / fmt.sectrk ≤ record / 2 := Nat.div_le_div_left two (Nat.succ_pos 1)
  refine ⟨(Nat.succ_pos 1).trans_le two, ?_⟩
  omega

/-- The logical record of a physical one is one of the data area. -/
theorem Tracked.dataPhysicalRecord_some (tracked : fmt.Tracked) {record physical : Nat}
    (placed : fmt.dataPhysicalRecord record = some physical) :
    record < fmt.dataRecords ∧ fmt.physical record = physical := by
  have inside : record < fmt.dataRecords := by
    by_contra beyond
    rw [tracked.dataPhysicalRecord_eq, if_neg beyond] at placed
    cases placed
  refine ⟨inside, ?_⟩
  rw [Format.physical, placed, Option.getD_some]

end Format

/-! ## Sectors -/

/-- The 128 bytes of a record and its check byte are apart in its sector. The check byte of an
Altair sector stands at 132 below the track where the framing changes, and at 4 from there on; a
track has sectors. -/
def Framing.Apart : Framing → Prop
  | .raw => True
  | .framed seclen dataOff => dataOff + 128 ≤ seclen
  | .altairSplit seclen sectrk _ firstOff restOff =>
    0 < sectrk ∧
      ((firstOff ≤ 4 ∧ 132 < seclen) ∨ (132 < firstOff ∧ firstOff + 128 ≤ seclen)) ∧
      4 < restOff ∧ restOff + 128 ≤ seclen

instance : (framing : Framing) → Decidable framing.Apart
  | .raw => inferInstanceAs (Decidable True)
  | .framed seclen dataOff => inferInstanceAs (Decidable (dataOff + 128 ≤ seclen))
  | .altairSplit seclen sectrk _ firstOff restOff => inferInstanceAs (Decidable
      (0 < sectrk ∧
        ((firstOff ≤ 4 ∧ 132 < seclen) ∨ (132 < firstOff ∧ firstOff + 128 ≤ seclen)) ∧
        4 < restOff ∧ restOff + 128 ≤ seclen))

namespace Framing

variable {framing : Framing}

/-- A record lies in its sector. -/
theorem Apart.inside (apart : framing.Apart) (record : Nat) :
    record * framing.unit ≤ framing.recordOffset record ∧
      framing.recordOffset record + 128 ≤ (record + 1) * framing.unit := by
  cases framing with
  | raw =>
    simp only [unit, imageBytes, recordOffset]
    omega
  | framed seclen dataOff =>
    have fits : dataOff + 128 ≤ seclen := apart
    simp only [unit, imageBytes, recordOffset, Nat.one_mul, Nat.add_mul]
    omega
  | altairSplit seclen sectrk splitTrack firstOff restOff =>
    obtain ⟨_, first, rest⟩ := apart
    simp only [unit, imageBytes, recordOffset, Nat.one_mul, Nat.add_mul]
    split <;> omega

/-- So does its check byte, which is none of its data. -/
theorem Apart.check (apart : framing.Apart) {record place : Nat} {also : List Nat}
    (check : framing.sectorCheck record = some (place, also)) :
    record * framing.unit ≤ place ∧ place + 1 ≤ (record + 1) * framing.unit ∧
      (place < framing.recordOffset record ∨ framing.recordOffset record + 128 ≤ place) := by
  cases framing with
  | raw => cases check
  | framed seclen dataOff => cases check
  | altairSplit seclen sectrk splitTrack firstOff restOff =>
    obtain ⟨_, first, rest⟩ := apart
    simp only [sectorCheck] at check
    simp only [unit, imageBytes, recordOffset, Nat.one_mul, Nat.add_mul]
    split at check
    · rename_i below
      cases check
      rw [if_pos below]
      omega
    · rename_i above
      cases check
      rw [if_neg above]
      omega

/-- The check byte of any sector is none of the data of any record. -/
theorem Apart.check_apart (apart : framing.Apart) {record sector place : Nat} {also : List Nat}
    (check : framing.sectorCheck sector = some (place, also)) :
    place < framing.recordOffset record ∨ framing.recordOffset record + 128 ≤ place := by
  obtain ⟨low, high, own⟩ := apart.check check
  obtain ⟨start, stop⟩ := apart.inside record
  by_cases same : sector = record
  · rw [← same]
    exact own
  · have sectors := Format.sectors_apart framing.unit sector record same
    omega

end Framing

/-! ## The mapping -/

/-- Of a format whose tracks its skew permutes, the logical records of the data area are placed on
the physical ones behind the reserved area, each on one of its own, and no others are placed whose
track can be counted, as all can where a track has two records; where the framing keeps records and
check bytes apart, so are their bytes, inside the image. -/
theorem records_placed (fmt : Format) (tracked : fmt.Tracked) (sized : fmt.totalRecords < 2 ^ 32) :
    (∀ physical, (∃ record, fmt.dataPhysicalRecord record = some physical) ↔
      fmt.reservedRecords ≤ physical ∧ physical < fmt.totalRecords) ∧
    (∀ left right physical, fmt.dataPhysicalRecord left = some physical →
      fmt.dataPhysicalRecord right = some physical → left = right) ∧
    (∀ record < fmt.dataRecords, fmt.Counts record) ∧
    (∀ record, fmt.Counts record →
      (fmt.dataPhysicalRecord record = none ↔ fmt.dataRecords ≤ record)) ∧
    (2 ≤ fmt.sectrk → fmt.reservedRecords < 2 ^ 32 → ∀ record < 2 ^ 32, fmt.Counts record) ∧
    (fmt.framing.Apart → ∀ record offset, fmt.dataRecordOffset record = some offset →
      offset + 128 ≤ fmt.minBytes ∧
      (∀ other there, fmt.dataRecordOffset other = some there → other ≠ record →
        there + 128 ≤ offset ∨ offset + 128 ≤ there) ∧
      ∀ sector place also, fmt.framing.sectorCheck sector = some (place, also) →
        place < offset ∨ offset + 128 ≤ place) := by
  refine ⟨?_, ?_, fun record inside => tracked.counts sized inside, ?_,
    fun two reserved record small => Format.counts_of_two two reserved small, ?_⟩
  · intro physical
    constructor
    · rintro ⟨record, placed⟩
      obtain ⟨inside, same⟩ := tracked.dataPhysicalRecord_some placed
      rw [← same]
      exact tracked.physical_mem inside
    · rintro ⟨behind, inside⟩
      obtain ⟨record, data, same⟩ := tracked.physical_surjective behind inside
      refine ⟨record, ?_⟩
      rw [tracked.dataPhysicalRecord_eq, if_pos data, ← tracked.physical_eq data, same]
  · intro left right physical placedLeft placedRight
    obtain ⟨insideLeft, sameLeft⟩ := tracked.dataPhysicalRecord_some placedLeft
    obtain ⟨insideRight, sameRight⟩ := tracked.dataPhysicalRecord_some placedRight
    exact tracked.physical_inj insideLeft insideRight (sameLeft.trans sameRight.symm)
  · intro record _
    rw [tracked.dataPhysicalRecord_eq]
    split
    · rename_i inside
      exact ⟨(nomatch ·), fun beyond => absurd inside (Nat.not_lt.mpr beyond)⟩
    · rename_i beyond
      exact ⟨fun _ => Nat.le_of_not_lt beyond, fun _ => rfl⟩
  · intro apart record offset found
    have located {record offset : Nat} (found : fmt.dataRecordOffset record = some offset) :
        record < fmt.dataRecords ∧ offset = fmt.framing.recordOffset (fmt.physical record) := by
      obtain ⟨physical, placed, made⟩ := Option.map_eq_some_iff.mp found
      obtain ⟨inside, same⟩ := tracked.dataPhysicalRecord_some placed
      exact ⟨inside, by rw [same, made]⟩
    obtain ⟨inside, here⟩ := located found
    obtain ⟨start, stop⟩ := apart.inside (fmt.physical record)
    refine ⟨?_, ?_, ?_⟩
    · have image := Format.sector_inside _ (tracked.physical_mem inside).2
      omega
    · intro other there foundOther different
      obtain ⟨insideOther, isThere⟩ := located foundOther
      obtain ⟨startOther, stopOther⟩ := apart.inside (fmt.physical other)
      have sectors := Format.sectors_apart fmt.framing.unit _ _ fun same =>
        different (tracked.physical_inj insideOther inside same)
      omega
    · intro sector place also check
      rw [here]
      exact apart.check_apart check

/-- The first two records of the Altair floppy, the format of the table with check bytes and two
skews. -/
theorem records_placed_altair :
    altair8.dataRecordOffset 0 = some 8771 ∧ altair8.dataRecordOffset 1 = some 9867 ∧
      8771 + 128 ≤ altair8.minBytes ∧ (9867 + 128 ≤ 8771 ∨ 8771 + 128 ≤ 9867) := by
  have tracked : altair8.Tracked := (formats_sound altair8 (by decide)).tracked
  have first : altair8.dataRecordOffset 0 = some 8771 := by decide
  have second : altair8.dataRecordOffset 1 = some 9867 := by decide
  obtain ⟨_, _, _, _, _, apart⟩ := records_placed altair8 tracked (by decide)
  obtain ⟨inside, others, _⟩ := apart (by decide) 0 8771 first
  exact ⟨first, second, inside, others 1 9867 second (by decide)⟩

/-- A format of two records, framed in sectors too short for them. -/
def crampedFormat : Format where
  token := "cramped"
  label := "two records in sectors of 64 bytes"
  totalRecords := 2
  sectrk := 2
  recordsPerSector := 1
  reservedRecords := 0
  blocksize := 1024
  maxdir := 4
  declaredBlocks := none
  framing := .framed 64 0
  skew := .none
  exm := none
  exactSize := none

/-- The records of a format overlap where its sectors are too short for them. -/
theorem cramped_records_overlap :
    ¬ ∀ fmt : Format, fmt.Tracked → ∀ left right here there,
      fmt.dataRecordOffset left = some here → fmt.dataRecordOffset right = some there →
        left ≠ right → here + 128 ≤ there ∨ there + 128 ≤ here := by
  intro all
  have tracked : crampedFormat.Tracked := ⟨by decide, by decide, by decide, by decide⟩
  have apart := all crampedFormat tracked 0 1 0 64 (by decide) (by decide) (by decide)
  omega

end EthernetGateway.Image
