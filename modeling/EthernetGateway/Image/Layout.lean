import EthernetGateway.Image.Format
import EthernetGateway.Image.Media

/-!
# Records of a sound format

Skew and framing place the logical data records of a sound format on disjoint byte ranges of
the image, and check bytes outside all of them. So a medium can be read as a store of records
in which writing one record changes that record and no other, whatever the check bytes do.
Everything above this module speaks of records only.
-/

namespace EthernetGateway.Image

/-- The 128 bytes of a record. -/
abbrev Record := Fin 128 → UInt8

namespace Skew

/-- A permuting translation keeps a sector inside its track. -/
theorem physical_lt {skew : Skew} {sectors : Nat} (permutes : skew.Permutes sectors)
    (track logical : Nat) (inside : logical < sectors) :
    skew.physical track logical < sectors := by
  have entry (entries : List Nat) (listed : entries ∈ skew.tables) :
      (entries[logical]?).getD logical < sectors := by
    obtain ⟨length, _, bounded⟩ := permutes entries listed
    have here : logical < entries.length := by omega
    rw [List.getElem?_eq_getElem here, Option.getD_some]
    exact bounded _ (List.getElem_mem here)
  cases skew with
  | none => exact inside
  | table entries => exact entry entries (by simp [tables])
  | split splitTrack first rest =>
    rw [physical]
    split
    · exact entry first (by simp [tables])
    · exact entry rest (by simp [tables])

/-- A permuting translation sends no two sectors of a track to one. -/
theorem physical_inj {skew : Skew} {sectors : Nat} (permutes : skew.Permutes sectors)
    (track left right : Nat) (hl : left < sectors) (hr : right < sectors)
    (same : skew.physical track left = skew.physical track right) : left = right := by
  have entry (entries : List Nat) (listed : entries ∈ skew.tables)
      (equal : (entries[left]?).getD left = (entries[right]?).getD right) : left = right := by
    obtain ⟨length, distinct, _⟩ := permutes entries listed
    rw [List.getElem?_eq_getElem (by omega), List.getElem?_eq_getElem (by omega),
      Option.getD_some, Option.getD_some] at equal
    exact (List.Nodup.getElem_inj_iff distinct).mp equal
  cases skew with
  | none => exact same
  | table entries => exact entry entries (by simp [tables]) same
  | split splitTrack first rest =>
    rw [physical, physical] at same
    split at same
    · exact entry first (by simp [tables]) same
    · exact entry rest (by simp [tables]) same

end Skew

namespace Framing

/-- Bytes of one sector. -/
def unit (framing : Framing) : Nat := framing.imageBytes 1

/-- An image is its sectors. -/
theorem imageBytes_eq (framing : Framing) (records : Nat) :
    framing.imageBytes records = records * framing.unit := by
  cases framing <;> simp [imageBytes, unit]

/-- The data of a record lie inside its sector. -/
theorem recordOffset_inside {framing : Framing} (regular : framing.Regular) (record : Nat) :
    record * framing.unit ≤ framing.recordOffset record ∧
      framing.recordOffset record + 128 ≤ (record + 1) * framing.unit := by
  cases framing with
  | raw =>
    simp only [unit, imageBytes, recordOffset]
    omega
  | framed seclen dataOff =>
    simp only [Regular] at regular
    simp only [unit, imageBytes, recordOffset, Nat.one_mul, Nat.add_mul]
    omega
  | altairSplit seclen sectrk splitTrack firstOff restOff =>
    obtain ⟨rfl, rfl, rfl⟩ := regular
    simp only [unit, imageBytes, recordOffset]
    split <;> omega

/-- Check bytes lie inside their sector and outside its data. -/
theorem sectorCheck_inside {framing : Framing} (regular : framing.Regular) (record at' : Nat)
    (also : List Nat) (check : framing.sectorCheck record = some (at', also)) :
    (∀ address ∈ at' :: also,
      record * framing.unit ≤ address ∧ address + 1 ≤ (record + 1) * framing.unit) ∧
    (at' < framing.recordOffset record ∨ framing.recordOffset record + 128 ≤ at') := by
  cases framing with
  | raw => simp [sectorCheck] at check
  | framed seclen dataOff => simp [sectorCheck] at check
  | altairSplit seclen sectrk splitTrack firstOff restOff =>
    obtain ⟨rfl, rfl, rfl⟩ := regular
    simp only [sectorCheck] at check
    split at check
    · rename_i boot
      simp only [Option.some.injEq, Prod.mk.injEq] at check
      obtain ⟨rfl, rfl⟩ := check
      simp only [List.mem_cons, List.not_mem_nil, or_false, forall_eq, recordOffset, boot,
        ↓reduceIte, unit, imageBytes]
      omega
    · rename_i data
      simp only [Option.some.injEq, Prod.mk.injEq] at check
      obtain ⟨rfl, rfl⟩ := check
      simp only [List.mem_cons, List.not_mem_nil, or_false, forall_eq_or_imp, forall_eq,
        recordOffset, data, ↓reduceIte, unit, imageBytes]
      omega

end Framing

/-- A format whose data area is whole tracks of whole sectors, which its skew permutes. -/
structure Format.Tracked (fmt : Format) : Prop where
  /-- A track holds records. -/
  track : 0 < fmt.sectrk
  /-- A track is a whole number of sectors. -/
  sectors : fmt.sectrk % fmt.recordsPerSector = 0
  /-- The data area is a whole number of tracks. -/
  tracks : fmt.dataRecords % fmt.sectrk = 0
  /-- Skew permutes the sectors of a track. -/
  skew : fmt.skew.Permutes (fmt.sectrk / fmt.recordsPerSector)

/-- A sound format is one of them. -/
theorem Format.Sound.tracked {fmt : Format} (sound : fmt.Sound) : fmt.Tracked :=
  ⟨sound.track.1, sound.track.2, sound.tracks.2, sound.skew⟩

namespace Format

/-- The place of a logical data record in its track. -/
def within (fmt : Format) (record : Nat) : Nat :=
  fmt.skew.physical (fmt.reservedRecords / fmt.sectrk + record / fmt.sectrk)
      (record % fmt.sectrk / fmt.recordsPerSector) * fmt.recordsPerSector +
    record % fmt.sectrk % fmt.recordsPerSector

/-- The physical record of a logical one. -/
def physical (fmt : Format) (record : Nat) : Nat := (fmt.dataPhysicalRecord record).getD 0

variable {fmt : Format}

namespace Tracked

/-- A sector holds at least one record. -/
theorem sector (tracked : fmt.Tracked) : 0 < fmt.recordsPerSector := by
  apply Nat.pos_of_ne_zero
  intro none
  have whole := tracked.sectors
  rw [none, Nat.mod_zero] at whole
  exact absurd whole (Nat.ne_of_gt tracked.track)

/-- The sector of a record is one of its track. -/
theorem sector_lt (tracked : fmt.Tracked) (record : Nat) :
    record % fmt.sectrk / fmt.recordsPerSector < fmt.sectrk / fmt.recordsPerSector := by
  apply Nat.div_lt_of_lt_mul
  rw [Nat.mul_div_cancel' (Nat.dvd_of_mod_eq_zero tracked.sectors)]
  exact Nat.mod_lt _ tracked.track

/-- The place of a record is inside its track. -/
theorem within_lt (tracked : fmt.Tracked) (record : Nat) : fmt.within record < fmt.sectrk := by
  have physicalInside := Skew.physical_lt tracked.skew
    (fmt.reservedRecords / fmt.sectrk + record / fmt.sectrk) _ (tracked.sector_lt record)
  have sectorEnd := Nat.mul_le_mul_right fmt.recordsPerSector physicalInside
  have floor := Nat.div_mul_le_self fmt.sectrk fmt.recordsPerSector
  have sub : record % fmt.sectrk % fmt.recordsPerSector < fmt.recordsPerSector :=
    Nat.mod_lt _ tracked.sector
  rw [Nat.succ_mul] at sectorEnd
  rw [within]
  omega

/-- No two records of a track have one place. -/
theorem within_inj (tracked : fmt.Tracked) {left right : Nat}
    (tracks : left / fmt.sectrk = right / fmt.sectrk) (same : fmt.within left = fmt.within right) :
    left = right := by
  have sector := tracked.sector
  rw [within, within, tracks] at same
  have sectors := congrArg (· / fmt.recordsPerSector) same
  simp only [Nat.mul_comm _ fmt.recordsPerSector, Nat.mul_add_div sector,
    Nat.div_eq_of_lt (Nat.mod_lt _ sector), Nat.add_zero] at sectors
  have sectorSame := Skew.physical_inj tracked.skew _ _ _ (tracked.sector_lt left)
    (tracked.sector_lt right) sectors
  rw [sectorSame] at same
  have subs := Nat.add_left_cancel same
  have withins : left % fmt.sectrk = right % fmt.sectrk := by
    rw [← Nat.div_add_mod (left % fmt.sectrk) fmt.recordsPerSector,
      ← Nat.div_add_mod (right % fmt.sectrk) fmt.recordsPerSector, sectorSame, subs]
  rw [← Nat.div_add_mod left fmt.sectrk, ← Nat.div_add_mod right fmt.sectrk, tracks, withins]

/-- The tracks before that of a record of the data area leave room for its own. -/
theorem track_end (tracked : fmt.Tracked) {record : Nat} (inside : record < fmt.dataRecords) :
    record / fmt.sectrk * fmt.sectrk + fmt.sectrk ≤ fmt.dataRecords := by
  have trackInside : record / fmt.sectrk < fmt.dataRecords / fmt.sectrk := by
    apply Nat.div_lt_of_lt_mul
    rw [Nat.mul_div_cancel' (Nat.dvd_of_mod_eq_zero tracked.tracks)]
    exact inside
  calc
    record / fmt.sectrk * fmt.sectrk + fmt.sectrk = (record / fmt.sectrk + 1) * fmt.sectrk :=
      (Nat.succ_mul _ _).symm
    _ ≤ fmt.dataRecords / fmt.sectrk * fmt.sectrk := Nat.mul_le_mul_right _ trackInside
    _ ≤ fmt.dataRecords := Nat.div_mul_le_self _ _

/-- The records of the data area have physical ones, and no others do. -/
theorem dataPhysicalRecord_eq (tracked : fmt.Tracked) (record : Nat) :
    fmt.dataPhysicalRecord record = if record < fmt.dataRecords then
      some (fmt.reservedRecords + record / fmt.sectrk * fmt.sectrk + fmt.within record) else none := by
  have one : max fmt.recordsPerSector 1 = fmt.recordsPerSector := by
    have sector := tracked.sector
    omega
  have place : fmt.dataPhysicalRecord record =
      if fmt.reservedRecords + record / fmt.sectrk * fmt.sectrk + fmt.within record ≥
        fmt.totalRecords then none
      else some (fmt.reservedRecords + record / fmt.sectrk * fmt.sectrk + fmt.within record) := by
    simp only [dataPhysicalRecord, one, within, Nat.add_assoc]
  have area : fmt.dataRecords = fmt.totalRecords - fmt.reservedRecords := rfl
  rw [place]
  by_cases inside : record < fmt.dataRecords
  · have trackEnd := tracked.track_end inside
    have withinTrack := tracked.within_lt record
    rw [if_pos inside, if_neg (by omega)]
  · have before : fmt.dataRecords ≤ record / fmt.sectrk * fmt.sectrk := by
      calc
        fmt.dataRecords = fmt.dataRecords / fmt.sectrk * fmt.sectrk :=
          (Nat.div_mul_cancel (Nat.dvd_of_mod_eq_zero tracked.tracks)).symm
        _ ≤ record / fmt.sectrk * fmt.sectrk :=
          Nat.mul_le_mul_right _ (Nat.div_le_div_right (Nat.le_of_not_lt inside))
    rw [if_neg inside, if_pos (by omega)]

/-- The physical record of a record of the data area. -/
theorem physical_eq (tracked : fmt.Tracked) {record : Nat} (inside : record < fmt.dataRecords) :
    fmt.physical record =
      fmt.reservedRecords + record / fmt.sectrk * fmt.sectrk + fmt.within record := by
  rw [physical, tracked.dataPhysicalRecord_eq, if_pos inside, Option.getD_some]

/-- It is one of those after the reserved ones. -/
theorem physical_mem (tracked : fmt.Tracked) {record : Nat} (inside : record < fmt.dataRecords) :
    fmt.reservedRecords ≤ fmt.physical record ∧ fmt.physical record < fmt.totalRecords := by
  have trackEnd := tracked.track_end inside
  have withinTrack := tracked.within_lt record
  have area : fmt.dataRecords = fmt.totalRecords - fmt.reservedRecords := rfl
  rw [tracked.physical_eq inside]
  omega

/-- No two logical data records share a physical one. -/
theorem physical_inj (tracked : fmt.Tracked) {left right : Nat} (hl : left < fmt.dataRecords)
    (hr : right < fmt.dataRecords) (same : fmt.physical left = fmt.physical right) :
    left = right := by
  rw [tracked.physical_eq hl, tracked.physical_eq hr] at same
  -- Same track, then same place in it.
  have tracks : left / fmt.sectrk = right / fmt.sectrk := by
    have quotient := congrArg (fun n => (n - fmt.reservedRecords) / fmt.sectrk) same
    simp only [Nat.add_assoc, Nat.add_sub_cancel_left] at quotient
    rwa [Nat.mul_comm, Nat.mul_add_div tracked.track, Nat.div_eq_of_lt (tracked.within_lt left),
      Nat.mul_comm (right / fmt.sectrk), Nat.mul_add_div tracked.track,
      Nat.div_eq_of_lt (tracked.within_lt right), Nat.add_zero, Nat.add_zero] at quotient
  rw [tracks] at same
  exact tracked.within_inj tracks (Nat.add_left_cancel same)

end Tracked

theorem dataPhysicalRecord_eq (sound : fmt.Sound) {record : Nat}
    (inside : record < fmt.dataRecords) :
    fmt.dataPhysicalRecord record = some (fmt.physical record) := by
  rw [sound.tracked.physical_eq inside, sound.tracked.dataPhysicalRecord_eq, if_pos inside]

theorem physical_lt (sound : fmt.Sound) {record : Nat} (inside : record < fmt.dataRecords) :
    fmt.physical record < fmt.totalRecords :=
  (sound.tracked.physical_mem inside).2

/-- No two logical data records share a physical one. -/
theorem physical_inj (sound : fmt.Sound) {left right : Nat} (hl : left < fmt.dataRecords)
    (hr : right < fmt.dataRecords) (same : fmt.physical left = fmt.physical right) :
    left = right :=
  sound.tracked.physical_inj hl hr same

/-- Byte offset of a logical data record. -/
def offset (fmt : Format) (record : Nat) : Nat := fmt.framing.recordOffset (fmt.physical record)

theorem dataRecordOffset_eq (sound : fmt.Sound) {record : Nat}
    (inside : record < fmt.dataRecords) :
    fmt.dataRecordOffset record = some (fmt.offset record) := by
  rw [dataRecordOffset, dataPhysicalRecord_eq sound inside]
  rfl

/-- A sector of the image lies inside the image. -/
theorem sector_inside (physical : Nat) (inside : physical < fmt.totalRecords) :
    (physical + 1) * fmt.framing.unit ≤ fmt.minBytes := by
  rw [minBytes, Framing.imageBytes_eq]
  exact Nat.mul_le_mul_right _ inside

/-- A data record lies inside the image. -/
theorem offset_inside (sound : fmt.Sound) {record : Nat} (inside : record < fmt.dataRecords) :
    fmt.offset record + 128 ≤ fmt.minBytes :=
  Nat.le_trans (Framing.recordOffset_inside sound.framing _).2
    (sector_inside _ (physical_lt sound inside))

/-- Bytes of two different sectors are apart. -/
theorem sectors_apart (unit left right : Nat) (different : left ≠ right) :
    (left + 1) * unit ≤ right * unit ∨ (right + 1) * unit ≤ left * unit := by
  rcases Nat.lt_or_gt_of_ne different with below | above
  · exact .inl (Nat.mul_le_mul_right _ below)
  · exact .inr (Nat.mul_le_mul_right _ above)

end Format

/-- The bytes a medium holds for a logical data record. -/
def recordAt (fmt : Format) (contents : Contents) (record : Nat) : Record :=
  fun i => contents (fmt.offset record + i)

/-- The sum a write puts in a check byte: its data and the bytes named beside it. -/
def checkSum (contents : Contents) (also : List Nat) (data : Record) : UInt8 :=
  also.foldl (fun sum extra => sum + contents extra) ((List.ofFn data).foldl (· + ·) 0)

/-- The calls that write one logical record and refresh its check byte. -/
def recordCalls (fmt : Format) (contents : Contents) (record : Nat) (data : Record) :
    List Call :=
  .write ⟨fmt.offset record, 128, data⟩ ::
    match fmt.framing.sectorCheck (fmt.physical record) with
    | none => []
    | some (at', also) =>
      also.map (fun _ => Call.read) ++
        [.write ⟨at', 1, fun _ =>
          checkSum ((Write.mk (fmt.offset record) 128 data).apply contents) also data⟩]

/-- How many calls the write of a record makes: its own, and the reads and the write of its check
byte where the framing has one. -/
def recordCallCount (fmt : Format) (record : Nat) : Nat :=
  1 + match fmt.framing.sectorCheck (fmt.physical record) with
    | none => 0
    | some (_, also) => also.length + 1

theorem recordCalls_length (fmt : Format) (contents : Contents) (record : Nat) (data : Record) :
    (recordCalls fmt contents record data).length = recordCallCount fmt record := by
  rw [recordCalls, recordCallCount, List.length_cons, Nat.add_comm]
  cases fmt.framing.sectorCheck (fmt.physical record) with
  | none => rfl
  | some found => simp

/-- Writing a data record changes that record only. -/
theorem recordAt_write {fmt : Format} (sound : fmt.Sound) (contents : Contents)
    {record other : Nat} (inside : record < fmt.dataRecords) (otherInside : other < fmt.dataRecords)
    (data : Record) :
    recordAt fmt ((Write.mk (fmt.offset record) 128 data).apply contents) other =
      if other = record then data else recordAt fmt contents other := by
  funext i
  split
  · rename_i same
    subst same
    exact Write.apply_inside ⟨fmt.offset other, 128, data⟩ contents i
  · rename_i different
    have apart := Format.sectors_apart fmt.framing.unit _ _ fun same =>
      different (Format.physical_inj sound otherInside inside same)
    have here := Framing.recordOffset_inside sound.framing (fmt.physical record)
    have there := Framing.recordOffset_inside sound.framing (fmt.physical other)
    apply Write.apply_outside
    simp only [Format.offset]
    omega

/-- Writing a check byte changes no data record. -/
theorem recordAt_check {fmt : Format} (sound : fmt.Sound) (contents : Contents)
    {record other : Nat} (inside : record < fmt.dataRecords) (otherInside : other < fmt.dataRecords)
    {at' : Nat} {also : List Nat}
    (check : fmt.framing.sectorCheck (fmt.physical record) = some (at', also))
    (data : Fin 1 → UInt8) :
    recordAt fmt ((Write.mk at' 1 data).apply contents) other = recordAt fmt contents other := by
  funext i
  have place := Framing.sectorCheck_inside sound.framing _ _ _ check
  have own := place.1 at' (by simp)
  have there := Framing.recordOffset_inside sound.framing (fmt.physical other)
  apply Write.apply_outside
  simp only [Format.offset]
  by_cases same : other = record
  · subst same
    have outside := place.2
    omega
  · have apart := Format.sectors_apart fmt.framing.unit _ _ fun equal =>
      same (Format.physical_inj sound otherInside inside equal)
    omega

/-- Reads leave the contents as they are. -/
theorem applyCalls_reads {α : Type} (items : List α) (contents : Contents) :
    applyCalls (items.map fun _ => Call.read) contents = contents := by
  induction items with
  | nil => rfl
  | cons _ items ih => exact ih

/-- However far the calls that write a record get, they leave every other record alone, and
the record itself is written once the first call took effect. -/
theorem recordAt_recordCalls {fmt : Format} (sound : fmt.Sound) (contents : Contents)
    {record other : Nat} (inside : record < fmt.dataRecords) (otherInside : other < fmt.dataRecords)
    (data : Record) (done : Nat) :
    recordAt fmt (applyCalls ((recordCalls fmt contents record data).take done) contents) other =
      if other = record ∧ 0 < done then data else recordAt fmt contents other := by
  cases done with
  | zero => simp
  | succ done =>
    simp only [recordCalls, List.take_succ_cons, applyCalls_cons, Call.apply, Nat.succ_pos,
      and_true]
    rw [← recordAt_write sound contents inside otherInside data]
    cases check : fmt.framing.sectorCheck (fmt.physical record) with
    | none => simp
    | some found =>
      obtain ⟨at', also⟩ := found
      simp only [List.take_append, ← List.map_take, applyCalls_append, applyCalls_reads]
      cases done - (also.map fun _ => Call.read).length with
      | zero => rfl
      | succ more =>
        simp only [List.take_succ_cons, List.take_nil, applyCalls_cons, applyCalls_nil, Call.apply]
        exact recordAt_check sound _ inside otherInside check _

end EthernetGateway.Image
