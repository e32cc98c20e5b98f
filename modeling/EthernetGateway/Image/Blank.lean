import EthernetGateway.Image.AllOrNothing
import EthernetGateway.Image.SectorChecks

/-!
# Freshly formatted images

A blank image is what a format program leaves: every byte `FILL` where there are no sector headers,
and on the Altair 88-DCDD the header, the data and the stop byte of every sector, with the check
byte last. Every sector of a blank image has the check byte that is prescribed.
-/

namespace EthernetGateway.Image

/-- `slice::fill` on a range of a sector. -/
def fillFrom (sec : List UInt8) (offset count : Nat) (value : UInt8) : List UInt8 :=
  sec.take offset ++ List.replicate count value ++ sec.drop (offset + count)

/-- `Format::can_make_blank`. -/
def Format.canMakeBlank (fmt : Format) : Bool :=
  match fmt.framing with
  | .raw => true
  | .framed _ _ => false
  | .altairSplit seclen sectrk _ firstOff restOff =>
    decide (seclen = 137 ∧ sectrk = 32 ∧ firstOff = 3 ∧ restOff = 7) &&
      decide ((fmt.totalRecords - 1) / sectrk ≤ 255)

/-- The bytes a blank sector has before its check byte is set, with the offset of its data. -/
def blankHeader (seclen sectrk splitTrack firstOff restOff record : Nat) : List UInt8 × Nat :=
  let track := record / sectrk % 256
  let pos := record % sectrk
  let bootFormat := decide (track < splitTrack)
  let dataOff := if bootFormat then firstOff else restOff
  let sec := List.replicate seclen 0
  let sec := sec.set 0 (UInt8.ofNat track ||| 0x80)
  let sec := sec.set 1 (if bootFormat then 0 else UInt8.ofNat (altairSectorOrder.getD pos 0))
  let sec := sec.set 2 0x01
  let sec := fillFrom sec dataOff 128 fill
  let sec :=
    if bootFormat then fillFrom (sec.set 131 0xFF) 133 4 0
    else ((((sec.set 3 fill).set 5 fill).set 6 fill).set 135 0xFF).set 136 0
  (sec, dataOff)

/-- One turn of the loop of `Format::blank_image`: a sector of a blank image. -/
def blankSector (seclen sectrk splitTrack firstOff restOff record : Nat) : List UInt8 :=
  let (sec, dataOff) := blankHeader seclen sectrk splitTrack firstOff restOff record
  let base := record * seclen
  match (Framing.altairSplit seclen sectrk splitTrack firstOff restOff).sectorCheck record with
  | none => sec
  | some (checkAt, also) =>
    let sum := ((sec.drop dataOff).take 128).foldl (· + ·) 0
    sec.set (checkAt - base) (also.foldl (fun sum extra => sum + sec.getD (extra - base) 0) sum)

/-- `Format::blank_image`. -/
def Format.blankImage (fmt : Format) : Option (List UInt8) :=
  if !fmt.canMakeBlank then none
  else
    match fmt.framing with
    | .raw => some (List.replicate (fmt.totalRecords * 128) fill)
    | .framed _ _ => none
    | .altairSplit seclen sectrk splitTrack firstOff restOff =>
      some ((List.range fmt.totalRecords).flatMap
        (blankSector seclen sectrk splitTrack firstOff restOff))

/-- What a medium holds that has the bytes of an image. -/
def contentsOf (image : List UInt8) : Contents := fun address => image.getD address 0

/-! ## Sectors of a blank image -/

/-- A filled sector is as long as before. -/
theorem fillFrom_length {sec : List UInt8} {offset count : Nat} (inside : offset + count ≤ sec.length)
    (value : UInt8) : (fillFrom sec offset count value).length = sec.length := by
  unfold fillFrom
  rw [List.length_append, List.length_append, List.length_take, List.length_replicate,
    List.length_drop]
  omega

/-- A blank sector has 137 bytes, and its data are those of its format. -/
theorem blankHeader_shape (splitTrack record : Nat) :
    (blankHeader 137 32 splitTrack 3 7 record).1.length = 137 ∧
      (blankHeader 137 32 splitTrack 3 7 record).2 =
        if record / 32 % 256 < splitTrack then 3 else 7 := by
  unfold blankHeader
  by_cases boot : record / 32 % 256 < splitTrack
  · simp only [boot, decide_true, if_true]
    refine ⟨?_, trivial⟩
    rw [fillFrom_length, List.length_set, fillFrom_length]
    all_goals simp [fillFrom_length]
  · simp only [boot, decide_false, if_false, Bool.false_eq_true]
    refine ⟨?_, trivial⟩
    simp [fillFrom_length]

/-- The bytes of a range of a sector, one by one. -/
theorem ofFn_getD {sec : List UInt8} {offset : Nat} (inside : offset + 128 ≤ sec.length) :
    (List.ofFn fun i : Fin 128 => sec.getD (offset + i) 0) = (sec.drop offset).take 128 := by
  apply List.ext_getElem
  · simp only [List.length_ofFn, List.length_take, List.length_drop]
    omega
  · intro i here there
    rw [List.length_ofFn] at here
    rw [List.getElem_ofFn, List.getElem_take, List.getElem_drop, List.getD_eq_getElem]

/-- Setting the check byte of a sector last makes it the sum of the rest. -/
theorem set_sum {sec : List UInt8} {offset at' : Nat} {also : List Nat}
    (inside : offset + 128 ≤ sec.length) (here : at' < sec.length)
    (outside : at' < offset ∨ offset + 128 ≤ at') (apart : at' ∉ also) {out : List UInt8}
    (set : out = sec.set at' (also.foldl (fun sum extra => sum + sec.getD extra 0)
      (((sec.drop offset).take 128).foldl (· + ·) 0))) :
    out.getD at' 0 = also.foldl (fun sum extra => sum + out.getD extra 0)
      ((List.ofFn fun i : Fin 128 => out.getD (offset + i) 0).foldl (· + ·) 0) := by
  have other : ∀ i, i ≠ at' → out.getD i 0 = sec.getD i 0 := by
    intro i different
    rw [set, List.getD_eq_getElem?_getD, List.getD_eq_getElem?_getD,
      List.getElem?_set_ne different.symm]
  have data : (fun i : Fin 128 => out.getD (offset + i) 0) =
      fun i : Fin 128 => sec.getD (offset + i) 0 := by
    funext i
    have bound := i.isLt
    exact other _ (by omega)
  have sums : ∀ sum, also.foldl (fun sum extra => sum + out.getD extra 0) sum =
      also.foldl (fun sum extra => sum + sec.getD extra 0) sum := by
    intro sum
    apply List.foldl_ext
    intro sum extra member
    rw [other extra fun same => apart (same ▸ member)]
  rw [data, ofFn_getD inside, sums, set, List.getD_eq_getElem?_getD, List.getElem?_set_self here]
  rfl

/-- The bytes of one part of a list made of parts of one length. -/
theorem flatMap_getD {part : Nat → List UInt8} {size : Nat} (sized : ∀ n, (part n).length = size)
    (parts : List Nat) {k i : Nat} (inside : i < size) :
    (parts.flatMap part).getD (k * size + i) 0 =
      ((parts[k]?).map fun n => (part n).getD i 0).getD 0 := by
  induction parts generalizing k with
  | nil => simp
  | cons n parts ih =>
    rw [List.flatMap_cons]
    cases k with
    | zero =>
      rw [Nat.zero_mul, Nat.zero_add, List.getD_append _ _ _ _ (by rw [sized]; exact inside)]
      rfl
    | succ k =>
      have past : (part n).length ≤ (k + 1) * size + i := by
        rw [sized, Nat.succ_mul]
        omega
      have rest : (k + 1) * size + i - (part n).length = k * size + i := by
        rw [sized, Nat.succ_mul]
        omega
      rw [List.getD_append_right _ _ _ _ past, rest, ih]
      rfl

/-- A blank sector has 137 bytes. -/
theorem blankSector_length (splitTrack record : Nat) :
    (blankSector 137 32 splitTrack 3 7 record).length = 137 := by
  have length := (blankHeader_shape splitTrack record).1
  unfold blankSector
  dsimp only
  split
  · exact length
  · rw [List.length_set]
    exact length

/-- A sector of a blank image, on a track a header byte can state. -/
theorem blankSector_checked {splitTrack record : Nat} (stated : record / 32 < 256)
    {contents : Contents} (holds : ∀ i < 137, contents (record * 137 + i) =
      (blankSector 137 32 splitTrack 3 7 record).getD i 0) :
    (Framing.altairSplit 137 32 splitTrack 3 7).SectorChecked contents record := by
  obtain ⟨length, dataOff⟩ := blankHeader_shape splitTrack record
  rw [Nat.mod_eq_of_lt stated] at dataOff
  intro checkAt also check
  have cancel (i : Nat) : record * 137 + i - record * 137 = i := Nat.add_sub_cancel_left _ _
  by_cases boot : record / 32 < splitTrack
  · have own : (Framing.altairSplit 137 32 splitTrack 3 7).sectorCheck record =
        some (record * 137 + 132, []) := if_pos boot
    rw [if_pos boot] at dataOff
    cases own.symm.trans check
    have sums := @set_sum (blankHeader 137 32 splitTrack 3 7 record).1 3 132 []
      (by omega) (by omega) (.inr (by omega)) (by simp)
      (blankSector 137 32 splitTrack 3 7 record) (by
        unfold blankSector
        simp only [own, cancel, dataOff, List.foldl_nil])
    have offset : (Framing.altairSplit 137 32 splitTrack 3 7).recordOffset record =
        record * 137 + 3 := by simp only [Framing.recordOffset, boot, if_true]
    have data : (fun i : Fin 128 => contents (record * 137 + 3 + i)) =
        fun i : Fin 128 => (blankSector 137 32 splitTrack 3 7 record).getD (3 + i) 0 := by
      funext i
      have bound := i.isLt
      rw [Nat.add_assoc, holds _ (by omega)]
    rw [offset, data, holds 132 (by omega), sums]
    rfl
  · have own : (Framing.altairSplit 137 32 splitTrack 3 7).sectorCheck record =
        some (record * 137 + 4, [record * 137 + 2, record * 137 + 3, record * 137 + 5,
          record * 137 + 6]) := if_neg boot
    rw [if_neg boot] at dataOff
    cases own.symm.trans check
    have sums := @set_sum (blankHeader 137 32 splitTrack 3 7 record).1 7 4
      [2, 3, 5, 6] (by omega) (by omega) (.inl (by omega)) (by simp)
      (blankSector 137 32 splitTrack 3 7 record) (by
        unfold blankSector
        simp only [own, cancel, dataOff, List.foldl_cons, List.foldl_nil])
    have offset : (Framing.altairSplit 137 32 splitTrack 3 7).recordOffset record =
        record * 137 + 7 := by simp only [Framing.recordOffset, boot, if_false]
    have data : (fun i : Fin 128 => contents (record * 137 + 7 + i)) =
        fun i : Fin 128 => (blankSector 137 32 splitTrack 3 7 record).getD (7 + i) 0 := by
      funext i
      have bound := i.isLt
      rw [Nat.add_assoc, holds _ (by omega)]
    rw [offset, data, holds 4 (by omega), sums]
    simp only [checkSum, List.foldl_cons, List.foldl_nil, holds 2 (by omega), holds 3 (by omega),
      holds 5 (by omega), holds 6 (by omega)]

/-- Every sector of a blank image has the check byte that is prescribed. -/
theorem blankImage_checked {fmt : Format} {image : List UInt8}
    (blank : fmt.blankImage = some image) : Checked fmt (contentsOf image) := by
  unfold Format.blankImage at blank
  split at blank
  · cases blank
  · rename_i can
    intro phys inside
    cases framing : fmt.framing with
    | raw =>
      intro checkAt also check
      cases check
    | framed seclen dataOff =>
      intro checkAt also check
      cases check
    | altairSplit seclen sectrk splitTrack firstOff restOff =>
      unfold Format.canMakeBlank at can
      simp only [framing, Bool.not_eq_true, Bool.not_eq_false', Bool.and_eq_true,
        decide_eq_true_eq] at can blank
      obtain ⟨⟨rfl, rfl, rfl, rfl⟩, tracks⟩ := can
      cases blank
      apply blankSector_checked
      · have below : phys / 32 ≤ (fmt.totalRecords - 1) / 32 := Nat.div_le_div_right (by omega)
        omega
      · intro i small
        show ((List.range fmt.totalRecords).flatMap _).getD _ 0 = _
        rw [flatMap_getD (blankSector_length splitTrack) _ small, List.getElem?_range inside]
        rfl

/-! ## Over runs -/

/-- The check bytes of the Altair format are an invariant: a blank image has them, and over every
run of operations and reads that succeed, from a mount of any image that has them, every sector
keeps its own, and no byte changes but the data and the check bytes of the sectors written. -/
theorem sector_checks_kept (fmt : Format) (regular : fmt.framing.Regular) :
    (∀ image, fmt.blankImage = some image → Checked fmt (contentsOf image)) ∧
      ∀ media fs, Succeeded media fmt fs →
        (Checked fmt media.contents → Checked fmt fs.media.contents) ∧
          ∃ ws, fs.media.log = media.log ++ ws ∧
            ∀ address, (∀ phys, Written fmt ws phys → ¬ fmt.framing.Touches phys address) →
              fs.media.contents address = media.contents address := by
  refine ⟨fun image blank => blankImage_checked blank, ?_⟩
  intro media fs succeeded
  obtain ⟨_, refreshed⟩ := succeeded.refreshed regular
  exact ⟨refreshed.checked, refreshed.writes⟩

/-- An Altair image of zeros, on a medium where every call succeeds. -/
def zeroMedia : Media where
  length := altair8.minBytes
  contents := fun _ => 0
  outcomes := fun _ => .done
  calls := 0
  log := []

/-- Every sector of it sums to zero. -/
theorem zeroMedia_checked : Checked altair8 zeroMedia.contents := by
  intro phys _ checkAt also check
  have data (count : Nat) : (List.replicate count (0 : UInt8)).foldl (· + ·) 0 = 0 := by
    induction count with
    | zero => rfl
    | succ count ih => exact ih
  have rest (others : List Nat) : others.foldl (fun sum _ => sum + (0 : UInt8)) 0 = 0 := by
    induction others with
    | nil => rfl
    | cons _ others ih => exact ih
  show 0 = also.foldl (fun sum _ => sum + 0) ((List.ofFn fun _ : Fin 128 => 0).foldl (· + ·) 0)
  rw [List.ofFn_const, data, rest]

/-- The theorem at work: a blank Altair image is checked, and so is an image of zeros after a file
was created on it. -/
theorem sector_checks_kept_create :
    (∃ image, altair8.blankImage = some image ∧ Checked altair8 (contentsOf image)) ∧
      ∃ fs after, mount zeroMedia altair8 false = .ok fs ∧
        (Operation.create fileA).run fs = (.ok (), after) ∧ after.media.log.length = 2 ∧
          Checked altair8 after.media.contents := by
  have regular : altair8.framing.Regular := ⟨rfl, rfl, rfl⟩
  constructor
  · exact ⟨_, rfl, (sector_checks_kept altair8 regular).1 _ rfl⟩
  · have checked : mountsTo zeroMedia altair8 (fun fs =>
        ((Operation.create fileA).run fs).1.isOk &&
          ((Operation.create fileA).run fs).2.media.log.length == 2) = true := by decide +kernel
    obtain ⟨fs, mounted, _, held⟩ := mountsTo_reachable checked
    simp only [Bool.and_eq_true, beq_iff_eq] at held
    cases ran : (Operation.create fileA).run fs with
    | mk ending after =>
      rw [ran] at held
      cases ending with
      | error reason => cases held.1
      | ok done =>
        have succeeded : Succeeded zeroMedia altair8 after :=
          .operation (.mount mounted) (.create fileA) ran
        exact ⟨fs, after, mounted, ran, held.2,
          ((sector_checks_kept altair8 regular).2 zeroMedia after succeeded).1 zeroMedia_checked⟩

end EthernetGateway.Image
