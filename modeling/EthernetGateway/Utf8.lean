import EthernetGateway.Text
import EthernetGateway.Bytes
import Mathlib

/-!
# UTF-8

A text is written as UTF-8, and bytes are read as UTF-8 strictly or with a replacement for each
sequence that is none. What is read as ASCII was written as ASCII, and every text is read back from
its bytes.
-/

namespace EthernetGateway.Text

/-- `as_bytes`: a text in UTF-8. -/
def toUtf8 (text : Text) : List UInt8 := text.flatMap String.utf8EncodeChar

/-- The ranges of the bytes behind the first byte of a character, where it can start one. -/
def following (first : UInt8) : Option (List (UInt8 × UInt8)) :=
  if first < 0x80 then some []
  else if 0xC2 ≤ first ∧ first ≤ 0xDF then some [(0x80, 0xBF)]
  else if first = 0xE0 then some [(0xA0, 0xBF), (0x80, 0xBF)]
  else if first = 0xED then some [(0x80, 0x9F), (0x80, 0xBF)]
  else if 0xE1 ≤ first ∧ first ≤ 0xEF then some [(0x80, 0xBF), (0x80, 0xBF)]
  else if first = 0xF0 then some [(0x90, 0xBF), (0x80, 0xBF), (0x80, 0xBF)]
  else if first = 0xF4 then some [(0x80, 0x8F), (0x80, 0xBF), (0x80, 0xBF)]
  else if 0xF1 ≤ first ∧ first ≤ 0xF3 then some [(0x80, 0xBF), (0x80, 0xBF), (0x80, 0xBF)]
  else none

/-- How many bytes lie in the ranges, one in each, up to the first that does not. -/
def inRanges : List (UInt8 × UInt8) → List UInt8 → Nat
  | (low, high) :: ranges, b :: bytes =>
    if low ≤ b ∧ b ≤ high then inRanges ranges bytes + 1 else 0
  | _, _ => 0

/-- The code point of a character of so many bytes. -/
def codePoint (first : UInt8) (tail : List UInt8) : Nat :=
  let lead :=
    match tail.length with
    | 0 => first.toNat
    | 1 => first.toNat - 0xC0
    | 2 => first.toNat - 0xE0
    | _ => first.toNat - 0xF0
  tail.foldl (fun value b => value * 64 + (b.toNat - 0x80)) lead

/-- `char::REPLACEMENT_CHARACTER`. -/
def replacement : Char := Char.ofNat 0xFFFD

/-- `str::from_utf8`. -/
def fromUtf8 (bytes : List UInt8) : Option Text :=
  match bytes with
  | [] => some []
  | first :: rest =>
    (following first).bind fun ranges =>
      if inRanges ranges rest = ranges.length then
        (fromUtf8 (rest.drop ranges.length)).map fun text =>
          Char.ofNat (codePoint first (rest.take ranges.length)) :: text
      else none
termination_by bytes.length
decreasing_by
  simp only [List.length_drop, List.length_cons]
  omega

/-- `String::from_utf8_lossy`: what starts no character, or stops short of one, is replaced. -/
def fromUtf8Lossy (bytes : List UInt8) : Text :=
  match bytes with
  | [] => []
  | first :: rest =>
    match following first with
    | none => replacement :: fromUtf8Lossy rest
    | some ranges =>
      let found := inRanges ranges rest
      let c :=
        if found = ranges.length then Char.ofNat (codePoint first (rest.take found))
        else replacement
      c :: fromUtf8Lossy (rest.drop found)
termination_by bytes.length
decreasing_by
  · simp
  · simp only [List.length_drop, List.length_cons]
    omega

/-! ## ASCII -/

/-- The character of an ASCII byte. -/
def ofByte (b : UInt8) : Char := Char.ofNat b.toNat

/-- A code point of no surrogate is that of its character. -/
theorem toNat_ofNat {n : Nat} (valid : n.isValidChar) : (Char.ofNat n).toNat = n := by
  unfold Char.ofNat
  rw [dif_pos valid]
  rfl

/-- Bytes that lie in their ranges, one by one. -/
theorem forall₂_of_inRanges {ranges : List (UInt8 × UInt8)} {bytes : List UInt8}
    (found : inRanges ranges bytes = ranges.length) :
    List.Forall₂ (fun range b => range.1 ≤ b ∧ b ≤ range.2) ranges (bytes.take ranges.length) := by
  induction ranges generalizing bytes with
  | nil => exact .nil
  | cons range ranges ih =>
    cases bytes with
    | nil => simp [inRanges] at found
    | cons b bytes =>
      simp only [inRanges, List.length_cons] at found
      split at found
      next within => exact .cons within (ih (Nat.succ.inj found))
      next => cases found

/-- A character of more than one byte is not ASCII. -/
theorem codePoint_large {first : UInt8} {ranges : List (UInt8 × UInt8)} {tail : List UInt8}
    (follow : following first = some ranges) (some : ranges ≠ [])
    (within : List.Forall₂ (fun range b => range.1 ≤ b ∧ b ≤ range.2) ranges tail) :
    128 ≤ codePoint first tail ∧ (codePoint first tail).isValidChar := by
  unfold following at follow
  split_ifs at follow
  all_goals
    cases follow
    simp only [List.forall₂_cons_left_iff, List.forall₂_nil_left_iff, UInt8.le_iff_toNat_le,
      UInt8.lt_iff_toNat_lt, UInt8.reduceToNat, ← UInt8.toNat_inj, Nat.isValidChar] at *
  · exact absurd rfl some
  · obtain ⟨b, _, second, rfl, rfl⟩ := within
    simp only [codePoint, List.length_cons, List.length_nil, List.foldl]
    omega
  · obtain ⟨b, _, second, ⟨c, _, third, rfl, rfl⟩, rfl⟩ := within
    simp only [codePoint, List.length_cons, List.length_nil, List.foldl]
    omega
  · obtain ⟨b, _, second, ⟨c, _, third, rfl, rfl⟩, rfl⟩ := within
    simp only [codePoint, List.length_cons, List.length_nil, List.foldl]
    omega
  · obtain ⟨b, _, second, ⟨c, _, third, rfl, rfl⟩, rfl⟩ := within
    simp only [codePoint, List.length_cons, List.length_nil, List.foldl]
    omega
  all_goals
    obtain ⟨b, _, second, ⟨c, _, third, ⟨d, _, fourth, rfl, rfl⟩, rfl⟩, rfl⟩ := within
    simp only [codePoint, List.length_cons, List.length_nil, List.foldl]
    omega

/-- An ASCII byte starts a character of its own. -/
theorem following_ascii {b : UInt8} (ascii : b < 0x80) : following b = some [] := if_pos ascii

/-- A byte that is not ASCII starts a longer character, or none. -/
theorem following_ne_nil {b : UInt8} (high : ¬ b < 0x80) : following b ≠ some [] := by
  unfold following
  split_ifs <;> simp

/-- ASCII bytes are read as their characters. -/
theorem fromUtf8Lossy_ascii {bytes : List UInt8} (ascii : ∀ b ∈ bytes, b < 0x80) :
    fromUtf8Lossy bytes = bytes.map ofByte := by
  induction bytes with
  | nil => rw [fromUtf8Lossy, List.map_nil]
  | cons b bytes ih =>
    rw [fromUtf8Lossy, following_ascii (ascii b List.mem_cons_self)]
    have rest := ih fun c member => ascii c (List.mem_cons_of_mem _ member)
    simpa [inRanges, codePoint, ofByte] using rest

/-- The first character of bytes that do not start with an ASCII byte is not ASCII. -/
theorem fromUtf8Lossy_high {b : UInt8} (high : ¬ b < 0x80) (bytes : List UInt8) :
    ∃ c rest, fromUtf8Lossy (b :: bytes) = c :: rest ∧ isAscii c = false := by
  rw [fromUtf8Lossy]
  split
  next => exact ⟨_, _, rfl, by decide⟩
  next ranges follow =>
    refine ⟨_, _, rfl, ?_⟩
    split
    next found =>
      have some : ranges ≠ [] := by
        intro none
        exact following_ne_nil high (none ▸ follow)
      rw [found]
      obtain ⟨large, valid⟩ := codePoint_large follow some (forall₂_of_inRanges found)
      simp only [isAscii, toNat_ofNat valid, decide_eq_false_iff_not, not_lt]
      exact large
    next => decide

/-- What is read as ASCII is ASCII. -/
theorem ascii_of_fromUtf8Lossy {bytes : List UInt8}
    (ascii : ∀ c ∈ fromUtf8Lossy bytes, isAscii c = true) : ∀ b ∈ bytes, b < 0x80 := by
  induction bytes with
  | nil => intro b member; cases member
  | cons b bytes ih =>
    have low : b < 0x80 := by
      by_contra high
      obtain ⟨c, rest, is, other⟩ := fromUtf8Lossy_high high bytes
      rw [is] at ascii
      rw [ascii c List.mem_cons_self] at other
      cases other
    have split : fromUtf8Lossy (b :: bytes) = ofByte b :: fromUtf8Lossy bytes := by
      rw [fromUtf8Lossy, following_ascii low]
      simp [inRanges, codePoint, ofByte]
    rw [split] at ascii
    intro c member
    cases List.mem_cons.mp member with
    | inl same => exact same ▸ low
    | inr later => exact ih (fun c member => ascii c (List.mem_cons_of_mem _ member)) c later

/-- A character written in ASCII bytes is that of its one byte. -/
theorem utf8EncodeChar_ascii {c : Char} (ascii : ∀ b ∈ String.utf8EncodeChar c, b < 0x80) :
    (String.utf8EncodeChar c).map ofByte = [c] := by
  have first : ∀ b ∈ (String.utf8EncodeChar c).head?, b.toNat < 0x80 := fun b head =>
    UInt8.lt_iff_toNat_lt.mp (ascii b (List.mem_of_mem_head? head))
  clear ascii
  simp only [String.utf8EncodeChar] at *
  split_ifs at * with one two three
  · have small : c.val.toNat < 2 ^ 8 := by omega
    simp only [List.map_cons, List.map_nil, ofByte, UInt8.toNat_ofNat', Nat.mod_eq_of_lt small]
    exact congrArg (fun c => [c]) (Char.ofNat_toNat c)
  all_goals
    have low := first _ rfl
    simp only [UInt8.toNat_ofNat'] at low
    omega

/-- A text written in ASCII bytes is the text of their characters. -/
theorem toUtf8_ascii {text : Text} (ascii : ∀ b ∈ toUtf8 text, b < 0x80) :
    (toUtf8 text).map ofByte = text := by
  induction text with
  | nil => rfl
  | cons c text ih =>
    simp only [toUtf8, List.flatMap_cons, List.mem_append, List.map_append] at *
    rw [utf8EncodeChar_ascii fun b member => ascii b (.inl member),
      ih fun b member => ascii b (.inr member)]
    rfl

/-- A text of ASCII characters is written in ASCII bytes. -/
theorem toUtf8_of_ascii {text : Text} (ascii : ∀ c ∈ text, isAscii c = true) :
    ∀ b ∈ toUtf8 text, b < 0x80 := by
  intro b member
  obtain ⟨c, inside, encoded⟩ := List.mem_flatMap.mp member
  have small : c.val.toNat < 128 := by simpa [isAscii] using ascii c inside
  rw [String.utf8EncodeChar, if_pos (by omega)] at encoded
  rw [List.mem_singleton.mp encoded, UInt8.lt_iff_toNat_lt, UInt8.toNat_ofNat']
  show c.val.toNat % 2 ^ 8 < 128
  omega

/-! ## Every character -/

/-- Bytes in their ranges are found there. -/
theorem inRanges_of_forall₂ {ranges : List (UInt8 × UInt8)} {tail : List UInt8}
    (within : List.Forall₂ (fun range b => range.1 ≤ b ∧ b ≤ range.2) ranges tail)
    (rest : List UInt8) : inRanges ranges (tail ++ rest) = ranges.length := by
  induction within with
  | nil => cases rest <;> rfl
  | cons here _ ih => rw [List.cons_append, inRanges, if_pos here, ih, List.length_cons]

/-- A whole character is read before what follows it. -/
theorem fromUtf8Lossy_whole {first : UInt8} {ranges : List (UInt8 × UInt8)} {tail : List UInt8}
    (follow : following first = some ranges)
    (within : List.Forall₂ (fun range b => range.1 ≤ b ∧ b ≤ range.2) ranges tail)
    (rest : List UInt8) : fromUtf8Lossy (first :: (tail ++ rest)) =
      Char.ofNat (codePoint first tail) :: fromUtf8Lossy rest := by
  rw [fromUtf8Lossy, follow]
  simp only [inRanges_of_forall₂ within, if_true]
  rw [within.length_eq, List.take_left, List.drop_left]

/-- The first byte of a character of three, and the range of the byte behind it. -/
theorem following_three {v : Nat} (low : 0x800 ≤ v) (high : v ≤ 0xFFFF)
    (valid : v < 0xD800 ∨ 0xDFFF < v) : ∃ least most,
      following (UInt8.ofNat (v / 4096 % 16 + 0xE0)) = some [(least, most), (0x80, 0xBF)] ∧
        least.toNat ≤ v / 64 % 64 + 0x80 ∧ v / 64 % 64 + 0x80 ≤ most.toNat := by
  simp only [following, UInt8.lt_iff_toNat_lt, UInt8.le_iff_toNat_le, ← UInt8.toNat_inj,
    UInt8.reduceToNat, UInt8.toNat_ofNat']
  rw [if_neg (by omega), if_neg (by omega)]
  split_ifs
  · exact ⟨_, _, rfl, by simp only [UInt8.reduceToNat]; omega⟩
  · exact ⟨_, _, rfl, by simp only [UInt8.reduceToNat]; omega⟩
  · exact ⟨_, _, rfl, by simp only [UInt8.reduceToNat]; omega⟩
  all_goals omega

/-- The first byte of a character of four, and the range of the byte behind it. -/
theorem following_four {v : Nat} (low : 0xFFFF < v) (high : v < 0x110000) : ∃ least most,
      following (UInt8.ofNat (v / 262144 % 8 + 0xF0)) =
        some [(least, most), (0x80, 0xBF), (0x80, 0xBF)] ∧
        least.toNat ≤ v / 4096 % 64 + 0x80 ∧ v / 4096 % 64 + 0x80 ≤ most.toNat := by
  simp only [following, UInt8.lt_iff_toNat_lt, UInt8.le_iff_toNat_le, ← UInt8.toNat_inj,
    UInt8.reduceToNat, UInt8.toNat_ofNat']
  rw [if_neg (by omega), if_neg (by omega), if_neg (by omega), if_neg (by omega),
    if_neg (by omega)]
  split_ifs
  · exact ⟨_, _, rfl, by simp only [UInt8.reduceToNat]; omega⟩
  · exact ⟨_, _, rfl, by simp only [UInt8.reduceToNat]; omega⟩
  · exact ⟨_, _, rfl, by simp only [UInt8.reduceToNat]; omega⟩
  · omega

/-- The bytes of a character are those of its code point, each in its range. -/
theorem utf8EncodeChar_spec (c : Char) : ∃ first tail ranges,
    String.utf8EncodeChar c = first :: tail ∧ following first = some ranges ∧
      List.Forall₂ (fun range b => range.1 ≤ b ∧ b ≤ range.2) ranges tail ∧
      codePoint first tail = c.toNat := by
  have valid : c.val.toNat < 0xD800 ∨ 0xDFFF < c.val.toNat ∧ c.val.toNat < 0x110000 := c.valid
  have number : c.toNat = c.val.toNat := rfl
  rw [number, String.utf8EncodeChar]
  generalize c.val.toNat = v at valid
  -- the length of the encoding, then the first bytes whose next byte has a narrower range
  split_ifs with one two three
  · exact ⟨_, _, [], rfl, following_ascii (by simp [UInt8.lt_iff_toNat_lt]; omega), .nil, by
      simp [codePoint]; omega⟩
  · refine ⟨_, _, [(0x80, 0xBF)], rfl, ?_, ?_, ?_⟩
    · simp only [following, UInt8.lt_iff_toNat_lt, UInt8.le_iff_toNat_le, UInt8.reduceToNat,
        UInt8.toNat_ofNat']
      rw [if_neg (by omega), if_pos (by omega)]
    · simp only [List.forall₂_cons, UInt8.le_iff_toNat_le, UInt8.reduceToNat,
        UInt8.toNat_ofNat', List.Forall₂.nil, and_true]
      omega
    · simp only [codePoint, List.length_cons, List.length_nil, List.foldl, UInt8.toNat_ofNat']
      omega
  · obtain ⟨least, most, follow, least_le, le_most⟩ := following_three (by omega) three (by omega)
    refine ⟨_, _, _, rfl, follow, ?_, ?_⟩
    · simp only [List.forall₂_cons, UInt8.le_iff_toNat_le, UInt8.reduceToNat,
        UInt8.toNat_ofNat', List.Forall₂.nil, and_true]
      omega
    · simp only [codePoint, List.length_cons, List.length_nil, List.foldl, UInt8.toNat_ofNat']
      omega
  · obtain ⟨least, most, follow, least_le, le_most⟩ := following_four (v := v) (by omega) (by omega)
    refine ⟨_, _, _, rfl, follow, ?_, ?_⟩
    · simp only [List.forall₂_cons, UInt8.le_iff_toNat_le, UInt8.reduceToNat,
        UInt8.toNat_ofNat', List.Forall₂.nil, and_true]
      omega
    · simp only [codePoint, List.length_cons, List.length_nil, List.foldl, UInt8.toNat_ofNat']
      omega

/-- A text is read back from its UTF-8. -/
theorem fromUtf8Lossy_toUtf8 (text : Text) : fromUtf8Lossy (toUtf8 text) = text := by
  induction text with
  | nil => rw [toUtf8, List.flatMap_nil, fromUtf8Lossy]
  | cons c text ih =>
    obtain ⟨first, tail, ranges, encoded, follow, within, number⟩ := utf8EncodeChar_spec c
    have written : toUtf8 (c :: text) = first :: (tail ++ toUtf8 text) := by
      simp only [toUtf8, List.flatMap_cons, encoded, List.cons_append]
    rw [written, fromUtf8Lossy_whole follow within, ih, number, Char.ofNat_toNat]

end EthernetGateway.Text
