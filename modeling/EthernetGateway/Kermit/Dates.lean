import EthernetGateway.Text

/-!
# Kermit dates

An attribute packet carries the time of a file as `yyyymmdd hh:mm:ss`. The gateway counts days up to
a date and back by the same leap years and months, so the two conversions are inverse, and a later
time has a later text.
-/

namespace EthernetGateway.Text

/-! ## Texts of fixed width -/

/-- A number in a field of a width, zeros before it. -/
def padded (width n : Nat) : Text := List.replicate (width - (ofNat n).length) '0' ++ ofNat n

/-- `str::len`: the bytes of a text. -/
def byteLength (text : Text) : Nat := (text.map Char.utf8Size).sum

/-- A text cut at a byte, where a character starts. -/
def splitAtByte : Nat → Text → Option (Text × Text)
  | 0, text => some ([], text)
  | _ + 1, [] => none
  | n + 1, c :: text =>
    if c.utf8Size ≤ n + 1 then
      (splitAtByte (n + 1 - c.utf8Size) text).map fun (left, right) => (c :: left, right)
    else none

/-- `str::get` with a range of bytes. -/
def byteRange (start stop : Nat) (text : Text) : Option Text :=
  (splitAtByte start text).bind fun (_, rest) =>
    (splitAtByte (stop - start) rest).map fun (range, _) => range

/-- `str::parse` for `i64`: a sign that may be missing, then one digit or more. -/
def parseSigned (text : Text) : Option Int :=
  if text.head? = some '-' then
    if text.tail ≠ [] ∧ text.tail.all isDigit ∧ digits text.tail ≤ 2 ^ 63 then
      some (-(digits text.tail : Int))
    else none
  else (parseUnsigned (2 ^ 63) text).map Int.ofNat

/-- The last digits of a number. -/
def lastDigits : Nat → Nat → Text
  | 0, _ => []
  | width + 1, n => lastDigits width (n / 10) ++ [(n % 10).digitChar]

/-- They fill their field. -/
@[simp] theorem lastDigits_length (width n : Nat) : (lastDigits width n).length = width := by
  induction width generalizing n with
  | zero => rfl
  | succ width ih => simp [lastDigits, ih]

/-- A field one wider has one digit more. -/
theorem padded_succ {width : Nat} (positive : 0 < width) (n : Nat) :
    padded (width + 1) n = padded width (n / 10) ++ [(n % 10).digitChar] := by
  have digits (n : Nat) : ofNat n = if n < 10 then [n.digitChar]
      else ofNat (n / 10) ++ [(n % 10).digitChar] := Nat.toDigits_eq_if (by omega)
  by_cases small : n < 10
  · have single : ofNat n = [n.digitChar] := by rw [digits, if_pos small]
    have zero : ofNat (n / 10) = ['0'] := by
      rw [Nat.div_eq_of_lt small]
      rfl
    obtain ⟨rest, rfl⟩ : ∃ rest, width = rest + 1 := ⟨width - 1, by omega⟩
    unfold padded
    rw [single, zero, Nat.mod_eq_of_lt small]
    simp [List.replicate_succ']
  · unfold padded
    rw [digits n, if_neg small]
    simp [Nat.add_sub_add_right]

/-- A number with no more digits than its field fills it with its last digits. -/
theorem padded_eq_lastDigits {width n : Nat} (positive : 0 < width) (small : n < 10 ^ width) :
    padded width n = lastDigits width n := by
  induction width generalizing n with
  | zero => exact absurd positive (Nat.lt_irrefl 0)
  | succ width ih =>
    by_cases first : width = 0
    · subst first
      have digit : n < 10 := by simpa using small
      have single : ofNat n = [n.digitChar] := Nat.toDigits_of_lt_base digit
      unfold padded
      rw [single]
      simp [lastDigits, Nat.mod_eq_of_lt digit]
    · rw [padded_succ (Nat.pos_of_ne_zero first), lastDigits,
        ih (Nat.pos_of_ne_zero first) (by rw [Nat.pow_succ] at small; omega)]

/-- The character of a digit. -/
theorem digitChar_spec {d : Nat} (small : d < 10) :
    isDigit d.digitChar = true ∧ d.digitChar.toNat - 48 = d ∧ d.digitChar.utf8Size = 1 ∧
      isWhitespace d.digitChar = false ∧ d.digitChar ≠ '+' ∧ d.digitChar ≠ '-' := by
  match d, small with
  | 0, _ | 1, _ | 2, _ | 3, _ | 4, _ | 5, _ | 6, _ | 7, _ | 8, _ | 9, _ => decide

/-- Every character of a field of digits is one. -/
theorem mem_lastDigits {width n : Nat} {c : Char} (member : c ∈ lastDigits width n) :
    ∃ d, d < 10 ∧ c = d.digitChar := by
  induction width generalizing n with
  | zero => cases member
  | succ width ih =>
    simp only [lastDigits, List.mem_append, List.mem_singleton] at member
    cases member with
    | inl earlier => exact ih earlier
    | inr last => exact ⟨n % 10, Nat.mod_lt n (by omega), last⟩

/-- A field of digits has its number. -/
theorem digits_lastDigits {width n : Nat} (small : n < 10 ^ width) :
    digits (lastDigits width n) = n := by
  induction width generalizing n with
  | zero => simp at small; simp [lastDigits, digits, small]
  | succ width ih =>
    have tens : digits (lastDigits width (n / 10)) = n / 10 :=
      ih (by rw [Nat.pow_succ] at small; omega)
    unfold digits at tens ⊢
    rw [lastDigits, List.foldl_append, tens]
    simp only [List.foldl_cons, List.foldl_nil,
      (digitChar_spec (Nat.mod_lt n (show 0 < 10 by omega))).2.1]
    omega

/-- A field of digits is read back. -/
theorem parseUnsigned_lastDigits {width n bound : Nat} (positive : 0 < width)
    (small : n < 10 ^ width) (within : n < bound) :
    parseUnsigned bound (lastDigits width n) = some n := by
  have digit : ∀ c ∈ lastDigits width n, isDigit c = true := by
    intro c member
    obtain ⟨d, less, rfl⟩ := mem_lastDigits member
    exact (digitChar_spec less).1
  have unsigned : (lastDigits width n).head? ≠ some '+' := by
    intro plus
    obtain ⟨d, less, is⟩ := mem_lastDigits (List.mem_of_mem_head? plus)
    exact (digitChar_spec less).2.2.2.2.1 is.symm
  have nonempty : lastDigits width n ≠ [] := by
    intro empty
    have := lastDigits_length width n
    rw [empty] at this
    simp only [List.length_nil] at this
    omega
  simp only [parseUnsigned, if_neg unsigned, digits_lastDigits small]
  exact if_pos ⟨nonempty, List.all_eq_true.mpr digit, within⟩

/-- So is one read as a signed number. -/
theorem parseSigned_lastDigits {width n : Nat} (positive : 0 < width) (small : n < 10 ^ width)
    (within : n < 2 ^ 63) : parseSigned (lastDigits width n) = some (n : Int) := by
  have unsigned : (lastDigits width n).head? ≠ some '-' := by
    intro minus
    obtain ⟨d, less, is⟩ := mem_lastDigits (List.mem_of_mem_head? minus)
    exact (digitChar_spec less).2.2.2.2.2 is.symm
  unfold parseSigned
  rw [if_neg unsigned, parseUnsigned_lastDigits positive small within]
  rfl

/-- A text of one-byte characters is cut where its parts meet. -/
theorem splitAtByte_append {left : Text} (single : ∀ c ∈ left, c.utf8Size = 1) (right : Text) :
    splitAtByte left.length (left ++ right) = some (left, right) := by
  induction left with
  | nil =>
    cases right <;> rfl
  | cons c left ih =>
    have one : c.utf8Size = 1 := single c List.mem_cons_self
    have rest := ih fun c member => single c (List.mem_cons_of_mem _ member)
    simp [splitAtByte, one, rest]

/-- A range that is a part of such a text. -/
theorem byteRange_append {left part right : Text} {start stop : Nat}
    (single : ∀ c ∈ left ++ part, c.utf8Size = 1) (starts : left.length = start)
    (stops : start + part.length = stop) :
    byteRange start stop (left ++ (part ++ right)) = some part := by
  subst starts stops
  unfold byteRange
  rw [splitAtByte_append fun c member => single c (List.mem_append_left _ member)]
  simp only [Option.bind_some, Nat.add_sub_cancel_left]
  rw [splitAtByte_append fun c member => single c (List.mem_append_right _ member)]
  rfl

/-! ## Order -/

/-- Of two texts whose first parts are as long as each other, the one with the lesser first part is
the lesser. -/
theorem append_lt_append {left left' : Text} (same : left.length = left'.length)
    (less : left < left') (right right' : Text) : left ++ right < left' ++ right' := by
  induction left generalizing left' with
  | nil =>
    cases left' with
    | nil => exact absurd less (List.lt_irrefl _)
    | cons c left' => cases same
  | cons c left ih =>
    cases left' with
    | nil => cases same
    | cons c' left' =>
      rw [List.cons_append, List.cons_append, List.cons_lt_cons_iff]
      rw [List.cons_lt_cons_iff] at less
      cases less with
      | inl first => exact .inl first
      | inr rest => exact .inr ⟨rest.1, ih (Nat.succ.inj same) rest.2⟩

/-- Of two digits, the greater has the greater character. -/
theorem digitChar_lt {d e : Nat} (less : d < e) (small : e < 10) : d.digitChar < e.digitChar := by
  match e, small with
  | 0, _ | 1, _ | 2, _ | 3, _ | 4, _ | 5, _ | 6, _ | 7, _ | 8, _ | 9, _ =>
    revert d
    decide

/-- Of two numbers that fit a field, the greater has the greater digits. -/
theorem lastDigits_lt {width m n : Nat} (less : m < n) (small : n < 10 ^ width) :
    lastDigits width m < lastDigits width n := by
  induction width generalizing m n with
  | zero => simp at small; omega
  | succ width ih =>
    rw [lastDigits, lastDigits]
    by_cases tens : m / 10 = n / 10
    · rw [tens]
      refine List.append_left_lt ?_
      rw [List.cons_lt_cons_iff]
      exact .inl (digitChar_lt (by omega) (Nat.mod_lt n (by omega)))
    · exact append_lt_append (by simp) (ih (by omega) (by rw [Nat.pow_succ] at small; omega)) _ _

end EthernetGateway.Text

namespace EthernetGateway.Kermit

/-! ## The calendar -/

/-- `is_leap`. -/
def isLeap (year : Int) : Bool := (year % 4 = 0 && year % 100 ≠ 0) || year % 400 = 0

/-- The days of a year. -/
def yearLength (year : Int) : Nat := if isLeap year then 366 else 365

/-- `month_lengths`. -/
def monthLengths (year : Int) : List Nat :=
  [31, if isLeap year then 29 else 28, 31, 30, 31, 30, 31, 31, 30, 31, 30, 31]

/-- The year that a number of days from the start of a year falls in, and the days into it. -/
def yearOf (year days : Nat) : Nat × Nat :=
  if days < yearLength year then (year, days) else yearOf (year + 1) (days - yearLength year)
termination_by days
decreasing_by
  have : 0 < yearLength year := by unfold yearLength; split <;> omega
  omega

/-- The month that a number of days falls in, counted from an index, and the days into it. -/
def monthOf (index days : Nat) : List Nat → Nat × Nat
  | [] => (0, days)
  | length :: lengths =>
    if days < length then (index, days) else monthOf (index + 1) (days - length) lengths

/-- `unix_secs_to_kermit_date`. -/
def unixSecsToKermitDate (secs : Nat) : Text :=
  let sec := secs % 60
  let min := secs / 60 % 60
  let hr := secs / 60 / 60 % 24
  let (year, days) := yearOf 1970 (secs / 60 / 60 / 24)
  let (month, days) := monthOf 0 days (monthLengths year)
  Text.padded 4 year ++ (Text.padded 2 (month + 1) ++ (Text.padded 2 (days + 1) ++ (' ' ::
    (Text.padded 2 hr ++ (':' :: (Text.padded 2 min ++ (':' :: Text.padded 2 sec)))))))

/-- The days from the start of 1970 to the start of a year. -/
def daysBefore (year : Int) : Nat :=
  ((List.range (year - 1970).toNat).map fun i : Nat => yearLength (1970 + i)).sum

/-- The hour, minute and second of a date, midnight when it has none. -/
def parseTime (text : Text) : Option (Nat × Nat × Nat) :=
  if 17 ≤ Text.byteLength text then do
    let hr ← (Text.byteRange 9 11 text).bind (Text.parseUnsigned (2 ^ 32))
    let mn ← (Text.byteRange 12 14 text).bind (Text.parseUnsigned (2 ^ 32))
    let sec ← (Text.byteRange 15 17 text).bind (Text.parseUnsigned (2 ^ 32))
    some (hr, mn, sec)
  else some (0, 0, 0)

/-- The seconds of a date and a time, when there is such a month and such a day of one. -/
def secondsOf (year : Int) (month day : Nat) (time : Nat × Nat × Nat) : Option Nat :=
  if ¬ (1 ≤ month ∧ month ≤ 12) ∨ day = 0 ∨ 31 < day then none
  else
    let days := daysBefore year + ((monthLengths year).take (month - 1)).sum + (day - 1)
    some (days * 86400 + time.1 * 3600 + time.2.1 * 60 + time.2.2)

/-- `parse_kermit_date`. -/
def parseKermitDate (text : Text) : Option Nat :=
  let text := Text.trim text
  if Text.byteLength text < 8 then none
  else do
    let year ← (Text.byteRange 0 4 text).bind Text.parseSigned
    let month ← (Text.byteRange 4 6 text).bind (Text.parseUnsigned (2 ^ 32))
    let day ← (Text.byteRange 6 8 text).bind (Text.parseUnsigned (2 ^ 32))
    let time ← parseTime text
    secondsOf year month day time

/-- The seconds from the start of 1970 to the start of the year 10000. -/
def endOfDates : Nat := daysBefore (10000 : Nat) * 86400

/-! ## Days and dates -/

/-- A year has a positive number of days, and all of them are in its months. -/
theorem monthLengths_sum (year : Int) : (monthLengths year).sum = yearLength year := by
  unfold monthLengths yearLength
  split <;> rfl

/-- A year begins where the one before it ends. -/
theorem daysBefore_succ {year : Nat} (late : 1970 ≤ year) :
    daysBefore ((year + 1 : Nat) : Int) = daysBefore year + yearLength year := by
  obtain ⟨n, rfl⟩ := Nat.exists_eq_add_of_le late
  have next : (((1970 + n + 1 : Nat) : Int) - 1970).toNat = n + 1 := by omega
  have this : (((1970 + n : Nat) : Int) - 1970).toNat = n := by omega
  unfold daysBefore
  rw [next, this, List.range_succ, List.map_append, List.sum_append]
  simp

/-- Later years begin later. -/
theorem daysBefore_mono {year later : Nat} (from' : 1970 ≤ year) (le : year ≤ later) :
    daysBefore year ≤ daysBefore later := by
  induction later, le using Nat.le_induction with
  | base => exact Nat.le_refl _
  | succ later le ih =>
    rw [daysBefore_succ (Nat.le_trans from' le)]
    omega

/-- The year of a number of days is the one they fall in. -/
theorem yearOf_spec {year days : Nat} (late : 1970 ≤ year) :
    1970 ≤ (yearOf year days).1 ∧
      daysBefore year + days = daysBefore (yearOf year days).1 + (yearOf year days).2 ∧
        (yearOf year days).2 < yearLength (yearOf year days).1 := by
  fun_induction yearOf year days with
  | case1 year days within => exact ⟨late, rfl, within⟩
  | case2 year days beyond ih =>
    obtain ⟨late', total, within⟩ := ih (Nat.le_succ_of_le late)
    refine ⟨late', ?_, within⟩
    rw [daysBefore_succ late] at total
    omega

/-- The month of a number of days is the one they fall in. -/
theorem monthOf_spec {index days : Nat} {lengths : List Nat} (within : days < lengths.sum) :
    ∃ month, (monthOf index days lengths).1 = index + month ∧ month < lengths.length ∧
      days = (lengths.take month).sum + (monthOf index days lengths).2 ∧
        (monthOf index days lengths).2 < lengths.getD month 0 := by
  induction lengths generalizing index days with
  | nil => exact absurd within (Nat.not_lt_zero _)
  | cons length lengths ih =>
    unfold monthOf
    split
    next inside => exact ⟨0, rfl, Nat.succ_pos _, by simp, by simpa using inside⟩
    next beyond =>
      rw [List.sum_cons] at within
      obtain ⟨month, is, small, total, inside⟩ :=
        @ih (index + 1) (days - length) (by omega)
      refine ⟨month + 1, by rw [is]; omega, by rw [List.length_cons]; omega, ?_, inside⟩
      rw [List.take_succ_cons, List.sum_cons]
      omega

/-- A month has 31 days or fewer. -/
theorem monthLengths_le (year : Int) (month : Nat) : (monthLengths year).getD month 0 ≤ 31 := by
  unfold monthLengths
  cases isLeap year <;>
  match month with
  | 0 | 1 | 2 | 3 | 4 | 5 | 6 | 7 | 8 | 9 | 10 | 11 => decide
  | _ + 12 => exact Nat.zero_le 31

/-! ## Round trip -/

/-- The parts of the date of a number of seconds. -/
structure Civil where
  year : Nat
  month : Nat
  day : Nat
  hr : Nat
  min : Nat
  sec : Nat

/-- The date of a number of seconds, in parts. -/
def civil (secs : Nat) : Civil :=
  let ofYear := yearOf 1970 (secs / 60 / 60 / 24)
  let ofMonth := monthOf 0 ofYear.2 (monthLengths ofYear.1)
  ⟨ofYear.1, ofMonth.1 + 1, ofMonth.2 + 1, secs / 60 / 60 % 24, secs / 60 % 60, secs % 60⟩

/-- The text of a date. -/
def Civil.text (date : Civil) : Text :=
  Text.lastDigits 4 date.year ++ (Text.lastDigits 2 date.month ++ (Text.lastDigits 2 date.day ++
    (' ' :: (Text.lastDigits 2 date.hr ++ (':' :: (Text.lastDigits 2 date.min ++
      (':' :: Text.lastDigits 2 date.sec)))))))

/-- The parts of a date in the year 9999 or before fit their fields, and they add up to its
seconds. -/
structure Civil.Of (secs : Nat) (date : Civil) : Prop where
  late : 1970 ≤ date.year
  year : date.year < 10000
  month : 1 ≤ date.month ∧ date.month ≤ 12
  day : 1 ≤ date.day ∧ date.day ≤ (monthLengths date.year).getD (date.month - 1) 0
  hr : date.hr < 24
  min : date.min < 60
  sec : date.sec < 60
  days : secs / 86400 =
    daysBefore date.year + ((monthLengths date.year).take (date.month - 1)).sum + (date.day - 1)
  rest : secs % 86400 = date.hr * 3600 + date.min * 60 + date.sec

/-- The parts of the date of a number of seconds. -/
theorem civil_of {secs : Nat} (before : secs < endOfDates) : (civil secs).Of secs := by
  have whole : secs / 60 / 60 / 24 = secs / 86400 := by omega
  obtain ⟨late, total, within⟩ := @yearOf_spec 1970 (secs / 60 / 60 / 24) (Nat.le_refl 1970)
  have start : daysBefore ((1970 : Nat) : Int) = 0 := rfl
  rw [start, Nat.zero_add, whole] at total
  rw [whole] at within late
  have year : (yearOf 1970 (secs / 86400)).1 < 10000 := by
    by_contra beyond
    have later := daysBefore_mono (show 1970 ≤ 10000 by decide) (Nat.le_of_not_lt beyond)
    have less {days : Nat} (within : secs < days * 86400) : secs / 86400 < days := by omega
    exact absurd (less before) (by omega)
  rw [← monthLengths_sum] at within
  obtain ⟨month, is, small, days, inside⟩ := @monthOf_spec 0 _ _ within
  rw [Nat.zero_add] at is
  have twelve : (monthLengths (yearOf 1970 (secs / 86400)).1).length = 12 := rfl
  unfold civil
  rw [whole]
  simp only [is]
  refine ⟨late, year, ⟨Nat.le_add_left 1 _, Nat.succ_le_of_lt small⟩,
    ⟨Nat.le_add_left 1 _, Nat.succ_le_of_lt inside⟩, Nat.mod_lt _ (by omega),
    Nat.mod_lt _ (by omega), Nat.mod_lt _ (by omega), ?_, ?_⟩
  · simp only [Nat.add_sub_cancel]
    omega
  · simp only
    omega

/-- A day of a month has two digits. -/
theorem Civil.Of.day_le {secs : Nat} {date : Civil} (date' : date.Of secs) : date.day ≤ 31 :=
  Nat.le_trans date'.day.2 (monthLengths_le _ _)

/-- The text of a number of seconds is that of its date. -/
theorem unixSecsToKermitDate_eq {secs : Nat} (before : secs < endOfDates) :
    unixSecsToKermitDate secs = (civil secs).text := by
  have date := civil_of before
  have day := date.day_le
  obtain ⟨late, year, month, _, hr, min, sec, _, _⟩ := date
  have two {n : Nat} (small : n < 100) : Text.padded 2 n = Text.lastDigits 2 n :=
    Text.padded_eq_lastDigits (by decide) (by simpa using small)
  unfold Civil.text
  rw [← Text.padded_eq_lastDigits (by decide) (show (civil secs).year < 10 ^ 4 by simpa using year),
    ← two (show (civil secs).month < 100 by omega), ← two (show (civil secs).day < 100 by omega),
    ← two (show (civil secs).hr < 100 by omega), ← two (show (civil secs).min < 100 by omega),
    ← two (show (civil secs).sec < 100 by omega)]
  rfl

/-- The characters of a date are of one byte, and it neither starts nor ends with whitespace. -/
theorem Civil.text_single (date : Civil) : ∀ c ∈ date.text, c.utf8Size = 1 := by
  have digit {width n : Nat} : ∀ c ∈ Text.lastDigits width n, c.utf8Size = 1 := by
    intro c member
    obtain ⟨d, small, rfl⟩ := Text.mem_lastDigits member
    exact (Text.digitChar_spec small).2.2.1
  intro c member
  simp only [Civil.text, List.mem_append, List.mem_cons] at member
  rcases member with m | m | m | rfl | m | rfl | m | rfl | m
  all_goals first | exact digit c m | decide

/-- A date is not trimmed. -/
theorem Civil.trim_text (date : Civil) : Text.trim date.text = date.text := by
  have digit {d : Nat} (small : d < 10) : Text.isWhitespace d.digitChar = false :=
    (Text.digitChar_spec small).2.2.2.1
  apply Text.trim_eq_self
  · intro c head
    simp only [Civil.text, Text.lastDigits, List.nil_append, List.cons_append, List.head?_cons,
      Option.mem_some_iff] at head
    subst head
    exact digit (Nat.mod_lt _ (by omega))
  · intro c last
    have ending : date.text.getLast? = some (date.sec % 10).digitChar := by
      simp [Civil.text, Text.lastDigits]
    rw [ending] at last
    cases last
    exact digit (Nat.mod_lt _ (by omega))

/-- The text of a date is read as its seconds. -/
theorem Civil.parse_text {secs : Nat} {date : Civil} (of : date.Of secs) :
    parseKermitDate date.text = some secs := by
  have single := date.text_single
  have day := of.day_le
  obtain ⟨late, year, month, positive, hr, min, sec, days, rest⟩ := of
  have length : Text.byteLength date.text = 17 := by
    have ones : date.text.map Char.utf8Size = List.replicate 17 1 := by
      rw [List.map_congr_left single, List.map_const']
      simp [Civil.text]
    unfold Text.byteLength
    rw [ones]
    rfl
  -- each field is a part of the text, after the parts before it
  have field (left part right : Text) (start stop : Nat)
      (text : date.text = left ++ (part ++ right)) (starts : left.length = start)
      (stops : start + part.length = stop) : Text.byteRange start stop date.text = some part := by
    have ones : ∀ c ∈ left ++ part, c.utf8Size = 1 := by
      intro c member
      refine single c ?_
      rw [text, ← List.append_assoc]
      exact List.mem_append_left _ member
    rw [text]
    exact Text.byteRange_append ones starts stops
  have two {n : Nat} (small : n < 100) :
      Text.parseUnsigned (2 ^ 32) (Text.lastDigits 2 n) = some n :=
    Text.parseUnsigned_lastDigits (by decide) (by simpa using small) (by omega)
  have yearField := field [] (Text.lastDigits 4 date.year) _ 0 4 rfl rfl (by simp)
  have monthField := field (Text.lastDigits 4 date.year) (Text.lastDigits 2 date.month) _ 4 6 rfl
    (by simp) (by simp)
  have dayField := field (Text.lastDigits 4 date.year ++ Text.lastDigits 2 date.month)
    (Text.lastDigits 2 date.day)
    (' ' :: (Text.lastDigits 2 date.hr ++ (':' :: (Text.lastDigits 2 date.min ++
      (':' :: Text.lastDigits 2 date.sec))))) 6 8 (by simp [Civil.text]) (by simp) (by simp)
  have hrField := field (Text.lastDigits 4 date.year ++ Text.lastDigits 2 date.month ++
    Text.lastDigits 2 date.day ++ [' ']) (Text.lastDigits 2 date.hr)
    (':' :: (Text.lastDigits 2 date.min ++ (':' :: Text.lastDigits 2 date.sec))) 9 11
    (by simp [Civil.text]) (by simp) (by simp)
  have minField := field (Text.lastDigits 4 date.year ++ Text.lastDigits 2 date.month ++
    Text.lastDigits 2 date.day ++ [' '] ++ Text.lastDigits 2 date.hr ++ [':'])
    (Text.lastDigits 2 date.min) (':' :: Text.lastDigits 2 date.sec) 12 14
    (by simp [Civil.text]) (by simp) (by simp)
  have secField := field (Text.lastDigits 4 date.year ++ Text.lastDigits 2 date.month ++
    Text.lastDigits 2 date.day ++ [' '] ++ Text.lastDigits 2 date.hr ++ [':'] ++
    Text.lastDigits 2 date.min ++ [':']) (Text.lastDigits 2 date.sec) [] 15 17
    (by simp [Civil.text]) (by simp) (by simp)
  have time : parseTime date.text = some (date.hr, date.min, date.sec) := by
    simp only [parseTime, length, Nat.le_refl, if_true, hrField, minField, secField,
      Option.bind_some, Option.bind_eq_bind, two (show date.hr < 100 by omega),
      two (show date.min < 100 by omega), two (show date.sec < 100 by omega)]
  have yearRead : Text.parseSigned (Text.lastDigits 4 date.year) = some (date.year : Int) :=
    Text.parseSigned_lastDigits (by decide) (by simpa using year) (by omega)
  have inRange : ¬ (¬ (1 ≤ date.month ∧ date.month ≤ 12) ∨ date.day = 0 ∨ 31 < date.day) := by omega
  simp only [parseKermitDate, date.trim_text, length, Nat.reduceLT, if_false, yearField, monthField,
    dayField, time, Option.bind_some, Option.bind_eq_bind, yearRead,
    two (show date.month < 100 by omega), two (show date.day < 100 by omega), secondsOf,
    if_neg inRange, Option.some.injEq]
  omega

/-! ## Order -/

/-- A number in an interval of an increasing sequence is not in an earlier one than a lesser
number. -/
theorem interval_le {bounds : Nat → Nat} (mono : Monotone bounds) {i j m n : Nat} (le : m ≤ n)
    (lower : bounds i ≤ m) (upper : n < bounds (j + 1)) : i ≤ j := by
  by_contra later
  have : bounds (j + 1) ≤ bounds i := mono (by omega)
  omega

/-- The parts of a date in order of their weight. -/
def Civil.fields (date : Civil) : List Nat :=
  [date.year, date.month, date.day, date.hr, date.min, date.sec]

/-- Of two dates with lesser and greater parts, the first has the lesser text. -/
theorem Civil.text_lt {t : Nat} {date later : Civil} (of' : later.Of t)
    (less : date.fields < later.fields) : date.text < later.text := by
  have field {width m n : Nat} {rest rest' : Text} (small : n < 10 ^ width)
      (order : m < n ∨ m = n ∧ rest < rest') :
      Text.lastDigits width m ++ rest < Text.lastDigits width n ++ rest' := by
    rcases order with first | ⟨rfl, after⟩
    · exact Text.append_lt_append (by simp) (Text.lastDigits_lt first small) _ _
    · exact List.append_left_lt after
  have mark {c : Char} {rest rest' : Text} (after : rest < rest') : c :: rest < c :: rest' := by
    rw [List.cons_lt_cons_iff]
    exact .inr ⟨rfl, after⟩
  have day := of'.day_le
  obtain ⟨_, year, month, _, hr, min, sec, _, _⟩ := of'
  simp only [Civil.fields, List.cons_lt_cons_iff, List.lt_irrefl, and_false, or_false] at less
  unfold Civil.text
  refine field (by simpa using year) (less.imp_right fun ⟨same, less⟩ => ⟨same, ?_⟩)
  refine field (show later.month < 10 ^ 2 by omega) (less.imp_right fun ⟨same, less⟩ => ⟨same, ?_⟩)
  refine field (show later.day < 10 ^ 2 by omega) (less.imp_right fun ⟨same, less⟩ => ⟨same, mark ?_⟩)
  refine field (show later.hr < 10 ^ 2 by omega) (less.imp_right fun ⟨same, less⟩ => ⟨same, mark ?_⟩)
  refine field (show later.min < 10 ^ 2 by omega) (less.imp_right fun ⟨same, less⟩ => ⟨same, mark ?_⟩)
  exact Text.lastDigits_lt less (show later.sec < 10 ^ 2 by omega)

/-- The first elements of a list add up to no more than more of them. -/
theorem take_sum_mono (lengths : List Nat) : Monotone fun i => (lengths.take i).sum := by
  refine monotone_nat_of_le_succ fun i => ?_
  rw [List.take_add_one, List.sum_append]
  exact Nat.le_add_right _ _

/-- The day of a date is before the end of its month. -/
theorem Civil.Of.day_lt {secs : Nat} {date : Civil} (of : date.Of secs) :
    ((monthLengths date.year).take (date.month - 1)).sum + (date.day - 1) <
      ((monthLengths date.year).take (date.month - 1 + 1)).sum := by
  have day := of.day
  rw [List.getD_eq_getElem?_getD] at day
  rw [List.take_add_one, List.sum_append]
  cases found : (monthLengths date.year)[date.month - 1]? with
  | none =>
    rw [found] at day
    simp only [Option.getD_none] at day
    omega
  | some length =>
    rw [found] at day
    simp only [Option.getD_some] at day
    simp only [Option.toList_some, List.sum_singleton]
    omega

/-- And before the end of its year. -/
theorem Civil.Of.day_lt_year {secs : Nat} {date : Civil} (of : date.Of secs) :
    secs / 86400 < daysBefore ((date.year + 1 : Nat) : Int) := by
  have inMonth := of.day_lt
  have inYear : ((monthLengths date.year).take (date.month - 1 + 1)).sum ≤
      ((monthLengths date.year).take 12).sum := take_sum_mono _ (by have := of.month; omega)
  rw [show (monthLengths date.year).take 12 = monthLengths date.year from rfl,
    monthLengths_sum] at inYear
  rw [daysBefore_succ of.late, of.days]
  omega

/-- The parts of a later time are greater. -/
theorem Civil.fields_lt {s t : Nat} {date later : Civil} (of : date.Of s) (of' : later.Of t)
    (less : s < t) : date.fields < later.fields := by
  have ordered : s / 86400 ≤ t / 86400 := Nat.div_le_div_right (Nat.le_of_lt less)
  have years : date.year ≤ later.year := by
    have mono : Monotone fun i : Nat => daysBefore ((1970 + i : Nat) : Int) := fun i j le =>
      daysBefore_mono (Nat.le_add_right 1970 i) (Nat.add_le_add_left le 1970)
    obtain ⟨i, first⟩ := Nat.exists_eq_add_of_le of.late
    obtain ⟨j, second⟩ := Nat.exists_eq_add_of_le of'.late
    have start : daysBefore ((1970 + i : Nat) : Int) ≤ s / 86400 := by
      rw [← first, of.days]
      omega
    have ending := of'.day_lt_year
    rw [second] at ending
    have := interval_le mono ordered start ending
    omega
  have inMonth := of'.day_lt
  have days := of.days
  have days' := of'.days
  have months : date.year = later.year → date.month ≤ later.month := by
    intro same
    rw [same] at days
    have := interval_le (take_sum_mono (monthLengths later.year))
      (show ((monthLengths later.year).take (date.month - 1)).sum + (date.day - 1) ≤
        ((monthLengths later.year).take (later.month - 1)).sum + (later.day - 1) by omega)
      (Nat.le_add_right _ _) inMonth
    have := of.month
    have := of'.month
    omega
  obtain ⟨_, _, _, day, hr, min, sec, _, rest⟩ := of
  obtain ⟨_, _, _, day', hr', min', sec', _, rest'⟩ := of'
  simp only [Civil.fields, List.cons_lt_cons_iff, List.lt_irrefl, and_false, or_false]
  by_cases sameYear : date.year = later.year
  · have le := months sameYear
    by_cases sameMonth : date.month = later.month
    · rw [sameYear, sameMonth] at days
      omega
    · omega
  · omega

/-- Every time before the year 10000 is read back from its text, and a later one has a later
text. -/
theorem kermit_dates (s : Nat) (before : s < endOfDates) :
    parseKermitDate (unixSecsToKermitDate s) = some s ∧
      ∀ t, s < t → t < endOfDates → unixSecsToKermitDate s < unixSecsToKermitDate t := by
  have date := civil_of before
  constructor
  · rw [unixSecsToKermitDate_eq before]
    exact Civil.parse_text date
  · intro t less before'
    have later := civil_of before'
    rw [unixSecsToKermitDate_eq before, unixSecsToKermitDate_eq before']
    exact Civil.text_lt later (Civil.fields_lt date later less)

/-- The year 10000 begins 253402300800 seconds after 1970. -/
theorem endOfDates_eq : endOfDates = 253402300800 := by decide +kernel

/-- The last day of February 2000 is read back. -/
theorem kermit_dates_leap_day :
    951782400 < endOfDates ∧
      parseKermitDate (unixSecsToKermitDate 951782400) = some 951782400 := by
  have before : 951782400 < endOfDates := by
    rw [endOfDates_eq]
    decide
  exact ⟨before, (kermit_dates 951782400 before).1⟩

end EthernetGateway.Kermit
