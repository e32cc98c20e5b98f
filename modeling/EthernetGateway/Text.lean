import Mathlib

/-!
# Text as the programs read it

A text is a list of characters. Trimming takes whitespace off both ends, a number is read as the
standard library's unsigned parser reads it, and ASCII letters have an upper case.
-/

namespace EthernetGateway

/-- A text. -/
abbrev Text : Type := List Char

namespace Text

/-- `char::is_whitespace`: the code points of the Unicode property White_Space. -/
def isWhitespace (c : Char) : Bool :=
  (9 ≤ c.toNat && c.toNat ≤ 13) || c.toNat = 32 || c.toNat = 0x85 || c.toNat = 0xA0 ||
    c.toNat = 0x1680 || (0x2000 ≤ c.toNat && c.toNat ≤ 0x200A) || c.toNat = 0x2028 ||
    c.toNat = 0x2029 || c.toNat = 0x202F || c.toNat = 0x205F || c.toNat = 0x3000

/-- `char::is_ascii_digit`. -/
def isDigit (c : Char) : Bool := 48 ≤ c.toNat && c.toNat ≤ 57

/-- `char::is_ascii`. -/
def isAscii (c : Char) : Bool := c.toNat < 128

/-- `str::trim_start`. -/
def trimStart (text : Text) : Text := text.dropWhile isWhitespace

/-- `str::trim_end`. -/
def trimEnd (text : Text) : Text := (text.reverse.dropWhile isWhitespace).reverse

/-- `str::trim`. -/
def trim (text : Text) : Text := trimEnd (trimStart text)

/-- `str::to_ascii_uppercase`. -/
def upper (text : Text) : Text := text.map Char.toUpper

/-- The value of a run of digits. -/
def digits (text : Text) : Nat :=
  text.foldl (fun value c => value * 10 + (c.toNat - 48)) 0

/-- `str::parse` for an unsigned type with values below a bound: an optional plus sign, then one
digit or more. -/
def parseUnsigned (bound : Nat) (text : Text) : Option Nat :=
  let number := if text.head? = some '+' then text.tail else text
  if number ≠ [] ∧ number.all isDigit ∧ digits number < bound then some (digits number) else none

/-- `str::split` on a character: the parts between its occurrences, at least one. -/
def split (separator : Char) : Text → List Text
  | [] => [[]]
  | c :: text =>
    if c = separator then [] :: split separator text
    else
      match split separator text with
      | [] => [[c]]
      | part :: parts => (c :: part) :: parts

/-- `str::split_once` on a character. -/
def splitOnce (separator : Char) (text : Text) : Option (Text × Text) :=
  if separator ∈ text then
    some (text.takeWhile fun c => c ≠ separator, (text.dropWhile fun c => c ≠ separator).tail)
  else none

/-- `Vec::join` with a separator. -/
def join (separator : Text) : List Text → Text
  | [] => []
  | [part] => part
  | part :: parts => part ++ separator ++ join separator parts

/-- `sanitize_value`: a value as it is written to the configuration file, on one line and without
whitespace around it. -/
def sanitize (value : Text) : Text := trim (value.filter fun c => c ≠ '\n' ∧ c ≠ '\r')

/-- `to_string` of a number. -/
def ofNat (n : Nat) : Text := Nat.toDigits 10 n

/-- A number written in digits has its value. -/
theorem digits_ofNat (n : Nat) : digits (ofNat n) = n := by
  have same : digits (ofNat n) = Nat.ofDigitChars 10 (Nat.toDigits 10 n) 0 := by
    simp only [digits, ofNat, Nat.ofDigitChars, Nat.mul_comm 10]
    rfl
  rw [same, Nat.ofDigitChars_ten_toDigits]

/-- A number is written in digits. -/
theorem isDigit_of_mem_ofNat {n : Nat} {c : Char} (member : c ∈ ofNat n) : isDigit c = true := by
  have digit := Nat.isDigit_of_mem_toDigits (by omega) (by omega) member
  simp only [Char.isDigit, Bool.and_eq_true, decide_eq_true_eq, UInt32.le_iff_toNat_le] at digit
  simp only [isDigit, Bool.and_eq_true, decide_eq_true_eq]
  exact digit

/-- A number written in digits is read back where it is below the bound. -/
theorem parseUnsigned_ofNat {n bound : Nat} (small : n < bound) :
    parseUnsigned bound (ofNat n) = some n := by
  have written : ofNat n ≠ [] := Nat.toDigits_ne_nil
  have digit : ∀ c ∈ ofNat n, isDigit c = true := fun c => isDigit_of_mem_ofNat
  have unsigned : (ofNat n).head? ≠ some '+' := by
    intro signed
    have plus := digit '+' (List.mem_of_mem_head? signed)
    exact absurd plus (by decide)
  rw [parseUnsigned, if_neg unsigned,
    if_pos ⟨written, List.all_eq_true.mpr digit, by rwa [digits_ofNat]⟩, digits_ofNat]

@[simp] theorem upper_length (text : Text) : (upper text).length = text.length := by
  simp [upper]

@[simp] theorem upper_take (text : Text) (n : Nat) : upper (text.take n) = (upper text).take n := by
  simp [upper, List.map_take]

@[simp] theorem upper_eq_nil {text : Text} : upper text = [] ↔ text = [] := by
  simp [upper]

/-- A part without the separator is split off as a whole. -/
theorem split_part {separator : Char} {part : Text} (free : separator ∉ part) (rest : Text) :
    split separator (part ++ separator :: rest) = part :: split separator rest := by
  induction part with
  | nil => simp [split]
  | cons c part ih =>
    have other : c ≠ separator := fun same => free (same ▸ List.mem_cons_self)
    have tail := ih fun mem => free (List.mem_cons_of_mem _ mem)
    simp [split, other, tail]

/-- A text without the separator is one part. -/
theorem split_free {separator : Char} {part : Text} (free : separator ∉ part) :
    split separator part = [part] := by
  induction part with
  | nil => rfl
  | cons c part ih =>
    have other : c ≠ separator := fun same => free (same ▸ List.mem_cons_self)
    have tail := ih fun mem => free (List.mem_cons_of_mem _ mem)
    simp [split, other, tail]

/-- A text joined from parts without the separator is split into them. -/
theorem split_join {separator : Char} {parts : List Text} (some : parts ≠ [])
    (free : ∀ part ∈ parts, separator ∉ part) :
    split separator (join [separator] parts) = parts := by
  induction parts with
  | nil => exact absurd rfl some
  | cons part parts ih =>
    cases parts with
    | nil => exact split_free (free part List.mem_cons_self)
    | cons next parts =>
      have rest := ih (by simp) fun other mem => free other (List.mem_cons_of_mem _ mem)
      have joined : join [separator] (part :: next :: parts) =
          part ++ separator :: join [separator] (next :: parts) := by
        simp [join]
      rw [joined, split_part (free part List.mem_cons_self), rest]

/-- A part split off has no separator. -/
theorem not_mem_of_mem_split {separator : Char} {text part : Text}
    (member : part ∈ split separator text) : separator ∉ part := by
  induction text generalizing part with
  | nil =>
    cases List.mem_singleton.mp member
    exact List.not_mem_nil
  | cons c text ih =>
    rw [split] at member
    split_ifs at member with same
    · rcases List.mem_cons.mp member with rfl | member
      · exact List.not_mem_nil
      · exact ih member
    · split at member
      · cases List.mem_singleton.mp member
        simpa using fun equal => same equal.symm
      · next first parts parted =>
        rw [parted] at ih
        rcases List.mem_cons.mp member with rfl | member
        · rw [List.mem_cons, not_or]
          exact ⟨fun equal => same equal.symm, ih List.mem_cons_self⟩
        · exact ih (List.mem_cons_of_mem _ member)

/-- What is left after trimming was there before. -/
theorem mem_of_mem_trim {text : Text} {c : Char} (member : c ∈ trim text) : c ∈ text :=
  (List.dropWhile_suffix _).subset ((List.rdropWhile_prefix _ _).subset member)

/-- A text that neither starts nor ends with whitespace is left as it is. -/
theorem trim_eq_self {text : Text} (head : ∀ c ∈ text.head?, isWhitespace c = false)
    (last : ∀ c ∈ text.getLast?, isWhitespace c = false) : trim text = text := by
  have start : text.dropWhile isWhitespace = text := by
    cases text with
    | nil => rfl
    | cons c text => simp [head c rfl]
  have ending : text.rdropWhile isWhitespace = text := by
    rw [List.rdropWhile_eq_self_iff]
    intro some
    simp [last _ (List.getLast?_eq_some_getLast some)]
  show (text.dropWhile isWhitespace).rdropWhile isWhitespace = text
  rw [start, ending]

/-- A trimmed text does not start with whitespace. -/
theorem head?_trim {text : Text} : ∀ c ∈ (trim text).head?, isWhitespace c = false := by
  intro c head
  obtain ⟨kept, rest⟩ := List.rdropWhile_prefix isWhitespace (text.dropWhile isWhitespace)
  have first : (text.dropWhile isWhitespace).head? = some c := by
    rw [← rest, List.head?_append]
    have found : (List.rdropWhile isWhitespace (text.dropWhile isWhitespace)).head? = some c := head
    rw [found]
    rfl
  have ends := List.head?_dropWhile_not isWhitespace text
  rw [first] at ends
  exact ends

/-- A trimmed text does not end with whitespace. -/
theorem getLast?_trim {text : Text} : ∀ c ∈ (trim text).getLast?, isWhitespace c = false := by
  intro c last
  have some : trim text ≠ [] := by
    rintro none
    rw [none] at last
    cases last
  have final : (trim text).getLast some = c := by
    rw [List.getLast?_eq_some_getLast some] at last
    exact Option.some.inj last
  have ends : ¬ isWhitespace ((trim text).getLast some) = true :=
    List.rdropWhile_last_not isWhitespace (trimStart text) some
  rw [final] at ends
  simpa using ends

/-- Trimming twice is trimming once. -/
theorem trim_trim (text : Text) : trim (trim text) = trim text := trim_eq_self head?_trim getLast?_trim

/-- A text without the separator before it is split off in front of it. -/
theorem splitOnce_part {separator : Char} {part : Text} (free : separator ∉ part) (rest : Text) :
    splitOnce separator (part ++ separator :: rest) = some (part, rest) := by
  have others : ∀ c ∈ part, decide (c ≠ separator) = true := fun c member =>
    decide_eq_true fun same => free (same ▸ member)
  simp only [splitOnce, List.mem_append, List.mem_cons, true_or, or_true, if_true,
    List.takeWhile_append_of_pos others, List.dropWhile_append_of_pos others]
  simp

end Text

end EthernetGateway
