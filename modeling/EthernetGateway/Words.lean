import EthernetGateway.Text

/-!
# The words of a line

A line of a protocol is read word by word, and a word is what stands between whitespace. A word in
front of a space is the first one read, and what is read is always words.
-/

namespace EthernetGateway.Text

/-- `str::split_whitespace`. -/
def splitWhitespace (text : Text) : List Text := (text.splitOnP isWhitespace).filter (· ≠ [])

/-- `str::rsplit_once` on a character: the parts before and after its last occurrence. -/
def rsplitOnce (separator : Char) (text : Text) : Option (Text × Text) :=
  (splitOnce separator text.reverse).map fun parts => (parts.2.reverse, parts.1.reverse)

/-- A text that is read as one word. -/
structure IsWord (text : Text) : Prop where
  /-- It says something. -/
  ne_nil : text ≠ []
  /-- It has no whitespace. -/
  solid : ∀ c ∈ text, isWhitespace c = false

/-- A word alone is read back. -/
theorem splitWhitespace_word {word : Text} (isWord : IsWord word) :
    splitWhitespace word = [word] := by
  rw [splitWhitespace, List.splitOnP_eq_singleton isWord.solid]
  simp [isWord.ne_nil]

/-- The words around whitespace are those before it and those after it. -/
theorem splitWhitespace_append (before after : Text) {c : Char} (space : isWhitespace c = true) :
    splitWhitespace (before ++ c :: after) = splitWhitespace before ++ splitWhitespace after := by
  rw [splitWhitespace, List.splitOnP_append_cons before after space, List.filter_append]
  rfl

/-- A word before a space is the first one read. -/
theorem splitWhitespace_cons {word : Text} (isWord : IsWord word) (rest : Text) :
    splitWhitespace (word ++ ' ' :: rest) = word :: splitWhitespace rest := by
  rw [splitWhitespace_append word rest (by decide), splitWhitespace_word isWord]
  rfl

/-- Whitespace at the front holds no word. -/
theorem splitWhitespace_trimStart (text : Text) :
    splitWhitespace (trimStart text) = splitWhitespace text := by
  induction text with
  | nil => rfl
  | cons c text ih =>
    rw [trimStart, List.dropWhile_cons]
    split_ifs with space
    · have first := splitWhitespace_append [] text space
      rw [List.nil_append] at first
      rw [first, ← ih]
      rfl
    · rfl

/-- Whitespace at the end holds no word. -/
theorem splitWhitespace_trimEnd (text : Text) :
    splitWhitespace (trimEnd text) = splitWhitespace text := by
  induction text using List.reverseRecOn with
  | nil => rfl
  | append_singleton text c ih =>
    rw [trimEnd, List.reverse_append, List.reverse_singleton, List.singleton_append,
      List.dropWhile_cons]
    split_ifs with space
    · rw [splitWhitespace_append text [] space]
      exact ih.trans (List.append_nil _).symm
    · rw [List.reverse_cons, List.reverse_reverse]

/-- Trimming keeps the words. -/
theorem splitWhitespace_trim (text : Text) : splitWhitespace (trim text) = splitWhitespace text := by
  rw [trim, splitWhitespace_trimEnd, splitWhitespace_trimStart]

/-- No part between separators holds one. -/
theorem solid_of_mem_splitOnP {test : Char → Bool} {text part : Text}
    (member : part ∈ text.splitOnP test) : ∀ c ∈ part, test c = false := by
  induction text generalizing part with
  | nil =>
    rw [List.splitOnP_nil, List.mem_singleton] at member
    simp [member]
  | cons c text ih =>
    rw [List.splitOnP_cons_eq_if_modifyHead] at member
    split_ifs at member with found
    · rcases List.mem_cons.mp member with rfl | member
      · simp
      · exact ih member
    · obtain ⟨first, parts, parted⟩ := List.exists_cons_of_ne_nil (List.splitOnP_ne_nil test text)
      rw [parted] at member ih
      rcases List.mem_cons.mp member with rfl | member
      · intro d mem
        rcases List.mem_cons.mp mem with rfl | mem
        · simpa using found
        · exact ih List.mem_cons_self d mem
      · exact ih (List.mem_cons_of_mem _ member)

/-- What is read is a word. -/
theorem isWord_of_mem_splitWhitespace {text word : Text} (member : word ∈ splitWhitespace text) :
    IsWord word := by
  rw [splitWhitespace, List.mem_filter, decide_eq_true_eq] at member
  exact ⟨member.2, solid_of_mem_splitOnP member.1⟩

/-- A word is left as it is by trimming. -/
theorem IsWord.trim {word : Text} (isWord : IsWord word) : Text.trim word = word :=
  trim_eq_self (fun c head => isWord.solid c (List.mem_of_mem_head? head))
    fun c last => isWord.solid c (List.mem_of_mem_getLast? last)

/-- What is split off at the first separator. -/
theorem splitOnce_eq_some {separator : Char} {text before after : Text}
    (parted : splitOnce separator text = some (before, after)) :
    separator ∉ before ∧ text = before ++ separator :: after := by
  rw [splitOnce] at parted
  split_ifs at parted with member
  obtain ⟨rfl, rfl⟩ := Prod.mk.inj (Option.some.inj parted)
  constructor
  · intro inside
    simpa using List.mem_takeWhile_imp inside
  · have more : text.dropWhile (fun c => decide (c ≠ separator)) ≠ [] := by
      intro all
      simpa using List.dropWhile_eq_nil_iff.mp all separator member
    have first : (text.dropWhile fun c => decide (c ≠ separator)).head more = separator := by
      simpa using List.head_dropWhile_not (fun c => decide (c ≠ separator)) more
    calc text = text.takeWhile (fun c => decide (c ≠ separator)) ++
          text.dropWhile (fun c => decide (c ≠ separator)) := List.takeWhile_append_dropWhile.symm
      _ = _ := by rw [← List.cons_head_tail more, first]; rfl

/-- A text without the separator after it is split off behind it. -/
theorem rsplitOnce_part {separator : Char} {part : Text} (free : separator ∉ part) (rest : Text) :
    rsplitOnce separator (rest ++ separator :: part) = some (rest, part) := by
  have turned : (rest ++ separator :: part).reverse = part.reverse ++ separator :: rest.reverse := by
    simp
  rw [rsplitOnce, turned, splitOnce_part (by simpa using free)]
  simp

/-- What is split off at the last separator. -/
theorem rsplitOnce_eq_some {separator : Char} {text before after : Text}
    (parted : rsplitOnce separator text = some (before, after)) :
    separator ∉ after ∧ text = before ++ separator :: after := by
  obtain ⟨⟨last, first⟩, split, same⟩ := Option.map_eq_some_iff.mp parted
  obtain ⟨rfl, rfl⟩ := Prod.mk.inj same
  obtain ⟨free, whole⟩ := splitOnce_eq_some split
  refine ⟨by simpa using free, ?_⟩
  rw [← List.reverse_reverse text, whole]
  simp

end EthernetGateway.Text
