import EthernetGateway.Printer.Sheet

/-!
# Pages and plain text

A cell keeps the character that shows and whether it was emphasised by a second strike. A page is
read as lines without their trailing blanks, and a job as plain text, its pages separated by form
feeds.
-/

namespace EthernetGateway.Printer

/-- `Cell`. -/
structure Cell where
  /-- The character that shows. -/
  ch : Char
  /-- The same character was struck again. -/
  bold : Bool
  /-- A letter and an underscore were struck. -/
  underline : Bool
  deriving DecidableEq

namespace Cell

/-- `Cell::default`. -/
def blank : Cell := ⟨' ', false, false⟩

/-- What `Page::put` makes of the cell under the head. -/
def strike (cell : Cell) (c : Char) : Cell :=
  if cell.ch = ' ' then { cell with ch := c }
  else if c = cell.ch then { cell with bold := true }
  else if c = '_' then { cell with underline := true }
  else if cell.ch = '_' ∧ c ≠ ' ' then { cell with underline := true, ch := c }
  else if c ≠ ' ' then { cell with ch := c }
  else cell

/-- The cells of a page. -/
def ink : Ink Cell := ⟨blank, strike⟩

/-- A cell after a number of strikes. -/
def struck (strikes : List Char) : Cell := strikes.foldl strike blank

end Cell

/-- `Page`. -/
abbrev Page : Type := Sheet Cell

/-- What was struck on each cell, the first strike first. -/
def strikesInk : Ink (List Char) := ⟨[], fun strikes c => strikes ++ [c]⟩

/-- A cell is what its strikes make of it. -/
theorem struck_inks : InkMap strikesInk Cell.ink Cell.struck where
  blank := rfl
  strike := fun strikes c => by simp [strikesInk, Cell.struck, Cell.ink]

/-- The pages of a job into which bytes were pushed. -/
def pagesOf (autoLf : Bool) (bytes : List UInt8) : List Page :=
  (SpoolJob.pushed Cell.ink autoLf bytes).pages

/-- What was struck on the pages of that job. -/
def strikesOf (autoLf : Bool) (bytes : List UInt8) : List (Sheet (List Char)) :=
  (SpoolJob.pushed strikesInk autoLf bytes).pages

/-- The pages show what was struck on them. -/
theorem pagesOf_eq (autoLf : Bool) (bytes : List UInt8) :
    pagesOf autoLf bytes = (strikesOf autoLf bytes).map (Sheet.map Cell.struck) := by
  simp only [pagesOf, strikesOf, ← SpoolJob.map_pushed struck_inks]
  simp [SpoolJob.pages, SpoolJob.map]

/-- A page shows strikable characters only. -/
theorem pagesOf_strikable (autoLf : Bool) (bytes : List UInt8) :
    ∀ page ∈ pagesOf autoLf bytes, page.All fun cell => Strikable cell.ch := by
  apply SpoolJob.pushed_all
  · exact ⟨by decide, by decide⟩
  · intro cell c strikable before
    simp only [Cell.ink, Cell.strike]
    split_ifs <;> assumption

/-! ## What strikes show -/

/-- The strikes of a column that are neither spaces nor underscores. -/
def letters (strikes : List Char) : List Char := strikes.filter fun c => c ≠ ' ' ∧ c ≠ '_'

/-- The strikes of a column that are not spaces. -/
def marks (strikes : List Char) : List Char := strikes.filter fun c => c ≠ ' '

/-- The underscores struck before the first letter. -/
def underscores (strikes : List Char) : Nat := ((marks strikes).takeWhile fun c => c = '_').length

/-- Two letters in a row are the same. -/
def Repeats (letters : List Char) : Prop := ¬ letters.IsChain (· ≠ ·)

/-- What a column shows: spaces strike nothing, an underscore shows as long as no letter is struck,
and after that the last letter shows, bold if two strikes in a row were the same, underlined if an
underscore was struck. -/
structure Shows (strikes : List Char) (cell : Cell) : Prop where
  /-- Nothing was struck. -/
  nothing : letters strikes = [] → '_' ∉ strikes → cell = .blank
  /-- Only underscores were struck. -/
  underscore : letters strikes = [] → '_' ∈ strikes →
    cell.ch = '_' ∧ (cell.bold ↔ 2 ≤ underscores strikes) ∧ cell.underline = false
  /-- A letter was struck. -/
  letter : ∀ last, (letters strikes).getLast? = some last →
    cell.ch = last ∧ (cell.bold ↔ 2 ≤ underscores strikes ∨ Repeats (letters strikes)) ∧
      (cell.underline ↔ '_' ∈ strikes)

/-- A mark strikes after the others. -/
theorem marks_concat (strikes : List Char) (c : Char) :
    marks (strikes ++ [c]) = marks strikes ++ if c = ' ' then [] else [c] := by
  by_cases space : c = ' ' <;> simp [marks, List.filter_append, space]

/-- A letter strikes after the others. -/
theorem letters_concat (strikes : List Char) (c : Char) :
    letters (strikes ++ [c]) = letters strikes ++ if c ≠ ' ' ∧ c ≠ '_' then [c] else [] := by
  by_cases letter : c ≠ ' ' ∧ c ≠ '_' <;> simp [letters, List.filter_append, letter]

/-- Only underscores were struck when no letter was. -/
theorem letters_eq_nil_iff {strikes : List Char} :
    letters strikes = [] ↔ ∀ c ∈ marks strikes, c = '_' := by
  simp [letters, marks, List.filter_eq_nil_iff]

/-- Without a letter, the underscores are all that was struck. -/
theorem takeWhile_eq_self_iff {strikes : List Char} :
    (marks strikes).takeWhile (fun c => c = '_') = marks strikes ↔ letters strikes = [] := by
  rw [List.takeWhile_eq_self_iff, letters_eq_nil_iff]
  simp

/-- An underscore is counted when no letter was struck before. -/
theorem underscores_concat (strikes : List Char) (c : Char) :
    underscores (strikes ++ [c]) =
      underscores strikes + if letters strikes = [] ∧ c = '_' then 1 else 0 := by
  by_cases space : c = ' '
  · subst space
    simp [underscores, marks_concat]
  · have whole : ((marks strikes).takeWhile fun c => decide (c = '_')).length =
        (marks strikes).length ↔ letters strikes = [] := by
      rw [← takeWhile_eq_self_iff]
      exact ⟨(List.takeWhile_prefix _).eq_of_length, congrArg List.length⟩
    rw [underscores, underscores, marks_concat, if_neg space, List.takeWhile_append]
    by_cases none : letters strikes = []
    · rw [if_pos (whole.mpr none), takeWhile_eq_self_iff.mpr none]
      by_cases under : c = '_' <;> simp [none, under]
    · rw [if_neg (whole.not.mpr none)]
      simp [none]

/-- A space strikes nothing. -/
theorem Shows.space {strikes : List Char} {cell : Cell} (shows : Shows strikes cell) :
    Shows (strikes ++ [' ']) (cell.strike ' ') := by
  have same : cell.strike ' ' = cell := by
    obtain ⟨ch, bold, underline⟩ := cell
    simp only [Cell.strike]
    split_ifs with space again
    · rw [← space]
    · exact absurd again.symm space
    all_goals simp_all
  have letters_eq : letters (strikes ++ [' ']) = letters strikes := by simp [letters]
  have underscores_eq : underscores (strikes ++ [' ']) = underscores strikes := by
    simp [underscores_concat]
  have mem_iff : '_' ∈ strikes ++ [' '] ↔ '_' ∈ strikes := by simp
  rw [same]
  exact ⟨by rw [letters_eq, mem_iff]; exact shows.nothing,
    by rw [letters_eq, mem_iff, underscores_eq]; exact shows.underscore,
    by rw [letters_eq, mem_iff, underscores_eq]; exact shows.letter⟩

/-- No underscore is counted where none was struck. -/
theorem underscores_eq_zero {strikes : List Char} (absent : '_' ∉ strikes) :
    underscores strikes = 0 := by
  rw [underscores, List.length_eq_zero_iff, List.eq_nil_iff_forall_not_mem]
  intro c mem
  have under : c = '_' := by simpa using List.mem_takeWhile_imp mem
  have struck := (List.takeWhile_prefix _).subset mem
  exact absent (under ▸ (List.mem_filter.mp struck).1)

/-- An underscore is counted where only underscores were struck. -/
theorem underscores_pos {strikes : List Char} (none : letters strikes = []) (struck : '_' ∈ strikes) :
    1 ≤ underscores strikes := by
  rw [underscores, takeWhile_eq_self_iff.mpr none]
  exact List.length_pos_of_mem (List.mem_filter.mpr ⟨struck, by decide⟩)

/-- The last letter is a letter. -/
theorem letters_last {strikes : List Char} {last : Char}
    (ends : (letters strikes).getLast? = some last) : last ≠ ' ' ∧ last ≠ '_' := by
  have mem := List.mem_of_getLast? ends
  simpa using (List.mem_filter.mp mem).2

/-- An underscore shows on a blank column, makes an underscore bold, and underlines a letter. -/
theorem Shows.under {strikes : List Char} {cell : Cell} (shows : Shows strikes cell) :
    Shows (strikes ++ ['_']) (cell.strike '_') := by
  have letters_eq : letters (strikes ++ ['_']) = letters strikes := by simp [letters_concat]
  constructor
  · intro none absent
    simp at absent
  · intro none _
    rw [letters_eq] at none
    have count : underscores (strikes ++ ['_']) = underscores strikes + 1 := by
      simp [underscores_concat, none]
    by_cases struck : '_' ∈ strikes
    · obtain ⟨ch, bold, underline⟩ := shows.underscore none struck
      have one := underscores_pos none struck
      simp only [Cell.strike, ch]
      refine ⟨by simp, ?_, by simpa using underline⟩
      simp [count]
      omega
    · rw [shows.nothing none struck, count, underscores_eq_zero struck]
      decide
  · intro last ends
    rw [letters_eq] at ends
    obtain ⟨ch, bold, underline⟩ := shows.letter last ends
    obtain ⟨space, under⟩ := letters_last ends
    have some : letters strikes ≠ [] := by
      intro none
      simp [none] at ends
    have count : underscores (strikes ++ ['_']) = underscores strikes := by
      simp [underscores_concat, some]
    have struck : cell.strike '_' = { cell with underline := true } := by
      simp only [Cell.strike, ch, if_neg space, if_neg (Ne.symm under)]
      simp
    rw [struck, letters_eq, count]
    exact ⟨ch, bold, by simp⟩

/-- Letters repeat when they did before or the last one is struck again. -/
theorem repeats_concat (letters : List Char) (c : Char) :
    Repeats (letters ++ [c]) ↔ Repeats letters ∨ letters.getLast? = some c := by
  simp only [Repeats, List.isChain_append]
  constructor
  · intro repeats
    by_contra neither
    obtain ⟨chain, last⟩ := not_or.mp neither
    refine repeats ⟨not_not.mp chain, by simp, ?_⟩
    rintro x ends y starts rfl
    simp at starts
    exact last (starts ▸ ends)
  · rintro (repeats | last) ⟨chain, _, distinct⟩
    · exact repeats chain
    · exact distinct c last c (by simp) rfl

/-- A letter shows, and is bold when it showed already. -/
theorem Shows.letter_struck {strikes : List Char} {cell : Cell} (shows : Shows strikes cell) {c : Char}
    (space : c ≠ ' ') (under : c ≠ '_') : Shows (strikes ++ [c]) (cell.strike c) := by
  have letters_eq : letters (strikes ++ [c]) = letters strikes ++ [c] := by
    simp [letters_concat, space, under]
  have count : underscores (strikes ++ [c]) = underscores strikes := by
    simp [underscores_concat, under]
  have under_iff : '_' ∈ strikes ++ [c] ↔ '_' ∈ strikes := by simp [Ne.symm under]
  have some : letters (strikes ++ [c]) ≠ [] := by simp [letters_eq]
  refine ⟨fun none => absurd none some, fun none => absurd none some, ?_⟩
  intro last ends
  obtain rfl : c = last := by simpa [letters_eq] using ends
  rw [letters_eq, repeats_concat, count, under_iff]
  cases before : (letters strikes).getLast? with
  | none =>
    have none : letters strikes = [] := List.getLast?_eq_none_iff.mp before
    by_cases struck : '_' ∈ strikes
    · obtain ⟨ch, bold, underline⟩ := shows.underscore none struck
      have now : cell.strike c = ⟨c, cell.bold, true⟩ := by
        simp [Cell.strike, ch, under, space]
      rw [now]
      refine ⟨rfl, ?_, by simp [struck]⟩
      simp [bold, none, Repeats]
    · rw [shows.nothing none struck, underscores_eq_zero struck, none]
      refine ⟨rfl, by simp [Cell.strike, Cell.blank, Repeats], by simp [Cell.strike, Cell.blank, struck]⟩
  | some prev =>
    obtain ⟨ch, bold, underline⟩ := shows.letter prev before
    obtain ⟨prev_space, prev_under⟩ := letters_last before
    by_cases again : c = prev
    · have now : cell.strike c = { cell with bold := true } := by
        simp [Cell.strike, ch, prev_space, again]
      rw [now]
      exact ⟨ch.trans again.symm, by simp [again], underline⟩
    · have now : cell.strike c = { cell with ch := c } := by
        simp [Cell.strike, ch, prev_space, prev_under, again, under, space]
      rw [now]
      refine ⟨rfl, ?_, underline⟩
      simp [bold, Ne.symm again]

/-- A column shows what its strikes say. -/
theorem shows_struck (strikes : List Char) : Shows strikes (Cell.struck strikes) := by
  induction strikes using List.reverseRecOn with
  | nil => exact ⟨fun _ _ => rfl, fun _ => nofun, nofun⟩
  | append_singleton strikes c shows =>
    have next : Cell.struck (strikes ++ [c]) = (Cell.struck strikes).strike c := by
      simp [Cell.struck]
    rw [next]
    by_cases space : c = ' '
    · exact space ▸ shows.space
    · by_cases under : c = '_'
      · exact under ▸ shows.under
      · exact shows.letter_struck space under

/-- In a column where a letter was struck, two strikes in a row were the same exactly when the last
letter was struck twice. -/
def Steady (strikes : List Char) : Prop :=
  ∀ last, (letters strikes).getLast? = some last →
    ((2 ≤ underscores strikes ∨ Repeats (letters strikes)) ↔ 2 ≤ strikes.count last)

/-- Without a letter, every underscore is counted. -/
theorem underscores_eq_count {strikes : List Char} (none : letters strikes = []) :
    underscores strikes = strikes.count '_' := by
  have all : ∀ c ∈ marks strikes, '_' = c := fun c mem => (letters_eq_nil_iff.mp none c mem).symm
  rw [underscores, takeWhile_eq_self_iff.mpr none, ← List.count_eq_length.mpr all, marks,
    List.count_filter (by decide)]

/-- A column that shows something was struck with it, and shows a letter or an underscore. -/
theorem struck_cases {strikes : List Char} (some : (Cell.struck strikes).ch ≠ ' ') :
    (letters strikes).getLast? = Option.some (Cell.struck strikes).ch ∨
      letters strikes = [] ∧ '_' ∈ strikes ∧ (Cell.struck strikes).ch = '_' := by
  have shows := shows_struck strikes
  cases last : (letters strikes).getLast? with
  | none =>
    have none : letters strikes = [] := List.getLast?_eq_none_iff.mp last
    by_cases struck : '_' ∈ strikes
    · exact .inr ⟨none, struck, (shows.underscore none struck).1⟩
    · rw [shows.nothing none struck] at some
      exact absurd rfl some
  | some c =>
    rw [(shows.letter c last).1]
    exact .inl rfl

/-- A column is bold as often as its character was struck twice, exactly when it is steady. -/
theorem bold_iff_steady {strikes : List Char} (some : (Cell.struck strikes).ch ≠ ' ') :
    ((Cell.struck strikes).bold ↔ 2 ≤ strikes.count (Cell.struck strikes).ch) ↔ Steady strikes := by
  have shows := shows_struck strikes
  obtain last | ⟨none, struck, ch⟩ := struck_cases some
  · rw [(shows.letter _ last).2.1]
    constructor
    · intro agrees other ends
      cases last.symm.trans ends
      exact agrees
    · exact fun steady => steady _ last
  · rw [(shows.underscore none struck).2.1, ch, underscores_eq_count none]
    simp [Steady, none]

/-- A column is underlined when it shows a letter and an underscore was struck there too. -/
theorem underline_iff {strikes : List Char} (some : (Cell.struck strikes).ch ≠ ' ') :
    (Cell.struck strikes).underline ↔
      (Cell.struck strikes).ch ≠ '_' ∧ (Cell.struck strikes).ch ∈ strikes ∧ '_' ∈ strikes := by
  have shows := shows_struck strikes
  obtain last | ⟨none, struck, ch⟩ := struck_cases some
  · have mem := (List.mem_filter.mp (List.mem_of_getLast? last)).1
    simp [(shows.letter _ last).2.2, (letters_last last).2, mem]
  · simp [(shows.underscore none struck).2.2, ch]

/-! ## Plain text -/

namespace Sheet

/-- `Page::is_blank`. -/
def isBlank (page : Page) : Bool := page.lines.all fun line => line.all fun cell => cell.ch = ' '

/-- `Page::rows`. -/
def rows (page : Page) : List Text :=
  (page.lines.map fun line => Text.trimEnd (line.map Cell.ch)).rdropWhile fun row => row = []

/-- `Page::styled_rows`. -/
def styledRows (page : Page) : List (List Cell) :=
  (page.lines.take page.rows.length).map fun line => line.rdropWhile fun cell => cell.ch = ' '

end Sheet

/-- `live_pages`. -/
def livePages (pages : List Page) : List Page :=
  match pages.rdropWhile Sheet.isBlank with
  | [] => pages.take 1
  | live => live

/-- The end of a line of plain text. -/
def lineEnd : Text := ['\r', '\n']

/-- A page of plain text. -/
def plainPage (page : Page) : Text := page.rows.flatMap fun row => row ++ lineEnd

/-- `SpoolJob::plain_text`. -/
def plainText (pages : List Page) : Text :=
  Text.join [Char.ofNat 0x0C] ((livePages pages).map plainPage)

/-- The lines of a text: each ends with a carriage return and a line feed. -/
def readLines : Text → List Text
  | [] => []
  | '\r' :: '\n' :: rest => [] :: readLines rest
  | c :: rest =>
    match readLines rest with
    | [] => [[c]]
    | line :: lines => (c :: line) :: lines

/-- The pages of a plain text, and their lines. -/
def readPlain (text : Text) : List (List Text) := (text.split (Char.ofNat 0x0C)).map readLines

/-! ## Lines and pages -/

/-- The only whitespace a printer strikes is the space. -/
theorem isWhitespace_iff {c : Char} (strikable : Strikable c) : Text.isWhitespace c = (c = ' ') := by
  have code : c = ' ' ↔ c.toNat = 32 :=
    ⟨fun same => same ▸ rfl, fun same => by rw [← Char.ofNat_toNat c, same]⟩
  obtain ⟨low, high⟩ := strikable
  simp only [Text.isWhitespace, Bool.or_eq_true, Bool.and_eq_true, decide_eq_true_eq, code,
    eq_iff_iff]
  omega

/-- Dropping from the end of a mapped list. -/
theorem rdropWhile_map {α β : Type} (f : α → β) (p : β → Bool) (list : List α) :
    (list.map f).rdropWhile p = (list.rdropWhile fun x => p (f x)).map f := by
  induction list using List.reverseRecOn with
  | nil => rfl
  | append_singleton list x ih =>
    rw [List.map_append, List.map_singleton, List.rdropWhile_concat, List.rdropWhile_concat, ih]
    split_ifs
    · rfl
    · simp

/-- Dropping from the end depends on the elements only. -/
theorem rdropWhile_congr {α : Type} {p q : α → Bool} {list : List α}
    (same : ∀ x ∈ list, p x = q x) : list.rdropWhile p = list.rdropWhile q := by
  induction list using List.reverseRecOn with
  | nil => rfl
  | append_singleton list x ih =>
    rw [List.rdropWhile_concat, List.rdropWhile_concat, same x (by simp),
      ih fun y mem => same y (List.mem_append_left _ mem)]

/-- A line of strikable characters without the blanks at its end. -/
theorem trimEnd_cells {line : List Cell} (strikable : ∀ cell ∈ line, Strikable cell.ch) :
    Text.trimEnd (line.map Cell.ch) = (line.rdropWhile fun cell => cell.ch = ' ').map Cell.ch := by
  have trimmed : Text.trimEnd (line.map Cell.ch) = (line.map Cell.ch).rdropWhile Text.isWhitespace :=
    rfl
  rw [trimmed, rdropWhile_map]
  congr 1
  apply rdropWhile_congr
  intro cell mem
  rw [Bool.eq_iff_iff, isWhitespace_iff (strikable cell mem)]
  simp

/-- The lines of a page are its styled lines without their styles. -/
theorem rows_eq {page : Page} (strikable : page.All fun cell => Strikable cell.ch) :
    page.rows = page.styledRows.map (List.map Cell.ch) := by
  have kept := List.prefix_iff_eq_take.mp (List.rdropWhile_prefix (fun row : Text => row = [])
    (page.lines.map fun line => Text.trimEnd (line.map Cell.ch)))
  have rows_take : page.rows =
      (page.lines.map fun line => Text.trimEnd (line.map Cell.ch)).take page.rows.length := kept
  rw [rows_take, Sheet.styledRows, ← List.map_take, List.map_map]
  apply List.map_congr_left
  intro line mem
  exact trimEnd_cells (strikable line (List.mem_of_mem_take mem))

/-- No styled line ends with a blank. -/
theorem styledRows_end {page : Page} {row : List Cell} (mem : row ∈ page.styledRows)
    (some : row ≠ []) : (row.getLast some).ch ≠ ' ' := by
  obtain ⟨line, _, rfl⟩ := List.mem_map.mp mem
  simpa using List.rdropWhile_last_not _ _ some

/-- The live pages are those up to the last that is not blank, and at least one. -/
theorem livePages_eq (pages : List Page) :
    livePages pages =
      if pages.rdropWhile Sheet.isBlank = [] then pages.take 1
      else pages.rdropWhile Sheet.isBlank := by
  simp only [livePages]
  cases pages.rdropWhile Sheet.isBlank with
  | nil => rfl
  | cons page pages => rfl

/-- The live pages are the first pages of a job. -/
theorem livePages_leading (pages : List Page) : livePages pages <+: pages := by
  rw [livePages_eq]
  split_ifs
  · exact List.take_prefix 1 pages
  · exact List.rdropWhile_prefix _ _

/-- A job has a live page. -/
theorem livePages_ne_nil {pages : List Page} (some : pages ≠ []) : livePages pages ≠ [] := by
  rw [livePages_eq]
  split_ifs with none
  · simpa using some
  · exact none

/-- A line without a carriage return is read up to its end. -/
theorem readLines_line {row : Text} (free : '\r' ∉ row) (rest : Text) :
    readLines (row ++ (lineEnd ++ rest)) = row :: readLines rest := by
  induction row with
  | nil => rfl
  | cons c row ih =>
    have other : c ≠ '\r' := fun same => free (same ▸ List.mem_cons_self)
    have tail := ih fun mem => free (List.mem_cons_of_mem _ mem)
    rw [List.cons_append, readLines, tail]
    simp [other]

/-- A page of plain text is read back as its lines. -/
theorem readLines_plainPage {page : Page} (free : ∀ row ∈ page.rows, '\r' ∉ row) :
    readLines (plainPage page) = page.rows := by
  have all : ∀ rows : List Text, (∀ row ∈ rows, '\r' ∉ row) →
      readLines (rows.flatMap fun row => row ++ lineEnd) = rows := by
    intro rows free
    induction rows with
    | nil => rfl
    | cons row rows ih =>
      rw [List.flatMap_cons, List.append_assoc, readLines_line (free row List.mem_cons_self),
        ih fun other mem => free other (List.mem_cons_of_mem _ mem)]
  exact all page.rows free

/-- The characters of the lines of a page are strikable. -/
theorem rows_strikable {page : Page} (strikable : page.All fun cell => Strikable cell.ch) :
    ∀ row ∈ page.rows, ∀ c ∈ row, Strikable c := by
  intro row among c mem
  rw [rows_eq strikable] at among
  obtain ⟨styled, within, rfl⟩ := List.mem_map.mp among
  obtain ⟨cell, shown, rfl⟩ := List.mem_map.mp mem
  obtain ⟨line, taken, rfl⟩ := List.mem_map.mp within
  exact strikable line (List.mem_of_mem_take taken) cell ((List.rdropWhile_prefix _ _).subset shown)

/-- A plain text is read back as the lines of its live pages. -/
theorem readPlain_plainText {pages : List Page} (some : pages ≠ [])
    (strikable : ∀ page ∈ pages, page.All fun cell => Strikable cell.ch) :
    readPlain (plainText pages) = (livePages pages).map Sheet.rows := by
  have live : ∀ page ∈ livePages pages, ∀ row ∈ page.rows, ∀ c ∈ row, Strikable c :=
    fun page mem => rows_strikable (strikable page ((livePages_leading pages).subset mem))
  have free : ∀ part ∈ (livePages pages).map plainPage, Char.ofNat 0x0C ∉ part := by
    intro part among feed
    obtain ⟨page, mem, rfl⟩ := List.mem_map.mp among
    obtain ⟨row, within, feed⟩ := List.mem_flatMap.mp feed
    obtain struck | ending := List.mem_append.mp feed
    · exact absurd (live page mem row within _ struck).1 (by decide)
    · revert ending
      decide
  rw [readPlain, plainText, Text.split_join (by simpa using livePages_ne_nil some) free, List.map_map]
  apply List.map_congr_left
  intro page mem
  apply readLines_plainPage
  intro row within struck
  exact absurd (live page mem row within _ struck).1 (by decide)

end EthernetGateway.Printer
