import EthernetGateway.Printer.OdtReading

/-!
# What the document says of a page

The document is read back as the characters of the page, each in the span of its cell. What remains
is where that is not what was struck: a column that was struck with other characters in between, and
a gap between two words that are emphasised alike.
-/

namespace EthernetGateway.Printer

/-! ## Gaps -/

section Gaps

variable {α β : Type}

/-- Two elements that are emphasised alike, with nothing but blanks between them. -/
def Gapped (blank : α → Prop) (emphasis : α → Bool × Bool) (line : List α) : Prop :=
  ∃ left gap right, left :: gap ++ [right] <:+: line ∧ gap ≠ [] ∧ (∀ x ∈ gap, blank x) ∧
    ¬ blank left ∧ ¬ blank right ∧ emphasis left = emphasis right ∧ emphasis left ≠ (false, false)

/-- A gap in a mapped line is one in the line. -/
theorem gapped_map {blank : β → Prop} {emphasis : β → Bool × Bool} (f : α → β) (line : List α) :
    Gapped blank emphasis (line.map f) ↔
      Gapped (fun x => blank (f x)) (fun x => emphasis (f x)) line := by
  constructor
  · rintro ⟨left, gap, right, within, some, blanks, first, last, same, styled⟩
    obtain ⟨part, inside, mapped⟩ := List.infix_map_iff.mp within
    obtain ⟨begins, ends, rfl, whole, single⟩ := List.map_eq_append_iff.mp mapped.symm
    obtain ⟨x, middle, rfl, rfl, rfl⟩ := List.map_eq_cons_iff.mp whole
    obtain ⟨y, rfl, rfl⟩ := List.map_eq_singleton_iff.mp single
    exact ⟨x, middle, y, inside, fun none => some (none ▸ rfl),
      fun z mem => blanks _ (List.mem_map_of_mem mem), first, last, same, styled⟩
  · rintro ⟨left, gap, right, within, some, blanks, first, last, same, styled⟩
    refine ⟨f left, gap.map f, f right, ?_, by simpa using some, ?_, first, last, same, styled⟩
    · simpa using within.map f
    · intro z mem
      obtain ⟨x, among, rfl⟩ := List.mem_map.mp mem
      exact blanks x among

/-- A gap depends on what is blank and how the others are emphasised. -/
theorem Gapped.congr {blank blank' : α → Prop} {emphasis emphasis' : α → Bool × Bool}
    {line : List α} (blanks : ∀ x ∈ line, (blank x ↔ blank' x))
    (styles : ∀ x ∈ line, ¬ blank x → emphasis x = emphasis' x)
    (gapped : Gapped blank emphasis line) : Gapped blank' emphasis' line := by
  obtain ⟨left, gap, right, within, some, between, first, last, same, styled⟩ := gapped
  have left_mem : left ∈ line := within.subset (by simp)
  have right_mem : right ∈ line := within.subset (by simp)
  have gap_mem : ∀ x ∈ gap, x ∈ line := fun x mem => within.subset (by simp [mem])
  refine ⟨left, gap, right, within, some, fun x mem => (blanks x (gap_mem x mem)).mp (between x mem),
    (blanks left left_mem).not.mp first, (blanks right right_mem).not.mp last, ?_, ?_⟩
  · rw [← styles left left_mem first, ← styles right right_mem last, same]
  · rw [← styles left left_mem first]
    exact styled

/-- The blanks at the end of a line have no part in a gap. -/
theorem gapped_rdropWhile {blank : α → Prop} {emphasis : α → Bool × Bool} {p : α → Bool}
    (spaces : ∀ x, p x → blank x) (line : List α) :
    Gapped blank emphasis (line.rdropWhile p) ↔ Gapped blank emphasis line := by
  induction line using List.reverseRecOn with
  | nil => exact Iff.rfl
  | append_singleton line x ih =>
    rw [List.rdropWhile_concat]
    split_ifs with space
    · rw [ih]
      constructor
      · rintro ⟨left, gap, right, within, rest⟩
        exact ⟨left, gap, right, within.trans (List.prefix_append _ _).isInfix, rest⟩
      · rintro ⟨left, gap, right, within, some, between, first, last, rest⟩
        refine ⟨left, gap, right, ?_, some, between, first, last, rest⟩
        obtain ⟨before, ends⟩ | within := List.infix_concat_iff.mp within
        · have joined : (before ++ left :: gap) ++ [right] = line ++ [x] := by simpa using ends
          have same : x = right := by simpa using (List.append_inj_right' joined rfl).symm
          exact absurd (spaces x space) (same ▸ last)
        · exact within
    · exact Iff.rfl

end Gaps

/-! ## Marks and cells -/

/-- A character that was read is that of its cell, and lies in the span of its style. -/
def MarkOf (cell : Cell) (mark : Mark) : Prop :=
  mark.ch = cell.ch ∧ (cell.ch ≠ ' ' → mark.span = spanStyle cell)

/-- A row does not end with a space. -/
def Trimmed (row : List Cell) : Prop := ∀ last, row.getLast? = some last → last.ch ≠ ' '

/-- A row that does not end with a space is read cell by cell. -/
theorem emphasised_marks {row : List Cell} (trimmed : Trimmed row) (gap : List Cell)
    (spaces : ∀ cell ∈ gap, cell.ch = ' ') (follows : row = [] → gap = []) (opened : Option Text) :
    List.Forall₂ MarkOf (gap ++ row) (emphasised opened gap.length row) := by
  induction row generalizing gap opened with
  | nil =>
    rw [follows rfl]
    exact .nil
  | cons cell row ih =>
    have tail : Trimmed row := by
      intro last ends
      exact trimmed last (by simp [List.getLast?_cons, ends])
    rw [emphasised]
    split_ifs with space style
    · have more : row ≠ [] := by
        rintro rfl
        exact trimmed cell rfl space
      have rest := ih tail (gap ++ [cell]) (by simpa [or_imp, forall_and] using ⟨spaces, space⟩)
        (fun none => absurd none more) opened
      simpa using rest
    all_goals
      have blanks : ∀ span : Option Text, ∀ gap : List Cell, (∀ cell ∈ gap, cell.ch = ' ') →
          List.Forall₂ MarkOf gap (List.replicate gap.length ⟨' ', span⟩) := by
        intro span gap spaces
        induction gap with
        | nil => exact .nil
        | cons blank gap ih =>
          have here := spaces blank List.mem_cons_self
          exact .cons ⟨here.symm, fun other => absurd here other⟩
            (ih fun cell mem => spaces cell (List.mem_cons_of_mem _ mem))
      exact List.rel_append (blanks _ gap spaces)
        (.cons ⟨rfl, fun _ => rfl⟩ (ih tail [] (by simp) (fun _ => rfl) _))

/-- The marks of a row are its characters. -/
theorem marks_characters {row : List Cell} {marks : List Mark}
    (all : List.Forall₂ MarkOf row marks) : marks.map Mark.ch = row.map Cell.ch := by
  induction all with
  | nil => rfl
  | cons mark _ ih => rw [List.map_cons, List.map_cons, ih, mark.1]

/-- The mark at a column is that of the cell there. -/
theorem marks_cell {row : List Cell} {marks : List Mark} (all : List.Forall₂ MarkOf row marks)
    {column : Nat} {mark : Mark} (found : marks[column]? = some mark) :
    ∃ cell, row[column]? = some cell ∧ MarkOf cell mark := by
  induction all generalizing column with
  | nil => cases found
  | cons first _ ih =>
    cases column with
    | zero =>
      cases found
      exact ⟨_, rfl, first⟩
    | succ column => exact ih found

/-- The cell at a column that shows a character has a mark there. -/
theorem cell_marks {row : List Cell} {marks : List Mark} (all : List.Forall₂ MarkOf row marks)
    {column : Nat} {cell : Cell} (found : row[column]? = some cell) (visible : cell.ch ≠ ' ') :
    marks[column]? = some ⟨cell.ch, spanStyle cell⟩ := by
  induction all generalizing column with
  | nil => cases found
  | @cons _ mark _ _ first _ ih =>
    cases column with
    | zero =>
      cases found
      obtain ⟨ch, span⟩ := mark
      obtain ⟨rfl, same⟩ := first
      rw [← same visible]
      rfl
    | succ column => exact ih found

/-! ## Spaces in spans -/

/-- The emphasis of a cell. -/
def Cell.emphasis (cell : Cell) : Bool × Bool := (cell.bold, cell.underline)

/-- A row has a gap between two cells that are emphasised alike. -/
abbrev GappedRow (row : List Cell) : Prop := Gapped (fun cell => cell.ch = ' ') Cell.emphasis row

/-- The next character of a row is of the style of the open span, after a number of spaces. -/
def Reaches (opened : Option Text) (spaces : Nat) (row : List Cell) : Prop :=
  opened ≠ none ∧ ∃ gap right, gap ++ [right] <+: row ∧ (∀ cell ∈ gap, cell.ch = ' ') ∧
    right.ch ≠ ' ' ∧ spanStyle right = opened ∧ 0 < spaces + gap.length

/-- A space lies in a span. -/
def Spaced (marks : List Mark) : Prop := ∃ mark ∈ marks, mark.ch = ' ' ∧ mark.span ≠ none

/-- The style of a span says the emphasis. -/
theorem spanStyle_eq_iff (left right : Cell) :
    spanStyle left = spanStyle right ↔ left.emphasis = right.emphasis := by
  obtain ⟨_, bold, underline⟩ := left
  obtain ⟨_, bold', underline'⟩ := right
  cases bold <;> cases underline <;> cases bold' <;> cases underline' <;>
    simp [spanStyle, Cell.emphasis, odtBold, odtUnder, odtBoldUnder]

/-- A cell without emphasis needs no span. -/
theorem spanStyle_eq_none_iff (cell : Cell) :
    spanStyle cell = none ↔ cell.emphasis = (false, false) := by
  obtain ⟨_, bold, underline⟩ := cell
  cases bold <;> cases underline <;> simp [spanStyle, Cell.emphasis]

/-- A space is one more before the next character. -/
theorem reaches_space {cell : Cell} (space : cell.ch = ' ') (opened : Option Text) (spaces : Nat)
    (row : List Cell) : Reaches opened spaces (cell :: row) ↔ Reaches opened (spaces + 1) row := by
  constructor
  · rintro ⟨some, gap, right, begins, blanks, last, style, before⟩
    cases gap with
    | nil =>
      obtain ⟨rfl, -⟩ := List.cons_prefix_cons.mp begins
      exact absurd space last
    | cons first gap =>
      obtain ⟨rfl, tail⟩ := List.cons_prefix_cons.mp begins
      exact ⟨some, gap, right, tail, fun x mem => blanks x (List.mem_cons_of_mem _ mem), last,
        style, by omega⟩
  · rintro ⟨some, gap, right, begins, blanks, last, style, before⟩
    refine ⟨some, cell :: gap, right, List.cons_prefix_cons.mpr ⟨rfl, begins⟩, ?_, last, style, ?_⟩
    · simpa [space] using blanks
    · simp only [List.length_cons]
      omega

/-- A character is the next one. -/
theorem reaches_mark {cell : Cell} (mark : cell.ch ≠ ' ') (opened : Option Text) (spaces : Nat)
    (row : List Cell) :
    Reaches opened spaces (cell :: row) ↔ opened ≠ none ∧ spanStyle cell = opened ∧ 0 < spaces := by
  constructor
  · rintro ⟨some, gap, right, begins, blanks, last, style, before⟩
    cases gap with
    | nil =>
      obtain ⟨rfl, -⟩ := List.cons_prefix_cons.mp begins
      exact ⟨some, style, before⟩
    | cons first gap =>
      obtain ⟨rfl, -⟩ := List.cons_prefix_cons.mp begins
      exact absurd (blanks first List.mem_cons_self) mark
  · rintro ⟨some, style, before⟩
    exact ⟨some, [], cell, by simp, nofun, mark, style, before⟩

/-- A gap starts after the first cell or later. -/
theorem gappedRow_cons (cell : Cell) (row : List Cell) :
    GappedRow (cell :: row) ↔
      (cell.ch ≠ ' ' ∧ Reaches (spanStyle cell) 0 row) ∨ GappedRow row := by
  constructor
  · rintro ⟨left, gap, right, within, some, blanks, first, last, same, styled⟩
    obtain begins | within := List.infix_cons_iff.mp within
    · obtain ⟨rfl, tail⟩ := List.cons_prefix_cons.mp begins
      have length := List.length_pos_iff.mpr some
      exact .inl ⟨first, (spanStyle_eq_none_iff left).not.mpr styled, gap, right, tail, blanks, last,
        (spanStyle_eq_iff right left).mpr same.symm, by omega⟩
    · exact .inr ⟨left, gap, right, within, some, blanks, first, last, same, styled⟩
  · rintro (⟨first, styled, gap, right, begins, blanks, last, same, some⟩ | gapped)
    · refine ⟨cell, gap, right, ?_, by rintro rfl; simp at some, blanks, first, last,
        ((spanStyle_eq_iff right cell).mp same).symm, (spanStyle_eq_none_iff cell).not.mp styled⟩
      exact (List.cons_prefix_cons.mpr ⟨rfl, begins⟩ : cell :: (gap ++ [right]) <+: cell :: row).isInfix
    · obtain ⟨left, gap, right, within, rest⟩ := gapped
      exact ⟨left, gap, right, List.infix_cons within, rest⟩

/-- A space lies in a span when the open span reaches the next character, or there is a gap between
two cells that are emphasised alike. -/
theorem spaced_iff (opened : Option Text) (spaces : Nat) (row : List Cell) :
    Spaced (emphasised opened spaces row) ↔ Reaches opened spaces row ∨ GappedRow row := by
  induction row generalizing opened spaces with
  | nil =>
    constructor
    · rintro ⟨mark, mem, -⟩
      cases mem
    · rintro (⟨-, gap, right, begins, -⟩ | ⟨left, gap, right, within, -⟩)
      · simp at begins
      · simp at within
  | cons cell row ih =>
    rw [emphasised]
    by_cases space : cell.ch = ' '
    · rw [if_pos space, ih, reaches_space space, gappedRow_cons]
      simp [space]
    · have parts : ∀ first rest : List Mark, Spaced (first ++ rest) ↔ Spaced first ∨ Spaced rest := by
        intro first rest
        simp only [Spaced, List.mem_append, or_and_right, exists_or]
      have mark : ∀ rest : List Mark, Spaced (⟨cell.ch, spanStyle cell⟩ :: rest) ↔ Spaced rest := by
        intro rest
        simp [Spaced, space]
      have blanks : Spaced (List.replicate spaces
          ⟨' ', if spanStyle cell = opened then opened else none⟩) ↔
          opened ≠ none ∧ spanStyle cell = opened ∧ 0 < spaces := by
        simp only [Spaced, List.mem_replicate]
        by_cases same : spanStyle cell = opened
        · simp [same, Nat.pos_iff_ne_zero, and_comm]
        · simp [same]
      rw [if_neg space, parts, mark, blanks, ih, reaches_mark space, gappedRow_cons]
      simp [space]

/-! ## Columns -/

/-- What is at a column of a line of a page. -/
def elementAt {α : Type} (pages : List (List (List α))) (page line column : Nat) : Option α :=
  pages[page]?.bind fun lines => lines[line]?.bind fun elements => elements[column]?

/-- What is dropped from the end of a list is not what is kept. -/
theorem getElem?_rdropWhile {α : Type} {p : α → Bool} {x : α} (keep : ¬ p x) (list : List α)
    (index : Nat) : (list.rdropWhile p)[index]? = some x ↔ list[index]? = some x := by
  have parts : list.rdropWhile p ++ list.rtakeWhile p = list := List.rdropWhile_append_rtakeWhile
  constructor
  · intro found
    obtain ⟨bound, -⟩ := List.getElem?_eq_some_iff.mp found
    rw [← parts, List.getElem?_append_left bound, found]
  · intro found
    rw [← parts] at found
    by_cases bound : index < (list.rdropWhile p).length
    · rwa [List.getElem?_append_left bound] at found
    · rw [List.getElem?_append_right (by omega)] at found
      exact absurd (List.mem_rtakeWhile_imp (List.mem_of_getElem? found)) keep

/-- A page that is not blank is live where it is. -/
theorem livePages_getElem? {page : Page} (printed : ¬ page.isBlank) (pages : List Page)
    (index : Nat) : (livePages pages)[index]? = some page ↔ pages[index]? = some page := by
  rw [livePages_eq]
  split_ifs with none
  · have blank := List.rdropWhile_eq_nil_iff.mp none
    constructor
    · exact fun found => absurd (blank page (List.mem_of_mem_take (List.mem_of_getElem? found))) printed
    · exact fun found => absurd (blank page (List.mem_of_getElem? found)) printed
  · exact getElem?_rdropWhile printed pages index

/-- A line on which something shows is a row of its page, without the blanks at its end. -/
theorem styledRows_getElem? {page : Page} (strikable : page.All fun cell => Strikable cell.ch)
    {line : Nat} {cells : List Cell} (found : page.lines[line]? = some cells)
    (shows : ∃ cell ∈ cells, cell.ch ≠ ' ') :
    page.styledRows[line]? = some (cells.rdropWhile fun cell => cell.ch = ' ') := by
  obtain ⟨cell, mem, mark⟩ := shows
  have kept : cell ∈ cells.rdropWhile fun cell => cell.ch = ' ' := by
    obtain ⟨column, at_column⟩ := List.getElem?_of_mem mem
    exact List.mem_of_getElem? ((getElem?_rdropWhile (by simpa using mark) cells column).mpr at_column)
  have text : Text.trimEnd (cells.map Cell.ch) ≠ [] := by
    rw [trimEnd_cells (strikable cells (List.mem_of_getElem? found))]
    exact List.ne_nil_of_mem (List.mem_map_of_mem kept)
  have row : page.rows[line]? = some (Text.trimEnd (cells.map Cell.ch)) := by
    rw [Sheet.rows, getElem?_rdropWhile (by simpa using text), List.getElem?_map, found]
    rfl
  obtain ⟨bound, -⟩ := List.getElem?_eq_some_iff.mp row
  rw [Sheet.styledRows, List.getElem?_map, List.getElem?_take_of_lt bound, found]
  rfl

/-- A row of a page is a line without the blanks at its end. -/
theorem styledRows_line {page : Page} {line : Nat} {row : List Cell}
    (found : page.styledRows[line]? = some row) :
    ∃ cells, page.lines[line]? = some cells ∧ row = cells.rdropWhile fun cell => cell.ch = ' ' := by
  rw [Sheet.styledRows, List.getElem?_map] at found
  obtain ⟨cells, taken, rfl⟩ := Option.map_eq_some_iff.mp found
  obtain ⟨bound, -⟩ := List.getElem?_eq_some_iff.mp taken
  have short : line < page.rows.length := by
    simp only [List.length_take] at bound
    omega
  rw [List.getElem?_take_of_lt short] at taken
  exact ⟨cells, taken, rfl⟩

/-- A row of a page does not end with a space. -/
theorem styledRows_trimmed {page : Page} {row : List Cell} (mem : row ∈ page.styledRows) :
    Trimmed row := by
  intro last ends
  have some : row ≠ [] := by
    rintro rfl
    cases ends
  have same : row.getLast some = last := by
    rw [List.getLast?_eq_some_getLast some] at ends
    exact Option.some_injective _ ends
  exact same ▸ styledRows_end mem some

/-- The rows of a page are read cell by cell. -/
theorem row_marks {page : Page} {row : List Cell} (mem : row ∈ page.styledRows) :
    List.Forall₂ MarkOf row (emphasised none 0 row) := by
  simpa using emphasised_marks (styledRows_trimmed mem) [] nofun (fun _ => rfl) none

/-- The last row of a page is not empty. -/
theorem readLinesOf_ne {page : Page} (strikable : page.All fun cell => Strikable cell.ch) :
    readLinesOf page ≠ [[]] := by
  intro single
  obtain ⟨row, rows, marks⟩ := List.map_eq_singleton_iff.mp single
  have mem : row ∈ page.styledRows := by simp [rows]
  have empty : row = [] := by
    have all := row_marks mem
    rw [marks] at all
    cases all
    rfl
  have only : page.rows = [[]] := by simp [rows_eq strikable, rows, empty]
  have shown : page.rows ≠ [] := by simp [only]
  have last := List.rdropWhile_last_not (fun row : Text => decide (row = []))
    (page.lines.map fun line : List Cell => Text.trimEnd (line.map Cell.ch)) shown
  have ends : page.rows.getLast (by simp [only]) = [] := by simp [only]
  exact last (decide_eq_true ends)

/-- An element at a column is on a line of a page. -/
theorem elementAt_eq_some {α : Type} {pages : List (List (List α))} {page line column : Nat}
    {x : α} : elementAt pages page line column = some x ↔ ∃ lines, pages[page]? = some lines ∧
      ∃ elements, lines[line]? = some elements ∧ elements[column]? = some x := by
  simp [elementAt, Option.bind_eq_some_iff]

/-- A character that shows makes its page printed. -/
theorem isBlank_of_mem {page : Page} {cells : List Cell} {cell : Cell} (line : cells ∈ page.lines)
    (mem : cell ∈ cells) (mark : cell.ch ≠ ' ') : ¬ page.isBlank := by
  intro blank
  simp only [Sheet.isBlank, List.all_eq_true, decide_eq_true_eq] at blank
  exact mark (blank cells line cell mem)

/-- The characters that are read are the cells that show one, each in the span of its style. -/
theorem mark_iff {pages : List Page}
    (strikable : ∀ page ∈ pages, page.All fun cell => Strikable cell.ch) {page line column : Nat}
    {mark : Mark} :
    (elementAt ((livePages pages).map readLinesOf) page line column = some mark ∧ mark.ch ≠ ' ') ↔
      ∃ cell, elementAt (pages.map Sheet.lines) page line column = some cell ∧ cell.ch ≠ ' ' ∧
        mark = ⟨cell.ch, spanStyle cell⟩ := by
  simp only [elementAt_eq_some]
  constructor
  · rintro ⟨⟨lines, at_page, marks, at_line, at_column⟩, shows⟩
    rw [List.getElem?_map] at at_page
    obtain ⟨sheet, live, rfl⟩ := Option.map_eq_some_iff.mp at_page
    rw [readLinesOf, List.getElem?_map] at at_line
    obtain ⟨row, at_row, rfl⟩ := Option.map_eq_some_iff.mp at_line
    obtain ⟨cell, at_cell, same, span⟩ :=
      marks_cell (row_marks (List.mem_of_getElem? at_row)) at_column
    have visible : cell.ch ≠ ' ' := same ▸ shows
    obtain ⟨cells, at_cells, rfl⟩ := styledRows_line at_row
    have struck := (getElem?_rdropWhile (by simpa using visible) cells column).mp at_cell
    have printed := isBlank_of_mem (List.mem_of_getElem? at_cells)
      (List.mem_of_getElem? struck) visible
    refine ⟨cell, ⟨sheet.lines, ?_, cells, at_cells, struck⟩, visible, ?_⟩
    · rw [List.getElem?_map, (livePages_getElem? printed pages page).mp live]
      rfl
    · rw [← same, ← span visible]
  · rintro ⟨cell, ⟨lines, at_page, cells, at_line, at_column⟩, visible, rfl⟩
    rw [List.getElem?_map] at at_page
    obtain ⟨sheet, done, rfl⟩ := Option.map_eq_some_iff.mp at_page
    have printed := isBlank_of_mem (List.mem_of_getElem? at_line)
      (List.mem_of_getElem? at_column) visible
    have at_row := styledRows_getElem? (strikable sheet (List.mem_of_getElem? done)) at_line
      ⟨cell, List.mem_of_getElem? at_column, visible⟩
    have at_cell := (getElem?_rdropWhile (p := fun cell : Cell => cell.ch = ' ')
      (by simpa using visible) cells column).mpr at_column
    have at_mark := cell_marks (row_marks (List.mem_of_getElem? at_row)) at_cell visible
    refine ⟨⟨readLinesOf sheet, ?_, _, ?_, at_mark⟩, visible⟩
    · rw [List.getElem?_map, (livePages_getElem? printed pages page).mpr done]
      rfl
    · rw [readLinesOf, List.getElem?_map, at_row]
      rfl

/-! ## What was struck -/

/-- Nothing but spaces was struck on a column. -/
def Unstruck (strikes : List Char) : Prop := marks strikes = []

/-- How what was struck on a column is to be emphasised: bold when the character that shows was
struck twice, underlined when a letter and an underscore were struck. -/
def emphasisOf (strikes : List Char) : Bool × Bool :=
  (2 ≤ strikes.count ((letters strikes).getLast?.getD '_'), letters strikes ≠ [] ∧ '_' ∈ strikes)

/-- The document of a job. -/
def documentOf (autoLf : Bool) (bytes : List UInt8) : Text :=
  odtContent (livePages (pagesOf autoLf bytes))

/-- The document of a job says what its pages say. -/
structure SaysThePages (autoLf : Bool) (bytes : List UInt8) : Prop where
  /-- It has the pages, lines and characters of the plain text. -/
  characters : (readOdt (documentOf autoLf bytes)).map (List.map (List.map Mark.ch)) =
    readPlain (plainText (pagesOf autoLf bytes))
  /-- A character is bold when its column was struck twice with it, and underlined when its column
  was struck with it and with an underscore. -/
  emphasis : ∀ page line column mark,
    elementAt (readOdt (documentOf autoLf bytes)) page line column = some mark → mark.ch ≠ ' ' →
      ∃ strikes, elementAt ((strikesOf autoLf bytes).map Sheet.lines) page line column =
        some strikes ∧
        (mark.Bold ↔ 2 ≤ strikes.count mark.ch) ∧
        (mark.Underlined ↔ mark.ch ≠ '_' ∧ mark.ch ∈ strikes ∧ '_' ∈ strikes)
  /-- No space lies in a span. -/
  gaps : ∀ page line column mark,
    elementAt (readOdt (documentOf autoLf bytes)) page line column = some mark → mark.ch = ' ' →
      mark.span = none

/-- A document is read as its live pages. -/
theorem readOdt_documentOf (autoLf : Bool) (bytes : List UInt8) :
    readOdt (documentOf autoLf bytes) = (livePages (pagesOf autoLf bytes)).map readLinesOf := by
  have some : pagesOf autoLf bytes ≠ [] := by simp [pagesOf, SpoolJob.pages]
  apply readOdt_odtContent (livePages_ne_nil some)
  intro page mem
  exact readLinesOf_ne (pagesOf_strikable autoLf bytes page ((livePages_leading _).subset mem))

/-- A document has the characters of the plain text. -/
theorem documentOf_characters (autoLf : Bool) (bytes : List UInt8) :
    (readOdt (documentOf autoLf bytes)).map (List.map (List.map Mark.ch)) =
      readPlain (plainText (pagesOf autoLf bytes)) := by
  have some : pagesOf autoLf bytes ≠ [] := by simp [pagesOf, SpoolJob.pages]
  rw [readPlain_plainText some (pagesOf_strikable autoLf bytes), readOdt_documentOf, List.map_map]
  apply List.map_congr_left
  intro page mem
  rw [rows_eq (pagesOf_strikable autoLf bytes page ((livePages_leading _).subset mem)),
    Function.comp_apply, readLinesOf, List.map_map]
  apply List.map_congr_left
  intro row within
  exact marks_characters (row_marks within)

/-- The cell at a column is what was struck there makes of it. -/
theorem pagesOf_elementAt (autoLf : Bool) (bytes : List UInt8) (page line column : Nat) :
    elementAt ((pagesOf autoLf bytes).map Sheet.lines) page line column =
      (elementAt ((strikesOf autoLf bytes).map Sheet.lines) page line column).map Cell.struck := by
  rw [pagesOf_eq, List.map_map]
  simp only [elementAt, List.getElem?_map]
  cases (strikesOf autoLf bytes)[page]? with
  | none => rfl
  | some sheet =>
    simp only [Option.map_some, Function.comp_apply, Sheet.map, Option.bind_some, List.getElem?_map]
    cases sheet.lines[line]? with
    | none => rfl
    | some cells => simp

/-- The character at a column is the one that was struck there, in the span of its style. -/
theorem documentOf_mark_iff (autoLf : Bool) (bytes : List UInt8) {page line column : Nat}
    {mark : Mark} :
    (elementAt (readOdt (documentOf autoLf bytes)) page line column = some mark ∧ mark.ch ≠ ' ') ↔
      ∃ strikes, elementAt ((strikesOf autoLf bytes).map Sheet.lines) page line column =
        some strikes ∧ (Cell.struck strikes).ch ≠ ' ' ∧
        mark = ⟨(Cell.struck strikes).ch, spanStyle (Cell.struck strikes)⟩ := by
  rw [readOdt_documentOf, mark_iff (pagesOf_strikable autoLf bytes)]
  simp only [pagesOf_elementAt, Option.map_eq_some_iff]
  constructor
  · rintro ⟨cell, ⟨strikes, found, rfl⟩, rest⟩
    exact ⟨strikes, found, rest⟩
  · rintro ⟨strikes, found, rest⟩
    exact ⟨_, ⟨strikes, found, rfl⟩, rest⟩

/-- The span of a cell is of a bold style when the cell is bold. -/
theorem bold_span (cell : Cell) : Mark.Bold ⟨cell.ch, spanStyle cell⟩ ↔ cell.bold = true := by
  obtain ⟨_, bold, underline⟩ := cell
  cases bold <;> cases underline <;> simp [Mark.Bold, spanStyle, odtBold, odtUnder, odtBoldUnder]

/-- The span of a cell is of an underlined style when the cell is underlined. -/
theorem underlined_span (cell : Cell) :
    Mark.Underlined ⟨cell.ch, spanStyle cell⟩ ↔ cell.underline = true := by
  obtain ⟨_, bold, underline⟩ := cell
  cases bold <;> cases underline <;>
    simp [Mark.Underlined, spanStyle, odtBold, odtUnder, odtBoldUnder]

/-- A column shows nothing when nothing but spaces was struck on it. -/
theorem unstruck_iff (strikes : List Char) : (Cell.struck strikes).ch = ' ' ↔ Unstruck strikes := by
  constructor
  · intro blank
    by_contra struck
    have shows := shows_struck strikes
    cases last : (letters strikes).getLast? with
    | none =>
      have none : letters strikes = [] := List.getLast?_eq_none_iff.mp last
      obtain ⟨c, mem⟩ := List.exists_mem_of_ne_nil _ struck
      have under := letters_eq_nil_iff.mp none c mem
      have among := (List.mem_filter.mp mem).1
      rw [(shows.underscore none (under ▸ among)).1] at blank
      exact absurd blank (by decide)
    | some c => exact (letters_last last).1 ((shows.letter c last).1 ▸ blank)
  · intro nothing
    by_contra some
    have mem : (Cell.struck strikes).ch ∈ marks strikes := by
      obtain last | ⟨_, struck, ch⟩ := struck_cases some
      · have among := (List.mem_filter.mp (List.mem_of_getLast? last)).1
        exact List.mem_filter.mpr ⟨among, by simpa using some⟩
      · exact List.mem_filter.mpr ⟨ch ▸ struck, by simpa using some⟩
    rw [show marks strikes = [] from nothing] at mem
    cases mem

/-- A column on which nothing shows is steady. -/
theorem steady_of_blank {strikes : List Char} (blank : (Cell.struck strikes).ch = ' ') :
    Steady strikes := by
  intro last ends
  exact absurd (((shows_struck strikes).letter last ends).1 ▸ blank) (letters_last ends).1

/-- A steady column is emphasised as it is to be. -/
theorem emphasis_eq {strikes : List Char} (some : (Cell.struck strikes).ch ≠ ' ')
    (steady : Steady strikes) : (Cell.struck strikes).emphasis = emphasisOf strikes := by
  have bold := (bold_iff_steady some).mpr steady
  have underline := underline_iff some
  have shown : (letters strikes).getLast?.getD '_' = (Cell.struck strikes).ch := by
    obtain last | ⟨none, _, ch⟩ := struck_cases some
    · rw [last]
      rfl
    · rw [none, ch]
      rfl
  have letter : ((Cell.struck strikes).ch ≠ '_' ∧ (Cell.struck strikes).ch ∈ strikes) ↔
      letters strikes ≠ [] := by
    obtain last | ⟨none, _, ch⟩ := struck_cases some
    · have mem := List.mem_of_getLast? last
      have among := (List.mem_filter.mp mem).1
      exact ⟨fun _ => List.ne_nil_of_mem mem, fun _ => ⟨(letters_last last).2, among⟩⟩
    · simp [none, ch]
  rw [← and_assoc, letter] at underline
  rw [emphasisOf, shown]
  refine Prod.ext (Bool.eq_iff_iff.mpr ?_) (Bool.eq_iff_iff.mpr ?_)
  · rw [decide_eq_true_iff]
    exact bold
  · rw [decide_eq_true_iff]
    exact underline

/-- No space lies in a span exactly when no line has a gap between two cells that are emphasised
alike. -/
theorem documentOf_gaps_iff (autoLf : Bool) (bytes : List UInt8) :
    (∀ page line column mark,
      elementAt (readOdt (documentOf autoLf bytes)) page line column = some mark → mark.ch = ' ' →
        mark.span = none) ↔
      ∀ page ∈ pagesOf autoLf bytes, ∀ cells ∈ page.lines, ¬ GappedRow cells := by
  have spaced : ∀ row, Spaced (emphasised none 0 row) ↔ GappedRow row := by
    intro row
    rw [spaced_iff]
    simp [Reaches]
  have trimmed : ∀ cells : List Cell,
      GappedRow (cells.rdropWhile fun cell => cell.ch = ' ') ↔ GappedRow cells :=
    gapped_rdropWhile (fun cell space => by simpa using space)
  rw [readOdt_documentOf]
  constructor
  · intro unspanned page mem cells within gapped
    obtain ⟨mark, found, space, span⟩ := (spaced _).mpr ((trimmed cells).mpr gapped)
    obtain ⟨left, gap, right, inside, _, _, visible, _⟩ := gapped
    have among : left ∈ cells := inside.subset (by simp)
    obtain ⟨number, at_page⟩ := List.getElem?_of_mem mem
    obtain ⟨line, at_line⟩ := List.getElem?_of_mem within
    have at_row := styledRows_getElem? (pagesOf_strikable autoLf bytes page mem) at_line
      ⟨left, among, visible⟩
    have live := (livePages_getElem? (isBlank_of_mem within among visible)
      (pagesOf autoLf bytes) number).mpr at_page
    obtain ⟨column, at_column⟩ := List.getElem?_of_mem found
    refine span (unspanned number line column mark (elementAt_eq_some.mpr ?_) space)
    refine ⟨readLinesOf page, ?_, _, ?_, at_column⟩
    · rw [List.getElem?_map, live]
      rfl
    · rw [readLinesOf, List.getElem?_map, at_row]
      rfl
  · intro apart number line column mark found space
    by_contra span
    obtain ⟨lines, at_page, marks, at_line, at_column⟩ := elementAt_eq_some.mp found
    rw [List.getElem?_map] at at_page
    obtain ⟨page, live, rfl⟩ := Option.map_eq_some_iff.mp at_page
    rw [readLinesOf, List.getElem?_map] at at_line
    obtain ⟨row, at_row, rfl⟩ := Option.map_eq_some_iff.mp at_line
    obtain ⟨cells, at_cells, rfl⟩ := styledRows_line at_row
    have gapped := (spaced _).mp ⟨mark, List.mem_of_getElem? at_column, space, span⟩
    have mem := (livePages_leading _).subset (List.mem_of_getElem? live)
    exact apart page mem cells (List.mem_of_getElem? at_cells) ((trimmed cells).mp gapped)

/-- A character is emphasised as it is to be exactly when every column is steady. -/
theorem documentOf_emphasis_iff (autoLf : Bool) (bytes : List UInt8) :
    (∀ page line column mark,
      elementAt (readOdt (documentOf autoLf bytes)) page line column = some mark → mark.ch ≠ ' ' →
        ∃ strikes, elementAt ((strikesOf autoLf bytes).map Sheet.lines) page line column =
          some strikes ∧
          (mark.Bold ↔ 2 ≤ strikes.count mark.ch) ∧
          (mark.Underlined ↔ mark.ch ≠ '_' ∧ mark.ch ∈ strikes ∧ '_' ∈ strikes)) ↔
      ∀ page ∈ strikesOf autoLf bytes, ∀ line ∈ page.lines, ∀ strikes ∈ line, Steady strikes := by
  constructor
  · intro said page mem line within strikes struck
    by_cases visible : (Cell.struck strikes).ch = ' '
    · exact steady_of_blank visible
    · obtain ⟨number, at_page⟩ := List.getElem?_of_mem mem
      obtain ⟨row, at_line⟩ := List.getElem?_of_mem within
      obtain ⟨column, at_column⟩ := List.getElem?_of_mem struck
      have here : elementAt ((strikesOf autoLf bytes).map Sheet.lines) number row column =
          some strikes := by
        refine elementAt_eq_some.mpr ⟨page.lines, ?_, line, at_line, at_column⟩
        rw [List.getElem?_map, at_page]
        rfl
      have shown := (documentOf_mark_iff autoLf bytes).mpr ⟨strikes, here, visible, rfl⟩
      obtain ⟨same, found, bold, _⟩ := said number row column _ shown.1 shown.2
      cases here.symm.trans found
      rw [bold_span] at bold
      exact (bold_iff_steady visible).mp bold
  · intro steady number row column mark found visible
    obtain ⟨strikes, here, shows, rfl⟩ := (documentOf_mark_iff autoLf bytes).mp ⟨found, visible⟩
    obtain ⟨lines, at_page, line, at_line, at_column⟩ := elementAt_eq_some.mp here
    rw [List.getElem?_map] at at_page
    obtain ⟨page, listed, rfl⟩ := Option.map_eq_some_iff.mp at_page
    have kept := steady page (List.mem_of_getElem? listed) line (List.mem_of_getElem? at_line)
      strikes (List.mem_of_getElem? at_column)
    refine ⟨strikes, here, ?_, ?_⟩
    · rw [bold_span]
      exact (bold_iff_steady shows).mpr kept
    · rw [underlined_span]
      exact underline_iff shows

/-- A document says what its pages say exactly when on every line the last letter of a column is the
one that was struck twice in a row, if any was, and no two columns are emphasised alike with nothing
but unstruck columns between them. -/
theorem document_says_pages_iff (autoLf : Bool) (bytes : List UInt8) :
    SaysThePages autoLf bytes ↔
      ∀ page ∈ strikesOf autoLf bytes, ∀ line ∈ page.lines,
        (∀ strikes ∈ line, Steady strikes) ∧ ¬ Gapped Unstruck emphasisOf line := by
  have gapped : ∀ line : List (List Char), (∀ strikes ∈ line, Steady strikes) →
      (GappedRow (line.map Cell.struck) ↔ Gapped Unstruck emphasisOf line) := by
    intro line steady
    rw [GappedRow, gapped_map]
    constructor
    · apply Gapped.congr
      · exact fun strikes _ => unstruck_iff strikes
      · exact fun strikes mem some => emphasis_eq some (steady strikes mem)
    · apply Gapped.congr
      · exact fun strikes _ => (unstruck_iff strikes).symm
      · intro strikes mem struck
        have some := (unstruck_iff strikes).not.mpr struck
        exact (emphasis_eq some (steady strikes mem)).symm
  have lines : (∀ page ∈ pagesOf autoLf bytes, ∀ cells ∈ page.lines, ¬ GappedRow cells) ↔
      ∀ page ∈ strikesOf autoLf bytes, ∀ line ∈ page.lines, ¬ GappedRow (line.map Cell.struck) := by
    rw [pagesOf_eq]
    simp [Sheet.map]
  constructor
  · intro said page mem line within
    have steady := (documentOf_emphasis_iff autoLf bytes).mp said.emphasis page mem line within
    have apart := lines.mp ((documentOf_gaps_iff autoLf bytes).mp said.gaps) page mem line within
    exact ⟨steady, (gapped line steady).not.mp apart⟩
  · intro condition
    refine ⟨documentOf_characters autoLf bytes, ?_, ?_⟩
    · exact (documentOf_emphasis_iff autoLf bytes).mpr
        fun page mem line within => (condition page mem line within).1
    · refine (documentOf_gaps_iff autoLf bytes).mpr (lines.mpr ?_)
      intro page mem line within
      obtain ⟨steady, apart⟩ := condition page mem line within
      exact (gapped line steady).not.mpr apart

/-- Two bold words keep the space between them bold, and a letter over another that was struck twice
is bold although it was struck once. -/
theorem words_run_together :
    ¬ SaysThePages false [0x41, 0x20, 0x42, 0x0D, 0x41, 0x20, 0x42] ∧
      ¬ SaysThePages false [0x41, 0x08, 0x41, 0x08, 0x42] := by
  constructor
  · intro said
    have apart := said.gaps 0 0 1 ⟨' ', some odtBold⟩
    rw [readOdt_documentOf] at apart
    exact absurd (apart (by decide) rfl) (by decide)
  · intro said
    obtain ⟨strikes, struck, bold, _⟩ := said.emphasis 0 0 0 ⟨'B', some odtBold⟩
      (by rw [readOdt_documentOf]; decide) (by decide)
    have strikes_eq : elementAt ((strikesOf false [0x41, 0x08, 0x41, 0x08, 0x42]).map Sheet.lines)
        0 0 0 = some ['A', 'A', 'B'] := by decide
    cases struck.symm.trans strikes_eq
    exact absurd (bold.mp (.inl rfl)) (by decide)

end EthernetGateway.Printer
