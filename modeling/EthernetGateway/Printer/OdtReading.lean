import EthernetGateway.Printer.Odt

/-!
# Reading a document back

A reader takes the document apart into the pieces it was written in, gathers the characters of each
paragraph with the span they lie in, and starts a page at a paragraph of the style that breaks one.
-/

namespace EthernetGateway.Printer

/-! ## Pieces -/

/-- A text up to a character, and what follows it. -/
def upTo (delimiter : Char) : Text → Option (Text × Text)
  | [] => none
  | c :: text =>
    if c = delimiter then some ([], text)
    else (upTo delimiter text).map fun parts => (c :: parts.1, parts.2)

/-- The character an entity stands for. -/
def readEntity (name : Text) : Option Char :=
  if name = "amp".toList then some '&'
  else if name = "lt".toList then some '<'
  else if name = "gt".toList then some '>'
  else if name = "quot".toList then some '"'
  else if name = "apos".toList then some '\''
  else none

/-- The piece of a tag with one attribute: what is before its value, the value, and what is after
it. -/
def readAttribute (before value after : Text) : Option Piece :=
  if before = "text:p text:style-name=".toList then
    if after = [] then some (.openParagraph value)
    else if after = ['/'] then some (.emptyParagraph value)
    else none
  else if before = "text:span text:style-name=".toList ∧ after = [] then some (.openSpan value)
  else if before = "text:s text:c=".toList ∧ after = ['/'] then some (.spaces (Text.digits value))
  else none

/-- The piece of a tag. -/
def readTag (tag : Text) : Option Piece :=
  if tag = "/text:p".toList then some .closeParagraph
  else if tag = "/text:span".toList then some .closeSpan
  else
    match upTo '"' tag with
    | none => none
    | some (before, rest) =>
      match upTo '"' rest with
      | none => none
      | some (value, after) => readAttribute before value after

/-- The first piece of a text, and what follows it. -/
def readPiece : Text → Option (Piece × Text)
  | [] => none
  | c :: text =>
    if c = '<' then
      match upTo '>' text with
      | none => none
      | some (tag, rest) => (readTag tag).map fun piece => (piece, rest)
    else if c = '&' then
      match upTo ';' text with
      | none => none
      | some (name, rest) => (readEntity name).map fun c => (.char c, rest)
    else some (.char c, text)

/-- A number of pieces, up to something that is none. -/
def readPieces : Nat → Text → List Piece
  | 0, _ => []
  | fuel + 1, text =>
    match readPiece text with
    | none => []
    | some (piece, rest) => piece :: readPieces fuel rest

/-- The value of an attribute ends neither itself nor its tag. -/
def Plain (value : Text) : Prop := '"' ∉ value ∧ '>' ∉ value

/-- A piece whose attribute can be read. -/
def Piece.Lexical : Piece → Prop
  | emptyParagraph style => Plain style
  | openParagraph style => Plain style
  | openSpan name => Plain name
  | _ => True

/-- A part that does not contain a character is what comes up to it. -/
theorem upTo_free {delimiter : Char} {part : Text} (free : delimiter ∉ part) (rest : Text) :
    upTo delimiter (part ++ delimiter :: rest) = some (part, rest) := by
  induction part with
  | nil => simp [upTo]
  | cons c part ih =>
    have other : c ≠ delimiter := fun same => free (same ▸ List.mem_cons_self)
    simp [upTo, other, ih fun mem => free (List.mem_cons_of_mem _ mem)]

/-- A number is written in digits. -/
theorem ofNat_plain (n : Nat) : Plain (Text.ofNat n) := by
  have digit : ∀ c ∈ Text.ofNat n, c.isDigit := fun c mem =>
    Nat.isDigit_of_mem_toDigits (by omega) (by omega) mem
  exact ⟨fun mem => absurd (digit _ mem) (by decide), fun mem => absurd (digit _ mem) (by decide)⟩

/-- A tag with an attribute is read by its attribute. -/
theorem readTag_attribute {before value : Text} (after : Text) (quote : '"' ∉ before)
    (plain : Plain value) :
    readTag (before ++ '"' :: (value ++ '"' :: after)) = readAttribute before value after := by
  have quoted : '"' ∈ before ++ '"' :: (value ++ '"' :: after) := by simp
  have not_close : ∀ name : Text, '"' ∉ name → before ++ '"' :: (value ++ '"' :: after) ≠ name :=
    fun name free same => free (same ▸ quoted)
  rw [readTag, if_neg (not_close _ (by decide)), if_neg (not_close _ (by decide)),
    upTo_free quote]
  simp only [upTo_free plain.1]

/-- A tag is read up to its end. -/
theorem readPiece_tag {tag : Text} (free : '>' ∉ tag) (rest : Text) :
    readPiece ('<' :: (tag ++ '>' :: rest)) = (readTag tag).map fun piece => (piece, rest) := by
  simp [readPiece, upTo_free free]

/-- A tag with an attribute is read in front of any text. -/
theorem readPiece_attribute {before value after : Text} {piece : Piece} (rest : Text)
    (named : readAttribute before value after = some piece) (plain : Plain value)
    (quote : '"' ∉ before) (close : '>' ∉ before ++ '"' :: '"' :: after) :
    readPiece ('<' :: (before ++ '"' :: (value ++ '"' :: after) ++ '>' :: rest)) =
      some (piece, rest) := by
  have free : '>' ∉ before ++ '"' :: (value ++ '"' :: after) := by
    have value_free := plain.2
    simp only [List.mem_append, List.mem_cons, not_or] at close ⊢
    tauto
  rw [readPiece_tag free, readTag_attribute after quote plain, named]
  rfl

/-- A character is read in front of any text. -/
theorem readPiece_char (c : Char) (rest : Text) :
    readPiece (pushEscaped c ++ rest) = some (.char c, rest) := by
  rw [pushEscaped]
  split_ifs with amp lt gt quot apos
  · exact amp ▸ rfl
  · exact lt ▸ rfl
  · exact gt ▸ rfl
  · exact quot ▸ rfl
  · exact apos ▸ rfl
  · simp [readPiece, lt, amp]

/-- A tag that names a paragraph or a span is read as its piece. -/
theorem readAttribute_named (value : Text) :
    readAttribute "text:p text:style-name=".toList value [] = some (.openParagraph value) ∧
      readAttribute "text:p text:style-name=".toList value ['/'] = some (.emptyParagraph value) ∧
      readAttribute "text:span text:style-name=".toList value [] = some (.openSpan value) ∧
      readAttribute "text:s text:c=".toList value ['/'] = some (.spaces (Text.digits value)) := by
  simp [readAttribute]

/-- A piece is read in front of any text. -/
theorem readPiece_text {piece : Piece} (lexical : piece.Lexical) (rest : Text) :
    readPiece (piece.text ++ rest) = some (piece, rest) := by
  cases piece with
  | emptyParagraph style =>
    rw [← readPiece_attribute rest (readAttribute_named style).2.1 lexical (by decide) (by decide)]
    simp
  | openParagraph style =>
    rw [← readPiece_attribute rest (readAttribute_named style).1 lexical (by decide) (by decide)]
    simp
  | closeParagraph =>
    simp [readPiece, upTo, readTag]
  | openSpan name =>
    rw [← readPiece_attribute rest (readAttribute_named name).2.2.1 lexical (by decide) (by decide)]
    simp
  | closeSpan =>
    simp [readPiece, upTo, readTag]
  | spaces count =>
    have named := (readAttribute_named (Text.ofNat count)).2.2.2
    rw [Text.digits_ofNat] at named
    rw [← readPiece_attribute rest named (ofNat_plain count) (by decide) (by decide)]
    simp
  | char c => exact readPiece_char c rest

/-- A piece has a text. -/
theorem text_ne_nil (piece : Piece) : piece.text ≠ [] := by
  cases piece with
  | char c =>
    simp only [Piece.text_char, pushEscaped]
    split_ifs <;> simp
  | _ => simp

/-- Pieces are read back from their text. -/
theorem readPieces_text {pieces : List Piece} (lexical : ∀ piece ∈ pieces, piece.Lexical)
    {rest : Text} (ends : readPiece rest = none) {fuel : Nat} (enough : pieces.length ≤ fuel) :
    readPieces fuel (pieces.flatMap Piece.text ++ rest) = pieces := by
  induction pieces generalizing fuel with
  | nil =>
    cases fuel with
    | zero => rfl
    | succ fuel => simp [readPieces, ends]
  | cons piece pieces ih =>
    obtain ⟨fuel, rfl⟩ : ∃ less, fuel = less + 1 := ⟨fuel - 1, by simp at enough; omega⟩
    have tail := ih (fun other mem => lexical other (List.mem_cons_of_mem _ mem))
      (show pieces.length ≤ fuel by simpa using enough)
    have read := readPiece_text (lexical piece List.mem_cons_self)
      (pieces.flatMap Piece.text ++ rest)
    rw [List.flatMap_cons, List.append_assoc, readPieces, read]
    simp [tail]

/-- There are at least as many characters as pieces. -/
theorem length_le_text (pieces : List Piece) : pieces.length ≤ (pieces.flatMap Piece.text).length := by
  induction pieces with
  | nil => simp
  | cons piece pieces ih =>
    have := List.length_pos_iff.mpr (text_ne_nil piece)
    simp only [List.flatMap_cons, List.length_append, List.length_cons]
    omega

/-! ## Paragraphs and pages -/

/-- A character of a paragraph, and the span it lies in. -/
structure Mark where
  /-- The character. -/
  ch : Char
  /-- The style of the span. -/
  span : Option Text
  deriving DecidableEq

namespace Mark

/-- The span is of a bold style. -/
def Bold (mark : Mark) : Prop := mark.span = some odtBold ∨ mark.span = some odtBoldUnder

/-- The span is of an underlined style. -/
def Underlined (mark : Mark) : Prop := mark.span = some odtUnder ∨ mark.span = some odtBoldUnder

end Mark

/-- A paragraph that was read. -/
structure Paragraph where
  /-- Its style. -/
  style : Text
  /-- Its characters. -/
  marks : List Mark

/-- What was read of a document. -/
structure Reading where
  /-- The paragraphs that ended. -/
  paragraphs : List Paragraph
  /-- The paragraph that did not. -/
  current : Option Paragraph
  /-- The span that did not end. -/
  span : Option Text

namespace Reading

/-- Add characters to the paragraph that did not end. -/
def add (reading : Reading) (marks : List Mark) : Reading :=
  { reading with
    current := reading.current.map fun paragraph =>
      { paragraph with marks := paragraph.marks ++ marks } }

/-- Read a piece. -/
def piece (reading : Reading) : Piece → Reading
  | .emptyParagraph style => { reading with paragraphs := reading.paragraphs ++ [⟨style, []⟩] }
  | .openParagraph style => { reading with current := some ⟨style, []⟩ }
  | .closeParagraph =>
    { reading with
      paragraphs := reading.paragraphs ++ reading.current.toList
      current := none }
  | .openSpan name => { reading with span := some name }
  | .closeSpan => { reading with span := none }
  | .spaces count => reading.add (List.replicate count ⟨' ', reading.span⟩)
  | .char c => reading.add [⟨c, reading.span⟩]

/-- Read pieces. -/
def pieces (reading : Reading) (list : List Piece) : Reading := list.foldl piece reading

/-- Reading pieces after others. -/
theorem pieces_append (reading : Reading) (first second : List Piece) :
    reading.pieces (first ++ second) = (reading.pieces first).pieces second :=
  List.foldl_append

end Reading

/-- Lines at the start of the first page. -/
def onFirst (lines : List (List Mark)) : List (List (List Mark)) → List (List (List Mark))
  | [] => [lines]
  | page :: pages => (lines ++ page) :: pages

/-- The pages of paragraphs: one of the style that breaks a page starts one. -/
def paginate : List Paragraph → List (List (List Mark))
  | [] => [[]]
  | paragraph :: paragraphs =>
    let pages := onFirst [paragraph.marks] (paginate paragraphs)
    if paragraph.style = odtBreak then [] :: pages else pages

/-- A page that is one empty paragraph is a sheet on which nothing was printed. -/
def sheetLines (page : List (List Mark)) : List (List Mark) := if page = [[]] then [] else page

/-- The pages of a document, and the characters of their lines. -/
def readOdt (document : Text) : List (List (List Mark)) :=
  let body := document.drop odtHeader.length
  (paginate (Reading.pieces ⟨[], none, none⟩ (readPieces body.length body)).paragraphs).map sheetLines

/-! ## What the writer writes -/

/-- The characters of a row, after a number of spaces and with a span open: a character lies in a
span of its own style, and a space in the open span when the next character goes on in it. -/
def emphasised (opened : Option Text) (spaces : Nat) : List Cell → List Mark
  | [] => []
  | cell :: row =>
    if cell.ch = ' ' then emphasised opened (spaces + 1) row
    else
      List.replicate spaces ⟨' ', if spanStyle cell = opened then opened else none⟩ ++
        ⟨cell.ch, spanStyle cell⟩ :: emphasised (spanStyle cell) 0 row

/-- A reading in the middle of a paragraph. -/
def midway (paragraphs : List Paragraph) (style : Text) (marks : List Mark) (span : Option Text) :
    Reading :=
  ⟨paragraphs, some ⟨style, marks⟩, span⟩

/-- What was written of a row is read as some characters. -/
def Writing.ReadAs (writing : Writing) (before : Reading) (paragraphs : List Paragraph)
    (style : Text) (marks : List Mark) : Prop :=
  before.pieces writing.body = midway paragraphs style marks writing.opened

section Written

variable {writing : Writing} {before : Reading} {paragraphs : List Paragraph} {style : Text}
  {marks : List Mark}

/-- Pieces written after others are read after them. -/
theorem Writing.ReadAs.pieces (read : writing.ReadAs before paragraphs style marks)
    (list : List Piece) :
    before.pieces (writing.body ++ list) = (midway paragraphs style marks writing.opened).pieces list := by
  rw [Reading.pieces_append, show before.pieces writing.body = _ from read]

/-- The span that is open when a span was ended before a character. -/
theorem endSpan_opened (writing : Writing) (want : Option Text) :
    (writing.endSpan want).opened = if want = writing.opened then writing.opened else none := by
  simp only [Writing.endSpan]
  cases opened : writing.opened with
  | none => simp [opened]
  | some name => by_cases same : want = some name <;> simp [opened, same]

/-- Ending a span leaves the spaces that are not written. -/
theorem endSpan_spaces (writing : Writing) (want : Option Text) :
    (writing.endSpan want).spaces = writing.spaces := by
  simp only [Writing.endSpan]
  split_ifs <;> rfl

/-- Writing the spaces leaves the span open. -/
theorem flushSpaces_opened (writing : Writing) : writing.flushSpaces.opened = writing.opened := by
  simp only [Writing.flushSpaces]
  split_ifs <;> rfl

/-- No spaces are left when they are written. -/
theorem flushSpaces_spaces (writing : Writing) : writing.flushSpaces.spaces = 0 := by
  simp only [Writing.flushSpaces]
  split_ifs with some one
  · rfl
  · rfl
  · omega

/-- The span of a character is open when it was started. -/
theorem startSpan_opened (writing : Writing) (want : Option Text) :
    (writing.startSpan want).opened = want := by
  simp only [Writing.startSpan]
  split_ifs with other
  · rfl
  · exact (not_not.mp other).symm

/-- Starting a span leaves the spaces that are not written. -/
theorem startSpan_spaces (writing : Writing) (want : Option Text) :
    (writing.startSpan want).spaces = writing.spaces := by
  simp only [Writing.startSpan]
  split_ifs <;> rfl

/-- Ending a span before a character. -/
theorem Writing.ReadAs.endSpan (read : writing.ReadAs before paragraphs style marks)
    (want : Option Text) : (writing.endSpan want).ReadAs before paragraphs style marks := by
  simp only [Writing.endSpan]
  split_ifs with other
  · exact read.pieces [.closeSpan]
  · exact read

/-- Writing the spaces before a character. -/
theorem Writing.ReadAs.flushSpaces (read : writing.ReadAs before paragraphs style marks) :
    writing.flushSpaces.ReadAs before paragraphs style
      (marks ++ List.replicate writing.spaces ⟨' ', writing.opened⟩) := by
  simp only [Writing.flushSpaces]
  split_ifs with some one
  · rw [one.1]
    exact read.pieces [.char ' ']
  · exact read.pieces [.spaces writing.spaces]
  · have none : writing.spaces = 0 := by omega
    simpa [none] using read

/-- Starting the span of a character where none is open or its own is. -/
theorem Writing.ReadAs.startSpan (read : writing.ReadAs before paragraphs style marks)
    {want : Option Text} (ended : writing.opened = want ∨ writing.opened = none) :
    (writing.startSpan want).ReadAs before paragraphs style marks := by
  simp only [Writing.startSpan]
  split_ifs with other
  · cases want with
    | none =>
      obtain same | same := ended
      · exact absurd same.symm other
      · exact absurd same.symm other
    | some name => exact read.pieces [.openSpan name]
  · exact read

/-- Writing a character. -/
theorem Writing.ReadAs.character (read : writing.ReadAs before paragraphs style marks) (c : Char) :
    (writing.character c).ReadAs before paragraphs style (marks ++ [⟨c, writing.opened⟩]) :=
  read.pieces [.char c]

/-- Writing the cells of a row. -/
theorem Writing.ReadAs.row (read : writing.ReadAs before paragraphs style marks) (row : List Cell) :
    (row.foldl Writing.cell writing).ReadAs before paragraphs style
      (marks ++ emphasised writing.opened writing.spaces row) := by
  induction row generalizing writing marks with
  | nil => simpa [emphasised] using read
  | cons cell row ih =>
    rw [List.foldl_cons]
    by_cases space : cell.ch = ' '
    · have next : writing.cell cell = { writing with spaces := writing.spaces + 1 } := by
        simp [Writing.cell, space]
      have same : (writing.cell cell).ReadAs before paragraphs style marks := by
        rw [next]
        exact read
      have rest := ih same
      rw [next] at rest ⊢
      rw [emphasised, if_pos space]
      exact rest
    · have next : writing.cell cell = (((writing.endSpan (spanStyle cell)).flushSpaces).startSpan
          (spanStyle cell)).character cell.ch := by
        simp [Writing.cell, space]
      have flushed := (read.endSpan (spanStyle cell)).flushSpaces
      have ended : ((writing.endSpan (spanStyle cell)).flushSpaces).opened = spanStyle cell ∨
          ((writing.endSpan (spanStyle cell)).flushSpaces).opened = none := by
        rw [flushSpaces_opened, endSpan_opened]
        split_ifs with same
        · exact .inl same.symm
        · exact .inr rfl
      have written := (flushed.startSpan ended).character cell.ch
      rw [startSpan_opened, endSpan_opened, endSpan_spaces] at written
      have spaces : (writing.cell cell).spaces = 0 := by
        rw [next]
        exact (startSpan_spaces _ _).trans (flushSpaces_spaces _)
      have styled : (writing.cell cell).opened = spanStyle cell := by
        rw [next]
        exact startSpan_opened _ _
      rw [← next] at written
      have rest := ih written
      rw [spaces, styled] at rest
      rw [emphasised, if_neg space]
      simpa using rest

end Written

/-- A paragraph is read as the characters of its row. -/
theorem pieces_paragraph (paragraphs : List Paragraph) (style : Text) (row : List Cell) :
    Reading.pieces ⟨paragraphs, none, none⟩ (odtParagraphCells style row) =
      ⟨paragraphs ++ [⟨style, emphasised none 0 row⟩], none, none⟩ := by
  rw [odtParagraphCells]
  split_ifs with none
  · rw [none]
    rfl
  · have read : Writing.start.ReadAs (midway paragraphs style [] Option.none) paragraphs style [] :=
      rfl
    have written := read.row row
    have whole : Reading.pieces ⟨paragraphs, Option.none, Option.none⟩ (.openParagraph style ::
        (row.foldl Writing.cell .start).finish ++ [.closeParagraph]) =
        ((midway paragraphs style [] Option.none).pieces
          (row.foldl Writing.cell .start).finish).pieces [.closeParagraph] := by
      rw [← Reading.pieces_append]
      rfl
    rw [whole, Writing.finish, written.pieces]
    cases opened : (row.foldl Writing.cell .start).opened <;> rfl

/-- A function that does not look at the index. -/
theorem mapIdx_const {α β : Type} (f : α → β) (list : List α) :
    (list.mapIdx fun _ x => f x) = list.map f := by
  induction list with
  | nil => rfl
  | cons x list ih => rw [List.mapIdx_cons, List.map_cons, ih]

/-- The paragraphs of a page whose first one has a style. -/
def pageParagraphs (first : Text) (page : Page) : List Paragraph :=
  match page.styledRows with
  | [] => [⟨first, []⟩]
  | row :: rows =>
    ⟨first, emphasised none 0 row⟩ :: rows.map fun row => ⟨odtLine, emphasised none 0 row⟩

/-- Ordinary paragraphs are read as the characters of their rows. -/
theorem pieces_lines (paragraphs : List Paragraph) (rows : List (List Cell)) :
    Reading.pieces ⟨paragraphs, none, none⟩ (rows.flatMap (odtParagraphCells odtLine)) =
      ⟨paragraphs ++ rows.map fun row => ⟨odtLine, emphasised none 0 row⟩, none, none⟩ := by
  induction rows generalizing paragraphs with
  | nil => simp [Reading.pieces]
  | cons row rows ih =>
    rw [List.flatMap_cons, Reading.pieces_append, pieces_paragraph, ih]
    simp

/-- A page is read as its paragraphs. -/
theorem pieces_page (paragraphs : List Paragraph) (index : Nat) (page : Page) :
    Reading.pieces ⟨paragraphs, none, none⟩ (odtPage index page) =
      ⟨paragraphs ++ pageParagraphs (if index = 0 then odtLine else odtBreak) page, none, none⟩ := by
  simp only [odtPage, pageParagraphs]
  cases page.styledRows with
  | nil => exact pieces_paragraph _ _ []
  | cons row rows =>
    have first : (if 0 < index ∧ 0 = 0 then odtBreak else odtLine) =
        if index = 0 then odtLine else odtBreak := by
      by_cases zero : index = 0
      · simp [zero]
      · simp [zero, Nat.pos_of_ne_zero zero]
    have rest : (rows.mapIdx fun line row => odtParagraphCells
        (if 0 < index ∧ line + 1 = 0 then odtBreak else odtLine) row).flatten =
        rows.flatMap (odtParagraphCells odtLine) := by
      rw [List.flatMap_def, ← mapIdx_const]
      simp
    rw [if_neg (by simp), List.mapIdx_cons, List.flatten_cons, Reading.pieces_append, first,
      pieces_paragraph, rest, pieces_lines]
    simp

/-- The lines of a page, as they are read. -/
def readLinesOf (page : Page) : List (List Mark) := page.styledRows.map (emphasised none 0)

/-- Ordinary paragraphs go on with the first page. -/
theorem paginate_lines (rows : List (List Cell)) (rest : List Paragraph) :
    paginate ((rows.map fun row => ⟨odtLine, emphasised none 0 row⟩) ++ rest) =
      onFirst (rows.map (emphasised none 0)) (paginate rest) := by
  induction rows with
  | nil =>
    cases pages : paginate rest with
    | nil =>
      cases rest with
      | nil => simp [paginate] at pages
      | cons paragraph rest =>
        simp only [paginate] at pages
        split_ifs at pages
        cases inner : paginate rest <;> simp [inner, onFirst] at pages
    | cons page later => simp [onFirst, pages]
  | cons row rows ih =>
    rw [List.map_cons, List.cons_append, paginate, ih]
    have line : odtLine ≠ odtBreak := by decide
    simp only [line, if_false]
    cases paginate rest <;> simp [onFirst]

/-- The characters of a page as they are read, before a sheet without lines is recognised. -/
def paragraphLines (page : Page) : List (List Mark) :=
  if page.styledRows = [] then [[]] else readLinesOf page

/-- The first page goes on before the others. -/
theorem paginate_first (page : Page) (rest : List Paragraph) :
    paginate (pageParagraphs odtLine page ++ rest) =
      onFirst (paragraphLines page) (paginate rest) := by
  have line : odtLine ≠ odtBreak := by decide
  simp only [pageParagraphs, paragraphLines, readLinesOf]
  cases page.styledRows with
  | nil =>
    simp [paginate, line]
  | cons row rows =>
    have tail := paginate_lines (row :: rows) rest
    simpa using tail

/-- A later page comes after an empty start. -/
theorem paginate_later (page : Page) (rest : List Paragraph) :
    paginate (pageParagraphs odtBreak page ++ rest) =
      [] :: onFirst (paragraphLines page) (paginate rest) := by
  simp only [pageParagraphs, paragraphLines, readLinesOf]
  cases page.styledRows with
  | nil => simp [paginate]
  | cons row rows =>
    have tail := paginate_lines rows rest
    rw [List.cons_append, paginate, tail]
    cases paginate rest <;> simp [onFirst]

/-- The pages after the first. -/
theorem paginate_pages (pages : List Page) :
    paginate (pages.flatMap (pageParagraphs odtBreak)) = [] :: pages.map paragraphLines := by
  induction pages with
  | nil => rfl
  | cons page pages ih =>
    rw [List.flatMap_cons, paginate_later, ih]
    simp [onFirst]

/-- Pages are read as their paragraphs. -/
theorem pieces_pages (paragraphs : List Paragraph) (pages : List Page) :
    Reading.pieces ⟨paragraphs, none, none⟩ (pages.flatMap (odtPage 1)) =
      ⟨paragraphs ++ pages.flatMap (pageParagraphs odtBreak), none, none⟩ := by
  induction pages generalizing paragraphs with
  | nil => simp [Reading.pieces]
  | cons page pages ih =>
    rw [List.flatMap_cons, Reading.pieces_append, pieces_page, ih]
    simp

/-- Every page after the first is written alike. -/
theorem odtPage_later (index : Nat) (page : Page) : odtPage (index + 1) page = odtPage 1 page := by
  simp [odtPage]

/-- The pages of a document, piece by piece. -/
theorem odtPages_cons (page : Page) (pages : List Page) :
    ((page :: pages).mapIdx odtPage).flatten = odtPage 0 page ++ pages.flatMap (odtPage 1) := by
  have later : (fun index => odtPage (index + 1)) = fun _ page => odtPage 1 page := by
    funext index page
    exact odtPage_later index page
  rw [List.mapIdx_cons, later, mapIdx_const, List.flatten_cons, List.flatMap_def]

/-- A row of cells is written in pieces that can be read. -/
theorem lexical_row (writing : Writing) (lexical : ∀ piece ∈ writing.body, piece.Lexical)
    (row : List Cell) : ∀ piece ∈ (row.foldl Writing.cell writing).body, piece.Lexical := by
  induction row generalizing writing with
  | nil => exact lexical
  | cons cell row ih =>
    rw [List.foldl_cons]
    apply ih
    have pushed : ∀ list : List Piece, (∀ piece ∈ list, piece.Lexical) → ∀ body : List Piece,
        (∀ piece ∈ body, piece.Lexical) → ∀ piece ∈ body ++ list, piece.Lexical :=
      fun list more body before piece mem =>
        (List.mem_append.mp mem).elim (before piece) (more piece)
    have one : ∀ piece : Piece, piece.Lexical → ∀ other ∈ [piece], other.Lexical :=
      fun piece lexical other mem => List.mem_singleton.mp mem ▸ lexical
    simp only [Writing.cell]
    split_ifs with space
    · exact lexical
    · have ended : ∀ piece ∈ (writing.endSpan (spanStyle cell)).body, piece.Lexical := by
        simp only [Writing.endSpan]
        split_ifs
        · exact pushed _ (one .closeSpan trivial) _ lexical
        · exact lexical
      have flushed : ∀ piece ∈ ((writing.endSpan (spanStyle cell)).flushSpaces).body,
          piece.Lexical := by
        simp only [Writing.flushSpaces]
        split_ifs
        · exact pushed _ (one (.char ' ') trivial) _ ended
        · exact pushed _ (one (.spaces _) trivial) _ ended
        · exact ended
      have started : ∀ piece ∈ (((writing.endSpan (spanStyle cell)).flushSpaces).startSpan
          (spanStyle cell)).body, piece.Lexical := by
        simp only [Writing.startSpan]
        split_ifs
        · refine pushed _ ?_ _ flushed
          intro piece mem
          obtain ⟨name, named, rfl⟩ := List.mem_map.mp mem
          have styled : ∀ cell : Cell, ∀ name ∈ (spanStyle cell).toList, Plain name := by
            rintro ⟨ch, bold | bold, underline | underline⟩ <;>
              simp [spanStyle, Plain, odtBold, odtUnder, odtBoldUnder]
          exact styled cell name named
        · exact flushed
      exact pushed _ (one (.char cell.ch) trivial) _ started

/-- The pieces of a paragraph can be read. -/
theorem lexical_paragraph {style : Text} (plain : Plain style) (row : List Cell) :
    ∀ piece ∈ odtParagraphCells style row, piece.Lexical := by
  intro piece mem
  rw [odtParagraphCells] at mem
  split_ifs at mem with none
  · exact List.mem_singleton.mp mem ▸ plain
  · rw [Writing.finish] at mem
    simp only [List.cons_append, List.mem_cons, List.mem_append, List.not_mem_nil, or_false] at mem
    obtain rfl | (body | close) | rfl := mem
    · exact plain
    · exact lexical_row .start nofun row piece body
    · split_ifs at close
      · exact List.mem_singleton.mp close ▸ trivial
      · cases close
    · trivial

/-- The pieces of a page can be read. -/
theorem lexical_page (index : Nat) (page : Page) : ∀ piece ∈ odtPage index page, piece.Lexical := by
  have line : Plain odtLine := ⟨by decide, by decide⟩
  have later : Plain odtBreak := ⟨by decide, by decide⟩
  intro piece mem
  simp only [odtPage] at mem
  split_ifs at mem
  · exact lexical_paragraph line [] piece mem
  · exact lexical_paragraph later [] piece mem
  · obtain ⟨paragraph, among, within⟩ := List.mem_flatten.mp mem
    obtain ⟨number, bound, rfl⟩ := List.mem_mapIdx.mp among
    revert within
    split_ifs
    · exact lexical_paragraph later _ piece
    · exact lexical_paragraph line _ piece

/-- What follows the paragraphs is no piece. -/
theorem readPiece_footer : readPiece odtFooter = none := by
  have read := readPiece_tag (show '>' ∉ "/office:text".toList by decide)
    "</office:body></office:document-content>".toList
  have none : readTag "/office:text".toList = none := by simp [readTag, upTo]
  rw [none] at read
  exact read

/-- A document is read as the lines of its pages. -/
theorem readOdt_odtContent {pages : List Page} (some : pages ≠ [])
    (lines : ∀ page ∈ pages, readLinesOf page ≠ [[]]) :
    readOdt (odtContent pages) = pages.map readLinesOf := by
  obtain ⟨page, pages, rfl⟩ := List.exists_cons_of_ne_nil some
  have lexical : ∀ piece ∈ ((page :: pages).mapIdx odtPage).flatten, piece.Lexical := by
    intro piece mem
    obtain ⟨written, among, within⟩ := List.mem_flatten.mp mem
    obtain ⟨index, bound, rfl⟩ := List.mem_mapIdx.mp among
    exact lexical_page index _ piece within
  have enough : ((page :: pages).mapIdx odtPage).flatten.length ≤
      (((page :: pages).mapIdx odtPage).flatten.flatMap Piece.text ++ odtFooter).length := by
    have := length_le_text ((page :: pages).mapIdx odtPage).flatten
    simp only [List.length_append]
    omega
  have sheet : ∀ other ∈ page :: pages, sheetLines (paragraphLines other) = readLinesOf other := by
    intro other mem
    simp only [sheetLines, paragraphLines]
    split_ifs with none single single
    · rw [readLinesOf, none]
      rfl
    · exact absurd rfl single
    · exact absurd single (lines other mem)
    · rfl
  rw [readOdt, odtContent, List.drop_left]
  simp only [readPieces_text lexical readPiece_footer enough]
  rw [odtPages_cons, Reading.pieces_append, pieces_page, pieces_pages, if_pos rfl, List.nil_append,
    paginate_first, paginate_pages]
  simp only [onFirst, List.append_nil, ← List.map_cons]
  rw [List.map_map]
  exact List.map_congr_left sheet

end EthernetGateway.Printer
