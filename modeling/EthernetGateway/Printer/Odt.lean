import EthernetGateway.Printer.Page

/-!
# The OpenDocument text of a job

Every line of a page is a paragraph. The writer keeps the spaces it has not written and the span it
has open; what it pushes is a list of pieces, and the document is their text.
-/

namespace EthernetGateway.Printer

/-- `ODT_BOLD`. -/
def odtBold : Text := ['E', 'B']

/-- `ODT_UNDER`. -/
def odtUnder : Text := ['E', 'U']

/-- `ODT_BOLD_UNDER`. -/
def odtBoldUnder : Text := ['E', 'B', 'U']

/-- The style of an ordinary paragraph. -/
def odtLine : Text := ['L', 'P']

/-- The style of a paragraph that starts a page. -/
def odtBreak : Text := ['L', 'P', 'B']

/-- `push_escaped`. -/
def pushEscaped (c : Char) : Text :=
  if c = '&' then "&amp;".toList
  else if c = '<' then "&lt;".toList
  else if c = '>' then "&gt;".toList
  else if c = '"' then "&quot;".toList
  else if c = '\'' then "&apos;".toList
  else [c]

/-- What is pushed at a time. -/
inductive Piece where
  /-- A paragraph without text. -/
  | emptyParagraph (style : Text)
  /-- The start of a paragraph. -/
  | openParagraph (style : Text)
  /-- Its end. -/
  | closeParagraph
  /-- The start of a span. -/
  | openSpan (name : Text)
  /-- Its end. -/
  | closeSpan
  /-- A number of spaces. -/
  | spaces (count : Nat)
  /-- A character, escaped. -/
  | char (c : Char)
  deriving DecidableEq

/-- The text of a piece. -/
def Piece.text : Piece → Text
  | emptyParagraph style => "<text:p text:style-name=\"".toList ++ style ++ "\"/>".toList
  | openParagraph style => "<text:p text:style-name=\"".toList ++ style ++ "\">".toList
  | closeParagraph => "</text:p>".toList
  | openSpan name => "<text:span text:style-name=\"".toList ++ name ++ "\">".toList
  | closeSpan => "</text:span>".toList
  | spaces count => "<text:s text:c=\"".toList ++ Text.ofNat count ++ "\"/>".toList
  | char c => pushEscaped c

@[simp] theorem Piece.text_emptyParagraph (style : Text) : (emptyParagraph style).text =
    "<text:p text:style-name=\"".toList ++ style ++ "\"/>".toList := rfl

@[simp] theorem Piece.text_openParagraph (style : Text) : (openParagraph style).text =
    "<text:p text:style-name=\"".toList ++ style ++ "\">".toList := rfl

@[simp] theorem Piece.text_closeParagraph : closeParagraph.text = "</text:p>".toList := rfl

@[simp] theorem Piece.text_openSpan (name : Text) : (openSpan name).text =
    "<text:span text:style-name=\"".toList ++ name ++ "\">".toList := rfl

@[simp] theorem Piece.text_closeSpan : closeSpan.text = "</text:span>".toList := rfl

@[simp] theorem Piece.text_spaces (count : Nat) : (Piece.spaces count).text =
    "<text:s text:c=\"".toList ++ Text.ofNat count ++ "\"/>".toList := rfl

@[simp] theorem Piece.text_char (c : Char) : (Piece.char c).text = pushEscaped c := rfl

/-- `span_style`. -/
def spanStyle (cell : Cell) : Option Text :=
  match cell.bold, cell.underline with
  | false, false => none
  | true, false => some odtBold
  | false, true => some odtUnder
  | true, true => some odtBoldUnder

/-- The variables of `odt_paragraph_cells`. -/
structure Writing where
  /-- What was pushed. -/
  body : List Piece
  /-- Spaces not written yet. -/
  spaces : Nat
  /-- Whether no character was written yet. -/
  leading : Bool
  /-- The span that is open. -/
  opened : Option Text

namespace Writing

/-- Nothing was written. -/
def start : Writing := ⟨[], 0, true, none⟩

/-- End the open span before a character of another style. -/
def endSpan (writing : Writing) (want : Option Text) : Writing :=
  if want ≠ writing.opened ∧ writing.opened.isSome then
    { writing with body := writing.body ++ [.closeSpan], opened := none }
  else writing

/-- Write the spaces before a character. -/
def flushSpaces (writing : Writing) : Writing :=
  if 0 < writing.spaces then
    { writing with
      body := writing.body ++
        [if writing.spaces = 1 ∧ ¬ writing.leading then .char ' ' else .spaces writing.spaces]
      spaces := 0 }
  else writing

/-- Start the span of a character. -/
def startSpan (writing : Writing) (want : Option Text) : Writing :=
  if want ≠ writing.opened then
    { writing with body := writing.body ++ want.toList.map .openSpan, opened := want }
  else writing

/-- Write a character. -/
def character (writing : Writing) (c : Char) : Writing :=
  { writing with body := writing.body ++ [.char c], leading := false }

/-- The loop of `odt_paragraph_cells`, for one cell. -/
def cell (writing : Writing) (cell : Cell) : Writing :=
  if cell.ch = ' ' then { writing with spaces := writing.spaces + 1 }
  else
    (((writing.endSpan (spanStyle cell)).flushSpaces).startSpan (spanStyle cell)).character cell.ch

/-- End the span that is open after the last cell. -/
def finish (writing : Writing) : List Piece :=
  writing.body ++ if writing.opened.isSome then [.closeSpan] else []

end Writing

/-- `odt_paragraph_cells`. -/
def odtParagraphCells (style : Text) (row : List Cell) : List Piece :=
  if row = [] then [.emptyParagraph style]
  else
    .openParagraph style :: (row.foldl Writing.cell .start).finish ++ [.closeParagraph]

/-- The loop of `odt_content`, for one page. -/
def odtPage (index : Nat) (page : Page) : List Piece :=
  if page.styledRows = [] then odtParagraphCells (if index = 0 then odtLine else odtBreak) []
  else
    (page.styledRows.mapIdx fun line row =>
      odtParagraphCells (if 0 < index ∧ line = 0 then odtBreak else odtLine) row).flatten

/-- The start of `odt_content`, up to the paragraphs. -/
def odtHeader : Text := String.toList (
  "<?xml version=\"1.0\" encoding=\"UTF-8\"?>\n" ++
  "<office:document-content " ++
  "xmlns:office=\"urn:oasis:names:tc:opendocument:xmlns:office:1.0\" " ++
  "xmlns:style=\"urn:oasis:names:tc:opendocument:xmlns:style:1.0\" " ++
  "xmlns:text=\"urn:oasis:names:tc:opendocument:xmlns:text:1.0\" " ++
  "xmlns:fo=\"urn:oasis:names:tc:opendocument:xmlns:xsl-fo-compatible:1.0\" " ++
  "office:version=\"1.3\">" ++
  "<office:automatic-styles>" ++
  "<style:style style:name=\"LP\" style:family=\"paragraph\">" ++
  "<style:text-properties style:font-name-complex=\"monospace\" " ++
  "fo:font-family=\"monospace\" fo:font-size=\"10pt\"/>" ++
  "<style:paragraph-properties fo:margin-top=\"0cm\" fo:margin-bottom=\"0cm\"/>" ++
  "</style:style>" ++
  "<style:style style:name=\"LPB\" style:family=\"paragraph\" " ++
  "style:parent-style-name=\"LP\">" ++
  "<style:text-properties style:font-name-complex=\"monospace\" " ++
  "fo:font-family=\"monospace\" fo:font-size=\"10pt\"/>" ++
  "<style:paragraph-properties fo:break-before=\"page\" " ++
  "fo:margin-top=\"0cm\" fo:margin-bottom=\"0cm\"/>" ++
  "</style:style>" ++
  "<style:style style:name=\"EB\" style:family=\"text\">" ++
  "<style:text-properties fo:font-weight=\"bold\"/>" ++
  "</style:style>" ++
  "<style:style style:name=\"EU\" style:family=\"text\">" ++
  "<style:text-properties style:text-underline-style=\"solid\" " ++
  "style:text-underline-width=\"auto\" " ++
  "style:text-underline-color=\"font-color\"/>" ++
  "</style:style>" ++
  "<style:style style:name=\"EBU\" style:family=\"text\">" ++
  "<style:text-properties fo:font-weight=\"bold\" " ++
  "style:text-underline-style=\"solid\" " ++
  "style:text-underline-width=\"auto\" " ++
  "style:text-underline-color=\"font-color\"/>" ++
  "</style:style>" ++
  "</office:automatic-styles>" ++
  "<office:body><office:text>")

/-- The end of `odt_content`. -/
def odtFooter : Text := "</office:text></office:body></office:document-content>".toList

/-- `odt_content`. -/
def odtContent (pages : List Page) : Text :=
  odtHeader ++ ((pages.mapIdx odtPage).flatten.flatMap Piece.text ++ odtFooter)

end EthernetGateway.Printer
