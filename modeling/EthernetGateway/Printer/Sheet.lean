import EthernetGateway.Text

/-!
# Paper under a print head

A guest sends bytes to a printer. The head moves over the lines of a page and strikes cells, and a
form feed starts the next page. What a strike makes of a cell is a parameter, so that the same paper
also records what was struck.
-/

namespace EthernetGateway.Printer

/-- `MAX_COLUMNS`. -/
abbrev maxColumns : Nat := 132

/-- `tab_stop`. -/
abbrev tabStop : Nat := 8

/-- A list made at least as long as a number, with blanks at its end. -/
def padTo {α : Type} (length : Nat) (blank : α) (list : List α) : List α :=
  list ++ List.replicate (length - list.length) blank

/-- `Page`, over any kind of cell. -/
structure Sheet (κ : Type) where
  /-- The lines the head has struck on. -/
  lines : List (List κ)
  /-- The line the head is on. -/
  row : Nat
  /-- The column the head is at. -/
  col : Nat

/-- What a cell is before it is struck, and what a strike makes of it. -/
structure Ink (κ : Type) where
  /-- A cell nothing was struck on. -/
  blank : κ
  /-- A cell after a character is struck on it. -/
  strike : κ → Char → κ

namespace Sheet

variable {κ : Type}

/-- `Page::default`. -/
def new : Sheet κ := ⟨[], 0, 0⟩

/-- `Page::advance`, and `Page::line_feed`: down a line, at the same column. -/
def lineFeed (page : Sheet κ) : Sheet κ := { page with row := page.row + 1 }

/-- `Page::carriage_return`. -/
def carriageReturn (page : Sheet κ) : Sheet κ := { page with col := 0 }

/-- `Page::wrap`. -/
def wrap (page : Sheet κ) : Sheet κ := { page.lineFeed with col := 0 }

/-- The part of `Page::put` after the head has its place. -/
def strikeHere (ink : Ink κ) (page : Sheet κ) (c : Char) : Sheet κ :=
  { page with
    lines := (padTo (page.row + 1) [] page.lines).modify page.row fun line =>
      (padTo (page.col + 1) ink.blank line).modify page.col fun cell => ink.strike cell c
    col := page.col + 1 }

/-- `Page::put`. -/
def put (ink : Ink κ) (page : Sheet κ) (c : Char) : Sheet κ :=
  (if maxColumns ≤ page.col then page.wrap else page).strikeHere ink c

/-- A number of spaces put one after the other. -/
def putSpaces (ink : Ink κ) (page : Sheet κ) : Nat → Sheet κ
  | 0 => page
  | count + 1 => (page.put ink ' ').putSpaces ink count

/-- The arm of `SpoolJob::push` for a tab. -/
def tab (ink : Ink κ) (page : Sheet κ) : Sheet κ :=
  page.putSpaces ink (min ((page.col / tabStop + 1) * tabStop) maxColumns - page.col)

/-- The arm of `SpoolJob::push` for a backspace. -/
def backspace (page : Sheet κ) : Sheet κ := { page with col := page.col - 1 }

end Sheet

/-- `SpoolJob`: the pages that are done and the one under the head. -/
structure SpoolJob (κ : Type) where
  /-- The pages before the current one. -/
  done : List (Sheet κ)
  /-- The current page. -/
  page : Sheet κ
  /-- Whether a carriage return feeds a line. -/
  autoLf : Bool
  /-- Whether the byte before was a carriage return. -/
  afterCr : Bool

namespace SpoolJob

variable {κ : Type}

/-- `SpoolJob::with_auto_lf`. -/
def withAutoLf (autoLf : Bool) : SpoolJob κ := ⟨[], .new, autoLf, false⟩

/-- `pages`. -/
def pages (job : SpoolJob κ) : List (Sheet κ) := job.done ++ [job.page]

/-- The match of `SpoolJob::push` on a byte without its high bit. -/
def act (ink : Ink κ) (job : SpoolJob κ) (b : UInt8) : SpoolJob κ :=
  if b = 0x0D then
    { job with
      page := if job.autoLf then job.page.carriageReturn.lineFeed else job.page.carriageReturn }
  else if b = 0x0A then
    if job.autoLf ∧ job.afterCr then job else { job with page := job.page.lineFeed }
  else if b = 0x0C then { job with done := job.pages, page := .new }
  else if b = 0x09 then { job with page := job.page.tab ink }
  else if b = 0x08 then { job with page := job.page.backspace }
  else if 0x20 ≤ b ∧ b ≤ 0x7E then { job with page := job.page.put ink (Char.ofNat b.toNat) }
  else job

/-- `SpoolJob::push`. -/
def push (ink : Ink κ) (job : SpoolJob κ) (byte : UInt8) : SpoolJob κ :=
  { job.act ink (byte &&& 0x7F) with afterCr := byte &&& 0x7F = 0x0D }

/-- A job that a sequence of bytes was pushed into. -/
def pushed (ink : Ink κ) (autoLf : Bool) (bytes : List UInt8) : SpoolJob κ :=
  bytes.foldl (push ink) (.withAutoLf autoLf)

end SpoolJob

/-! ## Two inks on the same paper -/

section Map

variable {κ κ' : Type}

/-- A cell function that turns one ink into another. -/
structure InkMap (ink : Ink κ) (ink' : Ink κ') (f : κ → κ') : Prop where
  /-- A blank cell becomes a blank cell. -/
  blank : f ink.blank = ink'.blank
  /-- A struck cell becomes a struck cell. -/
  strike : ∀ cell c, f (ink.strike cell c) = ink'.strike (f cell) c

/-- The same paper with other cells. -/
def Sheet.map (f : κ → κ') (page : Sheet κ) : Sheet κ' :=
  ⟨page.lines.map (List.map f), page.row, page.col⟩

/-- The same job with other cells. -/
def SpoolJob.map (f : κ → κ') (job : SpoolJob κ) : SpoolJob κ' :=
  ⟨job.done.map (Sheet.map f), job.page.map f, job.autoLf, job.afterCr⟩

/-- A padded list with other elements. -/
theorem map_padTo (f : κ → κ') (length : Nat) (blank : κ) (list : List κ) :
    (padTo length blank list).map f = padTo length (f blank) (list.map f) := by
  simp [padTo]

/-- A modified list with other elements. -/
theorem map_modify (f : κ → κ') (g : κ → κ) (g' : κ' → κ') (commutes : ∀ x, f (g x) = g' (f x))
    (list : List κ) (index : Nat) : (list.modify index g).map f = (list.map f).modify index g' := by
  induction list generalizing index with
  | nil => simp
  | cons x list ih =>
    cases index with
    | zero => simp [commutes]
    | succ index => simp [ih]

variable {ink : Ink κ} {ink' : Ink κ'} {f : κ → κ'} (inks : InkMap ink ink' f)

include inks

/-- Striking here commutes with changing the cells. -/
theorem Sheet.map_strikeHere (page : Sheet κ) (c : Char) :
    (page.strikeHere ink c).map f = (page.map f).strikeHere ink' c := by
  have line : ∀ cells : List κ,
      ((padTo (page.col + 1) ink.blank cells).modify page.col fun cell => ink.strike cell c).map f =
        (padTo (page.col + 1) ink'.blank (cells.map f)).modify page.col fun cell =>
          ink'.strike cell c := by
    intro cells
    rw [map_modify f _ (fun cell => ink'.strike cell c) (fun cell => inks.strike cell c), map_padTo,
      inks.blank]
  simp only [Sheet.map, strikeHere]
  rw [map_modify (List.map f) _ (fun cells => (padTo (page.col + 1) ink'.blank cells).modify page.col
    fun cell => ink'.strike cell c) line, map_padTo, List.map_nil]

/-- Putting a character commutes with changing the cells. -/
theorem Sheet.map_put (page : Sheet κ) (c : Char) :
    (page.put ink c).map f = (page.map f).put ink' c := by
  simp only [put]
  rw [Sheet.map_strikeHere inks]
  congr 1
  by_cases past : maxColumns ≤ page.col
  · rw [if_pos past, if_pos (show maxColumns ≤ (page.map f).col from past)]
    rfl
  · rw [if_neg past, if_neg (show ¬ maxColumns ≤ (page.map f).col from past)]

/-- Putting spaces commutes with changing the cells. -/
theorem Sheet.map_putSpaces (page : Sheet κ) (count : Nat) :
    (page.putSpaces ink count).map f = (page.map f).putSpaces ink' count := by
  induction count generalizing page with
  | zero => rfl
  | succ count ih =>
    rw [putSpaces, putSpaces, ih, Sheet.map_put inks]

/-- Pushing a byte commutes with changing the cells. -/
theorem SpoolJob.map_push (job : SpoolJob κ) (byte : UInt8) :
    (job.push ink byte).map f = (job.map f).push ink' byte := by
  have acted : ∀ b, (job.act ink b).map f = (job.map f).act ink' b := by
    intro b
    obtain ⟨done, page, autoLf, afterCr⟩ := job
    by_cases cr : b = 0x0D
    · cases autoLf <;> simp [act, cr, SpoolJob.map, Sheet.map, Sheet.carriageReturn, Sheet.lineFeed]
    · by_cases lf : b = 0x0A
      · cases autoLf <;> cases afterCr <;>
          simp [act, lf, SpoolJob.map, Sheet.map, Sheet.lineFeed]
      · simp only [act, if_neg cr, if_neg lf]
        split_ifs
        · simp [SpoolJob.map, SpoolJob.pages, Sheet.map, Sheet.new]
        · exact congrArg (fun page => SpoolJob.mk (done.map (Sheet.map f)) page autoLf afterCr)
            (Sheet.map_putSpaces inks page _)
        · rfl
        · exact congrArg (fun page => SpoolJob.mk (done.map (Sheet.map f)) page autoLf afterCr)
            (Sheet.map_put inks page _)
        · rfl
  simp only [push]
  rw [← acted]
  rfl

/-- Pushing bytes commutes with changing the cells. -/
theorem SpoolJob.map_pushed (autoLf : Bool) (bytes : List UInt8) :
    (pushed ink autoLf bytes).map f = pushed ink' autoLf bytes := by
  have folded : ∀ job : SpoolJob κ,
      (bytes.foldl (push ink) job).map f = bytes.foldl (push ink') (job.map f) := by
    induction bytes with
    | nil => exact fun _ => rfl
    | cons byte bytes ih =>
      intro job
      rw [List.foldl_cons, List.foldl_cons, ih, SpoolJob.map_push inks]
  exact folded _

end Map

/-! ## What every cell keeps -/

/-- A character a printer strikes. -/
def Strikable (c : Char) : Prop := 0x20 ≤ c.toNat ∧ c.toNat ≤ 0x7E

/-- A byte of text is struck as a character with its code. -/
theorem strikable_ofNat {b : UInt8} (text : 0x20 ≤ b ∧ b ≤ 0x7E) :
    Strikable (Char.ofNat b.toNat) := by
  have valid : b.toNat.isValidChar := .inl (by have := b.toNat_lt; omega)
  have code : (Char.ofNat b.toNat).toNat = b.toNat := by
    simp [Char.ofNat, valid, Char.ofNatAux, Char.toNat]
  rw [Strikable, code]
  exact ⟨text.1, text.2⟩

section Kept

variable {κ : Type} {ink : Ink κ} {P : κ → Prop}

/-- Every cell of a page has a property. -/
def Sheet.All (P : κ → Prop) (page : Sheet κ) : Prop := ∀ line ∈ page.lines, ∀ cell ∈ line, P cell

/-- A padded list has no elements but its own and blanks. -/
theorem mem_padTo {α : Type} {length : Nat} {blank x : α} {list : List α}
    (mem : x ∈ padTo length blank list) : x ∈ list ∨ x = blank := by
  obtain own | padding := List.mem_append.mp mem
  · exact .inl own
  · exact .inr (List.eq_of_mem_replicate padding)

/-- A modified list has no elements but its own and modified ones. -/
theorem mem_modify {α : Type} {f : α → α} {index : Nat} {x : α} {list : List α}
    (mem : x ∈ list.modify index f) : x ∈ list ∨ ∃ y ∈ list, x = f y := by
  induction list generalizing index with
  | nil => simp at mem
  | cons y list ih =>
    cases index with
    | zero =>
      obtain same | rest := List.mem_cons.mp (by simpa using mem)
      · exact .inr ⟨y, List.mem_cons_self, same⟩
      · exact .inl (List.mem_cons_of_mem _ rest)
    | succ index =>
      obtain same | rest := List.mem_cons.mp (by simpa using mem)
      · exact .inl (same ▸ List.mem_cons_self)
      · obtain own | ⟨z, among, same⟩ := ih rest
        · exact .inl (List.mem_cons_of_mem _ own)
        · exact .inr ⟨z, List.mem_cons_of_mem _ among, same⟩

variable (blank : P ink.blank)
  (strike : ∀ cell c, Strikable c → P cell → P (ink.strike cell c))

include blank strike

/-- Putting a character keeps the property. -/
theorem Sheet.All.put {page : Sheet κ} (all : page.All P) {c : Char} (strikable : Strikable c) :
    (page.put ink c).All P := by
  have here : ∀ page : Sheet κ, page.All P → (page.strikeHere ink c).All P := by
    intro page all line among cell mem
    have padded : ∀ line ∈ padTo (page.row + 1) [] page.lines, ∀ cell ∈ line, P cell := by
      intro line among cell mem
      obtain own | rfl := mem_padTo among
      · exact all line own cell mem
      · cases mem
    obtain own | ⟨before, earlier, rfl⟩ := mem_modify among
    · exact padded line own cell mem
    · have wide : ∀ cell ∈ padTo (page.col + 1) ink.blank before, P cell := by
        intro cell mem
        obtain own | rfl := mem_padTo mem
        · exact padded before earlier cell own
        · exact blank
      obtain own | ⟨struck, among, rfl⟩ := mem_modify mem
      · exact wide cell own
      · exact strike struck c strikable (wide struck among)
  apply here
  split_ifs
  · exact all
  · exact all

/-- Putting spaces keeps the property. -/
theorem Sheet.All.putSpaces {page : Sheet κ} (all : page.All P) (count : Nat) :
    (page.putSpaces ink count).All P := by
  induction count generalizing page with
  | zero => exact all
  | succ count ih => exact ih (all.put blank strike ⟨by decide, by decide⟩)

/-- Pushing bytes makes only cells with the property. -/
theorem SpoolJob.pushed_all (autoLf : Bool) (bytes : List UInt8) :
    ∀ page ∈ (pushed ink autoLf bytes).pages, page.All P := by
  have step : ∀ (job : SpoolJob κ) (byte : UInt8), (∀ page ∈ job.pages, page.All P) →
      ∀ page ∈ (job.push ink byte).pages, page.All P := by
    intro job byte all
    have current : job.page.All P := all job.page (by simp [SpoolJob.pages])
    have replaced : ∀ page : Sheet κ, page.All P →
        ∀ other ∈ job.done ++ [page], other.All P := by
      intro page holds other among
      obtain before | same := List.mem_append.mp among
      · exact all other (List.mem_append_left _ before)
      · cases List.mem_singleton.mp same
        exact holds
    have acted : ∀ b, ∀ page ∈ (job.act ink b).pages, page.All P := by
      intro b
      simp only [act]
      split_ifs with cr auto lf absorbed feed tab back text
      · exact replaced _ current
      · exact replaced _ current
      · exact all
      · exact replaced _ current
      · intro page among
        obtain before | same := List.mem_append.mp among
        · exact all page before
        · cases List.mem_singleton.mp same
          exact nofun
      · exact replaced _ (current.putSpaces blank strike _)
      · exact replaced _ current
      · exact replaced _ (current.put blank strike (strikable_ofNat text))
      · exact all
    exact acted _
  have folded : ∀ job : SpoolJob κ, (∀ page ∈ job.pages, page.All P) →
      ∀ page ∈ (bytes.foldl (push ink) job).pages, page.All P := by
    induction bytes with
    | nil => exact fun _ all => all
    | cons byte bytes ih => exact fun job all => ih _ (step job byte all)
  apply folded
  intro page among
  cases List.mem_singleton.mp among
  exact nofun

end Kept

end EthernetGateway.Printer
