import EthernetGateway.Serial.AtCommand

/-!
# A chained AT line and its subcommands one by one

A subcommand cut from a line is cut whole when it stands alone. So a line and its subcommands one
by one have the same results, executed in the same order, but for those that the line drops behind
an `O1` to `O9`; what differs is when the flags are set. Everything else comes out the same where
nothing dropped changes anything, and the flags do exactly when the last setting of each asks for
what the resets before it put back, and what a `Z` puts back was itself saved as asked.
-/

namespace EthernetGateway.Serial

/-! ## Cutting -/

/-- Taking what a leading run and some of the rest cover keeps the run. -/
theorem takeWhile_take_add {α : Type} (p : α → Bool) (xs : List α) (n : Nat) :
    (xs.take ((xs.takeWhile p).length + n)).takeWhile p = xs.takeWhile p ∧
      (xs.take ((xs.takeWhile p).length + n)).dropWhile p = (xs.dropWhile p).take n := by
  induction xs with
  | nil => simp
  | cons x xs ih =>
    by_cases h : p x
    · have longer : ((x :: xs).takeWhile p).length + n = (xs.takeWhile p).length + n + 1 := by
        simp only [List.takeWhile_cons, h, if_true, List.length_cons]
        omega
      rw [longer]
      simp [h, ih.1, ih.2]
    · cases n <;> simp [h]

theorem sRegisterTail_le (behind : Text) : sRegisterTail behind ≤ behind.length := by
  cases behind with
  | nil => simp [sRegisterTail]
  | cons c value =>
    have blanks := congrArg List.length
      (List.takeWhile_append_dropWhile (p := (· = ' ')) (l := value))
    have number := (List.takeWhile_prefix Text.isDigit (l := value.dropWhile (· = ' '))).length_le
    simp only [List.length_append] at blanks
    simp only [sRegisterTail, List.length_cons]
    split <;> [omega; split <;> omega]

theorem sRegisterTail_take (behind : Text) :
    sRegisterTail (behind.take (sRegisterTail behind)) = sRegisterTail behind := by
  cases behind with
  | nil => simp [sRegisterTail]
  | cons c value =>
    by_cases asked : c = '?'
    · simp [sRegisterTail, asked]
    · by_cases given : c = '='
      · have blanks := takeWhile_take_add (· = ' ') value
          ((value.dropWhile (· = ' ')).takeWhile Text.isDigit).length
        have number := (takeWhile_take_add Text.isDigit (value.dropWhile (· = ' ')) 0).1
        simp only [Nat.add_zero] at number
        simp only [sRegisterTail, given, show ('=' : Char) ≠ '?' by decide, if_false, if_true,
          List.take_succ_cons, blanks.1, blanks.2, number]
      · simp [sRegisterTail, asked, given]

theorem sRegisterLength_take (rest : Text) :
    sRegisterLength (rest.take (sRegisterLength rest)) = sRegisterLength rest := by
  have cut := takeWhile_take_add Text.isDigit rest (sRegisterTail (rest.dropWhile Text.isDigit))
  simp only [sRegisterLength, cut.1, cut.2, sRegisterTail_take]

theorem sRegisterLength_le (rest : Text) : sRegisterLength rest ≤ rest.length := by
  have whole := congrArg List.length
    (List.takeWhile_append_dropWhile (p := Text.isDigit) (l := rest))
  have := sRegisterTail_le (rest.dropWhile Text.isDigit)
  simp only [List.length_append] at whole
  unfold sRegisterLength
  omega

theorem digitAt_take (rest : Text) (i n : Nat) (short : i < n) :
    digitAt (rest.take n) i = digitAt rest i := by
  simp [digitAt, short]

theorem digitAt_lt {rest : Text} {i : Nat} (digit : digitAt rest i) : i < rest.length := by
  by_contra beyond
  simp [digitAt, List.getElem?_eq_none (Nat.le_of_not_lt beyond)] at digit

@[simp] theorem digitAt_nil (i : Nat) : digitAt [] i = false := by simp [digitAt]

theorem splitAtSubcommand_take (rest : Text) :
    splitAtSubcommand (rest.take (splitAtSubcommand rest).1) = splitAtSubcommand rest := by
  cases rest with
  | nil => rfl
  | cons c rest =>
    by_cases dials : c = 'D'
    · simp [splitAtSubcommand, dials]
    by_cases answers : c = 'A'
    · simp [splitAtSubcommand, answers]
    by_cases online : c = 'O'
    · by_cases digit : digitAt rest 0 <;> simp [splitAtSubcommand, online, digit, digitAt_take]
    by_cases extended : c = '+'
    · simp [splitAtSubcommand, extended]
    by_cases register : c = 'S'
    · simp [splitAtSubcommand, register, sRegisterLength_take]
    by_cases ampersand : c = '&'
    · by_cases number : rest.head? = some 'Z'
      · simp [splitAtSubcommand, ampersand, number]
      by_cases digit : digitAt rest 1
      · have long := digitAt_lt digit
        obtain ⟨second, rest, rfl⟩ := List.exists_cons_of_length_pos (by omega : 0 < rest.length)
        have kept := digitAt_take (second :: rest) 1 2 (by omega)
        rw [List.take_succ_cons] at kept
        simp_all [splitAtSubcommand]
      · cases rest <;> simp_all [splitAtSubcommand, digitAt]
    by_cases asks : c = '?'
    · simp [splitAtSubcommand, asks]
    by_cases digit : digitAt rest 0 <;>
      simp [splitAtSubcommand, dials, answers, online, extended, register, ampersand, asks, digit,
        digitAt_take]

theorem splitAtSubcommand_le (rest : Text) : (splitAtSubcommand rest).1 ≤ rest.length := by
  cases rest with
  | nil => simp [splitAtSubcommand]
  | cons c rest =>
    have register := sRegisterLength_le rest
    have first : digitAt rest 0 → 0 < rest.length := digitAt_lt
    have second : digitAt rest 1 → 1 < rest.length := digitAt_lt
    have some : rest ≠ [] → 0 < rest.length := List.length_pos_of_ne_nil
    simp only [splitAtSubcommand, List.length_cons]
    split_ifs <;> grind

theorem splitAtSubcommand_pos {rest : Text} (some : rest ≠ []) :
    0 < (splitAtSubcommand rest).1 := by
  cases rest with
  | nil => exact absurd rfl some
  | cons c rest =>
    simp only [splitAtSubcommand]
    split_ifs <;> simp

/-- The subcommands the loop of `parse_at_command` cuts from what is left of a line when none of
them ends it, with the bound on its turns. -/
def subcommands : Nat → Text → List Text
  | 0, _ => []
  | turns + 1, rest =>
    let rest := rest.dropWhile (· = ' ')
    if rest = [] then []
    else
      let length := (splitAtSubcommand (Text.upper rest)).1
      rest.take length :: subcommands turns (rest.drop length)

/-- The subcommands of a line. -/
def subcommandsOf (cmd : Text) : List Text := subcommands cmd.length (cmd.drop 2)

/-- The results of a subcommand. -/
def resultsOf (sub : Text) : List AtResult :=
  (parseOneAtSubcommand (Text.upper sub) sub .factory).1

/-- The flags a subcommand sets while it is read. -/
def setsOf (sub : Text) : List (Flag × Bool) :=
  ((plainSubcommands.lookup (Text.upper sub)).map Prod.snd).getD []

/-- Whether a subcommand is the last of its line: it is refused, or `split_at_subcommand` has it
end the line. -/
def endsLine (sub : Text) : Bool :=
  (splitAtSubcommand (Text.upper sub)).2 || decide (AtResult.error ∈ resultsOf sub)

/-- Whether a subcommand is the last that is given one by one: it is refused, dials, answers or goes
online. -/
def stops (sub : Text) : Bool := (resultsOf sub).any AtResult.last

/-- The subcommands that are given one by one, up to the first that stops. -/
def given : List Text → List Text
  | [] => []
  | sub :: subs => if stops sub then [sub] else sub :: given subs

/-- The subcommands that are given one by one and that a line drops: those behind an `O1` to `O9`,
which ends the line although the modem stays in command mode. -/
def dropped : List Text → List Text
  | [] => []
  | sub :: subs => if endsLine sub then (if stops sub then [] else given subs) else dropped subs

/-- A result that changes nothing. -/
def AtResult.idle : AtResult → Bool
  | .ok | .error | .noCarrier | .info _ | .sRegQuery _ | .showConfig | .help | .sRegHelp => true
  | _ => false

/-- Whether a subcommand changes nothing: a query, a letter without meaning, a refused one. -/
def inert (sub : Text) : Bool := (setsOf sub).isEmpty && (resultsOf sub).all AtResult.idle

/-- Reading a subcommand sets its flags; its results do not depend on them. -/
theorem parseOneAtSubcommand_eq (sub : Text) (flags : Flags) :
    parseOneAtSubcommand (Text.upper sub) sub flags =
      (resultsOf sub, flags.setAll (setsOf sub)) := by
  unfold resultsOf setsOf parseOneAtSubcommand
  cases plainSubcommands.lookup (Text.upper sub) with
  | none =>
    simp only [Option.map_none, Option.getD_none, Flags.setAll, List.foldl_nil]
    split_ifs <;> rfl
  | some row => rfl

/-- A text that `split_at_subcommand` takes whole, as the loop finds it. -/
structure IsSubcommand (sub : Text) : Prop where
  nonempty : sub ≠ []
  unpadded : sub.dropWhile (· = ' ') = sub
  whole : (splitAtSubcommand (Text.upper sub)).1 = sub.length

/-- What the loop cuts is a subcommand, and ends the line alone as it does there. -/
theorem cut_isSubcommand {rest : Text} (some : rest ≠ [])
    (unpadded : rest.dropWhile (· = ' ') = rest) :
    IsSubcommand (rest.take (splitAtSubcommand (Text.upper rest)).1) ∧
      (splitAtSubcommand
          (Text.upper (rest.take (splitAtSubcommand (Text.upper rest)).1))).2 =
        (splitAtSubcommand (Text.upper rest)).2 := by
  have positive := @splitAtSubcommand_pos (Text.upper rest) (by simpa using some)
  have short := splitAtSubcommand_le (Text.upper rest)
  have alone := splitAtSubcommand_take (Text.upper rest)
  rw [← Text.upper_take] at alone
  rw [Text.upper_length] at short
  refine ⟨⟨?_, ?_, ?_⟩, by rw [alone]⟩
  · simp only [ne_eq, List.take_eq_nil_iff, not_or]
    exact ⟨by omega, some⟩
  · cases rest with
    | nil => exact absurd rfl some
    | cons c rest =>
      obtain ⟨n, length⟩ := Nat.exists_eq_succ_of_ne_zero positive.ne'
      have notBlank : c ≠ ' ' := by
        rintro rfl
        have shorter := (List.dropWhile_suffix (· = ' ') (l := rest)).length_le
        have := congrArg List.length unpadded
        simp only [List.dropWhile_cons, decide_true, if_true, List.length_cons] at this
        omega
      rw [length]
      simp [notBlank]
  · rw [alone, List.length_take, Nat.min_eq_left short]

theorem subcommands_isSubcommand {turns : Nat} {rest sub : Text}
    (mem : sub ∈ subcommands turns rest) : IsSubcommand sub := by
  induction turns generalizing rest with
  | zero => simp [subcommands] at mem
  | succ turns ih =>
    simp only [subcommands] at mem
    split_ifs at mem with blank
    · simp at mem
    · rcases List.mem_cons.1 mem with rfl | later
      · exact (cut_isSubcommand blank (List.dropWhile_idempotent _ _)).1
      · exact ih later

/-- The loop cuts nothing that is not on the line. -/
theorem mem_of_mem_subcommands {turns : Nat} {rest sub : Text} {c : Char}
    (mem : sub ∈ subcommands turns rest) (inSub : c ∈ sub) : c ∈ rest := by
  induction turns generalizing rest with
  | zero => simp [subcommands] at mem
  | succ turns ih =>
    have suffix := List.dropWhile_suffix (· = ' ') (l := rest)
    simp only [subcommands] at mem
    split_ifs at mem with blank
    · simp at mem
    · rcases List.mem_cons.1 mem with rfl | later
      · exact suffix.subset (List.mem_of_mem_take inSub)
      · exact suffix.subset (List.mem_of_mem_drop (ih later))

/-- The results of subcommands, up to the first that ends the line, and the flags then. -/
def parseAll : List Text → Flags → List AtResult × Flags
  | [], flags => ([], flags)
  | sub :: subs, flags =>
    if endsLine sub then (resultsOf sub, flags.setAll (setsOf sub))
    else
      let more := parseAll subs (flags.setAll (setsOf sub))
      (resultsOf sub ++ more.1, more.2)

/-- The loop of `parse_at_command` reads the subcommands it cuts. -/
theorem parseSubcommands_eq (turns : Nat) (rest : Text) (flags : Flags) :
    parseSubcommands turns rest flags = parseAll (subcommands turns rest) flags := by
  induction turns generalizing rest flags with
  | zero => rfl
  | succ turns ih =>
    simp only [parseSubcommands, subcommands]
    split_ifs with blank ends
    · rfl
    · have cut := (cut_isSubcommand blank (List.dropWhile_idempotent _ _)).2
      rw [parseOneAtSubcommand_eq] at ends ⊢
      have last : endsLine ((rest.dropWhile (· = ' ')).take
          (splitAtSubcommand (Text.upper (rest.dropWhile (· = ' ')))).1) := by
        simp only [endsLine, cut, Bool.or_eq_true, decide_eq_true_eq]
        exact ends.symm
      simp [parseAll, last]
    · have cut := (cut_isSubcommand blank (List.dropWhile_idempotent _ _)).2
      rw [parseOneAtSubcommand_eq] at ends ⊢
      have goesOn : ¬endsLine ((rest.dropWhile (· = ' ')).take
          (splitAtSubcommand (Text.upper (rest.dropWhile (· = ' ')))).1) := by
        simp only [endsLine, cut, Bool.or_eq_true, decide_eq_true_eq]
        exact fun either => ends either.symm
      simp [parseAll, goesOn, ih]

/-- The bound on the turns of the loop is never reached: with a turn for each character, more
turns cut the same subcommands. -/
theorem subcommands_turns {turns more : Nat} {rest : Text} (enough : rest.length ≤ turns)
    (plenty : rest.length ≤ more) : subcommands turns rest = subcommands more rest := by
  induction turns generalizing more rest with
  | zero =>
    obtain rfl := List.length_eq_zero_iff.1 (Nat.le_zero.1 enough)
    cases more <;> simp [subcommands]
  | succ turns ih =>
    cases rest with
    | nil => cases more <;> simp [subcommands]
    | cons c rest =>
      obtain ⟨more, rfl⟩ : ∃ fewer, more = fewer + 1 :=
        Nat.exists_eq_succ_of_ne_zero (by simp only [List.length_cons] at plenty; omega)
      simp only [subcommands]
      split_ifs with blank
      · rfl
      · have shorter := (List.dropWhile_suffix (· = ' ') (l := c :: rest)).length_le
        have positive := @splitAtSubcommand_pos (Text.upper ((c :: rest).dropWhile (· = ' ')))
          (by simpa using blank)
        simp only [List.length_cons] at enough plenty shorter
        congr 1
        exact ih (by rw [List.length_drop]; omega) (by rw [List.length_drop]; omega)

/-- The results of a text with an arm of its own are in the table. -/
theorem resultsOf_plain {sub : Text} {row : List AtResult × List (Flag × Bool)}
    (found : plainSubcommands.lookup (Text.upper sub) = some row) :
    (Text.upper sub, row) ∈ plainSubcommands ∧ resultsOf sub = row.1 := by
  refine ⟨?_, by simp [resultsOf, parseOneAtSubcommand, found]⟩
  obtain ⟨before, after, table, -⟩ := List.lookup_eq_some_iff.1 found
  simp [table]

/-- Without an arm of its own a text has one result. -/
theorem resultsOf_other {sub : Text} (missing : plainSubcommands.lookup (Text.upper sub) = none) :
    ∃ result, resultsOf sub = [result] := by
  simp only [resultsOf, parseOneAtSubcommand, missing]
  split_ifs <;> exact ⟨_, rfl⟩

/-- Only the final result of a subcommand can be the last of a line. -/
theorem resultsOf_dropLast {sub : Text} {result : AtResult}
    (mem : result ∈ (resultsOf sub).dropLast) : result.last = false := by
  have rows : ∀ row ∈ plainSubcommands, ∀ result ∈ row.2.1.dropLast, result.last = false := by
    decide
  cases found : plainSubcommands.lookup (Text.upper sub) with
  | some row =>
    obtain ⟨inTable, results⟩ := resultsOf_plain found
    exact rows _ inTable _ (results ▸ mem)
  | none =>
    obtain ⟨only, results⟩ := resultsOf_other found
    simp [results] at mem

/-- A register subcommand is refused or goes on. -/
theorem sRegisterResult_last {upper : Text} (last : (sRegisterResult upper).last) :
    sRegisterResult upper = .error := by
  unfold sRegisterResult at last ⊢
  simp only at last ⊢
  split_ifs at last ⊢ with help query set
  · simp [AtResult.last] at last
  · split at last
    · rfl
    · split_ifs at last ⊢ <;> simp_all [AtResult.last]
  · split at last
    · split_ifs at last ⊢ <;> simp_all [AtResult.last]
    · rfl
  · rfl

/-- A subcommand after which no result is executed ends the line. -/
theorem endsLine_of_last {sub : Text} {result : AtResult} (mem : result ∈ resultsOf sub)
    (last : result.last) : endsLine sub := by
  have rows : ∀ row ∈ plainSubcommands, ∀ result ∈ row.2.1, result.last →
      (splitAtSubcommand row.1).2 := by decide
  cases found : plainSubcommands.lookup (Text.upper sub) with
  | some row =>
    obtain ⟨inTable, results⟩ := resultsOf_plain found
    simp [endsLine, rows _ inTable _ (results ▸ mem) last]
  | none =>
    have whole := mem
    simp only [resultsOf, parseOneAtSubcommand, found] at mem
    simp only [endsLine, Bool.or_eq_true, decide_eq_true_eq]
    split_ifs at mem with number register dial
    · obtain ⟨behind, upper⟩ := number
      simp [← upper, splitAtSubcommand]
    · rw [List.mem_singleton] at mem
      exact .inr (sRegisterResult_last (mem ▸ last) ▸ mem ▸ whole)
    · obtain ⟨behind, upper⟩ := dial
      simp [← upper, splitAtSubcommand]
    · simp only [List.mem_singleton] at mem
      simp [mem, AtResult.last] at last

/-! ## Executing -/

section Execute

variable {κ : Type} (network : Network κ)

/-- Results none of which is the last are executed, and then what follows. -/
theorem executeAll_append (state : ModemState κ) (first second : List AtResult)
    (goesOn : ∀ result ∈ first, result.last = false) :
    executeAll network state (first ++ second) =
      executeAll network (executeAll network state first) second := by
  induction first generalizing state with
  | nil => rfl
  | cons result first ih =>
    have here := goesOn result (by simp)
    simp only [List.cons_append, executeAll, here]
    exact ih _ fun result mem => goesOn result (by simp [mem])

/-- `process_at_command` on a line that starts with `AT`. -/
theorem processAtCommand_line {cmd : Text} (state : ModemState κ) (ascii : cmd.all Text.isAscii)
    (attention : ['A', 'T'] <+: Text.upper cmd) :
    processAtCommand network state cmd =
      executeAll network
        { state with
          lastCommand := cmd
          flags := (parseAll (subcommandsOf cmd) state.flags).2 }
        (parseAll (subcommandsOf cmd) state.flags).1 := by
  obtain ⟨first, rest, rfl⟩ : ∃ first rest, cmd = first :: rest := by
    cases cmd with
    | nil => exact absurd attention (by decide)
    | cons first rest => exact ⟨first, rest, rfl⟩
  have found : (skipToAt (first :: rest)).getD (first :: rest) = first :: rest := by
    rw [skipToAt, if_pos ascii, findAt, if_pos attention, Option.getD_some]
  have parsed : parseAtCommand (first :: rest) state.flags =
      if (parseAll (subcommandsOf (first :: rest)) state.flags).1 = [] then
        ([.ok], (parseAll (subcommandsOf (first :: rest)) state.flags).2)
      else parseAll (subcommandsOf (first :: rest)) state.flags := by
    rw [parseAtCommand, if_neg (not_not.2 ascii)]
    split_ifs with bare none none
    · have short := congrArg List.length bare
      rw [Text.upper_length] at short
      have empty : (first :: rest).drop 2 = [] := List.drop_eq_nil_of_le (by simpa using short.le)
      simp [subcommandsOf, empty, subcommands, parseAll]
    · have short := congrArg List.length bare
      rw [Text.upper_length] at short
      have empty : (first :: rest).drop 2 = [] := List.drop_eq_nil_of_le (by simpa using short.le)
      simp [subcommandsOf, empty, subcommands, parseAll] at none
    · simp only [parseSubcommands_eq]
      exact if_pos none
    · simp only [parseSubcommands_eq]
      exact if_neg none
  rw [processAtCommand, found, parsed]
  split_ifs with none
  · simp [none, executeAll, execute]
  · rfl

theorem parseAll_single (sub : Text) (flags : Flags) :
    parseAll [sub] flags = (resultsOf sub, flags.setAll (setsOf sub)) := by
  simp [parseAll]

/-- A subcommand of its own is cut from its line. -/
theorem subcommandsOf_alone {sub : Text} (isSub : IsSubcommand sub) :
    subcommandsOf ('A' :: 'T' :: sub) = [sub] := by
  simp only [subcommandsOf, List.length_cons, List.drop_succ_cons, List.drop_zero, subcommands,
    isSub.unpadded, isSub.nonempty, if_false, isSub.whole, List.take_length, List.drop_length]
  simp

/-- `process_at_command` on a subcommand of its own. -/
theorem processAtCommand_alone {sub : Text} (state : ModemState κ) (ascii : sub.all Text.isAscii)
    (isSub : IsSubcommand sub) :
    processAtCommand network state ('A' :: 'T' :: sub) =
      executeAll network
        { state with
          lastCommand := 'A' :: 'T' :: sub
          flags := state.flags.setAll (setsOf sub) } (resultsOf sub) := by
  have line := @processAtCommand_line κ network ('A' :: 'T' :: sub) state
    (by simp [ascii, Text.isAscii]) ⟨Text.upper sub, rfl⟩
  rwa [subcommandsOf_alone isSub, parseAll_single] at line

/-- Subcommands given one at a time, up to the first that stops. -/
def oneByOne : List Text → ModemState κ → ModemState κ
  | [], state => state
  | sub :: subs, state =>
    let next := processAtCommand network state ('A' :: 'T' :: sub)
    if stops sub then next else oneByOne subs next

/-- A result that changes nothing changes nothing. -/
theorem executeAll_idle (state : ModemState κ) {results : List AtResult}
    (idle : ∀ result ∈ results, result.idle) : executeAll network state results = state := by
  induction results with
  | nil => rfl
  | cons result results ih =>
    have here : execute network state result = state := by
      have quiet := idle result (by simp)
      cases result <;> first | rfl | cases quiet
    rw [executeAll, here]
    split_ifs
    · rfl
    · exact ih fun later mem => idle later (by simp [mem])

/-- A subcommand that changes nothing leaves only its own text behind. -/
theorem processAtCommand_inert {sub : Text} (state : ModemState κ) (ascii : sub.all Text.isAscii)
    (isSub : IsSubcommand sub) (quiet : inert sub) :
    processAtCommand network state ('A' :: 'T' :: sub) =
      { state with lastCommand := 'A' :: 'T' :: sub } := by
  simp only [inert, Bool.and_eq_true, List.isEmpty_iff, List.all_eq_true] at quiet
  rw [processAtCommand_alone network state ascii isSub, quiet.1, executeAll_idle network _ quiet.2]
  rfl

/-- Subcommands that change nothing leave a state that differs by the last text. -/
theorem oneByOne_inert (subs : List Text) (state : ModemState κ)
    (ascii : ∀ sub ∈ subs, sub.all Text.isAscii) (cut : ∀ sub ∈ subs, IsSubcommand sub)
    (quiet : ∀ sub ∈ given subs, inert sub) :
    ∃ text, oneByOne network subs state = { state with lastCommand := text } := by
  induction subs generalizing state with
  | nil => exact ⟨state.lastCommand, rfl⟩
  | cons sub subs ih =>
    have first : sub ∈ given (sub :: subs) := by
      rw [given]
      split_ifs <;> simp
    have here := processAtCommand_inert network state (ascii sub (by simp)) (cut sub (by simp))
      (quiet sub first)
    simp only [oneByOne, here]
    split_ifs with stop
    · exact ⟨_, rfl⟩
    · have more : ∀ later ∈ given subs, inert later := by
        intro later mem
        refine quiet later ?_
        rw [given, if_neg stop]
        exact List.mem_cons_of_mem _ mem
      obtain ⟨text, rest⟩ := ih { state with lastCommand := 'A' :: 'T' :: sub }
        (fun later mem => ascii later (by simp [mem])) (fun later mem => cut later (by simp [mem]))
        more
      exact ⟨text, rest⟩

/-- A subcommand that stops ends its line. -/
theorem endsLine_of_stops {sub : Text} (stop : stops sub) : endsLine sub := by
  obtain ⟨result, mem, last⟩ := List.any_eq_true.mp stop
  exact endsLine_of_last mem last

/-- Without a subcommand that ends the line nothing is dropped yet. -/
theorem dropped_cons {sub : Text} (subs : List Text) (goesOn : ¬endsLine sub) :
    dropped (sub :: subs) = dropped subs := by
  rw [dropped, if_neg goesOn]

/-! ## Everything but the flags -/

namespace ModemState

/-- A state without its flags, the flags of its profile, and the line it executed. -/
def unflagged (state : ModemState κ) : ModemState κ :=
  { state with
    flags := .factory
    lastCommand := []
    profile :=
      ⟨{ state.profile.memory with flags := .factory },
        { state.profile.file with flags := .factory }⟩ }

end ModemState

@[simp] theorem unflagged_lastDial (state : ModemState κ) :
    state.unflagged.lastDial = state.lastDial := rfl

@[simp] theorem unflagged_settings (state : ModemState κ) :
    state.unflagged.settings = state.settings := rfl

theorem dialParsed_unflagged (state : ModemState κ) (parsed : ParsedDial) :
    (state.dialParsed network parsed).unflagged =
      (state.unflagged.dialParsed network parsed).unflagged := by
  unfold ModemState.dialParsed
  split_ifs <;> rfl

/-- No result reads the flags, except to save them. -/
theorem execute_unflagged (state : ModemState κ) (result : AtResult) :
    (execute network state result).unflagged =
      (execute network state.unflagged result).unflagged := by
  cases result with
  | dial target => exact dialParsed_unflagged network _ _
  | redial =>
    by_cases none : state.lastDial = []
    · simp only [execute, unflagged_lastDial, none, if_true]
      rfl
    · simp only [execute, unflagged_lastDial, none, if_false]
      exact dialParsed_unflagged network _ _
  | dialStored slot =>
    by_cases unset : state.settings.storedNumbers slot = []
    · simp only [execute, unflagged_settings, unset, if_true]
      rfl
    · simp only [execute, unflagged_settings, unset, if_false]
      exact dialParsed_unflagged network _ _
  | _ => rfl

theorem executeAll_unflagged (state : ModemState κ) (results : List AtResult) :
    (executeAll network state results).unflagged =
      (executeAll network state.unflagged results).unflagged := by
  induction results generalizing state with
  | nil => rfl
  | cons result results ih =>
    simp only [executeAll]
    split_ifs
    · exact execute_unflagged network state result
    · rw [ih, ih (execute network state.unflagged result), execute_unflagged]

/-- Two states that agree beside the flags still do after the same results. -/
theorem executeAll_congr {state other : ModemState κ} (agree : state.unflagged = other.unflagged)
    (results : List AtResult) :
    (executeAll network state results).unflagged =
      (executeAll network other results).unflagged := by
  rw [executeAll_unflagged, agree, ← executeAll_unflagged]

/-- A line leaves everything but the flags as its subcommands do, if what it drops changes
nothing. -/
theorem executeAll_parseAll_unflagged (subs : List Text) (flags : Flags)
    {state other : ModemState κ} (agree : state.unflagged = other.unflagged)
    (ascii : ∀ sub ∈ subs, sub.all Text.isAscii) (cut : ∀ sub ∈ subs, IsSubcommand sub)
    (quiet : ∀ sub ∈ dropped subs, inert sub) :
    (executeAll network state (parseAll subs flags).1).unflagged =
      (oneByOne network subs other).unflagged := by
  induction subs generalizing state other flags with
  | nil => exact agree
  | cons sub subs ih =>
    have alone := processAtCommand_alone network other (ascii sub (by simp)) (cut sub (by simp))
    have here : (executeAll network state (resultsOf sub)).unflagged =
        (processAtCommand network other ('A' :: 'T' :: sub)).unflagged := by
      rw [alone]
      refine executeAll_congr network ?_ (resultsOf sub)
      exact agree
    simp only [parseAll, oneByOne]
    split_ifs with ends stop stop
    · exact here
    · rw [dropped, if_pos ends, if_neg stop] at quiet
      obtain ⟨text, rest⟩ := oneByOne_inert network subs
        (processAtCommand network other ('A' :: 'T' :: sub))
        (fun later mem => ascii later (by simp [mem])) (fun later mem => cut later (by simp [mem]))
        quiet
      rw [here, rest]
      rfl
    · exact absurd (endsLine_of_stops stop) ends
    · have goesOn : ∀ result ∈ resultsOf sub, result.last = false := by
        intro result mem
        by_contra last
        exact ends (endsLine_of_last mem (by simpa using last))
      rw [executeAll_append network _ _ _ goesOn]
      exact ih _ here (fun later mem => ascii later (by simp [mem]))
        (fun later mem => cut later (by simp [mem])) (dropped_cons subs ends ▸ quiet)

/-! ## The flags -/

/-- One flag of a state, of the profile in memory and of the profile in the file. -/
structure FlagState where
  now : Bool
  memory : Bool
  file : Bool
  deriving DecidableEq

/-- A flag of a state and of its profile. -/
def ModemState.flagState (state : ModemState κ) (flag : Flag) : FlagState :=
  ⟨state.flags.get flag, state.profile.memory.flags.get flag, state.profile.file.flags.get flag⟩

/-- What executing a result does to a flag: a reset puts it back, a save stores it. -/
def AtResult.onFlag (flag : Flag) (result : AtResult) (state : FlagState) : FlagState :=
  match result with
  | .reset => { state with now := Flags.factory.get flag }
  | .resetStored => { state with now := state.memory }
  | .saveConfig => ⟨state.now, state.now, state.now⟩
  | .petsciiSet _ => { state with memory := state.file }
  | _ => state

/-- What executing the results of a subcommand does to a flag. -/
def resultsOnFlag (flag : Flag) (state : FlagState) (sub : Text) : FlagState :=
  (resultsOf sub).foldl (fun state result => result.onFlag flag state) state

/-- What reading a subcommand does to a flag. -/
def setsOnFlag (flag : Flag) (state : FlagState) (sub : Text) : FlagState :=
  (setsOf sub).foldl
    (fun state change => if change.1 = flag then { state with now := change.2 } else state) state

/-- The subcommands of a line that take effect: up to the first that ends it. -/
def running : List Text → List Text
  | [] => []
  | sub :: subs => if endsLine sub then [sub] else sub :: running subs

/-- What is in force of a flag after subcommands were read and executed one by one. -/
def inForce (flag : Flag) (state : FlagState) (subs : List Text) : FlagState :=
  subs.foldl (fun state sub => resultsOnFlag flag (setsOnFlag flag state sub) sub) state

/-- What the resets and saves of subcommands make of a flag when every setting on the line was
made before the first of them. -/
def putBack (flag : Flag) (state : FlagState) (subs : List Text) : FlagState :=
  subs.foldl (resultsOnFlag flag) (subs.foldl (setsOnFlag flag) state)

theorem execute_flagState (state : ModemState κ) (result : AtResult) (flag : Flag) :
    (execute network state result).flagState flag = result.onFlag flag (state.flagState flag) := by
  cases result with
  | dial target =>
    simp only [execute, ModemState.dialParsed]
    split_ifs <;> rfl
  | redial =>
    simp only [execute, ModemState.dialParsed]
    split_ifs <;> rfl
  | dialStored slot =>
    simp only [execute, ModemState.dialParsed]
    split_ifs <;> rfl
  | _ => cases flag <;> rfl

/-- Executing results of which only the final one can be the last. -/
theorem executeAll_flagState (state : ModemState κ) (results : List AtResult) (flag : Flag)
    (goesOn : ∀ result ∈ results.dropLast, result.last = false) :
    (executeAll network state results).flagState flag =
      results.foldl (fun state result => result.onFlag flag state) (state.flagState flag) := by
  induction results generalizing state with
  | nil => rfl
  | cons result results ih =>
    cases results with
    | nil =>
      simp only [executeAll, ite_self, List.foldl_cons, List.foldl_nil]
      exact execute_flagState network state result flag
    | cons next results =>
      have here := goesOn result (by simp)
      rw [executeAll, if_neg (by simp [here]), List.foldl_cons,
        ih _ fun later mem => goesOn later (by simp [mem]), execute_flagState]

/-- Reading a subcommand sets a flag of the state and leaves the profile's alone. -/
theorem setsOnFlag_eq (flag : Flag) (flags : Flags) (memory file : Bool) (sub : Text) :
    setsOnFlag flag ⟨flags.get flag, memory, file⟩ sub =
      ⟨(flags.setAll (setsOf sub)).get flag, memory, file⟩ := by
  unfold setsOnFlag Flags.setAll
  induction setsOf sub generalizing flags with
  | nil => rfl
  | cons change sets ih =>
    rw [List.foldl_cons, List.foldl_cons, ← ih]
    obtain ⟨name, value⟩ := change
    cases name <;> cases flag <;> rfl

/-- A line's results are those of the subcommands that take effect. -/
theorem parseAll_results (subs : List Text) (flags : Flags) :
    (parseAll subs flags).1 = (running subs).flatMap resultsOf := by
  induction subs generalizing flags with
  | nil => rfl
  | cons sub subs ih =>
    simp only [parseAll, running]
    split_ifs
    · simp
    · simp [ih]

/-- A line's flags are those set by the subcommands that take effect. -/
theorem parseAll_flags (flag : Flag) (subs : List Text) (flags : Flags) (memory file : Bool) :
    ⟨(parseAll subs flags).2.get flag, memory, file⟩ =
      (running subs).foldl (setsOnFlag flag) ⟨flags.get flag, memory, file⟩ := by
  induction subs generalizing flags with
  | nil => rfl
  | cons sub subs ih =>
    simp only [parseAll, running]
    split_ifs
    · simp [setsOnFlag_eq]
    · simp [setsOnFlag_eq, ih]

/-- Only the final result of a line can be the last. -/
theorem parseAll_dropLast {subs : List Text} {flags : Flags} {result : AtResult}
    (mem : result ∈ (parseAll subs flags).1.dropLast) : result.last = false := by
  rw [parseAll_results] at mem
  induction subs with
  | nil => simp [running] at mem
  | cons sub subs ih =>
    rw [running] at mem
    split_ifs at mem with ends
    · exact resultsOf_dropLast (by simpa using mem)
    · have goesOn : ∀ result ∈ resultsOf sub, result.last = false := by
        intro result mem
        by_contra last
        exact ends (endsLine_of_last mem (by simpa using last))
      rw [List.flatMap_cons] at mem
      cases behind : (running subs).flatMap resultsOf with
      | nil =>
        rw [behind, List.append_nil] at mem
        exact resultsOf_dropLast mem
      | cons next later =>
        rw [List.dropLast_append_of_ne_nil (by simp [behind]), List.mem_append] at mem
        exact mem.elim (goesOn result) ih

/-- What a whole line makes of a flag. -/
theorem processAtCommand_flagState {cmd : Text} (state : ModemState κ)
    (ascii : cmd.all Text.isAscii) (attention : ['A', 'T'] <+: Text.upper cmd) (flag : Flag) :
    (processAtCommand network state cmd).flagState flag =
      putBack flag (state.flagState flag) (running (subcommandsOf cmd)) := by
  rw [processAtCommand_line network state ascii attention,
    executeAll_flagState network _ _ flag fun result mem => parseAll_dropLast mem,
    parseAll_results, List.foldl_flatMap]
  unfold putBack ModemState.flagState
  rw [← parseAll_flags]
  rfl

/-- What subcommands one by one make of a flag, if those that the line drops change nothing. -/
theorem oneByOne_flagState (subs : List Text) (state : ModemState κ) (flag : Flag)
    (ascii : ∀ sub ∈ subs, sub.all Text.isAscii) (cut : ∀ sub ∈ subs, IsSubcommand sub)
    (quiet : ∀ sub ∈ dropped subs, inert sub) :
    (oneByOne network subs state).flagState flag =
      inForce flag (state.flagState flag) (running subs) := by
  induction subs generalizing state with
  | nil => rfl
  | cons sub subs ih =>
    have alone := processAtCommand_alone network state (ascii sub (by simp)) (cut sub (by simp))
    have here : (processAtCommand network state ('A' :: 'T' :: sub)).flagState flag =
        resultsOnFlag flag (setsOnFlag flag (state.flagState flag) sub) sub := by
      rw [alone, executeAll_flagState network _ _ flag fun result mem => resultsOf_dropLast mem]
      unfold resultsOnFlag ModemState.flagState
      rw [setsOnFlag_eq]
    simp only [oneByOne, running]
    split_ifs with stop ends ends
    · simp [inForce, here]
    · exact absurd (endsLine_of_stops stop) ends
    · rw [dropped, if_pos ends, if_neg stop] at quiet
      obtain ⟨text, rest⟩ := oneByOne_inert network subs
        (processAtCommand network state ('A' :: 'T' :: sub))
        (fun later mem => ascii later (by simp [mem])) (fun later mem => cut later (by simp [mem]))
        quiet
      rw [rest]
      exact here
    · rw [ih _ (fun later mem => ascii later (by simp [mem]))
        (fun later mem => cut later (by simp [mem])) (dropped_cons subs ends ▸ quiet), here]
      rfl

/-! ## When a flag comes out as asked -/

/-- The value a subcommand asks of a flag while it is read. -/
def asks (flag : Flag) (sub : Text) : Option Bool :=
  (setsOf sub).foldl (fun asked change => if change.1 = flag then some change.2 else asked) none

/-- What the resets and saves of subcommands, the last first, put in force of a flag whose settings
were all made before the first of them. -/
def restored (flag : Flag) (state : FlagState) (before : List Text) : Bool :=
  (before.foldr (fun sub state => resultsOnFlag flag state sub) state).now

mutual

/-- Whether a line has a flag in force as asked behind some of its subcommands, the last first, with
what it asks of the flag further on. The last setting asks for what the resets before it put back;
or the last reset, with no setting behind it, is `&F`, or is a `Z` that finds a profile as asked; or
nothing was asked, and what is asked further on is in force already. -/
def kept (flag : Flag) (state : FlagState) (later : Option Bool) : List Text → Bool
  | [] => later.all (· = state.now)
  | sub :: before =>
    if .reset ∈ resultsOf sub then true
    else if .resetStored ∈ resultsOf sub then keptStored flag state later before
    else
      match asks flag sub with
      | some value => restored flag { state with now := later.getD value } before = value
      | none => kept flag state later before

/-- Whether a `Z` behind some subcommands, the last first, finds a profile as asked: nothing was
saved, or the flag was in force as asked when it was saved last. -/
def keptStored (flag : Flag) (state : FlagState) (later : Option Bool) : List Text → Bool
  | [] => true
  | sub :: before =>
    if .saveConfig ∈ resultsOf sub then kept flag state later before
    else keptStored flag state (later.or (asks flag sub)) before

end

/-- A result that resets, saves or reloads a flag. -/
def AtResult.touches : AtResult → Bool
  | .reset | .resetStored | .saveConfig | .petsciiSet _ => true
  | _ => false

theorem onFlag_of_not_touches {result : AtResult} (leaves : result.touches = false) (flag : Flag)
    (state : FlagState) : result.onFlag flag state = state := by
  cases result <;> first | rfl | cases leaves

/-- A subcommand leaves the flags alone, or is `&F`, or has one result and sets nothing. -/
theorem resultsOf_touching (sub : Text) :
    (∀ result ∈ resultsOf sub, result.touches = false) ∨ resultsOf sub = [.reset] ∨
      ∃ result, resultsOf sub = [result] ∧ setsOf sub = [] := by
  have rows : ∀ row ∈ plainSubcommands, (∀ result ∈ row.2.1, result.touches = false) ∨
      row.2.1 = [.reset] ∨ row.2.1.length = 1 ∧ row.2.2 = [] := by decide
  cases found : plainSubcommands.lookup (Text.upper sub) with
  | some row =>
    obtain ⟨inTable, results⟩ := resultsOf_plain found
    have sets : setsOf sub = row.2 := by simp [setsOf, found]
    rw [results, sets]
    obtain leaves | resets | ⟨one, nothing⟩ := rows _ inTable
    · exact .inl leaves
    · exact .inr (.inl resets)
    · obtain ⟨result, only⟩ := List.length_eq_one_iff.mp one
      exact .inr (.inr ⟨result, only, nothing⟩)
  | none =>
    obtain ⟨result, only⟩ := resultsOf_other found
    exact .inr (.inr ⟨result, only, by simp [setsOf, found]⟩)

/-- Reading a subcommand puts in force what it asks. -/
theorem setsOnFlag_asks (flag : Flag) (state : FlagState) (sub : Text) :
    setsOnFlag flag state sub = { state with now := (asks flag sub).getD state.now } := by
  unfold setsOnFlag asks
  have each (asked : Option Bool) :
      (setsOf sub).foldl
          (fun state change => if change.1 = flag then { state with now := change.2 } else state)
          { state with now := asked.getD state.now } =
        let last := (setsOf sub).foldl
          (fun asked change => if change.1 = flag then some change.2 else asked) asked
        { state with now := last.getD state.now } := by
    induction setsOf sub generalizing asked with
    | nil => rfl
    | cons change sets ih =>
      rw [List.foldl_cons, List.foldl_cons, ← ih]
      split_ifs <;> rfl
  exact each none

section Kept

variable (flag : Flag) (state : FlagState)

/-- A flag behind subcommands of a line, the last first, with what the line asks further on. -/
def lineFlag (later : Option Bool) (before : List Text) : FlagState :=
  before.foldr (fun sub state => resultsOnFlag flag state sub)
    { state with
      now := later.getD (before.foldr (fun sub now => (asks flag sub).getD now) state.now) }

/-- A flag behind subcommands one by one, the last first. -/
def singleFlag (before : List Text) : FlagState :=
  before.foldr (fun sub state => resultsOnFlag flag (setsOnFlag flag state sub) sub) state

theorem lineFlag_cons (later : Option Bool) (sub : Text) (before : List Text) :
    lineFlag flag state later (sub :: before) =
      resultsOnFlag flag (lineFlag flag state (later.or (asks flag sub)) before) sub := by
  unfold lineFlag
  cases later <;> rfl

theorem lineFlag_some (value : Bool) (before : List Text) :
    (lineFlag flag state (some value) before).now =
      restored flag { state with now := value } before := rfl

/-- What a subcommand that leaves the flags alone does when it is executed: nothing. -/
theorem resultsOnFlag_of_not_touches {sub : Text}
    (leaves : ∀ result ∈ resultsOf sub, result.touches = false) (state : FlagState) :
    resultsOnFlag flag state sub = state := by
  unfold resultsOnFlag
  generalize resultsOf sub = results at leaves
  induction results generalizing state with
  | nil => rfl
  | cons result results ih =>
    rw [List.foldl_cons, onFlag_of_not_touches (leaves result (by simp))]
    exact ih state fun later mem => leaves later (by simp [mem])

/-- A flag is as asked exactly where the walk from the end of the line says so, and so is what was
saved of it. -/
theorem kept_iff (before : List Text) (later : Option Bool) :
    ((lineFlag flag state later before).now = (singleFlag flag state before).now ↔
      kept flag state later before) ∧
    ((lineFlag flag state later before).memory = (singleFlag flag state before).memory ↔
      keptStored flag state later before) ∧
    ((lineFlag flag state later before).file = (singleFlag flag state before).file ↔
      keptStored flag state later before) := by
  induction before generalizing later with
  | nil => cases later <;> simp [lineFlag, singleFlag, kept, keptStored]
  | cons sub before ih =>
    have single : singleFlag flag state (sub :: before) =
        resultsOnFlag flag (setsOnFlag flag (singleFlag flag state before) sub) sub := rfl
    rw [lineFlag_cons, single, setsOnFlag_asks]
    by_cases leaves : ∀ result ∈ resultsOf sub, result.touches = false
    · have absent : ∀ result : AtResult, result.touches → result ∉ resultsOf sub := by
        intro result touches mem
        rw [leaves result mem] at touches
        cases touches
      obtain ⟨now, memory, file⟩ := ih (later.or (asks flag sub))
      rw [resultsOnFlag_of_not_touches flag leaves, resultsOnFlag_of_not_touches flag leaves, kept,
        keptStored, if_neg (absent .reset rfl), if_neg (absent .resetStored rfl),
        if_neg (absent .saveConfig rfl)]
      refine ⟨?_, memory, file⟩
      cases asked : asks flag sub with
      | some value =>
        have last : later.or (some value) = some (later.getD value) := by cases later <;> rfl
        rw [last, lineFlag_some]
        exact decide_eq_true_iff.symm
      | none => simpa only [asked, Option.or_none, Option.getD_none] using now
    · obtain resets | ⟨result, only, nothing⟩ := (resultsOf_touching sub).resolve_left leaves
      · obtain ⟨_, memory, file⟩ := ih (later.or (asks flag sub))
        simp [kept, keptStored, resultsOnFlag, resets, AtResult.onFlag, memory, file]
      · have unasked : asks flag sub = none := by simp [asks, nothing]
        obtain ⟨now, memory, file⟩ := ih later
        rw [only, List.forall_mem_singleton] at leaves
        cases result with
        | reset =>
          simp [kept, keptStored, resultsOnFlag, only, AtResult.onFlag, unasked, memory, file]
        | resetStored =>
          simp [kept, keptStored, resultsOnFlag, only, AtResult.onFlag, unasked, memory, file]
        | saveConfig => simp [kept, keptStored, resultsOnFlag, only, AtResult.onFlag, unasked, now]
        | petsciiSet n =>
          simp [kept, keptStored, resultsOnFlag, only, AtResult.onFlag, unasked, now, file]
        | _ => exact absurd rfl leaves

/-- What a line makes of a flag, its subcommands taken from the last. -/
theorem putBack_eq (subs : List Text) :
    putBack flag state subs = lineFlag flag state none subs.reverse := by
  have read : ∀ (subs : List Text) (state : FlagState), subs.foldl (setsOnFlag flag) state =
      { state with now := subs.foldl (fun now sub => (asks flag sub).getD now) state.now } := by
    intro subs
    induction subs with
    | nil => exact fun state => rfl
    | cons sub subs ih =>
      intro state
      rw [List.foldl_cons, List.foldl_cons, setsOnFlag_asks, ih]
  rw [putBack, read, lineFlag, List.foldr_reverse, List.foldr_reverse]
  rfl

/-- What subcommands one by one make of a flag, taken from the last. -/
theorem inForce_eq (subs : List Text) :
    inForce flag state subs = singleFlag flag state subs.reverse := by
  rw [inForce, singleFlag, List.foldr_reverse]

end Kept

/-! ## A line and its subcommands -/

/-- What a command line is compared by: the flags, the settings, the number dialled last and the
parked connection. -/
def ModemState.observed (state : ModemState κ) : Flags × Settings × Text × Option κ :=
  (state.flags, state.settings, state.lastDial, state.activeConnection)

theorem observed_eq_iff {state other : ModemState κ} (agree : state.unflagged = other.unflagged) :
    state.observed = other.observed ↔
      ∀ flag, (state.flagState flag).now = (other.flagState flag).now := by
  simp only [ModemState.unflagged, ModemState.mk.injEq] at agree
  simp only [ModemState.observed, agree, Prod.mk.injEq, and_true, ModemState.flagState]
  constructor
  · rintro same flag
    rw [same]
  · intro same
    have ext : ∀ first second : Flags, (∀ flag, first.get flag = second.get flag) →
        first = second := by
      rintro ⟨_, _, _⟩ ⟨_, _, _⟩ each
      simpa [Flags.get] using And.intro (each .echo) (And.intro (each .verbose) (each .quiet))
    exact ext _ _ same

/-- **A chained line does what its subcommands one by one do, except for the flags.** Where nothing
that changes anything is dropped behind an `O1` to `O9`, a whole line and its subcommands one by
one, up to the first that is refused, dials, answers or goes online, leave the same flags, settings,
number dialled last and parked connection exactly when the line keeps each flag: from the end of
what takes effect, the last setting asks for what the resets before it put back, or the last reset
is `&F`, or a `Z` that finds a profile as asked. -/
theorem processAtCommand_chained_iff (state : ModemState κ) (cmd : Text)
    (ascii : cmd.all Text.isAscii) (attention : ['A', 'T'] <+: Text.upper cmd)
    (quiet : ∀ sub ∈ dropped (subcommandsOf cmd), inert sub) :
    (processAtCommand network state cmd).observed =
        (oneByOne network (subcommandsOf cmd) state).observed ↔
      ∀ flag, kept flag (state.flagState flag) none (running (subcommandsOf cmd)).reverse := by
  have cut : ∀ sub ∈ subcommandsOf cmd, IsSubcommand sub := fun sub mem =>
    subcommands_isSubcommand mem
  have subsAscii : ∀ sub ∈ subcommandsOf cmd, sub.all Text.isAscii := by
    intro sub mem
    rw [List.all_eq_true] at ascii ⊢
    exact fun c inSub => ascii c (List.mem_of_mem_drop (mem_of_mem_subcommands mem inSub))
  have agree : (processAtCommand network state cmd).unflagged =
      (oneByOne network (subcommandsOf cmd) state).unflagged := by
    rw [processAtCommand_line network state ascii attention]
    exact executeAll_parseAll_unflagged network _ _ rfl subsAscii cut quiet
  rw [observed_eq_iff agree]
  refine forall_congr' fun flag => ?_
  rw [processAtCommand_flagState network state ascii attention,
    oneByOne_flagState network _ state flag subsAscii cut quiet, putBack_eq, inForce_eq]
  exact (kept_iff flag (state.flagState flag) _ none).1

end Execute

/-- A modem with echo on in its profile, and nothing else of note. -/
def echoingModem : ModemState Unit :=
  { flags := .factory
    settings := ⟨sRegDefaults, 4, 0, 0, 1, false, fun _ => []⟩
    lastDial := []
    activeConnection := none
    lastCommand := []
    profile :=
      ⟨⟨.factory, [], 4, 0, 0, 1, fun _ => [], false⟩,
        ⟨.factory, [], 4, 0, 0, 1, fun _ => [], false⟩⟩ }

/-- A network on which no call leaves a connection. -/
def deadNetwork : Network Unit := ⟨fun _ _ => none, fun _ _ => none⟩

/-- `ATZE0` leaves echo on, and `ATZ` and then `ATE0` turn it off. -/
theorem processAtCommand_resetThenSet :
    (processAtCommand deadNetwork echoingModem ['A', 'T', 'Z', 'E', '0']).flags.echo = true ∧
      subcommandsOf ['A', 'T', 'Z', 'E', '0'] = [['Z'], ['E', '0']] ∧
      (oneByOne deadNetwork (subcommandsOf ['A', 'T', 'Z', 'E', '0'])
        echoingModem).flags.echo = false := by
  decide

/-- `ATE0&WE1ZE0O3I` is as its subcommands: the profile that `Z` restores was saved with the echo
off that is asked for last, and the `O3` drops a query only. -/
theorem processAtCommand_chained_iff_saved :
    (processAtCommand deadNetwork echoingModem "ATE0&WE1ZE0O3I".toList).observed =
      (oneByOne deadNetwork (subcommandsOf "ATE0&WE1ZE0O3I".toList) echoingModem).observed :=
  (processAtCommand_chained_iff deadNetwork echoingModem "ATE0&WE1ZE0O3I".toList (by decide)
    (by decide) (by decide)).2 fun flag => by cases flag <;> decide

end EthernetGateway.Serial
