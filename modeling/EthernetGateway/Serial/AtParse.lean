import EthernetGateway.Text

/-!
# Reading an AT command line

A command line is `AT` and any number of subcommands, with or without spaces between them.
`splitAtSubcommand` says how far the next one reaches, `parseOneAtSubcommand` turns it into
results, and `parseAtCommand` strings them together until one is refused or ends the line. The
echo, verbose and quiet flags are set while the line is read; everything else a subcommand asks
for is a result to be executed afterwards.
-/

namespace EthernetGateway.Serial

/-- The number of S-registers. -/
abbrev numSRegs : Nat := 27

/-- A subcommand's flag: echo, verbose or quiet. -/
inductive Flag where
  | echo
  | verbose
  | quiet
  deriving DecidableEq

/-- The flags of `ModemState` that are set while a line is read. -/
structure Flags where
  /-- Echo the characters of a command. -/
  echo : Bool
  /-- Result codes as words. -/
  verbose : Bool
  /-- No result codes at all. -/
  quiet : Bool
  deriving DecidableEq

namespace Flags

/-- One of the flags. -/
def get (flags : Flags) : Flag → Bool
  | .echo => flags.echo
  | .verbose => flags.verbose
  | .quiet => flags.quiet

/-- Set one of the flags. -/
def set (flags : Flags) (value : Bool) : Flag → Flags
  | .echo => { flags with echo := value }
  | .verbose => { flags with verbose := value }
  | .quiet => { flags with quiet := value }

/-- Set flags one after the other. -/
def setAll (flags : Flags) (sets : List (Flag × Bool)) : Flags :=
  sets.foldl (fun flags change => flags.set change.2 change.1) flags

/-- What `AT&F` makes of the flags. -/
def factory : Flags := ⟨true, true, false⟩

end Flags

/-- `AtResult`. -/
inductive AtResult where
  | ok
  | error
  | noCarrier
  | info (text : String)
  | dial (target : Text)
  | online
  | hangup
  | reset
  | resetStored
  | saveConfig
  | sRegQuery (reg : Fin numSRegs)
  | sRegSet (reg : Fin numSRegs) (value : UInt8)
  | showConfig
  | redial
  | help
  | sRegHelp
  | xSet (n : UInt8)
  | dcdSet (n : UInt8)
  | dtrSet (n : UInt8)
  | flowSet (n : UInt8)
  | storeNumber (slot : Fin 4) (value : Text)
  | dialStored (slot : Fin 4)
  | petsciiSet (n : UInt8)
  deriving DecidableEq

/-! ## Cutting a line -/

/-- Whether a text has a digit at a position. -/
def digitAt (rest : Text) (i : Nat) : Bool := rest[i]?.any Text.isDigit

/-- `split_at_subcommand` from behind a register's number: how many characters the question mark,
or the equals sign, blanks and digits, have there. -/
def sRegisterTail : Text → Nat
  | [] => 0
  | c :: value =>
    if c = '?' then 1
    else if c = '=' then
      let blanks := value.takeWhile (· = ' ')
      let digits := (value.dropWhile (· = ' ')).takeWhile Text.isDigit
      blanks.length + digits.length + 1
    else 0

/-- `split_at_subcommand` from behind the `S` of a register subcommand: how many characters it
has there. -/
def sRegisterLength (rest : Text) : Nat :=
  (rest.takeWhile Text.isDigit).length + sRegisterTail (rest.dropWhile Text.isDigit)

/-- `split_at_subcommand`: how many characters the next subcommand covers, and whether it ends
the line. -/
def splitAtSubcommand : Text → Nat × Bool
  | [] => (0, false)
  | c :: rest =>
    if c = 'D' then (rest.length + 1, true)
    else if c = 'A' then (1, true)
    else if c = 'O' then (if digitAt rest 0 then 2 else 1, true)
    else if c = '&' ∧ rest.head? = some 'Z' then (rest.length + 1, true)
    else if c = '&' then (if digitAt rest 1 then 3 else if rest ≠ [] then 2 else 1, false)
    else if c = '+' then (rest.length + 1, false)
    else if c = 'S' then (sRegisterLength rest + 1, false)
    else if c = '?' then (1, false)
    else (if digitAt rest 0 then 2 else 1, false)

/-! ## One subcommand -/

/-- The version `ATI` reports, `CARGO_PKG_VERSION`. -/
def packageVersion : String := "1.0.6"

/-- The arms of `parse_one_at_subcommand` for one text each: the results, and the flags set. -/
def plainSubcommands : List (Text × List AtResult × List (Flag × Bool)) :=
  [(['Z'], [.resetStored], []), (['Z', '0'], [.resetStored], []),
    (['Z', '1'], [.resetStored], []),
    (['H'], [.hangup], []), (['H', '0'], [.hangup], []),
    (['E'], [.ok], [(.echo, false)]), (['E', '0'], [.ok], [(.echo, false)]),
    (['E', '1'], [.ok], [(.echo, true)]),
    (['V'], [.ok], [(.verbose, false)]), (['V', '0'], [.ok], [(.verbose, false)]),
    (['V', '1'], [.ok], [(.verbose, true)]),
    (['Q'], [.ok], [(.quiet, false)]), (['Q', '0'], [.ok], [(.quiet, false)]),
    (['Q', '1'], [.ok], [(.quiet, true)]),
    (['I'], [.info ("Hayes-compatible Ethernet Gateway Modem Emulator v" ++ packageVersion), .ok],
      []),
    (['I', '0'],
      [.info ("Hayes-compatible Ethernet Gateway Modem Emulator v" ++ packageVersion), .ok], []),
    (['I', '1'], [.info "000", .ok], []),
    (['I', '2'], [.ok], []),
    (['I', '3'], [.info ("Ethernet Gateway v" ++ packageVersion ++ " (Hayes-compatible)"), .ok],
      []),
    (['I', '4'], [.info "Hayes-compatible virtual modem over TCP", .ok], []),
    (['I', '5'], [.info "B00", .ok], []),
    (['I', '6'], [.info "No link diagnostics available", .ok], []),
    (['I', '7'], [.info "Product: ethernetgateway (software emulator)", .ok], []),
    (['?'], [.help], []),
    (['O'], [.online], []), (['O', '0'], [.online], []),
    (['A'], [.noCarrier], []),
    (['&', 'F'], [.reset], [(.echo, true), (.verbose, true), (.quiet, false)]),
    (['&', 'W'], [.saveConfig], []), (['&', 'W', '0'], [.saveConfig], []),
    (['&', 'V'], [.showConfig], []),
    (['X'], [.xSet 0], []), (['X', '0'], [.xSet 0], []), (['X', '1'], [.xSet 1], []),
    (['X', '2'], [.xSet 2], []), (['X', '3'], [.xSet 3], []), (['X', '4'], [.xSet 4], []),
    (['&', 'C'], [.dcdSet 0], []), (['&', 'C', '0'], [.dcdSet 0], []),
    (['&', 'C', '1'], [.dcdSet 1], []),
    (['&', 'D'], [.dtrSet 0], []), (['&', 'D', '0'], [.dtrSet 0], []),
    (['&', 'D', '1'], [.dtrSet 1], []), (['&', 'D', '2'], [.dtrSet 2], []),
    (['&', 'D', '3'], [.dtrSet 3], []),
    (['&', 'K'], [.flowSet 0], []), (['&', 'K', '0'], [.flowSet 0], []),
    (['&', 'K', '1'], [.flowSet 1], []), (['&', 'K', '3'], [.flowSet 3], []),
    (['&', 'K', '4'], [.flowSet 4], []),
    (['+', 'P', 'E', 'T', 'S', 'C', 'I', 'I', '=', '0'], [.petsciiSet 0], []),
    (['+', 'P', 'E', 'T', 'S', 'C', 'I', 'I', '=', '1'], [.petsciiSet 1], [])]

/-- The arm of `&Zn=s`: store a number in a slot. -/
def storeNumberResult (upper orig : Text) : AtResult :=
  let after := upper.drop 2
  let slot := after.takeWhile (· ≠ '=')
  if slot.length = after.length ∨ slot = [] then .error
  else
    match Text.parseUnsigned (2 ^ 64) slot with
    | none => .error
    | some n =>
      if bound : n < 4 then
        .storeNumber ⟨n, bound⟩ (Text.trim (orig.drop (2 + slot.length + 1)))
      else .error

/-- The arms of `S?`, `Sn?` and `Sn=v`. -/
def sRegisterResult (upper : Text) : AtResult :=
  let rest := upper.drop 1
  let asked := rest.takeWhile (· ≠ '?')
  let named := rest.takeWhile (· ≠ '=')
  if rest = ['?'] then .sRegHelp
  else if asked.length < rest.length then
    match Text.parseUnsigned (2 ^ 64) asked with
    | none => .error
    | some reg => if bound : reg < numSRegs then .sRegQuery ⟨reg, bound⟩ else .error
  else if named.length < rest.length then
    match Text.parseUnsigned (2 ^ 64) named,
        Text.parseUnsigned (2 ^ 16) (Text.trim (rest.drop (named.length + 1))) with
    | some reg, some value =>
      if bound : reg < numSRegs then
        if value ≤ 255 then .sRegSet ⟨reg, bound⟩ (.ofNat value) else .error
      else .error
    | _, _ => .error
  else .error

/-- The arms of `DL`, `DSn` and the other dial commands. -/
def dialResult (upper orig : Text) : AtResult :=
  let slot := Text.trim (upper.drop 2)
  if upper = ['D', 'L'] then .redial
  else if ['D', 'S'] <+: upper ∧ slot.all Text.isDigit then
    if slot = [] then .dialStored ⟨0, Nat.succ_pos 3⟩
    else
      match Text.parseUnsigned (2 ^ 64) slot with
      | none => .error
      | some n => if bound : n < 4 then .dialStored ⟨n, bound⟩ else .error
  else
    let target :=
      Text.trim (orig.drop (if ['D', 'T'] <+: upper ∨ ['D', 'P'] <+: upper then 2 else 1))
    if target = [] then .error else .dial target

/-- `parse_one_at_subcommand`: the results of a subcommand and the flags it leaves. -/
def parseOneAtSubcommand (upper orig : Text) (flags : Flags) : List AtResult × Flags :=
  match plainSubcommands.lookup upper with
  | some (results, sets) => (results, flags.setAll sets)
  | none =>
    if ['&', 'Z'] <+: upper then ([storeNumberResult upper orig], flags)
    else if ['S'] <+: upper ∧ 1 < upper.length then ([sRegisterResult upper], flags)
    else if ['D'] <+: upper then ([dialResult upper orig], flags)
    else ([.ok], flags)

/-! ## A line -/

/-- The loop of `parse_at_command`, with a bound on its turns: the results of the subcommands of
what is left of a line, up to the first that is refused or ends it, and the flags then. -/
def parseSubcommands : Nat → Text → Flags → List AtResult × Flags
  | 0, _, flags => ([], flags)
  | turns + 1, rest, flags =>
    let rest := rest.dropWhile (· = ' ')
    if rest = [] then ([], flags)
    else
      let cut := splitAtSubcommand (Text.upper rest)
      let token := rest.take cut.1
      let sub := parseOneAtSubcommand (Text.upper token) token flags
      if AtResult.error ∈ sub.1 ∨ cut.2 then sub
      else
        let more := parseSubcommands turns (rest.drop cut.1) sub.2
        (sub.1 ++ more.1, more.2)

/-- `parse_at_command`: the results of a line and the flags it leaves. Every subcommand has a
character at least, so the line's length bounds the turns. -/
def parseAtCommand (cmd : Text) (flags : Flags) : List AtResult × Flags :=
  if ¬cmd.all Text.isAscii then ([.error], flags)
  else if Text.upper cmd = ['A', 'T'] then ([.ok], flags)
  else if ¬['A', 'T'] <+: Text.upper cmd then ([.error], flags)
  else
    let parsed := parseSubcommands cmd.length (cmd.drop 2) flags
    if parsed.1 = [] then ([.ok], parsed.2) else parsed

end EthernetGateway.Serial
