import EthernetGateway.Words
import EthernetGateway.Utf8

/-!
# The commands of a relay channel

A slave asks its master for a relay by a command of words, and registers a port by another. The
master reads the words back, and keeps of a peer's words only short plain ones.
-/

namespace EthernetGateway.Relay

/-! ## Tokens from the wire -/

/-- `WIRE_TOKEN_MAX`. -/
def wireTokenMax : Nat := 32

/-- `is_wire_token_char`. -/
def isWireTokenChar (c : Char) : Bool := c.isAlphanum || c = '-' || c = '.' || c = '_'

/-- `wire_token`: a word that may be kept and shown, refused whole where it may not. -/
def wireToken (word : Text) : Option Text :=
  if word ≠ [] ∧ (Text.toUtf8 word).length ≤ wireTokenMax ∧ word.all isWireTokenChar then some word
  else none

/-- `str::strip_prefix`: what follows a text at the front. -/
def strip (front text : Text) : Option Text :=
  if front.isPrefixOf text then some (text.drop front.length) else none

/-! ## Asking for a relay -/

/-- `RelayTarget`: what a relayed call connects to on the master. -/
inductive RelayTarget where
  /-- Its menu. -/
  | menu
  /-- An address for it to dial. -/
  | dial (host : Text) (port : UInt16)
  /-- One of its ports, as it was dialed. -/
  | peer (addr : Text)
  /-- Its Kermit server. -/
  | kermit
  deriving DecidableEq

/-- The host as the command writes it: an address with colons stands in brackets. -/
def writtenHost (host : Text) : Text := if ':' ∈ host then '[' :: (host ++ [']']) else host

/-- The target as the command writes it. -/
def RelayTarget.written : RelayTarget → Text
  | menu => "menu".toList
  | dial host port => "dial ".toList ++ (writtenHost host ++ ':' :: Text.ofNat port.toNat)
  | peer addr => "peer ".toList ++ addr
  | kermit => "kermit".toList

/-- `RelayTarget::exec_command`. -/
def RelayTarget.execCommand (target : RelayTarget) (portLabel : Text) : Text :=
  "serial-relay ".toList ++ (portLabel ++ ' ' :: target.written)

/-- `ParsedRelay`. -/
structure ParsedRelay where
  /-- The slave's port. -/
  portLabel : Text
  /-- The address to dial onward. -/
  dial : Option (Text × UInt16)
  /-- The port to call. -/
  peer : Option Text
  /-- The slave wants the Kermit server. -/
  kermit : Bool
  deriving DecidableEq

/-- The port number of a dial target: a number of sixteen bits other than zero. -/
def dialPort (text : Text) : Option UInt16 :=
  match Text.parseUnsigned 65536 text with
  | none => none
  | some port => if port = 0 then none else some (UInt16.ofNat port)

/-- `split_dial_host_port`. -/
def splitDialHostPort (text : Text) : Option (Text × UInt16) :=
  match Text.trim text with
  | '[' :: rest =>
    match Text.splitOnce ']' rest with
    | none => none
    | some (host, after) =>
      match strip [':'] after with
      | none => none
      | some port => (dialPort port).map fun port => (host, port)
  | text =>
    match Text.rsplitOnce ':' text with
    | none => none
    | some (host, port) =>
      -- a colon left in the host is an address that should have stood in brackets
      if ':' ∈ host then none else (dialPort port).map fun port => (host, port)

/-- `RelayRefusal`. -/
inductive RelayRefusal where
  | notRelay
  | badLabel
  | malformed
  deriving DecidableEq

/-- `RelayRefusal::reason`. -/
def RelayRefusal.reason : RelayRefusal → Text
  | notRelay => "only serial-relay is allowed".toList
  | badLabel => "the port label is not a short plain word".toList
  | malformed => "unknown target or unusable address".toList

/-- The label of a relay command, where it may be kept; one that is absent is the master's own. -/
def relayLabel : Option Text → Except RelayRefusal Text
  | none => .ok ['?']
  | some word => match wireToken word with
    | none => .error .badLabel
    | some label => .ok label

/-- The target of a relay command. -/
def relayTarget (portLabel : Text) : List Text → Except RelayRefusal ParsedRelay
  | [] => .ok ⟨portLabel, none, none, false⟩
  | word :: rest =>
    if word = "menu".toList then .ok ⟨portLabel, none, none, false⟩
    else if word = "dial".toList then
      match rest.head?.bind splitDialHostPort with
      | none => .error .malformed
      | some address => .ok ⟨portLabel, some address, none, false⟩
    else if word = "peer".toList then
      match rest.head? with
      | none => .error .malformed
      | some addr => .ok ⟨portLabel, none, some addr, false⟩
    else if word = "kermit".toList then .ok ⟨portLabel, none, none, true⟩
    else .error .malformed

/-- `parse_relay_command`. -/
def parseRelayCommand (command : Text) : Except RelayRefusal ParsedRelay :=
  match Text.splitWhitespace command with
  | [] => .error .notRelay
  | word :: rest =>
    if word ≠ "serial-relay".toList then .error .notRelay
    else
      match relayLabel rest.head? with
      | .error why => .error why
      | .ok portLabel => relayTarget portLabel rest.tail

/-! ## Registering a port -/

/-- `RemotePortFacts`: what the wire told of a port, beyond where it is. -/
structure RemotePortFacts where
  /-- Its mode. -/
  mode : Option Text
  /-- Its erase key. -/
  erase : Option Text
  deriving DecidableEq

/-- The command `connect_master_register` sends. -/
def registerCommand (portLabel mode erase : Text) : Text :=
  "serial-register ".toList ++ (portLabel ++ ' ' :: (mode ++ ' ' :: erase))

/-- `parse_register_args`: a label, empty where it may not be kept, and the facts. -/
def parseRegisterArgs (rest : Text) : Text × RemotePortFacts :=
  let words := Text.splitWhitespace rest
  ((words[0]?.bind wireToken).getD [], ⟨words[1]?.bind wireToken, words[2]?.bind wireToken⟩)

/-- What `exec_request` makes of a command before it looks at the master's settings; an enrolment is
read elsewhere. -/
inductive Exec where
  /-- A port to register. -/
  | register (portLabel : Text) (facts : RemotePortFacts)
  /-- A key to enrol, with the words after the command. -/
  | enroll (rest : Text)
  /-- A relay, or the reason it is refused. -/
  | relay (parsed : Except RelayRefusal ParsedRelay)

/-- The head of `exec_request`. -/
def execRequest (data : List UInt8) : Exec :=
  let command := Text.trim (Text.fromUtf8Lossy data)
  match strip "serial-register ".toList command with
  | some rest =>
    let args := parseRegisterArgs rest
    .register args.1 args.2
  | none =>
    match strip "enroll-key ".toList command with
    | some rest => .enroll rest
    | none => .relay (parseRelayCommand command)

/-! ## What is kept -/

/-- A word that may be kept and shown: short, and of plain characters. -/
structure Plain (word : Text) : Prop where
  /-- It says something. -/
  ne_nil : word ≠ []
  /-- It is short. -/
  short : (Text.toUtf8 word).length ≤ wireTokenMax
  /-- Its characters are letters, digits and three marks. -/
  chars : ∀ c ∈ word, isWireTokenChar c = true

/-- A word is kept as it is, where it may be kept. -/
theorem wireToken_eq_some {word kept : Text} :
    wireToken word = some kept ↔ word = kept ∧ Plain kept := by
  rw [wireToken]
  split_ifs with usable
  · rw [Option.some.injEq]
    exact ⟨fun same => ⟨same, same ▸ ⟨usable.1, usable.2.1, List.all_eq_true.mp usable.2.2⟩⟩,
      And.left⟩
  · refine ⟨False.elim, ?_⟩
    rintro ⟨rfl, plain⟩
    exact absurd ⟨plain.ne_nil, plain.short, List.all_eq_true.mpr plain.chars⟩ usable

/-- A plain word is kept. -/
theorem Plain.wireToken {word : Text} (plain : Plain word) : wireToken word = some word :=
  wireToken_eq_some.mpr ⟨rfl, plain⟩

/-- A plain character is no whitespace. -/
theorem isWhitespace_of_isWireTokenChar {c : Char} (plain : isWireTokenChar c = true) :
    Text.isWhitespace c = false := by
  have range : c.toNat = 45 ∨ c.toNat = 46 ∨ c.toNat = 95 ∨ 48 ≤ c.toNat ∧ c.toNat ≤ 57 ∨
      65 ≤ c.toNat ∧ c.toNat ≤ 90 ∨ 97 ≤ c.toNat ∧ c.toNat ≤ 122 := by
    simp only [isWireTokenChar, Char.isAlphanum, Char.isAlpha, Char.isUpper, Char.isLower,
      Char.isDigit, Bool.or_eq_true, Bool.and_eq_true, decide_eq_true_eq, ge_iff_le,
      UInt32.le_iff_toNat_le, Char.reduceVal, UInt32.reduceToNat, ← Char.toNat_inj,
      Char.reduceToNat] at plain
    simp only [Char.toNat] at *
    omega
  simp only [Text.isWhitespace, Bool.or_eq_false_iff, Bool.and_eq_false_iff,
    decide_eq_false_iff_not]
  omega

/-- A plain word is one word. -/
theorem Plain.isWord {word : Text} (plain : Plain word) : Text.IsWord word :=
  ⟨plain.ne_nil, fun c member => isWhitespace_of_isWireTokenChar (plain.chars c member)⟩

/-- The label and the facts the master takes from a command, to store and show them: a registration
without a label is refused. -/
def Exec.kept : Exec → List Text
  | register portLabel facts =>
    if portLabel = [] then [] else portLabel :: (facts.mode.toList ++ facts.erase.toList)
  | enroll _ => []
  | relay (.ok parsed) => [parsed.portLabel]
  | relay (.error _) => []

/-- A label is the master's own, for want of a word, or a plain word of the slave's. -/
theorem relayLabel_ok {word : Option Text} {portLabel : Text}
    (read : relayLabel word = .ok portLabel) :
    (word = none ∧ portLabel = ['?']) ∨ (word = some portLabel ∧ Plain portLabel) := by
  cases word with
  | none => exact .inl ⟨rfl, (Except.ok.inj read).symm⟩
  | some word =>
    rw [relayLabel] at read
    split at read
    · cases read
    · next label token =>
      obtain ⟨rfl, plain⟩ := wireToken_eq_some.mp token
      cases read
      exact .inr ⟨rfl, plain⟩

/-- The target is read beside the label. -/
theorem relayTarget_label {portLabel : Text} {words : List Text} {parsed : ParsedRelay}
    (read : relayTarget portLabel words = .ok parsed) : parsed.portLabel = portLabel := by
  cases words with
  | nil => cases read; rfl
  | cons word rest =>
    simp only [relayTarget] at read
    split_ifs at read
    · cases read; rfl
    · split at read <;> cases read
      rfl
    · split at read <;> cases read
      rfl
    · cases read; rfl

/-- The words a relay command is read from, and its label. -/
theorem parseRelayCommand_ok {command : Text} {parsed : ParsedRelay}
    (read : parseRelayCommand command = .ok parsed) : ∃ rest,
      Text.splitWhitespace command = "serial-relay".toList :: rest ∧
        relayLabel rest.head? = .ok parsed.portLabel ∧
        relayTarget parsed.portLabel rest.tail = .ok parsed := by
  rw [parseRelayCommand] at read
  split at read
  · cases read
  · next word rest words =>
    split_ifs at read with named
    rw [ne_eq, not_not] at named
    split at read
    · cases read
    · next portLabel label =>
      have same := relayTarget_label read
      rw [← same] at label read
      exact ⟨rest, by rw [words, named], label, read⟩

/-! ## Reading a command back -/

/-- A text that starts with another. -/
theorem strip_eq_some {front text rest : Text} :
    strip front text = some rest ↔ text = front ++ rest := by
  rw [strip]
  split_ifs with starts
  · obtain ⟨tail, rfl⟩ := List.isPrefixOf_iff_prefix.mp starts
    simp
  · refine ⟨False.elim, ?_⟩
    rintro rfl
    exact starts (List.isPrefixOf_iff_prefix.mpr (List.prefix_append _ _))

/-- The word of a relay command. -/
theorem serialRelay_isWord : Text.IsWord "serial-relay".toList :=
  ⟨by simp, by simp [Text.isWhitespace]⟩

/-- The word of a registration. -/
theorem serialRegister_isWord : Text.IsWord "serial-register".toList :=
  ⟨by simp, by simp [Text.isWhitespace]⟩

/-- The word of an enrolment. -/
theorem enrollKey_isWord : Text.IsWord "enroll-key".toList :=
  ⟨by simp, by simp [Text.isWhitespace]⟩

/-- A command that starts with a word and a space has it as its first word. -/
theorem head?_splitWhitespace_of_strip {word text rest : Text} (isWord : Text.IsWord word)
    (found : strip (word ++ [' ']) text = some rest) :
    (Text.splitWhitespace text).head? = some word := by
  have whole : text = word ++ ' ' :: rest := by simpa using strip_eq_some.mp found
  rw [whole, Text.splitWhitespace_cons isWord, List.head?_cons]

/-- Whitespace around a relay command changes nothing. -/
theorem parseRelayCommand_trim (command : Text) :
    parseRelayCommand (Text.trim command) = parseRelayCommand command := by
  rw [parseRelayCommand, Text.splitWhitespace_trim, ← parseRelayCommand]

/-- A command whose first word asks for a relay is read as one. -/
theorem execRequest_relay {command : Text}
    (first : (Text.splitWhitespace command).head? = some "serial-relay".toList) :
    execRequest (Text.toUtf8 command) = .relay (parseRelayCommand command) := by
  have other : ∀ {word rest : Text}, Text.IsWord word → word ≠ "serial-relay".toList →
      strip (word ++ [' ']) (Text.trim command) ≠ some rest := by
    intro word rest isWord differs found
    have head := head?_splitWhitespace_of_strip isWord found
    rw [Text.splitWhitespace_trim, first] at head
    exact differs (Option.some.inj head).symm
  rw [execRequest, Text.fromUtf8Lossy_toUtf8]
  simp only
  split
  · next found => exact absurd found (other serialRegister_isWord (by decide))
  · split
    · next found => exact absurd found (other enrollKey_isWord (by decide))
    · rw [parseRelayCommand_trim]

/-- What the master makes of a target, as the slave means it. -/
def RelayTarget.parsed (target : RelayTarget) (portLabel : Text) : ParsedRelay :=
  match target with
  | menu => ⟨portLabel, none, none, false⟩
  | dial host port => ⟨portLabel, some (host, port), none, false⟩
  | peer addr => ⟨portLabel, none, some addr, false⟩
  | kermit => ⟨portLabel, none, none, true⟩

/-- An address a command can carry: a port, and a host without whitespace; one with colons has no
closing bracket, and one without does not start with an opening one. -/
structure Dialable (host : Text) (port : UInt16) : Prop where
  /-- The port is a port. -/
  port_ne_zero : port ≠ 0
  /-- The host is one word with what is written around it. -/
  solid : ∀ c ∈ host, Text.isWhitespace c = false
  /-- The brackets of a host with colons end where they should. -/
  closed : ':' ∈ host → ']' ∉ host
  /-- A host without colons is not taken for one in brackets. -/
  opened : ':' ∉ host → host.head? ≠ some '['

/-- A target that a command can carry. -/
def RelayTarget.Sendable : RelayTarget → Prop
  | dial host port => Dialable host port
  | peer addr => Text.IsWord addr
  | _ => True

/-! ### Addresses -/

/-- The port of an address is written in digits, and read back where it is a port. -/
theorem dialPort_ofNat (port : UInt16) :
    dialPort (Text.ofNat port.toNat) = if port = 0 then none else some port := by
  have small : port.toNat < 65536 := port.toNat_lt
  rw [dialPort, Text.parseUnsigned_ofNat small]
  have zero : port.toNat = 0 ↔ port = 0 := by rw [← UInt16.toNat_inj]; rfl
  simp only [zero, UInt16.ofNat_toNat]

/-- A digit is neither whitespace nor a mark of an address. -/
theorem digit_apart {c : Char} (digit : Text.isDigit c = true) :
    Text.isWhitespace c = false ∧ c ≠ ':' := by
  simp only [Text.isDigit, Bool.and_eq_true, decide_eq_true_eq] at digit
  constructor
  · simp only [Text.isWhitespace, Bool.or_eq_false_iff, Bool.and_eq_false_iff,
      decide_eq_false_iff_not]
    omega
  · rintro rfl
    exact absurd digit.2 (by decide)

/-- The target of a dial as it is written. -/
def writtenAddress (host : Text) (port : UInt16) : Text :=
  writtenHost host ++ ':' :: Text.ofNat port.toNat

/-- An address in brackets is read back. -/
theorem splitDialHostPort_brackets {host : Text} (closed : ']' ∉ host) {port : Text}
    (solid : Text.IsWord ('[' :: (host ++ ']' :: ':' :: port))) :
    splitDialHostPort ('[' :: (host ++ ']' :: ':' :: port)) =
      (dialPort port).map fun port => (host, port) := by
  rw [splitDialHostPort, solid.trim]
  simp only [Text.splitOnce_part closed, strip]
  rfl

/-- An address without brackets is read back. -/
theorem splitDialHostPort_plain {host port : Text} (bare : ':' ∉ host) (free : ':' ∉ port)
    (opened : host.head? ≠ some '[') (solid : Text.IsWord (host ++ ':' :: port)) :
    splitDialHostPort (host ++ ':' :: port) = (dialPort port).map fun port => (host, port) := by
  rw [splitDialHostPort, solid.trim]
  split
  · next rest starts =>
    cases host with
    | nil => cases starts
    | cons c host =>
      cases starts
      exact absurd rfl opened
  · simp only [Text.rsplitOnce_part free, if_neg bare]

/-- An address that can be carried is read back. -/
theorem splitDialHostPort_written {host : Text} {port : UInt16} (dialable : Dialable host port) :
    Text.IsWord (writtenAddress host port) ∧
      splitDialHostPort (writtenAddress host port) = some (host, port) := by
  have digits : ∀ c ∈ Text.ofNat port.toNat, Text.isWhitespace c = false ∧ c ≠ ':' :=
    fun c member => digit_apart (Text.isDigit_of_mem_ofNat member)
  have free : ':' ∉ Text.ofNat port.toNat := fun member => (digits _ member).2 rfl
  have number : dialPort (Text.ofNat port.toNat) = some port := by
    rw [dialPort_ofNat, if_neg dialable.port_ne_zero]
  by_cases colons : ':' ∈ host
  · have whole : writtenAddress host port =
        '[' :: (host ++ ']' :: ':' :: Text.ofNat port.toNat) := by
      simp [writtenAddress, writtenHost, colons]
    have isWord : Text.IsWord ('[' :: (host ++ ']' :: ':' :: Text.ofNat port.toNat)) := by
      refine ⟨by simp, fun c member => ?_⟩
      simp only [List.mem_cons, List.mem_append] at member
      rcases member with rfl | inside | rfl | rfl | digit
      · rfl
      · exact dialable.solid c inside
      · rfl
      · rfl
      · exact (digits c digit).1
    rw [whole, splitDialHostPort_brackets (dialable.closed colons) isWord, number]
    exact ⟨isWord, rfl⟩
  · have whole : writtenAddress host port = host ++ ':' :: Text.ofNat port.toNat := by
      simp [writtenAddress, writtenHost, colons]
    have isWord : Text.IsWord (host ++ ':' :: Text.ofNat port.toNat) := by
      refine ⟨by simp, fun c member => ?_⟩
      simp only [List.mem_cons, List.mem_append] at member
      rcases member with inside | rfl | digit
      · exact dialable.solid c inside
      · rfl
      · exact (digits c digit).1
    rw [whole, splitDialHostPort_plain colons free (dialable.opened colons) isWord, number]
    exact ⟨isWord, rfl⟩

/-- What a port number is read from. -/
theorem dialPort_some {text : Text} {port : UInt16} (read : dialPort text = some port) :
    port ≠ 0 := by
  rw [dialPort] at read
  split at read
  · cases read
  · next number parsed =>
    split_ifs at read with zero
    cases read
    intro none
    have small : number < 65536 := by
      simp only [Text.parseUnsigned] at parsed
      generalize (if text.head? = some '+' then text.tail else text) = digits at parsed
      split_ifs at parsed with usable
      rw [← Option.some.inj parsed]
      exact usable.2.2
    have same := congrArg UInt16.toNat none
    rw [UInt16.toNat_ofNat', Nat.mod_eq_of_lt small] at same
    exact zero same

/-- What an address read from a word looks like: it stands in brackets, which its host does not
close, or its host has no colon. -/
theorem splitDialHostPort_some {word host : Text} {port : UInt16} (isWord : Text.IsWord word)
    (read : splitDialHostPort word = some (host, port)) :
    port ≠ 0 ∧ ∃ digits, (word = '[' :: (host ++ ']' :: ':' :: digits) ∧ ']' ∉ host) ∨
      (word = host ++ ':' :: digits ∧ ':' ∉ host ∧ host.head? ≠ some '[') := by
  rw [splitDialHostPort, isWord.trim] at read
  split at read
  · next rest =>
    split at read
    · cases read
    · next before after parted =>
      split at read
      · cases read
      · next digits found =>
        obtain ⟨number, parsed, same⟩ := Option.map_eq_some_iff.mp read
        cases same
        obtain ⟨closed, rfl⟩ := Text.splitOnce_eq_some parted
        obtain rfl := strip_eq_some.mp found
        exact ⟨dialPort_some parsed, digits, .inl ⟨rfl, closed⟩⟩
  · next other =>
    split at read
    · cases read
    · next before digits parted =>
      split_ifs at read with colons
      obtain ⟨number, parsed, same⟩ := Option.map_eq_some_iff.mp read
      cases same
      obtain ⟨-, rfl⟩ := Text.rsplitOnce_eq_some parted
      refine ⟨dialPort_some parsed, digits, .inr ⟨rfl, colons, fun opened => ?_⟩⟩
      cases host with
      | nil => cases opened
      | cons c host =>
        cases opened
        exact other _ rfl

/-- An address that is read back could be carried. -/
theorem dialable_of_read {host : Text} {port : UInt16}
    (read : (Text.splitWhitespace (writtenAddress host port)).head?.bind splitDialHostPort =
      some (host, port)) : Dialable host port := by
  obtain ⟨word, first, split⟩ := Option.bind_eq_some_iff.mp read
  have isWord := Text.isWord_of_mem_splitWhitespace (List.mem_of_mem_head? first)
  obtain ⟨positive, digits, shape⟩ := splitDialHostPort_some isWord split
  have solid : ∀ c ∈ host, Text.isWhitespace c = false := by
    intro c inside
    refine isWord.solid c ?_
    rcases shape with ⟨rfl, -⟩ | ⟨rfl, -⟩ <;> simp [inside]
  -- without whitespace in the host, the address is the word that was read
  have whole : Text.IsWord (writtenAddress host port) := by
    refine ⟨by simp [writtenAddress], fun c member => ?_⟩
    rw [writtenAddress, writtenHost] at member
    rcases List.mem_append.mp member with inside | after
    · split_ifs at inside
      · simp only [List.mem_cons, List.mem_append, List.not_mem_nil, or_false] at inside
        rcases inside with rfl | inside | rfl
        · rfl
        · exact solid c inside
        · rfl
      · exact solid c inside
    · rcases List.mem_cons.mp after with rfl | digit
      · rfl
      · exact (digit_apart (Text.isDigit_of_mem_ofNat digit)).1
  rw [Text.splitWhitespace_word whole] at first
  have same : writtenAddress host port = word := Option.some.inj first
  rw [writtenAddress, writtenHost] at same
  refine ⟨positive, solid, fun colons => ?_, fun bare => ?_⟩
  · rw [if_pos colons] at same
    rcases shape with ⟨rfl, closed⟩ | ⟨-, bare, -⟩
    · exact closed
    · exact absurd colons bare
  · rw [if_neg bare] at same
    rcases shape with ⟨rfl, -⟩ | ⟨-, -, opened⟩
    · -- the first colon of the word stands two places further on than that of the address
      have before := congrArg (Text.splitOnce ':') same
      have inner : ':' ∉ '[' :: (host ++ [']']) := by simp [bare]
      have again : '[' :: (host ++ ']' :: ':' :: digits) =
          ('[' :: (host ++ [']'])) ++ ':' :: digits := by simp
      rw [Text.splitOnce_part bare, again, Text.splitOnce_part inner, Option.some.injEq,
        Prod.mk.injEq] at before
      have lengths := congrArg List.length before.1
      simp only [List.length_cons, List.length_append, List.length_nil] at lengths
      omega
    · exact opened

/-! ### Whole commands -/

/-- The words of a target as it is written. -/
theorem splitWhitespace_execCommand (target : RelayTarget) (portLabel : Text) :
    Text.splitWhitespace (target.execCommand portLabel) = "serial-relay".toList ::
      (Text.splitWhitespace portLabel ++ Text.splitWhitespace target.written) := by
  have spaced : "serial-relay ".toList = "serial-relay".toList ++ [' '] := by simp
  have space : Text.isWhitespace ' ' = true := by decide
  have first := Text.splitWhitespace_cons serialRelay_isWord (portLabel ++ ' ' :: target.written)
  change Text.splitWhitespace ("serial-relay ".toList ++ (portLabel ++ ' ' :: target.written)) = _
  rw [spaced, List.append_assoc, List.singleton_append, first,
    Text.splitWhitespace_append portLabel target.written space]

/-- The words that name the targets. -/
theorem target_isWord : ∀ word ∈ ["menu", "dial", "peer", "kermit"],
    Text.IsWord (String.toList word) := by
  simp only [List.forall_mem_cons]
  refine ⟨?_, ?_, ?_, ?_, by simp⟩ <;> exact ⟨by simp, by simp [Text.isWhitespace]⟩

/-- The words of a target that has an argument. -/
theorem splitWhitespace_argument {word argument : Text} (isWord : Text.IsWord word) :
    Text.splitWhitespace (word ++ [' '] ++ argument) = word :: Text.splitWhitespace argument := by
  rw [List.append_assoc, List.singleton_append, Text.splitWhitespace_cons isWord]

/-- A target has a word. -/
theorem RelayTarget.splitWhitespace_written_ne_nil (target : RelayTarget) :
    Text.splitWhitespace target.written ≠ [] := by
  intro empty
  cases target with
  | menu =>
    exact absurd ((Text.splitWhitespace_word (target_isWord "menu" (by simp))).symm.trans empty)
      (List.cons_ne_nil _ _)
  | dial =>
    exact absurd ((splitWhitespace_argument (target_isWord "dial" (by simp))).symm.trans empty)
      (List.cons_ne_nil _ _)
  | peer =>
    exact absurd ((splitWhitespace_argument (target_isWord "peer" (by simp))).symm.trans empty)
      (List.cons_ne_nil _ _)
  | kermit =>
    exact absurd ((Text.splitWhitespace_word (target_isWord "kermit" (by simp))).symm.trans empty)
      (List.cons_ne_nil _ _)

/-- A target is read back exactly when a command can carry it. -/
theorem relayTarget_written (target : RelayTarget) (portLabel : Text) :
    relayTarget portLabel (Text.splitWhitespace target.written) = .ok (target.parsed portLabel) ↔
      target.Sendable := by
  cases target with
  | menu =>
    rw [RelayTarget.written, Text.splitWhitespace_word (target_isWord "menu" (by simp)),
      relayTarget, if_pos rfl]
    exact iff_of_true rfl trivial
  | kermit =>
    rw [RelayTarget.written, Text.splitWhitespace_word (target_isWord "kermit" (by simp)),
      relayTarget, if_neg (by decide), if_neg (by decide), if_neg (by decide), if_pos rfl]
    exact iff_of_true rfl trivial
  | dial host port =>
    have words : Text.splitWhitespace (RelayTarget.dial host port).written =
        "dial".toList :: Text.splitWhitespace (writtenAddress host port) :=
      splitWhitespace_argument (target_isWord "dial" (by simp))
    rw [words]
    simp only [relayTarget, RelayTarget.parsed, RelayTarget.Sendable]
    rw [if_neg (by decide), if_pos trivial]
    constructor
    · intro read
      apply dialable_of_read
      split at read
      · cases read
      · next address found =>
        rw [found]
        exact congrArg some (Option.some.inj (congrArg ParsedRelay.dial (Except.ok.inj read)))
    · intro dialable
      obtain ⟨isWord, split⟩ := splitDialHostPort_written dialable
      rw [Text.splitWhitespace_word isWord, List.head?_cons, Option.bind_some, split]
  | peer addr =>
    have words : Text.splitWhitespace (RelayTarget.peer addr).written =
        "peer".toList :: Text.splitWhitespace addr :=
      splitWhitespace_argument (target_isWord "peer" (by simp))
    rw [words]
    simp only [relayTarget, RelayTarget.parsed, RelayTarget.Sendable]
    rw [if_neg (by decide), if_neg (by decide), if_pos trivial]
    constructor
    · intro read
      split at read
      · cases read
      · next first found =>
        have same : first = addr :=
          Option.some.inj (congrArg ParsedRelay.peer (Except.ok.inj read))
        rw [same] at found
        exact Text.isWord_of_mem_splitWhitespace (List.mem_of_mem_head? found)
    · intro isWord
      rw [Text.splitWhitespace_word isWord, List.head?_cons]

/-- **A relay is read back as it was asked for, and only then.** The master makes of the bytes a
slave sends just the call the slave meant, with the slave's own label, exactly when the label is a
plain word and the target one that a command can carry: an address without whitespace, whose
brackets are not mistaken. -/
theorem relay_read_back_iff (target : RelayTarget) (portLabel : Text) :
    execRequest (Text.toUtf8 (target.execCommand portLabel)) =
        .relay (.ok (target.parsed portLabel)) ↔ Plain portLabel ∧ target.Sendable := by
  have words := splitWhitespace_execCommand target portLabel
  rw [execRequest_relay (by rw [words, List.head?_cons])]
  have asked : Exec.relay (parseRelayCommand (target.execCommand portLabel)) =
      .relay (.ok (target.parsed portLabel)) ↔
        parseRelayCommand (target.execCommand portLabel) = .ok (target.parsed portLabel) :=
    ⟨Exec.relay.inj, congrArg Exec.relay⟩
  rw [asked]
  have label : (target.parsed portLabel).portLabel = portLabel := by cases target <;> rfl
  have read_plain : Plain portLabel →
      parseRelayCommand (target.execCommand portLabel) =
        relayTarget portLabel (Text.splitWhitespace target.written) := by
    intro plain
    rw [parseRelayCommand, words, Text.splitWhitespace_word plain.isWord]
    simp only [ne_eq, not_true_eq_false, if_false, List.singleton_append, List.head?_cons,
      List.tail_cons, relayLabel, plain.wireToken]
  constructor
  · intro read
    obtain ⟨rest, parted, kept, -⟩ := parseRelayCommand_ok read
    rw [words, List.cons.injEq] at parted
    rw [label, ← parted.2] at kept
    have plain : Plain portLabel := by
      rcases relayLabel_ok kept with ⟨none, -⟩ | ⟨-, plain⟩
      · -- the target always has a word, so a label is never absent
        rw [List.head?_eq_none_iff, List.append_eq_nil_iff] at none
        exact absurd none.2 target.splitWhitespace_written_ne_nil
      · exact plain
    rw [read_plain plain] at read
    exact ⟨plain, (relayTarget_written target portLabel).mp read⟩
  · rintro ⟨plain, sendable⟩
    rw [read_plain plain]
    exact (relayTarget_written target portLabel).mpr sendable

/-- What a registration is read from. -/
theorem execRequest_register {data : List UInt8} {portLabel : Text} {facts : RemotePortFacts}
    (read : execRequest data = .register portLabel facts) : ∃ rest,
      Text.splitWhitespace (Text.fromUtf8Lossy data) =
        "serial-register".toList :: Text.splitWhitespace rest ∧
      parseRegisterArgs rest = (portLabel, facts) := by
  rw [execRequest] at read
  simp only at read
  split at read
  · next rest found =>
    obtain ⟨label, taken⟩ := Exec.register.inj read
    have spaced : "serial-register ".toList = "serial-register".toList ++ [' '] := by simp
    rw [spaced] at found
    have whole : Text.trim (Text.fromUtf8Lossy data) =
        "serial-register".toList ++ ' ' :: rest := by
      rw [strip_eq_some.mp found, List.append_assoc, List.singleton_append]
    refine ⟨rest, ?_, Prod.ext label taken⟩
    rw [← Text.splitWhitespace_trim, whole, Text.splitWhitespace_cons serialRegister_isWord]
  · split at read <;> cases read

/-- The command of a registration, word by word. -/
theorem registerCommand_words (portLabel mode erase : Text) :
    registerCommand portLabel mode erase =
      "serial-register".toList ++ ' ' :: (portLabel ++ ' ' :: (mode ++ ' ' :: erase)) := by
  have spaced : "serial-register ".toList = "serial-register".toList ++ [' '] := by simp
  change "serial-register ".toList ++ (portLabel ++ ' ' :: (mode ++ ' ' :: erase)) = _
  rw [spaced, List.append_assoc, List.singleton_append]

/-- The words after the first of a registration. -/
theorem splitWhitespace_register (portLabel mode erase : Text) :
    Text.splitWhitespace (registerCommand portLabel mode erase) = "serial-register".toList ::
      (Text.splitWhitespace portLabel ++ (Text.splitWhitespace mode ++
        Text.splitWhitespace erase)) := by
  have space : Text.isWhitespace ' ' = true := by decide
  rw [registerCommand_words, Text.splitWhitespace_cons serialRegister_isWord,
    Text.splitWhitespace_append portLabel _ space, Text.splitWhitespace_append mode _ space]

/-- A registration of plain words is left as it is by trimming. -/
theorem registerCommand_trim (portLabel mode : Text) {erase : Text} (plain : Plain erase) :
    Text.trim (registerCommand portLabel mode erase) = registerCommand portLabel mode erase := by
  rw [registerCommand_words]
  refine Text.trim_eq_self (fun c head => ?_) fun c last => ?_
  · cases head
    decide
  · have ending : ∀ word : Text, word ++ ' ' :: (portLabel ++ ' ' :: (mode ++ ' ' :: erase)) =
        (word ++ ' ' :: (portLabel ++ ' ' :: (mode ++ [' ']))) ++ erase := by simp
    rw [ending, List.getLast?_append_of_ne_nil _ plain.ne_nil] at last
    exact plain.isWord.solid c (List.mem_of_mem_getLast? last)

/-- **A port is registered as the slave describes it, and only then.** The master takes the label,
the mode and the erase key of a registration just as the slave wrote them exactly when all three are
plain words; it never takes one as another. -/
theorem register_read_back_iff (portLabel mode erase : Text) :
    execRequest (Text.toUtf8 (registerCommand portLabel mode erase)) =
        .register portLabel ⟨some mode, some erase⟩ ↔
      Plain portLabel ∧ Plain mode ∧ Plain erase := by
  constructor
  · intro read
    obtain ⟨rest, words, args⟩ := execRequest_register read
    rw [Text.fromUtf8Lossy_toUtf8, splitWhitespace_register, List.cons.injEq] at words
    obtain ⟨-, words⟩ := words
    simp only [parseRegisterArgs, Prod.mk.injEq, RemotePortFacts.mk.injEq, ← words] at args
    obtain ⟨label, second, third⟩ := args
    have token : ∀ word kept, Option.bind word wireToken = some kept →
        word = some kept ∧ Plain kept := by
      intro word kept bound
      obtain ⟨_, rfl, token⟩ := Option.bind_eq_some_iff.mp bound
      obtain ⟨rfl, plain⟩ := wireToken_eq_some.mp token
      exact ⟨rfl, plain⟩
    have modePlain := (token _ _ second).2
    have erasePlain := (token _ _ third).2
    rw [Text.splitWhitespace_word modePlain.isWord, Text.splitWhitespace_word erasePlain.isWord]
      at label third
    refine ⟨?_, modePlain, erasePlain⟩
    cases first : Option.bind (Text.splitWhitespace portLabel ++ ([mode] ++ [erase]))[0]?
        wireToken with
    | some kept =>
      rw [first] at label
      exact label ▸ (token _ _ first).2
    | none =>
      -- without a label the words stand one place too early
      rw [first] at label
      have empty : portLabel = [] := label.symm
      rw [empty] at third
      cases third
  · rintro ⟨labelPlain, modePlain, erasePlain⟩
    have found : strip "serial-register ".toList (registerCommand portLabel mode erase) =
        some (portLabel ++ ' ' :: (mode ++ ' ' :: erase)) := strip_eq_some.mpr rfl
    rw [execRequest, Text.fromUtf8Lossy_toUtf8, registerCommand_trim portLabel mode erasePlain]
    simp only [found]
    have words : Text.splitWhitespace (portLabel ++ ' ' :: (mode ++ ' ' :: erase)) =
        [portLabel, mode, erase] := by
      rw [Text.splitWhitespace_cons labelPlain.isWord, Text.splitWhitespace_cons modePlain.isWord,
        Text.splitWhitespace_word erasePlain.isWord]
    simp only [parseRegisterArgs, words, List.getElem?_cons_zero, List.getElem?_cons_succ,
      Option.bind_some, labelPlain.wireToken, modePlain.wireToken, erasePlain.wireToken,
      Option.getD_some]

/-! ### Whatever is sent -/

/-- **A master keeps plain words only.** Whatever bytes a peer sends to register a port or ask for a
relay, each label and fact the master takes from them is the master's own question mark, or a word of
at most 32 letters, digits and marks. -/
theorem kept_plain (data : List UInt8) :
    ∀ word ∈ (execRequest data).kept, word = ['?'] ∨ Plain word := by
  have token : ∀ word kept, Option.bind word wireToken = some kept → Plain kept := by
    intro word kept bound
    obtain ⟨_, -, token⟩ := Option.bind_eq_some_iff.mp bound
    exact (wireToken_eq_some.mp token).2
  intro word member
  rw [execRequest] at member
  simp only at member
  split at member
  · next rest _ =>
    rw [Exec.kept] at member
    split_ifs at member with none
    · cases member
    simp only [parseRegisterArgs, List.mem_cons, List.mem_append, Option.mem_toList] at member none
    rcases member with rfl | mode | erase
    · right
      cases label : Option.bind (Text.splitWhitespace rest)[0]? wireToken with
      | none => exact absurd (by rw [label]; rfl) none
      | some kept => exact token _ _ label
    · exact .inr (token _ _ mode)
    · exact .inr (token _ _ erase)
  · split at member
    · cases member
    · cases read : parseRelayCommand (Text.trim (Text.fromUtf8Lossy data)) with
      | error why =>
        rw [read] at member
        cases member
      | ok parsed =>
        rw [read] at member
        cases List.mem_singleton.mp member
        obtain ⟨rest, -, label, -⟩ := parseRelayCommand_ok read
        rcases relayLabel_ok label with ⟨-, own⟩ | ⟨-, plain⟩
        · exact .inl own
        · exact .inr plain

/-- The theorem at work: the label of a relay is kept. -/
theorem kept_plain_label :
    ['A'] ∈ (execRequest (Text.toUtf8 (RelayTarget.menu.execCommand ['A']))).kept ∧
      (['A'] = ['?'] ∨ Plain ['A']) := by
  have kept : ['A'] ∈ (execRequest (Text.toUtf8 (RelayTarget.menu.execCommand ['A']))).kept := by
    rw [execRequest_relay (by rw [splitWhitespace_execCommand, List.head?_cons])]
    have words : Text.splitWhitespace (RelayTarget.menu.execCommand ['A']) =
        ["serial-relay".toList, ['A'], "menu".toList] := by
      rw [splitWhitespace_execCommand,
        Text.splitWhitespace_word ⟨List.cons_ne_nil _ _, by simp [Text.isWhitespace]⟩,
        RelayTarget.written, Text.splitWhitespace_word (target_isWord "menu" (by simp))]
      rfl
    have read : parseRelayCommand (RelayTarget.menu.execCommand ['A']) =
        .ok ⟨['A'], none, none, false⟩ := by
      rw [parseRelayCommand, words]
      decide
    rw [read]
    exact List.mem_singleton.mpr rfl
  exact ⟨kept, kept_plain _ _ kept⟩

end EthernetGateway.Relay
