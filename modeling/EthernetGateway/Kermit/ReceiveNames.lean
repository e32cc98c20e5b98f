import EthernetGateway.Kermit.ReceiveArms

/-!
# The name of a Kermit file

A sender puts the name of a file in its header as it is, and a receiver decodes it as it decodes
data. A name that is accepted has no prefix of two gateways in it, so it is the name that was sent
exactly when that had none.
-/

namespace EthernetGateway.Kermit

open EthernetGateway.Stepping

/-- A byte that the decoder reads as a prefix. -/
def Quoting.Prefix (q : Quoting) (b : UInt8) : Prop := b = q.qctl ∨ q.qbin = some b ∨ q.rept = some b

instance (q : Quoting) (b : UInt8) : Decidable (q.Prefix b) := inferInstanceAs (Decidable (_ ∨ _))

variable {q : Quoting}

/-- A byte that is no prefix is read as it is, where no shift is in force. -/
theorem reads_plain {b : UInt8} (plain : ¬ q.Prefix b) : q.Reads .normal b [b] := by
  simp only [Quoting.Prefix, not_or] at plain
  obtain ⟨qctl, qbin, rept⟩ := plain
  refine ⟨⟨b, [], rfl, fun same => rept same.symm⟩, fun rest => ?_, fun rest => ⟨b, ?_, ?_⟩⟩
  · cases rest with
    | nil => rfl
    | cons c rest => exact if_neg fun marked => qctl marked.2
  · show (if q.qbin = some b then _ else q.decodeQuoted 0 (b :: rest)) = _
    rw [if_neg qbin, decodeQuoted_plain qctl, UInt8.or_zero]
  · exact if_neg fun shifted => nomatch shifted.2

/-- Bytes without a prefix are decoded as they are. -/
theorem decodeData_plain {bytes : List UInt8} (plain : ∀ b ∈ bytes, ¬ q.Prefix b) :
    q.decodeData bytes = .ok bytes := by
  show q.decodeFrom .normal bytes = .ok bytes
  induction bytes with
  | nil => rw [Quoting.decodeFrom]
  | cons b bytes ih =>
    have unit := decodeFrom_unit (reads_plain (plain b List.mem_cons_self)) bytes
    rw [ih fun c member => plain c (List.mem_cons_of_mem _ member)] at unit
    exact unit

/-- A name that is accepted is made of letters, digits, dots, hyphens and underscores. -/
theorem validateFilename_chars {name : Text} (valid : validateFilename name = none) :
    ∀ c ∈ name, c.isAlphanum = true ∨ c = '.' ∨ c = '-' ∨ c = '_' := by
  unfold validateFilename at valid
  split_ifs at valid with _ _ _ chars
  intro c member
  simpa [or_assoc] using List.all_eq_true.mp chars c member

/-- Such characters are ASCII. -/
theorem ascii_of_validateFilename {name : Text} (valid : validateFilename name = none) :
    ∀ c ∈ name, Text.isAscii c = true := by
  intro c member
  rcases validateFilename_chars valid c member with letter | rfl | rfl | rfl
  · simp only [Char.isAlphanum, Char.isAlpha, Char.isUpper, Char.isLower, Char.isDigit,
      Bool.or_eq_true, Bool.and_eq_true, decide_eq_true_eq, UInt32.le_iff_toNat_le, ge_iff_le]
      at letter
    have upper : 'Z'.val.toNat = 90 := rfl
    have lower : 'z'.val.toNat = 122 := rfl
    have digit : '9'.val.toNat = 57 := rfl
    have code : c.toNat = c.val.toNat := rfl
    simp only [Text.isAscii, code, decide_eq_true_eq]
    omega
  all_goals decide

/-- The name read from bytes that are decoded to some bytes. -/
theorem headerName_ok {payload bytes : List UInt8} (decoded : q.decodeData payload = .ok bytes)
    (some : bytes ≠ []) : headerName q payload = Text.fromUtf8Lossy bytes := by
  unfold headerName
  rw [decoded]
  exact if_pos some

/-- A name that is accepted is the name that was sent exactly when that had no prefix, where the
prefixes are those of a gateway. -/
theorem headerName_eq_iff {name : Text} (hash : q.qctl = 0x23)
    (ampersand : ∀ b, q.qbin = some b → b = 0x26) (tilde : ∀ b, q.rept = some b → b = 0x7E)
    (valid : validateFilename (headerName q name.toUtf8) = none) :
    headerName q name.toUtf8 = name ↔ ∀ b ∈ name.toUtf8, ¬ q.Prefix b := by
  constructor
  · intro same b member marked
    rw [same] at valid
    have bytes := Text.toUtf8_of_ascii (ascii_of_validateFilename valid)
    have inside : Text.ofByte b ∈ name := by
      rw [← Text.toUtf8_ascii bytes]
      exact List.mem_map_of_mem member
    have gateway : b = 0x23 ∨ b = 0x26 ∨ b = 0x7E := by
      rcases marked with is | is | is
      · exact .inl (is.trans hash)
      · exact .inr (.inl (ampersand b is))
      · exact .inr (.inr (tilde b is))
    have chars := validateFilename_chars valid _ inside
    rcases gateway with rfl | rfl | rfl <;> revert chars <;> decide
  · intro plain
    have decoded := decodeData_plain plain
    by_cases none : name.toUtf8 = []
    · rw [none] at valid decoded
      have empty : headerName q [] = [] := by
        unfold headerName
        rw [decoded]
        show Text.fromUtf8Lossy [] = []
        rw [Text.fromUtf8Lossy]
      rw [empty] at valid
      cases valid
    · rw [headerName_ok decoded none] at valid ⊢
      have bytes := Text.ascii_of_fromUtf8Lossy (ascii_of_validateFilename valid)
      rw [Text.fromUtf8Lossy_ascii bytes, Text.toUtf8_ascii bytes]

/-- A name crosses a session of two gateways unchanged exactly when it has none of the prefixes of
the session in it, where the receiver accepts the packet it is put in. -/
theorem name_kept_iff (ours theirs : KermitConfig) {terms : Terms}
    (session : terms.session = gatewaySession ours theirs) {r later : Receiver} (arrival : Arrival)
    (name : Text)
    (accepted : r.pass terms arrival (filePacket r.expectedSeq name) = .next later) :
    ∃ record, later.received = record :: r.received ∧
      (record.filename = name ↔
        ∀ b ∈ name.toUtf8, ¬ (gatewaySession ours theirs).quoting.Prefix b) := by
  obtain ⟨hash, ampersand, tilde⟩ := gatewaySession_quoting ours theirs
  have passed : r.pass terms arrival (filePacket r.expectedSeq name) =
      Receiver.thenAdvance ({ r.dropReplay terms with noProgress := 0 }.onHeader terms arrival
        (filePacket r.expectedSeq name)) := if_neg (not_not.mpr rfl)
  rw [passed] at accepted
  cases handled : { r.dropReplay terms with noProgress := 0 }.onHeader terms arrival
      (filePacket r.expectedSeq name) with
  | returned receipt =>
    rw [handled] at accepted
    cases accepted
  | next opened =>
    rw [handled] at accepted
    cases accepted
    obtain ⟨_, _, received, _, valid, _⟩ := onHeader_next handled
    rw [session] at received valid
    exact ⟨_, received, headerName_eq_iff hash ampersand tilde (valid rfl)⟩

/-- A header whose name is accepted opens a record, while the batch has room. -/
theorem pass_filePacket {terms : Terms} {r : Receiver} {arrival : Arrival} {name : Text}
    (valid : validateFilename (headerName terms.session.quoting name.toUtf8) = none)
    (room : r.received.length < maxBatchFiles) :
    ∃ later, r.pass terms arrival (filePacket r.expectedSeq name) = .next later ∧
      later.received = .named (headerName terms.session.quoting name.toUtf8) :: r.received := by
  have passed : r.pass terms arrival (filePacket r.expectedSeq name) =
      Receiver.thenAdvance ({ r.dropReplay terms with noProgress := 0 }.onHeader terms arrival
        (filePacket r.expectedSeq name)) := if_neg (not_not.mpr rfl)
  have file : (if kindOf (filePacket r.expectedSeq name).kind = .file then
      validateFilename (headerName terms.session.quoting (filePacket r.expectedSeq name).payload)
    else none) = none := (if_pos rfl).trans valid
  rw [passed]
  unfold Receiver.onHeader
  simp only [file]
  have below : ¬ maxBatchFiles ≤ (r.dropReplay terms).received.length := Nat.not_le_of_lt room
  rw [if_neg below]
  exact ⟨_, rfl, rfl⟩

/-- A name without a prefix is accepted, and it is the name that was sent. -/
theorem name_kept_plain :
    ∃ later, (Receiver.start 0 []).pass Terms.default (Packet.arrival (filePacket 1 ['A']))
        (filePacket 1 ['A']) = .next later ∧
      ∃ record, later.received = [record] ∧ (record.filename = ['A'] ↔
        ∀ b ∈ Text.toUtf8 ['A'], ¬ (gatewaySession .default .default).quoting.Prefix b) := by
  have valid : validateFilename (headerName Terms.default.session.quoting (Text.toUtf8 ['A'])) =
      none := by decide +kernel
  obtain ⟨later, accepted, _⟩ := @pass_filePacket Terms.default (Receiver.start 0 [])
    (Packet.arrival (filePacket 1 ['A'])) ['A'] valid (by decide)
  exact ⟨later, accepted, name_kept_iff .default .default rfl
    (Packet.arrival (filePacket 1 ['A'])) ['A'] accepted⟩

/-- A name with the repeat prefix in it is accepted as another. -/
theorem prefixed_name_changes :
    ∃ later, (Receiver.start 0 []).pass Terms.default
        (Packet.arrival (filePacket 1 ['~', '#', 'A'])) (filePacket 1 ['~', '#', 'A']) =
          .next later ∧
      ∃ record, later.received = [record] ∧ record.filename = ['A', 'A', 'A'] := by
  have decoded : headerName Terms.default.session.quoting (Text.toUtf8 ['~', '#', 'A']) =
      ['A', 'A', 'A'] := by decide +kernel
  have valid : validateFilename (headerName Terms.default.session.quoting
      (Text.toUtf8 ['~', '#', 'A'])) = none := by
    rw [decoded]
    decide +kernel
  obtain ⟨later, accepted, received⟩ := @pass_filePacket Terms.default (Receiver.start 0 [])
    (Packet.arrival (filePacket 1 ['~', '#', 'A'])) ['~', '#', 'A'] valid (by decide)
  exact ⟨later, accepted, _, received, decoded⟩

end EthernetGateway.Kermit
