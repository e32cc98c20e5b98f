import EthernetGateway.Bytes
import Mathlib

/-!
# Kermit quoting

The data of a packet is quoted byte by byte: a run of one byte is counted, a byte with its high bit
set is shifted or prefixed, a control character is made printable behind a prefix, and so is a
character that is itself a prefix. The decoder reads the layers in the same order.
-/

namespace EthernetGateway.Kermit

/-! ## Characters -/

/-- `tochar`. -/
def tochar (n : UInt8) : UInt8 := n + 0x20

/-- `unchar`. -/
def unchar (c : UInt8) : UInt8 := c - 0x20

/-- `ctl`. -/
def ctl (b : UInt8) : UInt8 := b ^^^ 0x40

/-- `unctl`. -/
def unctl (b : UInt8) : UInt8 := b ^^^ 0x40

/-- `is_kermit_control`. -/
def isKermitControl (b : UInt8) : Bool := b < 0x20 || b = 0x7F || (0x80 ≤ b && b ≤ 0x9F) || b = 0xFF

/-- `SO`: the marker that shifts. -/
def shiftOut : UInt8 := 0x0E

/-- `SI`: the marker that ends a shift. -/
def shiftIn : UInt8 := 0x0F

/-- `Quoting`. -/
structure Quoting where
  qctl : UInt8
  qbin : Option UInt8
  rept : Option UInt8
  lockingShifts : Bool
  deriving DecidableEq

/-- `ShiftMode`. -/
inductive ShiftMode where
  | normal
  | shifted
  deriving DecidableEq

/-! ## The encoder -/

/-- The mode a byte is sent in. -/
def ShiftMode.of (b : UInt8) : ShiftMode := if b &&& 0x80 ≠ 0 then .shifted else .normal

/-- A change of mode, where there is one. -/
def Quoting.shiftTo (q : Quoting) (mode target : ShiftMode) : List UInt8 :=
  if target ≠ mode then [q.qctl, ctl (if target = .shifted then shiftOut else shiftIn)] else []

/-- A byte behind its control prefix, where it needs one. -/
def Quoting.quote (q : Quoting) (body : UInt8) (isPrefix : Bool) : List UInt8 :=
  if isKermitControl body then [q.qctl, ctl body]
  else if isPrefix then [q.qctl, body]
  else [body]

/-- `encode_one_byte`: what it writes, and the mode after it. -/
def Quoting.encodeOneByte (q : Quoting) (mode : ShiftMode) (b : UInt8) : List UInt8 × ShiftMode :=
  if q.lockingShifts then
    let body := b &&& 0x7F
    -- a shift character that is data is quoted as it is, since its printable form is the marker
    let quoted :=
      if body = shiftOut ∨ body = shiftIn then [q.qctl, body]
      else q.quote body (body = q.qctl || q.rept = some body)
    (q.shiftTo mode (.of b) ++ quoted, .of b)
  else
    let isPrefix (body : UInt8) := body = q.qctl || q.qbin = some body || q.rept = some body
    let quoted :=
      match q.qbin with
      | some qbin =>
        if b &&& 0x80 ≠ 0 then qbin :: q.quote (b &&& 0x7F) (isPrefix (b &&& 0x7F))
        else q.quote b (isPrefix b)
      | none => q.quote b (isPrefix b)
    (quoted, mode)

/-- The length of the run a byte starts, up to the longest that is counted. -/
def runOf (b : UInt8) (rest : List UInt8) : Nat :=
  1 + min 93 (rest.takeWhile fun c => c = b).length

/-- `encode_data` from a mode on. -/
def Quoting.encodeFrom (q : Quoting) (mode : ShiftMode) (input : List UInt8) : List UInt8 :=
  match input with
  | [] => if q.lockingShifts then q.shiftTo mode .normal else []
  | b :: rest =>
    let single (_ : Unit) : List UInt8 :=
      (q.encodeOneByte mode b).1 ++ q.encodeFrom (q.encodeOneByte mode b).2 rest
    match q.rept with
    | none => single ()
    | some rept =>
      let run := runOf b rest
      if 3 ≤ run then
        -- the shift goes before the count, so that it applies to the whole run
        let mode' := if q.lockingShifts then .of b else mode
        (if q.lockingShifts then q.shiftTo mode (.of b) else []) ++
          ([rept, tochar run.toUInt8] ++ (q.encodeOneByte mode' b).1 ++
            q.encodeFrom (q.encodeOneByte mode' b).2 (rest.drop (run - 1)))
      else single ()
termination_by input.length

/-- `encode_data`. -/
def Quoting.encodeData (q : Quoting) (input : List UInt8) : List UInt8 := q.encodeFrom .normal input

/-! ## The decoder -/

/-- A byte behind a control prefix or without one, and what follows it. -/
def Quoting.decodeQuoted (q : Quoting) (highBit : UInt8) :
    List UInt8 → Except String (UInt8 × List UInt8)
  | [] => .error "Kermit: 8-bit prefix at end of data"
  | c :: rest =>
    if c = q.qctl then
      match rest with
      | [] => .error "Kermit: control-quote prefix at end of data"
      | body :: rest =>
        let candidate := unctl body
        .ok ((if isKermitControl candidate then candidate else body) ||| highBit, rest)
    else .ok (c ||| highBit, rest)

/-- `decode_one_byte_at`: the byte at the start of the data, and what follows it. -/
def Quoting.decodeOneByte (q : Quoting) : List UInt8 → Except String (UInt8 × List UInt8)
  | [] => .error "Kermit: decode_one_byte_at past end of data"
  | c :: rest =>
    if q.qbin = some c then q.decodeQuoted 0x80 rest else q.decodeQuoted 0 (c :: rest)

/-- A decoded byte is followed by less than there was. -/
theorem decodeQuoted_length {q : Quoting} {highBit b : UInt8} {input rest : List UInt8}
    (decoded : q.decodeQuoted highBit input = .ok (b, rest)) : rest.length < input.length := by
  cases input with
  | nil => cases decoded
  | cons c input =>
    simp only [Quoting.decodeQuoted] at decoded
    split at decoded
    · cases input with
      | nil => cases decoded
      | cons body input =>
        cases decoded
        simp
    · cases decoded
      simp

/-- A decoded byte is followed by less than there was. -/
theorem decodeOneByte_length {q : Quoting} {b : UInt8} {input rest : List UInt8}
    (decoded : q.decodeOneByte input = .ok (b, rest)) : rest.length < input.length := by
  cases input with
  | nil => cases decoded
  | cons c input =>
    simp only [Quoting.decodeOneByte] at decoded
    split at decoded
    · exact Nat.lt_succ_of_lt (decodeQuoted_length decoded)
    · exact decodeQuoted_length decoded

/-- A byte with the high bit of its mode. -/
def Quoting.withMode (q : Quoting) (mode : ShiftMode) (b : UInt8) : UInt8 :=
  if q.lockingShifts ∧ mode = .shifted then b ||| 0x80 else b

/-- The mode that a marker at the start of the data sets, and what follows it. -/
def Quoting.marker (q : Quoting) : List UInt8 → Option (ShiftMode × List UInt8)
  | c :: body :: rest =>
    if q.lockingShifts ∧ c = q.qctl then
      if unctl body = shiftOut then some (.shifted, rest)
      else if unctl body = shiftIn then some (.normal, rest)
      else none
    else none
  | _ => none

/-- A marker is followed by less than there was. -/
theorem marker_length {q : Quoting} {mode : ShiftMode} {input rest : List UInt8}
    (found : q.marker input = some (mode, rest)) : rest.length < input.length := by
  unfold Quoting.marker at found
  split at found
  · split at found
    · split at found
      · cases found
        simp only [List.length_cons]
        omega
      · split at found
        · cases found
          simp only [List.length_cons]
          omega
        · cases found
    · cases found
  · cases found

/-- `decode_data` from a mode on. -/
def Quoting.decodeFrom (q : Quoting) (mode : ShiftMode) (input : List UInt8) :
    Except String (List UInt8) :=
  match input with
  | [] => .ok []
  | c :: rest =>
    match _marked : q.marker (c :: rest) with
    | some (mode', rest) => q.decodeFrom mode' rest
    | none =>
      if some c = q.rept then
        match rest with
        | [] => .error "Kermit: repeat prefix at end of data"
        | count :: rest =>
          let n := (unchar count).toNat
          if n = 0 ∨ 94 < n then .error ("Kermit: bad repeat count " ++ toString n)
          else
            match _decoded : q.decodeOneByte rest with
            | .error error => .error error
            | .ok (b, rest) =>
              (q.decodeFrom mode rest).map fun out => List.replicate n (q.withMode mode b) ++ out
      else
        match _decoded : q.decodeOneByte (c :: rest) with
        | .error error => .error error
        | .ok (b, rest) => (q.decodeFrom mode rest).map fun out => q.withMode mode b :: out
termination_by input.length
decreasing_by
  · exact marker_length _marked
  · have less := decodeOneByte_length _decoded
    simp only [List.length_cons]
    omega
  · exact decodeOneByte_length _decoded

/-- `decode_data`. -/
def Quoting.decodeData (q : Quoting) (input : List UInt8) : Except String (List UInt8) :=
  q.decodeFrom .normal input

/-! ## Prefixes -/

/-- The characters a peer may choose as prefixes. -/
def IsPrefix (c : UInt8) : Prop := (33 ≤ c ∧ c ≤ 62) ∨ (96 ≤ c ∧ c ≤ 126)

instance (c : UInt8) : Decidable (IsPrefix c) := inferInstanceAs (Decidable (_ ∨ _))

/-- Prefixes that tell their layers apart. -/
structure Quoting.Valid (q : Quoting) : Prop where
  qctl : IsPrefix q.qctl
  qbin : ∀ c, q.qbin = some c → IsPrefix c ∧ c ≠ q.qctl
  rept : ∀ c, q.rept = some c → IsPrefix c ∧ c ≠ q.qctl ∧ q.qbin ≠ some c
  locking : q.lockingShifts = true → q.qbin = none

set_option synthInstance.maxSize 1000 in
/-- What the quoting relies on of a byte as a prefix, as a printable form, as a shift character, and
by its low seven bits. -/
theorem byte_quoting : ∀ b : UInt8,
    (IsPrefix b → isKermitControl b = false ∧
      isKermitControl (unctl b) = false ∧ b < 0x80 ∧ unctl b ≠ shiftOut ∧ unctl b ≠ shiftIn) ∧
    unctl (ctl b) = b ∧
    (b = shiftOut ∨ b = shiftIn →
      isKermitControl (unctl b) = false ∧ unctl b ≠ shiftOut ∧ unctl b ≠ shiftIn) ∧
    ((b &&& 0x80 ≠ 0 → (b &&& 0x7F) ||| 0x80 = b) ∧
      (b &&& 0x80 = 0 → b &&& 0x7F = b) ∧ b &&& 0x7F < 0x80) ∧
    (b < 0x80 → ctl b < 0x80) ∧ (b &&& 0x80 = 0 → b < 0x80) :=
  byte_forall (by decide +kernel)

/-- A prefix is an ASCII character, no control, and not the printable form of one. -/
theorem isPrefix_spec (c : UInt8) : IsPrefix c → isKermitControl c = false ∧
    isKermitControl (unctl c) = false ∧ c < 0x80 ∧ unctl c ≠ shiftOut ∧ unctl c ≠ shiftIn :=
  (byte_quoting c).1

/-- The printable form of a control is read as the control. -/
theorem unctl_ctl (b : UInt8) : unctl (ctl b) = b := (byte_quoting b).2.1

/-- A shift character as data is not the printable form of a control. -/
theorem shift_literal (b : UInt8) : b = shiftOut ∨ b = shiftIn →
    isKermitControl (unctl b) = false ∧ unctl b ≠ shiftOut ∧ unctl b ≠ shiftIn :=
  (byte_quoting b).2.2.1

/-- The low seven bits of a byte, and its mode, are the byte. -/
theorem low_high (b : UInt8) : (b &&& 0x80 ≠ 0 → (b &&& 0x7F) ||| 0x80 = b) ∧
    (b &&& 0x80 = 0 → b &&& 0x7F = b) ∧ b &&& 0x7F < 0x80 := (byte_quoting b).2.2.2.1

/-- The printable form of a seven-bit control has seven bits. -/
theorem ctl_low (b : UInt8) : b < 0x80 → ctl b < 0x80 := (byte_quoting b).2.2.2.2.1

/-- A byte without its high bit has seven bits. -/
theorem low_of_clear (b : UInt8) : b &&& 0x80 = 0 → b < 0x80 := (byte_quoting b).2.2.2.2.2

variable {q : Quoting} {mode : ShiftMode}

/-- A control behind its prefix is read back. -/
theorem decodeQuoted_ctl {b : UInt8} (control : isKermitControl b = true) (highBit : UInt8)
    (rest : List UInt8) :
    q.decodeQuoted highBit (q.qctl :: ctl b :: rest) = .ok (b ||| highBit, rest) := by
  simp [Quoting.decodeQuoted, unctl_ctl, control]

/-- So is any byte behind a prefix that is not the printable form of a control. -/
theorem decodeQuoted_literal {b : UInt8} (plain : isKermitControl (unctl b) = false)
    (highBit : UInt8) (rest : List UInt8) :
    q.decodeQuoted highBit (q.qctl :: b :: rest) = .ok (b ||| highBit, rest) := by
  simp [Quoting.decodeQuoted, plain]

/-- And a byte that needs no prefix. -/
theorem decodeQuoted_plain {b : UInt8} (other : b ≠ q.qctl) (highBit : UInt8) (rest : List UInt8) :
    q.decodeQuoted highBit (b :: rest) = .ok (b ||| highBit, rest) := by
  simp [Quoting.decodeQuoted, other]

/-- A quoted byte is read back, when those that are prefixes are marked so. -/
theorem decodeQuoted_quote {body : UInt8} {isPrefix : Bool}
    (marked : body = q.qctl → isPrefix = true)
    (plain : isPrefix = true → isKermitControl (unctl body) = false)
    (highBit : UInt8) (rest : List UInt8) :
    q.decodeQuoted highBit (q.quote body isPrefix ++ rest) = .ok (body ||| highBit, rest) := by
  unfold Quoting.quote
  split
  next control => exact decodeQuoted_ctl control highBit rest
  next =>
    split
    next is => exact decodeQuoted_literal (plain is) highBit rest
    next not => exact decodeQuoted_plain (fun same => not (marked same)) highBit rest

/-- What is quoted starts with the control prefix, or it is a byte that is no prefix. -/
theorem quote_cases (q : Quoting) (body : UInt8) (isPrefix : Bool) :
    (∃ b, q.quote body isPrefix = [q.qctl, b] ∧
      (isKermitControl body = true ∧ b = ctl body ∨ isPrefix = true ∧ b = body)) ∨
      q.quote body isPrefix = [body] ∧ isPrefix = false ∧ isKermitControl body = false := by
  unfold Quoting.quote
  split
  next control => exact .inl ⟨_, rfl, .inl ⟨control, rfl⟩⟩
  next plain =>
    split
    next is => exact .inl ⟨_, rfl, .inr ⟨is, rfl⟩⟩
    next not => exact .inr ⟨rfl, by simpa using not, by simpa using plain⟩

/-! ## One byte -/

/-- A unit of the data that the decoder reads, in a mode, as a byte. -/
structure Quoting.Reads (q : Quoting) (mode : ShiftMode) (b : UInt8) (quoted : List UInt8) :
    Prop where
  /-- It is not taken for a count. -/
  first : ∃ c tail, quoted = c :: tail ∧ some c ≠ q.rept
  /-- It is not taken for a marker. -/
  unmarked : ∀ rest, q.marker (quoted ++ rest) = none
  decoded : ∀ rest, ∃ body, q.decodeOneByte (quoted ++ rest) = .ok (body, rest) ∧
    q.withMode mode body = b

/-- A byte of a shifted or unshifted run is read in its mode. -/
theorem reads_locking (valid : q.Valid) (locking : q.lockingShifts = true) {b : UInt8}
    {quoted : List UInt8}
    (is : quoted = if b &&& 0x7F = shiftOut ∨ b &&& 0x7F = shiftIn then [q.qctl, b &&& 0x7F]
      else q.quote (b &&& 0x7F) (b &&& 0x7F = q.qctl || q.rept = some (b &&& 0x7F))) :
    q.Reads (.of b) b quoted := by
  have unprefixed : q.qbin = none := valid.locking locking
  have whole : q.withMode (.of b) (b &&& 0x7F) = b := by
    have parts := low_high b
    unfold Quoting.withMode ShiftMode.of
    by_cases high : b &&& 0x80 ≠ 0
    · rw [if_pos high, if_pos ⟨locking, rfl⟩, parts.1 high]
    · rw [if_neg high, if_neg (by simp), parts.2.1 (by simpa using high)]
  have qctl : some q.qctl ≠ q.rept := by
    intro same
    exact (valid.rept q.qctl same.symm).2.1 rfl
  -- every prefix that is data is quoted as it is
  have plain : (b &&& 0x7F = q.qctl || q.rept = some (b &&& 0x7F)) = true →
      IsPrefix (b &&& 0x7F) := by
    intro is
    simp only [Bool.or_eq_true, decide_eq_true_eq] at is
    cases is with
    | inl same => rw [same]; exact valid.qctl
    | inr same => exact (valid.rept _ same).1
  have behind {x : UInt8} (quoted' : quoted = [q.qctl, x])
      (decoded : ∀ rest, q.decodeQuoted 0 (q.qctl :: x :: rest) = .ok ((b &&& 0x7F) ||| 0, rest))
      (out : unctl x ≠ shiftOut) (in' : unctl x ≠ shiftIn) : q.Reads (.of b) b quoted := by
    refine ⟨⟨q.qctl, [x], quoted', qctl⟩, fun rest => ?_, fun rest => ⟨_, ?_, whole⟩⟩
    · rw [quoted']
      simp [Quoting.marker, out, in']
    · rw [quoted']
      simp only [List.cons_append, List.nil_append, Quoting.decodeOneByte, unprefixed, reduceCtorEq,
        if_false, decoded rest, UInt8.or_zero]
  by_cases shift : b &&& 0x7F = shiftOut ∨ b &&& 0x7F = shiftIn
  · rw [if_pos shift] at is
    obtain ⟨literal, out, in'⟩ := shift_literal _ shift
    exact behind is (decodeQuoted_literal literal 0) out in'
  · rw [if_neg shift] at is
    rw [not_or] at shift
    rcases quote_cases q (b &&& 0x7F) (b &&& 0x7F = q.qctl || q.rept = some (b &&& 0x7F)) with
      ⟨x, quoted', control | marked⟩ | ⟨quoted', unmarked, _⟩
    · obtain ⟨control, rfl⟩ := control
      exact behind (is.trans quoted') (decodeQuoted_ctl control 0)
        (by rw [unctl_ctl]; exact shift.1) (by rw [unctl_ctl]; exact shift.2)
    · obtain ⟨marked, rfl⟩ := marked
      obtain ⟨_, literal, _, out, in'⟩ := isPrefix_spec _ (plain marked)
      exact behind (is.trans quoted') (decodeQuoted_literal literal 0) out in'
    · simp only [Bool.or_eq_false_iff, decide_eq_false_iff_not] at unmarked
      rw [is, quoted']
      refine ⟨⟨_, [], rfl, fun same => unmarked.2 same.symm⟩, fun rest => ?_,
        fun rest => ⟨_, ?_, whole⟩⟩
      · cases rest with
        | nil => rfl
        | cons x rest => simp [Quoting.marker, unmarked.1]
      · simp only [List.cons_append, List.nil_append, Quoting.decodeOneByte, unprefixed,
          reduceCtorEq, if_false]
        rw [decodeQuoted_plain unmarked.1, UInt8.or_zero]

/-- A byte is read back where nothing shifts. -/
theorem reads_prefixed (valid : q.Valid) (fixed : q.lockingShifts = false) (b : UInt8) :
    q.Reads mode b (q.encodeOneByte mode b).1 := by
  have qctl : some q.qctl ≠ q.rept := by
    intro same
    exact (valid.rept q.qctl same.symm).2.1 rfl
  have whole (body : UInt8) : q.withMode mode body = body := by simp [Quoting.withMode, fixed]
  have unmarked (input : List UInt8) : q.marker input = none := by
    unfold Quoting.marker
    split
    · simp [fixed]
    · rfl
  -- every prefix that is data is quoted as it is
  have plain (body : UInt8) :
      (body = q.qctl || q.qbin = some body || q.rept = some body) = true →
        isKermitControl (unctl body) = false := by
    intro is
    have prefixed : IsPrefix body := by
      simp only [Bool.or_eq_true, decide_eq_true_eq] at is
      rcases is with (same | same) | same
      · rw [same]
        exact valid.qctl
      · exact (valid.qbin _ same).1
      · exact (valid.rept _ same).1
    exact (isPrefix_spec body prefixed).2.1
  have decoded (highBit body : UInt8) (rest : List UInt8) :=
    @decodeQuoted_quote q body (body = q.qctl || q.qbin = some body || q.rept = some body)
      (fun same => by simp [same]) (plain body) highBit rest
  -- without its prefix, the byte starts with the control prefix or with itself
  have low : q.Reads mode b (q.quote b (b = q.qctl || q.qbin = some b || q.rept = some b)) := by
    have first : ∃ c tail, q.quote b (b = q.qctl || q.qbin = some b || q.rept = some b) = c :: tail ∧
        some c ≠ q.rept ∧ q.qbin ≠ some c := by
      rcases quote_cases q b (b = q.qctl || q.qbin = some b || q.rept = some b) with
        ⟨x, quoted, _⟩ | ⟨quoted, other, _⟩
      · exact ⟨q.qctl, [x], quoted, qctl, fun same => (valid.qbin _ same).2 rfl⟩
      · simp only [Bool.or_eq_false_iff, decide_eq_false_iff_not] at other
        exact ⟨b, [], quoted, fun same => other.2 same.symm, other.1.2⟩
    obtain ⟨c, tail, quoted, count, eighth⟩ := first
    refine ⟨⟨c, tail, quoted, count⟩, fun rest => unmarked _, fun rest => ⟨b, ?_, whole b⟩⟩
    have read := decoded 0 b rest
    rw [quoted] at read ⊢
    rw [UInt8.or_zero] at read
    simp only [List.cons_append, Quoting.decodeOneByte, if_neg eighth] at read ⊢
    exact read
  unfold Quoting.encodeOneByte
  rw [fixed, if_neg Bool.false_ne_true]
  simp only
  split
  next qbin is =>
    split
    next high =>
      refine ⟨⟨qbin, _, rfl, fun same => ?_⟩, fun rest => unmarked _, fun rest => ⟨b, ?_, whole b⟩⟩
      · exact (valid.rept qbin same.symm).2.2 is
      · have read := decoded 0x80 (b &&& 0x7F) rest
        rw [(low_high b).1 high] at read
        show (if q.qbin = some qbin then _ else _) = _
        rw [if_pos is]
        exact read
    next => exact low
  next => exact low

/-! ## The data of a packet -/

/-- The mode a byte leaves. -/
def Quoting.after (q : Quoting) (mode : ShiftMode) (b : UInt8) : ShiftMode :=
  if q.lockingShifts then .of b else mode

/-- The shift before a byte. -/
def Quoting.shift (q : Quoting) (mode : ShiftMode) (b : UInt8) : List UInt8 :=
  if q.lockingShifts then q.shiftTo mode (.of b) else []

/-- A byte is written as the shift to its mode and a unit that is read as it there. -/
theorem encodeOneByte_reads (valid : q.Valid) (mode : ShiftMode) (b : UInt8) :
    ∃ quoted, q.encodeOneByte mode b = (q.shift mode b ++ quoted, q.after mode b) ∧
      q.Reads (q.after mode b) b quoted := by
  unfold Quoting.shift Quoting.after
  by_cases locking : q.lockingShifts = true
  · refine ⟨_, ?_, by rw [if_pos locking]; exact reads_locking valid locking rfl⟩
    unfold Quoting.encodeOneByte
    simp only [if_pos locking]
  · have fixed : q.lockingShifts = false := by simpa using locking
    refine ⟨(q.encodeOneByte mode b).1, ?_, ?_⟩
    · rw [if_neg locking, if_neg locking]
      unfold Quoting.encodeOneByte
      simp only [if_neg locking, List.nil_append]
    · rw [if_neg locking]
      exact reads_prefixed valid fixed b

/-- A shift is read as the mode it sets. -/
theorem decodeFrom_shiftTo (locking : q.lockingShifts = true) (mode target : ShiftMode)
    (rest : List UInt8) :
    q.decodeFrom mode (q.shiftTo mode target ++ rest) = q.decodeFrom target rest := by
  unfold Quoting.shiftTo
  split
  next =>
    have marked : q.marker (q.qctl :: ctl (if target = .shifted then shiftOut else shiftIn) :: rest) =
        some (target, rest) := by
      cases target <;> simp [Quoting.marker, locking, unctl_ctl, shiftOut, shiftIn]
    simp only [List.cons_append, List.nil_append]
    rw [Quoting.decodeFrom]
    split
    next mode' rest' found =>
      rw [marked] at found
      cases found
      rfl
    next found =>
      rw [marked] at found
      cases found
  next same =>
    rw [not_not.mp same]
    rfl

/-- So is the shift before a byte. -/
theorem decodeFrom_shift (q : Quoting) (mode : ShiftMode) (b : UInt8) (rest : List UInt8) :
    q.decodeFrom mode (q.shift mode b ++ rest) = q.decodeFrom (q.after mode b) rest := by
  unfold Quoting.shift Quoting.after
  split
  next locking => exact decodeFrom_shiftTo locking mode (.of b) rest
  next => rfl

/-- A unit is read as its byte. -/
theorem decodeFrom_unit {b : UInt8} {quoted : List UInt8} (reads : q.Reads mode b quoted)
    (rest : List UInt8) :
    q.decodeFrom mode (quoted ++ rest) = (q.decodeFrom mode rest).map fun out => b :: out := by
  obtain ⟨c, tail, is, count⟩ := reads.first
  obtain ⟨body, decoded, whole⟩ := reads.decoded rest
  have unmarked := reads.unmarked rest
  subst is
  rw [List.cons_append] at decoded unmarked ⊢
  rw [Quoting.decodeFrom]
  split
  next found =>
    rw [unmarked] at found
    cases found
  next =>
    rw [if_neg count]
    split
    next error failed =>
      rw [decoded] at failed
      cases failed
    next b' rest' found =>
      rw [decoded] at found
      cases found
      rw [whole]

/-- A counted unit is read as the run of its byte. -/
theorem decodeFrom_run (valid : q.Valid) {rept : UInt8} (is : q.rept = some rept) {n : Nat}
    (positive : 0 < n) (small : n ≤ 94) {b : UInt8} {quoted : List UInt8}
    (reads : q.Reads mode b quoted) (rest : List UInt8) :
    q.decodeFrom mode ([rept, tochar n.toUInt8] ++ quoted ++ rest) =
      (q.decodeFrom mode rest).map fun out => List.replicate n b ++ out := by
  obtain ⟨body, decoded, whole⟩ := reads.decoded rest
  have count : (unchar (tochar n.toUInt8)).toNat = n := by
    simp only [unchar, tochar, UInt8.add_sub_cancel, Nat.toUInt8_eq, UInt8.toNat_ofNat']
    omega
  have unmarked : q.marker (rept :: tochar n.toUInt8 :: (quoted ++ rest)) = none := by
    simp [Quoting.marker, (valid.rept rept is).2.1]
  simp only [List.cons_append, List.nil_append]
  rw [Quoting.decodeFrom]
  split
  next found =>
    rw [unmarked] at found
    cases found
  next =>
    rw [if_pos is.symm]
    simp only [count]
    rw [if_neg (by omega)]
    split
    next error failed =>
      rw [decoded] at failed
      cases failed
    next b' rest' found =>
      rw [decoded] at found
      cases found
      rw [whole]

/-- The run that a byte starts is in the data. -/
theorem replicate_run (b : UInt8) (rest : List UInt8) :
    List.replicate (runOf b rest) b ++ rest.drop (runOf b rest - 1) = b :: rest := by
  have same : (rest.takeWhile fun c => c = b) =
      List.replicate (rest.takeWhile fun c => c = b).length b := by
    rw [List.eq_replicate_iff]
    exact ⟨rfl, fun c member => by simpa using List.mem_takeWhile_imp member⟩
  have front : rest.take (runOf b rest - 1) = List.replicate (runOf b rest - 1) b := by
    have within : runOf b rest - 1 ≤ (rest.takeWhile fun c => c = b).length := by
      unfold runOf
      omega
    have start : (rest.takeWhile fun c => c = b).take (runOf b rest - 1) =
        rest.take (runOf b rest - 1) := by
      obtain ⟨tail, whole⟩ := @List.takeWhile_prefix _ rest fun c => c = b
      exact (List.take_append_of_le_length within).symm.trans (congrArg (List.take _) whole)
    rw [← start, same, List.take_replicate, Nat.min_eq_left within]
  have one : runOf b rest = runOf b rest - 1 + 1 := by
    unfold runOf
    omega
  rw [one, List.replicate_succ, Nat.add_sub_cancel, ← front, List.cons_append, List.take_append_drop]

/-- Without a count, the data is one byte and the rest. -/
theorem encodeFrom_single {b : UInt8} {rest : List UInt8}
    (short : ∀ rept, q.rept = some rept → runOf b rest < 3) :
    q.encodeFrom mode (b :: rest) =
      (q.encodeOneByte mode b).1 ++ q.encodeFrom (q.encodeOneByte mode b).2 rest := by
  rw [Quoting.encodeFrom]
  split
  · rfl
  next rept is => simp only [if_neg (Nat.not_le_of_lt (short rept is))]

/-- With one, it is the run and the rest. -/
theorem encodeFrom_run {b rept : UInt8} {rest : List UInt8} (is : q.rept = some rept)
    (long : 3 ≤ runOf b rest) :
    q.encodeFrom mode (b :: rest) =
      q.shift mode b ++ ([rept, tochar (runOf b rest).toUInt8] ++
        (q.encodeOneByte (q.after mode b) b).1 ++
          q.encodeFrom (q.encodeOneByte (q.after mode b) b).2 (rest.drop (runOf b rest - 1))) := by
  rw [Quoting.encodeFrom]
  split
  next none' =>
    rw [none'] at is
    cases is
  next rept' is' =>
    rw [is'] at is
    cases is
    simp only [if_pos long]
    rfl

/-- A byte in its own mode needs no shift. -/
theorem shift_after (q : Quoting) (mode : ShiftMode) (b : UInt8) :
    q.shift (q.after mode b) b = [] ∧ q.after (q.after mode b) b = q.after mode b := by
  unfold Quoting.shift Quoting.after Quoting.shiftTo
  split <;> simp

/-- The data that is written from a mode on is read back from it. -/
theorem decode_encodeFrom (valid : q.Valid) (mode : ShiftMode) (input : List UInt8) :
    q.decodeFrom mode (q.encodeFrom mode input) = .ok input := by
  induction size : input.length using Nat.strong_induction_on generalizing mode input with
  | _ size ih =>
    cases input with
    | nil =>
      rw [Quoting.encodeFrom]
      split
      next locking =>
        have ended := decodeFrom_shiftTo locking mode .normal []
        rw [List.append_nil] at ended
        rw [ended, Quoting.decodeFrom]
      next => rw [Quoting.decodeFrom]
    | cons b rest =>
      have later (mode : ShiftMode) (count : Nat) :
          q.decodeFrom mode (q.encodeFrom mode (rest.drop count)) = .ok (rest.drop count) := by
        refine ih (rest.drop count).length ?_ mode _ rfl
        rw [← size, List.length_drop, List.length_cons]
        omega
      by_cases counted : ∃ rept, q.rept = some rept ∧ 3 ≤ runOf b rest
      · obtain ⟨rept, is, long⟩ := counted
        obtain ⟨quoted, written, reads⟩ := encodeOneByte_reads valid (q.after mode b) b
        have small : runOf b rest ≤ 94 := by
          unfold runOf
          omega
        obtain ⟨still, same⟩ := shift_after q mode b
        rw [same] at reads
        rw [encodeFrom_run is long, decodeFrom_shift, written, still, same, List.nil_append,
          decodeFrom_run valid is (by omega) small reads, later]
        exact congrArg Except.ok (replicate_run b rest)
      · obtain ⟨quoted, written, reads⟩ := encodeOneByte_reads valid mode b
        have short : ∀ rept, q.rept = some rept → runOf b rest < 3 := fun rept is =>
          Nat.lt_of_not_le fun long => counted ⟨rept, is, long⟩
        rw [encodeFrom_single short, written, List.append_assoc, decodeFrom_shift,
          decodeFrom_unit reads]
        have rest' := later (q.after mode b) 0
        rw [List.drop_zero] at rest'
        rw [rest']
        rfl

/-! ## Seven bits -/

/-- A quoted byte of seven bits has seven bits. -/
theorem quote_low (valid : q.Valid) {body : UInt8} (low : body < 0x80) (isPrefix : Bool) :
    ∀ c ∈ q.quote body isPrefix, c < 0x80 := by
  have qctl : q.qctl < 0x80 := (isPrefix_spec _ valid.qctl).2.2.1
  have printable := ctl_low body low
  intro c member
  rcases quote_cases q body isPrefix with ⟨x, quoted, ⟨_, rfl⟩ | ⟨_, rfl⟩⟩ | ⟨quoted, _⟩
  all_goals
    rw [quoted] at member
    simp only [List.mem_cons, List.not_mem_nil, or_false] at member
  · rcases member with rfl | rfl <;> assumption
  · rcases member with rfl | rfl <;> assumption
  · rw [member]
    exact low

/-- A shift has seven bits. -/
theorem shiftTo_low (valid : q.Valid) (mode target : ShiftMode) :
    ∀ c ∈ q.shiftTo mode target, c < 0x80 := by
  have qctl : q.qctl < 0x80 := (isPrefix_spec _ valid.qctl).2.2.1
  intro c member
  unfold Quoting.shiftTo at member
  split at member
  · simp only [List.mem_cons, List.not_mem_nil, or_false] at member
    rcases member with rfl | rfl
    · exact qctl
    · cases target <;> decide
  · cases member

/-- A byte is written in seven bits where its eighth has a prefix or a shift. -/
theorem encodeOneByte_low (valid : q.Valid) (seven : q.qbin ≠ none ∨ q.lockingShifts = true)
    (mode : ShiftMode) (b : UInt8) : ∀ c ∈ (q.encodeOneByte mode b).1, c < 0x80 := by
  have low : b &&& 0x7F < 0x80 := (low_high b).2.2
  unfold Quoting.encodeOneByte
  split
  next locking =>
    intro c member
    simp only [List.mem_append] at member
    cases member with
    | inl shifted => exact shiftTo_low valid _ _ c shifted
    | inr quoted =>
      split at quoted
      · simp only [List.mem_cons, List.not_mem_nil, or_false] at quoted
        rcases quoted with rfl | rfl
        · exact (isPrefix_spec _ valid.qctl).2.2.1
        · exact low
      · exact quote_low valid low _ c quoted
  next fixed =>
    have eighth : q.qbin ≠ none := seven.resolve_right fixed
    intro c member
    simp only at member
    split at member
    next qbin is =>
      split at member
      · rw [List.mem_cons] at member
        cases member with
        | inl same =>
          rw [same]
          exact (isPrefix_spec _ (valid.qbin qbin is).1).2.2.1
        | inr quoted => exact quote_low valid low _ c quoted
      next clear =>
        exact quote_low valid (low_of_clear b (by simpa using clear)) _ c member
    next none' => exact absurd none' eighth

/-- So is all the data. -/
theorem encodeFrom_low (valid : q.Valid) (seven : q.qbin ≠ none ∨ q.lockingShifts = true)
    (mode : ShiftMode) (input : List UInt8) : ∀ c ∈ q.encodeFrom mode input, c < 0x80 := by
  induction size : input.length using Nat.strong_induction_on generalizing mode input with
  | _ size ih =>
    cases input with
    | nil =>
      rw [Quoting.encodeFrom]
      split
      · exact shiftTo_low valid _ _
      · intro c member
        cases member
    | cons b rest =>
      have later (mode : ShiftMode) (count : Nat) :
          ∀ c ∈ q.encodeFrom mode (rest.drop count), c < 0x80 := by
        refine ih (rest.drop count).length ?_ mode _ rfl
        rw [← size, List.length_drop, List.length_cons]
        omega
      have byte (mode : ShiftMode) := encodeOneByte_low valid seven mode b
      intro c member
      by_cases counted : ∃ rept, q.rept = some rept ∧ 3 ≤ runOf b rest
      · obtain ⟨rept, is, long⟩ := counted
        have count : tochar (runOf b rest).toUInt8 < 0x80 := by
          have small : runOf b rest ≤ 94 := by
            unfold runOf
            omega
          rw [UInt8.lt_iff_toNat_lt]
          simp only [tochar, Nat.toUInt8_eq, UInt8.toNat_add, UInt8.toNat_ofNat',
            UInt8.toNat_ofNat]
          omega
        rw [encodeFrom_run is long] at member
        simp only [List.mem_append, List.mem_cons, List.not_mem_nil, or_false] at member
        rcases member with shifted | ((rfl | rfl) | quoted) | after
        · unfold Quoting.shift at shifted
          split at shifted
          · exact shiftTo_low valid _ _ c shifted
          · cases shifted
        · exact (isPrefix_spec _ (valid.rept _ is).1).2.2.1
        · exact count
        · exact byte _ c quoted
        · exact later _ _ c after
      · have short : ∀ rept, q.rept = some rept → runOf b rest < 3 := fun rept is =>
          Nat.lt_of_not_le fun long => counted ⟨rept, is, long⟩
        rw [encodeFrom_single short, List.mem_append] at member
        cases member with
        | inl quoted => exact byte _ c quoted
        | inr after =>
          have rest' := later (q.encodeOneByte mode b).2 0
          rw [List.drop_zero] at rest'
          exact rest' c after

/-- What is quoted is read back, and where the eighth bit has a prefix or a shift it has seven
bits. -/
theorem quoting_roundtrip (q : Quoting) (valid : q.Valid) (x : List UInt8) :
    q.decodeData (q.encodeData x) = .ok x ∧
      (q.qbin ≠ none ∨ q.lockingShifts = true → ∀ c ∈ q.encodeData x, c < 0x80) :=
  ⟨decode_encodeFrom valid .normal x, fun seven => encodeFrom_low valid seven .normal x⟩

/-- The prefixes of the gateway's own Send-Init. -/
def Quoting.proposed : Quoting := ⟨0x23, some 0x26, some 0x7E, false⟩

/-- A prefix in the data of the gateway's own prefixes is read back. -/
theorem quoting_roundtrip_proposed :
    Quoting.proposed.Valid ∧
      Quoting.proposed.decodeData (Quoting.proposed.encodeData [0x23, 0xFE, 0, 0, 0, 0x8D]) =
        .ok [0x23, 0xFE, 0, 0, 0, 0x8D] := by
  have valid : Quoting.proposed.Valid := by
    refine ⟨by decide, ?_, ?_, by decide⟩
    · intro c is
      cases is
      decide
    · intro c is
      cases is
      decide
  exact ⟨valid, (quoting_roundtrip _ valid _).1⟩

end EthernetGateway.Kermit
