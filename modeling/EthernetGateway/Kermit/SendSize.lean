import EthernetGateway.Kermit.Send

/-!
# The size of what a Kermit sender writes

The negotiated length bounds a packet, and the extended form needs the agreement of both sides. Data
and attributes are checked against the length before they are written, by a bound that takes no
account of the form where long packets were not agreed; a file name is not checked at all. The
packets keep to the negotiation where the names fit, and the bodies that pass the check do.
-/

namespace EthernetGateway.Kermit

/-! ## Sizes -/

/-- The bytes of a packet from its length to the end of its check. -/
def Reply.framed (r : Reply) : List UInt8 :=
  r.packet.body r.chkt ++ blockCheck r.chkt (r.packet.body r.chkt)

/-- A packet in extended form has its length behind the header. -/
def Reply.Extended (r : Reply) : Prop := (r.packet.body r.chkt).head? = some sp

instance (r : Reply) : Decidable r.Extended := inferInstanceAs (Decidable (_ = _))

/-- The bytes that a negotiated length allows a packet. A classic length counts what follows it, and
stands in front of that; an extended packet has all its bytes counted. -/
def Reply.allowance (session : Capabilities) (r : Reply) : Nat :=
  if r.Extended then session.maxl else session.maxl + 1

/-- A packet keeps to the negotiation. -/
structure Respects (session : Capabilities) (r : Reply) : Prop where
  form : r.Extended → session.longPackets
  size : r.framed.length ≤ r.allowance session

/-- The kinds of the packets that transfer files. -/
def transferKinds : List UInt8 := [typeFile, typeAttribute, typeData, typeEof, typeEot]

/-- A body of some bytes goes into a classic packet. -/
def Classic (session : Capabilities) (size : Nat) : Prop :=
  2 + size + checkSize session.chkt ≤ classicMaxPacketLen

/-- A body of some bytes makes a packet within the negotiation. -/
def Fits (session : Capabilities) (size : Nat) : Prop :=
  (Classic session size ∧ 2 + size + checkSize session.chkt ≤ session.maxl) ∨
    (session.longPackets ∧ 6 + size + checkSize session.chkt ≤ session.maxl)

/-- A body of some bytes is refused by `check_encoded_fits`, or needs no extended form that was not
agreed. -/
def Suits (session : Capabilities) (size : Nat) : Prop :=
  maxPayloadFor session < size ∨ session.longPackets ∨ Classic session size

instance (session : Capabilities) (size : Nat) : Decidable (Classic session size) :=
  inferInstanceAs (Decidable (_ ≤ _))

instance (session : Capabilities) (size : Nat) : Decidable (Fits session size) :=
  inferInstanceAs (Decidable (_ ∨ _))

instance (session : Capabilities) (size : Nat) : Decidable (Suits session size) :=
  inferInstanceAs (Decidable (_ ∨ _))

variable {session : Capabilities} {r : Reply}

/-- The extended form is the one for what does not go into a classic packet. -/
theorem extended_iff (check : r.chkt = session.chkt) :
    r.Extended ↔ ¬Classic session r.packet.payload.length := by
  have bounds := checkSize_bounds session.chkt
  simp only [Reply.Extended, Packet.body, Classic, check, classicMaxPacketLen]
  by_cases short : 1 + 1 + r.packet.payload.length + checkSize session.chkt ≤ 94
  · have other :
        tochar (1 + 1 + r.packet.payload.length + checkSize session.chkt).toUInt8 ≠ sp := by
      intro same
      have back := toNat_unchar_tochar (n := 1 + 1 + r.packet.payload.length +
        checkSize session.chkt) (by omega)
      rw [same] at back
      have none : (unchar sp).toNat = 0 := by decide
      omega
    rw [if_pos short]
    constructor
    · intro same
      exact absurd (Option.some.inj same) other
    · intro long
      omega
  · rw [if_neg short]
    constructor
    · intro _
      omega
    · intro _
      rfl

/-- The bytes of a packet. -/
theorem framed_length (check : r.chkt = session.chkt) :
    r.framed.length = if 2 + r.packet.payload.length + checkSize session.chkt ≤ classicMaxPacketLen
      then 3 + r.packet.payload.length + checkSize session.chkt
      else 6 + r.packet.payload.length + checkSize session.chkt := by
  have same : 1 + 1 + r.packet.payload.length + checkSize session.chkt =
      2 + r.packet.payload.length + checkSize session.chkt := by omega
  simp only [Reply.framed, Packet.body, check, List.length_append, blockCheck_length, same]
  split <;> simp <;> omega

/-- A packet keeps to the negotiation exactly where its body fits. -/
theorem respects_iff_fits (check : r.chkt = session.chkt) :
    Respects session r ↔ Fits session r.packet.payload.length := by
  have extended := extended_iff check
  have length := framed_length check
  by_cases classic : Classic session r.packet.payload.length
  · have allowed : r.allowance session = session.maxl + 1 :=
      if_neg fun long => extended.mp long classic
    rw [if_pos (show 2 + _ + _ ≤ _ from classic)] at length
    refine ⟨fun respects => .inl ⟨classic, ?_⟩, fun fits =>
      ⟨fun long => absurd classic (extended.mp long), ?_⟩⟩
    · have size := respects.size
      omega
    · obtain ⟨_, within⟩ | ⟨_, within⟩ := fits <;> omega
  · have allowed : r.allowance session = session.maxl := if_pos (extended.mpr classic)
    rw [if_neg (show ¬2 + _ + _ ≤ _ from classic)] at length
    refine ⟨fun respects => .inr ⟨respects.form (extended.mpr classic), ?_⟩, fun fits => ?_⟩
    · have size := respects.size
      omega
    · obtain ⟨isClassic, _⟩ | ⟨agreed, within⟩ := fits
      · exact absurd isClassic classic
      · exact ⟨fun _ => agreed, by omega⟩

/-- A packet without a body fits. -/
theorem fits_empty (least : minPacketLen ≤ session.maxl) : Fits session 0 := by
  have bounds := checkSize_bounds session.chkt
  refine .inl ⟨?_, ?_⟩
  · show 2 + 0 + checkSize session.chkt ≤ 94
    omega
  · show 2 + 0 + checkSize session.chkt ≤ session.maxl
    have least : 10 ≤ session.maxl := least
    omega

/-- A body that passes `check_encoded_fits` fits where it needs no extended form that was not
agreed. -/
theorem fits_of_checked {encoded : List UInt8} (least : minPacketLen ≤ session.maxl)
    (suits : Suits session encoded.length) (checked : checkEncodedFits encoded session = .ok ()) :
    Fits session encoded.length := by
  have bounds := checkSize_bounds session.chkt
  have least : 10 ≤ session.maxl := least
  have within : ¬encoded.length > maxPayloadFor session := by
    intro beyond
    rw [checkEncodedFits, if_pos beyond] at checked
    cases checked
  have payload : encoded.length ≤ maxPayloadFor session := by omega
  rw [maxPayloadFor] at payload
  by_cases long : session.longPackets ∧ session.maxl > classicMaxPacketLen
  · rw [if_pos long] at payload
    exact .inr ⟨long.1, by omega⟩
  · rw [if_neg long] at payload
    have classic : Classic session encoded.length := by
      obtain beyond | agreed | classic := suits
      · exact absurd beyond within
      · have short : ¬session.maxl > 94 := fun large => long ⟨agreed, large⟩
        show 2 + encoded.length + checkSize session.chkt ≤ 94
        omega
      · exact classic
    exact .inl ⟨classic, by omega⟩

/-- The length of a session is the least of a packet at least. -/
theorem least_maxl (ours theirs : Capabilities) :
    minPacketLen ≤ (intersectCapabilities ours theirs).maxl := Nat.le_max_right _ _

/-! ## What is written -/

/-- A packet of a file transfer has a body that fits. -/
def Sound (session : Capabilities) (p : Packet) : Prop :=
  p.kind ∈ transferKinds → Fits session p.payload.length

/-- What has been written since has a property. -/
def Adds (good : Reply → Prop) (before : List Reply) (wire : Wire) : Prop :=
  ∃ new, wire.written = before ++ new ∧ ∀ r ∈ new, good r

/-- A packet of a file transfer keeps to the negotiation. -/
def Transfers (session : Capabilities) (r : Reply) : Prop :=
  r.packet.kind ∈ transferKinds → Respects session r

/-- All packets outstanding may be written. -/
def AllSound (session : Capabilities) (outstanding : List OutstandingPacket) : Prop :=
  ∀ o ∈ outstanding, Sound session o.packet

/-- All chunks may be written. -/
def AllSuit (session : Capabilities) (chunks : Chunks) : Prop :=
  ∀ chunk ∈ chunks, Suits session (session.quoting.encodeData chunk).length

/-- A part of the sender keeps to the negotiation, and its value has a property. -/
abbrev Within {α : Type} (session : Capabilities) (before : List Reply) (yields : α → Prop)
    (program : Sending α) : Prop := program.Keeps (Adds (Transfers session) before) yields

/-- A value of which nothing is said. -/
def Whatever {α : Type} (_ : α) : Prop := True

section

variable {good : Reply → Prop} {before : List Reply} {p : Packet} {chunk : List UInt8}
variable {chunks : Chunks} {outstanding : List OutstandingPacket}

/-- A packet is written. -/
theorem write_adds {chkt : UInt8} (sound : good ⟨p, chkt⟩) :
    (write chkt p).Keeps (Adds good before) Whatever := by
  apply Fallible.Keeps.change
  intro wire held
  obtain ⟨new, written, kept⟩ := held
  refine ⟨new ++ [⟨p, chkt⟩], ?_, ?_⟩
  · rw [written, List.append_assoc]
  · intro r mem
    obtain old | last := List.mem_append.mp mem
    · exact kept r old
    · cases List.mem_singleton.mp last
      exact sound

/-- A read writes nothing. -/
theorem readAnswer_adds : readAnswer.Keeps (Adds good before) Whatever := by
  intro wire held
  unfold readAnswer
  cases wire.answers with
  | nil => exact held
  | cons answer answers => exact ⟨trivial, held⟩

/-- Nor does a look at what is left to be read. -/
theorem turnsLeft_adds : turnsLeft.Keeps (Adds good before) Whatever :=
  .view fun _ _ => trivial

/-- A failure writes nothing. -/
theorem giveUp_adds {α : Type} {yields : α → Prop} (reason : String) :
    (giveUp reason).Keeps (Adds good before) yields := .fail _

/-- Nor does the context of one. -/
theorem inContext_adds {α : Type} {yields : α → Prop} {context : String} {program : Sending α}
    (within : program.Keeps (Adds good before) yields) :
    (inContext context program).Keeps (Adds good before) yields := by
  intro wire held
  have ended := within wire held
  unfold inContext
  cases ran : program wire with
  | mk ending reached =>
    rw [ran] at ended
    cases ending with
    | ok value => exact ended
    | error stop => cases stop <;> exact ended

/-- The loop for one packet writes that packet. -/
theorem awaitAck_adds {chkt : UInt8} (sound : good ⟨p, chkt⟩) (maxRetries : Nat)
    (isSendInit : Bool) (turns attempts : Nat) :
    (awaitAck maxRetries chkt p isSendInit turns attempts).Keeps (Adds good before) Whatever := by
  induction turns generalizing attempts with
  | zero => exact .fail _
  | succ turns step =>
    apply readAnswer_adds.bind
    intro answer _
    cases verdict maxRetries p isSendInit answer.reading with
    | acked payload => exact .pure trivial
    | failed reason => exact giveUp_adds reason
    | stale => exact step attempts
    | resend error =>
      show Fallible.Keeps _ _ (ite _ _ _)
      split
      · exact giveUp_adds error
      · apply (write_adds sound).bind
        intro _ _
        exact step (attempts + 1)

/-- `send_and_await_ack` writes its packet. -/
theorem sendAndAwaitAck_adds {chkt : UInt8} (sound : good ⟨p, chkt⟩) (maxRetries : Nat)
    (isSendInit : Bool) :
    (sendAndAwaitAck maxRetries chkt p isSendInit).Keeps (Adds good before) Whatever := by
  apply (write_adds sound).bind
  intro _ _
  apply turnsLeft_adds.bind
  intro turns _
  exact awaitAck_adds sound maxRetries isSendInit turns 0

/-- The Send-Init, proposed once or twice. -/
theorem negotiate_adds (sound : ∀ r : Reply, r.packet.kind = typeSendInit → good r)
    (maxRetries : Nat) (request : SendRequest) (seq : UInt8) (ours : Capabilities) :
    (negotiate maxRetries request seq ours).Keeps (Adds good before) Whatever := by
  have proposed (retries : Nat) (ours : Capabilities) :
      (sendInit retries seq ours).Keeps (Adds good before) Whatever :=
    sendAndAwaitAck_adds (sound _ rfl) retries true
  have attempted : (Fallible.attempt (sendInit maxRetries seq ours)).Keeps (Adds good before)
      Whatever := fun wire held => ⟨trivial, (proposed maxRetries ours).reached held⟩
  apply attempted.bind
  intro ending _
  cases ending with
  | ok payload => exact .pure trivial
  | error stop =>
    cases stop with
    | waiting => exact .fail _
    | failed reason =>
      show Fallible.Keeps _ _ (ite _ _ _)
      split
      · apply (inContext_adds (proposed _ .default)).bind
        intro payload _
        exact .pure trivial
      · exact giveUp_adds _

/-- The opening writes Send-Inits and nothing else. -/
theorem opening_adds (sound : ∀ r : Reply, r.packet.kind = typeSendInit → good r)
    (config : KermitConfig) (request : SendRequest) (files : List SendFile) :
    (opening config request files).Keeps (Adds good before) Whatever := by
  unfold opening
  split
  · exact giveUp_adds _
  · cases files.find? fun f => decide (f.data.length > maxFileSize) with
    | some f => exact giveUp_adds _
    | none =>
      have waited : waitForInitiatingNak.Keeps (Adds good before) Whatever := by
        apply readAnswer_adds.bind
        intro answer _
        cases answer.reading with
        | cancelled error => exact giveUp_adds error
        | aborted error => exact giveUp_adds error
        | packet p => exact .pure trivial
        | failed error => exact .pure trivial
      show Fallible.Keeps _ _ (ite _ _ _)
      split
      · apply waited.bind
        intro _ _
        exact negotiate_adds sound _ request _ _
      · exact negotiate_adds sound _ request _ _

/-- A packet that may be written is. -/
theorem write_within (sound : Sound session p) :
    Within session before Whatever (write session.chkt p) :=
  write_adds fun kind => (respects_iff_fits rfl).mpr (sound kind)

/-- `send_and_await_ack` on a packet that may be written. -/
theorem sendAndAwaitAck_within (sound : Sound session p) (maxRetries : Nat) (isSendInit : Bool) :
    Within session before Whatever (sendAndAwaitAck maxRetries session.chkt p isSendInit) :=
  sendAndAwaitAck_adds (fun kind => (respects_iff_fits rfl).mpr (sound kind)) maxRetries isSendInit

/-- `check_encoded_fits` lets nothing pass that it refuses. -/
theorem checked_within (encoded : List UInt8) :
    Within session before (fun _ => checkEncodedFits encoded session = .ok ())
      (Fallible.given ((checkEncodedFits encoded session).mapError Stop.failed)) := by
  apply Fallible.Keeps.given
  intro value ended
  cases check : checkEncodedFits encoded session with
  | ok _ => rfl
  | error reason =>
    rw [check] at ended
    cases ended

/-- A chunk that may be written makes a packet that may. -/
theorem encodeChunk_within (least : minPacketLen ≤ session.maxl) (seq : UInt8)
    (suits : Suits session (session.quoting.encodeData chunk).length) :
    Within session before (Sound session) (encodeChunk session seq chunk) := by
  apply (checked_within (session.quoting.encodeData chunk)).bind
  intro _ check
  apply Fallible.Keeps.pure
  intro _
  exact fits_of_checked least suits check

/-- The data of a file, one packet at a time. -/
theorem sendChunks_within {terms : SendTerms} (least : minPacketLen ≤ terms.session.maxl)
    (suit : AllSuit terms.session chunks) (seq : UInt8) :
    Within terms.session before Whatever (sendChunks terms chunks seq) := by
  induction chunks generalizing seq with
  | nil => exact .pure trivial
  | cons chunk chunks step =>
    apply (encodeChunk_within least seq (suit chunk List.mem_cons_self)).bind
    intro p sound
    apply (inContext_adds (sendAndAwaitAck_within sound _ _)).bind
    intro _ _
    exact step (fun chunk mem => suit chunk (List.mem_cons_of_mem _ mem)) (nextSeq seq)

/-! ## Several packets at a time -/

/-- A packet that may be written goes out. -/
theorem AllSound.concat (all : AllSound session outstanding) (sound : Sound session p) :
    AllSound session (outstanding ++ [⟨p, 0⟩]) := by
  intro o mem
  obtain old | last := List.mem_append.mp mem
  · exact all o old
  · cases List.mem_singleton.mp last
    exact sound

/-- A packet outstanding is written again. -/
theorem resendAt_within {terms : SendTerms} (error : Packet → String)
    (all : AllSound terms.session outstanding) (place : Nat) :
    Within terms.session before (AllSound terms.session)
      (resendAt terms error outstanding place) := by
  unfold resendAt
  cases found : outstanding[place]? with
  | none => exact .pure all
  | some o =>
    have sound : Sound terms.session o.packet := all o (List.mem_of_getElem? found)
    show Within _ _ _ (ite _ _ _)
    split
    · exact giveUp_adds _
    · apply (write_within sound).bind
      intro _ _
      apply Fallible.Keeps.pure
      intro other mem
      obtain old | same := List.mem_or_eq_of_mem_set mem
      · exact all other old
      · rw [same]
        exact sound

/-- Several packets outstanding are written again. -/
theorem resendAll_within {terms : SendTerms} (error : Packet → String) (places : List Nat)
    (all : AllSound terms.session outstanding) :
    Within terms.session before (AllSound terms.session)
      (resendAll terms error places outstanding) := by
  induction places generalizing outstanding with
  | nil => exact .pure all
  | cons place places step =>
    apply (resendAt_within error all place).bind
    intro outstanding all
    exact step all

/-- A packet that is answered is no longer outstanding. -/
theorem AllSound.eraseIdx (all : AllSound session outstanding) (place : Nat) :
    AllSound session (outstanding.eraseIdx place) :=
  fun o mem => all o (List.mem_of_mem_eraseIdx mem)

/-- The first step of a turn of the window. -/
theorem fillWindow_within (least : minPacketLen ≤ session.maxl) (suit : AllSuit session chunks)
    (next : UInt8) (all : AllSound session outstanding) :
    Within session before
      (fun window => AllSuit session window.chunks ∧ AllSound session window.outstanding)
      (fillWindow session chunks next outstanding) := by
  induction chunks generalizing next outstanding with
  | nil => exact .pure ⟨suit, all⟩
  | cons chunk chunks step =>
    unfold fillWindow
    split
    · apply (encodeChunk_within least next (suit chunk List.mem_cons_self)).bind
      intro p sound
      apply (write_within sound).bind
      intro _ _
      exact step (fun chunk mem => suit chunk (List.mem_cons_of_mem _ mem)) (nextSeq next)
        (all.concat sound)
    · exact .pure ⟨suit, all⟩

/-- The rest of a turn of the window. -/
theorem windowAnswer_within {terms : SendTerms} (all : AllSound terms.session outstanding)
    (answer : Answer) :
    Within terms.session before (AllSound terms.session)
      (windowAnswer terms outstanding answer) := by
  unfold windowAnswer
  cases answer.reading with
  | packet p =>
    show Within _ _ _ (ite _ _ _)
    split
    · exact giveUp_adds _
    · cases placeOf outstanding p.seq with
      | none => exact .pure all
      | some place =>
        show Within _ _ _ (ite _ _ _)
        split
        · exact .pure (all.eraseIdx place)
        · split
          · exact resendAt_within _ all place
          · exact .pure all
  | cancelled error => exact giveUp_adds error
  | aborted error => exact giveUp_adds error
  | failed error =>
    show Within _ _ _ (ite _ _ _)
    split
    · exact giveUp_adds error
    · exact resendAll_within _ _ all

/-- The loop of the window. -/
theorem windowLoop_within {terms : SendTerms} (least : minPacketLen ≤ terms.session.maxl)
    (turns : Nat) {window : Window} (suit : AllSuit terms.session window.chunks)
    (all : AllSound terms.session window.outstanding) :
    Within terms.session before Whatever (windowLoop terms turns window) := by
  induction turns generalizing window with
  | zero => exact .fail _
  | succ turns step =>
    apply (fillWindow_within least suit window.next all).bind
    intro filled sound
    show Within _ _ _ (ite _ _ _)
    split
    · exact .pure trivial
    · apply readAnswer_adds.bind
      intro answer _
      apply (windowAnswer_within sound.2 answer).bind
      intro outstanding all
      exact step sound.1 all

/-- `send_d_packets_windowed`. -/
theorem sendWindowed_within {terms : SendTerms} (least : minPacketLen ≤ terms.session.maxl)
    (suit : AllSuit terms.session chunks) (seq : UInt8) :
    Within terms.session before Whatever (sendWindowed terms chunks seq) := by
  apply turnsLeft_adds.bind
  intro turns _
  apply windowLoop_within least turns suit
  intro o mem
  cases mem

/-- The first step of a stream. -/
theorem pushChunks_within (least : minPacketLen ≤ session.maxl) (suit : AllSuit session chunks)
    (next : UInt8) (all : AllSound session outstanding) :
    Within session before (fun pushed => AllSound session pushed.2)
      (pushChunks session chunks next outstanding) := by
  induction chunks generalizing next outstanding with
  | nil => exact .pure all
  | cons chunk chunks step =>
    apply (encodeChunk_within least next (suit chunk List.mem_cons_self)).bind
    intro p sound
    apply (write_within sound).bind
    intro _ _
    exact step (fun chunk mem => suit chunk (List.mem_cons_of_mem _ mem)) (nextSeq next)
      (all.concat sound)

/-- `handle_streaming_response`. -/
theorem handleStreamingResponse_within {terms : SendTerms}
    (all : AllSound terms.session outstanding) (answer : Packet) :
    Within terms.session before (AllSound terms.session)
      (handleStreamingResponse terms outstanding answer) := by
  unfold handleStreamingResponse
  split
  · exact giveUp_adds _
  · split
    · cases placeOf outstanding answer.seq with
      | none => exact .pure all
      | some place => exact .pure (all.eraseIdx place)
    · split
      · split
        · exact giveUp_adds _
        · cases placeOf outstanding answer.seq with
          | none => exact .pure all
          | some place => exact resendAt_within _ all place
      · exact .pure all

/-- The last step of a stream. -/
theorem drainLoop_within {terms : SendTerms} {z : Packet} (sound : Sound terms.session z)
    (turns attempts : Nat) (all : AllSound terms.session outstanding) :
    Within terms.session before Whatever (drainLoop terms z turns attempts outstanding) := by
  induction turns generalizing attempts outstanding with
  | zero => exact .fail _
  | succ turns step =>
    apply readAnswer_adds.bind
    intro answer _
    cases answer.reading with
    | packet p =>
      show Within _ _ _ (ite _ _ _)
      split
      · exact giveUp_adds _
      · split
        · exact .pure trivial
        · split
          · split
            · exact giveUp_adds _
            · apply (write_within sound).bind
              intro _ _
              exact step (attempts + 1) all
          · apply (handleStreamingResponse_within all p).bind
            intro outstanding all
            exact step attempts all
    | cancelled error => exact giveUp_adds error
    | aborted error => exact giveUp_adds error
    | failed error =>
      show Within _ _ _ (ite _ _ _)
      split
      · exact giveUp_adds error
      · have again (attempts : Nat) : Within terms.session before Whatever (do
            let outstanding ← resendAll terms
              (fun o => "Kermit: too many timeouts for D-packet seq " ++ showSeq o.seq ++
                " (stream)") (overdueAlone outstanding answer.overdue) outstanding
            drainLoop terms z turns attempts outstanding) := by
          apply (resendAll_within _ _ all).bind
          intro outstanding all
          exact step attempts all
        split
        · exact giveUp_adds _
        · show Within _ _ _ (ite _ _ _)
          split
          · apply (write_within sound).bind
            intro _ _
            exact again _
          · exact again _

/-- `send_d_and_z_streaming`. -/
theorem sendStreaming_within {terms : SendTerms} (least : minPacketLen ≤ terms.session.maxl)
    (suit : AllSuit terms.session chunks) (seq : UInt8) :
    Within terms.session before Whatever (sendStreaming terms chunks seq) := by
  have none : AllSound terms.session [] := by
    intro o mem
    cases mem
  apply (pushChunks_within least suit seq none).bind
  intro (next, outstanding) all
  have sound : Sound terms.session (.empty typeEof next) := fun _ => fits_empty least
  apply (write_within sound).bind
  intro _ _
  apply turnsLeft_adds.bind
  intro turns _
  apply (drainLoop_within sound turns 0 all).bind
  intro _ _
  exact .pure trivial

/-! ## Files -/

/-- What is sent of some files stays within the negotiation: their names fit, and what is checked
before it is written does where it passes. A peer that is told attributes chooses where the data of
a file begins. -/
structure Suited (terms : SendTerms) (files : List SendFile) : Prop where
  names : terms.textResponse = false →
    ∀ f ∈ files, Fits terms.session f.name.toUtf8.length
  attributes : terms.session.attributePackets = true → terms.textResponse = false →
    ∀ f ∈ files, Suits terms.session (terms.session.quoting.encodeData f.attributes).length
  data : ∀ f ∈ files, ∀ offset,
    offset = 0 ∨ (terms.session.attributePackets = true ∧ terms.textResponse = false) →
      AllSuit terms.session (f.chunksFrom terms.session offset)

/-- The header of a file whose name fits. -/
theorem sendHeader_within {terms : SendTerms} (seq : UInt8) {f : SendFile}
    (fits : terms.textResponse = false → Fits terms.session f.name.toUtf8.length) :
    Within terms.session before Whatever (sendHeader terms seq f) := by
  apply inContext_adds
  apply sendAndAwaitAck_within
  intro kind
  cases text : terms.textResponse with
  | false => exact fits text
  | true =>
    rw [text] at kind
    exact absurd kind (show typeText ∉ transferKinds by decide)

/-- The attributes of a file. -/
theorem sendAttributes_within {terms : SendTerms} (least : minPacketLen ≤ terms.session.maxl)
    (seq : UInt8) {f : SendFile}
    (suits : Suits terms.session (terms.session.quoting.encodeData f.attributes).length) :
    Within terms.session before Whatever (sendAttributes terms seq f) := by
  apply (checked_within (terms.session.quoting.encodeData f.attributes)).bind
  intro _ check
  have sound : Sound terms.session
      ⟨typeAttribute, seq, terms.session.quoting.encodeData f.attributes⟩ :=
    fun _ => fits_of_checked least suits check
  apply (inContext_adds (sendAndAwaitAck_within sound _ _)).bind
  intro ack _
  exact .pure trivial

/-- The data of a file and its end. -/
theorem sendData_within {terms : SendTerms} (least : minPacketLen ≤ terms.session.maxl)
    (seq : UInt8) (suit : AllSuit terms.session chunks) :
    Within terms.session before Whatever (sendData terms seq chunks) := by
  have ended (seq : UInt8) : Within terms.session before Whatever (do
      let _ ← inContext "Z-packet" (sendAndAwaitAck terms.maxRetries terms.session.chkt
        (.empty typeEof seq) false)
      pure (nextSeq seq)) := by
    have sound : Sound terms.session (.empty typeEof seq) := fun _ => fits_empty least
    apply (inContext_adds (sendAndAwaitAck_within sound _ _)).bind
    intro _ _
    exact .pure trivial
  unfold sendData
  split
  · exact inContext_adds (sendStreaming_within least suit seq)
  · show Within _ _ _ (ite _ _ _)
    split
    · apply (inContext_adds (sendWindowed_within least suit seq)).bind
      intro seq _
      exact ended seq
    · apply (sendChunks_within least suit seq).bind
      intro seq _
      exact ended seq

/-- One file. -/
theorem sendFile_within {terms : SendTerms} {files : List SendFile}
    (least : minPacketLen ≤ terms.session.maxl) (suited : Suited terms files) (seq : UInt8)
    {f : SendFile} (mem : f ∈ files) :
    Within terms.session before Whatever (sendFile terms seq f) := by
  apply (sendHeader_within seq fun plain => suited.names plain f mem).bind
  intro _ _
  show Within _ _ _ (ite _ _ _)
  split
  · rename_i told
    rw [Bool.and_eq_true, Bool.not_eq_true'] at told
    apply (sendAttributes_within least (nextSeq seq) (suited.attributes told.1 told.2 f mem)).bind
    intro offset _
    exact sendData_within least _ (suited.data f mem offset (.inr told))
  · exact sendData_within least _ (suited.data f mem 0 (.inl rfl))

/-- The files, one after the other. -/
theorem sendFiles_within {terms : SendTerms} {files : List SendFile}
    (least : minPacketLen ≤ terms.session.maxl) (suited : Suited terms files)
    {part : List SendFile} (inside : part ⊆ files) (seq : UInt8) :
    Within terms.session before Whatever (sendFiles terms part seq) := by
  induction part generalizing seq with
  | nil => exact .pure trivial
  | cons f part step =>
    apply (sendFile_within least suited seq (inside List.mem_cons_self)).bind
    intro seq _
    exact step (fun f mem => inside (List.mem_cons_of_mem _ mem)) seq

/-- What follows the Send-Init. -/
theorem transfer_within {terms : SendTerms} {files : List SendFile}
    (least : minPacketLen ≤ terms.session.maxl) (suited : Suited terms files) (seq : UInt8) :
    Within terms.session before Whatever (transfer terms files seq) := by
  apply (sendFiles_within least suited (List.Subset.refl files) seq).bind
  intro seq _
  have sound : Sound terms.session (.empty typeEot seq) := fun _ => fits_empty least
  apply (inContext_adds (sendAndAwaitAck_within sound _ _)).bind
  intro _ _
  exact .pure trivial

end

/-! ## The whole run -/

/-- The session that a run has negotiated. -/
def Negotiates (config : KermitConfig) (request : SendRequest) (files : List SendFile)
    (wire : Wire) (ours theirs : Capabilities) : Prop :=
  ∃ payload, parseSendInitPayload payload = theirs ∧
    (opening config request files wire).1.toOption = some (ours, payload)

/-- A packet of a file transfer keeps to what its run has negotiated. -/
def KeepsTo (config : KermitConfig) (request : SendRequest) (files : List SendFile) (wire : Wire)
    (r : Reply) : Prop :=
  r.packet.kind ∈ transferKinds → ∃ ours theirs,
    Negotiates config request files wire ours theirs ∧
      Respects (intersectCapabilities ours theirs) r

/-- Whatever a peer proposes and answers, what is written of files that suit the session keeps to
it, and so does a whole run of `kermit_send_impl` that negotiates its session. -/
theorem sent_within_negotiation (config : KermitConfig) (request : SendRequest)
    (files : List SendFile) (wire : Wire) :
    (∀ ours theirs seq, Suited (termsOf config request ours theirs) files →
      Adds (Transfers (intersectCapabilities ours theirs)) wire.written
        (transfer (termsOf config request ours theirs) files seq wire).2) ∧
    ((∀ ours theirs, Negotiates config request files wire ours theirs →
        Suited (termsOf config request ours theirs) files) →
      Adds (KeepsTo config request files wire) wire.written
        (kermitSendImpl config request files wire).2) := by
  have sent (ours theirs : Capabilities) (seq : UInt8) (before : List Reply) (reached : Wire)
      (held : Adds (Transfers (intersectCapabilities ours theirs)) before reached)
      (suited : Suited (termsOf config request ours theirs) files) :
      Adds (Transfers (intersectCapabilities ours theirs)) before
        (transfer (termsOf config request ours theirs) files seq reached).2 :=
    (transfer_within (least_maxl ours theirs) suited seq).reached held
  have start (good : Reply → Prop) : Adds good wire.written wire := by
    refine ⟨[], (List.append_nil _).symm, ?_⟩
    intro r mem
    cases mem
  constructor
  · intro ours theirs seq suited
    exact sent ours theirs seq _ wire (start _) suited
  · intro suited
    have opened (good : Reply → Prop) (sound : ∀ r : Reply, r.packet.kind = typeSendInit → good r) :
        Adds good wire.written (opening config request files wire).2 :=
      (opening_adds sound config request files).reached (start good)
    have other : ∀ r : Reply, r.packet.kind = typeSendInit → r.packet.kind ∉ transferKinds := by
      intro r same
      rw [same]
      decide
    cases ran : opening config request files wire with
    | mk ending reached =>
      cases ending with
      | error stop =>
        have run : kermitSendImpl config request files wire = (.error stop, reached) :=
          Fallible.bind_error ran _
        rw [run]
        have kept := opened (KeepsTo config request files wire) fun r same kind =>
          absurd kind (other r same)
        rw [ran] at kept
        exact kept
      | ok value =>
        obtain ⟨ours, payload⟩ := value
        have made : Negotiates config request files wire ours (parseSendInitPayload payload) :=
          ⟨payload, rfl, by rw [ran]; rfl⟩
        have kept := opened (Transfers (intersectCapabilities ours (parseSendInitPayload payload)))
          fun r same kind => absurd kind (other r same)
        rw [ran] at kept
        have run : kermitSendImpl config request files wire = transfer
            (termsOf config request ours (parseSendInitPayload payload)) files
            (nextSeq (request.startingSeq &&& 0x3F)) reached := Fallible.bind_ok ran _
        rw [run]
        obtain ⟨new, written, respects⟩ :=
          sent ours _ (nextSeq (request.startingSeq &&& 0x3F)) _ reached kept (suited _ _ made)
        exact ⟨new, written, fun r mem kind => ⟨ours, _, made, respects r mem kind⟩⟩

/-- A peer that acknowledges a Send-Init without a proposal of its own. -/
def silentPeer : Wire := ⟨[⟨.packet ⟨typeAck, 0, []⟩, fun _ => false, false⟩], []⟩

/-- A request to send from the first number on. -/
def plainRequest : SendRequest := ⟨0, false, false, 60⟩

/-- A peer that acknowledges the Send-Init without a proposal, and the packets of one short file. -/
def acknowledgingPeer : Wire :=
  ⟨(List.range 5).map fun n => ⟨.packet ⟨typeAck, UInt8.ofNat n, []⟩, fun _ => false, false⟩, []⟩

/-- A file of one byte. -/
def oneByteFile : SendFile := ⟨['A'], [0x42], none, none⟩

/-- A file of one byte, sent whole, keeps to what such a peer negotiates. -/
theorem sent_within_negotiation_one_byte :
    ((kermitSendImpl .default plainRequest [oneByteFile] acknowledgingPeer).2.written.map
        fun reply => reply.packet.kind) =
      [typeSendInit, typeFile, typeData, typeEof, typeEot] ∧
    Adds (KeepsTo .default plainRequest [oneByteFile] acknowledgingPeer) []
      (kermitSendImpl .default plainRequest [oneByteFile] acknowledgingPeer).2 := by
  refine ⟨by decide +kernel, ?_⟩
  apply (sent_within_negotiation .default plainRequest [oneByteFile] acknowledgingPeer).2
  rintro ours theirs ⟨payload, parsed, negotiated⟩
  have proposal : (opening .default plainRequest [oneByteFile] acknowledgingPeer).1.toOption =
      some (configCapabilities .default, []) := by rfl
  rw [proposal] at negotiated
  obtain ⟨rfl, rfl⟩ := Prod.mk.inj (Option.some.inj negotiated)
  subst parsed
  constructor
  · intro _ f mem
    cases List.mem_singleton.mp mem
    decide
  · intro told
    cases told
  · intro f mem offset start
    cases List.mem_singleton.mp mem
    obtain zero | told := start
    · rw [zero]
      intro chunk one
      have only : chunk = [0x42] := by
        have chunks : SendFile.chunksFrom ⟨['A'], [0x42], none, none⟩
            (intersectCapabilities (configCapabilities .default) (parseSendInitPayload [])) 0 =
              [[0x42]] := by decide
        exact List.mem_singleton.mp (chunks ▸ one)
      have encoded : Quoting.encodeData ⟨0x23, none, none, false⟩ [0x42] = [0x42] := by
        simp only [Quoting.encodeData, Quoting.encodeFrom]
        decide
      rw [only]
      show Suits _ (Quoting.encodeData ⟨0x23, none, none, false⟩ [0x42]).length
      rw [encoded]
      decide
    · cases told.1

set_option maxRecDepth 4000 in
/-- A name of a hundred letters goes out in extended form to a peer that knows no long packets. -/
theorem long_name_extended :
    ¬∀ (config : KermitConfig) (request : SendRequest) (files : List SendFile) (wire : Wire),
      Adds (KeepsTo config request files wire) wire.written
        (kermitSendImpl config request files wire).2 := by
  intro all
  obtain ⟨new, written, kept⟩ := all .default plainRequest
    [⟨List.replicate 100 'A', [], none, none⟩] silentPeer
  have second : new[1]? = some ⟨⟨typeFile, 1, List.replicate 100 0x41⟩, 0x31⟩ := by
    have wrote : (kermitSendImpl .default plainRequest
        [⟨List.replicate 100 'A', [], none, none⟩] silentPeer).2.written[1]? =
          some ⟨⟨typeFile, 1, List.replicate 100 0x41⟩, 0x31⟩ := by rfl
    rw [written] at wrote
    exact wrote
  obtain ⟨ours, theirs, ⟨payload, parsed, negotiated⟩, respects⟩ :=
    kept _ (List.mem_of_getElem? second) (by decide)
  have proposal : payload = [] := by
    have silent : (opening .default plainRequest [⟨List.replicate 100 'A', [], none, none⟩]
        silentPeer).1.toOption = some (configCapabilities .default, []) := by rfl
    rw [silent] at negotiated
    exact (Prod.mk.inj (Option.some.inj negotiated)).2.symm
  have short : (intersectCapabilities ours theirs).longPackets = false := by
    rw [← parsed, proposal]
    exact Bool.and_false _
  have long := respects.form (by decide)
  rw [short] at long
  cases long

end EthernetGateway.Kermit
