import EthernetGateway.Machine.FloppyTransfer

/-!
# A transfer gives the sectors asked for

While a Read Sector is in progress, the bytes the guest has still to get are the rest of the sector
in the chip's buffer and, for a multiple-record command, the sectors of the track behind it. Every
read of the data register gives the first of them; no other read gives any.
-/

namespace EthernetGateway.Machine

open Wd1771 (Reg Kind Move)

namespace Mounted

/-- A sector of a track, as an image holds it. -/
def sector (image : Mounted) (format : TrackFormat) (number : Nat) : List UInt8 :=
  List.ofFn fun i : Fin format.len => image.bytes (format.start + (number - 1) * format.len + i)

/-- The sectors of a track, from one of them to the last. -/
def sectorsFrom (image : Mounted) (format : TrackFormat) (number : Nat) : List UInt8 :=
  (List.range' number (format.count + 1 - number)).flatMap (image.sector format)

/-- What a Read Sector asks for. -/
def asked (image : Mounted) (format : TrackFormat) (multi : Bool) (number : Nat) : List UInt8 :=
  if multi then image.sectorsFrom format number else image.sector format number

@[simp] theorem sector_length (image : Mounted) (format : TrackFormat) (number : Nat) :
    (image.sector format number).length = format.len := List.length_ofFn

/-- A sector is the first of the sectors from it on. -/
theorem sectorsFrom_cons (image : Mounted) {format : TrackFormat} {number : Nat}
    (inside : number ≤ format.count) :
    image.sectorsFrom format number =
      image.sector format number ++ image.sectorsFrom format (number + 1) := by
  unfold sectorsFrom
  have more : format.count + 1 - number = format.count + 1 - (number + 1) + 1 := by omega
  rw [more, List.range'_succ, List.flatMap_cons]

/-- The sectors from one of them on, as many as there are. -/
theorem sectorsFrom_length (image : Mounted) (format : TrackFormat) (number : Nat) :
    (image.sectorsFrom format number).length = (format.count + 1 - number) * format.len := by
  unfold sectorsFrom
  rw [List.length_flatMap]
  simp

/-- There is no sector behind the last. -/
theorem sectorsFrom_nil (image : Mounted) {format : TrackFormat} {number : Nat}
    (beyond : format.count < number) : image.sectorsFrom format number = [] := by
  unfold sectorsFrom
  have none : format.count + 1 - number = 0 := by omega
  rw [none, List.range'_zero, List.flatMap_nil]

/-- The machine finds a sector of a track that fits the image. -/
theorem get_sector (image : Mounted) {format : TrackFormat} {number : Nat} (first : 1 ≤ number)
    (last : number ≤ format.count)
    (fits : format.start + format.count * format.len ≤ image.length) :
    image.get (format.start + (number - 1) * format.len) format.len =
      some (image.sector format number) := by
  have rows : (number - 1 + 1) * format.len ≤ format.count * format.len :=
    Nat.mul_le_mul_right _ (by omega)
  rw [Nat.succ_mul] at rows
  unfold get
  rw [if_pos (by omega)]
  rfl

end Mounted

namespace Wd1771

/-- A chip handed a whole sector has that sector to give. -/
theorem sectorLoaded_sectorOut (chip : Wd1771) {bytes : List UInt8}
    (whole : bytes.length = chip.sectorLen) : (chip.sectorLoaded bytes).sectorOut = bytes := by
  unfold sectorOut sectorLoaded
  refine List.ext_getElem (by simp [whole]) fun i inside inside' => ?_
  rw [List.getElem_map, List.getElem_range]
  show (if i < chip.sectorLen then (bytes[i]?).getD 0 else chip.buffer i) = bytes[i]
  rw [if_pos (whole ▸ inside'), List.getElem?_eq_getElem inside', Option.getD_some]

/-- What is left of a sector begins with the byte the transfer is at. -/
theorem sectorOut_drop {chip : Wd1771} (inside : chip.pos < chip.sectorLen) :
    chip.sectorOut.drop chip.pos = chip.buffer chip.pos :: chip.sectorOut.drop (chip.pos + 1) := by
  have length : chip.sectorOut.length = chip.sectorLen := by simp [sectorOut]
  rw [List.drop_eq_getElem_cons (by omega)]
  simp [sectorOut]

/-- A command that is over, and with Record Not Found if it was for more than one record. -/
structure Ended (chip : Wd1771) (multi : Bool) : Prop where
  busy : chip.busy = false
  intrq : chip.intrq = true
  error : multi = true → chip.error &&& recordNotFound ≠ 0

/-- An error that was raised is there. -/
theorem raised (error : UInt8) : (error ||| recordNotFound) &&& recordNotFound ≠ 0 := by
  intro same
  have bit := congrArg (fun bits => bits.toBitVec.getLsbD 4) same
  simp [recordNotFound] at bit

/-- A chip that a Read Sector has just made ask for its sector. -/
def seeking (chip : Wd1771) (cmd : UInt8) : Wd1771 :=
  { chip.superseded cmd with
    multi := cmd &&& 0x10 ≠ 0, busy := true, pos := 0, xferLen := chip.sectorLen }

/-- A Read Sector on a drive that is ready, for a sector the track has. -/
theorem command_reads {chip : Wd1771} {cmd : UInt8} (two : Kind.of cmd = .two)
    (reads : cmd &&& 0x20 = 0) (ready : chip.ready = true) (first : chip.sector ≠ 0)
    (last : chip.sector.toNat ≤ chip.sectorsPerTrack) :
    chip.command cmd = (.read chip.track chip.sector, chip.seeking cmd) := by
  have present : ¬(chip.sector = 0 ∨ chip.sectorsPerTrack < chip.sector.toNat) := by
    rintro (zero | beyond)
    · exact first zero
    · exact absurd last (Nat.not_le.2 beyond)
  simp only [command, two, commandTwo, superseded, ready, reads, present, seeking,
    not_true_eq_false, if_false, ne_eq, false_and]

end Wd1771

section Boards

variable {β : Type} [FloppyBoard β]

open FloppyBoard (chip trackAt register latched drive side)

/-- A guest that reads ports for as long as the chip is busy: the bytes of the data register it
gets, and the machine it leaves. -/
def BootMachine.guestReads (machine : BootMachine β) : List UInt8 → List UInt8 × BootMachine β
  | [] => ([], machine)
  | port :: ports =>
    if (chip machine.board).busy then
      let got := machine.portIn port
      let rest := got.2.guestReads ports
      (if register β port = some .data then got.1 :: rest.1 else rest.1, rest.2)
    else ([], machine)

section Steps

variable {Valid : β → Prop} {Holds : β → Nat → Nat → Prop} (laws : Lawful Valid)
  (serving : Serving Valid Holds)

/-- A machine in the middle of a Read Sector: what is left of the sector in the chip's buffer, and
the track it is on. -/
structure Gives (Valid : β → Prop) (Holds : β → Nat → Nat → Prop) (place : Nat × Nat)
    (image : Mounted) (format : TrackFormat) (machine : BootMachine β) (now : List UInt8) : Prop
    where
  ready : Ready Valid machine.board
  busy : (chip machine.board).busy = true
  reading : (chip machine.board).moving = .reading
  commanded : (chip machine.board).cmd &&& 0x20 = 0
  held : latched machine.board = some place
  track : trackAt machine.board place.1 place.2 (chip machine.board).track = some format
  slot : machine.disks place.1 = some image
  holds : Holds machine.board place.1 image.length
  told : (chip machine.board).sectorLen = format.len ∧
    (chip machine.board).sectorsPerTrack = format.count
  now_eq : now = (chip machine.board).sectorOut.drop (chip machine.board).pos

variable {place : Nat × Nat} {image : Mounted} {format : TrackFormat} {machine : BootMachine β}
  {now : List UInt8}

/-- What is left of a sector is not nothing. -/
theorem Gives.cons (gives : Gives Valid Holds place image format machine now) :
    now = (chip machine.board).buffer (chip machine.board).pos ::
      (chip machine.board).sectorOut.drop ((chip machine.board).pos + 1) := by
  have inside := gives.ready.live.within (by rw [gives.reading]; decide)
  rw [gives.ready.live.whole gives.busy] at inside
  rw [gives.now_eq, Wd1771.sectorOut_drop inside]

/-- A machine whose chip is in the same transfer, on the same disks, gives the same. -/
theorem Gives.of_transfer (gives : Gives Valid Holds place image format machine now)
    {after : BootMachine β} (ready : Ready Valid after.board)
    (same : (chip after.board).transfer = (chip machine.board).transfer)
    (track : (chip after.board).track = (chip machine.board).track)
    (held : latched after.board = latched machine.board)
    (tracks : trackAt after.board = trackAt machine.board)
    (holds : Holds after.board = Holds machine.board) (disks : after.disks = machine.disks) :
    Gives Valid Holds place image format after now := by
  simp only [Wd1771.transfer, Wd1771.Transfer.mk.injEq] at same
  obtain ⟨cmd, sectorLen, count, -, busy, buffer, pos, moving, -⟩ := same
  constructor
  case ready => exact ready
  case busy => exact busy.trans gives.busy
  case reading => exact moving.trans gives.reading
  case commanded => exact cmd ▸ gives.commanded
  case held => exact held.trans gives.held
  case track => rw [tracks, track]; exact gives.track
  case slot => rw [disks]; exact gives.slot
  case holds => rw [holds]; exact gives.holds
  case told => rw [sectorLen, count]; exact gives.told
  case now_eq => rw [gives.now_eq, Wd1771.sectorOut, Wd1771.sectorOut, sectorLen, buffer, pos]

/-- What a port read answers, when no sector had to be fetched first. -/
theorem portIn_value {port : UInt8}
    (ahead : ∀ drive place len, (Controller.portIn machine.board port).1.2 ≠ .read drive place len) :
    (machine.portIn port).1 = (Controller.portIn machine.board port).1.1 := by
  cases request : (Controller.portIn machine.board port).1.2 with
  | read drive place len => exact absurd request (ahead drive place len)
  | none | readAhead | write | fill => simp only [BootMachine.portIn, request]

include laws serving in
/-- A read of a port that asks nothing of the machine, and moves no byte, gives nothing. -/
theorem quiet_gives (gives : Gives Valid Holds place image format machine now) {port : UInt8}
    {reg : Reg} (isReg : register β port = some reg)
    (need : ((chip machine.board).read reg).1.2 = .none)
    (transfer : ((chip machine.board).read reg).2.transfer = (chip machine.board).transfer)
    (track : ((chip machine.board).read reg).2.track = (chip machine.board).track) :
    Gives Valid Holds place image format (machine.portIn port).2 now ∧
      (chip (machine.portIn port).2.board) = ((chip machine.board).read reg).2 := by
  have ready := (input_ready laws serving gives.ready port).1
  simp only [BootMachine.access] at ready
  obtain ⟨-, -, tracks, held⟩ := laws.input machine.board port reg isReg gives.ready.valid
  have serves := (serving.input machine.board port reg isReg).2
  rw [need] at serves
  obtain ⟨quiet, same⟩ := serves
  rw [BootMachine.portIn_ahead (laws.ahead machine.board port), quiet,
    BootMachine.service_none] at ready ⊢
  have busy : (chip (Controller.portIn machine.board port).2).busy := by
    rw [same]
    exact (congrArg Wd1771.Transfer.busy transfer).trans gives.busy
  refine ⟨gives.of_transfer ready ?_ ?_ (held busy) tracks ?_ rfl, same⟩
  · rw [same, transfer]
  · rw [same, track]
  · exact (serving.kept machine.board).1 port

include laws serving in
/-- A write of the sector register leaves the sector in the chip's buffer, and moves the one behind
it. -/
theorem sector_gives (gives : Gives Valid Holds place image format machine now) {port value : UInt8}
    (isSector : register β port = some .sector) :
    Gives Valid Holds place image format (machine.portOut port value) now ∧
      chip (machine.portOut port value).board = { chip machine.board with sector := value } := by
  have other : Reg.sector ≠ .command := by decide
  have ready := (output_ready laws serving gives.ready port value
    (by rw [NoCommand, isSector]; decide)).1
  simp only [BootMachine.access] at ready
  obtain ⟨-, -, tracks, held⟩ :=
    laws.output machine.board port value .sector isSector other gives.ready.valid
  obtain ⟨quiet, same⟩ := serving.output machine.board port value .sector isSector other
  have after : machine.portOut port value =
      ⟨(Controller.portOut machine.board port value).2, machine.disks⟩ := by
    unfold BootMachine.portOut
    dsimp only
    rw [quiet, BootMachine.service_none]
  rw [after] at ready ⊢
  have busy : (chip (Controller.portOut machine.board port value).2).busy := by
    rw [same]
    exact gives.busy
  refine ⟨gives.of_transfer ready ?_ ?_ (held busy) tracks ?_ rfl, same⟩
  · rw [same]
    rfl
  · rw [same]
    rfl
  · exact (serving.kept machine.board).2.1 port value

include laws serving in
/-- A read of a port other than that of the data register gives nothing. -/
theorem other_gives (gives : Gives Valid Holds place image format machine now) {port : UInt8}
    (other : register β port ≠ some .data) :
    Gives Valid Holds place image format (machine.portIn port).2 now ∧
      (chip (machine.portIn port).2.board).sector = (chip machine.board).sector ∧
      (chip (machine.portIn port).2.board).multi = (chip machine.board).multi := by
  cases isReg : register β port with
  | none =>
    obtain ⟨quiet, same⟩ := laws.inputOther machine.board port isReg
    rw [BootMachine.portIn_ahead (laws.ahead machine.board port), quiet, same,
      BootMachine.service_none]
    exact ⟨gives, rfl, rfl⟩
  | some reg =>
    cases reg with
    | data => exact absurd isReg other
    | command | track | sector =>
      obtain ⟨gives', same⟩ := quiet_gives laws serving gives isReg rfl rfl rfl
      rw [same]
      exact ⟨gives', rfl, rfl⟩

/-- Where a board finds a sector of a track. -/
theorem sectorPlace_eq {board : β} {track number : UInt8}
    (there : trackAt board place.1 place.2 track = some format) (first : number ≠ 0)
    (last : number.toNat ≤ format.count) :
    sectorPlace board place.1 place.2 track number =
      some (format.start + (number.toNat - 1) * format.len, format.len) := by
  simp only [sectorPlace, there, Option.bind_some, TrackFormat.place]
  rw [if_neg (by rintro (zero | beyond); exacts [first zero, absurd beyond (Nat.not_lt.2 last)]),
    Option.map_some]

include laws serving in
/-- A read of the data register gives the first byte left. Behind the last byte of a sector there is
the next sector, or the command is over. -/
theorem data_gives (gives : Gives Valid Holds place image format machine now) {port : UInt8}
    (isData : register β port = some .data) :
    ∃ byte rest, now = byte :: rest ∧ (machine.portIn port).1 = byte ∧
      (rest ≠ [] ∧ Gives Valid Holds place image format (machine.portIn port).2 rest ∧
          (chip (machine.portIn port).2.board).sector = (chip machine.board).sector ∧
          (chip (machine.portIn port).2.board).multi = (chip machine.board).multi ∨
        rest = [] ∧ (chip machine.board).multi = true ∧
          (chip machine.board).sector.toNat + 1 ≤ format.count ∧
          Gives Valid Holds place image format (machine.portIn port).2
            (image.sector format ((chip machine.board).sector.toNat + 1)) ∧
          (chip (machine.portIn port).2.board).sector.toNat =
            (chip machine.board).sector.toNat + 1 ∧
          (chip (machine.portIn port).2.board).multi = true ∨
        rest = [] ∧ ((chip machine.board).multi = true →
            format.count ≤ (chip machine.board).sector.toNat) ∧
          (chip (machine.portIn port).2.board).Ended (chip machine.board).multi) := by
  refine ⟨_, _, gives.cons, ?_⟩
  have value := portIn_value (laws.ahead machine.board port)
  obtain ⟨answer, serves⟩ := serving.input machine.board port .data isData
  have length := gives.ready.live.whole gives.busy
  have ready := (input_ready laws serving gives.ready port).1
  simp only [BootMachine.access] at ready
  obtain ⟨-, valid, tracks, held⟩ := laws.input machine.board port .data isData gives.ready.valid
  obtain ⟨fits, room, few⟩ := serving.fits _ _ _ _ _ _ gives.holds gives.track
  rw [value, answer]
  simp only [Wd1771.read] at serves ⊢
  rcases Wd1771.readData_cases gives.ready.live gives.reading with
    ⟨more, out⟩ | ⟨last, multi, reads, more, next, out⟩ |
      ⟨last, ends, after, out, busy, moving, intrq, error⟩
  · rw [out] at serves ⊢
    obtain ⟨quiet, same⟩ := serves
    rw [BootMachine.portIn_ahead (laws.ahead machine.board port), quiet,
      BootMachine.service_none] at ready ⊢
    have busy : (chip (Controller.portIn machine.board port).2).busy := by
      rw [same]
      exact gives.busy
    refine ⟨rfl, .inl ⟨?_, ?_, by rw [same]; rfl, by rw [same]; rfl⟩⟩
    · rw [ne_eq, List.drop_eq_nil_iff, Wd1771.sectorOut, List.length_map, List.length_range]
      omega
    · constructor
      case ready => exact ready
      case busy => exact busy
      case reading => rw [same]; exact gives.reading
      case commanded => rw [same]; exact gives.commanded
      case held => exact (held busy).trans gives.held
      case track => rw [tracks, same]; exact gives.track
      case slot => exact gives.slot
      case holds => rw [(serving.kept machine.board).1 port]; exact gives.holds
      case told => rw [same]; exact gives.told
      case now_eq => rw [same]; rfl
  · rw [out] at serves ⊢
    have whole : (chip machine.board).sectorOut.drop ((chip machine.board).pos + 1) = [] := by
      rw [List.drop_eq_nil_iff, Wd1771.sectorOut, List.length_map, List.length_range]
      omega
    have first : (chip machine.board).sector + 1 ≠ 0 := by
      intro zero
      rw [zero] at next
      exact absurd next (by simp)
    have inside : (chip machine.board).sector.toNat + 1 ≤ format.count := gives.told.2 ▸ more
    have located := sectorPlace_eq gives.track first (next ▸ inside)
    have place_eq : heldOn machine.board = place := by simp [heldOn, gives.held]
    simp only [Serves, place_eq, located, Option.elim_some] at serves
    obtain ⟨asks, same⟩ := serves
    have ahead := laws.ahead machine.board port
    have asked := asks.resolve_left (ahead _ _ _)
    rw [BootMachine.portIn_ahead ahead, asked] at ready ⊢
    simp only [BootMachine.service, BootMachine.load] at ready ⊢
    have found := image.get_sector (by omega : 1 ≤ (chip machine.board).sector.toNat + 1) inside fits
    have loaded := laws.loaded (Controller.portIn machine.board port).2 place.1
      (image.sector format ((chip machine.board).sector.toNat + 1)) valid
    simp only [gives.slot, Option.bind_some, next, found, Option.getD_some] at ready ⊢
    obtain ⟨-, chipped, latch, tracks'⟩ := loaded
    rw [same] at chipped
    have busy : (chip (Controller.portIn machine.board port).2).busy := by
      rw [same]
      exact gives.busy
    refine ⟨trivial, .inr (.inl ⟨whole, multi, inside, ?_, ?_, ?_⟩)⟩
    · constructor
      case ready => exact ready
      case busy => rw [chipped]; exact gives.busy
      case reading => rw [chipped]; rfl
      case commanded => rw [chipped]; exact gives.commanded
      case held => exact latch.trans ((held busy).trans gives.held)
      case track => rw [tracks', tracks, chipped]; exact gives.track
      case slot => exact gives.slot
      case holds =>
        rw [(serving.kept (Controller.portIn machine.board port).2).2.2,
          (serving.kept machine.board).1 port]
        exact gives.holds
      case told => rw [chipped]; exact gives.told
      case now_eq =>
        rw [chipped, Wd1771.sectorLoaded_sectorOut]
        · rfl
        · exact (image.sector_length format _).trans gives.told.1.symm
    · rw [chipped]
      exact next
    · rw [chipped]
      exact multi
  · rw [out] at serves ⊢
    obtain ⟨quiet, same⟩ := serves
    rw [BootMachine.portIn_ahead (laws.ahead machine.board port), quiet, BootMachine.service_none]
    have whole : (chip machine.board).sectorOut.drop ((chip machine.board).pos + 1) = [] := by
      rw [List.drop_eq_nil_iff, Wd1771.sectorOut, List.length_map, List.length_range]
      omega
    refine ⟨rfl, .inr (.inr ⟨whole, fun multi => ?_, ?_, ?_, fun multi => ?_⟩)⟩
    · rcases ends multi with beyond | top
      · exact gives.told.2 ▸ beyond
      · rw [top]
        exact Nat.le_of_lt_succ few
    · rw [same]
      exact busy
    · rw [same]
      exact intrq
    · rw [same, error multi]
      exact Wd1771.raised _

/-- A machine in the middle of a Read Sector, and the bytes the guest has still to get from it. -/
def Owes (Valid : β → Prop) (Holds : β → Nat → Nat → Prop) (place : Nat × Nat) (image : Mounted)
    (format : TrackFormat) (multi : Bool) (machine : BootMachine β) (bytes : List UInt8) : Prop :=
  ∃ now, Gives Valid Holds place image format machine now ∧
    (chip machine.board).multi = multi ∧
    bytes = now ++
      if multi then image.sectorsFrom format ((chip machine.board).sector.toNat + 1) else []

variable {multi : Bool} {bytes : List UInt8}

include laws serving in
/-- A read of a port other than that of the data register gives none of them. -/
theorem owes_other (owes : Owes Valid Holds place image format multi machine bytes) {port : UInt8}
    (other : register β port ≠ some .data) :
    Owes Valid Holds place image format multi (machine.portIn port).2 bytes := by
  obtain ⟨now, gives, isMulti, all⟩ := owes
  obtain ⟨gives', sector, multi'⟩ := other_gives laws serving gives other
  exact ⟨now, gives', multi'.trans isMulti, by rw [all, sector]⟩

include laws serving in
/-- A read of the data register gives the first of them, and the last of them ends the command. -/
theorem owes_data (owes : Owes Valid Holds place image format multi machine bytes) {port : UInt8}
    (isData : register β port = some .data) :
    ∃ rest, bytes = (machine.portIn port).1 :: rest ∧
      (Owes Valid Holds place image format multi (machine.portIn port).2 rest ∨
        rest = [] ∧ (chip (machine.portIn port).2.board).Ended multi) := by
  obtain ⟨now, gives, isMulti, all⟩ := owes
  subst isMulti
  obtain ⟨byte, rest, split, value, step⟩ := data_gives laws serving gives isData
  rw [all, split, value]
  refine ⟨_, List.cons_append, ?_⟩
  rcases step with ⟨-, gives', sector, multi'⟩ | ⟨none, isMulti, inside, gives', sector, multi'⟩ |
    ⟨none, ends, ended⟩
  · exact .inl ⟨rest, gives', multi', by rw [sector]⟩
  · refine .inl ⟨_, gives', by rw [multi', isMulti], ?_⟩
    rw [none, isMulti, if_pos rfl, if_pos rfl, List.nil_append, sector,
      image.sectorsFrom_cons inside]
  · refine .inr ⟨?_, ended⟩
    rw [none, List.nil_append]
    split
    · rename_i isMulti
      exact image.sectorsFrom_nil (Nat.lt_succ_of_le (ends isMulti))
    · rfl

include laws serving in
/-- A guest that reads ports for as long as the chip is busy gets the bytes of the transfer in
order: the first ones while it goes on, and all of them once it is over. -/
theorem owes_reads (owes : Owes Valid Holds place image format multi machine bytes)
    (ports : List UInt8) :
    (∃ left, left ≠ [] ∧ bytes = (machine.guestReads ports).1 ++ left ∧
        (machine.guestReads ports).1.length = ports.countP (register β · = some .data) ∧
        Owes Valid Holds place image format multi (machine.guestReads ports).2 left) ∨
      (machine.guestReads ports).1 = bytes ∧
        (chip (machine.guestReads ports).2.board).Ended multi := by
  induction ports generalizing machine bytes with
  | nil =>
    obtain ⟨now, gives, isMulti, all⟩ := owes
    refine .inl ⟨bytes, ?_, rfl, rfl, now, gives, isMulti, all⟩
    rw [all, gives.cons]
    simp
  | cons port ports ih =>
    have busy : (chip machine.board).busy = true := by
      obtain ⟨now, gives, -⟩ := owes
      exact gives.busy
    simp only [BootMachine.guestReads, busy, if_true, List.countP_cons]
    by_cases isData : register β port = some .data
    · obtain ⟨rest, split, owes' | ⟨none, ended⟩⟩ := owes_data laws serving owes isData
      · simp only [isData, if_true, decide_true]
        rcases ih owes' with ⟨left, some, all, count, owes''⟩ | ⟨all, ended⟩
        · exact .inl ⟨left, some, by rw [split, all, List.cons_append], by
            rw [List.length_cons, count], owes''⟩
        · exact .inr ⟨by rw [all, split], ended⟩
      · have stops : (machine.portIn port).2.guestReads ports = ([], (machine.portIn port).2) := by
          cases ports with
          | nil => rfl
          | cons next ports => simp [BootMachine.guestReads, ended.busy]
        simp only [isData, if_true, stops]
        exact .inr ⟨by rw [split, none], ended⟩
    · have owes' := owes_other laws serving owes isData
      simp only [isData, if_false, decide_false, Bool.false_eq_true, Nat.add_zero]
      exact ih owes'

include laws serving in
/-- Reads of the data register, fewer than there are bytes to give, move a byte each and leave the
transfer in progress. -/
theorem owes_moved (owes : Owes Valid Holds place image format multi machine bytes) {port : UInt8}
    (isData : register β port = some .data) {count : Nat} (fewer : count < bytes.length) :
    moved machine (List.replicate count (.input port)) = count ∧
      (chip (machine.accesses (List.replicate count (.input port))).board).busy = true := by
  induction count generalizing machine bytes with
  | zero =>
    obtain ⟨now, gives, -⟩ := owes
    exact ⟨rfl, gives.busy⟩
  | succ count ih =>
    have moves : Moves machine.board (.input port) := by
      obtain ⟨now, gives, -⟩ := owes
      exact ⟨.data, isData, rfl, gives.busy, gives.reading⟩
    obtain ⟨rest, split, owes' | ⟨none, -⟩⟩ := owes_data laws serving owes isData
    · rw [split, List.length_cons] at fewer
      obtain ⟨all, busy⟩ := ih owes' (Nat.lt_of_succ_lt_succ fewer)
      refine ⟨?_, busy⟩
      rw [List.replicate_succ, moved, if_pos moves]
      simp only [BootMachine.access, all]
      omega
    · rw [split, none, List.length_singleton] at fewer
      omega

include laws serving in
/-- A Read Sector of a track and a sector the disk has owes the guest what it asks for. -/
theorem command_owes (ready : Ready Valid machine.board) {port value : UInt8}
    (isCommand : register β port = some .command) (two : Kind.of value = .two)
    (reads : value &&& 0x20 = 0) (slot : machine.disks (drive machine.board) = some image)
    (holds : Holds machine.board (drive machine.board) image.length)
    (track : trackAt machine.board (drive machine.board) (side machine.board)
      (chip machine.board).track = some format)
    (first : (chip machine.board).sector ≠ 0)
    (last : (chip machine.board).sector.toNat ≤ format.count) :
    Owes Valid Holds (drive machine.board, side machine.board) image format
      (decide (value &&& 0x10 ≠ 0)) (machine.portOut port value)
      (image.asked format (value &&& 0x10 ≠ 0) (chip machine.board).sector.toNat) := by
  obtain ⟨_, -, -, -, -, -, valid, tracks, held⟩ :=
    laws.command machine.board port value isCommand ready.valid
  obtain ⟨told, sameTrack, sameSector, -, toldReady, toldFormat, serves⟩ :=
    serving.command machine.board port value isCommand ready.valid
  obtain ⟨fits, -, -⟩ := serving.fits _ _ _ _ _ _ holds track
  have ready' := (command_ready laws serving ready value isCommand).1
  rw [sameTrack] at toldFormat
  obtain ⟨len, count⟩ := toldFormat format track
  rw [Wd1771.command_reads two reads (toldReady _ holds) (sameSector ▸ first)
    (by rw [sameSector, count]; exact last)] at serves
  have some' : (chip machine.board).sector.toNat ≠ 0 := fun same => first (UInt8.toNat_inj.1 same)
  have located := @sectorPlace_eq _ _ (drive machine.board, side machine.board) _ _ _ _ track first
    last
  have found := image.get_sector (Nat.one_le_iff_ne_zero.2 some') last fits
  have loaded := laws.loaded (Controller.portOut machine.board port value).2 (drive machine.board)
    (image.sector format (chip machine.board).sector.toNat) valid
  simp only [Serves, sameTrack, sameSector, located, Option.elim_some] at serves
  obtain ⟨asks, same⟩ := serves
  have after : machine.portOut port value =
      ⟨Controller.bufferLoaded (Controller.portOut machine.board port value).2
        (drive machine.board) (image.sector format (chip machine.board).sector.toNat),
        machine.disks⟩ := by
    unfold BootMachine.portOut
    dsimp only
    rcases asks with asked | asked
    all_goals
      rw [asked]
      simp only [BootMachine.service, BootMachine.load, slot, Option.bind_some, found,
        Option.getD_some]
  simp only [BootMachine.access, after] at ready' ⊢
  obtain ⟨-, chipped, latch, tracks'⟩ := loaded
  rw [same] at chipped
  have busy : (chip (Controller.portOut machine.board port value).2).busy := by
    rw [same]
    rfl
  have length : (image.sector format (chip machine.board).sector.toNat).length =
      (told.seeking value).sectorLen := (image.sector_length format _).trans len.symm
  refine ⟨image.sector format (chip machine.board).sector.toNat, ?_, by rw [chipped]; rfl, ?_⟩
  · constructor
    case ready => exact ready'
    case busy => rw [chipped]; rfl
    case reading => rw [chipped]; rfl
    case commanded => rw [chipped]; exact reads
    case held => exact latch.trans (held busy)
    case track => rw [tracks', tracks, chipped]; exact sameTrack ▸ track
    case slot => exact slot
    case holds =>
      rw [(serving.kept (Controller.portOut machine.board port value).2).2.2,
        (serving.kept machine.board).2.1 port value]
      exact holds
    case told => rw [chipped]; exact ⟨len, count⟩
    case now_eq =>
      rw [chipped, Wd1771.sectorLoaded_sectorOut _ length]
      rfl
  · have sector : (chip (Controller.bufferLoaded (Controller.portOut machine.board port value).2
        (drive machine.board)
        (image.sector format (chip machine.board).sector.toNat))).sector =
          (chip machine.board).sector := by
      rw [chipped]
      exact sameSector
    rw [sector]
    unfold Mounted.asked
    split
    · exact image.sectorsFrom_cons last
    · exact (List.append_nil _).symm

/-- Every image in a slot is one the board took for that drive. -/
def Stocked (Holds : β → Nat → Nat → Prop) (machine : BootMachine β) : Prop :=
  ∀ drive image, machine.disks drive = some image → Holds machine.board drive image.length

/-- The machine keeps the images of its slots as long as they are. -/
theorem service_lengths (request : HostRequest) {slot : Nat} {after : Mounted}
    (there : (machine.service request).disks slot = some after) :
    ∃ before, machine.disks slot = some before ∧ before.length = after.length := by
  have updated : ∀ drive (old new : Mounted), machine.disks drive = some old →
      new.length = old.length → Function.update machine.disks drive (some new) slot = some after →
      ∃ before, machine.disks slot = some before ∧ before.length = after.length := by
    intro drive old new isOld length isAfter
    by_cases same : slot = drive
    · subst same
      rw [Function.update_self, Option.some.injEq] at isAfter
      exact ⟨old, isOld, by rw [← isAfter, length]⟩
    · rw [Function.update_of_ne same] at isAfter
      exact ⟨after, isAfter, rfl⟩
  cases request with
  | none => exact ⟨after, there, rfl⟩
  | read drive offset len => exact ⟨after, there, rfl⟩
  | readAhead drive offset len => exact ⟨after, there, rfl⟩
  | write drive offset len =>
    simp only [BootMachine.service] at there
    rcases (machine.store_cases drive offset len).2 with same | ⟨_, old, -, isOld, -, put⟩
    · exact ⟨after, same ▸ there, rfl⟩
    · rw [put] at there
      exact updated drive old _ isOld (Mounted.put_length _ _ _) there
  | fill drive offset chunk stride count byte =>
    simp only [BootMachine.service, BootMachine.erase] at there
    cases isOld : machine.disks drive with
    | none => exact ⟨after, by simpa only [isOld] using there, rfl⟩
    | some old =>
      simp only [isOld] at there
      split at there
      · exact ⟨after, there, rfl⟩
      · exact updated drive old _ isOld (Mounted.fill_length _ _ _ _ _ _) there

include serving in
/-- The machine keeps what the board knows of its drives. -/
theorem service_holds {after : β} (request : HostRequest) :
    Holds ({ machine with board := after }.service request).board = Holds after := by
  cases request with
  | none => rfl
  | read drive offset len => exact (serving.kept after).2.2 _ _
  | readAhead drive offset len => exact (serving.kept after).2.2 _ _
  | write drive offset len =>
    exact congrArg Holds ({ machine with board := after }.store_cases drive offset len).1
  | fill drive offset chunk stride count byte =>
    simp only [BootMachine.service, BootMachine.erase]
    split
    · rfl
    · split <;> rfl

include laws serving in
/-- Every access leaves the images as long as they are, and what the board knows of them. -/
theorem access_stocked (stocked : Stocked Holds machine) (op : PortOp) :
    Stocked Holds (machine.access op) := by
  intro slot after there
  cases op with
  | input port =>
    simp only [BootMachine.access] at there ⊢
    rw [BootMachine.portIn_ahead (laws.ahead machine.board port)] at there ⊢
    obtain ⟨before, isBefore, length⟩ := service_lengths _ there
    rw [service_holds serving, (serving.kept machine.board).1, ← length]
    exact stocked slot before isBefore
  | output port value =>
    simp only [BootMachine.access, BootMachine.portOut] at there ⊢
    obtain ⟨before, isBefore, length⟩ := service_lengths _ there
    rw [service_holds serving, (serving.kept machine.board).2.1, ← length]
    exact stocked slot before isBefore

include laws serving in
/-- Every run leaves the images as long as they are, and what the board knows of them. -/
theorem accesses_stocked (stocked : Stocked Holds machine) (ops : List PortOp) :
    Stocked Holds (machine.accesses ops) := by
  induction ops generalizing machine with
  | nil => exact stocked
  | cons op ops ih => exact ih (access_stocked laws serving stocked op)

/-- A guest that issues a Read Sector, and reads ports for as long as the chip is busy, gets from the
data register exactly the sectors asked for. -/
def ReadsAsAsked (machine : BootMachine β) : Prop :=
  ∀ port value image format, register β port = some .command → Kind.of value = .two →
    value &&& 0x20 = 0 → machine.disks (drive machine.board) = some image →
    trackAt machine.board (drive machine.board) (side machine.board) (chip machine.board).track =
      some format →
    (chip machine.board).sector ≠ 0 → (chip machine.board).sector.toNat ≤ format.count →
    ∀ ports,
      let multi := decide (value &&& 0x10 ≠ 0)
      let asked := image.asked format multi (chip machine.board).sector.toNat
      let got := (machine.portOut port value).guestReads ports
      (chip got.2.board).busy = true ∧ got.1 <+: asked ∧
          got.1.length = ports.countP (register β · = some .data) ∧ got.1.length < asked.length ∨
        got.1 = asked ∧ (chip got.2.board).Ended multi

include laws serving in
/-- A guest of a ready board, with the images it took in its slots, reads as it asks. -/
theorem ready_readsAsAsked (ready : Ready Valid machine.board)
    (stocked : Stocked Holds machine) : ReadsAsAsked machine := by
  intro port value image format isCommand two reads slot track first last ports
  have owes := command_owes laws serving ready isCommand two reads slot
    (stocked _ _ slot) track first last
  rcases owes_reads laws serving owes ports with ⟨left, some, all, count, _, gives, -⟩ | ⟨all, ended⟩
  · refine .inl ⟨gives.busy, ⟨left, all.symm⟩, count, ?_⟩
    have more : 0 < left.length := List.length_pos_iff.2 some
    have lengths := congrArg List.length all
    rw [List.length_append] at lengths
    omega
  · exact .inr ⟨all, ended⟩

end Steps

end Boards

end EthernetGateway.Machine
