import EthernetGateway.Machine.Datakeeper

/-!
# What one command of the 88-HDSK comes to

The board's offset is a sector's place, sectors do not overlap, and a format's runs are the
sectors of one side; so each command leaves the machine idle and does to the images what it does
to the disk.
-/

namespace EthernetGateway.Machine

open Hdsk (Command unitOf platterOf sideOf sectorOf bufferOf)

/-! ## Sectors and images -/

/-- A read of one of the board's ports asks for nothing. -/
theorem portIn_request (board : Hdsk) (port : UInt8) : (board.portIn port).1.2 = .none := by
  unfold Hdsk.portIn
  split_ifs <;> rfl

/-- Sectors do not overlap. -/
theorem HdskAddress.eq_of_inside {address other : HdskAddress} {i : Nat}
    (inside : i < hdskSectorLen) (slot : address.slot = other.slot)
    (starts : other.place ≤ address.place + i)
    (ends : address.place + i < other.place + hdskSectorLen) : address = other := by
  obtain ⟨unit, platter, side, cylinder, sector⟩ := address
  obtain ⟨unit', platter', side', cylinder', sector'⟩ := other
  have p : platter.val < 4 := platter.isLt
  have p' : platter'.val < 4 := platter'.isLt
  have h : side.val < 2 := side.isLt
  have h' : side'.val < 2 := side'.isLt
  have s : sector.val < 24 := sector.isLt
  have s' : sector'.val < 24 := sector'.isLt
  have i : i < 256 := inside
  simp only [HdskAddress.slot, HdskAddress.place, Hdsk.place, hdskPlatters, hdskHeads, hdskSectors,
    hdskSectorLen] at slot starts ends
  simp only [HdskAddress.mk.injEq, Fin.ext_iff]
  refine ⟨?_, ?_, ?_, ?_, ?_⟩ <;> omega

/-- A sector is inside its image. -/
theorem HdskAddress.place_lt (address : HdskAddress) {i : Nat} (inside : i < hdskSectorLen) :
    address.place + i < hdskImageLen := by
  have h : address.side.val < 2 := address.side.isLt
  have c : address.cylinder.val < 406 := address.cylinder.isLt
  have s : address.sector.val < 24 := address.sector.isLt
  have i : i < 256 := inside
  simp only [HdskAddress.place, Hdsk.place, hdskHeads, hdskSectors, hdskSectorLen, hdskImageLen,
    hdskCylinders]
  omega

/-- A slot is one platter's. -/
theorem HdskAddress.slot_eq_iff (address : HdskAddress) (unit : Fin hdskUnits)
    (platter : Fin hdskPlatters) :
    address.slot = unit * hdskPlatters + platter ↔
      address.unit = unit ∧ address.platter = platter := by
  have p : address.platter.val < 4 := address.platter.isLt
  have p' : platter.val < 4 := platter.isLt
  simp only [HdskAddress.slot, hdskPlatters, Fin.ext_iff]
  omega

/-- The runs of a format are the sectors of one side. -/
theorem format_run (side : Fin hdskHeads) {place : Nat} :
    (∃ i < hdskCylinders,
      side * hdskSectors * hdskSectorLen + hdskHeads * hdskSectors * hdskSectorLen * i ≤ place ∧
        place < side * hdskSectors * hdskSectorLen +
          hdskHeads * hdskSectors * hdskSectorLen * i + hdskSectors * hdskSectorLen) ↔
      ∃ cylinder : Fin hdskCylinders, ∃ sector : Fin hdskSectors,
        Hdsk.place cylinder side sector ≤ place ∧
          place < Hdsk.place cylinder side sector + hdskSectorLen := by
  have h : side.val < 2 := side.isLt
  simp only [Hdsk.place, hdskHeads, hdskSectors, hdskSectorLen]
  constructor
  · rintro ⟨i, bound, starts, ends⟩
    refine ⟨⟨i, bound⟩, ⟨(place - (side.val * 6144 + 12288 * i)) / 256, ?_⟩, ?_⟩
    · rw [Nat.div_lt_iff_lt_mul (by decide)]
      omega
    · simp only
      omega
  · rintro ⟨cylinder, sector, starts, ends⟩
    have s : sector.val < 24 := sector.isLt
    generalize sector.val = sector at *
    refine ⟨cylinder, cylinder.isLt, ?_⟩
    generalize cylinder.val = cylinder at *
    omega

theorem unitReady_iff (board : Hdsk) (unit : Fin hdskUnits) :
    board.unitReady unit ↔ Datakeeper.Ready board.drives unit := by
  simp [Hdsk.unitReady, Datakeeper.Ready, Hdsk.drives]

theorem drives_isSome (board : Hdsk) (unit : Fin hdskUnits) (platter : Fin hdskPlatters) :
    (board.drives unit platter).isSome ↔ (board.platters unit platter).present := by
  simp [Hdsk.drives]

/-- The board's offset is the place of the sector addressed. -/
theorem offset_eq {machine : BootMachine Hdsk} (idle : Idle machine) (word : Nat) :
    machine.board.offset word =
      ((disk machine).addressed machine.board.drives word).map fun address =>
        (address.slot, address.place) := by
  unfold Hdsk.offset Datakeeper.addressed
  simp only [drives_isSome]
  by_cases there : (machine.board.platters (unitOf word) (platterOf word)).present ∧
      sectorOf word < hdskSectors ∧ (disk machine).heads (unitOf word) < hdskCylinders
  · have slot := (idle.loaded _ _ there.1).1
    rw [dif_pos there, if_neg]
    · simp only [slot]
      rfl
    · rintro (absent | beyond | beyond)
      · exact absent there.1
      · exact absurd there.2.1 (Nat.not_lt.2 beyond)
      · exact absurd there.2.2 (Nat.not_lt.2 beyond)
  · rw [dif_neg there, if_pos]
    · rfl
    · by_contra none
      simp only [not_or, not_not, Nat.not_le] at none
      exact there ⟨none.1, none.2.1, none.2.2⟩

theorem changesOnly_of_eq {machine next : BootMachine Hdsk} (disks : next.disks = machine.disks)
    (touched : HdskAddress → Prop) : ChangesOnly machine next touched where
  empty slot none := by rw [disks, none]
  image slot image some := ⟨image, by rw [disks, some], rfl, rfl, fun _ differs => absurd rfl differs⟩

/-- With the images as they were, the disk has at most new heads and buffers. -/
theorem refined_of_disks {machine next : BootMachine Hdsk} {after : Datakeeper}
    {touched : HdskAddress → Prop} (idle : Idle machine)
    (platters : next.board.platters = machine.board.platters)
    (disks : next.disks = machine.disks) (heads : next.board.cylinders = after.heads)
    (buffers : next.board.buffers = after.buffers)
    (surface : after.surface = (disk machine).surface)
    (there : ∀ unit, next.board.cylinders unit < hdskCylinders)
    (transfer : next.board.transfer = none) (ivPending : next.board.ivPending = none) :
    Refined machine next after touched where
  idle :=
    { loaded := by rw [platters, disks]; exact idle.loaded
      heads := there, transfer, ivPending }
  drives := by unfold Hdsk.drives; rw [platters]
  disk := by
    obtain ⟨afterHeads, afterBuffers, afterSurface⟩ := after
    simp only at heads buffers surface
    subst heads buffers surface
    unfold disk
    rw [disks]
  changes := changesOnly_of_eq disks touched

/-- With nothing new the disk is as it was. -/
theorem refined_of_alike {machine next : BootMachine Hdsk} {touched : HdskAddress → Prop}
    (idle : Idle machine) (platters : next.board.platters = machine.board.platters)
    (disks : next.disks = machine.disks)
    (cylinders : next.board.cylinders = machine.board.cylinders)
    (buffers : next.board.buffers = machine.board.buffers)
    (transfer : next.board.transfer = none) (ivPending : next.board.ivPending = none) :
    Refined machine next (disk machine) touched :=
  refined_of_disks idle platters disks cylinders buffers rfl
    (by rw [cylinders]; exact idle.heads) transfer ivPending

/-- With one image changed, the disk has new heads and what that image holds. -/
theorem refined_of_setDisk {machine next : BootMachine Hdsk} {touched : HdskAddress → Prop}
    {slot : Nat} {image after : Mounted} (idle : Idle machine)
    (platters : next.board.platters = machine.board.platters)
    (held : machine.disks slot = some image)
    (disks : next.disks = Function.update machine.disks slot (some after))
    (length : after.length = image.length) (readOnly : after.readOnly = image.readOnly)
    (changes : ∀ place, after.bytes place ≠ image.bytes place →
      ∃ address, touched address ∧ address.slot = slot ∧ address.place ≤ place ∧
        place < address.place + hdskSectorLen)
    (heads : ∀ unit, next.board.cylinders unit < hdskCylinders)
    (transfer : next.board.transfer = none) (ivPending : next.board.ivPending = none) :
    Refined machine next
      { heads := next.board.cylinders
        buffers := next.board.buffers
        surface := fun address i =>
          if address.slot = slot then after.bytes (address.place + i)
          else (disk machine).surface address i }
      touched where
  idle :=
    { loaded := by
        intro unit platter present
        rw [platters] at present ⊢
        obtain ⟨here, image', held', long, same⟩ := idle.loaded unit platter present
        refine ⟨here, ?_⟩
        rw [disks]
        by_cases this : unit.val * hdskPlatters + platter.val = slot
        · rw [this, held, Option.some.injEq] at held'
          subst held'
          exact ⟨after, by rw [this, Function.update_self], length ▸ long, readOnly.trans same⟩
        · exact ⟨image', by rw [Function.update_of_ne this, held'], long, same⟩
      heads, transfer, ivPending }
  drives := by unfold Hdsk.drives; rw [platters]
  disk := by
    unfold disk
    rw [disks]
    congr 1
    funext address i
    by_cases this : address.slot = slot
    · rw [if_pos this, this, Function.update_self]
      rfl
    · rw [if_neg this, Function.update_of_ne this]
  changes :=
    { empty := fun other none => by
        rw [disks, Function.update_of_ne, none]
        rintro rfl
        rw [held] at none
        cases none
      image := fun other image' some => by
        rw [disks]
        by_cases this : other = slot
        · subst this
          rw [held, Option.some.injEq] at some
          subst some
          exact ⟨after, Function.update_self .., length, readOnly, changes⟩
        · exact ⟨image', by rw [Function.update_of_ne this, some], rfl, rfl,
            fun _ differs => absurd rfl differs⟩ }

/-- The board with a command's bytes taken. -/
def Hdsk.accepted (board : Hdsk) (low : UInt8) (word : Nat) : Hdsk :=
  { board with
    writeReady := false, pendingLow := low, ack := true, status := 0, fresh := false
    selected := unitOf word }

/-- The machine after the two bytes of a command. -/
def sent (machine : BootMachine Hdsk) (low : UInt8) (word : Nat) : BootMachine Hdsk :=
  let out := (machine.board.accepted low word).arm word
  { machine with board := out.2 }.service out.1

/-- The low byte and the high byte of a command make the board execute it. -/
theorem portOut_portOut {machine : BootMachine Hdsk} (idle : Idle machine) (high low : UInt8) :
    (machine.portOut 0xA7 low).portOut 0xA3 high =
      sent machine low (GuestOp.word high low) := by
  have first : machine.portOut 0xA7 low =
      { machine with board := { machine.board with writeReady := false, pendingLow := low } } := by
    simp [BootMachine.portOut, Controller.portOut, Hdsk.portOut, Hdsk.dataOut, idle.transfer,
      idle.ivPending, BootMachine.service]
  rw [first]
  rfl

@[simp] theorem accepted_platters (board : Hdsk) (low : UInt8) (word : Nat) :
    (board.accepted low word).platters = board.platters := rfl

/-- A machine whose board has taken a command is the same disk. -/
theorem accepted_unitReady (board : Hdsk) (low : UInt8) (word : Nat) (unit : Fin hdskUnits) :
    (board.accepted low word).unitReady unit ↔ Datakeeper.Ready board.drives unit :=
  unitReady_iff board unit

/-! ## Buffer transfers -/

/-- A read of the data port never asks for the medium. -/
theorem portIn_data (machine : BootMachine Hdsk) :
    machine.portIn 0xA5 =
      (machine.board.dataIn.1, { machine with board := machine.board.dataIn.2 }) := rfl

/-- A write of the data port never asks for the medium. -/
theorem portOut_data (machine : BootMachine Hdsk) (value : UInt8) :
    machine.portOut 0xA7 value = { machine with board := machine.board.dataOut value } := rfl

/-- A byte of a Read Buffer that is not its last. -/
theorem dataIn_more {board : Hdsk} {buffer : Fin 4} {pos : Nat} (status : board.statusByte = none)
    (transfer : board.transfer = some ⟨buffer, pos, hdskSectorLen, false⟩)
    (more : pos + 1 < hdskSectorLen) :
    board.dataIn =
      (board.buffers buffer ⟨pos, by omega⟩,
        { board with
          transfer := some ⟨buffer, pos + 1, hdskSectorLen, false⟩, readReady := true }) := by
  have place : Hdsk.Transfer.at ⟨buffer, pos, hdskSectorLen, false⟩ = ⟨pos, by omega⟩ :=
    Fin.ext (Nat.mod_eq_of_lt (show pos < hdskSectorLen by omega))
  simp only [Hdsk.dataIn, status, transfer, Bool.false_eq_true, if_false, place, ge_iff_le,
    Nat.not_le.2 more]

/-- The last byte of a Read Buffer. -/
theorem dataIn_last {board : Hdsk} {buffer : Fin 4} {pos : Nat} (status : board.statusByte = none)
    (transfer : board.transfer = some ⟨buffer, pos, hdskSectorLen, false⟩)
    (last : pos + 1 = hdskSectorLen) :
    board.dataIn =
      (board.buffers buffer ⟨pos, by omega⟩,
        { board with transfer := none, readReady := false, ready := true }) := by
  have place : Hdsk.Transfer.at ⟨buffer, pos, hdskSectorLen, false⟩ = ⟨pos, by omega⟩ :=
    Fin.ext (Nat.mod_eq_of_lt (show pos < hdskSectorLen by omega))
  simp only [Hdsk.dataIn, status, transfer, Bool.false_eq_true, if_false, place, ge_iff_le,
    last, Nat.le_refl, if_true]

/-- What the rest of a Read Buffer gives, and leaves. -/
theorem readMany_transfer {rest pos : Nat} {machine : BootMachine Hdsk} {buffer : Fin 4}
    (status : machine.board.statusByte = none)
    (transfer : machine.board.transfer = some ⟨buffer, pos, hdskSectorLen, false⟩)
    (some : rest ≠ 0) (ends : pos + rest = hdskSectorLen) :
    readMany rest machine =
      ((List.ofFn (machine.board.buffers buffer)).drop pos,
        { machine with
          board :=
            { machine.board with transfer := none, readReady := false, ready := true } }) := by
  obtain ⟨count, rfl⟩ := Nat.exists_eq_add_one_of_ne_zero some
  have length : pos < (List.ofFn (machine.board.buffers buffer)).length := by
    rw [List.length_ofFn]
    omega
  rw [List.drop_eq_getElem_cons length, List.getElem_ofFn]
  induction count generalizing pos machine with
  | zero =>
    have beyond : (List.ofFn (machine.board.buffers buffer)).drop (pos + 1) = [] :=
      List.drop_eq_nil_of_le (by rw [List.length_ofFn]; omega)
    rw [readMany, portIn_data, dataIn_last status transfer (by omega), beyond]
    rfl
  | succ count ih =>
    have longer : pos + 1 < (List.ofFn (machine.board.buffers buffer)).length := by
      rw [List.length_ofFn]
      omega
    have rest := @ih (pos + 1)
      { machine with
        board :=
          { machine.board with
            transfer := .some ⟨buffer, pos + 1, hdskSectorLen, false⟩, readReady := true } }
      status rfl (Nat.succ_ne_zero _) (by omega) longer
    rw [readMany, portIn_data, dataIn_more status transfer (by omega)]
    simp only [rest]
    rw [List.drop_eq_getElem_cons longer, List.getElem_ofFn]

/-- A byte of a Write Buffer. -/
theorem dataOut_transfer {board : Hdsk} {buffer : Fin 4} {pos : Nat}
    (ivPending : board.ivPending = none)
    (transfer : board.transfer = some ⟨buffer, pos, hdskSectorLen, true⟩)
    (inside : pos < hdskSectorLen) (value : UInt8) :
    board.dataOut value =
      { board with
        buffers := Function.update board.buffers buffer
          (Function.update (board.buffers buffer) ⟨pos, inside⟩ value)
        transfer :=
          if hdskSectorLen ≤ pos + 1 then none
          else some ⟨buffer, pos + 1, hdskSectorLen, true⟩
        ready := if hdskSectorLen ≤ pos + 1 then true else board.ready
        writeReady := if hdskSectorLen ≤ pos + 1 then false else true } := by
  have place : Hdsk.Transfer.at ⟨buffer, pos, hdskSectorLen, true⟩ = ⟨pos, inside⟩ :=
    Fin.ext (Nat.mod_eq_of_lt inside)
  simp only [Hdsk.dataOut, ivPending, transfer, not_true_eq_false, if_false, place, ge_iff_le]
  split_ifs <;> rfl

/-- Setting a byte and then the bytes behind it sets a run. -/
theorem update_run (old : HdskSector) (byte : UInt8) (bytes : List UInt8) {pos : Nat}
    (inside : pos < hdskSectorLen) (i : Fin hdskSectorLen) :
    (if pos + 1 ≤ i then (bytes[i - (pos + 1)]?).getD 0
      else Function.update old ⟨pos, inside⟩ byte i) =
      if pos ≤ i then ((byte :: bytes)[i - pos]?).getD 0 else old i := by
  rcases Nat.lt_trichotomy i.val pos with before | here | behind
  · have other : i ≠ ⟨pos, inside⟩ := fun same => before.ne (congrArg Fin.val same)
    rw [if_neg (by omega), if_neg (by omega), Function.update_of_ne other]
  · obtain rfl : i = ⟨pos, inside⟩ := Fin.ext here
    rw [if_neg (by simp), if_pos (Nat.le_refl _), Function.update_self, Nat.sub_self]
    rfl
  · have next : i.val - pos = (i.val - (pos + 1)) + 1 := by omega
    rw [if_pos (by omega), if_pos behind.le, next, List.getElem?_cons_succ]

/-- What the rest of a Write Buffer leaves. -/
theorem writeMany_transfer {bytes : List UInt8} {pos : Nat} {machine : BootMachine Hdsk}
    {buffer : Fin 4} (ivPending : machine.board.ivPending = none)
    (transfer : machine.board.transfer = some ⟨buffer, pos, hdskSectorLen, true⟩)
    (some : bytes ≠ []) (ends : pos + bytes.length = hdskSectorLen) :
    writeMany machine bytes =
      { machine with
        board :=
          { machine.board with
            buffers := Function.update machine.board.buffers buffer fun i =>
              if pos ≤ i then (bytes[i - pos]?).getD 0 else machine.board.buffers buffer i
            transfer := none, writeReady := false, ready := true } } := by
  induction bytes generalizing pos machine with
  | nil => exact absurd rfl some
  | cons byte bytes ih =>
    rw [List.length_cons] at ends
    have inside : pos < hdskSectorLen := by omega
    have run := update_run (machine.board.buffers buffer) byte bytes inside
    rw [writeMany, List.foldl_cons, portOut_data,
      dataOut_transfer ivPending transfer inside, ← writeMany]
    cases bytes with
    | nil =>
      have last : hdskSectorLen ≤ pos + 1 := by simpa using ends.ge
      have buffer_eq : ∀ i : Fin hdskSectorLen,
          Function.update (machine.board.buffers buffer) ⟨pos, inside⟩ byte i =
            if pos ≤ i then ([byte][i - pos]?).getD 0 else machine.board.buffers buffer i := by
        intro i
        have bound := i.isLt
        rw [← run i, if_neg (by omega)]
      simp only [last, if_true, writeMany, List.foldl_nil]
      congr 3
      exact funext buffer_eq
    | cons next bytes =>
      have more : ¬hdskSectorLen ≤ pos + 1 := by
        rw [List.length_cons] at ends
        omega
      simp only [more, if_false]
      refine (@ih (pos + 1) _ ?_ ?_ (List.cons_ne_nil _ _) (by omega)).trans ?_
      · exact ivPending
      · rfl
      · simp only [Function.update_self, Function.update_idem]
        congr 3
        exact funext run

section Commands

variable {machine : BootMachine Hdsk} (idle : Idle machine) (low : UInt8) {word : Nat}
  (data : HdskSector) {touched : HdskAddress → Prop}
include idle

theorem seek_refined (is : Command.of word = .seek) :
    Refined machine (sent machine low word)
      ((disk machine).command machine.board.drives word data) touched := by
  have ready := accepted_unitReady machine.board low word (unitOf word)
  simp only [sent, Hdsk.arm, is, Hdsk.seek, Datakeeper.command]
  by_cases there : Datakeeper.Ready machine.board.drives (unitOf word)
  · by_cases far : hdskCylinders ≤ word % 2 ^ 9
    · rw [if_neg (not_not.2 (ready.2 there)), if_pos far, if_neg (fun both => by omega)]
      exact refined_of_alike idle rfl rfl rfl rfl idle.transfer idle.ivPending
    · rw [if_neg (not_not.2 (ready.2 there)), if_neg far, if_pos ⟨there, Nat.lt_of_not_le far⟩]
      refine refined_of_disks idle rfl rfl rfl rfl rfl (fun unit => ?_) idle.transfer
        idle.ivPending
      by_cases here : unit = unitOf word
      · subst here
        simpa [BootMachine.service, Hdsk.moveTo] using far
      · simpa [BootMachine.service, Hdsk.moveTo, Hdsk.accepted, here] using idle.heads unit
  · rw [if_pos (fun yes => there (ready.1 yes)), if_neg (fun both => there both.1)]
    exact refined_of_alike idle rfl rfl rfl rfl idle.transfer idle.ivPending

theorem initialise_refined (is : Command.of word = .initialise) :
    Refined machine (sent machine low word)
      ((disk machine).command machine.board.drives word data) touched := by
  have heads : (sent machine low word).board.cylinders = fun unit =>
      if Datakeeper.Ready machine.board.drives unit then 0 else machine.board.cylinders unit := by
    simp only [sent, Hdsk.arm, is, Hdsk.initialise, BootMachine.service]
    funext unit
    simp only [accepted_unitReady]
    rfl
  have platters : (sent machine low word).board.platters = machine.board.platters := by
    simp only [sent, Hdsk.arm, is]
    rfl
  simp only [Datakeeper.command, is]
  refine refined_of_disks idle platters ?_ heads ?_ rfl (fun unit => ?_) ?_ ?_
  case refine_3 =>
    rw [heads]
    simp only
    split_ifs
    exacts [by decide, idle.heads unit]
  all_goals
    simp only [sent, Hdsk.arm, is]
    rfl

/-- A present platter's image. -/
theorem image_of_addressed {address : HdskAddress}
    (found : (disk machine).addressed machine.board.drives word = some address) :
    ∃ image, machine.disks address.slot = some image ∧ hdskImageLen ≤ image.length ∧
      machine.board.drives (unitOf word) (platterOf word) = some image.readOnly ∧
      (machine.board.platters (unitOf word) (platterOf word)).readOnly = image.readOnly := by
  unfold Datakeeper.addressed at found
  split_ifs at found with there
  rw [Option.some.injEq] at found
  subst found
  have present := (drives_isSome _ _ _).1 there.1
  obtain ⟨-, image, slot, long, readOnly⟩ := idle.loaded _ _ present
  exact ⟨image, slot, long, by simp [Hdsk.drives, present, readOnly], readOnly.symm⟩

omit idle in
/-- The bytes of a sector in its image. -/
theorem get_sector {address : HdskAddress} {image : Mounted}
    (slot : machine.disks address.slot = some image) (long : hdskImageLen ≤ image.length) :
    image.get address.place hdskSectorLen = some (List.ofFn ((disk machine).surface address)) := by
  have fits : address.place + hdskSectorLen ≤ image.length := by
    have last := address.place_lt (i := 255) (by decide)
    have : hdskSectorLen = 256 := rfl
    omega
  rw [Mounted.get, if_pos fits]
  simp only [disk, slot, Option.map_some, Option.getD_some]

theorem readSector_refined
    (is : Command.of word = .readSector ∨ Command.of word = .readUnformatted) :
    Refined machine (sent machine low word)
      ((disk machine).command machine.board.drives word data) touched := by
  have arm : (machine.board.accepted low word).arm word =
      (machine.board.accepted low word).sectorCommand word := by
    rcases is with is | is <;> simp [Hdsk.arm, is]
  have after : (disk machine).command machine.board.drives word data =
      ((disk machine).addressed machine.board.drives word).elim (disk machine) fun address =>
        { disk machine with
          buffers :=
            Function.update (disk machine).buffers (bufferOf word)
              ((disk machine).surface address) } := by
    rcases is with is | is <;> simp [Datakeeper.command, is]
  have notWriting : Command.of word ≠ .writeSector := by
    rcases is with is | is <;> simp [is]
  have place : (machine.board.accepted low word).offset word =
      ((disk machine).addressed machine.board.drives word).map fun address =>
        (address.slot, address.place) := offset_eq idle word
  rw [after, sent, arm, Hdsk.sectorCommand, place]
  cases there : (disk machine).addressed machine.board.drives word with
  | none => exact refined_of_alike idle rfl rfl rfl rfl idle.transfer idle.ivPending
  | some address =>
    obtain ⟨image, slot, long, -⟩ := image_of_addressed idle there
    have sector : (machine.disks address.slot).bind
        (fun image => image.get address.place hdskSectorLen) =
        some (List.ofFn ((disk machine).surface address)) := by
      rw [slot, Option.bind_some, get_sector slot long]
    have loaded : ∀ old : HdskSector, (fun i : Fin hdskSectorLen =>
        ((List.ofFn ((disk machine).surface address))[i.val]?).getD (old i)) =
          (disk machine).surface address := by
      intro old
      funext i
      rw [List.getElem?_ofFn, dif_pos i.isLt]
      rfl
    simp only [Option.map_some, notWriting, false_and, if_false, Option.elim_some,
      BootMachine.service, BootMachine.load, sector, Option.getD_some, Controller.bufferLoaded,
      Hdsk.bufferLoaded, loaded]
    exact refined_of_disks idle rfl rfl rfl rfl rfl idle.heads idle.transfer idle.ivPending

omit idle in
/-- The buffer put where a sector is changes that sector alone. -/
theorem put_sector {address : HdskAddress} {image : Mounted}
    (slot : machine.disks address.slot = some image) (buffer : HdskSector) :
    (fun (other : HdskAddress) (i : Fin hdskSectorLen) =>
      if other.slot = address.slot then
        (image.put address.place (List.ofFn buffer)).bytes (other.place + i)
      else (disk machine).surface other i) =
      Function.update (disk machine).surface address buffer := by
  funext other i
  have length : (List.ofFn buffer).length = hdskSectorLen := List.length_ofFn
  by_cases same : other = address
  · subst same
    rw [if_pos rfl, Function.update_self, Mounted.put_inside _ (by rw [length]; exact i.isLt),
      List.getElem_ofFn]
  · rw [Function.update_of_ne same]
    split_ifs with there
    · have outside : other.place + i < address.place ∨
          address.place + (List.ofFn buffer).length ≤ other.place + i := by
        by_contra inside
        rw [length] at inside
        exact same (HdskAddress.eq_of_inside i.isLt there (by omega) (by omega))
      rw [Mounted.put_outside _ outside]
      simp only [disk, there, slot, Option.map_some, Option.getD_some]
    · rfl

theorem writeSector_refined (is : Command.of word = .writeSector) :
    Refined machine (sent machine low word)
      ((disk machine).command machine.board.drives word data)
      ((disk machine).Touches machine.board.drives word) := by
  have place : (machine.board.accepted low word).offset word =
      ((disk machine).addressed machine.board.drives word).map fun address =>
        (address.slot, address.place) := offset_eq idle word
  simp only [sent, Hdsk.arm, is, Hdsk.sectorCommand, place, Datakeeper.command]
  cases there : (disk machine).addressed machine.board.drives word with
  | none => exact refined_of_alike idle rfl rfl rfl rfl idle.transfer idle.ivPending
  | some address =>
    obtain ⟨image, slot, long, drive, readOnly⟩ := image_of_addressed idle there
    simp only [Option.map_some, Option.elim_some, accepted_platters, readOnly, drive, Option.some.injEq, true_and]
    by_cases locked : image.readOnly = true
    · rw [if_pos locked, if_neg (by simp [locked])]
      exact refined_of_alike idle rfl rfl rfl rfl idle.transfer idle.ivPending
    · have unlocked : image.readOnly = false := by simpa using locked
      rw [if_neg locked, if_pos unlocked, ← put_sector slot]
      have fits : address.place + hdskSectorLen ≤ image.length := by
        have last := address.place_lt (i := 255) (by decide)
        have : hdskSectorLen = 256 := rfl
        omega
      have length : (List.ofFn (machine.board.buffers (bufferOf word))).length = hdskSectorLen :=
        List.length_ofFn
      have stored : ∀ board : Hdsk, board.buffers = machine.board.buffers →
          board.pendingBuffer = bufferOf word →
          (BootMachine.mk board machine.disks).service
              (.write address.slot address.place hdskSectorLen) =
            (BootMachine.mk board machine.disks).setDisk address.slot
              (image.put address.place (List.ofFn (machine.board.buffers (bufferOf word)))) := by
        intro board buffers pending
        simp only [BootMachine.service, BootMachine.store, Controller.buffer, slot, unlocked,
          buffers, pending, Bool.false_eq_true, if_false, length, fits, Nat.le_refl, and_self,
          if_true, List.take_of_length_le (Nat.le_of_eq length)]
      simp only [if_true]
      rw [stored]
      rotate_left
      · rfl
      · rfl
      refine refined_of_setDisk idle rfl slot rfl rfl rfl ?_ idle.heads idle.transfer
        idle.ivPending
      intro place differs
      refine ⟨address, ⟨by rw [drive, unlocked], .inl ⟨is, there⟩⟩, rfl, ?_⟩
      by_contra outside
      refine differs (Mounted.put_outside _ ?_)
      rw [List.length_ofFn]
      omega

open Classical in
omit idle in
/-- What a format leaves in its image. -/
theorem fill_side (unit : Fin hdskUnits) (platter : Fin hdskPlatters) {image : Mounted}
    (long : hdskImageLen ≤ image.length) (side : Fin hdskHeads) (place : Nat) :
    (image.fill (side * hdskSectors * hdskSectorLen) (hdskSectors * hdskSectorLen)
        (hdskHeads * hdskSectors * hdskSectorLen) Hdsk.formatFill hdskCylinders).bytes place =
      if ∃ address : HdskAddress, (address.unit = unit ∧ address.platter = platter ∧
          address.side = side) ∧ address.place ≤ place ∧ place < address.place + hdskSectorLen then
        Hdsk.formatFill
      else image.bytes place := by
  have fits : ∀ i < hdskCylinders,
      side * hdskSectors * hdskSectorLen + hdskHeads * hdskSectors * hdskSectorLen * i +
        hdskSectors * hdskSectorLen ≤ image.length := by
    intro i bound
    have h : side.val < 2 := side.isLt
    simp only [hdskImageLen, hdskHeads, hdskSectors, hdskSectorLen, hdskCylinders] at *
    omega
  rw [image.fill_bytes Hdsk.formatFill fits]
  refine if_congr ((format_run side).trans ⟨?_, ?_⟩) rfl rfl
  · rintro ⟨cylinder, sector, within⟩
    exact ⟨⟨unit, platter, side, cylinder, sector⟩, ⟨rfl, rfl, rfl⟩, within⟩
  · rintro ⟨address, ⟨-, -, rfl⟩, within⟩
    exact ⟨address.cylinder, address.sector, within⟩

omit idle in
theorem fill_surface {unit : Fin hdskUnits} {platter : Fin hdskPlatters} {image : Mounted}
    (slot : machine.disks (unit * hdskPlatters + platter) = some image)
    (long : hdskImageLen ≤ image.length) (side : Fin hdskHeads) :
    (fun (other : HdskAddress) (i : Fin hdskSectorLen) =>
      if other.slot = unit * hdskPlatters + platter then
        (image.fill (side * hdskSectors * hdskSectorLen) (hdskSectors * hdskSectorLen)
          (hdskHeads * hdskSectors * hdskSectorLen) Hdsk.formatFill hdskCylinders).bytes
            (other.place + i)
      else (disk machine).surface other i) =
      fun address =>
        if address.unit = unit ∧ address.platter = platter ∧ address.side = side then
          fun _ => Hdsk.formatFill
        else (disk machine).surface address := by
  funext other i
  by_cases there : other.slot = unit * hdskPlatters + platter
  · have on := (other.slot_eq_iff unit platter).1 there
    rw [if_pos there, fill_side unit platter long]
    by_cases same : other.side = side
    · rw [if_pos ⟨other, ⟨on.1, on.2, same⟩, Nat.le_add_right _ _,
        Nat.add_lt_add_left i.isLt _⟩, if_pos ⟨on.1, on.2, same⟩]
    · rw [if_neg, if_neg fun both => same both.2.2]
      · simp only [disk, there, slot, Option.map_some, Option.getD_some]
      · rintro ⟨address, ⟨unit', platter', side'⟩, starts, ends⟩
        have slots : other.slot = address.slot := by
          rw [there, (address.slot_eq_iff unit platter).2 ⟨unit', platter'⟩]
        rw [HdskAddress.eq_of_inside i.isLt slots starts ends] at same
        exact same side'
  · have off : ¬(other.unit = unit ∧ other.platter = platter ∧ other.side = side) :=
      fun all => there ((other.slot_eq_iff unit platter).2 ⟨all.1, all.2.1⟩)
    rw [if_neg there, if_neg off]

theorem format_refined (is : Command.of word = .format) :
    Refined machine (sent machine low word)
      ((disk machine).command machine.board.drives word data)
      ((disk machine).Touches machine.board.drives word) := by
  simp only [sent, Hdsk.arm, is, Hdsk.format, Datakeeper.command, accepted_platters]
  by_cases present : (machine.board.platters (unitOf word) (platterOf word)).present
  · obtain ⟨here, image, slot, long, readOnly⟩ := idle.loaded _ _ present
    have drive : machine.board.drives (unitOf word) (platterOf word) = some image.readOnly := by
      simp [Hdsk.drives, present, readOnly]
    simp only [present, not_true_eq_false, if_false, drive, ← readOnly, Option.some.injEq]
    by_cases locked : image.readOnly = true
    · rw [if_pos locked, if_neg (by simp [locked])]
      exact refined_of_alike idle rfl rfl rfl rfl idle.transfer idle.ivPending
    · have unlocked : image.readOnly = false := by simpa using locked
      rw [if_neg locked, if_pos unlocked]
      simp only [here, BootMachine.service, BootMachine.erase, slot, unlocked,
        Bool.false_eq_true, if_false]
      have refined := @refined_of_setDisk machine
        ((BootMachine.mk { (machine.board.accepted low word).moveTo (unitOf word) 0 with
          ready := true } machine.disks).setDisk (unitOf word * hdskPlatters + platterOf word)
          (image.fill (sideOf word * hdskSectors * hdskSectorLen) (hdskSectors * hdskSectorLen)
            (hdskHeads * hdskSectors * hdskSectorLen) Hdsk.formatFill hdskCylinders))
        ((disk machine).Touches machine.board.drives word) _ _ _ idle rfl slot rfl
        (Mounted.fill_length ..) (Mounted.fill_readOnly ..) ?_ ?_ idle.transfer idle.ivPending
      · rw [fill_surface slot long] at refined
        exact refined
      · intro place differs
        rw [fill_side (unitOf word) (platterOf word) long] at differs
        split_ifs at differs with inside
        · obtain ⟨address, on, within⟩ := inside
          exact ⟨address, ⟨by rw [drive, unlocked], .inr ⟨is, on⟩⟩,
            (address.slot_eq_iff _ _).2 ⟨on.1, on.2.1⟩, within⟩
        · exact absurd rfl differs
      · intro unit
        by_cases here : unit = unitOf word
        · subst here
          simp [BootMachine.setDisk, Hdsk.moveTo]
        · simpa [BootMachine.setDisk, Hdsk.moveTo, Hdsk.accepted, here] using idle.heads unit
  · have drive : machine.board.drives (unitOf word) (platterOf word) = none := by
      simp [Hdsk.drives, present]
    simp only [present, drive]
    exact refined_of_alike idle rfl rfl rfl rfl idle.transfer idle.ivPending

omit idle in
/-- A buffer command leaves the images alone and owes a whole buffer. -/
theorem sent_buffer (is : Command.of word = .readBuffer ∨ Command.of word = .writeBuffer)
    (whole : word % 2 ^ 8 = 0) :
    ∃ board : Hdsk, sent machine low word = { machine with board } ∧
      board.platters = machine.board.platters ∧ board.cylinders = machine.board.cylinders ∧
      board.buffers = machine.board.buffers ∧ board.statusByte = machine.board.statusByte ∧
      board.ivPending = machine.board.ivPending ∧
      board.transfer = some ⟨bufferOf word, 0, hdskSectorLen,
        decide (Command.of word = .writeBuffer)⟩ := by
  refine ⟨((machine.board.accepted low word).bufferCommand word).2, ?_, rfl, rfl, rfl, rfl, rfl, ?_⟩
  · rcases is with is | is
    all_goals
      simp only [sent, Hdsk.arm, is]
      rfl
  · simp only [Hdsk.bufferCommand, whole, if_true]

theorem readBuffer_refined (is : Command.of word = .readBuffer) (whole : word % 2 ^ 8 = 0)
    (taken : machine.board.statusByte = none) :
    (readMany hdskSectorLen (sent machine low word)).1 =
        List.ofFn ((disk machine).buffers (bufferOf word)) ∧
      Refined machine (readMany hdskSectorLen (sent machine low word)).2
        ((disk machine).command machine.board.drives word data) touched := by
  obtain ⟨board, sent, platters, cylinders, buffers, status, ivPending, transfer⟩ :=
    @sent_buffer machine low word (.inl is) whole
  rw [is] at transfer
  have rest : readMany hdskSectorLen { machine with board } = (List.ofFn (board.buffers _), _) :=
    readMany_transfer (status.trans taken) transfer (by decide) (Nat.zero_add _)
  rw [sent, rest]
  simp only [Datakeeper.command, is]
  exact ⟨congrArg (fun buffers => List.ofFn (buffers (bufferOf word))) buffers,
    refined_of_alike idle platters rfl cylinders buffers rfl (ivPending.trans idle.ivPending)⟩

theorem writeBuffer_refined (is : Command.of word = .writeBuffer) (whole : word % 2 ^ 8 = 0) :
    Refined machine (writeMany (sent machine low word) (List.ofFn data))
      ((disk machine).command machine.board.drives word data) touched := by
  obtain ⟨board, sent, platters, cylinders, buffers, -, ivPending, transfer⟩ :=
    @sent_buffer machine low word (.inr is) whole
  rw [is] at transfer
  have some : List.ofFn data ≠ [] := by
    intro none
    have length := congrArg List.length none
    rw [List.length_ofFn] at length
    cases length
  have loaded : (fun i : Fin hdskSectorLen =>
      if 0 ≤ i.val then ((List.ofFn data)[i.val - 0]?).getD 0 else board.buffers (bufferOf word) i) =
        data := by
    funext i
    rw [if_pos (Nat.zero_le _), Nat.sub_zero, List.getElem?_ofFn, dif_pos i.isLt]
    rfl
  have rest := @writeMany_transfer (List.ofFn data) 0 { machine with board } (bufferOf word)
    (ivPending.trans idle.ivPending) transfer some (by rw [Nat.zero_add, List.length_ofFn])
  rw [loaded] at rest
  rw [sent, rest]
  simp only [Datakeeper.command, is]
  exact refined_of_disks idle platters rfl cylinders (by rw [buffers]; rfl) rfl
    (by simp only [cylinders]; exact idle.heads) rfl (ivPending.trans idle.ivPending)

theorem setByte_refined (is : Command.of word = .setByte) :
    Refined machine ((sent machine low word).portOut 0xA7 (data ⟨0, by decide⟩))
      ((disk machine).command machine.board.drives word data) touched := by
  have ready := accepted_unitReady machine.board low word (unitOf word)
  simp only [sent, Hdsk.arm, is, Hdsk.setByte, BootMachine.service, portOut_data, Hdsk.dataOut,
    Hdsk.takeByte, Datakeeper.command]
  split_ifs with moves moved moved
  · refine refined_of_disks idle rfl rfl rfl rfl rfl (fun unit => ?_) idle.transfer rfl
    by_cases here : unit = unitOf word
    · subst here
      simp [Hdsk.moveTo, Hdsk.accepted]
    · simpa [Hdsk.moveTo, Hdsk.accepted, here] using idle.heads unit
  · exact absurd ⟨moves.1, moves.2.1, ready.1 moves.2.2⟩ moved
  · exact absurd ⟨moved.1, moved.2.1, ready.2 moved.2.2⟩ moves
  · exact refined_of_alike idle rfl rfl rfl rfl idle.transfer rfl

theorem readStatus_refined (is : Command.of word = .readStatus) :
    Refined machine (sent machine low word)
      ((disk machine).command machine.board.drives word data) touched := by
  simp only [sent, Hdsk.arm, is, Hdsk.readStatus, Datakeeper.command]
  split_ifs <;>
    exact refined_of_alike idle rfl rfl rfl rfl idle.transfer idle.ivPending

omit low data in
/-- A read of a port with no transfer owed is at most a byte of a Read Status taken. -/
theorem poll_refined (port : UInt8) :
    Refined machine (machine.portIn port).2 (disk machine) touched := by
  have data : Refined machine { machine with board := machine.board.dataIn.2 } (disk machine)
      touched := by
    simp only [Hdsk.dataIn, idle.transfer]
    split <;>
      exact refined_of_alike idle rfl rfl rfl rfl rfl idle.ivPending
  rw [BootMachine.portIn_none (portIn_request machine.board port)]
  simp only [Controller.portIn, Hdsk.portIn]
  split_ifs
  all_goals
    first
    | exact data
    | exact refined_of_alike idle rfl rfl rfl rfl idle.transfer idle.ivPending

end Commands

end EthernetGateway.Machine
