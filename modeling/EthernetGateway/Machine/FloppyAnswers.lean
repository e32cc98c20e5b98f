import EthernetGateway.Machine.FloppyBoards
import EthernetGateway.Machine.FloppyReads

/-!
# The Tarbell and the Cromemco answer their guests

Both boards serve their chip exactly: a sector the disk has is fetched or stored where it is, and
one it does not have ends the command. So no guest of either is left waiting, and what it reads is
what it asked for.
-/

namespace EthernetGateway.Machine

open Wd1771 (Reg Kind)
open FloppyBoard (chip)

/-! ## The Tarbell -/

namespace Tarbell

/-- A drive with an image the board accepts. -/
def Holds (board : Tarbell) (drive length : Nat) : Prop :=
  (board.drives drive).present = true ∧ tarbellImageLen ≤ length

/-- The board serves its chip on the drive of the command in progress. -/
theorem serve_serves (board : Tarbell) (need : Need) (ahead : Bool) :
    Serves board (heldOn board) need board.chip (board.serve need ahead).1
      (board.serve need ahead).2 := by
  have held : (heldOn board).1 = board.inFlight.getD board.selected := by
    simp only [heldOn, FloppyBoard.latched, FloppyBoard.drive]
    cases board.inFlight <;> rfl
  have still : ∀ drive, chip { (if board.chip.busy then board
      else { board with inFlight := none }) with pending := drive } = board.chip := by
    intro drive
    split <;> rfl
  have still' : chip (if board.chip.busy then board else { board with inFlight := none }) =
      board.chip := by
    split <;> rfl
  cases need with
  | none => exact ⟨rfl, still'⟩
  | read track sector =>
    simp only [Serves, offset_eq, serve, held]
    cases offset track sector with
    | none => exact ⟨rfl, congrArg Wd1771.recordMissing still'⟩
    | some place =>
      refine ⟨?_, still _⟩
      cases ahead
      · exact .inl rfl
      · exact .inr rfl
  | write track sector =>
    simp only [Serves, offset_eq, serve, held]
    cases offset track sector with
    | none => exact ⟨rfl, congrArg Wd1771.recordMissing still'⟩
    | some place => exact ⟨rfl, still _⟩

/-- Serving a need leaves the drives alone. -/
theorem serve_drives (board : Tarbell) (need : Need) (ahead : Bool) :
    (board.serve need ahead).2.drives = board.drives := by
  have still : (if board.chip.busy then board else { board with inFlight := none }).drives =
      board.drives := by
    split <;> rfl
  simp only [serve]
  split
  · exact still
  · split <;> exact still
  · split <;> exact still

/-- The Tarbell serves its chip exactly. -/
theorem serving : Serving Valid Holds where
  recorded board valid := valid.1 ▸ (by decide : 0 < fdSectorLen)
  input board port reg isReg := by
    obtain ⟨other, rfl⟩ := register_eq isReg
    simp only [Controller.portIn, portIn, if_neg other]
    exact ⟨rfl, serve_serves _ _ _⟩
  output board port value reg isReg other := by
    obtain ⟨wait, rfl⟩ := register_eq isReg
    simp only [Controller.portOut, portOut, if_neg wait, if_neg other]
    exact serve_serves _ _ _
  command board port value isReg valid := by
    obtain ⟨wait, isCommand⟩ := register_eq isReg
    simp only [Controller.portOut, portOut, if_neg wait, isCommand, if_true, Wd1771.write]
    refine ⟨board.refreshDrive.chip, rfl, rfl, ?_, fun _ holds => holds.1, ?_, ?_⟩
    · exact valid.1 ▸ (by decide : 0 < fdSectorLen)
    · intro format there
      simp only [FloppyBoard.trackAt] at there
      split_ifs at there
      rw [Option.some.injEq] at there
      subst there
      exact valid
    · generalize board.refreshDrive.chip.command value = out
      have serves := serve_serves { board.refreshDrive with
        chip := out.2
        inFlight := if out.2.busy then some board.refreshDrive.selected else none } out.1 false
      have held : heldOn { board.refreshDrive with
          chip := out.2
          inFlight := if out.2.busy then some board.refreshDrive.selected else none } =
            (board.selected, 0) := by
        simp only [heldOn, FloppyBoard.latched, FloppyBoard.drive, FloppyBoard.side]
        split <;> rfl
      rw [held] at serves
      exact serves
  fits board drive side track length format holds there := by
    simp only [FloppyBoard.trackAt] at there
    split_ifs at there with beyond
    rw [Option.some.injEq] at there
    subst there
    have inside : track.toNat < 77 := UInt8.lt_iff_toNat_lt.1 (UInt8.not_le.1 beyond)
    have rows : (track.toNat + 1) * (fdSectorsPerTrack * fdSectorLen) ≤
        77 * (fdSectorsPerTrack * fdSectorLen) := Nat.mul_le_mul_right _ inside
    refine ⟨Nat.le_trans ?_ holds.2, Nat.zero_lt_succ 127, ?_⟩
    · simp only [tarbellImageLen, fdSectorsPerTrack, fdSectorLen] at rows ⊢
      omega
    · show (26 : Nat) < 256
      omega
  kept board := by
    have same : ∀ after : Tarbell, after.drives = board.drives → Holds after = Holds board := by
      intro after drives
      funext drive length
      simp only [Holds, drives]
    refine ⟨fun port => same _ ?_, fun port value => same _ ?_, fun drive bytes => rfl⟩
    · simp only [Controller.portIn, portIn]
      split
      · rfl
      · exact serve_drives _ _ _
    · simp only [Controller.portOut, portOut]
      split
      · split <;> rfl
      · rw [serve_drives]
        by_cases isCommand : Reg.of port = .command
        · simp only [isCommand, if_true]
          rfl
        · simp only [isCommand, if_false]

end Tarbell

/-! ## The Cromemco -/

namespace Cromemco

/-- A drive with an image of one of the formats of the board. -/
def Holds (board : Cromemco) (drive length : Nat) : Prop :=
  (board.drives drive).present = true ∧ ∃ format ∈ CromemcoFormat.formats,
    (board.drives drive).format = some format ∧ format.bytes ≤ length

/-- The board serves its chip on the drive and the side of the command in progress. -/
theorem serveSelected_serves (board : Cromemco) (need : Need) (ahead : Bool) :
    Serves board (heldOn board) need board.chip (board.serveSelected need ahead).1
      (board.serveSelected need ahead).2 := by
  have held : heldOn board = (board.issued.selected, board.issued.side) ∧
      board.issued.drives = board.drives := by
    simp only [heldOn, FloppyBoard.latched, FloppyBoard.drive, FloppyBoard.side, issued]
    cases board.inFlight with
    | none => exact ⟨rfl, rfl⟩
    | some place => exact ⟨rfl, rfl⟩
  have located : ∀ track sector, sectorPlace board (heldOn board).1 (heldOn board).2 track sector =
      board.issued.offset track sector := by
    intro track sector
    rw [← offset_eq, held.1]
    simp only [sectorPlace, trackAt_of_drives held.2]
  unfold serveSelected
  cases need with
  | none => exact ⟨rfl, rfl⟩
  | read track sector =>
    simp only [Serves, located]
    cases board.issued.offset track sector with
    | none => exact ⟨rfl, rfl⟩
    | some place =>
      refine ⟨?_, rfl⟩
      rw [held.1]
      cases ahead
      · exact .inl rfl
      · exact .inr rfl
  | write track sector =>
    simp only [Serves, located]
    cases board.issued.offset track sector with
    | none => exact ⟨rfl, rfl⟩
    | some place => exact ⟨by rw [held.1], rfl⟩

/-- The board lets go of the drive and the side once the command is over. -/
theorem serve_serves (board : Cromemco) (need : Need) (ahead : Bool) :
    Serves board (heldOn board) need board.chip (board.serve need ahead).1
      (board.serve need ahead).2 := by
  refine (board.serveSelected_serves need ahead).of_chip ?_
  simp only [serve]
  split <;> rfl

/-- Refreshing tells the chip whether the drive has a disk. -/
theorem refreshFor_ready (board : Cromemco) (command : Bool) :
    (board.refreshFor command).chip.ready = (board.drives board.selected).present := by
  simp only [refreshFor]
  split
  · split <;> rfl
  · rfl

/-- The tracks of a disk are inside the image it was taken for. -/
theorem formats_fit {format : CromemcoFormat} (known : format ∈ CromemcoFormat.formats) {index : Nat}
    (inside : index < format.tracks) :
    format.trackOffset index + (format.trackFormat index).2 * (format.trackFormat index).1 ≤
        format.bytes ∧
      0 < (format.trackFormat index).1 ∧ (format.trackFormat index).2 < 256 := by
  simp only [CromemcoFormat.formats, List.mem_cons, List.not_mem_nil, or_false] at known
  rcases known with rfl | rfl | rfl
  all_goals
    simp only [CromemcoFormat.tracks, cromemcoCylinders, UInt8.reduceToNat] at inside
    simp only [CromemcoFormat.trackOffset, CromemcoFormat.trackFormat, CromemcoFormat.trackBytes,
      sdTrackBytes, ddTrackBytes, sdSectorLen, sdSectors, ddSectorLen, ddSectors]
    cases index with
    | zero => decide
    | succ index =>
      simp only [Nat.succ_ne_zero, if_false, Nat.zero_lt_succ, Bool.false_eq_true, and_false,
        and_true, true_and, if_true, Nat.add_sub_cancel]
      omega

/-- The Cromemco serves its chip exactly. -/
theorem serving : Serving Valid Holds where
  recorded board valid := valid
  input board port reg isReg := by
    obtain ⟨control, aux, rfl⟩ := register_eq isReg
    simp only [Controller.portIn, portIn, if_neg control, if_neg aux]
    exact ⟨rfl, serve_serves { board with chip := (board.chip.read (.of port)).2 } _ _⟩
  output board port value reg isReg other := by
    obtain ⟨control, aux, rfl⟩ := register_eq isReg
    simp only [Controller.portOut, portOut, if_neg control, if_neg aux, if_neg other]
    exact serve_serves { board with chip := (board.chip.write value (.of port)).2 } _ _
  command board port value isReg valid := by
    obtain ⟨control, aux, isCommand⟩ := register_eq isReg
    simp only [Controller.portOut, portOut, if_neg control, if_neg aux, isCommand, if_true,
      Wd1771.write]
    have ready := board.refreshFor_ready true
    obtain ⟨chip, told, ⟨_, _, _, _, _, _, same⟩, -, some, format⟩ := board.refreshFor_spec true
    rw [told] at ready ⊢
    have track : chip.track = board.chip.track := by rw [same]
    refine ⟨chip, track, by rw [same]; rfl, some valid, fun _ holds => ready.trans holds.1, ?_, ?_⟩
    · rw [track]
      exact format rfl
    · generalize chip.command value = out
      have serves := serve_serves { board with
        chip := out.2
        inFlight := if out.2.busy then .some (board.selected, board.aux) else none } out.1 false
      have held : heldOn { board with
          chip := out.2
          inFlight := if out.2.busy then .some (board.selected, board.aux) else none } =
            (board.selected, board.side) := by
        simp only [heldOn, FloppyBoard.latched, FloppyBoard.drive, FloppyBoard.side]
        split <;> rfl
      rw [held] at serves
      exact serves
  fits board drive side track length format holds there := by
    obtain ⟨-, disk, known, isDisk, enough⟩ := holds
    simp only [FloppyBoard.trackAt, isDisk, Option.bind_some] at there
    split_ifs at there with inside
    rw [Option.some.injEq] at there
    subst there
    obtain ⟨fits, room, few⟩ := formats_fit known inside.2
    exact ⟨Nat.le_trans fits enough, room, few⟩
  kept board := by
    have same : ∀ after : Cromemco, after.drives = board.drives → Holds after = Holds board := by
      intro after drives
      funext drive length
      simp only [Holds, drives]
    have refreshed : ∀ (board' : Cromemco) command,
        (board'.refreshFor command).drives = board'.drives := by
      intro board' command
      obtain ⟨_, told, -⟩ := board'.refreshFor_spec command
      rw [told]
    refine ⟨fun port => same _ ?_, fun port value => same _ ?_, fun drive bytes => rfl⟩
    · simp only [Controller.portIn, portIn]
      split
      · rfl
      split
      · rfl
      exact (serve_spec _ _ _).2.2.1
    · simp only [Controller.portOut, portOut]
      split
      · exact refreshed _ _
      split
      · exact refreshed _ _
      refine (serve_spec _ _ _).2.2.1.trans ?_
      by_cases isCommand : Reg.of port = .command
      · simp only [isCommand, if_true]
        exact refreshed _ _
      · simp only [isCommand, if_false]

end Cromemco

/-! ## Both boards -/

/-- A board whose chip has nothing to transfer is ready. -/
theorem ready_of_rest {β : Type} [FloppyBoard β] {Valid : β → Prop} {board : β}
    (valid : Valid board) (busy : (chip board).busy = false)
    (moving : (chip board).moving = .none) : Ready Valid board :=
  ⟨valid, Wd1771.live_of_rest busy moving⟩

/-- Inserting an image the board takes leaves the slots stocked. -/
theorem insert_stocked {β : Type} [FloppyBoard β] {Holds : β → Nat → Nat → Prop}
    (takes : ∀ (board after : β) drive length readOnly,
      Controller.insert board drive length readOnly = some after →
        Holds after drive length ∧ ∀ other size, other ≠ drive → Holds board other size →
          Holds after other size)
    {machine : BootMachine β} (stocked : Stocked Holds machine) (drive : Nat) (image : Mounted) :
    Stocked Holds (machine.insert drive image) := by
  unfold BootMachine.insert
  cases taken : Controller.insert machine.board drive image.length image.readOnly with
  | none => exact stocked
  | some after =>
    obtain ⟨here, others⟩ := takes _ _ _ _ _ taken
    intro slot there isThere
    simp only [BootMachine.setDisk] at isThere ⊢
    by_cases same : slot = drive
    · subst same
      rw [Function.update_self, Option.some.injEq] at isThere
      subst isThere
      exact here
    · rw [Function.update_of_ne same] at isThere
      exact others slot _ same (stocked slot there isThere)

/-- Inserting images the board takes leaves the slots stocked. -/
theorem insertAll_stocked {β : Type} [FloppyBoard β] {Holds : β → Nat → Nat → Prop}
    (takes : ∀ (board after : β) drive length readOnly,
      Controller.insert board drive length readOnly = some after →
        Holds after drive length ∧ ∀ other size, other ≠ drive → Holds board other size →
          Holds after other size)
    {machine : BootMachine β} (stocked : Stocked Holds machine) (images : List (Nat × Mounted)) :
    Stocked Holds (machine.insertAll images) := by
  unfold BootMachine.insertAll
  induction images generalizing machine with
  | nil => exact stocked
  | cons image images ih => exact ih (insert_stocked takes stocked image.1 image.2)

/-- A Tarbell with images in it is ready, and its slots are stocked. -/
theorem tarbellMachine_ready (images : List (Nat × Mounted)) (boot : Option Nat) :
    Ready Tarbell.Valid (tarbellMachine images boot).board ∧
      Stocked Tarbell.Holds (tarbellMachine images boot) := by
  have inserted := @BootMachine.insertAll_board Tarbell _
    (fun board => board.Valid ∧ board.chip.moving = .none ∧ board.chip.busy = false) (by
      intro board drive length readOnly after kept taken
      simp only [Controller.insert, Tarbell.insert] at taken
      split at taken
      · rw [Option.some.injEq] at taken
        subst taken
        split <;> exact kept
      · cases taken) (BootMachine.mk Tarbell.new fun _ => none) ⟨⟨rfl, rfl⟩, rfl, rfl⟩ images
  have stocked := @insertAll_stocked Tarbell _ Tarbell.Holds (by
      intro board after drive length readOnly taken
      simp only [Controller.insert, Tarbell.insert] at taken
      split at taken
      · rename_i accepted
        rw [Option.some.injEq] at taken
        have drives : after.drives = Function.update board.drives drive ⟨true, readOnly⟩ := by
          rw [← taken]
          split <;> rfl
        refine ⟨⟨by rw [drives, Function.update_self], accepted.1⟩, ?_⟩
        intro other size isOther holds
        simp only [Tarbell.Holds, drives, Function.update_of_ne isOther]
        exact holds
      · cases taken) (BootMachine.mk Tarbell.new fun _ => none) (by
        intro _ _ none
        cases none) images
  cases boot with
  | none => exact ⟨ready_of_rest inserted.1 inserted.2.2 inserted.2.1, stocked⟩
  | some drive => exact ⟨ready_of_rest inserted.1 rfl rfl, stocked⟩

/-- A Cromemco with images in it is ready, and its slots are stocked. -/
theorem cromemcoMachine_ready (images : List (Nat × Mounted)) (boot : Option Nat) :
    Ready Cromemco.Valid (cromemcoMachine images boot).board ∧
      Stocked Cromemco.Holds (cromemcoMachine images boot) := by
  have refreshed : ∀ board : Cromemco,
      board.Valid ∧ board.chip.moving = .none ∧ board.chip.busy = false →
      (board.refresh.Valid ∧ board.refresh.chip.moving = .none ∧
        board.refresh.chip.busy = false) ∧ board.refresh.drives = board.drives := by
    rintro board ⟨valid, moving, busy⟩
    obtain ⟨chip, after, ⟨_, _, _, _, _, _, same⟩, -, some, -⟩ := board.refreshFor_spec false
    rw [Cromemco.refresh, after]
    exact ⟨⟨some valid, by rw [same]; exact moving, by rw [same]; exact busy⟩, rfl⟩
  have inserted := @BootMachine.insertAll_board Cromemco _
    (fun board => board.Valid ∧ board.chip.moving = .none ∧ board.chip.busy = false) (by
      intro board drive length readOnly after kept taken
      simp only [Controller.insert, Cromemco.insert, Option.bind_eq_some_iff] at taken
      obtain ⟨format, -, taken⟩ := taken
      split at taken
      · rw [Option.some.injEq] at taken
        subst taken
        split
        · exact (refreshed _ (by exact kept)).1
        · exact kept
      · cases taken) (BootMachine.mk Cromemco.new fun _ => none)
        ⟨Nat.zero_lt_succ _, rfl, rfl⟩ images
  have stocked := @insertAll_stocked Cromemco _ Cromemco.Holds (by
      intro board after drive length readOnly taken
      simp only [Controller.insert, Cromemco.insert, Option.bind_eq_some_iff] at taken
      obtain ⟨format, found, taken⟩ := taken
      split at taken
      · rw [Option.some.injEq] at taken
        have drives : after.drives =
            Function.update board.drives drive ⟨true, readOnly, some format⟩ := by
          rw [← taken]
          split
          · exact (Cromemco.refreshFor_spec _ false).elim fun _ told => by
              rw [Cromemco.refresh, told.1]
          · rfl
        have known := List.mem_of_find?_eq_some found
        have fits := List.find?_some found
        simp only [decide_eq_true_eq] at fits
        refine ⟨⟨by rw [drives, Function.update_self], format, known, ?_, fits.1⟩, ?_⟩
        · rw [drives, Function.update_self]
        · intro other size isOther holds
          simp only [Cromemco.Holds, drives, Function.update_of_ne isOther]
          exact holds
      · cases taken) (BootMachine.mk Cromemco.new fun _ => none) (by
        intro _ _ none
        cases none)
        images
  cases boot with
  | none => exact ⟨ready_of_rest inserted.1 inserted.2.2 inserted.2.1, stocked⟩
  | some drive =>
    obtain ⟨⟨valid, -, -⟩, drives⟩ := refreshed
      { (BootMachine.mk Cromemco.new fun _ => none).insertAll images |>.board with
        selected := min drive (cromemcoDrives - 1), aux := 0x02
        chip := ((BootMachine.mk Cromemco.new fun _ => none).insertAll images).board.chip.setFormat
          sdSectorLen sdSectors }
      ⟨Nat.lt_of_lt_of_le Nat.zero_lt_one (Nat.le_max_left _ _), inserted.2.1, inserted.2.2⟩
    refine ⟨ready_of_rest valid rfl rfl, fun slot image there => ?_⟩
    have holds := stocked slot image there
    show Cromemco.Holds _ slot image.length
    simp only [Cromemco.Holds, cromemcoMachine, Option.elim_some, Cromemco.coldStarted] at holds ⊢
    rw [drives]
    exact holds

/-- No guest of either board is ever left waiting. -/
theorem floppies_never_wait (images : List (Nat × Mounted)) (boot : Option Nat)
    (ops : List PortOp) :
    NeverWaits ((tarbellMachine images boot).accesses ops) ∧
      NeverWaits ((cromemcoMachine images boot).accesses ops) :=
  ⟨ready_neverWaits Tarbell.lawful Tarbell.serving
      (accesses_ready Tarbell.lawful Tarbell.serving (tarbellMachine_ready images boot).1 ops),
    ready_neverWaits Cromemco.lawful Cromemco.serving
      (accesses_ready Cromemco.lawful Cromemco.serving (cromemcoMachine_ready images boot).1 ops)⟩

/-- A guest that begins a multiple-record Read Sector, and writes 0 into the sector register before
it reads: the track comes again, behind the sector it has. -/
theorem sectorRegister_prolongs_read :
    ¬∀ (images : List (Nat × Mounted)) (boot : Option Nat) (port value : UInt8)
      (ops : List PortOp), FloppyBoard.register Tarbell port = some .command →
        (∀ op ∈ ops, NoCommand Tarbell op) →
        (chip (((tarbellMachine images boot).access (.output port value)).accesses ops).board).busy =
          true →
        moved ((tarbellMachine images boot).access (.output port value)) ops <
          (chip ((tarbellMachine images boot).access (.output port value)).board).sectorsPerTrack *
            (chip ((tarbellMachine images boot).access (.output port value)).board).sectorLen := by
  intro bounded
  have start := tarbellMachine_ready [(0, zeroFloppy)] (some 0)
  have owes := @command_owes Tarbell _ _ _ Tarbell.lawful Tarbell.serving zeroFloppy
    ⟨0, fdSectorLen, fdSectorsPerTrack⟩ (tarbellMachine [(0, zeroFloppy)] (some 0)) start.1 0xF8 0x90
    rfl rfl rfl rfl (start.2 0 zeroFloppy rfl) rfl (by decide) (by decide)
  obtain ⟨now, gives, isMulti, -⟩ := owes
  obtain ⟨gives', rewritten⟩ := @sector_gives _ _ _ _ Tarbell.lawful Tarbell.serving _ _ _ _ _ gives
    0xFA 0 rfl
  have sector : now.length = fdSectorLen := by
    rw [gives.now_eq]
    rfl
  have goes := @owes_moved _ _ _ _ Tarbell.lawful Tarbell.serving _ _ _ _ true
    (now ++ zeroFloppy.sectorsFrom ⟨0, fdSectorLen, fdSectorsPerTrack⟩ 1)
    ⟨now, gives', by rw [rewritten]; exact isMulti, by rw [rewritten]; rfl⟩ 0xFB rfl
    (fdSectorsPerTrack * fdSectorLen) (by
      rw [List.length_append, sector, Mounted.sectorsFrom_length]
      decide)
  generalize isRead : List.replicate (fdSectorsPerTrack * fdSectorLen) (PortOp.input 0xFB) = read
    at goes
  have isSector : FloppyBoard.register Tarbell 0xFA = some .sector := rfl
  have begins : ∀ op ∈ PortOp.output 0xFA 0 :: read, NoCommand Tarbell op := by
    intro op member
    rcases List.mem_cons.1 member with rfl | reads
    · rw [NoCommand, isSector]
      decide
    · rw [← isRead] at reads
      rw [List.eq_of_mem_replicate reads]
      trivial
  have quiet : ¬Moves ((tarbellMachine [(0, zeroFloppy)] (some 0)).portOut 0xF8 0x90).board
      (.output 0xFA 0) := by
    rintro ⟨reg, isReg, isData, -⟩
    rw [Option.mem_def, isSector, isData] at isReg
    cases isReg
  have bound := bounded [(0, zeroFloppy)] (some 0) 0xF8 0x90 _ rfl begins
    (by rw [accesses_cons]; exact goes.2)
  simp only [BootMachine.access] at bound
  rw [moved_output quiet, gives.told.1, gives.told.2, goes.1] at bound
  exact absurd bound (by decide)

/-- Every guest of either board reads as it asks. -/
theorem floppies_read_as_asked (images : List (Nat × Mounted)) (boot : Option Nat)
    (ops : List PortOp) :
    ReadsAsAsked ((tarbellMachine images boot).accesses ops) ∧
      ReadsAsAsked ((cromemcoMachine images boot).accesses ops) :=
  ⟨ready_readsAsAsked Tarbell.lawful Tarbell.serving
      (accesses_ready Tarbell.lawful Tarbell.serving (tarbellMachine_ready images boot).1 ops)
      (accesses_stocked Tarbell.lawful Tarbell.serving (tarbellMachine_ready images boot).2 ops),
    ready_readsAsAsked Cromemco.lawful Cromemco.serving
      (accesses_ready Cromemco.lawful Cromemco.serving (cromemcoMachine_ready images boot).1 ops)
      (accesses_stocked Cromemco.lawful Cromemco.serving (cromemcoMachine_ready images boot).2 ops)⟩

end EthernetGateway.Machine
