import EthernetGateway.Machine.FloppyFlight
import EthernetGateway.Machine.Tarbell
import EthernetGateway.Machine.Cromemco

/-!
# The Tarbell and the Cromemco write as asked

Both are floppy boards. What they do not hold is the chip's own track and sector registers, which
it reads again at the last byte of a sector; a guest that changes one of them meanwhile has moved
the sector.
-/

namespace EthernetGateway.Machine

open Wd1771 (Reg)

/-! ## The Tarbell -/

namespace Tarbell

/-- Every disk of the board is of one format. -/
def Valid (board : Tarbell) : Prop :=
  board.chip.sectorLen = fdSectorLen ∧ board.chip.sectorsPerTrack = fdSectorsPerTrack

theorem offset_eq (board : Tarbell) (drive side : Nat) (track sector : UInt8) :
    sectorPlace board drive side track sector =
      (offset track sector).map fun place => (place, fdSectorLen) := by
  simp only [sectorPlace, FloppyBoard.trackAt, TrackFormat.place, offset]
  by_cases beyond : tarbellTracks ≤ track
  · rw [if_pos beyond, if_pos (.inl beyond)]
    rfl
  · rw [if_neg beyond, Option.bind_some]
    by_cases missing : sector = 0 ∨ fdSectorsPerTrack < sector.toNat
    · simp [missing]
    · rw [if_neg missing, if_neg fun either => either.elim beyond missing]
      simp [Nat.add_mul]

/-- What serving a need of the chip comes to. -/
theorem serve_spec (board : Tarbell) (need : Need) (ahead : Bool) :
    Answers board (FloppyBoard.latched board) need board.chip (board.serve need ahead).1
        (board.serve need ahead).2 ∧
      ((board.serve need ahead).2.chip = board.chip ∨
        (board.serve need ahead).2.chip = board.chip.recordMissing) ∧
      (board.chip.busy → (board.serve need ahead).2.inFlight = board.inFlight) := by
  have released : ∀ board' : Tarbell,
      board' = (if board.chip.busy then board else { board with inFlight := none }) →
      board'.chip = board.chip ∧ (board.chip.busy → board'.inFlight = board.inFlight) := by
    rintro board' rfl
    split_ifs with busy
    · exact ⟨rfl, fun _ => rfl⟩
    · exact ⟨rfl, fun yes => absurd yes busy⟩
  simp only [serve]
  generalize same : (if board.chip.busy then board else { board with inFlight := none }) = board'
  obtain ⟨chip, held⟩ := released board' same.symm
  cases need with
  | none => exact ⟨⟨rfl, chip⟩, .inl chip, held⟩
  | read track sector =>
    dsimp only
    cases located : offset track sector with
    | none =>
      exact ⟨.inl ⟨rfl, by rw [← chip]; rfl⟩, .inr (by rw [← chip]), held⟩
    | some place =>
      refine ⟨.inr ⟨⟨board.inFlight.getD board.selected, place, fdSectorLen, ?_⟩, chip⟩, .inl chip,
        held⟩
      cases ahead
      · exact .inl rfl
      · exact .inr rfl
  | write track sector =>
    dsimp only
    cases located : offset track sector with
    | none =>
      refine ⟨fun drive side _ => ?_, .inr (by rw [← chip]), held⟩
      rw [offset_eq, located]
      exact ⟨rfl, by rw [← chip]; rfl⟩
    | some place =>
      refine ⟨fun drive side isHeld => ?_, .inl chip, held⟩
      rw [offset_eq, located]
      have drive_eq : board.inFlight = some drive := by
        simp only [FloppyBoard.latched, Option.map_eq_some_iff, Prod.mk.injEq] at isHeld
        obtain ⟨drive', there, rfl, -⟩ := isHeld
        exact there
      exact ⟨by rw [drive_eq]; rfl, chip⟩

/-- A board that is still busy was, and holds the drive it held. -/
theorem serve_held (board : Tarbell) (need : Need) (ahead : Bool)
    (busy : (board.serve need ahead).2.chip.busy) :
    board.chip.busy ∧ (board.serve need ahead).2.inFlight = board.inFlight := by
  obtain ⟨-, chip | chip, held⟩ := board.serve_spec need ahead
  · rw [chip] at busy
    exact ⟨busy, held busy⟩
  · rw [chip] at busy
    exact absurd busy Bool.false_ne_true

/-- Serving a need leaves the format alone. -/
theorem serve_valid {board : Tarbell} (valid : Valid board) (need : Need) (ahead : Bool) :
    Valid (board.serve need ahead).2 := by
  obtain ⟨-, chip | chip, -⟩ := board.serve_spec need ahead <;> unfold Valid <;> rw [chip] <;>
    exact valid

/-- A chip of the same format is as valid. -/
theorem valid_of_format {board : Tarbell} (valid : Valid board) {next : Wd1771}
    (same : board.chip.SameFormat next) : Valid { board with chip := next } :=
  ⟨same.1.trans valid.1, same.2.trans valid.2⟩

theorem register_eq {port : UInt8} {reg : Reg}
    (isReg : FloppyBoard.register Tarbell port = some reg) : port ≠ 0xFC ∧ Reg.of port = reg := by
  by_cases wait : port = 0xFC
  · simp [FloppyBoard.register, wait] at isReg
  · exact ⟨wait, by simpa [FloppyBoard.register, wait] using isReg⟩

theorem register_eq_none {port : UInt8} (other : FloppyBoard.register Tarbell port = none) :
    port = 0xFC := by
  by_contra reg
  simp [FloppyBoard.register, reg] at other

/-- The Tarbell is a floppy board. -/
theorem lawful : Lawful Valid where
  loaded board drive bytes valid := ⟨valid, rfl, rfl, rfl⟩
  buffer board drive := rfl
  ahead board port drive place len := by
    simp only [Controller.portIn, portIn]
    split
    · simp
    · simp only [serve]
      split
      · simp
      · split <;> simp
      · split <;> simp
  inputOther board port other := by
    simp only [Controller.portIn, portIn, register_eq_none other, if_true]
    exact ⟨trivial, trivial⟩
  input board port reg isReg valid := by
    obtain ⟨other, rfl⟩ := register_eq isReg
    simp only [Controller.portIn, portIn, if_neg other]
    exact ⟨(serve_spec _ _ _).1, serve_valid (valid_of_format valid (Wd1771.read_format _ _)) _ _, rfl,
      fun busy => congrArg (Option.map fun drive => (drive, 0)) (serve_held _ _ _ busy).2⟩
  outputOther board port value other valid := by
    simp only [Controller.portOut, portOut, register_eq_none other, if_true]
    refine ⟨trivial, ?_⟩
    split
    · exact ⟨valid, ⟨⟨_, _, _, _, _, _, rfl⟩, fun _ => ⟨rfl, rfl⟩⟩, rfl, rfl⟩
    · exact ⟨valid, ⟨⟨_, _, _, _, _, _, rfl⟩, fun _ => ⟨rfl, rfl⟩⟩, rfl, rfl⟩
  output board port value reg isReg other valid := by
    obtain ⟨wait, rfl⟩ := register_eq isReg
    simp only [Controller.portOut, portOut, if_neg wait, if_neg other]
    exact ⟨(serve_spec _ _ _).1, serve_valid (valid_of_format valid (Wd1771.write_format _ _ _)) _ _,
      rfl, fun busy => congrArg (Option.map fun drive => (drive, 0)) (serve_held _ _ _ busy).2⟩
  command board port value isReg valid := by
    obtain ⟨wait, isCommand⟩ := register_eq isReg
    simp only [Controller.portOut, portOut, if_neg wait, isCommand, if_true, Wd1771.write]
    refine ⟨board.refreshDrive.chip, rfl, rfl, ?_, ?_, ?_⟩
    · exact valid.1 ▸ (by decide : 0 < fdSectorLen)
    · intro format there
      simp only [FloppyBoard.trackAt] at there
      split_ifs at there
      rw [Option.some.injEq] at there
      subst there
      exact valid
    · have format := Wd1771.command_format board.refreshDrive.chip value
      generalize board.refreshDrive.chip.command value = out at *
      have valid' : Valid { board.refreshDrive with chip := out.2 } :=
        ⟨format.1.trans valid.1, format.2.trans valid.2⟩
      refine ⟨⟨_, (serve_spec _ _ _).1⟩, serve_valid (by exact valid') _ _, rfl, fun busy => ?_⟩
      obtain ⟨issued, held⟩ := serve_held _ _ _ busy
      exact congrArg (Option.map fun drive => (drive, 0)) (held.trans (if_pos issued))

end Tarbell

/-! ## The Cromemco -/

namespace Cromemco

/-- The chip has been told of some format. -/
def Valid (board : Cromemco) : Prop := 0 < board.chip.sectorLen

/-- The offset of a sector is its place, on the drive and the side selected. -/
theorem offset_eq (board : Cromemco) (track sector : UInt8) :
    sectorPlace board board.selected board.side track sector = board.offset track sector := by
  simp only [sectorPlace, FloppyBoard.trackAt, TrackFormat.place, offset, trackIndex, format]
  cases (board.drives board.selected).format with
  | none => rfl
  | some format =>
    simp only [Option.bind_some]
    split_ifs with inside
    · simp only [Option.bind_some]
      by_cases missing : sector = 0 ∨
          (format.trackFormat (track.toNat * format.sides + board.side)).2 < sector.toNat
      · simp [missing]
      · simp [missing]
    · rfl

/-- What serving a need of the chip comes to, with what was selected when it was issued. -/
theorem serveSelected_spec (board : Cromemco) (need : Need) (ahead : Bool) :
    Answers board (FloppyBoard.latched board) need board.chip (board.serveSelected need ahead).1
        (board.serveSelected need ahead).2 ∧
      ∃ chip, (board.serveSelected need ahead).2 = { board with chip } ∧
        (chip = board.chip ∨ chip = board.chip.recordMissing) := by
  unfold serveSelected
  cases need with
  | none => exact ⟨⟨rfl, rfl⟩, _, rfl, .inl rfl⟩
  | read track sector =>
    dsimp only
    cases board.issued.offset track sector with
    | none => exact ⟨.inl ⟨rfl, rfl⟩, _, rfl, .inr rfl⟩
    | some place =>
      refine ⟨.inr ⟨⟨board.issued.selected, place.1, place.2, ?_⟩, rfl⟩, _, rfl, .inl rfl⟩
      cases ahead
      · exact .inl rfl
      · exact .inr rfl
  | write track sector =>
    dsimp only
    have located : ∀ drive side, FloppyBoard.latched board = some (drive, side) →
        board.issued.selected = drive ∧
          sectorPlace board drive side track sector = board.issued.offset track sector := by
      intro drive side held
      simp only [FloppyBoard.latched, Option.map_eq_some_iff, Prod.mk.injEq] at held
      obtain ⟨⟨drive', aux⟩, inFlight, rfl, rfl⟩ := held
      have issued : board.issued = { board with selected := drive', aux } := by
        simp only [Cromemco.issued, inFlight]
      refine ⟨by rw [issued], ?_⟩
      rw [issued, ← offset_eq]
      rfl
    cases found : board.issued.offset track sector with
    | none =>
      refine ⟨fun drive side held => ?_, _, rfl, .inr rfl⟩
      rw [(located drive side held).2, found]
      exact ⟨rfl, rfl⟩
    | some place =>
      refine ⟨fun drive side held => ?_, _, rfl, .inl rfl⟩
      rw [(located drive side held).2, found]
      exact ⟨by rw [(located drive side held).1], rfl⟩

theorem serve_spec (board : Cromemco) (need : Need) (ahead : Bool) :
    Answers board (FloppyBoard.latched board) need board.chip (board.serve need ahead).1
        (board.serve need ahead).2 ∧
      ((board.serve need ahead).2.chip = board.chip ∨
        (board.serve need ahead).2.chip = board.chip.recordMissing) ∧
      (board.serve need ahead).2.drives = board.drives ∧
      ((board.serve need ahead).2.chip.busy →
        board.chip.busy ∧ (board.serve need ahead).2.inFlight = board.inFlight) := by
  obtain ⟨answers, chip, same, which⟩ := board.serveSelected_spec need ahead
  have after : (board.serve need ahead).1 = (board.serveSelected need ahead).1 ∧
      (board.serve need ahead).2 =
        if chip.busy then { board with chip } else { board with chip, inFlight := none } := by
    simp only [serve, same]
    exact ⟨trivial, trivial⟩
  rw [after.1, after.2]
  refine ⟨answers.of_chip ?_, ?_, ?_, ?_⟩
  · rw [same]
    split <;> rfl
  · split <;> exact which
  · split <;> rfl
  · split_ifs with busy
    · refine fun _ => ⟨?_, rfl⟩
      rcases which with rfl | rfl
      · exact busy
      · exact absurd busy Bool.false_ne_true
    · exact fun yes => absurd yes busy

theorem register_eq {port : UInt8} {reg : Reg}
    (isReg : FloppyBoard.register Cromemco port = some reg) :
    port ≠ 0x34 ∧ port ≠ 0x04 ∧ Reg.of port = reg := by
  by_cases own : port = 0x34 ∨ port = 0x04
  · simp [FloppyBoard.register, own] at isReg
  · exact ⟨fun is => own (.inl is), fun is => own (.inr is),
      by simpa [FloppyBoard.register, own] using isReg⟩

theorem register_eq_none {port : UInt8} (other : FloppyBoard.register Cromemco port = none) :
    port = 0x34 ∨ port = 0x04 := by
  by_contra reg
  simp [FloppyBoard.register, reg] at other

/-- Serving a need leaves the format alone. -/
theorem serve_valid {board : Cromemco} (valid : Valid board) (need : Need) (ahead : Bool) :
    Valid (board.serve need ahead).2 := by
  obtain ⟨-, chip | chip, -⟩ := board.serve_spec need ahead <;> unfold Valid <;> rw [chip] <;>
    exact valid

/-- The tracks of a board are those of the disks in its drives. -/
theorem trackAt_of_drives {board after : Cromemco} (same : after.drives = board.drives) :
    FloppyBoard.trackAt after = FloppyBoard.trackAt board := by
  funext drive side track
  simp only [FloppyBoard.trackAt, same]

/-- The board holds a drive and a side for as long as it holds the command. -/
theorem latched_of_inFlight {board after : Cromemco} (drives : after.drives = board.drives)
    (held : after.inFlight = board.inFlight) :
    FloppyBoard.latched after = FloppyBoard.latched board := by
  simp only [FloppyBoard.latched, held]
  refine congrArg (fun f => board.inFlight.map f) (funext fun issued => ?_)
  simp only [side, format, drives]

/-- The chip takes every format of the board as it is told. -/
theorem setFormat_trackFormat (chip : Wd1771) (format : CromemcoFormat) (index : Nat) :
    (chip.setFormat (format.trackFormat index).1 (format.trackFormat index).2).sectorLen =
        (format.trackFormat index).1 ∧
      (chip.setFormat (format.trackFormat index).1 (format.trackFormat index).2).sectorsPerTrack =
        (format.trackFormat index).2 := by
  unfold CromemcoFormat.trackFormat
  split <;> exact ⟨rfl, rfl⟩

/-- Refreshing tells the chip, and changes nothing else. -/
theorem refreshFor_spec (board : Cromemco) (command : Bool) :
    ∃ chip, board.refreshFor command = { board with chip } ∧
      (∃ ready readOnly tracks side sectorLen sectorsPerTrack,
        chip = { board.chip with ready, readOnly, tracks, side, sectorLen, sectorsPerTrack }) ∧
      (command = false → board.chip.busy →
        chip.sectorLen = board.chip.sectorLen ∧
          chip.sectorsPerTrack = board.chip.sectorsPerTrack) ∧
      (Valid board → 0 < chip.sectorLen) ∧
      (command = true → ∀ format,
        FloppyBoard.trackAt board board.selected board.side board.chip.track = some format →
        chip.sectorLen = format.len ∧ chip.sectorsPerTrack = format.count) := by
  simp only [refreshFor]
  cases there : (board.drives board.selected).format with
  | none =>
    refine ⟨_, rfl, ⟨_, _, _, _, _, _, rfl⟩, fun _ _ => ⟨rfl, rfl⟩, fun valid => valid, ?_⟩
    intro _ format isFormat
    simp [FloppyBoard.trackAt, there] at isFormat
  | some format =>
    dsimp only
    split_ifs with asked
    · refine ⟨_, rfl, ⟨_, _, _, _, _, _, rfl⟩, fun refresh busy => ?_, fun _ => ?_, ?_⟩
      · exact (asked.elim (fun yes => absurd (refresh.symm.trans yes) Bool.false_ne_true)
          fun idle => idle busy).elim
      · exact Nat.lt_of_lt_of_le Nat.zero_lt_one (Nat.le_max_left _ _)
      · intro _ track isTrack
        simp only [FloppyBoard.trackAt, there, Option.bind_some] at isTrack
        split_ifs at isTrack with inside
        rw [Option.some.injEq] at isTrack
        subst isTrack
        have index : board.trackIndex board.chip.track =
            some (board.chip.track.toNat * format.sides + board.side) := by
          simp only [trackIndex, Cromemco.format, there, Option.bind_some, if_pos inside]
        have same : ((board.chip.setDrive (board.drives board.selected).present
            (board.drives board.selected).readOnly cromemcoCylinders).setSide
              (.ofNat board.side)).track = board.chip.track := rfl
        rw [same, index]
        exact setFormat_trackFormat _ format _
    · exact ⟨_, rfl, ⟨_, _, _, _, _, _, rfl⟩, fun _ _ => ⟨rfl, rfl⟩, fun valid => valid,
        fun yes => absurd (.inl yes) asked⟩

/-- The Cromemco is a floppy board. -/
theorem lawful : Lawful Valid where
  loaded board drive bytes valid := ⟨valid, rfl, rfl, rfl⟩
  buffer board drive := rfl
  ahead board port drive place len := by
    simp only [Controller.portIn, portIn]
    split
    · simp
    split
    · simp
    simp only [serve, serveSelected]
    split
    · simp
    · split <;> simp
    · split <;> simp
  inputOther board port other := by
    rcases register_eq_none other with rfl | rfl
    · exact ⟨rfl, rfl⟩
    · exact ⟨rfl, rfl⟩
  input board port reg isReg valid := by
    obtain ⟨control, aux, rfl⟩ := register_eq isReg
    simp only [Controller.portIn, portIn, if_neg control, if_neg aux]
    have valid' : Valid { board with chip := (board.chip.read (.of port)).2 } :=
      Nat.lt_of_lt_of_eq valid (Wd1771.read_format _ _).1.symm
    obtain ⟨answers, -, drives, held⟩ :=
      { board with chip := (board.chip.read (.of port)).2 }.serve_spec
        (board.chip.read (.of port)).1.2 true
    exact ⟨answers, serve_valid valid' _ _, trackAt_of_drives drives,
      fun busy => latched_of_inFlight drives (held busy).2⟩
  outputOther board port value other valid := by
    simp only [Controller.portOut, portOut]
    rcases register_eq_none other with rfl | rfl
    · rw [if_pos rfl]
      obtain ⟨chip, after, same, busy, some, -⟩ :=
        { board with control := value, selected := (selects value).getD board.selected }.refreshFor_spec
          false
      rw [refresh, after]
      exact ⟨rfl, some valid, ⟨same, busy rfl⟩, trackAt_of_drives rfl, latched_of_inFlight rfl rfl⟩
    · rw [if_neg (by decide), if_pos rfl]
      obtain ⟨chip, after, same, busy, some, -⟩ := { board with aux := value }.refreshFor_spec false
      rw [refresh, after]
      exact ⟨rfl, some valid, ⟨same, busy rfl⟩, trackAt_of_drives rfl, latched_of_inFlight rfl rfl⟩
  output board port value reg isReg other valid := by
    obtain ⟨control, aux, rfl⟩ := register_eq isReg
    simp only [Controller.portOut, portOut, if_neg control, if_neg aux, if_neg other]
    have valid' : Valid { board with chip := (board.chip.write value (.of port)).2 } :=
      Nat.lt_of_lt_of_eq valid (Wd1771.write_format _ _ _).1.symm
    obtain ⟨answers, -, drives, held⟩ :=
      { board with chip := (board.chip.write value (.of port)).2 }.serve_spec
        (board.chip.write value (.of port)).1 false
    exact ⟨answers, serve_valid valid' _ _, trackAt_of_drives drives,
      fun busy => latched_of_inFlight drives (held busy).2⟩
  command board port value isReg valid := by
    obtain ⟨control, aux, isCommand⟩ := register_eq isReg
    simp only [Controller.portOut, portOut, if_neg control, if_neg aux, isCommand, if_true,
      Wd1771.write]
    obtain ⟨chip, told, ⟨_, _, _, _, _, _, same⟩, -, some, format⟩ := board.refreshFor_spec true
    rw [told]
    refine ⟨chip, by rw [same]; rfl, by rw [same]; rfl, some valid, ?_, ?_⟩
    · have track : chip.track = board.chip.track := by rw [same]
      rw [track]
      exact format rfl
    · have kept := Wd1771.command_format chip value
      generalize chip.command value = out at *
      obtain ⟨answers, -, drives, held⟩ :=
        { board with
          chip := out.2
          inFlight := if out.2.busy then .some (board.selected, board.aux) else none }.serve_spec
            out.1 false
      refine ⟨⟨_, answers⟩, serve_valid (Nat.lt_of_lt_of_eq (some valid) kept.1.symm) _ _,
        trackAt_of_drives drives, fun busy => ?_⟩
      obtain ⟨issued, inFlight⟩ := held busy
      rw [latched_of_inFlight drives inFlight]
      simp only [FloppyBoard.latched]
      rw [if_pos issued]
      rfl

end Cromemco

/-! ## Both boards -/

theorem tarbellMachine_follows (images : List (Nat × Mounted)) (boot : Option Nat) :
    Follows Tarbell.Valid (tarbellMachine images boot).board none := by
  have fresh : ∀ board : Tarbell, board.Valid ∧ board.chip.moving = .none →
      Follows Tarbell.Valid board none := by
    rintro board ⟨valid, moving⟩
    obtain ⟨idle, sound⟩ := Wd1771.sound_of_none moving
    exact follows_of_rest valid sound idle none
  refine fresh _ ?_
  have inserted := @BootMachine.insertAll_board Tarbell _
    (fun board => board.Valid ∧ board.chip.moving = .none) (by
      intro board drive length readOnly after kept taken
      simp only [Controller.insert, Tarbell.insert] at taken
      split at taken
      · rw [Option.some.injEq] at taken
        subst taken
        split <;> exact kept
      · cases taken) (BootMachine.mk Tarbell.new fun _ => none) ⟨⟨rfl, rfl⟩, rfl⟩ images
  cases boot with
  | none => exact inserted
  | some drive => exact ⟨inserted.1, rfl⟩

theorem cromemcoMachine_follows (images : List (Nat × Mounted)) (boot : Option Nat) :
    Follows Cromemco.Valid (cromemcoMachine images boot).board none := by
  have fresh : ∀ board : Cromemco, board.Valid ∧ board.chip.moving = .none →
      Follows Cromemco.Valid board none := by
    rintro board ⟨valid, moving⟩
    obtain ⟨idle, sound⟩ := Wd1771.sound_of_none moving
    exact follows_of_rest valid sound idle none
  have refreshed : ∀ board : Cromemco, board.Valid ∧ board.chip.moving = .none →
      board.refresh.Valid ∧ board.refresh.chip.moving = .none := by
    rintro board ⟨valid, moving⟩
    obtain ⟨chip, after, ⟨_, _, _, _, _, _, same⟩, -, some, -⟩ := board.refreshFor_spec false
    rw [Cromemco.refresh, after]
    exact ⟨some valid, by rw [same]; exact moving⟩
  refine fresh _ ?_
  have inserted := @BootMachine.insertAll_board Cromemco _
    (fun board => board.Valid ∧ board.chip.moving = .none) (by
      intro board drive length readOnly after kept taken
      simp only [Controller.insert, Cromemco.insert, Option.bind_eq_some_iff] at taken
      obtain ⟨format, -, taken⟩ := taken
      split at taken
      · rw [Option.some.injEq] at taken
        subst taken
        split
        · exact refreshed _ kept
        · exact kept
      · cases taken) (BootMachine.mk Cromemco.new fun _ => none) ⟨Nat.zero_lt_succ _, rfl⟩ images
  cases boot with
  | none => exact inserted
  | some drive =>
    refine ⟨(refreshed _ ⟨?_, ?_⟩).1, rfl⟩
    · exact Nat.lt_of_lt_of_le Nat.zero_lt_one (Nat.le_max_left _ _)
    · exact inserted.2

/-- Over every run on either board in which a byte that completes a sector finds the track and
sector registers as they were, what is written is written as asked. -/
theorem floppies_write_as_asked (images : List (Nat × Mounted)) (boot : Option Nat)
    (ops : List PortOp) :
    (HoldsRegisters (tarbellMachine images boot) none ops →
        WritesAsAsked (tarbellMachine images boot) none ops) ∧
      (HoldsRegisters (cromemcoMachine images boot) none ops →
        WritesAsAsked (cromemcoMachine images boot) none ops) :=
  ⟨run_written Tarbell.lawful (tarbellMachine_follows images boot),
    run_written Cromemco.lawful (cromemcoMachine_follows images boot)⟩

/-- A single-density disk of zeros. -/
def zeroFloppy : Mounted := ⟨tarbellImageLen, fun _ => 0, false, false⟩

/-- A guest that writes sector 1 of track 0, on the one board and on the other. -/
theorem floppies_write_as_asked_sector :
    WritesAsAsked (tarbellMachine [(0, zeroFloppy)] (some 0)) none
        (.output 0xF8 0xA8 :: List.replicate 128 (.output 0xFB 7)) ∧
      WritesAsAsked (cromemcoMachine [(0, zeroFloppy)] (some 0)) none
        (.output 0x30 0xA8 :: List.replicate 128 (.output 0x33 7)) :=
  ⟨(floppies_write_as_asked _ _ _).1 (by decide +kernel),
    (floppies_write_as_asked _ _ _).2 (by decide +kernel)⟩

/-- A machine, with the sector in flight, after some of a run. -/
def ahead {β : Type} [FloppyBoard β] (machine : BootMachine β) (flight : Option Flight) :
    List PortOp → BootMachine β × Option Flight
  | [] => (machine, flight)
  | op :: ops => ahead (machine.access op) (Flight.next machine.board flight op) ops

theorem writesAsAsked_last {β : Type} [FloppyBoard β] {machine : BootMachine β}
    {flight : Option Flight} {before : List PortOp} {op : PortOp}
    (written : WritesAsAsked machine flight (before ++ [op])) :
    WrittenAsAsked (ahead machine flight before).1 (ahead machine flight before).2 op := by
  induction before generalizing machine flight with
  | nil => exact written.1
  | cons first before ih => exact ih written.2

/-- A guest that begins a Write Sector on track 0, and writes 5 into the track register before its
bytes: they are written to track 5. -/
theorem trackRegister_moves_write :
    ¬WritesAsAsked (tarbellMachine [(0, zeroFloppy)] (some 0)) none
      ((.output 0xF8 0xA8 :: .output 0xF9 5 :: List.replicate 127 (.output 0xFB 7)) ++
        [.output 0xFB 7]) := by
  intro written
  have last := writesAsAsked_last written
  generalize state_eq : ahead (tarbellMachine [(0, zeroFloppy)] (some 0)) none
    (.output 0xF8 0xA8 :: .output 0xF9 5 :: List.replicate 127 (.output 0xFB 7)) = state at last
  have flight : state.2 = some ⟨0, 0, 0, 1, false, List.replicate 127 7⟩ := by
    rw [← state_eq]
    decide +kernel
  have before : (state.1.disks 0).map (fun image => image.bytes 16640) = some 0 := by
    rw [← state_eq]
    decide +kernel
  have after : ((state.1.access (.output 0xFB 7)).disks 0).map (fun image => image.bytes 16640) =
      some 7 := by
    rw [← state_eq]
    decide +kernel
  rcases last with same | ⟨asked, format, place, port, byte, image, inFlight, is, -, isFormat,
    located, -, slot, -, put⟩
  · rw [same, before] at after
    exact absurd after (by decide)
  · rw [flight, Option.some.injEq] at inFlight
    subst inFlight
    obtain rfl : format = ⟨0, 128, 26⟩ := (Option.some.inj isFormat).symm
    obtain rfl : place = 0 := (Option.some.inj located).symm
    simp only [PortOp.output.injEq] at is
    obtain ⟨rfl, rfl⟩ := is
    simp only at slot put
    rw [put, Function.update_self, Option.map_some, Mounted.put_outside] at after
    · rw [slot, Option.map_some, after] at before
      exact absurd before (by decide)
    · simp

end EthernetGateway.Machine
