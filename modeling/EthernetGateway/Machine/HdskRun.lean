import EthernetGateway.Machine.HdskCommands

/-!
# The 88-HDSK over a run

A step does to the board what it does to the disk, so a run does; and over a run each sector holds
what the last command to change it put there. A machine with platters inserted is idle, and so a
disk to every guest that sends whole commands and leaves no byte of a Read Status behind.
-/

namespace EthernetGateway.Machine

open Hdsk (Command unitOf platterOf sideOf sectorOf bufferOf)

/-! ## A step and a run -/

/-- The low byte of a command is the low byte of its word. -/
theorem word_low (high : UInt8) : GuestOp.word high 0 % 2 ^ 8 = 0 := by
  simp [GuestOp.word]

/-- A guest that asks for a buffer is given a whole one. -/
theorem perform_readBuffer {machine : BootMachine Hdsk} (idle : Idle machine) {high low : UInt8}
    {data : HdskSector} (is : Command.of (GuestOp.word high low) = .readBuffer) :
    perform machine (.command high low data) =
      readMany hdskSectorLen (sent machine low (GuestOp.word high low)) := by
  simp only [perform, portOut_portOut idle]
  rw [is]

/-- What a guest does comes to what it does to the disk. -/
theorem perform_refined {machine : BootMachine Hdsk} (idle : Idle machine) {op : GuestOp}
    (whole : op.Whole) (orderly : op.ReadsBuffer → machine.board.statusByte = none) :
    Refined machine (perform machine op).2 ((disk machine).step machine.board.drives op)
      ((disk machine).Changes machine.board.drives op) := by
  cases op with
  | poll port => exact poll_refined idle port
  | command high low data =>
    simp only [perform, portOut_portOut idle, Datakeeper.step]
    cases is : Command.of (GuestOp.word high low) with
    | seek => exact seek_refined idle low data is
    | readSector => exact readSector_refined idle low data (.inl is)
    | readUnformatted => exact readSector_refined idle low data (.inr is)
    | writeSector => exact writeSector_refined idle low data is
    | readBuffer =>
      obtain rfl := whole (.inl is)
      dsimp only
      exact (readBuffer_refined idle 0 data is (word_low high) (orderly is)).2
    | writeBuffer =>
      obtain rfl := whole (.inr is)
      dsimp only
      exact writeBuffer_refined idle 0 data is (word_low high)
    | readStatus => exact readStatus_refined idle low data is
    | setByte => exact setByte_refined idle low data is
    | format => exact format_refined idle low data is
    | initialise => exact initialise_refined idle low data is

/-- A run comes to the run of the disk. -/
theorem runOps_refined {machine : BootMachine Hdsk} (idle : Idle machine) {ops : List GuestOp}
    (whole : ∀ op ∈ ops, op.Whole) (orderly : Orderly machine ops) :
    Idle (runOps machine ops) ∧ (runOps machine ops).board.drives = machine.board.drives ∧
      disk (runOps machine ops) = (disk machine).run machine.board.drives ops := by
  induction ops generalizing machine with
  | nil => exact ⟨idle, rfl, rfl⟩
  | cons op ops ih =>
    obtain ⟨first, rest⟩ := orderly
    have step := perform_refined idle (whole op List.mem_cons_self) first
    obtain ⟨idle', drives, run⟩ :=
      ih step.idle (fun op member => whole op (List.mem_cons_of_mem _ member)) rest
    refine ⟨idle', drives.trans step.drives, ?_⟩
    rw [step.drives, step.disk] at run
    exact run

theorem runOps_append (machine : BootMachine Hdsk) (before after : List GuestOp) :
    runOps machine (before ++ after) = runOps (runOps machine before) after :=
  List.foldl_append

theorem orderly_append {machine : BootMachine Hdsk} {before after : List GuestOp} :
    Orderly machine (before ++ after) ↔
      Orderly machine before ∧ Orderly (runOps machine before) after := by
  induction before generalizing machine with
  | nil => simp [Orderly, runOps]
  | cons op before ih =>
    simp only [List.cons_append, Orderly, ih, and_assoc]
    rfl

/-! ## The sectors of a disk -/

section Sectors

variable {drives : HdskDrives} {start : Datakeeper} {address : HdskAddress}

/-- A sector changes only where a step may change it, and then holds what the step puts. -/
theorem command_surface (start : Datakeeper) (word : Nat) (data : HdskSector)
    (address : HdskAddress) :
    (start.Touches drives word address →
        (start.command drives word data).surface address = start.puts word) ∧
      (¬start.Touches drives word address →
        (start.command drives word data).surface address = start.surface address) := by
  unfold Datakeeper.command Datakeeper.Touches Datakeeper.puts
  cases is : Command.of word with
  | writeSector =>
    cases there : start.addressed drives word with
    | none => simp
    | some found =>
      by_cases writable : drives (unitOf word) (platterOf word) = some false
      · by_cases same : address = found
        · subst same
          simp [writable]
        · simp [writable, same, Ne.symm same]
      · simp [writable]
  | format =>
    by_cases writable : drives (unitOf word) (platterOf word) = some false
    · simp only [writable, if_true, true_and, reduceCtorEq, false_and, false_or, if_false]
      exact ⟨fun on => if_pos on, fun off => if_neg off⟩
    · simp [writable]
  | seek | setByte => simp [apply_ite Datakeeper.surface]
  | readSector => cases start.addressed drives word <;> simp
  | readUnformatted => cases start.addressed drives word <;> simp
  | readBuffer | writeBuffer | readStatus | initialise => simp

/-- A sector the run spares holds what it held. -/
theorem run_surface {ops : List GuestOp} (spared : start.Spares drives ops address) :
    (start.run drives ops).surface address = start.surface address := by
  induction ops generalizing start with
  | nil => rfl
  | cons op ops ih =>
    refine (ih spared.2).trans ?_
    cases op with
    | poll port => rfl
    | command high low data => exact (command_surface start _ data address).2 spared.1

end Sectors

/-! ## A machine with platters inserted -/

/-- Inserting a platter leaves the machine idle. -/
theorem insert_idle {machine : BootMachine Hdsk} (idle : Idle machine) (drive : Nat)
    (image : Mounted) : Idle (machine.insert drive image) := by
  simp only [BootMachine.insert, Controller.insert, Hdsk.insert]
  by_cases accepted : hdskImageLen ≤ image.length ∧
      image.length - hdskImageLen ≤ hdskSectorLen - 1 ∧ drive / hdskPlatters < hdskUnits
  · rw [dif_pos accepted]
    simp only [BootMachine.setDisk]
    refine { loaded := fun unit platter present => ?_, heads := idle.heads
             transfer := idle.transfer, ivPending := idle.ivPending }
    have p : platter.val < 4 := platter.isLt
    by_cases here : unit.val = drive / hdskPlatters ∧ platter.val = drive % hdskPlatters
    · have slot : unit.val * hdskPlatters + platter.val = drive := by
        simp only [hdskPlatters] at here ⊢
        omega
      obtain ⟨rfl, rfl⟩ : unit = ⟨drive / hdskPlatters, accepted.2.2⟩ ∧
          platter = ⟨drive % hdskPlatters, Nat.mod_lt _ (by decide)⟩ :=
        ⟨Fin.ext here.1, Fin.ext here.2⟩
      rw [slot]
      simp only [Function.update_self, true_and]
      exact ⟨_, rfl, accepted.1, rfl⟩
    · have other : unit.val * hdskPlatters + platter.val ≠ drive := by
        simp only [hdskPlatters] at here ⊢
        omega
      have alike : Function.update machine.board.platters ⟨drive / hdskPlatters, accepted.2.2⟩
          (Function.update (machine.board.platters ⟨drive / hdskPlatters, accepted.2.2⟩)
            ⟨drive % hdskPlatters, Nat.mod_lt _ (by decide)⟩ ⟨true, image.readOnly, drive⟩)
          unit platter = machine.board.platters unit platter := by
        by_cases drive' : unit = ⟨drive / hdskPlatters, accepted.2.2⟩
        · subst drive'
          rw [Function.update_self, Function.update_of_ne]
          exact fun same => here ⟨rfl, congrArg Fin.val same⟩
        · rw [Function.update_of_ne drive']
      simp only [alike] at present ⊢
      rw [Function.update_of_ne other]
      exact idle.loaded unit platter present
  · rw [dif_neg accepted]
    exact idle

/-- A machine with platters inserted is idle. -/
theorem hdskMachine_idle (images : List (Nat × Mounted)) : Idle (hdskMachine images) := by
  unfold hdskMachine BootMachine.insertAll
  have empty : Idle ⟨Hdsk.new, fun _ => none⟩ :=
    { loaded := fun _ _ present => absurd present Bool.false_ne_true
      heads := fun _ => Nat.zero_lt_succ _, transfer := rfl, ivPending := rfl }
  induction images using List.reverseRecOn with
  | nil => exact empty
  | append_singleton images image ih =>
    rw [List.foldl_append]
    exact insert_idle ih _ _

/-! ## What a guest can rely on -/

/-- A buffer nothing loads stays as it was. -/
theorem run_buffer {drives : HdskDrives} {start : Datakeeper} {ops : List GuestOp}
    {buffer : Fin 4} (keeps : ∀ op ∈ ops, op.Keeps buffer) :
    (start.run drives ops).buffers buffer = start.buffers buffer := by
  induction ops generalizing start with
  | nil => rfl
  | cons op ops ih =>
    refine (ih fun op member => keeps op (List.mem_cons_of_mem _ member)).trans ?_
    cases op with
    | poll port => rfl
    | command high low data =>
      have kept : Command.of (GuestOp.word high low) = .readSector ∨
          Command.of (GuestOp.word high low) = .readUnformatted ∨
            Command.of (GuestOp.word high low) = .writeBuffer →
          buffer ≠ bufferOf (GuestOp.word high low) :=
        fun loads => (keeps _ List.mem_cons_self loads).symm
      simp only [Datakeeper.step, Datakeeper.command]
      cases is : Command.of (GuestOp.word high low) with
      | readSector | readUnformatted =>
        have other := kept (by simp [is])
        cases start.addressed drives (GuestOp.word high low) with
        | none => rfl
        | some address => simp [other]
      | writeBuffer => simp [kept (by simp [is])]
      | writeSector =>
        cases start.addressed drives (GuestOp.word high low) with
        | none => rfl
        | some address => simp [apply_ite Datakeeper.buffers]
      | seek | setByte | format => simp [apply_ite Datakeeper.buffers]
      | readBuffer | readStatus | initialise => rfl

/-- Whatever platters are inserted, the board is a disk over every orderly run of whole
commands. -/
theorem hdskMachine_served (images : List (Nat × Mounted)) (ops : List GuestOp)
    (whole : ∀ op ∈ ops, op.Whole) (orderly : Orderly (hdskMachine images) ops) :
    Served (hdskMachine images) ops := by
  have idle := hdskMachine_idle images
  -- What holds after the first steps of the run.
  have reached : ∀ {before after : List GuestOp}, ops = before ++ after →
      (Idle (runOps (hdskMachine images) before) ∧
        (runOps (hdskMachine images) before).board.drives = (hdskMachine images).board.drives ∧
        disk (runOps (hdskMachine images) before) =
          (disk (hdskMachine images)).run (hdskMachine images).board.drives before) ∧
      Orderly (runOps (hdskMachine images) before) after := by
    rintro before after rfl
    obtain ⟨first, rest⟩ := orderly_append.1 orderly
    exact ⟨runOps_refined idle (fun op member => whole op (List.mem_append_left _ member)) first,
      rest⟩
  constructor
  · intro before between after high low data high' data' address split reads gets same keeps held
      found
    obtain ⟨⟨idle', drives', disk'⟩, rest⟩ :=
      @reached (before ++ .command high low data :: between) (.command high' 0 data' :: after)
        (by rw [split])
    have buffer := (@readBuffer_refined _ idle' 0 _ data' (fun _ => False) gets
      (word_low high') (rest.1 gets)).1
    rw [perform_readBuffer idle' gets, buffer, disk', same, Datakeeper.run, List.foldl_append, List.foldl_cons]
    rw [← Datakeeper.run, ← Datakeeper.run, run_buffer keeps]
    refine congrArg List.ofFn ?_
    rcases reads with is | is
    all_goals
      simp only [Datakeeper.step, Datakeeper.command, is]
      rw [found]
      exact Function.update_self ..
  · intro before after address _ spared
    exact run_surface spared
  · intro before since after high low data address _ held touches spared
    rw [Datakeeper.run, List.foldl_append, List.foldl_cons]
    exact (run_surface spared).trans ((command_surface held _ data address).1 touches)
  · rintro before op after rfl
    obtain ⟨⟨idle', drives', disk'⟩, rest⟩ := @reached before _ rfl
    have step := perform_refined idle' (whole op (by simp)) rest.1
    rw [runOps_append, ← disk', ← drives']
    exact step.changes

/-- The first byte that comes from the data port. -/
theorem readMany_head (machine : BootMachine Hdsk) {count : Nat} (some : count ≠ 0) :
    (readMany count machine).1[0]? = .some machine.board.dataIn.1 := by
  obtain ⟨rest, rfl⟩ := Nat.exists_eq_add_one_of_ne_zero some
  rfl

/-- A platter of zeros. -/
def blankPlatter : Mounted := ⟨hdskImageLen, fun _ => 0, false, false⟩

/-- A guest that reads a sector and its buffer. -/
theorem hdskMachine_served_read :
    Served (hdskMachine [(0, blankPlatter)])
      [.command 0x30 0 fun _ => 0, .poll 0xA0, .command 0x50 0 fun _ => 0] :=
  hdskMachine_served _ _
    (by simp [GuestOp.Whole])
    ⟨fun _ => rfl, fun _ => rfl, fun _ => rfl, trivial⟩

/-- The byte of a Read Status that was left comes ahead of the buffer. -/
theorem readBuffer_status_left :
    let machine := hdskMachine [(0, blankPlatter)]
    let ops : List GuestOp := [.command 0x60 19 fun _ => 0, .command 0x30 0 fun _ => 0]
    let get : GuestOp := .command 0x50 0 fun _ => 0
    (∀ op ∈ ops ++ [get], op.Whole) ∧
      ∃ address, (disk machine).addressed machine.board.drives (GuestOp.word 0x30 0) =
          some address ∧
        (perform (runOps machine ops) get).1 ≠ List.ofFn ((disk machine).surface address) := by
  have status : Command.of (GuestOp.word 0x60 19) = .readStatus := by decide
  refine ⟨by simp [GuestOp.Whole, status],
    ⟨⟨0, by decide⟩, ⟨0, by decide⟩, ⟨0, by decide⟩, ⟨0, by decide⟩,
      ⟨0, by decide⟩⟩, by decide, fun same => ?_⟩
  have gets : Command.of (GuestOp.word 0x50 0) = .readBuffer := by decide
  have idle : Idle (runOps (hdskMachine [(0, blankPlatter)])
      [.command 0x60 19 fun _ => 0, .command 0x30 0 fun _ => 0]) := by
    refine (runOps_refined (hdskMachine_idle [(0, blankPlatter)]) ?_ ?_).1
    · simp [GuestOp.Whole, status]
    · exact ⟨fun _ => rfl, fun reads => absurd reads (show Command.of _ ≠ _ by decide),
        trivial⟩
  rw [perform_readBuffer idle gets] at same
  have first := congrArg (fun bytes => bytes[0]?) same
  simp only [readMany_head _ (show hdskSectorLen ≠ 0 by decide), List.getElem?_ofFn] at first
  exact absurd first (by decide)

end EthernetGateway.Machine
