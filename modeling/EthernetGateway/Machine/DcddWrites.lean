import EthernetGateway.Machine.Dcdd

/-!
# What the 88-DCDD makes of the writes of a guest

A write starts with the write bit of the control port and takes the bytes put on the data port
until the sector passes, the head moves or is lifted, the drive is deselected, or another write
starts. Each write on a writable disk with a byte in it is given to the machine once, for the
drive, track and sector it was started on, unless the write bit comes again while it is open.
-/

namespace EthernetGateway.Machine

namespace Dcdd

/-! ## Accesses -/

/-- An access of a guest to a port. A read carries what the machine answers if the board asks for
a sector because of it. -/
inductive Access where
  | read (port : UInt8) (answer : List UInt8)
  | write (port value : UInt8)

/-- A sector given to the machine to be written. -/
structure Handed where
  drive : Nat
  track : Nat
  sector : Nat
  data : DcddSector

/-- What the machine takes out of the board for a request. -/
def handed (board : Dcdd) : Request → List Handed
  | .write drive track sector => [⟨drive, track, sector, (board.drives drive).buffer⟩]
  | _ => []

/-- An access, with the machine serving what the board asks for: a read that had to fetch a
sector is made again. -/
def perform (board : Dcdd) : Access → List Handed × Dcdd
  | .read port answer =>
    let asked := board.portIn port
    match asked.1.2 with
    | .read drive _ _ =>
      let again := (asked.2.sectorLoaded drive answer).portIn port
      (again.2.handed again.1.2, again.2)
    | request => (asked.2.handed request, asked.2)
  | .write port value =>
    let asked := board.portOut port value
    (asked.2.handed asked.1, asked.2)

/-! ## Writes -/

/-- One write of a guest: where it was started and the bytes put since. -/
structure GuestWrite where
  drive : Nat
  track : Nat
  sector : Nat
  bytes : List UInt8

/-- The writes of a guest: those that have ended, and the one that is open. -/
structure WriteLog where
  ended : List GuestWrite
  open_ : Option GuestWrite

/-- The log once the open write has ended. -/
def WriteLog.close (log : WriteLog) : WriteLog := ⟨log.ended ++ log.open_.toList, none⟩

/-- Whether an access ends the write on the selected drive: a poll that turns the disk to the
next sector, a step or a head unload, a deselect, or a select of another drive. -/
def ends (board : Dcdd) : Access → Bool
  | .read port _ => decide (port &&& 0x0F = 0x09) && board.turning && !board.sectorTrue
  | .write port value =>
    if port &&& 0x0F = 0x08 then
      board.selected.any fun sel =>
        decide (value &&& 0x80 ≠ 0 ∨ sel ≠ (value &&& 0x0F).toNat)
    else if port &&& 0x0F = 0x09 then board.selected.isSome && moves value
    else false

/-- The drive an access starts a write on: the selected one, when it holds a disk. -/
def starts (board : Dcdd) : Access → Option Nat
  | .read _ _ => none
  | .write port value =>
    if port &&& 0x0F = 0x09 ∧ value &&& 0x80 ≠ 0 then
      board.selected.filter fun sel => (board.drives sel).disk.isSome
    else none

/-- The bytes an access puts on the data port. -/
def puts : Access → List UInt8
  | .read _ _ => []
  | .write port value => if port &&& 0x0F = 0x0A then [value] else []

/-- The writes of a guest after an access. A write starts on the track and the sector the drive
is on once the access has moved it. -/
def WriteLog.step (log : WriteLog) (board : Dcdd) (access : Access) : WriteLog :=
  let log := if board.ends access then log.close else log
  match board.starts access with
  | some drive =>
    let d := (board.perform access).2.drives drive
    ⟨log.close.ended, some ⟨drive, d.track, d.sector, []⟩⟩
  | none =>
    { log with open_ := log.open_.map fun write =>
        { write with bytes := write.bytes ++ puts access } }

/-- The sector some bytes make: the first of them, a short sector padded with its last byte. -/
def sectorOf (bytes : List UInt8) : DcddSector := fun i =>
  bytes.getD i.val (bytes.getLast?.getD 0)

/-- What is to be given to the machine for a write: one sector, if the disk may be written and
the write has a byte. -/
def due (board : Dcdd) (write : GuestWrite) : List Handed :=
  if write.bytes ≠ [] ∧ (board.drives write.drive).writable = true then
    [⟨write.drive, write.track, write.sector, sectorOf write.bytes⟩]
  else []

/-- A run: the board, the writes of the guest, and what has been given to the machine. -/
structure Run where
  board : Dcdd
  log : WriteLog
  given : List Handed

/-- One access of a run. -/
def Run.step (run : Run) (access : Access) : Run where
  board := (run.board.perform access).2
  log := run.log.step run.board access
  given := run.given ++ (run.board.perform access).1

/-- A run from a board with no writes. -/
def Run.start (board : Dcdd) : Run := ⟨board, ⟨[], none⟩, []⟩

/-- A run over some accesses. -/
def runAll (board : Dcdd) (accesses : List Access) : Run :=
  accesses.foldl Run.step (.start board)

/-- Whether an access starts a write over an open one: the write bit without a step or a head
unload, while the open write has a byte for a writable disk. -/
def Run.restarts (run : Run) (access : Access) : Bool :=
  (run.board.starts access).isSome && !run.board.ends access &&
    run.log.open_.any fun write => !(run.board.due write).isEmpty

/-! ## One open write -/

/-- A drive holding an open write. -/
structure Holds (d : Drive) (write : GuestWrite) : Prop where
  /-- The drive has a disk. -/
  disk : d.disk.isSome = true
  /-- It is writing. -/
  writing : d.writing = true
  /-- It remembers where the write was started. -/
  place : d.writeAt = some (write.track, write.sector)
  /-- The cursor is after the bytes taken. -/
  byte : d.byte = some (min write.bytes.length dcddSectorLen)
  /-- Bytes taken make the buffer dirty. -/
  dirty : write.bytes ≠ [] → d.dirty = true
  /-- On a writable disk only they do. -/
  clean : d.dirty = true → write.bytes ≠ [] ∨ d.writable = false
  /-- The bytes taken are in the buffer. -/
  data : ∀ i : Fin dcddSectorLen, i.val < write.bytes.length →
    write.bytes[i.val]? = some (d.buffer i)

/-- The buffer of a drive holding a write is the sector of its bytes once it is padded. -/
theorem Holds.padded {d : Drive} {write : GuestWrite} (holds : Holds d write)
    (some : write.bytes ≠ []) : d.padded = sectorOf write.bytes := by
  funext i
  have positive : 0 < write.bytes.length := List.length_pos_iff.mpr some
  have within : ∀ j : Fin dcddSectorLen, j.val < write.bytes.length →
      sectorOf write.bytes j = d.buffer j := by
    intro j below
    rw [sectorOf, List.getD_eq_getElem?_getD, holds.data j below]
    rfl
  rw [Drive.padded, holds.byte]
  dsimp only
  by_cases short : write.bytes.length < dcddSectorLen
  · have cursor : min write.bytes.length dcddSectorLen = write.bytes.length := by omega
    simp only [cursor]
    rw [dif_pos ⟨positive, short⟩]
    split_ifs with below
    · exact (within i below).symm
    · have last := holds.data ⟨write.bytes.length - 1, by omega⟩ (by simp; omega)
      rw [sectorOf, List.getD_eq_default _ _ (by omega), List.getLast?_eq_getElem?, last]
      rfl
  · rw [dif_neg (by omega), within i (by omega)]

/-- What a drive holding a write gives back when it is finished. -/
theorem Holds.pending_iff {d : Drive} {write : GuestWrite} (holds : Holds d write) :
    d.pending = true ↔ write.bytes ≠ [] ∧ d.writable = true := by
  obtain ⟨disk, held⟩ := Option.isSome_iff_exists.mp holds.disk
  have writable : d.writable = !disk.readOnly := by rw [Drive.writable, held]; rfl
  rw [Drive.pending, holds.writing, writable, held]
  simp only [Bool.true_and, Bool.and_eq_true, Option.any_some]
  constructor
  · rintro ⟨dirty, protect⟩
    refine ⟨?_, protect⟩
    rcases holds.clean dirty with some | sealed
    · exact some
    · rw [writable, protect] at sealed
      cases sealed
  · rintro ⟨some, protect⟩
    exact ⟨holds.dirty some, protect⟩

/-! ## The board and the log -/

@[simp] theorem setDrive_same (board : Dcdd) (drive : Nat) (d : Drive) :
    (board.setDrive drive d).drives drive = d := Function.update_self ..

theorem setDrive_other (board : Dcdd) {drive other : Nat} (d : Drive) (apart : other ≠ drive) :
    (board.setDrive drive d).drives other = board.drives other :=
  Function.update_of_ne apart ..

/-- A board whose drives hold exactly the open write of a log. -/
structure Logged (start board : Dcdd) (log : WriteLog) : Prop where
  /-- The disks are those of the start. -/
  disks : ∀ drive, (board.drives drive).disk = (start.drives drive).disk
  /-- The selected drive is one of the sixteen. -/
  bound : ∀ drive, board.selected = some drive → drive < dcddMaxDrives
  /-- Drives without the open write are not writing. -/
  free : ∀ drive, (∀ write, log.open_ = some write → write.drive ≠ drive) →
    (board.drives drive).writing = false ∧ (board.drives drive).dirty = false
  /-- The open write is on the selected drive. -/
  held : ∀ write, log.open_ = some write →
    board.selected = some write.drive ∧ Holds (board.drives write.drive) write

/-- A drive that keeps what it has to do with writing. -/
structure Keeps (d d' : Drive) : Prop where
  disk : d'.disk = d.disk
  writing : d'.writing = d.writing
  dirty : d.dirty = false → d'.dirty = false
  same : d.writing = true → d'.dirty = d.dirty ∧ d'.writeAt = d.writeAt ∧ d'.byte = d.byte ∧
    d'.buffer = d.buffer

/-- A drive keeps what it is. -/
theorem Keeps.refl (d : Drive) : Keeps d d := ⟨rfl, rfl, id, fun _ => ⟨rfl, rfl, rfl, rfl⟩⟩

/-- A drive that keeps its write holds it. -/
theorem Holds.keeps {d d' : Drive} {write : GuestWrite} (holds : Holds d write)
    (keeps : Keeps d d') : Holds d' write := by
  obtain ⟨dirty, place, byte, buffer⟩ := keeps.same holds.writing
  have writable : d'.writable = d.writable := by rw [Drive.writable, keeps.disk, Drive.writable]
  exact
    { disk := by rw [keeps.disk]; exact holds.disk
      writing := keeps.writing.trans holds.writing
      place := place.trans holds.place
      byte := byte.trans holds.byte
      dirty := fun some => dirty.trans (holds.dirty some)
      clean := fun was => by rw [writable]; exact holds.clean (dirty ▸ was)
      data := fun i below => by rw [buffer]; exact holds.data i below }

/-- A change that keeps every drive and the drive of the open write selected keeps the log. -/
theorem Logged.keeps {start board after : Dcdd} {log : WriteLog} (logged : Logged start board log)
    (keeps : ∀ drive, Keeps (board.drives drive) (after.drives drive))
    (bound : ∀ drive, after.selected = some drive → drive < dcddMaxDrives)
    (selected : log.open_ = none ∨ after.selected = board.selected) :
    Logged start after log where
  disks drive := (keeps drive).disk.trans (logged.disks drive)
  bound := bound
  free drive apart := by
    obtain ⟨writing, dirty⟩ := logged.free drive apart
    exact ⟨(keeps drive).writing.trans writing, (keeps drive).dirty dirty⟩
  held write opened := by
    obtain ⟨chosen, holds⟩ := logged.held write opened
    rcases selected with none | same
    · rw [none] at opened
      cases opened
    · exact ⟨same.trans chosen, holds.keeps (keeps write.drive)⟩

/-- The log of a board that has finished the write on the selected drive. -/
theorem Logged.finish {start board : Dcdd} {log : WriteLog} (logged : Logged start board log)
    {sel : Nat} (selected : board.selected = some sel) :
    Logged start (board.finishWrite sel).2 log.close where
  disks drive := by
    by_cases same : drive = sel
    · subst same
      simp only [finishWrite, setDrive_same]
      exact logged.disks drive
    · rw [finishWrite, setDrive_other _ _ same]
      exact logged.disks drive
  bound := logged.bound
  free drive _ := by
    by_cases same : drive = sel
    · subst same
      simp [finishWrite]
    · rw [finishWrite, setDrive_other _ _ same]
      refine logged.free drive fun write opened equal => same ?_
      rw [← equal]
      exact Option.some.inj ((logged.held write opened).1.symm.trans selected)
  held write opened := by cases opened

/-- What is due depends on the disks alone. -/
theorem due_eq {start board : Dcdd}
    (disks : ∀ drive, (board.drives drive).disk = (start.drives drive).disk)
    (write : GuestWrite) : board.due write = start.due write := by
  have same : (board.drives write.drive).writable = (start.drives write.drive).writable := by
    rw [Drive.writable, disks, Drive.writable]
  rw [due, due, same]

/-- Finishing the write on the selected drive gives the machine what is due for it. -/
theorem Logged.finish_handed {start board after : Dcdd} {log : WriteLog}
    (logged : Logged start board log) {sel : Nat} (selected : board.selected = some sel)
    (buffer : (after.drives sel).buffer = ((board.finishWrite sel).2.drives sel).buffer) :
    after.handed (board.finishWrite sel).1 = log.open_.toList.flatMap start.due := by
  cases opened : log.open_ with
  | none =>
    have idle := (logged.free sel (by simp [opened])).1
    have resting : (board.drives sel).pending = false := by rw [Drive.pending, idle]; rfl
    simp [finishWrite, resting, handed]
  | some write =>
    obtain ⟨chosen, holds⟩ := logged.held write opened
    obtain rfl : sel = write.drive := Option.some.inj (selected.symm.trans chosen)
    rw [Option.toList_some, List.flatMap_singleton, ← due_eq logged.disks]
    by_cases pending : (board.drives write.drive).pending = true
    · obtain ⟨some, writable⟩ := holds.pending_iff.mp pending
      simp only [finishWrite, pending, holds.place, handed, due, some, writable, buffer,
        setDrive_same, if_true, holds.padded some, ne_eq, not_false_eq_true, and_self]
    · have none : ¬ (write.bytes ≠ [] ∧ (board.drives write.drive).writable = true) :=
        fun both => pending (holds.pending_iff.mpr both)
      simp only [finishWrite, Bool.not_eq_true _ ▸ pending, due, if_neg none, handed]

/-- The log of a board that starts a write, where no write with a byte for a writable disk is
open. -/
theorem Logged.start {start board : Dcdd} {log : WriteLog} (logged : Logged start board log)
    {sel : Nat} (selected : board.selected = some sel)
    (disk : (board.drives sel).disk.isSome = true)
    (fresh : ∀ write, log.open_ = some write → start.due write = []) {d : Drive}
    (began : d = { board.drives sel with
      writing := true, byte := some 0,
      writeAt := some ((board.drives sel).track, (board.drives sel).sector) }) :
    Logged start (board.setDrive sel d)
      ⟨log.close.ended, some ⟨sel, (board.drives sel).track, (board.drives sel).sector, []⟩⟩ where
  disks drive := by
    by_cases same : drive = sel
    · subst same
      rw [setDrive_same, began]
      exact logged.disks drive
    · rw [setDrive_other _ _ same]
      exact logged.disks drive
  bound := logged.bound
  free drive apart := by
    have same : drive ≠ sel := fun equal => apart _ rfl equal.symm
    rw [setDrive_other _ _ same]
    refine logged.free drive fun write opened equal => same ?_
    rw [← equal]
    exact Option.some.inj ((logged.held write opened).1.symm.trans selected)
  held write opened := by
    cases opened
    refine ⟨selected, ?_⟩
    rw [setDrive_same, began]
    refine ⟨disk, rfl, rfl, rfl, fun some => absurd rfl some, fun dirty => Or.inr ?_,
      fun i below => absurd below (Nat.not_lt_zero _)⟩
    show (board.drives sel).writable = false
    cases opened : log.open_ with
    | none =>
      have clean := (logged.free sel (by simp [opened])).2
      rw [clean] at dirty
      cases dirty
    | some write =>
      obtain ⟨chosen, holds⟩ := logged.held write opened
      obtain rfl : sel = write.drive := Option.some.inj (selected.symm.trans chosen)
      have nothing := fresh write opened
      rw [← due_eq logged.disks, due] at nothing
      rcases holds.clean dirty with some | sealed
      · by_contra writable
        rw [if_pos ⟨some, by simpa using writable⟩] at nothing
        cases nothing
      · exact sealed

/-- A drive that is not writing may change all but its disk, as long as it stays so. -/
theorem Keeps.of_resting {d d' : Drive} (resting : d.writing = false) (disk : d'.disk = d.disk)
    (writing : d'.writing = false) (dirty : d.dirty = false → d'.dirty = false) : Keeps d d' :=
  ⟨disk, writing.trans resting.symm, dirty, fun was => by rw [resting] at was; cases was⟩

/-- Setting one drive to a state that keeps it keeps every drive. -/
theorem keeps_setDrive {board : Dcdd} {sel : Nat} {d : Drive}
    (keeps : Keeps (board.drives sel) d) (drive : Nat) :
    Keeps (board.drives drive) ((board.setDrive sel d).drives drive) := by
  by_cases same : drive = sel
  · subst same
    rw [setDrive_same]
    exact keeps
  · rw [setDrive_other _ _ same]
    exact Keeps.refl _

/-- A byte put on the data port goes to the open write. -/
theorem Logged.put {start board : Dcdd} {log : WriteLog} (logged : Logged start board log)
    (value : UInt8) :
    Logged start (board.writeData value)
      { log with open_ := log.open_.map fun write =>
          { write with bytes := write.bytes ++ [value] } } := by
  cases selected : board.selected with
  | none =>
    have none : log.open_ = none := by
      rw [Option.eq_none_iff_forall_ne_some]
      intro write opened
      rw [(logged.held write opened).1] at selected
      cases selected
    rw [writeData, selected, none]
    exact { disks := logged.disks, bound := logged.bound,
            free := fun drive _ => logged.free drive (by simp [none]),
            held := fun write opened => nomatch opened }
  | some sel =>
    rw [writeData, selected]
    dsimp only
    cases opened : log.open_ with
    | none =>
      have resting := (logged.free sel (by simp [opened])).1
      rw [resting]
      exact { disks := logged.disks, bound := logged.bound,
              free := fun drive _ => logged.free drive (by simp [opened]),
              held := fun write also => nomatch also }
    | some write =>
      obtain ⟨chosen, holds⟩ := logged.held write opened
      obtain rfl : sel = write.drive := Option.some.inj (selected.symm.trans chosen)
      rw [holds.writing]
      simp only [Bool.not_true, Bool.false_eq_true, if_false, holds.byte, Option.getD_some,
        Option.map_some]
      by_cases full : dcddSectorLen ≤ write.bytes.length
      · have cursor : min write.bytes.length dcddSectorLen = dcddSectorLen := by omega
        rw [dif_neg (by omega)]
        refine { disks := logged.disks, bound := logged.bound, free := ?_, held := ?_ }
        · intro drive apart
          exact logged.free drive fun other also => by
            rw [opened] at also
            cases also
            exact fun equal => apart _ rfl equal
        · intro other also
          cases also
          refine ⟨selected, holds.disk, holds.writing, holds.place, ?_, ?_, ?_, ?_⟩
          · rw [holds.byte, cursor]
            simp only [List.length_append, List.length_singleton, Option.some.injEq]
            omega
          · intro _
            refine holds.dirty fun none => ?_
            rw [none] at full
            exact absurd full (by decide)
          · intro _
            exact Or.inl (by simp)
          · intro i _
            have below : i.val < write.bytes.length := by omega
            rw [List.getElem?_append_left below]
            exact holds.data i below
      · have cursor : min write.bytes.length dcddSectorLen = write.bytes.length := by omega
        simp only [cursor]
        rw [dif_pos (by omega)]
        refine { disks := ?_, bound := logged.bound, free := ?_, held := ?_ }
        · intro drive
          by_cases same : drive = write.drive
          · subst same
            rw [setDrive_same]
            exact logged.disks write.drive
          · rw [setDrive_other _ _ same]
            exact logged.disks drive
        · intro drive apart
          have same : drive ≠ write.drive := fun equal => apart _ rfl equal.symm
          rw [setDrive_other _ _ same]
          exact logged.free drive fun other also => by
            rw [opened] at also
            cases also
            exact same.symm
        · intro other also
          cases also
          refine ⟨selected, ?_⟩
          rw [setDrive_same]
          refine ⟨holds.disk, rfl, holds.place, ?_, fun _ => rfl,
            fun _ => Or.inl (by simp), ?_⟩
          · simp only [List.length_append, List.length_singleton, Option.some.injEq]
            omega
          · intro i below
            simp only [List.length_append, List.length_singleton] at below
            by_cases last : i.val = write.bytes.length
            · have here : i = ⟨write.bytes.length, by omega⟩ := Fin.ext last
              simp [here]
            · rw [List.getElem?_append_left (by omega), holds.data i (by omega)]
              have apart : i ≠ ⟨write.bytes.length, by omega⟩ := fun equal =>
                last (congrArg Fin.val equal)
              simp [Function.update_of_ne apart]

/-! ## One access -/

/-- What one access does to the log, and what it gives the machine: what is due for the writes
it ends. -/
def Accessed (start board : Dcdd) (log : WriteLog) (access : Access) : Prop :=
  Logged start (board.perform access).2 (log.step board access) ∧
    ∃ more, (log.step board access).ended = log.ended ++ more ∧
      (board.perform access).1 = more.flatMap start.due

/-- An access that neither ends nor starts a write nor puts a byte leaves the log. -/
theorem WriteLog.step_quiet {log : WriteLog} {board : Dcdd} {access : Access}
    (ends : board.ends access = false) (starts : board.starts access = none)
    (puts : puts access = []) : log.step board access = log := by
  simp only [WriteLog.step, ends, starts, puts, Bool.false_eq_true, if_false, List.append_nil]
  cases log with | mk ended open_ => cases open_ <;> rfl

/-- An access that ends the open write and starts none closes the log. -/
theorem WriteLog.step_ends {log : WriteLog} {board : Dcdd} {access : Access}
    (ends : board.ends access = true) (starts : board.starts access = none) :
    log.step board access = log.close := by
  simp only [WriteLog.step, ends, starts, if_true]
  rfl

/-- An access that keeps every drive, and the selection while a write is open, and gives nothing
is accounted for. -/
theorem Logged.accessed_quiet {start board : Dcdd} {log : WriteLog}
    (logged : Logged start board log) {access : Access} (ends : board.ends access = false)
    (starts : board.starts access = none) (puts : Dcdd.puts access = [])
    (keeps : ∀ drive, Keeps (board.drives drive) ((board.perform access).2.drives drive))
    (bound : ∀ drive, (board.perform access).2.selected = some drive → drive < dcddMaxDrives)
    (selected : log.open_ = none ∨ (board.perform access).2.selected = board.selected)
    (nothing : (board.perform access).1 = []) : Accessed start board log access := by
  rw [Accessed, WriteLog.step_quiet ends starts puts, nothing]
  exact ⟨logged.keeps keeps bound selected, [], by simp, rfl⟩

/-- An access that leaves the board and gives nothing is accounted for. -/
theorem Logged.accessed_idle {start board : Dcdd} {log : WriteLog}
    (logged : Logged start board log) {access : Access} (ends : board.ends access = false)
    (starts : board.starts access = none) (puts : Dcdd.puts access = [])
    (idle : board.perform access = ([], board)) : Accessed start board log access :=
  logged.accessed_quiet ends starts puts (fun drive => by rw [idle]; exact Keeps.refl _)
    (by rw [idle]; exact logged.bound) (Or.inr (by rw [idle])) (by rw [idle])

/-- An access that finishes the write on the selected drive, and then keeps every drive, is
accounted for. -/
theorem Logged.accessed_ends {start board : Dcdd} {log : WriteLog}
    (logged : Logged start board log) {access : Access} (ends : board.ends access = true)
    (starts : board.starts access = none) {sel : Nat} (selected : board.selected = some sel)
    (keeps : ∀ drive, Keeps ((board.finishWrite sel).2.drives drive)
      ((board.perform access).2.drives drive))
    (buffer : ((board.perform access).2.drives sel).buffer =
      ((board.finishWrite sel).2.drives sel).buffer)
    (bound : ∀ drive, (board.perform access).2.selected = some drive → drive < dcddMaxDrives)
    (given : (board.perform access).1 =
      (board.perform access).2.handed (board.finishWrite sel).1) :
    Accessed start board log access := by
  rw [Accessed, WriteLog.step_ends ends starts, given]
  exact ⟨(logged.finish selected).keeps keeps bound (Or.inl rfl), log.open_.toList, rfl,
    logged.finish_handed selected buffer⟩

/-- With no drive selected no write is open. -/
theorem Logged.none_open {start board : Dcdd} {log : WriteLog} (logged : Logged start board log)
    (selected : board.selected = none) : log.open_ = none := by
  rw [Option.eq_none_iff_forall_ne_some]
  intro write opened
  rw [(logged.held write opened).1] at selected
  cases selected

/-- The drive finished is resting. -/
theorem finishWrite_resting (board : Dcdd) (sel : Nat) :
    ((board.finishWrite sel).2.drives sel).writing = false ∧
      ((board.finishWrite sel).2.drives sel).dirty = false := by
  simp [finishWrite]

/-- Finishing a write asks for no sector. -/
theorem finishWrite_handed (board : Dcdd) (sel drive track sector : Nat) :
    (board.finishWrite sel).1 ≠ .read drive track sector := by
  intro equal
  simp only [finishWrite] at equal
  split at equal <;> cases equal

/-- Turning the disk keeps every drive when the one it turns in is resting. -/
theorem advance_keeps {board : Dcdd} {sel : Nat} (resting : (board.drives sel).writing = false)
    (drive : Nat) : Keeps (board.drives drive) ((board.advance sel).drives drive) := by
  have keeps : ∀ d : Drive, d.disk = (board.drives sel).disk → d.writing = false →
      d.dirty = (board.drives sel).dirty →
      Keeps (board.drives drive) ((board.setDrive sel d).drives drive) :=
    fun d disk writing dirty =>
      keeps_setDrive (Keeps.of_resting resting disk writing fun clean => dirty.trans clean) drive
  exact keeps _ rfl resting rfl

/-- A poll of the position register is accounted for. -/
theorem Logged.accessed_poll {start board : Dcdd} {log : WriteLog}
    (logged : Logged start board log) {port : UInt8} (is : port &&& 0x0F = 0x09)
    (answer : List UInt8) : Accessed start board log (.read port answer) := by
  have asked : board.portIn port = board.readPosition := by simp [portIn, is]
  cases selected : board.selected with
  | none =>
    refine logged.accessed_idle (by simp [ends, turning, selected]) rfl rfl ?_
    simp [perform, asked, readPosition, selected, handed]
  | some sel =>
    by_cases turning : board.turning = true
    · by_cases flag : board.sectorTrue = true
      · have performed : board.perform (.read port answer) =
            ([], { board with sectorTrue := false }) := by
          simp [perform, asked, readPosition, selected, turning, flag, handed]
        refine logged.accessed_quiet (by simp [ends, flag]) rfl rfl ?_ ?_ ?_ (by rw [performed])
        · intro drive
          rw [performed]
          exact Keeps.refl _
        · rw [performed]
          exact logged.bound
        · rw [performed]
          exact Or.inr rfl
      · have performed : board.perform (.read port answer) =
            (((board.finishWrite sel).2.advance sel).handed (board.finishWrite sel).1,
              (board.finishWrite sel).2.advance sel) := by
          -- The machine reads again for a fetch only, and finishing a write asks for none.
          have unread := finishWrite_handed board sel
          simp only [perform, asked, readPosition, selected, turning, flag, Bool.not_true,
            Bool.false_eq_true, if_false]
        refine logged.accessed_ends (by simp [ends, is, turning, flag]) rfl selected ?_ ?_ ?_
          (by rw [performed])
        · rw [performed]
          exact advance_keeps (finishWrite_resting board sel).1
        · rw [performed]
          simp [advance]
        · rw [performed]
          exact logged.bound
    · refine logged.accessed_idle (by simp [ends, turning]) rfl rfl ?_
      simp [perform, asked, readPosition, selected, turning, handed]

/-- A read of the data port is accounted for. -/
theorem Logged.accessed_data {start board : Dcdd} {log : WriteLog}
    (logged : Logged start board log) {port : UInt8} (is : port &&& 0x0F = 0x0A)
    (answer : List UInt8) : Accessed start board log (.read port answer) := by
  have asked : ∀ board : Dcdd, board.portIn port = board.readData := by
    intro board
    simp [portIn, is]
  have ends : board.ends (.read port answer) = false := by simp [ends, is]
  cases selected : board.selected with
  | none =>
    refine logged.accessed_idle ends rfl rfl ?_
    simp [perform, asked, readData, selected, handed]
  | some sel =>
    by_cases closed : ((board.drives sel).disk.isNone || (board.drives sel).writing) = true
    · refine logged.accessed_idle ends rfl rfl ?_
      simp [perform, asked, readData, selected, closed, handed]
    · have resting : (board.drives sel).writing = false := by
        cases writing : (board.drives sel).writing
        · rfl
        · simp [writing] at closed
      cases cursor : (board.drives sel).byte with
      | some i =>
        have performed : ∃ d, board.perform (.read port answer) = ([], board.setDrive sel d) ∧
            Keeps (board.drives sel) d := by
          refine ⟨{ board.drives sel with byte := some (min (i + 1) dcddSectorLen) }, ?_,
            Keeps.of_resting resting rfl resting id⟩
          simp [perform, asked, readData, selected, closed, cursor, handed]
        obtain ⟨d, performed, keeps⟩ := performed
        refine logged.accessed_quiet ends rfl rfl ?_ ?_ ?_ (by rw [performed])
        · rw [performed]
          exact keeps_setDrive keeps
        · rw [performed]
          exact logged.bound
        · rw [performed]
          exact Or.inr rfl
      | none =>
        have inside := logged.bound sel selected
        have open_ : ((board.drives sel).disk.isNone || false) = false := by
          cases missing : (board.drives sel).disk.isNone
          · rfl
          · simp [missing] at closed
        have performed : ∃ d, board.perform (.read port answer) =
            ([], ((board.setDrive sel { board.drives sel with byte := some 0 }).sectorLoaded sel
              answer).setDrive sel d) ∧ d.disk = (board.drives sel).disk ∧ d.writing = false ∧
              d.dirty = false := by
          refine ⟨{ board.drives sel with
            buffer := fun i => answer.getD i.val 0
            byte := some (min (0 + 1) dcddSectorLen)
            dirty := false }, ?_, rfl, resting, rfl⟩
          simp only [perform, asked, readData, selected, cursor, Bool.false_eq_true, if_false,
            sectorLoaded, inside, if_true, setDrive_same, resting, open_]
          simp [setDrive, selected, open_, handed]
        obtain ⟨d, performed, disk, writing, dirty⟩ := performed
        have result : board.perform (.read port answer) = ([], board.setDrive sel d) := by
          rw [performed]
          simp [sectorLoaded, inside, setDrive]
        refine logged.accessed_quiet ends rfl rfl ?_ ?_ ?_ (by rw [result])
        · rw [result]
          exact keeps_setDrive (Keeps.of_resting resting disk writing fun _ => dirty)
        · rw [result]
          exact logged.bound
        · rw [result]
          exact Or.inr rfl

/-- A nibble is one of the sixteen drives. -/
theorem nibble_lt (value : UInt8) : (value &&& 0x0F).toNat < dcddMaxDrives := by
  rw [UInt8.toNat_and]
  exact Nat.lt_of_le_of_lt Nat.and_le_right (by decide)

/-- A write to the select port is accounted for. -/
theorem Logged.accessed_select {start board : Dcdd} {log : WriteLog}
    (logged : Logged start board log) {port : UInt8} (is : port &&& 0x0F = 0x08)
    (value : UInt8) : Accessed start board log (.write port value) := by
  have performed : board.perform (.write port value) =
      ((board.select value).2.handed (board.select value).1, (board.select value).2) := by
    simp [perform, portOut, is]
  have starts : board.starts (.write port value) = none := by simp [Dcdd.starts, is]
  have puts : Dcdd.puts (.write port value) = [] := by simp [Dcdd.puts, is]
  by_cases clear : value &&& 0x80 ≠ 0
  · cases selected : board.selected with
    | none =>
      have result : board.select value =
          (.none, { board with interrupts := false }.selectDrive none) := by
        simp [select, clear, selected]
      rw [result] at performed
      refine logged.accessed_quiet (by simp [ends, is, selected]) starts puts ?_ ?_
        (Or.inl (logged.none_open selected)) (by rw [performed]; rfl)
      · rw [performed]
        exact fun drive => Keeps.refl _
      · rw [performed]
        intro drive chosen
        cases chosen
    | some sel =>
      have resting := finishWrite_resting board sel
      refine logged.accessed_ends (by simp [ends, is, selected, clear]) starts selected ?_ ?_ ?_ ?_
      · rw [performed]
        simp only [select, clear, if_true, selected, selectDrive, ne_eq, not_false_eq_true]
        exact keeps_setDrive (Keeps.of_resting resting.1 rfl rfl id)
      · rw [performed]
        simp [select, clear, selected, selectDrive]
      · rw [performed]
        intro drive chosen
        simp [select, clear, selected, selectDrive] at chosen
      · rw [performed]
        simp [select, clear, selected]
  · cases selected : board.selected with
    | none =>
      have result : board.select value =
          (.none, board.selectDrive (some (value &&& 0x0F).toNat)) := by
        simp [select, clear, selected]
      rw [result] at performed
      refine logged.accessed_quiet (by simp [ends, is, selected]) starts puts ?_ ?_
        (Or.inl (logged.none_open selected)) (by rw [performed]; rfl)
      · rw [performed]
        exact fun drive => Keeps.refl _
      · rw [performed]
        intro drive chosen
        cases chosen
        exact nibble_lt value
    | some old =>
      by_cases again : old = (value &&& 0x0F).toNat
      · have result : board.select value = (.none, board.selectDrive (some old)) := by
          simp [select, clear, selected, ← again]
        rw [result] at performed
        refine logged.accessed_quiet (by simp [ends, is, selected, clear, ← again]) starts puts
          ?_ ?_ ?_ (by rw [performed]; rfl)
        · rw [performed]
          exact fun drive => Keeps.refl _
        · rw [performed]
          intro drive chosen
          cases chosen
          exact logged.bound old selected
        · rw [performed]
          exact Or.inr selected.symm
      · have result : board.select value = ((board.finishWrite old).1,
            (board.finishWrite old).2.selectDrive (some (value &&& 0x0F).toNat)) := by
          simp [-UInt8.toNat_and, select, clear, selected, again]
        rw [result] at performed
        refine logged.accessed_ends (by simp [-UInt8.toNat_and, ends, is, selected, again]) starts selected ?_ ?_ ?_ ?_
        · rw [performed]
          exact fun drive => Keeps.refl _
        · rw [performed]
          rfl
        · rw [performed]
          intro drive chosen
          cases chosen
          exact nibble_lt value
        · rw [performed]

/-- A control byte without the step and unload bits has none of them. -/
theorem moves_bits {value : UInt8} (still : moves value = false) :
    value &&& 0x01 = 0 ∧ value &&& 0x02 = 0 ∧ value &&& 0x08 = 0 := by
  have none : value &&& 0x0B = 0 := by simpa [moves] using still
  have part : ∀ bit : UInt8, 0x0B &&& bit = bit → value &&& bit = 0 := by
    intro bit within
    rw [← within, ← UInt8.and_assoc, none, UInt8.zero_and]
  exact ⟨part 0x01 rfl, part 0x02 rfl, part 0x08 rfl⟩

/-- Steering a drive leaves what it has to do with writing but the cursor. -/
theorem steer_same (d : Drive) (value : UInt8) :
    (d.steer value).disk = d.disk ∧ (d.steer value).writing = d.writing ∧
      (d.steer value).dirty = d.dirty ∧ (d.steer value).writeAt = d.writeAt ∧
      (d.steer value).buffer = d.buffer := by
  simp only [Drive.steer]
  refine ⟨?_, ?_, ?_, ?_, ?_⟩ <;> repeat' split
  all_goals rfl

/-- Steering without a step or an unload leaves the cursor too. -/
theorem steer_byte (d : Drive) {value : UInt8} (still : moves value = false) :
    (d.steer value).byte = d.byte := by
  obtain ⟨inward, outward, unload⟩ := moves_bits still
  simp only [Drive.steer, inward, outward, unload, ne_eq, not_true_eq_false, false_and, if_false]
  split <;> rfl

/-- Steering keeps a drive that is resting, or that is not stepped or unloaded. -/
theorem steer_keeps (d : Drive) (value : UInt8) (can : d.writing = false ∨ moves value = false) :
    Keeps d (d.steer value) := by
  obtain ⟨disk, writing, dirty, place, buffer⟩ := steer_same d value
  rcases can with resting | still
  · exact Keeps.of_resting resting disk (writing.trans resting) fun clean => dirty.trans clean
  · exact ⟨disk, writing, fun clean => dirty.trans clean,
      fun _ => ⟨dirty, place, steer_byte d still, buffer⟩⟩

/-- The board after the steps, the head and the interrupt bits of a control byte. -/
def steered (board : Dcdd) (sel : Nat) (value : UInt8) : Dcdd :=
  let moved := if moves value then (board.finishWrite sel).2 else board
  moved.setDrive sel ((moved.drives sel).steer value)

/-- The log of the board once a control byte has moved the head. -/
theorem Logged.steer {start board : Dcdd} {log : WriteLog} (logged : Logged start board log)
    {sel : Nat} (selected : board.selected = some sel) (value : UInt8) :
    Logged start (board.steered sel value) (if moves value then log.close else log) := by
  cases move : moves value with
  | true =>
    simp only [steered, move, if_true]
    have finished := logged.finish selected
    exact finished.keeps (keeps_setDrive (steer_keeps _ _
      (Or.inl (finishWrite_resting board sel).1))) finished.bound (Or.inl rfl)
  | false =>
    simp only [steered, move, Bool.false_eq_true, if_false]
    exact logged.keeps (keeps_setDrive (steer_keeps _ _ (Or.inr move))) logged.bound (Or.inr rfl)

/-- A write to the control port is accounted for, unless it starts a write over an open one. -/
theorem Logged.accessed_control {start board : Dcdd} {log : WriteLog}
    (logged : Logged start board log) {port : UInt8} (is : port &&& 0x0F = 0x09)
    (value : UInt8) (fresh : (board.starts (.write port value)).isSome →
      board.ends (.write port value) = false →
        ∀ write, log.open_ = some write → start.due write = []) :
    Accessed start board log (.write port value) := by
  have performed : board.perform (.write port value) =
      ((board.control value).2.handed (board.control value).1, (board.control value).2) := by
    simp [perform, portOut, is]
  have puts : Dcdd.puts (.write port value) = [] := by simp [Dcdd.puts, is]
  cases selected : board.selected with
  | none =>
    refine logged.accessed_idle (by simp [ends, is, selected])
      (by simp [Dcdd.starts, is, selected]) puts ?_
    simp [performed, control, selected, handed]
  | some sel =>
    have steered := logged.steer selected value
    have ends : board.ends (.write port value) = moves value := by simp [Dcdd.ends, is, selected]
    have given : ∀ after : Dcdd, (after.drives sel).buffer =
          ((board.steered sel value).drives sel).buffer →
        after.handed (if moves value then (board.finishWrite sel).1 else .none) =
          (if moves value then log.open_.toList else []).flatMap start.due := by
      intro after buffer
      cases move : moves value with
      | false => rfl
      | true =>
        simp only [if_true]
        refine logged.finish_handed selected (buffer.trans ?_)
        simp only [Dcdd.steered, move, if_true, setDrive_same]
        exact (steer_same _ value).2.2.2.2
    have controlled : ∃ interrupts, board.control value =
        (if moves value then (board.finishWrite sel).1 else .none,
          { (board.steered sel value).setDrive sel
              (((board.steered sel value).drives sel).begin value) with
            interrupts := interrupts }) := by
      refine ⟨if value &&& 0x20 ≠ 0 then false else if value &&& 0x10 ≠ 0 then true
        else board.interrupts, ?_⟩
      simp only [control, selected, Dcdd.steered]
      cases moves value with
      | true =>
        simp [setDrive]
        rfl
      | false => simp [setDrive]
    obtain ⟨interrupts, controlled⟩ := controlled
    have disks := (steered.disks sel).trans (logged.disks sel).symm
    by_cases begins : value &&& 0x80 ≠ 0 ∧ (board.drives sel).disk.isSome = true
    · have starts : board.starts (.write port value) = some sel := by
        simp [Dcdd.starts, is, begins.1, selected, begins.2]
      have began : ((board.steered sel value).drives sel).begin value =
          { (board.steered sel value).drives sel with
            writing := true, byte := some 0,
            writeAt := some (((board.steered sel value).drives sel).track,
              ((board.steered sel value).drives sel).sector) } := by
        rw [Drive.begin, if_pos ⟨begins.1, by rw [disks]; exact begins.2⟩]
      have selected' : (board.steered sel value).selected = some sel := by
        simp only [Dcdd.steered]
        split <;> exact selected
      have overwritten : moves value = false →
          ∀ write, log.open_ = some write → start.due write = [] := fun still =>
        fresh (by rw [starts]; rfl) (ends.trans still)
      have started := steered.start selected' (by rw [disks]; exact begins.2)
        (by
          intro write opened
          cases move : moves value with
          | true => simp [move, WriteLog.close] at opened
          | false => exact overwritten move write (by simpa [move] using opened)) began
      have logs : log.step board (.write port value) =
          ⟨(if moves value then log.close else log).close.ended,
            some ⟨sel, ((board.steered sel value).drives sel).track,
              ((board.steered sel value).drives sel).sector, []⟩⟩ := by
        simp [WriteLog.step, starts, ends, performed, controlled, began]
      rw [Accessed, logs, performed, controlled]
      refine ⟨started.keeps (fun _ => Keeps.refl _) started.bound (Or.inr rfl),
        log.open_.toList, ?_, ?_⟩
      · cases moves value <;> simp [WriteLog.close]
      · dsimp only
        rw [given _ (by simp [began])]
        cases move : moves value with
        | true => rfl
        | false =>
          cases opened : log.open_ with
          | none => rfl
          | some write => simp [overwritten move write opened]
    · have starts : board.starts (.write port value) = none := by
        rw [Dcdd.starts, selected]
        split_ifs with writes
        · have missing : ¬ (board.drives sel).disk.isSome = true := fun disk =>
            begins ⟨writes.2, disk⟩
          simp [Option.filter, missing]
        · rfl
      have began : ((board.steered sel value).drives sel).begin value =
          (board.steered sel value).drives sel := by
        rw [Drive.begin, if_neg (by rw [disks]; exact begins)]
      rw [began] at controlled
      have logs : log.step board (.write port value) =
          if moves value then log.close else log := by
        cases move : moves value with
        | true => rw [WriteLog.step_ends (ends.trans move) starts, if_pos rfl]
        | false => rw [WriteLog.step_quiet (ends.trans move) starts puts, if_neg (by simp)]
      have whole : (board.steered sel value).setDrive sel ((board.steered sel value).drives sel) =
          board.steered sel value := by
        simp [setDrive]
      rw [whole] at controlled
      rw [Accessed, logs, performed, controlled]
      refine ⟨steered.keeps (fun _ => Keeps.refl _) steered.bound (Or.inr rfl),
        if moves value then log.open_.toList else [], ?_, given _ rfl⟩
      cases moves value <;> simp [WriteLog.close]

/-- A write to the data port is accounted for. -/
theorem Logged.accessed_put {start board : Dcdd} {log : WriteLog}
    (logged : Logged start board log) {port : UInt8} (is : port &&& 0x0F = 0x0A)
    (value : UInt8) : Accessed start board log (.write port value) := by
  have performed : board.perform (.write port value) = ([], board.writeData value) := by
    simp [perform, portOut, is, handed]
  have logs : log.step board (.write port value) =
      { log with open_ := log.open_.map fun write =>
          { write with bytes := write.bytes ++ [value] } } := by
    simp [WriteLog.step, starts, ends, puts, is]
  rw [Accessed, logs, performed]
  exact ⟨logged.put value, [], by simp, rfl⟩

/-- Every access is accounted for, unless it starts a write over an open one. -/
theorem Logged.accessed {start board : Dcdd} {log : WriteLog} (logged : Logged start board log)
    (access : Access) (fresh : (board.starts access).isSome → board.ends access = false →
      ∀ write, log.open_ = some write → start.due write = []) :
    Accessed start board log access := by
  cases access with
  | read port answer =>
    by_cases poll : port &&& 0x0F = 0x09
    · exact logged.accessed_poll poll answer
    · by_cases data : port &&& 0x0F = 0x0A
      · exact logged.accessed_data data answer
      · refine logged.accessed_idle (by simp [ends, poll]) rfl rfl ?_
        have answered : ∃ status, board.portIn port = ((status, .none), board) := by
          rw [portIn, if_neg poll, if_neg data]
          split_ifs
          · exact ⟨_, rfl⟩
          · exact ⟨_, rfl⟩
        obtain ⟨status, answered⟩ := answered
        simp [perform, answered, handed]
  | write port value =>
    by_cases choose : port &&& 0x0F = 0x08
    · exact logged.accessed_select choose value
    · by_cases steer : port &&& 0x0F = 0x09
      · exact logged.accessed_control steer value fresh
      · by_cases data : port &&& 0x0F = 0x0A
        · exact logged.accessed_put data value
        · refine logged.accessed_idle (by simp [ends, choose, steer])
            (by simp [starts, steer]) (by simp [puts, data]) ?_
          simp [perform, portOut, choose, steer, data, handed]

/-! ## Runs -/

/-- A board on which no write is in progress. -/
structure Idle (board : Dcdd) : Prop where
  /-- The selected drive is one of the sixteen. -/
  bound : ∀ drive, board.selected = some drive → drive < dcddMaxDrives
  /-- No drive is writing. -/
  resting : ∀ drive, (board.drives drive).writing = false ∧ (board.drives drive).dirty = false

/-- A board with disks put in its drives. -/
def insertAll (disks : List (Nat × Disk)) : Dcdd :=
  disks.foldl (fun board entry => board.insert entry.1 entry.2) new

/-- It is idle. -/
theorem insertAll_idle (disks : List (Nat × Disk)) : (insertAll disks).Idle := by
  have inserted : ∀ (disks : List (Nat × Disk)) (board : Dcdd), board.Idle →
      (disks.foldl (fun board entry => board.insert entry.1 entry.2) board).Idle := by
    intro disks
    induction disks with
    | nil => exact fun _ idle => idle
    | cons entry disks ih =>
      intro board idle
      refine ih _ ?_
      show (board.insert entry.1 entry.2).Idle
      unfold Dcdd.insert
      split_ifs
      · refine ⟨idle.bound, fun drive => ?_⟩
        by_cases same : drive = entry.1
        · subst same
          rw [setDrive_same]
          exact ⟨rfl, rfl⟩
        · rw [setDrive_other _ _ same]
          exact idle.resting drive
      · exact idle
  exact inserted disks new ⟨fun _ chosen => (nomatch chosen), fun _ => ⟨rfl, rfl⟩⟩

/-- Accesses none of which starts a write over an open one that has a byte for a writable disk. -/
def Orderly : Run → List Access → Prop
  | _, [] => True
  | run, access :: accesses =>
    run.restarts access = false ∧ Orderly (run.step access) accesses

/-- A run that accounts for every write: what has been given to the machine is what is due for
the writes that have ended. -/
structure Run.Accounts (run : Run) (start : Dcdd) : Prop where
  /-- The drives hold the open write. -/
  logged : Logged start run.board run.log
  /-- The writes that have ended have been given. -/
  given : run.given = run.log.ended.flatMap start.due

/-- An access that starts no write over an open one leaves every write accounted for. -/
theorem Run.Accounts.step {run : Run} {start : Dcdd} (accounts : run.Accounts start)
    {access : Access} (fresh : run.restarts access = false) : (run.step access).Accounts start := by
  obtain ⟨after, more, ended, handed⟩ := accounts.logged.accessed access (by
    intro starts still write opened
    by_contra some
    rw [← due_eq accounts.logged.disks] at some
    simp [Run.restarts, starts, still, opened, some] at fresh)
  refine ⟨after, ?_⟩
  simp only [Run.step, accounts.given, ended, handed, List.flatMap_append]

/-- Accesses that start no write over an open one leave every write accounted for. -/
theorem Run.Accounts.run {start : Dcdd} (accesses : List Access) {run : Run}
    (accounts : run.Accounts start) (orderly : Orderly run accesses) :
    (accesses.foldl Run.step run).Accounts start := by
  induction accesses generalizing run with
  | nil => exact accounts
  | cons access accesses ih => exact ih (accounts.step orderly.1) orderly.2

/-- A run from an idle board accounts for every write. -/
theorem runAll_accounts {board : Dcdd} (idle : board.Idle) {accesses : List Access}
    (orderly : Orderly (.start board) accesses) : (runAll board accesses).Accounts board :=
  Run.Accounts.run accesses
    ⟨⟨fun _ => rfl, idle.bound, fun drive _ => idle.resting drive, fun _ opened => nomatch opened⟩,
      rfl⟩ orderly

/-! ## The end of a session -/

/-- What `finish_all_writes` gives the machine. -/
def finishing (board : Dcdd) : List Handed :=
  board.finishAllWrites.1.flatMap board.finishAllWrites.2.handed

/-- Finishing drive after drive is finishing them in two parts. -/
theorem finishDrives_append (first second : List Nat) (board : Dcdd) :
    finishDrives (first ++ second) board =
      ((finishDrives first board).1 ++ (finishDrives second (finishDrives first board).2).1,
        (finishDrives second (finishDrives first board).2).2) := by
  induction first generalizing board with
  | nil => simp [finishDrives]
  | cons drive first ih => simp [finishDrives, ih]

/-- Finishing drives leaves the others. -/
theorem finishDrives_other {drives : List Nat} {drive : Nat} (apart : drive ∉ drives)
    (board : Dcdd) : (finishDrives drives board).2.drives drive = board.drives drive := by
  induction drives generalizing board with
  | nil => rfl
  | cons first drives ih =>
    rw [List.mem_cons, not_or] at apart
    rw [finishDrives]
    dsimp only
    rw [ih apart.2, finishDrive]
    exact setDrive_other _ _ apart.1

/-- Finishing a drive depends on that drive alone. -/
theorem finishWrite_congr {board other : Dcdd} {sel : Nat}
    (same : board.drives sel = other.drives sel) :
    (board.finishWrite sel).1 = (other.finishWrite sel).1 ∧
      (board.finishWrite sel).2.drives sel = (other.finishWrite sel).2.drives sel := by
  simp [finishWrite, same]

/-- Finishing drives that are not writing gives nothing. -/
theorem finishDrives_resting {drives : List Nat} {board : Dcdd}
    (resting : ∀ drive ∈ drives, (board.drives drive).writing = false) :
    (finishDrives drives board).1 = [] := by
  induction drives generalizing board with
  | nil => rfl
  | cons first drives ih =>
    have none : (board.finishWrite first).1 = .none := by
      simp [finishWrite, Drive.pending, resting first List.mem_cons_self]
    have rest : ∀ drive ∈ drives, ((board.finishDrive first).2.drives drive).writing = false := by
      intro drive member
      by_cases same : drive = first
      · subst same
        exact (finishWrite_resting board drive).1
      · rw [finishDrive]
        simp only [finishWrite, setDrive_other _ _ same]
        exact resting drive (List.mem_cons_of_mem _ member)
    rw [finishDrives]
    dsimp only
    rw [ih rest]
    simp [finishDrive, none]

/-- The end of a session gives the machine the sector of an open write that is whole, and nothing
else. -/
theorem Logged.finishing {start board : Dcdd} {log : WriteLog} (logged : Logged start board log) :
    board.finishing = (log.open_.toList.filter fun write =>
      decide (dcddSectorLen ≤ write.bytes.length)).flatMap start.due := by
  cases opened : log.open_ with
  | none =>
    have none : board.finishAllWrites.1 = [] :=
      finishDrives_resting fun drive _ => (logged.free drive (by simp [opened])).1
    rw [Dcdd.finishing, none]
    rfl
  | some write =>
    obtain ⟨chosen, holds⟩ := logged.held write opened
    have among : write.drive ∈ List.range dcddMaxDrives :=
      List.mem_range.mpr (logged.bound _ chosen)
    obtain ⟨before, after, whole⟩ := List.append_of_mem among
    have distinct : (before ++ write.drive :: after).Nodup := whole ▸ List.nodup_range
    have outside : write.drive ∉ before ∧ write.drive ∉ after := by
      have parts := List.nodup_middle.mp distinct
      simpa using (List.nodup_cons.mp parts).1
    have others : ∀ drive, drive ≠ write.drive → (board.drives drive).writing = false :=
      fun drive apart => (logged.free drive fun other also equal => by
        rw [opened] at also
        cases also
        exact apart equal.symm).1
    have quiet : (finishDrives before board).1 = [] :=
      finishDrives_resting fun drive member => others drive fun equal =>
        outside.1 (equal ▸ member)
    have kept := finishDrives_other outside.1 board
    have finished := finishWrite_congr kept
    have rest : ∀ drive ∈ after,
        (((finishDrives before board).2.finishDrive write.drive).2.drives drive).writing =
          false := by
      intro drive member
      have apart : drive ≠ write.drive := fun equal => outside.2 (equal ▸ member)
      have unseen : drive ∉ before := fun also =>
        (List.disjoint_of_nodup_append distinct) also (List.mem_cons_of_mem _ member)
      rw [finishDrive]
      simp only [finishWrite, setDrive_other _ _ apart, finishDrives_other unseen]
      exact others drive apart
    have all : board.finishAllWrites =
        (((finishDrives before board).2.finishDrive write.drive).1,
          (finishDrives after ((finishDrives before board).2.finishDrive write.drive).2).2) := by
      rw [finishAllWrites, whole, finishDrives_append, finishDrives, quiet]
      simp [finishDrives_resting rest]
    have buffer : ((finishDrives after
        ((finishDrives before board).2.finishDrive write.drive).2).2.drives write.drive).buffer =
          ((board.finishWrite write.drive).2.drives write.drive).buffer := by
      rw [finishDrives_other outside.2, finishDrive]
      exact congrArg Drive.buffer finished.2
    have given := logged.finish_handed chosen buffer
    rw [opened, Option.toList_some] at given
    rw [Dcdd.finishing, all]
    generalize (finishDrives after
      ((finishDrives before board).2.finishDrive write.drive).2).2 = last at given ⊢
    simp only [finishDrive, kept, holds.byte, finished.1, Option.any_some, Option.toList_some]
    by_cases long : dcddSectorLen ≤ write.bytes.length
    · have cursor : dcddSectorLen ≤ min write.bytes.length dcddSectorLen := by omega
      rw [List.filter_cons_of_pos (by simpa using long), List.filter_nil, ← given]
      by_cases none : (board.finishWrite write.drive).1 = .none
      · simp [none, handed]
      · simp [none, cursor]
    · have cursor : ¬ dcddSectorLen ≤ min write.bytes.length dcddSectorLen := by omega
      rw [List.filter_cons_of_neg (by simpa using long)]
      simp [cursor]

/-- In a run that starts no write over an open one, each write with a byte for a writable disk is
given to the machine once it has ended, in order, for the place it was started on and with its
bytes padded to a sector; the end of the session gives the open one if it is whole; and nothing
else is given. -/
theorem writes_given_once {board : Dcdd} (idle : board.Idle) {accesses : List Access}
    (orderly : Orderly (.start board) accesses) :
    (runAll board accesses).given = (runAll board accesses).log.ended.flatMap board.due ∧
    (runAll board accesses).board.finishing =
      ((runAll board accesses).log.open_.toList.filter fun write =>
        decide (dcddSectorLen ≤ write.bytes.length)).flatMap board.due ∧
    ∀ handed ∈ (runAll board accesses).given ++ (runAll board accesses).board.finishing,
      (board.drives handed.drive).writable = true ∧
      ∃ write ∈ (runAll board accesses).log.ended ++ (runAll board accesses).log.open_.toList,
        write.bytes ≠ [] ∧ handed =
          ⟨write.drive, write.track, write.sector, sectorOf write.bytes⟩ := by
  obtain ⟨logged, given⟩ := runAll_accounts idle orderly
  refine ⟨given, logged.finishing, ?_⟩
  rw [given, logged.finishing, ← List.flatMap_append]
  intro handed member
  obtain ⟨write, among, due⟩ := List.mem_flatMap.mp member
  rw [Dcdd.due] at due
  split_ifs at due with both
  · cases List.mem_singleton.mp due
    refine ⟨both.2, write, ?_, both.1, rfl⟩
    rcases List.mem_append.mp among with ended | opened
    · exact List.mem_append_left _ ended
    · exact List.mem_append_right _ (List.mem_filter.mp opened).1
  · cases due

/-- A board with a writable disk in its first drive. -/
def oneFloppy : Dcdd := insertAll [(0, ⟨.eightInch, false⟩)]

/-- The theorem at work: a byte written to the first sector, which the poll then leaves. -/
theorem writes_given_once_one_byte :
    (runAll oneFloppy [.write 0x08 0, .write 0x09 0x84, .write 0x0A 0x11, .read 0x09 []]).given =
      [⟨0, 0, 0, sectorOf [0x11]⟩] :=
  (@writes_given_once oneFloppy (insertAll_idle _)
    [.write 0x08 0, .write 0x09 0x84, .write 0x0A 0x11, .read 0x09 []]
    ⟨by decide, by decide, by decide, by decide, trivial⟩).1

/-- Not every run gives each write once: a second write bit over an open write loses the byte of
the first. -/
theorem write_restarted_lost :
    ¬ ∀ (board : Dcdd) (accesses : List Access), board.Idle →
      (runAll board accesses).given = (runAll board accesses).log.ended.flatMap board.due := by
  intro every
  have same := every oneFloppy
    [.write 0x08 0, .write 0x09 0x84, .write 0x0A 0x11, .write 0x09 0x80, .write 0x0A 0x22,
      .write 0x08 0x80] (insertAll_idle _)
  have lengths := congrArg List.length same
  revert lengths
  decide

end Dcdd

end EthernetGateway.Machine
