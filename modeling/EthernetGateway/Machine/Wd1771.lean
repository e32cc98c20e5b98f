import Mathlib.Data.List.Basic
import Mathlib.Logic.Function.Basic
import Mathlib.Tactic.SplitIfs

/-!
# The Western Digital FD1771

The chip both floppy boards are built on: four registers, a command in progress, and a sector
buffer the guest fills or empties a byte at a time. It knows track, sector and direction, and tells
the board what it needs of the medium; where that lands in an image is the board's geometry.
-/

namespace EthernetGateway.Machine

/-- `SECTOR_LEN`. -/
abbrev fdSectorLen : Nat := 128

/-- `SECTORS_PER_TRACK`. -/
abbrev fdSectorsPerTrack : Nat := 26

/-- `MAX_SECTOR_LEN`. -/
abbrev fdMaxSectorLen : Nat := 512

/-- `ID_FIELD_LEN`. -/
abbrev idFieldLen : Nat := 6

/-- `Need`: what the chip needs the board to do with the medium. -/
inductive Need where
  | none
  | read (track sector : UInt8)
  | write (track sector : UInt8)
  deriving DecidableEq

namespace Wd1771

/-- `reg`: the registers, as the low two bits of the port address select them. -/
inductive Reg where
  | command
  | track
  | sector
  | data
  deriving DecidableEq

/-- The register of a port. -/
def Reg.of (port : UInt8) : Reg :=
  if port &&& 3 = 0 then .command
  else if port &&& 3 = 1 then .track
  else if port &&& 3 = 2 then .sector
  else .data

/-- `Kind`: the families of commands. -/
inductive Kind where
  | one
  | two
  | three
  | four
  deriving DecidableEq

/-- `Kind::of`. -/
def Kind.of (cmd : UInt8) : Kind :=
  if cmd >>> 4 ≤ 7 then .one
  else if cmd >>> 4 ≤ 0xB then .two
  else if cmd >>> 4 = 0xD then .four
  else .three

/-- `Move`. -/
inductive Move where
  | none
  | reading
  | writing
  deriving DecidableEq

/-! ## Status bits

Four of the eight mean something else after a seek than under a transfer. -/

def notReady : UInt8 := 0x80
def writeProtected : UInt8 := 0x40
def writeProtect : UInt8 := 0x40
def headEngaged : UInt8 := 0x20
def writeFault : UInt8 := 0x20
def seekError : UInt8 := 0x10
def recordNotFound : UInt8 := 0x10
def crcError : UInt8 := 0x08
def track0 : UInt8 := 0x04
def lostData : UInt8 := 0x04
def indexPulse : UInt8 := 0x02
def dataRequest : UInt8 := 0x02
def busyBit : UInt8 := 0x01

end Wd1771

open Wd1771 in
/-- `Wd1771`, without its count of idle polls. -/
structure Wd1771 where
  track : UInt8
  sector : UInt8
  data : UInt8
  /-- The command being executed, which the status register is typed by. -/
  cmd : UInt8
  ready : Bool
  readOnly : Bool
  tracks : UInt8
  sectorLen : Nat
  sectorsPerTrack : Nat
  side : UInt8
  /-- Bytes the transfer in flight will move. -/
  xferLen : Nat
  busy : Bool
  drq : Bool
  intrq : Bool
  error : UInt8
  headLoaded : Bool
  index : Bool
  buffer : Nat → UInt8
  pos : Nat
  moving : Move
  multi : Bool
  lastStepIn : Bool

namespace Wd1771

/-- `Wd1771::new`. -/
def new : Wd1771 where
  track := 0
  sector := 1
  data := 0
  cmd := 0
  ready := false
  readOnly := true
  tracks := 77
  sectorLen := fdSectorLen
  sectorsPerTrack := fdSectorsPerTrack
  side := 0
  xferLen := fdSectorLen
  busy := false
  drq := false
  intrq := false
  error := 0
  headLoaded := false
  index := false
  buffer := fun _ => 0
  pos := 0
  moving := .none
  multi := false
  lastStepIn := true

/-- `set_drive`. -/
def setDrive (chip : Wd1771) (ready readOnly : Bool) (tracks : UInt8) : Wd1771 :=
  { chip with ready, readOnly, tracks := max tracks 1 }

/-- `set_format`. -/
def setFormat (chip : Wd1771) (sectorLen sectorsPerTrack : Nat) : Wd1771 :=
  { chip with
    sectorLen := max 1 (min sectorLen fdMaxSectorLen)
    sectorsPerTrack := max sectorsPerTrack 1 }

/-- `set_side`. -/
def setSide (chip : Wd1771) (side : UInt8) : Wd1771 := { chip with side }

/-- `sector_out`. -/
def sectorOut (chip : Wd1771) : List UInt8 :=
  (List.range chip.sectorLen).map chip.buffer

/-- `sector_loaded`. -/
def sectorLoaded (chip : Wd1771) (bytes : List UInt8) : Wd1771 :=
  { chip with
    buffer := fun i => if i < chip.sectorLen then (bytes[i]?).getD 0 else chip.buffer i
    xferLen := chip.sectorLen
    pos := 0
    moving := .reading
    drq := true }

/-- `record_not_found`. -/
def recordMissing (chip : Wd1771) : Wd1771 :=
  { chip with
    error := chip.error ||| recordNotFound
    moving := .none
    drq := false
    busy := false
    intrq := true
    pos := 0 }

/-- `assume_read_completed`. -/
def assumeReadCompleted (chip : Wd1771) (track sector : UInt8) : Wd1771 :=
  { chip with
    cmd := 0x8C, track, sector, headLoaded := true, error := 0, busy := false, drq := false
    intrq := false, moving := .none, multi := false }

/-- A command that is over. -/
def finish (chip : Wd1771) : Wd1771 := { chip with busy := false, intrq := true }

/-- A command that is over with an error. -/
def finishWith (chip : Wd1771) (error : UInt8) : Wd1771 :=
  { chip.finish with error := chip.error ||| error }

/-- `advance_record`: a record is finished, and the next one of the track is started if the
command asked for more than one. -/
def advanceRecord (chip : Wd1771) : Need × Wd1771 :=
  let chip := { chip with pos := 0, drq := false, moving := Move.none }
  let next := chip.sector + 1
  if ¬chip.multi then (.none, chip.finish)
  else if next = 0 ∨ chip.sectorsPerTrack < next.toNat then (.none, chip.finishWith recordNotFound)
  else
    let chip := { chip with sector := next }
    if chip.cmd &&& 0x20 ≠ 0 then (.none, { chip with moving := .writing, drq := true })
    else (.read chip.track chip.sector, chip)

/-- A status bit, when it is raised. -/
def flag (raised : Bool) (bit : UInt8) : UInt8 := if raised then bit else 0

/-- `status`. -/
def status (chip : Wd1771) : UInt8 :=
  match Kind.of chip.cmd with
  | .one | .four =>
    flag (!chip.ready) notReady ||| flag chip.readOnly writeProtected |||
      flag chip.headLoaded headEngaged ||| flag (chip.track = 0) track0 |||
      flag chip.index indexPulse ||| (chip.error &&& (seekError ||| crcError)) |||
      flag chip.busy busyBit
  | .two | .three =>
    flag (!chip.ready) notReady |||
      flag ((chip.cmd >>> 4 = 0xA ∨ chip.cmd >>> 4 = 0xB ∨ chip.cmd >>> 4 = 0xF) ∧ chip.readOnly)
        writeProtect |||
      (chip.error &&& (writeProtect ||| writeFault ||| recordNotFound ||| crcError ||| lostData)) |||
      flag chip.drq dataRequest ||| flag chip.busy busyBit

/-- The byte a transfer is at, which is never past the end of it. -/
def cursor (chip : Wd1771) : Nat := min chip.pos (chip.xferLen - 1)

/-- A read of the data register. -/
def readData (chip : Wd1771) : (UInt8 × Need) × Wd1771 :=
  if chip.moving = .reading then
    let byte := chip.buffer chip.cursor
    let next := { chip with pos := chip.pos + 1 }
    if next.xferLen ≤ next.pos then
      ((byte, next.advanceRecord.1), { next.advanceRecord.2 with data := byte })
    else ((byte, .none), { next with drq := true, data := byte })
  else ((chip.data, .none), chip)

/-- `read`. -/
def read (chip : Wd1771) : Reg → (UInt8 × Need) × Wd1771
  | .command =>
    let typed := Kind.of chip.cmd = .one ∨ Kind.of chip.cmd = .four
    ((chip.status, .none),
      { chip with intrq := false, index := if typed then !chip.index else chip.index })
  | .track => ((chip.track, .none), chip)
  | .sector => ((chip.sector, .none), chip)
  | .data => chip.readData

/-- A write of the data register. -/
def writeData (chip : Wd1771) (value : UInt8) : Need × Wd1771 :=
  let chip := { chip with data := value }
  if chip.moving = .writing then
    let next :=
      { chip with buffer := Function.update chip.buffer chip.cursor value, pos := chip.pos + 1 }
    if next.xferLen ≤ next.pos then (.write chip.track chip.sector, next.advanceRecord.2)
    else (.none, { next with drq := true })
  else (.none, chip)

/-- `step`: the register follows the head only when the update flag says so. -/
def step (chip : Wd1771) (cmd : UInt8) (inward : Bool) : Wd1771 :=
  if cmd &&& 0x10 = 0 then chip
  else if inward then
    { chip with track := min (if chip.track = 255 then 255 else chip.track + 1) (chip.tracks - 1) }
  else { chip with track := if chip.track = 0 then 0 else chip.track - 1 }

/-- The head's movement under a command of the first kind. -/
def seek (chip : Wd1771) (cmd : UInt8) : Wd1771 :=
  if cmd >>> 4 = 0 then { chip with track := 0 }
  else if cmd >>> 4 = 1 then
    if chip.data < chip.tracks then { chip with track := chip.data }
    else { chip with error := chip.error ||| seekError }
  else if cmd >>> 4 ≤ 3 then chip.step cmd chip.lastStepIn
  else if cmd >>> 4 ≤ 5 then { chip with lastStepIn := true }.step cmd true
  else { chip with lastStepIn := false }.step cmd false

/-- The arm of `command` for Restore, Seek and the steps. -/
def commandOne (chip : Wd1771) (cmd : UInt8) : Wd1771 :=
  let moved := { chip with headLoaded := chip.headLoaded || decide (cmd &&& 0x08 ≠ 0) }.seek cmd
  if cmd &&& 0x04 ≠ 0 ∧ ¬chip.ready then moved.finishWith seekError else moved.finish

/-- The arm of `command` for Read Sector and Write Sector. -/
def commandTwo (chip : Wd1771) (cmd : UInt8) : Need × Wd1771 :=
  let writing := cmd &&& 0x20 ≠ 0
  if ¬chip.ready then (.none, chip.finish)
  else if writing ∧ chip.readOnly then (.none, chip.finishWith writeProtect)
  else if chip.sector = 0 ∨ chip.sectorsPerTrack < chip.sector.toNat then
    (.none, chip.finishWith recordNotFound)
  else
    let started :=
      { chip with multi := cmd &&& 0x10 ≠ 0, busy := true, pos := 0, xferLen := chip.sectorLen }
    if writing then (.none, { started with moving := .writing, drq := true })
    else (.read chip.track chip.sector, { started with moving := .none, drq := false })

/-- The ID field a Read Address offers. -/
def idField (chip : Wd1771) : List UInt8 :=
  [chip.track, chip.side, chip.sector,
    if chip.sectorLen ≤ 128 then 0 else if chip.sectorLen ≤ 256 then 1
    else if chip.sectorLen ≤ 512 then 2 else 3, 0, 0]

/-- The arm of `command` for Read Address, Read Track and Write Track. -/
def commandThree (chip : Wd1771) (cmd : UInt8) : Wd1771 :=
  if ¬chip.ready then chip.finish
  else if cmd >>> 4 = 0xC then
    { chip.finish with
      buffer := fun i => (chip.idField[i]?).getD (chip.buffer i)
      pos := 0
      xferLen := idFieldLen
      moving := .reading
      drq := true }
  else chip.finishWith lostData

/-- Force Interrupt. -/
def forceInterrupt (chip : Wd1771) (cmd : UInt8) : Wd1771 :=
  { chip with
    cmd := if chip.busy then chip.cmd else cmd
    error := if chip.busy then chip.error else 0
    busy := false, drq := false, moving := .none, multi := false
    intrq := cmd &&& 0x08 ≠ 0 }

/-- What every other command does first: a transfer still in flight ends, and its bytes are
dropped. -/
def superseded (chip : Wd1771) (cmd : UInt8) : Wd1771 :=
  { chip with
    busy := false, drq := false, moving := .none, multi := false, pos := 0
    cmd, error := 0, intrq := false }

/-- `command`. -/
def command (chip : Wd1771) (cmd : UInt8) : Need × Wd1771 :=
  match Kind.of cmd with
  | .four => (.none, chip.forceInterrupt cmd)
  | .one => (.none, (chip.superseded cmd).commandOne cmd)
  | .two => (chip.superseded cmd).commandTwo cmd
  | .three => (.none, (chip.superseded cmd).commandThree cmd)

/-- `write`. -/
def write (chip : Wd1771) (value : UInt8) : Reg → Need × Wd1771
  | .command => chip.command value
  | .track => (.none, { chip with track := value })
  | .sector => (.none, { chip with sector := value })
  | .data => chip.writeData value

/-! ## A transfer of bytes to the chip -/

/-- What a Write Sector in progress is, the track and sector registers apart. -/
structure Transfer where
  cmd : UInt8
  sectorLen : Nat
  sectorsPerTrack : Nat
  xferLen : Nat
  busy : Bool
  buffer : Nat → UInt8
  pos : Nat
  moving : Move
  multi : Bool

/-- The transfer of a chip. -/
def transfer (chip : Wd1771) : Transfer :=
  ⟨chip.cmd, chip.sectorLen, chip.sectorsPerTrack, chip.xferLen, chip.busy, chip.buffer, chip.pos,
    chip.moving, chip.multi⟩

/-- A transfer to the chip is of one sector of the format it was begun with, under a command that
writes, and one from it is under a command that reads unless it is of one record. -/
structure Sound (chip : Wd1771) : Prop where
  busy : chip.moving = .writing → chip.busy
  inside : chip.moving = .writing → chip.pos < chip.xferLen
  length : chip.moving = .writing → chip.xferLen = chip.sectorLen
  commanded : chip.moving = .writing → chip.cmd &&& 0x20 ≠ 0
  reading : chip.moving = .reading → chip.multi → chip.cmd &&& 0x20 = 0

/-- A chip whose transfer is the same is as sound. -/
theorem Sound.of_transfer {chip next : Wd1771} (sound : chip.Sound)
    (same : next.transfer = chip.transfer) : next.Sound := by
  simp only [transfer, Transfer.mk.injEq] at same
  obtain ⟨cmd, sectorLen, -, xferLen, busy, -, pos, moving, multi⟩ := same
  constructor <;> simp only [cmd, sectorLen, xferLen, busy, pos, moving, multi]
  exacts [sound.busy, sound.inside, sound.length, sound.commanded, sound.reading]

/-- A chip with nothing to transfer is sound, and collects no bytes. -/
theorem sound_of_none {chip : Wd1771} (rest : chip.moving = .none) :
    chip.moving ≠ .writing ∧ chip.Sound := by
  refine ⟨by rw [rest]; decide, ?_⟩
  constructor <;> intro moving <;> rw [rest] at moving <;> cases moving

/-- A chip handed a sector has it to give. -/
theorem sectorLoaded_sound {chip : Wd1771} (reads : chip.multi → chip.cmd &&& 0x20 = 0)
    (bytes : List UInt8) : (chip.sectorLoaded bytes).Sound := by
  constructor
  case reading => exact fun _ multi => reads multi
  all_goals
    intro moving
    cases moving

/-- The end of a record that was read: the next one is asked for, or the command is over. -/
theorem advanceRecord_read {chip : Wd1771} (reads : chip.multi → chip.cmd &&& 0x20 = 0) :
    (chip.advanceRecord.1 = .none ∨ ∃ track sector, chip.advanceRecord.1 = .read track sector) ∧
      chip.advanceRecord.2.moving = .none ∧
      (chip.advanceRecord.2.multi → chip.advanceRecord.2.cmd &&& 0x20 = 0) := by
  unfold advanceRecord
  cases multi : chip.multi with
  | true =>
    have reads := reads multi
    simp only [not_true_eq_false, if_false, ne_eq, reads]
    split
    · exact ⟨.inl rfl, rfl, fun _ => reads⟩
    · exact ⟨.inr ⟨_, _, rfl⟩, rfl, fun _ => reads⟩
  | false =>
    simp only [Bool.false_eq_true, not_false_eq_true, if_true]
    exact ⟨.inl trivial, rfl, fun yes => absurd yes Bool.false_ne_true⟩

/-- The end of a record that was written: the chip collects the next one of the track, or the
command is over. -/
theorem advanceRecord_write {chip : Wd1771} (writes : chip.cmd &&& 0x20 ≠ 0) :
    chip.advanceRecord.2.moving = .none ∨
      chip.multi ∧ chip.sector.toNat + 1 ≤ chip.sectorsPerTrack ∧
        chip.advanceRecord.2 =
          { chip with sector := chip.sector + 1, pos := 0, moving := .writing, drq := true } := by
  unfold advanceRecord
  cases multi : chip.multi with
  | false =>
    simp only [Bool.false_eq_true, not_false_eq_true, if_true]
    exact .inl rfl
  | true =>
    simp only [not_true_eq_false, if_false, ne_eq, writes, not_false_eq_true, if_true]
    split_ifs with last
    · exact .inl rfl
    · refine .inr ⟨trivial, ?_, rfl⟩
      obtain ⟨zero, inside⟩ := not_or.1 last
      have bound := chip.sector.toNat_lt
      have next : (chip.sector + 1).toNat = chip.sector.toNat + 1 := by
        rw [UInt8.toNat_add, UInt8.toNat_one]
        refine Nat.mod_eq_of_lt (Nat.lt_of_le_of_ne (by omega) fun full => zero ?_)
        apply UInt8.toNat_inj.1
        rw [UInt8.toNat_add, UInt8.toNat_one, full]
        rfl
      omega

/-- Finishing a record moves no byte. -/
theorem advanceRecord_kept (chip : Wd1771) :
    chip.advanceRecord.2.buffer = chip.buffer ∧ chip.advanceRecord.2.sectorLen = chip.sectorLen := by
  simp only [advanceRecord]
  split
  · exact ⟨rfl, rfl⟩
  split
  · exact ⟨rfl, rfl⟩
  split <;> exact ⟨rfl, rfl⟩

/-- Reading a register asks nothing of a chip that collects bytes. -/
theorem read_writing {chip : Wd1771} (writing : chip.moving = .writing) (reg : Reg) :
    (chip.read reg).1.2 = .none ∧ (chip.read reg).2.transfer = chip.transfer ∧
      (chip.read reg).2.track = chip.track ∧ (chip.read reg).2.sector = chip.sector := by
  cases reg with
  | command => exact ⟨rfl, rfl, rfl, rfl⟩
  | track => exact ⟨rfl, rfl, rfl, rfl⟩
  | sector => exact ⟨rfl, rfl, rfl, rfl⟩
  | data => simp [read, readData, writing]

/-- Reading a register of any other chip leaves it collecting none. -/
theorem read_rest {chip : Wd1771} (sound : chip.Sound) (rest : chip.moving ≠ .writing)
    (reg : Reg) :
    ((chip.read reg).1.2 = .none ∧ (chip.read reg).2.moving ≠ .writing ∧
        (chip.read reg).2.Sound) ∨
      ∃ track sector, (chip.read reg).1.2 = .read track sector ∧
        (chip.read reg).2.moving = .none ∧
        ((chip.read reg).2.multi → (chip.read reg).2.cmd &&& 0x20 = 0) := by
  cases reg with
  | command => exact .inl ⟨rfl, rest, sound.of_transfer rfl⟩
  | track => exact .inl ⟨rfl, rest, sound⟩
  | sector => exact .inl ⟨rfl, rest, sound⟩
  | data =>
    simp only [read, readData]
    split_ifs with reading last
    · obtain ⟨need, moving, reads⟩ :=
        @advanceRecord_read { chip with pos := chip.pos + 1 } (sound.reading reading)
      rcases need with none | ⟨track, sector, read⟩
      · exact .inl ⟨none, sound_of_none moving⟩
      · exact .inr ⟨track, sector, read, moving, reads⟩
    · refine .inl ⟨rfl, rest, ?_⟩
      constructor
      case reading => exact fun moving => sound.reading moving
      all_goals exact fun moving => absurd moving rest
    · exact .inl ⟨rfl, rest, sound⟩

/-- A byte for a chip that collects none. -/
theorem writeData_rest {chip : Wd1771} (rest : chip.moving ≠ .writing) (value : UInt8) :
    chip.writeData value = (.none, { chip with data := value }) := by
  simp only [writeData, rest, if_false]

/-- A chip with one more byte of its sector. -/
def taken (chip : Wd1771) (value : UInt8) : Wd1771 :=
  { chip with
    data := value, buffer := Function.update chip.buffer chip.pos value, pos := chip.pos + 1 }

/-- A byte for a chip that collects more of them. -/
theorem writeData_more {chip : Wd1771} (writing : chip.moving = .writing)
    (more : chip.pos + 1 < chip.xferLen) (value : UInt8) :
    chip.writeData value =
      (.none, { chip.taken value with drq := true }) := by
  have cursor : min chip.pos (chip.xferLen - 1) = chip.pos := by omega
  simp only [writeData, writing, if_true, Nat.not_le.2 more, if_false, Wd1771.cursor, cursor, taken]

/-- The last byte a chip collects for a sector. -/
theorem writeData_last {chip : Wd1771} (writing : chip.moving = .writing)
    (last : chip.pos + 1 = chip.xferLen) (value : UInt8) :
    chip.writeData value =
      (.write chip.track chip.sector, (chip.taken value).advanceRecord.2) := by
  have cursor : min chip.pos (chip.xferLen - 1) = chip.pos := by omega
  simp only [writeData, writing, if_true, last, Nat.le_refl, Wd1771.cursor, cursor, taken]

/-- A chip that a Write Sector has just made collect bytes. -/
structure Begun (chip next : Wd1771) (cmd : UInt8) : Prop where
  command : Kind.of cmd = .two ∧ cmd &&& 0x20 ≠ 0
  transfer : next.transfer =
    ⟨cmd, chip.sectorLen, chip.sectorsPerTrack, chip.sectorLen, true, chip.buffer, 0, .writing,
      cmd &&& 0x10 ≠ 0⟩
  track : next.track = chip.track
  sector : next.sector = chip.sector

/-- Stepping the head does not begin a transfer. -/
theorem seek_moving (chip : Wd1771) (cmd : UInt8) : (chip.seek cmd).moving = chip.moving := by
  unfold seek step
  split_ifs <;> rfl

/-- A Read Address offers its bytes, and is of one record. -/
theorem commandThree_rest {chip : Wd1771} (rest : chip.moving = .none) (single : chip.multi = false)
    (cmd : UInt8) :
    (chip.commandThree cmd).moving ≠ .writing ∧ (chip.commandThree cmd).Sound := by
  unfold commandThree
  split
  · exact sound_of_none rest
  split
  · refine ⟨by simp, ?_⟩
    constructor
    case reading => exact fun _ multi => absurd (single.symm.trans multi) Bool.false_ne_true
    all_goals exact fun moving => absurd moving (by simp)
  · exact sound_of_none rest

/-- A command leaves the chip collecting bytes only when it is a Write Sector, and asks for
nothing but a sector to read. -/
theorem command_cases (chip : Wd1771) (cmd : UInt8) :
    ((chip.command cmd).1 = .none ∧ (chip.command cmd).2.moving ≠ .writing ∧
        (chip.command cmd).2.Sound) ∨
      (∃ track sector, (chip.command cmd).1 = .read track sector ∧
        (chip.command cmd).2.moving = .none ∧
        ((chip.command cmd).2.multi → (chip.command cmd).2.cmd &&& 0x20 = 0)) ∨
      (chip.command cmd).1 = .none ∧ Begun chip (chip.command cmd).2 cmd := by
  unfold command
  cases kind : Kind.of cmd with
  | four => exact .inl ⟨rfl, sound_of_none rfl⟩
  | one =>
    refine .inl ⟨rfl, sound_of_none ?_⟩
    simp only [commandOne]
    split
    · exact seek_moving _ cmd
    · exact seek_moving _ cmd
  | three => exact .inl ⟨rfl, @commandThree_rest (chip.superseded cmd) rfl rfl cmd⟩
  | two =>
    simp only [commandTwo]
    split
    · exact .inl ⟨rfl, sound_of_none rfl⟩
    split
    · exact .inl ⟨rfl, sound_of_none rfl⟩
    split
    · exact .inl ⟨rfl, sound_of_none rfl⟩
    by_cases writing : cmd &&& 0x20 ≠ 0
    · rw [if_pos writing]
      exact .inr (.inr ⟨rfl, ⟨kind, writing⟩, rfl, rfl, rfl⟩)
    · rw [if_neg writing]
      exact .inr (.inl ⟨_, _, rfl, rfl, fun _ => not_not.1 writing⟩)

/-! ## The format a chip was told -/

/-- A chip told of the same format. -/
def SameFormat (chip next : Wd1771) : Prop :=
  next.sectorLen = chip.sectorLen ∧ next.sectorsPerTrack = chip.sectorsPerTrack

theorem advanceRecord_format (chip : Wd1771) : chip.SameFormat chip.advanceRecord.2 := by
  simp only [advanceRecord]
  split
  · exact ⟨rfl, rfl⟩
  split
  · exact ⟨rfl, rfl⟩
  split <;> exact ⟨rfl, rfl⟩

/-- The chip never changes the format it was told. -/
theorem read_format (chip : Wd1771) (reg : Reg) : chip.SameFormat (chip.read reg).2 := by
  cases reg with
  | data =>
    simp only [read, readData]
    split
    · split
      · exact advanceRecord_format { chip with pos := chip.pos + 1 }
      · exact ⟨rfl, rfl⟩
    · exact ⟨rfl, rfl⟩
  | command | track | sector => exact ⟨rfl, rfl⟩

theorem seek_format (chip : Wd1771) (cmd : UInt8) : chip.SameFormat (chip.seek cmd) := by
  unfold seek step
  split_ifs <;> exact ⟨rfl, rfl⟩

theorem command_format (chip : Wd1771) (cmd : UInt8) : chip.SameFormat (chip.command cmd).2 := by
  unfold command
  cases Kind.of cmd with
  | four => exact ⟨rfl, rfl⟩
  | one =>
    simp only [commandOne]
    split
    · exact seek_format _ cmd
    · exact seek_format _ cmd
  | three =>
    simp only [commandThree]
    split
    · exact ⟨rfl, rfl⟩
    split <;> exact ⟨rfl, rfl⟩
  | two =>
    simp only [commandTwo]
    split
    · exact ⟨rfl, rfl⟩
    split
    · exact ⟨rfl, rfl⟩
    split
    · exact ⟨rfl, rfl⟩
    split <;> exact ⟨rfl, rfl⟩

theorem write_format (chip : Wd1771) (value : UInt8) (reg : Reg) :
    chip.SameFormat (chip.write value reg).2 := by
  cases reg with
  | command => exact command_format chip value
  | data =>
    simp only [write, writeData]
    split
    · split
      · exact advanceRecord_format _
      · exact ⟨rfl, rfl⟩
    · exact ⟨rfl, rfl⟩
  | track | sector => exact ⟨rfl, rfl⟩

end Wd1771

end EthernetGateway.Machine
