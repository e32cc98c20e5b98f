import EthernetGateway.Machine.Floppy

/-!
# A board follows the sector in flight

What a floppy board does at its ports, whatever its geometry: it answers what its chip needs with
a request of the machine, and holds the drive and side of the command in progress. From that
alone, a chip that collects bytes collects them for the sector in flight, and writes that sector
when it is full.
-/

namespace EthernetGateway.Machine

open Wd1771 (Reg Kind Move)

/-- A buffer filled in order, and one byte more. -/
theorem range_map_update {buffer : Nat → UInt8} {bytes : List UInt8}
    (filled : ∀ i (inside : i < bytes.length), buffer i = bytes[i]) (byte : UInt8) :
    (List.range (bytes.length + 1)).map (Function.update buffer bytes.length byte) =
      bytes ++ [byte] := by
  refine List.ext_getElem (by simp) fun i inside inside' => ?_
  rw [List.getElem_map, List.getElem_range]
  rcases Nat.lt_or_ge i bytes.length with before | behind
  · rw [Function.update_of_ne before.ne, List.getElem_append_left before, filled i before]
  · have here : i = bytes.length := by
      rw [List.length_append, List.length_singleton] at inside'
      omega
    subst here
    simp

section Boards

variable {β : Type} [FloppyBoard β]

open FloppyBoard (chip trackAt register latched)

/-- Where a sector is in an image, and how long it is. -/
def sectorPlace (board : β) (drive side : Nat) (track sector : UInt8) : Option (Nat × Nat) :=
  (trackAt board drive side track).bind fun format =>
    (format.place sector).map fun place => (place, format.len)

/-- What a board asks of the machine for what its chip needs. -/
def Answers (board : β) (held : Option (Nat × Nat)) (need : Need) (next : Wd1771)
    (request : HostRequest) (after : β) : Prop :=
  match need with
  | .none => request = .none ∧ chip after = next
  | .read _ _ =>
    request = .none ∧ chip after = next.recordMissing ∨
      (∃ drive place len, request = .read drive place len ∨ request = .readAhead drive place len) ∧
        chip after = next
  | .write track sector => ∀ drive side, held = some (drive, side) →
    (sectorPlace board drive side track sector).elim
      (request = .none ∧ chip after = next.recordMissing) fun place =>
        request = .write drive place.1 place.2 ∧ chip after = next

/-- Only the chip of the board after counts. -/
theorem Answers.of_chip {board after other : β} {held : Option (Nat × Nat)} {need : Need}
    {next : Wd1771} {request : HostRequest} (answers : Answers board held need next request after)
    (same : chip other = chip after) : Answers board held need next request other := by
  unfold Answers at answers ⊢
  rwa [same]

/-- A chip that has been told about its drive and side, and, unless it is busy, about the track
under the head. -/
structure Refreshed (chip next : Wd1771) : Prop where
  same : ∃ ready readOnly tracks side sectorLen sectorsPerTrack,
    next = { chip with ready, readOnly, tracks, side, sectorLen, sectorsPerTrack }
  busy : chip.busy →
    next.sectorLen = chip.sectorLen ∧ next.sectorsPerTrack = chip.sectorsPerTrack

/-- What a floppy board does at its ports. -/
structure Lawful (Valid : β → Prop) : Prop where
  loaded : ∀ board drive bytes, Valid board →
    Valid (Controller.bufferLoaded board drive bytes) ∧
      chip (Controller.bufferLoaded board drive bytes) = (chip board).sectorLoaded bytes ∧
      latched (Controller.bufferLoaded board drive bytes) = latched board ∧
      trackAt (Controller.bufferLoaded board drive bytes) = trackAt board
  buffer : ∀ (board : β) drive, Controller.buffer board drive = some (chip board).sectorOut
  ahead : ∀ (board : β) port drive place len,
    (Controller.portIn board port).1.2 ≠ .read drive place len
  inputOther : ∀ (board : β) port, register β port = none →
    (Controller.portIn board port).1.2 = .none ∧ (Controller.portIn board port).2 = board
  input : ∀ (board : β) port reg, register β port = some reg → Valid board →
    let out := (chip board).read reg
    let done := Controller.portIn board port
    Answers board (latched board) out.1.2 out.2 done.1.2 done.2 ∧ Valid done.2 ∧
      trackAt done.2 = trackAt board ∧
      ((chip done.2).busy → latched done.2 = latched board)
  outputOther : ∀ (board : β) port value, register β port = none → Valid board →
    let done := Controller.portOut board port value
    done.1 = .none ∧ Valid done.2 ∧ Refreshed (chip board) (chip done.2) ∧
      trackAt done.2 = trackAt board ∧ latched done.2 = latched board
  output : ∀ (board : β) port value reg, register β port = some reg → reg ≠ .command →
    Valid board →
    let out := (chip board).write value reg
    let done := Controller.portOut board port value
    Answers board (latched board) out.1 out.2 done.1 done.2 ∧ Valid done.2 ∧
      trackAt done.2 = trackAt board ∧
      ((chip done.2).busy → latched done.2 = latched board)
  command : ∀ (board : β) port value, register β port = some .command → Valid board →
    ∃ told : Wd1771,
      let out := told.command value
      let done := Controller.portOut board port value
      told.track = (chip board).track ∧ told.sector = (chip board).sector ∧ 0 < told.sectorLen ∧
      (∀ format, trackAt board (FloppyBoard.drive board) (FloppyBoard.side board) told.track =
        some format → told.sectorLen = format.len ∧ told.sectorsPerTrack = format.count) ∧
      (∃ held, Answers board held out.1 out.2 done.1 done.2) ∧ Valid done.2 ∧
      trackAt done.2 = trackAt board ∧
      ((chip done.2).busy →
        latched done.2 = some (FloppyBoard.drive board, FloppyBoard.side board))

/-- A board that collects the sector asked for. -/
structure Collects (board : β) (asked : Flight) : Prop where
  latched : latched board = some (asked.drive, asked.side)
  multi : (chip board).multi = asked.multi
  count : (chip board).pos = asked.bytes.length
  bytes : ∀ i (inside : i < asked.bytes.length), (chip board).buffer i = asked.bytes[i]
  format : ∀ format, asked.format board = some format →
    (chip board).xferLen = format.len ∧ (chip board).sectorsPerTrack = format.count

/-- A board whose chip collects bytes only for the sector in flight. -/
structure Follows (Valid : β → Prop) (board : β) (flight : Option Flight) : Prop where
  valid : Valid board
  sound : (chip board).Sound
  collects : (chip board).moving = .writing → ∃ asked, flight = some asked ∧ Collects board asked

/-! ## One step -/

section Step

variable {Valid : β → Prop} (laws : Lawful Valid) {machine : BootMachine β}
  {flight : Option Flight}

/-- A chip that collects no bytes follows every sector in flight. -/
theorem follows_of_rest {board : β} (valid : Valid board) (sound : (chip board).Sound)
    (idle : (chip board).moving ≠ .writing) (flight : Option Flight) :
    Follows Valid board flight :=
  ⟨valid, sound, fun writing => absurd writing idle⟩

include laws in
/-- A sector the chip needs to read comes, or is missing; either way it collects no bytes. -/
theorem served_read {board after : β} {track sector : UInt8} {next : Wd1771}
    {request : HostRequest} {held : Option (Nat × Nat)}
    (answers : Answers board held (.read track sector) next request after)
    (valid : Valid after) (reads : next.multi → next.cmd &&& 0x20 = 0)
    (flight : Option Flight) :
    ({ machine with board := after }.service request).disks = machine.disks ∧
      Follows Valid ({ machine with board := after }.service request).board flight := by
  obtain ⟨rfl, missing⟩ | ⟨⟨drive, place, len, fetched⟩, chipped⟩ := answers
  · obtain ⟨still, sound⟩ := @Wd1771.sound_of_none next.recordMissing rfl
    rw [BootMachine.service_none]
    exact ⟨rfl, follows_of_rest valid (by rw [missing]; exact sound) (by rw [missing]; exact still)
      flight⟩
  · have served : { machine with board := after }.service request =
        { machine with board := after }.load drive place len := by
      rcases fetched with rfl | rfl <;> rfl
    rw [served]
    refine ⟨rfl, ?_⟩
    obtain ⟨valid', chip', -, -⟩ := laws.loaded after drive
      (((machine.disks drive).bind fun image => image.get place len).getD
        (List.replicate len 0xE5)) valid
    refine follows_of_rest valid' ?_ ?_ flight
    · simp only [chip', chipped]
      exact Wd1771.sectorLoaded_sound reads _
    · simp only [chip', chipped, Wd1771.sectorLoaded]
      decide

/-- A board whose transfer, latch and tracks are the same collects the same. -/
theorem Collects.of_same {board after : β} {asked : Flight} (collects : Collects board asked)
    (transfer : (chip after).transfer = (chip board).transfer)
    (held : FloppyBoard.latched after = FloppyBoard.latched board)
    (tracks : trackAt after = trackAt board) : Collects after asked := by
  simp only [Wd1771.transfer, Wd1771.Transfer.mk.injEq] at transfer
  obtain ⟨-, -, spt, xferLen, -, buffer, pos, -, multi⟩ := transfer
  exact
    { latched := held.trans collects.latched
      multi := multi.trans collects.multi
      count := pos.trans collects.count
      bytes := by rw [buffer]; exact collects.bytes
      format := by
        unfold Flight.format
        rw [tracks, xferLen, spt]
        exact collects.format }

include laws in
/-- A port read changes no image. -/
theorem input_follows (follows : Follows Valid machine.board flight) (port : UInt8) :
    (machine.portIn port).2.disks = machine.disks ∧
      Follows Valid (machine.portIn port).2.board flight := by
  rw [BootMachine.portIn_ahead (laws.ahead machine.board port)]
  cases reg : register β port with
  | none =>
    obtain ⟨quiet, same⟩ := laws.inputOther machine.board port reg
    rw [quiet, same, BootMachine.service_none]
    exact ⟨rfl, follows⟩
  | some reg' =>
    obtain ⟨answers, valid, tracks, held⟩ := laws.input machine.board port reg' reg follows.valid
    by_cases writing : (chip machine.board).moving = .writing
    · obtain ⟨need, transfer, -, -⟩ := Wd1771.read_writing writing reg'
      rw [need] at answers
      obtain ⟨quiet, chipped⟩ := answers
      rw [quiet, BootMachine.service_none]
      have same : (chip (Controller.portIn machine.board port).2).transfer =
          (chip machine.board).transfer := by rw [chipped, transfer]
      have busy : (chip (Controller.portIn machine.board port).2).busy :=
        (congrArg Wd1771.Transfer.busy same).trans (follows.sound.busy writing)
      obtain ⟨asked, isAsked, collects⟩ := follows.collects writing
      exact ⟨rfl, valid, follows.sound.of_transfer same, fun _ =>
        ⟨asked, isAsked, collects.of_same same (held busy) tracks⟩⟩
    · rcases Wd1771.read_rest follows.sound writing reg' with
        ⟨need, rest, sound⟩ | ⟨track, sector, need, -, reads⟩
      · rw [need] at answers
        obtain ⟨quiet, chipped⟩ := answers
        rw [quiet, BootMachine.service_none]
        exact ⟨rfl, follows_of_rest valid (by rw [chipped]; exact sound)
          (by rw [chipped]; exact rest) flight⟩
      · rw [need] at answers
        exact served_read laws answers valid reads flight

/-- A byte that does not fill the sector. -/
theorem Flight.collect_more {board : β} {asked : Flight} {byte : UInt8}
    (more : ∀ format, asked.format board = some format → asked.bytes.length + 1 < format.len) :
    asked.collect board byte = some { asked with bytes := asked.bytes ++ [byte] } := by
  unfold Flight.collect
  cases there : asked.format board with
  | none => rfl
  | some format =>
    simp only [Option.elim_some, List.length_append, List.length_singleton, more format there,
      if_true]

/-- A byte that fills a sector with another behind it. -/
theorem Flight.collect_next {board : β} {asked : Flight} {byte : UInt8} {format : TrackFormat}
    (there : asked.format board = some format) (full : format.len = asked.bytes.length + 1)
    (multi : asked.multi) (behind : asked.sector.toNat + 1 ≤ format.count) :
    asked.collect board byte = some { asked with sector := asked.sector + 1, bytes := [] } := by
  simp only [Flight.collect, there, Option.elim_some, List.length_append, List.length_singleton,
    full, Nat.lt_irrefl, if_false, multi, behind, and_self, if_true]

/-- A byte for a board that collects more. -/
theorem data_more {board after : β} {asked : Flight} {value : UInt8}
    (collects : Collects board asked) (sound : (chip board).Sound)
    (writing : (chip board).moving = .writing)
    (more : (chip board).pos + 1 < (chip board).xferLen)
    (chipped : chip after = ((chip board).writeData value).2)
    (held : latched after = latched board) (tracks : trackAt after = trackAt board) :
    (chip after).Sound ∧ ∃ next, asked.collect board value = some next ∧ Collects after next := by
  rw [Wd1771.writeData_more writing more] at chipped
  refine ⟨?_, _, Flight.collect_more fun format there => ?_, ?_⟩
  · rw [chipped]
    exact ⟨sound.busy, fun _ => more, sound.length, sound.commanded, sound.reading⟩
  · rw [← collects.count, ← (collects.format format there).1]
    exact more
  · constructor
    · exact held.trans collects.latched
    · rw [chipped]
      exact collects.multi
    · rw [chipped, List.length_append, ← collects.count]
      rfl
    · intro i inside
      rw [chipped]
      simp only [Wd1771.taken]
      rcases Nat.lt_or_ge i asked.bytes.length with before | behind
      · rw [collects.count, Function.update_of_ne before.ne, List.getElem_append_left before,
          collects.bytes i before]
      · have here : i = asked.bytes.length := by
          simp only [List.length_append, List.length_singleton] at inside
          omega
        subst here
        rw [collects.count]
        simp
    · intro format there
      unfold Flight.format at there
      rw [tracks] at there
      rw [chipped]
      exact collects.format format there

/-- The last byte of a sector, for a board whose registers are held: the board asks for that
sector to be written, if there is one, and collects the next one of the track or none. -/
theorem data_last {board after : β} {asked : Flight} {value : UInt8} {request : HostRequest}
    (collects : Collects board asked) (sound : (chip board).Sound)
    (writing : (chip board).moving = .writing)
    (last : (chip board).pos + 1 = (chip board).xferLen)
    (track : (chip board).track = asked.track) (sector : (chip board).sector = asked.sector)
    (answers : Answers board (latched board) ((chip board).writeData value).1
      ((chip board).writeData value).2 request after)
    (held : (chip after).busy → latched after = latched board)
    (tracks : trackAt after = trackAt board) :
    ((chip after).moving = .none ∨
        ∃ next, asked.collect board value = some next ∧ Collects after next ∧ (chip after).Sound) ∧
      (request = .none ∨ ∃ format place, asked.format board = some format ∧
        format.place asked.sector = some place ∧
        (asked.bytes ++ [value]).length = format.len ∧
        request = .write asked.drive place format.len ∧
        (chip after).sectorOut = asked.bytes ++ [value]) := by
  rw [Wd1771.writeData_last writing last] at answers
  obtain ⟨drive, side, track', sector', multi, bytes⟩ := asked
  have count : (chip board).pos = bytes.length := collects.count
  have placed := answers drive side collects.latched
  simp only at track sector
  subst track sector
  unfold sectorPlace at placed
  cases there : trackAt board drive side (chip board).track with
  | none =>
    rw [there] at placed
    obtain ⟨quiet, missing⟩ := placed
    exact ⟨.inl (by rw [missing]; rfl), .inl quiet⟩
  | some format =>
    have format_eq := collects.format format there
    rw [there, Option.bind_some] at placed
    cases located : format.place (chip board).sector with
    | none =>
      rw [located] at placed
      obtain ⟨quiet, missing⟩ := placed
      exact ⟨.inl (by rw [missing]; rfl), .inl quiet⟩
    | some place =>
      rw [located] at placed
      obtain ⟨asks, chipped⟩ := placed
      simp only at chipped
      obtain ⟨buffer, sectorLen⟩ := ((chip board).taken value).advanceRecord_kept
      have len : format.len = bytes.length + 1 := by
        rw [← format_eq.1, ← last, count]
      refine ⟨?_, .inr ⟨format, place, there, located, ?_, asks, ?_⟩⟩
      · rcases @Wd1771.advanceRecord_write ((chip board).taken value) (sound.commanded writing) with
          rest | ⟨more, behind, next⟩
        · exact .inl (by rw [chipped]; exact rest)
        · rw [next] at chipped
          have busy : (chip after).busy := by rw [chipped]; exact sound.busy writing
          have inside : 0 < (chip board).xferLen := Nat.zero_lt_of_lt (sound.inside writing)
          refine .inr ⟨_, Flight.collect_next there len (collects.multi.symm.trans more)
            (format_eq.2 ▸ behind), ?_, ?_⟩
          · exact
              { latched := (held busy).trans collects.latched
                multi := by rw [chipped]; exact collects.multi
                count := by rw [chipped]; rfl
                bytes := fun i inside => absurd inside (Nat.not_lt_zero i)
                format := by
                  unfold Flight.format
                  rw [tracks, chipped]
                  exact collects.format }
          · rw [chipped]
            exact
              { busy := fun _ => sound.busy writing, inside := fun _ => inside
                length := fun _ => sound.length writing
                commanded := fun _ => sound.commanded writing
                reading := fun reading => nomatch reading }
      · rw [List.length_append, List.length_singleton, len]
      · have length : (chip board).sectorLen = bytes.length + 1 := by
          rw [← sound.length writing, ← last, count]
        rw [chipped, Wd1771.sectorOut, buffer, sectorLen]
        simp only [Wd1771.taken, length, count]
        exact range_map_update collects.bytes value

theorem next_data {board : β} {port value : UInt8} (reg : register β port = some .data) :
    Flight.next board flight (.output port value) =
      flight.bind fun asked => asked.collect board value := by
  simp only [Flight.next, reg]

include laws in
/-- A byte for the data register writes as asked. -/
theorem data_written (follows : Follows Valid machine.board flight) {port value : UInt8}
    (reg : register β port = some .data)
    (registers : RegistersHeld machine.board flight (.output port value)) :
    WrittenAsAsked machine flight (.output port value) ∧
      Follows Valid (machine.portOut port value).board
        (Flight.next machine.board flight (.output port value)) := by
  obtain ⟨answers, valid, tracks, held⟩ :=
    laws.output machine.board port value .data reg (by decide) follows.valid
  rw [next_data reg]
  unfold WrittenAsAsked
  simp only [BootMachine.access, BootMachine.portOut]
  generalize (Controller.portOut machine.board port value).1 = request at *
  generalize (Controller.portOut machine.board port value).2 = after at *
  simp only [Wd1771.write] at answers
  by_cases writing : (chip machine.board).moving = .writing
  · obtain ⟨asked, rfl, collects⟩ := follows.collects writing
    have sound := follows.sound
    rcases Nat.lt_or_ge ((chip machine.board).pos + 1) (chip machine.board).xferLen with more | full
    · have writes := Wd1771.writeData_more writing more value
      rw [writes] at answers
      obtain ⟨rfl, chipped⟩ := answers
      have busy : (chip after).busy := by rw [chipped]; exact sound.busy writing
      have chipped' : chip after = ((chip machine.board).writeData value).2 := by
        rw [writes, chipped]
      obtain ⟨sound', next, collected, collects'⟩ := data_more collects sound writing more chipped'
        (held busy) tracks
      exact ⟨.inl rfl, valid, sound', fun _ => ⟨next, collected, collects'⟩⟩
    · have last : (chip machine.board).pos + 1 = (chip machine.board).xferLen :=
        Nat.le_antisymm (sound.inside writing) full
      obtain ⟨track, sector⟩ := registers reg writing last asked rfl
      obtain ⟨follows', written⟩ :=
        data_last collects sound writing last track sector answers held tracks
      have follows'' : Follows Valid after (asked.collect machine.board value) := by
        rcases follows' with rest | ⟨next, collected, collects', sound'⟩
        · obtain ⟨idle, sound'⟩ := Wd1771.sound_of_none rest
          exact follows_of_rest valid sound' idle _
        · exact ⟨valid, sound', fun _ => ⟨next, collected, collects'⟩⟩
      rcases written with rfl | ⟨format, place, there, located, length, rfl, buffer⟩
      · exact ⟨.inl rfl, follows''⟩
      · obtain ⟨board, disks⟩ :=
          { machine with board := after }.store_cases asked.drive place format.len
        simp only [BootMachine.service]
        refine ⟨?_, by rw [board]; exact follows''⟩
        rcases disks with same | ⟨held', image, isHeld, slot, unlocked, put⟩
        · exact .inl same
        · rw [laws.buffer, buffer, Option.some.injEq] at isHeld
          subst isHeld
          rw [List.take_of_length_le (Nat.le_of_eq length)] at put
          exact .inr ⟨asked, format, place, port, value, image, rfl, rfl, reg, there, located, length,
            slot, unlocked, put⟩
  · rw [Wd1771.writeData_rest writing] at answers
    obtain ⟨rfl, chipped⟩ := answers
    refine ⟨.inl rfl, follows_of_rest valid ?_ ?_ _⟩
    · rw [chipped]
      exact follows.sound.of_transfer rfl
    · rw [chipped]
      exact writing

include laws in
/-- A write to any port but those of the data and command registers writes nothing. -/
theorem other_written (follows : Follows Valid machine.board flight) {port value : UInt8}
    (reg : register β port ≠ some .data) (reg' : register β port ≠ some .command) :
    (machine.portOut port value).disks = machine.disks ∧
      Follows Valid (machine.portOut port value).board flight := by
  simp only [BootMachine.portOut]
  cases isReg : register β port with
  | none =>
    obtain ⟨quiet, valid, ⟨⟨ready, readOnly, trackCount, side, sectorLen, count, chipped⟩, format⟩,
      tracks, held⟩ := laws.outputOther machine.board port value isReg follows.valid
    rw [quiet, BootMachine.service_none]
    refine ⟨rfl, ?_⟩
    by_cases writing : (chip machine.board).moving = .writing
    · obtain ⟨asked, isAsked, collects⟩ := follows.collects writing
      obtain ⟨len, count'⟩ := format (follows.sound.busy writing)
      rw [chipped] at len count'
      simp only at len count'
      subst len count'
      have same : (chip (Controller.portOut machine.board port value).2).transfer =
          (chip machine.board).transfer := by rw [chipped]; rfl
      exact ⟨valid, follows.sound.of_transfer same, fun _ =>
        ⟨asked, isAsked, collects.of_same same held tracks⟩⟩
    · refine follows_of_rest valid ?_ ?_ flight
      · rw [chipped]
        exact
          { busy := fun moving => absurd moving writing
            inside := fun moving => absurd moving writing
            length := fun moving => absurd moving writing
            commanded := fun moving => absurd moving writing
            reading := follows.sound.reading }
      · rw [chipped]
        exact writing
  | some other =>
    obtain ⟨answers, valid, tracks, held⟩ :=
      laws.output machine.board port value other isReg (fun is => reg' (by rw [isReg, is]))
        follows.valid
    have quiet : ((chip machine.board).write value other).1 = .none ∧
        ((chip machine.board).write value other).2.transfer = (chip machine.board).transfer := by
      cases other with
      | command => exact absurd isReg reg'
      | data => exact absurd isReg reg
      | track => exact ⟨rfl, rfl⟩
      | sector => exact ⟨rfl, rfl⟩
    rw [quiet.1] at answers
    obtain ⟨none, chipped⟩ := answers
    rw [none, BootMachine.service_none]
    have same : (chip (Controller.portOut machine.board port value).2).transfer =
        (chip machine.board).transfer := by rw [chipped, quiet.2]
    refine ⟨rfl, valid, follows.sound.of_transfer same, fun moving => ?_⟩
    have writing : (chip machine.board).moving = .writing :=
      (congrArg Wd1771.Transfer.moving same).symm.trans moving
    obtain ⟨asked, isAsked, collects⟩ := follows.collects writing
    have busy : (chip (Controller.portOut machine.board port value).2).busy :=
      (congrArg Wd1771.Transfer.busy same).trans (follows.sound.busy writing)
    exact ⟨asked, isAsked, collects.of_same same (held busy) tracks⟩

include laws in
/-- A command writes nothing. -/
theorem command_written (follows : Follows Valid machine.board flight) {port value : UInt8}
    (reg : register β port = some .command) :
    (machine.portOut port value).disks = machine.disks ∧
      Follows Valid (machine.portOut port value).board
        (Flight.next machine.board flight (.output port value)) := by
  obtain ⟨told, track, sector, some, format, ⟨_, answers⟩, valid, tracks, held⟩ :=
    laws.command machine.board port value reg follows.valid
  simp only [BootMachine.portOut]
  rcases told.command_cases value with
    ⟨need, idle, sound⟩ | ⟨track', sector', need, -, reads⟩ | ⟨need, begun⟩
  · rw [need] at answers
    obtain ⟨none, chipped⟩ := answers
    rw [none, BootMachine.service_none]
    exact ⟨rfl, follows_of_rest valid (by rw [chipped]; exact sound) (by rw [chipped]; exact idle) _⟩
  · rw [need] at answers
    exact served_read laws answers valid reads _
  · rw [need] at answers
    obtain ⟨none, chipped⟩ := answers
    rw [none, BootMachine.service_none]
    have transfer := begun.transfer
    simp only [Wd1771.transfer, Wd1771.Transfer.mk.injEq] at transfer
    obtain ⟨cmd, sectorLen, count, xferLen, busy, buffer, pos, moving, multi⟩ := transfer
    have isWrite : IsWriteSector value := begun.command
    refine ⟨rfl, valid, ?_, fun _ => ⟨_, by simp only [Flight.next, reg, if_pos isWrite]; rfl, ?_⟩⟩
    · rw [chipped]
      exact
        { busy := fun _ => busy
          inside := fun _ => by rw [pos, xferLen]; exact some
          length := fun _ => xferLen.trans sectorLen.symm
          commanded := fun _ => by rw [cmd]; exact isWrite.2
          reading := fun reading => absurd (moving.symm.trans reading) (by decide) }
    · exact
        { latched := held (by rw [chipped]; exact busy)
          multi := by rw [chipped, multi]
          count := by rw [chipped, pos]; rfl
          bytes := fun i inside => absurd inside (Nat.not_lt_zero i)
          format := by
            unfold Flight.format
            rw [tracks, chipped, xferLen, count]
            rw [track] at format
            exact format }

include laws in
/-- A step writes as asked, if the registers are held. -/
theorem access_written (follows : Follows Valid machine.board flight) {op : PortOp}
    (registers : RegistersHeld machine.board flight op) :
    WrittenAsAsked machine flight op ∧
      Follows Valid (machine.access op).board (Flight.next machine.board flight op) := by
  cases op with
  | input port =>
    obtain ⟨disks, follows'⟩ := input_follows laws follows port
    exact ⟨.inl disks, follows'⟩
  | output port value =>
    cases reg : register β port with
    | none =>
      obtain ⟨disks, follows'⟩ := @other_written _ _ _ laws _ _ follows port value
        (by rw [reg]; decide) (by rw [reg]; decide)
      have same : Flight.next machine.board flight (.output port value) = flight := by
        simp only [Flight.next, reg]
      exact ⟨.inl disks, by rw [same]; exact follows'⟩
    | some is =>
      cases is with
      | data => exact data_written laws follows reg registers
      | command =>
        obtain ⟨disks, follows'⟩ := @command_written _ _ _ laws _ _ follows port value reg
        exact ⟨.inl disks, follows'⟩
      | track | sector =>
        obtain ⟨disks, follows'⟩ := @other_written _ _ _ laws _ _ follows port value
          (by rw [reg]; decide) (by rw [reg]; decide)
        have same : Flight.next machine.board flight (.output port value) = flight := by
          simp only [Flight.next, reg]
        exact ⟨.inl disks, by rw [same]; exact follows'⟩

include laws in
/-- A run writes as asked, if the registers are held where a byte completes a sector. -/
theorem run_written (follows : Follows Valid machine.board flight) {ops : List PortOp}
    (registers : HoldsRegisters machine flight ops) : WritesAsAsked machine flight ops := by
  induction ops generalizing machine flight with
  | nil => trivial
  | cons op ops ih =>
    obtain ⟨written, follows'⟩ := access_written laws follows registers.1
    exact ⟨written, ih follows' registers.2⟩

end Step

end Boards

end EthernetGateway.Machine
