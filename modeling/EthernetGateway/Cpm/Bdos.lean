import EthernetGateway.Cpm.Fcb
import EthernetGateway.Image.Lookup
import EthernetGateway.Memory

/-!
# Reading a file in sequence

A program opens a file at an extent, reads records one after another into its buffer, and may ask
for the number of the record it is at. Between the calls the position is nowhere but in the file
control block, in memory of the program. As long as the program leaves that block alone, and keeps
its buffer off it, the calls walk the file: each delivers the next record, and past the last one
each fails.
-/

namespace EthernetGateway.Cpm

open EthernetGateway.Image

/-! ## The drives -/

/-- What is behind a drive: a folder, of which a name finds the bytes of a host file, or a mounted
image. -/
inductive Drive where
  | folder (file : (Fin 8 → UInt8) → (Fin 3 → UInt8) → Option (List UInt8))
  | image (img : ImageFs)

/-- `CpmFs`. -/
structure CpmFs where
  /-- Current drive. -/
  drive : UInt8
  /-- Current user number. -/
  user : UInt8
  /-- Address of the transfer buffer. -/
  dma : UInt16
  /-- What is behind each drive. -/
  drives : UInt8 → Drive

/-- The file of an image that an FCB names. -/
def CpmFs.named (fs : CpmFs) (fcb : Fcb) : File := ⟨fs.user, fcb.name, fcb.ext⟩

/-- The filesystem with another state of the image on a drive. -/
def CpmFs.withImage (fs : CpmFs) (index : UInt8) (img : ImageFs) : CpmFs :=
  { fs with drives := fun i => if i = index then .image img else fs.drives i }

/-- `CpmFs::open_existing`. -/
def CpmFs.openExisting (fs : CpmFs) (fcb : Fcb) : Bool :=
  match (driveIndexFor fs.drive fcb.drive).map fs.drives with
  | none => false
  | some (.image img) => existsFile img.dir (fs.named fcb)
  | some (.folder file) => (file fcb.name fcb.ext).isSome

/-- `CpmFs::file_size_records`. -/
def CpmFs.fileSizeRecords (fs : CpmFs) (fcb : Fcb) : Option Nat :=
  match (driveIndexFor fs.drive fcb.drive).map fs.drives with
  | none => none
  | some (.image img) => fileRecords img.params img.dir (fs.named fcb)
  | some (.folder file) =>
    (file fcb.name fcb.ext).map fun bytes => (bytes.length + 127) / 128 % 2 ^ 32

/-- A record of a host file, the last one filled up with `0x1A`. -/
def hostRecord (bytes : List UInt8) (record : Nat) : Record := fun i =>
  (bytes[record * 128 + i]?).getD 0x1A

/-- `CpmFs::read_record`. -/
def CpmFs.readRecord (fcb : Fcb) (record : Nat) :
    Fallible CpmFs IoError (Option Record) := fun fs =>
  match driveIndexFor fs.drive fcb.drive with
  | none => (.error ⟨.notFound, "unresolved FCB"⟩, fs)
  | some index =>
    match fs.drives index with
    | .image img =>
      let (ending, reached) := Image.readRecord (fs.named fcb) record img
      (ending, fs.withImage index reached)
    | .folder file =>
      match file fcb.name fcb.ext with
      | none => (.error ⟨.notFound, "unresolved FCB"⟩, fs)
      | some bytes =>
        if record * 128 ≥ bytes.length then (.ok none, fs)
        else (.ok (some (hostRecord bytes record)), fs)

/-! ## The calls -/

/-- `FCB_SIZE`. -/
def fcbSize : Nat := 36

/-- The memory of `Cpm` and the `CpmFs` of one session. -/
structure Machine where
  /-- Memory of the program. -/
  mem : Memory
  /-- Its drives. -/
  fs : CpmFs

/-- The FCB at an address. -/
def Machine.fcbAt (cpm : Machine) (de : UInt16) : Fcb := Fcb.fromBytes (cpm.mem.readBlock de)

/-- `with_fcb` of `service_disk_bdos`. -/
def withFcb (de : UInt16) (op : Fcb → Machine → UInt8 × Fcb × Machine) (cpm : Machine) :
    UInt8 × Machine :=
  let raw := cpm.mem.readBlock de
  let (code, fcb, reached) := op (Fcb.fromBytes raw) cpm
  let raw := fcb.storePosition raw
  (code, { reached with
    mem := [12, 14, 15, 32].foldl
      (fun mem off => mem.writeBlock (de + UInt16.ofNat off) [raw off]) reached.mem })

/-- What function 15 does with the FCB. -/
def openExtent (fcb : Fcb) (cpm : Machine) : UInt8 × Fcb × Machine :=
  if cpm.fs.openExisting fcb = false then (0xFF, fcb, cpm)
  else
    let extent := fcb.extent
    let total := (cpm.fs.fileSizeRecords fcb).getD 0
    let start := extent * 128
    if extent > 0 ∧ start ≥ total then (0xFF, fcb, cpm)
    else (0, { fcb with rc := UInt8.ofNat (min (total - start) 128), cr := 0 }, cpm)

/-- `service_disk_bdos`, function 15. -/
def openFile (de : UInt16) : Machine → UInt8 × Machine := withFcb de openExtent

/-- What function 20 does with the FCB. -/
def readNext (fcb : Fcb) (cpm : Machine) : UInt8 × Fcb × Machine :=
  match CpmFs.readRecord fcb fcb.seqRecord cpm.fs with
  | (.ok (some buf), fs) =>
    (0, fcb.advanceRecord, ⟨cpm.mem.writeBlock fs.dma (List.ofFn buf), fs⟩)
  | (_, fs) => (1, fcb, { cpm with fs })

/-- `service_disk_bdos`, function 20. -/
def readSequential (de : UInt16) : Machine → UInt8 × Machine := withFcb de readNext

/-- An FCB with a record number in `R0`..`R2`. -/
def storeRandom (raw : Nat → UInt8) (rr : Nat) : Nat → UInt8 := fun i =>
  if i = 33 then UInt8.ofNat rr
  else if i = 34 then UInt8.ofNat (rr / 256)
  else if i = 35 then UInt8.ofNat (rr / 65536)
  else raw i

/-- `service_disk_bdos`, function 36. -/
def setRandomRecord (de : UInt16) (cpm : Machine) : UInt8 × Machine :=
  let raw := cpm.mem.readBlock de
  let raw := storeRandom raw (Fcb.fromBytes raw).seqRecord
  (0, { cpm with mem := cpm.mem.writeBlock de ((List.range fcbSize).map raw) })

/-- Reading does not move the buffer. -/
theorem CpmFs.readRecord_dma (fcb : Fcb) (record : Nat) (fs : CpmFs) :
    (CpmFs.readRecord fcb record fs).2.dma = fs.dma := by
  unfold CpmFs.readRecord
  split
  · rfl
  · split
    · rfl
    · split
      · rfl
      · split <;> rfl

/-! ## A file of a drive -/

/-- The FCB names an existing file of `n` records without a hole, and these are its records: on a
folder those of the host file, on an image what `read_record` returns. -/
inductive CpmFs.Walkable (fs : CpmFs) (fcb : Fcb) (n : Nat) (data : Nat → Record) : Prop where
  | folder {index : UInt8} {file : (Fin 8 → UInt8) → (Fin 3 → UInt8) → Option (List UInt8)}
      {bytes : List UInt8} (drive : driveIndexFor fs.drive fcb.drive = some index)
      (behind : fs.drives index = .folder file) (found : file fcb.name fcb.ext = some bytes)
      (length : (bytes.length + 127) / 128 = n) (records : ∀ r < n, hostRecord bytes r = data r)
  | image {index : UInt8} {img : ImageFs} (drive : driveIndexFor fs.drive fcb.drive = some index)
      (behind : fs.drives index = .image img) (valid : img.Valid) (healthy : img.media.Healthy)
      (found : existsFile img.dir (fs.named fcb) = true)
      (length : fileRecords img.params img.dir (fs.named fcb) = some n)
      (records : ∀ r < n, (Image.readRecord (fs.named fcb) r img).1 = .ok (some (data r)))

section Walkable

variable {fs : CpmFs} {fcb : Fcb} {n : Nat} {data : Nat → Record}

/-- Which file an FCB names depends on its drive, name and extension alone. -/
theorem CpmFs.Walkable.named_alike {other : Fcb} (file : fs.Walkable fcb n data)
    (drive : other.drive = fcb.drive) (name : other.name = fcb.name) (ext : other.ext = fcb.ext) :
    fs.Walkable other n data := by
  have same : fs.named other = fs.named fcb := by rw [named, named, name, ext]
  cases file with
  | folder index behind found length records =>
    exact .folder (drive ▸ index) behind (by rw [name, ext]; exact found) length records
  | image index behind valid healthy found length records =>
    exact .image (drive ▸ index) behind valid healthy (same ▸ found) (same ▸ length)
      (same ▸ records)

theorem CpmFs.Walkable.opens (file : fs.Walkable fcb n data) : fs.openExisting fcb = true := by
  cases file with
  | folder drive behind found length records =>
    rw [openExisting, drive, Option.map_some, behind]
    exact Option.isSome_iff_exists.mpr ⟨_, found⟩
  | image drive behind valid healthy found length records =>
    rw [openExisting, drive, Option.map_some, behind]
    exact found

theorem CpmFs.Walkable.size (file : fs.Walkable fcb n data) (small : n < 2 ^ 32) :
    fs.fileSizeRecords fcb = some n := by
  cases file with
  | folder drive behind found length records =>
    rw [fileSizeRecords, drive, Option.map_some, behind]
    simp only [found, Option.map_some, length, Nat.mod_eq_of_lt small]
  | image drive behind valid healthy found length records =>
    rw [fileSizeRecords, drive, Option.map_some, behind]
    exact length

/-- Reading an image leaves the file as it is. -/
theorem CpmFs.Walkable.withImage {index : UInt8} {img : ImageFs} {media : Media}
    (drive : driveIndexFor fs.drive fcb.drive = some index) (valid : img.Valid)
    (healthy : img.media.Healthy) (found : existsFile img.dir (fs.named fcb) = true)
    (length : fileRecords img.params img.dir (fs.named fcb) = some n)
    (records : ∀ r < n, (Image.readRecord (fs.named fcb) r img).1 = .ok (some (data r)))
    (unwritten : Medium.Unwritten img.media media) :
    (fs.withImage index (img.withMedia media)).Walkable fcb n data := by
  have valid' : (img.withMedia media).Valid := valid.withMedia unwritten.length
  have healthy' : (img.withMedia media).media.Healthy := healthy.unwritten unwritten
  have shown : (img.withMedia media).disk = img.disk := by
    rw [ImageFs.disk, ImageFs.disk]
    exact congrArg (diskOf img.fmt) unwritten.contents
  refine .image drive (if_pos rfl) valid' healthy' found length fun r inside => ?_
  rw [readRecord_run valid' healthy', shown]
  have before := records r inside
  rw [readRecord_run valid healthy] at before
  exact before

/-- Reading a record of the file finds it and leaves the file. -/
theorem CpmFs.Walkable.delivers (file : fs.Walkable fcb n data) {record : Nat}
    (inside : record < n) : ∃ reached, CpmFs.readRecord fcb record fs = (.ok (some (data record)), reached) ∧
      reached.Walkable fcb n data := by
  cases file with
  | @folder index files bytes drive behind found length records =>
    have below : ¬ record * 128 ≥ bytes.length := by omega
    refine ⟨fs, ?_, .folder drive behind found length records⟩
    simp only [readRecord, drive, behind, found, if_neg below, records record inside]
  | @image index img drive behind valid healthy found length records =>
    obtain ⟨media, unwritten, ran⟩ := readRecord_reached valid healthy (fs.named fcb) record
    have here := records record inside
    rw [readRecord_run valid healthy] at here
    refine ⟨fs.withImage index (img.withMedia media), ?_,
      .withImage drive valid healthy found length records unwritten⟩
    simp only [readRecord, drive, behind, ran, here]

/-- Reading past the file finds nothing and leaves the file. -/
theorem CpmFs.Walkable.ends (file : fs.Walkable fcb n data) {record : Nat} (past : n ≤ record) :
    ∃ reached, CpmFs.readRecord fcb record fs = (.ok none, reached) ∧
      reached.Walkable fcb n data := by
  cases file with
  | @folder index files bytes drive behind found length records =>
    have above : record * 128 ≥ bytes.length := by omega
    refine ⟨fs, ?_, .folder drive behind found length records⟩
    simp only [readRecord, drive, behind, found, if_pos above]
  | @image index img drive behind valid healthy found length records =>
    obtain ⟨media, unwritten, ran⟩ := readRecord_reached valid healthy (fs.named fcb) record
    have nothing : reads img.fmt img.dir img.disk (fs.named fcb) record = .ok none := by
      rw [reads, show coveringEntry (Params.derive img.fmt) img.dir (fs.named fcb) record =
        none from coveringEntry_past length past]
    refine ⟨fs.withImage index (img.withMedia media), ?_,
      .withImage drive valid healthy found length records unwritten⟩
    simp only [readRecord, drive, behind, ran, nothing]

end Walkable

/-! ## The position in memory -/

/-- The FCB at an address after `with_fcb` put the position back. -/
theorem withFcb_mem (de : UInt16) (op : Fcb → Machine → UInt8 × Fcb × Machine) (cpm : Machine)
    {i : Nat} (inside : i < fcbSize) :
    (withFcb de op cpm).2.mem.readBlock de i =
      (op (cpm.fcbAt de) cpm).2.1.storePosition
        ((op (cpm.fcbAt de) cpm).2.2.mem.readBlock de) i := by
  have small : i < 65536 := Nat.lt_trans inside (by decide)
  have same (j : Nat) (below : j < 65536) :
      de + UInt16.ofNat i = de + UInt16.ofNat j ↔ i = j := Memory.add_ofNat_inj small below
  simp only [withFcb, Machine.fcbAt, Memory.readBlock, List.foldl_cons, List.foldl_nil,
    Memory.writeBlock, Memory.poke, same 12 (by decide), same 14 (by decide), same 15 (by decide),
    same 32 (by decide)]
  unfold Fcb.storePosition
  by_cases first : i = 32
  · subst first
    simp
  · by_cases second : i = 15
    · subst second
      simp
    · by_cases third : i = 14
      · subst third
        simp
      · simp only [first, second, third, ↓reduceIte]
        split <;> rfl

/-- Outside the position bytes `with_fcb` leaves memory as the operation did. -/
theorem withFcb_outside (de : UInt16) (op : Fcb → Machine → UInt8 × Fcb × Machine) (cpm : Machine)
    {a : UInt16} (outside : ∀ off ∈ [12, 14, 15, 32], a ≠ de + UInt16.ofNat off) :
    (withFcb de op cpm).2.mem a = (op (cpm.fcbAt de) cpm).2.2.mem a := by
  simp only [List.mem_cons, List.not_mem_nil, or_false, forall_eq_or_imp, forall_eq] at outside
  obtain ⟨first, second, third, last⟩ := outside
  simp only [withFcb, Machine.fcbAt, List.foldl_cons, List.foldl_nil, Memory.writeBlock]
  rw [Memory.poke_other _ _ last, Memory.poke_other _ _ third, Memory.poke_other _ _ second,
    Memory.poke_other _ _ first]

/-- A position of an FCB: the extent byte is one of 32, the record byte one of 128, and together
with the module they give the record. -/
structure Fcb.At (fcb : Fcb) (record : Nat) : Prop where
  /-- The extent byte. -/
  ex : fcb.ex < 32
  /-- The record byte. -/
  cr : fcb.cr < 128
  /-- The record they give. -/
  place : fcb.seqRecord = record

/-- `advance_record` goes on to the next record, carries included. -/
theorem Fcb.At.advance {fcb : Fcb} {record : Nat} (position : fcb.At record)
    (small : record < 65536) : fcb.advanceRecord.At (record + 1) := by
  obtain ⟨ex, cr, place⟩ := position
  have extent : fcb.ex.toNat < 32 := UInt8.lt_iff_toNat_lt.mp ex
  have current : fcb.cr.toNat < 128 := UInt8.lt_iff_toNat_lt.mp cr
  rw [seqRecord, extent_eq] at place
  unfold advanceRecord
  split
  · rename_i below
    have below : fcb.cr.toNat < 127 := UInt8.lt_iff_toNat_lt.mp below
    have next : (fcb.cr + 1).toNat = fcb.cr.toNat + 1 := by
      rw [UInt8.toNat_add]
      exact Nat.mod_eq_of_lt (by change fcb.cr.toNat + 1 < 256; omega)
    refine ⟨ex, UInt8.lt_iff_toNat_lt.mpr ?_, ?_⟩
    · change (fcb.cr + 1).toNat < 128
      omega
    · rw [seqRecord, extent_eq]
      change (fcb.s2.toNat % 64 * 32 + fcb.ex.toNat % 32) * 128 + (fcb.cr + 1).toNat = record + 1
      omega
  · rename_i full
    have full : fcb.cr.toNat = 127 := by
      have above : ¬ fcb.cr.toNat < 127 := fun below => full (UInt8.lt_iff_toNat_lt.mpr below)
      omega
    split
    · rename_i below
      have below : fcb.ex.toNat < 31 := UInt8.lt_iff_toNat_lt.mp below
      have next : (fcb.ex + 1).toNat = fcb.ex.toNat + 1 := by
        rw [UInt8.toNat_add]
        exact Nat.mod_eq_of_lt (by change fcb.ex.toNat + 1 < 256; omega)
      refine ⟨UInt8.lt_iff_toNat_lt.mpr ?_, (by decide : (0 : UInt8) < 128), ?_⟩
      · change (fcb.ex + 1).toNat < 32
        omega
      · rw [seqRecord, extent_eq]
        change (fcb.s2.toNat % 64 * 32 + (fcb.ex + 1).toNat % 32) * 128 + 0 = record + 1
        omega
    · rename_i last
      have last : fcb.ex.toNat = 31 := by
        have above : ¬ fcb.ex.toNat < 31 := fun below => last (UInt8.lt_iff_toNat_lt.mpr below)
        omega
      have next : (fcb.s2 + 1).toNat = (fcb.s2.toNat + 1) % 256 := UInt8.toNat_add fcb.s2 1
      refine ⟨(by decide : (0 : UInt8) < 32), (by decide : (0 : UInt8) < 128), ?_⟩
      rw [seqRecord, extent_eq]
      change ((fcb.s2 + 1).toNat % 64 * 32 + 0 % 32) * 128 + 0 = record + 1
      have range := fcb.s2.toNat_lt
      omega

/-- A position lies in the three bytes alone. -/
theorem Fcb.At.alike {fcb other : Fcb} {record : Nat} (position : fcb.At record)
    (ex : other.ex = fcb.ex) (s2 : other.s2 = fcb.s2) (cr : other.cr = fcb.cr) :
    other.At record := by
  have place : other.seqRecord = fcb.seqRecord := by
    rw [seqRecord, seqRecord, extent, extent, ex, s2, cr]
  exact ⟨ex ▸ position.ex, cr ▸ position.cr, place.trans position.place⟩

/-- The program is at a record of its file. -/
structure Walking (de : UInt16) (n : Nat) (data : Nat → Record) (record : Nat) (cpm : Machine) :
    Prop where
  /-- The FCB names the file. -/
  file : cpm.fs.Walkable (cpm.fcbAt de) n data
  /-- It gives the position. -/
  position : (cpm.fcbAt de).At record

section Calls

variable {de : UInt16} {n record : Nat} {data : Nat → Record} {cpm : Machine}

/-- A change of memory off the first 33 bytes of the FCB leaves the program where it is. -/
theorem Walking.untouched (walking : Walking de n data record cpm) {mem : Memory}
    (same : ∀ j < 33, mem (de + UInt16.ofNat j) = cpm.mem (de + UInt16.ofNat j)) :
    Walking de n data record { cpm with mem } := by
  refine ⟨walking.file.named_alike (same 0 (by decide)) ?_ ?_,
    walking.position.alike (same 12 (by decide)) (same 14 (by decide)) (same 32 (by decide))⟩
  · funext i
    exact congrArg (· &&& 0x7F) (same (1 + i) (by omega))
  · funext i
    exact congrArg (· &&& 0x7F) (same (9 + i) (by omega))

/-- After `with_fcb` the program is where the operation left it, on the same file. -/
theorem Walking.ofOp {op : Fcb → Machine → UInt8 × Fcb × Machine}
    (file : (op (cpm.fcbAt de) cpm).2.2.fs.Walkable (cpm.fcbAt de) n data)
    (position : (op (cpm.fcbAt de) cpm).2.1.At record)
    (kept : ∀ j < 12, (op (cpm.fcbAt de) cpm).2.2.mem (de + UInt16.ofNat j) =
      cpm.mem (de + UInt16.ofNat j)) :
    Walking de n data record (withFcb de op cpm).2 := by
  have name (j : Nat) (low : j < 12) : (withFcb de op cpm).2.mem.readBlock de j =
      cpm.mem.readBlock de j := by
    rw [withFcb_mem de op cpm (Nat.lt_trans low (by decide)), Fcb.storePosition,
      if_neg (by omega), if_neg (by omega), if_neg (by omega), if_neg (by omega)]
    exact kept j low
  refine ⟨file.named_alike (name 0 (by decide)) ?_ ?_, position.alike ?_ ?_ ?_⟩
  · funext i
    exact congrArg (· &&& 0x7F) (name (1 + i) (by omega))
  · funext i
    exact congrArg (· &&& 0x7F) (name (9 + i) (by omega))
  · exact withFcb_mem de op cpm (by decide : 12 < fcbSize)
  · exact withFcb_mem de op cpm (by decide : 14 < fcbSize)
  · exact withFcb_mem de op cpm (by decide : 32 < fcbSize)

/-- Opening an extent that is there puts the program at its first record. -/
theorem openFile_walking (file : cpm.fs.Walkable (cpm.fcbAt de) n data) (most : n ≤ 65536)
    (low : (cpm.fcbAt de).ex < 32)
    (inside : (cpm.fcbAt de).extent = 0 ∨ 128 * (cpm.fcbAt de).extent < n) :
    (openFile de cpm).1 = 0 ∧
      Walking de n data (128 * (cpm.fcbAt de).extent) (openFile de cpm).2 := by
  have ran : openExtent (cpm.fcbAt de) cpm = (0, { cpm.fcbAt de with
      rc := UInt8.ofNat (min (n - (cpm.fcbAt de).extent * 128) 128), cr := 0 }, cpm) := by
    have there : ¬ cpm.fs.openExisting (cpm.fcbAt de) = false := by
      rw [file.opens]
      decide
    have size : (cpm.fs.fileSizeRecords (cpm.fcbAt de)).getD 0 = n := by
      rw [file.size (by omega), Option.getD_some]
    have reachable : ¬ ((cpm.fcbAt de).extent > 0 ∧ (cpm.fcbAt de).extent * 128 ≥ n) := by omega
    simp only [openExtent, if_neg there, size, if_neg reachable]
  have position : (openExtent (cpm.fcbAt de) cpm).2.1.At (128 * (cpm.fcbAt de).extent) := by
    rw [ran]
    refine ⟨low, (by decide : (0 : UInt8) < 128), ?_⟩
    change (cpm.fcbAt de).extent * 128 + 0 = 128 * (cpm.fcbAt de).extent
    omega
  constructor
  · change (openExtent (cpm.fcbAt de) cpm).1 = 0
    rw [ran]
  · exact Walking.ofOp (by rw [ran]; exact file) position fun j _ => by rw [ran]

/-- Opening changes the position bytes alone. -/
theorem openFile_frame (de : UInt16) (cpm : Machine) {a : UInt16}
    (outside : ∀ off ∈ [12, 14, 15, 32], a ≠ de + UInt16.ofNat off) :
    (openFile de cpm).2.mem a = cpm.mem a := by
  have still : (openExtent (cpm.fcbAt de) cpm).2.2 = cpm := by
    unfold openExtent
    split
    · rfl
    · simp only
      split <;> rfl
  rw [openFile, withFcb_outside de _ cpm outside, still]

/-- Opening moves the buffer of no one. -/
theorem openFile_dma (de : UInt16) (cpm : Machine) : (openFile de cpm).2.fs.dma = cpm.fs.dma := by
  change (openExtent (cpm.fcbAt de) cpm).2.2.fs.dma = cpm.fs.dma
  unfold openExtent
  split
  · rfl
  · simp only
    split <;> rfl

/-- A sequential read leaves the buffer where it is. -/
theorem readSequential_dma (de : UInt16) (cpm : Machine) :
    (readSequential de cpm).2.fs.dma = cpm.fs.dma := by
  change (readNext (cpm.fcbAt de) cpm).2.2.fs.dma = cpm.fs.dma
  have kept := CpmFs.readRecord_dma (cpm.fcbAt de) (cpm.fcbAt de).seqRecord cpm.fs
  unfold readNext
  split <;> rename_i ran <;> rw [ran] at kept <;> exact kept

/-- What a sequential read does to memory before the position is put back lies in the buffer. -/
theorem readNext_outside (fcb : Fcb) (cpm : Machine) {a : UInt16}
    (outside : ∀ i < 128, a ≠ cpm.fs.dma + UInt16.ofNat i) :
    (readNext fcb cpm).2.2.mem a = cpm.mem a := by
  have kept := CpmFs.readRecord_dma fcb fcb.seqRecord cpm.fs
  unfold readNext
  split
  · rename_i buf fs ran
    rw [ran] at kept
    refine Memory.writeBlock_outside _ _ _ _ fun i inside => ?_
    rw [List.length_ofFn] at inside
    rw [show fs.dma = cpm.fs.dma from kept]
    exact outside i inside
  · rfl

/-- A sequential read changes the buffer and the position bytes alone. -/
theorem readSequential_frame (de : UInt16) (cpm : Machine) {a : UInt16}
    (buffer : ∀ i < 128, a ≠ cpm.fs.dma + UInt16.ofNat i)
    (outside : ∀ off ∈ [12, 14, 15, 32], a ≠ de + UInt16.ofNat off) :
    (readSequential de cpm).2.mem a = cpm.mem a := by
  rw [readSequential, withFcb_outside de _ cpm outside, readNext_outside _ _ buffer]

/-- A sequential read of a record of the file delivers it and goes on to the next. -/
theorem readSequential_next (walking : Walking de n data record cpm) (inside : record < n)
    (most : n ≤ 65536)
    (apart : ∀ i < 128, ∀ j < 33, cpm.fs.dma + UInt16.ofNat i ≠ de + UInt16.ofNat j) :
    (readSequential de cpm).1 = 0 ∧
      (∀ i : Fin 128, (readSequential de cpm).2.mem (cpm.fs.dma + UInt16.ofNat i) =
        data record i) ∧
      Walking de n data (record + 1) (readSequential de cpm).2 := by
  obtain ⟨reached, found, still⟩ := walking.file.delivers inside
  have kept := CpmFs.readRecord_dma (cpm.fcbAt de) record cpm.fs
  rw [found] at kept
  have ran : readNext (cpm.fcbAt de) cpm = (0, (cpm.fcbAt de).advanceRecord,
      ⟨cpm.mem.writeBlock cpm.fs.dma (List.ofFn (data record)), reached⟩) := by
    rw [readNext, walking.position.place, found]
    simp only
    rw [show reached.dma = cpm.fs.dma from kept]
  have position := walking.position.advance (by omega)
  refine ⟨?_, fun i => ?_, Walking.ofOp ?_ ?_ fun j low => ?_⟩
  · change (readNext (cpm.fcbAt de) cpm).1 = 0
    rw [ran]
  · have outside : ∀ off ∈ [12, 14, 15, 32],
        cpm.fs.dma + UInt16.ofNat i ≠ de + UInt16.ofNat off := by
      intro off member
      refine apart i i.isLt off ?_
      simp only [List.mem_cons, List.not_mem_nil, or_false] at member
      omega
    have length : (List.ofFn (data record)).length = 128 := List.length_ofFn
    have place : (i : Nat) < (List.ofFn (data record)).length := by omega
    have fits : (List.ofFn (data record)).length ≤ 65536 := by omega
    rw [readSequential, withFcb_outside de _ cpm outside, ran]
    change cpm.mem.writeBlock cpm.fs.dma (List.ofFn (data record))
      (cpm.fs.dma + UInt16.ofNat i) = _
    rw [Memory.writeBlock_inside _ _ _ fits i place, List.getElem_ofFn]
  · rw [ran]
    exact still
  · rw [ran]
    exact position
  · exact readNext_outside _ _ fun i below => (apart i below j (by omega)).symm

/-- A sequential read past the file fails and goes nowhere. -/
theorem readSequential_end (walking : Walking de n data record cpm) (past : n ≤ record) :
    (readSequential de cpm).1 ≠ 0 ∧ Walking de n data record (readSequential de cpm).2 := by
  obtain ⟨reached, found, still⟩ := walking.file.ends past
  have ran : readNext (cpm.fcbAt de) cpm = (1, cpm.fcbAt de, { cpm with fs := reached }) := by
    rw [readNext, walking.position.place, found]
  refine ⟨?_, Walking.ofOp ?_ ?_ fun j _ => ?_⟩
  · change (readNext (cpm.fcbAt de) cpm).1 ≠ 0
    rw [ran]
    exact (by decide : (1 : UInt8) ≠ 0)
  · rw [ran]
    exact still
  · rw [ran]
    exact walking.position
  · rw [ran]

/-- The FCB is written back with the record number in it. -/
theorem setRandomRecord_block (de : UInt16) (cpm : Machine) {i : Nat} (inside : i < fcbSize) :
    (setRandomRecord de cpm).2.mem (de + UInt16.ofNat i) =
      storeRandom (cpm.mem.readBlock de) (cpm.fcbAt de).seqRecord i := by
  have listed (raw : Nat → UInt8) : i < ((List.range fcbSize).map raw).length := by
    rw [List.length_map, List.length_range]
    exact inside
  have fits (raw : Nat → UInt8) : ((List.range fcbSize).map raw).length ≤ 65536 := by
    rw [List.length_map, List.length_range]
    decide
  change cpm.mem.writeBlock de ((List.range fcbSize).map
    (storeRandom (cpm.mem.readBlock de) (cpm.fcbAt de).seqRecord)) (de + UInt16.ofNat i) = _
  rw [Memory.writeBlock_inside _ _ _ (fits _) i (listed _), List.getElem_map, List.getElem_range]

/-- `R0`..`R2` are set to the record the FCB is at. -/
theorem setRandomRecord_random (de : UInt16) (cpm : Machine) :
    ((setRandomRecord de cpm).2.fcbAt de).randomRecord = (cpm.fcbAt de).seqRecord := by
  have small : (cpm.fcbAt de).seqRecord < 2 ^ 24 := by
    have current := (cpm.fcbAt de).cr.toNat_lt
    rw [Fcb.seqRecord, Fcb.extent_eq]
    omega
  have low : (((setRandomRecord de cpm).2.fcbAt de).r 0).toNat =
      (cpm.fcbAt de).seqRecord % 256 := by
    rw [show ((setRandomRecord de cpm).2.fcbAt de).r 0 = _ from
      setRandomRecord_block de cpm (by decide : 33 < fcbSize)]
    rfl
  have middle : (((setRandomRecord de cpm).2.fcbAt de).r 1).toNat =
      (cpm.fcbAt de).seqRecord / 256 % 256 := by
    rw [show ((setRandomRecord de cpm).2.fcbAt de).r 1 = _ from
      setRandomRecord_block de cpm (by decide : 34 < fcbSize)]
    rfl
  have high : (((setRandomRecord de cpm).2.fcbAt de).r 2).toNat =
      (cpm.fcbAt de).seqRecord / 65536 % 256 := by
    rw [show ((setRandomRecord de cpm).2.fcbAt de).r 2 = _ from
      setRandomRecord_block de cpm (by decide : 35 < fcbSize)]
    rfl
  rw [Fcb.randomRecord_eq, low, middle, high]
  omega

/-- Setting the random record changes `R0`..`R2` alone. -/
theorem setRandomRecord_frame (de : UInt16) (cpm : Machine) {a : UInt16}
    (outside : ∀ off ∈ [33, 34, 35], a ≠ de + UInt16.ofNat off) :
    (setRandomRecord de cpm).2.mem a = cpm.mem a := by
  by_cases block : ∃ i < fcbSize, a = de + UInt16.ofNat i
  · obtain ⟨i, inside, rfl⟩ := block
    have first : i ≠ 33 := fun same => outside 33 (by simp) (by rw [same])
    have second : i ≠ 34 := fun same => outside 34 (by simp) (by rw [same])
    have third : i ≠ 35 := fun same => outside 35 (by simp) (by rw [same])
    rw [setRandomRecord_block de cpm inside, storeRandom, if_neg first, if_neg second,
      if_neg third]
    rfl
  · refine Memory.writeBlock_outside _ _ _ _ fun i inside same => block ⟨i, ?_, same⟩
    simpa using inside

end Calls

/-! ## A run of calls -/

/-- The machine before each sequential read: the program runs, the call is made, the program runs
again. -/
def callsFrom (de : UInt16) (guest : Nat → Memory → Memory) (opened : Machine) : Nat → Machine
  | 0 => { opened with mem := guest 0 opened.mem }
  | k + 1 =>
    let reached := (readSequential de (callsFrom de guest opened k)).2
    { reached with mem := guest (k + 1) reached.mem }

section Run

variable {de : UInt16} {n : Nat} {data : Nat → Record} {guest : Nat → Memory → Memory}

/-- No call moves the buffer. -/
theorem callsFrom_dma (opened : Machine) (k : Nat) :
    (callsFrom de guest opened k).fs.dma = opened.fs.dma := by
  induction k with
  | zero => rfl
  | succ k ih => exact (readSequential_dma de _).trans ih

/-- A program that leaves the FCB alone walks on by one record with each call, and stays at the end
of the file. -/
theorem callsFrom_walking {start : Nat} {opened : Machine}
    (walking : Walking de n data start opened) (begins : start ≤ n) (most : n ≤ 65536)
    (apart : ∀ i < 128, ∀ j < 33, opened.fs.dma + UInt16.ofNat i ≠ de + UInt16.ofNat j)
    (untouched : ∀ k mem, ∀ j < 33,
      guest k mem (de + UInt16.ofNat j) = mem (de + UInt16.ofNat j)) (k : Nat) :
    Walking de n data (start + min k (n - start)) (callsFrom de guest opened k) := by
  induction k with
  | zero => exact walking.untouched (untouched 0 _)
  | succ k ih =>
    have clear : ∀ i < 128, ∀ j < 33,
        (callsFrom de guest opened k).fs.dma + UInt16.ofNat i ≠ de + UInt16.ofNat j := by
      rw [callsFrom_dma]
      exact apart
    by_cases inside : start + k < n
    · have here : start + min k (n - start) < n := by omega
      obtain ⟨_, _, next⟩ := readSequential_next ih here most clear
      rw [show start + min (k + 1) (n - start) = start + min k (n - start) + 1 by omega]
      exact next.untouched (untouched (k + 1) _)
    · have here : n ≤ start + min k (n - start) := by omega
      obtain ⟨_, stays⟩ := readSequential_end ih here
      rw [show start + min (k + 1) (n - start) = start + min k (n - start) by omega]
      exact stays.untouched (untouched (k + 1) _)

/-- Opening an extent of a file and reading on delivers its records from the first of the extent to
the last, each call one, and fails from then on. Asking for the record number tells where it is, and
no call changes more of memory than its buffer and its own bytes of the FCB. -/
theorem sequential_walk {cpm : Machine} {e : Nat} (file : cpm.fs.Walkable (cpm.fcbAt de) n data)
    (most : n ≤ 65536) (inside : e = 0 ∨ 128 * e < n) (extent : (cpm.fcbAt de).extent = e)
    (low : (cpm.fcbAt de).ex < 32)
    (apart : ∀ i < 128, ∀ j < 33, cpm.fs.dma + UInt16.ofNat i ≠ de + UInt16.ofNat j)
    (untouched : ∀ k mem, ∀ j < 33,
      guest k mem (de + UInt16.ofNat j) = mem (de + UInt16.ofNat j)) :
    ((openFile de cpm).1 = 0 ∧
      ∀ a, (∀ off ∈ [12, 14, 15, 32], a ≠ de + UInt16.ofNat off) →
        (openFile de cpm).2.mem a = cpm.mem a) ∧
    ∀ k, let before := callsFrom de guest (openFile de cpm).2 k
      (128 * e + k < n → (readSequential de before).1 = 0 ∧
        ∀ i : Fin 128, (readSequential de before).2.mem (cpm.fs.dma + UInt16.ofNat i) =
          data (128 * e + k) i) ∧
      (n ≤ 128 * e + k → (readSequential de before).1 ≠ 0) ∧
      (∀ a, (∀ i < 128, a ≠ cpm.fs.dma + UInt16.ofNat i) →
        (∀ off ∈ [12, 14, 15, 32], a ≠ de + UInt16.ofNat off) →
        (readSequential de before).2.mem a = before.mem a) ∧
      ((setRandomRecord de before).2.fcbAt de).randomRecord = 128 * e + min k (n - 128 * e) ∧
      ∀ a, (∀ off ∈ [33, 34, 35], a ≠ de + UInt16.ofNat off) →
        (setRandomRecord de before).2.mem a = before.mem a := by
  subst extent
  obtain ⟨opens, walking⟩ := openFile_walking file most low inside
  refine ⟨⟨opens, fun a outside => openFile_frame de cpm outside⟩, fun k => ?_⟩
  have buffer : (callsFrom de guest (openFile de cpm).2 k).fs.dma = cpm.fs.dma :=
    (callsFrom_dma _ k).trans (openFile_dma de cpm)
  have clear : ∀ i < 128, ∀ j < 33,
      (openFile de cpm).2.fs.dma + UInt16.ofNat i ≠ de + UInt16.ofNat j := by
    rw [openFile_dma]
    exact apart
  have here := callsFrom_walking walking (by omega) most clear untouched k
  refine ⟨fun before => ?_, fun past => ?_, fun a outside off => ?_, ?_, fun a outside => ?_⟩
  · have place : 128 * (cpm.fcbAt de).extent + min k (n - 128 * (cpm.fcbAt de).extent) =
        128 * (cpm.fcbAt de).extent + k := by omega
    rw [place] at here
    obtain ⟨answered, delivered, _⟩ := readSequential_next here before most
      (by rw [buffer]; exact apart)
    rw [buffer] at delivered
    exact ⟨answered, delivered⟩
  · exact (readSequential_end here (by omega)).1
  · exact readSequential_frame de _ (by rw [buffer]; exact outside) off
  · rw [setRandomRecord_random]
    exact here.position.place
  · exact setRandomRecord_frame de _ outside

end Run

/-- A session at the default FCB, which names a file `A` of some length on a folder drive. -/
def fileOfLength (length : Nat) (dma : UInt16) : Machine where
  mem := fun a => if a = 0x5D then 0x41 else if 0x5D < a ∧ a < 0x68 then 0x20 else 0
  fs :=
    { drive := 0
      user := 0
      dma
      drives := fun _ => .folder fun name ext =>
        if (∀ i, name i = if i.val = 0 then 0x41 else 0x20) ∧ ∀ i, ext i = 0x20 then
          some (List.replicate length 0x42)
        else none }

/-- The file of this session has a record for every 128 bytes it began. -/
theorem fileOfLength_walkable (length : Nat) (dma : UInt16) :
    (fileOfLength length dma).fs.Walkable ((fileOfLength length dma).fcbAt 0x5C)
      ((length + 127) / 128) (hostRecord (List.replicate length 0x42)) := by
  refine .folder rfl rfl (if_pos ⟨?_, ?_⟩) (by rw [List.length_replicate]) fun _ _ => rfl
  · change ∀ i, ((fileOfLength 0 0x80).fcbAt 0x5C).name i = if i.val = 0 then 0x41 else 0x20
    decide
  · change ∀ i, ((fileOfLength 0 0x80).fcbAt 0x5C).ext i = 0x20
    decide

/-- A file of 130 records is read into the default buffer across the end of its first extent and up
to its own. -/
theorem sequential_walk_second_extent :
    let before := callsFrom 0x5C (fun _ mem => mem) (openFile 0x5C (fileOfLength 16600 0x80)).2
    (readSequential 0x5C (before 128)).1 = 0 ∧
      ((setRandomRecord 0x5C (before 129)).2.fcbAt 0x5C).randomRecord = 129 ∧
      (readSequential 0x5C (before 130)).1 ≠ 0 := by
  have apart : ∀ i < 128, ∀ j < 33,
      (fileOfLength 16600 0x80).fs.dma + UInt16.ofNat i ≠ 0x5C + UInt16.ofNat j := by
    intro i below j under same
    have numbers := congrArg UInt16.toNat same
    rw [UInt16.toNat_add, UInt16.toNat_add, UInt16.toNat_ofNat', UInt16.toNat_ofNat'] at numbers
    change (128 + i % 65536) % 65536 = (92 + j % 65536) % 65536 at numbers
    omega
  have walk := (@sequential_walk 0x5C 130 _ (fun _ mem => mem) (fileOfLength 16600 0x80) 0
    (fileOfLength_walkable 16600 0x80) (by decide) (.inl rfl) (by decide) (by decide) apart
    fun _ _ _ _ => rfl).2
  exact ⟨((walk 128).1 (by decide)).1, (walk 129).2.2.2.1, (walk 130).2.1 (by decide)⟩

/-- A buffer laid over the FCB does not hold the record: the position is put back into it. -/
theorem buffer_holds_position :
    ¬ ∀ (cpm : Machine) (de : UInt16) (n : Nat) (data : Nat → Record),
      cpm.fs.Walkable (cpm.fcbAt de) n data → n ≤ 65536 → (cpm.fcbAt de).extent = 0 →
      (cpm.fcbAt de).ex < 32 → 0 < n →
      ∀ i : Fin 128, (readSequential de (openFile de cpm).2).2.mem
        (cpm.fs.dma + UInt16.ofNat i) = data 0 i := by
  intro every
  have held := every (fileOfLength 300 0x5C) 0x5C 3 _ (fileOfLength_walkable 300 0x5C) (by decide)
    (by decide) (by decide) (by decide) ⟨12, by decide⟩
  revert held
  decide +kernel

end EthernetGateway.Cpm
