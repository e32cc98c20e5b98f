import EthernetGateway.Image.Directory

/-!
# The filesystem on a mounted image

`ImageFs` keeps in memory the live directory entries, the blocks of entries it does not read
as files and an allocation bitmap, and changes the medium by writing records and directory
entries. The operations are the methods of the source, statement for statement: what they
check and in which order, which error each check raises, when memory changes and when the
medium is called.
-/

namespace EthernetGateway.Image

/-- `ImageFs`: a filesystem read from a mounted image. -/
structure ImageFs where
  /-- The byte store. -/
  media : Media
  /-- The format the store is read as. -/
  fmt : Format
  /-- Every live directory entry, in directory order. -/
  dir : List DirSlot
  /-- Blocks of entries in use that are not read as files. -/
  foreign : List Nat
  /-- Allocation bitmap, one flag for each block. -/
  used : List Bool
  /-- Set when this mount refuses every write. -/
  readOnly : Bool

/-- `params`, computed from the format at mount and never assigned again. -/
def ImageFs.params (fs : ImageFs) : Params := Params.derive fs.fmt

/-- A computation on a mounted filesystem. -/
abbrev FsM (α : Type) := Fallible ImageFs IoError α

/-- The filesystem on another medium. -/
def ImageFs.withMedia (fs : ImageFs) (media : Media) : ImageFs := { fs with media }

/-- Run a program of the byte store on the filesystem's own. -/
def onMedia {α : Type} (program : MediaM α) : FsM α :=
  Fallible.within ImageFs.media ImageFs.withMedia program

/-! ## Files in the list of entries -/

/-- The entries of one file, in directory order. -/
def entriesOf (dir : List DirSlot) (f : File) : List DirSlot := dir.filter (·.file = f)

/-- `ImageFs::extents_of`: all extents of one file, lowest extent first, entries of one extent in
directory order. -/
def extentsOf (dir : List DirSlot) (f : File) : List DirSlot :=
  (entriesOf dir f).insertionSort fun left right => left.extent ≤ right.extent

/-- `ImageFs::exists`. -/
def existsFile (dir : List DirSlot) (f : File) : Bool := !(extentsOf dir f).isEmpty

/-- `ImageFs::find_entry`: the first extent of a file. -/
def findEntry (dir : List DirSlot) (f : File) : Option DirSlot := (extentsOf dir f).head?

/-- `ImageFs::extent_start`: first record of the data an entry holds. -/
def extentStart (params : Params) (e : DirSlot) : Nat :=
  maskOff e.extent params.exm * recordsPerExtent

/-- `ImageFs::extent_count`: records an entry holds. -/
def extentCount (params : Params) (e : DirSlot) : Nat :=
  (e.extent &&& params.exm) * recordsPerExtent + e.rc.toNat

/-- `ImageFs::file_records`: length of a file in records, if it exists. -/
def fileRecords (params : Params) (dir : List DirSlot) (f : File) : Option Nat :=
  let extents := extentsOf dir f
  if extents.isEmpty then none
  else some (((extents.map fun e => extentStart params e + extentCount params e).max?).getD 0)

/-- The part of `ImageFs::read_record` that finds the entry covering a record. -/
def coveringEntry (params : Params) (dir : List DirSlot) (f : File) (record : Nat) :
    Option (Nat × List Nat) :=
  (extentsOf dir f).findSome? fun e =>
    let start := extentStart params e
    let count := extentCount params e
    if record ≥ start ∧ record < start + count then some (start, e.blocks) else none

/-- `ImageFs::read_record`. -/
def readRecord (f : File) (record : Nat) : FsM (Option Record) := do
  let fs ← Fallible.view id
  if (extentsOf fs.dir f).isEmpty then pure none
  else
    match coveringEntry fs.params fs.dir f record with
    | none => pure none
    | some (start, blocks) =>
      let within := record - start
      match blocks[within / fs.params.recordsPerBlock]? with
      | none => pure none
      | some 0 => pure none
      | some block =>
        if block > fs.params.maxBlock then
          Fallible.fail ⟨.invalidData, s!"directory names block {block}, past the end of the disk"⟩
        else do
          let buf ← onMedia (readDataRecord fs.fmt
            (block * fs.params.recordsPerBlock + within % fs.params.recordsPerBlock))
          pure (some buf)

/-! ## The allocation bitmap -/

/-- Mark blocks used, zero and numbers past the bitmap apart. -/
def markBlocks (used : List Bool) (blocks : List Nat) : List Bool :=
  blocks.foldl (fun used block => if block ≠ 0 then used.set block true else used) used

/-- The bitmap of a directory, as `ImageFs::rebuild_bitmap` computes it. -/
def bitmapOf (params : Params) (dir : List DirSlot) (foreign : List Nat) : List Bool :=
  let empty := List.replicate (params.maxBlock + 1) false
  let own := (List.range (min params.dirBlocks empty.length)).foldl
    (fun used block => used.set block true) empty
  markBlocks own (dir.flatMap DirSlot.blocks ++ foreign)

/-- `ImageFs::rebuild_bitmap`. -/
def rebuildBitmap (fs : ImageFs) : ImageFs :=
  { fs with used := bitmapOf fs.params fs.dir fs.foreign }

/-- The block `ImageFs::alloc_block` claims. -/
def freeBlock (params : Params) (used : List Bool) : Option Nat :=
  (List.range' params.dirBlocks (params.maxBlock + 1 - params.dirBlocks)).find? fun block =>
    !(used.getD block true)

/-- `ImageFs::alloc_block`. -/
def allocBlock : FsM (Option Nat) := do
  let fs ← Fallible.view id
  match freeBlock fs.params fs.used with
  | none => pure none
  | some block => do
    Fallible.change fun fs => { fs with used := fs.used.set block true }
    pure (some block)

/-! ## Keeping memory in step -/

/-- The list part of `ImageFs::apply_entry`. -/
def insertEntry (dir : List DirSlot) (index : Nat) (parsed : Option DirSlot) : List DirSlot :=
  match dir.findIdx? (·.index = index) with
  | some pos =>
    match parsed with
    | some slot => dir.set pos slot
    | none => dir.eraseIdx pos
  | none =>
    match parsed with
    | some slot => dir.insertIdx ((dir.findIdx? (·.index > index)).getD dir.length) slot
    | none => dir

/-- `ImageFs::apply_entry`. -/
def applyEntry (index : Nat) (raw : RawEntry) (fs : ImageFs) : ImageFs :=
  let dir := insertEntry fs.dir index (parseEntry index raw fs.params)
  let used := match dir.find? (·.index = index) with
    | some slot => markBlocks fs.used slot.blocks
    | none => fs.used
  { fs with dir, used }

/-- `ImageFs::reload`. -/
def reload : FsM Unit := do
  let fs ← Fallible.view id
  let (dir, foreign) ← onMedia (readDirectory fs.fmt)
  Fallible.change fun fs => rebuildBitmap { fs with dir, foreign }

/-! ## Several entries as one change -/

/-- One entry of a change: its index, as it was, as it should be. -/
structure Change where
  /-- Index of the entry. -/
  index : Nat
  /-- The entry as it was. -/
  old : RawEntry
  /-- The entry as it should be. -/
  new : RawEntry

/-- The first loop of `ImageFs::write_dir_entries`: how many entries were written, and how it
ended. -/
def writeNew (fmt : Format) : List Change → MediaM (Nat × Except IoError Unit)
  | [] => pure (0, .ok ())
  | change :: changes => do
    match ← Fallible.attempt (writeDirEntry fmt change.index change.new) with
    | .error reason => pure (0, .error reason)
    | .ok () =>
      let (done, result) ← writeNew fmt changes
      pure (done + 1, result)

/-- The undo loop of `ImageFs::write_dir_entries`. -/
def writeOld (fmt : Format) : List Change → MediaM Unit
  | [] => pure ()
  | change :: changes => do
    let _ ← Fallible.attempt (writeDirEntry fmt change.index change.old)
    writeOld fmt changes

/-- The loops of `ImageFs::write_dir_entries`: write the entries, and put back the ones
written if one of them failed. -/
def writeOrUndo (fmt : Format) (changes : List Change) : MediaM (Except IoError Unit) := do
  let (done, result) ← writeNew fmt changes
  match result with
  | .ok () => pure (.ok ())
  | .error reason => do
    writeOld fmt (changes.take done).reverse
    pure (.error reason)

/-- `ImageFs::write_dir_entries`. -/
def writeDirEntries (changes : List Change) : FsM Unit := do
  let fs ← Fallible.view id
  let result ← onMedia (writeOrUndo fs.fmt changes)
  let reloaded ← Fallible.attempt reload
  match result with
  | .error reason => Fallible.fail reason
  | .ok () =>
    match reloaded with
    | .error reason => Fallible.fail reason
    | .ok () => pure ()

/-! ## The operations -/

/-- `ImageFs::check_writable`. -/
def checkWritable : FsM Unit := do
  let fs ← Fallible.view id
  if fs.readOnly then
    Fallible.fail ⟨.permissionDenied, "this disk image is mounted read-only"⟩
  else pure ()

/-- `ImageFs::new_raw_entry`. -/
def newRawEntry (f : File) (extent : Nat) : RawEntry where
  user := f.user
  name := f.name
  ext := f.ext
  ex := UInt8.ofNat (extent % 32)
  s1 := 0
  s2 := UInt8.ofNat (extent / 32)
  rc := 0
  map := fun _ => 0

/-- The directory step of `create` and `write_record`: write one entry and fold it into
memory. -/
def commitEntry (index : Nat) (raw : RawEntry) : FsM Unit := do
  let fs ← Fallible.view id
  onMedia (writeDirEntry fs.fmt index raw)
  Fallible.change (applyEntry index raw)

/-- `ImageFs::create` up to its directory step: the entry to write and where. -/
def prepareCreate (f : File) : FsM (Nat × RawEntry) := do
  checkWritable
  Fallible.given (checkName f.name f.ext)
  let fs ← Fallible.view id
  if existsFile fs.dir f then Fallible.fail ⟨.alreadyExists, "file exists"⟩
  else
    match ← onMedia (freeDirSlot fs.fmt) with
    | none => Fallible.fail ⟨.storageFull, "directory is full"⟩
    | some index => pure (index, newRawEntry f 0)

/-- `ImageFs::create`. -/
def create (f : File) : FsM Unit := do
  let (index, raw) ← prepareCreate f
  commitEntry index raw

/-- `ImageFs::records_per_entry`. -/
def recordsPerEntry (params : Params) : Nat := (params.exm + 1) * recordsPerExtent

/-- The first extent of the entry that addresses a record. -/
def baseExtent (params : Params) (record : Nat) : Nat :=
  record / recordsPerEntry params * (params.exm + 1)

/-- A record's place inside its entry. -/
def withinEntry (params : Params) (record : Nat) : Nat :=
  record - record / recordsPerEntry params * recordsPerEntry params

/-- The entry of a file for an extent range, as `ImageFs::write_record` looks it up. -/
def entryFor (params : Params) (dir : List DirSlot) (f : File) (base : Nat) : Option DirSlot :=
  dir.find? fun e => e.file = f ∧ maskOff e.extent params.exm = base

/-- The entry `ImageFs::write_record` edits: the file's own for the extent range, or a new one
in a free slot. -/
def targetEntry (f : File) (base : Nat) : FsM (Nat × RawEntry) := do
  let fs ← Fallible.view id
  match entryFor fs.params fs.dir f base with
  | some e => pure (e.index, e.raw)
  | none =>
    match ← onMedia (freeDirSlot fs.fmt) with
    | none => Fallible.fail ⟨.storageFull, "directory is full"⟩
    | some index => pure (index, newRawEntry f base)

/-- The block `ImageFs::write_record` writes into, the allocation map that names it, and
whether it was claimed for this write. -/
def targetBlock (raw : RawEntry) (slot : Nat) : FsM (Nat × List Nat × Bool) := do
  let fs ← Fallible.view id
  let blocks := decodeBlocks raw fs.params
  match blocks[slot]? with
  | none =>
    Fallible.fail ⟨.invalidInput, "record is beyond what one directory entry can address"⟩
  | some 0 =>
    match ← allocBlock with
    | none => Fallible.fail ⟨.storageFull, "disk is full"⟩
    | some block => pure (block, blocks.set slot block, true)
  | some block =>
    if block > fs.params.maxBlock then
      Fallible.fail ⟨.invalidData, s!"directory names block {block}, past the end of the disk"⟩
    else pure (block, blocks, false)

/-- The zero-fill loop of `ImageFs::write_record`. -/
def zeroRecords (fmt : Format) (block : Nat) : List Nat → MediaM Unit
  | [] => pure ()
  | record :: records => do
    writeBlockRecord fmt block record fun _ => 0
    zeroRecords fmt block records

/-- The records of a fresh block that are zeroed, all but the one written. -/
def otherRecords (params : Params) (offsetInBlock : Nat) : List Nat :=
  (List.range params.recordsPerBlock).filter (· ≠ offsetInBlock)

/-- The data step of `ImageFs::write_record`: everything that reaches the medium before the
directory does. -/
def writeData (fmt : Format) (block offsetInBlock : Nat) (data : Record) (fresh : Bool) :
    MediaM Unit := do
  if fresh then zeroRecords fmt block (otherRecords (Params.derive fmt) offsetInBlock)
  else pure ()
  writeBlockRecord fmt block offsetInBlock data
  if fresh then sync else flush

/-- The record count and extent of an entry after a record at this place was written. -/
def RawEntry.grown (raw : RawEntry) (params : Params) (base within : Nat) : RawEntry :=
  let usedNow := within + 1
  let oldUsed := (raw.extent &&& params.exm) * recordsPerExtent + raw.rc.toNat
  if usedNow > oldUsed then
    let lastLogical := (usedNow - 1) / recordsPerExtent
    { raw.withExtent (base + lastLogical) with
      rc := UInt8.ofNat (usedNow - lastLogical * recordsPerExtent) }
  else raw

/-- `ImageFs::write_record` up to its directory step: the data is on the medium, and the entry
to write and where are known. -/
def prepareRecord (f : File) (record : Nat) (data : Record) : FsM (Nat × RawEntry) := do
  checkWritable
  let fs ← Fallible.view id
  if ¬ existsFile fs.dir f then Fallible.fail ⟨.notFound, "no such file"⟩
  else if (findEntry fs.dir f).any (·.readOnly) then
    Fallible.fail ⟨.permissionDenied, "file is R/O"⟩
  else do
    let base := baseExtent fs.params record
    let within := withinEntry fs.params record
    let slot := within / fs.params.recordsPerBlock
    let offsetInBlock := within % fs.params.recordsPerBlock
    let (index, raw) ← targetEntry f base
    let (block, blocks, fresh) ← targetBlock raw slot
    onMedia (writeData fs.fmt block offsetInBlock data fresh)
    pure (index, (encodeBlocks raw blocks fs.params).grown fs.params base within)

/-- `ImageFs::write_record`. -/
def writeRecord (f : File) (record : Nat) (data : Record) : FsM Unit := do
  let (index, raw) ← prepareRecord f record data
  commitEntry index raw

/-- The changes that do one thing to every entry of a file. -/
def changesOf (entries : List DirSlot) (edit : RawEntry → RawEntry) : List Change :=
  entries.map fun e => ⟨e.index, e.raw, edit e.raw⟩

/-- An entry with its user byte stamped. -/
def RawEntry.erased (raw : RawEntry) : RawEntry := { raw with user := fill }

/-- `ImageFs::delete`. -/
def delete (f : File) : FsM Nat := do
  checkWritable
  let fs ← Fallible.view id
  let targets := entriesOf fs.dir f
  if targets.any (·.raw.locked) then Fallible.fail ⟨.permissionDenied, "file is R/O"⟩
  else do
    writeDirEntries (changesOf targets RawEntry.erased)
    pure targets.length

/-- An entry under another name, its attribute bits kept. -/
def RawEntry.renamed (raw : RawEntry) (name : Fin 8 → UInt8) (ext : Fin 3 → UInt8) : RawEntry :=
  { raw with
    name := fun i => name i ||| (raw.name i &&& 0x80)
    ext := fun i => ext i ||| (raw.ext i &&& 0x80) }

/-- `ImageFs::rename`. -/
def rename (f : File) (name : Fin 8 → UInt8) (ext : Fin 3 → UInt8) : FsM Bool := do
  checkWritable
  Fallible.given (checkName name ext)
  let fs ← Fallible.view id
  if existsFile fs.dir ⟨f.user, name, ext⟩ then Fallible.fail ⟨.alreadyExists, "file exists"⟩
  else
    let targets := entriesOf fs.dir f
    if targets.isEmpty then pure false
    else if targets.any (·.raw.locked) then Fallible.fail ⟨.permissionDenied, "file is R/O"⟩
    else do
      writeDirEntries (changesOf targets fun raw => raw.renamed name ext)
      pure true

/-- An entry with its R/O attribute set or cleared. -/
def RawEntry.withLock (raw : RawEntry) (ro : Bool) : RawEntry :=
  { raw with
    ext := fun i =>
      if i.val = 0 then if ro then raw.ext i ||| 0x80 else raw.ext i &&& 0x7F else raw.ext i }

/-- `ImageFs::set_read_only`. -/
def setReadOnly (f : File) (ro : Bool) : FsM Bool := do
  checkWritable
  let fs ← Fallible.view id
  let targets := entriesOf fs.dir f
  if targets.isEmpty then pure false
  else do
    writeDirEntries (changesOf targets fun raw => raw.withLock ro)
    pure true

/-- An entry cut to its first `keep` records. -/
def RawEntry.cut (raw : RawEntry) (params : Params) (keep : Nat) : RawEntry :=
  let lastLogical := (keep - 1) / recordsPerExtent
  let base := maskOff raw.extent params.exm
  let raw := { raw.withExtent (base + lastLogical) with
    rc := UInt8.ofNat (keep - lastLogical * recordsPerExtent) }
  let slotsKept := (keep + params.recordsPerBlock - 1) / params.recordsPerBlock
  let blocks := decodeBlocks raw params
  encodeBlocks raw (blocks.take slotsKept ++ (blocks.drop slotsKept).map fun _ => 0) params

/-- What `ImageFs::truncate_to_records` does to one entry, if anything. -/
def truncateChange (params : Params) (records : Nat) (e : DirSlot) : Option Change :=
  let start := extentStart params e
  let count := extentCount params e
  if start ≥ records then some ⟨e.index, e.raw, e.raw.erased⟩
  else if start + count > records then
    some ⟨e.index, e.raw, e.raw.cut params (records - start)⟩
  else none

/-- `ImageFs::truncate_to_records`. -/
def truncateToRecords (f : File) (records : Nat) : FsM (Option Nat) := do
  checkWritable
  let fs ← Fallible.view id
  if (fileRecords fs.params fs.dir f).isNone then pure none
  else do
    writeDirEntries ((extentsOf fs.dir f).filterMap (truncateChange fs.params records))
    pure (some records)

/-- A call of a filesystem operation with its arguments. -/
inductive Operation where
  /-- `create`. -/
  | create (f : File)
  /-- `write_record`. -/
  | writeRecord (f : File) (record : Nat) (data : Record)
  /-- `delete`. -/
  | delete (f : File)
  /-- `rename`. -/
  | rename (f : File) (name : Fin 8 → UInt8) (ext : Fin 3 → UInt8)
  /-- `set_read_only`. -/
  | setReadOnly (f : File) (ro : Bool)
  /-- `truncate_to_records`. -/
  | truncate (f : File) (records : Nat)

/-- Run an operation, its value dropped. -/
def Operation.run : Operation → FsM Unit
  | .create f => Image.create f
  | .writeRecord f record data => Image.writeRecord f record data
  | .delete f => do let _ ← Image.delete f
  | .rename f name ext => do let _ ← Image.rename f name ext
  | .setReadOnly f ro => do let _ ← Image.setReadOnly f ro
  | .truncate f records => do let _ ← Image.truncateToRecords f records

end EthernetGateway.Image
