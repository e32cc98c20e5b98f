import EthernetGateway.Medium

/-!
# Disk-image geometry

Where the 128-byte CP/M records live inside an image file, and the CP/M parameters that turn
those records into a filesystem. Framing maps a physical record index to a byte offset in the
file; skew maps a logical sector of a track to the physical sector that holds it. Quantities
the source keeps in `u16`, `u32` and `u64` are natural numbers here, with the truncations the
source writes out; no format of the table comes near a width.
-/

namespace EthernetGateway.Image

/-- `FILL`, the byte of a never-written data byte and of an empty directory entry. -/
def fill : UInt8 := 0xE5

/-- How the 128-byte records are laid out inside the image file. -/
inductive Framing where
  /-- Records end to end. -/
  | raw
  /-- Fixed-size sectors with the data at a constant offset. -/
  | framed (seclen dataOff : Nat)
  /-- Altair 88-DCDD: the data offset within a sector changes at `splitTrack`. -/
  | altairSplit (seclen sectrk splitTrack firstOff restOff : Nat)
  deriving DecidableEq

namespace Framing

/-- `Framing::record_offset`: byte offset of a physical record. The source panics where a track has
no sectors. -/
def recordOffset : Framing → Nat → Nat
  | .raw, record => record * 128
  | .framed seclen dataOff, record => record * seclen + dataOff
  | .altairSplit seclen sectrk splitTrack firstOff restOff, record =>
    let track := record / sectrk
    let off := if track < splitTrack then firstOff else restOff
    record * seclen + off

/-- `Framing::sector_check`: offset of the check byte a write refreshes, and of the other
bytes that enter its sum. The source panics where a track has no sectors. -/
def sectorCheck : Framing → Nat → Option (Nat × List Nat)
  | .raw, _ => none
  | .framed _ _, _ => none
  | .altairSplit seclen sectrk splitTrack _ _, record =>
    let base := record * seclen
    let track := record / sectrk
    if track < splitTrack then some (base + 132, [])
    else some (base + 4, [base + 2, base + 3, base + 5, base + 6])

/-- `Framing::image_bytes`: bytes an image of this many records has. -/
def imageBytes : Framing → Nat → Nat
  | .raw, records => records * 128
  | .framed seclen _, records => records * seclen
  | .altairSplit seclen _ _ _ _, records => records * seclen

end Framing

/-- Sector translation within a track. -/
inductive Skew where
  /-- No translation. -/
  | none
  /-- One permutation of the sectors of a track. -/
  | table (entries : List Nat)
  /-- Two permutations, changing at an absolute track. -/
  | split (splitTrack : Nat) (first rest : List Nat)
  deriving DecidableEq

/-- `Skew::physical`: physical sector of a logical one on an absolute track; out-of-range
input maps to itself. -/
def Skew.physical (skew : Skew) (track logical : Nat) : Nat :=
  match skew with
  | .none => logical
  | .table entries => (entries[logical]?).getD logical
  | .split splitTrack first rest =>
    ((if track < splitTrack then first else rest)[logical]?).getD logical

/-- `Skew::tables`: every permutation the translation can use. -/
def Skew.tables : Skew → List (List Nat)
  | .none => []
  | .table entries => [entries]
  | .split _ first rest => [first, rest]

/-- `ALTAIR_BIOS_XLT`. -/
def altairBiosXlt : List Nat :=
  [0, 8, 16, 24, 2, 10, 18, 26, 4, 12, 20, 28, 6, 14, 22, 30,
    1, 9, 17, 25, 3, 11, 19, 27, 5, 13, 21, 29, 7, 15, 23, 31]

/-- `ALTAIR_SECTOR_ORDER`. -/
def altairSectorOrder : List Nat :=
  [0, 17, 2, 19, 4, 21, 6, 23, 8, 25, 10, 27, 12, 29, 14, 31,
    16, 1, 18, 3, 20, 5, 22, 7, 24, 9, 26, 11, 28, 13, 30, 15]

/-- `ALTAIR_SKEW`. -/
def altairSkew : List Nat :=
  [0, 8, 16, 24, 2, 10, 18, 26, 4, 12, 20, 28, 6, 14, 22, 30,
    17, 25, 1, 9, 19, 27, 3, 11, 21, 29, 5, 13, 23, 31, 7, 15]

/-- `IBM3740_SKEW`. -/
def ibm3740Skew : List Nat :=
  [0, 6, 12, 18, 24, 4, 10, 16, 22, 2, 8, 14, 20, 1, 7, 13,
    19, 25, 5, 11, 17, 23, 3, 9, 15, 21]

/-- `CROMEMCO_DD_SKEW`. -/
def cromemcoDdSkew : List Nat := [0, 11, 6, 1, 12, 7, 2, 13, 8, 3, 14, 9, 4, 15, 10, 5]

/-- `CROMEMCO_DSDD_SKEW`. -/
def cromemcoDsddSkew : List Nat :=
  [0, 4, 8, 12, 1, 5, 9, 13, 2, 6, 10, 14, 3, 7, 11, 15,
    16, 20, 24, 28, 17, 21, 25, 29, 18, 22, 26, 30, 19, 23, 27, 31]

/-- `ALTAIR_HDSK_SKEW`. -/
def altairHdskSkew : List Nat :=
  [0, 7, 14, 21, 4, 11, 18, 1, 8, 15, 22, 5, 12, 19, 2, 9, 16, 23, 6, 13, 20, 3, 10, 17]

/-- A complete description of one disk-image format. -/
structure Format where
  /-- Filename prefix that selects the format. -/
  token : String
  /-- Description shown to the operator. -/
  label : String
  /-- Physical records in the image, boot area included. -/
  totalRecords : Nat
  /-- Records in one data track. -/
  sectrk : Nat
  /-- Records in one physical sector. -/
  recordsPerSector : Nat
  /-- Records before the data area. -/
  reservedRecords : Nat
  /-- Allocation block size in bytes. -/
  blocksize : Nat
  /-- Directory entries. -/
  maxdir : Nat
  /-- Extent mask, where the disk states one the rule does not produce. -/
  exm : Option Nat
  /-- Allocation blocks, where the disk uses fewer than its medium holds. -/
  declaredBlocks : Option Nat
  /-- Layout of records inside the file. -/
  framing : Framing
  /-- Sector translation. -/
  skew : Skew
  /-- Exact image size. -/
  exactSize : Option Nat
  deriving DecidableEq

namespace Format

/-- `Format::min_bytes`. -/
def minBytes (fmt : Format) : Nat := fmt.framing.imageBytes fmt.totalRecords

/-- `Format::max_bytes`. -/
def maxBytes (fmt : Format) : Nat := fmt.minBytes + fmt.framing.imageBytes 1 - 1

/-- The absolute track of a logical data record, as `Format::data_physical_record` counts it: by a
division that panics where a track has no records, and in a `u32`, whose sum panics where it
overflows. -/
def Counts (fmt : Format) (record : Nat) : Prop :=
  0 < fmt.sectrk ∧ fmt.reservedRecords / fmt.sectrk + record / fmt.sectrk < 2 ^ 32

/-- `Format::data_physical_record`, where it counts the track: the physical record a logical data
record lands on. -/
def dataPhysicalRecord (fmt : Format) (record : Nat) : Option Nat :=
  let track := record / fmt.sectrk
  let withinTrack := record % fmt.sectrk
  let rps := max fmt.recordsPerSector 1
  let logicalSector := withinTrack / rps
  let sub := withinTrack % rps
  let absTrack := fmt.reservedRecords / fmt.sectrk + track
  let physicalSector := fmt.skew.physical absTrack logicalSector
  let absolute := fmt.reservedRecords + track * fmt.sectrk + physicalSector * rps + sub
  if absolute ≥ fmt.totalRecords then none else some absolute

/-- `Format::data_record_offset`. -/
def dataRecordOffset (fmt : Format) (record : Nat) : Option Nat :=
  (fmt.dataPhysicalRecord record).map fmt.framing.recordOffset

/-- `Format::data_records`. -/
def dataRecords (fmt : Format) : Nat := fmt.totalRecords - fmt.reservedRecords

/-- `Format::data_blocks`. -/
def dataBlocks (fmt : Format) : Nat :=
  fmt.declaredBlocks.getD (fmt.dataRecords / max (fmt.blocksize / 128) 1)

/-- `Format::dir_records`. -/
def dirRecords (fmt : Format) : Nat := (fmt.maxdir + 3) / 4

end Format

/-- `cromemcodd`. -/
def cromemcodd : Format where
  token := "cromemcodd"
  label := "Cromemco 8\" SSDD, 508K (MICAH CP/M 2.2)"
  totalRecords := 4890
  sectrk := 64
  recordsPerSector := 4
  reservedRecords := 90
  blocksize := 2048
  maxdir := 128
  declaredBlocks := some 254
  framing := .raw
  skew := .table cromemcoDdSkew
  exm := some 0
  exactSize := some 625920

/-- `cromemcodsdd`. -/
def cromemcodsdd : Format where
  token := "cromemcodsdd"
  label := "Cromemco 8\" DSDD, 1216K (ITC CP/M 2.2)"
  totalRecords := 9818
  sectrk := 128
  recordsPerSector := 4
  reservedRecords := 90
  blocksize := 2048
  maxdir := 256
  declaredBlocks := none
  framing := .raw
  skew := .table cromemcoDsddSkew
  exm := none
  exactSize := some 1256704

/-- `z80packhd`. -/
def z80packhd : Format where
  token := "z80packhd"
  label := "z80pack cpmsim hard disk, 4M"
  totalRecords := 32640
  sectrk := 128
  recordsPerSector := 1
  reservedRecords := 0
  blocksize := 2048
  maxdir := 1024
  declaredBlocks := none
  framing := .raw
  skew := .none
  exm := none
  exactSize := some 4177920

/-- `ibm3740`. -/
def ibm3740 : Format where
  token := "ibm3740"
  label := "IBM 3740 8\" SSSD, 241K (Tarbell, Cromemco SD)"
  totalRecords := 2002
  sectrk := 26
  recordsPerSector := 1
  reservedRecords := 52
  blocksize := 1024
  maxdir := 64
  declaredBlocks := none
  framing := .raw
  skew := .table ibm3740Skew
  exm := none
  exactSize := some 256256

/-- `altair8`. -/
def altair8 : Format where
  token := "altair8"
  label := "Altair 88-DCDD 8\" SSSD, 300K (MITS)"
  totalRecords := 2464
  sectrk := 32
  recordsPerSector := 1
  reservedRecords := 64
  blocksize := 2048
  maxdir := 64
  declaredBlocks := none
  framing := .altairSplit 137 32 6 3 7
  skew := .split 6 altairBiosXlt altairSkew
  exm := some 0
  exactSize := some 337568

/-- `altairhd`. -/
def altairhd : Format where
  token := "altairhd"
  label := "Altair 88-HDSK hard disk, 4.8M (Altair-Duino)"
  totalRecords := 38976
  sectrk := 48
  recordsPerSector := 2
  reservedRecords := 96
  blocksize := 4096
  maxdir := 192
  declaredBlocks := none
  framing := .raw
  skew := .table altairHdskSkew
  exm := none
  exactSize := some 4988928

/-- `FORMATS`: every format the gateway mounts. -/
def formats : List Format := [cromemcodd, cromemcodsdd, z80packhd, ibm3740, altair8, altairhd]

/-- `Params`: geometry derived from a format at mount. -/
structure Params where
  /-- Records in one allocation block. -/
  recordsPerBlock : Nat
  /-- Highest valid block number. -/
  maxBlock : Nat
  /-- Block numbers in an allocation map. -/
  mapSlots : Nat
  /-- Whether block numbers occupy two bytes. -/
  wideBlocks : Bool
  /-- Extent mask. -/
  exm : Nat
  /-- Records the directory occupies. -/
  dirRecords : Nat
  deriving DecidableEq

/-- `RECORDS_PER_EXTENT`. -/
def recordsPerExtent : Nat := 128

/-- `Params::derive`. -/
def Params.derive (fmt : Format) : Params :=
  let recordsPerBlock := fmt.blocksize / 128
  let totalBlocks := fmt.dataBlocks
  let maxBlock := min (totalBlocks - 1) 65535
  let wideBlocks := decide (maxBlock > 255)
  let slotsInMap := if wideBlocks then 8 else 16
  let recordsPerEntry := slotsInMap * recordsPerBlock
  let exm := match fmt.exm with
    | some stated => stated
    | none => max (recordsPerEntry / recordsPerExtent) 1 - 1
  let mapSlots := min ((exm + 1) * recordsPerExtent / max recordsPerBlock 1) slotsInMap
  { recordsPerBlock, maxBlock, mapSlots, wideBlocks, exm, dirRecords := fmt.dirRecords }

namespace Params

/-- Blocks the directory itself occupies. -/
def dirBlocks (params : Params) : Nat :=
  (params.dirRecords + params.recordsPerBlock - 1) / params.recordsPerBlock

/-- Block numbers the 16-byte map has room for. -/
def slotsInMap (params : Params) : Nat := if params.wideBlocks then 8 else 16

end Params

/-! ## What every format of the table satisfies -/

/-- A framing whose sectors hold their data and check bytes apart, each inside its sector. -/
def Framing.Regular : Framing → Prop
  | .raw => True
  | .framed seclen dataOff => dataOff + 128 ≤ seclen
  | .altairSplit seclen _ _ firstOff restOff => seclen = 137 ∧ firstOff = 3 ∧ restOff = 7

instance (framing : Framing) : Decidable framing.Regular := by
  cases framing <;> unfold Framing.Regular <;> infer_instance

/-- A translation all of whose tables permute the sectors of a track. -/
def Skew.Permutes (skew : Skew) (sectors : Nat) : Prop :=
  ∀ entries ∈ skew.tables,
    entries.length = sectors ∧ entries.Nodup ∧ ∀ entry ∈ entries, entry < sectors

instance (skew : Skew) (sectors : Nat) : Decidable (skew.Permutes sectors) := by
  unfold Skew.Permutes; infer_instance

/-- The geometry facts the filesystem rests on. -/
structure Format.Sound (fmt : Format) : Prop where
  /-- A sector holds at least one record. -/
  sector : 0 < fmt.recordsPerSector
  /-- A track is a positive whole number of sectors. -/
  track : 0 < fmt.sectrk ∧ fmt.sectrk % fmt.recordsPerSector = 0
  /-- The data area is a whole number of tracks. -/
  tracks : fmt.reservedRecords ≤ fmt.totalRecords ∧ fmt.dataRecords % fmt.sectrk = 0
  /-- Skew permutes the sectors of a track. -/
  skew : fmt.skew.Permutes (fmt.sectrk / fmt.recordsPerSector)
  /-- Framing keeps data and check bytes apart. -/
  framing : fmt.framing.Regular
  /-- Directory entries fill whole records. -/
  entries : fmt.maxdir = fmt.dirRecords * 4
  /-- Blocks hold records. -/
  block : 0 < (Params.derive fmt).recordsPerBlock
  /-- Every block number addresses records of the data area. -/
  blocks : ((Params.derive fmt).maxBlock + 1) * (Params.derive fmt).recordsPerBlock ≤
    fmt.dataRecords
  /-- The directory is nonempty and leaves room for data. -/
  directory : 0 < fmt.dirRecords ∧
    (Params.derive fmt).dirBlocks ≤ (Params.derive fmt).maxBlock
  /-- A block number fits sixteen bits. -/
  numbers : (Params.derive fmt).maxBlock ≤ 65535
  /-- Block numbers take two bytes exactly when one byte does not hold the last. -/
  width : (Params.derive fmt).wideBlocks = decide ((Params.derive fmt).maxBlock > 255)
  /-- The extent mask folds one extent or two. -/
  mask : (Params.derive fmt).exm = 0 ∨ (Params.derive fmt).exm = 1
  /-- The slots used address exactly the records of an entry and fit the map. -/
  slots : (Params.derive fmt).mapSlots * (Params.derive fmt).recordsPerBlock =
      ((Params.derive fmt).exm + 1) * recordsPerExtent ∧
    (Params.derive fmt).mapSlots ≤ (Params.derive fmt).slotsInMap

/-- Every format of the table has sound geometry. -/
theorem formats_sound (fmt : Format) (listed : fmt ∈ formats) : fmt.Sound := by
  simp only [formats, List.mem_cons, List.not_mem_nil, or_false] at listed
  rcases listed with rfl | rfl | rfl | rfl | rfl | rfl <;> constructor <;> decide

end EthernetGateway.Image
