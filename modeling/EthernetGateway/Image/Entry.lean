import EthernetGateway.Image.Layout

/-!
# Directory entries

A CP/M directory entry is 32 bytes. The model keeps them as the fields every access of the
source falls into (`raw[0]`, `raw[1..9]`, `raw[9..12]`, `raw[12]` and so on) and proves that
putting an entry into a record and taking it out again are inverse. Parsing, the allocation
map in its two widths and the name checks are the source's functions on those fields.
-/

namespace EthernetGateway.Image

/-- `RawEntry`: the 32 bytes of a directory entry, by the ranges the source addresses. -/
structure RawEntry where
  /-- `raw[0]`. -/
  user : UInt8
  /-- `raw[1..9]`. -/
  name : Fin 8 → UInt8
  /-- `raw[9..12]`. -/
  ext : Fin 3 → UInt8
  /-- `raw[12]`, extent number modulo 32. -/
  ex : UInt8
  /-- `raw[13]`. -/
  s1 : UInt8
  /-- `raw[14]`, extent number divided by 32. -/
  s2 : UInt8
  /-- `raw[15]`, record count. -/
  rc : UInt8
  /-- `raw[16..32]`, allocation map. -/
  map : Fin 16 → UInt8
  deriving DecidableEq

/-- `ENTRIES_PER_RECORD`. -/
def entriesPerRecord : Nat := 4

/-- An extension has a first byte. -/
instance extensionNeZero : NeZero 3 := ⟨by decide⟩

/-- A record has a first entry. -/
instance recordNeZero : NeZero 4 := ⟨by decide⟩

/-- The fields of 32 bytes. -/
def RawEntry.ofBytes (byte : Fin 32 → UInt8) : RawEntry where
  user := byte 0
  name := fun i => byte ⟨1 + i, by omega⟩
  ext := fun i => byte ⟨9 + i, by omega⟩
  ex := byte 12
  s1 := byte 13
  s2 := byte 14
  rc := byte 15
  map := fun i => byte ⟨16 + i, by omega⟩

/-- `buf[slot * ENTRY_SIZE..(slot + 1) * ENTRY_SIZE]`. -/
def takeEntry (record : Record) (slot : Fin 4) : RawEntry :=
  .ofBytes fun i => record ⟨slot * 32 + i, by omega⟩

/-- The byte of an entry at an offset. -/
def RawEntry.byte (raw : RawEntry) (i : Nat) : UInt8 :=
  if i = 0 then raw.user
  else if h : 1 ≤ i ∧ i < 9 then raw.name ⟨i - 1, by omega⟩
  else if h : 9 ≤ i ∧ i < 12 then raw.ext ⟨i - 9, by omega⟩
  else if i = 12 then raw.ex
  else if i = 13 then raw.s1
  else if i = 14 then raw.s2
  else if i = 15 then raw.rc
  else if h : 16 ≤ i ∧ i < 32 then raw.map ⟨i - 16, by omega⟩
  else 0

/-- `buf[slot * ENTRY_SIZE..(slot + 1) * ENTRY_SIZE].copy_from_slice(raw)`. -/
def putEntry (record : Record) (slot : Fin 4) (raw : RawEntry) : Record := fun i =>
  if i.val / 32 = slot then raw.byte (i.val % 32) else record i

/-- The fields of an entry's bytes are the entry. -/
theorem RawEntry.ofBytes_byte (raw : RawEntry) : RawEntry.ofBytes (fun i => raw.byte i) = raw := by
  have nameBytes (i : Fin 8) : raw.byte (1 + i.val) = raw.name i := by
    rw [RawEntry.byte, if_neg (by omega), dif_pos (by omega)]
    congr 1
    apply Fin.ext
    simp
  have extBytes (i : Fin 3) : raw.byte (9 + i.val) = raw.ext i := by
    rw [RawEntry.byte, if_neg (by omega), dif_neg (by omega), dif_pos (by omega)]
    congr 1
    apply Fin.ext
    simp
  have mapBytes (i : Fin 16) : raw.byte (16 + i.val) = raw.map i := by
    rw [RawEntry.byte, if_neg (by omega), dif_neg (by omega), dif_neg (by omega),
      if_neg (by omega), if_neg (by omega), if_neg (by omega), if_neg (by omega),
      dif_pos (by omega)]
    congr 1
    apply Fin.ext
    simp
  simp only [RawEntry.ofBytes, nameBytes, extBytes, mapBytes]
  rfl

/-- An entry put into a record is taken out of its slot, and the other slots stay. -/
theorem takeEntry_putEntry (record : Record) (slot other : Fin 4) (raw : RawEntry) :
    takeEntry (putEntry record slot raw) other =
      if other = slot then raw else takeEntry record other := by
  have byteOf (i : Fin 32) : putEntry record slot raw ⟨other * 32 + i, by omega⟩ =
      if other = slot then raw.byte i else record ⟨other * 32 + i, by omega⟩ := by
    have quotient : (other.val * 32 + i.val) / 32 = other.val := by omega
    have remainder : (other.val * 32 + i.val) % 32 = i.val := by omega
    simp only [putEntry, quotient, remainder, Fin.val_inj]
  unfold takeEntry
  rw [funext byteOf]
  split
  · exact raw.ofBytes_byte
  · rfl

/-- A record is determined by its four entries. -/
theorem record_eq_of_entries {left right : Record}
    (same : ∀ slot, takeEntry left slot = takeEntry right slot) : left = right := by
  funext i
  have slotBound : i.val / 32 < 4 := by omega
  have entry := same ⟨i.val / 32, slotBound⟩
  have place : i = ⟨i.val / 32 * 32 + i.val % 32, by omega⟩ := by
    apply Fin.ext
    simp only
    omega
  have bytes : ∀ k : Fin 32, left ⟨i.val / 32 * 32 + k, by omega⟩ =
      right ⟨i.val / 32 * 32 + k, by omega⟩ := by
    intro k
    have cover : k.val = 0 ∨ (1 ≤ k.val ∧ k.val < 9) ∨ (9 ≤ k.val ∧ k.val < 12) ∨ k.val = 12 ∨
        k.val = 13 ∨ k.val = 14 ∨ k.val = 15 ∨ (16 ≤ k.val ∧ k.val < 32) := by omega
    have field (base j : Nat) (inside : base + j < 32) (found : k.val = base + j)
        (equal : left ⟨i.val / 32 * 32 + (base + j), by omega⟩ =
          right ⟨i.val / 32 * 32 + (base + j), by omega⟩) :
        left ⟨i.val / 32 * 32 + k, by omega⟩ = right ⟨i.val / 32 * 32 + k, by omega⟩ := by
      simp only [found]
      exact equal
    rcases cover with h | h | h | h | h | h | h | h
    · exact field 0 0 (by omega) (by omega) (congrArg RawEntry.user entry)
    · exact field 1 (k - 1) (by omega) (by omega)
        (congrFun (congrArg RawEntry.name entry) ⟨k - 1, by omega⟩)
    · exact field 9 (k - 9) (by omega) (by omega)
        (congrFun (congrArg RawEntry.ext entry) ⟨k - 9, by omega⟩)
    · exact field 12 0 (by omega) (by omega) (congrArg RawEntry.ex entry)
    · exact field 13 0 (by omega) (by omega) (congrArg RawEntry.s1 entry)
    · exact field 14 0 (by omega) (by omega) (congrArg RawEntry.s2 entry)
    · exact field 15 0 (by omega) (by omega) (congrArg RawEntry.rc entry)
    · exact field 16 (k - 16) (by omega) (by omega)
        (congrFun (congrArg RawEntry.map entry) ⟨k - 16, by omega⟩)
  rw [place]
  exact bytes ⟨i.val % 32, by omega⟩

/-! ## Names -/

/-- The user number, name and extension that the source passes as three arguments. -/
structure File where
  /-- User number. -/
  user : UInt8
  /-- Name, space-padded. -/
  name : Fin 8 → UInt8
  /-- Extension, space-padded. -/
  ext : Fin 3 → UInt8

/-- Files are compared field by field, which evaluates on any three fields. -/
instance : DecidableEq File := fun left right =>
  decidable_of_iff (left.user = right.user ∧ left.name = right.name ∧ left.ext = right.ext) (by
    cases left
    cases right
    simp)

/-- `(0x20..0x7F).contains(&c)`. -/
def printable (c : UInt8) : Bool := decide (0x20 ≤ c ∧ c < 0x7F)

/-- A name as a directory listing shows it, the attribute bits stripped. -/
def strip {n : Nat} (bytes : Fin n → UInt8) : Fin n → UInt8 := fun i => bytes i &&& 0x7F

/-- `check_name`: may this be written as a name? -/
def checkName (name : Fin 8 → UInt8) (ext : Fin 3 → UInt8) : Except IoError Unit :=
  if (∀ i, printable (name i &&& 0x7F)) ∧ ∀ i, printable (ext i &&& 0x7F) then .ok ()
  else .error ⟨.invalidInput, "a CP/M file name is printable characters"⟩

/-- Every byte of a name is printable, attribute bits apart. -/
def PrintableName (name : Fin 8 → UInt8) (ext : Fin 3 → UInt8) : Prop :=
  (∀ i, printable (name i &&& 0x7F) = true) ∧ ∀ i, printable (ext i &&& 0x7F) = true

instance (name : Fin 8 → UInt8) (ext : Fin 3 → UInt8) : Decidable (PrintableName name ext) := by
  unfold PrintableName; infer_instance

theorem checkName_ok_iff (name : Fin 8 → UInt8) (ext : Fin 3 → UInt8) :
    checkName name ext = .ok () ↔ PrintableName name ext := by
  unfold checkName PrintableName
  split <;> simp_all

/-! ## The allocation map -/

/-- The block numbers a map has room for: sixteen of one byte, or eight of two. -/
def mapNumbers (params : Params) (map : Fin 16 → UInt8) : List Nat :=
  if params.wideBlocks then
    List.ofFn fun i : Fin 8 =>
      (map ⟨2 * i, by omega⟩).toNat + 256 * (map ⟨2 * i + 1, by omega⟩).toNat
  else List.ofFn fun i : Fin 16 => (map i).toNat

/-- `decode_blocks`. -/
def decodeBlocks (raw : RawEntry) (params : Params) : List Nat :=
  (mapNumbers params raw.map).take params.mapSlots

/-- `encode_blocks`. -/
def encodeBlocks (raw : RawEntry) (blocks : List Nat) (params : Params) : RawEntry :=
  { raw with
    map := fun i =>
      if params.wideBlocks then
        match blocks[i.val / 2]? with
        | some b => if i.val % 2 = 0 then UInt8.ofNat b else UInt8.ofNat (b / 256)
        | none => raw.map i
      else
        match blocks[i.val]? with
        | some b => if b ≤ 0xFF then UInt8.ofNat b else 0
        | none => raw.map i }

theorem mapNumbers_length (params : Params) (map : Fin 16 → UInt8) :
    (mapNumbers params map).length = params.slotsInMap := by
  unfold mapNumbers Params.slotsInMap
  split <;> simp

/-- A decoded map has one number for each slot in use. -/
theorem decodeBlocks_length (raw : RawEntry) (params : Params)
    (fits : params.mapSlots ≤ params.slotsInMap) :
    (decodeBlocks raw params).length = params.mapSlots := by
  rw [decodeBlocks, List.length_take, mapNumbers_length]
  omega

/-- Numbers that fit the width survive being written to a map and read back. -/
theorem mapNumbers_encodeBlocks (raw : RawEntry) (blocks : List Nat) (params : Params)
    (length : blocks.length ≤ params.slotsInMap)
    (wide : params.wideBlocks = true → ∀ b ∈ blocks, b < 65536)
    (narrow : params.wideBlocks = false → ∀ b ∈ blocks, b < 256) :
    mapNumbers params (encodeBlocks raw blocks params).map =
      blocks ++ (mapNumbers params raw.map).drop blocks.length := by
  apply List.ext_getElem?
  intro i
  cases width : params.wideBlocks with
  | true =>
    simp only [Params.slotsInMap, width, ↓reduceIte] at length
    simp only [mapNumbers, encodeBlocks, width, ↓reduceIte, List.getElem?_append,
      List.getElem?_drop]
    split
    · rename_i inside
      have small := wide width blocks[i] (List.getElem_mem inside)
      have even : 2 * i / 2 = i := by omega
      have odd : (2 * i + 1) / 2 = i := by omega
      have parity : 2 * i % 2 = 0 ∧ (2 * i + 1) % 2 = 1 := by omega
      have here : i < 8 := by omega
      rw [List.getElem?_eq_getElem (by simpa using here), List.getElem?_eq_getElem inside]
      simp only [List.getElem_ofFn, even, odd, parity.1, parity.2, ↓reduceIte,
        List.getElem?_eq_getElem inside, UInt8.toNat_ofNat', Nat.reduceEqDiff]
      congr 1
      omega
    · rename_i outside
      rw [Nat.add_sub_cancel' (by omega)]
      have even : blocks[2 * i / 2]? = none := List.getElem?_eq_none (by omega)
      have odd : blocks[(2 * i + 1) / 2]? = none := List.getElem?_eq_none (by omega)
      simp only [List.getElem?_ofFn, even, odd]
  | false =>
    simp only [Params.slotsInMap, width, Bool.false_eq_true, ↓reduceIte] at length
    simp only [mapNumbers, encodeBlocks, width, Bool.false_eq_true, ↓reduceIte,
      List.getElem?_append, List.getElem?_drop]
    split
    · rename_i inside
      have small := narrow width blocks[i] (List.getElem_mem inside)
      have here : i < 16 := by omega
      rw [List.getElem?_eq_getElem (by simpa using here), List.getElem?_eq_getElem inside]
      simp only [List.getElem_ofFn, List.getElem?_eq_getElem inside, show blocks[i] ≤ 255 by omega,
        ↓reduceIte, UInt8.toNat_ofNat']
      congr 1
      omega
    · rename_i outside
      rw [Nat.add_sub_cancel' (by omega)]
      have none : blocks[i]? = none := List.getElem?_eq_none (by omega)
      simp only [List.getElem?_ofFn, none]

/-- `decode_blocks` inverts `encode_blocks` on a full set of numbers that fit. -/
theorem decodeBlocks_encodeBlocks (raw : RawEntry) (blocks : List Nat) (params : Params)
    (fits : params.mapSlots ≤ params.slotsInMap) (length : blocks.length = params.mapSlots)
    (wide : params.wideBlocks = true → ∀ b ∈ blocks, b < 65536)
    (narrow : params.wideBlocks = false → ∀ b ∈ blocks, b < 256) :
    decodeBlocks (encodeBlocks raw blocks params) params = blocks := by
  rw [decodeBlocks, mapNumbers_encodeBlocks raw blocks params (by omega) wide narrow, ← length,
    List.take_left]

/-! ## Extents -/

/-- `a & !mask` on 32-bit quantities. -/
def maskOff (a mask : Nat) : Nat := a &&& (0xFFFFFFFF ^^^ mask)

/-- Under a mask of one extent or two, masking off rounds down to the entry's first extent. -/
theorem maskOff_eq {a mask : Nat} (small : a < 2 ^ 32) (masks : mask = 0 ∨ mask = 1) :
    maskOff a mask = a / (mask + 1) * (mask + 1) := by
  rcases masks with rfl | rfl
  · have all : a &&& (2 ^ 32 - 1) = a := by
      rw [Nat.and_two_pow_sub_one_eq_mod, Nat.mod_eq_of_lt small]
    simpa [maskOff] using all
  · have halves : a / 2 * 2 = (a >>> 1) <<< 1 := by
      simp [Nat.shiftRight_eq_div_pow, Nat.shiftLeft_eq]
    change a &&& 0xFFFFFFFE = a / 2 * 2
    rw [halves]
    apply Nat.eq_of_testBit_eq
    intro i
    have constant : (0xFFFFFFFE : Nat) = (2 ^ 31 - 1) <<< 1 := by decide
    rw [constant, Nat.testBit_and, Nat.testBit_shiftLeft, Nat.testBit_shiftLeft,
      Nat.testBit_shiftRight, Nat.testBit_two_pow_sub_one]
    by_cases first : i ≥ 1
    · rw [show 1 + (i - 1) = i by omega]
      by_cases high : i - 1 < 31
      · simp [first, high]
      · have zero : a.testBit i = false :=
          Nat.testBit_lt_two_pow (Nat.lt_of_lt_of_le small (Nat.pow_le_pow_right (by decide)
            (by omega)))
        simp [zero]
    · simp [first]

/-- Under a mask of one extent or two, masking keeps the extent's place in its entry. -/
theorem and_mask_eq (a : Nat) {mask : Nat} (masks : mask = 0 ∨ mask = 1) :
    a &&& mask = a % (mask + 1) := by
  rcases masks with rfl | rfl
  · simp [Nat.mod_one]
  · exact Nat.and_one_is_mod a

/-- `raw[12] as u32 + 32 * (raw[14] & 0x3F) as u32`. -/
def RawEntry.extent (raw : RawEntry) : Nat := raw.ex.toNat + 32 * (raw.s2 &&& 0x3F).toNat

theorem RawEntry.extent_lt (raw : RawEntry) : raw.extent < 2 ^ 32 := by
  have low := raw.ex.toNat_lt
  have high := (raw.s2 &&& 0x3F).toNat_lt
  rw [RawEntry.extent]
  omega

/-- The two bytes an extent number is written to. -/
def RawEntry.withExtent (raw : RawEntry) (extent : Nat) : RawEntry :=
  { raw with ex := UInt8.ofNat (extent % 32), s2 := UInt8.ofNat (extent / 32) }

/-- An extent number below 2048 is read back from its two bytes. -/
theorem RawEntry.extent_withExtent (raw : RawEntry) {extent : Nat} (small : extent < 2048) :
    (raw.withExtent extent).extent = extent := by
  have mask : (UInt8.ofNat (extent / 32) &&& 0x3F).toNat = extent / 32 := by
    rw [UInt8.toNat_and, UInt8.toNat_ofNat']
    change extent / 32 % 2 ^ 8 &&& (2 ^ 6 - 1) = _
    rw [Nat.and_two_pow_sub_one_eq_mod]
    omega
  simp only [RawEntry.extent, RawEntry.withExtent, mask, UInt8.toNat_ofNat']
  omega

/-! ## Parsing -/

/-- `DirSlot`: one parsed directory entry. -/
structure DirSlot where
  /-- Index in the directory. -/
  index : Nat
  /-- User, name and extension, attribute bits stripped. -/
  file : File
  /-- Full extent number. -/
  extent : Nat
  /-- Records used in the entry's final logical extent. -/
  rc : UInt8
  /-- Allocation map, zero for an unallocated slot. -/
  blocks : List Nat
  /-- R/O attribute. -/
  readOnly : Bool
  /-- System attribute. -/
  system : Bool
  /-- The entry as it sits on the disk. -/
  raw : RawEntry
  deriving DecidableEq

/-- `raw[0] == E5 || (raw[0] == 0 && raw[1..12].iter().all(|&c| c == 0))`. -/
def RawEntry.isFree (raw : RawEntry) : Bool :=
  raw.user == fill || (raw.user == 0 && decide ((∀ i, raw.name i = 0) ∧ ∀ i, raw.ext i = 0))

/-- `raw[9] & 0x80 != 0`: the R/O attribute of an entry. -/
def RawEntry.locked (raw : RawEntry) : Bool := raw.ext 0 &&& 0x80 != 0

/-- The parsed form of an entry, its name and user taken for granted. -/
def RawEntry.slot (raw : RawEntry) (index : Nat) (params : Params) : DirSlot where
  index := index
  file := ⟨raw.user, strip raw.name, strip raw.ext⟩
  extent := raw.extent
  rc := raw.rc
  blocks := decodeBlocks raw params
  readOnly := raw.locked
  system := raw.ext 1 &&& 0x80 != 0
  raw := raw

/-- `parse_entry`. -/
def parseEntry (index : Nat) (raw : RawEntry) (params : Params) : Option DirSlot :=
  if raw.user == fill then none
  else if raw.user == 0 && decide ((∀ i, raw.name i = 0) ∧ ∀ i, raw.ext i = 0) then none
  else if raw.user > 15 then none
  else if ¬ ((∀ i, printable (strip raw.name i)) ∧ ∀ i, printable (strip raw.ext i)) then none
  else some (raw.slot index params)

/-- An entry the parser reads as part of a file. -/
def RawEntry.Live (raw : RawEntry) : Prop :=
  raw.isFree = false ∧ raw.user ≤ 15 ∧ PrintableName raw.name raw.ext

instance (raw : RawEntry) : Decidable raw.Live := by unfold RawEntry.Live; infer_instance

/-- The parser reads exactly the live entries. -/
theorem parseEntry_eq (index : Nat) (raw : RawEntry) (params : Params) :
    parseEntry index raw params = if raw.Live then some (raw.slot index params) else none := by
  unfold parseEntry RawEntry.Live RawEntry.isFree PrintableName strip
  by_cases erased : raw.user == fill
  · simp [erased]
  · by_cases zero : raw.user == 0 && decide ((∀ i, raw.name i = 0) ∧ ∀ i, raw.ext i = 0)
    · simp only [erased, zero, Bool.false_eq_true, ↓reduceIte, Bool.false_or]
      rw [if_neg (by simp)]
    · simp only [erased, zero, Bool.false_eq_true, ↓reduceIte, Bool.false_or, true_and]
      by_cases user : raw.user > 15
      · simp only [user, ↓reduceIte]
        rw [if_neg (fun live => absurd user (UInt8.not_lt.mpr live.1))]
      · simp only [user, ↓reduceIte, UInt8.not_lt.mp user, true_and]
        by_cases names : (∀ i, printable (raw.name i &&& 0x7F) = true) ∧
            ∀ i, printable (raw.ext i &&& 0x7F) = true
        · rw [if_neg (not_not.mpr names), if_pos names]
        · rw [if_pos names, if_neg names]

theorem parseEntry_some_iff {index : Nat} {raw : RawEntry} {params : Params} {slot : DirSlot} :
    parseEntry index raw params = some slot ↔ raw.Live ∧ slot = raw.slot index params := by
  rw [parseEntry_eq]
  split <;> simp_all [eq_comm]

/-- A printable entry of a user number of files is never free. -/
theorem RawEntry.live_iff {raw : RawEntry} :
    raw.Live ↔ raw.user ≤ 15 ∧ PrintableName raw.name raw.ext := by
  refine ⟨fun live => live.2, fun ⟨user, printed⟩ => ⟨?_, user, printed⟩⟩
  have unerased : raw.user ≠ fill := fun same => by
    rw [same] at user
    exact absurd user (by decide)
  have first := printed.1 0
  have written : raw.name 0 ≠ 0 := fun zero => by
    rw [zero] at first
    exact absurd first (by decide)
  simp only [isFree, beq_eq_false_iff_ne.mpr unerased, Bool.false_or, Bool.and_eq_false_iff,
    decide_eq_false_iff_not]
  exact .inr fun blank => written (blank.1 0)

/-- Whether an entry is live depends on its user number and name alone. -/
theorem RawEntry.live_congr {left right : RawEntry} (user : left.user = right.user)
    (name : left.name = right.name) (ext : left.ext = right.ext) : left.Live ↔ right.Live := by
  rw [live_iff, live_iff, user, name, ext]

/-- `foreign_blocks`: the blocks of an in-use entry that is not read as a file. -/
def foreignBlocks (raw : RawEntry) (params : Params) : List Nat :=
  if raw.isFree || decide (raw.user > 31) then []
  else (mapNumbers params raw.map).filter fun b => b != 0 && decide (b ≤ params.maxBlock)

/-- The blocks an entry names: the nonzero numbers in the slots the format uses. -/
def RawEntry.named (raw : RawEntry) (params : Params) : List Nat :=
  (decodeBlocks raw params).filter (· ≠ 0)

theorem RawEntry.mem_named {raw : RawEntry} {params : Params} {block : Nat} :
    block ∈ raw.named params ↔ block ∈ decodeBlocks raw params ∧ block ≠ 0 := by
  simp [RawEntry.named]

end EthernetGateway.Image
