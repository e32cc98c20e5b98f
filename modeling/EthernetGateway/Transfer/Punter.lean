import EthernetGateway.Chunks
import Mathlib

/-!
# Punter blocks

A file goes out in blocks. Each carries the length of the one that follows it, its number and two
checksums over both and its data; the first has a length both sides know. The number of the last
marks it as such, so that those of the others stay below the mark.
-/

namespace EthernetGateway.Transfer.Punter

/-- `DATAPOS`, the bytes in front of the payload. -/
def dataPos : Nat := 7

/-- `MAX_BLOCK`. -/
def maxBlock : Nat := 255

/-- `MAX_PAYLOAD`. -/
def maxPayload : Nat := maxBlock - dataPos

/-- `DATA_PHASE_FIRST_SIZE`. -/
def dataPhaseFirstSize : UInt8 := 7

/-- `MAX_DATA_BLOCK_INDEX`. -/
def maxDataBlockIndex : Nat := 0xFEFF

/-- `u16::rotate_left(1)`. -/
def rotateLeft (n : UInt16) : UInt16 := (n <<< 1) ||| (n >>> 15)

/-- One byte of `punter_checksums`. -/
def checksumByte (sums : UInt16 × UInt16) (b : UInt8) : UInt16 × UInt16 :=
  (sums.1 + b.toUInt16, rotateLeft (sums.2 ^^^ b.toUInt16))

/-- `punter_checksums`: the additive and the cyclic one. -/
def punterChecksums (body : List UInt8) : UInt16 × UInt16 := body.foldl checksumByte (0, 0)

/-- The two bytes of a number, the low one first. -/
def toLeBytes (n : UInt16) : List UInt8 := [(n &&& 0xFF).toUInt8, (n >>> 8).toUInt8]

/-- `u16::from_le_bytes`. -/
def fromLeBytes (low high : UInt8) : UInt16 := low.toUInt16 ||| (high.toUInt16 <<< 8)

/-- A body behind its checksums. -/
def stamped (body : List UInt8) : List UInt8 :=
  toLeBytes (punterChecksums body).1 ++ toLeBytes (punterChecksums body).2 ++ body

/-- `build_block`. -/
def buildBlock (nextSize : UInt8) (blockIndex : UInt16) (payload : List UInt8) : List UInt8 :=
  stamped (nextSize :: toLeBytes blockIndex ++ payload)

/-- `checksum_ok`. -/
def checksumOk (blk : List UInt8) : Bool :=
  decide (dataPos ≤ blk.length) &&
    decide (punterChecksums (blk.drop 4) =
      (fromLeBytes (blk.getD 0 0) (blk.getD 1 0), fromLeBytes (blk.getD 2 0) (blk.getD 3 0)))

/-- `is_final_block`. -/
def isFinalBlock (blk : List UInt8) : Bool := blk[6]? = some 0xFF

/-- `blk[SIZEPOS]`. -/
def sizeField (blk : List UInt8) : UInt8 := blk.getD 4 0

/-- The number of a block. -/
def blockIndex (blk : List UInt8) : UInt16 := fromLeBytes (blk.getD 5 0) (blk.getD 6 0)

/-- `blk[DATAPOS..]`. -/
def blockPayload (blk : List UInt8) : List UInt8 := blk.drop dataPos

/-- The length of the following block is put into a block, and its checksums are computed again. -/
def announce (next : UInt8) (blk : List UInt8) : List UInt8 := stamped (next :: blk.drop 5)

/-- `backpatch_next_sizes`. -/
def backpatchNextSizes : List (List UInt8) → List (List UInt8)
  | [] => []
  | [blk] => [announce blk.length.toUInt8 blk]
  | blk :: next :: rest => announce next.length.toUInt8 blk :: backpatchNextSizes (next :: rest)

/-- The numbered blocks of the pieces of a file, the last of which is marked. -/
def chunkBlocks : Nat → List (List UInt8) → List (List UInt8)
  | _, [] => []
  | _, [chunk] => [buildBlock 0 0xFFFF chunk]
  | i, chunk :: next :: rest =>
    buildBlock 0 (UInt16.ofNat i + 1) chunk :: chunkBlocks (i + 1) (next :: rest)

/-- `build_data_blocks`. -/
def buildDataBlocks (data : List UInt8) (blockPayload : Nat) :
    Except String (List (List UInt8)) :=
  let payloadCap := max 1 (min blockPayload maxPayload)
  let first := buildBlock 0 0 []
  if data = [] then .ok (backpatchNextSizes [first, buildBlock 0 0xFFFF []])
  else
    let chunkCount := (data.length + payloadCap - 1) / payloadCap
    if chunkCount - 1 > maxDataBlockIndex then
      .error ("Punter send: file too large for block payload " ++ toString payloadCap ++ " (" ++
        toString chunkCount ++ " chunks exceeds " ++ toString (maxDataBlockIndex + 1) ++
        " addressable blocks)")
    else .ok (backpatchNextSizes (first :: chunkBlocks 0 (chunks payloadCap data)))

/-- What a receiver takes that reads some blocks, each as long as the one before it says. -/
def readBlocks : Nat → UInt8 → List UInt8 → List (List UInt8) × List UInt8
  | 0, _, bytes => ([], bytes)
  | count + 1, size, bytes =>
    let blk := bytes.take size.toNat
    let (later, rest) := readBlocks count (sizeField blk) (bytes.drop size.toNat)
    (blk :: later, rest)

/-! ## One block -/

/-- The low byte of a number. -/
theorem low_toNat (n : UInt16) : ((n &&& 0xFF).toUInt8).toNat = n.toNat % 256 := by
  have mask : n.toNat &&& 255 = n.toNat % 256 := Nat.and_two_pow_sub_one_eq_mod n.toNat 8
  rw [UInt16.toNat_toUInt8, UInt16.toNat_and, show (0xFF : UInt16).toNat = 255 from rfl, mask,
    Nat.mod_mod]

/-- The high byte of a number. -/
theorem high_toNat (n : UInt16) : ((n >>> 8).toUInt8).toNat = n.toNat / 256 := by
  have small : n.toNat < 65536 := n.toNat_lt
  have shift : (n >>> 8).toNat = n.toNat / 256 := by
    rw [UInt16.toNat_shiftRight, Nat.shiftRight_eq_div_pow]
    rfl
  rw [UInt16.toNat_toUInt8, shift, Nat.mod_eq_of_lt (by omega)]

/-- A number is read back from its bytes. -/
theorem fromLeBytes_toLeBytes (n : UInt16) :
    fromLeBytes (n &&& 0xFF).toUInt8 (n >>> 8).toUInt8 = n := by
  have small : n.toNat < 65536 := n.toNat_lt
  have shifted : (((n >>> 8).toUInt8).toUInt16 <<< 8).toNat = n.toNat / 256 * 2 ^ 8 := by
    rw [UInt16.toNat_shiftLeft, UInt8.toNat_toUInt16, high_toNat, Nat.shiftLeft_eq]
    exact Nat.mod_eq_of_lt (show n.toNat / 256 * 2 ^ 8 < 65536 by omega)
  have joined := Nat.shiftLeft_add_eq_or_of_lt (show n.toNat % 256 < 2 ^ 8 by omega) (n.toNat / 256)
  apply UInt16.toNat_inj.mp
  rw [fromLeBytes, UInt16.toNat_or, UInt8.toNat_toUInt16, low_toNat, shifted, Nat.or_comm,
    ← Nat.shiftLeft_eq, ← joined, Nat.shiftLeft_eq]
  omega

/-- What is stamped passes its checksums. -/
theorem checksumOk_stamped {body : List UInt8} (header : 3 ≤ body.length) :
    checksumOk (stamped body) = true := by
  have long : dataPos ≤ (stamped body).length := by
    show 7 ≤ body.length + 4
    omega
  have sums : punterChecksums ((stamped body).drop 4) =
      (fromLeBytes ((stamped body).getD 0 0) ((stamped body).getD 1 0),
        fromLeBytes ((stamped body).getD 2 0) ((stamped body).getD 3 0)) := by
    show punterChecksums body = (fromLeBytes ((punterChecksums body).1 &&& 0xFF).toUInt8
      ((punterChecksums body).1 >>> 8).toUInt8,
      fromLeBytes ((punterChecksums body).2 &&& 0xFF).toUInt8
        ((punterChecksums body).2 >>> 8).toUInt8)
    rw [fromLeBytes_toLeBytes, fromLeBytes_toLeBytes]
  rw [checksumOk, decide_eq_true long, decide_eq_true sums]
  rfl

section Block

variable (next : UInt8) (index : UInt16) (payload : List UInt8)

/-- A block passes its checksums. -/
theorem checksumOk_buildBlock : checksumOk (buildBlock next index payload) = true := by
  apply checksumOk_stamped
  show 3 ≤ payload.length + 3
  omega

/-- A block announces the length it was built with. -/
theorem sizeField_buildBlock : sizeField (buildBlock next index payload) = next := rfl

/-- A block has the number it was built with. -/
theorem blockIndex_buildBlock : blockIndex (buildBlock next index payload) = index :=
  fromLeBytes_toLeBytes index

/-- A block carries the payload it was built with. -/
theorem blockPayload_buildBlock : blockPayload (buildBlock next index payload) = payload := rfl

/-- A block is the last by the high byte of its number. -/
theorem isFinalBlock_buildBlock :
    isFinalBlock (buildBlock next index payload) = true ↔ maxDataBlockIndex < index.toNat := by
  have small : index.toNat < 65536 := index.toNat_lt
  have byte : (buildBlock next index payload)[6]? = some (index >>> 8).toUInt8 := rfl
  rw [isFinalBlock, byte, decide_eq_true_eq, Option.some.injEq, ← UInt8.toNat_inj, high_toNat]
  show index.toNat / 256 = 255 ↔ 0xFEFF < index.toNat
  omega

/-- Announcing another length changes nothing else of a block. -/
theorem announce_buildBlock (other : UInt8) :
    announce other (buildBlock next index payload) = buildBlock other index payload := rfl

end Block

/-! ## The blocks of a file -/

/-- A block that is not yet linked to its follower: its number and its payload. -/
abbrev Draft : Type := UInt16 × List UInt8

/-- The length of a block, in one byte. -/
def Draft.size (draft : Draft) : UInt8 := (draft.2.length + dataPos).toUInt8

/-- The blocks of drafts, each linked to its follower. -/
def linked : List Draft → List (List UInt8)
  | [] => []
  | [draft] => [buildBlock draft.size draft.1 draft.2]
  | draft :: next :: rest => buildBlock next.size draft.1 draft.2 :: linked (next :: rest)

/-- The drafts of the pieces of a file. -/
def chunkDrafts : Nat → List (List UInt8) → List Draft
  | _, [] => []
  | _, [chunk] => [(0xFFFF, chunk)]
  | i, chunk :: next :: rest => (UInt16.ofNat i + 1, chunk) :: chunkDrafts (i + 1) (next :: rest)

/-- The blocks of pieces are those of their drafts. -/
theorem chunkBlocks_eq (i : Nat) (pieces : List (List UInt8)) :
    chunkBlocks i pieces =
      (chunkDrafts i pieces).map fun draft => buildBlock 0 draft.1 draft.2 := by
  fun_induction chunkBlocks i pieces with
  | case1 => rfl
  | case2 => rfl
  | case3 i chunk next rest ih => rw [chunkDrafts, List.map_cons, ih]

/-- `backpatch_next_sizes` links the blocks of drafts. -/
theorem backpatchNextSizes_eq (drafts : List Draft) :
    backpatchNextSizes (drafts.map fun draft => buildBlock 0 draft.1 draft.2) = linked drafts := by
  fun_induction linked drafts with
  | case1 => rfl
  | case2 draft => rfl
  | case3 draft next rest ih =>
    rw [List.map_cons, List.map_cons, backpatchNextSizes, announce_buildBlock]
    rw [List.map_cons] at ih
    rw [ih]
    rfl

/-- Every block passes its checksums. -/
theorem checksumOk_linked (drafts : List Draft) :
    ∀ blk ∈ linked drafts, checksumOk blk = true := by
  fun_induction linked drafts with
  | case1 =>
    intro blk mem
    cases mem
  | case2 draft =>
    intro blk mem
    rw [List.mem_singleton.mp mem]
    exact checksumOk_buildBlock _ _ _
  | case3 draft next rest ih =>
    intro blk mem
    obtain first | later := List.mem_cons.mp mem
    · rw [first]
      exact checksumOk_buildBlock _ _ _
    · exact ih blk later

/-- What is in a block is what its draft says. -/
theorem linked_map {β : Type} (drafts : List Draft) (look : List UInt8 → β) (said : Draft → β)
    (carries : ∀ next draft, look (buildBlock next draft.1 draft.2) = said draft) :
    (linked drafts).map look = drafts.map said := by
  fun_induction linked drafts with
  | case1 => rfl
  | case2 draft => rw [List.map_cons, carries, List.map_nil, List.map_cons, List.map_nil]
  | case3 draft next rest ih =>
    rw [List.map_cons, carries, ih]
    rfl

/-- The blocks of drafts are as many. -/
theorem linked_length (drafts : List Draft) : (linked drafts).length = drafts.length := by
  have same := congrArg List.length (linked_map drafts blockPayload Prod.snd fun next d =>
    blockPayload_buildBlock next d.1 d.2)
  rwa [List.length_map, List.length_map] at same

/-- A length that fits one byte. -/
theorem Draft.size_toNat {draft : Draft} (short : draft.2.length ≤ maxPayload) :
    draft.size.toNat = draft.2.length + dataPos := by
  have bound : draft.2.length ≤ 248 := short
  show (draft.2.length + 7) % 256 = draft.2.length + 7
  omega

/-- A receiver that reads as many bytes as the block before says takes the blocks as they are. -/
theorem readBlocks_linked (draft : Draft) (rest : List Draft)
    (short : ∀ d ∈ draft :: rest, d.2.length ≤ maxPayload) :
    readBlocks (rest.length + 1) draft.size (linked (draft :: rest)).flatten =
      (linked (draft :: rest), []) := by
  induction rest generalizing draft with
  | nil =>
    have whole : draft.size.toNat = (buildBlock draft.size draft.1 draft.2).length :=
      Draft.size_toNat (short draft List.mem_cons_self)
    have bytes : (linked [draft]).flatten = buildBlock draft.size draft.1 draft.2 :=
      List.append_nil _
    rw [bytes]
    simp only [List.length_nil, readBlocks, whole, List.take_length, List.drop_length]
    rfl
  | cons next rest ih =>
    have whole : draft.size.toNat = (buildBlock next.size draft.1 draft.2).length :=
      Draft.size_toNat (short draft List.mem_cons_self)
    have bytes : (linked (draft :: next :: rest)).flatten =
        buildBlock next.size draft.1 draft.2 ++ (linked (next :: rest)).flatten := rfl
    have later := ih next fun d mem => short d (List.mem_cons_of_mem _ mem)
    rw [bytes, List.length_cons, readBlocks]
    simp only [whole, List.take_left, List.drop_left, sizeField_buildBlock, later]
    rfl

/-- Drafts that are numbered from a number on, the last of which is marked. -/
def Numbered : Nat → List Draft → Prop
  | _, [] => False
  | _, [draft] => draft.1 = 0xFFFF
  | i, draft :: next :: rest =>
    draft.1.toNat = i ∧ i ≤ maxDataBlockIndex ∧ Numbered (i + 1) (next :: rest)

/-- The drafts of some pieces are numbered where their number stays below the mark. -/
theorem numbered_chunkDrafts (i : Nat) {pieces : List (List UInt8)} (some : pieces ≠ [])
    (few : i + pieces.length ≤ maxDataBlockIndex + 1) :
    Numbered (i + 1) (chunkDrafts i pieces) := by
  fun_induction chunkDrafts i pieces with
  | case1 => exact absurd rfl some
  | case2 => rfl
  | case3 i chunk next rest ih =>
    have few : i + (rest.length + 2) ≤ 0xFEFF + 1 := few
    have later := ih (List.cons_ne_nil _ _) (by
      show i + 1 + (rest.length + 1) ≤ 0xFEFF + 1
      omega)
    have number : (UInt16.ofNat i + 1).toNat = i + 1 := by
      show (i % 65536 + 1) % 65536 = i + 1
      omega
    cases drafted : chunkDrafts (i + 1) (next :: rest) with
    | nil =>
      rw [drafted] at later
      exact absurd later id
    | cons second others =>
      rw [drafted] at later
      exact ⟨number, by show i + 1 ≤ 0xFEFF; omega, later⟩

/-- Of numbered drafts the last is marked, and the others have their places for numbers. -/
theorem Numbered.get {i : Nat} {drafts : List Draft} (numbered : Numbered i drafts) (k : Nat)
    (inside : k < drafts.length) :
    (maxDataBlockIndex < drafts[k].1.toNat ↔ k + 1 = drafts.length) ∧
      (k + 1 < drafts.length → drafts[k].1.toNat = i + k) := by
  fun_induction Numbered i drafts generalizing k with
  | case1 => exact absurd numbered id
  | case2 i draft =>
    obtain rfl : k = 0 := by
      rw [List.length_singleton] at inside
      omega
    have mark : draft.1 = 0xFFFF := numbered
    constructor
    · rw [List.getElem_cons_zero, mark]
      exact ⟨fun _ => rfl, fun _ => by decide⟩
    · intro more
      rw [List.length_singleton] at more
      omega
  | case3 i draft next rest ih =>
    obtain ⟨number, small, later⟩ := numbered
    cases k with
    | zero =>
      rw [List.getElem_cons_zero, number]
      constructor
      · constructor
        · intro large
          omega
        · intro only
          rw [List.length_cons, List.length_cons] at only
          omega
      · intro _
        rfl
    | succ k =>
      obtain ⟨mark, place⟩ := ih later k (Nat.lt_of_succ_lt_succ inside)
      rw [List.getElem_cons_succ]
      constructor
      · rw [mark, List.length_cons, List.length_cons, List.length_cons]
        omega
      · intro more
        rw [place (Nat.lt_of_succ_lt_succ more)]
        omega

/-- Linked drafts are a sequence of blocks that carries their payloads. -/
theorem linked_sequence {first : Draft} {rest : List Draft} {blocks : List (List UInt8)}
    (built : blocks = linked (first :: rest)) (opens : first.2 = [])
    (short : ∀ d ∈ first :: rest, d.2.length ≤ maxPayload) (numbered : Numbered 0 (first :: rest)) :
    readBlocks blocks.length dataPhaseFirstSize blocks.flatten = (blocks, []) ∧
      (∀ blk ∈ blocks, checksumOk blk = true) ∧
      (∀ k (inside : k < blocks.length), isFinalBlock blocks[k] = true ↔ k + 1 = blocks.length) ∧
      (∀ k (inside : k + 1 < blocks.length), (blockIndex blocks[k]).toNat = k) ∧
      (blocks.map blockPayload).flatten = (rest.map Prod.snd).flatten := by
  have length := linked_length (first :: rest)
  have size : first.size = dataPhaseFirstSize := by
    rw [Draft.size, opens]
    rfl
  have element {β : Type} {look : List UInt8 → β} {said : Draft → β}
      (same : (linked (first :: rest)).map look = (first :: rest).map said) (k : Nat)
      (inside : k < (linked (first :: rest)).length) :
      look (linked (first :: rest))[k] = said ((first :: rest).get ⟨k, length ▸ inside⟩) := by
    have there := List.getElem_of_eq same (show k < _ by rw [List.length_map]; exact inside)
    rwa [List.getElem_map, List.getElem_map] at there
  subst built
  refine ⟨?_, checksumOk_linked _, ?_, ?_, ?_⟩
  · rw [length, ← size]
    exact readBlocks_linked first rest short
  · intro k inside
    have marked := element (linked_map (first :: rest) isFinalBlock
      (fun d => decide (maxDataBlockIndex < d.1.toNat)) fun next d => by
        rw [Bool.eq_iff_iff, isFinalBlock_buildBlock, decide_eq_true_eq]) k inside
    rw [marked, decide_eq_true_eq]
    exact (numbered.get k (length ▸ inside)).1.trans (by rw [length])
  · intro k inside
    have number := element (linked_map (first :: rest) blockIndex Prod.fst fun next d =>
      blockIndex_buildBlock next d.1 d.2) k (Nat.lt_of_succ_lt inside)
    have place : (first :: rest)[k].1.toNat = 0 + k :=
      (numbered.get k (length ▸ Nat.lt_of_succ_lt inside)).2 (length ▸ inside)
    rw [Nat.zero_add] at place
    rw [number]
    exact place
  · have payloads := linked_map (first :: rest) blockPayload Prod.snd fun next d =>
      blockPayload_buildBlock next d.1 d.2
    rw [payloads, List.map_cons, opens]
    rfl

/-- The drafts of some pieces carry them. -/
theorem chunkDrafts_payloads (i : Nat) (pieces : List (List UInt8)) :
    (chunkDrafts i pieces).map Prod.snd = pieces := by
  fun_induction chunkDrafts i pieces with
  | case1 => rfl
  | case2 => rfl
  | case3 i chunk next rest ih => rw [List.map_cons, ih]

/-- The drafts of a file that has data: the first carries none, and the others its pieces. -/
theorem drafts_sequence {pieces : List (List UInt8)} (some : pieces ≠ [])
    (few : pieces.length ≤ maxDataBlockIndex + 1)
    (short : ∀ piece ∈ pieces, piece.length ≤ maxPayload) :
    (∀ d ∈ (0, []) :: chunkDrafts 0 pieces, d.2.length ≤ maxPayload) ∧
      Numbered 0 ((0, []) :: chunkDrafts 0 pieces) := by
  constructor
  · intro d mem
    obtain first | later := List.mem_cons.mp mem
    · rw [first]
      exact Nat.zero_le _
    · apply short
      rw [← chunkDrafts_payloads 0 pieces]
      exact List.mem_map_of_mem later
  · have numbered := numbered_chunkDrafts 0 some (by omega)
    cases drafted : chunkDrafts 0 pieces with
    | nil =>
      rw [drafted] at numbered
      exact absurd numbered id
    | cons draft rest =>
      rw [drafted] at numbered
      exact ⟨rfl, Nat.zero_le _, numbered⟩

/-- `build_data_blocks` gives up or gives blocks that a receiver takes one by one as they are: each
announces the length of the next and passes its checksums, the last one and no other is marked, the
others are numbered, and what they carry is the file. -/
theorem data_blocks_framed (data : List UInt8) (payload : Nat) :
    (∃ error, buildDataBlocks data payload = .error error) ∨
      ∃ blocks, buildDataBlocks data payload = .ok blocks ∧
        readBlocks blocks.length dataPhaseFirstSize blocks.flatten = (blocks, []) ∧
        (∀ blk ∈ blocks, checksumOk blk = true) ∧
        (∀ k (inside : k < blocks.length),
          isFinalBlock blocks[k] = true ↔ k + 1 = blocks.length) ∧
        (∀ k (inside : k + 1 < blocks.length), (blockIndex blocks[k]).toNat = k) ∧
        (blocks.map blockPayload).flatten = data := by
  by_cases empty : data = []
  · right
    refine ⟨linked [(0, []), (0xFFFF, [])], ?_, ?_⟩
    · rw [buildDataBlocks, if_pos empty]
      exact congrArg Except.ok (backpatchNextSizes_eq [(0, []), (0xFFFF, [])])
    · rw [empty]
      refine linked_sequence rfl rfl ?_ ⟨rfl, Nat.zero_le _, rfl⟩
      intro d mem
      obtain first | second := List.mem_pair.mp mem
      · rw [first]
        exact Nat.zero_le _
      · rw [second]
        exact Nat.zero_le _
  · let payloadCap := max 1 (min payload maxPayload)
    have positive : 0 < payloadCap := Nat.lt_of_lt_of_le Nat.zero_lt_one (Nat.le_max_left _ _)
    have capped : payloadCap ≤ maxPayload :=
      Nat.max_le.mpr ⟨by decide, Nat.min_le_right _ _⟩
    have count := chunks_length positive data
    by_cases many : (data.length + payloadCap - 1) / payloadCap - 1 > maxDataBlockIndex
    · left
      rw [buildDataBlocks, if_neg empty, if_pos many]
      exact ⟨_, rfl⟩
    · right
      have pieces := @chunks_ne_nil _ payloadCap _ empty
      have short : ∀ piece ∈ chunks payloadCap data, piece.length ≤ maxPayload := fun piece mem =>
        Nat.le_trans (chunks_bounds positive data piece mem).2 capped
      obtain ⟨bounded, numbered⟩ := drafts_sequence pieces (by omega) short
      refine ⟨linked ((0, []) :: chunkDrafts 0 (chunks payloadCap data)), ?_, ?_⟩
      · rw [buildDataBlocks, if_neg empty, if_neg many, chunkBlocks_eq]
        exact congrArg Except.ok
          (backpatchNextSizes_eq ((0, []) :: chunkDrafts 0 (chunks payloadCap data)))
      · have sequence := linked_sequence rfl rfl bounded numbered
        rw [chunkDrafts_payloads, chunks_flatten] at sequence
        exact sequence

/-- Three bytes in pieces of two: a block in front, which announces nine bytes, a full one, and the
last. -/
example :
    buildDataBlocks [0x41, 0x42, 0x43] 2 =
      .ok [[9, 0, 72, 0, 9, 0, 0], [140, 0, 144, 0, 8, 1, 0, 0x41, 0x42],
        [73, 2, 2, 4, 8, 255, 255, 0x43]] := by
  have pieces : chunks 2 [(0x41 : UInt8), 0x42, 0x43] = [[0x41, 0x42], [0x43]] := by
    simp [chunks_cons]
  show Except.ok (backpatchNextSizes (buildBlock 0 0 [] ::
    chunkBlocks 0 (chunks 2 [0x41, 0x42, 0x43]))) = _
  rw [pieces]
  rfl

/-- `build_data_blocks` gives up on the files that are longer than the numbers below the mark have
room for, and on no others. -/
theorem buildDataBlocks_error_iff (data : List UInt8) (payload : Nat) :
    (∃ error, buildDataBlocks data payload = .error error) ↔
      (maxDataBlockIndex + 1) * max 1 (min payload maxPayload) < data.length := by
  by_cases empty : data = []
  · rw [buildDataBlocks, if_pos empty, empty]
    constructor
    · rintro ⟨error, given⟩
      cases given
    · intro long
      exact absurd long (Nat.not_lt_zero _)
  · have positive : 0 < max 1 (min payload maxPayload) :=
      Nat.lt_of_lt_of_le Nat.zero_lt_one (Nat.le_max_left _ _)
    have count : (data.length + max 1 (min payload maxPayload) - 1) /
        max 1 (min payload maxPayload) - 1 > maxDataBlockIndex ↔
        (maxDataBlockIndex + 1) * max 1 (min payload maxPayload) < data.length := by
      rw [gt_iff_lt, Nat.lt_sub_iff_add_lt, ← Nat.succ_le_iff, Nat.le_div_iff_mul_le positive,
        Nat.succ_mul]
      omega
    rw [← count]
    by_cases many : (data.length + max 1 (min payload maxPayload) - 1) /
        max 1 (min payload maxPayload) - 1 > maxDataBlockIndex
    · rw [buildDataBlocks, if_neg empty, if_pos many]
      exact ⟨fun _ => many, fun _ => ⟨_, rfl⟩⟩
    · rw [buildDataBlocks, if_neg empty, if_neg many]
      constructor
      · rintro ⟨error, given⟩
        cases given
      · intro large
        exact absurd large many

end EthernetGateway.Transfer.Punter
