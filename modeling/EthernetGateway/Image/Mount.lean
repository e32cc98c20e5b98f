import EthernetGateway.Image.Fs

/-!
# Mounting an image

A mount reads the directory, builds the bitmap and looks for the first sign of damage; a
damaged directory is mounted read-only. What a mount that stays writable has established about
its list of entries is a statement about the list alone (`Undamaged`).
-/

namespace EthernetGateway.Image

/-- The first sign of damage `ImageFs::inconsistency` reports. -/
inductive Damage where
  /-- A file uses map slots past those of the format. -/
  | unusedSlots (who : File)
  /-- A file names a block past the last. -/
  | pastEnd (who : File) (block : Nat)
  /-- A file names a block of the directory. -/
  | inDirectory (who : File) (block : Nat)
  /-- A file claims a block twice. -/
  | twice (who : File) (block : Nat)
  /-- Files of two users claim one block. -/
  | acrossUsers (prev who : File) (block : Nat)
  /-- Two files of one user claim one block. -/
  | shared (prev who : File) (block : Nat)
  deriving DecidableEq

/-- `String::from_utf8_lossy(bytes).trim_end()`. -/
def trimmed (bytes : List UInt8) : String :=
  String.ofList ((bytes.map fun b => Char.ofNat b.toNat).reverse.dropWhile Char.isWhitespace).reverse

/-- The eleven bytes of a name as the padded text they spell. -/
def File.padded (f : File) : String := trimmed (List.ofFn f.name ++ List.ofFn f.ext)

/-- A name as an operator writes it. -/
def File.spelled (f : File) : String :=
  let base := trimmed (List.ofFn f.name)
  let ext := trimmed (List.ofFn f.ext)
  if ext.isEmpty then base else s!"{base}.{ext}"

/-- The text a damage is reported with. -/
def Damage.reason (params : Params) : Damage → String
  | .unusedSlots who =>
    who.padded ++ " uses allocation slots this disk format does not (written with a different EXM)"
  | .pastEnd who block =>
    who.padded ++ s!" names block {block}, past the last block (" ++ toString params.maxBlock ++ ")"
  | .inDirectory who block =>
    who.padded ++ s!" claims block {block}, which is part of the directory"
  | .twice who block => s!"block {block} is claimed twice by " ++ who.spelled
  | .acrossUsers prev who block =>
    s!"block {block} is claimed by both " ++ prev.spelled ++ " in user " ++ toString prev.user ++
      " and " ++ who.spelled ++ " in user " ++ toString who.user
  | .shared prev who block =>
    s!"block {block} is claimed by both " ++ prev.spelled ++ " and " ++ who.spelled

/-- Bytes of the map the slots of a format use. -/
def Params.usedBytes (params : Params) : Nat := params.mapSlots * if params.wideBlocks then 2 else 1

/-- Every map byte past the slots of the format is zero. -/
def RawEntry.UnusedZero (raw : RawEntry) (params : Params) : Prop :=
  ∀ i : Fin 16, params.usedBytes ≤ i → raw.map i = 0

instance (raw : RawEntry) (params : Params) : Decidable (raw.UnusedZero params) := by
  unfold RawEntry.UnusedZero; infer_instance

/-- The inner loop of `ImageFs::inconsistency`: claim the blocks of one entry. -/
def claimBlocks (params : Params) (who : File) :
    List Nat → (Nat → Option File) → Except Damage (Nat → Option File)
  | [], owner => .ok owner
  | block :: blocks, owner =>
    if block = 0 then claimBlocks params who blocks owner
    else if block > params.maxBlock then .error (.pastEnd who block)
    else if block < params.dirBlocks then .error (.inDirectory who block)
    else
      match owner block with
      | some prev =>
        if prev = who then .error (.twice who block)
        else if prev.user ≠ who.user then .error (.acrossUsers prev who block)
        else .error (.shared prev who block)
      | none =>
        claimBlocks params who blocks fun other => if other = block then some who else owner other

/-- The outer loop of `ImageFs::inconsistency`. -/
def firstDamage (params : Params) : List DirSlot → (Nat → Option File) → Option Damage
  | [], _ => none
  | e :: dir, owner =>
    if ¬ e.raw.UnusedZero params then some (.unusedSlots e.file)
    else
      match claimBlocks params e.file e.blocks owner with
      | .error damage => some damage
      | .ok owner => firstDamage params dir owner

/-- `ImageFs::inconsistency`. -/
def inconsistency (params : Params) (dir : List DirSlot) : Option Damage :=
  firstDamage params dir fun _ => none

/-- `is_power_of_two`. -/
def isPowerOfTwo (n : Nat) : Bool := n != 0 && n &&& (n - 1) == 0

/-- `ImageFs::mount`. -/
def mount (media : Media) (fmt : Format) (readOnly : Bool) : Except IoError ImageFs :=
  let need := fmt.minBytes
  let params := Params.derive fmt
  if media.length < need then
    .error ⟨.invalidData,
      s!"image is {media.length} bytes but {fmt.token} needs {need}"⟩
  else if ¬ isPowerOfTwo (params.exm + 1) then
    .error ⟨.invalidData,
      fmt.token ++ ": extent mask " ++ toString (params.exm + 1) ++ " is not a power of two"⟩
  else
    match readDirectory fmt media with
    | (.error reason, _) => .error reason
    | (.ok (dir, foreign), media) =>
      let fs := rebuildBitmap { media, fmt, dir, foreign, used := [], readOnly }
      if !readOnly && (inconsistency params dir).isSome then .ok { fs with readOnly := true }
      else .ok fs

/-! ## What an undamaged directory is -/

/-- The blocks a list of entries names. -/
def namedBy (dir : List DirSlot) : List Nat := dir.flatMap fun e => e.blocks.filter (· ≠ 0)

/-- A list of entries with no sign of damage. -/
structure Undamaged (params : Params) (dir : List DirSlot) : Prop where
  /-- No entry uses map slots past those of the format. -/
  unused : ∀ e ∈ dir, e.raw.UnusedZero params
  /-- Every block named lies on the disk and outside the directory. -/
  bounded : ∀ block ∈ namedBy dir, params.dirBlocks ≤ block ∧ block ≤ params.maxBlock
  /-- No block is named twice. -/
  once : (namedBy dir).Nodup

/-- Claiming the blocks of an entry succeeds exactly when they are new, distinct and on the
disk. -/
theorem claimBlocks_ok_iff (params : Params) (who : File) (blocks : List Nat)
    (owner : Nat → Option File) (claimed : List Nat)
    (owned : ∀ block, (owner block).isSome ↔ block ∈ claimed) :
    (∃ after, claimBlocks params who blocks owner = .ok after) ↔
    (∀ block ∈ blocks.filter (· ≠ 0), params.dirBlocks ≤ block ∧ block ≤ params.maxBlock ∧
      block ∉ claimed) ∧ (blocks.filter (· ≠ 0)).Nodup := by
  induction blocks generalizing owner claimed with
  | nil => simp [claimBlocks]
  | cons block blocks ih =>
    rw [claimBlocks]
    by_cases zero : block = 0
    · simp only [zero, ↓reduceIte, ne_eq, not_true_eq_false, decide_false, Bool.false_eq_true,
        not_false_eq_true, List.filter_cons_of_neg]
      exact ih owner claimed owned
    · have kept : (block :: blocks).filter (· ≠ 0) = block :: blocks.filter (· ≠ 0) := by
        simp [zero]
      rw [if_neg zero, kept]
      by_cases past : block > params.maxBlock
      · rw [if_pos past]
        constructor
        · rintro ⟨_, equal⟩
          cases equal
        · intro held
          have bound := held.1 block List.mem_cons_self
          omega
      · rw [if_neg past]
        by_cases low : block < params.dirBlocks
        · rw [if_pos low]
          constructor
          · rintro ⟨_, equal⟩
            cases equal
          · intro held
            have bound := held.1 block List.mem_cons_self
            omega
        · rw [if_neg low]
          cases had : owner block with
          | some prev =>
            have taken : block ∈ claimed := (owned block).mp (by rw [had]; rfl)
            constructor
            · rintro ⟨_, equal⟩
              simp only at equal
              split at equal
              · cases equal
              · split at equal <;> cases equal
            · intro held
              exact absurd taken (held.1 block List.mem_cons_self).2.2
          | none =>
            have fresh : block ∉ claimed := fun taken => by
              have some := (owned block).mpr taken
              rw [had] at some
              cases some
            have next := ih (fun other => if other = block then some who else owner other)
              (block :: claimed) (by
                intro other
                by_cases same : other = block
                · simp [same]
                · simpa [same] using owned other)
            simp only [List.mem_cons, List.nodup_cons, forall_eq_or_imp, not_or] at next ⊢
            constructor
            · intro ran
              obtain ⟨each, distinct⟩ := next.mp ran
              exact ⟨⟨⟨by omega, by omega, fresh⟩, fun other member =>
                ⟨(each other member).1, (each other member).2.1, (each other member).2.2.2⟩⟩,
                fun member => (each block member).2.2.1 rfl, distinct⟩
            · rintro ⟨⟨_, each⟩, new, distinct⟩
              exact next.mpr ⟨fun other member =>
                ⟨(each other member).1, (each other member).2.1,
                  fun same => new (same ▸ member), (each other member).2.2⟩, distinct⟩

/-- Blocks owned after an entry's blocks were claimed. -/
theorem claimBlocks_owns (params : Params) (who : File) (blocks : List Nat)
    (owner : Nat → Option File) (claimed : List Nat)
    (owned : ∀ block, (owner block).isSome ↔ block ∈ claimed) (after : Nat → Option File)
    (ran : claimBlocks params who blocks owner = .ok after) (block : Nat) :
    (after block).isSome ↔ block ∈ claimed ∨ block ∈ blocks.filter (· ≠ 0) := by
  induction blocks generalizing owner claimed with
  | nil =>
    rw [claimBlocks] at ran
    cases ran
    simpa using owned block
  | cons head blocks ih =>
    rw [claimBlocks] at ran
    by_cases zero : head = 0
    · rw [if_pos zero] at ran
      simpa [zero] using ih owner claimed owned ran
    · rw [if_neg zero] at ran
      split at ran
      · cases ran
      · split at ran
        · cases ran
        · split at ran
          · split at ran
            · cases ran
            · split at ran <;> cases ran
          · have next := ih (fun other => if other = head then some who else owner other)
              (head :: claimed) (by
                intro other
                by_cases same : other = head
                · simp [same]
                · simpa [same] using owned other) ran
            rw [next]
            simp only [List.mem_cons, ne_eq, zero, not_false_eq_true, decide_true,
              List.filter_cons_of_pos]
            tauto

/-- The loop finds no damage exactly when the entries are undamaged and new to the owners. -/
theorem firstDamage_none_iff (params : Params) (dir : List DirSlot) (owner : Nat → Option File)
    (claimed : List Nat) (owned : ∀ block, (owner block).isSome ↔ block ∈ claimed) :
    firstDamage params dir owner = none ↔
      Undamaged params dir ∧ ∀ block ∈ namedBy dir, block ∉ claimed := by
  induction dir generalizing owner claimed with
  | nil =>
    simp only [firstDamage, true_iff]
    exact ⟨⟨by simp, by simp [namedBy], by simp [namedBy]⟩, by simp [namedBy]⟩
  | cons e dir ih =>
    have names : namedBy (e :: dir) = e.blocks.filter (· ≠ 0) ++ namedBy dir := by
      simp [namedBy]
    have spec := claimBlocks_ok_iff params e.file e.blocks owner claimed owned
    rw [firstDamage]
    by_cases zero : e.raw.UnusedZero params
    · rw [if_neg (not_not.mpr zero)]
      cases ran : claimBlocks params e.file e.blocks owner with
      | error damage =>
        simp only [reduceCtorEq, false_iff]
        rintro ⟨sound, fresh⟩
        rw [names] at fresh
        have bounded := sound.bounded
        have once := sound.once
        rw [names] at bounded once
        obtain ⟨after, equal⟩ := spec.mpr ⟨fun block member =>
          ⟨(bounded block (List.mem_append_left _ member)).1,
            (bounded block (List.mem_append_left _ member)).2,
            fresh block (List.mem_append_left _ member)⟩, (List.nodup_append.mp once).1⟩
        rw [ran] at equal
        cases equal
      | ok after =>
        have holds : ∀ block, (after block).isSome ↔
            block ∈ claimed ++ e.blocks.filter (· ≠ 0) := by
          intro block
          rw [List.mem_append]
          exact claimBlocks_owns params e.file e.blocks owner claimed owned after ran block
        obtain ⟨each, distinct⟩ := spec.mp ⟨after, ran⟩
        rw [ih after _ holds]
        constructor
        · rintro ⟨sound, fresh⟩
          refine ⟨⟨?_, ?_, ?_⟩, ?_⟩
          · intro other member
            rcases List.mem_cons.mp member with rfl | member
            · exact zero
            · exact sound.unused other member
          · intro block member
            rw [names] at member
            rcases List.mem_append.mp member with own | rest
            · exact ⟨(each block own).1, (each block own).2.1⟩
            · exact sound.bounded block rest
          · rw [names]
            refine List.nodup_append.mpr ⟨distinct, sound.once, ?_⟩
            intro block own other rest same
            subst same
            exact fresh block rest (List.mem_append_right _ own)
          · intro block member
            rw [names] at member
            rcases List.mem_append.mp member with own | rest
            · exact (each block own).2.2
            · exact fun taken => fresh block rest (List.mem_append_left _ taken)
        · rintro ⟨sound, fresh⟩
          have bounded := sound.bounded
          have once := sound.once
          rw [names] at bounded once fresh
          refine ⟨⟨fun other member => sound.unused other (List.mem_cons_of_mem _ member),
            fun block member => bounded block (List.mem_append_right _ member),
            (List.nodup_append.mp once).2.1⟩, ?_⟩
          intro block member taken
          rcases List.mem_append.mp taken with earlier | own
          · exact fresh block (List.mem_append_right _ member) earlier
          · exact (List.nodup_append.mp once).2.2 block own block member rfl
    · rw [if_pos zero]
      simp only [reduceCtorEq, false_iff]
      exact fun held => zero (held.1.unused e List.mem_cons_self)

/-- A mount finds no inconsistency exactly in an undamaged list. -/
theorem inconsistency_none_iff (params : Params) (dir : List DirSlot) :
    inconsistency params dir = none ↔ Undamaged params dir := by
  rw [inconsistency, firstDamage_none_iff params dir _ [] (by simp)]
  simp

/-! ## What a mount returns -/

/-- A filesystem as a mount leaves it: the lists and the bitmap of the medium, writable only
when that was asked for and the directory is undamaged. -/
structure Mounted (media : Media) (fmt : Format) (readOnly : Bool) (fs : ImageFs) : Prop where
  /-- The image is long enough. -/
  long : fmt.minBytes ≤ media.length
  /-- Nothing was written. -/
  unwritten : Medium.Unwritten media fs.media
  /-- The format is the one asked for. -/
  format : fs.fmt = fmt
  /-- The list is that of the medium. -/
  dir : fs.dir = directoryOf fmt (diskOf fmt media.contents)
  /-- The foreign blocks are those of the medium. -/
  foreign : fs.foreign = foreignOf fmt (diskOf fmt media.contents)
  /-- The bitmap is that of the lists. -/
  used : fs.used = bitmapOf (Params.derive fmt) fs.dir fs.foreign
  /-- When the mount is writable. -/
  writable : fs.readOnly = false ↔ readOnly = false ∧ Undamaged (Params.derive fmt) fs.dir

/-- The extent mask of a sound format passes the check of the mount. -/
theorem isPowerOfTwo_exm {fmt : Format} (sound : fmt.Sound) :
    isPowerOfTwo ((Params.derive fmt).exm + 1) = true := by
  rcases sound.mask with mask | mask <;> rw [mask] <;> decide

/-- A mount of a long enough image is a read of its directory. -/
theorem mount_long {media : Media} {fmt : Format} (sound : fmt.Sound)
    (long : fmt.minBytes ≤ media.length) (readOnly : Bool) :
    (∃ fs, mount media fmt readOnly = .ok fs ∧ Mounted media fmt readOnly fs) ∨
    (∃ reason reached, mount media fmt readOnly = .error reason ∧
      Medium.Faulted media reached) := by
  rw [mount]
  simp only [if_neg (Nat.not_lt.mpr long), isPowerOfTwo_exm sound, not_true_eq_false, ↓reduceIte]
  rcases (readDirectory_plays sound media long).reads with
    ⟨reached, ran, unwritten⟩ | ⟨reason, reached, ran, _, faulted⟩
  · left
    simp only [ran]
    cases asked : readOnly with
    | true =>
      simp only [Bool.not_true, Bool.false_and, Bool.false_eq_true, ↓reduceIte]
      exact ⟨_, rfl, long, unwritten, rfl, rfl, rfl, rfl, by simp [rebuildBitmap]⟩
    | false =>
      simp only [Bool.not_false, Bool.true_and]
      have agree := inconsistency_none_iff (Params.derive fmt)
        (directoryOf fmt (diskOf fmt media.contents))
      cases found : inconsistency (Params.derive fmt)
          (directoryOf fmt (diskOf fmt media.contents)) with
      | some damage =>
        simp only [Option.isSome_some, ↓reduceIte]
        refine ⟨_, rfl, long, unwritten, rfl, rfl, rfl, rfl, ?_⟩
        rw [found] at agree
        simpa [rebuildBitmap] using agree
      | none =>
        simp only [Option.isSome_none, Bool.false_eq_true, ↓reduceIte]
        refine ⟨_, rfl, long, unwritten, rfl, rfl, rfl, rfl, ?_⟩
        rw [found] at agree
        simpa [rebuildBitmap] using agree
  · right
    simp only [ran]
    exact ⟨reason, reached, rfl, faulted⟩

/-- What a successful mount returns. -/
theorem mount_ok {media : Media} {fmt : Format} {readOnly : Bool} {fs : ImageFs}
    (sound : fmt.Sound) (ran : mount media fmt readOnly = .ok fs) :
    Mounted media fmt readOnly fs := by
  have long : fmt.minBytes ≤ media.length := by
    by_contra short
    rw [mount] at ran
    simp only [if_pos (Nat.not_le.mp short), reduceCtorEq] at ran
  rcases mount_long sound long readOnly with ⟨reached, ran', mounted⟩ | ⟨reason, _, ran', _⟩
  · rw [ran] at ran'
    cases ran'
    exact mounted
  · rw [ran] at ran'
    cases ran'

/-- A healthy medium that is long enough mounts. -/
theorem mount_healthy {media : Media} {fmt : Format} (sound : fmt.Sound)
    (healthy : media.Healthy) (long : fmt.minBytes ≤ media.length) (readOnly : Bool) :
    ∃ fs, mount media fmt readOnly = .ok fs := by
  rcases mount_long sound long readOnly with ⟨fs, ran, _⟩ | ⟨_, _, _, faulted⟩
  · exact ⟨fs, ran⟩
  · exact absurd faulted healthy.not_faulted

end EthernetGateway.Image
