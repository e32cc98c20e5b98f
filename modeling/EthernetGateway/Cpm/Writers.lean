import EthernetGateway.Claims
import EthernetGateway.Cpm.Fcb

/-!
# One writer for a file

The sessions of the emulator share the drives. A session claims a file when it first writes it, and
gives the claim back when it closes, deletes or renames the file or is gone. Between the two no
other session writes, creates, deletes or renames the file, as long as nothing the session does
gives the claim back early: a write or a creation that the disk refuses does, although the file was
claimed by an earlier write, and so do a deletion or a renaming that fails and, on an image, an
operation on another file of the same key.
-/

namespace EthernetGateway.Cpm

open EthernetGateway.Image

/-! ## The disks -/

/-- What the sessions share besides their claims: the files of the host and the mounted images, as
far as the operations below ask them. `W` is their state and `P` a path. -/
structure Disks (W P : Type) where
  /-- `CpmFs::mounted`: the path of the image on a drive. -/
  mounted : W → UInt8 → Option P
  /-- `Path::join`. -/
  join : P → List UInt8 → P
  /-- `CpmFs::resolve_name`. -/
  resolveName : W → UInt8 → (Fin 8 → UInt8) → (Fin 3 → UInt8) → Option P
  /-- `CpmFs::matching_files` on a drive. -/
  matchingFiles : W → UInt8 → Fcb → List P
  /-- `Path::is_file`. -/
  isFile : W → P → Bool
  /-- `Path::exists`. -/
  pathExists : W → P → Bool
  /-- `CpmFs::host_is_ro`. -/
  hostIsRo : W → P → Bool
  /-- Open a host file, seek and write a record. -/
  hostWrite : W → P → Nat → Record → Except IoError Unit × W
  /-- `File::create`. -/
  hostCreate : W → P → Except IoError Unit × W
  /-- `fs::remove_file`. -/
  hostRemove : W → P → Except IoError Unit × W
  /-- `fs::rename`. -/
  hostRename : W → P → P → Except IoError Unit × W
  /-- `ImageFs::matching`. -/
  imageMatching : W → P → UInt8 → Fcb → List ((Fin 8 → UInt8) × (Fin 3 → UInt8))
  /-- `ImageFs::write_record`. -/
  imageWrite : W → P → File → Nat → Record → Except IoError Unit × W
  /-- `ImageFs::create`. -/
  imageCreate : W → P → File → Except IoError Unit × W
  /-- `ImageFs::delete`. -/
  imageDelete : W → P → File → Except IoError Nat × W
  /-- `ImageFs::rename`. -/
  imageRename : W → P → File → (Fin 8 → UInt8) → (Fin 3 → UInt8) → Except IoError Bool × W

/-- The disks and `CPM_WRITERS`. -/
structure Shared (W P : Type) where
  /-- The disks. -/
  world : W
  /-- `CPM_WRITERS`: the files being written and the sessions writing them. -/
  writers : Claims P Nat

/-- What a `CpmFs` knows of its session. -/
structure SessionFs where
  /-- This session's id. -/
  session : Nat
  /-- Current drive. -/
  drive : UInt8
  /-- Current user number. -/
  user : UInt8
  /-- Write-protect bitmap, one bit for each drive. -/
  roDrives : UInt16

/-- Whether a computation ended well. -/
def succeeded {ε α : Type} : Except ε α → Bool
  | .ok _ => true
  | .error _ => false

section Operations

variable {W P : Type} [DecidableEq P] (disks : Disks W P) (fs : SessionFs)

/-- `CpmFs::fcb_drive_is_ro`. -/
def fcbDriveIsRo (fcb : Fcb) : Bool :=
  match driveIndexFor fs.drive fcb.drive with
  | some d => fs.roDrives &&& (1 <<< d.toUInt16) != 0
  | none => false

/-- `CpmFs::mounted_for`. -/
def mountedFor (world : W) (fcb : Fcb) : Option P :=
  (driveIndexFor fs.drive fcb.drive).bind (disks.mounted world)

/-- `CpmFs::image_file_key`, given the image. -/
def imageFileKey (image : P) (name : Fin 8 → UInt8) (ext : Fin 3 → UInt8) : P :=
  disks.join image (format83 name ext)

/-- `CpmFs::resolve`. -/
def resolve (world : W) (fcb : Fcb) : Option P :=
  (driveIndexFor fs.drive fcb.drive).bind fun drive0 =>
    disks.resolveName world drive0 fcb.name fcb.ext

/-- The key of the file an FCB names. -/
def keyFor (world : W) (fcb : Fcb) : Option P :=
  match mountedFor disks fs world fcb with
  | some image => some (imageFileKey disks image fcb.name fcb.ext)
  | none => resolve disks fs world fcb

/-- Claim a file, change it, and give the claim back if it was not changed. -/
def underClaim (session : Nat) (key : P) (act : W → Except IoError Unit × W) (sys : Shared W P) :
    Except IoError Unit × Shared W P :=
  match sys.writers.claim session key with
  | none =>
    (.error ⟨.permissionDenied, "another CP/M session is writing this file"⟩, sys)
  | some writers =>
    match act sys.world with
    | (.ok (), world) => (.ok (), ⟨world, writers⟩)
    | (.error reason, world) => (.error reason, ⟨world, writers.release session key⟩)

/-- `CpmFs::write_record`. -/
def writeRecord (fcb : Fcb) (record : Nat) (data : Record) (sys : Shared W P) :
    Except IoError Unit × Shared W P :=
  if fcbDriveIsRo fs fcb then
    (.error ⟨.permissionDenied, "drive is write-protected (BDOS 28)"⟩, sys)
  else if record * 128 + 128 > maxCpmFileBytes then
    (.error ⟨.invalidInput, "record beyond max CP/M file size"⟩, sys)
  else
    match mountedFor disks fs sys.world fcb with
    | some image =>
      underClaim fs.session (imageFileKey disks image fcb.name fcb.ext)
        (fun world => disks.imageWrite world image ⟨fs.user, fcb.name, fcb.ext⟩ record data) sys
    | none =>
      match resolve disks fs sys.world fcb with
      | none => (.error ⟨.notFound, "unresolved FCB"⟩, sys)
      | some path =>
        if disks.hostIsRo sys.world path then
          (.error ⟨.permissionDenied, "file is read-only (CP/M t1')"⟩, sys)
        else
          underClaim fs.session path
            (fun world => disks.hostWrite world path (record * 128) data) sys

/-- Erase a file of an image, if it is there, and create it. -/
def imageMake (image : P) (f : File) (world : W) : Except IoError Unit × W :=
  disks.imageCreate (disks.imageDelete world image f).2 image f

/-- `CpmFs::make`. -/
def make (fcb : Fcb) (sys : Shared W P) : Bool × Shared W P :=
  if fcbDriveIsRo fs fcb then (false, sys)
  else
    match mountedFor disks fs sys.world fcb with
    | some image =>
      let (made, reached) := underClaim fs.session (imageFileKey disks image fcb.name fcb.ext)
        (imageMake disks image ⟨fs.user, fcb.name, fcb.ext⟩) sys
      (succeeded made, reached)
    | none =>
      match resolve disks fs sys.world fcb with
      | none => (false, sys)
      | some path =>
        if disks.isFile sys.world path ∧ disks.hostIsRo sys.world path then (false, sys)
        else
          let (made, reached) := underClaim fs.session path
            (fun world => disks.hostCreate world path) sys
          (succeeded made, reached)

/-- The files of one key each that `CpmFs::delete` goes through, each with how it is removed: those
that are removed, by their keys. -/
def deleteEach (session : Nat) :
    List (P × (W → Bool × W)) → Shared W P → List P × Shared W P
  | [], sys => ([], sys)
  | (key, remove) :: rest, sys =>
    match sys.writers.claim session key with
    | none => deleteEach session rest sys
    | some writers =>
      let (gone, world) := remove sys.world
      let (erased, reached) := deleteEach session rest ⟨world, writers.release session key⟩
      (if gone then key :: erased else erased, reached)

/-- The files `CpmFs::delete` finds for an FCB. -/
def deleteTargets (fcb : Fcb) (world : W) : List (P × (W → Bool × W)) :=
  match mountedFor disks fs world fcb with
  | some image =>
    (disks.imageMatching world image fs.user fcb).map fun (name, ext) =>
      (imageFileKey disks image name ext, fun world =>
        match disks.imageDelete world image ⟨fs.user, name, ext⟩ with
        | (.ok gone, world) => (decide (gone > 0), world)
        | (.error _, world) => (false, world))
  | none =>
    (match driveIndexFor fs.drive fcb.drive with
      | none => []
      | some drive0 => disks.matchingFiles world drive0 fcb).map fun path =>
      (path, fun world =>
        if disks.hostIsRo world path then (false, world)
        else
          let (removed, world) := disks.hostRemove world path
          (succeeded removed, world))

/-- The files `CpmFs::delete` removes, by their keys. -/
def deleted (fcb : Fcb) (sys : Shared W P) : List P × Shared W P :=
  if fcbDriveIsRo fs fcb then ([], sys)
  else deleteEach fs.session (deleteTargets disks fs fcb sys.world) sys

/-- `CpmFs::delete`. -/
def delete (fcb : Fcb) (sys : Shared W P) : Nat × Shared W P :=
  let (erased, reached) := deleted disks fs fcb sys
  (erased.length, reached)

/-- Claim one file and then another: whether both were claimed, and what was. -/
def claimBoth (session : Nat) (first second : P) (writers : Claims P Nat) : Bool × Claims P Nat :=
  match writers.claim session first with
  | none => (false, writers)
  | some one =>
    match one.claim session second with
    | none => (false, one)
    | some both => (true, both)

/-- The part of `CpmFs::rename` on an image. -/
def imageRenamed (image : P) (old : Fcb) (name : Fin 8 → UInt8) (ext : Fin 3 → UInt8)
    (sys : Shared W P) : Bool × Shared W P :=
  let oldKey := imageFileKey disks image old.name old.ext
  let newKey := imageFileKey disks image name ext
  let (claimed, writers) := claimBoth fs.session oldKey newKey sys.writers
  let (ok, world) :=
    if claimed then
      match disks.imageRename sys.world image ⟨fs.user, old.name, old.ext⟩ name ext with
      | (.ok renamed, world) => (renamed, world)
      | (.error _, world) => (false, world)
    else (false, sys.world)
  (ok, ⟨world, (writers.release fs.session oldKey).release fs.session newKey⟩)

/-- The part of `CpmFs::rename` on a folder, once both names are resolved. -/
def hostRenamed (oldPath newPath : P) (sys : Shared W P) : Bool × Shared W P :=
  if disks.isFile sys.world oldPath = false ∨ disks.pathExists sys.world newPath ∨
      disks.hostIsRo sys.world oldPath then (false, sys)
  else
    match claimBoth fs.session oldPath newPath sys.writers with
    | (false, writers) => (false, ⟨sys.world, writers.release fs.session oldPath⟩)
    | (true, writers) =>
      let (renamed, world) := disks.hostRename sys.world oldPath newPath
      (succeeded renamed,
        ⟨world, (writers.release fs.session oldPath).release fs.session newPath⟩)

/-- The two host paths of `CpmFs::rename`. -/
def renamePaths (old : Fcb) (name : Fin 8 → UInt8) (ext : Fin 3 → UInt8) (world : W) :
    Option (P × P) :=
  (driveIndexFor fs.drive old.drive).bind fun drive0 =>
    (disks.resolveName world drive0 old.name old.ext).bind fun oldPath =>
      (disks.resolveName world drive0 name ext).map fun newPath => (oldPath, newPath)

/-- `CpmFs::rename`. -/
def rename (old : Fcb) (name : Fin 8 → UInt8) (ext : Fin 3 → UInt8) (sys : Shared W P) :
    Bool × Shared W P :=
  if fcbDriveIsRo fs old then (false, sys)
  else
    match mountedFor disks fs sys.world old with
    | some image => imageRenamed disks fs image old name ext sys
    | none =>
      match renamePaths disks fs old name ext sys.world with
      | none => (false, sys)
      | some (oldPath, newPath) => hostRenamed disks fs oldPath newPath sys

/-- `CpmFs::release_file`, on close. -/
def releaseFile (fcb : Fcb) (sys : Shared W P) : Shared W P :=
  match keyFor disks fs sys.world fcb with
  | some key => { sys with writers := sys.writers.release fs.session key }
  | none => sys

/-- `Drop for CpmFs`. -/
def dropSession (sys : Shared W P) : Shared W P :=
  { sys with writers := sys.writers.releaseAll fs.session }

end Operations

/-! ## Steps of the sessions -/

/-- What a session does to the files of the drives. -/
inductive Op where
  | write (fcb : Fcb) (record : Nat) (data : Record)
  | make (fcb : Fcb)
  | delete (fcb : Fcb)
  | rename (old : Fcb) (name : Fin 8 → UInt8) (ext : Fin 3 → UInt8)
  | close (fcb : Fcb)
  | drop

section Steps

variable {W P : Type} [DecidableEq P] (disks : Disks W P) (fs : SessionFs)

/-- The keys of the two files of a renaming. -/
def renameKeys (old : Fcb) (name : Fin 8 → UInt8) (ext : Fin 3 → UInt8) (world : W) : List P :=
  match mountedFor disks fs world old with
  | some image => [imageFileKey disks image old.name old.ext, imageFileKey disks image name ext]
  | none =>
    match renamePaths disks fs old name ext world with
    | some (oldPath, newPath) => [oldPath, newPath]
    | none => []

/-- A step of a session: the keys of the files on which it succeeds, and what it leaves. -/
def Op.run (sys : Shared W P) : Op → List P × Shared W P
  | .write fcb record data =>
    let (wrote, reached) := writeRecord disks fs fcb record data sys
    (if succeeded wrote then (keyFor disks fs sys.world fcb).toList else [], reached)
  | .make fcb =>
    let (made, reached) := Cpm.make disks fs fcb sys
    (if made then (keyFor disks fs sys.world fcb).toList else [], reached)
  | .delete fcb => deleted disks fs fcb sys
  | .rename old name ext =>
    let (renamed, reached) := Cpm.rename disks fs old name ext sys
    (if renamed then renameKeys disks fs old name ext sys.world else [], reached)
  | .close fcb => ([], releaseFile disks fs fcb sys)
  | .drop => ([], dropSession fs sys)

/-- A step gives back a claim of its session: it writes or creates the file and the disk refuses, it
deletes, renames or closes it, well or not, it renames another file to its name, or the session is
gone. -/
def Op.GivesBack (sys : Shared W P) (key : P) : Op → Prop
  | .write fcb record data =>
    fcbDriveIsRo fs fcb = false ∧ record * 128 + 128 ≤ maxCpmFileBytes ∧
      match mountedFor disks fs sys.world fcb with
      | some image =>
        key = imageFileKey disks image fcb.name fcb.ext ∧ succeeded
          (disks.imageWrite sys.world image ⟨fs.user, fcb.name, fcb.ext⟩ record data).1 = false
      | none =>
        resolve disks fs sys.world fcb = some key ∧ disks.hostIsRo sys.world key = false ∧
          succeeded (disks.hostWrite sys.world key (record * 128) data).1 = false
  | .make fcb =>
    fcbDriveIsRo fs fcb = false ∧
      match mountedFor disks fs sys.world fcb with
      | some image =>
        key = imageFileKey disks image fcb.name fcb.ext ∧
          succeeded (imageMake disks image ⟨fs.user, fcb.name, fcb.ext⟩ sys.world).1 = false
      | none =>
        resolve disks fs sys.world fcb = some key ∧
          ¬ (disks.isFile sys.world key = true ∧ disks.hostIsRo sys.world key = true) ∧
          succeeded (disks.hostCreate sys.world key).1 = false
  | .delete fcb =>
    fcbDriveIsRo fs fcb = false ∧ key ∈ (deleteTargets disks fs fcb sys.world).map Prod.fst
  | .rename old name ext =>
    fcbDriveIsRo fs old = false ∧
      match mountedFor disks fs sys.world old with
      | some image =>
        key = imageFileKey disks image old.name old.ext ∨ key = imageFileKey disks image name ext
      | none => ∃ oldPath newPath, renamePaths disks fs old name ext sys.world =
          some (oldPath, newPath) ∧ disks.isFile sys.world oldPath = true ∧
          disks.pathExists sys.world newPath = false ∧ disks.hostIsRo sys.world oldPath = false ∧
          (key = oldPath ∨ key = newPath ∧ (sys.writers.claim fs.session oldPath).isSome)
  | .close fcb => keyFor disks fs sys.world fcb = some key
  | .drop => True

end Steps

/-! ## What a step does to a claim -/

section Claimed

variable {W P : Type} [DecidableEq P] {disks : Disks W P} {fs : SessionFs} {sys : Shared W P}
  {holder : Nat} {key : P}

/-- A change under a claim gives a held claim back when it is the holder's and fails. -/
theorem underClaim_writers (held : sys.writers key = some holder) (session : Nat) (target : P)
    (act : W → Except IoError Unit × W) :
    (underClaim session target act sys).2.writers key =
      if session = holder ∧ key = target ∧ succeeded (act sys.world).1 = false then none
      else some holder := by
  unfold underClaim
  split
  · rename_i refused
    rw [if_neg, held]
    rintro ⟨own, same, _⟩
    subst own same
    obtain ⟨after, claimed⟩ := Claims.claim_again held
    rw [claimed] at refused
    cases refused
  · rename_i writers claimed
    have kept := Claims.claim_keeps held claimed
    split
    · rename_i world acted
      rw [acted, if_neg (by simp [succeeded])]
      exact kept
    · rename_i reason world acted
      rw [acted]
      simp only [succeeded, and_true]
      exact Claims.release_eq kept _ _

/-- No other session changes a file under a claim. -/
theorem underClaim_refused (held : sys.writers key = some holder) {session : Nat}
    (apart : session ≠ holder) (act : W → Except IoError Unit × W) :
    succeeded (underClaim session key act sys).1 = false := by
  rw [underClaim, Claims.claim_held held apart]
  rfl

/-- A deletion leaves a free key free. -/
theorem deleteEach_free (session : Nat) (targets : List (P × (W → Bool × W)))
    (free : sys.writers key = none) :
    (deleteEach session targets sys).2.writers key = none := by
  induction targets generalizing sys with
  | nil => exact free
  | cons target rest ih =>
    obtain ⟨other, remove⟩ := target
    rw [deleteEach]
    split
    · exact ih free
    · rename_i writers claimed
      exact ih (Claims.release_claim_free free claimed)

/-- A deletion gives a held claim back when it is the holder's and goes through the file. -/
theorem deleteEach_writers (session : Nat) (targets : List (P × (W → Bool × W)))
    (held : sys.writers key = some holder) :
    (deleteEach session targets sys).2.writers key =
      if session = holder ∧ key ∈ targets.map Prod.fst then none else some holder := by
  induction targets generalizing sys with
  | nil => simpa [deleteEach] using held
  | cons target rest ih =>
    obtain ⟨other, remove⟩ := target
    simp only [deleteEach, List.map_cons, List.mem_cons]
    cases claimed : sys.writers.claim session other with
    | none =>
      have another : ¬ (session = holder ∧ key = other) := by
        rintro ⟨own, same⟩
        subst own same
        obtain ⟨after, again⟩ := Claims.claim_again held
        rw [claimed] at again
        cases again
      refine (ih held).trans (if_congr ?_ rfl rfl)
      tauto
    | some writers =>
      have released : writers.release session other key = _ :=
        Claims.release_eq (Claims.claim_keeps held claimed) _ _
      by_cases gives : session = holder ∧ key = other
      · rw [if_pos gives] at released
        rw [if_pos ⟨gives.1, .inl gives.2⟩]
        exact @deleteEach_free W P _ ⟨(remove sys.world).2, writers.release session other⟩ key
          session rest released
      · rw [if_neg gives] at released
        refine (@ih ⟨(remove sys.world).2, writers.release session other⟩ released).trans
          (if_congr ?_ rfl rfl)
        tauto

/-- No other session removes the file. -/
theorem deleteEach_spares {session : Nat} (apart : session ≠ holder)
    (targets : List (P × (W → Bool × W))) (held : sys.writers key = some holder) :
    key ∉ (deleteEach session targets sys).1 := by
  induction targets generalizing sys with
  | nil => exact List.not_mem_nil
  | cons target rest ih =>
    obtain ⟨other, remove⟩ := target
    rw [deleteEach]
    split
    · exact ih held
    · rename_i writers claimed
      have another : key ≠ other := by
        intro same
        rw [← same, Claims.claim_held held apart] at claimed
        cases claimed
      have still : (writers.release session other) key = some holder := by
        rw [Claims.release_eq (Claims.claim_keeps held claimed) _ _, if_neg fun both => apart both.1]
      have spared := @ih ⟨(remove sys.world).2, writers.release session other⟩ still
      simp only
      split
      · rw [List.mem_cons, not_or]
        exact ⟨another, spared⟩
      · exact spared

/-- Claiming two files leaves a held claim. -/
theorem claimBoth_keeps {writers : Claims P Nat} (held : writers key = some holder) (session : Nat)
    (first second : P) : (claimBoth session first second writers).2 key = some holder := by
  unfold claimBoth
  split
  · exact held
  · rename_i one claimed
    have kept := Claims.claim_keeps held claimed
    split
    · exact kept
    · rename_i both again
      exact Claims.claim_keeps kept again

/-- Another session cannot claim a held file among two. -/
theorem claimBoth_refused {writers : Claims P Nat} (held : writers key = some holder)
    {session : Nat} (apart : session ≠ holder) {first second : P} (among : key = first ∨ key = second) :
    (claimBoth session first second writers).1 = false := by
  unfold claimBoth
  split
  · rfl
  · rename_i one claimed
    have kept := Claims.claim_keeps held claimed
    rcases among with rfl | rfl
    · rw [Claims.claim_held held apart] at claimed
      cases claimed
    · rw [Claims.claim_held kept apart]

/-- Releasing two files gives a held claim back when it is the holder's and on one of them. -/
theorem releaseBoth_eq {writers : Claims P Nat} (held : writers key = some holder) (session : Nat)
    (first second : P) :
    ((writers.release session first).release session second) key =
      if session = holder ∧ (key = first ∨ key = second) then none else some holder := by
  have one := Claims.release_eq held session first
  by_cases gives : session = holder ∧ key = first
  · rw [if_pos gives] at one
    rw [if_pos ⟨gives.1, .inl gives.2⟩, Claims.release]
    split
    · rename_i own
      rw [Claims.put, one, ite_self]
    · exact one
  · rw [if_neg gives] at one
    refine (Claims.release_eq one _ _).trans (if_congr ?_ rfl rfl)
    tauto

/-- A renaming on an image gives a held claim back when it is the holder's and on one of its two
names. -/
theorem imageRenamed_writers (held : sys.writers key = some holder) (image : P) (old : Fcb)
    (name : Fin 8 → UInt8) (ext : Fin 3 → UInt8) :
    (imageRenamed disks fs image old name ext sys).2.writers key =
      if fs.session = holder ∧ (key = imageFileKey disks image old.name old.ext ∨
        key = imageFileKey disks image name ext) then none else some holder :=
  releaseBoth_eq (claimBoth_keeps held fs.session _ _) fs.session _ _

/-- No other session renames the file, or another one to its name. -/
theorem imageRenamed_refused (held : sys.writers key = some holder) (apart : fs.session ≠ holder)
    (image : P) (old : Fcb) (name : Fin 8 → UInt8) (ext : Fin 3 → UInt8)
    (among : key = imageFileKey disks image old.name old.ext ∨
      key = imageFileKey disks image name ext) :
    (imageRenamed disks fs image old name ext sys).1 = false := by
  have refused := claimBoth_refused held apart among
  unfold imageRenamed
  simp only [refused, Bool.false_eq_true, ↓reduceIte]

/-- A renaming on a folder gives a held claim back when it is the holder's, gets past the checks,
and is on one of its two paths, the second only once the first is claimed. -/
theorem hostRenamed_writers (held : sys.writers key = some holder) (oldPath newPath : P) :
    (hostRenamed disks fs oldPath newPath sys).2.writers key =
      if fs.session = holder ∧ disks.isFile sys.world oldPath = true ∧
        disks.pathExists sys.world newPath = false ∧ disks.hostIsRo sys.world oldPath = false ∧
        (key = oldPath ∨ key = newPath ∧ (sys.writers.claim fs.session oldPath).isSome)
      then none else some holder := by
  rw [hostRenamed]
  by_cases checks : disks.isFile sys.world oldPath = false ∨
      disks.pathExists sys.world newPath = true ∨ disks.hostIsRo sys.world oldPath = true
  · rw [if_pos checks, if_neg]
    · exact held
    · rintro ⟨_, file, absent, open', _⟩
      rcases checks with bad | bad | bad
      · rw [file] at bad
        cases bad
      · rw [absent] at bad
        cases bad
      · rw [open'] at bad
        cases bad
  · rw [if_neg checks]
    have passed : disks.isFile sys.world oldPath = true ∧
        disks.pathExists sys.world newPath = false ∧ disks.hostIsRo sys.world oldPath = false := by
      simpa using checks
    simp only [passed, true_and]
    cases first : sys.writers.claim fs.session oldPath with
    | none =>
      simp only [claimBoth, first]
      refine (Claims.release_eq held _ _).trans (if_congr ?_ rfl rfl)
      simp
    | some one =>
      have kept := Claims.claim_keeps held first
      cases second : one.claim fs.session newPath with
      | none =>
        simp only [claimBoth, first, second]
        refine (Claims.release_eq kept _ _).trans (if_congr ?_ rfl rfl)
        -- The second path is another session's, so it is not a key of the holder.
        have other : ¬ (fs.session = holder ∧ key = newPath) := by
          rintro ⟨own, same⟩
          subst own same
          obtain ⟨after, again⟩ := Claims.claim_again kept
          rw [second] at again
          cases again
        simp only [Option.isSome_some, and_true]
        tauto
      | some both =>
        simp only [claimBoth, first, second]
        refine (releaseBoth_eq (Claims.claim_keeps kept second) _ _ _).trans (if_congr ?_ rfl rfl)
        simp

/-- No other session renames the file on the host, or another one to its path. -/
theorem hostRenamed_refused (held : sys.writers key = some holder) (apart : fs.session ≠ holder)
    {oldPath newPath : P} (among : key = oldPath ∨ key = newPath) :
    (hostRenamed disks fs oldPath newPath sys).1 = false := by
  have refused := claimBoth_refused held apart among
  rw [hostRenamed]
  split
  · rfl
  · split
    · rfl
    · rename_i writers claimed
      rw [claimed] at refused
      cases refused

/-- A claim that a condition takes is kept when it does not hold. -/
theorem taken_iff {taken : Prop} [Decidable taken] :
    (if taken then none else some holder) = some holder ↔ ¬ taken := by
  split
  · rename_i holds
    exact ⟨fun same => (nomatch same), fun not => absurd holds not⟩
  · rename_i fails
    exact ⟨fun _ => fails, fun _ => rfl⟩

/-- What a write does to a held claim. -/
theorem writeRecord_holds_iff (held : sys.writers key = some holder) (fcb : Fcb) (record : Nat)
    (data : Record) :
    (writeRecord disks fs fcb record data sys).2.writers key = some holder ↔
      ¬ (fs.session = holder ∧ (Op.write fcb record data).GivesBack disks fs sys key) := by
  unfold writeRecord
  simp only [Op.GivesBack]
  cases protect : fcbDriveIsRo fs fcb with
  | true => simpa using held
  | false =>
    by_cases past : record * 128 + 128 > maxCpmFileBytes
    · simp only [Bool.false_eq_true, ↓reduceIte, if_pos past, true_and]
      exact iff_of_true held fun both => absurd both.2.1 (by omega)
    · simp only [Bool.false_eq_true, ↓reduceIte, if_neg past, true_and]
      cases mounted : mountedFor disks fs sys.world fcb with
      | some image =>
        simp only [underClaim_writers held, taken_iff, not_lt.mp past, true_and]
      | none =>
        cases resolved : resolve disks fs sys.world fcb with
        | none => simpa using held
        | some path =>
          simp only
          by_cases locked : disks.hostIsRo sys.world path = true
          · rw [if_pos locked]
            refine iff_of_true held fun both => ?_
            obtain ⟨same, unlocked, _⟩ := both.2.2
            rw [← Option.some.inj same, locked] at unlocked
            cases unlocked
          · rw [if_neg locked]
            simp only [underClaim_writers held, taken_iff, not_lt.mp past, true_and,
              Option.some.injEq]
            refine not_congr (and_congr_right fun _ => ⟨?_, ?_⟩)
            · rintro ⟨rfl, failed⟩
              exact ⟨rfl, Bool.eq_false_of_not_eq_true locked, failed⟩
            · rintro ⟨rfl, _, failed⟩
              exact ⟨rfl, failed⟩

/-- What a creation does to a held claim. -/
theorem make_holds_iff (held : sys.writers key = some holder) (fcb : Fcb) :
    (make disks fs fcb sys).2.writers key = some holder ↔
      ¬ (fs.session = holder ∧ (Op.make fcb).GivesBack disks fs sys key) := by
  unfold make
  simp only [Op.GivesBack]
  cases protect : fcbDriveIsRo fs fcb with
  | true => simpa using held
  | false =>
    simp only [Bool.false_eq_true, ↓reduceIte, true_and]
    cases mounted : mountedFor disks fs sys.world fcb with
    | some image => simp only [underClaim_writers held, taken_iff]
    | none =>
      cases resolved : resolve disks fs sys.world fcb with
      | none => simpa using held
      | some path =>
        by_cases locked : disks.isFile sys.world path = true ∧ disks.hostIsRo sys.world path = true
        · simp only [if_pos locked]
          refine iff_of_true held fun both => ?_
          obtain ⟨same, unlocked, _⟩ := both.2
          rw [← Option.some.inj same] at unlocked
          exact unlocked locked
        · simp only [if_neg locked, underClaim_writers held, taken_iff, Option.some.injEq]
          refine not_congr (and_congr_right fun _ => ⟨?_, ?_⟩)
          · rintro ⟨rfl, failed⟩
            exact ⟨rfl, locked, failed⟩
          · rintro ⟨rfl, _, failed⟩
            exact ⟨rfl, failed⟩

/-- What a deletion does to a held claim. -/
theorem deleted_holds_iff (held : sys.writers key = some holder) (fcb : Fcb) :
    (deleted disks fs fcb sys).2.writers key = some holder ↔
      ¬ (fs.session = holder ∧ (Op.delete fcb).GivesBack disks fs sys key) := by
  unfold deleted
  simp only [Op.GivesBack]
  cases protect : fcbDriveIsRo fs fcb with
  | true => simpa using held
  | false =>
    simp only [Bool.false_eq_true, ↓reduceIte, true_and, deleteEach_writers _ _ held, taken_iff]

/-- What a renaming does to a held claim. -/
theorem rename_holds_iff (held : sys.writers key = some holder) (old : Fcb)
    (name : Fin 8 → UInt8) (ext : Fin 3 → UInt8) :
    (rename disks fs old name ext sys).2.writers key = some holder ↔
      ¬ (fs.session = holder ∧ (Op.rename old name ext).GivesBack disks fs sys key) := by
  unfold rename
  simp only [Op.GivesBack]
  cases protect : fcbDriveIsRo fs old with
  | true => simpa using held
  | false =>
    simp only [Bool.false_eq_true, ↓reduceIte, true_and]
    cases mounted : mountedFor disks fs sys.world old with
    | some image => simp only [imageRenamed_writers held, taken_iff]
    | none =>
      cases paths : renamePaths disks fs old name ext sys.world with
      | none => simpa using held
      | some pair =>
        obtain ⟨oldPath, newPath⟩ := pair
        simp only [hostRenamed_writers held, taken_iff, Option.some.injEq, Prod.mk.injEq]
        refine not_congr (and_congr_right fun _ => ⟨fun gives => ?_, ?_⟩)
        · exact ⟨oldPath, newPath, ⟨rfl, rfl⟩, gives⟩
        · rintro ⟨_, _, ⟨rfl, rfl⟩, gives⟩
          exact gives

/-- A step takes a held claim exactly when it is the holder's and gives it back. -/
theorem Op.run_holds_iff (held : sys.writers key = some holder) (op : Op) :
    (op.run disks fs sys).2.writers key = some holder ↔
      ¬ (fs.session = holder ∧ op.GivesBack disks fs sys key) := by
  cases op with
  | write fcb record data => exact writeRecord_holds_iff held fcb record data
  | make fcb => exact make_holds_iff held fcb
  | delete fcb => exact deleted_holds_iff held fcb
  | rename old name ext => exact rename_holds_iff held old name ext
  | close fcb =>
    simp only [run, GivesBack, releaseFile]
    cases named : keyFor disks fs sys.world fcb with
    | none => simpa using held
    | some target =>
      simp only [Claims.release_eq held, taken_iff, Option.some.injEq]
      exact not_congr (and_congr_right fun _ => eq_comm)
  | drop =>
    simp only [run, GivesBack, dropSession, Claims.releaseAll_eq held, taken_iff, and_true]

omit [DecidableEq P] in
/-- The key of a file on a mounted image. -/
theorem imageKey_of_named {world : W} {fcb : Fcb} {image : P}
    (named : keyFor disks fs world fcb = some key)
    (mounted : mountedFor disks fs world fcb = some image) :
    imageFileKey disks image fcb.name fcb.ext = key := by
  rw [keyFor, mounted] at named
  exact Option.some.inj named

omit [DecidableEq P] in
/-- The key of a file in a folder is its path. -/
theorem resolve_of_named {world : W} {fcb : Fcb} (named : keyFor disks fs world fcb = some key)
    (mounted : mountedFor disks fs world fcb = none) : resolve disks fs world fcb = some key := by
  rw [keyFor, mounted] at named
  exact named

/-- No other session writes the file. -/
theorem writeRecord_refused (held : sys.writers key = some holder) (apart : fs.session ≠ holder)
    {fcb : Fcb} (named : keyFor disks fs sys.world fcb = some key) (record : Nat) (data : Record) :
    succeeded (writeRecord disks fs fcb record data sys).1 = false := by
  unfold writeRecord
  split
  · rfl
  · split
    · rfl
    · cases mounted : mountedFor disks fs sys.world fcb with
      | some image =>
        simp only [imageKey_of_named named mounted]
        exact underClaim_refused held apart _
      | none =>
        simp only [resolve_of_named named mounted]
        split
        · rfl
        · exact underClaim_refused held apart _

/-- No other session creates the file. -/
theorem make_refused (held : sys.writers key = some holder) (apart : fs.session ≠ holder)
    {fcb : Fcb} (named : keyFor disks fs sys.world fcb = some key) :
    (make disks fs fcb sys).1 = false := by
  unfold make
  split
  · rfl
  · cases mounted : mountedFor disks fs sys.world fcb with
    | some image =>
      simp only [imageKey_of_named named mounted]
      exact underClaim_refused held apart _
    | none =>
      simp only [resolve_of_named named mounted]
      split
      · rfl
      · exact underClaim_refused held apart _

/-- No other session renames the file, or another one to its name. -/
theorem rename_refused (held : sys.writers key = some holder) (apart : fs.session ≠ holder)
    {old : Fcb} {name : Fin 8 → UInt8} {ext : Fin 3 → UInt8}
    (among : key ∈ renameKeys disks fs old name ext sys.world) :
    (rename disks fs old name ext sys).1 = false := by
  unfold rename
  split
  · rfl
  · rw [renameKeys] at among
    cases mounted : mountedFor disks fs sys.world old with
    | some image =>
      rw [mounted] at among
      exact imageRenamed_refused held apart image old name ext (by simpa using among)
    | none =>
      rw [mounted] at among
      simp only at among
      cases paths : renamePaths disks fs old name ext sys.world with
      | none => rfl
      | some pair =>
        rw [paths] at among
        exact hostRenamed_refused held apart (by simpa using among)

/-- A step of another session does not succeed on the file. -/
theorem Op.run_spares (held : sys.writers key = some holder) (apart : fs.session ≠ holder)
    (op : Op) : key ∉ (op.run disks fs sys).1 := by
  cases op with
  | write fcb record data =>
    intro member
    simp only [run] at member
    split at member
    · rename_i wrote
      rw [writeRecord_refused held apart (Option.mem_toList.mp member)] at wrote
      cases wrote
    · cases member
  | make fcb =>
    intro member
    simp only [run] at member
    split at member
    · rename_i made
      rw [make_refused held apart (Option.mem_toList.mp member)] at made
      cases made
    · cases member
  | delete fcb =>
    simp only [run, deleted]
    split
    · exact List.not_mem_nil
    · exact deleteEach_spares apart _ held
  | rename old name ext =>
    intro member
    simp only [run] at member
    split at member
    · rename_i renamed
      rw [rename_refused held apart member] at renamed
      cases renamed
    · cases member
  | close fcb => exact List.not_mem_nil
  | drop => exact List.not_mem_nil

/-- A change under a claim that succeeds leaves the file claimed. -/
theorem underClaim_claims {session : Nat} {act : W → Except IoError Unit × W}
    (changed : (underClaim session key act sys).1 = .ok ()) :
    (underClaim session key act sys).2.writers key = some session := by
  unfold underClaim at changed ⊢
  cases claimed : sys.writers.claim session key with
  | none =>
    rw [claimed] at changed
    cases changed
  | some writers =>
    rw [claimed] at changed
    simp only at changed ⊢
    split
    · exact Claims.claim_own claimed
    · rename_i failed
      rw [failed] at changed
      cases changed

/-- A write that succeeds leaves the file claimed. -/
theorem writeRecord_claims {fcb : Fcb} {record : Nat} {data : Record}
    (wrote : (writeRecord disks fs fcb record data sys).1 = .ok ())
    (named : keyFor disks fs sys.world fcb = some key) :
    (writeRecord disks fs fcb record data sys).2.writers key = some fs.session := by
  unfold writeRecord at wrote ⊢
  split at wrote
  · cases wrote
  · rename_i open'
    rw [if_neg open']
    split at wrote
    · cases wrote
    · rename_i low
      rw [if_neg low]
      cases mounted : mountedFor disks fs sys.world fcb with
      | some image =>
        simp only [mounted, imageKey_of_named named mounted] at wrote ⊢
        exact underClaim_claims wrote
      | none =>
        simp only [mounted, resolve_of_named named mounted] at wrote ⊢
        split at wrote
        · cases wrote
        · rename_i unlocked
          rw [if_neg unlocked]
          exact underClaim_claims wrote

end Claimed

/-! ## Runs -/

section Runs

variable {W P : Type} [DecidableEq P] {disks : Disks W P}

/-- What is shared after steps of the sessions, in any order. -/
def runSteps (disks : Disks W P) : List (SessionFs × Op) → Shared W P → Shared W P
  | [], sys => sys
  | (fs, op) :: rest, sys => runSteps disks rest (op.run disks fs sys).2

/-- A step of a run, met by the sessions in what the steps before it left. -/
def StepAt (disks : Disks W P) (steps : List (SessionFs × Op)) (start : Shared W P)
    (fs : SessionFs) (op : Op) (sys : Shared W P) : Prop :=
  ∃ before after, steps = before ++ (fs, op) :: after ∧ sys = runSteps disks before start

/-- The steps of a run are its first and those of the rest. -/
theorem stepAt_cons {first fs : SessionFs} {op other : Op} {rest : List (SessionFs × Op)}
    {start sys : Shared W P} :
    StepAt disks ((first, other) :: rest) start fs op sys ↔
      (fs = first ∧ op = other ∧ sys = start) ∨
        StepAt disks rest (other.run disks first start).2 fs op sys := by
  constructor
  · rintro ⟨before, after, split, reached⟩
    cases before with
    | nil =>
      cases split
      exact .inl ⟨rfl, rfl, reached⟩
    | cons step before =>
      cases split
      exact .inr ⟨before, after, rfl, reached⟩
  · rintro (⟨rfl, rfl, rfl⟩ | ⟨before, after, rfl, reached⟩)
    · exact ⟨[], rest, rfl, rfl⟩
    · exact ⟨(first, other) :: before, after, rfl, reached⟩

/-- A claim its holder does not give back keeps every other session off the file throughout a
run. -/
theorem held_alone {steps : List (SessionFs × Op)} {start : Shared W P} {holder : Nat} {key : P}
    (held : start.writers key = some holder)
    (kept : ∀ fs op sys, StepAt disks steps start fs op sys → fs.session = holder →
      ¬ op.GivesBack disks fs sys key) {fs : SessionFs} {op : Op} {sys : Shared W P}
    (step : StepAt disks steps start fs op sys) (apart : fs.session ≠ holder) :
    key ∉ (op.run disks fs sys).1 := by
  induction steps generalizing start with
  | nil =>
    obtain ⟨before, after, split, _⟩ := step
    cases before <;> cases split
  | cons head rest ih =>
    obtain ⟨first, other⟩ := head
    rcases stepAt_cons.mp step with ⟨rfl, rfl, rfl⟩ | later
    · exact Op.run_spares held apart _
    · have still : (other.run disks first start).2.writers key = some holder := by
        rw [Op.run_holds_iff held]
        rintro ⟨own, gives⟩
        exact kept first other start (stepAt_cons.mpr (.inl ⟨rfl, rfl, rfl⟩)) own gives
      exact ih still (fun fs op sys met => kept fs op sys (stepAt_cons.mpr (.inr met))) later

/-- From the write of a session on, no other session writes, creates, deletes or renames the file,
in any run in which no step of the session gives the claim back. -/
theorem writer_alone {start : Shared W P} {writer : SessionFs} {fcb : Fcb} {record : Nat}
    {data : Record} {key : P}
    (wrote : (writeRecord disks writer fcb record data start).1 = .ok ())
    (named : keyFor disks writer start.world fcb = some key) {steps : List (SessionFs × Op)}
    (kept : ∀ fs op sys,
      StepAt disks steps (writeRecord disks writer fcb record data start).2 fs op sys →
      fs.session = writer.session → ¬ op.GivesBack disks fs sys key) :
    ∀ fs op sys, StepAt disks steps (writeRecord disks writer fcb record data start).2 fs op sys →
      fs.session ≠ writer.session → key ∉ (op.run disks fs sys).1 :=
  fun _ _ _ step apart => held_alone (writeRecord_claims wrote named) kept step apart

end Runs

/-- A folder that holds a file `A` of one record on a disk that is full: the record can be written
again and no other one. -/
def fullDisk : Disks Unit (List UInt8) where
  mounted := fun _ _ => none
  join := fun _ name => name
  resolveName := fun _ _ name ext => some (format83 name ext)
  matchingFiles := fun _ _ fcb => if fcb.matches (fun i => if i.val = 0 then 0x41 else 0x20)
    (fun _ => 0x20) then [[0x41]] else []
  isFile := fun _ path => path == [0x41]
  pathExists := fun _ path => path == [0x41]
  hostIsRo := fun _ _ => false
  hostWrite := fun world path offset _ =>
    if path = [0x41] ∧ offset = 0 then (.ok (), world)
    else (.error ⟨.storageFull, "No space left on device"⟩, world)
  hostCreate := fun world path =>
    if path = [0x41] then (.ok (), world)
    else (.error ⟨.storageFull, "No space left on device"⟩, world)
  hostRemove := fun world _ => (.error ⟨.other, "Operation not permitted"⟩, world)
  hostRename := fun world _ _ => (.error ⟨.other, "Operation not permitted"⟩, world)
  imageMatching := fun _ _ _ _ => []
  imageWrite := fun world _ _ _ _ => (.error ⟨.notFound, "no such file"⟩, world)
  imageCreate := fun world _ _ => (.error ⟨.notFound, "no such file"⟩, world)
  imageDelete := fun world _ _ => (.ok 0, world)
  imageRename := fun world _ _ _ _ => (.ok false, world)

/-- The FCB of the file `A`. -/
def fileA : Fcb := Fcb.fromBytes fun i =>
  if i = 1 then 0x41 else if 1 < i ∧ i < 12 then 0x20 else 0

/-- A session on drive A. -/
def sessionOf (session : Nat) : SessionFs := ⟨session, 0, 0, 0⟩

/-- Session 1 writes the record again and tries one past the end of any file, and session 2 tries to
write and to create the file in between. -/
def turns : List (SessionFs × Op) :=
  [(sessionOf 1, .write fileA 0 fun _ => 3), (sessionOf 2, .write fileA 0 fun _ => 2),
    (sessionOf 1, .write fileA 65536 fun _ => 1), (sessionOf 2, .make fileA)]

/-- Session 1 has written a record and goes on, and session 2 is refused both times. -/
theorem writer_alone_two :
    [0x41] ∉ ((Op.write fileA 0 fun _ => 2).run fullDisk (sessionOf 2)
        (runSteps fullDisk (turns.take 1)
          (writeRecord fullDisk (sessionOf 1) fileA 0 (fun _ => 1) ⟨(), fun _ => none⟩).2)).1 ∧
      [0x41] ∉ ((Op.make fileA).run fullDisk (sessionOf 2)
        (runSteps fullDisk (turns.take 3)
          (writeRecord fullDisk (sessionOf 1) fileA 0 (fun _ => 1) ⟨(), fun _ => none⟩).2)).1 := by
  have named : keyFor fullDisk (sessionOf 1) () fileA = some [0x41] := by decide
  have alone := @writer_alone Unit (List UInt8) _ fullDisk ⟨(), fun _ => none⟩ (sessionOf 1) fileA 0
    (fun _ => 1) [0x41] rfl named turns (by
      intro fs op sys step own gives
      rcases stepAt_cons.mp step with ⟨rfl, rfl, rfl⟩ | step
      · exact absurd gives.2.2.2.2 (by decide)
      rcases stepAt_cons.mp step with ⟨rfl, rfl, rfl⟩ | step
      · exact absurd own (by decide)
      rcases stepAt_cons.mp step with ⟨rfl, rfl, rfl⟩ | step
      · exact absurd gives.2.1 (by decide)
      rcases stepAt_cons.mp step with ⟨rfl, rfl, rfl⟩ | ⟨before, after, split, _⟩
      · exact absurd own (by decide)
      · cases before <;> cases split)
  exact ⟨alone (sessionOf 2) _ _ ⟨turns.take 1, turns.drop 2, rfl, rfl⟩ (by decide),
    alone (sessionOf 2) _ _ ⟨turns.take 3, [], rfl, rfl⟩ (by decide)⟩

/-- A session that goes on writing loses its claim to a write the disk refuses, and another one then
writes the file. -/
theorem claim_lost_to_full_disk :
    ¬ ∀ (disks : Disks Unit (List UInt8)) (start : Shared Unit (List UInt8)) (writer : SessionFs)
      (fcb : Fcb) (record : Nat) (data : Record) (key : List UInt8)
      (steps : List (SessionFs × Op)),
      (writeRecord disks writer fcb record data start).1 = .ok () →
      keyFor disks writer start.world fcb = some key →
      (∀ step ∈ steps, step.1.session = writer.session → ∃ fcb record data,
        step.2 = .write fcb record data) →
      ∀ fs op sys, StepAt disks steps (writeRecord disks writer fcb record data start).2 fs op sys →
        fs.session ≠ writer.session → key ∉ (op.run disks fs sys).1 := by
  intro every
  have spared := every fullDisk ⟨(), fun _ => none⟩ (sessionOf 1) fileA 0 (fun _ => 1) [0x41]
    [(sessionOf 1, .write fileA 1 fun _ => 1), (sessionOf 2, .write fileA 0 fun _ => 2)] rfl
    (by decide) (by
      intro step member own
      simp only [List.mem_cons, List.not_mem_nil, or_false] at member
      rcases member with rfl | rfl
      · exact ⟨_, _, _, rfl⟩
      · exact absurd own (by decide))
    (sessionOf 2) (.write fileA 0 fun _ => 2) _
    ⟨[(sessionOf 1, .write fileA 1 fun _ => 1)], [], rfl, rfl⟩ (by decide)
  revert spared
  decide

end EthernetGateway.Cpm
