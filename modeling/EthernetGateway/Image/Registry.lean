import EthernetGateway.Image.Agreement
import EthernetGateway.Image.Identify
import EthernetGateway.Text

/-!
# The mount table

One table for the whole process records which image is mounted on which drive. A drive a booted
session has borrowed is out of the table and recorded as lent; a drive whose image could not be
put back afterwards is recorded as unrestored. An image goes on a drive only while no other
drive names it in any of the three places and no booted session is running it.
-/

namespace EthernetGateway.Image

/-- `NUM_DRIVES`. -/
def numDrives : Nat := 16

/-- `(b'A' + drive0) as char`. -/
def driveLetter (drive0 : Nat) : Char := Char.ofNat (65 + drive0)

/-- `is_safe_image_name`: a bare filename of at most 255 bytes, not hidden. -/
def isSafeImageName (name : Text) : Bool :=
  !name.isEmpty && decide ((name.map Char.utf8Size).sum ≤ 255) && name.head? != some '.' &&
    !name.contains '/' && !name.contains '\\' && !name.contains ':' &&
    !decide (['.', '.'] <:+: name) && !name.contains (Char.ofNat 0)

/-! ## The images folder -/

/-- An image file: its bytes and whether the host lets nobody write it. -/
structure HostFile where
  /-- The bytes. -/
  media : Media
  /-- Whether the file is read-only on the host. -/
  readOnly : Bool

/-- The images folder. -/
structure ImagesFolder where
  /-- The file a name opens, or the text of the error of the host. -/
  file : Text → Except Text HostFile
  /-- `canonicalize` of the path a name makes, or that path where it fails. -/
  canonical : Text → Text

/-- The whole directory as a candidate format addresses it, where every record can be read. Each
candidate reads a file just opened. -/
def probeDirectory (media : Media) (fmt : Format) : Option (List Record) :=
  (((List.range fmt.dirRecords).mapM (readDataRecord fmt)) media).1.toOption

/-- `Display` of `Unknown`. -/
def Unknown.message : Unknown → Text
  | .noSuchFormat token =>
    "no format called '".toList ++ token.toList ++
      "' - see readme.txt in the images folder".toList
  | .wrongSize token expected actual =>
    "named as ".toList ++ token.toList ++ " but that format is ".toList ++ Text.ofNat expected ++
      " bytes and this file is ".toList ++ Text.ofNat actual
  | .noMatchingFormat size =>
    "no known format is ".toList ++ Text.ofNat size ++
      " bytes - nothing here mounts a disk that size, and renaming cannot change that. ".toList ++
      "It may still be bootable: set it as the boot disk (see readme.txt)".toList
  | .noDirectory candidates =>
    "no CP/M directory found - this is probably not a CP/M disk. ".toList ++
      "It may still boot its own operating system: set it as the boot disk. (tried ".toList ++
      Text.join ", ".toList (candidates.map String.toList) ++ ")".toList
  | .ambiguous candidates =>
    "several formats fit this file (".toList ++
      Text.join ", ".toList (candidates.map String.toList) ++
      ") - rename it with the right prefix to say which".toList

/-- `Identified::force_read_only`. -/
def Identified.forceReadOnly (found : Identified) : Bool := decide (found.confidence = .sniffed)

/-- `Mount`: one mounted image. -/
structure Mount where
  /-- Bare filename. -/
  filename : Text
  /-- Format token it was mounted as. -/
  format : String
  /-- Whether the mount refuses writes. -/
  readOnly : Bool
  /-- Why it is read-only. -/
  readOnlyReason : Text
  /-- Whether the host would not let anyone write the file. -/
  hostReadOnly : Bool
  /-- The shared filesystem. -/
  fs : ImageFs

/-- Why a mount is read-only, as `mount_image_unchecked` explains it. -/
def readOnlyReason (found : Identified) (hostReadOnly readOnly : Bool) : Text :=
  if !readOnly then []
  else if found.forceReadOnly then
    match found.why with
    | some why =>
      "this image was identified by inspection and its CP/M directory has ".toList ++
        why.toList ++ " - so writing to it is not safe. ".toList ++
        "If you know the format, rename it with the prefix to override.".toList
    | none =>
      "the filename does not say which format this is, so it was identified by inspection".toList ++
        " - rename it with a format prefix to allow writing".toList
  else if hostReadOnly then "the image file is read-only on the host".toList
  else "the CP/M directory in this image is damaged".toList

/-- The part of `mount_image_unchecked` that opens and identifies an image: the mount to publish
and the label of its format, or the text of what went wrong. -/
def openImage (folder : ImagesFolder) (filename : Text) : Except Text (Mount × String) :=
  match folder.file filename with
  | .error why => .error why
  | .ok file =>
    match identify (String.ofList filename) file.media.length (probeDirectory file.media) with
    | .error unknown => .error unknown.message
    | .ok found =>
      let readOnly := found.forceReadOnly || file.readOnly
      match mount file.media found.format readOnly with
      | .error reason => .error reason.message.toList
      | .ok fs => .ok
        ({ filename
           format := found.format.token
           readOnly := fs.readOnly
           readOnlyReason := readOnlyReason found file.readOnly fs.readOnly
           hostReadOnly := file.readOnly
           fs }, found.format.label)

/-! ## The registry -/

/-- `Table`: drives A: to P:, each empty or holding a mounted image. -/
structure Table where
  /-- The image of a drive. -/
  slot : Nat → Option Mount
  /-- There is no drive past P:. -/
  bounded : ∀ drive0, numDrives ≤ drive0 → slot drive0 = none

/-- The table with every drive empty. -/
def Table.empty : Table := ⟨fun _ => none, fun _ _ => rfl⟩

/-- The table with another image on a drive. -/
def Table.put (table : Table) (drive0 : Nat) (inside : drive0 < numDrives) (mount : Mount) :
    Table where
  slot other := if other = drive0 then some mount else table.slot other
  bounded other past := by
    rw [if_neg (by omega)]
    exact table.bounded other past

/-- The table with a drive empty. -/
def Table.take (table : Table) (drive0 : Nat) : Table where
  slot other := if other = drive0 then none else table.slot other
  bounded other past := by
    split_ifs
    · rfl
    · exact table.bounded other past

/-- `SessionUse`: what one live session is doing with the drives. -/
structure SessionUse where
  /-- The drive its prompt is on. -/
  current : Nat
  /-- The drives it has an unfinished write on. -/
  writing : List Nat

/-- The tables of the registry and the two settings they are read with. -/
structure Registry where
  /-- The mount table. -/
  table : Table
  /-- Drives lent to booted sessions, with the images they held. -/
  borrowed : Nat → Option Text
  /-- Drives that did not come back from a boot, with the images they held. -/
  unrestored : Nat → Option Text
  /-- Canonical paths of the images booted sessions are running. -/
  bootedImages : List Text
  /-- The live sessions. -/
  sessions : List SessionUse
  /-- `cpm_emu_enabled`. -/
  cpmEmuEnabled : Bool
  /-- `cpm_mounts`. -/
  cpmMounts : Text

/-- A `HashMap<u8, String>` as its pairs in the order of the keys. -/
def sortedPairs (entries : Nat → Option Text) : List (Nat × Text) :=
  (List.range 256).filterMap fun drive0 => (entries drive0).map fun name => (drive0, name)

/-- A table of drives with one drive removed. -/
def without (entries : Nat → Option Text) (drive0 : Nat) : Nat → Option Text :=
  fun other => if other = drive0 then none else entries other

/-- A table of drives with one drive recorded. -/
def recorded (entries : Nat → Option Text) (drive0 : Nat) (name : Text) : Nat → Option Text :=
  fun other => if other = drive0 then some name else entries other

namespace Registry

/-- The name of the image a drive has mounted. -/
def mountedName (registry : Registry) (drive0 : Nat) : Option Text :=
  (registry.table.slot drive0).map Mount.filename

/-- The mounted images as the code lists them: `all()` numbered, empty drives left out. -/
def mountedPairs (registry : Registry) : List (Nat × Text) :=
  (List.range numDrives).filterMap fun drive0 =>
    (registry.mountedName drive0).map fun name => (drive0, name)

/-- `boot_loans`. -/
def bootLoans (registry : Registry) : List (Nat × Text) := sortedPairs registry.borrowed

/-- `unrestored`. -/
def unrestoredPairs (registry : Registry) : List (Nat × Text) := sortedPairs registry.unrestored

/-- `Usage`: the sessions whose prompt is on a drive and those writing to it. -/
def usageOf (registry : Registry) (drive0 : Nat) : Nat × Nat :=
  if drive0 < numDrives then
    (registry.sessions.countP fun use => decide (use.current = drive0),
      registry.sessions.countP fun use => use.writing.contains drive0)
  else (0, 0)

/-- `Usage::describe`. -/
def describeUsage : Nat × Nat → Option Text
  | (sitting, writing) =>
    if writing > 0 then
      some (Text.ofNat writing ++ " session".toList ++
        (if writing = 1 then [] else "s".toList) ++ " writing".toList)
    else if sitting > 0 then
      some ("in use by ".toList ++ Text.ofNat sitting ++ " session".toList ++
        (if sitting = 1 then [] else "s".toList))
    else none

end Registry

/-- Why a change of the drives is refused. -/
inductive Refusal where
  /-- The name is not a plausible image filename. -/
  | badName (filename : Text)
  /-- The emulator is off. -/
  | emulatorOff
  /-- The drive is lent to a booted session. -/
  | lent (drive0 : Nat)
  /-- Sessions are on the drive. -/
  | inUse (drive0 : Nat) (what : Text)
  /-- Another drive holds the image. -/
  | elsewhere (filename : Text) (other : Nat)
  /-- A booted session is running the image. -/
  | booted (filename : Text)
  /-- The image cannot be opened as a disk. -/
  | cannotOpen (filename why : Text)
  /-- There is no such drive. -/
  | noSuchDrive (drive0 : Nat)
  /-- The drive holds no image. -/
  | notMounted (drive0 : Nat)

/-- The text a refusal is reported with. -/
def Refusal.message : Refusal → Text
  | .badName filename => "'".toList ++ filename ++ "' is not a valid image name".toList
  | .emulatorOff => "the CP/M emulator is off - turn it on to change drives".toList
  | .lent drive0 =>
    "drive ".toList ++ driveLetter drive0 ::
      ": is held by a booted disk - it comes back when that session ends".toList
  | .inUse drive0 what =>
    "drive ".toList ++ driveLetter drive0 :: ": is ".toList ++ what ++
      " - try again once that session leaves CP/M".toList
  | .elsewhere filename other =>
    filename ++ " is already mounted on drive ".toList ++
      driveLetter other :: ": - unmount it there first".toList
  | .booted filename =>
    filename ++ " is being run by a booted session - it cannot be mounted at the same time".toList
  | .cannotOpen filename why => filename ++ ": ".toList ++ why
  | .noSuchDrive drive0 => "no such drive (".toList ++ Text.ofNat drive0 ++ ")".toList
  | .notMounted drive0 =>
    "drive ".toList ++ driveLetter drive0 :: ": has no image mounted".toList

namespace Registry

/-- `check_can_change`: the reason a drive may not be changed, if there is one. -/
def checkCanChange (registry : Registry) (drive0 : Nat) : Option Refusal :=
  if !registry.cpmEmuEnabled then some .emulatorOff
  else if (registry.borrowed drive0).isSome then some (.lent drive0)
  else (describeUsage (registry.usageOf drive0)).map fun what => .inUse drive0 what

/-- `drive_holding`. -/
def driveHolding (registry : Registry) (filename : Text) : Option Nat :=
  ((registry.mountedPairs ++ (registry.bootLoans ++ registry.unrestoredPairs)).find? fun entry =>
    decide (entry.2 = filename)).map Prod.fst

/-- The drive other than one given that `mount_exclusive` finds an image on. Where several loans
name it the source reports any of them, this the first. -/
def elsewhere (registry : Registry) (drive0 : Nat) (filename : Text) : Option Nat :=
  ((registry.mountedPairs ++ registry.bootLoans ++ registry.unrestoredPairs).find? fun entry =>
    decide (entry.1 ≠ drive0 ∧ entry.2 = filename)).map Prod.fst

/-- `mount_exclusive`: publish a mount if its image is still free. -/
def mountExclusive (registry : Registry) (folder : ImagesFolder) (drive0 : Nat) (mount : Mount)
    (restoring : Bool) : Except Refusal Registry :=
  if inside : drive0 < numDrives then
    match registry.elsewhere drive0 mount.filename with
    | some other => .error (.elsewhere mount.filename other)
    | none =>
      if !restoring && registry.bootedImages.contains (folder.canonical mount.filename) then
        .error (.booted mount.filename)
      else .ok
        { registry with
          table := registry.table.put drive0 inside mount
          unrestored := without registry.unrestored drive0 }
  else .error (.noSuchDrive drive0)

/-- What a mount answers the operator. -/
def mountNote (drive0 : Nat) (mount : Mount) (label : String) : Text :=
  driveLetter drive0 :: ": ".toList ++ mount.filename ++
    if mount.readOnly then " - read-only: ".toList ++ mount.readOnlyReason
    else " (".toList ++ label.toList ++ ")".toList

/-- `mount_image_unchecked`. -/
def mountImageUnchecked (registry : Registry) (folder : ImagesFolder) (drive0 : Nat)
    (filename : Text) (restoring : Bool) : Except Refusal (Text × Registry) :=
  if !isSafeImageName filename then .error (.badName filename)
  else
    match openImage folder filename with
    | .error why => .error (.cannotOpen filename why)
    | .ok (mount, label) =>
      match registry.mountExclusive folder drive0 mount restoring with
      | .error refusal => .error refusal
      | .ok registry => .ok (mountNote drive0 mount label, registry)

/-- `mount_image`. -/
def mountImage (registry : Registry) (folder : ImagesFolder) (drive0 : Nat) (filename : Text) :
    Except Refusal (Text × Registry) :=
  if !isSafeImageName filename then .error (.badName filename)
  else
    match registry.checkCanChange drive0 with
    | some refusal => .error refusal
    | none =>
      match (registry.driveHolding filename).filter fun other => decide (other ≠ drive0) with
      | some other => .error (.elsewhere filename other)
      | none =>
        if registry.bootedImages.contains (folder.canonical filename) then
          .error (.booted filename)
        else registry.mountImageUnchecked folder drive0 filename false

/-- `restore_mount`. -/
def restoreMount (registry : Registry) (folder : ImagesFolder) (drive0 : Nat) (filename : Text) :
    Except Refusal (Text × Registry) :=
  registry.mountImageUnchecked folder drive0 filename true

/-- `unmount_drive`. -/
def unmountDrive (registry : Registry) (drive0 : Nat) : Except Refusal (Text × Registry) :=
  match registry.checkCanChange drive0 with
  | some refusal => .error refusal
  | none =>
    match registry.table.slot drive0 with
    | some mount => .ok
      (driveLetter drive0 :: ": ".toList ++ mount.filename ++
          " unmounted - the drive folder's files are visible again".toList,
        { registry with table := registry.table.take drive0 })
    | none =>
      match registry.unrestored drive0 with
      | some name => .ok
        (driveLetter drive0 :: ": ".toList ++ name ++
            " removed - it had not come back after a booted session".toList,
          { registry with unrestored := without registry.unrestored drive0 })
      | none => .error (.notMounted drive0)

/-- `lend_for_boot`: take a mount out of service, remembering it. -/
def lendForBoot (registry : Registry) (drive0 : Nat) : Option Mount × Registry :=
  match registry.table.slot drive0 with
  | none => (none, registry)
  | some mount =>
    (some mount,
      { registry with
        table := registry.table.take drive0
        borrowed := recorded registry.borrowed drive0 mount.filename })

/-- `end_boot_loan`. -/
def endBootLoan (registry : Registry) (drive0 : Nat) : Registry :=
  { registry with borrowed := without registry.borrowed drive0 }

/-- `note_unrestored`. -/
def noteUnrestored (registry : Registry) (drive0 : Nat) (filename : Text) : Registry :=
  { registry with unrestored := recorded registry.unrestored drive0 filename }

/-- The first half of a step of `RemountOnDrop::drop`: put a drive back, or record that it could
not be. -/
def handBack (registry : Registry) (folder : ImagesFolder) (drive0 : Nat) (filename : Text) :
    Registry :=
  match registry.restoreMount folder drive0 filename with
  | .ok (_, registry) => registry
  | .error _ => registry.noteUnrestored drive0 filename

/-- `clear_all`. -/
def clearAll (registry : Registry) : Registry :=
  { registry with table := .empty, unrestored := fun _ => none }

/-- What `save_config` does to the registry: turning the emulator off drops every mount. -/
def configure (registry : Registry) (enabled : Bool) (mounts : Text) : Registry :=
  let registry :=
    if registry.cpmEmuEnabled && !enabled then registry.clearAll else registry
  { registry with cpmEmuEnabled := enabled, cpmMounts := mounts }

end Registry

/-! ## What the operations change -/

/-- An image of the folder that can be read and identified. -/
def ImagesFolder.Available (folder : ImagesFolder) (filename : Text) : Prop :=
  ∃ file found, folder.file filename = .ok file ∧ file.media.Healthy ∧
    identify (String.ofList filename) file.media.length (probeDirectory file.media) = .ok found

/-- An opened image keeps the name it was opened by. -/
theorem openImage_filename {folder : ImagesFolder} {filename : Text} {mount : Mount}
    {label : String} (opened : openImage folder filename = .ok (mount, label)) :
    mount.filename = filename := by
  unfold openImage at opened
  split at opened
  · cases opened
  · split at opened
    · cases opened
    · simp only at opened
      split at opened
      · cases opened
      · cases opened
        rfl

/-- An image that can be read and identified opens. -/
theorem openImage_available {folder : ImagesFolder} {filename : Text}
    (available : folder.Available filename) :
    ∃ mount label, openImage folder filename = .ok (mount, label) ∧ mount.filename = filename := by
  obtain ⟨file, found, there, healthy, identified⟩ := available
  obtain ⟨listed, long⟩ := identify_ok identified
  obtain ⟨fs, mounted⟩ := mount_healthy (formats_sound _ listed) healthy long
    (found.forceReadOnly || file.readOnly)
  simp [openImage, there, identified, mounted]

namespace Registry

/-- A pair of the list of live mounts is a mounted drive. -/
@[simp] theorem mem_mountedPairs (registry : Registry) (drive0 : Nat) (name : Text) :
    (drive0, name) ∈ registry.mountedPairs ↔ registry.mountedName drive0 = some name := by
  constructor
  · intro member
    obtain ⟨other, _, made⟩ := List.mem_filterMap.mp member
    obtain ⟨found, held, same⟩ := Option.map_eq_some_iff.mp made
    cases same
    exact held
  · intro held
    have inside : drive0 < numDrives := by
      by_contra past
      rw [mountedName, registry.table.bounded drive0 (by omega)] at held
      cases held
    exact List.mem_filterMap.mpr ⟨drive0, List.mem_range.mpr inside, by rw [held]; rfl⟩

/-- A pair of a sorted table is an entry of it. -/
theorem mem_sortedPairs {entries : Nat → Option Text} {entry : Nat × Text}
    (member : entry ∈ sortedPairs entries) : entries entry.1 = some entry.2 := by
  obtain ⟨drive0, _, made⟩ := List.mem_filterMap.mp member
  obtain ⟨name, held, same⟩ := Option.map_eq_some_iff.mp made
  cases same
  exact held

/-- A registry in which no drive is lent, unrestored or in use. -/
structure Quiet (registry : Registry) : Prop where
  /-- No drive is lent. -/
  lent : ∀ drive0, registry.borrowed drive0 = none
  /-- No drive failed to come back from a boot. -/
  restored : ∀ drive0, registry.unrestored drive0 = none
  /-- No session is on a drive. -/
  idle : ∀ drive0, describeUsage (registry.usageOf drive0) = none

/-- A quiet registry has no loans. -/
theorem Quiet.bootLoans {registry : Registry} (quiet : registry.Quiet) :
    registry.bootLoans = [] := by
  rw [List.eq_nil_iff_forall_not_mem]
  intro entry member
  have held := mem_sortedPairs member
  rw [quiet.lent] at held
  cases held

/-- A quiet registry has no drives that did not come back. -/
theorem Quiet.unrestoredPairs {registry : Registry} (quiet : registry.Quiet) :
    registry.unrestoredPairs = [] := by
  rw [List.eq_nil_iff_forall_not_mem]
  intro entry member
  have held := mem_sortedPairs member
  rw [quiet.restored] at held
  cases held

/-- A quiet drive may be changed exactly while the emulator is on. -/
theorem Quiet.checkCanChange {registry : Registry} (quiet : registry.Quiet) (drive0 : Nat) :
    registry.checkCanChange drive0 = if registry.cpmEmuEnabled then none else some .emulatorOff := by
  cases on : registry.cpmEmuEnabled <;>
    simp [Registry.checkCanChange, on, quiet.lent, quiet.idle]

/-- In a quiet registry the drive holding an image is found among the mounts. -/
theorem Quiet.driveHolding {registry : Registry} (quiet : registry.Quiet) {filename : Text}
    {other : Nat} (found : registry.driveHolding filename = some other) :
    registry.mountedName other = some filename := by
  rw [Registry.driveHolding, quiet.bootLoans, quiet.unrestoredPairs] at found
  obtain ⟨entry, first, same⟩ := Option.map_eq_some_iff.mp found
  have member := List.mem_of_find?_eq_some first
  have named : entry.2 = filename := by simpa using List.find?_some first
  subst named same
  exact (registry.mem_mountedPairs entry.1 entry.2).mp (by simpa using member)

/-- In a quiet registry an image is elsewhere exactly when another drive has it mounted. -/
theorem Quiet.elsewhere_none {registry : Registry} (quiet : registry.Quiet) (drive0 : Nat)
    (filename : Text) :
    registry.elsewhere drive0 filename = none ↔
      ∀ other, other ≠ drive0 → registry.mountedName other ≠ some filename := by
  rw [Registry.elsewhere, quiet.bootLoans, quiet.unrestoredPairs, Option.map_eq_none_iff,
    List.find?_eq_none]
  constructor
  · intro none other apart held
    have refused := none (other, filename) (by simpa using held)
    simp [apart] at refused
  · rintro free ⟨other, name⟩ member matched
    obtain ⟨apart, rfl⟩ := of_decide_eq_true matched
    exact free other apart (by simpa using member)

/-- What a mount of an image on a drive changes. -/
structure Mounts (registry : Registry) (drive0 : Nat) (filename : Text) (after : Registry) :
    Prop where
  /-- The drive holds the image. -/
  here : after.mountedName drive0 = some filename
  /-- The other drives hold what they held. -/
  others : ∀ other, other ≠ drive0 → after.mountedName other = registry.mountedName other
  /-- The drive is restored. -/
  unrestored : after.unrestored = without registry.unrestored drive0
  /-- The rest is as it was. -/
  frame : after.borrowed = registry.borrowed ∧ after.bootedImages = registry.bootedImages ∧
    after.sessions = registry.sessions ∧ after.cpmEmuEnabled = registry.cpmEmuEnabled ∧
    after.cpmMounts = registry.cpmMounts

/-- A published mount is on its drive and changes no other. -/
theorem mountExclusive_mounts {registry after : Registry} {folder : ImagesFolder} {drive0 : Nat}
    {mount : Mount} {restoring : Bool}
    (ran : registry.mountExclusive folder drive0 mount restoring = .ok after) :
    registry.Mounts drive0 mount.filename after ∧ drive0 < numDrives := by
  unfold mountExclusive at ran
  by_cases inside : drive0 < numDrives
  · rw [dif_pos inside] at ran
    split at ran
    · cases ran
    · split at ran
      · cases ran
      · cases ran
        refine ⟨⟨?_, ?_, rfl, rfl, rfl, rfl, rfl, rfl⟩, inside⟩
        · simp [mountedName, Table.put]
        · intro other apart
          simp [mountedName, Table.put, apart]
  · rw [dif_neg inside] at ran
    cases ran

/-- A mount of an opened image publishes it, the name being a safe one. -/
theorem mountImageUnchecked_mounts {registry after : Registry} {folder : ImagesFolder}
    {drive0 : Nat} {filename note : Text} {restoring : Bool}
    (ran : registry.mountImageUnchecked folder drive0 filename restoring = .ok (note, after)) :
    registry.Mounts drive0 filename after ∧ drive0 < numDrives ∧
      isSafeImageName filename = true := by
  unfold mountImageUnchecked at ran
  by_cases safe : isSafeImageName filename = true
  · rw [if_neg (by simp [safe])] at ran
    split at ran
    · cases ran
    · next mount label opened =>
      have named : mount.filename = filename := openImage_filename opened
      split at ran
      · cases ran
      · next published ran' =>
        cases ran
        obtain ⟨mounts, inside⟩ := mountExclusive_mounts ran'
        rw [named] at mounts
        exact ⟨mounts, inside, safe⟩
  · rw [if_pos (by simpa using safe)] at ran
    cases ran

/-- What `mount_image` does when it does not refuse. -/
theorem mountImage_mounts {registry after : Registry} {folder : ImagesFolder} {drive0 : Nat}
    {filename note : Text} (ran : registry.mountImage folder drive0 filename = .ok (note, after)) :
    registry.Mounts drive0 filename after ∧ drive0 < numDrives ∧
      isSafeImageName filename = true := by
  unfold mountImage at ran
  split at ran
  · cases ran
  · split at ran
    · cases ran
    · split at ran
      · cases ran
      · split at ran
        · cases ran
        · exact mountImageUnchecked_mounts ran

/-- What it takes to mount an image on a drive of a quiet registry. -/
structure Mountable (registry : Registry) (folder : ImagesFolder) (drive0 : Nat)
    (filename : Text) : Prop where
  /-- The emulator is on. -/
  on : registry.cpmEmuEnabled = true
  /-- The name is a safe one. -/
  safe : isSafeImageName filename = true
  /-- No booted session is running the image. -/
  unbooted : folder.canonical filename ∉ registry.bootedImages
  /-- No other drive has the image. -/
  free : ∀ other, other ≠ drive0 → registry.mountedName other ≠ some filename

/-- On a quiet registry an image that can be identified mounts exactly when it is mountable. -/
theorem Quiet.mountImage_ok_iff {registry : Registry} (quiet : registry.Quiet)
    {folder : ImagesFolder} {drive0 : Nat} {filename : Text} (inside : drive0 < numDrives)
    (available : folder.Available filename) :
    (∃ note after, registry.mountImage folder drive0 filename = .ok (note, after)) ↔
      registry.Mountable folder drive0 filename := by
  obtain ⟨mount, label, opened, named⟩ := openImage_available available
  constructor
  · rintro ⟨note, after, ran⟩
    have safe := (mountImage_mounts ran).2.2
    unfold mountImage at ran
    rw [if_neg (by simp [safe]), quiet.checkCanChange] at ran
    cases on : registry.cpmEmuEnabled with
    | false => simp [on] at ran
    | true =>
      simp only [on, if_true] at ran
      split at ran
      · cases ran
      · split at ran
        · cases ran
        · next unbooted =>
          refine ⟨on, safe, by simpa using unbooted, ?_⟩
          unfold mountImageUnchecked at ran
          simp only [safe, Bool.not_true, Bool.false_eq_true, if_false, opened] at ran
          unfold mountExclusive at ran
          rw [dif_pos inside, named] at ran
          cases found : registry.elsewhere drive0 filename with
          | some other => simp [found] at ran
          | none => exact (quiet.elsewhere_none drive0 filename).mp found
  · rintro ⟨on, safe, unbooted, free⟩
    have holding : (registry.driveHolding filename).filter (fun other => decide (other ≠ drive0)) =
        none := by
      rw [Option.filter_eq_none_iff]
      intro other found
      by_contra apart
      exact free other (by simpa using apart) (quiet.driveHolding found)
    have nowhere := (quiet.elsewhere_none drive0 filename).mpr free
    have clear : registry.bootedImages.contains (folder.canonical filename) = false := by
      simpa using unbooted
    simp only [mountImage, safe, Bool.not_true, Bool.false_eq_true, if_false,
      quiet.checkCanChange, on, if_true, holding, clear, mountImageUnchecked, opened,
      mountExclusive, dif_pos inside, named, nowhere, Bool.and_false]
    exact ⟨_, _, rfl⟩

/-- What taking the image off a drive changes. -/
structure Unmounts (registry : Registry) (drive0 : Nat) (after : Registry) : Prop where
  /-- The drive is empty. -/
  here : after.mountedName drive0 = none
  /-- The other drives hold what they held. -/
  others : ∀ other, other ≠ drive0 → after.mountedName other = registry.mountedName other
  /-- No drive comes to be recorded as not back. -/
  unrestored : ∀ other name, after.unrestored other = some name →
    registry.unrestored other = some name
  /-- The rest is as it was. -/
  frame : after.borrowed = registry.borrowed ∧ after.bootedImages = registry.bootedImages ∧
    after.sessions = registry.sessions ∧ after.cpmEmuEnabled = registry.cpmEmuEnabled ∧
    after.cpmMounts = registry.cpmMounts

/-- What `unmount_drive` does when it does not refuse. -/
theorem unmountDrive_unmounts {registry after : Registry} {drive0 : Nat} {note : Text}
    (ran : registry.unmountDrive drive0 = .ok (note, after)) :
    registry.Unmounts drive0 after := by
  unfold unmountDrive at ran
  split at ran
  · cases ran
  · split at ran
    · cases ran
      refine ⟨by simp [mountedName, Table.take], ?_, fun _ _ held => held, rfl, rfl, rfl, rfl, rfl⟩
      intro other apart
      simp [mountedName, Table.take, apart]
    · next empty =>
      split at ran
      · cases ran
        refine ⟨by simp [mountedName, empty], fun _ _ => rfl, ?_, rfl, rfl, rfl, rfl, rfl⟩
        intro other name held
        simp only [without] at held
        split_ifs at held
        exact held
      · cases ran

/-- On a quiet registry a drive with an image is unmounted exactly while the emulator is on. -/
theorem Quiet.unmountDrive_ok_iff {registry : Registry} (quiet : registry.Quiet) {drive0 : Nat}
    {filename : Text} (held : registry.mountedName drive0 = some filename) :
    (∃ note after, registry.unmountDrive drive0 = .ok (note, after)) ↔
      registry.cpmEmuEnabled = true := by
  obtain ⟨mount, there, _⟩ := Option.map_eq_some_iff.mp held
  cases on : registry.cpmEmuEnabled <;>
    simp [unmountDrive, quiet.checkCanChange, on, there]

/-- A registry that differs from a quiet one in its mounts alone is quiet. -/
theorem Quiet.of_frame {registry after : Registry} (quiet : registry.Quiet)
    (lent : after.borrowed = registry.borrowed) (sessions : after.sessions = registry.sessions)
    (unrestored : ∀ other name, after.unrestored other = some name →
      registry.unrestored other = some name) : after.Quiet where
  lent drive0 := by rw [lent, quiet.lent]
  restored drive0 := by
    rw [Option.eq_none_iff_forall_ne_some]
    intro name held
    have was := unrestored drive0 name held
    rw [quiet.restored] at was
    cases was
  idle drive0 := by
    rw [usageOf, sessions]
    exact quiet.idle drive0

end Registry

/-! ## Blank disks -/

/-- A folder of blank single-density disks. -/
def blankDisks (names : List Text) : ImagesFolder where
  file name :=
    if name ∈ names then .ok ⟨erasedMedia ibm3740 [], false⟩
    else .error "No such file or directory (os error 2)".toList
  canonical name := "CPM/images/".toList ++ name

/-- A blank disk whose name has the token of its format can be read and identified. -/
theorem blankDisks_available {names : List Text} {name : Text} (listed : name ∈ names)
    (named : tokenOf (String.ofList name) = some "ibm3740") :
    (blankDisks names).Available name := by
  refine ⟨⟨erasedMedia ibm3740 [], false⟩, ⟨ibm3740, .named, none⟩, if_pos listed,
    fun _ _ => rfl, ?_⟩
  have token : byToken "ibm3740" = some ibm3740 := by decide +kernel
  simp only [identify, named, Option.map_some, token]
  exact if_neg (by decide)

end EthernetGateway.Image
