import EthernetGateway.Image.Registry

/-!
# Applying a mount selection

A mount screen hands over the images it wants on all sixteen drives. The drives are changed one
after another in letter order, and an image goes on a drive only once no other drive holds it.
So an image that has to come from a later drive is refused: the selection is reached exactly
when every image that moves does so towards a later drive.
-/

namespace EthernetGateway.Image

/-- The first image a selection gives a drive. -/
def wanted (desired : List (Nat × Text)) (drive0 : Nat) : Option Text :=
  (desired.find? fun entry => decide (entry.1 = drive0)).map Prod.snd

namespace Registry

/-- `is_unrestored`. -/
def isUnrestored (registry : Registry) (drive0 : Nat) : Bool :=
  (registry.table.slot drive0).isNone &&
    registry.unrestoredPairs.any fun entry => decide (entry.1 = drive0)

/-- `drive_image_names`: the live mount of each drive, or else the image that did not come
back. -/
def driveImageNames (registry : Registry) : List (Option Text) :=
  (List.range numDrives).map fun drive0 =>
    (registry.mountedName drive0).or (registry.unrestored drive0)

end Registry

/-- What `apply_mount_selection` has done so far. -/
structure Applied where
  /-- The registry. -/
  registry : Registry
  /-- The notes for the operator. -/
  notes : List Text
  /-- The errors. -/
  errors : List Text

/-- Report a change that was made or refused. -/
def Applied.report (applied : Applied) :
    Except Refusal (Text × Registry) → Applied
  | .ok (note, registry) => { applied with registry, notes := applied.notes ++ [note] }
  | .error refusal => { applied with errors := applied.errors ++ [refusal.message] }

/-- The `match` of `apply_mount_selection` on the image a drive has and the one wanted. -/
def changeDrive (folder : ImagesFolder) (applied : Applied) (drive0 : Nat) :
    Option Text → Option Text → Applied
  | some old, some name =>
    if old = name ∧ applied.registry.isUnrestored drive0 = true then
      applied.report (applied.registry.mountImage folder drive0 name)
    else if old = name then applied
    else
      match applied.registry.unmountDrive drive0 with
      | .error refusal => { applied with errors := applied.errors ++ [refusal.message] }
      | .ok (_, registry) =>
        { applied with registry }.report (registry.mountImage folder drive0 name)
  | some _, none => applied.report (applied.registry.unmountDrive drive0)
  | none, some name => applied.report (applied.registry.mountImage folder drive0 name)
  | none, none => applied

/-- One drive of the loop of `apply_mount_selection`. -/
def selectDrive (folder : ImagesFolder) (desired : List (Nat × Text))
    (current : List (Option Text)) (applied : Applied) (drive0 : Nat) : Applied :=
  changeDrive folder applied drive0 (current[drive0]?).join (wanted desired drive0)

/-- `apply_mount_selection`. -/
def applyMountSelection (folder : ImagesFolder) (registry : Registry)
    (desired : List (Nat × Text)) : Applied :=
  (List.range numDrives).foldl (selectDrive folder desired registry.driveImageNames)
    ⟨registry, [], []⟩

/-! ## One drive -/

/-- Reporting a change leaves no error exactly when there was none and it was made. -/
theorem Applied.report_errors (applied : Applied) (result : Except Refusal (Text × Registry)) :
    (applied.report result).errors = [] ↔
      applied.errors = [] ∧ ∃ note after, result = .ok (note, after) := by
  rcases result with refusal | ⟨note, after⟩ <;> simp [Applied.report]

/-- A drive adds errors and removes none. -/
theorem changeDrive_errors {folder : ImagesFolder} {applied : Applied} {drive0 : Nat}
    {held want : Option Text} (clean : (changeDrive folder applied drive0 held want).errors = []) :
    applied.errors = [] := by
  unfold changeDrive at clean
  split at clean
  · split_ifs at clean
    · exact ((applied.report_errors _).mp clean).1
    · exact clean
    · split at clean
      · simp at clean
      · exact ((Applied.report_errors _ _).mp clean).1
  · exact ((applied.report_errors _).mp clean).1
  · exact ((applied.report_errors _).mp clean).1
  · exact clean

/-- What it takes to give a drive the image wanted on it: nothing where it has it, else the
emulator on and an image with a safe name that no booted session runs and no later drive
holds. -/
structure InOrder (registry : Registry) (folder : ImagesFolder) (desired : List (Nat × Text))
    (drive0 : Nat) : Prop where
  /-- The emulator is on. -/
  on : registry.cpmEmuEnabled = true
  /-- The name is a safe one. -/
  safe : ∀ name, wanted desired drive0 = some name → isSafeImageName name = true
  /-- No booted session is running the image. -/
  unbooted : ∀ name, wanted desired drive0 = some name →
    folder.canonical name ∉ registry.bootedImages
  /-- No later drive holds the image. -/
  later : ∀ name, wanted desired drive0 = some name →
    ∀ other, drive0 < other → registry.mountedName other ≠ some name

/-- The selection as far as some drive: the drives before it hold what is wanted, the others
what they held. -/
structure SelectedTo (registry : Registry) (desired : List (Nat × Text)) (bound : Nat)
    (applied : Applied) : Prop where
  /-- No drive was refused. -/
  clean : applied.errors = []
  /-- The drives before the bound hold what is wanted. -/
  before : ∀ drive0, drive0 < bound → applied.registry.mountedName drive0 = wanted desired drive0
  /-- The others hold what they held. -/
  after : ∀ drive0, bound ≤ drive0 →
    applied.registry.mountedName drive0 = registry.mountedName drive0
  /-- Nothing is lent, unrestored or in use. -/
  quiet : applied.registry.Quiet
  /-- The same images are booted. -/
  booted : applied.registry.bootedImages = registry.bootedImages
  /-- The emulator is on or off as it was. -/
  enabled : applied.registry.cpmEmuEnabled = registry.cpmEmuEnabled

/-- A selection a mount screen makes: each drive at most once, different images, all of which can
be identified. -/
structure Selection (folder : ImagesFolder) (desired : List (Nat × Text)) : Prop where
  /-- The drives are drives. -/
  inside : ∀ entry ∈ desired, entry.1 < numDrives
  /-- No drive is listed twice. -/
  drives : (desired.map Prod.fst).Nodup
  /-- No image is listed twice. -/
  images : (desired.map Prod.snd).Nodup
  /-- Every image exists and can be identified. -/
  available : ∀ entry ∈ desired, folder.Available entry.2

/-- What is wanted on a drive is an entry of the selection. -/
theorem mem_of_wanted {desired : List (Nat × Text)} {drive0 : Nat} {name : Text}
    (want : wanted desired drive0 = some name) : (drive0, name) ∈ desired := by
  obtain ⟨entry, first, same⟩ := Option.map_eq_some_iff.mp want
  have there : entry.1 = drive0 := by simpa using List.find?_some first
  subst there same
  exact List.mem_of_find?_eq_some first

/-- An image is wanted on one drive. -/
theorem Selection.wanted_once {folder : ImagesFolder} {desired : List (Nat × Text)}
    (selection : Selection folder desired) {drive0 other : Nat} {name : Text}
    (want : wanted desired drive0 = some name) (also : wanted desired other = some name) :
    drive0 = other := by
  have same := List.inj_on_of_nodup_map selection.images (mem_of_wanted want)
    (mem_of_wanted also) rfl
  exact congrArg Prod.fst same

/-- In a quiet registry the names the screens show are those of the live mounts. -/
theorem Registry.Quiet.driveImageNames {registry : Registry} (quiet : registry.Quiet)
    {drive0 : Nat} (inside : drive0 < numDrives) :
    (registry.driveImageNames[drive0]?).join = registry.mountedName drive0 := by
  simp [Registry.driveImageNames, inside, quiet.restored]

/-- In a quiet registry no drive failed to come back. -/
theorem Registry.Quiet.isUnrestored {registry : Registry} (quiet : registry.Quiet)
    (drive0 : Nat) : registry.isUnrestored drive0 = false := by
  simp [Registry.isUnrestored, quiet.unrestoredPairs]

/-- With the drives before it changed and those after it not, an image mounts on a drive exactly
when it is in order there. -/
theorem mountImage_inOrder {folder : ImagesFolder} {desired : List (Nat × Text)}
    (selection : Selection folder desired) (start : Registry) {now : Registry}
    (quiet : now.Quiet)
    {drive0 : Nat} {name : Text} (want : wanted desired drive0 = some name)
    (before : ∀ other, other < drive0 → now.mountedName other = wanted desired other)
    (after : ∀ other, drive0 < other → now.mountedName other = start.mountedName other)
    (booted : now.bootedImages = start.bootedImages)
    (enabled : now.cpmEmuEnabled = start.cpmEmuEnabled) :
    (∃ note reached, now.mountImage folder drive0 name = .ok (note, reached)) ↔
      InOrder start folder desired drive0 := by
  rw [quiet.mountImage_ok_iff (selection.inside _ (mem_of_wanted want))
    (selection.available _ (mem_of_wanted want))]
  constructor
  · rintro ⟨on, safe, unbooted, free⟩
    refine ⟨enabled ▸ on, ?_, ?_, ?_⟩
    · intro other same
      cases want.symm.trans same
      exact safe
    · intro other same
      cases want.symm.trans same
      rwa [booted] at unbooted
    · intro found same other above held
      cases want.symm.trans same
      exact free other (by omega) (by rw [after other above, held])
  · rintro ⟨on, safe, unbooted, later⟩
    refine ⟨enabled ▸ on, safe name want, booted ▸ unbooted name want, ?_⟩
    intro other apart held
    rcases Nat.lt_or_gt_of_ne apart with below | above
    · rw [before other below] at held
      exact apart (selection.wanted_once held want)
    · rw [after other above] at held
      exact later name want other above held

/-- Moving on to the next drive, which holds what is wanted. -/
theorem SelectedTo.next {registry : Registry} {desired : List (Nat × Text)} {bound : Nat}
    {applied reached : Applied} (selected : SelectedTo registry desired bound applied)
    (clean : reached.errors = [])
    (here : reached.registry.mountedName bound = wanted desired bound)
    (others : ∀ other, other ≠ bound →
      reached.registry.mountedName other = applied.registry.mountedName other)
    (quiet : reached.registry.Quiet)
    (booted : reached.registry.bootedImages = applied.registry.bootedImages)
    (enabled : reached.registry.cpmEmuEnabled = applied.registry.cpmEmuEnabled) :
    SelectedTo registry desired (bound + 1) reached := by
  refine ⟨clean, ?_, ?_, quiet, booted.trans selected.booted, enabled.trans selected.enabled⟩
  · intro drive0 below
    by_cases last : drive0 = bound
    · rw [last, here]
    · rw [others drive0 last, selected.before drive0 (by omega)]
  · intro drive0 above
    rw [others drive0 (by omega), selected.after drive0 (by omega)]

/-- A mount keeps a registry quiet. -/
theorem Registry.Quiet.mounts {registry after : Registry} (quiet : registry.Quiet)
    {drive0 : Nat} {filename : Text} (mounts : registry.Mounts drive0 filename after) :
    after.Quiet := by
  refine quiet.of_frame mounts.frame.1 mounts.frame.2.2.1 ?_
  intro other found was
  rw [mounts.unrestored, without] at was
  split_ifs at was
  exact was

/-- Taking an image off a drive keeps a registry quiet. -/
theorem Registry.Quiet.unmounts {registry after : Registry} (quiet : registry.Quiet)
    {drive0 : Nat} (unmounts : registry.Unmounts drive0 after) : after.Quiet :=
  quiet.of_frame unmounts.frame.1 unmounts.frame.2.2.1 unmounts.unrestored

section Step

variable {folder : ImagesFolder} {desired : List (Nat × Text)} {registry : Registry}
  {bound : Nat} {applied : Applied}

/-- What one drive of the loop does: without an error exactly when the drive need not change or
its change is in order, and then the selection is reached one drive further. -/
def Steps (registry : Registry) (folder : ImagesFolder) (desired : List (Nat × Text))
    (bound : Nat) (reached : Applied) : Prop :=
  (reached.errors = [] ↔ (registry.mountedName bound ≠ wanted desired bound →
    InOrder registry folder desired bound)) ∧
  (reached.errors = [] → SelectedTo registry desired (bound + 1) reached)

/-- A drive that holds what is wanted is left alone. -/
theorem steps_unchanged (selected : SelectedTo registry desired bound applied)
    (same : registry.mountedName bound = wanted desired bound) :
    Steps registry folder desired bound applied := by
  refine ⟨by simp [selected.clean, same], fun clean => ?_⟩
  exact selected.next clean (by rw [selected.after bound (Nat.le_refl _), same]) (fun _ _ => rfl)
    selected.quiet rfl rfl

/-- A drive that is to be empty is unmounted. -/
theorem steps_unmount (selected : SelectedTo registry desired bound applied) {old : Text}
    (held : registry.mountedName bound = some old) (want : wanted desired bound = none) :
    Steps registry folder desired bound
      (applied.report (applied.registry.unmountDrive bound)) := by
  have there : applied.registry.mountedName bound = some old := by
    rw [selected.after bound (Nat.le_refl _), held]
  constructor
  · rw [Applied.report_errors, selected.quiet.unmountDrive_ok_iff there, selected.enabled]
    constructor
    · rintro ⟨-, on⟩ -
      exact ⟨on, by simp [want], by simp [want], by simp [want]⟩
    · intro ordered
      exact ⟨selected.clean, (ordered (by simp [held, want])).on⟩
  · intro clean
    obtain ⟨_, note, after, ran⟩ := (applied.report_errors _).mp clean
    have unmounts := Registry.unmountDrive_unmounts ran
    rw [ran] at clean ⊢
    exact selected.next clean (unmounts.here.trans want.symm) unmounts.others
      (selected.quiet.unmounts unmounts) unmounts.frame.2.1 unmounts.frame.2.2.2.1

/-- An empty drive that is to hold an image is mounted. -/
theorem steps_mount (selection : Selection folder desired)
    (selected : SelectedTo registry desired bound applied) {name : Text}
    (empty : registry.mountedName bound = none) (want : wanted desired bound = some name) :
    Steps registry folder desired bound
      (applied.report (applied.registry.mountImage folder bound name)) := by
  have ordered := mountImage_inOrder selection registry selected.quiet want selected.before
    (fun other above => selected.after other (by omega)) selected.booted selected.enabled
  constructor
  · rw [Applied.report_errors, ordered]
    simp [selected.clean, empty, want]
  · intro clean
    obtain ⟨_, note, after, ran⟩ := (applied.report_errors _).mp clean
    obtain ⟨mounts, -, -⟩ := Registry.mountImage_mounts ran
    rw [ran] at clean ⊢
    exact selected.next clean (mounts.here.trans want.symm) mounts.others
      (selected.quiet.mounts mounts) mounts.frame.2.1 mounts.frame.2.2.2.1

/-- A drive that is to hold another image is unmounted, then mounted. -/
theorem steps_replace (selection : Selection folder desired)
    (selected : SelectedTo registry desired bound applied) {old name : Text}
    (held : registry.mountedName bound = some old) (want : wanted desired bound = some name)
    (other : old ≠ name) :
    Steps registry folder desired bound
      (changeDrive folder applied bound (some old) (some name)) := by
  have there : applied.registry.mountedName bound = some old := by
    rw [selected.after bound (Nat.le_refl _), held]
  have changed : registry.mountedName bound ≠ wanted desired bound := by
    simpa [held, want] using other
  have unmounting := selected.quiet.unmountDrive_ok_iff there
  simp only [changeDrive, other, false_and, if_false]
  cases taken : applied.registry.unmountDrive bound with
  | error refusal =>
    refine ⟨⟨by simp, fun ordered => ?_⟩, by simp⟩
    have on := (ordered changed).on
    rw [← selected.enabled, ← unmounting, taken] at on
    obtain ⟨_, _, absurd⟩ := on
    cases absurd
  | ok taken' =>
    obtain ⟨note, middle⟩ := taken'
    have unmounts := Registry.unmountDrive_unmounts taken
    have quiet := selected.quiet.unmounts unmounts
    have ordered := mountImage_inOrder selection registry quiet want
      (fun drive0 below => by rw [unmounts.others drive0 (by omega), selected.before drive0 below])
      (fun drive0 above => by
        rw [unmounts.others drive0 (by omega), selected.after drive0 (by omega)])
      (unmounts.frame.2.1.trans selected.booted) (unmounts.frame.2.2.2.1.trans selected.enabled)
    constructor
    · rw [Applied.report_errors, ordered]
      simp [selected.clean, changed]
    · intro clean
      obtain ⟨_, note, after, ran⟩ := (Applied.report_errors _ _).mp clean
      obtain ⟨mounts, -, -⟩ := Registry.mountImage_mounts ran
      dsimp only at clean ⊢
      rw [ran] at clean ⊢
      refine selected.next clean (mounts.here.trans want.symm) ?_ (quiet.mounts mounts)
        (mounts.frame.2.1.trans unmounts.frame.2.1)
        (mounts.frame.2.2.2.1.trans unmounts.frame.2.2.2.1)
      intro drive0 apart
      exact (mounts.others drive0 apart).trans (unmounts.others drive0 apart)

/-- One drive of the loop. -/
theorem selectDrive_steps (selection : Selection folder desired) (quiet : registry.Quiet)
    (inside : bound < numDrives) (selected : SelectedTo registry desired bound applied) :
    Steps registry folder desired bound
      (selectDrive folder desired registry.driveImageNames applied bound) := by
  rw [selectDrive, quiet.driveImageNames inside]
  cases held : registry.mountedName bound with
  | none =>
    cases want : wanted desired bound with
    | none => exact steps_unchanged selected (by rw [held, want])
    | some name => exact steps_mount selection selected held want
  | some old =>
    cases want : wanted desired bound with
    | none => exact steps_unmount selected held want
    | some name =>
      by_cases same : old = name
      · subst same
        simp only [changeDrive, selected.quiet.isUnrestored, Bool.false_eq_true, and_false,
          if_false, if_true]
        exact steps_unchanged selected (by rw [held, want])
      · exact steps_replace selection selected held want same

end Step

/-! ## All drives -/

/-- The drives up to a bound are changed without an error exactly when each of them need not
change or its change is in order, and then the selection is reached that far. -/
theorem selectDrives_iff {folder : ImagesFolder} {desired : List (Nat × Text)}
    (selection : Selection folder desired) {registry : Registry} (quiet : registry.Quiet)
    (bound : Nat) (inside : bound ≤ numDrives) :
    ((((List.range bound).foldl (selectDrive folder desired registry.driveImageNames)
        ⟨registry, [], []⟩).errors = [] ↔
      ∀ drive0 < bound, registry.mountedName drive0 ≠ wanted desired drive0 →
        InOrder registry folder desired drive0)) ∧
    (((List.range bound).foldl (selectDrive folder desired registry.driveImageNames)
        ⟨registry, [], []⟩).errors = [] →
      SelectedTo registry desired bound ((List.range bound).foldl
        (selectDrive folder desired registry.driveImageNames) ⟨registry, [], []⟩)) := by
  induction bound with
  | zero => exact ⟨by simp, fun clean => ⟨clean, by simp, fun _ _ => rfl, quiet, rfl, rfl⟩⟩
  | succ bound ih =>
    obtain ⟨sofar, selected⟩ := ih (by omega)
    rw [List.range_succ, List.foldl_append, List.foldl_cons, List.foldl_nil]
    generalize (List.range bound).foldl (selectDrive folder desired registry.driveImageNames)
      ⟨registry, [], []⟩ = applied at sofar selected ⊢
    constructor
    · constructor
      · intro clean drive0 below changed
        have before := changeDrive_errors clean
        have step := selectDrive_steps selection quiet inside (selected before)
        by_cases last : drive0 = bound
        · subst last
          exact step.1.mp clean changed
        · exact sofar.mp before drive0 (by omega) changed
      · intro ordered
        have before := sofar.mpr fun drive0 below => ordered drive0 (by omega)
        have step := selectDrive_steps selection quiet inside (selected before)
        exact step.1.mpr (ordered bound (by omega))
    · intro clean
      exact (selectDrive_steps selection quiet inside (selected (changeDrive_errors clean))).2
        clean

/-- Nothing is wanted past the last drive. -/
theorem Selection.wanted_past {folder : ImagesFolder} {desired : List (Nat × Text)}
    (selection : Selection folder desired) {drive0 : Nat} (past : numDrives ≤ drive0) :
    wanted desired drive0 = none := by
  rw [Option.eq_none_iff_forall_ne_some]
  intro name want
  have inside := selection.inside _ (mem_of_wanted want)
  omega

/-- A selection is reached, with no error reported, exactly when every drive whose image changes
gets, with the emulator on, an image with a safe name that no booted session runs and no later
drive holds. -/
theorem applyMountSelection_reaches_iff {folder : ImagesFolder} {registry : Registry}
    {desired : List (Nat × Text)} (selection : Selection folder desired)
    (quiet : registry.Quiet) :
    ((applyMountSelection folder registry desired).errors = [] ∧
      ∀ drive0, (applyMountSelection folder registry desired).registry.mountedName drive0 =
        wanted desired drive0) ↔
    ∀ drive0 < numDrives, registry.mountedName drive0 ≠ wanted desired drive0 →
      InOrder registry folder desired drive0 := by
  obtain ⟨ordered, selected⟩ := selectDrives_iff selection quiet numDrives (Nat.le_refl _)
  constructor
  · rintro ⟨clean, -⟩
    exact ordered.mp clean
  · intro each
    have clean := ordered.mpr each
    refine ⟨clean, fun drive0 => ?_⟩
    rcases Nat.lt_or_ge drive0 numDrives with inside | past
    · exact (selected clean).before drive0 inside
    · rw [selection.wanted_past past, Registry.mountedName, Table.bounded _ drive0 past]
      rfl

/-- Two blank disks. -/
def diskNames : List Text := ["ibm3740_a.dsk".toList, "ibm3740_b.dsk".toList]

/-- Both can be read and identified. -/
theorem diskNames_available {name : Text} (listed : name ∈ diskNames) :
    (blankDisks diskNames).Available name := by
  refine blankDisks_available listed ?_
  simp only [diskNames, List.mem_cons, List.not_mem_nil, or_false] at listed
  rcases listed with rfl | rfl
  · decide +kernel
  · decide +kernel

/-- A blank disk as it is mounted. -/
def blankMount (filename : Text) : Mount where
  filename := filename
  format := "ibm3740"
  readOnly := false
  readOnlyReason := []
  hostReadOnly := false
  fs :=
    { media := erasedMedia ibm3740 [], fmt := ibm3740, dir := [], foreign := [], used := [],
      readOnly := false }

/-- A registry with images on its first two drives and nothing else going on. -/
def twoDrives (first second : Option Text) : Registry where
  table :=
    ⟨fun drive0 =>
        if drive0 = 0 then first.map blankMount
        else if drive0 = 1 then second.map blankMount else none,
      fun drive0 past => by
        have after : drive0 ≠ 0 ∧ drive0 ≠ 1 := by
          simp only [numDrives] at past
          omega
        rw [if_neg after.1, if_neg after.2]⟩
  borrowed := fun _ => none
  unrestored := fun _ => none
  bootedImages := []
  sessions := []
  cpmEmuEnabled := true
  cpmMounts := []

/-- Nothing is lent, unrestored or in use in it. -/
theorem twoDrives_quiet (first second : Option Text) : (twoDrives first second).Quiet where
  lent _ := rfl
  restored _ := rfl
  idle drive0 := by simp [Registry.usageOf, twoDrives, Registry.describeUsage]

/-- What its drives hold. -/
theorem twoDrives_mountedName (first second : Option Text) (drive0 : Nat) :
    (twoDrives first second).mountedName drive0 =
      if drive0 = 0 then first else if drive0 = 1 then second else none := by
  simp only [Registry.mountedName, twoDrives]
  split_ifs
  · cases first <;> rfl
  · cases second <;> rfl
  · rfl

/-- The theorem at work: an image moves from drive A: to drive B:. -/
theorem applyMountSelection_moves_later :
    (applyMountSelection (blankDisks diskNames) (twoDrives (some "ibm3740_a.dsk".toList) none)
        [(1, "ibm3740_a.dsk".toList)]).errors = [] ∧
      ∀ drive0, (applyMountSelection (blankDisks diskNames) (twoDrives (some "ibm3740_a.dsk".toList) none)
          [(1, "ibm3740_a.dsk".toList)]).registry.mountedName drive0 =
        wanted [(1, "ibm3740_a.dsk".toList)] drive0 := by
  refine (applyMountSelection_reaches_iff
    ⟨by decide, by decide, by decide, fun entry listed => ?_⟩ (twoDrives_quiet _ _)).mpr ?_
  · cases List.mem_singleton.mp listed
    exact diskNames_available List.mem_cons_self
  · intro drive0 inside changed
    refine ⟨rfl, ?_, fun _ _ => List.not_mem_nil, ?_⟩
    · intro name want
      have listed := mem_of_wanted want
      cases List.mem_singleton.mp listed
      decide
    · intro name want other after held
      have listed := mem_of_wanted want
      cases List.mem_singleton.mp listed
      rw [twoDrives_mountedName, if_neg (by omega), ite_self] at held
      cases held

/-- Not every selection is reached: the images of drives A: and B: are not exchanged. -/
theorem applyMountSelection_exchange_refused :
    ¬ ∀ (folder : ImagesFolder) (registry : Registry) (desired : List (Nat × Text)),
      Selection folder desired → registry.Quiet →
      (∀ drive0 other name, registry.mountedName drive0 = some name →
        registry.mountedName other = some name → drive0 = other) →
      (applyMountSelection folder registry desired).errors = [] ∧
        ∀ drive0, (applyMountSelection folder registry desired).registry.mountedName drive0 =
          wanted desired drive0 := by
  intro every
  let registry := twoDrives (some "ibm3740_a.dsk".toList) (some "ibm3740_b.dsk".toList)
  let desired := [(0, "ibm3740_b.dsk".toList), (1, "ibm3740_a.dsk".toList)]
  have selection : Selection (blankDisks diskNames) desired := by
    refine ⟨by decide, by decide, by decide, fun entry listed => diskNames_available ?_⟩
    simp only [desired, List.mem_cons, List.not_mem_nil, or_false] at listed
    rcases listed with rfl | rfl
    · exact List.mem_cons_of_mem _ List.mem_cons_self
    · exact List.mem_cons_self
  have quiet : registry.Quiet := twoDrives_quiet _ _
  have apart : ∀ drive0 other name, registry.mountedName drive0 = some name →
      registry.mountedName other = some name → drive0 = other := by
    intro drive0 other name held also
    rw [twoDrives_mountedName] at held also
    have differ : "ibm3740_a.dsk".toList ≠ "ibm3740_b.dsk".toList := by decide
    split_ifs at held also
    · omega
    · exact absurd (Option.some.inj (held.trans also.symm)) differ
    · exact absurd (Option.some.inj (also.trans held.symm)) differ
    · omega
  have clean := (every (blankDisks diskNames) registry desired selection quiet apart).1
  have ordered := (selectDrives_iff selection quiet numDrives (Nat.le_refl _)).1.mp clean 0
    (by decide) (by decide)
  exact ordered.later "ibm3740_b.dsk".toList rfl 1 (by decide) rfl

end EthernetGateway.Image
