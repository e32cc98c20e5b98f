import EthernetGateway.Image.Registry
import EthernetGateway.KeyedList

/-!
# The saved drive list

The drives are saved as one line, `A=name,C=other`, put together from the mount table, the loans
and the drives that did not come back. The check of an image name allows a comma and whitespace
around the name, which the line does not carry: a saved list means the drives it was saved from
exactly when no name in it has either.
-/

namespace EthernetGateway.Image

open KeyedList

/-! ## The saved line -/

/-- `char::is_ascii_alphabetic`. -/
def isAsciiAlphabetic (c : Char) : Bool :=
  (65 ≤ c.toNat && c.toNat ≤ 90) || (97 ≤ c.toNat && c.toNat ≤ 122)

/-- The drive and the name an item of the list spells, where it spells them. -/
def parseMount (item : Text) : Option (Nat × Text) :=
  let item := item.trim
  if item.isEmpty then none
  else
    match item.splitOnce '=' with
    | none => none
    | some (drive, name) =>
      let name := name.trim
      match drive.trim with
      | [letter] =>
        if !isAsciiAlphabetic letter then none
        else
          let drive0 := letter.toUpper.toNat - 65
          if drive0 ≥ numDrives ∨ isSafeImageName name = false then none
          else some (drive0, name)
      | _ => none

/-- The loop of `parse_mounts`: the last entry for a drive wins. -/
def gatherMounts : List Text → List (Nat × Text) → List (Nat × Text)
  | [], out => out
  | item :: items, out =>
    match parseMount item with
    | none => gatherMounts items out
    | some entry =>
      gatherMounts items ((out.filter fun other => decide (other.1 ≠ entry.1)) ++ [entry])

/-- `parse_mounts`. -/
def parseMounts (value : Text) : List (Nat × Text) :=
  sortByKey (gatherMounts (value.split ',') [])

/-- An item of the list. -/
def formatMount (entry : Nat × Text) : Text := driveLetter entry.1 :: '=' :: entry.2

/-- `format_mounts`. -/
def formatMounts (mounts : List (Nat × Text)) : Text := Text.join [','] (mounts.map formatMount)

namespace Registry

/-- The drives of the mount table, the loans and the drives that did not come back, as
`current_mounts_value` puts them together. -/
def currentMounts (registry : Registry) : List (Nat × Text) :=
  dedupByKey (sortByKey (registry.mountedPairs ++ registry.bootLoans ++ registry.unrestoredPairs))

/-- `current_mounts_value`. -/
def currentMountsValue (registry : Registry) : Text :=
  if !registry.cpmEmuEnabled then registry.cpmMounts else formatMounts registry.currentMounts

/-- The image a drive is the operator's for: its live mount, else its loan, else the one that did
not come back. -/
def imageOf (registry : Registry) (drive0 : Nat) : Option Text :=
  (registry.mountedName drive0).or
    ((registry.borrowed drive0).or (registry.unrestored drive0))

/-- The drives with their images. -/
def imagePairs (registry : Registry) : List (Nat × Text) :=
  (List.range numDrives).filterMap fun drive0 =>
    (registry.imageOf drive0).map fun name => (drive0, name)

end Registry

/-! ## The line read back -/

/-- A name the line carries: without a comma and without whitespace around it. -/
def Plain (name : Text) : Prop := ',' ∉ name ∧ name.trim = name

instance (name : Text) : Decidable (Plain name) := by unfold Plain; infer_instance

/-- An item without the comma that is read as an entry gives a plain and safe name. -/
theorem parseMount_plain {item : Text} (free : ',' ∉ item) {entry : Nat × Text}
    (parsed : parseMount item = some entry) : Plain entry.2 := by
  simp only [parseMount] at parsed
  split_ifs at parsed
  split at parsed
  · cases parsed
  · next drive name once =>
    split at parsed
    · split_ifs at parsed
      cases parsed
      refine ⟨fun comma => free ?_, Text.trim_trim name⟩
      have inName := Text.mem_of_mem_trim comma
      rw [Text.splitOnce] at once
      split_ifs at once
      cases once
      exact Text.mem_of_mem_trim
        ((List.dropWhile_suffix _).subset (List.tail_subset _ inName))
    · cases parsed

/-- Every name of a list read back is plain. -/
theorem parseMounts_plain (value : Text) : ∀ entry ∈ parseMounts value, Plain entry.2 := by
  have gathered : ∀ (items : List Text) (out : List (Nat × Text)),
      (∀ item ∈ items, ',' ∉ item) → (∀ entry ∈ out, Plain entry.2) →
      ∀ entry ∈ gatherMounts items out, Plain entry.2 := by
    intro items
    induction items with
    | nil => exact fun out _ plain => plain
    | cons item items ih =>
      intro out free plain
      have rest : ∀ item ∈ items, ',' ∉ item := fun item member =>
        free item (List.mem_cons_of_mem _ member)
      rw [gatherMounts]
      split
      · exact ih out rest plain
      · next entry parsed =>
        refine ih _ rest fun other member => ?_
        rcases List.mem_append.mp member with kept | new
        · exact plain other (List.mem_filter.mp kept).1
        · cases List.mem_singleton.mp new
          exact parseMount_plain (free item List.mem_cons_self) parsed
  intro entry member
  rw [parseMounts, sortByKey, List.mem_mergeSort] at member
  exact gathered _ _ (fun item => Text.not_mem_of_mem_split) (by simp) entry member

/-- A drive letter is an ASCII letter that names its drive. -/
theorem driveLetter_spec {drive0 : Nat} (inside : drive0 < numDrives) :
    isAsciiAlphabetic (driveLetter drive0) = true ∧
      (driveLetter drive0).toUpper.toNat - 65 = drive0 ∧
      Text.isWhitespace (driveLetter drive0) = false ∧ driveLetter drive0 ≠ '=' ∧
      driveLetter drive0 ≠ ',' := by
  revert drive0
  decide

/-- An item of the list with a plain safe name is read back. -/
theorem parseMount_formatMount {entry : Nat × Text} (inside : entry.1 < numDrives)
    (safe : isSafeImageName entry.2 = true) (plain : Plain entry.2) :
    parseMount (formatMount entry) = some entry := by
  obtain ⟨letter, names, black, apart, _⟩ := driveLetter_spec inside
  have some : entry.2 ≠ [] := by
    intro none
    rw [none] at safe
    simp [isSafeImageName] at safe
  have whole : (formatMount entry).trim = formatMount entry := by
    apply Text.trim_eq_self
    · intro c head
      cases head
      exact black
    · intro c last
      rw [formatMount, List.getLast?_cons_cons, List.getLast?_cons_of_ne_nil some] at last
      exact Text.getLast?_trim c (plain.2.symm ▸ last)
  have once : (formatMount entry).splitOnce '=' = .some ([driveLetter entry.1], entry.2) :=
    @Text.splitOnce_part '=' [driveLetter entry.1] (by simpa using apart.symm) entry.2
  have alone : Text.trim [driveLetter entry.1] = [driveLetter entry.1] := by
    apply Text.trim_eq_self <;> intro c only <;> cases only <;> exact black
  have filled : (formatMount entry).isEmpty = false := rfl
  simp [parseMount, whole, filled, once, alone, plain.2, letter, names, safe, inside]

/-- An ascending list of plain safe names is read back. -/
theorem parseMounts_formatMounts {mounts : List (Nat × Text)} (ascending : Ascending mounts)
    (inside : ∀ entry ∈ mounts, entry.1 < numDrives)
    (safe : ∀ entry ∈ mounts, isSafeImageName entry.2 = true)
    (plain : ∀ entry ∈ mounts, Plain entry.2) : parseMounts (formatMounts mounts) = mounts := by
  have gathered : ∀ (rest out : List (Nat × Text)), Ascending (out ++ rest) →
      (∀ entry ∈ rest, parseMount (formatMount entry) = some entry) →
      gatherMounts (rest.map formatMount) out = out ++ rest := by
    intro rest
    induction rest with
    | nil => intro out _ _; simp [gatherMounts]
    | cons entry rest ih =>
      intro out ordered parsed
      have before : ∀ other ∈ out, decide (other.1 ≠ entry.1) = true := fun other member =>
        decide_eq_true
          ((List.pairwise_append.mp ordered).2.2 other member entry List.mem_cons_self).ne
      rw [List.map_cons, gatherMounts, parsed entry List.mem_cons_self]
      dsimp only
      rw [List.filter_eq_self.mpr before, ih (out ++ [entry]) (by simpa using ordered)
        fun other member => parsed other (List.mem_cons_of_mem _ member)]
      simp
  have items : (formatMounts mounts).split ',' = mounts.map formatMount ∨
      mounts = [] := by
    by_cases none : mounts = []
    · exact Or.inr none
    · refine Or.inl (Text.split_join (by simpa using none) fun item member => ?_)
      obtain ⟨entry, listed, rfl⟩ := List.mem_map.mp member
      obtain ⟨_, _, _, _, letter⟩ := driveLetter_spec (inside entry listed)
      simp only [formatMount, List.mem_cons, not_or]
      exact ⟨letter.symm, by decide, (plain entry listed).1⟩
  rcases items with items | rfl
  · rw [parseMounts, items, gathered mounts [] ascending fun entry listed =>
      parseMount_formatMount (inside entry listed) (safe entry listed) (plain entry listed)]
    exact ascending.sortByKey_eq
  · have blank : parseMount [] = none := rfl
    simp [parseMounts, formatMounts, Text.join, Text.split, gatherMounts, blank, sortByKey]

/-! ## The drives that are saved -/

namespace Registry

/-- The tables of a registry whose names all have a property and whose drives are drives. -/
structure Names (registry : Registry) (holds : Text → Prop) : Prop where
  /-- The mounted images. -/
  mounted : ∀ drive0 name, registry.mountedName drive0 = some name → holds name
  /-- The loans. -/
  lent : ∀ drive0 name, registry.borrowed drive0 = some name → drive0 < numDrives ∧ holds name
  /-- The drives that did not come back. -/
  unrestored : ∀ drive0 name, registry.unrestored drive0 = some name →
    drive0 < numDrives ∧ holds name

/-- The image of a drive has the property of the names. -/
theorem Names.imageOf {registry : Registry} {holds : Text → Prop} (names : registry.Names holds)
    {drive0 : Nat} {name : Text} (image : registry.imageOf drive0 = some name) : holds name := by
  simp only [Registry.imageOf, Option.or_eq_some_iff] at image
  rcases image with mounted | ⟨_, lent | ⟨_, missing⟩⟩
  · exact names.mounted drive0 name mounted
  · exact (names.lent drive0 name lent).2
  · exact (names.unrestored drive0 name missing).2

/-- A drive with an image is a drive. -/
theorem Names.inside {registry : Registry} {holds : Text → Prop} (names : registry.Names holds)
    {drive0 : Nat} {name : Text} (image : registry.imageOf drive0 = some name) :
    drive0 < numDrives := by
  simp only [Registry.imageOf, Option.or_eq_some_iff] at image
  rcases image with mounted | ⟨_, lent | ⟨_, missing⟩⟩
  · exact List.mem_range.mp (List.mem_filterMap.mp
      ((registry.mem_mountedPairs drive0 name).mpr mounted) |>.elim fun other found => by
        obtain ⟨listed, made⟩ := found
        obtain ⟨_, _, same⟩ := Option.map_eq_some_iff.mp made
        cases same
        exact listed)
  · exact (names.lent drive0 name lent).1
  · exact (names.unrestored drive0 name missing).1

/-- The drives saved are the drives with their images. -/
theorem Names.currentMounts {registry : Registry} {holds : Text → Prop}
    (names : registry.Names holds) : registry.currentMounts = registry.imagePairs := by
  refine dedupByKey_sortByKey (ascending_filterMap_range _ _) fun entry => ?_
  obtain ⟨drive0, name⟩ := entry
  have listed : (drive0, name) ∈ registry.imagePairs ↔ first registry.imagePairs drive0 =
      some (drive0, name) :=
    (ascending_filterMap_range numDrives registry.imageOf).mem_iff_first (drive0, name)
  have images : first registry.imagePairs drive0 =
      (registry.imageOf drive0).map fun name => (drive0, name) :=
    first_filterMap_range _ fun name image => names.inside image
  rw [listed, images]
  have mounted : first registry.mountedPairs drive0 =
      (registry.mountedName drive0).map fun name => (drive0, name) :=
    first_filterMap_range _ fun name held =>
      @Names.inside registry holds names drive0 name (by simp [Registry.imageOf, held])
  have lent : first registry.bootLoans drive0 =
      (registry.borrowed drive0).map fun name => (drive0, name) :=
    first_filterMap_range _ fun name held =>
      Nat.lt_of_lt_of_le (names.lent drive0 name held).1 (by decide)
  have missing : first registry.unrestoredPairs drive0 =
      (registry.unrestored drive0).map fun name => (drive0, name) :=
    first_filterMap_range _ fun name held =>
      Nat.lt_of_lt_of_le (names.unrestored drive0 name held).1 (by decide)
  rw [first] at mounted lent missing ⊢
  rw [List.find?_append, List.find?_append, mounted, lent, missing, Registry.imageOf]
  cases registry.mountedName drive0 <;> cases registry.borrowed drive0 <;>
    cases registry.unrestored drive0 <;> rfl

/-- A saved list means the drives it was saved from exactly when every name in it is plain. -/
theorem Names.parseMounts_iff {registry : Registry}
    (names : registry.Names fun name => isSafeImageName name = true)
    (on : registry.cpmEmuEnabled = true) :
    parseMounts registry.currentMountsValue = registry.imagePairs ↔
      ∀ drive0 name, registry.imageOf drive0 = some name → Plain name := by
  have listed : ∀ drive0 name, registry.imageOf drive0 = some name →
      (drive0, name) ∈ registry.imagePairs := fun drive0 name image =>
    List.mem_filterMap.mpr ⟨drive0, List.mem_range.mpr (names.inside image), by rw [image]; rfl⟩
  have image : ∀ entry ∈ registry.imagePairs, registry.imageOf entry.1 = some entry.2 := by
    intro entry member
    obtain ⟨_, _, made⟩ := List.mem_filterMap.mp member
    obtain ⟨_, held, rfl⟩ := Option.map_eq_some_iff.mp made
    exact held
  rw [currentMountsValue, if_neg (by simp [on]), names.currentMounts]
  constructor
  · intro same drive0 name held
    exact parseMounts_plain _ (drive0, name) (by rw [same]; exact listed drive0 name held)
  · intro plain
    exact parseMounts_formatMounts (ascending_filterMap_range _ _)
      (fun entry member => names.inside (image entry member))
      (fun entry member => names.imageOf (image entry member))
      (fun entry member => plain entry.1 entry.2 (image entry member))

end Registry

/-! ## Runs -/

/-- The registry with what booted sessions still have to give back. -/
structure Gateway where
  /-- The registry. -/
  registry : Registry
  /-- The drives booted sessions have taken, with the images to put back. -/
  taken : List (Nat × Text)
  /-- The drives put back, or recorded as not back, whose loan has not ended yet. -/
  returned : List (Nat × Text)

/-- What happens to the registry. -/
inductive Event where
  /-- `mount_image`, over what the images folder holds then. -/
  | mount (folder : ImagesFolder) (drive0 : Nat) (filename : Text)
  /-- `unmount_drive`. -/
  | unmount (drive0 : Nat)
  /-- A boot takes a drive. -/
  | lend (drive0 : Nat)
  /-- A booted session claims an image, or gives one up. -/
  | booted (images : List Text)
  /-- An ending boot puts a drive back, or records that it could not. -/
  | handBack (folder : ImagesFolder) (entry : Nat × Text)
  /-- The loan of a drive put back ends. -/
  | endLoan (entry : Nat × Text)
  /-- Sessions start, end, move or write. -/
  | sessions (uses : List SessionUse)
  /-- The configuration is saved. -/
  | configure (enabled : Bool) (mounts : Text)

namespace Gateway

/-- One event. A refused change leaves the registry as it was. -/
def step (gateway : Gateway) : Event → Gateway
  | .mount folder drive0 filename =>
    match gateway.registry.mountImage folder drive0 filename with
    | .ok (_, registry) => { gateway with registry }
    | .error _ => gateway
  | .unmount drive0 =>
    match gateway.registry.unmountDrive drive0 with
    | .ok (_, registry) => { gateway with registry }
    | .error _ => gateway
  | .lend drive0 =>
    match gateway.registry.lendForBoot drive0 with
    | (some mount, registry) =>
      { gateway with registry, taken := gateway.taken ++ [(drive0, mount.filename)] }
    | (none, registry) => { gateway with registry }
  | .booted images => { gateway with registry.bootedImages := images }
  | .handBack folder entry =>
    if entry ∈ gateway.taken then
      { registry := gateway.registry.handBack folder entry.1 entry.2
        taken := gateway.taken.erase entry
        returned := gateway.returned ++ [entry] }
    else gateway
  | .endLoan entry =>
    if entry ∈ gateway.returned then
      { gateway with
        registry := gateway.registry.endBootLoan entry.1
        returned := gateway.returned.erase entry }
    else gateway
  | .sessions uses => { gateway with registry.sessions := uses }
  | .configure enabled mounts =>
    { gateway with registry := gateway.registry.configure enabled mounts }

/-- The gateway as it starts: no drive mounted, lent or missing. -/
def started (enabled : Bool) (mounts : Text) : Gateway where
  registry :=
    { table := .empty, borrowed := fun _ => none, unrestored := fun _ => none, bootedImages := [],
      sessions := [], cpmEmuEnabled := enabled, cpmMounts := mounts }
  taken := []
  returned := []

/-- The gateway after some events. -/
def run (gateway : Gateway) (events : List Event) : Gateway := events.foldl step gateway

/-- The names of the registry and of the drives to be put back. -/
structure Holds (gateway : Gateway) (holds : Text → Prop) : Prop where
  /-- The names of the registry. -/
  names : gateway.registry.Names holds
  /-- The drives to be put back. -/
  taken : ∀ entry ∈ gateway.taken, entry.1 < numDrives ∧ holds entry.2

end Gateway

namespace Registry

/-- A mount of an image whose name has the property keeps it. -/
theorem Names.mounts {registry after : Registry} {holds : Text → Prop}
    (names : registry.Names holds) {drive0 : Nat} {filename : Text}
    (mounts : registry.Mounts drive0 filename after) (good : holds filename) :
    after.Names holds where
  mounted other name held := by
    by_cases same : other = drive0
    · rw [same, mounts.here] at held
      cases held
      exact good
    · rw [mounts.others other same] at held
      exact names.mounted other name held
  lent other name held := names.lent other name (by rw [← mounts.frame.1]; exact held)
  unrestored other name held := by
    rw [mounts.unrestored, without] at held
    split_ifs at held
    exact names.unrestored other name held

/-- Taking an image off a drive keeps the property of the names. -/
theorem Names.unmounts {registry after : Registry} {holds : Text → Prop}
    (names : registry.Names holds) {drive0 : Nat} (unmounts : registry.Unmounts drive0 after) :
    after.Names holds where
  mounted other name held := by
    by_cases same : other = drive0
    · rw [same, unmounts.here] at held
      cases held
    · rw [unmounts.others other same] at held
      exact names.mounted other name held
  lent other name held := names.lent other name (by rw [← unmounts.frame.1]; exact held)
  unrestored other name held := names.unrestored other name (unmounts.unrestored other name held)

/-- Recording a drive with a good name keeps the property. -/
theorem recorded_holds {entries : Nat → Option Text} {holds : Text → Prop} {drive0 : Nat}
    {filename : Text} (good : drive0 < numDrives ∧ holds filename)
    (names : ∀ other name, entries other = some name → other < numDrives ∧ holds name) :
    ∀ other name, recorded entries drive0 filename other = some name →
      other < numDrives ∧ holds name := by
  intro other name held
  rw [recorded] at held
  split_ifs at held with same
  · cases held
    exact same ▸ good
  · exact names other name held

/-- Putting a drive back keeps the property of the names. -/
theorem Names.handBack {registry : Registry} {holds : Text → Prop} (names : registry.Names holds)
    (folder : ImagesFolder) {drive0 : Nat} {filename : Text}
    (good : drive0 < numDrives ∧ holds filename) :
    (registry.handBack folder drive0 filename).Names holds := by
  unfold Registry.handBack
  split
  · next ran => exact names.mounts (mountImageUnchecked_mounts ran).1 good.2
  · exact ⟨names.mounted, names.lent, recorded_holds good names.unrestored⟩

/-- Dropping every mount keeps the property of the names. -/
theorem Names.clearAll {registry : Registry} {holds : Text → Prop} (names : registry.Names holds) :
    registry.clearAll.Names holds :=
  ⟨fun _ _ held => (nomatch held), names.lent, fun _ _ held => (nomatch held)⟩

end Registry

namespace Gateway

/-- One event keeps a property of the names that every image mounted by it has. -/
theorem Holds.step {gateway : Gateway} {holds : Text → Prop} (held : gateway.Holds holds)
    (event : Event) (good : ∀ folder drive0 filename, event = .mount folder drive0 filename →
      isSafeImageName filename = true → holds filename) : (gateway.step event).Holds holds := by
  obtain ⟨names, taken⟩ := held
  cases event with
  | mount folder drive0 filename =>
    simp only [Gateway.step]
    split
    · next ran =>
      obtain ⟨mounts, -, safe⟩ := Registry.mountImage_mounts ran
      exact ⟨names.mounts mounts (good folder drive0 filename rfl safe), taken⟩
    · exact ⟨names, taken⟩
  | unmount drive0 =>
    simp only [Gateway.step]
    split
    · next ran => exact ⟨names.unmounts (Registry.unmountDrive_unmounts ran), taken⟩
    · exact ⟨names, taken⟩
  | lend drive0 =>
    simp only [Gateway.step, Registry.lendForBoot]
    cases there : gateway.registry.table.slot drive0 with
    | none => exact ⟨names, taken⟩
    | some mount =>
      have mounted : gateway.registry.mountedName drive0 = some mount.filename := by
        rw [Registry.mountedName, there]
        rfl
      have inside : drive0 < numDrives := by
        by_contra past
        rw [gateway.registry.table.bounded drive0 (by omega)] at there
        cases there
      have both := And.intro inside (names.mounted drive0 _ mounted)
      refine ⟨⟨?_, Registry.recorded_holds both names.lent, names.unrestored⟩, ?_⟩
      · intro other name also
        simp only [Registry.mountedName, Table.take] at also
        split_ifs at also
        · cases also
        · exact names.mounted other name also
      · intro entry member
        rcases List.mem_append.mp member with before | new
        · exact taken entry before
        · cases List.mem_singleton.mp new
          exact both
  | booted images => exact ⟨⟨names.mounted, names.lent, names.unrestored⟩, taken⟩
  | handBack folder entry =>
    simp only [Gateway.step]
    split_ifs with member
    · exact ⟨names.handBack folder (taken entry member),
        fun other left => taken other (List.mem_of_mem_erase left)⟩
    · exact ⟨names, taken⟩
  | endLoan entry =>
    simp only [Gateway.step]
    split_ifs with member
    · refine ⟨⟨names.mounted, ?_, names.unrestored⟩, taken⟩
      intro other name also
      simp only [Registry.endBootLoan, without] at also
      split_ifs at also
      exact names.lent other name also
    · exact ⟨names, taken⟩
  | sessions uses => exact ⟨⟨names.mounted, names.lent, names.unrestored⟩, taken⟩
  | configure enabled mounts =>
    simp only [Gateway.step, Registry.configure]
    split_ifs
    · exact ⟨⟨names.clearAll.mounted, names.clearAll.lent, names.clearAll.unrestored⟩, taken⟩
    · exact ⟨⟨names.mounted, names.lent, names.unrestored⟩, taken⟩

/-- A run keeps a property of the names that every image mounted in it has. -/
theorem Holds.run {holds : Text → Prop} (events : List Event) {gateway : Gateway}
    (held : gateway.Holds holds) (good : ∀ folder drive0 filename,
      Event.mount folder drive0 filename ∈ events → isSafeImageName filename = true →
        holds filename) : (gateway.run events).Holds holds := by
  induction events generalizing gateway with
  | nil => exact held
  | cons event events ih =>
    refine ih (held.step event fun folder drive0 filename same safe =>
      good folder drive0 filename (same ▸ List.mem_cons_self) safe) ?_
    exact fun folder drive0 filename member safe =>
      good folder drive0 filename (List.mem_cons_of_mem _ member) safe

/-- The gateway starts with no names. -/
theorem started_holds (enabled : Bool) (mounts : Text) (holds : Text → Prop) :
    (started enabled mounts).Holds holds :=
  ⟨⟨fun _ _ held => (nomatch held), fun _ _ held => (nomatch held),
    fun _ _ held => (nomatch held)⟩, fun _ member => absurd member List.not_mem_nil⟩

/-- The saved drive list of any run means the drives exactly when every name in it is plain, and
it does in every state of a run that mounts images with plain names only. -/
theorem saved_means_drives_iff (enabled : Bool) (mounts : Text) (events : List Event)
    (on : ((started enabled mounts).run events).registry.cpmEmuEnabled = true) :
    (parseMounts ((started enabled mounts).run events).registry.currentMountsValue =
        ((started enabled mounts).run events).registry.imagePairs ↔
      ∀ drive0 name, ((started enabled mounts).run events).registry.imageOf drive0 = some name →
        Plain name) ∧
    ((∀ folder drive0 filename, Event.mount folder drive0 filename ∈ events → Plain filename) →
      parseMounts ((started enabled mounts).run events).registry.currentMountsValue =
        ((started enabled mounts).run events).registry.imagePairs) := by
  have safe := Holds.run events
    (started_holds enabled mounts fun name => isSafeImageName name = true)
    (fun _ _ _ _ safe => safe)
  have meaning := safe.names.parseMounts_iff on
  refine ⟨meaning, fun plain => meaning.mpr fun drive0 name image => ?_⟩
  have names := Holds.run events (started_holds enabled mounts Plain)
    (fun folder drive0 filename member _ => plain folder drive0 filename member)
  exact names.names.imageOf image

/-- A run that mounts one blank disk on drive A:. -/
def oneDisk (name : Text) : Gateway :=
  (started true []).run [.mount (blankDisks [name]) 0 name]

/-- A safe name with the token of the format is on drive A: afterwards, and the emulator on. -/
theorem oneDisk_mounted {name : Text} (safe : isSafeImageName name = true)
    (named : tokenOf (String.ofList name) = some "ibm3740") :
    (oneDisk name).registry.imageOf 0 = some name ∧
      (oneDisk name).registry.cpmEmuEnabled = true := by
  have quiet : (started true []).registry.Quiet :=
    ⟨fun _ => rfl, fun _ => rfl, fun drive0 => by
      simp [Registry.usageOf, started, Registry.describeUsage]⟩
  have available : (blankDisks [name]).Available name :=
    blankDisks_available List.mem_cons_self named
  obtain ⟨note, after, ran⟩ := (quiet.mountImage_ok_iff (by decide : 0 < numDrives)
    available).mpr ⟨rfl, safe, List.not_mem_nil, by
      intro _ _ held
      cases held⟩
  have mounts := (Registry.mountImage_mounts ran).1
  have stepped : (oneDisk name).registry = after := by
    simp only [oneDisk, run, List.foldl_cons, List.foldl_nil, step, ran]
  rw [stepped]
  refine ⟨?_, mounts.frame.2.2.2.1⟩
  rw [Registry.imageOf, mounts.here]
  rfl

/-- The theorem at work: a disk with a plain name comes back. -/
theorem saved_means_drives_one_disk :
    parseMounts (oneDisk "ibm3740_a.dsk".toList).registry.currentMountsValue =
      (oneDisk "ibm3740_a.dsk".toList).registry.imagePairs := by
  refine (saved_means_drives_iff true [] _
    (oneDisk_mounted (by decide) (by decide +kernel)).2).2 ?_
  intro folder drive0 filename member
  cases List.mem_singleton.mp member
  decide

/-- Not every saved list means its drives: an image with a comma in its name is mounted and its
drive is not read back. -/
theorem saved_comma_lost :
    ¬ ∀ (enabled : Bool) (mounts : Text) (events : List Event),
      ((started enabled mounts).run events).registry.cpmEmuEnabled = true →
      parseMounts ((started enabled mounts).run events).registry.currentMountsValue =
        ((started enabled mounts).run events).registry.imagePairs := by
  intro every
  obtain ⟨image, on⟩ := @oneDisk_mounted "ibm3740_a,b.dsk".toList (by decide) (by decide +kernel)
  have same := every true [] _ on
  have listed : (0, "ibm3740_a,b.dsk".toList) ∈
      (oneDisk "ibm3740_a,b.dsk".toList).registry.imagePairs :=
    List.mem_filterMap.mpr ⟨0, List.mem_range.mpr (by decide), by rw [image]; rfl⟩
  have plain := parseMounts_plain _ (0, "ibm3740_a,b.dsk".toList) (same ▸ listed)
  exact plain.1 (by decide)

end Gateway

end EthernetGateway.Image
