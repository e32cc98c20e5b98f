import EthernetGateway.Image.Mount

/-!
# Identifying an image

A filename may name the format outright. Otherwise the size proposes formats, the directory
each of them would see decides, and a directory that holds together as a whole makes the image
writable. That judgement and the one a mount makes are two functions over the same raw
entries; they agree except on map bytes past the slots a format uses.
-/

namespace EthernetGateway.Image

/-- `token_of`: the text before the first underscore, where there is one. -/
def tokenOf (filename : String) : Option String :=
  let token := filename.toList.takeWhile (· ≠ '_')
  if token.isEmpty || !token.all Char.isAlphanum then none
  else if token.length = filename.toList.length then none
  else some (String.ofList token)

/-- `by_token`: the format of a token, whatever its case. -/
def byToken (token : String) : Option Format :=
  formats.find? fun fmt => fmt.token.toLower == token.toLower

/-- `Confidence`: how a format was arrived at. -/
inductive Confidence where
  /-- The filename named the format. -/
  | named
  /-- The size names the format and the whole directory holds together. -/
  | verified
  /-- The size names a format and the directory does not hold together. -/
  | sniffed
  deriving DecidableEq

/-- `Identified`: a successful identification. -/
structure Identified where
  /-- The format. -/
  format : Format
  /-- How it was arrived at. -/
  confidence : Confidence
  /-- Why the filesystem check refused, when it did. -/
  why : Option String
  deriving DecidableEq

/-- `Unknown`: why an image could not be identified. -/
inductive Unknown where
  /-- The filename named a format that is not in the table. -/
  | noSuchFormat (token : String)
  /-- The named format does not fit a file of this size. -/
  | wrongSize (token : String) (expected actual : Nat)
  /-- Nothing in the table has this size. -/
  | noMatchingFormat (size : Nat)
  /-- The size matched and no directory was found. -/
  | noDirectory (candidates : List String)
  /-- More than one format fits. -/
  | ambiguous (candidates : List String)
  deriving DecidableEq

/-- The entries in directory records, in order. -/
def recordEntries (dir : List Record) : List RawEntry :=
  dir.flatMap fun record => (List.finRange 4).map (takeEntry record)

/-- The loop of `looks_like_directory`: how many live entries, or that one is impossible. -/
def countLive : List RawEntry → Nat → Option Nat
  | [], live => some live
  | e :: entries, live =>
    if e.isFree then countLive entries live
    else if e.user > 15 then countLive entries live
    else if ¬ PrintableName e.name e.ext then none
    else if e.rc > 128 then none
    else countLive entries (live + 1)

/-- `looks_like_directory`: do the four entries of a record look like a directory? -/
def looksLikeDirectory (record : Record) : Bool :=
  match countLive ((List.finRange 4).map (takeEntry record)) 0 with
  | some live => decide (live > 0)
  | none => false

/-- `is_erased_directory`. -/
def isErasedDirectory (dir : List Record) : Bool :=
  !dir.isEmpty && dir.all fun record => decide (∀ i, record i = fill)

/-- The block loop of `directory_is_consistent`. -/
def claimAll (params : Params) : List Nat → List Nat → Except String (List Nat)
  | [], claimed => .ok claimed
  | block :: blocks, claimed =>
    if block > params.maxBlock then .error "an allocation block off the end of the disk"
    else if block < params.dirBlocks then .error "an allocation block inside the directory"
    else if block ∈ claimed then .error "two directory entries claiming one block"
    else claimAll params blocks (block :: claimed)

/-- What `directory_is_consistent` keeps while it goes through the entries. -/
structure Tally where
  /-- Blocks claimed so far. -/
  claimed : List Nat
  /-- File entries so far. -/
  live : Nat
  /-- Entries no search would match so far. -/
  other : Nat

/-- The blocks the whole map of an entry names, whatever the slots the format uses. -/
def RawEntry.mapped (raw : RawEntry) (params : Params) : List Nat :=
  (mapNumbers params raw.map).filter (· ≠ 0)

/-- Blocks a record count needs. -/
def Params.blocksFor (params : Params) (records : Nat) : Nat :=
  (records + params.recordsPerBlock - 1) / params.recordsPerBlock

/-- One round of the loop of `directory_is_consistent`. -/
def judgeEntry (params : Params) (e : RawEntry) (tally : Tally) : Except String Tally :=
  if e.isFree then .ok tally
  else if e.user = 0x20 ∨ e.user = 0x21 then .ok { tally with other := tally.other + 1 }
  else if e.user > 15 then .ok { tally with other := tally.other + 1 }
  else if ¬ PrintableName e.name e.ext then .error "a filename that is not printable 8.3"
  else if e.rc > 128 then .error "a record count too large for one extent"
  else
    let used := e.mapped params
    match claimAll params used tally.claimed with
    | .error why => .error why
    | .ok claimed =>
      if params.blocksFor e.rc.toNat > used.length then
        .error "an extent claiming fewer blocks than its records need"
      else .ok { tally with claimed, live := tally.live + 1 }

/-- The loop of `directory_is_consistent`. -/
def judge (params : Params) : List RawEntry → Tally → Except String Tally
  | [], tally => .ok tally
  | e :: entries, tally =>
    match judgeEntry params e tally with
    | .error why => .error why
    | .ok tally => judge params entries tally

/-- `directory_is_consistent`. -/
def directoryIsConsistent (dir : List Record) (fmt : Format) : Except String Unit :=
  match judge (Params.derive fmt) (recordEntries dir) ⟨[], 0, 0⟩ with
  | .error why => .error why
  | .ok tally =>
    if tally.live = 0 ∧ tally.other > 0 then
      .error "no CP/M file entries, only records CP/M would never match"
    else .ok ()

/-- The candidates of `identify` whose directory is one, each with its judgement. -/
def matching (directory : Format → Option (List Record)) (candidates : List Format) :
    List (Format × Except String Unit) :=
  candidates.filterMap fun fmt =>
    match directory fmt with
    | none => none
    | some [] => none
    | some (first :: rest) =>
      if ¬ looksLikeDirectory first ∧ ¬ isErasedDirectory (first :: rest) then none
      else some (fmt, directoryIsConsistent (first :: rest) fmt)

/-- The formats whose size window holds a size. -/
def bySize (size : Nat) : List Format :=
  formats.filter fun fmt =>
    fmt.exactSize.any fun exact => decide (exact ≤ size ∧ size ≤ fmt.maxBytes)

/-- `identify`: the format of an image from its name, its size and the directory each
candidate format would see. -/
def identify (filename : String) (size : Nat) (directory : Format → Option (List Record)) :
    Except Unknown Identified :=
  let named := (tokenOf filename).map fun token => (token, byToken token)
  match named with
  | some (_, some fmt) =>
    let need := fmt.minBytes
    if size < need ∨ size > fmt.maxBytes then .error (.wrongSize fmt.token need size)
    else .ok ⟨fmt, .named, none⟩
  | _ =>
    let unknownToken : Option Unknown := named.map fun (token, _) => .noSuchFormat token
    if (bySize size).isEmpty then .error (unknownToken.getD (.noMatchingFormat size))
    else
      match matching directory (bySize size) with
      | [] => .error (unknownToken.getD (.noDirectory ((bySize size).map Format.token)))
      | [(fmt, .ok ())] => .ok ⟨fmt, .verified, none⟩
      | [(fmt, .error why)] => .ok ⟨fmt, .sniffed, some why⟩
      | several => .error (.ambiguous (several.map fun found => found.1.token))

/-! ## What the judgement accepts -/

/-- An entry the judgement treats as a file. -/
def RawEntry.Judged (raw : RawEntry) : Prop := raw.isFree = false ∧ raw.user ≤ 15

instance (raw : RawEntry) : Decidable raw.Judged := by unfold RawEntry.Judged; infer_instance

/-- A file entry the judgement has nothing against, other entries apart. -/
structure RawEntry.Fair (raw : RawEntry) (params : Params) : Prop where
  /-- Its name is printable. -/
  name : PrintableName raw.name raw.ext
  /-- Its record count fits an extent. -/
  count : raw.rc.toNat ≤ 128
  /-- Its blocks lie on the disk and outside the directory. -/
  bounded : ∀ block ∈ raw.mapped params, params.dirBlocks ≤ block ∧ block ≤ params.maxBlock
  /-- It names the blocks its records need. -/
  covered : params.blocksFor raw.rc.toNat ≤ (raw.mapped params).length

/-- The blocks the file entries of a list name. -/
def mappedBy (params : Params) (entries : List RawEntry) : List Nat :=
  (entries.filter fun raw => decide raw.Judged).flatMap fun raw => raw.mapped params

/-- Claiming blocks succeeds exactly when they are new, distinct and on the disk. -/
theorem claimAll_ok_iff (params : Params) (blocks claimed after : List Nat) :
    claimAll params blocks claimed = .ok after ↔
      after = blocks.reverse ++ claimed ∧ blocks.Nodup ∧
        ∀ block ∈ blocks, params.dirBlocks ≤ block ∧ block ≤ params.maxBlock ∧
          block ∉ claimed := by
  induction blocks generalizing claimed with
  | nil => simp [claimAll, eq_comm]
  | cons block blocks ih =>
    rw [claimAll]
    by_cases past : block > params.maxBlock
    · simp only [past, ↓reduceIte, reduceCtorEq, List.mem_cons, forall_eq_or_imp, false_iff]
      omega
    by_cases low : block < params.dirBlocks
    · simp only [past, low, ↓reduceIte, reduceCtorEq, List.mem_cons, forall_eq_or_imp, false_iff]
      omega
    by_cases taken : block ∈ claimed
    · simp [past, low, taken]
    rw [if_neg past, if_neg low, if_neg taken, ih]
    have bounds : params.dirBlocks ≤ block ∧ block ≤ params.maxBlock := by omega
    simp only [List.reverse_cons, List.append_assoc, List.singleton_append, List.nodup_cons,
      List.mem_cons, not_or, forall_eq_or_imp, bounds, taken, not_false_eq_true, true_and]
    constructor
    · rintro ⟨rfl, distinct, each⟩
      exact ⟨rfl, ⟨fun member => (each block member).2.2.1 rfl, distinct⟩, fun other member =>
        ⟨(each other member).1, (each other member).2.1, (each other member).2.2.2⟩⟩
    · rintro ⟨rfl, ⟨new, distinct⟩, each⟩
      exact ⟨rfl, distinct, fun other member => ⟨(each other member).1, (each other member).2.1,
        fun same => new (same ▸ member), (each other member).2.2⟩⟩

/-- One entry passes exactly when it is no file entry, or a fair one with new blocks. -/
theorem judgeEntry_ok_iff (params : Params) (e : RawEntry) (tally after : Tally) :
    judgeEntry params e tally = .ok after ↔
      (e.Judged → e.Fair params ∧ (e.mapped params).Nodup ∧
        (∀ block ∈ e.mapped params, block ∉ tally.claimed) ∧
        after = ⟨(e.mapped params).reverse ++ tally.claimed, tally.live + 1, tally.other⟩) ∧
      (¬ e.Judged → after =
        if e.isFree then tally else { tally with other := tally.other + 1 }) := by
  unfold judgeEntry RawEntry.Judged
  cases free : e.isFree with
  | true => simp [eq_comm]
  | false =>
    simp only [Bool.false_eq_true, ↓reduceIte, true_and]
    by_cases high : e.user ≤ 15
    · have labels : ¬ (e.user = 0x20 ∨ e.user = 0x21) := by
        rintro (same | same) <;> rw [same] at high <;> revert high <;> decide
      rw [if_neg labels, if_neg (UInt8.not_lt.mpr high)]
      simp only [high, forall_const, not_true_eq_false, IsEmpty.forall_iff, and_true]
      by_cases name : PrintableName e.name e.ext
      · rw [if_neg (not_not.mpr name)]
        by_cases count : e.rc > 128
        · rw [if_pos count]
          simp only [reduceCtorEq, false_iff]
          intro held
          have bound := held.1.count
          rw [gt_iff_lt, UInt8.lt_iff_toNat_lt] at count
          exact absurd bound (Nat.not_le.mpr count)
        · have small : e.rc.toNat ≤ 128 := by
            rw [gt_iff_lt, UInt8.not_lt, UInt8.le_iff_toNat_le] at count
            exact count
          rw [if_neg count]
          cases ran : claimAll params (e.mapped params) tally.claimed with
          | error why =>
            simp only [reduceCtorEq, false_iff]
            rintro ⟨fair, distinct, fresh, _⟩
            have ok := (claimAll_ok_iff params (e.mapped params) tally.claimed _).mpr
              ⟨rfl, distinct, fun block member =>
                ⟨(fair.bounded block member).1, (fair.bounded block member).2, fresh block member⟩⟩
            rw [ran] at ok
            cases ok
          | ok claimed =>
            obtain ⟨rfl, distinct, each⟩ := (claimAll_ok_iff _ _ _ _).mp ran
            simp only [gt_iff_lt]
            by_cases short : (e.mapped params).length < params.blocksFor e.rc.toNat
            · rw [if_pos short]
              simp only [reduceCtorEq, false_iff]
              exact fun held => absurd held.1.covered (Nat.not_le.mpr short)
            · rw [if_neg short]
              simp only [Except.ok.injEq]
              constructor
              · rintro rfl
                exact ⟨⟨name, small, fun block member =>
                  ⟨(each block member).1, (each block member).2.1⟩, Nat.not_lt.mp short⟩, distinct,
                  fun block member => (each block member).2.2, rfl⟩
              · rintro ⟨_, _, _, rfl⟩
                rfl
      · rw [if_pos name]
        simp only [reduceCtorEq, false_iff]
        exact fun held => name held.1.name
    · have above : e.user > 15 := UInt8.not_le.mp high
      simp only [above, ↓reduceIte, ite_self, high, IsEmpty.forall_iff, not_false_eq_true,
        forall_const, true_and, Except.ok.injEq]
      exact eq_comm

/-- An entry in use that no search would match. -/
def RawEntry.Unmatched (raw : RawEntry) : Prop := raw.isFree = false ∧ 15 < raw.user

instance (raw : RawEntry) : Decidable raw.Unmatched := by
  unfold RawEntry.Unmatched; infer_instance

/-- A list of entries passes exactly when every file entry is fair and no block is claimed
twice; the tally counts the entries seen. -/
theorem judge_ok_iff (params : Params) (entries : List RawEntry) (tally after : Tally) :
    judge params entries tally = .ok after ↔
      (∀ e ∈ entries, e.Judged → e.Fair params) ∧ (mappedBy params entries).Nodup ∧
      (∀ block ∈ mappedBy params entries, block ∉ tally.claimed) ∧
      after = ⟨(mappedBy params entries).reverse ++ tally.claimed,
        tally.live + entries.countP (fun e => decide e.Judged),
        tally.other + entries.countP (fun e => decide e.Unmatched)⟩ := by
  induction entries generalizing tally with
  | nil => simp [judge, mappedBy, eq_comm]
  | cons e entries ih =>
    have step (middle : Tally) := judgeEntry_ok_iff params e tally middle
    rw [judge]
    by_cases judged : e.Judged
    · have matched : ¬ e.Unmatched := fun unmatched =>
        absurd judged.2 (UInt8.not_le.mpr unmatched.2)
      have names : mappedBy params (e :: entries) = e.mapped params ++ mappedBy params entries := by
        simp [mappedBy, judged]
      rw [names]
      simp only [judged, not_true_eq_false, IsEmpty.forall_iff, and_true, forall_const] at step
      cases ran : judgeEntry params e tally with
      | error why =>
        simp only [reduceCtorEq, false_iff]
        rintro ⟨fair, distinct, fresh, _⟩
        have ok := (step _).mpr ⟨fair e List.mem_cons_self judged, (List.nodup_append.mp distinct).1,
          fun block member => fresh block (List.mem_append_left _ member), rfl⟩
        rw [ran] at ok
        cases ok
      | ok middle =>
        obtain ⟨fair, distinct, fresh, rfl⟩ := (step middle).mp ran
        rw [ih]
        simp only [List.mem_append, List.mem_reverse, not_or, List.mem_cons, forall_eq_or_imp,
          fair, implies_true, true_and, List.nodup_append, distinct, List.reverse_append,
          List.append_assoc, judged, decide_true, List.countP_cons_of_pos, matched, decide_false,
          Bool.false_eq_true, not_false_eq_true, List.countP_cons_of_neg, ne_eq]
        constructor
        · rintro ⟨all, once, new, rfl⟩
          exact ⟨all, ⟨once, fun block own other rest same =>
            (new other rest).1 (same ▸ own)⟩, fun block member => member.elim (fresh block)
              fun rest => (new block rest).2, by simp only [Nat.add_assoc, Nat.add_comm 1]⟩
        · rintro ⟨all, ⟨once, apart⟩, new, rfl⟩
          exact ⟨all, once, fun block rest => ⟨fun own => apart block own block rest rfl,
            new block (.inr rest)⟩, by simp only [Nat.add_assoc, Nat.add_comm 1]⟩
    · have names : mappedBy params (e :: entries) = mappedBy params entries := by
        simp [mappedBy, judged]
      rw [names]
      simp only [judged, IsEmpty.forall_iff, not_false_eq_true, forall_const, true_and] at step
      rw [(step _).mpr rfl, ih]
      cases free : e.isFree with
      | true =>
        have matched : ¬ e.Unmatched := fun unmatched => by
          rw [unmatched.1] at free
          cases free
        simp [judged, matched]
      | false =>
        have matched : e.Unmatched := ⟨free, UInt8.not_le.mp fun low => judged ⟨free, low⟩⟩
        simp [judged, matched, Nat.add_assoc, Nat.add_comm 1]

/-- What `directory_is_consistent` accepts. -/
structure Consistent (params : Params) (entries : List RawEntry) : Prop where
  /-- Every file entry is fair. -/
  fair : ∀ e ∈ entries, e.Judged → e.Fair params
  /-- No block is claimed twice. -/
  once : (mappedBy params entries).Nodup
  /-- Entries no search would match come with file entries. -/
  filed : (∃ e ∈ entries, e.Unmatched) → ∃ e ∈ entries, e.Judged

theorem directoryIsConsistent_ok_iff (dir : List Record) (fmt : Format) :
    directoryIsConsistent dir fmt = .ok () ↔ Consistent (Params.derive fmt) (recordEntries dir) := by
  have spec := judge_ok_iff (Params.derive fmt) (recordEntries dir) ⟨[], 0, 0⟩
  simp only [List.not_mem_nil, not_false_eq_true, implies_true, List.append_nil, Nat.zero_add,
    true_and] at spec
  rw [directoryIsConsistent]
  cases ran : judge (Params.derive fmt) (recordEntries dir) ⟨[], 0, 0⟩ with
  | error why =>
    simp only [reduceCtorEq, false_iff]
    intro held
    have ok := (spec _).mpr ⟨held.fair, held.once, rfl⟩
    rw [ran] at ok
    cases ok
  | ok tally =>
    obtain ⟨fair, once, rfl⟩ := (spec tally).mp ran
    have counts : ((recordEntries dir).countP (fun e => decide e.Judged) = 0 ∧
        (recordEntries dir).countP (fun e => decide e.Unmatched) > 0) ↔
        ¬ ((∃ e ∈ recordEntries dir, e.Unmatched) → ∃ e ∈ recordEntries dir, e.Judged) := by
      rw [List.countP_eq_zero, gt_iff_lt, List.countP_pos_iff]
      simp only [decide_eq_true_eq]
      push Not
      exact and_comm
    simp only [counts]
    by_cases filed : (∃ e ∈ recordEntries dir, e.Unmatched) → ∃ e ∈ recordEntries dir, e.Judged
    · rw [if_neg (not_not.mpr filed)]
      exact ⟨fun _ => ⟨fair, once, filed⟩, fun _ => rfl⟩
    · rw [if_pos filed]
      simp only [reduceCtorEq, false_iff]
      exact fun held => filed held.filed

/-! ## What an identification returns -/

/-- The exact size of a format is the size its geometry implies. -/
theorem exactSize_eq {fmt : Format} (listed : fmt ∈ formats) :
    fmt.exactSize = some fmt.minBytes := by
  revert fmt
  decide

/-- A format a size proposes is one of the table, and its image fits the size. -/
theorem bySize_fits {size : Nat} {fmt : Format} (proposed : fmt ∈ bySize size) :
    fmt ∈ formats ∧ fmt.minBytes ≤ size := by
  obtain ⟨listed, fits⟩ := List.mem_filter.mp proposed
  rw [exactSize_eq listed, Option.any_some] at fits
  exact ⟨listed, (of_decide_eq_true fits).1⟩

/-- The candidates with a directory are candidates. -/
theorem mem_of_mem_matching {directory : Format → Option (List Record)}
    {candidates : List Format} {fmt : Format} {verdict : Except String Unit}
    (found : (fmt, verdict) ∈ matching directory candidates) : fmt ∈ candidates := by
  obtain ⟨candidate, member, made⟩ := List.mem_filterMap.mp found
  split at made
  · cases made
  · cases made
  · split at made
    · cases made
    · cases made
      exact member

/-- An identified format is one of the table, and its image fits the size. -/
theorem identify_ok {filename : String} {size : Nat} {directory : Format → Option (List Record)}
    {found : Identified} (ran : identify filename size directory = .ok found) :
    found.format ∈ formats ∧ found.format.minBytes ≤ size := by
  have proposed : ∀ verdict, matching directory (bySize size) = [(found.format, verdict)] →
      found.format ∈ formats ∧ found.format.minBytes ≤ size := fun verdict one =>
    bySize_fits (mem_of_mem_matching (by rw [one]; exact List.mem_cons_self))
  simp only [identify] at ran
  split at ran
  · next token fmt named =>
    split at ran
    · cases ran
    · next fits =>
      cases ran
      show fmt ∈ formats ∧ fmt.minBytes ≤ size
      obtain ⟨chosen, _, same⟩ := Option.map_eq_some_iff.mp named
      have chose : byToken chosen = some fmt := congrArg Prod.snd same
      exact ⟨List.mem_of_find?_eq_some chose, by omega⟩
  · split at ran
    · cases ran
    · split at ran
      · cases ran
      · next fmt one =>
        cases ran
        exact proposed _ one
      · next fmt why one =>
        cases ran
        exact proposed _ one
      · cases ran

end EthernetGateway.Image
