import EthernetGateway.Medium

/-!
# The byte store under a mounted image

`Media` of the source is a length, bounds-checked reads and writes, and two flushes. Every
call that reaches the host file is one call of the medium and ends as its script says; an
access past the end is refused before it gets there.
-/

namespace EthernetGateway.Image

/-- `std::io::ErrorKind`, the kinds this code raises. -/
inductive ErrorKind where
  | invalidData
  | invalidInput
  | unexpectedEof
  | permissionDenied
  | notFound
  | alreadyExists
  | storageFull
  | other
  deriving DecidableEq

/-- `std::io::Error`. -/
structure IoError where
  /-- Kind. -/
  kind : ErrorKind
  /-- Message. -/
  message : String
  deriving DecidableEq

/-- A mounted image's byte store. -/
abbrev Media := Medium IoError

/-- A computation on the byte store. -/
abbrev MediaM (α : Type) := Fallible Media IoError α

/-- `out_of_range`. -/
def outOfRange (offset want length : Nat) : IoError :=
  ⟨.unexpectedEof,
    s!"disk image access at {offset}+{want} runs past the end ({length} bytes)"⟩

/-- `in_range`: does the range fit inside the store? -/
def inRange (offset want length : Nat) : Bool := decide (offset + want ≤ length)

/-- `Media::read_at`. -/
def readAt (offset size : Nat) : MediaM (Fin size → UInt8) := do
  let length ← Fallible.view Medium.length
  if inRange offset size length then
    Medium.perform .read
    Fallible.view fun media => fun i => media.contents (offset + i)
  else Fallible.fail (outOfRange offset size length)

/-- `Media::write_at`. -/
def writeAt (offset : Nat) {size : Nat} (data : Fin size → UInt8) : MediaM Unit := do
  let length ← Fallible.view Medium.length
  if inRange offset size length then Medium.perform (.write ⟨offset, size, data⟩)
  else Fallible.fail (outOfRange offset size length)

/-- `Media::flush`. -/
def flush : MediaM Unit := Medium.perform .flush

/-- `Media::sync`. -/
def sync : MediaM Unit := Medium.perform .flush

/-- A read inside the store is one call and returns the bytes held. -/
theorem readAt_plays (media : Media) (offset size : Nat) (inside : offset + size ≤ media.length) :
    Medium.Plays (readAt offset size) media [.read]
      (fun i => media.contents (offset + i)) := by
  have split : readAt offset size media = (Medium.perform .read >>= fun _ =>
      Fallible.view fun reached => fun i : Fin size => reached.contents (offset + i)) media := by
    simp only [readAt, Fallible.bind_run, Fallible.view_run, inRange, inside, decide_true,
      ↓reduceIte]
  rw [Medium.Plays, split]
  change _ = ((Medium.perform .read >>= fun _ => pure ()) >>= fun _ => pure _) media
  simp only [Fallible.bind_run, Medium.perform]
  cases media.outcomes media.calls <;> rfl

/-- A write inside the store is one call. -/
theorem writeAt_plays (media : Media) (offset : Nat) {size : Nat} (data : Fin size → UInt8)
    (inside : offset + size ≤ media.length) :
    Medium.Plays (writeAt offset data) media [.write ⟨offset, size, data⟩] () := by
  have split : writeAt offset data media =
      Medium.perform (.write ⟨offset, size, data⟩) media := by
    simp only [writeAt, Fallible.bind_run, Fallible.view_run, inRange, inside, decide_true,
      ↓reduceIte]
  rw [Medium.Plays, split]
  exact Medium.Plays.perform media _

/-- A flush is one call. -/
theorem flush_plays (media : Media) : Medium.Plays flush media [.flush] () :=
  Medium.Plays.perform media _

/-- A sync is one call. -/
theorem sync_plays (media : Media) : Medium.Plays sync media [.flush] () :=
  Medium.Plays.perform media _

end EthernetGateway.Image
