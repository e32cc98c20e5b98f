import EthernetGateway.Transfer.ZmodemSend

/-!
# When a ZMODEM sender comes to an end

Every wait of a sender has a budget, and the ZACK of a subpacket clears the one of its data run. A
peer that has the position moved back after each ZACK therefore keeps the run going. A file of two
subpackets or fewer has no room for that: the subpacket after its ZACK is the last of the run.
-/

namespace EthernetGateway.Transfer.Zmodem

open EthernetGateway.Stepping

/-! ## What a step leads to -/

variable {batch : Batch} {sender later : Sender}

/-- A file that fits in two subpackets. -/
def SendFile.Short (batch : Batch) (file : SendFile) : Prop :=
  file.data.length ≤ 2 * batch.window.chunk

instance (batch : Batch) (file : SendFile) : Decidable (file.Short batch) :=
  inferInstanceAs (Decidable (_ ≤ _))

/-- What a data run has before it, with a budget of moves back. -/
def SendFile.stretch (batch : Batch) (budget : Nat) (file : SendFile) (pos : Nat) : Nat :=
  if file.Short batch then 0
  else budget * (file.data.length + 1) + (file.data.length - pos)

/-- The most a data run takes. -/
def runWork (retries most top : Nat) : Nat :=
  ((most * (top + 1) + top) * (retries + 1 + 1) + (retries + 1)) * (retries + 1 + 1) + (retries + 1)

/-- The most a file takes once it is asked for. -/
def sendWork (retries most top : Nat) : Nat :=
  (retries + 1) * (runWork retries most top + 1 + 1) + (runWork retries most top + 1)

/-- The most a file takes. -/
def offerWork (retries most top : Nat) : Nat :=
  sendWork retries most top + 1 + ((retries + 1) * (retries + 1 + 1) + (retries + 1)) + (retries + 1)

/-- The bytes of a batch. -/
def Batch.top (batch : Batch) : Nat := (batch.files.map fun file => file.data.length).sum

/-- What a wait still takes. -/
def Wait.work (batch : Batch) (most budget : Nat) (file : SendFile) : Wait → Nat
  | .zrpos zfileAttempts zrinitDrains zcrcAnswers =>
    sendWork batch.retries most batch.top + 1 +
      ((batch.retries + 1 - zfileAttempts) * (batch.retries + 1 + 1) +
        (batch.retries + 1 - zrinitDrains)) + (batch.retries + 1 - zcrcAnswers)
  | .zack pos zdataAttempts strayAcks zeofAttempts =>
    (batch.retries + 1 - zeofAttempts) * (runWork batch.retries most batch.top + 1 + 1) +
      ((file.stretch batch budget pos * (batch.retries + 1 + 1) +
        (batch.retries + 1 - zdataAttempts)) * (batch.retries + 1 + 1) +
          (batch.retries + 1 - strayAcks))
  | .zrinit zeofAttempts =>
    (batch.retries + 1 - zeofAttempts) * (runWork batch.retries most batch.top + 1 + 1) +
      (runWork batch.retries most batch.top + 1)

/-- What a sender still takes. -/
def Sender.work (batch : Batch) (most budget : Nat) (sender : Sender) : Nat :=
  sender.rest.length * (offerWork batch.retries most batch.top + 1) +
    sender.wait.work batch most budget sender.file

/-- The files a sender has to send are the batch's, and it waits for a ZACK only with more than a
window to go. -/
structure Sender.Sound (batch : Batch) (sender : Sender) : Prop where
  file : sender.file ∈ batch.files
  rest : ∀ file ∈ sender.rest, file ∈ batch.files
  inside : ∀ pos attempts strays zeofAttempts, sender.wait = .zack pos attempts strays zeofAttempts →
    pos + batch.window.chunk < sender.file.data.length

/-- A move back that a header asks of a data run: one of a file that is not short, to a position
before the one the run is at. -/
def Sender.back (batch : Batch) (sender : Sender) : HeaderReading → Nat
  | .got header =>
    match sender.wait, header.kind with
    | .zack pos _ _ _, .zrpos => if header.position < pos ∧ ¬ sender.file.Short batch then 1 else 0
    | _, _ => 0
  | _ => 0

variable {most top budget : Nat}

/-- A step that stays with its file goes down when its wait takes less. -/
def Lowers (batch : Batch) (most limit budget : Nat) (sender later : Sender) : Prop :=
  later.file = sender.file ∧ later.rest = sender.rest ∧
    (∀ pos attempts strays zeofAttempts, later.wait = .zack pos attempts strays zeofAttempts →
      pos + batch.window.chunk < sender.file.data.length) ∧
    later.wait.work batch most budget sender.file < limit

/-- What it comes to for the sender. -/
theorem Lowers.drops {before : Nat} (sound : sender.Sound batch)
    (lowers : Lowers batch most (sender.wait.work batch most before sender.file) budget
      sender later) :
    later.Sound batch ∧ later.work batch most budget < sender.work batch most before := by
  obtain ⟨file, rest, inside, less⟩ := lowers
  constructor
  · exact ⟨by rw [file]; exact sound.file, by rw [rest]; exact sound.rest, by rw [file]; exact inside⟩
  · unfold Sender.work
    rw [file, rest]
    exact Nat.add_lt_add_left less _

/-- A progress of a sender that has written no more than a number of things. -/
abbrev Writes (limit : Nat) : Progress Sender Report → Prop :=
  Grows (fun sender => sender.written.length) (fun report => report.written.length) limit

/-- More is enough as well. -/
theorem Writes.mono {limit more : Nat} {progress : Progress Sender Report}
    (writes : Writes limit progress) (le : limit ≤ more) : Writes more progress := by
  cases progress with
  | next later => exact Nat.le_trans writes le
  | returned report => exact Nat.le_trans writes le

/-- A hex header for a position. -/
def Header.at (frame : UInt8) (position : Nat) : Header :=
  { frame := frame
    data := #v[position.toUInt8, (position / 256).toUInt8, 0, 0]
    crcKind := .crc16 }

end EthernetGateway.Transfer.Zmodem
