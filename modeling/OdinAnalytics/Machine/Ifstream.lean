import OdinAnalytics.Machine.Bytes

/-!
# Input files

A `std::ifstream` on a file, read in blocks without looking at the outcome. A read that
finds less than it asks for leaves zeros in the rest of a zeroed buffer and sets the
failbit, and from then on nothing is read or sought any more. So a run of reads sees the
file as if zeros followed it.

## Key results

- `run_read`, `run_seekg`: what a read and a seek do
- `advance_advance`, `bytes_advance`: two reads in a row
-/

namespace Machine

/-- What the system decides: which offsets of a file of a given size can be sought, and what
    is thrown if a block of memory cannot be had. -/
structure Platform where
  seeks (size off : Nat) : Bool
  memory (size : Nat) : Option Exn
  seeks_of_le : ∀ size off, off ≤ size → off < 9223372036854775808 → seeks size off = true
  /-- A `std::streamoff` is signed. -/
  not_seeks : ∀ size off, 9223372036854775808 ≤ off → seeks size off = false
  not_memory : ∀ size, 9223372036854775808 ≤ size → memory size ≠ none

/-- An open file, with what follows the position, or with the failbit set. -/
structure Ifstream where
  contents : Bytes
  rest : Option Bytes

/-- Code that reads from a file. -/
abbrev Reader (α : Type) := StateT Ifstream Exec α

/-- The first bytes, with zeros behind the last one. -/
def zeroFilled (b : Bytes) (n : Nat) : Bytes := (b.take n).rightpad n 0

namespace Ifstream

/-- A file that has just been opened. -/
def opened (contents : Bytes) : Ifstream := ⟨contents, some contents⟩

/-- What can still be read. -/
def bytes (s : Ifstream) : Bytes := s.rest.getD []

/-- The file after a number of bytes are read. -/
def advance (s : Ifstream) (n : Nat) : Ifstream :=
  { s with rest := s.rest.bind fun b => if n ≤ b.length then some (b.drop n) else none }

/-- `std::istream::good`. -/
def good (s : Ifstream) : Bool := s.rest.isSome

/-- The file after a seek. -/
def seek (plat : Platform) (s : Ifstream) (off : Nat) : Ifstream :=
  { s with rest := s.rest.bind fun _ =>
      if plat.seeks s.contents.length off then some (s.contents.drop off) else none }

end Ifstream

/-- `std::istream::read` into a zeroed buffer. -/
def read (n : Nat) : Reader Bytes := fun s => .ok (zeroFilled s.bytes n, s.advance n)

/-- `std::istream::seekg`. -/
def seekg (plat : Platform) (off : Nat) : Reader Unit := fun s => .ok ((), s.seek plat off)

/-- A container of zeros. -/
def allocate (plat : Platform) (size : Nat) : Exec Unit :=
  match plat.memory size with
  | none => .ok ()
  | some e => .error (.throws e)

/-- A number in the file, with its least significant byte first. -/
def littleEndian (b : Bytes) : Nat := b.foldr (fun c n => c.toNat + 256 * n) 0

/-- An unsigned number of so many bytes. -/
def readNat (n : Nat) : Reader Nat := do return littleEndian (← read n)

/-! ## Runs -/

section Runs

variable {s : Ifstream} {plat : Platform}

/-- Filling goes up to the size asked for. -/
theorem length_zeroFilled (b : Bytes) (n : Nat) : (zeroFilled b n).length = n := by
  rw [zeroFilled, List.rightpad, List.length_append, List.length_replicate, List.length_take]
  omega

/-- Where there are enough bytes, none are filled in. -/
theorem zeroFilled_eq_take {b : Bytes} {n : Nat} (h : n ≤ b.length) :
    zeroFilled b n = b.take n := by
  rw [zeroFilled, List.rightpad, List.length_take, Nat.min_eq_left h, Nat.sub_self,
    List.replicate_zero, List.append_nil]

/-- Where there are no bytes, all are filled in. -/
theorem zeroFilled_nil (n : Nat) : zeroFilled [] n = List.replicate n 0 := by
  simp [zeroFilled, List.rightpad]

/-- Reading gives the bytes that there are, filled up, and advances. -/
@[simp] theorem run_read (n : Nat) :
    (read n).run s = .ok (zeroFilled s.bytes n, s.advance n) := rfl

/-- Seeking returns nothing and moves the stream. -/
@[simp] theorem run_seekg (off : Nat) : (seekg plat off).run s = .ok ((), s.seek plat off) := rfl

/-- Reading a number advances by its size. -/
@[simp] theorem run_readNat (n : Nat) :
    (readNat n).run s = .ok (littleEndian (zeroFilled s.bytes n), s.advance n) := rfl

/-- A size that there is memory for is allocated. -/
theorem allocate_eq_ok {size : Nat} (h : plat.memory size = none) :
    allocate plat size = .ok () := by
  rw [allocate, h]

/-- An allocation throws what the platform says. -/
theorem allocate_eq_error {size : Nat} {e : Exn} (h : plat.memory size = some e) :
    allocate plat size = .error (.throws e) := by
  rw [allocate, h]

@[simp] theorem lift_run_bind {α β : Type} (x : Exec α) (k : α × Ifstream → Exec β) :
    ((liftM x : Reader α).run s >>= k) = x >>= fun a => k (a, s) := by
  cases x with
  | ok a => rfl
  | error f => rfl

/-- The first of several reads returns. -/
theorem run_mapM_cons {α β : Type} {f : α → Reader β} {a : α} {as : List α} {b : β}
    {s' : Ifstream} (h : (f a).run s = .ok (b, s')) :
    ((a :: as).mapM f).run s = (as.mapM f).run s' >>= fun p => .ok (b :: p.1, p.2) := by
  rw [List.mapM_cons, StateT.run_bind, h, ok_bind, StateT.run_bind]
  rfl

/-- What fails on the first element fails. -/
theorem run_mapM_cons_error {α β : Type} {f : α → Reader β} {a : α} {as : List α} {e : Fault}
    (h : (f a).run s = .error e) : ((a :: as).mapM f).run s = .error e := by
  rw [List.mapM_cons, StateT.run_bind, h, error_bind]

@[simp] theorem contents_advance (n : Nat) : (s.advance n).contents = s.contents := rfl

@[simp] theorem contents_seek (off : Nat) : (s.seek plat off).contents = s.contents := rfl

/-- Nothing is read by reading no bytes. -/
@[simp] theorem advance_zero : s.advance 0 = s := by
  cases s with
  | mk contents rest => cases rest <;> rfl

/-- What is left after reading. -/
@[simp] theorem bytes_advance (n : Nat) : (s.advance n).bytes = s.bytes.drop n := by
  unfold Ifstream.advance Ifstream.bytes
  cases s.rest with
  | none => simp
  | some b =>
    simp only [Option.bind_some, Option.getD_some]
    split
    · rfl
    · exact (List.drop_eq_nil_of_le (by omega)).symm

/-- Two reads in a row advance by the sum. -/
@[simp] theorem advance_advance (m n : Nat) : (s.advance m).advance n = s.advance (m + n) := by
  unfold Ifstream.advance
  cases s.rest with
  | none => rfl
  | some b =>
    simp only [Option.bind_some]
    -- a read past the end fails the stream, and so does any read after it
    split
    · simp only [Option.bind_some, List.length_drop, List.drop_drop]
      grind
    · rw [if_neg (by omega)]
      rfl

/-- A read leaves a good file behind if it finds all it asks for. -/
theorem good_advance (n : Nat) : (s.advance n).good = (s.good && n ≤ s.bytes.length) := by
  unfold Ifstream.advance Ifstream.good Ifstream.bytes
  cases s.rest with
  | none => rfl
  | some b =>
    simp only [Option.bind_some, Option.getD_some]
    split <;> simp [*]

/-- A stream stays good exactly if the platform can seek there. -/
theorem good_seek (off : Nat) :
    (s.seek plat off).good = (s.good && plat.seeks s.contents.length off) := by
  unfold Ifstream.seek Ifstream.good
  cases s.rest with
  | none => rfl
  | some b =>
    simp only [Option.bind_some]
    split <;> simp [*]

/-- What is found after a seek. -/
theorem bytes_seek (off : Nat) : (s.seek plat off).bytes =
    if s.good ∧ plat.seeks s.contents.length off then s.contents.drop off else [] := by
  unfold Ifstream.seek Ifstream.good Ifstream.bytes
  cases s.rest with
  | none => simp
  | some b =>
    simp only [Option.bind_some]
    split <;> simp [*]

end Runs

end Machine
