import OdinAnalytics.Spec.ElfHeaders
import Mathlib.Data.Nat.Find

/-!
# Looking up sections by name

A lookup goes through the section headers up to the first one of the name it looks for.
It goes astray at a header whose name is not terminated inside of the table of names. A
header that the file ends in is still looked at, and nothing can be read after that.

## Key results

- `Directory.cases`: a name is found, missed, or the search for it goes astray
- `run_findHeader`: what the loop does in the three cases
- `run_elfSectionHeader`: a lookup in a file
-/

namespace OA.Config

open Machine

/-- The table of names, and the section headers with what follows them. -/
structure Directory where
  names : Bytes
  rows : Bytes
  count : Nat

namespace Directory

variable {dir : Directory} {name other : Bytes} {i j : Nat}

/-- A section header, with zeros for what is missing. -/
def entry (dir : Directory) (i : Nat) : Elf64Shdr := shdrAt (dir.rows.drop (64 * i))

/-- The name of a section header is terminated inside of the table. -/
def HasName (dir : Directory) (i : Nat) (name : Bytes) : Prop :=
  nameAt dir.names (dir.entry i).shName = .ok name

/-- All section headers before this one have other names. -/
def Reaches (dir : Directory) (name : Bytes) (i : Nat) : Prop :=
  i < dir.count ∧ ∀ j < i, ∃ other, dir.HasName j other ∧ other ≠ name

/-- The first section header of a name. -/
def Finds (dir : Directory) (name : Bytes) (i : Nat) : Prop :=
  dir.Reaches name i ∧ dir.HasName i name

/-- All section headers have other names. -/
def Misses (dir : Directory) (name : Bytes) : Prop :=
  ∀ j < dir.count, ∃ other, dir.HasName j other ∧ other ≠ name

/-- The search reaches a section header whose name is not terminated inside of the table. -/
def Strays (dir : Directory) (name : Bytes) : Prop :=
  ∃ i, dir.Reaches name i ∧ ∀ other, ¬ dir.HasName i other

/-- What a search returns. -/
def Gives (dir : Directory) (name : Bytes) (r : Option Elf64Shdr) : Prop :=
  (∃ i, dir.Finds name i ∧ r = some (dir.entry i)) ∨ (dir.Misses name ∧ r = none)

/-- Nothing is missing of the section headers that a search looks at. -/
def Complete (dir : Directory) (name : Bytes) : Prop :=
  (∃ i, dir.Finds name i ∧ 64 * (i + 1) ≤ dir.rows.length) ∨
    (dir.Misses name ∧ 64 * dir.count ≤ dir.rows.length)

/-- An entry has one name only. -/
theorem HasName.inj (h : dir.HasName i name) (h' : dir.HasName i other) : name = other :=
  Except.ok.inj (h.symm.trans h')

/-- The searches for a name stop at one place. -/
theorem Finds.eq (h : dir.Finds name i) (h' : dir.Finds name j) : i = j := by
  rcases lt_trichotomy i j with hlt | rfl | hlt
  · obtain ⟨other, hother, hne⟩ := h'.1.2 i hlt
    exact absurd (hother.inj h.2) hne
  · rfl
  · obtain ⟨other, hother, hne⟩ := h.1.2 j hlt
    exact absurd (hother.inj h'.2) hne

/-- What is found is not missed. -/
theorem Finds.not_misses (h : dir.Finds name i) : ¬ dir.Misses name := by
  intro hmiss
  obtain ⟨other, hother, hne⟩ := hmiss i h.1.1
  exact hne (hother.inj h.2)

/-- What is found is found before the names run out. -/
theorem Finds.not_strays (h : dir.Finds name i) : ¬ dir.Strays name := by
  rintro ⟨j, hreach, hnone⟩
  -- the search would have to stop before the name or go past it
  rcases lt_trichotomy i j with hlt | rfl | hlt
  · obtain ⟨other, hother, hne⟩ := hreach.2 i hlt
    exact hne (hother.inj h.2)
  · exact hnone name h.2
  · obtain ⟨other, hother, -⟩ := h.1.2 j hlt
    exact hnone other hother

/-- What is missed is missed before the names run out. -/
theorem Misses.not_strays (h : dir.Misses name) : ¬ dir.Strays name := by
  rintro ⟨j, hreach, hnone⟩
  obtain ⟨other, hother, -⟩ := h j hreach.1
  exact hnone other hother

/-- A lookup that finds the name reads up to its entry. -/
theorem Finds.complete_iff (h : dir.Finds name i) :
    dir.Complete name ↔ 64 * (i + 1) ≤ dir.rows.length := by
  constructor
  · rintro (⟨j, hj, hle⟩ | ⟨hmiss, -⟩)
    · rwa [h.eq hj]
    · exact absurd hmiss h.not_misses
  · exact fun hle => Or.inl ⟨i, h, hle⟩

/-- A lookup that misses the name reads all entries. -/
theorem Misses.complete_iff (h : dir.Misses name) :
    dir.Complete name ↔ 64 * dir.count ≤ dir.rows.length := by
  constructor
  · rintro (⟨j, hj, -⟩ | ⟨-, hle⟩)
    · exact absurd h hj.not_misses
    · exact hle
  · exact fun hle => Or.inr ⟨h, hle⟩

/-- A lookup finds the name, misses it, or runs out of the names. -/
theorem cases (dir : Directory) (name : Bytes) :
    (∃ i, dir.Finds name i) ∨ dir.Misses name ∨ dir.Strays name := by
  by_cases hmiss : dir.Misses name
  · exact Or.inr (Or.inl hmiss)
  · -- the first header that does not have another name
    have hstop : ∃ j, j < dir.count ∧ ¬ ∃ other, dir.HasName j other ∧ other ≠ name := by
      unfold Misses at hmiss
      push Not at hmiss ⊢
      exact hmiss
    classical
    obtain ⟨hlt, hnot⟩ := Nat.find_spec hstop
    have hreach : dir.Reaches name (Nat.find hstop) := by
      refine ⟨hlt, fun j hj => ?_⟩
      have hbefore := Nat.find_min hstop hj
      rw [not_and, not_not] at hbefore
      exact hbefore (hj.trans hlt)
    -- it has the name, or its name cannot be read
    by_cases hname : dir.HasName (Nat.find hstop) name
    · exact Or.inl ⟨_, hreach, hname⟩
    · refine Or.inr (Or.inr ⟨_, hreach, fun other hother => hnot ⟨other, hother, ?_⟩⟩)
      rintro rfl
      exact hname hother

end Directory

/-! ## The loop -/

section Loop

variable {s : Ifstream} {dir : Directory} {name : Bytes} {i : Nat}

/-- The loop at a section header. -/
theorem run_findHeader_succ (hrows : s.bytes = dir.rows) (n : Nat) :
    (findHeader dir.names name (n + 1)).run (s.advance (64 * i)) =
      nameAt dir.names (dir.entry i).shName >>= fun other =>
        if name = other then .ok (some (dir.entry i), s.advance (64 * (i + 1)))
        else (findHeader dir.names name n).run (s.advance (64 * (i + 1))) := by
  -- the stream stands at the `i`-th row of the table
  have hentry : shdrAt (s.advance (64 * i)).bytes = dir.entry i := by
    rw [bytes_advance, hrows]
    rfl
  rw [findHeader, StateT.run_bind, run_readShdr, ok_bind, hentry]
  simp only [StateT.run_bind, lift_run_bind, advance_advance, Nat.mul_succ]
  congr 1
  funext other
  split
  · rfl
  · rfl

/-- The search goes on behind headers of other names. -/
theorem run_findHeader_skip (hrows : s.bytes = dir.rows)
    (h : ∀ j < i, ∃ other, dir.HasName j other ∧ other ≠ name) (hi : i ≤ dir.count) :
    (findHeader dir.names name dir.count).run s =
      (findHeader dir.names name (dir.count - i)).run (s.advance (64 * i)) := by
  induction i with
  | zero => rw [Nat.mul_zero, advance_zero, Nat.sub_zero]
  | succ i ih =>
    obtain ⟨other, hother, hne⟩ := h i (Nat.lt_succ_self i)
    -- one header with another name, the rest by induction
    have hcount : dir.count - i = (dir.count - (i + 1)) + 1 := by omega
    rw [ih (fun j hj => h j (by omega)) (by omega), hcount, run_findHeader_succ hrows, hother,
      ok_bind, if_neg hne.symm]

/-- The search goes on up to an entry whose name it has to look at. -/
theorem run_findHeader_reaches (hrows : s.bytes = dir.rows) (h : dir.Reaches name i) :
    (findHeader dir.names name dir.count).run s =
      nameAt dir.names (dir.entry i).shName >>= fun other =>
        if name = other then .ok (some (dir.entry i), s.advance (64 * (i + 1)))
        else (findHeader dir.names name (dir.count - (i + 1))).run
          (s.advance (64 * (i + 1))) := by
  have hlt := h.1
  have hcount : dir.count - i = (dir.count - (i + 1)) + 1 := by omega
  rw [run_findHeader_skip hrows h.2 hlt.le, hcount, run_findHeader_succ hrows]

/-- The loop, unless it goes astray. -/
theorem run_findHeader (hrows : s.bytes = dir.rows) (h : ¬ dir.Strays name) :
    ∃ r s', (findHeader dir.names name dir.count).run s = .ok (r, s') ∧ dir.Gives name r ∧
      s'.contents = s.contents ∧ (s'.good = true ↔ s.good = true ∧ dir.Complete name) := by
  rcases dir.cases name with ⟨i, hfinds⟩ | hmiss | hstray
  · -- the headers up to the one that is found were read
    refine ⟨some (dir.entry i), s.advance (64 * (i + 1)), ?_, Or.inl ⟨i, hfinds, rfl⟩, rfl, ?_⟩
    · rw [run_findHeader_reaches hrows hfinds.1, hfinds.2, ok_bind, if_pos rfl]
    · rw [good_advance, hrows, hfinds.complete_iff, Bool.and_eq_true, decide_eq_true_iff]
  · -- all of the headers were read
    refine ⟨none, s.advance (64 * dir.count), ?_, Or.inr ⟨hmiss, rfl⟩, rfl, ?_⟩
    · rw [run_findHeader_skip hrows hmiss le_rfl, Nat.sub_self]
      rfl
    · rw [good_advance, hrows, hmiss.complete_iff, Bool.and_eq_true, decide_eq_true_iff]
  · exact absurd hstray h

/-- A search that runs out of the names reads past their end. -/
theorem run_findHeader_strays (hrows : s.bytes = dir.rows) (h : dir.Strays name) :
    (findHeader dir.names name dir.count).run s = .error (.undefined .indexOutOfRange) := by
  obtain ⟨i, hreach, hnone⟩ := h
  have hname : nameAt dir.names (dir.entry i).shName = .error (.undefined .indexOutOfRange) := by
    unfold Directory.HasName nameAt at hnone
    unfold nameAt
    split at hnone
    · exact absurd rfl (hnone _)
    · next hnot => rw [if_neg hnot]
  rw [run_findHeader_reaches hrows hreach, hname, error_bind]

end Loop

/-! ## Lookups in a file -/

/-- The file can be sought there, and so many bytes follow. -/
def Held (plat : Platform) (file : Bytes) (off n : Nat) : Prop :=
  plat.seeks file.length off = true ∧ n ≤ (file.drop off).length

instance (plat : Platform) (file : Bytes) (off n : Nat) : Decidable (Held plat file off n) := by
  unfold Held
  infer_instance

/-- The directory that is in a file. -/
def Directory.ofFile (file : Bytes) (ehdr : Elf64Ehdr) (nhdr : Elf64Shdr) : Directory where
  names := (file.drop nhdr.shOffset).take nhdr.shSize
  rows := file.drop ehdr.eShoff
  count := ehdr.eShnum

section File

variable (plat : Platform) (file : Bytes) (ehdr : Elf64Ehdr) (nhdr : Elf64Shdr)

/-- The table of names is in the file, and the section headers can be sought. -/
def Whole : Prop :=
  Held plat file nhdr.shOffset nhdr.shSize ∧ plat.seeks file.length ehdr.eShoff = true

instance : Decidable (Whole plat file ehdr nhdr) := by
  unfold Whole
  infer_instance

/-- The directory as it is read, with zeros for what is missing. -/
def Directory.asRead : Directory where
  names := zeroFilled
    (if plat.seeks file.length nhdr.shOffset then file.drop nhdr.shOffset else []) nhdr.shSize
  rows := if Whole plat file ehdr nhdr then file.drop ehdr.eShoff else []
  count := ehdr.eShnum

/-- A lookup gets through without missing anything in the file. -/
def Intact (name : Bytes) : Prop :=
  Whole plat file ehdr nhdr ∧ (Directory.asRead plat file ehdr nhdr).Complete name

end File

section Lookup

variable {plat : Platform} {file : Bytes} {ehdr : Elf64Ehdr} {nhdr : Elf64Shdr} {s : Ifstream}
  {name : Bytes}

/-- Where the file holds all of it, the directory is read as it is. -/
theorem asRead_of_whole (h : Whole plat file ehdr nhdr) :
    Directory.asRead plat file ehdr nhdr = .ofFile file ehdr nhdr := by
  unfold Directory.asRead Directory.ofFile
  rw [if_pos h.1.1, if_pos h, zeroFilled_eq_take h.1.2]

/-- The names are read, then the entries are searched. -/
theorem run_elfSectionHeader (plat : Platform) (ehdr : Elf64Ehdr) (nhdr : Elf64Shdr)
    (name : Bytes) (s : Ifstream) (hmemory : plat.memory nhdr.shSize = none) :
    (elfSectionHeader plat ehdr nhdr name).run s =
      (findHeader (zeroFilled (s.seek plat nhdr.shOffset).bytes nhdr.shSize) name
        ehdr.eShnum).run
          (((s.seek plat nhdr.shOffset).advance nhdr.shSize).seek plat ehdr.eShoff) := by
  unfold elfSectionHeader
  simp only [StateT.run_bind, lift_run_bind, allocate_eq_ok hmemory, ok_bind, run_seekg,
    run_read]

/-- What a lookup reads, in a file from which nothing is missing so far. -/
theorem asRead_eq (hgood : s.good = true) (hcontents : s.contents = file) :
    let rows := ((s.seek plat nhdr.shOffset).advance nhdr.shSize).seek plat ehdr.eShoff
    Directory.asRead plat file ehdr nhdr =
        ⟨zeroFilled (s.seek plat nhdr.shOffset).bytes nhdr.shSize, rows.bytes, ehdr.eShnum⟩ ∧
      (rows.good = true ↔ Whole plat file ehdr nhdr) ∧ rows.contents = file := by
  intro rows
  -- the block of the names, and whether it was read whole
  have hnames : (s.seek plat nhdr.shOffset).bytes =
      if plat.seeks file.length nhdr.shOffset then file.drop nhdr.shOffset else [] := by
    simp [bytes_seek, hgood, hcontents]
  have htable : ((s.seek plat nhdr.shOffset).advance nhdr.shSize).good = true ↔
      Held plat file nhdr.shOffset nhdr.shSize := by
    rw [good_advance, good_seek, hnames, hgood, hcontents, Held]
    cases hseeks : plat.seeks file.length nhdr.shOffset with
    | true => simp
    | false => simp
  refine ⟨?_, ?_, hcontents⟩
  · unfold Directory.asRead
    simp [rows, hnames, bytes_seek, htable, hcontents, Whole]
  · simp [rows, good_seek, htable, hcontents, Whole]

/-- A lookup in such a file, unless it goes astray. -/
theorem lookup_good (hgood : s.good = true) (hcontents : s.contents = file)
    (hmemory : plat.memory nhdr.shSize = none)
    (h : ¬ (Directory.asRead plat file ehdr nhdr).Strays name) :
    ∃ r s', (elfSectionHeader plat ehdr nhdr name).run s = .ok (r, s') ∧
      (Directory.asRead plat file ehdr nhdr).Gives name r ∧ s'.contents = file ∧
      (s'.good = true ↔ Intact plat file ehdr nhdr name) := by
  obtain ⟨heq, hwhole, hrows⟩ := asRead_eq hgood hcontents
  rw [run_elfSectionHeader plat ehdr nhdr name s hmemory]
  unfold Intact
  rw [heq] at h ⊢
  rw [← hwhole, ← hrows]
  exact run_findHeader rfl h

/-- A lookup that runs out of the names is undefined. -/
theorem lookup_strays (hgood : s.good = true) (hcontents : s.contents = file)
    (hmemory : plat.memory nhdr.shSize = none)
    (h : (Directory.asRead plat file ehdr nhdr).Strays name) :
    (elfSectionHeader plat ehdr nhdr name).run s = .error (.undefined .indexOutOfRange) := by
  obtain ⟨heq, -, -⟩ := asRead_eq hgood hcontents
  rw [run_elfSectionHeader plat ehdr nhdr name s hmemory]
  rw [heq] at h
  exact run_findHeader_strays rfl h

/-! ## Lookups when nothing can be read any more -/

/-- Section headers of zeros, whose names are the first of an empty table or of zeros. -/
def Directory.lost (size count : Nat) : Directory := ⟨List.replicate size 0, [], count⟩

/-- The entries that a lost stream leaves have no name. -/
theorem Directory.shName_lost (size count i : Nat) :
    ((Directory.lost size count).entry i).shName = 0 := by
  rw [entry, lost, List.drop_nil]
  rfl

/-- No other name is found among them, while there are names to look at. -/
theorem Directory.misses_lost {size count : Nat} (hname : name ≠ [])
    (h : size ≠ 0 ∨ count = 0) : (Directory.lost size count).Misses name := by
  intro j hj
  have hj : j < count := hj
  refine ⟨[], ?_, hname.symm⟩
  rw [HasName, shName_lost, lost, nameAt, List.drop_zero, if_pos (by simp; omega)]
  cases size <;> simp [List.replicate_succ]

/-- Without any names to look at, the first look is past their end. -/
theorem Directory.strays_lost {count : Nat} (h : count ≠ 0) :
    (Directory.lost 0 count).Strays name := by
  refine ⟨0, ⟨Nat.pos_of_ne_zero h, fun j hj => absurd hj (Nat.not_lt_zero j)⟩, ?_⟩
  intro other hother
  rw [HasName, shName_lost] at hother
  cases hother

/-- What a lost stream leaves is searched all the same. -/
theorem run_elfSectionHeader_lost (hlost : s.good = false)
    (hmemory : plat.memory nhdr.shSize = none) :
    let dir := Directory.lost nhdr.shSize ehdr.eShnum
    ∃ s', s'.good = false ∧ s'.bytes = dir.rows ∧
      (elfSectionHeader plat ehdr nhdr name).run s =
        (findHeader dir.names name dir.count).run s' := by
  refine ⟨((s.seek plat nhdr.shOffset).advance nhdr.shSize).seek plat ehdr.eShoff, ?_, ?_, ?_⟩
  · simp [good_seek, good_advance, hlost]
  · simp [bytes_seek, good_seek, good_advance, hlost, Directory.lost]
  · rw [run_elfSectionHeader plat ehdr nhdr name s hmemory]
    simp [bytes_seek, hlost, zeroFilled_nil, Directory.lost]

end Lookup

end OA.Config
