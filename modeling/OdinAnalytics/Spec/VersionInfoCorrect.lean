import OdinAnalytics.Spec.ElfLookup
import Mathlib.Data.List.Forall2

/-!
# Version info from any file

A file is rejected with an exception, or its version info is delivered as it is, unless
something goes wrong that is not noticed. The reads are not checked, so what the file
does not have any more counts as zeros: the lookups after that find nothing, and most
files that are cut off lack the version number then. What is not noticed is a search
that leaves the table of names, and the end of the file behind the last lookup of a
string.

## Key results

- `lookups_good`, `lookups_strays`: the lookups of the strings
- `run_readSections`: the sections that are found
- `delivers_iff`: when the constructor keeps what its class promises
-/

namespace OA.Config

open Machine

/-! ## The constructor in parts -/

/-- The sections of the strings. -/
def textNames : List Bytes := [bytes "oa.company", bytes "oa.description", bytes "oa.filename",
  bytes "oa.product", bytes "oa.version"]

/-- The section of the version number. -/
def numName : Bytes := bytes "oa.version_num"

/-- The strings in the order of their sections. -/
def VersionInfo.texts (info : VersionInfo) : List Bytes :=
  [info.company, info.description, info.filename, info.product, info.version]

/-- The version info of five strings and a number. -/
def VersionInfo.ofTexts (texts : List Bytes) (versionNum : Nat) : VersionInfo :=
  ⟨texts.getD 0 [], texts.getD 1 [], texts.getD 2 [], texts.getD 3 [], texts.getD 4 [],
    versionNum⟩

/-- What follows the lookups. -/
def readSections (plat : Platform) (hdrs : List (Option Elf64Shdr))
    (numHdr : Option Elf64Shdr) : Reader VersionInfo :=
  match numHdr with
  | none => throwRuntime "ELF object missing oa.version_num header"
  | some numHdr => do
    let texts ← hdrs.mapM (readTrimmed plat)
    let numStr ← readSection plat numHdr
    throwIf (numStr.length ≠ 8) ("oa.version_num header size in bytes " ++
      toString numStr.length ++ " != expected 8")
    return .ofTexts texts (littleEndian numStr)

/-- What follows the headers of the file. -/
def readDirectory (plat : Platform) (ehdr : Elf64Ehdr) (nhdr : Elf64Shdr) :
    Reader VersionInfo := do
  let hdrs ← textNames.mapM (elfSectionHeader plat ehdr nhdr)
  let numHdr ← elfSectionHeader plat ehdr nhdr numName
  readSections plat hdrs numHdr

/-- The headers are read first, then the directory. -/
theorem read_eq (plat : Platform) : VersionInfo.read plat = (do
    let ehdr ← elfHeader
    let nhdr ← elfSectionNameHeader plat ehdr
    readDirectory plat ehdr nhdr) := by
  unfold VersionInfo.read readDirectory readSections textNames numName
  simp only [List.mapM_cons, List.mapM_nil, bind_assoc, pure_bind]
  rfl

/-! ## The lookups, one after the other -/

section Lookups

variable {plat : Platform} {file : Bytes} {ehdr : Elf64Ehdr} {nhdr : Elf64Shdr} {s : Ifstream}
  {names : List Bytes} {name : Bytes}

/-- One of the lookups goes astray, after others that miss nothing. -/
def StraysIn (plat : Platform) (file : Bytes) (ehdr : Elf64Ehdr) (nhdr : Elf64Shdr)
    (names : List Bytes) : Prop :=
  ∃ before name after, names = before ++ name :: after ∧
    (∀ other ∈ before, Intact plat file ehdr nhdr other) ∧
    (Directory.asRead plat file ehdr nhdr).Strays name

/-- No lookups, no stray one. -/
theorem not_straysIn_nil : ¬ StraysIn plat file ehdr nhdr [] := by
  rintro ⟨before, name, after, heq, -⟩
  simp at heq

/-- The first lookup that strays, or one after it. -/
theorem straysIn_cons : StraysIn plat file ehdr nhdr (name :: names) ↔
    (Directory.asRead plat file ehdr nhdr).Strays name ∨
      Intact plat file ehdr nhdr name ∧ StraysIn plat file ehdr nhdr names := by
  constructor
  · rintro ⟨before, other, after, heq, hbefore, hstrays⟩
    -- the first lookup strays, or one after it
    cases before with
    | nil =>
      rw [List.nil_append, List.cons.injEq] at heq
      exact Or.inl (heq.1 ▸ hstrays)
    | cons first before =>
      rw [List.cons_append, List.cons.injEq] at heq
      rw [List.forall_mem_cons] at hbefore
      exact Or.inr ⟨heq.1 ▸ hbefore.1, before, other, after, heq.2, hbefore.2, hstrays⟩
  · rintro (hstrays | ⟨hintact, before, other, after, rfl, hbefore, hstrays⟩)
    · exact ⟨[], name, names, rfl, by simp, hstrays⟩
    · refine ⟨name :: before, other, after, rfl, ?_, hstrays⟩
      rw [List.forall_mem_cons]
      exact ⟨hintact, hbefore⟩

/-- A lookup that does not go astray has a table to look into, if it looks into it at all. -/
theorem size_of_not_strays (h : ¬ (Directory.asRead plat file ehdr nhdr).Strays name) :
    nhdr.shSize ≠ 0 ∨ ehdr.eShnum = 0 := by
  by_contra hboth
  rw [not_or, not_not] at hboth
  apply h
  refine ⟨0, ⟨Nat.pos_of_ne_zero hboth.2, fun j hj => absurd hj (Nat.not_lt_zero j)⟩, ?_⟩
  intro other hother
  -- without a table of names the first header strays
  have hempty : (Directory.asRead plat file ehdr nhdr).names = [] := by
    simp [Directory.asRead, hboth.1, zeroFilled, List.rightpad]
  rw [Directory.HasName, hempty, nameAt, List.drop_nil, if_neg (by simp)] at hother
  cases hother

/-- Once nothing can be read any more, nothing is found any more. -/
theorem lookup_lost (hlost : s.good = false) (hmemory : plat.memory nhdr.shSize = none)
    (hname : name ≠ []) (h : nhdr.shSize ≠ 0 ∨ ehdr.eShnum = 0) :
    ∃ s', (elfSectionHeader plat ehdr nhdr name).run s = .ok (none, s') ∧ s'.good = false := by
  -- no header that is read has the name, as all of them are zeros
  have hmiss := Directory.misses_lost hname h
  obtain ⟨rows, hgood, hrows, hrun⟩ := run_elfSectionHeader_lost hlost hmemory
  obtain ⟨r, s', hfind, hgives, -, hgood'⟩ := run_findHeader hrows hmiss.not_strays
  rw [hrun, hfind]
  rcases hgives with ⟨i, hfinds, -⟩ | ⟨-, rfl⟩
  · exact absurd hmiss hfinds.not_misses
  · refine ⟨s', rfl, ?_⟩
    rw [← Bool.not_eq_true, hgood', hgood]
    simp

/-- A lookup on a lost stream without names is undefined. -/
theorem lookup_lost_strays (hlost : s.good = false) (hmemory : plat.memory nhdr.shSize = none)
    (hsize : nhdr.shSize = 0) (hcount : ehdr.eShnum ≠ 0) :
    (elfSectionHeader plat ehdr nhdr name).run s = .error (.undefined .indexOutOfRange) := by
  obtain ⟨rows, -, hrows, hrun⟩ := run_elfSectionHeader_lost hlost hmemory
  rw [hrun]
  rw [hsize] at hrows ⊢
  exact run_findHeader_strays hrows (Directory.strays_lost hcount)

/-- Lookups on a lost stream find nothing. -/
theorem lookups_lost (hlost : s.good = false) (hmemory : plat.memory nhdr.shSize = none)
    (hnames : [] ∉ names) (h : nhdr.shSize ≠ 0 ∨ ehdr.eShnum = 0) :
    ∃ hdrs s', (names.mapM (elfSectionHeader plat ehdr nhdr)).run s = .ok (hdrs, s') ∧
      s'.good = false := by
  induction names generalizing s with
  | nil => exact ⟨[], s, rfl, hlost⟩
  | cons name names ih =>
    rw [List.mem_cons, not_or] at hnames
    obtain ⟨s', hrun, hlost'⟩ := lookup_lost hlost hmemory (Ne.symm hnames.1) h
    obtain ⟨hdrs, s'', hruns, hlost''⟩ := ih hlost' hnames.2
    refine ⟨none :: hdrs, s'', ?_, hlost''⟩
    rw [run_mapM_cons hrun, hruns, ok_bind]

/-- The lookups in a file from which nothing is missing so far. -/
theorem lookups_good (hgood : s.good = true) (hcontents : s.contents = file)
    (hmemory : plat.memory nhdr.shSize = none) (hnames : [] ∉ names)
    (h : ¬ StraysIn plat file ehdr nhdr names) :
    ∃ hdrs s', (names.mapM (elfSectionHeader plat ehdr nhdr)).run s = .ok (hdrs, s') ∧
      ((∀ name ∈ names, Intact plat file ehdr nhdr name) ∧ s'.good = true ∧
          s'.contents = file ∧
          List.Forall₂ (Directory.asRead plat file ehdr nhdr).Gives names hdrs ∨
        (∃ name ∈ names, ¬ Intact plat file ehdr nhdr name) ∧ s'.good = false ∧
          (nhdr.shSize ≠ 0 ∨ ehdr.eShnum = 0)) := by
  induction names generalizing s with
  | nil => exact ⟨[], s, rfl, Or.inl ⟨by simp, hgood, hcontents, .nil⟩⟩
  | cons name names ih =>
    rw [List.mem_cons, not_or] at hnames
    rw [straysIn_cons, not_or, not_and] at h
    -- the first name leaves the stream good exactly if its bytes are all there
    obtain ⟨r, s', hrun, hgives, hcontents', hgood'⟩ := lookup_good hgood hcontents hmemory h.1
    by_cases hintact : Intact plat file ehdr nhdr name
    · obtain ⟨hdrs, s'', hruns, hrest⟩ :=
        ih (hgood'.mpr hintact) hcontents' hnames.2 (h.2 hintact)
      refine ⟨r :: hdrs, s'', ?_, ?_⟩
      · rw [run_mapM_cons hrun, hruns, ok_bind]
      · rcases hrest with ⟨hall, hgood'', hcontents'', hgiven⟩ | ⟨⟨other, hother, hcut⟩, hrest⟩
        · -- all the reads so far were whole
          refine Or.inl ⟨?_, hgood'', hcontents'', .cons hgives hgiven⟩
          rw [List.forall_mem_cons]
          exact ⟨hintact, hall⟩
        · -- a later name was cut off, so is the list
          exact Or.inr ⟨⟨other, List.mem_cons_of_mem name hother, hcut⟩, hrest⟩
    · -- the file ends in this lookup
      have hlost : s'.good = false := by
        rw [← Bool.not_eq_true, hgood']
        exact hintact
      have hsize := size_of_not_strays h.1
      obtain ⟨hdrs, s'', hruns, hlost'⟩ := lookups_lost hlost hmemory hnames.2 hsize
      refine ⟨r :: hdrs, s'', ?_, Or.inr ⟨⟨name, List.mem_cons_self, hintact⟩, hlost', hsize⟩⟩
      rw [run_mapM_cons hrun, hruns, ok_bind]

/-- Lookups of which one strays are undefined. -/
theorem lookups_strays (hgood : s.good = true) (hcontents : s.contents = file)
    (hmemory : plat.memory nhdr.shSize = none) (h : StraysIn plat file ehdr nhdr names) :
    (names.mapM (elfSectionHeader plat ehdr nhdr)).run s =
      .error (.undefined .indexOutOfRange) := by
  induction names generalizing s with
  | nil => exact absurd h not_straysIn_nil
  | cons name names ih =>
    -- this lookup strays, or it is whole and a later one does
    rcases straysIn_cons.mp h with hstrays | ⟨hintact, hrest⟩
    · exact run_mapM_cons_error (lookup_strays hgood hcontents hmemory hstrays)
    · have hnot : ¬ (Directory.asRead plat file ehdr nhdr).Strays name := by
        rcases hintact.2 with ⟨i, hfinds, -⟩ | ⟨hmiss, -⟩
        · exact hfinds.not_strays
        · exact hmiss.not_strays
      obtain ⟨r, s', hrun, -, hcontents', hgood'⟩ := lookup_good hgood hcontents hmemory hnot
      rw [run_mapM_cons hrun, ih (hgood'.mpr hintact) hcontents' hrest, error_bind]

end Lookups

/-! ## The sections -/

/-- The bytes of a section. -/
def sectionBytes (file : Bytes) (hdr : Elf64Shdr) : Bytes :=
  (file.drop hdr.shOffset).take hdr.shSize

/-- The text of a section up to the first NUL, and empty if there is none. -/
def sectionText (file : Bytes) : Option Elf64Shdr → Bytes
  | none => []
  | some hdr => (sectionBytes file hdr).takeWhile (· ≠ 0)

section Sections

variable {plat : Platform} {file : Bytes} {s : Ifstream} {hdr : Elf64Shdr}
  {hdrs : List (Option Elf64Shdr)}

/-- A section that there is no memory for throws. -/
theorem readSection_throws {e : Exn} (h : plat.memory hdr.shSize = some e) :
    (readSection plat hdr).run s = .error (.throws e) := by
  unfold readSection
  simp only [StateT.run_bind, run_seekg, ok_bind, lift_run_bind, allocate_eq_error h, error_bind]

/-- A section is read as it is, or the file is lost. -/
theorem run_readSection (hcontents : s.contents = file)
    (hmemory : plat.memory hdr.shSize = none) :
    ∃ b s', (readSection plat hdr).run s = .ok (b, s') ∧ s'.contents = file ∧
      b.length = hdr.shSize ∧
      (s'.good = true ↔ s.good = true ∧ Held plat file hdr.shOffset hdr.shSize) ∧
      (s'.good = true → b = sectionBytes file hdr) := by
  -- the stream stays good if the block lies within the file
  have hgood : ((s.seek plat hdr.shOffset).advance hdr.shSize).good = true ↔
      s.good = true ∧ Held plat file hdr.shOffset hdr.shSize := by
    rw [good_advance, good_seek, bytes_seek, hcontents, Held, Bool.and_eq_true, Bool.and_eq_true,
      decide_eq_true_iff, and_assoc]
    refine and_congr_right fun hgood => and_congr_right fun hseeks => ?_
    rw [if_pos ⟨hgood, hseeks⟩]
  refine ⟨zeroFilled (s.seek plat hdr.shOffset).bytes hdr.shSize,
    (s.seek plat hdr.shOffset).advance hdr.shSize, ?_, hcontents, length_zeroFilled _ _, hgood, ?_⟩
  · unfold readSection
    simp only [StateT.run_bind, run_seekg, ok_bind, lift_run_bind, allocate_eq_ok hmemory,
      run_read]
  · intro hall
    obtain ⟨hs, hseeks, hle⟩ := hgood.mp hall
    rw [bytes_seek, hcontents, if_pos ⟨hs, hseeks⟩, zeroFilled_eq_take hle, sectionBytes]

/-- A text is what a section holds before the first NUL. -/
theorem run_readTrimmed {b : Bytes} {s' : Ifstream}
    (h : (readSection plat hdr).run s = .ok (b, s')) :
    (readTrimmed plat (some hdr)).run s = .ok (b.takeWhile (· ≠ 0), s') := by
  rw [readTrimmed, StateT.run_bind, h, ok_bind]
  rfl

/-- Texts of which one does not fit into memory throw. -/
theorem readTexts_throws (hcontents : s.contents = file)
    (h : ∃ hdr, some hdr ∈ hdrs ∧ plat.memory hdr.shSize ≠ none) :
    ∃ e, (hdrs.mapM (readTrimmed plat)).run s = .error (.throws e) := by
  induction hdrs generalizing s with
  | nil => simp at h
  | cons first hdrs ih =>
    cases first with
    | none =>
      have hrest : ∃ hdr, some hdr ∈ hdrs ∧ plat.memory hdr.shSize ≠ none := by simpa using h
      obtain ⟨e, hrun⟩ := ih hcontents hrest
      have hnone : (readTrimmed plat none).run s = .ok ([], s) := rfl
      refine ⟨e, ?_⟩
      rw [run_mapM_cons hnone, hrun, error_bind]
    | some hdr =>
      -- the first section already asks for too much, or a later one
      cases hmemory : plat.memory hdr.shSize with
      | some e =>
        refine ⟨e, run_mapM_cons_error ?_⟩
        rw [readTrimmed, StateT.run_bind, readSection_throws hmemory, error_bind]
      | none =>
        obtain ⟨b, s', hrun, hcontents', -⟩ := run_readSection hcontents hmemory
        obtain ⟨other, hother, hnot⟩ := h
        have hrest : ∃ hdr, some hdr ∈ hdrs ∧ plat.memory hdr.shSize ≠ none := by
          refine ⟨other, ?_, hnot⟩
          rcases List.mem_cons.mp hother with heq | hmem
          · rw [Option.some.injEq] at heq
            exact absurd (heq ▸ hmemory) hnot
          · exact hmem
        obtain ⟨e, hruns⟩ := ih hcontents' hrest
        refine ⟨e, ?_⟩
        rw [run_mapM_cons (run_readTrimmed hrun), hruns, error_bind]

/-- The strings are read as they are, or the file is lost. -/
theorem run_readTexts (hcontents : s.contents = file)
    (hmemory : ∀ hdr, some hdr ∈ hdrs → plat.memory hdr.shSize = none) :
    ∃ texts s', (hdrs.mapM (readTrimmed plat)).run s = .ok (texts, s') ∧ s'.contents = file ∧
      (s'.good = true ↔
        s.good = true ∧ ∀ hdr, some hdr ∈ hdrs → Held plat file hdr.shOffset hdr.shSize) ∧
      texts.length = hdrs.length ∧ (s'.good = true → texts = hdrs.map (sectionText file)) := by
  induction hdrs generalizing s with
  | nil => exact ⟨[], s, rfl, hcontents, by simp, rfl, fun _ => rfl⟩
  | cons first hdrs ih =>
    -- the first section, or none
    have hfirst : ∃ text s', (readTrimmed plat first).run s = .ok (text, s') ∧
        s'.contents = file ∧ (s'.good = true ↔ s.good = true ∧
          ∀ hdr, first = some hdr → Held plat file hdr.shOffset hdr.shSize) ∧
        (s'.good = true → text = sectionText file first) := by
      cases first with
      | none => exact ⟨[], s, rfl, hcontents, by simp, fun _ => rfl⟩
      | some hdr =>
        obtain ⟨b, s', hrun, hcontents', -, hgood, hbytes⟩ :=
          run_readSection hcontents (hmemory hdr List.mem_cons_self)
        refine ⟨b.takeWhile (· ≠ 0), s', run_readTrimmed hrun, hcontents',
          by simpa using hgood, ?_⟩
        intro hall
        rw [hbytes hall, sectionText]
    obtain ⟨text, s', hrun, hcontents', hgood, htext⟩ := hfirst
    obtain ⟨texts, s'', hruns, hcontents'', hgood', hlength, htexts⟩ :=
      ih hcontents' fun hdr hmem => hmemory hdr (List.mem_cons_of_mem first hmem)
    refine ⟨text :: texts, s'', ?_, hcontents'', ?_, by simp [hlength], ?_⟩
    · rw [run_mapM_cons hrun, hruns, ok_bind]
    · rw [hgood', hgood, and_assoc]
      refine and_congr_right fun _ => ?_
      constructor
      · rintro ⟨hone, hall⟩ hdr hmem
        rcases List.mem_cons.mp hmem with heq | hmem
        · exact hone hdr heq.symm
        · exact hall hdr hmem
      · intro hall
        exact ⟨fun hdr heq => hall hdr (heq ▸ List.mem_cons_self),
          fun hdr hmem => hall hdr (List.mem_cons_of_mem first hmem)⟩
    · intro hall
      rw [List.map_cons, htexts hall, htext (hgood'.mp hall).1]

end Sections

/-! ## What a file contains -/

/-- The section header of the names. -/
def nameHeader (file : Bytes) : Elf64Shdr := shdrAt (file.drop (ehdrAt file).nameOffset)

/-- The directory of the file. -/
def directory (file : Bytes) : Directory := .ofFile file (ehdrAt file) (nameHeader file)

/-- A section header of the file, the first one of its name. -/
def HasSection (file name : Bytes) (hdr : Elf64Shdr) : Prop :=
  ∃ i, (directory file).Finds name i ∧ 64 * (i + 1) ≤ (directory file).rows.length ∧
    hdr = (directory file).entry i

/-- No section header of the file has the name. -/
def LacksSection (file name : Bytes) : Prop :=
  (directory file).Misses name ∧ 64 * (directory file).count ≤ (directory file).rows.length

/-- The text is what the file has in the section of a name up to the first NUL, and empty if
    there is no section of that name. -/
def HasText (plat : Platform) (file name text : Bytes) : Prop :=
  (LacksSection file name ∧ text = []) ∨
    ∃ hdr, HasSection file name hdr ∧ Held plat file hdr.shOffset hdr.shSize ∧
      text = (sectionBytes file hdr).takeWhile (· ≠ 0)

/-- All that the version info is taken from is in the file: the headers, the table of names,
    the section headers that are looked at, with terminated names, and the sections. -/
structure Describes (plat : Platform) (file : Bytes) (info : VersionInfo) : Prop where
  header : 64 ≤ file.length
  names : Held plat file (ehdrAt file).nameOffset 64
  whole : Whole plat file (ehdrAt file) (nameHeader file)
  texts : List.Forall₂ (HasText plat file) textNames info.texts
  num : ∃ hdr, HasSection file numName hdr ∧ hdr.shSize = 8 ∧ Held plat file hdr.shOffset 8 ∧
    info.versionNum = littleEndian (sectionBytes file hdr)

/-- The constructor throws, or the version info is what the file contains. -/
def Delivers (plat : Platform) (file : Bytes) : Prop :=
  Post (versionInfo plat file) IsThrow (Describes plat file)

/-! ## The files that are accepted -/

/-- The ELF header and the type of the section of names pass their checks, and there is
    memory for the names. -/
structure Accepted (plat : Platform) (file : Bytes) : Prop where
  isElf : IsElf (ehdrAt file)
  length_le : 64 ≤ file.length
  seeks : plat.seeks file.length (ehdrAt file).nameOffset = true
  type : (nameHeader file).shType = 3
  memory : plat.memory (nameHeader file).shSize = none

section Correct

variable {plat : Platform} {file : Bytes} {s : Ifstream}

/-- The file after the ELF header, sought for the section header of the names. -/
def atNames (plat : Platform) (file : Bytes) : Ifstream :=
  ((Ifstream.opened file).advance 64).seek plat (ehdrAt file).nameOffset

/-- The stream is good at the names if the header is there and the platform can seek. -/
theorem good_atNames : (atNames plat file).good = true ↔
    64 ≤ file.length ∧ plat.seeks file.length (ehdrAt file).nameOffset = true := by
  have hopened : (Ifstream.opened file).good = true ∧ (Ifstream.opened file).bytes = file :=
    ⟨rfl, rfl⟩
  rw [atNames, good_seek, good_advance, hopened.1, hopened.2, contents_advance]
  simp [Ifstream.opened]

/-- What follows at the names. -/
theorem bytes_atNames (h : (atNames plat file).good = true) :
    (atNames plat file).bytes = file.drop (ehdrAt file).nameOffset := by
  rw [atNames, good_seek, Bool.and_eq_true] at h
  rw [atNames, bytes_seek, if_pos h]
  rfl

/-- Reading the file, with the headers spelled out. -/
theorem run_read (plat : Platform) (file : Bytes) :
    (VersionInfo.read plat).run (Ifstream.opened file) = (do
      let hdr := ehdrAt file
      let s := atNames plat file
      let nhdr := shdrAt s.bytes
      checkEhdr hdr
      throwIf (!s.good) ("unable to seek to section name header table entry at offset " ++
        toString hdr.nameOffset)
      throwIf (nhdr.shType ≠ 3) ("section name header table entry type is " ++
        toString nhdr.shType ++ " not SHT_STRTAB (3)")
      (readDirectory plat hdr nhdr).run (s.advance 64)) := by
  have hopened : (Ifstream.opened file).bytes = file := rfl
  rw [read_eq]
  simp only [StateT.run_bind, run_elfHeader, hopened, run_elfSectionNameHeader, bind_assoc, ok_bind]
  rfl

/-- What is left to do for a file that is accepted. -/
theorem run_read_of_accepted (h : Accepted plat file) :
    (VersionInfo.read plat).run (Ifstream.opened file) =
      (readDirectory plat (ehdrAt file) (nameHeader file)).run
        ((atNames plat file).advance 64) := by
  have hgood := good_atNames.mpr ⟨h.length_le, h.seeks⟩
  have htype : (shdrAt (file.drop (ehdrAt file).nameOffset)).shType = 3 := h.type
  rw [run_read]
  simp only [bytes_atNames hgood]
  rw [checkEhdr_eq_ok_iff.mpr h.isElf, ok_bind,
    throwIf_eq_ok_iff (u := ()) |>.mpr (by simp [hgood]), ok_bind,
    throwIf_eq_ok_iff (u := ()) |>.mpr (not_not.mpr htype), ok_bind]
  rfl

/-- A file that is not accepted is rejected with an exception. -/
theorem run_read_of_not_accepted (h : ¬ Accepted plat file) :
    Post ((VersionInfo.read plat).run (Ifstream.opened file)) IsThrow fun _ => False := by
  rw [run_read]
  refine Post.bind (post_checkEhdr _) fun _ hisElf => Post.bind (post_throwIf _ _) fun _ hgood =>
    Post.bind (post_throwIf _ _) fun _ htype => ?_
  rw [Bool.not_eq_true', Bool.not_eq_false] at hgood
  rw [not_not] at htype
  rw [bytes_atNames hgood] at htype ⊢
  obtain ⟨hlength, hseeks⟩ := good_atNames.mp hgood
  -- the first thing that a lookup does is to allocate memory for the names
  cases hmemory : plat.memory (nameHeader file).shSize with
  | none => exact absurd ⟨hisElf, hlength, hseeks, htype, hmemory⟩ h
  | some e =>
    have halloc : allocate plat (shdrAt (file.drop (ehdrAt file).nameOffset)).shSize =
        .error (.throws e) := allocate_eq_error hmemory
    unfold readDirectory textNames elfSectionHeader
    simp only [List.mapM_cons, StateT.run_bind, lift_run_bind, halloc, error_bind]
    exact ⟨e, rfl⟩

/-! ## The directory -/

/-- All sections of texts have names. -/
theorem nil_not_mem_textNames : ([] : Bytes) ∉ textNames := by decide

/-- The section of the number has a name. -/
theorem numName_ne_nil : numName ≠ [] := by decide

/-- The section headers that the lookups find. -/
def Directory.Found (dir : Directory) (names : List Bytes) (hdr : Elf64Shdr) : Prop :=
  ∃ name ∈ names, ∃ i, dir.Finds name i ∧ hdr = dir.entry i

/-- The headers that were found are those of the directory. -/
theorem mem_of_gives {dir : Directory} {names : List Bytes} {hdrs : List (Option Elf64Shdr)}
    (h : List.Forall₂ dir.Gives names hdrs) (hdr : Elf64Shdr) :
    some hdr ∈ hdrs ↔ dir.Found names hdr := by
  induction h with
  | nil => simp [Directory.Found]
  | @cons name r names hdrs hgives hrest ih =>
    -- a lookup gives the header it has found
    have hfirst : some hdr = r ↔ ∃ i, dir.Finds name i ∧ hdr = dir.entry i := by
      rcases hgives with ⟨i, hfinds, rfl⟩ | ⟨hmiss, rfl⟩
      · rw [Option.some.injEq]
        constructor
        · exact fun heq => ⟨i, hfinds, heq⟩
        · rintro ⟨j, hj, heq⟩
          rw [heq, hj.eq hfinds]
      · constructor
        · intro heq
          cases heq
        · rintro ⟨j, hj, -⟩
          exact absurd hmiss hj.not_misses
    rw [List.mem_cons, hfirst, ih]
    simp [Directory.Found]

/-- A file of which something is missing in the headers is rejected, unless the search goes
    astray in the empty table. -/
theorem readDirectory_lost {ehdr : Elf64Ehdr} {nhdr : Elf64Shdr} (hlost : s.good = false)
    (hmemory : plat.memory nhdr.shSize = none) {Q : VersionInfo × Ifstream → Prop} :
    Post ((readDirectory plat ehdr nhdr).run s) IsThrow Q ↔
      ¬ (nhdr.shSize = 0 ∧ ehdr.eShnum ≠ 0) := by
  unfold readDirectory
  rw [StateT.run_bind]
  constructor
  · -- an empty table of names with a section to look at is read out of bounds
    rintro hpost ⟨hsize, hcount⟩
    rw [textNames, run_mapM_cons_error (lookup_lost_strays hlost hmemory hsize hcount),
      error_bind] at hpost
    obtain ⟨e, he⟩ := hpost
    cases he
  · intro h
    -- otherwise every lookup on the lost stream comes back
    rw [not_and_or, not_not] at h
    obtain ⟨hdrs, s', hruns, hlost'⟩ := lookups_lost hlost hmemory nil_not_mem_textNames h
    obtain ⟨s'', hrun, -⟩ := lookup_lost hlost' hmemory numName_ne_nil h
    rw [hruns, ok_bind, StateT.run_bind, hrun, ok_bind]
    exact ⟨_, rfl⟩

/-- There is a version number of its size and memory for all sections that are found, and
    yet one of them or the section header of the version number is not in the file. -/
structure CutOff (plat : Platform) (file : Bytes) (dir : Directory) : Prop where
  num : ∃ i, dir.Finds numName i ∧ (dir.entry i).shSize = 8
  memory : ∀ hdr, dir.Found (textNames ++ [numName]) hdr → plat.memory hdr.shSize = none
  missing : ¬ (dir.Complete numName ∧ ∀ hdr, dir.Found (textNames ++ [numName]) hdr →
    Held plat file hdr.shOffset hdr.shSize)

/-- What goes wrong without being noticed in a file that has the section header of the names:
    a search goes astray, or the file is cut off behind the headers of the strings. -/
def Misread (plat : Platform) (file : Bytes) (ehdr : Elf64Ehdr) (nhdr : Elf64Shdr) : Prop :=
  StraysIn plat file ehdr nhdr (textNames ++ [numName]) ∨
    (∀ name ∈ textNames, Intact plat file ehdr nhdr name) ∧
      CutOff plat file (Directory.asRead plat file ehdr nhdr)

/-- The last of some lookups strays if the others do not. -/
theorem straysIn_append {ehdr : Elf64Ehdr} {nhdr : Elf64Shdr} {names : List Bytes} {name : Bytes} :
    StraysIn plat file ehdr nhdr (names ++ [name]) ↔ StraysIn plat file ehdr nhdr names ∨
      (∀ other ∈ names, Intact plat file ehdr nhdr other) ∧
        (Directory.asRead plat file ehdr nhdr).Strays name := by
  induction names with
  | nil => simp [straysIn_cons, not_straysIn_nil]
  | cons first names ih =>
    rw [List.cons_append, straysIn_cons, straysIn_cons, ih, List.forall_mem_cons]
    tauto

/-- The sections of what is found, when there is memory for them. -/
theorem run_readSections {hdrs : List (Option Elf64Shdr)} {hdr : Elf64Shdr}
    (hcontents : s.contents = file)
    (hmemory : ∀ hdr', some hdr' ∈ hdrs → plat.memory hdr'.shSize = none)
    (hmemory' : plat.memory hdr.shSize = none) (hsize : hdr.shSize = 8) :
    ∃ texts numStr s', (readSections plat hdrs (some hdr)).run s =
        .ok (.ofTexts texts (littleEndian numStr), s') ∧ texts.length = hdrs.length ∧
      (s'.good = true ↔ s.good = true ∧
        (∀ hdr', some hdr' ∈ hdrs → Held plat file hdr'.shOffset hdr'.shSize) ∧
        Held plat file hdr.shOffset hdr.shSize) ∧
      (s'.good = true → texts = hdrs.map (sectionText file) ∧ numStr = sectionBytes file hdr) := by
  -- the texts first, then the number from where they left the stream
  obtain ⟨texts, s', hruns, hcontents', hgood, hlength, htexts⟩ :=
    run_readTexts hcontents hmemory
  obtain ⟨numStr, s'', hrun, -, hnum, hgood', hbytes⟩ := run_readSection hcontents' hmemory'
  refine ⟨texts, numStr, s'', ?_, hlength, ?_, fun hall => ⟨htexts (hgood'.mp hall).1, hbytes hall⟩⟩
  · -- the number has eight bytes, so nothing is thrown
    unfold readSections
    simp only [StateT.run_bind, hruns, ok_bind, hrun, lift_run_bind]
    rw [throwIf_eq_ok_iff (u := ()) |>.mpr (not_not.mpr (hnum.trans hsize)), ok_bind]
    rfl
  · rw [hgood', hgood, and_assoc]

/-- Without memory, or if the version number does not have its size, there is an exception. -/
theorem readSections_throws {hdrs : List (Option Elf64Shdr)} {hdr : Elf64Shdr}
    (hcontents : s.contents = file)
    (h : (∃ hdr', some hdr' ∈ hdrs ∧ plat.memory hdr'.shSize ≠ none) ∨
      plat.memory hdr.shSize ≠ none ∨ hdr.shSize ≠ 8) :
    ∃ e, (readSections plat hdrs (some hdr)).run s = .error (.throws e) := by
  unfold readSections
  simp only [StateT.run_bind]
  -- the strings are read before the number
  by_cases hmemory : ∃ hdr', some hdr' ∈ hdrs ∧ plat.memory hdr'.shSize ≠ none
  · obtain ⟨e, hrun⟩ := readTexts_throws hcontents hmemory
    exact ⟨e, by rw [hrun, error_bind]⟩
  · have hnum := h.resolve_left hmemory
    push Not at hmemory
    obtain ⟨texts, s', hruns, hcontents', -⟩ := run_readTexts hcontents hmemory
    rw [hruns, ok_bind]
    cases hmemory' : plat.memory hdr.shSize with
    | some e => exact ⟨e, by rw [readSection_throws hmemory', error_bind]⟩
    | none =>
      have hsize := hnum.resolve_left (not_not.mpr hmemory')
      obtain ⟨numStr, s'', hrun, -, hlength, -⟩ := run_readSection hcontents' hmemory'
      rw [hrun, ok_bind, lift_run_bind, throwIf, if_pos (hlength ▸ hsize)]
      exact ⟨_, rfl⟩

/-- The five texts of a version info. -/
theorem texts_ofTexts {texts : List Bytes} (h : texts.length = 5) (versionNum : Nat) :
    (VersionInfo.ofTexts texts versionNum).texts = texts := by
  match texts, h with
  | [_, _, _, _, _], _ => rfl

/-- What is found without missing anything is in the file. -/
theorem hasText_of_gives {names : List Bytes} {hdrs : List (Option Elf64Shdr)}
    (h : List.Forall₂ (directory file).Gives names hdrs)
    (hcomplete : ∀ name ∈ names, (directory file).Complete name)
    (hheld : ∀ hdr, some hdr ∈ hdrs → Held plat file hdr.shOffset hdr.shSize) :
    List.Forall₂ (HasText plat file) names (hdrs.map (sectionText file)) := by
  induction h with
  | nil => exact .nil
  | @cons name r names hdrs hgives hrest ih =>
    rw [List.forall_mem_cons] at hcomplete
    refine .cons ?_ (ih hcomplete.2 fun hdr hmem => hheld hdr (List.mem_cons_of_mem r hmem))
    rcases hgives with ⟨i, hfinds, rfl⟩ | ⟨hmiss, rfl⟩
    · exact Or.inr ⟨_, ⟨i, hfinds, hfinds.complete_iff.mp hcomplete.1, rfl⟩,
        hheld _ List.mem_cons_self, rfl⟩
    · exact Or.inl ⟨⟨hmiss, hmiss.complete_iff.mp hcomplete.1⟩, rfl⟩

/-- What the version info describes has been read as a whole. -/
theorem Describes.held {info : VersionInfo} (h : Describes plat file info) :
    (directory file).Complete numName ∧ ∀ hdr,
      (directory file).Found (textNames ++ [numName]) hdr →
        Held plat file hdr.shOffset hdr.shSize := by
  obtain ⟨num, ⟨i, hfinds, hle, hnum⟩, hsize, hheld, -⟩ := h.num
  refine ⟨Or.inl ⟨i, hfinds, hle⟩, ?_⟩
  rintro hdr ⟨name, hname, j, hj, rfl⟩
  -- a string's section, or that of the number
  rcases List.mem_append.mp hname with hname | hname
  · obtain ⟨text, -, htext⟩ := (exists_of_forall₂ h.texts).1 name hname
    rcases htext with ⟨⟨hmiss, -⟩, -⟩ | ⟨hdr, ⟨k, hk, -, rfl⟩, hheld, -⟩
    · exact absurd hmiss hj.not_misses
    · rwa [hj.eq hk]
  · rw [List.mem_singleton] at hname
    subst hname
    rw [hj.eq hfinds, ← hnum, hsize]
    exact hheld

/-- The sections are delivered exactly if nothing of what has been found is missing. -/
theorem readSections_delivers {hdrs : List (Option Elf64Shdr)} {hdr : Elf64Shdr} {i : Nat}
    (hcontents : s.contents = file)
    (hgood : s.good = true ↔ (directory file).Complete numName)
    (hheader : 64 ≤ file.length) (hnames : Held plat file (ehdrAt file).nameOffset 64)
    (hwhole : Whole plat file (ehdrAt file) (nameHeader file))
    (hgiven : List.Forall₂ (directory file).Gives textNames hdrs)
    (hcomplete : ∀ name ∈ textNames, (directory file).Complete name)
    (hfinds : (directory file).Finds numName i) (hhdr : hdr = (directory file).entry i)
    (hsize : hdr.shSize = 8)
    (hmemory : ∀ hdr, (directory file).Found (textNames ++ [numName]) hdr →
      plat.memory hdr.shSize = none) :
    Post ((readSections plat hdrs (some hdr)).run s) IsThrow
        (fun p => Describes plat file p.1) ↔
      (directory file).Complete numName ∧
        ∀ hdr, (directory file).Found (textNames ++ [numName]) hdr →
          Held plat file hdr.shOffset hdr.shSize := by
  -- the sections read are those the names lead to
  have hfound : ∀ hdr', some hdr' ∈ hdrs →
      (directory file).Found (textNames ++ [numName]) hdr' := by
    intro hdr' hmem
    obtain ⟨name, hname, hentry⟩ := (mem_of_gives hgiven hdr').mp hmem
    exact ⟨name, List.mem_append_left _ hname, hentry⟩
  have hnum : (directory file).Found (textNames ++ [numName]) hdr :=
    ⟨numName, by simp, i, hfinds, hhdr⟩
  obtain ⟨texts, numStr, s', hrun, hlength, hgood', hvalues⟩ := run_readSections
    hcontents (fun hdr' hmem => hmemory hdr' (hfound hdr' hmem)) (hmemory hdr hnum) hsize
  -- five strings are asked for
  have hfive : texts.length = 5 := by
    rw [hlength, ← hgiven.length_eq]
    rfl
  rw [hrun, post_ok]
  constructor
  · exact Describes.held
  · rintro ⟨hcompleteNum, hheld⟩
    -- the stream is still good, so every read has got its bytes
    have hall : s'.good = true :=
      hgood'.mpr ⟨hgood.mpr hcompleteNum, fun hdr' hmem => hheld hdr' (hfound hdr' hmem),
        hheld hdr hnum⟩
    obtain ⟨rfl, rfl⟩ := hvalues hall
    refine ⟨hheader, hnames, hwhole, ?_, hdr, ?_, hsize, hsize ▸ hheld hdr hnum, rfl⟩
    · rw [texts_ofTexts hfive]
      exact hasText_of_gives hgiven hcomplete fun hdr' hmem => hheld hdr' (hfound hdr' hmem)
    · exact ⟨i, hfinds, hfinds.complete_iff.mp hcompleteNum, hhdr⟩

/-- What the lookups return is delivered as it should be unless the file is cut off. -/
theorem readFound_delivers {hdrs : List (Option Elf64Shdr)} {r : Option Elf64Shdr}
    (hcontents : s.contents = file)
    (hgood : s.good = true ↔ (directory file).Complete numName)
    (hheader : 64 ≤ file.length) (hnames : Held plat file (ehdrAt file).nameOffset 64)
    (hwhole : Whole plat file (ehdrAt file) (nameHeader file))
    (hgiven : List.Forall₂ (directory file).Gives textNames hdrs)
    (hcomplete : ∀ name ∈ textNames, (directory file).Complete name)
    (hgives : (directory file).Gives numName r) :
    Post ((readSections plat hdrs r).run s) IsThrow (fun p => Describes plat file p.1) ↔
      ¬ CutOff plat file (directory file) := by
  rcases hgives with ⟨i, hfinds, rfl⟩ | ⟨hmiss, rfl⟩
  · -- the section of the number holds eight bytes, or the reader throws
    by_cases hsize : ((directory file).entry i).shSize = 8
    · by_cases hmemory : ∀ hdr, (directory file).Found (textNames ++ [numName]) hdr →
          plat.memory hdr.shSize = none
      · rw [readSections_delivers hcontents hgood hheader hnames hwhole hgiven hcomplete hfinds
          rfl hsize hmemory]
        constructor
        · exact fun hall hcut => hcut.missing hall
        · intro hnot
          by_contra hmissing
          exact hnot ⟨⟨i, hfinds, hsize⟩, hmemory, hmissing⟩
      · -- one of the sections that are found does not fit into memory
        have hthrows : (∃ hdr, some hdr ∈ hdrs ∧ plat.memory hdr.shSize ≠ none) ∨
            plat.memory ((directory file).entry i).shSize ≠ none := by
          push Not at hmemory
          obtain ⟨hdr, ⟨name, hname, j, hj, rfl⟩, hnone⟩ := hmemory
          rcases List.mem_append.mp hname with hname | hname
          · exact Or.inl ⟨_, (mem_of_gives hgiven _).mpr ⟨name, hname, j, hj, rfl⟩, hnone⟩
          · rw [List.mem_singleton] at hname
            subst hname
            rw [hj.eq hfinds] at hnone
            exact Or.inr hnone
        obtain ⟨e, hrun⟩ := readSections_throws hcontents
          (hthrows.imp_right fun hnone => Or.inl hnone)
        rw [hrun]
        exact iff_of_true ⟨e, rfl⟩ fun hcut => hmemory hcut.memory
    · -- a section of another size is no number, and the reader throws
      obtain ⟨e, hrun⟩ := readSections_throws hcontents
        (Or.inr (Or.inr hsize))
      rw [hrun]
      refine iff_of_true ⟨e, rfl⟩ fun hcut => ?_
      obtain ⟨j, hj, hsize'⟩ := hcut.num
      exact hsize (hj.eq hfinds ▸ hsize')
  · -- there is no section of the number
    refine iff_of_true ⟨_, rfl⟩ fun hcut => ?_
    obtain ⟨i, hi, -⟩ := hcut.num
    exact hi.not_misses hmiss

/-- From the lookups on, a file is delivered as it should be unless it is misread. -/
theorem readDirectory_good (hgood : s.good = true) (hcontents : s.contents = file)
    (hmemory : plat.memory (nameHeader file).shSize = none) (hheader : 64 ≤ file.length)
    (hnames : Held plat file (ehdrAt file).nameOffset 64) :
    Post ((readDirectory plat (ehdrAt file) (nameHeader file)).run s) IsThrow
        (fun p => Describes plat file p.1) ↔
      ¬ Misread plat file (ehdrAt file) (nameHeader file) := by
  have hnotThrow : ¬ IsThrow (.undefined .indexOutOfRange) := by
    rintro ⟨e, he⟩
    cases he
  unfold readDirectory Misread
  rw [StateT.run_bind, straysIn_append]
  -- a lookup that strays reads past the names
  by_cases hstrays : StraysIn plat file (ehdrAt file) (nameHeader file) textNames
  · rw [lookups_strays hgood hcontents hmemory hstrays, error_bind]
    exact iff_of_false hnotThrow (not_not.mpr (Or.inl (Or.inl hstrays)))
  obtain ⟨hdrs, s', hruns, hcases⟩ := lookups_good hgood hcontents hmemory (by decide) hstrays
  rw [hruns, ok_bind, StateT.run_bind]
  rcases hcases with ⟨hintact, hgood', hcontents', hgiven⟩ | ⟨⟨name, hname, hcut⟩, hlost, hsize⟩
  · by_cases hstray : (Directory.asRead plat file (ehdrAt file) (nameHeader file)).Strays numName
    · rw [lookup_strays hgood' hcontents' hmemory hstray, error_bind]
      exact iff_of_false hnotThrow (not_not.mpr (Or.inl (Or.inr ⟨hintact, hstray⟩)))
    obtain ⟨r, s'', hrun, hgives, hcontents'', hgood''⟩ :=
      lookup_good hgood' hcontents' hmemory hstray
    -- both tables were read whole, so the lookups saw the file's own directory
    have hwhole := (hintact _ List.mem_cons_self).1
    have hdir : Directory.asRead plat file (ehdrAt file) (nameHeader file) = directory file :=
      asRead_of_whole hwhole
    have hcomplete : ∀ name ∈ textNames, (directory file).Complete name :=
      fun name hname => hdir ▸ (hintact name hname).2
    rw [Intact, hdir, and_iff_right hwhole] at hgood''
    rw [hdir] at hgives hgiven hstray ⊢
    rw [hrun, ok_bind]
    simp only [hstrays, hstray, or_false, false_or, and_iff_right hintact]
    exact readFound_delivers hcontents'' hgood'' hheader hnames hwhole hgiven hcomplete hgives
  · -- the file ends in a lookup of a string
    obtain ⟨s'', hrun, -⟩ := lookup_lost hlost hmemory numName_ne_nil hsize
    rw [hrun, ok_bind]
    refine iff_of_true ⟨_, rfl⟩ ?_
    rintro ((hstrays' | ⟨hintact, -⟩) | ⟨hintact, -⟩)
    · exact hstrays hstrays'
    · exact hcut (hintact name hname)
    · exact hcut (hintact name hname)

/-- What goes wrong without being noticed in a file that is accepted: the file ends in the
    section header of the names before the size of their table, or it is misread. -/
def Unnoticed (plat : Platform) (file : Bytes) : Prop :=
  (file.drop (ehdrAt file).nameOffset).length < 64 ∧
      (nameHeader file).shSize = 0 ∧ (ehdrAt file).eShnum ≠ 0 ∨
    64 ≤ (file.drop (ehdrAt file).nameOffset).length ∧
      Misread plat file (ehdrAt file) (nameHeader file)

/-- The constructor delivers what reading the file does. -/
theorem delivers_eq : Delivers plat file ↔ Post ((VersionInfo.read plat).run
    (Ifstream.opened file)) IsThrow (fun p => Describes plat file p.1) := by
  have hrun : versionInfo plat file =
      Prod.fst <$> (VersionInfo.read plat).run (Ifstream.opened file) := rfl
  rw [Delivers, hrun]
  cases (VersionInfo.read plat).run (Ifstream.opened file) with
  | ok p => exact Iff.rfl
  | error f => exact Iff.rfl

/-- The constructor throws or delivers what the file contains exactly if the file is not
    accepted or nothing goes wrong unnoticed. -/
theorem delivers_iff (plat : Platform) (file : Bytes) :
    Delivers plat file ↔ ¬ (Accepted plat file ∧ Unnoticed plat file) := by
  rw [delivers_eq]
  by_cases haccepted : Accepted plat file
  · rw [run_read_of_accepted haccepted, and_iff_right haccepted]
    have hatNames := good_atNames.mpr ⟨haccepted.length_le, haccepted.seeks⟩
    -- the header of the names is read whole, or the stream fails on it
    have hgood : ((atNames plat file).advance 64).good = true ↔
        64 ≤ (file.drop (ehdrAt file).nameOffset).length := by
      rw [good_advance, hatNames, bytes_atNames hatNames, Bool.true_and, decide_eq_true_iff]
    unfold Unnoticed
    by_cases hnames : 64 ≤ (file.drop (ehdrAt file).nameOffset).length
    · have hcontents : ((atNames plat file).advance 64).contents = file := rfl
      rw [readDirectory_good (hgood.mpr hnames) hcontents haccepted.memory haccepted.length_le
        ⟨haccepted.seeks, hnames⟩, or_iff_right fun h => absurd h.1 (Nat.not_lt.mpr hnames),
        and_iff_right hnames]
    · -- then every later read fails and the strings stay empty
      have hlost : ((atNames plat file).advance 64).good = false := by
        rw [← Bool.not_eq_true, hgood]
        exact hnames
      rw [readDirectory_lost hlost haccepted.memory, or_iff_left fun h => hnames h.1,
        and_iff_right (Nat.lt_of_not_le hnames)]
  · refine iff_of_true ?_ fun h => haccepted h.1
    exact (run_read_of_not_accepted haccepted).weaken fun _ h => h.elim

end Correct

/-! ## A file that is cut off -/

/-- Seeks fail at negative offsets, and there is memory for all that a container can hold. -/
def posix : Platform where
  seeks _ off := decide (off < 9223372036854775808)
  memory size := if size < 9223372036854775808 then none else some .lengthError
  seeks_of_le _ off _ h := decide_eq_true h
  not_seeks _ off h := decide_eq_false (Nat.not_lt.mpr h)
  not_memory size h := by
    rw [if_neg (Nat.not_lt.mpr h)]
    simp

/-- An object of two section headers that ends before its version number. The table of names
    is in the flags and the address of the first one. -/
def cutObject : Bytes :=
  [127, 69, 76, 70, 2, 1, 1, 0, 0, 0, 0, 0, 0, 0, 0, 0] ++
  [3, 0, 62, 0, 1, 0, 0, 0] ++ List.replicate 16 0 ++ [64, 0, 0, 0, 0, 0, 0, 0] ++
  [0, 0, 0, 0, 64, 0, 56, 0, 0, 0, 64, 0, 2, 0, 0, 0] ++
  -- the section of the names, at 72
  [15, 0, 0, 0, 3, 0, 0, 0] ++ bytes "oa.version_num" ++ [0, 0] ++
  [72, 0, 0, 0, 0, 0, 0, 0, 16, 0, 0, 0, 0, 0, 0, 0] ++ List.replicate 24 0 ++
  -- the section of the version number, at 192
  [0, 0, 0, 0, 1, 0, 0, 0] ++ List.replicate 16 0 ++
  [192, 0, 0, 0, 0, 0, 0, 0, 8, 0, 0, 0, 0, 0, 0, 0] ++ List.replicate 24 0

/-- A constructor that returns what is not in the file does not deliver. -/
theorem not_delivers {plat : Platform} {file : Bytes} {info : VersionInfo}
    (hrun : versionInfo plat file = .ok info) (h : ¬ Describes plat file info) :
    ¬ Delivers plat file := by
  intro hpost
  rw [Delivers, hrun] at hpost
  exact h hpost

/-- Nothing describes a file of two sections, where the first one does not have the size of a
    version number and the second one is behind the end. -/
theorem not_describes {plat : Platform} {file : Bytes} {info : VersionInfo}
    (hcount : (directory file).count = 2) (hfirst : ((directory file).entry 0).shSize ≠ 8)
    (hsecond : (file.drop ((directory file).entry 1).shOffset).length = 0) :
    ¬ Describes plat file info := by
  intro h
  obtain ⟨hdr, ⟨i, hfinds, -, rfl⟩, hsize, hheld, -⟩ := h.num
  have hlt := hfinds.1.1
  -- neither section holds a number of eight bytes
  have hi : i = 0 ∨ i = 1 := by omega
  rcases hi with rfl | rfl
  · exact hfirst hsize
  · have hle := hheld.2
    omega

/-- The missing version number is read as zero. -/
theorem not_delivers_cutObject : ¬ ∀ (plat : Platform) (file : Bytes), Delivers plat file := by
  have hrun : versionInfo posix cutObject = .ok ⟨[], [], [], [], [], 0⟩ := by decide +kernel
  have hnot : ¬ Delivers posix cutObject := not_delivers hrun
    (not_describes (by decide +kernel) (by decide +kernel) (by decide +kernel))
  exact not_forall.mpr ⟨posix, not_forall.mpr ⟨cutObject, hnot⟩⟩

end OA.Config
