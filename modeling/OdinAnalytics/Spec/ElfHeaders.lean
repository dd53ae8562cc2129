import OdinAnalytics.Native.VersionInfo

/-!
# The headers of an ELF file

What the headers are that are read from given bytes, with zeros behind the last one,
and which of them are accepted.

## Key results

- `run_elfHeader`: the ELF header is read, and thrown away unless it is accepted
- `run_elfSectionNameHeader`: the section header of the names
- `run_readShdr`: a section header in the loop
-/

namespace OA.Config

open Machine

/-- The ELF header at the start of some bytes. -/
def ehdrAt (b : Bytes) : Elf64Ehdr where
  eIdent := zeroFilled b 16
  eType := littleEndian (zeroFilled (b.drop 16) 2)
  eMachine := littleEndian (zeroFilled (b.drop 18) 2)
  eVersion := littleEndian (zeroFilled (b.drop 20) 4)
  eEntry := littleEndian (zeroFilled (b.drop 24) 8)
  ePhoff := littleEndian (zeroFilled (b.drop 32) 8)
  eShoff := littleEndian (zeroFilled (b.drop 40) 8)
  eFlags := littleEndian (zeroFilled (b.drop 48) 4)
  eEhsize := littleEndian (zeroFilled (b.drop 52) 2)
  ePhentsize := littleEndian (zeroFilled (b.drop 54) 2)
  ePhnum := littleEndian (zeroFilled (b.drop 56) 2)
  eShentsize := littleEndian (zeroFilled (b.drop 58) 2)
  eShnum := littleEndian (zeroFilled (b.drop 60) 2)
  eShstrndx := littleEndian (zeroFilled (b.drop 62) 2)

/-- The section header at the start of some bytes. -/
def shdrAt (b : Bytes) : Elf64Shdr where
  shName := littleEndian (zeroFilled b 4)
  shType := littleEndian (zeroFilled (b.drop 4) 4)
  shFlags := littleEndian (zeroFilled (b.drop 8) 8)
  shAddr := littleEndian (zeroFilled (b.drop 16) 8)
  shOffset := littleEndian (zeroFilled (b.drop 24) 8)
  shSize := littleEndian (zeroFilled (b.drop 32) 8)
  shLink := littleEndian (zeroFilled (b.drop 40) 4)
  shInfo := littleEndian (zeroFilled (b.drop 44) 4)
  shAddralign := littleEndian (zeroFilled (b.drop 48) 8)
  shEntsize := littleEndian (zeroFilled (b.drop 56) 8)

/-! ## The ELF header -/

/-- The headers of the objects that are read. -/
structure IsElf (hdr : Elf64Ehdr) : Prop where
  magic : hdr.eIdent.take 4 = elfMag
  class64 : is64 hdr.eIdent = true
  nativeEndian : isNativeEndian hdr.eIdent = true
  identVersion : hdr.eIdent.getD 6 0 = 1
  type : hdr.eType = 2 ∨ hdr.eType = 3
  version : hdr.eVersion = 1
  ehsize : hdr.eEhsize = 0x40
  phentsize : hdr.ePhentsize = 0x38
  shentsize : hdr.eShentsize = 0x40

/-- The checks of `elf_header`, in their order. -/
def checkEhdr (hdr : Elf64Ehdr) : Exec Unit := do
  throwIf (hdr.eIdent.take 4 ≠ elfMag) "input stream doesn't point to an ELF file"
  throwIf (!is64 hdr.eIdent) ("invalid ELF EI_CLASS " ++ toString (hdr.eIdent.getD 4 0))
  throwIf (!isBigEndian hdr.eIdent && !isLittleEndian hdr.eIdent)
    ("invalid ELF EI_DATA " ++ toString (hdr.eIdent.getD 5 0))
  throwIf (hdr.eIdent.getD 6 0 ≠ 1)
    ("invalid ELF EI_VERSION " ++ toString (hdr.eIdent.getD 6 0))
  throwIf (!isNativeEndian hdr.eIdent) "only ELF objects of native endianness allowed"
  throwIf (hdr.eType ≠ 2 ∧ hdr.eType ≠ 3) "only dynamic/executable ELF objects supported"
  throwIf (hdr.eVersion ≠ 1)
    ("invalid ELF e_version " ++ toString hdr.eVersion ++ " != EV_CURRENT (1")
  throwIf (hdr.eEhsize ≠ 0x40)
    ("invalid 64-bit ELF header size " ++ toString hdr.eEhsize ++ " != expected 64 bytes")
  throwIf (hdr.ePhentsize ≠ 0x38) ("invalid 64-bit ELF program header table entry size " ++
    toString hdr.ePhentsize ++ " != expected 56 bytes")
  throwIf (hdr.eShentsize ≠ 0x40) ("invalid 64-bit ELF section header table entry size " ++
    toString hdr.eShentsize ++ " != expected 64 bytes")

/-- A check that does not throw was passed. -/
theorem throwIf_eq_ok_iff {c : Prop} [Decidable c] {what : String} {u : Unit} :
    throwIf c what = .ok u ↔ ¬ c := by
  unfold throwIf
  split <;> simp [throwRuntime, *]

/-- Exactly the headers of objects pass the checks. -/
theorem checkEhdr_eq_ok_iff {hdr : Elf64Ehdr} : checkEhdr hdr = .ok () ↔ IsElf hdr := by
  simp only [checkEhdr, bind_eq_ok, throwIf_eq_ok_iff, exists_const]
  constructor
  · -- native endianness implies that the encoding is one of the two
    rintro ⟨hmagic, hclass, -, hident, hnative, htype, hversion, heh, hph, hsh⟩
    constructor
    all_goals simp_all
    omega
  · -- each check passes for its field
    intro h
    have hnative := h.nativeEndian
    refine ⟨not_not.mpr h.magic, by simp [h.class64], ?_, not_not.mpr h.identVersion,
      by simp [hnative], ?_, not_not.mpr h.version, not_not.mpr h.ehsize,
      not_not.mpr h.phentsize, not_not.mpr h.shentsize⟩
    · rw [isNativeEndian] at hnative
      simp [hnative]
    · have htype := h.type
      omega

/-- A check throws, or it was passed. -/
theorem post_throwIf (c : Prop) [Decidable c] (what : String) :
    Post (throwIf c what) IsThrow fun _ => ¬ c := by
  unfold throwIf
  split
  · exact ⟨_, rfl⟩
  · next h => exact h

/-- The checks of the header throw, or it is that of a 64-bit ELF file. -/
theorem post_checkEhdr (hdr : Elf64Ehdr) : Post (checkEhdr hdr) IsThrow fun _ => IsElf hdr := by
  have hthrows : Post (checkEhdr hdr) IsThrow fun _ => True := by
    unfold checkEhdr
    iterate 9 refine Post.bind (post_throwIf _ _) fun _ _ => ?_
    exact (post_throwIf _ _).weaken fun _ _ => trivial
  cases h : checkEhdr hdr with
  | ok u => exact checkEhdr_eq_ok_iff.mp h
  | error f =>
    rw [h] at hthrows
    exact hthrows

/-- The header is read from 64 bytes, then checked. -/
theorem run_elfHeader (s : Ifstream) : elfHeader.run s =
    checkEhdr (ehdrAt s.bytes) >>= fun _ => .ok (ehdrAt s.bytes, s.advance 64) := by
  unfold elfHeader checkEhdr ehdrAt
  simp only [StateT.run_bind, run_read, run_readNat, ok_bind, lift_run_bind, bytes_advance,
    advance_advance, bind_assoc, List.drop_drop, Nat.reduceAdd, StateT.run_pure]
  rfl

/-- A section header is read from 64 bytes. -/
theorem run_readShdr (s : Ifstream) : readShdr.run s = .ok (shdrAt s.bytes, s.advance 64) := by
  unfold readShdr shdrAt
  simp only [StateT.run_bind, run_readNat, ok_bind, bytes_advance, advance_advance,
    List.drop_drop, Nat.reduceAdd, StateT.run_pure]
  rfl

/-- The header of the section of names is read where the ELF header says, then checked. -/
theorem run_elfSectionNameHeader (plat : Platform) (hdr : Elf64Ehdr) (s : Ifstream) :
    (elfSectionNameHeader plat hdr).run s = (do
      let s := s.seek plat hdr.nameOffset
      throwIf (!s.good) ("unable to seek to section name header table entry at offset " ++
        toString hdr.nameOffset)
      let nhdr := shdrAt s.bytes
      throwIf (nhdr.shType ≠ 3) ("section name header table entry type is " ++
        toString nhdr.shType ++ " not SHT_STRTAB (3)")
      .ok (nhdr, s.advance 64)) := by
  unfold elfSectionNameHeader shdrAt
  simp only [StateT.run_bind, run_seekg, StateT.run_get, pure_bind, run_readNat, ok_bind,
    lift_run_bind, bytes_advance, advance_advance, List.drop_drop, Nat.reduceAdd,
    StateT.run_pure]
  rfl

end OA.Config
