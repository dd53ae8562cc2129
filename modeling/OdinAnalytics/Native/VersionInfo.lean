import OdinAnalytics.Machine.Ifstream

/-!
# Version info of a binary

The constructor of `version_info` (`config/version_info.cpp`) where objects are ELF files
and the host is little-endian: it reads the ELF header, the section header of the table of
names, and for each of six names the section headers up to the one of that name, and
then the sections. Reads are not checked, apart from one seek.
-/

namespace OA.Config

open Machine

/-- `Elf64_Ehdr`. -/
structure Elf64Ehdr where
  eIdent : Bytes
  eType : Nat
  eMachine : Nat
  eVersion : Nat
  eEntry : Nat
  ePhoff : Nat
  eShoff : Nat
  eFlags : Nat
  eEhsize : Nat
  ePhentsize : Nat
  ePhnum : Nat
  eShentsize : Nat
  eShnum : Nat
  eShstrndx : Nat
deriving DecidableEq

/-- `Elf64_Shdr`. -/
structure Elf64Shdr where
  shName : Nat
  shType : Nat
  shFlags : Nat
  shAddr : Nat
  shOffset : Nat
  shSize : Nat
  shLink : Nat
  shInfo : Nat
  shAddralign : Nat
  shEntsize : Nat
deriving DecidableEq

/-! ## Headers -/

/-- `ELFMAG`. -/
def elfMag : Bytes := [127, 69, 76, 70]

/-- `is_64`. -/
def is64 (eIdent : Bytes) : Bool := eIdent.getD 4 0 = 2

/-- `is_little_endian`. -/
def isLittleEndian (eIdent : Bytes) : Bool := eIdent.getD 5 0 = 1

/-- `is_big_endian`. -/
def isBigEndian (eIdent : Bytes) : Bool := eIdent.getD 5 0 = 2

/-- `is_native_endian` on a little-endian host. -/
def isNativeEndian (eIdent : Bytes) : Bool := isLittleEndian eIdent

/-- `elf_header`. -/
def elfHeader : Reader Elf64Ehdr := do
  let eIdent ← read 16
  throwIf (eIdent.take 4 ≠ elfMag) "input stream doesn't point to an ELF file"
  throwIf (!is64 eIdent) ("invalid ELF EI_CLASS " ++ toString (eIdent.getD 4 0))
  throwIf (!isBigEndian eIdent && !isLittleEndian eIdent)
    ("invalid ELF EI_DATA " ++ toString (eIdent.getD 5 0))
  throwIf (eIdent.getD 6 0 ≠ 1) ("invalid ELF EI_VERSION " ++ toString (eIdent.getD 6 0))
  throwIf (!isNativeEndian eIdent) "only ELF objects of native endianness allowed"
  let eType ← readNat 2
  -- `ET_EXEC`, `ET_DYN`
  throwIf (eType ≠ 2 ∧ eType ≠ 3) "only dynamic/executable ELF objects supported"
  let eMachine ← readNat 2
  let eVersion ← readNat 4
  throwIf (eVersion ≠ 1)
    ("invalid ELF e_version " ++ toString eVersion ++ " != EV_CURRENT (1")
  let eEntry ← readNat 8
  let ePhoff ← readNat 8
  let eShoff ← readNat 8
  let eFlags ← readNat 4
  let eEhsize ← readNat 2
  throwIf (eEhsize ≠ 0x40)
    ("invalid 64-bit ELF header size " ++ toString eEhsize ++ " != expected 64 bytes")
  let ePhentsize ← readNat 2
  throwIf (ePhentsize ≠ 0x38) ("invalid 64-bit ELF program header table entry size " ++
    toString ePhentsize ++ " != expected 56 bytes")
  let ePhnum ← readNat 2
  let eShentsize ← readNat 2
  throwIf (eShentsize ≠ 0x40) ("invalid 64-bit ELF section header table entry size " ++
    toString eShentsize ++ " != expected 64 bytes")
  let eShnum ← readNat 2
  let eShstrndx ← readNat 2
  return ⟨eIdent, eType, eMachine, eVersion, eEntry, ePhoff, eShoff, eFlags, eEhsize,
    ePhentsize, ePhnum, eShentsize, eShnum, eShstrndx⟩

/-- The offset that `elf_section_name_header` seeks, of 64 bits. -/
def Elf64Ehdr.nameOffset (hdr : Elf64Ehdr) : Nat :=
  (hdr.eShoff + hdr.eShstrndx * hdr.eShentsize) % 18446744073709551616

/-- `elf_section_name_header`. -/
def elfSectionNameHeader (plat : Platform) (hdr : Elf64Ehdr) : Reader Elf64Shdr := do
  seekg plat hdr.nameOffset
  throwIf (!(← get).good) ("unable to seek to section name header table entry at offset " ++
    toString hdr.nameOffset)
  let shName ← readNat 4
  let shType ← readNat 4
  -- `SHT_STRTAB`
  throwIf (shType ≠ 3)
    ("section name header table entry type is " ++ toString shType ++ " not SHT_STRTAB (3)")
  let shFlags ← readNat 8
  let shAddr ← readNat 8
  let shOffset ← readNat 8
  let shSize ← readNat 8
  let shLink ← readNat 4
  let shInfo ← readNat 4
  let shAddralign ← readNat 8
  let shEntsize ← readNat 8
  return ⟨shName, shType, shFlags, shAddr, shOffset, shSize, shLink, shInfo, shAddralign,
    shEntsize⟩

/-- The reads of an iteration in `elf_section_header`. -/
def readShdr : Reader Elf64Shdr := do
  let shName ← readNat 4
  let shType ← readNat 4
  let shFlags ← readNat 8
  let shAddr ← readNat 8
  let shOffset ← readNat 8
  let shSize ← readNat 8
  let shLink ← readNat 4
  let shInfo ← readNat 4
  let shAddralign ← readNat 8
  let shEntsize ← readNat 8
  return ⟨shName, shType, shFlags, shAddr, shOffset, shSize, shLink, shInfo, shAddralign,
    shEntsize⟩

/-- The string `&name_data[index]`, up to a NUL that is not looked for before the end. -/
def nameAt (nameData : Bytes) (index : Nat) : Exec Bytes :=
  if 0 ∈ nameData.drop index then .ok ((nameData.drop index).takeWhile (· ≠ 0))
  else .error (.undefined .indexOutOfRange)

/-- The loop of `elf_section_header`, with so many headers to go. -/
def findHeader (nameData name : Bytes) : Nat → Reader (Option Elf64Shdr)
  | 0 => return none
  | n + 1 => do
    let res ← readShdr
    if name = (← nameAt nameData res.shName) then
      return some res
    findHeader nameData name n

/-- `elf_section_header`. -/
def elfSectionHeader (plat : Platform) (hdr : Elf64Ehdr) (nhdr : Elf64Shdr) (name : Bytes) :
    Reader (Option Elf64Shdr) := do
  allocate plat nhdr.shSize
  seekg plat nhdr.shOffset
  let nameData ← read nhdr.shSize
  seekg plat hdr.eShoff
  findHeader nameData name hdr.eShnum

/-! ## Sections -/

/-- `version_info::impl_type::section`. -/
def readSection (plat : Platform) (hdr : Elf64Shdr) : Reader Bytes := do
  seekg plat hdr.shOffset
  allocate plat hdr.shSize
  read hdr.shSize

/-- The bytes of a section up to the first NUL, if there is a section. -/
def readTrimmed (plat : Platform) : Option Elf64Shdr → Reader Bytes
  | none => return []
  | some hdr => do return (← readSection plat hdr).takeWhile (· ≠ 0)

/-! ## The constructor -/

/-- The fields of `version_info::impl_type` that are accessed. -/
structure VersionInfo where
  company : Bytes
  description : Bytes
  filename : Bytes
  product : Bytes
  version : Bytes
  versionNum : Nat
deriving DecidableEq

/-- `version_info::impl_type::impl_type`, once the file is open. -/
def VersionInfo.read (plat : Platform) : Reader VersionInfo := do
  let ehdr ← elfHeader
  let nhdr ← elfSectionNameHeader plat ehdr
  let header := elfSectionHeader plat ehdr nhdr
  let comHdr ← header (bytes "oa.company")
  let descHdr ← header (bytes "oa.description")
  let fnameHdr ← header (bytes "oa.filename")
  let prodHdr ← header (bytes "oa.product")
  let verHdr ← header (bytes "oa.version")
  let numHdr ← header (bytes "oa.version_num")
  -- only the number is required; a string without a header stays empty
  match numHdr with
  | none => throwRuntime "ELF object missing oa.version_num header"
  | some numHdr => do
    let company ← readTrimmed plat comHdr
    let description ← readTrimmed plat descHdr
    let filename ← readTrimmed plat fnameHdr
    let product ← readTrimmed plat prodHdr
    let version ← readTrimmed plat verHdr
    let numStr ← readSection plat numHdr
    throwIf (numStr.length ≠ 8) ("oa.version_num header size in bytes " ++
      toString numStr.length ++ " != expected 8")
    return ⟨company, description, filename, product, version, littleEndian numStr⟩

/-- `version_info::version_info`, of a path to a file with the given contents. -/
def versionInfo (plat : Platform) (contents : Bytes) : Exec VersionInfo :=
  (VersionInfo.read plat).run' (Ifstream.opened contents)

end OA.Config
