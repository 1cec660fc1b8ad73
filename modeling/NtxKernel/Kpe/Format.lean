import NtxKernel.Basic
import NtxKernel.Foundations.Bytes

/-!
# The KPE image format

The headers of a KPE file as `include/kpeformat.h` lays them out, read from the bytes of the file.
The structures hold the fields that a loader reads; all fields are little-endian and packed.
-/

namespace NtxKernel.Kpe

open Foundations

/-- `uint16_t`. -/
abbrev U16 := BitVec 16

/-- The bytes of a file. -/
abbrev File := List UInt8

def read16 (f : File) (offset : ℕ) : U16 := BitVec.ofNat 16 (Bytes.read f offset 2)
def read32 (f : File) (offset : ℕ) : U32 := BitVec.ofNat 32 (Bytes.read f offset 4)
def read64 (f : File) (offset : ℕ) : U64 := BitVec.ofNat 64 (Bytes.read f offset 8)

def kpeDosMagic : U16 := 0x5A4D
def kpeSignature : U32 := 0x3045504B
def kpeOptMagicAur64 : U16 := 0xA641
def kpeMachineAur64 : U16 := 0xA641

/-- `KPE_NUMBEROF_DIRECTORY_ENTRIES`. -/
abbrev kpeNumberOfDirectoryEntries : ℕ := 16

/-- `KPE_DIR_BASERELOC`. -/
abbrev kpeDirBaseReloc : Fin kpeNumberOfDirectoryEntries := 5

def kpeDllcharDynamicBase : U16 := 0x0040
def kpeScnMemExecute : U32 := 0x20000000
def kpeScnMemWrite : U32 := 0x80000000
def kpeRelBasedAbsolute : U16 := 0
def kpeRelBasedDir64 : U16 := 10
def kpeSubsystemNativeKernel : U16 := 1
def kpeSubsystemUserland : U16 := 2

/-- `sizeof(KPE_DOS_HEADER)`. -/
abbrev sizeofDosHeader : ℕ := 64

/-- `sizeof(KPE_FILE_HEADER)`. -/
abbrev sizeofFileHeader : ℕ := 20

/-- `sizeof(KPE_OPTIONAL_HEADER64)`. -/
abbrev sizeofOptionalHeader : ℕ := 240

/-- `sizeof(KPE_NT_HEADERS64)`. -/
abbrev sizeofNtHeaders : ℕ := 4 + sizeofFileHeader + sizeofOptionalHeader

/-- `sizeof(KPE_SECTION_HEADER)`. -/
abbrev sizeofSectionHeader : ℕ := 40

/-- `sizeof(KPE_BASE_RELOCATION_BLOCK)`. -/
abbrev sizeofBaseRelocationBlock : ℕ := 8

/-- `KPE_DOS_HEADER`. -/
structure KpeDosHeader where
  magic : U16
  lfanew : U32

/-- `KPE_FILE_HEADER`. -/
structure KpeFileHeader where
  machine : U16
  numberOfSections : U16
  sizeOfOptionalHeader : U16

/-- `KPE_DATA_DIRECTORY`. -/
structure KpeDataDirectory where
  virtualAddress : U32
  size : U32

/-- `KPE_OPTIONAL_HEADER64`. -/
structure KpeOptionalHeader64 where
  magic : U16
  addressOfEntryPoint : U32
  imageBase : U64
  sectionAlignment : U32
  fileAlignment : U32
  sizeOfImage : U32
  sizeOfHeaders : U32
  subsystem : U16
  dllCharacteristics : U16
  numberOfRvaAndSizes : U32
  dataDirectory : Fin kpeNumberOfDirectoryEntries → KpeDataDirectory

/-- `KPE_NT_HEADERS64`. -/
structure KpeNtHeaders64 where
  signature : U32
  fileHeader : KpeFileHeader
  optionalHeader : KpeOptionalHeader64

/-- `KPE_SECTION_HEADER`. -/
structure KpeSectionHeader where
  virtualSize : U32
  virtualAddress : U32
  sizeOfRawData : U32
  pointerToRawData : U32
  characteristics : U32

/-- The header at the start of the file. -/
def readDosHeader (f : File) : KpeDosHeader := ⟨read16 f 0, read32 f 60⟩

/-- The headers at the position `e_lfanew`. -/
def readNtHeaders (f : File) (offset : ℕ) : KpeNtHeaders64 where
  signature := read32 f offset
  fileHeader := ⟨read16 f (offset + 4), read16 f (offset + 6), read16 f (offset + 20)⟩
  optionalHeader :=
    { magic := read16 f (offset + 24)
      addressOfEntryPoint := read32 f (offset + 40)
      imageBase := read64 f (offset + 48)
      sectionAlignment := read32 f (offset + 56)
      fileAlignment := read32 f (offset + 60)
      sizeOfImage := read32 f (offset + 80)
      sizeOfHeaders := read32 f (offset + 84)
      subsystem := read16 f (offset + 92)
      dllCharacteristics := read16 f (offset + 94)
      numberOfRvaAndSizes := read32 f (offset + 132)
      dataDirectory := fun i =>
        ⟨read32 f (offset + 136 + 8 * i), read32 f (offset + 140 + 8 * i)⟩ }

/-- A section header. -/
def readSectionHeader (f : File) (offset : ℕ) : KpeSectionHeader :=
  ⟨read32 f (offset + 8), read32 f (offset + 12), read32 f (offset + 16), read32 f (offset + 20),
    read32 f (offset + 36)⟩

/-- The position of the section table. -/
def sectionTableOffset (dos : KpeDosHeader) (nt : KpeNtHeaders64) : ℕ :=
  dos.lfanew.toNat + 4 + sizeofFileHeader + nt.fileHeader.sizeOfOptionalHeader.toNat

/-- The section table. -/
def readSections (f : File) (offset count : ℕ) : List KpeSectionHeader :=
  (List.range count).map fun index => readSectionHeader f (offset + sizeofSectionHeader * index)

end NtxKernel.Kpe
