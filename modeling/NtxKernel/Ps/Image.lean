import NtxKernel.Kpe.Image
import NtxKernel.Basic

/-!
# Loading a user image

The part of `PsSpawnUserKpeFromBuffer` in `kernel/ps/init.c` that is about the bytes of the image:
the checks of the file, the copies and the relocation. The image is the memory behind the base that
`MmMapAnonymous` returned, which is mapped and cleared.
-/

namespace NtxKernel.Ps

open Kpe

/-- `PS_IMAGE_MAX_SIZE`. -/
abbrev psImageMaxSize : ℕ := 16 * 1024 * 1024

/-- `PspAlignUp`. -/
def pspAlignUp (value alignment : U64) : U64 :=
  if alignment = 0 then value else (value + alignment - 1) &&& ~~~(alignment - 1)

/-- `PspFileRangeValid`. -/
def pspFileRangeValid (fileSize offset size : U64) : Bool :=
  let stop := offset + size
  if stop.toNat < offset.toNat then false else decide (stop.toNat ≤ fileSize.toNat)

/-- What `PsSpawnUserKpeFromBuffer` checks of a section. -/
def pspCheckSection (fileSize : ℕ) (s : KpeSectionHeader) : Bool :=
  if s.sizeOfRawData = 0 then true
  else pspFileRangeValid (BitVec.ofNat 64 fileSize) (s.pointerToRawData.setWidth 64)
    (s.sizeOfRawData.setWidth 64)

/-- The checks of `PsSpawnUserKpeFromBuffer` before it makes a process. -/
def pspCheckUserImage (f : File) : Option (KpeNtHeaders64 × List KpeSectionHeader) :=
  if f.length < sizeofDosHeader ∨ psImageMaxSize < f.length then none
  else
    let dos := readDosHeader f
    if dos.magic ≠ kpeDosMagic then none
    else if f.length < dos.lfanew.toNat + sizeofNtHeaders then none
    else
      let nt := readNtHeaders f dos.lfanew.toNat
      if nt.signature ≠ kpeSignature ∨ nt.fileHeader.machine ≠ kpeMachineAur64 ∨
          nt.optionalHeader.magic ≠ kpeOptMagicAur64 ∨
          nt.optionalHeader.subsystem ≠ kpeSubsystemUserland ∨
          nt.fileHeader.numberOfSections = 0 ∨ nt.optionalHeader.sizeOfImage = 0 ∨
          nt.optionalHeader.sizeOfImage.toNat ≤ nt.optionalHeader.addressOfEntryPoint.toNat ∨
          kpeNumberOfDirectoryEntries < nt.optionalHeader.numberOfRvaAndSizes.toNat then none
      else if f.length < sectionTableOffset dos nt +
          nt.fileHeader.numberOfSections.toNat * sizeofSectionHeader then none
      else
        let sections := readSections f (sectionTableOffset dos nt)
          nt.fileHeader.numberOfSections.toNat
        if sections.all (pspCheckSection f.length) then some (nt, sections) else none

/-- How much of the file is copied as headers. -/
def pspHeaderCopySize (f : File) (nt : KpeNtHeaders64) : ℕ :=
  min (min nt.optionalHeader.sizeOfHeaders.toNat nt.optionalHeader.sizeOfImage.toNat) f.length

/-- The loop that copies the sections. -/
def pspCopySections (f : File) (sizeOfImage : U32) :
    List KpeSectionHeader → Image → Except KStatus Image
  | [], img => .ok img
  | s :: sections, img =>
    if s.sizeOfRawData = 0 then pspCopySections f sizeOfImage sections img
    else if sizeOfImage.toNat < s.virtualAddress.toNat + s.sizeOfRawData.toNat then
      .error .invalidParameter
    else
      pspCopySections f sizeOfImage sections
        (img.copy f s.virtualAddress.toNat s.pointerToRawData.toNat s.sizeOfRawData.toNat)

/-- What `PspApplyUserKpeRelocations` checks of the stream. -/
def pspRelocRules (sizeOfImage : U32) : RelocRules KStatus where
  blockOk virtualAddress := decide (virtualAddress.toNat + 4096 ≤ sizeOfImage.toNat)
  invalid := .invalidParameter
  unsupported := .notImplemented

/-- `PspApplyUserKpeRelocations`. -/
def pspApplyUserKpeRelocations (loadedBase : U64) (nt : KpeNtHeaders64) (img : Image) :
    Except KStatus Image :=
  let delta := loadedBase - nt.optionalHeader.imageBase
  let relocDir := nt.optionalHeader.dataDirectory kpeDirBaseReloc
  if delta = 0 then .ok img
  else if nt.optionalHeader.dllCharacteristics &&& kpeDllcharDynamicBase = 0 then
    .error .accessDenied
  else if relocDir.virtualAddress = 0 ∨ relocDir.size.toNat < sizeofBaseRelocationBlock then
    .error .accessDenied
  else if nt.optionalHeader.sizeOfImage.toNat <
      relocDir.virtualAddress.toNat + relocDir.size.toNat then .error .invalidParameter
  else
    relocBlocks (pspRelocRules nt.optionalHeader.sizeOfImage) nt.optionalHeader.sizeOfImage delta
      (relocDir.virtualAddress.toNat + relocDir.size.toNat) (relocFuel relocDir.size.toNat)
      relocDir.virtualAddress.toNat img

/-- The copies and the relocation of `PsSpawnUserKpeFromBuffer`. -/
def pspFillImage (f : File) (nt : KpeNtHeaders64) (sections : List KpeSectionHeader)
    (loadedBase : U64) : Except KStatus Image :=
  match pspCopySections f nt.optionalHeader.sizeOfImage sections
      (Image.zero.copy f 0 0 (pspHeaderCopySize f nt)) with
  | .error e => .error e
  | .ok img => pspApplyUserKpeRelocations loadedBase nt img

end NtxKernel.Ps
