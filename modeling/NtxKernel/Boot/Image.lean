import NtxKernel.Boot.Loader
import NtxKernel.Kpe.Image

/-!
# The kernel image in memory

`ApplyKpeBaseRelocations` and `LoadKpeImage` of `boot/uefi/bootx64.c`, with the bytes that they
leave behind `ImageBase`. What `AllocatePages` answers is an argument.
-/

namespace NtxKernel.Boot

open Kpe

/-- The statuses that `LoadKpeImage` fails with. -/
inductive LoadStatus
  | loadError
  | unsupported
  | firmware (code : U64)
  deriving DecidableEq

/-- What an access does to the image. -/
def LoadOp.apply (f : File) (img : Image) : LoadOp → Image
  | .copy dest src size => img.copy f dest src size
  | .clear dest size => img.clear dest size

/-- What `ApplyKpeBaseRelocations` checks of the stream. -/
def relocRules : RelocRules LoadStatus where
  blockOk _ := true
  invalid := .loadError
  unsupported := .unsupported

/-- `ApplyKpeBaseRelocations`. -/
def applyKpeBaseRelocations (loadedImageBase : U64) (nt : KpeNtHeaders64) (img : Image) :
    Except LoadStatus Image :=
  let delta := loadedImageBase - nt.optionalHeader.imageBase
  let relocDir := nt.optionalHeader.dataDirectory kpeDirBaseReloc
  if delta = 0 then .ok img
  else if relocDir.virtualAddress = 0 ∨ relocDir.size.toNat < sizeofBaseRelocationBlock then
    .error .unsupported
  else if nt.optionalHeader.sizeOfImage.toNat <
      relocDir.virtualAddress.toNat + relocDir.size.toNat then .error .loadError
  else
    relocBlocks relocRules nt.optionalHeader.sizeOfImage delta
      (relocDir.virtualAddress.toNat + relocDir.size.toNat) (relocFuel relocDir.size.toNat)
      relocDir.virtualAddress.toNat img

/-- What `LoadKpeImage` returns, with the bytes of the image. -/
structure LoadedImage where
  imageBase : U64
  imageSize : U64
  entryAddress : U64
  relocationDelta : U64
  bytes : Image

/-- The base of the image: `preferred` answers the request for `ImageBase`, and `anywhere` the
request for any pages. -/
def allocateImage (nt : KpeNtHeaders64) (preferred : Except U64 Unit) (anywhere : Except U64 U64) :
    Except LoadStatus U64 :=
  match preferred with
  | .ok _ => .ok nt.optionalHeader.imageBase
  | .error status =>
    if nt.optionalHeader.dllCharacteristics &&& kpeDllcharDynamicBase = 0 then
      .error (.firmware status)
    else
      match anywhere with
      | .error status => .error (.firmware status)
      | .ok imageBase => .ok imageBase

/-- `LoadKpeImage`. -/
def loadKpeImage (f : File) (preferred : Except U64 Unit) (anywhere : Except U64 U64) :
    Except LoadStatus LoadedImage :=
  match validateKpeImage f with
  | none => .error .loadError
  | some (nt, sections) =>
    match allocateImage nt preferred anywhere with
    | .error e => .error e
    | .ok imageBase =>
      match applyKpeBaseRelocations imageBase nt
          ((loadOps f nt sections).foldl (LoadOp.apply f) .zero) with
      | .error e => .error e
      | .ok bytes => .ok
        { imageBase := imageBase
          imageSize := nt.optionalHeader.sizeOfImage.setWidth 64
          entryAddress := imageBase + nt.optionalHeader.addressOfEntryPoint.setWidth 64
          relocationDelta := imageBase - nt.optionalHeader.imageBase
          bytes := bytes }

end NtxKernel.Boot
