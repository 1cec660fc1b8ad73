import NtxKernel.Kpe.Format
import NtxKernel.Foundations.Bits

/-!
# Loading the kernel image

`ValidateKpeImage` and the copies of `LoadKpeImage` in `boot/uefi/bootx64.c`. The image is the
memory behind `ImageBase`; positions in it are offsets from there. `loadOps` lists the accesses of
the loader before relocation: the copy of the headers, and for each section the copy of its raw
data and the clearing of the rest.

* `CopiesFit` is a condition on the headers: the headers that are copied and the raw data of each
  section lie inside the image.
* `load_accesses_inside_iff`: for every file that is validated, every access lies inside the image
  and inside the file exactly when the copies fit. The validator bounds the virtual size of a
  section, not the size of its raw data, and it does not look at `SizeOfHeaders`.
-/

namespace NtxKernel.Boot

open Foundations Kpe

/-- `AlignUp64`. -/
def alignUp64 (value alignment : U64) : U64 :=
  if alignment = 0 then value else (value + alignment - 1) &&& ~~~(alignment - 1)

/-- `FileRangeValid`. -/
def fileRangeValid (fileSize offset size : ℕ) : Bool :=
  if fileSize < offset then false
  else if fileSize - offset < size then false
  else true

/-- What `ValidateKpeImage` checks of a section. -/
def validateSection (fileSize : ℕ) (nt : KpeNtHeaders64) (s : KpeSectionHeader) : Bool :=
  if nt.optionalHeader.sizeOfImage.toNat ≤ s.virtualAddress.toNat then false
  else
    let virtualSpan := alignUp64 (s.virtualSize.setWidth 64)
      (nt.optionalHeader.sectionAlignment.setWidth 64)
    if nt.optionalHeader.sizeOfImage.toNat <
        (s.virtualAddress.setWidth 64 + virtualSpan).toNat then false
    else if s.sizeOfRawData = 0 then true
    else fileRangeValid fileSize s.pointerToRawData.toNat s.sizeOfRawData.toNat

/-- `ValidateKpeImage`. -/
def validateKpeImage (f : File) : Option (KpeNtHeaders64 × List KpeSectionHeader) :=
  if f.length < sizeofDosHeader then none
  else
    let dos := readDosHeader f
    if dos.magic ≠ kpeDosMagic then none
    else if f.length < dos.lfanew.toNat + sizeofNtHeaders then none
    else
      let nt := readNtHeaders f dos.lfanew.toNat
      if nt.signature ≠ kpeSignature then none
      else if nt.fileHeader.machine ≠ kpeMachineAur64 then none
      else if nt.fileHeader.numberOfSections = 0 then none
      else if nt.fileHeader.sizeOfOptionalHeader.toNat < sizeofOptionalHeader then none
      else if nt.optionalHeader.magic ≠ kpeOptMagicAur64 then none
      else if nt.optionalHeader.subsystem ≠ kpeSubsystemNativeKernel then none
      else if nt.optionalHeader.sectionAlignment = 0 ∨ nt.optionalHeader.fileAlignment = 0 then none
      else if nt.optionalHeader.sizeOfImage.toNat ≤ nt.optionalHeader.addressOfEntryPoint.toNat then
        none
      else if kpeNumberOfDirectoryEntries < nt.optionalHeader.numberOfRvaAndSizes.toNat then none
      else if f.length < sectionTableOffset dos nt +
          nt.fileHeader.numberOfSections.toNat * sizeofSectionHeader then none
      else
        let sections := readSections f (sectionTableOffset dos nt)
          nt.fileHeader.numberOfSections.toNat
        if sections.all (validateSection f.length nt) then some (nt, sections) else none

/-! ## The copies of the loader -/

/-- `CopyMem` from the file to the image, and `SetMem` with zeros. -/
inductive LoadOp
  | copy (dest src size : ℕ)
  | clear (dest size : ℕ)
  deriving DecidableEq

/-- How much of the file is copied as headers. -/
def headerCopySize (f : File) (nt : KpeNtHeaders64) : ℕ :=
  if f.length < nt.optionalHeader.sizeOfHeaders.toNat then f.length
  else nt.optionalHeader.sizeOfHeaders.toNat

/-- The copy of the headers. -/
def headerOps (f : File) (nt : KpeNtHeaders64) : List LoadOp :=
  if 0 < nt.optionalHeader.sizeOfHeaders.toNat then [.copy 0 0 (headerCopySize f nt)] else []

/-- How much of a section is cleared. -/
def sectionClearSize (s : KpeSectionHeader) : U32 :=
  if s.sizeOfRawData.toNat < s.virtualSize.toNat then s.virtualSize - s.sizeOfRawData else 0

/-- The copy of the raw data of a section and the clearing of the rest. -/
def sectionOps (s : KpeSectionHeader) : List LoadOp :=
  (if 0 < s.sizeOfRawData.toNat then
      [.copy s.virtualAddress.toNat s.pointerToRawData.toNat s.sizeOfRawData.toNat] else []) ++
    if 0 < (sectionClearSize s).toNat then
      [.clear (s.virtualAddress.toNat + s.sizeOfRawData.toNat) (sectionClearSize s).toNat] else []

/-- The accesses of `LoadKpeImage` before relocation, after it cleared the image. -/
def loadOps (f : File) (nt : KpeNtHeaders64) (sections : List KpeSectionHeader) : List LoadOp :=
  headerOps f nt ++ sections.flatMap sectionOps

/-- What an access writes lies inside the image, and what it reads inside the file. -/
def LoadOp.Inside (imageSize fileSize : ℕ) : LoadOp → Prop
  | .copy dest src size => dest + size ≤ imageSize ∧ src + size ≤ fileSize
  | .clear dest size => dest + size ≤ imageSize

/-- The headers that are copied and the raw data of the sections fit into the image. -/
def CopiesFit (f : File) (nt : KpeNtHeaders64) (sections : List KpeSectionHeader) : Prop :=
  headerCopySize f nt ≤ nt.optionalHeader.sizeOfImage.toNat ∧
    ∀ s ∈ sections, s.sizeOfRawData = 0 ∨
      s.virtualAddress.toNat + s.sizeOfRawData.toNat ≤ nt.optionalHeader.sizeOfImage.toNat

/-! ## Alignment -/

/-- Rounding up does not go down, and not up by more than the alignment, which need not be a
power of two. -/
theorem alignUp64_bounds {value alignment : U64} (h : value.toNat + alignment.toNat < 2 ^ 64) :
    value.toNat ≤ (alignUp64 value alignment).toNat ∧
      (alignUp64 value alignment).toNat ≤ value.toNat + alignment.toNat := by
  rw [alignUp64]
  by_cases hzero : alignment = 0
  · rw [if_pos hzero]
    exact ⟨Nat.le_refl _, Nat.le_add_right _ _⟩
  rw [if_neg hzero]
  have hsub : value + alignment - 1 = value + (alignment - 1) := by
    rw [BitVec.sub_eq_add_neg, BitVec.sub_eq_add_neg, BitVec.add_assoc]
  rw [hsub]
  generalize hmask : alignment - 1 = mask
  have hmaskNat : mask.toNat + 1 = alignment.toNat := by
    rw [← hmask]
    bv_omega
  have hsum : (value + mask).toNat = value.toNat + mask.toNat := by
    bv_omega
  have hsplit := toNat_and_add_toNat_and_not (value + mask) mask
  have hle : ((value + mask) &&& mask).toNat ≤ mask.toNat := by
    rw [BitVec.toNat_and]
    exact Nat.and_le_right
  omega

/-- The number that a 32-bit word is in 64 bits. -/
theorem toNat_setWidth_64 (v : U32) : (v.setWidth 64).toNat = v.toNat := by
  rw [BitVec.toNat_setWidth]
  exact Nat.mod_eq_of_lt (by omega)

/-! ## What the validator accepts -/

/-- A section that is validated: its virtual size lies inside the image, its raw data inside the
file. -/
theorem validateSection_spec {fileSize : ℕ} {nt : KpeNtHeaders64} {s : KpeSectionHeader}
    (h : validateSection fileSize nt s = true) :
    s.virtualAddress.toNat + s.virtualSize.toNat ≤ nt.optionalHeader.sizeOfImage.toNat ∧
      (s.sizeOfRawData = 0 ∨
        s.pointerToRawData.toNat + s.sizeOfRawData.toNat ≤ fileSize) := by
  rw [validateSection] at h
  split at h
  · cases h
  dsimp only at h
  split at h
  · cases h
  next hspan =>
  refine ⟨?_, ?_⟩
  · have hbounds : _ ∧ _ := alignUp64_bounds (show (s.virtualSize.setWidth 64).toNat +
      (nt.optionalHeader.sectionAlignment.setWidth 64).toNat < 2 ^ 64 by
        rw [toNat_setWidth_64, toNat_setWidth_64]
        omega)
    rw [BitVec.toNat_add, toNat_setWidth_64, Nat.mod_eq_of_lt] at hspan <;>
      rw [toNat_setWidth_64, toNat_setWidth_64] at hbounds <;> omega
  · split at h
    next hraw => exact .inl hraw
    · refine .inr ?_
      rw [fileRangeValid] at h
      split at h
      · cases h
      split at h
      · cases h
      omega

/-- The sections of a validated file are validated. -/
theorem validateKpeImage_sections {f : File} {nt : KpeNtHeaders64}
    {sections : List KpeSectionHeader} (h : validateKpeImage f = some (nt, sections)) :
    ∀ s ∈ sections, validateSection f.length nt s = true := by
  simp only [validateKpeImage, Option.ite_none_left_eq_some, Option.ite_none_right_eq_some] at h
  obtain ⟨-, -, -, -, -, -, -, -, -, -, -, -, -, hall, heq⟩ := h
  cases heq
  exact List.all_eq_true.1 hall

/-- How much of the file is copied as headers is in the file. -/
theorem headerCopySize_le (f : File) (nt : KpeNtHeaders64) : headerCopySize f nt ≤ f.length := by
  rw [headerCopySize]
  split <;> omega

/-- The accesses for the headers are inside exactly when the copy fits into the image. -/
theorem headerOps_inside_iff (f : File) (nt : KpeNtHeaders64) :
    (∀ op ∈ headerOps f nt, op.Inside nt.optionalHeader.sizeOfImage.toNat f.length) ↔
      headerCopySize f nt ≤ nt.optionalHeader.sizeOfImage.toNat := by
  have hle := headerCopySize_le f nt
  rw [headerOps]
  by_cases hsize : 0 < nt.optionalHeader.sizeOfHeaders.toNat
  · rw [if_pos hsize]
    simp only [List.mem_singleton, forall_eq, LoadOp.Inside, Nat.zero_add]
    exact and_iff_left hle
  · rw [if_neg hsize]
    refine iff_of_true (fun op hop => by cases hop) ?_
    rw [headerCopySize]
    split <;> omega

/-- The accesses for a validated section are inside exactly when its raw data fits into the
image. -/
theorem sectionOps_inside_iff {fileSize : ℕ} {nt : KpeNtHeaders64} {s : KpeSectionHeader}
    (h : validateSection fileSize nt s = true) :
    (∀ op ∈ sectionOps s, op.Inside nt.optionalHeader.sizeOfImage.toNat fileSize) ↔
      s.sizeOfRawData = 0 ∨ s.virtualAddress.toNat + s.sizeOfRawData.toNat ≤
        nt.optionalHeader.sizeOfImage.toNat := by
  obtain ⟨hvirtual, hfile⟩ := validateSection_spec h
  have hzero : s.sizeOfRawData = 0 ↔ ¬0 < s.sizeOfRawData.toNat := by
    rw [Nat.not_lt, Nat.le_zero, ← BitVec.toNat_inj]
    rfl
  -- what is cleared ends where the virtual size does
  have hclear : 0 < (sectionClearSize s).toNat →
      s.sizeOfRawData.toNat + (sectionClearSize s).toNat = s.virtualSize.toNat := by
    rw [sectionClearSize]
    split
    · intro _
      bv_omega
    · exact fun hpos => absurd hpos (Nat.lt_irrefl 0)
  constructor
  · intro hall
    by_cases hraw : 0 < s.sizeOfRawData.toNat
    · refine .inr ?_
      have hcopy := hall (.copy s.virtualAddress.toNat s.pointerToRawData.toNat
        s.sizeOfRawData.toNat) (by rw [sectionOps, if_pos hraw]; simp)
      exact hcopy.1
    · exact .inl (hzero.2 hraw)
  · intro hfits op hop
    rw [sectionOps, List.mem_append] at hop
    rcases hop with hop | hop
    · split at hop
      next hraw =>
        rw [List.mem_singleton.1 hop]
        exact ⟨hfits.resolve_left fun heq => hzero.1 heq hraw,
          hfile.resolve_left fun heq => hzero.1 heq hraw⟩
      · cases hop
    · split at hop
      next hpos =>
        rw [List.mem_singleton.1 hop, LoadOp.Inside]
        have hend := hclear hpos
        omega
      · cases hop

/-- For every file that is validated, every access of the loader before relocation lies inside
the image and inside the file exactly when the copies fit into the image. -/
theorem load_accesses_inside_iff {f : File} {nt : KpeNtHeaders64}
    {sections : List KpeSectionHeader} (h : validateKpeImage f = some (nt, sections)) :
    (∀ op ∈ loadOps f nt sections, op.Inside nt.optionalHeader.sizeOfImage.toNat f.length) ↔
      CopiesFit f nt sections := by
  have hsections := validateKpeImage_sections h
  rw [loadOps, CopiesFit, ← headerOps_inside_iff]
  constructor
  · intro hall
    refine ⟨fun op hop => hall op (List.mem_append_left _ hop), fun s hs => ?_⟩
    rw [← sectionOps_inside_iff (hsections s hs)]
    exact fun op hop => hall op (List.mem_append_right _ (List.mem_flatMap.2 ⟨s, hs, hop⟩))
  · rintro ⟨hheaders, hfits⟩ op hop
    rcases List.mem_append.1 hop with hop | hop
    · exact hheaders op hop
    · obtain ⟨s, hs, hop⟩ := List.mem_flatMap.1 hop
      exact (sectionOps_inside_iff (hsections s hs)).2 (hfits s hs) op hop

/-- A kernel image of one section, whose headers end at the position 384: an image of 4 KiB with a
section of `virtualSize` bytes behind them and `rawSize` bytes of raw data, which are those at the
start of the file. -/
def oneSectionImage (virtualSize rawSize : ℕ) : File :=
  Bytes.ofNat 2 0x5A4D ++ Bytes.ofNat 58 0 ++ Bytes.ofNat 4 64 ++
    -- signature and file header
    Bytes.ofNat 4 0x3045504B ++ Bytes.ofNat 2 0xA641 ++ Bytes.ofNat 2 1 ++ Bytes.ofNat 12 0 ++
    Bytes.ofNat 2 240 ++ Bytes.ofNat 2 0 ++
    -- optional header
    Bytes.ofNat 2 0xA641 ++ Bytes.ofNat 14 0 ++ Bytes.ofNat 4 0x800 ++ Bytes.ofNat 4 0 ++
    Bytes.ofNat 8 0x200000 ++ Bytes.ofNat 4 0x200 ++ Bytes.ofNat 4 0x200 ++ Bytes.ofNat 16 0 ++
    Bytes.ofNat 4 0x1000 ++ Bytes.ofNat 4 0x180 ++ Bytes.ofNat 4 0 ++ Bytes.ofNat 2 1 ++
    Bytes.ofNat 2 0x40 ++ Bytes.ofNat 36 0 ++ Bytes.ofNat 4 16 ++ Bytes.ofNat 128 0 ++
    -- section header
    Bytes.ofNat 8 0 ++ Bytes.ofNat 4 virtualSize ++ Bytes.ofNat 4 0x800 ++ Bytes.ofNat 4 rawSize ++
    Bytes.ofNat 4 0 ++ Bytes.ofNat 16 0 ++ Bytes.ofNat 16 0 ++ List.replicate 0x800 0

theorem load_accesses_inside_iff_small :
    ∃ nt sections, validateKpeImage (oneSectionImage 0x800 0x200) = some (nt, sections) ∧
      ((∀ op ∈ loadOps (oneSectionImage 0x800 0x200) nt sections,
          op.Inside nt.optionalHeader.sizeOfImage.toNat (oneSectionImage 0x800 0x200).length) ↔
        CopiesFit (oneSectionImage 0x800 0x200) nt sections) := by
  have hsome : (validateKpeImage (oneSectionImage 0x800 0x200)).isSome = true := by
    decide +kernel
  obtain ⟨⟨nt, sections⟩, hvalid⟩ := Option.isSome_iff_exists.1 hsome
  exact ⟨nt, sections, hvalid, load_accesses_inside_iff hvalid⟩

/-- A section with more raw data than there is room behind it in the image is validated, and the
copy of its raw data leaves the image. -/
theorem raw_data_leaves_image :
    ¬∀ (f : File) (nt : KpeNtHeaders64) (sections : List KpeSectionHeader),
      validateKpeImage f = some (nt, sections) →
        ∀ op ∈ loadOps f nt sections, op.Inside nt.optionalHeader.sizeOfImage.toNat f.length := by
  intro hall
  have hrun : (validateKpeImage (oneSectionImage 0x800 0x900)).map (fun r =>
      (loadOps (oneSectionImage 0x800 0x900) r.1 r.2, r.1.optionalHeader.sizeOfImage.toNat)) =
        some ([.copy 0 0 0x180, .copy 0x800 0 0x900], 0x1000) := by decide +kernel
  obtain ⟨⟨nt, sections⟩, hvalid, heq⟩ := Option.map_eq_some_iff.1 hrun
  simp only [Prod.mk.injEq] at heq
  obtain ⟨hops, hsize⟩ := heq
  have hinside := hall _ nt sections hvalid (.copy 0x800 0 0x900) (by rw [hops]; simp)
  rw [hsize] at hinside
  exact absurd hinside.1 (by decide)

end NtxKernel.Boot
