import NtxKernel.Mm.Pages

/-!
# Initialization of the memory manager

`MmInitialize` of `kernel/mm/init.c` and the routines it calls: the bitmap starts full, the usable
ranges of the memory map are freed, the ranges that are in use since boot are reserved, the
firmware's root table is cloned and the direct map of physical memory is built.

The memory map is an array in memory that is read at a byte address: `MemoryMap` gives the entry
that lies at an address. The loops over pages and entries count up from their start as the
source's do.
-/

namespace NtxKernel.Mm

open Foundations Ob

def efiLoaderCode : U32 := 1
def efiLoaderData : U32 := 2
def efiBootServicesCode : U32 := 3
def efiBootServicesData : U32 := 4
def efiConventionalMemory : U32 := 7

def bootinfoMagic : U32 := 0x49425441
def bootinfoFlagInitImagePresent : U32 := 0x2

/-- `PHYSICAL_MEMORY_RANGE`. -/
structure PhysicalMemoryRange where
  base : U64
  length : U64
  type : U32

/-- `BOOT_INFO` and the address it lies at. -/
structure BootInfo where
  address : U64
  magic : U32
  flags : U32
  loaderBase : U64
  kernelBase : U64
  kernelSize : U64
  initImageBase : U64
  initImageSize : U64
  memoryMap : U64
  memoryMapEntryCount : U32
  memoryMapEntrySize : U32

/-- `sizeof(BOOT_INFO)`. -/
def sizeofBootInfo : U64 := 120

/-- The `PHYSICAL_MEMORY_RANGE` that lies at an address. -/
abbrev MemoryMap := U64 → PhysicalMemoryRange

/-- `MmpIsRangeUsable`. -/
def mmpIsRangeUsable (range : PhysicalMemoryRange) : Bool :=
  range.type == efiConventionalMemory || range.type == efiBootServicesCode ||
    range.type == efiBootServicesData || range.type == efiLoaderCode || range.type == efiLoaderData

/-- Set or clear the bit of a page. -/
def mmpSetPage (mm : MmState) (allocated : Bool) (page : ℕ) : MmState :=
  if allocated then mmpSetPageAllocated mm page else mmpSetPageFree mm page

/-- The loop of `MmpMarkRange`, from `page` on with `n` pages to go. -/
def mmpMarkPages (allocated : Bool) : ℕ → ℕ → MmState → MmState
  | 0, _, mm => mm
  | n + 1, page, mm =>
    if mm.trackedPages ≤ page then mm
    else mmpMarkPages allocated n (page + 1) (mmpSetPage mm allocated page)

/-- `MmpMarkRange`. -/
def mmpMarkRange (mm : MmState) (base length : U64) (allocated : Bool) : MmState :=
  if length = 0 ∨ mm.trackedPages = 0 then mm
  else
    let start := mmpAlignUp base 4096
    let stop := mmpAlignDown (base + length) 4096
    if stop.toNat ≤ start.toNat then mm
    else
      mmpMarkPages allocated (stop.toNat / mmPageSize - start.toNat / mmPageSize)
        (start.toNat / mmPageSize) mm

/-- The loop of `MmpMarkUsableFromBootInfo`, with `n` entries to go and the cursor at `cursor`. -/
def mmpMarkEntries (map : MemoryMap) (entrySize : U32) : ℕ → U64 → MmState → MmState
  | 0, _, mm => mm
  | n + 1, cursor, mm =>
    let range := map cursor
    let mm := if mmpIsRangeUsable range then mmpMarkRange mm range.base range.length false else mm
    mmpMarkEntries map entrySize n (cursor + entrySize.setWidth 64) mm

/-- `MmpMarkUsableFromBootInfo`. -/
def mmpMarkUsableFromBootInfo (map : MemoryMap) (bootInfo : BootInfo) (mm : MmState) : MmState :=
  if bootInfo.memoryMap = 0 ∨ bootInfo.memoryMapEntrySize = 0 then mm
  else
    mmpMarkEntries map bootInfo.memoryMapEntrySize bootInfo.memoryMapEntryCount.toNat
      bootInfo.memoryMap mm

/-- There is an init image to reserve. -/
def BootInfo.hasInitImage (bootInfo : BootInfo) : Bool :=
  hasFlag bootInfo.flags bootinfoFlagInitImagePresent && bootInfo.initImageBase != 0 &&
    bootInfo.initImageSize != 0

/-- The size of the memory map in bytes. -/
def BootInfo.mapBytes (bootInfo : BootInfo) : U64 :=
  bootInfo.memoryMapEntryCount.setWidth 64 * bootInfo.memoryMapEntrySize.setWidth 64

/-- `MmpReserveBootCriticalRanges`. -/
def mmpReserveBootCriticalRanges (bootInfo : BootInfo) (mm : MmState) : MmState :=
  let mm := mmpMarkRange mm 0 0x100000 true
  let mm := mmpMarkRange mm bootInfo.kernelBase bootInfo.kernelSize true
  let mm := mmpMarkRange mm bootInfo.loaderBase 0x200000 true
  let mm := if bootInfo.hasInitImage then
      mmpMarkRange mm bootInfo.initImageBase bootInfo.initImageSize true
    else mm
  let mm := mmpMarkRange mm bootInfo.address sizeofBootInfo true
  mmpMarkRange mm bootInfo.memoryMap bootInfo.mapBytes true

/-- `MmpCloneKernelRootTable`. -/
def mmpCloneKernelRootTable (mm : MmState) : MmState × Except KStatus Unit :=
  if mm.cr3 &&& mmPteAddrMask = 0 then (mm, .error .invalidParameter)
  else
    match mmpAllocPageInternal mm 1 with
    | (mm, .error _) => (mm, .error .initFailed)
    | (mm, .ok newRoot) =>
      let mm := mm.fillFrame (pteFrame newRoot) (mm.mem (pteFrame mm.cr3))
      ({ mm with kernelRootTablePhysical := newRoot, cr3 := newRoot }, .ok ())

/-- The index of the entry for `va` in a table of a level, the root being at level 0. -/
def tableIndex (va : U64) (level : ℕ) : TableIx :=
  ⟨(va >>> (39 - 9 * level)).toNat % 512, Nat.mod_lt _ (by decide)⟩

/-- The inner loop of `MmpBuildKernelPhysmap`: large pages from the `j`-th of the directory `pd`
on, with `n` to go. -/
def mmpMapLargePages (pd : ℕ) (offset mappedBytes : ℕ) : ℕ → ℕ → MmState → MmState
  | 0, _, mm => mm
  | n + 1, j, mm =>
    let pa := offset + j * 0x200000
    if pa < mappedBytes then
      mmpMapLargePages pd offset mappedBytes n (j + 1)
        (mm.writeEntry pd (tableIndex (mmPhysmapBase + BitVec.ofNat 64 pa) 2)
          (BitVec.ofNat 64 pa ||| mmPtePresent ||| mmPteWritable ||| mmPteLarge ||| mmPteNx))
    else mm

/-- The outer loop of `MmpBuildKernelPhysmap`: a directory for each GiB from the `k`-th on, with
`n` to go. -/
def mmpMapDirectories (pdpt : ℕ) (mappedBytes : ℕ) :
    ℕ → ℕ → MmState → MmState × Except KStatus Unit
  | 0, _, mm => (mm, .ok ())
  | n + 1, k, mm =>
    let offset := k * 0x40000000
    if offset < mappedBytes then
      let l3 := tableIndex (mmPhysmapBase + BitVec.ofNat 64 offset) 1
      let go (mm : MmState) := mmpMapDirectories pdpt mappedBytes n (k + 1)
        (mmpMapLargePages (pteFrame (mm.mem pdpt l3)) offset mappedBytes 512 0 mm)
      if hasFlag (mm.mem pdpt l3) mmPtePresent then go mm
      else
        match mmpAllocPageInternal mm 1 with
        | (mm, .error _) => (mm, .error .initFailed)
        | (mm, .ok pd) =>
          go ((mm.fillFrame (pteFrame pd) fun _ => 0).writeEntry pdpt l3
            (pd ||| mmPtePresent ||| mmPteWritable))
    else (mm, .ok ())

/-- The size of the direct map. -/
def physmapSize (mm : MmState) : U64 := mmpAlignUp (pageAddress mm.trackedPages) 0x200000

/-- The end of `MmpBuildKernelPhysmap`. -/
def physmapOnline : MmState × Except KStatus Unit → MmState × Except KStatus Unit
  | (mm, .error e) => (mm, .error e)
  | (mm, .ok _) => ({ mm with physmapReady := true }, .ok ())

/-- `MmpBuildKernelPhysmap`. The outer loop runs at most once for each entry of its table. -/
def mmpBuildKernelPhysmap (mm : MmState) : MmState × Except KStatus Unit :=
  if mm.kernelRootTablePhysical = 0 then (mm, .error .invalidParameter)
  else
    let mm := { mm with physmapBase := mmPhysmapBase, physmapBytes := physmapSize mm }
    match mmpAllocPageInternal mm 1 with
    | (mm, .error _) => (mm, .error .initFailed)
    | (mm, .ok pdpt) =>
      let mm := (mm.fillFrame (pteFrame pdpt) fun _ => 0).writeEntry
        (pteFrame mm.kernelRootTablePhysical) (tableIndex mmPhysmapBase 0)
        (pdpt ||| mmPtePresent ||| mmPteWritable)
      physmapOnline (mmpMapDirectories (pteFrame pdpt) (physmapSize mm).toNat 512 0 mm)

/-- The state of the bitmap and the pools that `MmInitialize` starts from. -/
def mmPrepare (mm : MmState) (physicalMemoryTop : U64) : MmState :=
  { mm with
    trackedPages := min (physicalMemoryTop.toNat / mmPageSize) mmMaxTrackedPages
    trackedPages_le := Nat.min_le_right _ _
    nextScanPage := 0
    nextAddressSpaceId := 1
    faultTraceNext := 0
    physmapReady := false
    physmapBase := mmPhysmapBase
    physmapBytes := 0
    sectionType := none
    pageBitmap := fun _ => 0xFFFFFFFFFFFFFFFF
    pageRefCount := fun _ => 0
    addressSpaceInUse := fun _ => false
    sectionInUse := fun _ => false }

/-- `MmInitialize`, with what `NkGetBootInfo`, `HalQueryPlatformInfo` and `ObCreateType` give.
Registering the page-fault routine has no effect here. -/
def mmInitialize (mm : MmState) (bootInfo : Option BootInfo) (map : MemoryMap)
    (physicalMemoryTop : U64) (sectionType : Except KStatus TypeRef) :
    MmState × Except KStatus Unit :=
  if mm.ready then (mm, .error .alreadyInitialized)
  else
    match bootInfo with
    | none => (mm, .error .invalidParameter)
    | some bootInfo =>
      if bootInfo.magic ≠ bootinfoMagic then (mm, .error .invalidParameter)
      else
        let mm := mmpMarkUsableFromBootInfo map bootInfo (mmPrepare mm physicalMemoryTop)
        let mm := mmpReserveBootCriticalRanges bootInfo mm
        match mmpCloneKernelRootTable mm with
        | (mm, .error _) => (mm, .error .initFailed)
        | (mm, .ok _) =>
          match mmpBuildKernelPhysmap mm with
          | (mm, .error _) => (mm, .error .initFailed)
          | (mm, .ok _) =>
            match sectionType with
            | .error _ => (mm, .error .initFailed)
            | .ok t => ({ mm with sectionType := some t, ready := true }, .ok ())

/-! ## Initialization gives no page back -/

theorem mmpCloneKernelRootTable_keeps (mm : MmState) :
    KeepsPages mm (mmpCloneKernelRootTable mm).1 := by
  rw [mmpCloneKernelRootTable]
  split
  · exact .refl mm
  have hkeep := KeepsPages.mmpAllocPageInternal mm 1
  generalize mmpAllocPageInternal mm 1 = r at hkeep ⊢
  obtain ⟨mm₁, e | pa⟩ := r
  · exact hkeep
  · exact hkeep.trans (.of_eq rfl rfl)

theorem mmpMapLargePages_keeps (pd offset mappedBytes n j : ℕ) (mm : MmState) :
    KeepsPages mm (mmpMapLargePages pd offset mappedBytes n j mm) := by
  induction n generalizing j mm with
  | zero => exact .refl mm
  | succ n ih =>
    rw [mmpMapLargePages]
    split
    · refine KeepsPages.trans ?_ (ih _ _)
      exact .of_eq rfl rfl
    · exact .refl mm

theorem mmpMapDirectories_keeps (pdpt mappedBytes n k : ℕ) (mm : MmState) :
    KeepsPages mm (mmpMapDirectories pdpt mappedBytes n k mm).1 := by
  induction n generalizing k mm with
  | zero => exact .refl mm
  | succ n ih =>
    rw [mmpMapDirectories]
    dsimp only
    split
    · split
      · exact (mmpMapLargePages_keeps ..).trans (ih _ _)
      · have hkeep := KeepsPages.mmpAllocPageInternal mm 1
        generalize mmpAllocPageInternal mm 1 = r at hkeep ⊢
        obtain ⟨mm₁, e | pa⟩ := r
        · exact hkeep
        · dsimp only at hkeep ⊢
          refine hkeep.trans (KeepsPages.trans ?_ ((mmpMapLargePages_keeps ..).trans (ih _ _)))
          exact .of_eq rfl rfl
    · exact .refl mm

theorem physmapOnline_keeps {mm : MmState} {r : MmState × Except KStatus Unit}
    (h : KeepsPages mm r.1) : KeepsPages mm (physmapOnline r).1 := by
  obtain ⟨mm', e | _⟩ := r
  · exact h
  · exact h.trans (.of_eq rfl rfl)

theorem mmpBuildKernelPhysmap_keeps (mm : MmState) :
    KeepsPages mm (mmpBuildKernelPhysmap mm).1 := by
  rw [mmpBuildKernelPhysmap]
  split
  · exact .refl mm
  dsimp only
  generalize hmm₁ : { mm with physmapBase := mmPhysmapBase, physmapBytes := physmapSize mm } = mm₁
  have hfirst : KeepsPages mm mm₁ := by
    rw [← hmm₁]
    exact .of_eq rfl rfl
  have hkeep := KeepsPages.mmpAllocPageInternal mm₁ 1
  generalize mmpAllocPageInternal mm₁ 1 = r at hkeep ⊢
  obtain ⟨mm₂, e | pa⟩ := r
  · exact hfirst.trans hkeep
  dsimp only at hkeep ⊢
  refine physmapOnline_keeps (hfirst.trans (hkeep.trans (KeepsPages.trans ?_
    (mmpMapDirectories_keeps ..))))
  exact .of_eq rfl rfl

end NtxKernel.Mm
