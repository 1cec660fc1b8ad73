import NtxKernel.Basic
import NtxKernel.Foundations.Bits
import NtxKernel.Foundations.Cyclic
import NtxKernel.Foundations.Run
import NtxKernel.Ob.Objects

/-!
# Physical pages

The state of the memory manager of `kernel/mm/init.c` and its page allocator: a bitmap of the
tracked pages, a reference count for each and a cursor for the next-fit search.

`mem` is physical memory, a frame at a time, as the page-table entries or the data words that lie
in it. The kernel reaches it through its direct map (`MmpPhysToVirtTable`, `MmpPhysToVirtPage`);
which frames that map covers is a question of its own. Page numbers and frame numbers are natural
numbers: they come from a physical address by a division.
-/

namespace NtxKernel.Mm

open Foundations Ob

/-- `MM_PAGE_SIZE`. -/
abbrev mmPageSize : ℕ := 4096

/-- `MM_MAX_TRACKED_PAGES`. -/
abbrev mmMaxTrackedPages : ℕ := 262144

/-- `MM_BITMAP_WORD_BITS`. -/
abbrev mmBitmapWordBits : ℕ := 64

/-- `MM_MAX_ADDRESS_SPACES`. -/
abbrev mmMaxAddressSpaces : ℕ := 64

/-- `MM_MAX_VA_REGIONS`. -/
abbrev mmMaxVaRegions : ℕ := 128

/-- `MM_MAX_SECTION_OBJECTS`. -/
abbrev mmMaxSectionObjects : ℕ := 64

/-- `MM_MAX_SECTION_PAGES`. -/
abbrev mmMaxSectionPages : ℕ := 256

/-- `MM_FAULT_TRACE_DEPTH`. -/
abbrev mmFaultTraceDepth : ℕ := 64

def mmUserTop : U64 := 0x0000800000000000
def mmUserBase : U64 := 0x0000000040000000

/-- `MM_PHYSMAP_BASE`. -/
def mmPhysmapBase : U64 := 0xFFFF900000000000

/-! ## Page-table entries -/

def mmPtePresent : U64 := 0x001
def mmPteWritable : U64 := 0x002
def mmPteUser : U64 := 0x004
def mmPteLarge : U64 := 0x080
def mmPteSoftCow : U64 := 0x200
def mmPteNx : U64 := 0x8000000000000000
def mmPteAddrMask : U64 := 0x000FFFFFFFFFF000

/-- The index of an entry in a page table. -/
abbrev TableIx := Fin 512

/-- The frame an entry names, `(Entry & MM_PTE_ADDR_MASK) / MM_PAGE_SIZE`. -/
def pteFrame (entry : U64) : ℕ := (entry &&& mmPteAddrMask).toNat / mmPageSize

/-- The address of a page, `(uint64_t)Page * MM_PAGE_SIZE`. -/
def pageAddress (page : ℕ) : U64 := BitVec.ofNat 64 (page * mmPageSize)

theorem mmPteAddrMask_eq : mmPteAddrMask = lowMask 64 40 <<< 12 := by decide

theorem pteFrame_eq (entry : U64) : pteFrame entry = entry.toNat / 2 ^ 12 % 2 ^ 40 := by
  rw [pteFrame, mmPteAddrMask_eq, toNat_and_shiftLeft_lowMask _ (by decide)]
  exact Nat.mul_div_cancel _ (by decide)

theorem pteFrame_lt (entry : U64) : pteFrame entry < 2 ^ 40 := by
  rw [pteFrame_eq]
  exact Nat.mod_lt _ (by decide)

theorem toNat_pageAddress {page : ℕ} (h : page < 2 ^ 52) :
    (pageAddress page).toNat = page * mmPageSize := by
  have hmul : page * 4096 < 2 ^ 64 := by omega
  rw [pageAddress, BitVec.toNat_ofNat, Nat.mod_eq_of_lt hmul]

/-- An entry built from the address of a page names the page. -/
theorem pteFrame_pageAddress {page : ℕ} (h : page < 2 ^ 40) : pteFrame (pageAddress page) = page := by
  have hdiv : page * 4096 / 2 ^ 12 = page := by omega
  rw [pteFrame_eq, toNat_pageAddress (by omega), hdiv, Nat.mod_eq_of_lt h]

/-- Flags do not change the frame. -/
theorem pteFrame_or {entry flags : U64} (h : flags &&& mmPteAddrMask = 0) :
    pteFrame (entry ||| flags) = pteFrame entry := by
  rw [pteFrame, or_and_of_disjoint h, pteFrame]

theorem pteFrame_and_not {entry flags : U64} (h : flags &&& mmPteAddrMask = 0) :
    pteFrame (entry &&& ~~~flags) = pteFrame entry := by
  rw [pteFrame, and_not_and_of_disjoint h, pteFrame]

theorem pteFrame_and_mask (entry : U64) : pteFrame (entry &&& mmPteAddrMask) = pteFrame entry := by
  rw [pteFrame, BitVec.and_assoc, BitVec.and_self, pteFrame]

/-! ## Alignment -/

/-- `MmpAlignUp`, for an alignment that is not zero. -/
def mmpAlignUp (value alignment : U64) : U64 := (value + alignment - 1) &&& ~~~(alignment - 1)

/-- `MmpAlignDown`, for an alignment that is not zero. -/
def mmpAlignDown (value alignment : U64) : U64 := value &&& ~~~(alignment - 1)

theorem mmpAlignDown_toNat (value : U64) :
    (mmpAlignDown value 4096).toNat = value.toNat / 4096 * 4096 :=
  toNat_and_not_lowMask value 12

theorem mmpAlignUp_toNat {value : U64} (h : value.toNat + 4095 < 2 ^ 64) :
    (mmpAlignUp value 4096).toNat = (value.toNat + 4095) / 4096 * 4096 := by
  have hsum : mmpAlignUp value 4096 = (value + lowMask 64 12) &&& ~~~lowMask 64 12 := by
    have hadd : value + 4096 - 1 = value + lowMask 64 12 := by
      rw [lowMask]
      bv_omega
    rw [mmpAlignUp, hadd]
    rfl
  rw [hsum]
  exact toNat_add_and_not_lowMask value (by decide) h

/-! ## The state -/

/-- `MM_VA_REGION`. The backing object is a pointer to an object header, or null. -/
structure MmVaRegion where
  base : U64
  size : U64
  type : U32
  protection : U32
  flags : U32
  committedPages : U32
  backingPhysicalBase : U64
  backingObject : Option ObjectRef
  backingOffset : U64
  deriving DecidableEq

/-- `MM_ADDRESS_SPACE`. -/
structure MmAddressSpace where
  addressSpaceId : U64
  ownerProcessId : U64
  rootTablePhysical : U64
  nextUserBase : U64
  regionCount : ℕ
  regions : Fin mmMaxVaRegions → MmVaRegion

/-- `MM_SECTION_OBJECT`. -/
structure MmSectionObject where
  header : Option ObjectRef
  pageCount : ℕ
  pages : Fin mmMaxSectionPages → U64

/-- `MM_SECTION_OBJECT *`, a slot of `gMmSectionPool`. -/
abbrev SectionRef := Fin mmMaxSectionObjects

/-- `MM_FAULT_TRACE`. -/
structure MmFaultTrace where
  faultAddress : U64
  instructionPointer : U64
  errorCode : U64
  processId : U64
  addressSpaceId : U64
  outcome : KStatus
  deriving DecidableEq

/-- The globals of the memory manager, physical memory and the control register `cr3`. -/
structure MmState where
  pageBitmap : ℕ → U64
  pageRefCount : ℕ → U32
  trackedPages : ℕ
  trackedPages_le : trackedPages ≤ mmMaxTrackedPages
  nextScanPage : ℕ
  ready : Bool
  addressSpacePool : AddressSpaceRef → MmAddressSpace
  addressSpaceInUse : AddressSpaceRef → Bool
  nextAddressSpaceId : U64
  kernelRootTablePhysical : U64
  sectionType : Option TypeRef
  sectionPool : SectionRef → MmSectionObject
  sectionInUse : SectionRef → Bool
  faultTrace : Fin mmFaultTraceDepth → MmFaultTrace
  faultTraceNext : U32
  physmapBase : U64
  physmapBytes : U64
  physmapReady : Bool
  mem : ℕ → TableIx → U64
  cr3 : U64

namespace MmState

/-- Write an entry of the table in the frame `f`. -/
def writeEntry (mm : MmState) (f : ℕ) (i : TableIx) (entry : U64) : MmState :=
  { mm with mem := Function.update mm.mem f (Function.update (mm.mem f) i entry) }

/-- Write the whole frame `f`. -/
def fillFrame (mm : MmState) (f : ℕ) (words : TableIx → U64) : MmState :=
  { mm with mem := Function.update mm.mem f words }

/-- Write to the address space `a`. -/
def modifyAddressSpace (mm : MmState) (a : AddressSpaceRef)
    (f : MmAddressSpace → MmAddressSpace) : MmState :=
  { mm with addressSpacePool :=
      Function.update mm.addressSpacePool a (f (mm.addressSpacePool a)) }

/-- Write to the section `s`. -/
def modifySection (mm : MmState) (s : SectionRef) (f : MmSectionObject → MmSectionObject) :
    MmState :=
  { mm with sectionPool := Function.update mm.sectionPool s (f (mm.sectionPool s)) }

/-- Write a reference count. -/
def setRefCount (mm : MmState) (page : ℕ) (count : U32) : MmState :=
  { mm with pageRefCount := Function.update mm.pageRefCount page count }

end MmState

/-! ## The bitmap -/

/-- The bit of a page in its word of the bitmap. -/
def pageBit (page : ℕ) : U64 := (1 : U64) <<< (page % mmBitmapWordBits)

/-- `MmpSetPageAllocated`. -/
def mmpSetPageAllocated (mm : MmState) (page : ℕ) : MmState :=
  let word := page / mmBitmapWordBits
  { mm with pageBitmap := Function.update mm.pageBitmap word (mm.pageBitmap word ||| pageBit page) }

/-- `MmpSetPageFree`. -/
def mmpSetPageFree (mm : MmState) (page : ℕ) : MmState :=
  let word := page / mmBitmapWordBits
  { mm with
    pageBitmap := Function.update mm.pageBitmap word (mm.pageBitmap word &&& ~~~pageBit page) }

/-- `MmpIsPageAllocated`. -/
def mmpIsPageAllocated (mm : MmState) (page : ℕ) : Bool :=
  hasFlag (mm.pageBitmap (page / mmBitmapWordBits)) (pageBit page)

/-! ## The allocator -/

/-- Hand out the free page `page`: its bit, its reference count and the cursor. -/
def MmState.takePage (mm : MmState) (page : ℕ) (count : U32) : MmState :=
  { (mmpSetPageAllocated mm page).setRefCount page count with
    nextScanPage := (page + 1) % mm.trackedPages }

/-- `MmpAllocPageInternal`. -/
def mmpAllocPageInternal (mm : MmState) (initialRefCount : U32) :
    MmState × Except KStatus U64 :=
  if mm.trackedPages = 0 then (mm, .error .invalidParameter)
  else
    match cyclicFind (fun page => !mmpIsPageAllocated mm page) mm.trackedPages mm.nextScanPage
        mm.trackedPages 0 with
    | some page => (mm.takePage page initialRefCount, .ok (pageAddress page))
    | none => (mm, .error .initFailed)

/-- `MmAllocPage`. -/
def mmAllocPage (mm : MmState) : MmState × Except KStatus U64 :=
  if mm.ready = false then (mm, .error .invalidParameter) else mmpAllocPageInternal mm 1

/-- `MmFreePage`. -/
def mmFreePage (mm : MmState) (physicalAddress : U64) : MmState × Except KStatus Unit :=
  if mm.ready = false ∨ physicalAddress.toNat % mmPageSize ≠ 0 then (mm, .error .invalidParameter)
  else
    let page := physicalAddress.toNat / mmPageSize
    if mm.trackedPages ≤ page then (mm, .error .invalidParameter)
    else if mmpIsPageAllocated mm page = false then (mm, .error .invalidParameter)
    else (mmpSetPageFree (mm.setRefCount page 0) page, .ok ())

/-- `MmpRetainPage`. -/
def mmpRetainPage (mm : MmState) (physicalAddress : U64) : MmState :=
  let page := physicalAddress.toNat / mmPageSize
  if page < mmMaxTrackedPages ∧ mm.pageRefCount page ≠ 0 then
    mm.setRefCount page (mm.pageRefCount page + 1)
  else mm

/-- `MmpReleasePage`. -/
def mmpReleasePage (mm : MmState) (physicalAddress : U64) : MmState :=
  let page := physicalAddress.toNat / mmPageSize
  if mmMaxTrackedPages ≤ page ∨ mm.pageRefCount page = 0 then mm
  else
    let mm := mm.setRefCount page (mm.pageRefCount page - 1)
    if mm.pageRefCount page = 0 then mmpSetPageFree mm page else mm

/-! ## What the bitmap says -/

theorem getLsbD_pageBit (page i : ℕ) :
    (pageBit page).getLsbD i = decide (i = page % 64) := by
  have hone : (1 : U64) = BitVec.twoPow 64 0 := by decide
  rw [pageBit, hone, BitVec.getLsbD_shiftLeft, BitVec.getLsbD_twoPow]
  by_cases hlt : i < page % 64
  · have hne : ¬i = page % 64 := by omega
    simp [hlt, hne]
  · by_cases heq : i = page % 64
    · simp [heq, Nat.mod_lt]
    · have hne : ¬0 = i - page % 64 := by omega
      simp [heq, hne]

theorem pageBit_ne_zero (page : ℕ) : pageBit page ≠ 0 := by
  intro h
  have hbit := getLsbD_pageBit page (page % 64)
  rw [h] at hbit
  simp at hbit

/-- Different pages of one word have different bits. -/
theorem pageBit_and_pageBit {page page' : ℕ} (h : page ≠ page')
    (hword : page / mmBitmapWordBits = page' / mmBitmapWordBits) :
    pageBit page &&& pageBit page' = 0 := by
  have hmod : page % 64 ≠ page' % 64 := by
    have hdiv : page / 64 = page' / 64 := hword
    omega
  refine BitVec.eq_of_getLsbD_eq fun i _ => ?_
  rw [BitVec.getLsbD_and, getLsbD_pageBit, getLsbD_pageBit]
  by_cases heq : i = page % 64
  · simp [heq, hmod]
  · simp [heq]

theorem mmpIsPageAllocated_congr {mm mm' : MmState} (h : mm'.pageBitmap = mm.pageBitmap)
    (page : ℕ) : mmpIsPageAllocated mm' page = mmpIsPageAllocated mm page := by
  rw [mmpIsPageAllocated, h, mmpIsPageAllocated]

theorem mmpIsPageAllocated_setPageAllocated (mm : MmState) (page page' : ℕ) :
    mmpIsPageAllocated (mmpSetPageAllocated mm page) page' =
      (decide (page' = page) || mmpIsPageAllocated mm page') := by
  simp only [mmpIsPageAllocated, mmpSetPageAllocated]
  by_cases hword : page' / mmBitmapWordBits = page / mmBitmapWordBits
  · rw [hword, Function.update_self]
    by_cases hpage : page' = page
    · have hself : hasFlag (pageBit page) (pageBit page) = true := by
        rw [hasFlag_iff, BitVec.and_self]
        exact pageBit_ne_zero page
      rw [hpage, hasFlag_or, hself]
      simp
    · rw [hasFlag_or_of_disjoint (pageBit_and_pageBit (Ne.symm hpage) hword.symm)]
      simp [hpage]
  · have hpage : page' ≠ page := fun heq => hword (heq ▸ rfl)
    rw [Function.update_of_ne hword]
    simp [hpage]

theorem mmpIsPageAllocated_setPageFree (mm : MmState) (page page' : ℕ) :
    mmpIsPageAllocated (mmpSetPageFree mm page) page' =
      (!decide (page' = page) && mmpIsPageAllocated mm page') := by
  simp only [mmpIsPageAllocated, mmpSetPageFree]
  by_cases hword : page' / mmBitmapWordBits = page / mmBitmapWordBits
  · rw [hword, Function.update_self]
    by_cases hpage : page' = page
    · rw [hpage, hasFlag_and_not_self]
      simp
    · rw [hasFlag_and_not_of_disjoint (pageBit_and_pageBit (Ne.symm hpage) hword.symm)]
      simp [hpage]
  · have hpage : page' ≠ page := fun heq => hword (heq ▸ rfl)
    rw [Function.update_of_ne hword]
    simp [hpage]

/-! ## What the allocator does -/

namespace MmState

variable (mm : MmState) (page page' : ℕ) (count : U32)

@[simp]
theorem allocated_takePage : mmpIsPageAllocated (mm.takePage page count) page' =
    (decide (page' = page) || mmpIsPageAllocated mm page') :=
  mmpIsPageAllocated_setPageAllocated mm page page'

@[simp]
theorem pageRefCount_takePage :
    (mm.takePage page count).pageRefCount = Function.update mm.pageRefCount page count := rfl

@[simp]
theorem mem_takePage : (mm.takePage page count).mem = mm.mem := rfl

@[simp]
theorem trackedPages_takePage : (mm.takePage page count).trackedPages = mm.trackedPages := rfl

@[simp]
theorem ready_takePage : (mm.takePage page count).ready = mm.ready := rfl

end MmState

/-- The allocator finds no free page and changes nothing, or hands out a free page. -/
theorem mmpAllocPageInternal_cases (mm : MmState) (count : U32) :
    ((∀ page < mm.trackedPages, mmpIsPageAllocated mm page = true) ∧
        ∃ e, mmpAllocPageInternal mm count = (mm, .error e)) ∨
      ∃ page < mm.trackedPages, mmpIsPageAllocated mm page = false ∧
        mmpAllocPageInternal mm count = (mm.takePage page count, .ok (pageAddress page)) := by
  rw [mmpAllocPageInternal]
  by_cases hzero : mm.trackedPages = 0
  · rw [if_pos hzero]
    exact .inl ⟨fun page hpage => by omega, _, rfl⟩
  rw [if_neg hzero]
  rcases hfind : cyclicFind (fun page => !mmpIsPageAllocated mm page) mm.trackedPages
    mm.nextScanPage mm.trackedPages 0 with _ | page
  · refine .inl ⟨fun page hpage => ?_, _, rfl⟩
    simpa using cyclicFind_turn_eq_none.1 hfind page hpage
  · obtain ⟨hlt, hfree⟩ := cyclicFind_sound hfind
    exact .inr ⟨page, hlt, by simpa using hfree, rfl⟩

/-- The same for `MmAllocPage`. -/
theorem mmAllocPage_cases (mm : MmState) :
    (∃ e, mmAllocPage mm = (mm, .error e)) ∨
      ∃ page < mm.trackedPages, mmpIsPageAllocated mm page = false ∧ mm.ready = true ∧
        mmAllocPage mm = (mm.takePage page 1, .ok (pageAddress page)) := by
  rw [mmAllocPage]
  by_cases hready : mm.ready = false
  · rw [if_pos hready]
    exact .inl ⟨_, rfl⟩
  rw [if_neg hready]
  rcases mmpAllocPageInternal_cases mm 1 with ⟨-, e, heq⟩ | ⟨page, hlt, hfree, heq⟩
  · exact .inl ⟨e, heq⟩
  · exact .inr ⟨page, hlt, hfree, by simpa using hready, heq⟩

/-- No page is given back between two states. -/
structure KeepsPages (mm mm' : MmState) : Prop where
  trackedPages : mm'.trackedPages = mm.trackedPages
  allocated : ∀ page, mmpIsPageAllocated mm page = true → mmpIsPageAllocated mm' page = true

namespace KeepsPages

variable {mm mm' mm'' : MmState}

theorem refl (mm : MmState) : KeepsPages mm mm := ⟨rfl, fun _ h => h⟩

theorem trans (h : KeepsPages mm mm') (h' : KeepsPages mm' mm'') : KeepsPages mm mm'' :=
  ⟨h'.trackedPages.trans h.trackedPages, fun page hp => h'.allocated page (h.allocated page hp)⟩

/-- Only the bitmap matters. -/
theorem of_eq (htracked : mm'.trackedPages = mm.trackedPages)
    (hbitmap : mm'.pageBitmap = mm.pageBitmap) : KeepsPages mm mm' :=
  ⟨htracked, fun page hp => (mmpIsPageAllocated_congr hbitmap page).trans hp⟩

theorem takePage (mm : MmState) (page : ℕ) (count : U32) :
    KeepsPages mm (mm.takePage page count) :=
  ⟨rfl, fun page' hp => by simp [hp]⟩

theorem mmpAllocPageInternal (mm : MmState) (count : U32) :
    KeepsPages mm (mmpAllocPageInternal mm count).1 := by
  rcases mmpAllocPageInternal_cases mm count with ⟨-, e, heq⟩ | ⟨page, -, -, heq⟩ <;> rw [heq]
  · exact refl mm
  · exact takePage mm page count

end KeepsPages

/-! ## Runs of the allocator -/

/-- A call of `MmAllocPage` that returns the page at `physicalAddress`. -/
def AllocStep (mm : MmState) (physicalAddress : U64) (mm' : MmState) : Prop :=
  mmAllocPage mm = (mm', .ok physicalAddress)

/-- A page that is allocated is not returned by any run of `MmAllocPage`. -/
theorem not_mem_of_run_allocStep {mm mm' : MmState} {addresses : List U64}
    (h : Run AllocStep mm addresses mm') {page : ℕ} (hpage : mmpIsPageAllocated mm page = true)
    (hlt : page < mm.trackedPages) : pageAddress page ∉ addresses := by
  induction h with
  | nil => exact List.not_mem_nil
  | @cons mm mm₁ mm₂ address addresses hstep _ ih =>
    rcases mmAllocPage_cases mm with ⟨e, heq⟩ | ⟨page', hlt', hfree, -, heq⟩
    · cases hstep.symm.trans heq
    · cases hstep.symm.trans heq
      have hkeep := (KeepsPages.takePage mm page' 1).allocated page hpage
      intro hmem
      rcases List.mem_cons.1 hmem with heq | hmem
      · have hpages : page = page' := by
          have hbound : mm.trackedPages ≤ 262144 := mm.trackedPages_le
          have hnat := congrArg BitVec.toNat heq
          rw [toNat_pageAddress (by omega), toNat_pageAddress (by omega)] at hnat
          exact Nat.eq_of_mul_eq_mul_right (by decide) hnat
        rw [hpages, hfree] at hpage
        cases hpage
      · exact ih hkeep hlt hmem

end NtxKernel.Mm
