import NtxKernel.Mm.Init

/-!
# Memory in use since boot

Which pages `MmInitialize` leaves to the allocator. `MmpMarkRange` both frees the usable ranges and
reserves the critical ones, and in both uses it rounds the range inward.

* `RangeMarks base length page`: `MmpMarkRange` reaches the page. For a range that does not wrap,
  these are the pages wholly inside it.
* `allocated_reserved`: after the reservations a tracked page is allocated exactly when no usable
  entry marks it or a critical range does.
* `boot_critical_reserved_iff`: the pages that overlap a critical range are kept from the allocator
  exactly when each of them is marked by one, or by no usable entry.
-/

namespace NtxKernel.Mm

open Foundations Ob

/-! ## Marking -/

/-- The pages that `MmpMarkRange` reaches, as far as they are tracked. -/
def RangeMarks (base length : U64) (page : ℕ) : Prop :=
  length ≠ 0 ∧ (mmpAlignUp base 4096).toNat / mmPageSize ≤ page ∧
    page < (mmpAlignDown (base + length) 4096).toNat / mmPageSize
  deriving Decidable

/-- For a range that does not wrap, the pages wholly inside it. -/
theorem rangeMarks_iff {base length : U64} (hbase : base.toNat + 4095 < 2 ^ 64)
    (hstop : base.toNat + length.toNat < 2 ^ 64) (page : ℕ) :
    RangeMarks base length page ↔
      base.toNat ≤ page * 4096 ∧ (page + 1) * 4096 ≤ base.toNat + length.toNat := by
  have hsum : (base + length).toNat = base.toNat + length.toNat := by
    rw [BitVec.toNat_add, Nat.mod_eq_of_lt hstop]
  have hzero : length ≠ 0 ↔ length.toNat ≠ 0 := by
    rw [Ne, Ne, ← BitVec.toNat_inj]
    rfl
  have hstart : (base.toNat + 4095) / 4096 * 4096 / 4096 ≤ page ↔ base.toNat ≤ page * 4096 := by
    omega
  have hend : page < (base.toNat + length.toNat) / 4096 * 4096 / 4096 ↔
      (page + 1) * 4096 ≤ base.toNat + length.toNat := by
    omega
  rw [RangeMarks, mmpAlignUp_toNat hbase, mmpAlignDown_toNat, hsum, hzero, hstart, hend]
  omega

theorem trackedPages_setPage (mm : MmState) (allocated : Bool) (page : ℕ) :
    (mmpSetPage mm allocated page).trackedPages = mm.trackedPages := by
  rw [mmpSetPage]
  split <;> rfl

theorem mmpIsPageAllocated_setPage (mm : MmState) (allocated : Bool) (page page' : ℕ) :
    mmpIsPageAllocated (mmpSetPage mm allocated page) page' =
      if page' = page then allocated else mmpIsPageAllocated mm page' := by
  rw [mmpSetPage]
  cases allocated
  · rw [if_neg Bool.false_ne_true, mmpIsPageAllocated_setPageFree]
    split <;> simp_all
  · rw [if_pos rfl, mmpIsPageAllocated_setPageAllocated]
    split <;> simp_all

/-- The loop writes the bits of the tracked pages it counts through. -/
theorem mmpMarkPages_spec (allocated : Bool) (n page : ℕ) (mm : MmState) :
    (mmpMarkPages allocated n page mm).trackedPages = mm.trackedPages ∧
      ∀ page', mmpIsPageAllocated (mmpMarkPages allocated n page mm) page' =
        if page ≤ page' ∧ page' < page + n ∧ page' < mm.trackedPages then allocated
        else mmpIsPageAllocated mm page' := by
  induction n generalizing page mm with
  | zero =>
    refine ⟨rfl, fun page' => ?_⟩
    rw [mmpMarkPages, if_neg (by omega)]
  | succ n ih =>
    rw [mmpMarkPages]
    by_cases hpage : mm.trackedPages ≤ page
    · rw [if_pos hpage]
      refine ⟨rfl, fun page' => ?_⟩
      rw [if_neg (by omega)]
    rw [if_neg hpage]
    obtain ⟨htracked, hall⟩ := ih (page + 1) (mmpSetPage mm allocated page)
    rw [trackedPages_setPage] at htracked hall
    refine ⟨htracked, fun page' => ?_⟩
    rw [hall, mmpIsPageAllocated_setPage]
    by_cases heq : page' = page
    · subst heq
      rw [if_neg (by omega), if_pos rfl, if_pos (by omega)]
    · rw [if_neg heq]
      refine if_congr ?_ rfl rfl
      omega

/-- `MmpMarkRange` writes the bits of the tracked pages it reaches. -/
theorem mmpMarkRange_spec (mm : MmState) (base length : U64) (allocated : Bool) :
    (mmpMarkRange mm base length allocated).trackedPages = mm.trackedPages ∧
      ∀ page < mm.trackedPages, mmpIsPageAllocated (mmpMarkRange mm base length allocated) page =
        if RangeMarks base length page then allocated else mmpIsPageAllocated mm page := by
  rw [mmpMarkRange]
  by_cases hzero : length = 0 ∨ mm.trackedPages = 0
  · rw [if_pos hzero]
    refine ⟨rfl, fun page hpage => ?_⟩
    have hnot : ¬RangeMarks base length page := fun h => by
      rcases hzero with hzero | hzero
      · exact h.1 hzero
      · omega
    rw [if_neg hnot]
  rw [if_neg hzero]
  dsimp only
  by_cases hle : (mmpAlignDown (base + length) 4096).toNat ≤ (mmpAlignUp base 4096).toNat
  · rw [if_pos hle]
    refine ⟨rfl, fun page hpage => ?_⟩
    have hnot : ¬RangeMarks base length page := fun h => by
      have hdiv := Nat.div_le_div_right (c := mmPageSize) hle
      have := h.2.1
      have := h.2.2
      omega
    rw [if_neg hnot]
  rw [if_neg hle]
  obtain ⟨htracked, hall⟩ := mmpMarkPages_spec allocated
    ((mmpAlignDown (base + length) 4096).toNat / mmPageSize -
      (mmpAlignUp base 4096).toNat / mmPageSize) ((mmpAlignUp base 4096).toNat / mmPageSize) mm
  refine ⟨htracked, fun page hpage => ?_⟩
  rw [hall]
  refine if_congr ?_ rfl rfl
  rw [RangeMarks]
  have hlength : length ≠ 0 := fun h => hzero (.inl h)
  constructor
  · rintro ⟨hstart, hstop, -⟩
    exact ⟨hlength, hstart, by omega⟩
  · rintro ⟨-, hstart, hstop⟩
    exact ⟨hstart, by omega, hpage⟩

/-! ## The two passes -/

/-- The address of the `i`-th entry of the memory map. -/
def BootInfo.entryAddress (bootInfo : BootInfo) (i : ℕ) : U64 :=
  bootInfo.memoryMap + BitVec.ofNat 64 i * bootInfo.memoryMapEntrySize.setWidth 64

/-- The entry that lies at `cursor` is usable and marks the page. -/
def EntryMarks (map : MemoryMap) (cursor : U64) (page : ℕ) : Prop :=
  mmpIsRangeUsable (map cursor) = true ∧ RangeMarks (map cursor).base (map cursor).length page
  deriving Decidable

/-- A usable entry of the memory map marks the page. -/
def UsablePage (map : MemoryMap) (bootInfo : BootInfo) (page : ℕ) : Prop :=
  bootInfo.memoryMap ≠ 0 ∧ bootInfo.memoryMapEntrySize ≠ 0 ∧
    ∃ i < bootInfo.memoryMapEntryCount.toNat, EntryMarks map (bootInfo.entryAddress i) page

/-- The ranges in use since boot, with their sizes. -/
def BootInfo.criticalRanges (bootInfo : BootInfo) : List (U64 × U64) :=
  [(0, 0x100000), (bootInfo.kernelBase, bootInfo.kernelSize), (bootInfo.loaderBase, 0x200000)] ++
    (if bootInfo.hasInitImage then [(bootInfo.initImageBase, bootInfo.initImageSize)] else []) ++
    [(bootInfo.address, sizeofBootInfo), (bootInfo.memoryMap, bootInfo.mapBytes)]

theorem mmpMarkEntries_spec (map : MemoryMap) (entrySize : U32) (n : ℕ) (cursor : U64)
    (mm : MmState) :
    (mmpMarkEntries map entrySize n cursor mm).trackedPages = mm.trackedPages ∧
      ∀ page < mm.trackedPages,
        (mmpIsPageAllocated (mmpMarkEntries map entrySize n cursor mm) page = true ↔
          mmpIsPageAllocated mm page = true ∧ ∀ i < n,
            ¬EntryMarks map (cursor + BitVec.ofNat 64 i * entrySize.setWidth 64) page) := by
  induction n generalizing cursor mm with
  | zero => exact ⟨rfl, fun page _ => by simp [mmpMarkEntries]⟩
  | succ n ih =>
    rw [mmpMarkEntries]
    generalize hmm : (if mmpIsRangeUsable (map cursor) = true then
      mmpMarkRange mm (map cursor).base (map cursor).length false else mm) = mm'
    have hmark : mm'.trackedPages = mm.trackedPages ∧ ∀ page < mm.trackedPages,
        (mmpIsPageAllocated mm' page = true ↔
          mmpIsPageAllocated mm page = true ∧ ¬EntryMarks map cursor page) := by
      subst hmm
      by_cases husable : mmpIsRangeUsable (map cursor) = true
      · rw [if_pos husable]
        obtain ⟨htracked, hall⟩ := mmpMarkRange_spec mm (map cursor).base (map cursor).length false
        refine ⟨htracked, fun page hpage => ?_⟩
        rw [hall page hpage, EntryMarks]
        split <;> simp_all
      · rw [if_neg husable]
        exact ⟨rfl, fun page _ => by simp [EntryMarks, husable]⟩
    obtain ⟨htracked, hall⟩ := ih (cursor + entrySize.setWidth 64) mm'
    refine ⟨htracked.trans hmark.1, fun page hpage => ?_⟩
    have hnext : ∀ i : ℕ, cursor + entrySize.setWidth 64 +
        BitVec.ofNat 64 i * entrySize.setWidth 64 =
          cursor + BitVec.ofNat 64 (i + 1) * entrySize.setWidth 64 := by
      intro i
      rw [BitVec.ofNat_add, BitVec.add_mul, BitVec.add_assoc,
        BitVec.add_comm (entrySize.setWidth 64)]
      simp
    have hfirst : cursor + BitVec.ofNat 64 0 * entrySize.setWidth 64 = cursor := by simp
    rw [hall page (hmark.1 ▸ hpage), hmark.2 page hpage, and_assoc]
    refine and_congr_right fun _ => ⟨?_, ?_⟩
    · rintro ⟨hzero, hrest⟩ i hi
      rcases i with _ | i
      · rwa [hfirst]
      · rw [← hnext]
        exact hrest i (by omega)
    · intro h
      refine ⟨hfirst ▸ h 0 (Nat.succ_pos n), fun i hi => ?_⟩
      rw [hnext]
      exact h (i + 1) (by omega)

/-- The first pass frees the tracked pages that a usable entry marks. -/
theorem mmpMarkUsableFromBootInfo_spec (map : MemoryMap) (bootInfo : BootInfo) (mm : MmState) :
    (mmpMarkUsableFromBootInfo map bootInfo mm).trackedPages = mm.trackedPages ∧
      ∀ page < mm.trackedPages,
        (mmpIsPageAllocated (mmpMarkUsableFromBootInfo map bootInfo mm) page = true ↔
          mmpIsPageAllocated mm page = true ∧ ¬UsablePage map bootInfo page) := by
  rw [mmpMarkUsableFromBootInfo]
  by_cases hnone : bootInfo.memoryMap = 0 ∨ bootInfo.memoryMapEntrySize = 0
  · rw [if_pos hnone]
    refine ⟨rfl, fun page _ => (and_iff_left ?_).symm⟩
    rintro ⟨hmap, hsize, -⟩
    exact hnone.elim hmap hsize
  · rw [if_neg hnone]
    obtain ⟨htracked, hall⟩ := mmpMarkEntries_spec map bootInfo.memoryMapEntrySize
      bootInfo.memoryMapEntryCount.toNat bootInfo.memoryMap mm
    refine ⟨htracked, fun page hpage => ?_⟩
    rw [hall page hpage, UsablePage]
    refine and_congr_right fun _ => ⟨?_, ?_⟩
    · rintro h ⟨-, -, i, hi, hmarks⟩
      exact h i hi hmarks
    · intro h i hi hmarks
      exact h ⟨fun h0 => hnone (.inl h0), fun h0 => hnone (.inr h0), i, hi, hmarks⟩

/-- Reserving a list of ranges. -/
theorem foldl_mmpMarkRange_spec (ranges : List (U64 × U64)) (mm : MmState) :
    (ranges.foldl (fun mm r => mmpMarkRange mm r.1 r.2 true) mm).trackedPages =
        mm.trackedPages ∧
      ∀ page < mm.trackedPages,
        (mmpIsPageAllocated (ranges.foldl (fun mm r => mmpMarkRange mm r.1 r.2 true) mm) page =
            true ↔
          mmpIsPageAllocated mm page = true ∨ ∃ r ∈ ranges, RangeMarks r.1 r.2 page) := by
  induction ranges generalizing mm with
  | nil => exact ⟨rfl, fun page _ => by simp⟩
  | cons r ranges ih =>
    rw [List.foldl_cons]
    obtain ⟨htracked, hall⟩ := mmpMarkRange_spec mm r.1 r.2 true
    obtain ⟨htracked', hall'⟩ := ih (mmpMarkRange mm r.1 r.2 true)
    refine ⟨htracked'.trans htracked, fun page hpage => ?_⟩
    rw [hall' page (htracked ▸ hpage), hall page hpage]
    by_cases hr : RangeMarks r.1 r.2 page
    · rw [if_pos hr]
      exact iff_of_true (.inl rfl) (.inr ⟨r, List.mem_cons_self, hr⟩)
    · rw [if_neg hr]
      simp [hr]

/-- The second pass reserves the critical ranges. -/
theorem mmpReserveBootCriticalRanges_eq (bootInfo : BootInfo) (mm : MmState) :
    mmpReserveBootCriticalRanges bootInfo mm =
      bootInfo.criticalRanges.foldl (fun mm r => mmpMarkRange mm r.1 r.2 true) mm := by
  rw [mmpReserveBootCriticalRanges, BootInfo.criticalRanges, List.foldl_append, List.foldl_append]
  cases bootInfo.hasInitImage <;>
    simp only [List.foldl_cons, List.foldl_nil, if_true, if_false, Bool.false_eq_true]

/-- The state after both passes. -/
def bootReserved (mm : MmState) (bootInfo : BootInfo) (map : MemoryMap) (top : U64) : MmState :=
  mmpReserveBootCriticalRanges bootInfo (mmpMarkUsableFromBootInfo map bootInfo (mmPrepare mm top))

theorem trackedPages_bootReserved (mm : MmState) (bootInfo : BootInfo) (map : MemoryMap)
    (top : U64) :
    (bootReserved mm bootInfo map top).trackedPages = (mmPrepare mm top).trackedPages := by
  rw [bootReserved, mmpReserveBootCriticalRanges_eq, (foldl_mmpMarkRange_spec _ _).1,
    (mmpMarkUsableFromBootInfo_spec _ _ _).1]

/-- A tracked page is allocated then when no usable entry marks it or a critical range does. -/
theorem allocated_bootReserved (mm : MmState) (bootInfo : BootInfo) (map : MemoryMap) (top : U64)
    {page : ℕ} (hpage : page < (mmPrepare mm top).trackedPages) :
    mmpIsPageAllocated (bootReserved mm bootInfo map top) page = true ↔
      ¬UsablePage map bootInfo page ∨ ∃ r ∈ bootInfo.criticalRanges, RangeMarks r.1 r.2 page := by
  obtain ⟨htracked, husable⟩ := mmpMarkUsableFromBootInfo_spec map bootInfo (mmPrepare mm top)
  have hfull : mmpIsPageAllocated (mmPrepare mm top) page = true := by
    have hand : BitVec.allOnes 64 &&& pageBit page = pageBit page := BitVec.allOnes_and
    refine hasFlag_iff.2 (ne_of_eq_of_ne ?_ (pageBit_ne_zero page))
    exact hand
  rw [bootReserved, mmpReserveBootCriticalRanges_eq,
    (foldl_mmpMarkRange_spec _ _).2 page (htracked ▸ hpage), husable page hpage, hfull]
  simp

/-! ## Keeping the critical ranges from the allocator -/

/-- A byte of the range lies in the page. -/
def Overlaps (base length : U64) (page : ℕ) : Prop :=
  ∃ byte, base.toNat ≤ byte ∧ byte < base.toNat + length.toNat ∧ byte / mmPageSize = page

/-- A byte of a critical range lies in the page. -/
def BootInfo.Critical (bootInfo : BootInfo) (page : ℕ) : Prop :=
  ∃ r ∈ bootInfo.criticalRanges, Overlaps r.1 r.2 page

/-- The tracked page is allocated after both passes, and no run of `MmAllocPage` after a successful
`MmInitialize` returns it. -/
def KeptFromAllocator (mm : MmState) (bootInfo : BootInfo) (map : MemoryMap) (top : U64)
    (page : ℕ) : Prop :=
  mmpIsPageAllocated (bootReserved mm bootInfo map top) page = true ∧
    ∀ sectionType mm' addresses mm'',
      mmInitialize mm (some bootInfo) map top sectionType = (mm', .ok ()) →
        Run AllocStep mm' addresses mm'' → pageAddress page ∉ addresses

/-- A successful initialization tracks and keeps what the two passes left. -/
theorem mmInitialize_keeps {mm mm' : MmState} {bootInfo : BootInfo} {map : MemoryMap} {top : U64}
    {sectionType : Except KStatus TypeRef}
    (h : mmInitialize mm (some bootInfo) map top sectionType = (mm', .ok ())) :
    KeepsPages (bootReserved mm bootInfo map top) mm' := by
  rw [mmInitialize] at h
  split at h
  · cases h
  dsimp only at h
  split at h
  · cases h
  rw [← bootReserved] at h
  have hclone := mmpCloneKernelRootTable_keeps (bootReserved mm bootInfo map top)
  generalize mmpCloneKernelRootTable (bootReserved mm bootInfo map top) = r at h hclone
  obtain ⟨mm₁, e | _⟩ := r
  · cases h
  dsimp only at h hclone
  have hphysmap := mmpBuildKernelPhysmap_keeps mm₁
  generalize mmpBuildKernelPhysmap mm₁ = r at h hphysmap
  obtain ⟨mm₂, e | _⟩ := r
  · cases h
  dsimp only at h hphysmap
  rcases sectionType with e | t
  · cases h
  · cases h
    exact hclone.trans (hphysmap.trans (.of_eq rfl rfl))

/-- Every tracked page that overlaps a critical range is kept from the allocator exactly when each
such page is marked by a critical range, perhaps another, or by no usable entry. -/
theorem boot_critical_reserved_iff (mm : MmState) (bootInfo : BootInfo) (map : MemoryMap)
    (top : U64) :
    (∀ page < (mmPrepare mm top).trackedPages, bootInfo.Critical page →
        KeptFromAllocator mm bootInfo map top page) ↔
      ∀ page < (mmPrepare mm top).trackedPages, bootInfo.Critical page →
        (∃ r ∈ bootInfo.criticalRanges, RangeMarks r.1 r.2 page) ∨
          ¬UsablePage map bootInfo page := by
  constructor
  · intro h page hpage hcritical
    exact ((allocated_bootReserved mm bootInfo map top hpage).1 (h page hpage hcritical).1).symm
  · intro h page hpage hcritical
    have hallocated := (allocated_bootReserved mm bootInfo map top hpage).2
      (h page hpage hcritical).symm
    refine ⟨hallocated, fun sectionType mm' addresses mm'' hinit hrun => ?_⟩
    have hkeep := mmInitialize_keeps hinit
    refine not_mem_of_run_allocStep hrun (hkeep.allocated page hallocated) ?_
    rw [hkeep.trackedPages, trackedPages_bootReserved]
    exact hpage

/-- The memory manager before `MmInitialize`, all zero. -/
def MmState.zero : MmState where
  pageBitmap _ := 0
  pageRefCount _ := 0
  trackedPages := 0
  trackedPages_le := Nat.zero_le _
  nextScanPage := 0
  ready := false
  addressSpacePool _ := ⟨0, 0, 0, 0, 0, fun _ => ⟨0, 0, 0, 0, 0, 0, 0, none, 0⟩⟩
  addressSpaceInUse _ := false
  nextAddressSpaceId := 0
  kernelRootTablePhysical := 0
  sectionType := none
  sectionPool _ := ⟨none, 0, fun _ => 0⟩
  sectionInUse _ := false
  faultTrace _ := ⟨0, 0, 0, 0, 0, .success⟩
  faultTraceNext := 0
  physmapBase := 0
  physmapBytes := 0
  physmapReady := false
  mem _ _ := 0
  cr3 := 0

/-- A memory map with one usable range, from 1 MiB to 4 MiB. -/
def smallMap : MemoryMap := fun _ => ⟨0x100000, 0x300000, efiLoaderData⟩

/-- An init image of 2 KiB inside one page of that range. -/
def smallBootInfo : BootInfo where
  address := 0x201000
  magic := bootinfoMagic
  flags := bootinfoFlagInitImagePresent
  loaderBase := 0x400000
  kernelBase := 0x100000
  kernelSize := 0x100000
  initImageBase := 0x200018
  initImageSize := 0x800
  memoryMap := 0x202018
  memoryMapEntryCount := 1
  memoryMapEntrySize := 24

/-- The page of the init image is left to the allocator. -/
theorem init_image_page_left_free :
    ¬∀ page < (mmPrepare .zero 0x400000).trackedPages, smallBootInfo.Critical page →
      KeptFromAllocator .zero smallBootInfo smallMap 0x400000 page := by
  intro h
  have hcritical : smallBootInfo.Critical 0x200 :=
    ⟨(0x200018, 0x800), by decide, 0x200018, by decide, by decide, by decide⟩
  have hpage : 0x200 < (mmPrepare .zero 0x400000).trackedPages := by decide
  have husable : UsablePage smallMap smallBootInfo 0x200 :=
    ⟨by decide, by decide, 0, by decide, by decide⟩
  have hmarks : ¬∃ r ∈ smallBootInfo.criticalRanges, RangeMarks r.1 r.2 0x200 := by decide
  rcases (allocated_bootReserved .zero smallBootInfo smallMap 0x400000 hpage).1
    (h 0x200 hpage hcritical).1 with hunusable | hmarked
  · exact hunusable husable
  · exact hmarks hmarked

end NtxKernel.Mm
