import Mathlib.Data.Finset.Lattice.Fold
import Mathlib.Order.Lattice.Nat
import NtxKernel.Mm.BootReserve

/-!
# The two readers of the memory map

`HalInitializePhase0` of `hal/aur64/hal_aur64.c` computes the top of physical memory from the
memory map, and `MmInitialize` tracks the pages below it and frees those of the usable entries.

* `halMemoryTop_le_iff`: the loop computes the greatest end of the entries it reads.
* `ReadersAgree`: both read the same entries, the top is the greatest end of an entry, and no page
  of a usable entry is lost.
* `readers_agree_iff`: they agree iff the entries of the map have the size of a
  `PHYSICAL_MEMORY_RANGE`, or there is at most one.
-/

namespace NtxKernel.Hal

open Mm

/-! ## The top of physical memory -/

/-- `HAL_PLATFORM_INFO`. -/
structure HalPlatformInfo where
  processorCount : U32
  timerFrequencyHz : U32
  physicalMemoryTop : U64

/-- `sizeof(PHYSICAL_MEMORY_RANGE)`. -/
def sizeofPhysicalMemoryRange : U64 := 24

/-- The address of `Ranges[i]`. -/
def rangeAddress (bootInfo : BootInfo) (i : ℕ) : U64 :=
  bootInfo.memoryMap + BitVec.ofNat 64 i * sizeofPhysicalMemoryRange

/-- The loop of `HalInitializePhase0`, from the `i`-th entry on with `n` to go. -/
def halMemoryTop (map : MemoryMap) (bootInfo : BootInfo) : ℕ → ℕ → U64 → U64
  | 0, _, top => top
  | n + 1, i, top =>
    let range := map (rangeAddress bootInfo i)
    let stop := range.base + range.length
    halMemoryTop map bootInfo n (i + 1) (if top.toNat < stop.toNat then stop else top)

/-- The part of `HalInitializePhase0` that fills `gHalPlatformInfo`. -/
def halInitializePhase0 (map : MemoryMap) (bootInfo : Option BootInfo) : HalPlatformInfo where
  processorCount := 1
  timerFrequencyHz := 1000000
  physicalMemoryTop :=
    match bootInfo with
    | none => 0
    | some bootInfo =>
      if bootInfo.memoryMap ≠ 0 ∧ 0 < bootInfo.memoryMapEntryCount.toNat then
        halMemoryTop map bootInfo bootInfo.memoryMapEntryCount.toNat 0 0
      else 0

/-- The end of the entry at an address. -/
def rangeEnd (map : MemoryMap) (cursor : U64) : U64 := (map cursor).base + (map cursor).length

/-- The loop computes the greatest end of the entries it reads. -/
theorem halMemoryTop_le_iff (map : MemoryMap) (bootInfo : BootInfo) (n i : ℕ) (top : U64)
    (bound : ℕ) :
    (halMemoryTop map bootInfo n i top).toNat ≤ bound ↔
      top.toNat ≤ bound ∧ ∀ j, i ≤ j → j < i + n →
        (rangeEnd map (rangeAddress bootInfo j)).toNat ≤ bound := by
  induction n generalizing i top with
  | zero => exact (and_iff_left fun j hle hlt => absurd hlt (Nat.not_lt.2 hle)).symm
  | succ n ih =>
    rw [halMemoryTop, ih, ← rangeEnd]
    have hgreater : (if top.toNat < (rangeEnd map (rangeAddress bootInfo i)).toNat then
        rangeEnd map (rangeAddress bootInfo i) else top).toNat ≤ bound ↔
          top.toNat ≤ bound ∧ (rangeEnd map (rangeAddress bootInfo i)).toNat ≤ bound := by
      split <;> omega
    rw [hgreater, and_assoc]
    refine and_congr_right fun _ => ⟨?_, ?_⟩
    · rintro ⟨hfirst, hrest⟩ j hle hlt
      rcases Nat.eq_or_lt_of_le hle with rfl | hlater
      · exact hfirst
      · exact hrest j hlater (by omega)
    · intro h
      exact ⟨h i (Nat.le_refl i) (by omega), fun j hle hlt => h j (by omega) (by omega)⟩

/-! ## Agreement -/

/-- The page lies wholly inside a usable entry of the map. -/
def InsideUsableEntry (map : MemoryMap) (bootInfo : BootInfo) (page : ℕ) : Prop :=
  ∃ i < bootInfo.memoryMapEntryCount.toNat,
    mmpIsRangeUsable (map (bootInfo.entryAddress i)) = true ∧
      (map (bootInfo.entryAddress i)).base.toNat ≤ page * mmPageSize ∧
      (page + 1) * mmPageSize ≤ (map (bootInfo.entryAddress i)).base.toNat +
        (map (bootInfo.entryAddress i)).length.toNat

/-- No entry of the map wraps around. -/
def NoEntryWraps (map : MemoryMap) (bootInfo : BootInfo) : Prop :=
  ∀ i < bootInfo.memoryMapEntryCount.toNat,
    (map (bootInfo.entryAddress i)).base.toNat + (map (bootInfo.entryAddress i)).length.toNat <
      2 ^ 64

/-- What the two readers of the map agree on, where `mm` is the memory manager before
`MmInitialize`. -/
structure ReadersAgree (map : MemoryMap) (bootInfo : BootInfo) (mm : MmState) : Prop where
  same_entries : ∀ i < bootInfo.memoryMapEntryCount.toNat,
    rangeAddress bootInfo i = bootInfo.entryAddress i
  top_eq : (halInitializePhase0 map (some bootInfo)).physicalMemoryTop.toNat =
    (Finset.range bootInfo.memoryMapEntryCount.toNat).sup fun i =>
      (map (bootInfo.entryAddress i)).base.toNat + (map (bootInfo.entryAddress i)).length.toNat
  usable_free : ∀ top, top = (halInitializePhase0 map (some bootInfo)).physicalMemoryTop →
    top.toNat ≤ mmMaxTrackedPages * mmPageSize → ∀ page, InsideUsableEntry map bootInfo page →
      page < (mmPrepare mm top).trackedPages ∧
        mmpIsPageAllocated (mmpMarkUsableFromBootInfo map bootInfo (mmPrepare mm top)) page = false

variable {map : MemoryMap} {bootInfo : BootInfo}

theorem toNat_rangeEnd (hwrap : NoEntryWraps map bootInfo) {i : ℕ}
    (hi : i < bootInfo.memoryMapEntryCount.toNat) :
    (rangeEnd map (bootInfo.entryAddress i)).toNat =
      (map (bootInfo.entryAddress i)).base.toNat + (map (bootInfo.entryAddress i)).length.toNat := by
  rw [rangeEnd, BitVec.toNat_add, Nat.mod_eq_of_lt (hwrap i hi)]

/-- Where the same entries are read, the top is the greatest end of an entry. -/
theorem physicalMemoryTop_eq (hmap : bootInfo.memoryMap ≠ 0) (hwrap : NoEntryWraps map bootInfo)
    (hsame : ∀ i < bootInfo.memoryMapEntryCount.toNat,
      rangeAddress bootInfo i = bootInfo.entryAddress i) :
    (halInitializePhase0 map (some bootInfo)).physicalMemoryTop.toNat =
      (Finset.range bootInfo.memoryMapEntryCount.toNat).sup fun i =>
        (map (bootInfo.entryAddress i)).base.toNat +
          (map (bootInfo.entryAddress i)).length.toNat := by
  rw [halInitializePhase0]
  dsimp only
  by_cases hcount : 0 < bootInfo.memoryMapEntryCount.toNat
  · rw [if_pos ⟨hmap, hcount⟩]
    refine eq_of_forall_ge_iff fun bound => ?_
    rw [halMemoryTop_le_iff, Finset.sup_le_iff]
    constructor
    · rintro ⟨-, h⟩ i hi
      have hlt := Finset.mem_range.1 hi
      rw [← toNat_rangeEnd hwrap hlt, ← hsame i hlt]
      exact h i (Nat.zero_le i) (by omega)
    · intro h
      refine ⟨Nat.zero_le bound, fun i _ hlt => ?_⟩
      rw [Nat.zero_add] at hlt
      rw [hsame i hlt, toNat_rangeEnd hwrap hlt]
      exact h i (Finset.mem_range.2 hlt)
  · rw [if_neg fun h => hcount h.2, Nat.eq_zero_of_not_pos hcount]
    rfl

/-- A page inside a usable entry is one that the entry marks. -/
theorem usablePage_of_inside (hmap : bootInfo.memoryMap ≠ 0)
    (hsize : 24 ≤ bootInfo.memoryMapEntrySize.toNat) (hwrap : NoEntryWraps map bootInfo)
    {page : ℕ} (h : InsideUsableEntry map bootInfo page) : UsablePage map bootInfo page := by
  obtain ⟨i, hi, husable, hstart, hstop⟩ := h
  have hpage : mmPageSize = 4096 := rfl
  have hend := hwrap i hi
  rw [hpage] at hstart hstop
  refine ⟨hmap, fun hzero => ?_, i, hi, husable, ?_⟩
  · rw [hzero] at hsize
    exact absurd hsize (by decide)
  · rw [rangeMarks_iff (by omega) hend]
    exact ⟨hstart, hstop⟩

/-- A page inside a usable entry is free where it is tracked. -/
theorem free_of_inside (hmap : bootInfo.memoryMap ≠ 0)
    (hsize : 24 ≤ bootInfo.memoryMapEntrySize.toNat) (hwrap : NoEntryWraps map bootInfo)
    {page : ℕ} (h : InsideUsableEntry map bootInfo page) (mm : MmState)
    (hpage : page < mm.trackedPages) :
    mmpIsPageAllocated (mmpMarkUsableFromBootInfo map bootInfo mm) page = false := by
  have hspec := (mmpMarkUsableFromBootInfo_spec map bootInfo mm).2 page hpage
  rw [← Bool.not_eq_true, hspec]
  exact fun hnot => hnot.2 (usablePage_of_inside hmap hsize hwrap h)

/-- The two readers of a map agree iff its entries have the size of a `PHYSICAL_MEMORY_RANGE`, or
there is at most one. -/
theorem readers_agree_iff (map : MemoryMap) (bootInfo : BootInfo) (mm : MmState)
    (hmap : bootInfo.memoryMap ≠ 0) (hsize : 24 ≤ bootInfo.memoryMapEntrySize.toNat)
    (hwrap : NoEntryWraps map bootInfo) :
    ReadersAgree map bootInfo mm ↔
      bootInfo.memoryMapEntrySize = 24 ∨ bootInfo.memoryMapEntryCount.toNat ≤ 1 := by
  constructor
  · intro h
    by_cases hcount : bootInfo.memoryMapEntryCount.toNat ≤ 1
    · exact .inr hcount
    have hsecond := h.same_entries 1 (Nat.not_le.1 hcount)
    rw [rangeAddress, BootInfo.entryAddress, BitVec.add_right_inj, BitVec.one_mul,
      BitVec.one_mul] at hsecond
    have hnat := congrArg BitVec.toNat hsecond
    rw [BitVec.toNat_setWidth_of_le (by decide)] at hnat
    exact .inl (BitVec.eq_of_toNat_eq hnat.symm)
  · intro h
    have hsame : ∀ i < bootInfo.memoryMapEntryCount.toNat,
        rangeAddress bootInfo i = bootInfo.entryAddress i := by
      intro i hi
      rcases h with h | h
      · rw [rangeAddress, BootInfo.entryAddress, h]
        rfl
      · have hzero : i = 0 := by omega
        rw [hzero, rangeAddress, BootInfo.entryAddress]
        simp
    have htop := physicalMemoryTop_eq hmap hwrap hsame
    refine ⟨hsame, htop, fun top heq hle page hinside => ?_⟩
    have htracked : page < (mmPrepare mm top).trackedPages := by
      obtain ⟨i, hi, -, -, hstop⟩ := hinside
      have hend : (map (bootInfo.entryAddress i)).base.toNat +
          (map (bootInfo.entryAddress i)).length.toNat ≤ top.toNat := by
        rw [heq, htop]
        exact Finset.le_sup (f := fun i => (map (bootInfo.entryAddress i)).base.toNat +
          (map (bootInfo.entryAddress i)).length.toNat) (Finset.mem_range.2 hi)
      have hpage : mmPageSize = 4096 := rfl
      have hmax : mmMaxTrackedPages = 262144 := rfl
      show page < min (top.toNat / mmPageSize) mmMaxTrackedPages
      rw [hpage] at hstop hle ⊢
      omega
    exact ⟨htracked, free_of_inside hmap hsize hwrap hinside _ htracked⟩

theorem readers_agree_small : ReadersAgree smallMap smallBootInfo .zero :=
  (readers_agree_iff smallMap smallBootInfo .zero (by decide) (by decide)
    (fun _ _ => show (0x100000 : U64).toNat + (0x300000 : U64).toNat < 2 ^ 64 by decide)).2 (.inl rfl)

/-- A map of two usable entries of 48 bytes each, the second one above the first. -/
def wideMap : MemoryMap := fun cursor =>
  if cursor = 0x3000 then ⟨0, 0x100000, efiConventionalMemory⟩
  else if cursor = 0x3030 then ⟨0x100000, 0x300000, efiConventionalMemory⟩
  else ⟨0, 0, 0⟩

def wideBootInfo : BootInfo :=
  { smallBootInfo with memoryMap := 0x3000, memoryMapEntryCount := 2, memoryMapEntrySize := 48 }

/-- The second entry is above the top of memory that is computed. -/
theorem wide_entries_disagree : NoEntryWraps wideMap wideBootInfo ∧
    ¬ReadersAgree wideMap wideBootInfo .zero := by
  refine ⟨by unfold NoEntryWraps; decide, fun h => ?_⟩
  have hinside : InsideUsableEntry wideMap wideBootInfo 0x100 := by
    unfold InsideUsableEntry
    decide
  have htracked := (h.usable_free _ rfl (by decide) 0x100 hinside).1
  exact absurd htracked (by decide)

end NtxKernel.Hal
