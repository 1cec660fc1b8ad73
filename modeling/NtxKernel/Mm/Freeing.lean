import NtxKernel.Mm.BootReserve

/-!
# Pages that are given back

Runs of `MmAllocPage` and `MmFreePage` after `MmInitialize`, with a ledger of the addresses that
were returned and not freed since.

* `PageStepOk` is the property of a call: a page is freed exactly when it is outstanding, and the
  page that is returned is none that is outstanding or was reserved, and lies in usable memory.
* `NotReserved` is a condition on a call: it does not free a page that the initialization kept from
  the allocator.
* `pages_exact_iff`: a run meets the condition at every call exactly when it has the property at
  every call.

The bitmap says the same of a page that was reserved, of one outside usable memory and of one that
was handed out, so the first two can be freed as well.
-/

namespace NtxKernel.Mm

open Foundations Ob

/-- The allocator, with the addresses that `MmAllocPage` returned and that were not freed since. -/
structure PageLedger where
  mm : MmState
  outstanding : Set U64

/-- A call of the allocator. -/
inductive PageCall
  | alloc
  | free (physicalAddress : U64)

namespace PageLedger

/-- The state after a call. -/
def perform (s : PageLedger) : PageCall → PageLedger
  | .alloc =>
    match mmAllocPage s.mm with
    | (mm, .ok pa) => ⟨mm, insert pa s.outstanding⟩
    | (mm, .error _) => ⟨mm, s.outstanding⟩
  | .free pa =>
    match mmFreePage s.mm pa with
    | (mm, .ok _) => ⟨mm, s.outstanding \ {pa}⟩
    | (mm, .error _) => ⟨mm, s.outstanding⟩

/-- A step of a run. -/
def Step (s : PageLedger) (c : PageCall) (s' : PageLedger) : Prop := s' = s.perform c

end PageLedger

/-- The page lies wholly inside a range of usable type. -/
def InsideUsable (map : MemoryMap) (bootInfo : BootInfo) (pa : U64) : Prop :=
  ∃ i < bootInfo.memoryMapEntryCount.toNat,
    mmpIsRangeUsable (map (bootInfo.entryAddress i)) = true ∧
      (map (bootInfo.entryAddress i)).base.toNat ≤ pa.toNat ∧
      pa.toNat + mmPageSize ≤ (map (bootInfo.entryAddress i)).base.toNat +
        (map (bootInfo.entryAddress i)).length.toNat

/-- The page is one that `MmInitialize` left allocated, in the state `m₀`. -/
def Reserved (m₀ : MmState) (pa : U64) : Prop :=
  pa.toNat % mmPageSize = 0 ∧ pa.toNat / mmPageSize < m₀.trackedPages ∧
    mmpIsPageAllocated m₀ (pa.toNat / mmPageSize) = true

/-- What a call should do: free exactly what is outstanding, and return a page that is neither
outstanding nor reserved and lies in usable memory. -/
def PageStepOk (map : MemoryMap) (bootInfo : BootInfo) (m₀ : MmState) (s : PageLedger) :
    PageCall → Prop
  | .alloc => ∀ mm' pa, mmAllocPage s.mm = (mm', .ok pa) →
    pa ∉ s.outstanding ∧ ¬Reserved m₀ pa ∧ InsideUsable map bootInfo pa
  | .free pa => ((mmFreePage s.mm pa).2 = .ok () ↔ pa ∈ s.outstanding) ∧
    (pa ∉ s.outstanding → (mmFreePage s.mm pa).1 = s.mm)

/-- The call does not free a reserved page. -/
def NotReserved (m₀ : MmState) : PageCall → Prop
  | .alloc => True
  | .free pa => ¬Reserved m₀ pa

/-- What a run keeps: a page is allocated when it was at first or when it is outstanding, and an
outstanding page was free at first. -/
structure LedgerInv (m₀ : MmState) (s : PageLedger) : Prop where
  ready : s.mm.ready = true
  trackedPages : s.mm.trackedPages = m₀.trackedPages
  allocated : ∀ page < m₀.trackedPages, (mmpIsPageAllocated s.mm page = true ↔
    mmpIsPageAllocated m₀ page = true ∨ pageAddress page ∈ s.outstanding)
  outstanding : ∀ pa ∈ s.outstanding, ∃ page < m₀.trackedPages, pa = pageAddress page ∧
    mmpIsPageAllocated m₀ page = false

variable {m₀ : MmState} {s s' : PageLedger} {c : PageCall} {map : MemoryMap} {bootInfo : BootInfo}

/-- The address of a tracked page, and its page. -/
theorem toNat_pageAddress_tracked {m : MmState} {page : ℕ} (hpage : page < m.trackedPages) :
    (pageAddress page).toNat = page * 4096 := by
  have hbound : m.trackedPages ≤ 262144 := m.trackedPages_le
  rw [toNat_pageAddress (by omega)]

theorem pageAddress_page {m : MmState} {page : ℕ} (hpage : page < m.trackedPages) :
    (pageAddress page).toNat % mmPageSize = 0 ∧ (pageAddress page).toNat / mmPageSize = page := by
  rw [toNat_pageAddress_tracked hpage]
  exact ⟨Nat.mul_mod_left _ _, Nat.mul_div_cancel _ (by decide)⟩

theorem pageAddress_inj {m : MmState} {page page' : ℕ} (hpage : page < m.trackedPages)
    (hpage' : page' < m.trackedPages) (h : pageAddress page = pageAddress page') :
    page = page' := by
  have hnat := congrArg BitVec.toNat h
  rw [toNat_pageAddress_tracked hpage, toNat_pageAddress_tracked hpage'] at hnat
  omega

theorem pageAddress_div {pa : U64} (h : pa.toNat % mmPageSize = 0) :
    pageAddress (pa.toNat / mmPageSize) = pa := by
  refine BitVec.eq_of_toNat_eq ?_
  have hpage : mmPageSize = 4096 := rfl
  have hlt := pa.isLt
  rw [pageAddress, BitVec.toNat_ofNat]
  rw [hpage] at h ⊢
  omega

/-- What `MmFreePage` does: it frees an allocated page, or refuses and changes nothing. -/
theorem mmFreePage_cases (m : MmState) (hready : m.ready = true) (pa : U64) :
    (Reserved m pa ∧ ∃ m', mmFreePage m pa = (m', .ok ()) ∧ m'.ready = true ∧
        m'.trackedPages = m.trackedPages ∧ ∀ page, mmpIsPageAllocated m' page =
          (!decide (page = pa.toNat / mmPageSize) && mmpIsPageAllocated m page)) ∨
      ¬Reserved m pa ∧ ∃ e, mmFreePage m pa = (m, .error e) := by
  rw [mmFreePage]
  by_cases haligned : pa.toNat % mmPageSize = 0
  swap
  · rw [if_pos (.inr haligned)]
    exact .inr ⟨fun h => haligned h.1, _, rfl⟩
  rw [if_neg (by rw [hready]; simpa using haligned)]
  dsimp only
  by_cases htracked : m.trackedPages ≤ pa.toNat / mmPageSize
  · rw [if_pos htracked]
    exact .inr ⟨fun h => absurd h.2.1 (Nat.not_lt.2 htracked), _, rfl⟩
  rw [if_neg htracked]
  by_cases hfree : mmpIsPageAllocated m (pa.toNat / mmPageSize) = false
  · rw [if_pos hfree]
    refine .inr ⟨fun h => ?_, _, rfl⟩
    have halloc := h.2.2
    rw [hfree] at halloc
    cases halloc
  rw [if_neg hfree, Bool.not_eq_false] at *
  refine .inl ⟨⟨haligned, Nat.lt_of_not_le htracked, hfree⟩, _, rfl, hready, rfl, fun page => ?_⟩
  rw [mmpIsPageAllocated_setPageFree]
  rfl

/-- Under the invariant, what can be freed is what was reserved at first or is outstanding. -/
theorem LedgerInv.reserved_iff (inv : LedgerInv m₀ s) {pa : U64} :
    Reserved s.mm pa ↔ Reserved m₀ pa ∨ pa ∈ s.outstanding := by
  constructor
  · rintro ⟨haligned, hlt, halloc⟩
    rw [inv.trackedPages] at hlt
    rcases (inv.allocated _ hlt).1 halloc with halloc | hout
    · exact Or.inl ⟨haligned, hlt, halloc⟩
    · rw [pageAddress_div haligned] at hout
      exact Or.inr hout
  · rintro (⟨haligned, hlt, halloc⟩ | hout)
    · exact ⟨haligned, inv.trackedPages ▸ hlt, (inv.allocated _ hlt).2 (Or.inl halloc)⟩
    · obtain ⟨page, hlt, rfl, -⟩ := inv.outstanding pa hout
      obtain ⟨haligned, hdiv⟩ := pageAddress_page hlt
      refine ⟨haligned, ?_, ?_⟩
      · rw [hdiv, inv.trackedPages]
        exact hlt
      · rw [hdiv]
        exact (inv.allocated page hlt).2 (Or.inr hout)

/-- An outstanding page was not reserved. -/
theorem LedgerInv.not_reserved (inv : LedgerInv m₀ s) {pa : U64} (hout : pa ∈ s.outstanding) :
    ¬Reserved m₀ pa := by
  rintro ⟨-, -, halloc⟩
  obtain ⟨page, hlt, rfl, hfree⟩ := inv.outstanding pa hout
  rw [(pageAddress_page hlt).2, hfree] at halloc
  cases halloc

/-- A call that frees no reserved page keeps the ledger. -/
theorem LedgerInv.step (inv : LedgerInv m₀ s) (hc : NotReserved m₀ c) (hstep : s.Step c s') :
    LedgerInv m₀ s' := by
  rw [PageLedger.Step] at hstep
  subst hstep
  cases c with
  | alloc =>
    rcases mmAllocPage_cases s.mm with ⟨e, heq⟩ | ⟨page, hpage, hfree, -, heq⟩
    · rw [PageLedger.perform, heq]
      exact inv
    rw [PageLedger.perform, heq]
    rw [inv.trackedPages] at hpage
    have hfirst : mmpIsPageAllocated m₀ page = false := by
      by_contra hnot
      rw [(inv.allocated page hpage).2 (Or.inl (by simpa using hnot))] at hfree
      cases hfree
    refine ⟨inv.ready, inv.trackedPages, fun page' hpage' => ?_, ?_⟩
    · rw [MmState.allocated_takePage, Bool.or_eq_true, decide_eq_true_eq, inv.allocated page' hpage',
        Set.mem_insert_iff]
      constructor
      · rintro (rfl | h | h)
        · exact Or.inr (Or.inl rfl)
        · exact Or.inl h
        · exact Or.inr (Or.inr h)
      · rintro (h | h | h)
        · exact Or.inr (Or.inl h)
        · exact Or.inl (pageAddress_inj hpage' hpage h)
        · exact Or.inr (Or.inr h)
    · rintro pa (rfl | hpa)
      · exact ⟨page, hpage, rfl, hfirst⟩
      · exact inv.outstanding pa hpa
  | free pa =>
    rcases mmFreePage_cases s.mm inv.ready pa with
      ⟨hres, m', heq, hready, htracked, halloc⟩ | ⟨-, e, heq⟩
    swap
    · rw [PageLedger.perform, heq]
      exact inv
    rw [PageLedger.perform, heq]
    have hout := (inv.reserved_iff.1 hres).resolve_left hc
    refine ⟨hready, htracked.trans inv.trackedPages, fun page hpage => ?_, ?_⟩
    · have haddress : page = pa.toNat / mmPageSize ↔ pageAddress page = pa := by
        constructor
        · rintro rfl
          exact pageAddress_div hres.1
        · rintro rfl
          exact (pageAddress_page hpage).2.symm
      rw [halloc, Bool.and_eq_true, inv.allocated page hpage, Bool.not_eq_true',
        decide_eq_false_iff_not, haddress, Set.mem_sdiff, Set.mem_singleton_iff]
      constructor
      · rintro ⟨hne, h | h⟩
        · exact Or.inl h
        · exact Or.inr ⟨h, hne⟩
      · rintro (h | ⟨h, hne⟩)
        · refine ⟨fun heq => ?_, Or.inl h⟩
          have hdiv := haddress.2 heq
          exact hc ⟨hres.1, hdiv ▸ hpage, hdiv ▸ h⟩
        · exact ⟨hne, Or.inr h⟩
    · rintro pa' ⟨hpa', -⟩
      exact inv.outstanding pa' hpa'

/-- No usable entry of the memory map starts so high that rounding it up wraps. -/
def MapRounds (map : MemoryMap) (bootInfo : BootInfo) : Prop :=
  ∀ i < bootInfo.memoryMapEntryCount.toNat,
    mmpIsRangeUsable (map (bootInfo.entryAddress i)) = true →
      (map (bootInfo.entryAddress i)).base.toNat + 4095 < 2 ^ 64

/-- A page that the first pass marks lies wholly inside the range. -/
theorem rangeMarks_inside {base length : U64} (hbase : base.toNat + 4095 < 2 ^ 64) {page : ℕ}
    (h : RangeMarks base length page) :
    base.toNat ≤ page * 4096 ∧ (page + 1) * 4096 ≤ base.toNat + length.toNat := by
  obtain ⟨-, hstart, hstop⟩ := h
  have hpage : mmPageSize = 4096 := rfl
  have hsum : (base + length).toNat ≤ base.toNat + length.toNat := by
    rw [BitVec.toNat_add]
    exact Nat.mod_le _ _
  rw [mmpAlignUp_toNat hbase, hpage] at hstart
  rw [mmpAlignDown_toNat, hpage] at hstop
  omega

/-- After a successful initialization, a page that is not reserved lies in usable memory. -/
theorem insideUsable_of_free {mm : MmState} {top : U64} {sectionType : Except KStatus TypeRef}
    (hinit : mmInitialize mm (some bootInfo) map top sectionType = (m₀, .ok ()))
    (hmap : MapRounds map bootInfo) {page : ℕ} (hpage : page < m₀.trackedPages)
    (hfree : mmpIsPageAllocated m₀ page = false) :
    InsideUsable map bootInfo (pageAddress page) := by
  have hkeep := mmInitialize_keeps hinit
  have htracked := hkeep.trackedPages.trans (trackedPages_bootReserved mm bootInfo map top)
  have hnot : ¬mmpIsPageAllocated (bootReserved mm bootInfo map top) page = true := fun h => by
    rw [hkeep.allocated page h] at hfree
    cases hfree
  rw [allocated_bootReserved mm bootInfo map top (htracked ▸ hpage), not_or, not_not] at hnot
  obtain ⟨-, -, i, hi, husable, hmarks⟩ := hnot.1
  obtain ⟨hle, hge⟩ := rangeMarks_inside (hmap i hi husable) hmarks
  have hsize : mmPageSize = 4096 := rfl
  refine ⟨i, hi, husable, ?_, ?_⟩ <;> rw [toNat_pageAddress_tracked hpage]
  · exact hle
  · omega

/-- Under the invariant, a call has the property exactly when it frees no reserved page. -/
theorem LedgerInv.pageStepOk_iff {mm : MmState} {top : U64} {sectionType : Except KStatus TypeRef}
    (inv : LedgerInv m₀ s)
    (hinit : mmInitialize mm (some bootInfo) map top sectionType = (m₀, .ok ()))
    (hmap : MapRounds map bootInfo) : NotReserved m₀ c ↔ PageStepOk map bootInfo m₀ s c := by
  cases c with
  | alloc =>
    refine iff_of_true trivial ?_
    intro mm' pa halloc
    rcases mmAllocPage_cases s.mm with ⟨e, heq⟩ | ⟨page, hpage, hfree, -, heq⟩
    · cases halloc.symm.trans heq
    cases halloc.symm.trans heq
    rw [inv.trackedPages] at hpage
    have hnot : ¬(mmpIsPageAllocated m₀ page = true ∨ pageAddress page ∈ s.outstanding) := fun h => by
      rw [(inv.allocated page hpage).2 h] at hfree
      cases hfree
    rw [not_or, Bool.not_eq_true] at hnot
    refine ⟨hnot.2, ?_, insideUsable_of_free hinit hmap hpage hnot.1⟩
    rintro ⟨-, -, hres⟩
    rw [(pageAddress_page hpage).2, hnot.1] at hres
    cases hres
  | free pa =>
    rcases mmFreePage_cases s.mm inv.ready pa with ⟨hres, m', heq, -⟩ | ⟨hnot, e, heq⟩
    · rw [PageStepOk, heq]
      constructor
      · intro hc
        have hout := (inv.reserved_iff.1 hres).resolve_left hc
        exact ⟨iff_of_true rfl hout, fun h => absurd hout h⟩
      · rintro ⟨hiff, -⟩
        exact inv.not_reserved (hiff.1 rfl)
    · rw [inv.reserved_iff, not_or] at hnot
      rw [PageStepOk, heq]
      refine iff_of_true hnot.1 ⟨⟨fun h => ?_, fun h => absurd h hnot.2⟩, fun _ => rfl⟩
      cases h

/-- After a successful `MmInitialize` from a map that rounds, a run of `MmAllocPage` and `MmFreePage`
frees no reserved page exactly when every call frees exactly what is outstanding and changes nothing
otherwise, and returns pages of usable memory that are neither outstanding nor reserved. -/
theorem pages_exact_iff (mm m₀ : MmState) (bootInfo : BootInfo) (map : MemoryMap) (top : U64)
    (sectionType : Except KStatus TypeRef)
    (hinit : mmInitialize mm (some bootInfo) map top sectionType = (m₀, .ok ()))
    (hmap : MapRounds map bootInfo) (calls : List PageCall) :
    Always PageLedger.Step (fun _ c _ => NotReserved m₀ c) ⟨m₀, ∅⟩ calls ↔
      Always PageLedger.Step (fun s c _ => PageStepOk map bootInfo m₀ s c) ⟨m₀, ∅⟩ calls := by
  have hready : m₀.ready = true := by
    rw [mmInitialize] at hinit
    split at hinit
    · cases hinit
    dsimp only at hinit
    split at hinit
    · cases hinit
    split at hinit
    · cases hinit
    split at hinit
    · cases hinit
    split at hinit
    · cases hinit
    · cases hinit
      rfl
  refine always_congr (I := LedgerInv m₀) (fun _ _ _ inv hc hstep => inv.step hc hstep)
    (fun _ _ _ inv _ => inv.pageStepOk_iff hinit hmap) ?_ calls
  exact ⟨hready, rfl, fun page _ => (or_iff_left (Set.notMem_empty _)).symm,
    fun pa hpa => absurd hpa (Set.notMem_empty pa)⟩

/-! ## Four pages of memory -/

/-- A memory map with four usable pages above the first MiB. -/
def fourPagesMap : MemoryMap := fun _ => ⟨0x100000, 0x4000, efiConventionalMemory⟩

def fourPagesBootInfo : BootInfo where
  address := 0x2000
  magic := bootinfoMagic
  flags := 0
  loaderBase := 0x400000
  kernelBase := 0x200000
  kernelSize := 0x100000
  initImageBase := 0
  initImageSize := 0
  memoryMap := 0x3000
  memoryMapEntryCount := 1
  memoryMapEntrySize := 24

/-- `MmInitialize` on that machine: it takes three of the pages for tables. -/
def fourPagesBoot : MmState × Except KStatus Unit :=
  mmInitialize { MmState.zero with cr3 := 0x1000 } (some fourPagesBootInfo) fourPagesMap 0x104000
    (.ok 0)

theorem fourPagesBoot_eq : fourPagesBoot = (fourPagesBoot.1, .ok ()) := by
  have hok : (match fourPagesBoot.2 with
    | .ok _ => true
    | .error _ => false) = true := by decide +kernel
  generalize fourPagesBoot = r at hok
  obtain ⟨m, e | _⟩ := r
  · cases hok
  · rfl

theorem pages_exact_fourPages : Always PageLedger.Step
    (fun s c _ => PageStepOk fourPagesMap fourPagesBootInfo fourPagesBoot.1 s c)
    ⟨fourPagesBoot.1, ∅⟩ [.alloc, .free 0x103000, .free 0x103000] := by
  have hfree : mmpIsPageAllocated fourPagesBoot.1 0x103 = false := by decide +kernel
  refine (pages_exact_iff { MmState.zero with cr3 := 0x1000 } fourPagesBoot.1 fourPagesBootInfo
    fourPagesMap 0x104000 (.ok 0) fourPagesBoot_eq
    (fun _ _ _ => show (0x100000 : U64).toNat + 4095 < 2 ^ 64 by decide) _).1 ?_
  have hnot : NotReserved fourPagesBoot.1 (.free 0x103000) := by
    generalize fourPagesBoot.1 = m at hfree
    rintro ⟨-, -, halloc⟩
    have halloc' : mmpIsPageAllocated m 0x103 = true := halloc
    rw [hfree] at halloc'
    cases halloc'
  exact fun _ _ => ⟨trivial, fun _ _ => ⟨hnot, fun _ _ => ⟨hnot, trivial⟩⟩⟩

/-- A page of the first MiB, which is reserved, can be freed. -/
theorem reserved_page_freed : ¬Always PageLedger.Step
    (fun s c _ => PageStepOk fourPagesMap fourPagesBootInfo fourPagesBoot.1 s c)
    ⟨fourPagesBoot.1, ∅⟩ [.free 0x1000] := by
  have hok : (match (mmFreePage fourPagesBoot.1 0x1000).2 with
    | .ok _ => true
    | .error _ => false) = true := by decide +kernel
  intro h
  have hiff := (h _ rfl).1.1
  dsimp only at hiff
  generalize (mmFreePage fourPagesBoot.1 0x1000).2 = r at hok hiff
  rcases r with e | _
  · cases hok
  · exact Set.notMem_empty _ (hiff.1 rfl)

end NtxKernel.Mm
