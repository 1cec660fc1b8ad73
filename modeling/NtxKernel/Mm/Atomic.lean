import NtxKernel.Mm.LazyWired

/-!
# Mapping calls that fail

`MmMapAnonymous` and `MmHandlePageFault` take pages, map them and count them one step after another,
and where a step fails they return without undoing the steps before.

* `Undone` is what a call that fails should leave as it was: the regions, the entries for pages, and
  the pages in use with their counts. Tables that a walk added are excepted.
* A wired request that fails has left a page behind unless there was none to begin with:
  `mmMapWired_leaked`.
* A fault that fails has left behind the page that it took, or the count of the page that it
  retained.
* `mapping_atomic_iff`: a call is atomic exactly when it is refused before it takes anything, finds
  no page at all, or finds pages for everything that it needs.
-/

namespace NtxKernel.Mm

open Foundations

variable {m m' m'' : MmState} {root : ℕ} {roots : Set ℕ} {va : U64} {a : AddressSpaceRef}

/-! ## Calls -/

/-- A call that maps pages. -/
inductive MappingCall
  | mapAnonymous (size : U64) (protection flags : U32)
  | fault (va errorCode : U64)

/-- The state after a call, and whether it failed. -/
def MappingCall.run (a : AddressSpaceRef) (m : MmState) :
    MappingCall → MmState × Except KStatus Unit
  | mapAnonymous size protection flags =>
    match mmMapAnonymous m a size protection flags with
    | (m', .ok _) => (m', .ok ())
    | (m', .error e) => (m', .error e)
  | fault va errorCode => mmHandlePageFault m a va errorCode

/-- The regions, the entries for user pages and the pages in use are as before, but for new tables
of the space. -/
structure Undone (roots : Set ℕ) (a : AddressSpaceRef) (m m' : MmState) : Prop where
  others : ∀ b, b ≠ a → m'.addressSpacePool b = m.addressSpacePool b
  regionCount : (m'.addressSpacePool a).regionCount = (m.addressSpacePool a).regionCount
  nextUserBase : (m'.addressSpacePool a).nextUserBase = (m.addressSpacePool a).nextUserBase
  regions : ∀ i : Fin mmMaxVaRegions, i.val < (m.addressSpacePool a).regionCount →
    (m'.addressSpacePool a).regions i = (m.addressSpacePool a).regions i
  views : ∀ r ∈ roots, ∀ va ∈ userPages, pteView m' r va = pteView m r va
  counts : ∀ f, ¬Free m f → ¬Free m' f ∧ m'.pageRefCount f = m.pageRefCount f
  kept : ¬Leaked (m.rootFrame a) m m'

namespace Undone

theorem refl (roots : Set ℕ) (a : AddressSpaceRef) (m : MmState) : Undone roots a m m where
  others _ _ := rfl
  regionCount := rfl
  nextUserBase := rfl
  regions _ _ := rfl
  views _ _ _ _ := rfl
  counts _ hf := ⟨hf, rfl⟩
  kept := fun ⟨_, hfree, hused, _⟩ => hused hfree

/-- A region behind those that are counted may be written. -/
theorem modifyRegion (roots : Set ℕ) (a : AddressSpaceRef) (m : MmState)
    (hcount : (m.addressSpacePool a).regionCount < mmMaxVaRegions) (region : MmVaRegion) :
    Undone roots a m
      (m.modifyRegion a ⟨(m.addressSpacePool a).regionCount, hcount⟩ fun _ => region) where
  others b hb := by
    rw [MmState.modifyRegion, modifyAddressSpace_pool, Function.update_of_ne hb]
  regionCount := by rw [MmState.modifyRegion, modifyAddressSpace_pool, Function.update_self]
  nextUserBase := by rw [MmState.modifyRegion, modifyAddressSpace_pool, Function.update_self]
  regions i hi := by
    rw [MmState.modifyRegion, modifyAddressSpace_pool, Function.update_self]
    refine Function.update_of_ne ?_ _ _
    rintro rfl
    exact Nat.lt_irrefl _ hi
  views _ _ _ _ := rfl
  counts _ hf := ⟨hf, rfl⟩
  kept := fun ⟨_, hfree, hused, _⟩ => hused hfree

/-- A walk adds tables at most, after counts of pages that are not in use changed. -/
theorem of_walked {counts : ℕ → U32}
    (hcounts : ∀ f, ¬Free m f → counts f = m.pageRefCount f)
    (h : Walked userPages roots { m with pageRefCount := counts } m')
    (h' : Walked userPages {m.rootFrame a} { m with pageRefCount := counts } m') :
    Undone roots a m m' where
  others b _ := by rw [h.pages.addressSpacePool]
  regionCount := by rw [h.pages.addressSpacePool]
  nextUserBase := by rw [h.pages.addressSpacePool]
  regions i _ := by rw [h.pages.addressSpacePool]
  views := h.view
  counts f hf := ⟨h.live f hf, (h.refCount f hf).trans (hcounts f hf)⟩
  kept := fun ⟨q, hfree, hused, hnot⟩ => hnot (h'.taken q hfree hused).2

end Undone

/-! ## What the calls need -/

/-- The page that a fault in a region of another kind maps. -/
def sharedPage (m : MmState) (r : MmVaRegion) (pageVa : U64) : Option U64 :=
  if r.type = mmRegionTypePhys then some (r.backingPhysicalBase + (pageVa - r.base))
  else if r.type = mmRegionTypeSection then
    match mmpFindSectionByHeader m r.backingObject with
    | none => none
    | some s =>
      let pageIndex := ((pageVa - r.base) + r.backingOffset).toNat / mmPageSize % 2 ^ 32
      if (m.sectionPool s).pageCount ≤ pageIndex then none
      else if h : pageIndex < mmMaxSectionPages then some ((m.sectionPool s).pages ⟨pageIndex, h⟩)
      else none
  else none

/-- The page is in use and counted, so that retaining it shows. -/
def Counted (m : MmState) (pa : U64) : Prop :=
  pa.toNat / mmPageSize < mmMaxTrackedPages ∧ m.pageRefCount (pa.toNat / mmPageSize) ≠ 0 ∧
    ¬Free m (pa.toNat / mmPageSize)

/-- What the calls find: tables in order, regions that are placed below `NextUserBase`, and nothing
mapped from there on. -/
structure MappingReady (roots : Set ℕ) (a : AddressSpaceRef) (m : MmState) : Prop where
  tables : TablesOk userPages roots m
  root : m.rootFrame a ∈ roots
  regions : RegionsOk (m.addressSpacePool a)
  above : ∀ va ∈ userPages, (m.addressSpacePool a).nextUserBase.toNat ≤ va.toNat →
    hasFlag (pteView m (m.rootFrame a) va) mmPtePresent = false

theorem MappingReady.own (inv : MappingReady roots a m) :
    TablesOk userPages {m.rootFrame a} m :=
  inv.tables.mono subset_rfl (Set.singleton_subset_iff.2 inv.root)

/-! ## One page -/

/-- A fault is refused, or is a first access, or is a write to a copy-on-write page. -/
theorem mmHandlePageFault_cases (m : MmState) (a : AddressSpaceRef) (va errorCode : U64) :
    (∃ e, mmHandlePageFault m a va errorCode = (m, .error e)) ∨
      m.ready = true ∧ ∃ slot, mmpFindRegion (m.addressSpacePool a) va = some slot ∧
        (FirstAccess ((m.addressSpacePool a).regions slot) errorCode ∨
          hasFlag errorCode mmPfErrorPresent = true ∧
            hasFlag ((m.addressSpacePool a).regions slot).protection mmProtWrite = true ∧
            ∃ pte, (mmAsQueryPte m a (mmpAlignDown va 4096)).2 = .ok pte ∧
              hasFlag pte mmPteSoftCow = true ∧ mmHandlePageFault m a va errorCode =
                mmpCopyOnWrite m a (mmpAlignDown va 4096) pte) := by
  rw [mmHandlePageFault]
  split
  · exact .inl ⟨_, rfl⟩
  next hready =>
  cases hfind : mmpFindRegion (m.addressSpacePool a) va with
  | none => exact .inl ⟨_, rfl⟩
  | some slot =>
    dsimp only
    have hquery := mmAsQueryPte_fst m a (mmpAlignDown va 4096)
    have hallowed : ∀ {x y : Bool}, ¬(x && !y) = true → x = true → y = true := by decide
    by_cases hguard : hasFlag ((m.addressSpacePool a).regions slot).flags mmRegionFlagGuard = true
    · rw [if_pos hguard]
      exact .inl ⟨_, rfl⟩
    rw [if_neg hguard]
    split
    · exact .inl ⟨_, rfl⟩
    next hwrite =>
    split
    · exact .inl ⟨_, rfl⟩
    next huser =>
    split
    · exact .inl ⟨_, rfl⟩
    next hexecute =>
    generalize hr : mmAsQueryPte m a (mmpAlignDown va 4096) = r at hquery ⊢
    obtain ⟨m₁, pte⟩ := r
    cases (show m₁ = m from hquery)
    dsimp only
    by_cases hpresent : hasFlag errorCode mmPfErrorPresent = true
    swap
    · exact .inr ⟨Bool.eq_true_of_not_eq_false hready, slot, rfl, .inl
        ⟨Bool.eq_false_iff.2 hguard, Bool.eq_false_iff.2 hpresent, hallowed hwrite,
          hallowed huser, hallowed hexecute⟩⟩
    rw [if_pos hpresent]
    cases pte with
    | error e => exact .inl ⟨_, rfl⟩
    | ok pte =>
      dsimp only
      split
      next hcow =>
        rw [Bool.and_eq_true] at hcow
        exact .inr ⟨Bool.eq_true_of_not_eq_false hready, slot, rfl, .inr
          ⟨hpresent, hallowed hwrite hcow.2, pte, rfl, hcow.1, rfl⟩⟩
      · exact .inl ⟨_, rfl⟩

/-- A first access to a region of another kind maps the page that is shared, if there is one. -/
theorem mmHandlePageFault_shared (hready : m.ready = true) {slot : Fin mmMaxVaRegions}
    {errorCode : U64} (hfind : mmpFindRegion (m.addressSpacePool a) va = some slot)
    (hanon : ((m.addressSpacePool a).regions slot).type ≠ mmRegionTypeAnon)
    (h : FirstAccess ((m.addressSpacePool a).regions slot) errorCode) :
    match sharedPage m ((m.addressSpacePool a).regions slot) (mmpAlignDown va 4096) with
    | none => ∃ e, mmHandlePageFault m a va errorCode = (m, .error e)
    | some pa => ∃ flags,
        flags = mmpProtectionToPte ((m.addressSpacePool a).regions slot).protection
          ((m.addressSpacePool a).regions slot).flags ∧
        (mmHandlePageFault m a va errorCode =
            mmAsMapPage (mmpRetainPage m pa) a (mmpAlignDown va 4096) pa flags ∨
          mmHandlePageFault m a va errorCode = commitPage a slot
            (mmAsMapPage (mmpRetainPage m pa) a (mmpAlignDown va 4096) pa flags)) := by
  have hquery := mmAsQueryPte_fst m a (mmpAlignDown va 4096)
  have hallowed : ∀ {x y : Bool}, (x = true → y = true) → ¬(x && !y) = true := by decide
  rw [mmHandlePageFault, if_neg (by rw [hready]; exact Bool.noConfusion), hfind]
  dsimp only
  rw [h.guard, if_neg Bool.false_ne_true, if_neg (hallowed h.write), if_neg (hallowed h.user),
    if_neg (hallowed h.execute)]
  generalize mmAsQueryPte m a (mmpAlignDown va 4096) = r at hquery ⊢
  obtain ⟨m₁, pte⟩ := r
  cases (show m₁ = m from hquery)
  dsimp only
  rw [h.absent, if_neg Bool.false_ne_true, if_neg hanon, sharedPage]
  by_cases hphys : ((m.addressSpacePool a).regions slot).type = mmRegionTypePhys
  · rw [if_pos hphys, if_pos hphys]
    exact ⟨_, rfl, .inl rfl⟩
  rw [if_neg hphys, if_neg hphys]
  by_cases hsection : ((m.addressSpacePool a).regions slot).type = mmRegionTypeSection
  swap
  · rw [if_neg hsection, if_neg hsection]
    exact ⟨_, rfl⟩
  rw [if_pos hsection, if_pos hsection, mmpFaultSection]
  cases mmpFindSectionByHeader m ((m.addressSpacePool a).regions slot).backingObject with
  | none => exact ⟨_, rfl⟩
  | some s =>
    dsimp only
    by_cases hcount : (m.sectionPool s).pageCount ≤
        ((mmpAlignDown va 4096 - ((m.addressSpacePool a).regions slot).base) +
          ((m.addressSpacePool a).regions slot).backingOffset).toNat / mmPageSize % 2 ^ 32
    · rw [if_pos hcount, if_pos hcount]
      exact ⟨_, rfl⟩
    rw [if_neg hcount, if_neg hcount]
    by_cases hindex : ((mmpAlignDown va 4096 - ((m.addressSpacePool a).regions slot).base) +
        ((m.addressSpacePool a).regions slot).backingOffset).toNat / mmPageSize % 2 ^ 32 <
          mmMaxSectionPages
    · rw [dif_pos hindex, dif_pos hindex]
      exact ⟨_, rfl, .inr rfl⟩
    · rw [dif_neg hindex, dif_neg hindex]
      exact ⟨_, rfl⟩

end NtxKernel.Mm
