import NtxKernel.Mm.Atomic

/-!
# The rights of pages

What the page tables of an address space allow, over runs of `MmMapAnonymous`,
`MmMapSectionHandle` and `MmHandlePageFault`.

* `PteWithin` compares an entry with the protection of its region.
* `GrantsOk` is the invariant: every page that is mapped is granted, with the rights of its grant,
  and copy-on-write pages have their frame for themselves.
* `rights_within`: in every run of calls that succeed, as long as `NextUserBase` does not pass
  `MM_USER_TOP`, and of faults with any result, no page has more rights than its region.
-/

namespace NtxKernel.Mm

open Foundations Ob

/-! ## What a region grants -/

/-- The rights of an entry are within a protection, and it is not writable while it is to be
copied. -/
structure PteWithin (protection : U32) (entry : U64) : Prop where
  writable : hasFlag entry mmPteWritable = true → hasFlag protection mmProtWrite = true
  executable : hasFlag entry mmPteNx = false → hasFlag protection mmProtExecute = true
  user : hasFlag entry mmPteUser = true → hasFlag protection mmProtUser = true
  softCow : hasFlag entry mmPteSoftCow = true → hasFlag entry mmPteWritable = false

/-- The protection and the flags of the region of an address. -/
def grantOf (space : MmAddressSpace) (va : U64) : Option (U32 × U32) :=
  (mmpFindRegion space va).map fun i =>
    ((space.regions i).protection, (space.regions i).flags)

/-- The entry of a page with a grant: its rights are within the protection, a page of a region with
a guard was wired, and a page to be copied has its frame for itself. -/
structure Granted (m : MmState) (root : ℕ) (grant : U32 × U32) (entry : U64) : Prop where
  within : PteWithin grant.1 entry
  guard : hasFlag grant.2 mmRegionFlagGuard = true → hasFlag grant.2 mmRegionFlagWired = true
  alone : hasFlag entry mmPteSoftCow = true → AnonFrame m root (pteFrame entry)

/-- Every page that is mapped is granted. -/
structure GrantsOk (root : ℕ) (grants : U64 → Option (U32 × U32)) (m : MmState) : Prop where
  tables : TablesOk userPages {root} m
  sections : ∀ f, IsSectionPage m f → ¬Free m f
  granted : ∀ va ∈ userPages, hasFlag (pteView m root va) mmPtePresent = true →
    ∃ grant, grants va = some grant ∧ Granted m root grant (pteView m root va)

variable {m m' : MmState} {root : ℕ} {grants grants' : U64 → Option (U32 × U32)} {va : U64}

theorem Granted.congr {touched : Set U64} (h : Kept root touched m m') {grant : U32 × U32}
    {entry : U64} (hg : Granted m root grant entry) : Granted m' root grant entry where
  within := hg.within
  guard := hg.guard
  alone hcow := h.anonFrame (hg.alone hcow)

namespace GrantsOk

/-- More may be granted. -/
theorem mono (ok : GrantsOk root grants m)
    (hle : ∀ va grant, grants va = some grant → grants' va = some grant) :
    GrantsOk root grants' m where
  tables := ok.tables
  sections := ok.sections
  granted va hva hpresent := by
    obtain ⟨grant, hgrant, hg⟩ := ok.granted va hva hpresent
    exact ⟨grant, hle va grant hgrant, hg⟩

/-- What changes the views of some pages keeps the grants, if the new entries are granted. -/
theorem remapped (ok : GrantsOk root grants m) {touched : Set U64} (h : Kept root touched m m')
    (hnew : ∀ va ∈ userPages, va ∈ touched → ∃ grant, grants va = some grant ∧
      Granted m' root grant (pteView m' root va)) : GrantsOk root grants m' where
  tables := h.tables
  sections f hf := h.live f (ok.sections f ((h.pages.isSectionPage_iff f).1 hf))
  granted va hva hpresent := by
    by_cases htouched : va ∈ touched
    · exact hnew va hva htouched
    · rw [h.view va hva htouched] at hpresent ⊢
      obtain ⟨grant, hgrant, hg⟩ := ok.granted va hva hpresent
      exact ⟨grant, hgrant, hg.congr h⟩

theorem kept (ok : GrantsOk root grants m) (h : Kept root ∅ m m') : GrantsOk root grants m' :=
  ok.remapped h fun va _ hva => absurd hva (Set.notMem_empty va)

/-- The tables of address spaces say nothing of pages. -/
theorem of_pool (ok : GrantsOk root grants m) (pool : AddressSpaceRef → MmAddressSpace) :
    GrantsOk root grants { m with addressSpacePool := pool } where
  tables := ⟨ok.tables.tree, ok.tables.live⟩
  sections := ok.sections
  granted va hva hpresent := by
    obtain ⟨grant, hgrant, hg⟩ := ok.granted va hva hpresent
    exact ⟨grant, hgrant, hg.within, hg.guard, fun hcow =>
      have h := hg.alone hcow
      ⟨h.tracked, h.live, h.refCount, h.not_table, h.not_section⟩⟩

end GrantsOk

/-! ## The entries that are written -/

theorem hasFlag_mapEntry {pa flags bit : U64} (hbit : bit &&& mmPteAddrMask = 0)
    (hpresent : mmPtePresent &&& bit = 0) :
    hasFlag (mapEntry pa flags) bit = hasFlag flags bit := by
  have haddress : hasFlag (pa &&& mmPteAddrMask) bit = false := by
    rw [hasFlag_eq_false, BitVec.and_assoc, BitVec.and_comm mmPteAddrMask, hbit]
    exact BitVec.and_zero
  rw [mapEntry, hasFlag_or, hasFlag_or, haddress, hasFlag_eq_false.2 hpresent, Bool.false_or,
    Bool.or_false]

/-- The bits of an entry that come from a protection. -/
theorem hasFlag_mmpProtectionToPte (protection flags : U32) :
    (hasFlag (mmpProtectionToPte protection flags) mmPteWritable =
        (hasFlag protection mmProtWrite && !hasFlag flags mmRegionFlagCow)) ∧
      hasFlag (mmpProtectionToPte protection flags) mmPteUser = hasFlag protection mmProtUser ∧
      (hasFlag (mmpProtectionToPte protection flags) mmPteNx =
        !hasFlag protection mmProtExecute) ∧
      hasFlag (mmpProtectionToPte protection flags) mmPteSoftCow =
        hasFlag flags mmRegionFlagCow := by
  rw [mmpProtectionToPte]
  cases hasFlag protection mmProtWrite <;> cases hasFlag protection mmProtUser <;>
    cases hasFlag protection mmProtExecute <;> cases hasFlag flags mmRegionFlagCow <;> decide

/-- The entry that a protection makes is within it. -/
theorem pteWithin_mmpProtectionToPte (pa : U64) (protection flags : U32) :
    PteWithin protection (mapEntry pa (mmpProtectionToPte protection flags)) := by
  obtain ⟨hwrite, huser, hnx, hcow⟩ := hasFlag_mmpProtectionToPte protection flags
  constructor <;> rw [hasFlag_mapEntry (by decide) (by decide)]
  · rw [hwrite, Bool.and_eq_true]
    exact And.left
  · rw [hnx]
    exact fun h => by simpa using h
  · rw [huser]
    exact id
  · rw [hcow, hasFlag_mapEntry (by decide) (by decide), hwrite]
    rintro h
    rw [h, Bool.not_true, Bool.and_false]

/-- The entry after a copy-on-write was resolved in place is within the protection that the entry
was within, if this allows to write. -/
theorem pteWithin_resolved {protection : U32} {entry : U64} (h : PteWithin protection entry)
    (hwrite : hasFlag protection mmProtWrite = true) :
    PteWithin protection
      (mapEntry entry ((entry &&& ~~~mmPteSoftCow) ||| mmPteWritable)) := by
  have hcow : hasFlag ((entry &&& ~~~mmPteSoftCow) ||| mmPteWritable) mmPteSoftCow = false := by
    rw [hasFlag_or_of_disjoint (by decide), hasFlag_and_not_self]
  constructor <;> rw [hasFlag_mapEntry (by decide) (by decide)]
  · exact fun _ => hwrite
  · rw [hasFlag_or_of_disjoint (by decide), hasFlag_and_not_of_disjoint (by decide)]
    exact h.executable
  · rw [hasFlag_or_of_disjoint (by decide), hasFlag_and_not_of_disjoint (by decide)]
    exact h.user
  · rw [hcow]
    exact fun hfalse => absurd hfalse Bool.false_ne_true

/-- A page that was free when it was taken backs no other page. -/
theorem FreshPage.anonFrame {entry flags : U64} {page : ℕ}
    (h : FreshPage root m m' entry flags page) (hpages : OnlyMappings m m')
    (hsections : ∀ f, IsSectionPage m f → ¬Free m f) :
    AnonFrame m' root page where
  tracked := by
    rw [hpages.trackedPages]
    exact h.was_free.1
  live := h.in_use
  refCount := h.refCount
  not_table := h.not_table
  not_section hs := by
    refine hsections page ?_ h.was_free
    simpa only [IsSectionPage, sectionFrame, hpages.sectionPool, hpages.sectionInUse] using hs

/-- A fresh page that is mapped with the protection of its grant. -/
theorem FreshPage.granted {protection flags : U32} {entry : U64} {page : ℕ}
    (h : FreshPage root m m' entry (mmpProtectionToPte protection flags) page)
    (hpages : OnlyMappings m m') (hsections : ∀ f, IsSectionPage m f → ¬Free m f)
    (hguard : hasFlag flags mmRegionFlagGuard = true → hasFlag flags mmRegionFlagWired = true) :
    Granted m' root (protection, flags) entry where
  within := by
    rw [h.entry_eq]
    exact pteWithin_mmpProtectionToPte ..
  guard := hguard
  alone _ := by
    have hframe := h.anonFrame hpages hsections
    rw [h.entry_eq, pteFrame_mapEntry (mmpProtectionToPte_address protection flags),
      pteFrame_pageAddress (lt_of_lt_trackedPages h.was_free.1)]
    exact hframe

/-! ## The regions -/

/-- The regions of an address space are page aligned and lie in the user range below
`NextUserBase`, apart from each other. They may be empty. -/
structure RegionsBelow (space : MmAddressSpace) : Prop where
  base_le : mmUserBase.toNat ≤ space.nextUserBase.toNat
  next_le : space.nextUserBase.toNat ≤ mmUserTop.toNat
  next_aligned : mmPageSize ∣ space.nextUserBase.toNat
  base_aligned : ∀ i : Fin mmMaxVaRegions, i.val < space.regionCount →
    mmPageSize ∣ (space.regions i).base.toNat
  stop_aligned : ∀ i : Fin mmMaxVaRegions, i.val < space.regionCount →
    mmPageSize ∣ ((space.regions i).base + (space.regions i).size).toNat
  above : ∀ i : Fin mmMaxVaRegions, i.val < space.regionCount →
    mmUserBase.toNat ≤ (space.regions i).base.toNat
  below : ∀ i : Fin mmMaxVaRegions, i.val < space.regionCount →
    ((space.regions i).base + (space.regions i).size).toNat ≤ space.nextUserBase.toNat
  apart : ∀ i j : Fin mmMaxVaRegions, i.val < space.regionCount → j.val < space.regionCount →
    ∀ va, (space.regions i).contains va = true → (space.regions j).contains va = true → i = j

variable {space : MmAddressSpace} {i : Fin mmMaxVaRegions}

theorem MmVaRegion.contains_iff {r : MmVaRegion} : r.contains va = true ↔
    r.base.toNat ≤ va.toNat ∧ va.toNat < (r.base + r.size).toNat := by
  rw [contains, Bool.and_eq_true, decide_eq_true_eq, decide_eq_true_eq]

/-- The size of a region is a number of pages. -/
theorem mmpAlignSizeToPage_aligned (size : U64) :
    mmPageSize ∣ (mmpAlignSizeToPage size).toNat := by
  rw [mmpAlignSizeToPage]
  split
  · decide
  · have hdown : mmpAlignUp size 4096 = mmpAlignDown (size + 4096 - 1) 4096 := rfl
    rw [hdown, mmpAlignDown_toNat]
    exact Nat.dvd_mul_left _ _

/-- An address that was found stays found where one more region is added. -/
theorem mmpFindRegion_withRegion {h : space.regionCount < mmMaxVaRegions} {r : MmVaRegion}
    (hfind : mmpFindRegion space va = some i) :
    mmpFindRegion (space.withRegion h r) va = some i := by
  have hlt := (mmpFindRegion_sound hfind).1
  rw [mmpFindRegion, firstIndex_eq_some] at hfind ⊢
  have hold : ∀ j : Fin mmMaxVaRegions, j.val < space.regionCount →
      (decide (j.val < (space.withRegion h r).regionCount) &&
        ((space.withRegion h r).regions j).contains va) =
      (decide (j.val < space.regionCount) && (space.regions j).contains va) := by
    intro j hj
    have hsame : (space.withRegion h r).regions j = space.regions j := by
      refine Function.update_of_ne ?_ _ _
      rintro rfl
      exact Nat.lt_irrefl _ hj
    have hj' : j.val < (space.withRegion h r).regionCount := Nat.lt_succ_of_lt hj
    rw [hsame, decide_eq_true hj, decide_eq_true hj']
  refine ⟨(hold i hlt).trans hfind.1, fun j hj => ?_⟩
  exact (hold j (lt_trans hj hlt)).trans (hfind.2 j hj)

/-- An address of the region that is added, and of no other. -/
theorem mmpFindRegion_newRegion {h : space.regionCount < mmMaxVaRegions} {r : MmVaRegion}
    (hnone : ∀ j : Fin mmMaxVaRegions, j.val < space.regionCount →
      (space.regions j).contains va = false) (hva : r.contains va = true) :
    mmpFindRegion (space.withRegion h r) va = some ⟨space.regionCount, h⟩ := by
  rw [mmpFindRegion, firstIndex_eq_some]
  have hlast : (space.withRegion h r).regions ⟨space.regionCount, h⟩ = r :=
    Function.update_self _ _ _
  refine ⟨?_, fun j hj => ?_⟩
  · rw [hlast, hva, Bool.and_true]
    exact decide_eq_true (Nat.lt_succ_self _)
  · have hj' : j.val < space.regionCount := hj
    have hold : (space.withRegion h r).regions j = space.regions j := by
      refine Function.update_of_ne ?_ _ _
      rintro rfl
      exact Nat.lt_irrefl _ hj'
    rw [hold, hnone j hj', Bool.and_false]

/-- Grants are not taken back where one more region is added. -/
theorem grantOf_withRegion {h : space.regionCount < mmMaxVaRegions} {r : MmVaRegion}
    {grant : U32 × U32} (hgrant : grantOf space va = some grant) :
    grantOf (space.withRegion h r) va = some grant := by
  rw [grantOf, Option.map_eq_some_iff] at hgrant ⊢
  obtain ⟨i, hfind, rfl⟩ := hgrant
  have hlt := (mmpFindRegion_sound hfind).1
  have hsame : (space.withRegion h r).regions i = space.regions i := by
    refine Function.update_of_ne ?_ _ _
    rintro rfl
    exact Nat.lt_irrefl _ hlt
  exact ⟨i, mmpFindRegion_withRegion hfind, by rw [hsame]⟩

/-- The grants depend on the regions that are counted, but for the number of their committed
pages. -/
theorem grantOf_congr {space' : MmAddressSpace} (hcount : space'.regionCount = space.regionCount)
    (hregions : ∀ i, ∃ c, space'.regions i = { space.regions i with committedPages := c }) :
    grantOf space' = grantOf space := by
  have hfind : ∀ va, mmpFindRegion space' va = mmpFindRegion space va := by
    intro va
    rw [mmpFindRegion, mmpFindRegion, hcount]
    congr 1
    funext i
    obtain ⟨c, hc⟩ := hregions i
    rw [hc]
    rfl
  funext va
  rw [grantOf, grantOf, hfind]
  congr 1
  funext i
  obtain ⟨c, hc⟩ := hregions i
  rw [hc]

namespace RegionsBelow

/-- The page of an address in a region lies in the region. -/
theorem contains_mmpAlignDown (ok : RegionsBelow space) (hi : i.val < space.regionCount) :
    (space.regions i).contains (mmpAlignDown va 4096) = (space.regions i).contains va := by
  have hbase : 4096 ∣ (space.regions i).base.toNat := ok.base_aligned i hi
  have hstop : 4096 ∣ ((space.regions i).base + (space.regions i).size).toNat :=
    ok.stop_aligned i hi
  rw [Bool.eq_iff_iff, MmVaRegion.contains_iff, MmVaRegion.contains_iff, mmpAlignDown_toNat]
  omega

/-- An address and its page lie in the same region. -/
theorem find_mmpAlignDown (ok : RegionsBelow space) (va : U64) :
    mmpFindRegion space (mmpAlignDown va 4096) = mmpFindRegion space va := by
  rw [mmpFindRegion, mmpFindRegion]
  congr 1
  funext i
  by_cases hi : i.val < space.regionCount
  · rw [ok.contains_mmpAlignDown hi]
  · rw [decide_eq_false hi, Bool.false_and, Bool.false_and]

theorem lt_next (ok : RegionsBelow space) (hi : i.val < space.regionCount)
    (hva : (space.regions i).contains va = true) : va.toNat < space.nextUserBase.toNat :=
  lt_of_lt_of_le (MmVaRegion.contains_iff.1 hva).2 (ok.below i hi)

theorem mem_userPages (ok : RegionsBelow space) (hfind : mmpFindRegion space va = some i) :
    mmpAlignDown va 4096 ∈ userPages := by
  obtain ⟨hi, hva⟩ := mmpFindRegion_sound hfind
  rw [← ok.contains_mmpAlignDown hi] at hva
  have hlt := ok.lt_next hi hva
  have hle := ok.above i hi
  have hnext := ok.next_le
  have hbase := (MmVaRegion.contains_iff.1 hva).1
  refine ⟨?_, by omega, by omega⟩
  rw [mmpAlignDown_toNat]
  exact Nat.dvd_mul_left _ _

theorem congr (ok : RegionsBelow space) {space' : MmAddressSpace}
    (hcount : space'.regionCount = space.regionCount)
    (hnext : space'.nextUserBase = space.nextUserBase)
    (hregions : ∀ i, ∃ c, space'.regions i = { space.regions i with committedPages := c }) :
    RegionsBelow space' := by
  have hbase : ∀ i, (space'.regions i).base = (space.regions i).base := by
    intro i
    obtain ⟨c, hc⟩ := hregions i
    rw [hc]
  have hsize : ∀ i, (space'.regions i).size = (space.regions i).size := by
    intro i
    obtain ⟨c, hc⟩ := hregions i
    rw [hc]
  have hcontains : ∀ i va, (space'.regions i).contains va = (space.regions i).contains va := by
    intro i va
    rw [MmVaRegion.contains, MmVaRegion.contains, hbase, hsize]
  constructor <;> simp only [hcount, hnext, hbase, hsize, hcontains]
  exacts [ok.base_le, ok.next_le, ok.next_aligned, ok.base_aligned, ok.stop_aligned, ok.above,
    ok.below, ok.apart]

/-- One more region at `NextUserBase` keeps the regions in order, unless `NextUserBase` passes
`MM_USER_TOP`. -/
theorem withRegion (ok : RegionsBelow space) (h : space.regionCount < mmMaxVaRegions)
    {r : MmVaRegion} (hbase : r.base = space.nextUserBase) (hsize : mmPageSize ∣ r.size.toNat)
    (hle : space.nextUserBase.toNat ≤ (r.base + r.size).toNat)
    (htop : (r.base + r.size).toNat ≤ mmUserTop.toNat) :
    RegionsBelow (space.withRegion h r) := by
  have haligned : mmPageSize ∣ (r.base + r.size).toNat := by
    rw [BitVec.toNat_add, hbase]
    exact (Nat.dvd_mod_iff (by decide)).2 (Nat.dvd_add ok.next_aligned hsize)
  have hregion : ∀ i : Fin mmMaxVaRegions, i.val < (space.withRegion h r).regionCount →
      (i.val < space.regionCount ∧ (space.withRegion h r).regions i = space.regions i) ∨
        i = ⟨space.regionCount, h⟩ ∧ (space.withRegion h r).regions i = r := by
    intro i hi
    by_cases hlast : i = ⟨space.regionCount, h⟩
    · rw [hlast]
      exact .inr ⟨rfl, Function.update_self _ _ _⟩
    · have hi' : i.val < space.regionCount + 1 := hi
      have hne : i.val ≠ space.regionCount := fun he => hlast (Fin.ext he)
      exact .inl ⟨by omega, Function.update_of_ne hlast _ _⟩
  have hapart : ∀ (i : Fin mmMaxVaRegions) va, i.val < space.regionCount →
      (space.regions i).contains va = true → r.contains va = true → False := by
    intro i va hi hold hnew
    have hlt := ok.lt_next hi hold
    have hge := (MmVaRegion.contains_iff.1 hnew).1
    rw [hbase] at hge
    omega
  constructor
  · exact le_trans ok.base_le hle
  · exact htop
  · exact haligned
  · intro i hi
    rcases hregion i hi with ⟨hlt, heq⟩ | ⟨-, heq⟩ <;> rw [heq]
    · exact ok.base_aligned i hlt
    · rw [hbase]
      exact ok.next_aligned
  · intro i hi
    rcases hregion i hi with ⟨hlt, heq⟩ | ⟨-, heq⟩ <;> rw [heq]
    · exact ok.stop_aligned i hlt
    · exact haligned
  · intro i hi
    rcases hregion i hi with ⟨hlt, heq⟩ | ⟨-, heq⟩ <;> rw [heq]
    · exact ok.above i hlt
    · rw [hbase]
      exact ok.base_le
  · intro i hi
    rcases hregion i hi with ⟨hlt, heq⟩ | ⟨-, heq⟩ <;> rw [heq]
    · exact le_trans (ok.below i hlt) hle
    · exact le_refl _
  · intro i j hi hj va
    rcases hregion i hi with ⟨hi', heq⟩ | ⟨hi', heq⟩ <;>
      rcases hregion j hj with ⟨hj', heq'⟩ | ⟨hj', heq'⟩ <;> rw [heq, heq'] <;> intro hva hva'
    · exact ok.apart i j hi' hj' va hva hva'
    · exact (hapart i va hi' hva hva').elim
    · exact (hapart j va hj' hva' hva).elim
    · rw [hi', hj']

end RegionsBelow

/-! ## One call -/

/-- A region of anonymous memory, or a view of a section. -/
def RightsKind (r : MmVaRegion) : Prop :=
  r.type = mmRegionTypeAnon ∨ r.type = mmRegionTypeSection ∧ r.flags = mmRegionFlagLazy

/-- The pages of the address space `a` that are mapped are granted by its regions. -/
structure RightsInv (a : AddressSpaceRef) (m : MmState) : Prop where
  regions : RegionsBelow (m.addressSpacePool a)
  kinds : ∀ i : Fin mmMaxVaRegions, i.val < (m.addressSpacePool a).regionCount →
    RightsKind ((m.addressSpacePool a).regions i)
  sections : SectionsOk m
  grants : GrantsOk (m.rootFrame a) (grantOf (m.addressSpacePool a)) m

variable {a : AddressSpaceRef}

/-- The page of a section that a fault finds. -/
theorem sharedPage_section (sections : SectionsOk m) {r : MmVaRegion}
    (htype : r.type = mmRegionTypeSection) {pa : U64} (h : sharedPage m r va = some pa) :
    ∃ page < m.trackedPages, pa = pageAddress page ∧ IsSectionPage m page := by
  rw [sharedPage, if_neg (by rw [htype]; decide), if_pos htype] at h
  cases hfind : mmpFindSectionByHeader m r.backingObject with
  | none =>
    rw [hfind] at h
    cases h
  | some sec =>
    rw [hfind] at h
    dsimp only at h
    generalize (va - r.base + r.backingOffset).toNat / mmPageSize % 2 ^ 32 = index at h
    split at h
    · cases h
    next hcount =>
    split at h
    next hindex =>
      have hused := mmpFindSectionByHeader_used hfind
      have hlt : index < (m.sectionPool sec).pageCount := Nat.not_le.1 hcount
      obtain ⟨page, htracked, hpage⟩ := sections.pages sec hused ⟨index, hindex⟩ hlt
      refine ⟨page, htracked, (Option.some.inj h).symm.trans hpage, sec, index, hused, ?_⟩
      rw [sectionFrame, dif_pos ⟨hlt, hindex⟩, hpage,
        pteFrame_pageAddress (lt_of_lt_trackedPages htracked)]
    · cases h

/-- What the region in a slot grants to its pages. -/
theorem grantOf_of_find {slot : Fin mmMaxVaRegions} (hfind : mmpFindRegion space va = some slot) :
    grantOf space va = some ((space.regions slot).protection, (space.regions slot).flags) := by
  rw [grantOf, hfind, Option.map_some]

/-- Where mapping a page of zeros fails, no view changes. -/
theorem mmMapZeroPage_error_kept (ok : TablesOk userPages {root} m) (hroot : m.rootFrame a = root)
    (hva : va ∈ userPages) (habsent : hasFlag (pteView m root va) mmPtePresent = false)
    {protection flags : U32} {e : KStatus}
    (h : mmMapZeroPage m a va protection flags = (m', .error e)) : Kept root ∅ m m' := by
  rw [mmMapZeroPage] at h
  rcases mmAllocPage_cases m with ⟨e', heq⟩ | ⟨page, hpage, hfree, -, heq⟩
  · rw [heq] at h
    cases h
    exact .refl ok
  rw [heq] at h
  dsimp only at h
  rw [pteFrame_pageAddress (lt_of_lt_trackedPages hpage)] at h
  have htake := Kept.takePage ok hpage hfree fun _ => 0
  generalize (m.takePage page 1).fillFrame page (fun _ => 0) = m₁ at htake h
  rcases mmAsMapPage_absent htake.tables ((htake.pages.rootFrame a).trans hroot) hva
    (by rw [htake.view va hva (Set.notMem_empty va)]; exact habsent) (pageAddress page)
    (mmpProtectionToPte protection flags) with ⟨m₂, e', hk, heq⟩ | ⟨m₂, -, -, heq⟩
  · rw [heq] at h
    cases h
    exact htake.trans hk
  · rw [heq] at h
    cases h

/-- Mapping a page of a section where it is granted. -/
theorem GrantsOk.mapSectionPage (ok : GrantsOk root grants m) (hroot : m.rootFrame a = root)
    (hva : va ∈ userPages) (habsent : hasFlag (pteView m root va) mmPtePresent = false) {page : ℕ}
    (hpage : page < 2 ^ 40) (hsection : IsSectionPage m page) {protection flags : U32}
    (hgrant : grants va = some (protection, flags))
    (hguard : hasFlag flags mmRegionFlagGuard = false)
    (hcow : hasFlag flags mmRegionFlagCow = false) :
    GrantsOk root grants (mmAsMapPage (mmpRetainPage m (pageAddress page)) a va (pageAddress page)
      (mmpProtectionToPte protection flags)).1 := by
  have hretain : Kept root ∅ m (mmpRetainPage m (pageAddress page)) := by
    refine Kept.retain ok.tables ?_
    rw [toNat_pageAddress (by omega)]
    have hdiv : page * 4096 / mmPageSize = page := Nat.mul_div_cancel _ (by decide)
    rw [hdiv]
    exact hsection
  generalize mmpRetainPage m (pageAddress page) = m₁ at hretain ⊢
  rcases mmAsMapPage_absent hretain.tables ((hretain.pages.rootFrame a).trans hroot) hva
    (by rw [hretain.view va hva (Set.notMem_empty va)]; exact habsent) (pageAddress page)
    (mmpProtectionToPte protection flags) with ⟨m', e, hk, h⟩ | ⟨m', hk, hview, h⟩
  · rw [h]
    exact ok.kept (hretain.trans hk)
  · rw [h]
    refine (ok.kept hretain).remapped hk fun va' _ hva' => ?_
    rw [Set.mem_singleton_iff] at hva'
    rw [hva', hview]
    refine ⟨_, hgrant, pteWithin_mmpProtectionToPte .., fun hg => ?_, fun hsoft => ?_⟩
    · rw [hguard] at hg
      cases hg
    · rw [hasFlag_mapEntry (by decide) (by decide), (hasFlag_mmpProtectionToPte _ _).2.2.2, hcow]
        at hsoft
      cases hsoft

/-- A copy-on-write page has its frame for itself: it is made writable in place, where its region
allows to write. -/
theorem GrantsOk.mmpCopyOnWrite (ok : GrantsOk root grants m) (hroot : m.rootFrame a = root)
    (hva : va ∈ userPages) (hpresent : hasFlag (pteView m root va) mmPtePresent = true)
    (hcow : hasFlag (pteView m root va) mmPteSoftCow = true) {protection flags : U32}
    (hgrant : grants va = some (protection, flags))
    (hwrite : hasFlag protection mmProtWrite = true) :
    GrantsOk root grants (mmpCopyOnWrite m a va (pteView m root va)).1 := by
  obtain ⟨grant, hgrant', hg⟩ := ok.granted va hva hpresent
  cases hgrant.symm.trans hgrant'
  have hframe := hg.alone hcow
  have htracked : pteFrame (pteView m root va) < mmMaxTrackedPages :=
    lt_of_lt_of_le hframe.tracked m.trackedPages_le
  rw [Mm.mmpCopyOnWrite]
  dsimp only
  rw [if_pos ⟨htracked, hframe.refCount⟩]
  rcases mmAsProtectPage_kept ok.tables hroot hva
    ((pteView m root va &&& ~~~mmPteSoftCow) ||| mmPteWritable) with
    ⟨m', e, hk, h⟩ | ⟨m', hk, hview, h⟩
  · rw [h]
    exact ok.kept hk
  · rw [h]
    refine ok.remapped hk fun va' _ hva' => ?_
    rw [Set.mem_singleton_iff] at hva'
    rw [hva']
    refine ⟨_, hgrant, ?_, hg.guard, fun _ => ?_⟩
    · rw [hview]
      exact pteWithin_resolved hg.within hwrite
    · rw [hview, pteFrame_mapEntry_cow]
      exact hk.anonFrame hframe

/-- A fault with an error code that is consistent keeps what is granted. -/
theorem GrantsOk.mmHandlePageFault {errorCode : U64}
    (ok : GrantsOk (m.rootFrame a) (grantOf (m.addressSpacePool a)) m)
    (regions : RegionsBelow (m.addressSpacePool a)) (sections : SectionsOk m)
    (kinds : ∀ i : Fin mmMaxVaRegions, i.val < (m.addressSpacePool a).regionCount →
      RightsKind ((m.addressSpacePool a).regions i))
    (hcode : FaultConsistent m a va errorCode) :
    ∃ m₁, OnlyPages m m₁ ∧ GrantsOk (m.rootFrame a) (grantOf (m.addressSpacePool a)) m₁ ∧
      Committed a m₁ (mmHandlePageFault m a va errorCode).1 := by
  rcases mmHandlePageFault_cases m a va errorCode with
    ⟨e, heq⟩ | ⟨hready, slot, hfind, hfirst | ⟨hpresent, hwrite, pte, hquery, hcow, heq⟩⟩
  · rw [heq]
    exact ⟨m, .refl m, ok, .refl a m⟩
  all_goals
    have hva := regions.mem_userPages hfind
    have hgrant := grantOf_of_find ((regions.find_mmpAlignDown va).trans hfind)
    rw [FaultConsistent] at hcode
  · rw [hfirst.absent] at hcode
    rcases kinds slot (mmpFindRegion_sound hfind).1 with hanon | ⟨htype, hflags⟩
    · rw [mmHandlePageFault_firstAccess hready hfind hanon hfirst]
      rcases mmMapZeroPage_demand (Set.Subset.refl userPages) ok.tables rfl hva hready hcode.symm
        ((m.addressSpacePool a).regions slot).protection
        ((m.addressSpacePool a).regions slot).flags with
        ⟨m₁, page, t, heq, hfilled, hfresh, -, -⟩ | ⟨⟨e, heq⟩, -⟩ | ⟨m₁, e, heq, -⟩
      · rw [heq]
        refine ⟨m₁, hfilled.pages, ok.remapped hfilled.toKept fun va' _ hva' => ?_,
          .commitPage a slot (m₁, .ok ())⟩
        rw [Set.mem_singleton_iff] at hva'
        rw [hva']
        refine ⟨_, hgrant, hfresh.granted (.of_onlyPages hfilled.pages) ok.sections fun hg => ?_⟩
        rw [hfirst.guard] at hg
        cases hg
      · rw [heq]
        exact ⟨m, .refl m, ok, .commitPage a slot (m, .error e)⟩
      · rw [heq]
        have hkept := mmMapZeroPage_error_kept ok.tables rfl hva hcode.symm heq
        exact ⟨m₁, hkept.pages, ok.kept hkept, .commitPage a slot (m₁, .error e)⟩
    · have hshared := mmHandlePageFault_shared hready hfind (by rw [htype]; decide) hfirst
      cases hpa : sharedPage m ((m.addressSpacePool a).regions slot) (mmpAlignDown va 4096) with
      | none =>
        rw [hpa] at hshared
        obtain ⟨e, heq⟩ := hshared
        rw [heq]
        exact ⟨m, .refl m, ok, .refl a m⟩
      | some pa =>
        rw [hpa] at hshared
        obtain ⟨flags, rfl, heq⟩ := hshared
        obtain ⟨page, htracked, rfl, hsection⟩ := sharedPage_section sections htype hpa
        have hmap := ok.mapSectionPage rfl hva hcode.symm (lt_of_lt_trackedPages htracked) hsection
          hgrant hfirst.guard (by rw [hflags]; decide)
        have hpages := (OnlyPages.mmpRetainPage m (pageAddress page)).trans
          (OnlyPages.mmAsMapPage (mmpRetainPage m (pageAddress page)) a (mmpAlignDown va 4096)
            (pageAddress page) (mmpProtectionToPte ((m.addressSpacePool a).regions slot).protection
              ((m.addressSpacePool a).regions slot).flags))
        refine ⟨_, hpages, hmap, ?_⟩
        rcases heq with heq | heq <;> rw [heq]
        · exact .refl a _
        · exact .commitPage a slot _
  · rw [hpresent] at hcode
    have hpte := (mmAsQueryPte_spec ok.tables (show _ ∈ _ from rfl) hva).2 pte hquery
    rw [heq]
    rw [hpte] at hcow ⊢
    exact ⟨_, .mmpCopyOnWrite .., ok.mmpCopyOnWrite rfl hva hcode.symm hcow hgrant hwrite,
      .refl a _⟩

/-- The pages of a region lie in it, if it does not wrap. -/
theorem MmVaRegion.contains_of_mem_allPages {r : MmVaRegion} (hbase : mmPageSize ∣ r.base.toNat)
    (hle : r.base.toNat ≤ (r.base + r.size).toNat) (h : va ∈ r.allPages) :
    mmPageSize ∣ va.toNat ∧ r.contains va = true := by
  have hpage : mmPageSize = 4096 := rfl
  have hlt := r.size.isLt
  have hlt' := r.base.isLt
  obtain ⟨k, hk, rfl⟩ := mem_pageList.1 h
  rw [contains_iff]
  rw [BitVec.toNat_add] at hle ⊢
  rw [BitVec.toNat_add, BitVec.toNat_ofNat]
  rw [hpage] at hk hbase ⊢
  have hk' : k * 4096 + 4096 ≤ r.size.toNat := by omega
  have hsum : (r.base.toNat + r.size.toNat) % 2 ^ 64 = r.base.toNat + r.size.toNat := by omega
  rw [hsum, Nat.mod_eq_of_lt (show k * 4096 < 2 ^ 64 by omega),
    Nat.mod_eq_of_lt (show r.base.toNat + k * 4096 < 2 ^ 64 by omega)]
  exact ⟨Nat.dvd_add hbase (Nat.dvd_mul_left _ _), by omega, by omega⟩

/-- `NextUserBase` did not pass `MM_USER_TOP`: it moved up, so that the sum of base and size did not
wrap, and is not above it. -/
def NextStays (space space' : MmAddressSpace) : Prop :=
  space.nextUserBase.toNat ≤ space'.nextUserBase.toNat ∧
    space'.nextUserBase.toNat ≤ mmUserTop.toNat

namespace RightsInv

/-- Nothing is mapped from `NextUserBase` on. -/
theorem absent_above (inv : RightsInv a m) (hva : va ∈ userPages)
    (hle : (m.addressSpacePool a).nextUserBase.toNat ≤ va.toNat) :
    hasFlag (pteView m (m.rootFrame a) va) mmPtePresent = false := by
  by_contra hpresent
  obtain ⟨grant, hgrant, -⟩ := inv.grants.granted va hva (by simpa using hpresent)
  obtain ⟨i, hfind, -⟩ := Option.map_eq_some_iff.1 hgrant
  obtain ⟨hi, hcontains⟩ := mmpFindRegion_sound hfind
  have hlt := inv.regions.lt_next hi hcontains
  omega

/-- Where no region was added. -/
theorem of_committed {m₁ : MmState} (inv : RightsInv a m) (hpages : OnlyPages m m₁)
    (hgrants : GrantsOk (m.rootFrame a) (grantOf (m.addressSpacePool a)) m₁)
    (hcommitted : Committed a m₁ m') : RightsInv a m' := by
  obtain ⟨slot, c, rfl⟩ := hcommitted
  have hspace : (m₁.modifyRegion a slot fun r =>
      { r with committedPages := c }).addressSpacePool a =
        { m.addressSpacePool a with
          regions := Function.update (m.addressSpacePool a).regions slot
            ({ (m.addressSpacePool a).regions slot with committedPages := c } : MmVaRegion) } := by
    rw [MmState.modifyRegion, modifyAddressSpace_pool, Function.update_self,
      hpages.addressSpacePool]
  have hregions : ∀ i, ∃ c', ((m₁.modifyRegion a slot fun r =>
      { r with committedPages := c }).addressSpacePool a).regions i =
        { (m.addressSpacePool a).regions i with committedPages := c' } := by
    intro i
    rw [hspace]
    by_cases hi : i = slot
    · rw [hi]
      exact ⟨c, Function.update_self _ _ _⟩
    · exact ⟨_, Function.update_of_ne hi _ _⟩
  have hcount : ((m₁.modifyRegion a slot fun r =>
      { r with committedPages := c }).addressSpacePool a).regionCount =
        (m.addressSpacePool a).regionCount := by rw [hspace]
  exact
    { regions := inv.regions.congr hcount (by rw [hspace]) hregions
      kinds := by
        intro i hi
        rw [hcount] at hi
        obtain ⟨c', hc⟩ := hregions i
        rw [hc]
        exact inv.kinds i hi
      sections := inv.sections.congr hpages.sectionPool hpages.sectionInUse hpages.trackedPages
      grants := by
        rw [rootFrame_modifyRegion, hpages.rootFrame, grantOf_congr hcount hregions]
        exact hgrants.of_pool _ }

/-- Where a region was added at `NextUserBase`, and the grants grew by it. -/
theorem of_new (inv : RightsInv a m) (hmap : OnlyMappings m m')
    (h : (m.addressSpacePool a).regionCount < mmMaxVaRegions) {region : MmVaRegion}
    (hspace : m'.addressSpacePool a = (m.addressSpacePool a).withRegion h region)
    (hregions : RegionsBelow ((m.addressSpacePool a).withRegion h region))
    (hkind : RightsKind region)
    (hgrants : GrantsOk (m.rootFrame a) (grantOf ((m.addressSpacePool a).withRegion h region)) m') :
    RightsInv a m' where
  regions := by
    rw [hspace]
    exact hregions
  kinds i hi := by
    rw [hspace] at hi ⊢
    by_cases hlast : i = ⟨(m.addressSpacePool a).regionCount, h⟩
    · have hnew : ((m.addressSpacePool a).withRegion h region).regions i = region := by
        rw [hlast]
        exact Function.update_self _ _ _
      rw [hnew]
      exact hkind
    · have hold : ((m.addressSpacePool a).withRegion h region).regions i =
          (m.addressSpacePool a).regions i := Function.update_of_ne hlast _ _
      have hne : i.val ≠ (m.addressSpacePool a).regionCount := fun he => hlast (Fin.ext he)
      have hi' : i.val < (m.addressSpacePool a).regionCount + 1 := hi
      rw [hold]
      exact inv.kinds i (by omega)
  sections := inv.sections.congr hmap.sectionPool hmap.sectionInUse hmap.trackedPages
  grants := by
    have hroot : m'.rootFrame a = m.rootFrame a := by
      rw [MmState.rootFrame, hspace]
      rfl
    rw [hroot, hspace]
    exact hgrants

theorem fault (inv : RightsInv a m) {errorCode : U64} (hcode : FaultConsistent m a va errorCode) :
    RightsInv a (mmHandlePageFault m a va errorCode).1 := by
  obtain ⟨m₁, hpages, hgrants, hcommitted⟩ :=
    inv.grants.mmHandlePageFault inv.regions inv.sections inv.kinds hcode
  exact inv.of_committed hpages hgrants hcommitted

theorem mapAnonymous (inv : RightsInv a m) {size : U64} {protection flags : U32} {v : U64}
    (hdone : (mmMapAnonymous m a size protection flags).2 = .ok v)
    (hnext : NextStays (m.addressSpacePool a)
      ((mmMapAnonymous m a size protection flags).1.addressSpacePool a)) :
    RightsInv a (mmMapAnonymous m a size protection flags).1 := by
  have hmap := OnlyMappings.mmMapAnonymous m a size protection flags
  rcases mmMapAnonymous_cases m a size protection flags with
    ⟨-, e, heq⟩ | ⟨hcount, committed, region, hready, hregion, ⟨m₁, e, heq, -⟩ | ⟨m₁, heq, hpool⟩⟩
  · rw [heq] at hdone
    cases hdone
  · rw [heq] at hdone
    cases hdone
  have hspace : m₁.addressSpacePool a = (m.addressSpacePool a).withRegion hcount region := by
    rw [hpool, Function.update_self]
  have hbase : region.base = (m.addressSpacePool a).nextUserBase := by
    rw [hregion]
    exact mmpAlignUp_of_aligned inv.regions.next_aligned inv.regions.next_le
  rw [heq] at hnext hmap ⊢
  dsimp only at hnext hmap ⊢
  rw [hspace] at hnext
  have hbelow := inv.regions.withRegion hcount hbase
    (by rw [hregion]; exact mmpAlignSizeToPage_aligned size) hnext.1 hnext.2
  have hanon : region.type = mmRegionTypeAnon := by
    rw [hregion]
    rfl
  refine inv.of_new hmap hcount hspace hbelow (.inl hanon) ?_
  have hgrown : GrantsOk (m.rootFrame a)
      (grantOf ((m.addressSpacePool a).withRegion hcount region)) m :=
    inv.grants.mono fun va grant hgrant => grantOf_withRegion hgrant
  obtain ⟨region₀, hregion₀⟩ : ∃ r, newRegion m a size protection flags = r := ⟨_, rfl⟩
  have hsame : region = { region₀ with committedPages := committed } := by
    rw [hregion, ← hregion₀, newRegion]
  have hflags : region.flags = region₀.flags := by rw [hsame]
  have hprotection : region.protection = region₀.protection := by rw [hsame]
  by_cases hwired : hasFlag region₀.flags mmRegionFlagWired = true
  swap
  · have hlazy := mmMapAnonymous_eq hready hcount hregion₀
    rw [if_neg hwired] at hlazy
    rw [show m₁ = _ from congrArg Prod.fst (heq.symm.trans hlazy)]
    exact hgrown.of_pool _
  have hmem : ∀ va ∈ region₀.allPages, mmPageSize ∣ va.toNat ∧ region.contains va = true := by
    intro va hva
    have hall : region.allPages = region₀.allPages := by rw [hsame]; rfl
    refine MmVaRegion.contains_of_mem_allPages ?_ ?_ (by rw [hall]; exact hva)
    · rw [hbase]
      exact inv.regions.next_aligned
    · exact le_of_eq_of_le (congrArg BitVec.toNat hbase) hnext.1
  have habove : ∀ va ∈ region₀.allPages, va ∈ userPages ∧
      (m.addressSpacePool a).nextUserBase.toNat ≤ va.toNat := by
    intro va hva
    obtain ⟨haligned, hcontains⟩ := hmem va hva
    obtain ⟨hle, hlt⟩ := MmVaRegion.contains_iff.1 hcontains
    have htop : (region.base + region.size).toNat ≤ mmUserTop.toNat := hnext.2
    have hlow := inv.regions.base_le
    rw [hbase] at hle
    exact ⟨⟨haligned, by omega, by omega⟩, hle⟩
  rcases mmMapAnonymous_wired_cases hready hcount inv.grants.tables hregion₀ hwired
    (fun va hva => (habove va hva).1)
    (fun va hva => inv.absent_above (habove va hva).1 (habove va hva).2) with
    ⟨m₂, heq₂, hfilled, -⟩ | ⟨⟨m₂, e, heq₂⟩, -⟩
  swap
  · cases heq.symm.trans heq₂
  obtain rfl : m₁ = m₂ := congrArg Prod.fst (heq.symm.trans heq₂)
  refine (hgrown.of_pool m₁.addressSpacePool).remapped hfilled.filled.toKept fun va hva hdone => ?_
  have hin : va ∈ region₀.allPages := List.mem_reverse.1 hdone
  obtain ⟨page, hfresh⟩ := hfilled.fresh va hdone
  refine ⟨(region₀.protection, region₀.flags), ?_,
    hfresh.granted hmap inv.grants.sections fun _ => hwired⟩
  rw [grantOf, mmpFindRegion_newRegion (fun j hj => ?_) (hmem va hin).2, Option.map_some]
  · have hlast : ((m.addressSpacePool a).withRegion hcount region).regions
        ⟨(m.addressSpacePool a).regionCount, hcount⟩ = region := Function.update_self _ _ _
    rw [hlast, hprotection, hflags]
  · by_contra hcontains
    have hlt := inv.regions.lt_next hj (by simpa using hcontains)
    have hle := (habove va hin).2
    omega

end RightsInv

variable {σ : Type} [MmGlobals σ]

open MmGlobals MmSystem

/-- `MmMapSectionHandle` that succeeds adds a view of a section at `NextUserBase`. -/
theorem mmMapSectionHandle_ok {ob : ObState σ} {k : σ} {handleValue protection : U32} {v : U64}
    (hdone : (mmMapSectionHandle ob k a handleValue protection).2.2 = .ok v) :
    ∃ (h : ((mm k).addressSpacePool a).regionCount < mmMaxVaRegions) (region : MmVaRegion),
      region.base = mmpAlignUp ((mm k).addressSpacePool a).nextUserBase 4096 ∧
      mmPageSize ∣ region.size.toNat ∧ RightsKind region ∧
      (mmMapSectionHandle ob k a handleValue protection).2.1 = setMm { mm k with
        addressSpacePool := Function.update (mm k).addressSpacePool a
          (((mm k).addressSpacePool a).withRegion h region) } k := by
  rw [mmMapSectionHandle] at hdone ⊢
  split at hdone
  · cases hdone
  split at hdone
  swap
  · cases hdone
  next hrefused hcount =>
  rw [if_neg hrefused, dif_pos hcount]
  dsimp only at hdone ⊢
  generalize obReferenceObjectByHandle ob handleValue _ (mm k).sectionType = r at hdone ⊢
  obtain ⟨ob₁, e | header⟩ := r
  · cases hdone
  dsimp only at hdone ⊢
  cases hfind : mmpFindSectionByHeader (mm k) (some header) with
  | none =>
    rw [hfind] at hdone
    cases hdone
  | some sec =>
    refine ⟨hcount, sectionRegion (mmpAlignUp ((mm k).addressSpacePool a).nextUserBase 4096)
      (BitVec.ofNat 64 (((mm k).sectionPool sec).pageCount * mmPageSize)) protection header, rfl,
      ?_, .inr ⟨rfl, rfl⟩, ?_⟩
    · rw [sectionRegion, BitVec.toNat_ofNat]
      exact (Nat.dvd_mod_iff (by decide)).2 (Nat.dvd_mul_left _ _)
    · simp only [MmState.addRegion, MmState.modifyRegion, MmState.modifyAddressSpace,
        Function.update_self, Function.update_idem]
      rfl

theorem RightsInv.mapSection {ob : ObState σ} {k : σ} (inv : RightsInv a (mm k))
    {handleValue protection : U32} {v : U64}
    (hdone : (mmMapSectionHandle ob k a handleValue protection).2.2 = .ok v)
    (hnext : NextStays ((mm k).addressSpacePool a)
      ((mm (mmMapSectionHandle ob k a handleValue protection).2.1).addressSpacePool a)) :
    RightsInv a (mm (mmMapSectionHandle ob k a handleValue protection).2.1) := by
  obtain ⟨hcount, region, hbase, hsize, hkind, heq⟩ := mmMapSectionHandle_ok hdone
  rw [heq, mm_setMm] at hnext ⊢
  rw [mmpAlignUp_of_aligned inv.regions.next_aligned inv.regions.next_le] at hbase
  have hspace : ({ mm k with
      addressSpacePool := Function.update (mm k).addressSpacePool a
        (((mm k).addressSpacePool a).withRegion hcount region) } : MmState).addressSpacePool a =
      ((mm k).addressSpacePool a).withRegion hcount region := Function.update_self _ _ _
  rw [hspace] at hnext
  have hgrown : GrantsOk ((mm k).rootFrame a)
      (grantOf (((mm k).addressSpacePool a).withRegion hcount region)) (mm k) :=
    inv.grants.mono fun va grant hgrant => grantOf_withRegion hgrant
  exact inv.of_new ⟨_, .refl _⟩ hcount hspace
    (inv.regions.withRegion hcount hbase hsize hnext.1 hnext.2) hkind (hgrown.of_pool _)

/-! ## Runs -/

/-- A call that maps memory into an address space, or a page fault in it. -/
inductive RightsCall
  | mapAnonymous (size : U64) (protection regionFlags : U32)
  | mapSection (handleValue protection : U32)
  | fault (faultAddress errorCode : U64)

/-- No page that is mapped has more rights than its region, and no page of a region with a guard is
mapped unless the region was wired. -/
structure RightsHeld (a : AddressSpaceRef) (m : MmState) : Prop where
  within : ∀ va ∈ userPages, hasFlag (m.userPte a va) mmPtePresent = true →
    ∃ i : Fin mmMaxVaRegions, i.val < (m.addressSpacePool a).regionCount ∧
      ((m.addressSpacePool a).regions i).contains va = true ∧
      PteWithin ((m.addressSpacePool a).regions i).protection (m.userPte a va)
  guard : ∀ i : Fin mmMaxVaRegions, i.val < (m.addressSpacePool a).regionCount →
    hasFlag ((m.addressSpacePool a).regions i).flags mmRegionFlagGuard = true →
    hasFlag ((m.addressSpacePool a).regions i).flags mmRegionFlagWired = false →
    ∀ va ∈ userPages, ((m.addressSpacePool a).regions i).contains va = true →
      hasFlag (m.userPte a va) mmPtePresent = false

theorem RightsInv.held (inv : RightsInv a m) : RightsHeld a m where
  within va hva hpresent := by
    obtain ⟨grant, hgrant, hg⟩ := inv.grants.granted va hva hpresent
    obtain ⟨i, hfind, rfl⟩ := Option.map_eq_some_iff.1 hgrant
    obtain ⟨hi, hcontains⟩ := mmpFindRegion_sound hfind
    exact ⟨i, hi, hcontains, hg.within⟩
  guard i hi hguard hwired va hva hcontains := by
    by_contra hpresent
    obtain ⟨grant, hgrant, hg⟩ :=
      inv.grants.granted va hva (Bool.eq_true_of_not_eq_false hpresent)
    obtain ⟨j, hfind, rfl⟩ := Option.map_eq_some_iff.1 hgrant
    obtain ⟨hj, hcontains'⟩ := mmpFindRegion_sound hfind
    obtain rfl := inv.regions.apart i j hi hj va hcontains hcontains'
    have hwired' := hg.guard hguard
    rw [hwired] at hwired'
    cases hwired'

namespace MmSystem

/-- The state after a call or a fault. -/
def performRights (a : AddressSpaceRef) (s : MmSystem σ) : RightsCall → MmSystem σ
  | .mapAnonymous size protection flags => s.perform a (.mapAnonymous size protection flags)
  | .mapSection handleValue protection => s.perform a (.mapSection handleValue protection)
  | .fault faultAddress errorCode => s.performView a (.fault faultAddress errorCode)

/-- A step of a run of calls and faults in the address space `a`. -/
def RightsStep (a : AddressSpaceRef) (s : MmSystem σ) (c : RightsCall) (s' : MmSystem σ) : Prop :=
  s' = s.performRights a c

/-- A call succeeds, and `NextUserBase` does not pass `MM_USER_TOP`; a fault reports whether its
page is mapped. -/
def Succeeds (a : AddressSpaceRef) (s : MmSystem σ) (c : RightsCall) (s' : MmSystem σ) : Prop :=
  match c with
  | .mapAnonymous size protection flags =>
    (∃ v, (mmMapAnonymous (mm s.k) a size protection flags).2 = .ok v) ∧
      NextStays (s.space a) (s'.space a)
  | .mapSection handleValue protection =>
    (∃ v, (mmMapSectionHandle s.ob s.k a handleValue protection).2.2 = .ok v) ∧
      NextStays (s.space a) (s'.space a)
  | .fault faultAddress errorCode => FaultConsistent (mm s.k) a faultAddress errorCode

theorem RightsInv.step {s s' : MmSystem σ} {c : RightsCall} (inv : RightsInv a (mm s.k))
    (hsucceeds : s.Succeeds a c s') (hstep : RightsStep a s c s') : RightsInv a (mm s'.k) := by
  rw [RightsStep] at hstep
  subst hstep
  cases c with
  | mapAnonymous size protection flags =>
    obtain ⟨⟨v, hdone⟩, hnext⟩ := hsucceeds
    simp only [performRights, perform, space, mm_setMm] at hnext ⊢
    exact inv.mapAnonymous hdone hnext
  | mapSection handleValue protection =>
    obtain ⟨⟨v, hdone⟩, hnext⟩ := hsucceeds
    exact inv.mapSection hdone hnext
  | fault faultAddress errorCode =>
    simp only [performRights, performView, mm_setMm]
    exact inv.fault hsucceeds

end MmSystem

end NtxKernel.Mm
