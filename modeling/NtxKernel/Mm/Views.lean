import NtxKernel.Mm.Layout
import NtxKernel.Mm.Plan

/-!
# Views of sections

What the pages of an address space map, over runs of `MmMapAnonymous`, `MmMapSectionHandle` and
`MmHandlePageFault`.

* `regionPlan` is the plan that the regions of an address space make.
* `CoherentViews` is the property: a page of a view of a section is absent or maps that page of the
  section, and no two other pages share a frame.
* `views_coherent`: in every run from a fresh address space whose requests are placeable and whose
  wired requests are not left half way, every step leads to coherent views.

A wired request that runs out of memory leaves the pages it has mapped where the next region is
placed.
-/

namespace NtxKernel.Mm

open Foundations Ob

/-! ## The plan of an address space -/

/-- What backs a page of a region. -/
def regionBacking (m : MmState) (r : MmVaRegion) (va : U64) : Option Backing :=
  if r.type = mmRegionTypeAnon then some .anon
  else if r.type = mmRegionTypeSection then
    (mmpFindSectionByHeader m r.backingObject).bind fun sec =>
      (sectionFrame m sec ((va.toNat - r.base.toNat) / mmPageSize)).map .page
  else none

/-- The plan that the regions of an address space make. -/
def regionPlan (m : MmState) (space : MmAddressSpace) : Plan := fun va =>
  (mmpFindRegion space va).bind fun slot => regionBacking m (space.regions slot) va

/-- A region of anonymous memory, or a view of a whole section. -/
def RegionKind (m : MmState) (r : MmVaRegion) : Prop :=
  r.type = mmRegionTypeAnon ∨
    (r.type = mmRegionTypeSection ∧ r.flags = mmRegionFlagLazy ∧ r.backingOffset = 0 ∧
      ∃ sec, mmpFindSectionByHeader m r.backingObject = some sec ∧
        r.size.toNat = (m.sectionPool sec).pageCount * mmPageSize)

/-- The sections that are in use have tracked pages, each page in one place. -/
structure SectionsOk (m : MmState) : Prop where
  pageCount_pos : ∀ sec, m.sectionInUse sec = true → 0 < (m.sectionPool sec).pageCount
  pageCount_le : ∀ sec, m.sectionInUse sec = true →
    (m.sectionPool sec).pageCount ≤ mmMaxSectionPages
  pages : ∀ sec, m.sectionInUse sec = true → ∀ i : Fin mmMaxSectionPages,
    i.val < (m.sectionPool sec).pageCount →
      ∃ page < m.trackedPages, (m.sectionPool sec).pages i = pageAddress page
  apart : ∀ sec sec', m.sectionInUse sec = true → m.sectionInUse sec' = true → ∀ i i' f,
    sectionFrame m sec i = some f → sectionFrame m sec' i' = some f → sec = sec' ∧ i = i'

variable {m m' : MmState} {space : MmAddressSpace} {r : MmVaRegion} {va : U64}

theorem MmVaRegion.PlacedBelow.contains_iff {next : U64} (h : r.PlacedBelow next)
    (hnext : next.toNat ≤ mmUserTop.toNat) :
    r.contains va = true ↔ r.base.toNat ≤ va.toNat ∧ va.toNat < r.base.toNat + r.size.toNat := by
  have htop : mmUserTop.toNat = 0x800000000000 := by decide
  have hstop := h.stop_le
  have hsum : (r.base + r.size).toNat = r.base.toNat + r.size.toNat := by
    rw [BitVec.toNat_add]
    exact Nat.mod_eq_of_lt (by omega)
  rw [MmVaRegion.contains, hsum, Bool.and_eq_true, decide_eq_true_eq, decide_eq_true_eq]

/-- A region that is found is counted and contains the address. -/
theorem mmpFindRegion_sound {i : Fin mmMaxVaRegions} (h : mmpFindRegion space va = some i) :
    i.val < space.regionCount ∧ (space.regions i).contains va = true := by
  have hsound := firstIndex_sound h
  rw [Bool.and_eq_true, decide_eq_true_eq] at hsound
  exact hsound

/-- A page that is planned lies in a region that backs it. -/
theorem contains_of_regionPlan {b : Backing} (h : regionPlan m space va = some b) :
    ∃ i : Fin mmMaxVaRegions, i.val < space.regionCount ∧
      (space.regions i).contains va = true ∧ regionBacking m (space.regions i) va = some b := by
  obtain ⟨i, hfind, hb⟩ := Option.bind_eq_some_iff.1 h
  obtain ⟨hi, hva⟩ := mmpFindRegion_sound hfind
  exact ⟨i, hi, hva, hb⟩

namespace RegionsOk

variable {i : Fin mmMaxVaRegions}

theorem contains_iff (ok : RegionsOk space) (hi : i.val < space.regionCount) :
    (space.regions i).contains va = true ↔ (space.regions i).base.toNat ≤ va.toNat ∧
      va.toNat < (space.regions i).base.toNat + (space.regions i).size.toNat :=
  (ok.placed i hi).contains_iff ok.next_le

/-- The region of an address is the only one that contains it. -/
theorem find_of_contains (ok : RegionsOk space) (hi : i.val < space.regionCount)
    (hva : (space.regions i).contains va = true) : mmpFindRegion space va = some i := by
  rw [mmpFindRegion, firstIndex_eq_some, hva, decide_eq_true hi]
  refine ⟨rfl, fun j hj => ?_⟩
  have hjlt : j.val < space.regionCount := lt_trans hj hi
  rw [decide_eq_true hjlt, Bool.true_and]
  by_contra hcontains
  rw [Bool.not_eq_false, ok.contains_iff hjlt] at hcontains
  rw [ok.contains_iff hi] at hva
  rcases ok.disjoint i j hi hjlt (ne_of_gt hj) with h | h <;> omega

/-- The page of an address in a region lies in the region. -/
theorem contains_mmpAlignDown (ok : RegionsOk space) (hi : i.val < space.regionCount)
    (hva : (space.regions i).contains va = true) :
    (space.regions i).contains (mmpAlignDown va 4096) = true := by
  rw [ok.contains_iff hi] at hva ⊢
  rw [mmpAlignDown_toNat]
  have hbase : 4096 ∣ (space.regions i).base.toNat := (ok.placed i hi).base_aligned
  omega

theorem mem_userPages (ok : RegionsOk space) (hi : i.val < space.regionCount)
    (hva : (space.regions i).contains va = true) (haligned : mmPageSize ∣ va.toNat) :
    va ∈ userPages := by
  rw [ok.contains_iff hi] at hva
  have hplaced := ok.placed i hi
  have hbase := hplaced.base_le
  have hstop := hplaced.stop_le
  have hnext := ok.next_le
  exact ⟨haligned, by omega, by omega⟩

theorem plan_of_contains (ok : RegionsOk space) (hi : i.val < space.regionCount)
    (hva : (space.regions i).contains va = true) :
    regionPlan m space va = regionBacking m (space.regions i) va := by
  rw [regionPlan, ok.find_of_contains hi hva, Option.bind_some]

/-- One more region extends the plan. -/
theorem plan_withRegion (h : space.regionCount < mmMaxVaRegions)
    (ok' : RegionsOk (space.withRegion h r)) {b : Backing} (hb : regionPlan m space va = some b) :
    regionPlan m (space.withRegion h r) va = some b := by
  obtain ⟨i, hi, hva, hback⟩ := contains_of_regionPlan hb
  have hne : i ≠ ⟨space.regionCount, h⟩ := by
    rintro rfl
    exact Nat.lt_irrefl _ hi
  have hsame : (space.withRegion h r).regions i = space.regions i :=
    Function.update_of_ne hne _ _
  have hi' : i.val < (space.withRegion h r).regionCount := Nat.lt_succ_of_lt hi
  rw [ok'.plan_of_contains hi' (by rw [hsame]; exact hva), hsame]
  exact hback

/-- The new region is planned as it says. -/
theorem plan_newRegion (h : space.regionCount < mmMaxVaRegions)
    (ok' : RegionsOk (space.withRegion h r)) (hva : r.contains va = true) :
    regionPlan m (space.withRegion h r) va = regionBacking m r va := by
  have hlast : (space.withRegion h r).regions ⟨space.regionCount, h⟩ = r :=
    Function.update_self _ _ _
  rw [ok'.plan_of_contains (i := ⟨space.regionCount, h⟩) (Nat.lt_succ_self _)
    (by rw [hlast]; exact hva), hlast]

end RegionsOk

/-- Creating a section changes no type. -/
theorem mmCreateSectionHandle_typePool {σ : Type} [MmGlobals σ] (ob : ObState σ) (k : σ)
    (size : U64) (access : U32) :
    (mmCreateSectionHandle ob k size access).1.typePool = ob.typePool := by
  rw [mmCreateSectionHandle]
  split
  · rfl
  split
  · rfl
  split
  · rfl
  · dsimp only
    rename_i sec _
    rcases obCreateObject_cases ob _ (some mmSectionName) mmSectionAccessAll 0 with
      ⟨e, heq⟩ | ⟨o, t, nm, -, -, -, heq⟩
    · rw [heq]
    · rw [heq]
      dsimp only
      generalize mmAllocSectionPages sec (sectionPageCount size) 0 _ = r
      obtain ⟨m₁, e | _⟩ := r
      · exact obDereferenceObject_typePool _ _ _
      · dsimp only
        refine (obDereferenceObject_typePool _ _ _).trans ?_
        rcases obInsertHandle_cases { ob with
            objectInUse := Function.update ob.objectInUse o true
            objectPool := Function.update ob.objectPool o
              ⟨ob.nextObjectId, some t, 1, 0, mmSectionAccessAll, obWaitStateClear,
                obpCopyName (obMaxObjectName + 1) nm⟩
            nextObjectId := ob.nextObjectId + 1 } o access with ⟨-, e, hi⟩ | ⟨i, -, -, hi⟩
        · rw [hi]
        · rw [hi]

/-- A section that is found is in use. -/
theorem mmpFindSectionByHeader_used {header : Option ObjectRef} {sec : SectionRef}
    (h : mmpFindSectionByHeader m header = some sec) : m.sectionInUse sec = true := by
  cases header with
  | none => cases h
  | some o => exact (MmSystem.mmpFindSectionByHeader_sound h).1

/-- The lookup of sections depends on the sections. -/
theorem mmpFindSectionByHeader_congr (hpool : m'.sectionPool = m.sectionPool)
    (huse : m'.sectionInUse = m.sectionInUse) (header : Option ObjectRef) :
    mmpFindSectionByHeader m' header = mmpFindSectionByHeader m header := by
  cases header with
  | none => rfl
  | some o => rw [mmpFindSectionByHeader, mmpFindSectionByHeader, hpool, huse]

theorem sectionFrame_congr (hpool : m'.sectionPool = m.sectionPool) (sec : SectionRef) (i : ℕ) :
    sectionFrame m' sec i = sectionFrame m sec i := by
  simp only [sectionFrame, hpool]

theorem SectionsOk.congr (ok : SectionsOk m) (hpool : m'.sectionPool = m.sectionPool)
    (huse : m'.sectionInUse = m.sectionInUse) (htracked : m'.trackedPages = m.trackedPages) :
    SectionsOk m' where
  pageCount_pos := by rw [hpool, huse]; exact ok.pageCount_pos
  pageCount_le := by rw [hpool, huse]; exact ok.pageCount_le
  pages := by rw [hpool, huse, htracked]; exact ok.pages
  apart := by
    simp only [sectionFrame, hpool, huse]
    exact ok.apart

theorem OnlyMappings.trackedPages (h : OnlyMappings m m') : m'.trackedPages = m.trackedPages := by
  obtain ⟨pool, bitmap, refCount, next, mem, rfl⟩ := h
  rfl

theorem RegionKind.congr (h : RegionKind m r) (hpool : m'.sectionPool = m.sectionPool)
    (huse : m'.sectionInUse = m.sectionInUse) (committed : U32) :
    RegionKind m' { r with committedPages := committed } := by
  rcases h with hanon | ⟨htype, hflags, hoffset, sec, hfind, hsize⟩
  · exact Or.inl hanon
  · refine Or.inr ⟨htype, hflags, hoffset, sec, ?_, ?_⟩
    · rw [mmpFindSectionByHeader_congr hpool huse]
      exact hfind
    · rw [hpool]
      exact hsize

/-- The plan depends on the sections and on the regions that are counted, but for the number of
their committed pages. -/
theorem regionPlan_congr {space' : MmAddressSpace} (hpool : m'.sectionPool = m.sectionPool)
    (huse : m'.sectionInUse = m.sectionInUse) (hcount : space'.regionCount = space.regionCount)
    (hregions : ∀ i : Fin mmMaxVaRegions, i.val < space.regionCount → ∃ c,
      space'.regions i = { space.regions i with committedPages := c }) :
    regionPlan m' space' = regionPlan m space := by
  have hfind : ∀ va, mmpFindRegion space' va = mmpFindRegion space va := by
    intro va
    rw [mmpFindRegion, mmpFindRegion, hcount]
    congr 1
    funext i
    by_cases hi : i.val < space.regionCount
    · obtain ⟨c, hc⟩ := hregions i hi
      rw [hc]
      rfl
    · rw [decide_eq_false hi]
      rfl
  have hsection := mmpFindSectionByHeader_congr hpool huse
  have hframe := sectionFrame_congr hpool
  funext va
  rw [regionPlan, regionPlan, hfind]
  cases hslot : mmpFindRegion space va with
  | none => rfl
  | some i =>
    obtain ⟨c, hc⟩ := hregions i (mmpFindRegion_sound hslot).1
    simp only [Option.bind_some, hc, regionBacking, hsection, hframe]

/-! ## What the calls do to the plan -/

/-- The tables of address spaces say nothing of pages. -/
theorem PlanOk.of_pool {root : ℕ} {plan : Plan} (ok : PlanOk root plan m)
    (pool : AddressSpaceRef → MmAddressSpace) :
    PlanOk root plan { m with addressSpacePool := pool } where
  tables := ⟨ok.tables.tree, ok.tables.live⟩
  sections := ok.sections
  planned va hva hpresent := by
    obtain ⟨b, hplan, hb⟩ := ok.planned va hva hpresent
    refine ⟨b, hplan, ?_⟩
    cases b with
    | anon => exact ⟨hb.tracked, hb.live, hb.refCount, hb.not_table, hb.not_section⟩
    | page f => exact hb
  apart := ok.apart

theorem PlanOk.modifyRegion {root : ℕ} {plan : Plan} (ok : PlanOk root plan m)
    (a : AddressSpaceRef) (slot : Fin mmMaxVaRegions) (f : MmVaRegion → MmVaRegion) :
    PlanOk root plan (m.modifyRegion a slot f) := ok.of_pool _

/-- Writing a region leaves the root table of the address space. -/
theorem rootFrame_modifyRegion (m : MmState) (a : AddressSpaceRef) (slot : Fin mmMaxVaRegions)
    (f : MmVaRegion → MmVaRegion) : (m.modifyRegion a slot f).rootFrame a = m.rootFrame a := by
  simp only [MmState.rootFrame, MmState.modifyRegion, MmState.modifyAddressSpace,
    Function.update_self]

/-- The loop over the pages of a wired region, as far as it is not stopped. -/
theorem PlanOk.mmMapWired {root : ℕ} {plan : Plan} {a : AddressSpaceRef}
    {slot : Fin mmMaxVaRegions} {virtualBase : U64} {protection flags : U32} (n : ℕ) (cursor : U64)
    (ok : PlanOk root plan m) (hroot : m.rootFrame a = root)
    (hpages : ∀ k < n, virtualBase + cursor + BitVec.ofNat 64 (k * 4096) ∈ userPages ∧
      plan (virtualBase + cursor + BitVec.ofNat 64 (k * 4096)) = some .anon ∧
      hasFlag (pteView m root (virtualBase + cursor + BitVec.ofNat 64 (k * 4096)))
        mmPtePresent = false)
    (hn : n * 4096 < 2 ^ 64)
    (hdone : (mmMapWired a slot virtualBase protection flags n cursor m).2 = .ok ()) :
    PlanOk root plan (mmMapWired a slot virtualBase protection flags n cursor m).1 := by
  induction n generalizing cursor m with
  | zero => exact ok
  | succ n ih =>
    have hfirst := hpages 0 (Nat.succ_pos n)
    rw [Nat.zero_mul, BitVec.add_zero] at hfirst
    rw [Mm.mmMapWired] at hdone ⊢
    rcases ok.mmMapZeroPage hroot hfirst.1 hfirst.2.2 protection flags with
      ⟨m₁, e, -, heq⟩ | ⟨m₁, hkept, heq, hok⟩
    · rw [heq] at hdone
      cases hdone
    · rw [heq] at hdone ⊢
      dsimp only at hdone ⊢
      have hnext : ∀ k, virtualBase + (cursor + 4096) + BitVec.ofNat 64 (k * 4096) =
          virtualBase + cursor + BitVec.ofNat 64 ((k + 1) * 4096) := by
        intro k
        have hsplit : BitVec.ofNat 64 ((k + 1) * 4096) =
            BitVec.ofNat 64 (k * 4096) + 4096 := by
          rw [Nat.succ_mul, BitVec.ofNat_add]
          rfl
        rw [hsplit]
        ac_rfl
      refine ih (cursor + 4096) ((hok plan (fun _ _ h => h) hfirst.2.1).modifyRegion a slot _) ?_
        ?_ (lt_of_le_of_lt (Nat.mul_le_mul_right 4096 (Nat.le_succ n)) hn) hdone
      · rw [rootFrame_modifyRegion, hkept.pages.rootFrame, hroot]
      · intro k hk
        rw [hnext k]
        obtain ⟨huser, hplan, habsent⟩ := hpages (k + 1) (Nat.succ_lt_succ hk)
        refine ⟨huser, hplan, ?_⟩
        have hview := hkept.view _ huser ?_
        · exact (congrArg (hasFlag · mmPtePresent) hview).trans habsent
        · -- the pages of the region differ
          intro hsame
          have hzero := congrArg (· - (virtualBase + cursor)) (Set.mem_singleton_iff.1 hsame)
          simp only [BitVec.sub_self] at hzero
          rw [BitVec.add_comm, BitVec.add_sub_cancel] at hzero
          have hnat := congrArg BitVec.toNat hzero
          rw [BitVec.toNat_ofNat, Nat.mod_eq_of_lt (lt_of_le_of_lt
            (Nat.mul_le_mul_right 4096 (Nat.succ_le_succ (Nat.le_of_lt hk))) hn)] at hnat
          exact absurd hnat (Nat.mul_ne_zero (Nat.succ_ne_zero k) (by decide))

/-- The region that a call of `MmMapAnonymous` is about to write. -/
def newRegion (m : MmState) (a : AddressSpaceRef) (size : U64) (protection flags : U32) :
    MmVaRegion :=
  anonRegion (mmpAlignUp (m.addressSpacePool a).nextUserBase 4096) (mmpAlignSizeToPage size)
    protection flags

/-- A wired request does not run out of memory after it has mapped a page. -/
def WiresWhole (m : MmState) (a : AddressSpaceRef) (size : U64) (protection flags : U32) : Prop :=
  hasFlag (effectiveFlags flags) mmRegionFlagWired = true →
    ∀ h : (m.addressSpacePool a).regionCount < mmMaxVaRegions,
      let region := newRegion m a size protection flags
      let m₁ := m.modifyRegion a ⟨_, h⟩ fun _ => region
      (mmMapWired a ⟨_, h⟩ region.base region.protection region.flags
          (region.size.toNat / mmPageSize) 0 m₁).2 = .ok () ∨
        ∃ e, (mmMapZeroPage m₁ a region.base region.protection region.flags).2 = .error e

/-- `MmMapAnonymous` keeps the plan where it fails, and the plan with the new region where it
succeeds. -/
theorem PlanOk.mmMapAnonymous {root : ℕ} {plan plan' : Plan} {a : AddressSpaceRef} {size : U64}
    {protection flags : U32} (ok : PlanOk root plan m) (hroot : m.rootFrame a = root)
    (hle : ∀ va b, plan va = some b → plan' va = some b)
    (hpages : ∀ k < (newRegion m a size protection flags).size.toNat / mmPageSize,
      (newRegion m a size protection flags).base + BitVec.ofNat 64 (k * 4096) ∈ userPages ∧
      plan' ((newRegion m a size protection flags).base + BitVec.ofNat 64 (k * 4096)) =
        some .anon ∧
      hasFlag (pteView m root ((newRegion m a size protection flags).base +
        BitVec.ofNat 64 (k * 4096))) mmPtePresent = false)
    (hpos : 0 < (newRegion m a size protection flags).size.toNat / mmPageSize)
    (hwhole : WiresWhole m a size protection flags) :
    (∃ e, (mmMapAnonymous m a size protection flags).2 = .error e ∧
        PlanOk root plan (mmMapAnonymous m a size protection flags).1) ∨
      ∃ v, (mmMapAnonymous m a size protection flags).2 = .ok v ∧
        PlanOk root plan' (mmMapAnonymous m a size protection flags).1 := by
  rw [Mm.mmMapAnonymous]
  by_cases hready : m.ready = false
  · rw [if_pos hready]
    exact Or.inl ⟨_, rfl, ok⟩
  rw [if_neg hready]
  by_cases hcount : (m.addressSpacePool a).regionCount < mmMaxVaRegions
  swap
  · rw [dif_neg hcount]
    exact Or.inl ⟨_, rfl, ok⟩
  rw [dif_pos hcount]
  dsimp only
  have hwhole' := fun hwired => hwhole hwired hcount
  rw [show effectiveFlags flags = (newRegion m a size protection flags).flags from rfl] at hwhole'
  rw [show mmpAlignUp (m.addressSpacePool a).nextUserBase 4096 =
      (newRegion m a size protection flags).base from rfl,
    show mmpAlignSizeToPage size = (newRegion m a size protection flags).size from rfl,
    show anonRegion (newRegion m a size protection flags).base
      (newRegion m a size protection flags).size protection flags =
      newRegion m a size protection flags from rfl]
  dsimp only at hwhole'
  generalize newRegion m a size protection flags = region at hpages hpos hwhole' ⊢
  have ok₁ := ok.modifyRegion a ⟨_, hcount⟩ fun _ => region
  have hroot₁ : (m.modifyRegion a ⟨_, hcount⟩ fun _ => region).rootFrame a = root :=
    (rootFrame_modifyRegion ..).trans hroot
  have hview₁ : pteView (m.modifyRegion a ⟨_, hcount⟩ fun _ => region) root = pteView m root := rfl
  rw [← hview₁] at hpages
  generalize m.modifyRegion a ⟨_, hcount⟩ (fun _ => region) = m₁ at hwhole' ok₁ hroot₁ hpages ⊢
  by_cases hwired : hasFlag region.flags mmRegionFlagWired = true
  swap
  · rw [if_neg hwired]
    exact Or.inr ⟨_, rfl, (ok₁.mono hle).of_pool _⟩
  rw [if_pos hwired]
  have hlt : region.size.toNat / mmPageSize * 4096 < 2 ^ 64 :=
    lt_of_le_of_lt (Nat.div_mul_le_self _ _) region.size.isLt
  have hzero : region.base + 0 = region.base := BitVec.add_zero _
  rcases hwhole' hwired with hdone | ⟨e, hfail⟩
  · have hrun := (ok₁.mono hle).mmMapWired (region.size.toNat / mmPageSize) 0 hroot₁
      (by rw [hzero]; exact hpages) hlt hdone
    generalize Mm.mmMapWired a _ region.base region.protection region.flags _ 0 m₁ = r
      at hdone hrun ⊢
    obtain ⟨m₂, e | _⟩ := r
    · cases hdone
    · exact Or.inr ⟨_, rfl, hrun.of_pool _⟩
  · -- the first page fails, and nothing is mapped
    obtain ⟨k, hk⟩ := Nat.exists_eq_succ_of_ne_zero (Nat.ne_of_gt hpos)
    have hfirst := hpages 0 hpos
    rw [Nat.zero_mul, BitVec.add_zero] at hfirst
    rw [hk, Mm.mmMapWired, hzero]
    rcases ok₁.mmMapZeroPage hroot₁ hfirst.1 hfirst.2.2 region.protection region.flags with
      ⟨m₂, e', hkept, heq⟩ | ⟨m₂, -, heq, -⟩
    · rw [heq]
      exact Or.inl ⟨_, rfl, ok₁.kept hkept⟩
    · rw [heq] at hfail
      cases hfail

/-- At most the number of committed pages of a region changed. -/
def Committed (a : AddressSpaceRef) (m m' : MmState) : Prop :=
  ∃ slot c, m' = m.modifyRegion a slot fun r => { r with committedPages := c }

theorem Committed.refl (a : AddressSpaceRef) (m : MmState) : Committed a m m := by
  refine ⟨⟨0, by decide⟩, ((m.addressSpacePool a).regions ⟨0, by decide⟩).committedPages, ?_⟩
  simp only [MmState.modifyRegion, MmState.modifyAddressSpace, Function.update_eq_self]

theorem Committed.commitPage (a : AddressSpaceRef) (slot : Fin mmMaxVaRegions)
    (p : MmState × Except KStatus Unit) : Committed a p.1 (commitPage a slot p).1 := by
  obtain ⟨m₁, e | _⟩ := p
  · exact refl a m₁
  · exact ⟨slot, ((m₁.addressSpacePool a).regions slot).committedPages + 1, by
      simp only [Mm.commitPage, MmState.modifyRegion, MmState.modifyAddressSpace]⟩

/-- The error code of a fault says whether the page is mapped. -/
def FaultConsistent (m : MmState) (a : AddressSpaceRef) (faultAddress errorCode : U64) : Prop :=
  hasFlag errorCode mmPfErrorPresent =
    hasFlag (pteView m (m.rootFrame a) (mmpAlignDown faultAddress 4096)) mmPtePresent

/-- A fault in a view of a section maps the page of the section that is planned. -/
theorem PlanOk.mmpFaultSection {root : ℕ} {plan : Plan} {a : AddressSpaceRef}
    {region : MmVaRegion} (ok : PlanOk root plan m) (slot : Fin mmMaxVaRegions)
    (hroot : m.rootFrame a = root) (hva : va ∈ userPages)
    (habsent : hasFlag (pteView m root va) mmPtePresent = false)
    (hflags : region.flags = mmRegionFlagLazy) (hoffset : region.backingOffset = 0)
    (hbase : region.base.toNat ≤ va.toNat) {sec : SectionRef}
    (hfind : mmpFindSectionByHeader m region.backingObject = some sec)
    (hused : m.sectionInUse sec = true) (sections : SectionsOk m)
    (hstop : va.toNat < region.base.toNat + (m.sectionPool sec).pageCount * mmPageSize)
    (hplan : ∀ f, sectionFrame m sec ((va.toNat - region.base.toNat) / mmPageSize) = some f →
      plan va = some (.page f)) :
    ∃ m₁, OnlyPages m m₁ ∧ PlanOk root plan m₁ ∧
      Committed a m₁ (mmpFaultSection m a slot region va).1 := by
  have hpage : mmPageSize = 4096 := rfl
  have hle : (m.sectionPool sec).pageCount ≤ 256 := sections.pageCount_le sec hused
  have hoff : (va - region.base + region.backingOffset).toNat =
      va.toNat - region.base.toNat := by
    have hzero : va - region.base + 0 = va - region.base := BitVec.add_zero _
    rw [hoffset, hzero, BitVec.toNat_sub_of_le (BitVec.le_def.2 hbase)]
  have hi : (va.toNat - region.base.toNat) / mmPageSize < (m.sectionPool sec).pageCount := by
    rw [hpage] at hstop ⊢
    omega
  have hmod : (va.toNat - region.base.toNat) / mmPageSize % 2 ^ 32 =
      (va.toNat - region.base.toNat) / mmPageSize := Nat.mod_eq_of_lt (by omega)
  rw [Mm.mmpFaultSection, hfind]
  dsimp only
  rw [hoff, hmod]
  generalize (va.toNat - region.base.toNat) / mmPageSize = i at hplan hi ⊢
  have hmax : i < mmMaxSectionPages := lt_of_lt_of_le hi hle
  rw [if_neg (Nat.not_le.2 hi), dif_pos hmax]
  obtain ⟨page, htracked, haddress⟩ := sections.pages sec hused ⟨i, hmax⟩ hi
  have hframe : sectionFrame m sec i = some page := by
    rw [sectionFrame, dif_pos ⟨hi, hmax⟩, haddress,
      pteFrame_pageAddress (lt_of_lt_trackedPages htracked)]
  rw [haddress, hflags]
  exact ⟨_, (OnlyPages.mmpRetainPage ..).trans (OnlyPages.mmAsMapPage ..),
    ok.mapSectionPage hroot hva habsent (lt_of_lt_trackedPages htracked) ⟨sec, i, hused, hframe⟩
      (hplan page hframe) region.protection, .commitPage a slot _⟩

/-- A fault with an error code that is consistent keeps the plan of the regions. -/
theorem PlanOk.mmHandlePageFault {root : ℕ} {a : AddressSpaceRef} {faultAddress errorCode : U64}
    (ok : PlanOk root (regionPlan m (m.addressSpacePool a)) m) (hroot : m.rootFrame a = root)
    (regions : RegionsOk (m.addressSpacePool a)) (sections : SectionsOk m)
    (kinds : ∀ i : Fin mmMaxVaRegions, i.val < (m.addressSpacePool a).regionCount →
      RegionKind m ((m.addressSpacePool a).regions i))
    (hcode : FaultConsistent m a faultAddress errorCode) :
    ∃ m₁, OnlyPages m m₁ ∧ PlanOk root (regionPlan m (m.addressSpacePool a)) m₁ ∧
      Committed a m₁ (mmHandlePageFault m a faultAddress errorCode).1 := by
  have hsame : ∃ m₁, OnlyPages m m₁ ∧ PlanOk root (regionPlan m (m.addressSpacePool a)) m₁ ∧
      Committed a m₁ m := ⟨m, .refl m, ok, .refl a m⟩
  rw [Mm.mmHandlePageFault]
  split
  · exact hsame
  cases hslot : mmpFindRegion (m.addressSpacePool a) faultAddress with
  | none => exact hsame
  | some slot =>
    obtain ⟨hlt, hcontains⟩ := mmpFindRegion_sound hslot
    have hkind := kinds slot hlt
    have hcontains' := regions.contains_mmpAlignDown hlt hcontains
    have haligned : mmPageSize ∣ (mmpAlignDown faultAddress 4096).toNat := by
      rw [mmpAlignDown_toNat]
      exact Nat.dvd_mul_left _ _
    have hva := regions.mem_userPages hlt hcontains' haligned
    have hplan := regions.plan_of_contains (m := m) hlt hcontains'
    have hrange := (regions.contains_iff hlt).1 hcontains'
    rw [FaultConsistent, hroot] at hcode
    dsimp only
    split
    · exact hsame
    split
    · exact hsame
    split
    · exact hsame
    split
    · exact hsame
    generalize mmpAlignDown faultAddress 4096 = pageVa at *
    generalize (m.addressSpacePool a).regions slot = region at *
    obtain ⟨hquery, hpte⟩ := mmAsQueryPte_spec ok.tables (a := a) (show _ ∈ _ from hroot) hva
    generalize mmAsQueryPte m a pageVa = q at hquery hpte ⊢
    obtain ⟨m₁, pte⟩ := q
    have ok₁ := ok.kept hquery.kept
    have hroot₁ : m₁.rootFrame a = root := (hquery.pages.rootFrame a).trans hroot
    have hview : pteView m₁ root pageVa = pteView m root pageVa := hquery.view root rfl pageVa hva
    have hdone : ∃ m₂, OnlyPages m m₂ ∧ PlanOk root (regionPlan m (m.addressSpacePool a)) m₂ ∧
        Committed a m₂ m₁ := ⟨m₁, hquery.pages, ok₁, .refl a m₁⟩
    by_cases hbit : hasFlag errorCode mmPfErrorPresent = true
    · -- a page that is mapped: the fault is resolved only for a copy-on-write page
      rw [if_pos hbit]
      cases pte with
      | error e => exact hdone
      | ok entry =>
        have hentry : entry = pteView m₁ root pageVa := by
          rw [hview, ← hroot]
          exact hpte entry rfl
        dsimp only
        split
        · rename_i hcow
          rw [Bool.and_eq_true, hentry] at hcow
          rw [hentry]
          rw [hbit, ← hview] at hcode
          exact ⟨_, hquery.pages.trans (OnlyPages.mmpCopyOnWrite ..),
            ok₁.mmpCopyOnWrite hroot₁ hva hcode.symm hcow.1, .refl a _⟩
        · exact hdone
    · rw [if_neg hbit]
      rw [Bool.not_eq_true] at hbit
      rw [hbit, ← hview] at hcode
      rcases hkind with hanon | ⟨htype, hflags, hoffset, sec, hfind, hsize⟩
      · rw [if_pos hanon]
        rcases ok₁.mmMapZeroPage hroot₁ hva hcode.symm region.protection region.flags with
          ⟨m₂, e, hk, heq⟩ | ⟨m₂, hk, heq, hok⟩
        · rw [heq]
          exact ⟨m₂, hquery.pages.trans hk.pages, ok₁.kept hk, .commitPage a slot (m₂, .error e)⟩
        · rw [heq]
          refine ⟨m₂, hquery.pages.trans hk.pages, hok _ (fun _ _ h => h) ?_,
            .commitPage a slot (m₂, .ok ())⟩
          rw [hplan, regionBacking, if_pos hanon]
      · rw [if_neg (by rw [htype]; decide), if_neg (by rw [htype]; decide), if_pos htype]
        have hfind₁ : mmpFindSectionByHeader m₁ region.backingObject = some sec := by
          rw [mmpFindSectionByHeader_congr hquery.pages.sectionPool hquery.pages.sectionInUse]
          exact hfind
        rw [hsize] at hrange
        obtain ⟨m₂, hpages, ok₂, hcommitted⟩ := ok₁.mmpFaultSection slot hroot₁ hva
          hcode.symm hflags hoffset hrange.1 hfind₁ (mmpFindSectionByHeader_used hfind₁)
          (sections.congr hquery.pages.sectionPool hquery.pages.sectionInUse
            hquery.pages.trackedPages)
          (by rw [hquery.pages.sectionPool]; exact hrange.2) fun f hf => by
            rw [hplan, regionBacking, if_neg (by rw [htype]; decide), if_pos htype, hfind]
            rw [Option.bind_some, ← sectionFrame_congr hquery.pages.sectionPool, hf]
            rfl
        exact ⟨m₂, hquery.pages.trans hpages, ok₂, hcommitted⟩

/-! ## Coherent views -/

/-- The entry of a user page in the address space `a`. -/
def MmState.userPte (m : MmState) (a : AddressSpaceRef) (va : U64) : U64 :=
  pteView m (m.rootFrame a) va

/-- The address of the `i`-th page of a region. -/
def MmVaRegion.pageAt (r : MmVaRegion) (i : ℕ) : U64 := r.base + BitVec.ofNat 64 (i * mmPageSize)

/-- The region in a slot is a view of a section. -/
def MapsSection (m : MmState) (a : AddressSpaceRef) (slot : Fin mmMaxVaRegions)
    (sec : SectionRef) : Prop :=
  slot.val < (m.addressSpacePool a).regionCount ∧
    ((m.addressSpacePool a).regions slot).type = mmRegionTypeSection ∧
    mmpFindSectionByHeader m ((m.addressSpacePool a).regions slot).backingObject = some sec

instance (m : MmState) (a : AddressSpaceRef) (slot : Fin mmMaxVaRegions) (sec : SectionRef) :
    Decidable (MapsSection m a slot sec) :=
  inferInstanceAs (Decidable (_ ∧ _ ∧ _))

/-- The `i`-th page of the region in a slot is mapped. -/
def MapsPage (m : MmState) (a : AddressSpaceRef) (slot : Fin mmMaxVaRegions) (i : ℕ) : Prop :=
  slot.val < (m.addressSpacePool a).regionCount ∧
    i * mmPageSize < ((m.addressSpacePool a).regions slot).size.toNat ∧
    hasFlag (m.userPte a (((m.addressSpacePool a).regions slot).pageAt i)) mmPtePresent = true

/-- The frame of the `i`-th page of the region in a slot. -/
def frameOfPage (m : MmState) (a : AddressSpaceRef) (slot : Fin mmMaxVaRegions) (i : ℕ) : ℕ :=
  pteFrame (m.userPte a (((m.addressSpacePool a).regions slot).pageAt i))

/-- A page of a view of a section is absent or maps that page of the section, so that two views of
it agree, and other pages do not share frames. -/
structure CoherentViews (a : AddressSpaceRef) (m : MmState) : Prop where
  mapped : ∀ slot sec, MapsSection m a slot sec → ∀ i : Fin mmMaxSectionPages,
    i.val < (m.sectionPool sec).pageCount →
      hasFlag (m.userPte a (((m.addressSpacePool a).regions slot).pageAt i)) mmPtePresent = true →
      frameOfPage m a slot i = pteFrame ((m.sectionPool sec).pages i)
  agree : ∀ slot slot' sec, MapsSection m a slot sec → MapsSection m a slot' sec → ∀ i,
    MapsPage m a slot i → MapsPage m a slot' i → frameOfPage m a slot i = frameOfPage m a slot' i
  apart : ∀ slot slot' i i', MapsPage m a slot i → MapsPage m a slot' i' →
    frameOfPage m a slot i = frameOfPage m a slot' i' →
      (slot = slot' ∧ i = i') ∨
        (∃ sec, MapsSection m a slot sec ∧ MapsSection m a slot' sec) ∧ i = i'

variable {a : AddressSpaceRef}

theorem RegionsOk.pageAt_toNat (ok : RegionsOk space) {slot : Fin mmMaxVaRegions}
    (hslot : slot.val < space.regionCount) {i : ℕ}
    (hi : i * mmPageSize < (space.regions slot).size.toNat) :
    ((space.regions slot).pageAt i).toNat = (space.regions slot).base.toNat + i * mmPageSize := by
  have htop : mmUserTop.toNat = 0x800000000000 := by decide
  have hstop := (ok.placed slot hslot).stop_le
  have hnext := ok.next_le
  rw [MmVaRegion.pageAt, BitVec.toNat_add, BitVec.toNat_ofNat,
    Nat.mod_eq_of_lt (show i * mmPageSize < 2 ^ 64 by omega), Nat.mod_eq_of_lt (by omega)]

theorem RegionsOk.contains_pageAt (ok : RegionsOk space) {slot : Fin mmMaxVaRegions}
    (hslot : slot.val < space.regionCount) {i : ℕ}
    (hi : i * mmPageSize < (space.regions slot).size.toNat) :
    (space.regions slot).contains ((space.regions slot).pageAt i) = true ∧
      (space.regions slot).pageAt i ∈ userPages := by
  have hnat := ok.pageAt_toNat hslot hi
  have hcontains : (space.regions slot).contains ((space.regions slot).pageAt i) = true := by
    rw [ok.contains_iff hslot, hnat]
    omega
  refine ⟨hcontains, ok.mem_userPages hslot hcontains ?_⟩
  rw [hnat]
  exact Nat.dvd_add (ok.placed slot hslot).base_aligned (Nat.dvd_mul_left _ _)

/-- A page that is mapped is backed as its region says. -/
theorem PlanOk.backs_of_mapsPage
    (ok : PlanOk (m.rootFrame a) (regionPlan m (m.addressSpacePool a)) m)
    (regions : RegionsOk (m.addressSpacePool a)) {slot : Fin mmMaxVaRegions} {i : ℕ}
    (h : MapsPage m a slot i) :
    ((m.addressSpacePool a).regions slot).pageAt i ∈ userPages ∧
      ∃ b, regionPlan m (m.addressSpacePool a) (((m.addressSpacePool a).regions slot).pageAt i) =
          some b ∧
        Backs m (m.rootFrame a) b (m.userPte a (((m.addressSpacePool a).regions slot).pageAt i)) ∧
        ((((m.addressSpacePool a).regions slot).type = mmRegionTypeAnon ∧ b = .anon) ∨
          ∃ sec f, MapsSection m a slot sec ∧ sectionFrame m sec i = some f ∧ b = .page f) := by
  obtain ⟨hslot, hi, hpresent⟩ := h
  obtain ⟨hcontains, huser⟩ := regions.contains_pageAt hslot hi
  have hnat := regions.pageAt_toNat hslot hi
  obtain ⟨b, hplan, hb⟩ := ok.planned _ huser hpresent
  refine ⟨huser, b, hplan, hb, ?_⟩
  rw [regions.plan_of_contains hslot hcontains, regionBacking] at hplan
  split at hplan
  · rename_i hanon
    exact Or.inl ⟨hanon, (Option.some.inj hplan).symm⟩
  split at hplan
  · rename_i hsection
    obtain ⟨sec, hfind, hpage⟩ := Option.bind_eq_some_iff.1 hplan
    obtain ⟨f, hf, hbf⟩ := Option.map_eq_some_iff.1 hpage
    have hindex : (((m.addressSpacePool a).regions slot).base.toNat + i * mmPageSize -
        ((m.addressSpacePool a).regions slot).base.toNat) / mmPageSize = i := by
      rw [Nat.add_sub_cancel_left]
      exact Nat.mul_div_cancel _ (by decide)
    rw [hnat, hindex] at hf
    exact Or.inr ⟨sec, f, ⟨hslot, hsection, hfind⟩, hf, hbf.symm⟩
  · cases hplan

/-- The plan of the regions makes their views coherent. -/
theorem PlanOk.coherentViews
    (ok : PlanOk (m.rootFrame a) (regionPlan m (m.addressSpacePool a)) m)
    (regions : RegionsOk (m.addressSpacePool a)) (sections : SectionsOk m)
    (kinds : ∀ i : Fin mmMaxVaRegions, i.val < (m.addressSpacePool a).regionCount →
      RegionKind m ((m.addressSpacePool a).regions i)) : CoherentViews a m := by
  have hframe : ∀ slot sec, MapsSection m a slot sec → ∀ i, MapsPage m a slot i →
      sectionFrame m sec i = some (frameOfPage m a slot i) := by
    intro slot sec hsec i hpage
    obtain ⟨-, b, -, hb, hkind⟩ := ok.backs_of_mapsPage regions hpage
    rcases hkind with ⟨hanon, -⟩ | ⟨sec', f, hsec', hf, rfl⟩
    · rw [hsec.2.1] at hanon
      exact absurd hanon (by decide)
    · cases hsec.2.2.symm.trans hsec'.2.2
      have hentry : frameOfPage m a slot i = f := hb.1
      rw [hentry]
      exact hf
  refine ⟨?_, ?_, ?_⟩
  · intro slot sec hsec i hi hpresent
    have hsize : i.val * mmPageSize < ((m.addressSpacePool a).regions slot).size.toNat := by
      rcases kinds slot hsec.1 with hanon | ⟨-, -, -, sec', hfind, hsize⟩
      · rw [hsec.2.1] at hanon
        exact absurd hanon (by decide)
      · cases hsec.2.2.symm.trans hfind
        rw [hsize]
        exact Nat.mul_lt_mul_of_pos_right hi (by decide)
    have hf := hframe slot sec hsec i ⟨hsec.1, hsize, hpresent⟩
    rw [sectionFrame, dif_pos ⟨hi, i.isLt⟩] at hf
    exact (Option.some.inj hf).symm
  · intro slot slot' sec hsec hsec' i hpage hpage'
    exact Option.some.inj ((hframe slot sec hsec i hpage).symm.trans
      (hframe slot' sec hsec' i hpage'))
  · intro slot slot' i i' hpage hpage' heq
    obtain ⟨huser, b, hplan, hb, hkind⟩ := ok.backs_of_mapsPage regions hpage
    obtain ⟨huser', b', hplan', hb', hkind'⟩ := ok.backs_of_mapsPage regions hpage'
    rcases hkind with ⟨hanon, rfl⟩ | ⟨sec, f, hsec, hf, rfl⟩ <;>
      rcases hkind' with ⟨hanon', rfl⟩ | ⟨sec', f', hsec', hf', rfl⟩
    · have hva := ok.apart _ huser _ huser' hpage.2.2 hpage'.2.2 hplan hplan' heq
      have hcontains := (regions.contains_pageAt hpage.1 hpage.2.1).1
      have hcontains' := (regions.contains_pageAt hpage'.1 hpage'.2.1).1
      rw [hva] at hcontains
      have hslots := Option.some.inj ((regions.find_of_contains hpage.1 hcontains).symm.trans
        (regions.find_of_contains hpage'.1 hcontains'))
      refine Or.inl ⟨hslots, ?_⟩
      have hnat := regions.pageAt_toNat hpage.1 hpage.2.1
      have hnat' := regions.pageAt_toNat hpage'.1 hpage'.2.1
      rw [hva, hnat', hslots] at hnat
      have hpageSize : mmPageSize = 4096 := rfl
      rw [hpageSize] at hnat
      omega
    · have hentry : frameOfPage m a slot i = f' := heq.trans hb'.1
      have hsection : IsSectionPage m (frameOfPage m a slot i) := hentry ▸ hb'.2.2
      exact absurd hsection hb.not_section
    · have hentry : frameOfPage m a slot' i' = f := heq.symm.trans hb.1
      have hsection : IsSectionPage m (frameOfPage m a slot' i') := hentry ▸ hb.2.2
      exact absurd hsection hb'.not_section
    · have hff : f = f' := hb.1.symm.trans (heq.trans hb'.1)
      rw [← hff] at hf'
      obtain ⟨rfl, rfl⟩ := sections.apart sec sec' (mmpFindSectionByHeader_used hsec.2.2)
        (mmpFindSectionByHeader_used hsec'.2.2) i i' f hf hf'
      exact Or.inr ⟨⟨sec, hsec, hsec'⟩, rfl⟩

/-! ## Runs -/

variable {σ : Type} [MmGlobals σ]

open MmGlobals MmSystem

/-- A call that maps memory into an address space, or a page fault in it. -/
inductive ViewCall
  | map (c : LayoutCall)
  | fault (faultAddress errorCode : U64)

namespace MmSystem

/-- The state after a call or a fault. -/
def performView (a : AddressSpaceRef) (s : MmSystem σ) : ViewCall → MmSystem σ
  | .map c => s.perform a c
  | .fault faultAddress errorCode =>
    ⟨s.ob, setMm (mmHandlePageFault (mm s.k) a faultAddress errorCode).1 s.k⟩

/-- A step of a run of calls and faults in the address space `a`. -/
def ViewStep (a : AddressSpaceRef) (s : MmSystem σ) (c : ViewCall) (s' : MmSystem σ) : Prop :=
  s' = s.performView a c

/-- A fault reports whether its page is mapped. -/
def Consistent (a : AddressSpaceRef) (s : MmSystem σ) : ViewCall → Prop
  | .map _ => True
  | .fault faultAddress errorCode => FaultConsistent (mm s.k) a faultAddress errorCode

/-- A call is placeable, or finds the table of regions full, and is not left half way. -/
def Whole (a : AddressSpaceRef) (s : MmSystem σ) : ViewCall → Prop
  | .map (.mapAnonymous size protection flags) =>
    s.Fits a (.mapAnonymous size protection flags) ∧ WiresWhole (mm s.k) a size protection flags
  | .map c => s.Fits a c
  | .fault _ _ => True

/-- An address space as `MmCreateAddressSpace` leaves it, with no mapping in the user range. -/
structure FreshViews (a : AddressSpaceRef) (s : MmSystem σ) : Prop where
  fresh : s.Fresh a
  sectionType : SectionTypeOk s.ob s.k
  sections : SectionsOk (mm s.k)
  sectionPages : ∀ f, IsSectionPage (mm s.k) f → ¬Free (mm s.k) f
  tables : TablesOk userPages {(mm s.k).rootFrame a} (mm s.k)
  absent : ∀ va ∈ userPages, hasFlag ((mm s.k).userPte a va) mmPtePresent = false

/-- The layout, and the plan of its regions. -/
structure ViewInv (a : AddressSpaceRef) (s : MmSystem σ) : Prop where
  layout : LayoutInv a s
  sections : SectionsOk (mm s.k)
  kinds : ∀ i : Fin mmMaxVaRegions, i.val < (s.space a).regionCount →
    RegionKind (mm s.k) ((s.space a).regions i)
  plan : PlanOk ((mm s.k).rootFrame a) (regionPlan (mm s.k) (s.space a)) (mm s.k)

theorem ViewInv.coherentViews {s : MmSystem σ} (inv : ViewInv a s) : CoherentViews a (mm s.k) :=
  inv.plan.coherentViews inv.layout.regions inv.sections inv.kinds

theorem FreshViews.viewInv {s : MmSystem σ} (h : FreshViews a s) : ViewInv a s where
  layout := ⟨h.fresh.regionsOk, h.sectionType, fun sec hsec _ =>
    ⟨h.sections.pageCount_pos sec hsec, h.sections.pageCount_le sec hsec⟩⟩
  sections := h.sections
  kinds i hi := by
    rw [h.fresh.1] at hi
    exact absurd hi (Nat.not_lt_zero _)
  plan :=
    { tables := h.tables
      sections := h.sectionPages
      planned := by
        intro va hva hpresent
        exact absurd ((h.absent va hva).symm.trans hpresent) Bool.false_ne_true
      apart := by
        intro va hva _ _ hpresent
        exact absurd ((h.absent va hva).symm.trans hpresent) Bool.false_ne_true }

/-- Where no region was added, the plan of the regions is the same. -/
theorem ViewInv.of_same {s : MmSystem σ} (inv : ViewInv a s) (hmap : OnlyMappings (mm s.k) m')
    (hcount : (m'.addressSpacePool a).regionCount = (s.space a).regionCount)
    (hnext : (m'.addressSpacePool a).nextUserBase = (s.space a).nextUserBase)
    (hroot : m'.rootFrame a = (mm s.k).rootFrame a)
    (hregions : ∀ i : Fin mmMaxVaRegions, i.val < (s.space a).regionCount → ∃ c,
      (m'.addressSpacePool a).regions i = { (s.space a).regions i with committedPages := c })
    (hplan : PlanOk ((mm s.k).rootFrame a) (regionPlan (mm s.k) (s.space a)) m') :
    ViewInv a ⟨s.ob, setMm m' s.k⟩ where
  layout :=
    { regions := by
        rw [space, mm_setMm]
        refine inv.layout.regions.congr hcount hnext fun i hi => ?_
        obtain ⟨c, hc⟩ := hregions i hi
        rw [hc]
        exact ⟨rfl, rfl⟩
      sectionType := by
        intro t ht
        rw [mm_setMm, hmap.sectionType] at ht
        exact inv.layout.sectionType t ht
      filled := by
        intro sec
        rw [mm_setMm, hmap.sectionPool, hmap.sectionInUse]
        exact inv.layout.filled sec }
  sections := by
    rw [mm_setMm]
    exact inv.sections.congr hmap.sectionPool hmap.sectionInUse hmap.trackedPages
  kinds i hi := by
    rw [space, mm_setMm] at hi ⊢
    rw [hcount] at hi
    obtain ⟨c, hc⟩ := hregions i hi
    rw [hc]
    exact (inv.kinds i hi).congr hmap.sectionPool hmap.sectionInUse c
  plan := by
    rw [space, mm_setMm, hroot,
      regionPlan_congr hmap.sectionPool hmap.sectionInUse hcount hregions]
    exact hplan

/-- Where a region was added, the plan grew by the region. -/
theorem ViewInv.of_new {s s' : MmSystem σ} (inv : ViewInv a s) (layout : LayoutInv a s')
    (hmap : OnlyMappings (mm s.k) (mm s'.k)) (h : (s.space a).regionCount < mmMaxVaRegions)
    {region : MmVaRegion} (hspace : s'.space a = (s.space a).withRegion h region)
    (hkind : RegionKind (mm s.k) region)
    (hplan : PlanOk ((mm s.k).rootFrame a)
      (regionPlan (mm s.k) ((s.space a).withRegion h region)) (mm s'.k)) : ViewInv a s' where
  layout := layout
  sections := inv.sections.congr hmap.sectionPool hmap.sectionInUse hmap.trackedPages
  kinds i hi := by
    rw [hspace] at hi ⊢
    by_cases hlast : i = ⟨(s.space a).regionCount, h⟩
    · have hnew : ((s.space a).withRegion h region).regions i = region := by
        rw [hlast]
        exact Function.update_self _ _ _
      rw [hnew]
      exact hkind.congr hmap.sectionPool hmap.sectionInUse region.committedPages
    · have hold : ((s.space a).withRegion h region).regions i = (s.space a).regions i :=
        Function.update_of_ne hlast _ _
      have hlt : i.val < (s.space a).regionCount := by
        have hne : i.val ≠ (s.space a).regionCount := fun he => hlast (Fin.ext he)
        have hi' : i.val < (s.space a).regionCount + 1 := hi
        omega
      rw [hold]
      exact (inv.kinds i hlt).congr hmap.sectionPool hmap.sectionInUse
        ((s.space a).regions i).committedPages
  plan := by
    have hroot : (mm s'.k).rootFrame a = (mm s.k).rootFrame a := by
      show pteFrame (s'.space a).rootTablePhysical = pteFrame (s.space a).rootTablePhysical
      rw [hspace]
      rfl
    rw [hroot, hspace, regionPlan_congr hmap.sectionPool hmap.sectionInUse rfl
      fun i _ => ⟨_, rfl⟩]
    exact hplan

theorem ViewInv.fault {s : MmSystem σ} (inv : ViewInv a s) {faultAddress errorCode : U64}
    (hcode : FaultConsistent (mm s.k) a faultAddress errorCode) :
    ViewInv a (s.performView a (.fault faultAddress errorCode)) := by
  obtain ⟨m₁, hpages, hplan, slot, c, heq⟩ :=
    inv.plan.mmHandlePageFault rfl inv.layout.regions inv.sections inv.kinds hcode
  rw [performView, heq]
  have hpool := hpages.addressSpacePool
  have hspace : (m₁.modifyRegion a slot fun r =>
      { r with committedPages := c }).addressSpacePool a =
        { s.space a with
          regions := Function.update (s.space a).regions slot
            ({ (s.space a).regions slot with committedPages := c } : MmVaRegion) } := by
    rw [MmState.modifyRegion, modifyAddressSpace_pool, Function.update_self, hpool]
    rfl
  refine inv.of_same ((OnlyMappings.of_onlyPages hpages).trans (.modifyRegion ..)) ?_ ?_ ?_ ?_
    (hplan.modifyRegion a slot _)
  · rw [hspace]
  · rw [hspace]
  · rw [rootFrame_modifyRegion, hpages.rootFrame]
  · intro i _
    rw [hspace]
    by_cases hi : i = slot
    · rw [hi]
      exact ⟨c, Function.update_self _ _ _⟩
    · exact ⟨_, Function.update_of_ne hi _ _⟩

/-- Nothing is mapped where the next region goes. -/
theorem ViewInv.absent_above {s : MmSystem σ} (inv : ViewInv a s) {va : U64} (hva : va ∈ userPages)
    (hle : (s.space a).nextUserBase.toNat ≤ va.toNat) :
    hasFlag (pteView (mm s.k) ((mm s.k).rootFrame a) va) mmPtePresent = false := by
  by_contra hpresent
  obtain ⟨b, hplan, -⟩ := inv.plan.planned va hva (by simpa using hpresent)
  obtain ⟨i, hi, hcontains, -⟩ := contains_of_regionPlan hplan
  rw [inv.layout.regions.contains_iff hi] at hcontains
  have hstop := (inv.layout.regions.placed i hi).stop_le
  omega

theorem ViewInv.mapAnonymous {s : MmSystem σ} (inv : ViewInv a s) {size : U64}
    {protection flags : U32} (hfits : s.Fits a (.mapAnonymous size protection flags))
    (hwhole : WiresWhole (mm s.k) a size protection flags) :
    ViewInv a (s.perform a (.mapAnonymous size protection flags)) := by
  have hlayout := (inv.layout.mapAnonymous hfits).1
  have hmap := OnlyMappings.mmMapAnonymous (mm s.k) a size protection flags
  rw [perform] at hlayout ⊢
  rcases mmMapAnonymous_cases (mm s.k) a size protection flags with
    ⟨-, e, heq⟩ | ⟨hcount, committed, region, hready, hregion, hrest⟩
  · rw [heq]
    dsimp only
    rw [setMm_mm]
    exact inv
  have hplace : Placeable (s.space a) size.toNat := (hfits _ rfl).resolve_right (Nat.not_le.2 hcount)
  have hbase : region.base = (newRegion (mm s.k) a size protection flags).base := by
    rw [hregion]
    rfl
  have hsize : region.size = (newRegion (mm s.k) a size protection flags).size := by
    rw [hregion]
    rfl
  have hbytes : region.size.toNat = mapBytes size.toNat := by
    rw [hregion]
    refine mmpAlignSizeToPage_toNat ?_
    rw [Placeable] at hplace
    omega
  have hnext : region.base = (s.space a).nextUserBase := by
    rw [hregion]
    exact mmpAlignUp_of_aligned inv.layout.regions.next_aligned inv.layout.regions.next_le
  have hregions : RegionsOk ((s.space a).withRegion hcount region) :=
    inv.layout.regions.withRegion hcount (by rw [hregion]; rfl) hbytes hplace
  have hlast : ((s.space a).withRegion hcount region).regions ⟨_, hcount⟩ = region :=
    Function.update_self _ _ _
  have hanon : region.type = mmRegionTypeAnon := by
    rw [hregion]
    rfl
  -- the pages of the new region, in the plan that has it
  have hpages : ∀ k < region.size.toNat / mmPageSize,
      region.base + BitVec.ofNat 64 (k * 4096) ∈ userPages ∧
      regionPlan (mm s.k) ((s.space a).withRegion hcount region)
        (region.base + BitVec.ofNat 64 (k * 4096)) = some .anon ∧
      hasFlag (pteView (mm s.k) ((mm s.k).rootFrame a)
        (region.base + BitVec.ofNat 64 (k * 4096))) mmPtePresent = false := by
    intro k hk
    have hlt : k * mmPageSize < region.size.toNat :=
      lt_of_lt_of_le (Nat.mul_lt_mul_of_pos_right hk (by decide)) (Nat.div_mul_le_self _ _)
    have hslot : (⟨_, hcount⟩ : Fin mmMaxVaRegions).val <
        ((s.space a).withRegion hcount region).regionCount := Nat.lt_succ_self _
    have hpage := hregions.contains_pageAt (i := k) hslot (by rw [hlast]; exact hlt)
    have hnat := hregions.pageAt_toNat (i := k) hslot (by rw [hlast]; exact hlt)
    rw [hlast] at hpage hnat
    refine ⟨hpage.2, ?_, inv.absent_above hpage.2 ?_⟩
    · refine (RegionsOk.plan_newRegion hcount hregions hpage.1).trans ?_
      rw [regionBacking, if_pos hanon]
    · rw [← hnext]
      exact le_of_le_of_eq (Nat.le_add_right _ _) hnat.symm
  have hpos : 0 < region.size.toNat / mmPageSize := by
    rw [hbytes]
    exact Nat.div_pos (mapBytes_bounds _).2.1 (by decide)
  rw [hbase, hsize] at hpages
  rw [hsize] at hpos
  have hplan := inv.plan.mmMapAnonymous rfl
    (fun va b hb => RegionsOk.plan_withRegion hcount hregions hb) hpages hpos hwhole
  rcases hrest with ⟨m₁, e, heq, hpool⟩ | ⟨m₁, heq, hpool⟩
  · rw [heq] at hplan hmap ⊢
    have hok : PlanOk ((mm s.k).rootFrame a) (regionPlan (mm s.k) (s.space a)) m₁ := by
      rcases hplan with ⟨-, -, hok⟩ | ⟨v, hv, -⟩
      · exact hok
      · cases hv
    have hspace : m₁.addressSpacePool a = { s.space a with
        regions := Function.update (s.space a).regions ⟨_, hcount⟩ region } := by
      rw [hpool, Function.update_self]
      rfl
    refine inv.of_same hmap (by rw [hspace]) (by rw [hspace]) ?_
      (fun i hi => ⟨((s.space a).regions i).committedPages, ?_⟩) hok
    · rw [MmState.rootFrame, hspace]
      rfl
    · rw [hspace]
      refine Function.update_of_ne ?_ _ _
      rintro rfl
      exact Nat.lt_irrefl _ hi
  · rw [heq] at hplan hmap hlayout ⊢
    have hok : PlanOk ((mm s.k).rootFrame a)
        (regionPlan (mm s.k) ((s.space a).withRegion hcount region)) m₁ := by
      rcases hplan with ⟨e, he, -⟩ | ⟨-, -, hok⟩
      · cases he
      · exact hok
    refine inv.of_new hlayout (by rw [mm_setMm]; exact hmap) hcount ?_
      (show RegionKind (mm s.k) region from Or.inl hanon) (by rw [mm_setMm]; exact hok)
    rw [space, mm_setMm, hpool, Function.update_self]
    rfl

theorem ViewInv.mapSection {s : MmSystem σ} (inv : ViewInv a s) {handleValue protection : U32}
    (hfits : s.Fits a (.mapSection handleValue protection)) :
    ViewInv a (s.perform a (.mapSection handleValue protection)) := by
  have hlayout := (inv.layout.mapSection hfits).1
  rw [perform] at hlayout ⊢
  rcases mmMapSectionHandle_cases inv.layout.sectionType a handleValue protection with
    ⟨-, ob', k', e, heq, rfl, -, -⟩ |
    ⟨hcount, ob', header, sec, region, -, -, hfind, -, hregion, heq⟩
  · rw [heq] at hlayout ⊢
    exact ⟨hlayout, inv.sections, inv.kinds, inv.plan⟩
  rw [heq] at hlayout ⊢
  have hused := mmpFindSectionByHeader_used hfind
  have hle : ((mm s.k).sectionPool sec).pageCount ≤ 256 := inv.sections.pageCount_le sec hused
  have hspace : (⟨ob', setMm { mm s.k with
      addressSpacePool := Function.update (mm s.k).addressSpacePool a
        (((mm s.k).addressSpacePool a).withRegion hcount region) } s.k⟩ : MmSystem σ).space a =
      (s.space a).withRegion hcount region := by
    simp only [space, mm_setMm, Function.update_self]
  refine inv.of_new hlayout ?_ hcount hspace ?_ ?_
  · rw [mm_setMm]
    exact ⟨_, .refl _⟩
  · refine Or.inr ⟨by rw [hregion]; rfl, by rw [hregion]; rfl, by rw [hregion]; rfl, sec, ?_, ?_⟩
    · rw [hregion]
      exact hfind
    · have hpage : mmPageSize = 4096 := rfl
      rw [hregion, hpage]
      simp only [sectionRegion, BitVec.toNat_ofNat]
      exact Nat.mod_eq_of_lt (by omega)
  · rw [mm_setMm]
    refine (inv.plan.mono fun va b hb => ?_).of_pool _
    have hregions := hlayout.regions
    rw [hspace] at hregions
    exact RegionsOk.plan_withRegion hcount hregions hb

/-- A call that is placeable and not left half way keeps the plan. -/
theorem ViewInv.step {s s' : MmSystem σ} {c : ViewCall} (inv : ViewInv a s)
    (hconsistent : s.Consistent a c) (hwhole : s.Whole a c) (hstep : ViewStep a s c s') :
    ViewInv a s' := by
  rw [ViewStep] at hstep
  subst hstep
  cases c with
  | fault faultAddress errorCode => exact inv.fault hconsistent
  | map c =>
    rw [performView]
    cases c with
    | mapAnonymous size protection flags => exact inv.mapAnonymous hwhole.1 hwhole.2
    | mapSection handleValue protection => exact inv.mapSection hwhole
    | nkMapMemory flags =>
      rw [perform_nkMapMemory]
      refine inv.mapAnonymous (fun bytes hbytes => ?_) fun hwired => ?_
      · refine hwhole bytes ?_
        rw [← hbytes]
        simp only [requested]
        split <;> rfl
      · -- the region of the system call is lazy
        exact absurd hwired (by decide)
    | nkMapSection handleValue protection outAddress =>
      rw [perform_nkMapSection]
      by_cases hrefused : outAddress = 0 ∨ Ke.kipIsRangeWritable outAddress 8 = false
      · rw [if_pos hrefused]
        exact inv
      · rw [if_neg hrefused]
        refine inv.mapSection fun bytes hbytes => hwhole bytes ?_
        rw [← hbytes]
        simp only [requested, if_neg hrefused]

/-- In every run of calls and faults on a fresh address space, every step leads to coherent views,
as long as requests are placeable and wired requests are not left half way. -/
theorem views_coherent (a : AddressSpaceRef) (s : MmSystem σ) (hfresh : FreshViews a s)
    (calls : List ViewCall)
    (hconsistent : Always (ViewStep a) (fun s c _ => s.Consistent a c) s calls)
    (hwhole : Always (ViewStep a) (fun s c _ => s.Whole a c) s calls) :
    Always (ViewStep a) (fun _ _ s' => CoherentViews a (mm s'.k)) s calls :=
  (hconsistent.and hwhole).imp (I := ViewInv a)
    (fun _ _ _ inv hc hstep => inv.step hc.1 hc.2 hstep)
    (fun _ _ _ inv hstep hc => (inv.step hc.1 hc.2 hstep).coherentViews) hfresh.viewInv

/-! ## A small machine -/

/-- The tables of a space whose root leads to one table, and this to no other for user pages. -/
theorem tableAt_userPages {root t : ℕ} (hroot : ∀ i : TableIx, i ≠ 0 → i.val < 256 →
      pteChild (m.mem root i) = none)
    (hfirst : pteChild (m.mem root 0) = some t)
    (hnext : ∀ i : TableIx, i ≠ 0 → pteChild (m.mem t i) = none) {va : U64} (hva : va ∈ userPages) :
    (m.tableAt root va 1 = none ∨ vaPath va 1 = [0] ∧ m.tableAt root va 1 = some t) ∧
      m.tableAt root va 2 = none ∧ m.tableAt root va 3 = none := by
  have hzero : m.tableAt root va 0 = some root := rfl
  have hbase : mmUserBase.toNat = 0x40000000 := by decide
  have htop : mmUserTop.toNat = 0x800000000000 := by decide
  have h0 := tableIndex_val va 0
  have h1 := tableIndex_val va 1
  norm_num at h0 h1
  have huser := hva.2
  rw [hbase, htop] at huser
  by_cases hi : tableIndex va 0 = 0
  · have hone : m.tableAt root va 1 = some t := by
      rw [tableAt_succ, hzero, Option.bind_some, hi, hfirst]
    have hne : tableIndex va 1 ≠ 0 := by
      intro h
      rw [hi] at h0
      rw [h] at h1
      have hz : ((0 : TableIx) : ℕ) = 0 := rfl
      rw [hz] at h0 h1
      omega
    have htwo : m.tableAt root va 2 = none := by
      rw [tableAt_succ, hone, Option.bind_some, hnext _ hne]
    refine ⟨Or.inr ⟨by rw [vaPath, vaPath, hi]; rfl, hone⟩, htwo, ?_⟩
    rw [tableAt_succ, htwo, Option.bind_none]
  · have hone : m.tableAt root va 1 = none := by
      rw [tableAt_succ, hzero, Option.bind_some, hroot _ hi (by omega)]
    have htwo : m.tableAt root va 2 = none := by
      rw [tableAt_succ, hone, Option.bind_none]
    refine ⟨Or.inl hone, htwo, ?_⟩
    rw [tableAt_succ, htwo, Option.bind_none]

/-- A path in such a space leads to the root or to the one table. -/
theorem follow_userPages {root t : ℕ} (hroot : ∀ i : TableIx, i ≠ 0 → i.val < 256 →
      pteChild (m.mem root i) = none)
    (hfirst : pteChild (m.mem root 0) = some t)
    (hnext : ∀ i : TableIx, i ≠ 0 → pteChild (m.mem t i) = none) {p : List TableIx}
    (hp : p ∈ tablePaths userPages) {f : ℕ} (hf : follow pteChild m.mem root p = some f) :
    (p = [] ∧ f = root) ∨ (p = [0] ∧ f = t) := by
  obtain ⟨va, hva, n, hn, rfl⟩ := hp
  obtain ⟨hone, htwo, hthree⟩ := tableAt_userPages hroot hfirst hnext hva
  have hf' : m.tableAt root va n = some f := hf
  have hcases : n = 0 ∨ n = 1 ∨ n = 2 ∨ n = 3 := by omega
  rcases hcases with rfl | rfl | rfl | rfl
  · exact Or.inl ⟨rfl, (Option.some.inj hf').symm⟩
  · rcases hone with hnone | ⟨hpath, hsome⟩
    · rw [hnone] at hf'
      cases hf'
    · rw [hsome] at hf'
      exact Or.inr ⟨hpath, (Option.some.inj hf').symm⟩
  · rw [htwo] at hf'
    cases hf'
  · rw [hthree] at hf'
    cases hf'

/-- The tables of such a space form a tree, and map no user page. -/
theorem tablesOk_userPages {root t : ℕ} (hroot : ∀ i : TableIx, i ≠ 0 → i.val < 256 →
      pteChild (m.mem root i) = none)
    (hfirst : pteChild (m.mem root 0) = some t)
    (hnext : ∀ i : TableIx, i ≠ 0 → pteChild (m.mem t i) = none) (hne : root ≠ t)
    (hlive : ¬Free m root ∧ ¬Free m t) :
    TablesOk userPages {root} m ∧ ∀ va ∈ userPages, pteView m root va = 0 := by
  have hpaths := fun p hp f => follow_userPages hroot hfirst hnext (p := p) hp (f := f)
  refine ⟨⟨?_, ?_⟩, fun va hva => ?_⟩
  · rintro r rfl r' rfl p hp p' hp' f hf hf'
    rcases hpaths p hp f hf with ⟨rfl, rfl⟩ | ⟨rfl, rfl⟩ <;>
      rcases hpaths p' hp' f hf' with ⟨rfl, h⟩ | ⟨rfl, h⟩
    · rfl
    · exact absurd h hne
    · exact absurd h.symm hne
    · rfl
  · rintro f ⟨r, rfl, p, hp, hf⟩
    rcases hpaths p hp f hf with ⟨-, rfl⟩ | ⟨-, rfl⟩
    · exact hlive.1
    · exact hlive.2
  · obtain ⟨-, htwo, hthree⟩ := tableAt_userPages hroot hfirst hnext hva
    rw [pteView, hthree, htwo]

/-- The sections where one is in use, with one page. -/
theorem sectionsOk_single {page : ℕ} (hused : ∀ sec, m.sectionInUse sec = decide (sec = 0))
    (hcount : (m.sectionPool 0).pageCount = 1)
    (hpage : (m.sectionPool 0).pages 0 = pageAddress page) (htracked : page < m.trackedPages) :
    SectionsOk m ∧ ∀ f, IsSectionPage m f → f = page := by
  have hzero : ∀ sec, m.sectionInUse sec = true → sec = 0 := by
    intro sec hsec
    rw [hused, decide_eq_true_eq] at hsec
    exact hsec
  have hframe : ∀ i f, sectionFrame m 0 i = some f → i = 0 ∧ f = page := by
    intro i f hf
    rw [sectionFrame] at hf
    split at hf
    · rename_i hi
      obtain rfl : i = 0 := by omega
      have hfirst : (⟨0, hi.2⟩ : Fin mmMaxSectionPages) = 0 := rfl
      rw [hfirst, hpage, pteFrame_pageAddress (lt_of_lt_trackedPages htracked)] at hf
      exact ⟨rfl, (Option.some.inj hf).symm⟩
    · cases hf
  refine ⟨⟨?_, ?_, ?_, ?_⟩, ?_⟩
  · intro sec hsec
    rw [hzero sec hsec, hcount]
    exact Nat.one_pos
  · intro sec hsec
    rw [hzero sec hsec, hcount]
    decide
  · intro sec hsec i hi
    rw [hzero sec hsec] at hi ⊢
    have hi0 : i = 0 := by
      refine Fin.ext ?_
      show i.val = 0
      omega
    rw [hi0]
    exact ⟨page, htracked, hpage⟩
  · intro sec sec' hsec hsec' i i' f hf hf'
    rw [hzero sec hsec] at hf ⊢
    rw [hzero sec' hsec'] at hf' ⊢
    exact ⟨rfl, (hframe i f hf).1.trans (hframe i' f hf').1.symm⟩
  · rintro f ⟨sec, i, hsec, hf⟩
    rw [hzero sec hsec] at hf
    exact (hframe i f hf).2

/-- The creation of a section of one page, with the handle 4. -/
def sampleCreated : ObState MmState × MmState × Except KStatus U32 :=
  mmCreateSectionHandle sampleSystem.ob sampleSystem.k 0x1000 3

/-- The machine with this section. -/
def sampleSection : MmSystem MmState := ⟨sampleCreated.1, sampleCreated.2.1⟩

theorem sampleSection_memory :
    (∀ i : TableIx, i ≠ 0 → i.val < 256 → pteChild ((mm sampleSection.k).mem 0x103 i) = none) ∧
      pteChild ((mm sampleSection.k).mem 0x103 0) = some 17 ∧
      (∀ i : TableIx, i ≠ 0 → pteChild ((mm sampleSection.k).mem 17 i) = none) ∧
      (mm sampleSection.k).rootFrame 0 = 0x103 ∧ (mm sampleSection.k).trackedPages = 272 ∧
      mmpIsPageAllocated (mm sampleSection.k) 0x103 = true ∧
      mmpIsPageAllocated (mm sampleSection.k) 17 = true ∧
      mmpIsPageAllocated (mm sampleSection.k) 0x104 = true := by decide +kernel

theorem sampleSection_section :
    (∀ sec, (mm sampleSection.k).sectionInUse sec = decide (sec = 0)) ∧
      ((mm sampleSection.k).sectionPool 0).pageCount = 1 ∧
      ((mm sampleSection.k).sectionPool 0).pages 0 = pageAddress 0x104 ∧
      (mm sampleSection.k).sectionType = some 0 ∧
      ((mm sampleSection.k).addressSpacePool 0).regionCount = 0 ∧
      ((mm sampleSection.k).addressSpacePool 0).nextUserBase = mmUserBase := by decide +kernel

theorem sampleSection_sectionType : SectionTypeOk sampleSection.ob sampleSection.k := by
  have htypes : sampleSection.ob.typePool = sampleSystem.ob.typePool := by
    rw [sampleSection]
    dsimp only
    rw [sampleCreated]
    exact mmCreateSectionHandle_typePool _ _ _ _
  intro t ht
  rw [sampleSection_section.2.2.2.1, Option.some.injEq] at ht
  rw [htypes, ← ht]
  exact sampleOb_deleteRoutine

theorem sampleSection_fresh : FreshViews 0 sampleSection := by
  obtain ⟨hroot, hfirst, hnext, hframe, htracked, hlive, hlive', hlivePage⟩ := sampleSection_memory
  obtain ⟨hused, hcount, hpage, -, hregions, hnextBase⟩ := sampleSection_section
  have hnot : ∀ f, mmpIsPageAllocated (mm sampleSection.k) f = true →
      ¬Free (mm sampleSection.k) f := by
    rintro f hf ⟨-, hfree⟩
    rw [hf] at hfree
    cases hfree
  have htables := tablesOk_userPages hroot hfirst hnext (by decide) ⟨hnot _ hlive, hnot _ hlive'⟩
  have hsections := sectionsOk_single hused hcount hpage (by rw [htracked]; decide)
  exact
    { fresh := by
        rw [Fresh, space]
        exact ⟨hregions, hnextBase⟩
      sectionType := sampleSection_sectionType
      sections := hsections.1
      sectionPages := fun f hf => hsections.2 f hf ▸ hnot _ hlivePage
      tables := by
        rw [hframe]
        exact htables.1
      absent := by
        intro va hva
        rw [MmState.userPte, hframe, htables.2 va hva]
        decide }

theorem views_coherent_sample : Always (ViewStep 0) (fun _ _ s' => CoherentViews 0 (mm s'.k))
    sampleSection
    [.map (.mapSection 4 3), .fault 0x40000123 6, .map (.mapAnonymous 0x1000 3 0)] := by
  refine views_coherent 0 sampleSection sampleSection_fresh _ ?_ ?_
  · rintro s₁ rfl
    refine ⟨trivial, ?_⟩
    rintro s₂ rfl
    refine ⟨show _ = _ by decide +kernel, ?_⟩
    rintro s₃ rfl
    exact ⟨trivial, trivial⟩
  · rintro s₁ rfl
    refine ⟨fun bytes hbytes => ?_, ?_⟩
    · have hrequested : sampleSection.requested (.mapSection 4 3) = some 4096 := by
        decide +kernel
      rw [hbytes, Option.some.injEq] at hrequested
      rw [hrequested]
      exact Or.inl (show _ ≤ _ by decide +kernel)
    rintro s₂ rfl
    refine ⟨trivial, ?_⟩
    rintro s₃ rfl
    refine ⟨⟨fun bytes hbytes => ?_, fun h => absurd h (by decide)⟩, trivial⟩
    cases hbytes
    exact Or.inl (show _ ≤ _ by decide +kernel)

/-- A wired request for more than there is fails after it has mapped pages where the view of a
section is placed next. -/
theorem view_over_wired_pages :
    FreshViews 0 sampleSection ∧
      Always (ViewStep 0) (fun s c _ => s.Consistent 0 c) sampleSection
        [.map (.mapAnonymous 0x20000 3 2), .map (.mapSection 4 3)] ∧
      ¬Always (ViewStep 0) (fun _ _ s' => CoherentViews 0 (mm s'.k)) sampleSection
        [.map (.mapAnonymous 0x20000 3 2), .map (.mapSection 4 3)] := by
  refine ⟨sampleSection_fresh, ?_, ?_⟩
  · rintro s₁ rfl
    refine ⟨trivial, ?_⟩
    rintro s₂ rfl
    exact ⟨trivial, trivial⟩
  · intro h
    have hlast := fun hmaps => ((h _ rfl).2 _ rfl).1.mapped 0 0 hmaps 0
    revert hlast
    decide +kernel

end MmSystem

end NtxKernel.Mm
