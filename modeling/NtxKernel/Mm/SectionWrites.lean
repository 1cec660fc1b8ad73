import NtxKernel.Mm.SectionFrames

/-!
# Writing to sections

The pages of a section are written through views. A view is made with a handle, whose access is
checked then and never again: the handle may be closed and the page mapped later by a fault.

* `lentAt` is what the views of an address space lend, by its regions and the sections.
* `GrantSystem` keeps, beside the system, the references that regions hold and the access of the
  handle that each view was made with.
* `GrantInv` is the invariant. It ties the handle table, the regions and the page tables together.
* `section_writes_granted`: in every run, a page of a section is mapped for writing only where it
  lies in a view that was made with a handle that granted `MM_SECTION_ACCESS_MAP_WRITE`.
* `sections_outlive_users`: in every run, a section keeps its pages until the last user of its
  object is gone, and then gives them back.
-/

namespace NtxKernel.Mm

open Foundations Ob MmGlobals

/-! ## The pages of the address space -/

/-- The pages that calls may come to: those of the user range, and those behind it that the pages of
a wired region may run into. -/
def reachedPages : Set U64 :=
  {va | mmPageSize ∣ va.toNat ∧ mmUserBase.toNat ≤ va.toNat ∧
    va.toNat ≤ mmUserTop.toNat + mmMaxTrackedPages * mmPageSize}

theorem userPages_subset_reachedPages : userPages ⊆ reachedPages := fun _ h =>
  ⟨h.1, h.2.1, Nat.le_add_right_of_le (Nat.le_of_lt h.2.2)⟩

theorem reachedPages_lt {va : U64} (h : va ∈ reachedPages) : va.toNat < 2 ^ 48 :=
  lt_of_le_of_lt h.2.2 (by decide)

theorem separated_reachedPages : Separated reachedPages := by
  intro va hva va' hva' h
  have hpage := page_eq_of_indices (reachedPages_lt hva) (reachedPages_lt hva') h
  refine BitVec.eq_of_toNat_eq ?_
  rw [← Nat.div_mul_cancel hva.1, hpage, Nat.div_mul_cancel hva'.1]

/-- The pages from an address of the user range on are reached, as many as are tracked. -/
theorem pageBehind_mem {base : U64} (haligned : mmPageSize ∣ base.toNat)
    (hbase : mmUserBase.toNat ≤ base.toNat) (htop : base.toNat ≤ mmUserTop.toNat) {i : ℕ}
    (hi : i ≤ mmMaxTrackedPages) :
    (pageBehind base i).toNat = base.toNat + i * mmPageSize ∧ pageBehind base i ∈ reachedPages := by
  have hmul : i * mmPageSize ≤ mmMaxTrackedPages * mmPageSize := Nat.mul_le_mul_right _ hi
  have hmax : mmMaxTrackedPages * mmPageSize = 2 ^ 30 := by decide
  have htop' : mmUserTop.toNat = 2 ^ 47 := by decide
  have hval : (pageBehind base i).toNat = base.toNat + i * mmPageSize := by
    rw [pageBehind, BitVec.toNat_add, BitVec.toNat_ofNat, Nat.mod_eq_of_lt (a := i * mmPageSize)
      (by omega), Nat.mod_eq_of_lt (by omega)]
  refine ⟨hval, ?_, ?_, ?_⟩ <;> rw [hval]
  · exact Nat.dvd_add haligned (Nat.dvd_mul_left _ _)
  · exact Nat.le_add_right_of_le hbase
  · exact Nat.add_le_add htop hmul

/-- Behind the user range there is no table, where the root has none. -/
theorem tablesOk_reachedPages {root : ℕ} (ok : TablesOk userPages {root} m)
    (hroot : pteChild (m.mem root 256) = none) :
    TablesOk reachedPages {root} m ∧
      ∀ va ∈ reachedPages, va ∉ userPages → pteView m root va = 0 := by
  have htop : mmUserTop.toNat = 2 ^ 47 := by decide
  have hmax : mmMaxTrackedPages * mmPageSize = 2 ^ 30 := by decide
  have hbehind : ∀ va ∈ reachedPages, va ∉ userPages → ∀ n, m.tableAt root va (n + 1) = none := by
    intro va hva hnot n
    have hge : mmUserTop.toNat ≤ va.toNat := by
      by_contra hlt
      exact hnot ⟨hva.1, hva.2.1, Nat.not_le.1 hlt⟩
    have hle := hva.2.2
    have hindex := tableIndex_val va 0
    norm_num at hindex
    have hlast : tableIndex va 0 = 256 := by
      refine Fin.ext ?_
      rw [hindex, show ((256 : TableIx) : ℕ) = 256 from rfl]
      omega
    induction n with
    | zero =>
      have hzero : m.tableAt root va 0 = some root := rfl
      rw [tableAt_succ, hzero, Option.bind_some, hlast, hroot]
    | succ n ih => rw [tableAt_succ, ih, Option.bind_none]
  have hpaths : ∀ p ∈ tablePaths reachedPages, ∀ f, follow pteChild m.mem root p = some f →
      p ∈ tablePaths userPages := by
    rintro p ⟨va, hva, n, hn, rfl⟩ f hf
    by_cases huser : va ∈ userPages
    · exact ⟨va, huser, n, hn, rfl⟩
    cases n with
    | zero =>
      exact ⟨mmUserBase, ⟨by decide, le_rfl, by decide⟩, 0, hn, rfl⟩
    | succ n =>
      have hnone : m.tableAt root va (n + 1) = none := hbehind va hva huser n
      rw [MmState.tableAt, hf] at hnone
      cases hnone
  refine ⟨⟨?_, ?_⟩, fun va hva hnot => ?_⟩
  · rintro r rfl r' rfl p hp p' hp' f hf hf'
    exact ok.tree _ rfl _ rfl p (hpaths p hp f hf) p' (hpaths p' hp' f hf') f hf hf'
  · rintro f ⟨r, rfl, p, hp, hf⟩
    exact ok.live f ⟨r, rfl, p, hpaths p hp f hf, hf⟩
  · rw [pteView, hbehind va hva hnot 2, hbehind va hva hnot 1]

/-! ## What views lend -/

/-- The frame that a view lends at a page, and whether for writing. -/
def lentAt (m : MmState) (space : MmAddressSpace) (va : U64) : Option (ℕ × Bool) :=
  (mmpFindRegion space va).bind fun slot =>
    if (space.regions slot).type = mmRegionTypeSection then
      (sharedPage m (space.regions slot) va).map fun pa =>
        (pteFrame pa, hasFlag (space.regions slot).protection mmProtWrite)
    else none

variable {m m' : MmState} {space space' : MmAddressSpace} {va : U64} {frame : ℕ} {w : Bool}

theorem lentAt_eq_some : lentAt m space va = some (frame, w) ↔
    ∃ slot pa, mmpFindRegion space va = some slot ∧
      (space.regions slot).type = mmRegionTypeSection ∧
      sharedPage m (space.regions slot) va = some pa ∧ frame = pteFrame pa ∧
      w = hasFlag (space.regions slot).protection mmProtWrite := by
  rw [lentAt, Option.bind_eq_some_iff]
  constructor
  · rintro ⟨slot, hfind, h⟩
    split at h
    swap
    · cases h
    next htype =>
    obtain ⟨pa, hpa, heq⟩ := Option.map_eq_some_iff.1 h
    cases heq
    exact ⟨slot, pa, hfind, htype, hpa, rfl, rfl⟩
  · rintro ⟨slot, pa, hfind, htype, hpa, rfl, rfl⟩
    exact ⟨slot, hfind, by rw [if_pos htype, hpa, Option.map_some]⟩

/-- What is lent is a page of a section. -/
theorem isSectionPage_of_lentAt (sections : SectionsOk m)
    (h : lentAt m space va = some (frame, w)) : IsSectionPage m frame := by
  obtain ⟨slot, pa, -, htype, hpa, rfl, -⟩ := lentAt_eq_some.1 h
  obtain ⟨page, hpage, rfl, hsection⟩ := sharedPage_section sections htype hpa
  rwa [pteFrame_pageAddress (lt_of_lt_trackedPages hpage)]

/-- Outside of the regions nothing is lent. -/
theorem lentAt_none (h : mmpFindRegion space va = none) : lentAt m space va = none := by
  rw [lentAt, h, Option.bind_none]

/-- Another region lends nothing that was lent before. -/
theorem lentAt_withRegion {h : space.regionCount < mmMaxVaRegions} {r : MmVaRegion}
    {p : ℕ × Bool} (hlent : lentAt m space va = some p) :
    lentAt m (space.withRegion h r) va = some p := by
  obtain ⟨frame, w⟩ := p
  obtain ⟨slot, pa, hfind, htype, hpa, hframe, hw⟩ := lentAt_eq_some.1 hlent
  have hlt := (mmpFindRegion_sound hfind).1
  have hsame : (space.withRegion h r).regions slot = space.regions slot := by
    refine Function.update_of_ne ?_ _ _
    rintro rfl
    exact Nat.lt_irrefl _ hlt
  refine lentAt_eq_some.2 ⟨slot, pa, mmpFindRegion_withRegion hfind, ?_, ?_, hframe, ?_⟩ <;>
    rw [hsame]
  · exact htype
  · exact hpa
  · exact hw

/-- What is lent depends on the regions that are counted, but for the number of their committed
pages, and on the pages that their sections have. -/
theorem lentAt_congr (hcount : space'.regionCount = space.regionCount)
    (hregions : ∀ i : Fin mmMaxVaRegions, i.val < space.regionCount → ∃ c,
      space'.regions i = { space.regions i with committedPages := c })
    (hshared : ∀ i : Fin mmMaxVaRegions, i.val < space.regionCount →
      (space.regions i).type = mmRegionTypeSection → ∀ va,
        sharedPage m' (space.regions i) va = sharedPage m (space.regions i) va) :
    lentAt m' space' = lentAt m space := by
  have hfind : ∀ va, mmpFindRegion space' va = mmpFindRegion space va := by
    intro va
    rw [mmpFindRegion, mmpFindRegion, hcount]
    congr 1
    funext i
    by_cases hi : i.val < space.regionCount
    · obtain ⟨c, hc⟩ := hregions i hi
      rw [hc]
      rfl
    · rw [decide_eq_false hi]
      rfl
  funext va
  rw [lentAt, lentAt, hfind]
  cases hslot : mmpFindRegion space va with
  | none => rfl
  | some i =>
    have hi := (mmpFindRegion_sound hslot).1
    obtain ⟨c, hc⟩ := hregions i hi
    rw [Option.bind_some, Option.bind_some, hc]
    by_cases htype : (space.regions i).type = mmRegionTypeSection
    · have hsame : sharedPage m' { space.regions i with committedPages := c } va =
          sharedPage m (space.regions i) va := hshared i hi htype va
      rw [if_pos htype, if_pos htype, hsame]
    · rw [if_neg htype, if_neg htype]

/-- The page of a view depends on the section of its object. -/
theorem sharedPage_stay {o : ObjectRef} {sec : SectionRef} {r : MmVaRegion}
    (hobject : r.backingObject = some o) (hapart : HeadersApart m) (hapart' : HeadersApart m')
    (hused : m.sectionInUse sec = true) (hheader : (m.sectionPool sec).header = some o)
    (hused' : m'.sectionInUse sec = true) (hpool : m'.sectionPool sec = m.sectionPool sec)
    (va : U64) : sharedPage m' r va = sharedPage m r va := by
  have hfind := (mmpFindSectionByHeader_eq_some hapart).2 ⟨hused, hheader⟩
  have hfind' := (mmpFindSectionByHeader_eq_some hapart').2
    ⟨hused', (congrArg MmSectionObject.header hpool).trans hheader⟩
  simp only [sharedPage, hobject, hfind, hfind', hpool]

/-! ## Mapping and faults -/

variable {root : ℕ} {S : Set ℕ} {lent : U64 → Option (ℕ × Bool)} {a : AddressSpaceRef}

/-- `MmMapAnonymous`, with any outcome: what it maps are frames of the space. -/
theorem SpaceHolds.mapAnonymous (ok : SpaceHolds reachedPages root S lent m)
    (hroot : m.rootFrame a = root) (regions : RegionsBelow (m.addressSpacePool a))
    (hlent : ∀ va : U64, (m.addressSpacePool a).nextUserBase.toNat ≤ va.toNat → lent va = none)
    (size : U64) (protection flags : U32) :
    SpaceHolds reachedPages root S lent (mmMapAnonymous m a size protection flags).1 := by
  rcases mmMapAnonymous_cases m a size protection flags with
    ⟨-, e, heq⟩ | ⟨hcount, -, -, hready, -⟩
  · rw [heq]
    exact ok
  obtain ⟨region, hregion⟩ : ∃ r, newRegion m a size protection flags = r := ⟨_, rfl⟩
  have hbase : region.base = (m.addressSpacePool a).nextUserBase := by
    rw [← hregion]
    exact mmpAlignUp_of_aligned regions.next_aligned regions.next_le
  have hwrite : SpaceHolds reachedPages root S lent
      (m.modifyRegion a ⟨(m.addressSpacePool a).regionCount, hcount⟩ fun _ => region) :=
    ok.quiet (.modifyAddressSpace ok.tables a _)
  have hroot' := (rootFrame_modifyRegion m a ⟨(m.addressSpacePool a).regionCount, hcount⟩
    fun _ => region).trans hroot
  rw [mmMapAnonymous_eq hready hcount hregion]
  by_cases hwired : hasFlag region.flags mmRegionFlagWired = true
  swap
  · rw [if_neg hwired]
    exact hwrite.quiet (.addRegion hwrite.tables a _ _)
  rw [if_pos hwired]
  have hpages : ∀ i ≤ mmMaxTrackedPages,
      (pageBehind region.base i).toNat = region.base.toNat + i * mmPageSize ∧
        pageBehind region.base i ∈ reachedPages := fun i hi => by
    rw [hbase]
    exact pageBehind_mem regions.next_aligned regions.base_le regions.next_le hi
  have hall := hwrite.mapWired separated_reachedPages
    ⟨(m.addressSpacePool a).regionCount, hcount⟩ region.protection region.flags
    (fun i hi => (hpages i hi).2)
    (fun i hi => hlent _ (by rw [(hpages i hi).1, hbase]; exact Nat.le_add_right _ _))
    region.allPages.length 0 (Nat.zero_le _) hroot' (fun i hi => absurd hi (Nat.not_lt_zero i))
  have hzero : BitVec.ofNat 64 (0 * mmPageSize) = 0 := by rw [Nat.zero_mul]; rfl
  rw [hzero] at hall
  generalize mmMapWired a _ region.base region.protection region.flags region.allPages.length 0 _ =
    r at hall ⊢
  obtain ⟨m₁, e | _⟩ := r
  · exact hall
  · exact hall.quiet (.addRegion hall.tables a _ _)

/-- A page fault, with any error code: it maps a frame of the space or one that is lent there. -/
theorem SectionShares.fault
    (ok : SectionShares reachedPages root (lentAt m (m.addressSpacePool a)) m)
    (hroot : m.rootFrame a = root) (regions : RegionsBelow (m.addressSpacePool a))
    (kinds : ∀ i : Fin mmMaxVaRegions, i.val < (m.addressSpacePool a).regionCount →
      RightsKind ((m.addressSpacePool a).regions i)) (va errorCode : U64) :
    ∃ m₁, OnlyPages m m₁ ∧
      SpaceHolds reachedPages root {f | IsSectionPage m f} (lentAt m (m.addressSpacePool a)) m₁ ∧
      Committed a m₁ (mmHandlePageFault m a va errorCode).1 := by
  rcases mmHandlePageFault_cases m a va errorCode with
    ⟨e, heq⟩ | ⟨hready, slot, hfind, hfirst | ⟨-, -, pte, hquery, hcow, heq⟩⟩
  · rw [heq]
    exact ⟨m, .refl m, ok.holds, .refl a m⟩
  all_goals have hva := userPages_subset_reachedPages (regions.mem_userPages hfind)
  · have hpage := (regions.find_mmpAlignDown va).trans hfind
    rcases kinds slot (mmpFindRegion_sound hfind).1 with hanon | ⟨htype, hflags⟩
    · -- nothing is lent in a region of anonymous memory
      have hnone : lentAt m (m.addressSpacePool a) (mmpAlignDown va 4096) = none := by
        rw [lentAt, hpage, Option.bind_some, if_neg (by rw [hanon]; decide)]
      rw [mmHandlePageFault_firstAccess hready hfind hanon hfirst]
      refine ⟨_, .mmMapZeroPage m a _ _ _, ?_, .commitPage a slot _⟩
      rcases ok.holds.mapZeroPage separated_reachedPages hroot hva
          ((m.addressSpacePool a).regions slot).protection
          ((m.addressSpacePool a).regions slot).flags (fun hmay => ok.holds.not_shared hva hmay
            (by rintro ⟨w, h, -⟩; rw [hnone] at h; cases h)) with
        ⟨m', e, heq, hquiet⟩ | ⟨m', heq, hholds, -⟩
      · rw [heq]
        exact ok.holds.quiet hquiet
      · rw [heq]
        exact hholds
    · have hshared := mmHandlePageFault_shared hready hfind (by rw [htype]; decide) hfirst
      cases hpa : sharedPage m ((m.addressSpacePool a).regions slot) (mmpAlignDown va 4096) with
      | none =>
        rw [hpa] at hshared
        obtain ⟨e, heq⟩ := hshared
        rw [heq]
        exact ⟨m, .refl m, ok.holds, .refl a m⟩
      | some pa =>
        rw [hpa] at hshared
        obtain ⟨flags, hflagsEq, heq⟩ := hshared
        obtain ⟨page, hlt, rfl, -⟩ := sharedPage_section ok.sections htype hpa
        have hlent : lentAt m (m.addressSpacePool a) (mmpAlignDown va 4096) =
            some (page, hasFlag ((m.addressSpacePool a).regions slot).protection mmProtWrite) :=
          lentAt_eq_some.2 ⟨slot, _, hpage, htype, hpa,
            (pteFrame_pageAddress (lt_of_lt_trackedPages hlt)).symm, rfl⟩
        obtain ⟨hwritable, -, -, hcow⟩ := hasFlag_mmpProtectionToPte
          ((m.addressSpacePool a).regions slot).protection
          ((m.addressSpacePool a).regions slot).flags
        rw [← hflagsEq, hflags] at hwritable hcow
        have haddress : flags &&& mmPteAddrMask = 0 := by
          rw [hflagsEq]
          exact mmpProtectionToPte_address _ _
        have hmap := ok.holds.mapLent separated_reachedPages hroot hva hlent haddress
          (hcow.trans (by decide))
          (fun h => by rw [hwritable] at h; exact (Bool.and_eq_true_iff.1 h).1)
        refine ⟨_, (OnlyPages.mmpRetainPage m (pageAddress page)).trans (.mmAsMapPage _ a _ _ _),
          hmap, ?_⟩
        rcases heq with heq | heq <;> rw [heq]
        · exact .refl a _
        · exact .commitPage a slot _
  · have hpte := (mmAsQueryPte_spec ok.holds.tables (a := a) (show _ ∈ _ from hroot) hva).2 pte
      hquery
    rw [hroot] at hpte
    rw [hpte] at hcow heq
    rw [heq]
    exact ⟨_, .mmpCopyOnWrite .., ok.holds.copyOnWrite separated_reachedPages hroot hva hcow,
      .refl a _⟩

/-- The regions depend on those that are counted. -/
theorem RegionsBelow.of_counted (ok : RegionsBelow space)
    (hcount : space'.regionCount = space.regionCount)
    (hnext : space'.nextUserBase = space.nextUserBase)
    (hregions : ∀ i : Fin mmMaxVaRegions, i.val < space.regionCount →
      space'.regions i = space.regions i) : RegionsBelow space' := by
  constructor <;> simp only [hcount, hnext]
  · exact ok.base_le
  · exact ok.next_le
  · exact ok.next_aligned
  · exact fun i hi => by rw [hregions i hi]; exact ok.base_aligned i hi
  · exact fun i hi => by rw [hregions i hi]; exact ok.stop_aligned i hi
  · exact fun i hi => by rw [hregions i hi]; exact ok.above i hi
  · exact fun i hi => by rw [hregions i hi]; exact ok.below i hi
  · exact fun i j hi hj => by rw [hregions i hi, hregions j hj]; exact ok.apart i j hi hj

/-- Behind the regions nothing is lent. -/
theorem RegionsBelow.lentAt_none (ok : RegionsBelow space)
    (h : space.nextUserBase.toNat ≤ va.toNat) : lentAt m space va = none := by
  refine Mm.lentAt_none ?_
  cases hfind : mmpFindRegion space va with
  | none => rfl
  | some i =>
    obtain ⟨hi, hva⟩ := mmpFindRegion_sound hfind
    have hlt := ok.lt_next hi hva
    omega

/-! ## The system -/

variable {σ : Type} [MmGlobals σ]

/-- The access that `MmMapSectionHandle` asks of the handle. -/
def mapAccess (protection : U32) : U32 :=
  if hasFlag protection mmProtWrite then mmSectionAccessMapRead ||| mmSectionAccessMapWrite
  else mmSectionAccessMapRead

/-- The two managers, the references to objects that are held outside of handles, and for the region
in each slot the object of the handle that it was mapped with and the access that the handle had
then. -/
structure GrantSystem (σ : Type) extends MmSystem σ where
  held : ObjectRef → ℕ
  views : Fin mmMaxVaRegions → Option (ObjectRef × U32)

/-- The calls of a run. -/
inductive GrantCall
  | createSection (size : U64) (desiredAccess : U32)
  | insertHandle (object : ObjectRef) (grantedAccess : U32)
  | closeHandle (handleValue : U32)
  | mapSection (handleValue protection : U32)
  | mapAnonymous (size : U64) (protection regionFlags : U32)
  | fault (faultAddress errorCode : U64)

namespace GrantSystem

/-- The state after a call in the address space `a`. A region that maps a section holds the
reference that the call was given. -/
def performGrant (a : AddressSpaceRef) (s : GrantSystem σ) : GrantCall → GrantSystem σ
  | .createSection size access =>
    let r := mmCreateSectionHandle s.ob s.k size access
    { s with ob := r.1, k := r.2.1 }
  | .insertHandle o access => { s with ob := (obInsertHandle s.ob o access).1 }
  | .closeHandle v =>
    let r := obCloseHandle s.ob s.k v
    { s with ob := r.1, k := r.2.1 }
  | .mapSection v protection =>
    match mmMapSectionHandle s.ob s.k a v protection,
        obpFindHandleEntry s.ob.kernelHandleTable v with
    | (ob, k, .ok _), some (_, e) =>
      { ob := ob, k := k
        held := Function.update s.held e.object (s.held e.object + 1)
        views := fun i => if i.val = (s.space a).regionCount then some (e.object, e.grantedAccess)
          else s.views i }
    | (ob, k, _), _ => { s with ob := ob, k := k }
  | .mapAnonymous size protection flags =>
    { s with k := setMm (mmMapAnonymous (mm s.k) a size protection flags).1 s.k }
  | .fault va errorCode =>
    { s with k := setMm (mmHandlePageFault (mm s.k) a va errorCode).1 s.k }

/-- A handle is inserted for an object that is in use. -/
def Allowed (s : GrantSystem σ) : GrantCall → Prop
  | .insertHandle o _ => s.ob.objectInUse o = true
  | _ => True

/-- A step of a run. -/
def GrantStep (a : AddressSpaceRef) (s : GrantSystem σ) (c : GrantCall) (s' : GrantSystem σ) :
    Prop :=
  s.Allowed c ∧ s' = s.performGrant a c

/-- The region is a view of a section in use. Its object is held, and it was mapped with the access
that its protection needs. -/
structure IsView (s : GrantSystem σ) (slot : Fin mmMaxVaRegions) (r : MmVaRegion) : Prop where
  type : r.type = mmRegionTypeSection
  flags : r.flags = mmRegionFlagLazy
  object : ∃ o access sec, r.backingObject = some o ∧ s.views slot = some (o, access) ∧
    0 < s.held o ∧ (mm s.k).sectionInUse sec = true ∧ ((mm s.k).sectionPool sec).header = some o ∧
    access &&& mapAccess r.protection = mapAccess r.protection

/-- The handle table, the sections, the regions of the address space `a` and its page tables. -/
structure GrantInv (a : AddressSpaceRef) (root : ℕ) (s : GrantSystem σ) : Prop where
  ready : (mm s.k).ready = true
  rootFrame : (mm s.k).rootFrame a = root
  kept : SectionsKept s.ob s.k s.held
  /-- References are fewer than the count of an object can count. -/
  bounded : ∀ o, s.held o + mmMaxVaRegions < 2 ^ 31 + (s.space a).regionCount
  count_le : (s.space a).regionCount ≤ mmMaxVaRegions
  regions : RegionsBelow (s.space a)
  kinds : ∀ i : Fin mmMaxVaRegions, i.val < (s.space a).regionCount →
    ((s.space a).regions i).type = mmRegionTypeAnon ∨ s.IsView i ((s.space a).regions i)
  shares : SectionShares reachedPages root (lentAt (mm s.k) (s.space a)) (mm s.k)

namespace GrantInv

variable {s : GrantSystem σ} {ob : ObState σ} {k : σ}

theorem rightsKind (inv : GrantInv a root s) (i : Fin mmMaxVaRegions)
    (hi : i.val < (s.space a).regionCount) : RightsKind ((s.space a).regions i) :=
  (inv.kinds i hi).imp_right fun h => ⟨h.type, h.flags⟩

/-- The sections that views lend stay, and the regions do. -/
theorem same_regions (inv : GrantInv a root s) (hready : (mm k).ready = true)
    (kept : SectionsKept ob k s.held)
    (hspaces : (mm k).addressSpacePool = (mm s.k).addressSpacePool)
    (hsections : ∀ sec o, (mm s.k).sectionInUse sec = true →
      ((mm s.k).sectionPool sec).header = some o → 0 < s.held o →
      (mm k).sectionInUse sec = true ∧ (mm k).sectionPool sec = (mm s.k).sectionPool sec)
    (shares : lentAt (mm k) (s.space a) = lentAt (mm s.k) (s.space a) →
      SectionShares reachedPages root (lentAt (mm s.k) (s.space a)) (mm k)) :
    GrantInv a root { s with ob := ob, k := k } := by
  have hspace : (⟨ob, k⟩ : MmSystem σ).space a = s.space a := by
    rw [MmSystem.space, hspaces]
    rfl
  have hlent : lentAt (mm k) (s.space a) = lentAt (mm s.k) (s.space a) := by
    refine lentAt_congr rfl (fun i _ => ⟨_, rfl⟩) fun i hi htype va => ?_
    rcases inv.kinds i hi with hanon | hview
    · rw [hanon] at htype
      exact absurd htype (by decide)
    obtain ⟨o, access, sec, hobject, -, hheld, hused, hheader, -⟩ := hview.object
    obtain ⟨hused', hpool⟩ := hsections sec o hused hheader hheld
    exact sharedPage_stay hobject inv.kept.apart kept.apart hused hheader hused' hpool va
  refine ⟨hready, ?_, kept, ?_, ?_, ?_, ?_, ?_⟩
  · rw [MmState.rootFrame, hspaces]
    exact inv.rootFrame
  · exact fun o => hspace ▸ inv.bounded o
  · exact hspace.symm ▸ inv.count_le
  · exact hspace.symm ▸ inv.regions
  · intro i hi
    rw [show MmSystem.space _ a = s.space a from hspace] at hi ⊢
    refine (inv.kinds i hi).imp_right fun hview => ⟨hview.type, hview.flags, ?_⟩
    obtain ⟨o, access, sec, hobject, hrecord, hheld, hused, hheader, haccess⟩ := hview.object
    obtain ⟨hused', hpool⟩ := hsections sec o hused hheader hheld
    exact ⟨o, access, sec, hobject, hrecord, hheld, hused', by rw [hpool]; exact hheader, haccess⟩
  · rw [show MmSystem.space _ a = s.space a from hspace, hlent]
    exact shares hlent

theorem createSection (inv : GrantInv a root s) (size : U64) (access : U32) :
    GrantInv a root (s.performGrant a (.createSection size access)) := by
  obtain ⟨kept, shares, hold, -⟩ := mmCreateSectionHandle_shares inv.kept inv.shares size access
  exact inv.same_regions (hold.ready.trans inv.ready) kept hold.addressSpacePool
    (fun sec _ hused _ _ => hold.sections sec hused) fun _ => shares

theorem held_lt (inv : GrantInv a root s) (o : ObjectRef) : s.held o < 2 ^ 31 := by
  have hbound := inv.bounded o
  have hcount := inv.count_le
  omega

theorem insertHandle (inv : GrantInv a root s) {o : ObjectRef} (ho : s.ob.objectInUse o = true)
    (access : U32) : GrantInv a root (s.performGrant a (.insertHandle o access)) :=
  inv.same_regions inv.ready (inv.kept.insertHandle ho (inv.held_lt o) access) rfl
    (fun _ _ hused _ _ => ⟨hused, rfl⟩) fun _ => inv.shares

theorem closeHandle (inv : GrantInv a root s) (v : U32) :
    GrantInv a root (s.performGrant a (.closeHandle v)) := by
  obtain ⟨kept, hdropped⟩ := inv.kept.closeHandle v
  rw [performGrant]
  generalize obCloseHandle s.ob s.k v = r at kept hdropped ⊢
  obtain ⟨ob, k, status⟩ := r
  dsimp only at kept hdropped ⊢
  rcases hdropped with rfl | ⟨o, hzero, -, hdropped⟩
  · exact inv.same_regions inv.ready kept rfl (fun sec _ hused _ _ => ⟨hused, rfl⟩)
      fun _ => inv.shares
  refine inv.same_regions (hdropped.ready.trans inv.ready) kept hdropped.addressSpacePool ?_ ?_
  · -- the object of a view is held
    intro sec o' hused hheader hheld
    have hne : o' ≠ o := by
      rintro rfl
      omega
    have hused' := (hdropped.inUse sec).2 ⟨hused, by rw [hheader]; simpa using hne⟩
    exact ⟨hused', hdropped.pool sec hused'⟩
  · intro hlent
    refine inv.shares.dropped hdropped fun va f w h => ?_
    rw [← hlent] at h
    refine isSectionPage_of_lentAt ?_ h
    exact inv.shares.sections.stay (fun sec hs => ⟨((hdropped.inUse sec).1 hs).1,
      hdropped.pool sec hs⟩) hdropped.trackedPages

/-- Where the region of a new view is written, or no region. -/
theorem of_regions {k : σ} {held : ObjectRef → ℕ} {ob : ObState σ}
    {views : Fin mmMaxVaRegions → Option (ObjectRef × U32)} (inv : GrantInv a root s)
    (hmap : OnlyMappings (mm s.k) (mm k)) (hroot : (mm k).rootFrame a = root)
    (kept : SectionsKept ob k held)
    (bounded : ∀ o, held o + mmMaxVaRegions < 2 ^ 31 + ((mm k).addressSpacePool a).regionCount)
    (count_le : ((mm k).addressSpacePool a).regionCount ≤ mmMaxVaRegions)
    (regions : RegionsBelow ((mm k).addressSpacePool a))
    (kinds : ∀ i : Fin mmMaxVaRegions, i.val < ((mm k).addressSpacePool a).regionCount →
      (((mm k).addressSpacePool a).regions i).type = mmRegionTypeAnon ∨
        IsView ⟨⟨ob, k⟩, held, views⟩ i (((mm k).addressSpacePool a).regions i))
    (hlent : ∀ va p, lentAt (mm s.k) (s.space a) va = some p →
      lentAt (mm k) ((mm k).addressSpacePool a) va = some p)
    (hholds : SpaceHolds reachedPages root {f | IsSectionPage (mm s.k) f}
      (lentAt (mm s.k) (s.space a)) (mm k)) :
    GrantInv a root ⟨⟨ob, k⟩, held, views⟩ := by
  have hsections := inv.shares.sections.congr hmap.sectionPool hmap.sectionInUse hmap.trackedPages
  have hset : {f | IsSectionPage (mm s.k) f} = {f | IsSectionPage (mm k) f} := by
    simp only [IsSectionPage, sectionFrame, hmap.sectionPool, hmap.sectionInUse]
  have hready : (mm k).ready = true := by
    obtain ⟨pool, bitmap, refCount, next, mem, h⟩ := hmap
    rw [h]
    exact inv.ready
  rw [hset] at hholds
  exact ⟨hready, hroot, kept, bounded, count_le, regions, kinds, hsections,
    hholds.lend hlent fun va f w h => isSectionPage_of_lentAt hsections h⟩

/-- A view stays one. -/
theorem isView_congr {k : σ} {ob : ObState σ} {held : ObjectRef → ℕ}
    {views : Fin mmMaxVaRegions → Option (ObjectRef × U32)} {i : Fin mmMaxVaRegions}
    {r r' : MmVaRegion} (h : s.IsView i r) (hmap : OnlyMappings (mm s.k) (mm k))
    (hheld : ∀ o, s.held o ≤ held o) (hviews : views i = s.views i) {c : U32}
    (hr : r' = { r with committedPages := c }) : IsView ⟨⟨ob, k⟩, held, views⟩ i r' := by
  obtain ⟨o, access, sec, hobject, hrecord, hpos, hused, hheader, haccess⟩ := h.object
  rw [hr]
  refine ⟨h.type, h.flags, o, access, sec, hobject, hviews.trans hrecord,
    lt_of_lt_of_le hpos (hheld o), ?_, ?_, haccess⟩
  · rw [hmap.sectionInUse]
    exact hused
  · rw [hmap.sectionPool]
    exact hheader

theorem fault (inv : GrantInv a root s) (va errorCode : U64) :
    GrantInv a root (s.performGrant a (.fault va errorCode)) := by
  obtain ⟨m₁, hpages, hholds, slot, c, heq⟩ :=
    inv.shares.fault inv.rootFrame inv.regions inv.rightsKind va errorCode
  have hmap : OnlyMappings (mm s.k) (m₁.modifyRegion a slot fun r =>
      { r with committedPages := c }) :=
    (OnlyMappings.of_onlyPages hpages).trans (.modifyRegion m₁ a slot _)
  have hspace : (m₁.modifyRegion a slot fun r =>
      { r with committedPages := c }).addressSpacePool a =
        { s.space a with
          regions := Function.update (s.space a).regions slot
            ({ (s.space a).regions slot with committedPages := c } : MmVaRegion) } := by
    rw [MmState.modifyRegion, modifyAddressSpace_pool, Function.update_self,
      hpages.addressSpacePool]
    rfl
  have hregions : ∀ i, ∃ c', ((m₁.modifyRegion a slot fun r =>
      { r with committedPages := c }).addressSpacePool a).regions i =
        { (s.space a).regions i with committedPages := c' } := by
    intro i
    rw [hspace]
    by_cases hi : i = slot
    · rw [hi]
      exact ⟨c, Function.update_self _ _ _⟩
    · exact ⟨_, Function.update_of_ne hi _ _⟩
  have hcount : ((m₁.modifyRegion a slot fun r =>
      { r with committedPages := c }).addressSpacePool a).regionCount =
        (s.space a).regionCount := by rw [hspace]
  have hnext : ((m₁.modifyRegion a slot fun r =>
      { r with committedPages := c }).addressSpacePool a).nextUserBase =
        (s.space a).nextUserBase := by rw [hspace]
  have hroot : (m₁.modifyRegion a slot fun r =>
      { r with committedPages := c }).rootFrame a = root :=
    (rootFrame_modifyRegion m₁ a slot _).trans ((hpages.rootFrame a).trans inv.rootFrame)
  have hquiet : SpaceHolds reachedPages root {f | IsSectionPage (mm s.k) f}
      (lentAt (mm s.k) (s.space a)) (m₁.modifyRegion a slot fun r =>
        { r with committedPages := c }) := hholds.quiet (.of_eq hholds.tables rfl rfl rfl rfl)
  rw [performGrant, heq]
  generalize (m₁.modifyRegion a slot fun r => { r with committedPages := c }) = m₂
    at hmap hregions hcount hnext hroot hquiet ⊢
  have hmap' : OnlyMappings (mm s.k) (mm (setMm m₂ s.k)) := by
    rw [mm_setMm]
    exact hmap
  refine inv.of_regions hmap' (by rw [mm_setMm]; exact hroot) (inv.kept.sections ?_ ?_) ?_ ?_ ?_ ?_
    ?_ (by rw [mm_setMm]; exact hquiet) <;> rw [mm_setMm]
  · exact hmap.sectionType
  · intro sec hsec
    rw [hmap.sectionInUse] at hsec
    rw [hmap.sectionPool]
    exact ⟨hsec, rfl⟩
  · exact fun o => hcount.symm ▸ inv.bounded o
  · exact hcount.symm ▸ inv.count_le
  · exact inv.regions.congr hcount hnext hregions
  · intro i hi
    rw [hcount] at hi
    obtain ⟨c', hc⟩ := hregions i
    rcases inv.kinds i hi with hanon | hview
    · exact Or.inl (by rw [hc]; exact hanon)
    · exact Or.inr (isView_congr hview hmap' (fun _ => le_rfl) rfl hc)
  · intro va' p h
    rw [lentAt_congr hcount (fun i _ => hregions i) fun i _ _ va => ?_]
    · exact h
    · simp only [sharedPage, mmpFindSectionByHeader_congr hmap.sectionPool hmap.sectionInUse,
        hmap.sectionPool]

theorem mapAnonymous (inv : GrantInv a root s) (size : U64) (protection flags : U32)
    (hnext : NextStays (s.space a)
      ((s.performGrant a (.mapAnonymous size protection flags)).space a)) :
    GrantInv a root (s.performGrant a (.mapAnonymous size protection flags)) := by
  have hmap := OnlyMappings.mmMapAnonymous (mm s.k) a size protection flags
  have hholds := inv.shares.holds.mapAnonymous inv.rootFrame inv.regions
    (fun va h => inv.regions.lentAt_none h) size protection flags
  have hcases := mmMapAnonymous_cases (mm s.k) a size protection flags
  rw [performGrant] at hnext ⊢
  dsimp only [MmSystem.space] at hnext
  rw [mm_setMm] at hnext
  generalize mmMapAnonymous (mm s.k) a size protection flags = r at hmap hholds hcases hnext ⊢
  rcases hcases with ⟨-, e, rfl⟩ | ⟨hcount, committed, region, -, hregion, hcases⟩
  · rw [setMm_mm]
    exact inv
  have hroot : ∀ m' : MmState, (∃ sp : MmAddressSpace, m'.addressSpacePool = Function.update
      (mm s.k).addressSpacePool a sp ∧ sp.rootTablePhysical = (s.space a).rootTablePhysical) →
        m'.rootFrame a = root := by
    rintro m' ⟨sp, hpool, hsame⟩
    rw [← inv.rootFrame, MmState.rootFrame, hpool, Function.update_self, hsame]
    rfl
  have hbase : region.base = (s.space a).nextUserBase := by
    rw [hregion]
    exact mmpAlignUp_of_aligned inv.regions.next_aligned inv.regions.next_le
  have hanon : region.type = mmRegionTypeAnon := by
    rw [hregion]
    rfl
  have hsize : mmPageSize ∣ region.size.toNat := by
    rw [hregion]
    exact mmpAlignSizeToPage_aligned size
  have hshared : ∀ m', OnlyMappings (mm s.k) m' → ∀ r va,
      sharedPage m' r va = sharedPage (mm s.k) r va := by
    intro m' h r va
    simp only [sharedPage, mmpFindSectionByHeader_congr h.sectionPool h.sectionInUse,
      h.sectionPool]
  have hkept : ∀ m', OnlyMappings (mm s.k) m' → SectionsKept s.ob (setMm m' s.k) s.held := by
    intro m' h
    refine inv.kept.sections ?_ fun sec hsec => ?_
    · rw [mm_setMm]
      exact h.sectionType
    · rw [mm_setMm, h.sectionInUse] at hsec
      rw [mm_setMm, h.sectionPool]
      exact ⟨hsec, rfl⟩
  rcases hcases with ⟨m', e, rfl, hpool⟩ | ⟨m', rfl, hpool⟩
  · -- the slot behind the regions was written
    have hspace : m'.addressSpacePool a = { s.space a with
        regions :=
          Function.update (s.space a).regions ⟨(s.space a).regionCount, hcount⟩ region } := by
      rw [hpool, Function.update_self]
      rfl
    have hold : ∀ i : Fin mmMaxVaRegions, i.val < (s.space a).regionCount →
        (m'.addressSpacePool a).regions i = (s.space a).regions i := by
      intro i hi
      rw [hspace]
      refine Function.update_of_ne ?_ _ _
      rintro rfl
      exact Nat.lt_irrefl _ hi
    have hcount' : (m'.addressSpacePool a).regionCount = (s.space a).regionCount := by rw [hspace]
    dsimp only at hmap hholds ⊢
    have hmap' : OnlyMappings (mm s.k) (mm (setMm m' s.k)) := by
      rw [mm_setMm]
      exact hmap
    refine inv.of_regions hmap' ?_ (hkept m' hmap) ?_ ?_ ?_ ?_ ?_ (by rw [mm_setMm]; exact hholds)
      <;> rw [mm_setMm]
    · exact hroot m' ⟨_, hpool, rfl⟩
    · exact fun o => hcount'.symm ▸ inv.bounded o
    · exact hcount'.symm ▸ inv.count_le
    · exact inv.regions.of_counted hcount' (by rw [hspace]) hold
    · intro i hi
      rw [hcount'] at hi
      rw [hold i hi]
      exact (inv.kinds i hi).imp_right fun hview =>
        isView_congr (c := ((s.space a).regions i).committedPages) hview hmap' (fun _ => le_rfl)
          rfl rfl
    · intro va p h
      rw [lentAt_congr hcount' (fun i hi => ⟨((s.space a).regions i).committedPages, hold i hi⟩)
        fun i _ _ va => hshared m' hmap _ va]
      exact h
  · have hspace : m'.addressSpacePool a = (s.space a).withRegion hcount region := by
      rw [hpool, Function.update_self]
      rfl
    dsimp only at hmap hholds hnext ⊢
    rw [hspace] at hnext
    have hmap' : OnlyMappings (mm s.k) (mm (setMm m' s.k)) := by
      rw [mm_setMm]
      exact hmap
    refine inv.of_regions hmap' ?_ (hkept m' hmap) ?_ ?_ ?_ ?_ ?_ (by rw [mm_setMm]; exact hholds)
      <;> rw [mm_setMm]
    · exact hroot m' ⟨_, hpool, rfl⟩
    all_goals rw [hspace]
    · exact fun o => lt_of_lt_of_le (inv.bounded o) (Nat.le_succ _)
    · exact hcount
    · exact inv.regions.withRegion hcount hbase hsize hnext.1 hnext.2
    · intro i hi
      by_cases hlast : i = ⟨(s.space a).regionCount, hcount⟩
      · have hnew : ((s.space a).withRegion hcount region).regions
            ⟨(s.space a).regionCount, hcount⟩ = region := Function.update_self _ _ _
        rw [hlast, hnew]
        exact Or.inl hanon
      · have hold : ((s.space a).withRegion hcount region).regions i = (s.space a).regions i :=
          Function.update_of_ne hlast _ _
        have hne : i.val ≠ (s.space a).regionCount := fun he => hlast (Fin.ext he)
        have hi' : i.val < (s.space a).regionCount + 1 := hi
        rw [hold]
        exact (inv.kinds i (by omega)).imp_right fun hview =>
          isView_congr (c := ((s.space a).regions i).committedPages) hview hmap' (fun _ => le_rfl)
          rfl rfl
    · intro va p h
      refine lentAt_withRegion ?_
      rw [lentAt_congr (m := mm s.k) rfl (fun i _ => ⟨_, rfl⟩) fun i _ _ va => hshared m' hmap _ va]
      exact h

/-- `MmMapSectionHandle` changes nothing, or it maps the section of a handle that grants the access
that the protection needs. -/
theorem mmMapSectionHandle_granted (inv : GrantInv a root s) (v protection : U32) :
    (∃ e, mmMapSectionHandle s.ob s.k a v protection = (s.ob, s.k, .error e)) ∨
      ∃ (h : (s.space a).regionCount < mmMaxVaRegions) (ob : ObState σ) (i : EntryIx)
        (e : ObHandleTableEntry) (sec : SectionRef) (region : MmVaRegion),
        obpFindHandleEntry s.ob.kernelHandleTable v = some (i, e) ∧
        e.grantedAccess &&& mapAccess protection = mapAccess protection ∧
        obReferenceObjectByHandle s.ob v (mapAccess protection) (mm s.k).sectionType =
          (ob, .ok e.object) ∧
        mmpFindSectionByHeader (mm s.k) (some e.object) = some sec ∧
        region = sectionRegion (mmpAlignUp (s.space a).nextUserBase 4096)
          (BitVec.ofNat 64 (((mm s.k).sectionPool sec).pageCount * mmPageSize)) protection
          e.object ∧
        mmMapSectionHandle s.ob s.k a v protection = (ob, setMm { mm s.k with
          addressSpacePool := Function.update (mm s.k).addressSpacePool a
            ((s.space a).withRegion h region) } s.k, .ok region.base) := by
  have haccess : (if hasFlag protection mmProtWrite then
      mmSectionAccessMapRead ||| mmSectionAccessMapWrite else mmSectionAccessMapRead) =
        mapAccess protection := rfl
  rw [mmMapSectionHandle]
  split
  · exact Or.inl ⟨_, rfl⟩
  split
  swap
  · exact Or.inl ⟨_, rfl⟩
  next hcount =>
  dsimp only
  rw [haccess]
  rcases obReferenceObjectByHandle_cases s.ob v (mapAccess protection) (mm s.k).sectionType with
    ⟨e, heq⟩ | ⟨i, e, hentry, hgranted, -, heq⟩
  · rw [heq]
    exact Or.inl ⟨e, rfl⟩
  have hlive : s.ob.objectInUse e.object = true := by
    obtain ⟨_, _, hlife⟩ := inv.kept.tracks
    exact (hlife.entry_named i e (obpFindHandleEntry_eq_some.1 hentry).1).1
  have hback := obDereferenceObject_of_reference heq (inv.kept.refCount_ne_zero hlive)
    (inv.kept.refCount_lt (inv.held_lt e.object)) s.k
  cases hfind : mmpFindSectionByHeader (mm s.k) (some e.object) with
  | none =>
    rw [heq]
    dsimp only
    rw [hfind]
    dsimp only
    rw [hback]
    exact Or.inl ⟨_, rfl⟩
  | some sec =>
    refine Or.inr ⟨hcount, _, i, e, sec, _, hentry, hgranted, heq, hfind, rfl, ?_⟩
    rw [heq]
    dsimp only
    rw [hfind]
    simp only [MmState.addRegion, MmState.modifyRegion, MmState.modifyAddressSpace,
      Function.update_self, Function.update_idem]
    rfl

theorem mapAccess_sectionRegion (base size : U64) (protection : U32) (o : ObjectRef) :
    mapAccess (sectionRegion base size protection o).protection = mapAccess protection := by
  have hwrite : hasFlag ((if protection = 0 then mmProtRead else protection) ||| mmProtUser)
      mmProtWrite = hasFlag protection mmProtWrite := by
    rw [hasFlag_or]
    split
    next hzero =>
      rw [hzero]
      decide
    · rw [show hasFlag mmProtUser mmProtWrite = false by decide, Bool.or_false]
  rw [mapAccess, mapAccess, sectionRegion, hwrite]

theorem mapSection (inv : GrantInv a root s) (v protection : U32)
    (hnext : NextStays (s.space a) ((s.performGrant a (.mapSection v protection)).space a)) :
    GrantInv a root (s.performGrant a (.mapSection v protection)) := by
  rw [performGrant] at hnext ⊢
  rcases inv.mmMapSectionHandle_granted v protection with
    ⟨e, heq⟩ | ⟨hcount, ob, i, e, sec, region, hentry, hgranted, href, hfind, hregion, heq⟩
  · rw [heq]
    exact inv
  rw [heq, hentry] at hnext ⊢
  obtain ⟨hused, hheader⟩ := (mmpFindSectionByHeader_eq_some inv.kept.apart).1 hfind
  have hspace : (mm (setMm { mm s.k with
      addressSpacePool := Function.update (mm s.k).addressSpacePool a
        ((s.space a).withRegion hcount region) } s.k)).addressSpacePool a =
          (s.space a).withRegion hcount region := by
    rw [mm_setMm]
    exact Function.update_self _ _ _
  have hmap : OnlyMappings (mm s.k) (mm (setMm { mm s.k with
      addressSpacePool := Function.update (mm s.k).addressSpacePool a
        ((s.space a).withRegion hcount region) } s.k)) := by
    rw [mm_setMm]
    exact ⟨_, .refl _⟩
  replace hnext : NextStays (s.space a) ((s.space a).withRegion hcount region) := by
    rw [← hspace]
    exact hnext
  have hbase : region.base = (s.space a).nextUserBase := by
    rw [hregion]
    exact mmpAlignUp_of_aligned inv.regions.next_aligned inv.regions.next_le
  have hsize : mmPageSize ∣ region.size.toNat := by
    rw [hregion, sectionRegion, BitVec.toNat_ofNat]
    exact (Nat.dvd_mod_iff (by decide)).2 (Nat.dvd_mul_left _ _)
  have hheld : ∀ o, s.held o ≤
      Function.update s.held e.object (s.held e.object + 1) o := by
    intro o
    by_cases ho : o = e.object
    · rw [ho, Function.update_self]
      exact Nat.le_succ _
    · rw [Function.update_of_ne ho]
  refine inv.of_regions hmap ?_ ?_ ?_ ?_ ?_ ?_ ?_ ?_
  · rw [MmState.rootFrame, hspace]
    exact inv.rootFrame
  · have hkept := inv.kept.referenceByHandle href (inv.held_lt e.object)
    refine hkept.sections ?_ fun sec' hsec' => ?_
    · rw [mm_setMm]
    · rw [mm_setMm] at hsec' ⊢
      exact ⟨hsec', rfl⟩
  · intro o
    rw [hspace]
    have hbound := inv.bounded o
    have hone : ((s.space a).withRegion hcount region).regionCount =
        (s.space a).regionCount + 1 := rfl
    rw [hone]
    by_cases ho : o = e.object
    · rw [ho] at hbound ⊢
      rw [Function.update_self]
      omega
    · rw [Function.update_of_ne ho]
      omega
  · rw [hspace]
    exact hcount
  · rw [hspace]
    exact inv.regions.withRegion hcount hbase hsize hnext.1 hnext.2
  · rw [hspace]
    intro j hj
    by_cases hlast : j = ⟨(s.space a).regionCount, hcount⟩
    · have hnew : ((s.space a).withRegion hcount region).regions
          ⟨(s.space a).regionCount, hcount⟩ = region := Function.update_self _ _ _
      rw [hlast, hnew, hregion]
      refine Or.inr ⟨rfl, rfl, e.object, e.grantedAccess, sec, rfl, ?_, ?_, ?_, ?_, ?_⟩
      · exact if_pos rfl
      · dsimp only
        rw [Function.update_self]
        exact Nat.succ_pos _
      · rw [mm_setMm]
        exact hused
      · rw [mm_setMm]
        exact hheader
      · rw [mapAccess_sectionRegion]
        exact hgranted
    · have hold : ((s.space a).withRegion hcount region).regions j = (s.space a).regions j :=
        Function.update_of_ne hlast _ _
      have hne : j.val ≠ (s.space a).regionCount := fun he => hlast (Fin.ext he)
      have hj' : j.val < (s.space a).regionCount + 1 := hj
      rw [hold]
      exact (inv.kinds j (by omega)).imp_right fun hview =>
        isView_congr (c := ((s.space a).regions j).committedPages) hview hmap hheld (if_neg hne)
          rfl
  · intro va p h
    rw [hspace, mm_setMm]
    exact lentAt_withRegion h
  · rw [mm_setMm]
    exact inv.shares.holds.quiet (.of_eq inv.shares.holds.tables rfl rfl rfl rfl)

theorem step (inv : GrantInv a root s) {c : GrantCall} {s' : GrantSystem σ}
    (hstep : GrantStep a s c s') (hnext : NextStays (s.space a) (s'.space a)) :
    GrantInv a root s' := by
  obtain ⟨hallowed, rfl⟩ := hstep
  cases c with
  | createSection size access => exact inv.createSection size access
  | insertHandle o access => exact inv.insertHandle hallowed access
  | closeHandle v => exact inv.closeHandle v
  | mapSection v protection => exact inv.mapSection v protection hnext
  | mapAnonymous size protection flags => exact inv.mapAnonymous size protection flags hnext
  | fault va errorCode => exact inv.fault va errorCode

end GrantInv

/-! ## Who may write -/

/-- What is written to pages of sections goes through views that were made for writing. -/
structure WritesGranted (a : AddressSpaceRef) (s : GrantSystem σ) : Prop where
  /-- A page of a section is mapped for writing in a view of that section, and the handle that the
  view was made with granted reading and writing. -/
  writable : ∀ va ∈ reachedPages, ∀ sec i,
    hasFlag ((mm s.k).userPte a va) mmPtePresent = true →
    hasFlag ((mm s.k).userPte a va) mmPteWritable = true →
    (mm s.k).sectionInUse sec = true →
    sectionFrame (mm s.k) sec i = some (pteFrame ((mm s.k).userPte a va)) →
    ∃ slot o access, mmpFindRegion (s.space a) va = some slot ∧
      ((s.space a).regions slot).backingObject = some o ∧
      ((mm s.k).sectionPool sec).header = some o ∧ s.views slot = some (o, access) ∧
      access &&& (mmSectionAccessMapRead ||| mmSectionAccessMapWrite) =
        mmSectionAccessMapRead ||| mmSectionAccessMapWrite
  /-- A handle for a section grants no access that sections do not have. -/
  handles : ∀ i e sec, s.ob.kernelHandleTable.entries i = some e →
    (mm s.k).sectionInUse sec = true → ((mm s.k).sectionPool sec).header = some e.object →
    e.grantedAccess &&& mmSectionAccessAll = e.grantedAccess

/-- The page that a view lends is one of the section of its object. -/
theorem sectionFrame_of_sharedPage {r : MmVaRegion} {o : ObjectRef}
    (htype : r.type = mmRegionTypeSection) (hobject : r.backingObject = some o) {pa : U64}
    (h : sharedPage m r va = some pa) :
    ∃ sec i, m.sectionInUse sec = true ∧ (m.sectionPool sec).header = some o ∧
      sectionFrame m sec i = some (pteFrame pa) := by
  rw [sharedPage, if_neg (by rw [htype]; decide), if_pos htype, hobject] at h
  cases hfind : mmpFindSectionByHeader m (some o) with
  | none =>
    rw [hfind] at h
    cases h
  | some sec =>
    rw [hfind] at h
    obtain ⟨hused, hheader⟩ := MmSystem.mmpFindSectionByHeader_sound hfind
    dsimp only at h
    generalize (va - r.base + r.backingOffset).toNat / mmPageSize % 2 ^ 32 = index at h
    split at h
    · cases h
    next hcount =>
    split at h
    swap
    · cases h
    next hindex =>
    refine ⟨sec, index, hused, hheader, ?_⟩
    rw [sectionFrame, dif_pos ⟨Nat.not_le.1 hcount, hindex⟩, Option.some.inj h]

theorem GrantInv.writesGranted {s : GrantSystem σ} (inv : GrantInv a root s) :
    WritesGranted a s where
  writable va hva sec i hpresent hwritable hused hframe := by
    have hroot : (mm s.k).userPte a va = pteView (mm s.k) root va := by
      rw [MmState.userPte, inv.rootFrame]
    rw [hroot] at hpresent hwritable hframe
    have hsection : IsSectionPage (mm s.k) (pteFrame (pteView (mm s.k) root va)) :=
      ⟨sec, i, hused, hframe⟩
    have hmay : mayRelease (pteView (mm s.k) root va) = true := by
      rw [mayRelease, hpresent, Bool.true_or]
    rcases inv.shares.holds.held va hva hmay with hforeign | hown | ⟨w, hlent, -, hw⟩
    · have htracked := (inv.shares.holds.shared _ hsection).1
      have hle := (mm s.k).trackedPages_le
      omega
    · exact absurd hsection hown.not_shared
    · obtain ⟨slot, pa, hfind, htype, hpa, hpaFrame, hwrite⟩ := lentAt_eq_some.1 hlent
      rw [hw hwritable] at hwrite
      rcases inv.kinds slot (mmpFindRegion_sound hfind).1 with hanon | hview
      · rw [hanon] at htype
        exact absurd htype (by decide)
      obtain ⟨o, access, -, hobject, hrecord, -, -, -, haccess⟩ := hview.object
      obtain ⟨sec', i', hused', hheader, hframe'⟩ :=
        sectionFrame_of_sharedPage htype hobject hpa
      rw [← hpaFrame] at hframe'
      obtain ⟨rfl, -⟩ := inv.shares.sections.apart sec sec' hused hused' i i' _ hframe hframe'
      rw [mapAccess, if_pos hwrite.symm] at haccess
      exact ⟨slot, o, access, hfind, hobject, hheader, hrecord, haccess⟩
  handles i e sec he hused hheader := by
    obtain ⟨o, ho, hobject⟩ := inv.kept.objects sec hused
    obtain rfl : e.object = o := Option.some.inj (hheader.symm.trans ho)
    rw [← hobject.mask]
    exact inv.kept.granted i e he

/-- A machine between two calls, with an address space as it was created. Pages behind its regions
that are mapped, if any, are not tracked. -/
structure GrantStart (a : AddressSpaceRef) (s : GrantSystem σ) : Prop where
  ready : (mm s.k).ready = true
  kept : SectionsKept s.ob s.k s.held
  bounded : ∀ o, s.held o + mmMaxVaRegions < 2 ^ 31
  fresh : s.Fresh a
  sections : SectionsOk (mm s.k)
  sectionPages : ∀ f, IsSectionPage (mm s.k) f → f < (mm s.k).trackedPages ∧ ¬Free (mm s.k) f ∧
    ¬IsTable reachedPages {(mm s.k).rootFrame a} (mm s.k) f
  tables : TablesOk reachedPages {(mm s.k).rootFrame a} (mm s.k)
  foreign : ∀ va ∈ reachedPages, mayRelease ((mm s.k).userPte a va) = true →
    mmMaxTrackedPages ≤ pteFrame ((mm s.k).userPte a va)

theorem GrantStart.grantInv {s : GrantSystem σ} (h : GrantStart a s) :
    GrantInv a ((mm s.k).rootFrame a) s := by
  have hregions : RegionsBelow (s.space a) := by
    obtain ⟨hcount, hnext⟩ := h.fresh
    constructor <;> simp only [hcount, hnext, Nat.not_lt_zero, false_implies, implies_true]
    all_goals decide
  have hnone : ∀ va, lentAt (mm s.k) (s.space a) va = none := by
    intro va
    refine lentAt_none ?_
    cases hfind : mmpFindRegion (s.space a) va with
    | none => rfl
    | some i =>
      have hlt := (mmpFindRegion_sound hfind).1
      rw [h.fresh.1] at hlt
      exact absurd hlt (Nat.not_lt_zero _)
  refine ⟨h.ready, rfl, h.kept, fun o => Nat.lt_add_right _ (h.bounded o), ?_, hregions, ?_,
    h.sections, h.tables, h.sectionPages, ?_, ?_, ?_⟩
  · rw [h.fresh.1]
    exact Nat.zero_le _
  · intro i hi
    rw [h.fresh.1] at hi
    exact absurd hi (Nat.not_lt_zero _)
  · intro va f w hlent
    rw [hnone va] at hlent
    cases hlent
  · exact fun va hva hmay => Or.inl (h.foreign va hva hmay)
  · -- a frame that is not tracked is no frame of the space
    intro va hva va' hva' hmay hmay' hown hsame
    have htracked := hown.tracked
    have hforeign := h.foreign va hva hmay
    have hle := (mm s.k).trackedPages_le
    rw [MmState.userPte] at hforeign
    omega

/-- The machine after `MmInitialize` and one `MmCreateAddressSpace`, without references. -/
def sampleGrant : GrantSystem MmState where
  toMmSystem := MmSystem.sampleSystem
  held _ := 0
  views _ := none

theorem sampleGrant_memory :
    (∀ i : TableIx, i ≠ 0 → i.val ≤ 256 → pteChild ((mm sampleGrant.k).mem 0x103 i) = none) ∧
      pteChild ((mm sampleGrant.k).mem 0x103 0) = some 17 ∧
      (∀ i : TableIx, i ≠ 0 → pteChild ((mm sampleGrant.k).mem 17 i) = none) ∧
      (mm sampleGrant.k).rootFrame 0 = 0x103 ∧ (mm sampleGrant.k).ready = true ∧
      mmpIsPageAllocated (mm sampleGrant.k) 0x103 = true ∧
      mmpIsPageAllocated (mm sampleGrant.k) 17 = true ∧
      (∀ sec, (mm sampleGrant.k).sectionInUse sec = false) ∧
      ((mm sampleGrant.k).addressSpacePool 0).regionCount = 0 ∧
      ((mm sampleGrant.k).addressSpacePool 0).nextUserBase = mmUserBase := by decide +kernel

theorem sampleGrant_object : sampleGrant.ob =
    { (obInitialize (σ := MmState) .zero).1 with
      typeInUse := sampleGrant.ob.typeInUse
      typePool := sampleGrant.ob.typePool } := by
  have hfirst : (firstIndex fun t => !(obInitialize (σ := MmState) .zero).1.typeInUse t) =
      some 0 := by decide +kernel
  have hready : (obInitialize (σ := MmState) .zero).1.ready = true := rfl
  rw [sampleGrant, MmSystem.sampleSystem, MmSystem.sampleOb, obCreateType,
    if_neg (by rw [hready]; exact Bool.noConfusion), hfirst]

theorem sampleGrant_tracks : Tracks sampleGrant.ob sampleGrant.k sampleGrant.held := by
  have hboot := ObLifetime.boot sampleGrant.ob.typePool sampleGrant.k
  rw [sampleGrant_object]
  exact ⟨fun _ => 0, fun _ => none, hboot.ready, hboot.refCount_eq, hboot.inUse_iff,
    hboot.entry_named⟩

theorem sampleGrant_routines : RoutinesOk sampleGrant.ob := by
  have hfirst : (firstIndex fun t => !(obInitialize (σ := MmState) .zero).1.typeInUse t) =
      some 0 := by decide +kernel
  have hready : (obInitialize (σ := MmState) .zero).1.ready = true := rfl
  intro t routine h
  rw [sampleGrant, MmSystem.sampleSystem, MmSystem.sampleOb, obCreateType,
    if_neg (by rw [hready]; exact Bool.noConfusion), hfirst] at h
  dsimp only at h
  by_cases ht : t = 0
  · rw [ht, Function.update_self] at h
    exact Or.inl (Option.some.inj h).symm
  · rw [Function.update_of_ne ht] at h
    cases h

theorem sampleGrant_start : GrantStart 0 sampleGrant := by
  obtain ⟨hroot, hfirst, hnext, hframe, hready, hlive, hlive', hunused, hcount, hbase⟩ :=
    sampleGrant_memory
  have hnot : ∀ f, mmpIsPageAllocated (mm sampleGrant.k) f = true →
      ¬Free (mm sampleGrant.k) f := by
    rintro f hf ⟨-, hfree⟩
    rw [hf] at hfree
    cases hfree
  have hsec : ∀ sec, (mm sampleGrant.k).sectionInUse sec ≠ true := by
    intro sec hsec
    rw [hunused sec] at hsec
    cases hsec
  obtain ⟨huser, hzero⟩ := MmSystem.tablesOk_userPages
    (fun i hi hlt => hroot i hi (Nat.le_of_lt hlt)) hfirst hnext (by decide)
    ⟨hnot _ hlive, hnot _ hlive'⟩
  obtain ⟨htables, hbehind⟩ := tablesOk_reachedPages huser (hroot 256 (by decide) (by decide))
  exact
    { ready := hready
      kept :=
        { routines := sampleGrant_routines
          sectionType := MmSystem.sampleSystem_sectionType
          tracks := sampleGrant_tracks
          granted := fun i e he => by
            rw [sampleGrant_object] at he
            cases he
          objects := fun sec h => absurd h (hsec sec)
          apart := fun sec _ _ h => absurd h (hsec sec) }
      bounded := fun o => by
        have hheld : sampleGrant.held o = 0 := rfl
        rw [hheld]
        decide
      fresh := by
        rw [MmSystem.Fresh, MmSystem.space]
        exact ⟨hcount, hbase⟩
      sections :=
        { pageCount_pos := fun sec h => absurd h (hsec sec)
          pageCount_le := fun sec h => absurd h (hsec sec)
          pages := fun sec h => absurd h (hsec sec)
          apart := fun sec _ h => absurd h (hsec sec) }
      sectionPages := fun f ⟨sec, _, h, _⟩ => absurd h (hsec sec)
      tables := by
        rw [hframe]
        exact htables
      foreign := by
        intro va hva hmay
        have hview : (mm sampleGrant.k).userPte 0 va = 0 := by
          rw [MmState.userPte, hframe]
          by_cases huserPage : va ∈ userPages
          · exact hzero va huserPage
          · exact hbehind va hva huserPage
        rw [hview] at hmay
        exact absurd hmay (by decide) }

/-- In every run from a fresh address space, as long as `NextUserBase` does not pass `MM_USER_TOP`,
a page of a section is mapped for writing only in a view that was made with a handle for writing,
also once the handle is closed. -/
theorem section_writes_granted (a : AddressSpaceRef) (s : GrantSystem σ) (hstart : GrantStart a s)
    (calls : List GrantCall)
    (hnext : Always (GrantStep a) (fun s _ s' => NextStays (s.space a) (s'.space a)) s calls) :
    Always (GrantStep a) (fun _ _ s' => WritesGranted a s') s calls :=
  hnext.imp (I := GrantInv a ((mm s.k).rootFrame a)) (fun _ _ _ inv h hstep => inv.step hstep h)
    (fun _ _ _ inv hstep h => (inv.step hstep h).writesGranted) hstart.grantInv

set_option maxRecDepth 2000 in
/-- A section of one page is created, mapped for writing, and its handle closed before the page is
mapped by a fault. -/
theorem section_writes_granted_sample :
    Always (GrantStep 0) (fun _ _ s' => WritesGranted 0 s') sampleGrant
      [.createSection 0x1000 3, .mapSection 4 3, .closeHandle 4, .fault 0x40000123 6] := by
  refine section_writes_granted 0 sampleGrant sampleGrant_start _ ?_
  rintro s₁ ⟨-, rfl⟩
  refine ⟨show _ ∧ _ by decide +kernel, ?_⟩
  rintro s₂ ⟨-, rfl⟩
  refine ⟨show _ ∧ _ by decide +kernel, ?_⟩
  rintro s₃ ⟨-, rfl⟩
  refine ⟨show _ ∧ _ by decide +kernel, ?_⟩
  rintro s₄ ⟨-, rfl⟩
  exact ⟨show _ ∧ _ by decide +kernel, trivial⟩

/-! ## How long sections live -/

/-- The handles for an object and the references to it. -/
def users (s : GrantSystem σ) (o : ObjectRef) : ℕ := s.ob.handleCount o + s.held o

/-- A step keeps the sections whose objects have users, and gives back the pages of the others. -/
structure SectionsOutlive (s : GrantSystem σ) (c : GrantCall) (s' : GrantSystem σ) : Prop where
  /-- A section in use has an object with a user, and its pages are not free. -/
  used : ∀ sec, (mm s'.k).sectionInUse sec = true →
    (∃ o, ((mm s'.k).sectionPool sec).header = some o ∧ 0 < s'.users o) ∧
      ∀ i f, sectionFrame (mm s'.k) sec i = some f → ¬Free (mm s'.k) f
  /-- A section stays as it is, or its object has no user any more and its pages are free. -/
  ends : ∀ sec o, (mm s.k).sectionInUse sec = true → ((mm s.k).sectionPool sec).header = some o →
    (mm s'.k).sectionInUse sec = true ∧ (mm s'.k).sectionPool sec = (mm s.k).sectionPool sec ∨
      (mm s'.k).sectionInUse sec = false ∧ s'.users o = 0 ∧
        ∀ i f, sectionFrame (mm s.k) sec i = some f → f ≠ 0 →
          Free (mm s'.k) f ∧ (mm s'.k).pageRefCount f = 0
  /-- A creation that fails leaves free what was free. -/
  failed : ∀ size access e, c = .createSection size access →
    (mmCreateSectionHandle s.ob s.k size access).2.2 = .error e →
      ∀ f ≠ 0, Free (mm s.k) f → Free (mm s'.k) f

namespace GrantInv

variable {s : GrantSystem σ}

/-- What a call does to the sections: nothing, or it drops that of an object without users. -/
theorem performGrant_sections (inv : GrantInv a root s) (c : GrantCall) :
    (∀ sec, (mm s.k).sectionInUse sec = true →
      (mm (s.performGrant a c).k).sectionInUse sec = true ∧
        (mm (s.performGrant a c).k).sectionPool sec = (mm s.k).sectionPool sec) ∨
      ∃ o, (s.performGrant a c).ob.objectInUse o = false ∧
        Dropped o (mm s.k) (mm (s.performGrant a c).k) := by
  have hmap : ∀ m', OnlyMappings (mm s.k) m' → ∀ sec, (mm s.k).sectionInUse sec = true →
      m'.sectionInUse sec = true ∧ m'.sectionPool sec = (mm s.k).sectionPool sec := by
    intro m' h sec hsec
    rw [h.sectionInUse, h.sectionPool]
    exact ⟨hsec, rfl⟩
  cases c with
  | createSection size access =>
    exact Or.inl (mmCreateSectionHandle_shares inv.kept inv.shares size access).2.2.1.sections
  | insertHandle o access => exact Or.inl fun sec hsec => ⟨hsec, rfl⟩
  | closeHandle v =>
    rcases (inv.kept.closeHandle v).2 with hk | ⟨o, -, hended, hdropped⟩
    · rw [performGrant]
      dsimp only
      rw [hk]
      exact Or.inl fun sec hsec => ⟨hsec, rfl⟩
    · exact Or.inr ⟨o, hended, hdropped⟩
  | mapSection v protection =>
    left
    rw [performGrant]
    rcases inv.mmMapSectionHandle_granted v protection with
      ⟨e, heq⟩ | ⟨hcount, ob, i, e, sec, region, hentry, -, -, -, -, heq⟩
    · rw [heq]
      exact fun sec hsec => ⟨hsec, rfl⟩
    · rw [heq, hentry]
      dsimp only
      rw [mm_setMm]
      exact fun sec hsec => ⟨hsec, rfl⟩
  | mapAnonymous size protection flags =>
    left
    rw [performGrant, mm_setMm]
    exact hmap _ (.mmMapAnonymous (mm s.k) a size protection flags)
  | fault va errorCode =>
    left
    obtain ⟨m₁, hpages, -, slot, c, heq⟩ :=
      inv.shares.fault inv.rootFrame inv.regions inv.rightsKind va errorCode
    rw [performGrant, heq, mm_setMm]
    exact hmap _ ((OnlyMappings.of_onlyPages hpages).trans (.modifyRegion m₁ a slot _))

theorem users_pos (inv : GrantInv a root s) {o : ObjectRef} :
    s.ob.objectInUse o = true ↔ 0 < s.users o := by
  obtain ⟨namedId, issued, hlife⟩ := inv.kept.tracks
  exact hlife.inUse_iff o

theorem sectionsOutlive (inv : GrantInv a root s) {c : GrantCall} {s' : GrantSystem σ}
    (hstep : GrantStep a s c s') (hnext : NextStays (s.space a) (s'.space a)) :
    SectionsOutlive s c s' := by
  have inv' := inv.step hstep hnext
  obtain ⟨-, rfl⟩ := hstep
  refine ⟨fun sec hsec => ?_, fun sec o hsec hheader => ?_, ?_⟩
  · obtain ⟨o, ho, hobject⟩ := inv'.kept.objects sec hsec
    exact ⟨⟨o, ho, inv'.users_pos.1 hobject.inUse⟩,
      fun i f hf => (inv'.shares.holds.shared f ⟨sec, i, hsec, hf⟩).2.1⟩
  · rcases inv.performGrant_sections c with hsame | ⟨o', hended, hdropped⟩
    · exact Or.inl (hsame sec hsec)
    by_cases ho : o = o'
    swap
    · have hstays := (hdropped.inUse sec).2 ⟨hsec, by rw [hheader]; simpa using ho⟩
      exact Or.inl ⟨hstays, hdropped.pool sec hstays⟩
    rw [ho] at hheader ⊢
    refine Or.inr ⟨?_, ?_, fun i f hf hzero => ?_⟩
    · by_contra hne
      exact ((hdropped.inUse sec).1 (Bool.not_eq_false _ ▸ hne)).2 hheader
    · have hnot : ¬0 < (s.performGrant a c).users o' := by
        rw [← inv'.users_pos, hended]
        exact Bool.false_ne_true
      omega
    · -- the page was in use, and the loop over the pages came to it
      obtain ⟨htracked, hlive, -⟩ := inv.shares.holds.shared f ⟨sec, i, hsec, hf⟩
      rw [sectionFrame] at hf
      split at hf
      swap
      · cases hf
      next hi =>
      obtain ⟨page, hpage, heq⟩ := inv.shares.sections.pages sec hsec ⟨i, hi.2⟩ hi.1
      rw [heq, pteFrame_pageAddress (lt_of_lt_trackedPages hpage), Option.some.injEq] at hf
      subst hf
      have hne : ((mm s.k).sectionPool sec).pages ⟨i, hi.2⟩ ≠ 0 := by
        rw [heq]
        exact fun h => hzero (by
          rw [← pteFrame_pageAddress (lt_of_lt_trackedPages hpage), h]
          rfl)
      have hfreed := hdropped.freed inv.ready sec hsec hheader ⟨i, hi.2⟩ hi.1 hne page hpage heq
      refine ⟨⟨by rw [hdropped.trackedPages]; exact htracked, hfreed⟩, ?_⟩
      rcases hdropped.touched page with ⟨hsame, -⟩ | ⟨-, hcount⟩
      · exact absurd ⟨htracked, hsame ▸ hfreed⟩ hlive
      · exact hcount
  · rintro size access e rfl herror f hf hfree
    exact (mmCreateSectionHandle_shares inv.kept inv.shares size access).2.2.2 ⟨e, herror⟩ f hf
      hfree

end GrantInv

/-- In every run from a fresh address space, as long as `NextUserBase` does not pass `MM_USER_TOP`,
a section lives, with its pages, exactly as long as its object has users, and then its pages are
free. -/
theorem sections_outlive_users (a : AddressSpaceRef) (s : GrantSystem σ) (hstart : GrantStart a s)
    (calls : List GrantCall)
    (hnext : Always (GrantStep a) (fun s _ s' => NextStays (s.space a) (s'.space a)) s calls) :
    Always (GrantStep a) SectionsOutlive s calls :=
  hnext.imp (I := GrantInv a ((mm s.k).rootFrame a)) (fun _ _ _ inv h hstep => inv.step hstep h)
    (fun _ _ _ inv hstep h => inv.sectionsOutlive hstep h) hstart.grantInv

set_option maxRecDepth 2000 in
/-- A section that is mapped outlives its handle; one that is not ends with it. -/
theorem sections_outlive_users_sample :
    Always (GrantStep 0) SectionsOutlive sampleGrant
      [.createSection 0x1000 3, .mapSection 4 3, .closeHandle 4, .createSection 0x2000 3,
        .closeHandle 4] := by
  refine sections_outlive_users 0 sampleGrant sampleGrant_start _ ?_
  rintro s₁ ⟨-, rfl⟩
  refine ⟨show _ ∧ _ by decide +kernel, ?_⟩
  rintro s₂ ⟨-, rfl⟩
  refine ⟨show _ ∧ _ by decide +kernel, ?_⟩
  rintro s₃ ⟨-, rfl⟩
  refine ⟨show _ ∧ _ by decide +kernel, ?_⟩
  rintro s₄ ⟨-, rfl⟩
  refine ⟨show _ ∧ _ by decide +kernel, ?_⟩
  rintro s₅ ⟨-, rfl⟩
  exact ⟨show _ ∧ _ by decide +kernel, trivial⟩

end GrantSystem

end NtxKernel.Mm
