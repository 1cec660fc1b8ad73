import NtxKernel.Ke.Syscall
import NtxKernel.Mm.BootReserve

/-!
# The layout of an address space

Where `MmMapAnonymous` and `MmMapSectionHandle` put their regions, over runs of these calls and of
the system calls that reach them.

* `RegionsOk` is the layout: the regions are page aligned, disjoint, inside the user range and
  below `NextUserBase`.
* `Placeable` is a condition on a request and the state before it: there is room for it below
  `MM_USER_TOP`, counted without overflow.
* `layout_ok`: in every run whose requests are placeable, or find the table of regions full, every
  step keeps the layout, places a region that is large enough and refuses the rest.

The code checks neither the rounding of the size nor the sum of base and size.
-/

namespace NtxKernel.Mm

open Foundations Ob Ke

/-! ## The layout -/

/-- A region that is page aligned, not empty, and lies in the user range below `next`. -/
structure MmVaRegion.PlacedBelow (r : MmVaRegion) (next : U64) : Prop where
  base_aligned : mmPageSize ∣ r.base.toNat
  size_aligned : mmPageSize ∣ r.size.toNat
  size_pos : mmPageSize ≤ r.size.toNat
  base_le : mmUserBase.toNat ≤ r.base.toNat
  stop_le : r.base.toNat + r.size.toNat ≤ next.toNat

/-- The regions of an address space are placed below `NextUserBase`, apart from each other. -/
structure RegionsOk (space : MmAddressSpace) : Prop where
  regionCount_le : space.regionCount ≤ mmMaxVaRegions
  base_le : mmUserBase.toNat ≤ space.nextUserBase.toNat
  next_le : space.nextUserBase.toNat ≤ mmUserTop.toNat
  next_aligned : mmPageSize ∣ space.nextUserBase.toNat
  placed : ∀ i : Fin mmMaxVaRegions, i.val < space.regionCount →
    (space.regions i).PlacedBelow space.nextUserBase
  disjoint : ∀ i j : Fin mmMaxVaRegions, i.val < space.regionCount → j.val < space.regionCount →
    i ≠ j →
      (space.regions i).base.toNat + (space.regions i).size.toNat ≤ (space.regions j).base.toNat ∨
      (space.regions j).base.toNat + (space.regions j).size.toNat ≤ (space.regions i).base.toNat

/-- The size of the region for a request of some bytes, as a number. -/
def mapBytes (bytes : ℕ) : ℕ := (max bytes 1 + 4095) / 4096 * 4096

/-- There is room for a request of some bytes. -/
def Placeable (space : MmAddressSpace) (bytes : ℕ) : Prop :=
  space.nextUserBase.toNat + mapBytes bytes ≤ mmUserTop.toNat

/-- The address space with one more region. -/
def MmAddressSpace.withRegion (space : MmAddressSpace) (h : space.regionCount < mmMaxVaRegions)
    (region : MmVaRegion) : MmAddressSpace :=
  { space with
    regions := Function.update space.regions ⟨space.regionCount, h⟩ region
    regionCount := space.regionCount + 1
    nextUserBase := region.base + region.size }

theorem mapBytes_bounds (bytes : ℕ) :
    bytes ≤ mapBytes bytes ∧ mmPageSize ≤ mapBytes bytes ∧ mmPageSize ∣ mapBytes bytes := by
  have hmax : bytes ≤ max bytes 1 := Nat.le_max_left _ _
  have hone : 1 ≤ max bytes 1 := Nat.le_max_right _ _
  have hpage : mmPageSize = 4096 := rfl
  refine ⟨?_, ?_, Nat.dvd_mul_left _ _⟩ <;> rw [mapBytes] <;> omega

/-- Rounding up a base that is aligned does nothing. -/
theorem mmpAlignUp_of_aligned {value : U64} (h : mmPageSize ∣ value.toNat)
    (hlt : value.toNat ≤ mmUserTop.toNat) : mmpAlignUp value 4096 = value := by
  have htop : mmUserTop.toNat = 0x800000000000 := by decide
  refine BitVec.eq_of_toNat_eq ?_
  rw [mmpAlignUp_toNat (by omega)]
  obtain ⟨q, hq⟩ : 4096 ∣ value.toNat := h
  omega

/-- The size of a region for a request that fits the user range. -/
theorem mmpAlignSizeToPage_toNat {size : U64} (h : mapBytes size.toNat ≤ mmUserTop.toNat) :
    (mmpAlignSizeToPage size).toNat = mapBytes size.toNat := by
  have htop : mmUserTop.toNat = 0x800000000000 := by decide
  rw [mmpAlignSizeToPage]
  by_cases hzero : size = 0
  · rw [if_pos hzero, hzero]
    decide
  · have hpos : 0 < size.toNat :=
      Nat.pos_of_ne_zero fun h0 => hzero (BitVec.eq_of_toNat_eq (by rw [h0]; rfl))
    have hmax : max size.toNat 1 = size.toNat := Nat.max_eq_left hpos
    have hle := (mapBytes_bounds size.toNat).1
    rw [if_neg hzero, mmpAlignUp_toNat (by omega), mapBytes, hmax]

/-- One more region at `NextUserBase` keeps the layout. -/
theorem RegionsOk.withRegion {space : MmAddressSpace} (ok : RegionsOk space)
    (h : space.regionCount < mmMaxVaRegions) {region : MmVaRegion} {bytes : ℕ}
    (hbase : region.base = mmpAlignUp space.nextUserBase 4096)
    (hsize : region.size.toNat = mapBytes bytes) (hroom : Placeable space bytes) :
    RegionsOk (space.withRegion h region) := by
  have htop : mmUserTop.toNat = 0x800000000000 := by decide
  have hbytes := mapBytes_bounds bytes
  rw [mmpAlignUp_of_aligned ok.next_aligned ok.next_le] at hbase
  rw [Placeable] at hroom
  have hnext : (region.base + region.size).toNat = space.nextUserBase.toNat + mapBytes bytes := by
    rw [BitVec.toNat_add, hbase, hsize]
    exact Nat.mod_eq_of_lt (by omega)
  have hnew : region.PlacedBelow (region.base + region.size) :=
    { base_aligned := by rw [hbase]; exact ok.next_aligned
      size_aligned := by rw [hsize]; exact hbytes.2.2
      size_pos := by rw [hsize]; exact hbytes.2.1
      base_le := by rw [hbase]; exact ok.base_le
      stop_le := by rw [hnext, hbase, hsize] }
  have hold : ∀ i : Fin mmMaxVaRegions, i.val < space.regionCount →
      Function.update space.regions ⟨space.regionCount, h⟩ region i = space.regions i := by
    intro i hi
    exact Function.update_of_ne (fun he => by rw [he] at hi; exact Nat.lt_irrefl _ hi) _ _
  have hlast : ∀ i : Fin mmMaxVaRegions, i.val < space.regionCount + 1 →
      i.val < space.regionCount ∨ i = ⟨space.regionCount, h⟩ := by
    intro i hi
    by_cases hlt : i.val < space.regionCount
    · exact Or.inl hlt
    · exact Or.inr (Fin.ext (by dsimp only; omega))
  exact
    { regionCount_le := h
      base_le := by
        have := ok.base_le
        dsimp only [MmAddressSpace.withRegion]
        omega
      next_le := by
        dsimp only [MmAddressSpace.withRegion]
        omega
      next_aligned := by
        dsimp only [MmAddressSpace.withRegion]
        rw [hnext]
        exact Nat.dvd_add ok.next_aligned hbytes.2.2
      placed := by
        intro i hi
        dsimp only [MmAddressSpace.withRegion] at hi ⊢
        rcases hlast i hi with hlt | rfl
        · rw [hold i hlt]
          have hp := ok.placed i hlt
          have := hp.stop_le
          exact ⟨hp.base_aligned, hp.size_aligned, hp.size_pos, hp.base_le, by omega⟩
        · rw [Function.update_self]
          exact hnew
      disjoint := by
        intro i j hi hj hne
        dsimp only [MmAddressSpace.withRegion] at hi hj ⊢
        rcases hlast i hi with hilt | rfl <;> rcases hlast j hj with hjlt | rfl
        · rw [hold i hilt, hold j hjlt]
          exact ok.disjoint i j hilt hjlt hne
        · rw [hold i hilt, Function.update_self, hbase]
          exact Or.inl (ok.placed i hilt).stop_le
        · rw [hold j hjlt, Function.update_self, hbase]
          exact Or.inr (ok.placed j hjlt).stop_le
        · exact absurd rfl hne }

/-- Only the regions that are counted matter. -/
theorem RegionsOk.congr {space space' : MmAddressSpace} (ok : RegionsOk space)
    (hcount : space'.regionCount = space.regionCount)
    (hnext : space'.nextUserBase = space.nextUserBase)
    (hregions : ∀ i : Fin mmMaxVaRegions, i.val < space.regionCount →
      (space'.regions i).base = (space.regions i).base ∧
        (space'.regions i).size = (space.regions i).size) : RegionsOk space' where
  regionCount_le := by rw [hcount]; exact ok.regionCount_le
  base_le := by rw [hnext]; exact ok.base_le
  next_le := by rw [hnext]; exact ok.next_le
  next_aligned := by rw [hnext]; exact ok.next_aligned
  placed := by
    intro i hi
    rw [hcount] at hi
    obtain ⟨hb, hs⟩ := hregions i hi
    obtain ⟨h₁, h₂, h₃, h₄, h₅⟩ := ok.placed i hi
    exact ⟨by rw [hb]; exact h₁, by rw [hs]; exact h₂, by rw [hs]; exact h₃,
      by rw [hb]; exact h₄, by rw [hb, hs, hnext]; exact h₅⟩
  disjoint := by
    intro i j hi hj hne
    rw [hcount] at hi hj
    rw [(hregions i hi).1, (hregions i hi).2, (hregions j hj).1, (hregions j hj).2]
    exact ok.disjoint i j hi hj hne

/-! ## What the calls do to an address space -/

/-- Replace the address space `a`. -/
theorem modifyAddressSpace_pool (mm : MmState) (a : AddressSpaceRef)
    (f : MmAddressSpace → MmAddressSpace) :
    (mm.modifyAddressSpace a f).addressSpacePool =
      Function.update mm.addressSpacePool a (f (mm.addressSpacePool a)) := rfl

/-- Wiring the pages of a region counts them in the region, and nothing else of any address space
changes. -/
theorem mmMapWired_pool (a : AddressSpaceRef) (slot : Fin mmMaxVaRegions) (virtualBase : U64)
    (protection flags : U32) (n : ℕ) (cursor : U64) (mm : MmState) : ∃ committed,
      (mmMapWired a slot virtualBase protection flags n cursor mm).1.addressSpacePool =
        (mm.modifyRegion a slot fun r => { r with committedPages := committed }).addressSpacePool := by
  induction n generalizing cursor mm with
  | zero =>
    refine ⟨((mm.addressSpacePool a).regions slot).committedPages, ?_⟩
    simp only [mmMapWired, MmState.modifyRegion, modifyAddressSpace_pool, Function.update_eq_self]
  | succ n ih =>
    rw [mmMapWired]
    have hpages : OnlyPages mm (mmMapZeroPage mm a (virtualBase + cursor) protection flags).1 := by
      rw [mmMapZeroPage]
      have halloc := OnlyPages.mmAllocPage mm
      generalize mmAllocPage mm = r at halloc ⊢
      obtain ⟨mm₁, e | pa⟩ := r
      · exact halloc
      · exact halloc.trans ((OnlyPages.fillFrame ..).trans (OnlyPages.mmAsMapPage ..))
    generalize mmMapZeroPage mm a (virtualBase + cursor) protection flags = r at hpages ⊢
    obtain ⟨mm₁, e | _⟩ := r
    · refine ⟨((mm.addressSpacePool a).regions slot).committedPages, ?_⟩
      simp only [MmState.modifyRegion, modifyAddressSpace_pool, Function.update_eq_self]
      exact hpages.addressSpacePool
    · obtain ⟨committed, hcommitted⟩ := ih (cursor + 4096)
        (mm₁.modifyRegion a slot fun r => { r with committedPages := r.committedPages + 1 })
      have hpool : mm₁.addressSpacePool = mm.addressSpacePool := hpages.addressSpacePool
      refine ⟨committed, hcommitted.trans ?_⟩
      simp only [MmState.modifyRegion, modifyAddressSpace_pool, Function.update_self,
        Function.update_idem, hpool]

/-- `MmMapAnonymous` is refused and changes nothing, or it writes a region and either counts it or
runs out of memory while wiring it. -/
theorem mmMapAnonymous_cases (mm : MmState) (a : AddressSpaceRef) (size : U64)
    (protection flags : U32) :
    ((mm.ready = false ∨ mmMaxVaRegions ≤ (mm.addressSpacePool a).regionCount) ∧
      ∃ e, mmMapAnonymous mm a size protection flags = (mm, .error e)) ∨
    ∃ (h : (mm.addressSpacePool a).regionCount < mmMaxVaRegions) (committed : U32)
      (region : MmVaRegion), mm.ready = true ∧
      region = { anonRegion (mmpAlignUp (mm.addressSpacePool a).nextUserBase 4096)
        (mmpAlignSizeToPage size) protection flags with committedPages := committed } ∧
      ((∃ mm' e, mmMapAnonymous mm a size protection flags = (mm', .error e) ∧
          mm'.addressSpacePool = Function.update mm.addressSpacePool a
            { mm.addressSpacePool a with
              regions := Function.update (mm.addressSpacePool a).regions
                ⟨(mm.addressSpacePool a).regionCount, h⟩ region }) ∨
        ∃ mm', mmMapAnonymous mm a size protection flags = (mm', .ok region.base) ∧
          mm'.addressSpacePool = Function.update mm.addressSpacePool a
            ((mm.addressSpacePool a).withRegion h region)) := by
  rw [mmMapAnonymous]
  by_cases hready : mm.ready = false
  · rw [if_pos hready]
    exact Or.inl ⟨Or.inl hready, _, rfl⟩
  rw [if_neg hready]
  by_cases hcount : (mm.addressSpacePool a).regionCount < mmMaxVaRegions
  · rw [dif_pos hcount]
    refine Or.inr ⟨hcount, ?_⟩
    dsimp only
    generalize hregion : anonRegion (mmpAlignUp (mm.addressSpacePool a).nextUserBase 4096)
      (mmpAlignSizeToPage size) protection flags = region
    have hbase : mmpAlignUp (mm.addressSpacePool a).nextUserBase 4096 = region.base := by
      rw [← hregion]
      rfl
    have hsize : mmpAlignSizeToPage size = region.size := by
      rw [← hregion]
      rfl
    by_cases hwired : hasFlag region.flags mmRegionFlagWired = true
    · rw [if_pos hwired]
      obtain ⟨committed, hpool⟩ := mmMapWired_pool a ⟨_, hcount⟩
        (mmpAlignUp (mm.addressSpacePool a).nextUserBase 4096) region.protection region.flags
        ((mmpAlignSizeToPage size).toNat / mmPageSize) 0
        (mm.modifyRegion a ⟨_, hcount⟩ fun _ => region)
      refine ⟨committed, { region with committedPages := committed }, by simpa using hready,
        rfl, ?_⟩
      generalize mmMapWired a ⟨_, hcount⟩ _ region.protection region.flags _ 0
        (mm.modifyRegion a ⟨_, hcount⟩ fun _ => region) = r at hpool ⊢
      simp only [MmState.modifyRegion, modifyAddressSpace_pool, Function.update_self,
        Function.update_idem] at hpool
      obtain ⟨mm₁, e | _⟩ := r
      · exact Or.inl ⟨mm₁, e, rfl, hpool⟩
      · refine Or.inr ⟨_, by rw [hbase], ?_⟩
        dsimp only at hpool
        rw [MmState.addRegion, modifyAddressSpace_pool, hpool, Function.update_self,
          Function.update_idem, hsize]
        rfl
    · rw [if_neg hwired]
      refine ⟨region.committedPages, region, by simpa using hready, rfl,
        Or.inr ⟨_, by rw [hbase], ?_⟩⟩
      simp only [MmState.addRegion, MmState.modifyRegion, modifyAddressSpace_pool,
        Function.update_self, Function.update_idem]
      rw [hsize]
      rfl
  · rw [dif_neg hcount]
    exact Or.inl ⟨Or.inr (by omega), _, rfl⟩

/-- The type of sections carries the delete routine of sections. -/
def SectionTypeOk {σ : Type} [MmGlobals σ] (ob : ObState σ) (k : σ) : Prop :=
  ∀ t, (MmGlobals.mm k).sectionType = some t →
    (ob.typePool t).deleteRoutine = some mmSectionDeleteRoutine

variable {σ : Type} [MmGlobals σ]

open MmGlobals

/-- The section that a handle names, if `MmMapSectionHandle` finds one. -/
def sectionOfHandle (ob : ObState σ) (k : σ) (handleValue protection : U32) : Option SectionRef :=
  match obReferenceObjectByHandle ob handleValue
      (if hasFlag protection mmProtWrite then mmSectionAccessMapRead ||| mmSectionAccessMapWrite
        else mmSectionAccessMapRead) (mm k).sectionType with
  | (_, .error _) => none
  | (_, .ok header) => mmpFindSectionByHeader (mm k) (some header)

/-- Deleting an object that is not that of a section does nothing. -/
theorem mmpDeleteSectionObject_of_not_found {mm : MmState} {o : ObjectRef}
    (h : mmpFindSectionByHeader mm (some o) = none) : mmpDeleteSectionObject mm o = mm := by
  rw [mmpDeleteSectionObject, h]

/-- The reference to an object of the type of sections that is not the object of a section is given
back, and nothing is deleted. -/
theorem derefNotFound {ob ob₁ : ObState σ} {k : σ} {handleValue right : U32} {header : ObjectRef}
    (hty : SectionTypeOk ob k) (htype : (mm k).sectionType ≠ none)
    (href : obReferenceObjectByHandle ob handleValue right (mm k).sectionType = (ob₁, .ok header))
    (hfind : mmpFindSectionByHeader (mm k) (some header) = none) :
    (obDereferenceObject ob₁ k header).2.1 = k ∧
      (obDereferenceObject ob₁ k header).1.typePool = ob.typePool := by
  have htypes := obReferenceObjectByHandle_typePool ob handleValue right (mm k).sectionType
  rw [href] at htypes
  refine ⟨?_, (obDereferenceObject_typePool ob₁ k header).trans htypes⟩
  rcases obReferenceObjectByHandle_cases ob handleValue right (mm k).sectionType with
    ⟨e, he⟩ | ⟨i, entry, -, -, hexpected, he⟩
  · cases href.symm.trans he
  obtain ⟨t, ht⟩ := Option.ne_none_iff_exists'.1 htype
  have hobject : (ob.objectPool entry.object).type = some t := by
    rcases hexpected with h | h
    · exact absurd h htype
    · rw [h, ht]
  cases href.symm.trans he
  rcases obDereferenceObject_cases { ob with
      objectPool := Function.update ob.objectPool entry.object
        { ob.objectPool entry.object with
          refCount := (ob.objectPool entry.object).refCount + 1 } } k entry.object with
    ⟨-, hd⟩ | ⟨-, -, -, hd⟩ | ⟨-, -, hd⟩
  · rw [hd]
  · rw [hd]
  · rw [hd]
    -- the object has the type of sections, so it is the routine of sections that runs
    simp only [ObState.runDeleteRoutine, Function.update_self, hobject, hty t ht,
      mmSectionDeleteRoutine, mmpDeleteSectionObject_of_not_found hfind, setMm_mm]

/-- `MmMapSectionHandle` is refused and changes nothing of the memory manager, or it adds a region
of the size of the section that the handle names. -/
theorem mmMapSectionHandle_cases {ob : ObState σ} {k : σ} (hty : SectionTypeOk ob k)
    (a : AddressSpaceRef) (handleValue protection : U32) :
    ((¬((mm k).addressSpacePool a).regionCount < mmMaxVaRegions ∨
        (mm k).ready = false ∨ (mm k).sectionType = none ∨
        sectionOfHandle ob k handleValue protection = none) ∧
      ∃ ob' k' e, mmMapSectionHandle ob k a handleValue protection = (ob', k', .error e) ∧
        k' = k ∧ ob'.typePool = ob.typePool ∧
        (mmMaxVaRegions ≤ ((mm k).addressSpacePool a).regionCount → ob' = ob)) ∨
    ∃ (h : ((mm k).addressSpacePool a).regionCount < mmMaxVaRegions) (ob' : ObState σ)
      (header : ObjectRef) (s : SectionRef) (region : MmVaRegion), (mm k).ready = true ∧
      obReferenceObjectByHandle ob handleValue
        (if hasFlag protection mmProtWrite then mmSectionAccessMapRead ||| mmSectionAccessMapWrite
          else mmSectionAccessMapRead) (mm k).sectionType = (ob', .ok header) ∧
      mmpFindSectionByHeader (mm k) (some header) = some s ∧
      sectionOfHandle ob k handleValue protection = some s ∧
      region = sectionRegion (mmpAlignUp ((mm k).addressSpacePool a).nextUserBase 4096)
        (BitVec.ofNat 64 (((mm k).sectionPool s).pageCount * mmPageSize)) protection header ∧
      mmMapSectionHandle ob k a handleValue protection =
        (ob', setMm { mm k with
          addressSpacePool := Function.update (mm k).addressSpacePool a
            (((mm k).addressSpacePool a).withRegion h region) } k, .ok region.base) := by
  rw [mmMapSectionHandle, sectionOfHandle]
  by_cases hready : (mm k).ready = false ∨ (mm k).sectionType = none
  · rw [if_pos hready]
    exact Or.inl ⟨Or.inr (hready.imp id Or.inl), ob, k, _, rfl, rfl, rfl, fun _ => rfl⟩
  rw [if_neg hready]
  by_cases hcount : ((mm k).addressSpacePool a).regionCount < mmMaxVaRegions
  · rw [dif_pos hcount]
    dsimp only
    generalize hright : (if hasFlag protection mmProtWrite then
      mmSectionAccessMapRead ||| mmSectionAccessMapWrite else mmSectionAccessMapRead) = right
    have htypes := obReferenceObjectByHandle_typePool ob handleValue right (mm k).sectionType
    generalize href : obReferenceObjectByHandle ob handleValue right (mm k).sectionType = r
      at htypes ⊢
    obtain ⟨ob₁, e | header⟩ := r
    · exact Or.inl ⟨Or.inr (Or.inr (Or.inr rfl)), ob₁, k, e, rfl, rfl, htypes,
        fun h => by omega⟩
    dsimp only
    cases hfind : mmpFindSectionByHeader (mm k) (some header) with
    | none =>
      obtain ⟨hk, htypes⟩ := derefNotFound hty (fun h => hready (Or.inr h)) href hfind
      exact Or.inl ⟨Or.inr (Or.inr (Or.inr rfl)), _, _, _, rfl, hk, htypes, fun h => by omega⟩
    | some s =>
      refine Or.inr ⟨hcount, ob₁, header, s, _, by simpa using fun h => hready (Or.inl h), rfl,
        hfind, rfl, rfl, ?_⟩
      simp only [MmState.addRegion, MmState.modifyRegion, MmState.modifyAddressSpace,
        Function.update_self, Function.update_idem]
      rfl
  · rw [dif_neg hcount]
    exact Or.inl ⟨Or.inl hcount, ob, k, _, rfl, rfl, rfl, fun _ => rfl⟩

/-! ## Runs -/

/-- Only pages and address spaces changed. -/
def OnlyMappings (mm mm' : MmState) : Prop :=
  ∃ pool, OnlyPages { mm with addressSpacePool := pool } mm'

namespace OnlyMappings

variable {m m' m'' : MmState}

theorem of_onlyPages (h : OnlyPages m m') : OnlyMappings m m' := ⟨m.addressSpacePool, h⟩

theorem refl (m : MmState) : OnlyMappings m m := of_onlyPages (.refl m)

theorem trans (h : OnlyMappings m m') (h' : OnlyMappings m' m'') : OnlyMappings m m'' := by
  obtain ⟨pool, bitmap, refCount, next, mem, rfl⟩ := h
  obtain ⟨pool', bitmap', refCount', next', mem', rfl⟩ := h'
  exact ⟨pool', bitmap', refCount', next', mem', rfl⟩

theorem modifyAddressSpace (m : MmState) (a : AddressSpaceRef)
    (f : MmAddressSpace → MmAddressSpace) : OnlyMappings m (m.modifyAddressSpace a f) :=
  ⟨_, .refl _⟩

theorem modifyRegion (m : MmState) (a : AddressSpaceRef) (slot : Fin mmMaxVaRegions)
    (f : MmVaRegion → MmVaRegion) : OnlyMappings m (m.modifyRegion a slot f) :=
  modifyAddressSpace ..

theorem addRegion (m : MmState) (a : AddressSpaceRef) (virtualBase mapSize : U64) :
    OnlyMappings m (m.addRegion a virtualBase mapSize) := modifyAddressSpace ..

theorem sectionType (h : OnlyMappings m m') : m'.sectionType = m.sectionType := by
  obtain ⟨pool, bitmap, refCount, next, mem, rfl⟩ := h
  rfl

theorem sectionPool (h : OnlyMappings m m') : m'.sectionPool = m.sectionPool := by
  obtain ⟨pool, bitmap, refCount, next, mem, rfl⟩ := h
  rfl

theorem sectionInUse (h : OnlyMappings m m') : m'.sectionInUse = m.sectionInUse := by
  obtain ⟨pool, bitmap, refCount, next, mem, rfl⟩ := h
  rfl

theorem mmMapZeroPage (m : MmState) (a : AddressSpaceRef) (va : U64) (protection flags : U32) :
    OnlyMappings m (mmMapZeroPage m a va protection flags).1 := by
  rw [Mm.mmMapZeroPage]
  have halloc := OnlyPages.mmAllocPage m
  generalize mmAllocPage m = r at halloc ⊢
  obtain ⟨m₁, e | pa⟩ := r
  · exact of_onlyPages halloc
  · exact of_onlyPages (halloc.trans ((OnlyPages.fillFrame ..).trans (OnlyPages.mmAsMapPage ..)))

theorem mmMapWired (a : AddressSpaceRef) (slot : Fin mmMaxVaRegions) (virtualBase : U64)
    (protection flags : U32) (n : ℕ) (cursor : U64) (m : MmState) :
    OnlyMappings m (mmMapWired a slot virtualBase protection flags n cursor m).1 := by
  induction n generalizing cursor m with
  | zero => exact refl m
  | succ n ih =>
    rw [Mm.mmMapWired]
    have hmap := mmMapZeroPage m a (virtualBase + cursor) protection flags
    generalize Mm.mmMapZeroPage m a (virtualBase + cursor) protection flags = r at hmap ⊢
    obtain ⟨m₁, e | _⟩ := r
    · exact hmap
    · exact hmap.trans ((modifyRegion ..).trans (ih ..))

theorem mmMapAnonymous (m : MmState) (a : AddressSpaceRef) (size : U64) (protection flags : U32) :
    OnlyMappings m (mmMapAnonymous m a size protection flags).1 := by
  rw [Mm.mmMapAnonymous]
  split
  · exact refl m
  split
  · dsimp only
    split
    · have hwired := mmMapWired a ⟨_, ‹_›⟩ (mmpAlignUp (m.addressSpacePool a).nextUserBase 4096)
        (anonRegion (mmpAlignUp (m.addressSpacePool a).nextUserBase 4096)
          (mmpAlignSizeToPage size) protection flags).protection
        (anonRegion (mmpAlignUp (m.addressSpacePool a).nextUserBase 4096)
          (mmpAlignSizeToPage size) protection flags).flags
        ((mmpAlignSizeToPage size).toNat / mmPageSize) 0
        (m.modifyRegion a ⟨_, ‹_›⟩ fun _ =>
          anonRegion (mmpAlignUp (m.addressSpacePool a).nextUserBase 4096)
            (mmpAlignSizeToPage size) protection flags)
      generalize Mm.mmMapWired a _ _ _ _ _ 0 _ = r at hwired ⊢
      obtain ⟨m₁, e | _⟩ := r
      · exact (modifyRegion ..).trans hwired
      · exact (modifyRegion ..).trans (hwired.trans (addRegion ..))
    · exact (modifyRegion ..).trans (addRegion ..)
  · exact refl m

end OnlyMappings

/-- The object manager and the managers over it. -/
structure MmSystem (σ : Type) where
  ob : ObState σ
  k : σ

/-- A call that maps memory into an address space, of the kernel or through a system call. -/
inductive LayoutCall
  | mapAnonymous (size : U64) (protection regionFlags : U32)
  | mapSection (handleValue protection : U32)
  | nkMapMemory (flags : U64)
  | nkMapSection (handleValue protection outAddress : U64)

namespace MmSystem

/-- The address space `a`. -/
def space (s : MmSystem σ) (a : AddressSpaceRef) : MmAddressSpace := (mm s.k).addressSpacePool a

/-- The state after a call. -/
def perform (a : AddressSpaceRef) (s : MmSystem σ) : LayoutCall → MmSystem σ
  | .mapAnonymous size protection flags =>
    ⟨s.ob, setMm (mmMapAnonymous (mm s.k) a size protection flags).1 s.k⟩
  | .mapSection handleValue protection =>
    let r := mmMapSectionHandle s.ob s.k a handleValue protection
    ⟨r.1, r.2.1⟩
  | .nkMapMemory flags => ⟨s.ob, setMm (kipSysMapMemory (mm s.k) (some a) flags).1 s.k⟩
  | .nkMapSection handleValue protection outAddress =>
    let r := kipSysMapSection s.ob s.k (some a) handleValue protection outAddress
    ⟨r.1, r.2.1⟩

/-- A step of a run of calls on the address space `a`. -/
def MapStep (a : AddressSpaceRef) (s : MmSystem σ) (c : LayoutCall) (s' : MmSystem σ) : Prop :=
  s' = s.perform a c

/-- The bytes of the section that a handle names. -/
def sectionBytes (s : MmSystem σ) (handleValue protection : U32) : Option ℕ :=
  (sectionOfHandle s.ob s.k handleValue protection).map fun sec =>
    ((mm s.k).sectionPool sec).pageCount * mmPageSize

/-- The bytes that a call asks for; `none` for a handle that names no section, and for a system
call that refuses its arguments. -/
def requested (s : MmSystem σ) : LayoutCall → Option ℕ
  | .mapAnonymous size _ _ => some size.toNat
  | .mapSection handleValue protection => s.sectionBytes handleValue protection
  | .nkMapMemory flags => some (if flags = 0 then mmPageSize else flags.toNat)
  | .nkMapSection handleValue protection outAddress =>
    if outAddress = 0 ∨ kipIsRangeWritable outAddress 8 = false then none
    else s.sectionBytes (handleValue.setWidth 32) (protection.setWidth 32)

/-- There is room for what a call asks for, or it finds the table of regions full. -/
def Fits (a : AddressSpaceRef) (s : MmSystem σ) (c : LayoutCall) : Prop :=
  ∀ bytes, s.requested c = some bytes →
    Placeable (s.space a) bytes ∨ mmMaxVaRegions ≤ (s.space a).regionCount

/-- After a call the layout is kept, a region that was added is large enough, and a request for
which there is no room was refused with nothing changed. -/
structure LayoutKept (a : AddressSpaceRef) (s : MmSystem σ) (c : LayoutCall) (s' : MmSystem σ) :
    Prop where
  regions : RegionsOk (s'.space a)
  large : (s'.space a).regionCount = (s.space a).regionCount ∨
    ∃ bytes, s.requested c = some bytes ∧
      (s'.space a).regionCount = (s.space a).regionCount + 1 ∧
      ∀ i : Fin mmMaxVaRegions, i.val = (s.space a).regionCount →
        bytes ≤ ((s'.space a).regions i).size.toNat
  refused : ∀ bytes, s.requested c = some bytes → ¬Placeable (s.space a) bytes → s' = s

/-- Every section that is in use has pages, and no more than fit its table. -/
def SectionsFilled (m : MmState) : Prop :=
  ∀ sec, m.sectionInUse sec = true → (m.sectionPool sec).header ≠ none →
    0 < (m.sectionPool sec).pageCount ∧ (m.sectionPool sec).pageCount ≤ mmMaxSectionPages

/-- The layout, and what the calls rely on about sections. -/
structure LayoutInv (a : AddressSpaceRef) (s : MmSystem σ) : Prop where
  regions : RegionsOk (s.space a)
  sectionType : SectionTypeOk s.ob s.k
  filled : SectionsFilled (mm s.k)

/-- What was requested is all that the property of a step looks at in a call. -/
theorem LayoutKept.congr {a : AddressSpaceRef} {s s' : MmSystem σ} {c c' : LayoutCall}
    (h : LayoutKept a s c s') (hc : s.requested c' = s.requested c) : LayoutKept a s c' s' where
  regions := h.regions
  large := by rw [hc]; exact h.large
  refused := by rw [hc]; exact h.refused

/-- A call that is refused keeps everything. -/
theorem LayoutInv.refused {a : AddressSpaceRef} {s : MmSystem σ} (inv : LayoutInv a s)
    (c : LayoutCall) : LayoutKept a s c s :=
  ⟨inv.regions, Or.inl rfl, fun _ _ _ => rfl⟩

theorem LayoutInv.mapAnonymous {a : AddressSpaceRef} {s : MmSystem σ} (inv : LayoutInv a s)
    {size : U64} {protection flags : U32} (hfits : s.Fits a (.mapAnonymous size protection flags)) :
    LayoutInv a (s.perform a (.mapAnonymous size protection flags)) ∧
      LayoutKept a s (.mapAnonymous size protection flags)
        (s.perform a (.mapAnonymous size protection flags)) := by
  have hmappings := OnlyMappings.mmMapAnonymous (mm s.k) a size protection flags
  have hroom := hfits _ rfl
  have hkeep : ∀ m, OnlyMappings (mm s.k) m → RegionsOk (m.addressSpacePool a) →
      LayoutInv a ⟨s.ob, setMm m s.k⟩ := by
    intro m hm hregions
    refine ⟨?_, ?_, ?_⟩
    · rw [space, mm_setMm]
      exact hregions
    · intro t ht
      rw [mm_setMm, hm.sectionType] at ht
      exact inv.sectionType t ht
    · intro sec hsec hheader
      simp only [mm_setMm, hm.sectionPool, hm.sectionInUse] at hsec hheader ⊢
      exact inv.filled sec hsec hheader
  rw [perform]
  rcases mmMapAnonymous_cases (mm s.k) a size protection flags with
    ⟨-, e, heq⟩ | ⟨hcount, committed, region, hready, hregion, hrest⟩
  · rw [heq]
    dsimp only
    rw [setMm_mm]
    exact ⟨inv, inv.refused _⟩
  have hplace : Placeable (s.space a) size.toNat := by
    rcases hroom with h | h
    · exact h
    · exact absurd hcount (Nat.not_lt.2 h)
  have hsize : region.size.toNat = mapBytes size.toNat := by
    rw [hregion]
    refine mmpAlignSizeToPage_toNat ?_
    rw [Placeable] at hplace
    omega
  have hrefused : ∀ s', ∀ bytes, s.requested (.mapAnonymous size protection flags) = some bytes →
      ¬Placeable (s.space a) bytes → s' = s := by
    intro s' bytes hbytes hnot
    cases hbytes
    exact absurd hplace hnot
  rcases hrest with ⟨m, e, heq, hpool⟩ | ⟨m, heq, hpool⟩
  · rw [heq] at hmappings ⊢
    have hregions : RegionsOk (m.addressSpacePool a) := by
      rw [hpool, Function.update_self]
      refine inv.regions.congr rfl rfl fun i hi => ?_
      have hne : i ≠ ⟨((mm s.k).addressSpacePool a).regionCount, hcount⟩ := by
        intro he
        rw [he] at hi
        exact Nat.lt_irrefl _ hi
      simp only [Function.update_of_ne hne]
      exact ⟨rfl, rfl⟩
    have hinv := hkeep m hmappings hregions
    refine ⟨hinv, hinv.regions, Or.inl ?_, hrefused _⟩
    simp only [space, mm_setMm, hpool, Function.update_self]
  · rw [heq] at hmappings ⊢
    have hregions : RegionsOk (m.addressSpacePool a) := by
      rw [hpool, Function.update_self]
      exact inv.regions.withRegion hcount (by rw [hregion]; rfl) hsize hplace
    have hinv := hkeep m hmappings hregions
    refine ⟨hinv, hinv.regions, Or.inr ⟨_, rfl, ?_, ?_⟩, hrefused _⟩
    · simp only [space, mm_setMm, hpool, Function.update_self, MmAddressSpace.withRegion]
    · intro i hi
      have hi' : i = ⟨((mm s.k).addressSpacePool a).regionCount, hcount⟩ := Fin.ext hi
      simp only [space, mm_setMm, hpool, Function.update_self, MmAddressSpace.withRegion, hi']
      rw [hsize]
      exact (mapBytes_bounds _).1

/-- A section that is found is in use and belongs to the header. -/
theorem mmpFindSectionByHeader_sound {m : MmState} {o : ObjectRef} {sec : SectionRef}
    (h : mmpFindSectionByHeader m (some o) = some sec) :
    m.sectionInUse sec = true ∧ (m.sectionPool sec).header = some o := by
  have hsound := firstIndex_sound h
  rw [Bool.and_eq_true, decide_eq_true_eq] at hsound
  exact hsound

theorem LayoutInv.mapSection {a : AddressSpaceRef} {s : MmSystem σ} (inv : LayoutInv a s)
    {handleValue protection : U32} (hfits : s.Fits a (.mapSection handleValue protection)) :
    LayoutInv a (s.perform a (.mapSection handleValue protection)) ∧
      LayoutKept a s (.mapSection handleValue protection)
        (s.perform a (.mapSection handleValue protection)) := by
  rw [perform]
  rcases mmMapSectionHandle_cases inv.sectionType a handleValue protection with
    ⟨hwhy, ob', k', e, heq, rfl, htypes, hfull⟩ |
    ⟨hcount, ob', header, sec, region, hready, href, hfind, hsec, hregion, heq⟩
  · rw [heq]
    refine ⟨⟨inv.regions, fun t ht => ?_, inv.filled⟩, inv.regions, Or.inl rfl, ?_⟩
    · rw [htypes]
      exact inv.sectionType t ht
    · intro bytes hbytes hnot
      have hfits' := (hfits bytes hbytes).resolve_left hnot
      dsimp only
      rw [hfull hfits']
  have hrequested : s.requested (.mapSection handleValue protection) =
      some (((mm s.k).sectionPool sec).pageCount * mmPageSize) := by
    rw [requested, sectionBytes, hsec, Option.map_some]
  obtain ⟨hused, hheader⟩ := mmpFindSectionByHeader_sound hfind
  obtain ⟨hpos, hle⟩ := inv.filled sec hused (by rw [hheader]; exact Option.some_ne_none _)
  have hplace : Placeable (s.space a) (((mm s.k).sectionPool sec).pageCount * mmPageSize) := by
    rcases hfits _ hrequested with h | h
    · exact h
    · exact absurd hcount (Nat.not_lt.2 h)
  have hsize : region.size.toNat =
      mapBytes (((mm s.k).sectionPool sec).pageCount * mmPageSize) := by
    have hpage : mmPageSize = 4096 := rfl
    have hlePages : ((mm s.k).sectionPool sec).pageCount ≤ 256 := hle
    have hmax : max (((mm s.k).sectionPool sec).pageCount * 4096) 1 =
        ((mm s.k).sectionPool sec).pageCount * 4096 := Nat.max_eq_left (by omega)
    rw [hregion, mapBytes, hpage, hmax]
    simp only [sectionRegion, BitVec.toNat_ofNat]
    rw [Nat.mod_eq_of_lt (by omega)]
    omega
  have hregions : RegionsOk (((mm s.k).addressSpacePool a).withRegion hcount region) :=
    inv.regions.withRegion hcount (by rw [hregion]; rfl) hsize hplace
  have hspace : (⟨ob', setMm { mm s.k with
      addressSpacePool := Function.update (mm s.k).addressSpacePool a
        (((mm s.k).addressSpacePool a).withRegion hcount region) } s.k⟩ : MmSystem σ).space a =
      ((mm s.k).addressSpacePool a).withRegion hcount region := by
    simp only [space, mm_setMm, Function.update_self]
  rw [heq]
  dsimp only
  refine ⟨⟨?_, fun t ht => ?_, ?_⟩, ?_, Or.inr ⟨_, hrequested, ?_, fun i hi => ?_⟩, ?_⟩
  · rw [hspace]
    exact hregions
  · have htypes := obReferenceObjectByHandle_typePool s.ob handleValue
      (if hasFlag protection mmProtWrite then mmSectionAccessMapRead ||| mmSectionAccessMapWrite
        else mmSectionAccessMapRead) (mm s.k).sectionType
    rw [href] at htypes
    rw [mm_setMm] at ht
    dsimp only at htypes ⊢
    rw [htypes]
    exact inv.sectionType t ht
  · rw [mm_setMm]
    exact inv.filled
  · rw [hspace]
    exact hregions
  · rw [hspace]
    rfl
  · have hi' : i = ⟨((mm s.k).addressSpacePool a).regionCount, hcount⟩ := Fin.ext hi
    have hlast : (((mm s.k).addressSpacePool a).withRegion hcount region).regions i = region := by
      rw [hi']
      exact Function.update_self _ _ _
    rw [hspace, hlast, hsize]
    exact (mapBytes_bounds _).1
  · intro bytes hbytes hnot
    cases hrequested.symm.trans hbytes
    exact absurd hplace hnot

/-- `NkMapMemory` maps anonymous memory. -/
theorem perform_nkMapMemory (a : AddressSpaceRef) (s : MmSystem σ) (flags : U64) :
    s.perform a (.nkMapMemory flags) = s.perform a (.mapAnonymous
      (if flags = 0 then 4096 else flags) (mmProtRead ||| mmProtWrite) mmRegionFlagLazy) := by
  simp only [perform, kipSysMapMemory]
  generalize mmMapAnonymous (mm s.k) a (if flags = 0 then 4096 else flags)
    (mmProtRead ||| mmProtWrite) mmRegionFlagLazy = r
  obtain ⟨m, e | virtualBase⟩ := r <;> rfl

/-- `NkMapSection` refuses its arguments, or maps a section. -/
theorem perform_nkMapSection (a : AddressSpaceRef) (s : MmSystem σ)
    (handleValue protection outAddress : U64) :
    s.perform a (.nkMapSection handleValue protection outAddress) =
      if outAddress = 0 ∨ kipIsRangeWritable outAddress 8 = false then s
      else s.perform a (.mapSection (handleValue.setWidth 32) (protection.setWidth 32)) := by
  simp only [perform, kipSysMapSection]
  split
  · rfl
  · generalize mmMapSectionHandle s.ob s.k a (handleValue.setWidth 32)
      (protection.setWidth 32) = r
    obtain ⟨ob', k', e | virtualBase⟩ := r <;> rfl

/-- A call that fits keeps the layout. -/
theorem LayoutInv.step {a : AddressSpaceRef} {s s' : MmSystem σ} {c : LayoutCall}
    (inv : LayoutInv a s) (hfits : s.Fits a c) (hstep : MapStep a s c s') :
    LayoutInv a s' ∧ LayoutKept a s c s' := by
  rw [MapStep] at hstep
  subst hstep
  cases c with
  | mapAnonymous size protection flags => exact inv.mapAnonymous hfits
  | mapSection handleValue protection => exact inv.mapSection hfits
  | nkMapMemory flags =>
    have hsame : s.requested (.nkMapMemory flags) = s.requested (.mapAnonymous
        (if flags = 0 then 4096 else flags) (mmProtRead ||| mmProtWrite) mmRegionFlagLazy) := by
      simp only [requested]
      split <;> rfl
    have hfits' : s.Fits a (.mapAnonymous (if flags = 0 then 4096 else flags)
        (mmProtRead ||| mmProtWrite) mmRegionFlagLazy) := by
      intro bytes hbytes
      exact hfits bytes (hsame.trans hbytes)
    rw [perform_nkMapMemory]
    exact (inv.mapAnonymous hfits').imp id fun h => h.congr hsame
  | nkMapSection handleValue protection outAddress =>
    rw [perform_nkMapSection]
    by_cases hrefused : outAddress = 0 ∨ kipIsRangeWritable outAddress 8 = false
    · rw [if_pos hrefused]
      exact ⟨inv, inv.refused _⟩
    · rw [if_neg hrefused]
      have hsame : s.requested (.nkMapSection handleValue protection outAddress) =
          s.requested (.mapSection (handleValue.setWidth 32) (protection.setWidth 32)) := by
        simp only [requested, if_neg hrefused]
      have hfits' : s.Fits a
          (.mapSection (handleValue.setWidth 32) (protection.setWidth 32)) := by
        intro bytes hbytes
        exact hfits bytes (hsame.trans hbytes)
      exact (inv.mapSection hfits').imp id fun h => h.congr hsame

/-- An address space as `MmCreateAddressSpace` leaves it. -/
def Fresh (a : AddressSpaceRef) (s : MmSystem σ) : Prop :=
  (s.space a).regionCount = 0 ∧ (s.space a).nextUserBase = mmUserBase

theorem Fresh.regionsOk {a : AddressSpaceRef} {s : MmSystem σ} (h : s.Fresh a) :
    RegionsOk (s.space a) where
  regionCount_le := by rw [h.1]; exact Nat.zero_le _
  base_le := by rw [h.2]
  next_le := by rw [h.2]; decide
  next_aligned := by rw [h.2]; decide
  placed := by
    intro i hi
    rw [h.1] at hi
    exact absurd hi (Nat.not_lt_zero _)
  disjoint := by
    intro i j hi
    rw [h.1] at hi
    exact absurd hi (Nat.not_lt_zero _)

/-- In every run of calls on a fresh address space that fit, every step keeps the layout, adds
regions that are large enough and refuses the rest with nothing changed. -/
theorem layout_ok (a : AddressSpaceRef) (s : MmSystem σ) (hfresh : s.Fresh a)
    (htype : SectionTypeOk s.ob s.k) (hfilled : SectionsFilled (mm s.k)) (calls : List LayoutCall)
    (hfits : Always (MapStep a) (fun s c _ => s.Fits a c) s calls) :
    Always (MapStep a) (LayoutKept a) s calls :=
  hfits.imp (I := LayoutInv a) (fun _ _ _ inv hc hstep => (inv.step hc hstep).1)
    (fun _ _ _ inv hstep hc => (inv.step hc hstep).2) ⟨hfresh.regionsOk, htype, hfilled⟩

/-! ## A small machine -/

/-- A machine with 64 KiB of usable memory above the first MiB. -/
def sampleMap : MemoryMap := fun _ => ⟨0x100000, 0x10000, efiConventionalMemory⟩

def sampleBootInfo : BootInfo where
  address := 0x2000
  magic := bootinfoMagic
  flags := 0
  loaderBase := 0x400000
  kernelBase := 0x200000
  kernelSize := 0x100000
  initImageBase := 0
  initImageSize := 0
  memoryMap := 0x3000
  memoryMapEntryCount := 1
  memoryMapEntrySize := 24

/-- The firmware's tables: the root in frame 16 reaches a large page that maps the first 2 MiB to
themselves. -/
def sampleTables : ℕ → TableIx → U64 := fun f i =>
  if i ≠ 0 then 0
  else if f = 16 then 0x11003
  else if f = 17 then 0x12003
  else if f = 18 then 0x83
  else 0

/-- The object manager once the type of sections, `"Section"`, is created. -/
def sampleOb : ObState MmState × Except KStatus TypeRef :=
  obCreateType (obInitialize .zero).1 (some [83, 101, 99, 116, 105, 111, 110])
    (some mmSectionDeleteRoutine)

/-- The machine after `MmInitialize` and one `MmCreateAddressSpace`. -/
def sampleSystem : MmSystem MmState where
  ob := sampleOb.1
  k := (mmCreateAddressSpace (mmInitialize
    { MmState.zero with mem := sampleTables, cr3 := 0x10000 } (some sampleBootInfo) sampleMap
      0x110000 sampleOb.2).1 1).1

theorem sampleOb_deleteRoutine :
    (sampleOb.1.typePool 0).deleteRoutine = some mmSectionDeleteRoutine := by
  have hfirst : (firstIndex fun t => !(obInitialize (σ := MmState) .zero).1.typeInUse t) =
      some 0 := by decide +kernel
  have hready : (obInitialize (σ := MmState) .zero).1.ready = true := rfl
  rw [sampleOb, obCreateType, if_neg (by rw [hready]; exact Bool.noConfusion), hfirst]
  simp only [Function.update_self]

theorem sampleSystem_sectionType : SectionTypeOk sampleSystem.ob sampleSystem.k := by
  intro t ht
  have htype : (mm sampleSystem.k).sectionType = some 0 := by decide +kernel
  rw [htype, Option.some.injEq] at ht
  rw [← ht]
  exact sampleOb_deleteRoutine

theorem sampleSystem_filled : SectionsFilled sampleSystem.k := by
  intro sec hsec
  have hunused : ∀ sec, sampleSystem.k.sectionInUse sec = false := by decide +kernel
  rw [hunused sec] at hsec
  exact absurd hsec Bool.false_ne_true

theorem layout_ok_sample : Always (MapStep 0) (LayoutKept 0) sampleSystem
    [.mapAnonymous 0x2345 3 0, .nkMapMemory 0, .mapSection 4 1] := by
  refine layout_ok 0 sampleSystem ⟨by decide +kernel, by decide +kernel⟩ sampleSystem_sectionType
    sampleSystem_filled _ ?_
  rintro s₁ rfl
  refine ⟨?_, ?_⟩
  · intro bytes hbytes
    cases hbytes
    exact Or.inl (show _ ≤ _ by decide +kernel)
  rintro s₂ rfl
  refine ⟨?_, ?_⟩
  · intro bytes hbytes
    cases hbytes
    exact Or.inl (show _ ≤ _ by decide +kernel)
  rintro s₃ rfl
  refine ⟨?_, trivial⟩
  intro bytes hbytes
  have hnone : (((sampleSystem.perform 0 (.mapAnonymous 0x2345 3 0)).perform 0
      (.nkMapMemory 0)).requested (.mapSection 4 1)).isNone = true := by decide +kernel
  rw [hbytes] at hnone
  cases hnone

/-- A size close to `2 ^ 64` is accepted and moves `NextUserBase` back onto the first region, where
the next region is placed. -/
theorem regions_overlap : ¬Always (MapStep 0) (LayoutKept 0) sampleSystem
    [.mapAnonymous 0x1000 3 1, .mapAnonymous 0xFFFFFFFFFFFFF000 3 1, .mapAnonymous 0x1000 3 1] := by
  intro h
  have hlast := ((h _ rfl).2 _ rfl).2 _ rfl
  have hapart := hlast.1.regions.disjoint 0 2
  revert hapart
  decide +kernel

end MmSystem

end NtxKernel.Mm
