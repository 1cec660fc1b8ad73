import NtxKernel.Mm.Layout
import NtxKernel.Mm.NextFit

/-!
# The size of a section

`MmCreateSectionHandle` rounds the size up to whole pages and keeps the number of pages in 32 bits
before it compares it with `MM_MAX_SECTION_PAGES`.

* `sectionPages` is the number of pages that hold a size, computed without overflow.
* `SectionFilled` is what the loop over the pages does: each is a page that was free, different
  from the others and full of zeros.
* `SectionSized` is a section as large as asked for, with every view of it.
* `section_as_large_iff`: with room for one more section, `MmCreateSectionHandle` refuses the sizes
  that are too large and makes the others as large as asked for, exactly when the number of pages
  is not mistaken for a small one in its lowest 32 bits.
-/

namespace NtxKernel.Mm

open Foundations Ob MmGlobals

/-! ## The number of pages -/

/-- The pages that hold `size` bytes, and at least one. -/
def sectionPages (size : U64) : ℕ := (max size.toNat 1 + 4095) / mmPageSize

/-- `MmpAlignUp` to a page, with the sum in 64 bits. -/
theorem mmpAlignUp_toNat_mod (value : U64) :
    (mmpAlignUp value 4096).toNat = (value.toNat + 4095) % 2 ^ 64 / 4096 * 4096 := by
  have hsum : mmpAlignUp value 4096 = mmpAlignDown (value + 4095) 4096 := by
    have hadd : value + 4096 - 1 = value + 4095 := by bv_omega
    rw [mmpAlignUp, mmpAlignDown, hadd]
  rw [hsum, mmpAlignDown_toNat, BitVec.toNat_add]
  rfl

/-- `PageCount` is the lowest 32 bits of the number of pages. A sum that wraps loses 2 ^ 52 pages,
which these bits do not show. -/
theorem sectionPageCount_eq (size : U64) : sectionPageCount size = sectionPages size % 2 ^ 32 := by
  have hlt := size.isLt
  rw [sectionPageCount, sectionPages, mmpAlignSizeToPage]
  split
  next hzero =>
    rw [hzero]
    decide
  next hne =>
    have hpos : 0 < size.toNat := by
      rw [Nat.pos_iff_ne_zero]
      exact fun h => hne (BitVec.eq_of_toNat_eq h)
    rw [mmpAlignUp_toNat_mod]
    unfold mmPageSize
    omega

theorem le_sectionPages (size : U64) : size.toNat ≤ sectionPages size * mmPageSize := by
  rw [sectionPages]
  unfold mmPageSize
  omega

/-! ## The pages -/

variable {m m' : MmState} {s : SectionRef}

/-- The loop took a page for each of the `n` indices from `i` on. -/
structure SectionFilled (s : SectionRef) (i n : ℕ) (m m' : MmState) : Prop where
  rest : m' = { m with
    pageBitmap := m'.pageBitmap
    pageRefCount := m'.pageRefCount
    nextScanPage := m'.nextScanPage
    mem := m'.mem
    sectionPool := m'.sectionPool }
  sections : ∀ s', (m'.sectionPool s').header = (m.sectionPool s').header ∧
    (m'.sectionPool s').pageCount = (m.sectionPool s').pageCount ∧
      (s' ≠ s → m'.sectionPool s' = m.sectionPool s')
  below : ∀ j : Fin mmMaxSectionPages, j.val < i →
    (m'.sectionPool s).pages j = (m.sectionPool s).pages j
  allocated : ∀ f, mmpIsPageAllocated m f = true → mmpIsPageAllocated m' f = true
  mem : ∀ f, mmpIsPageAllocated m f = true → m'.mem f = m.mem f
  page : ∀ j : Fin mmMaxSectionPages, i ≤ j.val → j.val < i + n → ∃ f < m.trackedPages,
    (m'.sectionPool s).pages j = pageAddress f ∧ mmpIsPageAllocated m f = false ∧
      mmpIsPageAllocated m' f = true ∧ m'.mem f = fun _ => 0
  distinct : ∀ j j' : Fin mmMaxSectionPages, i ≤ j.val → j.val < j'.val → j'.val < i + n →
    (m'.sectionPool s).pages j ≠ (m'.sectionPool s).pages j'

theorem SectionFilled.refl (s : SectionRef) (i : ℕ) (m : MmState) : SectionFilled s i 0 m m where
  rest := rfl
  sections _ := ⟨rfl, rfl, fun _ => rfl⟩
  below _ _ := rfl
  allocated _ h := h
  mem _ _ := rfl
  page j hj hj' := by omega
  distinct j j' hj hjj' hj' := by omega

/-- `MmAllocPage` succeeds while a page is free. -/
theorem mmAllocPage_of_free (hready : m.ready = true) (hfree : 0 < freePages m) :
    ∃ page < m.trackedPages, mmpIsPageAllocated m page = false ∧
      mmAllocPage m = (m.takePage page 1, .ok (pageAddress page)) := by
  obtain ⟨pa, hpa⟩ := (mmpAllocPageInternal_isOk_iff m 1).2 (freePages_pos_iff.1 hfree)
  obtain ⟨page, rfl, hm, hfit⟩ := nextFit_of_ok (Prod.ext rfl hpa)
  refine ⟨page, hfit.tracked, hfit.free, ?_⟩
  rw [mmAllocPage, if_neg (by simp [hready])]
  exact Prod.ext hm hpa

/-- One round of the loop: the page that the allocator hands out is filled and stored. -/
theorem sectionFilled_step {page i n : ℕ} (hi : i < mmMaxSectionPages)
    (hpage : page < m.trackedPages) (hfree : mmpIsPageAllocated m page = false)
    (h : SectionFilled s (i + 1) n (((m.takePage page 1).fillFrame page fun _ => 0).modifySection s
      fun sec => { sec with pages := Function.update sec.pages ⟨i, hi⟩ (pageAddress page) }) m') :
    SectionFilled s i (n + 1) m m' := by
  have hallocated : ∀ f, mmpIsPageAllocated m f = true → f ≠ page := by
    rintro f hf rfl
    rw [hfree] at hf
    cases hf
  have htaken : ∀ f, mmpIsPageAllocated (((m.takePage page 1).fillFrame page
      fun _ => 0).modifySection s fun sec => { sec with
        pages := Function.update sec.pages ⟨i, hi⟩ (pageAddress page) }) f =
      (decide (f = page) || mmpIsPageAllocated m f) := fun f =>
    m.allocated_takePage page f 1
  have hfirst : (m'.sectionPool s).pages ⟨i, hi⟩ = pageAddress page := by
    rw [h.below ⟨i, hi⟩ (Nat.lt_succ_self i)]
    simp [MmState.modifySection]
  have hlater : ∀ j : Fin mmMaxSectionPages, i < j.val → j.val < i + (n + 1) →
      ∃ f < m.trackedPages, (m'.sectionPool s).pages j = pageAddress f ∧ f ≠ page ∧
        mmpIsPageAllocated m f = false ∧ mmpIsPageAllocated m' f = true ∧
          m'.mem f = fun _ => 0 := by
    intro j hj hj'
    obtain ⟨f, hf, hjf, hfree', hlast⟩ := h.page j (by omega) (by omega)
    rw [htaken, Bool.or_eq_false_iff, decide_eq_false_iff_not] at hfree'
    exact ⟨f, hf, hjf, hfree'.1, hfree'.2, hlast⟩
  constructor
  · exact h.rest
  · intro s'
    obtain ⟨hheader, hcount, hother⟩ := h.sections s'
    by_cases hs : s' = s
    · subst hs
      simp only [MmState.modifySection, Function.update_self] at hheader hcount
      exact ⟨hheader, hcount, fun hne => absurd rfl hne⟩
    · have hsame := hother hs
      simp only [MmState.modifySection, Function.update_of_ne hs] at hheader hcount hsame
      exact ⟨hheader, hcount, fun _ => hsame⟩
  · intro j hj
    have hne : j ≠ ⟨i, hi⟩ := fun heq => Nat.lt_irrefl i (by rw [heq] at hj; exact hj)
    rw [h.below j (Nat.lt_succ_of_lt hj)]
    simp [MmState.modifySection, MmState.fillFrame, MmState.takePage, mmpSetPageAllocated,
      MmState.setRefCount, Function.update_of_ne hne]
  · exact fun f hf => h.allocated f (by rw [htaken, hf, Bool.or_true])
  · intro f hf
    rw [h.mem f (by rw [htaken, hf, Bool.or_true])]
    exact Function.update_of_ne (hallocated f hf) _ _
  · intro j hj hj'
    rcases Nat.eq_or_lt_of_le hj with heq | hlt
    · obtain rfl : j = ⟨i, hi⟩ := Fin.ext heq.symm
      have hpage' := htaken page
      rw [decide_eq_true rfl, Bool.true_or] at hpage'
      refine ⟨page, hpage, hfirst, hfree, h.allocated page hpage', ?_⟩
      rw [h.mem page hpage']
      exact Function.update_self ..
    · obtain ⟨f, hf, hjf, -, hlast⟩ := hlater j hlt hj'
      exact ⟨f, hf, hjf, hlast⟩
  · intro j j' hj hjj' hj'
    rcases Nat.eq_or_lt_of_le hj with heq | hlt
    · obtain rfl : j = ⟨i, hi⟩ := Fin.ext heq.symm
      obtain ⟨f, hf, hjf, hne, -⟩ := hlater j' hjj' hj'
      rw [hfirst, hjf]
      exact fun hsame => hne (pageAddress_inj hpage hf hsame).symm
    · exact h.distinct j j' hlt hjj' (by omega)

/-- With pages enough, the loop goes through. -/
theorem mmAllocSectionPages_filled (s : SectionRef) (n i : ℕ) (m : MmState)
    (hready : m.ready = true) (hbound : i + n ≤ mmMaxSectionPages) (hfree : n ≤ freePages m) :
    ∃ m', mmAllocSectionPages s n i m = (m', .ok ()) ∧ SectionFilled s i n m m' := by
  induction n generalizing i m with
  | zero => exact ⟨m, rfl, .refl s i m⟩
  | succ n ih =>
    obtain ⟨page, hpage, hpageFree, halloc⟩ := mmAllocPage_of_free hready (by omega)
    have hi : i < mmMaxSectionPages := by omega
    have htake : freePages (m.takePage page 1) + 1 = freePages m :=
      freePages_takePage hpage hpageFree
    obtain ⟨m', heq, hfilled⟩ := ih (i + 1) (((m.takePage page 1).fillFrame page
      fun _ => 0).modifySection s fun sec => { sec with
        pages := Function.update sec.pages ⟨i, hi⟩ (pageAddress page) }) hready (by omega)
      (by
        have hsame : freePages (((m.takePage page 1).fillFrame page fun _ => 0).modifySection s
            fun sec => { sec with
              pages := Function.update sec.pages ⟨i, hi⟩ (pageAddress page) }) =
            freePages (m.takePage page 1) := rfl
        omega)
    refine ⟨m', ?_, sectionFilled_step hi hpage hpageFree hfilled⟩
    rw [mmAllocSectionPages, halloc]
    dsimp only
    have hle := m.trackedPages_le
    rw [dif_pos hi, pteFrame_pageAddress (by unfold mmMaxTrackedPages at hle; omega), heq]

/-! ## The section -/

variable {σ : Type} [MmGlobals σ] {ob : ObState σ} {k : σ} {size : U64} {access : U32}

/-- There is room for one more section of the size, with the access asked for. -/
structure SectionRoom (ob : ObState σ) (k : σ) (size : U64) (access : U32) : Prop where
  ready : (mm k).ready = true
  sectionType : (mm k).sectionType ≠ none
  obReady : ob.ready = true
  slot : ∃ s, (mm k).sectionInUse s = false
  object : ∃ o, ob.objectInUse o = false
  entry : ∃ i, ob.kernelHandleTable.entries i = none
  pages : sectionPageCount size ≤ mmMaxSectionPages → sectionPageCount size ≤ freePages (mm k)
  access : access &&& mmSectionAccessAll = access

/-- A section of `count` pages, the object of the handle `h`, was made between the two states. Its
pages are different ones that were free, and they are full of zeros. -/
structure SectionMade (count : ℕ) (m m' : MmState) (ob' : ObState σ) (h : U32) (s : SectionRef) :
    Prop where
  handle : ∃ i o access, ob'.kernelHandleTable.entries i = some ⟨h, o, access⟩ ∧
    (m'.sectionPool s).header = some o
  fresh : m.sectionInUse s = false
  inUse : m'.sectionInUse s = true
  pageCount : (m'.sectionPool s).pageCount = count
  page : ∀ j : Fin mmMaxSectionPages, j.val < count → ∃ f < m'.trackedPages,
    (m'.sectionPool s).pages j = pageAddress f ∧ mmpIsPageAllocated m f = false ∧
      mmpIsPageAllocated m' f = true ∧ m'.mem f = fun _ => 0
  distinct : ∀ j j' : Fin mmMaxSectionPages, j.val < j'.val → j'.val < count →
    (m'.sectionPool s).pages j ≠ (m'.sectionPool s).pages j'

/-- Every region that `MmMapSectionHandle` writes for the section `s`, while it is as in `m`, holds
`size` bytes. -/
def ViewsCover (σ : Type) [MmGlobals σ] (size : U64) (m : MmState) (s : SectionRef) : Prop :=
  ∀ (ob ob' : ObState σ) (k k' : σ) (a : AddressSpaceRef) (v protection : U32) (base : U64)
    (i : EntryIx) (e : ObHandleTableEntry),
    obpFindHandleEntry ob.kernelHandleTable v = some (i, e) →
    mmpFindSectionByHeader (mm k) (some e.object) = some s →
    (mm k).sectionPool s = m.sectionPool s →
    mmMapSectionHandle ob k a v protection = (ob', k', .ok base) →
      ∃ slot, slot.val = ((mm k).addressSpacePool a).regionCount ∧
        (((mm k').addressSpacePool a).regions slot).base = base ∧
        size.toNat ≤ (((mm k').addressSpacePool a).regions slot).size.toNat

/-- `MmCreateSectionHandle` makes a section that is as large as asked for, and refuses a size only
when it is too large. -/
def AsLarge (ob : ObState σ) (k : σ) (size : U64) (access : U32) : Prop :=
  ((∃ h, (mmCreateSectionHandle ob k size access).2.2 = .ok h) ↔
      sectionPages size ≤ mmMaxSectionPages) ∧
    ∀ ob' k' h, mmCreateSectionHandle ob k size access = (ob', k', .ok h) →
      ∃ s, SectionMade (sectionPages size) (mm k) (mm k') ob' h s ∧
        ViewsCover σ size (mm k') s

/-- With room for it, a section of as many pages as `PageCount` says is made. -/
theorem mmCreateSectionHandle_made (room : SectionRoom ob k size access)
    (hpos : 0 < sectionPageCount size) (hle : sectionPageCount size ≤ mmMaxSectionPages) :
    ∃ ob' k' h s, mmCreateSectionHandle ob k size access = (ob', k', .ok h) ∧
      SectionMade (sectionPageCount size) (mm k) (mm k') ob' h s := by
  obtain ⟨i, hi⟩ := room.entry
  obtain ⟨s₀, hs₀⟩ := room.slot
  rcases hfind : firstIndex fun s => !(mm k).sectionInUse s with _ | s
  · have hused := firstIndex_eq_none.1 hfind s₀
    rw [hs₀] at hused
    cases hused
  have hfresh : (mm k).sectionInUse s = false := by simpa using firstIndex_sound hfind
  rcases obCreateObject_cases ob (mm k).sectionType (some mmSectionName) mmSectionAccessAll 0 with
    ⟨e, herr⟩ | ⟨o, t, nm, -, -, -, hcreate⟩
  · obtain ⟨ob', o, hok⟩ := obCreateObject_ok ⟨room.sectionType, room.obReady, room.object⟩
      mmSectionName mmSectionAccessAll 0
    cases herr.symm.trans hok
  generalize hob₁ : ({ ob with
    objectInUse := Function.update ob.objectInUse o true
    objectPool := Function.update ob.objectPool o
      ⟨ob.nextObjectId, some t, 1, 0, mmSectionAccessAll, obWaitStateClear,
        obpCopyName (obMaxObjectName + 1) nm⟩
    nextObjectId := ob.nextObjectId + 1 } : ObState σ) = ob₁ at hcreate
  have hheader : (ob₁.objectPool o).refCount = 1 ∧
      (ob₁.objectPool o).defaultAccessMask = mmSectionAccessAll := by
    rw [← hob₁]
    simp
  have hready₁ : ob₁.ready = true := by
    rw [← hob₁]
    exact room.obReady
  -- the loop takes the pages
  obtain ⟨m₂, hm₂⟩ : ∃ m₂, m₂ = ((({ mm k with
      sectionInUse := Function.update (mm k).sectionInUse s true } : MmState).modifySection s
        fun _ => ⟨none, 0, fun _ => 0⟩).modifySection s fun sec =>
          { sec with header := some o, pageCount := sectionPageCount size }) := ⟨_, rfl⟩
  have hfreePages : freePages m₂ = freePages (mm k) := by
    rw [hm₂]
    rfl
  obtain ⟨m₃, hloop, hfilled⟩ := mmAllocSectionPages_filled s (sectionPageCount size) 0 m₂
    (by rw [hm₂]; exact room.ready) (by omega) (by rw [hfreePages]; exact room.pages hle)
  -- the handle is inserted, and the reference of the creation given back
  rcases obInsertHandle_cases ob₁ o access with ⟨hfull, -⟩ | ⟨i', -, -, hinsert⟩
  · refine absurd hi ?_
    have hne := hfull hready₁ (by rw [hheader.2]; exact room.access) i
    rw [← hob₁] at hne
    exact hne
  generalize hob₂ : ({ ob₁ with
    kernelHandleTable :=
      ⟨Function.update ob₁.kernelHandleTable.entries i'
          (some ⟨ob₁.kernelHandleTable.nextHandle, o, access⟩),
        ob₁.kernelHandleTable.nextHandle + 4⟩
    objectPool := Function.update ob₁.objectPool o
      { ob₁.objectPool o with refCount := (ob₁.objectPool o).refCount + 1 } } : ObState σ) = ob₂
    at hinsert
  have hcount : (ob₂.objectPool o).refCount = 2 := by
    rw [← hob₂]
    simp only [Function.update_self, hheader.1]
    rfl
  have hentry : ob₂.kernelHandleTable.entries i' =
      some ⟨ob₁.kernelHandleTable.nextHandle, o, access⟩ := by
    rw [← hob₂]
    exact Function.update_self ..
  have hderef : (obDereferenceObject ob₂ (setMm m₃ k) o).2.1 = setMm m₃ k := by
    rcases obDereferenceObject_cases ob₂ (setMm m₃ k) o with ⟨-, h⟩ | ⟨-, -, -, h⟩ | ⟨-, hone, -⟩
    · rw [h]
    · rw [h]
    · rw [hcount] at hone
      cases hone
  have hm : mm (obDereferenceObject ob₂ (setMm m₃ k) o).2.1 = m₃ := by
    rw [hderef, mm_setMm]
  refine ⟨(obDereferenceObject ob₂ (setMm m₃ k) o).1, (obDereferenceObject ob₂ (setMm m₃ k) o).2.1,
    ob₁.kernelHandleTable.nextHandle, s, ?_, ?_⟩
  · rw [mmCreateSectionHandle, if_neg (by simp [room.ready, room.sectionType]),
      if_neg (by omega), hfind]
    dsimp only
    have hsectionType : (({ mm k with
        sectionInUse := Function.update (mm k).sectionInUse s true } : MmState).modifySection s
          fun _ => ⟨none, 0, fun _ => 0⟩).sectionType = (mm k).sectionType := rfl
    rw [hsectionType, hcreate]
    dsimp only
    rw [← hm₂, hloop]
    dsimp only
    rw [hinsert]
  · rw [hm]
    have hinUse : m₃.sectionInUse = Function.update (mm k).sectionInUse s true := by
      rw [hfilled.rest, hm₂]
      rfl
    have hallocated : ∀ f, mmpIsPageAllocated m₂ f = mmpIsPageAllocated (mm k) f := fun f => by
      rw [hm₂]
      rfl
    have hsection : (m₂.sectionPool s).header = some o ∧
        (m₂.sectionPool s).pageCount = sectionPageCount size := by
      rw [hm₂]
      simp [MmState.modifySection]
    have htracked : m₃.trackedPages = m₂.trackedPages := by
      rw [hfilled.rest]
    obtain ⟨hheader₃, hcount₃, -⟩ := hfilled.sections s
    constructor
    · refine ⟨i', o, access, ?_, hheader₃.trans hsection.1⟩
      rw [obDereferenceObject_table]
      exact hentry
    · exact hfresh
    · rw [hinUse, Function.update_self]
    · exact hcount₃.trans hsection.2
    · intro j hj
      obtain ⟨f, hf, hjf, hfree, hlast⟩ := hfilled.page j (Nat.zero_le _) (by omega)
      rw [hallocated] at hfree
      exact ⟨f, htracked ▸ hf, hjf, hfree, hlast⟩
    · exact fun j j' hjj' hj' => hfilled.distinct j j' (Nat.zero_le _) hjj' (by omega)

/-- A view has the pages of its section. -/
theorem viewsCover {count : ℕ} {s : SectionRef} (hcount : (m.sectionPool s).pageCount = count)
    (hle : count ≤ mmMaxSectionPages) (hsize : size.toNat ≤ count * mmPageSize) :
    ViewsCover σ size m s := by
  intro ob ob' k k' a v protection base i e hfind hsection hsame hmap
  rw [mmMapSectionHandle] at hmap
  split at hmap
  · cases hmap
  split at hmap
  swap
  · cases hmap
  next hroom =>
  dsimp only at hmap
  generalize (if hasFlag protection mmProtWrite then mmSectionAccessMapRead |||
    mmSectionAccessMapWrite else mmSectionAccessMapRead) = desired at hmap
  rcases obReferenceObjectByHandle_cases ob v desired (mm k).sectionType with
    ⟨err, heq⟩ | ⟨i', e', hfind', -, -, heq⟩
  · rw [heq] at hmap
    cases hmap
  · rw [heq] at hmap
    obtain ⟨rfl, rfl⟩ : i = i' ∧ e = e' := by
      rw [hfind, Option.some.injEq, Prod.mk.injEq] at hfind'
      exact hfind'
    dsimp only at hmap
    rw [hsection] at hmap
    dsimp only at hmap
    obtain ⟨-, hk, hbase⟩ : _ ∧ _ ∧ _ := by
      simpa only [Prod.mk.injEq, Except.ok.injEq] using hmap
    refine ⟨⟨((mm k).addressSpacePool a).regionCount, hroom⟩, rfl, ?_⟩
    rw [← hk, mm_setMm, ← hbase, hsame, hcount]
    simp only [MmState.addRegion, MmState.modifyRegion, MmState.modifyAddressSpace,
      Function.update_self, sectionRegion, true_and]
    have hlt : count * mmPageSize < 2 ^ 64 := by
      unfold mmPageSize
      unfold mmMaxSectionPages at hle
      omega
    rw [BitVec.toNat_ofNat, Nat.mod_eq_of_lt hlt]
    exact hsize

/-- A number of pages that `PageCount` does not hold, or holds as one that is out of range, is
refused. -/
theorem mmCreateSectionHandle_refused
    (h : sectionPageCount size = 0 ∨ mmMaxSectionPages < sectionPageCount size) (hid : U32) :
    (mmCreateSectionHandle ob k size access).2.2 ≠ .ok hid := by
  rw [mmCreateSectionHandle, if_pos h, ite_self]
  exact fun hok => by cases hok

theorem one_le_sectionPages (size : U64) : 1 ≤ sectionPages size := by
  rw [sectionPages]
  unfold mmPageSize
  omega

/-- A size whose pages look few in 32 bits is accepted, though they are too many. -/
theorem not_asLarge (room : SectionRoom ob k size access)
    (hmany : mmMaxSectionPages < sectionPages size) (hpos : 0 < sectionPageCount size)
    (hle : sectionPageCount size ≤ mmMaxSectionPages) : ¬AsLarge ob k size access := by
  rintro ⟨haccepts, -⟩
  obtain ⟨ob', k', h, s, heq, -⟩ := mmCreateSectionHandle_made room hpos hle
  have hfew := haccepts.1 ⟨h, by rw [heq]⟩
  omega

/-- **A section is as large as requested**, with room for it, exactly when the number of pages
that the size needs is within `MM_MAX_SECTION_PAGES`, or is seen to be out of range in its lowest
32 bits. -/
theorem section_as_large_iff (ob : ObState σ) (k : σ) (size : U64) (access : U32)
    (room : SectionRoom ob k size access) :
    AsLarge ob k size access ↔
      sectionPages size ≤ mmMaxSectionPages ∨ sectionPages size % 2 ^ 32 = 0 ∨
        mmMaxSectionPages < sectionPages size % 2 ^ 32 := by
  have hcount := sectionPageCount_eq size
  have hpos := one_le_sectionPages size
  constructor
  · intro hlarge
    by_contra hnot
    rw [not_or, not_or, Nat.not_le, Nat.not_lt] at hnot
    obtain ⟨hmany, hne, hle⟩ := hnot
    exact not_asLarge room hmany (by omega) (by omega) hlarge
  · intro h
    by_cases hfew : sectionPages size ≤ mmMaxSectionPages
    · have hsame : sectionPageCount size = sectionPages size := by
        unfold mmMaxSectionPages at hfew
        omega
      obtain ⟨ob₁, k₁, h₁, s, heq, hmade⟩ := mmCreateSectionHandle_made room (by omega) (by omega)
      rw [hsame] at hmade
      refine ⟨iff_of_true ⟨h₁, by rw [heq]⟩ hfew, fun ob' k' h' hok => ⟨s, ?_⟩⟩
      rw [heq] at hok
      cases hok
      exact ⟨hmade, viewsCover hmade.pageCount hfew (le_sectionPages size)⟩
    · have hrefused : sectionPageCount size = 0 ∨ mmMaxSectionPages < sectionPageCount size := by
        rw [hcount]
        exact h.resolve_left hfew
      refine ⟨iff_of_false ?_ hfew, fun ob' k' h' hok => ?_⟩
      · rintro ⟨hid, hok⟩
        exact mmCreateSectionHandle_refused hrefused hid hok
      · have hno : (mmCreateSectionHandle ob k size access).2.2 ≠ .ok h' :=
          mmCreateSectionHandle_refused hrefused h'
        rw [hok] at hno
        exact absurd rfl hno

/-! ## On a machine -/

open MmSystem

/-- The machine of the sample has room for a small section. -/
theorem sectionRoom_sample {size : U64} (hsize : sectionPageCount size ≤ 3) :
    SectionRoom sampleSystem.ob sampleSystem.k size mmSectionAccessAll where
  ready := by decide +kernel
  sectionType := by decide +kernel
  obReady := by decide +kernel
  slot := ⟨0, by decide +kernel⟩
  object := ⟨0, by decide +kernel⟩
  entry := ⟨0, by decide +kernel⟩
  pages _ := hsize.trans (by decide +kernel)
  access := by decide

theorem section_as_large_iff_sample :
    AsLarge sampleSystem.ob sampleSystem.k 0x2345 mmSectionAccessAll :=
  (section_as_large_iff sampleSystem.ob sampleSystem.k 0x2345 mmSectionAccessAll
    (sectionRoom_sample (by decide))).2 (.inl (by decide))

/-- Sixteen TiB and one byte make a section of one page. -/
theorem section_of_sixteen_tebibytes :
    ¬AsLarge sampleSystem.ob sampleSystem.k 0x100000000001 mmSectionAccessAll :=
  not_asLarge (sectionRoom_sample (by decide)) (by decide) (by decide) (by decide)

end NtxKernel.Mm
