import NtxKernel.Mm.BootReserve
import NtxKernel.Mm.Isolation

/-!
# Ownership of page tables

The tables that the walks from the kernel root and from the roots of the address spaces meet.

* `TablesOwned` is the property: they are allocated and tracked.
* `FirmwareReserved` is a condition on what `MmInitialize` finds: the firmware's tables form a tree,
  and those below the root are reserved by the passes over the memory map.
* `KeepsTables` is a condition on a call: it gives back no frame that is a table.
* `tables_owned`: where both conditions hold, every state of a run after `MmInitialize` has the
  property.

The root of the firmware is copied, but the tables below it go on being used.
-/

namespace NtxKernel.Mm

open Foundations Ob

/-- The pages of the addresses that a processor with four levels of tables can translate. -/
def canonicalPages : Set U64 :=
  {va | mmPageSize ∣ va.toNat ∧ (va.toNat < 2 ^ 47 ∨ 2 ^ 64 - 2 ^ 47 ≤ va.toNat)}

theorem separated_canonicalPages : Separated canonicalPages := by
  intro va hva va' hva' h
  have h0 := congrArg Fin.val (h 0 (by omega))
  have h1 := congrArg Fin.val (h 1 (by omega))
  have h2 := congrArg Fin.val (h 2 (by omega))
  have h3 := congrArg Fin.val (h 3 (by omega))
  simp only [tableIndex_val] at h0 h1 h2 h3
  norm_num at h0 h1 h2 h3
  obtain ⟨⟨k, hk⟩, hrange⟩ := hva
  obtain ⟨⟨k', hk'⟩, hrange'⟩ := hva'
  have hpage : mmPageSize = 4096 := rfl
  have hlt := va.isLt
  have hlt' := va'.isLt
  rw [hpage] at hk hk'
  refine BitVec.eq_of_toNat_eq ?_
  omega

/-- The roots of the kernel and of the address spaces in use. -/
def MmState.spaceRoots (m : MmState) : Set ℕ :=
  {f | f = pteFrame m.kernelRootTablePhysical ∨ ∃ a, m.addressSpaceInUse a = true ∧
    f = m.rootFrame a}

/-- The frame is a table on the walk for some address. -/
abbrev LiveTable (m : MmState) (f : ℕ) : Prop := IsTable canonicalPages m.spaceRoots m f

/-- Every table is allocated, and lies in the direct map. -/
structure TablesOwned (m : MmState) : Prop where
  allocated : ∀ f, LiveTable m f → mmpIsPageAllocated m f = true
  tracked : ∀ f, LiveTable m f → f < m.trackedPages

/-- What runs keep: the tables form a tree too. -/
structure OwnershipInv (m : MmState) : Prop where
  tables : TablesOk canonicalPages m.spaceRoots m
  tracked : ∀ f, LiveTable m f → f < m.trackedPages

variable {m m' : MmState} {U : Set U64} {roots : Set ℕ} {root : ℕ} {released : Set ℕ}
  {touched : Set U64}

theorem OwnershipInv.tablesOwned (inv : OwnershipInv m) : TablesOwned m where
  allocated f hf := by
    by_contra hnot
    exact inv.tables.live f hf ⟨inv.tracked f hf, Bool.eq_false_iff.2 hnot⟩
  tracked := inv.tracked

theorem SameGlobals.spaceRoots (h : SameGlobals m m') : m'.spaceRoots = m.spaceRoots := by
  simp only [MmState.spaceRoots, h.kernelRoot, h.addressSpaceInUse, h.rootFrame]

theorem OwnershipInv.contained (inv : OwnershipInv m)
    (h : Contained canonicalPages m.spaceRoots root released touched m m') : OwnershipInv m' where
  tables := by
    rw [h.globals.spaceRoots]
    exact h.tables
  tracked f hf := by
    rw [LiveTable, h.globals.spaceRoots] at hf
    rw [h.globals.trackedPages]
    exact (h.tracked f hf).elim (inv.tracked f) id

/-! ## Pages and sections -/

/-- A page that is handed out is not free any more. -/
theorem not_free_takePage {page f : ℕ} (hf : f = page ∨ ¬Free m f) :
    ¬Free (m.takePage page 1) f := by
  rintro ⟨hlt, halloc⟩
  rw [MmState.allocated_takePage, Bool.or_eq_false_iff, decide_eq_false_iff_not] at halloc
  exact hf.elim halloc.1 fun hf => hf ⟨hlt, halloc.2⟩

theorem KeepsPages.not_free (h : KeepsPages m m') {f : ℕ} (hf : ¬Free m f) : ¬Free m' f := by
  rintro ⟨hlt, halloc⟩
  refine hf ⟨h.trackedPages ▸ hlt, ?_⟩
  by_contra hnot
  rw [h.allocated f (by simpa using hnot)] at halloc
  cases halloc

/-- Handing out a page. -/
theorem mmAllocPage_contained (ok : TablesOk U roots m) :
    Contained U roots root released touched m (mmAllocPage m).1 := by
  rcases mmAllocPage_cases m with ⟨e, heq⟩ | ⟨page, hpage, hfree, -, heq⟩
  · rw [heq]
    exact .refl ok
  rw [heq]
  have hlive : ∀ f, ¬Free m f → ¬Free (m.takePage page 1) f :=
    fun f hf => not_free_takePage (Or.inr hf)
  exact .of_mem_eq ok ⟨rfl, rfl, rfl, rfl, fun _ => rfl⟩ rfl (fun f hf _ => hlive f hf)
    fun f _ hf => hlive f (ok.live f hf)

/-- Freeing a page that is no table. -/
theorem mmFreePage_contained (ok : TablesOk U roots m) {pa : U64}
    (htable : ¬IsTable U roots m (pa.toNat / mmPageSize)) :
    Contained U roots root Set.univ touched m (mmFreePage m pa).1 := by
  rw [mmFreePage]
  split
  · exact .refl ok
  dsimp only
  split
  · exact .refl ok
  split
  · exact .refl ok
  refine .of_mem_eq ok ⟨rfl, rfl, rfl, rfl, fun _ => rfl⟩ rfl
    (fun _ _ hnot => absurd (Set.mem_univ _) hnot) ?_
  intro f _ hf hfree
  refine ok.live f hf ⟨hfree.1, ?_⟩
  have hsplit := hfree.2
  have hne : f ≠ pa.toNat / mmPageSize := by
    rintro rfl
    exact htable hf
  rw [mmpIsPageAllocated_setPageFree, decide_eq_false hne, Bool.not_false,
    Bool.true_and] at hsplit
  exact hsplit

/-- Writing what is not a page, an address space or a root. -/
theorem sections_contained (ok : TablesOk U roots m) (sectionPool : SectionRef → MmSectionObject)
    (sectionInUse : SectionRef → Bool) :
    Contained U roots root released touched m
      { m with sectionPool := sectionPool, sectionInUse := sectionInUse } :=
  .of_mem_eq ok ⟨rfl, rfl, rfl, rfl, fun _ => rfl⟩ rfl (fun _ hf _ => hf) fun f _ hf => ok.live f hf

/-- The pages of the sections in use are no tables. -/
def SectionPagesApart (U : Set U64) (roots : Set ℕ) (m : MmState) : Prop :=
  ∀ s, m.sectionInUse s = true → ∀ i, (m.sectionPool s).pages i ≠ 0 →
    ¬IsTable U roots m (((m.sectionPool s).pages i).toNat / mmPageSize)

theorem mem_mmFreePage (m : MmState) (pa : U64) : (mmFreePage m pa).1.mem = m.mem := by
  rw [mmFreePage]
  split
  · rfl
  dsimp only
  split
  · rfl
  split <;> rfl

theorem sectionPool_mmFreePage (m : MmState) (pa : U64) :
    (mmFreePage m pa).1.sectionPool = m.sectionPool := by
  rw [mmFreePage]
  split
  · rfl
  dsimp only
  split
  · rfl
  split <;> rfl

/-- What is a table depends on the memory alone. -/
theorem isTable_of_mem_eq (h : m'.mem = m.mem) (f : ℕ) :
    IsTable U roots m' f ↔ IsTable U roots m f := by
  rw [IsTable, Reached, h]
  exact Iff.rfl

/-- Freeing the pages of a section. -/
theorem mmpFreeSectionPages_contained (ok : TablesOk U roots m) (s : SectionRef) (n : ℕ)
    (hpages : ∀ i, (m.sectionPool s).pages i ≠ 0 →
      ¬IsTable U roots m (((m.sectionPool s).pages i).toNat / mmPageSize)) :
    Contained U roots root Set.univ touched m (mmpFreeSectionPages s n m) ∧
      (mmpFreeSectionPages s n m).mem = m.mem ∧
      ∀ i, ((mmpFreeSectionPages s n m).sectionPool s).pages i ≠ 0 →
        ((mmpFreeSectionPages s n m).sectionPool s).pages i = (m.sectionPool s).pages i := by
  induction n with
  | zero => exact ⟨.refl ok, rfl, fun _ _ => rfl⟩
  | succ n ih =>
    obtain ⟨hcontained, hmem, hsame⟩ := ih
    rw [mmpFreeSectionPages]
    dsimp only
    generalize mmpFreeSectionPages s n m = m₁ at hcontained hmem hsame ⊢
    split
    swap
    · exact ⟨hcontained, hmem, hsame⟩
    rename_i hn
    split
    swap
    · exact ⟨hcontained, hmem, hsame⟩
    rename_i hne
    have htable : ¬IsTable U roots m₁ (((m₁.sectionPool s).pages ⟨n, hn⟩).toNat / mmPageSize) := by
      rw [isTable_of_mem_eq hmem, hsame _ hne]
      exact hpages _ (by rw [← hsame _ hne]; exact hne)
    have hfree : Contained U roots root Set.univ touched m₁ _ :=
      mmFreePage_contained hcontained.tables htable
    refine ⟨hcontained.trans (hfree.trans (sections_contained hfree.tables _ _)),
      (mem_mmFreePage _ _).trans hmem, fun i hi => ?_⟩
    simp only [MmState.modifySection, Function.update_self, sectionPool_mmFreePage] at hi ⊢
    by_cases hin : i = ⟨n, hn⟩
    · rw [hin, Function.update_self] at hi
      exact absurd rfl hi
    · rw [Function.update_of_ne hin] at hi ⊢
      exact hsame i hi

/-- Deleting a section whose pages are no tables. -/
theorem mmpDeleteSectionObject_contained (ok : TablesOk U roots m)
    (hpages : SectionPagesApart U roots m) (object : ObjectRef) :
    Contained U roots root Set.univ touched m (mmpDeleteSectionObject m object) := by
  rw [mmpDeleteSectionObject]
  split
  · exact .refl ok
  rename_i s hfind
  have hused := mmpFindSectionByHeader_used hfind
  have hfree : Contained U roots root Set.univ touched m _ :=
    (mmpFreeSectionPages_contained ok s (m.sectionPool s).pageCount (hpages s hused)).1
  exact hfree.trans (sections_contained hfree.tables _ _)

/-- The loop that takes the pages of a section. -/
theorem mmAllocSectionPages_contained (hroots : root ∈ roots) (s : SectionRef) (n i : ℕ)
    (ok : TablesOk U roots m) (hpages : SectionPagesApart U roots m) :
    Contained U roots root Set.univ touched m (mmAllocSectionPages s n i m).1 ∧
      SectionPagesApart U roots (mmAllocSectionPages s n i m).1 := by
  induction n generalizing i m with
  | zero => exact ⟨.refl ok, hpages⟩
  | succ n ih =>
    rw [mmAllocSectionPages]
    rcases mmAllocPage_cases m with ⟨e, heq⟩ | ⟨page, hpage, hfree, -, heq⟩
    · rw [heq]
      exact ⟨.refl ok, hpages⟩
    rw [heq]
    dsimp only
    have hpage40 : page < 2 ^ 40 := lt_of_lt_trackedPages hpage
    rw [pteFrame_pageAddress hpage40]
    have htake : Contained U roots root ∅ ∅ m _ :=
      takePage_contained ok hpage hfree (fun _ => 0) hroots
    have hnot : ∀ f, ¬IsTable U roots m f →
        ¬IsTable U roots ((m.takePage page 1).fillFrame page fun _ => 0) f := by
      intro f hf ht
      refine hf (isTable_of_quiet (fun g hg => Function.update_of_ne ?_ _ _) ht)
      rintro rfl
      exact ok.live g hg ⟨hpage, hfree⟩
    have hfresh : ¬IsTable U roots m page := fun ht => ok.live page ht ⟨hpage, hfree⟩
    have hkept : SectionPagesApart U roots ((m.takePage page 1).fillFrame page fun _ => 0) :=
      fun s' hs' j hj => hnot _ (hpages s' hs' j hj)
    have hfresh' := hnot page hfresh
    generalize (m.takePage page 1).fillFrame page (fun _ => 0) = m₁ at htake hkept hfresh' ⊢
    have htake' : Contained U roots root Set.univ touched m m₁ :=
      htake.mono (Set.empty_subset _) (Set.empty_subset _)
    split
    swap
    · exact ⟨htake', hkept⟩
    rename_i hi
    have hwrite : SectionPagesApart U roots (m₁.modifySection s fun sec =>
        { sec with pages := Function.update sec.pages ⟨i, hi⟩ (pageAddress page) }) := by
      intro s' hs' j hj
      simp only [MmState.modifySection] at hj ⊢
      by_cases hs : s' = s
      · subst hs
        rw [Function.update_self] at hj ⊢
        dsimp only at hj ⊢
        by_cases hj' : j = ⟨i, hi⟩
        · rw [hj', Function.update_self, toNat_pageAddress (by omega)]
          have hdiv : page * 4096 / mmPageSize = page := Nat.mul_div_cancel _ (by decide)
          rw [hdiv]
          exact hfresh'
        · rw [Function.update_of_ne hj'] at hj ⊢
          exact hkept s' hs' j hj
      · rw [Function.update_of_ne hs] at hj ⊢
        exact hkept s' hs' j hj
    have hsection : Contained U roots root Set.univ touched m₁ (m₁.modifySection s fun sec =>
        { sec with pages := Function.update sec.pages ⟨i, hi⟩ (pageAddress page) }) :=
      sections_contained htake'.tables _ m₁.sectionInUse
    obtain ⟨hrest, hlast⟩ := ih (i + 1) hsection.tables hwrite
    exact ⟨htake'.trans (hsection.trans hrest), hlast⟩

/-! ## Objects -/

variable {σ : Type} [MmGlobals σ]

open MmGlobals

/-- The delete routines of all types leave the memory manager alone, but for that of sections. -/
def RoutinesOk (ob : ObState σ) : Prop :=
  ∀ t routine, (ob.typePool t).deleteRoutine = some routine →
    routine = mmSectionDeleteRoutine ∨ ∀ o k, mm (routine o k) = mm k

/-- Giving back a reference deletes a section, or changes nothing of the memory manager. -/
theorem obDereferenceObject_mm {ob : ObState σ} (hroutines : RoutinesOk ob) (k : σ)
    (o : ObjectRef) :
    mm (obDereferenceObject ob k o).2.1 = mm k ∨
      mm (obDereferenceObject ob k o).2.1 = mmpDeleteSectionObject (mm k) o := by
  rcases obDereferenceObject_cases ob k o with ⟨-, h⟩ | ⟨-, -, -, h⟩ | ⟨-, -, h⟩
  · rw [h]
    exact Or.inl rfl
  · rw [h]
    exact Or.inl rfl
  · rw [h]
    dsimp only
    rw [ObState.runDeleteRoutine]
    split
    swap
    · exact Or.inl rfl
    split
    swap
    · exact Or.inl rfl
    rename_i routine hroutine
    rcases hroutines _ _ hroutine with rfl | hsame
    · exact Or.inr (mm_setMm _ _)
    · exact Or.inl (hsame o k)

theorem obDereferenceObject_contained {ob : ObState σ} (hroutines : RoutinesOk ob) {k : σ}
    (hm : mm k = m) (ok : TablesOk U roots m) (hpages : SectionPagesApart U roots m)
    (o : ObjectRef) :
    Contained U roots root Set.univ touched m (mm (obDereferenceObject ob k o).2.1) := by
  rcases obDereferenceObject_mm hroutines k o with h | h
  · rw [h, hm]
    exact .refl ok
  · rw [h, hm]
    exact mmpDeleteSectionObject_contained ok hpages o

theorem obCloseHandle_contained {ob : ObState σ} (hroutines : RoutinesOk ob) {k : σ}
    (ok : TablesOk U roots (mm k)) (hpages : SectionPagesApart U roots (mm k))
    (handleValue : U32) :
    Contained U roots root Set.univ touched (mm k) (mm (obCloseHandle ob k handleValue).2.1) ∧
      (obCloseHandle ob k handleValue).1.typePool = ob.typePool := by
  rw [obCloseHandle]
  split
  · exact ⟨.refl ok, rfl⟩
  split
  · exact ⟨.refl ok, rfl⟩
  · exact ⟨obDereferenceObject_contained hroutines rfl ok hpages _,
      obDereferenceObject_typePool _ _ _⟩

/-- `MmCreateSectionHandle`, where the pages of the sections in use are no tables. -/
theorem mmCreateSectionHandle_contained {ob : ObState σ} (hroutines : RoutinesOk ob) {k : σ}
    (hroots : root ∈ roots) (ok : TablesOk U roots (mm k))
    (hpages : SectionPagesApart U roots (mm k)) (size : U64) (access : U32) :
    Contained U roots root Set.univ touched (mm k)
      (mm (mmCreateSectionHandle ob k size access).2.1) := by
  rw [mmCreateSectionHandle]
  split
  · exact .refl ok
  split
  · exact .refl ok
  split
  · exact .refl ok
  rename_i s _
  dsimp only
  have hslot : Contained U roots root Set.univ touched (mm k) _ := sections_contained ok
    (Function.update (mm k).sectionPool s ⟨none, 0, fun _ => 0⟩)
    (Function.update (mm k).sectionInUse s true)
  have hpages₁ : SectionPagesApart U roots { mm k with
      sectionPool := Function.update (mm k).sectionPool s ⟨none, 0, fun _ => 0⟩
      sectionInUse := Function.update (mm k).sectionInUse s true } := by
    intro s' hs' i hi
    dsimp only at hs' hi ⊢
    by_cases hs : s' = s
    · rw [hs, Function.update_self] at hi
      exact absurd rfl hi
    · rw [Function.update_of_ne hs] at hs' hi ⊢
      exact hpages s' hs' i hi
  have hsame : ({ mm k with sectionInUse := Function.update (mm k).sectionInUse s true } :
      MmState).modifySection s (fun _ => ⟨none, 0, fun _ => 0⟩) = { mm k with
        sectionPool := Function.update (mm k).sectionPool s ⟨none, 0, fun _ => 0⟩
        sectionInUse := Function.update (mm k).sectionInUse s true } := rfl
  rw [hsame]
  generalize { mm k with
    sectionPool := Function.update (mm k).sectionPool s ⟨none, 0, fun _ => 0⟩
    sectionInUse := Function.update (mm k).sectionInUse s true } = m₁ at hslot hpages₁ ⊢
  rcases obCreateObject_cases ob m₁.sectionType (some mmSectionName) mmSectionAccessAll 0 with
    ⟨e, heq⟩ | ⟨o, t, nm, -, -, -, heq⟩
  · rw [heq]
    dsimp only
    rw [mm_setMm]
    exact hslot.trans (sections_contained hslot.tables _ _)
  rw [heq]
  dsimp only
  have hheader : Contained U roots root Set.univ touched m₁ (m₁.modifySection s fun sec =>
      { sec with header := some o, pageCount := sectionPageCount size }) :=
    sections_contained hslot.tables _ m₁.sectionInUse
  have hpages₂ : SectionPagesApart U roots (m₁.modifySection s fun sec =>
      { sec with header := some o, pageCount := sectionPageCount size }) := by
    intro s' hs' i hi
    simp only [MmState.modifySection] at hi ⊢
    by_cases hs : s' = s
    · subst hs
      rw [Function.update_self] at hi ⊢
      exact hpages₁ s' hs' i hi
    · rw [Function.update_of_ne hs] at hi ⊢
      exact hpages₁ s' hs' i hi
  obtain ⟨halloc, hpages₃⟩ := mmAllocSectionPages_contained hroots s (sectionPageCount size) 0
    hheader.tables hpages₂
  have hbefore : Contained U roots root Set.univ touched (mm k) _ :=
    hslot.trans (hheader.trans halloc)
  have hroutines₁ : ∀ ob' : ObState σ, ob'.typePool = ob.typePool → RoutinesOk ob' := by
    intro ob' htypes t routine hroutine
    rw [htypes] at hroutine
    exact hroutines t routine hroutine
  generalize mmAllocSectionPages s (sectionPageCount size) 0 _ = r at halloc hpages₃ hbefore ⊢
  obtain ⟨m₃, e | _⟩ := r
  · dsimp only at hpages₃ hbefore ⊢
    refine hbefore.trans (obDereferenceObject_contained ?_ (mm_setMm _ _) hbefore.tables hpages₃ o)
    exact hroutines₁ _ rfl
  · dsimp only at hpages₃ hbefore ⊢
    refine hbefore.trans (obDereferenceObject_contained ?_ (mm_setMm _ _) hbefore.tables hpages₃ o)
    refine hroutines₁ _ ?_
    rcases obInsertHandle_cases { ob with
        objectInUse := Function.update ob.objectInUse o true
        objectPool := Function.update ob.objectPool o
          ⟨ob.nextObjectId, some t, 1, 0, mmSectionAccessAll, obWaitStateClear,
            obpCopyName (obMaxObjectName + 1) nm⟩
        nextObjectId := ob.nextObjectId + 1 } o access with ⟨-, e, hi⟩ | ⟨i, -, -, hi⟩
    · rw [hi]
    · rw [hi]

/-! ## A new address space -/

/-- A new root gets the contents of one of the roots: every path leads to it at its end, or where
a path led. -/
theorem follow_newRoot {r q : ℕ} {roots' : Set ℕ} (hr : r ∈ roots)
    (hmem : m'.mem = Function.update m.mem q (m.mem r))
    (hq : ∀ s ∈ roots, ∀ p ∈ tablePaths U, p ≠ [] → follow pteChild m.mem s p ≠ some q)
    (hroots : ∀ s ∈ roots', s = q ∨ s ∈ roots) {s : ℕ} (hs : s ∈ roots') {p : List TableIx}
    (hp : p ∈ tablePaths U) {t : ℕ} (ht : follow pteChild m'.mem s p = some t) :
    (p = [] ∧ t = q) ∨ (t ≠ q ∧ ∃ r' ∈ roots, follow pteChild m.mem r' p = some t) := by
  have hother : ∀ f, f ≠ q → m'.mem f = m.mem f := fun f hf => by
    rw [hmem, Function.update_of_ne hf]
  by_cases hsq : s = q
  · subst hsq
    by_cases hnil : p = []
    · subst hnil
      exact Or.inl ⟨rfl, (Option.some.inj ht).symm⟩
    have hcopy : m'.mem s = m.mem r := by rw [hmem, Function.update_self]
    rw [follow_copy (tablePaths_closed U) hcopy hother (hq r hr) hp hnil] at ht
    refine Or.inr ⟨?_, r, hr, ht⟩
    rintro rfl
    exact hq r hr p hp hnil ht
  · have hs' := (hroots s hs).resolve_left hsq
    have hnot : ∀ p ∈ tablePaths U, ∀ u, follow pteChild m.mem s p = some u → u ≠ q := by
      rintro p hp u hu rfl
      by_cases hnil : p = []
      · subst hnil
        exact hsq (Option.some.inj hu)
      · exact hq s hs' p hp hnil hu
    have hsame : follow pteChild m'.mem s p = follow pteChild m.mem s p := by
      refine follow_congr (tablePaths_closed U) (fun p i hpi u hu => ?_) hp
      rw [hother u (hnot p (tablePaths_closed U p i hpi) u hu)]
    rw [hsame] at ht
    exact Or.inr ⟨hnot p hp t ht, s, hs', ht⟩

/-- `MmCreateAddressSpace` adds a root. -/
theorem OwnershipInv.create (inv : OwnershipInv m) (ownerProcessId : U64) :
    OwnershipInv (mmCreateAddressSpace m ownerProcessId).1 := by
  rw [mmCreateAddressSpace]
  split
  · exact inv
  split
  · exact inv
  rename_i a hindex
  rcases mmAllocPage_cases m with ⟨e, heq⟩ | ⟨q, hpage, hfree, -, heq⟩
  · rw [heq]
    exact inv
  rw [heq]
  dsimp only
  rw [pteFrame_pageAddress (lt_of_lt_trackedPages hpage)]
  generalize hm' : ({ (((m.takePage q 1).fillFrame q _).modifyAddressSpace a _) with
    addressSpaceInUse := _, nextAddressSpaceId := _ } : MmState) = m'
  have hmem : m'.mem = Function.update m.mem q (m.mem (pteFrame m.kernelRootTablePhysical)) := by
    rw [← hm']
    rfl
  have hroots : ∀ r ∈ m'.spaceRoots, r = q ∨ r ∈ m.spaceRoots := by
    rw [← hm']
    rintro r (rfl | ⟨b, hb, rfl⟩)
    · exact Or.inr (Or.inl rfl)
    by_cases hab : b = a
    · subst hab
      left
      simp only [MmState.rootFrame, MmState.modifyAddressSpace, Function.update_self]
      exact pteFrame_pageAddress (lt_of_lt_trackedPages hpage)
    · right
      dsimp only at hb
      rw [Function.update_of_ne hab] at hb
      refine Or.inr ⟨b, hb, ?_⟩
      simp only [MmState.rootFrame, MmState.modifyAddressSpace, Function.update_of_ne hab]
      rfl
  have hlive : ∀ f, f = q ∨ ¬Free m f → ¬Free m' f := by
    rw [← hm']
    exact fun f hf => not_free_takePage hf
  have htracked : m'.trackedPages = m.trackedPages := by
    rw [← hm']
    rfl
  have hq : ∀ s ∈ m.spaceRoots, ∀ p ∈ tablePaths canonicalPages, p ≠ [] →
      follow pteChild m.mem s p ≠ some q := fun s hs p hp _ hsq =>
    inv.tables.live q ⟨s, hs, p, hp, hsq⟩ ⟨hpage, hfree⟩
  have hfollow := fun s (hs : s ∈ m'.spaceRoots) p hp t ht =>
    follow_newRoot (Or.inl rfl) hmem hq hroots hs (p := p) hp (t := t) ht
  refine ⟨⟨inv.tables.tree.of_follow hfollow, ?_⟩, ?_⟩
  · rintro f ⟨s, hs, p, hp, hf⟩
    rcases hfollow s hs p hp f hf with ⟨-, rfl⟩ | ⟨-, r, hr, hbefore⟩
    · exact hlive f (Or.inl rfl)
    · exact hlive f (Or.inr (inv.tables.live f ⟨r, hr, p, hp, hbefore⟩))
  · rintro f ⟨s, hs, p, hp, hf⟩
    rw [htracked]
    rcases hfollow s hs p hp f hf with ⟨-, rfl⟩ | ⟨-, r, hr, hbefore⟩
    · exact hpage
    · exact inv.tracked f ⟨r, hr, p, hp, hbefore⟩

/-! ## Initialization -/

/-- The tables from the root `q`. -/
structure RootOk (q : ℕ) (m : MmState) : Prop where
  tables : TablesOk canonicalPages {q} m
  tracked : ∀ f, IsTable canonicalPages {q} m f → f < m.trackedPages

variable {q : ℕ}

/-- An entry that leads nowhere. -/
theorem RootOk.writeEntry (h : RootOk q m) (u : ℕ) (i : TableIx) {entry : U64}
    (hentry : pteChild entry = none) : RootOk q (m.writeEntry u i entry) := by
  have hfewer : ∀ w j t, pteChild ((m.writeEntry u i entry).mem w j) = some t →
      pteChild (m.mem w j) = some t := by
    intro w j t ht
    rw [MmState.writeEntry] at ht
    by_cases hw : w = u
    · subst hw
      by_cases hj : j = i
      · subst hj
        simp only [Function.update_self, hentry] at ht
        cases ht
      · simpa only [Function.update_self, Function.update_of_ne hj] using ht
    · simpa only [Function.update_of_ne hw] using ht
  have htable : ∀ f, IsTable canonicalPages {q} (m.writeEntry u i entry) f →
      IsTable canonicalPages {q} m f := by
    rintro f ⟨r, hr, p, hp, hf⟩
    exact ⟨r, hr, p, hp, follow_of_fewer hfewer hf⟩
  exact ⟨⟨h.tables.tree.fewer hfewer, fun f hf => h.tables.live f (htable f hf)⟩,
    fun f hf => h.tracked f (htable f hf)⟩

/-- A free page becomes an empty table behind an entry. -/
theorem RootOk.link (h : RootOk q m) {page : ℕ} (hpage : page < m.trackedPages)
    (hfree : mmpIsPageAllocated m page = false) {u : ℕ} (hu : u ≠ page) (i : TableIx) {entry : U64}
    (hentry : pteChild entry = some page) :
    RootOk q (((m.takePage page 1).fillFrame page fun _ => 0).writeEntry u i entry) := by
  generalize hm' : ((m.takePage page 1).fillFrame page fun _ => 0).writeEntry u i entry = m'
  have hnot : ¬IsTable canonicalPages {q} m page := fun ht => h.tables.live page ht ⟨hpage, hfree⟩
  have hempty : ∀ j, m'.mem page j = 0 := by
    intro j
    rw [← hm']
    simp only [MmState.writeEntry, MmState.fillFrame, Function.update_of_ne hu.symm,
      Function.update_self]
  have hleaf : ∀ j, pteChild (m'.mem page j) = none := fun j => by rw [hempty j, pteChild_zero]
  have hnew : pteChild (m'.mem u i) = some page := by
    rw [← hm']
    simp only [MmState.writeEntry, Function.update_self, hentry]
  have hother : ∀ w j, w ≠ page → (w ≠ u ∨ j ≠ i) →
      pteChild (m'.mem w j) = pteChild (m.mem w j) := by
    intro w j hw hne
    rw [← hm']
    by_cases hwu : w = u
    · subst hwu
      have hj := hne.resolve_left fun h => h rfl
      simp only [MmState.writeEntry, MmState.fillFrame, Function.update_self,
        Function.update_of_ne hj, Function.update_of_ne hw, MmState.mem_takePage]
    · simp only [MmState.writeEntry, MmState.fillFrame, Function.update_of_ne hwu,
        Function.update_of_ne hw, MmState.mem_takePage]
  have htable : ∀ f, IsTable canonicalPages {q} m' f → IsTable canonicalPages {q} m f ∨ f = page := by
    rintro f ⟨r, hr, p, hp, hf⟩
    rcases follow_replace (tablePaths_closed _) hnot hleaf hnew hother hr hp hf with hf | ⟨hf, -⟩
    · exact Or.inl ⟨r, hr, p, hp, hf⟩
    · exact Or.inr hf
  have hlive : ∀ f, f = page ∨ ¬Free m f → ¬Free m' f := by
    rw [← hm']
    exact fun f hf => not_free_takePage hf
  have htracked : m'.trackedPages = m.trackedPages := by
    rw [← hm']
    rfl
  refine ⟨⟨h.tables.tree.replace (tablePaths_closed _) hnot hleaf hnew hother, fun f hf => ?_⟩,
    fun f hf => ?_⟩
  · exact hlive f ((htable f hf).symm.imp_right (h.tables.live f))
  · rw [htracked]
    rcases htable f hf with hf | rfl
    · exact h.tracked f hf
    · exact hpage

/-- What `MmInitialize` finds: the firmware's tables form a tree, and those below the root are
tracked pages that the passes over the memory map do not leave to the allocator. -/
structure FirmwareReserved (m : MmState) (bootInfo : BootInfo) (map : MemoryMap) (top : U64) :
    Prop where
  tree : IsTree pteChild m.mem {pteFrame m.cr3} (tablePaths canonicalPages)
  tracked : ∀ f, IsTable canonicalPages {pteFrame m.cr3} m f → f ≠ pteFrame m.cr3 →
    f < (mmPrepare m top).trackedPages
  reserved : ∀ f, IsTable canonicalPages {pteFrame m.cr3} m f → f ≠ pteFrame m.cr3 →
    ¬UsablePage map bootInfo f ∨ ∃ r ∈ bootInfo.criticalRanges, RangeMarks r.1 r.2 f

/-- The memory, the root that is in use and the pool of address spaces stay. -/
structure SameTables (m m' : MmState) : Prop where
  mem : m'.mem = m.mem
  cr3 : m'.cr3 = m.cr3
  addressSpaceInUse : m'.addressSpaceInUse = m.addressSpaceInUse

theorem SameTables.trans {m'' : MmState} (h : SameTables m m') (h' : SameTables m' m'') :
    SameTables m m'' :=
  ⟨h'.mem.trans h.mem, h'.cr3.trans h.cr3, h'.addressSpaceInUse.trans h.addressSpaceInUse⟩

theorem mmpMarkPages_sameTables (allocated : Bool) (n page : ℕ) (m : MmState) :
    SameTables m (mmpMarkPages allocated n page m) := by
  induction n generalizing page m with
  | zero => exact ⟨rfl, rfl, rfl⟩
  | succ n ih =>
    rw [mmpMarkPages]
    split
    · exact ⟨rfl, rfl, rfl⟩
    · refine SameTables.trans ?_ (ih (page + 1) (mmpSetPage m allocated page))
      rw [mmpSetPage]
      split <;> exact ⟨rfl, rfl, rfl⟩

theorem mmpMarkRange_sameTables (m : MmState) (base length : U64) (allocated : Bool) :
    SameTables m (mmpMarkRange m base length allocated) := by
  rw [mmpMarkRange]
  split
  · exact ⟨rfl, rfl, rfl⟩
  dsimp only
  split
  · exact ⟨rfl, rfl, rfl⟩
  · exact mmpMarkPages_sameTables ..

theorem mmpMarkEntries_sameTables (map : MemoryMap) (entrySize : U32) (n : ℕ) (cursor : U64)
    (m : MmState) : SameTables m (mmpMarkEntries map entrySize n cursor m) := by
  induction n generalizing cursor m with
  | zero => exact ⟨rfl, rfl, rfl⟩
  | succ n ih =>
    rw [mmpMarkEntries]
    refine SameTables.trans ?_ (ih _ _)
    split
    · exact mmpMarkRange_sameTables ..
    · exact ⟨rfl, rfl, rfl⟩

/-- The two passes over the memory map leave the tables alone. -/
theorem bootReserved_sameTables (m : MmState) (bootInfo : BootInfo) (map : MemoryMap) (top : U64) :
    SameTables (mmPrepare m top) (bootReserved m bootInfo map top) := by
  have hranges : ∀ (ranges : List (U64 × U64)) (m : MmState),
      SameTables m (ranges.foldl (fun mm r => mmpMarkRange mm r.1 r.2 true) m) := by
    intro ranges
    induction ranges with
    | nil => exact fun _ => ⟨rfl, rfl, rfl⟩
    | cons r ranges ih => exact fun m => (mmpMarkRange_sameTables ..).trans (ih _)
  rw [bootReserved, mmpReserveBootCriticalRanges_eq]
  refine SameTables.trans ?_ (hranges _ _)
  rw [mmpMarkUsableFromBootInfo]
  split
  · exact ⟨rfl, rfl, rfl⟩
  · exact mmpMarkEntries_sameTables ..

/-- The clone of the firmware's root. -/
theorem RootOk.clone {bootInfo : BootInfo} {map : MemoryMap} {top : U64}
    (h : FirmwareReserved m bootInfo map top)
    (hclone : mmpCloneKernelRootTable (bootReserved m bootInfo map top) = (m', .ok ())) :
    RootOk (pteFrame m'.kernelRootTablePhysical) m' ∧ m'.addressSpaceInUse = fun _ => false := by
  have hsame := bootReserved_sameTables m bootInfo map top
  have hlive : ∀ f, IsTable canonicalPages {pteFrame m.cr3} m f → f ≠ pteFrame m.cr3 →
      mmpIsPageAllocated (bootReserved m bootInfo map top) f = true := fun f hf hne =>
    (allocated_bootReserved m bootInfo map top (h.tracked f hf hne)).2 (h.reserved f hf hne)
  have htracked := trackedPages_bootReserved m bootInfo map top
  generalize bootReserved m bootInfo map top = m₁ at hclone hsame hlive htracked
  have hmem₁ : m₁.mem = m.mem := hsame.mem
  have hcr3 : m₁.cr3 = m.cr3 := hsame.cr3
  rw [mmpCloneKernelRootTable] at hclone
  split at hclone
  · cases hclone
  rcases mmpAllocPageInternal_cases m₁ 1 with ⟨-, e, heq⟩ | ⟨q, hpage, hfree, heq⟩
  · rw [heq] at hclone
    cases hclone
  rw [heq] at hclone
  dsimp only at hclone
  rw [pteFrame_pageAddress (lt_of_lt_trackedPages hpage), Prod.mk.injEq] at hclone
  obtain ⟨hm', -⟩ := hclone
  have hroot : pteFrame m'.kernelRootTablePhysical = q := by
    rw [← hm']
    exact pteFrame_pageAddress (lt_of_lt_trackedPages hpage)
  have hmem : m'.mem = Function.update m.mem q (m.mem (pteFrame m.cr3)) := by
    rw [← hm', ← hmem₁, ← hcr3]
    rfl
  have hq : ∀ s ∈ ({pteFrame m.cr3} : Set ℕ), ∀ p ∈ tablePaths canonicalPages, p ≠ [] →
      follow pteChild m.mem s p ≠ some q := by
    rintro s rfl p hp hnil hsq
    have hne : q ≠ pteFrame m.cr3 := by
      rintro rfl
      have hroot := vaPath_mem (show (0 : U64) ∈ canonicalPages from ⟨by decide, by decide⟩)
        (Nat.zero_le 3)
      exact hnil (h.tree _ rfl _ rfl p hp [] hroot _ hsq rfl)
    have halloc := hlive q ⟨_, rfl, p, hp, hsq⟩ hne
    rw [hfree] at halloc
    cases halloc
  have hfollow := fun s (hs : s ∈ ({q} : Set ℕ)) p hp t ht =>
    follow_newRoot (Set.mem_singleton _) hmem hq (fun s hs => Or.inl hs) hs (p := p) hp (t := t) ht
  have htable : ∀ f, IsTable canonicalPages {q} m' f → f = q ∨
      f < m₁.trackedPages ∧ mmpIsPageAllocated m₁ f = true := by
    rintro f ⟨s, rfl, p, hp, hf⟩
    rcases hfollow s rfl p hp f hf with ⟨-, hfq⟩ | ⟨hfq, r, rfl, hbefore⟩
    · exact Or.inl hfq
    have hne : f ≠ pteFrame m.cr3 := by
      rintro rfl
      have hroot := vaPath_mem (show (0 : U64) ∈ canonicalPages from ⟨by decide, by decide⟩)
        (Nat.zero_le 3)
      have hnil : p = [] := h.tree _ rfl _ rfl p hp [] hroot _ hbefore rfl
      subst hnil
      exact hfq (Option.some.inj hf).symm
    have hf' : IsTable canonicalPages {pteFrame m.cr3} m f := ⟨_, rfl, p, hp, hbefore⟩
    exact Or.inr ⟨htracked ▸ h.tracked f hf' hne, hlive f hf' hne⟩
  rw [hroot]
  refine ⟨⟨⟨h.tree.of_follow hfollow, fun f hf => ?_⟩, fun f hf => ?_⟩, ?_⟩
  · have htaken : ¬Free (m₁.takePage q 1) f := by
      refine not_free_takePage ((htable f hf).imp_right ?_)
      rintro ⟨-, hlive⟩ ⟨-, hfree⟩
      rw [hlive] at hfree
      cases hfree
    rw [← hm']
    exact htaken
  · rw [← hm']
    rcases htable f hf with rfl | ⟨hlt, -⟩
    · exact hpage
    · exact hlt
  · rw [← hm']
    exact hsame.addressSpaceInUse

theorem isLarge_physmap (entry : U64) : isLarge (entry ||| mmPtePresent ||| mmPteWritable |||
    mmPteLarge ||| mmPteNx) = true := by
  have hpresent : hasFlag mmPtePresent mmPtePresent = true := by decide
  have hlarge : hasFlag mmPteLarge mmPteLarge = true := by decide
  simp only [isLarge, hasFlag_or, hpresent, hlarge, Bool.or_true, Bool.true_or, Bool.and_self]

/-- The loop that maps large pages. -/
theorem RootOk.largePages (h : RootOk q m) (pd offset mappedBytes n j : ℕ) :
    RootOk q (mmpMapLargePages pd offset mappedBytes n j m) := by
  induction n generalizing j m with
  | zero => exact h
  | succ n ih =>
    rw [mmpMapLargePages]
    split
    · exact ih (h.writeEntry pd _ (pteChild_of_isLarge (isLarge_physmap _))) (j + 1)
    · exact h

/-- The entry of a new table of the direct map. -/
theorem pteChild_physmapTable {page : ℕ} (hpage : page < m.trackedPages) :
    pteChild (pageAddress page ||| mmPtePresent ||| mmPteWritable) = some page := by
  rw [BitVec.or_assoc]
  exact pteChild_tableEntry (lt_of_lt_trackedPages hpage) (by decide) (by decide) (by decide)

/-- The loop over the directories. -/
theorem RootOk.directories (h : RootOk q m) {pdpt : ℕ} (hpdpt : ¬Free m pdpt) (mappedBytes n k : ℕ) :
    RootOk q (mmpMapDirectories pdpt mappedBytes n k m).1 := by
  induction n generalizing k m with
  | zero => exact h
  | succ n ih =>
    rw [mmpMapDirectories]
    dsimp only
    split
    swap
    · exact h
    have hlarge : ∀ {m' : MmState} (pd : ℕ), RootOk q m' → ¬Free m' pdpt →
        RootOk q (mmpMapDirectories pdpt mappedBytes n (k + 1)
          (mmpMapLargePages pd (k * 0x40000000) mappedBytes 512 0 m')).1 := fun pd hm' hlive =>
      ih (hm'.largePages ..) ((mmpMapLargePages_keeps ..).not_free hlive) (k + 1)
    split
    · exact hlarge _ h hpdpt
    rcases mmpAllocPageInternal_cases m 1 with ⟨-, e, heq⟩ | ⟨page, hpage, hfree, heq⟩
    · rw [heq]
      exact h
    rw [heq]
    dsimp only
    rw [pteFrame_pageAddress (lt_of_lt_trackedPages hpage)]
    have hne : pdpt ≠ page := by
      rintro rfl
      exact hpdpt ⟨hpage, hfree⟩
    exact hlarge _ (h.link hpage hfree hne _ (pteChild_physmapTable hpage))
      (not_free_takePage (Or.inr hpdpt))

theorem mmpMapLargePages_onlyPages (pd offset mappedBytes n j : ℕ) (m : MmState) :
    OnlyPages m (mmpMapLargePages pd offset mappedBytes n j m) := by
  induction n generalizing j m with
  | zero => exact .refl m
  | succ n ih =>
    rw [mmpMapLargePages]
    split
    · exact (OnlyPages.writeEntry ..).trans (ih _ _)
    · exact .refl m

theorem mmpMapDirectories_onlyPages (pdpt mappedBytes n k : ℕ) (m : MmState) :
    OnlyPages m (mmpMapDirectories pdpt mappedBytes n k m).1 := by
  induction n generalizing k m with
  | zero => exact .refl m
  | succ n ih =>
    rw [mmpMapDirectories]
    dsimp only
    split
    swap
    · exact .refl m
    split
    · exact (mmpMapLargePages_onlyPages ..).trans (ih _ _)
    rcases mmpAllocPageInternal_cases m 1 with ⟨-, e, heq⟩ | ⟨page, -, -, heq⟩
    · rw [heq]
      exact .refl m
    rw [heq]
    exact (OnlyPages.takePage ..).trans ((OnlyPages.fillFrame ..).trans
      ((OnlyPages.writeEntry ..).trans ((mmpMapLargePages_onlyPages ..).trans (ih _ _))))

/-- What `MmpBuildKernelPhysmap` keeps. -/
theorem RootOk.physmap (h : RootOk (pteFrame m.kernelRootTablePhysical) m) :
    RootOk (pteFrame m.kernelRootTablePhysical) (mmpBuildKernelPhysmap m).1 ∧
      SameGlobals m (mmpBuildKernelPhysmap m).1 := by
  rw [mmpBuildKernelPhysmap]
  split
  · exact ⟨h, .refl m⟩
  dsimp only
  generalize hm₁ : ({ m with physmapBase := mmPhysmapBase, physmapBytes := physmapSize m } : MmState)
    = m₁
  have hglobals : SameGlobals m m₁ := by
    rw [← hm₁]
    exact ⟨rfl, rfl, rfl, rfl, fun _ => rfl⟩
  have h₁ : RootOk (pteFrame m.kernelRootTablePhysical) m₁ := by
    rw [← hm₁]
    exact ⟨⟨h.tables.tree, h.tables.live⟩, h.tracked⟩
  rcases mmpAllocPageInternal_cases m₁ 1 with ⟨-, e, heq⟩ | ⟨page, hpage, hfree, heq⟩
  · rw [heq]
    exact ⟨h₁, hglobals⟩
  rw [heq]
  dsimp only
  rw [pteFrame_pageAddress (lt_of_lt_trackedPages hpage)]
  have hroot : (m₁.takePage page 1).kernelRootTablePhysical = m.kernelRootTablePhysical :=
    hglobals.kernelRoot
  rw [hroot]
  have hne : pteFrame m.kernelRootTablePhysical ≠ page := by
    intro heq
    have hself : IsTable canonicalPages {pteFrame m.kernelRootTablePhysical} m₁ page :=
      ⟨_, rfl, [], vaPath_mem (show (0 : U64) ∈ canonicalPages from ⟨by decide, by decide⟩)
        (Nat.zero_le 3), congrArg some heq⟩
    exact h₁.tables.live page hself ⟨hpage, hfree⟩
  have hlink := h₁.link hpage hfree hne (tableIndex mmPhysmapBase 0)
    (pteChild_physmapTable hpage)
  have hpages := (OnlyPages.takePage m₁ page 1).trans ((OnlyPages.fillFrame _ page fun _ => 0).trans
    (OnlyPages.writeEntry _ (pteFrame m.kernelRootTablePhysical) (tableIndex mmPhysmapBase 0)
      (pageAddress page ||| mmPtePresent ||| mmPteWritable)))
  have hlive : ¬Free (((m₁.takePage page 1).fillFrame page fun _ => 0).writeEntry
      (pteFrame m.kernelRootTablePhysical) (tableIndex mmPhysmapBase 0)
      (pageAddress page ||| mmPtePresent ||| mmPteWritable)) page :=
    show ¬Free (m₁.takePage page 1) page from not_free_takePage (Or.inl rfl)
  generalize ((m₁.takePage page 1).fillFrame page fun _ => 0).writeEntry
    (pteFrame m.kernelRootTablePhysical) (tableIndex mmPhysmapBase 0)
    (pageAddress page ||| mmPtePresent ||| mmPteWritable) = m₂ at hlink hpages hlive ⊢
  have hdirectories := hlink.directories hlive (physmapSize m₂).toNat 512 0
  have hpages' := mmpMapDirectories_onlyPages page (physmapSize m₂).toNat 512 0 m₂
  generalize mmpMapDirectories page (physmapSize m₂).toNat 512 0 m₂ = r at hdirectories hpages' ⊢
  have hall := hglobals.trans (hpages.sameGlobals.trans hpages'.sameGlobals)
  obtain ⟨m₃, e | _⟩ := r
  · exact ⟨hdirectories, hall⟩
  · exact ⟨⟨⟨hdirectories.tables.tree, hdirectories.tables.live⟩, hdirectories.tracked⟩,
      hall.trans ⟨rfl, rfl, rfl, rfl, fun _ => rfl⟩⟩

/-- A successful initialization, where the firmware's tables are reserved. -/
theorem ownershipInv_mmInitialize {bootInfo : BootInfo} {map : MemoryMap} {top : U64}
    {sectionType : Except KStatus TypeRef} (h : FirmwareReserved m bootInfo map top)
    (hinit : mmInitialize m (some bootInfo) map top sectionType = (m', .ok ())) :
    OwnershipInv m' := by
  rw [mmInitialize] at hinit
  split at hinit
  · cases hinit
  dsimp only at hinit
  split at hinit
  · cases hinit
  rw [← bootReserved] at hinit
  generalize hclone : mmpCloneKernelRootTable (bootReserved m bootInfo map top) = r at hinit
  obtain ⟨m₁, e | _⟩ := r
  · cases hinit
  dsimp only at hinit
  obtain ⟨hroot, hunused⟩ := RootOk.clone h hclone
  obtain ⟨hroot₂, hglobals⟩ := hroot.physmap
  generalize mmpBuildKernelPhysmap m₁ = r at hinit hroot₂ hglobals
  obtain ⟨m₂, e | _⟩ := r
  · cases hinit
  dsimp only at hinit hroot₂ hglobals
  rcases sectionType with e | t
  · cases hinit
  rw [Prod.mk.injEq] at hinit
  obtain ⟨hm', -⟩ := hinit
  have hroots : m'.spaceRoots = {pteFrame m₁.kernelRootTablePhysical} := by
    rw [← hm']
    ext f
    refine ⟨?_, fun hf => Or.inl ?_⟩
    · rintro (rfl | ⟨a, ha, -⟩)
      · rw [hglobals.kernelRoot]
        rfl
      · have ha' : m₂.addressSpaceInUse a = true := ha
        rw [hglobals.addressSpaceInUse, hunused] at ha'
        cases ha'
    · rw [hglobals.kernelRoot]
      exact hf
  refine ⟨?_, ?_⟩
  · rw [hroots, ← hm']
    exact ⟨hroot₂.tables.tree, hroot₂.tables.live⟩
  · intro f hf
    rw [LiveTable, hroots] at hf
    rw [← hm'] at hf ⊢
    exact hroot₂.tracked f hf

/-! ## Runs -/

/-- A call of the memory manager, or of the object manager that may delete a section. -/
inductive OwnerCall
  | alloc
  | free (pa : U64)
  | create (ownerProcessId : U64)
  | activate (a : AddressSpaceRef)
  | query (a : AddressSpaceRef) (va : U64)
  | inSpace (a : AddressSpaceRef) (c : SpaceCall)
  | createSection (size : U64) (access : U32)
  | closeHandle (handleValue : U32)
  | dereference (o : ObjectRef)

namespace MmSystem

/-- The state after a call. -/
def performOwner (s : MmSystem σ) : OwnerCall → MmSystem σ
  | .alloc => ⟨s.ob, setMm (mmAllocPage (mm s.k)).1 s.k⟩
  | .free pa => ⟨s.ob, setMm (mmFreePage (mm s.k) pa).1 s.k⟩
  | .create ownerProcessId => ⟨s.ob, setMm (mmCreateAddressSpace (mm s.k) ownerProcessId).1 s.k⟩
  | .activate a => ⟨s.ob, setMm (mmActivateAddressSpace (mm s.k) a).1 s.k⟩
  | .query a va => ⟨s.ob, setMm (mmAsQueryPte (mm s.k) a va).1 s.k⟩
  | .inSpace a c => s.performSpace a c
  | .createSection size access =>
    let (ob, k, _) := mmCreateSectionHandle s.ob s.k size access
    ⟨ob, k⟩
  | .closeHandle handleValue =>
    let (ob, k, _) := obCloseHandle s.ob s.k handleValue
    ⟨ob, k⟩
  | .dereference o =>
    let (ob, k, _) := obDereferenceObject s.ob s.k o
    ⟨ob, k⟩

def OwnerStep (s : MmSystem σ) (c : OwnerCall) (s' : MmSystem σ) : Prop := s' = s.performOwner c

/-- The call gives back no table: a page that is freed is none, those of the sections are none where
one may be deleted, and the frames that may be given back at the pages of a space are none. -/
def KeepsTables (s : MmSystem σ) : OwnerCall → Prop
  | .free pa => ¬LiveTable (mm s.k) (pa.toNat / mmPageSize)
  | .query a va => (mm s.k).addressSpaceInUse a = true ∧ pageOf va ⊆ canonicalPages
  | .inSpace a c => (mm s.k).addressSpaceInUse a = true ∧
    Releasable canonicalPages (mm s.k).spaceRoots ((mm s.k).rootFrame a) Set.univ (mm s.k)
      (touchedPages (mm s.k) a c)
  | .createSection _ _ | .closeHandle _ | .dereference _ =>
    SectionPagesApart canonicalPages (mm s.k).spaceRoots (mm s.k)
  | .alloc | .create _ | .activate _ => True

/-- What a run keeps. -/
structure OwnerRunInv (s : MmSystem σ) : Prop where
  routines : RoutinesOk s.ob
  sectionType : SectionTypeOk s.ob s.k
  owned : OwnershipInv (mm s.k)

theorem OwnerRunInv.of_contained {s s' : MmSystem σ} (inv : OwnerRunInv s)
    (htypes : s'.ob.typePool = s.ob.typePool)
    (h : Contained canonicalPages (mm s.k).spaceRoots root Set.univ touched (mm s.k) (mm s'.k)) :
    OwnerRunInv s' where
  routines t routine hroutine := inv.routines t routine (by rw [← htypes]; exact hroutine)
  sectionType t ht := by
    rw [htypes]
    exact inv.sectionType t (h.globals.sectionType.symm.trans ht)
  owned := inv.owned.contained h

theorem OwnerRunInv.step {s s' : MmSystem σ} {c : OwnerCall} (inv : OwnerRunInv s)
    (hkeeps : s.KeepsTables c) (hstep : OwnerStep s c s') : OwnerRunInv s' := by
  rw [OwnerStep] at hstep
  subst hstep
  have ok := inv.owned.tables
  have hkernel : pteFrame (mm s.k).kernelRootTablePhysical ∈ (mm s.k).spaceRoots := Or.inl rfl
  have hkept : ∀ s' : MmSystem σ, s'.ob.typePool = s.ob.typePool →
      Contained canonicalPages (mm s.k).spaceRoots (pteFrame (mm s.k).kernelRootTablePhysical)
        Set.univ ∅ (mm s.k) (mm s'.k) → OwnerRunInv s' := fun _ htypes h => inv.of_contained htypes h
  cases c with
  | alloc =>
    refine hkept _ rfl ?_
    rw [performOwner, mm_setMm]
    exact mmAllocPage_contained ok
  | free pa =>
    refine hkept _ rfl ?_
    rw [performOwner, mm_setMm]
    exact mmFreePage_contained ok hkeeps
  | create ownerProcessId =>
    have howned := inv.owned.create ownerProcessId
    have hsection : (mmCreateAddressSpace (mm s.k) ownerProcessId).1.sectionType =
        (mm s.k).sectionType := by
      rw [mmCreateAddressSpace]
      split
      · rfl
      split
      · rfl
      rcases mmAllocPage_cases (mm s.k) with ⟨e, heq⟩ | ⟨q, -, -, -, heq⟩
      · rw [heq]
      · rw [heq]
        rfl
    refine ⟨inv.routines, fun t ht => inv.sectionType t ?_, ?_⟩
    · rw [performOwner, mm_setMm, hsection] at ht
      exact ht
    · rw [performOwner, mm_setMm]
      exact howned
  | activate a =>
    refine hkept _ rfl ?_
    rw [performOwner, mm_setMm, mmActivateAddressSpace]
    split
    · exact .refl ok
    split
    · exact .of_mem_eq ok ⟨rfl, rfl, rfl, rfl, fun _ => rfl⟩ rfl (fun _ hf _ => hf)
        fun f _ hf => ok.live f hf
    · exact .refl ok
  | query a va =>
    obtain ⟨hused, hpage⟩ := hkeeps
    have hquery : Contained canonicalPages (mm s.k).spaceRoots ((mm s.k).rootFrame a) Set.univ ∅
        (mm s.k) (mmAsQueryPte (mm s.k) a va).1 := ?_
    · refine inv.of_contained rfl (?_ : Contained _ _ ((mm s.k).rootFrame a) Set.univ ∅ _ _)
      rw [performOwner, mm_setMm]
      exact hquery
    by_cases haligned : mmPageSize ∣ va.toNat
    · exact mmAsQueryPte_contained ok (Or.inr ⟨a, hused, rfl⟩) (hpage ⟨haligned, rfl⟩)
    · rw [mmAsQueryPte, if_pos (.inr fun h => haligned (Nat.dvd_of_mod_eq_zero h))]
      exact .refl ok
  | inSpace a c =>
    obtain ⟨hused, hpages⟩ := hkeeps
    obtain ⟨hcontained, htypes⟩ := performSpace_contained inv.sectionType separated_canonicalPages
      (Or.inr ⟨a, hused, rfl⟩) ok c hpages
    exact inv.of_contained htypes hcontained
  | createSection size access =>
    exact hkept _ (mmCreateSectionHandle_typePool s.ob s.k size access)
      (mmCreateSectionHandle_contained inv.routines hkernel ok hkeeps size access)
  | closeHandle handleValue =>
    obtain ⟨hcontained, htypes⟩ := obCloseHandle_contained inv.routines ok hkeeps handleValue
    exact hkept _ htypes hcontained
  | dereference o =>
    exact hkept _ (obDereferenceObject_typePool s.ob s.k o)
      (obDereferenceObject_contained inv.routines rfl ok hkeeps o)

/-- Where the firmware's tables are reserved and no call of the run gives back a table, the tables
are allocated and tracked after `MmInitialize` and after every call. -/
theorem tables_owned (m : MmState) (bootInfo : BootInfo) (map : MemoryMap) (top : U64)
    (sectionType : Except KStatus TypeRef) (s₀ : MmSystem σ)
    (hinit : mmInitialize m (some bootInfo) map top sectionType = (mm s₀.k, .ok ()))
    (hfirmware : FirmwareReserved m bootInfo map top) (hsection : SectionTypeOk s₀.ob s₀.k)
    (hroutines : RoutinesOk s₀.ob) (calls : List OwnerCall)
    (hkeeps : Always OwnerStep (fun s c _ => s.KeepsTables c) s₀ calls) :
    TablesOwned (mm s₀.k) ∧ Always OwnerStep (fun _ _ s' => TablesOwned (mm s'.k)) s₀ calls := by
  have howned := ownershipInv_mmInitialize hfirmware hinit
  refine ⟨howned.tablesOwned, ?_⟩
  exact hkeeps.imp (I := OwnerRunInv) (fun _ _ _ inv hc hstep => inv.step hc hstep)
    (fun _ _ _ inv hstep hc => (inv.step hc hstep).owned.tablesOwned)
    ⟨hroutines, hsection, howned⟩

/-! ## The small machine -/

/-- The firmware's tables of the small machine: a root, a table and a directory with one large
page. -/
theorem sampleTables_follow {p : List TableIx} {f : ℕ}
    (hf : follow pteChild sampleTables 16 p = some f) :
    (p = [] ∧ f = 16) ∨ (p = [0] ∧ f = 17) ∨ (p = [0, 0] ∧ f = 18) := by
  have hchild : ∀ f i t, pteChild (sampleTables f i) = some t →
      i = 0 ∧ (f = 16 ∧ t = 17 ∨ f = 17 ∧ t = 18) := by
    intro f i t ht
    rw [sampleTables] at ht
    split at ht
    · rw [pteChild_zero] at ht
      cases ht
    rename_i hi
    refine ⟨not_not.1 hi, ?_⟩
    split at ht
    · exact Or.inl ⟨by assumption, (Option.some.inj ht).symm⟩
    split at ht
    · exact Or.inr ⟨by assumption, (Option.some.inj ht).symm⟩
    have hlarge : pteChild 0x83 = none := by decide
    split at ht
    · rw [hlarge] at ht
      cases ht
    · rw [pteChild_zero] at ht
      cases ht
  induction p using List.reverseRecOn generalizing f with
  | nil => exact Or.inl ⟨rfl, (Option.some.inj hf).symm⟩
  | append_singleton p i ih =>
    rw [follow_concat_eq_some] at hf
    obtain ⟨w, hw, ht⟩ := hf
    obtain ⟨rfl, hft⟩ := hchild w i f ht
    rcases ih hw with ⟨rfl, rfl⟩ | ⟨rfl, rfl⟩ | ⟨rfl, rfl⟩
    · exact Or.inr (Or.inl ⟨rfl, by omega⟩)
    · exact Or.inr (Or.inr ⟨rfl, by omega⟩)
    · omega

/-- `MmInitialize` on the small machine, with the tables of a firmware. -/
def sampleBoot (tables : ℕ → TableIx → U64) : MmState × Except KStatus Unit :=
  mmInitialize { MmState.zero with mem := tables, cr3 := 0x10000 } (some sampleBootInfo) sampleMap
    0x110000 sampleOb.2

def sampleBooted : MmSystem MmState := ⟨sampleOb.1, (sampleBoot sampleTables).1⟩

theorem mm_mk (ob : ObState MmState) (m : MmState) :
    mm (MmSystem.mk ob m).k = m := rfl

theorem tables_owned_sample : TablesOwned (mm sampleBooted.k) ∧
    Always OwnerStep (fun _ _ s' => TablesOwned (mm s'.k)) sampleBooted [.create 1, .alloc] := by
  refine tables_owned { MmState.zero with mem := sampleTables, cr3 := 0x10000 } sampleBootInfo
    sampleMap 0x110000 sampleOb.2 sampleBooted ?_ ?_ ?_ ?_ _ ?_
  · have hok : (match (sampleBoot sampleTables).2 with
      | .ok _ => true
      | .error _ => false) = true := by decide +kernel
    have hinit : sampleBoot sampleTables = ((sampleBoot sampleTables).1, .ok ()) := by
      generalize sampleBoot sampleTables = r at hok
      obtain ⟨m, e | _⟩ := r
      · cases hok
      · rfl
    rw [sampleBooted, mm_mk, ← hinit, sampleBoot]
  · have htables : ∀ f, IsTable canonicalPages {16} { MmState.zero with mem := sampleTables } f →
        f = 16 ∨ f = 17 ∨ f = 18 := by
      rintro f ⟨r, rfl, p, -, hf⟩
      exact (sampleTables_follow hf).imp And.right (Or.imp And.right And.right)
    refine ⟨?_, ?_, ?_⟩
    · rintro r rfl r' rfl p - p' - f hf hf'
      rcases sampleTables_follow hf with ⟨rfl, rfl⟩ | ⟨rfl, rfl⟩ | ⟨rfl, rfl⟩ <;>
        rcases sampleTables_follow hf' with ⟨rfl, h⟩ | ⟨rfl, h⟩ | ⟨rfl, h⟩ <;>
        first | rfl | exact absurd h (by decide)
    · intro f hf hne
      rcases htables f hf with rfl | rfl | rfl
      · exact absurd rfl hne
      · decide
      · decide
    · intro f hf hne
      refine Or.inr ⟨(0, 0x100000), List.mem_cons_self, ?_⟩
      rcases htables f hf with rfl | rfl | rfl
      · exact absurd rfl hne
      · decide
      · decide
  · intro t ht
    have htype : (mm sampleBooted.k).sectionType = some 0 := by decide +kernel
    rw [htype, Option.some.injEq] at ht
    rw [← ht]
    exact sampleOb_deleteRoutine
  · intro t routine hroutine
    by_cases ht : t = 0
    · subst ht
      exact Or.inl (Option.some.inj (hroutine.symm.trans sampleOb_deleteRoutine))
    · have hready : (obInitialize (σ := MmState) .zero).1.ready = true := rfl
      have hfirst : (firstIndex fun t => !(obInitialize (σ := MmState) .zero).1.typeInUse t) =
          some 0 := by decide +kernel
      rw [sampleBooted, sampleOb, obCreateType, if_neg (by rw [hready]; exact Bool.noConfusion),
        hfirst] at hroutine
      dsimp only at hroutine
      rw [Function.update_of_ne ht] at hroutine
      have hnone : ((obInitialize (σ := MmState) .zero).1.typePool t).deleteRoutine = none := rfl
      rw [hnone] at hroutine
      cases hroutine
  · exact fun _ _ => ⟨trivial, fun _ _ => ⟨trivial, trivial⟩⟩

/-- Tables of which one lies in memory that is usable. -/
def usableTables : ℕ → TableIx → U64 := fun f i =>
  if i ≠ 0 then 0
  else if f = 16 then 0x108003
  else if f = 0x108 then 0x83
  else 0

/-- A table of the firmware in usable memory is left to the allocator. -/
theorem firmware_table_left_free :
    ∃ m, sampleBoot usableTables = (m, .ok ()) ∧ ¬TablesOwned m := by
  have hok : (match (sampleBoot usableTables).2 with
    | .ok _ => true
    | .error _ => false) = true := by decide +kernel
  have htable : follow pteChild (sampleBoot usableTables).1.mem
      (pteFrame (sampleBoot usableTables).1.kernelRootTablePhysical) [0] = some 0x108 := by
    decide +kernel
  have hfree : mmpIsPageAllocated (sampleBoot usableTables).1 0x108 = false := by decide +kernel
  generalize sampleBoot usableTables = r at hok htable hfree ⊢
  obtain ⟨m, e | _⟩ := r
  · cases hok
  refine ⟨m, rfl, fun h => ?_⟩
  have hlive := h.allocated 0x108 ⟨_, Or.inl rfl, [0],
    ⟨0, ⟨by decide, by decide⟩, 1, by decide, by decide⟩, htable⟩
  rw [hfree] at hlive
  cases hlive

end MmSystem

end NtxKernel.Mm
