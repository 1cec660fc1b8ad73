import NtxKernel.Mm.Views

/-!
# What an operation leaves alone

The operations on an address space write the tables on the walks of the pages they touch, take free
pages, and give back the frames that were mapped at these pages.

* `Contained` is this footprint: what is neither a free page, nor a table, nor one of the frames
  that may be given back stays as it is.
* `Releasable` is a condition on the pages that are touched, under which no table is given back.
* `mmAsMapPage_contained` and its kin: every operation has its footprint.
-/

namespace NtxKernel.Mm

open Foundations

/-- The indices tell the pages apart. -/
def Separated (U : Set U64) : Prop :=
  ∀ va ∈ U, ∀ va' ∈ U, (∀ k ≤ 3, tableIndex va k = tableIndex va' k) → va = va'

theorem separated_userPages : Separated userPages := fun _ hva _ hva' h =>
  (userPages_ext hva hva').1 (page_eq_of_indices (userPages_lt hva) (userPages_lt hva') h)

theorem Separated.mono {U U' : Set U64} (h : Separated U') (hle : U ⊆ U') : Separated U :=
  fun va hva va' hva' => h va (hle hva) va' (hle hva')

/-- Mapping another page there, or a fault on it, may give back the frame of the entry. -/
def mayRelease (entry : U64) : Bool := hasFlag entry mmPtePresent || hasFlag entry mmPteSoftCow

/-- What no operation on pages changes. -/
structure SameGlobals (m m' : MmState) : Prop where
  trackedPages : m'.trackedPages = m.trackedPages
  kernelRoot : m'.kernelRootTablePhysical = m.kernelRootTablePhysical
  addressSpaceInUse : m'.addressSpaceInUse = m.addressSpaceInUse
  sectionType : m'.sectionType = m.sectionType
  rootFrame : ∀ x, m'.rootFrame x = m.rootFrame x

/-- An operation touched some pages of the space at `root`, and gave back only some frames. -/
structure Contained (U : Set U64) (roots : Set ℕ) (root : ℕ) (released : Set ℕ) (touched : Set U64)
    (m m' : MmState) : Prop where
  globals : SameGlobals m m'
  tables : TablesOk U roots m'
  live : ∀ f, ¬Free m f → f ∉ released → ¬Free m' f
  mem : ∀ f, ¬Free m f → f ∉ released → ¬IsTable U roots m f → m'.mem f = m.mem f
  reached : ∀ f, IsTable U roots m' f → IsTable U roots m f ∨ Free m f ∨ f ∈ released
  tracked : ∀ f, IsTable U roots m' f → IsTable U roots m f ∨ f < m.trackedPages
  view : ∀ va ∈ U, va ∉ touched → pteView m' root va = pteView m root va

/-- The frames that may be given back at some pages are in use, are no tables, and each is mapped
once at these pages. -/
structure Releasable (U : Set U64) (roots : Set ℕ) (root : ℕ) (released : Set ℕ) (m : MmState)
    (pages : Set U64) : Prop where
  subset : pages ⊆ U
  frames : ∀ va ∈ pages, mayRelease (pteView m root va) = true →
    pteFrame (pteView m root va) ∈ released ∧ ¬Free m (pteFrame (pteView m root va)) ∧
      ¬IsTable U roots m (pteFrame (pteView m root va))
  distinct : ∀ va ∈ pages, ∀ va' ∈ pages, mayRelease (pteView m root va) = true →
    mayRelease (pteView m root va') = true →
    pteFrame (pteView m root va) = pteFrame (pteView m root va') → va = va'

variable {U : Set U64} {roots : Set ℕ} {root : ℕ} {released : Set ℕ} {touched : Set U64}
  {m m' m'' : MmState} {a : AddressSpaceRef} {va : U64}

theorem SameGlobals.refl (m : MmState) : SameGlobals m m := ⟨rfl, rfl, rfl, rfl, fun _ => rfl⟩

theorem SameGlobals.trans (h : SameGlobals m m') (h' : SameGlobals m' m'') : SameGlobals m m'' where
  trackedPages := h'.trackedPages.trans h.trackedPages
  kernelRoot := h'.kernelRoot.trans h.kernelRoot
  addressSpaceInUse := h'.addressSpaceInUse.trans h.addressSpaceInUse
  sectionType := h'.sectionType.trans h.sectionType
  rootFrame x := (h'.rootFrame x).trans (h.rootFrame x)

theorem OnlyPages.sameGlobals (h : OnlyPages m m') : SameGlobals m m' := by
  obtain ⟨bitmap, refCount, next, mem, rfl⟩ := h
  exact ⟨rfl, rfl, rfl, rfl, fun _ => rfl⟩

theorem TablesOk.mono {U' : Set U64} {roots' : Set ℕ} (ok : TablesOk U' roots' m) (hU : U ⊆ U')
    (hroots : roots ⊆ roots') : TablesOk U roots m where
  tree r hr r' hr' p hp p' hp' := by
    obtain ⟨va, hva, n, hn, rfl⟩ := hp
    obtain ⟨va', hva', n', hn', rfl⟩ := hp'
    exact ok.tree r (hroots hr) r' (hroots hr') _ (vaPath_mem (hU hva) hn) _
      (vaPath_mem (hU hva') hn')
  live := by
    rintro f ⟨r, hr, p, ⟨va, hva, n, hn, rfl⟩, hf⟩
    exact ok.live f ⟨r, hroots hr, _, vaPath_mem (hU hva) hn, hf⟩

namespace Contained

theorem refl (ok : TablesOk U roots m) : Contained U roots root released touched m m where
  globals := .refl m
  tables := ok
  live _ h _ := h
  mem _ _ _ _ := rfl
  reached _ h := Or.inl h
  tracked _ h := Or.inl h
  view _ _ _ := rfl

theorem trans (h : Contained U roots root released touched m m')
    (h' : Contained U roots root released touched m' m'') :
    Contained U roots root released touched m m'' where
  globals := h.globals.trans h'.globals
  tables := h'.tables
  live f hf hnot := h'.live f (h.live f hf hnot) hnot
  mem f hf hnot htable := by
    refine (h'.mem f (h.live f hf hnot) hnot fun ht => ?_).trans (h.mem f hf hnot htable)
    rcases h.reached f ht with ht | hfree | hrel
    · exact htable ht
    · exact hf hfree
    · exact hnot hrel
  reached f hf := by
    rcases h'.reached f hf with ht | hfree | hrel
    · exact h.reached f ht
    · by_cases hm : Free m f
      · exact Or.inr (Or.inl hm)
      · by_cases hrel : f ∈ released
        · exact Or.inr (Or.inr hrel)
        · exact absurd hfree (h.live f hm hrel)
    · exact Or.inr (Or.inr hrel)
  tracked f hf := by
    rcases h'.tracked f hf with ht | hlt
    · exact h.tracked f ht
    · exact Or.inr (h.globals.trackedPages ▸ hlt)
  view va hva hnot := (h'.view va hva hnot).trans (h.view va hva hnot)

theorem mono {released' : Set ℕ} {touched' : Set U64}
    (h : Contained U roots root released touched m m') (hrel : released ⊆ released')
    (htouched : touched ⊆ touched') : Contained U roots root released' touched' m m' where
  globals := h.globals
  tables := h.tables
  live f hf hnot := h.live f hf fun hin => hnot (hrel hin)
  mem f hf hnot := h.mem f hf fun hin => hnot (hrel hin)
  reached f hf := (h.reached f hf).imp_right fun ho => ho.imp_right fun hin => hrel hin
  tracked := h.tracked
  view va hva hnot := h.view va hva fun hin => hnot (htouched hin)

/-- What leaves the memory alone, and gives back some frames that are no tables. -/
theorem of_mem_eq (ok : TablesOk U roots m) (hglobals : SameGlobals m m')
    (hmem : m'.mem = m.mem) (hlive : ∀ f, ¬Free m f → f ∉ released → ¬Free m' f)
    (htable : ∀ f, f ∈ released → IsTable U roots m f → ¬Free m' f) :
    Contained U roots root released touched m m' where
  globals := hglobals
  tables := by
    refine ⟨?_, ?_⟩
    · have htree := ok.tree
      rw [← hmem] at htree
      exact htree
    · intro f hf
      rw [IsTable, Reached, hmem] at hf
      by_cases hrel : f ∈ released
      · exact htable f hrel hf
      · exact hlive f (ok.live f hf) hrel
  live := hlive
  mem f _ _ _ := by rw [hmem]
  reached f hf := by
    rw [IsTable, Reached, hmem] at hf
    exact Or.inl hf
  tracked f hf := by
    rw [IsTable, Reached, hmem] at hf
    exact Or.inl hf
  view va _ _ := by simp only [pteView, MmState.tableAt, hmem]

end Contained

theorem Walked.contained (h : Walked U roots m m') :
    ∀ r ∈ roots, Contained U roots r released touched m m' := fun r hr =>
  { globals := h.pages.sameGlobals
    tables := h.tables
    live := fun f hf _ => h.live f hf
    mem := fun f hf _ => h.mem f hf
    reached := fun f hf => (h.reached f hf).imp_right Or.inl
    tracked := fun f hf => (h.reached f hf).imp_right And.left
    view := fun va hva _ => h.view r hr va hva }

/-- After one page is done, the others may be given back still. -/
theorem Releasable.step {pages : Set U64} (h : Releasable U roots root released m pages)
    (hva : va ∈ pages)
    (hstep : Contained U roots root
      {f | mayRelease (pteView m root va) = true ∧ f = pteFrame (pteView m root va)} {va} m m') :
    Releasable U roots root released m' (pages \ {va}) := by
  have hview : ∀ va' ∈ pages \ {va}, pteView m' root va' = pteView m root va' :=
    fun va' hva' => hstep.view va' (h.subset hva'.1) hva'.2
  refine ⟨fun va' hva' => h.subset hva'.1, ?_, ?_⟩
  · intro va' hva' hmay
    rw [hview va' hva'] at hmay ⊢
    obtain ⟨hrel, hlive, htable⟩ := h.frames va' hva'.1 hmay
    have hother : pteFrame (pteView m root va') ∉
        {f | mayRelease (pteView m root va) = true ∧ f = pteFrame (pteView m root va)} := by
      rintro ⟨hmay', heq⟩
      exact hva'.2 (h.distinct va' hva'.1 va hva hmay hmay' heq)
    refine ⟨hrel, hstep.live _ hlive hother, fun ht => ?_⟩
    rcases hstep.reached _ ht with ht | hfree | hin
    · exact htable ht
    · exact hlive hfree
    · exact hother hin
  · intro va' hva' va'' hva'' hmay hmay'
    rw [hview va' hva'] at hmay ⊢
    rw [hview va'' hva''] at hmay' ⊢
    exact h.distinct va' hva'.1 va'' hva''.1 hmay hmay'

theorem Releasable.mono {pages pages' : Set U64} (h : Releasable U roots root released m pages')
    (hle : pages ⊆ pages') : Releasable U roots root released m pages where
  subset _ hva := h.subset (hle hva)
  frames va hva := h.frames va (hle hva)
  distinct va hva va' hva' := h.distinct va (hle hva) va' (hle hva')

theorem Releasable.congr {pages : Set U64} (h : Releasable U roots root released m pages)
    (hstep : Contained U roots root ∅ ∅ m m') : Releasable U roots root released m' pages := by
  have hview : ∀ va ∈ pages, pteView m' root va = pteView m root va :=
    fun va hva => hstep.view va (h.subset hva) (Set.notMem_empty va)
  refine ⟨h.subset, ?_, ?_⟩
  · intro va hva hmay
    rw [hview va hva] at hmay ⊢
    obtain ⟨hrel, hlive, htable⟩ := h.frames va hva hmay
    refine ⟨hrel, hstep.live _ hlive (Set.notMem_empty _), fun ht => ?_⟩
    rcases hstep.reached _ ht with ht | hfree | hin
    · exact htable ht
    · exact hlive hfree
    · exact hin
  · intro va hva va' hva' hmay hmay'
    rw [hview va hva] at hmay ⊢
    rw [hview va' hva'] at hmay' ⊢
    exact h.distinct va hva va' hva' hmay hmay'

/-! ## Pages of the allocator -/

/-- Giving back a reference to a page frees that page, if any. -/
theorem mmpReleasePage_cases (m : MmState) (pa : U64) :
    (mmpReleasePage m pa).mem = m.mem ∧
      ∀ f, ¬Free m f → f ≠ pa.toNat / mmPageSize → ¬Free (mmpReleasePage m pa) f := by
  rw [mmpReleasePage]
  dsimp only
  split
  · exact ⟨rfl, fun f hf _ => hf⟩
  · split
    · refine ⟨rfl, fun f hf hne hfree => hf ⟨hfree.1, ?_⟩⟩
      have hsplit := hfree.2
      rw [mmpIsPageAllocated_setPageFree, decide_eq_false hne, Bool.not_false,
        Bool.true_and] at hsplit
      exact hsplit
    · exact ⟨rfl, fun f hf _ => hf⟩

theorem mmpRetainPage_contained (ok : TablesOk U roots m) (pa : U64) :
    Contained U roots root released touched m (mmpRetainPage m pa) := by
  rw [mmpRetainPage]
  split
  · exact .of_mem_eq ok ⟨rfl, rfl, rfl, rfl, fun _ => rfl⟩ rfl (fun f hf _ => hf) fun f _ hf => ok.live f hf
  · exact .refl ok

/-- Giving back a reference to a page that is no table. -/
theorem mmpReleasePage_contained (ok : TablesOk U roots m) {pa : U64}
    (htable : ¬IsTable U roots m (pa.toNat / mmPageSize)) :
    Contained U roots root {pa.toNat / mmPageSize} touched m (mmpReleasePage m pa) := by
  have hpages := OnlyPages.mmpReleasePage m pa
  obtain ⟨hmem, hlive⟩ := mmpReleasePage_cases m pa
  refine .of_mem_eq ok hpages.sameGlobals hmem (fun f hf hne => hlive f hf hne) ?_
  rintro f rfl hf
  exact absurd hf htable

/-- Handing out a page and filling it. -/
theorem takePage_contained (ok : TablesOk U roots m) {page : ℕ} (hpage : page < m.trackedPages)
    (hfree : mmpIsPageAllocated m page = false) (words : TableIx → U64) (hroot : root ∈ roots) :
    Contained U roots root ∅ touched m ((m.takePage page 1).fillFrame page words) := by
  have hnot : ∀ f, ¬Free m f → f ≠ page := by
    rintro f hf rfl
    exact hf ⟨hpage, hfree⟩
  have hlive : ∀ f, ¬Free m f → ¬Free ((m.takePage page 1).fillFrame page words) f := by
    intro f hf hf'
    obtain ⟨hlt, halloc⟩ := hf'
    have hsplit : mmpIsPageAllocated (m.takePage page 1) f = false := halloc
    rw [MmState.allocated_takePage, Bool.or_eq_false_iff] at hsplit
    exact hf ⟨hlt, hsplit.2⟩
  have hmem : ∀ f, ¬Free m f → ((m.takePage page 1).fillFrame page words).mem f = m.mem f :=
    fun f hf => Function.update_of_ne (hnot f hf) _ _
  have hmem' := fun f hf => hmem f (ok.live f hf)
  obtain ⟨htables, hview⟩ := ok.quiet hmem' fun f hf => hlive f (ok.live f hf)
  exact
    { globals := ⟨rfl, rfl, rfl, rfl, fun _ => rfl⟩
      tables := htables
      live := fun f hf _ => hlive f hf
      mem := fun f hf _ _ => hmem f hf
      reached := fun f hf => Or.inl (isTable_of_quiet hmem' hf)
      tracked := fun f hf => Or.inl (isTable_of_quiet hmem' hf)
      view := fun va hva _ => hview root hroot va hva }

/-- Writing the entry of a page. -/
theorem writeLeaf_contained (ok : TablesOk U roots m) (hU : Separated U) (hroot : root ∈ roots)
    (hva : va ∈ U) {t : ℕ} (ht : m.tableAt root va 3 = some t) (entry : U64) :
    Contained U roots root released {va} m (m.writeEntry t (tableIndex va 3) entry) := by
  obtain ⟨htables, hfollow, hview⟩ := ok.writeLeaf hroot hva ht entry
  have htable : IsTable U roots m t := ⟨root, hroot, _, vaPath_mem hva le_rfl, ht⟩
  exact
    { globals := ⟨rfl, rfl, rfl, rfl, fun _ => rfl⟩
      tables := htables
      live := fun f hf _ => hf
      mem := fun f _ _ hnot => Function.update_of_ne (by rintro rfl; exact hnot htable) _ _
      reached := by
        rintro f ⟨r, hr, p, hp, hf⟩
        exact Or.inl ⟨r, hr, p, hp, (hfollow r hr p hp).symm.trans hf⟩
      tracked := by
        rintro f ⟨r, hr, p, hp, hf⟩
        exact Or.inl ⟨r, hr, p, hp, (hfollow r hr p hp).symm.trans hf⟩
      view := by
        intro va' hva' hne
        rw [hview root hroot va' hva', if_neg]
        rintro ⟨ht', hi⟩
        have hpath := ok.depth hroot hroot hva' hva le_rfl le_rfl ht' ht
        refine hne (hU va' hva' va hva fun k hk => ?_)
        by_cases hk3 : k = 3
        · rw [hk3]
          exact hi
        · exact tableIndex_of_vaPath_eq hpath (by omega) }

/-! ## Walks -/

/-- A table on a walk has tables above it. -/
theorem tableAt_of_le {n k : ℕ} (hk : k ≤ n) {t : ℕ} (ht : m.tableAt root va n = some t) :
    ∃ u, m.tableAt root va k = some u := by
  induction n generalizing t with
  | zero =>
    obtain rfl : k = 0 := by omega
    exact ⟨t, ht⟩
  | succ n ih =>
    by_cases hkn : k = n + 1
    · exact ⟨t, by rw [hkn, ht]⟩
    · rw [tableAt_succ, Option.bind_eq_some_iff] at ht
      obtain ⟨u, hu, -⟩ := ht
      exact ih (by omega) hu

/-- A walk to a page whose table is there takes no free page. -/
theorem mmpWalkToPte_takes_nothing (ok : TablesOk U roots m) (hroot : m.rootFrame a ∈ roots)
    (hva : va ∈ U) {t : ℕ} (ht : m.tableAt (m.rootFrame a) va 3 = some t) (create : Bool) {f : ℕ}
    (hf : Free m f) : Free (mmpWalkToPte m a va create).1 f := by
  have ok' : TablesOk {va} {m.rootFrame a} m :=
    ok.mono (Set.singleton_subset_iff.2 hva) (Set.singleton_subset_iff.2 hroot)
  have hw := (mmpWalkToPte_walked ok' rfl rfl create).1
  by_contra hnot
  obtain ⟨-, r, rfl, p, ⟨va', rfl, n, hn, rfl⟩, hfollow⟩ := hw.taken f hf hnot
  -- the table on the walk was there before
  obtain ⟨u, hu⟩ := tableAt_of_le hn ht
  have hsame := hw.follow _ rfl _ (vaPath_mem (Set.mem_singleton _) hn) u hu
  obtain rfl : u = f := Option.some.inj (hsame.symm.trans hfollow)
  exact ok.live u ⟨_, hroot, _, vaPath_mem hva hn, hu⟩ hf

/-- A frame that is no table before a walk is none after it, if the walk cannot take it. -/
theorem not_isTable_walk (ok : TablesOk U roots m) (hroot : m.rootFrame a ∈ roots) (hva : va ∈ U)
    (create : Bool) {f : ℕ} (hnot : ¬IsTable U roots m f)
    (hfree : ¬Free m f ∨ ∃ t, m.tableAt (m.rootFrame a) va 3 = some t) :
    ¬IsTable U roots (mmpWalkToPte m a va create).1 f := by
  have hw := (mmpWalkToPte_walked ok hroot hva create).1
  intro hf
  rcases hw.reached f hf with ht | hm
  · exact hnot ht
  · rcases hfree with hlive | ⟨t, ht⟩
    · exact hlive hm
    · exact hw.tables.live f hf (mmpWalkToPte_takes_nothing ok hroot hva ht create hm)

/-! ## The operations -/

/-- The frame that is given back at a page. -/
def releasedAt (m : MmState) (root : ℕ) (va : U64) : Set ℕ :=
  {f | mayRelease (pteView m root va) = true ∧ f = pteFrame (pteView m root va)}

/-- Mapping a page. -/
theorem mmAsMapPage_contained (ok : TablesOk U roots m) (hU : Separated U)
    (hroot : m.rootFrame a ∈ roots) (hva : va ∈ U) (pa flags : U64)
    (hframe : hasFlag (pteView m (m.rootFrame a) va) mmPtePresent = true →
      ¬IsTable U roots m (pteFrame (pteView m (m.rootFrame a) va)) ∧
        (¬Free m (pteFrame (pteView m (m.rootFrame a) va)) ∨
          ∃ t, m.tableAt (m.rootFrame a) va 3 = some t)) :
    Contained U roots (m.rootFrame a) (releasedAt m (m.rootFrame a) va) {va} m
      (mmAsMapPage m a va pa flags).1 := by
  have hw := (mmpWalkToPte_walked ok hroot hva true).1
  have hcontained : Contained U roots (m.rootFrame a) (releasedAt m (m.rootFrame a) va) {va} m _ :=
    hw.contained _ hroot
  rw [mmAsMapPage]
  split
  · exact .refl ok
  have hnot := fun h => not_isTable_walk ok hroot hva true (hframe h).1 (hframe h).2
  rcases mmpWalkToPte_spec ok hroot hva true with ⟨m₁, e, -, heq⟩ | ⟨m₁, t, -, ht, hpte, heq⟩
  · rw [heq] at hcontained ⊢
    exact hcontained
  rw [heq] at hcontained hnot ⊢
  dsimp only at hcontained hnot ⊢
  rw [hpte]
  have hroot₁ := hcontained.globals.rootFrame a
  by_cases hpresent : hasFlag (pteView m (m.rootFrame a) va) mmPtePresent = true
  · rw [if_pos hpresent]
    have hrelease : Contained U roots (m.rootFrame a) (releasedAt m (m.rootFrame a) va) {va} m₁
        (mmpReleasePage m₁ (pteView m (m.rootFrame a) va &&& mmPteAddrMask)) := by
      refine (mmpReleasePage_contained hcontained.tables (hnot hpresent)).mono ?_ le_rfl
      rintro f rfl
      exact ⟨by rw [mayRelease, hpresent, Bool.true_or], rfl⟩
    refine hcontained.trans (hrelease.trans (writeLeaf_contained hrelease.tables hU hroot hva ?_ _))
    have hmem := (mmpReleasePage_cases m₁ (pteView m (m.rootFrame a) va &&& mmPteAddrMask)).1
    rw [MmState.tableAt, hmem]
    exact ht
  · rw [if_neg hpresent]
    exact hcontained.trans (writeLeaf_contained hcontained.tables hU hroot hva ht _)

/-- Unmapping a page. -/
theorem mmAsUnmapPage_contained (ok : TablesOk U roots m) (hU : Separated U)
    (hroot : m.rootFrame a ∈ roots) (hva : va ∈ U)
    (hframe : hasFlag (pteView m (m.rootFrame a) va) mmPtePresent = true →
      ¬IsTable U roots m (pteFrame (pteView m (m.rootFrame a) va)) ∧
        ¬Free m (pteFrame (pteView m (m.rootFrame a) va))) :
    Contained U roots (m.rootFrame a) (releasedAt m (m.rootFrame a) va) {va} m
      (mmAsUnmapPage m a va).1 := by
  have hw := (mmpWalkToPte_walked ok hroot hva false).1
  have hcontained : Contained U roots (m.rootFrame a) (releasedAt m (m.rootFrame a) va) {va} m _ :=
    hw.contained _ hroot
  rw [mmAsUnmapPage]
  split
  · exact .refl ok
  have hnot := fun h => not_isTable_walk ok hroot hva false (hframe h).1 (.inl (hframe h).2)
  rcases mmpWalkToPte_spec ok hroot hva false with ⟨m₁, e, -, heq⟩ | ⟨m₁, t, -, ht, hpte, heq⟩
  · rw [heq] at hcontained ⊢
    exact hcontained
  rw [heq] at hcontained hnot ⊢
  dsimp only at hcontained hnot ⊢
  rw [hpte]
  by_cases hpresent : hasFlag (pteView m (m.rootFrame a) va) mmPtePresent = false
  · rw [if_pos hpresent]
    exact hcontained
  rw [if_neg hpresent]
  rw [Bool.not_eq_false] at hpresent
  have hrelease : Contained U roots (m.rootFrame a) (releasedAt m (m.rootFrame a) va) {va} m₁
      (mmpReleasePage m₁ (pteView m (m.rootFrame a) va &&& mmPteAddrMask)) := by
    refine (mmpReleasePage_contained hcontained.tables (hnot hpresent)).mono ?_ le_rfl
    rintro f rfl
    exact ⟨by rw [mayRelease, hpresent, Bool.true_or], rfl⟩
  refine hcontained.trans (hrelease.trans (writeLeaf_contained hrelease.tables hU hroot hva ?_ _))
  have hmem := (mmpReleasePage_cases m₁ (pteView m (m.rootFrame a) va &&& mmPteAddrMask)).1
  rw [MmState.tableAt, hmem]
  exact ht

/-- Protecting a page. -/
theorem mmAsProtectPage_contained (ok : TablesOk U roots m) (hU : Separated U)
    (hroot : m.rootFrame a ∈ roots) (hva : va ∈ U) (newFlags : U64) :
    Contained U roots (m.rootFrame a) released {va} m (mmAsProtectPage m a va newFlags).1 := by
  rcases mmAsProtectPage_spec ok hroot hva newFlags with
    ⟨m₁, e, hw, heq⟩ | ⟨m₁, t, hw, ht, -, heq⟩
  · rw [heq]
    exact hw.contained _ hroot
  · rw [heq]
    exact (hw.contained _ hroot).trans (writeLeaf_contained hw.tables hU hroot hva ht _)

/-- A query. -/
theorem mmAsQueryPte_contained (ok : TablesOk U roots m) (hroot : m.rootFrame a ∈ roots)
    (hva : va ∈ U) :
    Contained U roots (m.rootFrame a) released touched m (mmAsQueryPte m a va).1 :=
  (mmAsQueryPte_spec ok hroot hva).1.contained _ hroot

/-- Mapping a fresh page. -/
theorem mmMapZeroPage_contained (ok : TablesOk U roots m) (hU : Separated U)
    (hroot : m.rootFrame a ∈ roots) (hva : va ∈ U) (protection flags : U32)
    (hframe : hasFlag (pteView m (m.rootFrame a) va) mmPtePresent = true →
      ¬IsTable U roots m (pteFrame (pteView m (m.rootFrame a) va)) ∧
        ¬Free m (pteFrame (pteView m (m.rootFrame a) va))) :
    Contained U roots (m.rootFrame a) (releasedAt m (m.rootFrame a) va) {va} m
      (mmMapZeroPage m a va protection flags).1 := by
  rw [mmMapZeroPage]
  rcases mmAllocPage_cases m with ⟨e, heq⟩ | ⟨page, hpage, hfree, -, heq⟩
  · rw [heq]
    exact .refl ok
  rw [heq]
  dsimp only
  rw [pteFrame_pageAddress (lt_of_lt_trackedPages hpage)]
  have htake : Contained U roots (m.rootFrame a) ∅ ∅ m _ :=
    takePage_contained ok hpage hfree (fun _ => 0) hroot
  generalize (m.takePage page 1).fillFrame page (fun _ => 0) = m₁ at htake ⊢
  have hroot₁ := htake.globals.rootFrame a
  have hview := htake.view va hva (Set.notMem_empty va)
  have hmap := mmAsMapPage_contained htake.tables hU (a := a) (by rw [hroot₁]; exact hroot) hva
    (pageAddress page) (mmpProtectionToPte protection flags) ?_
  · rw [hroot₁, releasedAt, hview] at hmap
    exact (htake.mono (Set.empty_subset _) (Set.empty_subset _)).trans hmap
  · rw [hroot₁, hview]
    intro hpresent
    obtain ⟨htable, hlive⟩ := hframe hpresent
    refine ⟨fun ht => ?_, .inl (htake.live _ hlive (Set.notMem_empty _))⟩
    rcases htake.reached _ ht with ht | hm | hin
    · exact htable ht
    · exact hlive hm
    · exact hin

/-- Writing to an address space but for its root. -/
theorem modifyAddressSpace_contained (ok : TablesOk U roots m) (f : MmAddressSpace → MmAddressSpace)
    (hf : ∀ space, (f space).rootTablePhysical = space.rootTablePhysical) :
    Contained U roots root released touched m (m.modifyAddressSpace a f) := by
  refine .of_mem_eq ok ⟨rfl, rfl, rfl, rfl, fun x => ?_⟩ rfl (fun g hg _ => hg)
    fun g _ hg => ok.live g hg
  rw [MmState.rootFrame, MmState.rootFrame, modifyAddressSpace_pool]
  by_cases hx : x = a
  · rw [hx, Function.update_self, hf]
  · rw [Function.update_of_ne hx]

/-- The pages of a wired region. -/
def wiredPages (base : U64) (n : ℕ) : Set U64 :=
  {va | ∃ k < n, va = base + BitVec.ofNat 64 (k * mmPageSize)}

/-- Behind the first page of a wired region lie the others. -/
theorem wiredPages_succ {base : U64} {n : ℕ} (hn : (n + 1) * mmPageSize < 2 ^ 64) :
    wiredPages (base + 4096) n ⊆ wiredPages base (n + 1) \ {base} := by
  have hpage : mmPageSize = 4096 := rfl
  rintro va ⟨k, hk, rfl⟩
  have hnext : base + 4096 + BitVec.ofNat 64 (k * mmPageSize) =
      base + BitVec.ofNat 64 ((k + 1) * mmPageSize) := by
    rw [Nat.succ_mul, BitVec.ofNat_add, BitVec.add_assoc]
    exact congrArg (base + ·) (BitVec.add_comm _ _)
  rw [hnext]
  refine ⟨⟨k + 1, Nat.succ_lt_succ hk, rfl⟩, fun hsame => ?_⟩
  -- the pages of the region differ
  have hzero := congrArg (· - base) (Set.mem_singleton_iff.1 hsame)
  simp only [BitVec.sub_self] at hzero
  rw [BitVec.add_comm, BitVec.add_sub_cancel] at hzero
  have hnat := congrArg BitVec.toNat hzero
  rw [BitVec.toNat_ofNat, Nat.mod_eq_of_lt (lt_of_le_of_lt
    (Nat.mul_le_mul_right mmPageSize (Nat.succ_le_succ (Nat.le_of_lt hk))) hn)] at hnat
  exact absurd hnat (Nat.mul_ne_zero (Nat.succ_ne_zero k) (by decide))

/-- The loop over the pages of a wired region. -/
theorem mmMapWired_contained {slot : Fin mmMaxVaRegions} {virtualBase : U64}
    {protection flags : U32} (hU : Separated U) (hroots : root ∈ roots) (n : ℕ) (cursor : U64)
    (ok : TablesOk U roots m) (hroot : m.rootFrame a = root)
    (hpages : Releasable U roots root released m (wiredPages (virtualBase + cursor) n))
    (hn : n * mmPageSize < 2 ^ 64) :
    Contained U roots root released (wiredPages (virtualBase + cursor) n) m
      (mmMapWired a slot virtualBase protection flags n cursor m).1 := by
  induction n generalizing cursor m with
  | zero => exact .refl ok
  | succ n ih =>
    rw [mmMapWired]
    have hfirst : virtualBase + cursor ∈ wiredPages (virtualBase + cursor) (n + 1) :=
      ⟨0, Nat.succ_pos n, by rw [Nat.zero_mul]; exact (BitVec.add_zero _).symm⟩
    have hmap := mmMapZeroPage_contained (a := a) ok hU (by rw [hroot]; exact hroots)
      (hpages.subset hfirst) protection flags (by
        rw [hroot]
        intro hpresent
        obtain ⟨-, hlive, htable⟩ := hpages.frames _ hfirst (by
          rw [mayRelease, hpresent, Bool.true_or])
        exact ⟨htable, hlive⟩)
    rw [hroot] at hmap
    have hrelease : releasedAt m root (virtualBase + cursor) ⊆ released := by
      rintro f ⟨hmay, rfl⟩
      exact (hpages.frames _ hfirst hmay).1
    generalize mmMapZeroPage m a (virtualBase + cursor) protection flags = r at hmap ⊢
    obtain ⟨m₁, e | _⟩ := r
    · exact hmap.mono hrelease (Set.singleton_subset_iff.2 hfirst)
    dsimp only at hmap ⊢
    have hcount : ∀ released touched, Contained U roots root released touched m₁
        (m₁.modifyRegion a slot fun r => { r with committedPages := r.committedPages + 1 }) :=
      fun _ _ => modifyAddressSpace_contained hmap.tables _ fun _ => rfl
    generalize m₁.modifyRegion a slot _ = m₂ at hcount ⊢
    have hsubset : wiredPages (virtualBase + cursor + 4096) n ⊆ _ := wiredPages_succ hn
    have hnext : virtualBase + (cursor + 4096) = virtualBase + cursor + 4096 :=
      (BitVec.add_assoc ..).symm
    rw [← hnext] at hsubset
    have hrest := ih (cursor + 4096) (hcount ∅ ∅).tables
      (((hcount ∅ ∅).globals.rootFrame a).trans ((hmap.globals.rootFrame a).trans hroot))
      (((hpages.step hfirst hmap).congr (hcount ∅ ∅)).mono hsubset)
      (lt_of_le_of_lt (Nat.mul_le_mul_right _ (Nat.le_succ n)) hn)
    have hall : wiredPages (virtualBase + (cursor + 4096)) n ⊆
        wiredPages (virtualBase + cursor) (n + 1) := fun va hva => (hsubset hva).1
    exact ((hmap.mono hrelease (Set.singleton_subset_iff.2 hfirst)).trans (hcount _ _)).trans
      (hrest.mono le_rfl hall)

/-- The pages that a call of `MmMapAnonymous` maps: those of a wired region. -/
def anonPages (m : MmState) (a : AddressSpaceRef) (size : U64) (flags : U32) : Set U64 :=
  {va | hasFlag (effectiveFlags flags) mmRegionFlagWired = true ∧
    va ∈ wiredPages (mmpAlignUp (m.addressSpacePool a).nextUserBase 4096)
      ((mmpAlignSizeToPage size).toNat / mmPageSize)}

/-- `MmMapAnonymous`. -/
theorem mmMapAnonymous_contained (ok : TablesOk U roots m) (hU : Separated U)
    (hroot : m.rootFrame a = root) (hroots : root ∈ roots) {size : U64} {protection flags : U32}
    (hpages : Releasable U roots root released m (anonPages m a size flags)) :
    Contained U roots root released (anonPages m a size flags) m
      (mmMapAnonymous m a size protection flags).1 := by
  rw [mmMapAnonymous]
  split
  · exact .refl ok
  split
  swap
  · exact .refl ok
  rename_i hcount
  dsimp only
  have hadd : ∀ {m₁ : MmState} (virtualBase mapSize : U64), TablesOk U roots m₁ →
      Contained U roots root released (anonPages m a size flags) m₁
        (m₁.addRegion a virtualBase mapSize) :=
    fun _ _ ok₁ => modifyAddressSpace_contained ok₁ _ fun _ => rfl
  have hwrite : ∀ released touched, Contained U roots root released touched m
      (m.modifyRegion a ⟨_, hcount⟩ fun _ => anonRegion
        (mmpAlignUp (m.addressSpacePool a).nextUserBase 4096) (mmpAlignSizeToPage size)
        protection flags) :=
    fun _ _ => modifyAddressSpace_contained ok _ fun _ => rfl
  generalize m.modifyRegion a ⟨_, hcount⟩ _ = m₁ at hwrite ⊢
  have hflags : (anonRegion (mmpAlignUp (m.addressSpacePool a).nextUserBase 4096)
    (mmpAlignSizeToPage size) protection flags).flags = effectiveFlags flags := rfl
  by_cases hwired : hasFlag (effectiveFlags flags) mmRegionFlagWired = true
  swap
  · rw [hflags, if_neg hwired]
    exact (hwrite _ _).trans (hadd _ _ (hwrite ∅ ∅).tables)
  rw [hflags, if_pos hwired]
  have hsame : anonPages m a size flags =
      wiredPages (mmpAlignUp (m.addressSpacePool a).nextUserBase 4096 + 0)
        ((mmpAlignSizeToPage size).toNat / mmPageSize) := by
    rw [show mmpAlignUp (m.addressSpacePool a).nextUserBase 4096 + 0 =
      mmpAlignUp (m.addressSpacePool a).nextUserBase 4096 from BitVec.add_zero _]
    ext va
    exact ⟨fun h => h.2, fun h => ⟨hwired, h⟩⟩
  have hrun : Contained U roots root released _ m₁
      (mmMapWired a ⟨_, hcount⟩ (mmpAlignUp (m.addressSpacePool a).nextUserBase 4096)
        (protection ||| mmProtUser) (effectiveFlags flags)
        ((mmpAlignSizeToPage size).toNat / mmPageSize) 0 m₁).1 :=
    mmMapWired_contained hU hroots _ 0 (hwrite ∅ ∅).tables
      (((hwrite ∅ ∅).globals.rootFrame a).trans hroot)
      (by rw [← hsame]; exact hpages.congr (hwrite ∅ ∅))
      (lt_of_le_of_lt (Nat.div_mul_le_self _ _) (mmpAlignSizeToPage size).isLt)
  rw [← hsame] at hrun
  have hprotection : (anonRegion (mmpAlignUp (m.addressSpacePool a).nextUserBase 4096)
    (mmpAlignSizeToPage size) protection flags).protection = protection ||| mmProtUser := rfl
  rw [hprotection]
  generalize mmMapWired a ⟨_, hcount⟩ _ (protection ||| mmProtUser) (effectiveFlags flags) _ 0 m₁ =
    r at hrun ⊢
  obtain ⟨m₂, e | _⟩ := r
  · exact (hwrite _ _).trans hrun
  · exact (hwrite _ _).trans (hrun.trans (hadd _ _ hrun.tables))

/-! ## Page faults -/

/-- A query that succeeds has found the table of the page. -/
theorem mmAsQueryPte_found (ok : TablesOk U roots m) (hroot : m.rootFrame a ∈ roots) (hva : va ∈ U)
    {pte : U64} (h : (mmAsQueryPte m a va).2 = .ok pte) :
    ∃ t, (mmAsQueryPte m a va).1.tableAt (m.rootFrame a) va 3 = some t := by
  rw [mmAsQueryPte] at h ⊢
  split at h
  · cases h
  rename_i hready
  rw [if_neg hready]
  rcases mmpWalkToPte_spec ok hroot hva false with ⟨m₁, e, -, heq⟩ | ⟨m₁, t, -, ht, -, heq⟩
  · rw [heq] at h
    cases h
  · rw [heq]
    exact ⟨t, ht⟩

/-- Handing out a page moves no table. -/
theorem tableAt_takePage (ok : TablesOk U roots m) (hroot : root ∈ roots) (hva : va ∈ U) {page : ℕ}
    (hpage : page < m.trackedPages) (hfree : mmpIsPageAllocated m page = false)
    (words : TableIx → U64) :
    ((m.takePage page 1).fillFrame page words).tableAt root va 3 = m.tableAt root va 3 := by
  have hother : ∀ f, IsTable U roots m f →
      ((m.takePage page 1).fillFrame page words).mem f = m.mem f := by
    intro f hf
    refine Function.update_of_ne ?_ _ _
    rintro rfl
    exact ok.live f hf ⟨hpage, hfree⟩
  exact follow_of_not_reached (tablePaths_closed U) hroot hother (vaPath_mem hva le_rfl)

/-- A write to a copy-on-write page. The copy gives back the old frame, and mapping the new one
gives it back once more. -/
theorem mmpCopyOnWrite_contained (ok : TablesOk U roots m) (hU : Separated U)
    (hroot : m.rootFrame a ∈ roots) (hva : va ∈ U)
    (htable : ∃ t, m.tableAt (m.rootFrame a) va 3 = some t)
    (hcow : hasFlag (pteView m (m.rootFrame a) va) mmPteSoftCow = true)
    (hframe : ¬IsTable U roots m (pteFrame (pteView m (m.rootFrame a) va)) ∧
      ¬Free m (pteFrame (pteView m (m.rootFrame a) va))) :
    Contained U roots (m.rootFrame a) (releasedAt m (m.rootFrame a) va) {va} m
      (mmpCopyOnWrite m a va (pteView m (m.rootFrame a) va)).1 := by
  rw [mmpCopyOnWrite]
  dsimp only
  split
  · exact mmAsProtectPage_contained ok hU hroot hva _
  rcases mmAllocPage_cases m with ⟨e, heq⟩ | ⟨page, hpage, hfree, -, heq⟩
  · rw [heq]
    exact .refl ok
  rw [heq]
  dsimp only
  rw [pteFrame_pageAddress (lt_of_lt_trackedPages hpage)]
  generalize (m.takePage page 1).mem (pteFrame (pteView m (m.rootFrame a) va &&& mmPteAddrMask)) =
    words
  have htake : Contained U roots (m.rootFrame a) ∅ ∅ m _ :=
    takePage_contained ok hpage hfree words hroot
  have htables := tableAt_takePage ok hroot hva hpage hfree words
  generalize (m.takePage page 1).fillFrame page words = m₁ at htake htables ⊢
  have hview := htake.view va hva (Set.notMem_empty va)
  have hnot : ¬IsTable U roots m₁ (pteFrame (pteView m (m.rootFrame a) va)) := by
    intro ht
    rcases htake.reached _ ht with ht | hm | hin
    · exact hframe.1 ht
    · exact hframe.2 hm
    · exact hin
  have hmem := (mmpReleasePage_cases m₁ (pteView m (m.rootFrame a) va &&& mmPteAddrMask)).1
  have hrelease : Contained U roots (m.rootFrame a) _ ∅ m₁
      (mmpReleasePage m₁ (pteView m (m.rootFrame a) va &&& mmPteAddrMask)) :=
    mmpReleasePage_contained htake.tables hnot
  generalize mmpReleasePage m₁ (pteView m (m.rootFrame a) va &&& mmPteAddrMask) = m₂
    at hrelease hmem ⊢
  have hroot₂ := (hrelease.globals.rootFrame a).trans (htake.globals.rootFrame a)
  have hview₂ := (hrelease.view va hva (Set.notMem_empty va)).trans hview
  have hmap := mmAsMapPage_contained hrelease.tables hU (a := a) (by rw [hroot₂]; exact hroot) hva
    (pageAddress page) (cowFlags (pteView m (m.rootFrame a) va)) ?_
  · have hreleased : releasedAt m₂ (m.rootFrame a) va = releasedAt m (m.rootFrame a) va := by
      rw [releasedAt, releasedAt, hview₂]
    rw [hroot₂, hreleased] at hmap
    refine (htake.mono (Set.empty_subset _) (Set.empty_subset _)).trans
      ((hrelease.mono ?_ (Set.empty_subset _)).trans hmap)
    rintro f rfl
    exact ⟨by rw [mayRelease, hcow, Bool.or_true], rfl⟩
  · rw [hroot₂, hview₂]
    intro _
    refine ⟨fun ht => hnot ?_, .inr ?_⟩
    · rw [IsTable, Reached, hmem] at ht
      exact ht
    · obtain ⟨t, ht⟩ := htable
      refine ⟨t, ?_⟩
      rw [MmState.tableAt, hmem]
      exact htables.trans ht

/-- The page that a fault may map: that of its address, if a region holds it. -/
def faultPages (m : MmState) (a : AddressSpaceRef) (faultAddress : U64) : Set U64 :=
  {va | (mmpFindRegion (m.addressSpacePool a) faultAddress).isSome = true ∧
    va = mmpAlignDown faultAddress 4096}

/-- Counting a page of a region that was mapped. -/
theorem commitPage_contained {slot : Fin mmMaxVaRegions} {p : MmState × Except KStatus Unit}
    (h : Contained U roots root released touched m p.1) :
    Contained U roots root released touched m (commitPage a slot p).1 := by
  obtain ⟨m₁, e | _⟩ := p
  · exact h
  · have hcount : Contained U roots root released touched m₁ (m₁.modifyRegion a slot fun r =>
        { r with committedPages := r.committedPages + 1 }) :=
      modifyAddressSpace_contained h.tables _ fun _ => rfl
    exact h.trans hcount

/-- `MmHandlePageFault`. -/
theorem mmHandlePageFault_contained (ok : TablesOk U roots m) (hU : Separated U)
    (hroot : m.rootFrame a = root) (hroots : root ∈ roots) {faultAddress errorCode : U64}
    (hpages : Releasable U roots root released m (faultPages m a faultAddress)) :
    Contained U roots root released (faultPages m a faultAddress) m
      (mmHandlePageFault m a faultAddress errorCode).1 := by
  subst hroot
  rw [mmHandlePageFault]
  split
  · exact .refl ok
  split
  · exact .refl ok
  rename_i slot hfind
  dsimp only
  have hpage : mmpAlignDown faultAddress 4096 ∈ faultPages m a faultAddress :=
    ⟨by rw [hfind]; rfl, rfl⟩
  have hva := hpages.subset hpage
  have hframe := hpages.frames _ hpage
  have hreleased : releasedAt m (m.rootFrame a) (mmpAlignDown faultAddress 4096) ⊆ released := by
    rintro f ⟨hmay, rfl⟩
    exact (hframe hmay).1
  have htouched : {mmpAlignDown faultAddress 4096} ⊆ faultPages m a faultAddress :=
    Set.singleton_subset_iff.2 hpage
  generalize mmpAlignDown faultAddress 4096 = va at hva hframe hreleased htouched ⊢
  split
  · exact .refl ok
  split
  · exact .refl ok
  split
  · exact .refl ok
  split
  · exact .refl ok
  -- the entry is read first
  have hquery : Contained U roots (m.rootFrame a) ∅ ∅ m _ := mmAsQueryPte_contained ok hroots hva
  have hpte := (mmAsQueryPte_spec ok hroots hva).2
  have hfound := fun pte (h : _ = Except.ok pte) => mmAsQueryPte_found ok hroots hva h
  generalize mmAsQueryPte m a va = r at hquery hpte hfound ⊢
  obtain ⟨m₁, pte⟩ := r
  dsimp only at hquery hpte hfound ⊢
  have hroot₁ := hquery.globals.rootFrame a
  have hview := hquery.view va hva (Set.notMem_empty va)
  have hsame : releasedAt m₁ (m.rootFrame a) va = releasedAt m (m.rootFrame a) va := by
    rw [releasedAt, releasedAt, hview]
  have hframe₁ : mayRelease (pteView m₁ (m.rootFrame a) va) = true →
      ¬IsTable U roots m₁ (pteFrame (pteView m₁ (m.rootFrame a) va)) ∧
        ¬Free m₁ (pteFrame (pteView m₁ (m.rootFrame a) va)) := by
    rw [hview]
    intro hmay
    obtain ⟨-, hlive, htable⟩ := hframe hmay
    refine ⟨fun ht => ?_, hquery.live _ hlive (Set.notMem_empty _)⟩
    rcases hquery.reached _ ht with ht | hm | hin
    · exact htable ht
    · exact hlive hm
    · exact hin
  have hpresent : hasFlag (pteView m₁ (m.rootFrame a) va) mmPtePresent = true →
      mayRelease (pteView m₁ (m.rootFrame a) va) = true := by
    intro h
    rw [mayRelease, h, Bool.true_or]
  have hquery' : Contained U roots (m.rootFrame a) released (faultPages m a faultAddress) m m₁ :=
    hquery.mono (Set.empty_subset _) (Set.empty_subset _)
  have hdone : ∀ m₂, Contained U roots (m.rootFrame a) (releasedAt m₁ (m.rootFrame a) va) {va}
      m₁ m₂ → Contained U roots (m.rootFrame a) released (faultPages m a faultAddress) m m₂ :=
    fun m₂ h => hquery'.trans (h.mono (hsame ▸ hreleased) htouched)
  -- a page that is mapped with a reference taken before
  have hmapped : ∀ pa flags, Contained U roots (m.rootFrame a)
      (releasedAt m₁ (m.rootFrame a) va) {va} m₁
      (mmAsMapPage (mmpRetainPage m₁ pa) a va pa flags).1 := by
    intro pa flags
    have hretain : Contained U roots (m.rootFrame a) ∅ ∅ m₁ (mmpRetainPage m₁ pa) :=
      mmpRetainPage_contained hquery.tables pa
    generalize mmpRetainPage m₁ pa = m₂ at hretain ⊢
    have hroot₂ := (hretain.globals.rootFrame a).trans hroot₁
    have hview₂ := hretain.view va hva (Set.notMem_empty va)
    have hmap := mmAsMapPage_contained hretain.tables hU (a := a) (by rw [hroot₂]; exact hroots)
      hva pa flags ?_
    · rw [hroot₂, releasedAt, hview₂] at hmap
      exact (hretain.mono (Set.empty_subset _) (Set.empty_subset _)).trans hmap
    · rw [hroot₂, hview₂]
      intro hp
      obtain ⟨htable, hlive⟩ := hframe₁ (hpresent hp)
      refine ⟨fun ht => ?_, .inl (hretain.live _ hlive (Set.notMem_empty _))⟩
      rcases hretain.reached _ ht with ht | hm | hin
      · exact htable ht
      · exact hlive hm
      · exact hin
  split
  · split
    · rename_i pte
      split
      · rename_i hcow
        rw [Bool.and_eq_true] at hcow
        have hentry := hpte pte rfl
        have hcow₁ := mmpCopyOnWrite_contained (a := a) hquery.tables hU
          (by rw [hroot₁]; exact hroots) hva (by rw [hroot₁]; exact hfound pte rfl)
          (by rw [hroot₁, hview, ← hentry]; exact hcow.1)
          (by
            rw [hroot₁]
            exact hframe₁ (by rw [mayRelease, hview, ← hentry, hcow.1, Bool.or_true]))
        rw [hroot₁, hview, ← hentry] at hcow₁
        exact hdone _ hcow₁
      · exact hquery'
    · exact hquery'
  split
  · have hzero := mmMapZeroPage_contained (a := a) hquery.tables hU
      (by rw [hroot₁]; exact hroots) hva ((m.addressSpacePool a).regions slot).protection
      ((m.addressSpacePool a).regions slot).flags
      (by rw [hroot₁]; exact fun hp => hframe₁ (hpresent hp))
    rw [hroot₁] at hzero
    exact hdone _ (commitPage_contained hzero)
  split
  · exact hdone _ (hmapped _ _)
  split
  · rw [mmpFaultSection]
    split
    · exact hquery'
    dsimp only
    split
    · exact hquery'
    split
    · exact hdone _ (commitPage_contained (hmapped _ _))
    · exact hquery'
  · exact hquery'

end NtxKernel.Mm
