import NtxKernel.Mm.Mappings

/-!
# Plans

What an address space is meant to map, apart from how its regions are kept: a plan says for every
page of the user range whether it may be mapped, and by what.

* `Kept` is what an operation that maps some pages leaves alone.
* `PlanOk` is the invariant: every page that is mapped is backed as the plan says, and no two
  anonymous pages share a frame.
* `PlanOk.kept` and `PlanOk.remapped` are the two ways in which the operations keep it.
-/

namespace NtxKernel.Mm

open Foundations

/-- The pages of the user range. -/
def userPages : Set U64 :=
  {va | mmPageSize ∣ va.toNat ∧ mmUserBase.toNat ≤ va.toNat ∧ va.toNat < mmUserTop.toNat}

/-- What may back a page: memory of its own, or a frame that others may map too. -/
inductive Backing
  | anon
  | page (frame : ℕ)
  deriving DecidableEq

/-- What may back the pages of an address space. -/
abbrev Plan := U64 → Option Backing

/-- The frame of the `i`-th page of a section. -/
def sectionFrame (m : MmState) (sec : SectionRef) (i : ℕ) : Option ℕ :=
  if h : i < (m.sectionPool sec).pageCount ∧ i < mmMaxSectionPages then
    some (pteFrame ((m.sectionPool sec).pages ⟨i, h.2⟩))
  else none

/-- The frame is a page of a section. -/
def IsSectionPage (m : MmState) (f : ℕ) : Prop :=
  ∃ sec i, m.sectionInUse sec = true ∧ sectionFrame m sec i = some f

/-- The frame is one that was handed out for an anonymous page. -/
structure AnonFrame (m : MmState) (root f : ℕ) : Prop where
  tracked : f < m.trackedPages
  live : ¬Free m f
  refCount : m.pageRefCount f = 1
  not_table : ¬IsTable userPages {root} m f
  not_section : ¬IsSectionPage m f

/-- The entry of a page is backed as planned. -/
def Backs (m : MmState) (root : ℕ) (b : Backing) (entry : U64) : Prop :=
  match b with
  | .anon => AnonFrame m root (pteFrame entry)
  | .page f => pteFrame entry = f ∧ hasFlag entry mmPteSoftCow = false ∧ IsSectionPage m f

/-- The pages that are mapped are backed as planned, and anonymous pages do not share frames. -/
structure PlanOk (root : ℕ) (plan : Plan) (m : MmState) : Prop where
  tables : TablesOk userPages {root} m
  sections : ∀ f, IsSectionPage m f → ¬Free m f
  planned : ∀ va ∈ userPages, hasFlag (pteView m root va) mmPtePresent = true →
    ∃ b, plan va = some b ∧ Backs m root b (pteView m root va)
  apart : ∀ va ∈ userPages, ∀ va' ∈ userPages,
    hasFlag (pteView m root va) mmPtePresent = true →
    hasFlag (pteView m root va') mmPtePresent = true →
    plan va = some .anon → plan va' = some .anon →
    pteFrame (pteView m root va) = pteFrame (pteView m root va') → va = va'

/-- Only the views of some pages changed, and no page was given back. -/
structure Kept (root : ℕ) (touched : Set U64) (m m' : MmState) : Prop where
  pages : OnlyPages m m'
  tables : TablesOk userPages {root} m'
  live : ∀ f, ¬Free m f → ¬Free m' f
  refCount : ∀ f, ¬Free m f → ¬IsSectionPage m f → m'.pageRefCount f = m.pageRefCount f
  reached : ∀ f, IsTable userPages {root} m' f → IsTable userPages {root} m f ∨ Free m f
  view : ∀ va ∈ userPages, va ∉ touched → pteView m' root va = pteView m root va

variable {m m' m'' : MmState} {root : ℕ} {plan plan' : Plan}

theorem userPages_lt {va : U64} (h : va ∈ userPages) : va.toNat < 2 ^ 48 := by
  have htop : mmUserTop.toNat = 0x800000000000 := by decide
  have hlt := h.2.2
  omega

theorem userPages_ext {va va' : U64} (h : va ∈ userPages) (h' : va' ∈ userPages) :
    va.toNat / mmPageSize = va'.toNat / mmPageSize ↔ va = va' := by
  constructor
  · intro hpage
    refine BitVec.eq_of_toNat_eq ?_
    rw [← Nat.div_mul_cancel h.1, ← Nat.div_mul_cancel h'.1, hpage]
  · intro he
    rw [he]

/-! ## What is kept -/

theorem OnlyPages.trackedPages (h : OnlyPages m m') : m'.trackedPages = m.trackedPages := by
  obtain ⟨bitmap, refCount, next, mem, rfl⟩ := h
  rfl

theorem OnlyPages.sectionPool (h : OnlyPages m m') : m'.sectionPool = m.sectionPool := by
  obtain ⟨bitmap, refCount, next, mem, rfl⟩ := h
  rfl

theorem OnlyPages.sectionInUse (h : OnlyPages m m') : m'.sectionInUse = m.sectionInUse := by
  obtain ⟨bitmap, refCount, next, mem, rfl⟩ := h
  rfl

theorem OnlyPages.isSectionPage_iff (h : OnlyPages m m') (f : ℕ) :
    IsSectionPage m' f ↔ IsSectionPage m f := by
  simp only [IsSectionPage, sectionFrame, h.sectionPool, h.sectionInUse]

theorem OnlyPages.rootFrame (h : OnlyPages m m') (a : AddressSpaceRef) :
    m'.rootFrame a = m.rootFrame a := by
  rw [MmState.rootFrame, h.addressSpacePool, MmState.rootFrame]

theorem Walked.kept (h : Walked userPages {root} m m') : Kept root ∅ m m' where
  pages := h.pages
  tables := h.tables
  live := h.live
  refCount f hf _ := h.refCount f hf
  reached := h.reached
  view va hva _ := h.view root rfl va hva

namespace Kept

variable {touched touched' : Set U64}

theorem refl (ok : TablesOk userPages {root} m) : Kept root touched m m where
  pages := .refl m
  tables := ok
  live _ h := h
  refCount _ _ _ := rfl
  reached _ h := Or.inl h
  view _ _ _ := rfl

theorem mono (h : Kept root touched m m') (hle : touched ⊆ touched') : Kept root touched' m m' :=
  { h with view := fun va hva hnot => h.view va hva fun hin => hnot (hle hin) }

theorem trans (h : Kept root touched m m') (h' : Kept root touched m' m'') :
    Kept root touched m m'' where
  pages := h.pages.trans h'.pages
  tables := h'.tables
  live f hf := h'.live f (h.live f hf)
  refCount f hf hsec :=
    (h'.refCount f (h.live f hf) fun hs => hsec ((h.pages.isSectionPage_iff f).1 hs)).trans
      (h.refCount f hf hsec)
  reached := by
    intro f hf
    rcases h'.reached f hf with ht | hfree
    · exact h.reached f ht
    · refine Or.inr ?_
      by_contra hnot
      exact h.live f hnot hfree
  view va hva hnot := (h'.view va hva hnot).trans (h.view va hva hnot)

theorem anonFrame (h : Kept root touched m m') {f : ℕ} (hf : AnonFrame m root f) :
    AnonFrame m' root f where
  tracked := by rw [h.pages.trackedPages]; exact hf.tracked
  live := h.live f hf.live
  refCount := (h.refCount f hf.live hf.not_section).trans hf.refCount
  not_table ht := (h.reached f ht).elim hf.not_table hf.live
  not_section hs := hf.not_section ((h.pages.isSectionPage_iff f).1 hs)

theorem backs (h : Kept root touched m m') {b : Backing} {entry : U64}
    (hb : Backs m root b entry) : Backs m' root b entry := by
  cases b with
  | anon => exact h.anonFrame hb
  | page f => exact ⟨hb.1, hb.2.1, (h.pages.isSectionPage_iff f).2 hb.2.2⟩

end Kept

/-! ## How a plan is kept -/

namespace PlanOk

/-- A frame that backs a page is in use. -/
theorem not_free (ok : PlanOk root plan m) {b : Backing} {entry : U64}
    (hb : Backs m root b entry) : ¬Free m (pteFrame entry) := by
  cases b with
  | anon => exact hb.live
  | page f =>
    rw [hb.1]
    exact ok.sections f hb.2.2

/-- A plan may grow. -/
theorem mono (ok : PlanOk root plan m) (hle : ∀ va b, plan va = some b → plan' va = some b) :
    PlanOk root plan' m where
  tables := ok.tables
  sections := ok.sections
  planned va hva hpresent := by
    obtain ⟨b, hplan, hb⟩ := ok.planned va hva hpresent
    exact ⟨b, hle va b hplan, hb⟩
  apart va hva va' hva' hpresent hpresent' hplan hplan' := by
    obtain ⟨b, hb, -⟩ := ok.planned va hva hpresent
    obtain ⟨b', hb', -⟩ := ok.planned va' hva' hpresent'
    have hanon : b = .anon := Option.some.inj ((hle va b hb).symm.trans hplan)
    have hanon' : b' = .anon := Option.some.inj ((hle va' b' hb').symm.trans hplan')
    exact ok.apart va hva va' hva' hpresent hpresent' (hanon ▸ hb) (hanon' ▸ hb')

/-- What changes no view keeps the plan. -/
theorem kept (ok : PlanOk root plan m) (h : Kept root ∅ m m') : PlanOk root plan m' where
  tables := h.tables
  sections f hf := h.live f (ok.sections f ((h.pages.isSectionPage_iff f).1 hf))
  planned va hva hpresent := by
    rw [h.view va hva (Set.notMem_empty va)] at hpresent ⊢
    obtain ⟨b, hplan, hb⟩ := ok.planned va hva hpresent
    exact ⟨b, hplan, h.backs hb⟩
  apart va hva va' hva' := by
    rw [h.view va hva (Set.notMem_empty va), h.view va' hva' (Set.notMem_empty va')]
    exact ok.apart va hva va' hva'

/-- What changes the view of one page keeps the plan, if the new entry is backed as planned and is
not the frame of another anonymous page. -/
theorem remapped (ok : PlanOk root plan m) {va₀ : U64} {b : Backing} (h : Kept root {va₀} m m')
    (hplan : plan va₀ = some b) (hb : Backs m' root b (pteView m' root va₀))
    (hfresh : b = .anon → ∀ va ∈ userPages, va ≠ va₀ →
      hasFlag (pteView m root va) mmPtePresent = true →
      pteFrame (pteView m root va) ≠ pteFrame (pteView m' root va₀)) :
    PlanOk root plan m' where
  tables := h.tables
  sections f hf := h.live f (ok.sections f ((h.pages.isSectionPage_iff f).1 hf))
  planned va hva hpresent := by
    by_cases hva₀ : va = va₀
    · rw [hva₀]
      exact ⟨b, hplan, hb⟩
    · rw [h.view va hva hva₀] at hpresent ⊢
      obtain ⟨b', hplan', hb'⟩ := ok.planned va hva hpresent
      exact ⟨b', hplan', h.backs hb'⟩
  apart va hva va' hva' hpresent hpresent' hanon hanon' heq := by
    by_cases hva₀ : va = va₀ <;> by_cases hva₀' : va' = va₀
    · rw [hva₀, hva₀']
    · rw [hva₀, h.view va' hva' hva₀'] at heq
      rw [h.view va' hva' hva₀'] at hpresent'
      rw [hva₀] at hanon
      exact absurd heq.symm
        (hfresh (Option.some.inj (hplan.symm.trans hanon)) va' hva' hva₀' hpresent')
    · rw [hva₀', h.view va hva hva₀] at heq
      rw [h.view va hva hva₀] at hpresent
      rw [hva₀'] at hanon'
      exact absurd heq
        (hfresh (Option.some.inj (hplan.symm.trans hanon')) va hva hva₀ hpresent)
    · rw [h.view va hva hva₀] at hpresent heq
      rw [h.view va' hva' hva₀'] at hpresent' heq
      exact ok.apart va hva va' hva' hpresent hpresent' hanon hanon' heq

end PlanOk

/-! ## The operations -/

/-- Writing the entry of a page changes the view of the page alone. -/
theorem Kept.writePage {t : ℕ} {va : U64} (h : Kept root ∅ m m') (hva : va ∈ userPages)
    (ht : m'.tableAt root va 3 = some t) (entry : U64) :
    Kept root {va} m (m'.writeEntry t (tableIndex va 3) entry) ∧
      pteView (m'.writeEntry t (tableIndex va 3) entry) root va = entry := by
  obtain ⟨htables, hfollow, hview⟩ := h.tables.writeLeaf rfl hva ht entry
  have hshares : ∀ va' ∈ userPages,
      (m'.tableAt root va' 3 = some t ∧ tableIndex va' 3 = tableIndex va 3) ↔ va' = va := by
    intro va' hva'
    rw [h.tables.shares_iff rfl hva ht hva' (userPages_lt hva) (userPages_lt hva'),
      userPages_ext hva' hva]
  constructor
  · exact
      { pages := h.pages.trans (OnlyPages.writeEntry ..)
        tables := htables
        live := h.live
        refCount := h.refCount
        reached := by
          rintro f ⟨r, hr, p, hp, hf⟩
          exact h.reached f ⟨r, hr, p, hp, (hfollow r hr p hp).symm.trans hf⟩
        view := by
          intro va' hva' hne
          rw [hview root rfl va' hva', if_neg (fun hs => hne ((hshares va' hva').1 hs))]
          exact h.view va' hva' (Set.notMem_empty va') }
  · rw [hview root rfl va hva, if_pos ((hshares va hva).2 rfl)]

/-- Mapping a page that is not mapped. -/
theorem mmAsMapPage_absent (ok : TablesOk userPages {root} m) {a : AddressSpaceRef}
    (hroot : m.rootFrame a = root) {va : U64} (hva : va ∈ userPages)
    (habsent : hasFlag (pteView m root va) mmPtePresent = false) (pa flags : U64) :
    (∃ m' e, Kept root ∅ m m' ∧ mmAsMapPage m a va pa flags = (m', .error e)) ∨
      ∃ m', Kept root {va} m m' ∧ pteView m' root va = mapEntry pa flags ∧
        mmAsMapPage m a va pa flags = (m', .ok ()) := by
  rcases mmAsMapPage_spec ok (a := a) (show _ ∈ _ from hroot) hva pa flags with
    ⟨m₁, e, hw, heq⟩ | ⟨m₁, t, hw, ht, -, heq⟩
  · exact Or.inl ⟨m₁, e, hw.kept, heq⟩
  · rw [hroot] at ht heq
    rw [habsent, if_neg Bool.false_ne_true] at heq
    obtain ⟨hkept, hview⟩ := hw.kept.writePage hva ht (mapEntry pa flags)
    exact Or.inr ⟨_, hkept, hview, heq⟩

/-- Protecting a page. -/
theorem mmAsProtectPage_kept (ok : TablesOk userPages {root} m) {a : AddressSpaceRef}
    (hroot : m.rootFrame a = root) {va : U64} (hva : va ∈ userPages) (newFlags : U64) :
    (∃ m' e, Kept root ∅ m m' ∧ mmAsProtectPage m a va newFlags = (m', .error e)) ∨
      ∃ m', Kept root {va} m m' ∧
        pteView m' root va = mapEntry (pteView m root va) newFlags ∧
        mmAsProtectPage m a va newFlags = (m', .ok ()) := by
  rcases mmAsProtectPage_spec ok (a := a) (show _ ∈ _ from hroot) hva newFlags with
    ⟨m₁, e, hw, heq⟩ | ⟨m₁, t, hw, ht, -, heq⟩
  · exact Or.inl ⟨m₁, e, hw.kept, heq⟩
  · rw [hroot] at ht heq
    obtain ⟨hkept, hview⟩ := hw.kept.writePage hva ht (mapEntry (pteView m root va) newFlags)
    exact Or.inr ⟨_, hkept, hview, heq⟩

/-- Handing out a page and filling it touches no table. -/
theorem Kept.takePage (ok : TablesOk userPages {root} m) {page : ℕ} (hpage : page < m.trackedPages)
    (hfree : mmpIsPageAllocated m page = false) (words : TableIx → U64) :
    Kept root ∅ m ((m.takePage page 1).fillFrame page words) := by
  have hnot : ∀ f, ¬Free m f → f ≠ page := by
    rintro f hf rfl
    exact hf ⟨hpage, hfree⟩
  have hlive : ∀ f, ¬Free m f → ¬Free ((m.takePage page 1).fillFrame page words) f := by
    intro f hf hf'
    obtain ⟨hlt, halloc⟩ := hf'
    have hsplit : mmpIsPageAllocated (m.takePage page 1) f = false := halloc
    rw [MmState.allocated_takePage, Bool.or_eq_false_iff] at hsplit
    exact hf ⟨hlt, hsplit.2⟩
  have hmem : ∀ f, IsTable userPages {root} m f →
      ((m.takePage page 1).fillFrame page words).mem f = m.mem f :=
    fun f hf => Function.update_of_ne (hnot f (ok.live f hf)) _ _
  obtain ⟨htables, hview⟩ := ok.quiet hmem fun f hf => hlive f (ok.live f hf)
  exact
    { pages := (OnlyPages.takePage ..).trans (OnlyPages.fillFrame ..)
      tables := htables
      live := hlive
      refCount := fun f hf _ => Function.update_of_ne (hnot f hf) _ _
      reached := fun f hf => Or.inl (isTable_of_quiet hmem hf)
      view := fun va hva _ => hview root rfl va hva }

/-- A page that was just handed out may back an anonymous page. -/
theorem AnonFrame.takePage (ok : PlanOk root plan m) {page : ℕ} (hpage : page < m.trackedPages)
    (hfree : mmpIsPageAllocated m page = false) (words : TableIx → U64) :
    AnonFrame ((m.takePage page 1).fillFrame page words) root page where
  tracked := hpage
  live := by
    rintro ⟨-, halloc⟩
    have htaken : mmpIsPageAllocated (m.takePage page 1) page = false := halloc
    rw [MmState.allocated_takePage, decide_eq_true rfl] at htaken
    cases htaken
  refCount := Function.update_self _ _ _
  not_table := by
    intro ht
    refine ok.tables.live page (isTable_of_quiet (fun f hf => Function.update_of_ne ?_ _ _) ht)
      ⟨hpage, hfree⟩
    rintro rfl
    exact ok.tables.live f hf ⟨hpage, hfree⟩
  not_section hs := by
    have hpages : OnlyPages m ((m.takePage page 1).fillFrame page words) :=
      (OnlyPages.takePage ..).trans (OnlyPages.fillFrame ..)
    exact ok.sections page ((hpages.isSectionPage_iff page).1 hs) ⟨hpage, hfree⟩

/-- An entry of flags that say nothing of the address leads to the page. -/
theorem pteFrame_mapEntry {pa flags : U64} (h : flags &&& mmPteAddrMask = 0) :
    pteFrame (mapEntry pa flags) = pteFrame pa := by
  rw [mapEntry, pteFrame_or (by decide), pteFrame_or h, pteFrame_and_mask]

theorem mmpProtectionToPte_address (protection flags : U32) :
    mmpProtectionToPte protection flags &&& mmPteAddrMask = 0 := by
  rw [mmpProtectionToPte]
  split <;> split <;> split <;> split <;> decide

/-- Mapping a fresh page where an anonymous page is planned. -/
theorem PlanOk.mmMapZeroPage (ok : PlanOk root plan m) {a : AddressSpaceRef}
    (hroot : m.rootFrame a = root) {va : U64} (hva : va ∈ userPages)
    (habsent : hasFlag (pteView m root va) mmPtePresent = false) (protection flags : U32) :
    (∃ m' e, Kept root ∅ m m' ∧ mmMapZeroPage m a va protection flags = (m', .error e)) ∨
      ∃ m', Kept root {va} m m' ∧ mmMapZeroPage m a va protection flags = (m', .ok ()) ∧
        ∀ plan', (∀ va b, plan va = some b → plan' va = some b) → plan' va = some .anon →
          PlanOk root plan' m' := by
  rw [Mm.mmMapZeroPage]
  rcases mmAllocPage_cases m with ⟨e, heq⟩ | ⟨page, hpage, hfree, -, heq⟩
  · rw [heq]
    exact Or.inl ⟨m, _, .refl ok.tables, rfl⟩
  rw [heq]
  dsimp only
  have hpage40 : page < 2 ^ 40 := lt_of_lt_trackedPages hpage
  rw [pteFrame_pageAddress hpage40]
  have hkept := Kept.takePage ok.tables hpage hfree fun _ => 0
  have hframe := AnonFrame.takePage ok hpage hfree fun _ => 0
  generalize (m.takePage page 1).fillFrame page (fun _ => 0) = m₁ at hkept hframe ⊢
  rcases mmAsMapPage_absent hkept.tables ((hkept.pages.rootFrame a).trans hroot) hva
    (by rw [hkept.view va hva (Set.notMem_empty va)]; exact habsent) (pageAddress page)
    (mmpProtectionToPte protection flags) with ⟨m', e, hk, h⟩ | ⟨m', hk, hview, h⟩
  · exact Or.inl ⟨m', e, hkept.trans hk, h⟩
  refine Or.inr ⟨m', (hkept.mono (Set.empty_subset _)).trans hk, h, fun plan' hle hplan => ?_⟩
  have hentry : pteFrame (pteView m' root va) = page := by
    rw [hview, pteFrame_mapEntry (mmpProtectionToPte_address protection flags),
      pteFrame_pageAddress hpage40]
  refine ((ok.mono hle).kept hkept).remapped hk hplan ?_ fun _ va' hva' _ hpresent heq => ?_
  · show AnonFrame m' root (pteFrame (pteView m' root va))
    rw [hentry]
    exact hk.anonFrame hframe
  · -- the page was free, so it backs nothing
    rw [hkept.view va' hva' (Set.notMem_empty va')] at hpresent heq
    obtain ⟨b, -, hb⟩ := ok.planned va' hva' hpresent
    refine ok.not_free hb ?_
    rw [heq, hentry]
    exact ⟨hpage, hfree⟩

/-- Counting one more mapping of a page of a section. -/
theorem Kept.retain (ok : TablesOk userPages {root} m) {pa : U64}
    (hpage : IsSectionPage m (pa.toNat / mmPageSize)) : Kept root ∅ m (mmpRetainPage m pa) := by
  rw [mmpRetainPage]
  split
  · have hlive : ∀ f, ¬Free m f →
        ¬Free (m.setRefCount (pa.toNat / mmPageSize)
          (m.pageRefCount (pa.toNat / mmPageSize) + 1)) f := fun f hf => hf
    have hmem : ∀ f, IsTable userPages {root} m f → (m.setRefCount (pa.toNat / mmPageSize)
        (m.pageRefCount (pa.toNat / mmPageSize) + 1)).mem f = m.mem f := fun f _ => rfl
    obtain ⟨htables, hview⟩ := ok.quiet hmem fun f hf => ok.live f hf
    exact
      { pages := ⟨_, _, _, _, rfl⟩
        tables := htables
        live := hlive
        refCount := by
          rintro f - hnot
          refine Function.update_of_ne ?_ _ _
          rintro rfl
          exact hnot hpage
        reached := fun f hf => Or.inl hf
        view := fun va hva _ => hview root rfl va hva }
  · exact .refl ok

theorem mapEntry_softCow (page : ℕ) (protection : U32) :
    hasFlag (mapEntry (pageAddress page) (mmpProtectionToPte protection mmRegionFlagLazy))
      mmPteSoftCow = false := by
  have hflags : mmpProtectionToPte protection mmRegionFlagLazy &&& mmPteSoftCow = 0 := by
    rw [mmpProtectionToPte]
    split <;> split <;> split <;> split <;> first | decide | contradiction
  have haddress : hasFlag (pageAddress page &&& mmPteAddrMask) mmPteSoftCow = false := by
    rw [hasFlag_eq_false, BitVec.and_assoc]
    exact BitVec.and_zero
  rw [mapEntry, hasFlag_or, hasFlag_or, hasFlag_eq_false.2 hflags, haddress]
  decide

/-- Mapping a page of a section where it is planned. -/
theorem PlanOk.mapSectionPage (ok : PlanOk root plan m) {a : AddressSpaceRef}
    (hroot : m.rootFrame a = root) {va : U64} (hva : va ∈ userPages)
    (habsent : hasFlag (pteView m root va) mmPtePresent = false) {page : ℕ} (hpage : page < 2 ^ 40)
    (hsection : IsSectionPage m page) (hplan : plan va = some (.page page)) (protection : U32) :
    PlanOk root plan (mmAsMapPage (mmpRetainPage m (pageAddress page)) a va (pageAddress page)
      (mmpProtectionToPte protection mmRegionFlagLazy)).1 := by
  have hretain : Kept root ∅ m (mmpRetainPage m (pageAddress page)) := by
    refine Kept.retain ok.tables ?_
    rw [toNat_pageAddress (by omega)]
    have hdiv : page * 4096 / mmPageSize = page := Nat.mul_div_cancel _ (by decide)
    rw [hdiv]
    exact hsection
  generalize mmpRetainPage m (pageAddress page) = m₁ at hretain ⊢
  rcases mmAsMapPage_absent hretain.tables ((hretain.pages.rootFrame a).trans hroot) hva
    (by rw [hretain.view va hva (Set.notMem_empty va)]; exact habsent) (pageAddress page)
    (mmpProtectionToPte protection mmRegionFlagLazy) with ⟨m', e, hk, h⟩ | ⟨m', hk, hview, h⟩
  · rw [h]
    exact ok.kept (hretain.trans hk)
  · rw [h]
    refine (ok.kept hretain).remapped hk hplan ?_ fun hb => by cases hb
    rw [hview]
    refine ⟨?_, mapEntry_softCow page protection, ?_⟩
    · rw [pteFrame_mapEntry (mmpProtectionToPte_address _ _), pteFrame_pageAddress hpage]
    · exact (hk.pages.isSectionPage_iff page).2 ((hretain.pages.isSectionPage_iff page).2 hsection)

/-- The new entry of a page after its copy-on-write was resolved in place leads to the same
frame. -/
theorem pteFrame_mapEntry_cow (pte : U64) :
    pteFrame (mapEntry pte ((pte &&& ~~~mmPteSoftCow) ||| mmPteWritable)) = pteFrame pte := by
  have hmask : ((pte &&& ~~~mmPteSoftCow) ||| mmPteWritable) &&& mmPteAddrMask =
      pte &&& mmPteAddrMask := by
    rw [or_and_of_disjoint (by decide), and_not_and_of_disjoint (by decide)]
  rw [mapEntry, pteFrame_or (by decide), pteFrame, BitVec.and_or_distrib_right, hmask,
    BitVec.and_assoc, BitVec.and_self, BitVec.or_self, pteFrame]

theorem OnlyPages.mmpCopyOnWrite (m : MmState) (a : AddressSpaceRef) (va pte : U64) :
    OnlyPages m (mmpCopyOnWrite m a va pte).1 := by
  rw [Mm.mmpCopyOnWrite]
  dsimp only
  split
  · exact mmAsProtectPage ..
  · have halloc := OnlyPages.mmAllocPage m
    generalize Mm.mmAllocPage m = r at halloc ⊢
    obtain ⟨m₁, e | newPa⟩ := r
    · exact halloc
    · exact halloc.trans ((fillFrame ..).trans ((mmpReleasePage ..).trans (mmAsMapPage ..)))

/-- Only anonymous pages are copy-on-write, and they have their frame for themselves: it is never
copied. -/
theorem PlanOk.mmpCopyOnWrite (ok : PlanOk root plan m) {a : AddressSpaceRef}
    (hroot : m.rootFrame a = root) {va : U64} (hva : va ∈ userPages)
    (hpresent : hasFlag (pteView m root va) mmPtePresent = true)
    (hcow : hasFlag (pteView m root va) mmPteSoftCow = true) :
    PlanOk root plan (mmpCopyOnWrite m a va (pteView m root va)).1 := by
  obtain ⟨b, hplan, hb⟩ := ok.planned va hva hpresent
  cases b with
  | page f =>
    have hnot := hb.2.1
    rw [hcow] at hnot
    cases hnot
  | anon =>
    have hframe : AnonFrame m root (pteFrame (pteView m root va)) := hb
    have htracked : pteFrame (pteView m root va) < mmMaxTrackedPages :=
      lt_of_lt_of_le hframe.tracked m.trackedPages_le
    rw [Mm.mmpCopyOnWrite]
    dsimp only
    rw [if_pos ⟨htracked, hframe.refCount⟩]
    rcases mmAsProtectPage_kept ok.tables hroot hva
      ((pteView m root va &&& ~~~mmPteSoftCow) ||| mmPteWritable) with
      ⟨m', e, hk, h⟩ | ⟨m', hk, hview, h⟩
    · rw [h]
      exact ok.kept hk
    · rw [h]
      have hsame : pteFrame (pteView m' root va) = pteFrame (pteView m root va) := by
        rw [hview, pteFrame_mapEntry_cow]
      refine ok.remapped hk hplan ?_ fun _ va' hva' hne hpresent' heq => ?_
      · show AnonFrame m' root (pteFrame (pteView m' root va))
        rw [hsame]
        exact hk.anonFrame hframe
      · rw [hsame] at heq
        obtain ⟨b', hplan', hb'⟩ := ok.planned va' hva' hpresent'
        cases b' with
        | anon => exact hne (ok.apart va' hva' va hva hpresent' hpresent hplan' hplan heq)
        | page f =>
          have hsection := hb'.2.2
          rw [← hb'.1, heq] at hsection
          exact hframe.not_section hsection

end NtxKernel.Mm
