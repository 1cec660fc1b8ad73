import NtxKernel.Mm.Holdings
import NtxKernel.Mm.SectionLife
import NtxKernel.Mm.SectionSize

/-!
# The frames of sections

What `MmCreateSectionHandle` and the delete routine of sections do to the frames that are shared:
the pages of a section are shared from the moment they are handed out, and a section that is dropped
gives back its own pages and no others.

* `SectionShares` is the invariant of an address space and the sections: `SpaceHolds`, where the
  shared frames are those of the sections in use.
* `mmAllocSectionPages_shared` is the loop that fills a section, with any outcome.
* `SectionShares.dropped` and `SectionShares.created` are what the two routines do.
-/

namespace NtxKernel.Mm

open Foundations Ob MmGlobals

variable {U : Set U64} {root : ℕ} {S : Set ℕ} {lent : U64 → Option (ℕ × Bool)} {m m' : MmState}
  {s : SectionRef} {o : ObjectRef}

/-! ## Sections that stay -/

theorem sectionFrame_of_pool (h : m'.sectionPool s = m.sectionPool s) (i : ℕ) :
    sectionFrame m' s i = sectionFrame m s i := by
  simp only [sectionFrame, h]

/-- Sections that are in use are as they were. -/
theorem SectionsOk.stay (ok : SectionsOk m)
    (hsame : ∀ s, m'.sectionInUse s = true → m.sectionInUse s = true ∧
      m'.sectionPool s = m.sectionPool s) (htracked : m'.trackedPages = m.trackedPages) :
    SectionsOk m' where
  pageCount_pos s hs := by
    obtain ⟨hused, hpool⟩ := hsame s hs
    rw [hpool]
    exact ok.pageCount_pos s hused
  pageCount_le s hs := by
    obtain ⟨hused, hpool⟩ := hsame s hs
    rw [hpool]
    exact ok.pageCount_le s hused
  pages s hs := by
    obtain ⟨hused, hpool⟩ := hsame s hs
    rw [hpool, htracked]
    exact ok.pages s hused
  apart s s' hs hs' i i' f hf hf' := by
    obtain ⟨hused, hpool⟩ := hsame s hs
    obtain ⟨hused', hpool'⟩ := hsame s' hs'
    rw [sectionFrame_of_pool hpool] at hf
    rw [sectionFrame_of_pool hpool'] at hf'
    exact ok.apart s s' hused hused' i i' f hf hf'

theorem IsSectionPage.stay {f : ℕ} (h : IsSectionPage m f)
    (hsame : ∀ s, m.sectionInUse s = true → m'.sectionInUse s = true ∧
      m'.sectionPool s = m.sectionPool s) : IsSectionPage m' f := by
  obtain ⟨s, i, hs, hi⟩ := h
  obtain ⟨hused, hpool⟩ := hsame s hs
  exact ⟨s, i, hused, (sectionFrame_of_pool hpool i).trans hi⟩

/-- The frames of the pages of a section are those that its delete routine looks at. -/
theorem isSectionPage_of_mem (ok : SectionsOk m) (hs : m.sectionInUse s = true) {f : ℕ}
    (hf : f ∈ sectionPagesOf m s) : ∃ i, sectionFrame m s i = some f := by
  obtain ⟨i, hi, -, rfl⟩ := hf
  obtain ⟨page, hpage, haddress⟩ := ok.pages s hs i hi
  have hpage40 := lt_of_lt_trackedPages hpage
  refine ⟨i, ?_⟩
  rw [sectionFrame, dif_pos ⟨hi, i.isLt⟩, Fin.eta, haddress, pteFrame_pageAddress hpage40,
    toNat_pageAddress (by omega), Nat.mul_div_cancel _ (by decide)]

/-! ## Dropping a section -/

/-- A section that is dropped gives back frames that are shared no more. -/
theorem SpaceHolds.dropped (ok : SpaceHolds U root S lent m) (h : Dropped o m m') {S' : Set ℕ}
    (hsub : S' ⊆ S) (hlent : ∀ va f w, lent va = some (f, w) → f ∈ S')
    (hpages : ∀ s, m.sectionInUse s = true → (m.sectionPool s).header = some o →
      ∀ f ∈ sectionPagesOf m s, f ∈ S \ S') : SpaceHolds U root S' lent m' := by
  have hkept : ∀ f, f ∉ S \ S' → mmpIsPageAllocated m' f = mmpIsPageAllocated m f ∧
      m'.pageRefCount f = m.pageRefCount f := fun f hf =>
    h.kept f fun s hs ho hin => hf (hpages s hs ho f hin)
  refine ok.shrink hsub hlent h.mem h.trackedPages (fun f hfree => ?_) fun f hf => (hkept f hf).2
  by_cases hin : f ∈ S \ S'
  · exact Or.inr hin
  · refine Or.inl ?_
    rw [Free, h.trackedPages, (hkept f hin).1] at hfree
    exact hfree

/-- The sections, and what an address space has of them. -/
structure SectionShares (U : Set U64) (root : ℕ) (lent : U64 → Option (ℕ × Bool)) (m : MmState) :
    Prop where
  sections : SectionsOk m
  holds : SpaceHolds U root {f | IsSectionPage m f} lent m

/-- Dropping a section of which nothing is lent. -/
theorem SectionShares.dropped (ok : SectionShares U root lent m) (h : Dropped o m m')
    (hlent : ∀ va f w, lent va = some (f, w) → IsSectionPage m' f) :
    SectionShares U root lent m' where
  sections := ok.sections.stay (fun s hs => ⟨((h.inUse s).1 hs).1, h.pool s hs⟩) h.trackedPages
  holds := by
    have hsub : ∀ f, IsSectionPage m' f → IsSectionPage m f := fun f hf =>
      hf.stay fun s hs => ⟨((h.inUse s).1 hs).1, (h.pool s hs).symm⟩
    refine ok.holds.dropped h hsub hlent fun s hs ho f hf => ?_
    obtain ⟨i, hi⟩ := isSectionPage_of_mem ok.sections hs hf
    refine ⟨⟨s, i, hs, hi⟩, ?_⟩
    -- the page is in one place, and the section that has it is gone
    rintro ⟨s', i', hs', hi'⟩
    obtain ⟨hused, hheader⟩ := (h.inUse s').1 hs'
    rw [sectionFrame_of_pool (h.pool s' hs')] at hi'
    obtain ⟨rfl, -⟩ := ok.sections.apart s s' hs hused i i' f hi hi'
    exact hheader ho

/-! ## Filling a section -/

/-- The frames of the pages of a section from the `i`-th to the one before the `j`-th. -/
def framesBetween (m : MmState) (s : SectionRef) (i j : ℕ) : Set ℕ :=
  {f | ∃ x : Fin mmMaxSectionPages, i ≤ x.val ∧ x.val < j ∧
    pteFrame ((m.sectionPool s).pages x) = f}

/-- The loop over the pages of a section takes some of them, all if it goes through, and they are
shared. -/
theorem mmAllocSectionPages_shared (s : SectionRef) (n i : ℕ) (m : MmState) (S : Set ℕ)
    (hbound : i + n ≤ mmMaxSectionPages) (ok : SpaceHolds U root S lent m) :
    ∃ j ≤ n, ∃ m' r, mmAllocSectionPages s n i m = (m', r) ∧ SectionFilled s i j m m' ∧
      (r = .ok () → j = n) ∧
      (∀ x : Fin mmMaxSectionPages, i + j ≤ x.val →
        (m'.sectionPool s).pages x = (m.sectionPool s).pages x) ∧
      (∀ f, mmpIsPageAllocated m' f = true →
        mmpIsPageAllocated m f = true ∨ f ∈ framesBetween m' s i (i + j)) ∧
      SpaceHolds U root (S ∪ framesBetween m' s i (i + j)) lent m' := by
  induction n generalizing i m S with
  | zero =>
    refine ⟨0, le_rfl, m, .ok (), rfl, .refl s i m, fun _ => rfl, fun _ _ => rfl,
      fun _ h => Or.inl h, ?_⟩
    have hnone : framesBetween m s i (i + 0) = ∅ := by
      refine Set.eq_empty_of_forall_notMem ?_
      rintro f ⟨x, hx, hx', -⟩
      omega
    rw [hnone, Set.union_empty]
    exact ok
  | succ n ih =>
    rw [mmAllocSectionPages]
    rcases mmAllocPage_cases m with ⟨e, heq⟩ | ⟨page, hpage, hfree, -, heq⟩
    · rw [heq]
      refine ⟨0, Nat.zero_le _, m, .error e, rfl, .refl s i m, (fun h => by cases h),
        fun _ _ => rfl, fun _ h => Or.inl h, ?_⟩
      have hnone : framesBetween m s i (i + 0) = ∅ := by
        refine Set.eq_empty_of_forall_notMem ?_
        rintro f ⟨x, hx, hx', -⟩
        omega
      rw [hnone, Set.union_empty]
      exact ok
    have hpage40 := lt_of_lt_trackedPages hpage
    have hi : i < mmMaxSectionPages := by omega
    rw [heq]
    dsimp only
    rw [dif_pos hi, pteFrame_pageAddress hpage40]
    have hshare := ok.share hpage hfree fun _ => 0
    have hquiet : SpaceHolds U root (insert page S) lent
        (((m.takePage page 1).fillFrame page fun _ => 0).modifySection s fun sec =>
          { sec with pages := Function.update sec.pages ⟨i, hi⟩ (pageAddress page) }) :=
      hshare.quiet (.of_eq hshare.tables rfl rfl rfl rfl)
    obtain ⟨j, hj, m', r, heq', hfilled, hall, habove, halloc, hholds⟩ :=
      ih (i + 1) _ (insert page S) (by omega) hquiet
    have hfirst : (m'.sectionPool s).pages ⟨i, hi⟩ = pageAddress page := by
      rw [hfilled.below ⟨i, hi⟩ (Nat.lt_succ_self i)]
      simp [MmState.modifySection]
    refine ⟨j + 1, Nat.succ_le_succ hj, m', r, heq', sectionFilled_step hi hpage hfree hfilled,
      fun hr => congrArg Nat.succ (hall hr), ?_, ?_, ?_⟩
    · intro x hx
      have hne : x ≠ ⟨i, hi⟩ := by
        rintro rfl
        exact absurd hx (by dsimp only; omega)
      rw [habove x (by omega)]
      simp [MmState.modifySection, MmState.fillFrame, MmState.takePage, mmpSetPageAllocated,
        MmState.setRefCount, Function.update_of_ne hne]
    · intro f hf
      rcases halloc f hf with hold | ⟨x, hx, hx', hframe⟩
      · have htaken : mmpIsPageAllocated (m.takePage page 1) f = true := hold
        rw [MmState.allocated_takePage, Bool.or_eq_true, decide_eq_true_eq] at htaken
        rcases htaken with rfl | hold
        · exact Or.inr ⟨⟨i, hi⟩, le_rfl, by dsimp only; omega,
            by rw [hfirst, pteFrame_pageAddress hpage40]⟩
        · exact Or.inl hold
      · exact Or.inr ⟨x, by omega, by omega, hframe⟩
    · have hset : S ∪ framesBetween m' s i (i + (j + 1)) =
          insert page S ∪ framesBetween m' s (i + 1) (i + 1 + j) := by
        ext f
        constructor
        · rintro (hf | ⟨x, hx, hx', rfl⟩)
          · exact Or.inl (Or.inr hf)
          · rcases Nat.eq_or_lt_of_le hx with hxi | hlt
            · obtain rfl : x = ⟨i, hi⟩ := Fin.ext hxi.symm
              rw [hfirst, pteFrame_pageAddress hpage40]
              exact Or.inl (Or.inl rfl)
            · exact Or.inr ⟨x, hlt, by omega, rfl⟩
        · rintro ((rfl | hf) | ⟨x, hx, hx', rfl⟩)
          · exact Or.inr ⟨⟨i, hi⟩, le_rfl, by dsimp only; omega,
              by rw [hfirst, pteFrame_pageAddress hpage40]⟩
          · exact Or.inl hf
          · exact Or.inr ⟨x, by omega, by omega, rfl⟩
      rw [hset]
      exact hholds

/-! ## Creating a section -/

/-- The slot `s` was free and is now that of the object `o`. -/
structure SlotTaken (s : SectionRef) (o : ObjectRef) (count : ℕ) (m m' : MmState) : Prop where
  fresh : m.sectionInUse s = false
  inUse : m'.sectionInUse = Function.update m.sectionInUse s true
  header : (m'.sectionPool s).header = some o
  pageCount : (m'.sectionPool s).pageCount = count
  other : ∀ s' ≠ s, m'.sectionPool s' = m.sectionPool s'
  tracked : m'.trackedPages = m.trackedPages

namespace SlotTaken

variable {count : ℕ}

theorem stay (h : SlotTaken s o count m m') {s' : SectionRef} (hs : m.sectionInUse s' = true) :
    m'.sectionInUse s' = true ∧ m'.sectionPool s' = m.sectionPool s' := by
  have hne : s' ≠ s := by
    rintro rfl
    rw [h.fresh] at hs
    cases hs
  rw [h.inUse, Function.update_of_ne hne]
  exact ⟨hs, h.other s' hne⟩

theorem old (h : SlotTaken s o count m m') {s' : SectionRef} (hs : m'.sectionInUse s' = true)
    (hne : s' ≠ s) : m.sectionInUse s' = true := by
  rwa [h.inUse, Function.update_of_ne hne] at hs

theorem used (h : SlotTaken s o count m m') : m'.sectionInUse s = true := by
  rw [h.inUse, Function.update_self]

theorem filled {m'' : MmState} {j : ℕ} (h : SlotTaken s o count m m')
    (hfilled : SectionFilled s 0 j m' m'') : SlotTaken s o count m m'' where
  fresh := h.fresh
  inUse := by rw [hfilled.rest]; exact h.inUse
  header := (hfilled.sections s).1.trans h.header
  pageCount := (hfilled.sections s).2.1.trans h.pageCount
  other s' hs := ((hfilled.sections s').2.2 hs).trans (h.other s' hs)
  tracked := by rw [hfilled.rest]; exact h.tracked

end SlotTaken

variable {m₁ m₂ : MmState} {count j : ℕ}

/-- The pages that the loop took were free. -/
theorem free_of_framesBetween (htaken : SlotTaken s o count m m₁)
    (hbitmap : m₁.pageBitmap = m.pageBitmap) (hfilled : SectionFilled s 0 j m₁ m₂) {f : ℕ}
    (hf : f ∈ framesBetween m₂ s 0 (0 + j)) : Free m f := by
  obtain ⟨x, hx, hx', rfl⟩ := hf
  obtain ⟨page, hpage, haddress, hfree, -⟩ := hfilled.page x hx hx'
  rw [haddress, pteFrame_pageAddress (lt_of_lt_trackedPages hpage)]
  refine ⟨by rw [← htaken.tracked]; exact hpage, ?_⟩
  rwa [mmpIsPageAllocated, hbitmap] at hfree

/-- A section that has all its pages is one of those that are in use. -/
theorem SectionShares.created (ok : SectionShares U root lent m)
    (htaken : SlotTaken s o count m m₁) (hbitmap : m₁.pageBitmap = m.pageBitmap)
    (hpos : 0 < count) (hle : count ≤ mmMaxSectionPages)
    (hfilled : SectionFilled s 0 count m₁ m₂)
    (hholds : SpaceHolds U root ({f | IsSectionPage m f} ∪ framesBetween m₂ s 0 (0 + count)) lent
      m₂) : SectionShares U root lent m₂ := by
  have htaken₂ := htaken.filled hfilled
  have hold : ∀ s' i f, s' ≠ s → m₂.sectionInUse s' = true → sectionFrame m₂ s' i = some f →
      m.sectionInUse s' = true ∧ sectionFrame m s' i = some f := by
    intro s' i f hne hs' hf
    exact ⟨htaken₂.old hs' hne, by rw [← sectionFrame_of_pool (htaken₂.other s' hne)]; exact hf⟩
  have hnew : ∀ i f, sectionFrame m₂ s i = some f →
      ∃ hi : i < mmMaxSectionPages, i < count ∧ ∃ page < m₂.trackedPages,
        (m₂.sectionPool s).pages ⟨i, hi⟩ = pageAddress page ∧ f = page := by
    intro i f hf
    rw [sectionFrame] at hf
    split at hf
    swap
    · cases hf
    next hi =>
    rw [htaken₂.pageCount] at hi
    have hcount : i < 0 + count := by
      rw [Nat.zero_add]
      exact hi.1
    obtain ⟨page, hpage, haddress, -⟩ := hfilled.page ⟨i, hi.2⟩ (Nat.zero_le _) hcount
    rw [haddress, pteFrame_pageAddress (lt_of_lt_trackedPages hpage), Option.some.injEq] at hf
    exact ⟨hi.2, hi.1, page, by rw [htaken₂.tracked, ← htaken.tracked]; exact hpage, haddress,
      hf.symm⟩
  have hbetween : ∀ i f, sectionFrame m₂ s i = some f → f ∈ framesBetween m₂ s 0 (0 + count) := by
    intro i f hf
    obtain ⟨hi, hcount, page, hpage, haddress, rfl⟩ := hnew i f hf
    exact ⟨⟨i, hi⟩, Nat.zero_le _, by dsimp only; omega,
      by rw [haddress, pteFrame_pageAddress (lt_of_lt_trackedPages hpage)]⟩
  have hset : {f | IsSectionPage m f} ∪ framesBetween m₂ s 0 (0 + count) =
      {f | IsSectionPage m₂ f} := by
    ext f
    constructor
    · rintro (hf | ⟨x, -, hx, rfl⟩)
      · exact hf.stay fun s' hs' => htaken₂.stay hs'
      · have hcount : x.val < (m₂.sectionPool s).pageCount := by
          rw [htaken₂.pageCount]
          omega
        exact ⟨s, x, htaken₂.used, by rw [sectionFrame, dif_pos ⟨hcount, x.isLt⟩]⟩
    · rintro ⟨s', i, hs', hf⟩
      by_cases hne : s' = s
      · rw [hne] at hf
        exact Or.inr (hbetween i f hf)
      · obtain ⟨hused, hframe⟩ := hold s' i f hne hs' hf
        exact Or.inl ⟨s', i, hused, hframe⟩
  rw [hset] at hholds
  refine ⟨⟨?_, ?_, ?_, ?_⟩, hholds⟩
  · intro s' hs'
    by_cases hne : s' = s
    · rw [hne, htaken₂.pageCount]
      exact hpos
    · rw [htaken₂.other s' hne]
      exact ok.sections.pageCount_pos s' (htaken₂.old hs' hne)
  · intro s' hs'
    by_cases hne : s' = s
    · rw [hne, htaken₂.pageCount]
      exact hle
    · rw [htaken₂.other s' hne]
      exact ok.sections.pageCount_le s' (htaken₂.old hs' hne)
  · intro s' hs' i hi
    by_cases hne : s' = s
    · rw [hne] at hi ⊢
      rw [htaken₂.pageCount] at hi
      obtain ⟨page, hpage, haddress, -⟩ := hfilled.page i (Nat.zero_le _) (by omega)
      exact ⟨page, by rw [htaken₂.tracked, ← htaken.tracked]; exact hpage, haddress⟩
    · rw [htaken₂.other s' hne] at hi ⊢
      rw [htaken₂.tracked]
      exact ok.sections.pages s' (htaken₂.old hs' hne) i hi
  · -- the pages of the new section were free, and those of the others in use
    have hapart : ∀ s' i i' f, s' ≠ s → m₂.sectionInUse s' = true →
        sectionFrame m₂ s' i = some f → sectionFrame m₂ s i' ≠ some f := by
      intro s' i i' f hne hs' hf hf'
      obtain ⟨hused, hframe⟩ := hold s' i f hne hs' hf
      exact (ok.holds.shared f ⟨s', i, hused, hframe⟩).2.1
        (free_of_framesBetween htaken hbitmap hfilled (hbetween i' f hf'))
    intro s₁ s₂ hs₁ hs₂ i₁ i₂ f hf₁ hf₂
    by_cases h₁ : s₁ = s <;> by_cases h₂ : s₂ = s
    · refine ⟨h₁.trans h₂.symm, ?_⟩
      rw [h₁] at hf₁
      rw [h₂] at hf₂
      obtain ⟨hi₁, hcount₁, page₁, -, haddress₁, rfl⟩ := hnew i₁ f hf₁
      obtain ⟨hi₂, hcount₂, page₂, -, haddress₂, rfl⟩ := hnew i₂ f hf₂
      rcases Nat.lt_trichotomy i₁ i₂ with hlt | heq | hlt
      · exact absurd (haddress₁.trans haddress₂.symm)
          (hfilled.distinct ⟨i₁, hi₁⟩ ⟨i₂, hi₂⟩ (Nat.zero_le _) hlt (by dsimp only; omega))
      · exact heq
      · exact absurd (haddress₂.trans haddress₁.symm)
          (hfilled.distinct ⟨i₂, hi₂⟩ ⟨i₁, hi₁⟩ (Nat.zero_le _) hlt (by dsimp only; omega))
    · rw [h₁] at hf₁
      exact absurd hf₁ (hapart s₂ i₂ i₁ f h₂ hs₂ hf₂)
    · rw [h₂] at hf₂
      exact absurd hf₂ (hapart s₁ i₁ i₂ f h₁ hs₁ hf₁)
    · obtain ⟨hused₁, hframe₁⟩ := hold s₁ i₁ f h₁ hs₁ hf₁
      obtain ⟨hused₂, hframe₂⟩ := hold s₂ i₂ f h₂ hs₂ hf₂
      exact ok.sections.apart s₁ s₂ hused₁ hused₂ i₁ i₂ f hframe₁ hframe₂

/-- A section that is dropped before it has all its pages leaves the others as they were. -/
theorem SectionShares.undone (ok : SectionShares U root lent m)
    (htaken : SlotTaken s o count m m₁) (hbitmap : m₁.pageBitmap = m.pageBitmap)
    (hzero : ∀ x, (m₁.sectionPool s).pages x = 0) (hheader : ∀ s', m.sectionInUse s' = true →
      (m.sectionPool s').header ≠ some o) (hfilled : SectionFilled s 0 j m₁ m₂)
    (habove : ∀ x : Fin mmMaxSectionPages, 0 + j ≤ x.val →
      (m₂.sectionPool s).pages x = (m₁.sectionPool s).pages x)
    (halloc : ∀ f, mmpIsPageAllocated m₂ f = true →
      mmpIsPageAllocated m₁ f = true ∨ f ∈ framesBetween m₂ s 0 (0 + j))
    (hholds : SpaceHolds U root ({f | IsSectionPage m f} ∪ framesBetween m₂ s 0 (0 + j)) lent m₂)
    (hready : m₂.ready = true) (hle : j ≤ count) (h : Dropped o m₂ m') :
    SectionShares U root lent m' ∧ (∀ s', m'.sectionInUse s' = m.sectionInUse s') ∧
      (∀ s', m.sectionInUse s' = true → m'.sectionPool s' = m.sectionPool s') ∧
      ∀ f ≠ 0, Free m f → Free m' f := by
  have htaken₂ := htaken.filled hfilled
  have huse : ∀ s', m'.sectionInUse s' = true ↔ m.sectionInUse s' = true := by
    intro s'
    rw [h.inUse]
    constructor
    · rintro ⟨hs', hne⟩
      refine htaken₂.old hs' ?_
      rintro rfl
      exact hne htaken₂.header
    · intro hs'
      obtain ⟨hused, hpool⟩ := htaken₂.stay hs'
      exact ⟨hused, by rw [hpool]; exact hheader s' hs'⟩
  have hpool : ∀ s', m'.sectionInUse s' = true → m'.sectionPool s' = m.sectionPool s' :=
    fun s' hs' => (h.pool s' hs').trans (htaken₂.stay ((huse s').1 hs')).2
  have hset : {f | IsSectionPage m' f} = {f | IsSectionPage m f} := by
    ext f
    constructor
    · exact fun hf => hf.stay fun s' hs' => ⟨(huse s').1 hs', (hpool s' hs').symm⟩
    · exact fun hf => hf.stay fun s' hs' => ⟨(huse s').2 hs', hpool s' ((huse s').2 hs')⟩
  refine ⟨⟨ok.sections.stay (fun s' hs' => ⟨(huse s').1 hs', hpool s' hs'⟩)
    (h.trackedPages.trans htaken₂.tracked), ?_⟩, fun s' => Bool.eq_iff_iff.2 (huse s'),
    fun s' hs' => hpool s' ((huse s').2 hs'), ?_⟩
  swap
  · -- what the loop took is given back
    rintro f hf ⟨htracked, hfree⟩
    have htracked₂ : f < m₂.trackedPages := by rw [htaken₂.tracked]; exact htracked
    have hgone : mmpIsPageAllocated m₂ f = true → mmpIsPageAllocated m' f = false := by
      intro hf₂
      rcases halloc f hf₂ with hold | ⟨x, hx, hx', hframe⟩
      · rw [mmpIsPageAllocated, hbitmap] at hold
        exact absurd (hold.symm.trans hfree) Bool.noConfusion
      obtain ⟨page, hpage, haddress, -⟩ := hfilled.page x hx hx'
      have hpage40 := lt_of_lt_trackedPages hpage
      rw [haddress, pteFrame_pageAddress hpage40] at hframe
      subst hframe
      have hne : (m₂.sectionPool s).pages x ≠ 0 := by
        rw [haddress]
        intro hzero'
        refine hf ?_
        rw [← pteFrame_pageAddress hpage40, hzero']
        rfl
      exact h.freed hready s htaken₂.used htaken₂.header x
        (by rw [htaken₂.pageCount]; omega) hne page htracked₂ haddress
    refine ⟨by rw [h.trackedPages]; exact htracked₂, ?_⟩
    rcases h.touched f with ⟨hsame, -⟩ | ⟨hfree', -⟩
    · cases hbit : mmpIsPageAllocated m₂ f with
      | false => exact hsame.trans hbit
      | true => exact hgone hbit
    · exact hfree'
  rw [hset]
  refine hholds.dropped h Set.subset_union_left ok.holds.lent_shared ?_
  rintro s' hs' ho f ⟨x, hx, hne, rfl⟩
  have hs : s' = s := by
    by_contra hne'
    rw [htaken₂.other s' hne'] at ho
    exact hheader s' (htaken₂.old hs' hne') ho
  rw [hs] at hne ⊢
  have hlt : x.val < 0 + j := by
    by_contra hge
    rw [habove x (Nat.not_lt.1 hge), hzero] at hne
    exact hne rfl
  obtain ⟨page, hpage, haddress, -⟩ := hfilled.page x (Nat.zero_le _) hlt
  have hpage40 := lt_of_lt_trackedPages hpage
  have hmem : ((m₂.sectionPool s).pages x).toNat / mmPageSize ∈ framesBetween m₂ s 0 (0 + j) :=
    ⟨x, Nat.zero_le _, hlt, by
      rw [haddress, pteFrame_pageAddress hpage40, toNat_pageAddress (by omega),
        Nat.mul_div_cancel _ (by decide)]⟩
  refine ⟨Or.inr hmem, fun hin => ?_⟩
  exact (ok.holds.shared _ hin).2.1 (free_of_framesBetween htaken hbitmap hfilled hmem)

/-! ## The calls -/

/-- The sections in use stay, and the address spaces. -/
structure OldStay (m m' : MmState) : Prop where
  sections : ∀ s, m.sectionInUse s = true → m'.sectionInUse s = true ∧
    m'.sectionPool s = m.sectionPool s
  addressSpacePool : m'.addressSpacePool = m.addressSpacePool
  sectionType : m'.sectionType = m.sectionType
  ready : m'.ready = m.ready

theorem OldStay.refl (m : MmState) : OldStay m m := ⟨fun _ hs => ⟨hs, rfl⟩, rfl, rfl, rfl⟩

variable {σ : Type} [MmGlobals σ] {ob : ObState σ} {k : σ} {held : ObjectRef → ℕ}

/-- What leaves the sections in use and the frames as they were. -/
theorem SectionsKept.same_sections {P : Prop} (kept : SectionsKept ob k held)
    (ok : SectionShares U root lent (mm k)) (hmem : m'.mem = (mm k).mem)
    (htracked : m'.trackedPages = (mm k).trackedPages)
    (hbitmap : m'.pageBitmap = (mm k).pageBitmap)
    (hcount : m'.pageRefCount = (mm k).pageRefCount)
    (hpool : m'.addressSpacePool = (mm k).addressSpacePool)
    (htype : m'.sectionType = (mm k).sectionType) (hready : m'.ready = (mm k).ready)
    (hsame : ∀ s, (m'.sectionInUse s = true ↔ (mm k).sectionInUse s = true) ∧
      ((mm k).sectionInUse s = true → m'.sectionPool s = (mm k).sectionPool s)) :
    SectionsKept ob (setMm m' k) held ∧ SectionShares U root lent (mm (setMm m' k)) ∧
      OldStay (mm k) (mm (setMm m' k)) ∧
      (P → ∀ f ≠ 0, Free (mm k) f → Free (mm (setMm m' k)) f) := by
  have hold : ∀ s, m'.sectionInUse s = true → (mm k).sectionInUse s = true ∧
      m'.sectionPool s = (mm k).sectionPool s := fun s hs =>
    ⟨(hsame s).1.1 hs, (hsame s).2 ((hsame s).1.1 hs)⟩
  have hset : {f | IsSectionPage m' f} = {f | IsSectionPage (mm k) f} := by
    ext f
    constructor
    · exact fun hf => hf.stay fun s hs => ⟨(hold s hs).1, (hold s hs).2.symm⟩
    · exact fun hf => hf.stay fun s hs => ⟨(hsame s).1.2 hs, (hsame s).2 hs⟩
  rw [mm_setMm]
  refine ⟨kept.sections (by rw [mm_setMm]; exact htype) fun s hs => ?_,
    ⟨ok.sections.stay hold htracked, ?_⟩,
    ⟨fun s hs => ⟨(hsame s).1.2 hs, (hsame s).2 hs⟩, hpool, htype, hready⟩, fun _ f _ hf => ?_⟩
  · rw [mm_setMm] at hs ⊢
    exact ⟨(hold s hs).1, congrArg MmSectionObject.header (hold s hs).2⟩
  · rw [hset]
    exact ok.holds.quiet (.of_eq ok.holds.tables hmem htracked hbitmap hcount)
  · rwa [Free, mmpIsPageAllocated, htracked, hbitmap]

/-- `MmCreateSectionHandle`, with any outcome. -/
theorem mmCreateSectionHandle_shares (kept : SectionsKept ob k held)
    (ok : SectionShares U root lent (mm k)) (size : U64) (access : U32) :
    SectionsKept (mmCreateSectionHandle ob k size access).1
        (mmCreateSectionHandle ob k size access).2.1 held ∧
      SectionShares U root lent (mm (mmCreateSectionHandle ob k size access).2.1) ∧
      OldStay (mm k) (mm (mmCreateSectionHandle ob k size access).2.1) ∧
      ((∃ e, (mmCreateSectionHandle ob k size access).2.2 = .error e) →
        ∀ f ≠ 0, Free (mm k) f → Free (mm (mmCreateSectionHandle ob k size access).2.1) f) := by
  rw [mmCreateSectionHandle]
  split
  · exact ⟨kept, ok, .refl _, fun _ _ _ h => h⟩
  next hready =>
  split
  · exact ⟨kept, ok, .refl _, fun _ _ _ h => h⟩
  next hcount =>
  have hready : (mm k).ready = true := Bool.eq_true_of_not_eq_false fun h => hready (Or.inl h)
  have hpos : 0 < sectionPageCount size := Nat.pos_of_ne_zero fun h => hcount (Or.inl h)
  have hle : sectionPageCount size ≤ mmMaxSectionPages := Nat.not_lt.1 fun h => hcount (Or.inr h)
  generalize sectionPageCount size = count at hpos hle ⊢
  split
  · exact ⟨kept, ok, .refl _, fun _ _ _ h => h⟩
  next s hslot =>
  have hfresh : (mm k).sectionInUse s = false := by simpa using firstIndex_sound hslot
  dsimp only
  have htype : (({ mm k with sectionInUse := Function.update (mm k).sectionInUse s true } :
      MmState).modifySection s fun _ => ⟨none, 0, fun _ => 0⟩).sectionType =
        (mm k).sectionType := rfl
  rw [htype]
  rcases hcreate : obCreateObject ob (mm k).sectionType (some mmSectionName) mmSectionAccessAll 0
    with ⟨ob₁, e | o⟩
  · -- the slot is free again, and nothing else changed
    have hob : ob₁ = ob := by
      rcases obCreateObject_cases ob (mm k).sectionType (some mmSectionName) mmSectionAccessAll 0
        with ⟨e', heq⟩ | ⟨o, t, nm, -, -, -, heq⟩
      · exact congrArg Prod.fst (hcreate.symm.trans heq)
      · cases hcreate.symm.trans heq
    rw [hob]
    refine kept.same_sections ok rfl rfl rfl rfl rfl rfl rfl fun s' => ?_
    by_cases hs : s' = s
    · rw [hs, hfresh]
      simp [MmState.modifySection]
    · simp [MmState.modifySection, Function.update_of_ne hs]
  dsimp only
  generalize hm : ((({ mm k with sectionInUse := Function.update (mm k).sectionInUse s true } :
      MmState).modifySection s fun _ => ⟨none, 0, fun _ => 0⟩).modifySection s fun sec =>
        { sec with header := some o, pageCount := count }) = m₁
  have hpool : m₁.sectionPool = Function.update (mm k).sectionPool s
      ⟨some o, count, fun _ => 0⟩ := by
    rw [← hm]
    simp [MmState.modifySection]
  have htaken : SlotTaken s o count (mm k) m₁ := by
    refine ⟨hfresh, by rw [← hm]; rfl, ?_, ?_, fun s' hs' => ?_, by rw [← hm]; rfl⟩ <;> rw [hpool]
    · rw [Function.update_self]
    · rw [Function.update_self]
    · exact Function.update_of_ne hs' _ _
  have hzero : ∀ x, (m₁.sectionPool s).pages x = 0 := by
    intro x
    rw [hpool, Function.update_self]
  have hbitmap : m₁.pageBitmap = (mm k).pageBitmap := by
    rw [← hm]
    rfl
  have hpools : m₁.addressSpacePool = (mm k).addressSpacePool ∧
      m₁.sectionType = (mm k).sectionType ∧ m₁.ready = (mm k).ready := by
    rw [← hm]
    exact ⟨rfl, rfl, rfl⟩
  have hquiet : Remapped U root {f | IsSectionPage (mm k) f} ∅ ∅ (mm k) m₁ := by
    rw [← hm]
    exact .of_eq ok.holds.tables rfl rfl rfl rfl
  clear hm
  obtain ⟨j, hj, m₂, r, hloop, hfilled, hall, habove, halloc, hholds⟩ :=
    mmAllocSectionPages_shared s count 0 m₁ _ (by omega) (ok.holds.quiet hquiet)
  have htaken₂ := htaken.filled hfilled
  have hpools₂ : m₂.addressSpacePool = (mm k).addressSpacePool ∧
      m₂.sectionType = (mm k).sectionType ∧ m₂.ready = (mm k).ready := by
    rw [hfilled.rest]
    exact hpools
  have htype : (mm (setMm m₂ k)).sectionType = (mm k).sectionType := by
    rw [mm_setMm]
    exact hpools₂.2.1
  obtain ⟨kept₁, hfree, hheld, hnone⟩ := kept.createObject hcreate htype
    (by rw [mm_setMm]; exact htaken₂.header)
    (fun s' hs' => by
      rw [mm_setMm, htaken₂.inUse, Function.update_of_ne hs', htaken₂.other s' hs']
      exact ⟨rfl, rfl⟩)
  have hheader : ∀ s', (mm k).sectionInUse s' = true → ((mm k).sectionPool s').header ≠ some o := by
    intro s' hs' ho
    obtain ⟨o', ho', hobject⟩ := kept.objects s' hs'
    obtain rfl : o = o' := Option.some.inj (ho.symm.trans ho')
    rw [hobject.inUse] at hfree
    cases hfree
  rw [hheld] at kept₁
  have hback : Function.update (Function.update held o (0 + 1)) o
      (Function.update held o (0 + 1) o - 1) = held := by
    rw [Function.update_idem, Function.update_self, ← hheld, Nat.add_sub_cancel,
      Function.update_eq_self]
  have hone : Function.update held o (0 + 1) o = 1 := Function.update_self _ _ _
  -- the reference of the creation is given back: the last one, if there is no handle
  have hend : ∀ ob' : ObState σ, SectionsKept ob' (setMm m₂ k) (Function.update held o (0 + 1)) →
      (r = .ok () ∨ ob'.handleCount o = 0) →
      SectionsKept (obDereferenceObject ob' (setMm m₂ k) o).1
          (obDereferenceObject ob' (setMm m₂ k) o).2.1 held ∧
        SectionShares U root lent (mm (obDereferenceObject ob' (setMm m₂ k) o).2.1) ∧
        OldStay (mm k) (mm (obDereferenceObject ob' (setMm m₂ k) o).2.1) ∧
        (ob'.handleCount o = 0 →
          ∀ f ≠ 0, Free (mm k) f → Free (mm (obDereferenceObject ob' (setMm m₂ k) o).2.1) f) := by
    intro ob' kept' hor
    obtain ⟨kept'', hlast⟩ := kept'.dereference (o := o) (by rw [hone]; exact Nat.one_pos)
    rw [hback] at kept''
    refine ⟨kept'', ?_⟩
    rcases hlast with ⟨hk, hcount'⟩ | ⟨-, hdropped⟩
    · have hr : r = .ok () := hor.resolve_right (Nat.pos_iff_ne_zero.1 (hcount' hone))
      obtain rfl := hall hr
      rw [hk, mm_setMm]
      exact ⟨ok.created htaken hbitmap hpos hle hfilled hholds,
        ⟨fun s' hs' => htaken₂.stay hs', hpools₂.1, hpools₂.2.1, hpools₂.2.2⟩,
        fun hzero' => absurd hzero' (Nat.pos_iff_ne_zero.1 (hcount' hone))⟩
    · rw [mm_setMm] at hdropped
      obtain ⟨hshares, huse, hsame, hback'⟩ := ok.undone htaken hbitmap hzero hheader hfilled habove
        halloc hholds (hpools₂.2.2.trans hready) hj hdropped
      exact ⟨hshares, ⟨fun s' hs' => ⟨(huse s').trans hs', hsame s' hs'⟩,
        hdropped.addressSpacePool.trans hpools₂.1, hdropped.sectionType.trans hpools₂.2.1,
        hdropped.ready.trans hpools₂.2.2⟩, fun _ => hback'⟩
  rw [hloop]
  cases r with
  | error e =>
    obtain ⟨hkept, hshares, hold, hfreed⟩ := hend ob₁ kept₁ (Or.inr hnone)
    exact ⟨hkept, hshares, hold, fun _ => hfreed hnone⟩
  | ok _ =>
    have hlive : ob₁.objectInUse o = true := by
      obtain ⟨namedId, issued, hlife⟩ := kept₁.tracks
      exact (hlife.inUse_iff o).2
        (ObSystem.users_pos_of_held (lt_of_lt_of_eq Nat.one_pos hone.symm))
    obtain ⟨hkept, hshares, hold, hfreed⟩ :=
      hend _ (kept₁.insertHandle hlive (by rw [hone]; decide) access) (Or.inl rfl)
    refine ⟨hkept, hshares, hold, ?_⟩
    rintro ⟨e, he⟩
    -- the handle was refused, so the object has none
    refine hfreed ?_
    rcases obInsertHandle_cases ob₁ o access with ⟨-, e', heq⟩ | ⟨i, -, -, heq⟩
    · rw [heq]
      exact hnone
    · dsimp only at he
      rw [heq] at he
      cases he

end NtxKernel.Mm
