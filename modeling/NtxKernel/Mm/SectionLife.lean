import NtxKernel.Mm.Ownership
import NtxKernel.Ob.Lifetime

/-!
# Sections and their objects

What the object manager and the memory manager know of the same section, over the calls that make
and drop references to it.

* `Dropped` is what the delete routine of sections does to the memory manager.
* `Tracks` is the lifetime of objects, with the references that are held outside of handles.
* `SectionsKept` is the invariant: the object of every section in use is in use, with the type and
  the access mask that the section was created with, and no handle has more access than the mask of
  its object.
-/

namespace NtxKernel.Mm

open Foundations Ob MmGlobals

variable {m m' m'' : MmState} {s : SectionRef} {o : ObjectRef}

/-! ## The delete routine -/

/-- The pages that the delete routine of a section gives back. -/
def sectionPagesOf (m : MmState) (s : SectionRef) : Set ℕ :=
  {f | ∃ i : Fin mmMaxSectionPages, i.val < (m.sectionPool s).pageCount ∧
    (m.sectionPool s).pages i ≠ 0 ∧ ((m.sectionPool s).pages i).toNat / mmPageSize = f}

/-- The loop gave back pages among the first `n` of the section. -/
structure PagesFreed (s : SectionRef) (n : ℕ) (m m' : MmState) : Prop where
  rest : m' = { m with
    pageBitmap := m'.pageBitmap
    pageRefCount := m'.pageRefCount
    sectionPool := m'.sectionPool }
  other : ∀ s' ≠ s, m'.sectionPool s' = m.sectionPool s'
  pages : ∀ i, (m'.sectionPool s).pages i ≠ 0 →
    (m'.sectionPool s).pages i = (m.sectionPool s).pages i
  later : ∀ i : Fin mmMaxSectionPages, n ≤ i.val →
    (m'.sectionPool s).pages i = (m.sectionPool s).pages i
  kept : ∀ f, (∀ i : Fin mmMaxSectionPages, i.val < n → (m.sectionPool s).pages i ≠ 0 →
      ((m.sectionPool s).pages i).toNat / mmPageSize ≠ f) →
    mmpIsPageAllocated m' f = mmpIsPageAllocated m f ∧ m'.pageRefCount f = m.pageRefCount f
  /-- A page is as it was, or it is free and not counted. -/
  touched : ∀ f, (mmpIsPageAllocated m' f = mmpIsPageAllocated m f ∧
    m'.pageRefCount f = m.pageRefCount f) ∨ mmpIsPageAllocated m' f = false ∧ m'.pageRefCount f = 0
  freed : m.ready = true → ∀ i : Fin mmMaxSectionPages, i.val < n →
    (m.sectionPool s).pages i ≠ 0 → ∀ page < m.trackedPages,
      (m.sectionPool s).pages i = pageAddress page → mmpIsPageAllocated m' page = false

/-- Freeing a page changes nothing of the others. -/
theorem mmFreePage_kept (m : MmState) (pa : U64) :
    (mmFreePage m pa).1 = { m with
      pageBitmap := (mmFreePage m pa).1.pageBitmap
      pageRefCount := (mmFreePage m pa).1.pageRefCount } ∧
    (∀ f, pa.toNat / mmPageSize ≠ f →
      mmpIsPageAllocated (mmFreePage m pa).1 f = mmpIsPageAllocated m f ∧
        (mmFreePage m pa).1.pageRefCount f = m.pageRefCount f) ∧
    ∀ f, (mmpIsPageAllocated (mmFreePage m pa).1 f = mmpIsPageAllocated m f ∧
        (mmFreePage m pa).1.pageRefCount f = m.pageRefCount f) ∨
      mmpIsPageAllocated (mmFreePage m pa).1 f = false ∧
        (mmFreePage m pa).1.pageRefCount f = 0 := by
  rw [mmFreePage]
  split
  · exact ⟨rfl, fun f _ => ⟨rfl, rfl⟩, fun f => Or.inl ⟨rfl, rfl⟩⟩
  dsimp only
  split
  · exact ⟨rfl, fun f _ => ⟨rfl, rfl⟩, fun f => Or.inl ⟨rfl, rfl⟩⟩
  split
  · exact ⟨rfl, fun f _ => ⟨rfl, rfl⟩, fun f => Or.inl ⟨rfl, rfl⟩⟩
  have hother : ∀ f, pa.toNat / mmPageSize ≠ f → mmpIsPageAllocated
      (mmpSetPageFree (m.setRefCount (pa.toNat / mmPageSize) 0) (pa.toNat / mmPageSize)) f =
        mmpIsPageAllocated m f := by
    intro f hf
    rw [mmpIsPageAllocated_setPageFree, decide_eq_false (Ne.symm hf), Bool.not_false, Bool.true_and]
    rfl
  refine ⟨rfl, fun f hf => ⟨hother f hf, Function.update_of_ne (Ne.symm hf) _ _⟩, fun f => ?_⟩
  by_cases hf : pa.toNat / mmPageSize = f
  · refine Or.inr ⟨?_, ?_⟩
    · rw [mmpIsPageAllocated_setPageFree, decide_eq_true hf.symm, Bool.not_true, Bool.false_and]
    · rw [← hf]
      exact Function.update_self _ _ _
  · exact Or.inl ⟨hother f hf, Function.update_of_ne (Ne.symm hf) _ _⟩

/-- A page that is tracked is free when it was freed. -/
theorem mmFreePage_freed {m : MmState} (hready : m.ready = true) {page : ℕ}
    (hpage : page < m.trackedPages) :
    mmpIsPageAllocated (mmFreePage m (pageAddress page)).1 page = false := by
  have hpage40 := lt_of_lt_trackedPages hpage
  have haddress : (pageAddress page).toNat = page * mmPageSize := toNat_pageAddress (by omega)
  have hdiv : (pageAddress page).toNat / mmPageSize = page := by
    rw [haddress]
    exact Nat.mul_div_cancel _ (by decide)
  have hmod : (pageAddress page).toNat % mmPageSize = 0 := by
    rw [haddress]
    exact Nat.mul_mod_left _ _
  rw [mmFreePage, hdiv, hmod, hready]
  dsimp only
  rw [if_neg (by decide), if_neg (Nat.not_le.2 hpage)]
  split
  next hfree => exact hfree
  · rw [mmpIsPageAllocated_setPageFree, decide_eq_true rfl, Bool.not_true, Bool.false_and]

theorem mmpFreeSectionPages_freed (s : SectionRef) (n : ℕ) (m : MmState) :
    PagesFreed s n m (mmpFreeSectionPages s n m) := by
  induction n with
  | zero =>
    exact ⟨rfl, fun _ _ => rfl, fun _ _ => rfl, fun _ _ => rfl, fun _ _ => ⟨rfl, rfl⟩,
      fun _ => Or.inl ⟨rfl, rfl⟩, fun _ _ hi => absurd hi (Nat.not_lt_zero _)⟩
  | succ n ih =>
    have hmore : (∀ i : Fin mmMaxSectionPages, i.val = n →
        ((mmpFreeSectionPages s n m).sectionPool s).pages i ≠ 0 → False) →
          PagesFreed s (n + 1) m (mmpFreeSectionPages s n m) := fun hlast =>
      { ih with
        later := fun i hi => ih.later i (Nat.le_of_succ_le hi)
        kept := fun f hf => ih.kept f fun i hi => hf i (Nat.lt_succ_of_lt hi)
        freed := fun hready i hi hne page hpage haddress => by
          rcases Nat.lt_succ_iff_lt_or_eq.1 hi with hlt | heq
          · exact ih.freed hready i hlt hne page hpage haddress
          · refine (hlast i heq ?_).elim
            rw [ih.later i (Nat.le_of_eq heq.symm)]
            exact hne }
    rw [mmpFreeSectionPages]
    dsimp only
    split
    swap
    next hn => exact hmore fun i hi _ => hn (hi ▸ i.isLt)
    next hn =>
    split
    swap
    next hzero =>
      refine hmore fun i hi hne => hne ?_
      obtain rfl : i = ⟨n, hn⟩ := Fin.ext hi
      exact not_not.1 hzero
    next hne =>
    obtain ⟨hrest, hkept, htouched⟩ := mmFreePage_kept (mmpFreeSectionPages s n m)
      (((mmpFreeSectionPages s n m).sectionPool s).pages ⟨n, hn⟩)
    have hsame := ih.pages ⟨n, hn⟩ hne
    have hfreed : m.ready = true → ∀ page < m.trackedPages,
        (m.sectionPool s).pages ⟨n, hn⟩ = pageAddress page →
        mmpIsPageAllocated (mmFreePage (mmpFreeSectionPages s n m)
          (((mmpFreeSectionPages s n m).sectionPool s).pages ⟨n, hn⟩)).1 page = false := by
      intro hready page hpage haddress
      rw [hsame, haddress]
      exact mmFreePage_freed (by rw [ih.rest]; exact hready) (by rw [ih.rest]; exact hpage)
    generalize mmpFreeSectionPages s n m = m₁ at ih hne hrest hkept htouched hsame hfreed ⊢
    generalize (mmFreePage m₁ ((m₁.sectionPool s).pages ⟨n, hn⟩)).1 = m₂
      at hrest hkept htouched hfreed ⊢
    have hpool : m₂.sectionPool = m₁.sectionPool := by rw [hrest]
    constructor
    · rw [MmState.modifySection, hrest, ih.rest]
    · intro s' hs'
      rw [MmState.modifySection, hpool]
      exact (Function.update_of_ne hs' _ _).trans (ih.other s' hs')
    · intro i hi
      simp only [MmState.modifySection, Function.update_self, hpool] at hi ⊢
      by_cases hin : i = ⟨n, hn⟩
      · rw [hin, Function.update_self] at hi
        exact absurd rfl hi
      · rw [Function.update_of_ne hin] at hi ⊢
        exact ih.pages i hi
    · intro i hi
      have hin : i ≠ ⟨n, hn⟩ := by
        rintro rfl
        exact absurd hi (Nat.not_succ_le_self n)
      simp only [MmState.modifySection, Function.update_self, hpool, Function.update_of_ne hin]
      exact ih.later i (Nat.le_of_succ_le hi)
    · intro f hf
      have hlast : ((m₁.sectionPool s).pages ⟨n, hn⟩).toNat / mmPageSize ≠ f := by
        rw [hsame] at hne ⊢
        exact hf ⟨n, hn⟩ (Nat.lt_succ_self n) hne
      obtain ⟨hbit, hcount⟩ := hkept f hlast
      obtain ⟨hbit', hcount'⟩ := ih.kept f fun i hi => hf i (Nat.lt_succ_of_lt hi)
      exact ⟨hbit.trans hbit', hcount.trans hcount'⟩
    · intro f
      rcases htouched f with ⟨hbit, hcount⟩ | hfree
      · exact (ih.touched f).imp (fun h => ⟨hbit.trans h.1, hcount.trans h.2⟩)
          fun h => ⟨hbit.trans h.1, hcount.trans h.2⟩
      · exact Or.inr hfree
    · intro hready i hi hne' page hpage haddress
      rcases Nat.lt_succ_iff_lt_or_eq.1 hi with hlt | heq
      · -- a page that is free stays so
        have hfree := ih.freed hready i hlt hne' page hpage haddress
        exact (htouched page).elim (fun h => h.1.trans hfree) And.left
      · obtain rfl : i = ⟨n, hn⟩ := Fin.ext heq
        exact hfreed hready page hpage haddress

/-- The section of the object, if it has one, was deleted. -/
structure Dropped (o : ObjectRef) (m m' : MmState) : Prop where
  rest : m' = { m with
    pageBitmap := m'.pageBitmap
    pageRefCount := m'.pageRefCount
    sectionPool := m'.sectionPool
    sectionInUse := m'.sectionInUse }
  inUse : ∀ s, m'.sectionInUse s = true ↔
    m.sectionInUse s = true ∧ (m.sectionPool s).header ≠ some o
  pool : ∀ s, m'.sectionInUse s = true → m'.sectionPool s = m.sectionPool s
  kept : ∀ f, (∀ s, m.sectionInUse s = true → (m.sectionPool s).header = some o →
      f ∉ sectionPagesOf m s) →
    mmpIsPageAllocated m' f = mmpIsPageAllocated m f ∧ m'.pageRefCount f = m.pageRefCount f
  touched : ∀ f, (mmpIsPageAllocated m' f = mmpIsPageAllocated m f ∧
    m'.pageRefCount f = m.pageRefCount f) ∨ mmpIsPageAllocated m' f = false ∧ m'.pageRefCount f = 0
  freed : m.ready = true → ∀ s, m.sectionInUse s = true → (m.sectionPool s).header = some o →
    ∀ i : Fin mmMaxSectionPages, i.val < (m.sectionPool s).pageCount →
      (m.sectionPool s).pages i ≠ 0 → ∀ page < m.trackedPages,
        (m.sectionPool s).pages i = pageAddress page → mmpIsPageAllocated m' page = false

/-- No two sections in use have one object. -/
def HeadersApart (m : MmState) : Prop :=
  ∀ s s' o, m.sectionInUse s = true → m.sectionInUse s' = true →
    (m.sectionPool s).header = some o → (m.sectionPool s').header = some o → s = s'

/-- The section of an object is the one that has it. -/
theorem mmpFindSectionByHeader_eq_some (hapart : HeadersApart m) :
    mmpFindSectionByHeader m (some o) = some s ↔
      m.sectionInUse s = true ∧ (m.sectionPool s).header = some o := by
  constructor
  · exact fun h => MmSystem.mmpFindSectionByHeader_sound h
  · rintro ⟨hused, hheader⟩
    cases hfind : mmpFindSectionByHeader m (some o) with
    | none =>
      have hnone := firstIndex_eq_none.1 hfind s
      rw [hused, decide_eq_true hheader] at hnone
      cases hnone
    | some s' =>
      obtain ⟨hused', hheader'⟩ := MmSystem.mmpFindSectionByHeader_sound hfind
      rw [hapart s' s o hused' hused hheader' hheader]

theorem mmpFindSectionByHeader_eq_none (h : mmpFindSectionByHeader m (some o) = none)
    (hused : m.sectionInUse s = true) : (m.sectionPool s).header ≠ some o := by
  intro hheader
  have hnone := firstIndex_eq_none.1 h s
  rw [hused, decide_eq_true hheader] at hnone
  cases hnone

/-- An object without a section. -/
theorem Dropped.of_none (h : ∀ s, m.sectionInUse s = true → (m.sectionPool s).header ≠ some o) :
    Dropped o m m where
  rest := rfl
  inUse s := ⟨fun hs => ⟨hs, h s hs⟩, And.left⟩
  pool _ _ := rfl
  kept _ _ := ⟨rfl, rfl⟩
  touched _ := Or.inl ⟨rfl, rfl⟩
  freed _ s hs ho := absurd ho (h s hs)

theorem mmpDeleteSectionObject_dropped (hapart : HeadersApart m) (o : ObjectRef) :
    Dropped o m (mmpDeleteSectionObject m o) := by
  rw [mmpDeleteSectionObject]
  cases hfind : mmpFindSectionByHeader m (some o) with
  | none => exact .of_none fun s => mmpFindSectionByHeader_eq_none hfind
  | some s =>
    obtain ⟨hused, hheader⟩ := (mmpFindSectionByHeader_eq_some hapart).1 hfind
    have hfreed := mmpFreeSectionPages_freed s (m.sectionPool s).pageCount m
    dsimp only
    generalize mmpFreeSectionPages s (m.sectionPool s).pageCount m = m₁ at hfreed ⊢
    have huse : m₁.sectionInUse = m.sectionInUse := by rw [hfreed.rest]
    constructor
    · rw [MmState.modifySection, hfreed.rest]
    · intro s'
      simp only [MmState.modifySection, huse]
      by_cases hs : s' = s
      · rw [hs, Function.update_self]
        exact ⟨fun h => absurd h Bool.false_ne_true, fun h => absurd hheader h.2⟩
      · rw [Function.update_of_ne hs]
        exact ⟨fun h => ⟨h, fun h' => hs (hapart s' s o h hused h' hheader)⟩, And.left⟩
    · intro s' hs'
      simp only [MmState.modifySection, huse] at hs' ⊢
      have hs : s' ≠ s := by
        rintro rfl
        rw [Function.update_self] at hs'
        cases hs'
      rw [Function.update_of_ne hs]
      exact hfreed.other s' hs
    · intro f hf
      exact hfreed.kept f fun i hi hne hpage => hf s hused hheader ⟨i, hi, hne, hpage⟩
    · exact hfreed.touched
    · intro hready s' hs' ho i hi hne page hpage haddress
      obtain rfl := hapart s' s o hs' hused ho hheader
      exact hfreed.freed hready i hi hne page hpage haddress

namespace Dropped

theorem mem (h : Dropped o m m') : m'.mem = m.mem := by rw [h.rest]

theorem trackedPages (h : Dropped o m m') : m'.trackedPages = m.trackedPages := by rw [h.rest]

theorem ready (h : Dropped o m m') : m'.ready = m.ready := by rw [h.rest]

theorem sectionType (h : Dropped o m m') : m'.sectionType = m.sectionType := by rw [h.rest]

theorem addressSpacePool (h : Dropped o m m') : m'.addressSpacePool = m.addressSpacePool := by
  rw [h.rest]

end Dropped

/-! ## The objects of sections -/

section

variable {σ : Type} [MmGlobals σ]

/-- The object manager keeps the lifetime of objects, where `held` counts the references that are
held outside of handles. -/
def Tracks (ob : ObState σ) (k : σ) (held : ObjectRef → ℕ) : Prop :=
  ∃ namedId issued, ObLifetime ⟨ob, k, held, namedId, issued⟩

/-- The object is in use and is that of a section. -/
structure SectionObject (ob : ObState σ) (m : MmState) (o : ObjectRef) : Prop where
  inUse : ob.objectInUse o = true
  type : ∃ t, (ob.objectPool o).type = some t ∧ m.sectionType = some t
  mask : (ob.objectPool o).defaultAccessMask = mmSectionAccessAll

/-- What the two managers know of the same sections. -/
structure SectionsKept (ob : ObState σ) (k : σ) (held : ObjectRef → ℕ) : Prop where
  routines : RoutinesOk ob
  sectionType : SectionTypeOk ob k
  tracks : Tracks ob k held
  /-- No handle has access outside the mask of its object. -/
  granted : ∀ i e, ob.kernelHandleTable.entries i = some e →
    e.grantedAccess &&& (ob.objectPool e.object).defaultAccessMask = e.grantedAccess
  objects : ∀ s, (mm k).sectionInUse s = true →
    ∃ o, ((mm k).sectionPool s).header = some o ∧ SectionObject ob (mm k) o
  apart : HeadersApart (mm k)

namespace SectionsKept

variable {ob ob' : ObState σ} {k k' : σ} {held : ObjectRef → ℕ}

/-- The headers are those that the object manager has, if the sections in use stay. -/
theorem sections (h : SectionsKept ob k held) (hmm : (mm k').sectionType = (mm k).sectionType)
    (hsame : ∀ s, (mm k').sectionInUse s = true → (mm k).sectionInUse s = true ∧
      ((mm k').sectionPool s).header = ((mm k).sectionPool s).header) :
    SectionsKept ob k' held where
  routines := h.routines
  sectionType t ht := h.sectionType t (hmm ▸ ht)
  tracks := by
    obtain ⟨namedId, issued, hlife⟩ := h.tracks
    exact ⟨namedId, issued, hlife.unchanged rfl rfl rfl⟩
  granted := h.granted
  objects s hs := by
    obtain ⟨hused, hheader⟩ := hsame s hs
    obtain ⟨o, ho, hobject⟩ := h.objects s hused
    exact ⟨o, hheader.trans ho, hobject.inUse, by rw [hmm]; exact hobject.type, hobject.mask⟩
  apart s s' o hs hs' ho ho' := by
    obtain ⟨hused, hheader⟩ := hsame s hs
    obtain ⟨hused', hheader'⟩ := hsame s' hs'
    exact h.apart s s' o hused hused' (hheader.symm.trans ho) (hheader'.symm.trans ho')

theorem ready (h : SectionsKept ob k held) : ob.ready = true := by
  obtain ⟨_, _, hlife⟩ := h.tracks
  exact hlife.ready

/-- Objects in use keep what their handles and sections rely on. -/
structure SameObjects (ob ob' : ObState σ) : Prop where
  types : ob'.typePool = ob.typePool
  inUse : ∀ o, ob.objectInUse o = true → ob'.objectInUse o = true
  object : ∀ o, ob.objectInUse o = true →
    (ob'.objectPool o).type = (ob.objectPool o).type ∧
      (ob'.objectPool o).defaultAccessMask = (ob.objectPool o).defaultAccessMask

/-- A call that ends no object. -/
theorem objects_stay (h : SectionsKept ob k held) (hsame : SameObjects ob ob')
    {held' : ObjectRef → ℕ} (htracks : Tracks ob' k held')
    (hentries : ∀ i e, ob'.kernelHandleTable.entries i = some e →
      ob.kernelHandleTable.entries i = some e ∨ ob.objectInUse e.object = true ∧
        e.grantedAccess &&& (ob.objectPool e.object).defaultAccessMask = e.grantedAccess) :
    SectionsKept ob' k held' where
  routines t routine hroutine := h.routines t routine (by rw [← hsame.types]; exact hroutine)
  sectionType t ht := by rw [hsame.types]; exact h.sectionType t ht
  tracks := htracks
  granted i e he := by
    obtain ⟨_, _, hlife⟩ := h.tracks
    rcases hentries i e he with hold | ⟨hused, hgranted⟩
    · rw [(hsame.object _ (hlife.entry_named i e hold).1).2]
      exact h.granted i e hold
    · rw [(hsame.object _ hused).2]
      exact hgranted
  objects s hs := by
    obtain ⟨o, ho, hobject⟩ := h.objects s hs
    obtain ⟨htype, hmask⟩ := hsame.object o hobject.inUse
    exact ⟨o, ho, hsame.inUse o hobject.inUse, by rw [htype]; exact hobject.type,
      hmask.trans hobject.mask⟩
  apart := h.apart

omit [MmGlobals σ] in
/-- Counting a reference changes nothing else of an object. -/
theorem sameObjects_count (ob : ObState σ) (o : ObjectRef) (c : U32) (table : ObHandleTable) :
    SameObjects ob { ob with
      kernelHandleTable := table
      objectPool := Function.update ob.objectPool o { ob.objectPool o with refCount := c } } := by
  refine ⟨rfl, fun _ hused => hused, fun o' _ => ?_⟩
  dsimp only
  by_cases ho : o' = o
  · rw [ho, Function.update_self]
    exact ⟨rfl, rfl⟩
  · rw [Function.update_of_ne ho]
    exact ⟨rfl, rfl⟩

omit [MmGlobals σ] in
/-- Handles are no more than the entries of the table. -/
theorem handleCount_le (ob : ObState σ) (o : ObjectRef) : ob.handleCount o ≤ obMaxHandles := by
  have hle := countCells_le_card (fun e : Option ObHandleTableEntry => e.any (·.object == o))
    ob.kernelHandleTable.entries
  rwa [Fintype.card_fin] at hle

/-- `ObInsertHandle` on an object in use. -/
theorem insertHandle (h : SectionsKept ob k held) {o : ObjectRef} (ho : ob.objectInUse o = true)
    (hheld : held o < 2 ^ 31) (access : U32) :
    SectionsKept (obInsertHandle ob o access).1 k held := by
  obtain ⟨namedId, issued, hlife⟩ := h.tracks
  have hperform := hlife.perform_insertHandle ho access
  rw [ObSystem.perform] at hperform
  rcases obInsertHandle_cases ob o access with ⟨-, e, heq⟩ | ⟨i, hi, hmask, heq⟩
  · rw [heq]
    exact h
  dsimp only at hperform
  rw [heq] at hperform ⊢
  have hbound := handleCount_le (obInsertHandle ob o access).1 o
  rw [heq] at hbound
  have hmax : obMaxHandles = 512 := rfl
  obtain ⟨hlife', -⟩ := hperform (lt_of_le_of_lt (Nat.add_le_add_right hbound (held o)) (by omega))
  refine h.objects_stay (sameObjects_count ob o _ _) ⟨_, _, hlife'⟩ fun j e he => ?_
  by_cases hj : j = i
  · rw [hj] at he
    dsimp only at he
    rw [Function.update_self, Option.some.injEq] at he
    rw [← he]
    exact Or.inr ⟨ho, hmask⟩
  · dsimp only at he
    rw [Function.update_of_ne hj] at he
    exact Or.inl he

/-- `ObReferenceObjectByHandle`, where it gives a reference. -/
theorem referenceByHandle (h : SectionsKept ob k held) {v desired : U32}
    {expected : Option TypeRef} {o : ObjectRef}
    (href : obReferenceObjectByHandle ob v desired expected = (ob', .ok o))
    (hheld : held o < 2 ^ 31) :
    SectionsKept ob' k (Function.update held o (held o + 1)) := by
  obtain ⟨namedId, issued, hlife⟩ := h.tracks
  have hperform := hlife.perform_referenceByHandle v desired expected
  rw [ObSystem.perform] at hperform
  dsimp only at hperform
  rcases obReferenceObjectByHandle_cases ob v desired expected with
    ⟨e, heq⟩ | ⟨i, e, hfind, -, -, heq⟩
  · cases href.symm.trans heq
  cases href.symm.trans heq
  rw [heq] at hperform
  have hmax : obMaxHandles = 512 := rfl
  obtain ⟨hlife', -⟩ := hperform fun i' e' hfind' => by
    cases hfind.symm.trans hfind'
    refine lt_of_le_of_lt (Nat.add_le_add_right (handleCount_le _ _) _) ?_
    dsimp only
    rw [Function.update_self]
    omega
  exact h.objects_stay (sameObjects_count ob e.object _ _) ⟨_, _, hlife'⟩ fun _ _ he => Or.inl he

/-- The last reference to an object goes, and its section with it, if it has one. -/
theorem runDeleteRoutine_dropped (h : SectionsKept ob k held) (o : ObjectRef) :
    Dropped o (mm k) (mm (ob.runDeleteRoutine o k)) := by
  by_cases hsection : ∃ s, (mm k).sectionInUse s = true ∧ ((mm k).sectionPool s).header = some o
  · obtain ⟨s, hs, ho⟩ := hsection
    obtain ⟨o', ho', hobject⟩ := h.objects s hs
    obtain rfl : o = o' := Option.some.inj (ho.symm.trans ho')
    obtain ⟨t, htype, hsectionType⟩ := hobject.type
    have hrun : ob.runDeleteRoutine o k = mmSectionDeleteRoutine o k := by
      rw [ObState.runDeleteRoutine, htype]
      dsimp only
      rw [h.sectionType t hsectionType]
    rw [hrun, mmSectionDeleteRoutine, mm_setMm]
    exact mmpDeleteSectionObject_dropped h.apart o
  · have hnone : Dropped o (mm k) (mm k) := .of_none fun s hs ho => hsection ⟨s, hs, ho⟩
    rw [ObState.runDeleteRoutine]
    split
    swap
    · exact hnone
    split
    swap
    · exact hnone
    next routine hroutine =>
    rcases h.routines _ _ hroutine with rfl | hsame
    · rw [mmSectionDeleteRoutine, mm_setMm]
      exact mmpDeleteSectionObject_dropped h.apart o
    · rw [hsame]
      exact hnone

/-- Giving back a reference ends no object, or it ends the object that it is the last reference to
and drops its section. -/
theorem lose (h : SectionsKept ob k held) {o : ObjectRef} {held' : ObjectRef → ℕ}
    {table : ObHandleTable}
    (htracks : Tracks { (obDereferenceObject ob k o).1 with kernelHandleTable := table }
      (obDereferenceObject ob k o).2.1 held')
    (htable : ∀ i e, table.entries i = some e → ob.kernelHandleTable.entries i = some e)
    (hpos : (ob.objectPool o).refCount ≠ 0) :
    SectionsKept { (obDereferenceObject ob k o).1 with kernelHandleTable := table }
        (obDereferenceObject ob k o).2.1 held' ∧
      ((obDereferenceObject ob k o).2.1 = k ∧ ob.objectInUse o =
          (obDereferenceObject ob k o).1.objectInUse o ∨
        held' o = 0 ∧ (obDereferenceObject ob k o).1.objectInUse o = false ∧
          Dropped o (mm k) (mm (obDereferenceObject ob k o).2.1)) := by
  rcases obDereferenceObject_cases ob k o with ⟨hguard, -⟩ | ⟨-, -, -, heq⟩ | ⟨-, hone, heq⟩
  · rcases hguard with hready | hzero
    · rw [h.ready] at hready
      cases hready
    · exact absurd hzero hpos
  · rw [heq] at htracks ⊢
    exact ⟨h.objects_stay (sameObjects_count ob o _ table) htracks
      fun i e he => Or.inl (htable i e he), Or.inl ⟨rfl, rfl⟩⟩
  rw [heq] at htracks ⊢
  have hdropped := h.runDeleteRoutine_dropped o
  dsimp only at htracks ⊢
  generalize ob.runDeleteRoutine o k = k' at htracks hdropped ⊢
  obtain ⟨namedId, issued, hlife⟩ := htracks
  -- no handle and no reference is left
  have hended : (ObSystem.mk _ k' held' namedId issued).users o = 0 :=
    hlife.users_eq_zero (Function.update_self _ _ _)
  have hheld : held' o = 0 := (Nat.add_eq_zero_iff.1 hended).2
  have hne : ∀ i e, table.entries i = some e → e.object ≠ o := by
    rintro i e he rfl
    have hused : Function.update ob.objectInUse e.object false e.object = true :=
      (hlife.entry_named i e he).1
    rw [Function.update_self] at hused
    cases hused
  refine ⟨⟨fun t routine hroutine => h.routines t routine hroutine, ?_,
    ⟨namedId, issued, hlife⟩, ?_, ?_, ?_⟩, Or.inr ⟨hheld, Function.update_self _ _ _, hdropped⟩⟩
  · intro t ht
    rw [hdropped.sectionType] at ht
    exact h.sectionType t ht
  · intro i e he
    dsimp only at he ⊢
    rw [Function.update_of_ne (hne i e he)]
    exact h.granted i e (htable i e he)
  · intro s hs
    obtain ⟨hused, hheader⟩ := (hdropped.inUse s).1 hs
    obtain ⟨o', ho', hobject⟩ := h.objects s hused
    have hne' : o' ≠ o := by
      rintro rfl
      exact hheader ho'
    refine ⟨o', by rw [hdropped.pool s hs]; exact ho', ?_, ?_, ?_⟩
    · dsimp only
      rw [Function.update_of_ne hne']
      exact hobject.inUse
    · dsimp only
      rw [Function.update_of_ne hne', hdropped.sectionType]
      exact hobject.type
    · dsimp only
      rw [Function.update_of_ne hne']
      exact hobject.mask
  · intro s s' o' hs hs' ho ho'
    rw [hdropped.pool s hs] at ho
    rw [hdropped.pool s' hs'] at ho'
    exact h.apart s s' o' ((hdropped.inUse s).1 hs).1 ((hdropped.inUse s').1 hs').1 ho ho'

theorem refCount_ne_zero (h : SectionsKept ob k held) {o : ObjectRef}
    (ho : ob.objectInUse o = true) : (ob.objectPool o).refCount ≠ 0 := by
  obtain ⟨namedId, issued, hlife⟩ := h.tracks
  exact hlife.refCount_ne_zero ((hlife.inUse_iff o).1 ho)

/-- The count of an object does not wrap. -/
theorem refCount_lt (h : SectionsKept ob k held) {o : ObjectRef} (hheld : held o < 2 ^ 31) :
    (ob.objectPool o).refCount.toNat + 1 < 2 ^ 32 := by
  obtain ⟨namedId, issued, hlife⟩ := h.tracks
  have hle := handleCount_le ob o
  have hcount := hlife.refCount_eq o
  rw [ObSystem.users] at hcount
  dsimp only at hcount
  have hmax : obMaxHandles = 512 := rfl
  omega

/-- `ObDereferenceObject` on a reference that is held. -/
theorem dereference (h : SectionsKept ob k held) {o : ObjectRef} (ho : 0 < held o) :
    SectionsKept (obDereferenceObject ob k o).1 (obDereferenceObject ob k o).2.1
        (Function.update held o (held o - 1)) ∧
      ((obDereferenceObject ob k o).2.1 = k ∧ (held o = 1 → 0 < ob.handleCount o) ∨
        held o = 1 ∧ Dropped o (mm k) (mm (obDereferenceObject ob k o).2.1)) := by
  obtain ⟨namedId, issued, hlife⟩ := h.tracks
  obtain ⟨hlife', -⟩ := hlife.perform_dereference ho
  have hpos := hlife.refCount_ne_zero (ObSystem.users_pos_of_held (s := ⟨ob, k, held, _, _⟩) ho)
  have htable := obDereferenceObject_table ob k o
  have htracks : Tracks { (obDereferenceObject ob k o).1 with
      kernelHandleTable := (obDereferenceObject ob k o).1.kernelHandleTable }
      (obDereferenceObject ob k o).2.1 (Function.update held o (held o - 1)) :=
    ⟨namedId, issued, hlife'⟩
  obtain ⟨hkept, hdropped⟩ := h.lose htracks (fun i e he => by rw [htable] at he; exact he) hpos
  refine ⟨hkept, hdropped.imp (fun ⟨hk, hused⟩ => ⟨hk, fun hone => ?_⟩)
    fun ⟨hzero, _, hd⟩ => ⟨?_, hd⟩⟩
  · -- the object is still in use, and no reference is left
    have hlive : (obDereferenceObject ob k o).1.objectInUse o = true := by
      rw [← hused]
      exact (hlife.inUse_iff o).2 (ObSystem.users_pos_of_held ho)
    have hpos' := (hlife'.inUse_iff o).1 hlive
    rw [ObSystem.users, ObState.handleCount] at hpos'
    simp only [ObSystem.perform, Function.update_self, hone, htable] at hpos'
    exact hpos'
  · rw [Function.update_self] at hzero
    omega

/-- `ObCloseHandle`. -/
theorem closeHandle (h : SectionsKept ob k held) (v : U32) :
    SectionsKept (obCloseHandle ob k v).1 (obCloseHandle ob k v).2.1 held ∧
      ((obCloseHandle ob k v).2.1 = k ∨
        ∃ o, held o = 0 ∧ (obCloseHandle ob k v).1.objectInUse o = false ∧
          Dropped o (mm k) (mm (obCloseHandle ob k v).2.1)) := by
  obtain ⟨namedId, issued, hlife⟩ := h.tracks
  obtain ⟨hlife', -⟩ := hlife.perform_closeHandle v
  rcases obCloseHandle_cases ob k v with ⟨e, heq⟩ | ⟨i, e, hfind, heq⟩
  · rw [heq]
    exact ⟨h, Or.inl rfl⟩
  obtain ⟨hi, -, -⟩ := obpFindHandleEntry_eq_some.1 hfind
  have hlive := (hlife.entry_named i e hi).1
  have htracks : Tracks (obCloseHandle ob k v).1 (obCloseHandle ob k v).2.1 held := by
    have hob := ObSystem.perform_closeHandle_ob (⟨ob, k, held, namedId, issued⟩ : ObSystem σ) v
    have hrest := ObSystem.perform_closeHandle_rest (⟨ob, k, held, namedId, issued⟩ : ObSystem σ) v
    have hheld : (ObSystem.perform ⟨ob, k, held, namedId, issued⟩ (.closeHandle v)).held = held :=
      ObSystem.perform_closeHandle_held ..
    generalize ObSystem.perform ⟨ob, k, held, namedId, issued⟩ (.closeHandle v) = s
      at hlife' hob hrest hheld
    rw [← hob, ← hrest, ← hheld]
    exact ⟨s.namedId, s.issued, hlife'⟩
  rw [heq] at htracks ⊢
  rw [ObState.setEntry] at htracks ⊢
  obtain ⟨hkept, hdropped⟩ := h.lose htracks
    (fun j e' hj => by
      rw [obDereferenceObject_table] at hj
      dsimp only at hj
      by_cases hji : j = i
      · rw [hji, Function.update_self] at hj
        cases hj
      · rwa [Function.update_of_ne hji] at hj)
    (h.refCount_ne_zero hlive)
  exact ⟨hkept, hdropped.imp And.left fun hd => ⟨e.object, hd⟩⟩

/-- `ObCreateObject` for the object of a section whose slot was free. -/
theorem createObject (h : SectionsKept ob k held) {name : CString} {o : ObjectRef}
    (hcreate : obCreateObject ob (mm k).sectionType (some name) mmSectionAccessAll 0 =
      (ob', .ok o)) (htype : (mm k').sectionType = (mm k).sectionType)
    (hheader : ((mm k').sectionPool s).header = some o)
    (huse : ∀ s' ≠ s, (mm k').sectionInUse s' = (mm k).sectionInUse s' ∧
      ((mm k').sectionPool s').header = ((mm k).sectionPool s').header) :
    SectionsKept ob' k' (Function.update held o (held o + 1)) ∧ ob.objectInUse o = false ∧
      held o = 0 ∧ ob'.handleCount o = 0 := by
  obtain ⟨namedId, issued, hlife⟩ := h.tracks
  rcases obCreateObject_cases ob (mm k).sectionType (some name) mmSectionAccessAll 0 with
    ⟨e, heq⟩ | ⟨o', t, nm, ht, -, hfree, heq⟩
  · cases hcreate.symm.trans heq
  rw [hcreate] at heq
  obtain rfl : o = o' := by
    have hok := congrArg Prod.snd heq
    cases hok
    rfl
  have hob := congrArg Prod.fst heq
  dsimp only at hob
  have hnone := Nat.add_eq_zero_iff.1 (hlife.users_eq_zero hfree)
  obtain ⟨hlife', -⟩ := hlife.perform_createObject t name mmSectionAccessAll 0
  rw [ObSystem.perform] at hlife'
  dsimp only at hlife'
  rw [← ht, hcreate] at hlife'
  have hother : ∀ o' ≠ o, ob'.objectInUse o' = ob.objectInUse o' ∧
      ob'.objectPool o' = ob.objectPool o' := by
    intro o' ho'
    rw [hob]
    exact ⟨Function.update_of_ne ho' _ _, Function.update_of_ne ho' _ _⟩
  have hlive : ∀ o', ob.objectInUse o' = true → o' ≠ o := by
    rintro o' ho' rfl
    rw [hfree] at ho'
    cases ho'
  have htable : ob'.kernelHandleTable = ob.kernelHandleTable := by rw [hob]
  refine ⟨⟨?_, ?_, ⟨namedId, issued, hlife'.unchanged rfl rfl rfl⟩, ?_, ?_, ?_⟩, hfree, hnone.2,
    ?_⟩
  · intro t routine hroutine
    rw [hob] at hroutine
    exact h.routines t routine hroutine
  · intro t ht'
    rw [htype] at ht'
    rw [hob]
    exact h.sectionType t ht'
  · intro i e he
    rw [htable] at he
    rw [(hother _ (hlive _ (hlife.entry_named i e he).1)).2]
    exact h.granted i e he
  · intro s' hs'
    by_cases hs : s' = s
    · rw [hs]
      refine ⟨o, hheader, ?_, ⟨t, ?_, htype.trans ht⟩, ?_⟩ <;> rw [hob]
      · exact Function.update_self _ _ _
      · simp only [Function.update_self]
      · simp only [Function.update_self]
    · obtain ⟨hused, hsame⟩ := huse s' hs
      rw [hused] at hs'
      obtain ⟨o', ho', hobject⟩ := h.objects s' hs'
      obtain ⟨hin, hpool⟩ := hother o' (hlive o' hobject.inUse)
      exact ⟨o', hsame.trans ho', hin.trans hobject.inUse, by rw [hpool, htype]; exact hobject.type,
        by rw [hpool]; exact hobject.mask⟩
  · -- the object is no other section's: it was free
    have hfresh : ∀ s' ≠ s, (mm k').sectionInUse s' = true →
        ((mm k').sectionPool s').header ≠ some o := by
      intro s' hs hs' ho
      obtain ⟨hused, hsame⟩ := huse s' hs
      rw [hused] at hs'
      rw [hsame] at ho
      obtain ⟨o', ho', hobject⟩ := h.objects s' hs'
      obtain rfl : o = o' := Option.some.inj (ho.symm.trans ho')
      exact hlive o hobject.inUse rfl
    intro s₁ s₂ o' hs₁ hs₂ ho₁ ho₂
    by_cases h₁ : s₁ = s <;> by_cases h₂ : s₂ = s
    · rw [h₁, h₂]
    · rw [h₁, hheader] at ho₁
      rw [← ho₁] at ho₂
      exact absurd ho₂ (hfresh s₂ h₂ hs₂)
    · rw [h₂, hheader] at ho₂
      rw [← ho₂] at ho₁
      exact absurd ho₁ (hfresh s₁ h₁ hs₁)
    · obtain ⟨hused₁, hsame₁⟩ := huse s₁ h₁
      obtain ⟨hused₂, hsame₂⟩ := huse s₂ h₂
      exact h.apart s₁ s₂ o' (hused₁.symm.trans hs₁) (hused₂.symm.trans hs₂)
        (hsame₁.symm.trans ho₁) (hsame₂.symm.trans ho₂)
  · rw [ObState.handleCount, htable]
    exact hnone.1

end SectionsKept

end

end NtxKernel.Mm
