import Mathlib.Data.Fintype.Card
import NtxKernel.Mm.Footprint
import NtxKernel.Mm.Rights

/-!
# Who holds a mapped page

A page that an address space maps belongs to the space alone, or is lent to it by a section, or was
mapped there by the firmware and lies above the pages that the allocator tracks.

* `OwnFrame`, `Lent` and `Holds` say so of an entry, where `lent` says which frame is lent at which
  page, and whether for writing.
* `SpaceHolds` is the invariant: every page that is mapped is held in one of these ways, no frame of
  the space is mapped twice, and the frames that are shared are in use.
* `Remapped` is what an operation on pages does, and `SpaceHolds.quiet` and `SpaceHolds.remapped`
  are the two ways in which the operations keep the invariant.
-/

namespace NtxKernel.Mm

open Foundations

/-- The frame is one that was handed out for a page of the address space at `root`. -/
structure OwnFrame (U : Set U64) (root : ℕ) (S : Set ℕ) (m : MmState) (f : ℕ) : Prop where
  tracked : f < m.trackedPages
  live : ¬Free m f
  refCount : m.pageRefCount f = 1
  not_table : ¬IsTable U {root} m f
  not_shared : f ∉ S

/-- The entry maps the frame that is lent at the page, for writing only if it is lent for that. -/
def Lent (lent : U64 → Option (ℕ × Bool)) (va entry : U64) : Prop :=
  ∃ w, lent va = some (pteFrame entry, w) ∧ hasFlag entry mmPteSoftCow = false ∧
    (hasFlag entry mmPteWritable = true → w = true)

/-- The ways in which the frame of an entry may be held. -/
def Holds (U : Set U64) (root : ℕ) (S : Set ℕ) (lent : U64 → Option (ℕ × Bool)) (m : MmState)
    (va entry : U64) : Prop :=
  mayRelease entry = true →
    mmMaxTrackedPages ≤ pteFrame entry ∨ OwnFrame U root S m (pteFrame entry) ∨ Lent lent va entry

/-- Every page that is mapped is held, and no frame of the address space is mapped twice. -/
structure SpaceHolds (U : Set U64) (root : ℕ) (S : Set ℕ) (lent : U64 → Option (ℕ × Bool))
    (m : MmState) : Prop where
  tables : TablesOk U {root} m
  shared : ∀ f ∈ S, f < m.trackedPages ∧ ¬Free m f ∧ ¬IsTable U {root} m f
  lent_shared : ∀ va f w, lent va = some (f, w) → f ∈ S
  held : ∀ va ∈ U, Holds U root S lent m va (pteView m root va)
  apart : ∀ va ∈ U, ∀ va' ∈ U, mayRelease (pteView m root va) = true →
    mayRelease (pteView m root va') = true → OwnFrame U root S m (pteFrame (pteView m root va)) →
    pteFrame (pteView m root va) = pteFrame (pteView m root va') → va = va'

/-- Only the views of some pages changed, only some frames were given back, and only references to
shared frames were counted. -/
structure Remapped (U : Set U64) (root : ℕ) (S released : Set ℕ) (touched : Set U64)
    (m m' : MmState) : Prop where
  tracked : m'.trackedPages = m.trackedPages
  tables : TablesOk U {root} m'
  live : ∀ f, ¬Free m f → f ∉ released → ¬Free m' f
  refCount : ∀ f, ¬Free m f → f ∉ released → f ∉ S → m'.pageRefCount f = m.pageRefCount f
  reached : ∀ f, IsTable U {root} m' f → IsTable U {root} m f ∨ Free m f
  view : ∀ va ∈ U, va ∉ touched → pteView m' root va = pteView m root va

variable {U : Set U64} {root : ℕ} {S released : Set ℕ} {touched : Set U64}
  {lent lent' : U64 → Option (ℕ × Bool)} {m m' m'' : MmState} {a : AddressSpaceRef} {va : U64}

/-! ## What an operation does -/

namespace Remapped

theorem refl (ok : TablesOk U {root} m) : Remapped U root S released touched m m where
  tracked := rfl
  tables := ok
  live _ h _ := h
  refCount _ _ _ _ := rfl
  reached _ h := Or.inl h
  view _ _ _ := rfl

theorem mono (h : Remapped U root S released ∅ m m') : Remapped U root S released touched m m' :=
  { h with view := fun va hva _ => h.view va hva (Set.notMem_empty va) }

/-- What gives back no frame may come first. -/
theorem trans (h : Remapped U root S ∅ touched m m')
    (h' : Remapped U root S released touched m' m'') :
    Remapped U root S released touched m m'' where
  tracked := h'.tracked.trans h.tracked
  tables := h'.tables
  live f hf hnot := h'.live f (h.live f hf (Set.notMem_empty f)) hnot
  refCount f hf hnot hshared :=
    (h'.refCount f (h.live f hf (Set.notMem_empty f)) hnot hshared).trans
      (h.refCount f hf (Set.notMem_empty f) hshared)
  reached f hf := by
    rcases h'.reached f hf with ht | hfree
    · exact h.reached f ht
    · refine Or.inr ?_
      by_contra hnot
      exact h.live f hnot (Set.notMem_empty f) hfree
  view va hva hnot := (h'.view va hva hnot).trans (h.view va hva hnot)

theorem of_walked (h : Walked U {root} m m') : Remapped U root S ∅ ∅ m m' where
  tracked := h.pages.trackedPages
  tables := h.tables
  live f hf _ := h.live f hf
  refCount f hf _ _ := h.refCount f hf
  reached := h.reached
  view va hva _ := h.view root rfl va hva

/-- What changes neither the memory nor the allocator. -/
theorem of_eq (ok : TablesOk U {root} m) (hmem : m'.mem = m.mem)
    (htracked : m'.trackedPages = m.trackedPages) (hbitmap : m'.pageBitmap = m.pageBitmap)
    (hcount : m'.pageRefCount = m.pageRefCount) : Remapped U root S ∅ ∅ m m' := by
  have hfree : ∀ f, Free m' f ↔ Free m f := by
    intro f
    rw [Free, Free, mmpIsPageAllocated, mmpIsPageAllocated, htracked, hbitmap]
  have htable : ∀ f, IsTable U {root} m' f ↔ IsTable U {root} m f := by
    intro f
    rw [IsTable, IsTable, hmem]
  exact
    { tracked := htracked
      tables := ⟨by rw [hmem]; exact ok.tree,
        fun f hf => fun hf' => ok.live f ((htable f).1 hf) ((hfree f).1 hf')⟩
      live := fun f hf _ hf' => hf ((hfree f).1 hf')
      refCount := fun f _ _ _ => by rw [hcount]
      reached := fun f hf => Or.inl ((htable f).1 hf)
      view := fun va _ _ => by rw [pteView, pteView, MmState.tableAt, MmState.tableAt,
        MmState.tableAt, MmState.tableAt, hmem] }

/-- The tables of address spaces say nothing of pages. -/
theorem modifyAddressSpace (ok : TablesOk U {root} m) (b : AddressSpaceRef)
    (f : MmAddressSpace → MmAddressSpace) :
    Remapped U root S ∅ ∅ m (m.modifyAddressSpace b f) := .of_eq ok rfl rfl rfl rfl

theorem addRegion (ok : TablesOk U {root} m) (b : AddressSpaceRef) (base size : U64) :
    Remapped U root S ∅ ∅ m (m.addRegion b base size) := .of_eq ok rfl rfl rfl rfl

/-- Handing out a page and filling it. -/
theorem takePage (ok : TablesOk U {root} m) {page : ℕ} (hpage : page < m.trackedPages)
    (hfree : mmpIsPageAllocated m page = false) (words : TableIx → U64) :
    Remapped U root S ∅ ∅ m ((m.takePage page 1).fillFrame page words) := by
  have htake : Contained U {root} root ∅ ∅ m ((m.takePage page 1).fillFrame page words) :=
    takePage_contained ok hpage hfree words rfl
  exact
    { tracked := rfl
      tables := htake.tables
      live := htake.live
      refCount := by
        intro f hf _ _
        refine Function.update_of_ne ?_ _ _
        rintro rfl
        exact hf ⟨hpage, hfree⟩
      reached := fun f hf =>
        (htake.reached f hf).imp_right fun h => h.resolve_right (Set.notMem_empty f)
      view := htake.view }

/-- Counting a reference to a shared frame. -/
theorem retain (ok : TablesOk U {root} m) {pa : U64} (hpage : pa.toNat / mmPageSize ∈ S) :
    Remapped U root S ∅ ∅ m (mmpRetainPage m pa) := by
  have hretain : Contained U {root} root ∅ ∅ m (mmpRetainPage m pa) :=
    mmpRetainPage_contained ok pa
  refine
    { tracked := hretain.globals.trackedPages
      tables := hretain.tables
      live := hretain.live
      refCount := ?_
      reached := fun f hf => (hretain.reached f hf).imp_right fun h =>
        h.resolve_right (Set.notMem_empty f)
      view := hretain.view }
  intro f _ _ hshared
  rw [mmpRetainPage]
  split
  · refine Function.update_of_ne ?_ _ _
    rintro rfl
    exact hshared hpage
  · rfl

/-- Writing the entry of a page changes the view of the page alone. -/
theorem writeLeaf (h : Remapped U root S released ∅ m m') (hU : Separated U) (hva : va ∈ U) {t : ℕ}
    (ht : m'.tableAt root va 3 = some t) (entry : U64) :
    Remapped U root S released {va} m (m'.writeEntry t (tableIndex va 3) entry) ∧
      pteView (m'.writeEntry t (tableIndex va 3) entry) root va = entry := by
  obtain ⟨htables, hfollow, hview⟩ := h.tables.writeLeaf rfl hva ht entry
  have hwrite : Contained U {root} root ∅ {va} m' _ :=
    writeLeaf_contained h.tables hU rfl hva ht entry
  refine ⟨⟨h.tracked, htables, h.live, h.refCount, ?_, ?_⟩, ?_⟩
  · rintro f ⟨r, hr, p, hp, hf⟩
    exact h.reached f ⟨r, hr, p, hp, (hfollow r hr p hp).symm.trans hf⟩
  · intro va' hva' hne
    exact (hwrite.view va' hva' hne).trans (h.view va' hva' (Set.notMem_empty va'))
  · rw [hview root rfl va hva, if_pos ⟨ht, rfl⟩]

end Remapped

/-- What an operation does not give back stays with its page. -/
theorem OwnFrame.remapped {f : ℕ} (hf : OwnFrame U root S m f)
    (h : Remapped U root S released touched m m') (hnot : f ∉ released) :
    OwnFrame U root S m' f where
  tracked := by rw [h.tracked]; exact hf.tracked
  live := h.live f hf.live hnot
  refCount := (h.refCount f hf.live hnot hf.not_shared).trans hf.refCount
  not_table ht := (h.reached f ht).elim hf.not_table hf.live
  not_shared := hf.not_shared

/-- A page that was just handed out is one's own. -/
theorem OwnFrame.takePage (ok : SpaceHolds U root S lent m) {page : ℕ}
    (hpage : page < m.trackedPages) (hfree : mmpIsPageAllocated m page = false)
    (words : TableIx → U64) :
    OwnFrame U root S ((m.takePage page 1).fillFrame page words) page where
  tracked := hpage
  live := by
    rintro ⟨-, halloc⟩
    have htaken : mmpIsPageAllocated (m.takePage page 1) page = false := halloc
    rw [MmState.allocated_takePage, decide_eq_true rfl] at htaken
    cases htaken
  refCount := Function.update_self _ _ _
  not_table := by
    intro ht
    refine ok.tables.live page (isTable_of_quiet (fun f hf => Function.update_of_ne ?_ _ _) ht)
      ⟨hpage, hfree⟩
    rintro rfl
    exact ok.tables.live f hf ⟨hpage, hfree⟩
  not_shared hs := (ok.shared page hs).2.1 ⟨hpage, hfree⟩

/-! ## How the invariant is kept -/

namespace SpaceHolds

/-- The frames that are held in the pages of the allocator are in use. -/
theorem not_free (ok : SpaceHolds U root S lent m) (hva : va ∈ U)
    (hmay : mayRelease (pteView m root va) = true) : ¬Free m (pteFrame (pteView m root va)) := by
  rcases ok.held va hva hmay with hforeign | hown | ⟨w, hlent, -⟩
  · rintro ⟨hlt, -⟩
    exact absurd (lt_of_lt_of_le hlt m.trackedPages_le) (Nat.not_lt.2 hforeign)
  · exact hown.live
  · exact (ok.shared _ (ok.lent_shared _ _ _ hlent)).2.1

theorem shared_remapped (ok : SpaceHolds U root S lent m)
    (h : Remapped U root S released touched m m') (hreleased : ∀ f ∈ released, f ∉ S) {f : ℕ}
    (hf : f ∈ S) : f < m'.trackedPages ∧ ¬Free m' f ∧ ¬IsTable U {root} m' f := by
  obtain ⟨htracked, hlive, htable⟩ := ok.shared f hf
  refine ⟨by rw [h.tracked]; exact htracked, h.live f hlive fun hin => hreleased f hin hf, ?_⟩
  exact fun ht => (h.reached f ht).elim htable hlive

/-- A frame that is one's own after a step was so before, if it was mapped. -/
theorem own_of_own (ok : SpaceHolds U root S lent m) (hva : va ∈ U)
    (hmay : mayRelease (pteView m root va) = true) (htracked : m'.trackedPages = m.trackedPages)
    (hown : OwnFrame U root S m' (pteFrame (pteView m root va))) :
    OwnFrame U root S m (pteFrame (pteView m root va)) := by
  rcases ok.held va hva hmay with hforeign | hown' | ⟨w, hlent, -⟩
  · have hlt := hown.tracked
    have hle := m.trackedPages_le
    rw [htracked] at hlt
    exact absurd (lt_of_lt_of_le hlt hle) (Nat.not_lt.2 hforeign)
  · exact hown'
  · exact absurd (ok.lent_shared _ _ _ hlent) hown.not_shared

/-- What changes no view and gives back nothing keeps the invariant. -/
theorem quiet (ok : SpaceHolds U root S lent m) (h : Remapped U root S ∅ ∅ m m') :
    SpaceHolds U root S lent m' where
  tables := h.tables
  shared f hf := ok.shared_remapped h (fun f hf => absurd hf (Set.notMem_empty f)) hf
  lent_shared := ok.lent_shared
  held va hva hmay := by
    rw [h.view va hva (Set.notMem_empty va)] at hmay ⊢
    exact (ok.held va hva hmay).imp_right fun hor =>
      hor.imp_left fun hown => hown.remapped h (Set.notMem_empty _)
  apart va hva va' hva' hmay hmay' hown heq := by
    rw [h.view va hva (Set.notMem_empty va)] at hmay hown heq
    rw [h.view va' hva' (Set.notMem_empty va')] at hmay' heq
    exact ok.apart va hva va' hva' hmay hmay' (ok.own_of_own hva hmay h.tracked hown) heq

/-- What changes the view of one page keeps the invariant, if only a frame of the space that was
mapped there is given back, and the new entry is held. -/
theorem remapped (ok : SpaceHolds U root S lent m) (h : Remapped U root S released {va} m m')
    (hva : va ∈ U)
    (hreleased : ∀ f ∈ released, f = pteFrame (pteView m root va) ∧
      mayRelease (pteView m root va) = true ∧ OwnFrame U root S m f)
    (hnew : Holds U root S lent m' va (pteView m' root va))
    (hfresh : OwnFrame U root S m' (pteFrame (pteView m' root va)) → ∀ va' ∈ U, va' ≠ va →
      mayRelease (pteView m root va') = true →
      pteFrame (pteView m root va') ≠ pteFrame (pteView m' root va)) :
    SpaceHolds U root S lent m' where
  tables := h.tables
  shared f hf := ok.shared_remapped h (fun g hg => (hreleased g hg).2.2.not_shared) hf
  lent_shared := ok.lent_shared
  held va' hva' := by
    by_cases hsame : va' = va
    · rw [hsame]
      exact hnew
    intro hmay
    rw [h.view va' hva' hsame] at hmay ⊢
    refine (ok.held va' hva' hmay).imp_right fun hor => hor.imp_left fun hown => ?_
    refine hown.remapped h fun hin => hsame ?_
    obtain ⟨heq, hmay', -⟩ := hreleased _ hin
    exact ok.apart va' hva' va hva hmay hmay' hown heq
  apart va₁ hva₁ va₂ hva₂ hmay₁ hmay₂ hown heq := by
    by_cases hsame₁ : va₁ = va <;> by_cases hsame₂ : va₂ = va
    · rw [hsame₁, hsame₂]
    · rw [hsame₁] at hown heq
      rw [h.view va₂ hva₂ hsame₂] at hmay₂ heq
      exact absurd heq.symm (hfresh hown va₂ hva₂ hsame₂ hmay₂)
    · rw [hsame₂] at heq
      rw [h.view va₁ hva₁ hsame₁] at hmay₁ hown heq
      exact absurd heq (hfresh (heq ▸ hown) va₁ hva₁ hsame₁ hmay₁)
    · rw [h.view va₁ hva₁ hsame₁] at hmay₁ hown heq
      rw [h.view va₂ hva₂ hsame₂] at hmay₂ heq
      exact ok.apart va₁ hva₁ va₂ hva₂ hmay₁ hmay₂ (ok.own_of_own hva₁ hmay₁ h.tracked hown) heq

end SpaceHolds

/-! ## The operations -/

/-- The frame at a page, if it is one's own. -/
def ownAt (U : Set U64) (root : ℕ) (S : Set ℕ) (m : MmState) (va : U64) : Set ℕ :=
  {f | f = pteFrame (pteView m root va) ∧ mayRelease (pteView m root va) = true ∧
    OwnFrame U root S m f}

/-- A reference that is not the last frees nothing. -/
theorem mmpReleasePage_kept (m : MmState) {pa : U64}
    (hcount : m.pageRefCount (pa.toNat / mmPageSize) ≠ 1) (f : ℕ) (hf : ¬Free m f) :
    ¬Free (mmpReleasePage m pa) f := by
  rw [mmpReleasePage]
  dsimp only
  split
  · exact hf
  · rename_i hguard
    have hself : (m.setRefCount (pa.toNat / mmPageSize)
        (m.pageRefCount (pa.toNat / mmPageSize) - 1)).pageRefCount (pa.toNat / mmPageSize) =
          m.pageRefCount (pa.toNat / mmPageSize) - 1 := Function.update_self _ _ _
    rw [hself, if_neg]
    · exact hf
    · intro hzero
      exact hcount (by bv_omega)

theorem mmpReleasePage_refCount (m : MmState) (pa : U64) {f : ℕ}
    (hf : f ≠ pa.toNat / mmPageSize) :
    (mmpReleasePage m pa).pageRefCount f = m.pageRefCount f := by
  rw [mmpReleasePage]
  dsimp only
  split
  · rfl
  · split <;> exact Function.update_of_ne hf _ _

/-- A page above those that are tracked is not counted. -/
theorem mmpReleasePage_untracked (m : MmState) {pa : U64}
    (h : mmMaxTrackedPages ≤ pa.toNat / mmPageSize) : mmpReleasePage m pa = m := by
  rw [mmpReleasePage, if_pos (.inl h)]

namespace SpaceHolds

/-- Giving back the frame at a page, where a shared frame has other references. -/
theorem release (ok : SpaceHolds U root S lent m) (hva : va ∈ U)
    (hmay : mayRelease (pteView m root va) = true)
    (hkeep : pteFrame (pteView m root va) ∈ S →
      m.pageRefCount (pteFrame (pteView m root va)) ≠ 1) :
    Remapped U root S (ownAt U root S m va) ∅ m
      (mmpReleasePage m (pteView m root va &&& mmPteAddrMask)) := by
  have hpage : (pteView m root va &&& mmPteAddrMask).toNat / mmPageSize =
      pteFrame (pteView m root va) := rfl
  by_cases hforeign : mmMaxTrackedPages ≤ pteFrame (pteView m root va)
  · rw [mmpReleasePage_untracked m (by rw [hpage]; exact hforeign)]
    exact .refl ok.tables
  have htable : ¬IsTable U {root} m (pteFrame (pteView m root va)) := by
    rcases (ok.held va hva hmay).resolve_left hforeign with hown | ⟨w, hlent, -⟩
    · exact hown.not_table
    · exact (ok.shared _ (ok.lent_shared _ _ _ hlent)).2.2
  have hrelease : Contained U {root} root _ ∅ m
      (mmpReleasePage m (pteView m root va &&& mmPteAddrMask)) :=
    mmpReleasePage_contained ok.tables htable
  have hother : ∀ f, f ∉ ownAt U root S m va → f = pteFrame (pteView m root va) → f ∈ S := by
    rintro f hnot rfl
    rcases (ok.held va hva hmay).resolve_left hforeign with hown | ⟨w, hlent, -⟩
    · exact absurd ⟨rfl, hmay, hown⟩ hnot
    · exact ok.lent_shared _ _ _ hlent
  refine
    { tracked := hrelease.globals.trackedPages
      tables := hrelease.tables
      live := ?_
      refCount := ?_
      reached := ?_
      view := hrelease.view }
  · intro f hf hnot
    by_cases hsame : f = pteFrame (pteView m root va)
    · exact mmpReleasePage_kept m (hkeep (hsame ▸ hother f hnot hsame)) f hf
    · exact hrelease.live f hf hsame
  · intro f hf hnot hshared
    refine mmpReleasePage_refCount m _ fun hsame => hshared (hother f hnot hsame)
  · intro f hf
    have hmem := (mmpReleasePage_cases m (pteView m root va &&& mmPteAddrMask)).1
    rw [IsTable, Reached, hmem] at hf
    exact Or.inl hf

/-- A frame may come to a page: it is a new one of the space, or it is lent there and the flags
keep to that. -/
def MayCome (U : Set U64) (root : ℕ) (S : Set ℕ) (lent : U64 → Option (ℕ × Bool)) (m : MmState)
    (va : U64) (frame : ℕ) (flags : U64) : Prop :=
  (OwnFrame U root S m frame ∧
      ∀ va' ∈ U, mayRelease (pteView m root va') = true → pteFrame (pteView m root va') ≠ frame) ∨
    ∃ w, lent va = some (frame, w) ∧ hasFlag flags mmPteSoftCow = false ∧
      (hasFlag flags mmPteWritable = true → w = true)

theorem mayCome_quiet {frame : ℕ} {flags : U64} (h : Remapped U root S ∅ ∅ m m')
    (hcome : MayCome U root S lent m va frame flags) :
    MayCome U root S lent m' va frame flags := by
  refine hcome.imp_left fun ⟨hown, hapart⟩ => ⟨hown.remapped h (Set.notMem_empty _), ?_⟩
  intro va' hva' hmay
  rw [h.view va' hva' (Set.notMem_empty va')] at hmay ⊢
  exact hapart va' hva' hmay

/-- Mapping a page fails and changes no view, or gives the page its new entry. -/
theorem mapPage (ok : SpaceHolds U root S lent m) (hU : Separated U) (hroot : m.rootFrame a = root)
    (hva : va ∈ U) {frame : ℕ} (hframe : frame < 2 ^ 40) {flags : U64}
    (hflags : flags &&& mmPteAddrMask = 0)
    (hkeep : mayRelease (pteView m root va) = true → pteFrame (pteView m root va) ∈ S →
      m.pageRefCount (pteFrame (pteView m root va)) ≠ 1)
    (hcome : MayCome U root S lent m va frame flags) :
    (∃ m' e, mmAsMapPage m a va (pageAddress frame) flags = (m', .error e) ∧
        Remapped U root S ∅ ∅ m m') ∨
      ∃ m', mmAsMapPage m a va (pageAddress frame) flags = (m', .ok ()) ∧
        SpaceHolds U root S lent m' ∧
        pteView m' root va = mapEntry (pageAddress frame) flags ∧
        ∀ va' ∈ U, va' ≠ va → pteView m' root va' = pteView m root va' := by
  rcases mmAsMapPage_spec ok.tables (a := a) (show _ ∈ _ from hroot) hva (pageAddress frame) flags
    with ⟨m₁, e, hw, heq⟩ | ⟨m₁, t, hw, ht, -, heq⟩
  · exact Or.inl ⟨m₁, e, heq, .of_walked hw⟩
  refine Or.inr ?_
  rw [hroot] at ht heq
  have hwalk : Remapped U root S ∅ ∅ m m₁ := .of_walked hw
  have ok₁ := ok.quiet hwalk
  have hview₁ := hwalk.view va hva (Set.notMem_empty va)
  have hcome₁ := mayCome_quiet hwalk hcome
  rw [← hview₁] at heq hkeep
  have hkeep₁ : mayRelease (pteView m₁ root va) = true → pteFrame (pteView m₁ root va) ∈ S →
      m₁.pageRefCount (pteFrame (pteView m₁ root va)) ≠ 1 := by
    intro hmay hin
    rw [hw.refCount _ (ok.shared _ hin).2.1]
    exact hkeep hmay hin
  -- what is given back, if anything
  have hrelease : Remapped U root S (ownAt U root S m₁ va) ∅ m₁
      (if hasFlag (pteView m₁ root va) mmPtePresent then
        mmpReleasePage m₁ (pteView m₁ root va &&& mmPteAddrMask) else m₁) := by
    by_cases hpresent : hasFlag (pteView m₁ root va) mmPtePresent = true
    · have hmay : mayRelease (pteView m₁ root va) = true := by
        rw [mayRelease, hpresent, Bool.true_or]
      rw [if_pos hpresent]
      exact ok₁.release hva hmay (hkeep₁ hmay)
    · rw [if_neg hpresent]
      exact .refl ok₁.tables
  have htable : (if hasFlag (pteView m₁ root va) mmPtePresent then
        mmpReleasePage m₁ (pteView m₁ root va &&& mmPteAddrMask) else m₁).tableAt root va 3 =
      some t := by
    split
    · rw [MmState.tableAt, (mmpReleasePage_cases m₁ _).1]
      exact ht
    · exact ht
  generalize (if hasFlag (pteView m₁ root va) mmPtePresent then
    mmpReleasePage m₁ (pteView m₁ root va &&& mmPteAddrMask) else m₁) = m₂ at heq hrelease htable
  obtain ⟨hwrite, hentry⟩ := hrelease.writeLeaf hU hva htable (mapEntry (pageAddress frame) flags)
  have hnewFrame : pteFrame (mapEntry (pageAddress frame) flags) = frame := by
    rw [pteFrame_mapEntry hflags, pteFrame_pageAddress hframe]
  refine ⟨_, heq, ok₁.remapped hwrite hva (fun f hf => hf) ?_ ?_, hentry, ?_⟩
  · intro _
    rw [hentry, hnewFrame]
    right
    rcases hcome₁ with ⟨hown, hapart⟩ | ⟨w, hlent, hcow, hwritable⟩
    · refine Or.inl (hown.remapped hwrite ?_)
      rintro ⟨hsame, hmay, -⟩
      exact hapart va hva hmay hsame.symm
    · refine Or.inr ⟨w, by rw [hnewFrame]; exact hlent, ?_, fun hw => hwritable ?_⟩
      · rw [hasFlag_mapEntry (by decide) (by decide)]
        exact hcow
      · rwa [hasFlag_mapEntry (by decide) (by decide)] at hw
  · rw [hentry, hnewFrame]
    intro hown va' hva' _ hmay'
    rcases hcome₁ with ⟨-, hapart⟩ | ⟨w, hlent, -⟩
    · exact hapart va' hva' hmay'
    · exact absurd (ok.lent_shared _ _ _ hlent) hown.not_shared
  · intro va' hva' hne
    exact (hwrite.view va' hva' hne).trans (hwalk.view va' hva' (Set.notMem_empty va'))

/-- A page that was handed out and filled may come to any page of the space. -/
theorem takePage (ok : SpaceHolds U root S lent m) {page : ℕ} (hpage : page < m.trackedPages)
    (hfree : mmpIsPageAllocated m page = false) (words : TableIx → U64) (va flags : U64) :
    Remapped U root S ∅ ∅ m ((m.takePage page 1).fillFrame page words) ∧
      MayCome U root S lent ((m.takePage page 1).fillFrame page words) va page flags := by
  have htake : Remapped U root S ∅ ∅ m ((m.takePage page 1).fillFrame page words) :=
    .takePage ok.tables hpage hfree words
  refine ⟨htake, Or.inl ⟨.takePage ok hpage hfree words, fun va' hva' hmay hsame => ?_⟩⟩
  rw [htake.view va' hva' (Set.notMem_empty va')] at hmay hsame
  exact ok.not_free hva' hmay (hsame ▸ ⟨hpage, hfree⟩)

/-- What is mapped where nothing is lent is not shared. -/
theorem not_shared (ok : SpaceHolds U root S lent m) (hva : va ∈ U)
    (hmay : mayRelease (pteView m root va) = true) (hlent : ¬Lent lent va (pteView m root va)) :
    pteFrame (pteView m root va) ∉ S := by
  intro hin
  rcases ok.held va hva hmay with hforeign | hown | hl
  · exact absurd (lt_of_lt_of_le (ok.shared _ hin).1 m.trackedPages_le) (Nat.not_lt.2 hforeign)
  · exact hown.not_shared hin
  · exact hlent hl

/-- A tracked frame that is mapped where nothing is lent is one's own. -/
theorem own_of_tracked (ok : SpaceHolds U root S lent m) (hva : va ∈ U)
    (hmay : mayRelease (pteView m root va) = true)
    (htracked : pteFrame (pteView m root va) < mmMaxTrackedPages)
    (hlent : ¬Lent lent va (pteView m root va)) :
    OwnFrame U root S m (pteFrame (pteView m root va)) :=
  ((ok.held va hva hmay).resolve_left (Nat.not_le.2 htracked)).resolve_right hlent

/-- Mapping a frame that was just handed out, where the frame that is mapped is not shared. -/
theorem mapNewPage (ok : SpaceHolds U root S lent m) (hU : Separated U)
    (hroot : m.rootFrame a = root) (hva : va ∈ U)
    (hnot : mayRelease (pteView m root va) = true → pteFrame (pteView m root va) ∉ S) {page : ℕ}
    (hpage : page < m.trackedPages) (hfree : mmpIsPageAllocated m page = false)
    (words : TableIx → U64) {flags : U64} (hflags : flags &&& mmPteAddrMask = 0) :
    (∃ m' e, mmAsMapPage ((m.takePage page 1).fillFrame page words) a va (pageAddress page) flags =
          (m', .error e) ∧ Remapped U root S ∅ ∅ m m') ∨
      ∃ m', mmAsMapPage ((m.takePage page 1).fillFrame page words) a va (pageAddress page) flags =
          (m', .ok ()) ∧
        SpaceHolds U root S lent m' ∧ mayRelease (pteView m' root va) = true ∧
        OwnFrame U root S m' (pteFrame (pteView m' root va)) ∧
        ∀ va' ∈ U, va' ≠ va → pteView m' root va' = pteView m root va' := by
  have hpage40 : page < 2 ^ 40 := lt_of_lt_trackedPages hpage
  have hnotShared : page ∉ S := fun hs => (ok.shared page hs).2.1 ⟨hpage, hfree⟩
  obtain ⟨htake, hcome⟩ := ok.takePage hpage hfree words va flags
  have hroot₁ : ((m.takePage page 1).fillFrame page words).rootFrame a = root := hroot
  generalize (m.takePage page 1).fillFrame page words = m₁ at htake hcome hroot₁ ⊢
  have hview := htake.view va hva (Set.notMem_empty va)
  rcases (ok.quiet htake).mapPage hU hroot₁ hva hpage40 hflags
      (by rw [hview]; exact fun hmay hin => absurd hin (hnot hmay)) hcome with
    ⟨m', e, heq, hquiet⟩ | ⟨m', heq, ok', hentry, hother⟩
  · exact Or.inl ⟨m', e, heq, htake.trans hquiet⟩
  have hframe : pteFrame (pteView m' root va) = page := by
    rw [hentry, pteFrame_mapEntry hflags, pteFrame_pageAddress hpage40]
  have hmay : mayRelease (pteView m' root va) = true := by
    have hpresent : hasFlag (mapEntry (pageAddress page) flags) mmPtePresent = true := by
      rw [mapEntry, hasFlag_or]
      exact Bool.or_eq_true_iff.2 (Or.inr (by decide))
    rw [hentry, mayRelease, hpresent, Bool.true_or]
  refine Or.inr ⟨m', heq, ok', hmay, ?_, fun va' hva' hne =>
    (hother va' hva' hne).trans (htake.view va' hva' (Set.notMem_empty va'))⟩
  rcases ok'.held va hva hmay with hforeign | hown | ⟨w, hlent, -⟩
  · rw [hframe] at hforeign
    exact absurd (lt_of_lt_of_le hpage m.trackedPages_le) (Nat.not_lt.2 hforeign)
  · exact hown
  · rw [hframe] at hlent
    exact absurd (ok.lent_shared _ _ _ hlent) hnotShared

/-- Mapping a fresh page of zeros. -/
theorem mapZeroPage (ok : SpaceHolds U root S lent m) (hU : Separated U)
    (hroot : m.rootFrame a = root) (hva : va ∈ U) (protection flags : U32)
    (hnot : mayRelease (pteView m root va) = true → pteFrame (pteView m root va) ∉ S) :
    (∃ m' e, mmMapZeroPage m a va protection flags = (m', .error e) ∧
        Remapped U root S ∅ ∅ m m') ∨
      ∃ m', mmMapZeroPage m a va protection flags = (m', .ok ()) ∧
        SpaceHolds U root S lent m' ∧ mayRelease (pteView m' root va) = true ∧
        OwnFrame U root S m' (pteFrame (pteView m' root va)) ∧
        ∀ va' ∈ U, va' ≠ va → pteView m' root va' = pteView m root va' := by
  rw [mmMapZeroPage]
  rcases mmAllocPage_cases m with ⟨e, heq⟩ | ⟨page, hpage, hfree, -, heq⟩
  · rw [heq]
    exact Or.inl ⟨m, _, rfl, .refl ok.tables⟩
  · rw [heq]
    dsimp only
    rw [pteFrame_pageAddress (lt_of_lt_trackedPages hpage)]
    exact ok.mapNewPage hU hroot hva hnot hpage hfree (fun _ => 0)
      (mmpProtectionToPte_address protection flags)

theorem cowFlags_address (pte : U64) : cowFlags pte &&& mmPteAddrMask = 0 := by
  rw [cowFlags, BitVec.and_assoc, BitVec.not_and_self]
  exact BitVec.and_zero

/-- A write to a copy-on-write page: a frame of the space stays, and what lies above the tracked
pages is copied to a new one. -/
theorem copyOnWrite (ok : SpaceHolds U root S lent m) (hU : Separated U)
    (hroot : m.rootFrame a = root) (hva : va ∈ U)
    (hcow : hasFlag (pteView m root va) mmPteSoftCow = true) :
    SpaceHolds U root S lent (mmpCopyOnWrite m a va (pteView m root va)).1 := by
  have hmay : mayRelease (pteView m root va) = true := by rw [mayRelease, hcow, Bool.or_true]
  have hnotLent : ¬Lent lent va (pteView m root va) := by
    rintro ⟨w, -, hnot, -⟩
    rw [hcow] at hnot
    cases hnot
  have hpage : (pteView m root va &&& mmPteAddrMask).toNat / mmPageSize =
      pteFrame (pteView m root va) := rfl
  rw [mmpCopyOnWrite]
  dsimp only
  rw [hpage]
  by_cases hforeign : mmMaxTrackedPages ≤ pteFrame (pteView m root va)
  · rw [if_neg fun h => absurd h.1 (Nat.not_lt.2 hforeign)]
    rcases mmAllocPage_cases m with ⟨e, heq⟩ | ⟨page, hpage', hfree, -, heq⟩
    · rw [heq]
      exact ok
    rw [heq]
    dsimp only
    rw [pteFrame_pageAddress (lt_of_lt_trackedPages hpage'), mmpReleasePage_untracked _ hforeign]
    rcases ok.mapNewPage hU hroot hva (fun hm => ok.not_shared hva hm hnotLent) hpage' hfree
        ((m.takePage page 1).mem (pteFrame (pteView m root va &&& mmPteAddrMask)))
        (cowFlags_address (pteView m root va)) with
      ⟨m', e, heq', hquiet⟩ | ⟨m', heq', ok', -⟩
    · rw [heq']
      exact ok.quiet hquiet
    · rw [heq']
      exact ok'
  · have hown := ok.own_of_tracked hva hmay (Nat.lt_of_not_le hforeign) hnotLent
    rw [if_pos ⟨Nat.lt_of_not_le hforeign, hown.refCount⟩]
    rcases mmAsProtectPage_spec ok.tables (a := a) (show _ ∈ _ from hroot) hva
        ((pteView m root va &&& ~~~mmPteSoftCow) ||| mmPteWritable) with
      ⟨m₁, e, hw, heq⟩ | ⟨m₁, t, hw, ht, -, heq⟩
    · rw [heq]
      exact ok.quiet (.of_walked hw)
    rw [heq, hroot]
    rw [hroot] at ht
    have hwalk : Remapped U root S ∅ ∅ m m₁ := .of_walked hw
    obtain ⟨hwrite, hentry⟩ := hwalk.writeLeaf hU hva ht
      (mapEntry (pteView m root va) ((pteView m root va &&& ~~~mmPteSoftCow) ||| mmPteWritable))
    have hsame := pteFrame_mapEntry_cow (pteView m root va)
    refine ok.remapped hwrite hva (fun f hf => absurd hf (Set.notMem_empty f)) ?_ ?_
    · intro _
      rw [hentry, hsame]
      exact Or.inr (Or.inl (hown.remapped hwrite (Set.notMem_empty _)))
    · rw [hentry, hsame]
      intro _ va' hva' hne hmay' heq'
      exact hne (ok.apart va hva va' hva' hmay hmay' hown heq'.symm).symm

/-- A reference that was just taken is not the only one. -/
theorem mmpRetainPage_count (m : MmState) {pa : U64}
    (hpage : pa.toNat / mmPageSize < mmMaxTrackedPages) :
    (mmpRetainPage m pa).pageRefCount (pa.toNat / mmPageSize) ≠ 1 := by
  rw [mmpRetainPage]
  by_cases hzero : m.pageRefCount (pa.toNat / mmPageSize) = 0
  · rw [if_neg fun h => h.2 hzero, hzero]
    decide
  · rw [if_pos ⟨hpage, hzero⟩]
    have hself : (m.setRefCount (pa.toNat / mmPageSize)
        (m.pageRefCount (pa.toNat / mmPageSize) + 1)).pageRefCount (pa.toNat / mmPageSize) =
          m.pageRefCount (pa.toNat / mmPageSize) + 1 := Function.update_self _ _ _
    rw [hself]
    intro hone
    exact hzero (by bv_omega)

/-- Mapping a frame that is lent at the page, with a reference taken before. -/
theorem mapLent (ok : SpaceHolds U root S lent m) (hU : Separated U) (hroot : m.rootFrame a = root)
    (hva : va ∈ U) {frame : ℕ} {w : Bool} (hlent : lent va = some (frame, w)) {flags : U64}
    (hflags : flags &&& mmPteAddrMask = 0) (hcow : hasFlag flags mmPteSoftCow = false)
    (hwritable : hasFlag flags mmPteWritable = true → w = true) :
    SpaceHolds U root S lent
      (mmAsMapPage (mmpRetainPage m (pageAddress frame)) a va (pageAddress frame) flags).1 := by
  have hshared := ok.lent_shared va frame w hlent
  have htracked : frame < mmMaxTrackedPages :=
    lt_of_lt_of_le (ok.shared frame hshared).1 m.trackedPages_le
  have hmax : mmMaxTrackedPages = 262144 := rfl
  have hpage : (pageAddress frame).toNat / mmPageSize = frame := by
    rw [toNat_pageAddress (by omega)]
    exact Nat.mul_div_cancel _ (by decide)
  have hlimit : (pageAddress frame).toNat / mmPageSize < mmMaxTrackedPages := by
    rw [hpage]
    exact htracked
  have hretain : Remapped U root S ∅ ∅ m (mmpRetainPage m (pageAddress frame)) :=
    .retain ok.tables (by rw [hpage]; exact hshared)
  have hcount := mmpRetainPage_count m hlimit
  have hroot' := ((OnlyPages.mmpRetainPage m (pageAddress frame)).rootFrame a).trans hroot
  rw [hpage] at hcount
  generalize mmpRetainPage m (pageAddress frame) = m₁ at hretain hcount hroot' ⊢
  have ok₁ := ok.quiet hretain
  have hcome : MayCome U root S lent m₁ va frame flags := Or.inr ⟨w, hlent, hcow, hwritable⟩
  have hkeep : mayRelease (pteView m₁ root va) = true → pteFrame (pteView m₁ root va) ∈ S →
      m₁.pageRefCount (pteFrame (pteView m₁ root va)) ≠ 1 := by
    -- a shared frame that is mapped there is the frame itself
    intro hmay hin
    rcases ok₁.held va hva hmay with hforeign | hown | ⟨w', hlent', -⟩
    · exact absurd (lt_of_lt_of_le (ok₁.shared _ hin).1 m₁.trackedPages_le)
        (Nat.not_lt.2 hforeign)
    · exact absurd hin hown.not_shared
    · rw [hlent, Option.some.injEq, Prod.mk.injEq] at hlent'
      rw [← hlent'.1]
      exact hcount
  rcases ok₁.mapPage hU hroot' hva (by omega) hflags hkeep hcome with
    ⟨m', e, heq, hquiet⟩ | ⟨m', heq, ok', -⟩
  · rw [heq]
    exact ok₁.quiet hquiet
  · rw [heq]
    exact ok'

/-- More may be lent. -/
theorem lend (ok : SpaceHolds U root S lent m)
    (hle : ∀ va p, lent va = some p → lent' va = some p)
    (hshared : ∀ va f w, lent' va = some (f, w) → f ∈ S) : SpaceHolds U root S lent' m where
  tables := ok.tables
  shared := ok.shared
  lent_shared := hshared
  held va hva hmay := (ok.held va hva hmay).imp_right fun hor => hor.imp_right
    fun ⟨w, hlent, hrest⟩ => ⟨w, hle va _ hlent, hrest⟩
  apart := ok.apart

/-! ## Wired regions -/

end SpaceHolds

theorem OnlyPages.mmMapZeroPage (m : MmState) (a : AddressSpaceRef) (va : U64)
    (protection flags : U32) : OnlyPages m (mmMapZeroPage m a va protection flags).1 := by
  rw [Mm.mmMapZeroPage]
  have halloc := OnlyPages.mmAllocPage m
  generalize Mm.mmAllocPage m = r at halloc ⊢
  obtain ⟨m₁, e | pa⟩ := r
  · exact halloc
  · exact halloc.trans ((OnlyPages.fillFrame ..).trans (OnlyPages.mmAsMapPage ..))

/-- The page at a distance from an address. -/
def pageBehind (base : U64) (i : ℕ) : U64 := base + BitVec.ofNat 64 (i * mmPageSize)

theorem pageBehind_inj {base : U64} {i j : ℕ} (hi : i ≤ mmMaxTrackedPages)
    (hj : j ≤ mmMaxTrackedPages) (h : pageBehind base i = pageBehind base j) : i = j := by
  have hsub := congrArg (· - base) h
  simp only [pageBehind, BitVec.add_comm base, BitVec.add_sub_cancel] at hsub
  have hnat := congrArg BitVec.toNat hsub
  have hlt : ∀ k ≤ mmMaxTrackedPages, k * mmPageSize < 2 ^ 64 := fun k hk =>
    lt_of_le_of_lt (Nat.mul_le_mul_right _ hk) (by decide)
  rw [BitVec.toNat_ofNat, BitVec.toNat_ofNat, Nat.mod_eq_of_lt (hlt i hi),
    Nat.mod_eq_of_lt (hlt j hj)] at hnat
  exact Nat.eq_of_mul_eq_mul_right (by decide) hnat

namespace SpaceHolds

/-- There are no more frames of the space than pages that are tracked. -/
theorem own_pages_le (ok : SpaceHolds U root S lent m) {base : U64} {n : ℕ}
    (hn : n ≤ mmMaxTrackedPages + 1) (hpages : ∀ i < n, pageBehind base i ∈ U)
    (hown : ∀ i < n, mayRelease (pteView m root (pageBehind base i)) = true ∧
      OwnFrame U root S m (pteFrame (pteView m root (pageBehind base i)))) :
    n ≤ mmMaxTrackedPages := by
  have hcard : Fintype.card (Fin n) ≤ Fintype.card (Fin m.trackedPages) := by
    refine Fintype.card_le_of_injective
      (fun i => ⟨pteFrame (pteView m root (pageBehind base i)), (hown i i.isLt).2.tracked⟩) ?_
    intro i j hij
    have hi := i.isLt
    have hj := j.isLt
    have hsame : pageBehind base i = pageBehind base j :=
      ok.apart _ (hpages i hi) _ (hpages j hj) (hown i hi).1 (hown j hj).1 (hown i hi).2
        (congrArg Fin.val hij)
    exact Fin.ext (pageBehind_inj (by omega) (by omega) hsame)
  rw [Fintype.card_fin, Fintype.card_fin] at hcard
  exact hcard.trans m.trackedPages_le

/-- The loop over the pages of a wired region, behind what is lent. It ends before it has mapped
more pages than are tracked. -/
theorem mapWired (hU : Separated U) (slot : Fin mmMaxVaRegions) {base : U64}
    (protection flags : U32) (hpages : ∀ i ≤ mmMaxTrackedPages, pageBehind base i ∈ U)
    (hlent : ∀ i ≤ mmMaxTrackedPages, lent (pageBehind base i) = none) (n j : ℕ)
    (hj : j ≤ mmMaxTrackedPages) (ok : SpaceHolds U root S lent m) (hroot : m.rootFrame a = root)
    (hown : ∀ i < j, mayRelease (pteView m root (pageBehind base i)) = true ∧
      OwnFrame U root S m (pteFrame (pteView m root (pageBehind base i)))) :
    SpaceHolds U root S lent
      (mmMapWired a slot base protection flags n (BitVec.ofNat 64 (j * mmPageSize)) m).1 := by
  induction n generalizing j m with
  | zero => exact ok
  | succ n ih =>
    rw [mmMapWired]
    have hva := hpages j hj
    have hnotLent : ¬Lent lent (pageBehind base j) (pteView m root (pageBehind base j)) := by
      rintro ⟨w, h, -⟩
      rw [hlent j hj] at h
      cases h
    have hroot' := (OnlyPages.mmMapZeroPage m a (pageBehind base j) protection flags).rootFrame a
    rcases ok.mapZeroPage hU hroot hva protection flags
        (fun hmay => ok.not_shared hva hmay hnotLent) with
      ⟨m', e, heq, hquiet⟩ | ⟨m', heq, ok', hmay, hnew, hother⟩
    · rw [pageBehind] at heq
      rw [heq]
      exact ok.quiet hquiet
    rw [heq] at hroot'
    rw [pageBehind] at heq
    rw [heq]
    dsimp only at hroot' ⊢
    have hown' : ∀ i < j + 1, mayRelease (pteView m' root (pageBehind base i)) = true ∧
        OwnFrame U root S m' (pteFrame (pteView m' root (pageBehind base i))) := by
      intro i hi
      by_cases hij : i = j
      · rw [hij]
        exact ⟨hmay, hnew⟩
      obtain ⟨hmay₁, hown₁⟩ := hown i (by omega)
      have hi' : i ≤ mmMaxTrackedPages := by omega
      have hview := hother _ (hpages i hi') fun h => hij (pageBehind_inj hi' hj h)
      have htracked := lt_of_lt_of_le hown₁.tracked m.trackedPages_le
      rw [← hview] at hmay₁ htracked
      refine ⟨hmay₁, ok'.own_of_tracked (hpages i hi') hmay₁ htracked ?_⟩
      rintro ⟨w, h, -⟩
      rw [hlent i hi'] at h
      cases h
    have hnext : j + 1 ≤ mmMaxTrackedPages :=
      ok'.own_pages_le (Nat.succ_le_succ hj) (fun i hi => hpages i (by omega)) hown'
    have hcursor : BitVec.ofNat 64 (j * mmPageSize) + 4096 =
        BitVec.ofNat 64 ((j + 1) * mmPageSize) := by
      rw [Nat.succ_mul, BitVec.ofNat_add]
      rfl
    have hcount : Remapped U root S ∅ ∅ m' (m'.modifyRegion a slot fun r =>
        { r with committedPages := r.committedPages + 1 }) :=
      .modifyAddressSpace ok'.tables a _
    have hroot'' := (rootFrame_modifyRegion m' a slot fun r =>
      { r with committedPages := r.committedPages + 1 }).trans (hroot'.trans hroot)
    rw [hcursor]
    generalize (m'.modifyRegion a slot fun r =>
      { r with committedPages := r.committedPages + 1 }) = m'' at hcount hroot'' ⊢
    refine ih (j + 1) hnext (ok'.quiet hcount) hroot'' fun i hi => ?_
    rw [hcount.view _ (hpages i (by omega)) (Set.notMem_empty _)]
    exact ⟨(hown' i hi).1, (hown' i hi).2.remapped hcount (Set.notMem_empty _)⟩

/-! ## Shared frames -/

/-- Frames that are given back are shared no more. -/
theorem shrink (ok : SpaceHolds U root S lent m) {S' : Set ℕ} (hsub : S' ⊆ S)
    (hlent : ∀ va f w, lent va = some (f, w) → f ∈ S') (hmem : m'.mem = m.mem)
    (htracked : m'.trackedPages = m.trackedPages)
    (hfree : ∀ f, Free m' f → Free m f ∨ f ∈ S \ S')
    (hcount : ∀ f, f ∉ S \ S' → m'.pageRefCount f = m.pageRefCount f) :
    SpaceHolds U root S' lent m' := by
  have htable : ∀ f, IsTable U {root} m' f ↔ IsTable U {root} m f := by
    intro f
    rw [IsTable, IsTable, hmem]
  have hview : ∀ va, pteView m' root va = pteView m root va := by
    intro va
    rw [pteView, pteView, MmState.tableAt, MmState.tableAt, MmState.tableAt, MmState.tableAt, hmem]
  have hown : ∀ f, OwnFrame U root S m f → OwnFrame U root S' m' f := fun f hf =>
    { tracked := by rw [htracked]; exact hf.tracked
      live := fun h => (hfree f h).elim hf.live fun hin => hf.not_shared hin.1
      refCount := (hcount f fun hin => hf.not_shared hin.1).trans hf.refCount
      not_table := fun h => hf.not_table ((htable f).1 h)
      not_shared := fun h => hf.not_shared (hsub h) }
  constructor
  · refine ⟨by rw [hmem]; exact ok.tables.tree, fun f hf hf' => ?_⟩
    have ht := (htable f).1 hf
    rcases hfree f hf' with hold | hin
    · exact ok.tables.live f ht hold
    · exact (ok.shared f hin.1).2.2 ht
  · intro f hf
    obtain ⟨hlt, hlive, hnot⟩ := ok.shared f (hsub hf)
    refine ⟨by rw [htracked]; exact hlt, fun h => ?_, fun h => hnot ((htable f).1 h)⟩
    exact (hfree f h).elim hlive fun hin => hin.2 hf
  · exact hlent
  · intro va hva hmay
    rw [hview] at hmay ⊢
    exact (ok.held va hva hmay).imp_right fun hor => hor.imp_left fun h => hown _ h
  · intro va hva va' hva' hmay hmay' hown' heq
    rw [hview] at hmay hown' heq
    rw [hview] at hmay' heq
    refine ok.apart va hva va' hva' hmay hmay' ?_ heq
    rcases ok.held va hva hmay with hforeign | hold | ⟨w, hl, -⟩
    · have hlt := hown'.tracked
      rw [htracked] at hlt
      exact absurd (lt_of_lt_of_le hlt m.trackedPages_le) (Nat.not_lt.2 hforeign)
    · exact hold
    · exact absurd (hlent _ _ _ hl) hown'.not_shared

/-- A page that is handed out may be shared. -/
theorem share (ok : SpaceHolds U root S lent m) {page : ℕ} (hpage : page < m.trackedPages)
    (hfree : mmpIsPageAllocated m page = false) (words : TableIx → U64) :
    SpaceHolds U root (insert page S) lent ((m.takePage page 1).fillFrame page words) := by
  obtain ⟨htake, -⟩ := ok.takePage hpage hfree words 0 0
  have hnew : OwnFrame U root S ((m.takePage page 1).fillFrame page words) page :=
    .takePage ok hpage hfree words
  have hold : ∀ f, ¬Free m f → f ≠ page := by
    rintro f hf rfl
    exact hf ⟨hpage, hfree⟩
  have ok' := ok.quiet htake
  generalize (m.takePage page 1).fillFrame page words = m' at htake hnew ok'
  constructor
  · exact ok'.tables
  · rintro f (rfl | hf)
    · exact ⟨hnew.tracked, hnew.live, hnew.not_table⟩
    · exact ok'.shared f hf
  · exact fun va f w h => Or.inr (ok'.lent_shared va f w h)
  · intro va hva hmay
    have hne := htake.view va hva (Set.notMem_empty va)
    have hlive := ok.not_free hva (by rw [← hne]; exact hmay)
    rw [← hne] at hlive
    refine (ok'.held va hva hmay).imp_right fun hor => hor.imp_left fun h => ?_
    refine ⟨h.tracked, h.live, h.refCount, h.not_table, ?_⟩
    rintro (heq | hin)
    · exact hold _ hlive heq
    · exact h.not_shared hin
  · intro va hva va' hva' hmay hmay' hown heq
    refine ok'.apart va hva va' hva' hmay hmay' ?_ heq
    exact ⟨hown.tracked, hown.live, hown.refCount, hown.not_table,
      fun h => hown.not_shared (Or.inr h)⟩

end SpaceHolds

end NtxKernel.Mm
