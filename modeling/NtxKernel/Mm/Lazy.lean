import NtxKernel.Mm.Disturbance
import NtxKernel.Mm.Freeing
import NtxKernel.Mm.Ownership

/-!
# Lazy ranges

A lazy region has no pages until they are used: the first access to a page faults, and
`MmHandlePageFault` maps a fresh page of zeros.

* `PlainTables` is the shape that makes this work: no large page covers a user address.
  `FewerLarge` is why it stays, as the walker adds no large entry.
* `Grown` is what an operation that maps fresh pages does, and `PlainSpace` what it keeps.
* `LazyRange` is what a lazy range is for: no address in it is translated, and the first access to
  a page maps a frame that was free and is zero, to this page alone.
* `UefiRoot` is the map that the firmware leaves: the memory below a limit, at its own address.
* `lazy_ranges` is the result for every run of `MmMapAnonymous` in an address space created from
  such a map whose limit is not above `MM_USER_BASE`. `inherited_translation` is a run on a machine
  with more memory.
-/

namespace NtxKernel.Mm

open Foundations MmSystem

variable {m m' m'' : MmState} {root : ℕ} {va va' : U64} {a : AddressSpaceRef}

/-! ## Large entries -/

/-- Every large entry was there before, in a page that was not taken since. -/
def FewerLarge (m m' : MmState) : Prop :=
  ∀ f i, isLarge (m'.mem f i) = true → isLarge (m.mem f i) = true ∧ (Free m f → Free m' f)

namespace FewerLarge

theorem refl (m : MmState) : FewerLarge m m := fun _ _ h => ⟨h, id⟩

theorem trans (h : FewerLarge m m') (h' : FewerLarge m' m'') : FewerLarge m m'' := by
  intro f i hlarge
  obtain ⟨hlarge', hfree'⟩ := h' f i hlarge
  obtain ⟨hlarge'', hfree⟩ := h f i hlarge'
  exact ⟨hlarge'', fun hf => hfree' (hfree hf)⟩

theorem writeEntry (m : MmState) (u : ℕ) (i : TableIx) {entry : U64}
    (h : isLarge entry = true → isLarge (m.mem u i) = true) :
    FewerLarge m (m.writeEntry u i entry) := by
  intro f j hlarge
  refine ⟨?_, fun hf => hf⟩
  by_cases hslot : f = u ∧ j = i
  · rw [hslot.1, hslot.2, mem_writeEntry_self] at hlarge
    rw [hslot.1, hslot.2]
    exact h hlarge
  · rwa [mem_writeEntry_of_ne _ _ (not_and_or.1 hslot)] at hlarge

/-- A page that is taken and emptied. -/
theorem takePage (m : MmState) (q : ℕ) :
    FewerLarge m ((m.takePage q 1).fillFrame q fun _ => 0) := by
  intro f i hlarge
  have hne : f ≠ q := by
    rintro rfl
    rw [mem_fillFrame_self, isLarge_zero] at hlarge
    cases hlarge
  rw [mem_fillFrame_of_ne _ _ hne, MmState.mem_takePage] at hlarge
  refine ⟨hlarge, fun hf => ⟨hf.1, ?_⟩⟩
  show mmpIsPageAllocated (m.takePage q 1) f = false
  rw [MmState.allocated_takePage, decide_eq_false hne, hf.2]
  rfl

/-- The memory and the allocator's tables are all that matters. -/
theorem congr (h : FewerLarge m m') (hmem : m''.mem = m'.mem)
    (hfree : ∀ f, Free m' f → Free m'' f) : FewerLarge m m'' := by
  intro f i hlarge
  rw [hmem] at hlarge
  exact ⟨(h f i hlarge).1, fun hf => hfree f ((h f i hlarge).2 hf)⟩

end FewerLarge

/-- No large page covers an address of the user range. -/
def PlainTables (root : ℕ) (m : MmState) : Prop :=
  ∀ va ∈ userPages, ∀ k ≤ 2, ∀ entry, Reads m root va k entry → isLarge entry = false

/-- Where only pages that were free become tables, and no large entry is added, the tables stay
plain. -/
theorem PlainTables.step (h : PlainTables root m) (ok : TablesOk userPages {root} m')
    (hfollow : ∀ p ∈ tablePaths userPages, ∀ t, follow pteChild m.mem root p = some t →
      follow pteChild m'.mem root p = some t)
    (hreached : ∀ f, IsTable userPages {root} m' f → IsTable userPages {root} m f ∨ Free m f)
    (hlarge : FewerLarge m m') : PlainTables root m' := by
  rintro va hva k hk _ ⟨-, t, ht, rfl⟩
  by_contra hentry
  obtain ⟨hbefore, hfree⟩ := hlarge t (tableIndex va k) (Bool.eq_true_of_not_eq_false hentry)
  have htable : IsTable userPages {root} m' t := ⟨root, rfl, _, vaPath_mem hva (by omega), ht⟩
  rcases hreached t htable with ⟨r, rfl, p, hp, hold⟩ | hf
  · -- the table is where it was
    have hpath : p = vaPath va k :=
      ok.tree r rfl r rfl p hp _ (vaPath_mem hva (by omega)) t (hfollow p hp t hold) ht
    rw [hpath] at hold
    have hplain := h va hva k hk _ (reads_of_tableAt (by omega) hold)
    rw [hbefore] at hplain
    cases hplain
  · exact ok.live t htable (hfree hf)

/-- An entry that is not large leads to a table or is not present. -/
theorem pteChild_or_absent {entry : U64} (h : isLarge entry = false) :
    (∃ t, pteChild entry = some t) ∨ hasFlag entry mmPtePresent = false := by
  by_cases hpresent : hasFlag entry mmPtePresent = true
  · exact .inl ⟨_, pteChild_of_present hpresent h⟩
  · exact .inr (Bool.eq_false_iff.2 hpresent)

/-- The walk for a page of plain tables adds no large entry, and fails where no page is left. -/
theorem mmpWalkTables_plain (n k : ℕ) {u : ℕ} (hn : n + k = 3) (hva : va ∈ userPages)
    (ok : TablesOk userPages {root} m) (h : PlainTables root m)
    (hu : m.tableAt root va n = some u) :
    FewerLarge m (mmpWalkTables va true k n u m).1 ∧
      ∀ e, (mmpWalkTables va true k n u m).2 = .error e →
        ¬CanAlloc (mmpWalkTables va true k n u m).1 := by
  induction k generalizing n u m with
  | zero => exact ⟨.refl m, fun e he => by cases he⟩
  | succ k ih =>
    obtain ⟨hwalked, hnext⟩ := mmpWalkLevel_walked ok rfl hva (by omega) hu true
    have hlarge : FewerLarge m (mmpWalkLevel m u n va true).1 ∧
        ∀ e, (mmpWalkLevel m u n va true).2 = .error e →
          ¬CanAlloc (mmpWalkLevel m u n va true).1 := by
      rcases pteChild_or_absent (h va hva n (by omega) _ (reads_of_tableAt (by omega) hu)) with
        ⟨t, hchild⟩ | habsent
      · rw [mmpWalkLevel_of_child hchild]
        refine ⟨?_, fun e he => by cases he⟩
        dsimp only
        split
        · refine .writeEntry m u _ fun hl => ?_
          rwa [isLarge_sanitizeEntry] at hl
        · exact .refl m
      · rcases mmpWalkLevel_of_absent habsent with ⟨⟨e, heq⟩, hno⟩ | ⟨q, hq, heq⟩ <;> rw [heq]
        · exact ⟨.refl m, fun _ _ => hno⟩
        · refine ⟨(FewerLarge.takePage m q).trans (.writeEntry _ u _ fun hl => ?_),
            fun e he => by cases he⟩
          rw [isLarge_of_pteChild (pteChild_newTableEntry va (lt_of_lt_trackedPages hq.1))] at hl
          cases hl
    rw [mmpWalkTables]
    generalize mmpWalkLevel m u n va true = r at hwalked hnext hlarge ⊢
    obtain ⟨m₁, e | t⟩ := r
    · exact ⟨hlarge.1, fun _ _ => hlarge.2 e rfl⟩
    · have hplain : PlainTables root m₁ :=
        h.step hwalked.tables (hwalked.follow root rfl) hwalked.reached hlarge.1
      obtain ⟨hrest, hfail⟩ := ih (n + 1) (by omega) hwalked.tables hplain (hnext t rfl)
      exact ⟨hlarge.1.trans hrest, hfail⟩

theorem mmpIsCanonicalAddress_userPages (hva : va ∈ userPages) :
    mmpIsCanonicalAddress va = true := by
  have htop : mmUserTop.toNat = 0x800000000000 := by decide
  have hlt := hva.2.2
  have hhigh : va >>> 48 = 0 := by
    refine BitVec.eq_of_toNat_eq ?_
    rw [BitVec.toNat_ushiftRight, Nat.shiftRight_eq_div_pow]
    show va.toNat / 2 ^ 48 = 0
    omega
  rw [mmpIsCanonicalAddress, hhigh]
  rfl

/-- `MmpWalkToPte` for a page of plain tables. -/
theorem mmpWalkToPte_plain (ok : TablesOk userPages {m.rootFrame a} m)
    (h : PlainTables (m.rootFrame a) m) (hva : va ∈ userPages) :
    FewerLarge m (mmpWalkToPte m a va true).1 ∧
      ∀ e, (mmpWalkToPte m a va true).2 = .error e → ¬CanAlloc (mmpWalkToPte m a va true).1 := by
  have hplain := mmpWalkTables_plain 0 3 rfl hva ok h (u := m.rootFrame a) rfl
  rw [mmpWalkToPte, if_neg (by rw [mmpIsCanonicalAddress_userPages hva]; exact Bool.noConfusion)]
  generalize mmpWalkTables va true 3 0 (m.rootFrame a) m = r at hplain ⊢
  obtain ⟨m₁, e | t⟩ := r
  · exact ⟨hplain.1, fun _ _ => hplain.2 e rfl⟩
  · exact ⟨hplain.1, fun e he => by cases he⟩

/-! ## Mapping fresh pages -/

/-- Only the views of some pages changed, the tables that were there are where they were, and no
large entry was added. -/
structure Grown (root : ℕ) (touched : Set U64) (m m' : MmState) : Prop
    extends Kept root touched m m' where
  follow : ∀ p ∈ tablePaths userPages, ∀ t, follow pteChild m.mem root p = some t →
    follow pteChild m'.mem root p = some t
  fewer : FewerLarge m m'

namespace Grown

variable {touched touched' : Set U64}

theorem refl (ok : TablesOk userPages {root} m) : Grown root touched m m where
  toKept := .refl ok
  follow _ _ _ h := h
  fewer := .refl m

theorem mono (h : Grown root touched m m') (hle : touched ⊆ touched') :
    Grown root touched' m m' :=
  { h with toKept := h.toKept.mono hle }

theorem trans (h : Grown root touched m m') (h' : Grown root touched m' m'') :
    Grown root touched m m'' where
  toKept := h.toKept.trans h'.toKept
  follow p hp t ht := h'.follow p hp t (h.follow p hp t ht)
  fewer := h.fewer.trans h'.fewer

theorem plain (h : Grown root touched m m') (hplain : PlainTables root m) : PlainTables root m' :=
  hplain.step h.tables h.follow h.reached h.fewer

end Grown

/-- The user range is mapped by plain tables, and to pages that are in use. -/
structure PlainSpace (root : ℕ) (m : MmState) : Prop where
  ready : m.ready = true
  tables : TablesOk userPages {root} m
  plain : PlainTables root m
  live : ∀ va ∈ userPages, hasFlag (pteView m root va) mmPtePresent = true →
    ¬Free m (pteFrame (pteView m root va))

namespace PlainSpace

/-- What changes no view keeps the space. -/
theorem grown (h : PlainSpace root m) (hg : Grown root ∅ m m') : PlainSpace root m' where
  ready := hg.pages.ready.trans h.ready
  tables := hg.tables
  plain := hg.plain h.plain
  live va hva hpresent := by
    rw [hg.view va hva (Set.notMem_empty va)] at hpresent ⊢
    exact hg.live _ (h.live va hva hpresent)

/-- What changes the view of one page keeps the space, if the new frame is in use. -/
theorem grown_page (h : PlainSpace root m) (hg : Grown root {va} m m')
    (hlive : ¬Free m' (pteFrame (pteView m' root va))) : PlainSpace root m' where
  ready := hg.pages.ready.trans h.ready
  tables := hg.tables
  plain := hg.plain h.plain
  live va' hva' hpresent := by
    by_cases hsame : va' = va
    · rw [hsame]
      exact hlive
    · rw [hg.view va' hva' hsame] at hpresent ⊢
      exact hg.live _ (h.live va' hva' hpresent)

/-- The tables of address spaces say nothing of pages. -/
theorem of_pool (h : PlainSpace root m) (pool : AddressSpaceRef → MmAddressSpace) :
    PlainSpace root { m with addressSpacePool := pool } where
  ready := h.ready
  tables := ⟨h.tables.tree, h.tables.live⟩
  plain := h.plain
  live := h.live

/-- The entry of a page that is present is in a last table. -/
theorem reads_of_present (h : PlainSpace root m) (hva : va ∈ userPages)
    (hpresent : hasFlag (pteView m root va) mmPtePresent = true) :
    Reads m root va 3 (pteView m root va) := by
  rw [pteView] at hpresent ⊢
  cases ht : m.tableAt root va 3 with
  | some t =>
    rw [ht] at hpresent
    exact ⟨le_rfl, t, ht, rfl⟩
  | none =>
    rw [ht] at hpresent
    cases hd : m.tableAt root va 2 with
    | none =>
      rw [hd] at hpresent
      dsimp only at hpresent
      exact absurd hpresent (by decide)
    | some d =>
      have hplain := h.plain va hva 2 le_rfl _ (reads_of_tableAt (by omega) hd)
      rw [hd] at hpresent
      dsimp only at hpresent
      rw [hplain, if_neg Bool.false_ne_true] at hpresent
      exact absurd hpresent (by decide)

/-- An entry that maps a page is the view of the page. -/
theorem view_of_mapsTo (h : PlainSpace root m) (hva : va ∈ userPages) {k frame : ℕ} {entry : U64}
    (hread : Reads m root va k entry) (hmaps : MapsTo va' k entry frame) :
    hasFlag (pteView m root va) mmPtePresent = true ∧ frame = pteFrame (pteView m root va) := by
  rcases hmaps with ⟨rfl, hpresent, rfl⟩ | ⟨hk, hlarge, -⟩
  · obtain ⟨-, t, ht, rfl⟩ := hread
    rw [pteView_of_tableAt ht]
    exact ⟨hpresent, rfl⟩
  · have hplain := h.plain va hva k (by omega) entry hread
    rw [hlarge] at hplain
    cases hplain

end PlainSpace

/-- The pages below an address read the same entries. -/
theorem Reads.mmpAlignDown {k : ℕ} {entry : U64} (h : Reads m root va k entry) :
    Reads m root (mmpAlignDown va 4096) k entry := by
  obtain ⟨hk, t, ht, rfl⟩ := h
  refine ⟨hk, t, ?_, by rw [tableIndex_mmpAlignDown va hk]⟩
  rw [MmState.tableAt, vaPath_mmpAlignDown va hk]
  exact ht

/-- A user address is translated to the frame in the view of its page. -/
theorem PlainSpace.view_of_translate (h : PlainSpace (m.rootFrame a) m)
    (hva : mmpAlignDown va 4096 ∈ userPages) {T : Translation} (hT : m.translate a va = some T) :
    hasFlag (pteView m (m.rootFrame a) (mmpAlignDown va 4096)) mmPtePresent = true ∧
      T.frame = pteFrame (pteView m (m.rootFrame a) (mmpAlignDown va 4096)) := by
  obtain ⟨⟨k, entry, hread, hmaps⟩, -⟩ := translate_spec hT
  exact h.view_of_mapsTo hva hread.mmpAlignDown hmaps

/-- A page that is present is translated to the frame in its view. -/
theorem PlainSpace.translate_of_present (h : PlainSpace (m.rootFrame a) m)
    (hva : mmpAlignDown va 4096 ∈ userPages)
    (hpresent : hasFlag (pteView m (m.rootFrame a) (mmpAlignDown va 4096)) mmPtePresent = true) :
    ∃ T, m.translate a va = some T ∧
      T.frame = pteFrame (pteView m (m.rootFrame a) (mmpAlignDown va 4096)) := by
  obtain ⟨-, t, ht, hentry⟩ := h.reads_of_present hva hpresent
  have hread : Reads m (m.rootFrame a) va 3
      (pteView m (m.rootFrame a) (mmpAlignDown va 4096)) := by
    rw [MmState.tableAt, vaPath_mmpAlignDown va le_rfl] at ht
    exact ⟨le_rfl, t, ht, by rw [← tableIndex_mmpAlignDown va le_rfl]; exact hentry⟩
  obtain ⟨T, hT, hframe, -⟩ := translate_of_mapsTo hread (.inl ⟨rfl, hpresent, rfl⟩)
  exact ⟨T, hT, hframe⟩

/-- The entry of a page has no more flags than it is given, but for being present. -/
theorem isLarge_mapEntry {pa flags : U64} (h : hasFlag flags mmPteLarge = false) :
    isLarge (mapEntry pa flags) = false := by
  have haddress : hasFlag (pa &&& mmPteAddrMask) mmPteLarge = false := by
    rw [hasFlag_eq_false, BitVec.and_assoc]
    exact BitVec.and_zero
  rw [isLarge, mapEntry, hasFlag_or (m := mmPteLarge), hasFlag_or (m := mmPteLarge), h, haddress,
    Bool.and_eq_false_iff]
  exact .inr (by decide)

theorem mmpProtectionToPte_not_large (protection flags : U32) :
    hasFlag (mmpProtectionToPte protection flags) mmPteLarge = false := by
  rw [mmpProtectionToPte]
  split <;> split <;> split <;> split <;> decide

/-- Mapping a page of plain tables that is not mapped. -/
theorem PlainSpace.mmAsMapPage (h : PlainSpace root m) (hroot : m.rootFrame a = root)
    (hva : va ∈ userPages) (habsent : hasFlag (pteView m root va) mmPtePresent = false)
    {pa flags : U64} (hpa : pa.toNat % mmPageSize = 0) (hflags : hasFlag flags mmPteLarge = false) :
    (∃ m' e, Grown root ∅ m m' ∧ ¬CanAlloc m' ∧
        mmAsMapPage m a va pa flags = (m', .error e)) ∨
      ∃ m', Grown root {va} m m' ∧ pteView m' root va = mapEntry pa flags ∧
        (∀ f, ¬Free m f → ¬IsTable userPages {root} m f → m'.mem f = m.mem f) ∧
        mmAsMapPage m a va pa flags = (m', .ok ()) := by
  subst hroot
  have haligned : ¬(m.ready = false ∨ va.toNat % mmPageSize ≠ 0 ∨ pa.toNat % mmPageSize ≠ 0) := by
    rintro (hready | hva' | hpa')
    · exact Bool.false_ne_true (hready.symm.trans h.ready)
    · exact hva' (Nat.mod_eq_zero_of_dvd hva.1)
    · exact hpa' hpa
  rw [Mm.mmAsMapPage, if_neg haligned]
  have hplain := mmpWalkToPte_plain h.tables h.plain hva
  obtain ⟨hwalked, hfound⟩ := mmpWalkToPte_walked h.tables rfl hva true
  generalize mmpWalkToPte m a va true = r at hplain hwalked hfound ⊢
  obtain ⟨m₁, e | ⟨t, i⟩⟩ := r
  · have hg : Grown (m.rootFrame a) ∅ m m₁ :=
      { toKept := hwalked.kept, follow := hwalked.follow _ rfl, fewer := hplain.1 }
    exact .inl ⟨m₁, e, hg, hplain.2 e rfl, rfl⟩
  obtain ⟨rfl, ht⟩ := hfound t i rfl
  have hview := hwalked.view _ rfl va hva
  rw [pteView_of_tableAt ht] at hview
  dsimp only at hwalked hplain ht hview ⊢
  rw [hview, habsent, if_neg Bool.false_ne_true]
  obtain ⟨hkept, hnew⟩ := hwalked.kept.writePage hva ht (mapEntry pa flags)
  have hleaf := (hwalked.tables.writeLeaf rfl hva ht (mapEntry pa flags)).2.1 _ rfl
  refine .inr ⟨_, { toKept := hkept, follow := ?_, fewer := ?_ }, hnew, ?_, rfl⟩
  · exact fun p hp u hu => (hleaf p hp).trans (hwalked.follow _ rfl p hp u hu)
  · refine hplain.1.trans (.writeEntry m₁ t _ fun hl => ?_)
    rw [isLarge_mapEntry hflags] at hl
    cases hl
  · intro f hf hnot
    have hne : f ≠ t := by
      rintro rfl
      have htable : IsTable userPages {m.rootFrame a} m₁ f :=
        ⟨_, rfl, _, vaPath_mem hva le_rfl, ht⟩
      exact (hwalked.reached f htable).elim hnot hf
    exact (Function.update_of_ne hne _ _).trans (hwalked.mem f hf hnot)

/-- Taking a page and emptying it leaves the tables alone. -/
theorem mem_takePage_of_isTable (ok : TablesOk userPages {root} m) {page : ℕ} (hpage : Free m page)
    (f : ℕ) (hf : IsTable userPages {root} m f) :
    ((m.takePage page 1).fillFrame page fun _ => 0).mem f = m.mem f := by
  refine mem_fillFrame_of_ne _ _ ?_
  rintro rfl
  exact ok.live f hf hpage

theorem Grown.takePage (ok : TablesOk userPages {root} m) {page : ℕ} (hpage : Free m page) :
    Grown root ∅ m ((m.takePage page 1).fillFrame page fun _ => 0) where
  toKept := .takePage ok hpage.1 hpage.2 _
  follow p hp t ht := by
    rw [follow_of_not_reached (tablePaths_closed userPages) (Set.mem_singleton root)
      (mem_takePage_of_isTable ok hpage) hp]
    exact ht
  fewer := .takePage m page

/-- Mapping a fresh page of zeros where no page is mapped: no page is left for it or its tables, or
a page that was free backs it. -/
theorem PlainSpace.mmMapZeroPage (h : PlainSpace root m) (hroot : m.rootFrame a = root)
    (hva : va ∈ userPages) (habsent : hasFlag (pteView m root va) mmPtePresent = false)
    (protection flags : U32) :
    (∃ m' e, Grown root ∅ m m' ∧ ¬CanAlloc m' ∧
        mmMapZeroPage m a va protection flags = (m', .error e)) ∨
      ∃ m' page, Grown root {va} m m' ∧ PlainSpace root m' ∧ Free m page ∧
        hasFlag (pteView m' root va) mmPtePresent = true ∧
        pteFrame (pteView m' root va) = page ∧ (m'.mem page = fun _ => 0) ∧
        mmMapZeroPage m a va protection flags = (m', .ok ()) := by
  rw [Mm.mmMapZeroPage]
  rcases mmAllocPage_cases m with ⟨e, heq⟩ | ⟨page, hpage, hfree, -, heq⟩
  · have hno := (mmAllocPage_error heq).2
    rw [heq]
    exact .inl ⟨m, _, .refl h.tables, hno, rfl⟩
  rw [heq]
  dsimp only
  have hpage40 : page < 2 ^ 40 := lt_of_lt_trackedPages hpage
  rw [pteFrame_pageAddress hpage40]
  have htake := Grown.takePage h.tables ⟨hpage, hfree⟩
  have htaken : ¬Free ((m.takePage page 1).fillFrame page fun _ => 0) page :=
    show ¬Free (m.takePage page 1) page from not_free_takePage (.inl rfl)
  have hzero := mem_fillFrame_self (m.takePage page 1) page fun _ => 0
  have hnot : ¬IsTable userPages {root} ((m.takePage page 1).fillFrame page fun _ => 0) page :=
    fun ht => h.tables.live page
      (isTable_of_quiet (mem_takePage_of_isTable h.tables ⟨hpage, hfree⟩) ht) ⟨hpage, hfree⟩
  generalize (m.takePage page 1).fillFrame page (fun _ => 0) = m₁ at htake htaken hzero hnot ⊢
  have hview := htake.view va hva (Set.notMem_empty va)
  rcases (h.grown htake).mmAsMapPage ((htake.pages.rootFrame a).trans hroot) hva
    (by rw [hview]; exact habsent) (pageAddress_page hpage).1
    (mmpProtectionToPte_not_large protection flags) with
    ⟨m', e, hg, hno, hmap⟩ | ⟨m', hg, hentry, hmem, hmap⟩
  · exact .inl ⟨m', e, htake.trans hg, hno, hmap⟩
  have hframe : pteFrame (pteView m' root va) = page := by
    rw [hentry, pteFrame_mapEntry (mmpProtectionToPte_address protection flags),
      pteFrame_pageAddress hpage40]
  have hpresent : hasFlag (pteView m' root va) mmPtePresent = true := by
    rw [hentry, mapEntry, hasFlag_or, Bool.or_eq_true]
    exact .inr (by decide)
  refine .inr ⟨m', page, (htake.mono (Set.empty_subset _)).trans hg, ?_, ⟨hpage, hfree⟩, hpresent,
    hframe, (hmem page htaken hnot).trans hzero, hmap⟩
  exact (h.grown htake).grown_page hg (by rw [hframe]; exact hg.live page htaken)

/-- The loop over the pages of a wired region, where it is not stopped. -/
theorem PlainSpace.mmMapWired {slot : Fin mmMaxVaRegions} {virtualBase : U64}
    {protection flags : U32} (n : ℕ) (cursor : U64) (h : PlainSpace root m)
    (hroot : m.rootFrame a = root)
    (hpages : ∀ va ∈ wiredPages (virtualBase + cursor) n,
      va ∈ userPages ∧ hasFlag (pteView m root va) mmPtePresent = false)
    (hn : n * mmPageSize < 2 ^ 64)
    (hdone : (mmMapWired a slot virtualBase protection flags n cursor m).2 = .ok ()) :
    PlainSpace root (mmMapWired a slot virtualBase protection flags n cursor m).1 ∧
      ∀ va ∈ userPages, va ∉ wiredPages (virtualBase + cursor) n →
        pteView (mmMapWired a slot virtualBase protection flags n cursor m).1 root va =
          pteView m root va := by
  induction n generalizing cursor m with
  | zero => exact ⟨h, fun _ _ _ => rfl⟩
  | succ n ih =>
    have hfirst : virtualBase + cursor ∈ wiredPages (virtualBase + cursor) (n + 1) :=
      ⟨0, Nat.succ_pos n, by rw [Nat.zero_mul]; exact (BitVec.add_zero _).symm⟩
    have hsubset : wiredPages (virtualBase + cursor + 4096) n ⊆ _ := wiredPages_succ hn
    have hnext : virtualBase + (cursor + 4096) = virtualBase + cursor + 4096 :=
      (BitVec.add_assoc ..).symm
    rw [← hnext] at hsubset
    obtain ⟨huser, habsent⟩ := hpages _ hfirst
    rw [Mm.mmMapWired] at hdone ⊢
    rcases h.mmMapZeroPage hroot huser habsent protection flags with
      ⟨m₁, e, -, -, heq⟩ | ⟨m₁, page, hg, h₁, -, -, -, -, heq⟩
    · rw [heq] at hdone
      cases hdone
    rw [heq] at hdone ⊢
    dsimp only at hdone ⊢
    have hroot₁ : (m₁.modifyRegion a slot fun r =>
        { r with committedPages := r.committedPages + 1 }).rootFrame a = root := by
      rw [rootFrame_modifyRegion, hg.pages.rootFrame, hroot]
    have hrest : ∀ va ∈ wiredPages (virtualBase + (cursor + 4096)) n,
        va ∈ userPages ∧ hasFlag (pteView m₁ root va) mmPtePresent = false := by
      intro va hva
      obtain ⟨hall, hne⟩ := hsubset hva
      obtain ⟨huser', habsent'⟩ := hpages va hall
      exact ⟨huser', by rw [hg.view va huser' hne]; exact habsent'⟩
    obtain ⟨h', hview⟩ := ih (cursor + 4096) (h₁.of_pool _) hroot₁ hrest
      (lt_of_le_of_lt (Nat.mul_le_mul_right _ (Nat.le_succ n)) hn) hdone
    refine ⟨h', fun va hva hnot => ?_⟩
    have hne : va ≠ virtualBase + cursor := fun hsame => hnot (hsame ▸ hfirst)
    exact (hview va hva fun hin => hnot (hsubset hin).1).trans (hg.view va hva hne)

/-- `MmMapAnonymous` keeps the space, and changes the views of the pages of a wired region alone. -/
theorem PlainSpace.mmMapAnonymous (h : PlainSpace root m) (hroot : m.rootFrame a = root) {size : U64}
    {protection flags : U32}
    (hpages : ∀ va ∈ anonPages m a size flags,
      va ∈ userPages ∧ hasFlag (pteView m root va) mmPtePresent = false)
    (hwhole : WiresWhole m a size protection flags) :
    PlainSpace root (mmMapAnonymous m a size protection flags).1 ∧
      ∀ va ∈ userPages, (va ∉ anonPages m a size flags ∨
          ∃ e, (mmMapAnonymous m a size protection flags).2 = .error e) →
        pteView (mmMapAnonymous m a size protection flags).1 root va = pteView m root va := by
  rw [Mm.mmMapAnonymous, if_neg (by rw [h.ready]; exact Bool.noConfusion)]
  by_cases hcount : (m.addressSpacePool a).regionCount < mmMaxVaRegions
  swap
  · rw [dif_neg hcount]
    exact ⟨h, fun _ _ _ => rfl⟩
  rw [dif_pos hcount]
  dsimp only
  have hwhole' := fun hwired => hwhole hwired hcount
  have hanon : ∀ va, va ∈ anonPages m a size flags ↔
      hasFlag (newRegion m a size protection flags).flags mmRegionFlagWired = true ∧
        va ∈ wiredPages (newRegion m a size protection flags).base
          ((newRegion m a size protection flags).size.toNat / mmPageSize) := fun va => Iff.rfl
  rw [show effectiveFlags flags = (newRegion m a size protection flags).flags from rfl] at hwhole'
  rw [show mmpAlignUp (m.addressSpacePool a).nextUserBase 4096 =
      (newRegion m a size protection flags).base from rfl,
    show mmpAlignSizeToPage size = (newRegion m a size protection flags).size from rfl,
    show anonRegion (newRegion m a size protection flags).base
      (newRegion m a size protection flags).size protection flags =
      newRegion m a size protection flags from rfl]
  dsimp only at hwhole'
  generalize newRegion m a size protection flags = region at hanon hwhole' ⊢
  have h₁ : PlainSpace root (m.modifyRegion a ⟨_, hcount⟩ fun _ => region) := h.of_pool _
  have hroot₁ : (m.modifyRegion a ⟨_, hcount⟩ fun _ => region).rootFrame a = root :=
    (rootFrame_modifyRegion ..).trans hroot
  have hview₁ : pteView (m.modifyRegion a ⟨_, hcount⟩ fun _ => region) root = pteView m root := rfl
  rw [← hview₁] at hpages ⊢
  generalize m.modifyRegion a ⟨_, hcount⟩ (fun _ => region) = m₁ at hwhole' h₁ hroot₁ hpages ⊢
  by_cases hwired : hasFlag region.flags mmRegionFlagWired = true
  swap
  · rw [if_neg hwired]
    exact ⟨h₁.of_pool _, fun _ _ _ => rfl⟩
  rw [if_pos hwired]
  have hlt : region.size.toNat / mmPageSize * mmPageSize < 2 ^ 64 :=
    lt_of_le_of_lt (Nat.div_mul_le_self _ _) region.size.isLt
  have hzero : region.base + 0 = region.base := BitVec.add_zero _
  have hpages' : ∀ va ∈ wiredPages (region.base + 0) (region.size.toNat / mmPageSize),
      va ∈ userPages ∧ hasFlag (pteView m₁ root va) mmPtePresent = false := by
    rw [hzero]
    exact fun va hva => hpages va ((hanon va).2 ⟨hwired, hva⟩)
  rcases hwhole' hwired with hdone | ⟨e, hfail⟩
  · obtain ⟨h', hview⟩ := h₁.mmMapWired _ 0 hroot₁ hpages' hlt hdone
    generalize Mm.mmMapWired a _ region.base region.protection region.flags _ 0 m₁ = r
      at hdone h' hview ⊢
    obtain ⟨m₂, e | _⟩ := r
    · cases hdone
    · refine ⟨h'.of_pool _, fun va hva hnot => hview va hva fun hin => ?_⟩
      rw [hzero] at hin
      rcases hnot with hnot | ⟨e, he⟩
      · exact hnot ((hanon va).2 ⟨hwired, hin⟩)
      · cases he
  · -- the first page fails, and nothing is mapped
    cases hcases : region.size.toNat / mmPageSize with
    | zero => exact ⟨h₁.of_pool _, fun _ _ _ => rfl⟩
    | succ k =>
      obtain ⟨huser, habsent⟩ := hpages' (region.base + 0)
        ⟨0, by rw [hcases]; exact Nat.succ_pos k, by rw [Nat.zero_mul]; exact (BitVec.add_zero _).symm⟩
      rw [Mm.mmMapWired]
      rw [← hzero] at hfail
      rcases h₁.mmMapZeroPage hroot₁ huser habsent region.protection region.flags with
        ⟨m₂, e', hg, -, heq⟩ | ⟨m₂, page, -, -, -, -, -, -, heq⟩
      · rw [heq]
        exact ⟨h₁.grown hg, fun va hva _ => hg.view va hva (Set.notMem_empty va)⟩
      · rw [heq] at hfail
        cases hfail

/-! ## Lazy ranges -/

/-- The addresses of `size` bytes from `base` on. -/
def InRange (base size va : U64) : Prop :=
  base.toNat ≤ va.toNat ∧ va.toNat < base.toNat + size.toNat

/-- An access to a page that is not present, which the region allows. -/
structure FirstAccess (r : MmVaRegion) (errorCode : U64) : Prop where
  guard : hasFlag r.flags mmRegionFlagGuard = false
  absent : hasFlag errorCode mmPfErrorPresent = false
  write : hasFlag errorCode mmPfErrorWrite = true → hasFlag r.protection mmProtWrite = true
  user : hasFlag errorCode mmPfErrorUser = true → hasFlag r.protection mmProtUser = true
  execute : hasFlag errorCode mmPfErrorInstr = true → hasFlag r.protection mmProtExecute = true

/-- The page of the address is mapped to a frame that was free and is zero, and no other page of the
user range is. -/
def Backed (m m' : MmState) (a : AddressSpaceRef) (va : U64) : Prop :=
  ∃ T, m'.translate a va = some T ∧ Free m T.frame ∧ (m'.mem T.frame = fun _ => 0) ∧
    ∀ va' T', mmUserBase.toNat ≤ va'.toNat → va'.toNat < mmUserTop.toNat →
      m'.translate a va' = some T' → T'.frame = T.frame →
        va'.toNat / mmPageSize = va.toNat / mmPageSize

/-- No address of the region is translated, and the first access to a page is backed unless memory
has run out. -/
structure LazyRange (a : AddressSpaceRef) (r : MmVaRegion) (m : MmState) : Prop where
  untranslated : ∀ va, InRange r.base r.size va → m.translate a va = none
  backed : ∀ va errorCode, InRange r.base r.size va → FirstAccess r errorCode →
    match mmHandlePageFault m a va errorCode with
    | (m', .error _) => ¬CanAlloc m'
    | (m', .ok _) => Backed m m' a va

/-- A walk that adds no tables changes nothing. -/
theorem mmpWalkToPte_false_fst (m : MmState) (a : AddressSpaceRef) (va : U64) :
    (mmpWalkToPte m a va false).1 = m := by
  have hlevel : ∀ u n, (mmpWalkLevel m u n va false).1 = m := by
    intro u n
    have hsplit : (mmpSplitLarge m u n va false).1 = m := by
      rw [mmpSplitLarge, if_pos (rfl : false = false)]
      split
      · split <;> rfl
      · rfl
    have hsanitize : ∀ entry, mmpSanitize m u n va false entry = (m, entry) := by
      intro entry
      rw [mmpSanitize, Bool.and_false, if_neg Bool.false_ne_true]
    have hadd : ∀ entry, (mmpAddTable m u n va false entry).1 = m := by
      intro entry
      rw [mmpAddTable, if_pos (rfl : false = false)]
      split <;> rfl
    rw [mmpWalkLevel]
    generalize mmpSplitLarge m u n va false = r at hsplit ⊢
    obtain ⟨m₁, e | entry⟩ := r
    · exact hsplit
    rw [show m₁ = m from hsplit]
    dsimp only
    rw [hsanitize]
    have hlast := hadd entry
    dsimp only
    generalize mmpAddTable m u n va false entry = r at hlast ⊢
    obtain ⟨m₂, e | entry'⟩ := r <;> exact hlast
  have htables : ∀ k n u, (mmpWalkTables va false k n u m).1 = m := by
    intro k
    induction k with
    | zero => exact fun _ _ => rfl
    | succ k ih =>
      intro n u
      rw [mmpWalkTables]
      have hone := hlevel u n
      generalize mmpWalkLevel m u n va false = r at hone ⊢
      obtain ⟨m₁, e | t⟩ := r
      · exact hone
      · rw [show m₁ = m from hone]
        exact ih (n + 1) t
  rw [mmpWalkToPte]
  split
  · rfl
  · have hall := htables 3 0 (m.rootFrame a)
    generalize mmpWalkTables va false 3 0 (m.rootFrame a) m = r at hall ⊢
    obtain ⟨m₁, e | t⟩ := r <;> exact hall

/-- `MmAsQueryPte` changes nothing. -/
theorem mmAsQueryPte_fst (m : MmState) (a : AddressSpaceRef) (va : U64) :
    (mmAsQueryPte m a va).1 = m := by
  have hwalk := mmpWalkToPte_false_fst m a va
  rw [mmAsQueryPte]
  split
  · rfl
  · generalize mmpWalkToPte m a va false = r at hwalk ⊢
    obtain ⟨m₁, e | ⟨t, i⟩⟩ := r <;> exact hwalk

/-- A first access to a page of an anonymous region maps a fresh page. -/
theorem mmHandlePageFault_firstAccess (hready : m.ready = true) {slot : Fin mmMaxVaRegions}
    {errorCode : U64} (hfind : mmpFindRegion (m.addressSpacePool a) va = some slot)
    (hanon : ((m.addressSpacePool a).regions slot).type = mmRegionTypeAnon)
    (h : FirstAccess ((m.addressSpacePool a).regions slot) errorCode) :
    mmHandlePageFault m a va errorCode = commitPage a slot (mmMapZeroPage m a (mmpAlignDown va 4096)
      ((m.addressSpacePool a).regions slot).protection
      ((m.addressSpacePool a).regions slot).flags) := by
  have hquery := mmAsQueryPte_fst m a (mmpAlignDown va 4096)
  have hallowed : ∀ {x y : Bool}, (x = true → y = true) → ¬(x && !y) = true := by decide
  rw [mmHandlePageFault, if_neg (by rw [hready]; exact Bool.noConfusion), hfind]
  dsimp only
  rw [h.guard, if_neg Bool.false_ne_true, if_neg (hallowed h.write), if_neg (hallowed h.user),
    if_neg (hallowed h.execute)]
  generalize mmAsQueryPte m a (mmpAlignDown va 4096) = r at hquery ⊢
  obtain ⟨m₁, pte⟩ := r
  dsimp only at hquery ⊢
  rw [h.absent, if_neg Bool.false_ne_true, if_pos hanon, hquery]

/-- What the calls keep: the space is plain, nothing is mapped from `NextUserBase` on, and nothing
is mapped in the lazy regions. -/
structure LazyInv (a : AddressSpaceRef) (m : MmState) : Prop where
  space : PlainSpace (m.rootFrame a) m
  regions : RegionsOk (m.addressSpacePool a)
  above : ∀ va ∈ userPages, (m.addressSpacePool a).nextUserBase.toNat ≤ va.toNat →
    hasFlag (pteView m (m.rootFrame a) va) mmPtePresent = false
  anon : ∀ i : Fin mmMaxVaRegions, i.val < (m.addressSpacePool a).regionCount →
    ((m.addressSpacePool a).regions i).type = mmRegionTypeAnon
  untouched : ∀ i : Fin mmMaxVaRegions, i.val < (m.addressSpacePool a).regionCount →
    hasFlag ((m.addressSpacePool a).regions i).flags mmRegionFlagLazy = true →
    ∀ va ∈ userPages, ((m.addressSpacePool a).regions i).contains va = true →
      hasFlag (pteView m (m.rootFrame a) va) mmPtePresent = false

/-- The lazy regions are what they are for. -/
theorem LazyInv.lazyRange (inv : LazyInv a m) {i : Fin mmMaxVaRegions}
    (hi : i.val < (m.addressSpacePool a).regionCount)
    (hlazy : hasFlag ((m.addressSpacePool a).regions i).flags mmRegionFlagLazy = true) :
    LazyRange a ((m.addressSpacePool a).regions i) m := by
  have hpage : ∀ va, InRange ((m.addressSpacePool a).regions i).base
      ((m.addressSpacePool a).regions i).size va → mmpAlignDown va 4096 ∈ userPages ∧
        hasFlag (pteView m (m.rootFrame a) (mmpAlignDown va 4096)) mmPtePresent = false := by
    intro va hva
    have hin := inv.regions.contains_mmpAlignDown hi ((inv.regions.contains_iff hi).2 hva)
    have huser := inv.regions.mem_userPages hi hin
      (by rw [mmpAlignDown_toNat]; exact Nat.dvd_mul_left _ _)
    exact ⟨huser, inv.untouched i hi hlazy _ huser hin⟩
  constructor
  · intro va hva
    obtain ⟨huser, habsent⟩ := hpage va hva
    cases hT : m.translate a va with
    | none => rfl
    | some T =>
      have hpresent := (inv.space.view_of_translate huser hT).1
      rw [habsent] at hpresent
      cases hpresent
  · intro va errorCode hva haccess
    obtain ⟨huser, habsent⟩ := hpage va hva
    have hfind := inv.regions.find_of_contains hi ((inv.regions.contains_iff hi).2 hva)
    rw [mmHandlePageFault_firstAccess inv.space.ready hfind (inv.anon i hi) haccess]
    rcases inv.space.mmMapZeroPage rfl huser habsent ((m.addressSpacePool a).regions i).protection
      ((m.addressSpacePool a).regions i).flags with
      ⟨m', e, -, hno, heq⟩ | ⟨m', page, hg, h', hfree, hpresent, hframe, hzero, heq⟩
    · rw [heq]
      exact hno
    rw [heq]
    show Backed m (m'.modifyRegion a i fun r => _) a va
    have hroot : m'.rootFrame a = m.rootFrame a := hg.pages.rootFrame a
    have htranslate : ∀ va', (m'.modifyRegion a i fun r =>
        { r with committedPages := r.committedPages + 1 }).translate a va' = m'.translate a va' := by
      intro va'
      rw [MmState.translate, rootFrame_modifyRegion]
      rfl
    rw [← hroot] at hpresent hframe h'
    obtain ⟨T, hT, hsame⟩ := h'.translate_of_present huser hpresent
    rw [hframe] at hsame
    refine ⟨T, (htranslate va).trans hT, hsame ▸ hfree, ?_, ?_⟩
    · rw [hsame]
      exact hzero
    intro va' T' hbase htop hT' hframe'
    rw [htranslate] at hT'
    have huser' := mmpAlignDown_mem_userPages hbase htop
    obtain ⟨hpresent', heq'⟩ := h'.view_of_translate huser' hT'
    have hdown : mmpAlignDown va' 4096 = mmpAlignDown va 4096 := by
      -- another page was mapped before, so its frame was in use
      by_contra hne
      have hview := hg.view _ huser' hne
      rw [← hroot] at hview
      rw [hview] at hpresent' heq'
      have hlive := inv.space.live _ huser' (hroot ▸ hpresent')
      rw [← hroot, ← heq', hframe', hsame] at hlive
      exact hlive hfree
    have hnat := congrArg BitVec.toNat hdown
    rw [mmpAlignDown_toNat, mmpAlignDown_toNat] at hnat
    exact Nat.eq_of_mul_eq_mul_right (by decide) hnat

/-- The pages of a request that fits lie in the user range, in its region. -/
theorem mem_anonPages (ok : RegionsOk (m.addressSpacePool a)) {size : U64} {flags : U32}
    (hplace : Placeable (m.addressSpacePool a) size.toNat) (hva : va ∈ anonPages m a size flags) :
    va ∈ userPages ∧ (m.addressSpacePool a).nextUserBase.toNat ≤ va.toNat ∧
      va.toNat < (m.addressSpacePool a).nextUserBase.toNat + mapBytes size.toNat := by
  have htop : mmUserTop.toNat = 0x800000000000 := by decide
  have hpage : mmPageSize = 4096 := rfl
  have hbase := ok.base_le
  rw [Placeable] at hplace
  obtain ⟨-, k, hk, rfl⟩ := hva
  rw [mmpAlignUp_of_aligned ok.next_aligned ok.next_le]
  rw [mmpAlignSizeToPage_toNat (by omega)] at hk
  have hlt : (k + 1) * mmPageSize ≤ mapBytes size.toNat :=
    (Nat.mul_le_mul_right _ hk).trans (Nat.div_mul_le_self _ _)
  rw [hpage] at hlt
  have hnat : ((m.addressSpacePool a).nextUserBase + BitVec.ofNat 64 (k * mmPageSize)).toNat =
      (m.addressSpacePool a).nextUserBase.toNat + k * 4096 := by
    rw [BitVec.toNat_add, BitVec.toNat_ofNat, hpage]
    omega
  refine ⟨⟨?_, ?_, ?_⟩, ?_, ?_⟩ <;> rw [hnat]
  · exact Nat.dvd_add ok.next_aligned (Nat.dvd_mul_left _ _)
  all_goals omega

/-- A call of `MmMapAnonymous`. -/
structure AnonCall where
  size : U64
  protection : U32
  flags : U32

/-- What a call returns. -/
def AnonCall.run (a : AddressSpaceRef) (m : MmState) (c : AnonCall) : MmState × Except KStatus U64 :=
  mmMapAnonymous m a c.size c.protection c.flags

/-- The state after a call. -/
def AnonCall.perform (a : AddressSpaceRef) (m : MmState) (c : AnonCall) : MmState := (c.run a m).1

def AnonStep (a : AddressSpaceRef) (m : MmState) (c : AnonCall) (m' : MmState) : Prop :=
  m' = c.perform a m

/-- There is room for the call or it is refused, a wired request is not left half way, and a lazy
one is not wired. -/
structure LazyFits (a : AddressSpaceRef) (m : MmState) (c : AnonCall) : Prop where
  fits : Placeable (m.addressSpacePool a) c.size.toNat ∨
    mmMaxVaRegions ≤ (m.addressSpacePool a).regionCount
  whole : WiresWhole m a c.size c.protection c.flags
  unwired : hasFlag c.flags mmRegionFlagLazy = true → hasFlag c.flags mmRegionFlagWired = false

/-- After a call every lazy region is what it is for, and no address of the range that a lazy
request returned is translated. -/
structure LazyKept (a : AddressSpaceRef) (m : MmState) (c : AnonCall) (m' : MmState) : Prop where
  regions : ∀ i : Fin mmMaxVaRegions, i.val < (m'.addressSpacePool a).regionCount →
    hasFlag ((m'.addressSpacePool a).regions i).flags mmRegionFlagLazy = true →
      LazyRange a ((m'.addressSpacePool a).regions i) m'
  returned : ∀ base, (c.run a m).2 = .ok base → hasFlag c.flags mmRegionFlagLazy = true →
    ∀ va, InRange base (mmpAlignSizeToPage c.size) va → m'.translate a va = none

/-- The region of a lazy request is lazy. -/
theorem effectiveFlags_of_lazy {flags : U32} (h : hasFlag flags mmRegionFlagLazy = true) :
    effectiveFlags flags = flags := by
  rw [effectiveFlags, if_neg]
  intro hzero
  have hmask : (mmRegionFlagLazy ||| mmRegionFlagWired) &&& mmRegionFlagLazy = mmRegionFlagLazy := by
    decide
  rw [hasFlag_iff, ← hmask, ← BitVec.and_assoc, hzero] at h
  exact h (by decide)

/-- A region that is lazy is not wired. -/
theorem effectiveFlags_unwired {flags : U32}
    (h : hasFlag flags mmRegionFlagLazy = true → hasFlag flags mmRegionFlagWired = false)
    (hlazy : hasFlag (effectiveFlags flags) mmRegionFlagLazy = true) :
    hasFlag (effectiveFlags flags) mmRegionFlagWired = false := by
  by_cases hflag : hasFlag flags mmRegionFlagLazy = true
  · rw [effectiveFlags_of_lazy hflag]
    exact h hflag
  rw [effectiveFlags] at hlazy ⊢
  split at hlazy
  next hzero =>
    have hmask : (mmRegionFlagLazy ||| mmRegionFlagWired) &&& mmRegionFlagWired =
        mmRegionFlagWired := by decide
    rw [if_pos hzero, hasFlag_or, hasFlag_eq_false.2, Bool.false_or]
    · decide
    · rw [← hmask, ← BitVec.and_assoc, hzero]
      decide
  · exact absurd hlazy hflag

/-- A call that fails keeps the views and the regions that are counted. -/
theorem LazyInv.of_same (inv : LazyInv a m) (hspace : PlainSpace (m.rootFrame a) m')
    (hroot : m'.rootFrame a = m.rootFrame a)
    (hcount : (m'.addressSpacePool a).regionCount = (m.addressSpacePool a).regionCount)
    (hnext : (m'.addressSpacePool a).nextUserBase = (m.addressSpacePool a).nextUserBase)
    (hold : ∀ i : Fin mmMaxVaRegions, i.val < (m.addressSpacePool a).regionCount →
      (m'.addressSpacePool a).regions i = (m.addressSpacePool a).regions i)
    (hview : ∀ va ∈ userPages, pteView m' (m.rootFrame a) va = pteView m (m.rootFrame a) va) :
    LazyInv a m' where
  space := hroot.symm ▸ hspace
  regions := inv.regions.congr hcount hnext fun i hi => by rw [hold i hi]; exact ⟨rfl, rfl⟩
  above va hva hle := by
    rw [hroot, hview va hva]
    exact inv.above va hva (hnext ▸ hle)
  anon i hi := by
    rw [hold i (hcount ▸ hi)]
    exact inv.anon i (hcount ▸ hi)
  untouched i hi hlazy va hva hin := by
    rw [hold i (hcount ▸ hi)] at hlazy hin
    rw [hroot, hview va hva]
    exact inv.untouched i (hcount ▸ hi) hlazy va hva hin

/-- The new region is placed below the new `NextUserBase`, and contains its range. -/
theorem newRegion_placed {space : MmAddressSpace} {hcount : space.regionCount < mmMaxVaRegions}
    {region : MmVaRegion} (ok : RegionsOk (space.withRegion hcount region)) :
    region.PlacedBelow (region.base + region.size) ∧ ∀ va, region.contains va = true ↔
      region.base.toNat ≤ va.toNat ∧ va.toNat < region.base.toNat + region.size.toNat := by
  have hlast : (space.withRegion hcount region).regions ⟨_, hcount⟩ = region :=
    Function.update_self _ _ _
  have hplaced := ok.placed ⟨_, hcount⟩ (Nat.lt_succ_self _)
  rw [hlast] at hplaced
  exact ⟨hplaced, fun va => hplaced.contains_iff ok.next_le⟩

/-- A call that succeeds maps pages of the new region alone, and none if it is lazy. -/
theorem LazyInv.of_new (inv : LazyInv a m) (hspace : PlainSpace (m.rootFrame a) m')
    (hroot : m'.rootFrame a = m.rootFrame a)
    (hcount : (m.addressSpacePool a).regionCount < mmMaxVaRegions) {region : MmVaRegion}
    (hpool : m'.addressSpacePool a = (m.addressSpacePool a).withRegion hcount region)
    (hregions : RegionsOk ((m.addressSpacePool a).withRegion hcount region))
    (hanon : region.type = mmRegionTypeAnon)
    (hnext : region.base = (m.addressSpacePool a).nextUserBase)
    (hview : ∀ va ∈ userPages, pteView m' (m.rootFrame a) va = pteView m (m.rootFrame a) va ∨
      region.contains va = true ∧ hasFlag region.flags mmRegionFlagLazy = false) :
    LazyInv a m' := by
  have hlast : ((m.addressSpacePool a).withRegion hcount region).regions ⟨_, hcount⟩ = region :=
    Function.update_self _ _ _
  obtain ⟨hplaced, hin⟩ := newRegion_placed hregions
  have hcases : ∀ i : Fin mmMaxVaRegions,
      i.val < ((m.addressSpacePool a).withRegion hcount region).regionCount →
        i = ⟨_, hcount⟩ ∨ i.val < (m.addressSpacePool a).regionCount ∧
          ((m.addressSpacePool a).withRegion hcount region).regions i =
            (m.addressSpacePool a).regions i := by
    intro i hi
    by_cases he : i = ⟨_, hcount⟩
    · exact .inl he
    · refine .inr ⟨?_, Function.update_of_ne he _ _⟩
      have hne : i.val ≠ (m.addressSpacePool a).regionCount := fun h => he (Fin.ext h)
      exact Nat.lt_of_le_of_ne (Nat.lt_succ_iff.1 hi) hne
  constructor
  · rw [hroot]
    exact hspace
  · rw [hpool]
    exact hregions
  · intro va hva hle
    rw [hpool] at hle
    change (region.base + region.size).toNat ≤ va.toNat at hle
    have hstop := hplaced.stop_le
    have hsize := hplaced.size_pos
    rw [hroot]
    rcases hview va hva with hsame | ⟨hcontains, -⟩
    · rw [hsame]
      refine inv.above va hva ?_
      rw [← hnext]
      omega
    · have := (hin va).1 hcontains
      omega
  · intro i hi
    rw [hpool] at hi ⊢
    rcases hcases i hi with rfl | ⟨hi', hsame⟩
    · rw [hlast]
      exact hanon
    · rw [hsame]
      exact inv.anon i hi'
  · intro i hi hlazy va hva hcontains
    rw [hpool] at hi hlazy hcontains
    rw [hroot]
    rcases hcases i hi with rfl | ⟨hi', hsame⟩
    · rw [hlast] at hlazy hcontains
      rcases hview va hva with hsame | ⟨-, hwired⟩
      · rw [hsame]
        refine inv.above va hva ?_
        rw [← hnext]
        exact ((hin va).1 hcontains).1
      · rw [hlazy] at hwired
        cases hwired
    · rw [hsame] at hlazy hcontains
      rcases hview va hva with hsame | ⟨hnew, -⟩
      · rw [hsame]
        exact inv.untouched i hi' hlazy va hva hcontains
      · -- the regions that were there end before the new one
        have hstop := (inv.regions.placed i hi').stop_le
        have hlt := ((inv.regions.contains_iff hi').1 hcontains).2
        have hle := ((hin va).1 hnew).1
        rw [hnext] at hle
        omega

/-- A call keeps the invariant, and what it promises follows. -/
theorem LazyInv.step {c : AnonCall} (inv : LazyInv a m) (hfits : LazyFits a m c)
    (hstep : AnonStep a m c m') : LazyInv a m' ∧ LazyKept a m c m' := by
  have hkept : LazyInv a m' → (∀ base, (c.run a m).2 = .ok base →
      ∃ i : Fin mmMaxVaRegions, i.val < (m'.addressSpacePool a).regionCount ∧
        ((m'.addressSpacePool a).regions i).base = base ∧
        ((m'.addressSpacePool a).regions i).size = mmpAlignSizeToPage c.size ∧
        ((m'.addressSpacePool a).regions i).flags = effectiveFlags c.flags) →
      LazyInv a m' ∧ LazyKept a m c m' := by
    refine fun inv' hnew => ⟨inv', fun i hi hlazy => inv'.lazyRange hi hlazy, ?_⟩
    intro base hbase hlazy va hva
    obtain ⟨i, hi, rfl, hsize, hflags⟩ := hnew base hbase
    rw [← hsize] at hva
    refine (inv'.lazyRange hi ?_).untranslated va hva
    rw [hflags, effectiveFlags_of_lazy hlazy]
    exact hlazy
  cases hstep
  rw [AnonCall.perform] at hkept ⊢
  rw [AnonCall.run] at hkept ⊢
  rcases mmMapAnonymous_cases m a c.size c.protection c.flags with
    ⟨-, e, heq⟩ | ⟨hcount, committed, region, -, hregion, hrest⟩
  · rw [heq] at hkept ⊢
    exact hkept inv fun base hbase => by cases hbase
  have hplace : Placeable (m.addressSpacePool a) c.size.toNat :=
    hfits.fits.resolve_right (Nat.not_le.2 hcount)
  have hbytes : region.size.toNat = mapBytes c.size.toNat := by
    rw [hregion]
    refine mmpAlignSizeToPage_toNat ?_
    rw [Placeable] at hplace
    omega
  have hnext : region.base = (m.addressSpacePool a).nextUserBase := by
    rw [hregion]
    exact mmpAlignUp_of_aligned inv.regions.next_aligned inv.regions.next_le
  have hregions : RegionsOk ((m.addressSpacePool a).withRegion hcount region) :=
    inv.regions.withRegion hcount (by rw [hregion]; rfl) hbytes hplace
  have hpages := fun va (hva : va ∈ anonPages m a c.size c.flags) =>
    mem_anonPages inv.regions hplace hva
  obtain ⟨hspace, hview⟩ := inv.space.mmMapAnonymous rfl
    (fun va hva => ⟨(hpages va hva).1, inv.above va (hpages va hva).1 (hpages va hva).2.1⟩)
    hfits.whole
  rcases hrest with ⟨m₁, e, heq, hpool⟩ | ⟨m₁, heq, hpool⟩
  · rw [heq] at hkept hspace hview ⊢
    refine hkept (inv.of_same hspace ?_ ?_ ?_ (fun i hi => ?_)
      fun va hva => hview va hva (.inr ⟨e, rfl⟩)) fun base hbase => by cases hbase
    · simp only [MmState.rootFrame, hpool, Function.update_self]
    · simp only [hpool, Function.update_self]
    · simp only [hpool, Function.update_self]
    · simp only [hpool, Function.update_self]
      refine Function.update_of_ne ?_ _ _
      rintro rfl
      exact Nat.lt_irrefl _ hi
  · rw [heq] at hkept hspace hview ⊢
    have hpool' : m₁.addressSpacePool a = (m.addressSpacePool a).withRegion hcount region := by
      rw [hpool, Function.update_self]
    refine hkept (inv.of_new hspace ?_ hcount hpool' hregions (by rw [hregion]; rfl) hnext
      fun va hva => ?_) fun base hbase => ⟨⟨_, hcount⟩, ?_⟩
    · simp only [MmState.rootFrame, hpool', MmAddressSpace.withRegion]
    · by_cases hin : va ∈ anonPages m a c.size c.flags
      · have hcontains := (newRegion_placed hregions).2 va
        rw [hnext, hbytes] at hcontains
        refine .inr ⟨hcontains.2 (hpages va hin).2, ?_⟩
        rw [hregion]
        by_contra hlazy
        have hunwired := effectiveFlags_unwired hfits.unwired (Bool.eq_true_of_not_eq_false hlazy)
        rw [hin.1] at hunwired
        cases hunwired
      · exact .inl (hview va hva (.inl hin))
    · cases hbase
      rw [hpool']
      refine ⟨Nat.lt_succ_self _, ?_⟩
      rw [show ((m.addressSpacePool a).withRegion hcount region).regions ⟨_, hcount⟩ = region from
        Function.update_self _ _ _, hregion]
      exact ⟨rfl, rfl, rfl⟩

/-! ## The map of the firmware -/

/-- The walk of the processor from the root of the kernel. -/
def MmState.kernelTranslate (m : MmState) (va : U64) : Option Translation :=
  translateFrom m.mem va 3 ⟨pteFrame m.kernelRootTablePhysical, true, true, false⟩

/-- The root of the kernel is as the firmware leaves it: in the lower half the addresses below `top`
are mapped to themselves, in pages of 2 MiB or 4 KiB, and no other address is mapped. Its tables
form a tree, and none is a free page. -/
structure UefiRoot (m : MmState) (top : ℕ) : Prop where
  tables : TablesOk userPages {pteFrame m.kernelRootTablePhysical} m
  identity : ∀ va : U64, va.toNat < mmUserTop.toNat →
    (m.kernelTranslate va).map Translation.frame =
      if va.toNat < top then some (va.toNat / mmPageSize) else none
  leaves : ∀ va : U64, va.toNat < mmUserTop.toNat → ∀ k ≤ 1, ∀ entry,
    Reads m (pteFrame m.kernelRootTablePhysical) va k entry → isLarge entry = false

/-- A page that is present is mapped by an entry. -/
theorem mapsTo_of_present (h : hasFlag (pteView m root va) mmPtePresent = true) :
    ∃ k entry frame, Reads m root va k entry ∧ MapsTo va k entry frame := by
  rw [pteView] at h
  cases ht : m.tableAt root va 3 with
  | some t =>
    rw [ht] at h
    exact ⟨3, _, _, reads_of_tableAt le_rfl ht, .inl ⟨rfl, h, rfl⟩⟩
  | none =>
    rw [ht] at h
    cases hd : m.tableAt root va 2 with
    | none =>
      rw [hd] at h
      dsimp only at h
      exact absurd h (by decide)
    | some d =>
      rw [hd] at h
      dsimp only at h
      split at h
      next hlarge =>
        exact ⟨2, _, _, reads_of_tableAt (by omega) hd, .inr ⟨.inr rfl, hlarge, rfl⟩⟩
      · exact absurd h (by decide)

/-- Above the firmware's map no entry maps an address. -/
theorem UefiRoot.not_mapsTo {top : ℕ} (h : UefiRoot m top) (htop : top ≤ va.toNat)
    (hva : va.toNat < mmUserTop.toNat) {k frame : ℕ} {entry : U64}
    (hread : Reads m (pteFrame m.kernelRootTablePhysical) va k entry) :
    ¬MapsTo va k entry frame := by
  intro hmaps
  obtain ⟨T, hT⟩ := translateFrom_isSome 3 le_rfl
    (t := ⟨pteFrame m.kernelRootTablePhysical, true, true, false⟩) rfl (Nat.zero_le k) hread hmaps
  have hnone := h.identity va hva
  rw [if_neg (Nat.not_lt.2 htop), MmState.kernelTranslate, hT] at hnone
  cases hnone

/-- An address space is created with nothing mapped in the user range, if the firmware's map ends
below it. -/
theorem UefiRoot.lazyInv {top : ℕ} (h : UefiRoot m top) (htop : top ≤ mmUserBase.toNat)
    {ownerProcessId : U64} (hcreate : mmCreateAddressSpace m ownerProcessId = (m', .ok a)) :
    LazyInv a m' := by
  rw [mmCreateAddressSpace] at hcreate
  split at hcreate
  · cases hcreate
  next hready =>
  split at hcreate
  · cases hcreate
  next b _ =>
  rcases mmAllocPage_cases m with ⟨e, heq⟩ | ⟨q, hpage, hfree, -, heq⟩
  · rw [heq] at hcreate
    cases hcreate
  rw [heq] at hcreate
  dsimp only at hcreate
  rw [pteFrame_pageAddress (lt_of_lt_trackedPages hpage), Prod.mk.injEq, Except.ok.injEq]
    at hcreate
  obtain ⟨hm', rfl⟩ := hcreate
  have hmem : m'.mem =
      Function.update m.mem q (m.mem (pteFrame m.kernelRootTablePhysical)) := by
    rw [← hm']
    rfl
  have hroot : m'.rootFrame b = q := by
    rw [← hm']
    simp only [MmState.rootFrame, MmState.modifyAddressSpace, Function.update_self]
    exact pteFrame_pageAddress (lt_of_lt_trackedPages hpage)
  have hlive : ∀ f, f = q ∨ ¬Free m f → ¬Free m' f := by
    rw [← hm']
    exact fun f hf => not_free_takePage hf
  have hspace : (m'.addressSpacePool b).nextUserBase = mmUserBase ∧
      (m'.addressSpacePool b).regionCount = 0 := by
    rw [← hm']
    simp only [MmState.modifyAddressSpace, Function.update_self, and_self]
  have hready' : m'.ready = true := by
    rw [← hm']
    exact Bool.eq_true_of_not_eq_false hready
  clear hm'
  have hq : ∀ s ∈ ({pteFrame m.kernelRootTablePhysical} : Set ℕ), ∀ p ∈ tablePaths userPages,
      p ≠ [] → follow pteChild m.mem s p ≠ some q := fun s hs p hp _ hsq =>
    h.tables.live q ⟨s, hs, p, hp, hsq⟩ ⟨hpage, hfree⟩
  have hfollow := fun s (hs : s ∈ ({q} : Set ℕ)) p hp t ht =>
    follow_newRoot (Set.mem_singleton _) hmem hq (fun s hs => Or.inl hs) hs (p := p) hp (t := t) ht
  -- the walks from the new root read what the walks from the root of the kernel read
  have hreads : ∀ {va : U64}, va ∈ userPages → ∀ {k : ℕ} {entry : U64}, Reads m' q va k entry →
      Reads m (pteFrame m.kernelRootTablePhysical) va k entry := by
    rintro va hva k _ ⟨hk, t, ht, rfl⟩
    by_cases hk0 : k = 0
    · subst hk0
      obtain rfl : q = t := Option.some.inj ht
      refine ⟨Nat.zero_le 3, _, rfl, ?_⟩
      rw [hmem, Function.update_self]
    · rcases hfollow q rfl _ (vaPath_mem hva hk) t ht with ⟨hnil, -⟩ | ⟨hne, r, rfl, hold⟩
      · exact absurd ((length_vaPath va k).symm.trans (congrArg List.length hnil)) hk0
      · exact ⟨hk, t, hold, by rw [hmem, Function.update_of_ne hne]⟩
  have hnot : ∀ {va : U64}, va ∈ userPages → ∀ {k frame : ℕ} {entry : U64}, Reads m' q va k entry →
      ¬MapsTo va k entry frame := fun hva _ _ _ hread =>
    h.not_mapsTo (htop.trans hva.2.1) hva.2.2 (hreads hva hread)
  have habsent : ∀ va ∈ userPages, hasFlag (pteView m' q va) mmPtePresent = false := by
    intro va hva
    by_contra hpresent
    obtain ⟨k, entry, frame, hread, hmaps⟩ :=
      mapsTo_of_present (Bool.eq_true_of_not_eq_false hpresent)
    exact hnot hva hread hmaps
  have hplain : PlainTables q m' := by
    intro va hva k hk entry hread
    by_cases hlast : k = 2
    · by_contra hlarge
      exact hnot hva hread (.inr ⟨.inr hlast, Bool.eq_true_of_not_eq_false hlarge, rfl⟩)
    · exact h.leaves va hva.2.2 k (by omega) entry (hreads hva hread)
  have htables : TablesOk userPages {q} m' := by
    refine ⟨h.tables.tree.of_follow hfollow, ?_⟩
    rintro f ⟨s, hs, p, hp, hf⟩
    rcases hfollow s hs p hp f hf with ⟨-, rfl⟩ | ⟨-, r, hr, hbefore⟩
    · exact hlive f (.inl rfl)
    · exact hlive f (.inr (h.tables.live f ⟨r, hr, p, hp, hbefore⟩))
  refine ⟨?_, ?_, ?_, ?_, ?_⟩
  · rw [hroot]
    refine ⟨hready', htables, hplain, fun va hva hpresent => ?_⟩
    rw [habsent va hva] at hpresent
    cases hpresent
  · exact Fresh.regionsOk (s := (⟨.zero, m'⟩ : MmSystem MmState)) ⟨hspace.2, hspace.1⟩
  · rw [hroot]
    exact fun va hva _ => habsent va hva
  · intro i hi
    rw [hspace.2] at hi
    exact absurd hi (Nat.not_lt_zero _)
  · intro i hi
    rw [hspace.2] at hi
    exact absurd hi (Nat.not_lt_zero _)

/-- **Lazy ranges are unmapped until their first fault**: in an address space created where the
firmware's map ends below the user range, every run of `MmMapAnonymous` keeps the lazy regions free
of translations, if its requests fit, are wired wholly or not at all, and are not both lazy and
wired. -/
theorem lazy_ranges (m₀ m : MmState) (top : ℕ) (ownerProcessId : U64) (a : AddressSpaceRef)
    (huefi : UefiRoot m₀ top) (htop : top ≤ mmUserBase.toNat)
    (hcreate : mmCreateAddressSpace m₀ ownerProcessId = (m, .ok a)) (calls : List AnonCall)
    (hfits : Always (AnonStep a) (fun m c _ => LazyFits a m c) m calls) :
    Always (AnonStep a) (LazyKept a) m calls :=
  hfits.imp (I := LazyInv a) (fun _ _ _ inv hc hstep => (inv.step hc hstep).1)
    (fun _ _ _ inv hstep hc => (inv.step hc hstep).2) (huefi.lazyInv htop hcreate)

/-! ## Two machines -/

/-- The firmware's tables for the first `n` pages of 2 MiB, with the root in frame 16. -/
def uefiTables (n : ℕ) : ℕ → TableIx → U64 := fun f i =>
  if f = 16 then if i = 0 then 0x11003 else 0
  else if f = 17 then if i * 512 < n then BitVec.ofNat 64 ((18 + i) * 4096 + 3) else 0
  else if f = 18 ∨ f = 19 then
    if (f - 18) * 512 + i < n then BitVec.ofNat 64 (((f - 18) * 512 + i) * 0x200000 + 0x83) else 0
  else 0

/-- The small machine, with firmware that maps the first `n` pages of 2 MiB. -/
def uefiMachine (n : ℕ) : MmState :=
  (mmInitialize { MmState.zero with mem := uefiTables n, cr3 := 0x10000 } (some sampleBootInfo)
    sampleMap 0x110000 sampleOb.2).1

/-- The root of the kernel is a copy of the firmware's, whose other tables are in place. -/
def ClonedTables (n : ℕ) (m : MmState) : Prop :=
  m.kernelRootTablePhysical = 0x100000 ∧
    (∀ i : TableIx, i.val < 256 → m.mem 0x100 i = uefiTables n 16 i) ∧
    (∀ i : TableIx, m.mem 17 i = uefiTables n 17 i ∧ m.mem 18 i = uefiTables n 18 i ∧
      m.mem 19 i = uefiTables n 19 i) ∧
    ∀ f ∈ [0x100, 17, 18, 19], m.trackedPages ≤ f ∨ mmpIsPageAllocated m f = true

instance (n : ℕ) (m : MmState) : Decidable (ClonedTables n m) :=
  inferInstanceAs (Decidable (_ ∧ _))

theorem largeEntry_facts : ∀ j : Fin 1024,
    isLarge (BitVec.ofNat 64 (j.val * 0x200000 + 0x83)) = true ∧
      pteFrame (BitVec.ofNat 64 (j.val * 0x200000 + 0x83)) = j.val * 512 := by decide +kernel

/-- The entries of the tables for large pages. -/
theorem ClonedTables.entry {n : ℕ} (h : ClonedTables n m) (hn : n ≤ 1024) {i : ℕ}
    (hi : i * 512 < n) (j : TableIx) :
    m.mem (18 + i) j =
      if i * 512 + j < n then BitVec.ofNat 64 ((i * 512 + j) * 0x200000 + 0x83) else 0 := by
  obtain ⟨-, -, htables, -⟩ := h
  have hcases : i = 0 ∨ i = 1 := by omega
  rcases hcases with rfl | rfl
  · exact (htables j).2.1
  · exact (htables j).2.2

/-- The tables on the walk for an address of the lower half. -/
theorem ClonedTables.tableAt {n : ℕ} (h : ClonedTables n m) (hn : n ≤ 1024)
    (hva : va.toNat < mmUserTop.toNat) {k f : ℕ} (hk : k ≤ 3) (hf : m.tableAt 0x100 va k = some f) :
    (k = 0 ∧ f = 0x100) ∨ (k = 1 ∧ tableIndex va 0 = 0 ∧ f = 17) ∨
      (k = 2 ∧ tableIndex va 0 = 0 ∧ (tableIndex va 1).val * 512 < n ∧
        f = 18 + (tableIndex va 1).val) := by
  have hlarge := fun i hi j => h.entry hn (i := i) hi j
  obtain ⟨-, hroot, htables, -⟩ := h
  have htop : mmUserTop.toNat = 0x800000000000 := by decide
  have h0 := tableIndex_val va 0
  norm_num at h0
  have hzero : m.tableAt 0x100 va 0 = some 0x100 := rfl
  have hentry := hroot (tableIndex va 0) (by omega)
  have hone : m.tableAt 0x100 va 1 = if tableIndex va 0 = 0 then some 17 else none := by
    rw [tableAt_succ, hzero, Option.bind_some, hentry, uefiTables, if_pos rfl]
    split <;> decide
  have htwo : m.tableAt 0x100 va 2 = if tableIndex va 0 = 0 ∧ (tableIndex va 1).val * 512 < n then
      some (18 + (tableIndex va 1).val) else none := by
    rw [tableAt_succ, hone]
    by_cases hi : tableIndex va 0 = 0
    · rw [if_pos hi, Option.bind_some, (htables _).1, uefiTables, if_neg (by decide), if_pos rfl]
      by_cases hlt : (tableIndex va 1).val * 512 < n
      · rw [if_pos hlt, if_pos ⟨hi, hlt⟩]
        have hcases : (tableIndex va 1).val = 0 ∨ (tableIndex va 1).val = 1 := by omega
        rcases hcases with hv | hv <;> rw [hv] <;> decide
      · rw [if_neg hlt, if_neg fun h => hlt h.2, pteChild_zero]
    · rw [if_neg hi, if_neg fun h => hi h.1, Option.bind_none]
  have hlast : ∀ u, m.tableAt 0x100 va 2 = some u → pteChild (m.mem u (tableIndex va 2)) = none := by
    intro u hu
    rw [htwo] at hu
    split at hu
    next hi =>
      cases hu
      rw [hlarge _ hi.2]
      split
      next hlt => exact pteChild_of_isLarge (largeEntry_facts ⟨_, by omega⟩).1
      · exact pteChild_zero
    · cases hu
  have hcases : k = 0 ∨ k = 1 ∨ k = 2 ∨ k = 3 := by omega
  rcases hcases with rfl | rfl | rfl | rfl
  · exact .inl ⟨rfl, (Option.some.inj hf).symm⟩
  · rw [hone] at hf
    split at hf
    next hi => exact .inr (.inl ⟨rfl, hi, (Option.some.inj hf).symm⟩)
    · cases hf
  · rw [htwo] at hf
    split at hf
    next hi => exact .inr (.inr ⟨rfl, hi.1, hi.2, (Option.some.inj hf).symm⟩)
    · cases hf
  · obtain ⟨u, hu, hchild⟩ := Option.bind_eq_some_iff.1 ((tableAt_succ ..).symm.trans hf)
    rw [hlast u hu] at hchild
    cases hchild

/-- What the firmware's tables make of the root of the kernel. -/
theorem ClonedTables.uefiRoot {n : ℕ} (h : ClonedTables n m) (hn : n ≤ 1024) :
    UefiRoot m (n * 0x200000) := by
  have htop : mmUserTop.toNat = 0x800000000000 := by decide
  have hK : pteFrame m.kernelRootTablePhysical = 0x100 := by
    rw [h.1]
    decide
  have hpage : mmPageSize = 4096 := rfl
  have hleaves : ∀ va : U64, va.toNat < mmUserTop.toNat → ∀ k ≤ 1, ∀ entry,
      Reads m 0x100 va k entry → isLarge entry = false := by
    rintro va hva k hk _ ⟨-, t, ht, rfl⟩
    rcases h.tableAt hn hva (by omega) ht with ⟨rfl, rfl⟩ | ⟨rfl, -, rfl⟩ | ⟨rfl, -⟩
    · have h0 := tableIndex_val va 0
      norm_num at h0
      rw [h.2.1 (tableIndex va 0) (by omega), uefiTables, if_pos rfl]
      split <;> decide
    · rw [(h.2.2.1 _).1, uefiTables, if_neg (by decide), if_pos rfl]
      split
      next hlt =>
        have hcases : (tableIndex va 1).val = 0 ∨ (tableIndex va 1).val = 1 := by omega
        rcases hcases with hv | hv <;> rw [hv] <;> decide
      · decide
    · omega
  refine ⟨?_, fun va hva => ?_, by rw [hK]; exact hleaves⟩
  · rw [hK]
    have hpath : ∀ p ∈ tablePaths userPages, ∀ f, follow pteChild m.mem 0x100 p = some f →
        (p = [] ∧ f = 0x100) ∨ (p = [0] ∧ f = 17) ∨ ∃ i : TableIx, p = [0, i] ∧ i.val * 512 < n ∧
          f = 18 + i.val := by
      rintro p ⟨va, hva, k, hk, rfl⟩ f hf
      rcases h.tableAt hn hva.2.2 hk hf with ⟨rfl, rfl⟩ | ⟨rfl, hi, rfl⟩ | ⟨rfl, hi, hlt, rfl⟩
      · exact .inl ⟨rfl, rfl⟩
      · exact .inr (.inl ⟨by rw [vaPath, vaPath, hi]; rfl, rfl⟩)
      · exact .inr (.inr ⟨tableIndex va 1, by rw [vaPath, vaPath, vaPath, hi]; rfl, hlt, rfl⟩)
    constructor
    · rintro r rfl r' rfl p hp p' hp' f hf hf'
      rcases hpath p hp f hf with ⟨rfl, rfl⟩ | ⟨rfl, rfl⟩ | ⟨i, rfl, hi, rfl⟩ <;>
        rcases hpath p' hp' _ hf' with ⟨rfl, h'⟩ | ⟨rfl, h'⟩ | ⟨i', rfl, hi', h'⟩
      all_goals first | rfl | omega | skip
      rw [Fin.ext (show i.val = i'.val by omega)]
    · rintro f ⟨r, rfl, p, hp, hf⟩ hfree
      have hlive := h.2.2.2 f ?_
      · rcases hlive with hlt | halloc
        · exact absurd hfree.1 (Nat.not_lt.2 hlt)
        · rw [hfree.2] at halloc
          cases halloc
      · rcases hpath p hp f hf with ⟨-, rfl⟩ | ⟨-, rfl⟩ | ⟨i, -, hi, rfl⟩
        · decide
        · decide
        · have hcases : i.val = 0 ∨ i.val = 1 := by omega
          rcases hcases with hv | hv <;> rw [hv] <;> decide
  · rw [MmState.kernelTranslate, hK]
    have h0 := tableIndex_val va 0
    have h1 := tableIndex_val va 1
    have h2 := tableIndex_val va 2
    norm_num at h0 h1 h2
    by_cases hlt : va.toNat < n * 0x200000
    · -- the address lies in a large page
      have hi : tableIndex va 0 = 0 := Fin.ext (show (tableIndex va 0).val = 0 by omega)
      have hdir : (tableIndex va 1).val * 512 < n := by omega
      have hlarge : (tableIndex va 1).val * 512 + (tableIndex va 2).val < n := by
        have hdiv : va.toNat / 2097152 < n := by omega
        have hhigh : va.toNat / 1073741824 < 512 := by omega
        clear hi hleaves hK
        rw [h1, h2, Nat.mod_eq_of_lt hhigh]
        clear h0 h1 h2 hdir
        omega
      obtain ⟨hl, hframe⟩ :=
        largeEntry_facts ⟨(tableIndex va 1).val * 512 + (tableIndex va 2).val, hlarge.trans_le hn⟩
      have hzero : m.tableAt 0x100 va 0 = some 0x100 := rfl
      have htwo : m.tableAt 0x100 va 2 = some (18 + (tableIndex va 1).val) := by
        have hcases : (tableIndex va 1).val = 0 ∨ (tableIndex va 1).val = 1 := by omega
        rw [tableAt_succ, tableAt_succ, hzero, Option.bind_some, h.2.1 _ (by rw [hi]; decide), hi,
          show uefiTables n 16 0 = 0x11003 from rfl,
          show pteChild 0x11003 = some 17 by decide, Option.bind_some, (h.2.2.1 _).1,
          uefiTables, if_neg (by decide), if_pos rfl, if_pos hdir]
        rcases hcases with hv | hv <;> rw [hv] <;> decide
      have hread : Reads m 0x100 va 2 (BitVec.ofNat 64
          (((tableIndex va 1).val * 512 + (tableIndex va 2).val) * 0x200000 + 0x83)) := by
        refine ⟨by omega, _, htwo, ?_⟩
        rw [h.entry hn hdir, if_pos hlarge]
      have hmaps := fun frame (h : frame = _) =>
        (.inr ⟨.inr rfl, hl, h⟩ : MapsTo va 2 _ frame)
      obtain ⟨T, hT⟩ := translateFrom_isSome 3 le_rfl (t := ⟨0x100, true, true, false⟩) rfl
        (Nat.zero_le 2) hread (hmaps _ rfl)
      obtain ⟨⟨k, entry, hread', hmaps'⟩, -⟩ := translateFrom_spec 3 le_rfl rfl hT
      have hsame := hmaps'.unique (hmaps _ rfl) hread' hread
      rw [hT, if_pos hlt, Option.map_some, hsame, largeFrame, hframe, hpage]
      dsimp only
      congr 1
      omega
    · rw [if_neg hlt]
      cases hT : translateFrom m.mem va 3 ⟨0x100, true, true, false⟩ with
      | none => rfl
      | some T =>
        obtain ⟨⟨k, entry, hread, hmaps⟩, -⟩ := translateFrom_spec 3 le_rfl rfl hT
        exfalso
        have hk : 2 ≤ k := by
          by_contra hk
          have hnot := hleaves va hva k (by omega) entry hread
          rcases hmaps with ⟨rfl, -⟩ | ⟨-, hl, -⟩
          · omega
          · rw [hl] at hnot
            cases hnot
        obtain ⟨hk3, t, ht, rfl⟩ := hread
        rcases h.tableAt hn hva hk3 ht with ⟨rfl, -⟩ | ⟨rfl, -⟩ | ⟨rfl, hi, hdir, rfl⟩
        · omega
        · omega
        rcases hmaps with ⟨hk3, -⟩ | ⟨-, hl, -⟩
        · omega
        rw [h.entry hn hdir] at hl
        split at hl
        next hn' =>
          rw [hi] at h0
          have hz : ((0 : TableIx) : ℕ) = 0 := rfl
          omega
        · cases hl

theorem uefiMachine_tables :
    ClonedTables 1 (uefiMachine 1) ∧ ClonedTables 513 (uefiMachine 513) := by decide +kernel

/-- The machine whose firmware maps 2 MiB, with an address space. -/
def lazySpace : MmState := (mmCreateAddressSpace (uefiMachine 1) 1).1

/-- Two requests on a machine whose firmware maps 2 MiB: a lazy range, and a wired one behind it. -/
theorem lazy_ranges_small : Always (AnonStep 0) (LazyKept 0) lazySpace
    [⟨0x3000, 3, 1⟩, ⟨0x1000, 3, 2⟩] := by
  have hcreate : mmCreateAddressSpace (uefiMachine 1) 1 = (lazySpace, .ok 0) := by
    have hok : (mmCreateAddressSpace (uefiMachine 1) 1).2 = .ok 0 := by decide +kernel
    rw [← hok, lazySpace]
  refine lazy_ranges (uefiMachine 1) _ (1 * 0x200000) 1 0 (uefiMachine_tables.1.uefiRoot (by decide))
    (by decide) hcreate _ ?_
  intro s₁ hs₁
  rw [AnonStep] at hs₁
  rw [hs₁]
  refine ⟨⟨.inl ?_, fun h => absurd h (by decide), fun _ => by decide⟩, ?_⟩
  · show _ ≤ _
    decide +kernel
  intro s₂ hs₂
  rw [AnonStep] at hs₂
  rw [hs₂]
  refine ⟨⟨.inl (show _ ≤ _ by decide +kernel), fun _ h => .inl ?_, fun h => absurd h (by decide)⟩,
    trivial⟩
  revert h
  decide +kernel

/-- With 2 MiB more than the 1 GiB below the user range, the first lazy range is mapped already: the
address space inherits the firmware's translation, and an access writes to the memory there. -/
theorem inherited_translation : UefiRoot (uefiMachine 513) (513 * 0x200000) ∧
    ∃ m, mmCreateAddressSpace (uefiMachine 513) 1 = (m, .ok 0) ∧
      ¬Always (AnonStep 0) (LazyKept 0) m [⟨0x1000, 3, 1⟩] := by
  have hok : (mmCreateAddressSpace (uefiMachine 513) 1).2 = .ok 0 := by decide +kernel
  refine ⟨uefiMachine_tables.2.uefiRoot (by decide), _, by rw [← hok], fun h => ?_⟩
  have hlast := (h _ rfl).1.returned 0x40000000 (by decide +kernel) (by decide) 0x40000000
    ⟨le_rfl, by decide +kernel⟩
  revert hlast
  decide +kernel

end NtxKernel.Mm
