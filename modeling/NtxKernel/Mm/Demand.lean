import Mathlib.Data.Set.Card
import Mathlib.Data.Set.Finite.List
import NtxKernel.Mm.Lazy
import NtxKernel.Mm.NextFit

/-!
# What a walk needs

`MmpWalkToPte` adds the tables that are missing on its way, a page each, and refuses large entries
above the last directory.

* `missingTables` are the tables that the walks for some pages would have to add, and `Spent` says
  that pages went to missing tables, and how many more were taken.
* `Passable` walks meet no large entry that is refused. Walks and new pages change nothing about
  that: `SameLarge`.
* `mmpWalkTables_demand`: a walk comes to its end, or it is not passable, or there are fewer pages
  than missing tables.
-/

namespace NtxKernel.Mm

open Foundations

variable {m m' m'' : MmState} {root : ℕ} {pages : Set U64} {va va' : U64} {a : AddressSpaceRef}

/-! ## Tables that are missing -/

/-- The tables that the walks for some pages would have to add. -/
def missingTables (root : ℕ) (pages : Set U64) (m : MmState) : Set (List TableIx) :=
  {p | p ∈ tablePaths pages ∧ follow pteChild m.mem root p = none}

theorem missingTables_finite : (missingTables root pages m).Finite :=
  (List.finite_length_le TableIx 3).subset fun _ hp => length_le_of_mem hp.1

/-- Pages of memory were used for tables that were missing, and `k` more. -/
def Spent (root : ℕ) (pages : Set U64) (k : ℕ) (m m' : MmState) : Prop :=
  freePages m' + k + (missingTables root pages m).ncard =
    freePages m + (missingTables root pages m').ncard

theorem Spent.refl (m : MmState) : Spent root pages 0 m m := rfl

theorem Spent.trans {k l : ℕ} (h : Spent root pages k m m') (h' : Spent root pages l m' m'') :
    Spent root pages (k + l) m m'' := by
  rw [Spent] at h h' ⊢
  omega

/-- What sufficed for the tables and for `k` pages more still suffices for the tables. -/
theorem Spent.enough {k l : ℕ} (h : Spent root pages k m m')
    (henough : l + k + (missingTables root pages m).ncard ≤ freePages m) :
    l + (missingTables root pages m').ncard ≤ freePages m' := by
  rw [Spent] at h
  omega

/-- Nothing is spent when the tables and the free pages are the same. -/
theorem Spent.of_same (hfree : freePages m' = freePages m)
    (hfollow : ∀ p ∈ tablePaths pages,
      follow pteChild m'.mem root p = follow pteChild m.mem root p) :
    Spent root pages 0 m m' := by
  have hsame : missingTables root pages m' = missingTables root pages m :=
    Set.ext fun p => and_congr_right fun hp => by rw [hfollow p hp]
  rw [Spent, hsame, hfree]
  rfl

theorem tablePaths_mono {A B : Set U64} (h : A ⊆ B) : tablePaths A ⊆ tablePaths B := by
  rintro p ⟨va, hva, n, hn, rfl⟩
  exact ⟨va, h hva, n, hn, rfl⟩

/-- The tables that a walk leads to are old ones or pages that it took. -/
theorem follow_of_walked {A : Set U64} (h : Walked A {root} m m') {p : List TableIx}
    (hp : p ∈ tablePaths A) {t : ℕ} (ht : follow pteChild m'.mem root p = some t)
    (hold : ¬Free m t) : follow pteChild m.mem root p = some t := by
  have htable : IsTable A {root} m' t := ⟨root, rfl, p, hp, ht⟩
  rcases h.reached t htable with ⟨r, rfl, p', hp', ht'⟩ | hfree
  · have hkept := h.follow r rfl p' hp' t ht'
    rw [h.tables.tree r rfl r rfl p hp p' hp' t ht hkept]
    exact ht'
  · exact absurd hfree hold

/-- Adding the table of one level uses a page. -/
theorem Spent.level (hpages : pages ⊆ userPages) (hw : Walked userPages {root} m m')
    (hva : va ∈ pages) {n q : ℕ} (hn : n ≤ 2) (habsent : m.tableAt root va (n + 1) = none)
    (hq : m'.tableAt root va (n + 1) = some q) (htaken : ∀ f, Free m f → ¬Free m' f → f = q)
    (hfree : freePages m' + 1 = freePages m) : Spent root pages 0 m m' := by
  have hmem : vaPath va (n + 1) ∈ missingTables root pages m := ⟨vaPath_mem hva (by omega), habsent⟩
  have hsame : missingTables root pages m' = missingTables root pages m \ {vaPath va (n + 1)} := by
    ext p
    constructor
    · rintro ⟨hp, hnone⟩
      refine ⟨⟨hp, ?_⟩, ?_⟩
      · by_contra hsome
        obtain ⟨t, ht⟩ := Option.ne_none_iff_exists'.1 hsome
        rw [hw.follow root rfl p (tablePaths_mono hpages hp) t ht] at hnone
        cases hnone
      · rintro rfl
        cases hnone.symm.trans hq
    · rintro ⟨⟨hp, hnone⟩, hne⟩
      refine ⟨hp, ?_⟩
      by_contra hsome
      obtain ⟨t, ht⟩ := Option.ne_none_iff_exists'.1 hsome
      have hp' := tablePaths_mono hpages hp
      by_cases hold : Free m t
      · -- the table is the page that was taken, so the path is that of the walk
        have hlive := hw.tables.live t ⟨root, rfl, p, hp', ht⟩
        obtain rfl := htaken t hold hlive
        exact hne (hw.tables.tree root rfl root rfl p hp' _
          (vaPath_mem (hpages hva) (by omega)) t ht hq)
      · cases (follow_of_walked hw hp' ht hold).symm.trans hnone
  have hcard := Set.ncard_sdiff_singleton_add_one hmem missingTables_finite
  rw [Spent, hsame]
  omega

/-! ## Large entries above the last directory -/

/-- The walk for the page meets no large entry that it would refuse. -/
def Passable (root : ℕ) (va : U64) (m : MmState) : Prop :=
  ∀ k ≤ 1, ∀ entry, Reads m root va k entry → isLarge entry = false

/-- A table of the last two levels. -/
def LowTable (root : ℕ) (m : MmState) (f : ℕ) : Prop :=
  ∃ va ∈ userPages, ∃ k, 2 ≤ k ∧ k ≤ 3 ∧ m.tableAt root va k = some f

/-- But for the tables of the last two levels, the large entries are the same. -/
structure SameLarge (root : ℕ) (m m' : MmState) : Prop where
  back : ∀ f i, isLarge (m'.mem f i) = true →
    (isLarge (m.mem f i) = true ∧ (Free m f → Free m' f)) ∨ LowTable root m' f
  forth : ∀ f i, isLarge (m.mem f i) = true → ¬Free m f →
    isLarge (m'.mem f i) = true ∨ LowTable root m' f

/-- A table of the first two levels is none of the last two. -/
theorem not_lowTable (ok : TablesOk userPages {root} m) (hva : va ∈ userPages) {k t : ℕ} (hk : k ≤ 1)
    (ht : m.tableAt root va k = some t) : ¬LowTable root m t := by
  rintro ⟨va', hva', k', hk', hle, ht'⟩
  have hpath := ok.tree root rfl root rfl _ (vaPath_mem hva (by omega : k ≤ 3)) _
    (vaPath_mem hva' hle) t ht ht'
  have hlength := congrArg List.length hpath
  rw [length_vaPath, length_vaPath] at hlength
  omega

/-- The same walks are passable. -/
theorem SameLarge.passable_iff (h : SameLarge root m m') (ok : TablesOk userPages {root} m')
    (hlive : ∀ f, IsTable userPages {root} m f → ¬Free m f)
    (hfollow : ∀ p ∈ tablePaths userPages, ∀ t, follow pteChild m.mem root p = some t →
      follow pteChild m'.mem root p = some t)
    (hreached : ∀ f, IsTable userPages {root} m' f → IsTable userPages {root} m f ∨ Free m f)
    (hva : va ∈ userPages) : Passable root va m' ↔ Passable root va m := by
  constructor
  · rintro hplain k hk _ ⟨-, t, ht, rfl⟩
    by_contra hentry
    have ht' := hfollow _ (vaPath_mem hva (by omega : k ≤ 3)) t ht
    rcases h.forth t _ (Bool.eq_true_of_not_eq_false hentry)
      (hlive t ⟨root, rfl, _, vaPath_mem hva (by omega), ht⟩) with hlarge | hlow
    · rw [hplain k hk _ (reads_of_tableAt (by omega) ht')] at hlarge
      cases hlarge
    · exact not_lowTable ok hva hk ht' hlow
  · rintro hplain k hk _ ⟨-, t, ht, rfl⟩
    by_contra hentry
    rcases h.back t _ (Bool.eq_true_of_not_eq_false hentry) with ⟨hlarge, hfree⟩ | hlow
    · have htable : IsTable userPages {root} m' t := ⟨root, rfl, _, vaPath_mem hva (by omega), ht⟩
      rcases hreached t htable with ⟨r, rfl, p, hp, hold⟩ | hf
      · have hpath : p = vaPath va k :=
          ok.tree r rfl r rfl p hp _ (vaPath_mem hva (by omega)) t (hfollow p hp t hold) ht
        rw [hpath] at hold
        rw [hplain k hk _ (reads_of_tableAt (by omega) hold)] at hlarge
        cases hlarge
      · exact ok.live t htable (hfree hf)
    · exact not_lowTable ok hva hk ht hlow

/-- The walks that are passable stay so, and no others become so. -/
def SamePassable (root : ℕ) (m m' : MmState) : Prop :=
  ∀ va ∈ userPages, Passable root va m' ↔ Passable root va m

theorem SamePassable.trans (h : SamePassable root m m') (h' : SamePassable root m' m'') :
    SamePassable root m m'' := fun va hva => (h' va hva).trans (h va hva)

theorem SameLarge.samePassable (h : SameLarge root m m') (ok : TablesOk userPages {root} m)
    (hw : Walked userPages {root} m m') : SamePassable root m m' := fun _ hva =>
  h.passable_iff hw.tables ok.live (hw.follow root rfl) hw.reached hva

/-- A page that is taken and emptied has no large entry. -/
theorem SameLarge.takePage (root : ℕ) {q : ℕ} (hq : Free m q) :
    SameLarge root m ((m.takePage q 1).fillFrame q fun _ => 0) where
  back f i hlarge := .inl (FewerLarge.takePage m q f i hlarge)
  forth f i hlarge hf := by
    have hne : f ≠ q := by
      rintro rfl
      exact hf hq
    rw [mem_fillFrame_of_ne _ _ hne]
    exact .inl hlarge

/-- A write to an entry that is not large, of one that is not large. -/
theorem SameLarge.writeEntry (root : ℕ) {u : ℕ} {i : TableIx} {entry : U64}
    (h : isLarge entry = isLarge (m.mem u i)) : SameLarge root m (m.writeEntry u i entry) where
  back f j hlarge := by
    refine .inl ⟨?_, fun hf => hf⟩
    by_cases hslot : f = u ∧ j = i
    · obtain ⟨rfl, rfl⟩ := hslot
      rw [mem_writeEntry_self] at hlarge
      rw [← h]
      exact hlarge
    · rwa [mem_writeEntry_of_ne _ _ (not_and_or.1 hslot)] at hlarge
  forth f j hlarge _ := by
    refine .inl ?_
    by_cases hslot : f = u ∧ j = i
    · obtain ⟨rfl, rfl⟩ := hslot
      rw [mem_writeEntry_self, h]
      exact hlarge
    · rwa [mem_writeEntry_of_ne _ _ (not_and_or.1 hslot)]

theorem SameLarge.trans (h : SameLarge root m m') (h' : SameLarge root m' m'')
    (hlow : ∀ f, LowTable root m' f → LowTable root m'' f) (hlive : ∀ f, ¬Free m f → ¬Free m' f) :
    SameLarge root m m'' where
  back f i hlarge := by
    rcases h'.back f i hlarge with ⟨hlarge', hfree'⟩ | hl
    · rcases h.back f i hlarge' with ⟨hlarge'', hfree⟩ | hl
      · exact .inl ⟨hlarge'', fun hf => hfree' (hfree hf)⟩
      · exact .inr (hlow f hl)
    · exact .inr hl
  forth f i hlarge hf := by
    rcases h.forth f i hlarge hf with hlarge' | hl
    · exact h'.forth f i hlarge' (hlive f hf)
    · exact .inr (hlow f hl)

/-! ## The walk -/

/-- How a walk ends: with a page for each table that was missing, or where it is not passable, or
where there are fewer pages than tables are missing. -/
def Demand {α : Type} (root : ℕ) (pages : Set U64) (va : U64) (m : MmState)
    (r : MmState × Except KStatus α) : Prop :=
  ((∃ t, r.2 = .ok t) ∧ SamePassable root m r.1 ∧ Spent root pages 0 m r.1) ∨
    (∃ e, r.2 = .error e) ∧
      (¬Passable root va m ∨ freePages m < (missingTables root pages m).ncard)

/-- A missing table and no page for it. -/
theorem freePages_lt_missing (hready : m.ready = true) (hno : ¬CanAlloc m) {p : List TableIx}
    (hp : p ∈ missingTables root pages m) : freePages m < (missingTables root pages m).ncard := by
  have hzero : ¬0 < freePages m := fun hpos => hno ⟨hready, freePages_pos_iff.1 hpos⟩
  have hmissing : 0 < (missingTables root pages m).ncard :=
    (Set.ncard_pos missingTables_finite).2 ⟨_, hp⟩
  omega

/-- A page that is taken for a table. -/
theorem SameLarge.newTable (ok : TablesOk userPages {root} m) (hva : va ∈ userPages) {n u q : ℕ}
    (hn : n ≤ 2) (hu : m.tableAt root va n = some u) (hq : Free m q) {table : TableIx → U64}
    {entry : U64} (hw : Walked userPages {root} m
      (((m.takePage q 1).fillFrame q table).writeEntry u (tableIndex va n) entry))
    (hnext : (((m.takePage q 1).fillFrame q table).writeEntry u (tableIndex va n) entry).tableAt
      root va (n + 1) = some q)
    (hentry : n = 2 ∨ (isLarge (m.mem u (tableIndex va n)) = false ∧ isLarge entry = false ∧
      ∀ i, isLarge (table i) = false)) :
    SameLarge root m
      (((m.takePage q 1).fillFrame q table).writeEntry u (tableIndex va n) entry) := by
  have hlive : ¬Free m u := ok.live u ⟨root, rfl, _, vaPath_mem hva (by omega), hu⟩
  have hne : u ≠ q := by
    rintro rfl
    exact hlive hq
  have hu' := hw.follow root rfl _ (vaPath_mem hva (by omega : n ≤ 3)) u hu
  -- what is written at the last directory are tables of the last two levels
  have hlow : n = 2 → ∀ f, f = u ∨ f = q → LowTable root
      (((m.takePage q 1).fillFrame q table).writeEntry u (tableIndex va n) entry) f := by
    rintro rfl f (rfl | rfl)
    · exact ⟨va, hva, 2, le_rfl, by omega, hu'⟩
    · exact ⟨va, hva, 3, by omega, le_rfl, hnext⟩
  have hmem : ∀ f i, ¬(f = u ∧ i = tableIndex va n) → f ≠ q →
      (((m.takePage q 1).fillFrame q table).writeEntry u (tableIndex va n) entry).mem f i =
        m.mem f i := by
    intro f i hslot hf
    rw [mem_writeEntry_of_ne _ _ (not_and_or.1 hslot), mem_fillFrame_of_ne _ _ hf,
      MmState.mem_takePage]
  constructor
  · intro f i hlarge
    by_cases hf : f = q
    · subst hf
      rcases hentry with h2 | ⟨-, -, htable⟩
      · exact .inr (hlow h2 _ (.inr rfl))
      · rw [mem_writeEntry_of_ne _ _ (.inl hne.symm), mem_fillFrame_self, htable] at hlarge
        cases hlarge
    by_cases hslot : f = u ∧ i = tableIndex va n
    · obtain ⟨rfl, rfl⟩ := hslot
      rcases hentry with h2 | ⟨-, hsmall, -⟩
      · exact .inr (hlow h2 _ (.inl rfl))
      · rw [mem_writeEntry_self, hsmall] at hlarge
        cases hlarge
    rw [hmem f i hslot hf] at hlarge
    refine .inl ⟨hlarge, fun hfree => ⟨hfree.1, ?_⟩⟩
    show mmpIsPageAllocated (m.takePage q 1) f = false
    rw [MmState.allocated_takePage, decide_eq_false hf, hfree.2]
    rfl
  · intro f i hlarge hfree
    have hf : f ≠ q := by
      rintro rfl
      exact hfree hq
    by_cases hslot : f = u ∧ i = tableIndex va n
    · obtain ⟨rfl, rfl⟩ := hslot
      rcases hentry with h2 | ⟨hsmall, -, -⟩
      · exact .inr (hlow h2 _ (.inl rfl))
      · rw [hsmall] at hlarge
        cases hlarge
    · rw [hmem f i hslot hf]
      exact .inl hlarge

/-- A table that was missing is added. -/
theorem Spent.newTable (hpages : pages ⊆ userPages) (hva : va ∈ pages) {n u q : ℕ} (hn : n ≤ 2)
    (hq : Free m q) {table : TableIx → U64} {entry : U64} (hw : Walked userPages {root} m
      (((m.takePage q 1).fillFrame q table).writeEntry u (tableIndex va n) entry))
    (hnone : m.tableAt root va (n + 1) = none)
    (hnext : (((m.takePage q 1).fillFrame q table).writeEntry u (tableIndex va n) entry).tableAt
      root va (n + 1) = some q) :
    Spent root pages 0 m
      (((m.takePage q 1).fillFrame q table).writeEntry u (tableIndex va n) entry) := by
  have hone : freePages (m.takePage q 1) + 1 = freePages m := freePages_takePage hq.1 hq.2
  refine .level hpages hw hva hn hnone hnext (fun f hf hf' => ?_) hone
  by_contra hne
  refine hf' ⟨hf.1, ?_⟩
  show mmpIsPageAllocated (m.takePage q 1) f = false
  rw [MmState.allocated_takePage, decide_eq_false hne, hf.2]
  rfl

/-- What a level of the walk needs. -/
theorem mmpWalkLevel_demand (hpages : pages ⊆ userPages) (ok : TablesOk userPages {root} m)
    (hva : va ∈ pages) {n u : ℕ} (hn : n ≤ 2) (hu : m.tableAt root va n = some u)
    (hready : m.ready = true) : Demand root pages va m (mmpWalkLevel m u n va true) := by
  obtain ⟨hwalked, hnext⟩ := mmpWalkLevel_walked ok rfl (hpages hva) hn hu true
  have hat : pteChild (m.mem u (tableIndex va n)) = none → m.tableAt root va (n + 1) = none := by
    intro hnone
    rw [tableAt_succ, hu, Option.bind_some, hnone]
  have hmissing : pteChild (m.mem u (tableIndex va n)) = none →
      vaPath va (n + 1) ∈ missingTables root pages m := fun hnone =>
    ⟨vaPath_mem hva (by omega), hat hnone⟩
  by_cases hlarge : isLarge (m.mem u (tableIndex va n)) = true
  · have hnone := pteChild_of_isLarge hlarge
    rcases mmpWalkLevel_of_large hlarge with
      ⟨-, herror, hcase⟩ | ⟨h2, -, q, -, hq, heq⟩
    · refine .inr ⟨herror, ?_⟩
      by_cases h2 : n = 2
      · exact .inr (freePages_lt_missing hready (fun h => hcase ⟨h2, h⟩) (hmissing hnone))
      · refine .inl fun hplain => ?_
        rw [hplain n (by omega) _ (reads_of_tableAt (by omega) hu)] at hlarge
        cases hlarge
    · rw [heq] at hwalked hnext ⊢
      exact .inl ⟨⟨q, rfl⟩, (SameLarge.newTable ok (hpages hva) hn hu hq hwalked (hnext q rfl)
        (.inl h2)).samePassable ok hwalked, .newTable hpages hva hn hq hwalked (hat hnone)
          (hnext q rfl)⟩
  have hsmall := Bool.eq_false_iff.2 hlarge
  rcases pteChild_or_absent hsmall with ⟨t, hchild⟩ | habsent
  · rw [mmpWalkLevel_of_child hchild] at hwalked hnext ⊢
    refine .inl ⟨⟨t, rfl⟩, SameLarge.samePassable ?_ ok hwalked, .of_same ?_ fun p hp => ?_⟩
    · split
      · exact .writeEntry root (isLarge_sanitizeEntry _)
      · exact ⟨fun f i h => .inl ⟨h, id⟩, fun f i h _ => .inl h⟩
    · split <;> rfl
    · have hp' := tablePaths_mono hpages hp
      rcases hold : follow pteChild m.mem root p with _ | w
      · by_contra hsome
        obtain ⟨w, hw⟩ := Option.ne_none_iff_exists'.1 hsome
        have hlive : ¬Free m w := by
          have hlive' := hwalked.tables.live w ⟨root, rfl, p, hp', hw⟩
          intro hfree
          apply hlive'
          dsimp only
          split <;> exact hfree
        cases (follow_of_walked hwalked hp' hw hlive).symm.trans hold
      · exact hwalked.follow root rfl p hp' w hold
  · have hnone : pteChild (m.mem u (tableIndex va n)) = none := by
      rw [pteChild, habsent, Bool.false_and, if_neg Bool.false_ne_true]
    rcases mmpWalkLevel_of_absent habsent with ⟨⟨e, heq⟩, hno⟩ | ⟨q, hq, heq⟩
    · rw [heq]
      exact .inr ⟨⟨e, rfl⟩, .inr (freePages_lt_missing hready hno (hmissing hnone))⟩
    · rw [heq] at hwalked hnext ⊢
      have hentry : isLarge (newTableEntry va (pageAddress q)) = false :=
        isLarge_of_pteChild (pteChild_newTableEntry va (lt_of_lt_trackedPages hq.1))
      exact .inl ⟨⟨q, rfl⟩, (SameLarge.newTable ok (hpages hva) hn hu hq hwalked (hnext q rfl)
        (.inr ⟨hsmall, hentry, fun _ => isLarge_zero⟩)).samePassable ok hwalked,
          .newTable hpages hva hn hq hwalked (hat hnone) (hnext q rfl)⟩

/-- What the rest of a walk needs. -/
theorem mmpWalkTables_demand (hpages : pages ⊆ userPages) (k n : ℕ) {u : ℕ} (hn : n + k = 3)
    (ok : TablesOk userPages {root} m) (hva : va ∈ pages) (hu : m.tableAt root va n = some u)
    (hready : m.ready = true) : Demand root pages va m (mmpWalkTables va true k n u m) := by
  induction k generalizing n u m with
  | zero => exact .inl ⟨⟨u, rfl⟩, fun _ _ => Iff.rfl, .refl m⟩
  | succ k ih =>
    obtain ⟨hwalked, hnext⟩ := mmpWalkLevel_walked ok rfl (hpages hva) (by omega) hu true
    have hlevel := mmpWalkLevel_demand hpages ok hva (by omega) hu hready
    rw [mmpWalkTables]
    generalize mmpWalkLevel m u n va true = r at hwalked hnext hlevel ⊢
    obtain ⟨m₁, e | t⟩ := r
    · rcases hlevel with ⟨⟨t, ht⟩, -⟩ | ⟨-, hwhy⟩
      · cases ht
      · exact .inr ⟨⟨e, rfl⟩, hwhy⟩
    rcases hlevel with ⟨-, hsame, hspent⟩ | ⟨⟨e, he⟩, -⟩
    · dsimp only at hwalked hnext hsame hspent ⊢
      rcases ih (n + 1) (by omega) hwalked.tables (hnext t rfl)
        (hwalked.pages.ready.trans hready) with ⟨hok, hsame', hspent'⟩ | ⟨herror, hwhy⟩
      · exact .inl ⟨hok, hsame.trans hsame', hspent.trans hspent'⟩
      · refine .inr ⟨herror, hwhy.imp (fun h h' => h ((hsame va (hpages hva)).2 h')) fun h => ?_⟩
        rw [Spent] at hspent
        omega
    · cases he

/-- What the walk for a page needs. -/
theorem mmpWalkToPte_demand (hpages : pages ⊆ userPages) (ok : TablesOk userPages {root} m)
    (hroot : m.rootFrame a = root) (hva : va ∈ pages) (hready : m.ready = true) :
    (∃ m' t, mmpWalkToPte m a va true = (m', .ok (t, tableIndex va 3)) ∧
        Walked userPages {root} m m' ∧ m'.tableAt root va 3 = some t ∧ SamePassable root m m' ∧
        Spent root pages 0 m m') ∨
      ∃ m' e, mmpWalkToPte m a va true = (m', .error e) ∧ Walked userPages {root} m m' ∧
        (¬Passable root va m ∨ freePages m < (missingTables root pages m).ncard) := by
  subst hroot
  obtain ⟨hwalked, hfound⟩ := mmpWalkTables_walked ok rfl (hpages hva) true 3 (n := 0) rfl rfl
  have hdemand := mmpWalkTables_demand hpages 3 0 rfl ok hva rfl hready
  rw [mmpWalkToPte,
    if_neg (by rw [mmpIsCanonicalAddress_userPages (hpages hva)]; exact Bool.noConfusion)]
  generalize mmpWalkTables va true 3 0 (m.rootFrame a) m = r at hwalked hfound hdemand ⊢
  obtain ⟨m₁, e | t⟩ := r
  · rcases hdemand with ⟨⟨t, ht⟩, -⟩ | ⟨-, hwhy⟩
    · cases ht
    · exact .inr ⟨m₁, e, rfl, hwalked, hwhy⟩
  · rcases hdemand with ⟨-, hpassable, hspent⟩ | ⟨⟨e, he⟩, -⟩
    · exact .inl ⟨m₁, t, rfl, hwalked, hfound t rfl, hpassable, hspent⟩
    · cases he

end NtxKernel.Mm
