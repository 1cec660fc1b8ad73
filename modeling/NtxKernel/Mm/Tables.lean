import NtxKernel.Foundations.Radix
import NtxKernel.Mm.Walk

/-!
# What a walk does to the page tables

The tables below the roots of some address spaces, as far as the addresses of a set `A` pass
through them, form a tree. `TablesOk` is that, and that no table is a free page.

* `pteView` is the entry that a walk for a page finds or would find: a large page counts as the
  entries it would be split into, and where there is no table the entry is zero.
* `Walked` says what a walk may do: it takes free pages and adds them to the tables, and does not
  change the view of any page. `mmpWalkToPte_walked` is that for the walker.
-/

namespace NtxKernel.Mm

open Foundations

/-! ## Paths -/

/-- The table that an entry leads to. -/
def pteChild (entry : U64) : Option ℕ :=
  if hasFlag entry mmPtePresent && !hasFlag entry mmPteLarge then some (pteFrame entry) else none

/-- An entry for a large page. -/
def isLarge (entry : U64) : Bool := hasFlag entry mmPtePresent && hasFlag entry mmPteLarge

/-- The first `n` indices on the walk for an address. -/
def vaPath (va : U64) : ℕ → List TableIx
  | 0 => []
  | n + 1 => vaPath va n ++ [tableIndex va n]

/-- The paths to tables on the walks for the addresses of a set. -/
def tablePaths (A : Set U64) : Set (List TableIx) := {p | ∃ va ∈ A, ∃ n ≤ 3, p = vaPath va n}

@[simp]
theorem length_vaPath (va : U64) (n : ℕ) : (vaPath va n).length = n := by
  induction n with
  | zero => rfl
  | succ n ih => rw [vaPath, List.length_append, ih, List.length_singleton]

theorem vaPath_mem {A : Set U64} {va : U64} (hva : va ∈ A) {n : ℕ} (hn : n ≤ 3) :
    vaPath va n ∈ tablePaths A := ⟨va, hva, n, hn, rfl⟩

theorem length_le_of_mem {A : Set U64} {p : List TableIx} (hp : p ∈ tablePaths A) :
    p.length ≤ 3 := by
  obtain ⟨va, -, n, hn, rfl⟩ := hp
  rw [length_vaPath]
  exact hn

theorem tablePaths_closed (A : Set U64) : PrefixClosed (tablePaths A) := by
  rintro p i ⟨va, hva, n, hn, hp⟩
  cases n with
  | zero => cases p <;> cases hp
  | succ n =>
    rw [vaPath] at hp
    exact ⟨va, hva, n, by omega, (List.append_inj' hp rfl).1⟩

/-- The table on the walk for an address after `n` levels. -/
def MmState.tableAt (mm : MmState) (root : ℕ) (va : U64) (n : ℕ) : Option ℕ :=
  follow pteChild mm.mem root (vaPath va n)

/-- The page is one the allocator may hand out. -/
def Free (mm : MmState) (f : ℕ) : Prop :=
  f < mm.trackedPages ∧ mmpIsPageAllocated mm f = false

/-- The frame is a table of the tree. -/
abbrev IsTable (A : Set U64) (roots : Set ℕ) (mm : MmState) (f : ℕ) : Prop :=
  Reached pteChild mm.mem roots (tablePaths A) f

/-- The tables form a tree, and none of them is a free page. -/
structure TablesOk (A : Set U64) (roots : Set ℕ) (mm : MmState) : Prop where
  tree : IsTree pteChild mm.mem roots (tablePaths A)
  live : ∀ f, IsTable A roots mm f → ¬Free mm f

/-- The entry of a page in the last table, as a walk finds it or would make it. -/
def pteView (mm : MmState) (root : ℕ) (va : U64) : U64 :=
  match mm.tableAt root va 3 with
  | some t => mm.mem t (tableIndex va 3)
  | none =>
    match mm.tableAt root va 2 with
    | some d =>
      if isLarge (mm.mem d (tableIndex va 2)) then
        splitEntry (mm.mem d (tableIndex va 2)) (tableIndex va 3)
      else 0
    | none => 0

/-- What a walk may do: take free pages for tables, and open entries on its way. -/
structure Walked (A : Set U64) (roots : Set ℕ) (mm mm' : MmState) : Prop where
  pages : OnlyPages mm mm'
  tables : TablesOk A roots mm'
  live : ∀ f, ¬Free mm f → ¬Free mm' f
  refCount : ∀ f, ¬Free mm f → mm'.pageRefCount f = mm.pageRefCount f
  mem : ∀ f, ¬Free mm f → ¬IsTable A roots mm f → mm'.mem f = mm.mem f
  taken : ∀ f, Free mm f → ¬Free mm' f → mm'.pageRefCount f = 1 ∧ IsTable A roots mm' f
  follow : ∀ r ∈ roots, ∀ p ∈ tablePaths A, ∀ t, follow pteChild mm.mem r p = some t →
    follow pteChild mm'.mem r p = some t
  reached : ∀ f, IsTable A roots mm' f → IsTable A roots mm f ∨ Free mm f
  view : ∀ r ∈ roots, ∀ va ∈ A, pteView mm' r va = pteView mm r va

namespace Walked

variable {A : Set U64} {roots : Set ℕ} {mm mm' mm'' : MmState}

theorem refl (ok : TablesOk A roots mm) : Walked A roots mm mm where
  pages := .refl mm
  tables := ok
  live _ h := h
  refCount _ _ := rfl
  mem _ _ _ := rfl
  taken _ h h' := absurd h h'
  follow _ _ _ _ _ h := h
  reached _ h := Or.inl h
  view _ _ _ _ := rfl

theorem isTable (h : Walked A roots mm mm') {f : ℕ} (hf : IsTable A roots mm f) :
    IsTable A roots mm' f := by
  obtain ⟨r, hr, p, hp, hfollow⟩ := hf
  exact ⟨r, hr, p, hp, h.follow r hr p hp f hfollow⟩

theorem trans (h : Walked A roots mm mm') (h' : Walked A roots mm' mm'') :
    Walked A roots mm mm'' where
  pages := h.pages.trans h'.pages
  tables := h'.tables
  live f hf := h'.live f (h.live f hf)
  refCount f hf := (h'.refCount f (h.live f hf)).trans (h.refCount f hf)
  mem := by
    intro f hf hnot
    have hnot' : ¬IsTable A roots mm' f := fun ht => (h.reached f ht).elim hnot hf
    exact (h'.mem f (h.live f hf) hnot').trans (h.mem f hf hnot)
  taken := by
    intro f hf hf'
    by_cases hfree : Free mm' f
    · exact h'.taken f hfree hf'
    · obtain ⟨hcount, htable⟩ := h.taken f hf hfree
      exact ⟨(h'.refCount f hfree).trans hcount, h'.isTable htable⟩
  follow r hr p hp t ht := h'.follow r hr p hp t (h.follow r hr p hp t ht)
  reached := by
    intro f hf
    rcases h'.reached f hf with ht | hfree
    · exact h.reached f ht
    · refine Or.inr ?_
      by_contra hnot
      exact h.live f hnot hfree
  view r hr va hva := (h'.view r hr va hva).trans (h.view r hr va hva)

end Walked

/-! ## Entries -/

theorem isLarge_zero : isLarge 0 = false := by decide

theorem pteChild_zero : pteChild 0 = none := by decide

theorem pageAddress_and_mask {page : ℕ} (hpage : page < 2 ^ 40) :
    pageAddress page &&& mmPteAddrMask = pageAddress page := by
  refine BitVec.eq_of_toNat_eq ?_
  rw [mmPteAddrMask_eq, toNat_and_shiftLeft_lowMask _ (by decide),
    toNat_pageAddress (by omega)]
  have hdiv : page * 4096 / 2 ^ 12 % 2 ^ 40 = page := by omega
  rw [hdiv]
  rfl

/-- Flags do not meet the bits of a page address. -/
theorem hasFlag_pageAddress_or {page : ℕ} (hpage : page < 2 ^ 40) {flags m : U64}
    (hm : m &&& mmPteAddrMask = 0) : hasFlag (pageAddress page ||| flags) m = hasFlag flags m := by
  have hdisjoint : pageAddress page &&& m = 0 := by
    rw [← pageAddress_and_mask hpage, BitVec.and_assoc, BitVec.and_comm mmPteAddrMask, hm]
    exact BitVec.and_zero
  rw [BitVec.or_comm, hasFlag_or_of_disjoint hdisjoint]

/-- An entry for a table leads to it. -/
theorem pteChild_tableEntry {page : ℕ} (hpage : page < 2 ^ 40) {flags : U64}
    (hpresent : hasFlag flags mmPtePresent = true) (hlarge : hasFlag flags mmPteLarge = false)
    (haddress : flags &&& mmPteAddrMask = 0) :
    pteChild (pageAddress page ||| flags) = some page := by
  rw [pteChild, hasFlag_pageAddress_or hpage (by decide), hasFlag_pageAddress_or hpage (by decide),
    hpresent, hlarge, pteFrame_or haddress, pteFrame_pageAddress hpage]
  rfl

theorem pteChild_newTableEntry (va : U64) {page : ℕ} (hpage : page < 2 ^ 40) :
    pteChild (newTableEntry va (pageAddress page)) = some page := by
  rw [newTableEntry]
  split
  · rw [BitVec.or_assoc, BitVec.or_assoc]
    exact pteChild_tableEntry hpage (by decide) (by decide) (by decide)
  · rw [BitVec.or_assoc]
    exact pteChild_tableEntry hpage (by decide) (by decide) (by decide)

theorem pteChild_splitTableEntry (va : U64) {page : ℕ} (hpage : page < 2 ^ 40) :
    pteChild (splitTableEntry va (pageAddress page)) = some page := by
  rw [splitTableEntry]
  split
  · rw [BitVec.or_assoc, BitVec.or_assoc]
    exact pteChild_tableEntry hpage (by decide) (by decide) (by decide)
  · rw [BitVec.or_assoc]
    exact pteChild_tableEntry hpage (by decide) (by decide) (by decide)

theorem hasFlag_sanitizeEntry (entry : U64) {m : U64} (huser : mmPteUser &&& m = 0)
    (hnx : mmPteNx &&& m = 0) : hasFlag (sanitizeEntry entry) m = hasFlag entry m := by
  rw [sanitizeEntry, hasFlag_and_not_of_disjoint hnx, hasFlag_or_of_disjoint huser]

theorem pteChild_sanitizeEntry (entry : U64) : pteChild (sanitizeEntry entry) = pteChild entry := by
  rw [pteChild, hasFlag_sanitizeEntry entry (by decide) (by decide),
    hasFlag_sanitizeEntry entry (by decide) (by decide), sanitizeEntry,
    pteFrame_and_not (by decide), pteFrame_or (by decide), pteChild]

theorem isLarge_sanitizeEntry (entry : U64) : isLarge (sanitizeEntry entry) = isLarge entry := by
  rw [isLarge, hasFlag_sanitizeEntry entry (by decide) (by decide),
    hasFlag_sanitizeEntry entry (by decide) (by decide), isLarge]

theorem isLarge_of_pteChild {entry : U64} {t : ℕ} (h : pteChild entry = some t) :
    isLarge entry = false := by
  rw [pteChild] at h
  split at h
  · rename_i hcond
    rw [Bool.and_eq_true, Bool.not_eq_true'] at hcond
    rw [isLarge, hcond.1, hcond.2]
    rfl
  · cases h

theorem pteChild_of_isLarge {entry : U64} (h : isLarge entry = true) : pteChild entry = none := by
  rw [isLarge, Bool.and_eq_true] at h
  rw [pteChild, h.1, h.2]
  rfl

theorem pteChild_of_not_present {entry : U64} (h : hasFlag entry mmPtePresent = false) :
    pteChild entry = none := by
  rw [pteChild, h]
  rfl

theorem pteChild_of_present {entry : U64} (h : hasFlag entry mmPtePresent = true)
    (hlarge : isLarge entry = false) : pteChild entry = some (pteFrame entry) := by
  rw [isLarge, h, Bool.true_and] at hlarge
  rw [pteChild, h, hlarge]
  rfl

/-! ## Writing an entry on the way -/

section Steps

variable {A : Set U64} {roots : Set ℕ} {mm : MmState} {root u n : ℕ} {va : U64}

theorem tableAt_succ (mm : MmState) (root : ℕ) (va : U64) (n : ℕ) :
    mm.tableAt root va (n + 1) =
      (mm.tableAt root va n).bind fun t => pteChild (mm.mem t (tableIndex va n)) :=
  follow_concat _ _ _

/-- A table that is reached at two depths is reached at one depth. -/
theorem TablesOk.depth (ok : TablesOk A roots mm) {r r' t : ℕ} {va va' : U64} {k k' : ℕ}
    (hr : r ∈ roots) (hr' : r' ∈ roots) (hva : va ∈ A) (hva' : va' ∈ A) (hk : k ≤ 3) (hk' : k' ≤ 3)
    (ht : mm.tableAt r va k = some t) (ht' : mm.tableAt r' va' k' = some t) :
    vaPath va k = vaPath va' k' :=
  ok.tree r hr r' hr' _ (vaPath_mem hva hk) _ (vaPath_mem hva' hk') t ht ht'

/-- Opening an entry on the way to a table keeps the tree and the view. -/
theorem TablesOk.sanitize (ok : TablesOk A roots mm) (hroot : root ∈ roots) (hva : va ∈ A)
    (hn : n ≤ 2) (hu : mm.tableAt root va n = some u) {i : TableIx}
    (hlarge : isLarge (mm.mem u i) = false) :
    Walked A roots mm (mm.writeEntry u i (sanitizeEntry (mm.mem u i))) := by
  generalize hmm' : mm.writeEntry u i (sanitizeEntry (mm.mem u i)) = mm'
  have hmem : ∀ t j, mm'.mem t j = mm.mem t j ∨
      t = u ∧ j = i ∧ mm'.mem t j = sanitizeEntry (mm.mem u i) := by
    intro t j
    rw [← hmm', MmState.writeEntry]
    by_cases ht : t = u
    · by_cases hj : j = i
      · exact Or.inr ⟨ht, hj, by simp only [ht, hj, Function.update_self]⟩
      · exact Or.inl (by simp only [ht, Function.update_self, Function.update_of_ne hj])
    · exact Or.inl (by simp only [Function.update_of_ne ht])
  have hchild : ∀ t j, pteChild (mm'.mem t j) = pteChild (mm.mem t j) := by
    intro t j
    rcases hmem t j with h | ⟨rfl, rfl, h⟩
    · rw [h]
    · rw [h, pteChild_sanitizeEntry]
  have hlarge' : ∀ t j, isLarge (mm'.mem t j) = isLarge (mm.mem t j) := by
    intro t j
    rcases hmem t j with h | ⟨rfl, rfl, h⟩
    · rw [h]
    · rw [h, isLarge_sanitizeEntry]
  have hfollow : ∀ r, ∀ p ∈ tablePaths A,
      follow pteChild mm'.mem r p = follow pteChild mm.mem r p :=
    fun r p hp => follow_congr (tablePaths_closed A) (fun _ _ _ t _ => hchild t _) hp
  have hreach : ∀ f, IsTable A roots mm' f ↔ IsTable A roots mm f := by
    intro f
    constructor <;> rintro ⟨r, hr, p, hp, h⟩
    · exact ⟨r, hr, p, hp, (hfollow r p hp).symm.trans h⟩
    · exact ⟨r, hr, p, hp, (hfollow r p hp).trans h⟩
  have hfree : ∀ f, Free mm' f ↔ Free mm f := by
    intro f
    rw [← hmm']
    rfl
  exact
    { pages := hmm' ▸ OnlyPages.writeEntry ..
      tables := ⟨ok.tree.congr fun r _ p hp => hfollow r p hp,
        fun f hf => by rw [hfree]; exact ok.live f ((hreach f).1 hf)⟩
      live := fun f hf => by rw [hfree]; exact hf
      refCount := fun f _ => by rw [← hmm']; rfl
      mem := by
        intro f _ hnot
        have hne : f ≠ u := by
          intro he
          exact hnot ⟨root, hroot, _, vaPath_mem hva (by omega), he ▸ hu⟩
        funext j
        rcases hmem f j with h | ⟨he, -⟩
        · exact h
        · exact absurd he hne
      taken := fun f hf hf' => absurd ((hfree f).2 hf) hf'
      follow := fun r _ p hp t ht => (hfollow r p hp).trans ht
      reached := fun f hf => Or.inl ((hreach f).1 hf)
      view := by
        intro r hr va' hva'
        have h3 : mm'.tableAt r va' 3 = mm.tableAt r va' 3 := hfollow r _ (vaPath_mem hva' le_rfl)
        have h2 : mm'.tableAt r va' 2 = mm.tableAt r va' 2 :=
          hfollow r _ (vaPath_mem hva' (by omega))
        rw [pteView, pteView, h3, h2]
        cases ht : mm.tableAt r va' 3 with
        | some t =>
          -- the last table is not the one that is written
          rcases hmem t (tableIndex va' 3) with h | ⟨rfl, -⟩
          · exact h
          · have hlength := congrArg List.length
              (ok.depth hroot hr hva hva' (by omega) le_rfl hu ht)
            rw [length_vaPath, length_vaPath] at hlength
            omega
        | none =>
          cases hd : mm.tableAt r va' 2 with
          | none => rfl
          | some d =>
            dsimp only
            rw [hlarge']
            rcases hmem d (tableIndex va' 2) with h | ⟨rfl, hi, -⟩
            · rw [h]
            · rw [hi, hlarge]
              rfl }

/-- Linking a page that was free into the tree keeps the tree and the view, when the page holds the
parts of a large page or nothing. -/
theorem TablesOk.link (ok : TablesOk A roots mm) (hroot : root ∈ roots) (hva : va ∈ A) (hn : n ≤ 2)
    (hu : mm.tableAt root va n = some u) {q : ℕ} (hq : q < mm.trackedPages)
    (hfree : mmpIsPageAllocated mm q = false) {entry : U64} {words : TableIx → U64}
    (hold : pteChild (mm.mem u (tableIndex va n)) = none) (hnew : pteChild entry = some q)
    (hwords : ∀ j, words j = if n = 2 ∧ isLarge (mm.mem u (tableIndex va n)) = true then
      splitEntry (mm.mem u (tableIndex va n)) j else 0) :
    Walked A roots mm
        (((mm.takePage q 1).fillFrame q words).writeEntry u (tableIndex va n) entry) ∧
      (((mm.takePage q 1).fillFrame q words).writeEntry u (tableIndex va n) entry).tableAt root va
        (n + 1) = some q := by
  generalize hmm' :
    ((mm.takePage q 1).fillFrame q words).writeEntry u (tableIndex va n) entry = mm'
  have hnotq : ¬IsTable A roots mm q := fun h => ok.live q h ⟨hq, hfree⟩
  have huq : u ≠ q := by
    intro he
    exact hnotq ⟨root, hroot, _, vaPath_mem hva (by omega), he ▸ hu⟩
  have hmemq : mm'.mem q = words := by
    rw [← hmm']
    simp only [MmState.writeEntry, MmState.fillFrame, Function.update_of_ne huq.symm,
      Function.update_self]
  have hmemu : mm'.mem u (tableIndex va n) = entry := by
    rw [← hmm']
    simp only [MmState.writeEntry, Function.update_self]
  have hmem : ∀ t j, t ≠ q → (t ≠ u ∨ j ≠ tableIndex va n) → mm'.mem t j = mm.mem t j := by
    intro t j htq htu
    rw [← hmm']
    simp only [MmState.writeEntry, MmState.fillFrame, MmState.mem_takePage]
    by_cases ht : t = u
    · rcases htu with h | h
      · exact absurd ht h
      · rw [ht, Function.update_self, Function.update_of_ne h, Function.update_of_ne huq]
    · rw [Function.update_of_ne ht, Function.update_of_ne htq]
  have hleaf : ∀ j, vaPath va n ++ [tableIndex va n] ++ [j] ∈ tablePaths A →
      pteChild (mm'.mem q j) = none := by
    intro j hj
    have hlength := length_le_of_mem hj
    rw [List.length_append, List.length_append, length_vaPath, List.length_singleton,
      List.length_singleton] at hlength
    rw [hmemq, hwords, if_neg (by omega), pteChild_zero]
  have hother : ∀ t j, t ≠ q → (t ≠ u ∨ j ≠ tableIndex va n) →
      pteChild (mm'.mem t j) = pteChild (mm.mem t j) :=
    fun t j htq htu => by rw [hmem t j htq htu]
  have hnew' : pteChild (mm'.mem u (tableIndex va n)) = some q := by rw [hmemu, hnew]
  have hlink : ∀ r ∈ roots, ∀ p ∈ tablePaths A,
      (p = vaPath va n ++ [tableIndex va n] ∧ follow pteChild mm.mem r (vaPath va n) = some u ∧
          follow pteChild mm'.mem r p = some q) ∨
        (¬(p = vaPath va n ++ [tableIndex va n] ∧
          follow pteChild mm.mem r (vaPath va n) = some u) ∧
          follow pteChild mm'.mem r p = follow pteChild mm.mem r p) :=
    fun r hr p hp => follow_link (tablePaths_closed A) ok.tree hroot (vaPath_mem hva (by omega))
      hu hold hnew' hnotq hleaf hother hr hp
  have hfree' : ∀ f, Free mm' f ↔ Free mm f ∧ f ≠ q := by
    intro f
    have htracked : mm'.trackedPages = mm.trackedPages := by rw [← hmm']; rfl
    have hallocated : mmpIsPageAllocated mm' f =
        (decide (f = q) || mmpIsPageAllocated mm f) := by
      rw [← hmm']
      exact mm.allocated_takePage q f 1
    rw [Free, Free, htracked, hallocated]
    by_cases hf : f = q <;> simp [hf]
  have hreach : ∀ f, IsTable A roots mm' f → f = q ∨ IsTable A roots mm f := by
    rintro f ⟨r, hr, p, hp, h⟩
    rcases hlink r hr p hp with ⟨-, -, hq'⟩ | ⟨-, hsame⟩
    · exact Or.inl (Option.some.inj (h.symm.trans hq'))
    · exact Or.inr ⟨r, hr, p, hp, hsame.symm.trans h⟩
  have hkeep : ∀ r ∈ roots, ∀ p ∈ tablePaths A, ∀ t, follow pteChild mm.mem r p = some t →
      follow pteChild mm'.mem r p = some t := by
    intro r hr p hp t ht
    rcases hlink r hr p hp with ⟨hpp, hru, -⟩ | ⟨-, hsame⟩
    · rw [hpp, follow_concat, hru, Option.bind_some, hold] at ht
      cases ht
    · exact hsame.trans ht
  have hlast : mm'.tableAt root va (n + 1) = some q := by
    rw [tableAt_succ, show mm'.tableAt root va n = some u from
      hkeep root hroot _ (vaPath_mem hva (by omega)) u hu, Option.bind_some, hnew']
  refine ⟨?_, hlast⟩
  exact
    { pages := by
        rw [← hmm']
        exact (OnlyPages.takePage ..).trans ((OnlyPages.fillFrame ..).trans
          (OnlyPages.writeEntry ..))
      tables := by
        refine ⟨ok.tree.link (tablePaths_closed A) hroot (vaPath_mem hva (by omega)) hu hold hnew'
          hnotq hleaf hother, fun f hf hfree => ?_⟩
        obtain ⟨hfree, hne⟩ := (hfree' f).1 hfree
        exact ok.live f ((hreach f hf).resolve_left hne) hfree
      live := fun f hf h => hf ((hfree' f).1 h).1
      refCount := by
        intro f hf
        have hne : f ≠ q := by
          intro he
          exact hf (he ▸ ⟨hq, hfree⟩)
        rw [← hmm']
        exact Function.update_of_ne hne _ _
      mem := by
        intro f hf hnot
        have hne : f ≠ q := by
          intro he
          exact hf (he ▸ ⟨hq, hfree⟩)
        have hneu : f ≠ u := by
          intro he
          exact hnot ⟨root, hroot, _, vaPath_mem hva (by omega), he ▸ hu⟩
        funext j
        exact hmem f j hne (Or.inl hneu)
      taken := by
        intro f hf hf'
        have he : f = q := by
          by_contra hne
          exact hf' ((hfree' f).2 ⟨hf, hne⟩)
        refine ⟨?_, root, hroot, _, vaPath_mem hva (by omega), he ▸ hlast⟩
        rw [← hmm', he]
        exact Function.update_self _ _ _
      follow := hkeep
      reached := fun f hf => (hreach f hf).elim (fun he => Or.inr (he ▸ ⟨hq, hfree⟩)) Or.inl
      view := by
        intro r hr va' hva'
        have hneq : ∀ {k t}, k ≤ 3 → mm.tableAt r va' k = some t → t ≠ q := by
          rintro k t hk ht rfl
          exact hnotq ⟨r, hr, _, vaPath_mem hva' hk, ht⟩
        rcases hlink r hr _ (vaPath_mem hva' le_rfl) with ⟨hpath, hru, h3⟩ | ⟨hnot, h3⟩
        · -- the last table is the new one, which the entry of a large page stood for
          have hn2 : n = 2 := by
            have hlength := congrArg List.length hpath
            rw [length_vaPath, List.length_append, length_vaPath, List.length_singleton] at hlength
            omega
          subst hn2
          have hsplit := List.append_inj' (show vaPath va' 2 ++ [tableIndex va' 2] = _ from hpath) rfl
          have hindex : tableIndex va' 2 = tableIndex va 2 := (List.cons.inj hsplit.2).1
          have h2 : mm.tableAt r va' 2 = some u := by
            rw [MmState.tableAt, hsplit.1]
            exact hru
          have h3old : mm.tableAt r va' 3 = none := by
            rw [tableAt_succ, h2, Option.bind_some, hindex, hold]
          rw [pteView, pteView, show mm'.tableAt r va' 3 = some q from h3, h3old, h2]
          dsimp only
          rw [hmemq, hwords, hindex]
          simp only [true_and]
        · have h3' : mm'.tableAt r va' 3 = mm.tableAt r va' 3 := h3
          rw [pteView, pteView, h3']
          cases ht : mm.tableAt r va' 3 with
          | some t =>
            refine hmem t _ (hneq le_rfl ht) (Or.inl fun he => ?_)
            have hlength := congrArg List.length
              (ok.depth hroot hr hva hva' (by omega) le_rfl hu (he ▸ ht))
            rw [length_vaPath, length_vaPath] at hlength
            omega
          | none =>
            rcases hlink r hr _ (vaPath_mem hva' (show 2 ≤ 3 by omega)) with
              ⟨hpath, hru, h2⟩ | ⟨-, h2⟩
            · -- the new table takes the place of nothing, and is empty
              have hn1 : n = 1 := by
                have hlength := congrArg List.length hpath
                rw [length_vaPath, List.length_append, length_vaPath,
                  List.length_singleton] at hlength
                omega
              have h2old : mm.tableAt r va' 2 = none := by
                rw [MmState.tableAt, hpath, follow_concat, hru, Option.bind_some, hold]
              rw [show mm'.tableAt r va' 2 = some q from h2, h2old]
              have hzero : words (tableIndex va' 2) = 0 := by
                rw [hwords, if_neg (by omega)]
              dsimp only
              rw [hmemq, hzero, isLarge_zero]
              rfl
            · rw [show mm'.tableAt r va' 2 = mm.tableAt r va' 2 from h2]
              cases hd : mm.tableAt r va' 2 with
              | none => rfl
              | some d =>
                have hsame : mm'.mem d (tableIndex va' 2) = mm.mem d (tableIndex va' 2) := by
                  refine hmem d _ (hneq (by omega) hd) ?_
                  by_cases hdu : d = u
                  · refine Or.inr fun hi => hnot ?_
                    have hpath := ok.depth hroot hr hva hva' (by omega) (by omega) hu (hdu ▸ hd)
                    have hn2 : n = 2 := by
                      have hlength := congrArg List.length hpath
                      rw [length_vaPath, length_vaPath] at hlength
                      exact hlength
                    subst hn2
                    refine ⟨?_, ?_⟩
                    · rw [hpath, ← hi]
                      rfl
                    · rw [hpath, ← hdu]
                      exact hd
                  · exact Or.inl hdu
                dsimp only
                rw [hsame] }

/-! ## The walk -/

/-- The page a round of the walk takes is small enough for an entry. -/
theorem lt_of_lt_trackedPages {mm : MmState} {q : ℕ} (hq : q < mm.trackedPages) : q < 2 ^ 40 := by
  have hle : mm.trackedPages ≤ 262144 := mm.trackedPages_le
  omega

/-- Splitting a large page keeps the tree and the view; what is left is not a large page. -/
theorem mmpSplitLarge_walked (ok : TablesOk A roots mm) (hroot : root ∈ roots) (hva : va ∈ A)
    (hn : n ≤ 2) (hu : mm.tableAt root va n = some u) (create : Bool) :
    Walked A roots mm (mmpSplitLarge mm u n va create).1 ∧
      ∀ entry, (mmpSplitLarge mm u n va create).2 = .ok entry →
        (mmpSplitLarge mm u n va create).1.mem u (tableIndex va n) = entry ∧
          isLarge entry = false := by
  rw [mmpSplitLarge]
  dsimp only
  cases hlarge : isLarge (mm.mem u (tableIndex va n)) with
  | false =>
    rw [isLarge] at hlarge
    rw [if_neg (by rw [hlarge]; exact Bool.false_ne_true)]
    refine ⟨.refl ok, fun entry he => ?_⟩
    cases he
    exact ⟨rfl, hlarge⟩
  | true =>
    have hcond := hlarge
    rw [isLarge] at hcond
    rw [if_pos hcond]
    by_cases hlevel : n = 2
    · rw [if_neg (not_not.2 hlevel)]
      by_cases hcreate : create = false
      · rw [if_pos hcreate]
        exact ⟨.refl ok, fun entry he => by cases he⟩
      rw [if_neg hcreate]
      rcases mmAllocPage_cases mm with ⟨e, heq⟩ | ⟨q, hq, hfree, -, heq⟩
      · rw [heq]
        exact ⟨.refl ok, fun entry he => by cases he⟩
      · rw [heq]
        have hq40 := lt_of_lt_trackedPages hq
        have hwords : ∀ j, splitEntry (mm.mem u (tableIndex va n)) j =
            if n = 2 ∧ isLarge (mm.mem u (tableIndex va n)) = true then
              splitEntry (mm.mem u (tableIndex va n)) j else 0 := by
          intro j
          rw [if_pos ⟨hlevel, hlarge⟩]
        have hlink := ok.link hroot hva hn hu hq hfree (pteChild_of_isLarge hlarge)
          (pteChild_splitTableEntry va hq40) hwords
        dsimp only
        rw [pteFrame_pageAddress hq40]
        refine ⟨hlink.1, fun entry he => ?_⟩
        cases he
        refine ⟨?_, isLarge_of_pteChild (pteChild_splitTableEntry va hq40)⟩
        simp only [MmState.writeEntry, Function.update_self]
    · rw [if_pos hlevel]
      exact ⟨.refl ok, fun entry he => by cases he⟩

/-- Opening an entry keeps what it leads to. -/
theorem mmpSanitize_walked (ok : TablesOk A roots mm) (hroot : root ∈ roots) (hva : va ∈ A)
    (hn : n ≤ 2) (hu : mm.tableAt root va n = some u) (create : Bool) {entry : U64}
    (hentry : mm.mem u (tableIndex va n) = entry) (hlarge : isLarge entry = false) :
    Walked A roots mm (mmpSanitize mm u n va create entry).1 ∧
      (mmpSanitize mm u n va create entry).1.mem u (tableIndex va n) =
        (mmpSanitize mm u n va create entry).2 ∧
      isLarge (mmpSanitize mm u n va create entry).2 = false := by
  rw [mmpSanitize]
  split
  · split
    · refine ⟨?_, ?_, ?_⟩
      · have hwalk := ok.sanitize hroot hva hn hu (i := tableIndex va n) (by rw [hentry, hlarge])
        rw [hentry] at hwalk
        exact hwalk
      · simp only [MmState.writeEntry, Function.update_self]
      · rw [isLarge_sanitizeEntry, hlarge]
    · exact ⟨.refl ok, hentry, hlarge⟩
  · exact ⟨.refl ok, hentry, hlarge⟩

/-- Adding a table that is missing keeps the tree and the view. -/
theorem mmpAddTable_walked (ok : TablesOk A roots mm) (hroot : root ∈ roots) (hva : va ∈ A)
    (hn : n ≤ 2) (hu : mm.tableAt root va n = some u) (create : Bool) {entry : U64}
    (hentry : mm.mem u (tableIndex va n) = entry) (hlarge : isLarge entry = false) :
    Walked A roots mm (mmpAddTable mm u n va create entry).1 ∧
      ∀ entry', (mmpAddTable mm u n va create entry).2 = .ok entry' →
        (mmpAddTable mm u n va create entry).1.tableAt root va (n + 1) =
          some (pteFrame entry') := by
  rw [mmpAddTable]
  cases hpresent : hasFlag entry mmPtePresent with
  | true =>
    rw [if_pos rfl]
    refine ⟨.refl ok, fun entry' he => ?_⟩
    cases he
    rw [tableAt_succ, hu, Option.bind_some, hentry, pteChild_of_present hpresent hlarge]
  | false =>
    rw [if_neg Bool.false_ne_true]
    by_cases hcreate : create = false
    · rw [if_pos hcreate]
      exact ⟨.refl ok, fun entry he => by cases he⟩
    rw [if_neg hcreate]
    rcases mmAllocPage_cases mm with ⟨e, heq⟩ | ⟨q, hq, hfree, -, heq⟩
    · rw [heq]
      exact ⟨.refl ok, fun entry he => by cases he⟩
    · rw [heq]
      have hq40 := lt_of_lt_trackedPages hq
      have hwords : ∀ j : TableIx, (fun _ => 0 : TableIx → U64) j =
          if n = 2 ∧ isLarge (mm.mem u (tableIndex va n)) = true then
            splitEntry (mm.mem u (tableIndex va n)) j else 0 := by
        intro j
        rw [hentry, if_neg (fun h => by rw [hlarge] at h; cases h.2)]
      have hlink := ok.link hroot hva hn hu hq hfree
        (by rw [hentry]; exact pteChild_of_not_present hpresent) (pteChild_newTableEntry va hq40)
        hwords
      dsimp only
      rw [pteFrame_pageAddress hq40]
      refine ⟨hlink.1, fun entry' he => ?_⟩
      cases he
      have hchild := pteChild_newTableEntry va hq40
      have hframe : pteFrame (newTableEntry va (pageAddress q)) = q := by
        rw [pteChild] at hchild
        split at hchild
        · exact Option.some.inj hchild
        · cases hchild
      rw [hframe]
      exact hlink.2

/-- What one round of the walk does. -/
theorem mmpWalkLevel_walked (ok : TablesOk A roots mm) (hroot : root ∈ roots) (hva : va ∈ A)
    (hn : n ≤ 2) (hu : mm.tableAt root va n = some u) (create : Bool) :
    Walked A roots mm (mmpWalkLevel mm u n va create).1 ∧
      ∀ t, (mmpWalkLevel mm u n va create).2 = .ok t →
        (mmpWalkLevel mm u n va create).1.tableAt root va (n + 1) = some t := by
  rw [mmpWalkLevel]
  obtain ⟨hsplit, hentry⟩ := mmpSplitLarge_walked ok hroot hva hn hu create
  generalize mmpSplitLarge mm u n va create = r at hsplit hentry ⊢
  obtain ⟨mm₁, e | entry⟩ := r
  · exact ⟨hsplit, fun t ht => by cases ht⟩
  obtain ⟨hentry₁, hlarge₁⟩ := hentry entry rfl
  dsimp only at hsplit hentry₁ ⊢
  have hu₁ : mm₁.tableAt root va n = some u :=
    hsplit.follow root hroot _ (vaPath_mem hva (by omega)) u hu
  obtain ⟨hsanitize, hentry₂, hlarge₂⟩ :=
    mmpSanitize_walked hsplit.tables hroot hva hn hu₁ create hentry₁ hlarge₁
  generalize mmpSanitize mm₁ u n va create entry = r at hsanitize hentry₂ hlarge₂ ⊢
  obtain ⟨mm₂, entry₂⟩ := r
  dsimp only at hsanitize hentry₂ hlarge₂ ⊢
  have hu₂ : mm₂.tableAt root va n = some u :=
    hsanitize.follow root hroot _ (vaPath_mem hva (by omega)) u hu₁
  obtain ⟨hadd, hnext⟩ :=
    mmpAddTable_walked hsanitize.tables hroot hva hn hu₂ create hentry₂ hlarge₂
  generalize mmpAddTable mm₂ u n va create entry₂ = r at hadd hnext ⊢
  obtain ⟨mm₃, e | entry₃⟩ := r
  · exact ⟨hsplit.trans (hsanitize.trans hadd), fun t ht => by cases ht⟩
  · refine ⟨hsplit.trans (hsanitize.trans hadd), fun t ht => ?_⟩
    cases ht
    exact hnext entry₃ rfl

/-- What the loop of the walk does. -/
theorem mmpWalkTables_walked (ok : TablesOk A roots mm) (hroot : root ∈ roots) (hva : va ∈ A)
    (create : Bool) (k : ℕ) (hn : n + k = 3) (hu : mm.tableAt root va n = some u) :
    Walked A roots mm (mmpWalkTables va create k n u mm).1 ∧
      ∀ t, (mmpWalkTables va create k n u mm).2 = .ok t →
        (mmpWalkTables va create k n u mm).1.tableAt root va 3 = some t := by
  induction k generalizing n u mm with
  | zero =>
    refine ⟨.refl ok, fun t ht => ?_⟩
    cases ht
    obtain rfl : n = 3 := by omega
    exact hu
  | succ k ih =>
    rw [mmpWalkTables]
    obtain ⟨hlevel, hnext⟩ := mmpWalkLevel_walked ok hroot hva (by omega) hu create
    generalize mmpWalkLevel mm u n va create = r at hlevel hnext ⊢
    obtain ⟨mm₁, e | next⟩ := r
    · exact ⟨hlevel, fun t ht => by cases ht⟩
    · obtain ⟨hrest, hlast⟩ := ih hlevel.tables (by omega) (hnext next rfl)
      exact ⟨hlevel.trans hrest, hlast⟩

/-- What `MmpWalkToPte` does, from a root of the tree. -/
theorem mmpWalkToPte_walked (ok : TablesOk A roots mm) {a : AddressSpaceRef}
    (hroot : mm.rootFrame a ∈ roots) (hva : va ∈ A) (create : Bool) :
    Walked A roots mm (mmpWalkToPte mm a va create).1 ∧
      ∀ t i, (mmpWalkToPte mm a va create).2 = .ok (t, i) →
        i = tableIndex va 3 ∧
          (mmpWalkToPte mm a va create).1.tableAt (mm.rootFrame a) va 3 = some t := by
  rw [mmpWalkToPte]
  split
  · exact ⟨.refl ok, fun t i h => by cases h⟩
  obtain ⟨hwalk, hlast⟩ := mmpWalkTables_walked ok hroot hva create 3 (n := 0) rfl rfl
  generalize mmpWalkTables va create 3 0 (mm.rootFrame a) mm = r at hwalk hlast ⊢
  obtain ⟨mm₁, e | table⟩ := r
  · exact ⟨hwalk, fun t i h => by cases h⟩
  · refine ⟨hwalk, fun t i h => ?_⟩
    cases h
    exact ⟨rfl, hlast table rfl⟩

end Steps

end NtxKernel.Mm
