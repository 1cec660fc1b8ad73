import Mathlib.Data.Finset.Card
import NtxKernel.Mm.Freeing

/-!
# Next fit

`MmpAllocPageInternal` looks for a free page in cyclic order from a cursor.

* `freePages` counts the pages it may find, and `freePages_takePage` says that a call takes one.
* `NextFit` is all that a call that succeeds does, and `nextFit_of_ok` that it does it.
* `allocResults` are the results of calls one after another; `allocResults_isOk_iff` says that as
  many succeed as there are free pages, and `allocResults_inj` that they return different pages.
* `next_fit` puts this together, for every bitmap, cursor and reference count.
-/

namespace NtxKernel.Mm

open Foundations

/-- The number of pages that the allocator may hand out. -/
def freePages (mm : MmState) : ℕ :=
  ((Finset.range mm.trackedPages).filter fun page => mmpIsPageAllocated mm page = false).card

/-- A call found the first free page from the cursor on, and took it. -/
structure NextFit (mm : MmState) (initialRefCount : U32) (page : ℕ) (mm' : MmState) : Prop where
  tracked : page < mm.trackedPages
  free : mmpIsPageAllocated mm page = false
  first : ∃ d < mm.trackedPages, page = (mm.nextScanPage + d) % mm.trackedPages ∧
    ∀ e < d, mmpIsPageAllocated mm ((mm.nextScanPage + e) % mm.trackedPages) = true
  allocated : ∀ page', mmpIsPageAllocated mm' page' =
    (decide (page' = page) || mmpIsPageAllocated mm page')
  refCount : mm'.pageRefCount = Function.update mm.pageRefCount page initialRefCount
  cursor : mm'.nextScanPage = (page + 1) % mm.trackedPages
  cursor_lt : mm'.nextScanPage < mm.trackedPages
  rest : mm' = { mm with
    pageBitmap := mm'.pageBitmap
    pageRefCount := mm'.pageRefCount
    nextScanPage := mm'.nextScanPage }

/-- The results of calls with the given reference counts, one after another. -/
def allocResults : List U32 → MmState → List (Except KStatus U64)
  | [], _ => []
  | count :: counts, mm =>
    (mmpAllocPageInternal mm count).2 :: allocResults counts (mmpAllocPageInternal mm count).1

variable {mm mm' : MmState} {count : U32} {pa : U64}

theorem freePages_pos_iff :
    0 < freePages mm ↔ ∃ page < mm.trackedPages, mmpIsPageAllocated mm page = false := by
  rw [freePages, Finset.card_pos]
  constructor
  · rintro ⟨page, hpage⟩
    rw [Finset.mem_filter, Finset.mem_range] at hpage
    exact ⟨page, hpage⟩
  · rintro ⟨page, hpage, hfree⟩
    exact ⟨page, Finset.mem_filter.2 ⟨Finset.mem_range.2 hpage, hfree⟩⟩

/-- A page that is taken is free no more. -/
theorem freePages_takePage {page : ℕ} (hpage : page < mm.trackedPages)
    (hfree : mmpIsPageAllocated mm page = false) :
    freePages (mm.takePage page count) + 1 = freePages mm := by
  have hmem : page ∈ (Finset.range mm.trackedPages).filter fun p =>
      mmpIsPageAllocated mm p = false :=
    Finset.mem_filter.2 ⟨Finset.mem_range.2 hpage, hfree⟩
  have herase : (Finset.range (mm.takePage page count).trackedPages).filter
      (fun p => mmpIsPageAllocated (mm.takePage page count) p = false) =
        ((Finset.range mm.trackedPages).filter fun p => mmpIsPageAllocated mm p = false).erase
          page := by
    ext p
    rw [Finset.mem_erase, Finset.mem_filter, Finset.mem_filter, MmState.allocated_takePage,
      MmState.trackedPages_takePage, Bool.or_eq_false_iff, decide_eq_false_iff_not]
    exact and_left_comm
  rw [freePages, herase, freePages]
  exact Finset.card_erase_add_one hmem

/-! ## One call -/

/-- What a call that succeeds does. -/
theorem nextFit_of_ok (h : mmpAllocPageInternal mm count = (mm', .ok pa)) :
    ∃ page, pa = pageAddress page ∧ mm' = mm.takePage page count ∧ NextFit mm count page mm' := by
  rw [mmpAllocPageInternal] at h
  by_cases hzero : mm.trackedPages = 0
  · rw [if_pos hzero] at h
    cases h
  rw [if_neg hzero] at h
  rcases hfind : cyclicFind (fun page => !mmpIsPageAllocated mm page) mm.trackedPages
    mm.nextScanPage mm.trackedPages 0 with _ | page
  · rw [hfind] at h
    cases h
  rw [hfind] at h
  cases h
  obtain ⟨d, -, hd, hpage, hfree, hfirst⟩ := cyclicFind_eq_some.1 hfind
  have hlt : page < mm.trackedPages := by
    rw [hpage]
    exact Nat.mod_lt _ (Nat.pos_of_ne_zero hzero)
  refine ⟨page, rfl, rfl, ?_⟩
  exact
    { tracked := hlt
      free := by simpa using hfree
      first := ⟨d, by omega, hpage, fun e he => by simpa using hfirst e (Nat.zero_le e) he⟩
      allocated := fun page' => MmState.allocated_takePage mm page page' count
      refCount := rfl
      cursor := rfl
      cursor_lt := Nat.mod_lt _ (Nat.pos_of_ne_zero hzero)
      rest := rfl }

/-- A call succeeds exactly when a page is free. -/
theorem mmpAllocPageInternal_isOk_iff (mm : MmState) (count : U32) :
    (∃ pa, (mmpAllocPageInternal mm count).2 = .ok pa) ↔
      ∃ page < mm.trackedPages, mmpIsPageAllocated mm page = false := by
  rcases mmpAllocPageInternal_cases mm count with ⟨hfull, e, heq⟩ | ⟨page, hpage, hfree, heq⟩
  · rw [heq]
    refine iff_of_false ?_ ?_
    · rintro ⟨pa, h⟩
      cases h
    · rintro ⟨page, hpage, hfree⟩
      rw [hfull page hpage] at hfree
      cases hfree
  · rw [heq]
    exact iff_of_true ⟨_, rfl⟩ ⟨page, hpage, hfree⟩

/-- A call that fails changes nothing. -/
theorem mmpAllocPageInternal_of_error {e : KStatus}
    (h : mmpAllocPageInternal mm count = (mm', .error e)) : mm' = mm := by
  rcases mmpAllocPageInternal_cases mm count with ⟨-, e', heq⟩ | ⟨page, -, -, heq⟩
  · cases h.symm.trans heq
    rfl
  · cases h.symm.trans heq

/-! ## Calls one after another -/

@[simp]
theorem length_allocResults (counts : List U32) (mm : MmState) :
    (allocResults counts mm).length = counts.length := by
  induction counts generalizing mm with
  | nil => rfl
  | cons count counts ih => rw [allocResults, List.length_cons, ih, List.length_cons]

/-- As many calls succeed as there are free pages. -/
theorem allocResults_isOk_iff (counts : List U32) (mm : MmState) (i : ℕ)
    (hi : i < (allocResults counts mm).length) :
    (∃ pa, (allocResults counts mm)[i] = .ok pa) ↔ i < freePages mm := by
  induction counts generalizing mm i with
  | nil => exact absurd hi (Nat.not_lt_zero i)
  | cons count counts ih =>
    have hfirst : (∃ pa, (mmpAllocPageInternal mm count).2 = .ok pa) ↔ 0 < freePages mm :=
      (mmpAllocPageInternal_isOk_iff mm count).trans freePages_pos_iff.symm
    cases i with
    | zero => exact hfirst
    | succ i =>
      have hi' : i < (allocResults counts (mmpAllocPageInternal mm count).1).length := by
        simpa [allocResults] using hi
      refine (ih (mmpAllocPageInternal mm count).1 i hi').trans ?_
      rcases mmpAllocPageInternal_cases mm count with ⟨hfull, e, heq⟩ | ⟨page, hpage, hfree, heq⟩
      · have hnone : ¬0 < freePages mm := by
          rw [← hfirst, heq]
          rintro ⟨pa, h⟩
          cases h
        rw [heq]
        dsimp only
        omega
      · have htake : freePages (mm.takePage page count) + 1 = freePages mm :=
          freePages_takePage hpage hfree
        rw [heq]
        dsimp only
        omega

/-- A page that a later call returns was free. -/
theorem free_of_mem_allocResults {counts : List U32} (h : .ok pa ∈ allocResults counts mm) :
    ∃ page < mm.trackedPages, mmpIsPageAllocated mm page = false ∧ pa = pageAddress page := by
  induction counts generalizing mm with
  | nil => cases h
  | cons count counts ih =>
    rw [allocResults, List.mem_cons] at h
    rcases mmpAllocPageInternal_cases mm count with ⟨-, e, heq⟩ | ⟨page, hpage, hfree, heq⟩
    · rw [heq] at h
      rcases h with h | h
      · cases h
      · exact ih h
    · rw [heq] at h
      rcases h with h | h
      · cases h
        exact ⟨page, hpage, hfree, rfl⟩
      · obtain ⟨page', hpage', hfree', rfl⟩ := ih h
        rw [MmState.allocated_takePage, Bool.or_eq_false_iff] at hfree'
        exact ⟨page', hpage', hfree'.2, rfl⟩

/-- Calls one after another return different pages. -/
theorem allocResults_inj (counts : List U32) (mm : MmState) (i j : ℕ)
    (hi : i < (allocResults counts mm).length) (hj : j < (allocResults counts mm).length)
    (hij : i < j) (hi' : (allocResults counts mm)[i] = .ok pa)
    (hj' : (allocResults counts mm)[j] = .ok pa) : False := by
  induction counts generalizing mm i j with
  | nil => exact Nat.not_lt_zero i hi
  | cons count counts ih =>
    cases j with
    | zero => exact Nat.not_lt_zero i hij
    | succ j =>
      have hrest : j < (allocResults counts (mmpAllocPageInternal mm count).1).length := by
        simpa [allocResults] using hj
      have hlater : (allocResults counts (mmpAllocPageInternal mm count).1)[j] = .ok pa := hj'
      cases i with
      | succ i =>
        exact ih _ i j (by simpa [allocResults] using hi) hrest (Nat.lt_of_succ_lt_succ hij) hi'
          hlater
      | zero =>
        have hmem : .ok pa ∈ allocResults counts (mmpAllocPageInternal mm count).1 :=
          hlater ▸ List.getElem_mem _
        obtain ⟨page', hpage', hfree', hpa'⟩ := free_of_mem_allocResults hmem
        rcases mmpAllocPageInternal_cases mm count with ⟨-, e, heq⟩ | ⟨page, hpage, -, heq⟩
        · have hfirst : (mmpAllocPageInternal mm count).2 = .ok pa := hi'
          rw [heq] at hfirst
          cases hfirst
        · have hfirst : (mmpAllocPageInternal mm count).2 = .ok pa := hi'
          rw [heq] at hfirst hpage' hfree'
          rw [MmState.allocated_takePage, Bool.or_eq_false_iff, decide_eq_false_iff_not] at hfree'
          have hsame : pageAddress page = pageAddress page' :=
            (Except.ok.inj hfirst).trans hpa'
          exact hfree'.1 (pageAddress_inj hpage hpage' hsame).symm

/-- `MmpAllocPageInternal` succeeds exactly when a page is free, takes the first free page in cyclic
order and nothing else, and changes nothing when it fails; of calls one after another as many
succeed as there are free pages, with different pages. -/
theorem next_fit (mm : MmState) :
    (∀ initialRefCount, ((∃ pa, (mmpAllocPageInternal mm initialRefCount).2 = .ok pa) ↔
        ∃ page < mm.trackedPages, mmpIsPageAllocated mm page = false) ∧
      (∀ mm' pa, mmpAllocPageInternal mm initialRefCount = (mm', .ok pa) →
        ∃ page, pa = pageAddress page ∧ NextFit mm initialRefCount page mm') ∧
      ∀ mm' e, mmpAllocPageInternal mm initialRefCount = (mm', .error e) → mm' = mm) ∧
    ∀ counts : List U32,
      (∀ i (hi : i < (allocResults counts mm).length),
        (∃ pa, (allocResults counts mm)[i] = .ok pa) ↔ i < freePages mm) ∧
      ∀ i j pa (hi : i < (allocResults counts mm).length)
        (hj : j < (allocResults counts mm).length), i < j →
        (allocResults counts mm)[i] = .ok pa → (allocResults counts mm)[j] ≠ .ok pa := by
  refine ⟨fun count => ⟨mmpAllocPageInternal_isOk_iff mm count, fun mm' pa h => ?_,
    fun mm' e h => mmpAllocPageInternal_of_error h⟩, fun counts =>
    ⟨allocResults_isOk_iff counts mm, fun i j pa hi hj hij hi' hj' => ?_⟩⟩
  · obtain ⟨page, hpa, -, hfit⟩ := nextFit_of_ok h
    exact ⟨page, hpa, hfit⟩
  · exact allocResults_inj counts mm i j hi hj hij hi' hj'

end NtxKernel.Mm
