import Mathlib.Algebra.BigOperators.Group.Finset.Piecewise
import Mathlib.Data.Fintype.Card
import Mathlib.Data.Fintype.Basic
import Mathlib.Logic.Function.Basic

/-!
# Counting the cells of a table

A fixed table is a function from a finite index type. `countCells p f` is the number of cells of
the table `f` that satisfy `p`; overwriting one cell changes it by at most one, in the way
`countCells_update` says. Reference counts kept in a table next to the objects they count are
related to the table through this lemma.
-/

namespace NtxKernel.Foundations

variable {ι β : Type*} [Fintype ι] [DecidableEq ι]

/-- The number of cells of the table `f` that satisfy `p`. -/
@[irreducible]
def countCells (p : β → Bool) (f : ι → β) : ℕ :=
  (Finset.univ.filter fun i => p (f i)).card

omit [DecidableEq ι] in
theorem countCells_pos_iff {p : β → Bool} {f : ι → β} :
    0 < countCells p f ↔ ∃ i, p (f i) = true := by
  simp [countCells, Finset.card_pos, Finset.Nonempty]

omit [DecidableEq ι] in
theorem countCells_le_card (p : β → Bool) (f : ι → β) : countCells p f ≤ Fintype.card ι := by
  rw [countCells]
  exact Finset.card_le_univ _

omit [DecidableEq ι] in
theorem countCells_eq_sum (p : β → Bool) (f : ι → β) :
    countCells p f = ∑ i, if p (f i) then 1 else 0 := by
  rw [countCells, Finset.card_filter]

/-- Overwriting the cell `i` by `x` moves the count from the old cell to the new one. -/
theorem countCells_update (p : β → Bool) (f : ι → β) (i : ι) (x : β) :
    countCells p (Function.update f i x) + (if p (f i) then 1 else 0) =
      countCells p f + (if p x then 1 else 0) := by
  have hrest : ∑ j ∈ Finset.univ.erase i, (if p (Function.update f i x j) then 1 else 0) =
      ∑ j ∈ Finset.univ.erase i, if p (f j) then 1 else 0 := by
    apply Finset.sum_congr rfl
    intro j hj
    rw [Function.update_of_ne (Finset.ne_of_mem_erase hj)]
  rw [countCells_eq_sum, countCells_eq_sum, ← Finset.add_sum_erase _ _ (Finset.mem_univ i),
    ← Finset.add_sum_erase Finset.univ (fun j => if p (f j) then 1 else 0) (Finset.mem_univ i),
    hrest, Function.update_self]
  omega

end NtxKernel.Foundations
