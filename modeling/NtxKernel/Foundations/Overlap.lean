import Mathlib.Data.List.Basic
import Mathlib.Logic.Function.Basic

/-!
# Copying one cell after the other

A memory whose cells are copied to other cells of the same memory, in some order. The outcome is
that of copying all at once where no cell is read after it was written.

* `copyAll m l` makes the copies of the list `l` of destinations and sources.
* `copyAll_of_mem` and `copyAll_of_notMem` say what each cell holds then.
-/

namespace NtxKernel.Foundations

variable {A B : Type}

/-- No cell is written twice, or read after it was written. -/
structure ReadsFirst (l : List (A × A)) : Prop where
  reads : l.Pairwise fun p q => q.2 ≠ p.1
  writes : l.Pairwise fun p q => q.1 ≠ p.1

variable {m : A → B} {l : List (A × A)} {p : A × A} {a : A}

theorem ReadsFirst.tail (h : ReadsFirst (p :: l)) : ReadsFirst l :=
  ⟨(List.pairwise_cons.1 h.reads).2, (List.pairwise_cons.1 h.writes).2⟩

variable [DecidableEq A]

/-- Copy the cell `p.2` to the cell `p.1`, for every `p` of the list in turn. -/
def copyAll (m : A → B) (l : List (A × A)) : A → B :=
  l.foldl (fun m p => Function.update m p.1 (m p.2)) m

/-- A cell that is no destination keeps its value. -/
theorem copyAll_of_notMem (h : ∀ p ∈ l, p.1 ≠ a) : copyAll m l a = m a := by
  induction l generalizing m with
  | nil => rfl
  | cons q l ih =>
    have hrest := ih (m := Function.update m q.1 (m q.2)) fun p hp => h p (List.mem_cons_of_mem q hp)
    rw [copyAll, List.foldl_cons]
    exact hrest.trans (Function.update_of_ne (h q List.mem_cons_self).symm _ _)

/-- A destination holds what its source held before. -/
theorem copyAll_of_mem (h : ReadsFirst l) (hp : p ∈ l) : copyAll m l p.1 = m p.2 := by
  induction l generalizing m with
  | nil => cases hp
  | cons q l ih =>
    rw [copyAll, List.foldl_cons]
    rcases List.mem_cons.1 hp with rfl | hp
    · -- no later copy writes to the destination of the first one
      have hkept := copyAll_of_notMem (m := Function.update m p.1 (m p.2))
        (List.pairwise_cons.1 h.writes).1
      exact hkept.trans (Function.update_self ..)
    · have hread := (List.pairwise_cons.1 h.reads).1 p hp
      exact (ih h.tail hp).trans (Function.update_of_ne hread _ _)

end NtxKernel.Foundations
