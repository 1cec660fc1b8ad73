import Mathlib.Data.Fin.Tuple.Basic

/-!
# First fit

The loop `for (Index = 0; Index < n; Index++) if (p(Index)) ...` that stops at the first index
that passes. `firstIndex p` is that index; the two equations below are all that is used of it.
-/

namespace NtxKernel.Foundations

variable {n : ℕ} {p : Fin n → Bool}

/-- The first index at which `p` holds. -/
@[irreducible]
def firstIndex (p : Fin n → Bool) : Option (Fin n) := Fin.find? p

theorem firstIndex_eq_some {i : Fin n} :
    firstIndex p = some i ↔ p i = true ∧ ∀ j < i, p j = false := by
  rw [firstIndex]
  exact Fin.find?_eq_some_iff

theorem firstIndex_eq_none : firstIndex p = none ↔ ∀ i, p i = false := by
  rw [firstIndex]
  exact Fin.find?_eq_none_iff

theorem firstIndex_sound {i : Fin n} (h : firstIndex p = some i) : p i = true :=
  (firstIndex_eq_some.1 h).1

end NtxKernel.Foundations
