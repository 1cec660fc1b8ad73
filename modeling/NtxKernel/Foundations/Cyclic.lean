import Mathlib.Data.Nat.Find
import Mathlib.Tactic.Common

/-!
# Searching in cyclic order

The search of a next-fit allocator: of `n` places on a circle, the first one from a cursor on
where a predicate holds.

* `cyclicFind p n start k c` looks at `k` places from the `c`-th after the cursor on.
* `cyclicFind_eq_some` and `cyclicFind_eq_none`: a whole turn finds the first place where the
  predicate holds, and finds none only if there is none.
-/

namespace NtxKernel.Foundations

variable {p : ℕ → Bool} {n start : ℕ}

/-- The first of the places `start + c`, ..., `start + c + k - 1`, modulo `n`, with `p`. -/
def cyclicFind (p : ℕ → Bool) (n start : ℕ) : ℕ → ℕ → Option ℕ
  | 0, _ => none
  | k + 1, c =>
    if p ((start + c) % n) then some ((start + c) % n) else cyclicFind p n start k (c + 1)

theorem cyclicFind_eq_some {k c q : ℕ} : cyclicFind p n start k c = some q ↔
    ∃ d, c ≤ d ∧ d < c + k ∧ q = (start + d) % n ∧ p q = true ∧
      ∀ e, c ≤ e → e < d → p ((start + e) % n) = false := by
  induction k generalizing c with
  | zero =>
    rw [cyclicFind]
    constructor
    · exact fun h => by cases h
    · rintro ⟨d, hcd, hdc, -⟩
      omega
  | succ k ih =>
    rw [cyclicFind]
    by_cases hp : p ((start + c) % n) = true
    · rw [if_pos hp]
      constructor
      · intro h
        obtain rfl := Option.some.inj h
        exact ⟨c, le_rfl, by omega, rfl, hp, fun e hce hec => by omega⟩
      · rintro ⟨d, hcd, -, rfl, -, hmin⟩
        rcases Nat.eq_or_lt_of_le hcd with rfl | hlt
        · rfl
        · cases hp.symm.trans (hmin c le_rfl hlt)
    · rw [if_neg hp, ih]
      constructor
      · rintro ⟨d, hcd, hdk, hq, hpq, hmin⟩
        refine ⟨d, by omega, by omega, hq, hpq, fun e hce hed => ?_⟩
        rcases Nat.eq_or_lt_of_le hce with rfl | hlt
        · simpa using hp
        · exact hmin e hlt hed
      · rintro ⟨d, hcd, hdk, hq, hpq, hmin⟩
        have hne : c ≠ d := by
          rintro rfl
          rw [hq] at hpq
          exact hp hpq
        exact ⟨d, by omega, by omega, hq, hpq, fun e hce hed => hmin e (by omega) hed⟩

theorem cyclicFind_eq_none {k c : ℕ} : cyclicFind p n start k c = none ↔
    ∀ d, c ≤ d → d < c + k → p ((start + d) % n) = false := by
  induction k generalizing c with
  | zero =>
    rw [cyclicFind]
    exact iff_of_true rfl fun d hcd hdc => by omega
  | succ k ih =>
    rw [cyclicFind]
    by_cases hp : p ((start + c) % n) = true
    · rw [if_pos hp]
      refine iff_of_false (Option.some_ne_none _) fun h => ?_
      cases hp.symm.trans (h c le_rfl (by omega))
    · rw [if_neg hp, ih]
      constructor
      · intro h d hcd hdk
        rcases Nat.eq_or_lt_of_le hcd with rfl | hlt
        · simpa using hp
        · exact h d hlt (by omega)
      · exact fun h d hcd hdk => h d (by omega) (by omega)

/-- Every place is met in a turn. -/
theorem exists_cyclic (start : ℕ) {q : ℕ} (hq : q < n) : ∃ d < n, q = (start + d) % n := by
  have hn : 0 < n := Nat.zero_lt_of_lt hq
  have hmod : start % n < n := Nat.mod_lt _ hn
  have hsplit : n * (start / n) + start % n = start := Nat.div_add_mod start n
  by_cases hle : start % n ≤ q
  · refine ⟨q - start % n, by omega, ?_⟩
    have hsum : start + (q - start % n) = q + n * (start / n) := by omega
    rw [hsum, Nat.add_mul_mod_self_left, Nat.mod_eq_of_lt hq]
  · refine ⟨q + n - start % n, by omega, ?_⟩
    have hsum : start + (q + n - start % n) = q + n * (start / n + 1) := by
      rw [Nat.mul_add]
      omega
    rw [hsum, Nat.add_mul_mod_self_left, Nat.mod_eq_of_lt hq]

/-- A whole turn finds nothing only if there is nothing. -/
theorem cyclicFind_turn_eq_none :
    cyclicFind p n start n 0 = none ↔ ∀ q < n, p q = false := by
  rw [cyclicFind_eq_none]
  constructor
  · intro h q hq
    obtain ⟨d, hd, rfl⟩ := exists_cyclic start hq
    exact h d (Nat.zero_le d) (by omega)
  · intro h d _ hd
    exact h _ (Nat.mod_lt _ (by omega))

/-- What a whole turn finds is a place with the predicate. -/
theorem cyclicFind_sound {q : ℕ} (h : cyclicFind p n start n 0 = some q) : q < n ∧ p q = true := by
  obtain ⟨d, -, hd, rfl, hp, -⟩ := cyclicFind_eq_some.1 h
  exact ⟨Nat.mod_lt _ (by omega), hp⟩

end NtxKernel.Foundations
