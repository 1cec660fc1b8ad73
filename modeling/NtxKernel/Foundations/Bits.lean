import Mathlib.Data.Nat.Bits
import Mathlib.Tactic.NormNum

/-!
# Masks and alignment

Words as C code uses them: flags tested with a mask, fields cut out with a mask, addresses rounded
to a power of two.

* `hasFlag e m`: a bit of the mask `m` is set in `e`. Setting other bits, or clearing them, does
  not matter.
* `or_and_of_disjoint` and `and_not_and_of_disjoint`: what lies outside a mask does not change
  what the mask cuts out.
* `lowMask k`: the `k` low bits. Clearing them rounds down to a multiple of `2 ^ k`; clearing them
  after adding them rounds up.
* `toNat_and_shiftLeft_lowMask`: a field as a number.
-/

namespace NtxKernel.Foundations

variable {n : ℕ} {e f m : BitVec n}

/-! ## Flags -/

/-- A bit of the mask is set, `(e & m) != 0`. -/
def hasFlag (e m : BitVec n) : Bool := e &&& m != 0

theorem hasFlag_iff : hasFlag e m = true ↔ e &&& m ≠ 0 := bne_iff_ne

theorem hasFlag_eq_false : hasFlag e m = false ↔ e &&& m = 0 := bne_eq_false_iff_eq

theorem or_eq_zero_iff : e ||| f = 0 ↔ e = 0 ∧ f = 0 := by
  constructor
  · intro h
    have hbits : ∀ i, e.getLsbD i = false ∧ f.getLsbD i = false := by
      intro i
      have hi := congrArg (fun v => v.getLsbD i) h
      simpa using hi
    exact ⟨BitVec.eq_of_getLsbD_eq fun i _ => by simp [(hbits i).1],
      BitVec.eq_of_getLsbD_eq fun i _ => by simp [(hbits i).2]⟩
  · rintro ⟨rfl, rfl⟩
    exact BitVec.or_self

theorem or_and_of_disjoint (h : f &&& m = 0) : (e ||| f) &&& m = e &&& m := by
  rw [BitVec.and_or_distrib_right, h]
  exact BitVec.or_zero

theorem and_not_and_of_disjoint (h : f &&& m = 0) : e &&& ~~~f &&& m = e &&& m := by
  refine BitVec.eq_of_getLsbD_eq fun i hi => ?_
  have hbit := congrArg (fun v => v.getLsbD i) h
  simp only [BitVec.getLsbD_and] at hbit
  simp only [BitVec.getLsbD_and, BitVec.getLsbD_not, hi, decide_true, Bool.true_and]
  cases hf : f.getLsbD i
  · simp
  · rw [hf, Bool.true_and] at hbit
    simp [hbit]

theorem hasFlag_or : hasFlag (e ||| f) m = (hasFlag e m || hasFlag f m) := by
  rw [Bool.eq_iff_iff, Bool.or_eq_true, hasFlag_iff, hasFlag_iff, hasFlag_iff,
    BitVec.and_or_distrib_right, Ne, or_eq_zero_iff, not_and_or]

theorem hasFlag_or_of_disjoint (h : f &&& m = 0) : hasFlag (e ||| f) m = hasFlag e m := by
  rw [hasFlag, or_and_of_disjoint h, hasFlag]

theorem hasFlag_and_not_of_disjoint (h : f &&& m = 0) :
    hasFlag (e &&& ~~~f) m = hasFlag e m := by
  rw [hasFlag, and_not_and_of_disjoint h, hasFlag]

theorem hasFlag_and_not_self : hasFlag (e &&& ~~~m) m = false := by
  rw [hasFlag_eq_false, BitVec.and_assoc, BitVec.and_comm (~~~m) m, BitVec.and_not_self]
  exact BitVec.and_zero

/-- The two parts of a word that a mask cuts out add up to the word. -/
theorem toNat_and_add_toNat_and_not (v m : BitVec n) :
    (v &&& m).toNat + (v &&& ~~~m).toNat = v.toNat := by
  have hdisjoint : (v &&& m) &&& (v &&& ~~~m) = 0#n := by
    refine BitVec.eq_of_getLsbD_eq fun i hi => ?_
    simp only [BitVec.getLsbD_and, BitVec.getLsbD_not, BitVec.getLsbD_zero]
    cases v.getLsbD i <;> cases m.getLsbD i <;> simp
  rw [← BitVec.toNat_add_of_and_eq_zero hdisjoint, BitVec.add_eq_or_of_and_eq_zero _ _ hdisjoint]
  congr 1
  refine BitVec.eq_of_getLsbD_eq fun i hi => ?_
  simp only [BitVec.getLsbD_or, BitVec.getLsbD_and, BitVec.getLsbD_not, hi, decide_true,
    Bool.true_and]
  cases v.getLsbD i <;> cases m.getLsbD i <;> rfl

/-! ## Alignment -/

/-- The `k` low bits. -/
def lowMask (n k : ℕ) : BitVec n := BitVec.ofNat n (2 ^ k - 1)

theorem and_not_lowMask (v : BitVec n) (k : ℕ) : v &&& ~~~lowMask n k = v >>> k <<< k := by
  refine BitVec.eq_of_getLsbD_eq fun i hi => ?_
  simp only [lowMask, BitVec.getLsbD_and, BitVec.getLsbD_not, BitVec.getLsbD_ofNat, hi,
    decide_true, Bool.true_and, Nat.testBit_two_pow_sub_one, BitVec.getLsbD_shiftLeft,
    BitVec.getLsbD_ushiftRight]
  by_cases hik : i < k
  · simp [hik]
  · simp [hik, Nat.add_sub_cancel' (Nat.le_of_not_lt hik)]

/-- Clearing the low bits rounds down. -/
theorem toNat_and_not_lowMask (v : BitVec n) (k : ℕ) :
    (v &&& ~~~lowMask n k).toNat = v.toNat / 2 ^ k * 2 ^ k := by
  rw [and_not_lowMask, BitVec.toNat_shiftLeft, BitVec.toNat_ushiftRight, Nat.shiftRight_eq_div_pow,
    Nat.shiftLeft_eq, Nat.mod_eq_of_lt]
  exact (Nat.div_mul_le_self _ _).trans_lt v.isLt

/-- Adding the low bits first rounds up, unless the sum wraps. -/
theorem toNat_add_and_not_lowMask (v : BitVec n) {k : ℕ} (hk : k < n)
    (h : v.toNat + (2 ^ k - 1) < 2 ^ n) :
    ((v + lowMask n k) &&& ~~~lowMask n k).toNat = (v.toNat + (2 ^ k - 1)) / 2 ^ k * 2 ^ k := by
  have hmask : (lowMask n k).toNat = 2 ^ k - 1 := by
    rw [lowMask, BitVec.toNat_ofNat, Nat.mod_eq_of_lt]
    exact (Nat.sub_le _ _).trans_lt (Nat.pow_lt_pow_right (by decide) hk)
  rw [toNat_and_not_lowMask, BitVec.toNat_add, hmask, Nat.mod_eq_of_lt h]

/-! ## Fields -/

/-- The field of `len` bits from bit `lo` on. -/
theorem toNat_and_shiftLeft_lowMask (v : BitVec n) {lo len : ℕ} (h : lo + len ≤ n) :
    (v &&& (lowMask n len <<< lo)).toNat = v.toNat / 2 ^ lo % 2 ^ len * 2 ^ lo := by
  have hlen : len ≤ n := by omega
  have hmask : (lowMask n len <<< lo).toNat = (2 ^ len - 1) <<< lo := by
    have hpos := Nat.two_pow_pos len
    have hpow : 2 ^ len * 2 ^ lo ≤ 2 ^ n := by
      rw [← Nat.pow_add]
      exact Nat.pow_le_pow_right (by decide) (by omega)
    have hlt : (2 ^ len - 1) * 2 ^ lo < 2 ^ n := by
      refine lt_of_lt_of_le ?_ hpow
      exact Nat.mul_lt_mul_of_pos_right (by omega) (Nat.two_pow_pos lo)
    have hlt' : 2 ^ len - 1 < 2 ^ n :=
      lt_of_lt_of_le (by omega) (Nat.pow_le_pow_right (by decide) hlen)
    rw [BitVec.toNat_shiftLeft, lowMask, BitVec.toNat_ofNat, Nat.mod_eq_of_lt hlt',
      Nat.shiftLeft_eq, Nat.mod_eq_of_lt hlt]
  rw [BitVec.toNat_and, hmask]
  have hshift : v.toNat &&& (2 ^ len - 1) <<< lo =
      (v.toNat >>> lo &&& (2 ^ len - 1)) <<< lo := by
    refine Nat.eq_of_testBit_eq fun i => ?_
    simp only [Nat.testBit_and, Nat.testBit_shiftLeft, Nat.testBit_shiftRight]
    by_cases hi : lo ≤ i
    · simp [hi, Nat.add_sub_cancel' hi]
    · simp [hi]
  rw [hshift, Nat.and_two_pow_sub_one_eq_mod, Nat.shiftRight_eq_div_pow, Nat.shiftLeft_eq]

end NtxKernel.Foundations
