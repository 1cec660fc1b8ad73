import Mathlib.Data.List.Basic
import Mathlib.Tactic.NormNum

/-!
# Little-endian bytes

Numbers written as bytes, the lowest byte first, and read back from a list of bytes.

* `Bytes.ofNat k n` are the `k` bytes of `n`, and `Bytes.toNat` is the number that bytes spell.
* `Bytes.read f i k` is the number that the `k` bytes of `f` from the position `i` on spell.
  `read_append_left` and `read_append_right` say in which part of a file a field is read.
* `Bytes.fields` writes numbers of given widths one behind the other, and `read_fields` reads the
  `i`-th of them.
-/

namespace NtxKernel.Foundations.Bytes

/-- The `k` lowest bytes of a number, the lowest one first. -/
def ofNat : ℕ → ℕ → List UInt8
  | 0, _ => []
  | k + 1, n => UInt8.ofNat n :: ofNat k (n / 256)

/-- The number that bytes spell. -/
def toNat : List UInt8 → ℕ
  | [] => 0
  | b :: l => b.toNat + 256 * toNat l

@[simp]
theorem length_ofNat (k n : ℕ) : (ofNat k n).length = k := by
  induction k generalizing n with
  | zero => rfl
  | succ k ih => rw [ofNat, List.length_cons, ih]

theorem toNat_lt (l : List UInt8) : toNat l < 256 ^ l.length := by
  induction l with
  | nil => exact Nat.one_pos
  | cons b l ih =>
    have hb : b.toNat < 256 := b.toNat_lt
    rw [toNat, List.length_cons, Nat.pow_succ]
    omega

/-- Reading what was written. -/
theorem toNat_ofNat (k n : ℕ) : toNat (ofNat k n) = n % 256 ^ k := by
  induction k generalizing n with
  | zero => rw [Nat.pow_zero, Nat.mod_one]; rfl
  | succ k ih =>
    have hb : (UInt8.ofNat n).toNat = n % 256 := UInt8.toNat_ofNat'
    rw [ofNat, toNat, ih, hb, Nat.pow_succ', Nat.mod_mul]

/-- The number that the bytes `i, …, i + k - 1` spell. -/
def read (f : List UInt8) (i k : ℕ) : ℕ := toNat ((f.drop i).take k)

variable {f g : List UInt8} {i k : ℕ}

theorem read_append_left (h : i + k ≤ f.length) : read (f ++ g) i k = read f i k := by
  rw [read, read, List.drop_append_of_le_length (by omega), List.take_append_of_le_length]
  rw [List.length_drop]
  omega

theorem read_append_right : read (f ++ g) (f.length + i) k = read g i k := by
  rw [read, read, List.drop_append, List.drop_eq_nil_of_le (by omega), List.nil_append,
    Nat.add_sub_cancel_left]

theorem read_ofNat (k n : ℕ) (g : List UInt8) : read (ofNat k n ++ g) 0 k = n % 256 ^ k := by
  rw [read, List.drop_zero, ← toNat_ofNat]
  exact congrArg toNat (List.take_left' (length_ofNat k n))

theorem ofNat_eq_map (k n : ℕ) :
    ofNat k n = (List.range k).map fun j => UInt8.ofNat (n / 256 ^ j) := by
  induction k generalizing n with
  | zero => rfl
  | succ k ih =>
    rw [ofNat, ih, List.range_succ_eq_map, List.map_cons, List.map_map, Nat.pow_zero, Nat.div_one]
    refine congrArg _ (List.map_congr_left fun j _ => ?_)
    rw [Function.comp_apply, Nat.div_div_eq_div_mul, ← Nat.pow_succ']

theorem ofNat_zero (k : ℕ) : ofNat k 0 = List.replicate k 0 := by
  induction k with
  | zero => rfl
  | succ k ih => rw [ofNat, ih, List.replicate_succ]; rfl

/-- A word from the number that its bytes spell. -/
theorem bitVec_of_mod {w k : ℕ} (v : BitVec w) (h : 256 ^ k = 2 ^ w) :
    BitVec.ofNat w (v.toNat % 256 ^ k) = v := by
  rw [h, Nat.mod_eq_of_lt v.isLt, BitVec.ofNat_toNat, BitVec.setWidth_eq]

/-! ## Fields -/

/-- Numbers of given widths, one behind the other. -/
def fields (l : List (ℕ × ℕ)) : List UInt8 := l.flatMap fun field => ofNat field.1 field.2

/-- The widths of the fields together. -/
def width (l : List (ℕ × ℕ)) : ℕ := (l.map Prod.fst).sum

theorem width_append (l l' : List (ℕ × ℕ)) : width (l ++ l') = width l + width l' := by
  rw [width, List.map_append, List.sum_append, width, width]

theorem fields_append (l l' : List (ℕ × ℕ)) : fields (l ++ l') = fields l ++ fields l' :=
  List.flatMap_append

theorem fields_cons (field : ℕ × ℕ) (l : List (ℕ × ℕ)) :
    fields (field :: l) = ofNat field.1 field.2 ++ fields l := rfl

@[simp]
theorem length_fields (l : List (ℕ × ℕ)) : (fields l).length = width l := by
  induction l with
  | nil => rfl
  | cons field l ih =>
    rw [fields_cons, List.length_append, length_ofNat, ih, width, width, List.map_cons,
      List.sum_cons]

/-- Reading the `i`-th field. -/
theorem read_fields {l : List (ℕ × ℕ)} {i k v : ℕ} (h : l[i]? = some (k, v))
    (rest : List UInt8) : read (fields l ++ rest) (width (l.take i)) k = v % 256 ^ k := by
  induction l generalizing i with
  | nil => cases h
  | cons first l ih =>
    cases i with
    | zero =>
      obtain rfl := Option.some.inj h
      rw [fields_cons, List.append_assoc]
      exact read_ofNat k v _
    | succ i =>
      have hwidth : width ((first :: l).take (i + 1)) =
          (ofNat first.1 first.2).length + width (l.take i) := by
        rw [length_ofNat, List.take_succ_cons, width, List.map_cons, List.sum_cons]
        rfl
      rw [fields_cons, List.append_assoc, hwidth, read_append_right]
      exact ih h

/-- The position of a field depends on the widths alone. -/
theorem width_take {l : List (ℕ × ℕ)} {widths : List ℕ} (h : l.map Prod.fst = widths) (i : ℕ) :
    width (l.take i) = (widths.take i).sum := by
  rw [width, List.map_take, h]

end NtxKernel.Foundations.Bytes
