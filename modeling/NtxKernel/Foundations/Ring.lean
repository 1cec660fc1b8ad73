import Mathlib.Algebra.Group.Fin.Basic
import Mathlib.Data.List.Basic
import Mathlib.Data.List.Induction
import Mathlib.Logic.Function.Basic
import Mathlib.Tactic.NormNum

/-!
# Ring buffers

A buffer of `n` cells used as a queue: the elements lie from the position `head` on, and positions
wrap. `contents` is the list of the elements; writing behind the last one appends to it and
advancing the head takes the first one off.

A buffer of which only the last elements matter is written to without end: `write k buffer l` writes
the elements of `l` from the `k`-th place on, and by `write_last` the last `n` of them are there.
-/

namespace NtxKernel.Foundations.Ring

variable {α : Type*} {n : ℕ} [NeZero n] {buffer : Fin n → α} {head : Fin n} {count : ℕ}

/-- The elements, from the first to the last. -/
def contents (buffer : Fin n → α) (head : Fin n) (count : ℕ) : List α :=
  (List.range count).map fun i => buffer (head + Fin.ofNat n i)

@[simp]
theorem length_contents : (contents buffer head count).length = count := by
  rw [contents, List.length_map, List.length_range]

@[simp]
theorem contents_zero : contents buffer head 0 = [] := rfl

theorem ofNat_succ (i : ℕ) : Fin.ofNat n (i + 1) = 1 + Fin.ofNat n i := by
  refine Fin.ext ?_
  simp only [Fin.val_add, Fin.val_ofNat, Fin.val_one', Nat.add_mod_mod, Nat.mod_add_mod]
  rw [Nat.add_comm]

/-- Cells at different offsets below the size of the buffer are different. -/
theorem add_ofNat_ne {i j : ℕ} (hi : i < n) (hj : j < n) (hij : i ≠ j) :
    head + Fin.ofNat n i ≠ head + Fin.ofNat n j := by
  intro heq
  have hval := congrArg Fin.val (add_left_cancel heq)
  simp only [Fin.val_ofNat, Nat.mod_eq_of_lt hi, Nat.mod_eq_of_lt hj] at hval
  exact hij hval

/-- Writing to the cell behind the last element appends. -/
theorem contents_push (hcount : count < n) (x : α) :
    contents (Function.update buffer (head + Fin.ofNat n count) x) head (count + 1) =
      contents buffer head count ++ [x] := by
  rw [contents, List.range_succ, List.map_append, List.map_singleton, Function.update_self]
  congr 1
  refine List.map_congr_left fun i hi => ?_
  have hlt := List.mem_range.1 hi
  rw [Function.update_of_ne (add_ofNat_ne (hlt.trans hcount) hcount hlt.ne)]

/-- Advancing the head takes the first element off. -/
theorem contents_pop :
    contents buffer head (count + 1) = buffer head :: contents buffer (head + 1) count := by
  rw [contents, List.range_succ_eq_map, List.map_cons, List.map_map, contents]
  have hzero : head + Fin.ofNat n 0 = head := by
    rw [show Fin.ofNat n 0 = 0 from rfl, add_zero]
  rw [hzero]
  congr 1
  refine List.map_congr_left fun i _ => ?_
  rw [Function.comp_apply, Nat.succ_eq_add_one, ofNat_succ, add_assoc]

/-- The cell behind the last element moves on when an element is appended. -/
theorem add_ofNat_succ : head + Fin.ofNat n (count + 1) = head + Fin.ofNat n count + 1 := by
  rw [ofNat_succ, add_comm 1, add_assoc]

/-- It stays where it is when the first element is taken off. -/
theorem succ_add_ofNat : head + 1 + Fin.ofNat n count = head + Fin.ofNat n (count + 1) := by
  rw [ofNat_succ, add_assoc]

/-! ## Writing without end -/

/-- The cell of the `i`-th place. -/
def cell (n : ℕ) [NeZero n] (i : ℕ) : Fin n := Fin.ofNat n i

/-- Write the values of a list to the places from the `k`-th on. -/
def write (k : ℕ) (cells : Fin n → α) : List α → Fin n → α
  | [] => cells
  | x :: l => write (k + 1) (Function.update cells (cell n k) x) l

theorem cell_eq_iff {i j : ℕ} : cell n i = cell n j ↔ i % n = j % n :=
  Fin.ext_iff

/-- Two places that are less than a turn apart have different cells. -/
theorem cell_ne {i j : ℕ} (hlt : i < j) (hturn : j < i + n) : cell n i ≠ cell n j := by
  rw [Ne, cell_eq_iff]
  intro hsame
  have hzero := Nat.sub_mod_eq_zero_of_mod_eq hsame.symm
  rw [Nat.mod_eq_of_lt (by omega)] at hzero
  omega

theorem write_append (k : ℕ) (cells : Fin n → α) (l : List α) (x : α) :
    write k cells (l ++ [x]) =
      Function.update (write k cells l) (cell n (k + l.length)) x := by
  induction l generalizing k cells with
  | nil => rfl
  | cons y l ih =>
    rw [List.cons_append, write, ih, write, List.length_cons]
    congr 2
    omega

/-- The last `n` values are at their places. -/
theorem write_last (k : ℕ) (cells : Fin n → α) (l : List α) {i : ℕ} (hi : i < l.length)
    (hlast : l.length ≤ i + n) : write k cells l (cell n (k + i)) = l[i] := by
  induction l using List.reverseRecOn with
  | nil => cases hi
  | append_singleton l x ih =>
    rw [List.length_append, List.length_singleton] at hi hlast
    rw [write_append]
    rcases Nat.lt_succ_iff_lt_or_eq.1 hi with hlt | rfl
    · rw [Function.update_of_ne (cell_ne (by omega) (by omega)), ih hlt (by omega),
        List.getElem_append_left hlt]
    · rw [Function.update_self, List.getElem_append_right le_rfl]
      simp only [Nat.sub_self, List.getElem_singleton]

end NtxKernel.Foundations.Ring
