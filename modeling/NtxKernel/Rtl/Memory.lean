import Mathlib.Data.List.Nodup
import Mathlib.Order.Nat
import Mathlib.Tactic.NormNum
import NtxKernel.Basic
import NtxKernel.Foundations.Overlap

/-!
# The memory routines

The routines of `kernel/rtl/memory.c`, over the bytes of the address space.

* `memmove_moves`: `memmove` is right for ranges that overlap in any way.
* `memcpy_moves`: where the destination is not a later byte of the source range, so is `memcpy`.
* `memset_fills` and `memcmp_eq_zero_iff` are about the other two.
-/

namespace NtxKernel.Rtl

open Foundations

/-- The bytes that the addresses hold. -/
abbrev Memory := U64 → UInt8

/-- The address of the byte `i` behind a pointer. -/
def offset (p : U64) (i : ℕ) : U64 := p + BitVec.ofNat 64 i

/-! ## The routines -/

/-- The loop that counts up, from the byte `i` on with `n` bytes to go. -/
def copyUp (dst src : U64) : ℕ → ℕ → Memory → Memory
  | 0, _, m => m
  | n + 1, i, m => copyUp dst src n (i + 1) (Function.update m (offset dst i) (m (offset src i)))

/-- The loop that counts down, with `n` bytes to go. -/
def copyDown (dst src : U64) : ℕ → Memory → Memory
  | 0, m => m
  | n + 1, m => copyDown dst src n (Function.update m (offset dst n) (m (offset src n)))

def memcpy (m : Memory) (dst src size : U64) : Memory × U64 :=
  (copyUp dst src size.toNat 0 m, dst)

def memmove (m : Memory) (dst src size : U64) : Memory × U64 :=
  if dst = src ∨ size = 0 then (m, dst)
  else if dst.toNat < src.toNat then (copyUp dst src size.toNat 0 m, dst)
  else (copyDown dst src size.toNat m, dst)

/-- The loop of `memset`, from the byte `i` on with `n` bytes to go. -/
def setUp (dst : U64) (v : UInt8) : ℕ → ℕ → Memory → Memory
  | 0, _, m => m
  | n + 1, i, m => setUp dst v n (i + 1) (Function.update m (offset dst i) v)

/-- `memset`, which keeps the low byte of the `int` that it is given. -/
def memset (m : Memory) (dst : U64) (value : U32) (size : U64) : Memory × U64 :=
  (setUp dst (UInt8.ofNat value.toNat) size.toNat 0 m, dst)

/-- The loop of `memcmp`, from the byte `i` on with `n` bytes to go. -/
def compareUp (m : Memory) (left right : U64) : ℕ → ℕ → Int
  | 0, _ => 0
  | n + 1, i =>
    if m (offset left i) ≠ m (offset right i) then
      (m (offset left i)).toNat - (m (offset right i)).toNat
    else compareUp m left right n (i + 1)

def memcmp (m : Memory) (left right size : U64) : Int := compareUp m left right size.toNat 0

/-! ## Addresses -/

theorem offset_toNat {p : U64} {i : ℕ} (h : p.toNat + i < 2 ^ 64) :
    (offset p i).toNat = p.toNat + i := by
  rw [offset, BitVec.toNat_add, BitVec.toNat_ofNat, Nat.add_mod_mod, Nat.mod_eq_of_lt h]

theorem offset_inj {p : U64} {i j : ℕ} (hi : i < 2 ^ 64) (hj : j < 2 ^ 64)
    (h : offset p i = offset p j) : i = j := by
  have hsame := congrArg (· - p) h
  simp only [offset, BitVec.add_comm p, BitVec.add_sub_cancel] at hsame
  have hnat := congrArg BitVec.toNat hsame
  rwa [BitVec.toNat_ofNat, BitVec.toNat_ofNat, Nat.mod_eq_of_lt hi, Nat.mod_eq_of_lt hj] at hnat

/-- The copies of a range, byte by byte. -/
def byteCopies (dst src : U64) (l : List ℕ) : List (U64 × U64) :=
  l.map fun i => (offset dst i, offset src i)

theorem copyUp_eq (dst src : U64) (n i : ℕ) (m : Memory) :
    copyUp dst src n i m = copyAll m (byteCopies dst src (List.range' i n)) := by
  induction n generalizing i m with
  | zero => rfl
  | succ n ih =>
    rw [copyUp, ih, List.range'_succ]
    rfl

theorem copyDown_eq (dst src : U64) (n : ℕ) (m : Memory) :
    copyDown dst src n m = copyAll m (byteCopies dst src (List.range n).reverse) := by
  induction n generalizing m with
  | zero => rfl
  | succ n ih =>
    rw [copyDown, ih, List.range_succ, List.reverse_append]
    rfl

variable {dst src size : U64} {l : List ℕ} {m : Memory} {a : U64}

/-- Copying the bytes in an order in which none is read after it was written. -/
theorem readsFirst_byteCopies (hl : ∀ i ∈ l, i < 2 ^ 64) (hnodup : l.Nodup)
    (hreads : l.Pairwise fun i j => offset src j ≠ offset dst i) :
    ReadsFirst (byteCopies dst src l) := by
  refine ⟨List.pairwise_map.2 hreads, List.pairwise_map.2 ?_⟩
  refine List.Pairwise.imp_of_mem (fun hi hj hne hsame => hne ?_) hnodup
  exact (offset_inj (hl _ hj) (hl _ hi) hsame).symm

/-- Counting up is right where the destination is lower. -/
theorem readsFirst_up (hsrc : src.toNat + size.toNat ≤ 2 ^ 64) (hlt : dst.toNat < src.toNat) :
    ReadsFirst (byteCopies dst src (List.range' 0 size.toNat)) := by
  have hmem : ∀ i ∈ List.range' 0 size.toNat, i < size.toNat := fun i hi => by
    have := List.mem_range'_1.1 hi
    omega
  have hsize := size.isLt
  refine readsFirst_byteCopies (fun i hi => Nat.lt_trans (hmem i hi) hsize) List.nodup_range' ?_
  refine List.Pairwise.imp_of_mem (fun {i j} hi hj hij hsame => ?_) List.pairwise_lt_range'
  have hnat := congrArg BitVec.toNat hsame
  have hj := hmem j hj
  rw [offset_toNat (by omega), offset_toNat (by omega)] at hnat
  omega

/-- Counting down is right where the destination is higher. -/
theorem readsFirst_down (hdst : dst.toNat + size.toNat ≤ 2 ^ 64) (hlt : src.toNat < dst.toNat) :
    ReadsFirst (byteCopies dst src (List.range size.toNat).reverse) := by
  have hmem : ∀ i ∈ (List.range size.toNat).reverse, i < size.toNat := fun i hi =>
    List.mem_range.1 (List.mem_reverse.1 hi)
  have hsize := size.isLt
  refine readsFirst_byteCopies (fun i hi => Nat.lt_trans (hmem i hi) hsize)
    (List.nodup_reverse.2 List.nodup_range) ?_
  refine List.Pairwise.imp_of_mem (fun {i j} hi hj hij hsame => ?_)
    (List.pairwise_reverse.2 List.pairwise_lt_range)
  have hnat := congrArg BitVec.toNat hsame
  have hi := hmem i hi
  rw [offset_toNat (by omega), offset_toNat (by omega)] at hnat
  omega

/-! ## What the routines do -/

/-- The bytes of the destination are those that the source held, and all others are as before. -/
def Moved (dst src size : U64) (m m' : Memory) : Prop :=
  (∀ i < size.toNat, m' (offset dst i) = m (offset src i)) ∧
    ∀ a : U64, a.toNat < dst.toNat ∨ dst.toNat + size.toNat ≤ a.toNat → m' a = m a

/-- Copies in a right order of all the bytes move them. -/
theorem moved_copyAll (hdst : dst.toNat + size.toNat ≤ 2 ^ 64)
    (h : ReadsFirst (byteCopies dst src l)) (hl : ∀ i, i ∈ l ↔ i < size.toNat) :
    Moved dst src size m (copyAll m (byteCopies dst src l)) := by
  constructor
  · intro i hi
    exact copyAll_of_mem h (List.mem_map_of_mem ((hl i).2 hi))
  · intro a ha
    refine copyAll_of_notMem fun p hp => ?_
    obtain ⟨i, hi, rfl⟩ := List.mem_map.1 hp
    rintro rfl
    have hi := (hl i).1 hi
    rw [offset_toNat (by omega)] at ha
    omega

/-- `memmove` moves the bytes, wherever the ranges lie, and returns the destination. -/
theorem memmove_moves (m : Memory) (dst src size : U64)
    (hdst : dst.toNat + size.toNat ≤ 2 ^ 64) (hsrc : src.toNat + size.toNat ≤ 2 ^ 64) :
    Moved dst src size m (memmove m dst src size).1 ∧ (memmove m dst src size).2 = dst := by
  rw [memmove]
  split
  next htrivial =>
    refine ⟨⟨fun i hi => ?_, fun a _ => rfl⟩, rfl⟩
    rcases htrivial with rfl | rfl
    · rfl
    · exact absurd hi (Nat.not_lt_zero i)
  next hne =>
  split
  next hlt =>
    refine ⟨?_, rfl⟩
    rw [copyUp_eq]
    refine moved_copyAll hdst (readsFirst_up hsrc hlt) fun i => ?_
    rw [List.mem_range'_1]
    omega
  next hge =>
    refine ⟨?_, rfl⟩
    have hlt : src.toNat < dst.toNat := by
      refine lt_of_le_of_ne (Nat.not_lt.1 hge) fun hsame => hne (.inl ?_)
      exact (BitVec.eq_of_toNat_eq hsame).symm
    rw [copyDown_eq]
    refine moved_copyAll hdst (readsFirst_down hdst hlt) fun i => ?_
    rw [List.mem_reverse, List.mem_range]

/-- Two ranges of sixteen bytes, eight bytes apart at the top of the address space. -/
theorem memmove_moves_overlap :
    Moved 0xFFFFFFFFFFFFFFF0 0xFFFFFFFFFFFFFFE8 16 (fun a => UInt8.ofNat a.toNat)
        (memmove (fun a => UInt8.ofNat a.toNat) 0xFFFFFFFFFFFFFFF0 0xFFFFFFFFFFFFFFE8 16).1 ∧
      (memmove (fun a => UInt8.ofNat a.toNat) 0xFFFFFFFFFFFFFFF0 0xFFFFFFFFFFFFFFE8 16).2 =
        0xFFFFFFFFFFFFFFF0 :=
  memmove_moves _ 0xFFFFFFFFFFFFFFF0 0xFFFFFFFFFFFFFFE8 16 (by decide) (by decide)

/-- Where the destination is not a later byte of the source range, `memcpy` moves the bytes too. -/
theorem memcpy_moves (hdst : dst.toNat + size.toNat ≤ 2 ^ 64)
    (hsrc : src.toNat + size.toNat ≤ 2 ^ 64)
    (hapart : dst.toNat < src.toNat ∨ src.toNat + size.toNat ≤ dst.toNat) :
    Moved dst src size m (memcpy m dst src size).1 := by
  rw [memcpy, copyUp_eq]
  refine moved_copyAll hdst ?_ fun i => ?_
  · by_cases hlt : dst.toNat < src.toNat
    · exact readsFirst_up hsrc hlt
    have hge := hapart.resolve_left hlt
    have hsize := size.isLt
    have hmem : ∀ i ∈ List.range' 0 size.toNat, i < size.toNat := fun i hi => by
      have := List.mem_range'_1.1 hi
      omega
    refine readsFirst_byteCopies (fun i hi => Nat.lt_trans (hmem i hi) hsize) List.nodup_range' ?_
    refine List.Pairwise.imp_of_mem (fun {i j} hi hj hij hsame => ?_) List.pairwise_lt_range'
    have hnat := congrArg BitVec.toNat hsame
    have hi := hmem i hi
    have hj := hmem j hj
    rw [offset_toNat (by omega), offset_toNat (by omega)] at hnat
    omega
  · rw [List.mem_range'_1]
    omega

/-- A byte that the loop of `memset` does not reach keeps its value. -/
theorem setUp_of_ne {v : UInt8} {n i : ℕ} (h : ∀ j, i ≤ j → j < i + n → offset dst j ≠ a) :
    setUp dst v n i m a = m a := by
  induction n generalizing i m with
  | zero => rfl
  | succ n ih =>
    rw [setUp, ih fun j hij hj => h j (by omega) (by omega)]
    exact Function.update_of_ne (h i le_rfl (by omega)).symm _ _

theorem setUp_of_lt {v : UInt8} {n i j : ℕ} (hn : i + n ≤ 2 ^ 64) (hij : i ≤ j) (hj : j < i + n) :
    setUp dst v n i m (offset dst j) = v := by
  induction n generalizing i m with
  | zero => omega
  | succ n ih =>
    rw [setUp]
    by_cases hfirst : j = i
    · subst hfirst
      rw [setUp_of_ne fun k hk hlt hsame => ?_, Function.update_self]
      have := offset_inj (by omega) (by omega) hsame
      omega
    · exact ih (by omega) (by omega) (by omega)

/-- `memset` sets the bytes of the range, and no other. -/
theorem memset_fills (m : Memory) (dst size : U64) (value : U32)
    (hdst : dst.toNat + size.toNat ≤ 2 ^ 64) :
    (∀ i < size.toNat, (memset m dst value size).1 (offset dst i) = UInt8.ofNat value.toNat) ∧
      ∀ a : U64, a.toNat < dst.toNat ∨ dst.toNat + size.toNat ≤ a.toNat →
        (memset m dst value size).1 a = m a := by
  have hsize := size.isLt
  constructor
  · exact fun i hi => setUp_of_lt (by omega) (Nat.zero_le i) (by omega)
  · intro a ha
    refine setUp_of_ne fun i _ hi => ?_
    rintro rfl
    rw [offset_toNat (by omega)] at ha
    omega

theorem compareUp_eq_zero_iff (m : Memory) (left right : U64) (n i : ℕ) :
    compareUp m left right n i = 0 ↔
      ∀ j, i ≤ j → j < i + n → m (offset left j) = m (offset right j) := by
  induction n generalizing i with
  | zero => exact ⟨fun _ j hij hj => by omega, fun _ => rfl⟩
  | succ n ih =>
    rw [compareUp]
    by_cases hsame : m (offset left i) = m (offset right i)
    · rw [if_neg (not_not.2 hsame), ih]
      constructor
      · intro h j hij hj
        by_cases hfirst : j = i
        · rw [hfirst, hsame]
        · exact h j (by omega) (by omega)
      · exact fun h j hij hj => h j (by omega) (by omega)
    · rw [if_pos hsame]
      constructor
      · intro hzero
        refine absurd (UInt8.toNat_inj.1 ?_) hsame
        omega
      · exact fun h => absurd (h i le_rfl (by omega)) hsame

/-- `memcmp` returns zero iff the ranges hold the same bytes. -/
theorem memcmp_eq_zero_iff (m : Memory) (left right size : U64) :
    memcmp m left right size = 0 ↔
      ∀ i < size.toNat, m (offset left i) = m (offset right i) := by
  rw [memcmp, compareUp_eq_zero_iff]
  exact ⟨fun h i hi => h i (Nat.zero_le i) (by omega), fun h i _ hi => h i (by omega)⟩

end NtxKernel.Rtl
