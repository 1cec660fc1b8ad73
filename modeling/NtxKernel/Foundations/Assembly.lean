import Mathlib.Data.BitVec
import Mathlib.Logic.Function.Basic

/-!
# Assembly code

A processor with sixteen registers over a memory of quadwords, and the instructions that code needs
which saves registers, restores them and leaves to another place. All accesses are to aligned
quadwords, so that memory is a function of the address of the quadword.

* `Instr.perform` is the meaning of an instruction, `exec` that of a block of them. A block has no
  position of its own: `rip` is where the processor goes on once the block has left.
* `storeAll` writes quadwords one after another; `storeAll_apply` and `storeAll_of_ne` say what lies
  there afterwards and what stays.
-/

namespace NtxKernel.Foundations

/-- The registers. -/
inductive Reg
  | rax | rbx | rcx | rdx | rsi | rdi | rbp | rsp | r8 | r9 | r10 | r11 | r12 | r13 | r14 | r15
  deriving DecidableEq

/-- The processor and its memory. -/
structure Machine where
  reg : Reg → BitVec 64
  rip : BitVec 64
  rflags : BitVec 64
  cs : BitVec 64
  ss : BitVec 64
  mem : BitVec 64 → BitVec 64

namespace Machine

variable (m : Machine)

/-- Write a register. -/
def set (r : Reg) (v : BitVec 64) : Machine := { m with reg := Function.update m.reg r v }

/-- Write a quadword. -/
def write (a v : BitVec 64) : Machine := { m with mem := Function.update m.mem a v }

@[simp] theorem rflags_set (r : Reg) (v : BitVec 64) : (m.set r v).rflags = m.rflags := rfl

@[simp] theorem reg_write (a v : BitVec 64) : (m.write a v).reg = m.reg := rfl

@[simp] theorem rflags_write (a v : BitVec 64) : (m.write a v).rflags = m.rflags := rfl

/-- Put a value on the stack. -/
def push (v : BitVec 64) : Machine := (m.write (m.reg .rsp - 8) v).set .rsp (m.reg .rsp - 8)

/-- The value on the stack. -/
def top : BitVec 64 := m.mem (m.reg .rsp)

/-- Take a value off the stack. -/
def drop : Machine := m.set .rsp (m.reg .rsp + 8)

end Machine

/-- The status flags: carry, parity, adjust, zero, sign and overflow. -/
def statusFlags : BitVec 64 := 0x8D5

/-- The instructions. `test` gives the status flags of a register that it is told. -/
inductive Instr
  | mov (dst src : Reg)
  | store (base : Reg) (disp : BitVec 64) (src : Reg)
  | load (dst base : Reg) (disp : BitVec 64)
  | lea (dst : Reg) (label : BitVec 64)
  | push (src : Reg)
  | pop (dst : Reg)
  | pushf
  | popf
  | orTop (value : BitVec 64)
  | test (status : BitVec 64)
  | jmp (target : Reg)
  | iret

/-- Carry out an instruction. -/
def Instr.perform (m : Machine) : Instr → Machine
  | mov dst src => m.set dst (m.reg src)
  | store base disp src => m.write (m.reg base + disp) (m.reg src)
  | load dst base disp => m.set dst (m.mem (m.reg base + disp))
  | lea dst label => m.set dst label
  | push src => m.push (m.reg src)
  | pop dst => m.drop.set dst m.top
  | pushf => m.push m.rflags
  | popf => { m.drop with rflags := m.top }
  | orTop value => m.write (m.reg .rsp) (m.top ||| value)
  | test status => { m with rflags := m.rflags &&& ~~~statusFlags ||| status &&& statusFlags }
  | jmp target => { m with rip := m.reg target }
  | iret =>
    { m.set .rsp (m.mem (m.reg .rsp + 24)) with
      rip := m.top
      cs := m.mem (m.reg .rsp + 8)
      rflags := m.mem (m.reg .rsp + 16)
      ss := m.mem (m.reg .rsp + 32) }

/-- Carry out a block. -/
def exec (code : List Instr) (m : Machine) : Machine := code.foldl Instr.perform m

theorem exec_append (code code' : List Instr) (m : Machine) :
    exec (code ++ code') m = exec code' (exec code m) := List.foldl_append

/-! ## The stack -/

section Stack

variable (m : Machine)

theorem reg_push {r : Reg} (hr : r ≠ .rsp) (v : BitVec 64) : (m.push v).reg r = m.reg r :=
  Function.update_of_ne hr _ _

@[simp] theorem rflags_push (v : BitVec 64) : (m.push v).rflags = m.rflags := rfl

/-- Changing the value on the stack. -/
theorem orTop_push (v w : BitVec 64) : Instr.perform (m.push v) (.orTop w) = m.push (v ||| w) := by
  simp [Instr.perform, Machine.push, Machine.set, Machine.write, Machine.top]

/-- Going where the stack says. -/
theorem iret_push (ss rsp rflags cs rip : BitVec 64) :
    Instr.perform (((((m.push ss).push rsp).push rflags).push cs).push rip) .iret =
      { m.set .rsp rsp with
        rip := rip
        cs := cs
        rflags := rflags
        ss := ss
        mem := (((((m.push ss).push rsp).push rflags).push cs).push rip).mem } := by
  simp [Instr.perform, Machine.push, Machine.set, Machine.write, Machine.top,
    Function.update_idem, BitVec.sub_eq_add_neg, BitVec.add_assoc]

end Stack

/-! ## Records of quadwords -/

/-- Write quadwords one after another, from the quadword `k` behind `p` on. -/
def storeAll (p : BitVec 64) : ℕ → List (BitVec 64) → (BitVec 64 → BitVec 64) →
    BitVec 64 → BitVec 64
  | _, [], mem => mem
  | k, v :: vs, mem => storeAll p (k + 1) vs (Function.update mem (p + BitVec.ofNat 64 (8 * k)) v)

theorem quadword_inj {p : BitVec 64} {i j : ℕ} (hi : 8 * i < 2 ^ 64) (hj : 8 * j < 2 ^ 64)
    (h : p + BitVec.ofNat 64 (8 * i) = p + BitVec.ofNat 64 (8 * j)) : i = j := by
  have hcancel := congrArg BitVec.toNat (add_left_cancel h)
  rw [BitVec.toNat_ofNat, BitVec.toNat_ofNat, Nat.mod_eq_of_lt hi, Nat.mod_eq_of_lt hj] at hcancel
  omega

/-- Quadwords elsewhere stay. -/
theorem storeAll_of_ne {p a : BitVec 64} {k : ℕ} {vs : List (BitVec 64)}
    {mem : BitVec 64 → BitVec 64}
    (h : ∀ i, k ≤ i → i < k + vs.length → a ≠ p + BitVec.ofNat 64 (8 * i)) :
    storeAll p k vs mem a = mem a := by
  induction vs generalizing k mem with
  | nil => rfl
  | cons v vs ih =>
    rw [List.length_cons] at h
    rw [storeAll, ih fun i hi hlt => h i (by omega) (by omega)]
    exact Function.update_of_ne (h k le_rfl (by omega)) _ _

/-- The quadwords that were written. -/
theorem storeAll_apply {p : BitVec 64} {k : ℕ} {vs : List (BitVec 64)}
    {mem : BitVec 64 → BitVec 64} (hfit : 8 * (k + vs.length) ≤ 2 ^ 64) {i : ℕ}
    (hi : i < vs.length) : storeAll p k vs mem (p + BitVec.ofNat 64 (8 * (k + i))) = vs[i] := by
  induction vs generalizing k i mem with
  | nil => exact absurd hi (Nat.not_lt_zero i)
  | cons v vs ih =>
    rw [List.length_cons] at hfit hi
    rw [storeAll]
    cases i with
    | zero =>
      rw [storeAll_of_ne, Nat.add_zero, Function.update_self, List.getElem_cons_zero]
      intro j hj hlt hsame
      have hindex := quadword_inj (by omega) (by omega) hsame
      omega
    | succ i =>
      have hrest := @ih (k + 1) (Function.update mem (p + BitVec.ofNat 64 (8 * k)) v) (by omega)
        i (Nat.lt_of_succ_lt_succ hi)
      rw [show k + (i + 1) = k + 1 + i by omega, List.getElem_cons_succ]
      exact hrest

end NtxKernel.Foundations
