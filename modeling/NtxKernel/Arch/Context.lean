import NtxKernel.Foundations.Assembly
import NtxKernel.Foundations.Run

/-!
# Switching the processor between threads

`KiArchSwitchContext` saves the registers that a called function has to keep in the record of one
thread, and takes those of another one from its record. A thread gets the processor back when some
other thread switches to it.

* `kiArchSwitchContext` and `kiArchInitializeContext` are the two routines, the first one as the
  instructions it is made of.
* `ContextSystem` is a processor with the records and stacks of threads, and beside them, for each
  thread, what the processor held when the thread left it.
* `kiArchEnterUserMode_spec`: a user program starts at its entry, on its stack, with interrupts on.
* `threads_resume`: in every run of threads that write only to their own stacks and to memory that
  is neither a stack nor a record of another thread, a thread that gets the processor back finds
  its registers, its control flags, its place and its stack as it left them.

So the threads may be seen as processors of their own, each with its own registers, as the model of
the scheduler has them.
-/

namespace NtxKernel.Arch

open Foundations

/-- `AUR64_CONTEXT`. -/
@[ext] structure Aur64Context where
  rbx : BitVec 64
  rbp : BitVec 64
  r12 : BitVec 64
  r13 : BitVec 64
  r14 : BitVec 64
  r15 : BitVec 64
  rsp : BitVec 64
  rip : BitVec 64
  rflags : BitVec 64

/-- A memory of quadwords. -/
abbrev Quadwords := BitVec 64 → BitVec 64

/-- Read the record at `p`. -/
def Aur64Context.read (mem : Quadwords) (p : BitVec 64) : Aur64Context where
  rbx := mem (p + 0)
  rbp := mem (p + 8)
  r12 := mem (p + 16)
  r13 := mem (p + 24)
  r14 := mem (p + 32)
  r15 := mem (p + 40)
  rsp := mem (p + 48)
  rip := mem (p + 56)
  rflags := mem (p + 64)

/-- The quadwords of the record at `p`. -/
def Aur64Context.cells (p : BitVec 64) : Set (BitVec 64) :=
  {a | ∃ k < 9, a = p + BitVec.ofNat 64 (8 * k)}

/-! ## The routines -/

/-- The context that `KiArchInitializeContext` writes. -/
def initialContext (stackTop entryRoutine : BitVec 64) : Aur64Context :=
  ⟨0, 0, 0, 0, 0, 0, (stackTop &&& ~~~0xF) - 8, entryRoutine, 0x202⟩

/-- `KiArchInitializeContext`. -/
def kiArchInitializeContext (mem : Quadwords) (context stackTop entryRoutine : BitVec 64) :
    Quadwords :=
  if context = 0 ∨ entryRoutine = 0 ∨ stackTop < 16 then mem
  else
    let c := initialContext stackTop entryRoutine
    let mem := Function.update mem (context + 0) c.rbx
    let mem := Function.update mem (context + 8) c.rbp
    let mem := Function.update mem (context + 16) c.r12
    let mem := Function.update mem (context + 24) c.r13
    let mem := Function.update mem (context + 32) c.r14
    let mem := Function.update mem (context + 40) c.r15
    let mem := Function.update mem (context + 48) c.rsp
    let mem := Function.update mem (context + 56) c.rip
    Function.update mem (context + 64) c.rflags

/-- The part of `KiArchSwitchContext` that saves the registers and the place `resume` where the
thread goes on, with `CurrentContext` in `rdi`. -/
def saveRegs (resume : BitVec 64) : List Instr :=
  [.store .rdi 0 .rbx, .store .rdi 8 .rbp, .store .rdi 16 .r12, .store .rdi 24 .r13,
    .store .rdi 32 .r14, .store .rdi 40 .r15, .store .rdi 48 .rsp, .lea .rax resume,
    .store .rdi 56 .rax]

/-- The part that saves the flags. -/
def saveFlags : List Instr := [.pushf, .pop .rax, .store .rdi 64 .rax]

/-- The part of `KiArchSwitchContext` that saves. -/
def saveContext (resume : BitVec 64) : List Instr := saveRegs resume ++ saveFlags

/-- The part of `KiArchSwitchContext` that goes on with another thread, with `NextContext` in
`rsi`. -/
def loadContext : List Instr :=
  [.load .rbx .rsi 0, .load .rbp .rsi 8, .load .r12 .rsi 16, .load .r13 .rsi 24,
    .load .r14 .rsi 32, .load .r15 .rsi 40, .load .rsp .rsi 48, .load .rax .rsi 64,
    .push .rax, .popf, .load .rax .rsi 56, .jmp .rax]

/-- `KiArchSwitchContext`, with its arguments in `rdi` and `rsi`. The test of the first one gives
the status flags `status`. -/
def kiArchSwitchContext (resume status : BitVec 64) (m : Machine) : Machine :=
  if m.reg .rsi = 0 then m
  else
    let m := Instr.perform m (.test status)
    exec loadContext (if m.reg .rdi = 0 then m else exec (saveContext resume) m)

/-- `KiArchEnterUserMode`, with its operands in the registers that the compiler chose. The segment
registers that it sets first play no part here. -/
def kiArchEnterUserMode (uss usp ucs uip arg0 arg1 : Reg) : List Instr :=
  [.mov .rdi arg0, .mov .rsi arg1, .push uss, .push usp, .pushf, .orTop 0x200, .push ucs,
    .push uip, .iret]

/-! ## What they do -/

/-- What the processor holds of a thread. -/
def context (m : Machine) : Aur64Context where
  rbx := m.reg .rbx
  rbp := m.reg .rbp
  r12 := m.reg .r12
  r13 := m.reg .r13
  r14 := m.reg .r14
  r15 := m.reg .r15
  rsp := m.reg .rsp
  rip := m.rip
  rflags := m.rflags

/-- A context without the status flags. -/
def Aur64Context.control (c : Aur64Context) : Aur64Context :=
  { c with rflags := c.rflags &&& ~~~statusFlags }

namespace Aur64Context

theorem read_congr {mem mem' : Quadwords} {p : BitVec 64} (h : ∀ a ∈ cells p, mem' a = mem a) :
    read mem' p = read mem p := by
  have hk : ∀ k < 9, mem' (p + BitVec.ofNat 64 (8 * k)) = mem (p + BitVec.ofNat 64 (8 * k)) :=
    fun k hk => h _ ⟨k, hk, rfl⟩
  exact Aur64Context.ext (hk 0 (by decide)) (hk 1 (by decide)) (hk 2 (by decide))
    (hk 3 (by decide)) (hk 4 (by decide)) (hk 5 (by decide)) (hk 6 (by decide))
    (hk 7 (by decide)) (hk 8 (by decide))

end Aur64Context

section Routines

variable {m : Machine} {p : BitVec 64}

open Aur64Context

/-- What `KiArchInitializeContext` writes. -/
theorem kiArchInitializeContext_eq {mem : Quadwords} {stackTop entryRoutine : BitVec 64}
    (hp : p ≠ 0) (hentry : entryRoutine ≠ 0) (htop : ¬stackTop < 16) :
    kiArchInitializeContext mem p stackTop entryRoutine =
      storeAll p 0 [0, 0, 0, 0, 0, 0, (initialContext stackTop entryRoutine).rsp, entryRoutine,
        0x202] mem := by
  have hno : ¬(p = 0 ∨ entryRoutine = 0 ∨ stackTop < 16) := by
    rintro (h | h | h)
    exacts [hp h, hentry h, htop h]
  rw [kiArchInitializeContext, if_neg hno]
  rfl

/-- The record that was initialized. -/
theorem read_kiArchInitializeContext {mem : Quadwords} {stackTop entryRoutine : BitVec 64}
    (hp : p ≠ 0) (hentry : entryRoutine ≠ 0) (htop : ¬stackTop < 16) :
    read (kiArchInitializeContext mem p stackTop entryRoutine) p =
      initialContext stackTop entryRoutine := by
  rw [kiArchInitializeContext_eq hp hentry htop]
  have hk : ∀ k (hk : k < 9), storeAll p 0 [0, 0, 0, 0, 0, 0,
      (initialContext stackTop entryRoutine).rsp, entryRoutine, 0x202] mem
        (p + BitVec.ofNat 64 (8 * (0 + k))) = [0, 0, 0, 0, 0, 0,
      (initialContext stackTop entryRoutine).rsp, entryRoutine, 0x202][k] :=
    fun k hk => storeAll_apply (show 8 * (0 + 9) ≤ 2 ^ 64 by decide) hk
  exact Aur64Context.ext (hk 0 (by decide)) (hk 1 (by decide)) (hk 2 (by decide))
    (hk 3 (by decide)) (hk 4 (by decide)) (hk 5 (by decide)) (hk 6 (by decide))
    (hk 7 (by decide)) (hk 8 (by decide))

/-- Initializing writes the record only. -/
theorem kiArchInitializeContext_of_notMem {mem : Quadwords} {stackTop entryRoutine : BitVec 64}
    (hp : p ≠ 0) (hentry : entryRoutine ≠ 0) (htop : ¬stackTop < 16) {a : BitVec 64}
    (ha : a ∉ cells p) : kiArchInitializeContext mem p stackTop entryRoutine a = mem a := by
  rw [kiArchInitializeContext_eq hp hentry htop]
  exact storeAll_of_ne fun i _ hi h => ha ⟨i, by simpa using hi, h⟩

/-- Loading leaves memory alone but for a quadword below the stack pointer that it takes. -/
theorem mem_loadContext (m : Machine) : (exec loadContext m).mem =
    Function.update m.mem ((read m.mem (m.reg .rsi)).rsp - 8) (read m.mem (m.reg .rsi)).rflags :=
  rfl

/-- After loading, the processor holds the record. -/
theorem context_loadContext (hscratch : (read m.mem (m.reg .rsi)).rsp - 8 ∉ cells (m.reg .rsi)) :
    context (exec loadContext m) = read m.mem (m.reg .rsi) := by
  have hrip : m.reg .rsi + 56 ≠ (read m.mem (m.reg .rsi)).rsp - 8 :=
    fun h => hscratch ⟨7, by decide, h.symm⟩
  refine Aur64Context.ext rfl rfl rfl rfl rfl rfl ?_ ?_ ?_
  · exact BitVec.sub_add_cancel _ _
  · exact Function.update_of_ne hrip _ _
  · exact Function.update_self _ _ _

/-- The flags go through the stack. -/
theorem mem_saveFlags (m : Machine) :
    (exec saveFlags m).mem = storeAll (m.reg .rdi) 8 [m.rflags]
      (Function.update m.mem (m.reg .rsp - 8) m.rflags) := by
  have hflags : Function.update m.mem (m.reg .rsp - 8) m.rflags (m.reg .rsp - 8) = m.rflags :=
    Function.update_self _ _ _
  exact congrArg (Function.update (Function.update m.mem (m.reg .rsp - 8) m.rflags)
    (m.reg .rdi + 64)) hflags

/-- What saving writes: the record, and a quadword below the stack pointer before the last one. -/
theorem mem_saveContext (resume : BitVec 64) (m : Machine) : (exec (saveContext resume) m).mem =
    storeAll (m.reg .rdi) 8 [m.rflags] (Function.update
      (storeAll (m.reg .rdi) 0 [m.reg .rbx, m.reg .rbp, m.reg .r12, m.reg .r13, m.reg .r14,
        m.reg .r15, m.reg .rsp, resume] m.mem) (m.reg .rsp - 8) m.rflags) := by
  have hregs : (exec (saveRegs resume) m).mem =
      storeAll (m.reg .rdi) 0 [m.reg .rbx, m.reg .rbp, m.reg .r12, m.reg .r13, m.reg .r14,
        m.reg .r15, m.reg .rsp, resume] m.mem := rfl
  have hrdi : (exec (saveRegs resume) m).reg .rdi = m.reg .rdi := rfl
  have hrsp : (exec (saveRegs resume) m).reg .rsp = m.reg .rsp := rfl
  have hrflags : (exec (saveRegs resume) m).rflags = m.rflags := by
    simp [exec, saveRegs, Instr.perform]
  rw [saveContext, exec_append, mem_saveFlags, hregs, hrdi, hrsp, hrflags]

/-- Saving fills the record. -/
theorem read_saveContext (resume : BitVec 64) (hscratch : m.reg .rsp - 8 ∉ cells (m.reg .rdi)) :
    read (exec (saveContext resume) m).mem (m.reg .rdi) = { context m with rip := resume } := by
  rw [mem_saveContext]
  have hlast : storeAll (m.reg .rdi) 8 [m.rflags] (Function.update
      (storeAll (m.reg .rdi) 0 [m.reg .rbx, m.reg .rbp, m.reg .r12, m.reg .r13, m.reg .r14,
        m.reg .r15, m.reg .rsp, resume] m.mem) (m.reg .rsp - 8) m.rflags)
        (m.reg .rdi + BitVec.ofNat 64 (8 * (8 + 0))) = [m.rflags][0] :=
    storeAll_apply (show 8 * (8 + 1) ≤ 2 ^ 64 by decide) (Nat.succ_pos 0)
  have hk : ∀ k (hk : k < 8), storeAll (m.reg .rdi) 8 [m.rflags] (Function.update
      (storeAll (m.reg .rdi) 0 [m.reg .rbx, m.reg .rbp, m.reg .r12, m.reg .r13, m.reg .r14,
        m.reg .r15, m.reg .rsp, resume] m.mem) (m.reg .rsp - 8) m.rflags)
        (m.reg .rdi + BitVec.ofNat 64 (8 * (0 + k))) = [m.reg .rbx, m.reg .rbp, m.reg .r12,
          m.reg .r13, m.reg .r14, m.reg .r15, m.reg .rsp, resume][k] := by
    intro k hk
    rw [storeAll_of_ne, Function.update_of_ne]
    · exact storeAll_apply (show 8 * (0 + 8) ≤ 2 ^ 64 by decide) hk
    · exact fun h => hscratch ⟨0 + k, by omega, h.symm⟩
    · intro i hi hlt h
      have hindex := quadword_inj (by omega) (by simp at hlt; omega) h
      omega
  exact Aur64Context.ext (hk 0 (by decide)) (hk 1 (by decide)) (hk 2 (by decide))
    (hk 3 (by decide)) (hk 4 (by decide)) (hk 5 (by decide)) (hk 6 (by decide))
    (hk 7 (by decide)) hlast

/-- Saving writes the record and a quadword below the stack pointer. -/
theorem saveContext_of_notMem (resume : BitVec 64) {a : BitVec 64} (ha : a ∉ cells (m.reg .rdi))
    (hscratch : a ≠ m.reg .rsp - 8) : (exec (saveContext resume) m).mem a = m.mem a := by
  rw [mem_saveContext, storeAll_of_ne, Function.update_of_ne hscratch, storeAll_of_ne]
  · exact fun i _ hi h => ha ⟨i, by simp at hi; omega, h⟩
  · exact fun i _ hi h => ha ⟨i, by simp at hi; omega, h⟩

/-- Wherever the compiler keeps the operands, apart from the registers that the code is said to
change, the user program starts at its entry with its stack, its arguments and interrupts on. -/
theorem kiArchEnterUserMode_spec {uss usp ucs uip arg0 arg1 : Reg}
    (hoperands : ∀ r ∈ [uss, usp, ucs, uip, arg0, arg1], r ≠ .rax ∧ r ≠ .rdi ∧ r ≠ .rsi ∧ r ≠ .rsp)
    (m : Machine) :
    context (exec (kiArchEnterUserMode uss usp ucs uip arg0 arg1) m) =
        { context m with
          rsp := m.reg usp
          rip := m.reg uip
          rflags := m.rflags ||| 0x200 } ∧
      (exec (kiArchEnterUserMode uss usp ucs uip arg0 arg1) m).cs = m.reg ucs ∧
      (exec (kiArchEnterUserMode uss usp ucs uip arg0 arg1) m).ss = m.reg uss ∧
      (exec (kiArchEnterUserMode uss usp ucs uip arg0 arg1) m).reg .rdi = m.reg arg0 ∧
      (exec (kiArchEnterUserMode uss usp ucs uip arg0 arg1) m).reg .rsi = m.reg arg1 := by
  simp only [List.forall_mem_cons] at hoperands
  obtain ⟨huss, husp, hucs, huip, harg0, harg1, -⟩ := hoperands
  have hset : ∀ r, r ≠ .rdi → r ≠ .rsi →
      ((m.set .rdi (m.reg arg0)).set .rsi (m.reg arg1)).reg r = m.reg r := fun r hrdi hrsi =>
    (Function.update_of_ne hrsi _ _).trans (Function.update_of_ne hrdi _ _)
  have harg : (m.set .rdi (m.reg arg0)).reg arg1 = m.reg arg1 :=
    Function.update_of_ne harg1.2.1 _ _
  have hmov : ∀ (n : Machine) (dst src : Reg),
      Instr.perform n (.mov dst src) = n.set dst (n.reg src) := fun _ _ _ => rfl
  have hpush : ∀ (n : Machine) (r : Reg), Instr.perform n (.push r) = n.push (n.reg r) :=
    fun _ _ => rfl
  have hpushf : ∀ n : Machine, Instr.perform n .pushf = n.push n.rflags := fun _ => rfl
  have hcode : exec (kiArchEnterUserMode uss usp ucs uip arg0 arg1) m =
      Instr.perform (((((((m.set .rdi (m.reg arg0)).set .rsi (m.reg arg1)).push
        (m.reg uss)).push (m.reg usp)).push (m.rflags ||| 0x200)).push (m.reg ucs)).push
          (m.reg uip)) .iret := by
    simp only [exec, kiArchEnterUserMode, List.foldl_cons, List.foldl_nil, hmov, hpush, hpushf,
      harg, orTop_push, rflags_push, Machine.rflags_set, reg_push _ husp.2.2.2,
      reg_push _ hucs.2.2.2, reg_push _ huip.2.2.2, hset _ huss.2.1 huss.2.2.1,
      hset _ husp.2.1 husp.2.2.1,
      hset _ hucs.2.1 hucs.2.2.1, hset _ huip.2.1 huip.2.2.1]
  rw [hcode, iret_push]
  exact ⟨rfl, rfl, rfl, rfl, rfl⟩

end Routines

/-! ## Switching between two records -/

/-- The records of two threads and the quadwords below their stack pointers, which lie apart. -/
structure Apart (m : Machine) (p q below below' : BitVec 64) : Prop where
  current_ne : p ≠ 0
  next_ne : q ≠ 0
  records : ∀ a ∈ Aur64Context.cells p, a ∉ Aur64Context.cells q
  below_current : below ∉ Aur64Context.cells p
  below_next : below ∉ Aur64Context.cells q
  below'_current : below' ∉ Aur64Context.cells p
  below'_next : below' ∉ Aur64Context.cells q
  rdi : m.reg .rdi = p
  rsi : m.reg .rsi = q
  below_eq : m.reg .rsp - 8 = below
  below'_eq : (Aur64Context.read m.mem q).rsp - 8 = below'

section Switch

variable {m : Machine} {p q below below' : BitVec 64} (resume status : BitVec 64)

open Aur64Context

theorem control_test (m : Machine) (resume status : BitVec 64) :
    ({ context (Instr.perform m (.test status)) with rip := resume } : Aur64Context).control =
      ({ context m with rip := resume } : Aur64Context).control := by
  have hflags : (m.rflags &&& ~~~statusFlags ||| status &&& statusFlags) &&& ~~~statusFlags =
      m.rflags &&& ~~~statusFlags := by
    ext i hi
    simp only [BitVec.getElem_and, BitVec.getElem_or, BitVec.getElem_not]
    cases statusFlags[i] <;> simp
  exact Aur64Context.ext rfl rfl rfl rfl rfl rfl rfl rfl hflags

theorem kiArchSwitchContext_eq (h : Apart m p q below below') :
    kiArchSwitchContext resume status m =
      exec loadContext (exec (saveContext resume) (Instr.perform m (.test status))) := by
  have hrsi : ¬m.reg .rsi = 0 := h.rsi ▸ h.next_ne
  have hrdi : ¬m.reg .rdi = 0 := h.rdi ▸ h.current_ne
  rw [kiArchSwitchContext, if_neg hrsi]
  exact congrArg (exec loadContext) (if_neg hrdi)

/-- Saving leaves the other record as it is. -/
theorem Apart.read_next (h : Apart m p q below below') :
    read (exec (saveContext resume) (Instr.perform m (.test status))).mem q = read m.mem q := by
  refine read_congr fun a ha => ?_
  refine saveContext_of_notMem resume ?_ ?_
  · exact fun ha' => h.records a (h.rdi ▸ ha') ha
  · rintro rfl
    exact h.below_next (h.below_eq ▸ ha)

/-- The processor goes on with the other thread. -/
theorem Apart.context_switch (h : Apart m p q below below') :
    context (kiArchSwitchContext resume status m) = read m.mem q := by
  have hrsi : (exec (saveContext resume) (Instr.perform m (.test status))).reg .rsi = q := h.rsi
  rw [kiArchSwitchContext_eq resume status h, context_loadContext, hrsi, h.read_next]
  rw [hrsi, h.read_next, h.below'_eq]
  exact h.below'_next

/-- Memory that is none of the records and quadwords stays. -/
theorem Apart.mem_switch (h : Apart m p q below below') {a : BitVec 64} (hp : a ∉ cells p)
    (hbelow : a ≠ below) (hbelow' : a ≠ below') :
    (kiArchSwitchContext resume status m).mem a = m.mem a := by
  have hrsi : (exec (saveContext resume) (Instr.perform m (.test status))).reg .rsi = q := h.rsi
  have hne : a ≠ (read (exec (saveContext resume) (Instr.perform m (.test status))).mem
      ((exec (saveContext resume) (Instr.perform m (.test status))).reg .rsi)).rsp - 8 := by
    rw [hrsi, h.read_next, h.below'_eq]
    exact hbelow'
  rw [kiArchSwitchContext_eq resume status h, mem_loadContext, Function.update_of_ne hne]
  exact saveContext_of_notMem resume (h.rdi.symm ▸ hp) (h.below_eq.symm ▸ hbelow)

/-- The thread that leaves is in its record. -/
theorem Apart.read_switch (h : Apart m p q below below') :
    (read (kiArchSwitchContext resume status m).mem p).control =
      ({ context m with rip := resume } : Aur64Context).control := by
  have hrsi : (exec (saveContext resume) (Instr.perform m (.test status))).reg .rsi = q := h.rsi
  have hrdi : (Instr.perform m (.test status)).reg .rdi = p := h.rdi
  have hsaved : read (exec (saveContext resume) (Instr.perform m (.test status))).mem p =
      { context (Instr.perform m (.test status)) with rip := resume } := by
    have hread := read_saveContext (m := Instr.perform m (.test status)) resume
      (by rw [hrdi]; exact h.below_eq.symm ▸ h.below_current)
    rw [hrdi] at hread
    exact hread
  rw [← control_test, ← hsaved, kiArchSwitchContext_eq resume status h, mem_loadContext]
  refine congrArg control (read_congr fun a ha => Function.update_of_ne ?_ _ _)
  rintro rfl
  rw [hrsi, h.read_next, h.below'_eq] at ha
  exact h.below'_current ha

end Switch

/-! ## The threads -/

/-- The records of the threads, and the part of the stack of each thread that the others leave
alone. -/
structure ThreadMemory (ι : Type) where
  record : ι → BitVec 64
  stack : ι → Set (BitVec 64)
  record_ne : ∀ i, record i ≠ 0
  records_apart : ∀ i j, i ≠ j → ∀ a ∈ Aur64Context.cells (record i),
    a ∉ Aur64Context.cells (record j)
  stacks_apart : ∀ i j, i ≠ j → ∀ a ∈ stack i, a ∉ stack j
  apart : ∀ i j, ∀ a ∈ stack i, a ∉ Aur64Context.cells (record j)

/-- The processor, whose it is, and for each other thread what the processor held when the thread
left it, with the memory of that time. -/
structure ContextSystem (ι : Type) where
  machine : Machine
  current : ι
  left : ι → Option Aur64Context
  memory : ι → Quadwords

/-- What happens: the current thread goes on, a thread is created, or another thread is switched
to. -/
inductive ContextOp (ι : Type)
  | work (machine : Machine)
  | create (thread : ι) (stackTop entryRoutine : BitVec 64)
  | switch (next : ι) (status : BitVec 64)

namespace ContextSystem

variable {ι : Type} [DecidableEq ι]

/-- Create a thread. -/
def create (s : ContextSystem ι) (T : ThreadMemory ι) (thread : ι)
    (stackTop entryRoutine : BitVec 64) : ContextSystem ι :=
  { s with
    machine := { s.machine with
      mem := kiArchInitializeContext s.machine.mem (T.record thread) stackTop entryRoutine }
    left := Function.update s.left thread (some (initialContext stackTop entryRoutine))
    memory := Function.update s.memory thread s.machine.mem }

/-- The processor at the call of `KiArchSwitchContext`. -/
def calling (s : ContextSystem ι) (T : ThreadMemory ι) (next : ι) : Machine :=
  (s.machine.set .rdi (T.record s.current)).set .rsi (T.record next)

/-- Switch to a thread. -/
def switch (s : ContextSystem ι) (T : ThreadMemory ι) (resume : BitVec 64) (next : ι)
    (status : BitVec 64) : ContextSystem ι where
  machine := kiArchSwitchContext resume status (s.calling T next)
  current := next
  left := Function.update s.left s.current (some { context s.machine with rip := resume })
  memory := Function.update s.memory s.current s.machine.mem

/-- A step. The current thread writes neither the records nor the stacks of the others, and when it
leaves, its stack pointer is in its own stack; so is that of a created thread. -/
def Step (T : ThreadMemory ι) (resume : BitVec 64) (s : ContextSystem ι) :
    ContextOp ι → ContextSystem ι → Prop
  | .work machine, s' =>
    (∀ i ≠ s.current, ∀ a, a ∈ Aur64Context.cells (T.record i) ∨ a ∈ T.stack i →
      machine.mem a = s.machine.mem a) ∧ s' = { s with machine := machine }
  | .create thread stackTop entryRoutine, s' =>
    thread ≠ s.current ∧ entryRoutine ≠ 0 ∧ ¬stackTop < 16 ∧
      (initialContext stackTop entryRoutine).rsp - 8 ∈ T.stack thread ∧
        s' = s.create T thread stackTop entryRoutine
  | .switch next status, s' =>
    next ≠ s.current ∧ s.left next ≠ none ∧ s.machine.reg .rsp - 8 ∈ T.stack s.current ∧
      s' = s.switch T resume next status

/-- A thread that gets the processor back finds what it left: its registers, stack pointer and
place, its flags apart from the status flags, and its stack. Below its stack pointer one quadword
was used. -/
def Resumes (T : ThreadMemory ι) (s : ContextSystem ι) : ContextOp ι → ContextSystem ι → Prop
  | .switch next _, s' => ∀ c, s.left next = some c →
    (context s'.machine).control = c.control ∧
      ∀ a ∈ T.stack next, a ≠ c.rsp - 8 → s'.machine.mem a = s.memory next a
  | _, _ => True

/-- The records of the threads hold what they left, and their stacks are as they left them. -/
structure Away (T : ThreadMemory ι) (s : ContextSystem ι) (i : ι) (c : Aur64Context) : Prop where
  record : (Aur64Context.read s.machine.mem (T.record i)).control = c.control
  below : c.rsp - 8 ∈ T.stack i
  stack : ∀ a ∈ T.stack i, a ≠ c.rsp - 8 → s.machine.mem a = s.memory i a

/-- The same for all threads that have left. -/
def AllAway (T : ThreadMemory ι) (s : ContextSystem ι) : Prop :=
  ∀ i ≠ s.current, ∀ c, s.left i = some c → s.Away T i c

section Steps

variable {T : ThreadMemory ι} {resume : BitVec 64} {s s' : ContextSystem ι} {i : ι}
  {c : Aur64Context}

omit [DecidableEq ι] in
/-- A thread stays away while its record and its stack are left alone. -/
theorem Away.congr (h : s.Away T i c) (hmemory : s'.memory i = s.memory i)
    (hmem : ∀ a, a ∈ Aur64Context.cells (T.record i) ∨ a ∈ T.stack i →
      s'.machine.mem a = s.machine.mem a) : s'.Away T i c where
  record := by
    rw [Aur64Context.read_congr fun a ha => hmem a (Or.inl ha)]
    exact h.record
  below := h.below
  stack a ha hne := by
    rw [hmem a (Or.inr ha), hmemory]
    exact h.stack a ha hne

theorem AllAway.create (h : s.AllAway T) {thread : ι} {stackTop entryRoutine : BitVec 64}
    (hentry : entryRoutine ≠ 0) (htop : ¬stackTop < 16)
    (hbelow : (initialContext stackTop entryRoutine).rsp - 8 ∈ T.stack thread) :
    (s.create T thread stackTop entryRoutine).AllAway T := by
  intro i hi c hc
  by_cases hthread : i = thread
  · subst hthread
    have hleft : initialContext stackTop entryRoutine = c := by
      have hself : (s.create T i stackTop entryRoutine).left i =
          some (initialContext stackTop entryRoutine) := Function.update_self _ _ _
      exact Option.some.inj (hself.symm.trans hc)
    subst hleft
    refine ⟨?_, hbelow, fun a ha _ => ?_⟩
    · exact congrArg Aur64Context.control
        (read_kiArchInitializeContext (T.record_ne i) hentry htop)
    · have hself : (s.create T i stackTop entryRoutine).memory i = s.machine.mem :=
        Function.update_self _ _ _
      rw [hself]
      exact kiArchInitializeContext_of_notMem (T.record_ne i) hentry htop (T.apart i i a ha)
  · have hleft : s.left i = some c := (Function.update_of_ne hthread _ _).symm.trans hc
    refine (h i hi c hleft).congr (Function.update_of_ne hthread _ _) fun a ha => ?_
    refine kiArchInitializeContext_of_notMem (T.record_ne _) hentry htop ?_
    rcases ha with ha | ha
    · exact T.records_apart i thread hthread a ha
    · exact T.apart i thread a ha

omit [DecidableEq ι] in
/-- The two threads of a switch lie apart. -/
theorem Away.apart {next : ι} (hnext : next ≠ s.current) (h : s.Away T next c)
    (hbelow : s.machine.reg .rsp - 8 ∈ T.stack s.current) :
    Apart (s.calling T next) (T.record s.current) (T.record next) (s.machine.reg .rsp - 8)
      (c.rsp - 8) where
  current_ne := T.record_ne _
  next_ne := T.record_ne _
  records := T.records_apart _ _ hnext.symm
  below_current := T.apart _ _ _ hbelow
  below_next := T.apart _ _ _ hbelow
  below'_current := T.apart _ _ _ h.below
  below'_next := T.apart _ _ _ h.below
  rdi := rfl
  rsi := rfl
  below_eq := rfl
  below'_eq := by
    have hrsp := congrArg Aur64Context.rsp h.record
    exact congrArg (· - 8) hrsp

/-- The next thread goes on as it left. -/
theorem Away.resumes {next : ι} (hnext : next ≠ s.current) (h : s.Away T next c)
    (hbelow : s.machine.reg .rsp - 8 ∈ T.stack s.current) (status : BitVec 64) :
    (context (s.switch T resume next status).machine).control = c.control ∧
      ∀ a ∈ T.stack next, a ≠ c.rsp - 8 →
        (s.switch T resume next status).machine.mem a = s.memory next a := by
  have hapart := h.apart hnext hbelow
  refine ⟨?_, fun a ha hne => ?_⟩
  · exact (congrArg Aur64Context.control (hapart.context_switch resume status)).trans h.record
  · refine (hapart.mem_switch resume status (T.apart _ _ a ha) ?_ hne).trans (h.stack a ha hne)
    rintro rfl
    exact T.stacks_apart _ _ hnext _ ha hbelow

theorem AllAway.switch (h : s.AllAway T) {next : ι} (hnext : next ≠ s.current)
    (haway : s.Away T next c) (hbelow : s.machine.reg .rsp - 8 ∈ T.stack s.current)
    (status : BitVec 64) : (s.switch T resume next status).AllAway T := by
  have hapart := haway.apart hnext hbelow
  intro i hi c' hc'
  by_cases hcurrent : i = s.current
  · subst hcurrent
    have hleft : { context s.machine with rip := resume } = c' := by
      have hself : (s.switch T resume next status).left s.current =
          some { context s.machine with rip := resume } := Function.update_self _ _ _
      exact Option.some.inj (hself.symm.trans hc')
    subst hleft
    refine ⟨hapart.read_switch resume status, hbelow, fun a ha hne => ?_⟩
    have hself : (s.switch T resume next status).memory s.current = s.machine.mem :=
      Function.update_self _ _ _
    rw [hself]
    refine hapart.mem_switch resume status (T.apart _ _ a ha) hne ?_
    rintro rfl
    exact T.stacks_apart _ _ hi _ ha haway.below
  · have hleft : s.left i = some c' := (Function.update_of_ne hcurrent _ _).symm.trans hc'
    refine (h i hcurrent c' hleft).congr (Function.update_of_ne hcurrent _ _) fun a ha => ?_
    have hout : a ∉ Aur64Context.cells (T.record s.current) ∧ a ∉ T.stack s.current ∧
        a ∉ T.stack next := by
      rcases ha with ha | ha
      · exact ⟨T.records_apart i _ hcurrent a ha, fun hs => T.apart _ i a hs ha,
          fun hs => T.apart _ i a hs ha⟩
      · exact ⟨T.apart i _ a ha, T.stacks_apart i _ hcurrent a ha, T.stacks_apart i _ hi a ha⟩
    refine hapart.mem_switch resume status hout.1 ?_ ?_
    · rintro rfl
      exact hout.2.1 hbelow
    · rintro rfl
      exact hout.2.2 haway.below

theorem AllAway.step (h : s.AllAway T) {op : ContextOp ι} (hstep : Step T resume s op s') :
    s'.AllAway T := by
  cases op with
  | work machine =>
    obtain ⟨hmem, rfl⟩ := hstep
    exact fun i hi c hc => (h i hi c hc).congr rfl (hmem i hi)
  | create thread stackTop entryRoutine =>
    obtain ⟨-, hentry, htop, hbelow, rfl⟩ := hstep
    exact h.create hentry htop hbelow
  | switch next status =>
    obtain ⟨hnext, hleft, hbelow, rfl⟩ := hstep
    obtain ⟨c, hc⟩ := Option.ne_none_iff_exists'.1 hleft
    exact h.switch hnext (h next hnext c hc) hbelow status

end Steps

end ContextSystem

/-- In every run, a thread that gets the processor back goes on as if it had a processor of its
own. -/
theorem threads_resume {ι : Type} [DecidableEq ι] (T : ThreadMemory ι) (resume : BitVec 64)
    (s : ContextSystem ι) (hs : ∀ i, s.left i = none) (ops : List (ContextOp ι)) :
    Always (ContextSystem.Step T resume) (ContextSystem.Resumes T) s ops := by
  have hstart : s.AllAway T := by
    intro i _ c hc
    rw [hs i] at hc
    cases hc
  refine Always.of_invariant (fun s op s' h hstep => h.step hstep) (fun s op s' h hstep => ?_)
    hstart ops
  cases op with
  | work machine => trivial
  | create thread stackTop entryRoutine => trivial
  | switch next status =>
    obtain ⟨hnext, -, hbelow, rfl⟩ := hstep
    intro c hc
    exact (h next hnext c hc).resumes hnext hbelow status

/-! ## Two threads -/

/-- Records and stacks of two threads. -/
def twoThreads : ThreadMemory Bool where
  record i := if i then 0x2000 else 0x1000
  stack i := {a | a = if i then 0x20FF0 else 0x10FF0}
  record_ne i := by cases i <;> decide
  records_apart i j hij a ha := by
    rintro ⟨l, hl, rfl⟩
    obtain ⟨k, hk, h⟩ := ha
    have hindex := congrArg BitVec.toNat h
    cases i <;> cases j <;> simp at hij <;> simp [BitVec.toNat_add] at hindex <;> omega
  stacks_apart i j hij a ha hb := by
    cases i <;> cases j <;> simp at hij <;> simp_all
  apart i j a ha := by
    rintro ⟨l, hl, rfl⟩
    have hindex := congrArg BitVec.toNat ha
    cases i <;> cases j <;> simp [BitVec.toNat_add] at hindex <;> omega

/-- The processor with the first of them. -/
def firstThread : Machine where
  reg r := if r = .rsp then 0x10FF8 else 0
  rip := 0x400000
  rflags := 0x202
  cs := 8
  ss := 0x10
  mem _ := 0

/-- The first thread creates the second one, which gives the processor back. -/
theorem threads_resume_twoThreads :
    Always (ContextSystem.Step twoThreads 0x400080) (ContextSystem.Resumes twoThreads)
      ⟨firstThread, false, fun _ => none, fun _ _ => 0⟩
      [.create true 0x21000 0x400000, .switch true 0, .switch false 0] :=
  threads_resume twoThreads 0x400080 ⟨firstThread, false, fun _ => none, fun _ _ => 0⟩
    (fun _ => rfl) [.create true 0x21000 0x400000, .switch true 0, .switch false 0]

end NtxKernel.Arch
