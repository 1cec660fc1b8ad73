import NtxKernel.Foundations.Assembly

/-!
# System calls through the interrupt table

`HalpInitializeInterrupts` fills the table that the processor looks up at an interrupt. Programs
raise vector `0x80` to call the system; its handler saves the registers that a called function may
change, has `HalpHandleSyscallTrap` work on what it saved, and takes the registers back.

* `halpInitializeInterrupts` is the table, `softwareInterrupt` what the processor makes of it.
* `syscallEntry` and `syscallExit` are the two halves of `HalpSyscallInterruptHandler`, as the
  instructions they are made of.
* `syscall_returns`: vector `0x80` is the only one that a user program can raise. It gets to the
  handler, which passes the number and the arguments in order, and the program goes on with the
  result in `rax` and with all other registers but `rcx` as they were.
-/

namespace NtxKernel.Hal

open Foundations

/-! ## The table -/

/-- `AUR64_IDT_ENTRY`. -/
structure Aur64IdtEntry where
  offsetLow : BitVec 16
  selector : BitVec 16
  ist : BitVec 8
  attributes : BitVec 8
  offsetMiddle : BitVec 16
  offsetHigh : BitVec 32
  reserved : BitVec 32

/-- `gAur64Idt`. -/
abbrev Idt := ℕ → Aur64IdtEntry

/-- `HALP_SEL_KERNEL_CODE`. -/
def halpSelKernelCode : BitVec 16 := 0x08

/-- `AUR64_USER_CODE_SELECTOR`. -/
def aur64UserCodeSelector : BitVec 64 := 0x23

/-- `HALP_SYSCALL_VECTOR`. -/
def halpSyscallVector : ℕ := 0x80

/-- The entry for a handler. -/
def idtEntry (handler : BitVec 64) (attributes : BitVec 8) : Aur64IdtEntry where
  offsetLow := (handler &&& 0xFFFF).setWidth 16
  selector := halpSelKernelCode
  ist := 0
  attributes := attributes
  offsetMiddle := ((handler >>> 16) &&& 0xFFFF).setWidth 16
  offsetHigh := ((handler >>> 32) &&& 0xFFFFFFFF).setWidth 32
  reserved := 0

/-- `HalpSetIdtEntry`. -/
def halpSetIdtEntry (idt : Idt) (vector : ℕ) (handler : BitVec 64) : Idt :=
  Function.update idt vector (idtEntry handler 0x8E)

/-- `HalpSetIdtEntryDpl`. -/
def halpSetIdtEntryDpl (idt : Idt) (vector : ℕ) (handler : BitVec 64) (dpl : BitVec 8) : Idt :=
  Function.update idt vector (idtEntry handler (0x8E ||| (dpl &&& 0x3) <<< 5))

/-- The addresses of the handlers. -/
structure Handlers where
  default : BitVec 64
  invalidOpcode : BitVec 64
  generalProtection : BitVec 64
  timer : BitVec 64
  pageFault : BitVec 64
  syscall : BitVec 64

/-- The part of `HalpInitializeInterrupts` that fills the table. -/
def halpInitializeInterrupts (h : Handlers) (idt : Idt) : Idt :=
  let idt := (List.range 256).foldl (fun idt index => halpSetIdtEntry idt index h.default) idt
  let idt := halpSetIdtEntry idt 6 h.invalidOpcode
  let idt := halpSetIdtEntry idt 13 h.generalProtection
  let idt := halpSetIdtEntry idt 32 h.timer
  let idt := halpSetIdtEntry idt 14 h.pageFault
  halpSetIdtEntryDpl idt halpSyscallVector h.syscall 3

/-- The handler that a vector gets. -/
def Handlers.of (h : Handlers) (vector : ℕ) : BitVec 64 :=
  if vector = 6 then h.invalidOpcode
  else if vector = 13 then h.generalProtection
  else if vector = 14 then h.pageFault
  else if vector = 32 then h.timer
  else if vector = halpSyscallVector then h.syscall
  else h.default

/-! ## What the processor makes of the table -/

namespace Aur64IdtEntry

variable (e : Aur64IdtEntry)

/-- Where the gate leads. -/
def target : BitVec 64 :=
  e.offsetLow.setWidth 64 ||| e.offsetMiddle.setWidth 64 <<< 16 ||| e.offsetHigh.setWidth 64 <<< 32

/-- The entry is an interrupt gate that is there. -/
def IsGate : Prop := e.attributes &&& 0x9F = 0x8E

instance : Decidable e.IsGate := inferInstanceAs (Decidable (_ = _))

/-- The least privilege that may raise the vector. -/
def dpl : BitVec 8 := (e.attributes >>> 5) &&& 0x3

end Aur64IdtEntry

/-- The flags that an interrupt gate clears: trap, interrupt, nested task, resume and virtual. -/
def gateFlags : BitVec 64 := 0x34300

/-- The end of the stack that the processor uses: from a user program it changes to `rsp0`. -/
def gateStack (rsp0 : BitVec 64) (m : Machine) : BitVec 64 :=
  (if m.cs &&& 0x3 = 0 then m.reg .rsp else rsp0) &&& ~~~0xF

/-- The processor goes through a gate of the kernel, and leaves on the stack where it came from. -/
def enterGate (e : Aur64IdtEntry) (rsp0 : BitVec 64) (m : Machine) : Machine :=
  let sp := gateStack rsp0 m
  let mem := Function.update m.mem (sp - 8) m.ss
  let mem := Function.update mem (sp - 16) (m.reg .rsp)
  let mem := Function.update mem (sp - 24) m.rflags
  let mem := Function.update mem (sp - 32) m.cs
  let mem := Function.update mem (sp - 40) m.rip
  { m.set .rsp (sp - 40) with
    rip := e.target
    rflags := m.rflags &&& ~~~gateFlags
    cs := e.selector.setWidth 64
    ss := if m.cs &&& 0x3 = 0 then m.ss else 0
    mem := mem }

/-- The processor raises a vector. It refuses where there is no gate or the privilege does not
suffice. -/
def softwareInterrupt (idt : Idt) (rsp0 : BitVec 64) (vector : ℕ) (m : Machine) : Option Machine :=
  if (idt vector).IsGate ∧ (m.cs &&& 0x3).toNat ≤ (idt vector).dpl.toNat then
    some (enterGate (idt vector) rsp0 m)
  else none

/-! ## The handler -/

/-- `HalpSyscallInterruptHandler` up to its call. -/
def syscallEntry : List Instr :=
  [.push .rax, .push .rdi, .push .rsi, .push .rdx, .push .r8, .push .r9, .push .r10, .push .r11,
    .mov .rdi .rsp]

/-- `HalpSyscallInterruptHandler` after its call. -/
def syscallExit : List Instr :=
  [.pop .r11, .pop .r10, .pop .r9, .pop .r8, .pop .rdx, .pop .rsi, .pop .rdi, .pop .rax, .iret]

/-- `HALP_SYSCALL_REG_FRAME`. -/
structure HalpSyscallRegFrame where
  r11 : BitVec 64
  r10 : BitVec 64
  r9 : BitVec 64
  r8 : BitVec 64
  rdx : BitVec 64
  rsi : BitVec 64
  rdi : BitVec 64
  rax : BitVec 64

/-- Read the frame at `p`. -/
def HalpSyscallRegFrame.read (mem : BitVec 64 → BitVec 64) (p : BitVec 64) :
    HalpSyscallRegFrame where
  r11 := mem (p + 0)
  r10 := mem (p + 8)
  r9 := mem (p + 16)
  r8 := mem (p + 24)
  rdx := mem (p + 32)
  rsi := mem (p + 40)
  rdi := mem (p + 48)
  rax := mem (p + 56)

/-- The results of `KiDispatchSystemCall`, by the number and the six arguments. -/
abbrev Dispatch := BitVec 64 → BitVec 64 → BitVec 64 → BitVec 64 → BitVec 64 → BitVec 64 →
  BitVec 64 → BitVec 64

/-- `HalpHandleSyscallTrap`. -/
def halpHandleSyscallTrap (dispatch : Dispatch) (frame : HalpSyscallRegFrame) :
    HalpSyscallRegFrame :=
  { frame with
    rax := dispatch frame.rax frame.rdi frame.rsi frame.rdx frame.r10 frame.r8 frame.r9 }

/-- The call of `HalpHandleSyscallTrap` comes back: it keeps the registers that a called function
has to keep, and of the thirteen quadwords from the frame on it writes the result only. -/
structure Returned (dispatch : Dispatch) (m m' : Machine) : Prop where
  kept : ∀ r ∈ [Reg.rbx, .rbp, .rsp, .r12, .r13, .r14, .r15], m'.reg r = m.reg r
  frame : HalpSyscallRegFrame.read m'.mem (m.reg .rdi) =
    halpHandleSyscallTrap dispatch (.read m.mem (m.reg .rdi))
  above : ∀ k < 13, 8 ≤ k → m'.mem (m.reg .rdi + BitVec.ofNat 64 (8 * k)) =
    m.mem (m.reg .rdi + BitVec.ofNat 64 (8 * k))

/-! ## The gates -/

section Gates

variable (idt : Idt) (h : Handlers) {vector : ℕ}

/-- The gate leads to the handler. -/
theorem target_idtEntry (handler : BitVec 64) (attributes : BitVec 8) :
    (idtEntry handler attributes).target = handler := by
  have hlow : (idtEntry handler attributes).offsetLow = handler.setWidth 16 := by
    change (handler &&& 0xFFFF).setWidth 16 = _
    rw [BitVec.setWidth_and]
    exact BitVec.and_allOnes
  have hmiddle : (idtEntry handler attributes).offsetMiddle = (handler >>> 16).setWidth 16 := by
    change ((handler >>> 16) &&& 0xFFFF).setWidth 16 = _
    rw [BitVec.setWidth_and]
    exact BitVec.and_allOnes
  have hhigh : (idtEntry handler attributes).offsetHigh = (handler >>> 32).setWidth 32 := by
    change ((handler >>> 32) &&& 0xFFFFFFFF).setWidth 32 = _
    rw [BitVec.setWidth_and]
    exact BitVec.and_allOnes
  rw [Aur64IdtEntry.target, hlow, hmiddle, hhigh]
  refine BitVec.eq_of_getLsbD_eq fun i hi => ?_
  simp only [BitVec.getLsbD_or, BitVec.getLsbD_shiftLeft, BitVec.getLsbD_setWidth,
    BitVec.getLsbD_ushiftRight]
  by_cases h16 : i < 16
  · simp [h16, hi, show i < 32 by omega]
  by_cases h32 : i < 32
  · simp [h16, h32, hi, show i - 16 < 16 by omega, show i - 16 < 64 by omega,
      show 16 + (i - 16) = i by omega]
  · simp [h16, h32, hi, show ¬i - 16 < 16 by omega, show i - 32 < 32 by omega,
      show i - 32 < 64 by omega, show 32 + (i - 32) = i by omega]

/-- Every vector gets a gate to the default handler first. -/
theorem foldl_halpSetIdtEntry (handler : BitVec 64) (n : ℕ) (hvector : vector < n) :
    (List.range n).foldl (fun idt index => halpSetIdtEntry idt index handler) idt vector =
      idtEntry handler 0x8E := by
  induction n with
  | zero => exact absurd hvector (Nat.not_lt_zero _)
  | succ n ih =>
    rw [List.range_succ, List.foldl_append, List.foldl_cons, List.foldl_nil, halpSetIdtEntry]
    by_cases hlast : vector = n
    · rw [hlast, Function.update_self]
    · rw [Function.update_of_ne hlast]
      exact ih (by omega)

/-- The gates of the table. -/
theorem halpInitializeInterrupts_eq (hvector : vector < 256) :
    halpInitializeInterrupts h idt vector =
      idtEntry (h.of vector) (if vector = halpSyscallVector then 0xEE else 0x8E) := by
  have hsyscall : halpSyscallVector = 128 := rfl
  rw [halpInitializeInterrupts, Handlers.of]
  simp only [halpSetIdtEntryDpl, halpSetIdtEntry, Function.update_apply, hsyscall]
  split_ifs <;> first | rfl | omega | exact foldl_halpSetIdtEntry idt _ 256 hvector

theorem isGate_halpInitializeInterrupts (hvector : vector < 256) :
    (halpInitializeInterrupts h idt vector).IsGate := by
  rw [halpInitializeInterrupts_eq idt h hvector]
  split_ifs
  · exact show (0xEE : BitVec 8) &&& 0x9F = 0x8E by decide
  · exact show (0x8E : BitVec 8) &&& 0x9F = 0x8E by decide

theorem dpl_halpInitializeInterrupts (hvector : vector < 256) :
    (halpInitializeInterrupts h idt vector).dpl = if vector = halpSyscallVector then 3 else 0 := by
  rw [halpInitializeInterrupts_eq idt h hvector]
  split_ifs
  · exact show ((0xEE : BitVec 8) >>> 5) &&& 0x3 = 3 by decide
  · exact show ((0x8E : BitVec 8) >>> 5) &&& 0x3 = 0 by decide

end Gates

/-! ## The way there and back -/

section Trap

variable {m : Machine}

/-- What the processor left on the stack, with `p` at its end. -/
structure Interrupted (m : Machine) (mem : BitVec 64 → BitVec 64) (p : BitVec 64) : Prop where
  rip : mem (p + 64) = m.rip
  cs : mem (p + 72) = m.cs
  rflags : mem (p + 80) = m.rflags
  rsp : mem (p + 88) = m.reg .rsp
  ss : mem (p + 96) = m.ss

/-- The registers that the handler saves. -/
def savedRegs (m : Machine) : HalpSyscallRegFrame :=
  ⟨m.reg .r11, m.reg .r10, m.reg .r9, m.reg .r8, m.reg .rdx, m.reg .rsi, m.reg .rdi, m.reg .rax⟩

theorem syscallEntry_spec (e : Aur64IdtEntry) (rsp0 : BitVec 64) :
    HalpSyscallRegFrame.read (exec syscallEntry (enterGate e rsp0 m)).mem
        ((exec syscallEntry (enterGate e rsp0 m)).reg .rdi) = savedRegs m ∧
      Interrupted m (exec syscallEntry (enterGate e rsp0 m)).mem
        ((exec syscallEntry (enterGate e rsp0 m)).reg .rdi) := by
  generalize hsp : gateStack rsp0 m = sp
  have hrdi : (exec syscallEntry (enterGate e rsp0 m)).reg .rdi = sp - 104 := by
    simp [exec, syscallEntry, enterGate, Instr.perform, Machine.push, Machine.set, Machine.write,
      hsp, BitVec.sub_eq_add_neg, BitVec.add_assoc]
  rw [hrdi]
  refine ⟨?_, ?_, ?_, ?_, ?_, ?_⟩ <;>
    simp [exec, syscallEntry, enterGate, Instr.perform, Machine.push, Machine.set, Machine.write,
      hsp, HalpSyscallRegFrame.read, savedRegs, BitVec.sub_eq_add_neg, BitVec.add_assoc]

/-- Leaving the handler: eight registers and the five words of the processor come off the stack. -/
theorem syscallExit_spec (m : Machine) (r : Reg) :
    (exec syscallExit m).rip = m.mem (m.reg .rsp + 64) ∧
      (exec syscallExit m).cs = m.mem (m.reg .rsp + 72) ∧
      (exec syscallExit m).rflags = m.mem (m.reg .rsp + 80) ∧
      (exec syscallExit m).ss = m.mem (m.reg .rsp + 96) ∧
      (exec syscallExit m).reg r =
        match r with
        | .rsp => m.mem (m.reg .rsp + 88)
        | .r11 => m.mem (m.reg .rsp)
        | .r10 => m.mem (m.reg .rsp + 8)
        | .r9 => m.mem (m.reg .rsp + 16)
        | .r8 => m.mem (m.reg .rsp + 24)
        | .rdx => m.mem (m.reg .rsp + 32)
        | .rsi => m.mem (m.reg .rsp + 40)
        | .rdi => m.mem (m.reg .rsp + 48)
        | .rax => m.mem (m.reg .rsp + 56)
        | r => m.reg r := by
  refine ⟨?_, ?_, ?_, ?_, ?_⟩
  rotate_right
  · cases r <;> simp [exec, syscallExit, Instr.perform, Machine.drop, Machine.set, Machine.top,
      BitVec.add_assoc]
  all_goals
    simp [exec, syscallExit, Instr.perform, Machine.drop, Machine.set, Machine.top,
      BitVec.add_assoc]

end Trap

/-- The program goes on: with the result, and with all other registers but `rcx` as they were. -/
structure ReturnsWith (m m' : Machine) (result : BitVec 64) : Prop where
  rip : m'.rip = m.rip
  cs : m'.cs = m.cs
  ss : m'.ss = m.ss
  rflags : m'.rflags = m.rflags
  rax : m'.reg .rax = result
  other : ∀ r, r ≠ .rax → r ≠ .rcx → m'.reg r = m.reg r

/-- After the call the handler takes back what it saved. -/
theorem Returned.returnsWith {dispatch : Dispatch} {m m' : Machine} {e : Aur64IdtEntry}
    {rsp0 : BitVec 64} (h : Returned dispatch (exec syscallEntry (enterGate e rsp0 m)) m') :
    ReturnsWith m (exec syscallExit m') (dispatch (m.reg .rax) (m.reg .rdi) (m.reg .rsi)
      (m.reg .rdx) (m.reg .r10) (m.reg .r8) (m.reg .r9)) := by
  obtain ⟨hread, hstack⟩ := syscallEntry_spec e rsp0 (m := m)
  have hframe := h.frame
  have habove := h.above
  have hrsp : m'.reg .rsp = (exec syscallEntry (enterGate e rsp0 m)).reg .rdi :=
    h.kept .rsp (by decide)
  have hkept : ∀ r ∈ [Reg.rbx, .rbp, .r12, .r13, .r14, .r15], m'.reg r = m.reg r := by
    intro r hr
    have hsame : (exec syscallEntry (enterGate e rsp0 m)).reg r = m.reg r := by
      cases r <;> first
        | exact absurd hr (by decide)
        | simp [exec, syscallEntry, enterGate, Instr.perform, Machine.push, Machine.set]
    have hsublist : [Reg.rbx, .rbp, .r12, .r13, .r14, .r15].Sublist
        [.rbx, .rbp, .rsp, .r12, .r13, .r14, .r15] := by decide
    rw [← hsame]
    exact h.kept r (hsublist.subset hr)
  rw [hread] at hframe
  generalize (exec syscallEntry (enterGate e rsp0 m)).reg .rdi = p at *
  have hexit := syscallExit_spec m'
  rw [hrsp] at hexit
  refine ⟨?_, ?_, ?_, ?_, ?_, fun r hrax hrcx => ?_⟩
  · exact (hexit .rax).1.trans ((habove 8 (by decide) (by decide)).trans hstack.rip)
  · exact (hexit .rax).2.1.trans ((habove 9 (by decide) (by decide)).trans hstack.cs)
  · exact (hexit .rax).2.2.2.1.trans ((habove 12 (by decide) (by decide)).trans hstack.ss)
  · exact (hexit .rax).2.2.1.trans ((habove 10 (by decide) (by decide)).trans hstack.rflags)
  · exact (hexit .rax).2.2.2.2.trans (congrArg HalpSyscallRegFrame.rax hframe)
  · have hreg := (hexit r).2.2.2.2
    cases r with
    | rax => exact absurd rfl hrax
    | rcx => exact absurd rfl hrcx
    | rsp => exact hreg.trans ((habove 11 (by decide) (by decide)).trans hstack.rsp)
    | r11 =>
      have hfield : m'.mem (p + 0) = m.reg .r11 := congrArg HalpSyscallRegFrame.r11 hframe
      rw [show p + 0 = p from BitVec.add_zero p] at hfield
      exact hreg.trans hfield
    | r10 => exact hreg.trans (congrArg HalpSyscallRegFrame.r10 hframe)
    | r9 => exact hreg.trans (congrArg HalpSyscallRegFrame.r9 hframe)
    | r8 => exact hreg.trans (congrArg HalpSyscallRegFrame.r8 hframe)
    | rdx => exact hreg.trans (congrArg HalpSyscallRegFrame.rdx hframe)
    | rsi => exact hreg.trans (congrArg HalpSyscallRegFrame.rsi hframe)
    | rdi => exact hreg.trans (congrArg HalpSyscallRegFrame.rdi hframe)
    | rbx => exact hreg.trans (hkept .rbx (by decide))
    | rbp => exact hreg.trans (hkept .rbp (by decide))
    | r12 => exact hreg.trans (hkept .r12 (by decide))
    | r13 => exact hreg.trans (hkept .r13 (by decide))
    | r14 => exact hreg.trans (hkept .r14 (by decide))
    | r15 => exact hreg.trans (hkept .r15 (by decide))

/-- A user program can raise no vector but that of the system calls. That one gets to its handler,
with interrupts off and from a user program on the stack of the kernel; and once the call is carried
out, the program goes on with the result and its registers. -/
theorem syscall_returns (h : Handlers) (idt : Idt) (rsp0 : BitVec 64) (dispatch : Dispatch)
    (m : Machine) :
    (m.cs = aur64UserCodeSelector → ∀ vector < 256,
      (softwareInterrupt (halpInitializeInterrupts h idt) rsp0 vector m ≠ none ↔
        vector = halpSyscallVector)) ∧
      ∃ m₀, softwareInterrupt (halpInitializeInterrupts h idt) rsp0 halpSyscallVector m = some m₀ ∧
        m₀.rip = h.syscall ∧ m₀.rflags.getLsbD 9 = false ∧
        (m.cs = aur64UserCodeSelector → m₀.reg .rsp = (rsp0 &&& ~~~0xF) - 40) ∧
        ∀ m₁, Returned dispatch (exec syscallEntry m₀) m₁ →
          ReturnsWith m (exec syscallExit m₁) (dispatch (m.reg .rax) (m.reg .rdi) (m.reg .rsi)
            (m.reg .rdx) (m.reg .r10) (m.reg .r8) (m.reg .r9)) := by
  have hsyscall : halpSyscallVector < 256 := by decide
  refine ⟨fun hcs vector hvector => ?_, ?_⟩
  · have hgate := isGate_halpInitializeInterrupts idt h hvector
    have hdpl := dpl_halpInitializeInterrupts idt h hvector
    have huser : (m.cs &&& 0x3).toNat = 3 := by
      rw [hcs]
      decide
    rw [softwareInterrupt, hdpl, huser]
    by_cases hcall : vector = halpSyscallVector
    · rw [if_pos hcall, if_pos ⟨hgate, by decide⟩]
      exact iff_of_true (Option.some_ne_none _) hcall
    · rw [if_neg hcall, if_neg fun hboth => absurd hboth.2 (by decide)]
      exact iff_of_false (fun hne => hne rfl) hcall
  · have hgate := isGate_halpInitializeInterrupts idt h hsyscall
    have hdpl := dpl_halpInitializeInterrupts idt h hsyscall
    have hprivilege : (m.cs &&& 0x3).toNat ≤ 3 := by
      rw [BitVec.toNat_and]
      exact Nat.and_le_right
    rw [if_pos rfl] at hdpl
    refine ⟨enterGate (halpInitializeInterrupts h idt halpSyscallVector) rsp0 m, ?_, ?_, ?_,
      fun hcs => ?_, fun m₁ hreturned => hreturned.returnsWith⟩
    · rw [softwareInterrupt, hdpl, if_pos ⟨hgate, hprivilege⟩]
    · rw [halpInitializeInterrupts_eq idt h hsyscall]
      exact target_idtEntry _ _
    · change (m.rflags &&& ~~~gateFlags).getLsbD 9 = false
      have hbit : (~~~gateFlags).getLsbD 9 = false := by decide
      rw [BitVec.getLsbD_and, hbit, Bool.and_false]
    · change gateStack rsp0 m - 40 = _
      have huser : ¬m.cs &&& 0x3 = 0 := by
        rw [hcs]
        decide
      rw [gateStack, if_neg huser]

end NtxKernel.Hal
