import NtxKernel.Basic
import NtxKernel.Foundations.Search
import NtxKernel.Foundations.Queue
import NtxKernel.Ob.Objects

/-!
# Threads and the scheduler

The thread pool and the scheduler of `kernel/ps/init.c`. The run queue is linked through the
field `RunQueueNext` of the threads. A routine that can fail an assertion or reach `HalHalt`,
neither of which returns, gives `none` there.

`PsDispatch` ends in a call of `KiArchSwitchContext`, where control leaves for another thread.
Here it reports which switch it asks for; what the switch does is the business of the processor
(`NtxKernel.Ps.Cpu`). Three effects on the hardware are kept as the last argument they were
called with: `HalSetKernelStackPointer`, `MmActivateAddressSpace` and `KiArchInitializeContext`,
which leaves a thread with no saved context.

The results of calls into the other managers are arguments: the object that `ObCreateObject`
made, the address space that `MmCreateAddressSpace` made and the page-table entries that
`MmAsQueryPte` read.
-/

namespace NtxKernel.Ps

open Foundations Ob

/-- `PS_MAX_PROCESSES`. -/
abbrev psMaxProcesses : ℕ := 32

/-- `PS_MAX_THREADS`. -/
abbrev psMaxThreads : ℕ := 128

def psDefaultTimesliceTicks : U32 := 4

/-- `PS_USER_TOP`. -/
def psUserTop : U64 := 0x0000800000000000

def psPtePresent : U64 := 0x001
def psPteWritable : U64 := 0x002
def psPteUser : U64 := 0x004
def psPteNx : U64 := 1 <<< 63

/-- `KPROCESS *`, a slot of `gPsProcessPool`. -/
abbrev ProcessRef := Fin psMaxProcesses

/-- `KTHREAD *`, a slot of `gPsThreadPool`. -/
abbrev ThreadRef := Fin psMaxThreads

/-- `PS_THREAD_STATE`. -/
inductive PsThreadState
  | ready
  | running
  | blocked
  | dead
  deriving DecidableEq

/-- `KPROCESS`. -/
structure KProcess where
  objectHeader : Option ObjectRef
  processId : U64
  addressSpaceRoot : Option AddressSpaceRef
  deriving DecidableEq

/-- `KTHREAD`, without its saved context. -/
@[ext]
structure KThread where
  objectHeader : Option ObjectRef
  threadId : U64
  ownerProcess : Option ProcessRef
  state : PsThreadState
  timeSliceTicks : U32
  remainingTicks : U32
  runQueueNext : Option ThreadRef
  waitQueueNext : Option ThreadRef
  /-- The address of the routine, none when null. -/
  startRoutine : Option U64
  startContext : U64
  kernelStackTop : U64
  isUserThread : Bool
  userEntry : U64
  userStackTop : U64
  userArg0 : U64
  userArg1 : U64
  deriving DecidableEq

/-- The globals of the process and thread manager. -/
structure PsState where
  processPool : ProcessRef → KProcess
  processInUse : ProcessRef → Bool
  threadPool : ThreadRef → KThread
  threadInUse : ThreadRef → Bool
  nextProcessId : U64
  nextThreadId : U64
  systemProcess : Option ProcessRef
  currentThread : Option ThreadRef
  runQueueHead : Option ThreadRef
  runQueueTail : Option ThreadRef
  reschedulePending : Bool
  ready : Bool
  /-- The last argument of `HalSetKernelStackPointer`. -/
  kernelStackPointer : U64
  /-- The last argument of `MmActivateAddressSpace`. -/
  activeAddressSpace : Option AddressSpaceRef

/-- A slot of the statically allocated pool, all zero. -/
def KThread.zero : KThread where
  objectHeader := none
  threadId := 0
  ownerProcess := none
  state := .ready
  timeSliceTicks := 0
  remainingTicks := 0
  runQueueNext := none
  waitQueueNext := none
  startRoutine := none
  startContext := 0
  kernelStackTop := 0
  isUserThread := false
  userEntry := 0
  userStackTop := 0
  userArg0 := 0
  userArg1 := 0

/-- The globals before `PsInitialize`, all zero. -/
def PsState.zero : PsState where
  processPool _ := ⟨none, 0, none⟩
  processInUse _ := false
  threadPool _ := .zero
  threadInUse _ := false
  nextProcessId := 0
  nextThreadId := 0
  systemProcess := none
  currentThread := none
  runQueueHead := none
  runQueueTail := none
  reschedulePending := false
  ready := false
  kernelStackPointer := 0
  activeAddressSpace := none

namespace PsState

/-- Write to the thread `t`. -/
def modifyThread (ps : PsState) (t : ThreadRef) (f : KThread → KThread) : PsState :=
  { ps with threadPool := Function.update ps.threadPool t (f (ps.threadPool t)) }

@[simp]
theorem modifyThread_self (ps : PsState) (t : ThreadRef) (f : KThread → KThread) :
    (ps.modifyThread t f).threadPool t = f (ps.threadPool t) :=
  Function.update_self ..

theorem modifyThread_of_ne (ps : PsState) {t u : ThreadRef} (h : u ≠ t) (f : KThread → KThread) :
    (ps.modifyThread t f).threadPool u = ps.threadPool u :=
  Function.update_of_ne h ..

/-- Write `RunQueueNext` of the thread `t`. -/
def setRunQueueNext (ps : PsState) (t : ThreadRef) (next : Option ThreadRef) : PsState :=
  ps.modifyThread t fun thread => { thread with runQueueNext := next }

/-- Write `State` of the thread `t`. -/
def setState (ps : PsState) (t : ThreadRef) (state : PsThreadState) : PsState :=
  ps.modifyThread t fun thread => { thread with state := state }

/-- Write null to `gPsCurrentThread`. -/
def clearCurrentThread (ps : PsState) : PsState := { ps with currentThread := none }

/-- The pointers of the run queue. -/
def runQueue (ps : PsState) : Queue ThreadRef where
  next t := (ps.threadPool t).runQueueNext
  head := ps.runQueueHead
  tail := ps.runQueueTail

end PsState

/-! ## The run queue -/

/-- `PspRunQueuePush`. -/
def pspRunQueuePush (ps : PsState) (thread : ThreadRef) : Option PsState :=
  if (ps.threadPool thread).state = .dead then none
  else
    let ps := ps.setRunQueueNext thread none
    match ps.runQueueTail with
    | none => some { ps with runQueueHead := some thread, runQueueTail := some thread }
    | some tail =>
      let ps := ps.setRunQueueNext tail (some thread)
      some { ps with runQueueTail := some thread }

/-- `PspRunQueuePop`. -/
def pspRunQueuePop (ps : PsState) : PsState × Option ThreadRef :=
  match ps.runQueueHead with
  | none => (ps, none)
  | some thread =>
    let next := (ps.threadPool thread).runQueueNext
    let ps := { ps with
      runQueueHead := next
      runQueueTail := if next = none then none else ps.runQueueTail }
    (ps.setRunQueueNext thread none, some thread)

/-! ## Dispatching -/

/-- How `PsDispatch` ends: with an error, with success and no switch, or in a call of
`KiArchSwitchContext`. -/
inductive PsDispatched
  | failed (status : KStatus)
  | stayed
  | switched (previous next : ThreadRef)
  deriving DecidableEq

/-- The part of `PsDispatch` about the previous thread: one that is running goes behind the run
queue. -/
def psDispatchPrevious (ps : PsState) : Option PsState :=
  match ps.currentThread with
  | some previous =>
    if (ps.threadPool previous).state = .running then
      pspRunQueuePush (ps.setState previous .ready) previous
    else some ps
  | none => some ps

/-- The thread whose start routine `PspThreadEntryThunk` calls. -/
def KThread.started (t : KThread) : KThread := { t with startRoutine := none, startContext := 0 }

/-- The thread after a tick of its time slice. -/
def KThread.ticked (t : KThread) : KThread := { t with remainingTicks := t.remainingTicks - 1 }

/-- The thread that `PsDispatch` makes current: it runs with a fresh time slice. -/
def KThread.dispatched (t : KThread) : KThread :=
  { t with state := .running, remainingTicks := t.timeSliceTicks }

/-- The part of `PsDispatch` about the next thread, whose process is `owner`. -/
def psDispatchNext (ps : PsState) (next : ThreadRef) (owner : ProcessRef) : PsState :=
  let ps := ps.modifyThread next KThread.dispatched
  { ps with
    currentThread := some next
    kernelStackPointer := (ps.threadPool next).kernelStackTop
    activeAddressSpace := ((ps.processPool owner).addressSpaceRoot).or ps.activeAddressSpace }

/-- How `PsDispatch` ends after making `next` the current thread. -/
def psDispatchSwitch (previous : Option ThreadRef) (next : ThreadRef) : PsDispatched :=
  match previous with
  | some p => if p ≠ next then .switched p next else .stayed
  | none => .stayed

/-- `PsDispatch`. -/
def psDispatch (ps : PsState) : Option (PsState × PsDispatched) :=
  if ps.ready = false then some (ps, .failed .invalidParameter)
  else
    match pspRunQueuePop ps with
    | (ps, none) => some (ps, .failed .initFailed)
    | (ps, some next) =>
      match (ps.threadPool next).ownerProcess with
      | none => none
      | some owner =>
        (psDispatchPrevious ps).map fun ps' =>
          (psDispatchNext ps' next owner, psDispatchSwitch ps.currentThread next)

/-- `PsYieldThread`. -/
def psYieldThread (ps : PsState) : Option (PsState × PsDispatched) :=
  match ps.currentThread with
  | none => some (ps, .failed .invalidParameter)
  | some current =>
    if ps.ready = false then some (ps, .failed .invalidParameter)
    else if (ps.threadPool current).state ≠ .running then none
    else psDispatch { ps with reschedulePending := false }

/-- The common body of `PsExitCurrentThread` and `PsBlockCurrentThread`: the current thread takes
`state`, no thread is current, and another is dispatched. -/
def psReleaseCurrentThread (ps : PsState) (state : PsThreadState) :
    Option (PsState × PsDispatched) :=
  match ps.currentThread with
  | none => some (ps, .failed .invalidParameter)
  | some current =>
    if ps.ready = false then some (ps, .failed .invalidParameter)
    else psDispatch (ps.setState current state).clearCurrentThread

/-- `PsExitCurrentThread`; the exit code is not used. -/
def psExitCurrentThread (ps : PsState) : Option (PsState × PsDispatched) :=
  psReleaseCurrentThread ps .dead

/-- `PsBlockCurrentThread`. -/
def psBlockCurrentThread (ps : PsState) : Option (PsState × PsDispatched) :=
  psReleaseCurrentThread ps .blocked

/-- `PsReadyThread`. -/
def psReadyThread (ps : PsState) (thread : ThreadRef) : Option (PsState × Except KStatus Unit) :=
  if ps.ready = false then some (ps, .error .invalidParameter)
  else if (ps.threadPool thread).state = .dead then some (ps, .error .invalidParameter)
  else do
    let ps ← pspRunQueuePush (ps.setState thread .ready) thread
    some (ps, .ok ())

/-- `PsWakeThread`. -/
def psWakeThread (ps : PsState) (thread : ThreadRef) : Option PsState :=
  if ps.ready = false then some ps
  else if (ps.threadPool thread).state = .blocked then
    pspRunQueuePush (ps.setState thread .ready) thread
  else some ps

/-- `PsOnTimerTick`. -/
def psOnTimerTick (ps : PsState) : PsState :=
  match ps.currentThread with
  | none => ps
  | some current =>
    if ps.ready = false then ps
    else
      let ps :=
        if 0 < (ps.threadPool current).remainingTicks.toNat then
          ps.modifyThread current KThread.ticked
        else ps
      if (ps.threadPool current).remainingTicks = 0 then { ps with reschedulePending := true }
      else ps

/-- `PsHandlePreemptionPoint`: none of its dispatches is reported when nothing is pending. -/
def psHandlePreemptionPoint (ps : PsState) : Option (PsState × Option PsDispatched) :=
  if ps.ready = false ∨ ps.reschedulePending = false then some (ps, none)
  else (psYieldThread ps).map fun (ps, d) => (ps, some d)

/-! ## Creating threads -/

/-- `PspAllocateThreadSlot`. -/
def pspAllocateThreadSlot (ps : PsState) : PsState × Except KStatus ThreadRef :=
  match firstIndex fun t => !ps.threadInUse t with
  | some t => ({ ps with threadInUse := Function.update ps.threadInUse t true }, .ok t)
  | none => (ps, .error .initFailed)

/-- The kernel stack of a thread lies behind the base of `gPsThreadStackPool`, sixteen KiB for
each thread. -/
def threadStackTop (stackPool : U64) (thread : ThreadRef) : U64 :=
  stackPool + BitVec.ofNat 64 ((thread + 1) * 16384)

/-- What the two creation routines write to the slot they took. -/
def KThread.created (threadId : U64) (process : ProcessRef) (kernelStackTop : U64)
    (header : ObjectRef) : KThread :=
  { KThread.zero with
    objectHeader := some header
    threadId := threadId
    ownerProcess := some process
    timeSliceTicks := psDefaultTimesliceTicks
    remainingTicks := psDefaultTimesliceTicks
    kernelStackTop := kernelStackTop }

/-- `PsCreateKernelThread`; `object` is what `ObCreateObject` returned. -/
def psCreateKernelThread (ps : PsState) (stackPool : U64) (process : ProcessRef)
    (startRoutine : Option U64) (startContext : U64) (object : Except KStatus ObjectRef) :
    PsState × Except KStatus ThreadRef :=
  if ps.ready = false then (ps, .error .invalidParameter)
  else
    match pspAllocateThreadSlot ps with
    | (ps, .error e) => (ps, .error e)
    | (ps, .ok thread) =>
      match object with
      | .error e => (ps, .error e)
      | .ok header =>
        let ps := ps.modifyThread thread fun _ =>
          { KThread.created ps.nextThreadId process (threadStackTop stackPool thread) header with
            startRoutine := startRoutine
            startContext := startContext }
        ({ ps with nextThreadId := ps.nextThreadId + 1 }, .ok thread)

/-- The checks `PsCreateUserThread` makes before it takes a slot, and the status it refuses with.
`entryPte` and `stackPte` are what `MmAsQueryPte` returned for the pages of the entry and of the
stack. -/
def pspCheckUserThread (ps : PsState) (process : ProcessRef) (userEntry userStackTop : U64)
    (entryPte stackPte : Except KStatus U64) : Option KStatus :=
  if ps.ready = false then some .invalidParameter
  else if userEntry = 0 ∨ userStackTop.toNat < 16 then some .invalidParameter
  else if psUserTop.toNat ≤ userEntry.toNat ∨ psUserTop.toNat ≤ userStackTop.toNat then
    some .accessDenied
  else if (ps.processPool process).addressSpaceRoot = none then some .invalidParameter
  else
    match entryPte with
    | .error _ => some .accessDenied
    | .ok entry =>
      if entry &&& psPtePresent = 0 ∨ entry &&& psPteUser = 0 ∨ entry &&& psPteNx ≠ 0 then
        some .accessDenied
      else
        match stackPte with
        | .error _ => some .accessDenied
        | .ok stack =>
          if stack &&& psPtePresent = 0 ∨ stack &&& psPteUser = 0 ∨
              stack &&& psPteWritable = 0 then
            some .accessDenied
          else none

/-- `PsCreateUserThread`; `object` is what `ObCreateObject` returned. -/
def psCreateUserThread (ps : PsState) (stackPool : U64) (process : ProcessRef)
    (userEntry userStackTop userArg0 userArg1 : U64) (entryPte stackPte : Except KStatus U64)
    (object : Except KStatus ObjectRef) : PsState × Except KStatus ThreadRef :=
  match pspCheckUserThread ps process userEntry userStackTop entryPte stackPte with
  | some e => (ps, .error e)
  | none =>
    match pspAllocateThreadSlot ps with
    | (ps, .error e) => (ps, .error e)
    | (ps, .ok thread) =>
      match object with
      | .error e => (ps, .error e)
      | .ok header =>
        let ps := ps.modifyThread thread fun _ =>
          { KThread.created ps.nextThreadId process (threadStackTop stackPool thread) header with
            isUserThread := true
            userEntry := userEntry
            userStackTop := userStackTop &&& ~~~0xF
            userArg0 := userArg0
            userArg1 := userArg1 }
        ({ ps with nextThreadId := ps.nextThreadId + 1 }, .ok thread)

/-! ## Processes and initialisation -/

/-- `PspAllocateProcessSlot`. -/
def pspAllocateProcessSlot (ps : PsState) : PsState × Except KStatus ProcessRef :=
  match firstIndex fun p => !ps.processInUse p with
  | some p => ({ ps with processInUse := Function.update ps.processInUse p true }, .ok p)
  | none => (ps, .error .initFailed)

/-- `PspCreateProcessInternal`; `object` is what `ObCreateObject` returned, and `addressSpace` what
`MmCreateAddressSpace` returns for the new process. -/
def pspCreateProcessInternal (ps : PsState) (object : Except KStatus ObjectRef)
    (addressSpace : U64 → Except KStatus AddressSpaceRef) :
    PsState × Except KStatus ProcessRef :=
  match pspAllocateProcessSlot ps with
  | (ps, .error e) => (ps, .error e)
  | (ps, .ok process) =>
    match object with
    | .error e => (ps, .error e)
    | .ok header =>
      let id := ps.nextProcessId
      let write (ps : PsState) (p : KProcess) : PsState :=
        { ps with processPool := Function.update ps.processPool process p }
      let ps := write { ps with nextProcessId := id + 1 }
        { ps.processPool process with objectHeader := some header, processId := id }
      match addressSpace id with
      | .error e => (ps, .error e)
      | .ok root =>
        (write ps { ps.processPool process with addressSpaceRoot := some root }, .ok process)

/-- `PspCreateSystemProcess`. -/
def pspCreateSystemProcess (ps : PsState) (object : Except KStatus ObjectRef)
    (addressSpace : U64 → Except KStatus AddressSpaceRef) : PsState × Except KStatus Unit :=
  match pspCreateProcessInternal ps object addressSpace with
  | (ps, .error e) => (ps, .error e)
  | (ps, .ok process) => ({ ps with systemProcess := some process }, .ok ())

/-- What the calls of `PsInitialize` into the other managers return. -/
structure PsInitializeCalls where
  processType : Except KStatus TypeRef
  threadType : Except KStatus TypeRef
  processObject : Except KStatus ObjectRef
  addressSpace : U64 → Except KStatus AddressSpaceRef
  threadObject : Except KStatus ObjectRef
  /-- The address of `gPsThreadStackPool`. -/
  stackPool : U64

/-- Whether the status of `ObCreateType` stops `PsInitialize`. -/
def typeRefused (status : Except KStatus TypeRef) : Option KStatus :=
  match status with
  | .error e => if e = .alreadyInitialized then none else some e
  | .ok _ => none

/-- The part of `PsInitialize` behind `gPsReady = 1`: the bootstrap thread is created, readied and
dispatched. `NULL` for the system process is refused by `PsCreateKernelThread`. -/
def psStartBootstrapThread (ps : PsState) (calls : PsInitializeCalls) :
    Option (PsState × Except KStatus Unit) :=
  let failed (ps : PsState) (e : KStatus) : Option (PsState × Except KStatus Unit) :=
    some ({ ps with ready := false }, .error e)
  match ps.systemProcess with
  | none => failed ps .invalidParameter
  | some system =>
    match psCreateKernelThread ps calls.stackPool system none 0 calls.threadObject with
    | (ps, .error e) => failed ps e
    | (ps, .ok bootstrap) =>
      match psReadyThread ps bootstrap with
      | none => none
      | some (ps, .error e) => failed ps e
      | some (ps, .ok _) =>
        match psDispatch ps with
        | none => none
        | some (ps, .failed e) => failed ps e
        | some (ps, _) => some (ps, .ok ())

/-- `PsInitialize`. -/
def psInitialize (ps : PsState) (calls : PsInitializeCalls) :
    Option (PsState × Except KStatus Unit) :=
  if ps.ready then some (ps, .error .alreadyInitialized)
  else
    let ps := { ps with
      processInUse := fun _ => false
      threadInUse := fun _ => false
      nextProcessId := 1
      nextThreadId := 1
      runQueueHead := none
      runQueueTail := none
      currentThread := none
      reschedulePending := false }
    match typeRefused calls.processType with
    | some e => some (ps, .error e)
    | none =>
      match typeRefused calls.threadType with
      | some e => some (ps, .error e)
      | none =>
        match pspCreateSystemProcess ps calls.processObject calls.addressSpace with
        | (ps, .error e) => some (ps, .error e)
        | (ps, .ok _) => psStartBootstrapThread { ps with ready := true } calls

end NtxKernel.Ps
