import NtxKernel.Foundations.Run
import NtxKernel.Ps.Executing
import NtxKernel.Ps.Spawn
import NtxKernel.Mm.Lazy

/-!
# The slots of threads and processes

`PspAllocateThreadSlot` and `PspAllocateProcessSlot` mark a slot as in use, and nothing ever takes
the mark back: not a creation that fails behind them, and not a thread that dies.

* `SlotSystem` are the managers next to the slots that were returned by calls that succeeded.
* `SlotSystem.SlotsExact`: the slots in use are those of created threads that are not dead, and of
  created processes. `SlotSystem.FailureKeeps`: a call that failed left the pools as they were.
* `SlotSystem.KeepsSlots` is the condition on a step: no thread dies, and a call that takes a slot
  finds what it needs after that.
* `slots_exact`: a run from `PsInitialize` whose steps meet the condition has both properties at
  every step.
* `dead_thread_keeps_slot`: a thread exits and its slot stays in use.
-/

namespace NtxKernel.Ps

open Foundations Ob Mm Kpe PsGlobals MmGlobals ExecGlobals

/-! ## Scheduling -/

/-- The slots stay in use as they were, and no thread dies. -/
structure Schedules (p p' : PsState) : Prop where
  processInUse : p'.processInUse = p.processInUse
  threadInUse : p'.threadInUse = p.threadInUse
  systemProcess : p'.systemProcess = p.systemProcess
  ready : p'.ready = p.ready
  dead : ∀ t, (p'.threadPool t).state = .dead → (p.threadPool t).state = .dead

namespace Schedules

variable {p p' p'' : PsState} {t : ThreadRef}

theorem refl (p : PsState) : Schedules p p := ⟨rfl, rfl, rfl, rfl, fun _ h => h⟩

theorem trans (h : Schedules p p') (h' : Schedules p' p'') : Schedules p p'' :=
  ⟨h'.processInUse.trans h.processInUse, h'.threadInUse.trans h.threadInUse,
    h'.systemProcess.trans h.systemProcess, h'.ready.trans h.ready,
    fun t ht => h.dead t (h'.dead t ht)⟩

theorem of_unlinked (h : p'.unlinked = p.unlinked) : Schedules p p' where
  processInUse := by
    have hinUse := congrArg PsState.processInUse h
    exact hinUse
  threadInUse := unlinked_threadInUse h
  systemProcess := by
    have hsystem := congrArg PsState.systemProcess h
    exact hsystem
  ready := unlinked_ready h
  dead t ht := by rwa [unlinked_state h] at ht

theorem setState (p : PsState) (t : ThreadRef) {state : PsThreadState} (h : state ≠ .dead) :
    Schedules p (p.setState t state) where
  processInUse := rfl
  threadInUse := rfl
  systemProcess := rfl
  ready := rfl
  dead u hu := by
    by_cases hut : u = t
    · rw [hut, PsState.setState, PsState.modifyThread_self] at hu
      exact absurd hu h
    · rwa [PsState.setState, PsState.modifyThread_of_ne _ hut] at hu

theorem pspRunQueuePush (h : pspRunQueuePush p t = some p') : Schedules p p' := by
  by_cases hdead : (p.threadPool t).state = .dead
  · rw [Ps.pspRunQueuePush, if_pos hdead] at h
    cases h
  · obtain ⟨p₁, hpush, -, hrest⟩ := pspRunQueuePush_eq hdead
    rw [hpush] at h
    cases h
    exact of_unlinked hrest

theorem psDispatchPrevious (h : psDispatchPrevious p = some p') : Schedules p p' := by
  unfold Ps.psDispatchPrevious at h
  split at h
  · split at h
    · exact (setState p _ PsThreadState.noConfusion).trans (pspRunQueuePush h)
    · cases h
      exact refl p
  · cases h
    exact refl p

theorem psDispatchNext (p : PsState) (next : ThreadRef) (owner : ProcessRef) :
    Schedules p (psDispatchNext p next owner) where
  processInUse := rfl
  threadInUse := rfl
  systemProcess := rfl
  ready := rfl
  dead t ht := by
    rw [threadPool_psDispatchNext] at ht
    by_cases htn : t = next
    · rw [htn, Function.update_self] at ht
      cases ht
    · rwa [Function.update_of_ne htn] at ht

theorem psDispatch {d : PsDispatched} (h : psDispatch p = some (p', d)) : Schedules p p' := by
  unfold Ps.psDispatch at h
  split at h
  · cases h
    exact refl p
  have hpop := of_unlinked (pspRunQueuePop_eq p).2.2
  generalize pspRunQueuePop p = r at h hpop
  obtain ⟨p₁, _ | next⟩ := r
  · cases h
    exact hpop
  dsimp only at h
  split at h
  · cases h
  obtain ⟨p₂, hprev, heq⟩ := Option.map_eq_some_iff.1 h
  cases heq
  exact hpop.trans ((psDispatchPrevious hprev).trans (psDispatchNext ..))

theorem psYieldThread {d : PsDispatched} (h : psYieldThread p = some (p', d)) :
    Schedules p p' := by
  unfold Ps.psYieldThread at h
  split at h
  · cases h
    exact refl p
  split at h
  · cases h
    exact refl p
  split at h
  · cases h
  · have hclear : Schedules p { p with reschedulePending := false } :=
      ⟨rfl, rfl, rfl, rfl, fun _ ht => ht⟩
    exact hclear.trans (psDispatch h)

theorem psBlockCurrentThread {d : PsDispatched} (h : psBlockCurrentThread p = some (p', d)) :
    Schedules p p' := by
  unfold Ps.psBlockCurrentThread psReleaseCurrentThread at h
  split at h
  · cases h
    exact refl p
  next current _ =>
  split at h
  · cases h
    exact refl p
  · have hblock : Schedules p (p.setState current .blocked) :=
      setState p current PsThreadState.noConfusion
    have hclear : Schedules p (p.setState current .blocked).clearCurrentThread :=
      hblock.trans ⟨rfl, rfl, rfl, rfl, fun _ ht => ht⟩
    exact hclear.trans (psDispatch h)

theorem psReadyThread {r : Except KStatus Unit} (h : psReadyThread p t = some (p', r)) :
    Schedules p p' := by
  unfold Ps.psReadyThread at h
  split at h
  · cases h
    exact refl p
  split at h
  · cases h
    exact refl p
  · obtain ⟨p₁, hpush, heq⟩ := Option.bind_eq_some_iff.1 h
    cases heq
    exact (setState p t PsThreadState.noConfusion).trans (pspRunQueuePush hpush)

theorem psWakeThread (h : psWakeThread p t = some p') : Schedules p p' := by
  unfold Ps.psWakeThread at h
  split at h
  · cases h
    exact refl p
  split at h
  · exact (setState p t PsThreadState.noConfusion).trans (pspRunQueuePush h)
  · cases h
    exact refl p

end Schedules

/-- A thread that is not dead can be readied. -/
theorem psReadyThread_ok {p p' : PsState} {t : ThreadRef} {r : Except KStatus Unit}
    (hready : p.ready = true) (ht : (p.threadPool t).state ≠ .dead)
    (h : psReadyThread p t = some (p', r)) : r = .ok () := by
  unfold psReadyThread at h
  rw [if_neg (by rw [hready]; exact Bool.noConfusion), if_neg ht] at h
  obtain ⟨p₁, -, heq⟩ := Option.bind_eq_some_iff.1 h
  cases heq
  rfl

/-! ## Room for what is created -/

/-- `ObCreateObject` finds its type and a free slot. -/
def ObjectRoom {σ : Type} (ob : ObState σ) (type : Option TypeRef) : Prop :=
  type ≠ none ∧ ob.ready = true ∧ ∃ o, ob.objectInUse o = false

/-- `MmCreateAddressSpace` finds a free slot and a page. -/
def AddressSpaceRoom (m : MmState) : Prop :=
  m.ready = true ∧ (∃ a, m.addressSpaceInUse a = false) ∧ ∃ pa, (mmAllocPage m).2 = .ok pa

theorem mmCreateAddressSpace_ok {m : MmState} (h : AddressSpaceRoom m) (id : U64) :
    ∃ m' a, mmCreateAddressSpace m id = (m', .ok a) := by
  obtain ⟨hready, ⟨a, ha⟩, pa, hpa⟩ := h
  unfold mmCreateAddressSpace
  rw [if_neg (by rw [hready]; exact Bool.noConfusion)]
  split
  next hnone =>
    have hfree := firstIndex_eq_none.1 hnone a
    rw [ha] at hfree
    cases hfree
  · split
    next heq =>
      rw [heq] at hpa
      cases hpa
    · exact ⟨_, _, rfl⟩

/-! ## The run -/

/-- The managers and the slots that calls that succeeded have returned. -/
structure SlotSystem (σ : Type) where
  ob : ObState σ
  k : σ
  /-- The threads that were created. -/
  threads : ThreadRef → Bool
  /-- The processes that were created. -/
  processes : ProcessRef → Bool
  /-- What the last step returned, if it is a call that creates something or exits. -/
  returned : Option (Except KStatus Unit)

/-- The steps of a run. -/
inductive SlotOp
  | createProcess (name : Option CString)
  | createKernelThread (process : ProcessRef) (startRoutine : Option U64) (startContext : U64)
  | createUserThread (process : ProcessRef) (userEntry userStackTop userArg0 userArg1 : U64)
  | spawn (buffer : ImageBuffer)
  | exit (exitCode : U64)
  /-- A start routine returns, or there is none: the end of a turn in `PspThreadEntryThunk`. -/
  | threadReturn (thread : ThreadRef)
  | ready (thread : ThreadRef)
  | yield
  | block
  | wake (thread : ThreadRef)

variable {σ : Type} [ExecGlobals σ]

namespace SlotSystem

/-- Mark a slot. -/
def take {n : Type} [DecidableEq n] (slots : n → Bool) : Option n → n → Bool
  | none => slots
  | some i => Function.update slots i true

/-- Record what a call created, by its slot. -/
def created {α n : Type} [DecidableEq n] (slots : n → Bool) (r : Except KStatus α)
    (slot : α → Option n) : n → Bool :=
  match r with
  | .error _ => slots
  | .ok a => take slots (slot a)

/-- What a call returned, without its value. -/
def status {α : Type} : Except KStatus α → Except KStatus Unit
  | .error e => .error e
  | .ok _ => .ok ()

/-- What `PsExitCurrentThread` returned, if it returns. -/
def exitStatus : PsDispatched → Except KStatus Unit
  | .failed e => .error e
  | _ => .ok ()

/-- The slot that `PspAllocateThreadSlot` takes. -/
def freeThread (p : PsState) : Option ThreadRef := firstIndex fun t => !p.threadInUse t

/-- The slot that `PspAllocateProcessSlot` takes. -/
def freeProcess (p : PsState) : Option ProcessRef := firstIndex fun q => !p.processInUse q

/-- What a call leaves, with the slots `q` and `t` of what it created. -/
def record {α : Type} (s : SlotSystem σ) (q : α → Option ProcessRef) (t : α → Option ThreadRef)
    (x : ObState σ × σ × Except KStatus α) : SlotSystem σ where
  ob := x.1
  k := x.2.1
  threads := created s.threads x.2.2 t
  processes := created s.processes x.2.2 q
  returned := some (status x.2.2)

/-- Perform a step. A spawn that succeeds has created the process and the thread in the slots that
were free. -/
def perform (statics : PsStatics) (s : SlotSystem σ) : SlotOp → Option (SlotSystem σ)
  | .createProcess name =>
    some (s.record some (fun _ => none) (Executive.psCreateProcess statics s.ob s.k name))
  | .createKernelThread process startRoutine startContext =>
    some (s.record (fun _ => none) some
      (Executive.psCreateKernelThread statics s.ob s.k process startRoutine startContext))
  | .createUserThread process userEntry userStackTop userArg0 userArg1 =>
    some (s.record (fun _ => none) some
      (Executive.psCreateUserThread statics s.ob s.k process userEntry userStackTop userArg0
        userArg1))
  | .spawn buffer =>
    (Executive.psSpawnUserKpeFromBuffer statics s.ob s.k buffer).map
      (s.record (fun _ => freeProcess (ps s.k)) fun _ => freeThread (ps s.k))
  | .exit _ =>
    (psExitCurrentThread (ps s.k)).map fun (p, d) =>
      { s with k := setPs p s.k, returned := some (exitStatus d) }
  | .threadReturn t =>
    (psDispatch ((ps s.k).setState t .dead)).map fun (p, _) =>
      { s with k := setPs p s.k, returned := none }
  | .ready t =>
    (psReadyThread (ps s.k) t).map fun (p, _) =>
      { s with k := setPs p s.k, returned := none }
  | .yield =>
    (psYieldThread (ps s.k)).map fun (p, _) => { s with k := setPs p s.k, returned := none }
  | .block =>
    (psBlockCurrentThread (ps s.k)).map fun (p, _) =>
      { s with k := setPs p s.k, returned := none }
  | .wake t => (psWakeThread (ps s.k) t).map fun p => { s with k := setPs p s.k, returned := none }

/-- One step, as a relation. -/
def Step (statics : PsStatics) (s : SlotSystem σ) (op : SlotOp) (s' : SlotSystem σ) : Prop :=
  s.perform statics op = some s'

/-- The managers when `PsInitialize` returns: it has created the bootstrap thread, which is
current, and the system process. -/
def boot (ob : ObState σ) (k : σ) : SlotSystem σ where
  ob := ob
  k := k
  threads t := decide ((ps k).currentThread = some t)
  processes p := decide ((ps k).systemProcess = some p)
  returned := none

/-- The slots in use are those of created threads that are not dead, and of created processes. -/
structure SlotsExact (s : SlotSystem σ) : Prop where
  threads : ∀ t, (ps s.k).threadInUse t = true ↔
    s.threads t = true ∧ ((ps s.k).threadPool t).state ≠ .dead
  processes : ∀ p, (ps s.k).processInUse p = true ↔ s.processes p = true

/-- The pools and the page allocator are as they were. -/
structure PoolsKept (s s' : SlotSystem σ) : Prop where
  processPool : (ps s'.k).processPool = (ps s.k).processPool
  processInUse : (ps s'.k).processInUse = (ps s.k).processInUse
  threadPool : (ps s'.k).threadPool = (ps s.k).threadPool
  threadInUse : (ps s'.k).threadInUse = (ps s.k).threadInUse
  objectPool : s'.ob.objectPool = s.ob.objectPool
  objectInUse : s'.ob.objectInUse = s.ob.objectInUse
  addressSpacePool : (mm s'.k).addressSpacePool = (mm s.k).addressSpacePool
  addressSpaceInUse : (mm s'.k).addressSpaceInUse = (mm s.k).addressSpaceInUse
  pageBitmap : (mm s'.k).pageBitmap = (mm s.k).pageBitmap
  pageRefCount : (mm s'.k).pageRefCount = (mm s.k).pageRefCount
  trackedPages : (mm s'.k).trackedPages = (mm s.k).trackedPages
  nextScanPage : (mm s'.k).nextScanPage = (mm s.k).nextScanPage

theorem PoolsKept.of_eq {s s' : SlotSystem σ} (hob : s'.ob = s.ob) (hps : ps s'.k = ps s.k)
    (hmm : mm s'.k = mm s.k) : PoolsKept s s' :=
  ⟨congrArg PsState.processPool hps, congrArg PsState.processInUse hps,
    congrArg PsState.threadPool hps, congrArg PsState.threadInUse hps,
    congrArg ObState.objectPool hob, congrArg ObState.objectInUse hob,
    congrArg MmState.addressSpacePool hmm, congrArg MmState.addressSpaceInUse hmm,
    congrArg MmState.pageBitmap hmm, congrArg MmState.pageRefCount hmm,
    congrArg MmState.trackedPages hmm, congrArg MmState.nextScanPage hmm⟩

/-- A call that failed left everything as it was. -/
def FailureKeeps (s s' : SlotSystem σ) : Prop :=
  ∀ e, s'.returned = some (.error e) → PoolsKept s s'

/-! ## The condition -/

/-- A slot for a process is taken only when an object and an address space are there for it. -/
def ProcessRoom (statics : PsStatics) (ob : ObState σ) (k : σ) : Prop :=
  (freeProcess (ps k)).isSome → ObjectRoom ob statics.processType ∧ AddressSpaceRoom (mm k)

/-- A slot for a thread is taken only when an object is there for it. -/
def ThreadRoom (statics : PsStatics) (ob : ObState σ) (k : σ) : Prop :=
  (freeThread (ps k)).isSome → ObjectRoom ob statics.threadType

/-- The checks of `PsCreateUserThread`. -/
def userThreadChecks (k : σ) (process : ProcessRef) (userEntry userStackTop : U64) : Bool :=
  (ps k).ready && decide ¬(userEntry = 0 ∨ userStackTop.toNat < 16) &&
    decide ¬(psUserTop.toNat ≤ userEntry.toNat ∨ psUserTop.toNat ≤ userStackTop.toNat) &&
    match ((ps k).processPool process).addressSpaceRoot with
    | none => false
    | some a =>
      Executive.entryPteOk (mmAsQueryPte (mm k) a (userEntry &&& ~~~0xFFF)).2 &&
        Executive.stackPteOk (mmAsQueryPte (mm k) a ((userStackTop - 1) &&& ~~~0xFFF)).2

/-- `PsSpawnUserKpeFromBuffer` has filled the image and set the flags of its pages, and calls
`PsCreateUserThread` in the state `k'` with the entry `entry`. -/
def ImageReady (k : σ) (checked : File) (buffer : ImageBuffer) (a : AddressSpaceRef)
    (imageBase : U64) (k' : σ) (entry : U64) : Prop :=
  ∃ k₁ f img m f', Executive.activate k a = (k₁, .ok ()) ∧ buffer (some a) = some f ∧
    pspFillImage f (Executive.headersAgain checked f).1 (Executive.headersAgain checked f).2
      imageBase = .ok img ∧
    Executive.storeImage a imageBase img
      (Executive.headersAgain checked f).1.optionalHeader.sizeOfImage.toNat (mm k₁) = some m ∧
    buffer (some ((currentAddressSpace (ps k)).getD a)) = some f' ∧
    let k₂ := Executive.reactivate (setMm m k₁) (currentAddressSpace (ps k))
    k' = setMm (Executive.protectSections a imageBase (Executive.headersAgain checked f').2
      (mm k₂)) k₂ ∧
    entry = imageBase +
      (Executive.headersAgain checked f').1.optionalHeader.addressOfEntryPoint.setWidth 64

/-- Behind the mappings a spawn can activate the address space and fill the image; and the entry and
the stack pass the checks, with a slot and an object there for the thread. -/
structure FinishRoom (statics : PsStatics) (ob : ObState σ) (k : σ) (checked : File)
    (buffer : ImageBuffer) (process : ProcessRef) (a : AddressSpaceRef)
    (imageBase stackBase : U64) : Prop where
  active : (mm k).ready = true
  filled : ∀ f, buffer (some a) = some f → ∃ img, pspFillImage f
    (Executive.headersAgain checked f).1 (Executive.headersAgain checked f).2 imageBase = .ok img
  thread : ∀ k' entry, ImageReady k checked buffer a imageBase k' entry →
    userThreadChecks k' process entry (stackBase + psUserStackSize) = true ∧
      (freeThread (ps k')).isSome ∧ ObjectRoom ob statics.threadType

/-- A spawn of an image that passes the checks takes a slot for a process only when everything it
does after that succeeds. -/
def SpawnRoom (statics : PsStatics) (s : SlotSystem σ) (buffer : ImageBuffer) : Prop :=
  (ps s.k).ready = true → ∀ f, buffer (ps s.k).activeAddressSpace = some f →
    ∀ nt sections, pspCheckUserImage f = some (nt, sections) →
      ProcessRoom statics s.ob s.k ∧
        ∀ ob k process a, Executive.pspCreateProcessInternal statics s.ob s.k (some procUserName) =
          (ob, k, .ok process) → ((ps k).processPool process).addressSpaceRoot = some a →
            Executive.imageBaseOk nt = true ∧
              ∃ m imageBase stackBase,
                Executive.mapUserImage (mm k) a nt = (m, .ok (imageBase, stackBase)) ∧
                  FinishRoom statics ob (setMm m k) f buffer process a imageBase stackBase

/-- The condition on a step: no thread dies, and a slot is taken only for something that can be
created. -/
def KeepsSlots (statics : PsStatics) (s : SlotSystem σ) : SlotOp → Prop
  | .createProcess _ => (ps s.k).ready = true → ProcessRoom statics s.ob s.k
  | .createKernelThread .. => (ps s.k).ready = true → ThreadRoom statics s.ob s.k
  | .createUserThread process userEntry userStackTop _ _ =>
    userThreadChecks s.k process userEntry userStackTop = true → ThreadRoom statics s.ob s.k
  | .spawn buffer => SpawnRoom statics s buffer
  | .exit _ => (ps s.k).currentThread = none ∨ (ps s.k).ready = false
  | .threadReturn _ => False
  | _ => True

/-! ## What calls do to the pools -/

/-- The slots `q` and `t` are taken, no other slot changes and no thread dies. -/
structure Takes (p p' : PsState) (q : Option ProcessRef) (t : Option ThreadRef) : Prop where
  processInUse : p'.processInUse = take p.processInUse q
  threadInUse : p'.threadInUse = take p.threadInUse t
  systemProcess : p'.systemProcess = p.systemProcess
  ready : p'.ready = p.ready
  dead : ∀ u, (p'.threadPool u).state = .dead → t ≠ some u ∧ (p.threadPool u).state = .dead

namespace Takes

variable {p p' p'' : PsState} {q : Option ProcessRef} {t : Option ThreadRef}

theorem of_schedules (h : Schedules p p') : Takes p p' none none :=
  ⟨h.processInUse, h.threadInUse, h.systemProcess, h.ready, fun u hu => ⟨nofun, h.dead u hu⟩⟩

/-- First a process, then a thread. -/
theorem trans (h : Takes p p' q none) (h' : Takes p' p'' none t) : Takes p p'' q t where
  processInUse := h'.processInUse.trans h.processInUse
  threadInUse := h'.threadInUse.trans (congrArg (take · t) h.threadInUse)
  systemProcess := h'.systemProcess.trans h.systemProcess
  ready := h'.ready.trans h.ready
  dead u hu := ⟨(h'.dead u hu).1, (h.dead u (h'.dead u hu).2).2⟩

theorem trans_schedules (h : Takes p p' q t) (h' : Schedules p' p'') : Takes p p'' q t where
  processInUse := h'.processInUse.trans h.processInUse
  threadInUse := h'.threadInUse.trans h.threadInUse
  systemProcess := h'.systemProcess.trans h.systemProcess
  ready := h'.ready.trans h.ready
  dead u hu := h.dead u (h'.dead u hu)

end Takes

/-- A call that fails leaves the managers as they were, and one that succeeds takes the slots of
what it created. -/
def Clean {α : Type} (ob : ObState σ) (k : σ) (q : α → Option ProcessRef)
    (t : α → Option ThreadRef) : ObState σ × σ × Except KStatus α → Prop
  | (ob', k', .error _) => ob' = ob ∧ ps k' = ps k ∧ mm k' = mm k
  | (_, k', .ok a) => Takes (ps k) (ps k') (q a) (t a)

section Calls

variable (statics : PsStatics) {ob : ObState σ} {k : σ}

theorem pspCreateProcessInternal_clean (h : ProcessRoom statics ob k) (name : Option CString) :
    Clean ob k some (fun _ => none)
      (Executive.pspCreateProcessInternal statics ob k name) := by
  unfold Executive.pspCreateProcessInternal pspAllocateProcessSlot
  split
  next heq =>
    split at heq
    · cases heq
    · cases heq
      exact ⟨rfl, ps_setPs .., mm_setPs ..⟩
  next process heq =>
    split at heq
    next hfree =>
      cases heq
      obtain ⟨hobject, haddressSpace⟩ := h (by rw [freeProcess, hfree]; rfl)
      obtain ⟨ob', o, hcreate⟩ := obCreateObject_ok hobject (name.getD procUserName) obAccessAll 0
      obtain ⟨m', a, hspace⟩ := mmCreateAddressSpace_ok haddressSpace (ps k).nextProcessId
      rw [hcreate]
      dsimp only
      rw [hspace]
      show Takes _ (ps (setPs _ _)) _ _
      rw [ps_setPs]
      exact ⟨rfl, rfl, rfl, rfl, fun u hu => ⟨nofun, hu⟩⟩
    · cases heq

theorem pspCreateThread_clean (h : ThreadRoom statics ob k) (process : ProcessRef) (name : CString)
    {fill : KThread → KThread} (hfill : ∀ t, (fill t).state = t.state) :
    Clean ob k (fun _ => none) some
      (Executive.pspCreateThread statics ob k process name fill) := by
  unfold Executive.pspCreateThread pspAllocateThreadSlot
  split
  next heq =>
    split at heq
    · cases heq
    · cases heq
      exact ⟨rfl, ps_setPs .., mm_setPs ..⟩
  next thread heq =>
    split at heq
    next hfree =>
      cases heq
      obtain ⟨ob', o, hcreate⟩ := obCreateObject_ok (h (by rw [freeThread, hfree]; rfl)) name
        obAccessAll obFlagWaitable
      rw [hcreate]
      show Takes _ (ps (setPs _ _)) _ _
      rw [ps_setPs]
      refine ⟨rfl, rfl, rfl, rfl, fun u hu => ?_⟩
      change ((Function.update (ps k).threadPool thread _) u).state = _ at hu
      by_cases hut : u = thread
      · rw [hut, Function.update_self, hfill] at hu
        cases hu
      · rw [Function.update_of_ne hut] at hu
        exact ⟨fun heq => hut (Option.some.inj heq).symm, hu⟩
    · cases heq

/-- `PsCreateUserThread` refuses what does not pass the checks, and else creates a thread that starts
at the entry, with the stack aligned. -/
theorem psCreateUserThread_eq (ob : ObState σ) (k : σ) (process : ProcessRef)
    (userEntry userStackTop arg0 arg1 : U64) :
    (userThreadChecks k process userEntry userStackTop = false ∧
      ∃ e, Executive.psCreateUserThread statics ob k process userEntry userStackTop arg0 arg1 =
        (ob, k, .error e)) ∨
      userThreadChecks k process userEntry userStackTop = true ∧
        ∃ fill : KThread → KThread, (∀ t, (fill t).state = t.state ∧
            (fill t).userEntry = userEntry ∧
              (fill t).userStackTop = userStackTop &&& ~~~0xF) ∧
          Executive.psCreateUserThread statics ob k process userEntry userStackTop arg0 arg1 =
            Executive.pspCreateThread statics ob k process threadUserName fill := by
  unfold Executive.psCreateUserThread userThreadChecks
  by_cases hready : (ps k).ready = false
  · rw [if_pos hready]
    exact Or.inl ⟨by rw [hready]; rfl, _, rfl⟩
  by_cases harg : userEntry = 0 ∨ userStackTop.toNat < 16
  · rw [if_neg hready, if_pos harg, decide_eq_false (not_not.2 harg)]
    exact Or.inl ⟨by rw [Bool.and_false]; rfl, _, rfl⟩
  by_cases htop : psUserTop.toNat ≤ userEntry.toNat ∨ psUserTop.toNat ≤ userStackTop.toNat
  · rw [if_neg hready, if_neg harg, if_pos htop, decide_eq_false (not_not.2 htop)]
    exact Or.inl ⟨by rw [Bool.and_false]; rfl, _, rfl⟩
  rw [if_neg hready, if_neg harg, if_neg htop, eq_true_of_ne_false hready, decide_eq_true harg,
    decide_eq_true htop]
  rcases ((ps k).processPool process).addressSpaceRoot with _ | a
  · exact Or.inl ⟨rfl, _, rfl⟩
  dsimp only
  have hquery : ∀ va, mmAsQueryPte (mm k) a va = (mm k, (mmAsQueryPte (mm k) a va).2) :=
    fun va => Prod.ext (mmAsQueryPte_fst ..) rfl
  rw [hquery (userEntry &&& ~~~0xFFF)]
  dsimp only
  rw [hquery ((userStackTop - 1) &&& ~~~0xFFF)]
  dsimp only
  rw [setMm_mm]
  generalize (mmAsQueryPte (mm k) a (userEntry &&& ~~~0xFFF)).2 = entryPte
  generalize (mmAsQueryPte (mm k) a ((userStackTop - 1) &&& ~~~0xFFF)).2 = stackPte
  by_cases hentryOk : Executive.entryPteOk entryPte = true
  · by_cases hstackOk : Executive.stackPteOk stackPte = true
    · rw [hentryOk, hstackOk]
      rw [if_neg Bool.noConfusion, if_neg Bool.noConfusion]
      refine Or.inr ⟨rfl, _, ?_, rfl⟩
      exact fun _ => ⟨rfl, rfl, rfl⟩
    · rw [hentryOk, eq_false_of_ne_true hstackOk]
      exact Or.inl ⟨rfl, _, rfl⟩
  · rw [eq_false_of_ne_true hentryOk]
    exact Or.inl ⟨rfl, _, rfl⟩

theorem psCreateUserThread_clean {process : ProcessRef} {userEntry userStackTop : U64}
    (h : userThreadChecks k process userEntry userStackTop = true → ThreadRoom statics ob k)
    (arg0 arg1 : U64) :
    Clean ob k (fun _ => none) some (Executive.psCreateUserThread statics ob k process userEntry
      userStackTop arg0 arg1) := by
  rcases psCreateUserThread_eq statics ob k process userEntry userStackTop arg0 arg1 with
    ⟨-, e, heq⟩ | ⟨hchecks, fill, hfill, heq⟩
  · rw [heq]
    exact ⟨rfl, rfl, rfl⟩
  · rw [heq]
    exact pspCreateThread_clean statics (h hchecks) process _ fun t => (hfill t).1

theorem ready_of_userThreadChecks {process : ProcessRef} {userEntry userStackTop : U64}
    (h : userThreadChecks k process userEntry userStackTop = true) : (ps k).ready = true := by
  unfold userThreadChecks at h
  rw [Bool.and_eq_true, Bool.and_eq_true, Bool.and_eq_true] at h
  exact h.1.1.1

/-- With room, a thread is created in the free slot. -/
theorem pspCreateThread_ok (hfree : (freeThread (ps k)).isSome)
    (hobject : ObjectRoom ob statics.threadType) (process : ProcessRef) (name : CString)
    {fill : KThread → KThread} (hfill : ∀ t, (fill t).state = t.state) :
    ∃ ob' k' t, Executive.pspCreateThread statics ob k process name fill = (ob', k', .ok t) ∧
      freeThread (ps k) = some t ∧ Takes (ps k) (ps k') none (some t) := by
  obtain ⟨t, ht⟩ := Option.isSome_iff_exists.1 hfree
  have hroom : ThreadRoom statics ob k := fun _ => hobject
  have hclean := pspCreateThread_clean statics hroom process name hfill
  unfold Executive.pspCreateThread pspAllocateThreadSlot at hclean ⊢
  rw [freeThread] at ht
  obtain ⟨ob', o, hcreate⟩ := obCreateObject_ok hobject name obAccessAll obFlagWaitable
  rw [ht] at hclean ⊢
  dsimp only at hclean ⊢
  rw [hcreate] at hclean ⊢
  exact ⟨_, _, _, rfl, by rw [freeThread, ht], hclean⟩

/-- A process is created in the free slot. -/
theorem pspCreateProcessInternal_slot {name : Option CString} {ob' : ObState σ} {k' : σ}
    {process : ProcessRef}
    (h : Executive.pspCreateProcessInternal statics ob k name = (ob', k', .ok process)) :
    freeProcess (ps k) = some process := by
  unfold Executive.pspCreateProcessInternal pspAllocateProcessSlot at h
  rw [freeProcess]
  split at h
  · cases h
  next process' heq =>
    split at heq
    next hfree =>
      cases heq
      rw [hfree]
      split at h
      · cases h
      dsimp only at h
      split at h
      · cases h
      · cases h
        rfl
    · cases heq

/-! ### Spawning -/

theorem activate_ok (h : (mm k).ready = true) (a : AddressSpaceRef) :
    ∃ k', Executive.activate k a = (k', .ok ()) ∧ Schedules (ps k) (ps k') := by
  have hok : (mmActivateAddressSpace (mm k) a).2 = .ok () := by
    unfold mmActivateAddressSpace
    rw [if_neg (by rw [h]; exact Bool.noConfusion)]
    split <;> rfl
  unfold Executive.activate
  generalize mmActivateAddressSpace (mm k) a = r at hok ⊢
  obtain ⟨m, r⟩ := r
  cases hok
  refine ⟨_, rfl, ?_⟩
  rw [ps_setPs]
  exact ⟨rfl, rfl, rfl, rfl, fun _ hu => hu⟩

theorem reactivate_schedules (k : σ) (previous : Option AddressSpaceRef) :
    Schedules (ps k) (ps (Executive.reactivate k previous)) := by
  cases previous with
  | none => exact .refl _
  | some a =>
    show Schedules (ps k) (ps (Executive.activate k a).1)
    unfold Executive.activate
    dsimp only
    rw [ps_setPs]
    exact ⟨rfl, rfl, rfl, rfl, fun _ hu => hu⟩

theorem freeThread_eq {p p' : PsState} (h : p'.threadInUse = p.threadInUse) :
    freeThread p' = freeThread p := by
  rw [freeThread, freeThread, h]

/-- With room for it, the last part of a spawn succeeds and takes a slot for the thread. -/
theorem finishSpawn_ok {checked : File} {buffer : ImageBuffer} {process : ProcessRef}
    {a : AddressSpaceRef} {imageBase stackBase : U64}
    (h : FinishRoom statics ob k checked buffer process a imageBase stackBase)
    {x : ObState σ × σ × Except KStatus (U64 × U64)}
    (hx : Executive.finishSpawn statics ob k checked buffer process a imageBase stackBase =
      some x) :
    ∃ ids, x.2.2 = .ok ids ∧ Takes (ps k) (ps x.2.1) none (freeThread (ps k)) := by
  obtain ⟨k₁, hactivate, hsched⟩ := activate_ok h.active a
  unfold Executive.finishSpawn at hx
  rw [hactivate] at hx
  dsimp only at hx
  obtain ⟨f, hf, hx⟩ := Option.bind_eq_some_iff.1 hx
  obtain ⟨img, himg⟩ := h.filled f hf
  rw [himg] at hx
  obtain ⟨m, hm, hx⟩ := Option.bind_eq_some_iff.1 hx
  obtain ⟨f', hf', hx⟩ := Option.bind_eq_some_iff.1 hx
  obtain ⟨hchecks, hfree, hobject⟩ :=
    h.thread _ _ ⟨k₁, f, img, m, f', hactivate, hf, himg, hm, hf', rfl, rfl⟩
  have hback := reactivate_schedules (setMm m k₁) (currentAddressSpace (ps k))
  rw [ps_setMm] at hback
  have hready' := hsched.trans hback
  generalize Executive.reactivate (setMm m k₁) (currentAddressSpace (ps k)) = k₂
    at hx hchecks hfree hready'
  generalize hk₃ : setMm (Executive.protectSections a imageBase
    (Executive.headersAgain checked f').2 (mm k₂)) k₂ = k₃ at hx hchecks hfree
  have hps₃ : ps k₃ = ps k₂ := by rw [← hk₃, ps_setMm]
  rw [← hps₃] at hready'
  rcases psCreateUserThread_eq statics ob k₃ process _ _ 0 0 with
    ⟨hfails, -⟩ | ⟨-, fill, hfill, heq⟩
  · rw [hfails] at hchecks
    cases hchecks
  rw [heq] at hx
  obtain ⟨ob₄, k₄, t, hthread, ht, htakes⟩ :=
    pspCreateThread_ok statics hfree hobject process threadUserName fun t => (hfill t).1
  rw [hthread] at hx
  obtain ⟨⟨p, r⟩, hreadied, rfl⟩ := Option.map_eq_some_iff.1 hx
  -- the thread is not dead, so that it can be readied
  have halive : ((ps k₄).threadPool t).state ≠ .dead := fun hdead =>
    (htakes.dead t hdead).1 rfl
  cases psReadyThread_ok (htakes.ready.trans (ready_of_userThreadChecks hchecks)) halive hreadied
  refine ⟨_, rfl, ?_⟩
  show Takes (ps k) (ps (setPs p k₄)) none (freeThread (ps k))
  rw [ps_setPs, ← freeThread_eq hready'.threadInUse, ht]
  exact ((Takes.of_schedules hready').trans htakes).trans_schedules
    (Schedules.psReadyThread hreadied)

/-- With room for everything, a spawn that comes back succeeds or is refused at once. -/
theorem psSpawnUserKpeFromBuffer_clean {s : SlotSystem σ} {buffer : ImageBuffer}
    (h : SpawnRoom statics s buffer) {x : ObState σ × σ × Except KStatus (U64 × U64)}
    (hx : Executive.psSpawnUserKpeFromBuffer statics s.ob s.k buffer = some x) :
    Clean s.ob s.k (fun _ => freeProcess (ps s.k)) (fun _ => freeThread (ps s.k)) x := by
  unfold Executive.psSpawnUserKpeFromBuffer at hx
  by_cases hready : (ps s.k).ready = false
  · rw [if_pos hready] at hx
    cases hx
    exact ⟨rfl, rfl, rfl⟩
  rw [if_neg hready] at hx
  obtain ⟨f, hf, hx⟩ := Option.bind_eq_some_iff.1 hx
  split at hx
  · cases hx
    exact ⟨rfl, rfl, rfl⟩
  next nt sections hcheck =>
  obtain ⟨hroom, hrest⟩ := h (eq_true_of_ne_false hready) f hf nt sections hcheck
  have hclean := pspCreateProcessInternal_clean statics hroom (some procUserName)
  split at hx
  next hcreate =>
    rw [hcreate] at hclean
    cases hx
    exact hclean
  next ob k process hcreate =>
  rw [hcreate] at hclean
  split at hx
  · cases hx
  next a ha =>
  obtain ⟨hbase, m, imageBase, stackBase, hmap, hfinish⟩ := hrest ob k process a hcreate ha
  rw [hbase, if_neg Bool.noConfusion, hmap] at hx
  obtain ⟨ids, hok, htakes⟩ := finishSpawn_ok statics hfinish hx
  rw [ps_setMm] at htakes
  obtain ⟨ob', k', r⟩ := x
  cases hok
  show Takes _ _ _ _
  rw [pspCreateProcessInternal_slot statics hcreate, ← freeThread_eq hclean.threadInUse]
  exact Takes.trans hclean htakes

end Calls

/-! ## The run -/

/-- The slots in use are those of created threads and processes, and no created thread is dead. -/
structure SlotsOk (s : SlotSystem σ) : Prop where
  threads : ∀ t, (ps s.k).threadInUse t = s.threads t
  alive : ∀ t, s.threads t = true → ((ps s.k).threadPool t).state ≠ .dead
  processes : ∀ p, (ps s.k).processInUse p = s.processes p

namespace SlotsOk

variable {s s' : SlotSystem σ}

theorem exact (h : SlotsOk s) : s.SlotsExact where
  threads t := by
    rw [h.threads]
    exact ⟨fun ht => ⟨ht, h.alive t ht⟩, And.left⟩
  processes p := by rw [h.processes]

theorem take_apply {n : Type} [DecidableEq n] {slots slots' : n → Bool}
    (h : ∀ i, slots i = slots' i) (o : Option n) (i : n) : take slots o i = take slots' o i := by
  rw [show slots = slots' from funext h]

/-- What takes slots and records them keeps the slots exact. -/
theorem takes (h : SlotsOk s) {q : Option ProcessRef} {t : Option ThreadRef}
    (htakes : Takes (ps s.k) (ps s'.k) q t) (hthreads : s'.threads = take s.threads t)
    (hprocesses : s'.processes = take s.processes q) : SlotsOk s' where
  threads u := by
    rw [htakes.threadInUse, hthreads]
    exact take_apply h.threads t u
  alive u hu hdead := by
    obtain ⟨hne, hdead⟩ := htakes.dead u hdead
    rw [hthreads] at hu
    cases t with
    | none => exact h.alive u hu hdead
    | some i =>
      have hui : u ≠ i := by
        rintro rfl
        exact hne rfl
      rw [take, Function.update_of_ne hui] at hu
      exact h.alive u hu hdead
  processes p := by
    rw [htakes.processInUse, hprocesses]
    exact take_apply h.processes q p

/-- A step that only schedules. -/
theorem schedules (h : SlotsOk s) {p : PsState} (hp : Schedules (ps s.k) p)
    (r : Option (Except KStatus Unit)) :
    SlotsOk { s with k := setPs p s.k, returned := r } := by
  refine h.takes (q := none) (t := none) ?_ rfl rfl
  show Takes _ (ps (setPs p s.k)) _ _
  rw [ps_setPs]
  exact .of_schedules hp

/-- A clean call keeps the slots exact, and leaves the pools as they were when it fails. -/
theorem clean {α : Type} (h : SlotsOk s) {q : α → Option ProcessRef} {t : α → Option ThreadRef}
    {x : ObState σ × σ × Except KStatus α} (hx : Clean s.ob s.k q t x) :
    SlotsOk (s.record q t x) ∧ FailureKeeps s (s.record q t x) := by
  obtain ⟨ob, k, r⟩ := x
  cases r with
  | error e =>
    obtain ⟨rfl, hps, hmm⟩ := hx
    refine ⟨h.takes (q := none) (t := none) ?_ rfl rfl, fun _ _ => ?_⟩
    · show Takes _ (ps k) _ _
      rw [hps]
      exact .of_schedules (.refl _)
    · exact .of_eq rfl hps hmm
  | ok a =>
    refine ⟨h.takes hx rfl rfl, fun _ he => ?_⟩
    cases he

/-- One step that meets the condition. -/
theorem step {statics : PsStatics} (h : SlotsOk s) {op : SlotOp}
    (hkeeps : KeepsSlots statics s op) (hstep : Step statics s op s') :
    SlotsOk s' ∧ FailureKeeps s s' := by
  have hquiet : ∀ {p : PsState}, Schedules (ps s.k) p →
      SlotsOk { s with k := setPs p s.k, returned := none } ∧
        FailureKeeps s { s with k := setPs p s.k, returned := none } :=
    fun hp => ⟨h.schedules hp none, nofun⟩
  cases op with
  | createProcess name =>
    have hclean : Clean s.ob s.k some (fun _ => none)
        (Executive.psCreateProcess statics s.ob s.k name) := by
      unfold Executive.psCreateProcess
      split
      · exact ⟨rfl, rfl, rfl⟩
      next hready =>
        exact pspCreateProcessInternal_clean statics (hkeeps (eq_true_of_ne_false hready)) name
    rw [← Option.some.inj hstep]
    exact h.clean hclean
  | createKernelThread process startRoutine startContext =>
    have hclean : Clean s.ob s.k (fun _ => none) some
        (Executive.psCreateKernelThread statics s.ob s.k process startRoutine startContext) := by
      unfold Executive.psCreateKernelThread
      split
      · exact ⟨rfl, rfl, rfl⟩
      next hready =>
        exact pspCreateThread_clean statics (hkeeps (eq_true_of_ne_false hready)) process _
          fun _ => rfl
    rw [← Option.some.inj hstep]
    exact h.clean hclean
  | createUserThread process userEntry userStackTop arg0 arg1 =>
    rw [← Option.some.inj hstep]
    exact h.clean (psCreateUserThread_clean statics hkeeps arg0 arg1)
  | spawn buffer =>
    obtain ⟨x, hx, rfl⟩ := Option.map_eq_some_iff.1 hstep
    exact h.clean (psSpawnUserKpeFromBuffer_clean statics hkeeps hx)
  | exit exitCode =>
    obtain ⟨⟨p, d⟩, hexit, rfl⟩ := Option.map_eq_some_iff.1 hstep
    have hsame : p = ps s.k := by
      unfold psExitCurrentThread psReleaseCurrentThread at hexit
      rcases hkeeps with hnone | hready
      · rw [hnone] at hexit
        cases hexit
        rfl
      · split at hexit
        · cases hexit
          rfl
        · rw [if_pos hready] at hexit
          cases hexit
          rfl
    subst hsame
    refine ⟨h.schedules (.refl _) _, fun _ _ => ?_⟩
    have hps := ps_setPs (ps s.k) s.k
    have hmm := mm_setPs (ps s.k) s.k
    exact .of_eq rfl hps hmm
  | threadReturn t => exact absurd hkeeps id
  | ready t =>
    obtain ⟨⟨p, r⟩, hready, rfl⟩ := Option.map_eq_some_iff.1 hstep
    exact hquiet (.psReadyThread hready)
  | yield =>
    obtain ⟨⟨p, d⟩, hyield, rfl⟩ := Option.map_eq_some_iff.1 hstep
    exact hquiet (.psYieldThread hyield)
  | block =>
    obtain ⟨⟨p, d⟩, hblock, rfl⟩ := Option.map_eq_some_iff.1 hstep
    exact hquiet (.psBlockCurrentThread hblock)
  | wake t =>
    obtain ⟨p, hwake, rfl⟩ := Option.map_eq_some_iff.1 hstep
    exact hquiet (.psWakeThread hwake)

end SlotsOk

/-! ## From `PsInitialize` -/

/-- Creating a kernel thread takes its slot. -/
theorem psCreateKernelThread_takes {p p' : PsState} {stackPool : U64} {process : ProcessRef}
    {startRoutine : Option U64} {startContext : U64} {object : Except KStatus ObjectRef}
    {t : ThreadRef} (h : Ps.psCreateKernelThread p stackPool process startRoutine startContext
      object = (p', .ok t)) : Takes p p' none (some t) := by
  unfold Ps.psCreateKernelThread pspAllocateThreadSlot at h
  split at h
  · cases h
  split at h
  · cases h
  next heq =>
  split at heq
  · cases heq
    split at h
    · cases h
    · cases h
      refine ⟨rfl, rfl, rfl, rfl, fun u hu => ?_⟩
      change ((Function.update p.threadPool t _) u).state = _ at hu
      by_cases hut : u = t
      · rw [hut, Function.update_self] at hu
        cases hu
      · rw [Function.update_of_ne hut] at hu
        exact ⟨fun heq => hut (Option.some.inj heq).symm, hu⟩
  · cases heq

/-- Starting the bootstrap thread takes its slot. -/
theorem psStartBootstrapThread_takes {p p' : PsState} {calls : PsInitializeCalls}
    (h : psStartBootstrapThread p calls = some (p', .ok ())) : ∃ t, Takes p p' none (some t) := by
  unfold psStartBootstrapThread at h
  dsimp only at h
  split at h
  · cases h
  split at h
  · cases h
  next p₁ t hcreate =>
  split at h
  · cases h
  · cases h
  next p₂ _ hready =>
  split at h
  · cases h
  · cases h
  next p₃ d hdispatch =>
  cases h
  exact ⟨t, ((psCreateKernelThread_takes hcreate).trans_schedules
    (Schedules.psReadyThread hready)).trans_schedules (Schedules.psDispatch hdispatch)⟩

/-- Creating the system process takes its slot. -/
theorem pspCreateSystemProcess_slot {p p' : PsState} {object : Except KStatus ObjectRef}
    {addressSpace : U64 → Except KStatus AddressSpaceRef}
    (h : pspCreateSystemProcess p object addressSpace = (p', .ok ())) :
    ∃ q, p'.systemProcess = some q ∧ p'.processInUse = Function.update p.processInUse q true := by
  unfold pspCreateSystemProcess at h
  split at h
  · cases h
  next p₁ q hcreate =>
  cases h
  refine ⟨q, rfl, ?_⟩
  unfold pspCreateProcessInternal pspAllocateProcessSlot at hcreate
  split at hcreate
  · cases hcreate
  next heq =>
  split at heq
  · cases heq
    split at hcreate
    · cases hcreate
    dsimp only at hcreate
    split at hcreate
    · cases hcreate
    · cases hcreate
      rfl
  · cases heq

/-- `PsInitialize` leaves the slots of the bootstrap thread and of the system process in use. -/
theorem psInitialize_slots {p : PsState} {calls : PsInitializeCalls}
    (hinit : psInitialize .zero calls = some (p, .ok ())) :
    (∀ t, p.threadInUse t = decide (p.currentThread = some t)) ∧
      (∀ t, (p.threadPool t).state ≠ .dead) ∧
        ∀ q, p.processInUse q = decide (p.systemProcess = some q) := by
  obtain ⟨p₀, t, hboot, hto, -⟩ := psInitialize_spec hinit
  unfold psInitialize at hinit
  rw [if_neg Bool.noConfusion] at hinit
  dsimp only at hinit
  split at hinit
  · cases hinit
  split at hinit
  · cases hinit
  split at hinit
  · cases hinit
  next p₁ _ hsystem =>
  obtain ⟨q, hq, hprocesses⟩ := pspCreateSystemProcess_slot hsystem
  obtain ⟨hpool, hthreads, -, -⟩ := pspCreateSystemProcess_frame hsystem
  obtain ⟨t', htakes⟩ := psStartBootstrapThread_takes hinit
  have hinUse : p.threadInUse = Function.update (fun _ => false) t' true := by
    rw [htakes.threadInUse]
    exact congrArg (take · (some t')) hthreads
  have htt : t = t' := by
    by_contra hne
    have hused := hboot.threadInUse
    rw [← hto.threadInUse, hinUse, Function.update_of_ne hne] at hused
    cases hused
  subst htt
  refine ⟨fun u => ?_, fun u hdead => ?_, fun r => ?_⟩
  · rw [hinUse, hto.currentThread]
    by_cases hut : u = t
    · rw [hut, Function.update_self, decide_eq_true rfl]
    · rw [Function.update_of_ne hut, decide_eq_false fun heq => hut (Option.some.inj heq).symm]
  · have hzero := (htakes.dead u hdead).2
    change (p₁.threadPool u).state = .dead at hzero
    rw [hpool] at hzero
    cases hzero
  · have hprocessInUse : p.processInUse = p₁.processInUse := htakes.processInUse
    have hsystemProcess : p.systemProcess = p₁.systemProcess := htakes.systemProcess
    rw [hprocessInUse, hprocesses, hsystemProcess, hq]
    by_cases hrq : r = q
    · rw [hrq, Function.update_self, decide_eq_true rfl]
    · rw [Function.update_of_ne hrq, decide_eq_false fun heq => hrq (Option.some.inj heq).symm]

theorem SlotsOk.boot {ob : ObState σ} {k : σ} {calls : PsInitializeCalls}
    (hinit : psInitialize .zero calls = some (ps k, .ok ())) : SlotsOk (boot ob k) := by
  obtain ⟨hthreads, halive, hprocesses⟩ := psInitialize_slots hinit
  exact ⟨hthreads, fun t _ => halive t, hprocesses⟩

/-- Along every run from `PsInitialize` whose steps meet the condition `KeepsSlots`, the slots in
use are exactly those of created threads that are not dead and of created processes, and a call
that fails leaves the pools and the page allocator as they were. -/
theorem slots_exact (statics : PsStatics) {ob : ObState σ} {k : σ} {calls : PsInitializeCalls}
    (hinit : psInitialize .zero calls = some (ps k, .ok ())) (ops : List SlotOp)
    (hkeeps : Always (Step statics) (fun s op _ => KeepsSlots statics s op) (boot ob k) ops) :
    SlotsExact (boot ob k) ∧
      Always (Step statics) (fun s _ s' => SlotsExact s' ∧ FailureKeeps s s') (boot ob k) ops := by
  have hok : SlotsOk (boot ob k) := .boot hinit
  refine ⟨hok.exact, hkeeps.imp (I := SlotsOk) ?_ ?_ hok⟩
  · intro s op s' hs hC hstep
    exact (hs.step hC hstep).1
  · intro s op s' hs hstep hC
    exact ⟨(hs.step hC hstep).1.exact, (hs.step hC hstep).2⟩

/-! ## A thread that exits -/

/-- The globals of the process manager and of the memory manager. -/
structure PsMm where
  ps : PsState
  mm : MmState

instance : ExecGlobals PsMm where
  ps k := k.ps
  setPs p k := { k with ps := p }
  ps_setPs _ _ := rfl
  mm k := k.mm
  setMm m k := { k with mm := m }
  mm_setMm _ _ := rfl
  setMm_mm _ := rfl
  mm_setPs _ _ := rfl
  ps_setMm _ _ := rfl

/-- The object manager with a type for processes and one for threads. -/
def sampleOb : ObState PsMm :=
  (obCreateType (obCreateType (obInitialize .zero).1 (some procUserName) none).1
    (some threadUserName) none).1

/-- The types that `sampleOb` has. -/
def sampleStatics : PsStatics := ⟨some 0, some 1, 0x100000⟩

/-- The managers after `MmInitialize` and `PsInitialize`. -/
def sampleBoot : SlotSystem PsMm := boot sampleOb ⟨bootPs, MmSystem.sampleSystem.k⟩

/-- A thread is created, readied and dispatched. -/
theorem slots_exact_create :
    SlotsExact sampleBoot ∧
      Always (Step sampleStatics) (fun s _ s' => SlotsExact s' ∧ FailureKeeps s s') sampleBoot
        [.createKernelThread 0 (some 0x200000) 0, .ready 1, .yield] := by
  refine slots_exact sampleStatics psInitialize_bootCalls _ fun _ _ => ⟨?_, ?_⟩
  · exact fun _ _ => ⟨Option.some_ne_none _, by decide +kernel, 0, by decide +kernel⟩
  · exact fun _ _ => ⟨trivial, fun _ _ => ⟨trivial, trivial⟩⟩

/-- The bootstrap thread exits, with another thread waiting. It is dead, and its slot is in use. -/
theorem dead_thread_keeps_slot :
    ¬Always (Step sampleStatics) (fun s _ s' => SlotsExact s' ∧ FailureKeeps s s') sampleBoot
      [.createKernelThread 0 (some 0x200000) 0, .ready 1, .exit 0] := by
  intro h
  have hrun : (performAll (perform sampleStatics) sampleBoot
      [.createKernelThread 0 (some 0x200000) 0, .ready 1, .exit 0]).map
        (fun s => (s.k.ps.threadInUse 0, (s.k.ps.threadPool 0).state)) = some (true, .dead) := by
    decide +kernel
  obtain ⟨s, hs, hfields⟩ := Option.map_eq_some_iff.1 hrun
  rw [Prod.mk.injEq] at hfields
  have hexact : Always (Step sampleStatics) (fun _ _ s' => SlotsExact s') sampleBoot
      [.createKernelThread 0 (some 0x200000) 0, .ready 1, .exit 0] :=
    h.imp (I := fun _ => True) (fun _ _ _ _ _ _ => trivial) (fun _ _ _ _ _ hp => hp.1) trivial
  exact (((hexact.of_performAll hs).threads 0).1 hfields.1).2 hfields.2

end SlotSystem

end NtxKernel.Ps
