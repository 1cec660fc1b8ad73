import NtxKernel.Ps.Threads

/-!
# The run queue as a list

The run queue of a good scheduler state holds a list of threads (`Queue.Holds`). This module says
what the routines of the scheduler do to that list. Everything else they touch is said up to the
links of the run queue, through `KThread.unlinked` and `PsState.unlinked`.
-/

namespace NtxKernel.Ps

open Foundations Ob

/-- The thread without its run-queue link. -/
def KThread.unlinked (t : KThread) : KThread := { t with runQueueNext := none }

/-- The state without the pointers of the run queue. -/
def PsState.unlinked (ps : PsState) : PsState :=
  { ps with
    threadPool := fun t => (ps.threadPool t).unlinked
    runQueueHead := none
    runQueueTail := none }

variable {ps ps' : PsState} {l : List ThreadRef} {t n : ThreadRef}

theorem unlinked_thread (h : ps'.unlinked = ps.unlinked) (t : ThreadRef) :
    (ps'.threadPool t).unlinked = (ps.threadPool t).unlinked :=
  congrFun (congrArg PsState.threadPool h) t

theorem unlinked_state (h : ps'.unlinked = ps.unlinked) (t : ThreadRef) :
    (ps'.threadPool t).state = (ps.threadPool t).state := by
  have hstate := congrArg KThread.state (unlinked_thread h t)
  exact hstate

theorem unlinked_ownerProcess (h : ps'.unlinked = ps.unlinked) (t : ThreadRef) :
    (ps'.threadPool t).ownerProcess = (ps.threadPool t).ownerProcess := by
  have howner := congrArg KThread.ownerProcess (unlinked_thread h t)
  exact howner

theorem unlinked_currentThread (h : ps'.unlinked = ps.unlinked) :
    ps'.currentThread = ps.currentThread := by
  have hcurrent := congrArg PsState.currentThread h
  exact hcurrent

theorem unlinked_ready (h : ps'.unlinked = ps.unlinked) : ps'.ready = ps.ready := by
  have hready := congrArg PsState.ready h
  exact hready

theorem unlinked_threadInUse (h : ps'.unlinked = ps.unlinked) :
    ps'.threadInUse = ps.threadInUse := by
  have hinUse := congrArg PsState.threadInUse h
  exact hinUse

theorem runQueue_next_setRunQueueNext (ps : PsState) (t : ThreadRef) (next : Option ThreadRef) :
    (ps.setRunQueueNext t next).runQueue.next = Function.update ps.runQueue.next t next := by
  funext u
  by_cases hu : u = t
  · subst hu
    simp [PsState.runQueue, PsState.setRunQueueNext]
  · simp [PsState.runQueue, PsState.setRunQueueNext, PsState.modifyThread_of_ne _ hu, hu]

theorem unlinked_setRunQueueNext (ps : PsState) (t : ThreadRef) (next : Option ThreadRef) :
    (ps.setRunQueueNext t next).unlinked = ps.unlinked := by
  have hpool : (fun u => ((ps.setRunQueueNext t next).threadPool u).unlinked) =
      fun u => (ps.threadPool u).unlinked := by
    funext u
    by_cases hu : u = t
    · subst hu
      rw [PsState.setRunQueueNext, PsState.modifyThread_self]
      rfl
    · rw [PsState.setRunQueueNext, PsState.modifyThread_of_ne _ hu]
  rw [PsState.unlinked, hpool]
  rfl

theorem runQueue_setState (ps : PsState) (t : ThreadRef) (state : PsThreadState) :
    (ps.setState t state).runQueue = ps.runQueue := by
  refine Queue.ext ?_ rfl rfl
  funext u
  by_cases hu : u = t
  · subst hu
    simp [PsState.runQueue, PsState.setState]
  · simp [PsState.runQueue, PsState.setState, PsState.modifyThread_of_ne _ hu]

/-! ## Pushing and popping -/

/-- `PspRunQueuePush` is the push of the library. -/
theorem pspRunQueuePush_eq (hdead : (ps.threadPool t).state ≠ .dead) :
    ∃ ps', pspRunQueuePush ps t = some ps' ∧ ps'.runQueue = ps.runQueue.push t ∧
      ps'.unlinked = ps.unlinked := by
  have hnext := runQueue_next_setRunQueueNext ps t none
  have hunlinked := unlinked_setRunQueueNext ps t none
  rw [pspRunQueuePush, if_neg hdead]
  generalize hps₁ : ps.setRunQueueNext t none = ps₁ at hnext hunlinked
  have hhead : ps₁.runQueueHead = ps.runQueue.head := by rw [← hps₁]; rfl
  have htail : ps₁.runQueueTail = ps.runQueue.tail := by rw [← hps₁]; rfl
  dsimp only
  rw [htail, Queue.push]
  cases ps.runQueue.tail with
  | none =>
    refine ⟨_, rfl, Queue.ext hnext rfl rfl, ?_⟩
    rw [← hunlinked]
    rfl
  | some tail =>
    refine ⟨_, rfl, Queue.ext ?_ hhead rfl, ?_⟩
    · rw [← hnext]
      exact runQueue_next_setRunQueueNext ps₁ tail (some t)
    · rw [← hunlinked, ← unlinked_setRunQueueNext ps₁ tail (some t)]
      rfl

/-- `PspRunQueuePop` is the pop of the library. -/
theorem pspRunQueuePop_eq (ps : PsState) :
    (pspRunQueuePop ps).2 = ps.runQueue.pop.2 ∧
      (pspRunQueuePop ps).1.runQueue = ps.runQueue.pop.1 ∧
        (pspRunQueuePop ps).1.unlinked = ps.unlinked := by
  have hhead : ps.runQueueHead = ps.runQueue.head := rfl
  rw [pspRunQueuePop, hhead, Queue.pop]
  cases ps.runQueue.head with
  | none => exact ⟨rfl, rfl, rfl⟩
  | some x =>
    refine ⟨rfl, Queue.ext ?_ rfl rfl, ?_⟩
    · exact runQueue_next_setRunQueueNext _ x none
    · rw [unlinked_setRunQueueNext]
      rfl

/-- `PspRunQueuePush` appends a thread that is not dead and not queued. -/
theorem pspRunQueuePush_spec (hdead : (ps.threadPool t).state ≠ .dead) (hq : ps.runQueue.Holds l)
    (ht : t ∉ l) :
    ∃ ps', pspRunQueuePush ps t = some ps' ∧ ps'.runQueue.Holds (l ++ [t]) ∧
      ps'.unlinked = ps.unlinked := by
  obtain ⟨ps', heq, hqueue, hrest⟩ := pspRunQueuePush_eq hdead
  exact ⟨ps', heq, hqueue ▸ hq.push ht, hrest⟩

theorem pspRunQueuePop_nil (hq : ps.runQueue.Holds []) : pspRunQueuePop ps = (ps, none) := by
  have hhead : ps.runQueueHead = none := hq.head_eq
  rw [pspRunQueuePop, hhead]

theorem pspRunQueuePop_cons (hq : ps.runQueue.Holds (n :: l)) :
    ∃ ps', pspRunQueuePop ps = (ps', some n) ∧ ps'.runQueue.Holds l ∧
      ps'.unlinked = ps.unlinked := by
  obtain ⟨hthread, hqueue, hrest⟩ := pspRunQueuePop_eq ps
  obtain ⟨hpop, hl⟩ := hq.pop_cons
  exact ⟨(pspRunQueuePop ps).1, Prod.ext rfl (hthread.trans hpop), hqueue ▸ hl, hrest⟩

/-! ## Dispatching -/

/-- The threads a dispatch puts behind the run queue: the current one when it is running. -/
def PsState.requeued (ps : PsState) : List ThreadRef :=
  match ps.currentThread with
  | some p => if (ps.threadPool p).state = .running then [p] else []
  | none => []

/-- What a dispatch to `n` does to the threads: the current one, when it was running, is ready
again, and `n` runs with a fresh time slice. -/
structure DispatchedTo (ps : PsState) (n : ThreadRef) (ps' : PsState) : Prop where
  currentThread : ps'.currentThread = some n
  ready : ps'.ready = true
  threadInUse : ps'.threadInUse = ps.threadInUse
  thread : ∀ t, (ps'.threadPool t).unlinked = { (ps.threadPool t).unlinked with
    state := if t = n then .running else
      if t ∈ ps.requeued then .ready else (ps.threadPool t).state
    remainingTicks := if t = n then (ps.threadPool t).timeSliceTicks else
      (ps.threadPool t).remainingTicks }

theorem mem_requeued : t ∈ ps.requeued ↔
    ps.currentThread = some t ∧ (ps.threadPool t).state = .running := by
  rw [PsState.requeued]
  cases ps.currentThread with
  | none => simp
  | some p =>
    by_cases hrun : (ps.threadPool p).state = .running
    · simp only [if_pos hrun, List.mem_singleton, Option.some.injEq]
      constructor
      · rintro rfl
        exact ⟨rfl, hrun⟩
      · exact fun h => h.1.symm
    · simp only [if_neg hrun, List.not_mem_nil, Option.some.injEq, false_iff, not_and]
      rintro rfl
      exact hrun

theorem psDispatch_nil (hready : ps.ready = true) (hq : ps.runQueue.Holds []) :
    psDispatch ps = some (ps, .failed .initFailed) := by
  rw [psDispatch, if_neg (by simp [hready]), pspRunQueuePop_nil hq]

/-- Threads after the part of `PsDispatch` about the previous thread. -/
theorem psDispatchPrevious_spec (hq : ps.runQueue.Holds l)
    (hcurrent : ∀ p, ps.currentThread = some p → p ∉ l) :
    ∃ ps', psDispatchPrevious ps = some ps' ∧ ps'.runQueue.Holds (l ++ ps.requeued) ∧
      ps'.currentThread = ps.currentThread ∧ ps'.ready = ps.ready ∧
        ps'.threadInUse = ps.threadInUse ∧
          ∀ t, (ps'.threadPool t).unlinked = { (ps.threadPool t).unlinked with
            state := if t ∈ ps.requeued then .ready else (ps.threadPool t).state } := by
  rw [psDispatchPrevious, PsState.requeued]
  rcases hcur : ps.currentThread with _ | p
  · exact ⟨ps, rfl, by rwa [List.append_nil], hcur, rfl, rfl, fun _ => rfl⟩
  by_cases hrun : (ps.threadPool p).state = .running
  · have halive : ((ps.setState p .ready).threadPool p).state ≠ .dead := by
      rw [PsState.setState, PsState.modifyThread_self]
      exact PsThreadState.noConfusion
    obtain ⟨ps', hpush, hq', hrest⟩ := pspRunQueuePush_spec halive
      ((runQueue_setState ps p .ready).symm ▸ hq) (hcurrent p hcur)
    simp only [if_pos hrun]
    have hready := unlinked_ready hrest
    have hinUse := unlinked_threadInUse hrest
    refine ⟨ps', hpush, hq', (unlinked_currentThread hrest).trans hcur, hready, hinUse,
      fun t => ?_⟩
    rw [unlinked_thread hrest]
    by_cases ht : t = p
    · subst ht
      simp only [PsState.setState, PsState.modifyThread_self, List.mem_singleton, if_true]
      rfl
    · simp only [PsState.setState, PsState.modifyThread_of_ne _ ht, List.mem_singleton, ht,
        if_false]
      rfl
  · simp only [if_neg hrun]
    exact ⟨ps, rfl, by rwa [List.append_nil], hcur, rfl, rfl, fun _ => rfl⟩

theorem threadPool_psDispatchNext (ps : PsState) (owner : ProcessRef) :
    (psDispatchNext ps n owner).threadPool =
      Function.update ps.threadPool n (ps.threadPool n).dispatched := rfl

theorem runQueue_psDispatchNext (ps : PsState) (owner : ProcessRef) :
    (psDispatchNext ps n owner).runQueue = ps.runQueue := by
  refine Queue.ext ?_ rfl rfl
  funext u
  by_cases hu : u = n
  · subst hu
    simp [PsState.runQueue, threadPool_psDispatchNext, KThread.dispatched]
  · simp [PsState.runQueue, threadPool_psDispatchNext, hu]

/-- A dispatch with a thread waiting makes the first one current. -/
theorem psDispatch_cons (hready : ps.ready = true) (hq : ps.runQueue.Holds (n :: l))
    (howner : (ps.threadPool n).ownerProcess ≠ none)
    (hcurrent : ∀ p, ps.currentThread = some p → p ∉ n :: l) :
    ∃ ps', psDispatch ps = some (ps', psDispatchSwitch ps.currentThread n) ∧
      ps'.runQueue.Holds (l ++ ps.requeued) ∧ DispatchedTo ps n ps' := by
  obtain ⟨ps₁, hpop, hq₁, hrest₁⟩ := pspRunQueuePop_cons hq
  have hcur₁ := unlinked_currentThread hrest₁
  obtain ⟨owner, howner⟩ := Option.ne_none_iff_exists'.1 howner
  have howner₁ : (ps₁.threadPool n).ownerProcess = some owner := by
    rw [unlinked_ownerProcess hrest₁, howner]
  obtain ⟨ps₂, hprev, hq₂, hcur₂, hready₂, hinUse₂, hthread₂⟩ := psDispatchPrevious_spec hq₁
    fun p hp hmem => hcurrent p (hcur₁ ▸ hp) (List.mem_cons_of_mem n hmem)
  have hrequeued : ps₁.requeued = ps.requeued := by
    rw [PsState.requeued, PsState.requeued, hcur₁]
    simp only [unlinked_state hrest₁]
  have hthread : ∀ t, (ps₂.threadPool t).unlinked = { (ps.threadPool t).unlinked with
      state := if t ∈ ps.requeued then .ready else (ps.threadPool t).state } := by
    intro t
    rw [hthread₂, hrequeued, unlinked_thread hrest₁, unlinked_state hrest₁]
  have hn : n ∉ ps.requeued := fun hmem =>
    hcurrent n (mem_requeued.1 hmem).1 List.mem_cons_self
  refine ⟨psDispatchNext ps₂ n owner, ?_, ?_, ?_⟩
  · simp only [psDispatch, if_neg (show ¬ps.ready = false by simp [hready]), hpop, howner₁, hprev,
      Option.map_some, hcur₁]
  · rw [runQueue_psDispatchNext, ← hrequeued]
    exact hq₂
  · refine ⟨rfl, hready₂.trans ((unlinked_ready hrest₁).trans hready),
      hinUse₂.trans (unlinked_threadInUse hrest₁), ?_⟩
    intro t
    by_cases htn : t = n
    · subst htn
      have hdispatched := congrArg KThread.dispatched (hthread t)
      rw [if_neg hn] at hdispatched
      rw [threadPool_psDispatchNext, Function.update_self, if_pos rfl, if_pos rfl]
      exact hdispatched
    · rw [threadPool_psDispatchNext, Function.update_of_ne htn, hthread, if_neg htn, if_neg htn]
      rfl

namespace DispatchedTo

theorem state (h : DispatchedTo ps n ps') (t : ThreadRef) :
    (ps'.threadPool t).state = if t = n then .running else
      if t ∈ ps.requeued then .ready else (ps.threadPool t).state := by
  have hstate := congrArg KThread.state (h.thread t)
  exact hstate

theorem ownerProcess (h : DispatchedTo ps n ps') (t : ThreadRef) :
    (ps'.threadPool t).ownerProcess = (ps.threadPool t).ownerProcess := by
  have howner := congrArg KThread.ownerProcess (h.thread t)
  exact howner

theorem isUserThread (h : DispatchedTo ps n ps') (t : ThreadRef) :
    (ps'.threadPool t).isUserThread = (ps.threadPool t).isUserThread := by
  have huser := congrArg KThread.isUserThread (h.thread t)
  exact huser

theorem startRoutine (h : DispatchedTo ps n ps') (t : ThreadRef) :
    (ps'.threadPool t).startRoutine = (ps.threadPool t).startRoutine := by
  have hstart := congrArg KThread.startRoutine (h.thread t)
  exact hstart

theorem waitQueueNext (h : DispatchedTo ps n ps') (t : ThreadRef) :
    (ps'.threadPool t).waitQueueNext = (ps.threadPool t).waitQueueNext := by
  have hnext := congrArg KThread.waitQueueNext (h.thread t)
  exact hnext

/-- A dispatch to a thread that is not blocked blocks and unblocks no thread. -/
theorem blocked_iff (h : DispatchedTo ps n ps') (hn : (ps.threadPool n).state ≠ .blocked)
    (t : ThreadRef) :
    (ps'.threadPool t).state = .blocked ↔ (ps.threadPool t).state = .blocked := by
  rw [h.state]
  by_cases htn : t = n
  · rw [if_pos htn, htn]
    exact iff_of_false PsThreadState.noConfusion hn
  rw [if_neg htn]
  by_cases hreq : t ∈ ps.requeued
  · rw [if_pos hreq, (mem_requeued.1 hreq).2]
    exact iff_of_false PsThreadState.noConfusion PsThreadState.noConfusion
  · rw [if_neg hreq]

end DispatchedTo

/-! ## Creating threads -/

/-- What the creation of a thread does: it is refused by a check or because no slot is free; it
takes a slot and finds no object; or it takes a slot and fills it with a ready thread. -/
inductive ThreadCreation (ps : PsState) (check : Option KStatus)
    (object : Except KStatus ObjectRef) : PsState × Except KStatus ThreadRef → Prop
  | refused (e : KStatus) (h : check ≠ none ∨ ∀ t, ps.threadInUse t = true) :
    ThreadCreation ps check object (ps, .error e)
  | noObject (t : ThreadRef) (e : KStatus) (hfree : ps.threadInUse t = false)
      (hobject : object = .error e) :
    ThreadCreation ps check object
      ({ ps with threadInUse := Function.update ps.threadInUse t true }, .error e)
  | ok (t : ThreadRef) (thread : KThread) (hfree : ps.threadInUse t = false)
      (hcheck : check = none) (hobject : ∀ e, object ≠ .error e) (hstate : thread.state = .ready)
      (howner : thread.ownerProcess ≠ none) :
    ThreadCreation ps check object
      ({ ps with
          threadInUse := Function.update ps.threadInUse t true
          threadPool := Function.update ps.threadPool t thread
          nextThreadId := ps.nextThreadId + 1 }, .ok t)

theorem pspAllocateThreadSlot_cases (ps : PsState) :
    ((∀ t, ps.threadInUse t = true) ∧ pspAllocateThreadSlot ps = (ps, .error .initFailed)) ∨
      ∃ t, ps.threadInUse t = false ∧ pspAllocateThreadSlot ps =
        ({ ps with threadInUse := Function.update ps.threadInUse t true }, .ok t) := by
  rcases hslot : firstIndex fun t => !ps.threadInUse t with _ | t
  · refine .inl ⟨fun t => ?_, by rw [pspAllocateThreadSlot, hslot]⟩
    have hused := firstIndex_eq_none.1 hslot t
    simpa using hused
  · refine .inr ⟨t, ?_, by rw [pspAllocateThreadSlot, hslot]⟩
    have hfree := firstIndex_sound hslot
    simpa using hfree

theorem psCreateKernelThread_cases (hready : ps.ready = true) (stackPool : U64)
    (process : ProcessRef) (startRoutine : Option U64) (startContext : U64)
    (object : Except KStatus ObjectRef) :
    ThreadCreation ps none object
      (psCreateKernelThread ps stackPool process startRoutine startContext object) := by
  rw [psCreateKernelThread, if_neg (by simp [hready])]
  rcases pspAllocateThreadSlot_cases ps with ⟨hfull, hslot⟩ | ⟨t, hfree, hslot⟩ <;> rw [hslot]
  · exact .refused _ (.inr hfull)
  · rcases object with e | header
    · exact .noObject t e hfree rfl
    · exact .ok t _ hfree rfl (fun e he => by cases he) rfl (Option.some_ne_none process)

theorem psCreateUserThread_cases (ps : PsState) (stackPool : U64) (process : ProcessRef)
    (userEntry userStackTop userArg0 userArg1 : U64) (entryPte stackPte : Except KStatus U64)
    (object : Except KStatus ObjectRef) :
    ThreadCreation ps (pspCheckUserThread ps process userEntry userStackTop entryPte stackPte)
      object (psCreateUserThread ps stackPool process userEntry userStackTop userArg0 userArg1
        entryPte stackPte object) := by
  rw [psCreateUserThread]
  generalize pspCheckUserThread ps process userEntry userStackTop entryPte stackPte = check
  rcases check with _ | e
  · dsimp only
    rcases pspAllocateThreadSlot_cases ps with ⟨hfull, hslot⟩ | ⟨t, hfree, hslot⟩ <;> rw [hslot]
    · exact .refused _ (.inr hfull)
    · rcases object with e | header
      · exact .noObject t e hfree rfl
      · exact .ok t _ hfree rfl (fun e he => by cases he) rfl (Option.some_ne_none process)
  · exact .refused e (.inl (Option.some_ne_none e))

end NtxKernel.Ps
