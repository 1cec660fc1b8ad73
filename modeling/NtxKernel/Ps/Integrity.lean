import NtxKernel.Ps.Executing

/-!
# Integrity of the run queue

The run queue spells a list without repetition: the threads that were readied and are in the state
ready, none of them current. `QueueOk` is the invariant of the scheduler's records; unlike `CpuOk`
it holds also while the executing thread is not the current one, so it covers the runs in which
threads block and exit with others waiting.

* `ReadiedCpu` is the processor together with the threads that were readied so far.
* `RunQueueIntact` is the property and `RetiresUnqueued` the condition on a step: a thread that
  returns to `PspThreadEntryThunk` is not in the run queue, or is at its head. A thread that blocks
  while another waits goes on executing; once it is woken it returns from inside the run queue and
  is marked dead there.
* `runQueue_intact_iff`: along every run, the run queue is intact after every step exactly when
  every step meets the condition.
-/

namespace NtxKernel.Ps

open Foundations Ob

/-- The processor, and the threads that were readied so far. -/
structure ReadiedCpu where
  cpu : Cpu
  readied : ThreadRef → Bool

namespace ReadiedCpu

/-- The threads readied after an operation: `PsReadyThread` adds its argument when it succeeds. -/
def readiedAfter (readied : ThreadRef → Bool) (returned : Option (Except KStatus Unit)) :
    CpuOp → ThreadRef → Bool
  | .ready t => if returned = some (.ok ()) then Function.update readied t true else readied
  | _ => readied

/-- One step of the processor. -/
def perform (m : ReadiedCpu) (op : CpuOp) : Option ReadiedCpu :=
  (m.cpu.perform op).map fun c => ⟨c, readiedAfter m.readied c.returned op⟩

/-- One step, as a relation. -/
def Step (m : ReadiedCpu) (op : CpuOp) (m' : ReadiedCpu) : Prop := m.perform op = some m'

/-- When `PsInitialize` returns, it has readied the bootstrap thread, which is current. -/
def boot (ps : PsState) : ReadiedCpu := ⟨.boot ps, fun t => decide (ps.currentThread = some t)⟩

/-- The run queue spells `l`: from the head along `RunQueueNext` to the tail, the threads that
were readied and are ready, each once. -/
structure RunQueueIs (m : ReadiedCpu) (l : List ThreadRef) : Prop where
  spells : m.cpu.ps.runQueue.Holds l
  empty_iff : m.cpu.ps.runQueueHead = none ↔ m.cpu.ps.runQueueTail = none
  mem_iff : ∀ t, t ∈ l ↔ m.readied t = true ∧ (m.cpu.ps.threadPool t).state = .ready
  not_blocked : ∀ t ∈ l, (m.cpu.ps.threadPool t).state ≠ .blocked
  not_dead : ∀ t ∈ l, (m.cpu.ps.threadPool t).state ≠ .dead
  not_current : ∀ t ∈ l, m.cpu.ps.currentThread ≠ some t
  running : ∀ t, (m.cpu.ps.threadPool t).state = .running → m.cpu.ps.currentThread = some t

/-- The run queue is intact. -/
def RunQueueIntact (m : ReadiedCpu) : Prop := ∃ l, m.RunQueueIs l

/-- The condition on a step: a thread that returns to `PspThreadEntryThunk` is not ready, or is
the first thread of the run queue. -/
def RetiresUnqueued (m : ReadiedCpu) : CpuOp → Prop
  | .threadReturn => ∀ t, m.cpu.flow.thunkThread = some t →
      (m.cpu.ps.threadPool t).state ≠ .ready ∨ m.cpu.ps.runQueueHead = some t
  | _ => True

end ReadiedCpu

/-! ## The scheduler's records -/

/-- The run queue is `l`, the threads that were readied and are ready. -/
structure QueueOk (ps : PsState) (fresh readied : ThreadRef → Bool) (l : List ThreadRef) :
    Prop where
  ready : ps.ready = true
  queue : ps.runQueue.Holds l
  queued : ∀ t, t ∈ l ↔ readied t = true ∧ (ps.threadPool t).state = .ready
  running : ∀ t, (ps.threadPool t).state = .running → ps.currentThread = some t
  blocked : ∀ t, (ps.threadPool t).state = .blocked → readied t = true
  of_fresh : ∀ t, fresh t = true → (ps.threadPool t).state = .ready ∧
    (ps.threadPool t).ownerProcess ≠ none ∧ ps.threadInUse t = true ∧ readied t = false
  of_readied : ∀ t, readied t = true →
    (ps.threadPool t).ownerProcess ≠ none ∧ ps.threadInUse t = true
  current : ∀ t, ps.currentThread = some t → readied t = true ∧
    (ps.threadPool t).state ≠ .ready ∧ (ps.threadPool t).state ≠ .blocked

namespace QueueOk

variable {ps ps' : PsState} {fresh readied : ThreadRef → Bool} {l : List ThreadRef}
  {t n : ThreadRef}

theorem current_not_mem (h : QueueOk ps fresh readied l) (ht : ps.currentThread = some t) :
    t ∉ l := fun hmem => (h.current t ht).2.1 ((h.queued t).1 hmem).2

/-- The invariant reads states, processes and the run queue. -/
theorem congr (h : QueueOk ps fresh readied l) (hready : ps'.ready = ps.ready)
    (hqueue : ps'.runQueue = ps.runQueue) (hcurrent : ps'.currentThread = ps.currentThread)
    (hinUse : ps'.threadInUse = ps.threadInUse)
    (hthread : ∀ t, (ps'.threadPool t).state = (ps.threadPool t).state ∧
      (ps'.threadPool t).ownerProcess = (ps.threadPool t).ownerProcess) :
    QueueOk ps' fresh readied l := by
  have hstate := fun t => (hthread t).1
  have howner := fun t => (hthread t).2
  constructor
  · rw [hready]
    exact h.ready
  · rw [hqueue]
    exact h.queue
  · intro t
    rw [hstate]
    exact h.queued t
  · intro t ht
    rw [hcurrent]
    exact h.running t (hstate t ▸ ht)
  · exact fun t ht => h.blocked t (hstate t ▸ ht)
  · intro t ht
    rw [hstate, howner, hinUse]
    exact h.of_fresh t ht
  · intro t ht
    rw [howner, hinUse]
    exact h.of_readied t ht
  · intro t ht
    rw [hstate]
    exact h.current t (hcurrent ▸ ht)

/-- A thread that was readied and is not queued takes a state in which it neither waits nor
runs. -/
theorem setState (h : QueueOk ps fresh readied l) (ht : readied t = true) (hmem : t ∉ l)
    {state : PsThreadState} (hready : state ≠ .ready) (hrunning : state ≠ .running)
    (hcurrent : ps.currentThread = some t → state ≠ .blocked) :
    QueueOk (ps.setState t state) fresh readied l := by
  have hself : (ps.setState t state).threadPool t = { ps.threadPool t with state := state } :=
    PsState.modifyThread_self ..
  have hother : ∀ u, u ≠ t → (ps.setState t state).threadPool u = ps.threadPool u := fun u hu =>
    PsState.modifyThread_of_ne _ hu _
  have howner : ∀ u, ((ps.setState t state).threadPool u).ownerProcess =
      (ps.threadPool u).ownerProcess := by
    intro u
    by_cases hu : u = t
    · rw [hu, hself]
    · rw [hother u hu]
  constructor
  · exact h.ready
  · rw [runQueue_setState]
    exact h.queue
  · intro u
    by_cases hu : u = t
    · rw [hu, hself]
      exact iff_of_false hmem fun hboth => hready hboth.2
    · rw [hother u hu]
      exact h.queued u
  · intro u hu
    by_cases hut : u = t
    · rw [hut, hself] at hu
      exact absurd hu hrunning
    · rw [hother u hut] at hu
      exact h.running u hu
  · intro u hu
    by_cases hut : u = t
    · rw [hut]
      exact ht
    · rw [hother u hut] at hu
      exact h.blocked u hu
  · intro u hu
    have hut : u ≠ t := by
      rintro rfl
      rw [(h.of_fresh u hu).2.2.2] at ht
      cases ht
    rw [hother u hut]
    exact h.of_fresh u hu
  · intro u hu
    rw [howner]
    exact h.of_readied u hu
  · intro u hu
    by_cases hut : u = t
    · rw [hut, hself]
      exact ⟨ht, hready, hcurrent (hut ▸ hu)⟩
    · rw [hother u hut]
      exact h.current u hu

/-- No thread is current. -/
theorem clearCurrentThread (h : QueueOk ps fresh readied l)
    (hcurrent : ∀ t, (ps.threadPool t).state ≠ .running) :
    QueueOk ps.clearCurrentThread fresh readied l :=
  { h with
    running := fun t ht => absurd ht (hcurrent t)
    current := fun t ht => by cases ht }

/-- The current thread takes a state in which it neither waits nor runs, and no thread is
current. -/
theorem release (h : QueueOk ps fresh readied l) (hcur : ps.currentThread = some t)
    {state : PsThreadState} (hready : state ≠ .ready) (hrunning : state ≠ .running) :
    QueueOk (ps.setState t state).clearCurrentThread fresh readied l := by
  have hread := (h.current t hcur).1
  have hmem := h.current_not_mem hcur
  have hdead : QueueOk (ps.setState t .dead) fresh readied l :=
    h.setState hread hmem PsThreadState.noConfusion PsThreadState.noConfusion fun _ =>
      PsThreadState.noConfusion
  have hnone : QueueOk (ps.setState t .dead).clearCurrentThread fresh readied l := by
    refine hdead.clearCurrentThread fun u hu => ?_
    by_cases hut : u = t
    · rw [hut, PsState.setState, PsState.modifyThread_self] at hu
      cases hu
    · have hrun := hdead.running u hu
      exact hut (Option.some.inj (hrun.symm.trans hcur))
  have htwice : (ps.setState t .dead).clearCurrentThread.setState t state =
      (ps.setState t state).clearCurrentThread := by
    simp [PsState.setState, PsState.clearCurrentThread, PsState.modifyThread]
  rw [← htwice]
  exact hnone.setState hread hmem hready hrunning fun hcur => by cases hcur

/-- A dispatch makes the first thread of the run queue current, whatever state it is in. -/
theorem dispatch (h : QueueOk ps fresh readied (n :: l)) (state : PsThreadState) :
    ∃ ps', psDispatch (ps.setState n state) =
        some (ps', psDispatchSwitch ps.currentThread n) ∧
      QueueOk ps' fresh readied (l ++ ps.requeued) ∧
        DispatchedTo (ps.setState n state) n ps' := by
  have hn := (h.queued n).1 List.mem_cons_self
  have hnl : n ∉ l := (List.nodup_cons.1 h.queue.nodup).1
  have hcur : ∀ t, ps.currentThread = some t → t ≠ n := by
    rintro t ht rfl
    exact h.current_not_mem ht List.mem_cons_self
  have hself : (ps.setState n state).threadPool n = { ps.threadPool n with state := state } :=
    PsState.modifyThread_self ..
  have hother : ∀ u, u ≠ n → (ps.setState n state).threadPool u = ps.threadPool u := fun u hu =>
    PsState.modifyThread_of_ne _ hu _
  have howner : ∀ u, ((ps.setState n state).threadPool u).ownerProcess =
      (ps.threadPool u).ownerProcess := by
    intro u
    by_cases hu : u = n
    · rw [hu, hself]
    · rw [hother u hu]
  have hrequeued : (ps.setState n state).requeued = ps.requeued := by
    have hcurrent : (ps.setState n state).currentThread = ps.currentThread := rfl
    rw [PsState.requeued, PsState.requeued, hcurrent]
    rcases hp : ps.currentThread with _ | p
    · rfl
    · simp only [hother p (hcur p hp)]
  obtain ⟨ps', hdisp, hq, hto⟩ := psDispatch_cons
    (show (ps.setState n state).ready = true from h.ready)
    ((runQueue_setState ps n state).symm ▸ h.queue)
    (by rw [howner]; exact (h.of_readied n hn.1).1) fun p hp => h.current_not_mem hp
  rw [hrequeued] at hq
  have hstate : ∀ u, (ps'.threadPool u).state = if u = n then .running else
      if u ∈ ps.requeued then .ready else (ps.threadPool u).state := by
    intro u
    rw [hto.state, hrequeued]
    by_cases hu : u = n
    · rw [if_pos hu, if_pos hu]
    · rw [if_neg hu, if_neg hu, hother u hu]
  refine ⟨ps', hdisp, ?_, hto⟩
  constructor
  · exact hto.ready
  · exact hq
  · intro u
    rw [List.mem_append, hstate]
    by_cases hu : u = n
    · rw [if_pos hu, hu]
      refine iff_of_false ?_ fun hboth => by cases hboth.2
      rintro (hmem | hmem)
      · exact hnl hmem
      · exact hcur n (mem_requeued.1 hmem).1 rfl
    rw [if_neg hu]
    by_cases hreq : u ∈ ps.requeued
    · rw [if_pos hreq]
      exact iff_of_true (.inr hreq) ⟨(h.current u (mem_requeued.1 hreq).1).1, rfl⟩
    · rw [if_neg hreq, ← h.queued u, List.mem_cons]
      exact ⟨fun hmem => .inr (hmem.resolve_right hreq), fun hmem => .inl (hmem.resolve_left hu)⟩
  · intro u hu
    rw [hstate] at hu
    rw [hto.currentThread]
    by_cases hun : u = n
    · rw [hun]
    rw [if_neg hun] at hu
    by_cases hreq : u ∈ ps.requeued
    · rw [if_pos hreq] at hu
      cases hu
    · rw [if_neg hreq] at hu
      exact absurd (mem_requeued.2 ⟨h.running u hu, hu⟩) hreq
  · intro u hu
    rw [hstate] at hu
    by_cases hun : u = n
    · rw [hun]
      exact hn.1
    rw [if_neg hun] at hu
    by_cases hreq : u ∈ ps.requeued
    · exact (h.current u (mem_requeued.1 hreq).1).1
    · rw [if_neg hreq] at hu
      exact h.blocked u hu
  · intro u hu
    obtain ⟨hready, hown, hinUse, hnot⟩ := h.of_fresh u hu
    have hun : u ≠ n := by
      rintro rfl
      rw [hn.1] at hnot
      cases hnot
    rw [hstate, hto.ownerProcess, howner, hto.threadInUse, if_neg hun, hready, ite_self]
    exact ⟨rfl, hown, hinUse, hnot⟩
  · intro u hu
    rw [hto.ownerProcess, howner, hto.threadInUse]
    exact h.of_readied u hu
  · intro u hu
    obtain rfl : n = u := Option.some.inj (hto.currentThread.symm.trans hu)
    rw [hstate, if_pos rfl]
    exact ⟨hn.1, PsThreadState.noConfusion, PsThreadState.noConfusion⟩

/-- A thread outside the run queue joins it. -/
theorem enqueue (h : QueueOk ps fresh readied l) (ht : t ∉ l) (hcur : ps.currentThread ≠ some t)
    (howner : (ps.threadPool t).ownerProcess ≠ none) (hinUse : ps.threadInUse t = true)
    (hps' : pspRunQueuePush (ps.setState t .ready) t = some ps') :
    QueueOk ps' (Function.update fresh t false) (Function.update readied t true) (l ++ [t]) := by
  have hself : (ps.setState t .ready).threadPool t = { ps.threadPool t with state := .ready } :=
    PsState.modifyThread_self ..
  have halive : ((ps.setState t .ready).threadPool t).state ≠ .dead := by
    rw [hself]
    exact PsThreadState.noConfusion
  obtain ⟨ps'', hpush, hq, hrest⟩ := pspRunQueuePush_spec halive
    ((runQueue_setState ps t .ready).symm ▸ h.queue) ht
  obtain rfl := Option.some.inj (hps'.symm.trans hpush)
  have hstateSelf : (ps'.threadPool t).state = .ready := by
    rw [unlinked_state hrest, hself]
  have hstate : ∀ u ≠ t, (ps'.threadPool u).state = (ps.threadPool u).state := fun u hu => by
    rw [unlinked_state hrest, PsState.setState, PsState.modifyThread_of_ne _ hu]
  have hown : ∀ u, (ps'.threadPool u).ownerProcess = (ps.threadPool u).ownerProcess := by
    intro u
    rw [unlinked_ownerProcess hrest]
    by_cases hu : u = t
    · rw [hu, hself]
    · rw [PsState.setState, PsState.modifyThread_of_ne _ hu]
  have huse : ps'.threadInUse = ps.threadInUse := by
    have hsame := unlinked_threadInUse hrest
    exact hsame
  have hcurrent : ps'.currentThread = ps.currentThread := by
    have hsame := unlinked_currentThread hrest
    exact hsame
  have hready : ps'.ready = ps.ready := by
    have hsame := unlinked_ready hrest
    exact hsame
  constructor
  · exact hready.trans h.ready
  · exact hq
  · intro u
    rw [List.mem_append, List.mem_singleton]
    by_cases hu : u = t
    · rw [hu, Function.update_self, hstateSelf]
      exact iff_of_true (.inr rfl) ⟨rfl, rfl⟩
    · rw [Function.update_of_ne hu, hstate u hu, ← h.queued u]
      exact or_iff_left hu
  · intro u hu
    have hut : u ≠ t := by
      rintro rfl
      rw [hstateSelf] at hu
      cases hu
    rw [hcurrent]
    exact h.running u (hstate u hut ▸ hu)
  · intro u hu
    by_cases hut : u = t
    · rw [hut, Function.update_self]
    · rw [Function.update_of_ne hut]
      exact h.blocked u (hstate u hut ▸ hu)
  · intro u hu
    have hut : u ≠ t := by
      rintro rfl
      rw [Function.update_self] at hu
      cases hu
    rw [Function.update_of_ne hut] at hu ⊢
    rw [hstate u hut, hown, huse]
    exact h.of_fresh u hu
  · intro u hu
    rw [hown, huse]
    by_cases hut : u = t
    · rw [hut]
      exact ⟨howner, hinUse⟩
    · rw [Function.update_of_ne hut] at hu
      exact h.of_readied u hu
  · intro u hu
    rw [hcurrent] at hu
    have hut : u ≠ t := by
      rintro rfl
      exact hcur hu
    rw [Function.update_of_ne hut, hstate u hut]
    exact h.current u hu

/-- A free slot is taken and perhaps filled with a ready thread. -/
theorem allocate (h : QueueOk ps fresh readied l) (hfree : ps.threadInUse t = false)
    (hready : ps'.ready = ps.ready) (hhead : ps'.runQueueHead = ps.runQueueHead)
    (htail : ps'.runQueueTail = ps.runQueueTail)
    (hcurrent : ps'.currentThread = ps.currentThread)
    (hinUse : ps'.threadInUse = Function.update ps.threadInUse t true)
    (hother : ∀ u, u ≠ t → ps'.threadPool u = ps.threadPool u)
    (hself : ps'.threadPool t = ps.threadPool t ∨ (ps'.threadPool t).state = .ready)
    {fresh' : ThreadRef → Bool}
    (hfresh : ∀ u, fresh' u = true → fresh u = true ∨
      (u = t ∧ (ps'.threadPool t).state = .ready ∧ (ps'.threadPool t).ownerProcess ≠ none)) :
    QueueOk ps' fresh' readied l := by
  have huse : ∀ u, ps.threadInUse u = true → u ≠ t ∧ ps'.threadInUse u = true := by
    intro u hu
    have hut : u ≠ t := by
      rintro rfl
      rw [hu] at hfree
      cases hfree
    rw [hinUse, Function.update_of_ne hut]
    exact ⟨hut, hu⟩
  have hread : ∀ u, readied u = true → u ≠ t := fun u hu => (huse u (h.of_readied u hu).2).1
  constructor
  · exact hready.trans h.ready
  · refine h.queue.congr (fun u hu => ?_) hhead htail
    have hut : u ≠ t := hread u ((h.queued u).1 hu).1
    show (ps'.threadPool u).runQueueNext = (ps.threadPool u).runQueueNext
    rw [hother u hut]
  · intro u
    by_cases hut : u = t
    · refine iff_of_false (fun hmem => ?_) fun hboth => hread u hboth.1 hut
      exact hread u ((h.queued u).1 hmem).1 hut
    · rw [hother u hut]
      exact h.queued u
  · intro u hu
    rw [hcurrent]
    by_cases hut : u = t
    · rw [hut] at hu ⊢
      rcases hself with hsame | hstate
      · rw [hsame] at hu
        exact h.running t hu
      · rw [hstate] at hu
        cases hu
    · rw [hother u hut] at hu
      exact h.running u hu
  · intro u hu
    by_cases hut : u = t
    · rw [hut] at hu ⊢
      rcases hself with hsame | hstate
      · rw [hsame] at hu
        exact h.blocked t hu
      · rw [hstate] at hu
        cases hu
    · rw [hother u hut] at hu
      exact h.blocked u hu
  · intro u hu
    rcases hfresh u hu with hold | ⟨rfl, hstate, hown⟩
    · obtain ⟨hstate, hown, hu', hnot⟩ := h.of_fresh u hold
      obtain ⟨hut, hu''⟩ := huse u hu'
      rw [hother u hut]
      exact ⟨hstate, hown, hu'', hnot⟩
    · refine ⟨hstate, hown, ?_, ?_⟩
      · rw [hinUse, Function.update_self]
      · by_contra hread'
        exact hread u (by simpa using hread') rfl
  · intro u hu
    rw [hother u (hread u hu)]
    exact ⟨(h.of_readied u hu).1, (huse u (h.of_readied u hu).2).2⟩
  · intro u hu
    have hcur := h.current u (hcurrent ▸ hu)
    rw [hother u (hread u hcur.1)]
    exact hcur

end QueueOk

/-! ## The processor -/

/-- The threads that `PspThreadEntryThunk` works for, on every kernel stack, were readied. -/
def Cpu.CodeReadied (c : Cpu) (readied : ThreadRef → Bool) : Prop :=
  (∀ t, c.flow.thunkThread = some t → readied t = true) ∧
    ∀ u f, c.contexts u = some f → ∀ t, f.thunkThread = some t → readied t = true

/-- The invariant of runs. -/
structure ReadiedOk (m : ReadiedCpu) (l : List ThreadRef) : Prop where
  records : QueueOk m.cpu.ps m.cpu.fresh m.readied l
  code : m.cpu.CodeReadied m.readied

namespace ReadiedOk

variable {m m' : ReadiedCpu} {c c' : Cpu} {ps : PsState} {readied : ThreadRef → Bool}
  {l : List ThreadRef} {t : ThreadRef}

theorem runQueueIs (h : ReadiedOk m l) : m.RunQueueIs l := by
  have hq := h.records.queue
  have hmem : ∀ t ∈ l, (m.cpu.ps.threadPool t).state = .ready := fun t ht =>
    ((h.records.queued t).1 ht).2
  refine ⟨hq, ?_, h.records.queued, fun t ht => ?_, fun t ht => ?_, fun t ht hcur => ?_,
    h.records.running⟩
  · have hhead : m.cpu.ps.runQueueHead = l.head? := hq.head_eq
    have htail : m.cpu.ps.runQueueTail = l.getLast? := hq.tail_eq
    rw [hhead, htail, List.head?_eq_none_iff, List.getLast?_eq_none_iff]
  · rw [hmem t ht]
    exact PsThreadState.noConfusion
  · rw [hmem t ht]
    exact PsThreadState.noConfusion
  · exact h.records.current_not_mem hcur ht

/-- `KiArchSwitchContext` moves the code of kernel stacks and nothing else. -/
theorem finish (hcode : c.CodeReadied readied) (d : PsDispatched)
    (hps : QueueOk ps c.fresh readied l) : ReadiedOk ⟨c.finish (ps, d), readied⟩ l := by
  cases d with
  | failed e => exact ⟨hps, hcode⟩
  | stayed => exact ⟨hps, hcode⟩
  | switched previous next =>
    refine ⟨hps, fun t ht => ?_, fun u f hf t ht => ?_⟩
    · have hflow : ((c.contexts next).getD .entry).thunkThread = some t := ht
      cases hctx : c.contexts next with
      | none =>
        rw [hctx] at hflow
        cases hflow
      | some f =>
        rw [hctx] at hflow
        exact hcode.2 next f hctx t hflow
    · have hctx : Function.update c.contexts previous (some c.flow) u = some f := hf
      by_cases hu : u = previous
      · rw [hu, Function.update_self] at hctx
        cases hctx
        exact hcode.1 t ht
      · rw [Function.update_of_ne hu] at hctx
        exact hcode.2 u f hctx t ht

/-- A dispatch from records that satisfy the invariant. -/
theorem dispatch (hps : QueueOk ps c.fresh readied l) (hcode : c.CodeReadied readied)
    (hstep : (psDispatch ps).map c.finish = some c') : ∃ l', ReadiedOk ⟨c', readied⟩ l' := by
  cases l with
  | nil =>
    rw [psDispatch_nil hps.ready hps.queue] at hstep
    cases hstep
    exact ⟨[], finish hcode _ hps⟩
  | cons n l =>
    have hsame : ps.setState n .ready = ps := by
      have hn := ((hps.queued n).1 List.mem_cons_self).2
      have hthread : { ps.threadPool n with state := .ready } = ps.threadPool n := by
        rw [← hn]
      rw [PsState.setState, PsState.modifyThread, hthread, Function.update_eq_self]
    obtain ⟨ps', hdisp, hok, -⟩ := hps.dispatch .ready
    rw [hsame] at hdisp
    rw [hdisp] at hstep
    cases hstep
    exact ⟨_, finish hcode _ hok⟩

/-- A thread retires in `PspThreadEntryThunk`: the run queue stays intact unless the thread waits
in it behind another. -/
theorem retire (h : ReadiedOk ⟨c, readied⟩ l) (ht : readied t = true)
    (hstep : c.retire t = some c') :
    ((c.ps.threadPool t).state ≠ .ready ∨ c.ps.runQueueHead = some t →
        ∃ l', ReadiedOk ⟨c', readied⟩ l') ∧
      (ReadiedCpu.RunQueueIntact ⟨c', readied⟩ →
        (c.ps.threadPool t).state ≠ .ready ∨ c.ps.runQueueHead = some t) := by
  have hrec : QueueOk c.ps c.fresh readied l := h.records
  have hcode : Cpu.CodeReadied { c with
      ps := c.ps.setState t .dead, flow := { c.flow with pc := .thunk } } readied := h.code
  have hhead : c.ps.runQueueHead = l.head? := hrec.queue.head_eq
  rw [Cpu.retire] at hstep
  by_cases hready : (c.ps.threadPool t).state = .ready
  · have hmem : t ∈ l := (hrec.queued t).2 ⟨ht, hready⟩
    obtain ⟨n, l, rfl⟩ := List.exists_cons_of_ne_nil (List.ne_nil_of_mem hmem)
    by_cases hn : n = t
    · subst hn
      refine ⟨fun _ => ?_, fun _ => .inr hhead⟩
      obtain ⟨ps', hdisp, hok, -⟩ := hrec.dispatch .dead
      rw [hdisp] at hstep
      cases hstep
      exact ⟨_, finish hcode _ hok⟩
    · have htl : t ∈ l := (List.mem_cons.1 hmem).resolve_left (Ne.symm hn)
      refine ⟨?_, fun hintact => ?_⟩
      · rintro (hnot | hfirst)
        · exact absurd hready hnot
        · exact absurd (Option.some.inj (hhead.symm.trans hfirst)) hn
      -- the thread is dead and still in the run queue after the dispatch
      exfalso
      obtain ⟨ps', hdisp, hq, hto⟩ := psDispatch_cons
        (show (c.ps.setState t .dead).ready = true from hrec.ready)
        ((runQueue_setState c.ps t .dead).symm ▸ hrec.queue)
        (by
          rw [PsState.setState, PsState.modifyThread_of_ne _ hn]
          exact (hrec.of_readied n ((hrec.queued n).1 List.mem_cons_self).1).1)
        fun p hp => hrec.current_not_mem hp
      rw [hdisp] at hstep
      have hps' : c'.ps = ps' := by
        cases hstep
        cases psDispatchSwitch (c.ps.setState t .dead).currentThread n <;> rfl
      obtain ⟨l', hl'⟩ := hintact
      have hspells : ps'.runQueue.Holds l' := hps' ▸ hl'.spells
      have hmem' : t ∈ l' := by
        rw [hspells.unique hq]
        exact List.mem_append_left _ htl
      have hdead := hl'.not_dead t hmem'
      have hstate : (ps'.threadPool t).state = .dead := by
        have hcur : t ∉ (c.ps.setState t .dead).requeued := fun hreq =>
          hrec.current_not_mem (mem_requeued.1 hreq).1 hmem
        rw [hto.state, if_neg (Ne.symm hn), if_neg hcur, PsState.setState,
          PsState.modifyThread_self]
      exact hdead (hps'.symm ▸ hstate)
  · refine ⟨fun _ => ?_, fun _ => .inl hready⟩
    have hmem : t ∉ l := fun hmem => hready ((hrec.queued t).1 hmem).2
    have hdead : QueueOk (c.ps.setState t .dead) c.fresh readied l :=
      hrec.setState ht hmem PsThreadState.noConfusion PsThreadState.noConfusion fun _ =>
        PsThreadState.noConfusion
    exact dispatch
      (c := { c with ps := c.ps.setState t .dead, flow := { c.flow with pc := .thunk } })
      hdead hcode hstep

/-- A step that reads and writes nothing of the threads but their time slices and routines. -/
theorem silent (h : ReadiedOk ⟨c, readied⟩ l) (hready : ps.ready = c.ps.ready)
    (hqueue : ps.runQueue = c.ps.runQueue) (hcurrent : ps.currentThread = c.ps.currentThread)
    (hinUse : ps.threadInUse = c.ps.threadInUse)
    (hrole : ∀ t, (ps.threadPool t).state = (c.ps.threadPool t).state ∧
      (ps.threadPool t).ownerProcess = (c.ps.threadPool t).ownerProcess)
    (f : Flow) (hf : ∀ t, f.thunkThread = some t → readied t = true)
    (status : Option (Except KStatus Unit)) :
    ReadiedOk ⟨{ c with ps := ps, flow := f, returned := status }, readied⟩ l :=
  ⟨h.records.congr hready hqueue hcurrent hinUse hrole, hf, h.code.2⟩

/-- Creating a thread. -/
theorem create (h : ReadiedOk ⟨c, readied⟩ l) {check : Option KStatus}
    {object : Except KStatus ObjectRef} {r : PsState × Except KStatus ThreadRef}
    (hr : ThreadCreation c.ps check object r) : ReadiedOk ⟨c.created r, readied⟩ l := by
  have hrec : QueueOk c.ps c.fresh readied l := h.records
  cases hr with
  | refused e hrefused => exact ⟨hrec, h.code⟩
  | noObject t e hfree hobject =>
    refine ⟨hrec.allocate hfree ?_ ?_ ?_ ?_ ?_ (fun _ _ => ?_) (.inl ?_) (fun u hu => .inl hu),
      h.code⟩
    all_goals rfl
  | ok t thread hfree hcheck hobject hstate howner =>
    refine ⟨hrec.allocate hfree ?_ ?_ ?_ ?_ ?_ (fun u hu => ?_) (.inr ?_) (fun u hu => ?_), h.code⟩
    iterate 5 rfl
    · exact Function.update_of_ne hu _ _
    · exact (congrArg KThread.state (Function.update_self ..)).trans hstate
    · have hself : Function.update c.ps.threadPool t thread t = thread := Function.update_self ..
      by_cases hut : u = t
      · refine .inr ⟨hut, ?_, ?_⟩
        · exact (congrArg KThread.state hself).trans hstate
        · exact fun hnone => howner ((congrArg KThread.ownerProcess hself).symm.trans hnone)
      · have hu' : Function.update c.fresh t true u = true := hu
        rw [Function.update_of_ne hut] at hu'
        exact .inl hu'

/-- The current thread gives up the processor for good. -/
theorem release (h : ReadiedOk ⟨c, readied⟩ l) {state : PsThreadState} (hready : state ≠ .ready)
    (hrunning : state ≠ .running)
    (hstep : (psReleaseCurrentThread c.ps state).map c.finish = some c') :
    ∃ l', ReadiedOk ⟨c', readied⟩ l' := by
  have hrec : QueueOk c.ps c.fresh readied l := h.records
  rw [psReleaseCurrentThread] at hstep
  rcases hcur : c.ps.currentThread with _ | e
  · rw [hcur] at hstep
    cases hstep
    exact ⟨l, hrec, h.code⟩
  rw [hcur] at hstep
  dsimp only at hstep
  rw [if_neg (by simp [hrec.ready])] at hstep
  exact dispatch (hrec.release hcur hready hrunning) h.code hstep

theorem yield (h : ReadiedOk ⟨c, readied⟩ l)
    (hstep : (psYieldThread c.ps).map c.finish = some c') :
    ∃ l', ReadiedOk ⟨c', readied⟩ l' := by
  have hrec : QueueOk c.ps c.fresh readied l := h.records
  rw [psYieldThread] at hstep
  rcases hcur : c.ps.currentThread with _ | e
  · rw [hcur] at hstep
    cases hstep
    exact ⟨l, hrec, h.code⟩
  rw [hcur] at hstep
  dsimp only at hstep
  rw [if_neg (by simp [hrec.ready])] at hstep
  split at hstep
  · cases hstep
  · rw [← hcur] at hstep
    have hpending : QueueOk { c.ps with reschedulePending := false } c.fresh readied l :=
      hrec.congr rfl rfl rfl rfl fun _ => ⟨rfl, rfl⟩
    exact dispatch hpending h.code hstep

/-- One turn of the loop in `PspThreadEntryThunk`: the thread that retires is current. -/
theorem enterThunk (h : ReadiedOk ⟨c, readied⟩ l) (hstep : c.perform .enterThunk = some c') :
    ∃ l', ReadiedOk ⟨c', readied⟩ l' := by
  have hrec : QueueOk c.ps c.fresh readied l := h.records
  rw [Cpu.perform] at hstep
  split at hstep
  · cases hstep
  rcases hcur : c.ps.currentThread with _ | e
  · rw [hcur] at hstep
    cases hstep
  obtain ⟨hread, hnot, -⟩ := hrec.current e hcur
  have hflow : ∀ t, some e = some t → readied t = true := fun t ht => Option.some.inj ht ▸ hread
  rw [hcur] at hstep
  dsimp only at hstep
  split at hstep
  · cases hstep
    exact ⟨l, h.silent rfl rfl rfl rfl (fun _ => ⟨rfl, rfl⟩) ⟨.user, some e⟩ hflow none⟩
  split at hstep
  · cases hstep
    have hfields : ∀ u, ((c.ps.modifyThread e KThread.started).threadPool u) =
        if u = e then (c.ps.threadPool u).started else c.ps.threadPool u := by
      intro u
      by_cases hu : u = e
      · rw [hu, PsState.modifyThread_self, if_pos rfl]
      · rw [PsState.modifyThread_of_ne _ hu, if_neg hu]
    have hqueue : (c.ps.modifyThread e KThread.started).runQueue = c.ps.runQueue := by
      refine Queue.ext (funext fun u => ?_) rfl rfl
      show ((c.ps.modifyThread e KThread.started).threadPool u).runQueueNext = _
      rw [hfields]
      split <;> rfl
    have hthread : ∀ u, ((c.ps.modifyThread e KThread.started).threadPool u).state =
          (c.ps.threadPool u).state ∧
        ((c.ps.modifyThread e KThread.started).threadPool u).ownerProcess =
          (c.ps.threadPool u).ownerProcess := by
      intro u
      rw [hfields]
      split <;> exact ⟨rfl, rfl⟩
    refine ⟨l, h.silent ?_ hqueue ?_ ?_ hthread ⟨.routine, some e⟩ hflow none⟩
    all_goals rfl
  · have hlocal : ReadiedOk ⟨{ c with flow := ⟨.thunk, some e⟩ }, readied⟩ l :=
      ⟨hrec, hflow, h.code.2⟩
    exact (hlocal.retire hread hstep).1 (.inl hnot)

/-- Every step from a good state leaves the run queue intact exactly when it meets the condition,
and then it leads to a good state. -/
theorem step {op : CpuOp} (h : ReadiedOk m l) (hstep : m.Step op m') :
    (m.RetiresUnqueued op → ∃ l', ReadiedOk m' l') ∧ (m'.RunQueueIntact → m.RetiresUnqueued op) := by
  obtain ⟨c, readied⟩ := m
  obtain ⟨c', hc', rfl⟩ := Option.map_eq_some_iff.1 hstep
  have hrec : QueueOk c.ps c.fresh readied l := h.records
  have hcode : c.CodeReadied readied := h.code
  have hc : c.perform op = some c' := hc'
  clear hc' hstep
  have hplain : ∀ {P : Prop}, (∃ l', ReadiedOk ⟨c', readied⟩ l') →
      (True → ∃ l', ReadiedOk ⟨c', readied⟩ l') ∧ (P → True) := fun hok =>
    ⟨fun _ => hok, fun _ => trivial⟩
  cases op with
  | timerTick =>
    cases hc
    obtain ⟨hready, hqueue, hcurrent, hinUse, hrole⟩ := psOnTimerTick_frame c.ps
    refine hplain ⟨l, h.silent hready hqueue hcurrent hinUse (fun t => ?_) c.flow hcode.1 none⟩
    have ht := hrole t
    simp only [KThread.role, Prod.mk.injEq] at ht
    exact ⟨ht.1, ht.2.1⟩
  | enterThunk => exact hplain (h.enterThunk hc)
  | threadReturn =>
    rw [Cpu.perform] at hc
    split at hc
    · cases hc
    obtain ⟨t, ht, hretire⟩ := Option.bind_eq_some_iff.1 hc
    obtain ⟨hgood, hbad⟩ := h.retire (hcode.1 t ht) hretire
    refine ⟨fun hC => hgood (hC t ht), fun hintact u hu => ?_⟩
    obtain rfl : t = u := Option.some.inj (ht.symm.trans hu)
    exact hbad hintact
  | yield =>
    rw [Cpu.perform] at hc
    split at hc
    · cases hc
    exact hplain (h.yield hc)
  | block =>
    rw [Cpu.perform] at hc
    split at hc
    · cases hc
    exact hplain (h.release PsThreadState.noConfusion PsThreadState.noConfusion hc)
  | exit exitCode =>
    rw [Cpu.perform] at hc
    split at hc
    · cases hc
    exact hplain (h.release PsThreadState.noConfusion PsThreadState.noConfusion hc)
  | wake t =>
    rw [Cpu.perform] at hc
    split at hc
    · cases hc
    obtain ⟨ps', hwake, rfl⟩ := Option.map_eq_some_iff.1 hc
    rw [psWakeThread, if_neg (by simp [hrec.ready])] at hwake
    split at hwake
    next hblocked =>
      have hread := hrec.blocked t hblocked
      have hmem : t ∉ l := by
        intro hmem
        rw [((hrec.queued t).1 hmem).2] at hblocked
        cases hblocked
      have hnotCur : c.ps.currentThread ≠ some t := fun hcur =>
        (hrec.current t hcur).2.2 hblocked
      have hfresh : Function.update c.fresh t false = c.fresh := by
        rw [Function.update_eq_self_iff]
        by_contra hfresh
        have hready := (hrec.of_fresh t (by simpa using Ne.symm hfresh)).1
        rw [hready] at hblocked
        cases hblocked
      obtain ⟨hown, hinUse⟩ := hrec.of_readied t hread
      have hok := hrec.enqueue hmem hnotCur hown hinUse hwake
      rw [hfresh, Function.update_eq_self_iff.2 hread.symm] at hok
      exact hplain ⟨_, hok, hcode⟩
    next =>
      cases hwake
      exact hplain ⟨l, hrec, hcode⟩
  | ready t =>
    rw [Cpu.perform] at hc
    split at hc
    · cases hc
    split at hc
    · cases hc
    next hfresh =>
    obtain ⟨⟨ps', status⟩, hready, rfl⟩ := Option.map_eq_some_iff.1 hc
    obtain ⟨hstate, howner, hinUse, hnot⟩ := hrec.of_fresh t (by simpa using hfresh)
    have hmem : t ∉ l := by
      intro hmem
      rw [((hrec.queued t).1 hmem).1] at hnot
      cases hnot
    have hnotCur : c.ps.currentThread ≠ some t := fun hcur => (hrec.current t hcur).2.1 hstate
    rw [psReadyThread, if_neg (by simp [hrec.ready]), if_neg (by rw [hstate]; exact
      PsThreadState.noConfusion)] at hready
    obtain ⟨ps'', hpush, hret⟩ := Option.bind_eq_some_iff.1 hready
    cases hret
    have hok := hrec.enqueue hmem hnotCur howner hinUse hpush
    have hmono : ∀ u, readied u = true → Function.update readied t true u = true := by
      intro u hu
      by_cases hut : u = t
      · rw [hut, Function.update_self]
      · rwa [Function.update_of_ne hut]
    exact ⟨fun _ => ⟨_, hok, fun u hu => hmono u (hcode.1 u hu),
      fun u f hf v hv => hmono v (hcode.2 u f hf v hv)⟩, fun _ => trivial⟩
  | preemptionPoint =>
    rw [Cpu.perform] at hc
    split at hc
    · cases hc
    obtain ⟨⟨ps', d⟩, hpoint, hmatch⟩ := Option.map_eq_some_iff.1 hc
    rw [psHandlePreemptionPoint] at hpoint
    split at hpoint
    · cases hpoint
      cases hmatch
      exact hplain ⟨l, hrec, hcode⟩
    · obtain ⟨⟨ps'', d'⟩, hyield, hpair⟩ := Option.map_eq_some_iff.1 hpoint
      cases hpair
      refine hplain (h.yield ?_)
      rw [hyield, ← hmatch]
      rfl
  | createKernelThread stackPool process startRoutine startContext object =>
    rw [Cpu.perform] at hc
    split at hc
    · cases hc
    cases hc
    exact hplain ⟨l, h.create (psCreateKernelThread_cases hrec.ready stackPool process startRoutine
      startContext object)⟩
  | createUserThread stackPool process userEntry userStackTop userArg0 userArg1 entryPte stackPte
      object =>
    rw [Cpu.perform] at hc
    split at hc
    · cases hc
    cases hc
    exact hplain ⟨l, h.create (psCreateUserThread_cases c.ps stackPool process userEntry
      userStackTop userArg0 userArg1 entryPte stackPte object)⟩

end ReadiedOk

/-! ## Runs -/

/-- `PsInitialize` leaves the bootstrap thread current and the run queue empty. -/
theorem ReadiedOk.boot {calls : PsInitializeCalls} {ps : PsState}
    (h : psInitialize .zero calls = some (ps, .ok ())) : ReadiedOk (.boot ps) [] := by
  obtain ⟨ps₀, t, hboot, hto, hqueue⟩ := psInitialize_spec h
  have hnone : ∀ u, u ∉ ps₀.requeued := fun u hu => by
    rw [hboot.requeued] at hu
    cases hu
  have hstate : ∀ u, (ps.threadPool u).state = if u = t then .running else .ready := by
    intro u
    rw [hto.state, if_neg (hnone u), hboot.state]
  have hread : ∀ u, (ReadiedCpu.boot ps).readied u = true → u = t := by
    intro u hu
    have hcur : ps.currentThread = some u := of_decide_eq_true hu
    exact Option.some.inj (hcur.symm.trans hto.currentThread)
  refine ⟨⟨hto.ready, hqueue, fun u => ?_, fun u hu => ?_, fun u hu => ?_, (fun u hu => by cases hu),
    fun u hu => ?_, fun u hu => ?_⟩, (fun u hu => by cases hu), fun u f hf => by cases hf⟩
  · refine iff_of_false List.not_mem_nil fun hboth => ?_
    have hready : (ps.threadPool u).state = .ready := hboth.2
    rw [hstate, if_pos (hread u hboth.1)] at hready
    cases hready
  · have hrun : (ps.threadPool u).state = .running := hu
    rw [hstate] at hrun
    by_cases hut : u = t
    · rw [hut]
      exact hto.currentThread
    · rw [if_neg hut] at hrun
      cases hrun
  · have hblocked : (ps.threadPool u).state = .blocked := hu
    rw [hstate] at hblocked
    split at hblocked <;> cases hblocked
  · obtain rfl := hread u hu
    refine ⟨?_, ?_⟩
    · show (ps.threadPool u).ownerProcess ≠ none
      rw [hto.ownerProcess]
      exact hboot.ownerProcess
    · show ps.threadInUse u = true
      rw [hto.threadInUse]
      exact hboot.threadInUse
  · have hcur : ps.currentThread = some u := hu
    obtain rfl : u = t := Option.some.inj (hcur.symm.trans hto.currentThread)
    show decide (ps.currentThread = some u) = true ∧ (ps.threadPool u).state ≠ .ready ∧
      (ps.threadPool u).state ≠ .blocked
    rw [hstate, if_pos rfl]
    exact ⟨decide_eq_true hcur, PsThreadState.noConfusion, PsThreadState.noConfusion⟩

/-- After `PsInitialize` the run queue is intact, and along every run it stays so exactly when
every step meets the condition `ReadiedCpu.RetiresUnqueued`. -/
theorem runQueue_intact_iff {calls : PsInitializeCalls} {ps : PsState}
    (hinit : psInitialize .zero calls = some (ps, .ok ())) (ops : List CpuOp) :
    (ReadiedCpu.boot ps).RunQueueIntact ∧
      (Always ReadiedCpu.Step (fun m op _ => m.RetiresUnqueued op) (.boot ps) ops ↔
        Always ReadiedCpu.Step (fun _ _ m' => m'.RunQueueIntact) (.boot ps) ops) := by
  refine ⟨⟨[], (ReadiedOk.boot hinit).runQueueIs⟩, ?_⟩
  refine always_congr (I := fun m => ∃ l, ReadiedOk m l) ?_ ?_ ⟨[], .boot hinit⟩ ops
  · rintro m op m' ⟨l, h⟩ hC hstep
    exact (h.step hstep).1 hC
  · rintro m op m' ⟨l, h⟩ hstep
    refine ⟨fun hC => ?_, (h.step hstep).2⟩
    obtain ⟨l', h'⟩ := (h.step hstep).1 hC
    exact ⟨l', h'.runQueueIs⟩

/-- A run in which the thread 1 blocks while the bootstrap thread and the thread 2 wait, is woken
while its code goes on, and returns from its start routine. -/
def wokenThreadReturns : List CpuOp :=
  [.createKernelThread 0x100000 0 (some 0x200000) 0 (.ok 2), .ready 1, .yield, .enterThunk,
    .createKernelThread 0x100000 0 (some 0x200000) 0 (.ok 3), .ready 2, .block, .wake 1,
    .threadReturn]

theorem runQueue_intact_iff_woken :
    (ReadiedCpu.boot bootPs).RunQueueIntact ∧
      (Always ReadiedCpu.Step (fun m op _ => m.RetiresUnqueued op) (.boot bootPs)
          wokenThreadReturns ↔
        Always ReadiedCpu.Step (fun _ _ m' => m'.RunQueueIntact) (.boot bootPs)
          wokenThreadReturns) :=
  runQueue_intact_iff psInitialize_bootCalls _

/-- At its end the thread 1 is dead and at the head of the run queue. -/
theorem dead_thread_queued :
    ¬ Always ReadiedCpu.Step (fun _ _ m' => m'.RunQueueIntact) (.boot bootPs)
      wokenThreadReturns := by
  have hrun : (performAll ReadiedCpu.perform (.boot bootPs) wokenThreadReturns).map
      (fun m => (m.cpu.ps.runQueueHead, (m.cpu.ps.threadPool 1).state)) =
        some (some 1, .dead) := by decide +kernel
  obtain ⟨m, hm, hfields⟩ := Option.map_eq_some_iff.1 hrun
  simp only [Prod.mk.injEq] at hfields
  intro hall
  obtain ⟨l, hl⟩ := hall.of_performAll (Q := ReadiedCpu.RunQueueIntact) hm
  have hhead : l.head? = some 1 := hl.spells.head_eq.symm.trans hfields.1
  exact hl.not_dead 1 (List.mem_of_mem_head? hhead) hfields.2

end NtxKernel.Ps
