import NtxKernel.Ps.RunQueue

/-!
# Scheduler bookkeeping

`SchedOk ps fresh l` is the invariant of the scheduler's own records, whatever thread executes: the
run queue is the list `l` of ready threads, the current thread is outside it and running, and the
threads in `fresh` were created and wait to be readied. Each routine keeps it.
-/

namespace NtxKernel.Ps

open Foundations

/-- The run queue is `l`, and every other thread that can be queued is outside it. -/
structure SchedOk (ps : PsState) (fresh : ThreadRef → Bool) (l : List ThreadRef) : Prop where
  ready : ps.ready = true
  queue : ps.runQueue.Holds l
  queued : ∀ t ∈ l, (ps.threadPool t).state = .ready ∧ (ps.threadPool t).ownerProcess ≠ none
  fresh : ∀ t, fresh t = true → (ps.threadPool t).state = .ready ∧
    (ps.threadPool t).ownerProcess ≠ none ∧ t ∉ l ∧ ps.currentThread ≠ some t
  blocked : ∀ t, (ps.threadPool t).state = .blocked → (ps.threadPool t).ownerProcess ≠ none
  current : ∀ t, ps.currentThread = some t → (ps.threadPool t).state = .running ∧
    (ps.threadPool t).ownerProcess ≠ none ∧ t ∉ l

namespace SchedOk

variable {ps ps' : PsState} {fresh : ThreadRef → Bool} {l : List ThreadRef} {t n : ThreadRef}

/-- The scheduler does not look at the links of wait lists. -/
theorem congr (h : SchedOk ps fresh l) (hready : ps'.ready = ps.ready)
    (hqueue : ps'.runQueue = ps.runQueue) (hcurrent : ps'.currentThread = ps.currentThread)
    (hthread : ∀ t, (ps'.threadPool t).state = (ps.threadPool t).state ∧
      (ps'.threadPool t).ownerProcess = (ps.threadPool t).ownerProcess) :
    SchedOk ps' fresh l := by
  constructor
  · rw [hready]
    exact h.ready
  · rw [hqueue]
    exact h.queue
  · intro t ht
    rw [(hthread t).1, (hthread t).2]
    exact h.queued t ht
  · intro t ht
    rw [(hthread t).1, (hthread t).2, hcurrent]
    exact h.fresh t ht
  · intro t ht
    rw [(hthread t).1] at ht
    rw [(hthread t).2]
    exact h.blocked t ht
  · intro t ht
    rw [hcurrent] at ht
    rw [(hthread t).1, (hthread t).2]
    exact h.current t ht

/-- A dispatch with a thread waiting. -/
theorem dispatch (h : SchedOk ps fresh (n :: l)) :
    ∃ ps', psDispatch ps = some (ps', psDispatchSwitch ps.currentThread n) ∧
      SchedOk ps' fresh (l ++ ps.requeued) ∧ DispatchedTo ps n ps' := by
  have hn := h.queued n List.mem_cons_self
  have hnl : n ∉ l := (List.nodup_cons.1 h.queue.nodup).1
  obtain ⟨ps', hdisp, hq', hto⟩ := psDispatch_cons h.ready h.queue hn.2 fun p hp =>
    (h.current p hp).2.2
  refine ⟨ps', hdisp, ⟨hto.ready, hq', fun t ht => ?_, fun t ht => ?_, fun t ht => ?_,
    fun t ht => ?_⟩, hto⟩
  · rw [hto.state, hto.ownerProcess]
    rcases List.mem_append.1 ht with hmem | hmem
    · have htq := h.queued t (List.mem_cons_of_mem n hmem)
      have htn : t ≠ n := fun heq => hnl (heq ▸ hmem)
      rw [if_neg htn, htq.1, ite_self]
      exact ⟨rfl, htq.2⟩
    · have hcur := h.current t (mem_requeued.1 hmem).1
      have htn : t ≠ n := fun heq => hcur.2.2 (heq ▸ List.mem_cons_self)
      rw [if_neg htn, if_pos hmem]
      exact ⟨rfl, hcur.2.1⟩
  · obtain ⟨hstate, howner, hmem, hcur⟩ := h.fresh t ht
    have htn : t ≠ n := fun heq => hmem (heq ▸ List.mem_cons_self)
    rw [hto.state, hto.ownerProcess, if_neg htn, hstate, ite_self, hto.currentThread]
    refine ⟨rfl, howner, fun hmem' => ?_, fun heq => htn (Option.some.inj heq).symm⟩
    rcases List.mem_append.1 hmem' with hmem' | hmem'
    · exact hmem (List.mem_cons_of_mem n hmem')
    · exact hcur (mem_requeued.1 hmem').1
  · rw [hto.state] at ht
    rw [hto.ownerProcess]
    split at ht
    · cases ht
    split at ht
    · cases ht
    exact h.blocked t ht
  · obtain rfl : n = t := Option.some.inj (hto.currentThread.symm.trans ht)
    rw [hto.state, hto.ownerProcess, if_pos rfl]
    refine ⟨rfl, hn.2, fun hmem => ?_⟩
    rcases List.mem_append.1 hmem with hmem | hmem
    · exact hnl hmem
    · exact (h.current n (mem_requeued.1 hmem).1).2.2 List.mem_cons_self

/-- The current thread takes a state in which it does not run. -/
theorem release (h : SchedOk ps fresh l) (hcur : ps.currentThread = some t)
    (state : PsThreadState) : SchedOk (ps.setState t state).clearCurrentThread fresh l := by
  obtain ⟨-, howner, hmem⟩ := h.current t hcur
  have hself : (ps.setState t state).threadPool t = { ps.threadPool t with state := state } :=
    PsState.modifyThread_self ..
  have hother : ∀ u ≠ t, (ps.setState t state).threadPool u = ps.threadPool u := fun u hu =>
    PsState.modifyThread_of_ne _ hu _
  refine ⟨h.ready, ?_, fun u hu => ?_, fun u hu => ?_, fun u hu => ?_, fun u hu => by cases hu⟩
  · exact runQueue_setState ps t state ▸ h.queue
  · have hut : u ≠ t := fun heq => hmem (heq ▸ hu)
    rw [PsState.clearCurrentThread, hother u hut]
    exact h.queued u hu
  · obtain ⟨hstate, hown, hmem', hcur'⟩ := h.fresh u hu
    have hut : u ≠ t := by
      rintro rfl
      exact hcur' hcur
    rw [PsState.clearCurrentThread, hother u hut]
    exact ⟨hstate, hown, hmem', fun hnone => by cases hnone⟩
  · rw [PsState.clearCurrentThread] at hu ⊢
    by_cases hut : u = t
    · rw [hut, hself]
      exact howner
    · rw [hother u hut] at hu ⊢
      exact h.blocked u hu

/-- With the run queue empty, releasing the current thread leaves none current. -/
theorem psReleaseCurrentThread_nil (h : SchedOk ps fresh []) (hcur : ps.currentThread = some t)
    (state : PsThreadState) :
    psReleaseCurrentThread ps state =
      some ((ps.setState t state).clearCurrentThread, .failed .initFailed) := by
  have hrel := h.release hcur state
  rw [psReleaseCurrentThread, hcur]
  dsimp only
  rw [if_neg (by simp [h.ready]), psDispatch_nil hrel.ready hrel.queue]

/-- Otherwise the first thread of the run queue is current, and control has not moved. -/
theorem psReleaseCurrentThread_cons (h : SchedOk ps fresh (n :: l))
    (hcur : ps.currentThread = some t) (state : PsThreadState) :
    ∃ ps', psReleaseCurrentThread ps state = some (ps', .stayed) ∧ SchedOk ps' fresh l ∧
      DispatchedTo (ps.setState t state).clearCurrentThread n ps' := by
  obtain ⟨ps', hdisp, hok, hto⟩ := (h.release hcur state).dispatch
  have hnone : (ps.setState t state).clearCurrentThread.requeued = [] := rfl
  rw [hnone, List.append_nil] at hok
  refine ⟨ps', ?_, hok, hto⟩
  rw [psReleaseCurrentThread, hcur]
  dsimp only
  rw [if_neg (by simp [h.ready]), hdisp]
  rfl

/-- The current thread yields by a dispatch. -/
theorem psYieldThread_eq (h : SchedOk ps fresh l) (hcur : ps.currentThread = some t) :
    psYieldThread ps = psDispatch { ps with reschedulePending := false } := by
  rw [psYieldThread]
  split
  next hnone => cases hcur.symm.trans hnone
  next c hc =>
    rw [if_neg (by simp [h.ready]), if_neg (not_not.2 (h.current c hc).1)]

/-- A thread outside the run queue joins it. -/
theorem enqueue (h : SchedOk ps fresh l) (ht : t ∉ l) (hcur : ps.currentThread ≠ some t)
    (howner : (ps.threadPool t).ownerProcess ≠ none) {fresh' : ThreadRef → Bool}
    (hfresh : ∀ u, fresh' u = true → fresh u = true ∧ u ≠ t) :
    ∃ ps', pspRunQueuePush (ps.setState t .ready) t = some ps' ∧ SchedOk ps' fresh' (l ++ [t]) ∧
      ps'.unlinked = (ps.setState t .ready).unlinked := by
  have hself : (ps.setState t .ready).threadPool t = { ps.threadPool t with state := .ready } :=
    PsState.modifyThread_self ..
  have halive : ((ps.setState t .ready).threadPool t).state ≠ .dead := by
    rw [hself]
    exact PsThreadState.noConfusion
  obtain ⟨ps', hpush, hq, hrest⟩ := pspRunQueuePush_spec halive
    ((runQueue_setState ps t .ready).symm ▸ h.queue) ht
  have hstateSelf : (ps'.threadPool t).state = .ready := by
    rw [unlinked_state hrest, hself]
  have hstate : ∀ u ≠ t, (ps'.threadPool u).state = (ps.threadPool u).state := fun u hu => by
    rw [unlinked_state hrest, PsState.setState, PsState.modifyThread_of_ne _ hu]
  have hown : ∀ u, (ps'.threadPool u).ownerProcess = (ps.threadPool u).ownerProcess := by
    intro u
    rw [unlinked_ownerProcess hrest]
    by_cases hu : u = t
    · rw [hu, hself]
    · rw [PsState.setState, PsState.modifyThread_of_ne _ hu]
  have hcurrent : ps'.currentThread = ps.currentThread := by
    have hsame := unlinked_currentThread hrest
    exact hsame
  have hready : ps'.ready = ps.ready := by
    have hsame := unlinked_ready hrest
    exact hsame
  have hmem : ∀ u, u ∈ l ++ [t] → u = t ∨ u ∈ l := by
    intro u hu
    simpa [or_comm] using hu
  refine ⟨ps', hpush, ⟨hready.trans h.ready, hq, fun u hu => ?_, fun u hu => ?_, fun u hu => ?_,
    fun u hu => ?_⟩, hrest⟩
  · rw [hown]
    by_cases hut : u = t
    · rw [hut, hstateSelf]
      exact ⟨rfl, howner⟩
    · rw [hstate u hut]
      exact h.queued u ((hmem u hu).resolve_left hut)
  · obtain ⟨hu, hut⟩ := hfresh u hu
    obtain ⟨hready', hown', hnotMem, hnotCur⟩ := h.fresh u hu
    rw [hown, hstate u hut, hcurrent]
    exact ⟨hready', hown', fun hu' => hnotMem ((hmem u hu').resolve_left hut), hnotCur⟩
  · rw [hown]
    by_cases hut : u = t
    · rw [hut, hstateSelf] at hu
      cases hu
    · rw [hstate u hut] at hu
      exact h.blocked u hu
  · have hcur' := hcurrent.symm.trans hu
    have hut : u ≠ t := by
      rintro rfl
      exact hcur hcur'
    obtain ⟨hrun, hown', hnotMem⟩ := h.current u hcur'
    rw [hown, hstate u hut]
    exact ⟨hrun, hown', fun hu' => hnotMem ((hmem u hu').resolve_left hut)⟩

end SchedOk

/-! ## Links of wait lists -/

theorem unlinked_waitQueueNext {ps ps' : PsState} (h : ps'.unlinked = ps.unlinked) (t : ThreadRef) :
    (ps'.threadPool t).waitQueueNext = (ps.threadPool t).waitQueueNext := by
  have hnext := congrArg KThread.waitQueueNext (unlinked_thread h t)
  exact hnext

theorem setState_waitQueueNext (ps : PsState) (t u : ThreadRef) (state : PsThreadState) :
    ((ps.setState t state).threadPool u).waitQueueNext = (ps.threadPool u).waitQueueNext := by
  by_cases hu : u = t
  · rw [hu, PsState.setState, PsState.modifyThread_self]
  · rw [PsState.setState, PsState.modifyThread_of_ne _ hu]

/-- `PsDispatch` does not touch the links of wait lists, from any state. -/
theorem psDispatch_waitQueueNext {ps ps' : PsState} {d : PsDispatched}
    (h : psDispatch ps = some (ps', d)) (t : ThreadRef) :
    (ps'.threadPool t).waitQueueNext = (ps.threadPool t).waitQueueNext := by
  rw [psDispatch] at h
  split at h
  · cases h
    rfl
  have hpop := (pspRunQueuePop_eq ps).2.2
  generalize pspRunQueuePop ps = r at h hpop
  obtain ⟨ps₁, _ | n⟩ := r
  · cases h
    exact unlinked_waitQueueNext hpop t
  dsimp only at h
  split at h
  · cases h
  obtain ⟨ps₂, hprev, heq⟩ := Option.map_eq_some_iff.1 h
  cases heq
  have hprevious : (ps₂.threadPool t).waitQueueNext = (ps₁.threadPool t).waitQueueNext := by
    rw [psDispatchPrevious] at hprev
    split at hprev
    next p _ =>
      split at hprev
      · have halive : ((ps₁.setState p .ready).threadPool p).state ≠ .dead := by
          rw [PsState.setState, PsState.modifyThread_self]
          exact PsThreadState.noConfusion
        obtain ⟨ps₃, hpush, -, hrest⟩ := pspRunQueuePush_eq halive
        obtain rfl := Option.some.inj (hprev.symm.trans hpush)
        rw [unlinked_waitQueueNext hrest, setState_waitQueueNext]
      · cases hprev
        rfl
    · cases hprev
      rfl
  rw [← unlinked_waitQueueNext hpop t, ← hprevious, threadPool_psDispatchNext]
  by_cases htn : t = n
  · rw [htn, Function.update_self]
    rfl
  · rw [Function.update_of_ne htn]

end NtxKernel.Ps
