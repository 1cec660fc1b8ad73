import NtxKernel.Ps.Cpu

/-!
# The executing thread is the current thread

The invariant `CpuOk` of the runs in which no thread gives up the processor while another waits
for it, the proof that steps meeting `Cpu.HandsOver` keep it, and the exact theorem. While the
invariant holds, either a thread is current and executes, or none is and the executing code, which
blocked or exited with nothing to run, goes on without one.
-/

namespace NtxKernel.Ps

open Foundations Ob

/-- The fields of a thread that the invariant speaks of. -/
def KThread.role (t : KThread) : PsThreadState × Option ProcessRef × Bool × Option U64 :=
  (t.state, t.ownerProcess, t.isUserThread, t.startRoutine)

/-- The code of a kernel stack belongs to the thread `u`: the entry thunk saw `u`, and once it
called a start routine, `u` is a kernel thread with none left to call. -/
def Flow.Of (f : Flow) (ps : PsState) (u : ThreadRef) : Prop :=
  ∀ t, f.thunkThread = some t → t = u ∧ (f.pc = .routine →
    (ps.threadPool u).isUserThread = false ∧ (ps.threadPool u).startRoutine = none)

/-- The run queue is `l`, and the current thread, if any, executes. -/
structure CpuOk (c : Cpu) (l : List ThreadRef) : Prop where
  ready : c.ps.ready = true
  queue : c.ps.runQueue.Holds l
  queued : ∀ t ∈ l, (c.ps.threadPool t).state = .ready ∧
    (c.ps.threadPool t).ownerProcess ≠ none ∧ c.ps.threadInUse t = true
  fresh : ∀ t, c.fresh t = true → (c.ps.threadPool t).state = .ready ∧
    (c.ps.threadPool t).ownerProcess ≠ none ∧ c.ps.threadInUse t = true ∧ t ∉ l ∧ t ≠ c.executing
  blocked : ∀ t, (c.ps.threadPool t).state = .blocked →
    (c.ps.threadPool t).ownerProcess ≠ none ∧ c.ps.threadInUse t = true
  current : ∀ t, c.ps.currentThread = some t → t = c.executing ∧ t ∉ l ∧
    (c.ps.threadPool t).ownerProcess ≠ none ∧
      ((c.ps.threadPool t).state = .running ∨
        ((c.ps.threadPool t).state = .dead ∧ c.flow.pc = .thunk ∧
          (c.ps.threadPool t).isUserThread = false ∧ (c.ps.threadPool t).startRoutine = none))
  executing : c.ps.threadInUse c.executing = true
  flow : c.flow.Of c.ps c.executing
  contexts : ∀ u f, c.contexts u = some f → f.Of c.ps u ∧ c.ps.threadInUse u = true

theorem Flow.Of.congr {f : Flow} {ps ps' : PsState} {u : ThreadRef} (h : f.Of ps u)
    (hu : (ps'.threadPool u).role = (ps.threadPool u).role) : f.Of ps' u := by
  intro t ht
  simp only [KThread.role, Prod.mk.injEq] at hu
  rw [hu.2.2.1, hu.2.2.2]
  exact h t ht

theorem role_eq_of_unlinked {t t' : KThread} (h : t'.unlinked = t.unlinked) : t'.role = t.role := by
  have hrole := congrArg KThread.role h
  exact hrole

/-- A tick changes time slices and asks for a reschedule. -/
theorem psOnTimerTick_frame (ps : PsState) :
    (psOnTimerTick ps).ready = ps.ready ∧ (psOnTimerTick ps).runQueue = ps.runQueue ∧
      (psOnTimerTick ps).currentThread = ps.currentThread ∧
        (psOnTimerTick ps).threadInUse = ps.threadInUse ∧
          ∀ t, ((psOnTimerTick ps).threadPool t).role = (ps.threadPool t).role := by
  have hticks : ∀ t u, ((ps.modifyThread u KThread.ticked).threadPool t).role =
        (ps.threadPool t).role := by
    intro t u
    by_cases ht : t = u
    · subst ht
      rw [PsState.modifyThread_self]
      rfl
    · rw [PsState.modifyThread_of_ne _ ht]
  have hqueue : ∀ u, (ps.modifyThread u KThread.ticked).runQueue = ps.runQueue := by
    intro u
    refine Queue.ext ?_ rfl rfl
    funext t
    by_cases ht : t = u
    · subst ht
      simp [PsState.runQueue, KThread.ticked]
    · simp [PsState.runQueue, PsState.modifyThread_of_ne _ ht]
  rw [psOnTimerTick]
  split
  · exact ⟨rfl, rfl, rfl, rfl, fun _ => rfl⟩
  next e _ =>
  split
  · exact ⟨rfl, rfl, rfl, rfl, fun _ => rfl⟩
  dsimp only
  split <;> split
  · exact ⟨rfl, hqueue e, rfl, rfl, (hticks · e)⟩
  · exact ⟨rfl, hqueue e, rfl, rfl, (hticks · e)⟩
  · exact ⟨rfl, rfl, rfl, rfl, fun _ => rfl⟩
  · exact ⟨rfl, rfl, rfl, rfl, fun _ => rfl⟩

namespace CpuOk

variable {c c' : Cpu} {l : List ThreadRef}

/-- Threads in use and the run queue decide the invariant. -/
theorem congr (h : CpuOk c l) (hready : c'.ps.ready = c.ps.ready)
    (hqueue : c'.ps.runQueue = c.ps.runQueue)
    (hcurrent : c'.ps.currentThread = c.ps.currentThread)
    (hinUse : c'.ps.threadInUse = c.ps.threadInUse)
    (hrole : ∀ t, (c'.ps.threadPool t).role = (c.ps.threadPool t).role)
    (hexecuting : c'.executing = c.executing) (hflow : c'.flow = c.flow)
    (hcontexts : c'.contexts = c.contexts) (hfresh : c'.fresh = c.fresh) : CpuOk c' l := by
  have hfields : ∀ t, (c'.ps.threadPool t).state = (c.ps.threadPool t).state ∧
      (c'.ps.threadPool t).ownerProcess = (c.ps.threadPool t).ownerProcess ∧
      (c'.ps.threadPool t).isUserThread = (c.ps.threadPool t).isUserThread ∧
      (c'.ps.threadPool t).startRoutine = (c.ps.threadPool t).startRoutine := by
    intro t
    have ht := hrole t
    simpa only [KThread.role, Prod.mk.injEq] using ht
  constructor
  · rw [hready]
    exact h.ready
  · rw [hqueue]
    exact h.queue
  · intro t ht
    rw [(hfields t).1, (hfields t).2.1, hinUse]
    exact h.queued t ht
  · intro t ht
    rw [(hfields t).1, (hfields t).2.1, hinUse, hexecuting]
    exact h.fresh t (hfresh ▸ ht)
  · intro t ht
    rw [(hfields t).2.1, hinUse]
    exact h.blocked t ((hfields t).1 ▸ ht)
  · intro t ht
    rw [hcurrent] at ht
    rw [(hfields t).1, (hfields t).2.1, (hfields t).2.2.1, (hfields t).2.2.2, hexecuting, hflow]
    exact h.current t ht
  · rw [hinUse, hexecuting]
    exact h.executing
  · rw [hflow, hexecuting]
    exact h.flow.congr (hrole _)
  · intro u f hf
    rw [hcontexts] at hf
    rw [hinUse]
    exact ⟨(h.contexts u f hf).1.congr (hrole u), (h.contexts u f hf).2⟩

theorem withReturned (h : CpuOk c l) (status : Option (Except KStatus Unit)) :
    CpuOk { c with returned := status } l :=
  h.congr rfl rfl rfl rfl (fun _ => rfl) rfl rfl rfl rfl

/-- The invariant after a dispatch to `n`, which executes then, from the threads before it. -/
theorem of_dispatchedTo {ps : PsState} {n : ThreadRef} (hto : DispatchedTo ps n c'.ps)
    (hq : c'.ps.runQueue.Holds l) (hexecuting : c'.executing = n)
    (hqueued : ∀ t ∈ l, t ≠ n ∧ ((ps.threadPool t).state = .ready ∨ t ∈ ps.requeued) ∧
      (ps.threadPool t).ownerProcess ≠ none ∧ ps.threadInUse t = true)
    (hfresh : ∀ t, c'.fresh t = true → (ps.threadPool t).state = .ready ∧
      (ps.threadPool t).ownerProcess ≠ none ∧ ps.threadInUse t = true ∧ t ∉ l ∧ t ≠ n)
    (hblocked : ∀ t ≠ n, (ps.threadPool t).state = .blocked →
      (ps.threadPool t).ownerProcess ≠ none ∧ ps.threadInUse t = true)
    (hn : n ∉ l ∧ (ps.threadPool n).ownerProcess ≠ none ∧ ps.threadInUse n = true)
    (hflow : c'.flow.Of ps n)
    (hcontexts : ∀ u f, c'.contexts u = some f → f.Of ps u ∧ ps.threadInUse u = true) :
    CpuOk c' l := by
  have hcode : ∀ f u, Flow.Of f ps u → Flow.Of f c'.ps u := by
    intro f u hf t ht
    rw [hto.isUserThread, hto.startRoutine]
    exact hf t ht
  constructor
  · exact hto.ready
  · exact hq
  · intro t ht
    obtain ⟨htn, hstate, hrest⟩ := hqueued t ht
    rw [hto.state, hto.ownerProcess, hto.threadInUse, if_neg htn]
    refine ⟨?_, hrest⟩
    rcases hstate with hstate | hmem
    · rw [hstate, ite_self]
    · rw [if_pos hmem]
  · intro t ht
    obtain ⟨hstate, hown, hinUse, hmem, htn⟩ := hfresh t ht
    rw [hto.state, hto.ownerProcess, hto.threadInUse, hexecuting, if_neg htn, hstate, ite_self]
    exact ⟨rfl, hown, hinUse, hmem, htn⟩
  · intro t ht
    rw [hto.ownerProcess, hto.threadInUse]
    rw [hto.state] at ht
    split at ht
    · cases ht
    next htn =>
      split at ht
      · cases ht
      · exact hblocked t htn ht
  · intro t ht
    obtain rfl : n = t := Option.some.inj (hto.currentThread.symm.trans ht)
    rw [hto.ownerProcess, hto.state, if_pos rfl, hexecuting]
    exact ⟨rfl, hn.1, hn.2.1, .inl rfl⟩
  · rw [hexecuting, hto.threadInUse]
    exact hn.2.2
  · rw [hexecuting]
    exact hcode _ _ hflow
  · intro u f hf
    rw [hto.threadInUse]
    exact ⟨hcode f u (hcontexts u f hf).1, (hcontexts u f hf).2⟩

/-- A dispatch from the current thread: it stays when the queue is empty, and otherwise control
goes to the first thread of the queue, which is current and running then. -/
theorem dispatch (h : CpuOk c l) {e : ThreadRef} (he : c.ps.currentThread = some e) :
    ∃ c', (psDispatch c.ps).map c.finish = some c' ∧ (∃ l', CpuOk c' l') ∧ c'.Scheduled := by
  obtain ⟨rfl, hel, howner, -⟩ := h.current e he
  cases l with
  | nil =>
    rw [psDispatch_nil h.ready h.queue]
    refine ⟨_, rfl, ⟨[], h.congr rfl rfl rfl rfl (fun _ => rfl) rfl rfl rfl rfl⟩, ?_⟩
    rintro ⟨⟩
  | cons n l =>
    have hn := h.queued n List.mem_cons_self
    have hne : c.executing ≠ n := fun heq => hel (heq ▸ List.mem_cons_self)
    have hnl : n ∉ l := (List.nodup_cons.1 h.queue.nodup).1
    obtain ⟨ps', hdisp, hq', hto⟩ := psDispatch_cons h.ready h.queue hn.2.1 fun p hp =>
      Option.some.inj (he.symm.trans hp) ▸ hel
    have hrequeued : ∀ t ∈ c.ps.requeued, t = c.executing := fun t ht =>
      Option.some.inj ((mem_requeued.1 ht).1.symm.trans he)
    rw [he, psDispatchSwitch, if_pos hne] at hdisp
    rw [hdisp]
    refine ⟨_, rfl, ⟨l ++ c.ps.requeued, of_dispatchedTo hto hq' rfl ?_ ?_ ?_ ?_ ?_ ?_⟩, ?_⟩
    · intro t ht
      rcases List.mem_append.1 ht with ht | ht
      · have htq := h.queued t (List.mem_cons_of_mem n ht)
        exact ⟨fun heq => hnl (heq ▸ ht), .inl htq.1, htq.2⟩
      · obtain rfl := hrequeued t ht
        exact ⟨hne, .inr ht, howner, h.executing⟩
    · intro t ht
      obtain ⟨hstate, hown, hinUse, hmem, hexec⟩ := h.fresh t ht
      refine ⟨hstate, hown, hinUse, fun hmem' => ?_, fun heq => hmem (heq ▸ List.mem_cons_self)⟩
      rcases List.mem_append.1 hmem' with hmem' | hmem'
      · exact hmem (List.mem_cons_of_mem n hmem')
      · exact hexec (hrequeued t hmem')
    · exact fun t _ => h.blocked t
    · refine ⟨fun hmem => ?_, hn.2⟩
      rcases List.mem_append.1 hmem with hmem | hmem
      · exact hnl hmem
      · exact hne (hrequeued n hmem).symm
    · show ((c.contexts n).getD .entry).Of c.ps n
      cases hctx : c.contexts n with
      | none => exact fun t ht => by cases ht
      | some f => exact (h.contexts n f hctx).1
    · intro u f hf
      have hf' : Function.update c.contexts c.executing (some c.flow) u = some f := hf
      by_cases hu : u = c.executing
      · rw [hu, Function.update_self] at hf'
        cases hf'
        rw [hu]
        exact ⟨h.flow, h.executing⟩
      · rw [Function.update_of_ne hu] at hf'
        exact h.contexts u f hf'
    · rintro -
      refine ⟨hto.currentThread, ?_⟩
      show (ps'.threadPool n).state = .running
      rw [hto.state, if_pos rfl]

/-- The executing thread takes a state in which it does not run, and no thread is current. -/
theorem clearCurrent (h : CpuOk c []) {state : PsThreadState} {e : ThreadRef}
    (he : c.ps.currentThread = some e) (status : Option (Except KStatus Unit)) :
    CpuOk { c with
      ps := (c.ps.setState e state).clearCurrentThread, returned := status } [] := by
  obtain ⟨rfl, -, howner, -⟩ := h.current e he
  have hother : ∀ t, t ≠ c.executing →
      (c.ps.setState c.executing state).threadPool t = c.ps.threadPool t := fun t ht =>
    PsState.modifyThread_of_ne _ ht _
  have hself : (c.ps.setState c.executing state).threadPool c.executing =
      { c.ps.threadPool c.executing with state := state } := PsState.modifyThread_self ..
  have hcode : ∀ f u, Flow.Of f c.ps u → Flow.Of f (c.ps.setState c.executing state) u := by
    intro f u hf
    by_cases hu : u = c.executing
    · subst hu
      intro t ht
      rw [hself]
      exact hf t ht
    · exact hf.congr (congrArg KThread.role (hother u hu))
  constructor
  · exact h.ready
  · have hq := h.queue
    rw [← runQueue_setState c.ps c.executing state] at hq
    exact hq
  · intro t ht
    cases ht
  · intro t ht
    obtain ⟨hstate, hown, hinUse, hmem, hne⟩ := h.fresh t ht
    show ((c.ps.setState c.executing state).threadPool t).state = _ ∧
      ((c.ps.setState c.executing state).threadPool t).ownerProcess ≠ _ ∧ _
    rw [hother t hne]
    exact ⟨hstate, hown, hinUse, hmem, hne⟩
  · intro t ht
    have hstate : ((c.ps.setState c.executing state).threadPool t).state = .blocked := ht
    show ((c.ps.setState c.executing state).threadPool t).ownerProcess ≠ _ ∧ _
    by_cases hte : t = c.executing
    · subst hte
      rw [hself]
      exact ⟨howner, h.executing⟩
    · rw [hother t hte] at hstate ⊢
      exact h.blocked t hstate
  · intro t ht
    cases ht
  · exact h.executing
  · exact hcode _ _ h.flow
  · intro u f hf
    exact ⟨hcode f u (h.contexts u f hf).1, (h.contexts u f hf).2⟩

/-- The current thread blocks or exits: with the run queue empty no thread is current afterwards,
and otherwise the first thread of the queue is, while the code of the old one goes on. -/
theorem giveUp (h : CpuOk c l) {state : PsThreadState} {e : ThreadRef}
    (he : c.ps.currentThread = some e)
    (hstep : (psDispatch (c.ps.setState e state).clearCurrentThread).map c.finish = some c') :
    (c.ps.runQueueHead = none → (∃ l', CpuOk c' l') ∧ c'.Scheduled) ∧
      (c'.Scheduled → c.ps.runQueueHead = none) := by
  have hhead : c.ps.runQueueHead = l.head? := h.queue.head_eq
  have hready : (c.ps.setState e state).clearCurrentThread.ready = true := h.ready
  have hq : (c.ps.setState e state).clearCurrentThread.runQueue.Holds l := by
    have hq := h.queue
    rw [← runQueue_setState c.ps e state] at hq
    exact hq
  cases l with
  | nil =>
    rw [psDispatch_nil hready hq] at hstep
    cases hstep
    refine ⟨fun _ => ⟨⟨[], h.clearCurrent he _⟩, ?_⟩, fun _ => hhead⟩
    rintro ⟨⟩
  | cons n l =>
    refine ⟨fun hnone => absurd (hhead.symm.trans hnone) (Option.some_ne_none n), fun hsched => ?_⟩
    obtain ⟨rfl, hel, -⟩ := h.current e he
    have hne : n ≠ c.executing := fun heq => hel (heq ▸ List.mem_cons_self)
    have howner : ((c.ps.setState c.executing state).clearCurrentThread.threadPool n).ownerProcess ≠
        none := by
      show ((c.ps.setState c.executing state).threadPool n).ownerProcess ≠ none
      rw [PsState.setState, PsState.modifyThread_of_ne _ hne]
      exact (h.queued n List.mem_cons_self).2.1
    obtain ⟨ps', hdisp, -, hto⟩ := psDispatch_cons hready hq howner fun p hp => by cases hp
    rw [hdisp] at hstep
    cases hstep
    have hcur := (hsched rfl).1
    exact absurd (Option.some.inj (hto.currentThread.symm.trans hcur)) hne

/-- A thread that is not queued retires in `PspThreadEntryThunk`, up to the dispatch there. -/
theorem markDead (h : CpuOk c l) (hmem : c.executing ∉ l)
    (hkernel : (c.ps.threadPool c.executing).isUserThread = false ∧
      (c.ps.threadPool c.executing).startRoutine = none) :
    CpuOk { c with
      ps := c.ps.setState c.executing .dead, flow := { c.flow with pc := .thunk } } l := by
  have hother : ∀ t, t ≠ c.executing →
      (c.ps.setState c.executing .dead).threadPool t = c.ps.threadPool t := fun t ht =>
    PsState.modifyThread_of_ne _ ht _
  have hself : (c.ps.setState c.executing .dead).threadPool c.executing =
      { c.ps.threadPool c.executing with state := .dead } := PsState.modifyThread_self ..
  constructor
  · exact h.ready
  · show (c.ps.setState c.executing .dead).runQueue.Holds l
    rw [runQueue_setState]
    exact h.queue
  · intro t ht
    have hte : t ≠ c.executing := fun heq => hmem (heq ▸ ht)
    show ((c.ps.setState c.executing .dead).threadPool t).state = _ ∧
      ((c.ps.setState c.executing .dead).threadPool t).ownerProcess ≠ _ ∧ _
    rw [hother t hte]
    exact h.queued t ht
  · intro t ht
    have hfresh := h.fresh t ht
    show ((c.ps.setState c.executing .dead).threadPool t).state = _ ∧
      ((c.ps.setState c.executing .dead).threadPool t).ownerProcess ≠ _ ∧ _
    rw [hother t hfresh.2.2.2.2]
    exact hfresh
  · intro t ht
    have hstate : ((c.ps.setState c.executing .dead).threadPool t).state = .blocked := ht
    show ((c.ps.setState c.executing .dead).threadPool t).ownerProcess ≠ _ ∧ _
    by_cases hte : t = c.executing
    · rw [hte, hself] at hstate
      cases hstate
    · rw [hother t hte] at hstate ⊢
      exact h.blocked t hstate
  · intro t ht
    obtain ⟨rfl, hnotMem, howner, -⟩ := h.current t ht
    refine ⟨rfl, hnotMem, ?_, .inr ?_⟩
    · show ((c.ps.setState c.executing .dead).threadPool c.executing).ownerProcess ≠ none
      rw [hself]
      exact howner
    · show ((c.ps.setState c.executing .dead).threadPool c.executing).state = _ ∧ _ ∧
        ((c.ps.setState c.executing .dead).threadPool c.executing).isUserThread = _ ∧
          ((c.ps.setState c.executing .dead).threadPool c.executing).startRoutine = _
      rw [hself]
      exact ⟨rfl, rfl, hkernel⟩
  · exact h.executing
  · exact fun t ht => ⟨(h.flow t ht).1, fun hpc => by cases hpc⟩
  · intro u f hf
    refine ⟨fun t ht => ?_, (h.contexts u f hf).2⟩
    show t = u ∧ (_ → ((c.ps.setState c.executing .dead).threadPool u).isUserThread = _ ∧
      ((c.ps.setState c.executing .dead).threadPool u).startRoutine = _)
    by_cases hu : u = c.executing
    · subst hu
      rw [hself]
      exact (h.contexts _ f hf).1 t ht
    · rw [hother u hu]
      exact (h.contexts u f hf).1 t ht

/-- A thread retires in `PspThreadEntryThunk`. With no thread current, the dispatch there must
find nothing, or the executing thread itself. -/
theorem retire (h : CpuOk c l)
    (hkernel : (c.ps.threadPool c.executing).isUserThread = false ∧
      (c.ps.threadPool c.executing).startRoutine = none)
    (hstep : c.retire c.executing = some c') :
    (c.ps.currentThread ≠ none ∨ c.ps.runQueueHead = none ∨
        c.ps.runQueueHead = some c.executing → (∃ l', CpuOk c' l') ∧ c'.Scheduled) ∧
      (c'.Scheduled → c.ps.currentThread ≠ none ∨ c.ps.runQueueHead = none ∨
        c.ps.runQueueHead = some c.executing) := by
  have hhead : c.ps.runQueueHead = l.head? := h.queue.head_eq
  rcases hcur : c.ps.currentThread with _ | e
  · cases l with
    | nil =>
      refine ⟨fun _ => ?_, fun _ => .inr (.inl hhead)⟩
      have hdead := h.markDead List.not_mem_nil hkernel
      rw [Cpu.retire, psDispatch_nil hdead.ready hdead.queue] at hstep
      cases hstep
      refine ⟨⟨[], hdead.congr rfl rfl rfl rfl (fun _ => rfl) rfl rfl rfl rfl⟩, ?_⟩
      rintro ⟨⟩
    | cons n l =>
      have hready : (c.ps.setState c.executing .dead).ready = true := h.ready
      have hq : (c.ps.setState c.executing .dead).runQueue.Holds (n :: l) := by
        rw [runQueue_setState]
        exact h.queue
      have hother : ∀ t, t ≠ c.executing →
          (c.ps.setState c.executing .dead).threadPool t = c.ps.threadPool t := fun t ht =>
        PsState.modifyThread_of_ne _ ht _
      have hself : (c.ps.setState c.executing .dead).threadPool c.executing =
          { c.ps.threadPool c.executing with state := .dead } := PsState.modifyThread_self ..
      have hn := h.queued n List.mem_cons_self
      have hnl : n ∉ l := (List.nodup_cons.1 h.queue.nodup).1
      have howner : ((c.ps.setState c.executing .dead).threadPool n).ownerProcess ≠ none := by
        by_cases hne : n = c.executing
        · rw [hne, hself]
          exact hne ▸ hn.2.1
        · rw [hother n hne]
          exact hn.2.1
      have hnone : (c.ps.setState c.executing .dead).currentThread = none := hcur
      obtain ⟨ps', hdisp, hq', hto⟩ := psDispatch_cons hready hq howner fun p hp => by
        cases hnone.symm.trans hp
      rw [Cpu.retire, hdisp, hnone] at hstep
      cases hstep
      have hrequeued : (c.ps.setState c.executing .dead).requeued = [] := by
        rw [PsState.requeued, hnone]
      rw [hrequeued, List.append_nil] at hq'
      constructor
      · rintro (hcur' | hnone' | hown)
        · exact absurd rfl hcur'
        · cases hhead.symm.trans hnone'
        · -- the executing thread was woken before: it is dispatched again
          obtain rfl : n = c.executing := Option.some.inj (hhead.symm.trans hown)
          refine ⟨⟨l, of_dispatchedTo hto hq' rfl ?_ ?_ ?_ ?_ ?_ ?_⟩, ?_⟩
          · intro t ht
            have hte : t ≠ c.executing := fun heq => hnl (heq ▸ ht)
            rw [hother t hte]
            have htq := h.queued t (List.mem_cons_of_mem _ ht)
            exact ⟨hte, .inl htq.1, htq.2⟩
          · intro t ht
            obtain ⟨hstate, hown, hinUse, hmem, hte⟩ := h.fresh t ht
            rw [hother t hte]
            exact ⟨hstate, hown, hinUse, fun hl => hmem (List.mem_cons_of_mem _ hl), hte⟩
          · intro t hte hstate
            rw [hother t hte] at hstate ⊢
            exact h.blocked t hstate
          · exact ⟨hnl, howner, h.executing⟩
          · exact fun t ht => ⟨(h.flow t ht).1, fun hpc => by cases hpc⟩
          · intro u f hf
            refine ⟨fun t ht => ?_, (h.contexts u f hf).2⟩
            by_cases hu : u = c.executing
            · subst hu
              rw [hself]
              exact (h.contexts _ f hf).1 t ht
            · rw [hother u hu]
              exact (h.contexts u f hf).1 t ht
          · rintro -
            refine ⟨hto.currentThread, ?_⟩
            show (ps'.threadPool c.executing).state = .running
            rw [hto.state, if_pos rfl]
      · intro hsched
        have hexec := (hsched rfl).1
        have hn' : n = c.executing := Option.some.inj (hto.currentThread.symm.trans hexec)
        exact .inr (.inr (hn' ▸ hhead))
  · obtain ⟨rfl, hmem, -⟩ := h.current e hcur
    obtain ⟨c'', heq, hok, hsched⟩ := (h.markDead hmem hkernel).dispatch hcur
    rw [Cpu.retire, heq] at hstep
    cases hstep
    exact ⟨fun _ => ⟨hok, hsched⟩, fun _ => .inl (Option.some_ne_none _)⟩

/-- A thread that was not queued joins the run queue. -/
theorem enqueue (h : CpuOk c l) {t : ThreadRef} (ht : t ∉ l) (hcur : c.ps.currentThread ≠ some t)
    (howner : (c.ps.threadPool t).ownerProcess ≠ none) (hinUse : c.ps.threadInUse t = true)
    {ps' : PsState} (hpush : pspRunQueuePush (c.ps.setState t .ready) t = some ps')
    {fresh : ThreadRef → Bool} (hfresh : ∀ u, fresh u = true → c.fresh u = true ∧ u ≠ t)
    (status : Option (Except KStatus Unit)) :
    CpuOk { c with ps := ps', fresh := fresh, returned := status } (l ++ [t]) ∧
      ps'.currentThread = c.ps.currentThread ∧
        ∀ u ≠ t, (ps'.threadPool u).state = (c.ps.threadPool u).state := by
  have hself : (c.ps.setState t .ready).threadPool t = { c.ps.threadPool t with state := .ready } :=
    PsState.modifyThread_self ..
  have halive : ((c.ps.setState t .ready).threadPool t).state ≠ .dead := by
    rw [hself]
    exact PsThreadState.noConfusion
  obtain ⟨ps'', heq, hq, hrest⟩ := pspRunQueuePush_spec halive
    ((runQueue_setState c.ps t .ready).symm ▸ h.queue) ht
  obtain rfl : ps' = ps'' := Option.some.inj (hpush.symm.trans heq)
  have hroleSelf : (ps'.threadPool t).role =
      (.ready, (c.ps.threadPool t).ownerProcess, (c.ps.threadPool t).isUserThread,
        (c.ps.threadPool t).startRoutine) := by
    rw [role_eq_of_unlinked (unlinked_thread hrest t), hself]
    rfl
  have hrole : ∀ u ≠ t, (ps'.threadPool u).role = (c.ps.threadPool u).role := fun u hu => by
    rw [role_eq_of_unlinked (unlinked_thread hrest u), PsState.setState,
      PsState.modifyThread_of_ne _ hu]
  simp only [KThread.role, Prod.mk.injEq] at hroleSelf hrole
  have hsame := unlinked_currentThread hrest
  have hcurrent : ps'.currentThread = c.ps.currentThread := hsame
  have hsame' := unlinked_threadInUse hrest
  have hinUse' : ps'.threadInUse = c.ps.threadInUse := hsame'
  have hcode : ∀ f u, Flow.Of f c.ps u → Flow.Of f ps' u := by
    intro f u hf v hv
    by_cases hu : u = t
    · rw [hu, hroleSelf.2.2.1, hroleSelf.2.2.2, ← hu]
      exact hf v hv
    · rw [(hrole u hu).2.2.1, (hrole u hu).2.2.2]
      exact hf v hv
  refine ⟨?_, hcurrent, fun u hu => (hrole u hu).1⟩
  constructor
  · exact (unlinked_ready hrest).trans h.ready
  · exact hq
  · intro u hu
    show (ps'.threadPool u).state = _ ∧ (ps'.threadPool u).ownerProcess ≠ _ ∧
      ps'.threadInUse u = true
    rw [hinUse']
    rcases List.mem_append.1 hu with hu | hu
    · have hut : u ≠ t := fun heq => ht (heq ▸ hu)
      rw [(hrole u hut).1, (hrole u hut).2.1]
      exact h.queued u hu
    · obtain rfl := List.mem_singleton.1 hu
      rw [hroleSelf.1, hroleSelf.2.1]
      exact ⟨rfl, howner, hinUse⟩
  · intro u hu
    obtain ⟨hu, hut⟩ := hfresh u hu
    show (ps'.threadPool u).state = _ ∧ (ps'.threadPool u).ownerProcess ≠ _ ∧
      ps'.threadInUse u = true ∧ _
    obtain ⟨hstate, hown, huse, hmem, hexec⟩ := h.fresh u hu
    rw [hinUse', (hrole u hut).1, (hrole u hut).2.1]
    refine ⟨hstate, hown, huse, fun hmem' => ?_, hexec⟩
    rcases List.mem_append.1 hmem' with hmem' | hmem'
    · exact hmem hmem'
    · exact hut (List.mem_singleton.1 hmem')
  · intro u hu
    have hstate : (ps'.threadPool u).state = .blocked := hu
    show (ps'.threadPool u).ownerProcess ≠ _ ∧ ps'.threadInUse u = true
    by_cases hut : u = t
    · rw [hut, hroleSelf.1] at hstate
      cases hstate
    · rw [(hrole u hut).1] at hstate
      rw [hinUse', (hrole u hut).2.1]
      exact h.blocked u hstate
  · intro u hu
    have hcur' : c.ps.currentThread = some u := hcurrent.symm.trans hu
    have hut : u ≠ t := fun heq => hcur (heq ▸ hcur')
    obtain ⟨hexec, hmem, hrest'⟩ := h.current u hcur'
    show u = _ ∧ _ ∧ (ps'.threadPool u).ownerProcess ≠ _ ∧ ((ps'.threadPool u).state = _ ∨
      ((ps'.threadPool u).state = _ ∧ _ ∧ (ps'.threadPool u).isUserThread = _ ∧
        (ps'.threadPool u).startRoutine = _))
    rw [(hrole u hut).1, (hrole u hut).2.1, (hrole u hut).2.2.1, (hrole u hut).2.2.2]
    refine ⟨hexec, fun hmem' => ?_, hrest'⟩
    rcases List.mem_append.1 hmem' with hmem' | hmem'
    · exact hmem hmem'
    · exact hut (List.mem_singleton.1 hmem')
  · show ps'.threadInUse c.executing = true
    rw [hinUse']
    exact h.executing
  · exact hcode _ _ h.flow
  · intro u f hf
    show f.Of ps' u ∧ ps'.threadInUse u = true
    rw [hinUse']
    exact ⟨hcode f u (h.contexts u f hf).1, (h.contexts u f hf).2⟩

/-- A slot that was free is taken, and possibly filled with a ready thread. -/
theorem allocate (h : CpuOk c l) {t : ThreadRef} (hfree : c.ps.threadInUse t = false) {ps' : PsState}
    (hready : ps'.ready = c.ps.ready) (hcurrent : ps'.currentThread = c.ps.currentThread)
    (hhead : ps'.runQueueHead = c.ps.runQueueHead) (htail : ps'.runQueueTail = c.ps.runQueueTail)
    (hinUse : ps'.threadInUse = Function.update c.ps.threadInUse t true)
    (hothers : ∀ u ≠ t, ps'.threadPool u = c.ps.threadPool u)
    (hself : (ps'.threadPool t).state ≠ .blocked) {fresh : ThreadRef → Bool}
    (hfresh : ∀ u, fresh u = true → c.fresh u = true ∨
      (u = t ∧ (ps'.threadPool t).state = .ready ∧ (ps'.threadPool t).ownerProcess ≠ none))
    (status : Option (Except KStatus Unit)) :
    CpuOk { c with ps := ps', fresh := fresh, returned := status } l := by
  have hne : ∀ u, c.ps.threadInUse u = true → u ≠ t := by
    rintro u hu rfl
    rw [hfree] at hu
    cases hu
  have huse : ∀ u, c.ps.threadInUse u = true → ps'.threadInUse u = true := fun u hu => by
    rw [hinUse, Function.update_of_ne (hne u hu)]
    exact hu
  have hexec := hne _ h.executing
  constructor
  · exact hready.trans h.ready
  · exact h.queue.congr (fun u hu => congrArg KThread.runQueueNext
      (hothers u (hne u (h.queued u hu).2.2))) hhead htail
  · intro u hu
    obtain ⟨hstate, hown, hu'⟩ := h.queued u hu
    show (ps'.threadPool u).state = _ ∧ (ps'.threadPool u).ownerProcess ≠ _ ∧ _
    rw [hothers u (hne u hu')]
    exact ⟨hstate, hown, huse u hu'⟩
  · intro u hu
    show (ps'.threadPool u).state = _ ∧ (ps'.threadPool u).ownerProcess ≠ _ ∧
      ps'.threadInUse u = true ∧ _
    rcases hfresh u hu with hold | ⟨rfl, hstate, hown⟩
    · obtain ⟨hstate, hown, hu', hrest⟩ := h.fresh u hold
      rw [hothers u (hne u hu')]
      exact ⟨hstate, hown, huse u hu', hrest⟩
    · refine ⟨hstate, hown, ?_, fun hmem => hne u (h.queued u hmem).2.2 rfl, hexec.symm⟩
      rw [hinUse, Function.update_self]
  · intro u hu
    have hstate : (ps'.threadPool u).state = .blocked := hu
    show (ps'.threadPool u).ownerProcess ≠ _ ∧ _
    have hut : u ≠ t := by
      rintro rfl
      exact hself hstate
    rw [hothers u hut] at hstate ⊢
    exact ⟨(h.blocked u hstate).1, huse u (h.blocked u hstate).2⟩
  · intro u hu
    have hcur : c.ps.currentThread = some u := hcurrent.symm.trans hu
    have hut : u ≠ t := (h.current u hcur).1 ▸ hexec
    show u = _ ∧ _ ∧ (ps'.threadPool u).ownerProcess ≠ _ ∧ ((ps'.threadPool u).state = _ ∨
      ((ps'.threadPool u).state = _ ∧ _ ∧ (ps'.threadPool u).isUserThread = _ ∧
        (ps'.threadPool u).startRoutine = _))
    rw [hothers u hut]
    exact h.current u hcur
  · exact huse _ h.executing
  · exact h.flow.congr (congrArg KThread.role (hothers _ hexec))
  · intro u f hf
    obtain ⟨hof, hu⟩ := h.contexts u f hf
    exact ⟨hof.congr (congrArg KThread.role (hothers u (hne u hu))), huse u hu⟩

/-- Creating a thread succeeds only while a thread is current, unless it is refused. -/
theorem create (h : CpuOk c l) (hbody : c.flow.pc ≠ .thunk) {check : Option KStatus}
    {object : Except KStatus ObjectRef} {r : PsState × Except KStatus ThreadRef}
    (hr : ThreadCreation c.ps check object r) :
    (c.ps.currentThread ≠ none ∨ check ≠ none ∨ c.CreateRefused object →
        (∃ l', CpuOk (c.created r) l') ∧ (c.created r).Scheduled) ∧
      ((c.created r).Scheduled → c.ps.currentThread ≠ none ∨ check ≠ none ∨
        c.CreateRefused object) := by
  have hnotBlocked : ∀ t, c.ps.threadInUse t = false → (c.ps.threadPool t).state ≠ .blocked := by
    intro t hfree hstate
    rw [(h.blocked t hstate).2] at hfree
    cases hfree
  cases hr with
  | refused e hrefused =>
    refine ⟨fun _ => ⟨⟨l, h.congr rfl rfl rfl rfl (fun _ => rfl) rfl rfl rfl rfl⟩, fun hret => ?_⟩,
      fun _ => .inr ?_⟩
    · cases hret
    · rcases hrefused with hcheck | hfull
      · exact .inl hcheck
      · exact .inr (.inl hfull)
  | noObject t e hfree hobject =>
    refine ⟨fun _ => ⟨⟨l, ?_⟩, fun hret => ?_⟩, fun _ => .inr (.inr (.inr ⟨e, hobject⟩))⟩
    · dsimp only [Cpu.created]
      refine h.allocate hfree ?_ ?_ ?_ ?_ ?_ ?_ ?_ ?_ _
      exacts [rfl, rfl, rfl, rfl, rfl, fun _ _ => rfl, hnotBlocked t hfree, fun u hu => .inl hu]
    · cases hret
  | ok t thread hfree hcheck hobject hstate howner =>
    constructor
    · rintro (hcur | hcheck' | hfull | ⟨e, hobject'⟩)
      · obtain ⟨e, he⟩ := Option.ne_none_iff_exists'.1 hcur
        obtain ⟨rfl, -, -, hstate'⟩ := h.current e he
        have hne : c.executing ≠ t := by
          rintro rfl
          rw [h.executing] at hfree
          cases hfree
        refine ⟨⟨l, ?_⟩, fun _ => ⟨he, ?_⟩⟩
        · dsimp only [Cpu.created]
          refine h.allocate hfree ?_ ?_ ?_ ?_ ?_ (fun u hu => ?_) ?_ (fun u hu => ?_) _
          iterate 5 rfl
          · exact Function.update_of_ne hu _ _
          · simp only [Function.update_self, hstate]
            exact PsThreadState.noConfusion
          · by_cases hut : u = t
            · simp only [Function.update_self]
              exact .inr ⟨hut, hstate, howner⟩
            · rw [Function.update_of_ne hut] at hu
              exact .inl hu
        · rcases hstate' with hrun | ⟨-, hthunk, -⟩
          · exact (congrArg KThread.state (Function.update_of_ne hne _ _)).trans hrun
          · exact absurd hthunk hbody
      · exact absurd hcheck hcheck'
      · rw [hfull t] at hfree
        cases hfree
      · exact absurd hobject' (hobject e)
    · intro hsched
      refine .inl fun hnone => ?_
      have hcur := (hsched rfl).1
      cases hnone.symm.trans hcur

/-- A step that returns nothing to a caller and keeps the invariant meets both sides. -/
theorem of_silent (hok : ∃ l', CpuOk c' l') (hret : c'.returned = none) {P : Prop} (hP : P) :
    (P → (∃ l', CpuOk c' l') ∧ c'.Scheduled) ∧ (c'.Scheduled → P) :=
  ⟨fun _ => ⟨hok, fun h => by rw [hret] at h; cases h⟩, fun _ => hP⟩

/-- So does one that returns an error. -/
theorem of_failed (hok : ∃ l', CpuOk c' l') {e : KStatus} (hret : c'.returned = some (.error e))
    {P : Prop} (hP : P) : (P → (∃ l', CpuOk c' l') ∧ c'.Scheduled) ∧ (c'.Scheduled → P) :=
  ⟨fun _ => ⟨hok, fun h => by rw [hret] at h; cases h⟩, fun _ => hP⟩

theorem timerTick (h : CpuOk c l) :
    CpuOk { c with ps := psOnTimerTick c.ps, returned := none } l := by
  obtain ⟨hready, hqueue, hcurrent, hinUse, hrole⟩ := psOnTimerTick_frame c.ps
  exact h.congr hready hqueue hcurrent hinUse hrole rfl rfl rfl rfl

/-- The running code moves to another place. -/
theorem setFlow (h : CpuOk c l) {f : Flow} (hof : f.Of c.ps c.executing)
    (hstate : ∀ t, c.ps.currentThread = some t →
      (c.ps.threadPool t).state = .running ∨ (c.flow.pc = .thunk → f.pc = .thunk))
    (status : Option (Except KStatus Unit)) :
    CpuOk { c with flow := f, returned := status } l :=
  { h with
    current := fun t ht => by
      obtain ⟨hexec, hmem, howner, hold⟩ := h.current t ht
      refine ⟨hexec, hmem, howner, ?_⟩
      rcases hold with hrun | ⟨hdead, hpc, hkernel⟩
      · exact .inl hrun
      · rcases hstate t ht with hrun | hthunk
        · exact .inl hrun
        · exact .inr ⟨hdead, hthunk hpc, hkernel⟩
    flow := hof }

/-- The start routine of a thread is taken out of its record. -/
theorem clearStartRoutine (h : CpuOk c l) (t : ThreadRef) :
    CpuOk { c with ps := c.ps.modifyThread t KThread.started } l := by
  have hfields : ∀ u, ((c.ps.modifyThread t KThread.started).threadPool u) =
        { c.ps.threadPool u with
          startRoutine := if u = t then none else (c.ps.threadPool u).startRoutine
          startContext := if u = t then 0 else (c.ps.threadPool u).startContext } := by
    intro u
    by_cases hu : u = t
    · subst hu
      rw [PsState.modifyThread_self, if_pos rfl, if_pos rfl]
      rfl
    · rw [PsState.modifyThread_of_ne _ hu, if_neg hu, if_neg hu]
  have hnone : ∀ u, (c.ps.threadPool u).startRoutine = none →
      (if u = t then none else (c.ps.threadPool u).startRoutine) = none := by
    intro u hu
    rw [hu, ite_self]
  have hcode : ∀ f u, Flow.Of f c.ps u → Flow.Of f (c.ps.modifyThread t KThread.started) u := by
    intro f u hf v hv
    rw [hfields]
    exact ⟨(hf v hv).1, fun hpc => ⟨((hf v hv).2 hpc).1, hnone u ((hf v hv).2 hpc).2⟩⟩
  have hq : (c.ps.modifyThread t KThread.started).runQueue = c.ps.runQueue := by
    refine Queue.ext ?_ rfl rfl
    funext u
    have hnext := congrArg KThread.runQueueNext (hfields u)
    exact hnext
  constructor
  · exact h.ready
  · exact hq ▸ h.queue
  · intro u hu
    dsimp only
    rw [hfields]
    exact h.queued u hu
  · intro u hu
    dsimp only
    rw [hfields]
    exact h.fresh u hu
  · intro u hu
    dsimp only at hu ⊢
    rw [hfields] at hu ⊢
    exact h.blocked u hu
  · intro u hu
    dsimp only
    rw [hfields]
    obtain ⟨hexec, hmem, howner, hstate⟩ := h.current u hu
    refine ⟨hexec, hmem, howner, ?_⟩
    rcases hstate with hrun | ⟨hdead, hpc, hkernel, hstart⟩
    · exact .inl hrun
    · exact .inr ⟨hdead, hpc, hkernel, hnone u hstart⟩
  · exact h.executing
  · exact hcode _ _ h.flow
  · exact fun u f hf => ⟨hcode f u (h.contexts u f hf).1, (h.contexts u f hf).2⟩

/-- One turn of the loop in `PspThreadEntryThunk`. -/
theorem enterThunk (h : CpuOk c l) (hstep : c.perform .enterThunk = some c') :
    (∃ l', CpuOk c' l') ∧ c'.Scheduled := by
  rw [Cpu.perform] at hstep
  split at hstep
  · cases hstep
  rcases hcur : c.ps.currentThread with _ | e
  · rw [hcur] at hstep
    cases hstep
  obtain ⟨rfl, hmem, howner, hstate⟩ := h.current e hcur
  rw [hcur] at hstep
  dsimp only at hstep
  have hthread : ∀ t, c.ps.currentThread = some t → t = c.executing := fun t ht =>
    Option.some.inj (ht.symm.trans hcur)
  split at hstep
  next huser =>
    cases hstep
    refine ⟨⟨l, h.setFlow ?_ (fun t ht => .inl ?_) none⟩, fun hret => by cases hret⟩
    · exact fun t ht => ⟨(Option.some.inj ht).symm, fun hpc => by cases hpc⟩
    · rw [hthread t ht]
      rcases hstate with hrun | ⟨-, -, hkernel, -⟩
      · exact hrun
      · rw [hkernel] at huser
        cases huser
  next huser =>
    have hkernel : (c.ps.threadPool c.executing).isUserThread = false := by
      simpa using huser
    split at hstep
    next start hstart =>
      cases hstep
      have hself : (c.ps.modifyThread c.executing KThread.started).threadPool c.executing =
            { c.ps.threadPool c.executing with startRoutine := none, startContext := 0 } :=
        PsState.modifyThread_self ..
      refine ⟨⟨l, (h.clearStartRoutine c.executing).setFlow ?_ (fun t ht => .inl ?_) none⟩,
        fun hret => by cases hret⟩
      · refine fun t ht => ⟨(Option.some.inj ht).symm, fun _ => ?_⟩
        dsimp only
        rw [hself]
        exact ⟨hkernel, rfl⟩
      · rw [hthread t ht]
        dsimp only
        rw [hself]
        rcases hstate with hrun | ⟨-, -, -, hnone⟩
        · exact hrun
        · rw [hnone] at hstart
          cases hstart
    next hstart =>
      have hlocal : CpuOk { c with flow := ⟨.thunk, some c.executing⟩ } l := by
        refine h.setFlow (fun t ht => ⟨(Option.some.inj ht).symm, fun hpc => by cases hpc⟩)
          (fun t ht => .inr fun _ => rfl) _
      exact (hlocal.retire ⟨hkernel, hstart⟩ hstep).1
        (.inl (by rw [hcur]; exact Option.some_ne_none _))

/-- A routine that gives the processor up. -/
theorem release (h : CpuOk c l) {state : PsThreadState}
    (hstep : (psReleaseCurrentThread c.ps state).map c.finish = some c') :
    (c.ps.currentThread = none ∨ c.ps.runQueueHead = none →
        (∃ l', CpuOk c' l') ∧ c'.Scheduled) ∧
      (c'.Scheduled → c.ps.currentThread = none ∨ c.ps.runQueueHead = none) := by
  rw [psReleaseCurrentThread] at hstep
  rcases hcur : c.ps.currentThread with _ | e
  · rw [hcur] at hstep
    cases hstep
    exact of_failed ⟨l, h.withReturned _⟩ rfl (Or.inl rfl)
  · rw [hcur] at hstep
    dsimp only at hstep
    rw [if_neg (by simp [h.ready])] at hstep
    have hboth := h.giveUp hcur hstep
    refine ⟨fun hC => ?_, fun hsched => .inr (hboth.2 hsched)⟩
    rcases hC with hnone | hhead
    · cases hnone
    · exact hboth.1 hhead

/-- Every step from a good state returns success to the current running thread exactly when it
meets the condition, and then it leads to a good state. -/
theorem step {op : CpuOp} (h : CpuOk c l) (hstep : c.Step op c') :
    (c.HandsOver op → (∃ l', CpuOk c' l') ∧ c'.Scheduled) ∧ (c'.Scheduled → c.HandsOver op) := by
  rw [Cpu.Step] at hstep
  have hrunning : c.flow.pc ≠ .thunk → ∀ e, c.ps.currentThread = some e →
      (c.ps.threadPool e).state = .running := by
    intro hpc e he
    rcases (h.current e he).2.2.2 with hrun | ⟨-, hthunk, -⟩
    · exact hrun
    · exact absurd hthunk hpc
  have hyield : c.flow.pc ≠ .thunk → (psYieldThread c.ps).map c.finish = some c' →
      (∃ l', CpuOk c' l') ∧ c'.Scheduled := by
    intro hpc hstep
    rw [psYieldThread] at hstep
    rcases hcur : c.ps.currentThread with _ | e
    · rw [hcur] at hstep
      cases hstep
      exact ⟨⟨l, h.withReturned _⟩, fun hret => by cases hret⟩
    · rw [hcur] at hstep
      dsimp only at hstep
      rw [if_neg (by simp [h.ready]), if_neg (not_not.2 (hrunning hpc e hcur))] at hstep
      have hpending : CpuOk { c with ps := { c.ps with reschedulePending := false } } l :=
        h.congr rfl rfl rfl rfl (fun _ => rfl) rfl rfl rfl rfl
      obtain ⟨c'', heq, hgood⟩ := hpending.dispatch hcur
      have hfinish : Cpu.finish { c with ps := { c.ps with reschedulePending := false } } =
          c.finish := by
        funext ⟨ps, d⟩
        cases d <;> rfl
      rw [hfinish] at heq
      rw [← hcur] at hstep
      obtain rfl := Option.some.inj (heq.symm.trans hstep)
      exact hgood
  cases op with
  | timerTick =>
    cases hstep
    exact of_silent ⟨l, h.timerTick⟩ rfl trivial
  | enterThunk => exact ⟨fun _ => h.enterThunk hstep, fun _ => trivial⟩
  | threadReturn =>
    rw [Cpu.perform] at hstep
    split at hstep
    · cases hstep
    next hpc =>
      obtain ⟨t, ht, hretire⟩ := Option.bind_eq_some_iff.1 hstep
      obtain ⟨rfl, hkernel⟩ := h.flow t ht
      exact h.retire (hkernel (not_not.1 hpc)) hretire
  | yield =>
    rw [Cpu.perform] at hstep
    split at hstep
    · cases hstep
    next hpc => exact ⟨fun _ => hyield hpc hstep, fun _ => trivial⟩
  | block =>
    rw [Cpu.perform] at hstep
    split at hstep
    · cases hstep
    · exact h.release hstep
  | exit exitCode =>
    rw [Cpu.perform] at hstep
    split at hstep
    · cases hstep
    · exact h.release hstep
  | wake t =>
    rw [Cpu.perform] at hstep
    split at hstep
    · cases hstep
    obtain ⟨ps', hwake, rfl⟩ := Option.map_eq_some_iff.1 hstep
    rw [psWakeThread, if_neg (by simp [h.ready])] at hwake
    split at hwake
    next hblocked =>
      have hnotMem : t ∉ l := by
        intro hmem
        rw [(h.queued t hmem).1] at hblocked
        cases hblocked
      have hnotCur : c.ps.currentThread ≠ some t := by
        intro hcur
        rcases (h.current t hcur).2.2.2 with hrun | ⟨hdead, -⟩
        · rw [hrun] at hblocked
          cases hblocked
        · rw [hdead] at hblocked
          cases hblocked
      have hfresh : ∀ u, c.fresh u = true → c.fresh u = true ∧ u ≠ t := by
        rintro u hu
        refine ⟨hu, ?_⟩
        rintro rfl
        rw [(h.fresh u hu).1] at hblocked
        cases hblocked
      have hqueued := h.enqueue hnotMem hnotCur (h.blocked t hblocked).1 (h.blocked t hblocked).2
        hwake hfresh none
      exact of_silent ⟨_, hqueued.1⟩ rfl trivial
    next =>
      cases hwake
      exact of_silent ⟨l, h.withReturned none⟩ rfl trivial
  | ready t =>
    rw [Cpu.perform] at hstep
    split at hstep
    · cases hstep
    next hpc =>
    split at hstep
    · cases hstep
    next hfresh =>
    obtain ⟨⟨ps', status⟩, hready, rfl⟩ := Option.map_eq_some_iff.1 hstep
    obtain ⟨hstate, howner, hinUse, hnotMem, hexec⟩ := h.fresh t (by simpa using hfresh)
    have hnotCur : c.ps.currentThread ≠ some t := fun hcur => hexec (h.current t hcur).1
    rw [psReadyThread, if_neg (by simp [h.ready]), if_neg (by rw [hstate]; exact
      PsThreadState.noConfusion)] at hready
    obtain ⟨ps'', hpush, hret⟩ := Option.bind_eq_some_iff.1 hready
    cases hret
    have hfresh' : ∀ u, Function.update c.fresh t false u = true → c.fresh u = true ∧ u ≠ t := by
      intro u hu
      by_cases hut : u = t
      · rw [hut, Function.update_self] at hu
        cases hu
      · rw [Function.update_of_ne hut] at hu
        exact ⟨hu, hut⟩
    obtain ⟨hok, hcurrent, hothers⟩ := h.enqueue hnotMem hnotCur howner hinUse hpush hfresh'
      (some (.ok ()))
    constructor
    · intro hcur
      obtain ⟨e, he⟩ := Option.ne_none_iff_exists'.1 hcur
      obtain rfl := (h.current e he).1
      refine ⟨⟨_, hok⟩, fun _ => ⟨hcurrent.trans he, ?_⟩⟩
      exact (hothers _ hexec.symm).trans (hrunning hpc _ he)
    · intro hsched hnone
      have hcur := (hsched rfl).1
      cases (hcurrent.trans hnone).symm.trans hcur
  | preemptionPoint =>
    rw [Cpu.perform] at hstep
    split at hstep
    · cases hstep
    next hpc =>
    obtain ⟨⟨ps', d⟩, hpoint, hmatch⟩ := Option.map_eq_some_iff.1 hstep
    rw [psHandlePreemptionPoint] at hpoint
    split at hpoint
    · cases hpoint
      cases hmatch
      exact of_silent ⟨l, h.withReturned none⟩ rfl trivial
    · obtain ⟨⟨ps'', d'⟩, hyield', hpair⟩ := Option.map_eq_some_iff.1 hpoint
      cases hpair
      refine ⟨fun _ => hyield hpc ?_, fun _ => trivial⟩
      rw [hyield', ← hmatch]
      rfl
  | createKernelThread stackPool process startRoutine startContext object =>
    rw [Cpu.perform] at hstep
    split at hstep
    · cases hstep
    next hpc =>
      cases hstep
      have hcreate := h.create hpc (psCreateKernelThread_cases h.ready stackPool process
        startRoutine startContext object)
      refine ⟨fun hC => hcreate.1 (hC.imp_right .inr), fun hsched => ?_⟩
      rcases hcreate.2 hsched with hcur | hcheck | hrefused
      · exact .inl hcur
      · exact absurd rfl hcheck
      · exact .inr hrefused
  | createUserThread stackPool process userEntry userStackTop userArg0 userArg1 entryPte stackPte
      object =>
    rw [Cpu.perform] at hstep
    split at hstep
    · cases hstep
    next hpc =>
      cases hstep
      exact h.create hpc (psCreateUserThread_cases c.ps stackPool process userEntry userStackTop
        userArg0 userArg1 entryPte stackPte object)

end CpuOk

/-! ## Runs -/

/-- Creating the system process does not touch threads. -/
theorem pspCreateSystemProcess_frame {ps ps' : PsState} {object : Except KStatus ObjectRef}
    {addressSpace : U64 → Except KStatus AddressSpaceRef} {status : Except KStatus Unit}
    (h : pspCreateSystemProcess ps object addressSpace = (ps', status)) :
    ps'.threadPool = ps.threadPool ∧ ps'.threadInUse = ps.threadInUse ∧
      ps'.currentThread = ps.currentThread ∧ ps'.runQueue = ps.runQueue := by
  obtain rfl : (pspCreateSystemProcess ps object addressSpace).1 = ps' := congrArg Prod.fst h
  rw [pspCreateSystemProcess, pspCreateProcessInternal, pspAllocateProcessSlot]
  rcases firstIndex fun p => !ps.processInUse p with _ | p
  · exact ⟨rfl, rfl, rfl, rfl⟩
  rcases object with e | header
  · exact ⟨rfl, rfl, rfl, rfl⟩
  dsimp only
  rcases addressSpace ps.nextProcessId with e | root <;> exact ⟨rfl, rfl, rfl, rfl⟩

/-- A scheduler state from which the bootstrap thread `t` is dispatched: no thread is current and
every slot is in the state ready. -/
structure Bootstraps (ps : PsState) (t : ThreadRef) : Prop where
  currentThread : ps.currentThread = none
  state : ∀ u, (ps.threadPool u).state = .ready
  ownerProcess : (ps.threadPool t).ownerProcess ≠ none
  threadInUse : ps.threadInUse t = true

theorem Bootstraps.requeued {ps : PsState} {t : ThreadRef} (h : Bootstraps ps t) :
    ps.requeued = [] := by
  rw [PsState.requeued, h.currentThread]

/-- Starting the bootstrap thread readies and dispatches it, and leaves the run queue empty. -/
theorem psStartBootstrapThread_spec {ps ps' : PsState} {calls : PsInitializeCalls}
    (hready : ps.ready = true) (hqueue : ps.runQueue.Holds []) (hcurrent : ps.currentThread = none)
    (hstate : ∀ t, (ps.threadPool t).state = .ready)
    (h : psStartBootstrapThread ps calls = some (ps', .ok ())) :
    ∃ ps₀ t, Bootstraps ps₀ t ∧ DispatchedTo ps₀ t ps' ∧ ps'.runQueue.Holds [] := by
  rw [psStartBootstrapThread] at h
  rcases hsys : ps.systemProcess with _ | system
  · rw [hsys] at h
    cases h
  rw [hsys] at h
  dsimp only at h
  have hcreate := psCreateKernelThread_cases hready calls.stackPool system none 0 calls.threadObject
  generalize psCreateKernelThread ps calls.stackPool system none 0 calls.threadObject = r
    at h hcreate
  cases hcreate with
  | refused e hrefused => cases h
  | noObject t e hfree hobject => cases h
  | ok t thread hfree hcheck hobject hthread howner =>
    generalize hps₁ : ({ ps with
      threadInUse := Function.update ps.threadInUse t true
      threadPool := Function.update ps.threadPool t thread
      nextThreadId := ps.nextThreadId + 1 } : PsState) = ps₁ at h
    have hready₁ : ps₁.ready = true := hps₁ ▸ hready
    have hcurrent₁ : ps₁.currentThread = none := hps₁ ▸ hcurrent
    have hqueue₁ : ps₁.runQueue.Holds [] := by
      rw [← hps₁]
      exact ⟨hqueue.head_eq, hqueue.tail_eq, List.nodup_nil, trivial⟩
    have hself : ps₁.threadPool t = thread := by
      rw [← hps₁]
      exact Function.update_self ..
    have hstate₁ : ∀ u, (ps₁.threadPool u).state = .ready := by
      intro u
      by_cases hu : u = t
      · rw [hu, hself, hthread]
      · rw [← hps₁]
        exact (congrArg KThread.state (Function.update_of_ne hu ..)).trans (hstate u)
    have hinUse₁ : ps₁.threadInUse t = true := by
      rw [← hps₁]
      exact Function.update_self ..
    have howner₁ : (ps₁.threadPool t).ownerProcess ≠ none := by
      rwa [hself]
    clear hps₁ hself
    -- the thread is readied: it is the run queue
    have halive : ((ps₁.setState t .ready).threadPool t).state ≠ .dead := by
      rw [PsState.setState, PsState.modifyThread_self]
      exact PsThreadState.noConfusion
    obtain ⟨ps₂, hpush, hqueue₂, hrest⟩ := pspRunQueuePush_spec halive
      ((runQueue_setState ps₁ t .ready).symm ▸ hqueue₁) List.not_mem_nil
    have hreadied : psReadyThread ps₁ t = some (ps₂, .ok ()) := by
      rw [psReadyThread, if_neg (by simp [hready₁]), if_neg (by rw [hstate₁]; exact
        PsThreadState.noConfusion), hpush]
      rfl
    dsimp only at h
    rw [hreadied] at h
    have hready₂ := (unlinked_ready hrest).trans hready₁
    have hcurrent₂ := (unlinked_currentThread hrest).trans hcurrent₁
    have hinUse₂ := (congrFun (unlinked_threadInUse hrest) t).trans hinUse₁
    have hstate₂ : ∀ u, (ps₂.threadPool u).state = .ready := by
      intro u
      rw [unlinked_state hrest]
      by_cases hu : u = t
      · rw [hu, PsState.setState, PsState.modifyThread_self]
      · rw [PsState.setState, PsState.modifyThread_of_ne _ hu, hstate₁]
    have howner₂ : (ps₂.threadPool t).ownerProcess ≠ none := by
      rw [unlinked_ownerProcess hrest, PsState.setState, PsState.modifyThread_self]
      exact howner₁
    -- and dispatched
    obtain ⟨ps₃, hdisp, hqueue₃, hto⟩ := psDispatch_cons hready₂ hqueue₂ howner₂ fun p hp => by
      cases hcurrent₂.symm.trans hp
    have hboot : Bootstraps ps₂ t := ⟨hcurrent₂, hstate₂, howner₂, hinUse₂⟩
    rw [hboot.requeued] at hqueue₃
    dsimp only at h
    rw [hdisp, hcurrent₂] at h
    cases h
    exact ⟨ps₂, t, hboot, hto, hqueue₃⟩

/-- So does `PsInitialize`. -/
theorem psInitialize_spec {calls : PsInitializeCalls} {ps : PsState}
    (h : psInitialize .zero calls = some (ps, .ok ())) :
    ∃ ps₀ t, Bootstraps ps₀ t ∧ DispatchedTo ps₀ t ps ∧ ps.runQueue.Holds [] := by
  rw [psInitialize, if_neg (by simp [PsState.zero])] at h
  dsimp only at h
  split at h
  · cases h
  split at h
  · cases h
  split at h
  · cases h
  next ps₁ _ hsys =>
    obtain ⟨hpool, hinUse, hcurrent, hqueue⟩ := pspCreateSystemProcess_frame hsys
    refine psStartBootstrapThread_spec ?_ ?_ ?_ (fun t => ?_) h
    · rfl
    · show ps₁.runQueue.Holds []
      rw [hqueue]
      exact ⟨rfl, rfl, List.nodup_nil, trivial⟩
    · exact hcurrent
    · show (ps₁.threadPool t).state = .ready
      rw [hpool]
      rfl

/-- `PsInitialize` leaves the bootstrap thread current and executing. -/
theorem CpuOk.boot {calls : PsInitializeCalls} {ps : PsState}
    (h : psInitialize .zero calls = some (ps, .ok ())) : CpuOk (Cpu.boot ps) [] := by
  obtain ⟨ps₀, t, hboot, hto, hqueue⟩ := psInitialize_spec h
  refine of_dispatchedTo hto hqueue ?_ (fun u hu => by cases hu) (fun u hu => by cases hu)
    (fun u _ hu => ?_) ⟨List.not_mem_nil, hboot.ownerProcess, hboot.threadInUse⟩
    (fun u hu => by cases hu) (fun u f hf => by cases hf)
  · rw [Cpu.boot, hto.currentThread]
    rfl
  · rw [hboot.state] at hu
    cases hu

/-- After `PsInitialize`, along every run: calls return success to the thread that is current
and running exactly when every step meets the condition `Cpu.HandsOver`. -/
theorem executing_is_current_iff {calls : PsInitializeCalls} {ps : PsState}
    (hinit : psInitialize .zero calls = some (ps, .ok ())) (ops : List CpuOp) :
    Always Cpu.Step (fun c op _ => c.HandsOver op) (Cpu.boot ps) ops ↔
      Always Cpu.Step (fun _ _ c' => c'.Scheduled) (Cpu.boot ps) ops := by
  refine always_congr (I := fun c => ∃ l, CpuOk c l) ?_ ?_ ⟨[], .boot hinit⟩ ops
  · rintro c op c' ⟨l, h⟩ hC hstep
    exact ((h.step hstep).1 hC).1
  · rintro c op c' ⟨l, h⟩ hstep
    exact ⟨fun hC => ((h.step hstep).1 hC).2, (h.step hstep).2⟩

/-- Calls of `PsInitialize` that all succeed. -/
def bootCalls : PsInitializeCalls := ⟨.ok 0, .ok 1, .ok 0, fun _ => .ok 0, .ok 1, 0x100000⟩

/-- The scheduler after them. -/
def bootPs : PsState :=
  match psInitialize .zero bootCalls with
  | some (ps, _) => ps
  | none => .zero

theorem psInitialize_bootCalls : psInitialize .zero bootCalls = some (bootPs, .ok ()) := by
  have hok : (psInitialize .zero bootCalls).map Prod.snd = some (.ok ()) := by decide +kernel
  obtain ⟨⟨ps, status⟩, hinit, rfl⟩ := Option.map_eq_some_iff.1 hok
  rw [bootPs, hinit]

theorem executing_is_current_iff_boot :
    Always Cpu.Step (fun c op _ => c.HandsOver op) (Cpu.boot bootPs)
        [.createKernelThread 0x100000 0 (some 0x200000) 0 (.ok 2), .ready 1, .yield, .enterThunk] ↔
      Always Cpu.Step (fun _ _ c' => c'.Scheduled) (Cpu.boot bootPs)
        [.createKernelThread 0x100000 0 (some 0x200000) 0 (.ok 2), .ready 1, .yield, .enterThunk] :=
  executing_is_current_iff psInitialize_bootCalls _

/-- A thread blocks while another is ready: `PsBlockCurrentThread` returns success to it, blocked
as it is, and the other is the current thread. -/
theorem block_returns_to_blocked_thread :
    ¬ Always Cpu.Step (fun _ _ c' => c'.Scheduled) (Cpu.boot bootPs)
      [.createKernelThread 0x100000 0 (some 0x200000) 0 (.ok 2), .ready 1, .block] := by
  have hrun : (performAll Cpu.perform (Cpu.boot bootPs)
      [.createKernelThread 0x100000 0 (some 0x200000) 0 (.ok 2), .ready 1, .block]).map
        (fun c => (c.returned, c.ps.currentThread, c.executing)) =
          some (some (.ok ()), some 1, 0) := by decide +kernel
  obtain ⟨c, hc, hfields⟩ := Option.map_eq_some_iff.1 hrun
  simp only [Prod.mk.injEq] at hfields
  intro hall
  have hcurrent := (hall.of_performAll hc hfields.1).1
  rw [hfields.2.1, hfields.2.2] at hcurrent
  exact absurd hcurrent (by decide)

end NtxKernel.Ps
