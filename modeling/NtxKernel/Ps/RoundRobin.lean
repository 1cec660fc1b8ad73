import Mathlib.Data.List.Rotate
import NtxKernel.Ps.Executing
import NtxKernel.Ps.Scheduler

/-!
# Round robin

Threads that take turns: the current thread yields, the timer ticks and preempts it, and threads
that were created are readied and blocked ones woken, in any order. `TurnSystem` keeps the threads
that dispatches made current.

* `TurnsTaken`: what was dispatched and what still waits is what waited at the start and what
  joined the run queue since. It holds after every run, and so a thread is reached after as many
  dispatches as threads stood ahead of it, and one more.
* `TurnsRotated`: when no thread joins, the current thread and the run queue behind it are the
  ones of the start, rotated once for every dispatch.
* `round_robin_fair` puts the two together with the time slices.
-/

namespace NtxKernel.Ps

open Foundations

/-- The scheduler, the threads created and not yet readied, and a record of the threads that
`PsDispatch` made current, oldest first. -/
structure TurnSystem where
  ps : PsState
  fresh : ThreadRef → Bool
  dispatched : List ThreadRef

/-- What happens while the threads take turns. -/
inductive TurnOp
  | yieldThread
  | timerTick
  | preemptionPoint
  | readyThread (thread : ThreadRef)
  | wakeThread (thread : ThreadRef)

/-- The operations by which no thread joins the run queue from outside. -/
def TurnOp.OfCurrent : TurnOp → Prop
  | .yieldThread | .timerTick | .preemptionPoint => True
  | .readyThread _ | .wakeThread _ => False

/-- The thread a dispatch made current, when it made one. -/
def PsDispatched.made (ps : PsState) : PsDispatched → List ThreadRef
  | .failed _ => []
  | .stayed | .switched _ _ => ps.currentThread.toList

namespace TurnSystem

/-- Go on with `ps` after a dispatch that ended with `d`. -/
def note (s : TurnSystem) (ps : PsState) (d : PsDispatched) : TurnSystem :=
  { s with ps := ps, dispatched := s.dispatched ++ d.made ps }

/-- One operation, unless an assertion fails. A thread is readied once after it was created. -/
def perform (s : TurnSystem) : TurnOp → Option TurnSystem
  | .yieldThread => do
    let (ps, d) ← psYieldThread s.ps
    some (s.note ps d)
  | .timerTick => some { s with ps := psOnTimerTick s.ps }
  | .preemptionPoint => do
    let (ps, d) ← psHandlePreemptionPoint s.ps
    match d with
    | none => some { s with ps := ps }
    | some d => some (s.note ps d)
  | .readyThread t =>
    if s.fresh t = true then do
      let (ps, _) ← psReadyThread s.ps t
      some { s with ps := ps, fresh := Function.update s.fresh t false }
    else none
  | .wakeThread t => do
    let ps ← psWakeThread s.ps t
    some { s with ps := ps }

/-- A step of the system. -/
def Step (s : TurnSystem) (o : TurnOp) (s' : TurnSystem) : Prop :=
  s.perform o = some s'

/-- The thread `t` is current, and the run queue is `l`. -/
structure Taking (s : TurnSystem) (t : ThreadRef) (l : List ThreadRef) : Prop where
  sched : SchedOk s.ps s.fresh l
  current : s.ps.currentThread = some t

/-- The system dispatched `n`, which starts a time slice. -/
structure Dispatched (s : TurnSystem) (n : ThreadRef) (s' : TurnSystem) : Prop where
  dispatched : s'.dispatched = s.dispatched ++ [n]
  current : s'.ps.currentThread = some n
  slice : (s'.ps.threadPool n).remainingTicks = (s'.ps.threadPool n).timeSliceTicks

variable {s s' : TurnSystem} {t n : ThreadRef} {l : List ThreadRef}

/-! ## The operations -/

/-- The current thread goes behind the run queue, and the first thread of it is current. -/
theorem Taking.psYieldThread (h : s.Taking t (n :: l)) :
    ∃ ps d, psYieldThread s.ps = some (ps, d) ∧ (s.note ps d).Taking n (l ++ [t]) ∧
      s.Dispatched n (s.note ps d) := by
  have hcur : ({ s.ps with reschedulePending := false } : PsState).currentThread = some t :=
    h.current
  have hsched : SchedOk { s.ps with reschedulePending := false } s.fresh (n :: l) :=
    h.sched.congr rfl rfl rfl fun _ => ⟨rfl, rfl⟩
  obtain ⟨ps, hdisp, hok, hto⟩ := hsched.dispatch
  have hrun := (hsched.current t hcur).1
  have hrequeued : ({ s.ps with reschedulePending := false } : PsState).requeued = [t] := by
    rw [PsState.requeued, hcur]
    exact if_pos hrun
  rw [hrequeued] at hok
  have hmade : (psDispatchSwitch s.ps.currentThread n).made ps = [n] := by
    rw [h.current, psDispatchSwitch]
    split <;> simp [PsDispatched.made, hto.currentThread]
  refine ⟨ps, _, (h.sched.psYieldThread_eq h.current).trans hdisp, ⟨hok, hto.currentThread⟩,
    ⟨congrArg (s.dispatched ++ ·) hmade, hto.currentThread, ?_⟩⟩
  have hslice := congrArg KThread.timeSliceTicks (hto.thread n)
  have hremaining := congrArg KThread.remainingTicks (hto.thread n)
  have hself : (ps.threadPool n).remainingTicks = (s.ps.threadPool n).timeSliceTicks := by
    refine hremaining.trans ?_
    exact if_pos rfl
  exact hself.trans hslice.symm

/-- A tick leaves the queue and the current thread. -/
theorem Taking.psOnTimerTick (h : s.Taking t l) :
    ({ s with ps := psOnTimerTick s.ps } : TurnSystem).Taking t l := by
  obtain ⟨hready, hqueue, hcurrent, -, hrole⟩ := psOnTimerTick_frame s.ps
  refine ⟨h.sched.congr hready hqueue hcurrent fun u => ?_, hcurrent.trans h.current⟩
  have hu := hrole u
  simp only [KThread.role, Prod.mk.injEq] at hu
  exact ⟨hu.1, hu.2.1⟩

/-- Each tick takes one from a time slice, and the one that finds none left asks for a
reschedule. -/
theorem psOnTimerTick_spec {ps : PsState} (hready : ps.ready = true)
    (hcur : ps.currentThread = some t) :
    ((Ps.psOnTimerTick ps).threadPool t).remainingTicks.toNat =
        (ps.threadPool t).remainingTicks.toNat - 1 ∧
      ((ps.threadPool t).remainingTicks.toNat ≤ 1 →
        (Ps.psOnTimerTick ps).reschedulePending = true) ∧
      (ps.reschedulePending = true → (Ps.psOnTimerTick ps).reschedulePending = true) := by
  have hzero : ∀ x : U32, x = 0 ↔ x.toNat = 0 := fun x => by
    rw [← BitVec.toNat_inj]
    rfl
  have hpred : ∀ x : U32, 0 < x.toNat → (x - 1).toNat = x.toNat - 1 := fun x hx => by
    bv_omega
  rw [Ps.psOnTimerTick, hcur]
  dsimp only
  rw [if_neg (by simp [hready])]
  by_cases hpos : 0 < (ps.threadPool t).remainingTicks.toNat
  · rw [if_pos hpos]
    have hself : ((ps.modifyThread t KThread.ticked).threadPool t).remainingTicks =
        (ps.threadPool t).remainingTicks - 1 := by
      rw [PsState.modifyThread_self]
      rfl
    split
    next hz =>
      rw [hzero, hself, hpred _ hpos] at hz
      refine ⟨?_, fun _ => rfl, fun _ => rfl⟩
      have hnat := hpred _ hpos
      rw [← hself] at hnat
      exact hnat
    next hz =>
      rw [hzero, hself, hpred _ hpos] at hz
      refine ⟨by rw [hself, hpred _ hpos], fun hone => absurd hz (by omega), fun hp => hp⟩
  · rw [if_neg hpos, if_pos ((hzero _).2 (by omega))]
    exact ⟨by dsimp only; omega, fun _ => rfl, fun _ => rfl⟩

/-- A thread outside the run queue joins it. -/
theorem Taking.enqueue (h : s.Taking t l) {u : ThreadRef} (hu : u ∉ l) (hut : u ≠ t)
    (howner : (s.ps.threadPool u).ownerProcess ≠ none) (fresh : ThreadRef → Bool)
    (hfresh : ∀ v, fresh v = true → s.fresh v = true ∧ v ≠ u) :
    ∃ ps, pspRunQueuePush (s.ps.setState u .ready) u = some ps ∧
      ({ s with ps := ps, fresh := fresh } : TurnSystem).Taking t (l ++ [u]) := by
  have hcur : s.ps.currentThread ≠ some u := fun hu' =>
    hut (Option.some.inj (hu'.symm.trans h.current))
  obtain ⟨ps, hpush, hok, hrest⟩ := h.sched.enqueue hu hcur howner hfresh
  exact ⟨ps, hpush, hok, (unlinked_currentThread hrest).trans h.current⟩

/-! ## One step -/

/-- What a step does to the turns: nothing, a dispatch of the first waiting thread, or a thread
joins behind the others. -/
inductive Turned (s : TurnSystem) (t : ThreadRef) (l : List ThreadRef) (o : TurnOp)
    (s' : TurnSystem) : Prop
  | same : s'.Taking t l → s'.dispatched = s.dispatched → Turned s t l o s'
  | dispatch (n : ThreadRef) (m : List ThreadRef) : l = n :: m → s'.Taking n (m ++ [t]) →
      s.Dispatched n s' → Turned s t l o s'
  | join (u : ThreadRef) : ¬o.OfCurrent → s'.Taking t (l ++ [u]) →
      s'.dispatched = s.dispatched → Turned s t l o s'

theorem step_turned {o : TurnOp} (h : s.Taking t l) (hl : l ≠ [])
    (hstep : s.Step o s') : s.Turned t l o s' := by
  obtain ⟨n, m, rfl⟩ := List.exists_cons_of_ne_nil hl
  rw [Step] at hstep
  cases o with
  | yieldThread =>
    obtain ⟨ps, d, hyield, htaking, hdisp⟩ := h.psYieldThread
    rw [perform, hyield] at hstep
    obtain rfl := Option.some.inj hstep
    exact .dispatch n m rfl htaking hdisp
  | timerTick =>
    obtain rfl := Option.some.inj hstep
    exact .same h.psOnTimerTick rfl
  | preemptionPoint =>
    rw [perform, psHandlePreemptionPoint] at hstep
    split at hstep
    · obtain rfl := Option.some.inj hstep
      exact .same h rfl
    · obtain ⟨ps, d, hyield, htaking, hdisp⟩ := h.psYieldThread
      rw [hyield] at hstep
      obtain rfl := Option.some.inj hstep
      exact .dispatch n m rfl htaking hdisp
  | readyThread u =>
    rw [perform] at hstep
    split at hstep
    next hu =>
      obtain ⟨hstate, howner, hmem, hcur⟩ := h.sched.fresh u hu
      have hut : u ≠ t := fun heq => hcur (heq ▸ h.current)
      obtain ⟨ps, hpush, htaking⟩ := h.enqueue hmem hut howner
        (Function.update s.fresh u false) fun v hv => by
          by_cases hvu : v = u
          · rw [hvu, Function.update_self] at hv
            cases hv
          · exact ⟨by rwa [Function.update_of_ne hvu] at hv, hvu⟩
      rw [psReadyThread, if_neg (by simp [h.sched.ready]),
        if_neg (by rw [hstate]; exact PsThreadState.noConfusion), hpush] at hstep
      obtain rfl := Option.some.inj hstep
      exact .join u not_false htaking rfl
    next => cases hstep
  | wakeThread u =>
    rw [perform, psWakeThread, if_neg (by simp [h.sched.ready])] at hstep
    split at hstep
    next hblocked =>
      have howner := h.sched.blocked u hblocked
      have hmem : u ∉ n :: m := fun hu => by
        have hready := (h.sched.queued u hu).1
        rw [hblocked] at hready
        cases hready
      have hut : u ≠ t := fun heq => by
        have hrun := (h.sched.current t h.current).1
        rw [← heq, hblocked] at hrun
        cases hrun
      obtain ⟨ps, hpush, htaking⟩ := h.enqueue hmem hut howner s.fresh fun v hv =>
        ⟨hv, fun heq => by
          have hready := (h.sched.fresh v hv).1
          rw [heq, hblocked] at hready
          cases hready⟩
      rw [hpush] at hstep
      obtain rfl := Option.some.inj hstep
      exact .join u not_false htaking rfl
    next =>
      obtain rfl := Option.some.inj hstep
      exact .same h rfl

/-- A yield dispatches the first waiting thread. -/
theorem Taking.yields (h : s.Taking t l) (hl : l ≠ []) :
    ∃ n s', s.Step .yieldThread s' ∧ s.Dispatched n s' := by
  obtain ⟨n, m, rfl⟩ := List.exists_cons_of_ne_nil hl
  obtain ⟨ps, d, hyield, -, hdisp⟩ := h.psYieldThread
  refine ⟨n, s.note ps d, ?_, hdisp⟩
  rw [Step, perform, hyield]
  rfl

/-- So does a preemption point, once a reschedule is asked for. -/
theorem Taking.preempted (h : s.Taking t l) (hl : l ≠ [])
    (hpending : s.ps.reschedulePending = true) :
    ∃ n s', s.Step .preemptionPoint s' ∧ s.Dispatched n s' := by
  obtain ⟨n, m, rfl⟩ := List.exists_cons_of_ne_nil hl
  obtain ⟨ps, d, hyield, -, hdisp⟩ := h.psYieldThread
  refine ⟨n, s.note ps d, ?_, hdisp⟩
  rw [Step, perform, psHandlePreemptionPoint,
    if_neg (by simp [h.sched.ready, hpending]), hyield]
  rfl

/-! ## Runs -/

/-- The dispatches `d` since `t` was current and `l` waited: they took, in order, what waited then
and what joined since, and the last of them made `t'` current. -/
def TurnsTaken (t : ThreadRef) (l d : List ThreadRef) (t' : ThreadRef) (l' : List ThreadRef) :
    Prop :=
  (∃ joined, d ++ l' = l ++ joined) ∧ (t :: d).getLast? = some t'

theorem run_turnsTaken {ops : List TurnOp} (hrun : Run Step s ops s') (h : s.Taking t l)
    (hl : l ≠ []) :
    ∃ d t' l', s'.Taking t' l' ∧ l' ≠ [] ∧ s'.dispatched = s.dispatched ++ d ∧
      TurnsTaken t l d t' l' := by
  induction hrun generalizing t l with
  | nil => exact ⟨[], t, l, h, hl, (List.append_nil _).symm, ⟨[], (List.append_nil l).symm⟩, rfl⟩
  | cons hstep _ ih =>
    cases step_turned h hl hstep with
    | same h₁ hsame =>
      obtain ⟨d, t', l', htaking, hl', hd, hturns⟩ := ih h₁ hl
      exact ⟨d, t', l', htaking, hl', hsame ▸ hd, hturns⟩
    | dispatch n m hlm h₁ hdisp =>
      obtain ⟨d, t', l', htaking, hl', hd, ⟨joined, hfifo⟩, hlast⟩ := ih h₁ (by simp)
      refine ⟨n :: d, t', l', htaking, hl', ?_, ⟨t :: joined, ?_⟩, ?_⟩
      · rw [hd, hdisp.dispatched, List.append_assoc]
        rfl
      · rw [hlm, List.cons_append, hfifo, List.append_assoc]
        rfl
      · rw [List.getLast?_cons_cons]
        exact hlast
    | join u _ h₁ hsame =>
      obtain ⟨d, t', l', htaking, hl', hd, ⟨joined, hfifo⟩, hlast⟩ := ih h₁ (by simp)
      refine ⟨d, t', l', htaking, hl', hsame ▸ hd, ⟨u :: joined, ?_⟩, hlast⟩
      rw [hfifo, List.append_assoc]
      rfl

/-- Without threads that join, every dispatch rotates the threads by one. -/
theorem run_rotated {ops : List TurnOp} (hrun : Run Step s ops s')
    (hops : ∀ o ∈ ops, o.OfCurrent) (h : s.Taking t l) (hl : l ≠ []) :
    ∃ d t' l', s'.Taking t' l' ∧ s'.dispatched = s.dispatched ++ d ∧
      t' :: l' = (t :: l).rotate d.length := by
  induction hrun generalizing t l with
  | nil => exact ⟨[], t, l, h, (List.append_nil _).symm, (List.rotate_zero _).symm⟩
  | cons hstep _ ih =>
    have hrest := fun o ho => hops o (List.mem_cons_of_mem _ ho)
    cases step_turned h hl hstep with
    | same h₁ hsame =>
      obtain ⟨d, t', l', htaking, hd, hrotate⟩ := ih hrest h₁ hl
      exact ⟨d, t', l', htaking, hsame ▸ hd, hrotate⟩
    | dispatch n m hlm h₁ hdisp =>
      obtain ⟨d, t', l', htaking, hd, hrotate⟩ := ih hrest h₁ (by simp)
      refine ⟨n :: d, t', l', htaking, ?_, ?_⟩
      · rw [hd, hdisp.dispatched, List.append_assoc]
        rfl
      · rw [hrotate, hlm, List.length_cons, List.rotate_cons_succ]
        rfl
    | join u hnot _ _ => exact absurd (hops _ List.mem_cons_self) hnot

/-- Ticks that use up the time slice of the current thread ask for a reschedule. -/
theorem run_ticks {k : ℕ} (hrun : Run Step s (List.replicate k .timerTick) s')
    (h : s.Taking t l) (hslice : s.ps.reschedulePending = true ∨
      (0 < k ∧ (s.ps.threadPool t).remainingTicks.toNat ≤ k)) :
    s'.Taking t l ∧ s'.dispatched = s.dispatched ∧ s'.ps.reschedulePending = true := by
  induction k generalizing s with
  | zero =>
    cases hrun
    exact ⟨h, rfl, hslice.resolve_right (by simp)⟩
  | succ k ih =>
    rw [List.replicate_succ] at hrun
    cases hrun with
    | cons hstep hrest =>
      obtain rfl := Option.some.inj hstep
      obtain ⟨hticks, hlast, hkept⟩ := psOnTimerTick_spec h.sched.ready h.current
      refine ih (s := { s with ps := Ps.psOnTimerTick s.ps }) hrest h.psOnTimerTick ?_
      dsimp only
      rw [hticks]
      rcases hslice with hpending | ⟨-, hle⟩
      · exact .inl (hkept hpending)
      · by_cases hone : (s.ps.threadPool t).remainingTicks.toNat ≤ 1
        · exact .inl (hlast hone)
        · exact .inr ⟨by omega, by omega⟩

/-- A thread behind `ahead` is not current before as many dispatches, and current after one
more. -/
theorem TurnsTaken.reached {d l' ahead behind : List ThreadRef} {x t' : ThreadRef}
    (h : TurnsTaken t (ahead ++ x :: behind) d t' l')
    (hnodup : (t :: (ahead ++ x :: behind)).Nodup) :
    (d.length ≤ ahead.length → t' ≠ x) ∧ (d.length = ahead.length + 1 → t' = x) := by
  obtain ⟨⟨joined, hfifo⟩, hlast⟩ := h
  rw [List.append_assoc] at hfifo
  constructor
  · rintro hle rfl
    obtain ⟨rest, hrest⟩ : d <+: ahead :=
      List.prefix_of_prefix_length_le (List.prefix_append d l')
        (hfifo ▸ List.prefix_append ahead _) hle
    have hmem : t' ∈ t :: ahead := by
      have ht' := List.mem_of_getLast? hlast
      rw [← hrest]
      rcases List.mem_cons.1 ht' with rfl | ht'
      · exact List.mem_cons_self
      · exact List.mem_cons_of_mem _ (List.mem_append_left _ ht')
    rw [← List.cons_append] at hnodup
    exact (List.nodup_append.1 hnodup).2.2 t' hmem t' List.mem_cons_self rfl
  · intro hlength
    have hd : d = ahead ++ [x] := by
      have htake := congrArg (List.take (ahead.length + 1)) hfifo
      rwa [← hlength, List.take_left' rfl, hlength, List.take_append, List.take_of_length_le
        (by omega), Nat.add_sub_cancel_left, List.cons_append, List.take_succ_cons,
        List.take_zero] at htake
    rw [hd, ← List.cons_append, List.getLast?_concat] at hlast
    exact (Option.some.inj hlast).symm

/-- The current thread is outside the run queue. -/
theorem Taking.nodup (h : s.Taking t l) : (t :: l).Nodup :=
  List.nodup_cons.2 ⟨(h.sched.current t h.current).2.2, h.sched.queue.nodup⟩

/-- When every thread had its turn, the threads wait as they did. -/
theorem run_around {ops : List TurnOp} (hrun : Run Step s ops s')
    (hops : ∀ o ∈ ops, o.OfCurrent) (h : s.Taking t l) (hl : l ≠ []) {d : List ThreadRef}
    (hd : s'.dispatched = s.dispatched ++ d) (hlength : d.length = l.length + 1) :
    d = l ++ [t] ∧ s'.Taking t l := by
  obtain ⟨d₁, t', l', htaking, hd₁, hrotate⟩ := run_rotated hrun hops h hl
  obtain ⟨d₂, t₂, l₂, htaking₂, -, hd₂, ⟨joined, hfifo⟩, hlast⟩ := run_turnsTaken hrun h hl
  obtain rfl : d₁ = d := List.append_cancel_left (hd₁.symm.trans hd)
  obtain rfl : d₂ = d₁ := List.append_cancel_left (hd₂.symm.trans hd)
  rw [hlength, ← List.length_cons (a := t), List.rotate_length] at hrotate
  obtain ⟨rfl, rfl⟩ := List.cons.inj hrotate
  obtain rfl : t₂ = t' := Option.some.inj (htaking₂.current.symm.trans htaking.current)
  -- the first dispatches took the threads that waited, so one more is left
  obtain ⟨rest, hrest⟩ : l' <+: d₂ :=
    List.prefix_of_prefix_length_le (hfifo ▸ List.prefix_append l' joined)
      (List.prefix_append d₂ l₂) (by omega)
  rw [← hrest, List.length_append, Nat.add_left_cancel_iff] at hlength
  obtain ⟨a, rfl⟩ := List.length_eq_one_iff.1 hlength
  rw [← hrest, ← List.cons_append, List.getLast?_concat] at hlast
  obtain rfl := Option.some.inj hlast
  exact ⟨hrest.symm, htaking⟩

end TurnSystem

open TurnSystem

/-- **Threads take turns.** From a state where `t` is current and the threads of `l` wait,

* when the threads only yield or are preempted, `l.length + 1` dispatches make the waiting threads
  current in their order and then `t`, each once, and the threads wait as they did;
* in every run, a thread with `ahead` before it in the run queue is not current up to as many
  dispatches and is current after one more;
* every dispatch starts a time slice;
* a yield always dispatches, and so does a preemption point once the time slice is used up. -/
theorem round_robin_fair (s : TurnSystem) (t : ThreadRef) (l : List ThreadRef)
    (h : s.Taking t l) (hl : l ≠ []) :
    (∀ ops s', (∀ o ∈ ops, o.OfCurrent) → Run Step s ops s' →
      ∀ d, s'.dispatched = s.dispatched ++ d → d.length = l.length + 1 →
        d = l ++ [t] ∧ (l ++ [t]).Nodup ∧ s'.Taking t l) ∧
    (∀ ops s₁, Run Step s ops s₁ → ∀ ahead x behind,
      s₁.ps.runQueue.Holds (ahead ++ x :: behind) → ∀ ops' s₂, Run Step s₁ ops' s₂ →
        ∃ d, s₂.dispatched = s₁.dispatched ++ d ∧
          (d.length ≤ ahead.length → s₂.ps.currentThread ≠ some x) ∧
          (d.length = ahead.length + 1 → s₂.ps.currentThread = some x)) ∧
    (∀ ops s₁ o s₂, Run Step s ops s₁ → s₁.Step o s₂ →
      s₂.dispatched = s₁.dispatched ∨ ∃ n, s₁.Dispatched n s₂) ∧
    (∀ ops s₁, Run Step s ops s₁ → (∃ n s₂, s₁.Step .yieldThread s₂ ∧ s₁.Dispatched n s₂) ∧
      ∀ u k s₂, s₁.ps.currentThread = some u → 0 < k →
        (s₁.ps.threadPool u).remainingTicks.toNat ≤ k →
          Run Step s₁ (List.replicate k .timerTick) s₂ →
            ∃ n s₃, s₂.Step .preemptionPoint s₃ ∧ s₂.Dispatched n s₃) := by
  refine ⟨fun ops s' hops hrun d hd hlength => ?_, fun ops s₁ hrun ahead x behind hq ops' s₂
    hrun' => ?_, fun ops s₁ o s₂ hrun hstep => ?_, fun ops s₁ hrun => ?_⟩
  · obtain ⟨hall, htaking⟩ := run_around hrun hops h hl hd hlength
    have hperm : (l ++ [t]).Perm (t :: l) := List.perm_append_singleton t l
    exact ⟨hall, hperm.nodup_iff.2 h.nodup, htaking⟩
  · obtain ⟨-, t₁, l₁, htaking₁, hl₁, -, -⟩ := run_turnsTaken hrun h hl
    obtain rfl := htaking₁.sched.queue.unique hq
    obtain ⟨d, t₂, l₂, htaking₂, -, hd, hturns⟩ := run_turnsTaken hrun' htaking₁ hl₁
    obtain ⟨hbefore, hreached⟩ := hturns.reached htaking₁.nodup
    rw [htaking₂.current]
    exact ⟨d, hd, fun hle heq => hbefore hle (Option.some.inj heq),
      fun heq => congrArg some (hreached heq)⟩
  · obtain ⟨-, t₁, l₁, htaking₁, hl₁, -, -⟩ := run_turnsTaken hrun h hl
    cases step_turned htaking₁ hl₁ hstep with
    | same _ hsame => exact .inl hsame
    | dispatch n _ _ _ hdisp => exact .inr ⟨n, hdisp⟩
    | join _ _ _ hsame => exact .inl hsame
  · obtain ⟨-, t₁, l₁, htaking₁, hl₁, -, -⟩ := run_turnsTaken hrun h hl
    refine ⟨htaking₁.yields hl₁, fun u k s₂ hu hk hslice hrun' => ?_⟩
    obtain rfl : t₁ = u := Option.some.inj (htaking₁.current.symm.trans hu)
    obtain ⟨htaking₂, -, hpending⟩ := run_ticks hrun' htaking₁ (.inr ⟨hk, hslice⟩)
    exact htaking₂.preempted hl₁ hpending

/-- One thread runs, another waits, and the rest were just created. -/
def twoThreads : TurnSystem where
  ps := { PsState.zero with
    ready := true
    currentThread := some 0
    runQueueHead := some 1
    runQueueTail := some 1
    threadPool := fun t =>
      { KThread.zero with
        ownerProcess := some 0
        state := if t = 0 then .running else .ready
        timeSliceTicks := psDefaultTimesliceTicks
        remainingTicks := psDefaultTimesliceTicks } }
  fresh t := decide (t ≠ 0 ∧ t ≠ 1)
  dispatched := []

theorem taking_twoThreads : twoThreads.Taking 0 [1] where
  sched := {
    ready := rfl
    queue := ⟨rfl, rfl, List.nodup_singleton 1, rfl, trivial⟩
    queued := fun t ht => by
      obtain rfl := List.mem_singleton.1 ht
      exact ⟨rfl, Option.some_ne_none _⟩
    fresh := fun t ht => by
      obtain ⟨hzero, hone⟩ := of_decide_eq_true ht
      refine ⟨if_neg hzero, Option.some_ne_none _, fun hmem => hone (List.mem_singleton.1 hmem),
        fun hcur => ?_⟩
      exact hzero (Option.some.inj hcur).symm
    blocked := fun t _ => Option.some_ne_none _
    current := fun t ht => by
      obtain rfl : 0 = t := Option.some.inj ht
      exact ⟨rfl, Option.some_ne_none _, by decide⟩ }
  current := rfl

/-- They take one turn each. -/
theorem round_robin_fair_twoThreads : ∃ s',
    Run TurnSystem.Step twoThreads [.yieldThread, .yieldThread] s' ∧
      s'.dispatched = [1, 0] ∧ s'.Taking 0 [1] := by
  have hfair := round_robin_fair twoThreads 0 [1] taking_twoThreads (List.cons_ne_nil 1 [])
  obtain ⟨⟨n₁, s₁, hstep₁, hdisp₁⟩, -⟩ := hfair.2.2.2 [] twoThreads (.nil _)
  obtain ⟨⟨n₂, s₂, hstep₂, hdisp₂⟩, -⟩ := hfair.2.2.2 _ s₁ (.single hstep₁)
  have hrun : Run TurnSystem.Step twoThreads [.yieldThread, .yieldThread] s₂ :=
    .cons hstep₁ (.single hstep₂)
  have hd : s₂.dispatched = twoThreads.dispatched ++ [n₁, n₂] := by
    rw [hdisp₂.dispatched, hdisp₁.dispatched]
    rfl
  obtain ⟨hturns, -, htaking⟩ := hfair.1 _ s₂ (by simp [TurnOp.OfCurrent]) hrun _ hd rfl
  exact ⟨s₂, hrun, hd.trans hturns, htaking⟩

end NtxKernel.Ps
