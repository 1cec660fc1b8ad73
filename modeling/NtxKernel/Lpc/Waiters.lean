import NtxKernel.Foundations.Run
import NtxKernel.Lpc.WaitLists

/-!
# Waiting receivers

Threads receiving with `Wait` set, sending, closing handles and being scheduled, where a call runs
to its end in one step: `LpcReceiveByHandle` blocks through `PsBlockCurrentThread`, which never
leaves the code that calls it.

* `WaitersOk` is what the wait lists are for: the lists are lists, a thread is blocked exactly when
  it is in one of them, and messages do not lie next to sleeping receivers.
* `Admissible` is the condition on a call under which this is so: a receiver waits only with the
  run queue empty, and the last handle of a port is closed only with no one waiting.
* `waiters_ok_iff`: along every run, the wait lists are good after every call exactly when every
  call meets the condition.
-/

namespace NtxKernel.Lpc

open Foundations Ob Ps Nk

variable {ρ : Type}

/-- The calls of threads. -/
inductive LpcCall
  | createPort (desiredAccess : U32)
  | send (handleValue : U32) (message : NkMessage)
  | receive (handleValue : U32) (wait : Bool)
  | close (handleValue : U32)
  | yield
  | exit
  | ready (thread : ThreadRef)

/-- The system and two ghost components. -/
structure LpcSystem (ρ : Type) extends System ρ where
  /-- The threads that were created and not readied yet. -/
  fresh : ThreadRef → Bool
  /-- The port whose sender woke the thread, while it has not run since. -/
  wokenBy : ThreadRef → Option LpcPortRef

namespace LpcSystem

/-- The state of the thread `t`. -/
abbrev threadState (s : System ρ) (t : ThreadRef) : PsThreadState :=
  (s.kernel.ps.threadPool t).state

/-- The number of messages in the port `p`. -/
abbrev messages (s : System ρ) (p : LpcPortRef) : U32 := (s.kernel.lpc.portPool p).port.count

/-- Replace the scheduler. -/
def withPs (s : System ρ) (ps : PsState) : System ρ :=
  { s with kernel := { s.kernel with ps := ps } }

/-- The system after a call. -/
def call (s : LpcSystem ρ) : LpcCall → Option (System ρ)
  | .createPort desiredAccess => some (lpcCreatePortHandle s.toSystem desiredAccess).1
  | .send handleValue message => (lpcSendByHandle s.toSystem handleValue message).map Prod.fst
  | .receive handleValue wait => (lpcReceiveByHandle s.toSystem handleValue wait).map Prod.fst
  | .close handleValue => some (lpcCloseHandle s.toSystem handleValue).1
  | .yield => (psYieldThread s.kernel.ps).map fun r => withPs s.toSystem r.1
  | .exit => (psExitCurrentThread s.kernel.ps).map fun r => withPs s.toSystem r.1
  | .ready t =>
    if s.fresh t = false then none
    else (psReadyThread s.kernel.ps t).map fun r => withPs s.toSystem r.1

/-- The threads still fresh after a call. -/
def freshAfter (s : LpcSystem ρ) : LpcCall → ThreadRef → Bool
  | .ready t => Function.update s.fresh t false
  | _ => s.fresh

/-- The port a call sends to. -/
def sendTarget (s : LpcSystem ρ) : LpcCall → Option LpcPortRef
  | .send handleValue _ =>
    match (lpcpReferencePortByHandle s.toSystem handleValue lpcPortAccessSend).2 with
    | .ok (_, p) => some p
    | .error _ => none
  | _ => none

/-- Perform a call and record what becomes of the ghosts: a blocked thread that is ready now was
woken by the sender, and one that runs or blocks is no longer waiting to run. -/
def perform (s : LpcSystem ρ) (c : LpcCall) : Option (LpcSystem ρ) :=
  (s.call c).map fun s' =>
    { toSystem := s'
      fresh := s.freshAfter c
      wokenBy := fun t =>
        if threadState s' t ≠ .ready then none
        else if threadState s.toSystem t = .blocked then s.sendTarget c
        else s.wokenBy t }

/-- One call, as a relation. -/
def Step (s : LpcSystem ρ) (c : LpcCall) (s' : LpcSystem ρ) : Prop := s.perform c = some s'

end LpcSystem

open LpcSystem

/-- The wait lists of the ports in use are `lists`. -/
structure WaitersOk (s : LpcSystem ρ) (lists : LpcPortRef → List ThreadRef) : Prop where
  /-- A list is finite, without repetition, and ends at `WaitTail`. -/
  holds : ∀ p, s.kernel.lpc.portInUse p = true → (s.kernel.waitQueue p).Holds (lists p)
  /-- No thread is in two lists. -/
  disjoint : ∀ p q t, s.kernel.lpc.portInUse p = true → s.kernel.lpc.portInUse q = true →
    t ∈ lists p → t ∈ lists q → p = q
  blocked_iff : ∀ t, threadState s.toSystem t = .blocked ↔
    ∃! p, s.kernel.lpc.portInUse p = true ∧ t ∈ lists p
  /-- With a receiver asleep and messages queued, as many woken receivers are still to run. -/
  woken : ∀ p, s.kernel.lpc.portInUse p = true → lists p ≠ [] → messages s.toSystem p ≠ 0 →
    (messages s.toSystem p).toNat ≤ countCells (· == some p) s.wokenBy

/-- A receiver on this handle finds its port empty. -/
def FindsNothing (s : System ρ) (handleValue : U32) : Prop :=
  ∃ header p, (lpcpReferencePortByHandle s handleValue lpcPortAccessRecv).2 = .ok (header, p) ∧
    messages s p = 0

/-- The condition on a call. -/
def Admissible (s : System ρ) : LpcCall → Prop
  | .receive handleValue wait =>
    wait = true → FindsNothing s handleValue →
      s.kernel.ps.currentThread = none ∨ s.kernel.ps.runQueueHead = none
  | .close handleValue =>
    handleValue ≠ 0 → ∀ i e p, obpFindHandleEntry s.ob.kernelHandleTable handleValue = some (i, e) →
      (s.ob.objectPool e.object).refCount = 1 →
        lpcpFindPortByHeader s.kernel.lpc e.object = some p →
          (s.kernel.lpc.portPool p).waitHead = none
  | _ => True

/-! ## The invariant -/

/-- The wait lists when at most one thread waits. -/
def waitLists (w : Option (LpcPortRef × ThreadRef)) (p : LpcPortRef) : List ThreadRef :=
  match w with
  | some (q, t) => if p = q then [t] else []
  | none => []

/-- At most one thread waits: `w` says which and where. Its port has no message. -/
structure Waiting (k : Kernel ρ) (w : Option (LpcPortRef × ThreadRef)) : Prop where
  holds : ∀ p, k.lpc.portInUse p = true → (k.waitQueue p).Holds (waitLists w p)
  blocked_iff : ∀ t, (k.ps.threadPool t).state = .blocked ↔ ∃ p, w = some (p, t)
  inUse : ∀ p t, w = some (p, t) → k.lpc.portInUse p = true
  empty : ∀ p t, w = some (p, t) → (k.lpc.portPool p).port.count = 0

/-- The invariant of the runs whose calls are admissible: a thread that waits leaves no thread
current. -/
structure LpcOk (s : System ρ) (fresh : ThreadRef → Bool) (portType : TypeRef)
    (l : List ThreadRef) (w : Option (LpcPortRef × ThreadRef)) : Prop where
  sched : SchedOk s.kernel.ps fresh l
  counted : Counted s.ob
  links : PortLinks s portType
  waiting : Waiting s.kernel w
  current : w ≠ none → s.kernel.ps.currentThread = none

/-- The lists of one waiting thread are good. -/
theorem Waiting.waitersOk {s : LpcSystem ρ} {w : Option (LpcPortRef × ThreadRef)}
    (h : Waiting s.kernel w) : WaitersOk s (waitLists w) where
  holds := h.holds
  disjoint p q t _ _ hp hq := by
    rcases w with _ | ⟨r, u⟩
    · cases hp
    · simp only [waitLists] at hp hq
      split at hp
      next hpr =>
        split at hq
        next hqr => rw [hpr, hqr]
        · cases hq
      · cases hp
  blocked_iff t := by
    rw [h.blocked_iff]
    constructor
    · rintro ⟨p, rfl⟩
      refine ⟨p, ⟨h.inUse p t rfl, by simp [waitLists]⟩, fun q hq => ?_⟩
      have hmem := hq.2
      simp only [waitLists] at hmem
      split at hmem
      next heq => exact heq
      · cases hmem
    · rintro ⟨p, ⟨-, hmem⟩, -⟩
      rcases w with _ | ⟨q, u⟩
      · cases hmem
      · simp only [waitLists] at hmem
        split at hmem
        next => exact ⟨q, by rw [List.mem_singleton.1 hmem]⟩
        · cases hmem
  woken p _ hne hmsg := by
    rcases w with _ | ⟨q, u⟩
    · exact absurd rfl hne
    · simp only [waitLists] at hne
      split at hne
      next heq =>
        subst heq
        exact absurd (h.empty p u rfl) hmsg
      · exact absurd rfl hne

namespace Waiting

variable {k k' : Kernel ρ} {w : Option (LpcPortRef × ThreadRef)}

/-- The frame: the links, the blocked threads, and the ports in use, each with its wait list or
with an empty one. -/
theorem congr (h : Waiting k w) (hnext : k'.waitNext = k.waitNext)
    (hblocked : ∀ t, (k'.ps.threadPool t).state = .blocked ↔ (k.ps.threadPool t).state = .blocked)
    (hport : ∀ p, k'.lpc.portInUse p = true →
      (k.lpc.portInUse p = true ∧
        (k'.lpc.portPool p).waitHead = (k.lpc.portPool p).waitHead ∧
          (k'.lpc.portPool p).waitTail = (k.lpc.portPool p).waitTail) ∨
      ((∀ t, w ≠ some (p, t)) ∧ (k'.lpc.portPool p).waitHead = none ∧
        (k'.lpc.portPool p).waitTail = none))
    (hkept : ∀ p t, w = some (p, t) → k'.lpc.portInUse p = true ∧
      (k'.lpc.portPool p).port.count = 0) : Waiting k' w where
  holds p hp := by
    rcases hport p hp with ⟨hin, hhead, htail⟩ | ⟨hne, hhead, htail⟩
    · exact (h.holds p hin).congr (fun t _ => congrFun hnext t) hhead htail
    · have hnil : waitLists w p = [] := by
        rcases w with _ | ⟨q, t⟩
        · rfl
        · refine if_neg ?_
          rintro rfl
          exact hne t rfl
      rw [hnil]
      exact .of_head_tail_none hhead htail
  blocked_iff t := by
    rw [hblocked, h.blocked_iff]
  inUse p t hw := (hkept p t hw).1
  empty p t hw := (hkept p t hw).2

/-- Clearing a port in whose wait list nothing is. -/
theorem clearPort (h : Waiting k w) {p : LpcPortRef} (hp : ∀ t, w ≠ some (p, t)) (b : Bool) :
    Waiting (k.clearPort p b) w := by
  refine h.congr rfl (fun _ => Iff.rfl) (fun q hq => ?_) fun q t hw => ?_
  · by_cases hqp : q = p
    · subst hqp
      rw [k.clearPort_self]
      exact .inr ⟨hp, rfl, rfl⟩
    · rw [k.portInUse_clearPort, Function.update_of_ne hqp] at hq
      rw [k.clearPort_of_ne hqp]
      exact .inl ⟨hq, rfl, rfl⟩
  · have hqp : q ≠ p := by
      rintro rfl
      exact hp t hw
    rw [k.portInUse_clearPort, Function.update_of_ne hqp, k.clearPort_of_ne hqp]
    exact ⟨h.inUse q t hw, h.empty q t hw⟩

/-- Dropping a reference, unless it is the last one to the port where a thread waits. -/
theorem dereferenced {s : System ρ} {portType : TypeRef} (h : Waiting s.kernel w)
    (hlinks : PortLinks s portType) {o : ObjectRef}
    (ho : ∀ p t, w = some (p, t) → (s.ob.objectPool o).refCount = 1 →
      lpcpFindPortByHeader s.kernel.lpc o ≠ some p) :
    (obDereferenceObject s.ob s.kernel o).2.1.ps = s.kernel.ps ∧
      Waiting (obDereferenceObject s.ob s.kernel o).2.1 w := by
  rcases hlinks.obDereferenceObject_kernel o with ⟨hps, hlpc, -⟩ | ⟨p, -, hone, hfind, hk⟩
  · refine ⟨hps, h.congr ?_ ?_ ?_ ?_⟩
    · unfold Kernel.waitNext
      rw [hps]
    · intro t
      rw [hps]
    · intro p hp
      rw [hlpc] at hp ⊢
      exact .inl ⟨hp, rfl, rfl⟩
    · intro p t hw
      rw [hlpc]
      exact ⟨h.inUse p t hw, h.empty p t hw⟩
  · rw [hk]
    exact ⟨rfl, h.clearPort (fun t hw => ho p t hw hone hfind) false⟩

/-- Where no thread waits, the wait list is empty. -/
theorem holds_nil (h : Waiting k w) {p : LpcPortRef} (hp : k.lpc.portInUse p = true)
    (hw : ∀ t, w ≠ some (p, t)) : (k.waitQueue p).Holds [] := by
  have hlist := h.holds p hp
  rcases w with _ | ⟨q, t⟩
  · exact hlist
  · rwa [waitLists, if_neg] at hlist
    rintro rfl
    exact hw t rfl

theorem holds_singleton {p : LpcPortRef} {t : ThreadRef} (h : Waiting k (some (p, t))) :
    (k.waitQueue p).Holds [t] := by
  have hlist := h.holds p (h.inUse p t rfl)
  rwa [waitLists, if_pos rfl] at hlist

end Waiting

/-! ## Creating a port -/

namespace LpcOk

variable {s : System ρ} {fresh : ThreadRef → Bool} {portType : TypeRef} {l : List ThreadRef}
  {w : Option (LpcPortRef × ThreadRef)}

theorem createPort (h : LpcOk s fresh portType l w) (desiredAccess : U32) :
    LpcOk (lpcCreatePortHandle s desiredAccess).1 fresh portType l w := by
  rcases lpcCreatePortHandle_cases h.links desiredAccess with
    ⟨-, heq⟩ | ⟨p, hp, -, heq | ⟨ob₁, o, hcreate, hlinks, heq⟩⟩
  · rw [heq]
    exact h
  all_goals
    have hw : ∀ t, w ≠ some (p, t) := by
      rintro t rfl
      cases hp.symm.trans (h.waiting.inUse p t rfl)
  · -- no object: the port stays in use without one
    rw [heq]
    exact ⟨h.sched, h.counted, h.links.clearPort p true, h.waiting.clearPort hw true, h.current⟩
  have hinUse := s.kernel.portInUse_openPort p o
  have hwaiting : Waiting (s.kernel.openPort p o) w := by
    refine h.waiting.congr rfl (fun t => Iff.rfl) (fun q hq => ?_) fun q t hwq => ?_
    · by_cases hqp : q = p
      · subst hqp
        rw [Kernel.openPort_self]
        exact .inr ⟨hw, rfl, rfl⟩
      · rw [hinUse, Function.update_of_ne hqp] at hq
        rw [Kernel.openPort_of_ne _ hqp]
        exact .inl ⟨hq, rfl, rfl⟩
    · have hqp : q ≠ p := by
        rintro rfl
        exact hw t hwq
      rw [hinUse, Function.update_of_ne hqp, Kernel.openPort_of_ne _ hqp]
      exact ⟨h.waiting.inUse q t hwq, h.waiting.empty q t hwq⟩
  -- giving the first reference back can only clear the new port
  have hdrop := hwaiting.dereferenced hlinks (o := o) fun q t hwq _ hfind => by
    obtain ⟨hqin, hqo⟩ := lpcpFindPortByHeader_eq_some hfind
    have hpin : (s.kernel.openPort p o).lpc.portInUse p = true := by
      rw [hinUse, Function.update_self]
    have hself : ((s.kernel.openPort p o).lpc.portPool p).header = some o := by
      rw [Kernel.openPort_self]
    exact hw t (hlinks.header_unique q p o hqin hpin hqo hself ▸ hwq)
  have hps : (s.kernel.openPort p o).ps = s.kernel.ps := rfl
  rw [heq]
  refine ⟨?_, h.counted.create hcreate _, hlinks.dereferenced o, hdrop.2, fun hne => ?_⟩
  · have hsched : SchedOk (obDereferenceObject (obInsertHandle ob₁ o desiredAccess).1
        (s.kernel.openPort p o) o).2.1.ps fresh l := by
      rw [hdrop.1, hps]
      exact h.sched
    exact hsched
  · have hcurrent : (obDereferenceObject (obInsertHandle ob₁ o desiredAccess).1
        (s.kernel.openPort p o) o).2.1.ps.currentThread = none := by
      rw [hdrop.1, hps]
      exact h.current hne
    exact hcurrent

/-! ## Sending -/

/-- A change of the messages of a port where no thread waits. -/
theorem modifyMessages (h : LpcOk s fresh portType l w) {p : LpcPortRef} {port : NkPort}
    (hp : ∀ t, w = some (p, t) → port.count = 0) :
    LpcOk ⟨s.ob, s.kernel.modifyPort p fun o => { o with port := port }⟩ fresh portType l w := by
  have hagree : AgreeUpToQueues s.kernel
      (s.kernel.modifyPort p fun o => { o with port := port }) :=
    .modifyPort _ p fun _ => rfl
  refine ⟨hagree.schedOk h.sched, h.counted, h.links.congr hagree.ports, ?_, h.current⟩
  refine h.waiting.congr rfl (fun _ => Iff.rfl) (fun q hq => .inl ⟨hq, ?_⟩) fun q t hw => ?_
  · by_cases hqp : q = p
    · rw [hqp, Kernel.modifyPort_self]
      exact ⟨rfl, rfl⟩
    · rw [Kernel.modifyPort_of_ne _ hqp]
      exact ⟨rfl, rfl⟩
  · refine ⟨h.waiting.inUse q t hw, ?_⟩
    by_cases hqp : q = p
    · subst hqp
      rw [Kernel.modifyPort_self]
      exact hp t hw
    · rw [Kernel.modifyPort_of_ne _ hqp]
      exact h.waiting.empty q t hw

/-- Waking the thread that waits. -/
theorem wake {p : LpcPortRef} {t : ThreadRef} (h : LpcOk s fresh portType l (some (p, t)))
    {k : Kernel ρ} (hk : Dequeued s.kernel k p) :
    ∃ ps, psWakeThread k.ps t = some ps ∧
      LpcOk ⟨s.ob, { k with ps := ps }⟩ fresh portType (l ++ [t]) none := by
  have hsched := hk.agree.schedOk h.sched
  have hblocked : (k.ps.threadPool t).state = .blocked := by
    rw [hk.agree.state]
    exact (h.waiting.blocked_iff t).2 ⟨p, rfl⟩
  have hne : ∀ u, (k.ps.threadPool u).state = .ready → u ≠ t := by
    rintro u hu rfl
    cases hu.symm.trans hblocked
  have hfresh : ∀ u, fresh u = true → fresh u = true ∧ u ≠ t := fun u hu =>
    ⟨hu, hne u (hsched.fresh u hu).1⟩
  obtain ⟨ps, hpush, hsched', hrest⟩ := hsched.enqueue
    (fun hmem => hne t (hsched.queued t hmem).1 rfl)
    (fun hcur => by cases (hsched.current t hcur).1.symm.trans hblocked)
    (hsched.blocked t hblocked) hfresh
  refine ⟨ps, ?_, hsched', h.counted, h.links.congr hk.agree.ports, ⟨?_, ?_, ?_, ?_⟩, ?_⟩
  · rw [psWakeThread, if_neg (by simp [hsched.ready]), if_pos hblocked]
    exact hpush
  · -- every wait list is empty now
    intro q hq
    have hq' : s.kernel.lpc.portInUse q = true := by
      rw [← hk.agree.ports.portInUse]
      exact hq
    have hnil : (k.waitQueue q).Holds [] := by
      by_cases hqp : q = p
      · subst hqp
        rw [hk.waitQueue]
        exact h.waiting.holds_singleton.pop_cons.2
      · have hempty := h.waiting.holds_nil hq' fun u heq =>
          hqp (congrArg Prod.fst (Option.some.inj heq)).symm
        refine .of_head_tail_none ?_ ?_
        · rw [Kernel.waitQueue, hk.other q hqp]
          exact hempty.head_eq
        · rw [Kernel.waitQueue, hk.other q hqp]
          exact hempty.tail_eq
    exact .of_head_tail_none hnil.head_eq hnil.tail_eq
  · intro u
    have hstate := unlinked_state hrest u
    simp only [reduceCtorEq, exists_false, iff_false, hstate]
    by_cases hu : u = t
    · rw [hu, PsState.setState, PsState.modifyThread_self]
      exact PsThreadState.noConfusion
    · rw [PsState.setState, PsState.modifyThread_of_ne _ hu, hk.agree.state, h.waiting.blocked_iff]
      rintro ⟨q, heq⟩
      exact hu (congrArg Prod.snd (Option.some.inj heq)).symm
  · exact fun q u heq => by cases heq
  · exact fun q u heq => by cases heq
  · exact fun hne' => absurd rfl hne'

theorem send (h : LpcOk s fresh portType l w) (handleValue : U32) (message : NkMessage) :
    ∃ r, lpcSendByHandle s handleValue message = some r ∧
      ∃ l' w', LpcOk r.1 fresh portType l' w' := by
  rw [lpcSendByHandle]
  by_cases hready : s.kernel.lpc.ready = false
  · rw [if_pos hready]
    exact ⟨_, rfl, l, w, h⟩
  rw [if_neg hready]
  rcases lpcpReferencePortByHandle_cases s h.counted handleValue lpcPortAccessSend with
    ⟨e, heq⟩ | ⟨ob, header, p, heq, hp, hback⟩
  · rw [heq]
    exact ⟨_, rfl, l, w, h⟩
  rw [heq]
  dsimp only
  rcases nkPortSend (s.kernel.lpc.portPool p).port message with ⟨port, e | _⟩
  · refine ⟨_, rfl, l, w, ?_⟩
    rw [hback]
    exact h
  dsimp only
  -- the messages of the port before its waiter, if any, is taken off the list
  generalize hk₁ : s.kernel.modifyPort p (fun o => { o with port := port }) = k₁
  have hqueue : k₁.waitQueue p = s.kernel.waitQueue p := by
    rw [← hk₁, Kernel.waitQueue, Kernel.modifyPort_self]
    rfl
  by_cases hw : ∃ t, w = some (p, t)
  · obtain ⟨t, rfl⟩ := hw
    obtain ⟨hthread, hdeq⟩ := lpcpDequeueWaiter_spec k₁ p
    rw [hqueue, h.waiting.holds_singleton.pop_cons.1] at hthread
    generalize lpcpDequeueWaiter k₁ p = r at hthread hdeq
    obtain ⟨k₂, waiter⟩ := r
    dsimp only at hthread hdeq
    subst hthread
    have hk₂ : Dequeued s.kernel k₂ p := by
      refine ⟨AgreeUpToQueues.trans ?_ hdeq.agree, hqueue ▸ hdeq.waitQueue, fun q hq => ?_⟩
      · rw [← hk₁]
        exact .modifyPort _ p fun _ => rfl
      · rw [hdeq.other q hq, ← hk₁, Kernel.modifyPort_of_ne _ hq]
    obtain ⟨ps, hwake, hok⟩ := h.wake hk₂
    refine ⟨(⟨s.ob, { k₂ with ps := ps }⟩, .ok ()), ?_, _, _, hok⟩
    dsimp only
    rw [hwake, Option.map_some, hback]
  · have hnil : (k₁.waitQueue p).Holds [] := by
      rw [hqueue]
      exact h.waiting.holds_nil hp fun t heq => hw ⟨t, heq⟩
    rw [lpcpDequeueWaiter_nil hnil]
    refine ⟨(⟨s.ob, k₁⟩, .ok ()), ?_, l, w, ?_⟩
    · dsimp only
      rw [hback]
    · rw [← hk₁]
      exact h.modifyMessages fun t heq => absurd ⟨t, heq⟩ hw

end LpcOk

/-! ## Receiving -/

/-- A turn of the loop that finds the port empty: the thread joins the wait list and the current
thread blocks. -/
theorem lpcReceiveLoop_turn {s : System ρ} (hcounted : Counted s.ob) {handleValue : U32}
    {header : ObjectRef} {p : LpcPortRef}
    (hfind : (lpcpReferencePortByHandle s handleValue lpcPortAccessRecv).2 = .ok (header, p))
    (hempty : messages s p = 0) (c : ThreadRef) (fuel : ℕ) :
    lpcReceiveLoop c handleValue true (fuel + 1) s =
      match psBlockCurrentThread (lpcpEnqueueWaiter s.kernel p c).ps with
      | none => none
      | some (ps, .failed e) =>
        some (⟨s.ob, { lpcpEnqueueWaiter s.kernel p c with ps := ps }⟩, .error e)
      | some (ps, _) =>
        lpcReceiveLoop c handleValue true fuel
          ⟨s.ob, { lpcpEnqueueWaiter s.kernel p c with ps := ps }⟩ := by
  rcases lpcpReferencePortByHandle_cases s hcounted handleValue lpcPortAccessRecv with
    ⟨e, heq⟩ | ⟨ob, header', p', heq, -, hback⟩
  · rw [heq] at hfind
    cases hfind
  rw [heq] at hfind
  cases hfind
  have hnone : nkPortReceive (s.kernel.lpc.portPool p).port =
      ((s.kernel.lpc.portPool p).port, .error .initFailed) := by
    rw [nkPortReceive]
    exact if_pos hempty
  rw [lpcReceiveLoop, heq]
  dsimp only
  rw [hnone]
  dsimp only
  rw [if_neg Bool.true_eq_false_eq_False]
  exact hback _ ▸ rfl

/-- A receiver keeps finding its port empty, and some thread is current. -/
structure Retrying (s : System ρ) (fresh : ThreadRef → Bool) (l : List ThreadRef)
    (handleValue : U32) (p : LpcPortRef) : Prop where
  sched : SchedOk s.kernel.ps fresh l
  current : s.kernel.ps.currentThread ≠ none
  counted : Counted s.ob
  finds : ∃ header, (lpcpReferencePortByHandle s handleValue lpcPortAccessRecv).2 =
    .ok (header, p)
  inUse : s.kernel.lpc.portInUse p = true
  empty : messages s p = 0

/-- A port whose wait list starts with a thread that is linked to itself. -/
def Tangled (k : Kernel ρ) (p : LpcPortRef) (c : ThreadRef) : Prop :=
  k.lpc.portInUse p = true ∧ (k.waitQueue p).head = some c ∧ (k.waitQueue p).next c = some c

namespace Retrying

variable {s : System ρ} {fresh : ThreadRef → Bool} {l : List ThreadRef}
  {handleValue : U32} {p : LpcPortRef} {c n : ThreadRef}

/-- A turn with the run queue empty ends the loop. -/
theorem turn_nil (h : Retrying s fresh [] handleValue p) (c : ThreadRef) (fuel : ℕ) :
    ∃ t ps, s.kernel.ps.currentThread = some t ∧
      ps = ((lpcpEnqueueWaiter s.kernel p c).ps.setState t .blocked).clearCurrentThread ∧
      lpcReceiveLoop c handleValue true (fuel + 1) s =
        some (⟨s.ob, { lpcpEnqueueWaiter s.kernel p c with ps := ps }⟩, .error .initFailed) := by
  obtain ⟨header, hfind⟩ := h.finds
  obtain ⟨t, ht⟩ := Option.ne_none_iff_exists'.1 h.current
  have henq := lpcpEnqueueWaiter_spec s.kernel p c
  refine ⟨t, _, ht, rfl, ?_⟩
  rw [lpcReceiveLoop_turn h.counted hfind h.empty, psBlockCurrentThread,
    (henq.agree.schedOk h.sched).psReleaseCurrentThread_nil (henq.agree.currentThread.trans ht)]

/-- A turn with a thread to run makes it current and goes on. -/
theorem turn_cons (h : Retrying s fresh (n :: l) handleValue p) (c : ThreadRef)
    (fuel : ℕ) :
    ∃ k, lpcReceiveLoop c handleValue true (fuel + 1) s =
        lpcReceiveLoop c handleValue true fuel ⟨s.ob, k⟩ ∧
      Retrying ⟨s.ob, k⟩ fresh l handleValue p ∧
        k.waitQueue p = (s.kernel.waitQueue p).push c := by
  obtain ⟨header, hfind⟩ := h.finds
  obtain ⟨t, ht⟩ := Option.ne_none_iff_exists'.1 h.current
  have henq := lpcpEnqueueWaiter_spec s.kernel p c
  obtain ⟨ps, hblock, hsched, hto⟩ := (henq.agree.schedOk h.sched).psReleaseCurrentThread_cons
    (henq.agree.currentThread.trans ht) .blocked
  refine ⟨{ lpcpEnqueueWaiter s.kernel p c with ps := ps }, ?_, ⟨hsched, ?_, h.counted,
    ⟨header, ?_⟩, ?_, ?_⟩, ?_⟩
  · rw [lpcReceiveLoop_turn h.counted hfind h.empty, psBlockCurrentThread, hblock]
  · rw [hto.currentThread]
    exact Option.some_ne_none n
  · rw [← hfind]
    have hports : SamePorts s.kernel.lpc
        ({ lpcpEnqueueWaiter s.kernel p c with ps := ps } : Kernel ρ).lpc := henq.agree.ports
    exact hports.lpcpReferencePortByHandle ..
  · exact henq.agree.ports.portInUse ▸ h.inUse
  · exact (congrArg NkPort.count henq.port).trans h.empty
  · rw [← henq.waitQueue]
    refine Queue.ext (funext fun u => ?_) rfl rfl
    have hnext : (ps.threadPool u).waitQueueNext =
        ((lpcpEnqueueWaiter s.kernel p c).ps.threadPool u).waitQueueNext := by
      rw [hto.waitQueueNext]
      exact setState_waitQueueNext ..
    exact hnext

/-- A thread that retries with itself at the end of the wait list is linked to itself there, and
the loop ends when the run queue is empty. -/
theorem tangled (h : Retrying s fresh l handleValue p)
    (hhead : (s.kernel.waitQueue p).head = some c) (htail : (s.kernel.waitQueue p).tail = some c)
    {fuel : ℕ} (hfuel : l.length < fuel) :
    ∃ r, lpcReceiveLoop c handleValue true fuel s = some r ∧ Tangled r.1.kernel p c := by
  have hpush : ((s.kernel.waitQueue p).push c).head = some c ∧
      ((s.kernel.waitQueue p).push c).tail = some c ∧
        ((s.kernel.waitQueue p).push c).next c = some c := by
    rw [Queue.push, htail]
    exact ⟨hhead, rfl, Function.update_self ..⟩
  obtain ⟨fuel, rfl⟩ := Nat.exists_eq_succ_of_ne_zero (Nat.ne_of_gt (Nat.zero_lt_of_lt hfuel))
  induction l generalizing s fuel with
  | nil =>
    obtain ⟨t, ps, -, hps, hloop⟩ := h.turn_nil c fuel
    have henq := lpcpEnqueueWaiter_spec s.kernel p c
    refine ⟨_, hloop, henq.agree.ports.portInUse ▸ h.inUse, ?_, ?_⟩
    · rw [← hpush.1, ← henq.waitQueue]
      rfl
    · rw [← hpush.2.2, ← henq.waitQueue, hps]
      exact setState_waitQueueNext ..
  | cons n l ih =>
    obtain ⟨k, hloop, hretry, hqueue⟩ := h.turn_cons c fuel
    rw [hloop]
    rw [List.length_cons] at hfuel
    obtain ⟨fuel, rfl⟩ := Nat.exists_eq_succ_of_ne_zero (n := fuel) (by omega)
    refine ih hretry ?_ ?_ ?_ fuel ?_
    · exact hqueue ▸ hpush.1
    · exact hqueue ▸ hpush.2.1
    · rw [hqueue, Queue.push, hpush.2.1]
      exact ⟨hpush.1, rfl, Function.update_self ..⟩
    · omega

end Retrying

namespace LpcOk

variable {s : System ρ} {fresh : ThreadRef → Bool} {portType : TypeRef} {l : List ThreadRef}
  {w : Option (LpcPortRef × ThreadRef)}

/-- A thread that blocks with the run queue empty is the one that waits. -/
theorem block (h : LpcOk s fresh portType [] none) {p : LpcPortRef} {c : ThreadRef}
    (hp : s.kernel.lpc.portInUse p = true) (hempty : messages s p = 0)
    (hcur : s.kernel.ps.currentThread = some c) :
    LpcOk ⟨s.ob, { lpcpEnqueueWaiter s.kernel p c with
        ps := ((lpcpEnqueueWaiter s.kernel p c).ps.setState c .blocked).clearCurrentThread }⟩
      fresh portType [] (some (p, c)) := by
  have henq := lpcpEnqueueWaiter_spec s.kernel p c
  generalize lpcpEnqueueWaiter s.kernel p c = k at henq
  have hsched := henq.agree.schedOk h.sched
  have hnext : ∀ u, (((k.ps.setState c .blocked).clearCurrentThread).threadPool u).waitQueueNext =
      (k.ps.threadPool u).waitQueueNext := fun u => setState_waitQueueNext ..
  refine ⟨hsched.release (henq.agree.currentThread.trans hcur) .blocked, h.counted,
    h.links.congr henq.agree.ports, ⟨?_, ?_, ?_, ?_⟩, fun _ => rfl⟩
  · intro q hq
    have hq' : s.kernel.lpc.portInUse q = true := henq.agree.ports.portInUse ▸ hq
    have hnil := h.waiting.holds_nil hq' fun t heq => by cases heq
    by_cases hqp : q = p
    · subst hqp
      have hpush : (k.waitQueue q).Holds [c] := henq.waitQueue ▸ hnil.push List.not_mem_nil
      rw [waitLists, if_pos rfl]
      exact hpush.congr (fun u _ => hnext u) rfl rfl
    · rw [waitLists, if_neg hqp]
      refine .of_head_tail_none ?_ ?_
      · exact (congrArg LpcPortObject.waitHead (henq.other q hqp)).trans hnil.head_eq
      · exact (congrArg LpcPortObject.waitTail (henq.other q hqp)).trans hnil.tail_eq
  · intro t
    dsimp only [PsState.clearCurrentThread]
    by_cases ht : t = c
    · subst ht
      rw [PsState.setState, PsState.modifyThread_self]
      exact ⟨fun _ => ⟨p, rfl⟩, fun _ => rfl⟩
    · rw [PsState.setState, PsState.modifyThread_of_ne _ ht, henq.agree.state,
        h.waiting.blocked_iff]
      refine ⟨?_, ?_⟩
      · rintro ⟨q, heq⟩
        cases heq
      · rintro ⟨q, heq⟩
        exact absurd (congrArg Prod.snd (Option.some.inj heq)).symm ht
  · intro q t heq
    cases heq
    exact henq.agree.ports.portInUse ▸ hp
  · intro q t heq
    cases heq
    exact (congrArg NkPort.count henq.port).trans hempty

/-- A receive returns. A receiver waits in good order exactly when the run queue is empty; with
a thread to run it links itself to itself. -/
theorem receive (h : LpcOk s fresh portType l w) (handleValue : U32) (wait : Bool) :
    ∃ r, lpcReceiveByHandle s handleValue wait = some r ∧
      (Admissible s (.receive handleValue wait) → ∃ l' w', LpcOk r.1 fresh portType l' w') ∧
        (¬Admissible s (.receive handleValue wait) → ∃ p c, Tangled r.1.kernel p c) := by
  have hlpc : ¬s.kernel.lpc.ready = false := by
    rw [h.links.ready]
    exact Bool.noConfusion
  rw [lpcReceiveByHandle, if_neg hlpc]
  rcases hcur : s.kernel.ps.currentThread with _ | c
  · exact ⟨_, rfl, fun _ => ⟨l, w, h⟩, fun hnot => absurd (fun _ _ => .inl hcur) hnot⟩
  obtain rfl : w = none := by
    by_contra hw
    cases hcur.symm.trans (h.current hw)
  dsimp only
  rcases lpcpReferencePortByHandle_cases s h.counted handleValue lpcPortAccessRecv with
    ⟨e, heq⟩ | ⟨ob, header, p, heq, hp, hback⟩
  · refine ⟨(s, .error e), ?_, fun _ => ⟨l, none, h⟩, fun hnot => absurd ?_ hnot⟩
    · rw [lpcReceiveLoop, heq]
    · rintro - ⟨header, p, hok, -⟩
      rw [heq] at hok
      cases hok
  by_cases hempty : (s.kernel.lpc.portPool p).port.count = 0
  · cases hwait : wait
    · refine ⟨(s, .error .wouldBlock), ?_, fun _ => ⟨l, none, h⟩, fun hnot => absurd ?_ hnot⟩
      · rw [lpcReceiveLoop, heq]
        dsimp only
        rw [nkPortReceive, if_pos hempty]
        dsimp only
        rw [if_pos rfl, hback]
      · exact fun hwait' => by cases hwait'
    have hretry : Retrying s fresh l handleValue p :=
      ⟨h.sched, hcur ▸ Option.some_ne_none c, h.counted, ⟨header, by rw [heq]⟩, hp, hempty⟩
    have hfinds : FindsNothing s handleValue := ⟨header, p, by rw [heq], hempty⟩
    cases l with
    | nil =>
      obtain ⟨t, ps, ht, rfl, hloop⟩ := hretry.turn_nil c psMaxThreads
      obtain rfl := Option.some.inj (hcur.symm.trans ht)
      refine ⟨_, hloop, fun _ => ⟨[], _, h.block hp hempty hcur⟩, fun hnot => absurd ?_ hnot⟩
      exact fun _ _ => .inr h.sched.queue.head_eq
    | cons n l =>
      obtain ⟨k, hloop, hretry', hqueue⟩ := hretry.turn_cons c psMaxThreads
      have hnil := h.waiting.holds_nil hp fun t ht => by cases ht
      have htail : (s.kernel.waitQueue p).tail = none := hnil.tail_eq
      have hlen : l.length < psMaxThreads := by
        have hcard := h.sched.queue.nodup.length_le_card
        rw [Fintype.card_fin, List.length_cons] at hcard
        omega
      obtain ⟨r, hr, htangled⟩ := hretry'.tangled (c := c) (by rw [hqueue, Queue.push, htail])
        (by rw [hqueue, Queue.push, htail]) hlen
      refine ⟨r, hloop.trans hr, fun hadm => ?_, fun _ => ⟨p, c, htangled⟩⟩
      rcases hadm rfl hfinds with hnone | hhead
      · cases hcur.symm.trans hnone
      · cases hhead.symm.trans h.sched.queue.head_eq
  · have hreceive : ∃ port message,
        nkPortReceive (s.kernel.lpc.portPool p).port = (port, .ok message) := by
      rw [nkPortReceive, if_neg hempty]
      exact ⟨_, _, rfl⟩
    obtain ⟨port, message, hreceive⟩ := hreceive
    refine ⟨(⟨s.ob, s.kernel.modifyPort p fun o => { o with port := port }⟩, .ok message), ?_,
      fun _ => ⟨l, none, h.modifyMessages fun t ht => by cases ht⟩, fun hnot => absurd ?_ hnot⟩
    · rw [lpcReceiveLoop, heq]
      dsimp only
      rw [hreceive]
      dsimp only
      rw [hback]
    · rintro - ⟨header', p', hok, hzero⟩
      rw [heq] at hok
      cases hok
      exact absurd hzero hempty

/-! ## Closing a handle -/

/-- Closing a handle where the condition is met. -/
theorem close (h : LpcOk s fresh portType l w) {handleValue : U32}
    (hadm : Admissible s (.close handleValue)) :
    LpcOk (lpcCloseHandle s handleValue).1 fresh portType l w := by
  by_cases hv : handleValue = 0
  · rw [lpcCloseHandle, if_pos hv]
    exact h
  have hcounted := h.counted.obCloseHandle s.kernel handleValue
  rcases obCloseHandle_cases s.ob s.kernel handleValue with ⟨e, heq⟩ | ⟨i, e, hfind, heq⟩
  · rw [lpcCloseHandle, if_neg hv, heq]
    exact h
  have hlinks := h.links.dereferenced e.object
  have hdrop := h.waiting.dereferenced h.links (o := e.object) fun p t hw hone hport => by
    subst hw
    have hnil := hadm hv i e p hfind hone hport
    cases hnil.symm.trans h.waiting.holds_singleton.head_eq
  rw [lpcCloseHandle, if_neg hv]
  rw [heq] at hcounted ⊢
  generalize obDereferenceObject s.ob s.kernel e.object = r at hcounted hlinks hdrop
  obtain ⟨ob, k, status⟩ := r
  obtain ⟨hps, hwaiting⟩ := hdrop
  dsimp only at hps hwaiting hlinks
  refine ⟨?_, hcounted, ?_, hwaiting, fun hne => ?_⟩
  · dsimp only
    rw [hps]
    exact h.sched
  · exact ⟨hlinks.ready, hlinks.portType_eq, hlinks.deleteRoutine_eq, hlinks.other_routines,
      hlinks.header_live, hlinks.header_unique⟩
  · dsimp only
    rw [hps]
    exact h.current hne

/-- Where it is not met, the port is gone and the thread that waits there is in no list. -/
theorem not_waitersOk_close (h : LpcOk s fresh portType l w) {handleValue : U32}
    (hadm : ¬Admissible s (.close handleValue)) {x : LpcSystem ρ}
    (hx : x.toSystem = (lpcCloseHandle s handleValue).1) {lists : LpcPortRef → List ThreadRef} :
    ¬WaitersOk x lists := by
  intro hok
  simp only [Admissible, not_forall] at hadm
  obtain ⟨hv, i, e, p, hfind, hone, hport, hhead⟩ := hadm
  obtain ⟨hp, -⟩ := lpcpFindPortByHeader_eq_some hport
  obtain ⟨t, rfl⟩ : ∃ t, w = some (p, t) := by
    by_contra hw
    exact hhead (h.waiting.holds_nil hp fun t ht => hw ⟨t, ht⟩).head_eq
  have hready : s.ob.ready = true := by
    obtain ⟨_, _, _, _, hlife, -⟩ := h.counted
    exact hlife.ready
  have hk : x.kernel = s.kernel.clearPort p false := by
    rw [hx, lpcCloseHandle, if_neg hv, obCloseHandle_of_find hready hv hfind]
    rcases h.links.obDereferenceObject_kernel e.object with ⟨-, -, hnone⟩ | ⟨q, -, -, hq, hk⟩
    · cases (hnone hone hready).symm.trans hport
    · cases hq.symm.trans hport
      exact hk
  have hblocked : threadState x.toSystem t = .blocked := by
    have hstate := (h.waiting.blocked_iff t).2 ⟨p, rfl⟩
    rw [threadState, hk]
    exact hstate
  obtain ⟨q, ⟨hq, hmem⟩, -⟩ := (hok.blocked_iff t).1 hblocked
  have hholds := hok.holds q hq
  rw [hk] at hholds hq
  have hqp : q ≠ p := by
    rintro rfl
    rw [s.kernel.portInUse_clearPort, Function.update_self] at hq
    cases hq
  rw [s.kernel.portInUse_clearPort, Function.update_of_ne hqp] at hq
  have hnil : ((s.kernel.clearPort p false).waitQueue q).Holds [] := by
    have hnil := h.waiting.holds_nil hq fun u hu =>
      hqp (congrArg Prod.fst (Option.some.inj hu)).symm
    refine .of_head_tail_none ?_ ?_
    · rw [Kernel.waitQueue, Kernel.clearPort_of_ne _ hqp]
      exact hnil.head_eq
    · rw [Kernel.waitQueue, Kernel.clearPort_of_ne _ hqp]
      exact hnil.tail_eq
  rw [hholds.unique hnil] at hmem
  cases hmem

/-! ## Scheduling -/

/-- A change of the scheduler that blocks and unblocks no thread. -/
theorem reschedule (h : LpcOk s fresh portType l w) {ps : PsState} {fresh' : ThreadRef → Bool}
    {l' : List ThreadRef} (hsched : SchedOk ps fresh' l')
    (hnext : ∀ t, (ps.threadPool t).waitQueueNext = (s.kernel.ps.threadPool t).waitQueueNext)
    (hblocked : ∀ t, (ps.threadPool t).state = .blocked ↔
      (s.kernel.ps.threadPool t).state = .blocked)
    (hcurrent : w ≠ none → ps.currentThread = none) :
    LpcOk (withPs s ps) fresh' portType l' w where
  sched := hsched
  counted := h.counted
  links := h.links.congr ⟨rfl, rfl, rfl, fun _ => rfl⟩
  waiting := h.waiting.congr (funext hnext) hblocked (fun _ hp => .inl ⟨hp, rfl, rfl⟩)
    fun p t hw => ⟨h.waiting.inUse p t hw, h.waiting.empty p t hw⟩
  current := hcurrent

theorem yield (h : LpcOk s fresh portType l w) :
    ∃ r, psYieldThread s.kernel.ps = some r ∧
      ∃ l', LpcOk (withPs s r.1) fresh portType l' w := by
  rcases hcur : s.kernel.ps.currentThread with _ | c
  · refine ⟨(s.kernel.ps, .failed .invalidParameter), ?_, l, h⟩
    rw [psYieldThread, hcur]
  obtain rfl : w = none := by
    by_contra hw
    cases hcur.symm.trans (h.current hw)
  rw [h.sched.psYieldThread_eq hcur]
  have hsched : SchedOk { s.kernel.ps with reschedulePending := false } fresh l :=
    h.sched.congr rfl rfl rfl fun _ => ⟨rfl, rfl⟩
  cases l with
  | nil =>
    exact ⟨_, psDispatch_nil hsched.ready hsched.queue, [],
      h.reschedule hsched (fun _ => rfl) (fun _ => Iff.rfl) fun hne => absurd rfl hne⟩
  | cons n l =>
    obtain ⟨ps, hdisp, hsched', hto⟩ := hsched.dispatch
    have hn : (s.kernel.ps.threadPool n).state ≠ .blocked := by
      rw [(h.sched.queued n List.mem_cons_self).1]
      exact PsThreadState.noConfusion
    exact ⟨_, hdisp, _, h.reschedule hsched' hto.waitQueueNext (hto.blocked_iff hn) fun hne =>
      absurd rfl hne⟩

theorem exit (h : LpcOk s fresh portType l w) :
    ∃ r, psExitCurrentThread s.kernel.ps = some r ∧
      ∃ l', LpcOk (withPs s r.1) fresh portType l' w := by
  rw [psExitCurrentThread]
  rcases hcur : s.kernel.ps.currentThread with _ | c
  · refine ⟨(s.kernel.ps, .failed .invalidParameter), ?_, l, h⟩
    rw [psReleaseCurrentThread, hcur]
  obtain rfl : w = none := by
    by_contra hw
    cases hcur.symm.trans (h.current hw)
  have hnext : ∀ t, ((s.kernel.ps.setState c .dead).clearCurrentThread.threadPool t).waitQueueNext
      = (s.kernel.ps.threadPool t).waitQueueNext := fun t => setState_waitQueueNext ..
  have hblocked : ∀ t, ((s.kernel.ps.setState c .dead).clearCurrentThread.threadPool t).state =
      .blocked ↔ (s.kernel.ps.threadPool t).state = .blocked := by
    intro t
    dsimp only [PsState.clearCurrentThread]
    by_cases ht : t = c
    · rw [ht, PsState.setState, PsState.modifyThread_self, (h.sched.current c hcur).1]
      exact iff_of_false PsThreadState.noConfusion PsThreadState.noConfusion
    · rw [PsState.setState, PsState.modifyThread_of_ne _ ht]
  cases l with
  | nil =>
    exact ⟨_, h.sched.psReleaseCurrentThread_nil hcur .dead, [],
      h.reschedule (h.sched.release hcur .dead) hnext hblocked fun _ => rfl⟩
  | cons n l =>
    obtain ⟨ps, hrelease, hsched, hto⟩ := h.sched.psReleaseCurrentThread_cons hcur .dead
    have hn : ((s.kernel.ps.setState c .dead).clearCurrentThread.threadPool n).state ≠
        .blocked := by
      rw [Ne, hblocked, (h.sched.queued n List.mem_cons_self).1]
      exact PsThreadState.noConfusion
    exact ⟨_, hrelease, l, h.reschedule hsched
      (fun t => (hto.waitQueueNext t).trans (hnext t))
      (fun t => (hto.blocked_iff hn t).trans (hblocked t)) fun hne => absurd rfl hne⟩

theorem readyThread (h : LpcOk s fresh portType l w) {t : ThreadRef} (ht : fresh t = true) :
    ∃ r, psReadyThread s.kernel.ps t = some r ∧
      ∃ l', LpcOk (withPs s r.1) (Function.update fresh t false) portType l' w := by
  obtain ⟨hstate, howner, hmem, hcur⟩ := h.sched.fresh t ht
  have hfresh : ∀ u, Function.update fresh t false u = true → fresh u = true ∧ u ≠ t := by
    intro u hu
    have hut : u ≠ t := by
      rintro rfl
      rw [Function.update_self] at hu
      cases hu
    rw [Function.update_of_ne hut] at hu
    exact ⟨hu, hut⟩
  obtain ⟨ps, hpush, hsched, hrest⟩ := h.sched.enqueue hmem hcur howner hfresh
  have hdead : ¬(s.kernel.ps.threadPool t).state = .dead := by
    rw [hstate]
    exact PsThreadState.noConfusion
  rw [psReadyThread, if_neg (by simp [h.sched.ready]), if_neg hdead, hpush]
  refine ⟨(ps, .ok ()), rfl, _, h.reschedule hsched (fun u => ?_) (fun u => ?_) fun hne => ?_⟩
  · exact (unlinked_waitQueueNext hrest u).trans (setState_waitQueueNext ..)
  · dsimp only
    rw [unlinked_state hrest u]
    by_cases hu : u = t
    · rw [hu, PsState.setState, PsState.modifyThread_self, hstate]
    · rw [PsState.setState, PsState.modifyThread_of_ne _ hu]
  · have hsame := unlinked_currentThread hrest
    exact hsame.trans (h.current hne)

/-! ## Runs -/

/-- A call returns, and one that meets the condition keeps the invariant. -/
theorem call {s : LpcSystem ρ} (h : LpcOk s.toSystem s.fresh portType l w) {c : LpcCall}
    (hc : ∀ t, c = .ready t → s.fresh t = true) :
    ∃ s', s.call c = some s' ∧
      (Admissible s.toSystem c → ∃ l' w', LpcOk s' (s.freshAfter c) portType l' w') := by
  cases c with
  | createPort desiredAccess => exact ⟨_, rfl, fun _ => ⟨l, w, h.createPort desiredAccess⟩⟩
  | send handleValue message =>
    obtain ⟨r, hr, hok⟩ := h.send handleValue message
    exact ⟨r.1, by rw [LpcSystem.call, hr]; rfl, fun _ => hok⟩
  | receive handleValue wait =>
    obtain ⟨r, hr, hok, -⟩ := h.receive handleValue wait
    exact ⟨r.1, by rw [LpcSystem.call, hr]; rfl, hok⟩
  | close handleValue => exact ⟨_, rfl, fun hadm => ⟨l, w, h.close hadm⟩⟩
  | yield =>
    obtain ⟨r, hr, l', hok⟩ := h.yield
    exact ⟨_, by rw [LpcSystem.call, hr]; rfl, fun _ => ⟨l', w, hok⟩⟩
  | exit =>
    obtain ⟨r, hr, l', hok⟩ := h.exit
    exact ⟨_, by rw [LpcSystem.call, hr]; rfl, fun _ => ⟨l', w, hok⟩⟩
  | ready t =>
    have ht := hc t rfl
    obtain ⟨r, hr, l', hok⟩ := h.readyThread ht
    refine ⟨_, ?_, fun _ => ⟨l', w, hok⟩⟩
    rw [LpcSystem.call, if_neg (by simp [ht]), hr]
    rfl

/-- A call that does not meet the condition leaves no good wait lists. -/
theorem not_waitersOk_call {s : LpcSystem ρ} (h : LpcOk s.toSystem s.fresh portType l w) {c : LpcCall}
    (hadm : ¬Admissible s.toSystem c) {x : LpcSystem ρ} (hx : s.call c = some x.toSystem)
    {lists : LpcPortRef → List ThreadRef} : ¬WaitersOk x lists := by
  cases c with
  | receive handleValue wait =>
    obtain ⟨r, hr, -, htangled⟩ := h.receive handleValue wait
    obtain ⟨p, c, hp, hhead, hloop⟩ := htangled hadm
    rw [LpcSystem.call, hr] at hx
    have hkernel : r.1.kernel = x.kernel := congrArg System.kernel (Option.some.inj hx)
    rw [hkernel] at hp hhead hloop
    exact fun hok => (hok.holds p hp).false_of_self_loop hhead hloop
  | close handleValue => exact h.not_waitersOk_close hadm (Option.some.inj hx).symm
  | _ => exact absurd trivial hadm

end LpcOk

/-- Nobody waits yet, and everything is in order. -/
def Quiet (s : LpcSystem ρ) : Prop :=
  ∃ portType l, LpcOk s.toSystem s.fresh portType l none

theorem LpcSystem.ready_of_call {s : LpcSystem ρ} {c : LpcCall} {s' : System ρ}
    (h : s.call c = some s') (t : ThreadRef) (hc : c = .ready t) : s.fresh t = true := by
  subst hc
  rw [LpcSystem.call] at h
  split at h
  · cases h
  next ht => simpa using ht

/-- Along every run, the wait lists are good after every call exactly when every call meets the
condition. -/
theorem waiters_ok_iff (s : LpcSystem ρ) (hs : Quiet s) (calls : List LpcCall) :
    Always Step (fun s c _ => Admissible s.toSystem c) s calls ↔
      Always Step (fun _ _ s' => ∃ lists, WaitersOk s' lists) s calls := by
  obtain ⟨portType, l, hok⟩ := hs
  -- a step that meets the condition keeps the invariant
  have hkeep : ∀ (s : LpcSystem ρ) c s',
      (∃ l w, LpcOk s.toSystem s.fresh portType l w) → Admissible s.toSystem c → s.Step c s' →
        ∃ l w, LpcOk s'.toSystem s'.fresh portType l w := by
    rintro s c s' ⟨l, w, h⟩ hadm hstep
    obtain ⟨s₁, hcall, rfl⟩ := Option.map_eq_some_iff.1 hstep
    obtain ⟨s₂, hcall', h'⟩ := h.call (ready_of_call hcall)
    obtain rfl := Option.some.inj (hcall.symm.trans hcall')
    exact h' hadm
  refine always_congr hkeep ?_ ⟨l, none, hok⟩ calls
  rintro s c s' ⟨l, w, h⟩ hstep
  constructor
  · intro hadm
    obtain ⟨l', w', h'⟩ := hkeep s c s' ⟨l, w, h⟩ hadm hstep
    exact ⟨_, h'.waiting.waitersOk⟩
  · rintro ⟨lists, hlists⟩
    by_contra hadm
    obtain ⟨s₁, hcall, rfl⟩ := Option.map_eq_some_iff.1 hstep
    exact h.not_waitersOk_call hadm hcall hlists

/-- The managers after `ObInitialize` and `LpcInitialize`, with any scheduler. -/
def LpcSystem.boot (ps : PsState) (rest : ρ) (fresh : ThreadRef → Bool) : LpcSystem ρ where
  toSystem := (lpcInitialize ⟨(obInitialize .zero).1, ⟨ps, .zero, rest⟩⟩).1
  fresh := fresh
  wokenBy _ := none

/-- What `LpcInitialize` leaves behind. -/
theorem boot_spec (ps : PsState) (rest : ρ) (fresh : ThreadRef → Bool) :
    ∃ t, (LpcSystem.boot ps rest fresh).toSystem =
      ⟨{ (obInitialize (σ := Kernel ρ) .zero).1 with
          typeInUse := Function.update (fun _ => false) t true
          typePool := Function.update (fun _ => ⟨0, [], none⟩) t
            ⟨BitVec.ofNat 32 (t + 1),
              obpCopyName (obMaxTypeName + 1) [76, 112, 99, 80, 111, 114, 116],
              some lpcpDeletePortObject⟩ },
        ⟨ps, { LpcState.zero with portType := some t, ready := true }, rest⟩⟩ := by
  have hfree : firstIndex (fun _ : TypeRef => !false) = some 0 :=
    firstIndex_eq_some.2 ⟨rfl, fun j hj => absurd hj (Fin.not_lt_zero j)⟩
  refine ⟨0, ?_⟩
  simp only [LpcSystem.boot, lpcInitialize, obInitialize, ObState.zero, LpcState.zero,
    obCreateType, Bool.false_eq_true, Bool.true_eq_false, if_false, hfree]

/-- No port has been created. -/
def NoPorts (s : System ρ) : Prop :=
  ∃ portType, Counted s.ob ∧ PortLinks s portType ∧ ∀ p, s.kernel.lpc.portInUse p = false

/-- There are no ports after the managers are initialized. -/
theorem noPorts_boot (ps : PsState) (rest : ρ) (fresh : ThreadRef → Bool) :
    NoPorts (LpcSystem.boot ps rest fresh).toSystem := by
  obtain ⟨t, hboot⟩ := boot_spec ps rest fresh
  rw [hboot]
  have hlife := ObLifetime.boot (σ := Kernel ρ) (fun _ => ⟨0, [], none⟩) ⟨ps, .zero, rest⟩
  refine ⟨t, ⟨⟨ps, .zero, rest⟩, fun _ => 0, fun _ => 0, fun _ => none,
    ⟨hlife.ready, hlife.refCount_eq, hlife.inUse_iff, hlife.entry_named⟩,
    fun _ => Nat.two_pow_pos 31⟩, ⟨rfl, rfl, ?_, ?_, ?_, ?_⟩, fun p => rfl⟩
  · dsimp only
    rw [Function.update_self]
  · intro t' ht routine hroutine
    dsimp only at hroutine
    rw [Function.update_of_ne ht] at hroutine
    cases hroutine
  · exact fun p o hp => by cases hp
  · exact fun p q o hp => by cases hp

/-- Nobody waits then. -/
theorem quiet_boot {ps : PsState} {fresh : ThreadRef → Bool} {l : List ThreadRef}
    (h : SchedOk ps fresh l) (hblocked : ∀ t, (ps.threadPool t).state ≠ .blocked) (rest : ρ) :
    Quiet (LpcSystem.boot ps rest fresh) := by
  obtain ⟨portType, hcounted, hlinks, hnone⟩ := noPorts_boot ps rest fresh
  have hps : (LpcSystem.boot ps rest fresh).kernel.ps = ps := by
    obtain ⟨t, hboot⟩ := boot_spec ps rest fresh
    rw [hboot]
  have hsched : SchedOk (LpcSystem.boot ps rest fresh).kernel.ps fresh l := by
    rw [hps]
    exact h
  refine ⟨portType, l, hsched, hcounted, hlinks, ⟨fun p hp => ?_, fun u => ?_, ?_, ?_⟩, ?_⟩
  · cases (hnone p).symm.trans hp
  · rw [hps]
    exact iff_of_false (hblocked u) fun ⟨p, hw⟩ => by cases hw
  · exact fun p u hw => by cases hw
  · exact fun p u hw => by cases hw
  · exact fun hne => absurd rfl hne

/-- A scheduler with one thread running and the others to be readied. -/
def runningAlone : PsState :=
  { PsState.zero with
    ready := true
    currentThread := some 0
    threadPool := fun t =>
      { KThread.zero with ownerProcess := some 0, state := if t = 0 then .running else .ready } }

theorem schedOk_runningAlone : SchedOk runningAlone (fun t => decide (t ≠ 0)) [] where
  ready := rfl
  queue := .of_head_tail_none rfl rfl
  queued t ht := by cases ht
  fresh t ht := by
    have hne : t ≠ 0 := of_decide_eq_true ht
    refine ⟨if_neg hne, Option.some_ne_none _, List.not_mem_nil, fun hcur => ?_⟩
    exact hne (Option.some.inj hcur).symm
  blocked t _ := Option.some_ne_none _
  current t ht := by
    obtain rfl : 0 = t := Option.some.inj ht
    exact ⟨rfl, Option.some_ne_none _, List.not_mem_nil⟩

/-- The managers with that scheduler. -/
def bootAlone : LpcSystem Unit := LpcSystem.boot runningAlone () fun t => decide (t ≠ 0)

theorem quiet_bootAlone : Quiet bootAlone := by
  refine quiet_boot schedOk_runningAlone (fun t => ?_) ()
  dsimp only [runningAlone]
  split <;> exact PsThreadState.noConfusion

/-- A message with no payload. -/
def emptyMessage : NkMessage := ⟨0, 0, fun _ => 0⟩

theorem waiters_ok_iff_alone :
    Always Step (fun s c _ => Admissible s.toSystem c) bootAlone
        [.createPort 3, .receive 4 true, .ready 1, .send 4 emptyMessage, .close 4] ↔
      Always Step (fun _ _ s' => ∃ lists, WaitersOk s' lists) bootAlone
        [.createPort 3, .receive 4 true, .ready 1, .send 4 emptyMessage, .close 4] :=
  waiters_ok_iff bootAlone quiet_bootAlone _

/-- A receiver waits while another thread is ready: it is linked to itself in the wait list. -/
theorem waiting_receiver_linked_to_itself :
    ¬ Always Step (fun _ _ s' => ∃ lists, WaitersOk s' lists) bootAlone
      [.createPort 3, .ready 1, .receive 4 true] := by
  have hrun : (performAll LpcSystem.perform bootAlone
      [.createPort 3, .ready 1, .receive 4 true]).map (fun s => (s.kernel.lpc.portInUse 0,
        (s.kernel.waitQueue 0).head, (s.kernel.waitQueue 0).next 0)) =
          some (true, some 0, some 0) := by decide +kernel
  obtain ⟨s, hs, hfields⟩ := Option.map_eq_some_iff.1 hrun
  simp only [Prod.mk.injEq] at hfields
  obtain ⟨hin, hhead, hloop⟩ := hfields
  intro hall
  obtain ⟨lists, hok⟩ := hall.of_performAll hs
  exact (hok.holds 0 hin).false_of_self_loop hhead hloop

/-- The fuel of the loop is enough. -/
theorem lpcReceiveByHandle_isSome {s : System ρ} {fresh : ThreadRef → Bool} {portType : TypeRef}
    {l : List ThreadRef} {w : Option (LpcPortRef × ThreadRef)} (h : LpcOk s fresh portType l w)
    (handleValue : U32) (wait : Bool) : (lpcReceiveByHandle s handleValue wait).isSome = true := by
  obtain ⟨r, hr, -⟩ := h.receive handleValue wait
  rw [hr]
  rfl

end NtxKernel.Lpc
