import NtxKernel.Lpc.Ports
import NtxKernel.Ob.Lifetime
import NtxKernel.Ps.Scheduler

/-!
# Ports, handles and wait lists

What the routines of the port manager do to the wait lists and to the ports that handles name.

* `AgreeUpToQueues k k'`: the threads and the ports are the same, up to the wait lists and the
  messages. The routines on wait lists are queue operations and change nothing else.
* `Counted` and `PortLinks`: references are counted, and a port names the object it was made for.
  Then a reference to a port that is given back leaves no trace.
-/

namespace NtxKernel.Lpc

open Foundations Ob Ps Nk

variable {ρ : Type}

/-! ## Wait lists -/

namespace Kernel

variable (k : Kernel ρ) (p q : LpcPortRef) (t : ThreadRef)

@[simp]
theorem modifyPort_self (f : LpcPortObject → LpcPortObject) :
    (k.modifyPort p f).lpc.portPool p = f (k.lpc.portPool p) :=
  Function.update_self ..

theorem modifyPort_of_ne {p q : LpcPortRef} (h : q ≠ p) (f : LpcPortObject → LpcPortObject) :
    (k.modifyPort p f).lpc.portPool q = k.lpc.portPool q :=
  Function.update_of_ne h ..

/-- The link of a thread in a wait list. -/
def waitNext (k : Kernel ρ) (t : ThreadRef) : Option ThreadRef :=
  (k.ps.threadPool t).waitQueueNext

theorem waitNext_setWaitQueueNext (next : Option ThreadRef) :
    (k.setWaitQueueNext t next).waitNext = Function.update k.waitNext t next := by
  funext u
  by_cases hu : u = t
  · rw [hu, Function.update_self, waitNext, setWaitQueueNext, PsState.modifyThread_self]
  · rw [Function.update_of_ne hu, waitNext, setWaitQueueNext, PsState.modifyThread_of_ne _ hu,
      waitNext]

end Kernel

/-- The same ports in use, for the same objects. -/
structure SamePorts (lpc lpc' : LpcState) : Prop where
  portType : lpc'.portType = lpc.portType
  ready : lpc'.ready = lpc.ready
  portInUse : lpc'.portInUse = lpc.portInUse
  header : ∀ p, (lpc'.portPool p).header = (lpc.portPool p).header

/-- The same threads and ports, up to the wait lists and the messages. -/
structure AgreeUpToQueues (k k' : Kernel ρ) : Prop where
  ready : k'.ps.ready = k.ps.ready
  runQueue : k'.ps.runQueue = k.ps.runQueue
  currentThread : k'.ps.currentThread = k.ps.currentThread
  state : ∀ t, (k'.ps.threadPool t).state = (k.ps.threadPool t).state
  ownerProcess : ∀ t, (k'.ps.threadPool t).ownerProcess = (k.ps.threadPool t).ownerProcess
  ports : SamePorts k.lpc k'.lpc

namespace AgreeUpToQueues

variable {k k' k'' : Kernel ρ}

theorem refl (k : Kernel ρ) : AgreeUpToQueues k k :=
  ⟨rfl, rfl, rfl, fun _ => rfl, fun _ => rfl, ⟨rfl, rfl, rfl, fun _ => rfl⟩⟩

theorem trans (h : AgreeUpToQueues k k') (h' : AgreeUpToQueues k' k'') :
    AgreeUpToQueues k k'' where
  ready := h'.ready.trans h.ready
  runQueue := h'.runQueue.trans h.runQueue
  currentThread := h'.currentThread.trans h.currentThread
  state t := (h'.state t).trans (h.state t)
  ownerProcess t := (h'.ownerProcess t).trans (h.ownerProcess t)
  ports := ⟨h'.ports.portType.trans h.ports.portType, h'.ports.ready.trans h.ports.ready,
    h'.ports.portInUse.trans h.ports.portInUse,
    fun p => (h'.ports.header p).trans (h.ports.header p)⟩

theorem schedOk (h : AgreeUpToQueues k k') {fresh : ThreadRef → Bool} {l : List ThreadRef}
    (hs : SchedOk k.ps fresh l) : SchedOk k'.ps fresh l :=
  hs.congr h.ready h.runQueue h.currentThread fun t => ⟨h.state t, h.ownerProcess t⟩

theorem setWaitQueueNext (k : Kernel ρ) (t : ThreadRef) (next : Option ThreadRef) :
    AgreeUpToQueues k (k.setWaitQueueNext t next) := by
  have hthread : ∀ {α : Type} (f : KThread → α),
      (∀ thread : KThread, f { thread with waitQueueNext := next } = f thread) →
        ∀ u, f ((k.setWaitQueueNext t next).ps.threadPool u) = f (k.ps.threadPool u) := by
    intro α f hf u
    by_cases hu : u = t
    · rw [hu, Kernel.setWaitQueueNext, PsState.modifyThread_self, hf]
    · rw [Kernel.setWaitQueueNext, PsState.modifyThread_of_ne _ hu]
  refine ⟨rfl, Queue.ext (funext ?_) rfl rfl, rfl, ?_, ?_, ⟨rfl, rfl, rfl, fun _ => rfl⟩⟩
  · exact hthread KThread.runQueueNext fun _ => rfl
  · exact hthread KThread.state fun _ => rfl
  · exact hthread KThread.ownerProcess fun _ => rfl

theorem modifyPort (k : Kernel ρ) (p : LpcPortRef) {f : LpcPortObject → LpcPortObject}
    (hf : ∀ o, (f o).header = o.header) : AgreeUpToQueues k (k.modifyPort p f) := by
  refine ⟨rfl, rfl, rfl, fun _ => rfl, fun _ => rfl, ⟨rfl, rfl, rfl, fun q => ?_⟩⟩
  by_cases hq : q = p
  · rw [hq, Kernel.modifyPort_self, hf]
  · rw [Kernel.modifyPort_of_ne _ hq]

end AgreeUpToQueues

/-- `LpcpEnqueueWaiter` pushes a thread to the wait list of the port. -/
structure Enqueued (k k' : Kernel ρ) (p : LpcPortRef) (t : ThreadRef) : Prop where
  agree : AgreeUpToQueues k k'
  waitQueue : k'.waitQueue p = (k.waitQueue p).push t
  other : ∀ q ≠ p, k'.lpc.portPool q = k.lpc.portPool q
  port : (k'.lpc.portPool p).port = (k.lpc.portPool p).port

theorem lpcpEnqueueWaiter_spec (k : Kernel ρ) (p : LpcPortRef) (t : ThreadRef) :
    Enqueued k (lpcpEnqueueWaiter k p t) p t := by
  have htail : ((k.setWaitQueueNext t none).lpc.portPool p).waitTail = (k.waitQueue p).tail := rfl
  have hnext := k.waitNext_setWaitQueueNext t none
  have hagree := AgreeUpToQueues.setWaitQueueNext k t none
  rw [lpcpEnqueueWaiter, htail]
  cases hcase : (k.waitQueue p).tail with
  | none =>
    refine ⟨hagree.trans (.modifyPort _ p fun _ => rfl), ?_, fun q hq => ?_, ?_⟩
    · rw [Queue.push, hcase]
      refine Queue.ext hnext ?_ ?_
      · simp only [Kernel.waitQueue, Kernel.modifyPort_self]
      · simp only [Kernel.waitQueue, Kernel.modifyPort_self]
    · exact Kernel.modifyPort_of_ne _ hq _
    · simp only [Kernel.modifyPort_self]
      rfl
  | some tail =>
    have hnext' := (k.setWaitQueueNext t none).waitNext_setWaitQueueNext tail (some t)
    refine ⟨(hagree.trans (.setWaitQueueNext _ tail _)).trans (.modifyPort _ p fun _ => rfl), ?_,
      fun q hq => ?_, ?_⟩
    · rw [Queue.push, hcase]
      refine Queue.ext (hnext'.trans (by rw [hnext]; rfl)) ?_ ?_
      · simp only [Kernel.waitQueue, Kernel.modifyPort_self]
        rfl
      · simp only [Kernel.waitQueue, Kernel.modifyPort_self]
    · exact Kernel.modifyPort_of_ne _ hq _
    · simp only [Kernel.modifyPort_self]
      rfl

/-- `LpcpDequeueWaiter` pops a thread off the wait list of the port. -/
structure Dequeued (k k' : Kernel ρ) (p : LpcPortRef) : Prop where
  agree : AgreeUpToQueues k k'
  waitQueue : k'.waitQueue p = (k.waitQueue p).pop.1
  other : ∀ q ≠ p, k'.lpc.portPool q = k.lpc.portPool q

theorem lpcpDequeueWaiter_nil {k : Kernel ρ} {p : LpcPortRef}
    (h : (k.waitQueue p).Holds []) : lpcpDequeueWaiter k p = (k, none) := by
  have hhead : (k.lpc.portPool p).waitHead = none := h.head_eq
  rw [lpcpDequeueWaiter, hhead]

theorem lpcpDequeueWaiter_spec (k : Kernel ρ) (p : LpcPortRef) :
    (lpcpDequeueWaiter k p).2 = (k.waitQueue p).pop.2 ∧
      Dequeued k (lpcpDequeueWaiter k p).1 p := by
  have hhead : (k.lpc.portPool p).waitHead = (k.waitQueue p).head := rfl
  rw [lpcpDequeueWaiter, hhead]
  cases hcase : (k.waitQueue p).head with
  | none =>
    have hpop : (k.waitQueue p).pop = (k.waitQueue p, none) := by
      rw [Queue.pop, hcase]
    rw [hpop]
    exact ⟨rfl, .refl k, by rw [hpop], fun _ _ => rfl⟩
  | some t =>
    have hpop : (k.waitQueue p).pop = (⟨Function.update (k.waitQueue p).next t none,
        (k.waitQueue p).next t,
        if (k.waitQueue p).next t = none then none else (k.waitQueue p).tail⟩, some t) := by
      rw [Queue.pop, hcase]
    rw [hpop]
    refine ⟨rfl, (AgreeUpToQueues.modifyPort k p ?_).trans (.setWaitQueueNext _ t _), ?_,
      fun q hq => ?_⟩
    · exact fun _ => rfl
    · rw [hpop]
      refine Queue.ext ?_ ?_ ?_
      · exact Kernel.waitNext_setWaitQueueNext _ t none
      · simp only [Kernel.waitQueue, Kernel.setWaitQueueNext, Kernel.modifyPort_self]
      · simp only [Kernel.waitQueue, Kernel.setWaitQueueNext, Kernel.modifyPort_self]
        rfl
    · simp only [Kernel.setWaitQueueNext, Kernel.modifyPort_of_ne _ hq]

/-! ## Handles and ports -/

/-- References are counted, and far fewer than `2 ^ 32` are held. -/
def Counted (ob : ObState (Kernel ρ)) : Prop :=
  ∃ (k : Kernel ρ) (held : ObjectRef → ℕ) (namedId : EntryIx → U64)
    (issued : U32 → Option (ObjectRef × U32)),
    ObLifetime ⟨ob, k, held, namedId, issued⟩ ∧ ∀ o, held o < 2 ^ 31

/-- A port names the object it was made for, and no other objects are ports. -/
structure PortLinks (s : System ρ) (portType : TypeRef) : Prop where
  ready : s.kernel.lpc.ready = true
  portType_eq : s.kernel.lpc.portType = some portType
  deleteRoutine_eq : (s.ob.typePool portType).deleteRoutine = some lpcpDeletePortObject
  /-- The delete routines of the other managers touch neither threads nor ports. -/
  other_routines : ∀ t ≠ portType, ∀ routine, (s.ob.typePool t).deleteRoutine = some routine →
    ∀ o k, (routine o k).ps = k.ps ∧ (routine o k).lpc = k.lpc
  header_live : ∀ p o, s.kernel.lpc.portInUse p = true →
    (s.kernel.lpc.portPool p).header = some o →
      s.ob.objectInUse o = true ∧ (s.ob.objectPool o).type = some portType
  header_unique : ∀ p q o, s.kernel.lpc.portInUse p = true → s.kernel.lpc.portInUse q = true →
    (s.kernel.lpc.portPool p).header = some o → (s.kernel.lpc.portPool q).header = some o → p = q

theorem PortLinks.congr {ob : ObState (Kernel ρ)} {k k' : Kernel ρ} {portType : TypeRef}
    (h : PortLinks ⟨ob, k⟩ portType) (hports : SamePorts k.lpc k'.lpc) :
    PortLinks ⟨ob, k'⟩ portType := by
  refine ⟨hports.ready.trans h.ready, hports.portType.trans h.portType_eq, h.deleteRoutine_eq, h.other_routines, ?_, ?_⟩
  · intro p o hp ho
    exact h.header_live p o (hports.portInUse ▸ hp) ((hports.header p).symm.trans ho)
  · intro p q o hp hq hpo hqo
    exact h.header_unique p q o (hports.portInUse ▸ hp) (hports.portInUse ▸ hq)
      ((hports.header p).symm.trans hpo) ((hports.header q).symm.trans hqo)

/-- A handle in the table counts, and the count is far from wrapping. -/
theorem Counted.refCount {ob : ObState (Kernel ρ)} (h : Counted ob) {i : EntryIx}
    {e : ObHandleTableEntry} (he : ob.kernelHandleTable.entries i = some e) :
    (ob.objectPool e.object).refCount ≠ 0 ∧
      (ob.objectPool e.object).refCount.toNat + 1 < 2 ^ 32 := by
  obtain ⟨k, held, namedId, issued, hlife, hheld⟩ := h
  refine ⟨hlife.refCount_ne_zero (ObSystem.users_pos_of_entry he), ?_⟩
  have hcount := hlife.refCount_eq e.object
  have hentries : ob.handleCount e.object ≤ 512 := by
    have hcard := countCells_le_card (fun e' : Option ObHandleTableEntry =>
      e'.any (·.object == e.object)) ob.kernelHandleTable.entries
    rwa [Fintype.card_fin] at hcard
  rw [ObSystem.users] at hcount
  have hbound := hheld e.object
  dsimp only at hcount
  omega

theorem lpcpFindPortByHeader_eq_some {lpc : LpcState} {header : ObjectRef} {p : LpcPortRef}
    (h : lpcpFindPortByHeader lpc header = some p) :
    lpc.portInUse p = true ∧ (lpc.portPool p).header = some header := by
  have hfound := firstIndex_sound h
  simpa using hfound

theorem SamePorts.lpcpFindPortByHeader {lpc lpc' : LpcState} (h : SamePorts lpc lpc')
    (header : ObjectRef) : lpcpFindPortByHeader lpc' header = lpcpFindPortByHeader lpc header := by
  unfold Lpc.lpcpFindPortByHeader
  simp only [h.portInUse, h.header]

/-- What `LpcpReferencePortByHandle` does: nothing, or it counts a reference to the object of a
port in use, and that given back leaves the object manager as it was. -/
theorem lpcpReferencePortByHandle_cases (s : System ρ) (hcounted : Counted s.ob)
    (v desired : U32) :
    (∃ e, lpcpReferencePortByHandle s v desired = (s, .error e)) ∨
      ∃ ob header p, lpcpReferencePortByHandle s v desired = (⟨ob, s.kernel⟩, .ok (header, p)) ∧
        s.kernel.lpc.portInUse p = true ∧
          ∀ k, (System.mk ob k).dereference header = ⟨s.ob, k⟩ := by
  rcases htype : s.kernel.lpc.portType with _ | portType
  · exact .inl ⟨_, by rw [lpcpReferencePortByHandle, htype]⟩
  rcases obReferenceObjectByHandle_cases s.ob v desired (some portType) with
    ⟨e, heq⟩ | ⟨i, e, hfind, -, -, heq⟩
  · exact .inl ⟨e, by rw [lpcpReferencePortByHandle, htype]; dsimp only; rw [heq]⟩
  obtain ⟨hne, hwrap⟩ := hcounted.refCount (obpFindHandleEntry_eq_some.1 hfind).1
  have hback := obDereferenceObject_of_reference heq hne hwrap
  generalize hob : { s.ob with
    objectPool := Function.update s.ob.objectPool e.object
      { s.ob.objectPool e.object with
        refCount := (s.ob.objectPool e.object).refCount + 1 } } = ob at heq hback
  have hderef : ∀ k, (System.mk ob k).dereference e.object = ⟨s.ob, k⟩ := by
    intro k
    rw [System.dereference]
    dsimp only
    rw [hback k]
  rcases hport : lpcpFindPortByHeader s.kernel.lpc e.object with _ | p
  · refine .inl ⟨.notFound, ?_⟩
    rw [lpcpReferencePortByHandle, htype]
    dsimp only
    rw [heq]
    dsimp only
    rw [hport]
    exact Prod.ext (hderef s.kernel) rfl
  · refine .inr ⟨ob, e.object, p, ?_, (lpcpFindPortByHeader_eq_some hport).1, hderef⟩
    rw [lpcpReferencePortByHandle, htype]
    dsimp only
    rw [heq]
    dsimp only
    rw [hport]

/-- Whether a reference succeeds does not depend on wait lists and messages. -/
theorem SamePorts.lpcpReferencePortByHandle {ob : ObState (Kernel ρ)} {k k' : Kernel ρ}
    (h : SamePorts k.lpc k'.lpc) (v desired : U32) :
    (lpcpReferencePortByHandle ⟨ob, k'⟩ v desired).2 =
      (lpcpReferencePortByHandle ⟨ob, k⟩ v desired).2 := by
  unfold Lpc.lpcpReferencePortByHandle
  dsimp only
  rw [h.portType]
  cases k.lpc.portType with
  | none => rfl
  | some portType =>
    dsimp only
    rcases obReferenceObjectByHandle ob v desired (some portType) with ⟨ob', e | header⟩
    · rfl
    · dsimp only
      rw [h.lpcpFindPortByHeader]
      cases Lpc.lpcpFindPortByHeader k.lpc header <;> rfl

/-! ## Making and dropping references -/

/-- Closing a handle keeps references counted. -/
theorem Counted.obCloseHandle {ob : ObState (Kernel ρ)} (h : Counted ob) (k : Kernel ρ) (v : U32) :
    Counted (obCloseHandle ob k v).1 := by
  obtain ⟨k₀, held, namedId, issued, hlife, hheld⟩ := h
  have hlife' : ObLifetime ⟨ob, k, held, namedId, issued⟩ := hlife.unchanged rfl rfl rfl
  have hclose := (hlife'.perform_closeHandle v).1
  generalize hs' : ObSystem.perform ⟨ob, k, held, namedId, issued⟩ (.closeHandle v) = s' at hclose
  have hob : s'.ob = (Ob.obCloseHandle ob k v).1 := by
    rw [← hs', ObSystem.perform_closeHandle_ob]
  have hheld' : s'.held = held := by
    rw [← hs', ObSystem.perform_closeHandle_held]
  rw [← hob]
  exact ⟨s'.rest, s'.held, s'.namedId, s'.issued, hclose, hheld' ▸ hheld⟩

/-- So does making an object, inserting a handle to it and giving the first reference back. -/
theorem Counted.create {ob ob₁ : ObState (Kernel ρ)} (h : Counted ob) {portType : TypeRef}
    {name : CString} {mask flags granted : U32} {o : ObjectRef}
    (hcreate : obCreateObject ob (some portType) (some name) mask flags = (ob₁, .ok o))
    (k : Kernel ρ) :
    Counted (obDereferenceObject (obInsertHandle ob₁ o granted).1 k o).1 := by
  obtain ⟨k₀, held, namedId, issued, hlife, hheld⟩ := h
  have hlife' : ObLifetime ⟨ob, k, held, namedId, issued⟩ := hlife.unchanged rfl rfl rfl
  -- the new object has no user but its creator
  have hfresh : held o = 0 ∧ ob₁.objectInUse o = true := by
    rcases obCreateObject_cases ob (some portType) (some name) mask flags with
      ⟨e, heq⟩ | ⟨o', t, nm, -, -, hfree, heq⟩
    · cases hcreate.symm.trans heq
    · cases hcreate.symm.trans heq
      have husers := hlife'.users_eq_zero hfree
      rw [ObSystem.users] at husers
      exact ⟨by dsimp only at husers; omega, Function.update_self ..⟩
  have hlife₁ := (hlife'.perform_createObject portType name mask flags).1
  simp only [ObSystem.perform, hcreate] at hlife₁
  have hbound : (ObSystem.perform ⟨ob₁, k, Function.update held o (held o + 1), namedId, issued⟩
      (.insertHandle o granted)).users o < 2 ^ 32 := by
    refine (ObSystem.users_perform_le ..).trans_lt ?_
    have hentries : ob₁.handleCount o ≤ 512 := by
      have hcard := countCells_le_card (fun e' : Option ObHandleTableEntry =>
        e'.any (·.object == o)) ob₁.kernelHandleTable.entries
      rwa [Fintype.card_fin] at hcard
    rw [ObSystem.users]
    dsimp only
    rw [Function.update_self, hfresh.1]
    omega
  have hlife₂ := (hlife₁.perform_insertHandle hfresh.2 granted hbound).1
  generalize hs₂ : ObSystem.perform ⟨ob₁, k, Function.update held o (held o + 1), namedId, issued⟩
    (.insertHandle o granted) = s₂ at hlife₂
  have hs₂' : s₂.ob = (obInsertHandle ob₁ o granted).1 ∧ s₂.rest = k ∧
      s₂.held = Function.update held o (held o + 1) := by
    rw [← hs₂, ObSystem.perform]
    rcases obInsertHandle ob₁ o granted with ⟨ob₂, e | v⟩ <;> exact ⟨rfl, rfl, rfl⟩
  have hheld₂ : 0 < s₂.held o := by
    rw [hs₂'.2.2, Function.update_self]
    exact Nat.succ_pos _
  have hlife₃ := (hlife₂.perform_dereference hheld₂).1
  rw [← hs₂'.1, ← hs₂'.2.1]
  refine ⟨_, _, _, _, hlife₃, fun o' => ?_⟩
  rw [hs₂'.2.2]
  by_cases ho : o' = o
  · rw [ho, Function.update_self, Function.update_self, hfresh.1]
    decide
  · rw [Function.update_of_ne ho, Function.update_of_ne ho]
    exact hheld o'

/-- The port `p` is taken out of use, or put to use, with nothing in its wait list. -/
def Kernel.clearPort (k : Kernel ρ) (p : LpcPortRef) (b : Bool) : Kernel ρ :=
  { k with lpc := (k.lpc.setInUse p b).modifyPort p fun port =>
      { port with header := none, waitHead := none, waitTail := none } }

theorem Kernel.clearPort_self (k : Kernel ρ) (p : LpcPortRef) (b : Bool) :
    (k.clearPort p b).lpc.portPool p =
      { k.lpc.portPool p with header := none, waitHead := none, waitTail := none } :=
  Function.update_self ..

theorem Kernel.clearPort_of_ne (k : Kernel ρ) {p q : LpcPortRef} (h : q ≠ p) (b : Bool) :
    (k.clearPort p b).lpc.portPool q = k.lpc.portPool q :=
  Function.update_of_ne h ..

theorem Kernel.portInUse_clearPort (k : Kernel ρ) (p : LpcPortRef) (b : Bool) :
    (k.clearPort p b).lpc.portInUse = Function.update k.lpc.portInUse p b := rfl

/-- `LpcpAllocatePortSlot` puts a free port to use, when there is one. -/
theorem lpcpAllocatePortSlot_cases (k : Kernel ρ) :
    (∃ lpc, lpcpAllocatePortSlot k.lpc = (lpc, none)) ∨
      ∃ p, k.lpc.portInUse p = false ∧
        lpcpAllocatePortSlot k.lpc = ((k.clearPort p true).lpc, some p) := by
  rw [lpcpAllocatePortSlot]
  rcases hfree : firstIndex fun p => !k.lpc.portInUse p with _ | p
  · exact .inl ⟨_, rfl⟩
  · exact .inr ⟨p, by simpa using firstIndex_sound hfree, rfl⟩

/-- What the delete routine does. -/
theorem lpcpDeletePortObject_eq (o : ObjectRef) (k : Kernel ρ) :
    lpcpDeletePortObject o k = match lpcpFindPortByHeader k.lpc o with
      | some p => k.clearPort p false
      | none => k := rfl

/-- A port with no object has no links. -/
theorem PortLinks.clearPort {ob : ObState (Kernel ρ)} {k : Kernel ρ} {portType : TypeRef}
    (h : PortLinks ⟨ob, k⟩ portType) (p : LpcPortRef) (b : Bool) :
    PortLinks ⟨ob, k.clearPort p b⟩ portType := by
  have hkept : ∀ q o, (k.clearPort p b).lpc.portInUse q = true →
      ((k.clearPort p b).lpc.portPool q).header = some o →
        k.lpc.portInUse q = true ∧ (k.lpc.portPool q).header = some o := by
    intro q o hq ho
    have hqp : q ≠ p := by
      rintro rfl
      rw [k.clearPort_self] at ho
      cases ho
    rw [k.portInUse_clearPort, Function.update_of_ne hqp] at hq
    rw [k.clearPort_of_ne hqp] at ho
    exact ⟨hq, ho⟩
  refine ⟨h.ready, h.portType_eq, h.deleteRoutine_eq, h.other_routines, ?_, ?_⟩
  · intro q o hq ho
    obtain ⟨hin, hheader⟩ := hkept q o hq ho
    exact h.header_live q o hin hheader
  · intro q r o hq hr hqo hro
    exact h.header_unique q r o (hkept q o hq hqo).1 (hkept r o hr hro).1 (hkept q o hq hqo).2
      (hkept r o hr hro).2

/-- What dropping a reference does to threads and ports: nothing, and then no port in use is left
whose object is gone; or it was the last one to the object of a port, which is cleared. -/
theorem PortLinks.obDereferenceObject_kernel {s : System ρ} {portType : TypeRef}
    (h : PortLinks s portType) (o : ObjectRef) :
    ((obDereferenceObject s.ob s.kernel o).2.1.ps = s.kernel.ps ∧
        (obDereferenceObject s.ob s.kernel o).2.1.lpc = s.kernel.lpc ∧
          ((s.ob.objectPool o).refCount = 1 → s.ob.ready = true →
            lpcpFindPortByHeader s.kernel.lpc o = none)) ∨
      ∃ p, s.ob.ready = true ∧ (s.ob.objectPool o).refCount = 1 ∧
        lpcpFindPortByHeader s.kernel.lpc o = some p ∧
          (obDereferenceObject s.ob s.kernel o).2.1 = s.kernel.clearPort p false := by
  rcases obDereferenceObject_cases s.ob s.kernel o with
    ⟨hguard, heq⟩ | ⟨-, -, hone, heq⟩ | ⟨hready, hone, heq⟩
  · rw [heq]
    refine .inl ⟨rfl, rfl, fun hone hready => ?_⟩
    rcases hguard with hr | hzero
    · cases hready.symm.trans hr
    · cases hone.symm.trans hzero
  · rw [heq]
    exact .inl ⟨rfl, rfl, fun hone' => absurd hone' hone⟩
  rw [heq]
  dsimp only
  by_cases htype : (s.ob.objectPool o).type = some portType
  · have hrun : s.ob.runDeleteRoutine o s.kernel = lpcpDeletePortObject o s.kernel := by
      rw [ObState.runDeleteRoutine, htype]
      dsimp only
      rw [h.deleteRoutine_eq]
    rw [hrun, lpcpDeletePortObject_eq]
    rcases hfind : lpcpFindPortByHeader s.kernel.lpc o with _ | p
    · exact .inl ⟨rfl, rfl, fun _ _ => rfl⟩
    · exact .inr ⟨p, hready, hone, rfl, rfl⟩
  · refine .inl ?_
    have hnone : lpcpFindPortByHeader s.kernel.lpc o = none := by
      by_contra hsome
      obtain ⟨p, hp⟩ := Option.ne_none_iff_exists'.1 hsome
      obtain ⟨hin, hheader⟩ := lpcpFindPortByHeader_eq_some hp
      exact htype (h.header_live p o hin hheader).2
    have hrun : (s.ob.runDeleteRoutine o s.kernel).ps = s.kernel.ps ∧
        (s.ob.runDeleteRoutine o s.kernel).lpc = s.kernel.lpc := by
      rw [ObState.runDeleteRoutine]
      rcases ht : (s.ob.objectPool o).type with _ | t
      · exact ⟨rfl, rfl⟩
      rcases hroutine : (s.ob.typePool t).deleteRoutine with _ | routine
      · simp only [hroutine, and_self]
      · simp only [hroutine]
        refine h.other_routines t ?_ routine hroutine o s.kernel
        rintro rfl
        exact htype ht
    exact ⟨hrun.1, hrun.2, fun _ _ => hnone⟩

theorem lpcpFindPortByHeader_eq_none {lpc : LpcState} {header : ObjectRef} {p : LpcPortRef}
    (h : lpcpFindPortByHeader lpc header = none) (hp : lpc.portInUse p = true) :
    (lpc.portPool p).header ≠ some header := by
  intro hheader
  have hnone := firstIndex_eq_none.1 h p
  simp [hp, hheader] at hnone

/-- Dropping a reference keeps the links between objects and ports. -/
theorem PortLinks.dereferenced {s : System ρ} {portType : TypeRef} (h : PortLinks s portType)
    (o : ObjectRef) :
    PortLinks ⟨(obDereferenceObject s.ob s.kernel o).1,
      (obDereferenceObject s.ob s.kernel o).2.1⟩ portType := by
  have htypes : (obDereferenceObject s.ob s.kernel o).1.typePool = s.ob.typePool := by
    rcases obDereferenceObject_cases s.ob s.kernel o with
      ⟨-, heq⟩ | ⟨-, -, -, heq⟩ | ⟨-, -, heq⟩ <;> rw [heq]
  -- an object other than the one that goes keeps its type and its slot
  have hkept : ∀ o', (o' = o → s.ob.ready = true → (s.ob.objectPool o).refCount ≠ 1) →
      (obDereferenceObject s.ob s.kernel o).1.objectInUse o' = s.ob.objectInUse o' ∧
        ((obDereferenceObject s.ob s.kernel o).1.objectPool o').type =
          (s.ob.objectPool o').type := by
    intro o' ho'
    rcases obDereferenceObject_cases s.ob s.kernel o with
      ⟨-, heq⟩ | ⟨-, -, -, heq⟩ | ⟨hready, hone, heq⟩
    · rw [heq]
      exact ⟨rfl, rfl⟩
    · rw [heq]
      refine ⟨rfl, ?_⟩
      by_cases hoo : o' = o
      · rw [hoo]
        dsimp only
        rw [Function.update_self]
      · dsimp only
        rw [Function.update_of_ne hoo]
    · have hne : o' ≠ o := fun hoo => ho' hoo hready hone
      rw [heq]
      dsimp only
      rw [Function.update_of_ne hne, Function.update_of_ne hne]
      exact ⟨rfl, rfl⟩
  -- a port that stays in use keeps its object, which is not the one that goes
  have hports : ∀ q, (obDereferenceObject s.ob s.kernel o).2.1.lpc.portInUse q = true →
      s.kernel.lpc.portInUse q = true ∧
        ((obDereferenceObject s.ob s.kernel o).2.1.lpc.portPool q).header =
          (s.kernel.lpc.portPool q).header ∧
        (s.ob.ready = true → (s.ob.objectPool o).refCount = 1 →
          (s.kernel.lpc.portPool q).header ≠ some o) := by
    intro q hq
    rcases h.obDereferenceObject_kernel o with ⟨-, hlpc, hnone⟩ | ⟨p, -, -, hfind, hk⟩
    · rw [hlpc] at hq ⊢
      exact ⟨hq, rfl, fun hready hone => lpcpFindPortByHeader_eq_none (hnone hone hready) hq⟩
    · rw [hk, Kernel.portInUse_clearPort] at hq
      have hqp : q ≠ p := by
        rintro rfl
        rw [Function.update_self] at hq
        cases hq
      rw [Function.update_of_ne hqp] at hq
      obtain ⟨hpin, hpo⟩ := lpcpFindPortByHeader_eq_some hfind
      rw [hk, Kernel.clearPort_of_ne _ hqp]
      exact ⟨hq, rfl, fun _ _ hqo => hqp (h.header_unique q p o hq hpin hqo hpo)⟩
  constructor
  · rcases h.obDereferenceObject_kernel o with ⟨-, hlpc, -⟩ | ⟨p, -, -, -, hk⟩
    · exact (congrArg LpcState.ready hlpc).trans h.ready
    · dsimp only
      rw [hk]
      exact h.ready
  · rcases h.obDereferenceObject_kernel o with ⟨-, hlpc, -⟩ | ⟨p, -, -, -, hk⟩
    · exact (congrArg LpcState.portType hlpc).trans h.portType_eq
    · dsimp only
      rw [hk]
      exact h.portType_eq
  · dsimp only
    rw [htypes]
    exact h.deleteRoutine_eq
  · dsimp only
    rw [htypes]
    exact h.other_routines
  · intro q o' hq ho'
    obtain ⟨hin, hheader, hne⟩ := hports q hq
    have hold := hheader.symm.trans ho'
    have hkeep := hkept o' fun hoo hready hone => hne hready hone (hoo ▸ hold)
    dsimp only
    rw [hkeep.1, hkeep.2]
    exact h.header_live q o' hin hold
  · intro p q o' hp hq hpo hqo
    obtain ⟨hpin, hph, -⟩ := hports p hp
    obtain ⟨hqin, hqh, -⟩ := hports q hq
    exact h.header_unique p q o' hpin hqin (hph.symm.trans hpo) (hqh.symm.trans hqo)

/-- A port that was put to use for a new object keeps them too. -/
theorem PortLinks.created {s : System ρ} {portType : TypeRef} (h : PortLinks s portType)
    {ob₁ : ObState (Kernel ρ)} {name : CString} {mask flags granted : U32} {o : ObjectRef}
    (hcreate : obCreateObject s.ob (some portType) (some name) mask flags = (ob₁, .ok o))
    {p : LpcPortRef} {k' : Kernel ρ} (hready : k'.lpc.ready = s.kernel.lpc.ready)
    (htype : k'.lpc.portType = s.kernel.lpc.portType)
    (hinUse : k'.lpc.portInUse = Function.update s.kernel.lpc.portInUse p true)
    (hself : (k'.lpc.portPool p).header = some o)
    (hother : ∀ q ≠ p, (k'.lpc.portPool q).header = (s.kernel.lpc.portPool q).header) :
    PortLinks ⟨(obInsertHandle ob₁ o granted).1, k'⟩ portType := by
  -- the table does not matter: inserting a handle changes a count and the table
  have hinsert : (obInsertHandle ob₁ o granted).1.typePool = ob₁.typePool ∧
      (obInsertHandle ob₁ o granted).1.objectInUse = ob₁.objectInUse ∧
        ∀ o', ((obInsertHandle ob₁ o granted).1.objectPool o').type =
          (ob₁.objectPool o').type := by
    rcases obInsertHandle_cases ob₁ o granted with ⟨-, e, heq⟩ | ⟨i, -, -, heq⟩
    · rw [heq]
      exact ⟨rfl, rfl, fun _ => rfl⟩
    · rw [heq]
      refine ⟨rfl, rfl, fun o' => ?_⟩
      dsimp only
      by_cases ho : o' = o
      · rw [ho, Function.update_self]
      · rw [Function.update_of_ne ho]
  rcases obCreateObject_cases s.ob (some portType) (some name) mask flags with
    ⟨e, heq⟩ | ⟨o', t, nm, ht, -, hfree, heq⟩
  · cases hcreate.symm.trans heq
  cases hcreate.symm.trans heq
  cases ht
  -- the objects of the other ports were live already
  have hlive : ∀ q o', k'.lpc.portInUse q = true → (k'.lpc.portPool q).header = some o' →
      (q = p ∧ o' = o) ∨ (q ≠ p ∧ o' ≠ o ∧ s.kernel.lpc.portInUse q = true ∧
        (s.kernel.lpc.portPool q).header = some o') := by
    intro q o' hq ho'
    by_cases hqp : q = p
    · subst hqp
      exact .inl ⟨rfl, Option.some.inj (ho'.symm.trans hself)⟩
    · rw [hinUse, Function.update_of_ne hqp] at hq
      rw [hother q hqp] at ho'
      refine .inr ⟨hqp, ?_, hq, ho'⟩
      rintro rfl
      cases hfree.symm.trans (h.header_live q o' hq ho').1
  obtain ⟨htypes, huse, hobjType⟩ := hinsert
  constructor
  · exact hready.trans h.ready
  · exact htype.trans h.portType_eq
  · dsimp only
    rw [htypes]
    exact h.deleteRoutine_eq
  · dsimp only
    rw [htypes]
    exact h.other_routines
  · intro q o' hq ho'
    dsimp only
    rw [huse, hobjType]
    dsimp only
    rcases hlive q o' hq ho' with ⟨-, rfl⟩ | ⟨-, hne, hin, hheader⟩
    · rw [Function.update_self, Function.update_self]
      exact ⟨rfl, rfl⟩
    · rw [Function.update_of_ne hne, Function.update_of_ne hne]
      exact h.header_live q o' hin hheader
  · intro q r o' hq hr hqo hro
    rcases hlive q o' hq hqo with ⟨rfl, rfl⟩ | ⟨-, hne, hin, hheader⟩
    · rcases hlive r o' hr hro with ⟨rfl, -⟩ | ⟨-, hne, -, -⟩
      · rfl
      · exact absurd rfl hne
    · rcases hlive r o' hr hro with ⟨-, rfl⟩ | ⟨-, -, hin', hheader'⟩
      · exact absurd rfl hne
      · exact h.header_unique q r o' hin hin' hheader hheader'

/-! ## Creating a port -/

/-- The free port `p` is put to use for the object `o`, with no message and nobody waiting. -/
def Kernel.openPort (k : Kernel ρ) (p : LpcPortRef) (o : ObjectRef) : Kernel ρ :=
  (k.clearPort p true).modifyPort p fun port =>
    { port with port := nkPortInitialize port.port, header := some o }

theorem Kernel.openPort_self (k : Kernel ρ) (p : LpcPortRef) (o : ObjectRef) :
    (k.openPort p o).lpc.portPool p =
      ⟨some o, nkPortInitialize (k.lpc.portPool p).port, none, none⟩ := by
  rw [Kernel.openPort, Kernel.modifyPort_self, Kernel.clearPort_self]

theorem Kernel.openPort_of_ne (k : Kernel ρ) {p q : LpcPortRef} (h : q ≠ p) (o : ObjectRef) :
    (k.openPort p o).lpc.portPool q = k.lpc.portPool q := by
  rw [Kernel.openPort, Kernel.modifyPort_of_ne _ h, Kernel.clearPort_of_ne _ h]

theorem Kernel.portInUse_openPort (k : Kernel ρ) (p : LpcPortRef) (o : ObjectRef) :
    (k.openPort p o).lpc.portInUse = Function.update k.lpc.portInUse p true := rfl

/-- What `LpcCreatePortHandle` does: nothing, without a free port; it leaves a port in use without
an object; or it puts a port to use for a new object, inserts a handle to the object and gives the
first reference back. -/
theorem lpcCreatePortHandle_cases {s : System ρ} {portType : TypeRef} (h : PortLinks s portType)
    (desiredAccess : U32) :
    ((lpcpAllocatePortSlot s.kernel.lpc).2 = none ∧
        (lpcCreatePortHandle s desiredAccess).1 = s) ∨
      ∃ p, s.kernel.lpc.portInUse p = false ∧ (lpcpAllocatePortSlot s.kernel.lpc).2 = some p ∧
        ((lpcCreatePortHandle s desiredAccess).1 = ⟨s.ob, s.kernel.clearPort p true⟩ ∨
          ∃ ob₁ o, obCreateObject s.ob (some portType) (some lpcPortName) lpcPortAccessAll
              obFlagWaitable = (ob₁, .ok o) ∧
            PortLinks ⟨(obInsertHandle ob₁ o desiredAccess).1, s.kernel.openPort p o⟩ portType ∧
            (lpcCreatePortHandle s desiredAccess).1 =
              (System.mk (obInsertHandle ob₁ o desiredAccess).1
                (s.kernel.openPort p o)).dereference o) := by
  obtain ⟨ob, k⟩ := s
  have hready : ¬k.lpc.ready = false := by
    have hready : k.lpc.ready = true := h.ready
    simp [hready]
  rw [lpcCreatePortHandle, if_neg hready]
  rcases lpcpAllocatePortSlot_cases k with ⟨lpc, hfull⟩ | ⟨p, hp, hslot⟩
  · dsimp only
    rw [hfull]
    exact .inl ⟨rfl, rfl⟩
  refine .inr ⟨p, hp, by rw [hslot], ?_⟩
  have hcleared : { k with lpc := (k.clearPort p true).lpc } = k.clearPort p true := rfl
  have htype : (k.clearPort p true).lpc.portType = some portType := h.portType_eq
  dsimp only
  rw [hslot]
  dsimp only
  rw [hcleared, htype]
  rcases hcreate : obCreateObject ob (some portType) (some lpcPortName) lpcPortAccessAll
    obFlagWaitable with ⟨ob₁, e | o⟩
  · have hob : ob₁ = ob := by
      rcases obCreateObject_cases ob (some portType) (some lpcPortName) lpcPortAccessAll
        obFlagWaitable with ⟨e', heq⟩ | ⟨o, t, nm, -, -, -, heq⟩
      · cases hcreate.symm.trans heq
        rfl
      · cases hcreate.symm.trans heq
    subst hob
    exact .inl rfl
  · refine .inr ⟨ob₁, o, rfl, ?_, rfl⟩
    refine h.created hcreate (p := p) rfl rfl rfl ?_ fun q hq => ?_
    · rw [Kernel.openPort_self]
    · rw [Kernel.openPort_of_ne _ hq]

end NtxKernel.Lpc
