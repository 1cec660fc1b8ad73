import NtxKernel.Lpc.Waiters

/-!
# Delivery of messages

Every port delivers the messages sent to it exactly once and in order. The steps are the calls of
the port manager, where `LpcReceiveByHandle` is cut into the turns of its loop, so that whatever
other threads do may happen between two turns. Nothing is assumed of the scheduler: a step may
replace its records by any others.

* `DeliverySystem` keeps for each port the messages that sends accepted and that receives returned
  since the port was created.
* `Delivered` is the property of a step: in each port the messages returned and those that wait
  are the messages accepted; no more than `NK_PORT_QUEUE_DEPTH` wait; a send is refused exactly
  when the queue is full; and a call that is refused leaves all queues as they were.
* `messages_delivered`: every step of every run has the property.
-/

namespace NtxKernel.Lpc

open Foundations Ob Ps Nk

variable {ρ : Type}

/-! ## Turns of the receive loop -/

/-- How a turn of the loop of `LpcReceiveByHandle` ends: the call returns, or it goes on. -/
inductive ReceiveTurn
  | returned (status : Except KStatus NkMessage)
  | again

/-- A turn of the loop of `LpcReceiveByHandle`. -/
def lpcReceiveTurn (current : ThreadRef) (handleValue : U32) (wait : Bool) (s : System ρ) :
    Option (System ρ × ReceiveTurn) :=
  match lpcpReferencePortByHandle s handleValue lpcPortAccessRecv with
  | (s, .error e) => some (s, .returned (.error e))
  | (s, .ok (header, p)) =>
    match nkPortReceive (s.kernel.lpc.portPool p).port with
    | (port, .ok message) =>
      some (({ s with kernel := s.kernel.modifyPort p fun o =>
        { o with port := port } } : System ρ).dereference header, .returned (.ok message))
    | (_, .error _) =>
      if wait = false then some (s.dereference header, .returned (.error .wouldBlock))
      else
        let s := ({ s with kernel := lpcpEnqueueWaiter s.kernel p current } :
          System ρ).dereference header
        match psBlockCurrentThread s.kernel.ps with
        | none => none
        | some (ps, .failed e) =>
          some ({ s with kernel := { s.kernel with ps := ps } }, .returned (.error e))
        | some (ps, _) => some ({ s with kernel := { s.kernel with ps := ps } }, .again)

/-- The loop is made of turns. -/
theorem lpcReceiveLoop_succ (current : ThreadRef) (handleValue : U32) (wait : Bool) (fuel : ℕ)
    (s : System ρ) :
    lpcReceiveLoop current handleValue wait (fuel + 1) s =
      match lpcReceiveTurn current handleValue wait s with
      | none => none
      | some (s, .returned status) => some (s, status)
      | some (s, .again) => lpcReceiveLoop current handleValue wait fuel s := by
  rw [lpcReceiveLoop, lpcReceiveTurn]
  rcases lpcpReferencePortByHandle s handleValue lpcPortAccessRecv with ⟨s, e | ⟨header, p⟩⟩
  · rfl
  dsimp only
  rcases nkPortReceive (s.kernel.lpc.portPool p).port with ⟨port, e | message⟩
  · cases wait with
    | false => rfl
    | true =>
      dsimp only
      rw [if_neg Bool.true_eq_false_eq_False, if_neg Bool.true_eq_false_eq_False]
      rcases psBlockCurrentThread (System.dereference
        { s with kernel := lpcpEnqueueWaiter s.kernel p current } header).kernel.ps with
        _ | ⟨ps, d⟩
      · rfl
      · cases d <;> rfl
  · rfl

/-! ## The system -/

/-- The calls of threads. -/
inductive DeliveryCall
  | createPort (desiredAccess : U32)
  | send (handleValue : U32) (message : NkMessage)
  /-- A turn of the loop of `LpcReceiveByHandle`, called by `current`. -/
  | receive (current : ThreadRef) (handleValue : U32) (wait : Bool)
  | close (handleValue : U32)
  /-- Whatever the scheduler and the other threads do to the records of threads. -/
  | schedule (ps : PsState)

/-- What a call returned. -/
inductive DeliveryResult
  | done
  | sent (status : Except KStatus Unit)
  | received (turn : ReceiveTurn)

/-- The result refuses a send or a receive. -/
def DeliveryResult.Refused : DeliveryResult → Prop
  | .done => False
  | .sent status => ∃ e, status = .error e
  | .received turn => ∀ message, turn ≠ .returned (.ok message)

/-- The system, the messages each port accepted and returned since it was created, and the last
result. -/
structure DeliverySystem (ρ : Type) extends System ρ where
  sent : LpcPortRef → List NkMessage
  received : LpcPortRef → List NkMessage
  result : DeliveryResult

namespace DeliverySystem

/-- The messages that wait in the port `p`. -/
abbrev queued (s : System ρ) (p : LpcPortRef) : List NkMessage :=
  (s.kernel.lpc.portPool p).port.queued

/-- The slot `p` holds a port. -/
def IsPort (s : System ρ) (p : LpcPortRef) : Prop :=
  s.kernel.lpc.portInUse p = true ∧ (s.kernel.lpc.portPool p).header ≠ none

/-- The handle value names the port `p` and grants the access. -/
def Names (s : System ρ) (handleValue access : U32) (p : LpcPortRef) : Prop :=
  handleValue ≠ 0 ∧ ∃ i e, obpFindHandleEntry s.ob.kernelHandleTable handleValue = some (i, e) ∧
    e.grantedAccess &&& access = access ∧ s.kernel.lpc.portInUse p = true ∧
      (s.kernel.lpc.portPool p).header = some e.object

/-- The port that a call on the handle works on. -/
def target (s : System ρ) (handleValue access : U32) : Option LpcPortRef :=
  match (lpcpReferencePortByHandle s handleValue access).2 with
  | .ok (_, p) => some p
  | .error _ => none

/-- The system and the result after a call. -/
def call (s : System ρ) : DeliveryCall → Option (System ρ × DeliveryResult)
  | .createPort desiredAccess => some ((lpcCreatePortHandle s desiredAccess).1, .done)
  | .send handleValue message =>
    (lpcSendByHandle s handleValue message).map fun r => (r.1, .sent r.2)
  | .receive current handleValue wait =>
    (lpcReceiveTurn current handleValue wait s).map fun r => (r.1, .received r.2)
  | .close handleValue => some ((lpcCloseHandle s handleValue).1, .done)
  | .schedule ps => some ({ s with kernel := { s.kernel with ps := ps } }, .done)

/-- Forget the messages of the port that a call creates. -/
def clearCreated (s : System ρ) (log : LpcPortRef → List NkMessage) :
    DeliveryCall → LpcPortRef → List NkMessage
  | .createPort _ =>
    match (lpcpAllocatePortSlot s.kernel.lpc).2 with
    | some p => Function.update log p []
    | none => log
  | _ => log

/-- Append a message to the record of a port. -/
def logMessage (log : LpcPortRef → List NkMessage) (p : Option LpcPortRef) (message : NkMessage) :
    LpcPortRef → List NkMessage :=
  match p with
  | some p => Function.update log p (log p ++ [message])
  | none => log

/-- The messages accepted after a call. -/
def sentAfter (s : DeliverySystem ρ) (c : DeliveryCall) (r : DeliveryResult) :
    LpcPortRef → List NkMessage :=
  match c, r with
  | .send handleValue message, .sent (.ok _) =>
    logMessage s.sent (target s.toSystem handleValue lpcPortAccessSend) message
  | c, _ => clearCreated s.toSystem s.sent c

/-- The messages returned after a call. -/
def receivedAfter (s : DeliverySystem ρ) (c : DeliveryCall) (r : DeliveryResult) :
    LpcPortRef → List NkMessage :=
  match c, r with
  | .receive _ handleValue _, .received (.returned (.ok message)) =>
    logMessage s.received (target s.toSystem handleValue lpcPortAccessRecv) message
  | c, _ => clearCreated s.toSystem s.received c

/-- Perform a call and record the message it accepted or returned. -/
def perform (s : DeliverySystem ρ) (c : DeliveryCall) : Option (DeliverySystem ρ) :=
  (call s.toSystem c).map fun (s', r) =>
    { toSystem := s', sent := s.sentAfter c r, received := s.receivedAfter c r, result := r }

/-- One call, as a relation. -/
def Step (s : DeliverySystem ρ) (c : DeliveryCall) (s' : DeliverySystem ρ) : Prop :=
  s.perform c = some s'

end DeliverySystem

open DeliverySystem

/-- The property of a step from `s` by the call `c`. -/
structure Delivered (s : DeliverySystem ρ) (c : DeliveryCall) (s' : DeliverySystem ρ) : Prop where
  /-- The messages returned, followed by those that wait, are the messages accepted. -/
  exactly_once : ∀ p, IsPort s'.toSystem p →
    s'.received p ++ queued s'.toSystem p = s'.sent p
  bounded : ∀ p, IsPort s'.toSystem p → (queued s'.toSystem p).length ≤ nkPortQueueDepth
  /-- A send on a handle of a port is refused exactly when the port is full. -/
  refused_iff_full : ∀ handleValue message p, c = .send handleValue message →
    Names s.toSystem handleValue lpcPortAccessSend p →
      message.length.toNat ≤ nkMessagePayloadBytes →
        (s'.result.Refused ↔ (queued s.toSystem p).length = nkPortQueueDepth)
  /-- A refused call leaves every queue as it was. -/
  unchanged : s'.result.Refused → ∀ p, queued s'.toSystem p = queued s.toSystem p

/-! ## References to ports -/

variable {s : System ρ} {portType : TypeRef} {p : LpcPortRef}

theorem lpcpFindPortByHeader_of_header (h : PortLinks s portType) {o : ObjectRef}
    (hp : s.kernel.lpc.portInUse p = true) (ho : (s.kernel.lpc.portPool p).header = some o) :
    lpcpFindPortByHeader s.kernel.lpc o = some p := by
  rcases hfind : lpcpFindPortByHeader s.kernel.lpc o with _ | q
  · exact absurd ho (lpcpFindPortByHeader_eq_none hfind hp)
  · obtain ⟨hq, hqo⟩ := lpcpFindPortByHeader_eq_some hfind
    rw [h.header_unique q p o hq hp hqo ho]

/-- A reference is to the object of the port found. -/
theorem lpcpReferencePortByHandle_isPort {v access : U32} {header : ObjectRef}
    (h : (lpcpReferencePortByHandle s v access).2 = .ok (header, p)) : IsPort s p := by
  rw [lpcpReferencePortByHandle] at h
  split at h
  · cases h
  split at h
  · cases h
  dsimp only at h
  split at h
  · cases h
  next hfind =>
    cases h
    obtain ⟨hp, ho⟩ := lpcpFindPortByHeader_eq_some hfind
    exact ⟨hp, ho ▸ Option.some_ne_none _⟩

/-- A handle that names a port and grants the access gives a reference to it. -/
theorem target_of_names (hcounted : Counted s.ob) (h : PortLinks s portType) {v access : U32}
    (hnames : Names s v access p) : target s v access = some p := by
  obtain ⟨hv, i, e, hfind, haccess, hp, ho⟩ := hnames
  have hready : s.ob.ready = true := by
    obtain ⟨_, _, _, _, hlife, -⟩ := hcounted
    exact hlife.ready
  have htype := (h.header_live p e.object hp ho).2
  have hport := lpcpFindPortByHeader_of_header h hp ho
  rw [target, lpcpReferencePortByHandle, h.portType_eq]
  dsimp only
  rw [obReferenceObjectByHandle_of_find hready hv hfind, if_neg (not_not.2 haccess),
    if_neg (fun hne => hne.2 htype)]
  dsimp only
  rw [hport]

/-- The target of a call that gets a reference. -/
theorem target_eq {v access : U32} {header : ObjectRef}
    (h : (lpcpReferencePortByHandle s v access).2 = .ok (header, p)) :
    target s v access = some p := by
  rw [target, h]

theorem lpcpDequeueWaiter_port (k : Kernel ρ) (p q : LpcPortRef) :
    ((lpcpDequeueWaiter k p).1.lpc.portPool q).port = (k.lpc.portPool q).port := by
  by_cases hq : q = p
  · rw [lpcpDequeueWaiter, hq]
    cases (k.lpc.portPool p).waitHead with
    | none => rfl
    | some t => simp only [Kernel.setWaitQueueNext, Kernel.modifyPort_self]
  · rw [(lpcpDequeueWaiter_spec k p).2.other q hq]

/-- A port still in use after a reference was dropped is as it was. -/
theorem PortLinks.port_kept (h : PortLinks s portType) (o : ObjectRef) {q : LpcPortRef}
    (hq : (obDereferenceObject s.ob s.kernel o).2.1.lpc.portInUse q = true) :
    s.kernel.lpc.portInUse q = true ∧
      (obDereferenceObject s.ob s.kernel o).2.1.lpc.portPool q = s.kernel.lpc.portPool q := by
  rcases h.obDereferenceObject_kernel o with ⟨-, hlpc, -⟩ | ⟨p, -, -, -, hk⟩
  · rw [hlpc] at hq ⊢
    exact ⟨hq, rfl⟩
  · have hqp : q ≠ p := by
      rintro rfl
      rw [hk, Kernel.portInUse_clearPort, Function.update_self] at hq
      cases hq
    rw [hk, Kernel.portInUse_clearPort, Function.update_of_ne hqp] at hq
    rw [hk, Kernel.clearPort_of_ne _ hqp]
    exact ⟨hq, rfl⟩

/-! ## What sends and receives do to ports -/

/-- The same ports, and the same messages in those that satisfy `P`. -/
structure KeepsMessages (k k' : Kernel ρ) (P : LpcPortRef → Prop) : Prop where
  ports : SamePorts k.lpc k'.lpc
  port : ∀ q, P q → (k'.lpc.portPool q).port = (k.lpc.portPool q).port

theorem KeepsMessages.modifyPort (k : Kernel ρ) (p : LpcPortRef) (port : NkPort) :
    KeepsMessages k (k.modifyPort p fun o => { o with port := port }) (· ≠ p) where
  ports := (AgreeUpToQueues.modifyPort k p (f := fun o => { o with port := port })
    fun _ => rfl).ports
  port q hq := by rw [Kernel.modifyPort_of_ne _ hq]

/-- A send is refused and changes nothing, or it goes through to the port of the handle. -/
theorem lpcSendByHandle_cases (hcounted : Counted s.ob) {v : U32} {message : NkMessage}
    {s' : System ρ} {status : Except KStatus Unit}
    (h : lpcSendByHandle s v message = some (s', status)) :
    (s' = s ∧ (∃ e, status = .error e) ∧
        (s.kernel.lpc.ready = true → ∀ p, target s v lpcPortAccessSend = some p →
          ∃ port e, nkPortSend (s.kernel.lpc.portPool p).port message = (port, .error e))) ∨
      ∃ p port k, target s v lpcPortAccessSend = some p ∧ IsPort s p ∧
        nkPortSend (s.kernel.lpc.portPool p).port message = (port, .ok ()) ∧ status = .ok () ∧
          s' = ⟨s.ob, k⟩ ∧ KeepsMessages s.kernel k (· ≠ p) ∧ (k.lpc.portPool p).port = port := by
  rw [lpcSendByHandle] at h
  by_cases hready : s.kernel.lpc.ready = false
  · rw [if_pos hready] at h
    cases h
    exact .inl ⟨rfl, ⟨_, rfl⟩, fun hready' => by cases hready.symm.trans hready'⟩
  rw [if_neg hready] at h
  rcases lpcpReferencePortByHandle_cases s hcounted v lpcPortAccessSend with
    ⟨e, heq⟩ | ⟨ob, header, p, heq, -, hback⟩
  · rw [heq] at h
    cases h
    refine .inl ⟨rfl, ⟨_, rfl⟩, fun _ p hp => ?_⟩
    rw [target, heq] at hp
    cases hp
  have htarget : target s v lpcPortAccessSend = some p := target_eq (congrArg Prod.snd heq)
  have hport := lpcpReferencePortByHandle_isPort (congrArg Prod.snd heq)
  rw [heq] at h
  dsimp only at h
  rcases hsend : nkPortSend (s.kernel.lpc.portPool p).port message with ⟨port, e | _⟩
  · rw [hsend] at h
    dsimp only at h
    rw [hback] at h
    cases h
    refine .inl ⟨rfl, ⟨_, rfl⟩, fun _ q hq => ?_⟩
    obtain rfl := Option.some.inj (htarget.symm.trans hq)
    exact ⟨port, e, hsend⟩
  rw [hsend] at h
  dsimp only at h
  have hmodify := KeepsMessages.modifyPort s.kernel p port
  have hself : ((s.kernel.modifyPort p fun o => { o with port := port }).lpc.portPool p).port =
      port := by
    rw [Kernel.modifyPort_self]
  generalize s.kernel.modifyPort p (fun o => { o with port := port }) = k₁ at h hmodify hself
  obtain ⟨-, hdeq⟩ := lpcpDequeueWaiter_spec k₁ p
  have hsame := lpcpDequeueWaiter_port k₁ p
  generalize lpcpDequeueWaiter k₁ p = r at h hdeq hsame
  have hkeeps : KeepsMessages s.kernel r.1 (· ≠ p) :=
    ⟨⟨hdeq.agree.ports.portType.trans hmodify.ports.portType,
      hdeq.agree.ports.ready.trans hmodify.ports.ready,
      hdeq.agree.ports.portInUse.trans hmodify.ports.portInUse,
      fun q => (hdeq.agree.ports.header q).trans (hmodify.ports.header q)⟩,
      fun q hq => (hsame q).trans (hmodify.port q hq)⟩
  obtain ⟨k₂, _ | waiter⟩ := r
  · dsimp only at h
    rw [hback] at h
    cases h
    exact .inr ⟨p, port, k₂, htarget, hport, hsend, rfl, rfl, hkeeps, (hsame p).trans hself⟩
  · obtain ⟨ps, -, heq'⟩ := Option.map_eq_some_iff.1 h
    rw [hback] at heq'
    cases heq'
    exact .inr ⟨p, port, { k₂ with ps := ps }, htarget, hport, hsend, rfl, rfl,
      ⟨hkeeps.ports, hkeeps.port⟩, (hsame p).trans hself⟩

/-- A turn of a receive returns no message and changes no queue, or it returns the first message
of the port of the handle. -/
theorem lpcReceiveTurn_cases (hcounted : Counted s.ob) {current : ThreadRef} {v : U32}
    {wait : Bool} {s' : System ρ} {turn : ReceiveTurn}
    (h : lpcReceiveTurn current v wait s = some (s', turn)) :
    ((∀ message, turn ≠ .returned (.ok message)) ∧
        ∃ k, s' = ⟨s.ob, k⟩ ∧ KeepsMessages s.kernel k fun _ => True) ∨
      ∃ p port message k, target s v lpcPortAccessRecv = some p ∧ IsPort s p ∧
        nkPortReceive (s.kernel.lpc.portPool p).port = (port, .ok message) ∧
          turn = .returned (.ok message) ∧ s' = ⟨s.ob, k⟩ ∧
            KeepsMessages s.kernel k (· ≠ p) ∧ (k.lpc.portPool p).port = port := by
  have hrefl : KeepsMessages s.kernel s.kernel fun _ => True :=
    ⟨⟨rfl, rfl, rfl, fun _ => rfl⟩, fun _ _ => rfl⟩
  rw [lpcReceiveTurn] at h
  rcases lpcpReferencePortByHandle_cases s hcounted v lpcPortAccessRecv with
    ⟨e, heq⟩ | ⟨ob, header, p, heq, -, hback⟩
  · rw [heq] at h
    cases h
    exact .inl ⟨(fun _ hturn => by cases hturn), s.kernel, rfl, hrefl⟩
  have htarget : target s v lpcPortAccessRecv = some p := target_eq (congrArg Prod.snd heq)
  have hport := lpcpReferencePortByHandle_isPort (congrArg Prod.snd heq)
  rw [heq] at h
  dsimp only at h
  rcases hreceive : nkPortReceive (s.kernel.lpc.portPool p).port with ⟨port, e | message⟩
  · rw [hreceive] at h
    dsimp only at h
    split at h
    · rw [hback] at h
      cases h
      exact .inl ⟨(fun _ hturn => by cases hturn), s.kernel, rfl, hrefl⟩
    rw [hback] at h
    have henq := lpcpEnqueueWaiter_spec s.kernel p current
    generalize lpcpEnqueueWaiter s.kernel p current = k₁ at h henq
    have hkeeps : ∀ ps, KeepsMessages s.kernel { k₁ with ps := ps } fun _ => True := by
      refine fun ps => ⟨henq.agree.ports, fun q _ => ?_⟩
      by_cases hq : q = p
      · rw [hq]
        exact henq.port
      · exact congrArg LpcPortObject.port (henq.other q hq)
    split at h
    · cases h
    · cases h
      exact .inl ⟨(fun _ hturn => by cases hturn), _, rfl, hkeeps _⟩
    · cases h
      exact .inl ⟨(fun _ hturn => by cases hturn), _, rfl, hkeeps _⟩
  · rw [hreceive] at h
    dsimp only at h
    rw [hback] at h
    cases h
    refine .inr ⟨p, port, message, _, htarget, hport, hreceive, rfl, rfl, .modifyPort _ p port,
      ?_⟩
    rw [Kernel.modifyPort_self]

/-! ## The invariant -/

/-- The messages returned and the messages that wait in a port are the messages accepted. -/
structure DeliveryOk (s : DeliverySystem ρ) (portType : TypeRef) : Prop where
  counted : Counted s.ob
  links : PortLinks s.toSystem portType
  ring : ∀ p, IsPort s.toSystem p → (s.kernel.lpc.portPool p).port.RingOk
  delivered : ∀ p, IsPort s.toSystem p → s.received p ++ queued s.toSystem p = s.sent p

namespace DeliveryOk

variable {s s' : DeliverySystem ρ}

/-- Ports that stay as they were, with their records. -/
theorem congr (h : DeliveryOk s portType) (hcounted : Counted s'.ob)
    (hlinks : PortLinks s'.toSystem portType)
    (hports : ∀ p, IsPort s'.toSystem p → IsPort s.toSystem p ∧
      (s'.kernel.lpc.portPool p).port = (s.kernel.lpc.portPool p).port ∧
        s'.sent p = s.sent p ∧ s'.received p = s.received p) : DeliveryOk s' portType := by
  refine ⟨hcounted, hlinks, fun p hp => ?_, fun p hp => ?_⟩
  · obtain ⟨hp', hport, -⟩ := hports p hp
    rw [hport]
    exact h.ring p hp'
  · obtain ⟨hp', hport, hsent, hreceived⟩ := hports p hp
    rw [queued, hport, hsent, hreceived]
    exact h.delivered p hp'

/-- The same ports for the same objects, and the same messages in each. -/
theorem samePorts (h : DeliveryOk s portType) {k : Kernel ρ} (hports : SamePorts s.kernel.lpc k.lpc)
    (hport : ∀ p, (k.lpc.portPool p).port = (s.kernel.lpc.portPool p).port)
    (r : DeliveryResult) :
    DeliveryOk ⟨⟨s.ob, k⟩, s.sent, s.received, r⟩ portType := by
  refine h.congr h.counted (h.links.congr hports) fun p hp => ⟨?_, hport p, rfl, rfl⟩
  exact ⟨hports.portInUse ▸ hp.1, hports.header p ▸ hp.2⟩

/-- A port takes a message in or gives one out, and the records follow. -/
theorem update (h : DeliveryOk s portType) {k : Kernel ρ} (hports : SamePorts s.kernel.lpc k.lpc)
    {p : LpcPortRef} (hother : ∀ q ≠ p,
      (k.lpc.portPool q).port = (s.kernel.lpc.portPool q).port)
    (hring : (k.lpc.portPool p).port.RingOk) {sent received : LpcPortRef → List NkMessage}
    (hlogs : ∀ q ≠ p, sent q = s.sent q ∧ received q = s.received q)
    (hdelivered : received p ++ (k.lpc.portPool p).port.queued = sent p) (r : DeliveryResult) :
    DeliveryOk ⟨⟨s.ob, k⟩, sent, received, r⟩ portType := by
  have hold : ∀ q, IsPort (⟨s.ob, k⟩ : System ρ) q → IsPort s.toSystem q := fun q hq =>
    ⟨hports.portInUse ▸ hq.1, hports.header q ▸ hq.2⟩
  refine ⟨h.counted, h.links.congr hports, fun q hq => ?_, fun q hq => ?_⟩
  · by_cases hqp : q = p
    · rw [hqp]
      exact hring
    · dsimp only
      rw [hother q hqp]
      exact h.ring q (hold q hq)
  · by_cases hqp : q = p
    · rw [hqp]
      exact hdelivered
    · dsimp only
      rw [queued, (hlogs q hqp).1, (hlogs q hqp).2, hother q hqp]
      exact h.delivered q (hold q hq)

/-- Creating a port. -/
theorem createPort (h : DeliveryOk s portType) (desiredAccess : U32) (r : DeliveryResult) :
    DeliveryOk ⟨(lpcCreatePortHandle s.toSystem desiredAccess).1,
      clearCreated s.toSystem s.sent (.createPort desiredAccess),
      clearCreated s.toSystem s.received (.createPort desiredAccess), r⟩ portType := by
  rcases lpcCreatePortHandle_cases h.links desiredAccess with
    ⟨hslot, heq⟩ | ⟨p, hp, hslot, heq | ⟨ob₁, o, hcreate, hlinks, heq⟩⟩
  · rw [heq, clearCreated, clearCreated, hslot]
    exact h.congr h.counted h.links fun q hq => ⟨hq, rfl, rfl, rfl⟩
  · -- the slot has no object: it is no port
    rw [heq, clearCreated, clearCreated, hslot]
    refine h.congr h.counted (h.links.clearPort p true) fun q hq => ?_
    have hqp : q ≠ p := by
      rintro rfl
      exact hq.2 (by rw [Kernel.clearPort_self])
    obtain ⟨hin, hheader⟩ := hq
    dsimp only at hin hheader ⊢
    rw [Kernel.portInUse_clearPort, Function.update_of_ne hqp] at hin
    rw [Kernel.clearPort_of_ne _ hqp] at hheader ⊢
    exact ⟨⟨hin, hheader⟩, rfl, Function.update_of_ne hqp .., Function.update_of_ne hqp ..⟩
  · rw [heq, clearCreated, clearCreated, hslot]
    dsimp only
    have hkept : ∀ q, IsPort ((System.mk (obInsertHandle ob₁ o desiredAccess).1
        (s.kernel.openPort p o)).dereference o) q →
          (s.kernel.openPort p o).lpc.portInUse q = true ∧
            ((System.mk (obInsertHandle ob₁ o desiredAccess).1
              (s.kernel.openPort p o)).dereference o).kernel.lpc.portPool q =
                (s.kernel.openPort p o).lpc.portPool q := fun q hq =>
      hlinks.port_kept o hq.1
    have hpool : ∀ q, IsPort ((System.mk (obInsertHandle ob₁ o desiredAccess).1
        (s.kernel.openPort p o)).dereference o) q → q ≠ p → IsPort s.toSystem q ∧
          ((System.mk (obInsertHandle ob₁ o desiredAccess).1
            (s.kernel.openPort p o)).dereference o).kernel.lpc.portPool q =
              s.kernel.lpc.portPool q := by
      intro q hq hqp
      obtain ⟨hin, hpool⟩ := hkept q hq
      rw [Kernel.portInUse_openPort, Function.update_of_ne hqp] at hin
      rw [Kernel.openPort_of_ne _ hqp] at hpool
      exact ⟨⟨hin, hpool ▸ hq.2⟩, hpool⟩
    refine ⟨h.counted.create hcreate _, hlinks.dereferenced o, fun q hq => ?_, fun q hq => ?_⟩
    · by_cases hqp : q = p
      · subst hqp
        rw [(hkept q hq).2, Kernel.openPort_self]
        exact nkPortInitialize_ringOk _
      · obtain ⟨hold, hpool⟩ := hpool q hq hqp
        rw [hpool]
        exact h.ring q hold
    · by_cases hqp : q = p
      · subst hqp
        rw [queued, (hkept q hq).2, Kernel.openPort_self]
        dsimp only
        rw [Function.update_self, Function.update_self, queued_nkPortInitialize]
        rfl
      · obtain ⟨hold, hpool⟩ := hpool q hq hqp
        rw [queued, hpool]
        dsimp only
        rw [Function.update_of_ne hqp, Function.update_of_ne hqp]
        exact h.delivered q hold

/-- Closing a handle. -/
theorem close (h : DeliveryOk s portType) (v : U32) (r : DeliveryResult) :
    DeliveryOk ⟨(lpcCloseHandle s.toSystem v).1, s.sent, s.received, r⟩ portType := by
  by_cases hv : v = 0
  · rw [lpcCloseHandle, if_pos hv]
    exact h.congr h.counted h.links fun q hq => ⟨hq, rfl, rfl, rfl⟩
  have hcounted := h.counted.obCloseHandle s.kernel v
  rcases obCloseHandle_cases s.ob s.kernel v with ⟨e, heq⟩ | ⟨i, e, -, heq⟩
  · rw [lpcCloseHandle, if_neg hv, heq]
    exact h.congr h.counted h.links fun q hq => ⟨hq, rfl, rfl, rfl⟩
  have hlinks := h.links.dereferenced e.object
  have hkept : ∀ q, _ → _ := fun q => h.links.port_kept e.object (q := q)
  rw [lpcCloseHandle, if_neg hv]
  rw [heq] at hcounted ⊢
  generalize obDereferenceObject s.ob s.kernel e.object = r' at hcounted hlinks hkept
  obtain ⟨ob, k, status⟩ := r'
  refine h.congr hcounted ⟨hlinks.ready, hlinks.portType_eq, hlinks.deleteRoutine_eq,
    hlinks.other_routines, hlinks.header_live, hlinks.header_unique⟩ fun q hq => ?_
  obtain ⟨hin, hpool⟩ := hkept q hq.1
  exact ⟨⟨hin, hpool ▸ hq.2⟩, congrArg LpcPortObject.port hpool, rfl, rfl⟩

/-- What every state with the invariant gives of the property. -/
theorem length_queued_le (h : DeliveryOk s portType) {p : LpcPortRef} (hp : IsPort s.toSystem p) :
    (queued s.toSystem p).length ≤ nkPortQueueDepth := by
  rw [queued, NkPort.length_queued]
  exact (h.ring p hp).count_le

theorem logMessage_self (log : LpcPortRef → List NkMessage) (p : LpcPortRef)
    (message : NkMessage) : logMessage log (some p) message p = log p ++ [message] :=
  Function.update_self ..

theorem logMessage_of_ne (log : LpcPortRef → List NkMessage) {p q : LpcPortRef} (h : q ≠ p)
    (message : NkMessage) : logMessage log (some p) message q = log q :=
  Function.update_of_ne h ..

/-- A send. -/
theorem send (h : DeliveryOk s portType) {v : U32} {message : NkMessage}
    (hstep : s.Step (.send v message) s') :
    DeliveryOk s' portType ∧
      (∀ p, Names s.toSystem v lpcPortAccessSend p →
        message.length.toNat ≤ nkMessagePayloadBytes →
          (s'.result.Refused ↔ (queued s.toSystem p).length = nkPortQueueDepth)) ∧
        (s'.result.Refused → ∀ q, queued s'.toSystem q = queued s.toSystem q) := by
  obtain ⟨⟨s₁, r⟩, hcall, rfl⟩ := Option.map_eq_some_iff.1 hstep
  obtain ⟨⟨s₂, status⟩, hsend, heq⟩ := Option.map_eq_some_iff.1 hcall
  cases heq
  rcases lpcSendByHandle_cases h.counted hsend with
    ⟨rfl, ⟨e, rfl⟩, hfull⟩ | ⟨p, port, k, htarget, hp, hport, rfl, rfl, hkeeps, hself⟩
  · refine ⟨h.congr h.counted h.links fun q hq => ⟨hq, rfl, rfl, rfl⟩, fun p hnames hlength => ?_,
      fun _ q => rfl⟩
    refine iff_of_true ⟨e, rfl⟩ ?_
    have hp : IsPort s.toSystem p := by
      obtain ⟨-, i, entry, -, -, hin, hheader⟩ := hnames
      exact ⟨hin, hheader ▸ Option.some_ne_none _⟩
    obtain ⟨port, e', herror⟩ :=
      hfull h.links.ready p (target_of_names h.counted h.links hnames)
    rcases nkPortSend_cases (h.ring p hp) hlength with ⟨hlen, -⟩ | ⟨-, port', hok, -⟩
    · exact hlen
    · cases herror.symm.trans hok
  · have hlength : message.length.toNat ≤ nkMessagePayloadBytes := by
      by_contra hlong
      rw [nkPortSend, if_pos (Nat.not_le.1 hlong)] at hport
      cases hport
    rcases nkPortSend_cases (h.ring p hp) hlength with ⟨-, herror⟩ | ⟨hlen, port', hok, hring, hq⟩
    · cases hport.symm.trans herror
    obtain rfl : port = port' := congrArg Prod.fst (hport.symm.trans hok)
    refine ⟨?_, fun p' hnames _ => ?_, ?_⟩
    · refine h.update hkeeps.ports hkeeps.port (hself ▸ hring) (fun q hqp => ⟨?_, rfl⟩) ?_ _
      · rw [sentAfter, htarget, logMessage_of_ne _ hqp]
      · rw [sentAfter, htarget, logMessage_self, hself, hq, ← List.append_assoc]
        exact congrArg (· ++ [message]) (h.delivered p hp)
    · obtain rfl := Option.some.inj
        (htarget.symm.trans (target_of_names h.counted h.links hnames))
      exact iff_of_false (fun hrefused => by cases hrefused.choose_spec) hlen.ne
    · exact fun hrefused => by cases hrefused.choose_spec

/-- A turn of a receive. -/
theorem receive (h : DeliveryOk s portType) {current : ThreadRef} {v : U32} {wait : Bool}
    (hstep : s.Step (.receive current v wait) s') :
    DeliveryOk s' portType ∧
      (s'.result.Refused → ∀ q, queued s'.toSystem q = queued s.toSystem q) := by
  obtain ⟨⟨s₁, r⟩, hcall, rfl⟩ := Option.map_eq_some_iff.1 hstep
  obtain ⟨⟨s₂, turn⟩, hturn, heq⟩ := Option.map_eq_some_iff.1 hcall
  cases heq
  rcases lpcReceiveTurn_cases h.counted hturn with
    ⟨hrefused, k, rfl, hkeeps⟩ |
      ⟨p, port, message, k, htarget, hp, hport, rfl, rfl, hkeeps, hself⟩
  · have hlogs : s.receivedAfter (.receive current v wait) (.received turn) = s.received := by
      cases turn with
      | again => rfl
      | returned status =>
        cases status with
        | error e => rfl
        | ok message => exact absurd rfl (hrefused message)
    refine ⟨?_, fun _ q => ?_⟩
    · dsimp only
      rw [hlogs]
      exact h.samePorts hkeeps.ports (fun q => hkeeps.port q trivial) _
    · rw [queued, queued, hkeeps.port q trivial]
  · rcases nkPortReceive_cases (h.ring p hp) with ⟨-, herror⟩ | ⟨port', message', hok, hring, hq⟩
    · cases hport.symm.trans herror
    cases hport.symm.trans hok
    refine ⟨?_, fun hrefused => absurd rfl (hrefused message)⟩
    refine h.update hkeeps.ports hkeeps.port (hself ▸ hring) (fun q hqp => ⟨rfl, ?_⟩) ?_ _
    · rw [receivedAfter, htarget, logMessage_of_ne _ hqp]
    · rw [receivedAfter, htarget, logMessage_self, hself, List.append_assoc, List.singleton_append,
        ← hq]
      exact h.delivered p hp

/-- Every call keeps the invariant and has the property. -/
theorem step (h : DeliveryOk s portType) {c : DeliveryCall} (hstep : s.Step c s') :
    DeliveryOk s' portType ∧ Delivered s c s' := by
  have hproperty : DeliveryOk s' portType →
      (∀ v message p, c = .send v message → Names s.toSystem v lpcPortAccessSend p →
        message.length.toNat ≤ nkMessagePayloadBytes →
          (s'.result.Refused ↔ (queued s.toSystem p).length = nkPortQueueDepth)) →
      (s'.result.Refused → ∀ q, queued s'.toSystem q = queued s.toSystem q) →
        DeliveryOk s' portType ∧ Delivered s c s' := fun h' hfull hunchanged =>
    ⟨h', h'.delivered, fun _ hp => h'.length_queued_le hp, hfull, hunchanged⟩
  cases c with
  | createPort desiredAccess =>
    cases hstep
    exact hproperty (h.createPort desiredAccess .done) (fun _ _ _ hc => by cases hc)
      fun hrefused => hrefused.elim
  | send v message =>
    obtain ⟨h', hfull, hunchanged⟩ := h.send hstep
    refine hproperty h' (fun v' message' p hc => ?_) hunchanged
    cases hc
    exact hfull p
  | receive current v wait =>
    obtain ⟨h', hunchanged⟩ := h.receive hstep
    exact hproperty h' (fun _ _ _ hc => by cases hc) hunchanged
  | close v =>
    cases hstep
    exact hproperty (h.close v .done) (fun _ _ _ hc => by cases hc) fun hrefused => hrefused.elim
  | schedule ps =>
    cases hstep
    have hsame : DeliveryOk ⟨⟨s.ob, { s.kernel with ps := ps }⟩, s.sent, s.received, .done⟩
        portType := h.samePorts (k := { s.kernel with ps := ps }) ⟨rfl, rfl, rfl, fun _ => rfl⟩
      (fun _ => rfl) .done
    exact hproperty hsame (fun _ _ _ hc => by cases hc) fun hrefused => hrefused.elim

end DeliveryOk

/-! ## Runs -/

/-- From any state without ports, with the messages of no port recorded, every step of every run
delivers messages exactly once and in order. -/
theorem messages_delivered (s : System ρ) (hs : NoPorts s) (calls : List DeliveryCall) :
    Always Step Delivered ⟨s, fun _ => [], fun _ => [], .done⟩ calls := by
  obtain ⟨portType, hcounted, hlinks, hnone⟩ := hs
  have hno : ∀ p, ¬IsPort s p := by
    intro p hp
    cases (hnone p).symm.trans hp.1
  refine Always.of_invariant (I := fun s => DeliveryOk s portType)
    (fun s c s' h hstep => (h.step hstep).1) (fun s c s' h hstep => (h.step hstep).2)
    ⟨hcounted, hlinks, fun p hp => absurd hp (hno p), fun p hp => absurd hp (hno p)⟩ calls

theorem messages_delivered_alone :
    Always Step Delivered ⟨bootAlone.toSystem, fun _ => [], fun _ => [], .done⟩
      [.createPort 3, .send 4 emptyMessage, .receive 0 4 false, .receive 0 4 true, .close 4] :=
  messages_delivered _ (noPorts_boot ..) _

end NtxKernel.Lpc
