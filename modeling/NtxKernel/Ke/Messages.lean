import NtxKernel.Ke.Syscall
import NtxKernel.Lpc.Delivery

/-!
# Messages of user programs

The handlers of `NkSend` and `NkReceive`, over the port manager. What a message carries is its
first `Length` bytes; a sender's bytes are read from its memory, and a receiver's bytes are
written to its buffer.

* `MessageSystem` keeps for each port the bytes that sends accepted and the bytes that receivers
  with a successful result got, since the port was created.
* `NothingLost` is the property of a step: a receive that fails leaves all queues as they were,
  and the bytes handed to receivers and those that wait are the bytes accepted.
* `KipSysReceive` compares the length of the message with the length of the buffer when it has
  taken the message off the queue. `nothing_lost_iff`: a run has the property at every step iff
  every receive that finds a message has a buffer that holds it (`Fits`).
-/

namespace NtxKernel.Ke

open Foundations Ob Ps Nk Lpc

variable {ρ : Type}

/-! ## The handlers -/

/-- The bytes of user memory that `KipSysSend` reads. -/
def userBytes (memory : U64 → UInt8) (address : U64) (length : ℕ) : List UInt8 :=
  List.ofFn fun i : Fin length => memory (address + BitVec.ofNat 64 i)

/-- The message that `KipSysSend` builds on its stack. -/
def userMessage (memory : U64 → UInt8) (address length : U64) : NkMessage where
  opcode := 0
  length := length.setWidth 32
  payload i :=
    if i.val < (length.setWidth 32).toNat then memory (address + BitVec.ofNat 64 i) else 0

/-- `KipSysSend`, where `memory` is what the sender's address space holds. -/
def kipSysSend (memory : U64 → UInt8) (s : System ρ) (handle messageAddress messageLength : U64) :
    Option (System ρ × U64) :=
  if nkMessagePayloadBytes < messageLength.toNat ∨ messageAddress = 0 then
    some (s, statusResult .invalidParameter)
  else if kipIsRangeReadable messageAddress messageLength = false then
    some (s, statusResult .invalidParameter)
  else
    (lpcSendByHandle s (handle.setWidth 32) (userMessage memory messageAddress messageLength)).map
      fun r => (r.1, statusResult (.ofExcept r.2))

/-- The bytes that `KipSysReceive` copies to the buffer. -/
def messageBytes (message : NkMessage) : List UInt8 :=
  (List.ofFn message.payload).take message.length.toNat

/-- `KipSysReceive` after `LpcReceiveByHandle`: the result and the bytes written to the buffer. -/
def receiveResult (messageLength : U64) : Except KStatus NkMessage → U64 × List UInt8
  | .error e => (statusResult e, [])
  | .ok message =>
    if (messageLength.setWidth 32).toNat < message.length.toNat then
      (statusResult .invalidParameter, [])
    else (message.length.setWidth 64, messageBytes message)

/-- A turn of `KipSysReceive`, called by the thread `current` if `PsGetCurrentThread` is not null:
the checks, and a turn of the loop of `LpcReceiveByHandle`. The result is `none` when the loop
goes on. -/
def kipSysReceiveTurn (current : Option ThreadRef) (s : System ρ)
    (handle messageAddress messageLength wait : U64) :
    Option (System ρ × Option (U64 × List UInt8)) :=
  if nkMessagePayloadBytes < messageLength.toNat ∨ messageAddress = 0 then
    some (s, some (statusResult .invalidParameter, []))
  else if kipIsRangeWritable messageAddress messageLength = false then
    some (s, some (statusResult .invalidParameter, []))
  else if s.kernel.lpc.ready = false then
    some (s, some (receiveResult messageLength (.error .invalidParameter)))
  else
    match current with
    | none => some (s, some (receiveResult messageLength (.error .invalidParameter)))
    | some current =>
      match lpcReceiveTurn current (handle.setWidth 32) (decide (wait.setWidth 32 ≠ (0 : U32)))
          s with
      | none => none
      | some (s, .again) => some (s, none)
      | some (s, .returned status) => some (s, some (receiveResult messageLength status))

/-! ## The system -/

/-- The result of a system call is an error. -/
def Failed (result : U64) : Prop := result.toInt < 0

instance (result : U64) : Decidable (Failed result) := inferInstanceAs (Decidable (_ < _))

/-- The steps: calls of the port manager, and the system calls that send and receive. -/
inductive MessageCall
  | port (c : DeliveryCall)
  | send (memory : U64 → UInt8) (handle messageAddress messageLength : U64)
  /-- A turn of `KipSysReceive`. -/
  | receive (current : Option ThreadRef) (handle messageAddress messageLength wait : U64)

/-- The system, the bytes of the messages each port accepted and of those a receiver got since it
was created, and the result of the last system call if it returned. -/
structure MessageSystem (ρ : Type) extends System ρ where
  accepted : LpcPortRef → List (List UInt8)
  handed : LpcPortRef → List (List UInt8)
  result : Option U64

/-- Append an entry to the record of a port. -/
def logBytes (log : LpcPortRef → List (List UInt8)) (p : Option LpcPortRef) (bytes : List UInt8) :
    LpcPortRef → List (List UInt8) :=
  match p with
  | some p => Function.update log p (log p ++ [bytes])
  | none => log

/-- Forget the record of the port that a call creates. -/
def forgetCreated (s : System ρ) (log : LpcPortRef → List (List UInt8)) :
    DeliveryCall → LpcPortRef → List (List UInt8)
  | .createPort _ =>
    match (lpcpAllocatePortSlot s.kernel.lpc).2 with
    | some p => Function.update log p []
    | none => log
  | _ => log

namespace MessageSystem

open DeliverySystem (IsPort queued target)

/-- The records after a call of the port manager. -/
def afterPort (s : MessageSystem ρ) (c : DeliveryCall) (s' : System ρ) (r : DeliveryResult) :
    MessageSystem ρ :=
  match c, r with
  | .send v message, .sent (.ok _) =>
    { toSystem := s'
      accepted := logBytes s.accepted (target s.toSystem v lpcPortAccessSend) (messageBytes message)
      handed := s.handed, result := none }
  | .receive _ v _, .received (.returned (.ok message)) =>
    { toSystem := s', accepted := s.accepted
      handed := logBytes s.handed (target s.toSystem v lpcPortAccessRecv) (messageBytes message)
      result := none }
  | c, _ =>
    { toSystem := s', accepted := forgetCreated s.toSystem s.accepted c
      handed := forgetCreated s.toSystem s.handed c, result := none }

/-- Perform a call and record what it accepted, or what it handed to a receiver. -/
def perform (s : MessageSystem ρ) : MessageCall → Option (MessageSystem ρ)
  | .port c => (DeliverySystem.call s.toSystem c).map fun r => s.afterPort c r.1 r.2
  | .send memory handle a n =>
    (kipSysSend memory s.toSystem handle a n).map fun r =>
      { toSystem := r.1
        accepted :=
          if Failed r.2 then s.accepted
          else logBytes s.accepted (target s.toSystem (handle.setWidth 32) lpcPortAccessSend)
            (userBytes memory a n.toNat)
        handed := s.handed, result := some r.2 }
  | .receive current handle a n wait =>
    (kipSysReceiveTurn current s.toSystem handle a n wait).map fun r =>
      { toSystem := r.1, accepted := s.accepted
        handed :=
          match r.2 with
          | none => s.handed
          | some (result, bytes) =>
            if Failed result then s.handed
            else logBytes s.handed (target s.toSystem (handle.setWidth 32) lpcPortAccessRecv) bytes
        result := r.2.map Prod.fst }

/-- One call, as a relation. -/
def Step (s : MessageSystem ρ) (c : MessageCall) (s' : MessageSystem ρ) : Prop :=
  s.perform c = some s'

/-- A receive that finds a message has a buffer that holds it. -/
def Fits (s : MessageSystem ρ) : MessageCall → Prop
  | .receive current handle a n _ =>
    n.toNat ≤ nkMessagePayloadBytes → a ≠ 0 → kipIsRangeWritable a n = true → current ≠ none →
      ∀ p message, target s.toSystem (handle.setWidth 32) lpcPortAccessRecv = some p →
        (queued s.toSystem p).head? = some message → message.length.toNat ≤ n.toNat
  | _ => True

end MessageSystem

open MessageSystem DeliverySystem

/-- The property of a step from `s` by the call `c`. -/
structure NothingLost (s : MessageSystem ρ) (c : MessageCall) (s' : MessageSystem ρ) : Prop where
  /-- A system call that fails leaves every queue as it was. -/
  unchanged : ∀ result, s'.result = some result → Failed result →
    ∀ p, queued s'.toSystem p = queued s.toSystem p
  /-- What receivers got, followed by what waits, is what was accepted. -/
  accounted : ∀ p, IsPort s'.toSystem p →
    s'.handed p ++ (queued s'.toSystem p).map messageBytes = s'.accepted p

/-! ## Status codes -/

theorem failed_statusResult {e : KStatus} (h : e ≠ .success) : Failed (statusResult e) := by
  cases e with
  | success => exact absurd rfl h
  | notImplemented | invalidParameter | initFailed | notFound | alreadyInitialized | accessDenied
  | wouldBlock => decide

theorem not_failed_success : ¬Failed (statusResult .success) := by decide

theorem obReferenceObjectByHandle_ne_success {σ : Type} {ob ob' : ObState σ} {v desired : U32}
    {expected : Option TypeRef} {e : KStatus}
    (h : obReferenceObjectByHandle ob v desired expected = (ob', .error e)) : e ≠ .success := by
  rw [obReferenceObjectByHandle] at h
  split at h
  · cases h
    exact KStatus.noConfusion
  split at h
  · cases h
    exact KStatus.noConfusion
  split at h
  · cases h
    exact KStatus.noConfusion
  split at h <;> cases h
  exact KStatus.noConfusion

theorem lpcpReferencePortByHandle_ne_success {s s' : System ρ} {v desired : U32} {e : KStatus}
    (h : lpcpReferencePortByHandle s v desired = (s', .error e)) : e ≠ .success := by
  rw [lpcpReferencePortByHandle] at h
  split at h
  · cases h
    exact KStatus.noConfusion
  split at h
  next href =>
    cases h
    exact obReferenceObjectByHandle_ne_success href
  · dsimp only at h
    split at h <;> cases h
    exact KStatus.noConfusion

theorem psReleaseCurrentThread_ne_success {ps ps' : PsState} {state : PsThreadState} {e : KStatus}
    (h : psReleaseCurrentThread ps state = some (ps', .failed e)) : e ≠ .success := by
  rw [psReleaseCurrentThread] at h
  split at h
  · cases h
    exact KStatus.noConfusion
  split at h
  · cases h
    exact KStatus.noConfusion
  rw [psDispatch] at h
  split at h
  · cases h
    exact KStatus.noConfusion
  split at h
  · cases h
    exact KStatus.noConfusion
  split at h
  · cases h
  · obtain ⟨ps₁, -, heq⟩ := Option.map_eq_some_iff.1 h
    rw [psDispatchSwitch.eq_def] at heq
    split at heq
    · split at heq <;> cases heq
    · cases heq

theorem lpcSendByHandle_ne_success {s s' : System ρ} {v : U32} {message : NkMessage} {e : KStatus}
    (h : lpcSendByHandle s v message = some (s', .error e)) : e ≠ .success := by
  rw [lpcSendByHandle] at h
  split at h
  · cases h
    exact KStatus.noConfusion
  split at h
  next href =>
    cases h
    exact lpcpReferencePortByHandle_ne_success href
  split at h
  · cases h
    exact KStatus.noConfusion
  split at h
  · cases h
  · obtain ⟨ps, -, heq⟩ := Option.map_eq_some_iff.1 h
    cases heq

theorem lpcReceiveTurn_ne_success {s s' : System ρ} {current : ThreadRef} {v : U32} {wait : Bool}
    {e : KStatus} (h : lpcReceiveTurn current v wait s = some (s', .returned (.error e))) :
    e ≠ .success := by
  rw [lpcReceiveTurn] at h
  split at h
  next href =>
    cases h
    exact lpcpReferencePortByHandle_ne_success href
  split at h
  · cases h
  split at h
  · cases h
    exact KStatus.noConfusion
  dsimp only at h
  split at h
  · cases h
  next hblock =>
    cases h
    exact psReleaseCurrentThread_ne_success hblock
  · cases h

/-! ## Bytes of messages -/

/-- A message carries the bytes read for it. -/
theorem messageBytes_userMessage (memory : U64 → UInt8) (a : U64) {n : U64}
    (h : n.toNat ≤ nkMessagePayloadBytes) :
    messageBytes (userMessage memory a n) = userBytes memory a n.toNat := by
  have hn : (n.setWidth 32).toNat = n.toNat := by
    rw [BitVec.toNat_setWidth]
    exact Nat.mod_eq_of_lt (h.trans_lt (by decide))
  have hlength : (messageBytes (userMessage memory a n)).length = n.toNat := by
    rw [messageBytes, List.length_take, List.length_ofFn, userMessage, hn]
    exact Nat.min_eq_left h
  refine List.ext_getElem (hlength.trans List.length_ofFn.symm) fun i hi _ => ?_
  rw [hlength] at hi
  simp only [messageBytes, userBytes, userMessage, List.getElem_take, List.getElem_ofFn, hn,
    if_pos hi]

variable {s : MessageSystem ρ}

theorem map_logMessage (log : LpcPortRef → List NkMessage) (p : Option LpcPortRef)
    (message : NkMessage) :
    (fun q => (logMessage log p message q).map messageBytes) =
      logBytes (fun q => (log q).map messageBytes) p (messageBytes message) := by
  cases p with
  | none => rfl
  | some p =>
    funext q
    by_cases h : q = p
    · rw [h, logMessage, logBytes, Function.update_self, Function.update_self, List.map_append]
      rfl
    · rw [logMessage, logBytes, Function.update_of_ne h, Function.update_of_ne h]

theorem map_clearCreated (s : System ρ) (log : LpcPortRef → List NkMessage) (c : DeliveryCall) :
    (fun q => (clearCreated s log c q).map messageBytes) =
      forgetCreated s (fun q => (log q).map messageBytes) c := by
  cases c with
  | createPort desiredAccess =>
    rw [clearCreated, forgetCreated]
    cases (lpcpAllocatePortSlot s.kernel.lpc).2 with
    | none => rfl
    | some p =>
      funext q
      dsimp only
      by_cases h : q = p
      · rw [h, Function.update_self, Function.update_self]
        rfl
      · rw [Function.update_of_ne h, Function.update_of_ne h]
  | send | receive | close | schedule => rfl

/-! ## The invariant -/

/-- The records are the bytes of messages that were delivered. -/
def Accounted (s : MessageSystem ρ) : Prop :=
  ∃ portType sent received r, DeliveryOk ⟨s.toSystem, sent, received, r⟩ portType ∧
    (s.accepted = fun p => (sent p).map messageBytes) ∧
      s.handed = fun p => (received p).map messageBytes

namespace Accounted

variable {s s' : MessageSystem ρ}

theorem accounted (h : Accounted s) {p : LpcPortRef} (hp : IsPort s.toSystem p) :
    s.handed p ++ (queued s.toSystem p).map messageBytes = s.accepted p := by
  obtain ⟨_, sent, received, _, hok, haccepted, hhanded⟩ := h
  rw [haccepted, hhanded]
  exact List.map_append.symm.trans (congrArg (List.map messageBytes) (hok.delivered p hp))

/-- The records of bytes follow the records of messages. -/
theorem afterPort_eq (d : DeliverySystem ρ) (result : Option U64) (c : DeliveryCall)
    (s' : System ρ) (r : DeliveryResult) :
    afterPort ⟨d.toSystem, fun p => (d.sent p).map messageBytes,
        fun p => (d.received p).map messageBytes, result⟩ c s' r =
      ⟨s', fun p => (d.sentAfter c r p).map messageBytes,
        fun p => (d.receivedAfter c r p).map messageBytes, none⟩ := by
  have hclear := fun log => (map_clearCreated d.toSystem log c).symm
  have hlog := fun log v access message =>
    (map_logMessage log (target d.toSystem v access) message).symm
  cases c with
  | createPort | close | schedule =>
    exact congrArg₂ (MessageSystem.mk s' · · none) (hclear d.sent) (hclear d.received)
  | send v message =>
    cases r with
    | sent status =>
      cases status with
      | error e => rfl
      | ok _ => exact congrArg (MessageSystem.mk s' · _ none) (hlog d.sent v _ message)
    | done | received => rfl
  | receive current v wait =>
    cases r with
    | received turn =>
      cases turn with
      | again => rfl
      | returned status =>
        cases status with
        | error e => rfl
        | ok message => exact congrArg (MessageSystem.mk s' _ · none) (hlog d.received v _ message)
    | done | sent => rfl

/-- A call of the port manager. -/
theorem port (h : Accounted s) {c : DeliveryCall} (hstep : s.Step (.port c) s') :
    Accounted s' ∧ s'.result = none := by
  obtain ⟨⟨s₁, r⟩, hcall, rfl⟩ := Option.map_eq_some_iff.1 hstep
  obtain ⟨sys, accepted, handed, result⟩ := s
  obtain ⟨portType, sent, received, r₀, hok, rfl, rfl⟩ := h
  have hstep' : DeliverySystem.Step ⟨sys, sent, received, r₀⟩ c _ :=
    Option.map_eq_some_iff.2 ⟨_, hcall, rfl⟩
  dsimp only
  rw [afterPort_eq ⟨sys, sent, received, r₀⟩]
  exact ⟨⟨portType, _, _, r, (hok.step hstep').1, rfl, rfl⟩, rfl⟩

/-- A send through the system call: it is refused, or its bytes are accepted. -/
theorem send (h : Accounted s) {memory : U64 → UInt8} {handle a n : U64}
    (hstep : s.Step (.send memory handle a n) s') :
    Accounted s' ∧ ∀ result, s'.result = some result → Failed result →
      ∀ p, queued s'.toSystem p = queued s.toSystem p := by
  obtain ⟨⟨s₁, v⟩, hsend, rfl⟩ := Option.map_eq_some_iff.1 hstep
  dsimp only
  obtain ⟨portType, sent, received, r₀, hok, haccepted, hhanded⟩ := h
  have hrefused : s₁ = s.toSystem → v = statusResult .invalidParameter →
      Accounted ⟨s₁, if Failed v then s.accepted
        else logBytes s.accepted (target s.toSystem (handle.setWidth 32) lpcPortAccessSend)
          (userBytes memory a n.toNat), s.handed, some v⟩ ∧
        ∀ result, some v = some result → Failed result →
          ∀ p, queued s₁ p = queued s.toSystem p := by
    rintro rfl rfl
    rw [if_pos (failed_statusResult KStatus.noConfusion)]
    exact ⟨⟨portType, sent, received, r₀, hok, haccepted, hhanded⟩, fun _ _ _ _ => rfl⟩
  rw [kipSysSend] at hsend
  split at hsend
  · cases hsend
    exact hrefused rfl rfl
  next hlength =>
  split at hsend
  · cases hsend
    exact hrefused rfl rfl
  obtain ⟨⟨s₂, status⟩, hcall, heq⟩ := Option.map_eq_some_iff.1 hsend
  cases heq
  have hstep' : DeliverySystem.Step ⟨s.toSystem, sent, received, r₀⟩
      (.send (handle.setWidth 32) (userMessage memory a n)) _ :=
    Option.map_eq_some_iff.2 ⟨_, Option.map_eq_some_iff.2 ⟨_, hcall, rfl⟩, rfl⟩
  obtain ⟨hok', hproperty⟩ := hok.step hstep'
  cases status with
  | error e =>
    have hfailed : Failed (statusResult (.ofExcept (.error e : Except KStatus Unit))) :=
      failed_statusResult (lpcSendByHandle_ne_success hcall)
    rw [if_pos hfailed]
    exact ⟨⟨portType, _, _, _, hok', haccepted, hhanded⟩,
      fun _ _ _ => hproperty.unchanged ⟨e, rfl⟩⟩
  | ok u =>
    have hok : ¬Failed (statusResult (.ofExcept (.ok u : Except KStatus Unit))) :=
      not_failed_success
    rw [if_neg hok]
    refine ⟨⟨portType, _, _, _, hok', ?_, hhanded⟩, fun result hresult hfailed => ?_⟩
    · dsimp only [sentAfter]
      rw [map_logMessage, haccepted,
        messageBytes_userMessage memory a (Nat.not_lt.1 (not_or.1 hlength).1)]
    · cases hresult
      exact absurd hfailed hok

end Accounted

/-! ## Receives -/

/-- A turn of a receive on a port with a message returns the first one. -/
theorem lpcReceiveTurn_of_message {s : System ρ} (hcounted : Counted s.ob) (current : ThreadRef)
    {v : U32} (wait : Bool) {p : LpcPortRef} {port : NkPort} {message : NkMessage}
    (htarget : target s v lpcPortAccessRecv = some p)
    (hreceive : nkPortReceive (s.kernel.lpc.portPool p).port = (port, .ok message)) :
    ∃ s', lpcReceiveTurn current v wait s = some (s', .returned (.ok message)) := by
  rw [target] at htarget
  rcases lpcpReferencePortByHandle_cases s hcounted v lpcPortAccessRecv with
    ⟨e, heq⟩ | ⟨ob, header, q, heq, -, -⟩
  · rw [heq] at htarget
    cases htarget
  · rw [heq] at htarget
    cases htarget
    rw [lpcReceiveTurn, heq]
    dsimp only
    rw [hreceive]
    exact ⟨_, rfl⟩

/-- The result of a turn of `KipSysReceive` whose arguments are accepted. -/
def turnResult (messageLength : U64) : ReceiveTurn → Option (U64 × List UInt8)
  | .again => none
  | .returned status => some (receiveResult messageLength status)

/-- A turn of `KipSysReceive` refuses its arguments, or it is a turn of the port manager. -/
theorem kipSysReceiveTurn_cases {current : Option ThreadRef} {s s' : System ρ}
    {handle a n wait : U64} {r : Option (U64 × List UInt8)}
    (hready : s.kernel.lpc.ready = true)
    (h : kipSysReceiveTurn current s handle a n wait = some (s', r)) :
    (s' = s ∧ r = some (statusResult .invalidParameter, []) ∧
        ¬(n.toNat ≤ nkMessagePayloadBytes ∧ a ≠ 0 ∧ kipIsRangeWritable a n = true ∧
          current ≠ none)) ∨
      n.toNat ≤ nkMessagePayloadBytes ∧ a ≠ 0 ∧ kipIsRangeWritable a n = true ∧
        ∃ t turn, current = some t ∧ r = turnResult n turn ∧
          lpcReceiveTurn t (handle.setWidth 32) (decide (wait.setWidth 32 ≠ (0 : U32))) s =
            some (s', turn) := by
  unfold kipSysReceiveTurn at h
  by_cases hlength : nkMessagePayloadBytes < n.toNat ∨ a = 0
  · rw [if_pos hlength] at h
    cases h
    exact .inl ⟨rfl, rfl, fun ⟨hn, ha, _⟩ => hlength.elim (Nat.not_lt.2 hn) ha⟩
  rw [if_neg hlength] at h
  obtain ⟨hn, ha⟩ := not_or.1 hlength
  by_cases hwritable : kipIsRangeWritable a n = false
  · rw [if_pos hwritable] at h
    cases h
    exact .inl ⟨rfl, rfl, fun ⟨_, _, hw, _⟩ => Bool.false_ne_true (hwritable.symm.trans hw)⟩
  rw [if_neg hwritable, if_neg (by rw [hready]; exact Bool.noConfusion)] at h
  cases current with
  | none =>
    cases h
    exact .inl ⟨rfl, rfl, fun ⟨_, _, _, hcurrent⟩ => hcurrent rfl⟩
  | some t =>
    refine .inr ⟨Nat.not_lt.1 hn, ha, Bool.eq_true_of_not_eq_false hwritable, t, ?_⟩
    dsimp only at h
    rcases hturn : lpcReceiveTurn t (handle.setWidth 32)
      (decide (wait.setWidth 32 ≠ (0 : U32))) s with _ | ⟨s₁, turn⟩
    · rw [hturn] at h
      cases h
    · rw [hturn] at h
      cases turn <;> cases h
      · exact ⟨_, rfl, rfl, rfl⟩
      · exact ⟨_, rfl, rfl, rfl⟩

namespace Accounted

variable {s s' : MessageSystem ρ}

/-- A turn of a receive: it loses nothing when a message that it finds fits, and otherwise it
fails with the message taken off the queue. -/
theorem receive (h : Accounted s) {current : Option ThreadRef} {handle a n wait : U64}
    (hstep : s.Step (.receive current handle a n wait) s') :
    s.Fits (.receive current handle a n wait) ∧ Accounted s' ∧
        (∀ result, s'.result = some result → Failed result →
          ∀ p, queued s'.toSystem p = queued s.toSystem p) ∨
      ¬s.Fits (.receive current handle a n wait) ∧
        ¬NothingLost s (.receive current handle a n wait) s' := by
  obtain ⟨⟨s₁, r⟩, hturn, rfl⟩ := Option.map_eq_some_iff.1 hstep
  obtain ⟨portType, sent, received, r₀, hok, haccepted, hhanded⟩ := h
  dsimp only
  rcases kipSysReceiveTurn_cases hok.links.ready hturn with
    ⟨rfl, rfl, hbad⟩ | ⟨hn, ha, hwritable, t, turn, rfl, rfl, hcall⟩
  · refine .inl ⟨fun hn ha hw hc => absurd ⟨hn, ha, hw, hc⟩ hbad, ?_, fun _ _ _ _ => rfl⟩
    dsimp only
    rw [if_pos (failed_statusResult KStatus.noConfusion)]
    exact ⟨portType, sent, received, r₀, hok, haccepted, hhanded⟩
  have hstep' : DeliverySystem.Step ⟨s.toSystem, sent, received, r₀⟩
      (.receive t (handle.setWidth 32) (decide (wait.setWidth 32 ≠ (0 : U32)))) _ :=
    Option.map_eq_some_iff.2 ⟨_, Option.map_eq_some_iff.2 ⟨_, hcall, rfl⟩, rfl⟩
  obtain ⟨hok', hproperty⟩ := hok.step hstep'
  -- a turn that returns no message found none
  have hempty : (∀ message, turn ≠ .returned (.ok message)) →
      s.Fits (.receive (some t) handle a n wait) := by
    intro hnone _ _ _ _ p message htarget hhead
    obtain ⟨q, hq⟩ : ∃ q, (queued s.toSystem p) = message :: q :=
      ⟨_, (List.eq_cons_of_mem_head? hhead)⟩
    have hp : IsPort s.toSystem p := by
      rw [target] at htarget
      split at htarget
      next href =>
        cases htarget
        exact lpcpReferencePortByHandle_isPort href
      · cases htarget
    rcases nkPortReceive_cases (hok.ring p hp) with ⟨hnil, -⟩ | ⟨port, m, hreceive, -, hcons⟩
    · cases hq.symm.trans hnil
    · obtain ⟨s₂, hs₂⟩ := lpcReceiveTurn_of_message hok.counted t
        (decide (wait.setWidth 32 ≠ (0 : U32))) htarget hreceive
      cases hcall.symm.trans hs₂
      exact absurd rfl (hnone m)
  cases turn with
  | again =>
    exact .inl ⟨hempty fun _ hm => (by cases hm), ⟨portType, _, _, _, hok', haccepted, hhanded⟩,
      fun _ hnone _ => by cases hnone⟩
  | returned status =>
    cases status with
    | error e =>
      have hfailed : Failed (statusResult e) :=
        failed_statusResult (lpcReceiveTurn_ne_success hcall)
      refine .inl ⟨hempty fun _ hm => (by cases hm), ?_, fun _ _ _ =>
        hproperty.unchanged fun _ hm => by cases hm⟩
      dsimp only [turnResult, receiveResult]
      rw [if_pos hfailed]
      exact ⟨portType, _, _, _, hok', haccepted, hhanded⟩
    | ok message =>
      rcases lpcReceiveTurn_cases hok.counted hcall with
        ⟨hnone, -⟩ | ⟨p, port, m, k, htarget, hp, hport, heq, rfl, -, hself⟩
      · exact absurd rfl (hnone message)
      cases heq
      have hcons : queued s.toSystem p = message :: queued (⟨s.ob, k⟩ : System ρ) p := by
        rcases nkPortReceive_cases (hok.ring p hp) with ⟨-, herror⟩ | ⟨port', m, hm, -, hq⟩
        · cases hport.symm.trans herror
        · cases hport.symm.trans hm
          rw [queued, queued, hq, hself]
      have hbuffer : (n.setWidth 32).toNat = n.toNat := by
        rw [BitVec.toNat_setWidth]
        exact Nat.mod_eq_of_lt (hn.trans_lt (by decide))
      by_cases hfits : message.length.toNat ≤ n.toNat
      · have hresult : receiveResult n (.ok message) =
            (message.length.setWidth 64, messageBytes message) :=
          if_neg (by rw [hbuffer]; exact Nat.not_lt.2 hfits)
        have hfailed : ¬Failed (message.length.setWidth 64) := by
          rw [Failed, BitVec.toInt_eq_toNat_of_lt] <;> rw [BitVec.toNat_setWidth] <;> omega
        refine .inl ⟨fun _ _ _ _ q m htarget' hhead => ?_, ?_, fun result hr hf => ?_⟩
        · cases htarget.symm.trans htarget'
          rw [hcons] at hhead
          cases hhead
          exact hfits
        · dsimp only [turnResult]
          rw [hresult, if_neg hfailed]
          refine ⟨portType, _, _, _, hok', haccepted, ?_⟩
          dsimp only [receivedAfter]
          rw [map_logMessage, hhanded]
        · rw [turnResult, hresult] at hr
          cases hr
          exact absurd hf hfailed
      · have hresult : receiveResult n (.ok message) = (statusResult .invalidParameter, []) :=
          if_pos (by rw [hbuffer]; exact Nat.not_le.1 hfits)
        refine .inr ⟨fun hf => hfits ?_, fun hlost => ?_⟩
        · exact hf hn ha hwritable (Option.some_ne_none _) p message htarget (by rw [hcons]; rfl)
        · have hsame := hlost.unchanged (statusResult .invalidParameter)
            (by rw [turnResult, hresult]; rfl) (failed_statusResult KStatus.noConfusion) p
          exact List.cons_ne_self message _ (hcons.symm.trans hsame.symm)

/-- A step loses nothing exactly when a message that it finds fits, and then it keeps the
invariant. -/
theorem step (h : Accounted s) {c : MessageCall} (hstep : s.Step c s') :
    (s.Fits c ↔ NothingLost s c s') ∧ (s.Fits c → Accounted s') := by
  cases c with
  | port c =>
    obtain ⟨h', hnone⟩ := h.port hstep
    exact ⟨iff_of_true trivial ⟨fun result hresult => absurd (hnone.symm.trans hresult)
      (Option.some_ne_none _).symm, fun _ => h'.accounted⟩, fun _ => h'⟩
  | send memory handle a n =>
    obtain ⟨h', hunchanged⟩ := h.send hstep
    exact ⟨iff_of_true trivial ⟨hunchanged, fun _ => h'.accounted⟩, fun _ => h'⟩
  | receive current handle a n wait =>
    rcases h.receive hstep with ⟨hfits, h', hunchanged⟩ | ⟨hfits, hlost⟩
    · exact ⟨iff_of_true hfits ⟨hunchanged, fun _ => h'.accounted⟩, fun _ => h'⟩
    · exact ⟨iff_of_false hfits hlost, fun hf => absurd hf hfits⟩

end Accounted

/-! ## Runs -/

/-- The system before any message, without ports. -/
def MessageSystem.start (s : System ρ) : MessageSystem ρ := ⟨s, fun _ => [], fun _ => [], none⟩

/-- From any state without ports, a run loses no message at any step iff at every step a receive
that finds a message has a buffer that holds it. -/
theorem nothing_lost_iff (s : System ρ) (hs : NoPorts s) (calls : List MessageCall) :
    Always MessageSystem.Step (fun s c _ => s.Fits c) (.start s) calls ↔
      Always MessageSystem.Step NothingLost (.start s) calls := by
  obtain ⟨portType, hcounted, hlinks, hnone⟩ := hs
  have hno : ∀ p, ¬IsPort s p := fun p hp => by cases (hnone p).symm.trans hp.1
  exact always_congr (I := Accounted) (fun s c s' h hfits hstep => (h.step hstep).2 hfits)
    (fun s c s' h hstep => (h.step hstep).1)
    ⟨portType, fun _ => [], fun _ => [], .done,
      ⟨hcounted, hlinks, fun p hp => absurd hp (hno p), fun p hp => absurd hp (hno p)⟩, rfl, rfl⟩
    calls

theorem nothing_lost_iff_alone :
    Always MessageSystem.Step (fun s c _ => s.Fits c) (.start bootAlone.toSystem)
        [.port (.createPort 3), .send (fun _ => 7) 4 4096 2, .receive (some 0) 4 8192 2 0] ↔
      Always MessageSystem.Step NothingLost (.start bootAlone.toSystem)
        [.port (.createPort 3), .send (fun _ => 7) 4 4096 2, .receive (some 0) 4 8192 2 0] :=
  nothing_lost_iff bootAlone.toSystem (noPorts_boot ..) _

/-- A message of two bytes does not fit into a buffer of one: it is taken off the queue of its
port, and the receive fails. -/
theorem long_message_lost :
    ¬Always MessageSystem.Step NothingLost (.start bootAlone.toSystem)
        [.port (.createPort 3), .send (fun _ => 7) 4 4096 2, .receive (some 0) 4 8192 1 0] := by
  intro h
  have hrun : (performAll MessageSystem.perform (.start bootAlone.toSystem)
      [.port (.createPort 3), .send (fun _ => 7) 4 4096 2, .receive (some 0) 4 8192 1 0]).map
        (fun s => (decide (s.kernel.lpc.portInUse 0 = true ∧
          (s.kernel.lpc.portPool 0).header ≠ none), (queued s.toSystem 0).length,
            (s.accepted 0).length, (s.handed 0).length)) = some (true, 0, 1, 0) := by
    decide +kernel
  obtain ⟨s', hs', heq⟩ := Option.map_eq_some_iff.1 hrun
  have hlost := Always.of_performAll (Q := fun s' => ∀ p, IsPort s'.toSystem p →
    s'.handed p ++ (queued s'.toSystem p).map messageBytes = s'.accepted p)
    (Always.imp (I := fun _ => True) (fun _ _ _ _ _ _ => trivial)
      (fun _ _ _ _ _ h => h.accounted) trivial h) hs'
  obtain ⟨hport, hqueued, haccepted, hhanded⟩ :
      decide (s'.kernel.lpc.portInUse 0 = true ∧ (s'.kernel.lpc.portPool 0).header ≠ none) =
        true ∧ (queued s'.toSystem 0).length = 0 ∧ (s'.accepted 0).length = 1 ∧
        (s'.handed 0).length = 0 := by
    simpa only [Prod.mk.injEq] using heq
  have hport' := of_decide_eq_true hport
  have hlength := congrArg List.length (hlost 0 hport')
  rw [List.length_append, List.length_map, hqueued, haccepted, hhanded] at hlength
  exact absurd hlength (by decide)

end NtxKernel.Ke
