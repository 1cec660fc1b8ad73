import NtxKernel.Ke.Messages

/-!
# The two workers of the message test

`KeTestIpcPingPong` creates two ports and starts two threads. In each round a thread sends a word to
the one port and receives a word from the other, which the other thread has sent. The threads share
nothing but the ports and a counter, and run in any order.

* `keIpcWorkerTurn` is what a thread does up to its next system call, or up to the next time that it
  waits.
* `InStep` relates the two threads and the messages that wait, whatever the ports are.
* `ping_pong`: in every order of turns, each thread receives the words of the other, each once and
  in order; no send is refused; a thread stops early only if the scheduler refuses to let it wait;
  the two never wait for each other; and once both have completed nothing is left in the ports.
-/

namespace NtxKernel.Ke

open Foundations Ob Ps Nk Lpc
open DeliverySystem (queued target Names)

variable {ρ : Type}

/-! ## Words in buffers -/

/-- `KeStoreU32`, where `memory` is what the address space of the thread holds. -/
def keStoreU32 (memory : U64 → UInt8) (buffer : U64) (value : U32) : U64 → UInt8 :=
  let memory := Function.update memory buffer ⟨(value &&& 0xFF).setWidth 8⟩
  let memory := Function.update memory (buffer + 1) ⟨((value >>> 8) &&& 0xFF).setWidth 8⟩
  let memory := Function.update memory (buffer + 2) ⟨((value >>> 16) &&& 0xFF).setWidth 8⟩
  Function.update memory (buffer + 3) ⟨((value >>> 24) &&& 0xFF).setWidth 8⟩

/-- `KeLoadU32`. -/
def keLoadU32 (buffer : ℕ → UInt8) : U32 :=
  (buffer 0).toBitVec.setWidth 32 ||| (buffer 1).toBitVec.setWidth 32 <<< 8 |||
    (buffer 2).toBitVec.setWidth 32 <<< 16 ||| (buffer 3).toBitVec.setWidth 32 <<< 24

/-- A byte of a word, the lowest first. -/
def wordByte (value : U32) (i : ℕ) : UInt8 := ⟨(value >>> (8 * i)).setWidth 8⟩

theorem setWidth_and_255 (x : U32) : (x &&& 0xFF).setWidth 8 = x.setWidth 8 := by
  refine BitVec.eq_of_toNat_eq ?_
  rw [BitVec.toNat_setWidth, BitVec.toNat_setWidth, BitVec.toNat_and,
    show (0xFF : U32).toNat = 2 ^ 8 - 1 from rfl, Nat.and_two_pow_sub_one_eq_mod, Nat.mod_mod]

theorem keStoreU32_byte (memory : U64 → UInt8) (buffer : U64) (value : U32) {i : ℕ} (hi : i < 4) :
    keStoreU32 memory buffer value (buffer + BitVec.ofNat 64 i) = wordByte value i := by
  have hne : ∀ j < 4, i ≠ j → buffer + BitVec.ofNat 64 i ≠ buffer + BitVec.ofNat 64 j := by
    intro j hj hij h
    rw [BitVec.add_right_inj] at h
    have hval := congrArg BitVec.toNat h
    rw [BitVec.toNat_ofNat, BitVec.toNat_ofNat] at hval
    omega
  have hzero : buffer = buffer + BitVec.ofNat 64 0 := (BitVec.add_zero buffer).symm
  have hne₁ : i ≠ 1 → buffer + BitVec.ofNat 64 i ≠ buffer + 1 := hne 1 (by decide)
  have hne₂ : i ≠ 2 → buffer + BitVec.ofNat 64 i ≠ buffer + 2 := hne 2 (by decide)
  have hne₃ : i ≠ 3 → buffer + BitVec.ofNat 64 i ≠ buffer + 3 := hne 3 (by decide)
  simp only [keStoreU32, setWidth_and_255]
  by_cases h3 : i = 3
  · rw [h3]
    exact Function.update_self _ _ _
  rw [Function.update_of_ne (hne₃ h3)]
  by_cases h2 : i = 2
  · rw [h2]
    exact Function.update_self _ _ _
  rw [Function.update_of_ne (hne₂ h2)]
  by_cases h1 : i = 1
  · rw [h1]
    exact Function.update_self _ _ _
  rw [Function.update_of_ne (hne₁ h1)]
  obtain rfl : i = 0 := by omega
  rw [← hzero, Function.update_self, wordByte, Nat.mul_zero, BitVec.ushiftRight_zero]

/-- What is stored is what is loaded. -/
theorem keLoadU32_of_bytes {buffer : ℕ → UInt8} {value : U32}
    (h : ∀ i < 4, buffer i = wordByte value i) : keLoadU32 buffer = value := by
  rw [keLoadU32, h 0 (by decide), h 1 (by decide), h 2 (by decide), h 3 (by decide)]
  simp only [wordByte]
  refine BitVec.eq_of_getLsbD_eq fun i hi => ?_
  simp only [BitVec.getLsbD_or, BitVec.getLsbD_shiftLeft, BitVec.getLsbD_setWidth,
    BitVec.getLsbD_ushiftRight]
  by_cases h8 : i < 8
  · simp [hi, h8, show i < 16 by omega, show i < 24 by omega]
  have he8 : 8 + (i - 8) = i := by omega
  by_cases h16 : i < 16
  · simp [hi, h8, h16, he8, show i < 24 by omega, show i - 8 < 32 by omega, show i - 8 < 8 by omega]
  have he16 : 16 + (i - 16) = i := by omega
  have hn8 : ¬i - 8 < 8 := by omega
  by_cases h24 : i < 24
  · simp [hi, h8, h16, h24, hn8, he16, show i - 16 < 32 by omega, show i - 16 < 8 by omega]
  have he24 : 24 + (i - 24) = i := by omega
  have hn16 : ¬i - 16 < 8 := by omega
  simp [hi, h8, h16, h24, hn8, hn16, he24, show i - 24 < 32 by omega, show i - 24 < 8 by omega]

/-- The message that carries a word. -/
def wordMessage (value : U32) : NkMessage where
  opcode := 0
  length := 4
  payload i := if i.val < 4 then wordByte value i else 0

theorem userMessage_keStoreU32 (memory : U64 → UInt8) (buffer : U64) (value : U32) :
    userMessage (keStoreU32 memory buffer value) buffer 4 = wordMessage value := by
  have hlength : ((4 : U64).setWidth 32).toNat = 4 := rfl
  rw [userMessage, wordMessage, hlength]
  congr 1
  funext i
  by_cases hi : i.val < 4
  · rw [if_pos hi, if_pos hi, keStoreU32_byte _ _ _ hi]
  · rw [if_neg hi, if_neg hi]

theorem keLoadU32_messageBytes (value : U32) :
    (keLoadU32 fun i => (messageBytes (wordMessage value)).getD i 0) = value := by
  refine keLoadU32_of_bytes fun i hi => ?_
  have hlt : i < nkMessagePayloadBytes := lt_of_lt_of_le hi (by decide)
  have hlength : (wordMessage value).length.toNat = 4 := rfl
  rw [messageBytes, hlength, List.getD_eq_getElem?_getD, List.getElem?_take_of_lt hi,
    List.getElem?_ofFn, dif_pos hlt, Option.getD_some, wordMessage]
  exact if_pos hi

theorem wordMessage_injective {v v' : U32} (h : wordMessage v = wordMessage v') : v = v' := by
  rw [← keLoadU32_messageBytes v, h, keLoadU32_messageBytes]

theorem receiveResult_wordMessage (value : U32) :
    receiveResult 4 (.ok (wordMessage value)) = (4, messageBytes (wordMessage value)) := by
  rw [receiveResult]
  exact if_neg (show ¬4 < 4 by decide)

/-! ## The threads -/

/-- Where a thread is in the loop of `KeIpcWorkerThread`: before its send, before its receive,
behind the loop, or out of it by a return. -/
inductive WorkerPc
  | send
  | receive
  | completed
  | stopped
  deriving DecidableEq

/-- `KE_IPC_WORKER_CONTEXT`. -/
structure KeIpcWorkerContext where
  sendHandle : U32
  recvHandle : U32
  iterations : U32
  roleId : U32
  outCompleted : U32

/-- A thread that runs `KeIpcWorkerThread`, with the addresses of its buffers. The words that it
loads are kept in `values`. -/
structure KeIpcWorker where
  context : KeIpcWorkerContext
  thread : ThreadRef
  sendPayload : U64
  recvPayload : U64
  index : U32
  pc : WorkerPc
  values : List U32

namespace KeIpcWorker

/-- The head of the loop. -/
def loop (w : KeIpcWorker) : KeIpcWorker :=
  if w.index.toNat < w.context.iterations.toNat then { w with pc := .send }
  else { w with pc := .completed, context := { w.context with outCompleted := 1 } }

/-- The word of a round. -/
def value (w : KeIpcWorker) (index : U32) : U32 := w.context.roleId <<< 24 ||| index

/-- The thread behind a receive that gave it a word. -/
def received (w : KeIpcWorker) (value : U32) : KeIpcWorker :=
  loop { w with index := w.index + 1, values := w.values ++ [value] }

end KeIpcWorker

/-- A turn of `KeIpcWorkerThread`: a send, a receive, or a wait in a receive. A thread behind its
loop takes no turn. -/
def keIpcWorkerTurn (memory : U64 → UInt8) (s : System ρ) (ipcIterations : U32) (w : KeIpcWorker) :
    Option (System ρ × U32 × KeIpcWorker) :=
  match w.pc with
  | .send =>
    let memory := keStoreU32 memory w.sendPayload (w.value w.index)
    (kipSysSend memory s (w.context.sendHandle.setWidth 64) w.sendPayload 4).map fun r =>
      if Failed r.2 then (r.1, ipcIterations, { w with pc := .stopped })
      else (r.1, ipcIterations, { w with pc := .receive })
  | .receive =>
    (kipSysReceiveTurn (some w.thread) s (w.context.recvHandle.setWidth 64) w.recvPayload 4 1).map
      fun r =>
        match r.2 with
        | none => (r.1, ipcIterations, w)
        | some (result, bytes) =>
          if Failed result ∨ result ≠ 4 then (r.1, ipcIterations, { w with pc := .stopped })
          else (r.1, ipcIterations + 1, w.received (keLoadU32 fun i => bytes.getD i 0))
  | .completed => none
  | .stopped => none

/-- The two threads. -/
inductive Role
  | a
  | b
  deriving DecidableEq

def Role.other : Role → Role
  | a => b
  | b => a

/-- The system, the counter and the two threads. -/
structure PingPong (ρ : Type) extends System ρ where
  ipcIterations : U32
  workers : Role → KeIpcWorker

/-- The steps: a turn of a thread, where `memory` is what its address space holds then, and whatever
the scheduler and the other threads do to the records of threads. -/
inductive PingPongCall
  | turn (r : Role) (memory : U64 → UInt8)
  | schedule (ps : PsState)

/-- The context of a thread as `KeTestIpcPingPong` fills it in. -/
def keIpcContext (portA portB : U32) : Role → KeIpcWorkerContext
  | .a => ⟨portA, portB, 1024, 1, 0⟩
  | .b => ⟨portB, portA, 1024, 2, 0⟩

/-- `KeTestIpcPingPong` up to where its threads run, with the threads that `PsCreateKernelThread`
gives it and their buffers, if both ports could be created. -/
def keTestIpcPingPong (s : System ρ) (thread : Role → ThreadRef)
    (sendPayload recvPayload : Role → U64) : Option (PingPong ρ) :=
  match lpcCreatePortHandle s lpcPortAccessAll with
  | (_, .error _) => none
  | (s, .ok portA) =>
    match lpcCreatePortHandle s lpcPortAccessAll with
    | (_, .error _) => none
    | (s, .ok portB) =>
      some
        { toSystem := s, ipcIterations := 0
          workers := fun r => KeIpcWorker.loop
            ⟨keIpcContext portA portB r, thread r, sendPayload r, recvPayload r, 0, .send, []⟩ }

namespace PingPong

/-- A step of the system. -/
def perform (s : PingPong ρ) : PingPongCall → Option (PingPong ρ)
  | .turn r memory =>
    (keIpcWorkerTurn memory s.toSystem s.ipcIterations (s.workers r)).map fun t =>
      ⟨t.1, t.2.1, Function.update s.workers r t.2.2⟩
  | .schedule ps => some { s with kernel := { s.kernel with ps := ps } }

/-- One step, as a relation. -/
def Step (s : PingPong ρ) (c : PingPongCall) (s' : PingPong ρ) : Prop := s.perform c = some s'

end PingPong

/-! ## The protocol -/

namespace Role

@[simp] theorem other_other (r : Role) : r.other.other = r := by cases r <;> rfl

theorem other_ne (r : Role) : r.other ≠ r := by cases r <;> exact Role.noConfusion

theorem eq_or_eq_other (r r' : Role) : r' = r ∨ r' = r.other := by
  cases r <;> cases r' <;> decide

theorem forall_of {P : Role → Prop} (r : Role) (h : P r) (h' : P r.other) (r' : Role) : P r' := by
  rcases r.eq_or_eq_other r' with rfl | rfl
  · exact h
  · exact h'

end Role

namespace KeIpcWorker

/-- The messages that a thread has sent. -/
def sent (w : KeIpcWorker) : ℕ :=
  w.index.toNat + if w.pc = .receive ∨ w.pc = .stopped then 1 else 0

/-- The turns that a thread has still to take, but for waits. -/
def remaining (w : KeIpcWorker) : ℕ :=
  2 * w.context.iterations.toNat - (w.index.toNat + w.sent)

/-- The place in the loop agrees with the round. -/
structure PlaceOk (w : KeIpcWorker) : Prop where
  inside : w.pc ≠ .completed → w.index.toNat < w.context.iterations.toNat
  behind : w.pc = .completed → w.index = w.context.iterations
  outCompleted : w.context.outCompleted = if w.pc = .completed then 1 else 0

end KeIpcWorker

/-- The threads and the messages that wait agree: in `queue r` are the words that the thread `r`
sent and the other has not received. -/
structure InStep (queue : Role → List NkMessage) (workers : Role → KeIpcWorker)
    (ipcIterations : U32) : Prop where
  place : ∀ r, (workers r).PlaceOk
  iterations : ∀ r, (workers r.other).context.iterations = (workers r).context.iterations
  received_le : ∀ r, (workers r.other).index.toNat ≤ (workers r).sent
  queue_eq : ∀ r, queue r =
    (List.range' (workers r.other).index.toNat
      ((workers r).sent - (workers r.other).index.toNat)).map fun i =>
        wordMessage ((workers r).value (BitVec.ofNat 32 i))
  values : ∀ r, (workers r).values =
    (List.range (workers r).index.toNat).map fun i => (workers r.other).value (BitVec.ofNat 32 i)
  counter : ∀ r, ipcIterations = (workers r).index + (workers r.other).index

namespace KeIpcWorker

variable {w : KeIpcWorker}

theorem sent_send (h : w.pc = .send) : w.sent = w.index.toNat := by
  rw [sent, if_neg (by rw [h]; decide), Nat.add_zero]

theorem sent_receive (h : w.pc = .receive) : w.sent = w.index.toNat + 1 := by
  rw [sent, if_pos (Or.inl h)]

theorem sent_completed (h : w.pc = .completed) : w.sent = w.index.toNat := by
  rw [sent, if_neg (by rw [h]; decide), Nat.add_zero]

theorem sent_le (w : KeIpcWorker) : w.index.toNat ≤ w.sent ∧ w.sent ≤ w.index.toNat + 1 := by
  rw [sent]
  split <;> omega

@[simp] theorem index_loop (w : KeIpcWorker) : w.loop.index = w.index := by
  rw [loop]
  split <;> rfl

@[simp] theorem values_loop (w : KeIpcWorker) : w.loop.values = w.values := by
  rw [loop]
  split <;> rfl

@[simp] theorem iterations_loop (w : KeIpcWorker) :
    w.loop.context.iterations = w.context.iterations := by
  rw [loop]
  split <;> rfl

@[simp] theorem value_loop (w : KeIpcWorker) : w.loop.value = w.value := by
  rw [loop]
  split <;> rfl

@[simp] theorem sent_loop (w : KeIpcWorker) : w.loop.sent = w.index.toNat := by
  by_cases h : w.index.toNat < w.context.iterations.toNat
  · rw [loop, if_pos h, sent_send rfl]
  · rw [loop, if_neg h, sent_completed rfl]

theorem loop_placeOk (hle : w.index.toNat ≤ w.context.iterations.toNat)
    (hout : w.context.outCompleted = 0) : w.loop.PlaceOk := by
  by_cases h : w.index.toNat < w.context.iterations.toNat
  · rw [loop, if_pos h]
    exact ⟨fun _ => h, fun hpc => WorkerPc.noConfusion hpc, hout⟩
  · rw [loop, if_neg h]
    have hall := BitVec.eq_of_toNat_eq (Nat.le_antisymm hle (Nat.not_lt.1 h))
    exact ⟨fun hpc => absurd rfl hpc, fun _ => hall, rfl⟩

theorem received_context (w : KeIpcWorker) (v : U32) :
    (w.received v).context.sendHandle = w.context.sendHandle ∧
      (w.received v).context.recvHandle = w.context.recvHandle ∧
        (w.received v).sendPayload = w.sendPayload ∧
          (w.received v).recvPayload = w.recvPayload := by
  rw [received, loop]
  split <;> exact ⟨rfl, rfl, rfl, rfl⟩

/-- What a receive changes. -/
theorem received_spec (h : w.PlaceOk) (hpc : w.pc = .receive) (v : U32) :
    (w.received v).PlaceOk ∧ (w.received v).index.toNat = w.index.toNat + 1 ∧
      (w.received v).index = w.index + 1 ∧ (w.received v).sent = w.sent ∧
        (w.received v).values = w.values ++ [v] ∧ (w.received v).value = w.value ∧
          (w.received v).context.iterations = w.context.iterations := by
  have hlt := h.inside (by rw [hpc]; decide)
  have hindex : (w.index + 1).toNat = w.index.toNat + 1 := by
    have := w.context.iterations.isLt
    bv_omega
  have hout : w.context.outCompleted = 0 := by rw [h.outCompleted, hpc]; rfl
  rw [received]
  refine ⟨loop_placeOk ?_ hout, ?_, ?_, ?_, ?_, ?_, ?_⟩
  · dsimp only
    omega
  · rw [index_loop]
    exact hindex
  · rw [index_loop]
  · rw [sent_loop, sent_receive hpc]
    exact hindex
  · rw [values_loop]
  · rw [value_loop]
    rfl
  · rw [iterations_loop]

end KeIpcWorker

namespace InStep

variable {queue : Role → List NkMessage} {workers : Role → KeIpcWorker} {count : U32} {r : Role}

theorem length_queue (h : InStep queue workers count) (r : Role) :
    (queue r).length = (workers r).sent - (workers r.other).index.toNat := by
  rw [h.queue_eq r, List.length_map, List.length_range']

/-- No thread is more than a round ahead of the other. -/
theorem length_le (h : InStep queue workers count) (r : Role) : (queue r).length ≤ 2 := by
  have hother := h.received_le r.other
  rw [Role.other_other] at hother
  have hr := (workers r).sent_le
  have hr' := (workers r.other).sent_le
  rw [h.length_queue]
  omega

/-- A thread sends the word of its round. -/
theorem send (h : InStep queue workers count) (hpc : (workers r).pc = .send) :
    InStep (Function.update queue r
        (queue r ++ [wordMessage ((workers r).value (workers r).index)]))
      (Function.update workers r { workers r with pc := .receive }) count := by
  have hne := r.other_ne
  have hplace := h.place r
  have hlt := hplace.inside (by rw [hpc]; decide)
  have hsent := KeIpcWorker.sent_send hpc
  have hsent' : KeIpcWorker.sent { workers r with pc := .receive } = (workers r).sent + 1 := by
    rw [KeIpcWorker.sent_receive rfl, hsent]
  have hle := h.received_le r
  have hle' := h.received_le r.other
  rw [Role.other_other] at hle'
  refine ⟨r.forall_of ?_ ?_, r.forall_of ?_ ?_, r.forall_of ?_ ?_, r.forall_of ?_ ?_,
    r.forall_of ?_ ?_, r.forall_of ?_ ?_⟩ <;>
    simp only [Function.update_self, Function.update_of_ne hne, Role.other_other]
  · exact ⟨fun _ => hlt, fun hc => WorkerPc.noConfusion hc, by rw [hplace.outCompleted, hpc]; rfl⟩
  · exact h.place r.other
  · exact h.iterations r
  · exact (h.iterations r).symm
  · rw [hsent']
    omega
  · exact hle'
  · rw [h.queue_eq r, hsent', Nat.succ_sub hle, List.range'_1_concat, List.map_append,
      List.map_singleton]
    have hnat : (workers r.other).index.toNat + ((workers r).sent - (workers r.other).index.toNat) =
        (workers r).index.toNat := by omega
    rw [hnat, BitVec.ofNat_toNat, BitVec.setWidth_eq]
    rfl
  · have hqueue := h.queue_eq r.other
    rw [Role.other_other] at hqueue
    exact hqueue
  · exact h.values r
  · have hvalues := h.values r.other
    rw [Role.other_other] at hvalues
    exact hvalues
  · exact h.counter r
  · have hcounter := h.counter r.other
    rw [Role.other_other] at hcounter
    exact hcounter

/-- A thread receives the next word of the other. -/
theorem receive (h : InStep queue workers count) (hpc : (workers r).pc = .receive)
    {v : U32} {rest : List NkMessage} (hqueue : queue r.other = wordMessage v :: rest) :
    InStep (Function.update queue r.other rest)
      (Function.update workers r ((workers r).received v)) (count + 1) := by
  have hne := r.other_ne
  have hlen := h.length_queue r.other
  have heq := h.queue_eq r.other
  rw [Role.other_other] at hlen heq
  rw [hqueue] at hlen heq
  obtain ⟨n, hn⟩ : ∃ n, (workers r.other).sent - (workers r).index.toNat = n + 1 :=
    ⟨rest.length, by rw [← hlen, List.length_cons]⟩
  rw [hn, List.range'_succ, List.map_cons, List.cons.injEq] at heq
  obtain ⟨hmessage, hrest⟩ := heq
  obtain rfl := wordMessage_injective hmessage
  obtain ⟨hplace, hindex, hindexEq, hsent, hvalues, hvalue, hiterations⟩ :=
    KeIpcWorker.received_spec (h.place r) hpc
      ((workers r.other).value (BitVec.ofNat 32 (workers r).index.toNat))
  generalize (workers r).received
    ((workers r.other).value (BitVec.ofNat 32 (workers r).index.toNat)) = w
    at hplace hindex hindexEq hsent hvalues hvalue hiterations ⊢
  have hle := h.received_le r
  have hle' := h.received_le r.other
  rw [Role.other_other] at hle'
  refine ⟨r.forall_of ?_ ?_, r.forall_of ?_ ?_, r.forall_of ?_ ?_, r.forall_of ?_ ?_,
    r.forall_of ?_ ?_, r.forall_of ?_ ?_⟩ <;>
    simp only [Function.update_self, Function.update_of_ne hne, Function.update_of_ne hne.symm,
      Role.other_other]
  · exact hplace
  · exact h.place r.other
  · rw [hiterations]
    exact h.iterations r
  · rw [hiterations]
    exact (h.iterations r).symm
  · rw [hsent]
    exact hle
  · rw [hindex]
    omega
  · rw [hsent, hvalue]
    exact h.queue_eq r
  · rw [hrest, hindex]
    congr 2
    omega
  · rw [hvalues, hindex, List.range_succ, List.map_append, List.map_singleton, h.values r]
  · have hother := h.values r.other
    rw [Role.other_other] at hother
    rw [hvalue]
    exact hother
  · rw [hindexEq, h.counter r]
    ac_rfl
  · have hother := h.counter r.other
    rw [Role.other_other] at hother
    rw [hindexEq, hother, BitVec.add_assoc]

/-- A thread returns from its loop. -/
theorem stop (h : InStep queue workers count) (hpc : (workers r).pc = .receive) :
    InStep queue (Function.update workers r { workers r with pc := .stopped }) count := by
  have hne := r.other_ne
  have hplace := h.place r
  have hsent : KeIpcWorker.sent { workers r with pc := .stopped } = (workers r).sent := by
    rw [KeIpcWorker.sent_receive hpc]
    rfl
  refine ⟨r.forall_of ?_ ?_, r.forall_of ?_ ?_, r.forall_of ?_ ?_, r.forall_of ?_ ?_,
    r.forall_of ?_ ?_, r.forall_of ?_ ?_⟩ <;>
    simp only [Function.update_self, Function.update_of_ne hne, Role.other_other]
  · exact ⟨fun _ => hplace.inside (by rw [hpc]; decide), fun hc => WorkerPc.noConfusion hc,
      by rw [hplace.outCompleted, hpc]; rfl⟩
  · exact h.place r.other
  · exact h.iterations r
  · exact (h.iterations r).symm
  · rw [hsent]
    exact h.received_le r
  · have hle := h.received_le r.other
    rw [Role.other_other] at hle
    exact hle
  · rw [hsent]
    exact h.queue_eq r
  · have hqueue := h.queue_eq r.other
    rw [Role.other_other] at hqueue
    exact hqueue
  · exact h.values r
  · have hvalues := h.values r.other
    rw [Role.other_other] at hvalues
    exact hvalues
  · exact h.counter r
  · have hcounter := h.counter r.other
    rw [Role.other_other] at hcounter
    exact hcounter

end InStep

/-! ## Turns -/

/-- A thread sends on its own port and receives from that of the other. -/
structure PortsOk (portType : TypeRef) (port : Role → LpcPortRef)
    (sendHandle recvHandle : Role → U32) (s : System ρ) : Prop where
  counted : Counted s.ob
  links : PortLinks s portType
  ring : ∀ r, (s.kernel.lpc.portPool (port r)).port.RingOk
  apart : ∀ r, port (Role.other r) ≠ port r
  sends : ∀ r, Names s (sendHandle r) lpcPortAccessSend (port r)
  receives : ∀ r, Names s (recvHandle r) lpcPortAccessRecv (port r.other)

section Turns

variable {s : System ρ} {portType : TypeRef} {port : Role → LpcPortRef}
  {sendHandle recvHandle : Role → U32} {r : Role}

/-- The messages that wait in the two ports. -/
abbrev waiting (port : Role → LpcPortRef) (s : System ρ) (r : Role) : List NkMessage :=
  queued s (port r)

theorem names_congr {k : Kernel ρ} (hports : SamePorts s.kernel.lpc k.lpc) {v access : U32}
    {p : LpcPortRef} (h : Names s v access p) : Names ⟨s.ob, k⟩ v access p := by
  obtain ⟨hv, i, e, hfind, haccess, hin, hheader⟩ := h
  exact ⟨hv, i, e, hfind, haccess, hports.portInUse ▸ hin, (hports.header p).trans hheader⟩

namespace PortsOk

/-- The same ports, with other messages. -/
theorem keep (ok : PortsOk portType port sendHandle recvHandle s) {k : Kernel ρ}
    (hports : SamePorts s.kernel.lpc k.lpc)
    (hring : ∀ r, (k.lpc.portPool (port r)).port.RingOk) :
    PortsOk portType port sendHandle recvHandle ⟨s.ob, k⟩ where
  counted := ok.counted
  links := ok.links.congr hports
  ring := hring
  apart := ok.apart
  sends r := names_congr hports (ok.sends r)
  receives r := names_congr hports (ok.receives r)

/-- The port of one thread changes its messages. -/
theorem change (ok : PortsOk portType port sendHandle recvHandle s) {k : Kernel ρ}
    {nkPort : NkPort} (hkeeps : KeepsMessages s.kernel k (· ≠ port r))
    (hself : (k.lpc.portPool (port r)).port = nkPort) (hring : nkPort.RingOk) :
    PortsOk portType port sendHandle recvHandle ⟨s.ob, k⟩ ∧
      waiting port ⟨s.ob, k⟩ = Function.update (waiting port s) r nkPort.queued := by
  have hother := hkeeps.port (port r.other) (ok.apart r)
  refine ⟨ok.keep hkeeps.ports (r.forall_of ?_ ?_), funext (r.forall_of ?_ ?_)⟩
  · rw [hself]
    exact hring
  · rw [hother]
    exact ok.ring r.other
  · rw [Function.update_self, waiting, queued, hself]
  · rw [Function.update_of_ne r.other_ne, waiting, queued, hother]

/-- The messages stay. -/
theorem stay (ok : PortsOk portType port sendHandle recvHandle s) {k : Kernel ρ}
    (hkeeps : KeepsMessages s.kernel k fun _ => True) :
    PortsOk portType port sendHandle recvHandle ⟨s.ob, k⟩ ∧
      waiting port ⟨s.ob, k⟩ = waiting port s := by
  refine ⟨ok.keep hkeeps.ports fun r => ?_, funext fun r => ?_⟩
  · rw [hkeeps.port _ trivial]
    exact ok.ring r
  · rw [waiting, queued, hkeeps.port _ trivial]

end PortsOk

theorem ne_zero_of_readable {address length : U64} (h : kipIsRangeReadable address length = true) :
    address ≠ 0 := by
  rintro rfl
  rw [kipIsRangeReadable, if_pos (Or.inl rfl)] at h
  cases h

/-- A send of a word goes through where there is room. -/
theorem kipSysSend_word (ok : PortsOk portType port sendHandle recvHandle s)
    {memory : U64 → UInt8} {buffer : U64} {value : U32}
    (hbuffer : kipIsRangeReadable buffer 4 = true)
    (hroom : (waiting port s r).length < nkPortQueueDepth) {t : System ρ × U64}
    (h : kipSysSend (keStoreU32 memory buffer value) s ((sendHandle r).setWidth 64) buffer 4 =
      some t) :
    ¬Failed t.2 ∧ PortsOk portType port sendHandle recvHandle t.1 ∧
      waiting port t.1 =
        Function.update (waiting port s) r (waiting port s r ++ [wordMessage value]) := by
  have hlength : ¬(nkMessagePayloadBytes < (4 : U64).toNat ∨ buffer = 0) := by
    rintro (h | h)
    · exact absurd h (by decide)
    · exact ne_zero_of_readable hbuffer h
  have hhandle : ((sendHandle r).setWidth 64).setWidth 32 = sendHandle r := by
    rw [BitVec.setWidth_setWidth_of_le _ (by decide), BitVec.setWidth_eq]
  rw [kipSysSend, if_neg hlength, if_neg (by rw [hbuffer]; decide), userMessage_keStoreU32,
    hhandle] at h
  obtain ⟨⟨s₁, status⟩, hsend, rfl⟩ := Option.map_eq_some_iff.1 h
  have htarget := target_of_names ok.counted ok.links (ok.sends r)
  have hword : (wordMessage value).length.toNat ≤ nkMessagePayloadBytes :=
    show 4 ≤ nkMessagePayloadBytes by decide
  rcases lpcSendByHandle_cases ok.counted hsend with
    ⟨rfl, -, hfull⟩ | ⟨p, nkPort, k, hp, -, hport, rfl, rfl, hkeeps, hself⟩
  · obtain ⟨nkPort, e, herror⟩ := hfull ok.links.ready _ htarget
    rcases nkPortSend_cases (ok.ring r) hword with ⟨hlen, -⟩ | ⟨-, port', hok, -⟩
    · exact absurd hlen hroom.ne
    · cases herror.symm.trans hok
  · obtain rfl := Option.some.inj (htarget.symm.trans hp)
    rcases nkPortSend_cases (ok.ring r) hword with ⟨-, herror⟩ | ⟨-, port', hok, hring, hqueued⟩
    · cases hport.symm.trans herror
    obtain rfl : nkPort = port' := congrArg Prod.fst (hport.symm.trans hok)
    obtain ⟨hports, hwaiting⟩ := ok.change hkeeps hself hring
    rw [hqueued] at hwaiting
    exact ⟨not_failed_success, hports, hwaiting⟩

section

variable {v : U32} {p : LpcPortRef} (current : ThreadRef) {nkPort : NkPort}

/-- A turn of a receive takes the first message. -/
theorem lpcReceiveTurn_received (hcounted : Counted s.ob)
    (htarget : target s v lpcPortAccessRecv = some p) {message : NkMessage}
    (hreceive : nkPortReceive (s.kernel.lpc.portPool p).port = (nkPort, .ok message)) :
    lpcReceiveTurn current v true s =
      some (⟨s.ob, s.kernel.modifyPort p fun o => { o with port := nkPort }⟩,
        .returned (.ok message)) := by
  rcases lpcpReferencePortByHandle_cases s hcounted v lpcPortAccessRecv with
    ⟨e, heq⟩ | ⟨ob, header, p', heq, -, hback⟩
  · rw [target, heq] at htarget
    cases htarget
  obtain rfl : p' = p := Option.some.inj ((target_eq (congrArg Prod.snd heq)).symm.trans htarget)
  simp only [lpcReceiveTurn, heq, hreceive, hback]

/-- A turn of a receive that may wait, on a port without a message. -/
theorem lpcReceiveTurn_waited (hcounted : Counted s.ob)
    (htarget : target s v lpcPortAccessRecv = some p) {e : KStatus}
    (hreceive : nkPortReceive (s.kernel.lpc.portPool p).port = (nkPort, .error e))
    {t : System ρ × ReceiveTurn} (h : lpcReceiveTurn current v true s = some t) :
    ∃ ps d, psBlockCurrentThread (lpcpEnqueueWaiter s.kernel p current).ps = some (ps, d) ∧
      t.1 = ⟨s.ob, { lpcpEnqueueWaiter s.kernel p current with ps := ps }⟩ ∧
        ((∃ e, d = .failed e ∧ t.2 = .returned (.error e)) ∨ t.2 = .again) := by
  rcases lpcpReferencePortByHandle_cases s hcounted v lpcPortAccessRecv with
    ⟨e, heq⟩ | ⟨ob, header, p', heq, -, hback⟩
  · rw [target, heq] at htarget
    cases htarget
  obtain rfl : p' = p := Option.some.inj ((target_eq (congrArg Prod.snd heq)).symm.trans htarget)
  simp only [lpcReceiveTurn, heq, hreceive, hback] at h
  cases hblock : psBlockCurrentThread (lpcpEnqueueWaiter s.kernel p' current).ps with
  | none => simp [hblock] at h
  | some d =>
    obtain ⟨ps, d⟩ := d
    cases d <;> simp [hblock] at h <;> subst h <;> simp

end

/-- A turn of a receive takes the first word, or it finds none. -/
theorem kipSysReceiveTurn_word (ok : PortsOk portType port sendHandle recvHandle s)
    (hwords : ∀ message ∈ waiting port s r.other, ∃ value, message = wordMessage value)
    {buffer : U64} (hbuffer : kipIsRangeWritable buffer 4 = true) {thread : ThreadRef}
    {t : System ρ × Option (U64 × List UInt8)}
    (h : kipSysReceiveTurn (some thread) s ((recvHandle r).setWidth 64) buffer 4 1 = some t) :
    PortsOk portType port sendHandle recvHandle t.1 ∧
      ((∃ value rest, waiting port s r.other = wordMessage value :: rest ∧
          t.2 = some (4, messageBytes (wordMessage value)) ∧
          waiting port t.1 = Function.update (waiting port s) r.other rest) ∨
        waiting port s r.other = [] ∧ waiting port t.1 = waiting port s ∧
          (t.2 = none ∨ ∃ e ps, e ≠ .success ∧ t.2 = some (statusResult e, []) ∧
            psBlockCurrentThread (lpcpEnqueueWaiter s.kernel (port r.other) thread).ps =
              some (ps, .failed e))) := by
  have hlength : ¬(nkMessagePayloadBytes < (4 : U64).toNat ∨ buffer = 0) := by
    rintro (h | h)
    · exact absurd h (by decide)
    · exact ne_zero_of_readable hbuffer h
  have hhandle : ((recvHandle r).setWidth 64).setWidth 32 = recvHandle r := by
    rw [BitVec.setWidth_setWidth_of_le _ (by decide), BitVec.setWidth_eq]
  have hwait : decide ((1 : U64).setWidth 32 ≠ (0 : U32)) = true := by decide
  rw [kipSysReceiveTurn, if_neg hlength, if_neg (by rw [hbuffer]; decide),
    if_neg (by rw [ok.links.ready]; decide), hhandle, hwait] at h
  have htarget := target_of_names ok.counted ok.links (ok.receives r)
  rcases nkPortReceive_cases (ok.ring r.other) with
    ⟨hempty, hnone⟩ | ⟨nkPort, message, hok, hring, hcons⟩
  · have hkeeps : ∀ ps, KeepsMessages s.kernel
        { lpcpEnqueueWaiter s.kernel (port r.other) thread with ps := ps } fun _ => True := by
      have henq := lpcpEnqueueWaiter_spec s.kernel (port r.other) thread
      refine fun ps => ⟨henq.agree.ports, fun q _ => ?_⟩
      by_cases hq : q = port r.other
      · rw [hq]
        exact henq.port
      · exact congrArg LpcPortObject.port (henq.other q hq)
    cases hturn : lpcReceiveTurn thread (recvHandle r) true s with
    | none =>
      rw [hturn] at h
      cases h
    | some u =>
      obtain ⟨s', turn⟩ := u
      obtain ⟨ps, d, hblock, rfl, hd⟩ :=
        lpcReceiveTurn_waited thread ok.counted htarget hnone hturn
      obtain ⟨hports, hsame⟩ := ok.stay (hkeeps ps)
      rw [hturn] at h
      rcases hd with ⟨e, rfl, rfl⟩ | rfl
      · cases h
        refine ⟨hports, Or.inr ⟨hempty, hsame, Or.inr ⟨e, ps, ?_, rfl, hblock⟩⟩⟩
        exact psReleaseCurrentThread_ne_success hblock
      · cases h
        exact ⟨hports, Or.inr ⟨hempty, hsame, Or.inl rfl⟩⟩
  · obtain ⟨value, rfl⟩ := hwords message (by rw [waiting, queued, hcons]; exact List.mem_cons_self)
    rw [lpcReceiveTurn_received thread ok.counted htarget hok] at h
    dsimp only at h
    rw [receiveResult_wordMessage] at h
    cases h
    have hself : ((s.kernel.modifyPort (port r.other) fun o =>
        { o with port := nkPort }).lpc.portPool (port r.other)).port = nkPort := by
      rw [Kernel.modifyPort_self]
    obtain ⟨hports, hwaiting⟩ :=
      ok.change (KeepsMessages.modifyPort s.kernel (port r.other) nkPort) hself hring
    exact ⟨hports, Or.inl ⟨value, nkPort.queued, hcons, rfl, hwaiting⟩⟩

end Turns

/-! ## The system -/

namespace PingPong

/-- The turns that the threads have still to take, but for waits. -/
def remaining (s : PingPong ρ) : ℕ := (s.workers .a).remaining + (s.workers .b).remaining

/-- The ports, the handles and buffers of the threads, and the protocol. -/
structure Inv (portType : TypeRef) (port : Role → LpcPortRef) (sendHandle recvHandle : Role → U32)
    (s : PingPong ρ) : Prop where
  ports : PortsOk portType port sendHandle recvHandle s.toSystem
  handles : ∀ r, (s.workers r).context.sendHandle = sendHandle r ∧
    (s.workers r).context.recvHandle = recvHandle r
  buffers : ∀ r, kipIsRangeReadable (s.workers r).sendPayload 4 = true ∧
    kipIsRangeWritable (s.workers r).recvPayload 4 = true
  inStep : InStep (waiting port s.toSystem) s.workers s.ipcIterations

namespace Inv

variable {portType : TypeRef} {port : Role → LpcPortRef} {sendHandle recvHandle : Role → U32}
  {s s' : PingPong ρ} {r : Role}

/-- The thread of a turn has the same handles and buffers behind it. -/
theorem update (inv : Inv portType port sendHandle recvHandle s) {t : System ρ} {count : U32}
    {w : KeIpcWorker} (ports : PortsOk portType port sendHandle recvHandle t)
    (hhandles : w.context.sendHandle = (s.workers r).context.sendHandle ∧
      w.context.recvHandle = (s.workers r).context.recvHandle)
    (hbuffers : w.sendPayload = (s.workers r).sendPayload ∧
      w.recvPayload = (s.workers r).recvPayload)
    (inStep : InStep (waiting port t) (Function.update s.workers r w) count) :
    Inv portType port sendHandle recvHandle ⟨t, count, Function.update s.workers r w⟩ := by
  refine ⟨ports, r.forall_of ?_ ?_, r.forall_of ?_ ?_, inStep⟩ <;>
    simp only [Function.update_self, Function.update_of_ne r.other_ne]
  · rw [hhandles.1, hhandles.2]
    exact inv.handles r
  · exact inv.handles r.other
  · rw [hbuffers.1, hbuffers.2]
    exact inv.buffers r
  · exact inv.buffers r.other

/-- How a turn goes: a send, a receive, or a wait in a receive that may be refused. -/
theorem turn_cases (inv : Inv portType port sendHandle recvHandle s) {memory : U64 → UInt8}
    (hstep : s.Step (.turn r memory) s') :
    ∃ w, s'.workers = Function.update s.workers r w ∧
      Inv portType port sendHandle recvHandle s' ∧
      ((s.workers r).pc = .send ∧ w = { s.workers r with pc := .receive } ∨
        (s.workers r).pc = .receive ∧ (∃ v, w = (s.workers r).received v) ∧
          waiting port s.toSystem r.other ≠ [] ∨
        (s.workers r).pc = .receive ∧ waiting port s.toSystem r.other = [] ∧
          (w = s.workers r ∨ w = { s.workers r with pc := .stopped } ∧ ∃ e ps,
            psBlockCurrentThread
              (lpcpEnqueueWaiter s.kernel (port r.other) (s.workers r).thread).ps =
                some (ps, .failed e))) := by
  obtain ⟨t, hturn, rfl⟩ := Option.map_eq_some_iff.1 hstep
  rw [keIpcWorkerTurn] at hturn
  cases hpc : (s.workers r).pc with
  | send =>
    rw [hpc] at hturn
    dsimp only at hturn
    obtain ⟨q, hsend, rfl⟩ := Option.map_eq_some_iff.1 hturn
    rw [(inv.handles r).1] at hsend
    have hroom : (waiting port s.toSystem r).length < nkPortQueueDepth :=
      lt_of_le_of_lt (inv.inStep.length_le r) (by decide)
    obtain ⟨hnot, hports, hwaiting⟩ :=
      kipSysSend_word inv.ports (inv.buffers r).1 hroom hsend
    rw [if_neg hnot]
    refine ⟨_, rfl, inv.update hports ⟨rfl, rfl⟩ ⟨rfl, rfl⟩ ?_, Or.inl ⟨rfl, rfl⟩⟩
    rw [hwaiting]
    exact inv.inStep.send hpc
  | receive =>
    rw [hpc] at hturn
    dsimp only at hturn
    obtain ⟨q, hreceive, rfl⟩ := Option.map_eq_some_iff.1 hturn
    rw [(inv.handles r).2] at hreceive
    have hwords : ∀ message ∈ waiting port s.toSystem r.other, ∃ v, message = wordMessage v := by
      intro message hmem
      rw [inv.inStep.queue_eq r.other] at hmem
      obtain ⟨i, -, hi⟩ := List.mem_map.1 hmem
      exact ⟨_, hi.symm⟩
    obtain ⟨hports, ⟨v, rest, hqueue, hresult, hwaiting⟩ | ⟨hempty, hwaiting, hresult⟩⟩ :=
      kipSysReceiveTurn_word inv.ports hwords (inv.buffers r).2 hreceive
    · rw [hresult]
      dsimp only
      rw [if_neg (by decide), keLoadU32_messageBytes]
      obtain ⟨hsend, hrecv, hsendPayload, hrecvPayload⟩ :=
        KeIpcWorker.received_context (s.workers r) v
      refine ⟨_, rfl, inv.update hports ⟨hsend, hrecv⟩ ⟨hsendPayload, hrecvPayload⟩ ?_,
        Or.inr (Or.inl ⟨rfl, ⟨v, rfl⟩, ?_⟩)⟩
      · rw [hwaiting]
        exact inv.inStep.receive hpc hqueue
      · rw [hqueue]
        exact List.cons_ne_nil _ _
    · rcases hresult with hresult | ⟨e, ps, he, hresult, hblock⟩
      · rw [hresult]
        dsimp only
        refine ⟨_, rfl, inv.update hports ⟨rfl, rfl⟩ ⟨rfl, rfl⟩ ?_,
          Or.inr (Or.inr ⟨rfl, hempty, Or.inl rfl⟩)⟩
        rw [hwaiting, Function.update_eq_self]
        exact inv.inStep
      · rw [hresult]
        dsimp only
        rw [if_pos (Or.inl (failed_statusResult he))]
        refine ⟨_, rfl, inv.update hports ⟨rfl, rfl⟩ ⟨rfl, rfl⟩ ?_,
          Or.inr (Or.inr ⟨rfl, hempty, Or.inr ⟨rfl, e, ps, hblock⟩⟩)⟩
        rw [hwaiting]
        exact inv.inStep.stop hpc
  | completed =>
    rw [hpc] at hturn
    cases hturn
  | stopped =>
    rw [hpc] at hturn
    cases hturn

/-- A step keeps the invariant. -/
theorem step (inv : Inv portType port sendHandle recvHandle s) {c : PingPongCall}
    (hstep : s.Step c s') : Inv portType port sendHandle recvHandle s' := by
  cases c with
  | turn r memory =>
    obtain ⟨-, -, inv', -⟩ := inv.turn_cases hstep
    exact inv'
  | schedule ps =>
    cases hstep
    have hkeeps : KeepsMessages s.kernel { s.kernel with ps := ps } fun _ => True :=
      ⟨⟨rfl, rfl, rfl, fun _ => rfl⟩, fun _ _ => rfl⟩
    obtain ⟨hports, hwaiting⟩ := inv.ports.stay hkeeps
    refine ⟨hports, inv.handles, inv.buffers, ?_⟩
    dsimp only
    rw [hwaiting]
    exact inv.inStep

end Inv

end PingPong

/-! ## The start -/

/-- A call of `LpcCreatePortHandle` that gave the handle `v` to the new port `p`. -/
structure PortOpened (s s' : System ρ) (access v : U32) (p : LpcPortRef) : Prop where
  free : s.kernel.lpc.portInUse p = false
  value : v = s.ob.kernelHandleTable.nextHandle
  inUse : s'.kernel.lpc.portInUse = Function.update s.kernel.lpc.portInUse p true
  other : ∀ q ≠ p, s'.kernel.lpc.portPool q = s.kernel.lpc.portPool q
  entry : ∃ o i, (s'.kernel.lpc.portPool p).header = some o ∧
    s.ob.kernelHandleTable.entries i = none ∧ s'.ob.kernelHandleTable =
      ⟨Function.update s.ob.kernelHandleTable.entries i (some ⟨v, o, access⟩), v + 4⟩
  ring : (s'.kernel.lpc.portPool p).port.RingOk
  empty : queued s' p = []

/-- No handle has the value that the next one will have. -/
def NextUnissued (s : System ρ) : Prop :=
  s.ob.kernelHandleTable.nextHandle ≠ 0 ∧ ∀ i e, s.ob.kernelHandleTable.entries i = some e →
    e.handleValue ≠ s.ob.kernelHandleTable.nextHandle

section Start

variable {s s' : System ρ} {portType : TypeRef} {access v : U32} {p : LpcPortRef}

theorem lpcCreatePortHandle_opened (hcounted : Counted s.ob) (h : PortLinks s portType)
    (hcreate : lpcCreatePortHandle s access = (s', .ok v)) :
    Counted s'.ob ∧ PortLinks s' portType ∧ ∃ p, PortOpened s s' access v p := by
  obtain ⟨ob, k⟩ := s
  have hready : k.lpc.ready = true := h.ready
  rw [lpcCreatePortHandle, if_neg (by rw [hready]; decide)] at hcreate
  dsimp only at hcreate
  rcases lpcpAllocatePortSlot_cases k with ⟨lpc, hfull⟩ | ⟨p, hp, hslot⟩
  · rw [hfull] at hcreate
    cases hcreate
  have htype : (k.clearPort p true).lpc.portType = some portType := h.portType_eq
  rw [hslot] at hcreate
  dsimp only at hcreate
  rw [htype] at hcreate
  rcases hobject : obCreateObject ob (some portType) (some lpcPortName) lpcPortAccessAll
    obFlagWaitable with ⟨ob₁, e | o⟩
  · rw [hobject] at hcreate
    cases hcreate
  rw [hobject] at hcreate
  dsimp only at hcreate
  change ((System.mk (obInsertHandle ob₁ o access).1 (k.openPort p o)).dereference o,
    (obInsertHandle ob₁ o access).2) = (s', .ok v) at hcreate
  rw [Prod.mk.injEq] at hcreate
  obtain ⟨rfl, hstatus⟩ := hcreate
  have hlinks : PortLinks ⟨(obInsertHandle ob₁ o access).1, k.openPort p o⟩ portType :=
    h.created hobject (p := p) rfl rfl rfl (by rw [Kernel.openPort_self])
      fun q hq => by rw [Kernel.openPort_of_ne _ hq]
  refine ⟨hcounted.create hobject _, hlinks.dereferenced o, p, ?_⟩
  -- the object has the reference of its creator, and then that of the handle
  obtain ⟨hcount, htable, hobReady⟩ : (ob₁.objectPool o).refCount = 1 ∧
      ob₁.kernelHandleTable = ob.kernelHandleTable ∧ ob₁.ready = ob.ready := by
    rcases obCreateObject_cases ob (some portType) (some lpcPortName) lpcPortAccessAll
      obFlagWaitable with ⟨e, heq⟩ | ⟨o', t, nm, -, -, -, heq⟩
    · cases hobject.symm.trans heq
    · cases hobject.symm.trans heq
      refine ⟨?_, rfl, rfl⟩
      dsimp only
      rw [Function.update_self]
  rcases obInsertHandle_cases ob₁ o access with ⟨-, e, heq⟩ | ⟨i, hi, -, heq⟩
  · rw [heq] at hstatus
    cases hstatus
  have hv : v = ob.kernelHandleTable.nextHandle := by
    rw [heq] at hstatus
    rw [← htable]
    exact (Except.ok.inj hstatus).symm
  have hready₂ : (obInsertHandle ob₁ o access).1.ready = true := by
    obtain ⟨_, _, _, _, hlife, -⟩ := hcounted
    rw [heq]
    exact hobReady.trans hlife.ready
  have hcount₂ : ((obInsertHandle ob₁ o access).1.objectPool o).refCount = 2 := by
    rw [heq]
    dsimp only
    rw [Function.update_self, hcount]
    rfl
  have htable₂ : (obInsertHandle ob₁ o access).1.kernelHandleTable =
      ⟨Function.update ob.kernelHandleTable.entries i (some ⟨v, o, access⟩), v + 4⟩ := by
    rw [heq, hv, ← htable]
  rw [htable] at hi
  rw [System.dereference]
  generalize (obInsertHandle ob₁ o access).1 = ob₂ at hready₂ hcount₂ htable₂ ⊢
  dsimp only
  rcases obDereferenceObject_cases ob₂ (k.openPort p o) o with
    ⟨hguard, -⟩ | ⟨-, -, -, hback⟩ | ⟨-, hone, -⟩
  · rw [hready₂, hcount₂] at hguard
    exact absurd hguard (by decide)
  · rw [hback]
    refine ⟨hp, hv, rfl, fun q hq => ?_, ⟨o, i, ?_, hi, htable₂⟩, ?_, ?_⟩
    · exact Kernel.openPort_of_ne _ hq o
    · dsimp only
      rw [Kernel.openPort_self]
    · dsimp only
      rw [Kernel.openPort_self]
      exact nkPortInitialize_ringOk _
    · rw [queued]
      dsimp only
      rw [Kernel.openPort_self]
      exact queued_nkPortInitialize _
  · rw [hcount₂] at hone
    cases hone

/-- The handle of a new port names it. -/
theorem PortOpened.names (h : PortOpened s s' access v p) (hnext : NextUnissued s) {desired : U32}
    (hdesired : access &&& desired = desired) : Names s' v desired p := by
  obtain ⟨o, i, hheader, hi, htable⟩ := h.entry
  have hzero : v ≠ 0 := h.value ▸ hnext.1
  refine ⟨hzero, i, ⟨v, o, access⟩, ?_, hdesired, ?_, hheader⟩
  · rw [htable, obpFindHandleEntry_eq_some]
    refine ⟨Function.update_self _ _ _, rfl, fun j hj e' he' => ?_⟩
    dsimp only at he'
    rw [Function.update_of_ne hj.ne] at he'
    rw [h.value]
    exact hnext.2 j e' he'
  · rw [h.inUse]
    exact Function.update_self _ _ _

/-- Handles of other ports name them as before. -/
theorem PortOpened.names_old (h : PortOpened s s' access v p) (hnext : NextUnissued s)
    {w desired : U32} {q : LpcPortRef} (hnames : Names s w desired q) :
    Names s' w desired q ∧ q ≠ p := by
  obtain ⟨o, i, -, hi, htable⟩ := h.entry
  obtain ⟨hw, j, e, hfind, haccess, hin, hheader⟩ := hnames
  have hq : q ≠ p := by
    rintro rfl
    cases hin.symm.trans h.free
  obtain ⟨hj, hvalue, hfirst⟩ := obpFindHandleEntry_eq_some.1 hfind
  refine ⟨⟨hw, j, e, ?_, haccess, ?_, ?_⟩, hq⟩
  · have hji : j ≠ i := by
      rintro rfl
      cases hj.symm.trans hi
    rw [htable, obpFindHandleEntry_eq_some]
    refine ⟨(Function.update_of_ne hji _ _).trans hj, hvalue, fun j' hj' e' he' => ?_⟩
    dsimp only at he'
    by_cases hi' : j' = i
    · rw [hi', Function.update_self] at he'
      cases he'
      rw [← hvalue, h.value]
      exact (hnext.2 j e hj).symm
    · rw [Function.update_of_ne hi'] at he'
      exact hfirst j' hj' e' he'
  · rw [h.inUse, Function.update_of_ne hq]
    exact hin
  · rw [h.other q hq]
    exact hheader

end Start

namespace PingPong

/-- A system in which references are counted and ports are in order, and whose handle values have
not wrapped. -/
structure Startable (s : System ρ) : Prop where
  counted : Counted s.ob
  links : ∃ portType, PortLinks s portType
  issued : ∀ i e, s.ob.kernelHandleTable.entries i = some e →
    e.handleValue.toNat < s.ob.kernelHandleTable.nextHandle.toNat
  next_pos : 0 < s.ob.kernelHandleTable.nextHandle.toNat
  next_lt : s.ob.kernelHandleTable.nextHandle.toNat + 8 < 2 ^ 32

theorem Startable.inv {s : System ρ} (h : Startable s) {thread : Role → ThreadRef}
    {sendPayload recvPayload : Role → U64}
    (hbuffers : ∀ r, kipIsRangeReadable (sendPayload r) 4 = true ∧
      kipIsRangeWritable (recvPayload r) 4 = true) {start : PingPong ρ}
    (hstart : keTestIpcPingPong s thread sendPayload recvPayload = some start) :
    ∃ portType port sendHandle recvHandle, Inv portType port sendHandle recvHandle start := by
  obtain ⟨portType, hlinks⟩ := h.links
  rw [keTestIpcPingPong] at hstart
  rcases hA : lpcCreatePortHandle s lpcPortAccessAll with ⟨s₁, e | portA⟩
  · rw [hA] at hstart
    cases hstart
  rw [hA] at hstart
  dsimp only at hstart
  rcases hB : lpcCreatePortHandle s₁ lpcPortAccessAll with ⟨s₂, e | portB⟩
  · rw [hB] at hstart
    cases hstart
  rw [hB] at hstart
  cases hstart
  obtain ⟨hcounted₁, hlinks₁, a, opened₁⟩ := lpcCreatePortHandle_opened h.counted hlinks hA
  obtain ⟨hcounted₂, hlinks₂, b, opened₂⟩ := lpcCreatePortHandle_opened hcounted₁ hlinks₁ hB
  have hnext : NextUnissued s := by
    refine ⟨fun hzero => ?_, fun i e he heq => ?_⟩
    · have hpos := h.next_pos
      rw [hzero] at hpos
      exact Nat.lt_irrefl _ hpos
    · have hlt := h.issued i e he
      rw [heq] at hlt
      exact Nat.lt_irrefl _ hlt
  have hnext₁ : NextUnissued s₁ := by
    obtain ⟨o, i, -, hi, htable⟩ := opened₁.entry
    have hpos := h.next_pos
    have hlt := h.next_lt
    have hfour : (portA + 4).toNat = s.ob.kernelHandleTable.nextHandle.toNat + 4 := by
      rw [opened₁.value]
      bv_omega
    rw [NextUnissued, htable]
    refine ⟨fun hzero => ?_, fun j e he heq => ?_⟩
    · dsimp only at hzero
      rw [hzero] at hfour
      cases hfour
    · dsimp only at he heq
      by_cases hj : j = i
      · rw [hj, Function.update_self] at he
        cases he
        dsimp only at heq
        rw [← heq, opened₁.value] at hfour
        omega
      · rw [Function.update_of_ne hj] at he
        have hissued := h.issued j e he
        rw [heq] at hissued
        omega
  have hall : ∀ r : Role, lpcPortAccessAll &&& lpcPortAccessSend = lpcPortAccessSend ∧
      lpcPortAccessAll &&& lpcPortAccessRecv = lpcPortAccessRecv := fun _ => by decide
  have hsendA := opened₂.names_old hnext₁ (opened₁.names hnext (hall .a).1)
  have hrecvA := opened₂.names_old hnext₁ (opened₁.names hnext (hall .a).2)
  have hsendB := opened₂.names hnext₁ (hall .b).1
  have hrecvB := opened₂.names hnext₁ (hall .b).2
  have hpoolA := opened₂.other a hsendA.2
  have hemptyA : queued s₂ a = [] := by
    rw [queued, hpoolA]
    exact opened₁.empty
  refine ⟨portType, (Role.rec a b ·), (Role.rec portA portB ·), (Role.rec portB portA ·),
    ⟨hcounted₂, hlinks₂, Role.forall_of .a ?_ ?_, Role.forall_of .a ?_ ?_, Role.forall_of .a ?_ ?_,
      Role.forall_of .a ?_ ?_⟩, Role.forall_of .a ?_ ?_, Role.forall_of .a ?_ ?_, ?_⟩
  · rw [hpoolA]
    exact opened₁.ring
  · exact opened₂.ring
  · exact hsendA.2.symm
  · exact hsendA.2
  · exact hsendA.1
  · exact hsendB
  · exact hrecvB
  · exact hrecvA.1
  · exact ⟨rfl, rfl⟩
  · exact ⟨rfl, rfl⟩
  · exact hbuffers .a
  · exact hbuffers .b
  have hworkers : ∀ r, KeIpcWorker.loop ⟨keIpcContext portA portB r, thread r, sendPayload r,
      recvPayload r, 0, .send, []⟩ = ⟨keIpcContext portA portB r, thread r, sendPayload r,
        recvPayload r, 0, .send, []⟩ := fun r => by cases r <;> rfl
  simp only [hworkers]
  refine ⟨fun r => ?_, fun r => ?_, fun r => Nat.zero_le _, Role.forall_of .a ?_ ?_, fun r => rfl,
    fun r => rfl⟩
  · cases r <;> exact ⟨fun _ => show 0 < 1024 by decide, fun hpc => WorkerPc.noConfusion hpc, rfl⟩
  · cases r <;> rfl
  · exact hemptyA
  · exact opened₂.empty

end PingPong

end NtxKernel.Ke
