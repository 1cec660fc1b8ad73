import NtxKernel.Basic
import NtxKernel.Foundations.Ring

/-!
# Message ports

The bounded message queue of `kernel/nk/core.c`: a ring of `NK_PORT_QUEUE_DEPTH` messages with a
head, a tail and a count. Head and tail are positions of the ring, so advancing them wraps.

`NkPort.queued` is the list of the messages that wait. In a port that satisfies `NkPort.RingOk`,
`NkPortSend` appends to that list and `NkPortReceive` takes its first message off.
-/

namespace NtxKernel.Nk

open Foundations

/-- `NK_PORT_QUEUE_DEPTH`. -/
abbrev nkPortQueueDepth : ℕ := 32

/-- `NK_MESSAGE_PAYLOAD_BYTES`. -/
abbrev nkMessagePayloadBytes : ℕ := 64

/-- `NK_MESSAGE`. -/
structure NkMessage where
  opcode : U32
  length : U32
  payload : Fin nkMessagePayloadBytes → UInt8

/-- `NK_PORT`. -/
structure NkPort where
  queue : Fin nkPortQueueDepth → NkMessage
  head : Fin nkPortQueueDepth
  tail : Fin nkPortQueueDepth
  count : U32

/-- A port of the statically allocated pool, all zero. -/
def NkPort.zero : NkPort := ⟨fun _ => ⟨0, 0, fun _ => 0⟩, 0, 0, 0⟩

/-- `NkPortInitialize`: the payloads of old messages stay. -/
def nkPortInitialize (port : NkPort) : NkPort where
  queue i := { port.queue i with opcode := 0, length := 0 }
  head := 0
  tail := 0
  count := 0

/-- `NkPortSend`. -/
def nkPortSend (port : NkPort) (message : NkMessage) : NkPort × Except KStatus Unit :=
  if nkMessagePayloadBytes < message.length.toNat then (port, .error .invalidParameter)
  else if nkPortQueueDepth ≤ port.count.toNat then (port, .error .initFailed)
  else
    ({ port with
        queue := Function.update port.queue port.tail message
        tail := port.tail + 1
        count := port.count + 1 }, .ok ())

/-- `NkPortReceive`. -/
def nkPortReceive (port : NkPort) : NkPort × Except KStatus NkMessage :=
  if port.count = 0 then (port, .error .initFailed)
  else
    ({ port with head := port.head + 1, count := port.count - 1 }, .ok (port.queue port.head))

/-! ## The messages that wait -/

namespace NkPort

/-- The messages that wait, the first one to be received first. -/
def queued (port : NkPort) : List NkMessage :=
  Ring.contents port.queue port.head port.count.toNat

/-- The count is within the depth, and the tail is the position behind the last message. -/
structure RingOk (port : NkPort) : Prop where
  count_le : port.count.toNat ≤ nkPortQueueDepth
  tail_eq : port.tail = port.head + Fin.ofNat nkPortQueueDepth port.count.toNat

theorem length_queued (port : NkPort) : port.queued.length = port.count.toNat :=
  Ring.length_contents

end NkPort

theorem nkPortInitialize_ringOk (port : NkPort) : (nkPortInitialize port).RingOk :=
  ⟨Nat.zero_le _, rfl⟩

theorem queued_nkPortInitialize (port : NkPort) : (nkPortInitialize port).queued = [] := rfl

variable {port : NkPort}

/-- A message of allowed length is refused exactly when the port is full, and otherwise it goes
behind the messages that wait. -/
theorem nkPortSend_cases (h : port.RingOk) {message : NkMessage}
    (hlength : message.length.toNat ≤ nkMessagePayloadBytes) :
    (port.queued.length = nkPortQueueDepth ∧
        nkPortSend port message = (port, .error .initFailed)) ∨
      (port.queued.length < nkPortQueueDepth ∧ ∃ port', nkPortSend port message = (port', .ok ()) ∧
        port'.RingOk ∧ port'.queued = port.queued ++ [message]) := by
  rw [nkPortSend, if_neg (Nat.not_lt.2 hlength), NkPort.length_queued]
  by_cases hfull : nkPortQueueDepth ≤ port.count.toNat
  · rw [if_pos hfull]
    exact .inl ⟨Nat.le_antisymm h.count_le hfull, rfl⟩
  rw [if_neg hfull]
  have hcount : (port.count + 1).toNat = port.count.toNat + 1 := by
    have hlt : port.count.toNat < 32 := Nat.not_le.1 hfull
    bv_omega
  refine .inr ⟨Nat.not_le.1 hfull, _, rfl, ⟨?_, ?_⟩, ?_⟩
  · rw [hcount]
    exact Nat.not_le.1 hfull
  · dsimp only
    rw [hcount, h.tail_eq, Ring.add_ofNat_succ]
  · rw [NkPort.queued, NkPort.queued]
    dsimp only
    rw [hcount, h.tail_eq, Ring.contents_push (Nat.not_le.1 hfull)]

/-- A receive is refused exactly when no message waits, and otherwise it takes the first one. -/
theorem nkPortReceive_cases (h : port.RingOk) :
    (port.queued = [] ∧ nkPortReceive port = (port, .error .initFailed)) ∨
      ∃ port' message, nkPortReceive port = (port', .ok message) ∧ port'.RingOk ∧
        port.queued = message :: port'.queued := by
  rw [nkPortReceive]
  by_cases hempty : port.count = 0
  · rw [if_pos hempty, NkPort.queued, hempty]
    exact .inl ⟨rfl, rfl⟩
  rw [if_neg hempty]
  have hcount : (port.count - 1).toNat + 1 = port.count.toNat := by
    bv_omega
  refine .inr ⟨_, _, rfl, ⟨?_, ?_⟩, ?_⟩
  · exact (Nat.le_of_succ_le hcount.le).trans h.count_le
  · dsimp only
    rw [h.tail_eq, ← hcount, Ring.succ_add_ofNat]
  · rw [NkPort.queued, NkPort.queued, ← hcount]
    exact Ring.contents_pop

end NtxKernel.Nk
