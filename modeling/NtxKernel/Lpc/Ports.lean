import NtxKernel.Nk.Port
import NtxKernel.Ps.Threads

/-!
# Local procedure calls

The port manager of `kernel/lpc/init.c`: a pool of ports, each a message queue with a list of
waiting receivers. The list is linked through the field `WaitQueueNext` of the threads.

The routines run over the object manager and over `Kernel`, the managers whose state the delete
routines of objects may touch; what the other managers keep is the parameter `ρ`. Interrupts are
disabled around the queue operations and there is one processor, so nothing interleaves there.

`LpcReceiveByHandle` calls itself a receiver until a message comes or it cannot block. The loop is
modelled with fuel; each turn that goes on takes a thread off the run queue, so one turn more than
there are threads is enough (`NtxKernel.Lpc.lpcReceiveByHandle_isSome`).
-/

namespace NtxKernel.Lpc

open Foundations Ob Ps Nk

/-- `LPC_MAX_PORT_OBJECTS`. -/
abbrev lpcMaxPortObjects : ℕ := 128

def lpcPortAccessRecv : U32 := 0x1
def lpcPortAccessSend : U32 := 0x2
def lpcPortAccessAll : U32 := lpcPortAccessSend ||| lpcPortAccessRecv

/-- `OB_FLAG_WAITABLE`. -/
def obFlagWaitable : U32 := 0x1

/-- The name `"lpc.port"`. -/
def lpcPortName : CString := [108, 112, 99, 46, 112, 111, 114, 116]

/-- `LPC_PORT_OBJECT *`, a slot of `gLpcPortPool`. -/
abbrev LpcPortRef := Fin lpcMaxPortObjects

/-- `LPC_PORT_OBJECT`. -/
structure LpcPortObject where
  header : Option ObjectRef
  port : NkPort
  waitHead : Option ThreadRef
  waitTail : Option ThreadRef

/-- The globals of the port manager. -/
structure LpcState where
  portType : Option TypeRef
  portPool : LpcPortRef → LpcPortObject
  portInUse : LpcPortRef → Bool
  ready : Bool

/-- The managers that the delete routines of objects may touch. -/
structure Kernel (ρ : Type) where
  ps : PsState
  lpc : LpcState
  rest : ρ

/-- The object manager and the managers over it. -/
structure System (ρ : Type) where
  ob : ObState (Kernel ρ)
  kernel : Kernel ρ

variable {ρ : Type}

/-- The globals before `LpcInitialize`, all zero. -/
def LpcState.zero : LpcState where
  portType := none
  portPool _ := ⟨none, .zero, none, none⟩
  portInUse _ := false
  ready := false

namespace LpcState

/-- Write to the port `p`. -/
def modifyPort (lpc : LpcState) (p : LpcPortRef) (f : LpcPortObject → LpcPortObject) : LpcState :=
  { lpc with portPool := Function.update lpc.portPool p (f (lpc.portPool p)) }

/-- Write `gLpcPortInUse[p]`. -/
def setInUse (lpc : LpcState) (p : LpcPortRef) (b : Bool) : LpcState :=
  { lpc with portInUse := Function.update lpc.portInUse p b }

end LpcState

namespace Kernel

/-- Write to the port `p`. -/
def modifyPort (k : Kernel ρ) (p : LpcPortRef) (f : LpcPortObject → LpcPortObject) : Kernel ρ :=
  { k with lpc := k.lpc.modifyPort p f }

/-- Write `WaitQueueNext` of the thread `t`. -/
def setWaitQueueNext (k : Kernel ρ) (t : ThreadRef) (next : Option ThreadRef) : Kernel ρ :=
  { k with ps := k.ps.modifyThread t fun thread => { thread with waitQueueNext := next } }

/-- The pointers of the wait list of the port `p`. -/
def waitQueue (k : Kernel ρ) (p : LpcPortRef) : Queue ThreadRef where
  next t := (k.ps.threadPool t).waitQueueNext
  head := (k.lpc.portPool p).waitHead
  tail := (k.lpc.portPool p).waitTail

end Kernel

/-- `LpcpFindPortByHeader`. -/
def lpcpFindPortByHeader (lpc : LpcState) (header : ObjectRef) : Option LpcPortRef :=
  firstIndex fun p => lpc.portInUse p && (lpc.portPool p).header == some header

/-- `LpcpDeletePortObject`. -/
def lpcpDeletePortObject (object : ObjectRef) (k : Kernel ρ) : Kernel ρ :=
  match firstIndex fun p => k.lpc.portInUse p && (k.lpc.portPool p).header == some object with
  | some p =>
    { k with lpc := (k.lpc.setInUse p false).modifyPort p fun port =>
        { port with header := none, waitHead := none, waitTail := none } }
  | none => k

/-- `LpcpAllocatePortSlot`. -/
def lpcpAllocatePortSlot (lpc : LpcState) : LpcState × Option LpcPortRef :=
  match firstIndex fun p => !lpc.portInUse p with
  | some p =>
    ((lpc.setInUse p true).modifyPort p fun port =>
        { port with header := none, waitHead := none, waitTail := none }, some p)
  | none => (lpc, none)

/-- `LpcpEnqueueWaiter`. -/
def lpcpEnqueueWaiter (k : Kernel ρ) (p : LpcPortRef) (thread : ThreadRef) : Kernel ρ :=
  let k := k.setWaitQueueNext thread none
  match (k.lpc.portPool p).waitTail with
  | none => k.modifyPort p fun port => { port with waitHead := some thread, waitTail := some thread }
  | some tail =>
    (k.setWaitQueueNext tail (some thread)).modifyPort p fun port =>
      { port with waitTail := some thread }

/-- `LpcpDequeueWaiter`. -/
def lpcpDequeueWaiter (k : Kernel ρ) (p : LpcPortRef) : Kernel ρ × Option ThreadRef :=
  match (k.lpc.portPool p).waitHead with
  | none => (k, none)
  | some thread =>
    let next := (k.ps.threadPool thread).waitQueueNext
    ((k.modifyPort p fun port =>
        { port with
          waitHead := next
          waitTail := if next = none then none else port.waitTail }).setWaitQueueNext thread none,
      some thread)

/-- `ObDereferenceObject`, with the status thrown away. -/
def System.dereference (s : System ρ) (object : ObjectRef) : System ρ :=
  let (ob, kernel, _) := obDereferenceObject s.ob s.kernel object
  ⟨ob, kernel⟩

/-- `LpcpReferencePortByHandle`. -/
def lpcpReferencePortByHandle (s : System ρ) (handleValue desiredAccess : U32) :
    System ρ × Except KStatus (ObjectRef × LpcPortRef) :=
  match s.kernel.lpc.portType with
  | none => (s, .error .invalidParameter)
  | some portType =>
    match obReferenceObjectByHandle s.ob handleValue desiredAccess (some portType) with
    | (ob, .error e) => ({ s with ob := ob }, .error e)
    | (ob, .ok header) =>
      let s := { s with ob := ob }
      match lpcpFindPortByHeader s.kernel.lpc header with
      | none => (s.dereference header, .error .notFound)
      | some p => (s, .ok (header, p))

/-- `LpcInitialize`, with the status of `NkServiceEndpointInitialize`, which cannot fail on the
arguments it is given, left out. -/
def lpcInitialize (s : System ρ) : System ρ × Except KStatus Unit :=
  if s.kernel.lpc.ready then (s, .error .alreadyInitialized)
  else
    let lpc := { s.kernel.lpc with portInUse := fun _ => false }
    match obCreateType s.ob (some [76, 112, 99, 80, 111, 114, 116]) (some lpcpDeletePortObject) with
    | (ob, .error e) => (⟨ob, { s.kernel with lpc := lpc }⟩, .error e)
    | (ob, .ok t) =>
      (⟨ob, { s.kernel with lpc := { lpc with portType := some t, ready := true } }⟩, .ok ())

/-- `LpcCreatePortHandle`. -/
def lpcCreatePortHandle (s : System ρ) (desiredAccess : U32) : System ρ × Except KStatus U32 :=
  if s.kernel.lpc.ready = false then (s, .error .invalidParameter)
  else
    match lpcpAllocatePortSlot s.kernel.lpc with
    | (_, none) => (s, .error .initFailed)
    | (lpc, some p) =>
      let s := { s with kernel := { s.kernel with lpc := lpc } }
      match obCreateObject s.ob s.kernel.lpc.portType (some lpcPortName) lpcPortAccessAll
          obFlagWaitable with
      | (ob, .error e) => ({ s with ob := ob }, .error e)
      | (ob, .ok header) =>
        let s : System ρ := ⟨ob, s.kernel.modifyPort p fun port =>
          { port with port := nkPortInitialize port.port, header := some header }⟩
        let (ob, status) := obInsertHandle s.ob header desiredAccess
        (({ s with ob := ob } : System ρ).dereference header, status)

/-- `LpcSendByHandle`. -/
def lpcSendByHandle (s : System ρ) (handleValue : U32) (message : NkMessage) :
    Option (System ρ × Except KStatus Unit) :=
  if s.kernel.lpc.ready = false then some (s, .error .invalidParameter)
  else
    match lpcpReferencePortByHandle s handleValue lpcPortAccessSend with
    | (s, .error e) => some (s, .error e)
    | (s, .ok (header, p)) =>
      match nkPortSend (s.kernel.lpc.portPool p).port message with
      | (_, .error _) => some (s.dereference header, .error .wouldBlock)
      | (port, .ok _) =>
        match lpcpDequeueWaiter (s.kernel.modifyPort p fun o => { o with port := port }) p with
        | (k, none) => some (({ s with kernel := k } : System ρ).dereference header, .ok ())
        | (k, some waiter) =>
          (psWakeThread k.ps waiter).map fun ps =>
            (({ s with kernel := { k with ps := ps } } : System ρ).dereference header, .ok ())

/-- The loop of `LpcReceiveByHandle`, where `current` is the thread that called it. -/
def lpcReceiveLoop (current : ThreadRef) (handleValue : U32) (wait : Bool) :
    ℕ → System ρ → Option (System ρ × Except KStatus NkMessage)
  | 0, _ => none
  | fuel + 1, s =>
    match lpcpReferencePortByHandle s handleValue lpcPortAccessRecv with
    | (s, .error e) => some (s, .error e)
    | (s, .ok (header, p)) =>
      match nkPortReceive (s.kernel.lpc.portPool p).port with
      | (port, .ok message) =>
        some (({ s with kernel := s.kernel.modifyPort p fun o =>
          { o with port := port } } : System ρ).dereference header, .ok message)
      | (_, .error _) =>
        if wait = false then some (s.dereference header, .error .wouldBlock)
        else
          let s := ({ s with kernel := lpcpEnqueueWaiter s.kernel p current } :
            System ρ).dereference header
          match psBlockCurrentThread s.kernel.ps with
          | none => none
          | some (ps, .failed e) => some ({ s with kernel := { s.kernel with ps := ps } }, .error e)
          | some (ps, _) =>
            -- `PsDispatch` found no thread to switch from: control is still here
            lpcReceiveLoop current handleValue wait fuel
              { s with kernel := { s.kernel with ps := ps } }

/-- `LpcReceiveByHandle`. -/
def lpcReceiveByHandle (s : System ρ) (handleValue : U32) (wait : Bool) :
    Option (System ρ × Except KStatus NkMessage) :=
  if s.kernel.lpc.ready = false then some (s, .error .invalidParameter)
  else
    match s.kernel.ps.currentThread with
    | none => some (s, .error .invalidParameter)
    | some current => lpcReceiveLoop current handleValue wait (psMaxThreads + 1) s

/-- `LpcCloseHandle`. -/
def lpcCloseHandle (s : System ρ) (handleValue : U32) : System ρ × Except KStatus Unit :=
  if handleValue = 0 then (s, .error .invalidParameter)
  else
    let (ob, kernel, status) := obCloseHandle s.ob s.kernel handleValue
    (⟨ob, kernel⟩, status)

end NtxKernel.Lpc
