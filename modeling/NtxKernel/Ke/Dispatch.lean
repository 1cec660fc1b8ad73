import NtxKernel.Io.Spawn
import NtxKernel.Ke.Messages
import NtxKernel.Ps.Executing

/-!
# The system call dispatcher

`KiDispatchSystemCall` of `kernel/ke/syscall.c` with its sixteen handlers, over the whole kernel.

A handler leaves either a value or a status; `sysResult` puts it in the one register the caller
gets. `SysReturn` keeps what was left and the ranges that the handler read and wrote through
addresses from its arguments. A receive is cut into the turns of its loop as in
`NtxKernel.Ke.Messages`: a turn after which the caller waits leaves nothing, and the call goes on
with another turn, from whatever state other threads leave. A call that does not come back, since
it reaches `HalHalt` or fails an assertion, is `none`.

`sendReturn`, `receiveTurnReturn`, `mapMemoryReturn` and `mapSectionReturn` are the handlers of the
modules before this one as they are before their result is put into the register.
-/

namespace NtxKernel.Ke

open Foundations Ob Ps Nk Lpc Mm Io

variable {ρ : Type}

/-! ## The globals of the kernel -/

instance [MmGlobals ρ] : ExecGlobals (Kernel ρ) where
  ps k := k.ps
  setPs ps k := { k with ps := ps }
  ps_setPs _ _ := rfl
  mm k := MmGlobals.mm k.rest
  setMm m k := { k with rest := MmGlobals.setMm m k.rest }
  mm_setMm _ _ := MmGlobals.mm_setMm ..
  setMm_mm k := by rw [MmGlobals.setMm_mm]
  mm_setPs _ _ := rfl
  ps_setMm _ _ := rfl

instance [IoGlobals ρ] : IoGlobals (Kernel ρ) where
  io k := IoGlobals.io k.rest
  setIo s k := { k with rest := IoGlobals.setIo s k.rest }
  io_setIo _ _ := IoGlobals.io_setIo ..

/-! ## What surrounds a call -/

/-- What a call sees of the machine beside the globals. -/
structure CallWorld where
  statics : PsStatics
  /-- The memory of the caller. -/
  memory : U64 → UInt8
  /-- The memory that the boot files lie in. -/
  files : U64 → UInt8
  /-- What the buffer at an address with a size reads as. -/
  image : U64 → U64 → ImageBuffer
  /-- The characters `HalTryReadConsoleChar` gives until it finds none. -/
  console : List UInt8

/-- What a handler leaves. -/
structure SysReturn where
  accesses : List UserAccess
  result : Except KStatus U64

/-- A call that is refused before it reads or writes anything. -/
def SysReturn.refused (status : KStatus) : SysReturn := ⟨[], .error status⟩

/-- What a handler puts into the register. -/
def sysResult : Except KStatus U64 → U64
  | .error e => statusResult e
  | .ok value => value

/-- A routine that returns nothing but its status. -/
def statusOnly {α : Type} : Except KStatus α → Except KStatus U64
  | .error e => .error e
  | .ok _ => .ok (statusResult .success)

/-- How a dispatch returns when control is back. -/
def dispatchedResult : PsDispatched → Except KStatus U64
  | .failed e => .error e
  | _ => .ok (statusResult .success)

/-! ## The handlers -/

/-- `KipStartsWith`. -/
def kipStartsWith (text prefixText : CString) : Bool := prefixText.isPrefixOf text

/-- `"panic"`. -/
def debugPanic : CString := [112, 97, 110, 105, 99]

/-- The commands that are looked for before `"panic"`, with and without a colon: help, mem, ps,
handles, objects, ipc, files and vm. -/
def debugCommands : List CString :=
  [[104, 101, 108, 112], [109, 101, 109], [112, 115], [104, 97, 110, 100, 108, 101, 115],
    [111, 98, 106, 101, 99, 116, 115], [105, 112, 99], [102, 105, 108, 101, 115], [118, 109]]

/-- A text starts with a command, with a colon or without. -/
def startsWithCommand (text command : CString) : Bool :=
  kipStartsWith text command || kipStartsWith text (58 :: command)

/-- `KI_SYSCALL_DEBUGPRINT_MAX`. -/
def kiSyscallDebugprintMax : ℕ := 512

/-- `KipSysDebugPrint`. The commands print; only `"panic"`, which ends in `HalHalt`, does more. -/
def kipSysDebugPrint (w : CallWorld) (s : System ρ) (stringAddress length : U64) :
    Option (System ρ × SysReturn) :=
  if kiSyscallDebugprintMax < length.toNat ∨ kipIsRangeReadable stringAddress length = false then
    some (s, .refused .invalidParameter)
  else
    let buffer := userBytes w.memory stringAddress length.toNat
    if !debugCommands.any (startsWithCommand buffer) && startsWithCommand buffer debugPanic then
      none
    else some (s, ⟨[⟨stringAddress, length.toNat, false⟩], .ok (statusResult .success)⟩)

/-- `KipSysYield`. -/
def kipSysYield (s : System ρ) : Option (System ρ × SysReturn) :=
  (psYieldThread s.kernel.ps).map fun r =>
    ({ s with kernel := { s.kernel with ps := r.1 } }, ⟨[], dispatchedResult r.2⟩)

/-- `KipSysExitThread`. -/
def kipSysExitThread (s : System ρ) : Option (System ρ × SysReturn) :=
  (psExitCurrentThread s.kernel.ps).map fun r =>
    ({ s with kernel := { s.kernel with ps := r.1 } }, ⟨[], dispatchedResult r.2⟩)

/-- What `kipSysSend` leaves. -/
def sendReturn (w : CallWorld) (s : System ρ) (handle messageAddress messageLength : U64) :
    Option (System ρ × SysReturn) :=
  if nkMessagePayloadBytes < messageLength.toNat ∨ messageAddress = 0 then
    some (s, .refused .invalidParameter)
  else if kipIsRangeReadable messageAddress messageLength = false then
    some (s, .refused .invalidParameter)
  else
    (lpcSendByHandle s (handle.setWidth 32)
        (userMessage w.memory messageAddress messageLength)).map fun r =>
      (r.1, ⟨[⟨messageAddress, messageLength.toNat, false⟩], statusOnly r.2⟩)

/-- What the last turn of `kipSysReceiveTurn` leaves. -/
def receiveReturn (messageAddress messageLength : U64) : Except KStatus NkMessage → SysReturn
  | .error e => .refused e
  | .ok message =>
    if (messageLength.setWidth 32).toNat < message.length.toNat then .refused .invalidParameter
    else
      ⟨[⟨messageAddress, (messageBytes message).length, true⟩], .ok (message.length.setWidth 64)⟩

/-- What a turn of `kipSysReceiveTurn` leaves. -/
def receiveTurnReturn (s : System ρ) (handle messageAddress messageLength wait : U64) :
    Option (System ρ × Option SysReturn) :=
  if nkMessagePayloadBytes < messageLength.toNat ∨ messageAddress = 0 then
    some (s, some (.refused .invalidParameter))
  else if kipIsRangeWritable messageAddress messageLength = false then
    some (s, some (.refused .invalidParameter))
  else if s.kernel.lpc.ready = false then some (s, some (.refused .invalidParameter))
  else
    match s.kernel.ps.currentThread with
    | none => some (s, some (.refused .invalidParameter))
    | some current =>
      match lpcReceiveTurn current (handle.setWidth 32) (decide (wait.setWidth 32 ≠ (0 : U32)))
          s with
      | none => none
      | some (s, .again) => some (s, none)
      | some (s, .returned status) =>
        some (s, some (receiveReturn messageAddress messageLength status))

/-- `KipSysCreatePort`. -/
def kipSysCreatePort (s : System ρ) (desiredAccess : U64) : System ρ × SysReturn :=
  match lpcCreatePortHandle s (desiredAccess.setWidth 32) with
  | (s, .error e) => (s, .refused e)
  | (s, .ok handleValue) => (s, ⟨[], .ok (handleValue.setWidth 64)⟩)

/-- `KipSysCloseHandle`. -/
def kipSysCloseHandle (s : System ρ) (handleValue : U64) : System ρ × SysReturn :=
  match lpcCloseHandle s (handleValue.setWidth 32) with
  | (s, status) => (s, ⟨[], statusOnly status⟩)

section Memory

variable [MmGlobals ρ]

open MmGlobals

/-- What `kipSysMapMemory` leaves. -/
def mapMemoryReturn (s : System ρ) (flags : U64) : System ρ × SysReturn :=
  match currentAddressSpace s.kernel.ps with
  | none => (s, .refused .invalidParameter)
  | some a =>
    match mmMapAnonymous (mm s.kernel) a (if flags = 0 then 4096 else flags)
        (mmProtRead ||| mmProtWrite) mmRegionFlagLazy with
    | (m, .error e) => ({ s with kernel := setMm m s.kernel }, .refused e)
    | (m, .ok virtualBase) => ({ s with kernel := setMm m s.kernel }, ⟨[], .ok virtualBase⟩)

/-- `KipSysCreateSection`. -/
def kipSysCreateSection (s : System ρ) (size desiredAccess outHandleAddress : U64) :
    System ρ × SysReturn :=
  if outHandleAddress = 0 ∨ kipIsRangeWritable outHandleAddress 4 = false then
    (s, .refused .invalidParameter)
  else
    let accessMask := if desiredAccess = 0 then mmSectionAccessAll else desiredAccess.setWidth 32
    match mmCreateSectionHandle s.ob s.kernel size accessMask with
    | (ob, k, .error e) => (⟨ob, k⟩, .refused e)
    | (ob, k, .ok _) =>
      (⟨ob, k⟩, ⟨[⟨outHandleAddress, 4, true⟩], .ok (statusResult .success)⟩)

/-- What `kipSysMapSection` leaves. -/
def mapSectionReturn (s : System ρ) (handleValue protection outAddress : U64) :
    System ρ × SysReturn :=
  if outAddress = 0 ∨ kipIsRangeWritable outAddress 8 = false then
    (s, .refused .invalidParameter)
  else
    match currentAddressSpace s.kernel.ps with
    | none => (s, .refused .invalidParameter)
    | some a =>
      match mmMapSectionHandle s.ob s.kernel a (handleValue.setWidth 32)
          (protection.setWidth 32) with
      | (ob, k, .error e) => (⟨ob, k⟩, .refused e)
      | (ob, k, .ok _) => (⟨ob, k⟩, ⟨[⟨outAddress, 8, true⟩], .ok (statusResult .success)⟩)

/-- The writes of the two handlers that spawn to the out parameters that are not null. -/
def spawnOutputs (outProcessIdAddress outEntryAddress : U64) : List UserAccess :=
  (if outProcessIdAddress = 0 then [] else [⟨outProcessIdAddress, 8, true⟩]) ++
    if outEntryAddress = 0 then [] else [⟨outEntryAddress, 8, true⟩]

/-- An out parameter of the two handlers that spawn: null, or writable. -/
def spawnOutputOk (address : U64) : Bool := address == 0 || kipIsRangeWritable address 8

/-- `KipSysCreateProcessFromBuffer`. The spawn reads the buffer it is given. -/
def kipSysCreateProcessFromBuffer (w : CallWorld) (s : System ρ)
    (imageAddress imageSize outProcessIdAddress outEntryAddress : U64) :
    Option (System ρ × SysReturn) :=
  if imageAddress = 0 ∨ imageSize = 0 then some (s, .refused .invalidParameter)
  else if kipIsRangeReadable imageAddress imageSize = false then
    some (s, .refused .invalidParameter)
  else if spawnOutputOk outProcessIdAddress = false then some (s, .refused .invalidParameter)
  else if spawnOutputOk outEntryAddress = false then some (s, .refused .invalidParameter)
  else
    let image : UserAccess := ⟨imageAddress, imageSize.toNat, false⟩
    (Executive.psSpawnUserKpeFromBuffer w.statics s.ob s.kernel
        (w.image imageAddress imageSize)).map fun r =>
      match r with
      | (ob, k, .error e) => (⟨ob, k⟩, ⟨[image], .error e⟩)
      | (ob, k, .ok _) =>
        (⟨ob, k⟩, ⟨image :: spawnOutputs outProcessIdAddress outEntryAddress,
          .ok (statusResult .success)⟩)

end Memory

section Files

variable [IoGlobals ρ]

open IoGlobals

/-- The size of `LocalPath`. -/
def localPathBytes : ℕ := 128

/-- The bytes of a buffer up to the first NUL, as a string. -/
def cString (bytes : List UInt8) : CString := bytes.takeWhile (· != 0)

/-- `KipSysOpen`. -/
def kipSysOpen (w : CallWorld) (s : System ρ) (pathAddress pathLength desiredAccess : U64) :
    System ρ × SysReturn :=
  if pathAddress = 0 ∨ pathLength = 0 ∨ localPathBytes ≤ pathLength.toNat then
    (s, .refused .invalidParameter)
  else if kipIsRangeReadable pathAddress pathLength = false then (s, .refused .invalidParameter)
  else
    let path : UserAccess := ⟨pathAddress, pathLength.toNat, false⟩
    match ioOpenPath s.ob s.kernel (cString (userBytes w.memory pathAddress pathLength.toNat))
        (desiredAccess.setWidth 32) with
    | (ob, k, .error e) => (⟨ob, k⟩, ⟨[path], .error e⟩)
    | (ob, k, .ok handleValue) => (⟨ob, k⟩, ⟨[path], .ok (handleValue.setWidth 64)⟩)

/-- `KipSysRead`. -/
def kipSysRead (w : CallWorld) (s : System ρ)
    (handleValue offset bufferAddress bufferLength : U64) : System ρ × SysReturn :=
  if bufferAddress = 0 ∨ bufferLength = 0 then (s, .refused .invalidParameter)
  else if kipIsRangeWritable bufferAddress bufferLength = false then
    (s, .refused .invalidParameter)
  else
    match ioReadFileHandle w.files s.ob s.kernel (handleValue.setWidth 32) offset bufferLength with
    | (ob, k, .error e) => (⟨ob, k⟩, .refused e)
    | (ob, k, .ok bytes) =>
      (⟨ob, k⟩, ⟨[⟨bufferAddress, bytes.length, true⟩], .ok (BitVec.ofNat 64 bytes.length)⟩)

/-- `KipSysClose`. -/
def kipSysClose (s : System ρ) (handleValue : U64) : System ρ × SysReturn :=
  match ioCloseFileHandle s.ob s.kernel (handleValue.setWidth 32) with
  | (ob, k, status) => (⟨ob, k⟩, ⟨[], statusOnly status⟩)

/-- `KipSysCreateProcessFromFileHandle`. -/
def kipSysCreateProcessFromFileHandle [MmGlobals ρ] (w : CallWorld) (s : System ρ)
    (handleValue outProcessIdAddress outEntryAddress : U64) : Option (System ρ × SysReturn) :=
  if spawnOutputOk outProcessIdAddress = false then some (s, .refused .invalidParameter)
  else if spawnOutputOk outEntryAddress = false then some (s, .refused .invalidParameter)
  else
    (ioSpawnProcessFromFileHandle w.files w.statics s.ob s.kernel
        (handleValue.setWidth 32)).map fun r =>
      match r with
      | (ob, k, .error e) => (⟨ob, k⟩, .refused e)
      | (ob, k, .ok _) =>
        (⟨ob, k⟩, ⟨spawnOutputs outProcessIdAddress outEntryAddress,
          .ok (statusResult .success)⟩)

end Files

/-- `KipSysReadConsole`. -/
def kipSysReadConsole (w : CallWorld) (s : System ρ) (bufferAddress bufferLength : U64) :
    System ρ × SysReturn :=
  if bufferAddress = 0 ∨ bufferLength = 0 then (s, .refused .invalidParameter)
  else if kipIsRangeWritable bufferAddress bufferLength = false then
    (s, .refused .invalidParameter)
  else
    let readCount := min bufferLength.toNat w.console.length
    (s, ⟨[⟨bufferAddress, readCount, true⟩], .ok (BitVec.ofNat 64 readCount)⟩)

/-! ## The dispatcher -/

/-- The call number and the arguments a handler may use. -/
structure SystemCall where
  number : U64
  arg0 : U64
  arg1 : U64
  arg2 : U64
  arg3 : U64

/-- A handler that always leaves something. -/
def leaves (r : System ρ × SysReturn) : Option (System ρ × Option SysReturn) :=
  some (r.1, some r.2)

/-- A handler that leaves something when it comes back. -/
def comesBack (r : Option (System ρ × SysReturn)) : Option (System ρ × Option SysReturn) :=
  r.bind leaves

/-- `KiDispatchSystemCall`, before the result is put into the register. -/
def kiDispatch [MmGlobals ρ] [IoGlobals ρ] (w : CallWorld) (s : System ρ) (c : SystemCall) :
    Option (System ρ × Option SysReturn) :=
  match c.number.toNat with
  | 0 => comesBack (kipSysDebugPrint w s c.arg0 c.arg1)
  | 1 => comesBack (kipSysYield s)
  | 2 => comesBack (sendReturn w s c.arg0 c.arg1 c.arg2)
  | 3 => receiveTurnReturn s c.arg0 c.arg1 c.arg2 c.arg3
  | 4 => leaves (mapMemoryReturn s c.arg0)
  | 5 => comesBack (kipSysExitThread s)
  | 6 => leaves (kipSysCreatePort s c.arg0)
  | 7 => leaves (kipSysCloseHandle s c.arg0)
  | 8 => leaves (kipSysCreateSection s c.arg0 c.arg1 c.arg2)
  | 9 => leaves (mapSectionReturn s c.arg0 c.arg1 c.arg2)
  | 10 => comesBack (kipSysCreateProcessFromBuffer w s c.arg0 c.arg1 c.arg2 c.arg3)
  | 11 => leaves (kipSysOpen w s c.arg0 c.arg1 c.arg2)
  | 12 => leaves (kipSysRead w s c.arg0 c.arg1 c.arg2 c.arg3)
  | 13 => leaves (kipSysClose s c.arg0)
  | 14 => comesBack (kipSysCreateProcessFromFileHandle w s c.arg0 c.arg1 c.arg2)
  | 15 => leaves (kipSysReadConsole w s c.arg0 c.arg1)
  | _ => leaves (s, .refused .notImplemented)

/-- `KiDispatchSystemCall`: the register is `none` while the caller waits. -/
def kiDispatchSystemCall [MmGlobals ρ] [IoGlobals ρ] (w : CallWorld) (s : System ρ)
    (c : SystemCall) : Option (System ρ × Option U64) :=
  (kiDispatch w s c).map fun r => (r.1, r.2.map fun left => sysResult left.result)

/-! ## The handlers of the other modules -/

theorem sysResult_statusOnly {α : Type} (r : Except KStatus α) :
    sysResult (statusOnly r) = statusResult (.ofExcept r) := by
  cases r <;> rfl

/-- `kipSysSend` puts what `sendReturn` leaves into the register. -/
theorem kipSysSend_eq (w : CallWorld) (s : System ρ) (handle messageAddress messageLength : U64) :
    kipSysSend w.memory s handle messageAddress messageLength =
      (sendReturn w s handle messageAddress messageLength).map fun r =>
        (r.1, sysResult r.2.result) := by
  unfold kipSysSend sendReturn
  split
  · rfl
  split
  · rfl
  · rw [Option.map_map]
    congr 1
    funext r
    rw [Function.comp_apply, sysResult_statusOnly]

/-- A turn of `kipSysReceiveTurn` puts what `receiveTurnReturn` leaves into the register. -/
theorem kipSysReceiveTurn_eq (s : System ρ) (handle messageAddress messageLength wait : U64) :
    (kipSysReceiveTurn s.kernel.ps.currentThread s handle messageAddress messageLength wait).map
        (fun r => (r.1, r.2.map Prod.fst)) =
      (receiveTurnReturn s handle messageAddress messageLength wait).map fun r =>
        (r.1, r.2.map fun left => sysResult left.result) := by
  unfold kipSysReceiveTurn receiveTurnReturn
  split
  · rfl
  split
  · rfl
  split
  · rfl
  rcases s.kernel.ps.currentThread with _ | current
  · rfl
  dsimp only
  rcases lpcReceiveTurn current (handle.setWidth 32) (decide (wait.setWidth 32 ≠ (0 : U32))) s with
    _ | ⟨s₁, ⟨e | message⟩ | _⟩
  · rfl
  · rfl
  · dsimp only [Option.map_some, receiveResult, receiveReturn]
    split <;> rfl
  · rfl

/-- `kipSysMapMemory` puts what `mapMemoryReturn` leaves into the register. -/
theorem kipSysMapMemory_eq [MmGlobals ρ] (s : System ρ) (flags : U64) :
    (kipSysMapMemory (MmGlobals.mm s.kernel) (currentAddressSpace s.kernel.ps) flags).2 =
      sysResult (mapMemoryReturn s flags).2.result := by
  unfold kipSysMapMemory mapMemoryReturn
  rcases currentAddressSpace s.kernel.ps with _ | a
  · rfl
  dsimp only
  rcases mmMapAnonymous (MmGlobals.mm s.kernel) a (if flags = 0 then 4096 else flags)
    (mmProtRead ||| mmProtWrite) mmRegionFlagLazy with ⟨m, e | virtualBase⟩ <;> rfl

/-- `kipSysMapSection` puts what `mapSectionReturn` leaves into the register. -/
theorem kipSysMapSection_eq [MmGlobals ρ] (s : System ρ) (handleValue protection outAddress : U64) :
    (kipSysMapSection s.ob s.kernel (currentAddressSpace s.kernel.ps) handleValue protection
        outAddress).2.2 =
      ((mapSectionReturn s handleValue protection outAddress).2.accesses,
        sysResult (mapSectionReturn s handleValue protection outAddress).2.result) := by
  unfold kipSysMapSection mapSectionReturn
  split
  · rfl
  rcases currentAddressSpace s.kernel.ps with _ | a
  · rfl
  dsimp only
  rcases mmMapSectionHandle s.ob s.kernel a (handleValue.setWidth 32) (protection.setWidth 32) with
    ⟨ob, k, e | virtualBase⟩ <;> rfl

/-! ## Runs -/

/-- A stretch of a run: a system call, or whatever else the kernel does, by the state it leaves. -/
inductive Stretch (ρ : Type)
  | call (w : CallWorld) (c : SystemCall)
  | other (s : System ρ)

section Runs

variable [MmGlobals ρ] [IoGlobals ρ]

/-- Every call of a run has a property, in the state that the call is made in. A run ends with a
call that does not come back. -/
def AtCalls (P : CallWorld → System ρ → SystemCall → Prop) : System ρ → List (Stretch ρ) → Prop
  | _, [] => True
  | s, .call w c :: run =>
    P w s c ∧ ∀ s' left, kiDispatch w s c = some (s', left) → AtCalls P s' run
  | _, .other s :: run => AtCalls P s run

theorem atCalls_mono {P Q : CallWorld → System ρ → SystemCall → Prop}
    (h : ∀ w s c, P w s c → Q w s c) (s : System ρ) (run : List (Stretch ρ))
    (hrun : AtCalls P s run) : AtCalls Q s run := by
  induction run generalizing s with
  | nil => trivial
  | cons stretch run ih =>
    cases stretch with
    | call w c => exact ⟨h w s c hrun.1, fun s' left hcall => ih s' (hrun.2 s' left hcall)⟩
    | other s' => exact ih s' hrun

theorem atCalls_congr {P Q : CallWorld → System ρ → SystemCall → Prop}
    (h : ∀ w s c, P w s c ↔ Q w s c) (s : System ρ) (run : List (Stretch ρ)) :
    AtCalls P s run ↔ AtCalls Q s run :=
  ⟨atCalls_mono (fun w s c => (h w s c).1) s run, atCalls_mono (fun w s c => (h w s c).2) s run⟩

end Runs

/-! ## A kernel with one process -/

/-- The globals of the memory and the file manager. -/
structure MmIo where
  mm : MmState
  io : IoState

instance : MmGlobals MmIo where
  mm r := r.mm
  setMm m r := { r with mm := m }
  mm_setMm _ _ := rfl
  setMm_mm _ := rfl

instance : IoGlobals MmIo where
  io r := r.io
  setIo s r := { r with io := s }
  io_setIo _ _ := rfl

/-- The kernel after `MmInitialize` and `PsInitialize`. -/
def sampleKernel : System MmIo where
  ob := (obInitialize .zero).1
  kernel :=
    { ps := bootPs
      lpc := .zero
      rest := ⟨MmSystem.sampleSystem.k, .zero⟩ }

/-- Nothing to read. -/
def sampleWorld : CallWorld where
  statics := ⟨none, none, 0⟩
  memory _ := 0
  files _ := 0
  image _ _ _ := none
  console := []

end NtxKernel.Ke
