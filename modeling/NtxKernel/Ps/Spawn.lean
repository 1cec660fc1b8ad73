import NtxKernel.Mm.Isolation
import NtxKernel.Ps.Image
import NtxKernel.Ps.Threads

/-!
# Spawning a process

The routines of `kernel/ps/init.c` that create processes and threads, over the object manager, the
memory manager and the thread pools together. `PsGlobals σ` and `ExecGlobals σ` say where the
globals lie in the state `σ` of the managers over the object manager.

The routines of the same names in `NtxKernel.Ps` take the results of the other managers as
arguments; the ones here call them. `createProcess_ps` and `createThread_ps` say that they agree
on the pools.

The image is read from a buffer while different address spaces are active. `ImageBuffer` is what
it reads as under each, and `none` where a read faults, which does not come back.
-/

namespace NtxKernel.Ps

open Foundations Ob Mm Kpe

/-- The globals of the process and thread manager among those of the managers over the object
manager. -/
class PsGlobals (σ : Type) where
  ps : σ → PsState
  setPs : PsState → σ → σ
  ps_setPs : ∀ s k, ps (setPs s k) = s

/-- The globals of the process and thread manager next to those of the memory manager. -/
class ExecGlobals (σ : Type) extends PsGlobals σ, MmGlobals σ where
  mm_setPs : ∀ s k, mm (setPs s k) = mm k
  ps_setMm : ∀ m k, ps (setMm m k) = ps k

attribute [simp] PsGlobals.ps_setPs ExecGlobals.mm_setPs ExecGlobals.ps_setMm

/-- What `PsInitialize` sets and nothing changes afterwards: the types, and the address of
`gPsThreadStackPool`. -/
structure PsStatics where
  processType : Option TypeRef
  threadType : Option TypeRef
  stackPool : U64

/-- What the buffer of an image reads as while an address space is active. -/
abbrev ImageBuffer := Option AddressSpaceRef → Option File

/-- `OB_ACCESS_ALL`. -/
def obAccessAll : U32 := 0xFFFFFFFF

/-- `OB_FLAG_WAITABLE`. -/
def obFlagWaitable : U32 := 0x1

/-- `PS_USER_STACK_SIZE`. -/
def psUserStackSize : U64 := 0x10000

/-- The name `"proc.user"`. -/
def procUserName : CString := [112, 114, 111, 99, 46, 117, 115, 101, 114]

/-- The name `"thread.kernel"`. -/
def threadKernelName : CString := [116, 104, 114, 101, 97, 100, 46, 107, 101, 114, 110, 101, 108]

/-- The name `"thread.user"`. -/
def threadUserName : CString := [116, 104, 114, 101, 97, 100, 46, 117, 115, 101, 114]

variable {σ : Type} [ExecGlobals σ]

open PsGlobals MmGlobals ExecGlobals

/-- `PsGetCurrentProcess`. -/
def psGetCurrentProcess (ps : PsState) : Option ProcessRef :=
  ps.currentThread.bind fun t => (ps.threadPool t).ownerProcess

/-- The `AddressSpaceRoot` of the current process, where neither is null. -/
def currentAddressSpace (ps : PsState) : Option AddressSpaceRef :=
  (psGetCurrentProcess ps).bind fun p => (ps.processPool p).addressSpaceRoot

/-- Write to the process `p`. -/
def PsState.modifyProcess (ps : PsState) (p : ProcessRef) (f : KProcess → KProcess) : PsState :=
  { ps with processPool := Function.update ps.processPool p (f (ps.processPool p)) }

namespace Executive

/-! ## Processes and threads -/

/-- `PspCreateProcessInternal`. -/
def pspCreateProcessInternal (statics : PsStatics) (ob : ObState σ) (k : σ)
    (name : Option CString) : ObState σ × σ × Except KStatus ProcessRef :=
  match pspAllocateProcessSlot (ps k) with
  | (p, .error e) => (ob, setPs p k, .error e)
  | (p, .ok process) =>
    match obCreateObject ob statics.processType (some (name.getD procUserName)) obAccessAll 0 with
    | (ob, .error e) => (ob, setPs p k, .error e)
    | (ob, .ok header) =>
      let id := p.nextProcessId
      let p := { p with nextProcessId := id + 1 }.modifyProcess process fun process =>
        { process with objectHeader := some header, processId := id }
      match mmCreateAddressSpace (mm k) id with
      | (m, .error e) => (ob, setPs p (setMm m k), .error e)
      | (m, .ok root) =>
        (ob, setPs (p.modifyProcess process fun process =>
          { process with addressSpaceRoot := some root }) (setMm m k), .ok process)

/-- `PsCreateProcess`. -/
def psCreateProcess (statics : PsStatics) (ob : ObState σ) (k : σ) (name : Option CString) :
    ObState σ × σ × Except KStatus ProcessRef :=
  if (ps k).ready = false then (ob, k, .error .invalidParameter)
  else pspCreateProcessInternal statics ob k name

/-- The common part of the two creation routines: a slot, an object, and what `fill` writes to the
slot besides. -/
def pspCreateThread (statics : PsStatics) (ob : ObState σ) (k : σ) (process : ProcessRef)
    (name : CString) (fill : KThread → KThread) : ObState σ × σ × Except KStatus ThreadRef :=
  match pspAllocateThreadSlot (ps k) with
  | (p, .error e) => (ob, setPs p k, .error e)
  | (p, .ok thread) =>
    match obCreateObject ob statics.threadType (some name) obAccessAll obFlagWaitable with
    | (ob, .error e) => (ob, setPs p k, .error e)
    | (ob, .ok header) =>
      let p := p.modifyThread thread fun _ =>
        fill (KThread.created p.nextThreadId process (threadStackTop statics.stackPool thread) header)
      (ob, setPs { p with nextThreadId := p.nextThreadId + 1 } k, .ok thread)

/-- `PsCreateKernelThread`. -/
def psCreateKernelThread (statics : PsStatics) (ob : ObState σ) (k : σ) (process : ProcessRef)
    (startRoutine : Option U64) (startContext : U64) :
    ObState σ × σ × Except KStatus ThreadRef :=
  if (ps k).ready = false then (ob, k, .error .invalidParameter)
  else
    pspCreateThread statics ob k process threadKernelName fun t =>
      { t with startRoutine := startRoutine, startContext := startContext }

/-- The page of the entry may be executed by a user. -/
def entryPteOk : Except KStatus U64 → Bool
  | .error _ => false
  | .ok pte => hasFlag pte psPtePresent && hasFlag pte psPteUser && !hasFlag pte psPteNx

/-- The page of the stack may be written by a user. -/
def stackPteOk : Except KStatus U64 → Bool
  | .error _ => false
  | .ok pte => hasFlag pte psPtePresent && hasFlag pte psPteUser && hasFlag pte psPteWritable

/-- `PsCreateUserThread`. -/
def psCreateUserThread (statics : PsStatics) (ob : ObState σ) (k : σ) (process : ProcessRef)
    (userEntry userStackTop userArg0 userArg1 : U64) :
    ObState σ × σ × Except KStatus ThreadRef :=
  if (ps k).ready = false then (ob, k, .error .invalidParameter)
  else if userEntry = 0 ∨ userStackTop.toNat < 16 then (ob, k, .error .invalidParameter)
  else if psUserTop.toNat ≤ userEntry.toNat ∨ psUserTop.toNat ≤ userStackTop.toNat then
    (ob, k, .error .accessDenied)
  else
    match ((ps k).processPool process).addressSpaceRoot with
    | none => (ob, k, .error .invalidParameter)
    | some a =>
      match mmAsQueryPte (mm k) a (userEntry &&& ~~~0xFFF) with
      | (m, entryPte) =>
        if entryPteOk entryPte = false then (ob, setMm m k, .error .accessDenied)
        else
          match mmAsQueryPte m a ((userStackTop - 1) &&& ~~~0xFFF) with
          | (m, stackPte) =>
            if stackPteOk stackPte = false then (ob, setMm m k, .error .accessDenied)
            else
              pspCreateThread statics ob (setMm m k) process threadUserName fun t =>
                { t with
                  isUserThread := true
                  userEntry := userEntry
                  userStackTop := userStackTop &&& ~~~0xF
                  userArg0 := userArg0
                  userArg1 := userArg1 }

/-! ## The image in memory -/

/-- The byte `j` of a word becomes `b`. -/
def setByte (word : U64) (j : ℕ) (b : UInt8) : U64 :=
  (word &&& ~~~((0xFF : U64) <<< (8 * j))) ||| ((BitVec.ofNat 64 b.toNat) <<< (8 * j))

/-- Write a byte where the address space `a` maps `va`. -/
def storeByte (m : MmState) (a : AddressSpaceRef) (va : U64) (b : UInt8) : Option MmState :=
  (m.translate a va).map fun t =>
    let i : TableIx := ⟨va.toNat % 4096 / 8, by omega⟩
    m.writeEntry t.frame i (setByte (m.mem t.frame i) (va.toNat % 8) b)

/-- Write the first `n` bytes of an image behind `base`. -/
def storeImage (a : AddressSpaceRef) (base : U64) (img : Image) : ℕ → MmState → Option MmState
  | 0, m => some m
  | n + 1, m =>
    (storeImage a base img n m).bind fun m => storeByte m a (base + BitVec.ofNat 64 n) (img n)

/-- The flags of the pages of a section. -/
def sectionPteFlags (s : KpeSectionHeader) : U64 :=
  let flags := psPteUser
  let flags := if hasFlag s.characteristics kpeScnMemWrite then flags ||| psPteWritable else flags
  if hasFlag s.characteristics kpeScnMemExecute then flags else flags ||| psPteNx

/-- The size of a section in memory. -/
def effectiveVirtualSize (s : KpeSectionHeader) : U32 :=
  if s.virtualSize = 0 then s.sizeOfRawData else s.virtualSize

/-- The loop over the first `n` pages of a section, whose status is thrown away. -/
def protectPages (a : AddressSpaceRef) (sectionBase flags : U64) : ℕ → MmState → MmState
  | 0, m => m
  | n + 1, m =>
    (mmAsProtectPage (protectPages a sectionBase flags n m) a
      ((sectionBase + BitVec.ofNat 64 (n * mmPageSize)) &&& ~~~0xFFF) flags).1

/-- The protection pass over the sections. -/
def protectSections (a : AddressSpaceRef) (imageBase : U64) (sections : List KpeSectionHeader)
    (m : MmState) : MmState :=
  sections.foldl (fun m s =>
    if effectiveVirtualSize s = 0 then m
    else
      protectPages a (imageBase + s.virtualAddress.setWidth 64) (sectionPteFlags s)
        ((pspAlignUp ((effectiveVirtualSize s).setWidth 64) 4096).toNat / mmPageSize) m) m

/-! ## Spawning -/

/-- The headers at the places that the checks found, as a file reads now. -/
def headersAgain (checked f : File) : KpeNtHeaders64 × List KpeSectionHeader :=
  let dos := readDosHeader checked
  let nt := readNtHeaders f dos.lfanew.toNat
  (nt, readSections f (sectionTableOffset dos (readNtHeaders checked dos.lfanew.toNat))
    nt.fileHeader.numberOfSections.toNat)

/-- Where an image asks to be loaded. -/
def preferredImageBase (nt : KpeNtHeaders64) : U64 := nt.optionalHeader.imageBase &&& ~~~0xFFF

/-- The checks of the base of an image. -/
def imageBaseOk (nt : KpeNtHeaders64) : Bool :=
  let base := preferredImageBase nt
  let stop := base + nt.optionalHeader.sizeOfImage.setWidth 64
  base != 0 && decide (base.toNat < psUserTop.toNat) && decide (base.toNat ≤ stop.toNat) &&
    decide (stop.toNat < psUserTop.toNat)

/-- The three mappings of a new process: the bases of the image and of the stack. -/
def mapUserImage (m : MmState) (a : AddressSpaceRef) (nt : KpeNtHeaders64) :
    MmState × Except KStatus (U64 × U64) :=
  let m := m.modifyAddressSpace a fun space => { space with nextUserBase := preferredImageBase nt }
  match mmMapAnonymous m a (nt.optionalHeader.sizeOfImage.setWidth 64)
      (mmProtRead ||| mmProtWrite ||| mmProtExecute) mmRegionFlagWired with
  | (m, .error e) => (m, .error e)
  | (m, .ok imageBase) =>
    match mmMapAnonymous m a 4096 mmProtRead (mmRegionFlagGuard ||| mmRegionFlagLazy) with
    | (m, .error e) => (m, .error e)
    | (m, .ok _) =>
      match mmMapAnonymous m a psUserStackSize (mmProtRead ||| mmProtWrite) mmRegionFlagWired with
      | (m, .error e) => (m, .error e)
      | (m, .ok stackBase) => (m, .ok (imageBase, stackBase))

/-- `MmActivateAddressSpace`, with the last argument kept. -/
def activate (k : σ) (a : AddressSpaceRef) : σ × Except KStatus Unit :=
  match mmActivateAddressSpace (mm k) a with
  | (m, result) => (setPs { ps k with activeAddressSpace := some a } (setMm m k), result)

/-- Activate the address space that was left, whatever that returns. -/
def reactivate (k : σ) : Option AddressSpaceRef → σ
  | some a => (activate k a).1
  | none => k

/-- The part of `PsSpawnUserKpeFromBuffer` behind the mappings: the image is filled, the pages of
the sections take their flags and the thread is made ready. What a fill that fails has written is
left out. -/
def finishSpawn (statics : PsStatics) (ob : ObState σ) (k : σ) (checked : File)
    (buffer : ImageBuffer) (process : ProcessRef) (a : AddressSpaceRef)
    (imageBase stackBase : U64) :
    Option (ObState σ × σ × Except KStatus (U64 × U64)) :=
  let previous := currentAddressSpace (ps k)
  match activate k a with
  | (k, .error e) => some (ob, k, .error e)
  | (k, .ok _) =>
    (buffer (some a)).bind fun f =>
      match pspFillImage f (headersAgain checked f).1 (headersAgain checked f).2 imageBase with
      | .error e => some (ob, reactivate k previous, .error e)
      | .ok img =>
        (storeImage a imageBase img
            (headersAgain checked f).1.optionalHeader.sizeOfImage.toNat (mm k)).bind fun m =>
          let k := reactivate (setMm m k) previous
          (buffer (some (previous.getD a))).bind fun f =>
            let k := setMm (protectSections a imageBase (headersAgain checked f).2 (mm k)) k
            let entry := imageBase +
              (headersAgain checked f).1.optionalHeader.addressOfEntryPoint.setWidth 64
            match psCreateUserThread statics ob k process entry (stackBase + psUserStackSize) 0 0
              with
            | (ob, k, .error e) => some (ob, k, .error e)
            | (ob, k, .ok thread) =>
              (psReadyThread (ps k) thread).map fun r =>
                match r with
                | (p, .error e) => (ob, setPs p k, .error e)
                | (p, .ok _) => (ob, setPs p k, .ok ((p.processPool process).processId, entry))

/-- `PsSpawnUserKpeFromBuffer`: the process id and the entry. -/
def psSpawnUserKpeFromBuffer (statics : PsStatics) (ob : ObState σ) (k : σ)
    (buffer : ImageBuffer) : Option (ObState σ × σ × Except KStatus (U64 × U64)) :=
  if (ps k).ready = false then some (ob, k, .error .invalidParameter)
  else
    (buffer (ps k).activeAddressSpace).bind fun f =>
      match pspCheckUserImage f with
      | none => some (ob, k, .error .invalidParameter)
      | some (nt, _) =>
        match pspCreateProcessInternal statics ob k (some procUserName) with
        | (ob, k, .error e) => some (ob, k, .error e)
        | (ob, k, .ok process) =>
          match ((ps k).processPool process).addressSpaceRoot with
          | none => none
          | some a =>
            if imageBaseOk nt = false then some (ob, k, .error .invalidParameter)
            else
              match mapUserImage (mm k) a nt with
              | (m, .error e) => some (ob, setMm m k, .error e)
              | (m, .ok (imageBase, stackBase)) =>
                finishSpawn statics ob (setMm m k) f buffer process a imageBase stackBase

/-! ## The pools -/

/-- `PspCreateProcessInternal` does to the pools what the routine over the results of the other
managers does. -/
theorem createProcess_ps (statics : PsStatics) (ob : ObState σ) (k : σ) (name : Option CString) :
    (ps (pspCreateProcessInternal statics ob k name).2.1,
        (pspCreateProcessInternal statics ob k name).2.2) =
      Ps.pspCreateProcessInternal (ps k)
        (obCreateObject ob statics.processType (some (name.getD procUserName)) obAccessAll 0).2
        fun id => (mmCreateAddressSpace (mm k) id).2 := by
  rw [pspCreateProcessInternal, Ps.pspCreateProcessInternal]
  rcases pspAllocateProcessSlot (ps k) with ⟨p, e | process⟩
  · dsimp only
    rw [ps_setPs]
  dsimp only
  rcases obCreateObject ob statics.processType (some (name.getD procUserName)) obAccessAll 0 with
    ⟨ob, e | header⟩
  · dsimp only
    rw [ps_setPs]
  dsimp only
  rcases mmCreateAddressSpace (mm k) p.nextProcessId with ⟨m, e | root⟩
  · dsimp only
    rw [ps_setPs, PsState.modifyProcess]
  · dsimp only
    rw [ps_setPs, PsState.modifyProcess, PsState.modifyProcess]

/-- The creation of a thread does to the pools what `PsCreateKernelThread` over the results of the
object manager does. -/
theorem createThread_ps (statics : PsStatics) (ob : ObState σ) (k : σ) (process : ProcessRef)
    (startRoutine : Option U64) (startContext : U64) :
    (ps (psCreateKernelThread statics ob k process startRoutine startContext).2.1,
        (psCreateKernelThread statics ob k process startRoutine startContext).2.2) =
      Ps.psCreateKernelThread (ps k) statics.stackPool process startRoutine startContext
        (obCreateObject ob statics.threadType (some threadKernelName) obAccessAll
          obFlagWaitable).2 := by
  rw [psCreateKernelThread, Ps.psCreateKernelThread]
  split
  · rfl
  rw [pspCreateThread]
  rcases pspAllocateThreadSlot (ps k) with ⟨p, e | thread⟩
  · dsimp only
    rw [ps_setPs]
  dsimp only
  rcases obCreateObject ob statics.threadType (some threadKernelName) obAccessAll obFlagWaitable
    with ⟨ob, e | header⟩ <;> dsimp only <;> rw [ps_setPs]

end Executive

end NtxKernel.Ps
