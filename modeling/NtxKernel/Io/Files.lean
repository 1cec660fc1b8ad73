import NtxKernel.Foundations.Bits
import NtxKernel.Mm.Init
import NtxKernel.Ob.Objects

/-!
# Files

The I/O manager of `kernel/io/init.c`: a table of boot files, each a path with an address and a
size, and a pool of file objects, which are objects of the object manager of the type `"File"`.
A file object is found through its header; the pool and the headers are recycled independently.

The state of the managers over the object manager is the parameter `σ`; `IoGlobals σ` says where
the globals of the I/O manager are in there. The images of the boot files lie in `memory`, which
nothing here writes; the bytes a read copies to the buffer of its caller are its result.
-/

namespace NtxKernel.Io

open Foundations Ob Mm

/-- `IO_MAX_FILE_OBJECTS`. -/
abbrev ioMaxFileObjects : ℕ := 128

/-- `IO_MAX_BOOT_FILES`. -/
abbrev ioMaxBootFiles : ℕ := 16

def ioFileAccessRead : U32 := 0x1
def ioFileAccessWrite : U32 := 0x2
def ioFileAccessExecute : U32 := 0x4
def ioFileAccessAll : U32 := ioFileAccessRead ||| ioFileAccessWrite ||| ioFileAccessExecute

/-- The bytes of `IO_BOOT_FILE.Path`. -/
def ioPathBytes : ℕ := 64

/-- The name `"File"`. -/
def ioFileTypeName : CString := [70, 105, 108, 101]

/-- The name `"io.file"`. -/
def ioFileName : CString := [105, 111, 46, 102, 105, 108, 101]

/-- The path `"\System\init.kpe"`. -/
def ioInitPath : CString :=
  [92, 83, 121, 115, 116, 101, 109, 92, 105, 110, 105, 116, 46, 107, 112, 101]

/-- `IO_FILE_OBJECT *`, a slot of `gIoFilePool`. -/
abbrev IoFileRef := Fin ioMaxFileObjects

/-- `IO_BOOT_FILE`. -/
structure IoBootFile where
  path : CString
  data : U64
  size : U64
  inUse : Bool

/-- `IO_FILE_OBJECT`. -/
structure IoFileObject where
  header : Option ObjectRef
  data : U64
  size : U64
  accessMask : U32

/-- A file object that is cleared. -/
def IoFileObject.zero : IoFileObject := ⟨none, 0, 0, 0⟩

/-- The globals of the I/O manager. -/
structure IoState where
  fileType : Option TypeRef
  filePool : IoFileRef → IoFileObject
  fileInUse : IoFileRef → Bool
  bootFiles : Fin ioMaxBootFiles → IoBootFile
  ready : Bool

/-- The globals before `IoInitialize`, all zero. -/
def IoState.zero : IoState where
  fileType := none
  filePool _ := .zero
  fileInUse _ := false
  bootFiles _ := ⟨[], 0, 0, false⟩
  ready := false

/-- The globals of the I/O manager among those of the managers over the object manager. -/
class IoGlobals (σ : Type) where
  io : σ → IoState
  setIo : IoState → σ → σ
  io_setIo : ∀ s k, io (setIo s k) = s

instance : IoGlobals IoState where
  io s := s
  setIo s _ := s
  io_setIo _ _ := rfl

attribute [simp] IoGlobals.io_setIo

/-! ## Strings -/

/-- `IopStringEquals`. The end of a list is the NUL, which no other byte of a string equals. -/
def iopStringEquals : CString → CString → Bool
  | [], [] => true
  | l :: left, r :: right => l == r && iopStringEquals left right
  | _, _ => false

/-- The loop of `IopCopyString` with `room` bytes to go, the last of them for the NUL excluded:
what it stores and whether it came to the end of the source. -/
def iopCopyChars : ℕ → CString → CString × Bool
  | 0, _ => ([], false)
  | _ + 1, [] => ([], true)
  | room + 1, c :: source =>
    let (stored, whole) := iopCopyChars room source
    (c :: stored, whole)

/-- `IopCopyString` to a destination of at least one byte. -/
def iopCopyString (destinationBytes : ℕ) (source : CString) : CString × Bool :=
  iopCopyChars (destinationBytes - 1) source

/-! ## File objects -/

/-- `IopFindFileByHeader`. -/
def iopFindFileByHeader (io : IoState) (header : ObjectRef) : Option IoFileRef :=
  firstIndex fun f => io.fileInUse f && (io.filePool f).header == some header

/-- Write a file object and whether it is in use. -/
def IoState.setFile (io : IoState) (f : IoFileRef) (file : IoFileObject) (inUse : Bool) :
    IoState :=
  { io with
    filePool := Function.update io.filePool f file
    fileInUse := Function.update io.fileInUse f inUse }

/-- Write an entry of `gIoBootFiles`. -/
def IoState.setBootFile (io : IoState) (i : Fin ioMaxBootFiles) (file : IoBootFile) : IoState :=
  { io with bootFiles := Function.update io.bootFiles i file }

namespace IoState

variable (io : IoState)

@[simp]
theorem setFile_self (f : IoFileRef) (file : IoFileObject) (b : Bool) :
    (io.setFile f file b).filePool f = file ∧ (io.setFile f file b).fileInUse f = b :=
  ⟨Function.update_self .., Function.update_self ..⟩

theorem setFile_of_ne {f g : IoFileRef} (h : g ≠ f) (file : IoFileObject) (b : Bool) :
    (io.setFile f file b).filePool g = io.filePool g ∧
      (io.setFile f file b).fileInUse g = io.fileInUse g :=
  ⟨Function.update_of_ne h .., Function.update_of_ne h ..⟩

/-- Of two writes to one file object the second one stays. -/
theorem setFile_setFile (f : IoFileRef) (file file' : IoFileObject) (b b' : Bool) :
    (io.setFile f file b).setFile f file' b' = io.setFile f file' b' := by
  simp only [setFile, Function.update_idem]

theorem setBootFile_self (i : Fin ioMaxBootFiles) (file : IoBootFile) :
    (io.setBootFile i file).bootFiles i = file :=
  Function.update_self ..

theorem setBootFile_of_ne {i j : Fin ioMaxBootFiles} (h : j ≠ i) (file : IoBootFile) :
    (io.setBootFile i file).bootFiles j = io.bootFiles j :=
  Function.update_of_ne h ..

end IoState

/-- `IopAllocateFileSlot`. -/
def iopAllocateFileSlot (io : IoState) : IoState × Option IoFileRef :=
  match firstIndex fun f => !io.fileInUse f with
  | some f => (io.setFile f .zero true, some f)
  | none => (io, none)

/-- `IopDeleteFileObject`. -/
def iopDeleteFileObject (io : IoState) (object : ObjectRef) : IoState :=
  match iopFindFileByHeader io object with
  | some f => io.setFile f .zero false
  | none => io

/-- `IopFsFatLookupFile`. -/
def iopFsFatLookupFile (io : IoState) (path : CString) : Option (Fin ioMaxBootFiles) :=
  firstIndex fun i => (io.bootFiles i).inUse && iopStringEquals (io.bootFiles i).path path

/-- `IopVfsOpen` on the file object `f`. -/
def iopVfsOpen (io : IoState) (path : CString) (f : IoFileRef) :
    IoState × Except KStatus Unit :=
  match iopFsFatLookupFile io path with
  | none => (io, .error .notFound)
  | some i =>
    (io.setFile f { io.filePool f with
        data := (io.bootFiles i).data, size := (io.bootFiles i).size } (io.fileInUse f), .ok ())

/-! ## The routines -/

variable {σ : Type} [IoGlobals σ]

open IoGlobals

/-- The delete routine of the type of files. -/
def ioFileDeleteRoutine (object : ObjectRef) (k : σ) : σ :=
  setIo (iopDeleteFileObject (io k) object) k

/-- `IoRegisterBootFile`. A path that does not fit is left in the slot, which stays free. -/
def ioRegisterBootFile (io : IoState) (path : CString) (data size : U64) :
    IoState × Except KStatus Unit :=
  if io.ready = false ∨ data = 0 ∨ size = 0 then (io, .error .invalidParameter)
  else
    match firstIndex fun i => !(io.bootFiles i).inUse with
    | none => (io, .error .initFailed)
    | some i =>
      match iopCopyString ioPathBytes path with
      | (stored, false) =>
        (io.setBootFile i { io.bootFiles i with path := stored }, .error .invalidParameter)
      | (stored, true) => (io.setBootFile i ⟨stored, data, size, true⟩, .ok ())

/-- `IoInitialize`. -/
def ioInitialize (ob : ObState σ) (k : σ) (bootInfo : Option BootInfo) :
    ObState σ × σ × Except KStatus Unit :=
  if (io k).ready then (ob, k, .error .alreadyInitialized)
  else
    let s := { io k with fileInUse := fun _ => false, bootFiles := fun _ => ⟨[], 0, 0, false⟩ }
    match obCreateType ob (some ioFileTypeName) (some ioFileDeleteRoutine) with
    | (ob, .error e) => (ob, setIo s k, .error e)
    | (ob, .ok type) =>
      let s := { s with fileType := some type, ready := true }
      match bootInfo with
      | none => (ob, setIo s k, .ok ())
      | some bootInfo =>
        if bootInfo.hasInitImage then
          (ob, setIo (ioRegisterBootFile s ioInitPath bootInfo.initImageBase
            bootInfo.initImageSize).1 k, .ok ())
        else (ob, setIo s k, .ok ())

/-- `IoOpenPath`. A slot that was taken is not given back when no object can be created. -/
def ioOpenPath (ob : ObState σ) (k : σ) (path : CString) (desiredAccess : U32) :
    ObState σ × σ × Except KStatus U32 :=
  if (io k).ready = false ∨ hasFlag desiredAccess ioFileAccessAll = false then
    (ob, k, .error .invalidParameter)
  else
    match iopAllocateFileSlot (io k) with
    | (_, none) => (ob, k, .error .initFailed)
    | (s, some f) =>
      match obCreateObject ob s.fileType (some ioFileName) ioFileAccessAll 0 with
      | (ob, .error e) => (ob, setIo s k, .error e)
      | (ob, .ok header) =>
        let s := s.setFile f
          { s.filePool f with header := some header, accessMask := desiredAccess }
          (s.fileInUse f)
        match iopVfsOpen s path f with
        | (s, .error e) =>
          let (ob, k, _) := obDereferenceObject ob (setIo s k) header
          (ob, k, .error e)
        | (s, .ok _) =>
          let (ob, result) := obInsertHandle ob header desiredAccess
          let (ob, k, _) := obDereferenceObject ob (setIo s k) header
          (ob, k, result)

/-- The copying loop of `IoReadFileHandle`. -/
def ioReadBytes (memory : U64 → UInt8) (data offset : U64) (n : ℕ) : List UInt8 :=
  (List.range n).map fun i => memory (data + (offset + BitVec.ofNat 64 i))

/-- `IoReadFileHandle`: the bytes copied, `*OutBytesRead` of them. -/
def ioReadFileHandle (memory : U64 → UInt8) (ob : ObState σ) (k : σ) (handleValue : U32)
    (offset bufferLength : U64) : ObState σ × σ × Except KStatus (List UInt8) :=
  if (io k).ready = false ∨ bufferLength = 0 then (ob, k, .error .invalidParameter)
  else
    match obReferenceObjectByHandle ob handleValue ioFileAccessRead (io k).fileType with
    | (ob, .error e) => (ob, k, .error e)
    | (ob, .ok header) =>
      match iopFindFileByHeader (io k) header with
      | none =>
        let (ob, k, _) := obDereferenceObject ob k header
        (ob, k, .error .notFound)
      | some f =>
        let file := (io k).filePool f
        if file.size ≤ offset then
          let (ob, k, _) := obDereferenceObject ob k header
          (ob, k, .ok [])
        else
          let remaining := file.size - offset
          let readLength := if bufferLength < remaining then bufferLength else remaining
          let (ob, k, _) := obDereferenceObject ob k header
          (ob, k, .ok (ioReadBytes memory file.data offset readLength.toNat))

/-- `IoCloseFileHandle`. -/
def ioCloseFileHandle (ob : ObState σ) (k : σ) (handleValue : U32) :
    ObState σ × σ × Except KStatus Unit :=
  if (io k).ready = false ∨ handleValue = 0 then (ob, k, .error .invalidParameter)
  else obCloseHandle ob k handleValue

/-- The bytes a read gives are at most as many as asked for. -/
theorem ioReadFileHandle_length {memory : U64 → UInt8}
    {ob ob' : ObState σ} {k k' : σ} {v : U32} {offset length : U64} {bytes : List UInt8}
    (h : ioReadFileHandle memory ob k v offset length = (ob', k', .ok bytes)) :
    bytes.length ≤ length.toNat := by
  unfold ioReadFileHandle at h
  split at h
  · cases h
  split at h
  · cases h
  split at h
  · cases h
  dsimp only at h
  split at h
  · cases h
    exact Nat.zero_le _
  · cases h
    rw [ioReadBytes, List.length_map, List.length_range]
    split
    · exact le_rfl
    · rename_i hlt
      exact BitVec.not_lt.1 hlt

end NtxKernel.Io
