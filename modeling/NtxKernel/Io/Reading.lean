import NtxKernel.Io.Files
import NtxKernel.Ob.Names

/-!
# Reading the right file

A run of `IoRegisterBootFile`, `IoOpenPath`, `IoReadFileHandle` and `IoCloseFileHandle` after
`IoInitialize`. Three pools are recycled along it, handle entries, object headers and file
objects, and only the header joins them.

* `registered`, `opened` and `inserted` are ghost components: the boot files that were registered
  in order, the path and the access of every handle that was opened and not closed since, and the
  number of handles inserted so far. A run inserts fewer than `2 ^ 30`, so values do not wrap.
* `CallRight` is what a call promises: an open finds exactly the registered paths, a read of an
  opened handle gives the bytes of the file first registered under its path.
* `ReadsOn` reads a handle in consecutive chunks, with any other calls in between, until a read
  gives nothing.
* `files_read_right`: along every run every call is right, and chunks make up the whole file.
-/

namespace NtxKernel.Io

open Foundations Ob Mm IoGlobals

variable {σ : Type} [IoGlobals σ]

/-- The calls of the I/O manager. -/
inductive IoCall
  | registerBootFile (path : CString) (data size : U64)
  | openPath (path : CString) (desiredAccess : U32)
  | readFile (handleValue : U32) (offset bufferLength : U64)
  | closeFile (handleValue : U32)

/-- A boot file as it was registered. -/
structure BootImage where
  path : CString
  data : U64
  size : U64

/-- The bytes of a file. -/
def BootImage.contents (image : BootImage) (memory : U64 → UInt8) : List UInt8 :=
  (List.range image.size.toNat).map fun i => memory (image.data + BitVec.ofNat 64 i)

/-- The object manager, the managers over it and the ghost components. -/
structure IoSystem (σ : Type) where
  ob : ObState σ
  kernel : σ
  /-- The boot files, in the order in which they were registered. -/
  registered : List BootImage
  /-- The path and the access of every handle that `IoOpenPath` returned and nobody closed. -/
  opened : U32 → Option (CString × U32)
  /-- The handles inserted so far. -/
  inserted : ℕ

namespace IoSystem

/-- Perform a call and record its outcome in the ghost components. -/
def perform (s : IoSystem σ) : IoCall → IoSystem σ
  | .registerBootFile path data size =>
    match ioRegisterBootFile (io s.kernel) path data size with
    | (io, .ok _) =>
      { s with kernel := setIo io s.kernel, registered := s.registered ++ [⟨path, data, size⟩] }
    | (io, .error _) => { s with kernel := setIo io s.kernel }
  | .openPath path access =>
    match ioOpenPath s.ob s.kernel path access with
    | (ob, k, .ok v) =>
      { s with
        ob := ob
        kernel := k
        opened := Function.update s.opened v (some (path, access))
        inserted := s.inserted + 1 }
    | (ob, k, .error _) => { s with ob := ob, kernel := k }
  | .readFile v offset length =>
    -- what memory holds decides the bytes of the result only
    match ioReadFileHandle (fun _ => 0) s.ob s.kernel v offset length with
    | (ob, k, _) => { s with ob := ob, kernel := k }
  | .closeFile v =>
    match ioCloseFileHandle s.ob s.kernel v with
    | (ob, k, .ok _) =>
      { s with ob := ob, kernel := k, opened := Function.update s.opened v none }
    | (ob, k, .error _) => { s with ob := ob, kernel := k }

/-- One call of a run that inserts fewer than `2 ^ 30` handles. -/
def Step (s : IoSystem σ) (c : IoCall) (s' : IoSystem σ) : Prop :=
  s' = s.perform c ∧ s'.inserted < 2 ^ 30

/-- The file that was first registered under a path. -/
def firstRegistered (s : IoSystem σ) (path : CString) : Option BootImage :=
  s.registered.find? fun image => image.path == path

/-- The state `IoInitialize` leaves, after `inserted` handles were inserted. -/
def start (ob : ObState σ) (k : σ) (bootInfo : Option BootInfo) (inserted : ℕ) : IoSystem σ where
  ob := ob
  kernel := k
  registered :=
    match bootInfo with
    | some bootInfo =>
      if bootInfo.hasInitImage then
        [⟨ioInitPath, bootInfo.initImageBase, bootInfo.initImageSize⟩]
      else []
    | none => []
  opened _ := none
  inserted := inserted

end IoSystem

variable (memory : U64 → UInt8)

/-- With a slot, a header and an entry to spare, `IoOpenPath` finds the registered paths and no
other. A read through an opened handle gives the bytes asked for, as far as the file goes. -/
def CallRight (s : IoSystem σ) : IoCall → Prop
  | .openPath path access =>
    (∃ f, (io s.kernel).fileInUse f = false) → (∃ o, s.ob.objectInUse o = false) →
      (∃ i, s.ob.kernelHandleTable.entries i = none) →
        access ≠ 0 → access &&& ioFileAccessAll = access →
          ((∃ v, (ioOpenPath s.ob s.kernel path access).2.2 = .ok v) ↔
              ∃ image ∈ s.registered, image.path = path) ∧
            ((∀ image ∈ s.registered, image.path ≠ path) →
              (ioOpenPath s.ob s.kernel path access).2.2 = .error .notFound)
  | .readFile v offset length =>
    ∀ path access, s.opened v = some (path, access) →
      ∃ image, s.firstRegistered path = some image ∧
        (∀ bytes, (ioReadFileHandle memory s.ob s.kernel v offset length).2.2 = .ok bytes →
          bytes = ((image.contents memory).drop offset.toNat).take length.toNat) ∧
        (access &&& ioFileAccessRead = ioFileAccessRead → length ≠ 0 →
          (ioReadFileHandle memory s.ob s.kernel v offset length).2.2 =
            .ok (((image.contents memory).drop offset.toNat).take length.toNat))
  | _ => True

/-- From the state `s`, the handle `v` is read in consecutive chunks from an offset on until a
read gives nothing. Any calls that do not close `v` may come in between. -/
inductive ReadsOn (v : U32) : IoSystem σ → U64 → List UInt8 → Prop
  | finish {s : IoSystem σ} {offset length : U64} :
    (ioReadFileHandle memory s.ob s.kernel v offset length).2.2 = .ok [] → ReadsOn v s offset []
  | other {s s' : IoSystem σ} {c : IoCall} {offset : U64} {bytes : List UInt8} :
    c ≠ .closeFile v → s.Step c s' → ReadsOn v s' offset bytes → ReadsOn v s offset bytes
  | chunk {s s' : IoSystem σ} {offset length : U64} {chunk bytes : List UInt8} :
    s.Step (.readFile v offset length) s' → chunk ≠ [] →
      (ioReadFileHandle memory s.ob s.kernel v offset length).2.2 = .ok chunk →
        ReadsOn v s' (offset + BitVec.ofNat 64 chunk.length) bytes →
          ReadsOn v s offset (chunk ++ bytes)

/-- The handle values in use were issued by the first `inserted` insertions. -/
structure ValuesOk (table : ObHandleTable) (inserted : ℕ) : Prop where
  lt : inserted < 2 ^ 30
  next : table.nextHandle = BitVec.ofNat 32 (4 * (inserted + 1))
  value : ∀ i e, table.entries i = some e →
    ∃ k, 1 ≤ k ∧ k ≤ inserted ∧ e.handleValue = BitVec.ofNat 32 (4 * k)

/-- The object manager in the state in which `IoInitialize` is called. -/
structure BeforeIo (s : ObSystem σ) (inserted : ℕ) : Prop where
  named : Named s
  values : ValuesOk s.ob.kernelHandleTable inserted
  /-- The type of a live object is registered. -/
  type_used : ∀ o t, s.ob.objectInUse o = true → (s.ob.objectPool o).type = some t →
    s.ob.typeInUse t = true
  /-- The delete routines so far leave the I/O manager alone. -/
  routine_keeps : ∀ t routine, (s.ob.typePool t).deleteRoutine = some routine →
    ∀ o k, io (routine o k) = io k

/-! ## Strings and boot files -/

theorem iopStringEquals_iff {left right : CString} :
    iopStringEquals left right = true ↔ left = right := by
  induction left generalizing right with
  | nil => cases right <;> simp [iopStringEquals]
  | cons l left ih => cases right <;> simp [iopStringEquals, ih]

/-- A copy that comes to the end of the source is the source. -/
theorem iopCopyChars_whole {room : ℕ} {source stored : CString}
    (h : iopCopyChars room source = (stored, true)) : stored = source := by
  induction room generalizing source stored with
  | zero => cases h
  | succ room ih =>
    cases source with
    | nil =>
      cases h
      rfl
    | cons c source =>
      rw [iopCopyChars] at h
      rcases hrest : iopCopyChars room source with ⟨tail, whole⟩
      rw [hrest] at h
      cases h
      rw [ih hrest]

/-- The boot file in an entry that is in use. -/
def IoBootFile.image (file : IoBootFile) : Option BootImage :=
  if file.inUse then some ⟨file.path, file.data, file.size⟩ else none

/-- The table of boot files holds the registered files, in order. -/
structure BootFilesOk (io : IoState) (registered : List BootImage) : Prop where
  image_eq : ∀ i : Fin ioMaxBootFiles, (io.bootFiles i).image = registered[i.val]?
  length_le : registered.length ≤ ioMaxBootFiles

theorem image_eq_some {file : IoBootFile} {image : BootImage} :
    file.image = some image ↔
      file.inUse = true ∧ file.path = image.path ∧ file.data = image.data ∧
        file.size = image.size := by
  rcases file with ⟨path, data, size, _ | _⟩ <;> rcases image with ⟨p, d, n⟩ <;>
    simp [IoBootFile.image]

theorem image_eq_none {file : IoBootFile} : file.image = none ↔ file.inUse = false := by
  rcases file with ⟨path, data, size, _ | _⟩ <;> simp [IoBootFile.image]

namespace BootFilesOk

variable {s : IoState} {registered : List BootImage} {path : CString}

theorem inUse_iff (h : BootFilesOk s registered) (i : Fin ioMaxBootFiles) :
    (s.bootFiles i).inUse = false ↔ registered.length ≤ i.val := by
  rw [← image_eq_none, h.image_eq, List.getElem?_eq_none_iff]

/-- What the lookup finds is the file first registered under the path. -/
theorem lookup_some (h : BootFilesOk s registered) {i : Fin ioMaxBootFiles}
    (hi : iopFsFatLookupFile s path = some i) :
    ∃ image, registered.find? (·.path == path) = some image ∧
      (s.bootFiles i).data = image.data ∧ (s.bootFiles i).size = image.size := by
  obtain ⟨hfound, hfirst⟩ := firstIndex_eq_some.1 hi
  rw [Bool.and_eq_true, iopStringEquals_iff] at hfound
  have hentry : (s.bootFiles i).image = some ⟨path, (s.bootFiles i).data, (s.bootFiles i).size⟩ :=
    image_eq_some.2 ⟨hfound.1, hfound.2, rfl, rfl⟩
  rw [h.image_eq] at hentry
  obtain ⟨hlen, hget⟩ := List.getElem?_eq_some_iff.1 hentry
  refine ⟨_, List.find?_eq_some_iff_getElem.2 ⟨beq_self_eq_true _, i.val, hlen, hget, ?_⟩, rfl, rfl⟩
  intro j hj
  have hj' := hfirst ⟨j, by omega⟩ hj
  have himage := h.image_eq ⟨j, by omega⟩
  rw [List.getElem?_eq_getElem (by omega : j < registered.length), image_eq_some] at himage
  obtain ⟨huse, hpath, -, -⟩ := himage
  rw [huse, Bool.true_and, Bool.eq_false_iff, ne_eq, iopStringEquals_iff, hpath] at hj'
  simpa using hj'

/-- The lookup fails when no file is registered under the path. -/
theorem lookup_none (h : BootFilesOk s registered) :
    iopFsFatLookupFile s path = none ↔ ∀ image ∈ registered, image.path ≠ path := by
  rw [iopFsFatLookupFile, firstIndex_eq_none]
  constructor
  · intro hnone image hmem hpath
    obtain ⟨i, hi, hget⟩ := List.getElem_of_mem hmem
    have hlen := h.length_le
    have himage := h.image_eq ⟨i, by omega⟩
    rw [List.getElem?_eq_getElem hi, hget, image_eq_some] at himage
    have := hnone ⟨i, by omega⟩
    rw [himage.1, Bool.true_and, Bool.eq_false_iff] at this
    exact this (iopStringEquals_iff.2 (himage.2.1.trans hpath))
  · intro hall i
    by_contra hfound
    rw [Bool.not_eq_false, Bool.and_eq_true, iopStringEquals_iff] at hfound
    have hentry : (s.bootFiles i).image =
        some ⟨path, (s.bootFiles i).data, (s.bootFiles i).size⟩ :=
      image_eq_some.2 ⟨hfound.1, hfound.2, rfl, rfl⟩
    rw [h.image_eq] at hentry
    exact hall _ (List.mem_of_getElem? hentry) rfl

/-- A registration fills the entry after those in use, or it is refused. -/
theorem register (h : BootFilesOk s registered) (path : CString) (data size : U64) :
    (∃ e s', ioRegisterBootFile s path data size = (s', .error e) ∧ BootFilesOk s' registered ∧
        s' = { s with bootFiles := s'.bootFiles }) ∨
      ∃ s', ioRegisterBootFile s path data size = (s', .ok ()) ∧
        BootFilesOk s' (registered ++ [⟨path, data, size⟩]) ∧
          s' = { s with bootFiles := s'.bootFiles } := by
  by_cases hguard : s.ready = false ∨ data = 0 ∨ size = 0
  · exact .inl ⟨_, s, by rw [ioRegisterBootFile, if_pos hguard], h, rfl⟩
  rcases hfree : firstIndex fun i => !(s.bootFiles i).inUse with _ | i
  · exact .inl ⟨_, s, by rw [ioRegisterBootFile, if_neg hguard, hfree], h, rfl⟩
  obtain ⟨hi, hfirst⟩ := firstIndex_eq_some.1 hfree
  have hunused : (s.bootFiles i).inUse = false := by simpa using hi
  have hge := (h.inUse_iff i).1 hunused
  rcases hcopy : iopCopyString ioPathBytes path with ⟨stored, _ | _⟩
  · refine .inl ⟨_, _, by rw [ioRegisterBootFile, if_neg hguard, hfree]; dsimp only; rw [hcopy],
      ⟨fun j => ?_, h.length_le⟩, rfl⟩
    by_cases hj : j = i
    · subst hj
      rw [List.getElem?_eq_none hge, image_eq_none, IoState.setBootFile_self]
      exact hunused
    · rw [IoState.setBootFile_of_ne _ hj]
      exact h.image_eq j
  · obtain rfl := iopCopyChars_whole hcopy
    -- the entries below the first free one are in use
    have hlen : registered.length = i.val := by
      by_contra hne
      have hlt : registered.length < i.val := by omega
      have := hfirst ⟨registered.length, by omega⟩ hlt
      rw [Bool.not_eq_false'] at this
      have hfalse := (h.inUse_iff ⟨registered.length, by omega⟩).2 le_rfl
      rw [this] at hfalse
      cases hfalse
    refine .inr ⟨_, by rw [ioRegisterBootFile, if_neg hguard, hfree]; dsimp only; rw [hcopy],
      ⟨fun j => ?_, ?_⟩, rfl⟩
    · by_cases hj : j = i
      · subst hj
        rw [IoState.setBootFile_self, ← hlen, List.getElem?_concat_length]
        rfl
      · have hjne : j.val ≠ registered.length := fun heq => hj (Fin.ext (heq.trans hlen))
        rw [IoState.setBootFile_of_ne _ hj, h.image_eq]
        by_cases hlt : j.val < registered.length
        · rw [List.getElem?_append_left hlt]
        · rw [List.getElem?_eq_none (by omega), List.getElem?_eq_none]
          rw [List.length_append, List.length_singleton]
          omega
    · have := i.isLt
      rw [List.length_append, List.length_singleton]
      omega

end BootFilesOk

/-! ## File objects -/

/-- Every file object in use has a live object of the type of files, each its own. -/
structure FilesOk (ob : ObState σ) (s : IoState) (fileType : TypeRef) : Prop where
  ready : s.ready = true
  type_eq : s.fileType = some fileType
  routine : (ob.typePool fileType).deleteRoutine = some ioFileDeleteRoutine
  others : ∀ t ≠ fileType, ∀ routine, (ob.typePool t).deleteRoutine = some routine →
    ∀ o k, io (routine o k) = io k
  slot_live : ∀ f o, s.fileInUse f = true → (s.filePool f).header = some o →
    ob.objectInUse o = true ∧ (ob.objectPool o).type = some fileType
  distinct : ∀ f g o, s.fileInUse f = true → s.fileInUse g = true →
    (s.filePool f).header = some o → (s.filePool g).header = some o → f = g

theorem iopFindFileByHeader_eq_some {s : IoState} {header : ObjectRef} {f : IoFileRef}
    (h : iopFindFileByHeader s header = some f) :
    s.fileInUse f = true ∧ (s.filePool f).header = some header := by
  simpa using firstIndex_sound h

theorem iopFindFileByHeader_eq_none {s : IoState} {header : ObjectRef}
    (h : iopFindFileByHeader s header = none) {f : IoFileRef} (hf : s.fileInUse f = true) :
    (s.filePool f).header ≠ some header := by
  have hnone := firstIndex_eq_none.1 h f
  simpa [hf] using hnone

/-- What a delete routine may leave of the file objects: the object loses its slot and the
others keep theirs. -/
structure Deleted (s s' : IoState) (o : ObjectRef) : Prop where
  ready : s'.ready = s.ready
  fileType : s'.fileType = s.fileType
  bootFiles : s'.bootFiles = s.bootFiles
  kept : ∀ f, s.fileInUse f = true → (s.filePool f).header ≠ some o →
    s'.fileInUse f = true ∧ s'.filePool f = s.filePool f
  left : ∀ f, s'.fileInUse f = true →
    s.fileInUse f = true ∧ s'.filePool f = s.filePool f ∧ (s.filePool f).header ≠ some o

/-- Nothing has to go when the object has no slot. -/
theorem Deleted.refl {s : IoState} {o : ObjectRef}
    (h : ∀ f, s.fileInUse f = true → (s.filePool f).header ≠ some o) : Deleted s s o where
  ready := rfl
  fileType := rfl
  bootFiles := rfl
  kept _ hf _ := ⟨hf, rfl⟩
  left f hf := ⟨hf, rfl, h f hf⟩

namespace FilesOk

variable {ob : ObState σ} {s : IoState} {fileType : TypeRef}

theorem find_eq (h : FilesOk ob s fileType) {f : IoFileRef} {o : ObjectRef}
    (hf : s.fileInUse f = true) (ho : (s.filePool f).header = some o) :
    iopFindFileByHeader s o = some f := by
  rcases hfind : iopFindFileByHeader s o with _ | g
  · exact absurd ho (iopFindFileByHeader_eq_none hfind hf)
  · obtain ⟨hg, hgo⟩ := iopFindFileByHeader_eq_some hfind
    rw [h.distinct f g o hf hg ho hgo]

theorem deleted (h : FilesOk ob s fileType) (o : ObjectRef) :
    Deleted s (iopDeleteFileObject s o) o := by
  rcases hfind : iopFindFileByHeader s o with _ | f
  · rw [iopDeleteFileObject, hfind]
    exact .refl fun f hf => iopFindFileByHeader_eq_none hfind hf
  · obtain ⟨hf, hfo⟩ := iopFindFileByHeader_eq_some hfind
    rw [iopDeleteFileObject, hfind]
    refine ⟨rfl, rfl, rfl, fun g hg hne => ?_, fun g hg => ?_⟩
    · have hgf : g ≠ f := by
        rintro rfl
        exact hne hfo
      obtain ⟨hpool, huse⟩ := IoState.setFile_of_ne s hgf .zero false
      exact ⟨huse.trans hg, hpool⟩
    · by_cases hgf : g = f
      · subst hgf
        rw [(IoState.setFile_self _ g .zero false).2] at hg
        cases hg
      · obtain ⟨hpool, huse⟩ := IoState.setFile_of_ne s hgf .zero false
        rw [huse] at hg
        exact ⟨hg, hpool, fun hgo => hgf (h.distinct g f o hg hf hgo hfo)⟩

/-- The object manager may change as long as live files stay live files. -/
theorem congr {ob' : ObState σ} (h : FilesOk ob s fileType)
    (hpool : ob'.typePool = ob.typePool)
    (hlive : ∀ o, ob.objectInUse o = true → (ob.objectPool o).type = some fileType →
      ob'.objectInUse o = true ∧ (ob'.objectPool o).type = some fileType) :
    FilesOk ob' s fileType where
  ready := h.ready
  type_eq := h.type_eq
  routine := by rw [hpool]; exact h.routine
  others := by rw [hpool]; exact h.others
  slot_live f o hf ho := by
    obtain ⟨huse, htype⟩ := h.slot_live f o hf ho
    exact hlive o huse htype
  distinct := h.distinct

/-- The last reference to `o` goes. -/
theorem lastReference (h : FilesOk ob s fileType) {ob' : ObState σ} {s' : IoState}
    {o : ObjectRef} (hdel : Deleted s s' o) (hpool : ob'.typePool = ob.typePool)
    (huse : ∀ o' ≠ o, ob'.objectInUse o' = ob.objectInUse o')
    (htype : ∀ o' ≠ o, ob'.objectPool o' = ob.objectPool o') : FilesOk ob' s' fileType where
  ready := hdel.ready.trans h.ready
  type_eq := hdel.fileType.trans h.type_eq
  routine := by rw [hpool]; exact h.routine
  others := by rw [hpool]; exact h.others
  slot_live f o' hf ho' := by
    obtain ⟨hf, hsame, hne⟩ := hdel.left f hf
    rw [hsame] at ho'
    have hoo : o' ≠ o := by
      rintro rfl
      exact hne ho'
    rw [huse o' hoo, htype o' hoo]
    exact h.slot_live f o' hf ho'
  distinct f g o' hf hg hfo hgo := by
    obtain ⟨hf, hfs, -⟩ := hdel.left f hf
    obtain ⟨hg, hgs, -⟩ := hdel.left g hg
    rw [hfs] at hfo
    rw [hgs] at hgo
    exact h.distinct f g o' hf hg hfo hgo

/-- Giving back a reference keeps the file objects in order; what stays live keeps its slot. -/
theorem dereference {k : σ} (h : FilesOk ob (io k) fileType) (o : ObjectRef) :
    FilesOk (obDereferenceObject ob k o).1 (io (obDereferenceObject ob k o).2.1) fileType ∧
      (io (obDereferenceObject ob k o).2.1).bootFiles = (io k).bootFiles ∧
      ∀ f o', (io k).fileInUse f = true → ((io k).filePool f).header = some o' →
        (obDereferenceObject ob k o).1.objectInUse o' = true →
          (io (obDereferenceObject ob k o).2.1).fileInUse f = true ∧
            (io (obDereferenceObject ob k o).2.1).filePool f = (io k).filePool f := by
  rcases obDereferenceObject_cases ob k o with ⟨-, heq⟩ | ⟨-, -, -, heq⟩ | ⟨-, -, heq⟩ <;>
    rw [heq]
  · exact ⟨h, rfl, fun f _ hf _ _ => ⟨hf, rfl⟩⟩
  · refine ⟨h.congr rfl fun o' huse htype => ⟨huse, ?_⟩, rfl, fun f _ hf _ _ => ⟨hf, rfl⟩⟩
    by_cases ho : o' = o
    · subst ho
      simp only [Function.update_self, htype]
    · simp only [Function.update_of_ne ho, htype]
  · have hdel : Deleted (io k) (io (ob.runDeleteRoutine o k)) o := by
      -- an object that has a slot is of the type of files
      have hnone : (ob.objectPool o).type ≠ some fileType →
          ∀ f, (io k).fileInUse f = true → ((io k).filePool f).header ≠ some o :=
        fun hne f hf hfo => hne (h.slot_live f o hf hfo).2
      rw [ObState.runDeleteRoutine]
      rcases htype : (ob.objectPool o).type with _ | t
      · exact .refl (hnone (by rw [htype]; exact Option.some_ne_none _ |>.symm))
      dsimp only
      by_cases ht : t = fileType
      · subst ht
        rw [h.routine]
        dsimp only
        rw [ioFileDeleteRoutine, io_setIo]
        exact h.deleted o
      · have hne : ∀ f, (io k).fileInUse f = true → ((io k).filePool f).header ≠ some o :=
          hnone (by rw [htype]; exact fun heq => ht (Option.some.inj heq))
        rcases hroutine : (ob.typePool t).deleteRoutine with _ | routine
        · exact .refl hne
        · dsimp only
          rw [h.others t ht routine hroutine]
          exact .refl hne
    refine ⟨h.lastReference hdel rfl (fun o' ho => Function.update_of_ne ho ..)
      (fun o' ho => Function.update_of_ne ho ..), hdel.bootFiles, fun f o' hf hfo huse => ?_⟩
    refine hdel.kept f hf fun hfo' => ?_
    obtain rfl := Option.some.inj (hfo.symm.trans hfo')
    simp only [Function.update_self, Bool.false_eq_true] at huse

/-- A slot is filled for an object that is new. -/
theorem fill (h : FilesOk ob s fileType) {ob' : ObState σ} {f : IoFileRef} {o : ObjectRef}
    {file : IoFileObject} (hfree : ob.objectInUse o = false) (hfile : file.header = some o)
    (hpool : ob'.typePool = ob.typePool) (huse : ob'.objectInUse o = true)
    (htype : (ob'.objectPool o).type = some fileType)
    (hothers : ∀ o' ≠ o, ob'.objectInUse o' = ob.objectInUse o' ∧
      ob'.objectPool o' = ob.objectPool o') : FilesOk ob' (s.setFile f file true) fileType := by
  have hne : ∀ {g o'}, s.fileInUse g = true → (s.filePool g).header = some o' → o' ≠ o := by
    rintro g o' hg hgo rfl
    rw [(h.slot_live g o' hg hgo).1] at hfree
    cases hfree
  have hold : ∀ {g o'}, (s.setFile f file true).fileInUse g = true →
      ((s.setFile f file true).filePool g).header = some o' →
        (g = f ∧ o' = o) ∨ (g ≠ f ∧ s.fileInUse g = true ∧ (s.filePool g).header = some o') := by
    intro g o' hg hgo
    by_cases hgf : g = f
    · subst hgf
      rw [(IoState.setFile_self _ g file true).1, hfile] at hgo
      exact .inl ⟨rfl, (Option.some.inj hgo).symm⟩
    · obtain ⟨hp, hu⟩ := IoState.setFile_of_ne s hgf file true
      rw [hu] at hg
      rw [hp] at hgo
      exact .inr ⟨hgf, hg, hgo⟩
  refine ⟨h.ready, h.type_eq, by rw [hpool]; exact h.routine, by rw [hpool]; exact h.others,
    fun g o' hg hgo => ?_, fun g g' o' hg hg' hgo hgo' => ?_⟩
  · rcases hold hg hgo with ⟨-, rfl⟩ | ⟨-, hg, hgo⟩
    · exact ⟨huse, htype⟩
    · rw [(hothers o' (hne hg hgo)).1, (hothers o' (hne hg hgo)).2]
      exact h.slot_live g o' hg hgo
  · rcases hold hg hgo with ⟨hgf, ho⟩ | ⟨-, hin, hheader⟩ <;>
      rcases hold hg' hgo' with ⟨hgf', ho'⟩ | ⟨-, hin', hheader'⟩
    · rw [hgf, hgf']
    · exact absurd ho (hne hin' hheader')
    · exact absurd ho' (hne hin hheader)
    · exact h.distinct g g' o' hin hin' hheader hheader'

end FilesOk

/-! ## The invariant -/

/-- The state of a run, with the ghost components `t` of its object manager. A file object is
held by nobody but for the one that is being opened, `borrowed`. -/
structure IoInv (s : IoSystem σ) (t : ObSystem σ) (fileType : TypeRef)
    (borrowed : Option ObjectRef) : Prop where
  ob_eq : t.ob = s.ob
  named : Named t
  files : FilesOk s.ob (io s.kernel) fileType
  boot : BootFilesOk (io s.kernel) s.registered
  values : ValuesOk s.ob.kernelHandleTable s.inserted
  held_eq : ∀ o, s.ob.objectInUse o = true → (s.ob.objectPool o).type = some fileType →
    t.held o = if borrowed = some o then 1 else 0
  opened_ok : ∀ v path access, s.opened v = some (path, access) → ∃ o f image,
    t.issued v = some (o, access) ∧ (s.ob.objectPool o).type = some fileType ∧
      (io s.kernel).fileInUse f = true ∧ ((io s.kernel).filePool f).header = some o ∧
        s.firstRegistered path = some image ∧ ((io s.kernel).filePool f).data = image.data ∧
          ((io s.kernel).filePool f).size = image.size

omit [IoGlobals σ] in
/-- The object manager does the same over any managers. -/
theorem obDereferenceObject_fst (ob : ObState σ) (k k' : σ) (o : ObjectRef) :
    (obDereferenceObject ob k o).1 = (obDereferenceObject ob k' o).1 ∧
      (obDereferenceObject ob k o).2.2 = (obDereferenceObject ob k' o).2.2 := by
  rw [obDereferenceObject, obDereferenceObject]
  split
  · exact ⟨rfl, rfl⟩
  · dsimp only
    split <;> exact ⟨rfl, rfl⟩

omit [IoGlobals σ] in
/-- An object that survives the loss of a reference keeps its type. -/
theorem obDereferenceObject_type {ob : ObState σ} {k : σ} {o o' : ObjectRef}
    (huse : (obDereferenceObject ob k o).1.objectInUse o' = true) :
    ((obDereferenceObject ob k o).1.objectPool o').type = (ob.objectPool o').type ∧
      ob.objectInUse o' = true := by
  rcases obDereferenceObject_cases ob k o with ⟨-, heq⟩ | ⟨-, -, -, heq⟩ | ⟨-, -, heq⟩ <;>
    rw [heq] at huse <;> rw [heq]
  · exact ⟨rfl, huse⟩
  · refine ⟨?_, huse⟩
    by_cases ho : o' = o
    · subst ho
      simp only [Function.update_self]
    · simp only [Function.update_of_ne ho]
  · by_cases ho : o' = o
    · subst ho
      simp at huse
    · simp only [Function.update_of_ne ho] at huse
      exact ⟨by simp only [Function.update_of_ne ho], huse⟩

theorem ofNat_four_mul_ne {j k : ℕ} (hj : j < k) (hk : k < 2 ^ 30) :
    BitVec.ofNat 32 (4 * j) ≠ BitVec.ofNat 32 (4 * k) := by
  intro heq
  have := congrArg BitVec.toNat heq
  rw [BitVec.toNat_ofNat, BitVec.toNat_ofNat, Nat.mod_eq_of_lt (by omega),
    Nat.mod_eq_of_lt (by omega)] at this
  omega

namespace ValuesOk

variable {table table' : ObHandleTable} {n : ℕ}

/-- The next value is neither zero nor in use. -/
theorem fresh (h : ValuesOk table n) (hlt : n + 1 < 2 ^ 30) :
    table.nextHandle ≠ 0 ∧
      ∀ i e, table.entries i = some e → e.handleValue ≠ table.nextHandle := by
  rw [h.next]
  refine ⟨fun hzero => ofNat_four_mul_ne (Nat.succ_pos n) hlt hzero.symm, fun i e hi => ?_⟩
  obtain ⟨k, -, hk, hv⟩ := h.value i e hi
  rw [hv]
  exact ofNat_four_mul_ne (by omega) hlt

theorem insert (h : ValuesOk table n) (hlt : n + 1 < 2 ^ 30) {i : EntryIx} {o : ObjectRef}
    {granted : U32}
    (hentries : table'.entries =
      Function.update table.entries i (some ⟨table.nextHandle, o, granted⟩))
    (hnext : table'.nextHandle = table.nextHandle + 4) : ValuesOk table' (n + 1) where
  lt := hlt
  next := by
    rw [hnext, h.next, show 4 * (n + 1 + 1) = 4 * (n + 1) + 4 by omega, BitVec.ofNat_add]
    rfl
  value j e hj := by
    rw [hentries] at hj
    by_cases hji : j = i
    · rw [hji, Function.update_self] at hj
      cases hj
      exact ⟨n + 1, by omega, le_rfl, h.next⟩
    · rw [Function.update_of_ne hji] at hj
      obtain ⟨k, hk, hkn, hv⟩ := h.value j e hj
      exact ⟨k, hk, by omega, hv⟩

/-- Entries may go. -/
theorem mono (h : ValuesOk table n) (hnext : table'.nextHandle = table.nextHandle)
    (hentries : ∀ i e, table'.entries i = some e → table.entries i = some e) :
    ValuesOk table' n where
  lt := h.lt
  next := hnext.trans h.next
  value i e hi := h.value i e (hentries i e hi)

end ValuesOk

namespace IoInv

variable {s : IoSystem σ} {t : ObSystem σ} {fileType : TypeRef} {borrowed : Option ObjectRef}

/-- An opened handle has its entry, and the object of the entry is live. -/
theorem entry (h : IoInv s t fileType borrowed) {v : U32} {o : ObjectRef} {access : U32}
    (hv : t.issued v = some (o, access)) :
    ∃ i, s.ob.kernelHandleTable.entries i = some ⟨v, o, access⟩ ∧
      s.ob.objectInUse o = true := by
  obtain ⟨i, hi⟩ := (h.named.table.issued_iff v o access).1 hv
  have hlive := (h.named.lifetime.entry_named i _ hi).1
  rw [h.ob_eq] at hi hlive
  exact ⟨i, hi, hlive⟩

/-- Giving back the reference to the object that is being opened. -/
theorem dereference {o : ObjectRef} (h : IoInv s t fileType (some o))
    (huse : s.ob.objectInUse o = true) (htype : (s.ob.objectPool o).type = some fileType) :
    IoInv { s with
        ob := (obDereferenceObject s.ob s.kernel o).1
        kernel := (obDereferenceObject s.ob s.kernel o).2.1 }
      (t.perform (.dereference o)) fileType none := by
  have hheld : t.held o = 1 := by
    rw [h.held_eq o huse htype, if_pos rfl]
  have hob : (t.perform (.dereference o)).ob = (obDereferenceObject s.ob s.kernel o).1 := by
    rw [ObSystem.perform, h.ob_eq]
    exact (obDereferenceObject_fst _ _ _ _).1
  have hnamed : Named (t.perform (.dereference o)) :=
    (h.named.step ⟨by rw [ObSystem.Allowed, hheld]; exact Nat.one_pos, rfl⟩).1 trivial
  obtain ⟨hfiles, hboot, hkept⟩ := h.files.dereference (k := s.kernel) o
  refine ⟨hob, hnamed, hfiles, ⟨by rw [hboot]; exact h.boot.image_eq, h.boot.length_le⟩, ?_, ?_,
    ?_⟩
  · rw [obDereferenceObject_table]
    exact h.values
  · intro o' huse' htype'
    obtain ⟨hsame, hbefore⟩ := obDereferenceObject_type huse'
    rw [hsame] at htype'
    have hh := h.held_eq o' hbefore htype'
    show Function.update t.held o (t.held o - 1) o' = 0
    by_cases ho : o' = o
    · rw [ho, Function.update_self, hheld]
    · rw [Function.update_of_ne ho, hh, if_neg fun heq => ho (Option.some.inj heq).symm]
  · intro v path access hv
    obtain ⟨o', f, image, hissued, htype', hf, hfo, hreg, hdata, hsize⟩ := h.opened_ok v path access hv
    have hissued' : (t.perform (.dereference o)).issued v = some (o', access) := hissued
    obtain ⟨i, hi⟩ := (hnamed.table.issued_iff v o' access).1 hissued'
    have hlive := (hnamed.lifetime.entry_named i _ hi).1
    rw [hob] at hlive
    obtain ⟨hf', hpool⟩ := hkept f o' hf hfo hlive
    refine ⟨o', f, image, hissued', (obDereferenceObject_type hlive).1.trans htype', hf', ?_, hreg,
      ?_, ?_⟩ <;> rw [hpool]
    · exact hfo
    · exact hdata
    · exact hsize

/-- A header and a slot are taken for a file that is being opened. -/
theorem create (h : IoInv s t fileType none) {ob : ObState σ} {o : ObjectRef} {f : IoFileRef}
    (hf : (io s.kernel).fileInUse f = false) (file : IoFileObject) (hfile : file.header = some o)
    (hcreate : obCreateObject s.ob (io s.kernel).fileType (some ioFileName) ioFileAccessAll 0 =
      (ob, .ok o)) :
    IoInv { s with ob := ob, kernel := setIo ((io s.kernel).setFile f file true) s.kernel }
        (t.perform (.createObject fileType ioFileName ioFileAccessAll 0)) fileType (some o) ∧
      ob.objectInUse o = true ∧ (ob.objectPool o).type = some fileType ∧
      (ob.objectPool o).defaultAccessMask = ioFileAccessAll ∧
      (ob.kernelHandleTable = s.ob.kernelHandleTable ∧ ob.ready = s.ob.ready) ∧
      s.ob.objectInUse o = false := by
  rw [h.files.type_eq] at hcreate
  have hstep := (h.named.step (c := .createObject fileType ioFileName ioFileAccessAll 0)
    ⟨trivial, rfl⟩).1 trivial
  rcases obCreateObject_cases s.ob (some fileType) (some ioFileName) ioFileAccessAll 0 with
    ⟨e, heq⟩ | ⟨o₁, ty, nm, hty, -, hfree, heq⟩
  · rw [heq] at hcreate
    cases hcreate
  obtain rfl := Option.some.inj hty
  have hboth := hcreate.symm.trans heq
  obtain rfl : o = o₁ := Except.ok.inj (congrArg Prod.snd hboth)
  have hob := congrArg Prod.fst hboth
  dsimp only at hob
  have htob : (t.perform (.createObject fileType ioFileName ioFileAccessAll 0)).ob = ob ∧
      (t.perform (.createObject fileType ioFileName ioFileAccessAll 0)).held =
        Function.update t.held o (t.held o + 1) ∧
      (t.perform (.createObject fileType ioFileName ioFileAccessAll 0)).issued = t.issued := by
    rw [ObSystem.perform, h.ob_eq, hcreate]
    exact ⟨rfl, rfl, rfl⟩
  obtain ⟨htob, hheld, hissued⟩ := htob
  have huse : ob.objectInUse o = true := by
    rw [hob]
    exact Function.update_self ..
  have htype : (ob.objectPool o).type = some fileType ∧
      (ob.objectPool o).defaultAccessMask = ioFileAccessAll := by
    rw [hob]
    simp only [Function.update_self, and_self]
  have hothers : ∀ o' ≠ o, ob.objectInUse o' = s.ob.objectInUse o' ∧
      ob.objectPool o' = s.ob.objectPool o' := by
    intro o' ho
    rw [hob]
    exact ⟨Function.update_of_ne ho .., Function.update_of_ne ho ..⟩
  have hunheld : t.held o = 0 := by
    have := h.named.lifetime.users_eq_zero (o := o) (by rw [h.ob_eq]; exact hfree)
    rw [ObSystem.users] at this
    omega
  refine ⟨⟨htob, hstep, ?_, ?_, ?_, ?_, ?_⟩, huse, htype.1, htype.2, ?_, hfree⟩
  · rw [io_setIo]
    exact h.files.fill hfree hfile (by rw [hob]) huse htype.1 hothers
  · rw [io_setIo]
    exact ⟨h.boot.image_eq, h.boot.length_le⟩
  · rw [hob]
    exact h.values
  · intro o' huse' htype'
    rw [hheld]
    by_cases ho : o' = o
    · rw [ho, Function.update_self, if_pos rfl, hunheld]
    · rw [Function.update_of_ne ho, if_neg fun heq => ho (Option.some.inj heq).symm]
      dsimp only at huse' htype'
      rw [(hothers o' ho).1] at huse'
      rw [(hothers o' ho).2] at htype'
      rw [h.held_eq o' huse' htype', if_neg (Option.some_ne_none o').symm]
  · intro v path access hv
    obtain ⟨o', g, image, hv', htype', hg, hgo, hrest⟩ := h.opened_ok v path access hv
    have hgf : g ≠ f := by
      rintro rfl
      rw [hf] at hg
      cases hg
    have ho : o' ≠ o := by
      rintro rfl
      rw [(h.files.slot_live g o' hg hgo).1] at hfree
      cases hfree
    obtain ⟨hpool, hin⟩ := IoState.setFile_of_ne (io s.kernel) hgf file true
    refine ⟨o', g, image, by rw [hissued, hv'], by rw [(hothers o' ho).2, htype'], ?_, ?_, ?_⟩
    · rw [io_setIo, hin, hg]
    · rw [io_setIo, hpool, hgo]
    · rw [io_setIo, hpool]
      exact hrest
  · rw [hob]
    exact ⟨rfl, rfl⟩

/-- A handle to the file that is being opened goes out. -/
theorem insert {o : ObjectRef} (h : IoInv s t fileType (some o)) {ob : ObState σ} {v : U32}
    {access : U32} {path : CString} {f : IoFileRef} {image : BootImage}
    (huse : s.ob.objectInUse o = true) (htype : (s.ob.objectPool o).type = some fileType)
    (hinsert : obInsertHandle s.ob o access = (ob, .ok v)) (hlt : s.inserted + 1 < 2 ^ 30)
    (hf : (io s.kernel).fileInUse f = true) (hfo : ((io s.kernel).filePool f).header = some o)
    (hreg : s.firstRegistered path = some image)
    (hdata : ((io s.kernel).filePool f).data = image.data ∧
      ((io s.kernel).filePool f).size = image.size) :
    IoInv { s with
        ob := ob
        opened := Function.update s.opened v (some (path, access))
        inserted := s.inserted + 1 } (t.perform (.insertHandle o access)) fileType (some o) ∧
      ob.objectInUse o = true ∧ (ob.objectPool o).type = some fileType := by
  rcases obInsertHandle_cases s.ob o access with ⟨-, e, heq⟩ | ⟨i, hi, -, heq⟩
  · rw [heq] at hinsert
    cases hinsert
  have hboth := hinsert.symm.trans heq
  obtain rfl : v = s.ob.kernelHandleTable.nextHandle := Except.ok.inj (congrArg Prod.snd hboth)
  have hob := congrArg Prod.fst hboth
  dsimp only at hob
  obtain ⟨hzero, hfresh⟩ := h.values.fresh hlt
  have hcount : (t.ob.objectPool o).refCount.toNat + 1 < 2 ^ 32 := by
    rw [h.named.lifetime.refCount_eq, ObSystem.users, h.held_eq o huse htype, if_pos rfl,
      ObState.handleCount, entryCount]
    have := countCells_le_card (fun e : Option ObHandleTableEntry => e.any (·.object == o))
      t.ob.kernelHandleTable.entries
    rw [Fintype.card_fin] at this
    simp only [obMaxHandles] at this
    omega
  have hstep := (h.named.step (c := .insertHandle o access)
    ⟨by rw [ObSystem.Allowed, h.ob_eq]; exact huse, rfl⟩).1 fun _ _ =>
      ⟨by rw [h.ob_eq]; exact hzero, by rw [h.ob_eq]; exact hfresh, hcount⟩
  have htob : (t.perform (.insertHandle o access)).ob = ob ∧
      (t.perform (.insertHandle o access)).held = t.held ∧
      (t.perform (.insertHandle o access)).issued =
        Function.update t.issued s.ob.kernelHandleTable.nextHandle (some (o, access)) := by
    rw [ObSystem.perform, h.ob_eq, hinsert]
    exact ⟨rfl, rfl, rfl⟩
  obtain ⟨htob, hheld, hissued⟩ := htob
  have hsame : ∀ o', ob.objectInUse o' = s.ob.objectInUse o' ∧
      (ob.objectPool o').type = (s.ob.objectPool o').type := by
    intro o'
    rw [hob]
    refine ⟨rfl, ?_⟩
    by_cases ho : o' = o
    · subst ho
      simp only [Function.update_self]
    · simp only [Function.update_of_ne ho]
  refine ⟨⟨htob, hstep, ?_, h.boot, ?_, ?_, ?_⟩, by rw [(hsame o).1, huse],
    by rw [(hsame o).2, htype]⟩
  · exact h.files.congr (by rw [hob]) fun o' hu ht =>
      ⟨by rw [(hsame o').1, hu], by rw [(hsame o').2, ht]⟩
  · exact h.values.insert hlt (by rw [hob]) (by rw [hob])
  · intro o' hu ht
    dsimp only at hu ht
    rw [hheld]
    exact h.held_eq o' (by rw [← (hsame o').1, hu]) (by rw [← (hsame o').2, ht])
  · intro v' path' access' hv'
    by_cases hv : v' = s.ob.kernelHandleTable.nextHandle
    · subst hv
      dsimp only at hv'
      rw [Function.update_self] at hv'
      cases hv'
      exact ⟨o, f, image, by rw [hissued, Function.update_self], by rw [(hsame o).2, htype], hf,
        hfo, hreg, hdata.1, hdata.2⟩
    · dsimp only at hv'
      rw [Function.update_of_ne hv] at hv'
      obtain ⟨o', g, image', hissued', htype', hrest⟩ := h.opened_ok v' path' access' hv'
      exact ⟨o', g, image', by rw [hissued, Function.update_of_ne hv, hissued'],
        by rw [(hsame o').2, htype'], hrest⟩

end IoInv

/-! ## Opening -/

/-- `IoVfsOpen` on a slot that was just filled. -/
theorem iopVfsOpen_setFile {s : IoState} {path : CString} {f : IoFileRef} {o : ObjectRef}
    {access : U32} :
    iopVfsOpen ((s.setFile f .zero true).setFile f
        { (s.setFile f .zero true).filePool f with header := some o, accessMask := access }
        ((s.setFile f .zero true).fileInUse f)) path f =
      match iopFsFatLookupFile s path with
      | none => (s.setFile f ⟨some o, 0, 0, access⟩ true, .error .notFound)
      | some i =>
        (s.setFile f ⟨some o, (s.bootFiles i).data, (s.bootFiles i).size, access⟩ true, .ok ()) := by
  rw [IoState.setFile_setFile, (IoState.setFile_self _ f .zero true).1,
    (IoState.setFile_self _ f .zero true).2, iopVfsOpen]
  have hlookup : iopFsFatLookupFile (s.setFile f { IoFileObject.zero with
      header := some o, accessMask := access } true) path = iopFsFatLookupFile s path := rfl
  rw [hlookup]
  rcases iopFsFatLookupFile s path with _ | i
  · rfl
  · dsimp only
    rw [IoState.setFile_setFile, (IoState.setFile_self _ f _ true).1,
      (IoState.setFile_self _ f _ true).2]
    rfl

/-- What `IoOpenPath` does: nothing; or it loses a slot; or it creates a file object, which it
deletes again when the path is not found or no handle can be inserted. -/
theorem ioOpenPath_cases (ob : ObState σ) (k : σ) (path : CString) (access : U32) :
    (((io k).ready = false ∨ hasFlag access ioFileAccessAll = false ∨
          ∀ f, (io k).fileInUse f = true) ∧
        ∃ e, ioOpenPath ob k path access = (ob, k, .error e)) ∨
      ∃ f, (io k).fileInUse f = false ∧
        ((∃ e ob₁, obCreateObject ob (io k).fileType (some ioFileName) ioFileAccessAll 0 =
            (ob₁, .error e) ∧
          ioOpenPath ob k path access =
            (ob₁, setIo ((io k).setFile f .zero true) k, .error e)) ∨
        ∃ ob₁ o, obCreateObject ob (io k).fileType (some ioFileName) ioFileAccessAll 0 =
            (ob₁, .ok o) ∧
          ((iopFsFatLookupFile (io k) path = none ∧
            ioOpenPath ob k path access =
              let k₁ := setIo ((io k).setFile f ⟨some o, 0, 0, access⟩ true) k
              ((obDereferenceObject ob₁ k₁ o).1, (obDereferenceObject ob₁ k₁ o).2.1,
                .error .notFound)) ∨
          ∃ i, iopFsFatLookupFile (io k) path = some i ∧
            ioOpenPath ob k path access =
              let k₁ := setIo ((io k).setFile f ⟨some o, ((io k).bootFiles i).data,
                ((io k).bootFiles i).size, access⟩ true) k
              let ob₂ := (obInsertHandle ob₁ o access).1
              ((obDereferenceObject ob₂ k₁ o).1, (obDereferenceObject ob₂ k₁ o).2.1,
                (obInsertHandle ob₁ o access).2))) := by
  by_cases hguard : (io k).ready = false ∨ hasFlag access ioFileAccessAll = false
  · exact .inl ⟨hguard.elim .inl (.inr ∘ .inl), _, by rw [ioOpenPath, if_pos hguard]⟩
  rcases hfree : firstIndex fun f => !(io k).fileInUse f with _ | f
  · refine .inl ⟨.inr (.inr fun f => by simpa using firstIndex_eq_none.1 hfree f), .initFailed, ?_⟩
    rw [ioOpenPath, if_neg hguard, iopAllocateFileSlot, hfree]
  refine .inr ⟨f, by simpa using firstIndex_sound hfree, ?_⟩
  have htype : ((io k).setFile f .zero true).fileType = (io k).fileType := rfl
  rcases hcreate : obCreateObject ob (io k).fileType (some ioFileName) ioFileAccessAll 0 with
    ⟨ob₁, e | o⟩
  · refine .inl ⟨e, ob₁, rfl, ?_⟩
    rw [ioOpenPath, if_neg hguard, iopAllocateFileSlot, hfree]
    dsimp only
    rw [htype, hcreate]
  · refine .inr ⟨ob₁, o, rfl, ?_⟩
    rcases hlookup : iopFsFatLookupFile (io k) path with _ | i
    · refine .inl ⟨rfl, ?_⟩
      rw [ioOpenPath, if_neg hguard, iopAllocateFileSlot, hfree]
      dsimp only
      rw [htype, hcreate]
      dsimp only
      rw [iopVfsOpen_setFile, hlookup]
    · refine .inr ⟨i, rfl, ?_⟩
      rw [ioOpenPath, if_neg hguard, iopAllocateFileSlot, hfree]
      dsimp only
      rw [htype, hcreate]
      dsimp only
      rw [iopVfsOpen_setFile, hlookup]

namespace IoInv

variable {s : IoSystem σ} {t : ObSystem σ} {fileType : TypeRef}

/-- A slot is lost when no object can be created. -/
theorem leak (h : IoInv s t fileType none) {f : IoFileRef}
    (hf : (io s.kernel).fileInUse f = false) :
    IoInv { s with kernel := setIo ((io s.kernel).setFile f .zero true) s.kernel } t fileType
      none := by
  have hne : ∀ {g}, (io s.kernel).fileInUse g = true → g ≠ f := by
    rintro g hg rfl
    rw [hf] at hg
    cases hg
  have hold : ∀ g o, ((io s.kernel).setFile f .zero true).fileInUse g = true →
      (((io s.kernel).setFile f .zero true).filePool g).header = some o →
        (io s.kernel).fileInUse g = true ∧ ((io s.kernel).filePool g).header = some o := by
    intro g o hg hgo
    by_cases hgf : g = f
    · subst hgf
      rw [(IoState.setFile_self _ g .zero true).1] at hgo
      cases hgo
    · obtain ⟨hp, hu⟩ := IoState.setFile_of_ne (io s.kernel) hgf .zero true
      exact ⟨hu.symm.trans hg, by rw [← hp]; exact hgo⟩
  refine ⟨h.ob_eq, h.named, ?_, ?_, h.values, h.held_eq, fun v path access hv => ?_⟩
  · rw [io_setIo]
    exact ⟨h.files.ready, h.files.type_eq, h.files.routine, h.files.others,
      fun g o hg hgo => h.files.slot_live g o (hold g o hg hgo).1 (hold g o hg hgo).2,
      fun g g' o hg hg' hgo hgo' => h.files.distinct g g' o (hold g o hg hgo).1
        (hold g' o hg' hgo').1 (hold g o hg hgo).2 (hold g' o hg' hgo').2⟩
  · rw [io_setIo]
    exact ⟨h.boot.image_eq, h.boot.length_le⟩
  · obtain ⟨o, g, image, hissued, htype, hg, hgo, hrest⟩ := h.opened_ok v path access hv
    obtain ⟨hp, hu⟩ := IoState.setFile_of_ne (io s.kernel) (hne hg) .zero true
    exact ⟨o, g, image, hissued, htype, by rw [io_setIo, hu, hg], by rw [io_setIo, hp, hgo],
      by rw [io_setIo, hp]; exact hrest⟩

/-- Opening keeps the invariant. -/
theorem openPath (h : IoInv s t fileType none) (path : CString) (access : U32)
    (hlt : (s.perform (.openPath path access)).inserted < 2 ^ 30) :
    ∃ t', IoInv (s.perform (.openPath path access)) t' fileType none := by
  revert hlt
  rw [IoSystem.perform]
  rcases ioOpenPath_cases s.ob s.kernel path access with ⟨-, e, heq⟩ |
    ⟨f, hf, ⟨e, ob₁, hcreate, heq⟩ | ⟨ob₁, o, hcreate, ⟨-, heq⟩ | ⟨i, hi, heq⟩⟩⟩ <;> rw [heq]
  · exact fun _ => ⟨t, h⟩
  · intro _
    have hsame : ob₁ = s.ob := by
      rcases obCreateObject_cases s.ob (io s.kernel).fileType (some ioFileName) ioFileAccessAll 0
        with ⟨e', hc⟩ | ⟨o, ty, nm, -, -, -, hc⟩
      · exact congrArg Prod.fst (hcreate.symm.trans hc)
      · rw [hc] at hcreate
        cases hcreate
    rw [hsame]
    exact ⟨t, h.leak hf⟩
  · intro _
    obtain ⟨h₁, huse, htype, -⟩ := h.create hf ⟨some o, 0, 0, access⟩ rfl hcreate
    exact ⟨_, h₁.dereference huse htype⟩
  · obtain ⟨image, hreg, hdata, hsize⟩ := h.boot.lookup_some hi
    obtain ⟨h₁, huse, htype, -⟩ := h.create hf ⟨some o, _, _, access⟩ rfl hcreate
    dsimp only
    rcases hinsert : obInsertHandle ob₁ o access with ⟨ob₂, e | v⟩
    · intro _
      have hsame : ob₂ = ob₁ := by
        rcases obInsertHandle_cases ob₁ o access with ⟨-, e', hc⟩ | ⟨j, -, -, hc⟩
        · exact congrArg Prod.fst (hinsert.symm.trans hc)
        · rw [hc] at hinsert
          cases hinsert
      rw [hsame]
      exact ⟨_, h₁.dereference huse htype⟩
    · intro hlt
      have hslot := IoState.setFile_self (io s.kernel) f
        ⟨some o, ((io s.kernel).bootFiles i).data, ((io s.kernel).bootFiles i).size, access⟩ true
      obtain ⟨h₂, huse₂, htype₂⟩ := h₁.insert huse htype hinsert hlt (by rw [io_setIo, hslot.2]) (by rw [io_setIo, hslot.1]) hreg
        (by rw [io_setIo, hslot.1]; exact ⟨hdata, hsize⟩)
      exact ⟨_, h₂.dereference huse₂ htype₂⟩

/-! ## The other calls -/

theorem registerBootFile (h : IoInv s t fileType none) (path : CString) (data size : U64) :
    IoInv (s.perform (.registerBootFile path data size)) t fileType none := by
  rw [IoSystem.perform]
  have hfiles : ∀ s' : IoState, s' = { io s.kernel with bootFiles := s'.bootFiles } →
      FilesOk s.ob s' fileType := by
    intro s' hs'
    rw [hs']
    exact ⟨h.files.ready, h.files.type_eq, h.files.routine, h.files.others, h.files.slot_live,
      h.files.distinct⟩
  have hslot : ∀ s' : IoState, s' = { io s.kernel with bootFiles := s'.bootFiles } →
      s'.fileInUse = (io s.kernel).fileInUse ∧ s'.filePool = (io s.kernel).filePool := by
    intro s' hs'
    rw [hs']
    exact ⟨rfl, rfl⟩
  rcases h.boot.register path data size with ⟨e, s', heq, hboot, hs'⟩ | ⟨s', heq, hboot, hs'⟩ <;>
    rw [heq]
  · refine ⟨h.ob_eq, h.named, by rw [io_setIo]; exact hfiles s' hs', by rw [io_setIo]; exact hboot,
      h.values, h.held_eq, fun v path' access hv => ?_⟩
    obtain ⟨o, f, image, hissued, htype, hf, hrest⟩ := h.opened_ok v path' access hv
    refine ⟨o, f, image, hissued, htype, ?_, ?_⟩
    · rw [io_setIo, (hslot s' hs').1, hf]
    · rw [io_setIo, (hslot s' hs').2]
      exact hrest
  · refine ⟨h.ob_eq, h.named, by rw [io_setIo]; exact hfiles s' hs', by rw [io_setIo]; exact hboot,
      h.values, h.held_eq, fun v path' access hv => ?_⟩
    obtain ⟨o, f, image, hissued, htype, hf, hfo, hreg, hrest⟩ := h.opened_ok v path' access hv
    refine ⟨o, f, image, hissued, htype, ?_, ?_, ?_, ?_⟩
    · rw [io_setIo, (hslot s' hs').1, hf]
    · rw [io_setIo, (hslot s' hs').2, hfo]
    · -- what was registered first stays first
      rw [IoSystem.firstRegistered] at hreg ⊢
      rw [List.find?_append, hreg, Option.some_or]
    · rw [io_setIo, (hslot s' hs').2]
      exact hrest

/-- A file object has as many users as handles. -/
theorem refCount_lt (h : IoInv s t fileType none) {i : EntryIx} {e : ObHandleTableEntry}
    (hi : s.ob.kernelHandleTable.entries i = some e)
    (htype : (s.ob.objectPool e.object).type = some fileType) :
    (s.ob.objectPool e.object).refCount ≠ 0 ∧
      (s.ob.objectPool e.object).refCount.toNat + 1 < 2 ^ 32 := by
  rw [← h.ob_eq] at hi
  have hlive := (h.named.lifetime.entry_named i e hi).1
  have hne := h.named.lifetime.refCount_ne_zero (ObSystem.users_pos_of_entry hi)
  have hcount := h.named.lifetime.refCount_eq e.object
  rw [h.ob_eq] at hlive hne hcount
  refine ⟨hne, ?_⟩
  rw [hcount, ObSystem.users, h.held_eq _ hlive htype, if_neg (Option.some_ne_none _).symm,
    ObState.handleCount, entryCount]
  have := countCells_le_card (fun e' : Option ObHandleTableEntry => e'.any (·.object == e.object))
    t.ob.kernelHandleTable.entries
  rw [Fintype.card_fin] at this
  simp only [obMaxHandles] at this
  omega

/-- A read leaves everything as it was. -/
theorem read_unchanged (h : IoInv s t fileType none) (memory : U64 → UInt8) (v : U32)
    (offset length : U64) :
    (ioReadFileHandle memory s.ob s.kernel v offset length).1 = s.ob ∧
      (ioReadFileHandle memory s.ob s.kernel v offset length).2.1 = s.kernel := by
  by_cases hguard : (io s.kernel).ready = false ∨ length = 0
  · rw [ioReadFileHandle, if_pos hguard]
    exact ⟨rfl, rfl⟩
  rw [ioReadFileHandle, if_neg hguard]
  rcases hreference : obReferenceObjectByHandle s.ob v ioFileAccessRead (io s.kernel).fileType with
    ⟨ob₁, e | o⟩
  · rcases obReferenceObjectByHandle_cases s.ob v ioFileAccessRead (io s.kernel).fileType with
      ⟨e', hc⟩ | ⟨i, e', -, -, -, hc⟩
    · exact ⟨congrArg Prod.fst (hreference.symm.trans hc), rfl⟩
    · rw [hc] at hreference
      cases hreference
  have hcount : (s.ob.objectPool o).refCount ≠ 0 ∧
      (s.ob.objectPool o).refCount.toNat + 1 < 2 ^ 32 := by
    rcases obReferenceObjectByHandle_cases s.ob v ioFileAccessRead (io s.kernel).fileType with
      ⟨e', hc⟩ | ⟨i, e', hfind, -, htype, hc⟩
    · rw [hc] at hreference
      cases hreference
    · obtain rfl := Except.ok.inj (congrArg Prod.snd (hreference.symm.trans hc))
      rw [h.files.type_eq] at htype
      exact h.refCount_lt (obpFindHandleEntry_eq_some.1 hfind).1
        (htype.resolve_left (Option.some_ne_none _))
  have hback := obDereferenceObject_of_reference hreference hcount.1 hcount.2 s.kernel
  dsimp only
  split
  · rw [hback]
    exact ⟨rfl, rfl⟩
  split
  · rw [hback]
    exact ⟨rfl, rfl⟩
  · rw [hback]
    exact ⟨rfl, rfl⟩

theorem readFile (h : IoInv s t fileType none) (v : U32) (offset length : U64) :
    s.perform (.readFile v offset length) = s := by
  obtain ⟨hob, hkernel⟩ := h.read_unchanged (fun _ => 0) v offset length
  rw [IoSystem.perform]
  rcases hread : ioReadFileHandle (fun _ => 0) s.ob s.kernel v offset length with ⟨ob, k, r⟩
  rw [hread] at hob hkernel
  dsimp only at hob hkernel ⊢
  rw [hob, hkernel]

theorem closeFile (h : IoInv s t fileType none) (v : U32) :
    ∃ t', IoInv (s.perform (.closeFile v)) t' fileType none := by
  rw [IoSystem.perform]
  by_cases hguard : (io s.kernel).ready = false ∨ v = 0
  · rw [ioCloseFileHandle, if_pos hguard]
    exact ⟨t, h⟩
  rw [ioCloseFileHandle, if_neg hguard]
  rcases obCloseHandle_cases s.ob s.kernel v with ⟨e, heq⟩ | ⟨i, e, hfind, heq⟩
  · rw [heq]
    exact ⟨t, h⟩
  obtain ⟨hi, rfl, -⟩ := obpFindHandleEntry_eq_some.1 hfind
  have hti : t.ob.kernelHandleTable.entries i = some e := by rw [h.ob_eq, hi]
  have hne := h.named.lifetime.refCount_ne_zero (ObSystem.users_pos_of_entry hti)
  rw [h.ob_eq] at hne
  have hready : s.ob.ready = true := by
    rw [← h.ob_eq]
    exact h.named.lifetime.ready
  obtain ⟨hok, -, -⟩ := obDereferenceObject_drops hready hne s.kernel
  obtain ⟨hok', -, -⟩ := obDereferenceObject_drops hready hne t.rest
  have hnamed := (h.named.step (c := .closeHandle e.handleValue) ⟨trivial, rfl⟩).1 trivial
  have hclose : obCloseHandle t.ob t.rest e.handleValue =
      ((obDereferenceObject s.ob t.rest e.object).1.setEntry i none,
        (obDereferenceObject s.ob t.rest e.object).2) := by
    rw [h.ob_eq]
    exact obCloseHandle_of_find hready
      (by rintro hzero; exact h.named.table.ne_zero i e hti hzero) hfind t.rest
  have hob : (t.perform (.closeHandle e.handleValue)).ob =
      (obDereferenceObject s.ob s.kernel e.object).1.setEntry i none := by
    rw [ObSystem.perform_closeHandle_ob, hclose]
    dsimp only
    rw [(obDereferenceObject_fst s.ob t.rest s.kernel e.object).1]
  have hissued : (t.perform (.closeHandle e.handleValue)).issued =
      Function.update t.issued e.handleValue none := by
    rw [ObSystem.perform, hclose]
    generalize obDereferenceObject s.ob t.rest e.object = r at hok'
    obtain ⟨ob, rest, status⟩ := r
    subst hok'
    rfl
  obtain ⟨hfiles, hboot, hkept⟩ := h.files.dereference (k := s.kernel) e.object
  have htable := obDereferenceObject_table s.ob s.kernel e.object
  have htype : ∀ o', (obDereferenceObject s.ob s.kernel e.object).1.objectInUse o' = true →
      ((obDereferenceObject s.ob s.kernel e.object).1.objectPool o').type =
        (s.ob.objectPool o').type ∧ s.ob.objectInUse o' = true :=
    fun o' => obDereferenceObject_type
  rw [heq]
  generalize obDereferenceObject s.ob s.kernel e.object = r at *
  obtain ⟨ob, k, status⟩ := r
  dsimp only at hok hob hfiles hboot hkept htable htype ⊢
  subst hok
  refine ⟨t.perform (.closeHandle e.handleValue), hob, hnamed, hfiles.congr rfl fun _ hu ht =>
    ⟨hu, ht⟩, ⟨by rw [hboot]; exact h.boot.image_eq, h.boot.length_le⟩,
    h.values.mono (by rw [ObState.setEntry, htable]) fun j e' hj => ?_, fun o hu ht => ?_,
    fun v path access hv => ?_⟩
  · rw [ObState.setEntry, htable] at hj
    by_cases hji : j = i
    · rw [hji] at hj
      simp at hj
    · simpa only [Function.update_of_ne hji] using hj
  · obtain ⟨hsame, hbefore⟩ := htype o hu
    rw [ObSystem.perform_closeHandle_held]
    exact h.held_eq o hbefore (hsame.symm.trans ht)
  · dsimp only at hv
    by_cases hve : v = e.handleValue
    · rw [hve, Function.update_self] at hv
      cases hv
    rw [Function.update_of_ne hve] at hv
    obtain ⟨o, f, image, hv', ht, hf, hfo, hrest⟩ := h.opened_ok v path access hv
    have hv'' : (t.perform (.closeHandle e.handleValue)).issued v = some (o, access) := by
      rw [hissued, Function.update_of_ne hve, hv']
    obtain ⟨j, hj⟩ := (hnamed.table.issued_iff v o access).1 hv''
    have hlive := (hnamed.lifetime.entry_named j _ hj).1
    rw [hob] at hlive
    obtain ⟨hf', hpool⟩ := hkept f o hf hfo hlive
    refine ⟨o, f, image, hv'', (htype o hlive).1.trans ht, hf', ?_, ?_⟩
    · rw [hpool, hfo]
    · rw [hpool]
      exact hrest

end IoInv

/-! ## Reading -/

theorem BootImage.length_contents (image : BootImage) :
    (image.contents memory).length = image.size.toNat := by
  rw [contents, List.length_map, List.length_range]

/-- The copying loop copies a part of the file. -/
theorem ioReadBytes_eq (image : BootImage) (offset : U64) {n length : ℕ}
    (hn : n = min length (image.size.toNat - offset.toNat)) :
    ioReadBytes memory image.data offset n =
      ((image.contents memory).drop offset.toNat).take length := by
  apply List.ext_getElem
  · rw [ioReadBytes, List.length_map, List.length_range, List.length_take, List.length_drop,
      BootImage.length_contents, hn]
  · intro i hi hi'
    simp only [ioReadBytes, BootImage.contents, List.getElem_map, List.getElem_range,
      List.getElem_take, List.getElem_drop]
    rw [BitVec.ofNat_add, BitVec.ofNat_toNat, BitVec.setWidth_eq]

namespace IoInv

variable {s : IoSystem σ} {t : ObSystem σ} {fileType : TypeRef}

/-- What a read through an opened handle returns. -/
theorem read_opened (h : IoInv s t fileType none) {v : U32} {path : CString} {access : U32}
    (hv : s.opened v = some (path, access)) (offset length : U64) :
    ∃ image, s.firstRegistered path = some image ∧
      (ioReadFileHandle memory s.ob s.kernel v offset length).2.2 =
        if length = 0 then .error .invalidParameter
        else if access &&& ioFileAccessRead ≠ ioFileAccessRead then .error .accessDenied
        else .ok (((image.contents memory).drop offset.toNat).take length.toNat) := by
  obtain ⟨o, f, image, hissued, htype, hf, hfo, hreg, hdata, hsize⟩ :=
    h.opened_ok v path access hv
  refine ⟨image, hreg, ?_⟩
  by_cases hlength : length = 0
  · rw [ioReadFileHandle, if_pos (.inr hlength), if_pos hlength]
  have hguard : ¬((io s.kernel).ready = false ∨ length = 0) :=
    not_or.2 ⟨by simp [h.files.ready], hlength⟩
  obtain ⟨i, hi⟩ := (h.named.table.issued_iff v o access).1 hissued
  have hfind := h.named.table.find_eq hi
  have hready := h.named.lifetime.ready
  have hzero := h.named.table.ne_zero i _ hi
  rw [h.ob_eq] at hfind hready
  have hreference := obReferenceObjectByHandle_of_find hready hzero hfind ioFileAccessRead
    (io s.kernel).fileType
  rw [ioReadFileHandle, if_neg hguard, if_neg hlength, hreference]
  by_cases haccess : access &&& ioFileAccessRead ≠ ioFileAccessRead
  · rw [if_pos haccess, if_pos haccess]
  have htype' : ¬((io s.kernel).fileType ≠ none ∧
      (s.ob.objectPool o).type ≠ (io s.kernel).fileType) := by
    rw [h.files.type_eq]
    exact fun hbad => hbad.2 htype
  rw [if_neg haccess, if_neg haccess, if_neg htype']
  dsimp only
  rw [h.files.find_eq hf hfo]
  dsimp only
  by_cases hend : ((io s.kernel).filePool f).size ≤ offset
  · -- at or beyond the end there is nothing to read
    rw [if_pos hend, List.drop_eq_nil_of_le, List.take_nil]
    rw [BootImage.length_contents, ← hsize]
    exact hend
  · rw [if_neg hend, hdata, ioReadBytes_eq memory image offset]
    rw [← hsize]
    have hlt := BitVec.not_le.1 hend
    split <;> rename_i hcmp <;> bv_omega

/-- With everything to spare, opening finds the registered paths. -/
theorem open_right (h : IoInv s t fileType none) (path : CString) (access : U32) :
    CallRight memory s (.openPath path access) := by
  rintro ⟨f₀, hf₀⟩ ⟨o₀, ho₀⟩ ⟨i₀, hi₀⟩ hne hall
  have hflag : hasFlag access ioFileAccessAll = true := by
    rw [hasFlag_iff, hall]
    exact hne
  have hready : s.ob.ready = true := by
    rw [← h.ob_eq]
    exact h.named.lifetime.ready
  have hreg : iopFsFatLookupFile (io s.kernel) path = none ↔
      ∀ image ∈ s.registered, image.path ≠ path := h.boot.lookup_none
  rcases ioOpenPath_cases s.ob s.kernel path access with ⟨hrefused, e, -⟩ |
    ⟨f, hf, ⟨e, ob₁, hcreate, -⟩ | ⟨ob₁, o, hcreate, ⟨hnone, heq⟩ | ⟨i, hi, heq⟩⟩⟩
  · rcases hrefused with hr | hr | hr
    · rw [h.files.ready] at hr
      cases hr
    · rw [hflag] at hr
      cases hr
    · rw [hr f₀] at hf₀
      cases hf₀
  · -- there is a header to spare
    rw [h.files.type_eq, obCreateObject, if_neg (by simp [hready])] at hcreate
    rcases hfree : firstIndex fun o => !s.ob.objectInUse o with _ | o
    · have := firstIndex_eq_none.1 hfree o₀
      rw [ho₀] at this
      cases this
    · rw [hfree] at hcreate
      cases hcreate
  · rw [heq]
    refine ⟨⟨?_, ?_⟩, fun _ => rfl⟩
    · rintro ⟨v, hv⟩
      cases hv
    · rintro ⟨image, hmem, hpath⟩
      exact absurd hpath (hreg.1 hnone image hmem)
  · obtain ⟨-, huse, htype, hmask, ⟨htable, hready₁⟩, -⟩ :=
      h.create hf ⟨some o, 0, 0, 0⟩ rfl hcreate
    have hsome : ∃ image ∈ s.registered, image.path = path := by
      by_contra hno
      have := hreg.2 fun image hmem hpath => hno ⟨image, hmem, hpath⟩
      rw [hi] at this
      cases this
    have hok : ∃ v, (obInsertHandle ob₁ o access).2 = .ok v := by
      rcases obInsertHandle_cases ob₁ o access with ⟨hfull, -⟩ | ⟨j, -, -, hc⟩
      · rw [htable, hready₁, hmask] at hfull
        exact absurd hi₀ (hfull hready hall i₀)
      · exact ⟨_, by rw [hc]⟩
    rw [heq]
    refine ⟨⟨fun _ => hsome, fun _ => hok⟩, fun hno => ?_⟩
    obtain ⟨image, hmem, hpath⟩ := hsome
    exact absurd hpath (hno image hmem)

/-- Every call is right. -/
theorem callRight (h : IoInv s t fileType none) (c : IoCall) : CallRight memory s c := by
  cases c with
  | registerBootFile path data size => trivial
  | openPath path access => exact h.open_right memory path access
  | readFile v offset length =>
    intro path access hv
    obtain ⟨image, hreg, hread⟩ := h.read_opened memory hv offset length
    refine ⟨image, hreg, fun bytes hbytes => ?_, fun haccess hlength => ?_⟩
    · rw [hread] at hbytes
      split at hbytes
      · cases hbytes
      split at hbytes
      · cases hbytes
      · exact (Except.ok.inj hbytes).symm
    · rw [hread, if_neg hlength, if_neg (not_not.2 haccess)]
  | closeFile v => trivial

/-- Every call keeps the invariant. -/
theorem step {s' : IoSystem σ} {c : IoCall} (h : IoInv s t fileType none) (hstep : s.Step c s') :
    ∃ t', IoInv s' t' fileType none := by
  obtain ⟨rfl, hlt⟩ := hstep
  cases c with
  | registerBootFile path data size => exact ⟨t, h.registerBootFile path data size⟩
  | openPath path access => exact h.openPath path access hlt
  | readFile v offset length =>
    rw [h.readFile]
    exact ⟨t, h⟩
  | closeFile v => exact h.closeFile v

/-- A call that does not close `v` leaves it opened to the same file. -/
theorem opened_step {s' : IoSystem σ} {c : IoCall} (h : IoInv s t fileType none)
    (hstep : s.Step c s') {v : U32} (hc : c ≠ .closeFile v) {path : CString} {access : U32}
    (hv : s.opened v = some (path, access)) {image : BootImage}
    (hreg : s.firstRegistered path = some image) :
    s'.opened v = some (path, access) ∧ s'.firstRegistered path = some image := by
  obtain ⟨rfl, hlt⟩ := hstep
  cases c with
  | registerBootFile path' data size =>
    rw [IoSystem.perform]
    rcases ioRegisterBootFile (io s.kernel) path' data size with ⟨s', e | -⟩
    · exact ⟨hv, hreg⟩
    · refine ⟨hv, ?_⟩
      rw [IoSystem.firstRegistered] at hreg ⊢
      rw [List.find?_append, hreg, Option.some_or]
  | openPath path' access' =>
    -- the new value is not one in use
    revert hlt
    rw [IoSystem.perform]
    rcases hopen : ioOpenPath s.ob s.kernel path' access' with ⟨ob, k, e | v'⟩
    · exact fun _ => ⟨hv, hreg⟩
    intro hlt
    refine ⟨?_, hreg⟩
    dsimp only
    rw [Function.update_of_ne, hv]
    rintro rfl
    obtain ⟨o, -, -, hissued, -⟩ := h.opened_ok v path access hv
    obtain ⟨i, hi, -⟩ := h.entry hissued
    refine (h.values.fresh hlt).2 i _ hi ?_
    rcases ioOpenPath_cases s.ob s.kernel path' access' with ⟨-, e, heq⟩ |
      ⟨f, hf, ⟨e, ob₁, -, heq⟩ | ⟨ob₁, o', hcreate, ⟨-, heq⟩ | ⟨j, -, heq⟩⟩⟩ <;>
      rw [hopen] at heq
    · cases heq
    · cases heq
    · cases heq
    · obtain ⟨-, -, -, -, ⟨htable, -⟩, -⟩ :=
        h.create hf ⟨some o', 0, 0, 0⟩ rfl hcreate
      have hok := congrArg (fun r => r.2.2) heq
      dsimp only at hok
      rcases obInsertHandle_cases ob₁ o' access' with ⟨-, e, hc⟩ | ⟨j', -, -, hc⟩ <;>
        rw [hc] at hok
      · cases hok
      · rw [htable] at hok
        exact Except.ok.inj hok
  | readFile v' offset length =>
    rw [h.readFile]
    exact ⟨hv, hreg⟩
  | closeFile v' =>
    have hne : v ≠ v' := by
      rintro rfl
      exact hc rfl
    rw [IoSystem.perform]
    rcases ioCloseFileHandle s.ob s.kernel v' with ⟨ob, k, e | -⟩
    · exact ⟨hv, hreg⟩
    · exact ⟨by dsimp only; rw [Function.update_of_ne hne, hv], hreg⟩

/-- Consecutive chunks make up the rest of the file. -/
theorem readsOn {v : U32} {offset : U64} {bytes : List UInt8}
    (hreads : ReadsOn memory v s offset bytes) :
    ∀ {t : ObSystem σ}, IoInv s t fileType none → ∀ {path access image},
      s.opened v = some (path, access) → s.firstRegistered path = some image →
        bytes = (image.contents memory).drop offset.toNat := by
  induction hreads with
  | @finish s offset length hread =>
    intro t h path access image hv hreg
    obtain ⟨image', hreg', hread'⟩ := h.read_opened memory hv offset length
    obtain rfl := Option.some.inj (hreg.symm.trans hreg')
    rw [hread] at hread'
    split at hread'
    · cases hread'
    split at hread'
    · cases hread'
    · rename_i hlength _
      have hnil := (Except.ok.inj hread').symm
      rcases List.take_eq_nil_iff.1 hnil with hzero | hdrop
      · exact absurd (BitVec.eq_of_toNat_eq hzero) hlength
      · exact hdrop.symm
  | other hc hstep _ ih =>
    intro t h path access image hv hreg
    obtain ⟨t', h'⟩ := h.step hstep
    obtain ⟨hv', hreg'⟩ := h.opened_step hstep hc hv hreg
    exact ih h' hv' hreg'
  | @chunk s s' offset length chunk bytes hstep hne hread _ ih =>
    intro t h path access image hv hreg
    obtain ⟨t', h'⟩ := h.step hstep
    obtain ⟨hv', hreg'⟩ := h.opened_step hstep (by rintro ⟨⟩) hv hreg
    obtain ⟨image', himage, hright, -⟩ :=
      h.callRight memory (.readFile v offset length) path access hv
    obtain rfl := Option.some.inj (hreg.symm.trans himage)
    have hchunk := hright chunk hread
    have hlen : chunk.length ≤ image.size.toNat - offset.toNat := by
      rw [hchunk, List.length_take, List.length_drop, BootImage.length_contents]
      exact min_le_right _ _
    have hpos : 0 < chunk.length := List.length_pos_iff.2 hne
    have hsize := image.size.isLt
    have hoffset : (offset + BitVec.ofNat 64 chunk.length).toNat =
        offset.toNat + chunk.length := by
      rw [BitVec.toNat_add, BitVec.toNat_ofNat]
      omega
    have htake : chunk = ((image.contents memory).drop offset.toNat).take chunk.length := by
      refine hchunk.trans ?_
      rw [List.take_eq_take_min, ← List.length_take, ← hchunk]
    rw [ih h' hv' hreg', hoffset, ← List.drop_drop]
    conv_lhs => rw [htake]
    exact (congrArg _ (by rw [← htake])).trans (List.take_append_drop chunk.length _)

end IoInv

/-! ## Runs -/

/-- The table of boot files `IoInitialize` starts from. -/
theorem BootFilesOk.empty {s : IoState} (h : s.bootFiles = fun _ => ⟨[], 0, 0, false⟩) :
    BootFilesOk s [] where
  image_eq i := by
    rw [h]
    rfl
  length_le := Nat.zero_le _

/-- The registration of the init image goes through. -/
theorem ioRegisterBootFile_init {s : IoState} (hready : s.ready = true)
    (h : s.bootFiles = fun _ => ⟨[], 0, 0, false⟩) {data size : U64} (hdata : data ≠ 0)
    (hsize : size ≠ 0) : (ioRegisterBootFile s ioInitPath data size).2 = .ok () := by
  have hguard : ¬(s.ready = false ∨ data = 0 ∨ size = 0) :=
    not_or.2 ⟨by simp [hready], not_or.2 ⟨hdata, hsize⟩⟩
  have hfree : firstIndex (fun i => !(s.bootFiles i).inUse) = some 0 := by
    refine firstIndex_eq_some.2 ⟨by rw [h]; rfl, fun j hj => absurd hj (Fin.not_lt_zero j)⟩
  have hcopy : iopCopyString ioPathBytes ioInitPath = (ioInitPath, true) := by decide
  rw [ioRegisterBootFile, if_neg hguard, hfree]
  dsimp only
  rw [hcopy]

/-- The I/O manager right after `IoInitialize`. -/
theorem BeforeIo.start {s : ObSystem σ} {inserted : ℕ} (h : BeforeIo s inserted) {ob : ObState σ}
    {k : σ} {bootInfo : Option BootInfo}
    (hinit : ioInitialize s.ob s.rest bootInfo = (ob, k, .ok ())) :
    ∃ t fileType, IoInv (.start ob k bootInfo inserted) t fileType none := by
  by_cases hready : (io s.rest).ready = true
  · rw [ioInitialize, if_pos hready] at hinit
    cases hinit
  rw [ioInitialize, if_neg hready] at hinit
  have hobready : ¬s.ob.ready = false := by
    rw [h.named.lifetime.ready]
    exact Bool.noConfusion
  dsimp only [obCreateType] at hinit
  rw [if_neg hobready] at hinit
  rcases hfree : firstIndex fun t => !s.ob.typeInUse t with _ | fileType
  · rw [hfree] at hinit
    cases hinit
  rw [hfree] at hinit
  dsimp only at hinit
  have hunused : s.ob.typeInUse fileType = false := by simpa using firstIndex_sound hfree
  have hnone : ∀ o, s.ob.objectInUse o = true → (s.ob.objectPool o).type ≠ some fileType := by
    intro o ho htype
    rw [h.type_used o fileType ho htype] at hunused
    cases hunused
  generalize hob : (ObState.mk _ _ _ _ _ _ _ : ObState σ) = ob₁ at hinit
  generalize hs : (IoState.mk (some fileType) _ _ _ true : IoState) = s₁ at hinit
  have hempty : s₁.bootFiles = fun _ => ⟨[], 0, 0, false⟩ := by rw [← hs]
  -- whatever is registered, no file object is in use yet
  have hfiles : ∀ s' : IoState, s' = { s₁ with bootFiles := s'.bootFiles } →
      FilesOk ob₁ s' fileType := by
    intro s' hs'
    have hnouse : ∀ f, s'.fileInUse f = false := fun f => by rw [hs', ← hs]
    refine ⟨by rw [hs', ← hs], by rw [hs', ← hs], ?_, ?_, ?_, ?_⟩
    · rw [← hob]
      simp only [Function.update_self]
    · intro t ht routine hroutine o k
      rw [← hob] at hroutine
      simp only [Function.update_of_ne ht] at hroutine
      exact h.routine_keeps t routine hroutine o k
    · intro f o hf
      rw [hnouse f] at hf
      cases hf
    · intro f g o hf
      rw [hnouse f] at hf
      cases hf
  have hsystem : ∀ s' : IoState, ∀ registered, s' = { s₁ with bootFiles := s'.bootFiles } →
      BootFilesOk s' registered →
        IoInv ⟨ob₁, setIo s' s.rest, registered, fun _ => none, inserted⟩ { s with ob := ob₁ }
          fileType none := by
    intro s' registered hs' hboot
    refine ⟨rfl, ?_, ?_, ?_, ?_, ?_, ?_⟩
    · subst hob
      exact ⟨⟨h.named.lifetime.ready, h.named.lifetime.refCount_eq, h.named.lifetime.inUse_iff,
        h.named.lifetime.entry_named⟩, h.named.table.congr rfl rfl⟩
    · rw [io_setIo]
      exact hfiles s' hs'
    · rw [io_setIo]
      exact hboot
    · subst hob
      exact h.values
    · intro o huse htype
      subst hob
      exact absurd htype (hnone o huse)
    · intro v path access hv
      cases hv
  rcases bootInfo with _ | bootInfo
  · cases hinit
    exact ⟨_, fileType, hsystem s₁ [] rfl (.empty hempty)⟩
  dsimp only at hinit
  by_cases himage : bootInfo.hasInitImage = true
  · rw [if_pos himage] at hinit
    cases hinit
    have hpresent := himage
    rw [BootInfo.hasInitImage, Bool.and_eq_true, Bool.and_eq_true, bne_iff_ne, bne_iff_ne]
      at hpresent
    have hok := ioRegisterBootFile_init (s := s₁) (by rw [← hs]) hempty hpresent.1.2 hpresent.2
    refine ⟨{ s with ob := ob }, fileType, ?_⟩
    rw [IoSystem.start, if_pos himage]
    rcases (BootFilesOk.empty hempty).register ioInitPath bootInfo.initImageBase
        bootInfo.initImageSize with ⟨e, s', heq, -, -⟩ | ⟨s', heq, hboot, hs'⟩
    · rw [heq] at hok
      cases hok
    · rw [heq]
      exact hsystem s' _ hs' hboot
  · rw [if_neg himage] at hinit
    cases hinit
    refine ⟨{ s with ob := ob }, fileType, ?_⟩
    rw [IoSystem.start, if_neg himage]
    exact hsystem s₁ [] rfl (.empty hempty)

/-- Along every run that inserts fewer than `2 ^ 30` handles, with slots, headers and entries to
spare an open finds exactly the paths that were registered, a read through an opened handle
gives the bytes of the file first registered under its path, and chunks that are read one after
another until nothing comes make up that file. -/
theorem files_read_right {s : ObSystem σ} {inserted : ℕ} (h : BeforeIo s inserted)
    {ob : ObState σ} {k : σ} {bootInfo : Option BootInfo}
    (hinit : ioInitialize s.ob s.rest bootInfo = (ob, k, .ok ())) (calls : List IoCall) :
    Always IoSystem.Step (fun s c _ => CallRight memory s c) (.start ob k bootInfo inserted)
        calls ∧
      ∀ s', Run IoSystem.Step (.start ob k bootInfo inserted) calls s' →
        ∀ v path access, s'.opened v = some (path, access) →
          ∃ image, s'.firstRegistered path = some image ∧
            ∀ bytes, ReadsOn memory v s' 0 bytes → bytes = image.contents memory := by
  obtain ⟨t, fileType, hstart⟩ := h.start hinit
  have hstep : ∀ (s : IoSystem σ) (c : IoCall) (s' : IoSystem σ),
      (∃ t, IoInv s t fileType none) → s.Step c s' → ∃ t, IoInv s' t fileType none :=
    fun s c s' ⟨t, ht⟩ hs => ht.step hs
  refine ⟨Always.of_invariant hstep (fun s c s' ⟨t, ht⟩ _ => ht.callRight memory c) ⟨t, hstart⟩
    calls, fun s' hrun v path access hv => ?_⟩
  obtain ⟨t', h'⟩ := hrun.invariant hstep ⟨t, hstart⟩
  obtain ⟨-, -, image, -, -, -, -, hreg, -⟩ := h'.opened_ok v path access hv
  refine ⟨image, hreg, fun bytes hreads => ?_⟩
  exact IoInv.readsOn memory hreads h' hv hreg

/-- The object manager of a kernel without other managers, before `IoInitialize`. -/
theorem beforeIo_boot : BeforeIo (ObSystem.boot (fun _ => ⟨0, [], none⟩) IoState.zero) 0 where
  named := ⟨.boot _ _, .boot _ _⟩
  values := ⟨by decide, rfl, fun i e hi => by cases hi⟩
  type_used o t ho := by cases ho
  routine_keeps t routine hroutine := by cases hroutine

/-- The state `IoInitialize` leaves there. -/
def emptyFiles : ObState IoState × IoState × Except KStatus Unit :=
  ioInitialize (ObSystem.boot (fun _ => ⟨0, [], none⟩) IoState.zero).ob IoState.zero none

theorem emptyFiles_ok : emptyFiles = (emptyFiles.1, emptyFiles.2.1, .ok ()) := by
  have hfree : firstIndex (fun t => !(ObSystem.boot (σ := IoState) (fun _ => ⟨0, [], none⟩)
      IoState.zero).ob.typeInUse t) = some 0 :=
    firstIndex_eq_some.2 ⟨rfl, fun j hj => absurd hj (Fin.not_lt_zero j)⟩
  rw [emptyFiles, ioInitialize, if_neg Bool.noConfusion]
  dsimp only [obCreateType]
  rw [if_neg Bool.noConfusion, hfree]

/-- Three files, two of them of one path, opened three times and read past the end. -/
theorem files_read_right_three :
    Always IoSystem.Step (fun s c _ => CallRight (fun a => UInt8.ofNat a.toNat) s c)
        (.start emptyFiles.1 emptyFiles.2.1 none 0)
        [.registerBootFile [97] 0x1000 3, .registerBootFile [98] 0x2000 5,
          .registerBootFile [97] 0x3000 9, .openPath [97] 1, .openPath [98] 7, .openPath [97] 3,
          .readFile 4 0 2, .closeFile 8, .readFile 4 2 2, .readFile 4 3 2, .openPath [99] 1,
          .readFile 12 1 0xFFFFFFFFFFFFFFFF] :=
  (files_read_right _ beforeIo_boot emptyFiles_ok _).1

end NtxKernel.Io
