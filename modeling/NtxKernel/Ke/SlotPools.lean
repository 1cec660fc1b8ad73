import NtxKernel.Foundations.Run
import NtxKernel.Io.Reading
import NtxKernel.Ke.Dispatch
import NtxKernel.Ob.SlotPools

/-!
# Ports and files and their slots

`LpcCreatePortHandle` and `IoOpenPath` each take a slot of their pool, an object header and a handle
entry in turn, and rely on the delete routine to give the slot back. The pools of slots and the
object manager are recycled independently: other objects come and go in the same object pool, and
references may be taken and dropped by anyone, whatever the counts are.

* `SlotsExact`: the slots in use are those of the live ports and files, one each.
* `AsBefore`: both pools, the live objects and the handle table are as before a call.
* `HeaderLeft` is the condition on a creating call: with a slot to take there is an object header
  too. `ObCreateObject` failing is the one way out that leaves the slot behind, since the delete
  routine would find it through a header that was never stored.
* `slots_kept_iff`: along every run, the slots are exact after every call and every creation that
  fails leaves all as it was exactly when every call meets the condition.
-/

namespace NtxKernel.Ke

open Foundations Ob Nk Lpc Mm Io IoGlobals

variable {ρ : Type}

/-! ## The pools -/

/-- `gLpcPortPool` with `gLpcPortInUse`. -/
def portPool : SlotPool (Kernel ρ) LpcPortRef LpcPortObject where
  slots k := ⟨k.lpc.portInUse, k.lpc.portPool⟩
  header := LpcPortObject.header

/-- `gIoFilePool` with `gIoFileInUse`. -/
def filePool [IoGlobals ρ] : SlotPool (Kernel ρ) IoFileRef IoFileObject where
  slots k := ⟨(io k).fileInUse, (io k).filePool⟩
  header := IoFileObject.header

theorem portPool_slots_clearPort (k : Kernel ρ) (p : LpcPortRef) (b : Bool) :
    portPool.slots (k.clearPort p b) =
      (portPool.slots k).set p b ((k.clearPort p b).lpc.portPool p) := by
  refine Slots.ext rfl (funext fun q => ?_)
  by_cases hq : q = p
  · subst hq
    rw [Slots.content_set_self]
    rfl
  · rw [Slots.content_set_of_ne hq]
    exact k.clearPort_of_ne hq b

theorem portPool_slots_openPort (k : Kernel ρ) (p : LpcPortRef) (o : ObjectRef) :
    portPool.slots (k.openPort p o) =
      (portPool.slots k).set p true ((k.openPort p o).lpc.portPool p) := by
  refine Slots.ext rfl (funext fun q => ?_)
  by_cases hq : q = p
  · subst hq
    rw [Slots.content_set_self]
    rfl
  · rw [Slots.content_set_of_ne hq]
    exact k.openPort_of_ne hq o

theorem filePool_slots_setFile [IoGlobals ρ] (k : Kernel ρ) (f : IoFileRef) (file : IoFileObject)
    (b : Bool) :
    filePool.slots (setIo ((io k).setFile f file b) k) = (filePool.slots k).set f b file := by
  rw [filePool]
  dsimp only
  rw [io_setIo]
  rfl

/-- `LpcpDeletePortObject` frees the slot of its object. -/
theorem lpcpDeletePortObject_removed (o : ObjectRef) (k : Kernel ρ)
    (hunique : ∀ p q, k.lpc.portInUse p = true → k.lpc.portInUse q = true →
      (k.lpc.portPool p).header = some o → (k.lpc.portPool q).header = some o → p = q) :
    Slots.Removed LpcPortObject.header (portPool.slots k)
      (portPool.slots (lpcpDeletePortObject o k)) o := by
  rw [lpcpDeletePortObject_eq]
  rcases hfind : lpcpFindPortByHeader k.lpc o with _ | p
  · refine .refl fun q hq hqo => ?_
    have hnone := firstIndex_eq_none.1 hfind q
    have hpass : (k.lpc.portInUse q && (k.lpc.portPool q).header == some o) = true := by
      rw [Bool.and_eq_true, beq_iff_eq]
      exact ⟨hq, hqo⟩
    rw [hpass] at hnone
    cases hnone
  · obtain ⟨hp, hpo⟩ := lpcpFindPortByHeader_eq_some hfind
    dsimp only
    rw [portPool_slots_clearPort]
    refine .set_free ?_ hp hpo fun q hq hqo => hunique q p hq hp hqo hpo
    rw [k.clearPort_self]

/-- `IopDeleteFileObject` frees the slot of its object. -/
theorem ioFileDeleteRoutine_removed [IoGlobals ρ] (o : ObjectRef) (k : Kernel ρ)
    (hunique : ∀ f g, (io k).fileInUse f = true → (io k).fileInUse g = true →
      ((io k).filePool f).header = some o → ((io k).filePool g).header = some o → f = g) :
    Slots.Removed IoFileObject.header (filePool.slots k)
      (filePool.slots (ioFileDeleteRoutine o k)) o := by
  have hslots : filePool.slots (ioFileDeleteRoutine o k) =
      ⟨(iopDeleteFileObject (io k) o).fileInUse, (iopDeleteFileObject (io k) o).filePool⟩ := by
    rw [ioFileDeleteRoutine, filePool]
    simp only [io_setIo]
  rw [hslots, iopDeleteFileObject]
  rcases hfind : iopFindFileByHeader (io k) o with _ | f
  · exact .refl fun g hg => iopFindFileByHeader_eq_none hfind hg
  · obtain ⟨hf, hfo⟩ := iopFindFileByHeader_eq_some hfind
    exact Slots.Removed.set_free (s := filePool.slots k) (c := .zero) rfl hf hfo
      fun g hg hgo => hunique g f hg hf hgo hfo

/-! ## The system -/

/-- The calls: those that create ports and files, and those of the object manager. -/
inductive SlotCall
  | createPort (desiredAccess : U32)
  | openPath (path : CString) (desiredAccess : U32)
  | object (call : ObCall)

variable [IoGlobals ρ]

/-- Perform a call of the object manager. -/
def performObject (s : System ρ) : ObCall → System ρ
  | .createObject type name mask flags =>
    { s with ob := (obCreateObject s.ob (some type) (some name) mask flags).1 }
  | .insertHandle o granted => { s with ob := (obInsertHandle s.ob o granted).1 }
  | .referenceByHandle v desired expected =>
    { s with ob := (obReferenceObjectByHandle s.ob v desired expected).1 }
  | .dereference o => s.dereference o
  | .closeHandle v =>
    ⟨(obCloseHandle s.ob s.kernel v).1, (obCloseHandle s.ob s.kernel v).2.1⟩

/-- Perform a call. -/
def performSlot (s : System ρ) : SlotCall → System ρ
  | .createPort access => (lpcCreatePortHandle s access).1
  | .openPath path access =>
    ⟨(ioOpenPath s.ob s.kernel path access).1, (ioOpenPath s.ob s.kernel path access).2.1⟩
  | .object call => performObject s call

/-- Objects of other types only are created beside ports and files. -/
def Unrelated (s : System ρ) : SlotCall → Prop
  | .object (.createObject type _ _ _) =>
    s.kernel.lpc.portType ≠ some type ∧ (io s.kernel).fileType ≠ some type
  | _ => True

/-- One call. -/
def SlotStep (s : System ρ) (c : SlotCall) (s' : System ρ) : Prop :=
  Unrelated s c ∧ s' = performSlot s c

/-- A creation that fails. -/
def CreationFails (s : System ρ) : SlotCall → Prop
  | .createPort access => ∃ e, (lpcCreatePortHandle s access).2 = .error e
  | .openPath path access => ∃ e, (ioOpenPath s.ob s.kernel path access).2.2 = .error e
  | .object _ => False

/-- A slot is in use exactly when its `Header` names a live object of the type of the pool, and
every such object has exactly one slot. -/
structure SlotsExact (s : System ρ) : Prop where
  ports : (portPool.slots s.kernel).Match LpcPortObject.header fun o =>
    s.ob.objectInUse o = true ∧ (s.ob.objectPool o).type = s.kernel.lpc.portType
  files : (filePool.slots s.kernel).Match IoFileObject.header fun o =>
    s.ob.objectInUse o = true ∧ (s.ob.objectPool o).type = (io s.kernel).fileType

/-- Both pools, the live objects and the handle table are the same. -/
structure AsBefore (s s' : System ρ) : Prop where
  ports : (portPool.slots s.kernel).Agree (portPool.slots s'.kernel)
  files : (filePool.slots s.kernel).Agree (filePool.slots s'.kernel)
  objects : SameObjects s.ob s'.ob

theorem AsBefore.refl (s : System ρ) : AsBefore s s := ⟨.refl _, .refl _, .refl _⟩

/-- A call that would take a slot finds an object header too. -/
def HeaderLeft (s : System ρ) : SlotCall → Prop
  | .createPort _ =>
    (∃ p, s.kernel.lpc.portInUse p = false) → ∃ o, s.ob.objectInUse o = false
  | .openPath _ access =>
    hasFlag access ioFileAccessAll = true → (∃ f, (io s.kernel).fileInUse f = false) →
      ∃ o, s.ob.objectInUse o = false
  | .object _ => True

/-! ## The invariant -/

/-- What the calls check of the managers. -/
def checkedGlobals (k : Kernel ρ) : Bool × Option TypeRef × Bool × Option TypeRef :=
  (k.lpc.ready, k.lpc.portType, (io k).ready, (io k).fileType)

theorem checkedGlobals_setFile (k : Kernel ρ) (f : IoFileRef) (file : IoFileObject) (b : Bool) :
    checkedGlobals (setIo ((io k).setFile f file b) k) = checkedGlobals k := by
  rw [checkedGlobals, io_setIo]
  rfl

/-- Both managers are initialized, and their slots match their objects. -/
structure PoolsOk (s : System ρ) (portType fileType : TypeRef) : Prop where
  ready : s.ob.ready = true
  checked : checkedGlobals s.kernel = (true, some portType, true, some fileType)
  types_ne : portType ≠ fileType
  routines_keep : ∀ t routine, (s.ob.typePool t).deleteRoutine = some routine → ∀ o k,
    checkedGlobals (routine o k) = checkedGlobals k
  ports : PoolOk portPool portType s.ob s.kernel
  files : PoolOk filePool fileType s.ob s.kernel

namespace PoolsOk

variable {s : System ρ} {portType fileType : TypeRef}

theorem lpc_ready (h : PoolsOk s portType fileType) : s.kernel.lpc.ready = true :=
  congrArg Prod.fst h.checked

theorem portType_eq (h : PoolsOk s portType fileType) : s.kernel.lpc.portType = some portType :=
  congrArg (fun g => g.2.1) h.checked

theorem io_ready (h : PoolsOk s portType fileType) : (io s.kernel).ready = true :=
  congrArg (fun g => g.2.2.1) h.checked

theorem fileType_eq (h : PoolsOk s portType fileType) : (io s.kernel).fileType = some fileType :=
  congrArg (fun g => g.2.2.2) h.checked

theorem exact (h : PoolsOk s portType fileType) : SlotsExact s where
  ports := h.ports.slots_match.congr fun o => by rw [h.portType_eq]; rfl
  files := h.files.slots_match.congr fun o => by rw [h.fileType_eq]; rfl

theorem insertHandle (h : PoolsOk s portType fileType) (o : ObjectRef) (granted : U32) :
    PoolsOk { s with ob := (obInsertHandle s.ob o granted).1 } portType fileType where
  ready := by
    have hready := h.ready
    rcases obInsertHandle_cases s.ob o granted with ⟨-, e, heq⟩ | ⟨i, -, -, heq⟩ <;> rw [heq] <;>
      exact hready
  checked := h.checked
  types_ne := h.types_ne
  routines_keep := by
    rw [(obInsertHandle_live s.ob o granted).1]
    exact h.routines_keep
  ports := h.ports.insertHandle o granted
  files := h.files.insertHandle o granted

theorem referenceByHandle (h : PoolsOk s portType fileType) (v desired : U32)
    (expected : Option TypeRef) :
    PoolsOk { s with ob := (obReferenceObjectByHandle s.ob v desired expected).1 } portType
      fileType where
  ready := by
    have hready := h.ready
    rcases obReferenceObjectByHandle_cases s.ob v desired expected with
      ⟨e, heq⟩ | ⟨i, e, -, -, -, heq⟩ <;> rw [heq] <;> exact hready
  checked := h.checked
  types_ne := h.types_ne
  routines_keep := by
    rw [(obReferenceObjectByHandle_live s.ob v desired expected).1]
    exact h.routines_keep
  ports := h.ports.referenceByHandle v desired expected
  files := h.files.referenceByHandle v desired expected

theorem dereference (h : PoolsOk s portType fileType) (o : ObjectRef) :
    PoolsOk (s.dereference o) portType fileType where
  ready := (obDereferenceObject_ready ..).trans h.ready
  checked := (obDereferenceObject_keeps h.routines_keep o).trans h.checked
  types_ne := h.types_ne
  routines_keep := by
    have hsame := obDereferenceObject_typePool s.ob s.kernel o
    intro t routine hroutine
    exact h.routines_keep t routine (by rw [← hsame]; exact hroutine)
  ports := h.ports.dereference o
  files := h.files.dereference o

theorem closeHandle (h : PoolsOk s portType fileType) (v : U32) :
    PoolsOk ⟨(obCloseHandle s.ob s.kernel v).1, (obCloseHandle s.ob s.kernel v).2.1⟩ portType
      fileType := by
  rcases obCloseHandle_cases s.ob s.kernel v with ⟨e, heq⟩ | ⟨i, e, -, heq⟩
  · rw [heq]
    exact h
  · have hd := h.dereference e.object
    rw [heq]
    exact ⟨hd.ready, hd.checked, hd.types_ne, hd.routines_keep,
      hd.ports.congr rfl rfl fun _ => Iff.rfl, hd.files.congr rfl rfl fun _ => Iff.rfl⟩

/-- An unrelated object is created. -/
theorem createObject (h : PoolsOk s portType fileType) {type : TypeRef}
    (hport : type ≠ portType) (hfile : type ≠ fileType) (name : CString) (mask flags : U32) :
    PoolsOk { s with ob := (obCreateObject s.ob (some type) (some name) mask flags).1 } portType
      fileType := by
  rcases hcreate : obCreateObject s.ob (some type) (some name) mask flags with ⟨ob₁, e | o⟩
  · rw [obCreateObject_error hcreate]
    exact h
  · obtain ⟨htypes, -, -⟩ := obCreateObject_live hcreate
    exact ⟨(obCreateObject_ready hcreate).trans h.ready, h.checked, h.types_ne,
      by rw [htypes]; exact h.routines_keep, h.ports.createOther hport hcreate rfl,
      h.files.createOther hfile hcreate rfl⟩

end PoolsOk

/-! ## Creating a port -/

omit [IoGlobals ρ] in
/-- What `LpcCreatePortHandle` does and returns: nothing without a free slot; it leaves the slot in
use without an object; or it fills it for a new object, inserts a handle and gives the first
reference back. -/
theorem lpcCreatePortHandle_result {s : System ρ} (hready : s.kernel.lpc.ready = true)
    (access : U32) :
    ((∀ p, s.kernel.lpc.portInUse p = true) ∧
        lpcCreatePortHandle s access = (s, .error .initFailed)) ∨
      ∃ p, s.kernel.lpc.portInUse p = false ∧
        ((∃ ob₁ e, obCreateObject s.ob s.kernel.lpc.portType (some lpcPortName) lpcPortAccessAll
            obFlagWaitable = (ob₁, .error e) ∧
          lpcCreatePortHandle s access = (⟨ob₁, s.kernel.clearPort p true⟩, .error e)) ∨
        ∃ ob₁ o, obCreateObject s.ob s.kernel.lpc.portType (some lpcPortName) lpcPortAccessAll
            obFlagWaitable = (ob₁, .ok o) ∧
          lpcCreatePortHandle s access =
            ((System.mk (obInsertHandle ob₁ o access).1 (s.kernel.openPort p o)).dereference o,
              (obInsertHandle ob₁ o access).2)) := by
  obtain ⟨ob, k⟩ := s
  have hguard : ¬k.lpc.ready = false := by
    rw [show k.lpc.ready = true from hready]
    exact Bool.noConfusion
  rw [lpcCreatePortHandle, if_neg hguard]
  dsimp only
  rcases hfree : firstIndex fun p => !k.lpc.portInUse p with _ | p
  · refine .inl ⟨fun p => by simpa using firstIndex_eq_none.1 hfree p, ?_⟩
    rw [lpcpAllocatePortSlot, hfree]
  refine .inr ⟨p, by simpa using firstIndex_sound hfree, ?_⟩
  have hslot : lpcpAllocatePortSlot k.lpc = ((k.clearPort p true).lpc, some p) := by
    rw [lpcpAllocatePortSlot, hfree]
    rfl
  have hcleared : { k with lpc := (k.clearPort p true).lpc } = k.clearPort p true := rfl
  have htype : (k.clearPort p true).lpc.portType = k.lpc.portType := rfl
  rw [hslot]
  dsimp only
  rw [hcleared, htype]
  rcases hcreate : obCreateObject ob k.lpc.portType (some lpcPortName) lpcPortAccessAll
    obFlagWaitable with ⟨ob₁, e | o⟩
  · exact .inl ⟨ob₁, e, rfl, rfl⟩
  · exact .inr ⟨ob₁, o, rfl, rfl⟩

namespace PoolsOk

variable {s : System ρ} {portType fileType : TypeRef}

/-- A slot is filled for a port that is new. -/
theorem openPort (h : PoolsOk s portType fileType) {ob₁ : ObState (Kernel ρ)} {o : ObjectRef}
    {p : LpcPortRef} {name : CString} {mask flags : U32} (hp : s.kernel.lpc.portInUse p = false)
    (hcreate : obCreateObject s.ob (some portType) (some name) mask flags = (ob₁, .ok o)) :
    PoolsOk ⟨ob₁, s.kernel.openPort p o⟩ portType fileType where
  ready := (obCreateObject_ready hcreate).trans h.ready
  checked := h.checked
  types_ne := h.types_ne
  routines_keep := by
    rw [(obCreateObject_live hcreate).1]
    exact h.routines_keep
  ports := by
    refine h.ports.createOwn hcreate hp ?_ (portPool_slots_openPort s.kernel p o)
    rw [Kernel.openPort_self]
    rfl
  files := h.files.createOther h.types_ne hcreate rfl

/-- A port that comes to nothing. -/
theorem asBefore_of_port (h : PoolsOk s portType fileType) {ob₁ : ObState (Kernel ρ)}
    {o : ObjectRef} {p : LpcPortRef} {name : CString} {mask flags : U32}
    (hp : s.kernel.lpc.portInUse p = false)
    (hcreate : obCreateObject s.ob (some portType) (some name) mask flags = (ob₁, .ok o)) :
    AsBefore s ((System.mk ob₁ (s.kernel.openPort p o)).dereference o) := by
  have hopen := h.openPort hp hcreate
  obtain ⟨hsame, hkernel⟩ := obDereferenceObject_created h.ready hcreate (s.kernel.openPort p o)
  have hheader : LpcPortObject.header ((s.kernel.openPort p o).lpc.portPool p) = some o := by
    rw [Kernel.openPort_self]
  refine ⟨?_, ?_, hsame⟩
  · have hagree := h.ports.agree_of_created hcreate hp hheader (portPool_slots_openPort s.kernel p o)
    rw [← hkernel] at hagree
    exact hagree
  · have htype : (ob₁.objectPool o).type ≠ some fileType := by
      have hlive := ((obCreateObject_live hcreate).2.2 portType o).2 (.inr ⟨rfl, rfl⟩)
      rw [hlive.2]
      exact fun heq => h.types_ne (Option.some.inj heq)
    have hagree := hopen.files.agree_of_other htype
    rw [← hkernel] at hagree
    exact hagree

/-- A creation of a port that finds an object header. -/
theorem createPort (h : PoolsOk s portType fileType) {access : U32}
    (hleft : HeaderLeft s (.createPort access)) :
    PoolsOk (lpcCreatePortHandle s access).1 portType fileType ∧
      ((∃ e, (lpcCreatePortHandle s access).2 = .error e) →
        AsBefore s (lpcCreatePortHandle s access).1) := by
  rcases lpcCreatePortHandle_result h.lpc_ready access with
    ⟨-, heq⟩ | ⟨p, hp, ⟨ob₁, e, hcreate, -⟩ | ⟨ob₁, o, hcreate, heq⟩⟩
  · rw [heq]
    exact ⟨h, fun _ => .refl s⟩
  all_goals rw [h.portType_eq] at hcreate
  · obtain ⟨ob₂, o, hok⟩ := (obCreateObject_isOk_iff h.ready portType lpcPortName lpcPortAccessAll
      obFlagWaitable).2 (hleft ⟨p, hp⟩)
    cases hok.symm.trans hcreate
  · rw [heq]
    refine ⟨((h.openPort hp hcreate).insertHandle o access).dereference o, ?_⟩
    rintro ⟨e, he⟩
    have hsame : (obInsertHandle ob₁ o access).1 = ob₁ := obInsertHandle_error he
    dsimp only
    rw [hsame]
    exact h.asBefore_of_port hp hcreate

/-- Without a header the slot stays in use for nothing. -/
theorem not_exact_createPort (h : PoolsOk s portType fileType) {access : U32}
    (hleft : ¬HeaderLeft s (.createPort access)) : ¬SlotsExact (lpcCreatePortHandle s access).1 := by
  obtain ⟨⟨p₀, hp₀⟩, hnone⟩ := Classical.not_imp.1 hleft
  rcases lpcCreatePortHandle_result h.lpc_ready access with
    ⟨hfull, -⟩ | ⟨p, hp, ⟨ob₁, e, -, heq⟩ | ⟨ob₁, o, hcreate, -⟩⟩
  · cases (hfull p₀).symm.trans hp₀
  · rw [heq]
    intro hexact
    refine Slots.not_match_of_nameless (i := p) ?_ ?_ hexact.ports
    · rw [portPool_slots_clearPort, Slots.inUse_set_self]
    · rw [portPool_slots_clearPort, Slots.content_set_self, Kernel.clearPort_self]
  · rw [h.portType_eq] at hcreate
    exact absurd ((obCreateObject_isOk_iff h.ready portType lpcPortName lpcPortAccessAll
      obFlagWaitable).1 ⟨ob₁, o, hcreate⟩) hnone

/-! ## Opening a path -/

theorem ioOpenPath_refused {ob : ObState (Kernel ρ)} {k : Kernel ρ} {path : CString} {access : U32}
    (hflag : hasFlag access ioFileAccessAll = false) :
    ioOpenPath ob k path access = (ob, k, .error .invalidParameter) := by
  rw [ioOpenPath, if_pos (.inr hflag)]

/-- A slot is filled for a file that is new. -/
theorem openFile (h : PoolsOk s portType fileType) {ob₁ : ObState (Kernel ρ)} {o : ObjectRef}
    {f : IoFileRef} {file : IoFileObject} {name : CString} {mask flags : U32}
    (hf : (io s.kernel).fileInUse f = false) (hfile : file.header = some o)
    (hcreate : obCreateObject s.ob (some fileType) (some name) mask flags = (ob₁, .ok o)) :
    PoolsOk ⟨ob₁, setIo ((io s.kernel).setFile f file true) s.kernel⟩ portType fileType where
  ready := (obCreateObject_ready hcreate).trans h.ready
  checked := (checkedGlobals_setFile s.kernel f file true).trans h.checked
  types_ne := h.types_ne
  routines_keep := by
    rw [(obCreateObject_live hcreate).1]
    exact h.routines_keep
  ports := h.ports.createOther h.types_ne.symm hcreate rfl
  files := h.files.createOwn hcreate hf hfile (filePool_slots_setFile s.kernel f file true)

/-- A file that comes to nothing. -/
theorem asBefore_of_file (h : PoolsOk s portType fileType) {ob₁ : ObState (Kernel ρ)}
    {o : ObjectRef} {f : IoFileRef} {file : IoFileObject} {name : CString} {mask flags : U32}
    (hf : (io s.kernel).fileInUse f = false) (hfile : file.header = some o)
    (hcreate : obCreateObject s.ob (some fileType) (some name) mask flags = (ob₁, .ok o)) :
    AsBefore s ((System.mk ob₁ (setIo ((io s.kernel).setFile f file true) s.kernel)).dereference
      o) := by
  have hopen := h.openFile hf hfile hcreate
  obtain ⟨hsame, hkernel⟩ := obDereferenceObject_created h.ready hcreate
    (setIo ((io s.kernel).setFile f file true) s.kernel)
  refine ⟨?_, ?_, hsame⟩
  · have htype : (ob₁.objectPool o).type ≠ some portType := by
      have hlive := ((obCreateObject_live hcreate).2.2 fileType o).2 (.inr ⟨rfl, rfl⟩)
      rw [hlive.2]
      exact fun heq => h.types_ne (Option.some.inj heq).symm
    have hagree := hopen.ports.agree_of_other htype
    rw [← hkernel] at hagree
    exact hagree
  · have hagree := h.files.agree_of_created hcreate hf hfile
      (filePool_slots_setFile s.kernel f file true)
    rw [← hkernel] at hagree
    exact hagree

/-- An opening that finds an object header. -/
theorem openPath (h : PoolsOk s portType fileType) {path : CString} {access : U32}
    (hleft : HeaderLeft s (.openPath path access)) :
    PoolsOk (performSlot s (.openPath path access)) portType fileType ∧
      ((∃ e, (ioOpenPath s.ob s.kernel path access).2.2 = .error e) →
        AsBefore s (performSlot s (.openPath path access))) := by
  by_cases hflag : hasFlag access ioFileAccessAll = true
  swap
  · rw [ioOpenPath_refused (by simpa using hflag), performSlot,
      ioOpenPath_refused (by simpa using hflag)]
    exact ⟨h, fun _ => .refl s⟩
  rw [performSlot]
  rcases ioOpenPath_cases s.ob s.kernel path access with ⟨-, e, heq⟩ |
    ⟨f, hf, ⟨e, ob₁, hcreate, heq⟩ | ⟨ob₁, o, hcreate, ⟨-, heq⟩ | ⟨i, -, heq⟩⟩⟩
  · rw [heq]
    exact ⟨h, fun _ => .refl s⟩
  all_goals rw [h.fileType_eq] at hcreate
  · obtain ⟨ob₂, o, hok⟩ := (obCreateObject_isOk_iff h.ready fileType ioFileName ioFileAccessAll
      0).2 (hleft hflag ⟨f, hf⟩)
    cases hok.symm.trans hcreate
  · rw [heq]
    exact ⟨(h.openFile hf rfl hcreate).dereference o, fun _ => h.asBefore_of_file hf rfl hcreate⟩
  · rw [heq]
    refine ⟨((h.openFile hf rfl hcreate).insertHandle o access).dereference o, ?_⟩
    rintro ⟨e, he⟩
    have hsame : (obInsertHandle ob₁ o access).1 = ob₁ := obInsertHandle_error he
    dsimp only
    rw [hsame]
    exact h.asBefore_of_file hf rfl hcreate

/-- Without a header the slot stays in use for nothing. -/
theorem not_exact_openPath (h : PoolsOk s portType fileType) {path : CString} {access : U32}
    (hleft : ¬HeaderLeft s (.openPath path access)) :
    ¬SlotsExact (performSlot s (.openPath path access)) := by
  obtain ⟨hflag, hrest⟩ := Classical.not_imp.1 hleft
  obtain ⟨⟨f₀, hf₀⟩, hnone⟩ := Classical.not_imp.1 hrest
  have hcreated : ∀ ob₁ o, obCreateObject s.ob (io s.kernel).fileType (some ioFileName)
      ioFileAccessAll 0 ≠ (ob₁, .ok o) := by
    rw [h.fileType_eq]
    exact fun ob₁ o hcreate => hnone ((obCreateObject_isOk_iff h.ready fileType ioFileName
      ioFileAccessAll 0).1 ⟨ob₁, o, hcreate⟩)
  rw [performSlot]
  rcases ioOpenPath_cases s.ob s.kernel path access with ⟨hguard, -⟩ |
    ⟨f, hf, ⟨e, ob₁, -, heq⟩ | ⟨ob₁, o, hcreate, -⟩⟩
  · rcases hguard with hready | hflag' | hfull
    · cases hready.symm.trans h.io_ready
    · cases hflag'.symm.trans hflag
    · cases (hfull f₀).symm.trans hf₀
  · rw [heq]
    intro hexact
    refine Slots.not_match_of_nameless (i := f) ?_ ?_ hexact.files
    · rw [filePool_slots_setFile, Slots.inUse_set_self]
    · rw [filePool_slots_setFile, Slots.content_set_self]
      rfl
  · exact absurd hcreate (hcreated ob₁ o)

/-! ## Runs -/

/-- A call that meets the condition keeps the invariant, and a failing creation leaves all as it
was. -/
theorem step (h : PoolsOk s portType fileType) {c : SlotCall} (hunrelated : Unrelated s c)
    (hleft : HeaderLeft s c) :
    PoolsOk (performSlot s c) portType fileType ∧
      (CreationFails s c → AsBefore s (performSlot s c)) := by
  cases c with
  | createPort access => exact h.createPort hleft
  | openPath path access => exact h.openPath hleft
  | object call =>
    refine ⟨?_, False.elim⟩
    cases call with
    | createObject type name mask flags =>
      obtain ⟨hport, hfile⟩ := hunrelated
      rw [h.portType_eq] at hport
      rw [h.fileType_eq] at hfile
      exact h.createObject (fun heq => hport (by rw [heq])) (fun heq => hfile (by rw [heq])) name
        mask flags
    | insertHandle o granted => exact h.insertHandle o granted
    | referenceByHandle v desired expected => exact h.referenceByHandle v desired expected
    | dereference o => exact h.dereference o
    | closeHandle v => exact h.closeHandle v

/-- A call that does not meet it leaves a slot in use for nothing. -/
theorem not_exact_step (h : PoolsOk s portType fileType) {c : SlotCall}
    (hleft : ¬HeaderLeft s c) : ¬SlotsExact (performSlot s c) := by
  cases c with
  | createPort access => exact h.not_exact_createPort hleft
  | openPath path access => exact h.not_exact_openPath hleft
  | object call => exact absurd trivial hleft

end PoolsOk

/-- Ports and files can be created and none has been. -/
structure NothingMade (s : System ρ) (portType fileType : TypeRef) : Prop where
  ready : s.ob.ready = true
  checked : checkedGlobals s.kernel = (true, some portType, true, some fileType)
  types_ne : portType ≠ fileType
  port_routine : (s.ob.typePool portType).deleteRoutine = some lpcpDeletePortObject
  file_routine : (s.ob.typePool fileType).deleteRoutine = some ioFileDeleteRoutine
  /-- The delete routines of the other managers touch neither ports nor files. -/
  other_routines : ∀ t, t ≠ portType → t ≠ fileType → ∀ routine,
    (s.ob.typePool t).deleteRoutine = some routine → ∀ o k,
      (routine o k).lpc = k.lpc ∧ io (routine o k) = io k
  no_port : ∀ p, s.kernel.lpc.portInUse p = false ∧ (s.kernel.lpc.portPool p).header = none
  no_file : ∀ f, (io s.kernel).fileInUse f = false ∧ ((io s.kernel).filePool f).header = none
  none_live : ∀ o, ¬s.ob.Live portType o ∧ ¬s.ob.Live fileType o

namespace NothingMade

variable {s : System ρ} {portType fileType : TypeRef}

theorem lpcpDeletePortObject_frame (o : ObjectRef) (k : Kernel ρ) :
    io (lpcpDeletePortObject o k) = io k ∧
      (lpcpDeletePortObject o k).lpc.ready = k.lpc.ready ∧
        (lpcpDeletePortObject o k).lpc.portType = k.lpc.portType := by
  rw [lpcpDeletePortObject_eq]
  cases lpcpFindPortByHeader k.lpc o <;> exact ⟨rfl, rfl, rfl⟩

theorem ioFileDeleteRoutine_frame (o : ObjectRef) (k : Kernel ρ) :
    (ioFileDeleteRoutine o k).lpc = k.lpc ∧
      (io (ioFileDeleteRoutine o k)).ready = (io k).ready ∧
        (io (ioFileDeleteRoutine o k)).fileType = (io k).fileType := by
  rw [ioFileDeleteRoutine, io_setIo, iopDeleteFileObject]
  cases iopFindFileByHeader (io k) o <;> exact ⟨rfl, rfl, rfl⟩

/-- Slots that are all free and clear match no live object. -/
theorem slots_ok {ι β : Type} {slots : Slots ι β} {name : β → Option ObjectRef}
    {live : ObjectRef → Prop}
    (hfree : ∀ i, slots.inUse i = false ∧ name (slots.content i) = none)
    (hlive : ∀ o, ¬live o) : slots.Match name live ∧ slots.Clear name := by
  refine ⟨⟨fun i => ?_, fun o ho => absurd ho (hlive o)⟩, fun i _ => (hfree i).2⟩
  rw [(hfree i).1]
  exact iff_of_false Bool.false_ne_true fun ⟨o, _, ho⟩ => hlive o ho

theorem poolsOk (h : NothingMade s portType fileType) : PoolsOk s portType fileType where
  ready := h.ready
  checked := h.checked
  types_ne := h.types_ne
  routines_keep t routine hroutine o k := by
    by_cases hport : t = portType
    · subst hport
      obtain rfl := Option.some.inj (h.port_routine.symm.trans hroutine)
      obtain ⟨hio, hready, htype⟩ := lpcpDeletePortObject_frame o k
      rw [checkedGlobals, checkedGlobals, hready, htype, hio]
    by_cases hfile : t = fileType
    · subst hfile
      obtain rfl := Option.some.inj (h.file_routine.symm.trans hroutine)
      obtain ⟨hlpc, hready, htype⟩ := ioFileDeleteRoutine_frame o k
      rw [checkedGlobals, checkedGlobals, hlpc, hready, htype]
    · obtain ⟨hlpc, hio⟩ := h.other_routines t hport hfile routine hroutine o k
      rw [checkedGlobals, checkedGlobals, hlpc, hio]
  ports := by
    obtain ⟨hmatch, hclear⟩ : (portPool.slots s.kernel).Match LpcPortObject.header
        (s.ob.Live portType) ∧ (portPool.slots s.kernel).Clear LpcPortObject.header :=
      slots_ok h.no_port fun o => (h.none_live o).1
    refine ⟨⟨_, h.port_routine, lpcpDeletePortObject_removed⟩, fun t ht routine hroutine o k => ?_,
      hmatch, hclear⟩
    have hlpc : (routine o k).lpc = k.lpc := by
      by_cases hfile : t = fileType
      · subst hfile
        obtain rfl := Option.some.inj (h.file_routine.symm.trans hroutine)
        exact (ioFileDeleteRoutine_frame o k).1
      · exact (h.other_routines t ht hfile routine hroutine o k).1
    rw [portPool]
    dsimp only
    rw [hlpc]
  files := by
    obtain ⟨hmatch, hclear⟩ : (filePool.slots s.kernel).Match IoFileObject.header
        (s.ob.Live fileType) ∧ (filePool.slots s.kernel).Clear IoFileObject.header :=
      slots_ok h.no_file fun o => (h.none_live o).2
    refine ⟨⟨_, h.file_routine, ioFileDeleteRoutine_removed⟩, fun t ht routine hroutine o k => ?_,
      hmatch, hclear⟩
    have hio : io (routine o k) = io k := by
      by_cases hport : t = portType
      · subst hport
        obtain rfl := Option.some.inj (h.port_routine.symm.trans hroutine)
        exact (lpcpDeletePortObject_frame o k).1
      · exact (h.other_routines t hport ht routine hroutine o k).2
    rw [filePool]
    dsimp only
    rw [hio]

end NothingMade

/-- Along every run, the slots are exact after every call and every creation that fails leaves the
pools, the live objects and the handles as they were exactly when every call that would take a
slot finds an object header too. -/
theorem slots_kept_iff {s : System ρ} {portType fileType : TypeRef}
    (h : NothingMade s portType fileType) (calls : List SlotCall) :
    SlotsExact s ∧
      (Always SlotStep (fun s c _ => HeaderLeft s c) s calls ↔
        Always SlotStep (fun s c s' => SlotsExact s' ∧ (CreationFails s c → AsBefore s s')) s
          calls) := by
  refine ⟨h.poolsOk.exact, always_congr (I := fun s => PoolsOk s portType fileType) ?_ ?_ h.poolsOk
    calls⟩
  · rintro s c s' hs hleft ⟨hunrelated, rfl⟩
    exact (hs.step hunrelated hleft).1
  · rintro s c s' hs ⟨hunrelated, rfl⟩
    constructor
    · intro hleft
      exact ⟨(hs.step hunrelated hleft).1.exact, (hs.step hunrelated hleft).2⟩
    · rintro ⟨hexact, -⟩
      by_contra hleft
      exact hs.not_exact_step hleft hexact

/-- The managers after `ObInitialize`, `IoInitialize` and `LpcInitialize`, without boot files. -/
def poolsBoot (ps : Ps.PsState) : System IoState :=
  let (ob, k, _) := ioInitialize (σ := Kernel IoState) (obInitialize .zero).1 ⟨ps, .zero, .zero⟩ none
  (lpcInitialize ⟨ob, k⟩).1

/-- What they leave behind. -/
theorem poolsBoot_spec (ps : Ps.PsState) :
    poolsBoot ps =
      ⟨{ (obInitialize (σ := Kernel IoState) .zero).1 with
          typeInUse := Function.update (Function.update (fun _ => false) 0 true) 1 true
          typePool := Function.update (Function.update (fun _ => ⟨0, [], none⟩) 0
            ⟨1, obpCopyName (obMaxTypeName + 1) ioFileTypeName, some ioFileDeleteRoutine⟩) 1
            ⟨2, obpCopyName (obMaxTypeName + 1) [76, 112, 99, 80, 111, 114, 116],
              some lpcpDeletePortObject⟩ },
        ⟨ps, { LpcState.zero with portType := some 1, ready := true },
          { IoState.zero with fileType := some 0, ready := true }⟩⟩ := by
  have hfile : firstIndex (fun _ : TypeRef => !false) = some 0 :=
    firstIndex_eq_some.2 ⟨rfl, fun j hj => absurd hj (Fin.not_lt_zero j)⟩
  have hport : firstIndex (fun t : TypeRef =>
      !Function.update (fun _ => false) (0 : TypeRef) true t) = some 1 := by
    refine firstIndex_eq_some.2 ⟨rfl, fun j hj => ?_⟩
    obtain rfl : j = 0 := Fin.ext (Nat.lt_one_iff.1 hj)
    rfl
  simp only [poolsBoot, ioInitialize, lpcInitialize, obInitialize, ObState.zero, LpcState.zero,
    IoState.zero, obCreateType, Bool.false_eq_true, Bool.true_eq_false, if_false, hfile, hport,
    io, setIo]
  rfl

/-- Nothing is made yet then. -/
theorem nothingMade_poolsBoot (ps : Ps.PsState) : NothingMade (poolsBoot ps) 1 0 := by
  rw [poolsBoot_spec]
  refine ⟨rfl, rfl, by decide, rfl, rfl, fun t hport hfile routine hroutine => ?_,
    fun p => ⟨rfl, rfl⟩, fun f => ⟨rfl, rfl⟩, fun o => ⟨fun ho => ?_, fun ho => ?_⟩⟩
  · dsimp only at hroutine
    rw [Function.update_of_ne hport, Function.update_of_ne hfile] at hroutine
    cases hroutine
  · cases ho.1
  · cases ho.1

/-- A port and a file are created and closed, and a path that is not there is opened. -/
theorem slots_kept_iff_boot :
    SlotsExact (poolsBoot .zero) ∧
      (Always SlotStep (fun s c _ => HeaderLeft s c) (poolsBoot .zero)
          [.createPort 3, .openPath ioInitPath 1, .object (.closeHandle 4), .createPort 8] ↔
        Always SlotStep (fun s c s' => SlotsExact s' ∧ (CreationFails s c → AsBefore s s'))
          (poolsBoot .zero)
          [.createPort 3, .openPath ioInitPath 1, .object (.closeHandle 4), .createPort 8]) :=
  slots_kept_iff (nothingMade_poolsBoot .zero) _

/-! ## A pool of objects that is full -/

/-- An object of a type with no delete routine is created. -/
def createPlain : SlotCall := .object (.createObject 5 [] 0 0)

/-- The state after `n` creations. -/
def afterPlain (n : ℕ) : System IoState :=
  (fun s => performSlot s createPlain)^[n] (poolsBoot .zero)

/-- The first `n` headers are in use then. -/
theorem afterPlain_spec {n : ℕ} (hn : n ≤ obMaxObjects) :
    PoolsOk (afterPlain n) 1 0 ∧
      (afterPlain n).ob.objectInUse = (fun o => decide (o.val < n)) ∧
      (afterPlain n).kernel = (poolsBoot .zero).kernel := by
  induction n with
  | zero =>
    refine ⟨(nothingMade_poolsBoot .zero).poolsOk, ?_, rfl⟩
    rw [afterPlain, Function.iterate_zero_apply, poolsBoot_spec]
    rfl
  | succ n ih =>
    obtain ⟨hok, huse, hkernel⟩ := ih (Nat.le_of_succ_le hn)
    have hnext : afterPlain (n + 1) = performSlot (afterPlain n) createPlain :=
      Function.iterate_succ_apply' ..
    rw [hnext]
    refine ⟨hok.createObject (by decide) (by decide) [] 0 0, ?_, hkernel⟩
    have hfirst : firstIndex (fun o => !(afterPlain n).ob.objectInUse o) = some ⟨n, hn⟩ := by
      rw [huse]
      refine firstIndex_eq_some.2 ⟨by simp, fun o ho => ?_⟩
      simpa using Fin.lt_def.1 ho
    have hcreate : (obCreateObject (afterPlain n).ob (some 5) (some []) 0 0).1.objectInUse =
        Function.update (afterPlain n).ob.objectInUse ⟨n, hn⟩ true := by
      simp only [obCreateObject, hok.ready, Bool.true_eq_false, if_false, hfirst]
      rfl
    refine hcreate.trans (funext fun o => ?_)
    rw [huse]
    by_cases ho : o = ⟨n, hn⟩
    · subst ho
      rw [Function.update_self, decide_eq_true (Nat.lt_succ_self n)]
    · rw [Function.update_of_ne ho]
      have hne : o.val ≠ n := fun heq => ho (Fin.ext heq)
      exact decide_eq_decide.2 ⟨by omega, by omega⟩

/-- The creations as a run. -/
theorem afterPlain_run {n : ℕ} (hn : n ≤ obMaxObjects) :
    Run SlotStep (poolsBoot .zero) (List.replicate n createPlain) (afterPlain n) := by
  induction n with
  | zero => exact .nil _
  | succ n ih =>
    have hnext : afterPlain (n + 1) = performSlot (afterPlain n) createPlain :=
      Function.iterate_succ_apply' ..
    obtain ⟨hok, -, -⟩ := afterPlain_spec (Nat.le_of_succ_le hn)
    rw [List.replicate_succ', hnext]
    refine (ih (Nat.le_of_succ_le hn)).append (.single ⟨⟨?_, ?_⟩, rfl⟩)
    · rw [hok.portType_eq]
      decide
    · rw [hok.fileType_eq]
      decide

/-- With every header in use, a creation of a port does not leave the slots exact. -/
theorem not_exact_afterPlain {n : ℕ} (hn : n ≤ obMaxObjects) (hfull : obMaxObjects ≤ n) :
    ¬SlotsExact (performSlot (afterPlain n) (.createPort 1)) := by
  obtain ⟨hok, huse, hkernel⟩ := afterPlain_spec hn
  refine hok.not_exact_step fun hleft => ?_
  obtain ⟨o, ho⟩ := hleft ⟨0, by rw [hkernel, poolsBoot_spec]; rfl⟩
  rw [huse] at ho
  exact absurd (decide_eq_false_iff_not.1 ho) (not_not.2 (o.isLt.trans_le hfull))

/-- With `256` other objects alive, a port is refused and its slot lost. -/
theorem port_slot_lost :
    ¬Always SlotStep (fun s c s' => SlotsExact s' ∧ (CreationFails s c → AsBefore s s'))
      (poolsBoot .zero) (List.replicate 256 createPlain ++ [.createPort 1]) := by
  intro hall
  exact not_exact_afterPlain le_rfl le_rfl
    (hall.at_step (afterPlain_run le_rfl) ⟨trivial, rfl⟩).1

end NtxKernel.Ke
