import Mathlib.Data.Fintype.Basic
import Mathlib.Logic.Function.Basic
import Mathlib.Tactic.NormNum
import NtxKernel.Basic
import NtxKernel.Foundations.Search

/-!
# The object manager

The object manager of `kernel/ob/init.c`: a pool of object headers with reference counts, a pool
of object types and the kernel handle table. Pointers into a pool are indices of the pool.

A type carries a pointer to its delete routine, a function of another manager. The state of the
other managers is the parameter `σ`, and a delete routine is a function on `σ`: the routines of
this kernel (`MmpDeleteSectionObject`, `LpcpDeletePortObject`, `IopDeleteFileObject` and the two
empty ones of `Ps`) touch their own pools and never the object manager.

The null checks on out parameters and on object pointers have no case here, since a reference is
never null. The search loops `for (Index = 0; ...)` are `firstIndex`.
-/

namespace NtxKernel.Ob

open Foundations

/-- `OB_MAX_OBJECTS`, the size of the object pool and of the type pool. -/
abbrev obMaxObjects : ℕ := 256

/-- `OB_MAX_HANDLES`, the size of a handle table. -/
abbrev obMaxHandles : ℕ := 512

def obMaxTypeName : ℕ := 31
def obMaxObjectName : ℕ := 31

def obWaitStateClear : U32 := 0

/-- `OB_OBJECT_HEADER *`, a slot of `gObObjectPool`. -/
abbrev ObjectRef := Fin obMaxObjects

/-- `OB_OBJECT_TYPE *`, a slot of `gObTypePool`. -/
abbrev TypeRef := Fin obMaxObjects

/-- The position of an entry in a handle table. -/
abbrev EntryIx := Fin obMaxHandles

/-- `OB_OBJECT_TYPE`. -/
structure ObObjectType (σ : Type) where
  typeId : U32
  name : CString
  deleteRoutine : Option (ObjectRef → σ → σ)

/-- `OB_OBJECT_HEADER`. -/
structure ObObjectHeader where
  objectId : U64
  type : Option TypeRef
  refCount : U32
  flags : U32
  defaultAccessMask : U32
  waitState : U32
  name : CString
  deriving DecidableEq

/-- `OB_HANDLE_TABLE_ENTRY` with `InUse` set. -/
structure ObHandleTableEntry where
  handleValue : U32
  object : ObjectRef
  grantedAccess : U32
  deriving DecidableEq

/-- `OB_HANDLE_TABLE`. An entry is `none` while its `InUse` is clear; its other fields are then
all zero. -/
structure ObHandleTable where
  entries : EntryIx → Option ObHandleTableEntry
  nextHandle : U32

/-- The globals of the object manager. -/
structure ObState (σ : Type) where
  typePool : TypeRef → ObObjectType σ
  objectPool : ObjectRef → ObObjectHeader
  typeInUse : TypeRef → Bool
  objectInUse : ObjectRef → Bool
  kernelHandleTable : ObHandleTable
  nextObjectId : U64
  ready : Bool

variable {σ : Type}

/-- A header of the statically allocated pool, all zero. -/
def ObObjectHeader.zero : ObObjectHeader := ⟨0, none, 0, 0, 0, 0, []⟩

/-- The globals before `ObInitialize`, all zero. -/
def ObState.zero : ObState σ where
  typePool _ := ⟨0, [], none⟩
  objectPool _ := .zero
  typeInUse _ := false
  objectInUse _ := false
  kernelHandleTable := ⟨fun _ => none, 0⟩
  nextObjectId := 0
  ready := false

namespace ObState

/-- Write to the header of the object `o`. -/
def modifyObject (ob : ObState σ) (o : ObjectRef) (f : ObObjectHeader → ObObjectHeader) :
    ObState σ :=
  { ob with objectPool := Function.update ob.objectPool o (f (ob.objectPool o)) }

/-- Write `gObObjectInUse[o]`. -/
def setInUse (ob : ObState σ) (o : ObjectRef) (b : Bool) : ObState σ :=
  { ob with objectInUse := Function.update ob.objectInUse o b }

/-- Write an entry of the kernel handle table. -/
def setEntry (ob : ObState σ) (i : EntryIx) (e : Option ObHandleTableEntry) : ObState σ :=
  { ob with kernelHandleTable :=
      { ob.kernelHandleTable with entries := Function.update ob.kernelHandleTable.entries i e } }

end ObState

/-- `ObpCopyName` from a non-null source: what the destination holds afterwards. -/
def obpCopyName (destinationBytes : ℕ) (source : CString) : CString :=
  source.take (destinationBytes - 1)

/-- `ObpFindHandleEntry`: the first entry in use with this value. -/
def obpFindHandleEntry (table : ObHandleTable) (handleValue : U32) :
    Option (EntryIx × ObHandleTableEntry) :=
  (firstIndex fun i => (table.entries i).any (·.handleValue == handleValue)).bind fun i =>
    (table.entries i).map fun e => (i, e)

/-- `ObInitialize`. -/
def obInitialize (ob : ObState σ) : ObState σ × Except KStatus Unit :=
  if ob.ready then (ob, .error .alreadyInitialized) else
    ({ ob with
        typeInUse := fun _ => false
        objectInUse := fun _ => false
        kernelHandleTable := ⟨fun _ => none, 4⟩
        nextObjectId := 1
        ready := true }, .ok ())

/-- `ObCreateType`. -/
def obCreateType (ob : ObState σ) (name : Option CString)
    (deleteRoutine : Option (ObjectRef → σ → σ)) : ObState σ × Except KStatus TypeRef :=
  match name with
  | some name =>
    if ob.ready = false then (ob, .error .invalidParameter)
    else
      match firstIndex fun t => !ob.typeInUse t with
      | some t =>
        ({ ob with
            typeInUse := Function.update ob.typeInUse t true
            typePool := Function.update ob.typePool t
              ⟨BitVec.ofNat 32 (t + 1), obpCopyName (obMaxTypeName + 1) name, deleteRoutine⟩ },
          .ok t)
      | none => (ob, .error .initFailed)
  | none => (ob, .error .invalidParameter)

/-- `ObCreateObject`. -/
def obCreateObject (ob : ObState σ) (type : Option TypeRef) (name : Option CString)
    (defaultAccessMask flags : U32) : ObState σ × Except KStatus ObjectRef :=
  match type, name with
  | some type, some name =>
    if ob.ready = false then (ob, .error .invalidParameter)
    else
      match firstIndex fun o => !ob.objectInUse o with
      | some o =>
        let ob₁ := (ob.setInUse o true).modifyObject o fun _ =>
          { objectId := ob.nextObjectId
            type := some type
            refCount := 1
            flags := flags
            defaultAccessMask := defaultAccessMask
            waitState := obWaitStateClear
            name := obpCopyName (obMaxObjectName + 1) name }
        ({ ob₁ with nextObjectId := ob.nextObjectId + 1 }, .ok o)
      | none => (ob, .error .initFailed)
  | _, _ => (ob, .error .invalidParameter)

/-- `ObInsertHandle` on the kernel handle table. -/
def obInsertHandle (ob : ObState σ) (object : ObjectRef) (grantedAccess : U32) :
    ObState σ × Except KStatus U32 :=
  if ob.ready = false then (ob, .error .invalidParameter)
  else if grantedAccess &&& (ob.objectPool object).defaultAccessMask ≠ grantedAccess then
    (ob, .error .accessDenied)
  else
    match firstIndex fun i => (ob.kernelHandleTable.entries i).isNone with
    | some i =>
      let value := ob.kernelHandleTable.nextHandle
      let ob₁ := ob.setEntry i (some ⟨value, object, grantedAccess⟩)
      let ob₂ := { ob₁ with
        kernelHandleTable := { ob₁.kernelHandleTable with nextHandle := value + 4 } }
      (ob₂.modifyObject object fun h => { h with refCount := h.refCount + 1 }, .ok value)
    | none => (ob, .error .initFailed)

/-- `ObReferenceObjectByHandle` on the kernel handle table. -/
def obReferenceObjectByHandle (ob : ObState σ) (handleValue desiredAccess : U32)
    (expectedType : Option TypeRef) : ObState σ × Except KStatus ObjectRef :=
  if ob.ready = false ∨ handleValue = 0 then (ob, .error .invalidParameter)
  else
    match obpFindHandleEntry ob.kernelHandleTable handleValue with
    | none => (ob, .error .notFound)
    | some (_, entry) =>
      if entry.grantedAccess &&& desiredAccess ≠ desiredAccess then (ob, .error .accessDenied)
      else if expectedType ≠ none ∧ (ob.objectPool entry.object).type ≠ expectedType then
        (ob, .error .notFound)
      else
        (ob.modifyObject entry.object fun h => { h with refCount := h.refCount + 1 },
          .ok entry.object)

/-- The call of `Object->Type->DeleteRoutine`, when there is one. -/
def ObState.runDeleteRoutine (ob : ObState σ) (object : ObjectRef) (k : σ) : σ :=
  match (ob.objectPool object).type with
  | some t =>
    match (ob.typePool t).deleteRoutine with
    | some routine => routine object k
    | none => k
  | none => k

/-- `ObDereferenceObject`. -/
def obDereferenceObject (ob : ObState σ) (k : σ) (object : ObjectRef) :
    ObState σ × σ × Except KStatus Unit :=
  if ob.ready = false ∨ (ob.objectPool object).refCount = 0 then
    (ob, k, .error .invalidParameter)
  else
    let ob₁ := ob.modifyObject object fun h => { h with refCount := h.refCount - 1 }
    if (ob₁.objectPool object).refCount ≠ 0 then (ob₁, k, .ok ())
    else
      ((ob₁.setInUse object false).modifyObject object fun h =>
          { h with
            type := none
            flags := 0
            defaultAccessMask := 0
            waitState := obWaitStateClear
            name := [] },
        ob₁.runDeleteRoutine object k, .ok ())

/-- `ObCloseHandle` on the kernel handle table. The entry is cleared after the dereference,
whatever that returns. -/
def obCloseHandle (ob : ObState σ) (k : σ) (handleValue : U32) :
    ObState σ × σ × Except KStatus Unit :=
  if ob.ready = false ∨ handleValue = 0 then (ob, k, .error .invalidParameter)
  else
    match obpFindHandleEntry ob.kernelHandleTable handleValue with
    | none => (ob, k, .error .notFound)
    | some (i, entry) =>
      let (ob₁, k₁, status) := obDereferenceObject ob k entry.object
      (ob₁.setEntry i none, k₁, status)

/-! ## What each routine does -/

theorem any_handleValue {entry : Option ObHandleTableEntry} {v : U32} :
    (entry.any (·.handleValue == v)) = true ↔ ∃ e, entry = some e ∧ e.handleValue = v := by
  cases entry <;> simp

/-- An entry that is found is in use, carries the value and is the first to do so. -/
theorem obpFindHandleEntry_eq_some {table : ObHandleTable} {v : U32} {i : EntryIx}
    {e : ObHandleTableEntry} :
    obpFindHandleEntry table v = some (i, e) ↔
      table.entries i = some e ∧ e.handleValue = v ∧
        ∀ j < i, ∀ e', table.entries j = some e' → e'.handleValue ≠ v := by
  have hfirst : firstIndex (fun i => (table.entries i).any (·.handleValue == v)) = some i ↔
      (∃ e, table.entries i = some e ∧ e.handleValue = v) ∧
        ∀ j < i, ∀ e', table.entries j = some e' → e'.handleValue ≠ v := by
    rw [firstIndex_eq_some, any_handleValue]
    simp only [← Bool.not_eq_true, any_handleValue, not_exists, not_and]
  simp only [obpFindHandleEntry, Option.bind_eq_some_iff, Option.map_eq_some_iff, Prod.mk.injEq]
  constructor
  · rintro ⟨i', hi', e', he', rfl, rfl⟩
    obtain ⟨⟨e₀, he₀, hv⟩, hmin⟩ := hfirst.1 hi'
    obtain rfl := Option.some.inj (he'.symm.trans he₀)
    exact ⟨he', hv, hmin⟩
  · rintro ⟨he, hv, hmin⟩
    exact ⟨i, hfirst.2 ⟨⟨e, he, hv⟩, hmin⟩, e, he, rfl, rfl⟩

/-- No entry is found exactly when no entry in use carries the value. -/
theorem obpFindHandleEntry_eq_none {table : ObHandleTable} {v : U32} :
    obpFindHandleEntry table v = none ↔
      ∀ i e, table.entries i = some e → e.handleValue ≠ v := by
  have hnone : firstIndex (fun i => (table.entries i).any (·.handleValue == v)) = none ↔
      ∀ i e, table.entries i = some e → e.handleValue ≠ v := by
    rw [firstIndex_eq_none]
    simp only [← Bool.not_eq_true, any_handleValue, not_exists, not_and]
  rw [← hnone]
  constructor
  · intro h
    cases hf : firstIndex fun i => (table.entries i).any (·.handleValue == v) with
    | none => rfl
    | some i =>
      obtain ⟨e, he, -⟩ := any_handleValue.1 (firstIndex_sound hf)
      rw [obpFindHandleEntry, hf, Option.bind_some, he] at h
      cases h
  · intro h
    rw [obpFindHandleEntry, h, Option.bind_none]

/-- What `ObCreateObject` does: nothing, or it fills a free slot with a header of count one. -/
theorem obCreateObject_cases (ob : ObState σ) (type : Option TypeRef) (name : Option CString)
    (mask flags : U32) :
    (∃ e, obCreateObject ob type name mask flags = (ob, .error e)) ∨
      ∃ o t nm, type = some t ∧ name = some nm ∧ ob.objectInUse o = false ∧
        obCreateObject ob type name mask flags =
          ({ ob with
              objectInUse := Function.update ob.objectInUse o true
              objectPool := Function.update ob.objectPool o
                ⟨ob.nextObjectId, some t, 1, flags, mask, obWaitStateClear,
                  obpCopyName (obMaxObjectName + 1) nm⟩
              nextObjectId := ob.nextObjectId + 1 }, .ok o) := by
  rcases type with _ | t
  · exact .inl ⟨_, rfl⟩
  rcases name with _ | nm
  · exact .inl ⟨_, rfl⟩
  by_cases hr : ob.ready = false
  · exact .inl ⟨_, by rw [obCreateObject, if_pos hr]⟩
  rcases hf : firstIndex fun o => !ob.objectInUse o with _ | o
  · exact .inl ⟨_, by rw [obCreateObject, if_neg hr, hf]⟩
  · refine .inr ⟨o, t, nm, rfl, rfl, by simpa using firstIndex_sound hf, ?_⟩
    rw [obCreateObject, if_neg hr, hf]
    rfl

/-- With a type and a free slot `ObCreateObject` succeeds. -/
theorem obCreateObject_ok {ob : ObState σ} {type : Option TypeRef}
    (h : type ≠ none ∧ ob.ready = true ∧ ∃ o, ob.objectInUse o = false) (name : CString)
    (mask flags : U32) : ∃ ob' o, obCreateObject ob type (some name) mask flags = (ob', .ok o) := by
  obtain ⟨htype, hready, o, ho⟩ := h
  obtain ⟨t, rfl⟩ := Option.ne_none_iff_exists'.1 htype
  have hr : ¬ob.ready = false := fun hfalse => Bool.false_ne_true (hfalse.symm.trans hready)
  rcases hf : firstIndex fun o => !ob.objectInUse o with _ | o₁
  · have hused := firstIndex_eq_none.1 hf o
    rw [ho] at hused
    cases hused
  · exact ⟨_, o₁, by rw [obCreateObject, if_neg hr, hf]⟩

/-- What `ObInsertHandle` does: nothing, or it fills a free entry with the next value and counts
the new reference. -/
theorem obInsertHandle_cases (ob : ObState σ) (object : ObjectRef) (granted : U32) :
    ((ob.ready = true → granted &&& (ob.objectPool object).defaultAccessMask = granted →
          ∀ i, ob.kernelHandleTable.entries i ≠ none) ∧
        ∃ e, obInsertHandle ob object granted = (ob, .error e)) ∨
      ∃ i, ob.kernelHandleTable.entries i = none ∧
        granted &&& (ob.objectPool object).defaultAccessMask = granted ∧
        obInsertHandle ob object granted =
          ({ ob with
              kernelHandleTable :=
                ⟨Function.update ob.kernelHandleTable.entries i
                    (some ⟨ob.kernelHandleTable.nextHandle, object, granted⟩),
                  ob.kernelHandleTable.nextHandle + 4⟩
              objectPool := Function.update ob.objectPool object
                { ob.objectPool object with
                  refCount := (ob.objectPool object).refCount + 1 } },
            .ok ob.kernelHandleTable.nextHandle) := by
  by_cases hr : ob.ready = false
  · exact .inl ⟨by simp [hr], _, by rw [obInsertHandle, if_pos hr]⟩
  by_cases hmask : granted &&& (ob.objectPool object).defaultAccessMask = granted
  · rcases hf : firstIndex fun i => (ob.kernelHandleTable.entries i).isNone with _ | i
    · refine .inl ⟨fun _ _ i hi => ?_, _,
        by rw [obInsertHandle, if_neg hr, if_neg (not_not.2 hmask), hf]⟩
      have hfull := firstIndex_eq_none.1 hf i
      rw [hi] at hfull
      cases hfull
    · refine .inr ⟨i, by simpa using firstIndex_sound hf, hmask, ?_⟩
      rw [obInsertHandle, if_neg hr, if_neg (not_not.2 hmask), hf]
      rfl
  · exact .inl ⟨fun _ h => absurd h hmask, _,
      by rw [obInsertHandle, if_neg hr, if_pos hmask]⟩

/-- What `ObReferenceObjectByHandle` does: nothing, or it counts a reference to the object of
the entry found. -/
theorem obReferenceObjectByHandle_cases (ob : ObState σ) (v desired : U32)
    (expected : Option TypeRef) :
    (∃ e, obReferenceObjectByHandle ob v desired expected = (ob, .error e)) ∨
      ∃ i e, obpFindHandleEntry ob.kernelHandleTable v = some (i, e) ∧
        e.grantedAccess &&& desired = desired ∧
        (expected = none ∨ (ob.objectPool e.object).type = expected) ∧
        obReferenceObjectByHandle ob v desired expected =
          ({ ob with
              objectPool := Function.update ob.objectPool e.object
                { ob.objectPool e.object with
                  refCount := (ob.objectPool e.object).refCount + 1 } }, .ok e.object) := by
  by_cases hguard : ob.ready = false ∨ v = 0
  · exact .inl ⟨_, by rw [obReferenceObjectByHandle, if_pos hguard]⟩
  rcases hf : obpFindHandleEntry ob.kernelHandleTable v with _ | ⟨i, e⟩
  · exact .inl ⟨_, by rw [obReferenceObjectByHandle, if_neg hguard, hf]⟩
  by_cases hmask : e.grantedAccess &&& desired = desired
  · by_cases htype : expected ≠ none ∧ (ob.objectPool e.object).type ≠ expected
    · refine .inl ⟨.notFound, ?_⟩
      simp only [obReferenceObjectByHandle, if_neg hguard, hf, if_neg (not_not.2 hmask),
        if_pos htype]
    · refine .inr ⟨i, e, rfl, hmask, ?_, ?_⟩
      · exact or_iff_not_imp_left.2 fun he => not_not.1 fun hne => htype ⟨he, hne⟩
      simp only [obReferenceObjectByHandle, if_neg hguard, hf, if_neg (not_not.2 hmask),
        if_neg htype]
      rfl
  · refine .inl ⟨.accessDenied, ?_⟩
    simp only [obReferenceObjectByHandle, if_neg hguard, hf, if_pos hmask]

/-- `ObReferenceObjectByHandle` on a value that is found. -/
theorem obReferenceObjectByHandle_of_find {ob : ObState σ} {v : U32} {i : EntryIx}
    {e : ObHandleTableEntry} (hready : ob.ready = true) (hv : v ≠ 0)
    (hfind : obpFindHandleEntry ob.kernelHandleTable v = some (i, e)) (desired : U32)
    (expected : Option TypeRef) :
    obReferenceObjectByHandle ob v desired expected =
      if e.grantedAccess &&& desired ≠ desired then (ob, .error .accessDenied)
      else if expected ≠ none ∧ (ob.objectPool e.object).type ≠ expected then
        (ob, .error .notFound)
      else
        (ob.modifyObject e.object fun h => { h with refCount := h.refCount + 1 },
          .ok e.object) := by
  have hguard : ¬(ob.ready = false ∨ v = 0) := not_or.2 ⟨by simp [hready], hv⟩
  rw [obReferenceObjectByHandle, if_neg hguard, hfind]

/-- What `ObDereferenceObject` does: nothing; or it drops one of several references; or it drops
the last one, runs the delete routine and frees the slot. -/
theorem obDereferenceObject_cases (ob : ObState σ) (k : σ) (o : ObjectRef) :
    ((ob.ready = false ∨ (ob.objectPool o).refCount = 0) ∧
        obDereferenceObject ob k o = (ob, k, .error .invalidParameter)) ∨
      (ob.ready = true ∧ (ob.objectPool o).refCount ≠ 0 ∧ (ob.objectPool o).refCount ≠ 1 ∧
        obDereferenceObject ob k o =
          ({ ob with
              objectPool := Function.update ob.objectPool o
                { ob.objectPool o with refCount := (ob.objectPool o).refCount - 1 } },
            k, .ok ())) ∨
      (ob.ready = true ∧ (ob.objectPool o).refCount = 1 ∧
        obDereferenceObject ob k o =
          ({ ob with
              objectInUse := Function.update ob.objectInUse o false
              objectPool := Function.update ob.objectPool o
                ⟨(ob.objectPool o).objectId, none, 0, 0, 0, obWaitStateClear, []⟩ },
            ob.runDeleteRoutine o k, .ok ())) := by
  by_cases hguard : ob.ready = false ∨ (ob.objectPool o).refCount = 0
  · exact .inl ⟨hguard, by rw [obDereferenceObject, if_pos hguard]⟩
  have hready : ob.ready = true := by
    cases hr : ob.ready <;> simp_all
  have hne : (ob.objectPool o).refCount ≠ 0 := fun h => hguard (.inr h)
  by_cases hone : (ob.objectPool o).refCount = 1
  · refine .inr (.inr ⟨hready, hone, ?_⟩)
    rw [obDereferenceObject, if_neg hguard]
    simp only [ObState.modifyObject, ObState.setInUse, Function.update_self, hone,
      Function.update_idem, BitVec.sub_self, ne_eq, ObState.runDeleteRoutine]
    rfl
  · refine .inr (.inl ⟨hready, hne, hone, ?_⟩)
    have hsub : (ob.objectPool o).refCount - 1 ≠ 0 := by
      intro h
      apply hone
      bv_omega
    rw [obDereferenceObject, if_neg hguard]
    simp only [ObState.modifyObject, Function.update_self]
    rw [if_pos hsub]

/-- `ObDereferenceObject` touches neither the handle table nor the types. -/
theorem obDereferenceObject_table (ob : ObState σ) (k : σ) (o : ObjectRef) :
    (obDereferenceObject ob k o).1.kernelHandleTable = ob.kernelHandleTable := by
  rcases obDereferenceObject_cases ob k o with ⟨-, h⟩ | ⟨-, -, -, h⟩ | ⟨-, -, h⟩ <;> rw [h]

theorem obDereferenceObject_ready (ob : ObState σ) (k : σ) (o : ObjectRef) :
    (obDereferenceObject ob k o).1.ready = ob.ready := by
  rcases obDereferenceObject_cases ob k o with ⟨-, h⟩ | ⟨-, -, -, h⟩ | ⟨-, -, h⟩ <;> rw [h]

theorem obDereferenceObject_typePool (ob : ObState σ) (k : σ) (o : ObjectRef) :
    (obDereferenceObject ob k o).1.typePool = ob.typePool := by
  rcases obDereferenceObject_cases ob k o with ⟨-, h⟩ | ⟨-, -, -, h⟩ | ⟨-, -, h⟩ <;> rw [h]

theorem obReferenceObjectByHandle_typePool (ob : ObState σ) (v desired : U32)
    (expected : Option TypeRef) :
    (obReferenceObjectByHandle ob v desired expected).1.typePool = ob.typePool := by
  rcases obReferenceObjectByHandle_cases ob v desired expected with ⟨e, h⟩ | ⟨i, e, -, -, -, h⟩ <;>
    rw [h]

/-- What `ObCloseHandle` does: nothing, or it dereferences the object of the entry found and
clears the entry. -/
theorem obCloseHandle_cases (ob : ObState σ) (k : σ) (v : U32) :
    (∃ e, obCloseHandle ob k v = (ob, k, .error e)) ∨
      ∃ i e, obpFindHandleEntry ob.kernelHandleTable v = some (i, e) ∧
        obCloseHandle ob k v =
          ((obDereferenceObject ob k e.object).1.setEntry i none,
            (obDereferenceObject ob k e.object).2) := by
  by_cases hguard : ob.ready = false ∨ v = 0
  · exact .inl ⟨_, by rw [obCloseHandle, if_pos hguard]⟩
  rcases hf : obpFindHandleEntry ob.kernelHandleTable v with _ | ⟨i, e⟩
  · exact .inl ⟨_, by rw [obCloseHandle, if_neg hguard, hf]⟩
  · refine .inr ⟨i, e, rfl, ?_⟩
    rw [obCloseHandle, if_neg hguard, hf]

/-- `ObCloseHandle` on a value that is found. -/
theorem obCloseHandle_of_find {ob : ObState σ} {v : U32} {i : EntryIx} {e : ObHandleTableEntry}
    (hready : ob.ready = true) (hv : v ≠ 0)
    (hfind : obpFindHandleEntry ob.kernelHandleTable v = some (i, e)) (k : σ) :
    obCloseHandle ob k v = ((obDereferenceObject ob k e.object).1.setEntry i none,
      (obDereferenceObject ob k e.object).2) := by
  have hguard : ¬(ob.ready = false ∨ v = 0) := not_or.2 ⟨by simp [hready], hv⟩
  rw [obCloseHandle, if_neg hguard, hfind]

/-- `ObDereferenceObject` of an object with references drops one of them and touches no other
header. -/
theorem obDereferenceObject_drops {ob : ObState σ} {o : ObjectRef} (hready : ob.ready = true)
    (hne : (ob.objectPool o).refCount ≠ 0) (k : σ) :
    (obDereferenceObject ob k o).2.2 = .ok () ∧
      ((obDereferenceObject ob k o).1.objectPool o).refCount =
        (ob.objectPool o).refCount - 1 ∧
      ∀ o' ≠ o, (obDereferenceObject ob k o).1.objectPool o' = ob.objectPool o' := by
  rcases obDereferenceObject_cases ob k o with ⟨hguard, -⟩ | ⟨-, -, -, h⟩ | ⟨-, hone, h⟩
  · rcases hguard with hr | h0
    · rw [hready] at hr
      cases hr
    · exact absurd h0 hne
  · rw [h]
    refine ⟨rfl, by simp only [Function.update_self], fun o' ho => ?_⟩
    simp only [Function.update_of_ne ho]
  · rw [h]
    refine ⟨rfl, by simp only [Function.update_self, hone]; rfl, fun o' ho => ?_⟩
    simp only [Function.update_of_ne ho]

/-- A reference that is given back leaves the object manager as it was. -/
theorem obDereferenceObject_of_reference {ob ob' : ObState σ} {v desired : U32}
    {expected : Option TypeRef} {o : ObjectRef}
    (h : obReferenceObjectByHandle ob v desired expected = (ob', .ok o))
    (hne : (ob.objectPool o).refCount ≠ 0) (hwrap : (ob.objectPool o).refCount.toNat + 1 < 2 ^ 32)
    (k : σ) : obDereferenceObject ob' k o = (ob, k, .ok ()) := by
  have hready : ob.ready = true := by
    by_contra hr
    rw [obReferenceObjectByHandle, if_pos (.inl (by simpa using hr))] at h
    cases h
  rcases obReferenceObjectByHandle_cases ob v desired expected with
    ⟨e, heq⟩ | ⟨i, e, -, -, -, heq⟩
  · cases h.symm.trans heq
  · cases h.symm.trans heq
    have hself : (Function.update ob.objectPool e.object { ob.objectPool e.object with
        refCount := (ob.objectPool e.object).refCount + 1 } e.object).refCount =
          (ob.objectPool e.object).refCount + 1 := by
      rw [Function.update_self]
    rcases obDereferenceObject_cases { ob with
        objectPool := Function.update ob.objectPool e.object { ob.objectPool e.object with
          refCount := (ob.objectPool e.object).refCount + 1 } } k e.object with
      ⟨hguard, -⟩ | ⟨-, -, -, hderef⟩ | ⟨-, hone, -⟩
    · rcases hguard with hr | hzero
      · cases hready.symm.trans hr
      · rw [hself] at hzero
        bv_omega
    · rw [hderef]
      simp only [Function.update_self, Function.update_idem, BitVec.add_sub_cancel,
        Function.update_eq_self]
    · rw [hself] at hone
      exact absurd (by bv_omega) hne

end NtxKernel.Ob
