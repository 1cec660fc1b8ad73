import NtxKernel.Foundations.Slots
import NtxKernel.Ob.Objects

/-!
# Slot pools

The managers over the object manager keep a pool of slots for the objects of their type. A slot
names its object in a field `Header`; the object knows nothing of the slot, and the delete routine
of the type looks for it.

* `PoolOk`: the slots match the live objects of the type, and the delete routines act on the pool
  as they should.
* Creating an object with a slot, creating one of another type, inserting a handle, dropping a
  reference and closing a handle keep `PoolOk`, whatever the reference counts are.
* `SameObjects`: the objects and the handles are as before. An object that was created and loses
  its first reference comes to nothing.
-/

namespace NtxKernel.Ob

open Foundations

variable {σ ι β : Type}

/-- A live object of a type. -/
def ObState.Live (ob : ObState σ) (type : TypeRef) (o : ObjectRef) : Prop :=
  ob.objectInUse o = true ∧ (ob.objectPool o).type = some type

/-- A pool among the globals of the managers, whose slots name their objects. -/
structure SlotPool (σ ι β : Type) where
  slots : σ → Slots ι β
  header : β → Option ObjectRef

/-- The slots of the pool match the live objects of its type. -/
structure PoolOk (pool : SlotPool σ ι β) (type : TypeRef) (ob : ObState σ) (k : σ) : Prop where
  /-- The delete routine of the type frees the slot of an object that has one slot. -/
  own_routine : ∃ routine, (ob.typePool type).deleteRoutine = some routine ∧
    ∀ o k, (∀ i j, (pool.slots k).inUse i = true → (pool.slots k).inUse j = true →
        pool.header ((pool.slots k).content i) = some o →
          pool.header ((pool.slots k).content j) = some o → i = j) →
      Slots.Removed pool.header (pool.slots k) (pool.slots (routine o k)) o
  /-- The delete routines of the other types leave the pool alone. -/
  other_routines : ∀ t ≠ type, ∀ routine, (ob.typePool t).deleteRoutine = some routine →
    ∀ o k, pool.slots (routine o k) = pool.slots k
  slots_match : (pool.slots k).Match pool.header (ob.Live type)
  slots_clear : (pool.slots k).Clear pool.header

/-- The live objects and the handle table are the same. -/
structure SameObjects (ob ob' : ObState σ) : Prop where
  objectInUse : ob'.objectInUse = ob.objectInUse
  object : ∀ o, ob.objectInUse o = true → ob'.objectPool o = ob.objectPool o
  handles : ob'.kernelHandleTable = ob.kernelHandleTable

theorem SameObjects.refl (ob : ObState σ) : SameObjects ob ob := ⟨rfl, fun _ _ => rfl, rfl⟩

/-! ## What the calls do to live objects -/

/-- An object that is created is live of its type from then on, and no other changes. -/
theorem obCreateObject_live {ob ob₁ : ObState σ} {t : TypeRef} {name : CString} {mask flags : U32}
    {o : ObjectRef} (h : obCreateObject ob (some t) (some name) mask flags = (ob₁, .ok o)) :
    ob₁.typePool = ob.typePool ∧ ob.objectInUse o = false ∧
      ∀ type o', ob₁.Live type o' ↔ ob.Live type o' ∨ (type = t ∧ o' = o) := by
  rcases obCreateObject_cases ob (some t) (some name) mask flags with
    ⟨e, heq⟩ | ⟨o₁, t', nm, ht, -, hfree, heq⟩
  · cases h.symm.trans heq
  obtain rfl := Option.some.inj ht
  have hboth := h.symm.trans heq
  obtain rfl : o = o₁ := Except.ok.inj (congrArg Prod.snd hboth)
  have hob := congrArg Prod.fst hboth
  dsimp only at hob
  subst hob
  refine ⟨rfl, hfree, fun type o' => ?_⟩
  by_cases ho : o' = o
  · subst ho
    simp only [ObState.Live, Function.update_self, hfree, Bool.false_eq_true, false_and,
      true_and, and_true, false_or, Option.some.injEq]
    exact eq_comm
  · simp only [ObState.Live, Function.update_of_ne ho, ho, and_false, or_false]

theorem obCreateObject_ready {ob ob₁ : ObState σ} {type : Option TypeRef} {name : Option CString}
    {mask flags : U32} {r : Except KStatus ObjectRef}
    (h : obCreateObject ob type name mask flags = (ob₁, r)) : ob₁.ready = ob.ready := by
  rcases obCreateObject_cases ob type name mask flags with ⟨e, heq⟩ | ⟨o, t, nm, -, -, -, heq⟩ <;>
    cases h.symm.trans heq <;> rfl

/-- A creation that fails does nothing. -/
theorem obCreateObject_error {ob ob₁ : ObState σ} {type : Option TypeRef} {name : Option CString}
    {mask flags : U32} {e : KStatus}
    (h : obCreateObject ob type name mask flags = (ob₁, .error e)) : ob₁ = ob := by
  rcases obCreateObject_cases ob type name mask flags with
    ⟨e', heq⟩ | ⟨o, t, nm, -, -, -, heq⟩ <;> cases h.symm.trans heq
  rfl

/-- An object can be created exactly when a header is free. -/
theorem obCreateObject_isOk_iff {ob : ObState σ} (hready : ob.ready = true) (t : TypeRef)
    (name : CString) (mask flags : U32) :
    (∃ ob₁ o, obCreateObject ob (some t) (some name) mask flags = (ob₁, .ok o)) ↔
      ∃ o, ob.objectInUse o = false := by
  constructor
  · rintro ⟨ob₁, o, h⟩
    rcases obCreateObject_cases ob (some t) (some name) mask flags with
      ⟨e, heq⟩ | ⟨o₁, t', nm, -, -, hfree, heq⟩
    · cases h.symm.trans heq
    · exact ⟨o₁, hfree⟩
  · intro hfree
    exact obCreateObject_ok ⟨Option.some_ne_none t, hready, hfree⟩ name mask flags

/-- What every delete routine keeps, dropping a reference keeps. -/
theorem obDereferenceObject_keeps {γ : Type} {f : σ → γ} {ob : ObState σ} {k : σ}
    (h : ∀ t routine, (ob.typePool t).deleteRoutine = some routine → ∀ o k, f (routine o k) = f k)
    (o : ObjectRef) : f (obDereferenceObject ob k o).2.1 = f k := by
  rcases obDereferenceObject_cases ob k o with ⟨-, heq⟩ | ⟨-, -, -, heq⟩ | ⟨-, -, heq⟩ <;>
    rw [heq]
  rw [ObState.runDeleteRoutine]
  rcases (ob.objectPool o).type with _ | t
  · rfl
  dsimp only
  rcases hroutine : (ob.typePool t).deleteRoutine with _ | routine
  · rfl
  · exact h t routine hroutine o k

/-- Inserting a handle changes which objects are live in no way. -/
theorem obInsertHandle_live (ob : ObState σ) (o : ObjectRef) (granted : U32) :
    (obInsertHandle ob o granted).1.typePool = ob.typePool ∧
      ∀ type o', (obInsertHandle ob o granted).1.Live type o' ↔ ob.Live type o' := by
  rcases obInsertHandle_cases ob o granted with ⟨-, e, heq⟩ | ⟨i, -, -, heq⟩ <;> rw [heq]
  · exact ⟨rfl, fun _ _ => Iff.rfl⟩
  refine ⟨rfl, fun type o' => ?_⟩
  by_cases ho : o' = o
  · subst ho
    simp only [ObState.Live, Function.update_self]
  · simp only [ObState.Live, Function.update_of_ne ho]

/-- An insertion that fails does nothing. -/
theorem obInsertHandle_error {ob : ObState σ} {o : ObjectRef} {granted : U32} {e : KStatus}
    (h : (obInsertHandle ob o granted).2 = .error e) : (obInsertHandle ob o granted).1 = ob := by
  rcases obInsertHandle_cases ob o granted with ⟨-, e', heq⟩ | ⟨i, -, -, heq⟩
  · rw [heq]
  · rw [heq] at h
    cases h

/-- A reference by handle changes which objects are live in no way. -/
theorem obReferenceObjectByHandle_live (ob : ObState σ) (v desired : U32)
    (expected : Option TypeRef) :
    (obReferenceObjectByHandle ob v desired expected).1.typePool = ob.typePool ∧
      ∀ type o', (obReferenceObjectByHandle ob v desired expected).1.Live type o' ↔
        ob.Live type o' := by
  rcases obReferenceObjectByHandle_cases ob v desired expected with
    ⟨e, heq⟩ | ⟨i, e, -, -, -, heq⟩ <;> rw [heq]
  · exact ⟨rfl, fun _ _ => Iff.rfl⟩
  refine ⟨rfl, fun type o' => ?_⟩
  by_cases ho : o' = e.object
  · subst ho
    simp only [ObState.Live, Function.update_self]
  · simp only [ObState.Live, Function.update_of_ne ho]

/-! ## Pools -/

namespace PoolOk

variable {pool : SlotPool σ ι β} {type : TypeRef} {ob ob' : ObState σ} {k k' : σ}

/-- Neither the pool nor the live objects change. -/
theorem congr (h : PoolOk pool type ob k) (hslots : pool.slots k' = pool.slots k)
    (htypes : ob'.typePool = ob.typePool) (hlive : ∀ o, ob'.Live type o ↔ ob.Live type o) :
    PoolOk pool type ob' k' where
  own_routine := by
    rw [htypes]
    exact h.own_routine
  other_routines := by
    rw [htypes]
    exact h.other_routines
  slots_match := by
    rw [hslots]
    exact h.slots_match.congr hlive
  slots_clear := by
    rw [hslots]
    exact h.slots_clear

theorem insertHandle (h : PoolOk pool type ob k) (o : ObjectRef) (granted : U32) :
    PoolOk pool type (obInsertHandle ob o granted).1 k :=
  h.congr rfl (obInsertHandle_live ob o granted).1 ((obInsertHandle_live ob o granted).2 type)

theorem referenceByHandle (h : PoolOk pool type ob k) (v desired : U32)
    (expected : Option TypeRef) :
    PoolOk pool type (obReferenceObjectByHandle ob v desired expected).1 k :=
  h.congr rfl (obReferenceObjectByHandle_live ob v desired expected).1
    ((obReferenceObjectByHandle_live ob v desired expected).2 type)

/-- An object of another type is created, and the pool stays. -/
theorem createOther (h : PoolOk pool type ob k) {t : TypeRef} (ht : t ≠ type) {name : CString}
    {mask flags : U32} {o : ObjectRef}
    (hcreate : obCreateObject ob (some t) (some name) mask flags = (ob', .ok o))
    (hslots : pool.slots k' = pool.slots k) : PoolOk pool type ob' k' := by
  obtain ⟨htypes, -, hlive⟩ := obCreateObject_live hcreate
  refine h.congr hslots htypes fun o' => (hlive type o').trans ?_
  exact or_iff_left fun hsame => ht hsame.1.symm

/-- An object of the type is created, and a free slot is put to use for it. -/
theorem createOwn [DecidableEq ι] (h : PoolOk pool type ob k) {name : CString} {mask flags : U32}
    {o : ObjectRef} (hcreate : obCreateObject ob (some type) (some name) mask flags = (ob', .ok o))
    {i : ι} {c : β} (hi : (pool.slots k).inUse i = false) (hc : pool.header c = some o)
    (hslots : pool.slots k' = (pool.slots k).set i true c) : PoolOk pool type ob' k' := by
  obtain ⟨htypes, hfree, hlive⟩ := obCreateObject_live hcreate
  refine ⟨by rw [htypes]; exact h.own_routine, by rw [htypes]; exact h.other_routines, ?_, ?_⟩
  · rw [hslots]
    refine h.slots_match.fill h.slots_clear hi hc (fun hold => ?_) fun o' => ?_
    · cases hold.1.symm.trans hfree
    · rw [hlive type o']
      simp only [true_and]
  · rw [hslots]
    exact h.slots_clear.fill

/-- The delete routine of an object removes its name from the pool. -/
theorem runDeleteRoutine (h : PoolOk pool type ob k) (o : ObjectRef) :
    Slots.Removed pool.header (pool.slots k) (pool.slots (ob.runDeleteRoutine o k)) o := by
  -- an object that has a slot is of the type of the pool
  have hother : (ob.objectPool o).type ≠ some type →
      ∀ i, (pool.slots k).inUse i = true → pool.header ((pool.slots k).content i) ≠ some o :=
    fun hne i hi hio => hne (h.slots_match.live_of_name hi hio).2
  rw [ObState.runDeleteRoutine]
  rcases htype : (ob.objectPool o).type with _ | t
  · exact .refl (hother (by rw [htype]; exact (Option.some_ne_none type).symm))
  dsimp only
  by_cases ht : t = type
  · subst ht
    obtain ⟨routine, hroutine, hremoves⟩ := h.own_routine
    rw [hroutine]
    exact hremoves o k fun i j hi hj hio hjo => h.slots_match.eq_of_name hi hj hio hjo
  · have hnone := hother (by rw [htype]; exact fun heq => ht (Option.some.inj heq))
    rcases hroutine : (ob.typePool t).deleteRoutine with _ | routine
    · exact .refl hnone
    · dsimp only
      rw [h.other_routines t ht routine hroutine]
      exact .refl hnone

/-- Dropping a reference, the last one or not. -/
theorem dereference (h : PoolOk pool type ob k) (o : ObjectRef) :
    PoolOk pool type (obDereferenceObject ob k o).1 (obDereferenceObject ob k o).2.1 := by
  rcases obDereferenceObject_cases ob k o with ⟨-, heq⟩ | ⟨-, -, -, heq⟩ | ⟨-, -, heq⟩ <;>
    rw [heq]
  · exact h
  · refine h.congr rfl rfl fun o' => ?_
    by_cases ho : o' = o
    · subst ho
      simp only [ObState.Live, Function.update_self]
    · simp only [ObState.Live, Function.update_of_ne ho]
  · refine ⟨h.own_routine, h.other_routines, ?_, ?_⟩
    · refine h.slots_match.removed (h.runDeleteRoutine o) fun o' => ?_
      by_cases ho : o' = o
      · subst ho
        simp only [ObState.Live, Function.update_self, Bool.false_eq_true, false_and, ne_eq,
          not_true_eq_false, and_false]
      · simp only [ObState.Live, Function.update_of_ne ho, ne_eq, ho, not_false_eq_true, and_true]
    · exact (h.runDeleteRoutine o).clear h.slots_clear

theorem closeHandle (h : PoolOk pool type ob k) (v : U32) :
    PoolOk pool type (obCloseHandle ob k v).1 (obCloseHandle ob k v).2.1 := by
  rcases obCloseHandle_cases ob k v with ⟨e, heq⟩ | ⟨i, e, -, heq⟩ <;> rw [heq]
  · exact h
  · exact (h.dereference e.object).congr rfl rfl fun _ => Iff.rfl

end PoolOk

/-! ## An object that comes to nothing -/

/-- The first reference to an object that was just created is the last one, and with it goes
what the creation did. -/
theorem obDereferenceObject_created {ob ob₁ : ObState σ} {t : TypeRef} {name : CString}
    {mask flags : U32} {o : ObjectRef} (hready : ob.ready = true)
    (h : obCreateObject ob (some t) (some name) mask flags = (ob₁, .ok o)) (k : σ) :
    SameObjects ob (obDereferenceObject ob₁ k o).1 ∧
      (obDereferenceObject ob₁ k o).2.1 = ob₁.runDeleteRoutine o k := by
  rcases obCreateObject_cases ob (some t) (some name) mask flags with
    ⟨e, heq⟩ | ⟨o₁, t', nm, -, -, hfree, heq⟩
  · cases h.symm.trans heq
  have hboth := h.symm.trans heq
  obtain rfl : o = o₁ := Except.ok.inj (congrArg Prod.snd hboth)
  have hob := congrArg Prod.fst hboth
  dsimp only at hob
  have hone : (ob₁.objectPool o).refCount = 1 := by
    rw [hob]
    simp only [Function.update_self]
  have hready₁ : ob₁.ready = true := by
    rw [hob]
    exact hready
  rcases obDereferenceObject_cases ob₁ k o with ⟨hguard, -⟩ | ⟨-, -, hne, -⟩ | ⟨-, -, hlast⟩
  · rcases hguard with hr | hzero
    · cases hready₁.symm.trans hr
    · cases hone.symm.trans hzero
  · exact absurd hone hne
  rw [hlast]
  refine ⟨⟨?_, fun o' ho' => ?_, ?_⟩, rfl⟩
  · rw [hob]
    dsimp only
    rw [Function.update_idem, ← hfree, Function.update_eq_self]
  · have ho : o' ≠ o := by
      rintro rfl
      rw [hfree] at ho'
      cases ho'
    rw [hob]
    simp only [Function.update_of_ne ho]
  · rw [hob]

/-- A slot that was filled for an object that comes to nothing is free again. -/
theorem PoolOk.agree_of_created [DecidableEq ι] {pool : SlotPool σ ι β} {type : TypeRef}
    {ob ob₁ : ObState σ} {k k₁ : σ} (h : PoolOk pool type ob k) {name : CString} {mask flags : U32}
    {o : ObjectRef} (hcreate : obCreateObject ob (some type) (some name) mask flags = (ob₁, .ok o))
    {i : ι} {c : β} (hi : (pool.slots k).inUse i = false) (hc : pool.header c = some o)
    (hslots : pool.slots k₁ = (pool.slots k).set i true c) :
    (pool.slots k).Agree (pool.slots (ob₁.runDeleteRoutine o k₁)) := by
  have hremoved := (h.createOwn hcreate hi hc hslots).runDeleteRoutine o
  rw [hslots] at hremoved
  refine .of_fill hi hc (fun j hj hjo => ?_) hremoved
  have hlive := h.slots_match.live_of_name hj hjo
  cases hlive.1.symm.trans (obCreateObject_live hcreate).2.1

/-- A pool of another type is not touched by the deletion of an object. -/
theorem PoolOk.agree_of_other {pool : SlotPool σ ι β} {type : TypeRef} {ob : ObState σ} {k : σ}
    (h : PoolOk pool type ob k) {o : ObjectRef} (ho : (ob.objectPool o).type ≠ some type) :
    (pool.slots k).Agree (pool.slots (ob.runDeleteRoutine o k)) := by
  have hremoved := h.runDeleteRoutine o
  have hkept : ∀ i, ¬((pool.slots k).inUse i = true ∧
      pool.header ((pool.slots k).content i) = some o) :=
    fun i hi => ho (h.slots_match.live_of_name hi.1 hi.2).2
  exact ⟨funext fun i => (hremoved.kept i (hkept i)).1, fun i _ => (hremoved.kept i (hkept i)).2⟩

end NtxKernel.Ob
