import NtxKernel.Foundations.Run
import NtxKernel.Foundations.Count
import NtxKernel.Ob.Objects

/-!
# Object lifetime

The object manager as a system of calls, with three ghost components: how many references to
each object its callers hold (`held`), which `ObjectId` an entry was inserted for (`namedId`), and
which handle values are open (`issued`). Callers follow the discipline of reference counting:
`ObDereferenceObject` returns a reference that was given by `ObCreateObject` or
`ObReferenceObjectByHandle` and not returned yet, and `ObInsertHandle` is passed a live object.

* `users o` is the number of handle entries that name `o` plus the references held to it.
* `ObLifetime` ties the header and the slot of every object to its users.
* `ObDeletes` says which delete routines one call runs.
* `object_lifetime`: along every run in which no object has `2 ^ 32` users, both hold at every
  step.
-/

namespace NtxKernel.Ob

open Foundations

variable {σ : Type}

/-- The calls of the object manager. -/
inductive ObCall
  | createObject (type : TypeRef) (name : CString) (defaultAccessMask flags : U32)
  | insertHandle (object : ObjectRef) (grantedAccess : U32)
  | referenceByHandle (handleValue desiredAccess : U32) (expectedType : Option TypeRef)
  | dereference (object : ObjectRef)
  | closeHandle (handleValue : U32)

/-- The object manager, the other managers and the ghost components. -/
structure ObSystem (σ : Type) where
  ob : ObState σ
  rest : σ
  /-- The references to each object that callers were given and have not returned. -/
  held : ObjectRef → ℕ
  /-- The `ObjectId` the entry was inserted for, while the entry is in use. -/
  namedId : EntryIx → U64
  /-- The object and the access of every handle value that was returned by `ObInsertHandle` and
  not closed since. -/
  issued : U32 → Option (ObjectRef × U32)

/-- The number of entries that name `o`. -/
def entryCount (entries : EntryIx → Option ObHandleTableEntry) (o : ObjectRef) : ℕ :=
  countCells (fun e => e.any (·.object == o)) entries

/-- The number of in-use entries of the kernel handle table that name `o`. -/
def ObState.handleCount (ob : ObState σ) (o : ObjectRef) : ℕ :=
  entryCount ob.kernelHandleTable.entries o

namespace ObSystem

/-- The handle entries that name `o` and the references held to it. -/
def users (s : ObSystem σ) (o : ObjectRef) : ℕ := s.ob.handleCount o + s.held o

/-- What a caller may do: insert a live object, return a reference it holds. -/
def Allowed (s : ObSystem σ) : ObCall → Prop
  | .insertHandle o _ => s.ob.objectInUse o = true
  | .dereference o => 0 < s.held o
  | _ => True

/-- Perform a call and record its outcome in the ghost components. -/
def perform (s : ObSystem σ) : ObCall → ObSystem σ
  | .createObject type name mask flags =>
    match obCreateObject s.ob (some type) (some name) mask flags with
    | (ob, .ok o) => { s with ob := ob, held := Function.update s.held o (s.held o + 1) }
    | (ob, .error _) => { s with ob := ob }
  | .insertHandle o granted =>
    match obInsertHandle s.ob o granted with
    | (ob, .ok v) =>
      { s with
        ob := ob
        -- the entry that was filled is among those that were free
        namedId := fun i =>
          if s.ob.kernelHandleTable.entries i = none then (s.ob.objectPool o).objectId
          else s.namedId i
        issued := Function.update s.issued v (some (o, granted)) }
    | (ob, .error _) => { s with ob := ob }
  | .referenceByHandle v desired expected =>
    match obReferenceObjectByHandle s.ob v desired expected with
    | (ob, .ok o) => { s with ob := ob, held := Function.update s.held o (s.held o + 1) }
    | (ob, .error _) => { s with ob := ob }
  | .dereference o =>
    match obDereferenceObject s.ob s.rest o with
    | (ob, rest, _) =>
      { s with ob := ob, rest := rest, held := Function.update s.held o (s.held o - 1) }
  | .closeHandle v =>
    match obCloseHandle s.ob s.rest v with
    | (ob, rest, .ok _) =>
      { s with ob := ob, rest := rest, issued := Function.update s.issued v none }
    | (ob, rest, .error _) => { s with ob := ob, rest := rest }

@[simp]
theorem perform_closeHandle_ob (s : ObSystem σ) (v : U32) :
    (s.perform (.closeHandle v)).ob = (obCloseHandle s.ob s.rest v).1 := by
  rcases h : obCloseHandle s.ob s.rest v with ⟨ob, rest, _ | _⟩ <;> simp only [perform, h]

@[simp]
theorem perform_closeHandle_rest (s : ObSystem σ) (v : U32) :
    (s.perform (.closeHandle v)).rest = (obCloseHandle s.ob s.rest v).2.1 := by
  rcases h : obCloseHandle s.ob s.rest v with ⟨ob, rest, _ | _⟩ <;> simp only [perform, h]

@[simp]
theorem perform_closeHandle_held (s : ObSystem σ) (v : U32) :
    (s.perform (.closeHandle v)).held = s.held := by
  rcases h : obCloseHandle s.ob s.rest v with ⟨ob, rest, _ | _⟩ <;> simp only [perform, h]

@[simp]
theorem perform_closeHandle_namedId (s : ObSystem σ) (v : U32) :
    (s.perform (.closeHandle v)).namedId = s.namedId := by
  rcases h : obCloseHandle s.ob s.rest v with ⟨ob, rest, _ | _⟩ <;> simp only [perform, h]

/-- One call of the system. -/
def Step (s : ObSystem σ) (c : ObCall) (s' : ObSystem σ) : Prop :=
  s.Allowed c ∧ s' = s.perform c

/-- The system after `ObInitialize`, with any types registered. -/
def boot (typePool : TypeRef → ObObjectType σ) (rest : σ) : ObSystem σ where
  ob := { (obInitialize (σ := σ) .zero).1 with typePool := typePool }
  rest := rest
  held _ := 0
  namedId _ := 0
  issued _ := none

/-- No object has `2 ^ 32` users. -/
def Bounded (s : ObSystem σ) : Prop := ∀ o, s.users o < 2 ^ 32

end ObSystem

/-- Headers, slots and entries agree with the users of every object. -/
structure ObLifetime (s : ObSystem σ) : Prop where
  ready : s.ob.ready = true
  /-- The reference count is the number of users. -/
  refCount_eq : ∀ o, (s.ob.objectPool o).refCount.toNat = s.users o
  /-- The slot is in use exactly while there is one. -/
  inUse_iff : ∀ o, s.ob.objectInUse o = true ↔ 0 < s.users o
  /-- An entry in use names a live object, the one it was inserted for. -/
  entry_named : ∀ i e, s.ob.kernelHandleTable.entries i = some e →
    s.ob.objectInUse e.object = true ∧ (s.ob.objectPool e.object).objectId = s.namedId i

/-- The delete routines a call runs: that of the object whose last user it drops, once, and no
other. The type is the one the object had before the call. -/
structure ObDeletes (s s' : ObSystem σ) : Prop where
  last_user : ∀ o, 0 < s.users o → s'.users o = 0 →
    s'.rest = s.ob.runDeleteRoutine o s.rest
  no_last_user : (∀ o, 0 < s.users o → 0 < s'.users o) → s'.rest = s.rest

/-! ## Counting entries -/

theorem entryCount_fill {entries : EntryIx → Option ObHandleTableEntry} {i : EntryIx}
    (hi : entries i = none) (e : ObHandleTableEntry) (o : ObjectRef) :
    entryCount (Function.update entries i (some e)) o =
      entryCount entries o + if e.object = o then 1 else 0 := by
  have h := countCells_update (fun e => e.any (·.object == o)) entries i (some e)
  simpa [hi, entryCount] using h

theorem entryCount_clear {entries : EntryIx → Option ObHandleTableEntry} {i : EntryIx}
    {e : ObHandleTableEntry} (hi : entries i = some e) (o : ObjectRef) :
    entryCount (Function.update entries i none) o + (if e.object = o then 1 else 0) =
      entryCount entries o := by
  have h := countCells_update (fun e => e.any (·.object == o)) entries i none
  simpa [hi, entryCount] using h

theorem entryCount_pos {entries : EntryIx → Option ObHandleTableEntry} {i : EntryIx}
    {e : ObHandleTableEntry} (hi : entries i = some e) : 0 < entryCount entries e.object :=
  countCells_pos_iff.2 ⟨i, by simp [hi]⟩

theorem ObSystem.users_pos_of_entry {s : ObSystem σ} {i : EntryIx} {e : ObHandleTableEntry}
    (hi : s.ob.kernelHandleTable.entries i = some e) : 0 < s.users e.object :=
  Nat.add_pos_left (entryCount_pos hi) _

theorem ObSystem.users_pos_of_held {s : ObSystem σ} {o : ObjectRef} (h : 0 < s.held o) :
    0 < s.users o :=
  Nat.add_pos_right _ h

/-! ## Counting in 32 bits -/

theorem toNat_refCount_succ {c : U32} (h : c.toNat + 1 < 2 ^ 32) :
    (c + 1).toNat = c.toNat + 1 := by
  bv_omega

theorem toNat_refCount_pred {c : U32} (h : c ≠ 0) : (c - 1).toNat + 1 = c.toNat := by
  have hpos : c.toNat ≠ 0 := fun h0 => h (BitVec.eq_of_toNat_eq (by simpa using h0))
  bv_omega

/-! ## One call -/

namespace ObLifetime

variable {s s' : ObSystem σ} {o : ObjectRef}

theorem refCount_ne_zero (h : ObLifetime s) (ho : 0 < s.users o) :
    (s.ob.objectPool o).refCount ≠ 0 := by
  intro hzero
  have hcount := h.refCount_eq o
  rw [hzero] at hcount
  simp at hcount
  omega

theorem users_eq_zero (h : ObLifetime s) (ho : s.ob.objectInUse o = false) : s.users o = 0 := by
  by_contra hne
  rw [(h.inUse_iff o).2 (by omega)] at ho
  cases ho

/-- A call that moves no user away and leaves the other managers alone deletes nothing. -/
theorem deletes_nothing (hrest : s'.rest = s.rest) (hle : ∀ o, s.users o ≤ s'.users o) :
    ObDeletes s s' where
  last_user o hpos hzero := absurd (hle o) (by omega)
  no_last_user _ := hrest

/-- A live object gains a user: its count goes up by one, and an entry that is new names it. -/
theorem gain (h : ObLifetime s) (ho : s.ob.objectInUse o = true)
    (hbound : s'.users o < 2 ^ 32) (hready : s'.ob.ready = s.ob.ready)
    (huse : s'.ob.objectInUse = s.ob.objectInUse)
    (hpool : s'.ob.objectPool = Function.update s.ob.objectPool o
      { s.ob.objectPool o with refCount := (s.ob.objectPool o).refCount + 1 })
    (husers : ∀ o', s'.users o' = s.users o' + if o = o' then 1 else 0)
    (hentries : ∀ i e, s'.ob.kernelHandleTable.entries i = some e →
      (s.ob.kernelHandleTable.entries i = some e ∧ s'.namedId i = s.namedId i) ∨
        (e.object = o ∧ s'.namedId i = (s.ob.objectPool o).objectId)) :
    ObLifetime s' where
  ready := hready.trans h.ready
  refCount_eq o' := by
    have hcount := h.refCount_eq o'
    have hu := husers o'
    rw [hpool]
    by_cases heq : o = o'
    · subst heq
      rw [if_pos rfl] at hu
      rw [Function.update_self, toNat_refCount_succ (by omega), hcount, hu]
    · rw [Function.update_of_ne (Ne.symm heq), hcount, hu, if_neg heq, Nat.add_zero]
  inUse_iff o' := by
    rw [huse, h.inUse_iff, husers]
    by_cases heq : o = o'
    · subst heq
      have := (h.inUse_iff o).1 ho
      simp only [if_true]
      omega
    · rw [if_neg heq, Nat.add_zero]
  entry_named i e hi := by
    have hid : ∀ o', (s'.ob.objectPool o').objectId = (s.ob.objectPool o').objectId := by
      intro o'
      rw [hpool]
      by_cases heq : o' = o
      · subst heq
        rw [Function.update_self]
      · rw [Function.update_of_ne heq]
    rw [huse, hid]
    rcases hentries i e hi with ⟨hold, hname⟩ | ⟨rfl, hname⟩
    · rw [hname]
      exact h.entry_named i e hold
    · exact ⟨ho, hname.symm⟩

/-- An object loses a user through `ObDereferenceObject`, and no entry is new. -/
theorem lose (h : ObLifetime s) (hready : s'.ob.ready = s.ob.ready)
    (huse : s'.ob.objectInUse = (obDereferenceObject s.ob s.rest o).1.objectInUse)
    (hpool : s'.ob.objectPool = (obDereferenceObject s.ob s.rest o).1.objectPool)
    (hrest : s'.rest = (obDereferenceObject s.ob s.rest o).2.1)
    (husers : ∀ o', s'.users o' + (if o = o' then 1 else 0) = s.users o')
    (hentries : ∀ i e, s'.ob.kernelHandleTable.entries i = some e →
      s.ob.kernelHandleTable.entries i = some e ∧ s'.namedId i = s.namedId i) :
    ObLifetime s' ∧ ObDeletes s s' := by
  have hpos : 0 < s.users o := by
    have := husers o
    rw [if_pos rfl] at this
    omega
  have husers_ne : ∀ o', o ≠ o' → s'.users o' = s.users o' := fun o' heq => by
    have := husers o'
    rwa [if_neg heq, Nat.add_zero] at this
  have husers_self : s'.users o + 1 = s.users o := by simpa using husers o
  have hcount := h.refCount_eq o
  rcases obDereferenceObject_cases s.ob s.rest o with
    ⟨hguard, -⟩ | ⟨-, hne, hone, heq⟩ | ⟨-, hone, heq⟩
  · -- the call cannot fail: the manager is ready and the object has a user
    rcases hguard with hr | hzero
    · rw [h.ready] at hr
      cases hr
    · exact absurd hzero (h.refCount_ne_zero hpos)
  · -- one of several users leaves
    simp only [heq] at huse hpool hrest
    have hleft : 0 < s'.users o := by
      have : (s.ob.objectPool o).refCount.toNat ≠ 1 :=
        fun h1 => hone (BitVec.eq_of_toNat_eq (by simpa using h1))
      omega
    refine ⟨⟨hready.trans h.ready, ?_, ?_, ?_⟩, ⟨?_, fun _ => hrest⟩⟩
    · intro o'
      by_cases ho : o' = o
      · subst ho
        have hpred := toNat_refCount_pred hne
        rw [hpool, Function.update_self]
        have hleave : ((s.ob.objectPool o').refCount - 1).toNat = s'.users o' := by omega
        exact hleave
      · rw [hpool, Function.update_of_ne ho, h.refCount_eq, husers_ne o' (Ne.symm ho)]
    · intro o'
      rw [huse, h.inUse_iff]
      by_cases ho : o' = o
      · subst ho
        omega
      · rw [husers_ne o' (Ne.symm ho)]
    · intro i e hi
      obtain ⟨hold, hname⟩ := hentries i e hi
      obtain ⟨hlive, hid⟩ := h.entry_named i e hold
      rw [huse, hname, hpool]
      refine ⟨hlive, ?_⟩
      by_cases ho : e.object = o
      · rw [ho, Function.update_self, ← hid, ho]
      · rw [Function.update_of_ne ho, hid]
    · intro o' hpos' hzero'
      by_cases ho : o' = o
      · subst ho
        omega
      · rw [husers_ne o' (Ne.symm ho)] at hzero'
        omega
  · -- the last user leaves: no entry of the new state names the object
    simp only [heq] at huse hpool hrest
    have hlast : s'.users o = 0 := by
      rw [hone] at hcount
      simp at hcount
      omega
    have hentry_ne : ∀ i e, s'.ob.kernelHandleTable.entries i = some e → e.object ≠ o := by
      rintro i e hi rfl
      have := ObSystem.users_pos_of_entry hi
      omega
    refine ⟨⟨hready.trans h.ready, ?_, ?_, ?_⟩, ⟨?_, ?_⟩⟩
    · intro o'
      by_cases ho : o' = o
      · subst ho
        rw [hpool, Function.update_self, hlast]
        rfl
      · rw [hpool, Function.update_of_ne ho, h.refCount_eq, husers_ne o' (Ne.symm ho)]
    · intro o'
      rw [huse]
      by_cases ho : o' = o
      · subst ho
        rw [Function.update_self, hlast]
        simp
      · rw [Function.update_of_ne ho, h.inUse_iff, husers_ne o' (Ne.symm ho)]
    · intro i e hi
      obtain ⟨hold, hname⟩ := hentries i e hi
      rw [huse, hname, hpool, Function.update_of_ne (hentry_ne i e hi),
        Function.update_of_ne (hentry_ne i e hi)]
      exact h.entry_named i e hold
    · intro o' hpos' hzero'
      by_cases ho : o' = o
      · subst ho
        exact hrest
      · rw [husers_ne o' (Ne.symm ho)] at hzero'
        omega
    · intro hall
      have := hall o hpos
      omega

/-- A free slot is filled with a header of count one, the caller's. -/
theorem create (h : ObLifetime s) (ho : s.ob.objectInUse o = false)
    (hready : s'.ob.ready = s.ob.ready)
    (huse : s'.ob.objectInUse = Function.update s.ob.objectInUse o true)
    {header : ObObjectHeader} (hone : header.refCount = 1)
    (hpool : s'.ob.objectPool = Function.update s.ob.objectPool o header)
    (husers : ∀ o', s'.users o' = s.users o' + if o = o' then 1 else 0)
    (hentries : s'.ob.kernelHandleTable.entries = s.ob.kernelHandleTable.entries)
    (hnamed : s'.namedId = s.namedId) : ObLifetime s' where
  ready := hready.trans h.ready
  refCount_eq o' := by
    rw [hpool, husers]
    by_cases heq : o = o'
    · subst heq
      rw [Function.update_self, hone, h.users_eq_zero ho, if_pos rfl]
      rfl
    · rw [Function.update_of_ne (Ne.symm heq), h.refCount_eq, if_neg heq, Nat.add_zero]
  inUse_iff o' := by
    rw [huse, husers]
    by_cases heq : o = o'
    · subst heq
      simp
    · rw [Function.update_of_ne (Ne.symm heq), h.inUse_iff, if_neg heq, Nat.add_zero]
  entry_named i e hi := by
    rw [hentries] at hi
    obtain ⟨hlive, hid⟩ := h.entry_named i e hi
    have hne : e.object ≠ o := by
      rintro rfl
      rw [hlive] at ho
      cases ho
    rw [huse, hpool, hnamed, Function.update_of_ne hne, Function.update_of_ne hne]
    exact ⟨hlive, hid⟩

/-- A call that changes neither the object manager nor the users keeps everything. -/
theorem unchanged (h : ObLifetime s) (hob : s'.ob = s.ob) (hheld : s'.held = s.held)
    (hnamed : s'.namedId = s.namedId) : ObLifetime s' := by
  have husers : s'.users = s.users := by
    funext o
    rw [ObSystem.users, ObSystem.users, hob, hheld]
  constructor
  · rw [hob]
    exact h.ready
  · rw [hob, husers]
    exact h.refCount_eq
  · rw [hob, husers]
    exact h.inUse_iff
  · rw [hob, hnamed]
    exact h.entry_named

theorem perform_createObject (h : ObLifetime s) (type : TypeRef) (name : CString)
    (mask flags : U32) :
    ObLifetime (s.perform (.createObject type name mask flags)) ∧
      ObDeletes s (s.perform (.createObject type name mask flags)) := by
  simp only [ObSystem.perform]
  rcases obCreateObject_cases s.ob (some type) (some name) mask flags with
    ⟨e, heq⟩ | ⟨o, t, nm, -, -, hfree, heq⟩
  · rw [heq]
    exact ⟨h.unchanged rfl rfl rfl, deletes_nothing rfl fun _ => le_rfl⟩
  · rw [heq]
    have husers : ∀ o', s.ob.handleCount o' +
        Function.update s.held o (s.held o + 1) o' = s.users o' + if o = o' then 1 else 0 := by
      intro o'
      by_cases ho : o' = o
      · subst ho
        rw [Function.update_self, if_pos rfl, ObSystem.users]
        omega
      · rw [Function.update_of_ne ho, if_neg (Ne.symm ho), ObSystem.users]
        omega
    exact ⟨h.create hfree rfl rfl rfl rfl husers rfl rfl,
      deletes_nothing rfl fun o' => (Nat.le_add_right _ _).trans_eq (husers o').symm⟩

theorem perform_insertHandle (h : ObLifetime s) (ho : s.ob.objectInUse o = true) (granted : U32)
    (hbound : (s.perform (.insertHandle o granted)).users o < 2 ^ 32) :
    ObLifetime (s.perform (.insertHandle o granted)) ∧
      ObDeletes s (s.perform (.insertHandle o granted)) := by
  revert hbound
  simp only [ObSystem.perform]
  rcases obInsertHandle_cases s.ob o granted with ⟨-, e, heq⟩ | ⟨i, hi, -, heq⟩
  · rw [heq]
    exact fun _ => ⟨h.unchanged rfl rfl rfl, deletes_nothing rfl fun _ => le_rfl⟩
  · rw [heq]
    intro hbound
    have husers : ∀ o', entryCount (Function.update s.ob.kernelHandleTable.entries i
        (some ⟨s.ob.kernelHandleTable.nextHandle, o, granted⟩)) o' + s.held o' =
          s.users o' + if o = o' then 1 else 0 := by
      intro o'
      simp only [entryCount_fill hi, ObSystem.users, ObState.handleCount]
      omega
    refine ⟨h.gain ho hbound rfl rfl rfl husers ?_,
      deletes_nothing rfl fun o' => (Nat.le_add_right _ _).trans_eq (husers o').symm⟩
    intro j e hj
    by_cases hji : j = i
    · subst hji
      simp only [Function.update_self, Option.some.injEq] at hj
      subst hj
      exact .inr ⟨rfl, if_pos hi⟩
    · simp only [Function.update_of_ne hji] at hj
      refine .inl ⟨hj, if_neg ?_⟩
      rw [hj]
      exact Option.some_ne_none e

theorem perform_referenceByHandle (h : ObLifetime s) (v desired : U32)
    (expected : Option TypeRef)
    (hbound : ∀ i e, obpFindHandleEntry s.ob.kernelHandleTable v = some (i, e) →
      (s.perform (.referenceByHandle v desired expected)).users e.object < 2 ^ 32) :
    ObLifetime (s.perform (.referenceByHandle v desired expected)) ∧
      ObDeletes s (s.perform (.referenceByHandle v desired expected)) := by
  revert hbound
  simp only [ObSystem.perform]
  rcases obReferenceObjectByHandle_cases s.ob v desired expected with
    ⟨e, heq⟩ | ⟨i, e, hfind, -, -, heq⟩
  · rw [heq]
    exact fun _ => ⟨h.unchanged rfl rfl rfl, deletes_nothing rfl fun _ => le_rfl⟩
  · rw [heq]
    intro hbound
    have hlive := (h.entry_named i e (obpFindHandleEntry_eq_some.1 hfind).1).1
    have husers : ∀ o', s.ob.handleCount o' +
        Function.update s.held e.object (s.held e.object + 1) o' =
          s.users o' + if e.object = o' then 1 else 0 := by
      intro o'
      by_cases ho : o' = e.object
      · subst ho
        rw [Function.update_self, if_pos rfl, ObSystem.users]
        omega
      · rw [Function.update_of_ne ho, if_neg (Ne.symm ho), ObSystem.users]
        omega
    exact ⟨h.gain hlive (hbound i e hfind) rfl rfl rfl husers fun _ _ hj => .inl ⟨hj, rfl⟩,
      deletes_nothing rfl fun o' => (Nat.le_add_right _ _).trans_eq (husers o').symm⟩

theorem perform_dereference (h : ObLifetime s) (ho : 0 < s.held o) :
    ObLifetime (s.perform (.dereference o)) ∧ ObDeletes s (s.perform (.dereference o)) := by
  have hentries : (obDereferenceObject s.ob s.rest o).1.kernelHandleTable =
      s.ob.kernelHandleTable := obDereferenceObject_table ..
  refine h.lose (o := o) (obDereferenceObject_ready ..) rfl rfl rfl ?_ ?_
  · intro o'
    have hcount : (s.perform (.dereference o)).ob.handleCount o' = s.ob.handleCount o' := by
      rw [ObState.handleCount, ObSystem.perform, hentries, ObState.handleCount]
    have hheld : (s.perform (.dereference o)).held =
        Function.update s.held o (s.held o - 1) := rfl
    rw [ObSystem.users, hcount, hheld, ObSystem.users]
    by_cases ho' : o' = o
    · subst ho'
      rw [Function.update_self, if_pos rfl]
      omega
    · rw [Function.update_of_ne ho', if_neg (Ne.symm ho')]
      omega
  · intro i e hi
    rw [ObSystem.perform, hentries] at hi
    exact ⟨hi, rfl⟩

theorem perform_closeHandle (h : ObLifetime s) (v : U32) :
    ObLifetime (s.perform (.closeHandle v)) ∧ ObDeletes s (s.perform (.closeHandle v)) := by
  rcases obCloseHandle_cases s.ob s.rest v with ⟨e, heq⟩ | ⟨i, e, hfind, heq⟩
  · have hperform : s.perform (.closeHandle v) = s := by
      rw [ObSystem.perform, heq]
    rw [hperform]
    exact ⟨h, deletes_nothing rfl fun _ => le_rfl⟩
  · obtain ⟨hi, -, -⟩ := obpFindHandleEntry_eq_some.1 hfind
    have hentries : (s.perform (.closeHandle v)).ob.kernelHandleTable.entries =
        Function.update s.ob.kernelHandleTable.entries i none := by
      rw [ObSystem.perform_closeHandle_ob, heq, ObState.setEntry, obDereferenceObject_table]
    refine h.lose (o := e.object) ?_ ?_ ?_ ?_ ?_ ?_
    · rw [ObSystem.perform_closeHandle_ob, heq]
      exact obDereferenceObject_ready ..
    · rw [ObSystem.perform_closeHandle_ob, heq]
      rfl
    · rw [ObSystem.perform_closeHandle_ob, heq]
      rfl
    · rw [ObSystem.perform_closeHandle_rest, heq]
    · intro o'
      rw [ObSystem.users, ObState.handleCount, hentries, ObSystem.perform_closeHandle_held,
        ObSystem.users, ObState.handleCount, ← entryCount_clear hi]
      omega
    · intro j e' hj
      rw [hentries] at hj
      rw [ObSystem.perform_closeHandle_namedId]
      by_cases hji : j = i
      · subst hji
        rw [Function.update_self] at hj
        cases hj
      · rw [Function.update_of_ne hji] at hj
        exact ⟨hj, rfl⟩

/-- Every call keeps the invariant and deletes what it should. -/
theorem step {c : ObCall} (h : ObLifetime s) (hstep : s.Step c s') (hbound : s'.Bounded) :
    ObLifetime s' ∧ ObDeletes s s' := by
  obtain ⟨hallowed, rfl⟩ := hstep
  cases c with
  | createObject type name mask flags => exact h.perform_createObject type name mask flags
  | insertHandle o granted => exact h.perform_insertHandle hallowed granted (hbound o)
  | referenceByHandle v desired expected =>
    exact h.perform_referenceByHandle v desired expected fun _ e _ => hbound e.object
  | dereference o => exact h.perform_dereference hallowed
  | closeHandle v => exact h.perform_closeHandle v

theorem boot_users (typePool : TypeRef → ObObjectType σ) (rest : σ) (o : ObjectRef) :
    (ObSystem.boot typePool rest).users o = 0 := by
  have hempty : ∀ i, (ObSystem.boot typePool rest).ob.kernelHandleTable.entries i = none :=
    fun _ => rfl
  have hcount : (ObSystem.boot typePool rest).ob.handleCount o = 0 := by
    by_contra hne
    rw [ObState.handleCount, entryCount] at hne
    obtain ⟨i, hi⟩ := countCells_pos_iff.1 (Nat.pos_of_ne_zero hne)
    rw [hempty i] at hi
    cases hi
  rw [ObSystem.users, hcount]
  rfl

theorem boot (typePool : TypeRef → ObObjectType σ) (rest : σ) :
    ObLifetime (ObSystem.boot typePool rest) where
  ready := rfl
  refCount_eq o := by
    rw [boot_users]
    rfl
  inUse_iff o := by
    rw [boot_users, show (ObSystem.boot typePool rest).ob.objectInUse o = false from rfl]
    simp
  entry_named i e hi := by cases hi

end ObLifetime

/-! ## Runs -/

namespace ObSystem

theorem users_perform_le (s : ObSystem σ) (c : ObCall) (o : ObjectRef) :
    (s.perform c).users o ≤ s.users o + 1 := by
  have hupdate : ∀ (f : ObjectRef → ℕ) (a : ObjectRef) (n : ℕ), n ≤ f a + 1 →
      Function.update f a n o ≤ f o + 1 := by
    intro f a n hn
    by_cases ha : o = a
    · subst ha
      rwa [Function.update_self]
    · rw [Function.update_of_ne ha]
      exact Nat.le_succ _
  cases c with
  | createObject type name mask flags =>
    simp only [perform]
    rcases obCreateObject_cases s.ob (some type) (some name) mask flags with
      ⟨e, heq⟩ | ⟨o₁, t, nm, -, -, -, heq⟩ <;> rw [heq]
    · exact Nat.le_succ _
    · exact Nat.add_le_add_left (hupdate s.held o₁ _ le_rfl) _
  | insertHandle o₁ granted =>
    simp only [perform]
    rcases obInsertHandle_cases s.ob o₁ granted with ⟨-, e, heq⟩ | ⟨i, hi, -, heq⟩ <;> rw [heq]
    · exact Nat.le_succ _
    · simp only [users, ObState.handleCount, entryCount_fill hi]
      split <;> omega
  | referenceByHandle v desired expected =>
    simp only [perform]
    rcases obReferenceObjectByHandle_cases s.ob v desired expected with
      ⟨e, heq⟩ | ⟨i, e, -, -, -, heq⟩ <;> rw [heq]
    · exact Nat.le_succ _
    · exact Nat.add_le_add_left (hupdate s.held e.object _ le_rfl) _
  | dereference o₁ =>
    simp only [perform, users, ObState.handleCount, obDereferenceObject_table]
    have := hupdate s.held o₁ (s.held o₁ - 1) (by omega)
    omega
  | closeHandle v =>
    rw [users, perform_closeHandle_ob, perform_closeHandle_held, users]
    rcases obCloseHandle_cases s.ob s.rest v with ⟨e, heq⟩ | ⟨i, e, hfind, heq⟩ <;> rw [heq]
    · exact Nat.le_succ _
    · have hclear := entryCount_clear (obpFindHandleEntry_eq_some.1 hfind).1 o
      rw [ObState.handleCount, ObState.setEntry, obDereferenceObject_table, ObState.handleCount]
      dsimp only
      omega

/-- Runs of fewer than `2 ^ 32` calls stay within the bound. -/
theorem bounded_of_length_lt (typePool : TypeRef → ObObjectType σ) (rest : σ)
    {calls : List ObCall} (hlen : calls.length < 2 ^ 32) :
    Always Step (fun _ _ s' => s'.Bounded) (boot typePool rest) calls := by
  suffices hall : ∀ (s : ObSystem σ) (n : ℕ) (calls : List ObCall), (∀ o, s.users o ≤ n) →
      n + calls.length < 2 ^ 32 → Always Step (fun _ _ s' => s'.Bounded) s calls from
    hall _ 0 calls (fun o => (ObLifetime.boot_users typePool rest o).le) (by omega)
  intro s n calls
  induction calls generalizing s n with
  | nil => exact fun _ _ => trivial
  | cons c calls ih =>
    rintro hn hlen s' ⟨-, rfl⟩
    rw [List.length_cons] at hlen
    have hnext : ∀ o, (s.perform c).users o ≤ n + 1 := fun o =>
      (users_perform_le s c o).trans (Nat.succ_le_succ (hn o))
    exact ⟨fun o => (hnext o).trans_lt (by omega), ih _ (n + 1) hnext (by omega)⟩

end ObSystem

/-- In every run of callers that keep to the discipline of reference counting, with fewer than
`2 ^ 32` users of any object: reference counts, slots and entries agree with the users, and a
delete routine runs exactly when the last user of its object goes. -/
theorem object_lifetime (typePool : TypeRef → ObObjectType σ) (rest : σ) (calls : List ObCall)
    (hbound : Always ObSystem.Step (fun _ _ s' => s'.Bounded) (.boot typePool rest) calls) :
    Always ObSystem.Step (fun s _ s' => ObLifetime s' ∧ ObDeletes s s') (.boot typePool rest)
      calls :=
  hbound.imp (I := ObLifetime) (fun _ _ _ h hb hstep => (h.step hstep hb).1)
    (fun _ _ _ h hstep hb => h.step hstep hb) (.boot typePool rest)

/-- A type of objects that log their deletion. -/
def loggingType : ObObjectType (List ObjectRef) := ⟨1, [], some fun o log => o :: log⟩

theorem object_lifetime_logging :
    Always ObSystem.Step (fun s _ s' => ObLifetime s' ∧ ObDeletes s s')
      (.boot (fun _ => loggingType) [])
      [.createObject 0 [] 3 0, .insertHandle 0 1, .dereference 0, .referenceByHandle 4 1 none,
        .closeHandle 4, .dereference 0] :=
  object_lifetime _ _ _ (ObSystem.bounded_of_length_lt _ _ (by decide))

end NtxKernel.Ob
