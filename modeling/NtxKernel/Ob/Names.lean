import NtxKernel.Ob.Lifetime

/-!
# Handle values as names

`ObInsertHandle` takes the value of a new entry from the counter `NextHandle`, which advances by
four in 32 bits and is compared neither with the values in use nor with the reserved value zero.

* `HandleNames` is what callers rely on: the values in use are distinct names other than zero,
  and an issued value names the object it was inserted for until it is closed.
* `FreshValue` is the condition on a call under which the counter does not break this.
* `handle_names_iff`: along every run, the names are good after every call exactly when every
  call meets the condition.
* `handle_value_wraps`: a run of insertions and closings in which the value zero is issued.
-/

namespace NtxKernel.Ob

open Foundations

variable {σ : Type}

/-- Handle values in use are unique names, and every issued value acts as the name of its
object. -/
structure HandleNames (s : ObSystem σ) : Prop where
  distinct : ∀ i j e e', s.ob.kernelHandleTable.entries i = some e →
    s.ob.kernelHandleTable.entries j = some e' → e.handleValue = e'.handleValue → i = j
  ne_zero : ∀ i e, s.ob.kernelHandleTable.entries i = some e → e.handleValue ≠ 0
  /-- A reference within the granted access, of a matching type or none, gives the object. -/
  reference_ok : ∀ v o granted, s.issued v = some (o, granted) → ∀ desired expected,
    granted &&& desired = desired → (expected = none ∨ (s.ob.objectPool o).type = expected) →
      (obReferenceObjectByHandle s.ob v desired expected).2 = .ok o
  /-- A reference outside the granted access is refused. -/
  reference_denied : ∀ v o granted, s.issued v = some (o, granted) → ∀ desired expected,
    granted &&& desired ≠ desired →
      obReferenceObjectByHandle s.ob v desired expected = (s.ob, .error .accessDenied)
  /-- Closing succeeds, drops one reference of the object and no other, and clears the entry. -/
  close_drops : ∀ v o granted, s.issued v = some (o, granted) →
    (obCloseHandle s.ob s.rest v).2.2 = .ok () ∧
      ((obCloseHandle s.ob s.rest v).1.objectPool o).refCount.toNat + 1 =
        (s.ob.objectPool o).refCount.toNat ∧
      (∀ o' ≠ o, (obCloseHandle s.ob s.rest v).1.objectPool o' = s.ob.objectPool o') ∧
      ∃ i, s.ob.kernelHandleTable.entries i = some ⟨v, o, granted⟩ ∧
        (obCloseHandle s.ob s.rest v).1.kernelHandleTable.entries =
          Function.update s.ob.kernelHandleTable.entries i none

/-- The condition on a call: an insertion that goes through takes a value that is neither zero
nor in use, and a reference that is counted does not overflow the 32-bit count. -/
def FreshValue (s : ObSystem σ) : ObCall → Prop
  | .insertHandle o granted =>
    granted &&& (s.ob.objectPool o).defaultAccessMask = granted →
      (∃ i, s.ob.kernelHandleTable.entries i = none) →
        s.ob.kernelHandleTable.nextHandle ≠ 0 ∧
          (∀ i e, s.ob.kernelHandleTable.entries i = some e →
            e.handleValue ≠ s.ob.kernelHandleTable.nextHandle) ∧
          (s.ob.objectPool o).refCount.toNat + 1 < 2 ^ 32
  | .referenceByHandle v desired expected =>
    ∀ i e, s.ob.kernelHandleTable.entries i = some e → e.handleValue = v →
      e.grantedAccess &&& desired = desired →
        (expected = none ∨ (s.ob.objectPool e.object).type = expected) →
          (s.ob.objectPool e.object).refCount.toNat + 1 < 2 ^ 32
  | _ => True

/-- The handle table holds exactly the issued values, each once. -/
structure NameTable (s : ObSystem σ) : Prop where
  distinct : ∀ i j e e', s.ob.kernelHandleTable.entries i = some e →
    s.ob.kernelHandleTable.entries j = some e' → e.handleValue = e'.handleValue → i = j
  ne_zero : ∀ i e, s.ob.kernelHandleTable.entries i = some e → e.handleValue ≠ 0
  issued_iff : ∀ v o granted, s.issued v = some (o, granted) ↔
    ∃ i, s.ob.kernelHandleTable.entries i = some ⟨v, o, granted⟩

namespace NameTable

variable {s : ObSystem σ}

/-- A value in use is found at its entry. -/
theorem find_eq (h : NameTable s) {i : EntryIx} {e : ObHandleTableEntry}
    (hi : s.ob.kernelHandleTable.entries i = some e) :
    obpFindHandleEntry s.ob.kernelHandleTable e.handleValue = some (i, e) := by
  refine obpFindHandleEntry_eq_some.2 ⟨hi, rfl, fun j hj e' he' heq => ?_⟩
  exact absurd (h.distinct j i e' e he' hi heq) (Fin.ne_of_lt hj)

/-- Objects with the lifetime invariant and a table of issued values have good names. -/
theorem handleNames (h : NameTable s) (hlife : ObLifetime s) : HandleNames s where
  distinct := h.distinct
  ne_zero := h.ne_zero
  reference_ok v o granted hv desired expected hacc htype := by
    obtain ⟨i, hi⟩ := (h.issued_iff v o granted).1 hv
    rw [obReferenceObjectByHandle_of_find hlife.ready (h.ne_zero i _ hi) (h.find_eq hi),
      if_neg (not_not.2 hacc), if_neg fun hbad => htype.elim hbad.1 hbad.2]
  reference_denied v o granted hv desired expected hacc := by
    obtain ⟨i, hi⟩ := (h.issued_iff v o granted).1 hv
    rw [obReferenceObjectByHandle_of_find hlife.ready (h.ne_zero i _ hi) (h.find_eq hi),
      if_pos hacc]
  close_drops v o granted hv := by
    obtain ⟨i, hi⟩ := (h.issued_iff v o granted).1 hv
    have hne : (s.ob.objectPool o).refCount ≠ 0 :=
      hlife.refCount_ne_zero (ObSystem.users_pos_of_entry hi)
    obtain ⟨hok, hcount, hothers⟩ := obDereferenceObject_drops hlife.ready hne s.rest
    rw [obCloseHandle_of_find hlife.ready (h.ne_zero i _ hi) (h.find_eq hi)]
    refine ⟨hok, ?_, hothers, i, hi, ?_⟩
    · show ((obDereferenceObject s.ob s.rest o).1.objectPool o).refCount.toNat + 1 = _
      rw [hcount]
      exact toNat_refCount_pred hne
    · rw [ObState.setEntry, obDereferenceObject_table]

/-- The table and the open values decide the invariant. -/
theorem congr {s' : ObSystem σ} (h : NameTable s)
    (htable : s'.ob.kernelHandleTable.entries = s.ob.kernelHandleTable.entries)
    (hissued : s'.issued = s.issued) : NameTable s' := by
  constructor
  · rw [htable]
    exact h.distinct
  · rw [htable]
    exact h.ne_zero
  · rw [htable, hissued]
    exact h.issued_iff

/-- A fresh value is filled in at a free entry. -/
theorem fill {s' : ObSystem σ} (h : NameTable s) {i : EntryIx} {v : U32} {o : ObjectRef}
    {granted : U32} (hi : s.ob.kernelHandleTable.entries i = none) (hzero : v ≠ 0)
    (hfresh : ∀ j e, s.ob.kernelHandleTable.entries j = some e → e.handleValue ≠ v)
    (htable : s'.ob.kernelHandleTable.entries =
      Function.update s.ob.kernelHandleTable.entries i (some ⟨v, o, granted⟩))
    (hissued : s'.issued = Function.update s.issued v (some (o, granted))) : NameTable s' := by
  have hold : ∀ j e, s'.ob.kernelHandleTable.entries j = some e →
      (j = i ∧ e = ⟨v, o, granted⟩) ∨ (j ≠ i ∧ s.ob.kernelHandleTable.entries j = some e) := by
    intro j e hj
    rw [htable] at hj
    by_cases hji : j = i
    · rw [hji, Function.update_self] at hj
      exact .inl ⟨hji, (Option.some.inj hj).symm⟩
    · rw [Function.update_of_ne hji] at hj
      exact .inr ⟨hji, hj⟩
  refine ⟨?_, ?_, ?_⟩
  · intro j k e e' hj hk heq
    rcases hold j e hj with ⟨rfl, rfl⟩ | ⟨-, hj⟩ <;> rcases hold k e' hk with ⟨rfl, rfl⟩ | ⟨-, hk⟩
    · rfl
    · exact absurd heq.symm (hfresh k e' hk)
    · exact absurd heq (hfresh j e hj)
    · exact h.distinct j k e e' hj hk heq
  · intro j e hj
    rcases hold j e hj with ⟨rfl, rfl⟩ | ⟨-, hj⟩
    · exact hzero
    · exact h.ne_zero j e hj
  · intro v' o' granted'
    rw [hissued, htable]
    by_cases hv : v' = v
    · subst hv
      rw [Function.update_self]
      constructor
      · rintro ⟨⟩
        exact ⟨i, Function.update_self ..⟩
      · rintro ⟨j, hj⟩
        rw [← htable] at hj
        rcases hold j _ hj with ⟨-, heq⟩ | ⟨-, hj⟩
        · cases heq
          rfl
        · exact absurd rfl (hfresh j _ hj)
    · rw [Function.update_of_ne hv, h.issued_iff]
      constructor
      · rintro ⟨j, hj⟩
        have hji : j ≠ i := by
          rintro rfl
          rw [hi] at hj
          cases hj
        exact ⟨j, by rw [Function.update_of_ne hji, hj]⟩
      · rintro ⟨j, hj⟩
        rw [← htable] at hj
        rcases hold j _ hj with ⟨-, heq⟩ | ⟨-, hj⟩
        · cases heq
          exact absurd rfl hv
        · exact ⟨j, hj⟩

/-- An entry is cleared and its value forgotten. -/
theorem clear {s' : ObSystem σ} (h : NameTable s) {i : EntryIx} {e : ObHandleTableEntry}
    (hi : s.ob.kernelHandleTable.entries i = some e)
    (htable : s'.ob.kernelHandleTable.entries =
      Function.update s.ob.kernelHandleTable.entries i none)
    (hissued : s'.issued = Function.update s.issued e.handleValue none) : NameTable s' := by
  have hold : ∀ j e', s'.ob.kernelHandleTable.entries j = some e' ↔
      j ≠ i ∧ s.ob.kernelHandleTable.entries j = some e' := by
    intro j e'
    rw [htable]
    by_cases hji : j = i
    · simp [hji]
    · simp [hji]
  refine ⟨?_, ?_, ?_⟩
  · intro j k e₁ e₂ hj hk heq
    exact h.distinct j k e₁ e₂ ((hold j e₁).1 hj).2 ((hold k e₂).1 hk).2 heq
  · intro j e' hj
    exact h.ne_zero j e' ((hold j e').1 hj).2
  · intro v o granted
    rw [hissued]
    simp only [hold]
    by_cases hv : v = e.handleValue
    · subst hv
      rw [Function.update_self]
      constructor
      · intro hnone
        cases hnone
      · rintro ⟨j, hji, hj⟩
        exact absurd (h.distinct j i _ e hj hi rfl) hji
    · rw [Function.update_of_ne hv, h.issued_iff]
      constructor
      · rintro ⟨j, hj⟩
        refine ⟨j, ?_, hj⟩
        rintro rfl
        rw [hi] at hj
        cases hj
        exact hv rfl
      · rintro ⟨j, -, hj⟩
        exact ⟨j, hj⟩

theorem boot (typePool : TypeRef → ObObjectType σ) (rest : σ) :
    NameTable (ObSystem.boot typePool rest) where
  distinct i j e e' hi := by cases hi
  ne_zero i e hi := by cases hi
  issued_iff v o granted := by
    constructor
    · intro h
      cases h
    · rintro ⟨i, hi⟩
      cases hi

end NameTable

/-! ## One call -/

/-- What a run keeps: the lifetime invariant and a table of the issued values. -/
structure Named (s : ObSystem σ) : Prop where
  lifetime : ObLifetime s
  table : NameTable s

namespace Named

variable {s s' : ObSystem σ}

theorem users_lt (h : Named s) (o : ObjectRef) : s.users o < 2 ^ 32 := by
  rw [← h.lifetime.refCount_eq]
  exact BitVec.isLt _

theorem toNat_lt_of_succ_pos {c : U32} (h : 0 < (c + 1).toNat) : c.toNat + 1 < 2 ^ 32 := by
  bv_omega

/-- An insertion keeps the names good exactly when its value is fresh. -/
theorem perform_insertHandle (h : Named s) {o : ObjectRef} (ho : s.ob.objectInUse o = true)
    (granted : U32) :
    (FreshValue s (.insertHandle o granted) → Named (s.perform (.insertHandle o granted))) ∧
      (HandleNames (s.perform (.insertHandle o granted)) →
        FreshValue s (.insertHandle o granted)) := by
  rcases obInsertHandle_cases s.ob o granted with ⟨hno, e, heq⟩ | ⟨i, hi, hmask, heq⟩
  · -- the insertion is refused
    have hperform : s.perform (.insertHandle o granted) = s := by
      rw [ObSystem.perform, heq]
    rw [hperform]
    refine ⟨fun _ => h, fun _ hmask hfree => ?_⟩
    obtain ⟨i, hi⟩ := hfree
    exact absurd hi (hno h.lifetime.ready hmask i)
  · have htable : (s.perform (.insertHandle o granted)).ob.kernelHandleTable.entries =
        Function.update s.ob.kernelHandleTable.entries i
          (some ⟨s.ob.kernelHandleTable.nextHandle, o, granted⟩) := by
      rw [ObSystem.perform, heq]
    have hissued : (s.perform (.insertHandle o granted)).issued =
        Function.update s.issued s.ob.kernelHandleTable.nextHandle (some (o, granted)) := by
      rw [ObSystem.perform, heq]
    have hcount : ((s.perform (.insertHandle o granted)).ob.objectPool o).refCount =
        (s.ob.objectPool o).refCount + 1 := by
      rw [ObSystem.perform, heq]
      simp only [Function.update_self]
    have hnew := congrFun htable i
    rw [Function.update_self] at hnew
    constructor
    · intro hfresh
      obtain ⟨hzero, hunused, hwrap⟩ := hfresh hmask ⟨i, hi⟩
      rw [h.lifetime.refCount_eq] at hwrap
      have hbound := (ObSystem.users_perform_le s (.insertHandle o granted) o).trans_lt hwrap
      exact ⟨(h.lifetime.perform_insertHandle ho granted hbound).1,
        h.table.fill hi hzero hunused htable hissued⟩
    · intro hnames hmask _
      refine ⟨hnames.ne_zero i _ hnew, fun j e hj hv => ?_, ?_⟩
      · have hji : j ≠ i := by
          rintro rfl
          rw [hi] at hj
          cases hj
        have hj' : (s.perform (.insertHandle o granted)).ob.kernelHandleTable.entries j =
            some e := by
          rw [htable, Function.update_of_ne hji, hj]
        exact hji (hnames.distinct j i e _ hj' hnew hv)
      · -- closing the new value must find a reference to drop
        have hv : (s.perform (.insertHandle o granted)).issued
            s.ob.kernelHandleTable.nextHandle = some (o, granted) := by
          rw [hissued, Function.update_self]
        obtain ⟨-, hdrop, -⟩ := hnames.close_drops _ o granted hv
        rw [hcount] at hdrop
        exact toNat_lt_of_succ_pos (by omega)

/-- A reference keeps the names good exactly when the count does not overflow. -/
theorem perform_referenceByHandle (h : Named s) (v desired : U32) (expected : Option TypeRef) :
    (FreshValue s (.referenceByHandle v desired expected) →
        Named (s.perform (.referenceByHandle v desired expected))) ∧
      (HandleNames (s.perform (.referenceByHandle v desired expected)) →
        FreshValue s (.referenceByHandle v desired expected)) := by
  have htable : (s.perform (.referenceByHandle v desired expected)).ob.kernelHandleTable =
      s.ob.kernelHandleTable := by
    rw [ObSystem.perform]
    rcases obReferenceObjectByHandle_cases s.ob v desired expected with
      ⟨e, heq⟩ | ⟨i, e, -, -, -, heq⟩ <;> rw [heq]
  have hissued : (s.perform (.referenceByHandle v desired expected)).issued = s.issued := by
    rw [ObSystem.perform]
    rcases obReferenceObjectByHandle_cases s.ob v desired expected with
      ⟨e, heq⟩ | ⟨i, e, -, -, -, heq⟩ <;> rw [heq]
  constructor
  · intro hfresh
    refine ⟨?_, h.table.congr (by rw [htable]) hissued⟩
    rcases obReferenceObjectByHandle_cases s.ob v desired expected with
      ⟨e, heq⟩ | ⟨i, e, hfind, hacc, htype, heq⟩
    · have hperform : s.perform (.referenceByHandle v desired expected) = s := by
        rw [ObSystem.perform, heq]
      rw [hperform]
      exact h.lifetime
    · obtain ⟨hi, hv, -⟩ := obpFindHandleEntry_eq_some.1 hfind
      have hwrap := hfresh i e hi hv hacc htype
      rw [h.lifetime.refCount_eq] at hwrap
      refine (h.lifetime.perform_referenceByHandle v desired expected fun i' e' hfind' => ?_).1
      cases hfind.symm.trans hfind'
      exact (ObSystem.users_perform_le s _ e.object).trans_lt hwrap
  · intro hnames i e hi hv hacc htype
    subst hv
    have hfind := h.table.find_eq hi
    have hcall := obReferenceObjectByHandle_of_find h.lifetime.ready (h.table.ne_zero i e hi)
      hfind desired expected
    rw [if_neg (not_not.2 hacc), if_neg fun hbad => htype.elim hbad.1 hbad.2] at hcall
    have hcount : ((s.perform (.referenceByHandle e.handleValue desired expected)).ob.objectPool
        e.object).refCount = (s.ob.objectPool e.object).refCount + 1 := by
      rw [ObSystem.perform, hcall]
      simp only [ObState.modifyObject, Function.update_self]
    -- closing the value must find a reference to drop
    have hv : (s.perform (.referenceByHandle e.handleValue desired expected)).issued
        e.handleValue = some (e.object, e.grantedAccess) := by
      rw [hissued]
      exact (h.table.issued_iff _ _ _).2 ⟨i, hi⟩
    obtain ⟨-, hdrop, -⟩ := hnames.close_drops _ _ _ hv
    rw [hcount] at hdrop
    exact toNat_lt_of_succ_pos (by omega)

/-- Every call keeps the names good exactly when it meets the condition. -/
theorem step {c : ObCall} (h : Named s) (hstep : s.Step c s') :
    (FreshValue s c → Named s') ∧ (HandleNames s' → FreshValue s c) := by
  obtain ⟨hallowed, rfl⟩ := hstep
  cases c with
  | createObject type name mask flags =>
    refine ⟨fun _ => ⟨(h.lifetime.perform_createObject type name mask flags).1, ?_⟩,
      fun _ => trivial⟩
    rw [ObSystem.perform]
    rcases obCreateObject_cases s.ob (some type) (some name) mask flags with
      ⟨e, heq⟩ | ⟨o, t, nm, -, -, -, heq⟩ <;> rw [heq] <;> exact h.table.congr rfl rfl
  | insertHandle o granted => exact h.perform_insertHandle hallowed granted
  | referenceByHandle v desired expected => exact h.perform_referenceByHandle v desired expected
  | dereference o =>
    refine ⟨fun _ => ⟨(h.lifetime.perform_dereference hallowed).1, h.table.congr ?_ rfl⟩,
      fun _ => trivial⟩
    rw [ObSystem.perform, obDereferenceObject_table]
  | closeHandle v =>
    refine ⟨fun _ => ⟨(h.lifetime.perform_closeHandle v).1, ?_⟩, fun _ => trivial⟩
    rcases obCloseHandle_cases s.ob s.rest v with ⟨e, heq⟩ | ⟨i, e, hfind, heq⟩
    · have hperform : s.perform (.closeHandle v) = s := by
        rw [ObSystem.perform, heq]
      rw [hperform]
      exact h.table
    · obtain ⟨hi, rfl, -⟩ := obpFindHandleEntry_eq_some.1 hfind
      have hne := h.lifetime.refCount_ne_zero (ObSystem.users_pos_of_entry hi)
      obtain ⟨hok, -, -⟩ := obDereferenceObject_drops h.lifetime.ready hne s.rest
      refine h.table.clear hi ?_ ?_
      · rw [ObSystem.perform_closeHandle_ob, heq, ObState.setEntry, obDereferenceObject_table]
      · rw [ObSystem.perform, heq]
        generalize obDereferenceObject s.ob s.rest e.object = r at hok ⊢
        obtain ⟨ob, rest, status⟩ := r
        subst hok
        rfl

end Named

/-! ## Runs -/

/-- Along every run, handle values are unique names after every call exactly when every
insertion takes a fresh value and no count overflows. -/
theorem handle_names_iff (typePool : TypeRef → ObObjectType σ) (rest : σ)
    (calls : List ObCall) :
    Always ObSystem.Step (fun s c _ => FreshValue s c) (.boot typePool rest) calls ↔
      Always ObSystem.Step (fun _ _ s' => HandleNames s') (.boot typePool rest) calls :=
  always_congr (I := Named) (fun _ _ _ h hfresh hstep => (h.step hstep).1 hfresh)
    (fun _ _ _ h hstep =>
      ⟨fun hfresh => ((h.step hstep).1 hfresh).table.handleNames ((h.step hstep).1 hfresh).lifetime,
        (h.step hstep).2⟩)
    ⟨.boot typePool rest, .boot typePool rest⟩ calls

/-! ## The counter wraps -/

/-- Insert a handle to the first object and close it, `n` times from the value `v` on. -/
def insertClosePairs : ℕ → U32 → List ObCall
  | 0, _ => []
  | n + 1, v => .insertHandle 0 1 :: .closeHandle v :: insertClosePairs n (v + 4)

/-- Create an object, insert and close a handle to it `n` times, and insert one more. -/
def wrapCalls (n : ℕ) : List ObCall :=
  .createObject 0 [] 1 0 :: (insertClosePairs n 4 ++ [.insertHandle 0 1])

/-- One object, held by its creator, no handles, and `v` the next value. -/
structure Idle (v : U32) (s : ObSystem σ) : Prop where
  ready : s.ob.ready = true
  entries : ∀ i, s.ob.kernelHandleTable.entries i = none
  nextHandle : s.ob.kernelHandleTable.nextHandle = v
  inUse : s.ob.objectInUse 0 = true
  refCount : (s.ob.objectPool 0).refCount = 1
  mask : (s.ob.objectPool 0).defaultAccessMask = 1

namespace Idle

variable {s : ObSystem σ} {v : U32}

theorem insert (h : Idle v s) : ∃ i,
    obInsertHandle s.ob 0 1 =
      ({ s.ob with
          kernelHandleTable :=
            ⟨Function.update s.ob.kernelHandleTable.entries i (some ⟨v, 0, 1⟩), v + 4⟩
          objectPool := Function.update s.ob.objectPool 0
            { s.ob.objectPool 0 with refCount := 2 } }, .ok v) := by
  rcases obInsertHandle_cases s.ob 0 1 with ⟨hno, -⟩ | ⟨i, -, -, heq⟩
  · refine absurd (h.entries 0) (hno h.ready ?_ 0)
    rw [h.mask]
    rfl
  · refine ⟨i, ?_⟩
    rw [heq, h.nextHandle, h.refCount]
    rfl

/-- An insertion and a closing lead back, four values on. -/
theorem pair (h : Idle v s) (hv : v ≠ 0) :
    ∃ s', Run ObSystem.Step s [.insertHandle 0 1, .closeHandle v] s' ∧ Idle (v + 4) s' := by
  obtain ⟨i, hins⟩ := h.insert
  have hob : (s.perform (.insertHandle 0 1)).ob =
      { s.ob with
        kernelHandleTable :=
          ⟨Function.update s.ob.kernelHandleTable.entries i (some ⟨v, 0, 1⟩), v + 4⟩
        objectPool := Function.update s.ob.objectPool 0
          { s.ob.objectPool 0 with refCount := 2 } } := by
    rw [ObSystem.perform, hins]
  have hfind : obpFindHandleEntry (s.perform (.insertHandle 0 1)).ob.kernelHandleTable v =
      some (i, ⟨v, 0, 1⟩) := by
    rw [hob]
    refine obpFindHandleEntry_eq_some.2 ⟨Function.update_self .., rfl, fun j hj e he => ?_⟩
    simp only [Function.update_of_ne (Fin.ne_of_lt hj), h.entries] at he
    cases he
  have hready : (s.perform (.insertHandle 0 1)).ob.ready = true := by
    rw [hob]
    exact h.ready
  have hcount : ((s.perform (.insertHandle 0 1)).ob.objectPool 0).refCount = 2 := by
    simp only [hob, Function.update_self]
  have hclose := obCloseHandle_of_find hready hv hfind (s.perform (.insertHandle 0 1)).rest
  refine ⟨_, .cons ⟨h.inUse, rfl⟩ (.single ⟨trivial, rfl⟩), ?_⟩
  -- two references are left by the insertion, so the closing deletes nothing
  rcases obDereferenceObject_cases (s.perform (.insertHandle 0 1)).ob
      (s.perform (.insertHandle 0 1)).rest 0 with
    ⟨hguard, -⟩ | ⟨-, -, -, hderef⟩ | ⟨-, hone, -⟩
  · rw [hready, hcount] at hguard
    exact absurd hguard (by decide)
  · rw [hderef] at hclose
    constructor <;> rw [ObSystem.perform_closeHandle_ob, hclose]
    · exact hready
    · intro j
      by_cases hj : j = i
      · simp only [ObState.setEntry, hj, Function.update_self]
      · simp only [ObState.setEntry, Function.update_of_ne hj, hob, h.entries]
    · simp only [ObState.setEntry, hob]
    · simp only [ObState.setEntry, hob, h.inUse]
    · simp only [ObState.setEntry, Function.update_self, hcount]
      rfl
    · simp only [ObState.setEntry, Function.update_self, hob, h.mask]
  · rw [hcount] at hone
    exact absurd hone (by decide)

theorem pairs (n k : ℕ) (hk : 0 < k) (hn : k + n ≤ 2 ^ 30)
    (h : Idle (BitVec.ofNat 32 (4 * k)) s) :
    ∃ s', Run ObSystem.Step s (insertClosePairs n (BitVec.ofNat 32 (4 * k))) s' ∧
      Idle (BitVec.ofNat 32 (4 * (k + n))) s' := by
  induction n generalizing s k with
  | zero => exact ⟨s, .nil s, h⟩
  | succ n ih =>
    have hv : BitVec.ofNat 32 (4 * k) ≠ 0 := by
      intro h0
      have := congrArg BitVec.toNat h0
      rw [BitVec.toNat_ofNat, Nat.mod_eq_of_lt (by omega)] at this
      simp at this
      omega
    have hnext : BitVec.ofNat 32 (4 * k) + 4 = BitVec.ofNat 32 (4 * (k + 1)) := by
      rw [Nat.mul_succ, BitVec.ofNat_add]
      rfl
    obtain ⟨s₁, hrun, h₁⟩ := h.pair hv
    rw [hnext] at h₁
    obtain ⟨s₂, hrest, h₂⟩ := ih (k + 1) (Nat.succ_pos k) (by omega) h₁
    rw [insertClosePairs, hnext]
    exact ⟨s₂, hrun.append hrest, by rwa [show k + 1 + n = k + (n + 1) by omega] at h₂⟩

theorem boot : Idle 4 ((ObSystem.boot (fun _ => ⟨1, [], none⟩) ()).perform
    (.createObject 0 [] 1 0)) := by
  have hslot : firstIndex (fun o => !(ObSystem.boot (σ := Unit)
      (fun _ => ⟨1, [], none⟩) ()).ob.objectInUse o) = some 0 :=
    firstIndex_eq_some.2 ⟨rfl, fun j hj => absurd hj (Fin.not_lt_zero j)⟩
  have hcreate : (obCreateObject (ObSystem.boot (σ := Unit) (fun _ => ⟨1, [], none⟩) ()).ob
      (some 0) (some []) 1 0).2 = .ok 0 := by
    rw [obCreateObject, if_neg (by decide), hslot]
  rcases obCreateObject_cases (ObSystem.boot (σ := Unit) (fun _ => ⟨1, [], none⟩) ()).ob
      (some 0) (some []) 1 0 with ⟨e, heq⟩ | ⟨o, t, nm, -, -, -, heq⟩
  · rw [heq] at hcreate
    cases hcreate
  · rw [heq] at hcreate
    cases hcreate
    constructor <;> simp only [ObSystem.perform, heq, Function.update_self]
    · rfl
    · exact fun _ => rfl
    · rfl

end Idle

/-- After `2 ^ 30 - 1` insertions and closings the counter is back at zero, and the next
insertion issues the reserved value. -/
theorem handle_value_wraps :
    ¬ Always ObSystem.Step (fun _ _ s' => HandleNames s')
      (.boot (fun _ => ⟨1, [], none⟩) ()) (wrapCalls (2 ^ 30 - 1)) := by
  intro hall
  obtain ⟨s, hrun, hidle⟩ := Idle.boot.pairs (2 ^ 30 - 1) 1 (by decide) (by decide)
  obtain ⟨i, hins⟩ := hidle.insert
  have hsplit : wrapCalls (2 ^ 30 - 1) =
      (.createObject 0 [] 1 0 :: insertClosePairs (2 ^ 30 - 1) 4) ++ [.insertHandle 0 1] := rfl
  rw [hsplit] at hall
  have hnames := hall.at_step (.cons ⟨trivial, rfl⟩ hrun) ⟨hidle.inUse, rfl⟩
  have hentry : (s.perform (.insertHandle 0 1)).ob.kernelHandleTable.entries i =
      some ⟨0, 0, 1⟩ := by
    rw [ObSystem.perform, hins]
    exact Function.update_self ..
  exact hnames.ne_zero i _ hentry rfl

end NtxKernel.Ob
