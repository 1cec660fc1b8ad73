import NtxKernel.Ke.Dispatch

/-!
# Results that can be told apart

A result of a system call is an error when it is negative as a signed number. A routine that fails
never reports the status of success (`Honest`), so every failure is negative; and of the values
that successful calls return only the base of a mapping can have the sign bit set, since
`MmMapAnonymous` takes the next base from wherever earlier sizes have moved it.

* `UnambiguousResult` is the property of what a handler leaves.
* `results_unambiguous_iff`: a call has the property exactly when it is no mapping that is granted
  at a base from `2 ^ 63` on.
* `mapped_base_negative`: two calls after which a mapping that is granted looks like an error.
-/

namespace NtxKernel.Ke

open Foundations Ob Ps Nk Lpc Mm Io Kpe

variable {ρ : Type}

/-- The register is negative exactly when the call failed, and then it holds the status. -/
def UnambiguousResult (left : SysReturn) : Prop :=
  (Failed (sysResult left.result) ↔ ∃ e, left.result = .error e) ∧
    ∀ e, left.result = .error e → sysResult left.result = statusResult e

/-- A `MapMemory` that is granted gets a base below `2 ^ 63`. -/
def MapsBelow [MmGlobals ρ] (s : System ρ) (c : SystemCall) : Prop :=
  c.number = 4 → ∀ a, currentAddressSpace s.kernel.ps = some a →
    (MmGlobals.mm s.kernel).ready = true →
      ((MmGlobals.mm s.kernel).addressSpacePool a).regionCount < mmMaxVaRegions →
        (mmpAlignUp ((MmGlobals.mm s.kernel).addressSpacePool a).nextUserBase 4096).toNat < 2 ^ 63

/-! ## Failures name a failure -/

/-- A result that is no error with the status of success. -/
structure Honest {α : Type} (r : Except KStatus α) : Prop where
  ne : r ≠ .error .success

@[simp]
theorem honest_ok {α : Type} (a : α) : Honest (.ok a : Except KStatus α) := ⟨nofun⟩

@[simp]
theorem honest_error {α : Type} {e : KStatus} :
    Honest (.error e : Except KStatus α) ↔ e ≠ .success := by
  constructor
  · rintro ⟨h⟩ rfl
    exact h rfl
  · intro h
    exact ⟨fun he => h (Except.error.inj he)⟩

namespace Honest

variable {α β γ : Type} {e : KStatus}

theorem error_ne {r : Except KStatus α} (h : Honest r) (hr : r = .error e) : e ≠ .success := by
  rintro rfl
  exact h.ne hr

/-- The error of an honest call, passed on. -/
theorem pass {r : α × Except KStatus β} {a : α} (h : Honest r.2) (hr : r = (a, .error e)) :
    Honest (.error e : Except KStatus γ) :=
  honest_error.2 (h.error_ne (by rw [hr]))

/-- The error of an honest call with two states, passed on. -/
theorem pass₂ {δ : Type} {r : α × δ × Except KStatus β} {a : α} {d : δ} (h : Honest r.2.2)
    (hr : r = (a, d, .error e)) : Honest (.error e : Except KStatus γ) :=
  honest_error.2 (h.error_ne (by rw [hr]))

end Honest

section Objects

variable {σ : Type} (ob : ObState σ) (k : σ)

theorem obCreateObject_honest (type : Option TypeRef) (name : Option CString) (mask flags : U32) :
    Honest (obCreateObject ob type name mask flags).2 := by
  unfold obCreateObject
  split
  · split
    · simp
    split <;> simp
  · simp

theorem obInsertHandle_honest (o : ObjectRef) (granted : U32) :
    Honest (obInsertHandle ob o granted).2 := by
  unfold obInsertHandle
  split
  · simp
  split
  · simp
  split <;> simp

theorem obReferenceObjectByHandle_honest (v desired : U32) (expected : Option TypeRef) :
    Honest (obReferenceObjectByHandle ob v desired expected).2 :=
  ⟨fun h => obReferenceObjectByHandle_ne_success (Prod.ext rfl h) rfl⟩

theorem obDereferenceObject_honest (o : ObjectRef) :
    Honest (obDereferenceObject ob k o).2.2 := by
  unfold obDereferenceObject
  split
  · simp
  · dsimp only
    split <;> simp

theorem obCloseHandle_honest (v : U32) : Honest (obCloseHandle ob k v).2.2 := by
  unfold obCloseHandle
  split
  · simp
  split
  · simp
  · exact obDereferenceObject_honest ob k _

end Objects

/-! ### The memory manager -/

section Memory

variable (m : MmState) (a : AddressSpaceRef)

theorem mmAllocPage_honest : Honest (mmAllocPage m).2 := by
  unfold mmAllocPage mmpAllocPageInternal
  split
  · simp
  split
  · simp
  split <;> simp

theorem mmMapWired_honest (slot : Fin mmMaxVaRegions) (base : U64) (protection flags : U32) (n : ℕ)
    (cursor : U64) : Honest (mmMapWired a slot base protection flags n cursor m).2 := by
  induction n generalizing cursor m with
  | zero => simp [mmMapWired]
  | succ n ih =>
    unfold mmMapWired
    split
    · simp
    · exact ih _ _

theorem mmMapAnonymous_honest (size : U64) (protection flags : U32) :
    Honest (mmMapAnonymous m a size protection flags).2 := by
  unfold mmMapAnonymous
  split
  · simp
  split
  · dsimp only
    split
    · split
      next heq => exact (mmMapWired_honest ..).pass heq
      · simp
    · simp
  · simp

theorem mmCreateAddressSpace_honest (id : U64) : Honest (mmCreateAddressSpace m id).2 := by
  unfold mmCreateAddressSpace
  split
  · simp
  split
  · simp
  split <;> simp

theorem mmActivateAddressSpace_honest : Honest (mmActivateAddressSpace m a).2 := by
  unfold mmActivateAddressSpace
  split
  · simp
  split <;> simp

theorem mmAllocSectionPages_honest (sec : SectionRef) (n i : ℕ) :
    Honest (mmAllocSectionPages sec n i m).2 := by
  induction n generalizing i m with
  | zero => simp [mmAllocSectionPages]
  | succ n ih =>
    unfold mmAllocSectionPages
    split
    next heq => exact (mmAllocPage_honest m).pass heq
    · dsimp only
      split
      · exact ih _ _
      · simp

variable {σ : Type} [MmGlobals σ] (ob : ObState σ) (k : σ)

theorem mmCreateSectionHandle_honest (size : U64) (access : U32) :
    Honest (mmCreateSectionHandle ob k size access).2.2 := by
  unfold mmCreateSectionHandle
  split
  · simp
  split
  · simp
  split
  · simp
  dsimp only
  split
  next heq => exact (obCreateObject_honest ..).pass heq
  split
  next heq => exact (mmAllocSectionPages_honest ..).pass heq
  · exact obInsertHandle_honest ..

theorem mmMapSectionHandle_honest (v protection : U32) :
    Honest (mmMapSectionHandle ob k a v protection).2.2 := by
  unfold mmMapSectionHandle
  split
  · simp
  split
  · dsimp only
    split
    next heq =>
      exact (obReferenceObjectByHandle_honest ob _ _ _).pass heq
    split <;> simp
  · simp

end Memory

/-! ### Processes and threads -/

section Processes

theorem psDispatch_honest {p p' : PsState} {e : KStatus}
    (h : psDispatch p = some (p', .failed e)) : e ≠ .success := by
  unfold psDispatch at h
  split at h
  · cases h
    exact nofun
  split at h
  · cases h
    exact nofun
  split at h
  · cases h
  · obtain ⟨p₁, -, heq⟩ := Option.map_eq_some_iff.1 h
    unfold psDispatchSwitch at heq
    split at heq
    · split at heq <;> cases heq
    · cases heq

theorem psYieldThread_honest {p p' : PsState} {e : KStatus}
    (h : psYieldThread p = some (p', .failed e)) : e ≠ .success := by
  unfold psYieldThread at h
  split at h
  · cases h
    exact nofun
  split at h
  · cases h
    exact nofun
  split at h
  · cases h
  · exact psDispatch_honest h

theorem psReadyThread_honest {p p' : PsState} {t : ThreadRef} {r : Except KStatus Unit}
    (h : psReadyThread p t = some (p', r)) : Honest r := by
  unfold psReadyThread at h
  split at h
  · cases h
    simp
  split at h
  · cases h
    simp
  · obtain ⟨p₁, -, heq⟩ := Option.bind_eq_some_iff.1 h
    cases heq
    simp

theorem pspAllocateProcessSlot_honest (p : PsState) : Honest (pspAllocateProcessSlot p).2 := by
  unfold pspAllocateProcessSlot
  split <;> simp

theorem pspAllocateThreadSlot_honest (p : PsState) : Honest (pspAllocateThreadSlot p).2 := by
  unfold pspAllocateThreadSlot
  split <;> simp

theorem relocEntries_honest {rules : RelocRules KStatus} (hinvalid : rules.invalid ≠ .success)
    (hunsupported : rules.unsupported ≠ .success) (size : U32) (delta : U64) (cursor n i : ℕ)
    (img : Image) : Honest (relocEntries rules size delta cursor n i img) := by
  induction n generalizing i img with
  | zero => simp [relocEntries]
  | succ n ih =>
    have hentry : ∀ va entry, Honest (relocEntry rules size delta va entry img) := by
      intro va entry
      unfold relocEntry
      dsimp only
      split
      · simp
      split
      · simpa using hunsupported
      split
      · simpa using hinvalid
      · simp
    unfold relocEntries
    split
    next heq => exact honest_error.2 ((hentry _ _).error_ne heq)
    · exact ih _ _

theorem relocBlocks_honest {rules : RelocRules KStatus} (hinvalid : rules.invalid ≠ .success)
    (hunsupported : rules.unsupported ≠ .success) (size : U32) (delta : U64) (stop n cursor : ℕ)
    (img : Image) : Honest (relocBlocks rules size delta stop n cursor img) := by
  induction n generalizing cursor img with
  | zero => simpa [relocBlocks] using hinvalid
  | succ n ih =>
    have hblock : Honest (relocBlock rules size delta stop cursor img) := by
      unfold relocBlock
      split
      · simpa using hinvalid
      split
      · simpa using hinvalid
      split
      · simpa using hinvalid
      · exact relocEntries_honest hinvalid hunsupported ..
    unfold relocBlocks
    split
    · simp
    split
    next heq => exact honest_error.2 (hblock.error_ne heq)
    · exact ih _ _

theorem pspCopySections_honest (f : File) (size : U32) (sections : List KpeSectionHeader)
    (img : Image) : Honest (pspCopySections f size sections img) := by
  induction sections generalizing img with
  | nil => simp [pspCopySections]
  | cons s sections ih =>
    unfold pspCopySections
    split
    · exact ih _
    split
    · simp
    · exact ih _

theorem pspFillImage_honest (f : File) (nt : KpeNtHeaders64) (sections : List KpeSectionHeader)
    (base : U64) : Honest (pspFillImage f nt sections base) := by
  unfold pspFillImage
  split
  next heq => exact honest_error.2 ((pspCopySections_honest ..).error_ne heq)
  unfold pspApplyUserKpeRelocations
  dsimp only
  split
  · simp
  split
  · simp
  split
  · simp
  split
  · simp
  · exact relocBlocks_honest (show KStatus.invalidParameter ≠ .success from nofun)
      (show KStatus.notImplemented ≠ .success from nofun) ..

variable {σ : Type} [ExecGlobals σ] (statics : PsStatics) (ob : ObState σ) (k : σ)

open Executive

theorem pspCreateProcessInternal_honest (name : Option CString) :
    Honest (pspCreateProcessInternal statics ob k name).2.2 := by
  unfold Executive.pspCreateProcessInternal
  split
  next heq => exact (pspAllocateProcessSlot_honest _).pass heq
  split
  next heq => exact (obCreateObject_honest ..).pass heq
  dsimp only
  split
  next heq => exact (mmCreateAddressSpace_honest ..).pass heq
  · simp

theorem pspCreateThread_honest (process : ProcessRef) (name : CString) (fill : KThread → KThread) :
    Honest (pspCreateThread statics ob k process name fill).2.2 := by
  unfold pspCreateThread
  split
  next heq => exact (pspAllocateThreadSlot_honest _).pass heq
  split
  next heq => exact (obCreateObject_honest ..).pass heq
  · simp

theorem psCreateUserThread_honest (process : ProcessRef) (entry top arg0 arg1 : U64) :
    Honest (Executive.psCreateUserThread statics ob k process entry top arg0 arg1).2.2 := by
  unfold Executive.psCreateUserThread
  split
  · simp
  split
  · simp
  split
  · simp
  split
  · simp
  dsimp only
  split
  · simp
  split
  · simp
  · exact pspCreateThread_honest ..

theorem mapUserImage_honest (m : MmState) (a : AddressSpaceRef) (nt : KpeNtHeaders64) :
    Honest (mapUserImage m a nt).2 := by
  unfold mapUserImage
  dsimp only
  split
  next heq => exact (mmMapAnonymous_honest ..).pass heq
  split
  next heq => exact (mmMapAnonymous_honest ..).pass heq
  split
  next heq => exact (mmMapAnonymous_honest ..).pass heq
  · simp

theorem activate_honest (a : AddressSpaceRef) : Honest (activate k a).2 :=
  mmActivateAddressSpace_honest ..

/-- A call that may not come back is honest when it does. -/
def HonestReturn {α β γ : Type} (r : Option (α × β × Except KStatus γ)) : Prop :=
  ∀ x, r = some x → Honest x.2.2

theorem finishSpawn_honest (checked : File) (buffer : ImageBuffer) (process : ProcessRef)
    (a : AddressSpaceRef) (imageBase stackBase : U64) :
    HonestReturn (finishSpawn statics ob k checked buffer process a imageBase stackBase) := by
  intro x hx
  unfold finishSpawn at hx
  dsimp only at hx
  split at hx
  next heq =>
    cases hx
    exact (activate_honest k a).pass heq
  obtain ⟨f, -, hx⟩ := Option.bind_eq_some_iff.1 hx
  split at hx
  next heq =>
    cases hx
    exact honest_error.2 ((pspFillImage_honest ..).error_ne heq)
  obtain ⟨m, -, hx⟩ := Option.bind_eq_some_iff.1 hx
  obtain ⟨f', -, hx⟩ := Option.bind_eq_some_iff.1 hx
  split at hx
  next heq =>
    cases hx
    exact (psCreateUserThread_honest ..).pass₂ heq
  obtain ⟨⟨p, r⟩, hready, rfl⟩ := Option.map_eq_some_iff.1 hx
  have hhonest := psReadyThread_honest hready
  cases r with
  | error e => exact honest_error.2 (hhonest.error_ne rfl)
  | ok _ => simp

theorem psSpawnUserKpeFromBuffer_honest (buffer : ImageBuffer) :
    HonestReturn (psSpawnUserKpeFromBuffer statics ob k buffer) := by
  intro x hx
  unfold psSpawnUserKpeFromBuffer at hx
  split at hx
  · cases hx
    simp
  obtain ⟨f, -, hx⟩ := Option.bind_eq_some_iff.1 hx
  split at hx
  · cases hx
    simp
  split at hx
  next heq =>
    cases hx
    exact (pspCreateProcessInternal_honest ..).pass₂ heq
  split at hx
  · cases hx
  split at hx
  · cases hx
    simp
  split at hx
  next heq =>
    cases hx
    exact (mapUserImage_honest ..).pass heq
  · exact finishSpawn_honest statics _ _ _ _ _ _ _ _ x hx

end Processes

/-! ### Ports and files -/

theorem lpcCreatePortHandle_honest (s : System ρ) (access : U32) :
    Honest (lpcCreatePortHandle s access).2 := by
  unfold lpcCreatePortHandle
  split
  · simp
  split
  · simp
  dsimp only
  split
  next heq => exact (obCreateObject_honest ..).pass heq
  · exact obInsertHandle_honest ..

theorem lpcCloseHandle_honest (s : System ρ) (v : U32) : Honest (lpcCloseHandle s v).2 := by
  unfold lpcCloseHandle
  split
  · simp
  · exact obCloseHandle_honest ..

section Files

variable {σ : Type} [IoGlobals σ] (memory : U64 → UInt8) (ob : ObState σ) (k : σ)

open IoGlobals

theorem ioOpenPath_honest (path : CString) (access : U32) :
    Honest (ioOpenPath ob k path access).2.2 := by
  have hvfs : ∀ s f, Honest (iopVfsOpen s path f).2 := by
    intro s f
    unfold iopVfsOpen
    split <;> simp
  unfold ioOpenPath
  split
  · simp
  split
  · simp
  split
  next heq => exact (obCreateObject_honest ..).pass heq
  dsimp only
  split
  next heq => exact (hvfs ..).pass heq
  · exact obInsertHandle_honest ..

theorem ioReadFileHandle_honest (v : U32) (offset length : U64) :
    Honest (ioReadFileHandle memory ob k v offset length).2.2 := by
  unfold ioReadFileHandle
  split
  · simp
  split
  next heq => exact (obReferenceObjectByHandle_honest ob _ _ _).pass heq
  split
  · simp
  dsimp only
  split <;> simp

theorem ioCloseFileHandle_honest (v : U32) : Honest (ioCloseFileHandle ob k v).2.2 := by
  unfold ioCloseFileHandle
  split
  · simp
  · exact obCloseHandle_honest ..

theorem ioSpawnReadLoop_honest (v : U32) (fuel : ℕ) (total : List UInt8) :
    HonestReturn (ioSpawnReadLoop memory v fuel total ob k) := by
  induction fuel generalizing total ob k with
  | zero => exact nofun
  | succ fuel ih =>
    intro x hx
    unfold ioSpawnReadLoop at hx
    split at hx
    · cases hx
      simp
    split at hx
    next heq =>
      cases hx
      exact (ioReadFileHandle_honest ..).pass₂ heq
    split at hx
    · cases hx
      simp
    · exact ih _ _ _ x hx

theorem ioSpawnProcessFromFileHandle_honest [ExecGlobals σ] (statics : PsStatics) (v : U32) :
    HonestReturn (ioSpawnProcessFromFileHandle memory statics ob k v) := by
  intro x hx
  unfold ioSpawnProcessFromFileHandle at hx
  split at hx
  · cases hx
    simp
  obtain ⟨⟨ob₁, k₁, r⟩, hread, hx⟩ := Option.bind_eq_some_iff.1 hx
  have hhonest := ioSpawnReadLoop_honest memory ob k v _ _ _ hread
  cases r with
  | error e =>
    cases hx
    exact honest_error.2 (hhonest.error_ne rfl)
  | ok total =>
    dsimp only at hx
    split at hx
    · cases hx
      simp
    · exact psSpawnUserKpeFromBuffer_honest statics _ _ _ x hx

end Files

/-! ## The handlers -/

/-- A range that passes the check is shorter than `2 ^ 63`. -/
theorem length_lt_of_readable {address length : U64} (h : kipIsRangeReadable address length = true) :
    length.toNat < 2 ^ 63 := by
  unfold kipIsRangeReadable at h
  have htop : kiUserAddressTop.toNat = 0x0000800000000000 := by decide
  have hbase : kiKernelAddressBase.toNat = 0xFFFF800000000000 := by decide
  rw [htop, hbase] at h
  split at h
  · cases h
  dsimp only at h
  split at h
  · cases h
  rename_i hwrap
  rw [BitVec.toNat_add] at h hwrap
  have ha := address.isLt
  have hl := length.isLt
  split at h
  · omega
  · have := of_decide_eq_true h
    omega

theorem not_failed_of_lt {value : U64} (h : value.toNat < 2 ^ 63) : ¬Failed value := by
  unfold Failed
  rw [BitVec.toInt_eq_toNat_of_lt (by omega)]
  omega

theorem failed_of_le {value : U64} (h : 2 ^ 63 ≤ value.toNat) : Failed value := by
  unfold Failed
  rw [BitVec.toInt_eq_toNat_cond, if_neg (by omega)]
  have := value.isLt
  omega

namespace UnambiguousResult

variable {left : SysReturn} {accesses : List UserAccess}

/-- A failure with an honest status. -/
theorem error {e : KStatus} (h : e ≠ .success) : UnambiguousResult ⟨accesses, .error e⟩ where
  left := ⟨fun _ => ⟨e, rfl⟩, fun _ => failed_statusResult h⟩
  right _ he := by rw [sysResult.eq_def, he]

/-- A success with a value that is not negative. -/
theorem ok {value : U64} (h : ¬Failed value) : UnambiguousResult ⟨accesses, .ok value⟩ where
  left := ⟨fun hf => absurd hf h, nofun⟩
  right := nofun

/-- A handle, or any other value of 32 bits. -/
theorem word (value : U32) : UnambiguousResult ⟨accesses, .ok (value.setWidth 64)⟩ := by
  apply ok
  apply not_failed_of_lt
  rw [BitVec.toNat_setWidth]
  have := value.isLt
  omega

/-- The number of bytes moved through a range that was checked. -/
theorem count {address length : U64} (h : kipIsRangeReadable address length = true) {n : ℕ}
    (hn : n ≤ length.toNat) : UnambiguousResult ⟨accesses, .ok (BitVec.ofNat 64 n)⟩ := by
  apply ok
  apply not_failed_of_lt
  have := length_lt_of_readable h
  rw [BitVec.toNat_ofNat]
  omega

theorem success : UnambiguousResult ⟨accesses, .ok (statusResult .success)⟩ :=
  ok not_failed_success

theorem ofStatus {α : Type} {r : Except KStatus α} (h : Honest r) :
    UnambiguousResult ⟨accesses, statusOnly r⟩ := by
  cases r with
  | error e => exact error (honest_error.1 h)
  | ok a => exact success

theorem dispatched {d : PsDispatched} (h : ∀ e, d = .failed e → e ≠ .success) :
    UnambiguousResult ⟨accesses, dispatchedResult d⟩ := by
  cases d with
  | failed e => exact error (h e rfl)
  | stayed => exact success
  | switched previous next => exact success

theorem refused {e : KStatus} (h : e ≠ .success) : UnambiguousResult (.refused e) := error h

end UnambiguousResult

/-- What a mapping without wired pages returns. -/
theorem mmMapAnonymous_lazy (m : MmState) (a : AddressSpaceRef) (size : U64) (protection : U32) :
    (mmMapAnonymous m a size protection mmRegionFlagLazy).2 =
      if m.ready = false then .error .invalidParameter
      else if (m.addressSpacePool a).regionCount < mmMaxVaRegions then
        .ok (mmpAlignUp (m.addressSpacePool a).nextUserBase 4096)
      else .error .initFailed := by
  have hwired : hasFlag (effectiveFlags mmRegionFlagLazy) mmRegionFlagWired = false := by decide
  unfold mmMapAnonymous
  split
  · rfl
  split
  · dsimp only
    rw [anonRegion, if_neg (by rw [hwired]; exact Bool.false_ne_true)]
  · rfl

/-- Every call left behind by a handler can be told apart. -/
def LeavesUnambiguous {ρ : Type} (r : Option (System ρ × Option SysReturn)) : Prop :=
  ∀ s' left, r = some (s', some left) → UnambiguousResult left

section Handlers

theorem leavesUnambiguous_leaves {r : System ρ × SysReturn} :
    LeavesUnambiguous (leaves r) ↔ UnambiguousResult r.2 := by
  constructor
  · intro h
    exact h r.1 r.2 rfl
  · rintro h s' left hleft
    cases hleft
    exact h

theorem leavesUnambiguous_comesBack {r : Option (System ρ × SysReturn)}
    (h : ∀ x, r = some x → UnambiguousResult x.2) : LeavesUnambiguous (comesBack r) := by
  rintro s' left hleft
  obtain ⟨x, hx, hleaves⟩ := Option.bind_eq_some_iff.1 hleft
  exact leavesUnambiguous_leaves.2 (h x hx) s' left hleaves

variable (w : CallWorld) (s : System ρ)

theorem kipSysDebugPrint_unambiguous (stringAddress length : U64) (x : System ρ × SysReturn)
    (hx : kipSysDebugPrint w s stringAddress length = some x) : UnambiguousResult x.2 := by
  unfold kipSysDebugPrint at hx
  split at hx
  · cases hx
    exact .refused nofun
  dsimp only at hx
  split at hx
  · cases hx
  · cases hx
    exact .success

theorem kipSysYield_unambiguous (x : System ρ × SysReturn) (hx : kipSysYield s = some x) :
    UnambiguousResult x.2 := by
  obtain ⟨⟨p, d⟩, hyield, rfl⟩ := Option.map_eq_some_iff.1 hx
  apply UnambiguousResult.dispatched
  rintro e rfl
  exact psYieldThread_honest hyield

theorem kipSysExitThread_unambiguous (x : System ρ × SysReturn)
    (hx : kipSysExitThread s = some x) : UnambiguousResult x.2 := by
  obtain ⟨⟨p, d⟩, hexit, rfl⟩ := Option.map_eq_some_iff.1 hx
  apply UnambiguousResult.dispatched
  rintro e rfl
  exact psReleaseCurrentThread_ne_success hexit

theorem sendReturn_unambiguous (handle messageAddress messageLength : U64)
    (x : System ρ × SysReturn)
    (hx : sendReturn w s handle messageAddress messageLength = some x) :
    UnambiguousResult x.2 := by
  unfold sendReturn at hx
  split at hx
  · cases hx
    exact .refused nofun
  split at hx
  · cases hx
    exact .refused nofun
  obtain ⟨⟨s', r⟩, hsend, rfl⟩ := Option.map_eq_some_iff.1 hx
  apply UnambiguousResult.ofStatus
  refine ⟨?_⟩
  rintro rfl
  exact lpcSendByHandle_ne_success hsend rfl

theorem receiveTurnReturn_unambiguous (handle messageAddress messageLength wait : U64) :
    LeavesUnambiguous (receiveTurnReturn s handle messageAddress messageLength wait) := by
  intro s' left h
  unfold receiveTurnReturn at h
  split at h
  · cases h
    exact .refused nofun
  split at h
  · cases h
    exact .refused nofun
  split at h
  · cases h
    exact .refused nofun
  split at h
  · cases h
    exact .refused nofun
  split at h
  · cases h
  · cases h
  next status hturn =>
    cases h
    cases status with
    | error e => exact .refused (lpcReceiveTurn_ne_success hturn)
    | ok message =>
      unfold receiveReturn
      dsimp only
      split
      · exact .refused nofun
      · exact .word message.length

theorem kipSysCreatePort_unambiguous (desiredAccess : U64) :
    UnambiguousResult (kipSysCreatePort s desiredAccess).2 := by
  have hhonest := lpcCreatePortHandle_honest s (desiredAccess.setWidth 32)
  unfold kipSysCreatePort
  split
  next heq =>
    rw [heq] at hhonest
    exact .refused (honest_error.1 hhonest)
  · exact .word _

theorem kipSysCloseHandle_unambiguous (handleValue : U64) :
    UnambiguousResult (kipSysCloseHandle s handleValue).2 :=
  .ofStatus (lpcCloseHandle_honest s (handleValue.setWidth 32))

theorem kipSysReadConsole_unambiguous (bufferAddress bufferLength : U64) :
    UnambiguousResult (kipSysReadConsole w s bufferAddress bufferLength).2 := by
  unfold kipSysReadConsole
  split
  · exact .refused nofun
  split
  · exact .refused nofun
  · next hwritable => exact .count (eq_true_of_ne_false hwritable) (min_le_left ..)

section Memory

variable [MmGlobals ρ]

/-- A mapping is told apart exactly when it gets a base below `2 ^ 63`. -/
theorem mapMemoryReturn_unambiguous_iff (flags : U64) :
    UnambiguousResult (mapMemoryReturn s flags).2 ↔
      ∀ a, currentAddressSpace s.kernel.ps = some a →
        (MmGlobals.mm s.kernel).ready = true →
          ((MmGlobals.mm s.kernel).addressSpacePool a).regionCount < mmMaxVaRegions →
            (mmpAlignUp ((MmGlobals.mm s.kernel).addressSpacePool a).nextUserBase 4096).toNat <
              2 ^ 63 := by
  unfold mapMemoryReturn
  split
  next hnone =>
    rw [hnone]
    exact ⟨fun _ => nofun, fun _ => .refused nofun⟩
  next a hsome =>
    have hlazy := mmMapAnonymous_lazy (MmGlobals.mm s.kernel) a
      (if flags = 0 then 4096 else flags) (mmProtRead ||| mmProtWrite)
    split
    next heq =>
      rw [heq] at hlazy
      constructor
      · intro _ a' ha' hready hroom
        cases hsome.symm.trans ha'
        rw [if_neg (by rw [hready]; exact Bool.noConfusion), if_pos hroom] at hlazy
        cases hlazy
      · intro _
        apply UnambiguousResult.refused
        exact honest_error.1 ((mmMapAnonymous_honest ..).pass (γ := Unit) heq)
    next virtualBase heq =>
      rw [heq] at hlazy
      dsimp only at hlazy
      split at hlazy
      · cases hlazy
      next hready =>
      split at hlazy
      next hroom =>
        cases hlazy
        constructor
        · intro h a' ha' _ _
          cases hsome.symm.trans ha'
          by_contra hge
          obtain ⟨e, he⟩ := h.1.1 (failed_of_le (Nat.not_lt.1 hge))
          cases he
        · intro h
          apply UnambiguousResult.ok
          apply not_failed_of_lt
          exact h a hsome (eq_true_of_ne_false hready) hroom
      · cases hlazy

theorem kipSysCreateSection_unambiguous (size desiredAccess outHandleAddress : U64) :
    UnambiguousResult (kipSysCreateSection s size desiredAccess outHandleAddress).2 := by
  unfold kipSysCreateSection
  split
  · exact .refused nofun
  have hhonest := mmCreateSectionHandle_honest s.ob s.kernel size
    (if desiredAccess = 0 then mmSectionAccessAll else desiredAccess.setWidth 32)
  dsimp only
  split
  next heq =>
    rw [heq] at hhonest
    exact .refused (honest_error.1 hhonest)
  · exact .success

theorem mapSectionReturn_unambiguous (handleValue protection outAddress : U64) :
    UnambiguousResult (mapSectionReturn s handleValue protection outAddress).2 := by
  unfold mapSectionReturn
  split
  · exact .refused nofun
  split
  · exact .refused nofun
  next a _ =>
    have hhonest := mmMapSectionHandle_honest a s.ob s.kernel (handleValue.setWidth 32)
      (protection.setWidth 32)
    split
    next heq =>
      rw [heq] at hhonest
      exact .refused (honest_error.1 hhonest)
    · exact .success

theorem kipSysCreateProcessFromBuffer_unambiguous
    (imageAddress imageSize outProcessIdAddress outEntryAddress : U64) (x : System ρ × SysReturn)
    (hx : kipSysCreateProcessFromBuffer w s imageAddress imageSize outProcessIdAddress
      outEntryAddress = some x) : UnambiguousResult x.2 := by
  unfold kipSysCreateProcessFromBuffer at hx
  split at hx
  · cases hx
    exact .refused nofun
  split at hx
  · cases hx
    exact .refused nofun
  split at hx
  · cases hx
    exact .refused nofun
  split at hx
  · cases hx
    exact .refused nofun
  obtain ⟨⟨ob, k, r⟩, hspawn, rfl⟩ := Option.map_eq_some_iff.1 hx
  have hhonest := psSpawnUserKpeFromBuffer_honest w.statics s.ob s.kernel _ _ hspawn
  cases r with
  | error e => exact .error (honest_error.1 hhonest)
  | ok ids => exact .success

end Memory

section Files

variable [IoGlobals ρ]

theorem kipSysOpen_unambiguous (pathAddress pathLength desiredAccess : U64) :
    UnambiguousResult (kipSysOpen w s pathAddress pathLength desiredAccess).2 := by
  unfold kipSysOpen
  split
  · exact .refused nofun
  split
  · exact .refused nofun
  have hhonest := ioOpenPath_honest s.ob s.kernel
    (cString (userBytes w.memory pathAddress pathLength.toNat)) (desiredAccess.setWidth 32)
  dsimp only
  split
  next heq =>
    rw [heq] at hhonest
    exact .error (honest_error.1 hhonest)
  · exact .word _

theorem kipSysRead_unambiguous (handleValue offset bufferAddress bufferLength : U64) :
    UnambiguousResult (kipSysRead w s handleValue offset bufferAddress bufferLength).2 := by
  unfold kipSysRead
  split
  · exact .refused nofun
  split
  · exact .refused nofun
  next hwritable =>
    have hhonest := ioReadFileHandle_honest w.files s.ob s.kernel (handleValue.setWidth 32) offset
      bufferLength
    split
    next heq =>
      rw [heq] at hhonest
      exact .refused (honest_error.1 hhonest)
    next heq => exact .count (eq_true_of_ne_false hwritable) (ioReadFileHandle_length heq)

theorem kipSysClose_unambiguous (handleValue : U64) :
    UnambiguousResult (kipSysClose s handleValue).2 :=
  .ofStatus (ioCloseFileHandle_honest s.ob s.kernel (handleValue.setWidth 32))

theorem kipSysCreateProcessFromFileHandle_unambiguous [MmGlobals ρ]
    (handleValue outProcessIdAddress outEntryAddress : U64) (x : System ρ × SysReturn)
    (hx : kipSysCreateProcessFromFileHandle w s handleValue outProcessIdAddress outEntryAddress =
      some x) : UnambiguousResult x.2 := by
  unfold kipSysCreateProcessFromFileHandle at hx
  split at hx
  · cases hx
    exact .refused nofun
  split at hx
  · cases hx
    exact .refused nofun
  obtain ⟨⟨ob, k, r⟩, hspawn, rfl⟩ := Option.map_eq_some_iff.1 hx
  have hhonest :=
    ioSpawnProcessFromFileHandle_honest w.files s.ob s.kernel w.statics _ _ hspawn
  cases r with
  | error e => exact .refused (honest_error.1 hhonest)
  | ok ids => exact .success

end Files

end Handlers

/-! ## The dispatcher -/

section Dispatcher

variable [MmGlobals ρ]

theorem mapsBelow_of_ne (s : System ρ) {c : SystemCall} (h : c.number.toNat ≠ 4) :
    MapsBelow s c := by
  intro hc
  rw [hc] at h
  exact absurd rfl h

variable [IoGlobals ρ] (w : CallWorld) (s : System ρ) (c : SystemCall)

/-- One call: what it leaves can be told apart exactly when a mapping that it is granted lies
below `2 ^ 63`. -/
theorem kiDispatch_unambiguous_iff :
    LeavesUnambiguous (kiDispatch w s c) ↔ MapsBelow s c := by
  by_cases hmap : c.number.toNat = 4
  · have hnumber : c.number = 4 := BitVec.eq_of_toNat_eq hmap
    unfold kiDispatch
    rw [hmap]
    change LeavesUnambiguous (leaves _) ↔ _
    rw [leavesUnambiguous_leaves, mapMemoryReturn_unambiguous_iff]
    exact ⟨fun h _ => h, fun h => h hnumber⟩
  refine ⟨fun _ => mapsBelow_of_ne s hmap, fun _ => ?_⟩
  unfold kiDispatch
  split
  · exact leavesUnambiguous_comesBack (kipSysDebugPrint_unambiguous w s _ _)
  · exact leavesUnambiguous_comesBack (kipSysYield_unambiguous s)
  · exact leavesUnambiguous_comesBack (sendReturn_unambiguous w s _ _ _)
  · exact receiveTurnReturn_unambiguous s _ _ _ _
  next hfour => exact absurd hfour hmap
  · exact leavesUnambiguous_comesBack (kipSysExitThread_unambiguous s)
  · exact leavesUnambiguous_leaves.2 (kipSysCreatePort_unambiguous s _)
  · exact leavesUnambiguous_leaves.2 (kipSysCloseHandle_unambiguous s _)
  · exact leavesUnambiguous_leaves.2 (kipSysCreateSection_unambiguous s _ _ _)
  · exact leavesUnambiguous_leaves.2 (mapSectionReturn_unambiguous s _ _ _)
  · exact leavesUnambiguous_comesBack (kipSysCreateProcessFromBuffer_unambiguous w s _ _ _ _)
  · exact leavesUnambiguous_leaves.2 (kipSysOpen_unambiguous w s _ _ _)
  · exact leavesUnambiguous_leaves.2 (kipSysRead_unambiguous w s _ _ _ _)
  · exact leavesUnambiguous_leaves.2 (kipSysClose_unambiguous s _)
  · exact leavesUnambiguous_comesBack (kipSysCreateProcessFromFileHandle_unambiguous w s _ _ _)
  · exact leavesUnambiguous_leaves.2 (kipSysReadConsole_unambiguous w s _ _)
  · exact leavesUnambiguous_leaves.2 (.refused nofun)

end Dispatcher

/-! ## Runs -/

section Runs

variable [MmGlobals ρ] [IoGlobals ρ]

/-- Along every run, from every state: what the calls leave can be told apart exactly when every
mapping that is granted lies below `2 ^ 63`. -/
theorem results_unambiguous_iff (s : System ρ) (run : List (Stretch ρ)) :
    AtCalls (fun w s c => LeavesUnambiguous (kiDispatch w s c)) s run ↔
      AtCalls (fun _ s c => MapsBelow s c) s run :=
  atCalls_congr kiDispatch_unambiguous_iff s run

end Runs

/-! ## A mapping that looks like an error -/

/-- `MapMemory` with half of all addresses as its size. -/
def mapHalf : SystemCall := ⟨4, 0x8000000000000000, 0, 0, 0⟩

/-- The second of two such calls is granted a base that is negative as a result. -/
theorem mapped_base_negative :
    ¬AtCalls (fun w s c => LeavesUnambiguous (kiDispatch w s c)) sampleKernel
      [.call sampleWorld mapHalf, .call sampleWorld mapHalf] := by
  rw [atCalls_congr kiDispatch_unambiguous_iff]
  intro h
  have hsecond := (h.2 (mapMemoryReturn sampleKernel mapHalf.arg0).1 _ rfl).1
  have hbelow := hsecond rfl 0 (by decide +kernel) (by decide +kernel) (by decide +kernel)
  revert hbelow
  decide +kernel

end NtxKernel.Ke
