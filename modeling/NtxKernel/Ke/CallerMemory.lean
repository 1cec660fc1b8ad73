import NtxKernel.Ke.Dispatch

/-!
# The memory that system calls touch

A handler reads and writes memory through addresses from its arguments. `KipIsRangeReadable` accepts
a range by two limits alone: it lies below `KI_USER_ADDRESS_TOP`, wherever the caller's regions are,
or from `KI_KERNEL_ADDRESS_BASE` on.

* `SystemCall.buffers` are the ranges that the arguments of a call name, `SystemCall.argumentsPass`
  what the handlers check of the arguments before anything else.
* `WithinBuffers`: a handler whose arguments do not pass refuses the call at once, and any handler
  touches no more than the buffers; one lemma for each handler.
* `CallerOnly` is the property of a call, and `caller_only` the theorem about runs: every call of a
  user thread has it if the buffers that pass lie in regions of the caller.
* `kernel_memory_read`: a user thread prints kernel memory.
-/

namespace NtxKernel.Ke

open Foundations Ob Ps Nk Lpc Mm Io

variable {ρ : Type}

/-! ## Buffers -/

/-- A range that the arguments of a call name. -/
structure Buffer where
  address : U64
  length : ℕ

/-- The buffers of a call, some of which may be null. -/
def SystemCall.buffers (c : SystemCall) : List Buffer :=
  match c.number.toNat with
  | 0 => [⟨c.arg0, c.arg1.toNat⟩]
  | 2 => [⟨c.arg1, c.arg2.toNat⟩]
  | 3 => [⟨c.arg1, c.arg2.toNat⟩]
  | 8 => [⟨c.arg2, 4⟩]
  | 9 => [⟨c.arg2, 8⟩]
  | 10 => [⟨c.arg0, c.arg1.toNat⟩, ⟨c.arg2, 8⟩, ⟨c.arg3, 8⟩]
  | 11 => [⟨c.arg0, c.arg1.toNat⟩]
  | 12 => [⟨c.arg2, c.arg3.toNat⟩]
  | 14 => [⟨c.arg1, 8⟩, ⟨c.arg2, 8⟩]
  | 15 => [⟨c.arg0, c.arg1.toNat⟩]
  | _ => []

/-- The arguments of a call pass the checks that its handler makes of them. -/
def SystemCall.argumentsPass (c : SystemCall) : Bool :=
  match c.number.toNat with
  | 0 => decide (c.arg1.toNat ≤ kiSyscallDebugprintMax) && kipIsRangeReadable c.arg0 c.arg1
  | 2 => decide (c.arg2.toNat ≤ nkMessagePayloadBytes) && kipIsRangeReadable c.arg1 c.arg2
  | 3 => decide (c.arg2.toNat ≤ nkMessagePayloadBytes) && kipIsRangeWritable c.arg1 c.arg2
  | 8 => kipIsRangeWritable c.arg2 4
  | 9 => kipIsRangeWritable c.arg2 8
  | 10 => kipIsRangeReadable c.arg0 c.arg1 && spawnOutputOk c.arg2 && spawnOutputOk c.arg3
  | 11 => decide (c.arg1.toNat < localPathBytes) && kipIsRangeReadable c.arg0 c.arg1
  | 12 => kipIsRangeWritable c.arg2 c.arg3
  | 14 => spawnOutputOk c.arg1 && spawnOutputOk c.arg2
  | 15 => kipIsRangeWritable c.arg0 c.arg1
  | _ => true

/-- A null range is not readable. -/
theorem address_ne_of_readable {address length : U64}
    (h : kipIsRangeReadable address length = true) : address ≠ 0 := by
  rintro rfl
  unfold kipIsRangeReadable at h
  rw [if_pos (Or.inl rfl)] at h
  cases h

/-- An empty range is not readable. -/
theorem length_ne_of_readable {address length : U64}
    (h : kipIsRangeReadable address length = true) : length ≠ 0 := by
  rintro rfl
  unfold kipIsRangeReadable at h
  rw [if_pos (Or.inr rfl)] at h
  cases h

/-- What a handler leaves for a call with the buffers `buffers` in the state `s`, where `pass` says
that the arguments pass. -/
structure WithinBuffers (buffers : List Buffer) (pass : Bool) (s : System ρ)
    (r : Option (System ρ × Option SysReturn)) : Prop where
  refused : pass = false → r = some (s, some (.refused .invalidParameter))
  accesses : ∀ s' left, r = some (s', some left) → ∀ x ∈ left.accesses,
    ∃ b ∈ buffers, x.address = b.address ∧ b.address ≠ 0 ∧ x.length ≤ b.length

namespace WithinBuffers

variable {buffers : List Buffer} {pass : Bool} {s : System ρ}

/-- A call that is refused before it touches anything. -/
theorem of_refused (e : KStatus) (h : pass = false → e = .invalidParameter) :
    WithinBuffers buffers pass s (some (s, some (.refused e))) where
  refused hp := by rw [h hp]
  accesses := by
    rintro s' left hleft x hx
    cases hleft
    cases hx

/-- A handler that touches nothing. -/
theorem of_none {r : Option (System ρ × Option SysReturn)}
    (h : ∀ s' left, r = some (s', some left) → left.accesses = []) :
    WithinBuffers buffers true s r where
  refused := nofun
  accesses s' left hr x hx := by
    rw [h s' left hr] at hx
    cases hx

/-- A handler whose arguments pass touches no more than one readable range. -/
theorem of_one {r : Option (System ρ × Option SysReturn)} {address length : U64} {n : ℕ}
    (hreadable : kipIsRangeReadable address length = true)
    (h : ∀ s' left, r = some (s', some left) → ∀ x ∈ left.accesses,
      x.address = address ∧ x.length ≤ n) :
    WithinBuffers [⟨address, n⟩] true s r where
  refused := nofun
  accesses s' left hr x hx :=
    ⟨_, List.mem_singleton_self _, (h s' left hr x hx).1, address_ne_of_readable hreadable,
      (h s' left hr x hx).2⟩

end WithinBuffers

/-! ## The handlers -/

section Handlers

variable (w : CallWorld) (s : System ρ)

theorem kipSysDebugPrint_within (stringAddress length : U64) :
    WithinBuffers [⟨stringAddress, length.toNat⟩]
      (decide (length.toNat ≤ kiSyscallDebugprintMax) && kipIsRangeReadable stringAddress length) s
      (comesBack (kipSysDebugPrint w s stringAddress length)) := by
  unfold kipSysDebugPrint
  split
  · exact .of_refused _ fun _ => rfl
  next hcheck =>
    rw [not_or, Nat.not_lt] at hcheck
    have hreadable := eq_true_of_ne_false hcheck.2
    rw [decide_eq_true hcheck.1, hreadable]
    apply WithinBuffers.of_one hreadable
    intro s' left hr x hx
    dsimp only at hr
    split at hr
    · cases hr
    · cases hr
      cases List.mem_singleton.1 hx
      exact ⟨rfl, le_rfl⟩

theorem sendReturn_within (handle messageAddress messageLength : U64) :
    WithinBuffers [⟨messageAddress, messageLength.toNat⟩]
      (decide (messageLength.toNat ≤ nkMessagePayloadBytes) &&
        kipIsRangeReadable messageAddress messageLength) s
      (comesBack (sendReturn w s handle messageAddress messageLength)) := by
  unfold sendReturn
  split
  · exact .of_refused _ fun _ => rfl
  next hlength =>
    rw [not_or, Nat.not_lt] at hlength
    split
    · exact .of_refused _ fun _ => rfl
    next hcheck =>
      have hreadable := eq_true_of_ne_false hcheck
      rw [decide_eq_true hlength.1, hreadable]
      apply WithinBuffers.of_one hreadable
      intro s' left hr x hx
      obtain ⟨y, hy, hleaves⟩ := Option.bind_eq_some_iff.1 hr
      obtain ⟨z, -, rfl⟩ := Option.map_eq_some_iff.1 hy
      cases hleaves
      cases List.mem_singleton.1 hx
      exact ⟨rfl, le_rfl⟩

/-- A message fits into the part of the buffer that is compared with it. -/
theorem messageBytes_length_le {message : NkMessage} {messageLength : U64}
    (h : ¬(messageLength.setWidth 32).toNat < message.length.toNat) :
    (messageBytes message).length ≤ messageLength.toNat := by
  rw [messageBytes, List.length_take]
  rw [BitVec.toNat_setWidth] at h
  have := Nat.mod_le messageLength.toNat (2 ^ 32)
  omega

theorem receiveTurnReturn_within (handle messageAddress messageLength wait : U64) :
    WithinBuffers [⟨messageAddress, messageLength.toNat⟩]
      (decide (messageLength.toNat ≤ nkMessagePayloadBytes) &&
        kipIsRangeWritable messageAddress messageLength) s
      (receiveTurnReturn s handle messageAddress messageLength wait) := by
  unfold receiveTurnReturn
  split
  · exact .of_refused _ fun _ => rfl
  next hlength =>
    rw [not_or, Nat.not_lt] at hlength
    split
    · exact .of_refused _ fun _ => rfl
    next hcheck =>
      have hwritable := eq_true_of_ne_false hcheck
      rw [decide_eq_true hlength.1, hwritable]
      apply WithinBuffers.of_one hwritable
      intro s' left hr x hx
      split at hr
      · cases hr
        cases hx
      split at hr
      · cases hr
        cases hx
      split at hr
      · cases hr
      · cases hr
      next status _ =>
        cases hr
        cases status with
        | error e => cases hx
        | ok message =>
          unfold receiveReturn at hx
          dsimp only at hx
          split at hx
          · cases hx
          next hfits =>
            cases List.mem_singleton.1 hx
            exact ⟨rfl, messageBytes_length_le hfits⟩

theorem kipSysReadConsole_within (bufferAddress bufferLength : U64) :
    WithinBuffers [⟨bufferAddress, bufferLength.toNat⟩]
      (kipIsRangeWritable bufferAddress bufferLength) s
      (leaves (kipSysReadConsole w s bufferAddress bufferLength)) := by
  unfold kipSysReadConsole
  split
  · exact .of_refused _ fun _ => rfl
  split
  · exact .of_refused _ fun _ => rfl
  next hcheck =>
    have hwritable := eq_true_of_ne_false hcheck
    rw [hwritable]
    apply WithinBuffers.of_one hwritable
    intro s' left hr x hx
    cases hr
    cases List.mem_singleton.1 hx
    exact ⟨rfl, min_le_left ..⟩

section Memory

variable [MmGlobals ρ]

theorem kipSysCreateSection_within (size desiredAccess outHandleAddress : U64) :
    WithinBuffers [⟨outHandleAddress, 4⟩] (kipIsRangeWritable outHandleAddress 4) s
      (leaves (kipSysCreateSection s size desiredAccess outHandleAddress)) := by
  unfold kipSysCreateSection
  split
  · exact .of_refused _ fun _ => rfl
  next hcheck =>
    have hwritable := eq_true_of_ne_false (not_or.1 hcheck).2
    rw [hwritable]
    apply WithinBuffers.of_one hwritable
    intro s' left hr x hx
    dsimp only at hr
    split at hr
    · cases hr
      cases hx
    · cases hr
      cases List.mem_singleton.1 hx
      exact ⟨rfl, le_rfl⟩

theorem mapSectionReturn_within (handleValue protection outAddress : U64) :
    WithinBuffers [⟨outAddress, 8⟩] (kipIsRangeWritable outAddress 8) s
      (leaves (mapSectionReturn s handleValue protection outAddress)) := by
  unfold mapSectionReturn
  split
  · exact .of_refused _ fun _ => rfl
  next hcheck =>
    have hwritable := eq_true_of_ne_false (not_or.1 hcheck).2
    rw [hwritable]
    apply WithinBuffers.of_one hwritable
    intro s' left hr x hx
    split at hr
    · cases hr
      cases hx
    split at hr
    · cases hr
      cases hx
    · cases hr
      cases List.mem_singleton.1 hx
      exact ⟨rfl, le_rfl⟩

/-- The handlers that spawn write to out parameters that are not null. -/
theorem mem_spawnOutputs {outProcessIdAddress outEntryAddress : U64} {x : UserAccess}
    (h : x ∈ spawnOutputs outProcessIdAddress outEntryAddress) :
    ∃ b ∈ [Buffer.mk outProcessIdAddress 8, Buffer.mk outEntryAddress 8],
      x.address = b.address ∧ b.address ≠ 0 ∧ x.length ≤ b.length := by
  unfold spawnOutputs at h
  rcases List.mem_append.1 h with h | h
  · split at h
    · cases h
    next hne =>
      cases List.mem_singleton.1 h
      exact ⟨_, List.mem_cons_self .., rfl, hne, le_rfl⟩
  · split at h
    · cases h
    next hne =>
      cases List.mem_singleton.1 h
      exact ⟨_, List.mem_cons_of_mem _ (List.mem_singleton_self _), rfl, hne, le_rfl⟩

theorem kipSysCreateProcessFromBuffer_within
    (imageAddress imageSize outProcessIdAddress outEntryAddress : U64) :
    WithinBuffers
      [⟨imageAddress, imageSize.toNat⟩, ⟨outProcessIdAddress, 8⟩, ⟨outEntryAddress, 8⟩]
      (kipIsRangeReadable imageAddress imageSize && spawnOutputOk outProcessIdAddress &&
        spawnOutputOk outEntryAddress) s
      (comesBack (kipSysCreateProcessFromBuffer w s imageAddress imageSize outProcessIdAddress
        outEntryAddress)) := by
  unfold kipSysCreateProcessFromBuffer
  split
  · exact .of_refused _ fun _ => rfl
  split
  · exact .of_refused _ fun _ => rfl
  next hcheck =>
  split
  · exact .of_refused _ fun _ => rfl
  next hprocess =>
  split
  · exact .of_refused _ fun _ => rfl
  next hentry =>
    have hreadable := eq_true_of_ne_false hcheck
    rw [hreadable, eq_true_of_ne_false hprocess, eq_true_of_ne_false hentry]
    refine ⟨nofun, ?_⟩
    intro s' left hr x hx
    obtain ⟨y, hy, hleaves⟩ := Option.bind_eq_some_iff.1 hr
    obtain ⟨⟨ob, k, z⟩, -, rfl⟩ := Option.map_eq_some_iff.1 hy
    have himage : ∃ b ∈ [Buffer.mk imageAddress imageSize.toNat, ⟨outProcessIdAddress, 8⟩,
        ⟨outEntryAddress, 8⟩], imageAddress = b.address ∧ b.address ≠ 0 ∧
          imageSize.toNat ≤ b.length :=
      ⟨_, List.mem_cons_self .., rfl, address_ne_of_readable hreadable, le_rfl⟩
    cases z with
    | error e =>
      cases hleaves
      cases List.mem_singleton.1 hx
      exact himage
    | ok ids =>
      cases hleaves
      rcases List.mem_cons.1 hx with rfl | hx
      · exact himage
      · obtain ⟨b, hb, hfits⟩ := mem_spawnOutputs hx
        exact ⟨b, List.mem_cons_of_mem _ hb, hfits⟩

end Memory

section Files

variable [IoGlobals ρ]

theorem kipSysOpen_within (pathAddress pathLength desiredAccess : U64) :
    WithinBuffers [⟨pathAddress, pathLength.toNat⟩]
      (decide (pathLength.toNat < localPathBytes) && kipIsRangeReadable pathAddress pathLength) s
      (leaves (kipSysOpen w s pathAddress pathLength desiredAccess)) := by
  unfold kipSysOpen
  split
  · exact .of_refused _ fun _ => rfl
  next hlength =>
    rw [not_or, not_or, Nat.not_le] at hlength
    split
    · exact .of_refused _ fun _ => rfl
    next hcheck =>
      have hreadable := eq_true_of_ne_false hcheck
      rw [decide_eq_true hlength.2.2, hreadable]
      apply WithinBuffers.of_one hreadable
      intro s' left hr x hx
      dsimp only at hr
      split at hr
      · cases hr
        cases List.mem_singleton.1 hx
        exact ⟨rfl, le_rfl⟩
      · cases hr
        cases List.mem_singleton.1 hx
        exact ⟨rfl, le_rfl⟩

theorem kipSysRead_within (handleValue offset bufferAddress bufferLength : U64) :
    WithinBuffers [⟨bufferAddress, bufferLength.toNat⟩]
      (kipIsRangeWritable bufferAddress bufferLength) s
      (leaves (kipSysRead w s handleValue offset bufferAddress bufferLength)) := by
  unfold kipSysRead
  split
  · exact .of_refused _ fun _ => rfl
  split
  · exact .of_refused _ fun _ => rfl
  next hcheck =>
    have hwritable := eq_true_of_ne_false hcheck
    rw [hwritable]
    apply WithinBuffers.of_one hwritable
    intro s' left hr x hx
    split at hr
    · cases hr
      cases hx
    next heq =>
      cases hr
      cases List.mem_singleton.1 hx
      exact ⟨rfl, ioReadFileHandle_length heq⟩

theorem kipSysCreateProcessFromFileHandle_within [MmGlobals ρ]
    (handleValue outProcessIdAddress outEntryAddress : U64) :
    WithinBuffers [⟨outProcessIdAddress, 8⟩, ⟨outEntryAddress, 8⟩]
      (spawnOutputOk outProcessIdAddress && spawnOutputOk outEntryAddress) s
      (comesBack (kipSysCreateProcessFromFileHandle w s handleValue outProcessIdAddress
        outEntryAddress)) := by
  unfold kipSysCreateProcessFromFileHandle
  split
  · exact .of_refused _ fun _ => rfl
  next hprocess =>
  split
  · exact .of_refused _ fun _ => rfl
  next hentry =>
    rw [eq_true_of_ne_false hprocess, eq_true_of_ne_false hentry]
    refine ⟨nofun, ?_⟩
    intro s' left hr x hx
    obtain ⟨y, hy, hleaves⟩ := Option.bind_eq_some_iff.1 hr
    obtain ⟨⟨ob, k, z⟩, -, rfl⟩ := Option.map_eq_some_iff.1 hy
    cases z with
    | error e =>
      cases hleaves
      cases hx
    | ok ids =>
      cases hleaves
      exact mem_spawnOutputs hx

end Files

end Handlers

/-! ## The dispatcher -/

/-- A handler that always leaves something and touches nothing. -/
theorem leaves_within {s : System ρ} {r : System ρ × SysReturn} (h : r.2.accesses = []) :
    WithinBuffers [] true s (leaves r) :=
  .of_none fun _ _ hr => by
    cases hr
    exact h

/-- A handler that touches nothing when it comes back. -/
theorem comesBack_within {s : System ρ} {r : Option (System ρ × SysReturn)}
    (h : ∀ x, r = some x → x.2.accesses = []) : WithinBuffers [] true s (comesBack r) :=
  .of_none fun _ _ hr => by
    obtain ⟨x, hx, hleaves⟩ := Option.bind_eq_some_iff.1 hr
    cases hleaves
    exact h x hx

section Dispatcher

variable [MmGlobals ρ] [IoGlobals ρ] (w : CallWorld) (s : System ρ) (c : SystemCall)

/-- A call whose arguments do not pass is refused at once, and every call touches no more than its
buffers. -/
theorem kiDispatch_within :
    WithinBuffers c.buffers c.argumentsPass s (kiDispatch w s c) := by
  unfold kiDispatch SystemCall.buffers SystemCall.argumentsPass
  generalize c.number.toNat = number
  match number with
  | 0 => exact kipSysDebugPrint_within w s _ _
  | 1 =>
    apply comesBack_within
    intro x hx
    obtain ⟨y, -, rfl⟩ := Option.map_eq_some_iff.1 hx
    rfl
  | 2 => exact sendReturn_within w s _ _ _
  | 3 => exact receiveTurnReturn_within s _ _ _ _
  | 4 =>
    apply leaves_within
    unfold mapMemoryReturn
    split
    · rfl
    · split <;> rfl
  | 5 =>
    apply comesBack_within
    intro x hx
    obtain ⟨y, -, rfl⟩ := Option.map_eq_some_iff.1 hx
    rfl
  | 6 =>
    apply leaves_within
    unfold kipSysCreatePort
    split <;> rfl
  | 7 => exact leaves_within rfl
  | 8 => exact kipSysCreateSection_within s _ _ _
  | 9 => exact mapSectionReturn_within s _ _ _
  | 10 => exact kipSysCreateProcessFromBuffer_within w s _ _ _ _
  | 11 => exact kipSysOpen_within w s _ _ _
  | 12 => exact kipSysRead_within w s _ _ _ _
  | 13 => exact leaves_within rfl
  | 14 => exact kipSysCreateProcessFromFileHandle_within w s _ _ _
  | 15 => exact kipSysReadConsole_within w s _ _
  | _ + 16 => exact leaves_within rfl

end Dispatcher

/-! ## The caller's own memory -/

/-- The current thread is a user thread. -/
def CallerIsUser (s : System ρ) : Prop :=
  ∃ t, s.kernel.ps.currentThread = some t ∧ (s.kernel.ps.threadPool t).isUserThread = true

section CallerMemory

variable [MmGlobals ρ]

/-- A byte in a region of the address space of the current process, between `MM_USER_BASE` and
`MM_USER_TOP`. -/
def CallerByte (s : System ρ) (va : U64) : Prop :=
  mmUserBase.toNat ≤ va.toNat ∧ va.toNat < mmUserTop.toNat ∧
    ∃ a, currentAddressSpace s.kernel.ps = some a ∧
      ∃ i : Fin mmMaxVaRegions, i.val < ((MmGlobals.mm s.kernel).addressSpacePool a).regionCount ∧
        let r := ((MmGlobals.mm s.kernel).addressSpacePool a).regions i
        r.base.toNat ≤ va.toNat ∧ va.toNat < r.base.toNat + r.size.toNat

/-- Every byte of a buffer is the caller's. -/
def Buffer.Within (s : System ρ) (b : Buffer) : Prop :=
  ∀ i < b.length, CallerByte s (b.address + BitVec.ofNat 64 i)

/-- The condition on a call: if its arguments pass, its buffers that are not null are the caller's.
-/
def BuffersOk (s : System ρ) (c : SystemCall) : Prop :=
  c.argumentsPass = true → ∀ b ∈ c.buffers, b.address ≠ 0 → b.Within s

variable [IoGlobals ρ]

/-- A call touches only the caller's memory. A call that does not come back has read no more than
its buffers, and these are the caller's since it is not refused. -/
structure CallerOnly (w : CallWorld) (s : System ρ) (c : SystemCall) : Prop where
  /-- What the handler reads and writes is the caller's. -/
  touches : ∀ s' left, kiDispatch w s c = some (s', some left) →
    ∀ x ∈ left.accesses, (Buffer.mk x.address x.length).Within s
  /-- A call with another buffer that is not null is refused, before anything is read, written or
  created. -/
  refuses : (∃ b ∈ c.buffers, b.address ≠ 0 ∧ ¬b.Within s) →
    ∃ e, kiDispatch w s c = some (s, some (.refused e))

/-- One call. -/
theorem callerOnly_of_buffersOk (w : CallWorld) {s : System ρ} {c : SystemCall}
    (h : BuffersOk s c) : CallerOnly w s c := by
  obtain ⟨hrefused, haccesses⟩ := kiDispatch_within w s c
  constructor
  · intro s' left hcall x hx i hi
    obtain ⟨b, hb, haddress, hne, hlength⟩ := haccesses s' left hcall x hx
    by_cases hpass : c.argumentsPass = true
    · have hbyte := h hpass b hb hne i (hi.trans_le hlength)
      rw [← haddress] at hbyte
      exact hbyte
    · rw [hrefused (eq_false_of_ne_true hpass)] at hcall
      cases hcall
      cases hx
  · rintro ⟨b, hb, hne, hout⟩
    refine ⟨.invalidParameter, hrefused ?_⟩
    apply eq_false_of_ne_true
    intro hpass
    exact hout (h hpass b hb hne)

/-- Along every run, from every state: if every call of a user thread meets the condition
`BuffersOk`, every call of a user thread touches only the caller's memory. -/
theorem caller_only (s : System ρ) (run : List (Stretch ρ))
    (h : AtCalls (fun _ s c => CallerIsUser s → BuffersOk s c) s run) :
    AtCalls (fun w s c => CallerIsUser s → CallerOnly w s c) s run :=
  atCalls_mono (fun w _ _ hok huser => callerOnly_of_buffersOk w (hok huser)) s run h

end CallerMemory

/-! ## A user thread -/

/-- The object manager with a type for processes and one for threads. -/
def userOb : ObState (Kernel MmIo) :=
  (obCreateType (obCreateType (obInitialize .zero).1 (some procUserName) none).1
    (some threadUserName) none).1

/-- `sampleKernel` with a page of the process that can be read, written and executed. -/
def pageKernel : Kernel MmIo :=
  { sampleKernel.kernel with
    rest := ⟨(mmMapAnonymous MmSystem.sampleSystem.k 0 0x1000 7 mmRegionFlagWired).1, .zero⟩ }

/-- A user thread in that page. -/
def userThread : ObState (Kernel MmIo) × Kernel MmIo × Except KStatus ThreadRef :=
  Executive.psCreateUserThread ⟨some 0, some 1, 0x200000⟩ userOb pageKernel 0 0x40000000 0x40001000
    0 0

/-- The scheduler once the bootstrap thread has yielded to it. -/
def userPs : PsState :=
  match (psReadyThread userThread.2.1.ps 1).bind fun r => psYieldThread r.1 with
  | some (ps, _) => ps
  | none => .zero

/-- The kernel while the user thread runs. -/
def userKernel : System MmIo := ⟨userThread.1, { userThread.2.1 with ps := userPs }⟩

theorem userKernel_isUser : CallerIsUser userKernel := ⟨1, by decide +kernel, by decide +kernel⟩

theorem userKernel_addressSpace : currentAddressSpace userKernel.kernel.ps = some 0 := by
  decide +kernel

/-- The thread prints the first bytes of its page. -/
theorem caller_only_user :
    AtCalls (fun w s c => CallerIsUser s → CallerOnly w s c) userKernel
      [.call sampleWorld ⟨0, 0x40000000, 4, 0, 0⟩] := by
  apply caller_only
  refine ⟨?_, fun _ _ _ => trivial⟩
  intro _ _ b hb _ i hi
  cases List.mem_singleton.1 hb
  have hi' : i < 4 := hi
  have hva : (0x40000000 + BitVec.ofNat 64 i : U64).toNat = 0x40000000 + i := by
    have hbase : (0x40000000 : U64).toNat = 0x40000000 := by decide
    rw [BitVec.toNat_add, BitVec.toNat_ofNat, hbase]
    omega
  have hregion : 0 < ((MmGlobals.mm userKernel.kernel).addressSpacePool 0).regionCount ∧
      (((MmGlobals.mm userKernel.kernel).addressSpacePool 0).regions 0).base.toNat = 0x40000000 ∧
      (((MmGlobals.mm userKernel.kernel).addressSpacePool 0).regions 0).size.toNat = 0x1000 := by
    decide +kernel
  have hbase : mmUserBase.toNat = 0x40000000 := by decide
  have htop : mmUserTop.toNat = 0x800000000000 := by decide
  unfold CallerByte
  rw [hva, hbase, htop]
  refine ⟨by omega, by omega, 0, userKernel_addressSpace, 0, hregion.1, ?_⟩
  dsimp only
  rw [hregion.2.1, hregion.2.2]
  omega

/-- The thread prints memory from `KI_KERNEL_ADDRESS_BASE` on. -/
theorem kernel_memory_read :
    ¬AtCalls (fun w s c => CallerIsUser s → CallerOnly w s c) userKernel
      [.call sampleWorld ⟨0, 0xFFFF800000000000, 4, 0, 0⟩] := by
  intro h
  have hbyte := (h.1 userKernel_isUser).touches _ _ rfl _ (List.mem_singleton_self _) 0 (by decide)
  have htop := hbyte.2.1
  revert htop
  decide

end NtxKernel.Ke
