import NtxKernel.Ps.Slots

/-!
# Where a user thread starts

`PsCreateUserThread` checks the entry in the last table for the page of the entry point and for the
page that ends at the stack. The thread starts from the top of the stack aligned to 16 bytes.

* `mmAsQueryPte_ok_iff`: a query reads the entry of the last table on the walk of the processor, and
  finds no large pages.
* `CanStart`: the processor lets a user execute at the entry point of the thread, and write the
  8 bytes below its stack pointer.
* `user_thread_can_start_iff`: a created thread can start iff the tables above the two entries
  grant what the entries do, and the stack pointer is not aligned into the page below the one that
  was checked, or that page may be written as well.
-/

namespace NtxKernel.Ps

open Foundations Ob Mm

/-! ## Queries -/

section Query

variable {m : MmState} {a : AddressSpaceRef} {va va' : U64} {root : ℕ}

/-- A round of a walk that adds no tables goes on where the entry leads to a table. -/
theorem mmpWalkLevel_false (m : MmState) (u n : ℕ) (va : U64) :
    (∃ e, mmpWalkLevel m u n va false = (m, .error e) ∧
        pteChild (m.mem u (tableIndex va n)) = none) ∨
      ∃ t, mmpWalkLevel m u n va false = (m, .ok t) ∧
        pteChild (m.mem u (tableIndex va n)) = some t := by
  generalize hentry : m.mem u (tableIndex va n) = entry
  have hsanitize : mmpSanitize m u n va false entry = (m, entry) := by
    rw [mmpSanitize, Bool.and_false, if_neg Bool.false_ne_true]
  rw [mmpWalkLevel, mmpSplitLarge]
  dsimp only
  rw [hentry]
  by_cases hlarge : (hasFlag entry mmPtePresent && hasFlag entry mmPteLarge) = true
  · have hnone : pteChild entry = none := pteChild_of_isLarge hlarge
    rw [if_pos hlarge]
    by_cases hn : n ≠ 2
    · rw [if_pos hn]
      exact .inl ⟨_, rfl, hnone⟩
    · rw [if_neg hn, if_pos rfl]
      exact .inl ⟨_, rfl, hnone⟩
  rw [if_neg hlarge]
  dsimp only
  rw [hsanitize]
  dsimp only
  rw [mmpAddTable]
  by_cases hpresent : hasFlag entry mmPtePresent = true
  · rw [if_pos hpresent]
    exact .inr ⟨_, rfl, pteChild_of_present hpresent (Bool.not_eq_true _ ▸ hlarge)⟩
  · rw [if_neg hpresent, if_pos rfl]
    exact .inl ⟨_, rfl, pteChild_of_not_present (Bool.not_eq_true _ ▸ hpresent)⟩

/-- Such a walk finds the table that the processor finds. -/
theorem mmpWalkTables_false (n level : ℕ) {u : ℕ} (hu : m.tableAt root va level = some u) :
    (∃ e, mmpWalkTables va false n level u m = (m, .error e) ∧
        m.tableAt root va (level + n) = none) ∨
      ∃ t, mmpWalkTables va false n level u m = (m, .ok t) ∧
        m.tableAt root va (level + n) = some t := by
  induction n generalizing level u with
  | zero => exact .inr ⟨u, rfl, hu⟩
  | succ n ih =>
    have hnext := tableAt_succ m root va level
    rw [hu, Option.bind_some] at hnext
    rw [mmpWalkTables]
    rcases mmpWalkLevel_false m u level va with ⟨e, heq, hchild⟩ | ⟨t, heq, hchild⟩
    · rw [heq]
      refine .inl ⟨e, rfl, ?_⟩
      cases htable : m.tableAt root va (level + (n + 1)) with
      | none => rfl
      | some t =>
        obtain ⟨w, hw⟩ := tableAt_of_le (show level + 1 ≤ level + (n + 1) by omega) htable
        cases hw.symm.trans (hnext.trans hchild)
    · rw [heq, ← Nat.add_assoc, Nat.add_right_comm]
      exact ih (level + 1) (hnext.trans hchild)

/-- A query reads the entry of the last table. -/
theorem mmAsQueryPte_ok_iff {pte : U64} :
    (mmAsQueryPte m a va).2 = .ok pte ↔
      (m.ready = true ∧ va.toNat % mmPageSize = 0 ∧ mmpIsCanonicalAddress va = true) ∧
        Reads m (m.rootFrame a) va 3 pte := by
  rw [mmAsQueryPte]
  by_cases hrefused : m.ready = false ∨ va.toNat % mmPageSize ≠ 0
  · rw [if_pos hrefused]
    refine iff_of_false (by rintro ⟨⟩) ?_
    rintro ⟨⟨hready, haligned, -⟩, -⟩
    rcases hrefused with hnot | hnot
    · cases hready.symm.trans hnot
    · exact hnot haligned
  rw [if_neg hrefused, mmpWalkToPte]
  rw [not_or, not_not, Bool.not_eq_false] at hrefused
  by_cases hcanonical : mmpIsCanonicalAddress va = false
  · rw [if_pos hcanonical]
    refine iff_of_false (by rintro ⟨⟩) ?_
    rintro ⟨⟨-, -, htrue⟩, -⟩
    cases htrue.symm.trans hcanonical
  rw [if_neg hcanonical]
  rw [Bool.not_eq_false] at hcanonical
  rcases mmpWalkTables_false 3 0 (rfl : m.tableAt (m.rootFrame a) va 0 = some (m.rootFrame a)) with
    ⟨e, heq, hnone⟩ | ⟨t, heq, hsome⟩
  · rw [heq]
    refine iff_of_false (by rintro ⟨⟩) ?_
    rintro ⟨-, -, t, ht, -⟩
    cases ht.symm.trans hnone
  · rw [heq]
    constructor
    · intro h
      exact ⟨⟨hrefused.1, hrefused.2, hcanonical⟩, le_rfl, t, hsome, Except.ok.inj h⟩
    · rintro ⟨-, -, t', ht', rfl⟩
      obtain rfl := Option.some.inj (hsome.symm.trans ht')
      rfl

/-- The addresses of a page read the same entries. -/
theorem reads_of_page_eq {k : ℕ} {entry : U64} (h : Reads m root va k entry)
    (hpage : va.toNat / mmPageSize = va'.toNat / mmPageSize) : Reads m root va' k entry := by
  obtain ⟨hk, t, ht, rfl⟩ := h
  refine ⟨hk, t, ?_, by rw [tableIndex_of_page_eq hpage hk]⟩
  rw [MmState.tableAt, ← vaPath_of_page_eq hpage (by omega)]
  exact ht

/-- The entries above the last table, on the walk for an address. -/
def AboveLeaf (m : MmState) (root : ℕ) (va : U64) (P : U64 → Prop) : Prop :=
  ∀ k < 3, ∀ entry, Reads m root va k entry → P entry

theorem allFrom_zero_iff {pte : U64} (hread : Reads m root va 3 pte) {P : U64 → Prop} :
    AllFrom m root va 0 P ↔ AboveLeaf m root va P ∧ P pte := by
  constructor
  · intro h
    exact ⟨fun k _ entry hk => h k entry (Nat.zero_le k) hk, h 3 pte (Nat.zero_le 3) hread⟩
  · rintro ⟨habove, hleaf⟩ k entry - hk
    rcases Nat.lt_or_eq_of_le hk.1 with hlt | rfl
    · exact habove k hlt entry hk
    · rw [hk.unique hread]
      exact hleaf

/-- The processor maps the page of the address for a user, below `PS_USER_TOP`, and leaves some
rights. -/
def UserMaps (m : MmState) (a : AddressSpaceRef) (va : U64) (rights : Translation → Prop) : Prop :=
  (va.toNat / mmPageSize + 1) * mmPageSize ≤ psUserTop.toNat ∧
    ∃ T, m.translate a va = some T ∧ T.user = true ∧ rights T

theorem page_below_top (h : va.toNat < psUserTop.toNat) :
    (va.toNat / mmPageSize + 1) * mmPageSize ≤ psUserTop.toNat := by
  have htop : psUserTop.toNat = 0x800000000000 := rfl
  have hpage : mmPageSize = 4096 := rfl
  rw [hpage]
  omega

/-- A page whose entry passes the check of an entry point. -/
theorem userMaps_entry_iff {pte : U64} (hread : Reads m (m.rootFrame a) va 3 pte)
    (hok : Executive.entryPteOk (.ok pte) = true) (hva : va.toNat < psUserTop.toNat) :
    UserMaps m a va (fun T => T.noExecute = false) ↔
      AboveLeaf m (m.rootFrame a) va fun entry =>
        hasFlag entry mmPteUser = true ∧ hasFlag entry mmPteNx = false := by
  rw [Executive.entryPteOk, Bool.and_eq_true, Bool.and_eq_true, Bool.not_eq_true'] at hok
  obtain ⟨⟨hpresent, huser⟩, hnx⟩ := hok
  obtain ⟨T, hT, -, hgrants⟩ := translate_of_mapsTo hread (.inl ⟨rfl, hpresent, rfl⟩)
  have huserIff := hgrants.user.trans ((and_iff_right rfl).trans (allFrom_zero_iff hread))
  have hexecuteIff := hgrants.execute.trans ((and_iff_right rfl).trans (allFrom_zero_iff hread))
  constructor
  · rintro ⟨-, T', hT', hu, hx⟩ k hk entry hentry
    obtain rfl := Option.some.inj (hT.symm.trans hT')
    exact ⟨(huserIff.1 hu).1 k hk entry hentry, (hexecuteIff.1 hx).1 k hk entry hentry⟩
  · intro h
    refine ⟨page_below_top hva, T, hT, huserIff.2 ⟨?_, huser⟩, hexecuteIff.2 ⟨?_, hnx⟩⟩
    · exact fun k hk entry hentry => (h k hk entry hentry).1
    · exact fun k hk entry hentry => (h k hk entry hentry).2

/-- A page whose entry passes the check of a stack. -/
theorem userMaps_stack_iff {pte : U64} (hread : Reads m (m.rootFrame a) va 3 pte)
    (hok : Executive.stackPteOk (.ok pte) = true) (hva : va.toNat < psUserTop.toNat) :
    UserMaps m a va (fun T => T.writable = true) ↔
      AboveLeaf m (m.rootFrame a) va fun entry =>
        hasFlag entry mmPteUser = true ∧ hasFlag entry mmPteWritable = true := by
  rw [Executive.stackPteOk, Bool.and_eq_true, Bool.and_eq_true] at hok
  obtain ⟨⟨hpresent, huser⟩, hwritable⟩ := hok
  obtain ⟨T, hT, -, hgrants⟩ := translate_of_mapsTo hread (.inl ⟨rfl, hpresent, rfl⟩)
  have huserIff := hgrants.user.trans ((and_iff_right rfl).trans (allFrom_zero_iff hread))
  have hwriteIff := hgrants.writable.trans ((and_iff_right rfl).trans (allFrom_zero_iff hread))
  constructor
  · rintro ⟨-, T', hT', hu, hw⟩ k hk entry hentry
    obtain rfl := Option.some.inj (hT.symm.trans hT')
    exact ⟨(huserIff.1 hu).1 k hk entry hentry, (hwriteIff.1 hw).1 k hk entry hentry⟩
  · intro h
    refine ⟨page_below_top hva, T, hT, huserIff.2 ⟨?_, huser⟩, hwriteIff.2 ⟨?_, hwritable⟩⟩
    · exact fun k hk entry hentry => (h k hk entry hentry).1
    · exact fun k hk entry hentry => (h k hk entry hentry).2

end Query

/-! ## The stack pointer -/

/-- The address of the 8 bytes that are pushed first. -/
def firstPush (stackPointer : U64) : U64 := stackPointer - 8

/-- Aligning the top of the stack stays in the page that ends there or that it lies in. -/
def AlignsInPage (userStackTop : U64) : Prop :=
  userStackTop.toNat % mmPageSize = 0 ∨ 16 ≤ userStackTop.toNat % mmPageSize

theorem toNat_firstPush {top : U64} (h : 16 ≤ top.toNat) :
    (firstPush (top &&& ~~~0xF)).toNat = top.toNat / 16 * 16 - 8 := by
  have haligned : (top &&& ~~~0xF).toNat = top.toNat / 16 * 16 := toNat_and_not_lowMask top 4
  have height : (8 : U64).toNat = 8 := rfl
  rw [firstPush, BitVec.toNat_sub_of_le (BitVec.le_def.2 (by omega)), haligned, height]

theorem toNat_sub_one {top : U64} (h : 16 ≤ top.toNat) : (top - 1).toNat = top.toNat - 1 := by
  have hone : (1 : U64).toNat = 1 := rfl
  rw [BitVec.toNat_sub_of_le (BitVec.le_def.2 (by omega)), hone]

/-- Then the page that is pushed to is the one that is checked. -/
theorem page_firstPush {top : U64} (h : 16 ≤ top.toNat) (haligns : AlignsInPage top) :
    (top - 1).toNat / mmPageSize = (firstPush (top &&& ~~~0xF)).toNat / mmPageSize := by
  have hpage : mmPageSize = 4096 := rfl
  rw [AlignsInPage, hpage] at haligns
  rw [toNat_firstPush h, toNat_sub_one h, hpage]
  omega

/-- The page that a query is made for. -/
theorem page_and_not (va : U64) :
    (va &&& ~~~0xFFF).toNat / mmPageSize = va.toNat / mmPageSize := by
  have haligned : (va &&& ~~~0xFFF).toNat = va.toNat / 4096 * 4096 := toNat_and_not_lowMask va 12
  have hpage : mmPageSize = 4096 := rfl
  rw [haligned, hpage]
  omega

/-! ## Created threads -/

section Threads

open SlotSystem PsGlobals MmGlobals ExecGlobals

variable {σ : Type} [ExecGlobals σ] {statics : PsStatics} {ob ob' : ObState σ} {k k' : σ}
  {process : ProcessRef} {t : ThreadRef}

/-- The queries of `PsCreateUserThread` found their entries. -/
def QueriesFound (m : MmState) (a : AddressSpaceRef) (userEntry userStackTop : U64) : Prop :=
  (∃ pte, (mmAsQueryPte m a (userEntry &&& ~~~0xFFF)).2 = .ok pte) ∧
    ∃ pte, (mmAsQueryPte m a ((userStackTop - 1) &&& ~~~0xFFF)).2 = .ok pte

/-- A user can execute at the entry point of the thread and push to its stack. -/
structure CanStart (k : σ) (a : AddressSpaceRef) (t : ThreadRef) : Prop where
  entry : UserMaps (mm k) a ((ps k).threadPool t).userEntry fun T => T.noExecute = false
  stack : UserMaps (mm k) a (firstPush ((ps k).threadPool t).userStackTop) fun T =>
    T.writable = true

/-- If `PsCreateUserThread` succeeds, it found both entries and the thread can start. -/
def CreatesStartable (statics : PsStatics) (ob : ObState σ) (k : σ) (process : ProcessRef)
    (userEntry userStackTop userArg0 userArg1 : U64) : Prop :=
  ∀ ob' k' t, Executive.psCreateUserThread statics ob k process userEntry userStackTop userArg0
      userArg1 = (ob', k', .ok t) →
    ∃ a, ((ps k).processPool process).addressSpaceRoot = some a ∧
      QueriesFound (mm k) a userEntry userStackTop ∧ CanStart k' a t

/-- What `PsCreateUserThread` does not look at: the tables above the entries, and the page below
the one that it checks, where aligning the stack leads there. -/
structure Unchecked (m : MmState) (a : AddressSpaceRef) (userEntry userStackTop : U64) : Prop where
  entryTables : AboveLeaf m (m.rootFrame a) userEntry fun entry =>
    hasFlag entry mmPteUser = true ∧ hasFlag entry mmPteNx = false
  stackTables : AlignsInPage userStackTop →
    AboveLeaf m (m.rootFrame a) (userStackTop - 1) fun entry =>
      hasFlag entry mmPteUser = true ∧ hasFlag entry mmPteWritable = true
  pageBelow : ¬AlignsInPage userStackTop →
    UserMaps m a (firstPush (userStackTop &&& ~~~0xF)) fun T => T.writable = true

/-- The call has what it needs to create a thread. -/
structure ThreadCreatable (statics : PsStatics) (ob : ObState σ) (k : σ) (process : ProcessRef)
    (userEntry userStackTop : U64) : Prop where
  checks : userThreadChecks k process userEntry userStackTop = true
  slot : (freeThread (ps k)).isSome
  object : ObjectRoom ob statics.threadType

/-- The created thread. -/
theorem pspCreateThread_created {name : CString} {fill : KThread → KThread}
    (h : Executive.pspCreateThread statics ob k process name fill = (ob', k', .ok t)) :
    (freeThread (ps k)).isSome ∧ ObjectRoom ob statics.threadType ∧ mm k' = mm k ∧
      ∃ created, (ps k').threadPool t = fill created := by
  unfold Executive.pspCreateThread pspAllocateThreadSlot at h
  rw [freeThread]
  split at h
  · cases h
  next p thread halloc =>
  split at halloc
  next slot hslot =>
    cases halloc
    dsimp only at h
    split at h
    · cases h
    next ob₁ header hcreate =>
    cases h
    have hpool : ∀ p : PsState, (ps (setPs p k)).threadPool t = p.threadPool t := fun p => by
      rw [ps_setPs]
    refine ⟨by rw [hslot]; rfl, ?_, mm_setPs .., _, (hpool _).trans (Function.update_self ..)⟩
    rcases obCreateObject_cases ob statics.threadType (some name) obAccessAll obFlagWaitable with
      ⟨e, heq⟩ | ⟨o, type, nm, htype, -, hfree, -⟩
    · cases hcreate.symm.trans heq
    · refine ⟨by rw [htype]; exact Option.some_ne_none _, ?_, o, hfree⟩
      by_contra hready
      rw [htype, obCreateObject, if_pos (Bool.not_eq_true _ ▸ hready)] at hcreate
      cases hcreate
  · cases halloc

/-- A thread is created exactly when the call has what it needs; it starts at the entry, with the
stack aligned, and the tables stay as they are. -/
theorem psCreateUserThread_created {userEntry userStackTop arg0 arg1 : U64}
    (h : Executive.psCreateUserThread statics ob k process userEntry userStackTop arg0 arg1 =
      (ob', k', .ok t)) :
    ThreadCreatable statics ob k process userEntry userStackTop ∧ mm k' = mm k ∧
      ((ps k').threadPool t).userEntry = userEntry ∧
        ((ps k').threadPool t).userStackTop = userStackTop &&& ~~~0xF := by
  rcases psCreateUserThread_eq statics ob k process userEntry userStackTop arg0 arg1 with
    ⟨-, e, heq⟩ | ⟨hchecks, fill, hfill, heq⟩
  · cases h.symm.trans heq
  · obtain ⟨hslot, hobject, hmm, created, hthread⟩ := pspCreateThread_created (heq.symm.trans h)
    rw [hthread]
    exact ⟨⟨hchecks, hslot, hobject⟩, hmm, (hfill created).2⟩

theorem ThreadCreatable.creates {userEntry userStackTop : U64}
    (h : ThreadCreatable statics ob k process userEntry userStackTop) (arg0 arg1 : U64) :
    ∃ ob' k' t, Executive.psCreateUserThread statics ob k process userEntry userStackTop arg0 arg1 =
      (ob', k', .ok t) := by
  rcases psCreateUserThread_eq statics ob k process userEntry userStackTop arg0 arg1 with
    ⟨hfails, -⟩ | ⟨-, fill, hfill, heq⟩
  · cases h.checks.symm.trans hfails
  · obtain ⟨ob', k', t, hcreate, -, -⟩ := pspCreateThread_ok statics h.slot h.object process
      threadUserName fun t => (hfill t).1
    exact ⟨ob', k', t, heq.trans hcreate⟩

/-- What the checks say. -/
theorem userThreadChecks_iff {userEntry userStackTop : U64}
    (h : userThreadChecks k process userEntry userStackTop = true) :
    16 ≤ userStackTop.toNat ∧ userEntry.toNat < psUserTop.toNat ∧
      userStackTop.toNat < psUserTop.toNat ∧
        ∃ a, ((ps k).processPool process).addressSpaceRoot = some a ∧
          Executive.entryPteOk (mmAsQueryPte (mm k) a (userEntry &&& ~~~0xFFF)).2 = true ∧
            Executive.stackPteOk (mmAsQueryPte (mm k) a ((userStackTop - 1) &&& ~~~0xFFF)).2 =
              true := by
  rw [userThreadChecks, Bool.and_eq_true, Bool.and_eq_true, Bool.and_eq_true, decide_eq_true_eq,
    decide_eq_true_eq] at h
  obtain ⟨⟨⟨-, harg⟩, htop⟩, hroot⟩ := h
  rw [not_or, Nat.not_le, Nat.not_le] at htop
  refine ⟨Nat.not_lt.1 fun hlt => harg (.inr hlt), htop.1, htop.2, ?_⟩
  cases ha : ((ps k).processPool process).addressSpaceRoot with
  | none =>
    rw [ha] at hroot
    cases hroot
  | some a =>
    rw [ha] at hroot
    exact ⟨a, rfl, Bool.and_eq_true _ _ ▸ hroot⟩

/-- An entry that passes a check is the one that the processor reads for the page. -/
theorem reads_of_query {m : MmState} {a : AddressSpaceRef} {va : U64}
    {check : Except KStatus U64 → Bool} (herror : ∀ e, check (.error e) = false)
    (h : check (mmAsQueryPte m a (va &&& ~~~0xFFF)).2 = true) :
    ∃ pte, (mmAsQueryPte m a (va &&& ~~~0xFFF)).2 = .ok pte ∧ check (.ok pte) = true ∧
      Reads m (m.rootFrame a) va 3 pte := by
  cases hquery : (mmAsQueryPte m a (va &&& ~~~0xFFF)).2 with
  | error e =>
    rw [hquery, herror] at h
    cases h
  | ok pte =>
    rw [hquery] at h
    exact ⟨pte, rfl, h, reads_of_page_eq (mmAsQueryPte_ok_iff.1 hquery).2 (page_and_not va)⟩

/-- A created thread can start iff what was not checked is as it should be. -/
theorem canStart_iff {userEntry userStackTop arg0 arg1 : U64}
    (h : Executive.psCreateUserThread statics ob k process userEntry userStackTop arg0 arg1 =
      (ob', k', .ok t)) :
    ∃ a, ((ps k).processPool process).addressSpaceRoot = some a ∧
      QueriesFound (mm k) a userEntry userStackTop ∧
        (CanStart k' a t ↔ Unchecked (mm k) a userEntry userStackTop) := by
  obtain ⟨hcreatable, hmm, hentry, hstack⟩ := psCreateUserThread_created h
  obtain ⟨hle, hentryTop, hstackTop, a, ha, hentryOk, hstackOk⟩ :=
    userThreadChecks_iff hcreatable.checks
  obtain ⟨pte, hquery, hpte, hread⟩ := reads_of_query (fun _ => rfl) hentryOk
  obtain ⟨pte', hquery', hpte', hread'⟩ := reads_of_query (fun _ => rfl) hstackOk
  have hpush := toNat_firstPush hle
  have hentryIff := userMaps_entry_iff hread hpte hentryTop
  have hstackIff : AlignsInPage userStackTop →
      (UserMaps (mm k) a (firstPush (userStackTop &&& ~~~0xF)) (fun T => T.writable = true) ↔
        AboveLeaf (mm k) ((mm k).rootFrame a) (userStackTop - 1) fun entry =>
          hasFlag entry mmPteUser = true ∧ hasFlag entry mmPteWritable = true) := by
    intro haligns
    have hpage := page_firstPush hle haligns
    rw [userMaps_stack_iff (reads_of_page_eq hread' hpage) hpte' (by omega)]
    constructor
    · exact fun habove j hj entry he => habove j hj entry (reads_of_page_eq he hpage)
    · exact fun habove j hj entry he => habove j hj entry (reads_of_page_eq he hpage.symm)
  refine ⟨a, ha, ⟨⟨pte, hquery⟩, pte', hquery'⟩, ?_⟩
  constructor
  · rintro ⟨hstartEntry, hstartStack⟩
    rw [hmm, hentry] at hstartEntry
    rw [hmm, hstack] at hstartStack
    exact ⟨hentryIff.1 hstartEntry, fun haligns => (hstackIff haligns).1 hstartStack,
      fun _ => hstartStack⟩
  · intro hun
    constructor
    · rw [hmm, hentry]
      exact hentryIff.2 hun.entryTables
    · rw [hmm, hstack]
      by_cases haligns : AlignsInPage userStackTop
      · exact (hstackIff haligns).2 (hun.stackTables haligns)
      · exact hun.pageBelow haligns

/-- `PsCreateUserThread` creates only threads that can start iff, where it gets as far as creating
one, what it does not check is as it should be. -/
theorem user_thread_can_start_iff (statics : PsStatics) (ob : ObState σ) (k : σ)
    (process : ProcessRef) (userEntry userStackTop userArg0 userArg1 : U64) :
    CreatesStartable statics ob k process userEntry userStackTop userArg0 userArg1 ↔
      (ThreadCreatable statics ob k process userEntry userStackTop →
        ∀ a, ((ps k).processPool process).addressSpaceRoot = some a →
          Unchecked (mm k) a userEntry userStackTop) := by
  constructor
  · intro h hcreatable a ha
    obtain ⟨ob', k', t, heq⟩ := hcreatable.creates userArg0 userArg1
    obtain ⟨a', ha', -, hiff⟩ := canStart_iff heq
    obtain ⟨a'', ha'', -, hstart⟩ := h ob' k' t heq
    obtain rfl := Option.some.inj (ha'.symm.trans ha'')
    obtain rfl := Option.some.inj (ha.symm.trans ha')
    exact hiff.1 hstart
  · intro h ob' k' t heq
    obtain ⟨a, ha, hfound, hiff⟩ := canStart_iff heq
    exact ⟨a, ha, hfound, hiff.2 (h (psCreateUserThread_created heq).1 a ha)⟩

end Threads

/-! ## A stack that is aligned into the page below -/

section Misaligned

open SlotSystem MmGlobals

/-- The managers with a process. -/
def startProcess : ObState PsMm × PsMm × Except KStatus ProcessRef :=
  Executive.psCreateProcess sampleStatics sampleOb ⟨bootPs, uefiMachine 1⟩ none

/-- The process has mapped one page, at the start of the user range. -/
def startMapped : PsMm :=
  setMm (mmMapAnonymous (mm startProcess.2.1) 0 0x1000 0xF mmRegionFlagWired).1 startProcess.2.1

/-- With the top of the stack 8 bytes above the start of the page, the stack pointer is the start of
the page, and the page below is not there. -/
theorem stack_aligned_out_of_page : ¬CreatesStartable sampleStatics startProcess.1 startMapped 1
    0x40000000 0x40000008 0 0 := by
  intro h
  have hcreatable : ThreadCreatable sampleStatics startProcess.1 startMapped 1 0x40000000
      0x40000008 :=
    ⟨by decide +kernel, by decide +kernel, Option.some_ne_none _, by decide +kernel, 5, by decide +kernel⟩
  obtain ⟨ob', k', t, heq⟩ := hcreatable.creates 0 0
  obtain ⟨-, hmm, -, hstack⟩ := psCreateUserThread_created heq
  obtain ⟨a, ha, -, hstart⟩ := h ob' k' t heq
  have hroot : (startMapped.ps.processPool 1).addressSpaceRoot = some 0 := by decide +kernel
  obtain rfl := Option.some.inj (ha.symm.trans hroot)
  obtain ⟨-, T, hT, -⟩ := hstart.stack
  rw [hmm, hstack] at hT
  have hnone : startMapped.mm.translate 0 (firstPush (0x40000008 &&& ~~~0xF)) = none := by
    decide +kernel
  cases hT.symm.trans hnone

end Misaligned

end NtxKernel.Ps
