import NtxKernel.Mm.Isolation

/-!
# What a walk disturbs

A walk with `CreateMissing` changes entries that other pages depend on. It opens the entries on its
way to the user, and it replaces a large entry by a table of its parts.

* `Undisturbed` says that every other page that had a translation has the same one, and that the
  page of the walk has the same frame.
* `WalkEffect` is what a walk does to the entries of the tables that were there.
* `walk_undisturbed_iff`: a walk disturbs nothing iff `Harmless` holds of the tables before. A large
  entry that is split must have the bits below the address of a large page clear, the PAT bit among
  them, and in the upper half grant the user no access; and no other page may depend on an entry
  on the way for its protection from the user or from execution.
-/

namespace NtxKernel.Mm

open Foundations

variable {m m' : MmState} {va va' : U64} {root : ℕ} {a : AddressSpaceRef}

/-! ## Translations, level by level -/

/-- The walk of the processor reads the entry at the level `k`. -/
def Reads (m : MmState) (root : ℕ) (va : U64) (k : ℕ) (entry : U64) : Prop :=
  k ≤ 3 ∧ ∃ t, m.tableAt root va k = some t ∧ m.mem t (tableIndex va k) = entry

/-- The entry at the level `k` maps a page, to the frame. -/
def MapsTo (va : U64) (k : ℕ) (entry : U64) (frame : ℕ) : Prop :=
  (k = 3 ∧ hasFlag entry mmPtePresent = true ∧ frame = pteFrame entry) ∨
    ((k = 1 ∨ k = 2) ∧ isLarge entry = true ∧ frame = largeFrame entry va (3 - k))

/-- What all entries from the level `j` on satisfy. -/
def AllFrom (m : MmState) (root : ℕ) (va : U64) (j : ℕ) (P : U64 → Prop) : Prop :=
  ∀ k entry, j ≤ k → Reads m root va k entry → P entry

theorem Reads.unique {k : ℕ} {e e' : U64} (h : Reads m root va k e) (h' : Reads m root va k e') :
    e = e' := by
  obtain ⟨-, t, ht, rfl⟩ := h
  obtain ⟨-, t', ht', rfl⟩ := h'
  rw [Option.some.inj (ht.symm.trans ht')]

theorem reads_of_tableAt {k t : ℕ} (hk : k ≤ 3) (ht : m.tableAt root va k = some t) :
    Reads m root va k (m.mem t (tableIndex va k)) := ⟨hk, t, ht, rfl⟩

/-- An entry above one that is read leads to a table. -/
theorem Reads.above {k n : ℕ} {e e' : U64} (h : Reads m root va k e) (h' : Reads m root va n e')
    (hkn : k < n) : ∃ t, pteChild e = some t := by
  obtain ⟨-, t, ht, rfl⟩ := h
  obtain ⟨-, t', ht', -⟩ := h'
  obtain ⟨u, hu⟩ := tableAt_of_le (Nat.succ_le_of_lt hkn) ht'
  rw [tableAt_succ, ht, Option.bind_some] at hu
  exact ⟨u, hu⟩

theorem allFrom_step {P : U64 → Prop} {j : ℕ} {e : U64} (h : Reads m root va j e) :
    AllFrom m root va j P ↔ P e ∧ AllFrom m root va (j + 1) P := by
  constructor
  · exact fun hall => ⟨hall j e le_rfl h, fun k e' hk => hall k e' (by omega)⟩
  · rintro ⟨he, hall⟩ k e' hk hread
    rcases Nat.eq_or_lt_of_le hk with rfl | hlt
    · rwa [hread.unique h]
    · exact hall k e' hlt hread

/-- Below an entry that leads to no table nothing is read. -/
theorem allFrom_below {P : U64 → Prop} {j : ℕ} {e : U64} (h : Reads m root va j e)
    (hchild : pteChild e = none) : AllFrom m root va (j + 1) P := by
  intro k e' hk hread
  obtain ⟨t, ht⟩ := h.above hread hk
  cases hchild.symm.trans ht

theorem allFrom_last {P : U64 → Prop} : AllFrom m root va 4 P := fun k _ hk hread =>
  absurd hread.1 (by omega)

/-- The rights that a walk finds left, in terms of the entries it reads. -/
structure Grants (m : MmState) (root : ℕ) (va : U64) (j : ℕ) (t T : Translation) : Prop where
  writable : T.writable = true ↔ t.writable = true ∧
    AllFrom m root va j fun entry => hasFlag entry mmPteWritable = true
  user : T.user = true ↔ t.user = true ∧
    AllFrom m root va j fun entry => hasFlag entry mmPteUser = true
  execute : T.noExecute = false ↔ t.noExecute = false ∧
    AllFrom m root va j fun entry => hasFlag entry mmPteNx = false

/-- The rights behind one more entry. -/
theorem Grants.through {j frame : ℕ} {t T : Translation} {e : U64} (hread : Reads m root va j e)
    (h : Grants m root va (j + 1) (t.through e frame) T) : Grants m root va j t T where
  writable := by
    rw [h.writable, allFrom_step hread, Translation.through, Bool.and_eq_true, and_assoc]
  user := by
    rw [h.user, allFrom_step hread, Translation.through, Bool.and_eq_true, and_assoc]
  execute := by
    rw [h.execute, allFrom_step hread, Translation.through, Bool.or_eq_false_iff, and_assoc]

/-- Nothing more is read. -/
theorem Grants.refl {j : ℕ} (h : ∀ P, AllFrom m root va j P) (t : Translation) :
    Grants m root va j t t :=
  ⟨(and_iff_left (h _)).symm, (and_iff_left (h _)).symm, (and_iff_left (h _)).symm⟩

/-- What a walk of the processor from the level `3 - n` finds. -/
theorem translateFrom_spec (n : ℕ) (hn : n ≤ 3) {t T : Translation}
    (ht : m.tableAt root va (3 - n) = some t.frame)
    (h : translateFrom m.mem va n t = some T) :
    (∃ k entry, Reads m root va k entry ∧ MapsTo va k entry T.frame) ∧
      Grants m root va (3 - n) t T := by
  induction n generalizing t with
  | zero =>
    have hread := reads_of_tableAt le_rfl ht
    rw [translateFrom] at h
    split at h
    next hpresent =>
      cases h
      exact ⟨⟨3, _, hread, .inl ⟨rfl, hpresent, rfl⟩⟩, .through hread (.refl (fun _ => allFrom_last) _)⟩
    · cases h
  | succ n ih =>
    have hread := reads_of_tableAt (by omega) ht
    have hlevel : 3 - n = 3 - (n + 1) + 1 := by omega
    have hindex : 2 - n = 3 - (n + 1) := by omega
    rw [translateFrom, hindex] at h
    split at h
    · cases h
    next hpresent =>
    rw [Bool.not_eq_false] at hpresent
    split at h
    next hlarge =>
      have hlarge' : isLarge (m.mem t.frame (tableIndex va (3 - (n + 1)))) = true := by
        rw [isLarge, hpresent, hlarge]
        rfl
      split at h
      · cases h
      next hne =>
        cases h
        refine ⟨⟨_, _, hread, .inr ⟨by omega, hlarge', ?_⟩⟩, .through hread
          (.refl (fun _ => allFrom_below hread (pteChild_of_isLarge hlarge')) _)⟩
        have hback : 3 - (3 - (n + 1)) = n + 1 := by omega
        rw [hback]
        rfl
    next hlarge =>
      have hchild := pteChild_of_present hpresent
        (by rw [isLarge, Bool.eq_false_iff.2 hlarge, Bool.and_false])
      have hnext : m.tableAt root va (3 - n) =
          some (t.through (m.mem t.frame (tableIndex va (3 - (n + 1))))
            (pteFrame (m.mem t.frame (tableIndex va (3 - (n + 1)))))).frame := by
        rw [hlevel, tableAt_succ, ht, Option.bind_some]
        exact hchild
      obtain ⟨hmaps, hgrants⟩ := ih (by omega) hnext h
      rw [hlevel] at hgrants
      exact ⟨hmaps, hgrants.through hread⟩

/-- A walk of the processor finds the entry that maps the page. -/
theorem translateFrom_isSome (n : ℕ) (hn : n ≤ 3) {t : Translation}
    (ht : m.tableAt root va (3 - n) = some t.frame) {k frame : ℕ} {entry : U64} (hk : 3 - n ≤ k)
    (hread : Reads m root va k entry) (hmaps : MapsTo va k entry frame) :
    ∃ T, translateFrom m.mem va n t = some T := by
  induction n generalizing t with
  | zero =>
    obtain ⟨hk3, t', ht', rfl⟩ := hread
    obtain rfl : k = 3 := by omega
    obtain rfl := Option.some.inj (ht.symm.trans ht')
    rw [translateFrom]
    rcases hmaps with ⟨-, hpresent, -⟩ | ⟨hk', -⟩
    · rw [if_pos hpresent]
      exact ⟨_, rfl⟩
    · omega
  | succ n ih =>
    have hhere := reads_of_tableAt (by omega) ht
    have hlevel : 3 - n = 3 - (n + 1) + 1 := by omega
    have hindex : 2 - n = 3 - (n + 1) := by omega
    rw [translateFrom, hindex]
    rcases Nat.eq_or_lt_of_le hk with rfl | hlt
    · rw [hhere.unique hread]
      rcases hmaps with ⟨hk3, -⟩ | ⟨hk', hlarge, -⟩
      · omega
      · rw [isLarge, Bool.and_eq_true] at hlarge
        rw [if_neg (by rw [hlarge.1]; exact Bool.noConfusion), if_pos hlarge.2, if_neg (by omega)]
        exact ⟨_, rfl⟩
    · obtain ⟨u, hu⟩ := hhere.above hread hlt
      have hlarge := isLarge_of_pteChild hu
      have hnext := hu
      rw [pteChild] at hu
      split at hu
      next hcond =>
        rw [Bool.and_eq_true, Bool.not_eq_true'] at hcond
        rw [if_neg (by rw [hcond.1]; exact Bool.noConfusion),
          if_neg (by rw [hcond.2]; exact Bool.noConfusion)]
        refine ih (by omega) ?_ (by omega)
        rw [hlevel, tableAt_succ, ht, Option.bind_some, hnext]
        exact hu.symm
      · cases hu

/-- Only one entry maps the page. -/
theorem MapsTo.unique {k k' frame frame' : ℕ} {e e' : U64} (h : MapsTo va k e frame)
    (h' : MapsTo va k' e' frame') (hread : Reads m root va k e) (hread' : Reads m root va k' e') :
    frame = frame' := by
  have hlast : ∀ {k k' frame e e'}, MapsTo va k e frame → Reads m root va k e →
      Reads m root va k' e' → ¬k < k' := by
    intro k k' frame e e' h hread hread' hlt
    obtain ⟨t, ht⟩ := hread.above hread' hlt
    rcases h with ⟨rfl, -⟩ | ⟨-, hlarge, -⟩
    · have := hread'.1
      omega
    · cases (pteChild_of_isLarge hlarge).symm.trans ht
  obtain rfl : k = k' := Nat.le_antisymm (Nat.not_lt.1 (hlast h' hread' hread))
    (Nat.not_lt.1 (hlast h hread hread'))
  obtain rfl := hread.unique hread'
  rcases h with ⟨rfl, -, rfl⟩ | ⟨hk, -, rfl⟩ <;> rcases h' with ⟨hk', -, rfl⟩ | ⟨hk', -, rfl⟩
  · rfl
  · omega
  · omega
  · rfl

/-- A translation is the frame of the entry that maps the page, with the rights that all entries
on the way grant. -/
theorem translate_spec {T : Translation} (h : m.translate a va = some T) :
    (∃ k entry, Reads m (m.rootFrame a) va k entry ∧ MapsTo va k entry T.frame) ∧
      Grants m (m.rootFrame a) va 0 ⟨m.rootFrame a, true, true, false⟩ T :=
  translateFrom_spec 3 le_rfl rfl h

theorem translate_of_mapsTo {k frame : ℕ} {entry : U64}
    (hread : Reads m (m.rootFrame a) va k entry) (hmaps : MapsTo va k entry frame) :
    ∃ T, m.translate a va = some T ∧ T.frame = frame ∧
      Grants m (m.rootFrame a) va 0 ⟨m.rootFrame a, true, true, false⟩ T := by
  obtain ⟨T, hT⟩ := translateFrom_isSome 3 le_rfl (t := ⟨m.rootFrame a, true, true, false⟩) rfl
    (Nat.zero_le k) hread hmaps
  obtain ⟨⟨k', e', hread', hmaps'⟩, hgrants⟩ := translate_spec hT
  exact ⟨T, hT, hmaps'.unique hmaps hread' hread, hgrants⟩

/-! ## What a walk does to the entries of old tables -/

/-- `MmAllocPage` finds a page. -/
def CanAlloc (m : MmState) : Prop := m.ready = true ∧ ∃ f, Free m f

theorem mmAllocPage_error {m₁ : MmState} {e : KStatus} (h : mmAllocPage m = (m₁, .error e)) :
    m₁ = m ∧ ¬CanAlloc m := by
  rw [mmAllocPage] at h
  split at h
  next hready =>
    cases h
    exact ⟨rfl, fun hcan => Bool.false_ne_true (hready.symm.trans hcan.1)⟩
  · rcases mmpAllocPageInternal_cases m 1 with ⟨hall, e', heq⟩ | ⟨page, -, -, heq⟩
    · cases heq.symm.trans h
      refine ⟨rfl, ?_⟩
      rintro ⟨-, f, hf, hfree⟩
      exact Bool.false_ne_true (hfree.symm.trans (hall f hf))
    · cases heq.symm.trans h

/-- The entry at the level `k` on the walk for `va'` is on the way of the walk for `va`: it leads to
a table there. -/
def OnTheWay (va va' : U64) (k : ℕ) (entry : U64) : Prop :=
  k ≤ 2 ∧ vaPath va' (k + 1) = vaPath va (k + 1) ∧ pteChild entry ≠ none

instance (va va' : U64) (k : ℕ) (entry : U64) : Decidable (OnTheWay va va' k entry) :=
  inferInstanceAs (Decidable (_ ∧ _))

/-- An entry after a walk for `va` from the level `n` on. -/
def entryAfter (va va' : U64) (n k : ℕ) (entry : U64) : U64 :=
  if mmpIsUserAddress va = true ∧ n ≤ k ∧ OnTheWay va va' k entry then sanitizeEntry entry
  else entry

/-- The walk for `va` splits the entry. -/
def Splits (m : MmState) (va va' : U64) (k : ℕ) (entry : U64) : Prop :=
  k = 2 ∧ vaPath va' 3 = vaPath va 3 ∧ isLarge entry = true ∧ CanAlloc m

/-- What the walk for `va` from the level `n` on does to the entries of the tables that were
there. -/
structure WalkEffect (root : ℕ) (va : U64) (n : ℕ) (m m' : MmState) : Prop where
  kept : ∀ va' k entry t, m.tableAt root va' k = some t → m.mem t (tableIndex va' k) = entry →
    k ≤ 3 → hasFlag entry mmPtePresent = true → ¬Splits m va va' k entry →
      m'.mem t (tableIndex va' k) = entryAfter va va' n k entry
  split : ∀ d entry, m.tableAt root va 2 = some d → m.mem d (tableIndex va 2) = entry →
    n ≤ 2 → isLarge entry = true → CanAlloc m →
      ∃ q < 2 ^ 40, m'.mem d (tableIndex va 2) = splitTableEntry va (pageAddress q) ∧
        ∀ j, m'.mem q j = splitEntry entry j

/-- A round of the walk where the entry leads to a table. -/
theorem mmpWalkLevel_of_child {u n t : ℕ} (h : pteChild (m.mem u (tableIndex va n)) = some t) :
    mmpWalkLevel m u n va true =
      (if mmpIsUserAddress va = true then
          m.writeEntry u (tableIndex va n) (sanitizeEntry (m.mem u (tableIndex va n)))
        else m, .ok t) := by
  generalize hentry : m.mem u (tableIndex va n) = entry at h
  have hlarge := isLarge_of_pteChild h
  have hpresent : hasFlag entry mmPtePresent = true := by
    rw [pteChild] at h
    split at h
    next hcond =>
      rw [Bool.and_eq_true] at hcond
      exact hcond.1
    · cases h
  have hframe : pteFrame entry = t :=
    Option.some.inj ((pteChild_of_present hpresent hlarge).symm.trans h)
  have hsplit : mmpSplitLarge m u n va true = (m, .ok entry) := by
    rw [isLarge] at hlarge
    rw [mmpSplitLarge]
    dsimp only
    rw [hentry, if_neg (by rw [hlarge]; exact Bool.noConfusion)]
  have hsanitize : mmpSanitize m u n va true entry =
      if mmpIsUserAddress va = true then
        (m.writeEntry u (tableIndex va n) (sanitizeEntry entry), sanitizeEntry entry)
      else (m, entry) := by
    rw [mmpSanitize, hpresent, Bool.true_and, Bool.and_true]
    split
    · split
      · rfl
      next hsame =>
        have hsame := not_not.1 hsame
        have hwrite : m.writeEntry u (tableIndex va n) entry = m := by
          rw [MmState.writeEntry, ← hentry, Function.update_eq_self, Function.update_eq_self]
        rw [hsame, hwrite]
    · rfl
  have hadd : ∀ m₁ entry₁, hasFlag entry₁ mmPtePresent = true →
      mmpAddTable m₁ u n va true entry₁ = (m₁, .ok entry₁) := fun m₁ entry₁ hp => by
    rw [mmpAddTable, if_pos hp]
  rw [mmpWalkLevel, hsplit]
  dsimp only
  by_cases huser : mmpIsUserAddress va = true
  · have hpresent' : hasFlag (sanitizeEntry entry) mmPtePresent = true := by
      rw [hasFlag_sanitizeEntry entry (by decide) (by decide)]
      exact hpresent
    have hopened := pteChild_sanitizeEntry entry
    rw [h, pteChild_of_present hpresent' (by rw [isLarge_sanitizeEntry]; exact hlarge)] at hopened
    rw [if_pos huser] at hsanitize
    rw [hsanitize, if_pos huser]
    dsimp only
    rw [hadd _ _ hpresent', ← Option.some.inj hopened]
  · rw [if_neg huser] at hsanitize
    rw [hsanitize, if_neg huser]
    dsimp only
    rw [hadd _ _ hpresent]
    dsimp only
    rw [hframe]

/-- A round of the walk where there is no table: no page is left, or an empty one is linked. -/
theorem mmpWalkLevel_of_absent {u n : ℕ}
    (h : hasFlag (m.mem u (tableIndex va n)) mmPtePresent = false) :
    ((∃ e, mmpWalkLevel m u n va true = (m, .error e)) ∧ ¬CanAlloc m) ∨
      ∃ q, Free m q ∧ mmpWalkLevel m u n va true =
        (((m.takePage q 1).fillFrame q fun _ => 0).writeEntry u (tableIndex va n)
          (newTableEntry va (pageAddress q)), .ok q) := by
  have hsplit : mmpSplitLarge m u n va true = (m, .ok (m.mem u (tableIndex va n))) := by
    rw [mmpSplitLarge]
    dsimp only
    rw [h, if_neg (by rw [Bool.false_and]; exact Bool.noConfusion)]
  have hsanitize : mmpSanitize m u n va true (m.mem u (tableIndex va n)) =
      (m, m.mem u (tableIndex va n)) := by
    rw [mmpSanitize, h, if_neg (by rw [Bool.false_and, Bool.false_and]; exact Bool.noConfusion)]
  rw [mmpWalkLevel, hsplit]
  dsimp only
  rw [hsanitize]
  dsimp only
  rw [mmpAddTable, h, if_neg Bool.false_ne_true, if_neg (Bool.noConfusion : ¬true = false)]
  rcases mmAllocPage_cases m with ⟨e, heq⟩ | ⟨q, hq, hfree, -, heq⟩
  · have hno := (mmAllocPage_error heq).2
    rw [heq]
    exact .inl ⟨⟨_, rfl⟩, hno⟩
  · rw [heq]
    have hq40 := lt_of_lt_trackedPages hq
    have hframe := pteChild_newTableEntry va hq40
    rw [pteChild] at hframe
    split at hframe
    · refine .inr ⟨q, ⟨hq, hfree⟩, ?_⟩
      dsimp only
      rw [pteFrame_pageAddress hq40, Option.some.inj hframe]
    · cases hframe

theorem mem_writeEntry_self (m : MmState) (u : ℕ) (i : TableIx) (entry : U64) :
    (m.writeEntry u i entry).mem u i = entry := by
  show Function.update m.mem u _ u i = entry
  rw [Function.update_self, Function.update_self]

theorem mem_writeEntry_of_ne (m : MmState) {u : ℕ} {i : TableIx} (entry : U64) {t : ℕ}
    {j : TableIx} (h : t ≠ u ∨ j ≠ i) : (m.writeEntry u i entry).mem t j = m.mem t j := by
  show Function.update m.mem u _ t j = m.mem t j
  by_cases ht : t = u
  · rw [ht, Function.update_self, Function.update_of_ne (h.resolve_left (not_not.2 ht))]
  · rw [Function.update_of_ne ht]

theorem mem_fillFrame_self (m : MmState) (q : ℕ) (words : TableIx → U64) :
    (m.fillFrame q words).mem q = words := Function.update_self ..

theorem mem_fillFrame_of_ne (m : MmState) {q t : ℕ} (words : TableIx → U64) (h : t ≠ q) :
    (m.fillFrame q words).mem t = m.mem t := Function.update_of_ne h ..

/-- Linking a page that was free changes no other page, but for the entry. -/
theorem mem_link {u q : ℕ} (i : TableIx) (entry : U64) (words : TableIx → U64) {f : ℕ}
    (hfq : f ≠ q) (j : TableIx) (hslot : f ≠ u ∨ j ≠ i) :
    (((m.takePage q 1).fillFrame q words).writeEntry u i entry).mem f j = m.mem f j := by
  rw [mem_writeEntry_of_ne _ _ hslot, mem_fillFrame_of_ne _ _ hfq, MmState.mem_takePage]

/-- A walk through a new, empty table leaves the pages in use as they are. -/
theorem mem_mmpWalkTables_of_empty (k n : ℕ) {q : ℕ} (hq : ¬Free m q)
    (hzero : ∀ i, m.mem q i = 0) {f : ℕ} (hf : ¬Free m f) (hfq : f ≠ q) :
    (mmpWalkTables va true k n q m).1.mem f = m.mem f := by
  induction k generalizing n q m with
  | zero => rfl
  | succ k ih =>
    rw [mmpWalkTables]
    have habsent : hasFlag (m.mem q (tableIndex va n)) mmPtePresent = false := by
      rw [hzero]
      decide
    rcases mmpWalkLevel_of_absent habsent with ⟨⟨e, heq⟩, -⟩ | ⟨q', hq', heq⟩
    · rw [heq]
    · rw [heq]
      dsimp only
      have hne : q ≠ q' := fun h => hq (h ▸ hq')
      have hfq' : f ≠ q' := fun h => hf (h ▸ hq')
      generalize hm₁ : ((m.takePage q' 1).fillFrame q' fun _ => 0).writeEntry q (tableIndex va n)
        (newTableEntry va (pageAddress q')) = m₁
      have hlive : ∀ f, Free m₁ f → Free m f ∧ f ≠ q' := by
        intro f hfree
        rw [← hm₁] at hfree
        obtain ⟨hlt, hallocated⟩ := hfree
        have htake : mmpIsPageAllocated (m.takePage q' 1) f = false := hallocated
        rw [MmState.allocated_takePage, Bool.or_eq_false_iff] at htake
        exact ⟨⟨hlt, htake.2⟩, of_decide_eq_false htake.1⟩
      rw [ih (n + 1) (fun h => (hlive q' h).2 rfl) (fun i => ?_) (fun h => hf (hlive f h).1) hfq',
        ← hm₁]
      · exact funext fun j => mem_link _ _ _ hfq' j (.inl hfq)
      · rw [← hm₁, mem_writeEntry_of_ne _ _ (.inl hne.symm), mem_fillFrame_self]

/-- An entry for a table that replaces a large entry is open to the user already. -/
theorem mmpSanitize_splitTableEntry (m : MmState) (u n : ℕ) (va : U64) (create : Bool) {q : ℕ}
    (hq : q < 2 ^ 40) : mmpSanitize m u n va create (splitTableEntry va (pageAddress q)) =
      (m, splitTableEntry va (pageAddress q)) := by
  have hopen : mmpIsUserAddress va = true →
      sanitizeEntry (splitTableEntry va (pageAddress q)) = splitTableEntry va (pageAddress q) := by
    intro huser
    rw [mmpIsUserAddress, Bool.and_eq_true, decide_eq_true_iff, decide_eq_true_iff] at huser
    rw [sanitizeEntry, splitTableEntry, if_pos huser.2, BitVec.or_assoc _ mmPteUser mmPteUser,
      BitVec.or_self]
    generalize he : pageAddress q ||| mmPtePresent ||| mmPteWritable ||| mmPteUser = entry
    have hnx : entry &&& mmPteNx = 0 := by
      rw [← hasFlag_eq_false, ← he, BitVec.or_assoc, BitVec.or_assoc,
        hasFlag_pageAddress_or hq (by decide)]
      decide
    have hsum := toNat_and_add_toNat_and_not entry mmPteNx
    have hzero : (0 : U64).toNat = 0 := rfl
    rw [hnx, hzero, Nat.zero_add] at hsum
    exact BitVec.eq_of_toNat_eq hsum
  rw [mmpSanitize]
  split
  next hcond =>
    rw [Bool.and_eq_true, Bool.and_eq_true] at hcond
    rw [if_neg (not_not.2 (hopen hcond.1.2))]
  · rfl

/-- A large entry: nothing happens, or a page with its parts takes its place. -/
theorem mmpWalkLevel_of_large {u n : ℕ} (h : isLarge (m.mem u (tableIndex va n)) = true) :
    ((mmpWalkLevel m u n va true).1 = m ∧ (∃ e, (mmpWalkLevel m u n va true).2 = .error e) ∧
        ¬(n = 2 ∧ CanAlloc m)) ∨
      n = 2 ∧ CanAlloc m ∧ ∃ q < 2 ^ 40, Free m q ∧ mmpWalkLevel m u n va true =
        (((m.takePage q 1).fillFrame q (splitEntry (m.mem u (tableIndex va n)))).writeEntry u
          (tableIndex va n) (splitTableEntry va (pageAddress q)), .ok q) := by
  have hcond := h
  rw [isLarge] at hcond
  rw [mmpWalkLevel, mmpSplitLarge]
  dsimp only
  rw [if_pos hcond]
  by_cases hlevel : n = 2
  swap
  · rw [if_pos hlevel]
    exact .inl ⟨rfl, ⟨_, rfl⟩, fun hn => hlevel hn.1⟩
  rw [if_neg (not_not.2 hlevel), if_neg (Bool.noConfusion : ¬true = false)]
  rcases halloc : mmAllocPage m with ⟨m₁, e | pa⟩
  · obtain ⟨rfl, hno⟩ := mmAllocPage_error halloc
    exact .inl ⟨rfl, ⟨_, rfl⟩, fun hn => hno hn.2⟩
  rcases mmAllocPage_cases m with ⟨e, heq⟩ | ⟨q, hq, hfree, hready, heq⟩
  · cases heq.symm.trans halloc
  cases heq.symm.trans halloc
  have hq40 := lt_of_lt_trackedPages hq
  refine .inr ⟨hlevel, ⟨hready, q, hq, hfree⟩, q, hq40, ⟨hq, hfree⟩, ?_⟩
  have hchild := pteChild_splitTableEntry va hq40
  have hadd : ∀ m₁, mmpAddTable m₁ u n va true (splitTableEntry va (pageAddress q)) =
      (m₁, .ok (splitTableEntry va (pageAddress q))) := by
    intro m₁
    rw [mmpAddTable]
    rw [pteChild] at hchild
    split at hchild
    next hcond =>
      rw [Bool.and_eq_true] at hcond
      rw [if_pos hcond.1]
    · cases hchild
  have hframe : pteFrame (splitTableEntry va (pageAddress q)) = q := by
    rw [pteChild] at hchild
    split at hchild
    · exact Option.some.inj hchild
    · cases hchild
  dsimp only
  rw [mmpSanitize_splitTableEntry _ _ _ _ _ hq40]
  dsimp only
  rw [hadd]
  dsimp only
  rw [hframe, pteFrame_pageAddress hq40]

/-- A table of the tree that is read on two walks is read at one level, on one path. -/
theorem TablesOk.same_slot (ok : TablesOk Set.univ {root} m) {k n t : ℕ} (hk : k ≤ 3) (hn : n ≤ 3)
    (ht : m.tableAt root va' k = some t) (hu : m.tableAt root va n = some t)
    (hi : tableIndex va' k = tableIndex va n) :
    k = n ∧ vaPath va' (k + 1) = vaPath va (k + 1) := by
  have hpath := ok.depth rfl rfl (Set.mem_univ va') (Set.mem_univ va) hk hn ht hu
  have hlength := congrArg List.length hpath
  rw [length_vaPath, length_vaPath] at hlength
  subst hlength
  exact ⟨rfl, by rw [vaPath, vaPath, hpath, hi]⟩

/-- A table that two walks share to one level more. -/
theorem tableAt_of_vaPath (m : MmState) (root : ℕ) {k : ℕ} (h : vaPath va' (k + 1) = vaPath va (k + 1)) :
    m.tableAt root va' k = m.tableAt root va k ∧ tableIndex va' k = tableIndex va k := by
  have hsplit := List.append_inj' (show vaPath va' k ++ [tableIndex va' k] = _ from h) rfl
  exact ⟨by rw [MmState.tableAt, MmState.tableAt, hsplit.1], (List.cons.inj hsplit.2).1⟩

/-- Where the entry leads to no table, no walk goes on in the tables that were there. -/
theorem not_onTheWay {u n : ℕ} (hu : m.tableAt root va n = some u)
    (hchild : pteChild (m.mem u (tableIndex va n)) = none) {k t : ℕ} (hk : n ≤ k)
    (ht : m.tableAt root va' k = some t) :
    ¬OnTheWay va va' k (m.mem t (tableIndex va' k)) := by
  rintro ⟨-, hpath, hleads⟩
  obtain ⟨hsame, hi⟩ := tableAt_of_vaPath m root hpath
  rw [hsame] at ht
  rcases Nat.eq_or_lt_of_le hk with rfl | hlt
  · obtain rfl := Option.some.inj (hu.symm.trans ht)
    rw [hi] at hleads
    exact hleads hchild
  · obtain ⟨w, hw⟩ := tableAt_of_le (Nat.succ_le_of_lt hlt) ht
    rw [tableAt_succ, hu, Option.bind_some, hchild] at hw
    cases hw

/-- A walk that stops at an entry that leads to no table, and writes none of the entries that were
there but this one. -/
theorem WalkEffect.of_stop {u n : ℕ} (hu : m.tableAt root va n = some u)
    (hchild : pteChild (m.mem u (tableIndex va n)) = none)
    (hkept : ∀ va' k entry t, m.tableAt root va' k = some t → m.mem t (tableIndex va' k) = entry →
      k ≤ 3 → hasFlag entry mmPtePresent = true → ¬Splits m va va' k entry →
        m'.mem t (tableIndex va' k) = entry)
    (hsplit : n = 2 → isLarge (m.mem u (tableIndex va n)) = true → CanAlloc m →
      ∃ q < 2 ^ 40, m'.mem u (tableIndex va n) = splitTableEntry va (pageAddress q) ∧
        ∀ j, m'.mem q j = splitEntry (m.mem u (tableIndex va n)) j) :
    WalkEffect root va n m m' := by
  refine ⟨fun va' k entry t ht hentry hk hpresent hno => ?_,
    fun d entry hd hentry hn2 hlarge hcan => ?_⟩
  · rw [hkept va' k entry t ht hentry hk hpresent hno, entryAfter, if_neg]
    rintro ⟨-, hnk, hway⟩
    rw [← hentry] at hway
    exact not_onTheWay hu hchild hnk ht hway
  · rcases Nat.eq_or_lt_of_le hn2 with rfl | hlt
    · obtain rfl := Option.some.inj (hu.symm.trans hd)
      rw [← hentry] at hlarge ⊢
      exact hsplit rfl hlarge hcan
    · obtain ⟨w, hw⟩ := tableAt_of_le (Nat.succ_le_of_lt hlt) hd
      rw [tableAt_succ, hu, Option.bind_some, hchild] at hw
      cases hw

/-- A walk that goes on below an entry, which it opens to the user. -/
theorem WalkEffect.of_child (ok : TablesOk Set.univ {root} m) {u n next : ℕ} (hn : n ≤ 2)
    (hu : m.tableAt root va n = some u) (hchild : pteChild (m.mem u (tableIndex va n)) = some next)
    {m₁ : MmState} (hm₁ : m₁ = if mmpIsUserAddress va = true then
      m.writeEntry u (tableIndex va n) (sanitizeEntry (m.mem u (tableIndex va n))) else m)
    (htable : ∀ va' k, k ≤ 3 → m₁.tableAt root va' k = m.tableAt root va' k)
    (h : WalkEffect root va (n + 1) m₁ m') : WalkEffect root va n m m' := by
  have hmem : ∀ t j, (t = u ∧ j = tableIndex va n → m₁.mem t j =
      if mmpIsUserAddress va = true then sanitizeEntry (m.mem t j) else m.mem t j) ∧
        (¬(t = u ∧ j = tableIndex va n) → m₁.mem t j = m.mem t j) := by
    intro t j
    rw [hm₁]
    split
    · refine ⟨fun ⟨ht, hj⟩ => ?_, fun hne => mem_writeEntry_of_ne _ _ (not_and_or.1 hne)⟩
      rw [ht, hj, mem_writeEntry_self]
    · exact ⟨fun _ => rfl, fun _ => rfl⟩
  have hcan : CanAlloc m₁ ↔ CanAlloc m := by
    rw [hm₁]
    split <;> exact Iff.rfl
  refine ⟨fun va' k entry t ht hentry hk hpresent hno => ?_,
    fun d entry hd hentry hn2 hlarge halloc => ?_⟩
  · by_cases hslot : t = u ∧ tableIndex va' k = tableIndex va n
    · obtain ⟨rfl, hpath⟩ :=
        ok.same_slot hk (by omega) ht (hslot.1 ▸ hu) hslot.2
      have hentry₁ := (hmem t (tableIndex va' k)).1 hslot
      have hleads : pteChild entry = some next := by rw [← hentry, hslot.1, hslot.2, hchild]
      have hway : OnTheWay va va' k entry := ⟨hn, hpath, by rw [hleads]; exact Option.some_ne_none _⟩
      have hlarge := isLarge_of_pteChild hleads
      rw [hentry] at hentry₁
      rw [entryAfter]
      rw [h.kept va' k _ t ((htable va' k hk).trans ht) hentry₁ hk ?_ ?_, entryAfter,
        if_neg (fun hlt => by have := hlt.2.1; omega)]
      · by_cases huser : mmpIsUserAddress va = true
        · rw [if_pos huser, if_pos ⟨huser, le_rfl, hway⟩]
        · rw [if_neg huser, if_neg (fun hu => huser hu.1)]
      · split
        · rw [hasFlag_sanitizeEntry entry (by decide) (by decide)]
          exact hpresent
        · exact hpresent
      · rintro ⟨-, -, hlarge', -⟩
        have : isLarge (if mmpIsUserAddress va = true then sanitizeEntry entry else entry) =
            isLarge entry := by
          split
          · exact isLarge_sanitizeEntry entry
          · rfl
        rw [this, hlarge] at hlarge'
        cases hlarge'
    · have hentry₁ := (hmem t (tableIndex va' k)).2 hslot
      rw [h.kept va' k entry t ((htable va' k hk).trans ht) (hentry₁.trans hentry) hk hpresent
        (fun hs => hno ⟨hs.1, hs.2.1, hs.2.2.1, hcan.1 hs.2.2.2⟩), entryAfter, entryAfter]
      refine if_congr (and_congr_right fun _ => ⟨fun ⟨hk', hway⟩ => ⟨by omega, hway⟩,
        fun ⟨hk', hway⟩ => ⟨?_, hway⟩⟩) rfl rfl
      rcases Nat.eq_or_lt_of_le hk' with rfl | hlt
      · obtain ⟨hsame, hi⟩ := tableAt_of_vaPath m root hway.2.1
        exact absurd ⟨Option.some.inj (ht.symm.trans (hsame.trans hu)), hi⟩ hslot
      · exact hlt
  · have hne : ¬(d = u ∧ tableIndex va 2 = tableIndex va n) := by
      rintro ⟨rfl, hi⟩
      rw [← hi, hentry] at hchild
      rw [isLarge_of_pteChild hchild] at hlarge
      cases hlarge
    have hn1 : n + 1 ≤ 2 := by
      by_contra hn3
      obtain rfl : n = 2 := by omega
      exact hne ⟨Option.some.inj (hd.symm.trans hu), rfl⟩
    exact h.split d entry ((htable va 2 (by omega)).trans hd) (((hmem d _).2 hne).trans hentry) hn1
      hlarge (hcan.2 halloc)

/-- What the loop of the walk does to the entries of the tables that were there. -/
theorem mmpWalkTables_effect (ok : TablesOk Set.univ {root} m) (k : ℕ) {n u : ℕ}
    (hn : n + k = 3) (hu : m.tableAt root va n = some u) :
    WalkEffect root va n m (mmpWalkTables va true k n u m).1 := by
  induction k generalizing n u m with
  | zero =>
    refine ⟨fun va' k entry t _ hentry hk _ _ => ?_, fun d entry _ _ hn2 => by omega⟩
    rw [entryAfter, if_neg (fun h => by have := h.2.2.1; omega)]
    exact hentry
  | succ k ih =>
    have hlive : ∀ {va' : U64} {k t : ℕ}, k ≤ 3 → m.tableAt root va' k = some t → ¬Free m t :=
      fun hk ht => ok.live _ ⟨root, rfl, _, vaPath_mem (Set.mem_univ _) hk, ht⟩
    rw [mmpWalkTables]
    cases hchild : pteChild (m.mem u (tableIndex va n)) with
    | some next =>
      rw [mmpWalkLevel_of_child hchild]
      dsimp only
      generalize hm₁ : (if mmpIsUserAddress va = true then
        m.writeEntry u (tableIndex va n) (sanitizeEntry (m.mem u (tableIndex va n))) else m) = m₁
      have hw : Walked Set.univ {root} m m₁ := by
        rw [← hm₁]
        split
        · exact ok.sanitize rfl (Set.mem_univ va) (by omega) hu (isLarge_of_pteChild hchild)
        · exact .refl ok
      have hfollow : ∀ va' k, k ≤ 3 → m₁.tableAt root va' k = m.tableAt root va' k := by
        intro va' k hk
        refine follow_congr (tablePaths_closed Set.univ) (fun _ j _ t _ => ?_)
          (vaPath_mem (Set.mem_univ va') hk)
        rw [← hm₁]
        split
        · by_cases hslot : t = u ∧ j = tableIndex va n
          · rw [hslot.1, hslot.2, mem_writeEntry_self, pteChild_sanitizeEntry]
          · rw [mem_writeEntry_of_ne _ _ (not_and_or.1 hslot)]
        · rfl
      refine .of_child ok (by omega) hu hchild hm₁.symm hfollow (ih hw.tables (by omega) ?_)
      rw [hfollow va (n + 1) (by omega), tableAt_succ, hu, Option.bind_some, hchild]
    | none =>
      by_cases hlarge : isLarge (m.mem u (tableIndex va n)) = true
      · rcases mmpWalkLevel_of_large hlarge with ⟨heq, ⟨e, he⟩, hno⟩ | ⟨hn2, hcan, q, hq, hfree, heq⟩
        · generalize mmpWalkLevel m u n va true = r at heq he
          obtain ⟨m₁, r⟩ := r
          dsimp only at heq he
          rw [he]
          dsimp only
          rw [heq]
          exact .of_stop hu hchild (fun _ _ _ _ _ hentry _ _ _ => hentry)
            fun hn2 _ hcan => absurd ⟨hn2, hcan⟩ hno
        · rw [heq]
          obtain rfl : k = 0 := by omega
          dsimp only [mmpWalkTables]
          have huq : u ≠ q := fun h => hlive (by omega) hu (h ▸ hfree)
          refine .of_stop hu hchild (fun va' j entry t ht hentry hj _ hsplits => ?_) fun _ _ _ =>
            ⟨q, hq, ?_, fun j => ?_⟩
          · have htq : t ≠ q := fun h => hlive hj ht (h ▸ hfree)
            rw [mem_link _ _ _ htq, hentry]
            by_contra hslot
            obtain ⟨htu, hi⟩ := not_or.1 hslot
            obtain ⟨rfl, hpath⟩ :=
              ok.same_slot hj (by omega) ht (not_not.1 htu ▸ hu) (not_not.1 hi)
            subst hn2
            refine hsplits ⟨rfl, hpath, ?_, hcan⟩
            rw [← hentry, not_not.1 htu, not_not.1 hi]
            exact hlarge
          · rw [mem_writeEntry_self]
          · rw [mem_writeEntry_of_ne _ _ (.inl huq.symm), mem_fillFrame_self]
      · have habsent : hasFlag (m.mem u (tableIndex va n)) mmPtePresent = false := by
          by_contra hpresent
          rw [pteChild_of_present (Bool.not_eq_false _ ▸ hpresent) (Bool.eq_false_iff.2 hlarge)]
            at hchild
          cases hchild
        rcases mmpWalkLevel_of_absent habsent with ⟨⟨e, heq⟩, -⟩ | ⟨q, hfree, heq⟩
        · rw [heq]
          exact .of_stop hu hchild (fun _ _ _ _ _ hentry _ _ _ => hentry)
            fun _ hl => absurd hl hlarge
        · rw [heq]
          dsimp only
          refine .of_stop hu hchild (fun va' j entry t ht hentry hj hpresent _ => ?_)
            fun _ hl => absurd hl hlarge
          have htq : t ≠ q := fun h => hlive hj ht (h ▸ hfree)
          have huq : u ≠ q := fun h => hlive (by omega) hu (h ▸ hfree)
          have htake : ∀ f, ¬Free m f ∨ f = q → ¬Free
              (((m.takePage q 1).fillFrame q fun _ => 0).writeEntry u (tableIndex va n)
                (newTableEntry va (pageAddress q))) f := by
            rintro f hf ⟨hlt, hallocated⟩
            have hnot : mmpIsPageAllocated (m.takePage q 1) f = false := hallocated
            rw [MmState.allocated_takePage, Bool.or_eq_false_iff] at hnot
            rcases hf with hf | rfl
            · exact hf ⟨hlt, hnot.2⟩
            · exact of_decide_eq_false hnot.1 rfl
          rw [mem_mmpWalkTables_of_empty k (n + 1) (htake q (.inr rfl)) (fun i => ?_)
            (htake t (.inl (hlive hj ht))) htq, mem_link _ _ _ htq, hentry]
          · by_contra hslot
            obtain ⟨htu, hi⟩ := not_or.1 hslot
            rw [← hentry, not_not.1 htu, not_not.1 hi, habsent] at hpresent
            cases hpresent
          · rw [mem_writeEntry_of_ne _ _ (.inl huq.symm), mem_fillFrame_self]

/-! ## Entries after the walk -/

theorem hasFlag_entryAfter (va va' : U64) (n k : ℕ) (entry : U64) {f : U64}
    (huser : mmPteUser &&& f = 0) (hnx : mmPteNx &&& f = 0) :
    hasFlag (entryAfter va va' n k entry) f = hasFlag entry f := by
  rw [entryAfter]
  split
  · exact hasFlag_sanitizeEntry entry huser hnx
  · rfl

theorem pteChild_entryAfter (va va' : U64) (n k : ℕ) (entry : U64) :
    pteChild (entryAfter va va' n k entry) = pteChild entry := by
  rw [entryAfter]
  split
  · exact pteChild_sanitizeEntry entry
  · rfl

/-- An entry that maps a page is not on the way. -/
theorem MapsTo.entryAfter {k frame : ℕ} {entry : U64} (h : MapsTo va' k entry frame) :
    entryAfter va va' 0 k entry = entry := by
  rw [Mm.entryAfter, if_neg]
  rintro ⟨-, -, hk, -, hleads⟩
  rcases h with ⟨rfl, -⟩ | ⟨-, hlarge, -⟩
  · omega
  · exact hleads (pteChild_of_isLarge hlarge)

theorem hasFlag_user_entryAfter (va va' : U64) (k : ℕ) (entry : U64) :
    hasFlag (entryAfter va va' 0 k entry) mmPteUser = true ↔
      (mmpIsUserAddress va = true ∧ OnTheWay va va' k entry) ∨ hasFlag entry mmPteUser = true := by
  rw [entryAfter]
  by_cases hway : mmpIsUserAddress va = true ∧ OnTheWay va va' k entry
  · rw [if_pos ⟨hway.1, Nat.zero_le k, hway.2⟩, sanitizeEntry,
      hasFlag_and_not_of_disjoint (by decide), hasFlag_or]
    refine iff_of_true ?_ (.inl hway)
    rw [Bool.or_eq_true]
    exact .inr (by decide)
  · rw [if_neg fun h => hway ⟨h.1, h.2.2⟩]
    exact ⟨.inr, fun h => h.resolve_left hway⟩

theorem hasFlag_nx_entryAfter (va va' : U64) (k : ℕ) (entry : U64) :
    hasFlag (entryAfter va va' 0 k entry) mmPteNx = false ↔
      (mmpIsUserAddress va = true ∧ OnTheWay va va' k entry) ∨ hasFlag entry mmPteNx = false := by
  rw [entryAfter]
  by_cases hway : mmpIsUserAddress va = true ∧ OnTheWay va va' k entry
  · rw [if_pos ⟨hway.1, Nat.zero_le k, hway.2⟩, sanitizeEntry]
    exact iff_of_true hasFlag_and_not_self (.inl hway)
  · rw [if_neg fun h => hway ⟨h.1, h.2.2⟩]
    exact ⟨.inr, fun h => h.resolve_left hway⟩

/-- The entries that a walk of the processor reads are present, where it finds a page. -/
theorem present_of_reads {T : Translation} (hT : m.translate a va' = some T) {k : ℕ} {entry : U64}
    (hread : Reads m (m.rootFrame a) va' k entry) : hasFlag entry mmPtePresent = true := by
  obtain ⟨⟨k₀, e₀, hread₀, hmaps⟩, -⟩ := translate_spec hT
  rcases Nat.lt_trichotomy k k₀ with hlt | rfl | hlt
  · obtain ⟨t, ht⟩ := hread.above hread₀ hlt
    rw [pteChild] at ht
    split at ht
    next hcond =>
      rw [Bool.and_eq_true] at hcond
      exact hcond.1
    · cases ht
  · obtain rfl := hread.unique hread₀
    rcases hmaps with ⟨-, hpresent, -⟩ | ⟨-, hlarge, -⟩
    · exact hpresent
    · rw [isLarge, Bool.and_eq_true] at hlarge
      exact hlarge.1
  · obtain ⟨t, ht⟩ := hread₀.above hread hlt
    rcases hmaps with ⟨rfl, -⟩ | ⟨-, hlarge, -⟩
    · have := hread.1
      omega
    · cases (pteChild_of_isLarge hlarge).symm.trans ht

/-- As far as no entry is split, the same tables are on the way. -/
theorem tableAt_after {T : Translation} (heffect : WalkEffect (m.rootFrame a) va 0 m m')
    (hT : m.translate a va' = some T) {n : ℕ} (hn : n ≤ 3)
    (hno : ∀ k entry, k < n → Reads m (m.rootFrame a) va' k entry → ¬Splits m va va' k entry)
    {k : ℕ} (hk : k ≤ n) :
    m'.tableAt (m.rootFrame a) va' k = m.tableAt (m.rootFrame a) va' k := by
  induction k with
  | zero => rfl
  | succ k ih =>
    rw [tableAt_succ, tableAt_succ, ih (by omega)]
    refine Option.bind_congr fun t ht => ?_
    have hread := reads_of_tableAt (by omega) ht
    rw [heffect.kept va' k _ t ht rfl (by omega) (present_of_reads hT hread)
      (hno k _ (by omega) hread), pteChild_entryAfter]

theorem reads_after {T : Translation} (heffect : WalkEffect (m.rootFrame a) va 0 m m')
    (hT : m.translate a va' = some T) {n : ℕ} (hn : n ≤ 3)
    (hno : ∀ k entry, k ≤ n → Reads m (m.rootFrame a) va' k entry → ¬Splits m va va' k entry)
    {k : ℕ} (hk : k ≤ n) {entry' : U64} :
    Reads m' (m.rootFrame a) va' k entry' ↔
      ∃ entry, Reads m (m.rootFrame a) va' k entry ∧ entry' = entryAfter va va' 0 k entry := by
  have htable := tableAt_after heffect hT hn (fun k entry hk => hno k entry (by omega)) hk
  constructor
  · rintro ⟨hk3, t, ht, rfl⟩
    rw [htable] at ht
    have hread := reads_of_tableAt hk3 ht
    exact ⟨_, hread, heffect.kept va' k _ t ht rfl hk3 (present_of_reads hT hread)
      (hno k _ hk hread)⟩
  · rintro ⟨entry, hread, rfl⟩
    obtain ⟨hk3, t, ht, hentry⟩ := hread
    have hread := reads_of_tableAt hk3 ht
    rw [hentry] at hread
    exact ⟨hk3, t, htable.trans ht, heffect.kept va' k _ t ht hentry hk3
      (present_of_reads hT hread) (hno k _ hk hread)⟩

/-- What all entries after the walk satisfy, where none was split. -/
theorem allFrom_after {T : Translation} (heffect : WalkEffect (m.rootFrame a) va 0 m m')
    (hT : m.translate a va' = some T)
    (hno : ∀ k entry, Reads m (m.rootFrame a) va' k entry → ¬Splits m va va' k entry)
    (P : U64 → Prop) : AllFrom m' (m.rootFrame a) va' 0 P ↔
      ∀ k entry, Reads m (m.rootFrame a) va' k entry → P (entryAfter va va' 0 k entry) := by
  constructor
  · intro h k entry hread
    exact h k _ (Nat.zero_le k) ((reads_after heffect hT le_rfl (fun k e _ => hno k e) hread.1).2
      ⟨entry, hread, rfl⟩)
  · intro h k entry' _ hread
    obtain ⟨entry, hread', rfl⟩ :=
      (reads_after heffect hT le_rfl (fun k e _ => hno k e) hread.1).1 hread
    exact h k entry hread'

/-! ## Large entries that are split -/

theorem splitEntry_eq (entry : U64) (i : TableIx) :
    splitEntry entry i =
      pageAddress (pteFrame entry + i) ||| (entry &&& splitFlags ||| mmPtePresent) := by
  have hpage : mmPageSize = 4096 := rfl
  have hlt := pteFrame_lt entry
  have haddress : (entry &&& mmPteAddrMask).toNat = pteFrame entry * 4096 := by
    rw [pteFrame_eq, mmPteAddrMask_eq, toNat_and_shiftLeft_lowMask _ (by decide)]
    rfl
  have hsum : (entry &&& mmPteAddrMask) + BitVec.ofNat 64 (i * mmPageSize) =
      pageAddress (pteFrame entry + i) := by
    refine BitVec.eq_of_toNat_eq ?_
    rw [toNat_pageAddress (by omega), BitVec.toNat_add, haddress, BitVec.toNat_ofNat, hpage]
    omega
  rw [splitEntry, hsum, BitVec.or_assoc]

theorem pteFrame_splitEntry (entry : U64) (i : TableIx) :
    pteFrame (splitEntry entry i) = (pteFrame entry + i) % 2 ^ 40 := by
  have hpage : mmPageSize = 4096 := rfl
  have hlt := pteFrame_lt entry
  have hflags : (entry &&& splitFlags ||| mmPtePresent) &&& mmPteAddrMask = 0 := by
    rw [or_and_of_disjoint (by decide), BitVec.and_assoc,
      show splitFlags &&& mmPteAddrMask = 0 by decide]
    exact BitVec.and_zero
  rw [splitEntry_eq, pteFrame_or hflags, pteFrame_eq, toNat_pageAddress (by omega), hpage]
  exact congrArg (· % 2 ^ 40) (Nat.mul_div_cancel _ (by decide))

theorem present_splitEntry (entry : U64) (i : TableIx) :
    hasFlag (splitEntry entry i) mmPtePresent = true := by
  rw [splitEntry, hasFlag_or, Bool.or_eq_true]
  exact .inr (by decide)

/-- The parts of a large page grant what the large entry grants. -/
theorem hasFlag_splitEntry {entry : U64} (h : pteFrame entry % 512 = 0) (i : TableIx) {f : U64}
    (haddress : f &&& mmPteAddrMask = 0) (hpresent : mmPtePresent &&& f = 0)
    (hsplit : splitFlags &&& f = f) : hasFlag (splitEntry entry i) f = hasFlag entry f := by
  have hlt := pteFrame_lt entry
  rw [splitEntry_eq, hasFlag_pageAddress_or (by omega) haddress, hasFlag_or_of_disjoint hpresent,
    hasFlag, BitVec.and_assoc, hsplit, hasFlag]

theorem hasFlag_splitTableEntry (va : U64) {q : ℕ} (hq : q < 2 ^ 40) :
    hasFlag (splitTableEntry va (pageAddress q)) mmPteWritable = true ∧
      (hasFlag (splitTableEntry va (pageAddress q)) mmPteUser = true ↔
        va.toNat < mmUserTop.toNat) ∧
      hasFlag (splitTableEntry va (pageAddress q)) mmPteNx = false := by
  rw [splitTableEntry]
  split
  next hlow =>
    rw [BitVec.or_assoc, BitVec.or_assoc, hasFlag_pageAddress_or hq (by decide),
      hasFlag_pageAddress_or hq (by decide), hasFlag_pageAddress_or hq (by decide)]
    exact ⟨by decide, iff_of_true (by decide) hlow, by decide⟩
  next hhigh =>
    rw [BitVec.or_assoc, hasFlag_pageAddress_or hq (by decide),
      hasFlag_pageAddress_or hq (by decide), hasFlag_pageAddress_or hq (by decide)]
    exact ⟨by decide, iff_of_false (by decide) hhigh, by decide⟩

/-- What the walk for an address of a split page reads afterwards. -/
theorem reads_split {T : Translation} {entry : U64}
    (heffect : WalkEffect (m.rootFrame a) va 0 m m') (hT : m.translate a va' = some T)
    (hread : Reads m (m.rootFrame a) va' 2 entry) (hs : Splits m va va' 2 entry) :
    ∃ q < 2 ^ 40, Reads m' (m.rootFrame a) va' 2 (splitTableEntry va (pageAddress q)) ∧
      Reads m' (m.rootFrame a) va' 3 (splitEntry entry (tableIndex va' 3)) := by
  obtain ⟨-, hpath, hlarge, hcan⟩ := hs
  obtain ⟨-, d, hd, hentry⟩ := hread
  obtain ⟨hsame, hi⟩ := tableAt_of_vaPath m (m.rootFrame a) hpath
  obtain ⟨q, hq, hlink, hparts⟩ := heffect.split d entry (hsame ▸ hd) (hi ▸ hentry) (by omega)
    hlarge hcan
  have hd' : m'.tableAt (m.rootFrame a) va' 2 = some d :=
    (tableAt_after heffect hT (by omega) (fun k e hk _ hs => by have := hs.1; omega)
      le_rfl).trans hd
  rw [← hi] at hlink
  refine ⟨q, hq, ⟨by omega, d, hd', hlink⟩, le_rfl, q, ?_, hparts _⟩
  rw [tableAt_succ, hd', Option.bind_some, hlink, pteChild_splitTableEntry va hq]

/-- What all entries satisfy, before and after a split. -/
theorem allFrom_split {T : Translation} {entry : U64}
    (heffect : WalkEffect (m.rootFrame a) va 0 m m') (hT : m.translate a va' = some T)
    (hread : Reads m (m.rootFrame a) va' 2 entry) (hs : Splits m va va' 2 entry) :
    ∃ q < 2 ^ 40, ∃ e₀ e₁, Reads m (m.rootFrame a) va' 0 e₀ ∧ Reads m (m.rootFrame a) va' 1 e₁ ∧
      (∀ P, AllFrom m (m.rootFrame a) va' 0 P ↔ P e₀ ∧ P e₁ ∧ P entry) ∧
      ∀ P, AllFrom m' (m.rootFrame a) va' 0 P ↔
        P (entryAfter va va' 0 0 e₀) ∧ P (entryAfter va va' 0 1 e₁) ∧
          P (splitTableEntry va (pageAddress q)) ∧ P (splitEntry entry (tableIndex va' 3)) := by
  obtain ⟨q, hq, htable, hpart⟩ := reads_split heffect hT hread hs
  have hd := hread.2.choose_spec.1
  obtain ⟨t₀, ht₀⟩ := tableAt_of_le (Nat.zero_le 2) hd
  obtain ⟨t₁, ht₁⟩ := tableAt_of_le (show 1 ≤ 2 by omega) hd
  have h₀ := reads_of_tableAt (show 0 ≤ 3 by omega) ht₀
  have h₁ := reads_of_tableAt (show 1 ≤ 3 by omega) ht₁
  have hafter : ∀ {k e}, k ≤ 1 → Reads m (m.rootFrame a) va' k e →
      Reads m' (m.rootFrame a) va' k (entryAfter va va' 0 k e) := fun hk hr =>
    (reads_after heffect hT (n := 1) (by omega) (fun k e hk _ hs => by have := hs.1; omega) hk).2
      ⟨_, hr, rfl⟩
  refine ⟨q, hq, _, _, h₀, h₁, fun P => ?_, fun P => ?_⟩
  · rw [allFrom_step h₀, allFrom_step h₁, allFrom_step hread]
    exact and_congr_right fun _ => and_congr_right fun _ =>
      and_iff_left (allFrom_below hread (pteChild_of_isLarge hs.2.2.1))
  · rw [allFrom_step (hafter (by omega) h₀), allFrom_step (hafter le_rfl h₁), allFrom_step htable,
      allFrom_step hpart]
    exact and_congr_right fun _ => and_congr_right fun _ => and_congr_right fun _ =>
      and_iff_left allFrom_last

/-! ## Translations after the walk -/

/-- What a walk may meet at a large entry: the bits below the address of a large page are clear,
and in the upper half the page is not the user's. -/
def LargeHarmless (m : MmState) (a : AddressSpaceRef) (va : U64) : Prop :=
  ∀ entry, Reads m (m.rootFrame a) va 2 entry → isLarge entry = true → CanAlloc m →
    pteFrame entry % 512 = 0 ∧
      (mmUserTop.toNat ≤ va.toNat → ∀ T, m.translate a va = some T → T.user = false)

/-- Paths that agree agree on their way. -/
theorem vaPath_of_le {n k : ℕ} (h : vaPath va n = vaPath va' n) (hk : k ≤ n) :
    vaPath va k = vaPath va' k := by
  induction k with
  | zero => rfl
  | succ k ih => rw [vaPath, vaPath, ih (by omega), tableIndex_of_vaPath_eq h (by omega)]

/-- A large entry on the walk is split for the page of the walk too. -/
theorem Splits.reads {entry : U64} (hread : Reads m root va' 2 entry)
    (hs : Splits m va va' 2 entry) : Reads m root va 2 entry := by
  obtain ⟨-, d, hd, hentry⟩ := hread
  obtain ⟨hsame, hi⟩ := tableAt_of_vaPath m root hs.2.1
  exact ⟨by omega, d, hsame ▸ hd, hi ▸ hentry⟩

/-- The rights after the walk, in terms of the entries before. -/
structure Opened (m : MmState) (a : AddressSpaceRef) (va va' : U64) (T T' : Translation) : Prop where
  frame : T'.frame = T.frame
  writable : T'.writable = T.writable
  user : T'.user = true ↔ ∀ k entry, Reads m (m.rootFrame a) va' k entry →
    (mmpIsUserAddress va = true ∧ OnTheWay va va' k entry) ∨ hasFlag entry mmPteUser = true
  execute : T'.noExecute = false ↔ ∀ k entry, Reads m (m.rootFrame a) va' k entry →
    (mmpIsUserAddress va = true ∧ OnTheWay va va' k entry) ∨ hasFlag entry mmPteNx = false

/-- A translation where no entry was split. -/
theorem translate_after {T : Translation} (hroot : m'.rootFrame a = m.rootFrame a)
    (heffect : WalkEffect (m.rootFrame a) va 0 m m') (hT : m.translate a va' = some T)
    (hno : ∀ k entry, Reads m (m.rootFrame a) va' k entry → ¬Splits m va va' k entry) :
    ∃ T', m'.translate a va' = some T' ∧ Opened m a va va' T T' := by
  obtain ⟨⟨k, entry, hread, hmaps⟩, hgrants⟩ := translate_spec hT
  have hread' : Reads m' (m'.rootFrame a) va' k entry := by
    rw [hroot]
    exact (reads_after heffect hT le_rfl (fun k e _ => hno k e) hread.1).2
      ⟨entry, hread, hmaps.entryAfter.symm⟩
  obtain ⟨T', hT', hframe, hgrants'⟩ := translate_of_mapsTo hread' hmaps
  rw [hroot] at hgrants'
  refine ⟨T', hT', hframe, ?_, ?_, ?_⟩
  · rw [Bool.eq_iff_iff, hgrants'.writable, hgrants.writable,
      allFrom_after heffect hT hno]
    have hsame := fun k e =>
      hasFlag_entryAfter va va' 0 k e (f := mmPteWritable) (by decide) (by decide)
    exact and_congr_right fun _ => ⟨fun h k e _ hr => (hsame k e).symm.trans (h k e hr),
      fun h k e hr => (hsame k e).trans (h k e (Nat.zero_le k) hr)⟩
  · rw [hgrants'.user, allFrom_after heffect hT hno]
    refine ⟨fun h k e hr => (hasFlag_user_entryAfter va va' k e).1 (h.2 k e hr),
      fun h => ⟨rfl, fun k e hr => (hasFlag_user_entryAfter va va' k e).2 (h k e hr)⟩⟩
  · rw [hgrants'.execute, allFrom_after heffect hT hno]
    refine ⟨fun h k e hr => (hasFlag_nx_entryAfter va va' k e).1 (h.2 k e hr),
      fun h => ⟨rfl, fun k e hr => (hasFlag_nx_entryAfter va va' k e).2 (h k e hr)⟩⟩

/-- A part of a large page that was split. -/
theorem translate_after_split {T : Translation} {entry : U64}
    (hroot : m'.rootFrame a = m.rootFrame a) (heffect : WalkEffect (m.rootFrame a) va 0 m m')
    (hT : m.translate a va' = some T) (hread : Reads m (m.rootFrame a) va' 2 entry)
    (hs : Splits m va va' 2 entry) :
    ∃ T', m'.translate a va' = some T' ∧
      T.frame = pteFrame entry / 512 * 512 + tableIndex va' 3 ∧
      T'.frame = (pteFrame entry + tableIndex va' 3) % 2 ^ 40 ∧
      (mmUserTop.toNat ≤ va.toNat → T'.user = false) ∧
      (pteFrame entry % 512 = 0 →
        (mmUserTop.toNat ≤ va.toNat → T.user = false) → Opened m a va va' T T') := by
  obtain ⟨⟨k, entry', hread₀, hmaps⟩, hgrants⟩ := translate_spec hT
  obtain ⟨q, hq, e₀, e₁, h₀, h₁, hbefore, hafter⟩ := allFrom_split heffect hT hread hs
  obtain ⟨q', hq', -, hpart⟩ := reads_split heffect hT hread hs
  have hframe : T.frame = pteFrame entry / 512 * 512 + tableIndex va' 3 := by
    refine hmaps.unique (.inr ⟨.inr rfl, hs.2.2.1, ?_⟩) hread₀ hread
    rw [largeFrame, tableIndex_val]
    norm_num
  have hpart' : Reads m' (m'.rootFrame a) va' 3 (splitEntry entry (tableIndex va' 3)) := by
    rw [hroot]
    exact hpart
  obtain ⟨T', hT', hframe', hgrants'⟩ := translate_of_mapsTo hpart'
    (.inl ⟨rfl, present_splitEntry .., rfl⟩)
  rw [pteFrame_splitEntry] at hframe'
  rw [hroot] at hgrants'
  obtain ⟨hwritable, huser, hnx⟩ := hasFlag_splitTableEntry va hq
  refine ⟨T', hT', hframe, hframe', fun hhigh => ?_, fun hzero hhigh => ?_⟩
  · rw [Bool.eq_false_iff]
    intro hu
    have hlow := huser.1 ((hafter _).1 (hgrants'.user.1 hu).2).2.2.1
    omega
  have hall : ∀ P : ℕ → U64 → Prop, (∀ k e, Reads m (m.rootFrame a) va' k e → P k e) ↔
      P 0 e₀ ∧ P 1 e₁ ∧ P 2 entry := by
    intro P
    refine ⟨fun h => ⟨h 0 _ h₀, h 1 _ h₁, h 2 _ hread⟩, fun ⟨p₀, p₁, p₂⟩ k e hr => ?_⟩
    have hk : k ≤ 2 := by
      by_contra hlt
      obtain ⟨t, ht⟩ := hread.above hr (Nat.not_le.1 hlt)
      cases (pteChild_of_isLarge hs.2.2.1).symm.trans ht
    have hcases : k = 0 ∨ k = 1 ∨ k = 2 := by omega
    rcases hcases with rfl | rfl | rfl
    · rwa [hr.unique h₀]
    · rwa [hr.unique h₁]
    · rwa [hr.unique hread]
  have hoff : ¬OnTheWay va va' 2 entry := fun h => h.2.2 (pteChild_of_isLarge hs.2.2.1)
  refine ⟨?_, ?_, ?_, ?_⟩
  · have hlt := pteFrame_lt entry
    rw [hframe', hframe]
    omega
  · rw [Bool.eq_iff_iff, hgrants'.writable, hgrants.writable, hafter, hbefore,
      hasFlag_entryAfter _ _ _ _ _ (by decide) (by decide),
      hasFlag_entryAfter _ _ _ _ _ (by decide) (by decide),
      hasFlag_splitEntry hzero _ (by decide) (by decide) (by decide)]
    exact and_congr_right fun _ => and_congr_right fun _ => and_congr_right fun _ =>
      ⟨And.right, fun h => ⟨hwritable, h⟩⟩
  · rw [hgrants'.user, hafter, hall, hasFlag_user_entryAfter, hasFlag_user_entryAfter,
      hasFlag_splitEntry hzero _ (by decide) (by decide) (by decide), huser]
    constructor
    · rintro ⟨-, p₀, p₁, -, p₂⟩
      exact ⟨p₀, p₁, .inr p₂⟩
    · rintro ⟨p₀, p₁, p₂⟩
      have p₂ := p₂.resolve_left fun h => hoff h.2
      refine ⟨rfl, p₀, p₁, ?_, p₂⟩
      by_contra hhigh'
      have hnot : ¬mmpIsUserAddress va = true := by
        rw [mmpIsUserAddress, Bool.and_eq_true, decide_eq_true_iff, decide_eq_true_iff]
        exact fun h => hhigh' h.2
      have hu := hgrants.user.2 ⟨rfl, (hbefore _).2 ⟨p₀.resolve_left fun h => hnot h.1,
        p₁.resolve_left fun h => hnot h.1, p₂⟩⟩
      rw [hhigh (Nat.not_lt.1 hhigh')] at hu
      cases hu
  · rw [hgrants'.execute, hafter, hall, hasFlag_nx_entryAfter, hasFlag_nx_entryAfter,
      hasFlag_splitEntry hzero _ (by decide) (by decide) (by decide)]
    constructor
    · rintro ⟨-, p₀, p₁, -, p₂⟩
      exact ⟨p₀, p₁, .inr p₂⟩
    · rintro ⟨p₀, p₁, p₂⟩
      exact ⟨rfl, p₀, p₁, hnx, p₂.resolve_left fun h => hoff h.2⟩

/-! ## When a walk disturbs nothing -/

/-- Every other page that had a translation has the same one, and the page of the walk the same
frame. -/
structure Undisturbed (m m' : MmState) (a : AddressSpaceRef) (va : U64) : Prop where
  other : ∀ va' T, mmpIsCanonicalAddress va' = true →
    va'.toNat / mmPageSize ≠ va.toNat / mmPageSize →
      m.translate a va' = some T → m'.translate a va' = some T
  target : ∀ va' T, mmpIsCanonicalAddress va' = true →
    va'.toNat / mmPageSize = va.toNat / mmPageSize →
      m.translate a va' = some T → ∃ T', m'.translate a va' = some T' ∧ T'.frame = T.frame

/-- No page depends on the entries on the way of the walk, which it opens to the user, for its
protection, and a large entry that it splits stands for the pages that its parts will. -/
structure Harmless (m : MmState) (a : AddressSpaceRef) (va : U64) : Prop where
  large : LargeHarmless m a va
  /-- Where the entries off the way grant the user access, so do those on the way. -/
  user : mmpIsUserAddress va = true → ∀ va' T, mmpIsCanonicalAddress va' = true →
    va'.toNat / mmPageSize ≠ va.toNat / mmPageSize → m.translate a va' = some T →
      (∀ k entry, Reads m (m.rootFrame a) va' k entry → ¬OnTheWay va va' k entry →
        hasFlag entry mmPteUser = true) → T.user = true
  /-- Where the entries off the way allow execution, so do those on the way. -/
  execute : mmpIsUserAddress va = true → ∀ va' T, mmpIsCanonicalAddress va' = true →
    va'.toNat / mmPageSize ≠ va.toNat / mmPageSize → m.translate a va' = some T →
      (∀ k entry, Reads m (m.rootFrame a) va' k entry → ¬OnTheWay va va' k entry →
        hasFlag entry mmPteNx = false) → T.noExecute = false

/-- The user and the execution rights are those before, where the entries on the way do not
matter. -/
theorem Opened.eq {T T' : Translation} (h : Opened m a va va' T T')
    (hT : m.translate a va' = some T)
    (huser : mmpIsUserAddress va = true → (∀ k entry, Reads m (m.rootFrame a) va' k entry →
      ¬OnTheWay va va' k entry → hasFlag entry mmPteUser = true) → T.user = true)
    (hexecute : mmpIsUserAddress va = true → (∀ k entry, Reads m (m.rootFrame a) va' k entry →
      ¬OnTheWay va va' k entry → hasFlag entry mmPteNx = false) → T.noExecute = false) :
    T' = T := by
  obtain ⟨-, hgrants⟩ := translate_spec hT
  have hu : T'.user = T.user := by
    rw [Bool.eq_iff_iff, h.user]
    refine ⟨fun hall => ?_, fun hall k e hr => .inr ((hgrants.user.1 hall).2 k e (Nat.zero_le k) hr)⟩
    by_cases hva : mmpIsUserAddress va = true
    · exact huser hva fun k e hr hoff => (hall k e hr).resolve_left fun hon => hoff hon.2
    · exact hgrants.user.2 ⟨rfl, fun k e _ hr => (hall k e hr).resolve_left fun hon => hva hon.1⟩
  have hx : T'.noExecute = T.noExecute := by
    have hiff : T'.noExecute = false ↔ T.noExecute = false := by
      rw [h.execute]
      refine ⟨fun hall => ?_, fun hall k e hr =>
        .inr ((hgrants.execute.1 hall).2 k e (Nat.zero_le k) hr)⟩
      by_cases hva : mmpIsUserAddress va = true
      · exact hexecute hva fun k e hr hoff => (hall k e hr).resolve_left fun hon => hoff hon.2
      · exact hgrants.execute.2
          ⟨rfl, fun k e _ hr => (hall k e hr).resolve_left fun hon => hva hon.1⟩
    cases hT' : T'.noExecute <;> cases hT'' : T.noExecute
    · rfl
    · exact absurd (hiff.1 hT') (by rw [hT'']; exact Bool.noConfusion)
    · exact absurd (hiff.2 hT'') (by rw [hT']; exact Bool.noConfusion)
    · rfl
  obtain ⟨frame, writable, user, noExecute⟩ := T
  obtain ⟨frame', writable', user', noExecute'⟩ := T'
  obtain ⟨rfl, rfl, -, -⟩ := h
  cases hu
  cases hx
  rfl

/-- Under the condition on large entries, every translation is opened. -/
theorem LargeHarmless.opened {T : Translation} (h : LargeHarmless m a va)
    (hroot : m'.rootFrame a = m.rootFrame a) (heffect : WalkEffect (m.rootFrame a) va 0 m m')
    (hT : m.translate a va' = some T) :
    ∃ T', m'.translate a va' = some T' ∧ Opened m a va va' T T' := by
  by_cases hsplit : ∃ entry, Reads m (m.rootFrame a) va' 2 entry ∧ Splits m va va' 2 entry
  · obtain ⟨entry, hread, hs⟩ := hsplit
    obtain ⟨hzero, hhigh⟩ := h entry (hs.reads hread) hs.2.2.1 hs.2.2.2
    obtain ⟨T', hT', -, -, -, hopened⟩ := translate_after_split hroot heffect hT hread hs
    refine ⟨T', hT', hopened hzero fun htop => ?_⟩
    -- the page of the walk reads the same entries
    have hmaps : MapsTo va 2 entry (largeFrame entry va 1) := .inr ⟨.inr rfl, hs.2.2.1, rfl⟩
    obtain ⟨T₀, hT₀, -, hgrants₀⟩ := translate_of_mapsTo (hs.reads hread) hmaps
    have hfalse := hhigh htop T₀ hT₀
    rw [Bool.eq_false_iff] at hfalse ⊢
    intro hu
    refine hfalse (hgrants₀.user.2 ⟨rfl, fun k e _ hr => ?_⟩)
    obtain ⟨-, hgrants⟩ := translate_spec hT
    have hk : k ≤ 2 := by
      by_contra hlt
      obtain ⟨t, ht⟩ := (hs.reads hread).above hr (Nat.not_le.1 hlt)
      cases (pteChild_of_isLarge hs.2.2.1).symm.trans ht
    have hpath : vaPath va (k + 1) = vaPath va' (k + 1) :=
      vaPath_of_le hs.2.1.symm (by omega)
    obtain ⟨-, t, ht, hentry⟩ := hr
    obtain ⟨hsame, hi⟩ := tableAt_of_vaPath m (m.rootFrame a) hpath
    exact (hgrants.user.1 hu).2 k e (Nat.zero_le k) ⟨by omega, t, hsame ▸ ht, hi ▸ hentry⟩
  · refine translate_after hroot heffect hT fun k entry hread hs => hsplit ⟨entry, ?_⟩
    obtain rfl := hs.1
    exact ⟨hread, hs⟩

/-- A page has a neighbour in the same large page. -/
theorem exists_neighbour (hva : mmpIsCanonicalAddress va = true) :
    ∃ va', mmpIsCanonicalAddress va' = true ∧
      va'.toNat / mmPageSize ≠ va.toNat / mmPageSize ∧ vaPath va' 3 = vaPath va 3 := by
  have hpage : mmPageSize = 4096 := rfl
  have hlt := va.isLt
  obtain ⟨va', hblock, hne⟩ : ∃ va' : U64, va'.toNat / 8192 = va.toNat / 8192 ∧
      va'.toNat / 4096 ≠ va.toNat / 4096 := by
    by_cases heven : va.toNat / 4096 % 2 = 0
    · refine ⟨BitVec.ofNat 64 (va.toNat + 4096), ?_⟩
      rw [BitVec.toNat_ofNat, Nat.mod_eq_of_lt (by omega)]
      omega
    · refine ⟨BitVec.ofNat 64 (va.toNat - 4096), ?_⟩
      rw [BitVec.toNat_ofNat, Nat.mod_eq_of_lt (by omega)]
      omega
  refine ⟨va', ?_, by rwa [hpage], ?_⟩
  · have hshift : va' >>> 48 = va >>> 48 := by
      refine BitVec.eq_of_toNat_eq ?_
      rw [BitVec.toNat_ushiftRight, BitVec.toNat_ushiftRight, Nat.shiftRight_eq_div_pow,
        Nat.shiftRight_eq_div_pow]
      omega
    rw [mmpIsCanonicalAddress, hshift]
    exact hva
  · have hindex : ∀ k ≤ 2, tableIndex va' k = tableIndex va k := by
      intro k hk
      refine Fin.ext ?_
      rw [tableIndex_val, tableIndex_val]
      have hcases : k = 0 ∨ k = 1 ∨ k = 2 := by omega
      rcases hcases with rfl | rfl | rfl <;> norm_num <;> omega
    simp only [vaPath, hindex 0 (by omega), hindex 1 (by omega), hindex 2 (by omega)]

/-- A walk that meets nothing harmful disturbs nothing. -/
theorem Harmless.undisturbed (h : Harmless m a va) (hroot : m'.rootFrame a = m.rootFrame a)
    (heffect : WalkEffect (m.rootFrame a) va 0 m m') : Undisturbed m m' a va := by
  constructor
  · intro va' T hcanonical hne hT
    obtain ⟨T', hT', hopened⟩ := h.large.opened hroot heffect hT
    rw [hT', hopened.eq hT (fun hva hall => h.user hva va' T hcanonical hne hT hall)
      fun hva hall => h.execute hva va' T hcanonical hne hT hall]
  · intro va' T _ _ hT
    obtain ⟨T', hT', hopened⟩ := h.large.opened hroot heffect hT
    exact ⟨T', hT', hopened.frame⟩

/-- A walk that disturbs nothing met nothing harmful. -/
theorem Undisturbed.harmless (h : Undisturbed m m' a va) (hva : mmpIsCanonicalAddress va = true)
    (hroot : m'.rootFrame a = m.rootFrame a) (heffect : WalkEffect (m.rootFrame a) va 0 m m') :
    Harmless m a va := by
  have hlarge : LargeHarmless m a va := by
    intro entry hread hlarge hcan
    have hmaps : ∀ va', MapsTo va' 2 entry (largeFrame entry va' 1) := fun va' =>
      .inr ⟨.inr rfl, hlarge, rfl⟩
    constructor
    · obtain ⟨T, hT, -⟩ := translate_of_mapsTo hread (hmaps va)
      obtain ⟨T', hT', hframe, hframe', -⟩ :=
        translate_after_split hroot heffect hT hread ⟨rfl, rfl, hlarge, hcan⟩
      obtain ⟨T'', hT'', hsame⟩ := h.target va T hva rfl hT
      cases hT'.symm.trans hT''
      have hlt := pteFrame_lt entry
      have hi := (tableIndex va 3).isLt
      rw [hframe, hframe'] at hsame
      omega
    · intro htop T hT
      rw [Bool.eq_false_iff]
      intro hu
      -- a neighbour in the large page loses what the page grants
      obtain ⟨va', hcanonical, hne, hpath⟩ := exists_neighbour hva
      have hback : Splits m va' va 2 entry := ⟨rfl, hpath.symm, hlarge, hcan⟩
      have hread' : Reads m (m.rootFrame a) va' 2 entry := hback.reads hread
      obtain ⟨T', hT', -, hgrants'⟩ := translate_of_mapsTo hread' (hmaps va')
      have hu' : T'.user = true := by
        obtain ⟨-, hgrants⟩ := translate_spec hT
        refine hgrants'.user.2 ⟨rfl, fun k e _ hr => ?_⟩
        have hk : k ≤ 2 := by
          by_contra hlt
          obtain ⟨t, ht⟩ := hread'.above hr (Nat.not_le.1 hlt)
          cases (pteChild_of_isLarge hlarge).symm.trans ht
        obtain ⟨-, t, ht, hentry⟩ := hr
        obtain ⟨hsame, hi⟩ := tableAt_of_vaPath m (m.rootFrame a)
          (vaPath_of_le hpath (show k + 1 ≤ 3 by omega))
        exact (hgrants.user.1 hu).2 k e (Nat.zero_le k) ⟨by omega, t, hsame ▸ ht, hi ▸ hentry⟩
      obtain ⟨T'', hT'', -, -, hfalse, -⟩ :=
        translate_after_split hroot heffect hT' hread' ⟨rfl, hpath, hlarge, hcan⟩
      cases hT''.symm.trans (h.other va' T' hcanonical hne hT')
      rw [hfalse htop] at hu'
      cases hu'
  refine ⟨hlarge, fun huser va' T hcanonical hne hT hall => ?_,
    fun huser va' T hcanonical hne hT hall => ?_⟩
  · obtain ⟨T', hT', hopened⟩ := hlarge.opened hroot heffect hT
    cases hT'.symm.trans (h.other va' T hcanonical hne hT)
    refine hopened.user.2 fun k e hr => ?_
    by_cases hway : OnTheWay va va' k e
    · exact .inl ⟨huser, hway⟩
    · exact .inr (hall k e hr hway)
  · obtain ⟨T', hT', hopened⟩ := hlarge.opened hroot heffect hT
    cases hT'.symm.trans (h.other va' T hcanonical hne hT)
    refine hopened.execute.2 fun k e hr => ?_
    by_cases hway : OnTheWay va va' k e
    · exact .inl ⟨huser, hway⟩
    · exact .inr (hall k e hr hway)

/-- What `MmpWalkToPte` does to the entries of the tables that were there. -/
theorem mmpWalkToPte_effect (ok : TablesOk Set.univ {m.rootFrame a} m)
    (hva : mmpIsCanonicalAddress va = true) :
    (mmpWalkToPte m a va true).1.rootFrame a = m.rootFrame a ∧
      WalkEffect (m.rootFrame a) va 0 m (mmpWalkToPte m a va true).1 := by
  have hpages := OnlyPages.mmpWalkToPte m a va true
  refine ⟨by rw [MmState.rootFrame, hpages.addressSpacePool, MmState.rootFrame], ?_⟩
  have hroot : m.tableAt (m.rootFrame a) va 0 = some (m.rootFrame a) := rfl
  have heffect := mmpWalkTables_effect ok 3 (Nat.zero_add 3) hroot
  rw [mmpWalkToPte, if_neg (by rw [hva]; exact Bool.noConfusion)]
  generalize mmpWalkTables va true 3 0 (m.rootFrame a) m = r at heffect ⊢
  obtain ⟨m₁, e | t⟩ := r <;> exact heffect

/-! ## A small tree -/

/-- Three tables, and a large page at 1 GiB whose entry has the PAT bit set. -/
def patTables : MmState :=
  { MmState.zero with
    trackedPages := 8
    trackedPages_le := by decide
    ready := true
    pageBitmap := fun _ => 0xF
    addressSpacePool := fun a =>
      { MmState.zero.addressSpacePool a with rootTablePhysical := 0x1000 }
    mem := fun f i =>
      if f = 1 ∧ i = 0 then 0x2007
      else if f = 2 ∧ i = 1 then 0x3007
      else if f = 3 ∧ i = 0 then 0x201087
      else 0 }

theorem pteChild_patTables :
    (∀ i : TableIx, pteChild (patTables.mem 1 i) = if i = 0 then some 2 else none) ∧
      (∀ i : TableIx, pteChild (patTables.mem 2 i) = if i = 1 then some 3 else none) ∧
      ∀ i : TableIx, pteChild (patTables.mem 3 i) = none := by decide +kernel

theorem follow_patTables {p : List TableIx} {f : ℕ}
    (h : follow pteChild patTables.mem 1 p = some f) :
    p = [] ∧ f = 1 ∨ p = [0] ∧ f = 2 ∨ p = [0, 1] ∧ f = 3 := by
  obtain ⟨hone, htwo, hthree⟩ := pteChild_patTables
  rcases p with _ | ⟨i, p⟩
  · exact .inl ⟨rfl, (Option.some.inj h).symm⟩
  rw [follow, hone] at h
  split at h
  swap
  · cases h
  next hi =>
  rw [Option.bind_some] at h
  rcases p with _ | ⟨j, p⟩
  · exact .inr (.inl ⟨by rw [hi], (Option.some.inj h).symm⟩)
  rw [follow, htwo] at h
  split at h
  swap
  · cases h
  next hj =>
  rw [Option.bind_some] at h
  rcases p with _ | ⟨k, p⟩
  · exact .inr (.inr ⟨by rw [hi, hj], (Option.some.inj h).symm⟩)
  · rw [follow, hthree, Option.bind_none] at h
    cases h

theorem tablesOk_patTables : TablesOk Set.univ {patTables.rootFrame 0} patTables := by
  have hroot : patTables.rootFrame 0 = 1 := by decide
  rw [hroot]
  constructor
  · rintro r rfl r' rfl p - p' - f hf hf'
    rcases follow_patTables hf with ⟨rfl, rfl⟩ | ⟨rfl, rfl⟩ | ⟨rfl, rfl⟩ <;>
      rcases follow_patTables hf' with ⟨rfl, h⟩ | ⟨rfl, h⟩ | ⟨rfl, h⟩ <;>
      first | rfl | exact absurd h (by decide)
  · rintro f ⟨r, rfl, p, -, hf⟩ ⟨-, hfree⟩
    rcases follow_patTables hf with ⟨-, rfl⟩ | ⟨-, rfl⟩ | ⟨-, rfl⟩ <;> exact absurd hfree (by decide)

/-- A walk that adds what is missing, whether it succeeds or fails, disturbs no other page of a
tree of tables iff it meets nothing harmful. -/
theorem walk_undisturbed_iff (m : MmState) (a : AddressSpaceRef) (va : U64)
    (htree : TablesOk Set.univ {m.rootFrame a} m) (hva : mmpIsCanonicalAddress va = true) :
    Undisturbed m (mmpWalkToPte m a va true).1 a va ↔ Harmless m a va := by
  obtain ⟨hroot, heffect⟩ := mmpWalkToPte_effect htree hva
  exact ⟨fun h => h.harmless hva hroot heffect, fun h => h.undisturbed hroot heffect⟩

theorem walk_undisturbed_iff_patTables :
    Undisturbed patTables (mmpWalkToPte patTables 0 0x40000000 true).1 0 0x40000000 ↔
      Harmless patTables 0 0x40000000 :=
  walk_undisturbed_iff patTables 0 0x40000000 tablesOk_patTables (by decide)

/-- The parts of the large page map one frame further than the page did. -/
theorem large_page_shifted :
    ¬Undisturbed patTables (mmpWalkToPte patTables 0 0x40000000 true).1 0 0x40000000 := by
  intro h
  have hbefore : patTables.translate 0 0x40003000 = some ⟨0x203, true, true, false⟩ := by
    decide +kernel
  have hafter : (mmpWalkToPte patTables 0 0x40000000 true).1.translate 0 0x40003000 =
      some ⟨0x204, true, true, false⟩ := by
    decide +kernel
  have hsame := h.other 0x40003000 _ (by decide) (by decide) hbefore
  rw [hafter] at hsame
  exact absurd hsame (by decide)

end NtxKernel.Mm
