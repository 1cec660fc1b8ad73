import NtxKernel.Foundations.Custody
import NtxKernel.Mm.Lazy

/-!
# A client that maps its own pages

The four operations on single pages, together with the allocator, as one client uses them who maps
each page that `MmAllocPage` gave him at most once. The tables of the address space, with what a
walk adds to them, then come to a map from pages to entries.

* `PageDict` is what the client has: the entries of its pages, and the pages it has not mapped.
  `PageDict.Call` says what each call does to that, and with what result.
* `PageClient` is the machine. `pagesOut` are the pages that were taken since the start and are no
  tables.
* `page_dict_refined`: in an address space that was created where the firmware's map ends below the
  user range, every run keeps each page that was taken in the hands of exactly one holder, or as a
  table; each call does what `PageDict.Call` says; and the processor translates user addresses by
  the entries of the client.
-/

namespace NtxKernel.Mm

open Foundations Ob

/-! ## What the client has -/

/-- A call of the client. -/
inductive MapCall
  | alloc
  | free (pa : U64)
  | map (va pa flags : U64)
  | unmap (va : U64)
  | protect (va newFlags : U64)
  | query (va : U64)

/-- The entries of the pages that the client mapped, and the addresses that `MmAllocPage` returned
and that were neither mapped nor freed since. -/
structure PageDict where
  entries : U64 → Option U64
  held : Set U64

/-- Who has a page: the client, under its address, or the entry of a user page. -/
inductive Holder
  | client (pa : U64)
  | page (va : U64)
  deriving DecidableEq

namespace PageDict

open Classical in
/-- The page that a holder has. -/
noncomputable def holds (d : PageDict) : Holder → Option ℕ
  | .client pa => if pa ∈ d.held then some (pteFrame pa) else none
  | .page va => (d.entries va).map pteFrame

/-- The calls on user pages with pages of the client's own, and with flags that say nothing of the
address. -/
def Owns (d : PageDict) : MapCall → Prop
  | .alloc => True
  | .free pa => pa ∈ d.held
  | .map va pa flags => va ∈ userPages ∧ pa ∈ d.held ∧ flags &&& mmPteAddrMask = 0
  | .unmap va => va ∈ userPages
  | .protect va newFlags => va ∈ userPages ∧ newFlags &&& mmPteAddrMask = 0
  | .query va => va ∈ userPages

/-- What a call does, and its result. `room` says that the allocator has a page left. -/
inductive Call (room : Prop) : PageDict → MapCall → Except KStatus U64 → PageDict → Prop
  | alloc (d : PageDict) {pa : U64} (h : ∀ x, d.holds x ≠ some (pteFrame pa)) :
    Call room d .alloc (.ok pa) ⟨d.entries, insert pa d.held⟩
  | alloc_fails (d : PageDict) {e : KStatus} (h : ¬room) : Call room d .alloc (.error e) d
  | free (d : PageDict) (pa : U64) : Call room d (.free pa) (.ok 0) ⟨d.entries, d.held \ {pa}⟩
  | map (d : PageDict) (va pa flags : U64) : Call room d (.map va pa flags) (.ok 0)
      ⟨Function.update d.entries va (some (mapEntry pa flags)), d.held \ {pa}⟩
  | map_fails (d : PageDict) (va pa flags : U64) {e : KStatus} (h : ¬room) :
    Call room d (.map va pa flags) (.error e) d
  | unmap (d : PageDict) {va entry : U64} (h : d.entries va = some entry) :
    Call room d (.unmap va) (.ok 0) ⟨Function.update d.entries va none, d.held⟩
  | unmap_absent (d : PageDict) {va : U64} {e : KStatus} (h : d.entries va = none) :
    Call room d (.unmap va) (.error e) d
  | protect (d : PageDict) {va entry : U64} (newFlags : U64) (h : d.entries va = some entry) :
    Call room d (.protect va newFlags) (.ok 0)
      ⟨Function.update d.entries va (some (mapEntry entry newFlags)), d.held⟩
  | protect_absent (d : PageDict) {va : U64} (newFlags : U64) {e : KStatus}
      (h : d.entries va = none) : Call room d (.protect va newFlags) (.error e) d
  | query (d : PageDict) {va entry : U64} (h : d.entries va = some entry) :
    Call room d (.query va) (.ok entry) d
  | query_absent (d : PageDict) {va : U64} {r : Except KStatus U64} (h : d.entries va = none)
      (hr : ∀ entry, r = .ok entry → hasFlag entry mmPtePresent = false) :
    Call room d (.query va) r d

variable {entries : U64 → Option U64} {held : Set U64} {pa va : U64}

theorem holds_insert :
    holds ⟨entries, insert pa held⟩ =
      Function.update (holds ⟨entries, held⟩) (.client pa) (some (pteFrame pa)) := by
  funext x
  cases x with
  | client pa' =>
    by_cases h : pa' = pa
    · rw [h, Function.update_self, holds, if_pos (Set.mem_insert pa held)]
    · rw [Function.update_of_ne (by rintro ⟨⟩; exact h rfl), holds, holds]
      by_cases hmem : pa' ∈ held
      · exact (if_pos (Set.mem_insert_of_mem pa hmem)).trans (if_pos hmem).symm
      · exact (if_neg fun hins => hins.elim h hmem).trans (if_neg hmem).symm
  | page va =>
    rw [Function.update_of_ne (by rintro ⟨⟩)]
    rfl

theorem holds_remove :
    holds ⟨entries, held \ {pa}⟩ = Function.update (holds ⟨entries, held⟩) (.client pa) none := by
  funext x
  cases x with
  | client pa' =>
    by_cases h : pa' = pa
    · rw [h, Function.update_self, holds, if_neg fun hmem => hmem.2 rfl]
    · rw [Function.update_of_ne (by rintro ⟨⟩; exact h rfl), holds, holds]
      by_cases hmem : pa' ∈ held
      · exact (if_pos ⟨hmem, h⟩).trans (if_pos hmem).symm
      · exact (if_neg fun hdiff => hmem hdiff.1).trans (if_neg hmem).symm
  | page va =>
    rw [Function.update_of_ne (by rintro ⟨⟩)]
    rfl

theorem holds_update {entry : Option U64} :
    holds ⟨Function.update entries va entry, held⟩ =
      Function.update (holds ⟨entries, held⟩) (.page va) (entry.map pteFrame) := by
  funext x
  cases x with
  | client pa =>
    rw [Function.update_of_ne (by rintro ⟨⟩)]
    rfl
  | page va' =>
    by_cases h : va' = va
    · rw [h, Function.update_self, holds]
      dsimp only
      rw [Function.update_self]
    · rw [Function.update_of_ne (by rintro ⟨⟩; exact h rfl), holds, holds]
      dsimp only
      rw [Function.update_of_ne h]

end PageDict

/-! ## The machine -/

/-- The machine, and the addresses that the client holds. -/
structure PageClient where
  mm : MmState
  held : Set U64

/-- The state after a call, and its result: 0 where the operation returns a status alone. -/
def PageClient.perform (a : AddressSpaceRef) (s : PageClient) :
    MapCall → PageClient × Except KStatus U64
  | .alloc =>
    match mmAllocPage s.mm with
    | (mm, .ok pa) => (⟨mm, insert pa s.held⟩, .ok pa)
    | (mm, .error e) => (⟨mm, s.held⟩, .error e)
  | .free pa =>
    match mmFreePage s.mm pa with
    | (mm, .ok _) => (⟨mm, s.held \ {pa}⟩, .ok 0)
    | (mm, .error e) => (⟨mm, s.held⟩, .error e)
  | .map va pa flags =>
    match mmAsMapPage s.mm a va pa flags with
    | (mm, .ok _) => (⟨mm, s.held \ {pa}⟩, .ok 0)
    | (mm, .error e) => (⟨mm, s.held⟩, .error e)
  | .unmap va =>
    match mmAsUnmapPage s.mm a va with
    | (mm, .ok _) => (⟨mm, s.held⟩, .ok 0)
    | (mm, .error e) => (⟨mm, s.held⟩, .error e)
  | .protect va newFlags =>
    match mmAsProtectPage s.mm a va newFlags with
    | (mm, .ok _) => (⟨mm, s.held⟩, .ok 0)
    | (mm, .error e) => (⟨mm, s.held⟩, .error e)
  | .query va =>
    match mmAsQueryPte s.mm a va with
    | (mm, r) => (⟨mm, s.held⟩, r)

open Classical in
/-- The entry of a user page that is present. -/
noncomputable def MmState.entries (m : MmState) (root : ℕ) (va : U64) : Option U64 :=
  if va ∈ userPages ∧ hasFlag (pteView m root va) mmPtePresent = true then
    some (pteView m root va)
  else none

/-- What the client has. -/
noncomputable def PageClient.dict (root : ℕ) (s : PageClient) : PageDict :=
  ⟨s.mm.entries root, s.held⟩

/-- The pages that were free in `m₀`, and are neither free nor tables. -/
def pagesOut (root : ℕ) (m₀ m : MmState) : Set ℕ :=
  {f | Free m₀ f ∧ ¬Free m f ∧ ¬IsTable userPages {root} m f}

variable {m₀ m m' : MmState} {root f page t : ℕ} {a : AddressSpaceRef} {va pa : U64}

theorem entries_eq_some {entry : U64} : m.entries root va = some entry ↔
    va ∈ userPages ∧ hasFlag entry mmPtePresent = true ∧ pteView m root va = entry := by
  rw [MmState.entries]
  split_ifs with h
  · rw [Option.some.injEq]
    constructor
    · rintro rfl
      exact ⟨h.1, h.2, rfl⟩
    · exact fun h => h.2.2
  · refine iff_of_false (fun h => by cases h) ?_
    rintro ⟨hva, hpresent, rfl⟩
    exact h ⟨hva, hpresent⟩

theorem entries_eq_none (hva : va ∈ userPages) :
    m.entries root va = none ↔ hasFlag (pteView m root va) mmPtePresent = false := by
  rw [MmState.entries]
  split_ifs with h
  · rw [h.2]
    exact iff_of_false (fun h => by cases h) (fun h => by cases h)
  · exact iff_of_true rfl (Bool.eq_false_iff.2 fun hpresent => h ⟨hva, hpresent⟩)

/-- The entries are the views of the user pages. -/
theorem entries_congr (h : ∀ va ∈ userPages, pteView m' root va = pteView m root va) :
    m'.entries root = m.entries root := by
  funext va
  rw [MmState.entries, MmState.entries]
  by_cases hva : va ∈ userPages
  · rw [h va hva]
  · rw [if_neg fun h => hva h.1, if_neg fun h => hva h.1]

/-! ## What the operations do to the pages -/

/-- What every call keeps of the machine. -/
structure UserSpace (root : ℕ) (m₀ m : MmState) : Prop where
  ready : m.ready = true
  trackedPages : m.trackedPages = m₀.trackedPages
  tables : TablesOk userPages {root} m
  plain : PlainTables root m
  free : ∀ f, Free m f → Free m₀ f

/-- A walk that adds tables. -/
theorem UserSpace.walked (h : UserSpace root m₀ m) (hw : Walked userPages {root} m m')
    (hlarge : FewerLarge m m') :
    UserSpace root m₀ m' ∧ pagesOut root m₀ m' = pagesOut root m₀ m ∧
      m'.entries root = m.entries root := by
  refine ⟨⟨hw.pages.ready.trans h.ready, hw.pages.trackedPages.trans h.trackedPages, hw.tables,
    h.plain.step hw.tables (hw.follow root rfl) hw.reached hlarge, fun f hf => h.free f ?_⟩, ?_,
    entries_congr (hw.view root rfl)⟩
  · by_contra hnot
    exact hw.live f hnot hf
  ext f
  constructor
  · rintro ⟨h₀, hnot, htable⟩
    have hlive : ¬Free m f := fun hf => htable (hw.taken f hf hnot).2
    exact ⟨h₀, hlive, fun ht => htable (hw.isTable ht)⟩
  · rintro ⟨h₀, hnot, htable⟩
    exact ⟨h₀, hw.live f hnot, fun ht => (hw.reached f ht).elim htable hnot⟩

/-- A page is given back, with its last reference. -/
def MmState.freePage (m : MmState) (f : ℕ) : MmState := mmpSetPageFree (m.setRefCount f 0) f

theorem free_freePage (hf : f < m.trackedPages) (g : ℕ) :
    Free (m.freePage f) g ↔ Free m g ∨ g = f := by
  have halloc : mmpIsPageAllocated (m.freePage f) g =
      (!decide (g = f) && mmpIsPageAllocated m g) := mmpIsPageAllocated_setPageFree _ _ _
  rw [Free, halloc, Bool.and_eq_false_iff, Bool.not_eq_false', decide_eq_true_eq]
  constructor
  · rintro ⟨hlt, rfl | hfree⟩
    · exact .inr rfl
    · exact .inl ⟨hlt, hfree⟩
  · rintro (⟨hlt, hfree⟩ | rfl)
    · exact ⟨hlt, .inr hfree⟩
    · exact ⟨hf, .inl rfl⟩

/-- `MmpReleasePage` gives back a page with one reference. -/
theorem mmpReleasePage_last (hlt : pa.toNat / mmPageSize < m.trackedPages)
    (hcount : m.pageRefCount (pa.toNat / mmPageSize) = 1) :
    mmpReleasePage m pa = m.freePage (pa.toNat / mmPageSize) := by
  have hguard : ¬(mmMaxTrackedPages ≤ pa.toNat / mmPageSize ∨
      m.pageRefCount (pa.toNat / mmPageSize) = 0) := by
    rintro (hle | hzero)
    · exact absurd (hlt.trans_le m.trackedPages_le) (Nat.not_lt.2 hle)
    · rw [hcount] at hzero
      cases hzero
  rw [mmpReleasePage]
  dsimp only
  rw [if_neg hguard, hcount]
  exact if_pos (Function.update_self _ _ _)

/-- `MmFreePage` gives back a page that is allocated. -/
theorem mmFreePage_allocated (hready : m.ready = true) (haligned : pa.toNat % mmPageSize = 0)
    (hlt : pa.toNat / mmPageSize < m.trackedPages) (hlive : ¬Free m (pa.toNat / mmPageSize)) :
    mmFreePage m pa = (m.freePage (pa.toNat / mmPageSize), .ok ()) := by
  rw [mmFreePage, if_neg (by rw [hready]; simpa using haligned)]
  dsimp only
  rw [if_neg (Nat.not_le.2 hlt), if_neg fun hfree => hlive ⟨hlt, hfree⟩]
  rfl

theorem UserSpace.freed (h : UserSpace root m₀ m) (hf : f ∈ pagesOut root m₀ m) :
    UserSpace root m₀ (m.freePage f) ∧
      pagesOut root m₀ (m.freePage f) = pagesOut root m₀ m \ {f} ∧
      (m.freePage f).entries root = m.entries root := by
  have htable : ∀ g, IsTable userPages {root} (m.freePage f) g ↔ IsTable userPages {root} m g :=
    isTable_of_mem_eq rfl
  have hfree := free_freePage (show f < m.trackedPages from h.trackedPages ▸ hf.1.1)
  have hlive : ∀ g, IsTable userPages {root} m g → ¬Free (m.freePage f) g := by
    intro g hg hg'
    rcases (hfree g).1 hg' with hg' | rfl
    · exact h.tables.live g hg hg'
    · exact hf.2.2 hg
  have hmem : ∀ g, IsTable userPages {root} m g → (m.freePage f).mem g = m.mem g := fun _ _ => rfl
  obtain ⟨htables, hview⟩ := h.tables.quiet hmem hlive
  refine ⟨⟨h.ready, h.trackedPages, htables, h.plain, fun g hg => ?_⟩, ?_,
    entries_congr (hview root rfl)⟩
  · rcases (hfree g).1 hg with hg | rfl
    · exact h.free g hg
    · exact hf.1
  ext g
  constructor
  · rintro ⟨h₀, hnot, hnt⟩
    exact ⟨⟨h₀, fun hg => hnot ((hfree g).2 (.inl hg)), fun ht => hnt ((htable g).2 ht)⟩,
      fun hg => hnot ((hfree g).2 (.inr hg))⟩
  · rintro ⟨⟨h₀, hnot, hnt⟩, hne⟩
    exact ⟨h₀, fun hg => ((hfree g).1 hg).elim hnot hne, fun ht => hnt ((htable g).1 ht)⟩

/-- A page is handed out. -/
theorem UserSpace.taken (h : UserSpace root m₀ m) (hpage : Free m page) :
    UserSpace root m₀ (m.takePage page 1) ∧
      pagesOut root m₀ (m.takePage page 1) = insert page (pagesOut root m₀ m) ∧
      (m.takePage page 1).entries root = m.entries root := by
  have htable : ∀ g, IsTable userPages {root} (m.takePage page 1) g ↔
      IsTable userPages {root} m g := isTable_of_mem_eq rfl
  have hfree : ∀ g, Free (m.takePage page 1) g ↔ Free m g ∧ g ≠ page := by
    intro g
    rw [Free, Free, MmState.trackedPages_takePage, MmState.allocated_takePage,
      Bool.or_eq_false_iff, decide_eq_false_iff_not]
    exact ⟨fun h => ⟨⟨h.1, h.2.2⟩, h.2.1⟩, fun h => ⟨h.1.1, h.2, h.1.2⟩⟩
  have hmem : ∀ g, IsTable userPages {root} m g → (m.takePage page 1).mem g = m.mem g :=
    fun _ _ => rfl
  obtain ⟨htables, hview⟩ := h.tables.quiet hmem
    fun g hg hf => h.tables.live g hg ((hfree g).1 hf).1
  refine ⟨⟨h.ready, h.trackedPages, htables, h.plain, fun g hg => h.free g ((hfree g).1 hg).1⟩, ?_,
    entries_congr (hview root rfl)⟩
  ext g
  constructor
  · rintro ⟨h₀, hnot, hnt⟩
    by_cases hg : g = page
    · exact .inl hg
    · exact .inr ⟨h₀, fun hf => hnot ((hfree g).2 ⟨hf, hg⟩), fun ht => hnt ((htable g).2 ht)⟩
  · rintro (rfl | ⟨h₀, hnot, hnt⟩)
    · exact ⟨h.free _ hpage, fun hf => ((hfree _).1 hf).2 rfl,
        fun ht => h.tables.live _ ((htable _).1 ht) hpage⟩
    · exact ⟨h₀, fun hf => hnot ((hfree g).1 hf).1, fun ht => hnt ((htable g).1 ht)⟩

/-- The entry of a page is written. -/
theorem UserSpace.written (h : UserSpace root m₀ m) (hva : va ∈ userPages)
    (ht : m.tableAt root va 3 = some t) (entry : U64) :
    UserSpace root m₀ (m.writeEntry t (tableIndex va 3) entry) ∧
      pagesOut root m₀ (m.writeEntry t (tableIndex va 3) entry) = pagesOut root m₀ m ∧
      (m.writeEntry t (tableIndex va 3) entry).entries root =
        Function.update (m.entries root) va
          (if hasFlag entry mmPtePresent then some entry else none) := by
  obtain ⟨htables, hfollow, hview⟩ := h.tables.writeLeaf rfl hva ht entry
  have htable : ∀ g, IsTable userPages {root} (m.writeEntry t (tableIndex va 3) entry) g ↔
      IsTable userPages {root} m g := by
    intro g
    constructor
    · rintro ⟨r, hr, p, hp, hg⟩
      exact ⟨r, hr, p, hp, (hfollow r hr p hp).symm.trans hg⟩
    · rintro ⟨r, hr, p, hp, hg⟩
      exact ⟨r, hr, p, hp, (hfollow r hr p hp).trans hg⟩
  have hshares := fun va' (hva' : va' ∈ userPages) => h.tables.shares_iff rfl hva ht hva'
    (userPages_lt hva) (userPages_lt hva')
  refine ⟨⟨h.ready, h.trackedPages, htables, ?_, h.free⟩, ?_, ?_⟩
  · rintro va' hva' k hk _ ⟨hk3, u, hu, rfl⟩
    have hold : m.tableAt root va' k = some u :=
      (hfollow root rfl _ (vaPath_mem hva' hk3)).symm.trans hu
    -- the table is above the last level
    have hne : u ≠ t := by
      rintro rfl
      have hlength := congrArg List.length (h.tables.depth rfl rfl hva' hva hk3 le_rfl hold ht)
      rw [length_vaPath, length_vaPath] at hlength
      omega
    rw [mem_writeEntry_of_ne _ _ (.inl hne)]
    exact h.plain va' hva' k hk _ (reads_of_tableAt hk3 hold)
  · ext g
    exact and_congr Iff.rfl (and_congr Iff.rfl (not_congr (htable g)))
  · funext va'
    by_cases hva' : va' ∈ userPages
    · by_cases hsame : va' = va
      · have hnew := (hview root rfl va hva).trans (if_pos ⟨ht, rfl⟩)
        rw [hsame, Function.update_self, MmState.entries, hnew]
        simp only [hva, true_and]
      · have hold := (hview root rfl va' hva').trans (if_neg fun hshared =>
          hsame ((userPages_ext hva' hva).1 ((hshares va' hva').1 hshared)))
        rw [Function.update_of_ne hsame, MmState.entries, MmState.entries, hold]
    · rw [Function.update_of_ne (by rintro rfl; exact hva' hva), MmState.entries, MmState.entries,
        if_neg fun h => hva' h.1, if_neg fun h => hva' h.1]

/-! ## What the client holds -/

/-- What runs keep: each page that was taken has one holder or is a table, and is counted once. -/
structure Owned (a : AddressSpaceRef) (root : ℕ) (m₀ : MmState) (s : PageClient) : Prop where
  rootFrame : s.mm.rootFrame a = root
  space : UserSpace root m₀ s.mm
  custody : Custody (s.dict root).holds (pagesOut root m₀ s.mm)
  refCount : ∀ f ∈ pagesOut root m₀ s.mm, s.mm.pageRefCount f = 1
  held : ∀ pa ∈ s.held, pageAddress (pteFrame pa) = pa

theorem mapEntry_present (pa flags : U64) : hasFlag (mapEntry pa flags) mmPtePresent = true := by
  rw [mapEntry, hasFlag_or, Bool.or_eq_true]
  exact .inr (by decide)

namespace Owned

variable {s : PageClient} {entry flags : U64}

variable (root) in
theorem holds_client (hpa : pa ∈ s.held) :
    (s.dict root).holds (.client pa) = some (pteFrame pa) := if_pos hpa

theorem holds_page (hentry : s.mm.entries root va = some entry) :
    (s.dict root).holds (.page va) = some (pteFrame entry) := congrArg (Option.map pteFrame) hentry

/-- A page that the client holds, and its address. -/
theorem held_page (own : Owned a root m₀ s) (hpa : pa ∈ s.held) :
    pteFrame pa ∈ pagesOut root m₀ s.mm ∧ pteFrame pa < s.mm.trackedPages ∧
      pa.toNat % mmPageSize = 0 ∧ pa.toNat / mmPageSize = pteFrame pa := by
  have hout := own.custody.mem (holds_client root hpa)
  have hlt : pteFrame pa < s.mm.trackedPages := by
    rw [own.space.trackedPages]
    exact hout.1.1
  have haddress := pageAddress_page hlt
  rw [own.held pa hpa] at haddress
  exact ⟨hout, hlt, haddress⟩

/-- A page that is mapped is in no other hands. -/
theorem mapped_not_held (own : Owned a root m₀ s) (hentry : s.mm.entries root va = some entry) :
    pageAddress (pteFrame entry) ∉ s.held := by
  intro hheld
  have hout := own.custody.mem (holds_page hentry)
  have hclient := holds_client root hheld
  rw [pteFrame_pageAddress (lt_of_lt_trackedPages hout.1.1)] at hclient
  cases own.custody.once _ _ _ hclient (holds_page hentry)

/-- A walk that adds tables. -/
theorem walked (own : Owned a root m₀ s) (hw : Walked userPages {root} s.mm m')
    (hlarge : FewerLarge s.mm m') :
    Owned a root m₀ ⟨m', s.held⟩ ∧ m'.entries root = s.mm.entries root := by
  obtain ⟨hspace, hout, hentries⟩ := own.space.walked hw hlarge
  refine ⟨⟨(hw.pages.rootFrame a).trans own.rootFrame, hspace, ?_, fun f hf => ?_, own.held⟩,
    hentries⟩
  · rw [PageClient.dict, hentries, hout]
    exact own.custody
  · rw [hout] at hf
    exact (hw.refCount f hf.2.1).trans (own.refCount f hf)

/-- The client is given a page. -/
theorem take (own : Owned a root m₀ s) (hpage : Free s.mm page) :
    Owned a root m₀ ⟨s.mm.takePage page 1, insert (pageAddress page) s.held⟩ ∧
      (s.mm.takePage page 1).entries root = s.mm.entries root ∧
      ∀ x, (s.dict root).holds x ≠ some (pteFrame (pageAddress page)) := by
  obtain ⟨hspace, hout, hentries⟩ := own.space.taken hpage
  have hframe := pteFrame_pageAddress (lt_of_lt_trackedPages hpage.1)
  have hnot : page ∉ pagesOut root m₀ s.mm := fun h => h.2.1 hpage
  have hnone : pageAddress page ∉ s.held := by
    intro hheld
    have hmem := own.custody.mem (holds_client root hheld)
    rw [hframe] at hmem
    exact hnot hmem
  refine ⟨⟨own.rootFrame, hspace, ?_, fun f hf => ?_, ?_⟩, hentries, fun x hx => ?_⟩
  · rw [PageClient.dict, hentries, hout, PageDict.holds_insert, hframe]
    exact own.custody.take (if_neg hnone) hnot
  · rw [MmState.pageRefCount_takePage]
    rw [hout] at hf
    by_cases hsame : f = page
    · rw [hsame, Function.update_self]
    · rw [Function.update_of_ne hsame]
      exact own.refCount f (hf.resolve_left hsame)
  · rintro pa (rfl | hpa)
    · rw [hframe]
    · exact own.held pa hpa
  · rw [hframe] at hx
    exact hnot (own.custody.mem hx)

/-- The client gives a page back. -/
theorem giveBack (own : Owned a root m₀ s) (hpa : pa ∈ s.held) :
    Owned a root m₀ ⟨s.mm.freePage (pteFrame pa), s.held \ {pa}⟩ ∧
      (s.mm.freePage (pteFrame pa)).entries root = s.mm.entries root := by
  obtain ⟨hspace, hout, hentries⟩ := own.space.freed (own.held_page hpa).1
  refine ⟨⟨own.rootFrame, hspace, ?_, fun f hf => ?_, fun pa' hpa' => own.held pa' hpa'.1⟩,
    hentries⟩
  · rw [PageClient.dict, hentries, hout, PageDict.holds_remove]
    exact own.custody.drop (holds_client root hpa)
  · rw [hout] at hf
    exact (Function.update_of_ne hf.2 _ _).trans (own.refCount f hf.1)

/-- An entry is cleared, and the client has its page. -/
theorem clear (own : Owned a root m₀ s) (hva : va ∈ userPages)
    (ht : s.mm.tableAt root va 3 = some t) (hentry : s.mm.entries root va = some entry) :
    Owned a root m₀
        ⟨s.mm.writeEntry t (tableIndex va 3) 0, insert (pageAddress (pteFrame entry)) s.held⟩ ∧
      (s.mm.writeEntry t (tableIndex va 3) 0).entries root =
        Function.update (s.mm.entries root) va none := by
  obtain ⟨hspace, hout, hentries⟩ := own.space.written hva ht 0
  rw [if_neg (by decide)] at hentries
  have hlt : pteFrame entry < 2 ^ 40 :=
    lt_of_lt_trackedPages (own.custody.mem (holds_page hentry)).1.1
  refine ⟨⟨own.rootFrame, hspace, ?_, fun f hf => ?_, ?_⟩, hentries⟩
  · rw [PageClient.dict, hentries, hout, PageDict.holds_insert, PageDict.holds_update,
      pteFrame_pageAddress hlt]
    exact own.custody.pass (holds_page hentry) (if_neg (own.mapped_not_held hentry))
  · rw [hout] at hf
    exact own.refCount f hf
  · rintro pa (rfl | hpa)
    · rw [pteFrame_pageAddress hlt]
    · exact own.held pa hpa

/-- A page of the client is put in an entry that is absent. -/
theorem put (own : Owned a root m₀ s) (hva : va ∈ userPages)
    (ht : s.mm.tableAt root va 3 = some t) (habsent : s.mm.entries root va = none)
    (hpa : pa ∈ s.held) (hflags : flags &&& mmPteAddrMask = 0) :
    Owned a root m₀
        ⟨s.mm.writeEntry t (tableIndex va 3) (mapEntry pa flags), s.held \ {pa}⟩ ∧
      (s.mm.writeEntry t (tableIndex va 3) (mapEntry pa flags)).entries root =
        Function.update (s.mm.entries root) va (some (mapEntry pa flags)) := by
  obtain ⟨hspace, hout, hentries⟩ := own.space.written hva ht (mapEntry pa flags)
  rw [if_pos (mapEntry_present pa flags)] at hentries
  refine ⟨⟨own.rootFrame, hspace, ?_, fun f hf => ?_, fun pa' hpa' => own.held pa' hpa'.1⟩,
    hentries⟩
  · rw [PageClient.dict, hentries, hout, PageDict.holds_update, PageDict.holds_remove,
      Option.map_some, pteFrame_mapEntry hflags]
    exact own.custody.pass (holds_client root hpa) (congrArg (Option.map pteFrame) habsent)
  · rw [hout] at hf
    exact own.refCount f hf

/-- The flags of an entry are changed. -/
theorem change (own : Owned a root m₀ s) (hva : va ∈ userPages)
    (ht : s.mm.tableAt root va 3 = some t) (hentry : s.mm.entries root va = some entry)
    (hflags : flags &&& mmPteAddrMask = 0) :
    Owned a root m₀ ⟨s.mm.writeEntry t (tableIndex va 3) (mapEntry entry flags), s.held⟩ ∧
      (s.mm.writeEntry t (tableIndex va 3) (mapEntry entry flags)).entries root =
        Function.update (s.mm.entries root) va (some (mapEntry entry flags)) := by
  obtain ⟨hspace, hout, hentries⟩ := own.space.written hva ht (mapEntry entry flags)
  rw [if_pos (mapEntry_present entry flags)] at hentries
  refine ⟨⟨own.rootFrame, hspace, ?_, fun f hf => ?_, own.held⟩, hentries⟩
  · rw [PageClient.dict, hentries, hout, PageDict.holds_update, Option.map_some,
      pteFrame_mapEntry hflags, ← holds_page hentry]
    rw [PageClient.dict, Function.update_eq_self]
    exact own.custody
  · rw [hout] at hf
    exact own.refCount f hf

/-- An entry is cleared and its page given back. -/
theorem unmapped (own : Owned a root m₀ s) (hva : va ∈ userPages)
    (ht : s.mm.tableAt root va 3 = some t) (hentry : s.mm.entries root va = some entry) :
    mmpReleasePage s.mm (entry &&& mmPteAddrMask) = s.mm.freePage (pteFrame entry) ∧
      Owned a root m₀
        ⟨(s.mm.freePage (pteFrame entry)).writeEntry t (tableIndex va 3) 0, s.held⟩ ∧
      ((s.mm.freePage (pteFrame entry)).writeEntry t (tableIndex va 3) 0).entries root =
        Function.update (s.mm.entries root) va none := by
  have hout := own.custody.mem (holds_page hentry)
  have hlt : pteFrame entry < s.mm.trackedPages := by
    rw [own.space.trackedPages]
    exact hout.1.1
  obtain ⟨hclear, hentries⟩ := own.clear hva ht hentry
  obtain ⟨hback, hentries'⟩ := hclear.giveBack (Set.mem_insert _ _)
  rw [pteFrame_pageAddress (lt_of_lt_trackedPages hlt)] at hback hentries'
  dsimp only at hback
  rw [Set.insert_sdiff_self_of_notMem (own.mapped_not_held hentry)] at hback
  exact ⟨mmpReleasePage_last hlt (own.refCount _ hout), hback, hentries'.trans hentries⟩

end Owned

/-! ## The operations -/

section Operations

variable {s : PageClient} {entry flags : U64}

/-- The view of a page whose last table is missing. -/
theorem pteView_of_no_table (hplain : PlainTables root m) (hva : va ∈ userPages)
    (ht : m.tableAt root va 3 = none) : pteView m root va = 0 := by
  rw [pteView, ht]
  cases hd : m.tableAt root va 2 with
  | none => rfl
  | some d =>
    dsimp only
    rw [hplain va hva 2 le_rfl _ (reads_of_tableAt (by omega) hd), if_neg Bool.false_ne_true]

/-- A round of a walk that adds no tables, where the entry leads to a table. -/
theorem mmpWalkLevel_lookup {u n next : ℕ} (h : pteChild (m.mem u (tableIndex va n)) = some next) :
    mmpWalkLevel m u n va false = (m, .ok next) := by
  generalize hentry : m.mem u (tableIndex va n) = entry at h
  have hlarge : (hasFlag entry mmPtePresent && hasFlag entry mmPteLarge) = false :=
    isLarge_of_pteChild h
  have hpresent : hasFlag entry mmPtePresent = true := by
    by_contra hnot
    rw [pteChild_of_not_present (Bool.eq_false_iff.2 hnot)] at h
    cases h
  have hframe : pteFrame entry = next :=
    Option.some.inj ((pteChild_of_present hpresent hlarge).symm.trans h)
  have hsplit : mmpSplitLarge m u n va false = (m, .ok entry) := by
    rw [mmpSplitLarge]
    dsimp only
    rw [hentry, hlarge, if_neg Bool.false_ne_true]
  have hsanitize : mmpSanitize m u n va false entry = (m, entry) := by
    rw [mmpSanitize, Bool.and_false, if_neg Bool.false_ne_true]
  have hadd : mmpAddTable m u n va false entry = (m, .ok entry) := by
    rw [mmpAddTable, if_pos hpresent]
  rw [mmpWalkLevel, hsplit]
  dsimp only
  rw [hsanitize]
  dsimp only
  rw [hadd]
  dsimp only
  rw [hframe]

/-- A walk that adds no tables finds the last table, and the entry in it is the view of the page; or
it fails, and nothing is mapped there. -/
theorem UserSpace.lookup (h : UserSpace root m₀ m) (hroot : m.rootFrame a = root)
    (hva : va ∈ userPages) :
    (∃ t, m.tableAt root va 3 = some t ∧ m.mem t (tableIndex va 3) = pteView m root va ∧
        mmpWalkToPte m a va false = (m, .ok (t, tableIndex va 3))) ∨
      m.entries root va = none ∧ ∃ e, mmpWalkToPte m a va false = (m, .error e) := by
  cases ht : m.tableAt root va 3 with
  | some t =>
    refine .inl ⟨t, rfl, (pteView_of_tableAt ht).symm, ?_⟩
    have htables : ∀ k n u, n + k = 3 → m.tableAt root va n = some u →
        mmpWalkTables va false k n u m = (m, .ok t) := by
      intro k
      induction k with
      | zero =>
        intro n u hn hu
        obtain rfl : n = 3 := by omega
        rw [ht] at hu
        cases hu
        rfl
      | succ k ih =>
        intro n u hn hu
        obtain ⟨next, hnext⟩ := tableAt_of_le (show n + 1 ≤ 3 by omega) ht
        have hchild := hnext
        rw [tableAt_succ, hu, Option.bind_some] at hchild
        rw [mmpWalkTables, mmpWalkLevel_lookup hchild]
        exact ih (n + 1) next (by omega) hnext
    rw [mmpWalkToPte, if_neg (by rw [mmpIsCanonicalAddress_userPages hva]; exact Bool.noConfusion),
      hroot, htables 3 0 root rfl rfl]
  | none =>
    refine .inr ⟨(entries_eq_none hva).2 ?_, ?_⟩
    · rw [pteView_of_no_table h.plain hva ht]
      rfl
    · have hfst := mmpWalkToPte_false_fst m a va
      have hfound := (mmpWalkToPte_walked (a := a) h.tables hroot hva false).2
      generalize mmpWalkToPte m a va false = r at hfst hfound ⊢
      obtain ⟨m₁, e | ⟨t, i⟩⟩ := r
      · exact ⟨e, Prod.ext hfst rfl⟩
      · have htable := (hfound t i rfl).2
        rw [show m₁ = m from hfst, hroot, ht] at htable
        cases htable

theorem userPages_aligned (hva : va ∈ userPages) : va.toNat % mmPageSize = 0 :=
  Nat.mod_eq_zero_of_dvd hva.1

/-- A user page, after the checks at the head of an operation. -/
theorem UserSpace.checks {α : Type} (h : UserSpace root m₀ m) (hva : va ∈ userPages) (x y : α) :
    (if m.ready = false ∨ va.toNat % mmPageSize ≠ 0 then x else y) = y := by
  rw [if_neg]
  rw [h.ready, userPages_aligned hva]
  rintro (hready | hpage)
  · cases hready
  · exact hpage rfl

namespace Owned

/-- `MmAllocPage`. -/
theorem alloc_call (own : Owned a root m₀ s) :
    Owned a root m₀ (s.perform a .alloc).1 ∧
      (s.dict root).Call (CanAlloc (s.perform a .alloc).1.mm) .alloc (s.perform a .alloc).2
        ((s.perform a .alloc).1.dict root) := by
  rw [PageClient.perform]
  rcases mmAllocPage_cases s.mm with ⟨e, heq⟩ | ⟨page, hlt, hfree, -, heq⟩
  · rw [heq]
    exact ⟨own, .alloc_fails _ (mmAllocPage_error heq).2⟩
  · rw [heq]
    obtain ⟨hown, hentries, hnew⟩ := own.take ⟨hlt, hfree⟩
    refine ⟨hown, ?_⟩
    rw [PageClient.dict, PageClient.dict, hentries]
    exact .alloc _ hnew

/-- `MmFreePage`. -/
theorem free_call (own : Owned a root m₀ s) (hpa : pa ∈ s.held) :
    Owned a root m₀ (s.perform a (.free pa)).1 ∧
      (s.dict root).Call (CanAlloc (s.perform a (.free pa)).1.mm) (.free pa)
        (s.perform a (.free pa)).2 ((s.perform a (.free pa)).1.dict root) := by
  obtain ⟨hout, hlt, haligned, hframe⟩ := own.held_page hpa
  obtain ⟨hown, hentries⟩ := own.giveBack hpa
  have heq : mmFreePage s.mm pa = (s.mm.freePage (pteFrame pa), .ok ()) := by
    rw [← hframe] at hlt hout ⊢
    exact mmFreePage_allocated own.space.ready haligned hlt hout.2.1
  rw [PageClient.perform, heq]
  refine ⟨hown, ?_⟩
  rw [PageClient.dict, PageClient.dict, hentries]
  exact .free _ pa

/-- `MmAsMapPage`, from the walk on. -/
theorem map_entry (own : Owned a root m₀ s) (hva : va ∈ userPages)
    (ht : s.mm.tableAt root va 3 = some t) (hpa : pa ∈ s.held)
    (hflags : flags &&& mmPteAddrMask = 0) :
    Owned a root m₀
        ⟨(if hasFlag (pteView s.mm root va) mmPtePresent then
            mmpReleasePage s.mm (pteView s.mm root va &&& mmPteAddrMask)
          else s.mm).writeEntry t (tableIndex va 3) (mapEntry pa flags), s.held \ {pa}⟩ ∧
      ((if hasFlag (pteView s.mm root va) mmPtePresent then
            mmpReleasePage s.mm (pteView s.mm root va &&& mmPteAddrMask)
          else s.mm).writeEntry t (tableIndex va 3) (mapEntry pa flags)).entries root =
        Function.update (s.mm.entries root) va (some (mapEntry pa flags)) := by
  by_cases hpresent : hasFlag (pteView s.mm root va) mmPtePresent = true
  · have hentry : s.mm.entries root va = some (pteView s.mm root va) :=
      entries_eq_some.2 ⟨hva, hpresent, rfl⟩
    obtain ⟨hrelease, hown, hentries⟩ := own.unmapped hva ht hentry
    generalize hm₁ : (s.mm.freePage (pteFrame (pteView s.mm root va))).writeEntry t
      (tableIndex va 3) 0 = m₁ at hown hentries
    have htable : m₁.tableAt root va 3 = some t := by
      rw [← hm₁]
      exact (own.space.tables.writeLeaf rfl hva ht 0).2.1 root rfl _ (vaPath_mem hva le_rfl)
        |>.trans ht
    have habsent : m₁.entries root va = none := by
      rw [hentries, Function.update_self]
    obtain ⟨hput, hentries'⟩ := hown.put hva htable habsent hpa hflags
    -- clearing the entry first makes no difference
    have hwrite : m₁.writeEntry t (tableIndex va 3) (mapEntry pa flags) =
        (s.mm.freePage (pteFrame (pteView s.mm root va))).writeEntry t (tableIndex va 3)
          (mapEntry pa flags) := by
      rw [← hm₁, MmState.writeEntry, MmState.writeEntry, MmState.writeEntry]
      simp only [Function.update_self, Function.update_idem]
    rw [hentries, Function.update_idem] at hentries'
    rw [if_pos hpresent, hrelease, ← hwrite]
    exact ⟨hput, hentries'⟩
  · rw [if_neg hpresent]
    exact own.put hva ht ((entries_eq_none hva).2 (Bool.eq_false_iff.2 hpresent)) hpa hflags

/-- `MmAsMapPage`. -/
theorem map_call (own : Owned a root m₀ s) (hva : va ∈ userPages) (hpa : pa ∈ s.held)
    (hflags : flags &&& mmPteAddrMask = 0) :
    Owned a root m₀ (s.perform a (.map va pa flags)).1 ∧
      (s.dict root).Call (CanAlloc (s.perform a (.map va pa flags)).1.mm) (.map va pa flags)
        (s.perform a (.map va pa flags)).2 ((s.perform a (.map va pa flags)).1.dict root) := by
  have hroot := own.rootFrame
  have hchecks : ¬(s.mm.ready = false ∨ va.toNat % mmPageSize ≠ 0 ∨ pa.toNat % mmPageSize ≠ 0) := by
    rw [own.space.ready, userPages_aligned hva, (own.held_page hpa).2.2.1]
    decide
  have hplain := mmpWalkToPte_plain (a := a) (m := s.mm) (hroot ▸ own.space.tables)
    (hroot ▸ own.space.plain) hva
  rw [PageClient.perform, mmAsMapPage, if_neg hchecks]
  rcases mmpWalkToPte_spec (a := a) own.space.tables hroot hva true with
    ⟨m₁, e, hw, heq⟩ | ⟨m₁, t, hw, ht, hpte, heq⟩
  · rw [heq] at hplain ⊢
    obtain ⟨hown, hentries⟩ := own.walked hw hplain.1
    refine ⟨hown, ?_⟩
    rw [PageClient.dict, PageClient.dict, hentries]
    exact .map_fails _ va pa flags (hplain.2 e rfl)
  · rw [heq] at hplain ⊢
    obtain ⟨hown, hentries⟩ := own.walked hw hplain.1
    rw [hroot] at ht hpte
    obtain ⟨hown', hentries'⟩ := hown.map_entry hva ht hpa hflags
    dsimp only at hown' hentries' ⊢
    rw [hpte, ← hw.view root rfl va hva]
    refine ⟨hown', ?_⟩
    rw [PageClient.dict, PageClient.dict]
    dsimp only
    rw [← hentries]
    exact hentries' ▸ .map _ va pa flags

/-- `MmAsUnmapPage`. -/
theorem unmap_call (own : Owned a root m₀ s) (hva : va ∈ userPages) :
    Owned a root m₀ (s.perform a (.unmap va)).1 ∧
      (s.dict root).Call (CanAlloc (s.perform a (.unmap va)).1.mm) (.unmap va)
        (s.perform a (.unmap va)).2 ((s.perform a (.unmap va)).1.dict root) := by
  rw [PageClient.perform, mmAsUnmapPage, own.space.checks hva]
  rcases own.space.lookup own.rootFrame hva with ⟨t, ht, hpte, heq⟩ | ⟨hnone, e, heq⟩
  · rw [heq]
    dsimp only
    rw [hpte]
    by_cases hpresent : hasFlag (pteView s.mm root va) mmPtePresent = false
    · rw [if_pos hpresent]
      exact ⟨own, .unmap_absent _ ((entries_eq_none hva).2 hpresent)⟩
    · have hentry : s.mm.entries root va = some (pteView s.mm root va) :=
        entries_eq_some.2 ⟨hva, by simpa using hpresent, rfl⟩
      obtain ⟨hrelease, hown, hentries⟩ := own.unmapped hva ht hentry
      rw [if_neg hpresent, hrelease]
      refine ⟨hown, ?_⟩
      rw [PageClient.dict, PageClient.dict]
      exact hentries ▸ .unmap _ hentry
  · rw [heq]
    exact ⟨own, .unmap_absent _ hnone⟩

/-- `MmAsProtectPage`. -/
theorem protect_call (own : Owned a root m₀ s) (hva : va ∈ userPages)
    (hflags : flags &&& mmPteAddrMask = 0) :
    Owned a root m₀ (s.perform a (.protect va flags)).1 ∧
      (s.dict root).Call (CanAlloc (s.perform a (.protect va flags)).1.mm) (.protect va flags)
        (s.perform a (.protect va flags)).2 ((s.perform a (.protect va flags)).1.dict root) := by
  rw [PageClient.perform, mmAsProtectPage, own.space.checks hva]
  rcases own.space.lookup own.rootFrame hva with ⟨t, ht, hpte, heq⟩ | ⟨hnone, e, heq⟩
  · rw [heq]
    dsimp only
    rw [hpte]
    by_cases hpresent : hasFlag (pteView s.mm root va) mmPtePresent = false
    · rw [if_pos hpresent]
      exact ⟨own, .protect_absent _ flags ((entries_eq_none hva).2 hpresent)⟩
    · have hentry : s.mm.entries root va = some (pteView s.mm root va) :=
        entries_eq_some.2 ⟨hva, by simpa using hpresent, rfl⟩
      obtain ⟨hown, hentries⟩ := own.change hva ht hentry hflags
      rw [if_neg hpresent]
      refine ⟨hown, ?_⟩
      rw [PageClient.dict, PageClient.dict]
      exact hentries ▸ .protect _ flags hentry
  · rw [heq]
    exact ⟨own, .protect_absent _ flags hnone⟩

/-- `MmAsQueryPte`. -/
theorem query_call (own : Owned a root m₀ s) (hva : va ∈ userPages) :
    Owned a root m₀ (s.perform a (.query va)).1 ∧
      (s.dict root).Call (CanAlloc (s.perform a (.query va)).1.mm) (.query va)
        (s.perform a (.query va)).2 ((s.perform a (.query va)).1.dict root) := by
  rw [PageClient.perform, mmAsQueryPte, own.space.checks hva]
  rcases own.space.lookup own.rootFrame hva with ⟨t, ht, hpte, heq⟩ | ⟨hnone, e, heq⟩
  · rw [heq]
    dsimp only
    rw [hpte]
    refine ⟨own, ?_⟩
    by_cases hpresent : hasFlag (pteView s.mm root va) mmPtePresent = true
    · exact .query _ (entries_eq_some.2 ⟨hva, hpresent, rfl⟩)
    · refine .query_absent _ ((entries_eq_none hva).2 (Bool.eq_false_iff.2 hpresent)) ?_
      rintro entry ⟨⟩
      exact Bool.eq_false_iff.2 hpresent
  · rw [heq]
    exact ⟨own, .query_absent _ hnone fun entry h => by cases h⟩

/-- Every call does what it should, and keeps what runs keep. -/
theorem call (own : Owned a root m₀ s) {c : MapCall} (hc : (s.dict root).Owns c) :
    Owned a root m₀ (s.perform a c).1 ∧
      (s.dict root).Call (CanAlloc (s.perform a c).1.mm) c (s.perform a c).2
        ((s.perform a c).1.dict root) := by
  cases c with
  | alloc => exact own.alloc_call
  | free pa => exact own.free_call hc
  | map va pa flags => exact own.map_call hc.1 hc.2.1 hc.2.2
  | unmap va => exact own.unmap_call hc
  | protect va newFlags => exact own.protect_call hc.1 hc.2
  | query va => exact own.query_call hc

end Owned

end Operations

/-! ## Runs -/

namespace Owned

variable {s s' : PageClient} {calls : List MapCall}

/-- No call writes to a page that was taken and is no table. -/
theorem mem_call (own : Owned a root m₀ s) {c : MapCall} (hc : (s.dict root).Owns c)
    (hf : f ∈ pagesOut root m₀ s.mm) : (s.perform a c).1.mm.mem f = s.mm.mem f := by
  have hwrite : ∀ m₁ : MmState, m₁.mem f = s.mm.mem f → ¬IsTable userPages {root} m₁ f →
      ∀ (va : U64) (t : ℕ) (entry : U64), va ∈ userPages → m₁.tableAt root va 3 = some t →
        (m₁.writeEntry t (tableIndex va 3) entry).mem f = s.mm.mem f := by
    intro m₁ hmem hnot va t entry hva ht
    refine (Function.update_of_ne ?_ _ _).trans hmem
    rintro rfl
    exact hnot ⟨root, rfl, _, vaPath_mem hva le_rfl, ht⟩
  have hrelease : ∀ (m₁ : MmState) (pa : U64), m₁.mem f = s.mm.mem f →
      ¬IsTable userPages {root} m₁ f → (mmpReleasePage m₁ pa).mem f = s.mm.mem f ∧
        ¬IsTable userPages {root} (mmpReleasePage m₁ pa) f := by
    intro m₁ pa hmem hnot
    have hsame := (mmpReleasePage_cases m₁ pa).1
    exact ⟨by rw [hsame, hmem], fun ht => hnot ((isTable_of_mem_eq hsame f).1 ht)⟩
  cases c with
  | alloc =>
    rw [PageClient.perform]
    rcases mmAllocPage_cases s.mm with ⟨e, heq⟩ | ⟨page, -, -, -, heq⟩ <;> rw [heq]
    rfl
  | free pa =>
    obtain ⟨hout, hlt, haligned, hframe⟩ := own.held_page hc
    rw [← hframe] at hlt hout
    rw [PageClient.perform, mmFreePage_allocated own.space.ready haligned hlt hout.2.1]
    rfl
  | map va pa flags =>
    rcases mmAsMapPage_spec (a := a) own.space.tables own.rootFrame hc.1 pa flags with
      ⟨m₁, e, hw, heq⟩ | ⟨m₁, t, hw, ht, -, heq⟩ <;> rw [PageClient.perform, heq]
    · exact hw.mem f hf.2.1 hf.2.2
    · have hmem := hw.mem f hf.2.1 hf.2.2
      have hnot : ¬IsTable userPages {root} m₁ f :=
        fun htable => (hw.reached f htable).elim hf.2.2 hf.2.1
      rw [own.rootFrame] at ht
      dsimp only
      split
      · obtain ⟨hmem', hnot'⟩ := hrelease m₁ _ hmem hnot
        refine hwrite _ hmem' hnot' va t _ hc.1 ?_
        rw [MmState.tableAt, (mmpReleasePage_cases m₁ _).1]
        exact ht
      · exact hwrite _ hmem hnot va t _ hc.1 ht
  | unmap va =>
    rw [PageClient.perform, mmAsUnmapPage, own.space.checks hc]
    rcases own.space.lookup own.rootFrame hc with ⟨t, ht, -, heq⟩ | ⟨-, e, heq⟩ <;> rw [heq]
    dsimp only
    by_cases hpresent : hasFlag (s.mm.mem t (tableIndex va 3)) mmPtePresent = false
    · rw [if_pos hpresent]
    · rw [if_neg hpresent]
      obtain ⟨hmem', hnot'⟩ := hrelease s.mm _ rfl hf.2.2
      refine hwrite _ hmem' hnot' va t _ hc ?_
      rw [MmState.tableAt, (mmpReleasePage_cases s.mm _).1]
      exact ht
  | protect va newFlags =>
    rw [PageClient.perform, mmAsProtectPage, own.space.checks hc.1]
    rcases own.space.lookup own.rootFrame hc.1 with ⟨t, ht, -, heq⟩ | ⟨-, e, heq⟩ <;> rw [heq]
    dsimp only
    by_cases hpresent : hasFlag (s.mm.mem t (tableIndex va 3)) mmPtePresent = false
    · rw [if_pos hpresent]
    · rw [if_neg hpresent]
      exact hwrite _ rfl hf.2.2 va t _ hc.1 ht
  | query va =>
    rw [PageClient.perform]
    dsimp only
    rw [mmAsQueryPte_fst]

/-- The processor translates by the entries of the client. -/
theorem translate (own : Owned a root m₀ s) (hbase : mmUserBase.toNat ≤ va.toNat)
    (htop : va.toNat < mmUserTop.toNat) :
    (s.mm.translate a va).map Translation.frame =
      (s.mm.entries root (mmpAlignDown va 4096)).map pteFrame := by
  obtain ⟨rfl, hspace, hcustody, -, -⟩ := own
  have hpage := mmpAlignDown_mem_userPages hbase htop
  have hplain : PlainSpace (s.mm.rootFrame a) s.mm :=
    ⟨hspace.ready, hspace.tables, hspace.plain, fun va' hva' hpresent =>
      (hcustody.mem (holds_page (entries_eq_some.2 ⟨hva', hpresent, rfl⟩))).2.1⟩
  cases hT : s.mm.translate a va with
  | some T =>
    obtain ⟨hpresent, hframe⟩ := hplain.view_of_translate hpage hT
    rw [entries_eq_some.2 ⟨hpage, hpresent, rfl⟩, Option.map_some, Option.map_some, hframe]
  | none =>
    rw [(entries_eq_none hpage).2]
    · rfl
    · by_contra hpresent
      obtain ⟨T, hT', -⟩ := hplain.translate_of_present hpage
        (Bool.eq_true_of_not_eq_false hpresent)
      rw [hT] at hT'
      cases hT'

/-- A client that has nothing yet. -/
theorem start (hspace : PlainSpace (m.rootFrame a) m)
    (habsent : ∀ va ∈ userPages, hasFlag (pteView m (m.rootFrame a) va) mmPtePresent = false) :
    Owned a (m.rootFrame a) m ⟨m, ∅⟩ := by
  have hout : pagesOut (m.rootFrame a) m m = ∅ :=
    Set.eq_empty_of_forall_notMem fun f hf => hf.2.1 hf.1
  have hholds : (PageClient.dict (m.rootFrame a) ⟨m, ∅⟩).holds = fun _ => none := by
    funext x
    cases x with
    | client pa => exact if_neg (Set.notMem_empty pa)
    | page va =>
      have hnone : m.entries (m.rootFrame a) va = none :=
        if_neg fun h => by rw [habsent va h.1] at h; cases h.2
      exact congrArg (Option.map pteFrame) hnone
  refine ⟨rfl, ⟨hspace.ready, rfl, hspace.tables, hspace.plain, fun f hf => hf⟩, ?_,
    fun f hf => ?_, fun pa hpa => absurd hpa (Set.notMem_empty pa)⟩
  · rw [hholds, hout]
    exact .empty
  · rw [hout] at hf
    exact absurd hf (Set.notMem_empty f)

end Owned

/-- A step of a run: a call that the client may make. -/
def MapStep (a : AddressSpaceRef) (root : ℕ) (s : PageClient) (c : MapCall) (s' : PageClient) :
    Prop :=
  (s.dict root).Owns c ∧ s' = (s.perform a c).1

theorem Owned.run {s s' : PageClient} {calls : List MapCall} (own : Owned a root m₀ s)
    (hrun : Run (MapStep a root) s calls s') : Owned a root m₀ s' := by
  refine hrun.invariant (fun s c s' own hstep => ?_) own
  obtain ⟨hc, rfl⟩ := hstep
  exact (own.call hc).1

/-- The user range of a new address space starts at its base. -/
theorem mmCreateAddressSpace_nextUserBase {ownerProcessId : U64}
    (hcreate : mmCreateAddressSpace m ownerProcessId = (m', .ok a)) :
    (m'.addressSpacePool a).nextUserBase = mmUserBase := by
  rw [mmCreateAddressSpace] at hcreate
  split at hcreate
  · cases hcreate
  split at hcreate
  · cases hcreate
  generalize mmAllocPage m = r at hcreate
  obtain ⟨m₁, e | q⟩ := r
  · cases hcreate
  · dsimp only at hcreate
    rw [Prod.mk.injEq, Except.ok.injEq] at hcreate
    obtain ⟨rfl, rfl⟩ := hcreate
    simp only [MmState.modifyAddressSpace, Function.update_self]

/-- **The page tables are a map**: in an address space that is created where the firmware's map ends
below the user range, after every run of the client each page that was taken is a table or has
exactly one holder; every call does to the map what it should, with the result that it should have,
and writes to none of these pages; and the processor translates user addresses by the map. -/
theorem page_dict_refined (m₀ m : MmState) (top : ℕ) (ownerProcessId : U64) (a : AddressSpaceRef)
    (huefi : UefiRoot m₀ top) (htop : top ≤ mmUserBase.toNat)
    (hcreate : mmCreateAddressSpace m₀ ownerProcessId = (m, .ok a)) (calls : List MapCall)
    (s : PageClient) (hrun : Run (MapStep a (m.rootFrame a)) ⟨m, ∅⟩ calls s) :
    Custody (s.dict (m.rootFrame a)).holds (pagesOut (m.rootFrame a) m s.mm) ∧
      (∀ c, (s.dict (m.rootFrame a)).Owns c →
        (s.dict (m.rootFrame a)).Call (CanAlloc (s.perform a c).1.mm) c (s.perform a c).2
            ((s.perform a c).1.dict (m.rootFrame a)) ∧
          ∀ f ∈ pagesOut (m.rootFrame a) m s.mm, (s.perform a c).1.mm.mem f = s.mm.mem f) ∧
      ∀ va : U64, mmUserBase.toNat ≤ va.toNat → va.toNat < mmUserTop.toNat →
        (s.mm.translate a va).map Translation.frame =
          ((s.dict (m.rootFrame a)).entries (mmpAlignDown va 4096)).map pteFrame := by
  have inv := huefi.lazyInv htop hcreate
  have hbase := mmCreateAddressSpace_nextUserBase hcreate
  have own := (Owned.start inv.space fun va hva => inv.above va hva (hbase ▸ hva.2.1)).run hrun
  exact ⟨own.custody, fun c hc => ⟨(own.call hc).2, fun f hf => own.mem_call hc hf⟩,
    fun va hbase htop => own.translate hbase htop⟩

/-- A page that is taken and mapped, on a machine whose firmware maps 2 MiB. -/
theorem page_dict_refined_sample : ∃ s,
    Run (MapStep 0 (lazySpace.rootFrame 0)) ⟨lazySpace, ∅⟩
      [.alloc, .map 0x40000000 0x104000 7] s ∧
    Custody (s.dict (lazySpace.rootFrame 0)).holds
      (pagesOut (lazySpace.rootFrame 0) lazySpace s.mm) := by
  have hcreate : mmCreateAddressSpace (uefiMachine 1) 1 = (lazySpace, .ok 0) := by
    have hok : (mmCreateAddressSpace (uefiMachine 1) 1).2 = .ok 0 := by decide +kernel
    rw [← hok, lazySpace]
  have halloc : (mmAllocPage lazySpace).2 = .ok 0x104000 := by decide +kernel
  obtain ⟨s₁, hs₁⟩ : ∃ s₁, s₁ = (PageClient.perform 0 ⟨lazySpace, ∅⟩ .alloc).1 := ⟨_, rfl⟩
  have hfirst : MapStep 0 (lazySpace.rootFrame 0) ⟨lazySpace, ∅⟩ .alloc s₁ := ⟨trivial, hs₁⟩
  have hheld : 0x104000 ∈ s₁.held := by
    rw [hs₁, PageClient.perform]
    generalize mmAllocPage lazySpace = r at halloc
    obtain ⟨m₁, e | pa⟩ := r
    · cases halloc
    · cases halloc
      exact Set.mem_insert _ _
  clear hs₁
  have hva : 0x40000000 ∈ userPages := ⟨by decide, by decide, by decide⟩
  have hflags : (7 : U64) &&& mmPteAddrMask = 0 := by decide
  have hsecond : MapStep 0 (lazySpace.rootFrame 0) s₁ (.map 0x40000000 0x104000 7) _ :=
    ⟨⟨hva, hheld, hflags⟩, rfl⟩
  have hrun := Run.cons hfirst (Run.single hsecond)
  exact ⟨_, hrun, (page_dict_refined (uefiMachine 1) _ (1 * 0x200000) 1 0
    (uefiMachine_tables.1.uefiRoot (by decide)) (by decide) hcreate _ _ hrun).1⟩

end NtxKernel.Mm
