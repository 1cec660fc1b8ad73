import NtxKernel.Mm.Footprint

/-!
# Isolation of address spaces

What calls that name one address space do to the translations of another one.

* `translate` is the walk of the processor over four levels of tables.
* `Separate` says that the walks of some pages in the one space meet no table of the other.
* `isolated`: in every run of calls on the one space that touch only such pages and give back no
  table, the translations of the other space stay as they are.

The root tables are copies, and every table below an entry that was copied belongs to both spaces.
-/

namespace NtxKernel.Mm

open Foundations Ob

/-! ## The walk of the processor -/

/-- What a walk gives: the frame, and the rights that all entries on the way grant. -/
structure Translation where
  frame : ℕ
  writable : Bool
  user : Bool
  noExecute : Bool
  deriving DecidableEq

/-- The rights that are left behind an entry. -/
def Translation.through (t : Translation) (entry : U64) (frame : ℕ) : Translation where
  frame := frame
  writable := t.writable && hasFlag entry mmPteWritable
  user := t.user && hasFlag entry mmPteUser
  noExecute := t.noExecute || hasFlag entry mmPteNx

/-- The frame of an address in a large page of `512 ^ n` pages. -/
def largeFrame (entry va : U64) (n : ℕ) : ℕ :=
  pteFrame entry / 512 ^ n * 512 ^ n + va.toNat / mmPageSize % 512 ^ n

/-- The walk from a table with `n` levels below it. A large page in the root is reserved. -/
def translateFrom (mem : ℕ → TableIx → U64) (va : U64) : ℕ → Translation → Option Translation
  | 0, t =>
    let entry := mem t.frame (tableIndex va 3)
    if hasFlag entry mmPtePresent then some (t.through entry (pteFrame entry)) else none
  | n + 1, t =>
    let entry := mem t.frame (tableIndex va (2 - n))
    if hasFlag entry mmPtePresent = false then none
    else if hasFlag entry mmPteLarge then
      if n = 2 then none else some (t.through entry (largeFrame entry va (n + 1)))
    else translateFrom mem va n (t.through entry (pteFrame entry))

/-- The walk for an address from the root of an address space. -/
def MmState.translate (m : MmState) (a : AddressSpaceRef) (va : U64) : Option Translation :=
  translateFrom m.mem va 3 ⟨m.rootFrame a, true, true, false⟩

variable {m m' : MmState} {va : U64}

theorem translateFrom_congr {root : ℕ}
    (h : ∀ k ≤ 3, ∀ t, m.tableAt root va k = some t → m'.mem t = m.mem t) (n : ℕ) (hn : n ≤ 3)
    (t : Translation) (ht : m.tableAt root va (3 - n) = some t.frame) :
    translateFrom m'.mem va n t = translateFrom m.mem va n t := by
  induction n generalizing t with
  | zero => rw [translateFrom, translateFrom, h 3 le_rfl _ ht]
  | succ n ih =>
    rw [translateFrom, translateFrom, h _ (by omega) _ ht]
    split
    · rfl
    split
    · rfl
    rename_i hpresent hlarge
    refine ih (by omega) _ ?_
    have hlevel : 3 - n = 3 - (n + 1) + 1 := by omega
    have hindex : 3 - (n + 1) = 2 - n := by omega
    rw [hlevel, tableAt_succ, ht, Option.bind_some, hindex]
    exact pteChild_of_present (by simpa using hpresent)
      (by rw [isLarge, Bool.eq_false_iff.2 hlarge, Bool.and_false])

/-- The walk depends on the tables of the address space. -/
theorem translate_congr {b : AddressSpaceRef} (hroot : m'.rootFrame b = m.rootFrame b)
    {U : Set U64} (h : ∀ f, IsTable U {m.rootFrame b} m f → m'.mem f = m.mem f)
    (hva : mmpAlignDown va 4096 ∈ U) : m'.translate b va = m.translate b va := by
  rw [MmState.translate, MmState.translate, hroot]
  refine translateFrom_congr (fun k hk t ht => h t ?_) 3 le_rfl _ rfl
  rw [MmState.tableAt, ← vaPath_mmpAlignDown va hk] at ht
  exact ⟨_, rfl, _, vaPath_mem hva hk, ht⟩

/-- The page of a user address. -/
theorem mmpAlignDown_mem_userPages (hbase : mmUserBase.toNat ≤ va.toNat)
    (htop : va.toNat < mmUserTop.toNat) : mmpAlignDown va 4096 ∈ userPages := by
  have hlow : mmUserBase.toNat = 0x40000000 := by decide
  have hpage : mmPageSize = 4096 := rfl
  rw [hlow] at hbase
  refine ⟨?_, ?_, ?_⟩ <;> rw [mmpAlignDown_toNat]
  · exact Dvd.intro_left _ rfl
  · omega
  · omega

/-! ## Two address spaces -/

/-- The walks of the pages `U` from one root meet no table of the space at another root. -/
structure Separate (U : Set U64) (root other : ℕ) (m : MmState) : Prop where
  tables : TablesOk U {root} m
  live : ∀ f, IsTable userPages {other} m f → ¬Free m f
  apart : ∀ f, IsTable userPages {other} m f → ¬IsTable U {root} m f

/-- The frames that are no tables of the other space. -/
def noTableOf (other : ℕ) (m : MmState) : Set ℕ := {f | ¬IsTable userPages {other} m f}

variable {U : Set U64} {root other : ℕ} {touched : Set U64}

/-- An operation that gives back no table of the other space does not write to its tables. -/
theorem Separate.mem (sep : Separate U root other m)
    (h : Contained U {root} root (noTableOf other m) touched m m') {f : ℕ}
    (hf : IsTable userPages {other} m f) : m'.mem f = m.mem f :=
  h.mem f (sep.live f hf) (fun hnot => hnot hf) (sep.apart f hf)

theorem Separate.step (sep : Separate U root other m)
    (h : Contained U {root} root (noTableOf other m) touched m m') : Separate U root other m' where
  tables := h.tables
  live f hf := by
    have hf' := isTable_of_quiet (fun g hg => sep.mem h hg) hf
    exact h.live f (sep.live f hf') fun hnot => hnot hf'
  apart f hf ht := by
    have hf' := isTable_of_quiet (fun g hg => sep.mem h hg) hf
    rcases h.reached f ht with ht | hfree | hnot
    · exact sep.apart f hf' ht
    · exact sep.live f hf' hfree
    · exact hnot hf'

/-! ## Calls that name one address space -/

/-- A call that names an address space, or a page fault in it. -/
inductive SpaceCall
  | mapAnonymous (size : U64) (protection flags : U32)
  | mapSection (handleValue protection : U32)
  | fault (faultAddress errorCode : U64)
  | mapPage (va pa flags : U64)
  | unmapPage (va : U64)
  | protectPage (va newFlags : U64)

/-- The page of an aligned address. -/
def pageOf (va : U64) : Set U64 := {va' | mmPageSize ∣ va.toNat ∧ va' = va}

/-- The pages that a call may map, unmap or protect. -/
def touchedPages (m : MmState) (a : AddressSpaceRef) : SpaceCall → Set U64
  | .mapAnonymous size _ flags => anonPages m a size flags
  | .mapSection _ _ => ∅
  | .fault faultAddress _ => faultPages m a faultAddress
  | .mapPage va _ _ => pageOf va
  | .unmapPage va => pageOf va
  | .protectPage va _ => pageOf va

variable {σ : Type} [MmGlobals σ]

open MmGlobals

namespace MmSystem

/-- The state after a call or a fault. -/
def performSpace (a : AddressSpaceRef) (s : MmSystem σ) : SpaceCall → MmSystem σ
  | .mapAnonymous size protection flags =>
    ⟨s.ob, setMm (mmMapAnonymous (mm s.k) a size protection flags).1 s.k⟩
  | .mapSection handleValue protection =>
    let (ob, k, _) := mmMapSectionHandle s.ob s.k a handleValue protection
    ⟨ob, k⟩
  | .fault faultAddress errorCode =>
    ⟨s.ob, setMm (mmHandlePageFault (mm s.k) a faultAddress errorCode).1 s.k⟩
  | .mapPage va pa flags => ⟨s.ob, setMm (mmAsMapPage (mm s.k) a va pa flags).1 s.k⟩
  | .unmapPage va => ⟨s.ob, setMm (mmAsUnmapPage (mm s.k) a va).1 s.k⟩
  | .protectPage va newFlags => ⟨s.ob, setMm (mmAsProtectPage (mm s.k) a va newFlags).1 s.k⟩

/-- A step of a run of calls and faults in the address space `a`. -/
def SpaceStep (a : AddressSpaceRef) (s : MmSystem σ) (c : SpaceCall) (s' : MmSystem σ) : Prop :=
  s' = s.performSpace a c

/-- The call touches pages of `U` only, and gives back frames of its own that are no tables. -/
def TouchesOwn (U : Set U64) (a b : AddressSpaceRef) (s : MmSystem σ) (c : SpaceCall) : Prop :=
  Releasable U {(mm s.k).rootFrame a} ((mm s.k).rootFrame a)
    (noTableOf ((mm s.k).rootFrame b) (mm s.k)) (mm s.k) (touchedPages (mm s.k) a c)

/-- The footprint of every call. -/
theorem performSpace_contained {a : AddressSpaceRef} {s : MmSystem σ} {roots released : Set ℕ}
    (htype : SectionTypeOk s.ob s.k) (hU : Separated U) (hroot : (mm s.k).rootFrame a ∈ roots)
    (ok : TablesOk U roots (mm s.k)) (c : SpaceCall)
    (hpages : Releasable U roots ((mm s.k).rootFrame a) released (mm s.k)
      (touchedPages (mm s.k) a c)) :
    Contained U roots ((mm s.k).rootFrame a) released
        (touchedPages (mm s.k) a c) (mm s.k) (mm (s.performSpace a c).k) ∧
      (s.performSpace a c).ob.typePool = s.ob.typePool := by
  -- the calls on one page
  have hpage : ∀ (va : U64) (m' : MmState),
      Releasable U roots ((mm s.k).rootFrame a) released (mm s.k) (pageOf va) →
      (¬mmPageSize ∣ va.toNat → m' = mm s.k) →
      (va ∈ U → (mayRelease (pteView (mm s.k) ((mm s.k).rootFrame a) va) = true →
          ¬IsTable U roots (mm s.k)
              (pteFrame (pteView (mm s.k) ((mm s.k).rootFrame a) va)) ∧
            ¬Free (mm s.k) (pteFrame (pteView (mm s.k) ((mm s.k).rootFrame a) va))) →
        Contained U roots ((mm s.k).rootFrame a)
          (releasedAt (mm s.k) ((mm s.k).rootFrame a) va) {va} (mm s.k) m') →
      Contained U roots ((mm s.k).rootFrame a) released (pageOf va) (mm s.k) m' := by
    intro va m' hrel hunaligned hstep
    by_cases haligned : mmPageSize ∣ va.toNat
    · have hva : va ∈ pageOf va := ⟨haligned, rfl⟩
      have hframes := hrel.frames va hva
      refine (hstep (hrel.subset hva) fun hmay => (hframes hmay).2.symm).mono ?_
        (Set.singleton_subset_iff.2 hva)
      rintro f ⟨hmay, rfl⟩
      exact (hframes hmay).1
    · rw [hunaligned haligned]
      exact .refl ok
  have hpresent : ∀ va, hasFlag (pteView (mm s.k) ((mm s.k).rootFrame a) va) mmPtePresent = true →
      mayRelease (pteView (mm s.k) ((mm s.k).rootFrame a) va) = true := by
    intro va h
    rw [mayRelease, h, Bool.true_or]
  cases c with
  | mapAnonymous size protection flags =>
    rw [performSpace, mm_setMm]
    exact ⟨mmMapAnonymous_contained ok hU rfl hroot hpages, rfl⟩
  | mapSection handleValue protection =>
    rw [performSpace]
    rcases mmMapSectionHandle_cases htype a handleValue protection with
      ⟨-, ob', k', e, heq, rfl, htypes, -⟩ |
      ⟨hcount, ob', header, sec, region, -, href, -, -, -, heq⟩
    · rw [heq]
      exact ⟨.refl ok, htypes⟩
    · rw [heq]
      dsimp only
      rw [mm_setMm]
      refine ⟨?_, ?_⟩
      · have hwrite : Contained U roots ((mm s.k).rootFrame a) released
            (touchedPages (mm s.k) a (.mapSection handleValue protection)) (mm s.k)
            ((mm s.k).modifyAddressSpace a fun space =>
              if h : space.regionCount < mmMaxVaRegions then space.withRegion h region
              else space) :=
          modifyAddressSpace_contained ok _ fun space => by split <;> rfl
        have hsame : ((mm s.k).modifyAddressSpace a fun space =>
            if h : space.regionCount < mmMaxVaRegions then space.withRegion h region else space) =
            { mm s.k with
              addressSpacePool := Function.update (mm s.k).addressSpacePool a
                (((mm s.k).addressSpacePool a).withRegion hcount region) } := by
          simp only [MmState.modifyAddressSpace, dif_pos hcount]
        rw [hsame] at hwrite
        exact hwrite
      · have htypes := obReferenceObjectByHandle_typePool s.ob handleValue
          (if hasFlag protection mmProtWrite then
            mmSectionAccessMapRead ||| mmSectionAccessMapWrite else mmSectionAccessMapRead)
          (mm s.k).sectionType
        rw [href] at htypes
        exact htypes
  | fault faultAddress errorCode =>
    rw [performSpace, mm_setMm]
    exact ⟨mmHandlePageFault_contained ok hU rfl hroot hpages, rfl⟩
  | mapPage va pa flags =>
    rw [performSpace, mm_setMm]
    refine ⟨hpage va _ hpages (fun hnot => ?_) fun hva hframe => ?_, rfl⟩
    · rw [mmAsMapPage, if_pos (.inr (.inl fun h => hnot (Nat.dvd_of_mod_eq_zero h)))]
    · exact mmAsMapPage_contained ok hU hroot hva pa flags fun h =>
        (hframe (hpresent va h)).imp_right Or.inl
  | unmapPage va =>
    rw [performSpace, mm_setMm]
    refine ⟨hpage va _ hpages (fun hnot => ?_) fun hva hframe => ?_, rfl⟩
    · rw [mmAsUnmapPage, if_pos (.inr fun h => hnot (Nat.dvd_of_mod_eq_zero h))]
    · exact mmAsUnmapPage_contained ok hU hroot hva fun h => hframe (hpresent va h)
  | protectPage va newFlags =>
    rw [performSpace, mm_setMm]
    refine ⟨hpage va _ hpages (fun hnot => ?_) fun hva _ => ?_, rfl⟩
    · rw [mmAsProtectPage, if_pos (.inr fun h => hnot (Nat.dvd_of_mod_eq_zero h))]
    · exact mmAsProtectPage_contained ok hU hroot hva newFlags

/-- What a run keeps: the spaces are separate, and the translations of the other one are those of
the state `s₀`. -/
structure IsolationInv (U : Set U64) (a b : AddressSpaceRef) (s₀ s : MmSystem σ) : Prop where
  sectionType : SectionTypeOk s.ob s.k
  separate : Separate U ((mm s.k).rootFrame a) ((mm s.k).rootFrame b) (mm s.k)
  translations : ∀ va : U64, mmUserBase.toNat ≤ va.toNat → va.toNat < mmUserTop.toNat →
    (mm s.k).translate b va = (mm s₀.k).translate b va

theorem IsolationInv.step {a b : AddressSpaceRef} {s₀ s s' : MmSystem σ} {c : SpaceCall}
    (inv : IsolationInv U a b s₀ s) (hU : Separated U) (htouches : s.TouchesOwn U a b c)
    (hstep : SpaceStep a s c s') : IsolationInv U a b s₀ s' := by
  rw [SpaceStep] at hstep
  subst hstep
  obtain ⟨hcontained, htypes⟩ :=
    performSpace_contained inv.sectionType hU (Set.mem_singleton _) inv.separate.tables c htouches
  have hmem := fun f hf => inv.separate.mem hcontained (f := f) hf
  refine ⟨?_, ?_, fun va hbase htop => ?_⟩
  · intro t ht
    rw [htypes]
    exact inv.sectionType t (hcontained.globals.sectionType.symm.trans ht)
  · rw [hcontained.globals.rootFrame a, hcontained.globals.rootFrame b]
    exact inv.separate.step hcontained
  · rw [← inv.translations va hbase htop]
    exact translate_congr (hcontained.globals.rootFrame b) hmem (mmpAlignDown_mem_userPages hbase htop)

/-- In every run of calls on the space `a` that touch only pages whose walks meet no table of the
space `b`, and give back no table, the translations of `b` are the same after every step. -/
theorem isolated (a b : AddressSpaceRef) (U : Set U64) (s₀ : MmSystem σ) (hU : U ⊆ userPages)
    (htype : SectionTypeOk s₀.ob s₀.k)
    (hseparate : Separate U ((mm s₀.k).rootFrame a) ((mm s₀.k).rootFrame b) (mm s₀.k))
    (calls : List SpaceCall)
    (htouches : Always (SpaceStep a) (fun s c _ => s.TouchesOwn U a b c) s₀ calls) :
    Always (SpaceStep a) (fun _ _ s' => ∀ va : U64, mmUserBase.toNat ≤ va.toNat →
      va.toNat < mmUserTop.toNat → (mm s'.k).translate b va = (mm s₀.k).translate b va) s₀ calls :=
  htouches.imp (I := IsolationInv U a b s₀)
    (fun _ _ _ inv hc hstep => inv.step (separated_userPages.mono hU) hc hstep)
    (fun _ _ _ inv hstep hc => (inv.step (separated_userPages.mono hU) hc hstep).translations)
    ⟨htype, hseparate, fun _ _ _ => rfl⟩

/-! ## Two spaces of the small machine -/

/-- The machine with a second address space. -/
def samplePair : MmSystem MmState :=
  ⟨sampleSystem.ob, (mmCreateAddressSpace sampleSystem.k 2).1⟩

theorem samplePair_memory :
    (∀ i : TableIx, i ≠ 0 → i.val < 256 → pteChild ((mm samplePair.k).mem 0x103 i) = none) ∧
      (∀ i : TableIx, i ≠ 0 → i.val < 256 → pteChild ((mm samplePair.k).mem 0x104 i) = none) ∧
      pteChild ((mm samplePair.k).mem 0x104 0) = some 17 ∧
      (∀ i : TableIx, i ≠ 0 → pteChild ((mm samplePair.k).mem 17 i) = none) ∧
      (mm samplePair.k).rootFrame 0 = 0x103 ∧ (mm samplePair.k).rootFrame 1 = 0x104 ∧
      (mm samplePair.k).sectionType = some 0 ∧
      mmpIsPageAllocated (mm samplePair.k) 0x103 = true ∧
      mmpIsPageAllocated (mm samplePair.k) 0x104 = true ∧
      mmpIsPageAllocated (mm samplePair.k) 17 = true ∧
      pteView (mm samplePair.k) 0x103 0x8000000000 = 0 := by decide +kernel

/-- The user pages behind the first entry of the root table. -/
def laterPages : Set U64 := {va ∈ userPages | tableIndex va 0 ≠ 0}

theorem samplePair_separate : Separate laterPages 0x103 0x104 (mm samplePair.k) := by
  obtain ⟨hroot, hroot', hfirst, hnext, -, -, -, hlive, hlive', hlive'', -⟩ := samplePair_memory
  have hnot : ∀ f, mmpIsPageAllocated (mm samplePair.k) f = true → ¬Free (mm samplePair.k) f := by
    rintro f hf ⟨-, hfree⟩
    rw [hf] at hfree
    cases hfree
  -- from the first root, the paths of these pages end at once
  have hpaths : ∀ p ∈ tablePaths laterPages, ∀ f,
      follow pteChild (mm samplePair.k).mem 0x103 p = some f → p = [] ∧ f = 0x103 := by
    rintro p ⟨va, ⟨hva, hindex⟩, n, hn, rfl⟩ f hf
    have h0 := tableIndex_val va 0
    have htop : mmUserTop.toNat = 0x800000000000 := by decide
    have hlt := hva.2.2
    norm_num at h0
    have hone : (mm samplePair.k).tableAt 0x103 va 1 = none := by
      rw [tableAt_succ]
      show pteChild _ = none
      exact hroot _ hindex (by omega)
    have hzero : n = 0 := by
      by_contra hne
      obtain ⟨u, hu⟩ := tableAt_of_le (Nat.one_le_iff_ne_zero.2 hne) hf
      rw [hone] at hu
      cases hu
    subst hzero
    exact ⟨rfl, (Option.some.inj hf).symm⟩
  have hother : ∀ f, IsTable userPages {0x104} (mm samplePair.k) f → f = 0x104 ∨ f = 17 := by
    rintro f ⟨r, rfl, p, hp, hf⟩
    exact (follow_userPages hroot' hfirst hnext hp hf).imp And.right And.right
  refine ⟨⟨?_, ?_⟩, ?_, ?_⟩
  · rintro r rfl r' rfl p hp p' hp' f hf hf'
    rw [(hpaths p hp f hf).1, (hpaths p' hp' f hf').1]
  · rintro f ⟨r, rfl, p, hp, hf⟩
    rw [(hpaths p hp f hf).2]
    exact hnot _ hlive
  · intro f hf
    rcases hother f hf with rfl | rfl
    · exact hnot _ hlive'
    · exact hnot _ hlive''
  · rintro f hf ⟨r, rfl, p, hp, hf'⟩
    have hframe := (hpaths p hp f hf').2
    rcases hother f hf with h | h <;> rw [hframe] at h <;> exact absurd h (by decide)

theorem isolated_sample : Always (SpaceStep 0) (fun _ _ s' => ∀ va : U64,
      mmUserBase.toNat ≤ va.toNat → va.toNat < mmUserTop.toNat →
        (mm s'.k).translate 1 va = (mm samplePair.k).translate 1 va) samplePair
    [.mapPage 0x8000000000 0x105000 7, .mapAnonymous 0x1000 3 1] := by
  obtain ⟨-, -, -, -, hroot, hroot', htype, -, -, -, hview⟩ := samplePair_memory
  refine isolated 0 1 laterPages samplePair (fun va hva => hva.1) ?_ ?_ _ ?_
  · intro t ht
    rw [htype, Option.some.injEq] at ht
    rw [← ht]
    exact sampleOb_deleteRoutine
  · rw [hroot, hroot']
    exact samplePair_separate
  · rintro s₁ rfl
    refine ⟨?_, ?_⟩
    · dsimp only [TouchesOwn]
      rw [hroot]
      refine ⟨?_, ?_, ?_⟩
      · rintro va ⟨-, rfl⟩
        exact ⟨⟨by decide, by decide, by decide⟩, by decide⟩
      · rintro va ⟨-, rfl⟩ hmay
        rw [hview] at hmay
        exact absurd hmay (by decide)
      · rintro va ⟨-, rfl⟩ va' ⟨-, rfl⟩ - - -
        rfl
    rintro s₂ rfl
    refine ⟨?_, trivial⟩
    have hnone : ∀ m : MmState, touchedPages m 0 (.mapAnonymous 0x1000 3 1) = ∅ := by
      intro m
      refine Set.eq_empty_of_forall_notMem fun va hva => ?_
      exact absurd hva.1 (by decide)
    dsimp only [TouchesOwn]
    rw [hnone]
    exact ⟨Set.empty_subset _, fun va hva => hva.elim, fun va hva => hva.elim⟩

/-- A page that is mapped in one space is mapped in the other, where the entry of the root is a
copy. -/
theorem mapped_in_both : ¬Always (SpaceStep 0) (fun _ _ s' => ∀ va : U64,
      mmUserBase.toNat ≤ va.toNat → va.toNat < mmUserTop.toNat →
        (mm s'.k).translate 1 va = (mm samplePair.k).translate 1 va) samplePair
    [.mapAnonymous 0x1000 3 2] := by
  intro h
  have hsame := (h _ rfl).1 0x40000000 (by decide) (by decide)
  revert hsame
  decide +kernel

end MmSystem

end NtxKernel.Mm
