import NtxKernel.Mm.Regions
import NtxKernel.Mm.Tables

/-!
# Mapping a page

What the operations on single pages do to the view that the page tables give of the pages
(`pteView`).

* `TablesOk.quiet`: what touches no table changes no view.
* `TablesOk.writeLeaf`: writing the entry of a page changes the view of this page, in the address
  spaces that share its table.
* `mmAsMapPage_spec`, `mmAsProtectPage_spec`, `mmAsQueryPte_spec`: the operations are a walk and one
  such write.
-/

namespace NtxKernel.Mm

open Foundations

/-! ## Pages of addresses -/

theorem tableIndex_val (va : U64) (k : ℕ) :
    (tableIndex va k).val = va.toNat / 2 ^ (39 - 9 * k) % 512 := by
  show (va >>> (39 - 9 * k)).toNat % 512 = _
  rw [BitVec.toNat_ushiftRight, Nat.shiftRight_eq_div_pow]

/-- The walk for a page does not look at the offset in it. -/
theorem tableIndex_mmpAlignDown (va : U64) {k : ℕ} (hk : k ≤ 3) :
    tableIndex (mmpAlignDown va 4096) k = tableIndex va k := by
  refine Fin.ext ?_
  rw [tableIndex_val, tableIndex_val, mmpAlignDown_toNat]
  have hcases : k = 0 ∨ k = 1 ∨ k = 2 ∨ k = 3 := by omega
  rcases hcases with rfl | rfl | rfl | rfl <;> norm_num <;> omega

theorem vaPath_mmpAlignDown (va : U64) {n : ℕ} (hn : n ≤ 3) :
    vaPath (mmpAlignDown va 4096) n = vaPath va n := by
  induction n with
  | zero => rfl
  | succ n ih => rw [vaPath, vaPath, ih (by omega), tableIndex_mmpAlignDown va (by omega)]

/-- Two addresses in the lower half with the same indices lie in one page. -/
theorem page_eq_of_indices {va va' : U64} (hlt : va.toNat < 2 ^ 48) (hlt' : va'.toNat < 2 ^ 48)
    (h : ∀ k ≤ 3, tableIndex va k = tableIndex va' k) :
    va.toNat / mmPageSize = va'.toNat / mmPageSize := by
  have h0 := congrArg Fin.val (h 0 (by omega))
  have h1 := congrArg Fin.val (h 1 (by omega))
  have h2 := congrArg Fin.val (h 2 (by omega))
  have h3 := congrArg Fin.val (h 3 (by omega))
  simp only [tableIndex_val] at h0 h1 h2 h3
  norm_num at h0 h1 h2 h3
  have hpage : mmPageSize = 4096 := rfl
  rw [hpage]
  omega

/-- Two addresses in one page have the same indices. -/
theorem tableIndex_of_page_eq {va va' : U64}
    (h : va.toNat / mmPageSize = va'.toNat / mmPageSize) {k : ℕ} (hk : k ≤ 3) :
    tableIndex va k = tableIndex va' k := by
  rw [← tableIndex_mmpAlignDown va hk, ← tableIndex_mmpAlignDown va' hk]
  have hdown : mmpAlignDown va 4096 = mmpAlignDown va' 4096 := by
    refine BitVec.eq_of_toNat_eq ?_
    rw [mmpAlignDown_toNat, mmpAlignDown_toNat]
    exact congrArg (· * 4096) h
  rw [hdown]

theorem vaPath_of_page_eq {va va' : U64} (h : va.toNat / mmPageSize = va'.toNat / mmPageSize)
    {n : ℕ} (hn : n ≤ 4) : vaPath va n = vaPath va' n := by
  induction n with
  | zero => rfl
  | succ n ih => rw [vaPath, vaPath, ih (by omega), tableIndex_of_page_eq h (by omega)]

theorem tableIndex_of_vaPath_eq {va va' : U64} {n : ℕ} (h : vaPath va n = vaPath va' n) {k : ℕ}
    (hk : k < n) : tableIndex va k = tableIndex va' k := by
  induction n with
  | zero => omega
  | succ n ih =>
    rw [vaPath, vaPath] at h
    have hsplit := List.append_inj' h rfl
    by_cases hkn : k = n
    · rw [hkn]
      exact (List.cons.inj hsplit.2).1
    · exact ih hsplit.1 (by omega)

/-- The view of a page depends on the page alone. -/
theorem pteView_of_page_eq (mm : MmState) (root : ℕ) {va va' : U64}
    (h : va.toNat / mmPageSize = va'.toNat / mmPageSize) :
    pteView mm root va = pteView mm root va' := by
  rw [pteView, pteView, MmState.tableAt, MmState.tableAt, MmState.tableAt, MmState.tableAt,
    vaPath_of_page_eq h (by omega), vaPath_of_page_eq h (show 2 ≤ 4 by omega),
    tableIndex_of_page_eq h le_rfl, tableIndex_of_page_eq h (show 2 ≤ 3 by omega)]

/-! ## Steps that touch no table -/

section Views

variable {A : Set U64} {roots : Set ℕ} {mm mm' : MmState} {root t : ℕ} {va : U64}

/-- What touches no table adds none. -/
theorem isTable_of_quiet (hmem : ∀ f, IsTable A roots mm f → mm'.mem f = mm.mem f) {f : ℕ}
    (hf : IsTable A roots mm' f) : IsTable A roots mm f := by
  obtain ⟨r, hr, p, hp, h⟩ := hf
  exact ⟨r, hr, p, hp, (follow_of_not_reached (tablePaths_closed A) hr hmem hp).symm.trans h⟩

/-- What touches no table, and frees none, keeps the tables and the views. -/
theorem TablesOk.quiet (ok : TablesOk A roots mm)
    (hmem : ∀ f, IsTable A roots mm f → mm'.mem f = mm.mem f)
    (hlive : ∀ f, IsTable A roots mm f → ¬Free mm' f) :
    TablesOk A roots mm' ∧
      ∀ r ∈ roots, ∀ va ∈ A, pteView mm' r va = pteView mm r va := by
  have hfollow : ∀ r ∈ roots, ∀ p ∈ tablePaths A,
      follow pteChild mm'.mem r p = follow pteChild mm.mem r p :=
    fun r hr p hp => follow_of_not_reached (tablePaths_closed A) hr hmem hp
  refine ⟨⟨ok.tree.congr hfollow, fun f hf => hlive f (isTable_of_quiet hmem hf)⟩, ?_⟩
  · intro r hr va hva
    have h3 : mm'.tableAt r va 3 = mm.tableAt r va 3 := hfollow r hr _ (vaPath_mem hva le_rfl)
    have h2 : mm'.tableAt r va 2 = mm.tableAt r va 2 :=
      hfollow r hr _ (vaPath_mem hva (by omega))
    rw [pteView, pteView, h3, h2]
    cases ht : mm.tableAt r va 3 with
    | some t =>
      dsimp only
      rw [hmem t ⟨r, hr, _, vaPath_mem hva le_rfl, ht⟩]
    | none =>
      cases hd : mm.tableAt r va 2 with
      | none => rfl
      | some d =>
        dsimp only
        rw [hmem d ⟨r, hr, _, vaPath_mem hva (by omega), hd⟩]

/-! ## Writing the entry of a page -/

/-- Writing the entry of a page changes the view of the page, where its table is shared, and
nothing else. -/
theorem TablesOk.writeLeaf (ok : TablesOk A roots mm) (hroot : root ∈ roots) (hva : va ∈ A)
    (ht : mm.tableAt root va 3 = some t) (entry : U64) :
    TablesOk A roots (mm.writeEntry t (tableIndex va 3) entry) ∧
      (∀ r ∈ roots, ∀ p ∈ tablePaths A,
        follow pteChild (mm.writeEntry t (tableIndex va 3) entry).mem r p =
          follow pteChild mm.mem r p) ∧
      ∀ r ∈ roots, ∀ va' ∈ A, pteView (mm.writeEntry t (tableIndex va 3) entry) r va' =
        if mm.tableAt r va' 3 = some t ∧ tableIndex va' 3 = tableIndex va 3 then entry
        else pteView mm r va' := by
  have hmem : ∀ f, f ≠ t → (mm.writeEntry t (tableIndex va 3) entry).mem f = mm.mem f :=
    fun f hf => Function.update_of_ne hf _ _
  -- a path goes on below its table only where the table is not a last one
  have hfollow : ∀ r ∈ roots, ∀ p ∈ tablePaths A,
      follow pteChild (mm.writeEntry t (tableIndex va 3) entry).mem r p =
        follow pteChild mm.mem r p := by
    intro r hr p hp
    refine follow_congr (tablePaths_closed A) (fun q i hqi w hw => ?_) hp
    have hne : w ≠ t := by
      intro he
      have hpath := ok.tree r hr root hroot q (tablePaths_closed A q i hqi) _
        (vaPath_mem hva le_rfl) t (he ▸ hw) ht
      have hlength := length_le_of_mem hqi
      rw [List.length_append, hpath, length_vaPath, List.length_singleton] at hlength
      omega
    rw [hmem w hne]
  have hreach : ∀ f, IsTable A roots (mm.writeEntry t (tableIndex va 3) entry) f →
      IsTable A roots mm f := by
    rintro f ⟨r, hr, p, hp, h⟩
    exact ⟨r, hr, p, hp, (hfollow r hr p hp).symm.trans h⟩
  refine ⟨⟨ok.tree.congr hfollow, fun f hf => ok.live f (hreach f hf)⟩, hfollow, ?_⟩
  intro r hr va' hva'
  have h3 : (mm.writeEntry t (tableIndex va 3) entry).tableAt r va' 3 = mm.tableAt r va' 3 :=
    hfollow r hr _ (vaPath_mem hva' le_rfl)
  have h2 : (mm.writeEntry t (tableIndex va 3) entry).tableAt r va' 2 = mm.tableAt r va' 2 :=
    hfollow r hr _ (vaPath_mem hva' (by omega))
  rw [pteView, pteView, h3, h2]
  cases htable : mm.tableAt r va' 3 with
  | some w =>
    dsimp only
    by_cases hw : w = t
    · rw [hw]
      simp only [MmState.writeEntry, Function.update_self]
      by_cases hi : tableIndex va' 3 = tableIndex va 3
      · rw [hi, Function.update_self, if_pos ⟨trivial, rfl⟩]
      · rw [Function.update_of_ne hi, if_neg (fun h => hi h.2)]
    · rw [hmem w hw, if_neg (fun h => hw (Option.some.inj h.1))]
  | none =>
    rw [if_neg (fun h => by cases h.1)]
    cases hd : mm.tableAt r va' 2 with
    | none => rfl
    | some d =>
      have hne : d ≠ t := by
        intro he
        have hlength := congrArg List.length
          (ok.depth hr hroot hva' hva (by omega) le_rfl hd (he ▸ ht))
        rw [length_vaPath, length_vaPath] at hlength
        omega
      dsimp only
      rw [hmem d hne]

/-- In the address space itself the page is the one whose entry was written. -/
theorem TablesOk.shares_iff (ok : TablesOk A roots mm) (hroot : root ∈ roots) (hva : va ∈ A)
    (ht : mm.tableAt root va 3 = some t) {va' : U64} (hva' : va' ∈ A) (hlt : va.toNat < 2 ^ 48)
    (hlt' : va'.toNat < 2 ^ 48) :
    (mm.tableAt root va' 3 = some t ∧ tableIndex va' 3 = tableIndex va 3) ↔
      va'.toNat / mmPageSize = va.toNat / mmPageSize := by
  constructor
  · rintro ⟨ht', hi⟩
    have hpath := ok.depth hroot hroot hva' hva le_rfl le_rfl ht' ht
    refine page_eq_of_indices hlt' hlt fun k hk => ?_
    by_cases hk3 : k = 3
    · rw [hk3]
      exact hi
    · exact tableIndex_of_vaPath_eq hpath (by omega)
  · intro h
    refine ⟨?_, tableIndex_of_page_eq h le_rfl⟩
    rw [MmState.tableAt, vaPath_of_page_eq h (by omega)]
    exact ht

end Views

/-! ## The operations on a page -/

section Operations

variable {A : Set U64} {roots : Set ℕ} {mm : MmState} {a : AddressSpaceRef} {va : U64}

theorem pteView_of_tableAt {root t : ℕ} (h : mm.tableAt root va 3 = some t) :
    pteView mm root va = mm.mem t (tableIndex va 3) := by
  rw [pteView, h]

/-- A walk fails, or it ends at the entry of the page. -/
theorem mmpWalkToPte_spec (ok : TablesOk A roots mm) (hroot : mm.rootFrame a ∈ roots)
    (hva : va ∈ A) (create : Bool) :
    (∃ mm₁ e, Walked A roots mm mm₁ ∧ mmpWalkToPte mm a va create = (mm₁, .error e)) ∨
      ∃ mm₁ t, Walked A roots mm mm₁ ∧ mm₁.tableAt (mm.rootFrame a) va 3 = some t ∧
        mm₁.mem t (tableIndex va 3) = pteView mm (mm.rootFrame a) va ∧
        mmpWalkToPte mm a va create = (mm₁, .ok (t, tableIndex va 3)) := by
  obtain ⟨hwalked, hfound⟩ := mmpWalkToPte_walked ok hroot hva create
  generalize mmpWalkToPte mm a va create = r at hwalked hfound ⊢
  obtain ⟨mm₁, e | ⟨t, i⟩⟩ := r
  · exact Or.inl ⟨mm₁, e, hwalked, rfl⟩
  · obtain ⟨rfl, ht⟩ := hfound t i rfl
    refine Or.inr ⟨mm₁, t, hwalked, ht, ?_, rfl⟩
    rw [← pteView_of_tableAt ht]
    exact hwalked.view _ hroot _ hva

/-- The entry that `MmAsMapPage` writes. -/
def mapEntry (pa flags : U64) : U64 := (pa &&& mmPteAddrMask) ||| flags ||| mmPtePresent

/-- Mapping a page fails on the way to its entry, or releases the page that was there and writes
the entry. -/
theorem mmAsMapPage_spec (ok : TablesOk A roots mm) (hroot : mm.rootFrame a ∈ roots) (hva : va ∈ A)
    (pa flags : U64) :
    (∃ mm₁ e, Walked A roots mm mm₁ ∧ mmAsMapPage mm a va pa flags = (mm₁, .error e)) ∨
      ∃ mm₁ t, Walked A roots mm mm₁ ∧ mm₁.tableAt (mm.rootFrame a) va 3 = some t ∧
        mm₁.mem t (tableIndex va 3) = pteView mm (mm.rootFrame a) va ∧
        mmAsMapPage mm a va pa flags =
          ((if hasFlag (pteView mm (mm.rootFrame a) va) mmPtePresent then
              mmpReleasePage mm₁ (pteView mm (mm.rootFrame a) va &&& mmPteAddrMask)
            else mm₁).writeEntry t (tableIndex va 3) (mapEntry pa flags), .ok ()) := by
  rw [mmAsMapPage]
  split
  · exact Or.inl ⟨mm, _, .refl ok, rfl⟩
  rcases mmpWalkToPte_spec ok hroot hva true with ⟨mm₁, e, hw, heq⟩ | ⟨mm₁, t, hw, ht, hpte, heq⟩
  · rw [heq]
    exact Or.inl ⟨mm₁, e, hw, rfl⟩
  · rw [heq]
    dsimp only
    rw [hpte]
    exact Or.inr ⟨mm₁, t, hw, ht, hpte, rfl⟩

/-- Protecting a page fails and leaves its view, or writes the entry of a page that is present. -/
theorem mmAsProtectPage_spec (ok : TablesOk A roots mm) (hroot : mm.rootFrame a ∈ roots)
    (hva : va ∈ A) (newFlags : U64) :
    (∃ mm₁ e, Walked A roots mm mm₁ ∧ mmAsProtectPage mm a va newFlags = (mm₁, .error e)) ∨
      ∃ mm₁ t, Walked A roots mm mm₁ ∧ mm₁.tableAt (mm.rootFrame a) va 3 = some t ∧
        hasFlag (pteView mm (mm.rootFrame a) va) mmPtePresent = true ∧
        mmAsProtectPage mm a va newFlags = (mm₁.writeEntry t (tableIndex va 3)
          (mapEntry (pteView mm (mm.rootFrame a) va) newFlags), .ok ()) := by
  rw [mmAsProtectPage]
  split
  · exact Or.inl ⟨mm, _, .refl ok, rfl⟩
  rcases mmpWalkToPte_spec ok hroot hva false with ⟨mm₁, e, hw, heq⟩ | ⟨mm₁, t, hw, ht, hpte, heq⟩
  · rw [heq]
    exact Or.inl ⟨mm₁, e, hw, rfl⟩
  · rw [heq]
    dsimp only
    rw [hpte]
    by_cases hpresent : hasFlag (pteView mm (mm.rootFrame a) va) mmPtePresent = false
    · rw [if_pos hpresent]
      exact Or.inl ⟨mm₁, _, hw, rfl⟩
    · rw [if_neg hpresent]
      exact Or.inr ⟨mm₁, t, hw, ht, by simpa using hpresent, rfl⟩

/-- A query changes no view, and what it returns is the view. -/
theorem mmAsQueryPte_spec (ok : TablesOk A roots mm) (hroot : mm.rootFrame a ∈ roots)
    (hva : va ∈ A) :
    Walked A roots mm (mmAsQueryPte mm a va).1 ∧
      ∀ pte, (mmAsQueryPte mm a va).2 = .ok pte → pte = pteView mm (mm.rootFrame a) va := by
  rw [mmAsQueryPte]
  split
  · exact ⟨.refl ok, fun pte h => by cases h⟩
  rcases mmpWalkToPte_spec ok hroot hva false with ⟨mm₁, e, hw, heq⟩ | ⟨mm₁, t, hw, ht, hpte, heq⟩
  · rw [heq]
    exact ⟨hw, fun pte h => by cases h⟩
  · rw [heq]
    refine ⟨hw, fun pte h => ?_⟩
    cases h
    exact hpte

end Operations

end NtxKernel.Mm
