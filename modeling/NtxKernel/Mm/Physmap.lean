import NtxKernel.Mm.NextFit
import NtxKernel.Mm.Ownership

/-!
# The direct map

`MmpBuildKernelPhysmap` maps physical memory, in large pages, from `MM_PHYSMAP_BASE` on, with
tables that it takes from the allocator.

* `DirectoryOk`: the entries of a directory lead to the large pages of its GiB.
* `DirectoriesOk` is what the loop over the directories leaves behind, below one table; the frames
  in use besides that table stay as they are.
* `direct_map_identity`: the walk for an address of the direct map leads back to the physical
  address, and so do the addresses that `MmpPhysToVirtTable` and `MmpPhysToVirtPage` compute.
-/

namespace NtxKernel.Mm

open Foundations

/-- `MmpPhysToVirtTable`. -/
def mmpPhysToVirtTable (mm : MmState) (physicalAddress : U64) : U64 :=
  if mm.physmapReady then mm.physmapBase + (physicalAddress &&& mmPteAddrMask)
  else physicalAddress &&& mmPteAddrMask

/-- `MmpPhysToVirtPage`. -/
def mmpPhysToVirtPage (mm : MmState) (physicalAddress : U64) : U64 :=
  if mm.physmapReady then mm.physmapBase + (physicalAddress &&& mmPteAddrMask)
  else physicalAddress &&& mmPteAddrMask

/-- The entry for the large page at `pa`. -/
def physmapEntry (pa : ℕ) : U64 :=
  BitVec.ofNat 64 pa ||| mmPtePresent ||| mmPteWritable ||| mmPteLarge ||| mmPteNx

/-- The entry for a table of the direct map. -/
def physmapTable (page : ℕ) : U64 := pageAddress page ||| mmPtePresent ||| mmPteWritable

/-- The large pages of a directory, for the memory from `offset` on. -/
def DirectoryOk (offset mappedBytes : ℕ) (words : TableIx → U64) : Prop :=
  ∀ j : TableIx, offset + j.val * 0x200000 < mappedBytes →
    words j = physmapEntry (offset + j.val * 0x200000)

/-- The directories of the GiB from the `k`-th to before the `stop`-th. -/
def DirectoriesOk (m : MmState) (pdpt mappedBytes k stop : ℕ) : Prop :=
  ∀ i : TableIx, k ≤ i.val → i.val < stop → i.val * 0x40000000 < mappedBytes →
    ∃ pd < m.trackedPages, m.mem pdpt i = physmapTable pd ∧
      DirectoryOk (i.val * 0x40000000) mappedBytes (m.mem pd)

variable {m m' : MmState} {pa : ℕ}

/-! ## The indices -/

theorem toNat_physmap (hpa : pa < 2 ^ 39) :
    (mmPhysmapBase + BitVec.ofNat 64 pa).toNat = 0xFFFF900000000000 + pa := by
  have hbase : mmPhysmapBase.toNat = 0xFFFF900000000000 := by decide
  have hlt : pa < 2 ^ 64 := by omega
  rw [BitVec.toNat_add, hbase, BitVec.toNat_ofNat, Nat.mod_eq_of_lt hlt]
  omega

theorem tableIndex_physmap (hpa : pa < 2 ^ 39) :
    (tableIndex (mmPhysmapBase + BitVec.ofNat 64 pa) 0 = tableIndex mmPhysmapBase 0) ∧
      (tableIndex (mmPhysmapBase + BitVec.ofNat 64 pa) 1).val = pa / 0x40000000 ∧
        (tableIndex (mmPhysmapBase + BitVec.ofNat 64 pa) 2).val = pa / 0x200000 % 512 := by
  have hbase : mmPhysmapBase.toNat = 0xFFFF900000000000 := by decide
  refine ⟨Fin.ext ?_, ?_, ?_⟩
  · simp only [tableIndex, BitVec.toNat_ushiftRight, Nat.shiftRight_eq_div_pow,
      toNat_physmap hpa, hbase]
    omega
  · simp only [tableIndex, BitVec.toNat_ushiftRight, Nat.shiftRight_eq_div_pow,
      toNat_physmap hpa]
    omega
  · simp only [tableIndex, BitVec.toNat_ushiftRight, Nat.shiftRight_eq_div_pow,
      toNat_physmap hpa]
    omega

/-! ## The loops -/

/-- The loop over the large pages fills the entries of its directory and touches nothing else. -/
theorem mmpMapLargePages_spec (pd offset mappedBytes n j : ℕ) (m : MmState)
    (hoffset : 0x40000000 ∣ offset) (hlt : offset < 2 ^ 39) (hn : j + n ≤ 512) :
    ∃ words, mmpMapLargePages pd offset mappedBytes n j m =
        { m with mem := Function.update m.mem pd words } ∧
      ∀ i : TableIx, words i =
        if j ≤ i.val ∧ i.val < j + n ∧ offset + i.val * 0x200000 < mappedBytes then
          physmapEntry (offset + i.val * 0x200000)
        else m.mem pd i := by
  induction n generalizing j m with
  | zero =>
    refine ⟨m.mem pd, ?_, fun i => (if_neg (by omega)).symm⟩
    rw [Function.update_eq_self]
    rfl
  | succ n ih =>
    rw [mmpMapLargePages]
    split
    next hin =>
      have hindex : tableIndex (mmPhysmapBase + BitVec.ofNat 64 (offset + j * 0x200000)) 2 =
          ⟨j, by omega⟩ := by
        refine Fin.ext ((tableIndex_physmap (by omega)).2.2.trans ?_)
        show (offset + j * 0x200000) / 0x200000 % 512 = j
        omega
      rw [hindex]
      obtain ⟨words, heq, hwords⟩ := ih (j + 1) (m.writeEntry pd ⟨j, by omega⟩
        (physmapEntry (offset + j * 0x200000))) (by omega)
      refine ⟨words, heq.trans ?_, fun i => ?_⟩
      · simp only [MmState.writeEntry, Function.update_idem]
      rw [hwords]
      by_cases hij : i.val = j
      · have hi : i = ⟨j, by omega⟩ := Fin.ext hij
        rw [if_neg (by omega), if_pos ⟨by omega, by omega, by rw [hij]; exact hin⟩, hi]
        simp [MmState.writeEntry]
      · have hne : i ≠ ⟨j, by omega⟩ := fun heq => hij (congrArg Fin.val heq)
        have hsame : (m.writeEntry pd ⟨j, by omega⟩
            (physmapEntry (offset + j * 0x200000))).mem pd i = m.mem pd i := by
          simp [MmState.writeEntry, Function.update_of_ne hne]
        rw [hsame]
        refine if_congr ?_ rfl rfl
        omega
    next hout =>
      refine ⟨m.mem pd, ?_, fun i => (if_neg ?_).symm⟩
      · rw [Function.update_eq_self]
      · omega

/-- A directory whose entries are all written. -/
theorem mmpMapLargePages_directory (pd mappedBytes : ℕ) (m : MmState) {offset : ℕ}
    (hoffset : 0x40000000 ∣ offset) (hlt : offset < 2 ^ 39) :
    ∃ words, mmpMapLargePages pd offset mappedBytes 512 0 m =
      { m with mem := Function.update m.mem pd words } ∧ DirectoryOk offset mappedBytes words := by
  obtain ⟨words, heq, hwords⟩ :=
    mmpMapLargePages_spec pd offset mappedBytes 512 0 m hoffset hlt le_rfl
  refine ⟨words, heq, fun j hj => ?_⟩
  rw [hwords, if_pos ⟨Nat.zero_le _, by omega, hj⟩]

/-- What a loop over the directories leaves behind. -/
structure Mapped (m : MmState) (pdpt mappedBytes k n : ℕ) (m' : MmState) : Prop where
  directories : DirectoriesOk m' pdpt mappedBytes k (k + n)
  below : ∀ i : TableIx, i.val < k → m'.mem pdpt i = m.mem pdpt i
  mem : ∀ f, f ≠ pdpt → ¬Free m f → m'.mem f = m.mem f
  not_free : ∀ f, ¬Free m f → ¬Free m' f
  trackedPages : m'.trackedPages = m.trackedPages

/-- The loop over the directories, where the entries from the `k`-th on are empty. -/
theorem mmpMapDirectories_mapped {pdpt mappedBytes : ℕ} (n k : ℕ) (hn : k + n ≤ 512)
    (hlive : ¬Free m pdpt) (hzero : ∀ i : TableIx, k ≤ i.val → m.mem pdpt i = 0)
    (h : mmpMapDirectories pdpt mappedBytes n k m = (m', .ok ())) :
    Mapped m pdpt mappedBytes k n m' := by
  induction n generalizing k m with
  | zero =>
    cases h
    exact ⟨fun i hi hi' => by omega, fun _ _ => rfl, fun _ _ _ => rfl, fun _ hf => hf, rfl⟩
  | succ n ih =>
    rw [mmpMapDirectories] at h
    dsimp only at h
    split at h
    swap
    next hout =>
      cases h
      exact ⟨fun i hi hi' hin => by omega, fun _ _ => rfl, fun _ _ _ => rfl, fun _ hf => hf, rfl⟩
    next hin =>
    have hindex : tableIndex (mmPhysmapBase + BitVec.ofNat 64 (k * 0x40000000)) 1 =
        ⟨k, by omega⟩ := by
      refine Fin.ext ((tableIndex_physmap (by omega)).2.1.trans ?_)
      show k * 0x40000000 / 0x40000000 = k
      omega
    rw [hindex, hzero ⟨k, by omega⟩ le_rfl, if_neg (by decide)] at h
    rcases mmpAllocPageInternal_cases m 1 with ⟨-, e, heq⟩ | ⟨pd, hpd, hpdFree, heq⟩
    · rw [heq] at h
      cases h
    have hne : pdpt ≠ pd := by
      rintro rfl
      exact hlive ⟨hpd, hpdFree⟩
    rw [heq] at h
    dsimp only at h
    have hpd40 := lt_of_lt_trackedPages hpd
    have hentry : pteFrame (pageAddress pd ||| mmPtePresent ||| mmPteWritable) = pd := by
      rw [BitVec.or_assoc, pteFrame_or (by decide), pteFrame_pageAddress hpd40]
    have hself : (((m.takePage pd 1).fillFrame pd fun _ => 0).writeEntry pdpt ⟨k, by omega⟩
        (pageAddress pd ||| mmPtePresent ||| mmPteWritable)).mem pdpt ⟨k, by omega⟩ =
          pageAddress pd ||| mmPtePresent ||| mmPteWritable := by
      simp [MmState.writeEntry]
    rw [pteFrame_pageAddress hpd40, hself, hentry] at h
    obtain ⟨words, hwords, hdirectory⟩ := mmpMapLargePages_directory pd mappedBytes
      (((m.takePage pd 1).fillFrame pd fun _ => 0).writeEntry pdpt ⟨k, by omega⟩
        (pageAddress pd ||| mmPtePresent ||| mmPteWritable)) (Dvd.intro_left k rfl) (by omega)
    rw [hwords] at h
    generalize hm₁ : ({ ((m.takePage pd 1).fillFrame pd fun _ => 0).writeEntry pdpt ⟨k, by omega⟩
        (pageAddress pd ||| mmPtePresent ||| mmPteWritable) with
      mem := Function.update (((m.takePage pd 1).fillFrame pd fun _ => 0).writeEntry pdpt
        ⟨k, by omega⟩ (pageAddress pd ||| mmPtePresent ||| mmPteWritable)).mem pd words } :
          MmState) = m₁ at h
    -- the state behind the first directory
    have hpdMem : m₁.mem pd = words := by
      rw [← hm₁]
      exact Function.update_self ..
    have hpdpt : m₁.mem pdpt = Function.update (m.mem pdpt) ⟨k, by omega⟩ (physmapTable pd) := by
      rw [← hm₁]
      simp [MmState.writeEntry, MmState.fillFrame, Function.update_of_ne hne, physmapTable]
    have hother : ∀ f, f ≠ pdpt → f ≠ pd → m₁.mem f = m.mem f := by
      intro f hf hf'
      rw [← hm₁]
      simp [MmState.writeEntry, MmState.fillFrame, Function.update_of_ne hf',
        Function.update_of_ne hf]
    have hnotFree : ∀ f, f = pd ∨ ¬Free m f → ¬Free m₁ f := by
      intro f hf
      rw [← hm₁]
      exact not_free_takePage hf
    have htracked : m₁.trackedPages = m.trackedPages := by
      rw [← hm₁]
      rfl
    have hrest := ih (k + 1) (by omega) (hnotFree pdpt (.inr hlive)) (fun i hi => by
      have hik : i ≠ ⟨k, by omega⟩ := fun heq => by
        rw [heq] at hi
        exact Nat.not_succ_le_self k hi
      rw [hpdpt, Function.update_of_ne hik]
      exact hzero i (by omega)) h
    refine ⟨fun i hi hi' hin' => ?_, fun i hi => ?_, fun f hf hf' => ?_, fun f hf =>
      hrest.not_free f (hnotFree f (.inr hf)), hrest.trackedPages.trans htracked⟩
    · by_cases hik : i.val = k
      · have hieq : i = ⟨k, by omega⟩ := Fin.ext hik
        refine ⟨pd, by rw [hrest.trackedPages, htracked]; exact hpd, ?_, ?_⟩
        · rw [hrest.below i (by omega), hpdpt, hieq, Function.update_self]
        · rw [hrest.mem pd hne.symm (hnotFree pd (.inl rfl)), hpdMem, hik]
          exact hdirectory
      · exact hrest.directories i (by omega) (by omega) hin'
    · have hik : i ≠ ⟨k, by omega⟩ := fun heq => by
        rw [heq] at hi
        exact Nat.lt_irrefl k hi
      rw [hrest.below i (by omega), hpdpt, Function.update_of_ne hik]
    · have hfpd : f ≠ pd := by
        rintro rfl
        exact hf' ⟨hpd, hpdFree⟩
      rw [hrest.mem f hf (hnotFree f (.inr hf')), hother f hf hfpd]

/-- Every GiB needs one page. -/
theorem mmpMapDirectories_isOk {pdpt mappedBytes : ℕ} (n k : ℕ) {pages : ℕ} (m : MmState)
    (hmapped : mappedBytes ≤ (k + pages) * 0x40000000) (hfree : pages ≤ freePages m) :
    ∃ m', mmpMapDirectories pdpt mappedBytes n k m = (m', .ok ()) := by
  have hsame : ∀ pd offset n j (m₁ : MmState),
      freePages (mmpMapLargePages pd offset mappedBytes n j m₁) = freePages m₁ := by
    intro pd offset n
    induction n with
    | zero => exact fun j m₁ => rfl
    | succ n ih =>
      intro j m₁
      rw [mmpMapLargePages]
      split
      · exact (ih _ _).trans rfl
      · rfl
  induction n generalizing k m pages with
  | zero => exact ⟨m, rfl⟩
  | succ n ih =>
    rw [mmpMapDirectories]
    dsimp only
    split
    swap
    · exact ⟨m, rfl⟩
    obtain ⟨pages, rfl⟩ : ∃ p, pages = p + 1 := Nat.exists_eq_succ_of_ne_zero (by omega)
    have hmapped' : mappedBytes ≤ (k + 1 + pages) * 0x40000000 := by
      rw [Nat.add_right_comm]
      exact hmapped
    split
    · refine ih (k + 1) _ hmapped' ?_
      rw [hsame]
      omega
    rcases mmpAllocPageInternal_cases m 1 with ⟨hfull, e, heq⟩ | ⟨pd, hpd, hpdFree, heq⟩
    · obtain ⟨page, hpage, hpageFree⟩ := freePages_pos_iff.1 (by omega : 0 < freePages m)
      rw [hfull page hpage] at hpageFree
      cases hpageFree
    · rw [heq]
      have htake : freePages (m.takePage pd 1) + 1 = freePages m := freePages_takePage hpd hpdFree
      refine ih (k + 1) _ hmapped' ?_
      rw [hsame]
      have hwrite : ∀ (m₁ : MmState) f words f' i entry,
          freePages ((m₁.fillFrame f words).writeEntry f' i entry) = freePages m₁ :=
        fun _ _ _ _ _ _ => rfl
      rw [hwrite]
      omega

/-! ## The whole map -/

theorem physmapSize_toNat (m : MmState) :
    (physmapSize m).toNat = (m.trackedPages * 4096 + 0x1FFFFF) / 0x200000 * 0x200000 := by
  have hle := m.trackedPages_le
  unfold mmMaxTrackedPages at hle
  have haddress : (pageAddress m.trackedPages).toNat = m.trackedPages * 4096 :=
    toNat_pageAddress (by omega)
  have hsum : mmpAlignUp (pageAddress m.trackedPages) 0x200000 =
      (pageAddress m.trackedPages + lowMask 64 21) &&& ~~~lowMask 64 21 := by
    have hadd : pageAddress m.trackedPages + 0x200000 - 1 =
        pageAddress m.trackedPages + lowMask 64 21 := by
      rw [lowMask]
      bv_omega
    rw [mmpAlignUp, hadd]
    rfl
  have hround := toNat_add_and_not_lowMask (pageAddress m.trackedPages) (k := 21) (by decide)
    (by rw [haddress]; omega)
  rw [physmapSize, hsum, hround, haddress]
  norm_num

/-- An entry for a table of the map leads to it and allows writing, to the supervisor only. -/
theorem physmapTable_spec {page : ℕ} (hpage : page < 2 ^ 40) :
    pteFrame (physmapTable page) = page ∧ hasFlag (physmapTable page) mmPtePresent = true ∧
      hasFlag (physmapTable page) mmPteLarge = false ∧
      hasFlag (physmapTable page) mmPteWritable = true ∧
      hasFlag (physmapTable page) mmPteUser = false ∧
      hasFlag (physmapTable page) mmPteNx = false := by
  rw [physmapTable, BitVec.or_assoc]
  refine ⟨?_, ?_, ?_, ?_, ?_, ?_⟩
  · rw [pteFrame_or (by decide), pteFrame_pageAddress hpage]
  all_goals
    rw [hasFlag_pageAddress_or hpage (by decide)]
    decide

/-- An entry for a large page names it; the page is writable and cannot be executed, and is the
supervisor's. -/
theorem physmapEntry_spec {page : ℕ} (hpage : page < 2 ^ 40) :
    pteFrame (physmapEntry (page * 4096)) = page ∧
      hasFlag (physmapEntry (page * 4096)) mmPtePresent = true ∧
      hasFlag (physmapEntry (page * 4096)) mmPteLarge = true ∧
      hasFlag (physmapEntry (page * 4096)) mmPteWritable = true ∧
      hasFlag (physmapEntry (page * 4096)) mmPteUser = false ∧
      hasFlag (physmapEntry (page * 4096)) mmPteNx = true := by
  have haddress : physmapEntry (page * 4096) = pageAddress page |||
      (mmPtePresent ||| (mmPteWritable ||| (mmPteLarge ||| mmPteNx))) := by
    rw [physmapEntry, BitVec.or_assoc, BitVec.or_assoc, BitVec.or_assoc]
    rfl
  rw [haddress]
  refine ⟨?_, ?_, ?_, ?_, ?_, ?_⟩
  · rw [pteFrame_or (by decide), pteFrame_pageAddress hpage]
  all_goals
    rw [hasFlag_pageAddress_or hpage (by decide)]
    decide

/-- The page of an address within its large page. -/
theorem frame_physmap (a : ℕ) :
    a / 0x200000 * 512 + (0xFFFF900000000000 + a) / 4096 % 512 = a / 4096 := by
  have hbase : (0xFFFF900000000000 + a) / 4096 = a / 4096 + 512 * 0x7FFFC800000 := by
    rw [Nat.add_comm]
    exact Nat.add_mul_div_left a (512 * 0x7FFFC800000) (by decide : 0 < 4096)
  have hlarge : a / 0x200000 = a / 4096 / 512 := by
    rw [Nat.div_div_eq_div_mul]
  rw [hbase, Nat.add_mul_mod_self_left, hlarge, Nat.mul_comm]
  exact Nat.div_add_mod (a / 4096) 512

/-- The walk through the tables of the map. -/
theorem translateFrom_physmap {root pdpt mappedBytes a : ℕ}
    (hroot : m.mem root (tableIndex mmPhysmapBase 0) = physmapTable pdpt)
    (hpdpt : pdpt < m.trackedPages) (hmap : DirectoriesOk m pdpt mappedBytes 0 512)
    (hbytes : 0x200000 ∣ mappedBytes) (ha : a < mappedBytes) (hlt : a < 2 ^ 39) :
    translateFrom m.mem (mmPhysmapBase + BitVec.ofNat 64 a) 3 ⟨root, true, true, false⟩ =
      some ⟨a / 4096, true, false, true⟩ := by
  obtain ⟨hzero, hone, htwo⟩ := tableIndex_physmap hlt
  have hgib : a / 0x40000000 < 512 := by omega
  obtain ⟨pd, hpd, hpdEntry, hdirectory⟩ := hmap
    (tableIndex (mmPhysmapBase + BitVec.ofNat 64 a) 1) (Nat.zero_le _) (Fin.isLt _)
    (by rw [hone]; omega)
  have hlarge := hdirectory (tableIndex (mmPhysmapBase + BitVec.ofNat 64 a) 2)
    (by rw [hone, htwo]; omega)
  have hpa : (tableIndex (mmPhysmapBase + BitVec.ofNat 64 a) 1).val * 0x40000000 +
      (tableIndex (mmPhysmapBase + BitVec.ofNat 64 a) 2).val * 0x200000 =
        a / 0x200000 * 0x200000 := by
    rw [hone, htwo]
    omega
  have hpage : a / 0x200000 * 0x200000 = a / 0x200000 * 512 * 4096 := by
    rw [Nat.mul_assoc]
  rw [hpa, hpage] at hlarge
  obtain ⟨hframe₀, hpresent₀, hlarge₀, hwritable₀, huser₀, hnx₀⟩ :=
    physmapTable_spec (lt_of_lt_trackedPages hpdpt)
  obtain ⟨hframe₁, hpresent₁, hlarge₁, hwritable₁, huser₁, hnx₁⟩ :=
    physmapTable_spec (lt_of_lt_trackedPages hpd)
  obtain ⟨hframe₂, hpresent₂, hlarge₂, hwritable₂, huser₂, hnx₂⟩ :=
    physmapEntry_spec (show a / 0x200000 * 512 < 2 ^ 40 by omega)
  rw [translateFrom]
  dsimp only [Translation.through]
  rw [hzero, hroot, hpresent₀, hlarge₀, hframe₀, hwritable₀, huser₀, hnx₀]
  rw [if_neg (by decide), if_neg (by decide), translateFrom]
  dsimp only [Translation.through]
  rw [hpdEntry, hpresent₁, hlarge₁, hframe₁, hwritable₁, huser₁, hnx₁]
  rw [if_neg (by decide), if_neg (by decide), translateFrom]
  dsimp only [Translation.through]
  rw [hlarge, hpresent₂, hlarge₂, hwritable₂, huser₂, hnx₂]
  rw [if_neg (by decide), if_pos (by decide), if_neg (by decide), largeFrame, hframe₂,
    toNat_physmap hlt]
  have hfinal : a / 0x200000 * 512 / 512 ^ (0 + 1) * 512 ^ (0 + 1) +
      (0xFFFF900000000000 + a) / mmPageSize % 512 ^ (0 + 1) = a / 4096 := by
    have hpow : 512 ^ (0 + 1) = 512 := rfl
    rw [hpow, Nat.mul_div_cancel _ (by decide)]
    exact frame_physmap a
  rw [hfinal]
  rfl

/-- The walk for `va` from the kernel's root leads to the physical address `a`, which the supervisor
may read and write, and nobody execute. -/
def LeadsTo (m : MmState) (va : U64) (a : ℕ) : Prop :=
  ∃ t, translateFrom m.mem va 3 ⟨pteFrame m.kernelRootTablePhysical, true, true, false⟩ = some t ∧
    t.frame * mmPageSize + va.toNat % mmPageSize = a ∧
    t.writable = true ∧ t.user = false ∧ t.noExecute = true

/-- What a direct map that was built is. -/
structure PhysmapBuilt (m m' : MmState) : Prop where
  root : m'.kernelRootTablePhysical = m.kernelRootTablePhysical
  entries : ∀ i ≠ tableIndex mmPhysmapBase 0,
    m'.mem (pteFrame m.kernelRootTablePhysical) i = m.mem (pteFrame m.kernelRootTablePhysical) i
  tables : ∃ pdpt < m'.trackedPages,
    m'.mem (pteFrame m.kernelRootTablePhysical) (tableIndex mmPhysmapBase 0) = physmapTable pdpt ∧
      DirectoriesOk m' pdpt (physmapSize m).toNat 0 512
  online : m'.physmapReady = true ∧ m'.physmapBase = mmPhysmapBase

theorem mmpMapLargePages_frame (pd offset mappedBytes n j : ℕ) (m : MmState) :
    (mmpMapLargePages pd offset mappedBytes n j m).physmapBase = m.physmapBase := by
  induction n generalizing j m with
  | zero => rfl
  | succ n ih =>
    rw [mmpMapLargePages]
    split
    · exact (ih _ _).trans rfl
    · rfl

theorem mmpMapDirectories_frame (pdpt mappedBytes n k : ℕ) (m : MmState) :
    (mmpMapDirectories pdpt mappedBytes n k m).1.physmapBase = m.physmapBase := by
  induction n generalizing k m with
  | zero => rfl
  | succ n ih =>
    rw [mmpMapDirectories]
    dsimp only
    split
    swap
    · rfl
    split
    · rw [ih, mmpMapLargePages_frame]
    rcases mmpAllocPageInternal_cases m 1 with ⟨-, e, heq⟩ | ⟨page, -, -, heq⟩
    · rw [heq]
    · rw [heq]
      dsimp only
      rw [ih, mmpMapLargePages_frame]
      rfl

theorem mmpBuildKernelPhysmap_built (hroot : ¬Free m (pteFrame m.kernelRootTablePhysical))
    (h : mmpBuildKernelPhysmap m = (m', .ok ())) : PhysmapBuilt m m' := by
  rw [mmpBuildKernelPhysmap] at h
  split at h
  · cases h
  dsimp only at h
  generalize hm₁ : ({ m with physmapBase := mmPhysmapBase, physmapBytes := physmapSize m } : MmState)
    = m₁ at h
  have hsame : m₁.mem = m.mem ∧ m₁.trackedPages = m.trackedPages ∧ (∀ f, Free m₁ f ↔ Free m f) ∧
      m₁.kernelRootTablePhysical = m.kernelRootTablePhysical ∧ m₁.physmapBase = mmPhysmapBase := by
    rw [← hm₁]
    exact ⟨rfl, rfl, fun _ => Iff.rfl, rfl, rfl⟩
  obtain ⟨hmem, htracked, hfree, hkernel, hbase⟩ := hsame
  rcases mmpAllocPageInternal_cases m₁ 1 with ⟨-, e, heq⟩ | ⟨pdpt, hpdpt, hpdptFree, heq⟩
  · rw [heq] at h
    cases h
  rw [heq] at h
  dsimp only at h
  have hkernel' : (m₁.takePage pdpt 1).kernelRootTablePhysical = m.kernelRootTablePhysical :=
    hkernel
  rw [pteFrame_pageAddress (lt_of_lt_trackedPages hpdpt), hkernel'] at h
  have hne : pteFrame m.kernelRootTablePhysical ≠ pdpt := by
    intro hsame
    rw [hsame, ← hfree] at hroot
    exact hroot ⟨hpdpt, hpdptFree⟩
  generalize hroot' : pteFrame m.kernelRootTablePhysical = root at h hne hroot
  generalize hm₂ : ((m₁.takePage pdpt 1).fillFrame pdpt fun _ => 0).writeEntry root
    (tableIndex mmPhysmapBase 0) (pageAddress pdpt ||| mmPtePresent ||| mmPteWritable) = m₂ at h
  have hpdptMem : m₂.mem pdpt = fun _ => 0 := by
    rw [← hm₂]
    simp [MmState.writeEntry, MmState.fillFrame, Function.update_of_ne hne.symm]
  have hrootMem : m₂.mem root =
      Function.update (m.mem root) (tableIndex mmPhysmapBase 0) (physmapTable pdpt) := by
    rw [← hm₂, ← hmem]
    simp [MmState.writeEntry, MmState.fillFrame, Function.update_of_ne hne, physmapTable]
  have hlive : ∀ f, f = pdpt ∨ ¬Free m₁ f → ¬Free m₂ f := by
    intro f hf
    rw [← hm₂]
    exact not_free_takePage hf
  have hrest : m₂.kernelRootTablePhysical = m.kernelRootTablePhysical ∧
      m₂.trackedPages = m.trackedPages ∧ physmapSize m₂ = physmapSize m ∧
        m₂.physmapBase = mmPhysmapBase := by
    rw [← hm₂]
    refine ⟨hkernel, htracked, ?_, hbase⟩
    have htracked' : (((m₁.takePage pdpt 1).fillFrame pdpt fun _ => 0).writeEntry root
      (tableIndex mmPhysmapBase 0)
      (pageAddress pdpt ||| mmPtePresent ||| mmPteWritable)).trackedPages = m.trackedPages := htracked
    rw [physmapSize, htracked', physmapSize]
  obtain ⟨hkernel₂, htracked₂, hsize₂, hbase₂⟩ := hrest
  rw [hsize₂] at h
  have hframe := mmpMapDirectories_frame pdpt (physmapSize m).toNat 512 0 m₂
  have hglobals := (mmpMapDirectories_onlyPages pdpt (physmapSize m).toNat 512 0 m₂).sameGlobals
  rcases hloop : mmpMapDirectories pdpt (physmapSize m).toNat 512 0 m₂ with ⟨m₃, e | _⟩
  · rw [hloop] at h
    cases h
  rw [hloop] at h hframe hglobals
  have hmapped := mmpMapDirectories_mapped 512 0 le_rfl (hlive pdpt (.inl rfl))
    (fun i _ => by rw [hpdptMem]) hloop
  have hrootKept := hmapped.mem root hne (hlive root (.inr fun hf => hroot ((hfree root).1 hf)))
  cases h
  refine ⟨hglobals.kernelRoot.trans hkernel₂, fun i hi => ?_, ⟨pdpt, ?_, ?_, ?_⟩, rfl,
    hframe.trans hbase₂⟩
  · rw [hroot']
    dsimp only
    rw [hrootKept, hrootMem, Function.update_of_ne hi]
  · show pdpt < m₃.trackedPages
    rw [hmapped.trackedPages, htracked₂, ← htracked]
    exact hpdpt
  · rw [hroot']
    dsimp only
    rw [hrootKept, hrootMem, Function.update_self]
  · exact hmapped.directories

/-- Two pages are enough: the tracked pages lie in one GiB. -/
theorem mmpBuildKernelPhysmap_isOk (hkernel : m.kernelRootTablePhysical ≠ 0)
    (hfree : 2 ≤ freePages m) : ∃ m', mmpBuildKernelPhysmap m = (m', .ok ()) := by
  rw [mmpBuildKernelPhysmap, if_neg hkernel]
  dsimp only
  generalize hm₁ : ({ m with physmapBase := mmPhysmapBase, physmapBytes := physmapSize m } : MmState)
    = m₁
  have hfree₁ : freePages m₁ = freePages m := by
    rw [← hm₁]
    rfl
  rcases mmpAllocPageInternal_cases m₁ 1 with ⟨hfull, e, heq⟩ | ⟨pdpt, hpdpt, hpdptFree, heq⟩
  · obtain ⟨page, hpage, hpageFree⟩ := freePages_pos_iff.1 (by omega : 0 < freePages m₁)
    rw [hfull page hpage] at hpageFree
    cases hpageFree
  rw [heq]
  dsimp only
  have htake : freePages (m₁.takePage pdpt 1) + 1 = freePages m₁ :=
    freePages_takePage hpdpt hpdptFree
  generalize hm₂ : ((m₁.takePage pdpt 1).fillFrame (pteFrame (pageAddress pdpt))
    fun _ => 0).writeEntry (pteFrame (m₁.takePage pdpt 1).kernelRootTablePhysical)
      (tableIndex mmPhysmapBase 0) (pageAddress pdpt ||| mmPtePresent ||| mmPteWritable) = m₂
  have hfree₂ : freePages m₂ = freePages (m₁.takePage pdpt 1) := by
    rw [← hm₂]
    rfl
  have hsize : (physmapSize m₂).toNat ≤ (0 + 1) * 0x40000000 := by
    have hle := m₂.trackedPages_le
    unfold mmMaxTrackedPages at hle
    rw [physmapSize_toNat]
    omega
  obtain ⟨m₃, hloop⟩ := mmpMapDirectories_isOk 512 0 m₂ hsize (by omega)
  exact ⟨_, by rw [hloop]; rfl⟩

theorem lt_physmapSize {a : ℕ} (ha : a < m.trackedPages * 4096) : a < (physmapSize m).toNat := by
  refine lt_of_lt_of_le ha ?_
  rw [physmapSize_toNat]
  have hdiv := Nat.div_add_mod (m.trackedPages * 4096 + 0x1FFFFF) 0x200000
  have hmod := Nat.mod_lt (m.trackedPages * 4096 + 0x1FFFFF) (by decide : 0 < 0x200000)
  rw [Nat.mul_comm]
  generalize (m.trackedPages * 4096 + 0x1FFFFF) / 0x200000 = q at hdiv hmod ⊢
  generalize (m.trackedPages * 4096 + 0x1FFFFF) % 0x200000 = r at hdiv hmod
  omega

theorem PhysmapBuilt.leadsTo (h : PhysmapBuilt m m') {a : ℕ}
    (ha : a < m.trackedPages * mmPageSize) :
    LeadsTo m' (mmPhysmapBase + BitVec.ofNat 64 a) a := by
  obtain ⟨pdpt, hpdpt, hentry, hmap⟩ := h.tables
  have hle := m.trackedPages_le
  unfold mmMaxTrackedPages at hle
  unfold mmPageSize at ha
  have hwalk := translateFrom_physmap hentry hpdpt hmap
    (by rw [physmapSize_toNat]; exact Dvd.intro_left _ rfl) (lt_physmapSize ha)
    (show a < 2 ^ 39 by omega)
  refine ⟨_, by rw [h.root]; exact hwalk, ?_, rfl, rfl, rfl⟩
  rw [toNat_physmap (by omega)]
  unfold mmPageSize
  dsimp only
  omega

theorem PhysmapBuilt.physToVirt (h : PhysmapBuilt m m') {page : ℕ} (hpage : page < m.trackedPages) :
    mmpPhysToVirtTable m' (pageAddress page) =
        mmPhysmapBase + BitVec.ofNat 64 (page * mmPageSize) ∧
      mmpPhysToVirtPage m' (pageAddress page) =
        mmPhysmapBase + BitVec.ofNat 64 (page * mmPageSize) := by
  obtain ⟨hready, hbase⟩ := h.online
  have hmask := pageAddress_and_mask (lt_of_lt_trackedPages hpage)
  rw [mmpPhysToVirtTable, mmpPhysToVirtPage, hready, hbase, hmask]
  exact ⟨rfl, rfl⟩

/-- **The kernel's direct map is the identity.** From a state where the kernel's root is in use,
`MmpBuildKernelPhysmap` succeeds with two free pages, and when it succeeds,

* the walk for `MM_PHYSMAP_BASE + a` leads to `a`, for every physical address `a` of the tracked
  pages;
* the other entries of the root are as they were;
* `MmpPhysToVirtTable` and `MmpPhysToVirtPage` of a page give an address that leads to the page. -/
theorem direct_map_identity (m : MmState) (hroot : ¬Free m (pteFrame m.kernelRootTablePhysical)) :
    (m.kernelRootTablePhysical ≠ 0 → 2 ≤ freePages m →
      ∃ m', mmpBuildKernelPhysmap m = (m', .ok ())) ∧
    ∀ m', mmpBuildKernelPhysmap m = (m', .ok ()) →
      (∀ a < m.trackedPages * mmPageSize, LeadsTo m' (mmPhysmapBase + BitVec.ofNat 64 a) a) ∧
      (∀ i ≠ tableIndex mmPhysmapBase 0, m'.mem (pteFrame m.kernelRootTablePhysical) i =
        m.mem (pteFrame m.kernelRootTablePhysical) i) ∧
      ∀ page < m.trackedPages,
        LeadsTo m' (mmpPhysToVirtTable m' (pageAddress page)) (page * mmPageSize) ∧
          LeadsTo m' (mmpPhysToVirtPage m' (pageAddress page)) (page * mmPageSize) := by
  refine ⟨mmpBuildKernelPhysmap_isOk, fun m' h => ?_⟩
  have hbuilt := mmpBuildKernelPhysmap_built hroot h
  refine ⟨fun a ha => hbuilt.leadsTo ha, hbuilt.entries, fun page hpage => ?_⟩
  have hlt : page * mmPageSize < m.trackedPages * mmPageSize :=
    Nat.mul_lt_mul_of_pos_right hpage (by decide)
  rw [(hbuilt.physToVirt hpage).1, (hbuilt.physToVirt hpage).2]
  exact ⟨hbuilt.leadsTo hlt, hbuilt.leadsTo hlt⟩

/-- A machine before its direct map is built: 272 tracked pages, those above the first MiB free,
and the root in page 16. -/
def beforePhysmap : MmState :=
  { MmState.zero with
    trackedPages := 272
    trackedPages_le := by decide
    pageBitmap := fun word => if word = 4 then 0 else 0xFFFFFFFFFFFFFFFF
    kernelRootTablePhysical := 0x10000 }

theorem direct_map_identity_sample :
    LeadsTo (mmpBuildKernelPhysmap beforePhysmap).1 (mmPhysmapBase + 0x10FFFF) 0x10FFFF := by
  have hroot : ¬Free beforePhysmap (pteFrame beforePhysmap.kernelRootTablePhysical) := by
    rintro ⟨-, hfree⟩
    exact absurd hfree (by decide +kernel)
  have hok : mmpBuildKernelPhysmap beforePhysmap =
      ((mmpBuildKernelPhysmap beforePhysmap).1, .ok ()) := by
    obtain ⟨m', h⟩ := (direct_map_identity beforePhysmap hroot).1 (by decide) (by decide +kernel)
    rw [h]
  exact ((direct_map_identity beforePhysmap hroot).2 _ hok).1 0x10FFFF (by decide)

end NtxKernel.Mm
