import NtxKernel.Boot.Image
import NtxKernel.Ps.Image

/-!
# The relocation stream

What the loops over the relocation stream do with pointers, and what they compute.

* `BlocksRun` is the loop over the blocks with the pointers of the source and without a bound on its
  rounds, and the list of the bytes that it reads and patches.
* `relocation_inside`: both loaders end on every image, and read and patch bytes of the image only.
* `Blocks` is the stream as a list of blocks, `sites` are the words that it lists.
* `relocation_computes`: where no site meets the stream, the loader of user images succeeds exactly
  when the stream is well formed, and adds the delta to the word at every site.
-/

namespace NtxKernel.Kpe

open Foundations Boot Ps

/-! ## The loops with pointers -/

/-- A read or a write of some bytes. -/
structure Access where
  address : U64
  size : ℕ

/-- The access lies in the image of `sizeOfImage` bytes at `base`. -/
def Access.Inside (base : U64) (sizeOfImage : U32) (a : Access) : Prop :=
  base.toNat ≤ a.address.toNat ∧ a.address.toNat + a.size ≤ base.toNat + sizeOfImage.toNat

/-- The position in the image that a pointer points to. -/
def offsetOf (base p : U64) : ℕ := (p - base).toNat

variable {ε : Type} (rules : RelocRules ε) (sizeOfImage : U32) (base delta stop : U64)

/-- `Block->VirtualAddress + Offset` for an entry. -/
def patchRva (blockVa : U32) (entry : U16) : U32 := blockVa + (entry &&& 0x0FFF).setWidth 32

/-- What the body of the inner loop accesses: the entry, and for a patch the field `VirtualAddress`
of the block and the word. -/
def entryAccesses (cursor : U64) (i : ℕ) (img : Image) : List Access :=
  let entry := img.read16 (offsetOf base cursor + sizeofBaseRelocationBlock + 2 * i)
  let rva := patchRva (img.read32 (offsetOf base cursor)) entry
  ⟨cursor + 8 + BitVec.ofNat 64 (2 * i), 2⟩ ::
    if entry >>> 12 = kpeRelBasedDir64 then
      ⟨cursor, 4⟩ ::
        if sizeOfImage.toNat < rva.toNat + 8 then [] else [⟨base + rva.setWidth 64, 8⟩]
    else []

/-- What the loop over the entries accesses, from the `i`-th on with `n` to go. -/
def entriesAccesses (cursor : U64) : ℕ → ℕ → Image → List Access
  | 0, _, _ => []
  | n + 1, i, img =>
    entryAccesses sizeOfImage base cursor i img ++
      match relocEntry rules sizeOfImage delta (img.read32 (offsetOf base cursor))
          (img.read16 (offsetOf base cursor + sizeofBaseRelocationBlock + 2 * i)) img with
      | .error _ => []
      | .ok img => entriesAccesses cursor n (i + 1) img

/-- `Block->SizeOfBlock` as an addend. -/
def blockStride (cursor : U64) (img : Image) : U64 :=
  (img.read32 (offsetOf base cursor + 4)).setWidth 64

/-- A round of the loop over the blocks, and what it accesses. -/
def blockRound (cursor : U64) (img : Image) : List Access × Except ε Image :=
  let size := img.sizeOfBlock (offsetOf base cursor)
  let entryCount := (size - sizeofBaseRelocationBlock) / 2
  if size < sizeofBaseRelocationBlock then ([⟨cursor, 8⟩], .error rules.invalid)
  else if rules.blockOk (img.read32 (offsetOf base cursor)) = false then
    ([⟨cursor, 8⟩], .error rules.invalid)
  else if stop.toNat < (cursor + blockStride base cursor img).toNat then
    ([⟨cursor, 8⟩], .error rules.invalid)
  else
    (⟨cursor, 8⟩ :: entriesAccesses rules sizeOfImage base delta cursor entryCount 0 img,
      relocEntries rules sizeOfImage delta (offsetOf base cursor) entryCount 0 img)

/-- The loop over the blocks: it ends at the end of the directory or with a round that fails. The
size of the block is read again before the cursor moves. -/
inductive BlocksRun : U64 → Image → List Access → Except ε Image → Prop
  | done {cursor : U64} {img : Image} : stop.toNat < (cursor + 8).toNat →
    BlocksRun cursor img [] (.ok img)
  | fail {cursor : U64} {img : Image} {as : List Access} {e : ε} :
    ¬stop.toNat < (cursor + 8).toNat →
    blockRound rules sizeOfImage base delta stop cursor img = (as, .error e) →
    BlocksRun cursor img as (.error e)
  | next {cursor : U64} {img img' : Image} {as as' : List Access} {r : Except ε Image} :
    ¬stop.toNat < (cursor + 8).toNat →
    blockRound rules sizeOfImage base delta stop cursor img = (as, .ok img') →
    BlocksRun (cursor + blockStride base cursor img') img' as' r →
    BlocksRun cursor img (as ++ ⟨cursor + 4, 4⟩ :: as') r

variable (nt : KpeNtHeaders64) (img : Image)

/-- Where the relocation directory starts in memory. -/
def relocCursor : U64 :=
  base + (nt.optionalHeader.dataDirectory kpeDirBaseReloc).virtualAddress.setWidth 64

/-- Where it ends. -/
def relocEnd : U64 :=
  relocCursor base nt + (nt.optionalHeader.dataDirectory kpeDirBaseReloc).size.setWidth 64

/-- `PspApplyUserKpeRelocations` with pointers. -/
def UserRelocates (as : List Access) (r : Except KStatus Image) : Prop :=
  let delta := base - nt.optionalHeader.imageBase
  let relocDir := nt.optionalHeader.dataDirectory kpeDirBaseReloc
  if delta = 0 then as = [] ∧ r = .ok img
  else if nt.optionalHeader.dllCharacteristics &&& kpeDllcharDynamicBase = 0 then
    as = [] ∧ r = .error .accessDenied
  else if relocDir.virtualAddress = 0 ∨ relocDir.size.toNat < sizeofBaseRelocationBlock then
    as = [] ∧ r = .error .accessDenied
  else if nt.optionalHeader.sizeOfImage.toNat <
      relocDir.virtualAddress.toNat + relocDir.size.toNat then
    as = [] ∧ r = .error .invalidParameter
  else
    BlocksRun (pspRelocRules nt.optionalHeader.sizeOfImage) nt.optionalHeader.sizeOfImage base delta
      (relocEnd base nt) (relocCursor base nt) img as r

/-- `ApplyKpeBaseRelocations` with pointers. -/
def KernelRelocates (as : List Access) (r : Except LoadStatus Image) : Prop :=
  let delta := base - nt.optionalHeader.imageBase
  let relocDir := nt.optionalHeader.dataDirectory kpeDirBaseReloc
  if delta = 0 then as = [] ∧ r = .ok img
  else if relocDir.virtualAddress = 0 ∨ relocDir.size.toNat < sizeofBaseRelocationBlock then
    as = [] ∧ r = .error .unsupported
  else if nt.optionalHeader.sizeOfImage.toNat <
      relocDir.virtualAddress.toNat + relocDir.size.toNat then as = [] ∧ r = .error .loadError
  else
    BlocksRun relocRules nt.optionalHeader.sizeOfImage base delta (relocEnd base nt)
      (relocCursor base nt) img as r

/-! ## Pointers into the image -/

variable {rules sizeOfImage base delta stop nt img} {cursor : U64}

theorem offsetOf_add {k : ℕ} (hbase : base.toNat + k < 2 ^ 64) :
    offsetOf base (base + BitVec.ofNat 64 k) = k := by
  rw [offsetOf, BitVec.add_comm, BitVec.add_sub_cancel, BitVec.toNat_ofNat]
  omega

/-- A pointer at a small distance behind the base. -/
theorem toNat_add_small {p : U64} {k d : ℕ} (hbase : base.toNat + 2 ^ 34 ≤ 2 ^ 64)
    (hp : p.toNat = base.toNat + k) (hk : k + d < 2 ^ 34) :
    (p + BitVec.ofNat 64 d).toNat = base.toNat + (k + d) := by
  rw [BitVec.toNat_add, BitVec.toNat_ofNat, hp]
  omega

/-- The pointer is at the position `k` of the image. -/
def PointsTo (base p : U64) (k : ℕ) : Prop := p.toNat = base.toNat + k

theorem PointsTo.offsetOf {p : U64} {k : ℕ} (h : PointsTo base p k) : offsetOf base p = k := by
  rw [Kpe.offsetOf, BitVec.toNat_sub, h]
  have hp := p.isLt
  have hb := base.isLt
  rw [h] at hp
  omega

theorem PointsTo.add {p : U64} {k d : ℕ} (h : PointsTo base p k)
    (hbase : base.toNat + 2 ^ 34 ≤ 2 ^ 64) (hk : k + d < 2 ^ 34) :
    PointsTo base (p + BitVec.ofNat 64 d) (k + d) := by
  rw [PointsTo, BitVec.toNat_add, BitVec.toNat_ofNat, h]
  omega

theorem PointsTo.inside {p : U64} {k size : ℕ} (h : PointsTo base p k)
    (hk : k + size ≤ sizeOfImage.toNat) : Access.Inside base sizeOfImage ⟨p, size⟩ := by
  rw [PointsTo] at h
  exact ⟨by dsimp only; omega, by dsimp only; omega⟩

theorem blockStride_eq {k : ℕ} (h : PointsTo base cursor k) (img : Image) :
    blockStride base cursor img = BitVec.ofNat 64 (img.sizeOfBlock k) := by
  rw [blockStride, h.offsetOf, Image.sizeOfBlock]
  exact BitVec.eq_of_toNat_eq (by simp)

theorem sizeOfBlock_lt (img : Image) (k : ℕ) : img.sizeOfBlock k < 2 ^ 32 :=
  (img.read32 (k + 4)).isLt

/-! ## Inside the image -/

/-- What an entry accesses lies in the image. -/
theorem entryAccesses_inside {k : ℕ} (hbase : base.toNat + 2 ^ 34 ≤ 2 ^ 64)
    (h : PointsTo base cursor k) {i : ℕ} (hi : k + 8 + 2 * i + 2 ≤ sizeOfImage.toNat) (img : Image) :
    ∀ a ∈ entryAccesses sizeOfImage base cursor i img, a.Inside base sizeOfImage := by
  have hsize := sizeOfImage.isLt
  rw [entryAccesses]
  generalize patchRva (img.read32 (offsetOf base cursor)) _ = rva
  intro a ha
  rw [List.mem_cons] at ha
  rcases ha with rfl | ha
  · have h8 := h.add (d := 8) hbase (by omega)
    exact (h8.add hbase (by omega)).inside hi
  split at ha
  swap
  · cases ha
  rw [List.mem_cons] at ha
  rcases ha with rfl | ha
  · exact h.inside (by omega)
  split at ha
  · cases ha
  rename_i hrva
  rw [List.mem_singleton] at ha
  subst ha
  have hpatch : PointsTo base (base + rva.setWidth 64) rva.toNat := by
    have hlt := rva.isLt
    rw [PointsTo, BitVec.toNat_add, BitVec.toNat_setWidth]
    omega
  exact hpatch.inside (by omega)

/-- The same for the loop over the entries. -/
theorem entriesAccesses_inside {k : ℕ} (hbase : base.toNat + 2 ^ 34 ≤ 2 ^ 64)
    (h : PointsTo base cursor k) (n : ℕ) {i : ℕ} (hi : k + 8 + 2 * (i + n) ≤ sizeOfImage.toNat)
    (img : Image) :
    ∀ a ∈ entriesAccesses rules sizeOfImage base delta cursor n i img,
      a.Inside base sizeOfImage := by
  induction n generalizing i img with
  | zero =>
    intro a ha
    cases ha
  | succ n ih =>
    intro a ha
    rw [entriesAccesses, List.mem_append] at ha
    rcases ha with ha | ha
    · exact entryAccesses_inside hbase h (by omega) img a ha
    · split at ha
      · cases ha
      · exact ih (by omega) _ a ha

/-- A round with pointers is a round of the loop over the image. -/
theorem blockRound_spec {k kstop : ℕ} (hbase : base.toNat + 2 ^ 34 ≤ 2 ^ 64)
    (h : PointsTo base cursor k) (hstop : PointsTo base stop kstop)
    (hend : kstop ≤ sizeOfImage.toNat) (hk : k + 8 ≤ kstop) (img : Image) :
    (blockRound rules sizeOfImage base delta stop cursor img).2 =
        relocBlock rules sizeOfImage delta kstop k img ∧
      ∀ a ∈ (blockRound rules sizeOfImage base delta stop cursor img).1,
        a.Inside base sizeOfImage := by
  have hsize := sizeOfImage.isLt
  have height : sizeofBaseRelocationBlock = 8 := rfl
  have hblock := sizeOfBlock_lt img k
  have hheader : Access.Inside base sizeOfImage ⟨cursor, 8⟩ := h.inside (by omega)
  have hnext := h.add (d := img.sizeOfBlock k) hbase (by omega)
  have hcompare : stop.toNat < (cursor + blockStride base cursor img).toNat ↔
      kstop < k + img.sizeOfBlock k := by
    rw [blockStride_eq h, hnext, hstop]
    omega
  rw [blockRound, relocBlock, h.offsetOf]
  by_cases hsmall : img.sizeOfBlock k < sizeofBaseRelocationBlock
  · rw [if_pos hsmall, if_pos hsmall]
    exact ⟨rfl, by simpa using hheader⟩
  rw [if_neg hsmall, if_neg hsmall]
  by_cases hok : rules.blockOk (img.read32 k) = false
  · rw [if_pos hok, if_pos hok]
    exact ⟨rfl, by simpa using hheader⟩
  rw [if_neg hok, if_neg hok]
  by_cases hover : kstop < k + img.sizeOfBlock k
  · rw [if_pos (hcompare.2 hover), if_pos hover]
    exact ⟨rfl, by simpa using hheader⟩
  rw [if_neg (hcompare.not.2 hover), if_neg hover]
  refine ⟨rfl, fun a ha => ?_⟩
  rw [List.mem_cons] at ha
  rcases ha with rfl | ha
  · exact hheader
  · have hentries : 8 + 2 * ((img.sizeOfBlock k - 8) / 2) ≤ img.sizeOfBlock k := by omega
    exact entriesAccesses_inside hbase h _ (by omega) img a ha

/-- The loop ends: one of its runs is that of the loop over the image, which has rounds enough, and
what it accesses lies in the image. -/
theorem exists_blocksRun {kstop : ℕ} (hbase : base.toNat + 2 ^ 34 ≤ 2 ^ 64)
    (hstop : PointsTo base stop kstop) (hend : kstop ≤ sizeOfImage.toNat) (fuel : ℕ) {k : ℕ}
    (h : PointsTo base cursor k) (hk : k < 2 ^ 33) (hfuel : relocFuel (kstop - k) ≤ fuel)
    (img : Image) :
    ∃ as, BlocksRun rules sizeOfImage base delta stop cursor img as
        (relocBlocks rules sizeOfImage delta kstop fuel k img) ∧
      ∀ a ∈ as, a.Inside base sizeOfImage := by
  have hsize := sizeOfImage.isLt
  have height : sizeofBaseRelocationBlock = 8 := rfl
  induction fuel generalizing cursor k img with
  | zero =>
    rw [relocFuel] at hfuel
    omega
  | succ fuel ih =>
    rw [relocFuel] at hfuel
    have h8 := h.add (d := 8) hbase (by omega)
    have hcompare : stop.toNat < (cursor + 8).toNat ↔ kstop < k + sizeofBaseRelocationBlock := by
      have h8' : (cursor + 8).toNat = base.toNat + (k + 8) := h8
      rw [h8', hstop]
      omega
    rw [relocBlocks]
    by_cases hdone : kstop < k + sizeofBaseRelocationBlock
    · rw [if_pos hdone]
      exact ⟨[], .done (hcompare.2 hdone), fun a ha => by cases ha⟩
    rw [if_neg hdone]
    have hmore := hcompare.not.2 hdone
    obtain ⟨hround, hinside⟩ := blockRound_spec hbase h hstop hend (by omega) img
    generalize hr : blockRound rules sizeOfImage base delta stop cursor img = round
      at hround hinside
    obtain ⟨as, r⟩ := round
    dsimp only at hround hinside
    subst hround
    cases hr' : relocBlock rules sizeOfImage delta kstop k img with
    | error e =>
      rw [hr'] at hr
      exact ⟨as, .fail hmore hr, hinside⟩
    | ok img' =>
      rw [hr'] at hr
      dsimp only
      have hblock := sizeOfBlock_lt img' k
      have hnext := h.add (d := img'.sizeOfBlock k) hbase (by omega)
      rw [← blockStride_eq h] at hnext
      have hread : Access.Inside base sizeOfImage ⟨cursor + 4, 4⟩ :=
        (h.add (d := 4) hbase (by omega)).inside (by omega)
      have hall : ∀ as', (∀ a ∈ as', a.Inside base sizeOfImage) →
          ∀ a ∈ as ++ ⟨cursor + 4, 4⟩ :: as', a.Inside base sizeOfImage := by
        intro as' has' a ha
        rw [List.mem_append, List.mem_cons] at ha
        rcases ha with ha | rfl | ha
        · exact hinside a ha
        · exact hread
        · exact has' a ha
      by_cases hzero : img'.sizeOfBlock k = 0
      · -- the next round finds the size that was patched to zero
        obtain ⟨n, rfl⟩ : ∃ n, fuel = n + 1 := ⟨fuel - 1, by omega⟩
        have hstay : cursor + blockStride base cursor img' = cursor := by
          rw [blockStride_eq h, hzero]
          exact BitVec.add_zero _
        have hzero' : img'.sizeOfBlock (offsetOf base cursor) = 0 := by rw [h.offsetOf, hzero]
        have hlast : blockRound rules sizeOfImage base delta stop cursor img' =
            ([⟨cursor, 8⟩], .error rules.invalid) := by
          rw [blockRound, hzero', if_pos (by decide)]
        have hsame : k + img'.sizeOfBlock k = k := by rw [hzero, Nat.add_zero]
        rw [hsame, relocBlocks_of_zero rules sizeOfImage delta n hdone hzero]
        have hfail : BlocksRun rules sizeOfImage base delta stop (cursor + blockStride base cursor img')
            img' [⟨cursor, 8⟩] (.error rules.invalid) := by
          rw [hstay]
          exact .fail hmore hlast
        refine ⟨_, .next hmore hr hfail, hall _ fun a ha => ?_⟩
        rw [List.mem_singleton] at ha
        subst ha
        exact h.inside (by omega)
      · obtain ⟨as', hrun, hrest⟩ := ih hnext (by omega) (by rw [relocFuel]; omega) img'
        exact ⟨_, .next hmore hr hrun, hall as' hrest⟩

/-- The loop does one thing. -/
theorem BlocksRun.unique {img : Image} {as as' : List Access} {r r' : Except ε Image}
    (h : BlocksRun rules sizeOfImage base delta stop cursor img as r)
    (h' : BlocksRun rules sizeOfImage base delta stop cursor img as' r') : as' = as ∧ r' = r := by
  induction h generalizing as' with
  | done hdone =>
    cases h' with
    | done => exact ⟨rfl, rfl⟩
    | fail hmore => exact absurd hdone hmore
    | next hmore => exact absurd hdone hmore
  | fail hmore hround =>
    cases h' with
    | done hdone => exact absurd hdone hmore
    | fail _ hround' =>
      cases hround.symm.trans hround'
      exact ⟨rfl, rfl⟩
    | next _ hround' => cases hround.symm.trans hround'
  | next hmore hround hrest ih =>
    cases h' with
    | done hdone => exact absurd hdone hmore
    | fail _ hround' => cases hround.symm.trans hround'
    | next _ hround' hrest' =>
      cases hround.symm.trans hround'
      obtain ⟨rfl, rfl⟩ := ih hrest'
      exact ⟨rfl, rfl⟩

/-- The cursor and the end of the directory, where the directory lies in the image. -/
theorem pointsTo_directory {nt : KpeNtHeaders64} (hbase : base.toNat + 2 ^ 34 ≤ 2 ^ 64)
    (hdir : (nt.optionalHeader.dataDirectory kpeDirBaseReloc).virtualAddress.toNat +
      (nt.optionalHeader.dataDirectory kpeDirBaseReloc).size.toNat ≤
        nt.optionalHeader.sizeOfImage.toNat) :
    PointsTo base (relocCursor base nt)
        (nt.optionalHeader.dataDirectory kpeDirBaseReloc).virtualAddress.toNat ∧
      PointsTo base (relocEnd base nt)
        ((nt.optionalHeader.dataDirectory kpeDirBaseReloc).virtualAddress.toNat +
          (nt.optionalHeader.dataDirectory kpeDirBaseReloc).size.toNat) := by
  have hsize := nt.optionalHeader.sizeOfImage.isLt
  have hcursor : PointsTo base (relocCursor base nt)
      (nt.optionalHeader.dataDirectory kpeDirBaseReloc).virtualAddress.toNat := by
    rw [PointsTo, relocCursor, BitVec.toNat_add, BitVec.toNat_setWidth]
    omega
  refine ⟨hcursor, ?_⟩
  rw [PointsTo] at hcursor
  rw [PointsTo, relocEnd, BitVec.toNat_add, BitVec.toNat_setWidth, hcursor]
  omega

/-- The loop over the stream of a directory in the image, for either loader. -/
theorem blocksRun_directory {nt : KpeNtHeaders64} (hbase : base.toNat + 2 ^ 34 ≤ 2 ^ 64)
    (hdir : (nt.optionalHeader.dataDirectory kpeDirBaseReloc).virtualAddress.toNat +
      (nt.optionalHeader.dataDirectory kpeDirBaseReloc).size.toNat ≤
        nt.optionalHeader.sizeOfImage.toNat) (img : Image) :
    ∃ as, BlocksRun rules nt.optionalHeader.sizeOfImage base delta (relocEnd base nt)
        (relocCursor base nt) img as (relocBlocks rules nt.optionalHeader.sizeOfImage delta
          ((nt.optionalHeader.dataDirectory kpeDirBaseReloc).virtualAddress.toNat +
            (nt.optionalHeader.dataDirectory kpeDirBaseReloc).size.toNat)
          (relocFuel (nt.optionalHeader.dataDirectory kpeDirBaseReloc).size.toNat)
          (nt.optionalHeader.dataDirectory kpeDirBaseReloc).virtualAddress.toNat img) ∧
      ∀ a ∈ as, a.Inside base nt.optionalHeader.sizeOfImage := by
  have hsize := nt.optionalHeader.sizeOfImage.isLt
  obtain ⟨hcursor, hend⟩ := pointsTo_directory hbase hdir
  refine exists_blocksRun hbase hend hdir _ hcursor (by omega) ?_ img
  rw [Nat.add_sub_cancel_left]

/-- Both loaders end on every image, with one result, and what they read of the relocation table or
patch lies in the image. -/
theorem relocation_inside (base : U64) (nt : KpeNtHeaders64) (img : Image)
    (hbase : base.toNat + 2 ^ 34 ≤ 2 ^ 64) :
    ((∃ as, UserRelocates base nt img as (pspApplyUserKpeRelocations base nt img)) ∧
        ∀ as r, UserRelocates base nt img as r →
          r = pspApplyUserKpeRelocations base nt img ∧
            ∀ a ∈ as, a.Inside base nt.optionalHeader.sizeOfImage) ∧
      (∃ as, KernelRelocates base nt img as (applyKpeBaseRelocations base nt img)) ∧
        ∀ as r, KernelRelocates base nt img as r →
          r = applyKpeBaseRelocations base nt img ∧
            ∀ a ∈ as, a.Inside base nt.optionalHeader.sizeOfImage := by
  have hnone : ∀ a ∈ ([] : List Access), a.Inside base nt.optionalHeader.sizeOfImage :=
    fun a ha => by cases ha
  constructor
  · rw [pspApplyUserKpeRelocations]
    simp only [UserRelocates]
    split_ifs with hsame hfixed hmissing hrange
    · exact ⟨⟨_, rfl, rfl⟩, fun as r h => ⟨h.2, h.1 ▸ hnone⟩⟩
    · exact ⟨⟨_, rfl, rfl⟩, fun as r h => ⟨h.2, h.1 ▸ hnone⟩⟩
    · exact ⟨⟨_, rfl, rfl⟩, fun as r h => ⟨h.2, h.1 ▸ hnone⟩⟩
    · exact ⟨⟨_, rfl, rfl⟩, fun as r h => ⟨h.2, h.1 ▸ hnone⟩⟩
    · obtain ⟨as, hrun, hinside⟩ := blocksRun_directory hbase (Nat.le_of_not_lt hrange) img
      refine ⟨⟨as, hrun⟩, fun as' r h => ?_⟩
      obtain ⟨rfl, rfl⟩ := hrun.unique h
      exact ⟨rfl, hinside⟩
  · rw [applyKpeBaseRelocations]
    simp only [KernelRelocates]
    split_ifs with hsame hmissing hrange
    · exact ⟨⟨_, rfl, rfl⟩, fun as r h => ⟨h.2, h.1 ▸ hnone⟩⟩
    · exact ⟨⟨_, rfl, rfl⟩, fun as r h => ⟨h.2, h.1 ▸ hnone⟩⟩
    · exact ⟨⟨_, rfl, rfl⟩, fun as r h => ⟨h.2, h.1 ▸ hnone⟩⟩
    · obtain ⟨as, hrun, hinside⟩ := blocksRun_directory hbase (Nat.le_of_not_lt hrange) img
      refine ⟨⟨as, hrun⟩, fun as' r h => ?_⟩
      obtain ⟨rfl, rfl⟩ := hrun.unique h
      exact ⟨rfl, hinside⟩

/-! ## What the stream lists -/

/-- The page of a block, and its entries. -/
structure RelocBlock where
  virtualAddress : U32
  entries : List U16

/-- The block at `cursor`. -/
def Image.relocBlock (img : Image) (cursor : ℕ) : RelocBlock where
  virtualAddress := img.read32 cursor
  entries := (List.range ((img.sizeOfBlock cursor - sizeofBaseRelocationBlock) / 2)).map fun i =>
    img.read16 (cursor + sizeofBaseRelocationBlock + 2 * i)

/-- The directory from `cursor` on is a list of blocks, with fewer bytes than a header left over at
its end. -/
inductive Blocks (img : Image) (stop : ℕ) : ℕ → List RelocBlock → Prop
  | nil {cursor : ℕ} : cursor ≤ stop → stop < cursor + sizeofBaseRelocationBlock →
    Blocks img stop cursor []
  | cons {cursor : ℕ} {bs : List RelocBlock} :
    sizeofBaseRelocationBlock ≤ img.sizeOfBlock cursor → cursor + img.sizeOfBlock cursor ≤ stop →
    Blocks img stop (cursor + img.sizeOfBlock cursor) bs →
    Blocks img stop cursor (img.relocBlock cursor :: bs)

/-- The word that an entry lists. -/
def RelocBlock.site (b : RelocBlock) (entry : U16) : ℕ :=
  b.virtualAddress.toNat + (entry &&& 0x0FFF).toNat

/-- The words that the entries of a block list, in their order. -/
def RelocBlock.sites (b : RelocBlock) : List ℕ :=
  (b.entries.filter fun entry : U16 => entry >>> 12 = kpeRelBasedDir64).map b.site

/-- The page lies in the image, and the entries are padding or list words of the image. -/
structure RelocBlock.Ok (sizeOfImage : U32) (b : RelocBlock) : Prop where
  page : b.virtualAddress.toNat + 4096 ≤ sizeOfImage.toNat
  entries : ∀ entry ∈ b.entries, entry >>> 12 = kpeRelBasedAbsolute ∨
    entry >>> 12 = kpeRelBasedDir64 ∧ b.site entry + 8 ≤ sizeOfImage.toNat

/-- Add the delta to the word at a site. -/
def Image.rebase (delta : U64) (img : Image) (site : ℕ) : Image :=
  img.write64 site (img.read64 site + delta)

/-- The positions of the blocks that can be reached from `start`. -/
inductive BlockAt (img : Image) (stop start : ℕ) : ℕ → Prop
  | start : BlockAt img stop start start
  | next {cursor : ℕ} : BlockAt img stop start cursor →
    sizeofBaseRelocationBlock ≤ img.sizeOfBlock cursor → cursor + img.sizeOfBlock cursor ≤ stop →
    BlockAt img stop start (cursor + img.sizeOfBlock cursor)

/-- The word is one that an entry of such a block lists, inside the image. -/
def PatchSite (sizeOfImage : U32) (img : Image) (stop start site : ℕ) : Prop :=
  ∃ cursor, BlockAt img stop start cursor ∧ cursor + img.sizeOfBlock cursor ≤ stop ∧
    site ∈ (img.relocBlock cursor).sites ∧ site + 8 ≤ sizeOfImage.toNat

/-- No patch site meets the directory. -/
def SitesApart (sizeOfImage : U32) (img : Image) (stop start : ℕ) : Prop :=
  ∀ site, PatchSite sizeOfImage img stop start site → site + 8 ≤ start ∨ stop ≤ site

/-- The directory is a list of well formed blocks. -/
def WellFormed (sizeOfImage : U32) (img : Image) (stop start : ℕ) (bs : List RelocBlock) : Prop :=
  Blocks img stop start bs ∧ ∀ b ∈ bs, b.Ok sizeOfImage

variable {img₀ img' : Image} {kstop start k : ℕ}

/-- Two images agree on the directory. -/
def SameDirectory (start kstop : ℕ) (img₀ img : Image) : Prop :=
  ∀ j, start ≤ j → j < kstop → img j = img₀ j

theorem SameDirectory.read (h : SameDirectory start kstop img₀ img) {i n : ℕ} (hi : start ≤ i)
    (hn : i + n ≤ kstop) : img.read i n = img₀.read i n :=
  Image.read_congr fun j hj => h (i + j) (by omega) (by omega)

/-- A patch outside the directory. -/
theorem SameDirectory.rebase (h : SameDirectory start kstop img₀ img) {site : ℕ}
    (hsite : site + 8 ≤ start ∨ kstop ≤ site) :
    SameDirectory start kstop img₀ (img.rebase delta site) := by
  intro j hj hj'
  rw [Image.rebase, Image.write64, if_neg (by omega)]
  exact h j hj hj'

theorem SameDirectory.foldl_rebase (sites : List ℕ) (h : SameDirectory start kstop img₀ img)
    (hsites : ∀ site ∈ sites, site + 8 ≤ start ∨ kstop ≤ site) :
    SameDirectory start kstop img₀ (sites.foldl (Image.rebase delta) img) := by
  induction sites generalizing img with
  | nil => exact h
  | cons site sites ih =>
    exact ih (h.rebase (hsites site List.mem_cons_self)) fun site' hsite' =>
      hsites site' (List.mem_cons_of_mem _ hsite')

/-- A byte that no site meets stays. -/
theorem foldl_rebase_apply (sites : List ℕ) (img : Image) {j : ℕ}
    (h : ∀ site ∈ sites, ¬(site ≤ j ∧ j < site + 8)) :
    sites.foldl (Image.rebase delta) img j = img j := by
  induction sites generalizing img with
  | nil => rfl
  | cons site sites ih =>
    rw [List.foldl_cons, ih _ fun site' hsite' => h site' (List.mem_cons_of_mem _ hsite'),
      Image.rebase, Image.write64, if_neg (h site List.mem_cons_self)]

/-- An entry is padding, or lists a word of the image that is patched. -/
theorem relocEntry_eq_ok {b : RelocBlock}
    (hpage : b.virtualAddress.toNat + 4096 ≤ 2 ^ 32) (entry : U16) :
    relocEntry rules sizeOfImage delta b.virtualAddress entry img = .ok img' ↔
      entry >>> 12 = kpeRelBasedAbsolute ∧ img' = img ∨
        entry >>> 12 = kpeRelBasedDir64 ∧ b.site entry + 8 ≤ sizeOfImage.toNat ∧
          img' = img.rebase delta (b.site entry) := by
  have hoffset : (entry &&& 0x0FFF).toNat < 4096 := by
    have hle : (entry &&& 0x0FFF).toNat ≤ (0x0FFF : U16).toNat := by
      rw [BitVec.toNat_and]
      exact Nat.and_le_right
    exact Nat.lt_of_le_of_lt hle (by decide)
  have hrva : (b.virtualAddress + (entry &&& 0x0FFF).setWidth 32).toNat = b.site entry := by
    rw [BitVec.toNat_add, BitVec.toNat_setWidth, RelocBlock.site]
    omega
  have htypes : kpeRelBasedAbsolute ≠ kpeRelBasedDir64 := by decide
  rw [relocEntry]
  dsimp only
  rw [hrva]
  by_cases habsolute : entry >>> 12 = kpeRelBasedAbsolute
  · rw [if_pos habsolute]
    constructor
    · intro h
      exact Or.inl ⟨habsolute, (Except.ok.inj h).symm⟩
    · rintro (⟨-, rfl⟩ | ⟨hdir, -⟩)
      · rfl
      · exact absurd (habsolute.symm.trans hdir) htypes
  rw [if_neg habsolute]
  by_cases hdir : entry >>> 12 = kpeRelBasedDir64
  swap
  · rw [if_pos hdir]
    constructor
    · intro h
      cases h
    · rintro (⟨h, -⟩ | ⟨h, -⟩)
      · exact absurd h habsolute
      · exact absurd h hdir
  rw [if_neg (not_not.2 hdir)]
  by_cases hrange : sizeOfImage.toNat < b.site entry + 8
  · rw [if_pos hrange]
    constructor
    · intro h
      cases h
    · rintro (⟨h, -⟩ | ⟨-, h, -⟩)
      · exact absurd h habsolute
      · omega
  · rw [if_neg hrange]
    constructor
    · intro h
      exact Or.inr ⟨hdir, by omega, (Except.ok.inj h).symm⟩
    · rintro (⟨h, -⟩ | ⟨-, -, rfl⟩)
      · exact absurd h habsolute
      · rfl

/-- The entries of the block at `cursor` from the `i`-th on, `n` of them. -/
def Image.entriesFrom (img : Image) (cursor i n : ℕ) : List U16 :=
  (List.range' i n).map fun i => img.read16 (cursor + sizeofBaseRelocationBlock + 2 * i)

/-- The words that some entries of a block list. -/
def RelocBlock.sitesOf (b : RelocBlock) (entries : List U16) : List ℕ :=
  (entries.filter fun entry : U16 => entry >>> 12 = kpeRelBasedDir64).map b.site

/-- The loop over the entries, where the sites are apart from the directory. -/
theorem relocEntries_eq_ok (n : ℕ) {i : ℕ} (hsame : SameDirectory start kstop img₀ img)
    (hstart : start ≤ k) (hstop : k + 8 + 2 * (i + n) ≤ kstop)
    (hpage : (img₀.read32 k).toNat + 4096 ≤ 2 ^ 32)
    (hapart : ∀ site ∈ (img₀.relocBlock k).sitesOf (img₀.entriesFrom k i n),
      site + 8 ≤ sizeOfImage.toNat → site + 8 ≤ start ∨ kstop ≤ site) :
    relocEntries rules sizeOfImage delta k n i img = .ok img' ↔
      (∀ entry ∈ img₀.entriesFrom k i n, entry >>> 12 = kpeRelBasedAbsolute ∨
        entry >>> 12 = kpeRelBasedDir64 ∧
          (img₀.relocBlock k).site entry + 8 ≤ sizeOfImage.toNat) ∧
        img' = ((img₀.relocBlock k).sitesOf (img₀.entriesFrom k i n)).foldl (Image.rebase delta)
          img := by
  have htypes : kpeRelBasedAbsolute ≠ kpeRelBasedDir64 := by decide
  have height : sizeofBaseRelocationBlock = 8 := rfl
  induction n generalizing i img with
  | zero =>
    rw [relocEntries]
    constructor
    · intro h
      refine ⟨fun entry hentry => ?_, (Except.ok.inj h).symm⟩
      cases hentry
    · rintro ⟨-, rfl⟩
      rfl
  | succ n ih =>
    rw [relocEntries]
    have hva : img.read32 k = img₀.read32 k := by
      rw [Image.read32, Image.read32, hsame.read hstart (by omega)]
    have hentry : img.read16 (k + sizeofBaseRelocationBlock + 2 * i) =
        img₀.read16 (k + sizeofBaseRelocationBlock + 2 * i) := by
      rw [Image.read16, Image.read16, hsame.read (by omega) (by omega)]
    rw [hva, hentry]
    have hcons : img₀.entriesFrom k i (n + 1) =
        img₀.read16 (k + sizeofBaseRelocationBlock + 2 * i) :: img₀.entriesFrom k (i + 1) n := rfl
    rw [hcons] at hapart ⊢
    generalize img₀.read16 (k + sizeofBaseRelocationBlock + 2 * i) = entry at hapart ⊢
    have hstep : ∀ img', relocEntry rules sizeOfImage delta (img₀.read32 k) entry img = .ok img' ↔
        _ := fun img' => relocEntry_eq_ok (b := img₀.relocBlock k) hpage entry
    rw [List.forall_mem_cons]
    cases hr : relocEntry rules sizeOfImage delta (img₀.read32 k) entry img with
    | error e =>
      constructor
      · intro h
        cases h
      · rintro ⟨⟨hok, -⟩, -⟩
        have hsome : ∃ img', relocEntry rules sizeOfImage delta (img₀.read32 k) entry img =
            .ok img' := by
          rcases hok with hok | ⟨hdir, hrange⟩
          · exact ⟨img, (hstep img).2 (Or.inl ⟨hok, rfl⟩)⟩
          · exact ⟨_, (hstep _).2 (Or.inr ⟨hdir, hrange, rfl⟩)⟩
        obtain ⟨img', himg'⟩ := hsome
        rw [hr] at himg'
        cases himg'
    | ok img₁ =>
      dsimp only
      rcases (hstep img₁).1 hr with ⟨habsolute, rfl⟩ | ⟨hdir, hrange, rfl⟩
      · have hskip : (img₀.relocBlock k).sitesOf (entry :: img₀.entriesFrom k (i + 1) n) =
            (img₀.relocBlock k).sitesOf (img₀.entriesFrom k (i + 1) n) := by
          simp only [RelocBlock.sitesOf, List.filter_cons, habsolute, htypes, decide_false,
            Bool.false_eq_true, if_false]
        rw [hskip] at hapart ⊢
        refine (ih hsame (by omega) hapart).trans ?_
        exact and_congr_left fun _ => (and_iff_right (Or.inl habsolute)).symm
      · have hsite : (img₀.relocBlock k).sitesOf (entry :: img₀.entriesFrom k (i + 1) n) =
            (img₀.relocBlock k).site entry ::
              (img₀.relocBlock k).sitesOf (img₀.entriesFrom k (i + 1) n) := by
          simp only [RelocBlock.sitesOf, List.filter_cons, hdir, decide_true, if_true, List.map_cons]
        rw [hsite] at hapart ⊢
        refine (ih (hsame.rebase (hapart _ List.mem_cons_self hrange)) (by omega) fun site hmem =>
          hapart site (List.mem_cons_of_mem _ hmem)).trans ?_
        rw [List.foldl_cons]
        exact and_congr_left fun _ => (and_iff_right (Or.inr ⟨hdir, hrange⟩)).symm

theorem Image.relocBlock_entries (img : Image) (k : ℕ) : (img.relocBlock k).entries =
    img.entriesFrom k 0 ((img.sizeOfBlock k - sizeofBaseRelocationBlock) / 2) := by
  rw [entriesFrom, ← List.range_eq_range']
  rfl

/-- The loop over the blocks, where the sites are apart from the directory. -/
theorem relocBlocks_eq_ok (hapart : SitesApart sizeOfImage img₀ kstop start)
    (hrules : ∀ va, rules.blockOk va = decide (va.toNat + 4096 ≤ sizeOfImage.toNat)) (fuel : ℕ)
    (hat : BlockAt img₀ kstop start k) (hstart : start ≤ k) (hk : k ≤ kstop)
    (hsame : SameDirectory start kstop img₀ img) (hfuel : relocFuel (kstop - k) ≤ fuel) :
    relocBlocks rules sizeOfImage delta kstop fuel k img = .ok img' ↔
      ∃ bs, WellFormed sizeOfImage img₀ kstop k bs ∧
        img' = (bs.flatMap RelocBlock.sites).foldl (Image.rebase delta) img := by
  have height : sizeofBaseRelocationBlock = 8 := rfl
  induction fuel generalizing k img with
  | zero =>
    rw [relocFuel] at hfuel
    omega
  | succ fuel ih =>
    rw [relocFuel] at hfuel
    rw [relocBlocks]
    by_cases hdone : kstop < k + sizeofBaseRelocationBlock
    · rw [if_pos hdone]
      constructor
      · intro h
        refine ⟨[], ⟨.nil hk hdone, fun b hb => ?_⟩, (Except.ok.inj h).symm⟩
        cases hb
      · rintro ⟨bs, ⟨hbs, -⟩, rfl⟩
        cases hbs with
        | nil => rfl
        | cons h8 hle => omega
    rw [if_neg hdone]
    have hva : img.read32 k = img₀.read32 k := by
      rw [Image.read32, Image.read32, hsame.read hstart (by omega)]
    have hsize : img.sizeOfBlock k = img₀.sizeOfBlock k := by
      rw [Image.sizeOfBlock, Image.sizeOfBlock, Image.read32, Image.read32,
        hsame.read (by omega) (by omega)]
    -- a block that is well formed, or not
    by_cases hok : sizeofBaseRelocationBlock ≤ img₀.sizeOfBlock k ∧
        (img₀.read32 k).toNat + 4096 ≤ sizeOfImage.toNat ∧ k + img₀.sizeOfBlock k ≤ kstop
    · obtain ⟨h8, hpage, hle⟩ := hok
      have hblock : relocBlock rules sizeOfImage delta kstop k img =
          relocEntries rules sizeOfImage delta k
            ((img₀.sizeOfBlock k - sizeofBaseRelocationBlock) / 2) 0 img := by
        rw [relocBlock, hsize, hva, hrules, if_neg (by omega), if_neg (by simpa using hpage),
          if_neg (by omega)]
      have hsites : ∀ site ∈ (img₀.relocBlock k).sites, site + 8 ≤ sizeOfImage.toNat →
          site + 8 ≤ start ∨ kstop ≤ site := fun site hsite hrange =>
        hapart site ⟨k, hat, hle, hsite, hrange⟩
      have hentries : ∀ img', relocEntries rules sizeOfImage delta k
          ((img₀.sizeOfBlock k - sizeofBaseRelocationBlock) / 2) 0 img = .ok img' ↔ _ := fun img' =>
        relocEntries_eq_ok ((img₀.sizeOfBlock k - sizeofBaseRelocationBlock) / 2) hsame hstart
          (by omega) (by have := sizeOfImage.isLt; omega)
          (by rw [← Image.relocBlock_entries]; exact hsites)
      simp only [← Image.relocBlock_entries] at hentries
      rw [hblock]
      cases hr : relocEntries rules sizeOfImage delta k
          ((img₀.sizeOfBlock k - sizeofBaseRelocationBlock) / 2) 0 img with
      | error e =>
        constructor
        · intro h
          cases h
        · rintro ⟨bs, ⟨hbs, hall⟩, -⟩
          cases hbs with
          | nil _ hlast => omega
          | cons _ _ hrest =>
            have hfirst := (hall _ List.mem_cons_self).entries
            rw [(hentries _).2 ⟨hfirst, rfl⟩] at hr
            cases hr
      | ok img₁ =>
        dsimp only
        obtain ⟨hfirst, rfl⟩ := (hentries img₁).1 hr
        have hmem : ∀ site ∈ (img₀.relocBlock k).sites, site + 8 ≤ sizeOfImage.toNat := by
          intro site hsite
          obtain ⟨entry, hentry, rfl⟩ := List.mem_map.1 hsite
          rw [List.mem_filter, decide_eq_true_eq] at hentry
          rcases hfirst entry hentry.1 with h | h
          · exact absurd (h.symm.trans hentry.2) (by decide)
          · exact h.2
        have hsame' : SameDirectory start kstop img₀
            ((img₀.relocBlock k).sites.foldl (Image.rebase delta) img) :=
          hsame.foldl_rebase _ fun site hsite => hsites site hsite (hmem site hsite)
        have hstride : Image.sizeOfBlock
            ((img₀.relocBlock k).sites.foldl (Image.rebase delta) img) k = img₀.sizeOfBlock k := by
          rw [Image.sizeOfBlock, Image.sizeOfBlock, Image.read32, Image.read32,
            hsame'.read (by omega) (by omega)]
        have hstride' : Image.sizeOfBlock (((img₀.relocBlock k).sitesOf
            (img₀.relocBlock k).entries).foldl (Image.rebase delta) img) k =
              img₀.sizeOfBlock k := hstride
        rw [hstride']
        refine (ih (hat.next h8 hle) (by omega) hle hsame' (by rw [relocFuel]; omega)).trans ?_
        constructor
        · rintro ⟨bs, ⟨hbs, hall⟩, rfl⟩
          refine ⟨img₀.relocBlock k :: bs, ⟨.cons h8 hle hbs, ?_⟩, ?_⟩
          · rw [List.forall_mem_cons]
            exact ⟨⟨hpage, hfirst⟩, hall⟩
          · rw [List.flatMap_cons, List.foldl_append]
        · rintro ⟨bs, ⟨hbs, hall⟩, rfl⟩
          cases hbs with
          | nil _ hlast => omega
          | cons _ _ hrest =>
            rw [List.forall_mem_cons] at hall
            refine ⟨_, ⟨hrest, hall.2⟩, ?_⟩
            rw [List.flatMap_cons, List.foldl_append]
    · have hfail : relocBlock rules sizeOfImage delta kstop k img = .error rules.invalid := by
        rw [relocBlock, hsize, hva, hrules]
        by_cases hsmall : img₀.sizeOfBlock k < sizeofBaseRelocationBlock
        · rw [if_pos hsmall]
        rw [if_neg hsmall]
        by_cases hpage : (img₀.read32 k).toNat + 4096 ≤ sizeOfImage.toNat
        · rw [if_neg (by simpa using hpage), if_pos]
          by_contra hle
          exact hok ⟨by omega, hpage, by omega⟩
        · rw [if_pos (by simpa using hpage)]
      rw [hfail]
      constructor
      · intro h
        cases h
      · rintro ⟨bs, ⟨hbs, hall⟩, -⟩
        cases hbs with
        | nil _ hlast => omega
        | cons h8 hle hrest => exact absurd ⟨h8, (hall _ List.mem_cons_self).page, hle⟩ hok

/-- `PspApplyUserKpeRelocations` on an image that it has to move, whose directory lies in the image
and meets no patch site: it succeeds exactly when the directory is a list of well formed blocks, and
the image is then the original with the delta added to the word at every site in the order of the
list. -/
theorem relocation_computes (base : U64) (nt : KpeNtHeaders64) (img img' : Image)
    (hdelta : base - nt.optionalHeader.imageBase ≠ 0)
    (hdynamic : nt.optionalHeader.dllCharacteristics &&& kpeDllcharDynamicBase ≠ 0) :
    let dir := nt.optionalHeader.dataDirectory kpeDirBaseReloc
    let start := dir.virtualAddress.toNat
    let stop := start + dir.size.toNat
    dir.virtualAddress ≠ 0 → 8 ≤ dir.size.toNat → stop ≤ nt.optionalHeader.sizeOfImage.toNat →
    SitesApart nt.optionalHeader.sizeOfImage img stop start →
    (pspApplyUserKpeRelocations base nt img = .ok img' ↔
      ∃ bs, WellFormed nt.optionalHeader.sizeOfImage img stop start bs ∧
        img' = (bs.flatMap RelocBlock.sites).foldl
          (Image.rebase (base - nt.optionalHeader.imageBase)) img ∧
        ∀ j, (∀ site ∈ bs.flatMap RelocBlock.sites, ¬(site ≤ j ∧ j < site + 8)) →
          img' j = img j) := by
  intro dir start stop hva hsize hrange hapart
  have hloop : pspApplyUserKpeRelocations base nt img =
      relocBlocks (pspRelocRules nt.optionalHeader.sizeOfImage) nt.optionalHeader.sizeOfImage
        (base - nt.optionalHeader.imageBase) stop (relocFuel dir.size.toNat) start img := by
    have hmissing : ¬(dir.virtualAddress = 0 ∨
        dir.size.toNat < sizeofBaseRelocationBlock) := fun h => h.elim hva (Nat.not_lt.2 hsize)
    rw [pspApplyUserKpeRelocations, if_neg hdelta, if_neg hdynamic, if_neg hmissing, if_neg (Nat.not_lt.2 hrange)]
  rw [hloop, relocBlocks_eq_ok hapart (fun _ => rfl) _ .start le_rfl (Nat.le_add_right _ _)
    (fun _ _ _ => rfl) (by rw [Nat.add_sub_cancel_left])]
  refine exists_congr fun bs => and_congr_right fun _ => ⟨?_, And.left⟩
  rintro rfl
  exact ⟨rfl, fun j hj => foldl_rebase_apply _ img hj⟩

/-! ## A small stream -/

/-- Headers of an image of three pages with one block of relocations in its second page. -/
def streamHeaders : KpeNtHeaders64 where
  signature := kpeSignature
  fileHeader := ⟨kpeMachineAur64, 1, 240⟩
  optionalHeader :=
    { magic := kpeOptMagicAur64
      addressOfEntryPoint := 0
      imageBase := 0x40000000
      sectionAlignment := 0x1000
      fileAlignment := 0x200
      sizeOfImage := 0x3000
      sizeOfHeaders := 0x200
      subsystem := kpeSubsystemUserland
      dllCharacteristics := kpeDllcharDynamicBase
      numberOfRvaAndSizes := 16
      dataDirectory := fun i => if i = kpeDirBaseReloc then ⟨0x1000, 12⟩ else ⟨0, 0⟩ }

/-- The block lists the word at `0x2000`, and pads. -/
def streamImage : Image := fun i =>
  if 0x1000 ≤ i then [0x00, 0x20, 0, 0, 12, 0, 0, 0, 0x00, 0xA0, 0, 0].getD (i - 0x1000) 0 else 0

theorem relocation_inside_stream :
    ((∃ as, UserRelocates 0x50000000 streamHeaders streamImage as
          (pspApplyUserKpeRelocations 0x50000000 streamHeaders streamImage)) ∧
        ∀ as r, UserRelocates 0x50000000 streamHeaders streamImage as r →
          r = pspApplyUserKpeRelocations 0x50000000 streamHeaders streamImage ∧
            ∀ a ∈ as, a.Inside 0x50000000 0x3000) ∧
      (∃ as, KernelRelocates 0x50000000 streamHeaders streamImage as
          (applyKpeBaseRelocations 0x50000000 streamHeaders streamImage)) ∧
        ∀ as r, KernelRelocates 0x50000000 streamHeaders streamImage as r →
          r = applyKpeBaseRelocations 0x50000000 streamHeaders streamImage ∧
            ∀ a ∈ as, a.Inside 0x50000000 0x3000 :=
  relocation_inside 0x50000000 streamHeaders streamImage (by decide)

theorem blockAt_stream {k : ℕ} (h : BlockAt streamImage (0x1000 + 12) 0x1000 k) :
    k = 0x1000 ∨ k = 0x100C := by
  have hfirst : streamImage.sizeOfBlock 0x1000 = 12 := by decide +kernel
  have hsecond : streamImage.sizeOfBlock 0x100C = 0 := by decide +kernel
  induction h with
  | start => exact Or.inl rfl
  | next _ h8 _ ih =>
    rcases ih with rfl | rfl
    · rw [hfirst]
      exact Or.inr rfl
    · rw [hsecond] at h8
      exact absurd h8 (by decide)

theorem relocation_computes_stream :
    pspApplyUserKpeRelocations 0x50000000 streamHeaders streamImage =
      .ok (streamImage.rebase 0x10000000 0x2000) := by
  have hfirst : streamImage.sizeOfBlock 0x1000 = 12 := by decide +kernel
  have hblock : streamImage.relocBlock 0x1000 = ⟨0x2000, [0xA000, 0]⟩ := by
    rw [Image.relocBlock, hfirst]
    have hva : streamImage.read32 0x1000 = 0x2000 := by decide +kernel
    have hentries : ((List.range ((12 - sizeofBaseRelocationBlock) / 2)).map fun i =>
        streamImage.read16 (0x1000 + sizeofBaseRelocationBlock + 2 * i)) = [0xA000, 0] := by
      decide +kernel
    rw [hva, hentries]
  have hsites : (streamImage.relocBlock 0x100C).sites = [] := by decide +kernel
  have hsite : RelocBlock.sites ⟨0x2000, [0xA000, 0]⟩ = [0x2000] := by decide +kernel
  have hlist : List.flatMap RelocBlock.sites [⟨0x2000, [0xA000, 0]⟩] = [0x2000] := by
    rw [List.flatMap_cons, hsite]
    rfl
  have hstart : (streamHeaders.optionalHeader.dataDirectory kpeDirBaseReloc).virtualAddress.toNat =
      0x1000 := by decide
  have hlength : (streamHeaders.optionalHeader.dataDirectory kpeDirBaseReloc).size.toNat = 12 := by
    decide
  have hdelta : (0x50000000 : U64) - streamHeaders.optionalHeader.imageBase = 0x10000000 := by
    decide
  have himage : streamHeaders.optionalHeader.sizeOfImage = 0x3000 := rfl
  have hok : RelocBlock.Ok 0x3000 ⟨0x2000, [0xA000, 0]⟩ := by
    refine ⟨by decide, fun entry hentry => ?_⟩
    rcases List.mem_pair.1 hentry with rfl | rfl
    · exact Or.inr ⟨by decide, by decide⟩
    · exact Or.inl (by decide)
  have happly := relocation_computes 0x50000000 streamHeaders streamImage
    (streamImage.rebase 0x10000000 0x2000) (by decide) (by decide) (by decide) (by decide)
    (by decide)
  simp only [hstart, hlength, hdelta, himage] at happly
  refine (happly ?_).2 ⟨[⟨0x2000, [0xA000, 0]⟩], ⟨?_, ?_⟩, ?_, ?_⟩
  · rintro site ⟨k, hat, -, hmem, -⟩
    rcases blockAt_stream hat with rfl | rfl
    · rw [hblock, hsite, List.mem_singleton] at hmem
      subst hmem
      exact Or.inr (by decide)
    · rw [hsites] at hmem
      cases hmem
  · have hnil : Blocks streamImage (0x1000 + 12) (0x1000 + streamImage.sizeOfBlock 0x1000) [] :=
      .nil (by rw [hfirst]) (by rw [hfirst]; decide)
    rw [← hblock]
    exact .cons (by rw [hfirst]; decide) (by rw [hfirst]) hnil
  · intro b hb
    rw [List.mem_singleton] at hb
    rw [hb]
    exact hok
  · rw [hlist, List.foldl_cons, List.foldl_nil]
  · intro j hj
    rw [hlist] at hj
    rw [Image.rebase, Image.write64, if_neg (hj 0x2000 List.mem_cons_self)]

end NtxKernel.Kpe
