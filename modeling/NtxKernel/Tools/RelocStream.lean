import Mathlib.Data.List.GetD
import NtxKernel.Kpe.Relocation
import NtxKernel.Kpe.TwoLoaders
import NtxKernel.Tools.Kpepack

/-!
# The relocation stream of a packed image

The stream that `Get-AutoRelocBytes` writes, read back by the loop that relocates an image.

* `Holds` says that bytes stand in the image, and `Holds.blocks` that the loader finds the blocks
  that were written.
* `relocBlocks_of_blocks` is the loop over blocks whose words are apart from the directory, and
  `foldl_rebase_site` what it leaves at a word.
* `nodup_packedSites`: the blocks list every candidate of the payload, each of them once.
-/

namespace NtxKernel.Tools

open Foundations Boot Kpe

/-! ## Bytes in the image -/

/-- The bytes stand in the image from a position on. -/
def Holds (img : Image) (start : ℕ) (bytes : List UInt8) : Prop :=
  ∀ i < bytes.length, img (start + i) = bytes.getD i 0

variable {img : Image} {start : ℕ} {bytes bytes' : List UInt8}

theorem Holds.left (h : Holds img start (bytes ++ bytes')) : Holds img start bytes := by
  intro i hi
  rw [h i (by rw [List.length_append]; omega), List.getD_append _ _ _ _ hi]

theorem Holds.right (h : Holds img start (bytes ++ bytes')) :
    Holds img (start + bytes.length) bytes' := by
  intro i hi
  rw [Nat.add_assoc, h (bytes.length + i) (by rw [List.length_append]; omega),
    List.getD_append_right _ _ _ _ (by omega), Nat.add_sub_cancel_left]

/-- What is read inside the bytes is read from them. -/
theorem Holds.read (h : Holds img start bytes) {i k : ℕ} (hk : i + k ≤ bytes.length) :
    img.read (start + i) k = Bytes.read bytes i k := by
  rw [Image.read, Bytes.read]
  refine congrArg Bytes.toNat (List.ext_getElem ?_ fun j hj hj' => ?_)
  · rw [List.length_map, List.length_range, List.length_take, List.length_drop]
    omega
  · rw [List.length_map, List.length_range] at hj
    rw [List.getElem_map, List.getElem_range, Nat.add_assoc, h (i + j) (by omega),
      List.getElem_take, List.getElem_drop, List.getD_eq_getElem]

/-- The `i`-th field. -/
theorem Holds.read_field {l : List (ℕ × ℕ)} (h : Holds img start (Bytes.fields l)) {i k v : ℕ}
    (hfield : l[i]? = some (k, v)) :
    img.read (start + Bytes.width (l.take i)) k = v % 256 ^ k := by
  obtain ⟨hi, hget⟩ := List.getElem?_eq_some_iff.1 hfield
  have hle : Bytes.width (l.take i) + k ≤ (Bytes.fields l).length := by
    have hsplit : Bytes.width l =
        Bytes.width (l.take i) + (k + Bytes.width (l.drop (i + 1))) := by
      have hdrop : Bytes.width (l.drop i) = k + Bytes.width (l.drop (i + 1)) := by
        rw [← List.getElem_cons_drop hi, hget, Bytes.width, List.map_cons, List.sum_cons]
        rfl
      rw [← hdrop, ← Bytes.width_append, List.take_append_drop]
    rw [Bytes.length_fields]
    omega
  have hread := Bytes.read_fields hfield []
  rw [List.append_nil] at hread
  rw [h.read hle, hread]

/-! ## The stream -/

/-- A block as the loader reads it. -/
def PackedBlock.read (b : PackedBlock) : RelocBlock :=
  ⟨BitVec.ofNat 32 b.pageRva, b.entries.map (BitVec.ofNat 16)⟩

/-- The size is that of the header and the entries, and fits its field. -/
structure PackedBlock.Sized (b : PackedBlock) : Prop where
  blockSize : b.blockSize = 8 + 2 * b.entries.length
  fits : b.blockSize < 2 ^ 32

theorem width_entries (entries : List ℕ) (i : ℕ) (h : i ≤ entries.length) :
    Bytes.width ((entries.map fun entry => (2, entry)).take i) = 2 * i := by
  have hfst : (entries.map fun entry => (2, entry)).map Prod.fst =
      List.replicate entries.length 2 := by
    rw [List.map_map, ← List.map_const]
    rfl
  rw [Bytes.width, List.map_take, hfst, List.take_replicate, List.sum_replicate_nat,
    Nat.min_eq_left h, Nat.mul_comm]

theorem PackedBlock.width_fields (b : PackedBlock) :
    Bytes.width b.fields = 8 + 2 * b.entries.length := by
  have hall := width_entries b.entries b.entries.length le_rfl
  rw [List.take_of_length_le (by rw [List.length_map])] at hall
  rw [← hall, PackedBlock.fields, Bytes.width, List.map_cons, List.map_cons, List.sum_cons,
    List.sum_cons, ← Nat.add_assoc]
  rfl

/-- The loader reads a block as it was written. -/
theorem Holds.relocBlock {b : PackedBlock} (hb : b.Sized)
    (h : Holds img start (Bytes.fields b.fields)) :
    img.sizeOfBlock start = b.blockSize ∧ img.relocBlock start = b.read := by
  have hva : img.read32 start = BitVec.ofNat 32 b.pageRva := by
    have hread : img.read (start + 0) 4 = b.pageRva % 256 ^ 4 := h.read_field (i := 0) rfl
    rw [Image.read32, ← Nat.add_zero start, hread]
    exact BitVec.eq_of_toNat_eq (by simp)
  have hsize : img.sizeOfBlock start = b.blockSize := by
    have hread : img.read (start + 4) 4 = b.blockSize % 256 ^ 4 := h.read_field (i := 1) rfl
    rw [Image.sizeOfBlock, Image.read32, hread, BitVec.toNat_ofNat]
    have hfits := hb.fits
    omega
  refine ⟨hsize, ?_⟩
  have hcount : (b.blockSize - sizeofBaseRelocationBlock) / 2 = b.entries.length := by
    rw [hb.blockSize, Nat.add_sub_cancel_left, Nat.mul_div_cancel_left _ Nat.two_pos]
  rw [Image.relocBlock, hva, hsize, hcount, PackedBlock.read]
  refine congrArg _ (List.ext_getElem ?_ fun i hi hi' => ?_)
  · rw [List.length_map, List.length_map, List.length_range]
  rw [List.length_map] at hi'
  rw [List.getElem_map, List.getElem_range, List.getElem_map, Image.read16]
  have hfield : b.fields[i + 2]? = some (2, b.entries[i]) := by
    rw [PackedBlock.fields, List.getElem?_cons_succ, List.getElem?_cons_succ, List.getElem?_map,
      List.getElem?_eq_getElem hi']
    rfl
  have hwidth : Bytes.width (b.fields.take (i + 2)) = sizeofBaseRelocationBlock + 2 * i := by
    rw [← width_entries b.entries i hi'.le, PackedBlock.fields, List.take_succ_cons,
      List.take_succ_cons, Bytes.width, List.map_cons, List.map_cons, List.sum_cons,
      List.sum_cons, ← Nat.add_assoc]
    rfl
  have hread := h.read_field hfield
  rw [hwidth, ← Nat.add_assoc] at hread
  rw [hread]
  exact BitVec.eq_of_toNat_eq (by simp)

/-- The directory lists the blocks that were written. -/
theorem Holds.blocks (bs : List PackedBlock) (hsized : ∀ b ∈ bs, b.Sized)
    (h : Holds img start (Bytes.fields (bs.flatMap PackedBlock.fields))) :
    Blocks img (start + Bytes.width (bs.flatMap PackedBlock.fields)) start
      (bs.map PackedBlock.read) := by
  induction bs generalizing start with
  | nil => exact .nil le_rfl (Nat.lt_add_of_pos_right (by decide))
  | cons b bs ih =>
    have hb := hsized b List.mem_cons_self
    rw [List.flatMap_cons, Bytes.fields_append] at h
    obtain ⟨hsize, hblock⟩ := h.left.relocBlock hb
    have hrest := ih (fun b' hb' => hsized b' (List.mem_cons_of_mem _ hb')) h.right
    have hwidth : Bytes.width ((b :: bs).flatMap PackedBlock.fields) =
        b.blockSize + Bytes.width (bs.flatMap PackedBlock.fields) := by
      rw [List.flatMap_cons, Bytes.width_append, b.width_fields, hb.blockSize]
    rw [Bytes.length_fields, b.width_fields, ← hb.blockSize] at hrest
    rw [List.map_cons, ← hblock, hwidth, ← Nat.add_assoc]
    refine .cons ?_ ?_ ?_
    · rw [hsize, hb.blockSize]
      exact Nat.le_add_right _ _
    · rw [hsize]
      exact Nat.le_add_right _ _
    · rw [hsize]
      exact hrest

/-! ## Relocation -/

variable {ε : Type} {rules : RelocRules ε} {sizeOfImage : U32} {delta : U64} {img₀ : Image}
  {stop k : ℕ}

/-- The entries are padding or list words of the image, for each of which the sum with the page
does not wrap. -/
structure Patches (sizeOfImage : U32) (b : RelocBlock) : Prop where
  page : b.virtualAddress.toNat + 4096 ≤ 2 ^ 32
  entries : ∀ entry ∈ b.entries, entry >>> 12 = kpeRelBasedAbsolute ∨
    entry >>> 12 = kpeRelBasedDir64 ∧ b.site entry + 8 ≤ sizeOfImage.toNat

/-- The loop over the blocks patches the words that they list, where these are apart from the
directory. -/
theorem relocBlocks_of_blocks {bs : List RelocBlock} (hrules : ∀ va, rules.blockOk va = true)
    (hblocks : Blocks img₀ stop k bs) (hpatches : ∀ b ∈ bs, Patches sizeOfImage b)
    (hapart : ∀ b ∈ bs, ∀ site ∈ b.sites, site + 8 ≤ start ∨ stop ≤ site) (hstart : start ≤ k)
    (hsame : SameDirectory start stop img₀ img) {fuel : ℕ} (hfuel : relocFuel (stop - k) ≤ fuel) :
    relocBlocks rules sizeOfImage delta stop fuel k img =
      .ok ((bs.flatMap RelocBlock.sites).foldl (Image.rebase delta) img) := by
  have height : sizeofBaseRelocationBlock = 8 := rfl
  induction hblocks generalizing img fuel with
  | nil hk hdone =>
    rw [relocFuel] at hfuel
    obtain ⟨n, rfl⟩ : ∃ n, fuel = n + 1 := ⟨fuel - 1, by omega⟩
    rw [relocBlocks, if_pos hdone]
    rfl
  | cons h8 hle hrest ih =>
    rename_i cursor bs
    rw [relocFuel] at hfuel
    obtain ⟨n, rfl⟩ : ∃ n, fuel = n + 1 := ⟨fuel - 1, by omega⟩
    rw [List.forall_mem_cons] at hpatches hapart
    have hva : img.read32 cursor = img₀.read32 cursor := by
      rw [Image.read32, Image.read32, hsame.read hstart (by omega)]
    have hsize : img.sizeOfBlock cursor = img₀.sizeOfBlock cursor := by
      rw [Image.sizeOfBlock, Image.sizeOfBlock, Image.read32, Image.read32,
        hsame.read (by omega) (by omega)]
    have hentries : relocEntries rules sizeOfImage delta cursor
        ((img₀.sizeOfBlock cursor - sizeofBaseRelocationBlock) / 2) 0 img =
          .ok ((img₀.relocBlock cursor).sites.foldl (Image.rebase delta) img) := by
      refine (relocEntries_eq_ok _ hsame hstart (by omega) hpatches.1.page ?_).2 ⟨?_, ?_⟩
      · rw [← Image.relocBlock_entries]
        exact fun site hsite _ => hapart.1 site hsite
      · rw [← Image.relocBlock_entries]
        exact hpatches.1.entries
      · rw [← Image.relocBlock_entries]
        rfl
    have hsame' : SameDirectory start stop img₀
        ((img₀.relocBlock cursor).sites.foldl (Image.rebase delta) img) :=
      hsame.foldl_rebase _ hapart.1
    have hstride : Image.sizeOfBlock
        ((img₀.relocBlock cursor).sites.foldl (Image.rebase delta) img) cursor =
          img₀.sizeOfBlock cursor := by
      rw [Image.sizeOfBlock, Image.sizeOfBlock, Image.read32, Image.read32,
        hsame'.read (by omega) (by omega)]
    rw [relocBlocks, if_neg (by omega), relocBlock, hsize, hva, hrules, if_neg (by omega),
      if_neg (Bool.noConfusion), if_neg (by omega), hentries]
    dsimp only
    rw [hstride, ih hpatches.2 hapart.2 (by omega) hsame' (by rw [relocFuel]; omega),
      List.flatMap_cons, List.foldl_append]

/-- Reading a word that was written. -/
theorem read64_write64 (img : Image) (site : ℕ) (v : U64) :
    (img.write64 site v).read64 site = v := by
  have hbytes : (List.range 8).map (fun j => img.write64 site v (site + j)) =
      Bytes.ofNat 8 v.toNat := by
    rw [Bytes.ofNat_eq_map]
    refine List.map_congr_left fun j hj => ?_
    have hlt := List.mem_range.1 hj
    rw [Image.write64, if_pos (by omega), Nat.add_sub_cancel_left]
  rw [Image.read64, Image.read, hbytes, Bytes.toNat_ofNat, Bytes.bitVec_of_mod v rfl]

/-- Where no two sites meet, the delta is added once to the word at every site. -/
theorem foldl_rebase_site {sites : List ℕ} (hnodup : sites.Nodup)
    (hapart : ∀ s ∈ sites, ∀ t ∈ sites, s ≠ t → s + 8 ≤ t ∨ t + 8 ≤ s) {site : ℕ}
    (hsite : site ∈ sites) :
    Image.read64 (sites.foldl (Image.rebase delta) img) site = img.read64 site + delta := by
  induction sites generalizing img with
  | nil => cases hsite
  | cons first sites ih =>
    rw [List.nodup_cons] at hnodup
    rw [List.foldl_cons]
    by_cases hfirst : site = first
    · subst hfirst
      -- the other patches do not meet this word
      rw [← read64_write64 img site (img.read64 site + delta)]
      refine congrArg (BitVec.ofNat 64) (Image.read_congr fun j hj => ?_)
      refine foldl_rebase_apply _ _ fun t ht hmeets => ?_
      have hne : site ≠ t := fun h => hnodup.1 (h ▸ ht)
      rcases hapart site List.mem_cons_self t (List.mem_cons_of_mem _ ht) hne with h | h <;> omega
    · have hrest := List.mem_of_ne_of_mem hfirst hsite
      rw [ih hnodup.2 (fun s hs t ht => hapart s (List.mem_cons_of_mem _ hs) t
        (List.mem_cons_of_mem _ ht)) hrest]
      have hread : (Image.rebase delta img first).read64 site = img.read64 site := by
        refine congrArg (BitVec.ofNat 64) (Image.read_congr fun i hi => ?_)
        rw [Image.rebase, Image.write64, if_neg]
        rcases hapart site hsite first List.mem_cons_self hfirst with h | h <;> omega
      rw [hread]

/-! ## The words that the stream lists -/

/-- The entry of a word, by its offset in the page. -/
theorem packedEntry {offset : ℕ} (h : offset < 4096) :
    BitVec.ofNat 16 ((10 <<< 12) ||| offset) >>> 12 = kpeRelBasedDir64 ∧
      (BitVec.ofNat 16 ((10 <<< 12) ||| offset) &&& 0x0FFF).toNat = offset := by
  have hshift : 10 <<< 12 = 2 ^ 12 * 10 := rfl
  have hor : (10 <<< 12) ||| offset = 2 ^ 12 * 10 + offset := by
    rw [hshift, Nat.two_pow_add_eq_or_of_lt (by omega)]
  have htoNat : (BitVec.ofNat 16 ((10 <<< 12) ||| offset)).toNat = 2 ^ 12 * 10 + offset := by
    rw [hor, BitVec.toNat_ofNat, Nat.mod_eq_of_lt (by omega)]
  constructor
  · refine BitVec.eq_of_toNat_eq ?_
    rw [BitVec.toNat_ushiftRight, htoNat, Nat.shiftRight_eq_div_pow, Nat.mul_add_div (by decide)]
    exact congrArg (10 + ·) (Nat.div_eq_of_lt h)
  · rw [BitVec.toNat_and, htoNat]
    show (2 ^ 12 * 10 + offset) &&& (2 ^ 12 - 1) = offset
    rw [Nat.and_two_pow_sub_one_eq_mod, Nat.mul_add_mod]
    exact Nat.mod_eq_of_lt h

theorem pageRvaOf_eq {rva : ℕ} (h : rva < 2 ^ 32) : pageRvaOf rva = rva / 4096 * 4096 := by
  have hmask : (~~~lowMask 32 12).toNat = 0xFFFFF000 := by decide
  have hround := toNat_and_not_lowMask (BitVec.ofNat 32 rva) 12
  rwa [BitVec.toNat_and, hmask, BitVec.toNat_ofNat, Nat.mod_eq_of_lt h] at hround

/-- The addresses of a page, in their order. -/
structure PageGroup (pageRva : ℕ) (group : List ℕ) : Prop where
  sorted : group.Pairwise (· < ·)
  below : ∀ rva ∈ group, rva < 2 ^ 32
  page : ∀ rva ∈ group, pageRvaOf rva = pageRva

/-- The word that the entry of an address lists is at that address. -/
theorem PageGroup.site {pageRva : ℕ} {group : List ℕ} (h : PageGroup pageRva group) {rva : ℕ}
    (hrva : rva ∈ group) :
    BitVec.ofNat 16 ((10 <<< 12) ||| (rva - pageRva)) >>> 12 = kpeRelBasedDir64 ∧
      (packBlock pageRva group).read.site (BitVec.ofNat 16 ((10 <<< 12) ||| (rva - pageRva))) =
        rva := by
  have hlt := h.below rva hrva
  have hpage := h.page rva hrva
  rw [pageRvaOf_eq hlt] at hpage
  obtain ⟨htype, hoffset⟩ := packedEntry (show rva - pageRva < 4096 by omega)
  refine ⟨htype, ?_⟩
  have hva : (packBlock pageRva group).read.virtualAddress = BitVec.ofNat 32 pageRva := by
    rw [packBlock]
    split <;> rfl
  rw [RelocBlock.site, hoffset, hva, BitVec.toNat_ofNat, Nat.mod_eq_of_lt (by omega)]
  omega

/-- A block lists the words of its group. -/
theorem PageGroup.sites {pageRva : ℕ} {group : List ℕ} (h : PageGroup pageRva group) :
    (packBlock pageRva group).read.sites = group := by
  obtain ⟨padding, hpadding, hentries⟩ := packBlock_entries pageRva h.sorted
  have hread : (packBlock pageRva group).read.entries =
      (group.map fun rva => BitVec.ofNat 16 ((10 <<< 12) ||| (rva - pageRva))) ++
        padding.map (BitVec.ofNat 16) := by
    rw [PackedBlock.read, hentries, List.map_append, List.map_map]
    rfl
  have hlisted : (group.map fun rva => BitVec.ofNat 16 ((10 <<< 12) ||| (rva - pageRva))).filter
      (fun entry : U16 => entry >>> 12 = kpeRelBasedDir64) =
        group.map fun rva => BitVec.ofNat 16 ((10 <<< 12) ||| (rva - pageRva)) := by
    refine List.filter_eq_self.2 fun entry hentry => ?_
    obtain ⟨rva, hrva, rfl⟩ := List.mem_map.1 hentry
    exact decide_eq_true (h.site hrva).1
  have hskipped : (padding.map (BitVec.ofNat 16)).filter
      (fun entry : U16 => entry >>> 12 = kpeRelBasedDir64) = [] := by
    refine List.filter_eq_nil_iff.2 fun entry hentry => ?_
    obtain ⟨value, hvalue, rfl⟩ := List.mem_map.1 hentry
    rw [hpadding value hvalue]
    decide
  rw [RelocBlock.sites, hread, List.filter_append, hlisted, hskipped, List.append_nil, List.map_map]
  refine (List.map_congr_left fun rva hrva => ?_).trans (List.map_id group)
  exact (h.site hrva).2

/-- The entries of a block are padding or words of its group. -/
theorem PageGroup.patches {pageRva : ℕ} {group : List ℕ} (h : PageGroup pageRva group)
    (hpage : ∃ rva < 2 ^ 32, pageRvaOf rva = pageRva)
    (hinside : ∀ rva ∈ group, rva + 8 ≤ sizeOfImage.toNat) :
    Patches sizeOfImage (packBlock pageRva group).read := by
  constructor
  · obtain ⟨rva, hlt, hrva⟩ := hpage
    rw [pageRvaOf_eq hlt] at hrva
    have hva : (packBlock pageRva group).read.virtualAddress = BitVec.ofNat 32 pageRva := by
      rw [packBlock]
      split <;> rfl
    rw [hva, BitVec.toNat_ofNat, Nat.mod_eq_of_lt (by omega)]
    omega
  · intro entry hentry
    obtain ⟨padding, hpadding, hentries⟩ := packBlock_entries pageRva h.sorted
    rw [PackedBlock.read, hentries, List.map_append, List.mem_append, List.map_map] at hentry
    rcases hentry with hlisted | hskipped
    · obtain ⟨rva, hrva, rfl⟩ := List.mem_map.1 hlisted
      obtain ⟨htype, hsite⟩ := h.site hrva
      refine .inr ⟨htype, ?_⟩
      rw [Function.comp_apply, hsite]
      exact hinside rva hrva
    · obtain ⟨value, hvalue, rfl⟩ := List.mem_map.1 hskipped
      rw [hpadding value hvalue]
      exact .inl (by decide)

section PackedBlocks

variable {payload : List UInt8} {rva : U32} {base : U64}

theorem candidateRvas_inside {site : ℕ} (h : site ∈ candidateRvas payload rva base) :
    rva.toNat ≤ site ∧ site + 8 ≤ rva.toNat + payload.length ∧ 8 ∣ site - rva.toNat := by
  obtain ⟨offset, hoffset, rfl⟩ := List.mem_map.1 h
  obtain ⟨hdvd, hle, -⟩ := mem_candidateOffsets.1 hoffset
  rw [Nat.add_sub_cancel_left]
  exact ⟨Nat.le_add_right _ _, by omega, hdvd⟩

/-- The candidates in a page. -/
theorem pageGroup_filter (hfits : rva.toNat + payload.length ≤ 2 ^ 32) (pageRva : ℕ) :
    PageGroup pageRva ((candidateRvas payload rva base).filter fun site =>
      pageRvaOf site = pageRva) := by
  refine ⟨candidateRvas_pairwise.filter _, fun site hsite => ?_, fun site hsite => ?_⟩
  · have hinside := candidateRvas_inside (List.mem_filter.1 hsite).1
    omega
  · exact of_decide_eq_true (List.mem_filter.1 hsite).2

/-- Every block is that of a page with candidates. -/
theorem mem_packedBlocks {b : PackedBlock} (hb : b ∈ packedBlocks payload rva base) :
    ∃ first ∈ candidateRvas payload rva base, b = packBlock (pageRvaOf first)
      ((candidateRvas payload rva base).filter fun site => pageRvaOf site = pageRvaOf first) := by
  rw [packedBlocks, sorted_candidateRvas, groupByPage, List.map_map] at hb
  obtain ⟨pageRva, hpage, rfl⟩ := List.mem_map.1 hb
  obtain ⟨first, hfirst, rfl⟩ := List.mem_map.1 (List.mem_dedup.1 hpage)
  exact ⟨first, hfirst, rfl⟩

/-- The blocks patch words of the payload. -/
theorem patches_packedBlocks (hfits : rva.toNat + payload.length ≤ sizeOfImage.toNat)
    {b : PackedBlock} (hb : b ∈ packedBlocks payload rva base) : Patches sizeOfImage b.read := by
  have hsize := sizeOfImage.isLt
  obtain ⟨first, hfirst, rfl⟩ := mem_packedBlocks hb
  have hlt := (candidateRvas_inside hfirst).2.1
  refine (pageGroup_filter (by omega) _).patches ⟨first, by omega, rfl⟩ fun site hsite => ?_
  have hinside := candidateRvas_inside (List.mem_filter.1 hsite).1
  omega

/-- The words that the stream lists, page by page. -/
theorem sites_packedBlocks (hfits : rva.toNat + payload.length ≤ 2 ^ 32) :
    ((packedBlocks payload rva base).map PackedBlock.read).flatMap RelocBlock.sites =
      ((candidateRvas payload rva base).map pageRvaOf).dedup.flatMap fun pageRva =>
        (candidateRvas payload rva base).filter fun site => pageRvaOf site = pageRva := by
  rw [packedBlocks, sorted_candidateRvas, groupByPage, List.map_map, List.map_map,
    List.flatMap_map]
  exact List.flatMap_congr fun pageRva _ => (pageGroup_filter hfits pageRva).sites

/-- The stream lists every candidate, each of them once. -/
theorem nodup_packedSites (hfits : rva.toNat + payload.length ≤ 2 ^ 32) :
    (((packedBlocks payload rva base).map PackedBlock.read).flatMap RelocBlock.sites).Nodup ∧
      ∀ site, site ∈ ((packedBlocks payload rva base).map PackedBlock.read).flatMap
        RelocBlock.sites ↔ site ∈ candidateRvas payload rva base := by
  rw [sites_packedBlocks hfits]
  constructor
  · refine List.nodup_flatMap.2 ⟨fun pageRva _ => ?_, (List.nodup_dedup _).imp ?_⟩
    · exact (candidateRvas_pairwise.imp Nat.ne_of_lt).filter _
    · intro page page' hne site hsite hsite'
      have hpage := of_decide_eq_true (List.mem_filter.1 hsite).2
      have hpage' := of_decide_eq_true (List.mem_filter.1 hsite').2
      exact hne (hpage.symm.trans hpage')
  · intro site
    rw [List.mem_flatMap]
    constructor
    · rintro ⟨pageRva, -, hsite⟩
      exact (List.mem_filter.1 hsite).1
    · intro hsite
      refine ⟨pageRvaOf site, List.mem_dedup.2 (List.mem_map_of_mem hsite), ?_⟩
      exact List.mem_filter.2 ⟨hsite, decide_eq_true rfl⟩

/-- Two candidates do not overlap. -/
theorem candidateRvas_apart {site site' : ℕ} (h : site ∈ candidateRvas payload rva base)
    (h' : site' ∈ candidateRvas payload rva base) (hne : site ≠ site') :
    site + 8 ≤ site' ∨ site' + 8 ≤ site := by
  obtain ⟨hle, -, n, hn⟩ := candidateRvas_inside h
  obtain ⟨hle', -, n', hn'⟩ := candidateRvas_inside h'
  omega

/-- The sizes of the blocks fit where that of the stream does. -/
theorem sized_packedBlocks
    (hfits : (getAutoRelocBytes payload rva base).length < 2 ^ 32) {b : PackedBlock}
    (hb : b ∈ packedBlocks payload rva base) : b.Sized := by
  have hsize : b.blockSize = 8 + 2 * b.entries.length := by
    obtain ⟨first, -, rfl⟩ := mem_packedBlocks hb
    exact packBlock_blockSize _ _
  refine ⟨hsize, ?_⟩
  obtain ⟨before, after, hsplit⟩ := List.append_of_mem hb
  rw [getAutoRelocBytes, hsplit, List.flatMap_append, List.flatMap_cons, Bytes.length_fields,
    Bytes.width_append, Bytes.width_append, b.width_fields] at hfits
  omega

end PackedBlocks

end NtxKernel.Tools
