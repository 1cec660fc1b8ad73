import NtxKernel.Kpe.Format

/-!
# The image in memory

The memory that a loader fills for an image, byte by byte, and the relocation stream in it. The two
loaders run the same loop over the stream and differ in what they check of a block and in the
statuses they fail with; `RelocRules` is what they differ in.

The loop reads the stream from the image that it patches. `relocBlocks_fuel` says that the rounds it
is given are enough.
-/

namespace NtxKernel.Kpe

open Foundations

/-- The bytes of an image, by their offset from its base. -/
abbrev Image := ℕ → UInt8

namespace Image

/-- Memory that was cleared. -/
def zero : Image := fun _ => 0

/-- Copy bytes of the file. -/
def copy (img : Image) (f : File) (dest src size : ℕ) : Image := fun i =>
  if dest ≤ i ∧ i < dest + size then f.getD (src + (i - dest)) 0 else img i

/-- Clear bytes. -/
def clear (img : Image) (dest size : ℕ) : Image := fun i =>
  if dest ≤ i ∧ i < dest + size then 0 else img i

/-- The number that `k` bytes spell. -/
def read (img : Image) (i k : ℕ) : ℕ := Bytes.toNat ((List.range k).map fun j => img (i + j))

def read16 (img : Image) (i : ℕ) : U16 := BitVec.ofNat 16 (img.read i 2)
def read32 (img : Image) (i : ℕ) : U32 := BitVec.ofNat 32 (img.read i 4)
def read64 (img : Image) (i : ℕ) : U64 := BitVec.ofNat 64 (img.read i 8)

/-- Write a word. -/
def write64 (img : Image) (i : ℕ) (v : U64) : Image := fun j =>
  if i ≤ j ∧ j < i + 8 then UInt8.ofNat (v.toNat / 256 ^ (j - i)) else img j

/-- What is read depends on the bytes that are read. -/
theorem read_congr {img img' : Image} {i k : ℕ} (h : ∀ j < k, img' (i + j) = img (i + j)) :
    img'.read i k = img.read i k := by
  rw [read, read]
  refine congrArg Bytes.toNat (List.map_congr_left fun j hj => ?_)
  exact h j (List.mem_range.1 hj)

end Image

/-! ## Relocation -/

/-- What the loaders differ in: the check of the page of a block, and the statuses for a stream that
is not well formed and for a type that is not known. -/
structure RelocRules (ε : Type) where
  blockOk : U32 → Bool
  invalid : ε
  unsupported : ε

variable {ε : Type}

/-- The patch of an entry. -/
def relocEntry (rules : RelocRules ε) (sizeOfImage : U32) (delta : U64) (blockVa : U32)
    (entry : U16) (img : Image) : Except ε Image :=
  let type := entry >>> 12
  let offset := entry &&& 0x0FFF
  if type = kpeRelBasedAbsolute then .ok img
  else if type ≠ kpeRelBasedDir64 then .error rules.unsupported
  else
    let patchRva : U32 := blockVa + offset.setWidth 32
    if sizeOfImage.toNat < patchRva.toNat + 8 then .error rules.invalid
    else .ok (img.write64 patchRva.toNat (img.read64 patchRva.toNat + delta))

/-- The loop over the entries of the block at `cursor`, from the `i`-th on with `n` to go. -/
def relocEntries (rules : RelocRules ε) (sizeOfImage : U32) (delta : U64) (cursor : ℕ) :
    ℕ → ℕ → Image → Except ε Image
  | 0, _, img => .ok img
  | n + 1, i, img =>
    match relocEntry rules sizeOfImage delta (img.read32 cursor)
        (img.read16 (cursor + sizeofBaseRelocationBlock + 2 * i)) img with
    | .error e => .error e
    | .ok img => relocEntries rules sizeOfImage delta cursor n (i + 1) img

/-- `Block->SizeOfBlock` of the block at `cursor`. -/
def Image.sizeOfBlock (img : Image) (cursor : ℕ) : ℕ := (img.read32 (cursor + 4)).toNat

/-- A round of the loop over the blocks. -/
def relocBlock (rules : RelocRules ε) (sizeOfImage : U32) (delta : U64) (stop cursor : ℕ)
    (img : Image) : Except ε Image :=
  if img.sizeOfBlock cursor < sizeofBaseRelocationBlock then .error rules.invalid
  else if rules.blockOk (img.read32 cursor) = false then .error rules.invalid
  else if stop < cursor + img.sizeOfBlock cursor then .error rules.invalid
  else
    relocEntries rules sizeOfImage delta cursor
      ((img.sizeOfBlock cursor - sizeofBaseRelocationBlock) / 2) 0 img

/-- The loop over the blocks, with `fuel` rounds. -/
def relocBlocks (rules : RelocRules ε) (sizeOfImage : U32) (delta : U64) (stop : ℕ) :
    ℕ → ℕ → Image → Except ε Image
  | 0, _, _ => .error rules.invalid
  | fuel + 1, cursor, img =>
    if stop < cursor + sizeofBaseRelocationBlock then .ok img
    else
      match relocBlock rules sizeOfImage delta stop cursor img with
      | .error e => .error e
      | .ok img => relocBlocks rules sizeOfImage delta stop fuel (cursor + img.sizeOfBlock cursor) img

/-- The rounds that are enough for a directory of `size` bytes: one for each byte, one for a block
whose size was patched to zero, and one to stop. -/
def relocFuel (size : ℕ) : ℕ := size + 2

/-- A block whose size was patched to zero ends the loop. -/
theorem relocBlocks_of_zero (rules : RelocRules ε) (sizeOfImage : U32) (delta : U64) {stop cursor : ℕ}
    {img : Image} (fuel : ℕ) (hstop : ¬stop < cursor + sizeofBaseRelocationBlock)
    (hzero : img.sizeOfBlock cursor = 0) :
    relocBlocks rules sizeOfImage delta stop (fuel + 1) cursor img = .error rules.invalid := by
  rw [relocBlocks, if_neg hstop, relocBlock, hzero, if_pos (by decide)]

/-- The loop does not run out of rounds: more than enough change nothing. -/
theorem relocBlocks_fuel (rules : RelocRules ε) (sizeOfImage : U32) (delta : U64) (stop : ℕ)
    {fuel fuel' cursor : ℕ} (img : Image) (h : relocFuel (stop - cursor) ≤ fuel)
    (h' : relocFuel (stop - cursor) ≤ fuel') :
    relocBlocks rules sizeOfImage delta stop fuel cursor img =
      relocBlocks rules sizeOfImage delta stop fuel' cursor img := by
  induction fuel generalizing fuel' cursor img with
  | zero =>
    rw [relocFuel] at h
    omega
  | succ fuel ih =>
    rw [relocFuel] at h h'
    obtain ⟨n, rfl⟩ : ∃ n, fuel' = n + 1 := ⟨fuel' - 1, by omega⟩
    rw [relocBlocks, relocBlocks]
    by_cases hstop : stop < cursor + sizeofBaseRelocationBlock
    · rw [if_pos hstop, if_pos hstop]
    rw [if_neg hstop, if_neg hstop]
    cases relocBlock rules sizeOfImage delta stop cursor img with
    | error e => rfl
    | ok img' =>
      dsimp only
      have hlt : 8 ≤ stop - cursor := by
        have hsize : sizeofBaseRelocationBlock = 8 := rfl
        omega
      by_cases hzero : img'.sizeOfBlock cursor = 0
      · obtain ⟨k, rfl⟩ : ∃ k, fuel = k + 1 := ⟨fuel - 1, by omega⟩
        obtain ⟨k', rfl⟩ : ∃ k, n = k + 1 := ⟨n - 1, by omega⟩
        have hsame : cursor + img'.sizeOfBlock cursor = cursor := by rw [hzero]; rfl
        rw [hsame, relocBlocks_of_zero _ _ _ _ hstop hzero,
          relocBlocks_of_zero _ _ _ _ hstop hzero]
      · refine ih img' ?_ ?_ <;>
        · rw [relocFuel]
          omega

end NtxKernel.Kpe
