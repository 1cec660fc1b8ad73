import Mathlib.Data.Fintype.Basic
import Mathlib.Tactic.FinCases
import NtxKernel.Tools.Kpepack

/-!
# The headers of a packed image

The headers that `tools/kpepack.ps1` writes, read back as a loader reads them. `headerFields` are
the fields in the order of the file; a field is found by the widths of those before it, which do not
depend on their values.
-/

namespace NtxKernel.Tools

open Foundations Kpe

variable (a : KpepackArgs) (timestamp : U32) (l : KpeLayout)

/-- The fields of the headers up to the section `.text`, with the padding behind the first of them. -/
def headerFields : List (ℕ × ℕ) :=
  dosFields ++ (64, 0) :: (ntFields a timestamp l ++ textFields a l)

/-- Their widths. -/
def headerWidths : List ℕ :=
  List.replicate 30 2 ++
    [4, 64, 4, 2, 2, 4, 4, 4, 2, 2, 2, 1, 1, 4, 4, 4, 4, 4, 8, 4, 4, 2, 2, 2, 2, 2, 2, 4, 4, 4, 4,
      2, 2, 8, 8, 8, 8, 4, 4] ++
    List.replicate 32 4 ++ [1, 1, 1, 1, 1, 1, 1, 1, 4, 4, 4, 4, 4, 4, 2, 2, 4]

/-- The widths of a section header. -/
def sectionWidths : List ℕ := [1, 1, 1, 1, 1, 1, 1, 1, 4, 4, 4, 4, 4, 4, 2, 2, 4]

variable {a timestamp l}

theorem headerFields_widths : (headerFields a timestamp l).map Prod.fst = headerWidths := rfl

theorem relocFields_widths : (relocFields l).map Prod.fst = sectionWidths := rfl

theorem width_headerFields : Bytes.width (headerFields a timestamp l) = 432 := by
  rw [Bytes.width, headerFields_widths]
  decide

theorem width_relocFields : Bytes.width (relocFields l) = 40 := by
  rw [Bytes.width, relocFields_widths]
  decide

/-- The headers are written as their fields. -/
theorem fields_headerFields :
    padTo peOffset (Bytes.fields dosFields) ++ Bytes.fields (ntFields a timestamp l) ++
        Bytes.fields (textFields a l) =
      Bytes.fields (headerFields a timestamp l) := by
  have hwidth : Bytes.width dosFields = 64 := by decide
  have hzeros : List.replicate (peOffset - 64) 0 = Bytes.ofNat 64 0 := (Bytes.ofNat_zero 64).symm
  rw [padTo, Bytes.length_fields, hwidth, hzeros, headerFields, Bytes.fields_append,
    Bytes.fields_cons, Bytes.fields_append]
  simp only [List.append_assoc]

variable {f : File} {rest : List UInt8} {i offset : ℕ}

/-- Reading a field of the headers. -/
theorem header_field (hf : f = Bytes.fields (headerFields a timestamp l) ++ rest) {k v : ℕ}
    (h : (headerFields a timestamp l)[i]? = some (k, v))
    (hoffset : (headerWidths.take i).sum = offset) : Bytes.read f offset k = v % 256 ^ k := by
  rw [hf, ← hoffset, ← Bytes.width_take headerFields_widths]
  exact Bytes.read_fields h rest

theorem header16 (hf : f = Bytes.fields (headerFields a timestamp l) ++ rest) {v : U16}
    (h : (headerFields a timestamp l)[i]? = some (2, v.toNat))
    (hoffset : (headerWidths.take i).sum = offset) : read16 f offset = v := by
  rw [read16, header_field hf h hoffset, Bytes.bitVec_of_mod v rfl]

theorem header32 (hf : f = Bytes.fields (headerFields a timestamp l) ++ rest) {v : U32}
    (h : (headerFields a timestamp l)[i]? = some (4, v.toNat))
    (hoffset : (headerWidths.take i).sum = offset) : read32 f offset = v := by
  rw [read32, header_field hf h hoffset, Bytes.bitVec_of_mod v rfl]

theorem header64 (hf : f = Bytes.fields (headerFields a timestamp l) ++ rest) {v : U64}
    (h : (headerFields a timestamp l)[i]? = some (8, v.toNat))
    (hoffset : (headerWidths.take i).sum = offset) : read64 f offset = v := by
  rw [read64, header_field hf h hoffset, Bytes.bitVec_of_mod v rfl]

/-- Reading a field of the header of `.reloc`. -/
theorem reloc32 (hf : f = Bytes.fields (headerFields a timestamp l) ++
      (Bytes.fields (relocFields l) ++ rest)) {v : U32}
    (h : (relocFields l)[i]? = some (4, v.toNat))
    (hoffset : 432 + (sectionWidths.take i).sum = offset) : read32 f offset = v := by
  have hwidth : Bytes.width (headerFields a timestamp l) = 432 := width_headerFields
  have hread : Bytes.read f offset 4 = v.toNat % 256 ^ 4 := by
    rw [hf, ← hoffset, ← Bytes.width_take relocFields_widths, ← hwidth, ← Bytes.length_fields,
      Bytes.read_append_right]
    exact Bytes.read_fields h rest
  rw [read32, hread, Bytes.bitVec_of_mod v rfl]

/-- The headers that are written. -/
def packedNtHeaders (a : KpepackArgs) (l : KpeLayout) : KpeNtHeaders64 where
  signature := kpeSignature
  fileHeader := ⟨kpeMachineAur64, if l.hasRelocSection then 2 else 1, 240⟩
  optionalHeader :=
    { magic := kpeOptMagicAur64
      addressOfEntryPoint := l.effectiveEntryRva
      imageBase := a.imageBase
      sectionAlignment := a.sectionAlignment
      fileAlignment := a.fileAlignment
      sizeOfImage := l.sizeOfImage
      sizeOfHeaders := l.sizeOfHeaders
      subsystem := BitVec.ofNat 16 a.imageKind.subsystem
      dllCharacteristics := 0x0140
      numberOfRvaAndSizes := 16
      dataDirectory := fun i =>
        if l.hasRelocSection && decide (i = kpeDirBaseReloc) then
          ⟨l.relocSectionVA, l.relocPayloadSize⟩
        else ⟨0, 0⟩ }

/-- The header of the section `.text`. -/
def textHeader (a : KpepackArgs) (l : KpeLayout) : KpeSectionHeader :=
  ⟨l.payloadSize, a.sectionRva, l.rawSize, l.sizeOfHeaders, 0x60000020⟩

/-- The header of the section `.reloc`. -/
def relocHeader (l : KpeLayout) : KpeSectionHeader :=
  ⟨l.relocPayloadSize, l.relocSectionVA, l.relocRawSize, l.relocPointerToRaw, 0x40000040⟩

/-- The section table. -/
def packedSections (a : KpepackArgs) (l : KpeLayout) : List KpeSectionHeader :=
  textHeader a l :: if l.hasRelocSection then [relocHeader l] else []

variable (hf : f = Bytes.fields (headerFields a timestamp l) ++ rest)

include hf

theorem readDosHeader_eq : readDosHeader f = ⟨kpeDosMagic, 0x80⟩ :=
  congrArg₂ KpeDosHeader.mk (header16 hf (i := 0) rfl rfl) (header32 hf (i := 30) rfl rfl)

/-- The directories, of which only that of the relocations is used. -/
theorem readDirectory_eq (i : Fin kpeNumberOfDirectoryEntries) :
    (⟨read32 f (0x80 + 136 + 8 * i), read32 f (0x80 + 140 + 8 * i)⟩ : KpeDataDirectory) =
      (packedNtHeaders a l).optionalHeader.dataDirectory i := by
  have hoffset : ∀ i : Fin kpeNumberOfDirectoryEntries,
      (headerWidths.take (69 + 2 * i)).sum = 0x80 + 136 + 8 * i ∧
        (headerWidths.take (70 + 2 * i)).sum = 0x80 + 140 + 8 * i := by decide
  have hfields : ∀ i : Fin kpeNumberOfDirectoryEntries,
      (headerFields a timestamp l)[69 + 2 * (i : ℕ)]? = some (4,
        if l.hasRelocSection && decide ((i : ℕ) = 5) then l.relocSectionVA.toNat else 0) ∧
      (headerFields a timestamp l)[70 + 2 * (i : ℕ)]? = some (4,
        if l.hasRelocSection && decide ((i : ℕ) = 5) then l.relocPayloadSize.toNat else 0) := by
    intro i
    fin_cases i <;> exact ⟨rfl, rfl⟩
  obtain ⟨hva, hsize⟩ := hfields i
  have hreloc : decide (i = kpeDirBaseReloc) = decide ((i : ℕ) = 5) :=
    decide_eq_decide.2 Fin.ext_iff
  rw [packedNtHeaders]
  dsimp only
  rw [hreloc]
  split at hva <;> rename_i hif
  · rw [if_pos hif] at hsize ⊢
    exact congrArg₂ KpeDataDirectory.mk (header32 hf hva (hoffset i).1)
      (header32 hf hsize (hoffset i).2)
  · rw [if_neg hif] at hsize ⊢
    exact congrArg₂ KpeDataDirectory.mk (header32 hf (v := 0) hva (hoffset i).1)
      (header32 hf (v := 0) hsize (hoffset i).2)

theorem readNtHeaders_eq : readNtHeaders f 0x80 = packedNtHeaders a l := by
  have hsections : (headerFields a timestamp l)[34]? =
      some (2, (if l.hasRelocSection then 2 else 1 : U16).toNat) := by
    have hfield : (headerFields a timestamp l)[34]? =
      some (2, if l.hasRelocSection then 2 else 1) := rfl
    rw [hfield]
    split <;> rfl
  have hsubsystem : (headerFields a timestamp l)[61]? =
      some (2, (BitVec.ofNat 16 a.imageKind.subsystem).toNat) := by
    have hfield : (headerFields a timestamp l)[61]? = some (2, a.imageKind.subsystem) := rfl
    rw [hfield]
    cases a.imageKind <;> rfl
  have hdirectories := funext (readDirectory_eq hf)
  have hsignature : read32 f 0x80 = kpeSignature := header32 hf (i := 32) rfl rfl
  have hmachine : read16 f (0x80 + 4) = kpeMachineAur64 := header16 hf (i := 33) rfl rfl
  have hcount : read16 f (0x80 + 6) = _ := header16 hf hsections rfl
  have hoptional : read16 f (0x80 + 20) = 240 := header16 hf (i := 38) rfl rfl
  have hmagic : read16 f (0x80 + 24) = kpeOptMagicAur64 := header16 hf (i := 40) rfl rfl
  have hentry : read32 f (0x80 + 40) = l.effectiveEntryRva := header32 hf (i := 46) rfl rfl
  have hbase : read64 f (0x80 + 48) = a.imageBase := header64 hf (i := 48) rfl rfl
  have hsection : read32 f (0x80 + 56) = a.sectionAlignment := header32 hf (i := 49) rfl rfl
  have hfile : read32 f (0x80 + 60) = a.fileAlignment := header32 hf (i := 50) rfl rfl
  have himage : read32 f (0x80 + 80) = l.sizeOfImage := header32 hf (i := 58) rfl rfl
  have hheaders : read32 f (0x80 + 84) = l.sizeOfHeaders := header32 hf (i := 59) rfl rfl
  have hkind : read16 f (0x80 + 92) = _ := header16 hf hsubsystem rfl
  have hflags : read16 f (0x80 + 94) = 0x0140 := header16 hf (i := 62) rfl rfl
  have hrvas : read32 f (0x80 + 132) = 16 := header32 hf (i := 68) rfl rfl
  rw [readNtHeaders, hdirectories, hsignature, hmachine, hcount, hoptional, hmagic, hentry, hbase,
    hsection, hfile, himage, hheaders, hkind, hflags, hrvas]
  rfl

theorem readTextHeader_eq : readSectionHeader f 392 = textHeader a l := by
  have hsize : read32 f (392 + 8) = l.payloadSize := header32 hf (i := 109) rfl rfl
  have hva : read32 f (392 + 12) = a.sectionRva := header32 hf (i := 110) rfl rfl
  have hraw : read32 f (392 + 16) = l.rawSize := header32 hf (i := 111) rfl rfl
  have hpointer : read32 f (392 + 20) = l.sizeOfHeaders := header32 hf (i := 112) rfl rfl
  have hflags : read32 f (392 + 36) = 0x60000020 := header32 hf (i := 117) rfl rfl
  rw [readSectionHeader, hsize, hva, hraw, hpointer, hflags]
  rfl

omit hf in
theorem readRelocHeader_eq (hf : f = Bytes.fields (headerFields a timestamp l) ++
      (Bytes.fields (relocFields l) ++ rest)) : readSectionHeader f 432 = relocHeader l := by
  have hsize : read32 f (432 + 8) = l.relocPayloadSize := reloc32 hf (i := 8) rfl rfl
  have hva : read32 f (432 + 12) = l.relocSectionVA := reloc32 hf (i := 9) rfl rfl
  have hraw : read32 f (432 + 16) = l.relocRawSize := reloc32 hf (i := 10) rfl rfl
  have hpointer : read32 f (432 + 20) = l.relocPointerToRaw := reloc32 hf (i := 11) rfl rfl
  have hflags : read32 f (432 + 36) = 0x40000040 := reloc32 hf (i := 16) rfl rfl
  rw [readSectionHeader, hsize, hva, hraw, hpointer, hflags]
  rfl

end NtxKernel.Tools
