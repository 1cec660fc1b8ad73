import Mathlib.Data.List.Dedup
import Mathlib.Data.List.Sort
import NtxKernel.Kpe.Format

/-!
# Packing an image

`tools/kpepack.ps1`, which makes a KPE file of a raw binary. Where a number does not fit a cast
throws, and so does the check of the entry point; `none` is a script that ends so. `Align-Up` rounds
in floating point, which is exact for the sizes of files.

* `getAutoRelocBytes` is the relocation stream: the words of the payload that look like addresses of
  it, grouped by pages.
* `kpeLayout` computes the sizes and positions, and `kpeFile` writes the file.
-/

namespace NtxKernel.Tools

open Foundations Kpe

/-- `[UInt32]` of a number. -/
def toUInt32 (n : ℕ) : Option U32 := if n < 2 ^ 32 then some (BitVec.ofNat 32 n) else none

/-- `Align-Up`. -/
def alignUp (value alignment : ℕ) : ℕ :=
  if alignment = 0 then value else (value + alignment - 1) / alignment * alignment

section RoundingUp

variable {value alignment : ℕ}

theorem le_alignUp (h : 0 < alignment) : value ≤ alignUp value alignment := by
  rw [alignUp, if_neg h.ne']
  have hdiv := Nat.div_add_mod (value + alignment - 1) alignment
  have hmod := Nat.mod_lt (value + alignment - 1) h
  rw [Nat.mul_comm] at hdiv
  omega

theorem dvd_alignUp (value alignment : ℕ) (h : 0 < alignment) :
    alignment ∣ alignUp value alignment := by
  rw [alignUp, if_neg h.ne']
  exact Nat.dvd_mul_left _ _

/-- No smaller multiple is as large as the value. -/
theorem alignUp_le (h : 0 < alignment) {m : ℕ} (hdvd : alignment ∣ m) (hle : value ≤ m) :
    alignUp value alignment ≤ m := by
  obtain ⟨k, rfl⟩ := hdvd
  rw [alignUp, if_neg h.ne', Nat.mul_comm alignment k]
  refine Nat.mul_le_mul_right _ (Nat.le_of_lt_succ ((Nat.div_lt_iff_lt_mul h).2 ?_))
  rw [Nat.succ_mul, Nat.mul_comm k]
  omega

/-- A multiple stays. -/
theorem alignUp_of_dvd (h : 0 < alignment) (hdvd : alignment ∣ value) :
    alignUp value alignment = value :=
  (alignUp_le h hdvd le_rfl).antisymm (le_alignUp h)

/-- A multiple can be added first or last. -/
theorem alignUp_add (h : 0 < alignment) {base : ℕ} (hdvd : alignment ∣ base) :
    alignUp (base + value) alignment = base + alignUp value alignment := by
  refine (alignUp_le h (Nat.dvd_add hdvd (dvd_alignUp _ _ h))
    (Nat.add_le_add_left (le_alignUp h) _)).antisymm ?_
  have hle : base + value ≤ alignUp (base + value) alignment := le_alignUp h
  have hrest : alignUp value alignment ≤ alignUp (base + value) alignment - base :=
    alignUp_le h (Nat.dvd_sub (dvd_alignUp (base + value) alignment h) hdvd) (by omega)
  omega

/-- A finer alignment rounds up less. -/
theorem alignUp_le_alignUp {fine : ℕ} (h : 0 < alignment) (hdvd : fine ∣ alignment) :
    alignUp value fine ≤ alignUp value alignment :=
  alignUp_le (Nat.pos_of_dvd_of_pos hdvd h) (hdvd.trans (dvd_alignUp _ _ h)) (le_alignUp h)

end RoundingUp

/-! ## The relocation stream -/

/-- The word at an offset of the payload is an address of the payload, from the start of the image
or with its base. -/
def isCandidate (payload : List UInt8) (textSectionRva : U32) (imageBase : U64) (offset : ℕ) :
    Bool :=
  let rvaRangeStart := textSectionRva.toNat
  let rvaRangeEnd := textSectionRva.toNat + payload.length
  let vaRangeStart := imageBase.toNat + textSectionRva.toNat
  let vaRangeEnd := vaRangeStart + payload.length
  let value := Bytes.read payload offset 8
  decide (rvaRangeStart ≤ value ∧ value < rvaRangeEnd ∨ vaRangeStart ≤ value ∧ value < vaRangeEnd)

/-- The offsets that the loop of `Get-AutoRelocBytes` takes. -/
def candidateOffsets (payload : List UInt8) (textSectionRva : U32) (imageBase : U64) : List ℕ :=
  if payload.length < 8 then []
  else
    ((List.range ((payload.length - 8) / 8 + 1)).map fun n => 8 * n).filter
      (isCandidate payload textSectionRva imageBase)

/-- `$candidateRvas`. The casts fit, as the end of the payload does. -/
def candidateRvas (payload : List UInt8) (textSectionRva : U32) (imageBase : U64) : List ℕ :=
  (candidateOffsets payload textSectionRva imageBase).map fun offset =>
    textSectionRva.toNat + offset

/-- `Sort-Object`. -/
def sortObject (rvas : List ℕ) : List ℕ := rvas.insertionSort (· ≤ ·)

/-- `$_ -band 0xFFFFF000`. -/
def pageRvaOf (rva : ℕ) : ℕ := rva &&& 0xFFFFF000

/-- `Group-Object` by the page. The addresses are sorted, and the groups come in their order. -/
def groupByPage (rvas : List ℕ) : List (ℕ × List ℕ) :=
  (rvas.map pageRvaOf).dedup.map fun pageRva =>
    (pageRva, rvas.filter fun rva => pageRvaOf rva = pageRva)

/-- What is written for a group. -/
structure PackedBlock where
  pageRva : ℕ
  blockSize : ℕ
  entries : List ℕ

/-- The block of a group, with an entry of padding where its size is not a multiple of four. -/
def packBlock (pageRva : ℕ) (group : List ℕ) : PackedBlock :=
  let entries := (sortObject group).map fun rva => (10 <<< 12) ||| (rva - pageRva)
  let blockSize := 8 + entries.length * 2
  if blockSize % 4 ≠ 0 then ⟨pageRva, blockSize + 2, entries ++ [0]⟩
  else ⟨pageRva, blockSize, entries⟩

/-- A block as it is written. -/
def PackedBlock.fields (b : PackedBlock) : List (ℕ × ℕ) :=
  (4, b.pageRva) :: (4, b.blockSize) :: b.entries.map fun entry => (2, entry)

/-- The blocks of the stream. -/
def packedBlocks (payload : List UInt8) (textSectionRva : U32) (imageBase : U64) :
    List PackedBlock :=
  (groupByPage (sortObject (candidateRvas payload textSectionRva imageBase).dedup)).map fun group =>
    packBlock group.1 group.2

/-- `Get-AutoRelocBytes`. -/
def getAutoRelocBytes (payload : List UInt8) (textSectionRva : U32) (imageBase : U64) :
    List UInt8 :=
  Bytes.fields ((packedBlocks payload textSectionRva imageBase).flatMap PackedBlock.fields)

section Stream

variable {payload : List UInt8} {textSectionRva : U32} {imageBase : U64}

theorem mem_candidateOffsets {offset : ℕ} :
    offset ∈ candidateOffsets payload textSectionRva imageBase ↔
      8 ∣ offset ∧ offset + 8 ≤ payload.length ∧
        isCandidate payload textSectionRva imageBase offset = true := by
  rw [candidateOffsets]
  by_cases hsize : payload.length < 8
  · rw [if_pos hsize]
    refine iff_of_false List.not_mem_nil ?_
    rintro ⟨-, hle, -⟩
    omega
  rw [if_neg hsize, List.mem_filter, List.mem_map, ← and_assoc]
  refine and_congr_left fun _ => ?_
  constructor
  · rintro ⟨n, hn, rfl⟩
    rw [List.mem_range] at hn
    exact ⟨Nat.dvd_mul_right _ _, by omega⟩
  · rintro ⟨⟨n, rfl⟩, hle⟩
    exact ⟨n, List.mem_range.2 (by omega), rfl⟩

theorem candidateRvas_pairwise :
    (candidateRvas payload textSectionRva imageBase).Pairwise (· < ·) := by
  rw [candidateRvas, List.pairwise_map, candidateOffsets]
  split
  · exact .nil
  · refine List.Pairwise.filter _ (List.pairwise_map.2 (List.pairwise_lt_range.imp ?_))
    intro n k hlt
    omega

/-- Sorting leaves the addresses as they are. -/
theorem sortObject_eq {rvas : List ℕ} (h : rvas.Pairwise (· < ·)) : sortObject rvas = rvas :=
  (h.imp Nat.le_of_lt).insertionSort_eq

theorem sorted_candidateRvas :
    sortObject (candidateRvas payload textSectionRva imageBase).dedup =
      candidateRvas payload textSectionRva imageBase := by
  have hsorted : (candidateRvas payload textSectionRva imageBase).Pairwise (· < ·) :=
    candidateRvas_pairwise
  rw [List.dedup_eq_self.2 (hsorted.imp Nat.ne_of_lt), sortObject_eq hsorted]

theorem packBlock_blockSize (pageRva : ℕ) (group : List ℕ) :
    (packBlock pageRva group).blockSize = 8 + 2 * (packBlock pageRva group).entries.length := by
  rw [packBlock]
  split
  · dsimp only
    rw [List.length_append, List.length_singleton]
    omega
  · exact congrArg _ (Nat.mul_comm _ _)

/-- The entries of a block are those of its addresses, with padding. -/
theorem packBlock_entries (pageRva : ℕ) {group : List ℕ} (h : group.Pairwise (· < ·)) :
    ∃ padding : List ℕ, (∀ entry ∈ padding, entry = 0) ∧ (packBlock pageRva group).entries =
      (group.map fun rva => (10 <<< 12) ||| (rva - pageRva)) ++ padding := by
  rw [packBlock, sortObject_eq h]
  split
  · exact ⟨[0], fun entry hentry => List.mem_singleton.1 hentry, rfl⟩
  · exact ⟨[], fun entry hentry => absurd hentry List.not_mem_nil, (List.append_nil _).symm⟩

end Stream

/-! ## The file -/

/-- The values of `ImageKind`. -/
inductive ImageKind
  | kernel
  | userland
  | systemAddon
  deriving DecidableEq

/-- The parameters of the script; `entryRva` is `none` for the empty string. -/
structure KpepackArgs where
  imageBase : U64 := 0x200000
  entryRva : Option U32 := none
  entryOffset : U32 := 0
  sectionRva : U32 := 0x1000
  sectionAlignment : U32 := 0x1000
  fileAlignment : U32 := 0x200
  imageKind : ImageKind := .kernel
  disableAutoReloc : Bool := false

/-- `$subsystemValue`. -/
def ImageKind.subsystem : ImageKind → ℕ
  | .kernel => 1
  | .userland => 2
  | .systemAddon => 3

def peOffset : ℕ := 0x80

/-- `$relocPayload`. -/
def relocPayloadOf (a : KpepackArgs) (payload : List UInt8) : List UInt8 :=
  if a.disableAutoReloc then [] else getAutoRelocBytes payload a.sectionRva a.imageBase

/-- `$headersEnd`. -/
def headersEnd (hasRelocSection : Bool) : ℕ :=
  peOffset + 4 + 20 + 240 + 40 * if hasRelocSection then 2 else 1

/-- The sizes and positions that the script computes. -/
structure KpeLayout where
  payloadSize : U32
  rawSize : U32
  effectiveEntryRva : U32
  relocPayload : List UInt8
  relocPayloadSize : U32
  sizeOfHeaders : U32
  relocSectionVA : U32
  relocRawSize : U32
  relocPointerToRaw : U32
  sizeOfImage : U32

/-- `$hasRelocSection`. -/
def KpeLayout.hasRelocSection (l : KpeLayout) : Bool := decide (0 < l.relocPayloadSize.toNat)

/-- `$effectiveEntryRva`. -/
def effectiveEntryRva (a : KpepackArgs) : Option U32 :=
  match a.entryRva with
  | none => toUInt32 (a.sectionRva.toNat + a.entryOffset.toNat)
  | some entryRva => some entryRva

/-- The script up to the file. -/
def kpeLayout (a : KpepackArgs) (payload : List UInt8) : Option KpeLayout := do
  let payloadSize ← toUInt32 payload.length
  let rawSize ← toUInt32 (alignUp payloadSize.toNat a.fileAlignment.toNat)
  let effectiveEntryRva ← effectiveEntryRva a
  let sectionEnd ← toUInt32 (a.sectionRva.toNat + payloadSize.toNat)
  if effectiveEntryRva.toNat < a.sectionRva.toNat ∨ sectionEnd.toNat ≤ effectiveEntryRva.toNat then
    none
  else
    let relocPayload := relocPayloadOf a payload
    let relocPayloadSize ← toUInt32 relocPayload.length
    let hasRelocSection := decide (0 < relocPayloadSize.toNat)
    let sizeOfHeaders ← toUInt32 (alignUp (headersEnd hasRelocSection) a.fileAlignment.toNat)
    let relocSectionVA ← toUInt32
      (alignUp (a.sectionRva.toNat + payloadSize.toNat) a.sectionAlignment.toNat)
    let relocRawSize ← toUInt32 (alignUp relocPayloadSize.toNat a.fileAlignment.toNat)
    let relocPointerToRaw ← toUInt32
      (alignUp (sizeOfHeaders.toNat + rawSize.toNat) a.fileAlignment.toNat)
    let sizeOfImage ← toUInt32 <|
      if hasRelocSection then
        alignUp (relocSectionVA.toNat + relocPayloadSize.toNat) a.sectionAlignment.toNat
      else alignUp (a.sectionRva.toNat + payloadSize.toNat) a.sectionAlignment.toNat
    return ⟨payloadSize, rawSize, effectiveEntryRva, relocPayload, relocPayloadSize, sizeOfHeaders,
      relocSectionVA, relocRawSize, relocPointerToRaw, sizeOfImage⟩

/-- The loops that write zeros up to a position. -/
def padTo (position : ℕ) (f : File) : File := f ++ List.replicate (position - f.length) 0

/-- The header at the start of the file. -/
def dosFields : List (ℕ × ℕ) := (2, 0x5A4D) :: List.replicate 29 (2, 0) ++ [(4, peOffset)]

/-- The headers at the position `$peOffset`; `timestamp` is the time. -/
def ntFields (a : KpepackArgs) (timestamp : U32) (l : KpeLayout) : List (ℕ × ℕ) :=
  [(4, 0x3045504B), (2, 0xA641), (2, if l.hasRelocSection then 2 else 1), (4, timestamp.toNat),
    (4, 0), (4, 0), (2, 240), (2, 0x0022),
    (2, 0xA641), (1, 1), (1, 0), (4, l.rawSize.toNat),
    (4, if l.hasRelocSection then l.relocRawSize.toNat else 0), (4, 0),
    (4, l.effectiveEntryRva.toNat), (4, a.sectionRva.toNat), (8, a.imageBase.toNat),
    (4, a.sectionAlignment.toNat), (4, a.fileAlignment.toNat), (2, 1), (2, 0), (2, 1), (2, 0),
    (2, 1), (2, 0), (4, 0), (4, l.sizeOfImage.toNat), (4, l.sizeOfHeaders.toNat), (4, 0),
    (2, a.imageKind.subsystem), (2, 0x0140), (8, 0x200000), (8, 0x20000), (8, 0x200000),
    (8, 0x20000), (4, 0), (4, 16)] ++
  (List.range 16).flatMap fun dirIndex =>
    let isReloc := l.hasRelocSection && decide (dirIndex = 5)
    [(4, if isReloc then l.relocSectionVA.toNat else 0),
      (4, if isReloc then l.relocPayloadSize.toNat else 0)]

/-- The header of the section `.text`. -/
def textFields (a : KpepackArgs) (l : KpeLayout) : List (ℕ × ℕ) :=
  [(1, 0x2E), (1, 0x74), (1, 0x65), (1, 0x78), (1, 0x74), (1, 0), (1, 0), (1, 0),
    (4, l.payloadSize.toNat), (4, a.sectionRva.toNat), (4, l.rawSize.toNat),
    (4, l.sizeOfHeaders.toNat), (4, 0), (4, 0), (2, 0), (2, 0), (4, 0x60000020)]

/-- The header of the section `.reloc`. -/
def relocFields (l : KpeLayout) : List (ℕ × ℕ) :=
  [(1, 0x2E), (1, 0x72), (1, 0x65), (1, 0x6C), (1, 0x6F), (1, 0x63), (1, 0), (1, 0),
    (4, l.relocPayloadSize.toNat), (4, l.relocSectionVA.toNat), (4, l.relocRawSize.toNat),
    (4, l.relocPointerToRaw.toNat), (4, 0), (4, 0), (2, 0), (2, 0), (4, 0x40000040)]

/-- The headers with their padding. -/
def kpeHeaders (a : KpepackArgs) (timestamp : U32) (l : KpeLayout) : File :=
  padTo l.sizeOfHeaders.toNat <|
    padTo peOffset (Bytes.fields dosFields) ++ Bytes.fields (ntFields a timestamp l) ++
      Bytes.fields (textFields a l) ++
      if l.hasRelocSection then Bytes.fields (relocFields l) else []

/-- The file. -/
def kpeFile (a : KpepackArgs) (timestamp : U32) (payload : List UInt8) (l : KpeLayout) : File :=
  let f := padTo (l.sizeOfHeaders.toNat + l.rawSize.toNat) (kpeHeaders a timestamp l ++ payload)
  if l.hasRelocSection then
    padTo (l.relocPointerToRaw.toNat + l.relocRawSize.toNat)
      (padTo l.relocPointerToRaw.toNat f ++ l.relocPayload)
  else f

/-- The script. -/
def kpepack (a : KpepackArgs) (timestamp : U32) (payload : List UInt8) : Option File :=
  (kpeLayout a payload).map (kpeFile a timestamp payload)

end NtxKernel.Tools
