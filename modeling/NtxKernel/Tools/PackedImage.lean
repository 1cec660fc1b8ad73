import NtxKernel.Tools.PackedHeaders
import NtxKernel.Tools.RelocStream

/-!
# The packer and the loader

The file that `tools/kpepack.ps1` writes, loaded by `LoadKpeImage` of `boot/uefi/bootx64.c`.

* `Packable` is what the parameters of a kernel image have to fulfil, and `Packable.layout` the
  layout that the script then computes.
* `PackedFile` says what stands where in the file, and `PackedFile.validate` that the loader accepts
  it.
* `packer_loader_agree`: the image holds the payload. Where it is moved, the words that the script
  selected are increased by the distance, once each, and the other bytes are those of the payload.
-/

namespace NtxKernel.Tools

open Foundations Boot Kpe

/-! ## The layout -/

/-- The address of the entry point. -/
def entryRvaOf (a : KpepackArgs) : ℕ :=
  match a.entryRva with
  | none => a.sectionRva.toNat + a.entryOffset.toNat
  | some entryRva => entryRva.toNat

/-- The padded size of the headers. -/
def headersSizeOf (a : KpepackArgs) (payload : List UInt8) : ℕ :=
  alignUp (headersEnd (decide (0 < (relocPayloadOf a payload).length))) a.fileAlignment.toNat

/-- The size of the image: the payload behind its address, and the relocation stream, both padded to
the alignment of sections. -/
def imageSizeOf (a : KpepackArgs) (payload : List UInt8) : ℕ :=
  a.sectionRva.toNat + alignUp payload.length a.sectionAlignment.toNat +
    alignUp (relocPayloadOf a payload).length a.sectionAlignment.toNat

/-- A kernel image whose parameters fit together, and whose sizes fit 32 bits. -/
structure Packable (a : KpepackArgs) (payload : List UInt8) : Prop where
  kernel : a.imageKind = .kernel
  nonempty : 0 < payload.length
  entry : a.sectionRva.toNat ≤ entryRvaOf a ∧
    entryRvaOf a < a.sectionRva.toNat + payload.length
  fileAlignment : ∃ n, a.fileAlignment.toNat = 2 ^ n
  sectionAlignment : ∃ n, a.sectionAlignment.toNat = 2 ^ n
  divides : a.fileAlignment.toNat ∣ a.sectionAlignment.toNat
  sectionRva : a.sectionAlignment.toNat ∣ a.sectionRva.toNat
  headers : headersSizeOf a payload ≤ a.sectionRva.toNat
  fileSize : headersSizeOf a payload + alignUp payload.length a.fileAlignment.toNat < 2 ^ 32
  imageSize : imageSizeOf a payload < 2 ^ 32
  imageBase : a.imageBase.toNat + imageSizeOf a payload < 2 ^ 63

/-- The values of the layout. -/
structure LayoutOf (a : KpepackArgs) (payload : List UInt8) (l : KpeLayout) : Prop where
  payloadSize : l.payloadSize.toNat = payload.length
  rawSize : l.rawSize.toNat = alignUp payload.length a.fileAlignment.toNat
  entry : l.effectiveEntryRva.toNat = entryRvaOf a
  relocPayload : l.relocPayload = relocPayloadOf a payload
  relocPayloadSize : l.relocPayloadSize.toNat = (relocPayloadOf a payload).length
  sizeOfHeaders : l.sizeOfHeaders.toNat = headersSizeOf a payload
  relocSectionVA : l.relocSectionVA.toNat =
    a.sectionRva.toNat + alignUp payload.length a.sectionAlignment.toNat
  relocRawSize : l.relocRawSize.toNat =
    alignUp (relocPayloadOf a payload).length a.fileAlignment.toNat
  relocPointerToRaw : l.relocPointerToRaw.toNat = l.sizeOfHeaders.toNat + l.rawSize.toNat
  sizeOfImage : l.sizeOfImage.toNat = imageSizeOf a payload

theorem toUInt32_eq {n : ℕ} (h : n < 2 ^ 32) : ∃ v, toUInt32 n = some v ∧ v.toNat = n :=
  ⟨BitVec.ofNat 32 n, if_pos h, by rw [BitVec.toNat_ofNat, Nat.mod_eq_of_lt h]⟩

section Layout

variable {a : KpepackArgs} {payload : List UInt8}

theorem Packable.fileAlignment_pos (h : Packable a payload) : 0 < a.fileAlignment.toNat := by
  obtain ⟨n, hn⟩ := h.fileAlignment
  rw [hn]
  exact Nat.two_pow_pos n

theorem Packable.sectionAlignment_pos (h : Packable a payload) : 0 < a.sectionAlignment.toNat := by
  obtain ⟨n, hn⟩ := h.sectionAlignment
  rw [hn]
  exact Nat.two_pow_pos n

theorem effectiveEntryRva_eq (h : entryRvaOf a < 2 ^ 32) :
    ∃ v, effectiveEntryRva a = some v ∧ v.toNat = entryRvaOf a := by
  rw [effectiveEntryRva]
  rw [entryRvaOf] at h ⊢
  cases hentry : a.entryRva with
  | none =>
    rw [hentry] at h
    exact toUInt32_eq h
  | some entryRva => exact ⟨entryRva, rfl, rfl⟩

/-- The script computes its layout without a throw. -/
theorem Packable.layout (h : Packable a payload) :
    ∃ l, kpeLayout a payload = some l ∧ LayoutOf a payload l := by
  have hfile := h.fileAlignment_pos
  have hsection := h.sectionAlignment_pos
  have hraw : payload.length ≤ alignUp payload.length a.sectionAlignment.toNat := le_alignUp hsection
  have hreloc : (relocPayloadOf a payload).length ≤
      alignUp (relocPayloadOf a payload).length a.sectionAlignment.toNat := le_alignUp hsection
  have hrelocRaw : alignUp (relocPayloadOf a payload).length a.fileAlignment.toNat ≤
      alignUp (relocPayloadOf a payload).length a.sectionAlignment.toNat :=
    alignUp_le_alignUp hsection h.divides
  have himage := h.imageSize
  have hsize := h.fileSize
  obtain ⟨hentry, hentry'⟩ := h.entry
  rw [imageSizeOf] at himage
  obtain ⟨payloadSize, hpayloadSize, hps⟩ := toUInt32_eq (n := payload.length) (by omega)
  obtain ⟨rawSize, hrawSize, hrs⟩ := toUInt32_eq
    (n := alignUp payload.length a.fileAlignment.toNat) (by omega)
  obtain ⟨entry, hentryRva, he⟩ := effectiveEntryRva_eq (a := a) (by omega)
  obtain ⟨sectionEnd, hsectionEnd, hse⟩ := toUInt32_eq
    (n := a.sectionRva.toNat + payload.length) (by omega)
  obtain ⟨relocPayloadSize, hrelocPayloadSize, hrps⟩ := toUInt32_eq
    (n := (relocPayloadOf a payload).length) (by omega)
  obtain ⟨sizeOfHeaders, hsizeOfHeaders, hsh⟩ := toUInt32_eq (n := headersSizeOf a payload)
    (by omega)
  obtain ⟨relocSectionVA, hrelocSectionVA, hrva⟩ := toUInt32_eq
    (n := a.sectionRva.toNat + alignUp payload.length a.sectionAlignment.toNat) (by omega)
  obtain ⟨relocRawSize, hrelocRawSize, hrr⟩ := toUInt32_eq
    (n := alignUp (relocPayloadOf a payload).length a.fileAlignment.toNat) (by omega)
  obtain ⟨relocPointerToRaw, hrelocPointer, hrp⟩ := toUInt32_eq hsize
  obtain ⟨sizeOfImage, hsizeOfImage, hsi⟩ := toUInt32_eq h.imageSize
  -- the positions are multiples of the alignments already
  have hpointer : alignUp (sizeOfHeaders.toNat + rawSize.toNat) a.fileAlignment.toNat =
      headersSizeOf a payload + alignUp payload.length a.fileAlignment.toNat := by
    rw [hsh, hrs]
    exact alignUp_of_dvd hfile (Nat.dvd_add (dvd_alignUp _ _ hfile) (dvd_alignUp _ _ hfile))
  have hva : alignUp (a.sectionRva.toNat + payload.length) a.sectionAlignment.toNat =
      a.sectionRva.toNat + alignUp payload.length a.sectionAlignment.toNat :=
    alignUp_add hsection h.sectionRva
  have himageSize : (if decide (0 < (relocPayloadOf a payload).length) = true then
      alignUp (relocSectionVA.toNat + (relocPayloadOf a payload).length) a.sectionAlignment.toNat
    else a.sectionRva.toNat + alignUp payload.length a.sectionAlignment.toNat) =
      imageSizeOf a payload := by
    rw [hrva, imageSizeOf]
    split
    · exact alignUp_add hsection (Nat.dvd_add h.sectionRva (dvd_alignUp _ _ hsection))
    next hnone =>
      rw [decide_eq_true_eq] at hnone
      rw [Nat.eq_zero_of_not_pos hnone, alignUp_of_dvd hsection (Nat.dvd_zero _), Nat.add_zero]
  refine ⟨⟨payloadSize, rawSize, entry, relocPayloadOf a payload, relocPayloadSize, sizeOfHeaders,
    relocSectionVA, relocRawSize, relocPointerToRaw, sizeOfImage⟩, ?_, ?_⟩
  · rw [headersSizeOf] at hsizeOfHeaders
    rw [kpeLayout]
    simp only [Option.bind_eq_bind, hpayloadSize, Option.bind_some, hps, hrawSize, hentryRva,
      hsectionEnd, hse, he, hrelocPayloadSize, hrps, hsizeOfHeaders, hva, hrelocSectionVA,
      hrelocRawSize, hpointer, hrelocPointer, himageSize, hsizeOfImage]
    rw [if_neg (by omega)]
    rfl
  · exact
      { payloadSize := hps
        rawSize := hrs
        entry := he
        relocPayload := rfl
        relocPayloadSize := hrps
        sizeOfHeaders := hsh
        relocSectionVA := hrva
        relocRawSize := hrr
        relocPointerToRaw := by rw [hrp, hsh, hrs]
        sizeOfImage := hsi }

end Layout

/-! ## The file -/

section File

variable {a : KpepackArgs} {timestamp : U32} {payload : List UInt8} {l : KpeLayout} {f : File}

theorem LayoutOf.hasRelocSection (ok : LayoutOf a payload l) :
    l.hasRelocSection = decide (0 < (relocPayloadOf a payload).length) := by
  rw [KpeLayout.hasRelocSection, ok.relocPayloadSize]

/-- What stands where in the file. -/
structure PackedFile (a : KpepackArgs) (timestamp : U32) (payload : List UInt8) (l : KpeLayout)
    (f : File) : Prop where
  headers : ∃ rest, f = Bytes.fields (headerFields a timestamp l) ++
    ((if l.hasRelocSection then Bytes.fields (relocFields l) else []) ++ rest)
  payload : ∀ i < payload.length, f.getD (l.sizeOfHeaders.toNat + i) 0 = payload.getD i 0
  reloc : l.hasRelocSection = true → ∀ i < l.relocPayload.length,
    f.getD (l.relocPointerToRaw.toNat + i) 0 = l.relocPayload.getD i 0
  length : f.length = l.sizeOfHeaders.toNat + l.rawSize.toNat +
    if l.hasRelocSection then l.relocRawSize.toNat else 0
  headersEnd_le : headersEnd l.hasRelocSection ≤ l.sizeOfHeaders.toNat

theorem length_headers : (Bytes.fields (headerFields a timestamp l) ++
    if l.hasRelocSection then Bytes.fields (relocFields l) else []).length =
      headersEnd l.hasRelocSection := by
  rw [List.length_append, Bytes.length_fields, width_headerFields]
  cases l.hasRelocSection
  · rfl
  · rw [if_pos rfl, Bytes.length_fields, width_relocFields]
    rfl

/-- Padding up to a position that is not behind the end. -/
theorem length_padTo {position : ℕ} (h : f.length ≤ position) :
    (padTo position f).length = position := by
  rw [padTo, List.length_append, List.length_replicate]
  omega

theorem padTo_of_length {position : ℕ} (h : f.length = position) : padTo position f = f := by
  rw [padTo, h, Nat.sub_self, List.replicate_zero, List.append_nil]

/-- The file that the script writes. -/
theorem packedFile_kpeFile (h : Packable a payload) (ok : LayoutOf a payload l) :
    PackedFile a timestamp payload l (kpeFile a timestamp payload l) := by
  have hheaders : headersEnd l.hasRelocSection ≤ l.sizeOfHeaders.toNat := by
    rw [ok.sizeOfHeaders, headersSizeOf, ok.hasRelocSection]
    exact le_alignUp h.fileAlignment_pos
  have hraw : payload.length ≤ l.rawSize.toNat := by
    rw [ok.rawSize]
    exact le_alignUp h.fileAlignment_pos
  have hreloc : l.relocPayload.length ≤ l.relocRawSize.toNat := by
    rw [ok.relocRawSize, ok.relocPayload]
    exact le_alignUp h.fileAlignment_pos
  have hpointer := ok.relocPointerToRaw
  -- the headers, and the payload behind them
  have hpadded : kpeHeaders a timestamp l = padTo l.sizeOfHeaders.toNat
      (Bytes.fields (headerFields a timestamp l) ++
        if l.hasRelocSection then Bytes.fields (relocFields l) else []) := by
    rw [kpeHeaders, fields_headerFields]
  have hlength : (kpeHeaders a timestamp l).length = l.sizeOfHeaders.toNat := by
    rw [hpadded, length_padTo (by rw [length_headers]; exact hheaders)]
  have htext : (padTo (l.sizeOfHeaders.toNat + l.rawSize.toNat)
      (kpeHeaders a timestamp l ++ payload)).length = l.sizeOfHeaders.toNat + l.rawSize.toNat :=
    length_padTo (by rw [List.length_append, hlength]; omega)
  obtain ⟨rest, hrest⟩ : ∃ rest, kpeFile a timestamp payload l =
      kpeHeaders a timestamp l ++ (payload ++ rest) := by
    rw [kpeFile]
    split
    · rw [padTo_of_length (htext.trans hpointer.symm), padTo, padTo]
      simp only [List.append_assoc]
      exact ⟨_, rfl⟩
    · rw [padTo, List.append_assoc]
      exact ⟨_, rfl⟩
  constructor
  · rw [hrest, hpadded, padTo]
    simp only [List.append_assoc]
    exact ⟨_, rfl⟩
  · intro i hi
    rw [hrest, List.getD_append_right _ _ _ _ (by omega), hlength, Nat.add_sub_cancel_left,
      List.getD_append _ _ _ _ hi]
  · intro hhas i hi
    rw [kpeFile, if_pos hhas, padTo_of_length (htext.trans hpointer.symm), padTo, List.append_assoc,
      List.getD_append_right _ _ _ _ (by omega), htext, hpointer, Nat.add_sub_cancel_left,
      List.getD_append _ _ _ _ hi]
  · rw [kpeFile]
    split
    · rw [padTo_of_length (htext.trans hpointer.symm), length_padTo, hpointer]
      rw [List.length_append, htext]
      omega
    · exact htext
  · exact hheaders

/-! ## What the loader accepts -/

/-- Rounding up to a power of two in the packer and in the loader. -/
theorem toNat_alignUp64 (value : U32) {alignment : U32} (h : ∃ n, alignment.toNat = 2 ^ n) :
    (alignUp64 (value.setWidth 64) (alignment.setWidth 64)).toNat =
      alignUp value.toNat alignment.toNat := by
  obtain ⟨n, hn⟩ := h
  have hpos := Nat.two_pow_pos n
  have hlt : n < 32 := by
    refine (Nat.pow_lt_pow_iff_right (by decide : 1 < 2)).1 ?_
    rw [← hn]
    exact alignment.isLt
  have hmask : alignment.setWidth 64 - 1 = lowMask 64 n := by
    refine BitVec.eq_of_toNat_eq ?_
    rw [BitVec.toNat_sub, toNat_setWidth_64, hn, lowMask, BitVec.toNat_ofNat]
    have hone : (1 : U64).toNat = 1 := rfl
    have hbound : 2 ^ n < 2 ^ 32 := by rw [← hn]; exact alignment.isLt
    rw [hone]
    omega
  have hne : alignment.setWidth 64 ≠ 0 := by
    intro hzero
    have hval := congrArg BitVec.toNat hzero
    rw [toNat_setWidth_64, hn] at hval
    exact absurd hval hpos.ne'
  have hsum : value.setWidth 64 + alignment.setWidth 64 - 1 =
      value.setWidth 64 + lowMask 64 n := by
    rw [← hmask, BitVec.sub_eq_add_neg, BitVec.sub_eq_add_neg, BitVec.add_assoc]
  have hvalue := value.isLt
  have hbound : 2 ^ n < 2 ^ 32 := by rw [← hn]; exact alignment.isLt
  rw [alignUp64, if_neg hne, hsum, hmask, toNat_add_and_not_lowMask _ (by omega), toNat_setWidth_64,
    alignUp, if_neg (by omega), hn, Nat.add_sub_assoc hpos]
  rw [toNat_setWidth_64]
  omega

/-- A section whose padded size lies in the image and whose raw data lies in the file. -/
theorem validateSection_eq {fileSize : ℕ} {nt : KpeNtHeaders64} {s : KpeSectionHeader}
    (hpow : ∃ n, nt.optionalHeader.sectionAlignment.toNat = 2 ^ n) (hsize : 0 < s.virtualSize.toNat)
    (himage : s.virtualAddress.toNat +
      alignUp s.virtualSize.toNat nt.optionalHeader.sectionAlignment.toNat ≤
        nt.optionalHeader.sizeOfImage.toNat)
    (hfile : s.pointerToRawData.toNat + s.sizeOfRawData.toNat ≤ fileSize) :
    validateSection fileSize nt s = true := by
  have hpos : 0 < nt.optionalHeader.sectionAlignment.toNat := by
    obtain ⟨n, hn⟩ := hpow
    rw [hn]
    exact Nat.two_pow_pos n
  have hle : s.virtualSize.toNat ≤ alignUp s.virtualSize.toNat
      nt.optionalHeader.sectionAlignment.toNat := le_alignUp hpos
  have hbound := nt.optionalHeader.sizeOfImage.isLt
  have hspan : (s.virtualAddress.setWidth 64 + alignUp64 (s.virtualSize.setWidth 64)
      (nt.optionalHeader.sectionAlignment.setWidth 64)).toNat = s.virtualAddress.toNat +
        alignUp s.virtualSize.toNat nt.optionalHeader.sectionAlignment.toNat := by
    rw [BitVec.toNat_add, toNat_setWidth_64, toNat_alignUp64 _ hpow]
    omega
  rw [validateSection, if_neg (by omega)]
  dsimp only
  rw [hspan, if_neg (by omega)]
  split
  · rfl
  · rw [fileRangeValid, if_neg (by omega), if_neg (by omega)]

/-- Where the sections lie in the image. -/
theorem LayoutOf.sections (ok : LayoutOf a payload l) (h : Packable a payload) :
    payload.length ≤ l.rawSize.toNat ∧ l.sizeOfHeaders.toNat ≤ a.sectionRva.toNat ∧
      a.sectionRva.toNat + l.rawSize.toNat ≤ l.relocSectionVA.toNat ∧
      l.relocPayload.length ≤ l.relocRawSize.toNat ∧
      l.relocSectionVA.toNat + l.relocRawSize.toNat ≤ l.sizeOfImage.toNat ∧
      a.sectionRva.toNat + alignUp l.payloadSize.toNat a.sectionAlignment.toNat ≤
        l.sizeOfImage.toNat ∧
      l.relocSectionVA.toNat + alignUp l.relocPayloadSize.toNat a.sectionAlignment.toNat ≤
        l.sizeOfImage.toNat := by
  have hfine : ∀ n, alignUp n a.fileAlignment.toNat ≤ alignUp n a.sectionAlignment.toNat := fun n =>
    alignUp_le_alignUp h.sectionAlignment_pos h.divides
  have htext := hfine payload.length
  have hreloc := hfine (relocPayloadOf a payload).length
  have himage := ok.sizeOfImage
  rw [imageSizeOf] at himage
  rw [ok.rawSize, ok.relocRawSize, ok.relocSectionVA, ok.payloadSize, ok.relocPayloadSize,
    ok.sizeOfHeaders, ok.relocPayload, himage]
  exact ⟨le_alignUp h.fileAlignment_pos, h.headers, by omega, le_alignUp h.fileAlignment_pos,
    by omega, by omega, by omega⟩

/-- The validator accepts the file. -/
theorem PackedFile.validate (hf : PackedFile a timestamp payload l f) (h : Packable a payload)
    (ok : LayoutOf a payload l) :
    validateKpeImage f = some (packedNtHeaders a l, packedSections a l) := by
  obtain ⟨rest, hrest⟩ := hf.headers
  obtain ⟨-, -, -, -, -, htext, hreloc⟩ := ok.sections h
  have hlength := hf.length
  have hend := hf.headersEnd_le
  have hfileSize : headersEnd l.hasRelocSection ≤ f.length := by omega
  have hmin : 432 ≤ headersEnd l.hasRelocSection := by cases l.hasRelocSection <;> decide
  have hlfanew : (0x80 : U32).toNat = 0x80 := rfl
  have hoffset : sectionTableOffset ⟨kpeDosMagic, 0x80⟩ (packedNtHeaders a l) = 392 := rfl
  have hcount : 392 + (packedNtHeaders a l).fileHeader.numberOfSections.toNat *
      sizeofSectionHeader = headersEnd l.hasRelocSection := by
    rw [packedNtHeaders]
    cases l.hasRelocSection <;> rfl
  have hsections : readSections f 392 (packedNtHeaders a l).fileHeader.numberOfSections.toNat =
      packedSections a l := by
    rw [packedSections, packedNtHeaders]
    cases hhas : l.hasRelocSection
    · exact congrArg (fun s => [s]) (readTextHeader_eq hrest)
    · rw [hhas, if_pos rfl] at hrest
      rw [if_pos rfl, ← readTextHeader_eq hrest, ← readRelocHeader_eq hrest]
      rfl
  have hsize : l.payloadSize.toNat = payload.length := ok.payloadSize
  have hnonempty := h.nonempty
  have hentry := h.entry
  have hentryRva := ok.entry
  have hpadded : l.payloadSize.toNat ≤ alignUp l.payloadSize.toNat a.sectionAlignment.toNat :=
    le_alignUp h.sectionAlignment_pos
  have hall : (packedSections a l).all (validateSection f.length (packedNtHeaders a l)) = true := by
    rw [List.all_eq_true, packedSections]
    intro s hs
    rcases List.mem_cons.1 hs with rfl | hs
    · refine validateSection_eq h.sectionAlignment ?_ htext ?_
      · show 0 < l.payloadSize.toNat
        omega
      · show l.sizeOfHeaders.toNat + l.rawSize.toNat ≤ f.length
        omega
    · cases hhas : l.hasRelocSection with
      | false =>
        rw [hhas] at hs
        cases hs
      | true =>
        rw [hhas, if_pos rfl, List.mem_singleton] at hs
        subst hs
        rw [hhas, if_pos rfl] at hlength
        refine validateSection_eq h.sectionAlignment (of_decide_eq_true hhas) hreloc ?_
        show l.relocPointerToRaw.toNat + l.relocRawSize.toNat ≤ f.length
        rw [ok.relocPointerToRaw]
        omega
  have hkind : (packedNtHeaders a l).optionalHeader.subsystem = kpeSubsystemNativeKernel := by
    rw [packedNtHeaders, h.kernel]
    rfl
  have halignments : ¬((packedNtHeaders a l).optionalHeader.sectionAlignment = 0 ∨
      (packedNtHeaders a l).optionalHeader.fileAlignment = 0) := by
    rintro (hzero | hzero)
    · exact h.sectionAlignment_pos.ne' (congrArg BitVec.toNat hzero)
    · exact h.fileAlignment_pos.ne' (congrArg BitVec.toNat hzero)
  have hcountPos : (packedNtHeaders a l).fileHeader.numberOfSections ≠ 0 := by
    show (if l.hasRelocSection then 2 else 1 : U16) ≠ 0
    cases l.hasRelocSection <;> decide
  have hentryInside : ¬(packedNtHeaders a l).optionalHeader.sizeOfImage.toNat ≤
      (packedNtHeaders a l).optionalHeader.addressOfEntryPoint.toNat := by
    show ¬l.sizeOfImage.toNat ≤ l.effectiveEntryRva.toNat
    omega
  have hntHeaders : sizeofNtHeaders = 264 := rfl
  have hsignature : (packedNtHeaders a l).signature = kpeSignature := rfl
  have hmachine : (packedNtHeaders a l).fileHeader.machine = kpeMachineAur64 := rfl
  have hmagic : (packedNtHeaders a l).optionalHeader.magic = kpeOptMagicAur64 := rfl
  have hoptional : ¬(packedNtHeaders a l).fileHeader.sizeOfOptionalHeader.toNat <
      sizeofOptionalHeader := Nat.lt_irrefl 240
  have hrvas : ¬kpeNumberOfDirectoryEntries <
      (packedNtHeaders a l).optionalHeader.numberOfRvaAndSizes.toNat := Nat.lt_irrefl 16
  rw [validateKpeImage, if_neg (by rw [sizeofDosHeader]; omega), readDosHeader_eq hrest]
  dsimp only
  rw [if_neg (not_not.2 rfl), hlfanew, if_neg (by omega), readNtHeaders_eq hrest, hoffset, hsections,
    hall]
  rw [if_neg (not_not.2 hsignature), if_neg (not_not.2 hmachine), if_neg hcountPos,
    if_neg hoptional, if_neg (not_not.2 hmagic), if_neg (not_not.2 hkind), if_neg halignments,
    if_neg hentryInside, if_neg hrvas, if_neg (by omega), if_pos rfl]

/-! ## What the loader makes of it -/

/-- The image after the copies of the loader. -/
def copiedImage (a : KpepackArgs) (l : KpeLayout) (f : File) : Image :=
  (loadOps f (packedNtHeaders a l) (packedSections a l)).foldl (LoadOp.apply f) .zero

/-- The raw data of a section in the image. -/
theorem holds_sectionOps {s : KpeSectionHeader} {bytes : List UInt8} (img : Image)
    (hsize : bytes.length ≤ s.sizeOfRawData.toNat)
    (hbytes : ∀ i < bytes.length, f.getD (s.pointerToRawData.toNat + i) 0 = bytes.getD i 0) :
    Holds ((sectionOps s).foldl (LoadOp.apply f) img) s.virtualAddress.toNat bytes := by
  intro i hi
  rw [foldl_sectionOps, if_pos (by omega), Nat.add_sub_cancel_left, hbytes i hi]

/-- The copies put the payload and the stream where the headers say. -/
theorem PackedFile.copied (hf : PackedFile a timestamp payload l f) (h : Packable a payload)
    (ok : LayoutOf a payload l) :
    Holds (copiedImage a l f) a.sectionRva.toNat payload ∧
      (l.hasRelocSection = true →
        Holds (copiedImage a l f) l.relocSectionVA.toNat l.relocPayload) := by
  obtain ⟨hraw, -, htext, hrelocRaw, -, -, -⟩ := ok.sections h
  rw [copiedImage, loadOps, List.foldl_append, packedSections]
  generalize (headerOps f (packedNtHeaders a l)).foldl (LoadOp.apply f) .zero = img
  have hpayload := holds_sectionOps (s := textHeader a l) img hraw hf.payload
  cases hhas : l.hasRelocSection with
  | false =>
    refine ⟨?_, fun hfalse => absurd hfalse Bool.false_ne_true⟩
    rw [if_neg Bool.false_ne_true, List.flatMap_cons, List.flatMap_nil, List.append_nil]
    exact hpayload
  | true =>
    rw [if_pos rfl, List.flatMap_cons, List.flatMap_cons, List.flatMap_nil, List.append_nil,
      List.foldl_append]
    refine ⟨fun i hi => ?_, fun _ => ?_⟩
    · have hva : (relocHeader l).virtualAddress = l.relocSectionVA := rfl
      rw [foldl_sectionOps, hva, if_neg (by omega), if_neg (by omega)]
      exact hpayload i hi
    · exact holds_sectionOps (s := relocHeader l) _ hrelocRaw (hf.reloc hhas)

/-- The sites that the stream lists. -/
def packedSites (a : KpepackArgs) (payload : List UInt8) : List ℕ :=
  ((packedBlocks payload a.sectionRva a.imageBase).map PackedBlock.read).flatMap RelocBlock.sites

/-- The loader relocates the image at the sites. -/
theorem applyKpeBaseRelocations_eq (h : Packable a payload) (ok : LayoutOf a payload l)
    (hreloc : relocPayloadOf a payload ≠ []) {b : U64} (hb : b ≠ a.imageBase) {img : Image}
    (himg : Holds img l.relocSectionVA.toNat l.relocPayload) :
    applyKpeBaseRelocations b (packedNtHeaders a l) img =
      .ok ((packedSites a payload).foldl (Image.rebase (b - a.imageBase)) img) := by
  obtain ⟨hraw, -, htext, hrelocRaw, himage, -, -⟩ := ok.sections h
  have hrelocSize : l.relocPayloadSize.toNat = l.relocPayload.length := by
    rw [ok.relocPayloadSize, ok.relocPayload]
  have hlength : 0 < (relocPayloadOf a payload).length := List.length_pos_iff.2 hreloc
  have hhas : l.hasRelocSection = true := by
    rw [ok.hasRelocSection]
    exact decide_eq_true hlength
  have hstream : relocPayloadOf a payload = getAutoRelocBytes payload a.sectionRva a.imageBase := by
    rw [relocPayloadOf] at hreloc ⊢
    split
    next hdisabled => exact absurd (if_pos hdisabled) hreloc
    · rfl
  have hwidth : Bytes.width ((packedBlocks payload a.sectionRva a.imageBase).flatMap
      PackedBlock.fields) = l.relocPayloadSize.toNat := by
    rw [ok.relocPayloadSize, hstream, getAutoRelocBytes, Bytes.length_fields]
  have hblocks : Blocks img (l.relocSectionVA.toNat + l.relocPayloadSize.toNat)
      l.relocSectionVA.toNat
      ((packedBlocks payload a.sectionRva a.imageBase).map PackedBlock.read) := by
    rw [← hwidth]
    refine Holds.blocks _ (fun p hp => sized_packedBlocks ?_ hp) ?_
    · rw [← hstream, ← ok.relocPayloadSize]
      exact l.relocPayloadSize.isLt
    · rw [ok.relocPayload, hstream, getAutoRelocBytes] at himg
      exact himg
  have hsites : ∀ p ∈ (packedBlocks payload a.sectionRva a.imageBase).map PackedBlock.read,
      ∀ site ∈ p.sites, site + 8 ≤ l.relocSectionVA.toNat ∨
        l.relocSectionVA.toNat + l.relocPayloadSize.toNat ≤ site := by
    intro p hp site hsite
    have hmem := (nodup_packedSites (by omega)).2 site |>.1 (List.mem_flatMap.2 ⟨p, hp, hsite⟩)
    have hinside := (candidateRvas_inside hmem).2.1
    omega
  have hpatches : ∀ p ∈ (packedBlocks payload a.sectionRva a.imageBase).map PackedBlock.read,
      Patches l.sizeOfImage p := by
    intro p hp
    obtain ⟨block, hblock, rfl⟩ := List.mem_map.1 hp
    exact patches_packedBlocks (by omega) hblock
  have hdir : (packedNtHeaders a l).optionalHeader.dataDirectory kpeDirBaseReloc =
      ⟨l.relocSectionVA, l.relocPayloadSize⟩ := by
    rw [packedNtHeaders]
    dsimp only
    rw [hhas]
    rfl
  have hbase : (packedNtHeaders a l).optionalHeader.imageBase = a.imageBase := rfl
  have hdelta : b - a.imageBase ≠ 0 := fun hzero => hb (by bv_omega)
  -- the stream has a block
  have height : 8 ≤ l.relocPayloadSize.toNat := by
    cases hbs : packedBlocks payload a.sectionRva a.imageBase with
    | nil =>
      rw [hbs] at hwidth
      have hzero : Bytes.width (List.flatMap PackedBlock.fields []) = 0 := rfl
      have hsize := ok.relocPayloadSize
      omega
    | cons first bs =>
      rw [hbs, List.flatMap_cons, Bytes.width_append, first.width_fields] at hwidth
      omega
  have hva : l.relocSectionVA ≠ 0 := by
    intro hzero
    have hnonempty := h.nonempty
    have hval : l.relocSectionVA.toNat = 0 := congrArg BitVec.toNat hzero
    omega
  rw [applyKpeBaseRelocations, hdir, hbase, if_neg hdelta, if_neg (not_or.2 ⟨hva, Nat.not_lt.2 height⟩), if_neg]
  · exact relocBlocks_of_blocks (fun _ => rfl) hblocks hpatches hsites le_rfl (fun _ _ _ => rfl)
      (by rw [Nat.add_sub_cancel_left])
  · show ¬l.sizeOfImage.toNat < l.relocSectionVA.toNat + l.relocPayloadSize.toNat
    omega

/-- The image holds the payload with a delta added to the words at some offsets. -/
structure HoldsRelocated (img : Image) (start : ℕ) (payload : List UInt8) (offsets : List ℕ)
    (delta : U64) : Prop where
  words : ∀ offset ∈ offsets, img.read64 (start + offset) = read64 payload offset + delta
  rest : ∀ i < payload.length, (∀ offset ∈ offsets, ¬(offset ≤ i ∧ i < offset + 8)) →
    img (start + i) = payload.getD i 0

/-- What the patches make of the payload. -/
theorem holdsRelocated_foldl (h : Packable a payload) {delta : U64} {img : Image}
    (himg : Holds img a.sectionRva.toNat payload) :
    HoldsRelocated ((packedSites a payload).foldl (Image.rebase delta) img) a.sectionRva.toNat
      payload (candidateOffsets payload a.sectionRva a.imageBase) delta := by
  have hfits : a.sectionRva.toNat + payload.length ≤ 2 ^ 32 := by
    have himage := h.imageSize
    have hpadded : payload.length ≤ alignUp payload.length a.sectionAlignment.toNat :=
      le_alignUp h.sectionAlignment_pos
    rw [imageSizeOf] at himage
    omega
  obtain ⟨hnodup, hmem⟩ : (packedSites a payload).Nodup ∧
      ∀ site, site ∈ packedSites a payload ↔
        site ∈ candidateRvas payload a.sectionRva a.imageBase := nodup_packedSites hfits
  constructor
  · intro offset hoffset
    have hsite : a.sectionRva.toNat + offset ∈ packedSites a payload :=
      (hmem _).2 (List.mem_map_of_mem hoffset)
    have hread : img.read64 (a.sectionRva.toNat + offset) = read64 payload offset :=
      congrArg (BitVec.ofNat 64) (himg.read (mem_candidateOffsets.1 hoffset).2.1)
    rw [foldl_rebase_site hnodup (fun s hs t ht => candidateRvas_apart ((hmem s).1 hs)
      ((hmem t).1 ht)) hsite, hread]
  · intro i hi hapart
    rw [← himg i hi]
    refine foldl_rebase_apply _ _ fun site hsite hmeets => ?_
    obtain ⟨offset, hoffset, rfl⟩ := List.mem_map.1 ((hmem site).1 hsite)
    exact hapart offset hoffset (by omega)

/-- The loader on a file that is validated. -/
theorem loadKpeImage_eq {nt : KpeNtHeaders64} {sections : List KpeSectionHeader}
    {preferred : Except U64 Unit} {anywhere : Except U64 U64} {base : U64} {img : Image}
    (hvalid : validateKpeImage f = some (nt, sections))
    (hbase : allocateImage nt preferred anywhere = .ok base)
    (happly : applyKpeBaseRelocations base nt
      ((loadOps f nt sections).foldl (LoadOp.apply f) .zero) = .ok img) :
    ∃ loaded, loadKpeImage f preferred anywhere = .ok loaded ∧ loaded.imageBase = base ∧
      loaded.bytes = img := by
  rw [loadKpeImage, hvalid]
  dsimp only
  rw [hbase]
  dsimp only
  rw [happly]
  exact ⟨_, rfl, rfl, rfl⟩

/-- The loader accepts what the script writes for a kernel image. Loaded at its base the image holds
the payload; loaded elsewhere it does too, where the script wrote relocations, but for the words that
it selected, to each of which the distance is added once. -/
theorem packer_loader_agree (h : Packable a payload) (timestamp : U32) :
    ∃ f, kpepack a timestamp payload = some f ∧ (validateKpeImage f).isSome = true ∧
      (∀ anywhere, ∃ loaded, loadKpeImage f (.ok ()) anywhere = .ok loaded ∧
        loaded.imageBase = a.imageBase ∧ Holds loaded.bytes a.sectionRva.toNat payload) ∧
      ∀ status b, b ≠ a.imageBase → relocPayloadOf a payload ≠ [] →
        ∃ loaded, loadKpeImage f (.error status) (.ok b) = .ok loaded ∧ loaded.imageBase = b ∧
          HoldsRelocated loaded.bytes a.sectionRva.toNat payload
            (candidateOffsets payload a.sectionRva a.imageBase) (b - a.imageBase) := by
  obtain ⟨l, hlayout, ok⟩ := h.layout
  have hf : PackedFile a timestamp payload l (kpeFile a timestamp payload l) :=
    packedFile_kpeFile h ok
  have hvalid := hf.validate h ok
  obtain ⟨hpayload, hreloc⟩ := hf.copied h ok
  refine ⟨kpeFile a timestamp payload l, by rw [kpepack, hlayout]; rfl, by rw [hvalid]; rfl,
    fun anywhere => ?_, fun status b hb hne => ?_⟩
  · have hpreferred : allocateImage (packedNtHeaders a l) (.ok ()) anywhere = .ok a.imageBase := rfl
    obtain ⟨loaded, hloaded, hbase, hbytes⟩ :=
      loadKpeImage_eq hvalid hpreferred (if_pos (BitVec.sub_self _))
    refine ⟨loaded, hloaded, hbase, ?_⟩
    rw [hbytes]
    exact hpayload
  · have hhas : l.hasRelocSection = true := by
      rw [ok.hasRelocSection]
      exact decide_eq_true (List.length_pos_iff.2 hne)
    have hdynamic : allocateImage (packedNtHeaders a l) (.error status) (.ok b) = .ok b :=
      if_neg (show ¬(0x0140 : U16) &&& kpeDllcharDynamicBase = 0 by decide)
    obtain ⟨loaded, hloaded, hbase, hbytes⟩ := loadKpeImage_eq hvalid hdynamic
      (applyKpeBaseRelocations_eq h ok hne hb (hreloc hhas))
    refine ⟨loaded, hloaded, hbase, ?_⟩
    rw [hbytes]
    exact holdsRelocated_foldl h hpayload

end File

/-- Two words, the first of which is the address of the payload in the image. -/
def smallPayload : List UInt8 := Bytes.ofNat 8 0x1000 ++ Bytes.ofNat 8 0

/-- The payload packed with the defaults, and loaded 2 MiB above its base. -/
theorem packer_loader_agree_small :
    ∃ f loaded, kpepack {} 0 smallPayload = some f ∧
      loadKpeImage f (.error 0) (.ok 0x400000) = .ok loaded ∧
        HoldsRelocated loaded.bytes 0x1000 smallPayload [0] 0x200000 := by
  have hpackable : Packable {} smallPayload :=
    { kernel := rfl
      nonempty := by decide
      entry := by decide
      fileAlignment := ⟨9, rfl⟩
      sectionAlignment := ⟨12, rfl⟩
      divides := by decide
      sectionRva := by decide
      headers := by decide +kernel
      fileSize := by decide +kernel
      imageSize := by decide +kernel
      imageBase := by decide +kernel }
  obtain ⟨f, hf, -, -, hmoved⟩ := packer_loader_agree hpackable 0
  obtain ⟨loaded, hloaded, -, hholds⟩ := hmoved 0 0x400000 (by decide) (by decide +kernel)
  have hoffsets : candidateOffsets smallPayload 0x1000 0x200000 = [0] := by decide +kernel
  refine ⟨f, loaded, hf, hloaded, ?_⟩
  rw [← hoffsets]
  exact hholds

end NtxKernel.Tools
