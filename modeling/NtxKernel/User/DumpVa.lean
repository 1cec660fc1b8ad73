import Mathlib.Tactic.IntervalCases
import NtxKernel.Mm.FaultTrace
import NtxKernel.User.Init

/-!
# The address of a debug command

The command `":mm.dumpva "` takes an address, which `KipParseHex64` reads. The dump of the recent
faults prints addresses by `MmpWriteHexLine`, and one of these is what a user types in again.

* `kipParseHex64` is the routine, with its loop `parseHexLoop`.
* `dumpvaAddress` is the address that `KipSysDebugPrint` looks up for a text.
* `dumpva_reads_back`: an address is looked up exactly when the first word behind the command,
  without `0x` in front, is not empty and made of digits, and it is the number that the digits write
  modulo `2 ^ 64`; and each value that the kernel printed is looked up when it is typed in again.
-/

namespace NtxKernel.User

open Foundations Ob Ke Mm

/-! ## The routine -/

/-- The value of a digit. -/
def hexNibble (ch : UInt8) : Option ℕ :=
  if 48 ≤ ch ∧ ch ≤ 57 then some (ch.toNat - 48)
  else if 97 ≤ ch ∧ ch ≤ 102 then some (10 + ch.toNat - 97)
  else if 65 ≤ ch ∧ ch ≤ 70 then some (10 + ch.toNat - 65)
  else none

/-- A character that ends a word. -/
def endsWord (ch : UInt8) : Bool := ch == 0 || ch == 32 || ch == 10 || ch == 13

/-- The loop of `KipParseHex64`: the value and the number of digits. -/
def parseHexLoop : CString → U64 → ℕ → Option (U64 × ℕ)
  | [], value, digits => some (value, digits)
  | ch :: text, value, digits =>
    if endsWord ch then some (value, digits)
    else
      match hexNibble ch with
      | none => none
      | some nibble => parseHexLoop text ((value <<< 4) ||| BitVec.ofNat 64 nibble) (digits + 1)

/-- A text without `0x` or `0X` in front. -/
def dropHexPrefix (text : CString) : CString :=
  if text[0]? = some 48 ∧ (text[1]? = some 120 ∨ text[1]? = some 88) then text.drop 2 else text

/-- `KipParseHex64`. -/
def kipParseHex64 (text : CString) : Option U64 :=
  match parseHexLoop (dropHexPrefix text) 0 0 with
  | none => none
  | some (value, digits) => if digits = 0 then none else some value

/-- The address that `KipSysDebugPrint` looks up: the command is the last one it compares with. -/
def dumpvaAddress (text : CString) : Option U64 :=
  if debugCommands.any (startsWithCommand text) || startsWithCommand text debugPanic ||
      kipStartsWith text debugMmFaults then none
  else if kipStartsWith text debugMmDumpva then kipParseHex64 (text.drop 11)
  else none

/-! ## Numbers and their digits -/

/-- The number that digits write, the first one the most significant. -/
def numberOf (b : ℕ) (n : ℕ) (digits : List ℕ) : ℕ := digits.foldl (fun n d => b * n + d) n

/-- The leading digits of a number write what is left without the others. -/
theorem numberOf_range (b : ℕ) {v count n : ℕ} (hn : n ≤ count)
    (hv : v < b ^ count) :
    numberOf b 0 ((List.range n).map fun i => v / b ^ (count - 1 - i) % b) =
      v / b ^ (count - n) := by
  induction n with
  | zero => exact (Nat.div_eq_of_lt hv).symm
  | succ n ih =>
    rw [List.range_succ, List.map_append, numberOf, List.foldl_append]
    have hrest := ih (Nat.le_of_succ_le hn)
    rw [numberOf] at hrest
    rw [hrest, List.map_singleton, List.foldl_cons, List.foldl_nil,
      show count - n = count - (n + 1) + 1 by omega, show count - 1 - n = count - (n + 1) by omega,
      pow_succ, ← Nat.div_div_eq_div_mul]
    exact Nat.div_add_mod _ _

/-! ## What is read -/

/-- The digits of a word. -/
def wordDigits (word : CString) : List ℕ := word.filterMap hexNibble

/-- A text reads as a value. -/
structure ReadsAs (text : CString) (value : U64) : Prop where
  nonempty : (dropHexPrefix text).takeWhile (!endsWord ·) ≠ []
  digits : ∀ ch ∈ (dropHexPrefix text).takeWhile (!endsWord ·), (hexNibble ch).isSome
  value_eq : value = BitVec.ofNat 64
    (numberOf 16 0 (wordDigits ((dropHexPrefix text).takeWhile (!endsWord ·))))

theorem hexNibble_lt {ch : UInt8} {nibble : ℕ} (h : hexNibble ch = some nibble) : nibble < 16 := by
  rw [hexNibble] at h
  split_ifs at h with h₁ h₂ h₃ <;> cases h
  · have hle := UInt8.le_iff_toNat_le.1 h₁.2
    have hlit : (57 : UInt8).toNat = 57 := rfl
    omega
  · have hle := UInt8.le_iff_toNat_le.1 h₂.2
    have hlit : (102 : UInt8).toNat = 102 := rfl
    omega
  · have hle := UInt8.le_iff_toNat_le.1 h₃.2
    have hlit : (70 : UInt8).toNat = 70 := rfl
    omega

/-- Taking in a digit. -/
theorem shift_or_nibble {n nibble : ℕ} (h : nibble < 16) :
    ((BitVec.ofNat 64 n <<< 4) ||| BitVec.ofNat 64 nibble : U64) =
      BitVec.ofNat 64 (16 * n + nibble) := by
  refine BitVec.eq_of_toNat_eq ?_
  have hshift : (n % 2 ^ 64) <<< 4 % 2 ^ 64 = (n % 2 ^ 60) <<< 4 := by
    rw [Nat.shiftLeft_eq, Nat.shiftLeft_eq]
    omega
  rw [BitVec.toNat_or, BitVec.toNat_shiftLeft, BitVec.toNat_ofNat, BitVec.toNat_ofNat,
    BitVec.toNat_ofNat, hshift, Nat.mod_eq_of_lt (show nibble < 2 ^ 64 by omega),
    ← Nat.shiftLeft_add_eq_or_of_lt (show nibble < 2 ^ 4 by omega), Nat.shiftLeft_eq]
  omega

/-- The loop reads the first word. -/
theorem parseHexLoop_eq (text : CString) (n digits : ℕ) :
    parseHexLoop text (BitVec.ofNat 64 n) digits =
      if (text.takeWhile (!endsWord ·)).all fun ch => (hexNibble ch).isSome then
        some (BitVec.ofNat 64 (numberOf 16 n (wordDigits (text.takeWhile (!endsWord ·)))),
          digits + (text.takeWhile (!endsWord ·)).length)
      else none := by
  induction text generalizing n digits with
  | nil => rfl
  | cons ch text ih =>
    rw [parseHexLoop]
    by_cases hend : endsWord ch = true
    · have hword : (ch :: text).takeWhile (!endsWord ·) = [] := by
        rw [List.takeWhile_cons_of_neg]
        rw [hend]
        decide
      rw [if_pos hend, hword]
      rfl
    · have hword : (ch :: text).takeWhile (!endsWord ·) = ch :: text.takeWhile (!endsWord ·) := by
        rw [List.takeWhile_cons_of_pos]
        rw [Bool.not_eq_true] at hend
        rw [hend]
        rfl
      rw [if_neg hend, hword]
      cases hnibble : hexNibble ch with
      | none =>
        rw [List.all_cons, hnibble]
        rfl
      | some nibble =>
        dsimp only
        rw [shift_or_nibble (hexNibble_lt hnibble), ih]
        have hdigits : wordDigits (ch :: text.takeWhile (!endsWord ·)) =
            nibble :: wordDigits (text.takeWhile (!endsWord ·)) := by
          rw [wordDigits, List.filterMap_cons_some hnibble]
          rfl
        rw [hdigits, List.all_cons, hnibble, Option.isSome_some, Bool.true_and, List.length_cons]
        have hcount : digits + 1 + (text.takeWhile (!endsWord ·)).length =
            digits + ((text.takeWhile (!endsWord ·)).length + 1) := by omega
        rw [hcount]
        rfl

theorem kipParseHex64_eq_some {text : CString} {value : U64} :
    kipParseHex64 text = some value ↔ ReadsAs text value := by
  have hloop := parseHexLoop_eq (dropHexPrefix text) 0 0
  rw [kipParseHex64]
  rw [show (0 : U64) = BitVec.ofNat 64 0 from rfl, hloop]
  generalize hword : (dropHexPrefix text).takeWhile (!endsWord ·) = word
  by_cases hall : word.all fun ch => (hexNibble ch).isSome
  · rw [if_pos hall]
    dsimp only
    rw [Nat.zero_add]
    constructor
    · intro h
      split_ifs at h with hempty
      cases h
      exact ⟨fun hnil => hempty (by rw [← hword, hnil]; rfl),
        by rw [hword]; exact List.all_eq_true.1 hall, by rw [hword]⟩
    · intro h
      have hne : word ≠ [] := hword ▸ h.nonempty
      have hvalue := h.value_eq
      rw [hword] at hvalue
      rw [if_neg fun hzero => hne (List.eq_nil_of_length_eq_zero hzero), hvalue]
  · rw [if_neg hall]
    exact iff_of_false (fun h => by cases h) fun h => hall (List.all_eq_true.2 (hword ▸ h.digits))

/-! ## What the kernel prints -/

/-- The digits that are printed. -/
theorem hexNibble_mmpHex64 (k : ℕ) (hk : k < 16) :
    hexNibble (UInt8.ofNat (if k < 10 then 48 + k else 55 + k)) = some k ∧
      endsWord (UInt8.ofNat (if k < 10 then 48 + k else 55 + k)) = false := by
  interval_cases k <;> decide

theorem wordDigits_mmpHex64 (value : U64) :
    wordDigits (mmpHex64 value) =
      (List.range 16).map fun i => value.toNat / 16 ^ (16 - 1 - i) % 16 := by
  rw [wordDigits, mmpHex64, List.filterMap_map]
  have hdigit : ∀ i, (hexNibble ∘ fun i =>
      let digit := (value >>> ((15 - i) * 4)).toNat % 16
      UInt8.ofNat (if digit < 10 then 48 + digit else 55 + digit)) i =
        some (value.toNat / 16 ^ (16 - 1 - i) % 16) := by
    intro i
    have hshift : (value >>> ((15 - i) * 4)).toNat = value.toNat / 16 ^ (16 - 1 - i) := by
      rw [BitVec.toNat_ushiftRight, Nat.shiftRight_eq_div_pow, Nat.mul_comm, pow_mul]
      rfl
    rw [← hshift]
    exact (hexNibble_mmpHex64 _ (Nat.mod_lt _ (by decide))).1
  rw [funext hdigit]
  rw [List.filterMap_eq_map']

theorem mem_mmpHex64 {value : U64} {ch : UInt8} (h : ch ∈ mmpHex64 value) :
    (hexNibble ch).isSome ∧ endsWord ch = false := by
  rw [mmpHex64] at h
  obtain ⟨i, -, rfl⟩ := List.mem_map.1 h
  have hdigit := hexNibble_mmpHex64 ((value >>> ((15 - i) * 4)).toNat % 16)
    (Nat.mod_lt _ (by decide))
  exact ⟨Option.isSome_iff_exists.2 ⟨_, hdigit.1⟩, hdigit.2⟩

/-- A line behind its prefix. -/
theorem drop_mmpWriteHexLine {pre : CString} (hpre : pre.length ≤ 77) (value : U64) :
    (mmpWriteHexLine pre value).drop pre.length = 48 :: 120 :: (mmpHex64 value ++ [10]) := by
  have hlength : (mmpHex64 value).length = 16 := by
    rw [mmpHex64, List.length_map, List.length_range]
  rw [mmpWriteHexLine, List.take_of_length_le (show pre.length ≤ 95 by omega), List.length_append,
    List.take_of_length_le (by rw [hlength]; simp; omega), List.append_assoc, List.append_assoc,
    List.drop_left]
  rfl

/-- What the kernel prints is read back. -/
theorem kipParseHex64_hexLine {pre : CString} (hpre : pre.length ≤ 77) (value : U64) :
    kipParseHex64 ((mmpWriteHexLine pre value).drop pre.length) = some value := by
  have hbehind : dropHexPrefix (48 :: 120 :: (mmpHex64 value ++ [10])) =
      mmpHex64 value ++ [10] := by
    rw [dropHexPrefix, if_pos ⟨rfl, Or.inl rfl⟩]
    rfl
  have hword : (mmpHex64 value ++ [10]).takeWhile (!endsWord ·) = mmpHex64 value := by
    rw [List.takeWhile_append_of_pos]
    · exact List.append_nil _
    · intro ch hch
      rw [(mem_mmpHex64 hch).2]
      rfl
  rw [drop_mmpWriteHexLine hpre, kipParseHex64_eq_some]
  refine ⟨?_, ?_, ?_⟩ <;> rw [hbehind, hword]
  · intro hnil
    have hlength := congrArg List.length hnil
    rw [mmpHex64, List.length_map, List.length_range] at hlength
    cases hlength
  · exact fun ch hch => (mem_mmpHex64 hch).1
  · rw [wordDigits_mmpHex64,
      numberOf_range 16 le_rfl (show value.toNat < 16 ^ 16 from value.isLt), Nat.sub_self,
      pow_zero, Nat.div_one, BitVec.ofNat_toNat, BitVec.setWidth_eq]

/-- No other command is taken for this one. -/
theorem dumpvaAddress_command (rest : CString) :
    dumpvaAddress (debugMmDumpva ++ rest) = kipParseHex64 rest := by
  simp [dumpvaAddress, debugMmDumpva, debugMmFaults, debugCommands, debugPanic, startsWithCommand,
    kipStartsWith, List.isPrefixOf]

theorem dumpvaAddress_eq_some {text : CString} {value : U64} :
    dumpvaAddress text = some value ↔
      ∃ rest, text = debugMmDumpva ++ rest ∧ ReadsAs rest value := by
  constructor
  · intro h
    have hstarts : kipStartsWith text debugMmDumpva = true := by
      rw [dumpvaAddress] at h
      split_ifs at h with hother hstarts
      exact hstarts
    obtain ⟨rest, rfl⟩ := List.isPrefixOf_iff_prefix.1 hstarts
    rw [dumpvaAddress_command] at h
    exact ⟨rest, rfl, kipParseHex64_eq_some.1 h⟩
  · rintro ⟨rest, rfl, h⟩
    rw [dumpvaAddress_command]
    exact kipParseHex64_eq_some.2 h

/-- An address is looked up exactly for the command with a word of digits behind it, as the number
that they write, and each value is looked up as the kernel printed it. -/
theorem dumpva_reads_back (value : U64) :
    (∀ text, dumpvaAddress text = some value ↔
      ∃ rest, text = debugMmDumpva ++ rest ∧ ReadsAs rest value) ∧
      ∀ pre : CString, pre.length ≤ 77 →
        dumpvaAddress (debugMmDumpva ++ (mmpWriteHexLine pre value).drop pre.length) =
          some value := by
  refine ⟨fun _ => dumpvaAddress_eq_some, fun pre hpre => ?_⟩
  rw [dumpvaAddress_command]
  exact kipParseHex64_hexLine hpre value

/-- More digits than a word has: the first one is lost. -/
example : kipParseHex64 (49 :: List.replicate 16 48) = some 0 := by decide

end NtxKernel.User
