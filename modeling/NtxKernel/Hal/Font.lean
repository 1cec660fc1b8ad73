import Mathlib.Data.Fintype.Basic
import NtxKernel.Basic

/-!
# The font of the console

The 5×7 glyphs of `hal/aur64/hal_aur64.c`, and the 8×16 font that `HalpBuildFont8x16` makes of them.

* `glyphDot` says which dots of a cell of 8×16 a character has: every row of its glyph twice, below
  one empty row, and every column once, right of two empty columns.
* `fontDot_built`: these are the dots of the font.
-/

namespace NtxKernel.Hal

/-- The glyphs of the digits. -/
def glyphDigits : List (List UInt8) :=
  [
    [0x0E, 0x11, 0x13, 0x15, 0x19, 0x11, 0x0E],
    [0x04, 0x0C, 0x04, 0x04, 0x04, 0x04, 0x0E],
    [0x0E, 0x11, 0x01, 0x02, 0x04, 0x08, 0x1F],
    [0x1E, 0x01, 0x01, 0x06, 0x01, 0x01, 0x1E],
    [0x02, 0x06, 0x0A, 0x12, 0x1F, 0x02, 0x02],
    [0x1F, 0x10, 0x1E, 0x01, 0x01, 0x11, 0x0E],
    [0x06, 0x08, 0x10, 0x1E, 0x11, 0x11, 0x0E],
    [0x1F, 0x01, 0x02, 0x04, 0x08, 0x08, 0x08],
    [0x0E, 0x11, 0x11, 0x0E, 0x11, 0x11, 0x0E],
    [0x0E, 0x11, 0x11, 0x0F, 0x01, 0x02, 0x0C]]

/-- The glyphs of the `switch`, under the codes of their characters. -/
def glyphCases : List (UInt8 × List UInt8) :=
  [
    (65, [0x0E, 0x11, 0x11, 0x1F, 0x11, 0x11, 0x11]),
    (66, [0x1E, 0x11, 0x11, 0x1E, 0x11, 0x11, 0x1E]),
    (67, [0x0E, 0x11, 0x10, 0x10, 0x10, 0x11, 0x0E]),
    (68, [0x1E, 0x11, 0x11, 0x11, 0x11, 0x11, 0x1E]),
    (69, [0x1F, 0x10, 0x10, 0x1E, 0x10, 0x10, 0x1F]),
    (70, [0x1F, 0x10, 0x10, 0x1E, 0x10, 0x10, 0x10]),
    (71, [0x0E, 0x11, 0x10, 0x17, 0x11, 0x11, 0x0F]),
    (72, [0x11, 0x11, 0x11, 0x1F, 0x11, 0x11, 0x11]),
    (73, [0x1F, 0x04, 0x04, 0x04, 0x04, 0x04, 0x1F]),
    (74, [0x07, 0x02, 0x02, 0x02, 0x12, 0x12, 0x0C]),
    (75, [0x11, 0x12, 0x14, 0x18, 0x14, 0x12, 0x11]),
    (76, [0x10, 0x10, 0x10, 0x10, 0x10, 0x10, 0x1F]),
    (77, [0x11, 0x1B, 0x15, 0x15, 0x11, 0x11, 0x11]),
    (78, [0x11, 0x19, 0x15, 0x13, 0x11, 0x11, 0x11]),
    (79, [0x0E, 0x11, 0x11, 0x11, 0x11, 0x11, 0x0E]),
    (80, [0x1E, 0x11, 0x11, 0x1E, 0x10, 0x10, 0x10]),
    (81, [0x0E, 0x11, 0x11, 0x11, 0x15, 0x12, 0x0D]),
    (82, [0x1E, 0x11, 0x11, 0x1E, 0x14, 0x12, 0x11]),
    (83, [0x0F, 0x10, 0x10, 0x0E, 0x01, 0x01, 0x1E]),
    (84, [0x1F, 0x04, 0x04, 0x04, 0x04, 0x04, 0x04]),
    (85, [0x11, 0x11, 0x11, 0x11, 0x11, 0x11, 0x0E]),
    (86, [0x11, 0x11, 0x11, 0x11, 0x11, 0x0A, 0x04]),
    (87, [0x11, 0x11, 0x11, 0x15, 0x15, 0x15, 0x0A]),
    (88, [0x11, 0x11, 0x0A, 0x04, 0x0A, 0x11, 0x11]),
    (89, [0x11, 0x11, 0x0A, 0x04, 0x04, 0x04, 0x04]),
    (90, [0x1F, 0x01, 0x02, 0x04, 0x08, 0x10, 0x1F]),
    (91, [0x0E, 0x08, 0x08, 0x08, 0x08, 0x08, 0x0E]),
    (93, [0x0E, 0x02, 0x02, 0x02, 0x02, 0x02, 0x0E]),
    (62, [0x10, 0x08, 0x04, 0x02, 0x04, 0x08, 0x10]),
    (60, [0x01, 0x02, 0x04, 0x08, 0x04, 0x02, 0x01]),
    (58, [0x00, 0x04, 0x04, 0x00, 0x04, 0x04, 0x00]),
    (59, [0x00, 0x04, 0x04, 0x00, 0x04, 0x04, 0x08]),
    (46, [0x00, 0x00, 0x00, 0x00, 0x00, 0x06, 0x06]),
    (44, [0x00, 0x00, 0x00, 0x00, 0x06, 0x06, 0x08]),
    (63, [0x0E, 0x11, 0x01, 0x02, 0x04, 0x00, 0x04]),
    (33, [0x04, 0x04, 0x04, 0x04, 0x04, 0x00, 0x04]),
    (61, [0x00, 0x1F, 0x00, 0x1F, 0x00, 0x00, 0x00]),
    (43, [0x00, 0x04, 0x04, 0x1F, 0x04, 0x04, 0x00]),
    (124, [0x04, 0x04, 0x04, 0x04, 0x04, 0x04, 0x04]),
    (95, [0x00, 0x00, 0x00, 0x00, 0x00, 0x00, 0x1F]),
    (45, [0x00, 0x00, 0x00, 0x1F, 0x00, 0x00, 0x00]),
    (47, [0x01, 0x02, 0x04, 0x08, 0x10, 0x00, 0x00]),
    (92, [0x10, 0x08, 0x04, 0x02, 0x01, 0x00, 0x00]),
    (39, [0x04, 0x04, 0x02, 0x00, 0x00, 0x00, 0x00]),
    (40, [0x02, 0x04, 0x08, 0x08, 0x08, 0x04, 0x02]),
    (41, [0x08, 0x04, 0x02, 0x02, 0x02, 0x04, 0x08])]

/-- `HalpGlyph5x7Row`. -/
def halpGlyph5x7Row (ch : UInt8) (row : ℕ) : UInt8 :=
  let ch := if 97 ≤ ch ∧ ch ≤ 122 then ch - 97 + 65 else ch
  if 48 ≤ ch ∧ ch ≤ 57 then (glyphDigits.getD (ch - 48).toNat []).getD row 0
  else if ch = 32 then 0x00
  else
    match glyphCases.lookup ch with
    | some rows => rows.getD row 0
    | none => 0x1F

/-- `gHalFont8x16`. -/
abbrev HalFont := ℕ → ℕ → UInt8

/-- `RowBits` of `HalpBuildFont8x16`. -/
def rowBits (ch row : ℕ) : UInt8 :=
  if 0 < row ∧ row < 15 then (halpGlyph5x7Row (UInt8.ofNat ch) ((row - 1) >>> 1) &&& 0x1F) <<< 1
  else 0

/-- The loops of `HalpBuildFont8x16`, which write every row of every character. -/
def halpBuildFont8x16 (font : HalFont) : HalFont :=
  fun ch row => if ch < 128 ∧ row < 16 then rowBits ch row else font ch row

/-- The test that `HalpFbPutChar` makes of the bits of a row. -/
def fontDot (font : HalFont) (ch : UInt8) (row col : ℕ) : Bool :=
  font ch.toNat row &&& UInt8.ofNat (1 <<< (7 - col)) != 0

/-! ## The dots of a character -/

/-- The dots of a character in a cell. -/
def glyphDot (ch : UInt8) (row col : ℕ) : Bool :=
  decide (1 ≤ row ∧ row ≤ 14 ∧ 2 ≤ col ∧ col ≤ 6) &&
    (halpGlyph5x7Row ch ((row - 1) / 2)).toNat.testBit (6 - col)

/-- A row of five dots lies two columns to the right in a row of eight. -/
theorem row_dots : ∀ (bits : Fin 256) (col : Fin 8),
    ((UInt8.ofNat bits &&& 0x1F) <<< 1 &&& UInt8.ofNat (1 <<< (7 - col.val)) != 0) =
      (decide (2 ≤ col.val ∧ col.val ≤ 6) && (UInt8.ofNat bits).toNat.testBit (6 - col.val)) := by
  decide +kernel

/-- The dots of the font are those of the glyphs. -/
theorem fontDot_built (font : HalFont) {ch : UInt8} {row col : ℕ} (hch : ch.toNat < 128)
    (hrow : row < 16) (hcol : col < 8) :
    fontDot (halpBuildFont8x16 font) ch row col = glyphDot ch row col := by
  have hsame : UInt8.ofNat ch.toNat = ch := UInt8.ofNat_toNat
  rw [fontDot, halpBuildFont8x16, if_pos ⟨hch, hrow⟩, rowBits, glyphDot, hsame,
    Nat.shiftRight_eq_div_pow, Nat.pow_one]
  by_cases hinner : 0 < row ∧ row < 15
  · rw [if_pos hinner]
    generalize halpGlyph5x7Row ch ((row - 1) / 2) = bits
    have htable := row_dots ⟨bits.toNat, bits.toNat_lt⟩ ⟨col, hcol⟩
    rw [show UInt8.ofNat bits.toNat = bits from UInt8.ofNat_toNat] at htable
    rw [htable]
    congr 1
    refine decide_eq_decide.2 ⟨fun h => ?_, fun h => h.2.2⟩
    exact ⟨hinner.1, by omega, h⟩
  · rw [if_neg hinner, decide_eq_false fun h => hinner ⟨h.1, by omega⟩, Bool.false_and, UInt8.zero_and,
      bne_self_eq_false]

/-- Beside the eight columns of the font there are no dots. -/
theorem glyphDot_of_le {ch : UInt8} {row col : ℕ} (hcol : 8 ≤ col) :
    glyphDot ch row col = false := by
  rw [glyphDot, decide_eq_false fun h => by omega, Bool.false_and]

end NtxKernel.Hal
