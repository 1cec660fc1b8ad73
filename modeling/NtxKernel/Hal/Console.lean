import NtxKernel.Hal.Font
import NtxKernel.Hal.Framebuffer

/-!
# The framebuffer console

`HalpInitializeFramebuffer`, `HalpFbClear` and `HalpFbPutChar` of `hal/aur64/hal_aur64.c`, and the
terminal that they implement.

* `Terminal` is a grid of cells with a cursor. A character goes to the cell of the cursor; behind
  the last column the next line starts with the next character, and behind the last row the lines
  move up by one.
* `Shows`: the pixels show the cells, with the glyphs of the font, and the cursors agree.
* `shows_putChar` is the step of the refinement, and `console_is_terminal` the run from the
  initialization on.
-/

namespace NtxKernel.Hal

/-! ## The routines -/

/-- `BOOT_VIDEO_INFO`. -/
structure BootVideoInfo where
  frameBufferBase : U64
  width : U32
  height : U32
  pixelsPerScanLine : U32

/-- The globals of the console. -/
structure Console where
  mode : FbMode
  surface : Surface
  cursorX : U32
  cursorY : U32
  font : HalFont
  fontReady : Bool

/-- The globals at the start, which are all zero, with the memory of the framebuffer. -/
def Console.zero (fb : U32 → U32) : Console where
  mode := ⟨false, 0, 0, 0, 0, 0, 0, 0⟩
  surface := ⟨fb, []⟩
  cursorX := 0
  cursorY := 0
  font _ _ := 0
  fontReady := false

/-- `HalpBuildFont8x16`. -/
def Console.buildFont (c : Console) : Console :=
  if c.fontReady then c else { c with font := halpBuildFont8x16 c.font, fontReady := true }

/-- `HalpFbClear`. -/
def halpFbClear (c : Console) : Console :=
  if c.mode.ready = false then c
  else
    { c with
      surface := halpFbFill c.mode 0 0 c.mode.width c.mode.height c.mode.bg c.surface
      cursorX := 0
      cursorY := 0 }

/-- What `HalpInitializeFramebuffer` makes of the geometry. -/
def BootVideoInfo.mode (v : BootVideoInfo) (ready : Bool) : FbMode where
  ready := ready
  width := v.width
  height := v.height
  pitch := v.pixelsPerScanLine
  color := 0x00F2F6FF
  bg := 0x00060A10
  cols := v.width / BitVec.ofNat 32 halpConsoleCellW
  rows := v.height / BitVec.ofNat 32 halpConsoleCellH

/-- `HalpInitializeFramebuffer`, with the `Video` of the boot info where that is not null. -/
def halpInitializeFramebuffer (video : Option BootVideoInfo) (c : Console) : Console :=
  match video with
  | none => c
  | some v =>
    if v.frameBufferBase = 0 ∨ v.width = 0 ∨ v.height = 0 ∨ v.pixelsPerScanLine = 0 then c
    else if (v.mode c.mode.ready).cols = 0 ∨ (v.mode c.mode.ready).rows = 0 then
      { c with mode := v.mode false }
    else halpFbClear { c.buildFont with mode := v.mode true }

/-- The check that `HalpFbPutChar` makes when the cursor moved down. -/
def Console.scrollBehind (c : Console) : Console :=
  if c.mode.rows.toNat ≤ c.cursorY.toNat then
    { c with surface := halpFbScroll c.mode c.surface, cursorY := c.mode.rows - 1 }
  else c

/-- Fill the cell of the cursor with the background. -/
def Console.eraseCell (c : Console) : Console :=
  { c with
    surface := halpFbFill c.mode (c.cursorX * BitVec.ofNat 32 halpConsoleCellW)
      (c.cursorY * BitVec.ofNat 32 halpConsoleCellH) (BitVec.ofNat 32 halpConsoleCellW)
      (BitVec.ofNat 32 halpConsoleCellH) c.mode.bg c.surface }

/-- The loops of `HalpFbPutChar` that draw a character into the cell of the cursor. -/
def Console.drawChar (c : Console) (ch : UInt8) : Console :=
  { c with
    surface := (List.range 16).foldl (fun p row =>
      (List.range 8).foldl (fun p col =>
        if fontDot c.font ch row col then
          halpFbPutPixel c.mode
            (c.cursorX * BitVec.ofNat 32 halpConsoleCellW + BitVec.ofNat 32 col)
            (c.cursorY * BitVec.ofNat 32 halpConsoleCellH + BitVec.ofNat 32 row) c.mode.color p
        else p) p) c.surface }

/-- The part of `HalpFbPutChar` for `'\b'`. -/
def Console.backspace (c : Console) : Console :=
  if 0 < c.cursorX.toNat then Console.eraseCell { c with cursorX := c.cursorX - 1 }
  else if 0 < c.cursorY.toNat then
    Console.eraseCell { c with cursorX := c.mode.cols - 1, cursorY := c.cursorY - 1 }
  else c

/-- The part of `HalpFbPutChar` for characters that are drawn. -/
def Console.print (c : Console) (ch : UInt8) : Console :=
  let c := c.buildFont
  let c := if c.mode.cols.toNat ≤ c.cursorX.toNat then
      { c with cursorX := 0, cursorY := c.cursorY + 1 }
    else c
  let c := (c.scrollBehind.eraseCell).drawChar ch
  { c with cursorX := c.cursorX + 1 }

/-- What is drawn for a character: `'?'` for those that cannot be drawn. -/
def drawnChar (ch : UInt8) : UInt8 := if ch < 0x20 ∨ 0x7E < ch then 63 else ch

/-- `HalpFbPutChar`. -/
def halpFbPutChar (c : Console) (ch : UInt8) : Console :=
  if c.mode.ready = false then c
  else if ch = 13 then { c with cursorX := 0 }
  else if ch = 10 then
    Console.scrollBehind { c with cursorX := 0, cursorY := c.cursorY + 1 }
  else if ch = 8 then c.backspace
  else c.print (drawnChar ch)

/-! ## The terminal -/

/-- What is in each cell, by row and column. -/
abbrev Cells := ℕ → ℕ → Option UInt8

/-- Set a cell. -/
def Cells.set (cells : Cells) (row col : ℕ) (content : Option UInt8) : Cells :=
  fun row' col' => if row' = row ∧ col' = col then content else cells row' col'

/-- Move the cells up by one row, with a blank last row. -/
def Cells.up (rows : ℕ) (cells : Cells) : Cells :=
  fun row col => if row + 1 < rows then cells (row + 1) col else none

/-- A terminal of some rows and columns: its cells, and the cursor, which is behind the last column
when that was written to last. -/
structure Terminal where
  cells : Cells
  x : ℕ
  y : ℕ

namespace Terminal

/-- A blank screen. -/
def blank : Terminal := ⟨fun _ _ => none, 0, 0⟩

/-- Go to the next line, which moves the lines up when there is none. -/
def nextLine (rows : ℕ) (t : Terminal) : Terminal :=
  if t.y + 1 < rows then { t with x := 0, y := t.y + 1 }
  else { t with cells := t.cells.up rows, x := 0 }

/-- Set the cell of the cursor. -/
def setCell (t : Terminal) (content : Option UInt8) : Terminal :=
  { t with cells := t.cells.set t.y t.x content }

/-- Write a character to the terminal. -/
def put (rows cols : ℕ) (t : Terminal) (ch : UInt8) : Terminal :=
  if ch = 13 then { t with x := 0 }
  else if ch = 10 then t.nextLine rows
  else if ch = 8 then
    if 0 < t.x then setCell { t with x := t.x - 1 } none
    else if 0 < t.y then setCell { t with x := cols - 1, y := t.y - 1 } none
    else t
  else
    let t := if t.x = cols then t.nextLine rows else t
    let t := t.setCell (some (if 0x20 ≤ ch ∧ ch ≤ 0x7E then ch else 63))
    { t with x := t.x + 1 }

/-- The cursor is on the screen, or behind the last column. -/
def Inside (rows cols : ℕ) (t : Terminal) : Prop := t.x ≤ cols ∧ t.y < rows

end Terminal

/-! ## The pixels of the cells -/

/-- The color of a pixel of a cell. -/
def FbMode.shade (v : FbMode) (content : Option UInt8) (dy dx : ℕ) : U32 :=
  match content with
  | none => v.bg
  | some ch => if glyphDot ch dy dx then v.color else v.bg

/-- The cells of a screen, with blank ones below the last row. -/
def Cells.shown (rows : ℕ) (cells : Cells) : Cells :=
  fun row col => if row < rows then cells row col else none

theorem Cells.shown_set {cells : Cells} {rows row : ℕ} (h : row < rows) (col : ℕ)
    (content : Option UInt8) :
    (cells.set row col content).shown rows = (cells.shown rows).set row col content := by
  funext row' col'
  rw [shown, set, set, shown]
  by_cases hin : row' = row ∧ col' = col
  · rw [if_pos hin, if_pos hin, if_pos (hin.1 ▸ h)]
  · rw [if_neg hin, if_neg hin]

theorem Cells.shown_up (cells : Cells) (rows row col : ℕ) :
    (cells.up rows).shown rows row col = cells.shown rows (row + 1) col := by
  rw [shown, up, shown]
  split
  · rfl
  · rw [if_neg (by omega)]

/-- The pixels of the columns of cells show the contents, down to the end of the screen. -/
def Surface.Draws (p : Surface) (v : FbMode) (cells : Cells) : Prop :=
  ∀ x y, x < v.cols.toNat * 9 → y < v.height.toNat →
    p.pixel v x y = v.shade (cells (y / 16) (x / 9))
      (y % 16) (x % 9)

/-- The screen is one of cells, and taller than one of them. -/
structure FbMode.Grid (v : FbMode) : Prop extends v.Fits where
  cols_eq : v.cols.toNat = v.width.toNat / 9
  rows_eq : v.rows.toNat = v.height.toNat / 16
  cols_pos : 0 < v.cols.toNat
  rows_pos : 0 < v.rows.toNat
  cell_lt : 16 < v.height.toNat

variable {v : FbMode} {p : Surface} {cells : Cells} {cx cy : ℕ}

namespace FbMode.Grid

/-- The cells lie on the screen. -/
theorem mul_cols_le (h : v.Grid) : v.cols.toNat * 9 ≤ v.width.toNat := by
  rw [h.cols_eq]
  exact Nat.div_mul_le_self _ _

theorem mul_rows_le (h : v.Grid) : v.rows.toNat * 16 ≤ v.height.toNat := by
  rw [h.rows_eq]
  exact Nat.div_mul_le_self _ _

end FbMode.Grid

/-- Filling a cell makes it blank. -/
theorem draws_fillCell (h : v.Grid) (hdraws : p.Draws v cells) (hcx : cx < v.cols.toNat)
    (hcy : cy < v.rows.toNat) :
    (halpFbFill v (BitVec.ofNat 32 (cx * 9)) (BitVec.ofNat 32 (cy * 16)) 9 16 v.bg p).Draws v
        (cells.set cy cx none) := by
  have hwidth : (9 : U32).toNat = 9 := rfl
  have hheight : (16 : U32).toNat = 16 := rfl
  have hcols : v.cols.toNat * 9 ≤ v.width.toNat := h.mul_cols_le
  have hrows : v.rows.toNat * 16 ≤ v.height.toNat := h.mul_rows_le
  intro x y hx hy
  rw [pixel_fill h.toFits (by omega) (by omega) (by omega) hy, hwidth, hheight, hdraws x y hx hy,
    Cells.set]
  have hcell : ((cx * 9 ≤ x ∧ x < cx * 9 + 9) ∧
      cy * 16 ≤ y ∧ y < cy * 16 + 16) ↔
        y / 16 = cy ∧ x / 9 = cx := by
    omega
  by_cases hin : y / 16 = cy ∧ x / 9 = cx
  · rw [if_pos (hcell.2 hin), if_pos hin]
    rfl
  · rw [if_neg fun hrect => hin (hcell.1 hrect), if_neg hin]

/-- The places of the dots of a character. -/
def charDots (font : HalFont) (ch : UInt8) (cx cy : ℕ) : List (ℕ × ℕ) :=
  (((List.range 16).product (List.range 8)).filter fun q => fontDot font ch q.1 q.2).map
    fun q => (cx * 9 + q.2, cy * 16 + q.1)

theorem drawChar_eq (c : Console) (ch : UInt8) (hx : c.cursorX = BitVec.ofNat 32 cx)
    (hy : c.cursorY = BitVec.ofNat 32 cy) :
    (c.drawChar ch).surface =
      putDots c.mode c.mode.color (charDots c.font ch cx cy) c.surface := by
  rw [Console.drawChar]
  dsimp only
  rw [foldl_product (fun p row col => if fontDot c.font ch row col then
      halpFbPutPixel c.mode
        (c.cursorX * BitVec.ofNat 32 halpConsoleCellW + BitVec.ofNat 32 col)
        (c.cursorY * BitVec.ofNat 32 halpConsoleCellH + BitVec.ofNat 32 row) c.mode.color p
      else p), putDots, charDots, List.foldl_map, List.foldl_filter, hx, hy]
  simp only [BitVec.ofNat_add, BitVec.ofNat_mul]

/-- The font is that of the glyphs. -/
def FontBuilt (font : HalFont) : Prop :=
  ∀ ch : UInt8, ch.toNat < 128 → ∀ row < 16, ∀ col < 8,
    fontDot font ch row col = glyphDot ch row col

theorem mem_charDots {font : HalFont} (hfont : FontBuilt font) {ch : UInt8}
    (hch : ch.toNat < 128) {x y : ℕ} :
    (x, y) ∈ charDots font ch cx cy ↔
      (y / 16 = cy ∧ x / 9 = cx) ∧
        glyphDot ch (y % 16) (x % 9) = true := by
  rw [charDots, List.mem_map]
  constructor
  · rintro ⟨⟨row, col⟩, hmem, heq⟩
    obtain ⟨hmem, hdot⟩ := List.mem_filter.1 hmem
    obtain ⟨hrow, hcol⟩ := List.mem_product.1 hmem
    have hrow : row < 16 := List.mem_range.1 hrow
    have hcol : col < 8 := List.mem_range.1 hcol
    rw [hfont ch hch row hrow col hcol] at hdot
    cases heq
    dsimp only at hdot ⊢
    have hy : (cy * 16 + row) % 16 = row := by omega
    have hx : (cx * 9 + col) % 9 = col := by omega
    rw [hx, hy]
    exact ⟨by omega, hdot⟩
  · rintro ⟨hcell, hdot⟩
    have hcol : x % 9 < 8 := by
      refine Nat.not_le.1 fun hle => ?_
      rw [glyphDot_of_le hle] at hdot
      cases hdot
    have hrow : y % 16 < 16 := Nat.mod_lt _ (by decide)
    refine ⟨(y % 16, x % 9), List.mem_filter.2 ⟨List.mem_product.2
      ⟨List.mem_range.2 hrow, List.mem_range.2 hcol⟩, ?_⟩, ?_⟩
    · dsimp only
      rw [hfont ch hch _ hrow _ hcol]
      exact hdot
    · rw [show cx * 9 + x % 9 = x by omega,
        show cy * 16 + y % 16 = y by omega]

/-- Drawing a character into a blank cell. -/
theorem draws_charDots (h : v.Grid) (hdraws : p.Draws v cells) (hcx : cx < v.cols.toNat)
    (hcy : cy < v.rows.toNat) (hblank : cells cy cx = none) {font : HalFont}
    (hfont : FontBuilt font) {ch : UInt8} (hch : ch.toNat < 128) :
    (putDots v v.color (charDots font ch cx cy) p).Draws v (cells.set cy cx (some ch)) := by
  have hcols : v.cols.toNat * 9 ≤ v.width.toNat := h.mul_cols_le
  have hrows : v.rows.toNat * 16 ≤ v.height.toNat := h.mul_rows_le
  intro x y hx hy
  rw [pixel_putDots h.toFits _ (by omega) hy, hdraws x y hx hy, Cells.set]
  · by_cases hin : y / 16 = cy ∧ x / 9 = cx
    · rw [if_pos hin, hin.1, hin.2, hblank]
      exact if_congr ((mem_charDots hfont hch).trans (and_iff_right hin)) rfl rfl
    · rw [if_neg hin, if_neg fun hmem => hin ((mem_charDots hfont hch).1 hmem).1]
  · rintro ⟨a, b⟩ hd
    obtain ⟨⟨hb, ha⟩, -⟩ := (mem_charDots hfont hch).1 hd
    exact ⟨by omega, by omega⟩

/-- A scroll moves the cells up by one. -/
theorem draws_scroll (h : v.Grid) (hdraws : p.Draws v (cells.shown v.rows.toNat)) :
    (halpFbScroll v p).Draws v ((cells.up v.rows.toNat).shown v.rows.toNat) := by
  have hcols : v.cols.toNat * 9 ≤ v.width.toNat := h.mul_cols_le
  have hrows : v.rows.toNat = v.height.toNat / 16 := h.rows_eq
  have hcell : halpConsoleCellH = 16 := rfl
  intro x y hx hy
  have hdiv : (y + 16) / 16 = y / 16 + 1 := by omega
  have hmod : (y + 16) % 16 = y % 16 := by omega
  rw [pixel_scroll h.toFits h.cell_lt (by omega) hy, Cells.shown_up]
  split
  next hrow => rw [hdraws x _ hx hrow, hcell, hdiv, hmod]
  next hrow =>
    rw [Cells.shown, if_neg (by omega)]
    rfl

/-- A screen that is cleared is blank. -/
theorem draws_clear (h : v.Grid) :
    (halpFbFill v 0 0 v.width v.height v.bg p).Draws v
      (Terminal.blank.cells.shown v.rows.toNat) := by
  have hcols : v.cols.toNat * 9 ≤ v.width.toNat := h.mul_cols_le
  intro x y hx hy
  have hblank : Terminal.blank.cells.shown v.rows.toNat (y / 16) (x / 9) = none := by
    rw [Cells.shown]
    split <;> rfl
  rw [show (0 : U32) = BitVec.ofNat 32 0 from rfl,
    pixel_fill h.toFits (by omega) (by omega) (by omega) hy, if_pos (by omega), hblank]
  rfl

/-! ## The refinement -/

/-- The console shows a terminal. -/
structure Shows (c : Console) (t : Terminal) : Prop where
  grid : c.mode.Grid
  font : c.fontReady = true
  built : FontBuilt c.font
  cursorX : c.cursorX = BitVec.ofNat 32 t.x
  cursorY : c.cursorY = BitVec.ofNat 32 t.y
  x_le : t.x ≤ c.mode.cols.toNat
  y_lt : t.y < c.mode.rows.toNat
  draws : c.surface.Draws c.mode (t.cells.shown c.mode.rows.toNat)
  inBounds : c.surface.InBounds c.mode

variable {c : Console} {t : Terminal}

/-- The cursor of a screen does not overflow. -/
theorem toNat_cursor {n : ℕ} {bound : U32} (h : n ≤ bound.toNat) :
    (BitVec.ofNat 32 n).toNat = n := by
  have hlt := bound.isLt
  rw [BitVec.toNat_ofNat, Nat.mod_eq_of_lt (by omega)]

theorem sub_one_eq {a : U32} (h : 0 < a.toNat) : a - 1 = BitVec.ofNat 32 (a.toNat - 1) := by
  have hlt := a.isLt
  have hone : (1 : U32).toNat = 1 := rfl
  refine BitVec.eq_of_toNat_eq ?_
  rw [BitVec.toNat_sub_of_le (BitVec.le_def.2 (by omega)), hone, BitVec.toNat_ofNat,
    Nat.mod_eq_of_lt (by omega)]

theorem Terminal.setCell_setCell (t : Terminal) (content content' : Option UInt8) :
    (t.setCell content).setCell content' = t.setCell content' := by
  rw [setCell, setCell, setCell]
  congr 1
  funext row col
  simp only [Cells.set]
  split <;> rfl

namespace Shows

theorem toNat_cursorX (h : Shows c t) : c.cursorX.toNat = t.x := by
  rw [h.cursorX, toNat_cursor h.x_le]

theorem toNat_cursorY (h : Shows c t) : c.cursorY.toNat = t.y := by
  rw [h.cursorY, toNat_cursor (Nat.le_of_lt h.y_lt)]

/-- Only the cursor moves. -/
theorem moved (h : Shows c t) {x y : ℕ} {cursorX cursorY : U32}
    (hx : cursorX = BitVec.ofNat 32 x) (hy : cursorY = BitVec.ofNat 32 y)
    (hxle : x ≤ c.mode.cols.toNat) (hylt : y < c.mode.rows.toNat) :
    Shows { c with cursorX := cursorX, cursorY := cursorY } { t with x := x, y := y } :=
  ⟨h.grid, h.font, h.built, hx, hy, hxle, hylt, h.draws, h.inBounds⟩

/-- The cell of the cursor is erased. -/
theorem eraseCell (h : Shows c t) (hx : t.x < c.mode.cols.toNat) :
    Shows c.eraseCell (t.setCell none) where
  grid := h.grid
  font := h.font
  built := h.built
  cursorX := h.cursorX
  cursorY := h.cursorY
  x_le := h.x_le
  y_lt := h.y_lt
  draws := by
    have hdraws := draws_fillCell h.grid h.draws hx h.y_lt
    rw [← Cells.shown_set h.y_lt, BitVec.ofNat_mul, BitVec.ofNat_mul, ← h.cursorX,
      ← h.cursorY] at hdraws
    exact hdraws
  inBounds := by
    have hin : (halpFbFill c.mode (BitVec.ofNat 32 (t.x * 9)) (BitVec.ofNat 32 (t.y * 16)) 9 16
        c.mode.bg c.surface).InBounds c.mode :=
      inBounds_fill h.grid.toFits h.inBounds (t.x * 9) (t.y * 16) 9 16
    rw [BitVec.ofNat_mul, BitVec.ofNat_mul, ← h.cursorX, ← h.cursorY] at hin
    exact hin

/-- A character is drawn into a blank cell. -/
theorem drawChar (h : Shows c t) (hx : t.x < c.mode.cols.toNat)
    (hblank : t.cells t.y t.x = none) {ch : UInt8} (hch : ch.toNat < 128) :
    Shows (c.drawChar ch) (t.setCell (some ch)) where
  grid := h.grid
  font := h.font
  built := h.built
  cursorX := h.cursorX
  cursorY := h.cursorY
  x_le := h.x_le
  y_lt := h.y_lt
  draws := by
    have hshown : t.cells.shown c.mode.rows.toNat t.y t.x = none := by
      rw [Cells.shown, if_pos h.y_lt, hblank]
    have hdraws := draws_charDots h.grid h.draws hx h.y_lt hshown h.built hch
    rw [← Cells.shown_set h.y_lt, ← drawChar_eq c ch h.cursorX h.cursorY] at hdraws
    exact hdraws
  inBounds := by
    rw [drawChar_eq c ch h.cursorX h.cursorY]
    exact inBounds_putDots h.grid.toFits h.inBounds _

/-- The cursor goes to the next line, and the screen moves up where there is none. -/
theorem nextLine (h : Shows c t) :
    Shows (Console.scrollBehind { c with cursorX := 0, cursorY := c.cursorY + 1 })
      (t.nextLine c.mode.rows.toNat) := by
  have hy := h.y_lt
  have hnext : c.cursorY + 1 = BitVec.ofNat 32 (t.y + 1) := by
    rw [h.cursorY, BitVec.ofNat_add]
    rfl
  have hval : (BitVec.ofNat 32 (t.y + 1)).toNat = t.y + 1 := toNat_cursor hy
  rw [Console.scrollBehind, Terminal.nextLine]
  dsimp only
  rw [hnext, hval]
  by_cases hlast : t.y + 1 < c.mode.rows.toNat
  · rw [if_neg (by omega), if_pos hlast]
    exact h.moved rfl rfl (Nat.zero_le _) hlast
  · rw [if_pos (by omega), if_neg hlast]
    have hrow : c.mode.rows - 1 = BitVec.ofNat 32 t.y := by
      rw [sub_one_eq h.grid.rows_pos, show c.mode.rows.toNat - 1 = t.y by omega]
    exact ⟨h.grid, h.font, h.built, rfl, hrow, Nat.zero_le _, hy, draws_scroll h.grid h.draws,
      inBounds_scroll h.grid.toFits h.grid.cell_lt h.inBounds⟩

/-- The cursor goes back by a cell, which is erased. -/
theorem backspace (h : Shows c t) :
    Shows c.backspace
      (if 0 < t.x then Terminal.setCell { t with x := t.x - 1 } none
      else if 0 < t.y then
        Terminal.setCell { t with x := c.mode.cols.toNat - 1, y := t.y - 1 } none
      else t) := by
  have htx := h.toNat_cursorX
  have hty := h.toNat_cursorY
  have hxle := h.x_le
  have hylt := h.y_lt
  have hcols := h.grid.cols_pos
  rw [Console.backspace, htx, hty]
  by_cases hx : 0 < t.x
  · rw [if_pos hx, if_pos hx]
    have hleft : c.cursorX - 1 = BitVec.ofNat 32 (t.x - 1) := by rw [sub_one_eq (by omega), htx]
    refine Shows.eraseCell ?_ (show t.x - 1 < c.mode.cols.toNat by omega)
    exact h.moved hleft h.cursorY (by omega) hylt
  rw [if_neg hx, if_neg hx]
  by_cases hy : 0 < t.y
  · rw [if_pos hy, if_pos hy]
    have hup : c.cursorY - 1 = BitVec.ofNat 32 (t.y - 1) := by rw [sub_one_eq (by omega), hty]
    refine Shows.eraseCell ?_ (show c.mode.cols.toNat - 1 < c.mode.cols.toNat by omega)
    exact h.moved (sub_one_eq hcols) hup (by omega) (by omega)
  · rw [if_neg hy, if_neg hy]
    exact h

/-- Behind the last column the next line is started. -/
theorem wrap (h : Shows c t) :
    Shows
      (Console.scrollBehind (if c.mode.cols.toNat ≤ c.cursorX.toNat then
        { c with cursorX := 0, cursorY := c.cursorY + 1 } else c))
      (if t.x = c.mode.cols.toNat then t.nextLine c.mode.rows.toNat else t) := by
  have hxle := h.x_le
  rw [h.toNat_cursorX]
  by_cases hlast : t.x = c.mode.cols.toNat
  · rw [if_pos (by omega), if_pos hlast]
    exact h.nextLine
  · rw [if_neg (by omega), if_neg hlast, Console.scrollBehind, h.toNat_cursorY,
      if_neg (Nat.not_le.2 h.y_lt)]
    exact h

/-- A character is printed at the cursor. -/
theorem print (h : Shows c t) {ch : UInt8} (hch : ch.toNat < 128) :
    Shows (c.print ch)
      (let t := if t.x = c.mode.cols.toNat then t.nextLine c.mode.rows.toNat else t
      let t := t.setCell (some ch)
      { t with x := t.x + 1 }) := by
  have hwrap := h.wrap
  have hcols := h.grid.cols_pos
  have hx : (if t.x = c.mode.cols.toNat then t.nextLine c.mode.rows.toNat else t).x <
      c.mode.cols.toNat := by
    have hxle := h.x_le
    split
    · rw [Terminal.nextLine]
      split <;> exact hcols
    · omega
  rw [Console.print, Console.buildFont, if_pos h.font]
  dsimp only
  have hmode : (Console.scrollBehind (if c.mode.cols.toNat ≤ c.cursorX.toNat then
      { c with cursorX := 0, cursorY := c.cursorY + 1 } else c)).mode = c.mode := by
    rw [Console.scrollBehind]
    split <;> split <;> rfl
  generalize Console.scrollBehind (if c.mode.cols.toNat ≤ c.cursorX.toNat then
    { c with cursorX := 0, cursorY := c.cursorY + 1 } else c) = c' at hwrap hmode ⊢
  generalize (if t.x = c.mode.cols.toNat then t.nextLine c.mode.rows.toNat else t) = t'
    at hwrap hx ⊢
  rw [← hmode] at hx
  have hdrawn := (hwrap.eraseCell hx).drawChar hx (by simp [Terminal.setCell, Cells.set]) hch
  rw [Terminal.setCell_setCell] at hdrawn
  have hnext : c'.cursorX + 1 = BitVec.ofNat 32 (t'.x + 1) := by
    rw [hwrap.cursorX, BitVec.ofNat_add]
    rfl
  exact hdrawn.moved hnext hwrap.cursorY hx hwrap.y_lt

end Shows

theorem drawnChar_eq (ch : UInt8) :
    drawnChar ch = if 0x20 ≤ ch ∧ ch ≤ 0x7E then ch else 63 := by
  rw [drawnChar]
  by_cases h : ch < 0x20 ∨ 0x7E < ch
  · rw [if_pos h, if_neg]
    rintro ⟨hle, hle'⟩
    rcases h with h | h
    · exact UInt8.not_lt.2 hle h
    · exact UInt8.not_lt.2 hle' h
  · rw [not_or, UInt8.not_lt, UInt8.not_lt] at h
    rw [if_neg, if_pos h]
    rintro (hlt | hlt)
    · exact UInt8.not_lt.2 h.1 hlt
    · exact UInt8.not_lt.2 h.2 hlt

theorem drawnChar_lt (ch : UInt8) : (drawnChar ch).toNat < 128 := by
  rw [drawnChar]
  split
  · decide
  next h =>
    rw [not_or, UInt8.not_lt, UInt8.not_lt] at h
    exact Nat.lt_of_le_of_lt (UInt8.le_iff_toNat_le.1 h.2) (by decide)

/-- A character keeps the console and the terminal together. -/
theorem shows_putChar (h : Shows c t) (ch : UInt8) :
    Shows (halpFbPutChar c ch) (t.put c.mode.rows.toNat c.mode.cols.toNat ch) := by
  rw [halpFbPutChar, Terminal.put, if_neg (by rw [h.grid.ready]; decide)]
  by_cases hcr : ch = 13
  · rw [if_pos hcr, if_pos hcr]
    exact h.moved rfl h.cursorY (Nat.zero_le _) h.y_lt
  rw [if_neg hcr, if_neg hcr]
  by_cases hlf : ch = 10
  · rw [if_pos hlf, if_pos hlf]
    exact h.nextLine
  rw [if_neg hlf, if_neg hlf]
  by_cases hbs : ch = 8
  · rw [if_pos hbs, if_pos hbs]
    exact h.backspace
  · rw [if_neg hbs, if_neg hbs, ← drawnChar_eq]
    exact h.print (drawnChar_lt ch)

theorem mode_scrollBehind (c : Console) : c.scrollBehind.mode = c.mode := by
  rw [Console.scrollBehind]
  split <;> rfl

/-- The geometry stays. -/
theorem mode_putChar (c : Console) (ch : UInt8) : (halpFbPutChar c ch).mode = c.mode := by
  rw [halpFbPutChar]
  split
  · rfl
  split
  · rfl
  split
  · exact mode_scrollBehind _
  split
  · rw [Console.backspace]
    split
    · rfl
    split <;> rfl
  · rw [Console.print]
    dsimp only [Console.drawChar, Console.eraseCell]
    rw [mode_scrollBehind]
    have hfont : c.buildFont.mode = c.mode := by
      rw [Console.buildFont]
      split <;> rfl
    split
    · exact hfont
    · exact hfont

/-! ## From the initialization on -/

/-- A geometry is accepted that has a cell and an address. -/
theorem initialize_cases {video : BootVideoInfo} {fb : U32 → U32}
    (h : (halpInitializeFramebuffer (some video) (.zero fb)).mode.ready = true) :
    (video.mode true).cols ≠ 0 ∧ (video.mode true).rows ≠ 0 ∧
      halpInitializeFramebuffer (some video) (.zero fb) =
        halpFbClear { (Console.zero fb).buildFont with mode := video.mode true } := by
  rw [halpInitializeFramebuffer] at h ⊢
  dsimp only at h ⊢
  split at h
  · cases h
  next hnonzero =>
    rw [if_neg hnonzero]
    split at h
    · cases h
    next hcells =>
      rw [not_or] at hcells
      rw [if_neg fun hor => hor.elim hcells.1 hcells.2]
      exact ⟨hcells.1, hcells.2, rfl⟩

/-- What is assumed of the geometry of the framebuffer. -/
structure BootVideoInfo.Assumed (video : BootVideoInfo) (fb : U32 → U32) : Prop where
  accepted : (halpInitializeFramebuffer (some video) (.zero fb)).mode.ready = true
  cell_lt : halpConsoleCellH < video.height.toNat
  width_le : video.width.toNat ≤ video.pixelsPerScanLine.toNat
  size_lt : video.pixelsPerScanLine.toNat * video.height.toNat < 2 ^ 32

/-- After the initialization the console shows a blank screen. -/
theorem shows_initialize {video : BootVideoInfo} {fb : U32 → U32} (h : video.Assumed fb) :
    Shows (halpInitializeFramebuffer (some video) (.zero fb)) .blank := by
  obtain ⟨hcols, hrows, heq⟩ := initialize_cases h.accepted
  have hgrid : (video.mode true).Grid :=
    { ready := rfl
      width_le := h.width_le
      size_lt := h.size_lt
      cols_eq := BitVec.toNat_udiv
      rows_eq := BitVec.toNat_udiv
      cols_pos := Nat.pos_of_ne_zero fun hzero => hcols (BitVec.eq_of_toNat_eq hzero)
      rows_pos := Nat.pos_of_ne_zero fun hzero => hrows (BitVec.eq_of_toNat_eq hzero)
      cell_lt := h.cell_lt }
  have hbuilt : FontBuilt (halpBuildFont8x16 fun _ _ => 0) :=
    fun ch hch row hrow col hcol => fontDot_built _ hch hrow hcol
  have hbounds : (halpFbFill (video.mode true) 0 0 video.width video.height (video.mode true).bg
      ⟨fb, []⟩).InBounds (video.mode true) :=
    inBounds_fill hgrid.toFits (fun i hi => absurd hi List.not_mem_nil) 0 0 _ _
  rw [heq]
  exact ⟨hgrid, rfl, hbuilt, rfl, rfl, Nat.zero_le _, hgrid.rows_pos, draws_clear hgrid, hbounds⟩

/-- The console is the terminal. -/
structure IsTerminal (c : Console) (video : BootVideoInfo) (t : Terminal) : Prop where
  cursorX_eq : c.cursorX.toNat = t.x
  cursorY_eq : c.cursorY.toNat = t.y
  cursorX_le : c.cursorX.toNat ≤ video.width.toNat / 9
  cursorY_lt : c.cursorY.toNat < video.height.toNat / 16
  touched_lt : ∀ i ∈ c.surface.touched,
    i.toNat < video.pixelsPerScanLine.toNat * video.height.toNat
  cells : ∀ row < video.height.toNat / 16, ∀ col < video.width.toNat / 9, ∀ dy < 16, ∀ dx < 9,
    c.surface.fb (BitVec.ofNat 32 ((row * 16 + dy) * video.pixelsPerScanLine.toNat +
      (col * 9 + dx))) = (video.mode true).shade (t.cells row col) dy dx

theorem index_mode (video : BootVideoInfo) (x y : ℕ) :
    (video.mode true).index (BitVec.ofNat 32 x) (BitVec.ofNat 32 y) =
      BitVec.ofNat 32 (y * video.pixelsPerScanLine.toNat + x) := by
  rw [BitVec.ofNat_add, BitVec.ofNat_mul, BitVec.ofNat_toNat, BitVec.setWidth_eq]
  rfl

theorem Shows.isTerminal {video : BootVideoInfo} (h : Shows c t)
    (hmode : c.mode = video.mode true) : IsTerminal c video t := by
  have hcols : c.mode.cols.toNat = video.width.toNat / 9 := by
    rw [h.grid.cols_eq, hmode]
    rfl
  have hrows : c.mode.rows.toNat = video.height.toNat / 16 := by
    rw [h.grid.rows_eq, hmode]
    rfl
  refine ⟨h.toNat_cursorX, h.toNat_cursorY, ?_, ?_, ?_, fun row hrow col hcol dy hdy dx hdx => ?_⟩
  · rw [h.toNat_cursorX, ← hcols]
    exact h.x_le
  · rw [h.toNat_cursorY, ← hrows]
    exact h.y_lt
  · have hbounds := h.inBounds
    rw [Surface.InBounds, hmode] at hbounds
    exact hbounds
  · have hheight : c.mode.height.toNat = video.height.toNat := by rw [hmode]; rfl
    have hpixel := h.draws (col * 9 + dx) (row * 16 + dy) (by omega) (by omega)
    rw [show (row * 16 + dy) / 16 = row by omega, show (row * 16 + dy) % 16 = dy by omega,
      show (col * 9 + dx) / 9 = col by omega, show (col * 9 + dx) % 9 = dx by omega, hrows,
      Cells.shown, if_pos hrow, Surface.pixel, hmode, index_mode] at hpixel
    exact hpixel

theorem mode_foldl_putChar (c : Console) (chars : List UInt8) :
    (chars.foldl halpFbPutChar c).mode = c.mode := by
  induction chars generalizing c with
  | nil => rfl
  | cons ch chars ih => exact (ih _).trans (mode_putChar c ch)

/-- A sequence of characters keeps the console and the terminal together. -/
theorem Shows.foldl_putChar (h : Shows c t) (chars : List UInt8) :
    Shows (chars.foldl halpFbPutChar c)
      (chars.foldl (Terminal.put c.mode.rows.toNat c.mode.cols.toNat) t) := by
  induction chars generalizing c t with
  | nil => exact h
  | cons ch chars ih =>
    have hrest := ih (shows_putChar h ch)
    rw [mode_putChar] at hrest
    exact hrest

/-- For every sequence of characters, the console is the terminal that they are written to. -/
theorem console_is_terminal (video : BootVideoInfo) (fb : U32 → U32) (h : video.Assumed fb)
    (chars : List UInt8) :
    IsTerminal (chars.foldl halpFbPutChar (halpInitializeFramebuffer (some video) (.zero fb)))
      video
      (chars.foldl (Terminal.put (video.height.toNat / 16) (video.width.toNat / 9)) .blank) := by
  have hinit := shows_initialize h
  obtain ⟨-, -, heq⟩ := initialize_cases h.accepted
  have hmode : (halpInitializeFramebuffer (some video) (.zero fb)).mode = video.mode true := by
    rw [heq]
    rfl
  have hrun := (hinit.foldl_putChar chars).isTerminal ((mode_foldl_putChar _ chars).trans hmode)
  have hcols : (video.mode true).cols.toNat = video.width.toNat / 9 := BitVec.toNat_udiv
  have hrows : (video.mode true).rows.toNat = video.height.toNat / 16 := BitVec.toNat_udiv
  rw [hmode, hcols, hrows] at hrun
  exact hrun

/-- A screen of two cells by two, with room to the right and below. -/
def smallVideo : BootVideoInfo := ⟨0x1000, 20, 40, 24⟩

/-- Three characters, of which the third is wrapped to the second line. -/
theorem console_is_terminal_small :
    IsTerminal ([65, 66, 67].foldl halpFbPutChar
      (halpInitializeFramebuffer (some smallVideo) (.zero fun _ => 0))) smallVideo
      ([65, 66, 67].foldl (Terminal.put 2 2) .blank) :=
  console_is_terminal smallVideo (fun _ => 0) ⟨rfl, by decide, by decide, by decide⟩ [65, 66, 67]

end NtxKernel.Hal
