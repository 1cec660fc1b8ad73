import NtxKernel.Basic
import NtxKernel.Foundations.Overlap
import Mathlib.Data.List.ProdSigma
import Mathlib.Tactic.NormNum

/-!
# Drawing on the framebuffer

`HalpFbPutPixel`, `HalpFbFill` and `HalpFbScroll` of `hal/aur64/hal_aur64.c`. The framebuffer is
memory under an index of 32 bits, and the indices that are read or written are recorded.

* `FbMode.Fits`: the pixels of the screen have their own indices, all below `pitch * height`.
* `Surface.pixel` is the color at a place of the screen. `pixel_putDots`, `pixel_fill` and
  `pixel_scroll` say what the routines do to it.
* `Surface.InBounds`: the indices that were used are below `pitch * height`.
-/

namespace NtxKernel.Hal

open Foundations

/-- `HALP_CONSOLE_CELL_W`. -/
abbrev halpConsoleCellW : ℕ := 9

/-- `HALP_CONSOLE_CELL_H`. -/
abbrev halpConsoleCellH : ℕ := 16

/-- The globals `gHalFbReady`, `gHalFbWidth`, `gHalFbHeight`, `gHalFbPitch`, `gHalFbColor`,
`gHalFbBg`, `gHalFbCols` and `gHalFbRows`. -/
structure FbMode where
  ready : Bool
  width : U32
  height : U32
  pitch : U32
  color : U32
  bg : U32
  cols : U32
  rows : U32

/-- The memory at `gHalFb`, and the indices that were used so far. -/
structure Surface where
  fb : U32 → U32
  touched : List U32

namespace Surface

/-- Write an index. -/
def write (p : Surface) (i : U32) (color : U32) : Surface where
  fb := Function.update p.fb i color
  touched := i :: p.touched

/-- Copy an index to another. -/
def copy (p : Surface) (dst src : U32) : Surface where
  fb := Function.update p.fb dst (p.fb src)
  touched := dst :: src :: p.touched

end Surface

/-- The index of a place. -/
def FbMode.index (v : FbMode) (x y : U32) : U32 := y * v.pitch + x

/-- `HalpFbPutPixel`. -/
def halpFbPutPixel (v : FbMode) (x y color : U32) (p : Surface) : Surface :=
  if v.ready = false ∨ v.width.toNat ≤ x.toNat ∨ v.height.toNat ≤ y.toNat then p
  else p.write (v.index x y) color

/-- `HalpFbFill`. -/
def halpFbFill (v : FbMode) (x y w h color : U32) (p : Surface) : Surface :=
  (List.range h.toNat).foldl (fun p row =>
    (List.range w.toNat).foldl (fun p col =>
      halpFbPutPixel v (x + BitVec.ofNat 32 col) (y + BitVec.ofNat 32 row) color p) p) p

/-- The copies of `HalpFbScroll`. -/
def fbScrollRows (v : FbMode) (p : Surface) : Surface :=
  (List.range (v.height.toNat - halpConsoleCellH)).foldl (fun p y =>
    (List.range v.width.toNat).foldl (fun p x =>
      p.copy (v.index (BitVec.ofNat 32 x) (BitVec.ofNat 32 y))
        (v.index (BitVec.ofNat 32 x) (BitVec.ofNat 32 y + BitVec.ofNat 32 halpConsoleCellH))) p) p

/-- `HalpFbScroll`. -/
def halpFbScroll (v : FbMode) (p : Surface) : Surface :=
  if v.ready = false ∨ v.height.toNat ≤ halpConsoleCellH then p
  else
    halpFbFill v 0 (v.height - BitVec.ofNat 32 halpConsoleCellH) v.width
      (BitVec.ofNat 32 halpConsoleCellH) v.bg (fbScrollRows v p)

/-! ## Places and indices -/

/-- The screen is on, and its pixels have their own indices. -/
structure FbMode.Fits (v : FbMode) : Prop where
  ready : v.ready = true
  width_le : v.width.toNat ≤ v.pitch.toNat
  size_lt : v.pitch.toNat * v.height.toNat < 2 ^ 32

/-- The color at a place. -/
def Surface.pixel (p : Surface) (v : FbMode) (x y : ℕ) : U32 :=
  p.fb (v.index (BitVec.ofNat 32 x) (BitVec.ofNat 32 y))

/-- The indices that were used are those of the framebuffer. -/
def Surface.InBounds (p : Surface) (v : FbMode) : Prop :=
  ∀ i ∈ p.touched, i.toNat < v.pitch.toNat * v.height.toNat

namespace FbMode.Fits

variable {v : FbMode} {x y x' y' : ℕ}

theorem place_lt (h : v.Fits) (hx : x < v.width.toNat) (hy : y < v.height.toNat) :
    y * v.pitch.toNat + x < v.pitch.toNat * v.height.toNat := by
  have hrow : (y + 1) * v.pitch.toNat ≤ v.pitch.toNat * v.height.toNat := by
    rw [Nat.mul_comm]
    exact Nat.mul_le_mul_left _ hy
  have hpitch := h.width_le
  rw [Nat.succ_mul] at hrow
  omega

theorem toNat_index (h : v.Fits) (hx : x < v.width.toNat) (hy : y < v.height.toNat) :
    (v.index (BitVec.ofNat 32 x) (BitVec.ofNat 32 y)).toNat = y * v.pitch.toNat + x := by
  have hwidth := v.width.isLt
  have hheight := v.height.isLt
  have hplace := h.place_lt hx hy
  have hsize := h.size_lt
  rw [FbMode.index, BitVec.toNat_add, BitVec.toNat_mul, BitVec.toNat_ofNat, BitVec.toNat_ofNat,
    Nat.mod_eq_of_lt (show y < 2 ^ 32 by omega), Nat.mod_eq_of_lt (show x < 2 ^ 32 by omega),
    Nat.mod_eq_of_lt (show y * v.pitch.toNat < 2 ^ 32 by omega), Nat.mod_eq_of_lt (by omega)]

theorem index_lt (h : v.Fits) (hx : x < v.width.toNat) (hy : y < v.height.toNat) :
    (v.index (BitVec.ofNat 32 x) (BitVec.ofNat 32 y)).toNat <
      v.pitch.toNat * v.height.toNat := by
  rw [h.toNat_index hx hy]
  exact h.place_lt hx hy

/-- Different places have different indices. -/
theorem index_inj (h : v.Fits) (hx : x < v.width.toNat) (hy : y < v.height.toNat)
    (hx' : x' < v.width.toNat) (hy' : y' < v.height.toNat) :
    v.index (BitVec.ofNat 32 x) (BitVec.ofNat 32 y) =
      v.index (BitVec.ofNat 32 x') (BitVec.ofNat 32 y') ↔ x = x' ∧ y = y' := by
  refine ⟨fun heq => ?_, fun heq => by rw [heq.1, heq.2]⟩
  have hnat := congrArg BitVec.toNat heq
  rw [h.toNat_index hx hy, h.toNat_index hx' hy'] at hnat
  have hpitch := h.width_le
  have hrow : y = y' := by
    have hdiv := congrArg (· / v.pitch.toNat) hnat
    have hpos : 0 < v.pitch.toNat := by omega
    rw [Nat.add_comm, Nat.add_mul_div_right _ _ hpos, Nat.add_comm (y' * _),
      Nat.add_mul_div_right _ _ hpos, Nat.div_eq_of_lt (by omega), Nat.div_eq_of_lt (by omega)]
      at hdiv
    omega
  rw [hrow] at hnat
  exact ⟨by omega, hrow⟩

end FbMode.Fits

/-! ## Dots of one color -/

/-- Draw a list of places. -/
def putDots (v : FbMode) (color : U32) (dots : List (ℕ × ℕ)) (p : Surface) : Surface :=
  dots.foldl (fun p d =>
    halpFbPutPixel v (BitVec.ofNat 32 d.1) (BitVec.ofNat 32 d.2) color p) p

variable {v : FbMode} {p : Surface} {color : U32} {x y : ℕ}

theorem putPixel_eq (h : v.Fits) (hx : x < v.width.toNat) (hy : y < v.height.toNat) :
    halpFbPutPixel v (BitVec.ofNat 32 x) (BitVec.ofNat 32 y) color p =
      p.write (v.index (BitVec.ofNat 32 x) (BitVec.ofNat 32 y)) color := by
  have hwidth := v.width.isLt
  have hheight := v.height.isLt
  rw [halpFbPutPixel, if_neg]
  rw [BitVec.toNat_ofNat, BitVec.toNat_ofNat, Nat.mod_eq_of_lt (by omega),
    Nat.mod_eq_of_lt (by omega), h.ready]
  rintro (hready | hout | hout)
  · cases hready
  · exact Nat.not_lt.2 hout hx
  · exact Nat.not_lt.2 hout hy

/-- The places of the list have the color then, and the others keep theirs. -/
theorem pixel_putDots (h : v.Fits) {dots : List (ℕ × ℕ)}
    (hdots : ∀ d ∈ dots, d.1 < v.width.toNat ∧ d.2 < v.height.toNat) (hx : x < v.width.toNat)
    (hy : y < v.height.toNat) :
    (putDots v color dots p).pixel v x y = if (x, y) ∈ dots then color else p.pixel v x y := by
  induction dots generalizing p with
  | nil => rw [if_neg List.not_mem_nil]; rfl
  | cons d dots ih =>
    obtain ⟨hdx, hdy⟩ := hdots d List.mem_cons_self
    rw [putDots, List.foldl_cons, ← putDots, ih fun d hd => hdots d (List.mem_cons_of_mem _ hd),
      putPixel_eq h hdx hdy]
    by_cases hmem : (x, y) ∈ dots
    · rw [if_pos hmem, if_pos (List.mem_cons_of_mem _ hmem)]
    rw [if_neg hmem, Surface.pixel, Surface.write]
    dsimp only
    by_cases hd : (x, y) = d
    · rw [if_pos (List.mem_cons.2 (.inl hd)), ← hd, Function.update_self]
    · rw [if_neg fun hin => (List.mem_cons.1 hin).elim hd hmem, Function.update_of_ne]
      · rfl
      · intro hsame
        obtain ⟨hxd, hyd⟩ := (h.index_inj hx hy hdx hdy).1 hsame
        exact hd (Prod.ext hxd hyd)

/-- No routine but this one writes, and it writes inside the framebuffer. -/
theorem inBounds_putPixel (h : v.Fits) (hp : p.InBounds v) (x y : U32) :
    (halpFbPutPixel v x y color p).InBounds v := by
  rw [halpFbPutPixel]
  split
  · exact hp
  next hin =>
    rw [not_or, not_or] at hin
    intro i hi
    rcases List.mem_cons.1 hi with rfl | hi
    · have hlt := h.index_lt (Nat.not_le.1 hin.2.1) (Nat.not_le.1 hin.2.2)
      rw [BitVec.ofNat_toNat, BitVec.ofNat_toNat, BitVec.setWidth_eq, BitVec.setWidth_eq] at hlt
      exact hlt
    · exact hp i hi

theorem inBounds_putDots (h : v.Fits) (hp : p.InBounds v) (dots : List (ℕ × ℕ)) :
    (putDots v color dots p).InBounds v := by
  induction dots generalizing p with
  | nil => exact hp
  | cons d dots ih => exact ih (inBounds_putPixel h hp _ _)

/-! ## Rectangles -/

/-- A loop inside a loop goes through the pairs of the two counters. -/
theorem foldl_product {A B C : Type} (f : C → A → B → C) (l : List A) (m : List B) (c : C) :
    l.foldl (fun c a => m.foldl (fun c b => f c a b) c) c =
      (l.product m).foldl (fun c q => f c q.1 q.2) c := by
  rw [List.product, List.foldl_flatMap]
  simp only [List.foldl_map]

/-- The places of a rectangle. -/
def rectangle (x y w h : ℕ) : List (ℕ × ℕ) :=
  ((List.range h).product (List.range w)).map fun q => (x + q.2, y + q.1)

theorem mem_rectangle {x y w h a b : ℕ} :
    (a, b) ∈ rectangle x y w h ↔ (x ≤ a ∧ a < x + w) ∧ y ≤ b ∧ b < y + h := by
  rw [rectangle, List.mem_map]
  constructor
  · rintro ⟨⟨row, col⟩, hmem, heq⟩
    obtain ⟨hrow, hcol⟩ := List.mem_product.1 hmem
    have hrow := List.mem_range.1 hrow
    have hcol := List.mem_range.1 hcol
    cases heq
    omega
  · intro h
    refine ⟨(b - y, a - x), List.mem_product.2 ⟨List.mem_range.2 ?_, List.mem_range.2 ?_⟩, ?_⟩
    · omega
    · omega
    · rw [show x + (a - x) = a by omega, show y + (b - y) = b by omega]

theorem halpFbFill_eq (x y : ℕ) (w h : U32) :
    halpFbFill v (BitVec.ofNat 32 x) (BitVec.ofNat 32 y) w h color p =
      putDots v color (rectangle x y w.toNat h.toNat) p := by
  rw [halpFbFill, foldl_product (fun p row col => halpFbPutPixel v
      (BitVec.ofNat 32 x + BitVec.ofNat 32 col) (BitVec.ofNat 32 y + BitVec.ofNat 32 row) color p),
    putDots, rectangle, List.foldl_map]
  simp only [BitVec.ofNat_add]

/-- A rectangle on the screen is filled. -/
theorem pixel_fill (h : v.Fits) {x₀ y₀ : ℕ} {width height : U32}
    (hx₀ : x₀ + width.toNat ≤ v.width.toNat) (hy₀ : y₀ + height.toNat ≤ v.height.toNat)
    (hx : x < v.width.toNat) (hy : y < v.height.toNat) :
    (halpFbFill v (BitVec.ofNat 32 x₀) (BitVec.ofNat 32 y₀) width height color p).pixel v x y =
      if (x₀ ≤ x ∧ x < x₀ + width.toNat) ∧ y₀ ≤ y ∧ y < y₀ + height.toNat then color
      else p.pixel v x y := by
  rw [halpFbFill_eq, pixel_putDots h _ hx hy]
  · exact if_congr mem_rectangle rfl rfl
  · rintro ⟨a, b⟩ hd
    have hmem := mem_rectangle.1 hd
    exact ⟨by omega, by omega⟩

theorem inBounds_fill (h : v.Fits) (hp : p.InBounds v) (x₀ y₀ : ℕ) (width height : U32) :
    (halpFbFill v (BitVec.ofNat 32 x₀) (BitVec.ofNat 32 y₀) width height color p).InBounds v := by
  rw [halpFbFill_eq]
  exact inBounds_putDots h hp _

/-! ## Scrolling -/

/-- The copies of a scroll: destinations and sources. -/
def scrollCopies (v : FbMode) : List (U32 × U32) :=
  ((List.range (v.height.toNat - halpConsoleCellH)).product (List.range v.width.toNat)).map
    fun q => (v.index (BitVec.ofNat 32 q.2) (BitVec.ofNat 32 q.1),
      v.index (BitVec.ofNat 32 q.2) (BitVec.ofNat 32 (q.1 + halpConsoleCellH)))

theorem foldl_copy (l : List (U32 × U32)) (p : Surface) :
    (l.foldl (fun p q => p.copy q.1 q.2) p).fb = copyAll p.fb l := by
  induction l generalizing p with
  | nil => rfl
  | cons q l ih => exact ih _

theorem inBounds_foldl_copy {l : List (U32 × U32)} (hp : p.InBounds v)
    (hl : ∀ q ∈ l, q.1.toNat < v.pitch.toNat * v.height.toNat ∧
      q.2.toNat < v.pitch.toNat * v.height.toNat) :
    (l.foldl (fun p q => p.copy q.1 q.2) p).InBounds v := by
  induction l generalizing p with
  | nil => exact hp
  | cons q l ih =>
    obtain ⟨hdst, hsrc⟩ := hl q List.mem_cons_self
    refine ih (fun i hi => ?_) fun q hq => hl q (List.mem_cons_of_mem _ hq)
    rcases List.mem_cons.1 hi with rfl | hi
    · exact hdst
    rcases List.mem_cons.1 hi with rfl | hi
    · exact hsrc
    · exact hp i hi

theorem fbScrollRows_eq (p : Surface) :
    fbScrollRows v p = (scrollCopies v).foldl (fun p q => p.copy q.1 q.2) p := by
  rw [fbScrollRows, foldl_product (fun p y x => Surface.copy p
      (v.index (BitVec.ofNat 32 x) (BitVec.ofNat 32 y))
      (v.index (BitVec.ofNat 32 x) (BitVec.ofNat 32 y + BitVec.ofNat 32 halpConsoleCellH))),
    scrollCopies, List.foldl_map]
  simp only [BitVec.ofNat_add]

/-- The pairs of a product come row by row. -/
theorem pairwise_product_range (m n : ℕ) :
    ((List.range m).product (List.range n)).Pairwise fun a b =>
      a.1 < b.1 ∨ a.1 = b.1 ∧ a.2 < b.2 := by
  rw [List.product, List.pairwise_flatMap]
  refine ⟨fun row _ => ?_, List.pairwise_lt_range.imp fun hlt a ha b hb => ?_⟩
  · rw [List.pairwise_map]
    exact List.pairwise_lt_range.imp fun hlt => .inr ⟨rfl, hlt⟩
  · obtain ⟨col, -, rfl⟩ := List.mem_map.1 ha
    obtain ⟨col', -, rfl⟩ := List.mem_map.1 hb
    exact .inl hlt

theorem mem_scrollPairs {v : FbMode} {q : ℕ × ℕ}
    (hq : q ∈ (List.range (v.height.toNat - halpConsoleCellH)).product
      (List.range v.width.toNat)) :
    q.1 + halpConsoleCellH < v.height.toNat ∧ q.2 < v.width.toNat := by
  obtain ⟨hrow, hcol⟩ := List.mem_product.1 hq
  have hrow := List.mem_range.1 hrow
  exact ⟨by omega, List.mem_range.1 hcol⟩

/-- The rows are copied upward, so that no pixel is read after it was written. -/
theorem readsFirst_scrollCopies (h : v.Fits) : ReadsFirst (scrollCopies v) := by
  have hpairs := pairwise_product_range (v.height.toNat - halpConsoleCellH) v.width.toNat
  constructor
  · rw [scrollCopies, List.pairwise_map]
    refine hpairs.imp_of_mem fun {a b} ha hb hlt hsame => ?_
    obtain ⟨har, hac⟩ := mem_scrollPairs ha
    obtain ⟨hbr, hbc⟩ := mem_scrollPairs hb
    have heq : b.1 + 16 = a.1 := ((h.index_inj hbc hbr hac (by omega)).1 hsame).2
    omega
  · rw [scrollCopies, List.pairwise_map]
    refine hpairs.imp_of_mem fun {a b} ha hb hlt hsame => ?_
    obtain ⟨har, hac⟩ := mem_scrollPairs ha
    obtain ⟨hbr, hbc⟩ := mem_scrollPairs hb
    obtain ⟨hcol, hrow⟩ := (h.index_inj hbc (by omega) hac (by omega)).1 hsame
    omega

theorem pixel_scrollRows (h : v.Fits) (hx : x < v.width.toNat) (hy : y < v.height.toNat) :
    (fbScrollRows v p).pixel v x y =
      if y + halpConsoleCellH < v.height.toNat then p.pixel v x (y + halpConsoleCellH)
      else p.pixel v x y := by
  rw [fbScrollRows_eq, Surface.pixel, foldl_copy]
  split
  next hrow =>
    have hmem : (v.index (BitVec.ofNat 32 x) (BitVec.ofNat 32 y),
        v.index (BitVec.ofNat 32 x) (BitVec.ofNat 32 (y + halpConsoleCellH))) ∈
          scrollCopies v := by
      refine List.mem_map.2 ⟨(y, x), List.mem_product.2 ⟨List.mem_range.2 ?_, ?_⟩, rfl⟩
      · omega
      · exact List.mem_range.2 hx
    exact copyAll_of_mem (readsFirst_scrollCopies h) hmem
  next hrow =>
    refine copyAll_of_notMem fun q hq hsame => ?_
    obtain ⟨a, ha, rfl⟩ := List.mem_map.1 hq
    obtain ⟨har, hac⟩ := mem_scrollPairs ha
    have heq := ((h.index_inj hac (by omega) hx hy).1 hsame).2
    exact hrow (heq ▸ har)

/-- The rectangle that a scroll fills starts a cell above the end of the screen. -/
theorem scrollBottom_eq (hheight : halpConsoleCellH < v.height.toNat) :
    v.height - BitVec.ofNat 32 halpConsoleCellH =
      BitVec.ofNat 32 (v.height.toNat - halpConsoleCellH) := by
  have hlt := v.height.isLt
  have hcell : (BitVec.ofNat 32 halpConsoleCellH).toNat = 16 := rfl
  have hle : (BitVec.ofNat 32 halpConsoleCellH).toNat ≤ v.height.toNat := Nat.le_of_lt hheight
  refine BitVec.eq_of_toNat_eq ?_
  rw [BitVec.toNat_sub_of_le (BitVec.le_def.2 hle), hcell, BitVec.toNat_ofNat,
    Nat.mod_eq_of_lt (by omega)]

theorem halpFbScroll_eq (h : v.Fits) (hheight : halpConsoleCellH < v.height.toNat) :
    halpFbScroll v p = halpFbFill v (BitVec.ofNat 32 0)
      (BitVec.ofNat 32 (v.height.toNat - halpConsoleCellH)) v.width
      (BitVec.ofNat 32 halpConsoleCellH) v.bg (fbScrollRows v p) := by
  rw [halpFbScroll, h.ready, if_neg, scrollBottom_eq hheight]
  · rfl
  · rintro (hready | hle)
    · cases hready
    · exact Nat.not_lt.2 hle hheight

/-- A scroll moves the screen up by a cell. -/
theorem pixel_scroll (h : v.Fits) (hheight : halpConsoleCellH < v.height.toNat)
    (hx : x < v.width.toNat) (hy : y < v.height.toNat) :
    (halpFbScroll v p).pixel v x y =
      if y + halpConsoleCellH < v.height.toNat then p.pixel v x (y + halpConsoleCellH)
      else v.bg := by
  have hcell : (BitVec.ofNat 32 halpConsoleCellH).toNat = halpConsoleCellH := rfl
  rw [halpFbScroll_eq h hheight, pixel_fill h (by omega) (by omega) hx hy, pixel_scrollRows h hx hy,
    hcell]
  split
  next hbottom => rw [if_neg (by omega)]
  next hrow => rw [if_pos (by omega), if_pos (by omega)]

/-- A scroll uses the pixels of the framebuffer only. -/
theorem inBounds_scroll (h : v.Fits) (hheight : halpConsoleCellH < v.height.toNat)
    (hp : p.InBounds v) : (halpFbScroll v p).InBounds v := by
  rw [halpFbScroll_eq h hheight]
  refine inBounds_fill h ?_ _ _ _ _
  rw [fbScrollRows_eq]
  refine inBounds_foldl_copy hp fun q hq => ?_
  obtain ⟨a, ha, rfl⟩ := List.mem_map.1 hq
  obtain ⟨hrow, hcol⟩ := mem_scrollPairs ha
  exact ⟨h.index_lt hcol (by omega), h.index_lt hcol hrow⟩

end NtxKernel.Hal
