import Mathlib.Data.List.TakeWhile
import NtxKernel.Hal.Console
import NtxKernel.Ke.Dispatch

/-!
# The line editor of the first program

`_start` of `init.kpe` reads characters from the console, edits a line, and prints the line once it
is ended, which makes the kernel carry out a debug command. All it shows goes through
`NkSysDebugPrint`: the prompt, an echo of each character, and a cursor that it draws and erases
itself.

* `initTurn` is one turn of its loop, with the texts that it prints.
* `Edited.type` says what a character does to a line.
* `init_shows_line`: for every sequence of characters, with any turns without one between them, the
  variables hold the edited line, nothing is written outside of the array, the framebuffer shows the
  prompt, the line and the cursor in the row of the cursor, and the texts that were taken for
  commands are lines that were ended.
-/

namespace NtxKernel.User

open Foundations Ob Ke Hal

/-! ## The program -/

/-- `"init.kpe online\n"`. -/
def banner : CString :=
  [105, 110, 105, 116, 46, 107, 112, 101, 32, 111, 110, 108, 105, 110, 101, 10]

/-- `"type 'help' for debug commands\n"`. -/
def hint : CString :=
  [116, 121, 112, 101, 32, 39, 104, 101, 108, 112, 39, 32, 102, 111, 114, 32, 100, 101, 98, 117,
    103, 32, 99, 111, 109, 109, 97, 110, 100, 115, 10]

/-- `"NK> "`. -/
def prompt : CString := [78, 75, 62, 32]

/-- `"\n"`. -/
def newline : CString := [10]

/-- `"_"`. -/
def cursorOn : CString := [95]

/-- `"\b \b"`. -/
def cursorOff : CString := [8, 32, 8]

/-- The size of `Line`. -/
def lineSize : ℕ := 128

/-- The variables of `_start`, with the indices of `Line` that were written. -/
structure InitState where
  line : ℕ → UInt8
  lineLen : U64
  promptShown : Bool
  cursorShown : Bool
  touched : List ℕ

namespace InitState

/-- The variables at the head of the loop. -/
def start (line : ℕ → UInt8) : InitState := ⟨line, 0, false, false, []⟩

/-- The text in `Line`. -/
def text (s : InitState) : CString := (List.range s.lineLen.toNat).map s.line

/-- Write to `Line`. -/
def setLine (s : InitState) (i : ℕ) (ch : UInt8) : InitState :=
  { s with line := Function.update s.line i ch, touched := s.touched ++ [i] }

/-- The part of a turn that shows the prompt. -/
def showPrompt (s : InitState) : InitState × List CString :=
  if s.lineLen = 0 ∧ s.promptShown = false then ({ s with promptShown := true }, [prompt])
  else (s, [])

/-- The part of a turn that shows the cursor. -/
def showCursor (s : InitState) : InitState × List CString :=
  if s.promptShown = true ∧ s.cursorShown = false then ({ s with cursorShown := true }, [cursorOn])
  else (s, [])

/-- The part of a turn that erases the cursor. -/
def hideCursor (s : InitState) : InitState × List CString :=
  if s.cursorShown = true then ({ s with cursorShown := false }, [cursorOff]) else (s, [])

/-- The part of a turn that handles a character. -/
def handle (s : InitState) (ch : UInt8) : InitState × List CString :=
  if ch = 13 ∨ ch = 10 then
    if s.lineLen ≠ 0 then
      let s := s.setLine s.lineLen.toNat 0
      ({ s with lineLen := 0, promptShown := false }, [newline, s.text, newline])
    else ({ s with lineLen := 0, promptShown := false }, [newline])
  else if (ch = 8 ∨ ch = 0x7F) ∧ 0 < s.lineLen.toNat then
    ({ s with lineLen := s.lineLen - 1 }, [cursorOff])
  else if (s.lineLen + 1).toNat < lineSize ∧ 0x20 ≤ ch ∧ ch ≤ 0x7E then
    let s := { s.setLine s.lineLen.toNat ch with lineLen := s.lineLen + 1 }
    let r := s.showCursor
    (r.1, [ch] :: r.2)
  else s.showCursor

end InitState

/-- A turn of the loop of `_start`, where `ch` is the character that `NkSysReadConsole` gave it, if
it gave one: the variables and the texts printed. -/
def initTurn (s : InitState) (ch : Option UInt8) : InitState × List CString :=
  let r₁ := s.showPrompt
  let r₂ := r₁.1.showCursor
  match ch with
  | none => (r₂.1, r₁.2 ++ r₂.2)
  | some ch =>
    let r₃ := r₂.1.hideCursor
    let r₄ := r₃.1.handle ch
    (r₄.1, r₁.2 ++ r₂.2 ++ r₃.2 ++ r₄.2)

/-! ## What the kernel does with a text -/

/-- `":mm.faults"`. -/
def debugMmFaults : CString := [58, 109, 109, 46, 102, 97, 117, 108, 116, 115]

/-- `":mm.dumpva "`. -/
def debugMmDumpva : CString := [58, 109, 109, 46, 100, 117, 109, 112, 118, 97, 32]

/-- `KipSysDebugPrint` takes the text for a command. -/
def isDebugCommand (text : CString) : Bool :=
  debugCommands.any (startsWithCommand text) || startsWithCommand text debugPanic ||
    kipStartsWith text debugMmFaults || kipStartsWith text debugMmDumpva

/-- `HalWriteDebugString`, without the serial port: the characters up to the end of the string go to
the screen. -/
def halWriteDebugString {σ : Type} (put : σ → UInt8 → σ) (screen : σ) (message : CString) : σ :=
  (message.takeWhile (· ≠ 0)).foldl put screen

/-- A screen, and the texts that were taken for commands. -/
structure Display (σ : Type) where
  screen : σ
  commands : List CString

/-- What a command writes, after the commands before it. -/
abbrev Response := List CString → CString → CString

/-- `KipSysDebugPrint`: the text is written to the screen, and then what its command writes. -/
def Display.print {σ : Type} (put : σ → UInt8 → σ) (response : Response) (d : Display σ)
    (text : CString) : Display σ :=
  let screen := halWriteDebugString put d.screen text
  if isDebugCommand text then
    ⟨halWriteDebugString put screen (response d.commands text), d.commands ++ [text]⟩
  else ⟨screen, d.commands⟩

/-- The program and what it has shown. -/
structure Session (σ : Type) where
  vars : InitState
  display : Display σ

namespace Session

variable {σ : Type} (put : σ → UInt8 → σ) (response : Response)

/-- The session at the head of the loop. -/
def start (line : ℕ → UInt8) (screen : σ) : Session σ :=
  ⟨.start line, [banner, hint].foldl (Display.print put response) ⟨screen, []⟩⟩

/-- A turn of the loop. -/
def turn (s : Session σ) (ch : Option UInt8) : Session σ :=
  let r := initTurn s.vars ch
  ⟨r.1, r.2.foldl (Display.print put response) s.display⟩

end Session

/-! ## What a character does to a line -/

/-- The line that is edited, and the lines that were ended. -/
structure Edited where
  line : CString
  ended : List CString

namespace Edited

/-- Type a character, if there is one. -/
def type (e : Edited) : Option UInt8 → Edited
  | none => e
  | some ch =>
    if ch = 13 ∨ ch = 10 then ⟨[], if e.line = [] then e.ended else e.ended ++ [e.line]⟩
    else if ch = 8 ∨ ch = 0x7F then { e with line := e.line.dropLast }
    else if e.line.length + 1 < lineSize ∧ 0x20 ≤ ch ∧ ch ≤ 0x7E then
      { e with line := e.line ++ [ch] }
    else e

end Edited

/-! ## The last row of the screen -/

/-- Behind the cursor the screen is blank. -/
structure BlankBehind (rows cols : ℕ) (t : Terminal) : Prop where
  x_le : t.x ≤ cols
  y_lt : t.y < rows
  right : ∀ col, t.x ≤ col → t.cells t.y col = none
  below : ∀ y, t.y < y → ∀ col, t.cells y col = none

/-- The row of the cursor shows a text, with the cursor behind it and nothing else. -/
structure RowShows (rows : ℕ) (t : Terminal) (text : CString) : Prop where
  x_eq : t.x = text.length
  y_lt : t.y < rows
  row : ∀ col, t.cells t.y col = text[col]?
  below : ∀ y, t.y < y → ∀ col, t.cells y col = none

/-- A character that is shown as it is. -/
def Printable (ch : UInt8) : Prop := 0x20 ≤ ch ∧ ch ≤ 0x7E

instance (ch : UInt8) : Decidable (Printable ch) := inferInstanceAs (Decidable (_ ∧ _))

/-- A text of such characters. -/
def PrintableText (text : CString) : Prop := ∀ ch ∈ text, Printable ch

instance (text : CString) : Decidable (PrintableText text) := List.decidableBAll _ text

section Rows

variable {rows cols : ℕ} {t : Terminal} {text : CString}

theorem RowShows.blankBehind (h : RowShows rows t text) (hlength : text.length ≤ cols) :
    BlankBehind rows cols t where
  x_le := h.x_eq ▸ hlength
  y_lt := h.y_lt
  right col hcol := by
    rw [h.row, List.getElem?_eq_none_iff]
    exact h.x_eq ▸ hcol
  below := h.below

theorem Printable.ne {ch : UInt8} (h : Printable ch) : ch ≠ 13 ∧ ch ≠ 10 ∧ ch ≠ 8 := by
  refine ⟨?_, ?_, ?_⟩ <;>
    · rintro rfl
      exact absurd h.1 (by decide)

theorem Printable.ne_zero {ch : UInt8} (h : Printable ch) : ch ≠ 0 := by
  rintro rfl
  exact absurd h.1 (by decide)

/-- A text that only goes forward on the screen. -/
def Forward (text : CString) : Prop := ∀ ch ∈ text, ch ≠ 8 ∧ ch ≠ 13

instance (text : CString) : Decidable (Forward text) := List.decidableBAll _ text

/-- A text without the end of a string. -/
def Unended (text : CString) : Prop := ∀ ch ∈ text, ch ≠ 0

instance (text : CString) : Decidable (Unended text) := List.decidableBAll _ text

/-- Such a text is written as it is. -/
theorem halWriteDebugString_eq {σ : Type} (put : σ → UInt8 → σ) (screen : σ) {message : CString}
    (hmessage : Unended message) :
    halWriteDebugString put screen message = message.foldl put screen := by
  have hall : message.takeWhile (· ≠ 0) = message := by
    rw [List.takeWhile_eq_self_iff]
    exact fun ch hch => decide_eq_true (hmessage ch hch)
  rw [halWriteDebugString, hall]

/-- A character goes behind the text. -/
theorem RowShows.put (h : RowShows rows t text) (hlength : text.length < cols) {ch : UInt8}
    (hch : Printable ch) : RowShows rows (t.put rows cols ch) (text ++ [ch]) := by
  obtain ⟨h13, h10, h8⟩ := hch.ne
  have hx : t.x ≠ cols := h.x_eq ▸ hlength.ne
  have hput : t.put rows cols ch =
      ⟨t.cells.set t.y t.x (some ch), t.x + 1, t.y⟩ := by
    rw [Terminal.put, if_neg h13, if_neg h10, if_neg h8, if_neg hx,
      if_pos (show 0x20 ≤ ch ∧ ch ≤ 0x7E from hch)]
    rfl
  rw [hput]
  refine ⟨?_, h.y_lt, fun col => ?_, fun y hy col => ?_⟩
  · rw [List.length_append, h.x_eq]
    rfl
  · dsimp only
    rw [Cells.set]
    by_cases hcol : col = t.x
    · rw [if_pos ⟨rfl, hcol⟩, hcol, h.x_eq, List.getElem?_concat_length]
    · rw [if_neg fun hboth => hcol hboth.2, h.row]
      rcases Nat.lt_or_gt_of_ne (h.x_eq ▸ hcol) with hlt | hgt
      · rw [List.getElem?_append_left hlt]
      · rw [List.getElem?_eq_none hgt.le, List.getElem?_eq_none]
        rw [List.length_append]
        exact hgt
  · dsimp only at hy ⊢
    rw [Cells.set, if_neg fun hboth => hy.ne' hboth.1]
    exact h.below y hy col

/-- A text goes behind the text. -/
theorem RowShows.puts (h : RowShows rows t text) {more : CString}
    (hlength : text.length + more.length ≤ cols) (hmore : PrintableText more) :
    RowShows rows (more.foldl (Terminal.put rows cols) t) (text ++ more) := by
  induction more generalizing t text with
  | nil =>
    rw [List.append_nil]
    exact h
  | cons ch more ih =>
    rw [List.length_cons] at hlength
    have hput : RowShows rows (t.put rows cols ch) (text ++ [ch]) :=
      h.put (by omega) (hmore ch List.mem_cons_self)
    have hrest := ih hput (by rw [List.length_append, List.length_singleton]; omega)
      fun c hc => hmore c (List.mem_cons_of_mem ch hc)
    rw [List.append_assoc, List.singleton_append] at hrest
    exact hrest

/-- The last character is erased. -/
theorem RowShows.backspace {ch : UInt8} (h : RowShows rows t (text ++ [ch])) :
    RowShows rows (t.put rows cols 8) text := by
  have hx : t.x = text.length + 1 := by
    rw [h.x_eq, List.length_append]
    rfl
  have hput : t.put rows cols 8 = ⟨t.cells.set t.y (t.x - 1) none, t.x - 1, t.y⟩ := by
    rw [Terminal.put, if_neg (by decide), if_neg (by decide), if_pos rfl, if_pos (by omega)]
    rfl
  rw [hput]
  refine ⟨by rw [hx]; rfl, h.y_lt, fun col => ?_, fun y hy col => ?_⟩
  · dsimp only
    rw [Cells.set, hx, Nat.add_sub_cancel]
    by_cases hcol : col = text.length
    · rw [if_pos ⟨rfl, hcol⟩, hcol, List.getElem?_eq_none le_rfl]
    · rw [if_neg fun hboth => hcol hboth.2, h.row]
      rcases Nat.lt_or_gt_of_ne hcol with hlt | hgt
      · rw [List.getElem?_append_left hlt]
      · rw [List.getElem?_eq_none hgt.le, List.getElem?_eq_none]
        rw [List.length_append]
        exact hgt
  · dsimp only at hy ⊢
    rw [Cells.set, if_neg fun hboth => hy.ne' hboth.1]
    exact h.below y hy col

/-- A cursor, or a character, is drawn over and taken back. -/
theorem RowShows.erase {ch : UInt8} (h : RowShows rows t (text ++ [ch]))
    (hlength : text.length < cols) :
    RowShows rows (cursorOff.foldl (Terminal.put rows cols) t) text := by
  have hback : RowShows rows (t.put rows cols 8) text := h.backspace
  have hspace : RowShows rows ((t.put rows cols 8).put rows cols 32) (text ++ [32]) :=
    hback.put hlength ⟨by decide, by decide⟩
  rw [cursorOff, List.foldl_cons, List.foldl_cons, List.foldl_cons, List.foldl_nil]
  exact hspace.backspace

/-- The next line starts blank. -/
theorem BlankBehind.nextLine (h : BlankBehind rows cols t) :
    RowShows rows (t.nextLine rows) [] := by
  have hy := h.y_lt
  rw [Terminal.nextLine]
  by_cases hlast : t.y + 1 < rows
  · rw [if_pos hlast]
    exact ⟨rfl, hlast, fun col => h.below _ (Nat.lt_succ_self _) col,
      fun y hy' col => h.below y (Nat.lt_of_succ_lt hy') col⟩
  · rw [if_neg hlast]
    have hnone : ∀ y, t.y ≤ y → ∀ col, t.cells.up rows y col = none := fun y hle col => by
      rw [Cells.up, if_neg (by omega)]
    exact ⟨rfl, h.y_lt, fun col => hnone _ le_rfl col, fun y hy' col => hnone y hy'.le col⟩

theorem BlankBehind.puts_newline (h : BlankBehind rows cols t) :
    RowShows rows (newline.foldl (Terminal.put rows cols) t) [] := by
  have hput : newline.foldl (Terminal.put rows cols) t = t.nextLine rows := by
    rw [newline, List.foldl_cons, List.foldl_nil, Terminal.put, if_neg (by decide), if_pos rfl]
  rw [hput]
  exact h.nextLine

/-- What does not go back leaves the screen blank behind the cursor. -/
theorem BlankBehind.put (h : BlankBehind rows cols t) {ch : UInt8} (h8 : ch ≠ 8) (h13 : ch ≠ 13)
    (hcols : 0 < cols) : BlankBehind rows cols (t.put rows cols ch) := by
  rw [Terminal.put, if_neg h13]
  by_cases h10 : ch = 10
  · rw [if_pos h10]
    exact h.nextLine.blankBehind (Nat.zero_le _)
  rw [if_neg h10, if_neg h8]
  have hset : ∀ u : Terminal, BlankBehind rows cols u → u.x < cols → ∀ c,
      BlankBehind rows cols { u.setCell (some c) with x := u.x + 1 } := by
    intro u hu hx c
    refine ⟨hx, hu.y_lt, fun col hcol => ?_, fun y hy col => ?_⟩
    · dsimp only [Terminal.setCell] at hcol ⊢
      rw [Cells.set, if_neg fun hboth => by omega]
      exact hu.right col (by omega)
    · dsimp only [Terminal.setCell] at hy ⊢
      rw [Cells.set, if_neg fun hboth => by omega]
      exact hu.below y hy col
  by_cases hx : t.x = cols
  · rw [if_pos hx]
    have hnext := h.nextLine
    exact hset _ (hnext.blankBehind (Nat.zero_le _)) (by rw [hnext.x_eq]; exact hcols) _
  · rw [if_neg hx]
    exact hset t h (lt_of_le_of_ne h.x_le hx) _

/-- The same for a text. -/
theorem BlankBehind.puts (h : BlankBehind rows cols t) {more : CString}
    (hmore : Forward more) (hcols : 0 < cols) :
    BlankBehind rows cols (more.foldl (Terminal.put rows cols) t) := by
  induction more generalizing t with
  | nil => exact h
  | cons ch more ih =>
    obtain ⟨h8, h13⟩ := hmore ch List.mem_cons_self
    exact ih (h.put h8 h13 hcols) fun c hc => hmore c (List.mem_cons_of_mem ch hc)

theorem BlankBehind.write (h : BlankBehind rows cols t) {message : CString}
    (hmessage : Forward message) (hcols : 0 < cols) :
    BlankBehind rows cols (halWriteDebugString (Terminal.put rows cols) t message) :=
  h.puts (fun ch hch => hmessage ch ((List.takeWhile_sublist _).subset hch)) hcols

end Rows

/-! ## The session -/

/-- The prompt and the line, if they are shown. -/
def promptRow (promptShown : Bool) (line : CString) : CString :=
  bif promptShown then prompt ++ line else []

/-- The cursor, if it is shown. -/
def cursorText (cursorShown : Bool) : CString := bif cursorShown then cursorOn else []

/-- The variables hold the edited line, and the screen shows it. -/
structure Shown (rows : ℕ) (e : Edited) (v : InitState) (d : Display Terminal) : Prop where
  lineLen : v.lineLen.toNat = e.line.length
  text : v.text = e.line
  length_lt : e.line.length < lineSize
  printable : PrintableText e.line
  /-- Nothing is written outside of `Line`. -/
  touched : ∀ i ∈ v.touched, i < lineSize
  fresh : v.promptShown = false → e.line = [] ∧ v.cursorShown = false
  row : RowShows rows d.screen (promptRow v.promptShown e.line ++ cursorText v.cursorShown)
  commands : d.commands = e.ended.filter isDebugCommand

theorem isDebugCommand_single (ch : UInt8) : isDebugCommand [ch] = false := by
  simp [isDebugCommand, startsWithCommand, kipStartsWith, debugCommands, debugPanic, debugMmFaults,
    debugMmDumpva, List.isPrefixOf]

section Shown

variable {rows cols : ℕ} (response : Response) {e : Edited} {v : InitState}
  {d : Display Terminal}

/-- A text that is no command is only written to the screen. -/
theorem print_plain (text : CString) (hzero : Unended text)
    (h : isDebugCommand text = false) :
    d.print (Terminal.put rows cols) response text =
      ⟨text.foldl (Terminal.put rows cols) d.screen, d.commands⟩ := by
  rw [Display.print, if_neg (by rw [h]; decide), halWriteDebugString_eq _ _ hzero]

namespace Shown

/-- The prompt, the line and the cursor fit on a row. -/
theorem length_promptRow (h : Shown rows e v d) :
    (promptRow v.promptShown e.line).length < 132 := by
  have hlt := h.length_lt
  have hsize : lineSize = 128 := rfl
  cases v.promptShown with
  | false => exact Nat.succ_pos _
  | true =>
    have hprompt : prompt.length = 4 := rfl
    rw [promptRow, cond_true, List.length_append]
    omega

/-- The row while the cursor is not shown. -/
theorem row_bare (h : Shown rows e v d) (hcursor : v.cursorShown = false) :
    RowShows rows d.screen (promptRow v.promptShown e.line) := by
  have hrow := h.row
  rw [hcursor, cursorText, cond_false, List.append_nil] at hrow
  exact hrow

theorem showPrompt (h : Shown rows e v d) (hcols : 132 ≤ cols) :
    Shown rows e v.showPrompt.1
        (v.showPrompt.2.foldl (Display.print (Terminal.put rows cols) response) d) ∧
      v.showPrompt.1.promptShown = true := by
  rw [InitState.showPrompt]
  by_cases hshow : v.lineLen = 0 ∧ v.promptShown = false
  · rw [if_pos hshow]
    obtain ⟨hline, hcursor⟩ := h.fresh hshow.2
    have hrow := h.row_bare hcursor
    rw [hshow.2] at hrow
    rw [List.foldl_cons, List.foldl_nil, print_plain response prompt (by decide) (by decide)]
    refine ⟨⟨h.lineLen, h.text, h.length_lt, h.printable, h.touched,
      fun hp => Bool.noConfusion hp, ?_, h.commands⟩, rfl⟩
    have hwidth : ([] : CString).length + prompt.length ≤ cols := le_trans (by decide) hcols
    have hprint : RowShows rows (prompt.foldl (Terminal.put rows cols) d.screen) ([] ++ prompt) :=
      RowShows.puts hrow hwidth (by decide)
    change RowShows rows _ (promptRow true e.line ++ cursorText v.cursorShown)
    rw [hline, hcursor]
    exact hprint
  · rw [if_neg hshow]
    refine ⟨h, ?_⟩
    by_contra hp
    rw [Bool.not_eq_true] at hp
    have hline := (h.fresh hp).1
    have hlen := h.lineLen
    rw [hline] at hlen
    exact hshow ⟨BitVec.eq_of_toNat_eq hlen, hp⟩

theorem showCursor (h : Shown rows e v d) (hcols : 132 ≤ cols) (hprompt : v.promptShown = true) :
    Shown rows e v.showCursor.1
        (v.showCursor.2.foldl (Display.print (Terminal.put rows cols) response) d) ∧
      v.showCursor.1.promptShown = true := by
  rw [InitState.showCursor]
  by_cases hcursor : v.cursorShown = false
  · rw [if_pos ⟨hprompt, hcursor⟩]
    have hrow := h.row_bare hcursor
    have hlt := h.length_promptRow
    rw [List.foldl_cons, List.foldl_nil, print_plain response cursorOn (by decide) (by decide)]
    refine ⟨⟨h.lineLen, h.text, h.length_lt, h.printable, h.touched,
      fun hp => absurd (hprompt.symm.trans hp) (by decide), ?_, h.commands⟩, hprompt⟩
    exact hrow.puts (by rw [show cursorOn.length = 1 from rfl]; omega) (by decide)
  · rw [if_neg fun hboth => hcursor hboth.2]
    exact ⟨h, hprompt⟩

theorem hideCursor (h : Shown rows e v d) (hcols : 132 ≤ cols) (hprompt : v.promptShown = true) :
    Shown rows e v.hideCursor.1
        (v.hideCursor.2.foldl (Display.print (Terminal.put rows cols) response) d) ∧
      v.hideCursor.1.promptShown = true ∧ v.hideCursor.1.cursorShown = false := by
  rw [InitState.hideCursor]
  by_cases hcursor : v.cursorShown = true
  · rw [if_pos hcursor]
    have hrow := h.row
    rw [hcursor] at hrow
    have hlt := h.length_promptRow
    rw [List.foldl_cons, List.foldl_nil, print_plain response cursorOff (by decide) (by decide)]
    refine ⟨⟨h.lineLen, h.text, h.length_lt, h.printable, h.touched,
      fun hp => absurd (hprompt.symm.trans hp) (by decide), ?_, h.commands⟩, hprompt, rfl⟩
    have hwidth : (promptRow v.promptShown e.line).length < cols := by omega
    change RowShows rows _ (promptRow v.promptShown e.line ++ [])
    rw [List.append_nil]
    exact RowShows.erase hrow hwidth
  · rw [if_neg hcursor]
    exact ⟨h, hprompt, Bool.eq_false_iff.2 hcursor⟩

/-- A character at the end of the line. -/
theorem append (h : Shown rows e v d) (hcols : 132 ≤ cols) (hprompt : v.promptShown = true)
    (hcursor : v.cursorShown = false) {ch : UInt8} (hlt : e.line.length + 1 < lineSize)
    (hch : Printable ch) :
    Shown rows { e with line := e.line ++ [ch] }
      { v.setLine v.lineLen.toNat ch with lineLen := v.lineLen + 1 }
      (d.print (Terminal.put rows cols) response [ch]) := by
  have hsize : lineSize = 128 := rfl
  have hlen := h.lineLen
  have hnext : (v.lineLen + 1).toNat = e.line.length + 1 := by
    rw [← hlen] at hlt ⊢
    bv_omega
  have hrow := h.row_bare hcursor
  rw [hprompt] at hrow
  have hwidth : (prompt ++ e.line).length < cols := by
    rw [List.length_append, show prompt.length = 4 from rfl]
    omega
  rw [print_plain response [ch] (fun c hc => List.mem_singleton.1 hc ▸ hch.ne_zero)
    (isDebugCommand_single ch)]
  refine ⟨?_, ?_, ?_, ?_, ?_, fun hp => absurd (hprompt.symm.trans hp) (by decide), ?_,
    h.commands⟩
  · change (v.lineLen + 1).toNat = (e.line ++ [ch]).length
    rw [List.length_append]
    exact hnext
  · have hlast : Function.update v.line e.line.length ch e.line.length = ch :=
      Function.update_self _ _ _
    have hbefore : (List.range e.line.length).map (Function.update v.line e.line.length ch) =
        (List.range e.line.length).map v.line :=
      List.map_congr_left fun i hi => Function.update_of_ne (List.mem_range.1 hi).ne _ _
    have htext := h.text
    rw [InitState.text, hlen] at htext
    change (List.range (v.lineLen + 1).toNat).map (Function.update v.line v.lineLen.toNat ch) = _
    rw [hnext, hlen, List.range_succ, List.map_append, List.map_singleton, hlast, hbefore, htext]
  · change (e.line ++ [ch]).length < lineSize
    rw [List.length_append]
    exact hlt
  · intro c hc
    rcases List.mem_append.1 hc with hc | hc
    · exact h.printable c hc
    · rw [List.mem_singleton.1 hc]
      exact hch
  · intro i hi
    rcases List.mem_append.1 hi with hi | hi
    · exact h.touched i hi
    · rw [List.mem_singleton.1 hi, hlen]
      omega
  · have hput : RowShows rows ([ch].foldl (Terminal.put rows cols) d.screen)
        (prompt ++ e.line ++ [ch]) := RowShows.put hrow hwidth hch
    change RowShows rows _ (promptRow v.promptShown (e.line ++ [ch]) ++ cursorText v.cursorShown)
    rw [hprompt, hcursor, promptRow, cond_true, cursorText, cond_false, List.append_nil,
      ← List.append_assoc]
    exact hput

/-- The last character of the line goes. -/
theorem dropLast (h : Shown rows e v d) (hcols : 132 ≤ cols) (hprompt : v.promptShown = true)
    (hcursor : v.cursorShown = false) (hpos : 0 < v.lineLen.toNat) :
    Shown rows { e with line := e.line.dropLast } { v with lineLen := v.lineLen - 1 }
      (d.print (Terminal.put rows cols) response cursorOff) := by
  have hlen := h.lineLen
  have hlt := h.length_lt
  have hsize : lineSize = 128 := rfl
  have hnext : (v.lineLen - 1).toNat = e.line.length - 1 := by
    rw [← hlen]
    bv_omega
  obtain ⟨line, ch, hline⟩ : ∃ line ch, e.line = line ++ [ch] := by
    have hne : e.line ≠ [] := by
      intro hnil
      rw [hlen, hnil] at hpos
      exact Nat.lt_irrefl _ hpos
    exact ⟨_, _, (List.dropLast_append_getLast hne).symm⟩
  have hrow := h.row_bare hcursor
  rw [hprompt, promptRow, cond_true, hline, ← List.append_assoc] at hrow
  have hwidth : (prompt ++ line).length < cols := by
    rw [hline, List.length_append, List.length_singleton] at hlt
    rw [List.length_append, show prompt.length = 4 from rfl]
    omega
  rw [print_plain response cursorOff (by decide) (by decide)]
  refine ⟨?_, ?_, ?_, ?_, h.touched, fun hp => absurd (hprompt.symm.trans hp) (by decide), ?_,
    h.commands⟩
  · change (v.lineLen - 1).toNat = e.line.dropLast.length
    rw [List.length_dropLast]
    exact hnext
  · have htext := h.text
    rw [InitState.text, hlen, hline, List.length_append, List.length_singleton, List.range_succ,
      List.map_append, List.map_singleton] at htext
    change (List.range (v.lineLen - 1).toNat).map v.line = e.line.dropLast
    rw [hnext, hline, List.length_append, List.length_singleton, Nat.add_sub_cancel,
      List.dropLast_concat]
    exact (List.append_inj' htext rfl).1
  · change e.line.dropLast.length < lineSize
    rw [List.length_dropLast]
    omega
  · intro c hc
    exact h.printable c (List.mem_of_mem_dropLast hc)
  · change RowShows rows _ (promptRow v.promptShown e.line.dropLast ++ cursorText v.cursorShown)
    rw [hprompt, hcursor, promptRow, cond_true, cursorText, cond_false, List.append_nil, hline,
      List.dropLast_concat]
    exact RowShows.erase hrow hwidth

/-- The line is ended, and shown again with what its command writes. -/
theorem endLine (h : Shown rows e v d) (hcols : 132 ≤ cols)
    (hresponse : ∀ before text, Forward (response before text)) (hcursor : v.cursorShown = false)
    {ch : UInt8} (hch : ch = 13 ∨ ch = 10) :
    Shown rows (e.type (some ch)) (v.handle ch).1
      ((v.handle ch).2.foldl (Display.print (Terminal.put rows cols) response) d) := by
  have hsize : lineSize = 128 := rfl
  have hpos : 0 < cols := by omega
  have hwidth := h.length_promptRow
  have hrow := h.row_bare hcursor
  have hnew : RowShows rows (newline.foldl (Terminal.put rows cols) d.screen) [] :=
    (hrow.blankBehind (by omega)).puts_newline
  have hempty : ∀ (s : InitState) (d : Display Terminal) (ended : List CString),
      RowShows rows d.screen [] → (∀ i ∈ s.touched, i < lineSize) → s.cursorShown = false →
        d.commands = ended.filter isDebugCommand →
          Shown rows ⟨[], ended⟩ { s with lineLen := 0, promptShown := false } d := by
    intro s d ended hscreen htouched hs hcommands
    refine ⟨rfl, rfl, Nat.succ_pos 127, fun c hc => absurd hc List.not_mem_nil, htouched,
      fun _ => ⟨rfl, hs⟩, ?_, hcommands⟩
    change RowShows rows _ (promptRow false [] ++ cursorText s.cursorShown)
    rw [hs]
    exact hscreen
  have htype : e.type (some ch) = ⟨[], if e.line = [] then e.ended else e.ended ++ [e.line]⟩ := by
    rw [Edited.type, if_pos hch]
  rw [htype, InitState.handle, if_pos hch]
  by_cases hline : e.line = []
  · have hzero : ¬v.lineLen ≠ 0 := by
      refine not_not.2 (BitVec.eq_of_toNat_eq ?_)
      rw [h.lineLen, hline]
      rfl
    rw [if_pos hline, if_neg hzero, List.foldl_cons, List.foldl_nil,
      print_plain response newline (by decide) (by decide)]
    exact hempty v _ _ hnew h.touched hcursor h.commands
  have hne : v.lineLen ≠ 0 := by
    intro hzero
    refine hline (List.eq_nil_of_length_eq_zero ?_)
    rw [← h.lineLen, hzero]
    rfl
  have htext : (v.setLine v.lineLen.toNat 0).text = e.line := by
    rw [← h.text, InitState.text, InitState.text]
    refine List.map_congr_left fun i hi => Function.update_of_ne ?_ _ _
    exact (List.mem_range.1 hi).ne
  rw [if_neg hline, if_pos hne]
  dsimp only
  rw [htext, List.foldl_cons, List.foldl_cons, List.foldl_cons, List.foldl_nil,
    print_plain response newline (by decide) (by decide),
    print_plain response newline (by decide) (by decide)]
  have htouched : ∀ i ∈ (v.setLine v.lineLen.toNat 0).touched, i < lineSize := by
    intro i hi
    rcases List.mem_append.1 hi with hi | hi
    · exact h.touched i hi
    · rw [List.mem_singleton.1 hi, h.lineLen]
      exact h.length_lt
  have hblank : BlankBehind rows cols (newline.foldl (Terminal.put rows cols) d.screen) :=
    hnew.blankBehind (Nat.zero_le _)
  have hplain : Forward e.line := fun c hc =>
    ⟨(h.printable c hc).ne.2.2, (h.printable c hc).ne.1⟩
  have hwritten : ∀ d : Display Terminal, BlankBehind rows cols d.screen →
      BlankBehind rows cols (d.print (Terminal.put rows cols) response e.line).screen := by
    intro d hd
    rw [Display.print]
    split
    · exact (hd.write hplain hpos).write (hresponse _ e.line) hpos
    · exact hd.write hplain hpos
  refine hempty _ _ _ (hwritten _ hblank).puts_newline htouched hcursor ?_
  rw [List.filter_append, ← h.commands, Display.print]
  dsimp only
  by_cases hcommand : isDebugCommand e.line = true
  · rw [if_pos hcommand, List.filter_cons_of_pos hcommand, List.filter_nil]
  · rw [if_neg hcommand, List.filter_cons_of_neg hcommand, List.filter_nil, List.append_nil]

/-- What is done with a character. -/
theorem handle (h : Shown rows e v d) (hcols : 132 ≤ cols)
    (hresponse : ∀ before text, Forward (response before text))
    (hprompt : v.promptShown = true) (hcursor : v.cursorShown = false) (ch : UInt8) :
    Shown rows (e.type (some ch)) (v.handle ch).1
      ((v.handle ch).2.foldl (Display.print (Terminal.put rows cols) response) d) := by
  by_cases hend : ch = 13 ∨ ch = 10
  · exact h.endLine response hcols hresponse hcursor hend
  have hlen := h.lineLen
  have hlt := h.length_lt
  have hsize : lineSize = 128 := rfl
  have hnext : (v.lineLen + 1).toNat = e.line.length + 1 := by
    rw [← hlen] at hlt ⊢
    bv_omega
  have htype : e.type (some ch) =
      if ch = 8 ∨ ch = 0x7F then { e with line := e.line.dropLast }
      else if e.line.length + 1 < lineSize ∧ 0x20 ≤ ch ∧ ch ≤ 0x7E then
        { e with line := e.line ++ [ch] }
      else e := by
    rw [Edited.type, if_neg hend]
  rw [htype, InitState.handle, if_neg hend]
  by_cases hback : ch = 8 ∨ ch = 0x7F
  · rw [if_pos hback]
    by_cases hpos : 0 < v.lineLen.toNat
    · rw [if_pos ⟨hback, hpos⟩]
      exact h.dropLast response hcols hprompt hcursor hpos
    · -- there is nothing to take back, and neither key is printable
      have hline : e.line = [] := List.eq_nil_of_length_eq_zero (by omega)
      have hnot : ¬((v.lineLen + 1).toNat < lineSize ∧ 0x20 ≤ ch ∧ ch ≤ 0x7E) := by
        rcases hback with rfl | rfl
        · exact fun hall => absurd hall.2.1 (by decide)
        · exact fun hall => absurd hall.2.2 (by decide)
      have hsame : ({ e with line := e.line.dropLast } : Edited) = e := by
        rw [hline]
        exact congrArg (Edited.mk · e.ended) hline.symm
      rw [if_neg fun hboth => hpos hboth.2, if_neg hnot, hsame]
      exact (h.showCursor response hcols hprompt).1
  rw [if_neg hback]
  have hnot : ¬((ch = 8 ∨ ch = 0x7F) ∧ 0 < v.lineLen.toNat) := fun hboth => hback hboth.1
  rw [if_neg hnot, hnext]
  by_cases happend : e.line.length + 1 < lineSize ∧ 0x20 ≤ ch ∧ ch ≤ 0x7E
  · rw [if_pos happend, if_pos happend]
    have happended := h.append response hcols hprompt hcursor happend.1 happend.2
    exact (happended.showCursor response hcols hprompt).1
  · rw [if_neg happend, if_neg happend]
    exact (h.showCursor response hcols hprompt).1

/-- A turn of the loop. -/
theorem turn {s : Session Terminal} (h : Shown rows e s.vars s.display) (hcols : 132 ≤ cols)
    (hresponse : ∀ before text, Forward (response before text)) (ch : Option UInt8) :
    Shown rows (e.type ch) (s.turn (Terminal.put rows cols) response ch).vars
      (s.turn (Terminal.put rows cols) response ch).display := by
  obtain ⟨h₁, hprompt₁⟩ := h.showPrompt response hcols
  obtain ⟨h₂, hprompt₂⟩ := h₁.showCursor response hcols hprompt₁
  cases ch with
  | none =>
    dsimp only [Session.turn, initTurn]
    rw [List.foldl_append]
    exact h₂
  | some ch =>
    obtain ⟨h₃, hprompt₃, hcursor₃⟩ := h₂.hideCursor response hcols hprompt₂
    have h₄ := h₃.handle response hcols hresponse hprompt₃ hcursor₃ ch
    dsimp only [Session.turn, initTurn]
    rw [List.foldl_append, List.foldl_append, List.foldl_append]
    exact h₄

end Shown

/-- The session at the head of the loop. -/
theorem Shown.start (hcols : 0 < cols) (line : ℕ → UInt8) {screen : Terminal}
    (hscreen : BlankBehind rows cols screen) :
    Shown rows ⟨[], []⟩ (Session.start (Terminal.put rows cols) response line screen).vars
      (Session.start (Terminal.put rows cols) response line screen).display := by
  have hbanner : BlankBehind rows cols (banner.foldl (Terminal.put rows cols) screen) :=
    hscreen.puts (by decide) hcols
  -- the hint is a text without newline, and the newline
  obtain ⟨text, htext, hplain⟩ : ∃ text, hint = text ++ newline ∧ Forward text :=
    ⟨hint.dropLast, by decide, by decide⟩
  have hhint : RowShows rows
      (hint.foldl (Terminal.put rows cols) (banner.foldl (Terminal.put rows cols) screen)) [] := by
    rw [htext, List.foldl_append]
    exact (hbanner.puts hplain hcols).puts_newline
  have hdisplay : (Session.start (Terminal.put rows cols) response line screen).display =
      ⟨hint.foldl (Terminal.put rows cols) (banner.foldl (Terminal.put rows cols) screen), []⟩ := by
    rw [Session.start, List.foldl_cons, List.foldl_cons, List.foldl_nil,
      print_plain response banner (by decide) (by decide),
      print_plain response hint (by decide) (by decide)]
  rw [hdisplay]
  exact ⟨rfl, rfl, Nat.succ_pos 127, fun c hc => absurd hc List.not_mem_nil,
    fun i hi => absurd hi List.not_mem_nil, fun _ => ⟨rfl, rfl⟩, hhint, rfl⟩

/-- The turns of a session. -/
theorem Shown.turns {s : Session Terminal} (h : Shown rows e s.vars s.display) (hcols : 132 ≤ cols)
    (hresponse : ∀ before text, Forward (response before text)) (chars : List (Option UInt8)) :
    Shown rows (chars.foldl Edited.type e)
      (chars.foldl (Session.turn (Terminal.put rows cols) response) s).vars
      (chars.foldl (Session.turn (Terminal.put rows cols) response) s).display := by
  induction chars generalizing e s with
  | nil => exact h
  | cons ch chars ih => exact ih (h.turn response hcols hresponse ch)

end Shown

/-! ## The screen of the console -/

/-- The console and the terminal show the same, and the same texts were taken for commands. -/
structure Alike (dc : Display Console) (dt : Display Terminal) (mode : FbMode) : Prop where
  shows : Shows dc.screen dt.screen
  commands : dc.commands = dt.commands
  mode_eq : dc.screen.mode = mode

section Alike

variable {mode : FbMode} {dc : Display Console} {dt : Display Terminal}

theorem Shows.write {c : Console} {t : Terminal} (h : Shows c t) (message : CString) :
    Shows (halWriteDebugString halpFbPutChar c message)
      (halWriteDebugString (Terminal.put c.mode.rows.toNat c.mode.cols.toNat) t message) :=
  h.foldl_putChar _

theorem Alike.print (h : Alike dc dt mode) (response : Response) (text : CString) :
    Alike (dc.print halpFbPutChar response text)
      (dt.print (Terminal.put mode.rows.toNat mode.cols.toNat) response text) mode := by
  have hmode : ∀ (c : Console) (message : CString),
      (halWriteDebugString halpFbPutChar c message).mode = c.mode := fun c message =>
    mode_foldl_putChar c _
  have hwrite := Shows.write h.shows text
  rw [h.mode_eq] at hwrite
  rw [Display.print, Display.print]
  split
  · have hresponse := Shows.write hwrite (response dc.commands text)
    rw [hmode, h.mode_eq] at hresponse
    rw [← h.commands]
    exact ⟨hresponse, rfl, by rw [hmode, hmode, h.mode_eq]⟩
  · exact ⟨hwrite, h.commands, by rw [hmode, h.mode_eq]⟩

theorem Alike.prints (h : Alike dc dt mode) (response : Response) (texts : List CString) :
    Alike (texts.foldl (Display.print halpFbPutChar response) dc)
      (texts.foldl (Display.print (Terminal.put mode.rows.toNat mode.cols.toNat) response) dt)
      mode := by
  induction texts generalizing dc dt with
  | nil => exact h
  | cons text texts ih => exact ih (h.print response text)

/-- The turns of a session on the console are those on the terminal. -/
theorem Alike.turns {sc : Session Console} {st : Session Terminal}
    (h : Alike sc.display st.display mode) (response : Response)
    (chars : List (Option UInt8)) (hvars : sc.vars = st.vars) :
    (chars.foldl (Session.turn halpFbPutChar response) sc).vars =
        (chars.foldl (Session.turn (Terminal.put mode.rows.toNat mode.cols.toNat) response)
          st).vars ∧
      Alike (chars.foldl (Session.turn halpFbPutChar response) sc).display
        (chars.foldl (Session.turn (Terminal.put mode.rows.toNat mode.cols.toNat) response)
          st).display mode := by
  induction chars generalizing sc st with
  | nil => exact ⟨hvars, h⟩
  | cons ch chars ih =>
    have hturn : initTurn sc.vars ch = initTurn st.vars ch := by rw [hvars]
    refine ih ?_ (congrArg Prod.fst hturn)
    have hprints := h.prints response (initTurn sc.vars ch).2
    rw [Session.turn, Session.turn, ← hturn]
    exact hprints

end Alike

/-- A session on the console, after it was initialized and the kernel wrote `log` to it. -/
def consoleSession (video : BootVideoInfo) (fb : U32 → U32) (log : CString)
    (response : Response) (line : ℕ → UInt8) (chars : List (Option UInt8)) :
    Session Console :=
  chars.foldl (Session.turn halpFbPutChar response)
    (Session.start halpFbPutChar response line
      (log.foldl halpFbPutChar (halpInitializeFramebuffer (some video) (.zero fb))))

/-- Whatever is typed, the variables of the program hold the edited line, nothing is written outside
of its array, the screen shows the prompt, the line and the cursor in the row of the cursor and
nothing else there or below, and the texts that were taken for commands are the lines that were
ended, in order, of those that are commands. -/
theorem init_shows_line (video : BootVideoInfo) (fb : U32 → U32) (h : video.Assumed fb)
    (hcols : 132 ≤ video.width.toNat / 9) (log : CString) (hlog : Forward log)
    (response : Response)
    (hresponse : ∀ before text, Forward (response before text)) (line : ℕ → UInt8)
    (chars : List (Option UInt8)) :
    ∃ t, IsTerminal (consoleSession video fb log response line chars).display.screen video t ∧
      Shown (video.height.toNat / 16) (chars.foldl Edited.type ⟨[], []⟩)
        (consoleSession video fb log response line chars).vars
        ⟨t, (consoleSession video fb log response line chars).display.commands⟩ := by
  have hinit := shows_initialize h
  obtain ⟨-, -, heq⟩ := initialize_cases h.accepted
  have hmode : (halpInitializeFramebuffer (some video) (.zero fb)).mode = video.mode true := by
    rw [heq]
    rfl
  have hwidth : (video.mode true).cols.toNat = video.width.toNat / 9 := BitVec.toNat_udiv
  have hheight : (video.mode true).rows.toNat = video.height.toNat / 16 := BitVec.toNat_udiv
  have hlogged := hinit.foldl_putChar log
  have hpos : 0 < video.width.toNat / 9 := by omega
  have hblank : BlankBehind (video.height.toNat / 16) (video.width.toNat / 9) .blank :=
    ⟨Nat.zero_le _, hheight ▸ hmode ▸ hinit.grid.rows_pos, fun _ _ => rfl, fun _ _ _ => rfl⟩
  rw [hmode] at hlogged
  let console := log.foldl halpFbPutChar (halpInitializeFramebuffer (some video) (.zero fb))
  let put := Terminal.put (video.mode true).rows.toNat (video.mode true).cols.toNat
  have halike : Alike ⟨console, []⟩ ⟨log.foldl put .blank, []⟩ (video.mode true) :=
    ⟨hlogged, rfl, (mode_foldl_putChar _ log).trans hmode⟩
  have hstart : Alike (Session.start halpFbPutChar response line console).display
      (Session.start put response line (log.foldl put .blank)).display (video.mode true) := by
    rw [Session.start, Session.start]
    exact halike.prints response [banner, hint]
  obtain ⟨hvars, hend⟩ := hstart.turns response chars (by rw [Session.start, Session.start])
  rw [hwidth, hheight] at hvars hend
  have hshown := (Shown.start response hpos line (hblank.puts hlog hpos)).turns response hcols
    hresponse chars
  refine ⟨_, hend.shows.isTerminal hend.mode_eq, ?_⟩
  rw [consoleSession, hvars, hend.commands]
  exact hshown

/-- A screen of 1280 by 800 pixels. -/
def wideVideo : BootVideoInfo := ⟨0x1000, 1280, 800, 1280⟩

/-- A line with a character taken back. -/
theorem init_shows_line_sample :
    ∃ t, IsTerminal (consoleSession wideVideo (fun _ => 0) [] (fun _ _ => []) (fun _ => 0)
        [some 104, none, some 105, some 8, some 101]).display.screen wideVideo t ∧
      Shown (wideVideo.height.toNat / 16)
        (([some 104, none, some 105, some 8, some 101] : List (Option UInt8)).foldl Edited.type
          ⟨[], []⟩)
        (consoleSession wideVideo (fun _ => 0) [] (fun _ _ => []) (fun _ => 0)
          [some 104, none, some 105, some 8, some 101]).vars
        ⟨t, (consoleSession wideVideo (fun _ => 0) [] (fun _ _ => []) (fun _ => 0)
          [some 104, none, some 105, some 8, some 101]).display.commands⟩ :=
  init_shows_line wideVideo (fun _ => 0) ⟨rfl, by decide, by decide, by decide⟩ (by decide) []
    (fun _ hch => absurd hch List.not_mem_nil) (fun _ _ => [])
    (fun _ _ _ hch => absurd hch List.not_mem_nil) (fun _ => 0) _

end NtxKernel.User
