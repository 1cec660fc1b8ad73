import Mathlib.Data.Fintype.Basic
import NtxKernel.Basic
import NtxKernel.Foundations.Run

/-!
# The keyboard

`HalpPs2TryReadChar` of `hal/aur64/hal_aur64.c`, which turns the bytes of a PS/2 keyboard into
characters.

* `keyEvents` parses a stream of bytes: the prefix `E0`, and the codes with and without it. The
  byte `E1` is a code like the others.
* `Tracks` says what the flags of the driver are after a stream, and `keyChar` what character a
  code stands for.
* `keyboard_right_iff`: a run of the driver has the flags and the characters right at every step
  iff no code behind the prefix is taken for a shift key that changes, or for CapsLock.

The fake shifts of a keyboard are such codes.
-/

namespace NtxKernel.Hal

open Foundations

/-! ## The driver -/

/-- `gHalPs2Map`. The entries that are not listed are zero. -/
def halPs2Map : List UInt8 :=
  [
    0, 0, 49, 50, 51, 52, 53, 54, 55, 56, 57, 48, 45, 61, 8, 9,
    113, 119, 101, 114, 116, 121, 117, 105, 111, 112, 91, 93, 10, 0, 97, 115,
    100, 102, 103, 104, 106, 107, 108, 59, 39, 96, 0, 92, 122, 120, 99, 118,
    98, 110, 109, 44, 46, 47, 0, 42, 0, 32, 0, 0, 0, 0, 0, 0,
    0, 0, 0, 0, 0, 0, 0, 55, 56, 57, 45, 52, 53, 54, 43, 49,
    50, 51, 48, 46, 0, 0, 0, 0, 0, 0, 0, 0, 0, 0, 0, 0,
    0, 0, 0, 0, 0, 0, 0, 0, 0, 0, 0, 0, 0, 0, 0, 0,
    0, 0, 0, 0, 0, 0, 0, 0]

/-- `gHalPs2MapShift`. -/
def halPs2MapShift : List UInt8 :=
  [
    0, 0, 33, 64, 35, 36, 37, 94, 38, 42, 40, 41, 95, 43, 8, 9,
    81, 87, 69, 82, 84, 89, 85, 73, 79, 80, 123, 125, 10, 0, 65, 83,
    68, 70, 71, 72, 74, 75, 76, 58, 34, 126, 0, 124, 90, 88, 67, 86,
    66, 78, 77, 60, 62, 63, 0, 42, 0, 32, 0, 0, 0, 0, 0, 0,
    0, 0, 0, 0, 0, 0, 0, 55, 56, 57, 45, 52, 53, 54, 43, 49,
    50, 51, 48, 46, 0, 0, 0, 0, 0, 0, 0, 0, 0, 0, 0, 0,
    0, 0, 0, 0, 0, 0, 0, 0, 0, 0, 0, 0, 0, 0, 0, 0,
    0, 0, 0, 0, 0, 0, 0, 0]

/-- The flags `gHalPs2ShiftLeft`, `gHalPs2ShiftRight`, `gHalPs2CapsLock` and `gHalPs2Extended`. -/
structure Ps2State where
  shiftLeft : Bool
  shiftRight : Bool
  capsLock : Bool
  extended : Bool
  deriving DecidableEq

/-- The flags at the start. -/
def Ps2State.initial : Ps2State := ⟨false, false, false, false⟩

/-- What a call of the driver finds: whether `OutChar` is not null, and the two ports of the
keyboard. -/
structure Ps2Poll where
  outChar : Bool
  status : UInt8
  data : UInt8

/-- What CapsLock does to the character of a key, if the code of the key is in the ranges of the
letters. -/
def applyCapsLock (code ch : UInt8) (capsLock shifted : Bool) : UInt8 :=
  let isLetter := (0x10 ≤ code ∧ code ≤ 0x19) ∨ (0x1E ≤ code ∧ code ≤ 0x26) ∨
    (0x2C ≤ code ∧ code ≤ 0x32)
  if isLetter ∧ capsLock = true ∧ shifted = false then
    if 97 ≤ ch ∧ ch ≤ 122 then ch - 97 + 65 else ch
  else if isLetter ∧ capsLock = true ∧ shifted = true then
    if 65 ≤ ch ∧ ch ≤ 90 then ch - 65 + 97 else ch
  else ch

/-- The part of `HalpPs2TryReadChar` behind the read of the data port. -/
def halpPs2Byte (s : Ps2State) (scanCode : UInt8) : Ps2State × Option UInt8 :=
  if scanCode = 0xE0 then ({ s with extended := true }, none)
  else if scanCode = 0xE1 then ({ s with extended := false }, none)
  else
    let isBreak := decide (scanCode &&& 0x80 ≠ 0)
    let code := scanCode &&& 0x7F
    if code = 0x2A then ({ s with shiftLeft := !isBreak, extended := false }, none)
    else if code = 0x36 then ({ s with shiftRight := !isBreak, extended := false }, none)
    else if code = 0x3A ∧ isBreak = false then
      ({ s with capsLock := !s.capsLock, extended := false }, none)
    else if isBreak = true then ({ s with extended := false }, none)
    else if s.extended = true then
      ({ s with extended := false }, if code = 0x1C then some 10 else none)
    else
      let shifted := s.shiftLeft || s.shiftRight
      let ch := if shifted = true then halPs2MapShift.getD code.toNat 0
        else halPs2Map.getD code.toNat 0
      if ch = 0 then (s, none) else (s, some (applyCapsLock code ch s.capsLock shifted))

/-- The byte that a call is delivered. -/
def Ps2Poll.delivered (p : Ps2Poll) : Option UInt8 :=
  if p.outChar = false then none else if p.status &&& 0x01 = 0 then none else some p.data

/-- `HalpPs2TryReadChar`. -/
def halpPs2TryReadChar (s : Ps2State) (p : Ps2Poll) : Ps2State × Option UInt8 :=
  match p.delivered with
  | none => (s, none)
  | some scanCode => halpPs2Byte s scanCode

/-! ## Streams of codes -/

/-- A code without or with the prefix. -/
inductive KeyEvent
  | plain (code : UInt8)
  | extended (code : UInt8)
  deriving DecidableEq

/-- The event of a byte that is not the prefix. -/
def keyEvent (pending : Bool) (b : UInt8) : KeyEvent := if pending then .extended b else .plain b

/-- The codes of a stream, which starts behind a prefix or not. -/
def keyEvents : Bool → List UInt8 → List KeyEvent
  | _, [] => []
  | pending, b :: l =>
    if b = 0xE0 then keyEvents true l else keyEvent pending b :: keyEvents false l

/-- The stream ends with the prefix of a code to come. -/
def endsInPrefix : Bool → List UInt8 → Bool
  | pending, [] => pending
  | _, b :: l => endsInPrefix (decide (b = 0xE0)) l

/-- The event is a make or a break of the key, without the prefix. -/
def KeyEvent.ofKey (key : UInt8) (e : KeyEvent) : Bool :=
  decide (e = .plain key ∨ e = .plain (key ||| 0x80))

/-- The last event of the key is a make. -/
def LastIsMake (key : UInt8) (events : List KeyEvent) : Prop :=
  (events.filter (KeyEvent.ofKey key)).getLast? = some (.plain key)

/-- The flags are those that a stream leads to. -/
structure Tracks (bytes : List UInt8) (s : Ps2State) : Prop where
  shiftLeft : s.shiftLeft = true ↔ LastIsMake 0x2A (keyEvents false bytes)
  shiftRight : s.shiftRight = true ↔ LastIsMake 0x36 (keyEvents false bytes)
  capsLock : s.capsLock = true ↔ (keyEvents false bytes).count (.plain 0x3A) % 2 = 1
  extended : s.extended = endsInPrefix false bytes

/-- The character of a key: its entry in the map of the shift state, which CapsLock changes for the
keys with a letter. A key without an entry has none. -/
def keyChar (code : UInt8) (shifted capsLock : Bool) : Option UInt8 :=
  let lower := halPs2Map.getD code.toNat 0
  let isLetter := decide (97 ≤ lower ∧ lower ≤ 122)
  let upper := if isLetter then shifted != capsLock else shifted
  let ch := if upper then halPs2MapShift.getD code.toNat 0 else lower
  if ch = 0 then none else some ch

/-- The character of an event: that of the key for a make without the prefix, and a line feed for
the keypad Enter. -/
def eventChar (s : Ps2State) : KeyEvent → Option UInt8
  | .plain code =>
    if code < 0x80 then keyChar code (s.shiftLeft || s.shiftRight) s.capsLock else none
  | .extended code => if code = 0x1C then some 10 else none

/-! ## One byte -/

/-- The flags after a code, with or without the prefix. -/
def Ps2State.after (s : Ps2State) (code : UInt8) : Ps2State where
  shiftLeft := if code = 0x2A then true else if code = 0xAA then false else s.shiftLeft
  shiftRight := if code = 0x36 then true else if code = 0xB6 then false else s.shiftRight
  capsLock := if code = 0x3A then !s.capsLock else s.capsLock
  extended := false

/-- All codes in all states of the flags. -/
theorem halpPs2Byte_table : ∀ (code : Fin 256) (l r c e : Bool), code.val ≠ 0xE0 →
    halpPs2Byte ⟨l, r, c, e⟩ (UInt8.ofNat code) =
      (Ps2State.after ⟨l, r, c, e⟩ (UInt8.ofNat code),
        eventChar ⟨l, r, c, e⟩ (keyEvent e (UInt8.ofNat code))) := by decide +kernel

/-- The prefix is noted, and does nothing else. -/
theorem halpPs2Byte_prefix (s : Ps2State) :
    halpPs2Byte s 0xE0 = ({ s with extended := true }, none) := rfl

/-- The code is not told from the one without the prefix where it changes a flag. -/
theorem halpPs2Byte_code (s : Ps2State) {b : UInt8} (h : b ≠ 0xE0) :
    halpPs2Byte s b = (s.after b, eventChar s (keyEvent s.extended b)) := by
  obtain ⟨l, r, c, e⟩ := s
  have hb : UInt8.ofNat b.toNat = b := UInt8.ofNat_toNat
  have hne : b.toNat ≠ 0xE0 := fun hval => h (by rw [← hb, hval]; rfl)
  have htable := halpPs2Byte_table ⟨b.toNat, b.toNat_lt⟩ l r c e hne
  rw [hb] at htable
  exact htable

/-! ## One more byte of a stream -/

theorem endsInPrefix_append (pending : Bool) (bytes : List UInt8) (b : UInt8) :
    endsInPrefix pending (bytes ++ [b]) = decide (b = 0xE0) := by
  induction bytes generalizing pending with
  | nil => rfl
  | cons c bytes ih => exact ih _

/-- The event that a byte completes. -/
def nextEvent (bytes : List UInt8) (b : UInt8) : Option KeyEvent :=
  if b = 0xE0 then none else some (keyEvent (endsInPrefix false bytes) b)

theorem keyEvents_append (pending : Bool) (bytes : List UInt8) (b : UInt8) :
    keyEvents pending (bytes ++ [b]) = keyEvents pending bytes ++
      if b = 0xE0 then [] else [keyEvent (endsInPrefix pending bytes) b] := by
  induction bytes generalizing pending with
  | nil =>
    rw [List.nil_append, keyEvents, keyEvents, List.nil_append, endsInPrefix]
    split <;> rfl
  | cons c bytes ih =>
    rw [List.cons_append, keyEvents, keyEvents, endsInPrefix]
    by_cases hc : c = 0xE0
    · rw [if_pos hc, if_pos hc, decide_eq_true hc, ih]
    · rw [if_neg hc, if_neg hc, decide_eq_false hc, ih, List.cons_append]

variable {key : UInt8} {events : List KeyEvent} {e : KeyEvent}

/-- An event of another key does not matter. -/
theorem lastIsMake_append_of_ne (h : e.ofKey key = false) :
    LastIsMake key (events ++ [e]) ↔ LastIsMake key events := by
  rw [LastIsMake, List.filter_append, List.filter_singleton, h, cond_false, List.append_nil,
    LastIsMake]

theorem lastIsMake_append_of_key (h : e.ofKey key = true) :
    LastIsMake key (events ++ [e]) ↔ e = .plain key := by
  rw [LastIsMake, List.filter_append, List.filter_singleton, h, cond_true, List.getLast?_concat,
    Option.some_inj]

/-- What a code without the prefix does to a shift key. -/
theorem lastIsMake_plain {code : UInt8} {flag : Bool} (h : flag = true ↔ LastIsMake key events) :
    (if code = key then true else if code = key ||| 0x80 then false else flag) = true ↔
      LastIsMake key (events ++ [.plain code]) := by
  by_cases hmake : code = key
  · rw [if_pos hmake, lastIsMake_append_of_key (by rw [hmake, KeyEvent.ofKey]; simp)]
    exact iff_of_true rfl (by rw [hmake])
  rw [if_neg hmake]
  by_cases hcode : code = key ||| 0x80
  · rw [if_pos hcode, lastIsMake_append_of_key (by rw [hcode, KeyEvent.ofKey]; simp)]
    exact iff_of_false Bool.false_ne_true fun hsame => hmake (KeyEvent.plain.inj hsame)
  · rw [if_neg hcode, lastIsMake_append_of_ne (by rw [KeyEvent.ofKey]; simp [hmake, hcode])]
    exact h

/-- A code behind the prefix is no event of a shift key. -/
theorem lastIsMake_extended {code : UInt8} :
    LastIsMake key (events ++ [.extended code]) ↔ LastIsMake key events :=
  lastIsMake_append_of_ne (by rw [KeyEvent.ofKey]; simp)

/-! ## Runs -/

/-- The driver, with the bytes it was delivered and the result of its last call. -/
structure Keyboard where
  bytes : List UInt8
  flags : Ps2State
  out : Option UInt8

/-- The driver at the start. -/
def Keyboard.initial : Keyboard := ⟨[], .initial, none⟩

/-- The event that a call completes. -/
def Keyboard.event (k : Keyboard) (p : Ps2Poll) : Option KeyEvent :=
  p.delivered.bind (nextEvent k.bytes)

/-- The driver after a call. -/
def Keyboard.perform (k : Keyboard) (p : Ps2Poll) : Keyboard where
  bytes := k.bytes ++ p.delivered.toList
  flags := (halpPs2TryReadChar k.flags p).1
  out := (halpPs2TryReadChar k.flags p).2

def Keyboard.Step (k : Keyboard) (p : Ps2Poll) (k' : Keyboard) : Prop := k' = k.perform p

/-- The two shift flags and CapsLock are the same. -/
def SameModifiers (s s' : Ps2State) : Prop :=
  s'.shiftLeft = s.shiftLeft ∧ s'.shiftRight = s.shiftRight ∧ s'.capsLock = s.capsLock

/-- After a call the flags are those of the stream, its result is the character of the event, and
a code behind the prefix changed no modifier. -/
structure StepRight (k : Keyboard) (p : Ps2Poll) (k' : Keyboard) : Prop where
  tracks : Tracks k'.bytes k'.flags
  out : k'.out = (k.event p).bind (eventChar k.flags)
  kept : ∀ code, k.event p = some (.extended code) → SameModifiers k.flags k'.flags

/-- A code changes no modifier when it is taken for one without the prefix: it is not that of
CapsLock, and a code of a shift key finds that key in the state that it stands for. -/
def HarmlessCode (s : Ps2State) (code : UInt8) : Prop :=
  code ≠ 0x3A ∧ (code = 0x2A → s.shiftLeft = true) ∧ (code = 0xAA → s.shiftLeft = false) ∧
    (code = 0x36 → s.shiftRight = true) ∧ (code = 0xB6 → s.shiftRight = false)

/-- A call does not complete a code behind the prefix that changes a modifier. -/
def HarmlessPoll (k : Keyboard) (p : Ps2Poll) : Prop :=
  ∀ code, k.event p = some (.extended code) → HarmlessCode k.flags code

theorem sameModifiers_after_iff (s : Ps2State) (code : UInt8) :
    SameModifiers s (s.after code) ↔ HarmlessCode s code := by
  rw [SameModifiers, Ps2State.after, HarmlessCode]
  dsimp only
  constructor
  · rintro ⟨hl, hr, hc⟩
    refine ⟨?_, ?_, ?_, ?_, ?_⟩ <;> rintro rfl
    · rw [if_pos rfl] at hc
      exact absurd hc (Bool.not_ne_self _)
    · rw [← hl, if_pos rfl]
    · rw [← hl]
      rfl
    · rw [← hr, if_pos rfl]
    · rw [← hr]
      rfl
  · rintro ⟨hcaps, hmakeL, hbreakL, hmakeR, hbreakR⟩
    refine ⟨?_, ?_, if_neg hcaps⟩
    · split
      next hmake => exact (hmakeL hmake).symm
      split
      next hbreak => exact (hbreakL hbreak).symm
      rfl
    · split
      next hmake => exact (hmakeR hmake).symm
      split
      next hbreak => exact (hbreakR hbreak).symm
      rfl

variable {k k' : Keyboard} {p : Ps2Poll}

/-- A call that is delivered nothing does nothing. -/
theorem perform_of_none (h : p.delivered = none) :
    k.perform p = ⟨k.bytes, k.flags, none⟩ ∧ k.event p = none := by
  rw [Keyboard.perform, halpPs2TryReadChar, Keyboard.event, h]
  exact ⟨by rw [Option.toList_none, List.append_nil], rfl⟩

theorem perform_of_prefix (h : p.delivered = some 0xE0) :
    k.perform p = ⟨k.bytes ++ [0xE0], { k.flags with extended := true }, none⟩ ∧
      k.event p = none := by
  rw [Keyboard.perform, halpPs2TryReadChar, Keyboard.event, h]
  exact ⟨rfl, rfl⟩

theorem perform_of_code (ht : Tracks k.bytes k.flags) {b : UInt8} (h : p.delivered = some b)
    (hb : b ≠ 0xE0) :
    k.perform p = ⟨k.bytes ++ [b], k.flags.after b,
        eventChar k.flags (keyEvent (endsInPrefix false k.bytes) b)⟩ ∧
      k.event p = some (keyEvent (endsInPrefix false k.bytes) b) := by
  rw [Keyboard.perform, halpPs2TryReadChar, Keyboard.event, h, ← ht.extended]
  dsimp only
  rw [halpPs2Byte_code k.flags hb, Option.bind_some, nextEvent, if_neg hb, ← ht.extended]
  exact ⟨rfl, rfl⟩

/-- The flags of a stream with one more prefix. -/
theorem Tracks.prefix {bytes : List UInt8} {s : Ps2State} (h : Tracks bytes s) :
    Tracks (bytes ++ [0xE0]) { s with extended := true } := by
  have hevents : keyEvents false (bytes ++ [0xE0]) = keyEvents false bytes := by
    rw [keyEvents_append, if_pos rfl, List.append_nil]
  constructor
  · rw [hevents]
    exact h.shiftLeft
  · rw [hevents]
    exact h.shiftRight
  · rw [hevents]
    exact h.capsLock
  · rw [endsInPrefix_append]
    rfl

/-- The flags of a stream with one more code that has no prefix. -/
theorem Tracks.plain {bytes : List UInt8} {s : Ps2State} (h : Tracks bytes s) {b : UInt8}
    (hb : b ≠ 0xE0) (hpending : endsInPrefix false bytes = false) :
    Tracks (bytes ++ [b]) (s.after b) := by
  have hevents : keyEvents false (bytes ++ [b]) = keyEvents false bytes ++ [.plain b] := by
    rw [keyEvents_append, if_neg hb, hpending]
    rfl
  constructor
  · rw [hevents]
    exact lastIsMake_plain h.shiftLeft
  · rw [hevents]
    exact lastIsMake_plain h.shiftRight
  · rw [hevents, List.count_append, List.count_singleton, Ps2State.after]
    dsimp only
    by_cases hcaps : b = 0x3A
    · rw [if_pos hcaps, if_pos (by rw [hcaps]; rfl), Bool.not_eq_true', ← Bool.not_eq_true,
        h.capsLock]
      omega
    · rw [if_neg hcaps, if_neg (by simpa using hcaps), Nat.add_zero]
      exact h.capsLock
  · rw [endsInPrefix_append, decide_eq_false hb]
    rfl

/-- The flags of a stream with one more code behind the prefix. -/
theorem tracks_extended_iff {bytes : List UInt8} {s : Ps2State} (h : Tracks bytes s) {b : UInt8}
    (hb : b ≠ 0xE0) (hpending : endsInPrefix false bytes = true) :
    Tracks (bytes ++ [b]) (s.after b) ↔ SameModifiers s (s.after b) := by
  have hevents : keyEvents false (bytes ++ [b]) = keyEvents false bytes ++ [.extended b] := by
    rw [keyEvents_append, if_neg hb, hpending]
    rfl
  have hcount : (keyEvents false bytes ++ [KeyEvent.extended b]).count (KeyEvent.plain 0x3A) =
      (keyEvents false bytes).count (KeyEvent.plain 0x3A) := by
    rw [List.count_append, List.count_singleton]
    rfl
  constructor
  · intro h'
    have hl := h'.shiftLeft
    have hr := h'.shiftRight
    have hc := h'.capsLock
    rw [hevents, lastIsMake_extended, ← h.shiftLeft] at hl
    rw [hevents, lastIsMake_extended, ← h.shiftRight] at hr
    rw [hevents, hcount, ← h.capsLock] at hc
    exact ⟨Bool.eq_iff_iff.2 hl, Bool.eq_iff_iff.2 hr, Bool.eq_iff_iff.2 hc⟩
  · rintro ⟨hl, hr, hc⟩
    constructor
    · rw [hevents, lastIsMake_extended, hl]
      exact h.shiftLeft
    · rw [hevents, lastIsMake_extended, hr]
      exact h.shiftRight
    · rw [hevents, hcount, hc]
      exact h.capsLock
    · rw [endsInPrefix_append, decide_eq_false hb]
      rfl

/-- A call that completes no code behind the prefix is harmless. -/
theorem stepRight_iff_of_ne (hevent : ∀ code, k.event p ≠ some (.extended code))
    (htracks : Tracks (k.perform p).bytes (k.perform p).flags)
    (hout : (k.perform p).out = (k.event p).bind (eventChar k.flags)) :
    HarmlessPoll k p ↔ StepRight k p (k.perform p) :=
  iff_of_true (fun code h => absurd h (hevent code))
    ⟨htracks, hout, fun code h => absurd h (hevent code)⟩

/-- A call is right iff it is harmless. -/
theorem stepRight_iff (ht : Tracks k.bytes k.flags) (hstep : k.Step p k') :
    HarmlessPoll k p ↔ StepRight k p k' := by
  rw [Keyboard.Step] at hstep
  subst hstep
  cases hdelivered : p.delivered with
  | none =>
    obtain ⟨hperform, hevent⟩ := perform_of_none (k := k) hdelivered
    refine stepRight_iff_of_ne (fun code => ?_) ?_ ?_
    · rw [hevent]
      exact (Option.some_ne_none _).symm
    · rw [hperform]
      exact ht
    · rw [hperform, hevent]
      rfl
  | some b =>
    by_cases hb : b = 0xE0
    · subst hb
      obtain ⟨hperform, hevent⟩ := perform_of_prefix (k := k) hdelivered
      refine stepRight_iff_of_ne (fun code => ?_) ?_ ?_
      · rw [hevent]
        exact (Option.some_ne_none _).symm
      · rw [hperform]
        exact ht.prefix
      · rw [hperform, hevent]
        rfl
    obtain ⟨hperform, hevent⟩ := perform_of_code ht hdelivered hb
    cases hpending : endsInPrefix false k.bytes with
    | false =>
      rw [hpending] at hevent hperform
      refine stepRight_iff_of_ne (fun code => ?_) ?_ ?_
      · rw [hevent]
        rintro ⟨⟩
      · rw [hperform]
        exact ht.plain hb hpending
      · rw [hperform, hevent]
        rfl
    | true =>
      rw [hpending] at hevent hperform
      have hharmless : HarmlessPoll k p ↔ SameModifiers k.flags (k.flags.after b) := by
        rw [HarmlessPoll, hevent, sameModifiers_after_iff]
        refine ⟨fun h => h b rfl, fun h code hcode => ?_⟩
        cases hcode
        exact h
      rw [hharmless]
      constructor
      · intro h
        refine ⟨?_, ?_, fun code _ => ?_⟩
        · rw [hperform]
          exact (tracks_extended_iff ht hb hpending).2 h
        · rw [hperform, hevent]
          rfl
        · rw [hperform]
          exact h
      · intro h
        have htracks := h.tracks
        rw [hperform] at htracks
        exact (tracks_extended_iff ht hb hpending).1 htracks

theorem tracks_initial : Tracks [] .initial where
  shiftLeft := iff_of_false Bool.false_ne_true nofun
  shiftRight := iff_of_false Bool.false_ne_true nofun
  capsLock := iff_of_false Bool.false_ne_true (by decide)
  extended := rfl

/-- In every sequence of calls the flags and characters are right at every step iff no call
completes a code behind the prefix that changes a modifier. -/
theorem keyboard_right_iff (polls : List Ps2Poll) :
    Always Keyboard.Step StepRight .initial polls ↔
      Always Keyboard.Step (fun k p _ => HarmlessPoll k p) .initial polls := by
  refine (always_congr (I := fun k => Tracks k.bytes k.flags) ?_ ?_ tracks_initial polls).symm
  · intro k p k' ht hharmless hstep
    exact ((stepRight_iff ht hstep).1 hharmless).tracks
  · intro k p k' ht hstep
    exact stepRight_iff ht hstep

/-- The fake shift before a navigation key sets the flag of the left shift key. -/
theorem fake_shift_sets_flag : ¬Always Keyboard.Step StepRight .initial
    [⟨true, 1, 0xE0⟩, ⟨true, 1, 0x2A⟩] := by
  intro h
  have hright := ((h _ rfl).2 _ rfl).1
  have hkept := (hright.kept 0x2A (by decide)).1
  exact absurd hkept (by decide)

end NtxKernel.Hal
