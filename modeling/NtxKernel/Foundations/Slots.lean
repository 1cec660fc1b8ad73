import Mathlib.Logic.ExistsUnique
import Mathlib.Logic.Function.Basic

/-!
# Slots and what they name

A pool is a number of slots, each in use or free, each with a content that may name something. The
things named live elsewhere, and nothing but the names joins the two sides.

* `Match`: the slots in use are exactly those that name something live, and what is live has
  exactly one slot. `Clear`: free slots name nothing.
* `fill` puts a free slot to use for something new, `Removed` says that a name is gone from the
  pool: both keep the two sides matched.
* `Agree`: the same slots are in use with the same contents. Filling a slot and removing its name
  again comes to nothing.
-/

namespace NtxKernel.Foundations

/-- The slots of a pool. -/
@[ext]
structure Slots (ι β : Type*) where
  inUse : ι → Bool
  content : ι → β

namespace Slots

variable {ι β α : Type*} (name : β → Option α)

/-- A slot is in use exactly when it names something live, and what is live has one slot. -/
structure Match (s : Slots ι β) (live : α → Prop) : Prop where
  inUse_iff : ∀ i, s.inUse i = true ↔ ∃ a, name (s.content i) = some a ∧ live a
  slot_unique : ∀ a, live a → ∃! i, s.inUse i = true ∧ name (s.content i) = some a

/-- A slot that is not in use names nothing. -/
def Clear (s : Slots ι β) : Prop := ∀ i, s.inUse i = false → name (s.content i) = none

/-- The slots that name `a` are freed and cleared, the others stay. -/
structure Removed (s s' : Slots ι β) (a : α) : Prop where
  freed : ∀ i, s.inUse i = true → name (s.content i) = some a →
    s'.inUse i = false ∧ name (s'.content i) = none
  kept : ∀ i, ¬(s.inUse i = true ∧ name (s.content i) = some a) →
    s'.inUse i = s.inUse i ∧ s'.content i = s.content i

/-- The same slots are in use, with the same contents. -/
structure Agree (s s' : Slots ι β) : Prop where
  inUse : s'.inUse = s.inUse
  content : ∀ i, s.inUse i = true → s'.content i = s.content i

theorem Agree.refl (s : Slots ι β) : s.Agree s := ⟨rfl, fun _ _ => rfl⟩

section Fill

variable [DecidableEq ι]

/-- Write the content of a slot and whether it is in use. -/
def set (s : Slots ι β) (i : ι) (b : Bool) (c : β) : Slots ι β where
  inUse := Function.update s.inUse i b
  content := Function.update s.content i c

variable {s : Slots ι β} {i j : ι} {b : Bool} {c : β}

@[simp]
theorem inUse_set_self : (s.set i b c).inUse i = b := Function.update_self ..

@[simp]
theorem content_set_self : (s.set i b c).content i = c := Function.update_self ..

theorem inUse_set_of_ne (h : j ≠ i) : (s.set i b c).inUse j = s.inUse j :=
  Function.update_of_ne h ..

theorem content_set_of_ne (h : j ≠ i) : (s.set i b c).content j = s.content j :=
  Function.update_of_ne h ..

end Fill

variable {name} {s s' : Slots ι β} {live live' : α → Prop} {i j : ι} {a : α} {c : β}

namespace Match

/-- Two slots in use name different things. -/
theorem eq_of_name (h : s.Match name live) (hi : s.inUse i = true) (hj : s.inUse j = true)
    (hia : name (s.content i) = some a) (hja : name (s.content j) = some a) : i = j := by
  obtain ⟨a', ha', hlive⟩ := (h.inUse_iff i).1 hi
  obtain rfl := Option.some.inj (hia.symm.trans ha')
  exact (h.slot_unique a hlive).unique ⟨hi, hia⟩ ⟨hj, hja⟩

/-- What a slot in use names is live. -/
theorem live_of_name (h : s.Match name live) (hi : s.inUse i = true)
    (hia : name (s.content i) = some a) : live a := by
  obtain ⟨a', ha', hlive⟩ := (h.inUse_iff i).1 hi
  obtain rfl := Option.some.inj (hia.symm.trans ha')
  exact hlive

theorem congr (h : s.Match name live) (hlive : ∀ a, live' a ↔ live a) : s.Match name live' := by
  have heq : live' = live := funext fun a => propext (hlive a)
  rw [heq]
  exact h

/-- A free slot is put to use for something that was not live. -/
theorem fill [DecidableEq ι] (h : s.Match name live) (hclear : s.Clear name)
    (hi : s.inUse i = false) (hc : name c = some a) (hnew : ¬live a)
    (hlive : ∀ a', live' a' ↔ live a' ∨ a' = a) : (s.set i true c).Match name live' where
  inUse_iff j := by
    by_cases hj : j = i
    · subst hj
      rw [inUse_set_self, content_set_self]
      exact iff_of_true rfl ⟨a, hc, (hlive a).2 (.inr rfl)⟩
    · rw [inUse_set_of_ne hj, content_set_of_ne hj, h.inUse_iff j]
      constructor
      · rintro ⟨a', ha', hl⟩
        exact ⟨a', ha', (hlive a').2 (.inl hl)⟩
      · rintro ⟨a', ha', hl⟩
        refine ⟨a', ha', ?_⟩
        -- a slot with a name is in use, so it cannot name what is new
        have hin : s.inUse j = true := by
          by_contra hfree
          rw [hclear j (by simpa using hfree)] at ha'
          cases ha'
        exact h.live_of_name hin ha'
  slot_unique a' hl := by
    rcases (hlive a').1 hl with hold | rfl
    · obtain ⟨j, ⟨hj, hja⟩, huniq⟩ := h.slot_unique a' hold
      have hji : j ≠ i := by
        rintro rfl
        rw [hi] at hj
        cases hj
      refine ⟨j, ⟨by rwa [inUse_set_of_ne hji], by rwa [content_set_of_ne hji]⟩, ?_⟩
      rintro l ⟨hl, hla⟩
      by_cases hli : l = i
      · subst hli
        rw [content_set_self, hc] at hla
        obtain rfl := Option.some.inj hla
        exact absurd hold hnew
      · rw [inUse_set_of_ne hli] at hl
        rw [content_set_of_ne hli] at hla
        exact huniq l ⟨hl, hla⟩
    · refine ⟨i, ⟨inUse_set_self, by rw [content_set_self, hc]⟩, ?_⟩
      rintro l ⟨hl, hla⟩
      by_contra hli
      rw [inUse_set_of_ne hli] at hl
      rw [content_set_of_ne hli] at hla
      exact hnew (h.live_of_name hl hla)

/-- What is live no longer loses its slot. -/
theorem removed (h : s.Match name live) (hr : Removed name s s' a)
    (hlive : ∀ a', live' a' ↔ live a' ∧ a' ≠ a) : s'.Match name live' where
  inUse_iff i := by
    by_cases hi : s.inUse i = true ∧ name (s.content i) = some a
    · obtain ⟨hfree, hnone⟩ := hr.freed i hi.1 hi.2
      rw [hfree, hnone]
      exact iff_of_false Bool.false_ne_true fun ⟨a', ha', _⟩ => by cases ha'
    · obtain ⟨huse, hcontent⟩ := hr.kept i hi
      rw [huse, hcontent, h.inUse_iff i]
      constructor
      · rintro ⟨a', ha', hl⟩
        refine ⟨a', ha', (hlive a').2 ⟨hl, ?_⟩⟩
        rintro rfl
        exact hi ⟨(h.inUse_iff i).2 ⟨a', ha', hl⟩, ha'⟩
      · rintro ⟨a', ha', hl⟩
        exact ⟨a', ha', ((hlive a').1 hl).1⟩
  slot_unique a' hl := by
    obtain ⟨hold, hne⟩ := (hlive a').1 hl
    obtain ⟨i, ⟨hi, hia⟩, huniq⟩ := h.slot_unique a' hold
    have hother : ∀ j, name (s.content j) = some a' →
        ¬(s.inUse j = true ∧ name (s.content j) = some a) :=
      fun j hja hj => hne (Option.some.inj (hja.symm.trans hj.2))
    obtain ⟨huse, hcontent⟩ := hr.kept i (hother i hia)
    refine ⟨i, ⟨huse.trans hi, by rw [hcontent, hia]⟩, ?_⟩
    rintro j ⟨hj, hja⟩
    by_cases hgone : s.inUse j = true ∧ name (s.content j) = some a
    · rw [(hr.freed j hgone.1 hgone.2).2] at hja
      cases hja
    · obtain ⟨huse', hcontent'⟩ := hr.kept j hgone
      exact huniq j ⟨huse'.symm.trans hj, by rwa [hcontent'] at hja⟩

end Match

/-- A slot in use that names nothing belongs to nothing live. -/
theorem not_match_of_nameless (hi : s.inUse i = true) (hnone : name (s.content i) = none) :
    ¬s.Match name live := by
  intro h
  obtain ⟨a, ha, -⟩ := (h.inUse_iff i).1 hi
  rw [hnone] at ha
  cases ha

namespace Removed

/-- Nothing has to go when no slot in use has the name. -/
theorem refl (h : ∀ i, s.inUse i = true → name (s.content i) ≠ some a) : Removed name s s a where
  freed i hi hia := absurd hia (h i hi)
  kept _ _ := ⟨rfl, rfl⟩

/-- The only slot with the name is freed. -/
theorem set_free [DecidableEq ι] (hc : name c = none)
    (hi : s.inUse i = true) (hia : name (s.content i) = some a)
    (hunique : ∀ j, s.inUse j = true → name (s.content j) = some a → j = i) :
    Removed name s (s.set i false c) a where
  freed j hj hja := by
    rw [hunique j hj hja, inUse_set_self, content_set_self]
    exact ⟨rfl, hc⟩
  kept j hj := by
    have hji : j ≠ i := by
      rintro rfl
      exact hj ⟨hi, hia⟩
    exact ⟨inUse_set_of_ne hji, content_set_of_ne hji⟩

theorem clear (h : Removed name s s' a) (hclear : s.Clear name) : s'.Clear name := by
  intro i hi
  by_cases hgone : s.inUse i = true ∧ name (s.content i) = some a
  · exact (h.freed i hgone.1 hgone.2).2
  · obtain ⟨huse, hcontent⟩ := h.kept i hgone
    rw [hcontent]
    exact hclear i (huse.symm.trans hi)

end Removed

theorem Clear.fill [DecidableEq ι] (h : s.Clear name) : (s.set i true c).Clear name := by
  intro j hj
  have hji : j ≠ i := by
    rintro rfl
    rw [inUse_set_self] at hj
    cases hj
  rw [content_set_of_ne hji]
  exact h j (by rwa [inUse_set_of_ne hji] at hj)

/-- A slot that was filled for something new and is freed again. -/
theorem Agree.of_fill [DecidableEq ι] (hi : s.inUse i = false) (hc : name c = some a)
    (hnew : ∀ j, s.inUse j = true → name (s.content j) ≠ some a)
    (h : Removed name (s.set i true c) s' a) : s.Agree s' := by
  have hkept : ∀ j ≠ i, s'.inUse j = s.inUse j ∧ s'.content j = s.content j := by
    intro j hji
    obtain ⟨huse, hcontent⟩ := h.kept j fun hj => by
      rw [inUse_set_of_ne hji, content_set_of_ne hji] at hj
      exact hnew j hj.1 hj.2
    exact ⟨huse.trans (inUse_set_of_ne hji), hcontent.trans (content_set_of_ne hji)⟩
  refine ⟨funext fun j => ?_, fun j hj => ?_⟩
  · by_cases hji : j = i
    · subst hji
      rw [(h.freed j inUse_set_self (by rw [content_set_self, hc])).1, hi]
    · exact (hkept j hji).1
  · have hji : j ≠ i := by
      rintro rfl
      rw [hi] at hj
      cases hj
    exact (hkept j hji).2

end Slots

end NtxKernel.Foundations
