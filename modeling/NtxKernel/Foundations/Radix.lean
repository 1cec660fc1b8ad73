import Mathlib.Data.List.Induction
import Mathlib.Data.Set.Defs
import Mathlib.Order.SetNotation

/-!
# Trees of tables

A memory of tables: `mem t i` is the `i`-th entry of the table `t`, and `child e` is the table that
an entry `e` leads to, if any. A list of indices is a path, and `follow` goes down a path from a
table. Only the paths of a set `V` matter, which holds every prefix of its paths.

* `IsTree`: a table is reached along one path only, from whatever root.
* `follow_congr`: what the entries on a path lead to is all that following it depends on.
* `follow_link`: an entry that led nowhere is made to lead to a table that was not reached. One
  more path leads somewhere; all others are as before.
* `IsTree.link`: the tree stays a tree.
* `follow_replace`: the same where the entry led somewhere, of the paths that still lead somewhere.
* `follow_copy`: a copy of a root leads where the root leads.
-/

namespace NtxKernel.Foundations

variable {F I E : Type*} {child : E → Option F} {mem mem' : F → I → E}

/-- Go down the path from the table `t`. -/
def follow (child : E → Option F) (mem : F → I → E) : F → List I → Option F
  | t, [] => some t
  | t, i :: p => (child (mem t i)).bind fun u => follow child mem u p

@[simp]
theorem follow_nil (t : F) : follow child mem t [] = some t := rfl

theorem follow_append (t : F) (p q : List I) :
    follow child mem t (p ++ q) = (follow child mem t p).bind fun u => follow child mem u q := by
  induction p generalizing t with
  | nil => rfl
  | cons i p ih =>
    rw [List.cons_append, follow, follow, Option.bind_assoc]
    exact Option.bind_congr fun u _ => ih u

theorem follow_concat (t : F) (p : List I) (i : I) :
    follow child mem t (p ++ [i]) = (follow child mem t p).bind fun u => child (mem u i) := by
  rw [follow_append]
  refine Option.bind_congr fun u _ => ?_
  rw [follow]
  cases child (mem u i) <;> rfl

/-- A path that leads somewhere leads somewhere on its way. -/
theorem follow_concat_eq_some {t u : F} {p : List I} {i : I} :
    follow child mem t (p ++ [i]) = some u ↔
      ∃ w, follow child mem t p = some w ∧ child (mem w i) = some u := by
  rw [follow_concat, Option.bind_eq_some_iff]

/-- Every prefix of a path is in the set as well. -/
def PrefixClosed (V : Set (List I)) : Prop := ∀ p i, p ++ [i] ∈ V → p ∈ V

variable {V : Set (List I)} {roots : Set F}

/-- The table is reached from a root, along a path of `V`. -/
def Reached (child : E → Option F) (mem : F → I → E) (roots : Set F) (V : Set (List I)) (t : F) :
    Prop :=
  ∃ r ∈ roots, ∃ p ∈ V, follow child mem r p = some t

/-- A table is reached along one path only. -/
def IsTree (child : E → Option F) (mem : F → I → E) (roots : Set F) (V : Set (List I)) : Prop :=
  ∀ r ∈ roots, ∀ r' ∈ roots, ∀ p ∈ V, ∀ p' ∈ V, ∀ t, follow child mem r p = some t →
    follow child mem r' p' = some t → p = p'

/-- Following a path depends on what the entries on it lead to. -/
theorem follow_congr (hV : PrefixClosed V) {r : F}
    (h : ∀ p i, p ++ [i] ∈ V → ∀ u, follow child mem r p = some u →
      child (mem' u i) = child (mem u i)) {p : List I} (hp : p ∈ V) :
    follow child mem' r p = follow child mem r p := by
  induction p using List.reverseRecOn with
  | nil => rfl
  | append_singleton p i ih =>
    rw [follow_concat, follow_concat, ih (hV p i hp)]
    refine Option.bind_congr fun u hu => ?_
    exact h p i hp u hu

/-- Tables that no path passes through do not matter. -/
theorem follow_of_not_reached (hV : PrefixClosed V) {r : F} (hr : r ∈ roots)
    (h : ∀ u, Reached child mem roots V u → mem' u = mem u) {p : List I} (hp : p ∈ V) :
    follow child mem' r p = follow child mem r p := by
  refine follow_congr hV (fun p i hpi u hu => ?_) hp
  rw [h u ⟨r, hr, p, hV p i hpi, hu⟩]

/-- A new table is linked into the tree: one more path leads somewhere, and the others lead where
they led before. -/
theorem follow_link (hV : PrefixClosed V) (tree : IsTree child mem roots V) {r₀ u q : F}
    {p₀ : List I} {i : I} (hr₀ : r₀ ∈ roots) (hp₀ : p₀ ∈ V)
    (hu : follow child mem r₀ p₀ = some u) (hold : child (mem u i) = none)
    (hnew : child (mem' u i) = some q) (hq : ¬Reached child mem roots V q)
    (hleaf : ∀ j, p₀ ++ [i] ++ [j] ∈ V → child (mem' q j) = none)
    (hother : ∀ w j, w ≠ q → (w ≠ u ∨ j ≠ i) → child (mem' w j) = child (mem w j)) {r : F}
    (hr : r ∈ roots) {p : List I} (hp : p ∈ V) :
    (p = p₀ ++ [i] ∧ follow child mem r p₀ = some u ∧ follow child mem' r p = some q) ∨
      (¬(p = p₀ ++ [i] ∧ follow child mem r p₀ = some u) ∧
        follow child mem' r p = follow child mem r p) := by
  induction p using List.reverseRecOn with
  | nil =>
    refine Or.inr ⟨fun h => ?_, rfl⟩
    cases p₀ <;> cases h.1
  | append_singleton p j ih =>
    have hp' := hV p j hp
    rcases ih hp' with ⟨rfl, hru, hfollow⟩ | ⟨hnot, hfollow⟩
    · -- below the new table there is nothing, and there was nothing before
      refine Or.inr ⟨fun h => ?_, ?_⟩
      · have hlength := congrArg List.length h.1
        simp at hlength
      · have hbefore : follow child mem r (p₀ ++ [i]) = none := by
          rw [follow_concat, hru, Option.bind_some, hold]
        rw [follow_concat, hfollow, Option.bind_some, hleaf j hp, follow_concat, hbefore]
        rfl
    · cases hw : follow child mem r p with
      | none =>
        refine Or.inr ⟨fun h => ?_, ?_⟩
        · have hpp : p = p₀ := (List.append_inj' h.1 rfl).1
          rw [hpp, h.2] at hw
          cases hw
        · rw [follow_concat, hfollow, hw, follow_concat, hw]
          rfl
      | some w =>
        have hwq : w ≠ q := fun h => hq ⟨r, hr, p, hp', h ▸ hw⟩
        by_cases hwu : w = u
        · have hpp : p = p₀ := tree r hr r₀ hr₀ p hp' p₀ hp₀ u (hwu ▸ hw) hu
          by_cases hji : j = i
          · refine Or.inl ⟨by rw [hpp, hji], ?_, ?_⟩
            · rw [← hpp, hw, hwu]
            · rw [follow_concat, hfollow, hw, Option.bind_some, hwu, hji, hnew]
          · refine Or.inr ⟨fun h => ?_, ?_⟩
            · exact hji (List.cons.inj (List.append_inj' h.1 rfl).2).1
            · rw [follow_concat, hfollow, follow_concat, hw, Option.bind_some, Option.bind_some,
                hother w j hwq (Or.inr hji)]
        · refine Or.inr ⟨fun h => ?_, ?_⟩
          · have hpp : p = p₀ := (List.append_inj' h.1 rfl).1
            rw [hpp, h.2] at hw
            exact hwu (Option.some.inj hw).symm
          · rw [follow_concat, hfollow, follow_concat, hw, Option.bind_some, Option.bind_some,
              hother w j hwq (Or.inl hwu)]

/-- The tree with the new table is a tree. -/
theorem IsTree.link (hV : PrefixClosed V) (tree : IsTree child mem roots V) {r₀ u q : F}
    {p₀ : List I} {i : I} (hr₀ : r₀ ∈ roots) (hp₀ : p₀ ∈ V)
    (hu : follow child mem r₀ p₀ = some u) (hold : child (mem u i) = none)
    (hnew : child (mem' u i) = some q) (hq : ¬Reached child mem roots V q)
    (hleaf : ∀ j, p₀ ++ [i] ++ [j] ∈ V → child (mem' q j) = none)
    (hother : ∀ w j, w ≠ q → (w ≠ u ∨ j ≠ i) → child (mem' w j) = child (mem w j)) :
    IsTree child mem' roots V := by
  intro r hr r' hr' p hp p' hp' t ht ht'
  rcases follow_link hV tree hr₀ hp₀ hu hold hnew hq hleaf hother hr hp with
    ⟨hpp, -, hq₁⟩ | ⟨-, hsame⟩ <;>
  rcases follow_link hV tree hr₀ hp₀ hu hold hnew hq hleaf hother hr' hp' with
    ⟨hpp', -, hq₂⟩ | ⟨-, hsame'⟩
  · rw [hpp, hpp']
  · rw [hsame', ← Option.some.inj (hq₁.symm.trans ht)] at ht'
    exact absurd ⟨r', hr', p', hp', ht'⟩ hq
  · rw [hsame, ← Option.some.inj (hq₂.symm.trans ht')] at ht
    exact absurd ⟨r, hr, p, hp, ht⟩ hq
  · rw [hsame] at ht
    rw [hsame'] at ht'
    exact tree r hr r' hr' p hp p' hp' t ht ht'

/-- A tree stays a tree when no path leads elsewhere. -/
theorem IsTree.congr (tree : IsTree child mem roots V)
    (h : ∀ r ∈ roots, ∀ p ∈ V, follow child mem' r p = follow child mem r p) :
    IsTree child mem' roots V := by
  intro r hr r' hr' p hp p' hp' t ht ht'
  rw [h r hr p hp] at ht
  rw [h r' hr' p' hp'] at ht'
  exact tree r hr r' hr' p hp p' hp' t ht ht'

/-! ## Changes that do not keep every path -/

/-- Where entries only stop leading on, every path that leads somewhere led there before. -/
theorem follow_of_fewer (h : ∀ w j t, child (mem' w j) = some t → child (mem w j) = some t) {r t : F}
    {p : List I} (ht : follow child mem' r p = some t) : follow child mem r p = some t := by
  induction p using List.reverseRecOn generalizing t with
  | nil => exact ht
  | append_singleton p j ih =>
    rw [follow_concat_eq_some] at ht ⊢
    obtain ⟨w, hw, hchild⟩ := ht
    exact ⟨w, ih hw, h w j t hchild⟩

theorem IsTree.fewer (tree : IsTree child mem roots V)
    (h : ∀ w j t, child (mem' w j) = some t → child (mem w j) = some t) :
    IsTree child mem' roots V := fun r hr r' hr' p hp p' hp' t ht ht' =>
  tree r hr r' hr' p hp p' hp' t (follow_of_fewer h ht) (follow_of_fewer h ht')

/-- The entry `i` of the table `u` is made to lead to an empty table that was not reached, whatever
it led to before: a path leads to the new table through that entry, or leads where it led. -/
theorem follow_replace (hV : PrefixClosed V) {u q : F} {i : I} (hq : ¬Reached child mem roots V q)
    (hleaf : ∀ j, child (mem' q j) = none) (hnew : child (mem' u i) = some q)
    (hother : ∀ w j, w ≠ q → (w ≠ u ∨ j ≠ i) → child (mem' w j) = child (mem w j)) {r t : F}
    (hr : r ∈ roots) {p : List I} (hp : p ∈ V) (ht : follow child mem' r p = some t) :
    follow child mem r p = some t ∨
      t = q ∧ ∃ p₀ ∈ V, p = p₀ ++ [i] ∧ follow child mem r p₀ = some u := by
  induction p using List.reverseRecOn generalizing t with
  | nil => exact Or.inl ht
  | append_singleton p j ih =>
    rw [follow_concat_eq_some] at ht
    obtain ⟨w, hw, hchild⟩ := ht
    have hp' := hV p j hp
    rcases ih hp' hw with hbefore | ⟨rfl, -⟩
    · have hwq : w ≠ q := fun h => hq ⟨r, hr, p, hp', h ▸ hbefore⟩
      by_cases hhere : w = u ∧ j = i
      · obtain ⟨rfl, rfl⟩ := hhere
        exact Or.inr ⟨Option.some.inj (hchild.symm.trans hnew), p, hp', rfl, hbefore⟩
      · have hne : w ≠ u ∨ j ≠ i := by
          by_cases hw : w = u
          · exact Or.inr fun hj => hhere ⟨hw, hj⟩
          · exact Or.inl hw
        rw [hother w j hwq hne] at hchild
        exact Or.inl (follow_concat_eq_some.2 ⟨w, hbefore, hchild⟩)
    · rw [hleaf j] at hchild
      cases hchild

theorem IsTree.replace (hV : PrefixClosed V) (tree : IsTree child mem roots V) {u q : F} {i : I}
    (hq : ¬Reached child mem roots V q) (hleaf : ∀ j, child (mem' q j) = none)
    (hnew : child (mem' u i) = some q)
    (hother : ∀ w j, w ≠ q → (w ≠ u ∨ j ≠ i) → child (mem' w j) = child (mem w j)) :
    IsTree child mem' roots V := by
  intro r hr r' hr' p hp p' hp' t ht ht'
  rcases follow_replace hV hq hleaf hnew hother hr hp ht with h | ⟨rfl, p₀, hp₀, rfl, h⟩ <;>
    rcases follow_replace hV hq hleaf hnew hother hr' hp' ht' with
      h' | ⟨htq, p₀', hp₀', rfl, h'⟩
  · exact tree r hr r' hr' p hp p' hp' t h h'
  · exact absurd ⟨r, hr, p, hp, htq ▸ h⟩ hq
  · exact absurd ⟨r', hr', p', hp', h'⟩ hq
  · rw [tree r hr r' hr' p₀ hp₀ p₀' hp₀' u h h']

/-- A copy of a root leads where the root leads. -/
theorem follow_copy (hV : PrefixClosed V) {r q : F} (hcopy : mem' q = mem r)
    (hother : ∀ w, w ≠ q → mem' w = mem w)
    (hq : ∀ p ∈ V, p ≠ [] → follow child mem r p ≠ some q) {p : List I} (hp : p ∈ V)
    (hne : p ≠ []) : follow child mem' q p = follow child mem r p := by
  induction p using List.reverseRecOn with
  | nil => exact absurd rfl hne
  | append_singleton p j ih =>
    by_cases hnil : p = []
    · rw [hnil, List.nil_append, follow, follow, hcopy]
      rfl
    · have hp' := hV p j hp
      rw [follow_concat, follow_concat, ih hp' hnil]
      refine Option.bind_congr fun w hw => ?_
      have hwq : w ≠ q := fun h => hq p hp' hnil (h ▸ hw)
      rw [hother w hwq]

/-- Every path leads to the one new table, at the end of the empty path, or where a path led. -/
theorem IsTree.of_follow (tree : IsTree child mem roots V) {roots' : Set F} {q : F}
    (h : ∀ r ∈ roots', ∀ p ∈ V, ∀ t, follow child mem' r p = some t →
      (p = [] ∧ t = q) ∨ (t ≠ q ∧ ∃ r' ∈ roots, follow child mem r' p = some t)) :
    IsTree child mem' roots' V := by
  intro r hr r' hr' p hp p' hp' t ht ht'
  rcases h r hr p hp t ht with ⟨rfl, rfl⟩ | ⟨hne, s, hs, hfollow⟩ <;>
    rcases h r' hr' p' hp' t ht' with ⟨rfl, he⟩ | ⟨hne', s', hs', hfollow'⟩
  · rfl
  · exact absurd rfl hne'
  · exact absurd he hne
  · exact tree s hs s' hs' p hp p' hp' t hfollow hfollow'

end NtxKernel.Foundations
