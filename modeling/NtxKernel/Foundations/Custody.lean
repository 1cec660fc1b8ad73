import Mathlib.Order.BooleanAlgebra.Set
import Mathlib.Logic.Function.Basic

/-!
# Custody of resources

Resources that are out of a store, and holders that each have at most one of them.

* `Custody`: what is out has exactly one holder.
* `take`, `drop`, `pass`: a holder takes a resource out, gives it back, or passes it on to another
  holder. Each keeps custody.
-/

namespace NtxKernel.Foundations

variable {H R : Type*}

/-- What is out has exactly one holder. -/
structure Custody (holds : H → Option R) (out : Set R) : Prop where
  once : ∀ h h' r, holds h = some r → holds h' = some r → h = h'
  out_iff : ∀ r, r ∈ out ↔ ∃ h, holds h = some r

namespace Custody

variable {holds : H → Option R} {out : Set R} {h h' : H} {r : R}

theorem mem (c : Custody holds out) (hr : holds h = some r) : r ∈ out := (c.out_iff r).2 ⟨h, hr⟩

/-- Nobody holds anything. -/
theorem empty : Custody (fun _ : H => (none : Option R)) ∅ where
  once _ _ _ hr := by cases hr
  out_iff r := ⟨fun hr => absurd hr (Set.notMem_empty r), fun ⟨_, hr⟩ => by cases hr⟩

variable [DecidableEq H]

/-- A holder with nothing takes a resource out. -/
theorem take (c : Custody holds out) (hnone : holds h = none) (hr : r ∉ out) :
    Custody (Function.update holds h (some r)) (insert r out) where
  once := by
    have hnew : ∀ x s, x ≠ h → Function.update holds h (some r) x = some s → s ≠ r := by
      rintro x s hx hs rfl
      rw [Function.update_of_ne hx] at hs
      exact hr (c.mem hs)
    intro x x' s hx hx'
    by_cases hxh : x = h
    · by_cases hxh' : x' = h
      · rw [hxh, hxh']
      · rw [hxh, Function.update_self] at hx
        exact absurd (Option.some.inj hx).symm (hnew x' s hxh' hx')
    · by_cases hxh' : x' = h
      · rw [hxh', Function.update_self] at hx'
        exact absurd (Option.some.inj hx').symm (hnew x s hxh hx)
      · rw [Function.update_of_ne hxh] at hx
        rw [Function.update_of_ne hxh'] at hx'
        exact c.once x x' s hx hx'
  out_iff s := by
    constructor
    · rintro (rfl | hs)
      · exact ⟨h, Function.update_self _ _ _⟩
      · obtain ⟨x, hx⟩ := (c.out_iff s).1 hs
        refine ⟨x, ?_⟩
        rw [Function.update_of_ne, hx]
        rintro rfl
        rw [hnone] at hx
        cases hx
    · rintro ⟨x, hx⟩
      by_cases hxh : x = h
      · rw [hxh, Function.update_self] at hx
        exact .inl (Option.some.inj hx).symm
      · rw [Function.update_of_ne hxh] at hx
        exact .inr (c.mem hx)

/-- A holder gives its resource back. -/
theorem drop (c : Custody holds out) (hr : holds h = some r) :
    Custody (Function.update holds h none) (out \ {r}) where
  once := by
    have hold : ∀ x s, Function.update holds h none x = some s → holds x = some s := by
      intro x s hs
      by_cases hxh : x = h
      · rw [hxh, Function.update_self] at hs
        cases hs
      · rwa [Function.update_of_ne hxh] at hs
    exact fun x x' s hx hx' => c.once x x' s (hold x s hx) (hold x' s hx')
  out_iff s := by
    constructor
    · rintro ⟨hs, hne⟩
      obtain ⟨x, hx⟩ := (c.out_iff s).1 hs
      refine ⟨x, ?_⟩
      rw [Function.update_of_ne, hx]
      rintro rfl
      exact hne (Option.some.inj (hx.symm.trans hr))
    · rintro ⟨x, hx⟩
      have hxh : x ≠ h := by
        rintro rfl
        rw [Function.update_self] at hx
        cases hx
      rw [Function.update_of_ne hxh] at hx
      refine ⟨c.mem hx, ?_⟩
      rintro rfl
      exact hxh (c.once x h _ hx hr)

/-- A holder passes its resource on to one with nothing. -/
theorem pass (c : Custody holds out) (hr : holds h = some r) (hnone : holds h' = none) :
    Custody (Function.update (Function.update holds h none) h' (some r)) out := by
  have hne : h' ≠ h := by
    rintro rfl
    rw [hnone] at hr
    cases hr
  have htaken := (c.drop hr).take (h := h') (r := r)
    ((Function.update_of_ne hne _ _).trans hnone) (fun hmem => hmem.2 rfl)
  rwa [Set.insert_sdiff_singleton, Set.insert_eq_of_mem (c.mem hr)] at htaken

end Custody

end NtxKernel.Foundations
