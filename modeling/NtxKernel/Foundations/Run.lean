import Mathlib.Data.List.Basic
import Mathlib.Tactic.TypeStar

/-!
# Runs of a labelled step relation

A system is a relation `step s o s'` between states, labelled by the operation performed. The
relation need not be total: an operation that cannot be performed, or that never returns, has no
next state. This module packages the two inductions every later result goes through.

* `Run step s ops s'`: the operations `ops`, one after another, lead from `s` to `s'`.
* `Always step P s ops`: every step a run of `ops` from `s` takes satisfies `P`, a property of
  the state before, the operation and the state after. A property of the state before alone is
  a condition on the run; one of the state after alone is a safety property.
* `Always.invariant` carries an invariant along a run, `Always.imp` replaces the property under
  an invariant, and `always_congr` is the exact form: under an invariant that good steps
  preserve, a run meets a condition at every step iff it has the property at every step.
* `performAll` computes a run of a system whose steps are a function.
-/

namespace NtxKernel.Foundations

variable {S O : Type*} {step : S → O → S → Prop}

/-- `Run step s ops s'`: performing `ops` in order leads from `s` to `s'`. -/
inductive Run (step : S → O → S → Prop) : S → List O → S → Prop
  | nil (s : S) : Run step s [] s
  | cons {s s₁ s₂ : S} {o : O} {ops : List O} :
    step s o s₁ → Run step s₁ ops s₂ → Run step s (o :: ops) s₂

/-- Every step that a run of `ops` from `s` takes satisfies `P`. -/
def Always (step : S → O → S → Prop) (P : S → O → S → Prop) : S → List O → Prop
  | _, [] => True
  | s, o :: ops => ∀ s', step s o s' → P s o s' ∧ Always step P s' ops

namespace Run

theorem single {s s' : S} {o : O} (h : step s o s') : Run step s [o] s' :=
  .cons h (.nil s')

theorem append {s s₁ s₂ : S} {ops ops' : List O} (h : Run step s ops s₁)
    (h' : Run step s₁ ops' s₂) : Run step s (ops ++ ops') s₂ := by
  induction h with
  | nil => exact h'
  | cons hs _ ih => exact .cons hs (ih h')

/-- An invariant of every step is an invariant of every run. -/
theorem invariant {I : S → Prop} (hI : ∀ s o s', I s → step s o s' → I s') {s s' : S}
    {ops : List O} (h : Run step s ops s') (hs : I s) : I s' := by
  induction h with
  | nil => exact hs
  | cons ho _ ih => exact ih (hI _ _ _ hs ho)

end Run

namespace Always

variable {P Q : S → O → S → Prop} {I : S → Prop}

/-- What `Always` says of the step after a prefix of the run. -/
theorem at_step {s s₁ s₂ : S} {pre post : List O} {o : O}
    (h : Always step P s (pre ++ o :: post)) (hr : Run step s pre s₁) (ho : step s₁ o s₂) :
    P s₁ o s₂ := by
  induction hr with
  | nil => exact (h _ ho).1
  | cons hs _ ih => exact ih (h _ hs).2 ho

/-- Two properties of every step. -/
theorem and {s : S} {ops : List O} (h : Always step P s ops) (h' : Always step Q s ops) :
    Always step (fun s o s' => P s o s' ∧ Q s o s') s ops := by
  induction ops generalizing s with
  | nil => trivial
  | cons o ops ih =>
    intro s' ho
    exact ⟨⟨(h s' ho).1, (h' s' ho).1⟩, ih (h s' ho).2 (h' s' ho).2⟩

/-- A run all of whose steps satisfy `P` keeps every invariant that such steps keep. -/
theorem invariant (hI : ∀ s o s', I s → P s o s' → step s o s' → I s') {s s' : S}
    {ops : List O} (h : Always step P s ops) (hr : Run step s ops s') (hs : I s) : I s' := by
  induction hr with
  | nil => exact hs
  | cons ho _ ih =>
    obtain ⟨hP, hrest⟩ := h _ ho
    exact ih hrest (hI _ _ _ hs hP ho)

/-- Under an invariant that `P`-steps keep, `P` at every step gives `Q` at every step. -/
theorem imp (hI : ∀ s o s', I s → P s o s' → step s o s' → I s')
    (hQ : ∀ s o s', I s → step s o s' → P s o s' → Q s o s') {s : S} (hs : I s) {ops : List O}
    (h : Always step P s ops) : Always step Q s ops := by
  induction ops generalizing s with
  | nil => trivial
  | cons o ops ih =>
    intro s' ho
    obtain ⟨hP, hrest⟩ := h s' ho
    exact ⟨hQ _ _ _ hs ho hP, ih (hI _ _ _ hs hP ho) hrest⟩

/-- A property of every step from a state with the invariant holds along every run. -/
theorem of_invariant (hI : ∀ s o s', I s → step s o s' → I s')
    (hP : ∀ s o s', I s → step s o s' → P s o s') {s : S} (hs : I s) (ops : List O) :
    Always step P s ops := by
  induction ops generalizing s with
  | nil => trivial
  | cons o ops ih => exact fun s' ho => ⟨hP _ _ _ hs ho, ih (hI _ _ _ hs ho)⟩

end Always

/-- If, from states with the invariant, a step has the property exactly when it meets the
condition, and steps that meet it keep the invariant, then a run has the property at every step
exactly when it meets the condition at every step. -/
theorem always_congr {C P : S → O → S → Prop} {I : S → Prop}
    (hI : ∀ s o s', I s → C s o s' → step s o s' → I s')
    (hCP : ∀ s o s', I s → step s o s' → (C s o s' ↔ P s o s')) {s : S} (hs : I s)
    (ops : List O) : Always step C s ops ↔ Always step P s ops := by
  constructor
  · exact Always.imp hI (fun s o s' hs ho hC => (hCP s o s' hs ho).1 hC) hs
  · exact Always.imp (fun s o s' hs hP ho => hI s o s' hs ((hCP s o s' hs ho).2 hP) ho)
      (fun s o s' hs ho hP => (hCP s o s' hs ho).2 hP) hs

/-! ## Computed runs -/

/-- Perform operations one after another, as long as they can be performed. -/
def performAll (perform : S → O → Option S) (s : S) : List O → Option S
  | [] => some s
  | o :: ops => (perform s o).bind fun s' => performAll perform s' ops

/-- What `Always` says of the last state of a computed run. -/
theorem Always.of_performAll {perform : S → O → Option S} {Q : S → Prop} {s s' : S} {o : O}
    {ops : List O}
    (h : Always (fun s o s' => perform s o = some s') (fun _ _ s' => Q s') s (o :: ops))
    (hrun : performAll perform s (o :: ops) = some s') : Q s' := by
  obtain ⟨s₁, ho, hrest⟩ := Option.bind_eq_some_iff.1 hrun
  obtain ⟨hQ, h'⟩ := h s₁ ho
  induction ops generalizing s s₁ o with
  | nil =>
    cases hrest
    exact hQ
  | cons o' ops ih =>
    obtain ⟨s₂, ho', hrest'⟩ := Option.bind_eq_some_iff.1 hrest
    exact ih h' hrest s₂ ho' hrest' (h' s₂ ho').1 (h' s₂ ho').2

end NtxKernel.Foundations
