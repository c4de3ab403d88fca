import Mathlib.Data.List.Basic

/-!
# Runs of a transition system

A system is a function `step` that says what an action leads to, and that it is not possible where
it answers none.  A run is a list of actions, each of which was possible.

* `Run.invariant` carries an invariant along a run.
* `Run.spends` bounds the actions of a kind by a measure that they use up.
-/

namespace ErikslundHttp.Transitions

variable {S A : Type*} (step : S → A → Option S)

/-- The actions lead from one state to the other. -/
inductive Run : S → List A → S → Prop
  | nil (s : S) : Run s [] s
  | cons {s s' s'' : S} {action : A} {actions : List A} (hstep : step s action = some s')
      (hrest : Run s' actions s'') : Run s (action :: actions) s''

/-- A property that every action keeps. -/
def Keeps (I : S → Prop) : Prop :=
  ∀ s action s', I s → step s action = some s' → I s'

variable {step} {s s' : S} {actions : List A} {I : S → Prop}

/-- A run that is carried out. -/
theorem Run.of_foldlM (h : actions.foldlM step s = some s') : Run step s actions s' := by
  induction actions generalizing s with
  | nil =>
    cases h
    exact .nil _
  | cons action actions ih =>
    obtain ⟨s₁, hstep, hrest⟩ := Option.bind_eq_some_iff.1 h
    exact .cons hstep (ih hrest)

theorem Run.invariant (h : Run step s actions s') (hkeeps : Keeps step I) (hs : I s) : I s' := by
  induction h with
  | nil => exact hs
  | cons hstep _ ih => exact ih (hkeeps _ _ _ hs hstep)

/-- The actions that `spends` names use the measure up, and the others do not fill it. -/
theorem Run.spends (h : Run step s actions s') (hkeeps : Keeps step I) (hs : I s)
    (measure : S → ℕ) (spends : A → Bool)
    (hmeasure : ∀ s action s', I s → step s action = some s' →
      measure s' + (if spends action then 1 else 0) ≤ measure s) :
    actions.countP spends + measure s' ≤ measure s := by
  induction h with
  | nil => simp
  | @cons s s' s'' action actions hstep _ ih =>
    have hfirst := hmeasure s action s' hs hstep
    have hrest := ih (hkeeps _ _ _ hs hstep)
    rw [List.countP_cons]
    omega

end ErikslundHttp.Transitions
