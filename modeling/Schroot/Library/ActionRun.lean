import Mathlib.Data.List.Basic
import Mathlib.Tactic.Common

/-!
# Runs of actions

A step function that takes a state and an action, and has no result for an action that is
not possible in the state.

**Results.**
* `run_append`: a run is a run of its first actions, and then one of the others.
* `run_keeps`: what every step keeps, a run keeps.
* `run_origin`: what is not there from the start has been brought about by an action.
-/

namespace ActionRun

universe u v

variable {σ : Type u} {α : Type v} (step : σ → α → Option σ)

/-- The state after some actions. -/
def run : σ → List α → Option σ
  | s, [] => some s
  | s, a :: actions => (step s a).bind fun s' => run s' actions

variable {step} {s s' s'' : σ} {a : α} {actions actions' : List α}

theorem run_cons_eq_some :
    run step s (a :: actions) = some s'' ↔
      ∃ s', step s a = some s' ∧ run step s' actions = some s'' := by
  simp [run, Option.bind_eq_some_iff]

theorem run_append :
    run step s (actions ++ actions') = some s'' ↔
      ∃ s', run step s actions = some s' ∧ run step s' actions' = some s'' := by
  induction actions generalizing s with
  | nil => simp [run]
  | cons a actions ih =>
      rw [List.cons_append, run_cons_eq_some]
      constructor
      · rintro ⟨s₁, hstep, hrun⟩
        obtain ⟨s', hfirst, hrest⟩ := ih.mp hrun
        exact ⟨s', run_cons_eq_some.mpr ⟨s₁, hstep, hfirst⟩, hrest⟩
      · rintro ⟨s', hfirst, hrest⟩
        obtain ⟨s₁, hstep, hfirst⟩ := run_cons_eq_some.mp hfirst
        exact ⟨s₁, hstep, ih.mpr ⟨s', hfirst, hrest⟩⟩

variable {I : σ → Prop} {P : α → Prop}

/-- **What a step keeps, a run keeps**, if all of its actions are of the kind that keeps it. -/
theorem run_keeps
    (hstep : ∀ s a s', I s → P a → step s a = some s' → I s')
    (hs : I s)
    (hactions : ∀ a ∈ actions, P a)
    (h : run step s actions = some s') :
    I s' := by
  induction actions generalizing s with
  | nil =>
      cases h
      exact hs
  | cons a actions ih =>
      obtain ⟨s₁, hfirst, hrest⟩ := run_cons_eq_some.mp h
      rw [List.forall_mem_cons] at hactions
      exact ih (hstep s a s₁ hs hactions.1 hfirst) hactions.2 hrest

variable {H : σ → Prop} {W : α → Prop}

/-- **What holds after a run** has held before it, or an action has brought it about. -/
theorem run_origin
    (hstep : ∀ s a s', step s a = some s' → H s' → H s ∨ W a)
    (h : run step s actions = some s')
    (hH : H s') :
    H s ∨ ∃ a ∈ actions, W a := by
  induction actions generalizing s with
  | nil =>
      cases h
      exact .inl hH
  | cons a actions ih =>
      obtain ⟨s₁, hfirst, hrest⟩ := run_cons_eq_some.mp h
      rcases ih hrest with hs₁ | ⟨b, hb, hW⟩
      · rcases hstep s a s₁ hfirst hs₁ with hs | ha
        · exact .inl hs
        · exact .inr ⟨a, List.mem_cons_self, ha⟩
      · exact .inr ⟨b, List.mem_cons_of_mem a hb, hW⟩

end ActionRun
