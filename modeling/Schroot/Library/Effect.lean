import Mathlib.Data.List.Basic
import Mathlib.Tactic.Common

/-!
# Computations with a state and exceptions

A computation of `Effect ε σ α` reads and writes a state of type `σ` and returns a
value or throws an exception of type `ε`; the state survives the exception.  `Wp` is
its weakest precondition with one postcondition for each kind of ending, and
`catching` is the handler for the exceptions of one type.

**Results.**
* A rule for each construct (`wp_bind`, `wp_throw`, `wp_catching`, `wp_onError`).
* `wp_mono`: consequence; `wp_state`: what holds of the state, whatever the ending.
* `within_bind` and its companions: frames.
-/

/-- Computations that read and write a state and may throw. -/
abbrev Effect (ε σ α : Type) : Type := ExceptT ε (StateM σ) α

namespace Effect

variable {ε σ α β : Type}

section Constructs

/-- How a computation ends, and the state it leaves. -/
def exec (x : Effect ε σ α) (s : σ) : Except ε α × σ := x s

/-- Run a handler for some of the exceptions. -/
def catching (p : ε → Bool) (x : Effect ε σ α) (handler : ε → Effect ε σ α) :
    Effect ε σ α :=
  tryCatch x (fun e => if p e then handler e else throw e)

/-- Clean up after some of the exceptions and throw them again. -/
def onError (p : ε → Bool) (x : Effect ε σ α) (cleanup : Effect ε σ Unit) :
    Effect ε σ α :=
  catching p x (fun e => do
    cleanup
    throw e)

/-- Change the state. -/
def change (f : σ → σ) : Effect ε σ Unit := modify f

/-- Return what a computation without state returns, or throw what it throws. -/
def ofExcept (x : Except ε α) : Effect ε σ α :=
  match x with
  | .ok a => pure a
  | .error e => throw e

end Constructs

section WeakestPrecondition

/-- From `s`, the computation returns as `Q` says or throws as `E` says. -/
def Wp (x : Effect ε σ α) (Q : α → σ → Prop) (E : ε → σ → Prop) (s : σ) : Prop :=
  match x.exec s with
  | (.ok a, s') => Q a s'
  | (.error e, s') => E e s'

variable {Q Q' : α → σ → Prop} {E E' : ε → σ → Prop} {s : σ}

theorem wp_pure (a : α) :
    Wp (pure a : Effect ε σ α) Q E s ↔ Q a s := Iff.rfl

theorem wp_throw (e : ε) :
    Wp (throw e : Effect ε σ α) Q E s ↔ E e s := Iff.rfl

theorem wp_change (f : σ → σ) {Q : Unit → σ → Prop} :
    Wp (change f : Effect ε σ Unit) Q E s ↔ Q () (f s) := Iff.rfl

theorem wp_get {Q : σ → σ → Prop} :
    Wp (get : Effect ε σ σ) Q E s ↔ Q s s := Iff.rfl

/-- How a sequence ends. -/
theorem exec_bind (x : Effect ε σ α) (f : α → Effect ε σ β) (s : σ) :
    (x >>= f).exec s =
      match x.exec s with
      | (.ok a, s') => (f a).exec s'
      | (.error e, s') => (.error e, s') := by
  simp only [exec, bind, ExceptT.bind, ExceptT.mk, StateT.bind]
  cases hx : x s with
  | mk r s' => cases r <;> rfl

theorem wp_bind (x : Effect ε σ α) (f : α → Effect ε σ β) {Q : β → σ → Prop} :
    Wp (x >>= f) Q E s ↔ Wp x (fun a s' => Wp (f a) Q E s') E s := by
  unfold Wp
  rw [exec_bind]
  cases hx : x.exec s with
  | mk r s' => cases r <;> rfl

theorem wp_tryCatch (x : Effect ε σ α) (h : ε → Effect ε σ α) :
    Wp (tryCatch x h) Q E s ↔ Wp x Q (fun e s' => Wp (h e) Q E s') s := by
  unfold Wp exec
  simp only [tryCatch, tryCatchThe, MonadExceptOf.tryCatch, ExceptT.tryCatch, ExceptT.mk,
    bind, StateT.bind]
  cases hx : x s with
  | mk r s' => cases r <;> rfl

theorem wp_catching
    (p : ε → Bool) (x : Effect ε σ α) (handler : ε → Effect ε σ α) :
    Wp (catching p x handler) Q E s ↔
      Wp x Q (fun e s' => if p e then Wp (handler e) Q E s' else E e s') s := by
  have hbranch : ∀ e s', Wp (if p e then handler e else throw e) Q E s' ↔
      if p e then Wp (handler e) Q E s' else E e s' := by
    intro e s'
    cases p e <;> rfl
  simp only [catching, wp_tryCatch, hbranch]

theorem wp_onError
    (p : ε → Bool) (x : Effect ε σ α) (cleanup : Effect ε σ Unit) :
    Wp (onError p x cleanup) Q E s ↔
      Wp x Q (fun e s' => if p e then Wp cleanup (fun _ s'' => E e s'') E s' else E e s') s := by
  simp only [onError, wp_catching, wp_bind, wp_throw]

theorem wp_ofExcept (x : Except ε α) :
    Wp (ofExcept x : Effect ε σ α) Q E s ↔
      match x with
      | .ok a => Q a s
      | .error e => E e s := by
  cases x <;> rfl

theorem wp_ite {c : Prop} [Decidable c] (x y : Effect ε σ α) :
    Wp (if c then x else y) Q E s ↔ if c then Wp x Q E s else Wp y Q E s := by
  split <;> rfl

/-- Consequence. -/
theorem wp_mono
    {x : Effect ε σ α}
    (h : Wp x Q E s)
    (hQ : ∀ a s', Q a s' → Q' a s')
    (hE : ∀ e s', E e s' → E' e s') :
    Wp x Q' E' s := by
  unfold Wp at h ⊢
  cases hx : x.exec s with
  | mk r s' =>
      cases r with
      | ok a =>
          rw [hx] at h
          exact hQ a s' h
      | error e =>
          rw [hx] at h
          exact hE e s' h

theorem wp_true (x : Effect ε σ α) :
    Wp x (fun _ _ => True) (fun _ _ => True) s := by
  unfold Wp
  cases x.exec s with
  | mk r s' => cases r <;> trivial

/-- A cleanup after a failure changes nothing about the endings without one. -/
theorem wp_onError_done
    {p : ε → Bool} {x : Effect ε σ α} {cleanup : Effect ε σ Unit}
    (h : Wp x Q (fun _ _ => True) s) :
    Wp (onError p x cleanup) Q (fun _ _ => True) s := by
  rw [wp_onError]
  refine wp_mono h (fun _ _ h' => h') (fun e s' _ => ?_)
  split
  · exact wp_true _
  · trivial

/-- Two descriptions of the endings hold together. -/
theorem wp_and
    {x : Effect ε σ α}
    (h : Wp x Q E s)
    (h' : Wp x Q' E' s) :
    Wp x (fun a s' => Q a s' ∧ Q' a s') (fun e s' => E e s' ∧ E' e s') s := by
  unfold Wp at h h' ⊢
  cases hx : x.exec s with
  | mk r s' =>
      rw [hx] at h h'
      cases r with
      | ok a => exact ⟨h, h'⟩
      | error e => exact ⟨h, h'⟩

/-- What holds of every ending. -/
theorem wp_forall
    {x : Effect ε σ α} :
    Wp x Q E s ↔
      (∀ a s', x.exec s = (.ok a, s') → Q a s') ∧
        (∀ e s', x.exec s = (.error e, s') → E e s') := by
  unfold Wp
  cases hx : x.exec s with
  | mk r s' => cases r <;> simp

/-- What holds however the computation ends holds of its state. -/
theorem wp_state
    {x : Effect ε σ α} {P : σ → Prop}
    (h : Wp x (fun _ => P) (fun _ => P) s) :
    P (x.exec s).2 := by
  obtain ⟨hok, herror⟩ := wp_forall.mp h
  cases hexec : x.exec s with
  | mk r s' =>
      cases r with
      | ok a => exact hok a s' hexec
      | error e => exact herror e s' hexec

end WeakestPrecondition

section Frames

variable {R : σ → σ → Prop}

/-- However the computation ends, its state is related to the one it began with. -/
def Within (R : σ → σ → Prop) (x : Effect ε σ α) : Prop :=
  ∀ s, Wp x (fun _ s' => R s s') (fun _ s' => R s s') s

theorem Within.mono
    {R' : σ → σ → Prop} {x : Effect ε σ α}
    (h : Within R x)
    (hR : ∀ {s s'}, R s s' → R' s s') :
    Within R' x :=
  fun s => wp_mono (h s) (fun _ _ h' => hR h') (fun _ _ h' => hR h')

/-- However the effect ends, its state is related to the first one. -/
theorem within_exec
    {x : Effect ε σ α}
    (h : Within R x)
    (s : σ) :
    R s (x.exec s).2 :=
  wp_state (h s)

theorem within_pure
    (hrefl : ∀ s, R s s)
    (a : α) :
    Within R (pure a : Effect ε σ α) :=
  fun s => hrefl s

theorem within_change
    {f : σ → σ}
    (h : ∀ s, R s (f s)) :
    Within R (change f : Effect ε σ Unit) :=
  fun s => h s

theorem within_ofExcept
    (hrefl : ∀ s, R s s)
    (x : Except ε α) :
    Within R (ofExcept x : Effect ε σ α) := by
  intro s
  rw [wp_ofExcept]
  split
  · exact hrefl s
  · exact hrefl s

theorem within_bind
    (htrans : ∀ {s₁ s₂ s₃}, R s₁ s₂ → R s₂ s₃ → R s₁ s₃)
    {x : Effect ε σ α} {f : α → Effect ε σ β}
    (hx : Within R x)
    (hf : ∀ a, Within R (f a)) :
    Within R (x >>= f) := by
  intro s
  rw [wp_bind]
  refine wp_mono (hx s) (fun a s' h => ?_) (fun _ _ h => h)
  exact wp_mono (hf a s') (fun _ _ h' => htrans h h') (fun _ _ h' => htrans h h')

theorem within_catching
    (htrans : ∀ {s₁ s₂ s₃}, R s₁ s₂ → R s₂ s₃ → R s₁ s₃)
    {p : ε → Bool} {x : Effect ε σ α} {handler : ε → Effect ε σ α}
    (hx : Within R x)
    (hhandler : ∀ e, Within R (handler e)) :
    Within R (catching p x handler) := by
  intro s
  rw [wp_catching]
  refine wp_mono (hx s) (fun _ _ h => h) (fun e s' h => ?_)
  split
  · exact wp_mono (hhandler e s') (fun _ _ h' => htrans h h') (fun _ _ h' => htrans h h')
  · exact h

theorem within_onError
    (htrans : ∀ {s₁ s₂ s₃}, R s₁ s₂ → R s₂ s₃ → R s₁ s₃)
    {p : ε → Bool} {x : Effect ε σ α} {cleanup : Effect ε σ Unit}
    (hx : Within R x)
    (hcleanup : Within R cleanup) :
    Within R (onError p x cleanup) := by
  intro s
  rw [wp_onError]
  refine wp_mono (hx s) (fun _ _ h => h) (fun e s' h => ?_)
  split
  · exact wp_mono (hcleanup s') (fun _ _ h' => htrans h h') (fun _ _ h' => htrans h h')
  · exact h

end Frames

end Effect
