import Mathlib.Data.List.Basic
import Mathlib.Tactic.Common

/-!
# Bracket words

Words of opening and closing brackets of several kinds.  A word is balanced when every
bracket that is opened is closed exactly once, in the reverse order of the openings.
`close?` reads a word with the stack of the brackets that are open, and decides this.

**Results.**
* `close?_append`: reading is compositional.
* `balanced_iff_close?`: the stack machine decides balance.
-/

namespace Brackets

universe u

variable {α : Type u}

/-- An opening or a closing bracket. -/
inductive Bracket (α : Type u) where
  | opening (a : α)
  | closing (a : α)
deriving DecidableEq

/-- Balanced words. -/
inductive Balanced : List (Bracket α) → Prop
  | nil : Balanced []
  | wrap (a : α) {u v : List (Bracket α)}
      (hu : Balanced u)
      (hv : Balanced v) :
      Balanced (.opening a :: u ++ .closing a :: v)

variable [DecidableEq α]

/-- Read a word: the brackets that are open afterwards, the last one first. -/
def close? : List (Bracket α) → List α → Option (List α)
  | [], st => some st
  | .opening a :: w, st => close? w (a :: st)
  | .closing _ :: _, [] => none
  | .closing a :: w, b :: st => if a = b then close? w st else none

theorem close?_append (u v : List (Bracket α)) (st : List α) :
    close? (u ++ v) st = (close? u st).bind (close? v) := by
  induction u generalizing st with
  | nil => rfl
  | cons b u ih =>
      cases b with
      | opening a => exact ih (a :: st)
      | closing a =>
          cases st with
          | nil => rfl
          | cons b st =>
              by_cases h : a = b
              · simpa [close?, h] using ih st
              · simp [close?, h]

/-- A balanced word leaves the stack as it was. -/
theorem Balanced.close?_eq
    {w : List (Bracket α)}
    (h : Balanced w)
    (st : List α) :
    close? w st = some st := by
  induction h generalizing st with
  | nil => rfl
  | wrap a _ _ ihu ihv =>
      show close? (_ ++ _) (a :: st) = some st
      rw [close?_append, ihu]
      simpa [close?] using ihv st

/-- A word that empties a stack closes its top after a balanced word. -/
theorem exists_of_close?
    (n : ℕ)
    {w : List (Bracket α)}
    (hlen : w.length ≤ n)
    (st : List α)
    (h : close? w st = some []) :
    match st with
    | [] => Balanced w
    | a :: st => ∃ u v, w = u ++ .closing a :: v ∧ Balanced u ∧ close? v st = some [] := by
  induction n generalizing w st with
  | zero =>
      have hw : w = [] := List.length_eq_zero_iff.mp (Nat.le_zero.mp hlen)
      subst hw
      cases st with
      | nil => exact Balanced.nil
      | cons a st => simp [close?] at h
  | succ n ih =>
      cases w with
      | nil =>
          cases st with
          | nil => exact Balanced.nil
          | cons a st => simp [close?] at h
      | cons b w =>
          have hw : w.length ≤ n := by simpa using hlen
          cases b with
          | closing a =>
              cases st with
              | nil => simp [close?] at h
              | cons b st =>
                  by_cases hab : a = b
                  · subst hab
                    simp only [close?, if_true] at h
                    exact ⟨[], w, rfl, .nil, h⟩
                  · simp [close?, hab] at h
          | opening a =>
              obtain ⟨u, v, rfl, hu, hv⟩ := ih hw (a :: st) h
              have hvlen : v.length ≤ n := by
                simp only [List.length_append, List.length_cons] at hw
                omega
              have hrest := ih hvlen st hv
              cases st with
              | nil => exact .wrap a hu hrest
              | cons c st =>
                  obtain ⟨u', v', rfl, hu', hv'⟩ := hrest
                  exact ⟨.opening a :: u ++ .closing a :: u', v', by simp, .wrap a hu hu', hv'⟩

/-- **The stack machine decides balance.** -/
theorem balanced_iff_close? (w : List (Bracket α)) :
    Balanced w ↔ close? w [] = some [] :=
  ⟨fun h => h.close?_eq [], fun h => exists_of_close? w.length (Nat.le_refl _) [] h⟩

instance (w : List (Bracket α)) : Decidable (Balanced w) :=
  decidable_of_iff _ (balanced_iff_close? w).symm

end Brackets
