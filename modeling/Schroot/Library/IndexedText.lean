import Mathlib.Data.List.Basic
import Mathlib.Tactic.Common

/-!
# Texts with indices that wrap around

Texts of symbols with positions in a size type of 64 bits: what is not found is at `npos`, the
largest position, and arithmetic on positions wraps around.  A symbol or a piece of a text is
only there at a position of the text.  `loop` runs the turns of a loop with fuel.

**Results.**
* `loop_eq_unfinished`: a loop whose turns keep an invariant and never leave it has no end.
* `Returns.unique`: fuel does not change what a loop returns.
* `find_cases`: what a search finds, and `rfind_of_append` for a search from the end.
-/

namespace IndexedText

universe u v

section Positions

/-- The number of positions. -/
def positions : Nat := UInt64.size

/-- The position of what is not found. -/
def npos : Nat := positions - 1

/-- The largest size of a text. -/
def maxSize : Nat := positions / 2 - 1

/-- Addition of positions. -/
def add (a b : Nat) : Nat := (a + b) % positions

/-- Subtraction of positions. -/
def sub (a b : Nat) : Nat := (a + (positions - b)) % positions

theorem add_of_lt
    {a b : Nat}
    (h : a + b < positions) :
    add a b = a + b :=
  Nat.mod_eq_of_lt h

theorem add_npos_one : add npos 1 = 0 := rfl

theorem sub_zero_one : sub 0 1 = npos := rfl

theorem sub_of_le
    {a b : Nat}
    (hle : b ≤ a)
    (ha : a < positions) :
    sub a b = a - b := by
  have hsum : a + (positions - b) = a - b + positions := by omega
  rw [sub, hsum, Nat.add_mod_right, Nat.mod_eq_of_lt (by omega)]

end Positions

/-- Why a step of a program gives no result. -/
inductive Fault where
  | outOfRange (position : Nat)
  | unfinished
deriving DecidableEq, Repr

theorem ok_bind
    {α β : Type u}
    (a : α)
    (f : α → Except Fault β) :
    (Except.ok a >>= f) = f a :=
  rfl

theorem error_bind
    {α β : Type u}
    (fault : Fault)
    (f : α → Except Fault β) :
    (Except.error fault >>= f) = .error fault :=
  rfl

section Loops

variable {σ : Type u} {ρ : Type u}

/-- A loop with fuel; a turn goes on with a state or ends with a result. -/
def loop (turn : σ → Except Fault (σ ⊕ ρ)) : Nat → σ → Except Fault ρ
  | 0, _ => .error .unfinished
  | fuel + 1, s =>
      match turn s with
      | .error fault => .error fault
      | .ok (.inl s') => loop turn fuel s'
      | .ok (.inr r) => .ok r

/-- The loop ends with a result. -/
def Returns (turn : σ → Except Fault (σ ⊕ ρ)) (s : σ) (r : ρ) : Prop :=
  ∃ fuel, loop turn fuel s = .ok r

variable {turn : σ → Except Fault (σ ⊕ ρ)} {s s' : σ} {r r' : ρ}

theorem Returns.of_end
    (h : turn s = .ok (.inr r)) :
    Returns turn s r :=
  ⟨1, by simp [loop, h]⟩

theorem Returns.of_turn
    (h : turn s = .ok (.inl s'))
    (hrest : Returns turn s' r) :
    Returns turn s r := by
  obtain ⟨fuel, hfuel⟩ := hrest
  exact ⟨fuel + 1, by simp [loop, h, hfuel]⟩

theorem loop_add
    {fuel : Nat}
    (h : loop turn fuel s = .ok r)
    (more : Nat) :
    loop turn (fuel + more) s = .ok r := by
  induction fuel generalizing s with
  | zero => simp [loop] at h
  | succ fuel ih =>
      rw [Nat.succ_add, loop]
      rw [loop] at h
      cases hturn : turn s with
      | error fault => simp [hturn] at h
      | ok next =>
          cases next with
          | inl s' =>
              simp only [hturn] at h ⊢
              exact ih h
          | inr r' => simpa [hturn] using h

/-- Fuel does not change what a loop returns. -/
theorem Returns.unique
    (h : Returns turn s r)
    (h' : Returns turn s r') :
    r = r' := by
  obtain ⟨fuel, hfuel⟩ := h
  obtain ⟨fuel', hfuel'⟩ := h'
  have hmore := loop_add hfuel fuel'
  rw [Nat.add_comm, loop_add hfuel' fuel] at hmore
  exact (Except.ok.inj hmore).symm

/-- **A loop without an end**: every turn keeps the invariant and goes on. -/
theorem loop_eq_unfinished
    {Inv : σ → Prop}
    (hturn : ∀ s, Inv s → ∃ s', turn s = .ok (.inl s') ∧ Inv s')
    (h : Inv s)
    (fuel : Nat) :
    loop turn fuel s = .error .unfinished := by
  induction fuel generalizing s with
  | zero => rfl
  | succ fuel ih =>
      obtain ⟨s', hs', hinv⟩ := hturn s h
      simp only [loop, hs']
      exact ih hinv

end Loops

/-- A text; its size is a size that texts can have. -/
@[ext]
structure Text (α : Type u) where
  symbols : List α
  size_le : symbols.length ≤ maxSize

namespace Text

variable {α : Type u}

section Access

/-- The number of symbols. -/
def size (s : Text α) : Nat :=
  s.symbols.length

/-- The symbol at a position. -/
def get (s : Text α) (position : Nat) : Except Fault α :=
  match s.symbols[position]? with
  | some c => .ok c
  | none => .error (.outOfRange position)

/-- A text of one symbol. -/
def single (c : α) : Text α :=
  ⟨[c], by simp [maxSize, positions, UInt64.size]⟩

/-- At most the first `count` symbols. -/
def take (s : Text α) (count : Nat) : Text α :=
  ⟨s.symbols.take count, Nat.le_trans (List.length_take_le' count s.symbols) s.size_le⟩

/-- The symbols from a position on. -/
def drop (s : Text α) (position : Nat) : Text α :=
  ⟨s.symbols.drop position, Nat.le_trans (List.drop_sublist position s.symbols).length_le s.size_le⟩

/-- At most `count` symbols from a position on. -/
def substr (s : Text α) (position count : Nat) : Except Fault (Text α) :=
  if s.size < position then
    .error (.outOfRange position)
  else
    .ok ((s.drop position).take count)

/-- The first position, not in front of `start`, of a symbol with the property. -/
def find (p : α → Bool) (s : Text α) (start : Nat) : Nat :=
  match (s.symbols.drop start).findIdx? p with
  | some i => start + i
  | none => npos

theorem size_lt_npos (s : Text α) : s.size < npos :=
  Nat.lt_of_le_of_lt s.size_le (by decide)

theorem size_lt_positions (s : Text α) : s.size < positions :=
  Nat.lt_of_le_of_lt s.size_le (by decide)

theorem substr_of_le
    {s : Text α} {position : Nat}
    (h : position ≤ s.size)
    (count : Nat) :
    s.substr position count = .ok ((s.drop position).take count) :=
  if_neg (Nat.not_lt.mpr h)

/-- No text has more than `npos` symbols. -/
theorem take_npos (s : Text α) : s.take npos = s := by
  ext1
  exact List.take_of_length_le (Nat.le_of_lt s.size_lt_npos)

theorem get_of_drop
    {s : Text α} {position : Nat} {c : α} {rest : List α}
    (h : s.symbols.drop position = c :: rest) :
    s.get position = .ok c := by
  have hget : s.symbols[position]? = some c := by
    rw [← List.head?_drop, h]
    rfl
  simp [get, hget]

theorem get_of_size_le
    {s : Text α} {position : Nat}
    (h : s.size ≤ position) :
    s.get position = .error (.outOfRange position) := by
  have hget : s.symbols[position]? = none := List.getElem?_eq_none h
  simp [get, hget]

end Access

section Search

variable {p : α → Bool}

/-- What the first symbol with the property splits. -/
theorem findIdx?_cases (p : α → Bool) (xs : List α) :
    (xs.findIdx? p = none ∧ ∀ c ∈ xs, p c = false) ∨
      ∃ piece c rest, xs = piece ++ c :: rest ∧ (∀ d ∈ piece, p d = false) ∧ p c = true ∧
        xs.findIdx? p = some piece.length := by
  induction xs with
  | nil => exact .inl ⟨rfl, by simp⟩
  | cons x xs ih =>
      by_cases hx : p x = true
      · exact .inr ⟨[], x, xs, rfl, by simp, hx, by simp [List.findIdx?_cons, hx]⟩
      · have hx' : p x = false := by simpa using hx
        rcases ih with ⟨hnone, hall⟩ | ⟨piece, c, rest, rfl, hpiece, hc, hsome⟩
        · refine .inl ⟨by simp [List.findIdx?_cons, hx', hnone], fun d hd => ?_⟩
          rcases List.mem_cons.mp hd with rfl | hd
          · exact hx'
          · exact hall d hd
        · refine .inr ⟨x :: piece, c, rest, rfl, fun d hd => ?_, hc, ?_⟩
          · rcases List.mem_cons.mp hd with rfl | hd
            · exact hx'
            · exact hpiece d hd
          · rw [List.findIdx?_cons, hx', hsome]
            simp

/-- **What a search finds**: nothing, or the symbol behind a piece without the property. -/
theorem find_cases (p : α → Bool) (s : Text α) (start : Nat) :
    (s.find p start = npos ∧ ∀ c ∈ s.symbols.drop start, p c = false) ∨
      ∃ piece c rest, s.symbols.drop start = piece ++ c :: rest ∧
        (∀ d ∈ piece, p d = false) ∧ p c = true ∧
        s.find p start = start + piece.length ∧
        s.symbols.drop (start + piece.length) = c :: rest ∧
        start + piece.length < s.size := by
  rcases findIdx?_cases p (s.symbols.drop start) with
    ⟨hnone, hall⟩ | ⟨piece, c, rest, hdrop, hpiece, hc, hsome⟩
  · exact .inl ⟨by simp [find, hnone], hall⟩
  · refine .inr ⟨piece, c, rest, hdrop, hpiece, hc, by simp [find, hsome], ?_, ?_⟩
    · rw [← List.drop_drop, hdrop, List.drop_left]
    · have hlength := congrArg List.length hdrop
      rw [List.length_drop, List.length_append, List.length_cons] at hlength
      unfold size
      omega

/-- Nothing is found behind the end. -/
theorem find_of_size_le
    {s : Text α} {start : Nat}
    (h : s.size ≤ start) :
    s.find p start = npos := by
  have hdrop : s.symbols.drop start = [] := List.drop_eq_nil_of_le h
  simp [find, hdrop]

/-- The last position of a symbol with the property. -/
def rfind (p : α → Bool) (s : Text α) : Nat :=
  match s.symbols.reverse.findIdx? p with
  | some i => s.size - 1 - i
  | none => npos

theorem rfind_of_forall
    {s : Text α}
    (h : ∀ c ∈ s.symbols, p c = false) :
    s.rfind p = npos := by
  have hnone : s.symbols.reverse.findIdx? p = none := by
    rw [List.findIdx?_eq_none_iff]
    exact fun c hc => h c (List.mem_reverse.mp hc)
  simp [rfind, hnone]

theorem rfind_of_append
    {s : Text α} {front rest : List α} {c : α}
    (hs : s.symbols = front ++ c :: rest)
    (hc : p c = true)
    (hrest : ∀ d ∈ rest, p d = false) :
    s.rfind p = front.length := by
  have hsome : s.symbols.reverse.findIdx? p = some rest.length := by
    have hnone : rest.reverse.findIdx? p = none := by
      rw [List.findIdx?_eq_none_iff]
      exact fun d hd => hrest d (List.mem_reverse.mp hd)
    rw [hs, List.reverse_append, List.reverse_cons, List.append_assoc, List.findIdx?_append, hnone]
    simp [List.findIdx?_cons, hc]
  have hsize : s.size = front.length + (rest.length + 1) := by simp [size, hs]
  simp only [rfind, hsome]
  omega

theorem find_npos (p : α → Bool) (s : Text α) : s.find p npos = npos :=
  find_of_size_le (Nat.le_of_lt s.size_lt_npos)

end Search

end Text

end IndexedText
