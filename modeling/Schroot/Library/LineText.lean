import Mathlib.Data.List.Basic
import Mathlib.Tactic.Common

/-!
# Separated text

Two ways of cutting a text at separators, over an arbitrary alphabet.

* `records sep` cuts a text into records that each end with `sep`; a last record
  without its terminator is still a record.  This is how a line reader sees a text.
* `pieces p` keeps the maximal non-empty runs of symbols that are not separators.

**Results.**
* `records_append`: a terminated text followed by another one is read as its own
  records followed by those of the other text.
* `records_terminated`: printing records with a terminator and reading them back
  is the identity exactly on records without the separator.
* `exists_eq_terminated_append`: every text is terminated records and a last one.
* `joined_records`: joining the records of a text loses a separator at its end only.
* `eq_of_append_sep`: what stands behind the last separator is unique.
* `pieces_append_sep`: what stands on either side of a separator is cut by itself.
* `pieces_joined`: joining non-empty separator-free pieces and cutting again is the
  identity, and `pieces_joined_eq_flatMap`: other texts are cut into the pieces of each.
* `pieces_eq_filter`: the pieces are the texts between separators that are not empty.
-/

namespace LineText

universe u

variable {α : Type u}

section Terminated

/-- Printing every record with its terminator. -/
def terminated (sep : α) (rs : List (List α)) : List α :=
  rs.flatMap (fun r => r ++ [sep])

@[simp] theorem terminated_nil (sep : α) : terminated sep [] = [] := rfl

@[simp] theorem terminated_cons
    (sep : α) (r : List α) (rs : List (List α)) :
    terminated sep (r :: rs) = r ++ sep :: terminated sep rs := by
  simp [terminated]

theorem terminated_append
    (sep : α) (rs qs : List (List α)) :
    terminated sep (rs ++ qs) = terminated sep rs ++ terminated sep qs := by
  simp [terminated]

/-- Every text is terminated records and a last one without its terminator, which may be
empty. -/
theorem exists_eq_terminated_append
    (sep : α) (xs : List α) :
    ∃ rs tail, xs = terminated sep rs ++ tail ∧ (∀ r ∈ rs, sep ∉ r) ∧ sep ∉ tail := by
  induction xs with
  | nil => exact ⟨[], [], rfl, by simp, by simp⟩
  | cons c cs ih =>
      obtain ⟨rs, tail, rfl, hrs, htail⟩ := ih
      by_cases hc : c = sep
      · refine ⟨[] :: rs, tail, by simp [hc], fun r hr => ?_, htail⟩
        rcases List.mem_cons.mp hr with rfl | hr
        · simp
        · exact hrs r hr
      · cases rs with
        | nil => exact ⟨[], c :: tail, rfl, by simp, by simp [Ne.symm hc, htail]⟩
        | cons r rs =>
            refine ⟨(c :: r) :: rs, tail, by simp, fun q hq => ?_, htail⟩
            rcases List.mem_cons.mp hq with rfl | hq
            · simpa [Ne.symm hc] using hrs r List.mem_cons_self
            · exact hrs q (List.mem_cons_of_mem _ hq)

theorem mem_terminated_append_iff
    {sep : α} {rs : List (List α)} {tail : List α}
    (htail : sep ∉ tail) :
    sep ∈ terminated sep rs ++ tail ↔ rs ≠ [] := by
  cases rs with
  | nil => simpa using htail
  | cons r rs => simp

theorem getLast?_terminated_append_iff
    {sep : α} {rs : List (List α)} {tail : List α}
    (htail : sep ∉ tail) :
    (terminated sep rs ++ tail).getLast? = some sep ↔ rs ≠ [] ∧ tail = [] := by
  rcases List.eq_nil_or_concat tail with rfl | ⟨tail', c, rfl⟩
  · rcases List.eq_nil_or_concat rs with rfl | ⟨rs', r, rfl⟩
    · simp
    · simp [terminated_append]
  · have hc : c ≠ sep := fun h => htail (by simp [h])
    simp [hc]

end Terminated

section LastSeparator

/-- What stands in front of the first separator is determined by the text. -/
theorem eq_of_sep_append
    {sep : α} {x y a b : List α}
    (hx : sep ∉ x)
    (hy : sep ∉ y)
    (h : x ++ sep :: a = y ++ sep :: b) :
    x = y := by
  induction x generalizing y with
  | nil =>
      cases y with
      | nil => rfl
      | cons d y =>
          have hd : sep = d := (List.cons.inj h).1
          exact absurd (hd ▸ List.mem_cons_self) hy
  | cons c x ih =>
      cases y with
      | nil =>
          have hc : c = sep := (List.cons.inj h).1
          exact absurd (hc ▸ List.mem_cons_self) hx
      | cons d y =>
          obtain ⟨rfl, hrest⟩ := List.cons.inj h
          have hxy : x = y := ih (fun hm => hx (List.mem_cons_of_mem c hm))
            (fun hm => hy (List.mem_cons_of_mem c hm)) hrest
          rw [hxy]

/-- What stands behind the last separator is determined by the text. -/
theorem eq_of_append_sep
    {sep : α} {a b x y : List α}
    (hx : sep ∉ x)
    (hy : sep ∉ y)
    (h : a ++ sep :: x = b ++ sep :: y) :
    x = y := by
  have hreverse : x.reverse ++ sep :: a.reverse = y.reverse ++ sep :: b.reverse := by
    simpa using congrArg List.reverse h
  have hxy := eq_of_sep_append (by simpa using hx) (by simpa using hy) hreverse
  exact List.reverse_inj.mp hxy

end LastSeparator

section Records

variable [DecidableEq α]

/-- The records of a text; the terminator belongs to no record. -/
def records (sep : α) : List α → List (List α)
  | [] => []
  | c :: cs =>
      if c = sep then
        [] :: records sep cs
      else
        match records sep cs with
        | [] => [[c]]
        | r :: rs => (c :: r) :: rs

@[simp] theorem records_nil (sep : α) : records sep [] = [] := rfl

theorem records_cons_sep
    (sep : α) (cs : List α) :
    records sep (sep :: cs) = [] :: records sep cs := by
  simp [records]

/-- A terminated text never swallows the text that follows it. -/
theorem records_append
    (sep : α) (xs ys : List α) :
    records sep (xs ++ sep :: ys) =
      records sep (xs ++ [sep]) ++ records sep ys := by
  induction xs with
  | nil => simp [records]
  | cons c cs ih =>
      by_cases h : c = sep
      · simp [records, h, ih]
      · simp only [List.cons_append, records, if_neg h, ih]
        cases hr : records sep (cs ++ [sep]) with
        | nil =>
            exfalso
            cases cs with
            | nil => simp [records] at hr
            | cons d ds =>
                simp only [List.cons_append, records] at hr
                split at hr
                · cases hr
                · split at hr <;> cases hr
        | cons r rs => simp

theorem records_of_not_mem
    {sep : α} {r : List α}
    (h : sep ∉ r) :
    records sep (r ++ [sep]) = [r] := by
  induction r with
  | nil => simp [records]
  | cons c cs ih =>
      have hc : c ≠ sep := fun e => h (by simp [e])
      have hcs : sep ∉ cs := fun m => h (by simp [m])
      simp [records, hc, ih hcs]

theorem records_record
    {sep : α} {r : List α}
    (h : sep ∉ r)
    (ys : List α) :
    records sep (r ++ sep :: ys) = r :: records sep ys := by
  rw [records_append, records_of_not_mem h]
  rfl

theorem not_mem_of_mem_records
    {sep : α} {xs r : List α}
    (h : r ∈ records sep xs) :
    sep ∉ r := by
  induction xs generalizing r with
  | nil => simp at h
  | cons c cs ih =>
      by_cases hc : c = sep
      · simp only [records, if_pos hc, List.mem_cons] at h
        rcases h with rfl | h
        · simp
        · exact ih h
      · simp only [records, if_neg hc] at h
        cases hr : records sep cs with
        | nil =>
            simp only [hr, List.mem_singleton] at h
            subst h
            simpa using fun e => hc e.symm
        | cons q qs =>
            simp only [hr, List.mem_cons] at h
            rcases h with rfl | h
            · have hq : sep ∉ q := ih (by simp [hr])
              simp [hq, Ne.symm hc]
            · exact ih (by simp [hr, h])

/-- Printed records in front of a text are read first. -/
theorem records_terminated_append
    {sep : α} {rs : List (List α)}
    (h : ∀ r ∈ rs, sep ∉ r)
    (ys : List α) :
    records sep (terminated sep rs ++ ys) = rs ++ records sep ys := by
  induction rs with
  | nil => rfl
  | cons r rs ih =>
      rw [terminated_cons, List.append_assoc, List.cons_append, records_record (h r (by simp)),
        ih (fun q hq => h q (by simp [hq]))]
      rfl

/-- The record that has no terminator. -/
theorem records_of_not_mem_self
    {sep : α} {tail : List α}
    (h : sep ∉ tail) :
    records sep tail = if tail = [] then [] else [tail] := by
  induction tail with
  | nil => rfl
  | cons c cs ih =>
      have hc : c ≠ sep := fun e => h (by simp [e])
      have hcs : sep ∉ cs := fun m => h (by simp [m])
      rw [records, if_neg hc, ih hcs]
      cases cs <;> simp

/-- What the records hold is the text without the separators. -/
theorem length_flatten_records
    (sep : α) (xs : List α) :
    (records sep xs).flatten.length = (xs.filter (· ≠ sep)).length := by
  induction xs with
  | nil => rfl
  | cons c cs ih =>
      by_cases hc : c = sep
      · simp [records, hc, ih]
      · rw [List.filter_cons_of_pos (by simpa using hc), List.length_cons, ← ih, records, if_neg hc]
        cases records sep cs with
        | nil => simp
        | cons r rs =>
            simp only [List.flatten_cons, List.length_append, List.length_cons]
            omega

/-- **Reading back printed records**, each free of the separator. -/
theorem records_terminated
    {sep : α} {rs : List (List α)}
    (h : ∀ r ∈ rs, sep ∉ r) :
    records sep (terminated sep rs) = rs := by
  simpa using records_terminated_append h []

end Records

section Pieces

/-- The maximal non-empty separator-free runs of a text, `cur` being the run read
so far. -/
def piecesFrom (p : α → Bool) : List α → List α → List (List α)
  | cur, [] => if cur = [] then [] else [cur]
  | cur, c :: cs =>
      if p c then
        if cur = [] then piecesFrom p [] cs else cur :: piecesFrom p [] cs
      else
        piecesFrom p (cur ++ [c]) cs

/-- The maximal non-empty separator-free runs of a text. -/
def pieces (p : α → Bool) (xs : List α) : List (List α) :=
  piecesFrom p [] xs

/-- Pieces with a separator between each two of them. -/
def joined (sep : α) : List (List α) → List α
  | [] => []
  | [x] => x
  | x :: y :: ys => x ++ sep :: joined sep (y :: ys)

/-- A piece that cutting can return: non-empty and without separators. -/
def IsPiece (p : α → Bool) (x : List α) : Prop :=
  x ≠ [] ∧ ∀ c ∈ x, p c = false

@[simp] theorem pieces_nil (p : α → Bool) : pieces p [] = [] := rfl

theorem piecesFrom_append
    {p : α → Bool} {x : List α}
    (hx : ∀ c ∈ x, p c = false)
    (cur cs : List α) :
    piecesFrom p cur (x ++ cs) = piecesFrom p (cur ++ x) cs := by
  induction x generalizing cur with
  | nil => simp
  | cons c x ih =>
      have hc : p c = false := hx c (by simp)
      have hrest : ∀ d ∈ x, p d = false := fun d hd => hx d (by simp [hd])
      simp [piecesFrom, hc, ih hrest]

/-- What stands on either side of a separator is cut by itself. -/
theorem piecesFrom_append_sep
    {p : α → Bool} {sep : α}
    (hsep : p sep = true)
    (cur xs ys : List α) :
    piecesFrom p cur (xs ++ sep :: ys) = piecesFrom p cur xs ++ pieces p ys := by
  induction xs generalizing cur with
  | nil => by_cases hnil : cur = [] <;> simp [piecesFrom, pieces, hsep, hnil]
  | cons c xs ih =>
      by_cases hc : p c = true
      · by_cases hnil : cur = [] <;> simp [piecesFrom, hc, hnil, ih]
      · simp [piecesFrom, hc, ih]

theorem pieces_append_sep
    {p : α → Bool} {sep : α}
    (hsep : p sep = true)
    (xs ys : List α) :
    pieces p (xs ++ sep :: ys) = pieces p xs ++ pieces p ys :=
  piecesFrom_append_sep hsep [] xs ys

/-- A separator at the start is skipped. -/
theorem pieces_cons_sep
    {p : α → Bool} {sep : α}
    (hsep : p sep = true)
    (xs : List α) :
    pieces p (sep :: xs) = pieces p xs :=
  pieces_append_sep hsep [] xs

theorem pieces_of_isPiece
    {p : α → Bool} {x : List α}
    (h : IsPiece p x) :
    pieces p x = [x] := by
  have happend := piecesFrom_append h.2 [] []
  simpa [pieces, piecesFrom, h.1] using happend

/-- Separators at the start are skipped. -/
theorem pieces_append_of_forall
    {p : α → Bool} {xs : List α}
    (h : ∀ c ∈ xs, p c = true)
    (ys : List α) :
    pieces p (xs ++ ys) = pieces p ys := by
  induction xs with
  | nil => rfl
  | cons c xs ih =>
      rw [List.cons_append, pieces_cons_sep (h c List.mem_cons_self)]
      exact ih fun d hd => h d (List.mem_cons_of_mem c hd)

/-- There is no piece among separators. -/
theorem pieces_of_forall
    {p : α → Bool} {xs : List α}
    (h : ∀ c ∈ xs, p c = true) :
    pieces p xs = [] := by
  simpa using pieces_append_of_forall h []

theorem isPiece_of_mem_piecesFrom
    {p : α → Bool} {cur xs x : List α}
    (hcur : ∀ c ∈ cur, p c = false)
    (h : x ∈ piecesFrom p cur xs) :
    IsPiece p x := by
  induction xs generalizing cur with
  | nil =>
      by_cases hnil : cur = []
      · simp [piecesFrom, hnil] at h
      · simp only [piecesFrom, if_neg hnil, List.mem_singleton] at h
        exact h ▸ ⟨hnil, hcur⟩
  | cons c cs ih =>
      by_cases hc : p c = true
      · by_cases hnil : cur = []
        · simp only [piecesFrom, hc, hnil, if_true] at h
          exact ih (by simp) h
        · simp only [piecesFrom, hc, if_true, if_neg hnil, List.mem_cons] at h
          rcases h with rfl | h
          · exact ⟨hnil, hcur⟩
          · exact ih (by simp) h
      · have hc' : p c = false := by simpa using hc
        simp only [piecesFrom, hc'] at h
        refine ih ?_ h
        intro d hd
        rcases List.mem_append.mp hd with hd | hd
        · exact hcur d hd
        · exact (List.mem_singleton.mp hd) ▸ hc'

/-- Cutting returns pieces only. -/
theorem isPiece_of_mem_pieces
    {p : α → Bool} {xs x : List α}
    (h : x ∈ pieces p xs) :
    IsPiece p x :=
  isPiece_of_mem_piecesFrom (by simp) h

/-- **Joining pieces and cutting again** is the identity. -/
theorem pieces_joined
    {p : α → Bool} {sep : α} {xs : List (List α)}
    (hsep : p sep = true)
    (h : ∀ x ∈ xs, IsPiece p x) :
    pieces p (joined sep xs) = xs := by
  induction xs with
  | nil => rfl
  | cons x xs ih =>
      have hx := h x (by simp)
      cases xs with
      | nil =>
          have := piecesFrom_append hx.2 [] []
          simpa [pieces, joined, piecesFrom, hx.1] using this
      | cons y ys =>
          have hrest := ih (fun z hz => h z (by simp [hz]))
          simp only [joined, pieces] at hrest ⊢
          rw [piecesFrom_append hx.2]
          simp [piecesFrom, hsep, hx.1, hrest]

/-- The pieces are what stands between the separators, without the empty texts. -/
theorem piecesFrom_eq_filter (p : α → Bool) (cur xs : List α) :
    piecesFrom p cur xs =
      (List.splitOnPPrepend p xs cur.reverse).filter fun x => !x.isEmpty := by
  induction xs generalizing cur with
  | nil =>
      rw [List.splitOnPPrepend_nil, List.reverse_reverse]
      by_cases hnil : cur = [] <;> simp [piecesFrom, hnil]
  | cons c cs ih =>
      by_cases hc : p c = true
      · rw [List.splitOnPPrepend_cons_pos hc, List.reverse_reverse, ← List.splitOnPPrepend_nil_right]
        have hrest := ih []
        rw [List.reverse_nil] at hrest
        by_cases hnil : cur = []
        · simp [piecesFrom, hc, hnil, hrest]
        · simp [piecesFrom, hc, hnil, hrest]
      · have hc' : p c = false := by simpa using hc
        have hrest := ih (cur ++ [c])
        rw [List.reverse_append] at hrest
        rw [List.splitOnPPrepend_cons_neg hc', piecesFrom, if_neg hc]
        exact hrest

theorem pieces_eq_filter (p : α → Bool) (xs : List α) :
    pieces p xs = (xs.splitOnP p).filter fun x => !x.isEmpty :=
  piecesFrom_eq_filter p [] xs

/-- Joined texts are cut into the pieces of each of them. -/
theorem pieces_joined_eq_flatMap
    {p : α → Bool} {sep : α}
    (hsep : p sep = true)
    (xs : List (List α)) :
    pieces p (joined sep xs) = xs.flatMap (pieces p) := by
  induction xs with
  | nil => rfl
  | cons x xs ih =>
      cases xs with
      | nil => simp [joined]
      | cons y ys =>
          rw [joined, pieces_append_sep hsep, ih]
          rfl

/-- Records with terminators are the joined records and a last terminator. -/
theorem terminated_eq_joined
    {rs : List (List α)}
    (h : rs ≠ [])
    (sep : α) :
    terminated sep rs = joined sep rs ++ [sep] := by
  induction rs with
  | nil => exact absurd rfl h
  | cons r rs ih =>
      cases rs with
      | nil => simp [joined]
      | cons q qs =>
          rw [terminated_cons, ih (by simp), joined]
          simp

theorem mem_of_mem_joined
    {sep c : α} {xs : List (List α)}
    (h : c ∈ joined sep xs) :
    c = sep ∨ ∃ x ∈ xs, c ∈ x := by
  induction xs with
  | nil => simp [joined] at h
  | cons x xs ih =>
      cases xs with
      | nil => exact .inr ⟨x, by simp, by simpa [joined] using h⟩
      | cons y ys =>
          simp only [joined, List.mem_append, List.mem_cons] at h
          rcases h with h | h | h
          · exact .inr ⟨x, by simp, h⟩
          · exact .inl h
          · rcases ih h with e | ⟨z, hz, hc⟩
            · exact .inl e
            · exact .inr ⟨z, by simp [List.mem_cons.mp hz], hc⟩

theorem mem_of_mem_piecesFrom
    {p : α → Bool} {c : α} {cur xs x : List α}
    (h : x ∈ piecesFrom p cur xs)
    (hc : c ∈ x) :
    c ∈ cur ∨ c ∈ xs := by
  induction xs generalizing cur with
  | nil =>
      by_cases hnil : cur = []
      · simp [piecesFrom, hnil] at h
      · simp only [piecesFrom, if_neg hnil, List.mem_singleton] at h
        exact .inl (h ▸ hc)
  | cons d ds ih =>
      simp only [piecesFrom] at h
      split at h
      · split at h
        · rcases ih h with h' | h'
          · simp at h'
          · exact .inr (by simp [h'])
        · rcases List.mem_cons.mp h with rfl | h
          · exact .inl hc
          · rcases ih h with h' | h'
            · simp at h'
            · exact .inr (by simp [h'])
      · rcases ih h with h' | h'
        · rcases List.mem_append.mp h' with h' | h'
          · exact .inl h'
          · exact .inr (by simp [List.mem_singleton.mp h'])
        · exact .inr (by simp [h'])

/-- Every symbol of a piece is a symbol of the text. -/
theorem mem_of_mem_pieces
    {p : α → Bool} {c : α} {xs x : List α}
    (h : x ∈ pieces p xs)
    (hc : c ∈ x) :
    c ∈ xs := by
  rcases mem_of_mem_piecesFrom h hc with h' | h'
  · simp at h'
  · exact h'

end Pieces

section Rejoining

variable [DecidableEq α] {sep : α}

theorem records_eq_nil_iff (xs : List α) : records sep xs = [] ↔ xs = [] := by
  cases xs with
  | nil => simp
  | cons c cs =>
      simp only [records]
      split
      · simp
      · split <;> simp

/-- **Joining the records of a text** loses a separator at its end, and nothing else. -/
theorem joined_records (xs : List α) :
    joined sep (records sep xs) = if xs.getLast? = some sep then xs.dropLast else xs := by
  induction xs with
  | nil => rfl
  | cons c cs ih =>
      cases cs with
      | nil => by_cases hc : c = sep <;> simp [records, joined, hc]
      | cons d ds =>
          have hne : records sep (d :: ds) ≠ [] := by simp [records_eq_nil_iff]
          obtain ⟨r, rs, hr⟩ := List.exists_cons_of_ne_nil hne
          rw [hr] at ih
          rw [List.getLast?_cons_cons, List.dropLast_cons_of_ne_nil (by simp)]
          by_cases hc : c = sep
          · rw [hc, records_cons_sep, hr, joined, ih]
            split <;> rfl
          · have hcons : records sep (c :: d :: ds) = (c :: r) :: rs := by
              rw [records, if_neg hc, hr]
            have hjoin : joined sep ((c :: r) :: rs) = c :: joined sep (r :: rs) := by
              cases rs <;> rfl
            rw [hcons, hjoin, ih]
            split <;> rfl

end Rejoining

end LineText
