import Mathlib.Data.List.Basic
import Mathlib.Data.List.Nodup
import Mathlib.Tactic.Common

/-!
# Lists with one entry per tag

An ordered list of entries that each carry a tag.  `get?` returns the first entry
with a tag, `add` appends an entry unless its tag is taken, `remove` drops the first
entry with a tag, and `replace` puts an entry in the place of the first one with the
same tag.

**Results.**
* Every operation keeps the tags distinct (`nodup_add`, `nodup_remove`,
  `tags_replace`).
* Every look-up after an operation is a look-up before it (`get?_append`,
  `get?_remove`, `get?_replace`).
* `exists_split`: where an entry stands that is replaced.
-/

namespace TaggedList

universe u v

variable {α : Type u} {τ : Type v}

/-- The tags in order. -/
def tags (tag : α → τ) (l : List α) : List τ :=
  l.map tag

theorem tags_append (tag : α → τ) (l : List α) (x : α) :
    tags tag (l ++ [x]) = tags tag l ++ [tag x] := by
  simp [tags]

variable [DecidableEq τ]

/-- The first entry with a tag. -/
def get? (tag : α → τ) (t : τ) (l : List α) : Option α :=
  l.find? (fun x => tag x = t)

/-- Some entry has the tag. -/
def has (tag : α → τ) (t : τ) (l : List α) : Bool :=
  l.any (fun x => tag x = t)

/-- Append an entry unless its tag is taken. -/
def add (tag : α → τ) (x : α) (l : List α) : Option (List α) :=
  if has tag (tag x) l then none else some (l ++ [x])

/-- Drop the first entry with a tag. -/
def remove (tag : α → τ) (t : τ) (l : List α) : List α :=
  l.eraseP (fun x => tag x = t)

/-- Put an entry in the place of the first one with the same tag. -/
def replace (tag : α → τ) (x : α) : List α → List α
  | [] => []
  | y :: ys => if tag y = tag x then x :: ys else y :: replace tag x ys

variable {tag : α → τ}

theorem has_iff_mem_tags {t : τ} {l : List α} :
    has tag t l = true ↔ t ∈ tags tag l := by
  simp [has, tags]

theorem has_eq_isSome_get? (t : τ) (l : List α) :
    has tag t l = (get? tag t l).isSome := by
  rw [Bool.eq_iff_iff, get?, List.find?_isSome]
  simp [has]

theorem get?_append (t : τ) (l l' : List α) :
    get? tag t (l ++ l') = (get? tag t l).or (get? tag t l') :=
  List.find?_append

theorem get?_remove
    {s t : τ}
    (h : s ≠ t)
    (l : List α) :
    get? tag s (remove tag t l) = get? tag s l := by
  induction l with
  | nil => rfl
  | cons y ys ih =>
      by_cases hy : tag y = t
      · have hys : ¬ t = s := fun e => h e.symm
        simp [remove, get?, hy, hys]
      · have hremove : remove tag t (y :: ys) = y :: remove tag t ys := by simp [remove, hy]
        rw [hremove]
        by_cases hys : tag y = s
        · simp [get?, hys]
        · simpa [get?, hys] using ih

theorem tags_remove (t : τ) (l : List α) :
    tags tag (remove tag t l) = (tags tag l).erase t := by
  have hmap := (List.eraseP_map (f := tag) (p := fun s => decide (s = t)) (l := l)).symm
  rw [List.erase_eq_eraseP]
  refine hmap.trans (congrArg (fun p => (l.map tag).eraseP p) (funext fun s => ?_))
  rw [Bool.eq_iff_iff]
  simpa using eq_comm

theorem nodup_remove
    {l : List α}
    (hl : (tags tag l).Nodup)
    (t : τ) :
    (tags tag (remove tag t l)).Nodup :=
  tags_remove t l ▸ hl.erase t

theorem tags_replace (x : α) (l : List α) :
    tags tag (replace tag x l) = tags tag l := by
  induction l with
  | nil => rfl
  | cons y ys ih =>
      by_cases h : tag y = tag x
      · simp [replace, h, tags]
      · simpa [replace, h, tags] using ih

theorem mem_replace
    {x y : α} {l : List α}
    (h : y ∈ replace tag x l) :
    y = x ∨ y ∈ l := by
  induction l with
  | nil => cases h
  | cons z zs ih =>
      unfold replace at h
      split at h
      · rcases List.mem_cons.mp h with rfl | h
        · exact .inl rfl
        · exact .inr (List.mem_cons_of_mem z h)
      · rcases List.mem_cons.mp h with rfl | h
        · exact .inr List.mem_cons_self
        · exact (ih h).imp_right (List.mem_cons_of_mem z)

theorem get?_replace (x : α) (l : List α) (t : τ) :
    get? tag t (replace tag x l) =
      if t = tag x then (get? tag t l).map (fun _ => x) else get? tag t l := by
  induction l with
  | nil => simp [get?, replace]
  | cons y ys ih =>
      by_cases hy : tag y = tag x
      · by_cases ht : t = tag x
        · simp [replace, get?, hy, ht]
        · have h1 : ¬ tag x = t := fun e => ht e.symm
          simp [replace, get?, hy, ht, h1]
      · by_cases hyt : tag y = t
        · have ht : ¬ t = tag x := fun e => hy (hyt.trans e)
          simp [replace, get?, hyt, ht]
        · simpa [replace, hy, get?, hyt] using ih

theorem replace_replace
    {x y : α}
    (h : tag x = tag y)
    (l : List α) :
    replace tag y (replace tag x l) = replace tag y l := by
  induction l with
  | nil => rfl
  | cons z zs ih =>
      by_cases hz : tag z = tag y
      · simp [replace, h, hz]
      · simp [replace, h, hz, ih]

/-- With distinct tags a list is cut at the entry that a look-up finds. -/
theorem exists_split
    {l : List α} {t : τ} {x : α}
    (hl : (tags tag l).Nodup)
    (h : get? tag t l = some x) :
    ∃ before after, l = before ++ x :: after ∧ (∀ y ∈ before ++ after, tag y ≠ t) ∧
      ∀ z, tag z = t → replace tag z l = before ++ z :: after := by
  induction l with
  | nil => cases h
  | cons y ys ih =>
      have hys : (tags tag ys).Nodup := (List.nodup_cons.mp hl).2
      have hy : tag y ∉ tags tag ys := (List.nodup_cons.mp hl).1
      by_cases hyt : tag y = t
      · subst hyt
        have hxy : y = x := by simpa [get?] using h
        subst hxy
        refine ⟨[], ys, rfl, fun z hz he => ?_, fun z hz => by simp [replace, hz]⟩
        exact hy (he ▸ List.mem_map_of_mem hz)
      · have hrest : get? tag t ys = some x := by simpa [get?, hyt] using h
        obtain ⟨before, after, rfl, htags, hreplace⟩ := ih hys hrest
        refine ⟨y :: before, after, rfl, fun z hz => ?_, fun z hz => ?_⟩
        · rcases List.mem_cons.mp hz with rfl | hz
          · exact hyt
          · exact htags z hz
        · have hne : ¬ tag y = tag z := fun e => hyt (e.trans hz)
          rw [replace, if_neg hne, hreplace z hz]
          rfl

theorem has_eq_of_tags_eq
    {l l' : List α}
    (h : tags tag l = tags tag l')
    (t : τ) :
    has tag t l = has tag t l' := by
  rw [Bool.eq_iff_iff, has_iff_mem_tags, has_iff_mem_tags, h]

end TaggedList
