import Mathlib.Data.List.Nodup
import Mathlib.Tactic.Common

/-!
# Sorted maps

Look-ups in lists of entries, and facts about `Std.ExtTreeMap` over a lawful order, with
look-ups stated by equality of keys.  `insertAll` inserts the entries of a list one after
the other.

**Results.**
* `lookup_eq_some_iff`: with distinct keys a look-up finds the entry with the key.
* `getElem?_insertAll`: a look-up after inserting a list.
* `insertAll_toList`: inserting the entries of a map into the empty map rebuilds it.
* `getElem?_union`, `union_assoc`: the union in which the second map decides.
* `keys_eq`: maps with the same keys list them alike.
-/

namespace SortedMap

universe u v

variable {κ : Type u} {ν : Type v}

section Lookup

variable [DecidableEq κ] {k : κ} {x : ν} {entries : List (κ × ν)}

/-- A look-up in a list of entries. -/
def lookup (k : κ) (entries : List (κ × ν)) : Option ν :=
  (entries.find? (fun e => e.1 = k)).map Prod.snd

@[simp] theorem lookup_nil : lookup k ([] : List (κ × ν)) = none := rfl

theorem lookup_eq_none_iff : lookup k entries = none ↔ k ∉ entries.map Prod.fst := by
  simp only [lookup, Option.map_eq_none_iff, List.find?_eq_none, decide_eq_true_eq, List.mem_map,
    not_exists, not_and]

theorem mem_of_lookup (h : lookup k entries = some x) : (k, x) ∈ entries := by
  obtain ⟨e, he, rfl⟩ := Option.map_eq_some_iff.mp h
  have hkey : e.1 = k := by simpa using List.find?_some he
  rw [← hkey]
  exact List.mem_of_find?_eq_some he

/-- With distinct keys a look-up finds the entry with the key. -/
theorem lookup_eq_some_iff
    (hdistinct : (entries.map Prod.fst).Nodup) :
    lookup k entries = some x ↔ (k, x) ∈ entries := by
  refine ⟨mem_of_lookup, fun h => ?_⟩
  cases hl : lookup k entries with
  | none => exact absurd (List.mem_map_of_mem h) (lookup_eq_none_iff.mp hl)
  | some y =>
      have hy := mem_of_lookup hl
      have heq := List.inj_on_of_nodup_map hdistinct h hy rfl
      rw [Prod.mk.injEq] at heq
      rw [heq.2]

theorem lookup_append (entries entries' : List (κ × ν)) :
    lookup k (entries ++ entries') = (lookup k entries).or (lookup k entries') := by
  unfold lookup
  rw [List.find?_append]
  cases entries.find? (fun e => e.1 = k) <;> rfl

theorem lookup_cons (e : κ × ν) (entries : List (κ × ν)) :
    lookup k (e :: entries) = if e.1 = k then some e.2 else lookup k entries := by
  by_cases h : e.1 = k
  · simp [lookup, h]
  · simp [lookup, h]

/-- Only the entries with the key matter. -/
theorem lookup_congr
    {entries' : List (κ × ν)}
    (h : entries.filter (fun e => e.1 = k) = entries'.filter (fun e => e.1 = k)) :
    lookup k entries = lookup k entries' := by
  rw [lookup, lookup, ← List.head?_filter, ← List.head?_filter, h]

/-- With distinct keys the order does not matter. -/
theorem lookup_reverse
    (hdistinct : (entries.map Prod.fst).Nodup) :
    lookup k entries.reverse = lookup k entries := by
  have hreverse : (entries.reverse.map Prod.fst).Nodup := by
    rwa [List.map_reverse, List.nodup_reverse]
  apply Option.ext
  intro x
  rw [lookup_eq_some_iff hreverse, lookup_eq_some_iff hdistinct, List.mem_reverse]

end Lookup

section Maps

variable [Ord κ] [Std.TransOrd κ]

theorem nodup_keys_toList (m : Std.ExtTreeMap κ ν) : (m.toList.map Prod.fst).Nodup := by
  rw [Std.ExtTreeMap.map_fst_toList_eq_keys]
  exact Std.ExtTreeMap.nodup_keys

/-- Insert the entries of a list from left to right. -/
def insertAll (m : Std.ExtTreeMap κ ν) (entries : List (κ × ν)) : Std.ExtTreeMap κ ν :=
  entries.foldl (fun m e => m.insert e.1 e.2) m

variable [Std.LawfulEqOrd κ] [DecidableEq κ]

theorem getElem?_insert
    (m : Std.ExtTreeMap κ ν)
    (k : κ) (x : ν) (a : κ) :
    (m.insert k x)[a]? = if a = k then some x else m[a]? := by
  rw [Std.ExtTreeMap.getElem?_insert]
  by_cases h : a = k
  · subst h
    simp
  · have hne : compare k a ≠ .eq := fun e =>
      h (Std.LawfulEqCmp.compare_eq_iff_eq.mp e).symm
    rw [if_neg hne, if_neg h]

theorem getElem?_insertIfNew
    (m : Std.ExtTreeMap κ ν)
    (k : κ) (x : ν) (a : κ) :
    (m.insertIfNew k x)[a]? = if a = k then some (m[k]?.getD x) else m[a]? := by
  rw [Std.ExtTreeMap.getElem?_insertIfNew]
  by_cases h : a = k
  · subst h
    by_cases hm : a ∈ m
    · simp [hm]
    · simp [hm]
  · have hne : compare k a ≠ .eq := fun e =>
      h (Std.LawfulEqCmp.compare_eq_iff_eq.mp e).symm
    rw [if_neg (fun e => hne e.1), if_neg h]

theorem getElem?_erase
    (m : Std.ExtTreeMap κ ν)
    (k a : κ) :
    (m.erase k)[a]? = if a = k then none else m[a]? := by
  rw [Std.ExtTreeMap.getElem?_erase]
  by_cases h : a = k
  · subst h
    simp
  · have hne : compare k a ≠ .eq := fun e =>
      h (Std.LawfulEqCmp.compare_eq_iff_eq.mp e).symm
    rw [if_neg hne, if_neg h]

theorem getElem?_insertAll
    (m : Std.ExtTreeMap κ ν)
    (entries : List (κ × ν))
    (k : κ) :
    (insertAll m entries)[k]? = (lookup k entries.reverse).or m[k]? := by
  induction entries generalizing m with
  | nil => simp [insertAll]
  | cons e es ih =>
      have hstep : insertAll m (e :: es) = insertAll (m.insert e.1 e.2) es := rfl
      rw [hstep, ih, getElem?_insert, List.reverse_cons, lookup_append, lookup_cons, lookup_nil]
      by_cases hk : e.1 = k
      · simp [hk]
      · simp [hk, Ne.symm hk]

/-- Insert the entries of a list from left to right, unless their keys are taken. -/
def insertAllNew (m : Std.ExtTreeMap κ ν) (entries : List (κ × ν)) : Std.ExtTreeMap κ ν :=
  entries.foldl (fun m e => m.insertIfNew e.1 e.2) m

theorem lookup_toList (m : Std.ExtTreeMap κ ν) (k : κ) : lookup k m.toList = m[k]? := by
  apply Option.ext
  intro x
  rw [lookup_eq_some_iff (nodup_keys_toList m), Std.ExtTreeMap.mem_toList_iff_getElem?_eq_some]

/-- **Inserting the entries of a map** into the empty map rebuilds it. -/
theorem insertAll_toList (m : Std.ExtTreeMap κ ν) : insertAll ∅ m.toList = m := by
  apply Std.ExtTreeMap.ext_getElem?
  intro k
  rw [getElem?_insertAll, lookup_reverse (nodup_keys_toList m), lookup_toList]
  simp

/-- The union of two maps; for a key of both the second one decides. -/
def union (m m' : Std.ExtTreeMap κ ν) : Std.ExtTreeMap κ ν :=
  insertAll m m'.toList

theorem getElem?_union (m m' : Std.ExtTreeMap κ ν) (k : κ) :
    (union m m')[k]? = (m'[k]?).or m[k]? := by
  rw [union, getElem?_insertAll, lookup_reverse (nodup_keys_toList m'), lookup_toList]

theorem union_assoc (m m' m'' : Std.ExtTreeMap κ ν) :
    union (union m m') m'' = union m (union m' m'') := by
  apply Std.ExtTreeMap.ext_getElem?
  intro k
  simp only [getElem?_union]
  exact (Option.or_assoc).symm

omit [DecidableEq κ] in
/-- Maps with the same keys list them alike. -/
theorem keys_eq
    {ν' : Type v} {m : Std.ExtTreeMap κ ν} {m' : Std.ExtTreeMap κ ν'}
    (h : ∀ k : κ, (m[k]?).isSome = (m'[k]?).isSome) :
    m.keys = m'.keys := by
  have hmap : m.map (fun _ _ => ()) = m'.map (fun _ _ => ()) := by
    apply Std.ExtTreeMap.ext_getElem?
    intro k
    have hk := h k
    rw [Std.ExtTreeMap.getElem?_map, Std.ExtTreeMap.getElem?_map]
    cases hm : m[k]? with
    | none => cases hm' : m'[k]? <;> simp_all
    | some x => cases hm' : m'[k]? <;> simp_all
  have hkeys : ∀ {μ : Type v} (m : Std.ExtTreeMap κ μ), (m.map fun _ _ => ()).keys = m.keys := by
    intro μ m
    rw [← Std.ExtTreeMap.map_fst_toList_eq_keys, ← Std.ExtTreeMap.map_fst_toList_eq_keys,
      Std.ExtTreeMap.toList_map, List.map_map]
    rfl
  rw [← hkeys m, hmap, hkeys]

end Maps

end SortedMap
