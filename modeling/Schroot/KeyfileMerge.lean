import Schroot.KeyfileText
import Schroot.Library.Effect

/-!
# Merging keyfiles

`operator +=` adds the groups and the keys of a keyfile to another one.  A key that both have is
taken from the one that is added, a group's comment and line from the one that it is added to.
`operator >>` merges a text only after it has been read to its end.

**Results.**
* `findGroup_append`: a merge, group by group.
* `append_assoc`, `append_empty`, `empty_append`: the laws of a merge.
* `append_laws`: what a merge keeps from where, and what a failure to read leaves.
-/

namespace Schroot

namespace Group

/-- A group with the items of another one, which replace its own. -/
def merge (g g' : Group) : Group :=
  { g with items := SortedMap.union g.items g'.items }

/-- Groups that may be missing. -/
def mergeOption : Option Group → Option Group → Option Group
  | g, none => g
  | none, some g' => some g'
  | some g, some g' => some (g.merge g')

theorem merge_assoc (g g' g'' : Group) : (g.merge g').merge g'' = g.merge (g'.merge g'') := by
  simp only [merge, SortedMap.union_assoc]

@[simp] theorem mergeOption_none (g : Option Group) : mergeOption g none = g := by
  cases g <;> rfl

@[simp] theorem none_mergeOption (g : Option Group) : mergeOption none g = g := by
  cases g <;> rfl

theorem mergeOption_assoc (g g' g'' : Option Group) :
    mergeOption (mergeOption g g') g'' = mergeOption g (mergeOption g' g'') := by
  cases g'' with
  | none => simp
  | some g'' =>
      cases g' with
      | none => simp
      | some g' =>
          cases g with
          | none => simp
          | some g => simp only [mergeOption, merge_assoc]

end Group

namespace Keyfile

section Groups

variable {kf : Keyfile} {group : String} {g : Group}

/-- The items of a group are inserted into a group that exists. -/
theorem findGroup_mergeItems
    (h : kf.findGroup group = some g)
    (items : List (String × Item))
    (group' : String) :
    (kf.mergeItems group items).findGroup group' =
      if group' = group then
        some { g with items := SortedMap.insertAll g.items items }
      else
        kf.findGroup group' := by
  induction items generalizing kf g with
  | nil =>
      by_cases hgroup : group' = group
      · simp [mergeItems, SortedMap.insertAll, hgroup, h]
      · simp [mergeItems, hgroup]
  | cons entry items ih =>
      have hnew : kf.groupOrNew group = g := by rw [groupOrNew, h]; rfl
      have hstep := findGroup_setItem kf group entry.1 entry.2
      have hself : (kf.setItem group entry.1 entry.2).findGroup group =
          some { g with items := g.items.insert entry.1 entry.2 } := by
        rw [hstep, if_pos rfl, hnew]
      show ((kf.setItem group entry.1 entry.2).mergeItems group items).findGroup group' = _
      rw [ih hself, hstep]
      by_cases hgroup : group' = group
      · simp [hgroup, SortedMap.insertAll]
      · simp [hgroup]

/-- One turn of the loop over the groups. -/
def mergeGroup (kf : Keyfile) (entry : String × Group) : Keyfile :=
  (kf.setGroup entry.1 entry.2.comment entry.2.line).mergeItems entry.1 entry.2.items.toList

theorem findGroup_mergeGroup
    (kf : Keyfile)
    (entry : String × Group)
    (group' : String) :
    (kf.mergeGroup entry).findGroup group' =
      if group' = entry.1 then
        Group.mergeOption (kf.findGroup entry.1) (some entry.2)
      else
        kf.findGroup group' := by
  obtain ⟨name, g'⟩ := entry
  have hset := findGroup_setGroup kf name g'.comment g'.line
  cases hfound : kf.findGroup name with
  | some g =>
      have hself : (kf.setGroup name g'.comment g'.line).findGroup name = some g := by
        rw [hset, if_neg (by simp [hfound]), hfound]
      have hother : (kf.setGroup name g'.comment g'.line).findGroup group' =
          kf.findGroup group' := by
        rw [hset, if_neg (by simp [hfound])]
      rw [mergeGroup, findGroup_mergeItems hself, hother]
      rfl
  | none =>
      have hself : (kf.setGroup name g'.comment g'.line).findGroup name =
          some ⟨∅, g'.comment, g'.line⟩ := by
        rw [hset, if_pos ⟨rfl, hfound⟩]
      rw [mergeGroup, findGroup_mergeItems hself, hset]
      by_cases hgroup : group' = name
      · rw [if_pos hgroup, if_pos hgroup, SortedMap.insertAll_toList]
        rfl
      · rw [if_neg hgroup, if_neg hgroup, if_neg fun h => hgroup h.1]

theorem findGroup_foldl_mergeGroup
    {entries : List (String × Group)}
    (hdistinct : (entries.map Prod.fst).Nodup)
    (kf : Keyfile)
    (group' : String) :
    (entries.foldl mergeGroup kf).findGroup group' =
      Group.mergeOption (kf.findGroup group') (SortedMap.lookup group' entries) := by
  induction entries generalizing kf with
  | nil => simp
  | cons entry entries ih =>
      rw [List.map_cons, List.nodup_cons] at hdistinct
      rw [List.foldl_cons, ih hdistinct.2, findGroup_mergeGroup, SortedMap.lookup_cons]
      by_cases hgroup : group' = entry.1
      · subst hgroup
        rw [SortedMap.lookup_eq_none_iff.mpr hdistinct.1]
        simp
      · rw [if_neg hgroup, if_neg (Ne.symm hgroup)]

/-- **A merge, group by group.** -/
theorem findGroup_append
    (a b : Keyfile)
    (group : String) :
    (a.append b).findGroup group = Group.mergeOption (a.findGroup group) (b.findGroup group) := by
  have hfold := findGroup_foldl_mergeGroup (SortedMap.nodup_keys_toList b.groups) a group
  rw [SortedMap.lookup_toList] at hfold
  exact hfold

end Groups

section Laws

theorem append_assoc (a b c : Keyfile) : (a.append b).append c = a.append (b.append c) := by
  apply ext_findGroup
  intro group
  simp only [findGroup_append, Group.mergeOption_assoc]

theorem findGroup_empty (group : String) : empty.findGroup group = none := by
  simp [findGroup, empty]

theorem append_empty (a : Keyfile) : a.append empty = a := by
  apply ext_findGroup
  intro group
  rw [findGroup_append, findGroup_empty, Group.mergeOption_none]

theorem empty_append (a : Keyfile) : empty.append a = a := by
  apply ext_findGroup
  intro group
  rw [findGroup_append, findGroup_empty, Group.none_mergeOption]

/-- A key with its comment and line comes from the keyfile that is added, if it has the key. -/
theorem findItem_append
    (a b : Keyfile)
    (group key : String) :
    (a.append b).findItem group key = (b.findItem group key).or (a.findItem group key) := by
  unfold findItem
  rw [findGroup_append]
  cases a.findGroup group with
  | none =>
      cases b.findGroup group with
      | none => rfl
      | some g' => simp
  | some g =>
      cases b.findGroup group with
      | none => rfl
      | some g' => exact SortedMap.getElem?_union g.items g'.items key

/-- The comment and the line of a group come from the keyfile that is added to, if it has the
group. -/
theorem heading_append
    (a b : Keyfile)
    (group : String) :
    ((a.append b).findGroup group).map (fun g => (g.comment, g.line)) =
      ((a.findGroup group).or (b.findGroup group)).map fun g => (g.comment, g.line) := by
  rw [findGroup_append]
  cases a.findGroup group with
  | none => simp
  | some g => cases b.findGroup group <;> rfl

theorem hasGroup_append
    (a b : Keyfile)
    (group : String) :
    (a.append b).hasGroup group = (a.hasGroup group || b.hasGroup group) := by
  unfold hasGroup
  rw [findGroup_append]
  cases a.findGroup group with
  | none => simp
  | some g => cases b.findGroup group <;> rfl

end Laws

section Extraction

/-- `operator >>` on a keyfile that is the state: the text is read into a keyfile of its own. -/
def extract (text : String) : Effect KeyfileFault Keyfile Unit := do
  let state ← Effect.ofExcept (readLines ({}, empty) (textLines text))
  Effect.change fun kf => kf.append state.2

/-- The same as a function of the target. -/
theorem exec_extract
    (kf : Keyfile)
    (text : String) :
    (extract text).exec kf =
      match kf.parse text with
      | .ok kf' => (.ok (), kf')
      | .error fault => (.error fault, kf) := by
  unfold parse extract
  cases readLines ({}, empty) (textLines text) <;> rfl

/-- **What a merge keeps from where**, its laws, and what a failure to read leaves. -/
theorem append_laws (a b c : Keyfile) :
    (∀ group, (a.append b).hasGroup group = (a.hasGroup group || b.hasGroup group)) ∧
      (∀ group key,
        (a.append b).findItem group key = (b.findItem group key).or (a.findItem group key)) ∧
      (∀ group, ((a.append b).findGroup group).map (fun g => (g.comment, g.line)) =
        ((a.findGroup group).or (b.findGroup group)).map fun g => (g.comment, g.line)) ∧
      (a.append b).append c = a.append (b.append c) ∧
      a.append empty = a ∧
      empty.append a = a ∧
      ∀ text fault a', (extract text).exec a = (.error fault, a') → a' = a := by
  refine ⟨hasGroup_append a b, findItem_append a b, heading_append a b, append_assoc a b c,
    append_empty a, empty_append a, fun text fault a' h => ?_⟩
  rw [exec_extract] at h
  cases hparse : a.parse text with
  | ok kf => simp [hparse] at h
  | error e =>
      simp only [hparse, Prod.mk.injEq] at h
      exact h.2.symm

end Extraction

end Keyfile

end Schroot
