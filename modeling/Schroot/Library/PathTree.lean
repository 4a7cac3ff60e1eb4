import Mathlib.Data.List.Basic
import Mathlib.Tactic.Common

/-!
# Trees with symbolic links

Directory trees over arbitrary names, and the walk that looks a path up in one.  A location is
the list of the names that lead to it, the innermost one first.

**Algorithm.**  `walk` takes the steps of a path one by one.  At a symbolic link it goes on with
the steps of the target in front of those that are left; it follows at most as many links as it
is given, and a link at the end of the path only if it is told to.

**Results.**
* `walk_append`: a walk goes on from where its beginning leads.
* `walk_location`: the names of a location lead to it.
* `exists_prefix_isLinkAt_iff`: a path without steps up has a beginning that is a link if and
  only if there is a link straight below where it starts.
* `walk_below`: a path without steps up and without such a link stays below its start.
-/

namespace PathTree

universe u

/-- A step of a path. -/
inductive Step (ν : Type u) where
  | stay
  | up
  | down (name : ν)

/-- What is at a location. -/
inductive Kind (ν : Type u) where
  | dir
  | file
  | link (absolute : Bool) (target : List (Step ν))

/-- A directory tree: what exists is in a directory. -/
structure DirTree (ν : Type u) where
  kind : List ν → Option (Kind ν)
  root : kind [] = some .dir
  parent : ∀ name loc, kind (name :: loc) ≠ none → kind loc = some .dir

variable {ν : Type u}

namespace DirTree

section Walk

def isDirAt (t : DirTree ν) (loc : List ν) : Bool :=
  match t.kind loc with
  | some .dir => true
  | _ => false

def isLinkAt (t : DirTree ν) (loc : List ν) : Bool :=
  match t.kind loc with
  | some (.link _ _) => true
  | _ => false

/-- A walk that goes on with `enter` at a link. -/
def walkWith (t : DirTree ν) (follow : Bool) (enter : List ν → List (Step ν) → Option (List ν)) :
    List ν → List (Step ν) → Option (List ν)
  | loc, [] => some loc
  | loc, step :: steps =>
      if t.isDirAt loc then
        match step with
        | .stay => walkWith t follow enter loc steps
        | .up => walkWith t follow enter loc.tail steps
        | .down name =>
            match t.kind (name :: loc) with
            | none => none
            | some (.link absolute target) =>
                if steps.isEmpty && !follow then
                  some (name :: loc)
                else
                  enter (if absolute then [] else loc) (target ++ steps)
            | some _ => walkWith t follow enter (name :: loc) steps
      else
        none

/-- Where a path leads, if it leads anywhere. -/
def walk (t : DirTree ν) (follow : Bool) : Nat → List ν → List (Step ν) → Option (List ν)
  | 0 => walkWith t follow fun _ _ => none
  | links + 1 => walkWith t follow (walk t follow links)

end Walk

section Equations

variable {t : DirTree ν} {follow : Bool} {n : Nat} {loc : List ν} {name : ν} {steps : List (Step ν)}

theorem isDirAt_iff : t.isDirAt loc = true ↔ t.kind loc = some .dir := by
  unfold isDirAt
  split <;> simp_all

theorem isLinkAt_iff : t.isLinkAt loc = true ↔ ∃ absolute target, t.kind loc = some (.link absolute target) := by
  unfold isLinkAt
  split <;> simp_all

theorem not_isLinkAt_of_isDirAt
    (h : t.isDirAt loc = true) :
    t.isLinkAt loc = false := by
  rw [isDirAt_iff] at h
  simp [isLinkAt, h]

@[simp] theorem walk_nil (t : DirTree ν) (follow : Bool) (n : Nat) (loc : List ν) :
    t.walk follow n loc [] = some loc := by
  cases n <;> rfl

theorem walk_of_not_isDirAt
    (h : t.isDirAt loc = false)
    (step : Step ν) (steps : List (Step ν)) :
    t.walk follow n loc (step :: steps) = none := by
  cases n <;> simp [walk, walkWith, h]

theorem walk_stay
    (h : t.isDirAt loc = true) :
    t.walk follow n loc (.stay :: steps) = t.walk follow n loc steps := by
  cases n <;> simp [walk, walkWith, h]

theorem walk_up
    (h : t.isDirAt loc = true) :
    t.walk follow n loc (.up :: steps) = t.walk follow n loc.tail steps := by
  cases n <;> simp [walk, walkWith, h]

theorem walk_down_of_none
    (h : t.kind (name :: loc) = none) :
    t.walk follow n loc (.down name :: steps) = none := by
  cases n <;> simp [walk, walkWith, h]

/-- A step down to something that is not a link. -/
theorem walk_down
    (hsome : t.kind (name :: loc) ≠ none)
    (hlink : t.isLinkAt (name :: loc) = false) :
    t.walk follow n loc (.down name :: steps) = t.walk follow n (name :: loc) steps := by
  have hdir : t.isDirAt loc = true := isDirAt_iff.mpr (t.parent name loc hsome)
  cases hkind : t.kind (name :: loc) with
  | none => exact absurd hkind hsome
  | some k =>
      cases k with
      | link absolute target => simp [isLinkAt, hkind] at hlink
      | _ => cases n <;> simp [walk, walkWith, hdir, hkind]

/-- A step down to a link. -/
theorem walk_down_of_link
    {absolute : Bool} {target : List (Step ν)}
    (h : t.kind (name :: loc) = some (.link absolute target)) :
    t.walk follow n loc (.down name :: steps) =
      if steps.isEmpty && !follow then
        some (name :: loc)
      else
        match n with
        | 0 => none
        | n + 1 => t.walk follow n (if absolute then [] else loc) (target ++ steps) := by
  have hdir : t.isDirAt loc = true := isDirAt_iff.mpr (t.parent name loc (by simp [h]))
  cases n <;> simp [walk, walkWith, hdir, h]

end Equations

section Locations

variable {t : DirTree ν} {n : Nat} {loc : List ν}

/-- **A walk goes on** from where its beginning leads, perhaps with fewer links to follow. -/
theorem walk_append
    {loc' : List ν} {before : List (Step ν)}
    (h : t.walk true n loc before = some loc') :
    ∃ n', ∀ follow after, after ≠ [] →
      t.walk follow n loc (before ++ after) = t.walk follow n' loc' after := by
  induction n using Nat.strongRecOn generalizing loc before with
  | _ n ihn =>
      induction before generalizing loc with
      | nil =>
          rw [walk_nil] at h
          cases h
          exact ⟨n, fun _ _ _ => rfl⟩
      | cons step before ih =>
          by_cases hdir : t.isDirAt loc = true
          · cases step with
            | stay =>
                rw [walk_stay hdir] at h
                obtain ⟨n', hn'⟩ := ih h
                refine ⟨n', fun follow after hne => ?_⟩
                rw [List.cons_append, walk_stay hdir, hn' follow after hne]
            | up =>
                rw [walk_up hdir] at h
                obtain ⟨n', hn'⟩ := ih h
                refine ⟨n', fun follow after hne => ?_⟩
                rw [List.cons_append, walk_up hdir, hn' follow after hne]
            | down name =>
                by_cases hlink : t.isLinkAt (name :: loc) = true
                · obtain ⟨absolute, target, hkind⟩ := isLinkAt_iff.mp hlink
                  rw [walk_down_of_link hkind] at h
                  cases n with
                  | zero => simp at h
                  | succ n =>
                      simp only [Bool.not_true, Bool.and_false, Bool.false_eq_true, if_false] at h
                      obtain ⟨n', hn'⟩ := ihn n (Nat.lt_succ_self n) h
                      refine ⟨n', fun follow after hne => ?_⟩
                      rw [List.cons_append, walk_down_of_link hkind, if_neg (by simp [hne]),
                        ← List.append_assoc]
                      exact hn' follow after hne
                · have hlink' : t.isLinkAt (name :: loc) = false := by simpa using hlink
                  have hsome : t.kind (name :: loc) ≠ none := by
                    intro hnone
                    rw [walk_down_of_none hnone] at h
                    cases h
                  rw [walk_down hsome hlink'] at h
                  obtain ⟨n', hn'⟩ := ih h
                  refine ⟨n', fun follow after hne => ?_⟩
                  rw [List.cons_append, walk_down hsome hlink', hn' follow after hne]
          · rw [walk_of_not_isDirAt (by simpa using hdir)] at h
            cases h

/-- A walk that follows every link leads to something that is not a link. -/
theorem walk_true_exists
    {loc' : List ν} {steps : List (Step ν)}
    (hsome : t.kind loc ≠ none)
    (hlink : t.isLinkAt loc = false)
    (h : t.walk true n loc steps = some loc') :
    t.kind loc' ≠ none ∧ t.isLinkAt loc' = false := by
  have hroot : t.kind [] ≠ none ∧ t.isLinkAt [] = false := by simp [isLinkAt, t.root]
  induction n using Nat.strongRecOn generalizing loc steps with
  | _ n ihn =>
      induction steps generalizing loc with
      | nil =>
          rw [walk_nil] at h
          cases h
          exact ⟨hsome, hlink⟩
      | cons step steps ih =>
          by_cases hdir : t.isDirAt loc = true
          · cases step with
            | stay =>
                rw [walk_stay hdir] at h
                exact ih hsome hlink h
            | up =>
                rw [walk_up hdir] at h
                cases loc with
                | nil => exact ih hroot.1 hroot.2 h
                | cons name outer =>
                    have houter := t.parent name outer hsome
                    exact ih (by simp [houter]) (not_isLinkAt_of_isDirAt (isDirAt_iff.mpr houter)) h
            | down name =>
                by_cases hlink' : t.isLinkAt (name :: loc) = true
                · obtain ⟨absolute, target, hkind⟩ := isLinkAt_iff.mp hlink'
                  rw [walk_down_of_link hkind] at h
                  cases n with
                  | zero => simp at h
                  | succ n =>
                      simp only [Bool.not_true, Bool.and_false, Bool.false_eq_true, if_false] at h
                      cases absolute with
                      | true => exact ihn n (Nat.lt_succ_self n) hroot.1 hroot.2 h
                      | false => exact ihn n (Nat.lt_succ_self n) hsome hlink h
                · have hlink'' : t.isLinkAt (name :: loc) = false := by simpa using hlink'
                  have hsome' : t.kind (name :: loc) ≠ none := by
                    intro hnone
                    rw [walk_down_of_none hnone] at h
                    cases h
                  rw [walk_down hsome' hlink''] at h
                  exact ih hsome' hlink'' h
          · rw [walk_of_not_isDirAt (by simpa using hdir)] at h
            cases h

/-- **The names of a location lead to it.** -/
theorem walk_location
    {follow : Bool}
    (hsome : t.kind loc ≠ none)
    (hlink : t.isLinkAt loc = false)
    (steps : List (Step ν)) :
    t.walk follow n [] ((loc.map .down).reverse ++ steps) = t.walk follow n loc steps := by
  induction loc generalizing steps with
  | nil => rfl
  | cons name loc ih =>
      have hdir := t.parent name loc hsome
      have hrest := ih (by simp [hdir]) (not_isLinkAt_of_isDirAt (isDirAt_iff.mpr hdir))
        (.down name :: steps)
      rw [List.map_cons, List.reverse_cons, List.append_assoc, List.singleton_append, hrest,
        walk_down hsome hlink]

/-- What contains an existing location is a directory. -/
theorem isDirAt_of_append
    {inner : List ν}
    (h : t.kind (inner ++ loc) ≠ none)
    (hne : inner ≠ []) :
    t.isDirAt loc = true := by
  induction inner with
  | nil => exact absurd rfl hne
  | cons name inner ih =>
      have hdir := t.parent name (inner ++ loc) h
      by_cases hnil : inner = []
      · subst hnil
        exact isDirAt_iff.mpr hdir
      · exact ih (by simp [hdir]) hnil

/-- Around what is not a link there is no link. -/
theorem not_isLinkAt_of_append
    {inner : List ν}
    (hsome : t.kind (inner ++ loc) ≠ none)
    (hlink : t.isLinkAt (inner ++ loc) = false) :
    t.kind loc ≠ none ∧ t.isLinkAt loc = false := by
  by_cases hne : inner = []
  · subst hne
    exact ⟨hsome, hlink⟩
  · have hdir := isDirAt_of_append hsome hne
    exact ⟨by simp [isDirAt_iff.mp hdir], not_isLinkAt_of_isDirAt hdir⟩

end Locations

section Below

/-- No step goes up. -/
def NoUp (steps : List (Step ν)) : Prop :=
  .up ∉ steps

/-- There is a link at one of the locations that steps down pass. -/
def HasLink (t : DirTree ν) : List ν → List (Step ν) → Prop
  | _, [] => False
  | loc, .down name :: steps => t.isLinkAt (name :: loc) = true ∨ HasLink t (name :: loc) steps
  | loc, .stay :: steps => HasLink t loc steps
  | loc, .up :: steps => HasLink t loc.tail steps

/-- The location that steps without a step up name. -/
def locationBelow : List ν → List (Step ν) → List ν
  | loc, [] => loc
  | loc, .down name :: steps => locationBelow (name :: loc) steps
  | loc, _ :: steps => locationBelow loc steps

variable {t : DirTree ν} {n : Nat} {loc : List ν} {steps : List (Step ν)}

theorem locationBelow_eq (loc : List ν) (steps : List (Step ν)) :
    ∃ inner, locationBelow loc steps = inner ++ loc := by
  induction steps generalizing loc with
  | nil => exact ⟨[], rfl⟩
  | cons step steps ih =>
      cases step with
      | down name =>
          obtain ⟨inner, hinner⟩ := ih (name :: loc)
          exact ⟨inner ++ [name], by simp [locationBelow, hinner]⟩
      | _ => exact ih loc

theorem not_hasLink_of_not_isDirAt
    (hup : NoUp steps)
    (hdir : t.isDirAt loc = false) :
    ¬ t.HasLink loc steps := by
  induction steps generalizing loc with
  | nil => exact id
  | cons step steps ih =>
      have hup' : NoUp steps := fun h => hup (List.mem_cons_of_mem _ h)
      cases step with
      | stay => exact ih hup' hdir
      | up => exact absurd List.mem_cons_self hup
      | down name =>
          have hnone : t.kind (name :: loc) = none := by
            by_contra hsome
            rw [isDirAt_iff.mpr (t.parent name loc hsome)] at hdir
            cases hdir
          rintro (hlink | hrest)
          · simp [isLinkAt, hnone] at hlink
          · exact ih hup' (by simp [isDirAt, hnone]) hrest

/-- **A path without steps up has a beginning that is a link** if and only if there is a link
straight below where it starts; how many links may be followed does not matter. -/
theorem exists_prefix_isLinkAt_iff
    (hup : NoUp steps)
    (hstart : t.isLinkAt loc = false) :
    (∃ before, before <+: steps ∧
        ∃ loc', t.walk false n loc before = some loc' ∧ t.isLinkAt loc' = true) ↔
      t.HasLink loc steps := by
  induction steps generalizing loc with
  | nil =>
      refine iff_of_false ?_ id
      rintro ⟨before, hprefix, loc', hwalk, hlink⟩
      rw [List.prefix_nil.mp hprefix, walk_nil] at hwalk
      cases hwalk
      rw [hstart] at hlink
      cases hlink
  | cons step steps ih =>
      have hup' : NoUp steps := fun h => hup (List.mem_cons_of_mem _ h)
      by_cases hdir : t.isDirAt loc = true
      · have hcons : ∀ P : List (Step ν) → Prop, ¬ P [] →
            ((∃ before, before <+: step :: steps ∧ P before) ↔
              ∃ before, before <+: steps ∧ P (step :: before)) := by
          intro P hnil
          constructor
          · rintro ⟨before, hprefix, hP⟩
            rcases List.prefix_cons_iff.mp hprefix with rfl | ⟨before', rfl, hprefix'⟩
            · exact absurd hP hnil
            · exact ⟨before', hprefix', hP⟩
          · rintro ⟨before, hprefix, hP⟩
            exact ⟨step :: before, List.prefix_cons_inj step |>.mpr hprefix, hP⟩
        rw [hcons _ (by simp [hstart])]
        cases step with
        | stay => simp only [walk_stay hdir, ih hup' hstart, HasLink]
        | up => exact absurd List.mem_cons_self hup
        | down name =>
            by_cases hlink : t.isLinkAt (name :: loc) = true
            · obtain ⟨absolute, target, hkind⟩ := isLinkAt_iff.mp hlink
              refine iff_of_true ⟨[], List.nil_prefix, name :: loc, ?_, hlink⟩ (.inl hlink)
              rw [walk_down_of_link hkind]
              rfl
            · have hlink' : t.isLinkAt (name :: loc) = false := by simpa using hlink
              by_cases hsome : t.kind (name :: loc) = none
              · refine iff_of_false ?_ ?_
                · rintro ⟨before, -, loc', hwalk, -⟩
                  rw [walk_down_of_none hsome] at hwalk
                  cases hwalk
                · rintro (h | h)
                  · exact hlink h
                  · exact not_hasLink_of_not_isDirAt hup' (by simp [isDirAt, hsome]) h
              · simp only [walk_down hsome hlink', ih hup' hlink', HasLink, hlink', false_or,
                  Bool.false_eq_true]
      · have hdir' : t.isDirAt loc = false := by simpa using hdir
        refine iff_of_false ?_ (not_hasLink_of_not_isDirAt hup hdir')
        rintro ⟨before, -, loc', hwalk, hlink⟩
        cases before with
        | nil =>
            rw [walk_nil] at hwalk
            cases hwalk
            rw [hstart] at hlink
            cases hlink
        | cons step' before =>
            rw [walk_of_not_isDirAt hdir'] at hwalk
            cases hwalk

/-- **A path without steps up and without links stays below its start.** -/
theorem walk_below
    {follow : Bool} {loc' : List ν}
    (hup : NoUp steps)
    (hlink : ¬ t.HasLink loc steps)
    (h : t.walk follow n loc steps = some loc') :
    loc' = locationBelow loc steps := by
  induction steps generalizing loc with
  | nil =>
      rw [walk_nil] at h
      exact (Option.some.inj h).symm
  | cons step steps ih =>
      have hup' : NoUp steps := fun h => hup (List.mem_cons_of_mem _ h)
      by_cases hdir : t.isDirAt loc = true
      · cases step with
        | stay =>
            rw [walk_stay hdir] at h
            exact ih hup' hlink h
        | up => exact absurd List.mem_cons_self hup
        | down name =>
            have hlink' : t.isLinkAt (name :: loc) = false := by
              simpa using fun hl => hlink (.inl hl)
            have hsome : t.kind (name :: loc) ≠ none := by
              intro hnone
              rw [walk_down_of_none hnone] at h
              cases h
            rw [walk_down hsome hlink'] at h
            exact ih hup' (fun hrest => hlink (.inr hrest)) h
      · rw [walk_of_not_isDirAt (by simpa using hdir)] at h
        cases h

/-- Staying at the end does not matter. -/
theorem hasLink_append_stay (t : DirTree ν) (loc : List ν) (steps : List (Step ν)) :
    t.HasLink loc (steps ++ [.stay]) ↔ t.HasLink loc steps := by
  induction steps generalizing loc with
  | nil => exact Iff.rfl
  | cons step steps ih =>
      cases step with
      | stay => exact ih loc
      | up => exact ih loc.tail
      | down name => exact or_congr_right (ih (name :: loc))

/-- A tree that is found below a location of another one has the same links there. -/
theorem hasLink_of_subtree
    {host : DirTree ν} {base : List ν}
    (loc : List ν)
    (hsub : ∀ inner, host.kind (inner ++ base) = t.kind inner)
    (hup : NoUp steps)
    (h : host.HasLink (loc ++ base) steps) :
    t.HasLink loc steps := by
  have hsame : ∀ inner, host.isLinkAt (inner ++ base) = t.isLinkAt inner := fun inner => by
    rw [isLinkAt, hsub, isLinkAt]
  induction steps generalizing loc with
  | nil => exact h
  | cons step steps ih =>
      have hup' : NoUp steps := fun h => hup (List.mem_cons_of_mem _ h)
      cases step with
      | stay => exact ih loc hup' h
      | up => exact absurd List.mem_cons_self hup
      | down name =>
          rcases h with h | h
          · exact .inl (hsame (name :: loc) ▸ h)
          · exact .inr (ih (name :: loc) hup' h)

end Below

end DirTree

end PathTree
