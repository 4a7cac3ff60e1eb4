import Schroot.EnvironmentFilter

/-!
# The exec form of an environment

`get_strv` writes an environment as the strings that `exec` takes, and the constructor reads such
strings.  A string that starts with an equals sign is read as the name of an empty variable, and
written with one more equals sign behind it.

**Results.**
* `splitEntry_entry`: a written variable is read back when its name has no equals sign.
* `rebuild_ofStrings_iff`: when reading what was written gives the environment.
-/

namespace Schroot

namespace Environment

section Strings

/-- A string of the exec form. -/
def entry (name value : String) : String :=
  name ++ "=" ++ value

/-- `environment::get_strv`. -/
def getStrv (env : Environment) : List String :=
  env.toList.map fun e => entry e.1 e.2

/-- A string that starts with an equals sign. -/
def Nameless (s : String) : Prop :=
  s.toList.head? = some '='

instance (s : String) : Decidable (Nameless s) :=
  inferInstanceAs (Decidable (_ = _))

variable {name value s : String}

theorem toList_entry (name value : String) :
    (entry name value).toList = name.toList ++ '=' :: value.toList := by
  simp [entry, String.toList_append]

theorem length_entry (name value : String) :
    name.toList.length < (entry name value).toList.length := by
  rw [toList_entry]
  simp

/-- A nameless string is a name as it stands. -/
theorem splitEntry_of_nameless
    (h : Nameless s) :
    splitEntry s = (s, "") := by
  unfold Nameless at h
  cases hs : s.toList with
  | nil => simp [hs] at h
  | cons c cs =>
      have hc : c = '=' := by simpa [hs] using h
      simp [splitEntry, hs, hc]

/-- **A written variable is read back** when its name has no equals sign. -/
theorem splitEntry_entry
    (hname : name ≠ "")
    (hequals : '=' ∉ name.toList)
    (value : String) :
    splitEntry (entry name value) = (name, value) := by
  have hchars : name.toList ≠ [] := fun h => hname (String.toList_inj.mp h)
  have htake : (entry name value).toList.takeWhile (· ≠ '=') = name.toList := by
    rw [toList_entry, List.takeWhile_append_of_pos]
    · simp
    · intro c hc
      have hne : c ≠ '=' := fun h => hequals (h ▸ hc)
      simpa using hne
  have hmem : '=' ∈ (entry name value).toList := by simp [toList_entry]
  have hdrop : (entry name value).toList.drop (name.toList.length + 1) = value.toList := by
    rw [toList_entry, List.drop_length_add_append]
    rfl
  simp only [splitEntry, htake]
  rw [if_neg (by simp [hchars, hmem]), hdrop]
  simp

/-- The names that are read have no equals sign, except for nameless strings. -/
theorem notMem_splitEntry
    (h : ¬ Nameless s) :
    '=' ∉ (splitEntry s).1.toList := by
  simp only [splitEntry]
  split
  · next hcase =>
      rcases hcase with htake | hmem
      · cases hs : s.toList with
        | nil => simp
        | cons c cs =>
            have hc : c = '=' := by
              by_contra hc
              simp [hs, hc] at htake
            exact absurd (by simp [Nameless, hs, hc]) h
      · exact hmem
  · rw [String.toList_ofList]
    intro hmem
    have hall := List.all_eq_true.mp List.all_takeWhile '=' hmem
    simp at hall

theorem splitEntry_of_not_nameless
    (h : ¬ Nameless s) :
    ¬ Nameless (splitEntry s).1 := by
  intro hname
  refine notMem_splitEntry h ?_
  cases hs : (splitEntry s).1.toList with
  | nil => simp [Nameless, hs] at hname
  | cons c cs =>
      have hc : c = '=' := by simpa [Nameless, hs] using hname
      simp [hc]

end Strings

section Rebuilding

variable {entries : List String} {name : String}

theorem mem_addAll_iff
    (hname : name ≠ "")
    (env : Environment)
    (vars : List (String × String)) :
    name ∈ Environment.addAll env vars ↔ name ∈ env ∨ name ∈ vars.map Prod.fst := by
  induction vars generalizing env with
  | nil => simp [Environment.addAll]
  | cons v vars ih =>
      have hadd : name ∈ env.add v.1 v.2 ↔ name ∈ env ∨ name = v.1 := by
        unfold add
        split
        · next hv => simp [hv, hname]
        · rw [Std.ExtTreeMap.mem_insert, Std.LawfulEqCmp.compare_eq_iff_eq]
          rw [eq_comm, or_comm]
      show name ∈ Environment.addAll (env.add v.1 v.2) vars ↔ _
      rw [ih, hadd, List.map_cons, List.mem_cons, or_assoc]

theorem mem_ofStrings_iff
    (hname : name ≠ "") :
    name ∈ ofStrings entries ↔ ∃ s ∈ entries, (splitEntry s).1 = name := by
  rw [ofStrings, mem_addAll_iff hname, List.map_map]
  simp

theorem ne_empty_of_mem_ofStrings
    (h : name ∈ ofStrings entries) :
    name ≠ "" := by
  rintro rfl
  have hnamed : Named (ofStrings entries) := named_addAll named_empty _
  rw [Std.ExtTreeMap.mem_iff_isSome_getElem?, hnamed] at h
  cases h

/-- The strings that are written for an environment. -/
theorem mem_getStrv_iff
    {env : Environment} {s : String} :
    s ∈ env.getStrv ↔ ∃ name value, env[name]? = some value ∧ entry name value = s := by
  simp only [getStrv, List.mem_map, Prod.exists, Std.ExtTreeMap.mem_toList_iff_getElem?_eq_some]

/-- Every nameless name of a rebuilt environment is longer than one that was written. -/
theorem exists_shorter
    (hmem : name ∈ ofStrings (ofStrings entries).getStrv)
    (hnameless : Nameless name) :
    ∃ shorter ∈ ofStrings entries, Nameless shorter ∧
      shorter.toList.length < name.toList.length := by
  have hname := ne_empty_of_mem_ofStrings hmem
  obtain ⟨s, hs, rfl⟩ := (mem_ofStrings_iff hname).mp hmem
  obtain ⟨name', value, hvalue, rfl⟩ := mem_getStrv_iff.mp hs
  have hmem' : name' ∈ ofStrings entries := by
    rw [Std.ExtTreeMap.mem_iff_isSome_getElem?, hvalue]
    rfl
  have hentry : Nameless (entry name' value) := by
    by_contra hentry
    exact splitEntry_of_not_nameless hentry hnameless
  have hname' : Nameless name' := by
    have hchars : name'.toList ≠ [] := fun h =>
      ne_empty_of_mem_ofStrings hmem' (String.toList_inj.mp h)
    obtain ⟨c, cs, hcs⟩ := List.exists_cons_of_ne_nil hchars
    unfold Nameless at hentry ⊢
    rw [toList_entry, hcs] at hentry
    simpa [hcs] using hentry
  refine ⟨name', hmem', hname', ?_⟩
  rw [splitEntry_of_nameless hentry]
  exact length_entry name' value

/-- An environment that is rebuilt has no nameless names. -/
theorem not_nameless_of_rebuild
    (h : ofStrings (ofStrings entries).getStrv = ofStrings entries)
    (hmem : name ∈ ofStrings entries) :
    ¬ Nameless name := by
  -- by induction on the length: below every nameless name there is a shorter one
  suffices hlength : ∀ n, ∀ name ∈ ofStrings entries, name.toList.length = n → ¬ Nameless name from
    hlength _ name hmem rfl
  intro n
  induction n using Nat.strongRecOn with
  | _ n ih =>
      intro name hmem hn hnameless
      rw [← h] at hmem
      obtain ⟨shorter, hshorter, hnameless', hlt⟩ := exists_shorter hmem hnameless
      exact ih _ (hn ▸ hlt) shorter hshorter rfl hnameless'

/-- What is written for an environment whose names have no equals sign rebuilds it. -/
theorem ofStrings_getStrv
    {env : Environment}
    (hnames : ∀ name ∈ env, name ≠ "" ∧ '=' ∉ name.toList) :
    ofStrings env.getStrv = env := by
  have hmem : ∀ e ∈ env.toList, e.1 ∈ env := by
    intro e he
    have hvalue := Std.ExtTreeMap.mem_toList_iff_getElem?_eq_some.mp he
    rw [Std.ExtTreeMap.mem_iff_isSome_getElem?, hvalue]
    rfl
  have hread : env.getStrv.map splitEntry = env.toList := by
    have hback : ∀ e ∈ env.toList, splitEntry (entry e.1 e.2) = e := fun e he =>
      splitEntry_entry (hnames e.1 (hmem e he)).1 (hnames e.1 (hmem e he)).2 e.2
    rw [getStrv, List.map_map]
    exact (List.map_congr_left hback).trans (List.map_id _)
  rw [ofStrings, hread, addAll_eq_insertAll fun e he => (hnames e.1 (hmem e he)).1,
    SortedMap.insertAll_toList]

/-- **Reading the exec form of an environment** gives the environment exactly if no string that
it came from starts with an equals sign. -/
theorem rebuild_ofStrings_iff (entries : List String) :
    ofStrings (ofStrings entries).getStrv = ofStrings entries ↔
      ∀ s ∈ entries, ¬ Nameless s := by
  constructor
  · intro h s hs hnameless
    have hsplit := splitEntry_of_nameless hnameless
    have hname : s ≠ "" := by
      rintro rfl
      exact absurd hnameless (by decide)
    have hmem : s ∈ ofStrings entries := (mem_ofStrings_iff hname).mpr ⟨s, hs, by rw [hsplit]⟩
    exact not_nameless_of_rebuild h hmem hnameless
  · intro h
    refine ofStrings_getStrv fun name hmem => ?_
    have hname := ne_empty_of_mem_ofStrings hmem
    obtain ⟨s, hs, rfl⟩ := (mem_ofStrings_iff hname).mp hmem
    exact ⟨hname, notMem_splitEntry (h s hs)⟩

/-- One more equals sign with every pass. -/
theorem not_rebuild_nameless :
    ofStrings (ofStrings ["=x"]).getStrv ≠ ofStrings ["=x"] := by
  decide +kernel

end Rebuilding

end Environment

end Schroot
