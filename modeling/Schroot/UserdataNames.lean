import Schroot.ChrootKeyfile
import Mathlib.Data.List.Induction

/-!
# The reserved variable names of user data

The user data facet keeps the environment variables of its keys in a set of their own, so
that no two keys stand for one variable.  Removing a key leaves its variable in the set.

**Results.**
* `setSystemData_cases`: what setting one key does.
* `consistent_run`: as long as no key is removed, the set is the image of the keys.
* `run_consistent_iff`: it is that in all states of a run exactly then.
* `keyAmbiguous_of_setScriptConfig`: what this means for a profile that is replaced.
-/

namespace Schroot

namespace Userdata

section Mutations

/-- The loop over data in key order: the state it reaches and the error that ends it, if
any. -/
def setEach (set : Userdata → String → String → Except UserdataError Userdata) :
    List (String × String) → Userdata → Userdata × Option UserdataError
  | [], u => (u, none)
  | (key, value) :: rest, u =>
      match set u key value with
      | .ok u' => setEach set rest u'
      | .error e => (u, some e)

/-- The methods that change a user data facet, and the copy of it. -/
inductive Mutation where
  | setSystemData (key value : String)
  | setSystemDataAll (data : Std.ExtTreeMap String String)
  | setData (key value : String)
  | setDataAll (data : Std.ExtTreeMap String String)
  | setUserData (data : Std.ExtTreeMap String String)
  | setRootData (data : Std.ExtTreeMap String String)
  | removeData (key : String)
  | setUserModifiableKeys (keys : Std.ExtTreeSet String)
  | setRootModifiableKeys (keys : Std.ExtTreeSet String)
  | clone

/-- The state after a single call, which stays as it was if the call throws. -/
def attempt (u : Userdata) (result : Except UserdataError Userdata) :
    Userdata × Option UserdataError :=
  match result with
  | .ok u' => (u', none)
  | .error e => (u, some e)

/-- The state that a call leaves behind, with its error. -/
def mutate (u : Userdata) : Mutation → Userdata × Option UserdataError
  | .setSystemData key value => u.attempt (u.setSystemData key value)
  | .setSystemDataAll data => setEach Userdata.setSystemData data.toList u
  | .setData key value => u.attempt (u.setData key value)
  | .setDataAll data => setEach Userdata.setData data.toList u
  | .setUserData data => u.setUserData data
  | .setRootData data => u.setRootData data
  | .removeData key => (u.removeData key, none)
  | .setUserModifiableKeys keys => ({ u with userModifiableKeys := keys }, none)
  | .setRootModifiableKeys keys => ({ u with rootModifiableKeys := keys }, none)
  | .clone => (u, none)

/-- The state after calls on a new facet, some of which may throw. -/
def run (calls : List Mutation) : Userdata :=
  calls.foldl (fun u call => (u.mutate call).1) {}

theorem run_concat (calls : List Mutation) (call : Mutation) :
    run (calls ++ [call]) = ((run calls).mutate call).1 := by
  rw [run, List.foldl_append]
  rfl

end Mutations

section Consistency

/-- The variables of the keys are reserved, and no two keys share one. -/
structure Reserved (u : Userdata) : Prop where
  env : ∀ key ∈ u.userdata, envname key ∈ u.env
  injective : ∀ key ∈ u.userdata, ∀ key' ∈ u.userdata, envname key = envname key' → key = key'

/-- The reserved names are the variables of the keys, and no two keys share one. -/
structure Consistent (u : Userdata) : Prop where
  env : ∀ name, name ∈ u.env ↔ ∃ key ∈ u.userdata, envname key = name
  injective : ∀ key ∈ u.userdata, ∀ key' ∈ u.userdata, envname key = envname key' → key = key'

theorem Consistent.reserved
    {u : Userdata}
    (hu : u.Consistent) :
    u.Reserved :=
  ⟨fun key hkey => (hu.env _).mpr ⟨key, hkey, rfl⟩, hu.injective⟩

/-- A key is refused as ambiguous exactly if another key has its variable. -/
def RefusesClashes (u : Userdata) : Prop :=
  ∀ key value, (∃ e, u.setSystemData key value = .error e ∧ e.code = .keyAmbiguous) ↔
    ∃ other ∈ u.userdata, other ≠ key ∧ envname other = envname key

variable {u u' : Userdata} {key value : String}

/-- A key that is set is either there already or brings a variable of its own. -/
theorem setSystemData_cases
    (h : u.setSystemData key value = .ok u') :
    (∀ k, k ∈ u'.userdata ↔ k = key ∨ k ∈ u.userdata) ∧
      (key ∈ u.userdata ∧ u'.env = u.env ∨
        key ∉ u.userdata ∧ envname key ∉ u.env ∧ u'.env = u.env.insert (envname key)) := by
  unfold setSystemData at h
  split at h
  · rename_i hkey
    cases h
    refine ⟨fun k => ?_, .inl ⟨hkey, rfl⟩⟩
    simp only [Std.ExtTreeMap.mem_insert, Std.ExtTreeMap.mem_erase, Std.compare_eq_iff_eq,
      ne_eq, eq_comm (a := key)]
    by_cases hk : k = key
    · simp [hk]
    · simp [hk]
  · rename_i hkey
    split at h
    · cases h
    · rename_i henv
      cases h
      refine ⟨fun k => ?_, .inr ⟨hkey, henv, rfl⟩⟩
      simp only [Std.ExtTreeMap.mem_insert, Std.compare_eq_iff_eq, eq_comm (a := key)]

/-- **What setting a key does to the values.** -/
theorem getElem?_setSystemData
    (h : u.setSystemData key value = .ok u')
    (k : String) :
    u'.userdata[k]? = if k = key then some value else u.userdata[k]? := by
  unfold Userdata.setSystemData at h
  split at h
  · cases h
    rw [SortedMap.getElem?_insert]
    split
    · rfl
    · rename_i hk
      rw [Std.ExtTreeMap.getElem?_erase, if_neg]
      intro he
      exact hk (Std.LawfulEqCmp.eq_of_compare he).symm
  · split at h
    · cases h
    · cases h
      rw [SortedMap.getElem?_insert]

theorem keys_setSystemData
    (h : u.setSystemData key value = .ok u') :
    u'.userModifiableKeys = u.userModifiableKeys ∧
      u'.rootModifiableKeys = u.rootModifiableKeys := by
  unfold Userdata.setSystemData at h
  split at h
  · cases h
    exact ⟨rfl, rfl⟩
  · split at h <;> cases h
    exact ⟨rfl, rfl⟩

theorem setSystemData_eq_error_iff :
    (∃ e, u.setSystemData key value = .error e ∧ e.code = .keyAmbiguous) ↔
      key ∉ u.userdata ∧ envname key ∈ u.env := by
  unfold setSystemData
  by_cases hkey : key ∈ u.userdata
  · simp [hkey]
  · by_cases henv : envname key ∈ u.env
    · simp [hkey, henv]
    · simp [hkey, henv]

theorem consistent_new : Consistent {} :=
  ⟨by simp, by simp⟩

theorem Reserved.setSystemData
    (hu : u.Reserved)
    (h : u.setSystemData key value = .ok u') :
    u'.Reserved := by
  obtain ⟨hkeys, ⟨hkey, henv⟩ | ⟨hkey, hname, henv⟩⟩ := setSystemData_cases h
  · have hsame : ∀ k, k ∈ u'.userdata ↔ k ∈ u.userdata := fun k =>
      (hkeys k).trans ⟨fun h => h.elim (· ▸ hkey) id, .inr⟩
    exact ⟨by simpa only [henv, hsame] using hu.env, by simpa only [hsame] using hu.injective⟩
  · have hfresh : ∀ k ∈ u.userdata, envname k ≠ envname key := fun k hk heq =>
      hname (heq ▸ hu.env k hk)
    refine ⟨fun k hk => ?_, fun k hk k' hk' heq => ?_⟩
    · rw [henv, Std.ExtTreeSet.mem_insert, Std.compare_eq_iff_eq]
      rcases (hkeys k).mp hk with rfl | hk
      · exact .inl rfl
      · exact .inr (hu.env k hk)
    · rcases (hkeys k).mp hk with rfl | hk
      · rcases (hkeys k').mp hk' with rfl | hk'
        · rfl
        · exact absurd heq.symm (hfresh k' hk')
      · rcases (hkeys k').mp hk' with rfl | hk'
        · exact absurd heq (hfresh k hk)
        · exact hu.injective k hk k' hk' heq

theorem Consistent.setSystemData
    (hu : u.Consistent)
    (h : u.setSystemData key value = .ok u') :
    u'.Consistent := by
  have hreserved := hu.reserved.setSystemData h
  obtain ⟨hkeys, ⟨-, henv⟩ | ⟨-, -, henv⟩⟩ := setSystemData_cases h
  · refine ⟨fun name => ⟨fun hname => ?_, ?_⟩, hreserved.injective⟩
    · rw [henv, hu.env] at hname
      obtain ⟨k, hk, rfl⟩ := hname
      exact ⟨k, (hkeys k).mpr (.inr hk), rfl⟩
    · rintro ⟨k, hk, rfl⟩
      exact hreserved.env k hk
  · refine ⟨fun name => ⟨fun hname => ?_, ?_⟩, hreserved.injective⟩
    · rw [henv, Std.ExtTreeSet.mem_insert, Std.compare_eq_iff_eq, hu.env] at hname
      rcases hname with rfl | ⟨k, hk, rfl⟩
      · exact ⟨key, (hkeys key).mpr (.inl rfl), rfl⟩
      · exact ⟨k, (hkeys k).mpr (.inr hk), rfl⟩
    · rintro ⟨k, hk, rfl⟩
      exact hreserved.env k hk

theorem Consistent.setData
    (hu : u.Consistent)
    (h : u.setData key value = .ok u') :
    u'.Consistent := by
  unfold Userdata.setData at h
  split at h
  · exact hu.setSystemData h
  · cases h

/-- In a consistent state exactly the clashes are refused. -/
theorem Consistent.refusesClashes
    (hu : u.Consistent) :
    u.RefusesClashes := by
  intro key value
  rw [setSystemData_eq_error_iff, hu.env]
  constructor
  · rintro ⟨hkey, other, hother, heq⟩
    exact ⟨other, hother, fun h => hkey (h ▸ hother), heq⟩
  · rintro ⟨other, hother, hne, heq⟩
    exact ⟨fun hkey => hne (hu.injective other hother key hkey heq), other, hother, heq⟩

end Consistency

section Steps

variable {u : Userdata}

theorem Consistent.attempt
    {result : Except UserdataError Userdata}
    (hu : u.Consistent)
    (hresult : ∀ u', result = .ok u' → u'.Consistent) :
    (u.attempt result).1.Consistent := by
  cases result with
  | ok u' => exact hresult u' rfl
  | error e => exact hu

theorem Consistent.setEach
    {set : Userdata → String → String → Except UserdataError Userdata}
    (hset : ∀ {u u' key value}, Consistent u → set u key value = .ok u' → u'.Consistent)
    (hu : u.Consistent)
    (data : List (String × String)) :
    (Userdata.setEach set data u).1.Consistent := by
  induction data generalizing u with
  | nil => exact hu
  | cons entry data ih =>
      simp only [Userdata.setEach]
      cases h : set u entry.1 entry.2 with
      | ok u' => exact ih (hset hu h)
      | error e => exact hu

theorem Consistent.setAllowedData
    (hu : u.Consistent)
    (allowed : Std.ExtTreeSet String) (root : Bool) (data : List (String × String)) :
    (Userdata.setAllowedData allowed root data u).1.Consistent := by
  induction data generalizing u with
  | nil => exact hu
  | cons entry data ih =>
      simp only [Userdata.setAllowedData]
      split
      · cases h : u.setData entry.1 entry.2 with
        | ok u' => exact ih (hu.setData h)
        | error e => exact hu
      · exact hu

/-- Removing a key that is not set changes nothing; every other call keeps the state
consistent, whether it throws or not. -/
theorem Consistent.mutate
    {call : Mutation}
    (hu : u.Consistent)
    (hcall : ∀ key, call = .removeData key → key ∉ u.userdata) :
    (u.mutate call).1.Consistent := by
  cases call with
  | setSystemData key value => exact hu.attempt fun _ h => hu.setSystemData h
  | setSystemDataAll data => exact Consistent.setEach Consistent.setSystemData hu _
  | setData key value => exact hu.attempt fun _ h => hu.setData h
  | setDataAll data => exact Consistent.setEach Consistent.setData hu _
  | setUserData data => exact hu.setAllowedData _ _ _
  | setRootData data => exact hu.setAllowedData _ _ _
  | removeData key =>
      have hsame : ∀ k, k ∈ u.userdata.erase key ↔ k ∈ u.userdata := by
        intro k
        simp only [Std.ExtTreeMap.mem_erase, Std.compare_eq_iff_eq, ne_eq]
        exact ⟨And.right, fun hk => ⟨fun heq => hcall key rfl (heq ▸ hk), hk⟩⟩
      exact
        ⟨by simpa only [Userdata.mutate, Userdata.removeData, hsame] using hu.env,
          by simpa only [Userdata.mutate, Userdata.removeData, hsame] using hu.injective⟩
  | setUserModifiableKeys keys => exact ⟨hu.env, hu.injective⟩
  | setRootModifiableKeys keys => exact ⟨hu.env, hu.injective⟩
  | clone => exact hu

/-- A key that is removed leaves its variable behind, which is then nobody's. -/
theorem not_consistent_removeData
    {key : String}
    (hu : u.Consistent)
    (hkey : key ∈ u.userdata) :
    ¬ (u.removeData key).Consistent := by
  intro hremoved
  have hname : envname key ∈ (u.removeData key).env := (hu.env _).mpr ⟨key, hkey, rfl⟩
  obtain ⟨other, hother, heq⟩ := (hremoved.env _).mp hname
  simp only [removeData, Std.ExtTreeMap.mem_erase, Std.compare_eq_iff_eq, ne_eq] at hother
  exact hother.1 (hu.injective key hkey other hother.2 heq.symm)

end Steps

section Runs

/-- No call removes a key that is set at that time. -/
def RemovesNothing (calls : List Mutation) : Prop :=
  ∀ earlier key later, calls = earlier ++ .removeData key :: later →
    key ∉ (run earlier).userdata

theorem consistent_run
    {calls : List Mutation}
    (h : RemovesNothing calls) :
    (run calls).Consistent := by
  induction calls using List.reverseRecOn with
  | nil => exact consistent_new
  | append_singleton calls call ih =>
      rw [run_concat]
      refine (ih fun earlier key later heq => ?_).mutate fun key heq => ?_
      · exact h earlier key (later ++ [call]) (by simp [heq])
      · exact h calls key [] (by rw [heq])

/-- **In all states of a run the reserved names are the variables of the keys, one for
each, and exactly the clashes are refused, if and only if the run never removes a key that
is set.** -/
theorem run_consistent_iff
    (calls : List Mutation) :
    (∀ earlier later, calls = earlier ++ later →
      (run earlier).Consistent ∧ (run earlier).RefusesClashes) ↔
      RemovesNothing calls := by
  constructor
  · rintro h earlier key later rfl hkey
    have hbefore := (h earlier (.removeData key :: later) rfl).1
    have hafter := (h (earlier ++ [.removeData key]) later (by simp)).1
    rw [run_concat] at hafter
    exact not_consistent_removeData hbefore hkey hafter
  · rintro h earlier later rfl
    have hearlier : (run earlier).Consistent :=
      consistent_run fun first key rest heq => h first key (rest ++ later) (by simp [heq])
    exact ⟨hearlier, hearlier.refusesClashes⟩

/-- A profile that a script configuration replaces. -/
def replacedProfile : List Mutation :=
  (Chroot.profileData "default").map (fun e => .setSystemData e.1 e.2) ++
    (Chroot.profileData "default").map (fun e => .removeData e.1)

/-- **No key is left, and yet the key of the profile's file system table is refused as
ambiguous.** -/
theorem not_consistent_replacedProfile :
    (run replacedProfile).userdata = ∅ ∧ "SETUP_FSTAB" ∈ (run replacedProfile).env ∧
      (∃ e, (run replacedProfile).setData "setup.fstab" "mine/fstab" = .error e ∧
        e.code = .keyAmbiguous) ∧
      ¬ ((run replacedProfile).Consistent ∧ (run replacedProfile).RefusesClashes) := by
  have hempty : (run replacedProfile).userdata = ∅ := by
    rw [← Std.ExtTreeMap.isEmpty_iff]
    decide +kernel
  have hname : "SETUP_FSTAB" ∈ (run replacedProfile).env := by decide +kernel
  refine ⟨hempty, hname, ?_, fun h => ?_⟩
  · have hvalid : validateKeyname "setup.fstab" = true := by decide
    rw [setData, if_pos hvalid]
    refine setSystemData_eq_error_iff.mpr ⟨by simp [hempty], ?_⟩
    exact hname
  · obtain ⟨key, hkey, -⟩ := (h.1.env "SETUP_FSTAB").mp hname
    simp [hempty] at hkey

end Runs

section Names

/-- All keys are valid, and each has a variable of its own. -/
structure Named (u : Userdata) : Prop extends Reserved u where
  valid : ∀ key ∈ u.userdata, validateKeyname key = true

variable {u u' : Userdata} {key value : String}

theorem named_new : Named {} :=
  ⟨⟨by simp, by simp⟩, by simp⟩

theorem Named.setSystemData
    (hu : u.Named)
    (hkey : validateKeyname key = true)
    (h : u.setSystemData key value = .ok u') :
    u'.Named := by
  refine ⟨hu.toReserved.setSystemData h, fun k hk => ?_⟩
  rcases ((setSystemData_cases h).1 k).mp hk with rfl | hk
  · exact hkey
  · exact hu.valid k hk

theorem Named.setData
    (hu : u.Named)
    (h : u.setData key value = .ok u') :
    u'.Named := by
  unfold Userdata.setData at h
  split at h
  · exact hu.setSystemData ‹_› h
  · cases h

theorem Named.removeData
    (hu : u.Named)
    (key : String) :
    (u.removeData key).Named := by
  have hsub : ∀ k ∈ (u.removeData key).userdata, k ∈ u.userdata := by
    intro k hk
    simp only [Userdata.removeData, Std.ExtTreeMap.mem_erase] at hk
    exact hk.2
  exact ⟨⟨fun k hk => hu.env k (hsub k hk), fun k hk k' hk' =>
    hu.injective k (hsub k hk) k' (hsub k' hk')⟩, fun k hk => hu.valid k (hsub k hk)⟩

theorem Named.setAllowedData
    (hu : u.Named)
    (allowed : Std.ExtTreeSet String) (root : Bool) (data : List (String × String)) :
    (Userdata.setAllowedData allowed root data u).1.Named := by
  induction data generalizing u with
  | nil => exact hu
  | cons entry data ih =>
      simp only [Userdata.setAllowedData]
      split
      · cases h : u.setData entry.1 entry.2 with
        | ok u' => exact ih (hu.setData h)
        | error e => exact hu
      · exact hu

/-- A profile brings valid keys. -/
theorem Named.setProfileData
    {profile : String}
    (hu : u.Named)
    (h : (Chroot.profileData profile).foldlM (fun u e => u.setSystemData e.1 e.2) u = .ok u') :
    u'.Named := by
  simp only [Chroot.profileData, List.foldlM_cons, List.foldlM_nil, bind_eq_ok_iff] at h
  obtain ⟨u₁, h₁, u₂, h₂, u₃, h₃, u₄, h₄, h⟩ := h
  cases h
  exact (((hu.setSystemData (by decide) h₁).setSystemData (by decide) h₂).setSystemData
    (by decide) h₃).setSystemData (by decide) h₄

end Names

end Userdata

namespace Chroot

section Profiles

variable {c : Chroot} {u : Userdata}

theorem userdata?_updateFacet
    (hu : c.userdata? = some u)
    (u' : Userdata) :
    (c.updateFacet (.userdata u')).userdata? = some u' := by
  unfold userdata? getFacet at hu
  simp only [userdata?, getFacet, updateFacet, TaggedList.get?_replace]
  cases h : TaggedList.get? Facet.kind .userdata c.facets with
  | none => simp [h] at hu
  | some f => simp [Facet.kind]

/-- **After a script configuration is set, the keys that a profile had set are gone, and
each of them is refused as ambiguous.** -/
theorem keyAmbiguous_of_setScriptConfig
    {key : String}
    (hu : c.userdata? = some u)
    (hconsistent : u.Consistent)
    (hprofile : key ∈ (profileData "").map Prod.fst)
    (hkey : key ∈ u.userdata)
    (scriptConfig value : String) :
    ∃ u' e, (setScriptConfig scriptConfig c).userdata? = some u' ∧ key ∉ u'.userdata ∧
      u'.setSystemData key value = .error e ∧ e.code = .keyAmbiguous := by
  have hu' : (setScriptConfig scriptConfig c).userdata? = some
      ((((u.removeData "setup.config").removeData "setup.copyfiles").removeData
        "setup.nssdatabases").removeData "setup.fstab") := by
    have hsame : ({ c with scriptConfig := scriptConfig, profile := "" } : Chroot).userdata? =
        some u := hu
    simp only [setScriptConfig, hsame]
    exact userdata?_updateFacet hsame _
  have hremoved : key ∉ ((((u.removeData "setup.config").removeData
      "setup.copyfiles").removeData "setup.nssdatabases").removeData "setup.fstab").userdata := by
    simp only [profileData, List.map_cons, List.map_nil, List.mem_cons, List.not_mem_nil,
      or_false] at hprofile
    simp only [Userdata.removeData, Std.ExtTreeMap.mem_erase]
    rcases hprofile with rfl | rfl | rfl | rfl <;> simp
  have hname : envname key ∈ u.env := (hconsistent.env _).mpr ⟨key, hkey, rfl⟩
  obtain ⟨e, he⟩ := Userdata.setSystemData_eq_error_iff.mpr ⟨hremoved, hname⟩
  exact ⟨_, e, hu', hremoved, he⟩

end Profiles

end Chroot

end Schroot
