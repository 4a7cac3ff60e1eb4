import Schroot.LoadedChroot

/-!
# Reading user data back

The keys of a group that nothing else reads are set as user data.  If no two of them have the
same environment variable, and none has that of another key, all of them are set that can be.

**Results.**
* `getElem?_refill`: the user data after the keys are set.
* `refill_written`: the user data that a chroot has written is there again.
-/

namespace Schroot

namespace Userdata

section Refilling

variable {kf : Keyfile} {name key : String} {u u' : Userdata} {keys : List String}

/-- One key that nothing has read is set as user data, if it is accepted. -/
def refillKey (kf : Keyfile) (name : String) (u : Userdata) (key : String) : Userdata :=
  match kf.value? name key with
  | some value =>
      match u.setData key value with
      | .ok u' => u'
      | .error _ => u
  | none => u

/-- All such keys. -/
def refill (kf : Keyfile) (name : String) (u : Userdata) (keys : List String) : Userdata :=
  keys.foldl (refillKey kf name) u

/-- The keys that can be set are there already or have variables that are not taken. -/
def Settable (u : Userdata) (keys : List String) : Prop :=
  ∀ key ∈ keys, validateKeyname key = true → key ∈ u.userdata ∨ envname key ∉ u.env

/-- No two of the keys that can be set have the same variable. -/
def Distinct (keys : List String) : Prop :=
  ∀ key ∈ keys, ∀ key' ∈ keys, validateKeyname key = true → validateKeyname key' = true →
    envname key = envname key' → key = key'

theorem refillKey_cases
    (kf : Keyfile) (name : String)
    (hset : validateKeyname key = true → key ∈ u.userdata ∨ envname key ∉ u.env) :
    (refillKey kf name u key = u ∧ (validateKeyname key = false ∨ kf.value? name key = none)) ∨
      ∃ value, kf.value? name key = some value ∧ validateKeyname key = true ∧
        u.setSystemData key value = .ok (refillKey kf name u key) := by
  unfold refillKey
  cases hv : kf.value? name key with
  | none => exact .inl ⟨rfl, .inr rfl⟩
  | some value =>
      by_cases hvalid : validateKeyname key = true
      · right
        obtain ⟨u', hu'⟩ : ∃ u', u.setSystemData key value = .ok u' := by
          unfold setSystemData
          by_cases hkey : key ∈ u.userdata
          · exact ⟨_, if_pos hkey⟩
          · rw [if_neg hkey, if_neg ((hset hvalid).resolve_left hkey)]
            exact ⟨_, rfl⟩
        have hdata : u.setData key value = .ok u' := by rw [setData, if_pos hvalid, hu']
        simp only [hdata]
        exact ⟨value, rfl, hvalid, hu'⟩
      · left
        have hdata : u.setData key value = .error { code := .keynameInvalid, context := key } := by
          rw [setData, if_neg hvalid]
        simp only [hdata]
        exact ⟨trivial, .inl (Bool.eq_false_iff.mpr hvalid)⟩

/-- The other keys can still be set after one of them is. -/
theorem Settable.refillKey
    (hset : Settable u (key :: keys))
    (hdistinct : Distinct (key :: keys))
    (hkey : key ∉ keys) :
    Settable (refillKey kf name u key) keys := by
  intro k hk hvalid
  have hold := hset k (List.mem_cons_of_mem key hk) hvalid
  rcases refillKey_cases kf name (hset key List.mem_cons_self) with
    ⟨hsame, -⟩ | ⟨value, -, hvalid', h⟩
  · rw [hsame]
    exact hold
  · obtain ⟨hkeys, hcases⟩ := setSystemData_cases h
    rcases hold with hold | hfree
    · exact .inl ((hkeys k).mpr (.inr hold))
    · right
      rcases hcases with ⟨-, henv⟩ | ⟨-, -, henv⟩
      · rw [henv]
        exact hfree
      · rw [henv, Std.ExtTreeSet.mem_insert, Std.compare_eq_iff_eq, not_or]
        refine ⟨fun heq => hkey ?_, hfree⟩
        rw [hdistinct key List.mem_cons_self k (List.mem_cons_of_mem key hk) hvalid' hvalid heq]
        exact hk

/-- **The user data after all keys are set**: their values, where they are valid. -/
theorem getElem?_refill
    (hnodup : keys.Nodup)
    (hset : Settable u keys)
    (hdistinct : Distinct keys)
    (k : String) :
    (refill kf name u keys).userdata[k]? =
      if k ∈ keys ∧ validateKeyname k = true then
        (kf.value? name k).or u.userdata[k]?
      else
        u.userdata[k]? := by
  induction keys generalizing u with
  | nil => simp [refill]
  | cons key keys ih =>
      obtain ⟨hkey, hnodup⟩ := List.nodup_cons.mp hnodup
      have hrest : Distinct keys := fun a ha b hb =>
        hdistinct a (List.mem_cons_of_mem key ha) b (List.mem_cons_of_mem key hb)
      rw [refill, List.foldl_cons]
      refine (ih hnodup (hset.refillKey hdistinct hkey) hrest).trans ?_
      rcases refillKey_cases kf name (hset key List.mem_cons_self) with
        ⟨hsame, hnone⟩ | ⟨value, hv, hvalid, h⟩
      · rw [hsame]
        by_cases hk : k = key
        · subst hk
          rcases hnone with hinvalid | hnone
          · simp [hinvalid]
          · simp [hnone]
        · simp [hk]
      · rw [getElem?_setSystemData h]
        by_cases hk : k = key
        · subst hk
          simp [hkey, hvalid, hv]
        · simp [hk]

/-- The modifiable keys stay. -/
theorem keys_refill
    (keys : List String)
    (u : Userdata) :
    (refill kf name u keys).userModifiableKeys = u.userModifiableKeys ∧
      (refill kf name u keys).rootModifiableKeys = u.rootModifiableKeys := by
  induction keys generalizing u with
  | nil => exact ⟨rfl, rfl⟩
  | cons key keys ih =>
      have hstep : (refillKey kf name u key).userModifiableKeys = u.userModifiableKeys ∧
          (refillKey kf name u key).rootModifiableKeys = u.rootModifiableKeys := by
        unfold refillKey
        split
        · split
          · rename_i hset
            unfold Userdata.setData at hset
            split at hset
            · exact keys_setSystemData hset
            · cases hset
          · exact ⟨rfl, rfl⟩
        · exact ⟨rfl, rfl⟩
      have hrest := ih (refillKey kf name u key)
      exact ⟨hrest.1.trans hstep.1, hrest.2.trans hstep.2⟩

end Refilling

end Userdata

namespace Chroot

section Unused

variable {cfg : SbuildConfig} {kf : Keyfile} {c x : Chroot} {u v : Userdata} {used : List String}

/-- The last phase of reading sets the keys that are left in the user data. -/
theorem userdata?_setUnusedKeys
    (hu : x.userdata? = some u)
    (keys : List String) :
    (keys.foldl (setUnusedKey kf) x).userdata? = some (Userdata.refill kf x.name u keys) := by
  induction keys generalizing x u with
  | nil => exact hu
  | cons key keys ih =>
      have hstep : (setUnusedKey kf x key).userdata? = some (Userdata.refillKey kf x.name u key) ∧
          (setUnusedKey kf x key).name = x.name := by
        unfold setUnusedKey Userdata.refillKey
        rw [hu]
        cases hv : kf.value? x.name key with
        | none => exact ⟨hu, rfl⟩
        | some value =>
            cases hset : u.setData key value with
            | ok u' =>
                simp only [hset]
                exact ⟨userdata?_updateFacet hu u', rfl⟩
            | error e =>
                simp only [hset]
                exact ⟨hu, trivial⟩
      rw [List.foldl_cons, ih hstep.1, hstep.2]
      rfl

/-- No key of user data is counted as used. -/
def NoUserdata (used : List String) : Prop :=
  ∀ key ∈ used, validateKeyname key = false

theorem noUserdata_of_undotted
    (h : Undotted used) :
    NoUserdata used := by
  intro key hkey
  rw [Bool.eq_false_iff]
  exact fun hvalid => h key hkey (dot_mem_of_validateKeyname hvalid)

theorem noUserdata_append
    {more : List String}
    (h : NoUserdata used)
    (hmore : NoUserdata more) :
    NoUserdata (used ++ more) := by
  intro key hkey
  rcases List.mem_append.mp hkey with hkey | hkey
  · exact h key hkey
  · exact hmore key hkey

/-- Localised descriptions are no user data. -/
theorem validateKeyname_of_isDescriptionKey
    {key : String}
    (h : isDescriptionKey key = true) :
    validateKeyname key = false := by
  rw [Bool.eq_false_iff]
  intro hvalid
  simp only [isDescriptionKey, Bool.and_eq_true] at h
  have hprefix := List.isPrefixOf_iff_prefix.mp h.1.1
  have hmem : '[' ∈ key.toList := hprefix.subset (by decide)
  exact absurd (isKeyChar_of_validateKeyname hvalid hmem) (by decide)

theorem undotted_typeKeys (kf : Keyfile) (c : Chroot) :
    Undotted ((typeKeys kf c).map KeySpec.used) := by
  unfold typeKeys
  cases c.kind with
  | plain | directory =>
      show Undotted ["directory", "location"]
      decide
  | custom =>
      show Undotted ["custom-cloneable", "custom-purgeable", "custom-source-cloneable"]
      decide
  | file =>
      show Undotted ["file", "location", "file-repack"]
      decide
  | blockDevice =>
      show Undotted ["device"]
      decide
  | loopback =>
      show Undotted ["file"]
      decide
  | lvmSnapshot =>
      show Undotted ["device", "lvm-snapshot-device", "lvm-snapshot-options"]
      decide
  | zfsSnapshot =>
      show Undotted ["zfs-dataset", "zfs-snapshot-name", "zfs-clone-name", "zfs-snapshot-options"]
      decide
  | btrfsSnapshot =>
      show Undotted ["btrfs-source-subvolume", "btrfs-snapshot-directory", "btrfs-snapshot-name"]
      decide

/-- Before the facets are read, no key of user data is counted as used. -/
theorem noUserdata_usedKeys (cfg : SbuildConfig) (kf : Keyfile) (c d : Chroot) :
    NoUserdata (usedKeys cfg kf c d) := by
  have hbase : Undotted ((baseKeys cfg c.isSession).map KeySpec.used) := by
    show Undotted ((baseKeys .standard false).map KeySpec.used)
    decide
  refine noUserdata_append (noUserdata_append (fun key hkey => ?_) (noUserdata_of_undotted hbase))
    (noUserdata_of_undotted (undotted_typeKeys kf d))
  rcases List.mem_cons.mp hkey with rfl | hkey
  · decide
  · exact validateKeyname_of_isDescriptionKey (List.mem_filter.mp hkey).2

theorem getFacet_of_userdata?
    (hu : c.userdata? = some u) :
    c.getFacet .userdata = some (.userdata u) := by
  unfold userdata? at hu
  split at hu
  · rename_i hget
    cases hu
    exact hget
  · cases hu

/-- What is written under a key of user data. -/
theorem HasValues.userdata
    (h : HasValues kf c)
    (hc : WellKeyed c)
    (hu : c.userdata? = some u)
    {key : String}
    (hvalid : validateKeyname key = true) :
    kf.value? c.name key = u.userdata[key]? := by
  have hdotted : IsDotted key := dot_mem_of_validateKeyname hvalid
  have hlocation : key = "location" → ∀ f, c.kind ≠ .file f := by
    rintro rfl
    exact absurd hdotted (by decide)
  have hne : "user-modifiable-keys" ≠ key ∧ "root-modifiable-keys" ≠ key := by
    constructor <;> rintro rfl <;> exact absurd hdotted (by decide)
  rw [h, writtenValues_facet hc (.inr ⟨rfl, hdotted⟩) hlocation, getFacet_of_userdata? hu,
    Option.bind_some, facetEntries, SortedMap.lookup_append, SortedMap.lookup_toList]
  simp [SortedMap.lookup, hne]

/-- The keys of a group are those with a value, and none of them is there twice. -/
theorem mem_getKeys
    {group key : String} :
    key ∈ kf.getKeys group ↔ ∃ value, kf.value? group key = some value := by
  unfold Keyfile.getKeys Keyfile.value? Keyfile.findItem
  cases hg : kf.findGroup group with
  | none => simp
  | some g =>
      simp only [Option.bind_some, Std.ExtTreeMap.mem_keys, Option.map_eq_some_iff]
      rw [Std.ExtTreeMap.mem_iff_isSome_getElem?, Option.isSome_iff_exists]
      exact ⟨fun ⟨item, hitem⟩ => ⟨item.value, item, hitem, rfl⟩,
        fun ⟨_, item, hitem, _⟩ => ⟨item, hitem⟩⟩

theorem nodup_getKeys (kf : Keyfile) (group : String) : (kf.getKeys group).Nodup := by
  unfold Keyfile.getKeys
  split
  · rw [← Std.ExtTreeMap.map_fst_toList_eq_keys]
    exact SortedMap.nodup_keys_toList _
  · exact List.nodup_nil

/-- The user data that keys are set in has none but those of the chroot, and takes none of their
variables. -/
structure Refillable (u v : Userdata) : Prop where
  sub : ∀ key ∈ v.userdata, key ∈ u.userdata
  env : ∀ key ∈ u.userdata, key ∈ v.userdata ∨ envname key ∉ v.env

/-- The data of a profile, where the profile is set. -/
theorem refillable_of_hasProfile
    (hv : v.FromProfile)
    (hnamed : u.Named)
    (hhas : u.HasProfile) :
    Refillable u v := by
  refine ⟨fun key hkey => hhas key ((hv.keys key).mp hkey), fun key hkey => ?_⟩
  by_cases hmem : key ∈ Userdata.profileKeys
  · exact .inl ((hv.keys key).mpr hmem)
  · refine .inr fun henv => ?_
    obtain ⟨p, hp, heq⟩ := List.mem_map.mp (hv.env _ henv)
    exact hmem (hnamed.injective key hkey p (hhas p hp) heq.symm ▸ hp)

/-- What is left of a profile, where there is none. -/
theorem refillable_of_freeOfProfile
    (hv : v.FromProfile)
    (hfree : u.FreeOfProfile) :
    Refillable u v.removeProfile := by
  refine ⟨fun key hkey => ?_, fun key hkey => .inr fun henv => ?_⟩
  · obtain ⟨hnot, hold⟩ := Userdata.mem_removeProfile.mp hkey
    exact absurd ((hv.keys key).mp hold) hnot
  · exact hfree key hkey (hv.env _ henv)

/-- **The user data of a chroot is there again** when the keys that are left are set. -/
theorem refill_written
    (v : Userdata)
    (used : List String)
    (hkf : HasValues kf c)
    (hc : WellKeyed c)
    (hdata : DataInvariant c)
    (hu : c.userdata? = some u)
    (hv : Refillable u v)
    (hused : NoUserdata used) :
    (Userdata.refill kf c.name v (unusedKeys kf c.name used)).userdata = u.userdata := by
  have hnamed := hdata.named u (mem_of_userdata? hu)
  have hvalue : ∀ {key}, validateKeyname key = true →
      kf.value? c.name key = u.userdata[key]? :=
    fun hvalid => hkf.userdata hc hu hvalid
  have hunused : ∀ key, validateKeyname key = true →
      (key ∈ unusedKeys kf c.name used ↔ key ∈ u.userdata) := by
    intro key hvalid
    have hnot : key ∉ used := fun hm => by
      have hinvalid := hused key hm
      rw [hvalid] at hinvalid
      cases hinvalid
    rw [unusedKeys, List.mem_filter, mem_getKeys, hvalue hvalid,
      Std.ExtTreeMap.mem_iff_isSome_getElem?, Option.isSome_iff_exists]
    simp [hnot]
  have hset : Userdata.Settable v (unusedKeys kf c.name used) :=
    fun key hkey hvalid => hv.env key ((hunused key hvalid).mp hkey)
  have hdistinct : Userdata.Distinct (unusedKeys kf c.name used) :=
    fun key hkey key' hkey' hvalid hvalid' heq =>
      hnamed.injective key ((hunused key hvalid).mp hkey) key' ((hunused key' hvalid').mp hkey') heq
  have hnodup : (unusedKeys kf c.name used).Nodup :=
    (nodup_getKeys _ _).filter _
  apply Std.ExtTreeMap.ext_getElem?
  intro key
  rw [Userdata.getElem?_refill hnodup hset hdistinct]
  have hold : key ∉ u.userdata → v.userdata[key]? = none := fun hkey =>
    Std.ExtTreeMap.getElem?_eq_none fun hm => hkey (hv.sub key hm)
  by_cases hkey : key ∈ u.userdata
  · have hvalid := hnamed.valid key hkey
    obtain ⟨value, hsome⟩ := Option.isSome_iff_exists.mp
      (Std.ExtTreeMap.mem_iff_isSome_getElem?.mp hkey)
    rw [if_pos ⟨(hunused key hvalid).mpr hkey, hvalid⟩, hvalue hvalid, hsome]
    rfl
  · rw [if_neg fun h => hkey ((hunused key h.2).mp h.1), hold hkey,
      Std.ExtTreeMap.getElem?_eq_none hkey]

end Unused

end Chroot

end Schroot
