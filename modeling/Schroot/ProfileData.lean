import Schroot.UserdataInvariant

/-!
# User data that comes from a profile

A new chroot has the user data of the default profile.  Setting a script configuration removes it
for good: the environment variables of its keys stay taken, so that none of them is ever accepted
again.

**Results.**
* `FreeOfProfile.setSystemData`: a key of a removed profile is never accepted again.
* `ProfileInvariant.setKeyfile`: reading keeps them, and a script configuration decides between
  them.
-/

namespace Schroot

namespace Userdata

section Profiles

/-- The keys that a profile sets. -/
def profileKeys : List String :=
  (Chroot.profileData "").map Prod.fst

/-- All of them are set. -/
def HasProfile (u : Userdata) : Prop :=
  ∀ key ∈ profileKeys, key ∈ u.userdata

/-- No key that is set has the variable of one of them. -/
def FreeOfProfile (u : Userdata) : Prop :=
  ∀ key ∈ u.userdata, envname key ∉ profileKeys.map envname

/-- Their variables are taken, and either all of them are set, or none can ever be. -/
structure Profiled (u : Userdata) : Prop extends Reserved u where
  taken : ∀ key ∈ profileKeys, envname key ∈ u.env
  cases : u.HasProfile ∨ u.FreeOfProfile

variable {u u' : Userdata} {key value : String}

theorem FreeOfProfile.notMem
    (h : u.FreeOfProfile)
    (hkey : key ∈ profileKeys) :
    key ∉ u.userdata :=
  fun hm => h key hm (List.mem_map_of_mem hkey)

theorem HasProfile.setSystemData
    (hu : u.HasProfile)
    (h : u.setSystemData key value = .ok u') :
    u'.HasProfile :=
  fun k hk => ((setSystemData_cases h).1 k).mpr (.inr (hu k hk))

theorem taken_setSystemData
    (hu : ∀ k ∈ profileKeys, envname k ∈ u.env)
    (h : u.setSystemData key value = .ok u') :
    ∀ k ∈ profileKeys, envname k ∈ u'.env := by
  intro k hk
  obtain ⟨-, ⟨-, henv⟩ | ⟨-, -, henv⟩⟩ := setSystemData_cases h
  · rw [henv]
    exact hu k hk
  · rw [henv, Std.ExtTreeSet.mem_insert]
    exact .inr (hu k hk)

/-- **A key whose variable is taken is not set anew.** -/
theorem FreeOfProfile.setSystemData
    (hu : u.FreeOfProfile)
    (htaken : ∀ k ∈ profileKeys, envname k ∈ u.env)
    (h : u.setSystemData key value = .ok u') :
    u'.FreeOfProfile := by
  obtain ⟨hkeys, hcases⟩ := setSystemData_cases h
  intro k hk hm
  rcases (hkeys k).mp hk with rfl | hk
  · rcases hcases with ⟨hold, -⟩ | ⟨-, hfresh, -⟩
    · exact hu k hold hm
    · obtain ⟨s, hs, heq⟩ := List.mem_map.mp hm
      exact hfresh (heq ▸ htaken s hs)
  · exact hu k hk hm

theorem Profiled.setSystemData
    (hu : u.Profiled)
    (h : u.setSystemData key value = .ok u') :
    u'.Profiled :=
  ⟨hu.toReserved.setSystemData h, taken_setSystemData hu.taken h,
    hu.cases.imp (fun hp => hp.setSystemData h) (fun hf => hf.setSystemData hu.taken h)⟩

theorem Profiled.setData
    (hu : u.Profiled)
    (h : u.setData key value = .ok u') :
    u'.Profiled ∧ (u.FreeOfProfile → u'.FreeOfProfile) := by
  unfold Userdata.setData at h
  split at h
  · exact ⟨hu.setSystemData h, fun hf => hf.setSystemData hu.taken h⟩
  · cases h

/-- Once a profile has been removed, no other one can be set. -/
theorem hasProfile_of_setProfileData
    {profile : String}
    (hu : u.Profiled)
    (h : (Chroot.profileData profile).foldlM (fun u e => u.setSystemData e.1 e.2) u = .ok u') :
    u.HasProfile ∧ u'.Profiled := by
  simp only [Chroot.profileData, List.foldlM_cons, List.foldlM_nil, bind_eq_ok_iff] at h
  obtain ⟨u₁, h₁, u₂, h₂, u₃, h₃, u₄, h₄, h⟩ := h
  cases h
  refine ⟨hu.cases.resolve_right fun hfree => ?_, (((hu.setSystemData h₁).setSystemData
    h₂).setSystemData h₃).setSystemData h₄⟩
  have hkey : "setup.config" ∈ profileKeys := by decide
  obtain ⟨-, ⟨hmem, -⟩ | ⟨-, hfresh, -⟩⟩ := setSystemData_cases h₁
  · exact hfree.notMem hkey hmem
  · exact hfresh (hu.taken _ hkey)

/-- What setting a script configuration removes. -/
def removeProfile (u : Userdata) : Userdata :=
  (((u.removeData "setup.config").removeData "setup.copyfiles").removeData
    "setup.nssdatabases").removeData "setup.fstab"

theorem mem_removeProfile :
    key ∈ u.removeProfile.userdata ↔ key ∉ profileKeys ∧ key ∈ u.userdata := by
  simp only [removeProfile, removeData, Std.ExtTreeMap.mem_erase, Std.compare_eq_iff_eq,
    profileKeys, Chroot.profileData, List.map_cons, List.map_nil, List.mem_cons,
    List.not_mem_nil, or_false, not_or, ne_eq, eq_comm (b := key)]
  tauto

theorem Profiled.removeProfile
    (hu : u.Profiled) :
    u.removeProfile.Profiled ∧ u.removeProfile.FreeOfProfile := by
  have hfree : u.removeProfile.FreeOfProfile := by
    intro key hkey hm
    obtain ⟨hnot, hold⟩ := mem_removeProfile.mp hkey
    rcases hu.cases with hp | hf
    · obtain ⟨s, hs, heq⟩ := List.mem_map.mp hm
      exact hnot (hu.injective key hold s (hp s hs) heq.symm ▸ hs)
    · exact hf key hold hm
  refine ⟨⟨⟨fun k hk => ?_, fun k hk k' hk' => ?_⟩, hu.taken, .inr hfree⟩, hfree⟩
  · exact hu.env k (mem_removeProfile.mp hk).2
  · exact hu.injective k (mem_removeProfile.mp hk).2 k' (mem_removeProfile.mp hk').2

/-- The user data of a new chroot. -/
theorem profiled_new
    {profile : String}
    (h : (Chroot.profileData profile).foldlM (fun u e => u.setSystemData e.1 e.2) ({} : Userdata) =
      .ok u) :
    u.Profiled ∧ u.HasProfile := by
  simp only [Chroot.profileData, List.foldlM_cons, List.foldlM_nil, bind_eq_ok_iff] at h
  obtain ⟨u₁, h₁, u₂, h₂, u₃, h₃, u₄, h₄, h⟩ := h
  cases h
  have hreserved : Reserved {} := consistent_new.reserved
  have hall : u.HasProfile := by
    intro key hkey
    rw [(setSystemData_cases h₄).1, (setSystemData_cases h₃).1, (setSystemData_cases h₂).1,
      (setSystemData_cases h₁).1]
    simp only [profileKeys, Chroot.profileData, List.map_cons, List.map_nil, List.mem_cons,
      List.not_mem_nil, or_false] at hkey
    tauto
  have hu := (((hreserved.setSystemData h₁).setSystemData h₂).setSystemData h₃).setSystemData h₄
  exact ⟨⟨hu, fun key hkey => hu.env key (hall key hkey), .inl hall⟩, hall⟩

end Profiles

end Userdata

namespace Chroot

section Invariant

/-- The user data is as a profile or a script configuration leaves it, and a script configuration
leaves no profile. -/
structure ProfileInvariant (c : Chroot) : Prop where
  present : .userdata ∈ c.facetKinds
  data : ∀ u, .userdata u ∈ c.facets → u.Profiled ∧ (c.scriptConfig ≠ "" → u.FreeOfProfile)
  profile : c.scriptConfig ≠ "" → c.profile = ""

variable {cfg : SbuildConfig} {kf : Keyfile} {c c' : Chroot}

theorem exists_userdata
    (h : .userdata ∈ c.facetKinds) :
    ∃ u, c.userdata? = some u := by
  rw [← hasFacet_iff] at h
  have hget : (c.getFacet .userdata).isSome = true := by
    rw [getFacet, ← TaggedList.has_eq_isSome_get?]
    exact h
  obtain ⟨f, hf⟩ := Option.isSome_iff_exists.mp hget
  have hkind : f.kind = .userdata := by simpa using List.find?_some hf
  cases f <;> simp [Facet.kind] at hkind
  exact ⟨_, by rw [userdata?, hf]⟩

/-- Only the profile, the script configuration and the user data matter. -/
theorem ProfileInvariant.of_facets
    (hc : ProfileInvariant c)
    (hscript : c'.scriptConfig = c.scriptConfig)
    (hprofile : c'.profile = c.profile)
    (hpresent : .userdata ∈ c'.facetKinds)
    (hfacets : ∀ u, .userdata u ∈ c'.facets →
      .userdata u ∈ c.facets ∨
        u.Profiled ∧ ((∀ v, .userdata v ∈ c.facets → v.FreeOfProfile) → u.FreeOfProfile)) :
    ProfileInvariant c' := by
  refine ⟨hpresent, fun u hu => ?_, fun hne => ?_⟩
  · rw [hscript]
    rcases hfacets u hu with hold | ⟨hu, hfree⟩
    · exact hc.data u hold
    · exact ⟨hu, fun hne => hfree fun v hv => (hc.data v hv).2 hne⟩
  · rw [hprofile]
    exact hc.profile (hscript ▸ hne)

theorem ProfileInvariant.updateFacet
    {f : Facet}
    (hc : ProfileInvariant c)
    (hf : ∀ u, f = .userdata u →
      u.Profiled ∧ ((∀ v, .userdata v ∈ c.facets → v.FreeOfProfile) → u.FreeOfProfile)) :
    ProfileInvariant (c.updateFacet f) := by
  refine hc.of_facets rfl rfl ?_ fun u hu => ?_
  · rw [facetKinds_updateFacet]
    exact hc.present
  · rcases TaggedList.mem_replace hu with heq | hu
    · exact .inr (hf u heq.symm)
    · exact .inl hu

theorem ProfileInvariant.append
    {f : Facet}
    (hc : ProfileInvariant c)
    (hf : ∀ u, f ≠ .userdata u) :
    ProfileInvariant { c with facets := c.facets ++ [f] } := by
  refine hc.of_facets rfl rfl ?_ fun u hu => ?_
  · rw [facetKinds_append]
    exact List.mem_append_left _ hc.present
  · rcases List.mem_append.mp hu with hu | hu
    · exact .inl hu
    · exact absurd (List.mem_singleton.mp hu).symm (hf u)

theorem ProfileInvariant.removeFacet
    {kind : FacetKind}
    (hc : ProfileInvariant c)
    (hkind : kind ≠ .userdata) :
    ProfileInvariant (c.removeFacet kind) :=
  hc.of_facets rfl rfl ((mem_facetKinds_removeFacet hkind.symm).mpr hc.present)
    fun _ hu => .inl (List.mem_of_mem_eraseP hu)

theorem ProfileInvariant.setMountDevice
    (hc : ProfileInvariant c)
    (device : String) :
    ProfileInvariant (Chroot.setMountDevice device c) := by
  unfold Chroot.setMountDevice
  split
  · exact hc
  · exact hc.updateFacet (fun _ hf => by cases hf)

theorem ProfileInvariant.setUnionType
    {type : String}
    (hc : ProfileInvariant c)
    (h : Chroot.setUnionType type c = .ok c') :
    ProfileInvariant c' := by
  have hunion : ∀ u : UnionFacet, ProfileInvariant (c.updateFacet (.union u)) :=
    fun u => hc.updateFacet fun _ hf => by cases hf
  rcases setUnionType_cases h with
    ⟨_, rfl⟩ | ⟨u, _, _, ⟨_, rfl⟩ | ⟨_, _, rfl⟩ | ⟨_, _, rfl⟩⟩
  · exact hc
  · exact (hunion _).removeFacet (by decide)
  · exact hunion _
  · exact (hunion { u with unionType := type }).append fun _ hf => by cases hf

/-- **A profile is set only where there is one**: after a script configuration there is none. -/
theorem ProfileInvariant.setProfile
    {profile : String}
    (hc : ProfileInvariant c)
    (h : Chroot.setProfile profile c = .ok c') :
    ProfileInvariant c' := by
  obtain ⟨u, hu⟩ := exists_userdata hc.present
  have hdata : ({ c with profile := profile } : Chroot).userdata? = some u := hu
  simp only [Chroot.setProfile, hdata] at h
  obtain ⟨u', hu', h⟩ := bind_eq_ok_iff.mp h
  cases h
  obtain ⟨hprofiled, hscript⟩ := hc.data u (mem_of_userdata? hu)
  obtain ⟨hhas, hprofiled'⟩ := Userdata.hasProfile_of_setProfileData hprofiled hu'
  have hnone : c.scriptConfig = "" := by
    by_contra hne
    have hkey : "setup.config" ∈ Userdata.profileKeys := by decide
    exact (hscript hne).notMem hkey (hhas _ hkey)
  refine ⟨?_, fun v hv => ?_, fun hne => absurd hnone hne⟩
  · rw [facetKinds_updateFacet]
    exact hc.present
  · rcases TaggedList.mem_replace hv with heq | hv
    · cases heq
      exact ⟨hprofiled', fun hne => absurd hnone hne⟩
    · exact ⟨(hc.data v hv).1, fun hne => absurd hnone hne⟩

theorem ProfileInvariant.setScriptConfig
    (hc : ProfileInvariant c)
    (hnodup : c.facetKinds.Nodup)
    (scriptConfig : String) :
    ProfileInvariant (Chroot.setScriptConfig scriptConfig c) := by
  obtain ⟨u, hu⟩ := exists_userdata hc.present
  have hdata : ({ c with scriptConfig := scriptConfig, profile := "" } : Chroot).userdata? =
      some u := hu
  have hget : TaggedList.get? Facet.kind .userdata c.facets = some (.userdata u) := by
    unfold userdata? getFacet at hu
    split at hu
    · rename_i hget
      cases hu
      exact hget
    · cases hu
  obtain ⟨before, after, hfacets, hkinds, hreplace⟩ := TaggedList.exists_split hnodup hget
  have hset : Chroot.setScriptConfig scriptConfig c =
      { c with
        scriptConfig := scriptConfig
        profile := ""
        facets := before ++ .userdata u.removeProfile :: after } := by
    simp only [Chroot.setScriptConfig, hdata, Chroot.updateFacet]
    rw [hreplace _ rfl]
    rfl
  obtain ⟨hprofiled, hfree⟩ := (hc.data u (mem_of_userdata? hu)).1.removeProfile
  rw [hset]
  refine ⟨by simp [facetKinds, TaggedList.tags, Facet.kind], fun v hv => ?_, fun _ => rfl⟩
  have hv : Facet.userdata v ∈ before ++ .userdata u.removeProfile :: after := hv
  rw [List.mem_append, List.mem_cons, or_left_comm, ← List.mem_append] at hv
  rcases hv with heq | hv
  · cases heq
    exact ⟨hprofiled, fun _ => hfree⟩
  · exact absurd rfl (hkinds _ hv)

theorem ProfileInvariant.baseStep
    {session : Bool} {key : String}
    (hc : ProfileInvariant c)
    (hnodup : c.facetKinds.Nodup)
    (h : BaseStep cfg session kf c key c') :
    ProfileInvariant c' := by
  cases h with
  | skip => exact hc
  | profile _ h => exact hc.setProfile h
  | scriptConfig => exact hc.setScriptConfig hnodup _
  | aliases _ h =>
      obtain ⟨_, _, h⟩ := bind_eq_ok_iff.mp h
      cases h
      exact ⟨hc.present, hc.data, hc.profile⟩
  | mountLocation _ _ h =>
      unfold Chroot.setMountLocation at h
      split at h <;> cases h
      exact ⟨hc.present, hc.data, hc.profile⟩
  | name _ _ h =>
      obtain ⟨_, _, rfl⟩ := setName_eq_ok_iff.mp h
      exact ⟨hc.present, hc.data, hc.profile⟩
  | verbosity _ h =>
      unfold Chroot.setVerbosity at h
      repeat (split at h; · cases h; exact ⟨hc.present, hc.data, hc.profile⟩)
      cases h
  | _ => exact ⟨hc.present, hc.data, hc.profile⟩

theorem ProfileInvariant.facetStep
    {key : String}
    (hc : ProfileInvariant c)
    (h : FacetStep kf c key c') :
    ProfileInvariant c' := by
  cases h with
  | skip => exact hc
  | userModifiableKeys hu _ | rootModifiableKeys hu _ =>
      refine hc.updateFacet fun v hv => ?_
      cases hv
      have hmem := mem_of_userdata? hu
      have hprofiled := (hc.data _ hmem).1
      refine ⟨⟨⟨hprofiled.env, hprofiled.injective⟩, hprofiled.taken, hprofiled.cases⟩,
        fun hall => ?_⟩
      have hfree := hall _ hmem
      exact hfree
  | _ => exact hc.updateFacet fun _ hf => by cases hf

theorem ProfileInvariant.typeStep
    {c₀ : Chroot} {key : String}
    (hc : ProfileInvariant c)
    (h : TypeStep kf c₀ c key c') :
    ProfileInvariant c' := by
  have hkind : ∀ kind, ProfileInvariant { c with kind := kind } :=
    fun _ => ⟨hc.present, hc.data, hc.profile⟩
  cases h with
  | skip => exact hc
  | kind => exact hkind _
  | snapshotDevice _ _ hset =>
      obtain ⟨-, hset⟩ := checkAbs_bind_eq_ok_iff.mp hset
      cases hset
      exact (hkind _).setMountDevice _
  | cloneName =>
      simp only [Chroot.setZfsCloneName]
      split
      · exact (hkind _).setMountDevice _
      · exact (hkind _).setMountDevice _
  | switch _ hf hset =>
      split at hset
      · obtain ⟨-, rfl⟩ := addFacet_eq_ok_iff.mp hset
        refine hc.append fun u hu => ?_
        rcases hf with rfl | rfl <;> cases hu
      · cases hset
        refine hc.removeFacet ?_
        rcases hf with rfl | rfl <;> decide

/-- **Reading keeps the invariant.** -/
theorem ProfileInvariant.setKeyfile
    (hc : ProfileInvariant c)
    (hdata : DataInvariant c)
    (h : c.setKeyfile cfg kf = .ok c') :
    ProfileInvariant c' := by
  refine (KeptByKeys.setKeyfile (P := fun x => DataInvariant x ∧ ProfileInvariant x)
    ⟨fun hx hstep => ⟨hx.1.baseStep hstep, hx.2.baseStep hx.1.nodup hstep⟩,
      fun hx hstep => ⟨hx.1.typeStep hstep, hx.2.typeStep hstep⟩,
      fun hx hstep => ⟨hx.1.facetStep hstep, hx.2.facetStep hstep⟩,
      fun hx _ hset => ⟨hx.1.setUnionType hset, hx.2.setUnionType hset⟩,
      fun {_ _ x u u'} hx hu _ hset => ⟨?_, ?_⟩⟩ ⟨hdata, hc⟩ h).2
  · refine hx.1.updateFacet fun v hv => ?_
    cases hv
    exact (hx.1.named u (mem_of_userdata? hu)).setData hset
  · refine hx.2.updateFacet fun v hv => ?_
    cases hv
    have hmem := mem_of_userdata? hu
    have hprofiled := (hx.2.data u hmem).1.setData hset
    exact ⟨hprofiled.1, fun hall => hprofiled.2 (hall u hmem)⟩

end Invariant

end Chroot

end Schroot
