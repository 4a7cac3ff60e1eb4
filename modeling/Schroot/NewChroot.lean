import Schroot.FacetsBack

/-!
# The chroot that a group is read into

A group of the chroot namespace is read into a new chroot of its type with the name of the
group.  The user data of a new chroot is that of the default profile, and nothing else.

**Results.**
* `createTemplate_eq_ok`: the template of a group.
* `construct_eq_ok`: a new chroot has the facets of its type and the data of the default profile.
-/

namespace Schroot

namespace Userdata

variable {u u' : Userdata} {key value : String}

/-- The user data of a profile: its keys, whose variables are the only ones taken. -/
structure FromProfile (u : Userdata) : Prop where
  keys : ∀ key, key ∈ u.userdata ↔ key ∈ profileKeys
  env : ∀ name ∈ u.env, name ∈ profileKeys.map envname

/-- The keys that profiles set are valid. -/
theorem validateKeyname_of_mem_profileKeys
    (h : key ∈ profileKeys) :
    validateKeyname key = true := by
  have hall : ∀ k ∈ profileKeys, validateKeyname k = true := by decide
  exact hall key h

theorem env_setSystemData
    (hu : ∀ name ∈ u.env, name ∈ profileKeys.map envname)
    (hkey : key ∈ profileKeys)
    (h : u.setSystemData key value = .ok u') :
    ∀ name ∈ u'.env, name ∈ profileKeys.map envname := by
  intro name hname
  obtain ⟨-, ⟨-, henv⟩ | ⟨-, -, henv⟩⟩ := setSystemData_cases h
  · exact hu name (henv ▸ hname)
  · rw [henv, Std.ExtTreeSet.mem_insert, Std.compare_eq_iff_eq] at hname
    rcases hname with rfl | hname
    · exact List.mem_map_of_mem hkey
    · exact hu name hname

/-- **Setting a profile** sets its keys and no others. -/
theorem setProfileData_eq_ok
    {profile : String}
    (h : (Chroot.profileData profile).foldlM (fun u e => u.setSystemData e.1 e.2) u = .ok u') :
    (∀ key, key ∈ u'.userdata ↔ key ∈ profileKeys ∨ key ∈ u.userdata) ∧
      ((∀ name ∈ u.env, name ∈ profileKeys.map envname) →
        ∀ name ∈ u'.env, name ∈ profileKeys.map envname) ∧
      (u'.userModifiableKeys = u.userModifiableKeys ∧
        u'.rootModifiableKeys = u.rootModifiableKeys) := by
  simp only [Chroot.profileData, List.foldlM_cons, List.foldlM_nil, bind_eq_ok_iff] at h
  obtain ⟨u₁, h₁, u₂, h₂, u₃, h₃, u₄, h₄, h⟩ := h
  cases h
  refine ⟨fun key => ?_, fun henv => ?_, ?_⟩
  · rw [(setSystemData_cases h₄).1, (setSystemData_cases h₃).1, (setSystemData_cases h₂).1,
      (setSystemData_cases h₁).1]
    simp only [profileKeys, Chroot.profileData, List.map_cons, List.map_nil, List.mem_cons,
      List.not_mem_nil, or_false]
    tauto
  · exact env_setSystemData (env_setSystemData (env_setSystemData (env_setSystemData henv
      (by decide) h₁) (by decide) h₂) (by decide) h₃) (by decide) h₄
  · have k₁ := keys_setSystemData h₁
    have k₂ := keys_setSystemData h₂
    have k₃ := keys_setSystemData h₃
    have k₄ := keys_setSystemData h₄
    exact ⟨k₄.1.trans (k₃.1.trans (k₂.1.trans k₁.1)), k₄.2.trans (k₃.2.trans (k₂.2.trans k₁.2))⟩

theorem fromProfile_new
    {profile : String}
    (h : (Chroot.profileData profile).foldlM (fun u e => u.setSystemData e.1 e.2) ({} : Userdata) =
      .ok u) :
    u.FromProfile := by
  obtain ⟨hkeys, henv, -⟩ := setProfileData_eq_ok h
  refine ⟨fun key => ?_, henv fun name hname => ?_⟩
  · rw [hkeys]
    simp
  · simp at hname

/-- Where the keys of a profile are set, another profile can be. -/
theorem exists_setSystemData
    (h : key ∈ u.userdata)
    (value : String) :
    ∃ u', u.setSystemData key value = .ok u' := by
  unfold setSystemData
  rw [if_pos h]
  exact ⟨_, rfl⟩

theorem exists_setProfileData
    (hu : u.HasProfile)
    (profile : String) :
    ∃ u', (Chroot.profileData profile).foldlM (fun u e => u.setSystemData e.1 e.2) u = .ok u' := by
  obtain ⟨u₁, h₁⟩ := exists_setSystemData (hu "setup.config" (by decide)) (profile ++ "/config")
  have hu₁ := hu.setSystemData h₁
  obtain ⟨u₂, h₂⟩ := exists_setSystemData (hu₁ "setup.copyfiles" (by decide))
    (profile ++ "/copyfiles")
  have hu₂ := hu₁.setSystemData h₂
  obtain ⟨u₃, h₃⟩ := exists_setSystemData (hu₂ "setup.nssdatabases" (by decide))
    (profile ++ "/nssdatabases")
  have hu₃ := hu₂.setSystemData h₃
  obtain ⟨u₄, h₄⟩ := exists_setSystemData (hu₃ "setup.fstab" (by decide)) (profile ++ "/fstab")
  refine ⟨u₄, ?_⟩
  simp only [Chroot.profileData, List.foldlM_cons, List.foldlM_nil, bind_eq_ok_iff]
  exact ⟨u₁, h₁, u₂, h₂, u₃, h₃, u₄, h₄, rfl⟩

end Userdata

namespace Chroot

section Creation

variable {cfg : SbuildConfig} {kind : ChrootKind} {c c' : Chroot}

/-- The facets of a new chroot. -/
def newFacets (cfg : SbuildConfig) (kind : ChrootKind) (u : Userdata) : List Facet :=
  match kind with
  | .plain _ => [.personality .undefined, .userdata u]
  | kind => [.personality .undefined, .sessionClonable, .userdata u] ++ extraFacets cfg kind

/-- A new chroot. -/
def newChroot (cfg : SbuildConfig) (kind : ChrootKind) (name : String) (u : Userdata) : Chroot where
  name := name
  environmentFilter := cfg.defaultEnvironmentFilter
  runSetupScripts :=
    match kind with
    | .plain _ => false
    | _ => true
  facets := newFacets cfg kind u
  kind := kind

theorem baseChroot_eq_ok
    (h : baseChroot cfg kind = .ok c) :
    ∃ u, u.Profiled ∧ u.FromProfile ∧
      (u.userModifiableKeys = ∅ ∧ u.rootModifiableKeys = ∅) ∧
      c = { environmentFilter := cfg.defaultEnvironmentFilter
            facets := [.personality .undefined, .sessionClonable, .userdata u]
            kind := kind } := by
  simp only [baseChroot, bind_eq_ok_iff, mapError_eq_ok_iff] at h
  obtain ⟨c₁, h₁, c₂, h₂, c₃, h₃, h⟩ := h
  obtain ⟨_, rfl⟩ := addFacet_eq_ok_iff.mp h₁
  obtain ⟨_, rfl⟩ := addFacet_eq_ok_iff.mp h₂
  obtain ⟨_, rfl⟩ := addFacet_eq_ok_iff.mp h₃
  obtain ⟨u, hu, h⟩ := bind_eq_ok_iff.mp h
  cases h
  exact ⟨u, (Userdata.profiled_new hu).1, Userdata.fromProfile_new hu,
    (Userdata.setProfileData_eq_ok hu).2.2, rfl⟩

theorem addFacets_eq_ok
    {facets : List Facet}
    (h : facets.foldlM (fun c f => addFacet f c) c = .ok c') :
    c' = { c with facets := c.facets ++ facets } := by
  induction facets generalizing c with
  | nil =>
      cases h
      rw [List.append_nil]
  | cons f facets ih =>
      rw [List.foldlM_cons, bind_eq_ok_iff] at h
      obtain ⟨d, hd, h⟩ := h
      obtain ⟨-, rfl⟩ := addFacet_eq_ok_iff.mp hd
      rw [ih h]
      simp

/-- **A new chroot** has the facets of its type and the user data of the default profile. -/
theorem construct_eq_ok
    (h : construct cfg kind = .ok c) :
    ∃ u, u.Profiled ∧ u.FromProfile ∧
      (u.userModifiableKeys = ∅ ∧ u.rootModifiableKeys = ∅) ∧
      c = newChroot cfg kind "" u := by
  simp only [construct, bind_eq_ok_iff, mapError_eq_ok_iff] at h
  obtain ⟨b, hbase, d, hadd, h⟩ := h
  obtain ⟨u, hprofiled, hu, hmodifiable, rfl⟩ := baseChroot_eq_ok hbase
  have hd := addFacets_eq_ok hadd
  subst hd
  refine ⟨u, hprofiled, hu, hmodifiable, ?_⟩
  cases kind <;> cases h <;> rfl

/-- The template of a group is a new chroot with the name of the group. -/
theorem createTemplate_eq_ok
    {kf : Keyfile} {group : String}
    (h : ChrootConfig.createTemplate cfg "chroot" kf group = .ok c) :
    ∃ kind u, kindOfType ((kf.value? group "type").getD "plain") = some kind ∧
      u.Profiled ∧ u.FromProfile ∧
      (u.userModifiableKeys = ∅ ∧ u.rootModifiableKeys = ∅) ∧
      c = newChroot cfg kind group u := by
  simp only [ChrootConfig.createTemplate, bind_eq_ok_iff, mapError_eq_ok_iff] at h
  obtain ⟨a, ha, b, hb, h⟩ := h
  rw [if_neg (by simp)] at h
  cases h
  obtain ⟨-, -, rfl⟩ := setName_eq_ok_iff.mp hb
  unfold create at ha
  split at ha
  · cases ha
  · rename_i kind hkind
    obtain ⟨u, hprofiled, hu, hmodifiable, rfl⟩ := construct_eq_ok ha
    exact ⟨kind, u, hkind, hprofiled, hu, hmodifiable, rfl⟩

/-- Two groups with the same type and name have the same template. -/
theorem createTemplate_congr
    {kf kf' : Keyfile} {group : String}
    (h : kindOfType ((kf.value? group "type").getD "plain") = some kind)
    (h' : kindOfType ((kf'.value? group "type").getD "plain") = some kind) :
    ChrootConfig.createTemplate cfg "chroot" kf' group =
      ChrootConfig.createTemplate cfg "chroot" kf group := by
  simp [ChrootConfig.createTemplate, create, h, h']

theorem newKind_of_kindOfType
    {type : String}
    (h : kindOfType type = some kind) :
    newKind kind = kind := by
  unfold kindOfType at h
  repeat' split at h
  all_goals cases h
  all_goals rfl

theorem newKind_eq_of_typeName
    {kind' : ChrootKind}
    (h : kind'.typeName = kind.typeName) :
    newKind kind' = newKind kind := by
  have hsome := kindOfType_typeName kind'
  rw [h, kindOfType_typeName] at hsome
  exact (Option.some.inj hsome).symm

end Creation

section Facets

variable {cfg : SbuildConfig} {kind : ChrootKind} {name : String} {u : Userdata}

theorem tags_newFacets : TaggedList.tags Facet.kind (newFacets cfg kind u) =
    newFacetKinds cfg kind := by
  cases kind <;> rfl

theorem facetKinds_newChroot : (newChroot cfg kind name u).facetKinds = newFacetKinds cfg kind :=
  tags_newFacets

theorem isNew_newFacets : ∀ f ∈ newFacets cfg kind u, IsNew f := by
  cases kind <;> simp [newFacets, extraFacets, newUnion, IsNew]

theorem nodup_newFacetKinds : (newFacetKinds cfg kind).Nodup := by
  cases kind <;> simp [newFacetKinds, extraFacets, newUnion, Facet.kind]

theorem session_notMem_newFacetKinds : .session ∉ newFacetKinds cfg kind := by
  cases kind <;> simp [newFacetKinds, extraFacets, newUnion, Facet.kind]

/-- A chroot that can have a union becomes source-clonable only through it. -/
theorem sourceClonable_notMem_newFacetKinds
    (h : .union ∈ newFacetKinds cfg kind) :
    .sourceClonable ∉ newFacetKinds cfg kind := by
  cases kind <;> simp [newFacetKinds, extraFacets, newUnion, Facet.kind] at h ⊢

theorem isSession_newChroot (cfg : SbuildConfig) (kind : ChrootKind) (name : String) (u : Userdata) :
    (newChroot cfg kind name u).isSession = false := by
  rw [Bool.eq_false_iff, ne_eq, isSession_iff, facetKinds_newChroot]
  exact session_notMem_newFacetKinds

theorem userdata_newFacets : TaggedList.get? Facet.kind .userdata (newFacets cfg kind u) =
    some (.userdata u) := by
  cases kind <;> rfl

theorem mem_userdata_newFacets
    {v : Userdata}
    (h : .userdata v ∈ newFacets cfg kind u) :
    v = u := by
  cases kind <;> simpa [newFacets, extraFacets, newUnion] using h

theorem legible_newChroot
    (hmodifiable : u.userModifiableKeys = ∅ ∧ u.rootModifiableKeys = ∅) :
    Legible cfg (newChroot cfg kind name u) := by
  have hunion : FacetLegible (newUnion cfg) :=
    ⟨rfl, cfg.isAbsname_overlayDir, cfg.isAbsname_underlayDir⟩
  have hdata : FacetLegible (.userdata u) := by
    rw [FacetLegible, hmodifiable.1, hmodifiable.2]
    exact ⟨fun s hs => by simp at hs, fun s hs => by simp at hs⟩
  have hclonable := facetLegible_newSourceClonable
  have hmount : FacetLegible (.mountable {}) := .inl rfl
  have hpersonality : FacetLegible (.personality .undefined) := trivial
  have hsession : FacetLegible .sessionClonable := trivial
  refine ⟨cfg.regexValid_filter, cfg.singleLine_filter, allItems_nil, allItems_nil, allItems_nil,
    allItems_nil, allItems_nil, ?_⟩
  show ∀ f ∈ newFacets cfg kind u, FacetLegible f
  cases kind <;>
    simp [newFacets, extraFacets, hpersonality, hsession, hunion, hdata, hclonable, hmount]

theorem profileInvariant_newChroot
    (hprofiled : u.Profiled) :
    ProfileInvariant (newChroot cfg kind name u) := by
  refine ⟨?_, fun v hv => ?_, fun hne => absurd rfl hne⟩
  · rw [facetKinds_newChroot]
    cases kind <;> simp [newFacetKinds]
  · rw [mem_userdata_newFacets hv]
    exact ⟨hprofiled, fun hne => absurd rfl hne⟩

end Facets

end Chroot

end Schroot
