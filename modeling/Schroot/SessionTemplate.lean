import Schroot.SessionForm

/-!
# The template of a session

A group of the session namespace is read into a session of a new chroot of its type, which is
begun only to have the facets of a session.  None of its facets has any data but the user data
of the default profile and the directories of the union.

**Results.**
* `createTemplate_session`: the template of a group of the session namespace.
-/

namespace Schroot

namespace Chroot

section Steps

variable {c : Chroot}

theorem exists_setSessionLocation
    (cfg : SbuildConfig)
    (sessionId : String)
    (h : c.mountLocation = "") :
    ∃ c', c.setSessionLocation cfg sessionId = .ok c' := by
  have habs : isAbsname (cfg.mountDir ++ "/" ++ sessionId) = true :=
    isAbsname_append (isAbsname_append cfg.isAbsname_mountDir)
  unfold setSessionLocation
  split
  · exact ⟨_, rfl⟩
  · rw [if_pos h, setMountLocation, if_neg (by simp [habs])]
    exact ⟨_, rfl⟩

theorem exists_setSessionUnion
    (h : ∀ f ∈ c.facets, FacetLegible f) :
    ∃ c', c.setSessionUnion = .ok c' := by
  unfold setSessionUnion
  split
  · exact ⟨_, rfl⟩
  · rename_i u hu
    obtain ⟨-, hoverlay, hunderlay⟩ : FacetLegible (.union u) := h _ (mem_of_unionFacet? hu)
    simp [UnionFacet.setOverlayDirectory, UnionFacet.setUnderlayDirectory,
      isAbsname_append (isAbsname_append hoverlay), isAbsname_append (isAbsname_append hunderlay),
      bind, Except.bind, pure, Except.pure]

/-- **A session of a new chroot can be begun.** -/
theorem exists_cloneSession
    (cfg : SbuildConfig)
    {sessionId : String}
    (selected user : String)
    (root : Bool)
    (hplain : ∀ directory, c.kind ≠ .plain directory)
    (hnew : newKind c.kind = c.kind)
    (hclonable : .sessionClonable ∈ c.facetKinds)
    (hsession : .session ∉ c.facetKinds)
    (hlocation : c.mountLocation = "")
    (hlegible : ∀ f ∈ c.facets, FacetLegible f)
    (hvalid : ':' ∉ sessionId.toList ∧ isValidSessionname sessionId = true) :
    ∃ s, c.cloneSession cfg sessionId selected user root = .ok (some s) := by
  have hcopy : c.copy = c := by
    unfold copy
    split
    · rename_i hk
      rw [hk] at hnew
      cases hnew
      rw [← hk]
    · rfl
  obtain ⟨b, hb⟩ : ∃ b, b = setSessionUsers user root
      { c with
        name := sessionId
        description := c.description ++ " " ++ "(session chroot)"
        facets := ((c.removeFacet .sessionClonable).removeFacet .sourceClonable).facets ++
          [.session
            { parent := some c.facetKinds
              originalName := c.name
              selectedName := (getNamespace selected).2 }] } := ⟨_, rfl⟩
  have hblegible : ∀ f ∈ b.facets, FacetLegible f := by
    intro f hf
    rw [hb] at hf
    rcases List.mem_append.mp hf with hf | hf
    · exact hlegible f (List.mem_of_mem_eraseP (List.mem_of_mem_eraseP hf))
    · rw [List.mem_singleton.mp hf]
      exact trivial
  obtain ⟨c₃, h₃⟩ := exists_setSessionLocation cfg sessionId
    (show b.mountLocation = "" by rw [hb]; exact hlocation)
  have hkind : c₃.setSessionMountDevice.kind = c.kind := by
    rw [kind_setSessionMountDevice, kind_setSessionLocation h₃, hb]
    rfl
  have hsnapshot : c₃.setSessionMountDevice.setSessionSnapshot = .ok c₃.setSessionMountDevice :=
    setSessionSnapshot_new (by rw [hkind, hnew])
  have hclegible : ∀ f ∈ c₃.setSessionMountDevice.facets, FacetLegible f :=
    ((sessionStep_setSessionLocation h₃).trans (sessionStep_setSessionMountDevice c₃)).legible
      hblegible
  obtain ⟨s, hs⟩ : ∃ s, (if c.hasFacet .union then c₃.setSessionMountDevice
      else c₃.setSessionMountDevice.removeFacet .union).setSessionUnion = .ok s := by
    split
    · exact exists_setSessionUnion hclegible
    · exact exists_setSessionUnion fun f hf => hclegible f (List.mem_of_mem_eraseP hf)
  refine ⟨s, cloneSession_eq_ok_some_iff.mpr ⟨hplain, (hasFacet_iff c _).mpr hclonable, ?_⟩⟩
  rw [hcopy]
  simp only [cloneSessionSetup, bind_eq_ok_iff, mapError_eq_ok_iff]
  refine ⟨_, addFacet_eq_ok_iff.mpr ⟨?_, rfl⟩, _, setName_eq_ok_iff.mpr ⟨hvalid.1, hvalid.2, rfl⟩,
    c₃, ?_, _, hsnapshot, hs⟩
  · rw [facetKinds_removeFacet, facetKinds_removeFacet]
    exact fun hm => hsession (List.mem_of_mem_erase (List.mem_of_mem_erase hm))
  · rw [← h₃, hb]
    rfl

end Steps

section Templates

/-- A facet of the template of a session. -/
def IsFresh : Facet → Prop
  | .personality p => p = .undefined
  | .session s => ∀ kinds, s.parent = some kinds → .source ∉ kinds
  | .union u => u.unionType = "none"
  | .sessionClonable | .sourceClonable _ | .source => False
  | _ => True

/-- **The template of a session** of a type. -/
structure IsTemplate (cfg : SbuildConfig) (kind : ChrootKind) (name : String) (t : Chroot) :
    Prop where
  name : t.name = name
  type : t.kind = kind
  filter : t.environmentFilter = cfg.defaultEnvironmentFilter
  scriptConfig : t.scriptConfig = ""
  data : ∃ u, t.userdata? = some u ∧ u.FromProfile
  nodup : t.facetKinds.Nodup
  kinds : ∀ k, k ∈ t.facetKinds ↔ k = .session ∨
    (k ∈ newFacetKinds cfg kind ∧ k ≠ .sessionClonable ∧ k ≠ .sourceClonable)
  fresh : ∀ f ∈ t.facets, IsFresh f
  length : t.facets.length < facetFuel

variable {cfg : SbuildConfig} {kind : ChrootKind} {c s t : Chroot} {u : Userdata}

/-- With facets of different kinds, every facet is found. -/
theorem getFacet_of_mem
    {f : Facet}
    (hnodup : c.facetKinds.Nodup)
    (hf : f ∈ c.facets) :
    c.getFacet f.kind = some f := by
  obtain ⟨g, hg, -⟩ := exists_getFacet (List.mem_map_of_mem hf : f.kind ∈ c.facetKinds)
  obtain ⟨hmem, hkind⟩ := mem_of_getFacet hg
  rw [hg, List.inj_on_of_nodup_map hnodup hmem hf hkind]

theorem length_newFacetKinds (cfg : SbuildConfig) (kind : ChrootKind) :
    (newFacetKinds cfg kind).length ≤ 5 := by
  cases kind <;> simp [newFacetKinds, extraFacets]

/-- **A session of a new chroot is a template.** -/
theorem isTemplate_cloneSession
    {name sessionId selected user : String} {root : Bool}
    (hnew : newKind kind = kind)
    (hu : u.FromProfile)
    (h : (newChroot cfg kind name u).cloneSession cfg sessionId selected user root =
      .ok (some s)) :
    IsTemplate cfg kind s.name s := by
  have hsession : .session ∉ (newChroot cfg kind name u).facetKinds := by
    rw [facetKinds_newChroot]
    exact session_notMem_newFacetKinds
  obtain ⟨hform, -, hkind⟩ := sessionForm_cloneSession hsession h
  have hkinds := facetKinds_cloneSession h
  rw [facetKinds_newChroot] at hkinds
  have hnodup : s.facetKinds.Nodup := by
    rw [hkinds]
    refine List.Nodup.append ((nodup_newFacetKinds.erase _).erase _) (List.nodup_singleton _) ?_
    rw [List.disjoint_singleton]
    exact fun hm => session_notMem_newFacetKinds (List.mem_of_mem_erase (List.mem_of_mem_erase hm))
  have hmem : ∀ k, k ∈ s.facetKinds ↔ k = .session ∨
      (k ∈ newFacetKinds cfg kind ∧ k ≠ .sessionClonable ∧ k ≠ .sourceClonable) := by
    intro k
    rw [hkinds, List.mem_append, (nodup_newFacetKinds.erase _).mem_erase_iff,
      nodup_newFacetKinds.mem_erase_iff, List.mem_singleton]
    tauto
  have hdata : s.getFacet .userdata = some (.userdata u) :=
    (hform.facets _ (.inr rfl)).trans userdata_newFacets
  refine ⟨rfl, hkind hnew, ?_, ?_, ⟨u, ?_, hu⟩, hnodup, hmem, fun f hf => ?_, ?_⟩
  · exact congrArg Chroot.environmentFilter hform.rest
  · exact congrArg Chroot.scriptConfig hform.rest
  · rw [userdata?, hdata]
  · have hget := getFacet_of_mem hnodup hf
    have hfkind := (hmem f.kind).mp (List.mem_map_of_mem hf)
    cases f with
    | personality p =>
        rw [show Facet.kind (.personality p) = .personality from rfl,
          hform.facets _ (.inl rfl)] at hget
        exact isNew_newFacets _ (mem_of_getFacet hget).1
    | sessionClonable => simp [Facet.kind] at hfkind
    | userdata => exact trivial
    | session z =>
        have hz : s.sessionFacet? = some z := by
          rw [sessionFacet?, show s.getFacet .session = _ from hget]
        rw [hform.session] at hz
        cases hz
        intro kinds hkinds
        cases hkinds
        rw [facetKinds_newChroot]
        cases kind <;> simp [newFacetKinds, extraFacets, newUnion, Facet.kind]
    | sourceClonable => simp [Facet.kind] at hfkind
    | source =>
        rw [show Facet.kind .source = .source from rfl] at hfkind
        revert hfkind
        cases kind <;> simp [newFacetKinds, extraFacets, newUnion, Facet.kind]
    | union v =>
        have hv : s.unionFacet? = some v := by
          rw [unionFacet?, show s.getFacet .union = _ from hget]
        have htype := hform.unionType
        rw [hv] at htype
        obtain ⟨w, hw, hwtype⟩ := Option.map_eq_some_iff.mp htype.symm
        have hwnew : w.unionType = "none" := isNew_newFacets _ (mem_of_unionFacet? hw)
        exact hwtype.symm.trans hwnew
    | mountable => exact trivial
  · have hlength : s.facets.length = s.facetKinds.length := (List.length_map _).symm
    have hle := length_newFacetKinds cfg kind
    have herase := (List.erase_sublist (l := (newFacetKinds cfg kind).erase .sessionClonable)
      (a := .sourceClonable)).length_le
    have herase' := (List.erase_sublist (l := newFacetKinds cfg kind)
      (a := .sessionClonable)).length_le
    rw [hlength, hkinds, List.length_append, List.length_singleton, facetFuel]
    omega

/-- A template starts from a new chroot of its type. -/
theorem construct_of_createTemplate
    {ns : String} {kf : Keyfile} {group : String}
    (h : ChrootConfig.createTemplate cfg ns kf group = .ok t) :
    ∃ kind u, kindOfType ((kf.value? group "type").getD "plain") = some kind ∧
      construct cfg kind = .ok (newChroot cfg kind "" u) ∧ u.FromProfile ∧
      (u.userModifiableKeys = ∅ ∧ u.rootModifiableKeys = ∅) ∧
      (':' ∉ group.toList ∧ isValidSessionname group = true) := by
  simp only [ChrootConfig.createTemplate, bind_eq_ok_iff, mapError_eq_ok_iff] at h
  obtain ⟨a, ha, b, hb, -⟩ := h
  obtain ⟨hcolon, hvalid, -⟩ := setName_eq_ok_iff.mp hb
  unfold create at ha
  split at ha
  · cases ha
  · rename_i kind hkind
    obtain ⟨u, -, hu, hmodifiable, rfl⟩ := construct_eq_ok ha
    exact ⟨kind, u, hkind, ha, hu, hmodifiable, hcolon, hvalid⟩

/-- **The template of a group of the session namespace.** -/
theorem createTemplate_session
    {kf : Keyfile} {group : String}
    (hkind : kindOfType ((kf.value? group "type").getD "plain") = some kind)
    (hplain : ∀ directory, kind ≠ .plain directory)
    (hcreate : construct cfg kind = .ok (newChroot cfg kind "" u))
    (hu : u.FromProfile)
    (hmodifiable : u.userModifiableKeys = ∅ ∧ u.rootModifiableKeys = ∅)
    (hvalid : ':' ∉ group.toList ∧ isValidSessionname group = true) :
    ∃ t, ChrootConfig.createTemplate cfg "session" kf group = .ok t ∧
      IsTemplate cfg kind group t := by
  have hnew := newKind_of_kindOfType hkind
  have hclonable : .sessionClonable ∈ (newChroot cfg kind group u).facetKinds := by
    rw [facetKinds_newChroot]
    cases kind with
    | plain directory => exact absurd rfl (hplain directory)
    | _ => simp [newFacetKinds]
  have hsession : .session ∉ (newChroot cfg kind group u).facetKinds := by
    rw [facetKinds_newChroot]
    exact session_notMem_newFacetKinds
  have hdummy : ':' ∉ "dummy-session-name".toList ∧
      isValidSessionname "dummy-session-name" = true := by decide
  obtain ⟨s, hs⟩ := exists_cloneSession cfg "dummy-session-name" "" false
    (c := newChroot cfg kind group u) hplain hnew hclonable hsession rfl
    (legible_newChroot hmodifiable).facets hdummy
  have htemplate := isTemplate_cloneSession hnew hu hs
  refine ⟨{ s with name := group }, ?_, { htemplate with name := rfl }⟩
  have hcreated : create cfg ((kf.value? group "type").getD "plain") =
      .ok (newChroot cfg kind "" u) := by
    rw [create, hkind]
    exact hcreate
  have hname : setName group (newChroot cfg kind "" u) = .ok (newChroot cfg kind group u) :=
    setName_eq_ok_iff.mpr ⟨hvalid.1, hvalid.2, rfl⟩
  have hrename : setName group s = .ok { s with name := group } :=
    setName_eq_ok_iff.mpr ⟨hvalid.1, hvalid.2, rfl⟩
  have hhas : (newChroot cfg kind group u).hasFacet .sessionClonable = true :=
    (hasFacet_iff _ _).mpr hclonable
  simp only [ChrootConfig.createTemplate, hcreated, hname, hhas, hs, hrename, bind, Except.bind,
    Except.mapError]
  rfl

end Templates

end Chroot

end Schroot
