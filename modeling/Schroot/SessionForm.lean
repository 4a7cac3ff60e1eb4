import Schroot.LoadedChroot
import Schroot.ChrootSessions

/-!
# What a session takes over

A session has the data of the chroot that it is begun from, but for its name, its users, its
mount location and what its type makes of it.  Of the facets only the session facet is new; the
device of a mountable chroot and the directories of a union are those of the session.

**Results.**
* `sessionForm_cloneSession`: what a session has of the chroot that it is begun from.
-/

namespace Schroot

namespace UnionFacet

variable {u u' : UnionFacet} {directory : String}

theorem setOverlayDirectory_eq_ok_iff :
    u.setOverlayDirectory directory = .ok u' ↔
      isAbsname directory = true ∧ u' = { u with overlayDirectory := directory } := by
  unfold setOverlayDirectory
  split
  · rename_i habs
    simp [habs, eq_comm]
  · rename_i habs
    simp [habs]

theorem setUnderlayDirectory_eq_ok_iff :
    u.setUnderlayDirectory directory = .ok u' ↔
      isAbsname directory = true ∧ u' = { u with underlayDirectory := directory } := by
  unfold setUnderlayDirectory
  split
  · rename_i habs
    simp [habs, eq_comm]
  · rename_i habs
    simp [habs]

end UnionFacet

namespace Chroot

section Steps

variable {cfg : SbuildConfig} {a b c c' : Chroot}

/-- A step of setting up a session changes the mount location, the data of the type, the device
and the directories of the union. -/
structure SessionStep (a b : Chroot) : Prop where
  rest : b = { a with mountLocation := b.mountLocation, kind := b.kind, facets := b.facets }
  facetKinds : b.facetKinds = a.facetKinds
  facets : ∀ k, k ≠ .mountable → k ≠ .union → b.getFacet k = a.getFacet k
  unionType : b.unionFacet?.map UnionFacet.unionType = a.unionFacet?.map UnionFacet.unionType
  legible : (∀ f ∈ a.facets, FacetLegible f) → ∀ f ∈ b.facets, FacetLegible f

theorem SessionStep.refl (a : Chroot) : SessionStep a a :=
  ⟨rfl, rfl, fun _ _ _ => rfl, rfl, id⟩

theorem SessionStep.trans
    (hab : SessionStep a b)
    (hbc : SessionStep b c) :
    SessionStep a c := by
  refine ⟨?_, hbc.facetKinds.trans hab.facetKinds,
    fun k hk hk' => (hbc.facets k hk hk').trans (hab.facets k hk hk'),
    hbc.unionType.trans hab.unionType, fun h => hbc.legible (hab.legible h)⟩
  rw [hbc.rest, hab.rest]

/-- Changes of the location and of the type. -/
theorem sessionStep_of_facets
    (hrest : b = { a with mountLocation := b.mountLocation, kind := b.kind })
    (hfacets : b.facets = a.facets) :
    SessionStep a b := by
  refine ⟨?_, ?_, fun k _ _ => ?_, ?_, fun h => hfacets.symm ▸ h⟩
  · rw [hrest]
  · rw [facetKinds, facetKinds, hfacets]
  · rw [getFacet, getFacet, hfacets]
  · rw [unionFacet?, unionFacet?, getFacet, getFacet, hfacets]

theorem sessionStep_setMountDevice (device : String) (c : Chroot) :
    SessionStep c (c.setMountDevice device) := by
  unfold setMountDevice
  split
  · exact SessionStep.refl c
  · rename_i m hm
    refine ⟨rfl, facetKinds_updateFacet _ c,
      fun k hk _ => getFacet_updateFacet (f := .mountable _) hk, ?_, fun h f hf => ?_⟩
    · rw [unionFacet?_eq (getFacet_updateFacet (by simp [Facet.kind]))]
    · rcases TaggedList.mem_replace hf with rfl | hf
      · have hlegible : FacetLegible (.mountable m) := h _ (mem_of_mountable? hm)
        exact hlegible
      · exact h f hf

theorem sessionStep_setSessionMountDevice (c : Chroot) :
    SessionStep c c.setSessionMountDevice := by
  unfold setSessionMountDevice
  split
  · exact sessionStep_setMountDevice _ c
  · exact sessionStep_setMountDevice _ c
  · exact sessionStep_setMountDevice _ c
  · exact SessionStep.refl c

theorem sessionStep_setSessionLocation
    {sessionId : String}
    (h : c.setSessionLocation cfg sessionId = .ok c') :
    SessionStep c c' := by
  unfold setSessionLocation at h
  split at h
  · cases h
    exact SessionStep.refl c
  · split at h
    · unfold setMountLocation at h
      split at h <;> cases h
      exact sessionStep_of_facets rfl rfl
    · cases h
      exact SessionStep.refl c

theorem sessionStep_setSessionSnapshot
    (h : c.setSessionSnapshot = .ok c') :
    SessionStep c c' := by
  have hkind : ∀ kind, SessionStep c { c with kind := kind } :=
    fun _ => sessionStep_of_facets rfl rfl
  unfold setSessionSnapshot at h
  split at h
  · split at h
    · obtain ⟨-, h⟩ := checkAbs_bind_eq_ok_iff.mp h
      cases h
      exact (hkind _).trans (sessionStep_setMountDevice _ _)
    · cases h
      exact SessionStep.refl c
  · split at h
    · obtain ⟨-, h⟩ := checkAbs_bind_eq_ok_iff.mp h
      cases h
      exact hkind _
    · cases h
      exact SessionStep.refl c
  · split at h
    · cases h
      simp only [setZfsCloneName]
      split
      · exact (hkind _).trans (sessionStep_setMountDevice _ _)
      · exact (hkind _).trans (sessionStep_setMountDevice _ _)
    · cases h
      exact SessionStep.refl c
  · cases h
    exact SessionStep.refl c

theorem sessionStep_setSessionUnion
    (h : c.setSessionUnion = .ok c') :
    SessionStep c c' := by
  unfold setSessionUnion at h
  split at h
  · cases h
    exact SessionStep.refl c
  · rename_i u hu
    simp only [bind_eq_ok_iff] at h
    obtain ⟨v, hv, w, hw, h⟩ := h
    cases h
    obtain ⟨hoverlay, rfl⟩ := UnionFacet.setOverlayDirectory_eq_ok_iff.mp hv
    obtain ⟨hunderlay, rfl⟩ := UnionFacet.setUnderlayDirectory_eq_ok_iff.mp hw
    refine ⟨rfl, facetKinds_updateFacet _ c,
      fun k _ hk => getFacet_updateFacet (f := .union _) hk, ?_, fun hall f hf => ?_⟩
    · rw [unionFacet?_updateFacet hu, hu]
      rfl
    · rcases TaggedList.mem_replace hf with rfl | hf
      · have hlegible : FacetLegible (.union u) := hall _ (mem_of_unionFacet? hu)
        exact ⟨hlegible.1, hoverlay, hunderlay⟩
      · exact hall f hf

end Steps

section Types

variable {c c' : Chroot}

/-- What the type of a session writes can be read. -/
def SessionKindLegible : ChrootKind → Prop
  | .plain _ => False
  | .directory directory => isAbsname directory = true
  | .custom _ => True
  | .file f => isAbsname f.file = true ∧ (f.location = "" ∨ isAbsname f.location = true)
  | .blockDevice device => isAbsname device = true
  | .loopback file => isAbsname file = true
  | .lvmSnapshot s => isAbsname s.device = true ∧ isAbsname s.snapshotDevice = true
  | .zfsSnapshot _ => True
  | .btrfsSnapshot s => isAbsname s.snapshotName = true

theorem kind_setSessionMountDevice (c : Chroot) :
    c.setSessionMountDevice.kind = c.kind := by
  unfold setSessionMountDevice
  split
  · exact kind_setMountDevice _ c
  · exact kind_setMountDevice _ c
  · exact kind_setMountDevice _ c
  · rfl

/-- The type of a new chroot names no snapshot. -/
theorem setSessionSnapshot_new
    (hnew : newKind c.kind = c.kind) :
    c.setSessionSnapshot = .ok c := by
  unfold setSessionSnapshot
  split
  · rename_i s hk
    rw [hk] at hnew
    cases hnew
    rfl
  · rename_i s hk
    rw [hk] at hnew
    cases hnew
    rfl
  · rename_i s hk
    rw [hk] at hnew
    cases hnew
    rfl
  · rfl

theorem kind_setSessionSnapshot
    (hnew : newKind c.kind = c.kind)
    (h : c.setSessionSnapshot = .ok c') :
    c'.kind = c.kind := by
  rw [setSessionSnapshot_new hnew] at h
  cases h
  rfl

theorem kind_setSessionLocation
    {cfg : SbuildConfig} {sessionId : String}
    (h : c.setSessionLocation cfg sessionId = .ok c') :
    c'.kind = c.kind := by
  unfold setSessionLocation at h
  split at h
  · cases h
    rfl
  · split at h
    · unfold setMountLocation at h
      split at h <;> cases h
      rfl
    · cases h
      rfl

theorem kind_setSessionUnion
    (h : c.setSessionUnion = .ok c') :
    c'.kind = c.kind := by
  unfold setSessionUnion at h
  split at h
  · cases h
    rfl
  · simp only [bind_eq_ok_iff] at h
    obtain ⟨_, _, _, _, h⟩ := h
    cases h
    rfl

/-- **The names of the snapshot** that a session uses can be read. -/
theorem sessionKindLegible_setSessionSnapshot
    (hlegible : KindLegible c.kind)
    (hplain : ∀ directory, c.kind ≠ .plain directory)
    (h : c.setSessionSnapshot = .ok c') :
    SessionKindLegible c'.kind := by
  unfold setSessionSnapshot at h
  cases hk : c.kind with
  | plain directory => exact absurd hk (hplain directory)
  | lvmSnapshot s =>
      rw [hk] at hlegible
      simp only [hk, if_pos (ne_empty_of_isAbsname hlegible.1)] at h
      obtain ⟨habs, h⟩ := checkAbs_bind_eq_ok_iff.mp h
      cases h
      rw [kind_setMountDevice]
      exact ⟨hlegible.1, habs⟩
  | zfsSnapshot s =>
      simp only [hk] at h
      split at h
      · cases h
        simp only [setZfsCloneName]
        split
        · rw [kind_setMountDevice]
          exact trivial
        · rw [kind_setMountDevice]
          exact trivial
      · cases h
        rw [hk]
        exact trivial
  | btrfsSnapshot s =>
      rw [hk] at hlegible
      simp only [hk, if_pos (ne_empty_of_isAbsname hlegible.2.1)] at h
      obtain ⟨habs, h⟩ := checkAbs_bind_eq_ok_iff.mp h
      cases h
      exact habs
  | file f =>
      simp only [hk] at h
      cases h
      rw [hk] at hlegible ⊢
      exact ⟨hlegible.1, hlegible.2.1⟩
  | directory | custom | blockDevice | loopback =>
      simp only [hk] at h
      cases h
      rw [hk] at hlegible ⊢
      exact hlegible

end Types

section Forms

variable {cfg : SbuildConfig} {c s : Chroot} {sessionId selected user : String} {root : Bool}

/-- **What a session is like** that is begun from a chroot. -/
structure SessionForm (c : Chroot) (sessionId selected : String) (s : Chroot) : Prop where
  name : s.name = sessionId
  valid : ':' ∉ sessionId.toList ∧ isValidSessionname sessionId = true
  rest : s = { c with
    name := s.name
    description := s.description
    users := s.users
    groups := s.groups
    rootUsers := s.rootUsers
    rootGroups := s.rootGroups
    aliases := []
    mountLocation := s.mountLocation
    kind := s.kind
    facets := s.facets }
  facets : ∀ k, k = .personality ∨ k = .userdata → s.getFacet k = c.getFacet k
  session : s.sessionFacet? = some
    { parent := some c.facetKinds
      originalName := c.name
      selectedName := (getNamespace selected).2 }
  unionType : s.unionFacet?.map UnionFacet.unionType = c.unionFacet?.map UnionFacet.unionType
  legible : (∀ f ∈ c.facets, FacetLegible f) → ∀ f ∈ s.facets, FacetLegible f

/-- **A session takes over** the data of the chroot that it is begun from. -/
theorem sessionForm_cloneSession
    (hsession : .session ∉ c.facetKinds)
    (h : c.cloneSession cfg sessionId selected user root = .ok (some s)) :
    SessionForm c sessionId selected s ∧ (KindLegible c.kind → SessionKindLegible s.kind) ∧
      (newKind c.kind = c.kind → s.kind = c.kind) := by
  obtain ⟨hplain, -, hsetup⟩ := cloneSession_eq_ok_some_iff.mp h
  obtain ⟨kind, hcopy, hkindLegible, hkindPlain, hkindNew⟩ :
      ∃ kind, c.copy = { c with kind := kind } ∧ (KindLegible c.kind → KindLegible kind) ∧
        (∀ directory, kind ≠ .plain directory) ∧ (newKind c.kind = c.kind → kind = c.kind) := by
    unfold copy
    split
    · rename_i hk
      refine ⟨.custom false, rfl, fun _ => trivial, ?_, fun hnew => ?_⟩
      · rintro _ ⟨⟩
      · rw [← hnew, hk]
        rfl
    · exact ⟨c.kind, rfl, fun h => h, hplain, fun _ => rfl⟩
  rw [hcopy] at hsetup
  simp only [cloneSessionSetup, bind_eq_ok_iff, mapError_eq_ok_iff] at hsetup
  obtain ⟨c₁, h₁, c₂, h₂, c₃, h₃, c₄, h₄, h₅⟩ := hsetup
  obtain ⟨-, rfl⟩ := addFacet_eq_ok_iff.mp h₁
  obtain ⟨hcolon, hvalid, rfl⟩ := setName_eq_ok_iff.mp h₂
  -- the copy with its session facet
  obtain ⟨facets, hfacets⟩ : ∃ facets, facets =
      TaggedList.remove Facet.kind .sourceClonable
        (TaggedList.remove Facet.kind .sessionClonable c.facets) := ⟨_, rfl⟩
  obtain ⟨session, hsessionFacet⟩ : ∃ session : SessionFacet, session =
      { parent := some c.facetKinds
        originalName := c.name
        selectedName := (getNamespace selected).2 } := ⟨_, rfl⟩
  obtain ⟨b, hb⟩ : ∃ b, b = setSessionUsers user root
      { c with
        name := sessionId
        description := c.description ++ " " ++ "(session chroot)"
        kind := kind
        facets := facets ++ [.session session] } := ⟨_, rfl⟩
  have hlocation : setSessionLocation cfg sessionId b = .ok c₃ := by
    rw [hb, hfacets, hsessionFacet]
    exact h₃
  have hget : ∀ k, k ≠ .sessionClonable → k ≠ .sourceClonable →
      TaggedList.get? Facet.kind k facets = c.getFacet k := by
    intro k hk hk'
    rw [hfacets, TaggedList.get?_remove hk', TaggedList.get?_remove hk]
    rfl
  have hbget : ∀ k, k ≠ .sessionClonable → k ≠ .sourceClonable → k ≠ .session →
      b.getFacet k = c.getFacet k := by
    intro k hk hk' hk''
    rw [getFacet, hb]
    show TaggedList.get? Facet.kind k (facets ++ [.session session]) = _
    rw [TaggedList.get?_append, hget k hk hk']
    simp [TaggedList.get?, Facet.kind, Ne.symm hk'']
  have hbsession : b.getFacet .session = some (.session session) := by
    rw [getFacet, hb]
    show TaggedList.get? Facet.kind .session (facets ++ [.session session]) = _
    rw [TaggedList.get?_append, hget _ (by decide) (by decide), getFacet_none hsession]
    rfl
  have hblegible : (∀ f ∈ c.facets, FacetLegible f) → ∀ f ∈ b.facets, FacetLegible f := by
    intro hall f hf
    rw [hb] at hf
    rcases List.mem_append.mp (show f ∈ facets ++ [.session session] from hf) with hf | hf
    · rw [hfacets] at hf
      exact hall f (List.mem_of_mem_eraseP (List.mem_of_mem_eraseP hf))
    · rw [List.mem_singleton.mp hf]
      exact trivial
  -- what the type makes of it
  have hsnapshot := (sessionStep_setSessionLocation hlocation).trans
    ((sessionStep_setSessionMountDevice c₃).trans (sessionStep_setSessionSnapshot h₄))
  have hstep : SessionStep b s := by
    refine hsnapshot.trans ?_
    by_cases hunion : c.hasFacet .union = true
    · rw [if_pos hunion] at h₅
      exact sessionStep_setSessionUnion h₅
    · have hno : .union ∉ c₄.facetKinds := by
        rw [hsnapshot.facetKinds]
        intro hmem
        obtain ⟨f, hf, -⟩ := exists_getFacet hmem
        rw [hbget _ (by decide) (by decide) (by decide),
          getFacet_none fun hm => hunion ((hasFacet_iff c _).mpr hm)] at hf
        cases hf
      have hsame : c₄.removeFacet .union = c₄ := by
        refine congrArg c₄.withFacets (List.eraseP_of_forall_not fun f hf => ?_)
        simpa using fun hk : f.kind = .union => hno (hk ▸ List.mem_map_of_mem hf)
      rw [if_neg hunion, hsame] at h₅
      exact sessionStep_setSessionUnion h₅
  have hkind : s.kind = c₄.kind := by
    split at h₅
    · exact kind_setSessionUnion h₅
    · exact (kind_setSessionUnion h₅).trans rfl
  have hc₃ : c₃.setSessionMountDevice.kind = kind := by
    rw [kind_setSessionMountDevice, kind_setSessionLocation hlocation, hb]
    rfl
  refine ⟨⟨?_, ⟨hcolon, hvalid⟩, ?_, fun k hk => ?_, ?_, ?_,
    fun hall => hstep.legible (hblegible hall)⟩, fun hlegible => ?_, fun hnew => ?_⟩
  · rw [hstep.rest, hb]
    rfl
  · have hrest := hstep.rest
    rw [hb] at hrest
    have hname : s.name = sessionId := congrArg Chroot.name hrest
    have hdescription : s.description = c.description ++ " " ++ "(session chroot)" :=
      congrArg Chroot.description hrest
    have husers := congrArg Chroot.users hrest
    have hgroups := congrArg Chroot.groups hrest
    have hrootUsers := congrArg Chroot.rootUsers hrest
    have hrootGroups := congrArg Chroot.rootGroups hrest
    refine hrest.trans ?_
    rw [hname, hdescription, husers, hgroups, hrootUsers, hrootGroups]
    rfl
  · rw [hstep.facets k (by rcases hk with rfl | rfl <;> decide)
      (by rcases hk with rfl | rfl <;> decide)]
    rcases hk with rfl | rfl
    · exact hbget _ (by decide) (by decide) (by decide)
    · exact hbget _ (by decide) (by decide) (by decide)
  · rw [sessionFacet?, hstep.facets _ (by decide) (by decide), hbsession, hsessionFacet]
  · rw [hstep.unionType, unionFacet?_eq (hbget .union (by decide) (by decide) (by decide))]
  · rw [hkind]
    exact sessionKindLegible_setSessionSnapshot (hc₃ ▸ hkindLegible hlegible) (hc₃ ▸ hkindPlain) h₄
  · rw [hkind, kind_setSessionSnapshot (by rw [hc₃, hkindNew hnew, hnew]) h₄, hc₃, hkindNew hnew]

end Forms

end Chroot

end Schroot
