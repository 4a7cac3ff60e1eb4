import Schroot.TypeReading

/-!
# Which facets a chroot can have

Chroots come from `create`, are read from keyfiles, copied, and cloned as sessions and
source chroots (`Reachable`).  No kind of facet occurs twice, a session is neither
session-clonable nor source-clonable, and a source chroot has neither the
source-clonable nor the union facet (`FacetInvariant`).

The one step that does not keep this is reading a session with the union facet from a
keyfile that names a union type: `setUnionType` makes the session source-clonable.

**Results.**
* `facetKinds_create`: the facets of a new chroot.
* `facetInvariant_setKeyfile`: the step lemma for reading.
* `facetInvariant_of_reachable`: the invariant in every run without that step.
-/

namespace Schroot

namespace Chroot

section Invariant

/-- The exclusions between facets. -/
structure FacetInvariant (c : Chroot) : Prop where
  nodup : c.facetKinds.Nodup
  session : .session ∈ c.facetKinds →
    .sessionClonable ∉ c.facetKinds ∧ .sourceClonable ∉ c.facetKinds
  source : .source ∈ c.facetKinds →
    .sourceClonable ∉ c.facetKinds ∧ .union ∉ c.facetKinds

theorem FacetInvariant.of_facetKinds
    {c c' : Chroot}
    (h : c'.facetKinds = c.facetKinds)
    (hc : FacetInvariant c) :
    FacetInvariant c' := by
  constructor
  · rw [h]
    exact hc.nodup
  · rw [h]
    exact hc.session
  · rw [h]
    exact hc.source

end Invariant

section Creation

variable {cfg : SbuildConfig} {c c' : Chroot}

/-- Adding facets one by one appends their kinds. -/
theorem facetKinds_addFacets
    {fs : List Facet}
    (h : fs.foldlM (fun c f => addFacet f c) c = .ok c') :
    c'.facetKinds = c.facetKinds ++ fs.map Facet.kind ∧ c'.kind = c.kind := by
  induction fs generalizing c with
  | nil =>
      cases h
      simp
  | cons f fs ih =>
      rw [List.foldlM_cons] at h
      cases hadd : c.addFacet f with
      | error e => simp [hadd, bind, Except.bind] at h
      | ok d =>
          simp only [hadd, bind, Except.bind] at h
          obtain ⟨hkinds, hkind⟩ := ih h
          obtain ⟨_, rfl⟩ := addFacet_eq_ok_iff.mp hadd
          rw [hkinds, hkind, facetKinds_append]
          simp

/-- The kinds of the facets of a new chroot. -/
def newFacetKinds (cfg : SbuildConfig) (kind : ChrootKind) : List FacetKind :=
  match kind with
  | .plain _ => [.personality, .userdata]
  | kind => [.personality, .sessionClonable, .userdata] ++ (extraFacets cfg kind).map Facet.kind

theorem facetKinds_baseChroot
    {kind : ChrootKind}
    (h : baseChroot cfg kind = .ok c) :
    c.facetKinds = [.personality, .sessionClonable, .userdata] := by
  simp only [baseChroot, bind_eq_ok_iff, mapError_eq_ok_iff] at h
  obtain ⟨c₁, h₁, c₂, h₂, c₃, h₃, h⟩ := h
  obtain ⟨_, rfl⟩ := addFacet_eq_ok_iff.mp h₁
  obtain ⟨_, rfl⟩ := addFacet_eq_ok_iff.mp h₂
  obtain ⟨_, rfl⟩ := addFacet_eq_ok_iff.mp h₃
  rw [(frame_setProfile h).facetKinds]
  rfl

/-- **The facets of a new chroot.** -/
theorem facetKinds_construct
    {kind : ChrootKind}
    (h : construct cfg kind = .ok c) :
    c.facetKinds = newFacetKinds cfg kind := by
  simp only [construct, bind_eq_ok_iff, mapError_eq_ok_iff] at h
  obtain ⟨b, hbase, d, hadd, h⟩ := h
  have hd := (facetKinds_addFacets hadd).1
  rw [facetKinds_baseChroot hbase] at hd
  cases kind with
  | plain directory =>
      cases h
      have hd' : d.facetKinds = [.personality, .sessionClonable, .userdata] := hd
      rw [facetKinds_removeFacet]
      exact congrArg (List.erase · .sessionClonable) hd'
  | _ =>
      cases h
      exact hd

theorem facetKinds_create
    {type : String}
    (h : create cfg type = .ok c) :
    ∃ kind, kindOfType type = some kind ∧ c.facetKinds = newFacetKinds cfg kind := by
  unfold create at h
  split at h
  · cases h
  · exact ⟨_, ‹_›, facetKinds_construct h⟩

theorem facetInvariant_create
    {type : String}
    (h : create cfg type = .ok c) :
    FacetInvariant c := by
  obtain ⟨kind, -, hkinds⟩ := facetKinds_create h
  have hall : (newFacetKinds cfg kind).Nodup ∧ .session ∉ newFacetKinds cfg kind ∧
      .source ∉ newFacetKinds cfg kind := by
    cases kind <;> refine ⟨?_, ?_, ?_⟩ <;>
      simp [newFacetKinds, extraFacets, newUnion, Facet.kind]
  constructor
  · rw [hkinds]
    exact hall.1
  · intro hs
    exact absurd (hkinds ▸ hs) hall.2.1
  · intro hs
    exact absurd (hkinds ▸ hs) hall.2.2

end Creation

section Reading

variable {cfg : SbuildConfig} {kf : Keyfile} {c c' : Chroot}

/-- What the keys of a type do to the facets: a chroot that is no session may become
session-clonable or source-clonable, or stop being so. -/
structure TypeFrame (c c' : Chroot) : Prop where
  name : c'.name = c.name
  typeName : c'.kind.typeName = c.kind.typeName
  nodup : c.facetKinds.Nodup → c'.facetKinds.Nodup
  mem : ∀ k, k ≠ .sessionClonable → k ≠ .sourceClonable →
    (k ∈ c'.facetKinds ↔ k ∈ c.facetKinds)
  session : .session ∈ c.facetKinds → c'.facetKinds = c.facetKinds

theorem Frame.typeFrame (h : Frame c c') : TypeFrame c c' :=
  ⟨h.name, h.typeName, fun hn => h.facetKinds ▸ hn, fun k _ _ => by rw [h.facetKinds],
    fun _ => h.facetKinds⟩

theorem TypeFrame.trans
    {a b c : Chroot}
    (hab : TypeFrame a b)
    (hbc : TypeFrame b c) :
    TypeFrame a c := by
  refine ⟨hbc.name.trans hab.name, hbc.typeName.trans hab.typeName,
    fun h => hbc.nodup (hab.nodup h),
    fun k h₁ h₂ => (hbc.mem k h₁ h₂).trans (hab.mem k h₁ h₂), fun h => ?_⟩
  have hb : FacetKind.session ∈ b.facetKinds := by rwa [hab.session h]
  rw [hbc.session hb, hab.session h]

theorem TypeFrame.isSession (h : TypeFrame c c') : c'.isSession = c.isSession := by
  have hmem := h.mem .session (by decide) (by decide)
  rw [← hasFacet_iff, ← hasFacet_iff] at hmem
  exact Bool.eq_iff_iff.mpr hmem

theorem isSession_iff : c.isSession = true ↔ .session ∈ c.facetKinds :=
  hasFacet_iff c .session

theorem nodup_facetKinds_removeFacet
    (h : c.facetKinds.Nodup)
    (kind : FacetKind) :
    (c.removeFacet kind).facetKinds.Nodup :=
  TaggedList.nodup_remove h kind

/-- Adding or removing one of the two facets of custom chroots. -/
theorem typeFrame_setCloneable
    {f : Facet} {b : Bool}
    (hsession : c.isSession = false)
    (hkind : f.kind = .sessionClonable ∨ f.kind = .sourceClonable)
    (h : (if b then c.addFacet f else .ok (c.removeFacet f.kind)) = .ok c') :
    TypeFrame c c' := by
  have hnot : FacetKind.session ∉ c.facetKinds := fun hm => by
    simp [isSession_iff.mpr hm] at hsession
  have hne : ∀ k, k ≠ .sessionClonable → k ≠ .sourceClonable → k ≠ f.kind := by
    intro k h₁ h₂ he
    rcases hkind with hf | hf
    · exact h₁ (he.trans hf)
    · exact h₂ (he.trans hf)
  cases b with
  | true =>
      obtain ⟨hfree, rfl⟩ := addFacet_eq_ok_iff.mp h
      refine ⟨rfl, rfl, fun hn => ?_, fun k h₁ h₂ => ?_, fun hs => absurd hs hnot⟩
      · rw [facetKinds_append]
        exact nodup_facetKinds_append hn hfree
      · simp [facetKinds_append, hne k h₁ h₂]
  | false =>
      cases h
      exact ⟨rfl, rfl, fun hn => nodup_facetKinds_removeFacet hn _,
        fun k h₁ h₂ => mem_facetKinds_removeFacet (hne k h₁ h₂), fun hs => absurd hs hnot⟩

/-- Sessions refuse the two keys that change the facets of custom chroots. -/
theorem TypeStep.typeFrame
    {c₀ : Chroot} {key : String}
    (htype : c.kind.typeName = c₀.kind.typeName)
    (hsession : c.isSession = c₀.isSession)
    (h : TypeStep kf c₀ c key c') :
    TypeFrame c c' := by
  cases h with
  | skip => exact (Frame.refl c).typeFrame
  | kind hstep => exact (frame_setKind (hstep.typeName htype)).typeFrame
  | snapshotDevice hk _ hset =>
      exact (frame_setLvmSnapshotDevice (by simp [hk, ChrootKind.typeName]) hset).typeFrame
  | cloneName hk _ =>
      exact (frame_setZfsCloneName (by simp [hk, ChrootKind.typeName])).typeFrame
  | switch hs hf hset =>
      refine typeFrame_setCloneable (hsession.trans hs) ?_ hset
      rcases hf with rfl | rfl
      · exact .inl rfl
      · exact .inr rfl

/-- What the keys of a type do together, as the chroot stays of its type and a session or
none. -/
theorem typeFrame_typeKeys
    (h : readKeys kf (typeKeys kf c) c = .ok c') :
    TypeFrame c c' := by
  have hframe : c.kind.typeName = c.kind.typeName → c.isSession = c.isSession →
      TypeFrame c c' :=
    readKeys_keeps
      (R := fun x y => x.kind.typeName = c.kind.typeName → x.isSession = c.isSession →
        TypeFrame x y)
      (fun x _ _ => (Frame.refl x).typeFrame)
      (fun x y z hxy hyz ht hs => by
        have hx := hxy ht hs
        exact hx.trans (hyz (hx.typeName.trans ht) (hx.isSession.trans hs)))
      (fun spec hspec x y hget ht hs => (typeStep_of_get hspec hget).typeFrame ht hs) h
  exact hframe rfl rfl

/-- The name under which a chroot looks for its group once the base class is read. -/
def groupName (kf : Keyfile) (c : Chroot) : String :=
  if c.isSession then (kf.value? c.name "name").getD c.name else c.name

/-- **What reading the base class and the type does to the facets.** -/
theorem typeFrame_setTypeKeyfile
    {used : List String}
    (h : setTypeKeyfile cfg kf c = .ok (c', used)) :
    c'.name = groupName kf c ∧ (c.facetKinds.Nodup → c'.facetKinds.Nodup) ∧
      (∀ k, k ≠ .sessionClonable → k ≠ .sourceClonable →
        (k ∈ c'.facetKinds ↔ k ∈ c.facetKinds)) ∧
      (.session ∈ c.facetKinds → c'.facetKinds = c.facetKinds) := by
  simp only [setTypeKeyfile, bind_eq_ok_iff] at h
  obtain ⟨d, hbase, _, _, e, htype, h⟩ := h
  cases h
  obtain ⟨hkinds, -, hname⟩ := readKeys_baseKeys_frame hbase
  have hdc := typeFrame_typeKeys htype
  refine ⟨hdc.name.trans hname, fun hn => hdc.nodup (hkinds ▸ hn), fun k h₁ h₂ => ?_,
    fun hs => ?_⟩
  · rw [hdc.mem k h₁ h₂, hkinds]
  · rw [hdc.session (hkinds ▸ hs), hkinds]

/-- The keyfile names no union type for a session that has the union facet. -/
def KeepsUnion (kf : Keyfile) (c : Chroot) : Prop :=
  c.isSession = true → c.hasFacet .union = true →
    ∀ type, kf.value? (groupName kf c) "union-type" = some type →
      UnionFacet.isKnownType type = true → type = "none"

/-- The same for a chroot that has its final name. -/
def NamesNoUnion (kf : Keyfile) (c : Chroot) : Prop :=
  .union ∈ c.facetKinds → ∀ type, kf.value? c.name "union-type" = some type →
    UnionFacet.isKnownType type = true → type = "none"

theorem NamesNoUnion.of_kindsFrame
    (hframe : KindsFrame c c')
    (h : NamesNoUnion kf c) :
    NamesNoUnion kf c' := by
  intro hu type hv
  rw [hframe.name] at hv
  exact h ((hframe.mem .union (by decide)).mp hu) type hv

theorem mem_facetKinds_of_unionFacet?
    {u : UnionFacet}
    (h : c.unionFacet? = some u) :
    .union ∈ c.facetKinds := by
  rw [← hasFacet_iff]
  show TaggedList.has Facet.kind .union c.facets = true
  rw [TaggedList.has_eq_isSome_get?]
  unfold unionFacet? getFacet at h
  split at h
  · simp [*]
  · cases h

/-- Reading a facet makes a chroot source-clonable only through a union type. -/
theorem sourceClonable_notMem_setFacetKeyfile
    {kind : FacetKind} {more : List String}
    (hunion : NamesNoUnion kf c)
    (hfree : .sourceClonable ∉ c.facetKinds)
    (h : setFacetKeyfile kf kind c = .ok (c', more)) :
    .sourceClonable ∉ c'.facetKinds := by
  by_cases hkind : kind = .union
  · subst hkind
    rcases setUnionKeyfile_cases h with hframe | ⟨type, d, hv, hset, hframe⟩
    · rwa [hframe.facetKinds]
    · rw [hframe.facetKinds]
      rcases setUnionType_cases hset with
        ⟨_, rfl⟩ | ⟨u, hu, hknown, ⟨_, rfl⟩ | ⟨hne, _, _⟩ | ⟨hne, _, _⟩⟩
      · exact hfree
      · rw [facetKinds_removeFacet, facetKinds_updateFacet]
        exact fun hm => hfree (List.mem_of_mem_erase hm)
      · exact absurd (hunion (mem_facetKinds_of_unionFacet? hu) type hv hknown) hne
      · exact absurd (hunion (mem_facetKinds_of_unionFacet? hu) type hv hknown) hne
  · rwa [(facetFrame_setFacetKeyfile hkind h).facetKinds]

/-- The loop over the facets, with the same condition. -/
theorem setFacetsKeyfile_frame
    {n : Nat} {rest : List Facet} {used used' : List String}
    (h : setFacetsKeyfile kf n rest c used = .ok (c', used')) :
    KindsFrame c c' ∧
      (NamesNoUnion kf c → .sourceClonable ∉ c.facetKinds → .sourceClonable ∉ c'.facetKinds) :=
  setFacetsKeyfile_keeps
    (R := fun x y => KindsFrame x y ∧
      (NamesNoUnion kf x → .sourceClonable ∉ x.facetKinds → .sourceClonable ∉ y.facetKinds))
    (fun x => ⟨KindsFrame.refl x, fun _ hx => hx⟩)
    (fun _ _ _ hxy hyz => ⟨hxy.1.trans hyz.1, fun hu hx =>
      hyz.2 (hu.of_kindsFrame hxy.1) (hxy.2 hu hx)⟩)
    (fun _ _ _ _ hstep => ⟨kindsFrame_setFacetKeyfile hstep, fun hu hx =>
      sourceClonable_notMem_setFacetKeyfile hu hx hstep⟩) h

/-- Reading adds and removes only the two facets that can be cloned. -/
theorem mem_facetKinds_setKeyfile
    (h : c.setKeyfile cfg kf = .ok c')
    (k : FacetKind)
    (hk : k ≠ .sessionClonable)
    (hk' : k ≠ .sourceClonable) :
    k ∈ c'.facetKinds ↔ k ∈ c.facetKinds := by
  simp only [setKeyfile, bind_eq_ok_iff] at h
  obtain ⟨⟨d, used⟩, htype, ⟨e, used'⟩, hfacets, h⟩ := h
  cases h
  rw [(facetFrame_setUnusedKeys kf _ e).facetKinds,
    (setFacetsKeyfile_frame hfacets).1.mem k hk',
    (typeFrame_setTypeKeyfile htype).2.2.1 k hk hk']

/-- **Reading keeps the invariant**, unless a session reads a union type. -/
theorem facetInvariant_setKeyfile
    (hc : FacetInvariant c)
    (hsource : c.hasFacet .source = false)
    (hunion : KeepsUnion kf c)
    (h : c.setKeyfile cfg kf = .ok c') :
    FacetInvariant c' := by
  simp only [setKeyfile, bind_eq_ok_iff] at h
  obtain ⟨⟨d, used⟩, htype, ⟨e, used'⟩, hfacets, h⟩ := h
  cases h
  obtain ⟨hname, hnodup, hmem, hsession⟩ := typeFrame_setTypeKeyfile htype
  obtain ⟨hkinds, hclonable⟩ := setFacetsKeyfile_frame hfacets
  have hrest := facetFrame_setUnusedKeys kf
    ((kf.getKeys e.name).filter (fun key => !used'.contains key)) e
  refine FacetInvariant.of_facetKinds hrest.facetKinds ?_
  have hsessione : FacetKind.session ∈ e.facetKinds ↔ .session ∈ c.facetKinds :=
    (hkinds.mem .session (by decide)).trans (hmem .session (by decide) (by decide))
  have hsourcee : FacetKind.source ∉ e.facetKinds := by
    rw [hkinds.mem .source (by decide), hmem .source (by decide) (by decide),
      ← hasFacet_iff, hsource]
    exact Bool.false_ne_true
  refine ⟨hkinds.nodup (hnodup hc.nodup), fun hs => ?_, fun hs => absurd hs hsourcee⟩
  have hsc := hsessione.mp hs
  have hd := hsession hsc
  obtain ⟨h₁, h₂⟩ := hc.session hsc
  refine ⟨?_, hclonable ?_ (hd ▸ h₂)⟩
  · rw [hkinds.mem .sessionClonable (by decide), hd]
    exact h₁
  · intro hu type hv
    rw [hname] at hv
    rw [hd] at hu
    exact hunion (isSession_iff.mpr hsc) ((hasFacet_iff c .union).mpr hu) type hv

end Reading

section Cloning

variable {cfg : SbuildConfig} {c c' : Chroot}

theorem facetKinds_copy (c : Chroot) : c.copy.facetKinds = c.facetKinds := by
  unfold copy
  split <;> rfl

theorem facetKinds_setSessionMountDevice (c : Chroot) :
    c.setSessionMountDevice.facetKinds = c.facetKinds := by
  unfold setSessionMountDevice
  split
  · exact (frame_setMountDevice _ c).facetKinds
  · exact (frame_setMountDevice _ c).facetKinds
  · exact (frame_setMountDevice _ c).facetKinds
  · rfl

theorem facetKinds_setSessionSnapshot
    (h : c.setSessionSnapshot = .ok c') :
    c'.facetKinds = c.facetKinds := by
  unfold setSessionSnapshot at h
  split at h
  · rename_i s hk
    split at h
    · exact (frame_setLvmSnapshotDevice (by simp [hk, ChrootKind.typeName]) h).facetKinds
    · cases h
      rfl
  · split at h
    · obtain ⟨_, h⟩ := checkAbs_bind_eq_ok_iff.mp h
      cases h
      rfl
    · cases h
      rfl
  · split at h
    · cases h
      exact (frame_setZfsCloneName rfl).facetKinds
    · cases h
      rfl
  · cases h
    rfl

theorem facetKinds_setSessionUnion
    (h : c.setSessionUnion = .ok c') :
    c'.facetKinds = c.facetKinds := by
  unfold setSessionUnion at h
  split at h
  · cases h
    rfl
  · simp only [bind_eq_ok_iff] at h
    obtain ⟨u, _, u', _, h⟩ := h
    cases h
    exact facetKinds_updateFacet _ c

theorem facetKinds_setSessionLocation
    {sessionId : String}
    (h : c.setSessionLocation cfg sessionId = .ok c') :
    c'.facetKinds = c.facetKinds := by
  unfold setSessionLocation at h
  split at h
  · cases h
    rfl
  · split at h
    · exact (frame_setMountLocation h).facetKinds
    · cases h
      rfl

/-- **The facets of a session**: those of its parent without the clonable ones, and the
session facet at the end. -/
theorem facetKinds_cloneSession
    {sessionId selected user : String} {root : Bool}
    (h : c.cloneSession cfg sessionId selected user root = .ok (some c')) :
    c'.facetKinds =
      (c.facetKinds.erase .sessionClonable).erase .sourceClonable ++ [.session] := by
  have hsetup : cloneSessionSetup cfg c sessionId selected user root c.copy = .ok c' := by
    unfold cloneSession at h
    split at h
    · cases h
    · split at h
      · obtain ⟨d, hd, he⟩ := map_eq_ok_iff.mp h
        cases he
        exact hd
      · cases h
  simp only [cloneSessionSetup, bind_eq_ok_iff, mapError_eq_ok_iff] at hsetup
  obtain ⟨c₁, h₁, c₂, h₂, c₃, h₃, c₄, h₄, h₅⟩ := hsetup
  obtain ⟨_, rfl⟩ := addFacet_eq_ok_iff.mp h₁
  obtain ⟨_, _, rfl⟩ := setName_eq_ok_iff.mp h₂
  have k₃ := facetKinds_setSessionLocation h₃
  have k₄ := facetKinds_setSessionSnapshot h₄
  have k₅ := facetKinds_setSessionUnion h₅
  have k₂ : c₄.facetKinds =
      (c.facetKinds.erase .sessionClonable).erase .sourceClonable ++ [.session] := by
    rw [k₄, facetKinds_setSessionMountDevice, k₃]
    refine (facetKinds_append _ _).trans ?_
    rw [facetKinds_removeFacet, facetKinds_removeFacet, facetKinds_copy]
    rfl
  rw [k₅]
  split
  · exact k₂
  · rename_i hunion
    have hfree : FacetKind.union ∉ c.facetKinds := by rwa [← hasFacet_iff]
    rw [facetKinds_removeFacet, k₂]
    refine List.erase_of_not_mem fun hm => ?_
    rcases List.mem_append.mp hm with hm | hm
    · exact hfree (List.mem_of_mem_erase (List.mem_of_mem_erase hm))
    · cases List.mem_singleton.mp hm

theorem facetInvariant_cloneSession
    {sessionId selected user : String} {root : Bool}
    (hc : FacetInvariant c)
    (h : c.cloneSession cfg sessionId selected user root = .ok (some c')) :
    FacetInvariant c' := by
  have hkinds := facetKinds_cloneSession h
  have hn₁ : (c.facetKinds.erase .sessionClonable).Nodup := hc.nodup.erase _
  have hmem : ∀ k, k ≠ .session → (k ∈ c'.facetKinds ↔
      k ≠ .sourceClonable ∧ k ≠ .sessionClonable ∧ k ∈ c.facetKinds) := by
    intro k hk
    rw [hkinds, List.mem_append, hn₁.mem_erase_iff, hc.nodup.mem_erase_iff]
    simp [hk]
  have hsession : FacetKind.session ∉ c.facetKinds := by
    intro hs
    unfold cloneSession at h
    split at h
    · cases h
    · split at h
      · rename_i hclonable
        exact (hc.session hs).1 ((hasFacet_iff c _).mp hclonable)
      · cases h
  refine ⟨?_, fun _ => ?_, fun hs => ?_⟩
  · rw [hkinds]
    refine List.Nodup.append (hn₁.erase _) (List.nodup_singleton _) ?_
    simp only [List.disjoint_singleton]
    exact fun hm => hsession (List.mem_of_mem_erase (List.mem_of_mem_erase hm))
  · rw [hmem _ (by decide), hmem _ (by decide)]
    simp
  · obtain ⟨-, -, hsource⟩ := (hmem _ (by decide)).mp hs
    obtain ⟨h₁, h₂⟩ := hc.source hsource
    rw [hmem _ (by decide), hmem _ (by decide)]
    exact ⟨fun e => h₁ e.2.2, fun e => h₂ e.2.2⟩

theorem facetKinds_ensureUnion
    (h : c.ensureUnion cfg = .ok c') :
    c'.facetKinds.erase .union = c.facetKinds.erase .union ∧
      (c.facetKinds.Nodup → c'.facetKinds.Nodup) := by
  unfold ensureUnion at h
  split at h
  · cases h
    exact ⟨rfl, id⟩
  · obtain ⟨hfree, rfl⟩ := addFacet_eq_ok_iff.mp h
    have hfree' : FacetKind.union ∉ c.facetKinds := hfree
    rw [facetKinds_append]
    refine ⟨?_, fun hn => nodup_facetKinds_append hn hfree⟩
    rw [List.erase_append_right _ hfree', List.erase_of_not_mem hfree']
    simp [newUnion, Facet.kind]

theorem facetKinds_sourceCopy
    (h : c.sourceCopy cfg = .ok c') :
    c'.facetKinds.erase .union = c.facetKinds.erase .union ∧
      (c.facetKinds.Nodup → c'.facetKinds.Nodup) := by
  unfold sourceCopy at h
  split at h
  · have hkinds := facetKinds_ensureUnion h
    exact hkinds
  · simp only [directoryOfBtrfs, bind_eq_ok_iff] at h
    obtain ⟨d, hd, _, _, h⟩ := h
    cases h
    have hkinds := facetKinds_ensureUnion hd
    exact hkinds
  · cases h
    rw [facetKinds_copy]
    exact ⟨rfl, id⟩

theorem facetKinds_cloneSourceSetup
    {s : SourceClonable}
    (h : cloneSourceSetup s c = .ok c') :
    .source ∉ (c.facetKinds.erase .union).erase .sourceClonable ∧
      c'.facetKinds = (c.facetKinds.erase .union).erase .sourceClonable ++ [.source] := by
  simp only [cloneSourceSetup, bind_eq_ok_iff] at h
  obtain ⟨d, hd, h⟩ := h
  have hkinds := (frame_setAliases hd).facetKinds
  obtain ⟨hfree, rfl⟩ := addFacet_eq_ok_iff.mp h
  rw [facetKinds_append]
  simp only [facetKinds_removeFacet] at hfree ⊢
  rw [hkinds] at hfree ⊢
  exact ⟨hfree, rfl⟩

/-- **The facets of a source chroot**: those of its parent without the union and the
source-clonable one, and the source facet at the end. -/
theorem facetKinds_cloneSource
    (h : c.cloneSource cfg = .ok (some c')) :
    .source ∉ (c.facetKinds.erase .union).erase .sourceClonable ∧
      c'.facetKinds = (c.facetKinds.erase .union).erase .sourceClonable ++ [.source] := by
  unfold cloneSource at h
  split at h
  · cases h
  · cases h
  · simp only [bind_eq_ok_iff] at h
    obtain ⟨d, hd, e, he, h⟩ := h
    have hkinds : c'.facetKinds = e.facetKinds := by
      split at h <;> cases h <;> rfl
    obtain ⟨hfree, hsetup⟩ := facetKinds_cloneSourceSetup he
    rw [(facetKinds_sourceCopy hd).1] at hfree hsetup
    exact ⟨hfree, hkinds.trans hsetup⟩

theorem facetInvariant_cloneSource
    (hc : FacetInvariant c)
    (h : c.cloneSource cfg = .ok (some c')) :
    FacetInvariant c' := by
  obtain ⟨hfree, hkinds⟩ := facetKinds_cloneSource h
  have hn₁ : (c.facetKinds.erase .union).Nodup := hc.nodup.erase _
  have hmem : ∀ k, k ≠ .source → (k ∈ c'.facetKinds ↔
      k ≠ .sourceClonable ∧ k ≠ .union ∧ k ∈ c.facetKinds) := by
    intro k hk
    rw [hkinds, List.mem_append, hn₁.mem_erase_iff, hc.nodup.mem_erase_iff]
    simp [hk]
  refine ⟨?_, fun hs => ?_, fun _ => ?_⟩
  · rw [hkinds]
    refine List.Nodup.append (hn₁.erase _) (List.nodup_singleton _) ?_
    simpa using hfree
  · obtain ⟨-, -, hsession⟩ := (hmem _ (by decide)).mp hs
    obtain ⟨h₁, h₂⟩ := hc.session hsession
    rw [hmem _ (by decide), hmem _ (by decide)]
    exact ⟨fun e => h₁ e.2.2, fun e => h₂ e.2.2⟩
  · rw [hmem _ (by decide), hmem _ (by decide)]
    simp

end Cloning

section Runs

/-- **The chroots of a run**: they are created and named, read from keyfiles, copied, and
cloned as sessions and source chroots.  Source chroots are never read from a keyfile.
`ok` is a condition on the keyfiles that chroots are read from. -/
inductive Reachable (cfg : SbuildConfig) (ok : Keyfile → Chroot → Prop) : Chroot → Prop
  | create {type : String} {c : Chroot}
      (h : create cfg type = .ok c) :
      Reachable cfg ok c
  | setName {name : String} {c c' : Chroot}
      (hc : Reachable cfg ok c)
      (h : c.setName name = .ok c') :
      Reachable cfg ok c'
  | setKeyfile {kf : Keyfile} {c c' : Chroot}
      (hc : Reachable cfg ok c)
      (hsource : c.hasFacet .source = false)
      (hok : ok kf c)
      (h : c.setKeyfile cfg kf = .ok c') :
      Reachable cfg ok c'
  | copy {c : Chroot}
      (hc : Reachable cfg ok c) :
      Reachable cfg ok c.copy
  | cloneSession {sessionId selected user : String} {root : Bool} {c c' : Chroot}
      (hc : Reachable cfg ok c)
      (h : c.cloneSession cfg sessionId selected user root = .ok (some c')) :
      Reachable cfg ok c'
  | cloneSource {c c' : Chroot}
      (hc : Reachable cfg ok c)
      (h : c.cloneSource cfg = .ok (some c')) :
      Reachable cfg ok c'

/-- **In every run in which no session reads a union type, the exclusions hold.** -/
theorem facetInvariant_of_reachable
    {cfg : SbuildConfig} {c : Chroot}
    (h : Reachable cfg KeepsUnion c) :
    FacetInvariant c := by
  induction h with
  | create h => exact facetInvariant_create h
  | setName _ h ih =>
      obtain ⟨_, _, rfl⟩ := setName_eq_ok_iff.mp h
      exact ⟨ih.nodup, ih.session, ih.source⟩
  | setKeyfile _ hsource hok h ih => exact facetInvariant_setKeyfile ih hsource hok h
  | copy _ ih => exact ih.of_facetKinds (facetKinds_copy _)
  | cloneSession _ h ih => exact facetInvariant_cloneSession ih h
  | cloneSource _ h ih => exact facetInvariant_cloneSource ih h

/-- The template of a group is reachable, and has no source facet. -/
theorem reachable_createTemplate
    {cfg : SbuildConfig} {ok : Keyfile → Chroot → Prop}
    {ns group : String} {kf : Keyfile} {c : Chroot}
    (h : ChrootConfig.createTemplate cfg ns kf group = .ok c) :
    Reachable cfg ok c ∧ c.hasFacet .source = false := by
  have hsource : ∀ {type a}, create cfg type = .ok a → .source ∉ a.facetKinds := by
    intro type a ha hs
    obtain ⟨kind, -, hkinds⟩ := facetKinds_create ha
    rw [hkinds] at hs
    cases kind <;> simp [newFacetKinds, extraFacets, newUnion, Facet.kind] at hs
  have hfalse : ∀ {a : Chroot}, FacetKind.source ∉ a.facetKinds → a.hasFacet .source = false :=
    fun ha => Bool.eq_false_iff.mpr fun e => ha ((hasFacet_iff _ _).mp e)
  simp only [ChrootConfig.createTemplate, bind_eq_ok_iff, mapError_eq_ok_iff] at h
  obtain ⟨a, ha, b, hb, h⟩ := h
  have hrb : Reachable cfg ok b := .setName (.create ha) hb
  have hkb : b.facetKinds = a.facetKinds := by
    obtain ⟨_, _, rfl⟩ := setName_eq_ok_iff.mp hb
    rfl
  have hsb : FacetKind.source ∉ b.facetKinds := hkb ▸ hsource ha
  split at h
  · obtain ⟨session, hsession, h⟩ := bind_eq_ok_iff.mp h
    cases session with
    | none =>
        cases h
        exact ⟨hrb, hfalse hsb⟩
    | some d =>
        rw [mapError_eq_ok_iff] at h
        refine ⟨.setName (.cloneSession hrb hsession) h, hfalse ?_⟩
        obtain ⟨_, _, rfl⟩ := setName_eq_ok_iff.mp h
        show FacetKind.source ∉ d.facetKinds
        rw [facetKinds_cloneSession hsession]
        refine fun hm => ?_
        rcases List.mem_append.mp hm with hm | hm
        · exact hsb (List.mem_of_mem_erase (List.mem_of_mem_erase hm))
        · cases List.mem_singleton.mp hm
  · cases h
    exact ⟨hrb, hfalse hsb⟩

/-- What `loadKeyfile` reads from a group is reachable. -/
theorem reachable_loadChroot
    {cfg : SbuildConfig} {ok : Keyfile → Chroot → Prop}
    {ns group : String} {kf : Keyfile} {c : Chroot}
    (hok : ∀ c₀, ChrootConfig.createTemplate cfg ns kf group = .ok c₀ → ok kf c₀)
    (h : ChrootConfig.loadChroot cfg ns kf group = .ok c) :
    Reachable cfg ok c := by
  simp only [ChrootConfig.loadChroot, bind_eq_ok_iff, mapError_eq_ok_iff] at h
  obtain ⟨c₀, hc₀, h⟩ := h
  obtain ⟨hreach, hsource⟩ := reachable_createTemplate hc₀
  exact .setKeyfile hreach hsource (hok c₀ hc₀) h

/-- A session of a directory chroot as its session file has it. -/
def directorySession : Keyfile :=
  ((Keyfile.empty.setValue "s" "type" "directory").setValue "s" "directory" "/srv").setValue
    "s" "mount-location" "/mnt"

/-- The same session with a union. -/
def unionSession : Keyfile :=
  ((directorySession.setValue "s" "union-type" "aufs").setValue
    "s" "union-overlay-directory" "/o").setValue "s" "union-underlay-directory" "/u"

/-- Some session is loaded from the session file without a union, and has the exclusions. -/
theorem facetInvariant_directorySession :
    ∃ c, ChrootConfig.loadChroot .standard "session" directorySession "s" = .ok c ∧
      c.isSession = true ∧ FacetInvariant c := by
  have hload : okAnd (ChrootConfig.loadChroot .standard "session" directorySession "s")
      isSession = true := by decide +kernel
  obtain ⟨c, hc, hsession⟩ := okAnd_eq_true_iff.mp hload
  have hok : ∀ c₀, KeepsUnion directorySession c₀ := by
    intro c₀ _ _ type hv
    simp [directorySession, Keyfile.value?_setValue] at hv
  exact ⟨c, hc, hsession,
    facetInvariant_of_reachable (reachable_loadChroot (fun c₀ _ => hok c₀) hc)⟩

/-- **Without the condition the exclusions fail**: the session with a union is loaded as
a session that is source-clonable. -/
theorem not_facetInvariant_unionSession :
    ∃ c, ChrootConfig.loadChroot .standard "session" unionSession "s" = .ok c ∧
      Reachable .standard (fun _ _ => True) c ∧ ¬ FacetInvariant c := by
  have hload : okAnd (ChrootConfig.loadChroot .standard "session" unionSession "s")
      (fun c => c.hasFacet .session && c.hasFacet .sourceClonable) = true := by decide +kernel
  obtain ⟨c, hc, hboth⟩ := okAnd_eq_true_iff.mp hload
  obtain ⟨hsession, hclonable⟩ := Bool.and_eq_true_iff.mp hboth
  refine ⟨c, hc, reachable_loadChroot (fun _ _ => trivial) hc, fun hinv => ?_⟩
  exact (hinv.session ((hasFacet_iff c _).mp hsession)).2 ((hasFacet_iff c _).mp hclonable)

end Runs

end Chroot

end Schroot
