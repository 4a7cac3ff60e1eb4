import Schroot.ChrootReading

/-!
# What reading facets can change

`FacetStep` says what reading one key of a facet can do.  Only the union type changes
which facets there are, and it only adds or removes the source-clonable facet
(`KindsFrame`).
-/

namespace Schroot

namespace Chroot

section FacetData

/-- **What reading one key of a facet can do**: nothing, or a change of the data of
that facet.  The union type is not among these keys. -/
inductive FacetStep (kf : Keyfile) (c : Chroot) : String → Chroot → Prop
  | skip (key : String) : FacetStep kf c key c
  | personality (p : Personality) :
      FacetStep kf c "personality" (c.updateFacet (.personality p))
  | userModifiableKeys {u : Userdata} {v : String}
      (hu : c.userdata? = some u)
      (hv : kf.value? c.name "user-modifiable-keys" = some v) :
      FacetStep kf c "user-modifiable-keys" (c.updateFacet
        (.userdata { u with
          userModifiableKeys := Std.ExtTreeSet.ofList (splitString v ",") }))
  | rootModifiableKeys {u : Userdata} {v : String}
      (hu : c.userdata? = some u)
      (hv : kf.value? c.name "root-modifiable-keys" = some v) :
      FacetStep kf c "root-modifiable-keys" (c.updateFacet
        (.userdata { u with
          rootModifiableKeys := Std.ExtTreeSet.ofList (splitString v ",") }))
  | originalName {s : SessionFacet} {v : String}
      (hs : c.sessionFacet? = some s)
      (hv : kf.value? c.name "original-name" = some v) :
      FacetStep kf c "original-name" (c.updateFacet (.session (s.setOriginalName v)))
  | selectedName {s : SessionFacet} {v : String}
      (hs : c.sessionFacet? = some s)
      (hv : kf.value? c.name "selected-name" = some v) :
      FacetStep kf c "selected-name" (c.updateFacet (.session (s.setSelectedName v)))
  | sourceClone {s : SourceClonable} {b : Bool}
      (hs : c.sourceClonable? = some s) :
      FacetStep kf c "source-clone"
        (c.updateFacet (.sourceClonable { s with sourceClone := b }))
  | sourceUsers {s : SourceClonable} {v : String}
      (hs : c.sourceClonable? = some s)
      (hv : kf.value? c.name "source-users" = some v) :
      FacetStep kf c "source-users"
        (c.updateFacet (.sourceClonable { s with sourceUsers := splitString v "," }))
  | sourceGroups {s : SourceClonable} {v : String}
      (hs : c.sourceClonable? = some s)
      (hv : kf.value? c.name "source-groups" = some v) :
      FacetStep kf c "source-groups"
        (c.updateFacet (.sourceClonable { s with sourceGroups := splitString v "," }))
  | sourceRootUsers {s : SourceClonable} {v : String}
      (hs : c.sourceClonable? = some s)
      (hv : kf.value? c.name "source-root-users" = some v) :
      FacetStep kf c "source-root-users"
        (c.updateFacet (.sourceClonable { s with sourceRootUsers := splitString v "," }))
  | sourceRootGroups {s : SourceClonable} {v : String}
      (hs : c.sourceClonable? = some s)
      (hv : kf.value? c.name "source-root-groups" = some v) :
      FacetStep kf c "source-root-groups"
        (c.updateFacet (.sourceClonable { s with sourceRootGroups := splitString v "," }))
  | unionMountOptions {u : UnionFacet} {v : String}
      (hu : c.unionFacet? = some u)
      (hv : kf.value? c.name "union-mount-options" = some v) :
      FacetStep kf c "union-mount-options"
        (c.updateFacet (.union { u with mountOptions := v }))
  | unionOverlayDirectory {u : UnionFacet} {v : String}
      (hu : c.unionFacet? = some u)
      (hv : kf.value? c.name "union-overlay-directory" = some v)
      (habs : isAbsname v = true) :
      FacetStep kf c "union-overlay-directory"
        (c.updateFacet (.union { u with overlayDirectory := v }))
  | unionUnderlayDirectory {u : UnionFacet} {v : String}
      (hu : c.unionFacet? = some u)
      (hv : kf.value? c.name "union-underlay-directory" = some v)
      (habs : isAbsname v = true) :
      FacetStep kf c "union-underlay-directory"
        (c.updateFacet (.union { u with underlayDirectory := v }))
  | mountDevice {m : Mountable} {v : String}
      (hm : c.mountable? = some m)
      (hv : kf.value? c.name "mount-device" = some v) :
      FacetStep kf c "mount-device"
        (c.updateFacet (.mountable { m with mountDevice := v }))
  | mountOptions {m : Mountable} {v : String}
      (hm : c.mountable? = some m)
      (hv : kf.value? c.name "mount-options" = some v) :
      FacetStep kf c "mount-options"
        (c.updateFacet (.mountable { m with mountOptions := v }))
  | location {m : Mountable} {v : String}
      (hm : c.mountable? = some m)
      (hv : kf.value? c.name "location" = some v)
      (hok : v = "" ∨ isAbsname v = true) :
      FacetStep kf c "location"
        (c.updateFacet (.mountable { m with location := v }))

/-- The keys of all facets, without the union type. -/
def plainFacetKeys (session needed : Bool) : List (KeySpec Chroot) :=
  personalityKeys ++ userdataKeys ++ sessionKeys ++ sourceClonableKeys ++
    unionKeys needed ++ mountableKeys session

variable {kf : Keyfile} {c c' : Chroot}

theorem checkLocation_eq_ok_iff {location result : String} :
    checkLocation location = .ok result ↔
      result = location ∧ (location = "" ∨ isAbsname location = true) := by
  unfold checkLocation
  by_cases h : location = ""
  · simp only [h, ne_eq, not_true_eq_false, false_and, if_false, true_or, and_true,
      Except.ok.injEq]
    exact eq_comm
  · cases habs : isAbsname location
    · simp [h]
    · simp only [Bool.true_eq_false, and_false, if_false, or_true, and_true, Except.ok.injEq]
      exact eq_comm

theorem withSession_cases
    {α : Type} {f : α → SessionFacet → SessionFacet} {v : α}
    (h : pureSetter (fun v => withSession (f v)) v c = .ok c') :
    c' = c ∨ ∃ s, c.sessionFacet? = some s ∧ c' = c.updateFacet (.session (f v s)) := by
  have hc : withSession (f v) c = c' := Except.ok.inj h
  subst hc
  unfold withSession
  cases hs : c.sessionFacet? with
  | none => exact .inl rfl
  | some s => exact .inr ⟨s, rfl, rfl⟩

theorem withUserdata_cases
    {α : Type} {f : α → Userdata → Userdata} {v : α}
    (h : pureSetter (fun v => withUserdata (f v)) v c = .ok c') :
    c' = c ∨ ∃ s, c.userdata? = some s ∧ c' = c.updateFacet (.userdata (f v s)) := by
  have hc : withUserdata (f v) c = c' := Except.ok.inj h
  subst hc
  unfold withUserdata
  cases hs : c.userdata? with
  | none => exact .inl rfl
  | some s => exact .inr ⟨s, rfl, rfl⟩

theorem withSourceClonable_cases
    {α : Type} {f : α → SourceClonable → SourceClonable} {v : α}
    (h : pureSetter (fun v => withSourceClonable (f v)) v c = .ok c') :
    c' = c ∨ ∃ s, c.sourceClonable? = some s ∧ c' = c.updateFacet (.sourceClonable (f v s)) := by
  have hc : withSourceClonable (f v) c = c' := Except.ok.inj h
  subst hc
  unfold withSourceClonable
  cases hs : c.sourceClonable? with
  | none => exact .inl rfl
  | some s => exact .inr ⟨s, rfl, rfl⟩

theorem withUnion_cases
    {f : UnionFacet → Except UnionError UnionFacet}
    (h : withUnion f c = .ok c') :
    c' = c ∨ ∃ u u', c.unionFacet? = some u ∧ f u = .ok u' ∧ c' = c.updateFacet (.union u') := by
  unfold withUnion at h
  cases hu : c.unionFacet? with
  | none =>
      simp only [hu, Except.ok.injEq] at h
      exact .inl h.symm
  | some u =>
      simp only [hu] at h
      rw [mapError_eq_ok_iff] at h
      cases hf : f u with
      | error e => simp [hf, Except.map] at h
      | ok u' =>
          simp only [hf, Except.map, Except.ok.injEq] at h
          exact .inr ⟨u, u', rfl, hf, h.symm⟩

theorem withMountable_cases
    {f : Mountable → Except ChrootError Mountable}
    (h : withMountable f c = .ok c') :
    c' = c ∨ ∃ m m', c.mountable? = some m ∧ f m = .ok m' ∧
      c' = c.updateFacet (.mountable m') := by
  unfold withMountable at h
  cases hm : c.mountable? with
  | none =>
      simp only [hm, Except.ok.injEq] at h
      exact .inl h.symm
  | some m =>
      simp only [hm] at h
      rw [mapError_eq_ok_iff] at h
      cases hf : f m with
      | error e => simp [hf, Except.map] at h
      | ok m' =>
          simp only [hf, Except.map, Except.ok.injEq] at h
          exact .inr ⟨m, m', rfl, hf, h.symm⟩

theorem facetStep_of_personalityKeys
    {spec : KeySpec Chroot}
    (hspec : spec ∈ personalityKeys)
    (h : spec.get kf c.name c = .ok c') :
    FacetStep kf c spec.key c' := by
  simp only [personalityKeys, List.mem_singleton] at hspec
  subst hspec
  rcases (KeySpec.get_eq_ok_iff _ kf c.name c c').mp h with
    ⟨_, _, rfl⟩ | ⟨act, ⟨v, hv, hact⟩, _, hset⟩
  · exact .skip _
  · simp only [readPersonality] at hact
    split at hact
    · cases hact
    · rename_i name _
      cases hp : Personality.setName name with
      | error e => simp [hp, Except.mapError, Except.map] at hact
      | ok p =>
          simp only [hp, Except.mapError, Except.map, Function.comp_apply, Except.ok.injEq,
            Option.some.injEq] at hact
          subst hact
          cases hset
          exact .personality p

theorem facetStep_of_userdataKeys
    {spec : KeySpec Chroot}
    (hspec : spec ∈ userdataKeys)
    (h : spec.get kf c.name c = .ok c') :
    FacetStep kf c spec.key c' := by
  simp only [userdataKeys, List.mem_cons, List.not_mem_nil, or_false] at hspec
  rcases hspec with rfl | rfl
  · rcases (KeySpec.get_eq_ok_iff _ kf c.name c c').mp h with
      ⟨_, _, rfl⟩ | ⟨act, ⟨v, hv, hact⟩, _, hset⟩
    · exact .skip _
    · cases hact
      rcases withUserdata_cases hset with rfl | ⟨u, hu, rfl⟩
      · exact .skip _
      · exact .userModifiableKeys hu hv
  · rcases (KeySpec.get_eq_ok_iff _ kf c.name c c').mp h with
      ⟨_, _, rfl⟩ | ⟨act, ⟨v, hv, hact⟩, _, hset⟩
    · exact .skip _
    · cases hact
      rcases withUserdata_cases hset with rfl | ⟨u, hu, rfl⟩
      · exact .skip _
      · exact .rootModifiableKeys hu hv

theorem facetStep_of_sessionKeys
    {spec : KeySpec Chroot}
    (hspec : spec ∈ sessionKeys)
    (h : spec.get kf c.name c = .ok c') :
    FacetStep kf c spec.key c' := by
  have hobsolete : ∀ key, (obsoleteListKey key).get kf c.name c = .ok c' →
      FacetStep kf c key c' := by
    intro key hget
    rcases get_readList rfl hget with rfl | ⟨_, _, _, hset⟩
    · exact .skip key
    · cases hset
      exact .skip key
  simp only [sessionKeys, List.mem_cons, List.not_mem_nil, or_false] at hspec
  rcases hspec with rfl | rfl | rfl | rfl | rfl | rfl | rfl
  · rcases get_readBool rfl h with rfl | ⟨_, _, _, _, _, hset⟩
    · exact .skip _
    · cases hset
      exact .skip _
  · exact hobsolete _ h
  · exact hobsolete _ h
  · exact hobsolete _ h
  · exact hobsolete _ h
  · rcases get_readString rfl h with rfl | ⟨v, _, hv, hset⟩
    · exact .skip _
    · rcases withSession_cases hset with rfl | ⟨s, hs, rfl⟩
      · exact .skip _
      · exact .originalName hs hv
  · rcases get_readString rfl h with rfl | ⟨v, _, hv, hset⟩
    · exact .skip _
    · rcases withSession_cases hset with rfl | ⟨s, hs, rfl⟩
      · exact .skip _
      · exact .selectedName hs hv

theorem facetStep_of_sourceClonableKeys
    {spec : KeySpec Chroot}
    (hspec : spec ∈ sourceClonableKeys)
    (h : spec.get kf c.name c = .ok c') :
    FacetStep kf c spec.key c' := by
  simp only [sourceClonableKeys, List.mem_cons, List.not_mem_nil, or_false] at hspec
  rcases hspec with rfl | rfl | rfl | rfl | rfl
  · rcases get_readBool rfl h with rfl | ⟨_, b, _, _, _, hset⟩
    · exact .skip _
    · rcases withSourceClonable_cases hset with rfl | ⟨s, hs, rfl⟩
      · exact .skip _
      · exact .sourceClone hs
  · rcases get_readList rfl h with rfl | ⟨v, _, hv, hset⟩
    · exact .skip _
    · rcases withSourceClonable_cases hset with rfl | ⟨s, hs, rfl⟩
      · exact .skip _
      · exact .sourceUsers hs hv
  · rcases get_readList rfl h with rfl | ⟨v, _, hv, hset⟩
    · exact .skip _
    · rcases withSourceClonable_cases hset with rfl | ⟨s, hs, rfl⟩
      · exact .skip _
      · exact .sourceGroups hs hv
  · rcases get_readList rfl h with rfl | ⟨v, _, hv, hset⟩
    · exact .skip _
    · rcases withSourceClonable_cases hset with rfl | ⟨s, hs, rfl⟩
      · exact .skip _
      · exact .sourceRootUsers hs hv
  · rcases get_readList rfl h with rfl | ⟨v, _, hv, hset⟩
    · exact .skip _
    · rcases withSourceClonable_cases hset with rfl | ⟨s, hs, rfl⟩
      · exact .skip _
      · exact .sourceRootGroups hs hv

theorem facetStep_of_unionKeys
    {needed : Bool} {spec : KeySpec Chroot}
    (hspec : spec ∈ unionKeys needed)
    (h : spec.get kf c.name c = .ok c') :
    FacetStep kf c spec.key c' := by
  simp only [unionKeys, List.mem_cons, List.not_mem_nil, or_false] at hspec
  rcases hspec with rfl | rfl | rfl
  · rcases get_readString rfl h with rfl | ⟨v, _, hv, hset⟩
    · exact .skip _
    · rcases withUnion_cases hset with rfl | ⟨u, u', hu, hf, rfl⟩
      · exact .skip _
      · cases hf
        exact .unionMountOptions hu hv
  · rcases get_readString rfl h with rfl | ⟨v, _, hv, hset⟩
    · exact .skip _
    · rcases withUnion_cases hset with rfl | ⟨u, u', hu, hf, rfl⟩
      · exact .skip _
      · unfold UnionFacet.setOverlayDirectory at hf
        split at hf <;> cases hf
        exact .unionOverlayDirectory hu hv ‹_›
  · rcases get_readString rfl h with rfl | ⟨v, _, hv, hset⟩
    · exact .skip _
    · rcases withUnion_cases hset with rfl | ⟨u, u', hu, hf, rfl⟩
      · exact .skip _
      · unfold UnionFacet.setUnderlayDirectory at hf
        split at hf <;> cases hf
        exact .unionUnderlayDirectory hu hv ‹_›

theorem facetStep_of_mountableKeys
    {session : Bool} {spec : KeySpec Chroot}
    (hspec : spec ∈ mountableKeys session)
    (h : spec.get kf c.name c = .ok c') :
    FacetStep kf c spec.key c' := by
  simp only [mountableKeys, List.mem_cons, List.not_mem_nil, or_false] at hspec
  rcases hspec with rfl | rfl | rfl
  · rcases get_readString rfl h with rfl | ⟨v, _, hv, hset⟩
    · exact .skip _
    · rcases withMountable_cases hset with rfl | ⟨m, m', hm, hf, rfl⟩
      · exact .skip _
      · cases hf
        exact .mountDevice hm hv
  · rcases get_readString rfl h with rfl | ⟨v, _, hv, hset⟩
    · exact .skip _
    · rcases withMountable_cases hset with rfl | ⟨m, m', hm, hf, rfl⟩
      · exact .skip _
      · cases hf
        exact .mountOptions hm hv
  · rcases get_readString rfl h with rfl | ⟨v, _, hv, hset⟩
    · exact .skip _
    · rcases withMountable_cases hset with rfl | ⟨m, m', hm, hf, rfl⟩
      · exact .skip _
      · cases hl : checkLocation v with
        | error e => simp [hl, bind, Except.bind] at hf
        | ok location =>
            obtain ⟨rfl, hok⟩ := checkLocation_eq_ok_iff.mp hl
            simp only [hl, bind, Except.bind, pure, Except.pure, Except.ok.injEq] at hf
            subst hf
            exact .location hm hv hok

theorem facetStep_of_get
    {session needed : Bool} {spec : KeySpec Chroot}
    (hspec : spec ∈ plainFacetKeys session needed)
    (h : spec.get kf c.name c = .ok c') :
    FacetStep kf c spec.key c' := by
  simp only [plainFacetKeys, List.mem_append] at hspec
  rcases hspec with ((((hs | hs) | hs) | hs) | hs) | hs
  · exact facetStep_of_personalityKeys hs h
  · exact facetStep_of_userdataKeys hs h
  · exact facetStep_of_sessionKeys hs h
  · exact facetStep_of_sourceClonableKeys hs h
  · exact facetStep_of_unionKeys hs h
  · exact facetStep_of_mountableKeys hs h

/-- Only the facets change, and their kinds do not. -/
structure FacetFrame (c c' : Chroot) : Prop where
  rest : c' = { c with facets := c'.facets }
  facetKinds : c'.facetKinds = c.facetKinds

theorem FacetFrame.refl (c : Chroot) : FacetFrame c c := ⟨rfl, rfl⟩

theorem FacetFrame.trans
    {a b c : Chroot}
    (hab : FacetFrame a b)
    (hbc : FacetFrame b c) :
    FacetFrame a c := by
  refine ⟨?_, hbc.facetKinds.trans hab.facetKinds⟩
  have h := hbc.rest
  rw [hab.rest] at h
  exact h

theorem facetFrame_updateFacet (f : Facet) (c : Chroot) : FacetFrame c (c.updateFacet f) :=
  ⟨rfl, facetKinds_updateFacet f c⟩

theorem FacetStep.facetFrame
    {key : String}
    (h : FacetStep kf c key c') :
    FacetFrame c c' := by
  cases h with
  | skip => exact FacetFrame.refl c
  | _ => exact facetFrame_updateFacet _ c

theorem facetFrame_of_readKeys
    (session needed : Bool)
    {specs : List (KeySpec Chroot)}
    (hsub : ∀ spec ∈ specs, spec ∈ plainFacetKeys session needed)
    (h : readKeys kf specs c = .ok c') :
    FacetFrame c c' :=
  readKeys_keeps FacetFrame.refl (fun _ _ _ => FacetFrame.trans)
    (fun spec hs _ _ hget => (facetStep_of_get (hsub spec hs) hget).facetFrame) h

end FacetData

section FacetKinds

variable {kf : Keyfile} {c c' : Chroot}

/-- Only the facets change, and at most the source-clonable one comes or goes. -/
structure KindsFrame (c c' : Chroot) : Prop where
  rest : c' = { c with facets := c'.facets }
  nodup : c.facetKinds.Nodup → c'.facetKinds.Nodup
  mem : ∀ k, k ≠ .sourceClonable → (k ∈ c'.facetKinds ↔ k ∈ c.facetKinds)

theorem KindsFrame.refl (c : Chroot) : KindsFrame c c :=
  ⟨rfl, id, fun _ _ => Iff.rfl⟩

theorem KindsFrame.trans
    {a b c : Chroot}
    (hab : KindsFrame a b)
    (hbc : KindsFrame b c) :
    KindsFrame a c := by
  refine ⟨?_, fun h => hbc.nodup (hab.nodup h),
    fun k hk => (hbc.mem k hk).trans (hab.mem k hk)⟩
  have h := hbc.rest
  rw [hab.rest] at h
  exact h

theorem FacetFrame.kindsFrame (h : FacetFrame c c') : KindsFrame c c' :=
  ⟨h.rest, fun hn => h.facetKinds ▸ hn, fun k _ => by rw [h.facetKinds]⟩

theorem KindsFrame.name (h : KindsFrame c c') : c'.name = c.name := by
  rw [h.rest]

theorem facetKinds_removeFacet (kind : FacetKind) (c : Chroot) :
    (c.removeFacet kind).facetKinds = c.facetKinds.erase kind :=
  TaggedList.tags_remove kind c.facets

theorem mem_facetKinds_removeFacet
    {kind k : FacetKind}
    (hk : k ≠ kind) :
    k ∈ (c.removeFacet kind).facetKinds ↔ k ∈ c.facetKinds := by
  rw [facetKinds_removeFacet]
  exact List.mem_erase_of_ne hk

theorem kindsFrame_removeSourceClonable (c : Chroot) :
    KindsFrame c (c.removeFacet .sourceClonable) :=
  ⟨rfl, fun h => TaggedList.nodup_remove h _, fun _ hk => mem_facetKinds_removeFacet hk⟩

theorem addFacet_eq_ok_iff {f : Facet} :
    c.addFacet f = .ok c' ↔
      f.kind ∉ c.facetKinds ∧ c' = { c with facets := c.facets ++ [f] } := by
  have hkinds : TaggedList.has Facet.kind f.kind c.facets = true ↔ f.kind ∈ c.facetKinds :=
    TaggedList.has_iff_mem_tags
  unfold addFacet TaggedList.add
  by_cases h : f.kind ∈ c.facetKinds
  · simp [hkinds.mpr h, h]
  · have hfree : TaggedList.has Facet.kind f.kind c.facets = false :=
      Bool.eq_false_iff.mpr fun e => h (hkinds.mp e)
    simp [hfree, h, eq_comm]

theorem facetKinds_append (c : Chroot) (f : Facet) :
    ({ c with facets := c.facets ++ [f] } : Chroot).facetKinds = c.facetKinds ++ [f.kind] :=
  TaggedList.tags_append Facet.kind c.facets f

theorem nodup_facetKinds_append
    {f : Facet}
    (h : c.facetKinds.Nodup)
    (hf : f.kind ∉ c.facetKinds) :
    (c.facetKinds ++ [f.kind]).Nodup :=
  List.Nodup.append h (List.nodup_singleton _) (by simpa using hf)

/-- **What setting the union type can do.** -/
theorem setUnionType_cases
    {type : String}
    (h : setUnionType type c = .ok c') :
    (c.unionFacet? = none ∧ c' = c) ∨
    ∃ u, c.unionFacet? = some u ∧ UnionFacet.isKnownType type = true ∧
      ((type = "none" ∧
          c' = (c.updateFacet (.union { u with unionType := type })).removeFacet
            .sourceClonable) ∨
        (type ≠ "none" ∧ c.hasFacet .sourceClonable = true ∧
          c' = c.updateFacet (.union { u with unionType := type })) ∨
        (type ≠ "none" ∧ c.hasFacet .sourceClonable = false ∧
          c' = { c with facets :=
            (c.updateFacet (.union { u with unionType := type })).facets ++
              [.sourceClonable {}] })) := by
  unfold setUnionType at h
  cases hu : c.unionFacet? with
  | none =>
      simp only [hu, Except.ok.injEq] at h
      exact .inl ⟨rfl, h.symm⟩
  | some u =>
      refine .inr ⟨u, rfl, ?_⟩
      simp only [hu] at h
      split at h
      · rename_i hknown
        refine ⟨hknown, ?_⟩
        have hhas : (c.updateFacet (.union { u with unionType := type })).hasFacet
            .sourceClonable = c.hasFacet .sourceClonable :=
          hasFacet_eq_of_facetKinds (facetKinds_updateFacet _ c) _
        split at h
        · rename_i htype
          split at h
          · rename_i hso
            cases h
            exact .inr (.inl ⟨htype, hhas ▸ hso, rfl⟩)
          · rename_i hso
            rw [mapError_eq_ok_iff] at h
            obtain ⟨_, rfl⟩ := addFacet_eq_ok_iff.mp h
            exact .inr (.inr ⟨htype, by simpa [hhas] using hso, rfl⟩)
        · rename_i htype
          cases h
          exact .inl ⟨by simpa using htype, rfl⟩
      · cases h

theorem kindsFrame_setUnionType
    {type : String}
    (h : setUnionType type c = .ok c') :
    KindsFrame c c' := by
  rcases setUnionType_cases h with
    ⟨_, rfl⟩ | ⟨u, _, _, ⟨_, rfl⟩ | ⟨_, _, rfl⟩ | ⟨_, hso, rfl⟩⟩
  · exact KindsFrame.refl c'
  · exact (facetFrame_updateFacet _ c).kindsFrame.trans (kindsFrame_removeSourceClonable _)
  · exact (facetFrame_updateFacet _ c).kindsFrame
  · have hnot : FacetKind.sourceClonable ∉ c.facetKinds := fun hm => by
      simp [(hasFacet_iff c .sourceClonable).mpr hm] at hso
    have hkinds := facetKinds_append
      (c.updateFacet (.union { u with unionType := type })) (.sourceClonable {})
    rw [facetKinds_updateFacet] at hkinds
    refine ⟨rfl, fun hn => ?_, fun k hk => ?_⟩
    · exact hkinds ▸ nodup_facetKinds_append hn hnot
    · have : k ∈ c.facetKinds ++ [FacetKind.sourceClonable] ↔ k ∈ c.facetKinds := by
        simp [hk]
      exact hkinds ▸ this

/-- After the union type, reading the union facet changes data only. -/
theorem setUnionKeyfile_cases
    {more : List String}
    (h : setUnionKeyfile kf c = .ok (c', more)) :
    FacetFrame c c' ∨
      ∃ type d, kf.value? c.name "union-type" = some type ∧
        setUnionType type c = .ok d ∧ FacetFrame d c' := by
  simp only [setUnionKeyfile, bind_eq_ok_iff] at h
  obtain ⟨d, hd, e, he, g, hg, h⟩ := h
  cases h
  have hde : FacetFrame d e := by
    refine facetFrame_of_readKeys false false (fun spec hs => ?_) he
    split at hs
    · simp [plainFacetKeys, hs]
    · cases hs
  have hsub : ∀ needed, ∀ spec ∈ unionKeys needed, spec ∈ plainFacetKeys false needed := by
    intro needed spec hs
    simp [plainFacetKeys, hs]
  have heg : FacetFrame e c' := facetFrame_of_readKeys false _ (hsub _) hg
  have hrest : FacetFrame d c' := hde.trans heg
  obtain ⟨d', hget, hd'⟩ := readKeys_cons_eq_ok_iff.mp hd
  cases hd'
  rcases get_readString rfl hget with rfl | ⟨type, _, hv, hset⟩
  · exact .inl hrest
  · exact .inr ⟨type, d, hv, hset, hrest⟩

/-- Reading any other facet changes data only. -/
theorem facetFrame_setFacetKeyfile
    {kind : FacetKind} {more : List String}
    (hkind : kind ≠ .union)
    (h : setFacetKeyfile kf kind c = .ok (c', more)) :
    FacetFrame c c' := by
  have htable : ∀ session specs,
      (∀ spec ∈ specs, spec ∈ plainFacetKeys session false) →
        (readKeys kf specs c).map (fun d => (d, specs.map KeySpec.used)) = .ok (c', more) →
          FacetFrame c c' := by
    intro session specs hsub hread
    obtain ⟨d, hd, he⟩ := map_eq_ok_iff.mp hread
    cases he
    exact facetFrame_of_readKeys session false hsub hd
  cases kind with
  | union => exact absurd rfl hkind
  | personality => exact htable false _ (fun _ hs => by simp [plainFacetKeys, hs]) h
  | userdata => exact htable false _ (fun _ hs => by simp [plainFacetKeys, hs]) h
  | session => exact htable false _ (fun _ hs => by simp [plainFacetKeys, hs]) h
  | sourceClonable => exact htable false _ (fun _ hs => by simp [plainFacetKeys, hs]) h
  | mountable => exact htable c.isSession _ (fun _ hs => by simp [plainFacetKeys, hs]) h
  | sessionClonable => exact htable false [] (by simp) h
  | source => exact htable false [] (by simp) h

theorem kindsFrame_setFacetKeyfile
    {kind : FacetKind} {more : List String}
    (h : setFacetKeyfile kf kind c = .ok (c', more)) :
    KindsFrame c c' := by
  by_cases hkind : kind = .union
  · subst hkind
    rcases setUnionKeyfile_cases h with hframe | ⟨_, _, _, hset, hframe⟩
    · exact hframe.kindsFrame
    · exact (kindsFrame_setUnionType hset).trans hframe.kindsFrame
  · exact (facetFrame_setFacetKeyfile hkind h).kindsFrame

theorem facetFrame_setUnusedKeys
    (kf : Keyfile) (keys : List String) (c : Chroot) :
    FacetFrame c (keys.foldl (setUnusedKey kf) c) := by
  induction keys generalizing c with
  | nil => exact FacetFrame.refl c
  | cons key keys ih =>
      have hstep : FacetFrame c (setUnusedKey kf c key) := by
        unfold setUnusedKey
        split
        · split
          · exact facetFrame_updateFacet _ c
          · exact FacetFrame.refl c
        · exact FacetFrame.refl c
      exact hstep.trans (ih (setUnusedKey kf c key))

end FacetKinds

end Chroot

end Schroot
