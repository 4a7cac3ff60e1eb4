import Schroot.ReadingBack

/-!
# Reading the facets that a chroot has written

The facets of a new chroot are read one after the other, and a union adds a facet to read.  What
is in front of the facet that is read has been put back, what is behind it is as it was.

**Results.**
* `setFacetKeyfile_new`: one facet is put back.
* `setFacetsKeyfile_new`: all of them are.
-/

namespace Schroot

namespace Chroot

section Focus

variable {f g : Facet} {before : List Facet}

/-- The chroot with other facets. -/
def withFacets (x : Chroot) (facets : List Facet) : Chroot :=
  { x with facets := facets }

@[simp] theorem withFacets_name (x : Chroot) (facets : List Facet) :
    (x.withFacets facets).name = x.name := rfl

theorem getFacet_focus
    (x : Chroot) (f : Facet) (after : List Facet)
    (h : ∀ g ∈ before, g.kind ≠ f.kind) :
    (x.withFacets (before ++ f :: after)).getFacet f.kind = some f := by
  have hbefore : before.find? (fun g => g.kind = f.kind) = none :=
    List.find?_eq_none.mpr fun g hg hk => h g hg (of_decide_eq_true hk)
  show (before ++ f :: after).find? (fun g => g.kind = f.kind) = some f
  rw [List.find?_append, hbefore]
  simp

theorem updateFacet_focus
    (x : Chroot) (after : List Facet)
    (h : ∀ g ∈ before, g.kind ≠ f.kind)
    (hg : g.kind = f.kind) :
    (x.withFacets (before ++ f :: after)).updateFacet g =
      x.withFacets (before ++ g :: after) := by
  have hreplace : TaggedList.replace Facet.kind g (before ++ f :: after) =
      before ++ g :: after := by
    induction before with
    | nil => simp [TaggedList.replace, hg]
    | cons y before ih =>
        have hy : ¬ y.kind = g.kind := hg ▸ h y (by simp)
        rw [List.cons_append, TaggedList.replace, if_neg hy,
          ih fun z hz => h z (List.mem_cons_of_mem y hz)]
        rfl
  exact congrArg x.withFacets hreplace

end Focus

section Facets

variable {kf : Keyfile} {c x : Chroot} {before after : List Facet}

theorem mem_of_getFacet
    {kind : FacetKind} {f : Facet}
    (h : c.getFacet kind = some f) :
    f ∈ c.facets ∧ f.kind = kind :=
  ⟨List.mem_of_find?_eq_some h, by simpa using List.find?_some h⟩

theorem getFacet_of_unionFacet?
    {u : UnionFacet}
    (h : c.unionFacet? = some u) :
    c.getFacet .union = some (.union u) := by
  unfold unionFacet? at h
  split at h
  · rename_i hget
    cases h
    exact hget
  · cases h

theorem getFacet_of_sourceClonable?
    {s : SourceClonable}
    (h : c.sourceClonable? = some s) :
    c.getFacet .sourceClonable = some (.sourceClonable s) := by
  unfold sourceClonable? at h
  split at h
  · rename_i hget
    cases h
    exact hget
  · cases h

/-- What a facet writes is there. -/
theorem HasValues.of_mem_facet
    {kind : FacetKind} {f : Facet} {key value : String}
    (h : HasValues kf c)
    (hc : WellKeyed c)
    (hf : c.getFacet kind = some f)
    (hmem : (key, value) ∈ facetEntries c.isSession f) :
    kf.value? c.name key = some value := by
  refine h.of_mem hc ?_
  rw [keyfileEntries, List.mem_append]
  exact .inr (List.mem_flatMap.mpr ⟨f, (mem_of_getFacet hf).1, hmem⟩)

/-- What it does not write is not. -/
theorem HasValues.facet_none
    {key : String}
    (h : HasValues kf c)
    (kind : FacetKind)
    (hc : WellKeyed c)
    (hkey : key ∈ facetKeyNames kind)
    (hlocation : key ≠ "location")
    (hnone : ∀ f, c.getFacet kind = some f → key ∉ (facetEntries c.isSession f).map Prod.fst) :
    kf.value? c.name key = none := by
  rw [h, writtenValues_facet hc (.inl hkey) fun heq => absurd heq hlocation]
  cases hf : c.getFacet kind with
  | none => rfl
  | some f => exact SortedMap.lookup_eq_none_iff.mpr (hnone f hf)

theorem eq_undefined
    {p : Personality}
    (h : p.name = "undefined") :
    p = Personality.undefined := by
  have hall : ∀ entry ∈ personalities, entry.1 = "undefined" → entry.2 = 0xffffffff := by decide
  have hpersona : p.persona = 0xffffffff := hall _ p.known h
  obtain ⟨name, persona, known⟩ := p
  simp only at h hpersona
  subst h hpersona
  rfl

/-- **A personality is read back**; that of a new chroot is not written. -/
theorem readKeys_personalityKeys
    {p : Personality}
    (hkf : HasValues kf c)
    (hc : WellKeyed c)
    (hp : c.getFacet .personality = some (.personality p))
    (hname : x.name = c.name)
    (hbefore : ∀ g ∈ before, g.kind ≠ .personality) :
    readKeys kf personalityKeys (x.withFacets (before ++ .personality .undefined :: after)) =
      .ok (x.withFacets (before ++ .personality p :: after)) := by
  by_cases hundefined : p.name = "undefined"
  · refine readKeys_skip ?_ (by decide) ?_
    · rw [withFacets_name, hname]
      refine hkf.facet_none .personality hc (by decide) (by decide) fun f hf => ?_
      rw [hp] at hf
      cases hf
      simp [facetEntries, entryIf, hundefined]
    · rw [eq_undefined hundefined]
      rfl
  · have hne : p.name ≠ "" := by
      have hall : ∀ entry ∈ personalities, entry.1 ≠ "" := by decide
      exact hall _ p.known
    have hread : ∀ method : Personality → Setter Chroot,
        readPersonality method p.name = .ok (some (method p)) := by
      intro method
      rw [readPersonality, firstLine_of_singleLine p.singleLine_name hne]
      simp only [Personality.setName_name]
      rfl
    refine readKeys_set (v := p.name) ?_ (hread _) (by simp) ?_ rfl
    · rw [withFacets_name, hname]
      refine hkf.of_mem_facet hc hp ?_
      simp [facetEntries, entryIf, hundefined, Personality.print, Personality.findName_persona]
    · exact congrArg Except.ok (updateFacet_focus _ _ hbefore rfl)

theorem userdata?_focus
    {u : Userdata}
    (hbefore : ∀ g ∈ before, g.kind ≠ .userdata) :
    (x.withFacets (before ++ .userdata u :: after)).userdata? = some u := by
  have hget := getFacet_focus x (.userdata u) after hbefore
  simp only [Facet.kind] at hget
  rw [userdata?, hget]

theorem withUserdata_focus
    {u : Userdata}
    (f : Userdata → Userdata)
    (hbefore : ∀ g ∈ before, g.kind ≠ .userdata) :
    withUserdata f (x.withFacets (before ++ .userdata u :: after)) =
      x.withFacets (before ++ .userdata (f u) :: after) := by
  rw [withUserdata, userdata?_focus hbefore]
  exact updateFacet_focus _ _ hbefore rfl

theorem sourceClonable?_focus
    {s : SourceClonable}
    (hbefore : ∀ g ∈ before, g.kind ≠ .sourceClonable) :
    (x.withFacets (before ++ .sourceClonable s :: after)).sourceClonable? = some s := by
  have hget := getFacet_focus x (.sourceClonable s) after hbefore
  simp only [Facet.kind] at hget
  rw [sourceClonable?, hget]

theorem withSourceClonable_focus
    {s : SourceClonable}
    (f : SourceClonable → SourceClonable)
    (hbefore : ∀ g ∈ before, g.kind ≠ .sourceClonable) :
    withSourceClonable f (x.withFacets (before ++ .sourceClonable s :: after)) =
      x.withFacets (before ++ .sourceClonable (f s) :: after) := by
  rw [withSourceClonable, sourceClonable?_focus hbefore]
  exact updateFacet_focus _ _ hbefore rfl

theorem unionFacet?_focus
    {u : UnionFacet}
    (hbefore : ∀ g ∈ before, g.kind ≠ .union) :
    (x.withFacets (before ++ .union u :: after)).unionFacet? = some u := by
  have hget := getFacet_focus x (.union u) after hbefore
  simp only [Facet.kind] at hget
  rw [unionFacet?, hget]

theorem withUnion_focus
    {u u' : UnionFacet} {f : UnionFacet → Except UnionError UnionFacet}
    (hf : f u = .ok u')
    (hbefore : ∀ g ∈ before, g.kind ≠ .union) :
    withUnion f (x.withFacets (before ++ .union u :: after)) =
      .ok (x.withFacets (before ++ .union u' :: after)) := by
  rw [withUnion, unionFacet?_focus hbefore]
  simp only [hf, Except.map, Except.mapError]
  exact congrArg Except.ok (updateFacet_focus _ _ hbefore rfl)

theorem withMountable_focus
    {m n : Mountable} {f : Mountable → Except ChrootError Mountable}
    (hf : f m = .ok n)
    (hbefore : ∀ g ∈ before, g.kind ≠ .mountable) :
    withMountable f (x.withFacets (before ++ .mountable m :: after)) =
      .ok (x.withFacets (before ++ .mountable n :: after)) := by
  have hget := getFacet_focus x (.mountable m) after hbefore
  simp only [Facet.kind] at hget
  rw [withMountable, mountable?, hget]
  simp only [hf, Except.map, Except.mapError]
  exact congrArg Except.ok (updateFacet_focus _ _ hbefore rfl)

theorem ofList_toList (s : Std.ExtTreeSet String) : Std.ExtTreeSet.ofList s.toList = s := by
  apply Std.ExtTreeSet.ext_mem
  intro k
  rw [Std.ExtTreeSet.mem_ofList]
  simp

theorem readSet_joinStrings
    {keys : Std.ExtTreeSet String}
    (h : AllItems keys.toList)
    (method : Std.ExtTreeSet String → Setter Chroot) :
    readSet method (joinStrings ',' keys.toList) = .ok (some (method keys)) := by
  rw [readSet, splitString_joinStrings h, ofList_toList]

/-- **The modifiable keys are read back**, and the user data stays as it was. -/
theorem readKeys_userdataKeys
    {u v : Userdata}
    (hkf : HasValues kf c)
    (hc : WellKeyed c)
    (hu : c.getFacet .userdata = some (.userdata u))
    (hlegible : FacetLegible (.userdata u))
    (hname : x.name = c.name)
    (hbefore : ∀ g ∈ before, g.kind ≠ .userdata) :
    readKeys kf userdataKeys (x.withFacets (before ++ .userdata v :: after)) =
      .ok (x.withFacets (before ++ .userdata { v with
        userModifiableKeys := u.userModifiableKeys
        rootModifiableKeys := u.rootModifiableKeys } :: after)) := by
  have hvalue : ∀ {key value}, (key, value) ∈ facetEntries c.isSession (.userdata u) →
      kf.value? x.name key = some value := by
    rw [hname]
    exact fun hmem => hkf.of_mem_facet hc hu hmem
  refine readKeys_set (v := joinStrings ',' u.userModifiableKeys.toList)
    (hvalue (by simp [facetEntries])) (readSet_joinStrings hlegible.1 _) (by decide)
    (congrArg Except.ok (withUserdata_focus _ hbefore)) ?_
  exact readKeys_set (v := joinStrings ',' u.rootModifiableKeys.toList)
    (hvalue (by simp [facetEntries])) (readSet_joinStrings hlegible.2 _) (by decide)
    (congrArg Except.ok (withUserdata_focus _ hbefore)) rfl

/-- **The data of source chroots is read back.** -/
theorem readKeys_sourceClonableKeys
    {s t : SourceClonable}
    (hkf : HasValues kf c)
    (hc : WellKeyed c)
    (hs : c.getFacet .sourceClonable = some (.sourceClonable s))
    (hlegible : FacetLegible (.sourceClonable s))
    (hname : x.name = c.name)
    (hbefore : ∀ g ∈ before, g.kind ≠ .sourceClonable) :
    readKeys kf sourceClonableKeys (x.withFacets (before ++ .sourceClonable t :: after)) =
      .ok (x.withFacets (before ++ .sourceClonable s :: after)) := by
  have hvalue : ∀ {key value}, (key, value) ∈ facetEntries c.isSession (.sourceClonable s) →
      kf.value? x.name key = some value := by
    rw [hname]
    exact fun hmem => hkf.of_mem_facet hc hs hmem
  obtain ⟨husers, hgroups, hrootUsers, hrootGroups⟩ := hlegible
  refine readKeys_set (v := printBool s.sourceClone) (hvalue (by simp [facetEntries]))
    (readBool_printBool _ _) (by decide)
    (congrArg Except.ok (withSourceClonable_focus _ hbefore)) ?_
  refine readKeys_set (v := joinStrings ',' s.sourceUsers) (hvalue (by simp [facetEntries]))
    (readList_joinStrings husers _) (by decide)
    (congrArg Except.ok (withSourceClonable_focus _ hbefore)) ?_
  refine readKeys_set (v := joinStrings ',' s.sourceGroups) (hvalue (by simp [facetEntries]))
    (readList_joinStrings hgroups _) (by decide)
    (congrArg Except.ok (withSourceClonable_focus _ hbefore)) ?_
  refine readKeys_set (v := joinStrings ',' s.sourceRootUsers)
    (hvalue (by simp [facetEntries])) (readList_joinStrings hrootUsers _) (by decide)
    (congrArg Except.ok (withSourceClonable_focus _ hbefore)) ?_
  exact readKeys_set (v := joinStrings ',' s.sourceRootGroups)
    (hvalue (by simp [facetEntries])) (readList_joinStrings hrootGroups _) (by decide)
    (congrArg Except.ok (withSourceClonable_focus _ hbefore)) rfl

/-- **The mount options and the location are read back**; the device is that of sessions. -/
theorem readKeys_mountableKeys
    {m n : Mountable}
    (hkf : HasValues kf c)
    (hc : WellKeyed c)
    (hsession : c.isSession = false)
    (hm : c.getFacet .mountable = some (.mountable m))
    (hlegible : FacetLegible (.mountable m))
    (hname : x.name = c.name)
    (hbefore : ∀ g ∈ before, g.kind ≠ .mountable) :
    readKeys kf (mountableKeys false) (x.withFacets (before ++ .mountable n :: after)) =
      .ok (x.withFacets
        (before ++ .mountable { m with mountDevice := n.mountDevice } :: after)) := by
  have hvalue : ∀ {key value}, (key, value) ∈ facetEntries c.isSession (.mountable m) →
      kf.value? x.name key = some value := by
    rw [hname]
    exact fun hmem => hkf.of_mem_facet hc hm hmem
  refine readKeys_skip ?_ (by decide) ?_
  · rw [withFacets_name, hname]
    refine hkf.facet_none .mountable hc (by decide) (by decide) fun f hf => ?_
    rw [hm] at hf
    cases hf
    simp [facetEntries, entryIf, hsession]
  refine readKeys_set (v := m.mountOptions) (hvalue (by simp [facetEntries])) rfl (by decide)
    (withMountable_focus rfl hbefore) ?_
  refine readKeys_set (v := m.location) (hvalue (by simp [facetEntries])) rfl (by decide)
    (withMountable_focus (n := { n with mountOptions := m.mountOptions, location := m.location })
      ?_ hbefore) rfl
  rw [checkLocation_of_legible hlegible]
  rfl

/-- Keys that are no user data. -/
def Undotted (keys : List String) : Prop :=
  ∀ key ∈ keys, ¬ IsDotted key

instance (keys : List String) : Decidable (Undotted keys) :=
  inferInstanceAs (Decidable (∀ key ∈ keys, ¬ IsDotted key))

theorem undotted_append
    {keys keys' : List String}
    (h : Undotted keys)
    (h' : Undotted keys') :
    Undotted (keys ++ keys') := by
  intro key hkey
  rcases List.mem_append.mp hkey with hkey | hkey
  · exact h key hkey
  · exact h' key hkey

theorem hasFacet_withFacets (x : Chroot) (facets : List Facet) (kind : FacetKind) :
    (x.withFacets facets).hasFacet kind = TaggedList.has Facet.kind kind facets := rfl

/-- **A union that is not configured is read back** as that of a new chroot. -/
theorem setUnionKeyfile_none
    {u v : UnionFacet}
    (hkf : HasValues kf c)
    (hc : WellKeyed c)
    (hu : c.getFacet .union = some (.union u))
    (hconfigured : u.unionType = "none")
    (hv : v.unionType = "none")
    (hname : x.name = c.name)
    (hbefore : ∀ g ∈ before, g.kind ≠ .union)
    (hclonable : ∀ g ∈ before ++ after, g.kind ≠ .sourceClonable) :
    ∃ more, setUnionKeyfile kf (x.withFacets (before ++ .union v :: after)) =
      .ok (x.withFacets (before ++ .union v :: after), more) ∧ Undotted more := by
  have hno : ∀ g ∈ before ++ .union v :: after, g.kind ≠ .sourceClonable := by
    intro g hg
    rw [List.mem_append, List.mem_cons, or_left_comm, ← List.mem_append] at hg
    rcases hg with rfl | hg
    · simp [Facet.kind]
    · exact hclonable g hg
  have hhas : (x.withFacets (before ++ .union v :: after)).hasFacet .sourceClonable = false := by
    rw [hasFacet_withFacets, TaggedList.has, List.any_eq_false]
    exact fun g hg => by simpa using hno g hg
  have hset : setUnionType "none" (x.withFacets (before ++ .union v :: after)) =
      .ok (x.withFacets (before ++ .union v :: after)) := by
    have hupdate := updateFacet_focus (f := .union v)
      (g := .union { v with unionType := "none" }) x after hbefore rfl
    have hremove : (x.withFacets (before ++ .union v :: after)).removeFacet .sourceClonable =
        x.withFacets (before ++ .union v :: after) := by
      refine congrArg x.withFacets (List.eraseP_of_forall_not fun g hg => ?_)
      simpa using hno g hg
    obtain ⟨type, options, overlay, underlay⟩ := v
    cases hv
    rw [setUnionType, unionFacet?_focus hbefore]
    simp only [UnionFacet.isKnownType, hupdate, hremove]
    rfl
  have htype : readKeys kf unionTypeKeys (x.withFacets (before ++ .union v :: after)) =
      .ok (x.withFacets (before ++ .union v :: after)) := by
    refine readKeys_set (v := "none") ?_ rfl (by decide) hset rfl
    rw [withFacets_name, hname]
    exact hkf.of_mem_facet hc hu (by simp [facetEntries, hconfigured])
  have hnone : ∀ {key}, key ∈ facetKeyNames .union → key ≠ "union-type" →
      kf.value? x.name key = none := by
    intro key hkey hne
    rw [hname]
    refine hkf.facet_none _ hc hkey (fun heq => ?_) fun f hf => ?_
    · rw [heq] at hkey
      revert hkey
      decide
    · rw [hu] at hf
      cases hf
      simp [facetEntries, UnionFacet.configured, hconfigured, hne]
  have hkeys : readKeys kf (unionKeys false) (x.withFacets (before ++ .union v :: after)) =
      .ok (x.withFacets (before ++ .union v :: after)) := by
    refine readKeys_skip (hnone (by decide) (by decide)) (by decide) ?_
    refine readKeys_skip (hnone (by decide) (by decide)) (by decide) ?_
    exact readKeys_skip (hnone (by decide) (by decide)) (by decide) rfl
  have hfacet : (x.withFacets (before ++ .union v :: after)).unionFacet? = some v :=
    unionFacet?_focus hbefore
  have hv' : v.configured = false := by simp [UnionFacet.configured, hv]
  refine ⟨(unionTypeKeys ++ [] ++ unionKeys false).map KeySpec.used, ?_, by decide⟩
  simp only [setUnionKeyfile, htype, bind, Except.bind, hhas, Bool.false_eq_true, if_false,
    readKeys_nil, hfacet, hv', Bool.and_false, hkeys]
  rfl

/-- **A configured union is read back**, and the source-clonable facet with it. -/
theorem setUnionKeyfile_configured
    {u v : UnionFacet} {s : SourceClonable}
    (hkf : HasValues kf c)
    (hc : WellKeyed c)
    (hu : c.getFacet .union = some (.union u))
    (hs : c.getFacet .sourceClonable = some (.sourceClonable s))
    (hlegible : FacetLegible (.union u))
    (hlegible' : FacetLegible (.sourceClonable s))
    (hconfigured : u.unionType ≠ "none")
    (hname : x.name = c.name)
    (hsession : (x.withFacets (before ++ .union v :: after)).isSession = false)
    (hbefore : ∀ g ∈ before, g.kind ≠ .union)
    (hclonable : ∀ g ∈ before ++ after, g.kind ≠ .sourceClonable) :
    ∃ more, setUnionKeyfile kf (x.withFacets (before ++ .union v :: after)) =
      .ok (x.withFacets (before ++ .union u :: (after ++ [.sourceClonable s])), more) ∧
        Undotted more := by
  obtain ⟨hknown, hoverlay, hunderlay⟩ := hlegible
  have hno : ∀ w : UnionFacet, ∀ g ∈ before ++ .union w :: after, g.kind ≠ .sourceClonable := by
    intro w g hg
    rw [List.mem_append, List.mem_cons, or_left_comm, ← List.mem_append] at hg
    rcases hg with rfl | hg
    · simp [Facet.kind]
    · exact hclonable g hg
  have hhas : ∀ w : UnionFacet,
      (x.withFacets (before ++ .union w :: after)).hasFacet .sourceClonable = false := by
    intro w
    rw [hasFacet_withFacets, TaggedList.has, List.any_eq_false]
    exact fun g hg => by simpa using hno w g hg
  have hvalue : ∀ {key value}, (key, value) ∈ facetEntries c.isSession (.union u) →
      kf.value? x.name key = some value := by
    rw [hname]
    exact fun hmem => hkf.of_mem_facet hc hu hmem
  -- the union type makes the chroot source-clonable
  have hset : setUnionType u.unionType (x.withFacets (before ++ .union v :: after)) =
      .ok (x.withFacets
        ((before ++ .union { v with unionType := u.unionType } :: after) ++
          [.sourceClonable {}])) := by
    have hupdate := updateFacet_focus (f := .union v)
      (g := .union { v with unionType := u.unionType }) x after hbefore rfl
    rw [setUnionType, unionFacet?_focus hbefore]
    simp only [hknown, if_true, hupdate, hconfigured, ne_eq, not_false_eq_true, hhas,
      Bool.false_eq_true, if_false, mapError_eq_ok_iff, addFacet_eq_ok_iff]
    refine ⟨?_, rfl⟩
    rw [← hasFacet_iff]
    simp [Facet.kind, hhas]
  have htype : readKeys kf unionTypeKeys (x.withFacets (before ++ .union v :: after)) =
      .ok (x.withFacets
        ((before ++ .union { v with unionType := u.unionType } :: after) ++
          [.sourceClonable {}])) :=
    readKeys_set (v := u.unionType) (hvalue (by simp [facetEntries])) rfl (by decide) hset rfl
  have hsource : readKeys kf sourceClonableKeys (x.withFacets
        ((before ++ .union { v with unionType := u.unionType } :: after) ++
          [.sourceClonable {}])) =
      .ok (x.withFacets
        ((before ++ .union { v with unionType := u.unionType } :: after) ++
          [.sourceClonable s])) :=
    readKeys_sourceClonableKeys hkf hc hs hlegible' hname (hno _)
  have hkeys : readKeys kf (unionKeys false) (x.withFacets
        (before ++ .union { v with unionType := u.unionType } ::
          (after ++ [.sourceClonable s]))) =
      .ok (x.withFacets (before ++ .union u :: (after ++ [.sourceClonable s]))) := by
    refine readKeys_set (v := u.mountOptions)
      (hvalue (by simp [facetEntries, UnionFacet.configured, hconfigured])) rfl (by decide)
      (withUnion_focus rfl hbefore) ?_
    refine readKeys_set (v := u.overlayDirectory)
      (hvalue (by simp [facetEntries, UnionFacet.configured, hconfigured])) rfl (by decide)
      (withUnion_focus (if_pos hoverlay) hbefore) ?_
    exact readKeys_set (v := u.underlayDirectory)
      (hvalue (by simp [facetEntries, UnionFacet.configured, hconfigured])) rfl (by decide)
      (withUnion_focus (if_pos hunderlay) hbefore) rfl
  have hhas' : (x.withFacets ((before ++ .union { v with unionType := u.unionType } :: after) ++
      [.sourceClonable {}])).hasFacet .sourceClonable = true := by
    rw [hasFacet_withFacets, TaggedList.has, List.any_append]
    simp [Facet.kind]
  have hassoc : (before ++ .union { v with unionType := u.unionType } :: after) ++
      [.sourceClonable s] = before ++ .union { v with unionType := u.unionType } ::
        (after ++ [.sourceClonable s]) := by simp
  refine ⟨(unionTypeKeys ++ sourceClonableKeys ++ unionKeys false).map KeySpec.used, ?_,
    by decide⟩
  simp only [setUnionKeyfile, htype, bind, Except.bind, hhas', hsession, if_true, hsource,
    Bool.false_and]
  rw [hassoc, hkeys]
  rfl

end Facets

section Loop

variable {kf : Keyfile} {c x : Chroot} {before after rest : List Facet}

/-- A facet that reading is started with. -/
def IsNew : Facet → Prop
  | .personality p => p = .undefined
  | .union u => u.unionType = "none"
  | .session _ => False
  | _ => True

/-- What reading makes of a facet; a configured union is read together with the source-clonable
facet. -/
def reread (c : Chroot) : Facet → Facet
  | .personality p => .personality (c.persona?.getD p)
  | .userdata v =>
      match c.userdata? with
      | some u =>
          .userdata { v with
            userModifiableKeys := u.userModifiableKeys
            rootModifiableKeys := u.rootModifiableKeys }
      | none => .userdata v
  | .sourceClonable s => .sourceClonable (c.sourceClonable?.getD s)
  | .union v => .union ((c.unionFacet?.filter UnionFacet.configured).getD v)
  | .mountable n =>
      match c.mountable? with
      | some m => .mountable { m with mountDevice := n.mountDevice }
      | none => .mountable n
  | f => f

theorem kind_reread (c : Chroot) (f : Facet) : (reread c f).kind = f.kind := by
  unfold reread
  split <;> first | rfl | (split <;> rfl)

theorem exists_getFacet
    {kind : FacetKind}
    (h : kind ∈ c.facetKinds) :
    ∃ f, c.getFacet kind = some f ∧ f.kind = kind := by
  rw [← hasFacet_iff] at h
  have hget : (c.getFacet kind).isSome = true := by
    rw [getFacet, ← TaggedList.has_eq_isSome_get?]
    exact h
  obtain ⟨f, hf⟩ := Option.isSome_iff_exists.mp hget
  exact ⟨f, hf, (mem_of_getFacet hf).2⟩

theorem getFacet_none
    {kind : FacetKind}
    (h : kind ∉ c.facetKinds) :
    c.getFacet kind = none := by
  rw [← Option.not_isSome_iff_eq_none, getFacet, ← TaggedList.has_eq_isSome_get?]
  exact fun hm => h ((hasFacet_iff c _).mp hm)

/-- **One facet is read back**, if it is no configured union. -/
theorem setFacetKeyfile_new
    {f : Facet}
    (hkf : HasValues kf c)
    (hc : WellKeyed c)
    (hsession : c.isSession = false)
    (hlegible : ∀ f ∈ c.facets, FacetLegible f)
    (hname : x.name = c.name)
    (hnew : IsNew f)
    (hkind : f.kind ∈ c.facetKinds)
    (hxsession : (x.withFacets (before ++ f :: after)).isSession = false)
    (hbefore : ∀ g ∈ before, g.kind ≠ f.kind)
    (hunion : f.kind = .union → ∀ u, c.unionFacet? = some u → u.configured = false ∧
      ∀ g ∈ before ++ after, g.kind ≠ .sourceClonable) :
    ∃ more, setFacetKeyfile kf f.kind (x.withFacets (before ++ f :: after)) =
      .ok (x.withFacets (before ++ reread c f :: after), more) ∧ Undotted more := by
  obtain ⟨g, hg, hgkind⟩ := exists_getFacet hkind
  have htable : ∀ (specs : List (KeySpec Chroot)) {y z : Chroot},
      Undotted (specs.map KeySpec.used) → readKeys kf specs y = .ok z →
        ∃ more, (readKeys kf specs y).map (fun c => (c, specs.map KeySpec.used)) = .ok (z, more) ∧
          Undotted more := by
    intro specs y z hspecs h
    refine ⟨specs.map KeySpec.used, ?_, hspecs⟩
    rw [h]
    rfl
  have hlegible := hlegible g (mem_of_getFacet hg).1
  cases f with
  | personality p =>
      cases g <;> simp only [Facet.kind, reduceCtorEq] at hgkind
      cases hnew
      rename_i q
      have hq : c.getFacet .personality = some (.personality q) := hg
      have hpersona : c.persona? = some q := by rw [persona?, hq]
      simp only [reread, hpersona, Option.getD_some]
      exact htable personalityKeys (by decide) (readKeys_personalityKeys hkf hc hq hname hbefore)
  | sessionClonable => exact htable [] (by decide) rfl
  | userdata v =>
      cases g <;> simp only [Facet.kind, reduceCtorEq] at hgkind
      rename_i u
      have hu : c.getFacet .userdata = some (.userdata u) := hg
      have hdata : c.userdata? = some u := by rw [userdata?, hu]
      simp only [reread, hdata]
      exact htable userdataKeys (by decide)
        (readKeys_userdataKeys hkf hc hu hlegible hname hbefore)
  | session s => cases hnew
  | sourceClonable t =>
      cases g <;> simp only [Facet.kind, reduceCtorEq] at hgkind
      rename_i s
      have hs : c.getFacet .sourceClonable = some (.sourceClonable s) := hg
      have hsource : c.sourceClonable? = some s := by rw [sourceClonable?, hs]
      simp only [reread, hsource, Option.getD_some]
      exact htable sourceClonableKeys (by decide)
        (readKeys_sourceClonableKeys hkf hc hs hlegible hname hbefore)
  | source => exact htable [] (by decide) rfl
  | union v =>
      cases g <;> simp only [Facet.kind, reduceCtorEq] at hgkind
      rename_i u
      have hu : c.getFacet .union = some (.union u) := hg
      have hfacet : c.unionFacet? = some u := by rw [unionFacet?, hu]
      obtain ⟨hconfigured, hclonable⟩ := hunion rfl u hfacet
      have hnone : u.unionType = "none" := by simpa [UnionFacet.configured] using hconfigured
      have hreread : reread c (.union v) = .union v := by
        simp [reread, hfacet, Option.filter, hconfigured]
      rw [hreread]
      exact setUnionKeyfile_none hkf hc hu hnone hnew hname hbefore hclonable
  | mountable n =>
      cases g <;> simp only [Facet.kind, reduceCtorEq] at hgkind
      rename_i m
      have hm : c.getFacet .mountable = some (.mountable m) := hg
      have hmount : c.mountable? = some m := by rw [mountable?, hm]
      simp only [reread, hmount]
      have hread : readKeys kf (mountableKeys false)
          (x.withFacets (before ++ .mountable n :: after)) =
            .ok (x.withFacets
              (before ++ .mountable { m with mountDevice := n.mountDevice } :: after)) :=
        readKeys_mountableKeys hkf hc hsession hm hlegible hname hbefore
      have hkeys := htable (mountableKeys false) (by decide) hread
      rw [← hxsession] at hkeys
      exact hkeys

/-- The union that was configured has brought a facet. -/
def addedSource (c : Chroot) (rest : List Facet) : List Facet :=
  if TaggedList.has Facet.kind .union rest && c.unionFacet?.any UnionFacet.configured then
    c.sourceClonable?.toList.map .sourceClonable
  else
    []

/-- The facets that are still to be read are new ones, of kinds that the chroot has, and none has
come from a union yet. -/
structure Ahead (c : Chroot) (before rest : List Facet) : Prop where
  nodup : (TaggedList.tags Facet.kind (before ++ rest)).Nodup
  new : ∀ f ∈ rest, IsNew f
  mem : ∀ f ∈ rest, f.kind ∈ c.facetKinds
  session : .session ∉ TaggedList.tags Facet.kind (before ++ rest)
  union : .union ∈ TaggedList.tags Facet.kind rest →
    .sourceClonable ∉ TaggedList.tags Facet.kind (before ++ rest)

theorem facetsAfter_focus
    {f g : Facet}
    (hbefore : ∀ h ∈ before, h.kind ≠ f.kind)
    (hg : g.kind = f.kind) :
    facetsAfter f.kind (before ++ g :: after) = after := by
  unfold facetsAfter
  rw [List.dropWhile_append_of_pos fun h hh => by simpa using hbefore h hh]
  simp [hg]

theorem notMem_before
    {f : Facet}
    (h : (TaggedList.tags Facet.kind (before ++ f :: rest)).Nodup) :
    (∀ g ∈ before ++ rest, g.kind ≠ f.kind) := by
  rw [TaggedList.tags, List.map_append, List.map_cons, List.nodup_middle, List.nodup_cons,
    ← List.map_append] at h
  exact fun g hg hk => h.1 (hk ▸ List.mem_map_of_mem hg)

theorem tags_reread (c : Chroot) (f : Facet) (before rest : List Facet) :
    TaggedList.tags Facet.kind (before ++ reread c f :: rest) =
      TaggedList.tags Facet.kind (before ++ f :: rest) := by
  simp [TaggedList.tags, kind_reread]

theorem Ahead.next
    {f : Facet}
    (h : Ahead c before (f :: rest)) :
    Ahead c (before ++ [reread c f]) rest := by
  have htags : TaggedList.tags Facet.kind (before ++ [reread c f] ++ rest) =
      TaggedList.tags Facet.kind (before ++ f :: rest) := by
    rw [List.append_assoc, List.singleton_append, tags_reread]
  refine ⟨?_, fun g hg => h.new g (List.mem_cons_of_mem f hg),
    fun g hg => h.mem g (List.mem_cons_of_mem f hg), ?_, fun hu => ?_⟩
  · rw [htags]
    exact h.nodup
  · rw [htags]
    exact h.session
  · rw [htags]
    exact h.union (List.mem_cons_of_mem _ hu)

theorem isSession_withFacets
    {facets : List Facet}
    (h : .session ∉ TaggedList.tags Facet.kind facets) :
    (x.withFacets facets).isSession = false := by
  rw [Bool.eq_false_iff]
  exact fun hs => h (isSession_iff.mp hs)

/-- After a configured union, its source-clonable facet is the last one ahead. -/
theorem Ahead.nextUnion
    {u v : UnionFacet} {s : SourceClonable}
    (h : Ahead c before (.union v :: rest))
    (hs : c.sourceClonable? = some s) :
    Ahead c (before ++ [.union u]) (rest ++ [.sourceClonable s]) := by
  have htags : TaggedList.tags Facet.kind (before ++ [.union u] ++ (rest ++ [.sourceClonable s])) =
      TaggedList.tags Facet.kind (before ++ .union v :: rest) ++ [.sourceClonable] := by
    simp [TaggedList.tags, Facet.kind]
  have hfree : .sourceClonable ∉ TaggedList.tags Facet.kind (before ++ .union v :: rest) :=
    h.union List.mem_cons_self
  refine ⟨?_, fun g hg => ?_, fun g hg => ?_, ?_, fun hu => ?_⟩
  · rw [htags]
    exact List.Nodup.append h.nodup (List.nodup_singleton _) (by simpa using hfree)
  · rcases List.mem_append.mp hg with hg | hg
    · exact h.new g (List.mem_cons_of_mem _ hg)
    · rw [List.mem_singleton.mp hg]
      exact trivial
  · rcases List.mem_append.mp hg with hg | hg
    · exact h.mem g (List.mem_cons_of_mem _ hg)
    · rw [List.mem_singleton.mp hg]
      exact List.mem_map_of_mem (mem_of_sourceClonable? hs)
  · rw [htags, List.mem_append]
    simpa using h.session
  · have hone := notMem_before h.nodup
    simp only [TaggedList.tags, List.map_append, List.mem_append, List.map_cons, List.map_nil,
      List.mem_singleton, Facet.kind, reduceCtorEq, or_false] at hu
    obtain ⟨g, hg, hgk⟩ := List.mem_map.mp hu
    exact absurd hgk (hone g (List.mem_append_right _ hg))

theorem addedSource_cons
    {f : Facet}
    (h : ¬ (f.kind = .union ∧ c.unionFacet?.any UnionFacet.configured = true)) :
    addedSource c (f :: rest) = addedSource c rest := by
  unfold addedSource
  by_cases hf : f.kind = .union
  · have hany : c.unionFacet?.any UnionFacet.configured = false :=
      Bool.eq_false_iff.mpr fun e => h ⟨hf, e⟩
    simp [hany]
  · simp [TaggedList.has, hf]

/-- **The loop over the facets** puts back what the chroot has written, facet by facet. -/
theorem setFacetsKeyfile_new
    (hkf : HasValues kf c)
    (hc : WellKeyed c)
    (hsession : c.isSession = false)
    (hlegible : ∀ f ∈ c.facets, FacetLegible f)
    (hclonable : c.unionFacet?.any UnionFacet.configured = true →
      ∃ s, c.sourceClonable? = some s)
    (hname : x.name = c.name)
    {n : Nat}
    (used : List String)
    (hn : rest.length + (if TaggedList.has Facet.kind .union rest then 1 else 0) ≤ n)
    (hahead : Ahead c before rest) :
    ∃ more, setFacetsKeyfile kf n rest (x.withFacets (before ++ rest)) used =
      .ok (x.withFacets (before ++ rest.map (reread c) ++ addedSource c rest), used ++ more) ∧
        Undotted more := by
  induction n generalizing before rest used with
  | zero =>
      have hrest : rest = [] := List.length_eq_zero_iff.mp (by omega)
      subst hrest
      exact ⟨[], by simp [setFacetsKeyfile, addedSource, TaggedList.has], by decide⟩
  | succ n ih =>
      cases rest with
      | nil => exact ⟨[], by simp [setFacetsKeyfile, addedSource, TaggedList.has], by decide⟩
      | cons f rest =>
          have hothers := notMem_before hahead.nodup
          have hbefore : ∀ g ∈ before, g.kind ≠ f.kind :=
            fun g hg => hothers g (List.mem_append_left _ hg)
          have hxsession : (x.withFacets (before ++ f :: rest)).isSession = false :=
            isSession_withFacets hahead.session
          have hfree : f.kind = .union → ∀ g ∈ before ++ rest, g.kind ≠ .sourceClonable := by
            intro hf g hg hgk
            refine hahead.union (List.mem_map.mpr ⟨f, by simp, hf⟩) ?_
            rw [← hgk]
            refine List.mem_map_of_mem ?_
            rw [List.mem_append, List.mem_cons, or_left_comm, ← List.mem_append]
            exact .inr hg
          by_cases hconfigured : f.kind = .union ∧
              c.unionFacet?.any UnionFacet.configured = true
          · obtain ⟨hf, hany⟩ := hconfigured
            obtain ⟨s, hs⟩ := hclonable hany
            obtain ⟨u, hu, huc⟩ := Option.any_eq_true _ _ |>.mp hany
            cases f <;> simp only [Facet.kind, reduceCtorEq] at hf
            rename_i v
            have hstate : ∃ more, setFacetKeyfile kf .union
                (x.withFacets (before ++ .union v :: rest)) =
                  .ok (x.withFacets (before ++ .union u :: (rest ++ [.sourceClonable s])), more) ∧
                    Undotted more :=
              setUnionKeyfile_configured hkf hc (getFacet_of_unionFacet? hu)
                (getFacet_of_sourceClonable? hs) (hlegible _ (mem_of_unionFacet? hu))
                (hlegible _ (mem_of_sourceClonable? hs))
                (by simpa [UnionFacet.configured] using huc) hname hxsession hbefore (hfree rfl)
            obtain ⟨more, hstep, hmore⟩ := hstate
            have hnext := hahead.nextUnion (u := u) hs
            have hlast : TaggedList.has Facet.kind .union (rest ++ [.sourceClonable s]) = false := by
              rw [Bool.eq_false_iff, ne_eq, TaggedList.has_iff_mem_tags]
              intro hm
              exact hnext.union hm (by simp [TaggedList.tags, Facet.kind])
            obtain ⟨more', hloop, hmore'⟩ := ih (used ++ more)
              (by simpa [hlast] using (by simpa [TaggedList.has, Facet.kind] using hn)) hnext
            refine ⟨more ++ more', ?_, undotted_append hmore hmore'⟩
            have hafter : facetsAfter .union (before ++ .union u :: (rest ++ [.sourceClonable s])) =
                rest ++ [.sourceClonable s] := facetsAfter_focus (f := .union u) hbefore rfl
            have hadded : addedSource c (rest ++ [.sourceClonable s]) = [] := by
              simp [addedSource, hlast]
            have hsource : reread c (.sourceClonable s) = .sourceClonable s := by
              simp [reread, hs]
            have hunion : reread c (.union v) = .union u := by
              simp [reread, hu, Option.filter, huc]
            have hall : addedSource c (.union v :: rest) = [.sourceClonable s] := by
              simp [addedSource, TaggedList.has, Facet.kind, hu, huc, hs]
            simp only [setFacetsKeyfile, Facet.kind, hstep, bind, Except.bind]
            show setFacetsKeyfile kf n (facetsAfter .union (before ++ .union u ::
              (rest ++ [.sourceClonable s]))) _ _ = _
            simp only [hadded, List.map_append, List.map_cons, List.map_nil, hsource,
              List.append_assoc, List.singleton_append, List.append_nil] at hloop
            rw [hafter, hloop, List.map_cons, hunion, hall]
            simp
          · obtain ⟨more, hstep, hmore⟩ := setFacetKeyfile_new hkf hc hsession hlegible hname
              (hahead.new f (by simp)) (hahead.mem f (by simp)) hxsession hbefore
              (fun hf u hu => ⟨by
                rw [Bool.eq_false_iff]
                exact fun huc => hconfigured ⟨hf, by simp [hu, huc]⟩, hfree hf⟩)
            have hlength : rest.length + (if TaggedList.has Facet.kind .union rest then 1 else 0) ≤
                n := by
              have hmono : (if TaggedList.has Facet.kind .union rest then 1 else 0) ≤
                  if TaggedList.has Facet.kind .union (f :: rest) then 1 else 0 := by
                by_cases hr : TaggedList.has Facet.kind .union rest = true
                · have hall : TaggedList.has Facet.kind .union (f :: rest) = true := by
                    simp only [TaggedList.has, List.any_cons, Bool.or_eq_true] at hr ⊢
                    exact .inr hr
                  exact Nat.le_of_eq ((if_pos hr).trans (if_pos hall).symm)
                · rw [if_neg hr]
                  exact Nat.zero_le _
              simp only [List.length_cons] at hn
              omega
            obtain ⟨more', hloop, hmore'⟩ := ih (used ++ more) hlength hahead.next
            refine ⟨more ++ more', ?_, undotted_append hmore hmore'⟩
            simp only [setFacetsKeyfile, hstep, bind, Except.bind]
            show setFacetsKeyfile kf n (facetsAfter f.kind (before ++ reread c f :: rest)) _ _ = _
            simp only [List.append_assoc, List.singleton_append] at hloop
            rw [facetsAfter_focus hbefore (kind_reread c f), hloop, List.map_cons,
              addedSource_cons hconfigured]
            simp

end Loop

end Chroot

end Schroot
