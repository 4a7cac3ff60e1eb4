import Schroot.NewChroot

/-!
# What a loaded chroot is like

A chroot that is loaded in the chroot namespace has the type of its template.  Unless it is a
custom chroot it has the facets of that type too, and it is source-clonable besides exactly if
it has a union.

**Results.**
* `setKeyfile_phases`: the phases of reading a chroot.
* `isLoaded_of_loadChroot`: what holds of every chroot that is loaded.
-/

namespace Schroot

namespace Chroot

section Phases

variable {cfg : SbuildConfig} {kf : Keyfile} {c c' : Chroot}

/-- The keys that nothing has read. -/
def unusedKeys (kf : Keyfile) (group : String) (used : List String) : List String :=
  (kf.getKeys group).filter (fun key => !used.contains key)

/-- The keys that are counted as used before the facets are read. -/
def usedKeys (cfg : SbuildConfig) (kf : Keyfile) (c d : Chroot) : List String :=
  "type" :: (kf.getKeys c.name).filter isDescriptionKey ++
    (baseKeys cfg c.isSession).map KeySpec.used ++ (typeKeys kf d).map KeySpec.used

/-- **The phases of reading a chroot**: the base class, its type, its facets, and what is left. -/
theorem setKeyfile_phases :
    c.setKeyfile cfg kf = .ok c' ↔
      ∃ d e f used, readKeys kf (baseKeys cfg c.isSession) c = .ok d ∧
        requireDirectory kf d = .ok () ∧ readKeys kf (typeKeys kf d) d = .ok e ∧
        setFacetsKeyfile kf facetFuel e.facets e (usedKeys cfg kf c d) = .ok (f, used) ∧
        c' = (unusedKeys kf f.name used).foldl (setUnusedKey kf) f := by
  constructor
  · intro h
    simp only [setKeyfile, bind_eq_ok_iff] at h
    obtain ⟨⟨e, _⟩, htype, ⟨f, used⟩, hfacets, h⟩ := h
    cases h
    simp only [setTypeKeyfile, bind_eq_ok_iff] at htype
    obtain ⟨d, hbase, _, hdirectory, _, hkeys, hused⟩ := htype
    cases hused
    exact ⟨d, e, f, used, hbase, hdirectory, hkeys, hfacets, rfl⟩
  · rintro ⟨d, e, f, used, hbase, hdirectory, hkeys, hfacets, rfl⟩
    simp only [setKeyfile, setTypeKeyfile, bind_eq_ok_iff]
    refine ⟨(e, usedKeys cfg kf c d), ⟨d, hbase, (), hdirectory, e, hkeys, rfl⟩, (f, used),
      hfacets, rfl⟩

end Phases

section OtherFacets

variable {cfg : SbuildConfig} {kf : Keyfile} {kind : FacetKind} {f : Facet} {c c' : Chroot}

theorem getFacet_updateFacet
    (h : kind ≠ f.kind) :
    (c.updateFacet f).getFacet kind = c.getFacet kind := by
  simp only [getFacet, updateFacet, TaggedList.get?_replace, if_neg h]

theorem unionFacet?_eq
    (h : c'.getFacet .union = c.getFacet .union) :
    c'.unionFacet? = c.unionFacet? := by
  rw [unionFacet?, unionFacet?, h]

/-- Reading the base class changes no facet but the user data. -/
theorem getFacet_baseStep
    {session : Bool} {key : String}
    (hkind : kind ≠ .userdata)
    (h : BaseStep cfg session kf c key c') :
    c'.getFacet kind = c.getFacet kind := by
  cases h with
  | profile _ h =>
      unfold setProfile at h
      simp only at h
      split at h
      · cases h
        rfl
      · obtain ⟨u, -, h⟩ := bind_eq_ok_iff.mp h
        cases h
        exact getFacet_updateFacet (f := .userdata u) hkind
  | scriptConfig =>
      unfold setScriptConfig
      simp only
      split
      · rfl
      · exact getFacet_updateFacet (f := .userdata _) hkind
  | aliases _ h =>
      obtain ⟨_, _, h⟩ := bind_eq_ok_iff.mp h
      cases h
      rfl
  | mountLocation _ _ h =>
      unfold setMountLocation at h
      split at h <;> cases h
      rfl
  | name _ _ h =>
      obtain ⟨_, _, rfl⟩ := setName_eq_ok_iff.mp h
      rfl
  | verbosity _ h =>
      unfold setVerbosity at h
      repeat (split at h; · cases h; rfl)
      cases h
  | _ => rfl

theorem getFacet_readBaseKeys
    {session : Bool}
    (hkind : kind ≠ .userdata)
    (h : readKeys kf (baseKeys cfg session) c = .ok c') :
    c'.getFacet kind = c.getFacet kind :=
  readKeys_keeps (R := fun x y => y.getFacet kind = x.getFacet kind) (fun _ => rfl)
    (fun _ _ _ hxy hyz => hyz.trans hxy)
    (fun _ hspec _ _ hget => getFacet_baseStep hkind (baseStep_of_get hspec hget)) h

end OtherFacets

section Sources

variable {kf : Keyfile} {c c' : Chroot}

/-- A chroot that can have a union is source-clonable exactly if it has one. -/
def SourceMatches (c : Chroot) : Prop :=
  ∀ u, c.unionFacet? = some u → (.sourceClonable ∈ c.facetKinds ↔ u.configured = true)

theorem SourceMatches.of_union
    (hc : SourceMatches c)
    (hunion : c'.unionFacet? = c.unionFacet?)
    (hkinds : c'.facetKinds = c.facetKinds) :
    SourceMatches c' := by
  intro u hu
  rw [hkinds]
  exact hc u (hunion ▸ hu)

theorem SourceMatches.updateFacet
    {f : Facet}
    (hc : SourceMatches c)
    (hf : .union ≠ f.kind) :
    SourceMatches (c.updateFacet f) :=
  hc.of_union (unionFacet?_eq (getFacet_updateFacet hf)) (facetKinds_updateFacet f c)

/-- Other data of the union, with its type. -/
theorem SourceMatches.updateUnion
    {u v : UnionFacet}
    (hc : SourceMatches c)
    (hu : c.unionFacet? = some u)
    (htype : v.unionType = u.unionType) :
    SourceMatches (c.updateFacet (.union v)) := by
  intro w hw
  rw [unionFacet?_updateFacet hu] at hw
  cases hw
  rw [facetKinds_updateFacet, hc u hu, UnionFacet.configured, UnionFacet.configured, htype]

theorem SourceMatches.facetStep
    {key : String}
    (hc : SourceMatches c)
    (h : FacetStep kf c key c') :
    SourceMatches c' := by
  cases h with
  | skip => exact hc
  | unionMountOptions hu | unionOverlayDirectory hu | unionUnderlayDirectory hu =>
      exact hc.updateUnion hu rfl
  | _ => exact hc.updateFacet (by simp [Facet.kind])

/-- **The type of a union switches its source chroot.** -/
theorem SourceMatches.setUnionType
    {type : String}
    (hnodup : c.facetKinds.Nodup)
    (hc : SourceMatches c)
    (h : Chroot.setUnionType type c = .ok c') :
    SourceMatches c' := by
  rcases setUnionType_cases h with
    ⟨_, rfl⟩ | ⟨u, hu, _, ⟨htype, rfl⟩ | ⟨htype, hsource, rfl⟩ | ⟨htype, hsource, rfl⟩⟩
  · exact hc
  · intro v hv
    have hother : ((c.updateFacet (.union { u with unionType := type })).removeFacet
        .sourceClonable).unionFacet? =
          (c.updateFacet (.union { u with unionType := type })).unionFacet? :=
      unionFacet?_eq (TaggedList.get?_remove (by decide) _)
    rw [hother, unionFacet?_updateFacet hu] at hv
    cases hv
    rw [facetKinds_removeFacet, facetKinds_updateFacet]
    simp [hnodup.not_mem_erase, UnionFacet.configured, htype]
  · intro v hv
    rw [unionFacet?_updateFacet hu] at hv
    cases hv
    rw [facetKinds_updateFacet, ← hasFacet_iff]
    simp [hsource, UnionFacet.configured, htype]
  · intro v hv
    have hother : ({ c with facets :=
        (c.updateFacet (.union { u with unionType := type })).facets ++
          [.sourceClonable {}] } : Chroot).unionFacet? =
        (c.updateFacet (.union { u with unionType := type })).unionFacet? := by
      refine unionFacet?_eq ?_
      simp only [getFacet, TaggedList.get?_append]
      simp [TaggedList.get?, Facet.kind]
    rw [hother, unionFacet?_updateFacet hu] at hv
    cases hv
    have hmem : .sourceClonable ∈ ({ c with facets :=
        (c.updateFacet (.union { u with unionType := type })).facets ++
          [.sourceClonable {}] } : Chroot).facetKinds := by
      simp [facetKinds, TaggedList.tags, Facet.kind]
    simp [hmem, UnionFacet.configured, htype]

theorem SourceMatches.setFacetsKeyfile
    {n : Nat} {rest : List Facet} {used used' : List String}
    (hnodup : c.facetKinds.Nodup)
    (hc : SourceMatches c)
    (h : Chroot.setFacetsKeyfile kf n rest c used = .ok (c', used')) :
    SourceMatches c' :=
  (KeptByFacets.setFacetsKeyfile (P := fun x => x.facetKinds.Nodup ∧ SourceMatches x)
    ⟨fun hx hstep => ⟨hstep.facetFrame.facetKinds ▸ hx.1, hx.2.facetStep hstep⟩,
      fun hx _ hset => ⟨(kindsFrame_setUnionType hset).nodup hx.1, hx.2.setUnionType hx.1 hset⟩⟩
    ⟨hnodup, hc⟩ h).2

end Sources

section Loading

variable {cfg : SbuildConfig} {kf : Keyfile} {group : String} {c : Chroot}

theorem isListItem_of_isValidSessionname
    {name : String}
    (h : isValidSessionname name = true) :
    IsListItem name := by
  refine ⟨fun hnil => ?_, fun hm => absurd (isNameChar_of_isValidSessionname h _ hm) (by decide)⟩
  simp [isValidSessionname, hnil] at h

/-- The facets are those of the type, and a chroot with a union is source-clonable besides. -/
def HasTypeFacets (cfg : SbuildConfig) (c : Chroot) : Prop :=
  ∀ k, k ∈ c.facetKinds ↔ k ∈ newFacetKinds cfg (newKind c.kind) ∨
    (k = .sourceClonable ∧ c.unionFacet?.any UnionFacet.configured = true)

/-- Where there is no union facet, reading the facets changes none of their kinds. -/
theorem facetKinds_setFacetsKeyfile
    {n : Nat} {rest : List Facet} {used used' : List String} {e f : Chroot}
    (hunion : .union ∉ e.facetKinds)
    (h : setFacetsKeyfile kf n rest e used = .ok (f, used')) :
    f.facetKinds = e.facetKinds := by
  refine setFacetsKeyfile_keeps (R := fun x y => .union ∉ x.facetKinds → y.facetKinds = x.facetKinds)
    (fun _ _ => rfl) (fun x y z hxy hyz hx => ?_) (fun kind x y more hstep hx => ?_) h hunion
  · have hy := hxy hx
    exact (hyz (hy ▸ hx)).trans hy
  · by_cases hkind : kind = .union
    · subst hkind
      rcases setUnionKeyfile_cases hstep with hframe | ⟨_, d, _, hset, hframe⟩
      · exact hframe.facetKinds
      · rcases setUnionType_cases hset with ⟨_, rfl⟩ | ⟨u, hu, _⟩
        · exact hframe.facetKinds
        · exact absurd (mem_facetKinds_of_unionFacet? hu) hx
    · exact (facetFrame_setFacetKeyfile hkind hstep).facetKinds

/-- **What a chroot is like that was loaded** in the chroot namespace. -/
structure IsLoaded (cfg : SbuildConfig) (c : Chroot) : Prop where
  template : ∃ u, u.Profiled ∧ u.FromProfile ∧
    (u.userModifiableKeys = ∅ ∧ u.rootModifiableKeys = ∅) ∧
      ChrootConfig.createTemplate cfg "chroot" (c.getKeyfile .empty) c.name =
        .ok (newChroot cfg (newKind c.kind) c.name u)
  session : c.isSession = false
  data : DataInvariant c
  profile : ProfileInvariant c
  names : ValidNames c
  legible : Legible cfg c
  kindLegible : KindLegible c.kind
  facets : (∀ b, c.kind ≠ .custom b) → HasTypeFacets cfg c
  custom : (∃ b, c.kind = .custom b) → ∀ k, k ≠ .sessionClonable → k ≠ .sourceClonable →
    (k ∈ c.facetKinds ↔ k ∈ newFacetKinds cfg (newKind c.kind))

/-- The type of a chroot is written. -/
theorem kindOfType_written
    (hc : WellKeyed c) :
    kindOfType (((c.getKeyfile .empty).value? c.name "type").getD "plain") =
      some (newKind c.kind) := by
  have hvalue : (c.getKeyfile .empty).value? c.name "type" = some c.kind.typeName := by
    rw [value?_getKeyfile, writtenValues_eq_some_iff hc]
    simp [keyfileEntries, baseEntries]
  rw [hvalue]
  exact kindOfType_typeName c.kind

theorem newKind_of_typeName_custom
    {kind : ChrootKind} :
    (∃ b, kind = .custom b) ↔ kind.typeName = "custom" := by
  cases kind <;> simp [ChrootKind.typeName]

/-- The facets after reading the facets of a chroot that has those of its type. -/
theorem hasTypeFacets_of_read
    {kind : ChrootKind} {e f : Chroot}
    (hkinds : e.facetKinds = newFacetKinds cfg kind)
    (hmatches : SourceMatches f)
    (hframe : KindsFrame e f)
    (hplain : .union ∉ e.facetKinds → f.facetKinds = e.facetKinds)
    (k : FacetKind) :
    k ∈ f.facetKinds ↔ k ∈ newFacetKinds cfg kind ∨
      (k = .sourceClonable ∧ f.unionFacet?.any UnionFacet.configured = true) := by
  have hnone : .union ∉ f.facetKinds → f.unionFacet?.any UnionFacet.configured = false := by
    intro hno
    cases hu : f.unionFacet? with
    | none => rfl
    | some u => exact absurd (mem_facetKinds_of_unionFacet? hu) hno
  by_cases hunion : .union ∈ e.facetKinds
  · have hsource := sourceClonable_notMem_newFacetKinds (hkinds ▸ hunion)
    by_cases hk : k = .sourceClonable
    · obtain ⟨u, hu⟩ : ∃ u, f.unionFacet? = some u := by
        obtain ⟨g, hg, hgk⟩ := exists_getFacet ((hframe.mem .union (by decide)).mpr hunion)
        cases g <;> simp [Facet.kind] at hgk
        exact ⟨_, by rw [unionFacet?, hg]⟩
      subst hk
      rw [hmatches u hu, hu]
      simp [hsource]
    · rw [hframe.mem k hk, hkinds]
      simp [hk]
  · have hsame := hplain hunion
    have hno : .union ∉ f.facetKinds := by
      rw [hsame]
      exact hunion
    rw [hsame, hkinds, hnone hno]
    simp

theorem sourceMatches_newChroot
    {kind : ChrootKind} {name : String} {u : Userdata} :
    SourceMatches (newChroot cfg kind name u) := by
  intro v hv
  have hmem : Facet.union v ∈ newFacets cfg kind u := mem_of_unionFacet? hv
  have hnone : v.unionType = "none" := isNew_newFacets _ hmem
  have hunion : FacetKind.union ∈ newFacetKinds cfg kind := by
    rw [← tags_newFacets (u := u)]
    exact List.mem_map_of_mem hmem
  rw [facetKinds_newChroot]
  simp [sourceClonable_notMem_newFacetKinds hunion, UnionFacet.configured, hnone]

theorem getFacet_setUnusedKeys
    {kind : FacetKind}
    (hkind : kind ≠ .userdata)
    (keys : List String) (c : Chroot) :
    (keys.foldl (setUnusedKey kf) c).getFacet kind = c.getFacet kind := by
  induction keys generalizing c with
  | nil => rfl
  | cons key keys ih =>
      rw [List.foldl_cons, ih]
      unfold setUnusedKey
      split
      · split
        · exact getFacet_updateFacet (f := .userdata _) hkind
        · rfl
      · rfl

/-- Valid keys of user data have dots, and a chroot of a file is not mountable. -/
theorem wellKeyed_of_data
    (hdata : DataInvariant c)
    (hfacets : (∀ b, c.kind ≠ .custom b) → HasTypeFacets cfg c) :
    WellKeyed c := by
  refine ⟨hdata.nodup, fun u hu e he => ?_, ?_⟩
  · have hkey : e.1 ∈ u.userdata := by
      rw [← Std.ExtTreeMap.mem_keys, ← Std.ExtTreeMap.map_fst_toList_eq_keys]
      exact List.mem_map_of_mem he
    exact dot_mem_of_validateKeyname ((hdata.named u hu).valid e.1 hkey)
  · rintro ⟨file, hfile⟩ hmount
    have hcustom : ∀ b, c.kind ≠ .custom b := fun b hb => by rw [hfile] at hb; cases hb
    rw [hfacets hcustom, hfile] at hmount
    simp [newKind, newFacetKinds, extraFacets, Facet.kind] at hmount

/-- A chroot that is no session keeps its name when it is read. -/
theorem name_setKeyfile
    {c' : Chroot}
    (hsession : c.isSession = false)
    (h : c.setKeyfile cfg kf = .ok c') :
    c'.name = c.name := by
  obtain ⟨d, e, f, used, hbase, -, hkeys, hfacets, rfl⟩ := setKeyfile_phases.mp h
  rw [hsession] at hbase
  rw [(facetFrame_setUnusedKeys kf (unusedKeys kf f.name used) f).rest,
    (setFacetsKeyfile_frame hfacets).1.rest, (typeFrame_typeKeys hkeys).name,
    (readKeys_baseKeys_frame hbase).2.2]
  rfl

/-- A chroot that is loaded has the name of its group. -/
theorem name_loadChroot
    (h : ChrootConfig.loadChroot cfg "chroot" kf group = .ok c) :
    c.name = group := by
  simp only [ChrootConfig.loadChroot, bind_eq_ok_iff, mapError_eq_ok_iff] at h
  obtain ⟨t, ht, hset⟩ := h
  obtain ⟨kind, u, -, -, -, -, rfl⟩ := createTemplate_eq_ok ht
  exact name_setKeyfile (isSession_newChroot _ _ _ _) hset

/-- **Every chroot that is loaded in the chroot namespace.** -/
theorem isLoaded_of_loadChroot
    (h : ChrootConfig.loadChroot cfg "chroot" kf group = .ok c) :
    IsLoaded cfg c := by
  have hnames := validNames_loadChroot h
  have hcname := name_loadChroot h
  have hreachable : Reachable cfg (fun _ _ => True) c :=
    reachable_loadChroot (fun _ _ => trivial) h
  have hdata : DataInvariant c := dataInvariant_of_reachable hreachable
  simp only [ChrootConfig.loadChroot, bind_eq_ok_iff, mapError_eq_ok_iff] at h
  obtain ⟨t, ht, hset⟩ := h
  obtain ⟨kind, u, hkind, hprofiled, hu, hmodifiable, htemplate⟩ := createTemplate_eq_ok ht
  have htreachable : Reachable cfg (fun _ _ => True) t := (reachable_createTemplate ht).1
  have htdata : DataInvariant t := dataInvariant_of_reachable htreachable
  have htlegible : Legible cfg t := by
    rw [htemplate]
    exact legible_newChroot hmodifiable
  have htprofile : ProfileInvariant t := by
    rw [htemplate]
    exact profileInvariant_newChroot hprofiled
  have htsession : t.isSession = false := by
    rw [htemplate]
    exact isSession_newChroot _ _ _ _
  have htkinds : t.facetKinds = newFacetKinds cfg kind := by
    rw [htemplate]
    exact facetKinds_newChroot
  have htmatches : SourceMatches t := by
    rw [htemplate]
    exact sourceMatches_newChroot
  have hlegible := htlegible.setKeyfile hset
  have hprofile := htprofile.setKeyfile htdata hset
  obtain ⟨d, e, f, used, hbase, hdirectory, hkeys, hfacets, hc⟩ := setKeyfile_phases.mp hset
  rw [htsession] at hbase
  -- the base class
  obtain ⟨hdkinds, -, -⟩ := readKeys_baseKeys_frame hbase
  have hdkind : d.kind = kind := by
    have hkept : d.kind = t.kind :=
      readKeys_keeps (R := fun x y => y.kind = x.kind) (fun _ => rfl)
        (fun _ _ _ hxy hyz => hyz.trans hxy)
        (fun _ hspec _ _ hget => (baseStep_of_get hspec hget).location.1) hbase
    rw [hkept, htemplate]
    rfl
  have hdsession : d.isSession = false := by
    rw [← htsession]
    exact hasFacet_eq_of_facetKinds hdkinds .session
  have hdmatches : SourceMatches d :=
    htmatches.of_union (unionFacet?_eq (getFacet_readBaseKeys (by decide) hbase)) hdkinds
  -- the type, the facets and what is left
  have htype := typeFrame_typeKeys hkeys
  have hframe := (setFacetsKeyfile_frame hfacets).1
  have hrest : FacetFrame f c := hc ▸ facetFrame_setUnusedKeys kf (unusedKeys kf f.name used) f
  have hckind : c.kind = e.kind := by rw [hrest.rest, hframe.rest]
  have hnew : newKind c.kind = kind := by
    refine (newKind_eq_of_typeName ?_).trans (newKind_of_kindOfType hkind)
    rw [hckind, htype.typeName, hdkind]
  have hcunion : c.unionFacet? = f.unionFacet? := by
    rw [hc]
    exact unionFacet?_eq (getFacet_setUnusedKeys (by decide) _ f)
  have htyped : (∀ b, c.kind ≠ .custom b) → KindOnly d e ∧ KindLegible e.kind := by
    intro hcustom
    refine kindLegible_typeKeys (hdkind ▸ hkind) (fun b hb => ?_) hdsession hdirectory hkeys
    have hname : c.kind.typeName = "custom" := by
      rw [hckind, htype.typeName, hb]
      rfl
    obtain ⟨b', hb'⟩ := newKind_of_typeName_custom.mpr hname
    exact hcustom b' hb'
  have hfacetKinds : (∀ b, c.kind ≠ .custom b) → HasTypeFacets cfg c := by
    intro hcustom k
    have hkindOnly := (htyped hcustom).1
    have hekinds : e.facetKinds = d.facetKinds := by rw [hkindOnly]; rfl
    have hematches : SourceMatches e :=
      hdmatches.of_union (by rw [hkindOnly]; rfl) hekinds
    have hnodup : e.facetKinds.Nodup := by
      rw [hekinds, hdkinds, htkinds]
      exact nodup_newFacetKinds
    rw [hrest.facetKinds, hcunion, hnew]
    exact hasTypeFacets_of_read (hekinds.trans (hdkinds.trans htkinds))
      (hematches.setFacetsKeyfile hnodup hfacets) hframe
      (fun hunion => facetKinds_setFacetsKeyfile hunion hfacets) k
  have hwell : WellKeyed c := wellKeyed_of_data hdata hfacetKinds
  refine ⟨⟨u, hprofiled, hu, hmodifiable, ?_⟩, ?_, hdata, hprofile, hnames, hlegible, ?_,
    hfacetKinds, ?_⟩
  · have hwritten := kindOfType_written hwell
    rw [hnew, hcname] at hwritten ⊢
    rw [createTemplate_congr hkind hwritten, ht, htemplate]
  · rw [← hdsession]
    show c.hasFacet .session = d.hasFacet .session
    rw [hasFacet_eq_of_facetKinds hrest.facetKinds, Bool.eq_iff_iff, hasFacet_iff, hasFacet_iff,
      hframe.mem _ (by decide), htype.mem _ (by decide) (by decide)]
  · by_cases hcustom : ∀ b, c.kind ≠ .custom b
    · rw [hckind]
      exact (htyped hcustom).2
    · obtain ⟨b, hb⟩ := not_forall_not.mp hcustom
      rw [hb]
      exact trivial
  · intro _ k hk hk'
    rw [hrest.facetKinds, hframe.mem k hk', htype.mem k hk hk', hdkinds, htkinds, hnew]

theorem IsLoaded.wellKeyed
    (hc : IsLoaded cfg c) :
    WellKeyed c :=
  wellKeyed_of_data hc.data hc.facets

end Loading

end Chroot

end Schroot
