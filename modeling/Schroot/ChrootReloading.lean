import Schroot.UserdataBack

/-!
# Loading a written chroot again

A chroot that was loaded is written and read into a new chroot of its type.  Every phase of
reading puts back what was there, and the chroot that comes out is written as the first one.

**Results.**
* `readKeys_baseKeys_written`, `setFacetsKeyfile_written`: the phases of reading.
* `facetEntries_rereadFacets`: what the facets that come out are written as.
-/

namespace Schroot

namespace Chroot

section Base

variable {cfg : SbuildConfig} {kind : ChrootKind} {name : String} {c : Chroot} {u v : Userdata}

theorem replace_newFacets :
    TaggedList.replace Facet.kind (.userdata v) (newFacets cfg kind u) = newFacets cfg kind v := by
  cases kind <;> rfl

theorem userdata?_newChroot (cfg : SbuildConfig) (kind : ChrootKind) (name : String) (u : Userdata) :
    (newChroot cfg kind name u).userdata? = some u := by
  have hget : (newChroot cfg kind name u).getFacet .userdata = some (.userdata u) :=
    userdata_newFacets
  rw [userdata?, hget]

/-- The chroot with another profile or script configuration, and other user data. -/
def withProfile (x : Chroot) (profile scriptConfig : String) (u : Userdata) : Chroot :=
  ({ x with profile := profile, scriptConfig := scriptConfig } : Chroot).updateFacet (.userdata u)

/-- Where the data is that of a profile, another profile can be set. -/
theorem exists_setProfile
    {x : Chroot}
    (profile : String)
    (hx : x.userdata? = some u)
    (hu : u.FromProfile) :
    ∃ v, v.FromProfile ∧ setProfile profile x = .ok (x.withProfile profile x.scriptConfig v) := by
  obtain ⟨v, hv⟩ := Userdata.exists_setProfileData (fun key hkey => (hu.keys key).mpr hkey) profile
  obtain ⟨hkeys, henv, -⟩ := Userdata.setProfileData_eq_ok hv
  refine ⟨v, ⟨fun key => ?_, henv hu.env⟩, ?_⟩
  · rw [hkeys, hu.keys]
    exact or_self_iff
  · have hdata : ({ x with profile := profile } : Chroot).userdata? = some u := hx
    simp only [setProfile, hdata, hv, bind, Except.bind]
    rfl

/-- A script configuration takes the keys of the profile away. -/
theorem setScriptConfig_withProfile
    {x : Chroot}
    (profile scriptConfig : String)
    (hx : x.userdata? = some u) :
    setScriptConfig scriptConfig (x.withProfile profile x.scriptConfig v) =
      x.withProfile "" scriptConfig v.removeProfile := by
  have hdata : ({ x.withProfile profile x.scriptConfig v with
      profile := "", scriptConfig := scriptConfig } : Chroot).userdata? = some v :=
    userdata?_updateFacet (c := { x with profile := profile }) hx v
  have hfacets : TaggedList.replace Facet.kind (.userdata v.removeProfile)
      (TaggedList.replace Facet.kind (.userdata v) x.facets) =
        TaggedList.replace Facet.kind (.userdata v.removeProfile) x.facets :=
    TaggedList.replace_replace (x := Facet.userdata v) (y := .userdata v.removeProfile) rfl _
  simp only [setScriptConfig, hdata]
  exact congrArg (fun facets =>
    ({ x with profile := "", scriptConfig := scriptConfig, facets := facets } : Chroot)) hfacets

/-- **The base class is read back**, and leaves user data that the keys of the chroot can be set
in. -/
theorem readKeys_baseKeys_userdata
    {kf : Keyfile} {x : Chroot} {u₀ : Userdata}
    (session : Bool)
    (hkf : HasValues kf c)
    (hc : WellKeyed c)
    (hdata : DataInvariant c)
    (hinvariant : ProfileInvariant c)
    (hsession : c.isSession = session)
    (hlists : AllItems c.groups ∧ AllItems c.rootGroups ∧ AllItems c.commandPrefix)
    (haliases : ∀ a ∈ c.aliases, isValidSessionname a = true)
    (hfilter : c.environmentFilter ≠ "")
    (hline : SingleLine c.environmentFilter)
    (hregex : cfg.regexValid c.environmentFilter = true)
    (hlocation : session = true → c.mountLocation = "" ∨ isAbsname c.mountLocation = true)
    (hvalid : session = true → ':' ∉ c.name.toList ∧ isValidSessionname c.name = true)
    (hu : c.userdata? = some u)
    (hprofile : c.scriptConfig = "" → u.HasProfile)
    (hname : x.name = c.name)
    (hscript : x.scriptConfig = "")
    (hx : x.userdata? = some u₀)
    (hu₀ : u₀.FromProfile) :
    ∃ v, Refillable u v ∧ readKeys kf (baseKeys cfg session) x =
      .ok { withBase c (x.withProfile c.profile c.scriptConfig v) with
        users := splitString (joinStrings ',' c.users) ","
        rootUsers := splitString (joinStrings ',' c.rootUsers) ","
        mountLocation := if session then c.mountLocation else x.mountLocation } := by
  obtain ⟨w, hw, hset⟩ := exists_setProfile c.profile hx hu₀
  have hread := readKeys_baseKeys (y := x.withProfile c.profile x.scriptConfig w) session hkf hc
    hsession hlists haliases
    (fun a ha => isListItem_of_isValidSessionname (haliases a ha)) hfilter hline hregex hlocation
    hvalid hname hname hset
  rw [hread]
  by_cases hempty : c.scriptConfig = ""
  · refine ⟨w, refillable_of_hasProfile hw (hdata.named u (mem_of_userdata? hu)) (hprofile hempty),
      ?_⟩
    rw [if_pos hempty, hscript, hempty]
    rfl
  · obtain ⟨-, hfree⟩ := hinvariant.data u (mem_of_userdata? hu)
    refine ⟨w.removeProfile, refillable_of_freeOfProfile hw (hfree hempty), ?_⟩
    rw [if_neg hempty, setScriptConfig_withProfile _ _ hx, hinvariant.profile hempty]
    rfl

/-- The chroot that is read, after the base class. -/
def rereadBase (cfg : SbuildConfig) (c : Chroot) (v : Userdata) : Chroot :=
  withBase c { newChroot cfg (newKind c.kind) c.name v with
    profile := c.profile
    scriptConfig := c.scriptConfig }

/-- What is left of a new chroot. -/
theorem readKeys_baseKeys_written
    {u₀ : Userdata}
    (hc : IsLoaded cfg c)
    (hu : c.userdata? = some u)
    (hprofile : c.scriptConfig = "" → u.HasProfile)
    (hfilter : c.environmentFilter ≠ "")
    (hu₀ : u₀.FromProfile) :
    ∃ v, Refillable u v ∧
      readKeys (c.getKeyfile .empty) (baseKeys cfg false)
        (newChroot cfg (newKind c.kind) c.name u₀) = .ok (rereadBase cfg c v) := by
  obtain ⟨v, hv, hread⟩ := readKeys_baseKeys_userdata
    (x := newChroot cfg (newKind c.kind) c.name u₀) false (value?_getKeyfile c) hc.wellKeyed
      hc.data hc.profile hc.session
    ⟨hc.legible.groups, hc.legible.rootGroups, hc.legible.commandPrefix⟩ hc.names.aliases hfilter
    hc.legible.singleLine hc.legible.regexValid (fun h => by cases h) (fun h => by cases h) hu
    hprofile rfl rfl (userdata?_newChroot cfg (newKind c.kind) c.name u₀) hu₀
  refine ⟨v, hv, ?_⟩
  rw [hread, splitString_joinStrings hc.legible.users, splitString_joinStrings hc.legible.rootUsers]
  exact congrArg (fun facets => Except.ok { rereadBase cfg c v with facets := facets })
    replace_newFacets

end Base

section Phases

variable {cfg : SbuildConfig} {c : Chroot} {u v : Userdata}

theorem findsType_written
    {x : Chroot}
    (hc : IsLoaded cfg c)
    (hname : x.name = c.name) :
    FindsType (c.getKeyfile .empty) c x := by
  constructor
  · rw [hname]
    exact fun hmem => (show HasValues _ c from value?_getKeyfile c).of_mem_type hc.wellKeyed hmem
  · rw [hname]
    exact fun hkey hnone =>
      (show HasValues _ c from value?_getKeyfile c).type_none hc.wellKeyed hkey hnone

/-- **The type is read back**, unless it is a ZFS snapshot. -/
theorem readKeys_typeKeys_written
    (hc : IsLoaded cfg c)
    (hfacets : HasTypeFacets cfg c)
    (hzfs : ∀ s, c.kind ≠ .zfsSnapshot s) :
    requireDirectory (c.getKeyfile .empty) (rereadBase cfg c v) = .ok () ∧
      readKeys (c.getKeyfile .empty) (typeKeys (c.getKeyfile .empty) (rereadBase cfg c v))
        (rereadBase cfg c v) = .ok { rereadBase cfg c v with kind := c.kind } := by
  have hvalues : HasValues (c.getKeyfile .empty) c := value?_getKeyfile c
  have hother : ∀ {key}, key ∉ plainKeyNames → ¬ IsDotted key →
      (c.getKeyfile .empty).value? c.name key = none :=
    fun hplain hdotted => hvalues.other_none hc.wellKeyed hplain hdotted
  refine readKeys_typeKeys (findsType_written hc rfl) hc.session hc.kindLegible hzfs
    (fun d hd => ?_)
    (fun b _ => ⟨hother (by decide) (by decide), hother (by decide) (by decide)⟩)
    (isSession_newChroot cfg (newKind c.kind) c.name v) rfl
  refine hvalues.location_none hc.wellKeyed (fun f hf => ?_) fun hmount => ?_
  · rcases hd with hd | hd <;> rw [hf] at hd <;> cases hd
  · rw [hfacets] at hmount
    rcases hd with hd | hd <;> simp [hd, newKind, newFacetKinds, extraFacets, newUnion,
      Facet.kind] at hmount

theorem length_newFacets (cfg : SbuildConfig) (kind : ChrootKind) (u : Userdata) :
    (newFacets cfg kind u).length +
      (if TaggedList.has Facet.kind .union (newFacets cfg kind u) then 1 else 0) ≤ facetFuel := by
  cases kind <;> simp [newFacets, extraFacets, newUnion, TaggedList.has, Facet.kind, facetFuel]

/-- What the facets of the chroot are after they are read. -/
def rereadFacets (cfg : SbuildConfig) (c : Chroot) (v : Userdata) : List Facet :=
  (newFacets cfg (newKind c.kind) v).map (reread c) ++
    addedSource c (newFacets cfg (newKind c.kind) v)

/-- **The facets are read back.** -/
theorem setFacetsKeyfile_written
    {x : Chroot}
    (used : List String)
    (hc : IsLoaded cfg c)
    (hfacets : HasTypeFacets cfg c)
    (hx : x.facets = newFacets cfg (newKind c.kind) v)
    (hname : x.name = c.name) :
    ∃ more, setFacetsKeyfile (c.getKeyfile .empty) facetFuel x.facets x used =
      .ok (x.withFacets (rereadFacets cfg c v), used ++ more) ∧ Undotted more := by
  have hahead : Ahead c [] (newFacets cfg (newKind c.kind) v) := by
    refine ⟨?_, isNew_newFacets, fun f hf => ?_, ?_, fun hunion => ?_⟩
    · rw [List.nil_append, tags_newFacets]
      exact nodup_newFacetKinds
    · rw [hfacets]
      exact .inl (tags_newFacets (u := v) ▸ List.mem_map_of_mem hf)
    · rw [List.nil_append, tags_newFacets]
      exact session_notMem_newFacetKinds
    · rw [tags_newFacets] at hunion
      rw [List.nil_append, tags_newFacets]
      exact sourceClonable_notMem_newFacetKinds hunion
  have hclonable : c.unionFacet?.any UnionFacet.configured = true →
      ∃ s, c.sourceClonable? = some s := by
    intro hany
    obtain ⟨f, hf, hkind⟩ := exists_getFacet ((hfacets .sourceClonable).mpr (.inr ⟨rfl, hany⟩))
    cases f <;> simp [Facet.kind] at hkind
    exact ⟨_, by rw [sourceClonable?, hf]⟩
  have hself : x.withFacets ([] ++ newFacets cfg (newKind c.kind) v) = x := by
    rw [List.nil_append, ← hx]
    rfl
  have hloop := setFacetsKeyfile_new (x := x) (value?_getKeyfile c) hc.wellKeyed hc.session
    hc.legible.facets hclonable hname used (length_newFacets cfg (newKind c.kind) v) hahead
  rw [hself] at hloop
  rw [hx]
  exact hloop

end Phases

section Facets

variable {cfg : SbuildConfig} {c : Chroot} {u v : Userdata}

/-- **A facet that is read back is written as before**; the user data is read later. -/
theorem facetEntries_reread
    {f g : Facet}
    (hnew : IsNew g)
    (hf : c.getFacet g.kind = some f)
    (hdata : g.kind ≠ .userdata) :
    facetEntries false (reread c g) = facetEntries false f := by
  have hkind := (mem_of_getFacet hf).2
  cases g with
  | personality p =>
      cases f <;> simp only [Facet.kind, reduceCtorEq] at hkind
      rename_i q
      have hp : c.persona? = some q := by rw [persona?, show c.getFacet .personality = _ from hf]
      simp [reread, hp]
  | userdata => exact absurd rfl hdata
  | session => exact hnew.elim
  | sourceClonable t =>
      cases f <;> simp only [Facet.kind, reduceCtorEq] at hkind
      rename_i s
      have hs : c.sourceClonable? = some s := by
        rw [sourceClonable?, show c.getFacet .sourceClonable = _ from hf]
      simp [reread, hs]
  | union w =>
      cases f <;> simp only [Facet.kind, reduceCtorEq] at hkind
      rename_i z
      have hz : c.unionFacet? = some z := by
        rw [unionFacet?, show c.getFacet .union = _ from hf]
      by_cases hconfigured : z.configured = true
      · simp [reread, hz, Option.filter, hconfigured]
      · have hnone : z.unionType = "none" := by simpa [UnionFacet.configured] using hconfigured
        have hw : w.unionType = "none" := hnew
        simp [reread, hz, Option.filter, UnionFacet.configured, hnone, facetEntries, hw]
  | mountable n =>
      cases f <;> simp only [Facet.kind, reduceCtorEq] at hkind
      rename_i m
      have hm : c.mountable? = some m := by
        rw [mountable?, show c.getFacet .mountable = _ from hf]
      simp [reread, hm, facetEntries, entryIf]
  | sessionClonable | source =>
      cases f <;> simp only [Facet.kind, reduceCtorEq] at hkind
      rfl

theorem get?_map_reread (kind : FacetKind) (facets : List Facet) :
    TaggedList.get? Facet.kind kind (facets.map (reread c)) =
      (TaggedList.get? Facet.kind kind facets).map (reread c) := by
  rw [TaggedList.get?, TaggedList.get?, List.find?_map]
  congr 2
  funext f
  simp [kind_reread]

theorem get?_addedSource_ne
    {kind : FacetKind}
    (h : kind ≠ .sourceClonable)
    (rest : List Facet) :
    TaggedList.get? Facet.kind kind (addedSource c rest) = none := by
  refine List.find?_eq_none.mpr fun f hf hk => h ?_
  unfold addedSource at hf
  split at hf
  · obtain ⟨s, -, rfl⟩ := List.mem_map.mp hf
    exact (of_decide_eq_true hk).symm
  · cases hf

/-- The source-clonable facet that a union brings. -/
theorem get?_addedSource
    (hfacets : HasTypeFacets cfg c)
    (hnot : .sourceClonable ∉ newFacetKinds cfg (newKind c.kind)) :
    TaggedList.get? Facet.kind .sourceClonable (addedSource c (newFacets cfg (newKind c.kind) v)) =
      c.getFacet .sourceClonable := by
  by_cases hany : c.unionFacet?.any UnionFacet.configured = true
  · have hunion : TaggedList.has Facet.kind .union (newFacets cfg (newKind c.kind) v) = true := by
      obtain ⟨w, hw, -⟩ := (Option.any_eq_true _ _).mp hany
      rw [TaggedList.has_iff_mem_tags, tags_newFacets]
      exact ((hfacets .union).mp (mem_facetKinds_of_unionFacet? hw)).resolve_right (by simp)
    obtain ⟨f, hf, hkind⟩ := exists_getFacet ((hfacets .sourceClonable).mpr (.inr ⟨rfl, hany⟩))
    cases f <;> simp [Facet.kind] at hkind
    rename_i s
    have hs : c.sourceClonable? = some s := by rw [sourceClonable?, hf]
    simp [addedSource, hunion, hany, hs, hf, TaggedList.get?, Facet.kind]
  · have hnone : c.getFacet .sourceClonable = none := by
      refine getFacet_none fun hm => ?_
      rcases (hfacets _).mp hm with hm | ⟨-, hm⟩
      · exact hnot hm
      · exact hany hm
    simp [addedSource, hany, hnone, TaggedList.get?]

/-- **What the facets write** once they are read back. -/
theorem facetEntries_rereadFacets
    {kind : FacetKind}
    (hfacets : HasTypeFacets cfg c)
    (hdata : kind ≠ .userdata) :
    (TaggedList.get? Facet.kind kind (rereadFacets cfg c v)).map (facetEntries false) =
      (c.getFacet kind).map (facetEntries false) := by
  rw [rereadFacets, TaggedList.get?_append, get?_map_reread]
  by_cases hmem : kind ∈ newFacetKinds cfg (newKind c.kind)
  · have hhas : TaggedList.has Facet.kind kind (newFacets cfg (newKind c.kind) v) = true := by
      rw [TaggedList.has_iff_mem_tags, tags_newFacets]
      exact hmem
    rw [TaggedList.has_eq_isSome_get?] at hhas
    obtain ⟨g, hg⟩ := Option.isSome_iff_exists.mp hhas
    have hkind : g.kind = kind := by simpa using List.find?_some hg
    subst hkind
    obtain ⟨f, hf, -⟩ := exists_getFacet ((hfacets g.kind).mpr (.inl hmem))
    have hentries := facetEntries_reread (isNew_newFacets g (List.mem_of_find?_eq_some hg)) hf hdata
    rw [hg, hf, Option.map_some, Option.some_or, Option.map_some, Option.map_some, hentries]
  · have hnone : TaggedList.get? Facet.kind kind (newFacets cfg (newKind c.kind) v) = none := by
      rw [← Option.not_isSome_iff_eq_none, ← TaggedList.has_eq_isSome_get?,
        TaggedList.has_iff_mem_tags, tags_newFacets]
      exact hmem
    rw [hnone, Option.map_none, Option.none_or]
    by_cases hsource : kind = .sourceClonable
    · subst hsource
      rw [get?_addedSource hfacets hmem]
    · have hno : kind ∉ c.facetKinds := fun hm => by
        rcases (hfacets kind).mp hm with hm | ⟨hm, -⟩
        · exact hmem hm
        · exact hsource hm
      rw [get?_addedSource_ne hsource, getFacet_none hno]

/-- The user data before the keys that are left are set. -/
theorem userdata_rereadFacets
    (hu : c.userdata? = some u) :
    TaggedList.get? Facet.kind .userdata (rereadFacets cfg c v) =
      some (.userdata { v with
        userModifiableKeys := u.userModifiableKeys
        rootModifiableKeys := u.rootModifiableKeys }) := by
  rw [rereadFacets, TaggedList.get?_append, get?_map_reread, userdata_newFacets]
  simp [reread, hu]

end Facets

end Chroot

end Schroot
