import Schroot.ChrootReloading
import Schroot.SourceNames

/-!
# Which chroots can be written and loaded again

Loading what a chroot has written gives a chroot that is written in the same way and has the same
session flags, with four exceptions.  A ZFS snapshot writes its dataset under a key that is not
read, a custom chroot does not write which facets it has, a chroot whose profile was replaced by
an empty script configuration gets the data of the profile back, and an environment filter that
is empty is not read.

**Results.**
* `setKeyfile_written`: what comes out when the written chroot is read.
* `reloads_iff`: the chroots that come back are those without the exceptions.
-/

namespace Schroot

namespace Chroot

section Writing

variable {cfg : SbuildConfig} {c c' : Chroot} {u : Userdata}

/-- **What a chroot has to be like to come back** when it is written and loaded. -/
structure Writable (c : Chroot) : Prop where
  zfs : ∀ s, c.kind ≠ .zfsSnapshot s
  custom : (∃ b, c.kind = .custom b) →
    .sessionClonable ∈ c.facetKinds ∧ .sourceClonable ∉ c.facetKinds
  profile : c.scriptConfig = "" → ∀ u, c.userdata? = some u → u.HasProfile
  filter : c.environmentFilter ≠ ""

/-- The same as a test. -/
def isWritable (c : Chroot) : Bool :=
  decide (c.kind.typeName ≠ "zfs-snapshot") &&
    (decide (c.kind.typeName ≠ "custom") ||
      c.hasFacet .sessionClonable && !c.hasFacet .sourceClonable) &&
    (decide (c.scriptConfig ≠ "") ||
      c.userdata?.all fun u => Userdata.profileKeys.all fun key => u.userdata.contains key) &&
    decide (c.environmentFilter ≠ "")

theorem isWritable_iff : c.isWritable = true ↔ Writable c := by
  have hzfs : c.kind.typeName ≠ "zfs-snapshot" ↔ ∀ s, c.kind ≠ .zfsSnapshot s := by
    cases c.kind <;> simp [ChrootKind.typeName]
  have hprofile : (c.userdata?.all fun u =>
      Userdata.profileKeys.all fun key => u.userdata.contains key) = true ↔
        ∀ u, c.userdata? = some u → u.HasProfile := by
    cases c.userdata? with
    | none => simp
    | some u => simp [Userdata.HasProfile]
  simp only [isWritable, Bool.and_eq_true, Bool.or_eq_true, decide_eq_true_eq, Bool.not_eq_true',
    ← Bool.not_eq_true, hasFacet_iff, hzfs, hprofile]
  constructor
  · rintro ⟨⟨⟨hz, hc⟩, hp⟩, hf⟩
    exact ⟨hz, fun hk => hc.resolve_left fun hne => hne (newKind_of_typeName_custom.mp hk),
      fun hs => hp.resolve_left fun hne => hne hs, hf⟩
  · rintro ⟨hz, hc, hp, hf⟩
    refine ⟨⟨⟨hz, ?_⟩, ?_⟩, hf⟩
    · exact or_iff_not_imp_left.mpr fun hne => hc (newKind_of_typeName_custom.mpr (not_not.mp hne))
    · exact or_iff_not_imp_left.mpr fun hne => hp (not_not.mp hne)

instance : DecidablePred Writable :=
  fun _ => decidable_of_iff _ isWritable_iff

/-- The facets of a custom chroot are those of a new one, too. -/
theorem IsLoaded.hasTypeFacets
    (hc : IsLoaded cfg c)
    (hcustom : (∃ b, c.kind = .custom b) →
      .sessionClonable ∈ c.facetKinds ∧ .sourceClonable ∉ c.facetKinds) :
    HasTypeFacets cfg c := by
  by_cases hkind : ∃ b, c.kind = .custom b
  · obtain ⟨hsession, hsource⟩ := hcustom hkind
    have hkinds := hc.custom hkind
    obtain ⟨b, hb⟩ := hkind
    have hunion : c.unionFacet?.any UnionFacet.configured = false := by
      cases hu : c.unionFacet? with
      | none => rfl
      | some w =>
          have hmem := mem_facetKinds_of_unionFacet? hu
          rw [hkinds _ (by decide) (by decide), hb] at hmem
          simp [newKind, newFacetKinds, extraFacets] at hmem
    intro k
    rw [hunion]
    by_cases hk : k = .sessionClonable
    · subst hk
      simp [hsession, hb, newKind, newFacetKinds]
    · by_cases hk' : k = .sourceClonable
      · subst hk'
        simp [hsource, hb, newKind, newFacetKinds, extraFacets]
      · rw [hkinds k hk hk']
        simp
  · exact hc.facets fun b hb => hkind ⟨b, hb⟩

/-- The chroots write the same, with the data of the base class and the type alike and facets
that write the same. -/
structure SameWriting (c c' : Chroot) : Prop where
  name : c'.name = c.name
  base : c'.baseEntries = c.baseEntries
  type : c'.typeEntries = c.typeEntries
  facets : ∀ kind, (c'.getFacet kind).map (facetEntries c'.isSession) =
    (c.getFacet kind).map (facetEntries c.isSession)

/-- **They are written as the same keyfile.** -/
theorem SameWriting.getKeyfile
    (h : SameWriting c c')
    (hc : WellKeyed c)
    (hc' : WellKeyed c') :
    c'.getKeyfile .empty = c.getKeyfile .empty := by
  have hvalues : c'.writtenValues = c.writtenValues := by
    apply Std.ExtTreeMap.ext_getElem?
    intro key
    rw [writtenValues_eq_lookup hc', writtenValues_eq_lookup hc, h.base, h.type]
    congr 2
    by_cases hkey : ∃ kind, OwnsKey kind key
    · obtain ⟨kind, hkind⟩ := hkey
      have hbind := congrArg (fun entries => entries.bind (SortedMap.lookup key)) (h.facets kind)
      simp only [Option.bind_map] at hbind
      rw [lookup_facets hc'.nodup hc'.dotted hkind, lookup_facets hc.nodup hc.dotted hkind]
      exact hbind
    · rw [lookup_facetEntries_none hc' fun kind _ hkind => hkey ⟨kind, hkind⟩,
        lookup_facetEntries_none hc fun kind _ hkind => hkey ⟨kind, hkind⟩]
  rw [getKeyfile_empty, getKeyfile_empty, h.name, hvalues]

theorem SameWriting.hasFacet
    (h : SameWriting c c')
    (kind : FacetKind) :
    c'.hasFacet kind = c.hasFacet kind := by
  have hsome := congrArg Option.isSome (h.facets kind)
  rw [Option.isSome_map, Option.isSome_map] at hsome
  rw [Chroot.hasFacet, Chroot.hasFacet, TaggedList.has_eq_isSome_get?,
    TaggedList.has_eq_isSome_get?]
  exact hsome

/-- The flags of a chroot that is no session. -/
theorem getSessionFlags_of_isSession
    (h : c.isSession = false) :
    c.getSessionFlags =
      { create := c.hasFacet .sessionClonable, clone := c.hasFacet .sourceClonable } := by
  have hfold : ∀ (facets : List Facet) (flags : SessionFlags), (∀ f ∈ facets, f.kind ≠ .session) →
      facets.foldl (fun flags f => flags.or (c.facetFlags f)) flags =
        { flags with
          create := flags.create || TaggedList.has Facet.kind .sessionClonable facets
          clone := flags.clone || TaggedList.has Facet.kind .sourceClonable facets } := by
    intro facets
    induction facets with
    | nil => simp [TaggedList.has]
    | cons f facets ih =>
        intro flags hno
        rw [List.foldl_cons, ih _ fun g hg => hno g (List.mem_cons_of_mem f hg)]
        have hf := hno f List.mem_cons_self
        cases f <;>
          simp [facetFlags, SessionFlags.or, TaggedList.has, Facet.kind, h] at hf ⊢
  have hno : ∀ f ∈ c.facets, f.kind ≠ .session := by
    intro f hf hk
    have hmem : .session ∈ c.facetKinds := hk ▸ List.mem_map_of_mem hf
    rw [isSession_iff.mpr hmem] at h
    cases h
  have htype : c.typeFlags = {} := by
    unfold typeFlags
    cases c.kind <;> simp [h]
  rw [getSessionFlags, hfold c.facets _ hno, htype]
  simp [Chroot.hasFacet]

/-- **The flags of chroots that write the same.** -/
theorem SameWriting.getSessionFlags
    (h : SameWriting c c')
    (hsession : c.isSession = false) :
    c'.getSessionFlags = c.getSessionFlags := by
  have hsession' : c'.isSession = false := (h.hasFacet .session).trans hsession
  rw [getSessionFlags_of_isSession hsession, getSessionFlags_of_isSession hsession', h.hasFacet,
    h.hasFacet]

/-- **A chroot that is written and read comes back**, unless it is one of the exceptions. -/
theorem setKeyfile_written
    {u₀ : Userdata}
    (hc : IsLoaded cfg c)
    (hw : Writable c)
    (hu₀ : u₀.FromProfile) :
    ∃ c', (newChroot cfg (newKind c.kind) c.name u₀).setKeyfile cfg (c.getKeyfile .empty) =
      .ok c' ∧ SameWriting c c' := by
  have hfacets := hc.hasTypeFacets hw.custom
  obtain ⟨u, hu⟩ := exists_userdata hc.profile.present
  obtain ⟨v, hv, hbase⟩ := readKeys_baseKeys_written hc hu (fun hs => hw.profile hs u hu) hw.filter
    hu₀
  obtain ⟨hdirectory, htype⟩ := readKeys_typeKeys_written (v := v) hc hfacets hw.zfs
  obtain ⟨more, hread, hmore⟩ := setFacetsKeyfile_written (v := v)
    (x := { rereadBase cfg c v with kind := c.kind })
    (usedKeys cfg (c.getKeyfile .empty) (newChroot cfg (newKind c.kind) c.name u₀)
      (rereadBase cfg c v)) hc hfacets rfl rfl
  obtain ⟨f, hf⟩ : ∃ f : Chroot, f =
      withFacets { rereadBase cfg c v with kind := c.kind } (rereadFacets cfg c v) := ⟨_, rfl⟩
  rw [← hf] at hread
  obtain ⟨used, hused⟩ : ∃ used, used =
      usedKeys cfg (c.getKeyfile .empty) (newChroot cfg (newKind c.kind) c.name u₀)
        (rereadBase cfg c v) ++ more := ⟨_, rfl⟩
  have hno : NoUserdata used := by
    rw [hused]
    exact noUserdata_append (noUserdata_usedKeys _ _ _ _) (noUserdata_of_undotted hmore)
  have hname : f.name = c.name := by
    rw [hf]
    rfl
  obtain ⟨c', hc'⟩ : ∃ c', c' =
      (unusedKeys (c.getKeyfile .empty) f.name used).foldl (setUnusedKey (c.getKeyfile .empty)) f :=
    ⟨_, rfl⟩
  have hrest : FacetFrame f c' := hc' ▸ facetFrame_setUnusedKeys _ _ f
  -- the user data is set again, and the other facets stay
  have hdata : ∃ u', c'.userdata? = some u' ∧ u'.userdata = u.userdata ∧
      u'.userModifiableKeys = u.userModifiableKeys ∧
        u'.rootModifiableKeys = u.rootModifiableKeys := by
    have hget : f.getFacet .userdata = some (.userdata { v with
        userModifiableKeys := u.userModifiableKeys
        rootModifiableKeys := u.rootModifiableKeys }) := by
      rw [hf]
      exact userdata_rereadFacets hu
    have hfdata : f.userdata? = some { v with
        userModifiableKeys := u.userModifiableKeys
        rootModifiableKeys := u.rootModifiableKeys } := by
      rw [userdata?, hget]
    have hrefill := refill_written { v with
        userModifiableKeys := u.userModifiableKeys
        rootModifiableKeys := u.rootModifiableKeys } used (value?_getKeyfile c) hc.wellKeyed
      hc.data hu
      ⟨hv.sub, hv.env⟩ hno
    refine ⟨_, ?_, hrefill, Userdata.keys_refill _ _⟩
    rw [hc', userdata?_setUnusedKeys hfdata, hname]
  have hother : ∀ kind, kind ≠ .userdata →
      (c'.getFacet kind).map (facetEntries false) = (c.getFacet kind).map (facetEntries false) := by
    intro kind hkind
    rw [hc', getFacet_setUnusedKeys hkind, hf]
    exact facetEntries_rereadFacets hfacets hkind
  have hsession : c'.isSession = false := by
    have hsome := congrArg Option.isSome (hother .session (by decide))
    rw [Option.isSome_map, Option.isSome_map] at hsome
    rw [← hc.session, isSession, isSession, hasFacet, hasFacet, TaggedList.has_eq_isSome_get?,
      TaggedList.has_eq_isSome_get?]
    exact hsome
  refine ⟨c', setKeyfile_phases.mpr ⟨_, _, f, used, ?_, hdirectory, htype, ?_, hc'⟩, ?_⟩
  · rw [isSession_newChroot]
    exact hbase
  · rw [hused]
    exact hread
  · refine ⟨?_, ?_, ?_, fun kind => ?_⟩
    · rw [hrest.rest, hf]
      rfl
    · unfold baseEntries
      rw [hsession, hc.session, hrest.rest, hf]
      rfl
    · unfold typeEntries
      rw [hsession, hc.session, hrest.rest, hf]
      rfl
    · rw [hsession, hc.session]
      by_cases hkind : kind = .userdata
      · subst hkind
        obtain ⟨u', hu', hsame, huser, hroot⟩ := hdata
        rw [getFacet_of_userdata? hu', getFacet_of_userdata? hu]
        simp [facetEntries, hsame, huser, hroot]
      · exact hother kind hkind

end Writing

section Sources

variable {cfg : SbuildConfig} {c : Chroot}

theorem exists_ensureUnion (cfg : SbuildConfig) (c : Chroot) :
    ∃ c', c.ensureUnion cfg = .ok c' ∧ c'.aliases = c.aliases := by
  unfold ensureUnion
  by_cases hunion : c.hasFacet .union = true
  · exact ⟨c, if_pos hunion, rfl⟩
  · refine ⟨{ c with facets := c.facets ++ [newUnion cfg] }, ?_, rfl⟩
    rw [if_neg hunion, addFacet_eq_ok_iff]
    exact ⟨fun hm => hunion ((hasFacet_iff c _).mpr hm), rfl⟩

/-- The copy of a loaded chroot that a source chroot starts from. -/
theorem IsLoaded.exists_sourceCopy
    (hc : IsLoaded cfg c) :
    ∃ c', c.sourceCopy cfg = .ok c' ∧ c'.aliases = c.aliases := by
  unfold sourceCopy
  split
  · rename_i s _
    exact exists_ensureUnion cfg { c with kind := .blockDevice s.device }
  · rename_i s hk
    have hlegible := hc.kindLegible
    rw [hk] at hlegible
    obtain ⟨d, hd, haliases⟩ := exists_ensureUnion cfg { c with kind := .directory "" }
    refine ⟨{ d with kind := .directory s.sourceSubvolume }, ?_, haliases⟩
    simp [directoryOfBtrfs, hd, checkAbs_of_isAbsname hlegible.1, bind, Except.bind, pure,
      Except.pure]
  · refine ⟨c.copy, rfl, ?_⟩
    unfold copy
    split <;> rfl

/-- **A loaded chroot can be cloned as its source chroot**, if it has one. -/
theorem IsLoaded.exists_cloneSource
    (hc : IsLoaded cfg c) :
    ∃ source, c.cloneSource cfg = .ok source := by
  have hsource : .source ∉ c.facetKinds := by
    have hnew : .source ∉ newFacetKinds cfg (newKind c.kind) := by
      cases newKind c.kind <;> simp [newFacetKinds, extraFacets, newUnion, Facet.kind]
    by_cases hcustom : ∃ b, c.kind = .custom b
    · rw [hc.custom hcustom _ (by decide) (by decide)]
      exact hnew
    · rw [hc.facets (fun b hb => hcustom ⟨b, hb⟩)]
      simpa using hnew
  unfold cloneSource
  split
  · exact ⟨none, rfl⟩
  · exact ⟨none, rfl⟩
  · rename_i s _ _
    obtain ⟨d, hd, haliases⟩ := hc.exists_sourceCopy
    have hfree : .source ∉ (d.facetKinds.erase .union).erase .sourceClonable := by
      rw [(facetKinds_sourceCopy hd).1]
      exact fun hm => hsource (List.mem_of_mem_erase (List.mem_of_mem_erase hm))
    have hvalid : ∀ a ∈ d.aliases, isValidSessionname a = true := by
      rw [haliases]
      exact hc.names.aliases
    have hsetup : ∃ e, cloneSourceSetup s d = .ok e := by
      simp only [cloneSourceSetup, setAliases_of_valid hvalid, bind, Except.bind]
      refine ⟨_, addFacet_eq_ok_iff.mpr ⟨?_, rfl⟩⟩
      rw [facetKinds_removeFacet, facetKinds_removeFacet]
      exact hfree
    obtain ⟨e, he⟩ := hsetup
    simp only [hd, he, bind, Except.bind]
    split
    · exact ⟨_, rfl⟩
    · exact ⟨_, rfl⟩

end Sources

end Chroot

namespace ChrootConfig

section Loading

variable {cfg : SbuildConfig} {kf : Keyfile} {conf : ChrootConfig} {ns : String} {c : Chroot}

/-- A chroot with a new name can be added. -/
theorem exists_add
    (kf : Keyfile)
    (hns : conf.namespaces[ns]?.isSome = true)
    (hfresh : conf.findChroot ns c.name = none)
    (halias : conf.aliases[qualified ns c.name]? = none) :
    ∃ conf', conf.add ns c kf = .ok conf' := by
  obtain ⟨chroots, hchroots⟩ := Option.isSome_iff_exists.mp hns
  have hnone : chroots[c.name]? = none := by
    simpa [findChroot, hchroots] using hfresh
  simp only [add, findNamespace, hchroots, Except.mapError, bind, Except.bind, hnone, halias]
  exact ⟨_, rfl⟩

theorem exists_loadSource
    (hc : c.IsLoaded cfg) :
    ∃ source, loadSource cfg c = .ok source ∧ ∀ s, source = some s → s.name = c.name := by
  obtain ⟨source, hsource⟩ := hc.exists_cloneSource
  unfold loadSource
  split
  · split
    · refine ⟨source, mapError_eq_ok_iff.mpr hsource, fun s hs => ?_⟩
      subst hs
      exact (Chroot.sameNames_cloneSource hsource).1
    · exact ⟨none, rfl, fun _ hs => by cases hs⟩
  · exact ⟨none, rfl, fun _ hs => by cases hs⟩

/-- **A keyfile of one chroot is loaded** into a new configuration if the chroot is. -/
theorem exists_loadKeyfile
    (hgroups : kf.getGroups = [c.name])
    (hload : loadChroot cfg "chroot" kf c.name = .ok c)
    (hc : c.IsLoaded cfg) :
    ∃ conf, loadKeyfile cfg "chroot" kf .empty = .ok conf ∧
      conf.findChroot "chroot" c.name = some c := by
  have hknown : ∀ n : String, n = "chroot" ∨ n = "source" →
      empty.namespaces[n]?.isSome = true := by
    rintro n (rfl | rfl) <;> simp [empty]
  have hnone : ∀ n m, empty.findChroot n m = none := by
    intro n m
    unfold findChroot
    cases h : empty.namespaces[n]? with
    | none => rfl
    | some chroots =>
        rw [(namespaces_empty h).2]
        simp
  have hnoalias : ∀ key : String, empty.aliases[key]? = none := fun key => by simp [empty]
  obtain ⟨conf₁, hadd⟩ := exists_add kf (hknown "chroot" (.inl rfl)) (hnone "chroot" c.name)
    (hnoalias _)
  have hadded := added_of_add hadd
  have hfound : conf₁.findChroot "chroot" c.name = some c := by
    rw [hadded.chroots, if_pos ⟨rfl, rfl⟩]
  obtain ⟨source, hsource, hname⟩ := exists_loadSource hc
  have hgroup : ∃ conf, loadGroup cfg "chroot" kf .empty c.name = .ok conf ∧
      conf.findChroot "chroot" c.name = some c := by
    cases source with
    | none =>
        refine ⟨conf₁, ?_, hfound⟩
        simp [loadGroup, hload, hadd, hsource, bind, Except.bind, pure, Except.pure]
    | some s =>
        have hs := hname s rfl
        have hfree : conf₁.aliases[qualified "source" s.name]? = none := by
          rw [hadded.aliases, hnoalias, Option.none_or, if_neg]
          rintro (h | ⟨-, -, h⟩ | ⟨a, -, h | ⟨h, -⟩⟩)
          · exact qualified_ne (by decide) (by decide) (by decide) _ _ h
          · exact qualified_ne (by decide) (by decide) (by decide) _ _ h
          · exact qualified_ne (by decide) (by decide) (by decide) _ _ h
          · exact absurd h (by decide)
        have hsources : conf₁.namespaces["source"]?.isSome = true := by
          rw [hadded.namespaces]
          exact hknown "source" (.inr rfl)
        have hnew : conf₁.findChroot "source" s.name = none := by
          rw [hadded.chroots, if_neg (by simp), hnone]
        obtain ⟨conf₂, hadd'⟩ := exists_add kf hsources hnew hfree
        refine ⟨conf₂, ?_, findChroot_of_added (added_of_add hadd') hfound⟩
        simp [loadGroup, hload, hadd, hsource, hadd', bind, Except.bind]
  obtain ⟨conf, hconf, hfind⟩ := hgroup
  refine ⟨conf, ?_, hfind⟩
  simp [loadKeyfile, hgroups, hconf, bind, Except.bind, pure, Except.pure]

/-- **What is found afterwards** is the chroot of the group. -/
theorem loadChroot_of_loadKeyfile
    {name : String} {c' : Chroot}
    (hgroups : kf.getGroups = [name])
    (hkept : ∀ d, loadChroot cfg ns kf name = .ok d → d.name = name)
    (hload : loadKeyfile cfg ns kf .empty = .ok conf)
    (hfind : conf.findChroot ns name = some c') :
    loadChroot cfg ns kf name = .ok c' := by
  simp only [loadKeyfile, hgroups, List.foldlM_cons, List.foldlM_nil, bind_eq_ok_iff] at hload
  obtain ⟨conf', hgroup, hconf⟩ := hload
  cases hconf
  simp only [loadGroup, bind_eq_ok_iff] at hgroup
  obtain ⟨d, hd, conf₁, hadd, source, -, hrest⟩ := hgroup
  have hname := hkept d hd
  have hfound : conf₁.findChroot ns name = some d := by
    rw [(added_of_add hadd).chroots, if_pos ⟨rfl, hname.symm⟩]
  have hkept : conf.findChroot ns name = some d := by
    cases source with
    | none =>
        cases hrest
        exact hfound
    | some s => exact findChroot_of_added (added_of_add hrest) hfound
  rw [hkept] at hfind
  cases hfind
  exact hd

end Loading

end ChrootConfig

namespace Chroot

section Exceptions

variable {cfg : SbuildConfig} {c c' x y : Chroot}

/-- What a new chroot has from its constructor, where the written chroot does not say anything
else. -/
structure KeepsDefaults (c x : Chroot) : Prop where
  name : x.name = c.name
  filter : c.environmentFilter = "" → x.environmentFilter ≠ ""
  profile : c.scriptConfig = "" → ∀ u, .userdata u ∈ x.facets → u.HasProfile

/-- A change that concerns none of this. -/
theorem KeepsDefaults.of_facets
    (hx : KeepsDefaults c x)
    (hname : y.name = x.name)
    (hfilter : y.environmentFilter = x.environmentFilter)
    (hfacets : ∀ u, .userdata u ∈ y.facets →
      .userdata u ∈ x.facets ∨ ((∀ v, .userdata v ∈ x.facets → v.HasProfile) → u.HasProfile)) :
    KeepsDefaults c y := by
  refine ⟨hname.trans hx.name, fun hempty => hfilter ▸ hx.filter hempty, fun hscript u hu => ?_⟩
  rcases hfacets u hu with hu | hu
  · exact hx.profile hscript u hu
  · exact hu (hx.profile hscript)

theorem KeepsDefaults.updateFacet
    {f : Facet}
    (hx : KeepsDefaults c x)
    (hf : ∀ u, f = .userdata u → (∀ v, .userdata v ∈ x.facets → v.HasProfile) → u.HasProfile) :
    KeepsDefaults c (x.updateFacet f) :=
  hx.of_facets rfl rfl fun u hu => (TaggedList.mem_replace hu).symm.imp_right fun h => hf u h.symm

theorem KeepsDefaults.append
    {f : Facet}
    (hx : KeepsDefaults c x)
    (hf : ∀ u, f ≠ .userdata u) :
    KeepsDefaults c { x with facets := x.facets ++ [f] } := by
  refine hx.of_facets rfl rfl fun u hu => .inl ?_
  rcases List.mem_append.mp hu with hu | hu
  · exact hu
  · exact absurd (List.mem_singleton.mp hu).symm (hf u)

theorem KeepsDefaults.removeFacet
    (hx : KeepsDefaults c x)
    (kind : FacetKind) :
    KeepsDefaults c (x.removeFacet kind) :=
  hx.of_facets rfl rfl fun _ hu => .inl (List.mem_of_mem_eraseP hu)

theorem KeepsDefaults.setMountDevice
    (hx : KeepsDefaults c x)
    (device : String) :
    KeepsDefaults c (Chroot.setMountDevice device x) := by
  unfold Chroot.setMountDevice
  split
  · exact hx
  · exact hx.updateFacet fun _ hf => by cases hf

theorem KeepsDefaults.setProfile
    {profile : String}
    (hx : KeepsDefaults c x)
    (h : Chroot.setProfile profile x = .ok y) :
    KeepsDefaults c y := by
  have hset : KeepsDefaults c { x with profile := profile } :=
    hx.of_facets rfl rfl fun _ hu => .inl hu
  unfold Chroot.setProfile at h
  simp only at h
  split at h
  · cases h
    exact hset
  · obtain ⟨u', hu', h⟩ := bind_eq_ok_iff.mp h
    cases h
    refine hset.updateFacet fun v hv _ => ?_
    cases hv
    exact fun key hkey => ((Userdata.setProfileData_eq_ok hu').1 key).mpr (.inl hkey)

theorem KeepsDefaults.baseStep
    {kf : Keyfile} {session : Bool} {key : String}
    (hvalues : HasValues kf c)
    (hc : WellKeyed c)
    (hx : KeepsDefaults c x)
    (h : BaseStep cfg session kf x key y) :
    KeepsDefaults c y := by
  have hfacets : ∀ z : Chroot, z.name = x.name → z.environmentFilter = x.environmentFilter →
      z.facets = x.facets → KeepsDefaults c z :=
    fun z hname hfilter hsame => hx.of_facets hname hfilter fun u hu => .inl (hsame ▸ hu)
  cases h with
  | skip => exact hx
  | profile _ h => exact hx.setProfile h
  | scriptConfig hv =>
      rw [hx.name] at hv
      have hframe := frame_setScriptConfig ‹_› x
      refine ⟨hframe.name.trans hx.name, fun hempty => ?_, fun hscript => ?_⟩
      · unfold Chroot.setScriptConfig
        simp only
        split <;> exact hx.filter hempty
      · rw [hvalues.base_none hc (by decide) (by simp [baseEntries, entryIf, hscript])] at hv
        cases hv
  | aliases _ h =>
      obtain ⟨_, _, h⟩ := bind_eq_ok_iff.mp h
      cases h
      exact hfacets _ rfl rfl rfl
  | environmentFilter hv hline =>
      rw [hx.name] at hv
      refine ⟨hx.name, fun hempty => ?_, hx.profile⟩
      have hentry : ("environment-filter", c.environmentFilter) ∈ c.baseEntries := by
        simp [baseEntries]
      rw [hvalues.of_mem_base hc hentry, hempty] at hv
      cases hv
      cases hline
  | mountLocation _ _ h =>
      unfold Chroot.setMountLocation at h
      split at h <;> cases h
      exact hfacets _ rfl rfl rfl
  | name _ hv hset =>
      rw [hx.name] at hv
      obtain ⟨-, -, rfl⟩ := setName_eq_ok_iff.mp hset
      refine ⟨?_, hx.filter, hx.profile⟩
      cases hsession : c.isSession with
      | false =>
          rw [hvalues.base_none hc (by decide) (by simp [baseEntries, entryIf, hsession])] at hv
          cases hv
      | true =>
          have hentry : ("name", c.name) ∈ c.baseEntries := by simp [baseEntries, entryIf, hsession]
          rw [hvalues.of_mem_base hc hentry] at hv
          exact (Option.some.inj hv).symm
  | verbosity _ h =>
      unfold Chroot.setVerbosity at h
      repeat (split at h; · cases h; exact hfacets _ rfl rfl rfl)
      cases h
  | _ => exact hfacets _ rfl rfl rfl

theorem KeepsDefaults.facetStep
    {kf : Keyfile} {key : String}
    (hx : KeepsDefaults c x)
    (h : FacetStep kf x key y) :
    KeepsDefaults c y := by
  cases h with
  | skip => exact hx
  | userModifiableKeys hu _ | rootModifiableKeys hu _ =>
      refine hx.updateFacet fun v hv hall => ?_
      cases hv
      have hhas := hall _ (mem_of_userdata? hu)
      exact hhas
  | _ => exact hx.updateFacet fun _ hf => by cases hf

theorem KeepsDefaults.typeStep
    {kf : Keyfile} {x₀ : Chroot} {key : String}
    (hx : KeepsDefaults c x)
    (h : TypeStep kf x₀ x key y) :
    KeepsDefaults c y := by
  have hkind : ∀ kind, KeepsDefaults c { x with kind := kind } :=
    fun _ => ⟨hx.name, hx.filter, hx.profile⟩
  cases h with
  | skip => exact hx
  | kind => exact hkind _
  | snapshotDevice _ _ hset =>
      obtain ⟨-, hset⟩ := checkAbs_bind_eq_ok_iff.mp hset
      cases hset
      exact (hkind _).setMountDevice _
  | cloneName =>
      simp only [Chroot.setZfsCloneName]
      split
      · exact (hkind _).setMountDevice _
      · exact (hkind _).setMountDevice _
  | switch _ hf hset =>
      split at hset
      · obtain ⟨-, rfl⟩ := addFacet_eq_ok_iff.mp hset
        refine hx.append fun u hu => ?_
        rcases hf with rfl | rfl <;> cases hu
      · cases hset
        exact hx.removeFacet _

theorem KeepsDefaults.setUnionType
    {type : String}
    (hx : KeepsDefaults c x)
    (h : Chroot.setUnionType type x = .ok y) :
    KeepsDefaults c y := by
  have hunion : ∀ u : UnionFacet, KeepsDefaults c (x.updateFacet (.union u)) :=
    fun u => hx.updateFacet fun _ hf => by cases hf
  rcases setUnionType_cases h with
    ⟨_, rfl⟩ | ⟨u, _, _, ⟨_, rfl⟩ | ⟨_, _, rfl⟩ | ⟨_, _, rfl⟩⟩
  · exact hx
  · exact (hunion _).removeFacet _
  · exact hunion _
  · exact (hunion { u with unionType := type }).append fun _ hf => by cases hf

/-- **Reading what the chroot has written** keeps the defaults that it does not write. -/
theorem KeepsDefaults.setKeyfile
    {kf : Keyfile}
    (hvalues : HasValues kf c)
    (hc : WellKeyed c)
    (hx : KeepsDefaults c x)
    (h : x.setKeyfile cfg kf = .ok y) :
    KeepsDefaults c y := by
  refine KeptByKeys.setKeyfile (P := KeepsDefaults c) ⟨fun hx hstep => hx.baseStep hvalues hc hstep,
    fun hx hstep => hx.typeStep hstep, fun hx hstep => hx.facetStep hstep,
    fun hx _ hset => hx.setUnionType hset, fun {_ _ z u u'} hz hu _ hset => ?_⟩ hx h
  refine hz.updateFacet fun v hv hall => ?_
  cases hv
  unfold Userdata.setData at hset
  split at hset
  · exact (hall u (mem_of_userdata? hu)).setSystemData hset
  · cases hset

theorem keepsDefaults_newChroot
    {u : Userdata}
    (hu : u.FromProfile) :
    KeepsDefaults c (newChroot cfg (newKind c.kind) c.name u) := by
  refine ⟨rfl, fun _ => cfg.filter_ne_empty, fun _ v hv => ?_⟩
  rw [mem_userdata_newFacets hv]
  exact fun key hkey => (hu.keys key).mpr hkey

/-- What is left of the type when the base class is read. -/
theorem kind_readBaseKeys
    {kf : Keyfile}
    (h : readKeys kf (baseKeys cfg false) x = .ok y) :
    y.kind = x.kind :=
  readKeys_keeps (R := fun x y => y.kind = x.kind) (fun _ => rfl)
    (fun _ _ _ hxy hyz => hyz.trans hxy)
    (fun _ hspec _ _ hget => (baseStep_of_get hspec hget).location.1) h

/-- A key that is required has a value. -/
theorem value_of_required
    {kf : Keyfile} {spec : KeySpec Chroot}
    (hpriority : spec.priority = .required)
    (h : spec.get kf x.name x = .ok y) :
    ∃ v, kf.value? x.name spec.key = some v := by
  rcases (spec.get_eq_ok_iff kf x.name x y).mp h with ⟨-, hne, -⟩ | ⟨_, ⟨v, hv, -⟩, -⟩
  · exact absurd hpriority hne
  · exact ⟨v, hv⟩

/-- **A ZFS snapshot is not read back**: its dataset is written under another key. -/
theorem not_zfs_of_setKeyfile
    {u : Userdata}
    (hc : IsLoaded cfg c)
    (h : (newChroot cfg (newKind c.kind) c.name u).setKeyfile cfg (c.getKeyfile .empty) = .ok c')
    (s : ZfsSnapshot) :
    c.kind ≠ .zfsSnapshot s := by
  intro hk
  have hvalues : HasValues (c.getKeyfile .empty) c := value?_getKeyfile c
  obtain ⟨d, e, f, used, hbase, -, hkeys, -⟩ := setKeyfile_phases.mp h
  rw [isSession_newChroot] at hbase
  have hdkind : d.kind = .zfsSnapshot {} := by
    rw [kind_readBaseKeys hbase, hk]
    rfl
  have hdname : d.name = c.name := (readKeys_baseKeys_frame hbase).2.2
  have hdsession : d.isSession = false := by
    rw [← isSession_newChroot cfg (newKind c.kind) c.name u]
    exact hasFacet_eq_of_facetKinds (readKeys_baseKeys_frame hbase).1 .session
  rw [typeKeys, hdkind, hdsession] at hkeys
  obtain ⟨_, hdataset, -⟩ := readKeys_cons_eq_ok_iff.mp hkeys
  obtain ⟨v, hv⟩ := value_of_required rfl hdataset
  rw [hdname, hvalues.other_none hc.wellKeyed (by decide) (by decide)] at hv
  cases hv

/-- **A custom chroot is read back with the facets of a new one**, as it writes none of the keys
that change them. -/
theorem facetKinds_custom_of_setKeyfile
    {u : Userdata} {b : Bool}
    (hc : IsLoaded cfg c)
    (hk : c.kind = .custom b)
    (h : (newChroot cfg (newKind c.kind) c.name u).setKeyfile cfg (c.getKeyfile .empty) = .ok c') :
    c'.facetKinds = [.personality, .sessionClonable, .userdata] := by
  have hvalues : HasValues (c.getKeyfile .empty) c := value?_getKeyfile c
  obtain ⟨d, e, f, used, hbase, -, hkeys, hfacets, rfl⟩ := setKeyfile_phases.mp h
  rw [isSession_newChroot] at hbase
  have hdkind : d.kind = .custom false := by
    rw [kind_readBaseKeys hbase, hk]
    rfl
  have hdname : d.name = c.name := (readKeys_baseKeys_frame hbase).2.2
  have hdkinds : d.facetKinds = [.personality, .sessionClonable, .userdata] := by
    rw [(readKeys_baseKeys_frame hbase).1, facetKinds_newChroot, hk]
    rfl
  have hdsession : d.isSession = false := by
    rw [Bool.eq_false_iff, ne_eq, isSession_iff, hdkinds]
    decide
  have hnone : ∀ {key}, key ∉ plainKeyNames → ¬ IsDotted key →
      (c.getKeyfile .empty).value? d.name key = none := by
    rw [hdname]
    exact fun hplain hdotted => hvalues.other_none hc.wellKeyed hplain hdotted
  have hread := readKeys_customKeys false (findsType_written hc hdname) hk
    (hnone (by decide) (by decide)) (hnone (by decide) (by decide))
  rw [typeKeys, hdkind, hdsession] at hkeys
  have he := Except.ok.inj (hkeys.symm.trans hread)
  have hekinds : e.facetKinds = [.personality, .sessionClonable, .userdata] := by
    rw [he]
    exact hdkinds
  have hunion : .union ∉ e.facetKinds := by
    rw [hekinds]
    decide
  rw [(facetFrame_setUnusedKeys _ _ f).facetKinds, facetKinds_setFacetsKeyfile hunion hfacets,
    hekinds]

end Exceptions

section Reloading

variable {cfg : SbuildConfig} {kf : Keyfile} {group : String} {c : Chroot}

/-- **The chroot comes back** when it is written into an empty keyfile and loaded from that into
a new configuration. -/
def Reloads (cfg : SbuildConfig) (c : Chroot) : Prop :=
  ∃ conf c', ChrootConfig.loadKeyfile cfg "chroot" (c.getKeyfile .empty) .empty = .ok conf ∧
    conf.findChroot "chroot" c.name = some c' ∧
    c'.getKeyfile .empty = c.getKeyfile .empty ∧
    c'.getSessionFlags = c.getSessionFlags

theorem getGroups_getKeyfile (c : Chroot) : (c.getKeyfile .empty).getGroups = [c.name] := by
  rw [getKeyfile_empty, Keyfile.getGroups, ← Std.ExtTreeMap.map_fst_toList_eq_keys,
    Keyfile.toList_groups_single]
  rfl

/-- What is written is loaded from the template of the chroot. -/
theorem IsLoaded.loadChroot_iff
    (hc : IsLoaded cfg c) :
    ∃ u : Userdata, u.FromProfile ∧ ∀ c',
      (ChrootConfig.loadChroot cfg "chroot" (c.getKeyfile .empty) c.name = .ok c' ↔
        (newChroot cfg (newKind c.kind) c.name u).setKeyfile cfg (c.getKeyfile .empty) =
          .ok c') := by
  obtain ⟨u, -, hu, -, htemplate⟩ := hc.template
  refine ⟨u, hu, fun c' => ?_⟩
  simp only [ChrootConfig.loadChroot, bind_eq_ok_iff, mapError_eq_ok_iff, htemplate]
  constructor
  · rintro ⟨t, ht, hset⟩
    cases ht
    exact hset
  · intro hset
    exact ⟨_, rfl, hset⟩

theorem reloads_of_writable
    (hc : IsLoaded cfg c)
    (hw : Writable c) :
    Reloads cfg c := by
  obtain ⟨u, hu, hload⟩ := hc.loadChroot_iff
  obtain ⟨c', hset, hsame⟩ := setKeyfile_written hc hw hu
  have hload' := (hload c').mpr hset
  have hc' := isLoaded_of_loadChroot hload'
  have hgroups : (c.getKeyfile .empty).getGroups = [c'.name] := by
    rw [getGroups_getKeyfile, hsame.name]
  obtain ⟨conf, hconf, hfind⟩ :=
    ChrootConfig.exists_loadKeyfile hgroups (hsame.name ▸ hload') hc'
  exact ⟨conf, c', hconf, hsame.name ▸ hfind, hsame.getKeyfile hc.wellKeyed hc'.wellKeyed,
    hsame.getSessionFlags hc.session⟩

/-- Chroots that are written as the same keyfile have the same user data. -/
theorem userdata_of_getKeyfile
    {c' : Chroot} {u u' : Userdata}
    (hc : WellKeyed c)
    (hc' : WellKeyed c')
    (hname : c'.name = c.name)
    (hsame : c'.getKeyfile .empty = c.getKeyfile .empty)
    (hu : c.userdata? = some u)
    (hu' : c'.userdata? = some u')
    {key : String}
    (hvalid : validateKeyname key = true) :
    u'.userdata[key]? = u.userdata[key]? := by
  have hvalues : ∀ d : Chroot, HasValues (d.getKeyfile .empty) d := value?_getKeyfile
  rw [← (hvalues c).userdata hc hu hvalid, ← (hvalues c').userdata hc' hu' hvalid, hname, hsame]

theorem writable_of_reloads
    (hc : IsLoaded cfg c)
    (h : Reloads cfg c) :
    Writable c := by
  obtain ⟨conf, c', hconf, hfind, hsame, hflags⟩ := h
  obtain ⟨u₀, hu₀, hload⟩ := hc.loadChroot_iff
  have hload' := ChrootConfig.loadChroot_of_loadKeyfile (getGroups_getKeyfile c)
    (fun _ => name_loadChroot) hconf hfind
  have hset := (hload c').mp hload'
  have hc' := isLoaded_of_loadChroot hload'
  have hkept := (keepsDefaults_newChroot hu₀).setKeyfile (value?_getKeyfile c) hc.wellKeyed hset
  refine ⟨not_zfs_of_setKeyfile hc hset, fun ⟨b, hb⟩ => ?_, fun hscript u hu key hkey => ?_,
    fun hempty => ?_⟩
  · have hkinds := facetKinds_custom_of_setKeyfile hc hb hset
    rw [getSessionFlags_of_isSession hc.session, getSessionFlags_of_isSession hc'.session] at hflags
    have hcreate := congrArg SessionFlags.create hflags
    have hclone := congrArg SessionFlags.clone hflags
    simp only at hcreate hclone
    rw [← hasFacet_iff, ← hasFacet_iff, ← hcreate, ← hclone, hasFacet_iff, hasFacet_iff, hkinds]
    decide
  · obtain ⟨u', hu'⟩ := exists_userdata hc'.profile.present
    have hhas := hkept.profile hscript u' (mem_of_userdata? hu') key hkey
    rw [Std.ExtTreeMap.mem_iff_isSome_getElem?] at hhas ⊢
    rw [← userdata_of_getKeyfile hc.wellKeyed hc'.wellKeyed hkept.name hsame hu hu'
      (Userdata.validateKeyname_of_mem_profileKeys hkey)]
    exact hhas
  · have hfilter := hkept.filter hempty
    have hentry : ∀ d : Chroot, ("environment-filter", d.environmentFilter) ∈ d.baseEntries :=
      fun d => by simp [baseEntries]
    have hvalue : ∀ {d : Chroot}, d.WellKeyed →
        (d.getKeyfile .empty).value? d.name "environment-filter" = some d.environmentFilter :=
      fun {d} hd => (show HasValues _ d from value?_getKeyfile d).of_mem_base hd (hentry d)
    have heq := hvalue hc'.wellKeyed
    rw [hsame, hkept.name, hvalue hc.wellKeyed, hempty] at heq
    exact hfilter (Option.some.inj heq).symm

/-- **The chroots that come back** when they are written and loaded again. -/
theorem reloads_iff
    (hload : ChrootConfig.loadChroot cfg "chroot" kf group = .ok c) :
    Reloads cfg c ↔ Writable c :=
  ⟨writable_of_reloads (isLoaded_of_loadChroot hload),
    reloads_of_writable (isLoaded_of_loadChroot hload)⟩

/-- A directory chroot with a union and data of its own. -/
def unionChroot : Keyfile :=
  (((Keyfile.empty.setValue "c" "type" "directory").setValue "c" "directory" "/srv/c").setValue
    "c" "union-type" "overlay").setValue "c" "setup.services" "cron"

/-- It comes back. -/
theorem reloads_unionChroot :
    ∃ c, ChrootConfig.loadChroot .standard "chroot" unionChroot "c" = .ok c ∧
      Reloads .standard c := by
  have hload : okAnd (ChrootConfig.loadChroot .standard "chroot" unionChroot "c")
      isWritable = true := by decide +kernel
  obtain ⟨c, hc, hwritable⟩ := okAnd_eq_true_iff.mp hload
  exact ⟨c, hc, (reloads_iff hc).mpr (isWritable_iff.mp hwritable)⟩

/-- A ZFS snapshot, a custom chroot that is not session-clonable, a chroot whose profile is
removed, and one with an empty environment filter. -/
def lostChroots : List Keyfile :=
  [ (Keyfile.empty.setValue "c" "type" "zfs-snapshot").setValue "c" "zfs-dataset" "pool/c"
  , (Keyfile.empty.setValue "c" "type" "custom").setValue "c" "custom-session-cloneable" "false"
  , (Keyfile.empty.setValue "c" "directory" "/srv/c").setValue "c" "script-config" ""
  , (Keyfile.empty.setValue "c" "directory" "/srv/c").setValue "c" "environment-filter" "\nX" ]

/-- **They do not come back.** -/
theorem not_reloads_lostChroots :
    lostChroots.Forall fun kf =>
      ∃ c, ChrootConfig.loadChroot .standard "chroot" kf "c" = .ok c ∧ ¬ Reloads .standard c := by
  have hload : ∀ kf ∈ lostChroots, okAnd (ChrootConfig.loadChroot .standard "chroot" kf "c")
      (fun c => !c.isWritable) = true := by decide +kernel
  rw [List.forall_iff_forall_mem]
  intro kf hkf
  obtain ⟨c, hc, hlost⟩ := okAnd_eq_true_iff.mp (hload kf hkf)
  refine ⟨c, hc, fun hreloads => ?_⟩
  have hwritable := isWritable_iff.mpr (writable_of_reloads (isLoaded_of_loadChroot hc) hreloads)
  rw [hwritable] at hlost
  cases hlost

end Reloading

end Chroot

end Schroot
