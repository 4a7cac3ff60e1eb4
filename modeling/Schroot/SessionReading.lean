import Schroot.SessionWritten
import Schroot.ChrootReloads

/-!
# Reading the file of a session

The file of a session is read into the template of its type.  Unless the union of the session is
configured, this gives a chroot that is written as the session was, and that has its flags.

**Results.**
* `exists_setKeyfile_session`: what comes out when the file of a session is read.
* `SessionRead.sameWriting`, `SessionRead.getSessionFlags`: it is like the session.
-/

namespace Schroot

namespace Chroot

section Reading

variable {cfg : SbuildConfig} {kf : Keyfile} {s t d e : Chroot} {u v : Userdata}

/-- **The template** that the file of a session is read into. -/
theorem SessionData.exists_template
    (hs : SessionData cfg s)
    (hkf : HasValues kf s) :
    ∃ t, ChrootConfig.createTemplate cfg "session" kf s.name = .ok t ∧
      IsTemplate cfg (newKind s.kind) s.name t := by
  have htype : kf.value? s.name "type" = some s.kind.typeName :=
    hkf.of_mem_base hs.wellKeyed (by simp [baseEntries])
  have hkind : kindOfType ((kf.value? s.name "type").getD "plain") = some (newKind s.kind) := by
    rw [htype]
    exact kindOfType_typeName s.kind
  have hplain : ∀ directory, newKind s.kind ≠ .plain directory := by
    intro directory hd
    have hlegible := hs.kindLegible
    cases hk : s.kind with
    | plain =>
        rw [hk] at hlegible
        exact hlegible
    | _ => simp [hk, newKind] at hd
  obtain ⟨u, hcreate, hu, hmodifiable⟩ := hs.template
  exact createTemplate_session hkind hplain hcreate hu hmodifiable hs.valid

theorem IsTemplate.isSession
    {kind : ChrootKind} {name : String}
    (ht : IsTemplate cfg kind name t) :
    t.isSession = true :=
  isSession_iff.mpr ((ht.kinds _).mpr (.inl rfl))

/-- The session that is read, after the base class. -/
def sessionBase (s t : Chroot) (v : Userdata) : Chroot :=
  { withBase s (t.withProfile s.profile s.scriptConfig v) with
    users := splitString (joinStrings ',' s.users) ","
    rootUsers := splitString (joinStrings ',' s.rootUsers) ","
    mountLocation := s.mountLocation }

/-- **The base class is read.** -/
theorem readKeys_baseKeys_session
    {kind : ChrootKind}
    (hs : SessionData cfg s)
    (hkf : HasValues kf s)
    (ht : IsTemplate cfg kind s.name t)
    (hu : s.userdata? = some u)
    (hprofile : s.scriptConfig = "" → u.HasProfile)
    (hfilter : s.environmentFilter ≠ "") :
    ∃ v, Refillable u v ∧ readKeys kf (baseKeys cfg t.isSession) t = .ok (sessionBase s t v) := by
  obtain ⟨hgroups, hrootGroups, haliases, hcommandPrefix⟩ := hs.lists
  obtain ⟨u₀, hu₀, hfrom⟩ := ht.data
  rw [ht.isSession]
  refine readKeys_baseKeys_userdata true hkf hs.wellKeyed hs.data hs.profile hs.session
    ⟨?_, ?_, hcommandPrefix⟩ ?_ hfilter hs.filter.1 hs.filter.2 (fun _ => .inr hs.location)
    (fun _ => hs.valid) hu hprofile ht.name ht.scriptConfig hu₀ hfrom
  · rw [hgroups]
    exact allItems_nil
  · rw [hrootGroups]
    exact allItems_nil
  · rw [haliases]
    exact fun _ ha => by cases ha

theorem facetKinds_sessionBase (s t : Chroot) (v : Userdata) :
    (sessionBase s t v).facetKinds = t.facetKinds :=
  facetKinds_updateFacet (.userdata v) t

theorem getFacet_sessionBase
    {k : FacetKind}
    (hk : k ≠ .userdata) :
    (sessionBase s t v).getFacet k = t.getFacet k :=
  getFacet_updateFacet (c := t) (f := .userdata v) hk

theorem isFresh_sessionBase
    (ht : ∀ f ∈ t.facets, IsFresh f) :
    ∀ f ∈ (sessionBase s t v).facets, IsFresh f := by
  intro f hf
  rcases TaggedList.mem_replace hf with rfl | hf
  · exact trivial
  · exact ht f hf

/-- **The type is read.** -/
theorem readKeys_typeKeys_base
    (hs : SessionData cfg s)
    (hkf : HasValues kf s)
    (ht : IsTemplate cfg (newKind s.kind) s.name t) :
    requireDirectory kf (sessionBase s t v) = .ok () ∧
      ∃ e, readKeys kf (typeKeys kf (sessionBase s t v)) (sessionBase s t v) = .ok e ∧
        TypeRead (sessionBase s t v) e ∧ e.typeEntries = s.typeEntries ∧
          e.typeFlags = s.typeFlags ∧ e.kind.typeName = s.kind.typeName := by
  have hname : (sessionBase s t v).name = s.name := ht.name
  have hfinds : FindsType kf s (sessionBase s t v) := by
    constructor
    · rw [hname]
      exact fun hmem => hkf.of_mem_type hs.wellKeyed hmem
    · rw [hname]
      exact fun hkey hnone => hkf.type_none hs.wellKeyed hkey hnone
  refine readKeys_typeKeys_session hfinds hs.session hs.kindLegible (fun d hd => ?_) ?_ ?_ ?_
    ht.type
  · rw [hname]
    refine hkf.location_none hs.wellKeyed (fun f hf => by rw [hd] at hf; cases hf) fun hmount => ?_
    rw [hs.facets, hd] at hmount
    simp [newKind, newFacetKinds, extraFacets, newUnion, Facet.kind] at hmount
  · rw [hname]
    exact fun hplain hdotted => hkf.other_none hs.wellKeyed hplain hdotted
  · rw [isSession_iff, facetKinds_sessionBase]
    exact (ht.kinds _).mpr (.inl rfl)
  · rw [Bool.eq_false_iff, ne_eq, hasFacet_iff, facetKinds_sessionBase, ht.kinds]
    cases newKind s.kind <;> simp [newFacetKinds, extraFacets, newUnion, Facet.kind]

/-- What the facets are read into. -/
theorem freshAhead_session
    (hs : SessionData cfg s)
    (ht : IsTemplate cfg (newKind s.kind) s.name t)
    (he : TypeRead (sessionBase s t v) e) :
    FreshAhead s [] e.facets := by
  have hkinds : e.facetKinds = t.facetKinds := he.facetKinds.trans (facetKinds_sessionBase s t v)
  have hmem : ∀ f ∈ e.facets, f.kind ∈ t.facetKinds := fun f hf =>
    hkinds ▸ List.mem_map_of_mem hf
  refine ⟨?_, he.fresh (isFresh_sessionBase ht.fresh), fun f hf => ?_, ?_, ?_⟩
  · exact (congrArg List.Nodup hkinds).mpr ht.nodup
  · rw [hs.facets, ← ht.kinds]
    exact hmem f hf
  · show .session ∈ e.facetKinds
    rw [hkinds]
    exact (ht.kinds _).mpr (.inl rfl)
  · show .sourceClonable ∉ e.facetKinds
    rw [hkinds, ht.kinds]
    simp

end Reading

section Facets

variable {s x : Chroot}

theorem get?_map_rereadSession (kind : FacetKind) (facets : List Facet) :
    TaggedList.get? Facet.kind kind (facets.map (rereadSession s)) =
      (TaggedList.get? Facet.kind kind facets).map (rereadSession s) := by
  rw [TaggedList.get?, TaggedList.get?, List.find?_map]
  congr 2
  funext f
  simp [kind_rereadSession]

/-- **A facet of a session that is read back is written as before**; the user data is read
later. -/
theorem facetEntries_rereadSession
    {f g : Facet}
    (hfresh : IsFresh g)
    (hf : s.getFacet g.kind = some f)
    (hdata : g.kind ≠ .userdata)
    (hunion : ∀ u, s.unionFacet? = some u → u.configured = false)
    (hselected : ∀ z, s.sessionFacet? = some z → (getNamespace z.selectedName).2 = z.selectedName) :
    facetEntries true (rereadSession s g) = facetEntries true f := by
  have hkind := (mem_of_getFacet hf).2
  cases g with
  | personality p =>
      cases f <;> simp only [Facet.kind, reduceCtorEq] at hkind
      rename_i q
      have hp : s.persona? = some q := by rw [persona?, show s.getFacet .personality = _ from hf]
      simp [rereadSession, reread, hp]
  | userdata => exact absurd rfl hdata
  | session y =>
      cases f <;> simp only [Facet.kind, reduceCtorEq] at hkind
      rename_i z
      have hz : s.sessionFacet? = some z := by
        rw [sessionFacet?, show s.getFacet .session = _ from hf]
      simp [rereadSession, hz, facetEntries, hselected z hz]
  | union w =>
      cases f <;> simp only [Facet.kind, reduceCtorEq] at hkind
      rename_i z
      have hz : s.unionFacet? = some z := by
        rw [unionFacet?, show s.getFacet .union = _ from hf]
      have hconfigured := hunion z hz
      have hnone : z.unionType = "none" := by simpa [UnionFacet.configured] using hconfigured
      have hw : w.unionType = "none" := hfresh
      simp [rereadSession, reread, hz, Option.filter, UnionFacet.configured, hnone, facetEntries,
        hw]
  | mountable n =>
      cases f <;> simp only [Facet.kind, reduceCtorEq] at hkind
      rename_i m
      have hm : s.mountable? = some m := by
        rw [mountable?, show s.getFacet .mountable = _ from hf]
      simp [rereadSession, hm]
  | sessionClonable | sourceClonable | source => exact hfresh.elim

/-- **The flags of a session** that has no configured union and is not of a source chroot are those
of its type. -/
theorem getSessionFlags_of_session
    (hsession : x.isSession = true)
    (hclonable : .sessionClonable ∉ x.facetKinds)
    (hunion : ∀ u, .union u ∈ x.facets → u.configured = false)
    (hsource : ∀ z, .session z ∈ x.facets → ∀ kinds, z.parent = some kinds → .source ∉ kinds) :
    x.getSessionFlags = x.typeFlags := by
  have hnone : ∀ f ∈ x.facets, x.facetFlags f = {} := by
    intro f hf
    cases f with
    | sessionClonable => exact absurd (List.mem_map_of_mem (f := Facet.kind) hf) hclonable
    | session z =>
        cases hparent : z.parent with
        | none => simp [facetFlags, hparent]
        | some kinds => simp [facetFlags, hparent, hsource z hf kinds hparent]
    | sourceClonable => simp [facetFlags, hsession]
    | union u => simp [facetFlags, hunion u hf]
    | _ => rfl
  have hfold : ∀ (facets : List Facet) (flags : SessionFlags),
      (∀ f ∈ facets, x.facetFlags f = {}) →
        facets.foldl (fun flags f => flags.or (x.facetFlags f)) flags = flags := by
    intro facets
    induction facets with
    | nil => exact fun _ _ => rfl
    | cons f facets ih =>
        intro flags hall
        rw [List.foldl_cons, hall f List.mem_cons_self,
          ih _ fun g hg => hall g (List.mem_cons_of_mem f hg)]
        simp [SessionFlags.or]
  exact hfold x.facets x.typeFlags hnone

end Facets

section Written

variable {cfg : SbuildConfig} {kf : Keyfile} {s s' t e : Chroot} {u v : Userdata}

/-- **What comes out when the file of a session is read**, if its union is not configured. -/
structure SessionRead (s t s' : Chroot) : Prop where
  rest : ∃ v, s' = { sessionBase s t v with kind := s'.kind, facets := s'.facets }
  typeName : s'.kind.typeName = s.kind.typeName
  typeEntries : s'.typeEntries = s.typeEntries
  typeFlags : s'.typeFlags = s.typeFlags
  facetKinds : s'.facetKinds = t.facetKinds
  data : ∃ u u', s.userdata? = some u ∧ s'.userdata? = some u' ∧ u'.userdata = u.userdata ∧
    u'.userModifiableKeys = u.userModifiableKeys ∧ u'.rootModifiableKeys = u.rootModifiableKeys
  facets : ∀ kind g, kind ≠ .userdata → s'.getFacet kind = some g →
    ∃ f, IsFresh f ∧ f.kind = kind ∧ g = rereadSession s f

/-- The user data before the keys that are left are set. -/
theorem userdata?_rereadSession
    (hs : s.userdata? = some u)
    (he : e.userdata? = some v) :
    (e.withFacets (e.facets.map (rereadSession s))).userdata? = some { v with
      userModifiableKeys := u.userModifiableKeys
      rootModifiableKeys := u.rootModifiableKeys } := by
  have hget : (e.withFacets (e.facets.map (rereadSession s))).getFacet .userdata =
      (e.getFacet .userdata).map (rereadSession s) := get?_map_rereadSession .userdata e.facets
  rw [userdata?, hget, getFacet_of_userdata? he, Option.map_some]
  simp [rereadSession, reread, hs]

/-- The type writes the same and has the same flags. -/
theorem sameType
    {x y : Chroot}
    (hkind : y.kind = x.kind)
    (hsession : y.isSession = x.isSession) :
    y.typeEntries = x.typeEntries ∧ y.typeFlags = x.typeFlags := by
  unfold typeEntries typeFlags
  rw [hkind, hsession]
  exact ⟨rfl, rfl⟩

/-- **The file of a session can be read**, if its union is not configured. -/
theorem exists_setKeyfile_session
    (hs : SessionData cfg s)
    (hkf : HasValues kf s)
    (ht : IsTemplate cfg (newKind s.kind) s.name t)
    (hu : s.userdata? = some u)
    (hprofile : s.scriptConfig = "" → u.HasProfile)
    (hfilter : s.environmentFilter ≠ "")
    (hunion : ∀ u, s.unionFacet? = some u → u.configured = false) :
    ∃ s', t.setKeyfile cfg kf = .ok s' ∧ SessionRead s t s' := by
  obtain ⟨v, hv, hbase⟩ := readKeys_baseKeys_session hs hkf ht hu hprofile hfilter
  obtain ⟨hdirectory, e, htype, he, hentries, hflags, htypeName⟩ :=
    readKeys_typeKeys_base (v := v) hs hkf ht
  have hahead := freshAhead_session hs ht he
  have hename : e.name = s.name := by
    rw [he.rest]
    exact ht.name
  have hekinds : e.facetKinds = t.facetKinds := he.facetKinds.trans (facetKinds_sessionBase s t v)
  have hlength : e.facets.length ≤ facetFuel := by
    have hcount := congrArg List.length hekinds
    simp only [facetKinds, TaggedList.tags, List.length_map] at hcount
    rw [hcount]
    exact Nat.le_of_lt ht.length
  obtain ⟨more, hread, hmore⟩ := setFacetsKeyfile_session
    (usedKeys cfg kf t (sessionBase s t v))
    ⟨hkf, hs.wellKeyed, hs.session, hs.legible, hs.notMem (.inr (.inl rfl)), hunion⟩ hename
    hlength hahead
  obtain ⟨used, hused⟩ : ∃ used, used = usedKeys cfg kf t (sessionBase s t v) ++ more := ⟨_, rfl⟩
  obtain ⟨f, hf⟩ : ∃ f, f = e.withFacets (e.facets.map (rereadSession s)) := ⟨_, rfl⟩
  have hread' : setFacetsKeyfile kf facetFuel e.facets e
      (usedKeys cfg kf t (sessionBase s t v)) = .ok (f, used) := by
    rw [hf, hused]
    exact hread
  have hno : NoUserdata used := by
    rw [hused]
    exact noUserdata_append (noUserdata_usedKeys _ _ _ _) (noUserdata_of_undotted hmore)
  have hfname : f.name = s.name := by
    rw [hf]
    exact hename
  obtain ⟨s', hs'⟩ : ∃ s', s' = (unusedKeys kf f.name used).foldl (setUnusedKey kf) f := ⟨_, rfl⟩
  have hrest : FacetFrame f s' := hs' ▸ facetFrame_setUnusedKeys _ _ f
  have hkinds : s'.facetKinds = e.facetKinds := by
    rw [hrest.facetKinds, hf]
    simp [facetKinds, TaggedList.tags, withFacets, kind_rereadSession]
  have hsession : s'.isSession = e.isSession := hasFacet_eq_of_facetKinds hkinds .session
  have hkind : s'.kind = e.kind := (congrArg Chroot.kind hrest.rest).trans (by rw [hf]; rfl)
  obtain ⟨hsameEntries, hsameFlags⟩ := sameType hkind hsession
  have hdata : ∃ u', s'.userdata? = some u' ∧ u'.userdata = u.userdata ∧
      u'.userModifiableKeys = u.userModifiableKeys ∧
        u'.rootModifiableKeys = u.rootModifiableKeys := by
    have hedata : e.userdata? = some v := by
      rw [userdata?, he.facets _ (by decide)]
      obtain ⟨u₀, hu₀, -⟩ := ht.data
      exact userdata?_updateFacet (c := t) hu₀ v
    have hrefill := refill_written { v with
        userModifiableKeys := u.userModifiableKeys
        rootModifiableKeys := u.rootModifiableKeys } used hkf hs.wellKeyed hs.data hu
      ⟨hv.sub, hv.env⟩ hno
    refine ⟨_, ?_, hrefill, Userdata.keys_refill _ _⟩
    rw [hs', userdata?_setUnusedKeys (hf ▸ userdata?_rereadSession hu hedata), hfname]
  obtain ⟨u', hu'⟩ := hdata
  refine ⟨s', setKeyfile_phases.mpr ⟨_, e, f, used, hbase, hdirectory, htype, hread', hs'⟩,
    ⟨v, ?_⟩, ?_, hsameEntries.trans hentries, hsameFlags.trans hflags, hkinds.trans hekinds,
    ⟨u, u', hu, hu'⟩, fun kind g hne hg => ?_⟩
  · rw [hrest.rest, hf, he.rest]
    rfl
  · rw [hkind]
    exact htypeName
  · rw [hs', getFacet_setUnusedKeys hne, hf] at hg
    have hmap := (get?_map_rereadSession (s := s) kind e.facets).symm.trans hg
    obtain ⟨f, hfget, rfl⟩ := Option.map_eq_some_iff.mp hmap
    obtain ⟨hmem, hfkind⟩ := mem_of_getFacet (c := e) hfget
    exact ⟨f, hahead.fresh f hmem, hfkind, rfl⟩

/-- **What comes out is written as the session was.** -/
theorem SessionRead.sameWriting
    (h : SessionRead s t s')
    (hs : SessionData cfg s)
    (ht : IsTemplate cfg (newKind s.kind) s.name t)
    (hunion : ∀ u, s.unionFacet? = some u → u.configured = false)
    (hselected : ∀ z, s.sessionFacet? = some z → (getNamespace z.selectedName).2 = z.selectedName)
    (husers : joinStrings ',' (splitString (joinStrings ',' s.users) ",") = joinStrings ',' s.users)
    (hrootUsers : joinStrings ',' (splitString (joinStrings ',' s.rootUsers) ",") =
      joinStrings ',' s.rootUsers) :
    SameWriting s s' := by
  obtain ⟨v, hrest⟩ := h.rest
  have hsession : s'.isSession = true := by
    rw [isSession_iff, h.facetKinds]
    exact (ht.kinds _).mpr (.inl rfl)
  refine ⟨?_, ?_, h.typeEntries, fun kind => ?_⟩
  · rw [hrest]
    exact ht.name
  · unfold baseEntries
    rw [hsession, hs.session, h.typeName, hrest]
    simp [sessionBase, withBase, withProfile, updateFacet, husers, hrootUsers, ht.name]
  · rw [hsession, hs.session]
    by_cases hkind : kind = .userdata
    · subst hkind
      obtain ⟨u, u', hu, hu', hsame, huser, hroot⟩ := h.data
      rw [getFacet_of_userdata? hu', getFacet_of_userdata? hu]
      simp [facetEntries, hsame, huser, hroot]
    · have hmem : kind ∈ s'.facetKinds ↔ kind ∈ s.facetKinds := by
        rw [h.facetKinds, ht.kinds, hs.facets]
      by_cases hin : kind ∈ s.facetKinds
      · obtain ⟨g, hg, -⟩ := exists_getFacet (hmem.mpr hin)
        obtain ⟨f, hf, -⟩ := exists_getFacet hin
        obtain ⟨b, hfresh, rfl, rfl⟩ := h.facets kind g hkind hg
        rw [hg, hf, Option.map_some, Option.map_some,
          facetEntries_rereadSession hfresh hf hkind hunion hselected]
      · rw [getFacet_none fun hm => hin (hmem.mp hm), getFacet_none hin]

/-- **What comes out has the flags of its type**, as no source chroot is left. -/
theorem SessionRead.getSessionFlags
    (h : SessionRead s t s')
    (ht : IsTemplate cfg (newKind s.kind) s.name t)
    (hunion : ∀ u, s.unionFacet? = some u → u.configured = false) :
    s'.getSessionFlags = s.typeFlags := by
  have hsession : s'.isSession = true := by
    rw [isSession_iff, h.facetKinds]
    exact (ht.kinds _).mpr (.inl rfl)
  have hnodup : s'.facetKinds.Nodup := by
    rw [h.facetKinds]
    exact ht.nodup
  rw [getSessionFlags_of_session hsession ?_ ?_ ?_, h.typeFlags]
  · rw [h.facetKinds, ht.kinds]
    simp
  · intro w hw
    obtain ⟨f, hfresh, hkind, hwf⟩ := h.facets .union _ (by decide) (getFacet_of_mem hnodup hw)
    cases f <;> simp only [Facet.kind, reduceCtorEq] at hkind
    rename_i w'
    have hnone : w'.unionType = "none" := hfresh
    have hfilter : s.unionFacet?.filter UnionFacet.configured = none := by
      cases hz : s.unionFacet? with
      | none => rfl
      | some z => simp [Option.filter, hunion z hz]
    simp only [rereadSession, reread, hfilter, Option.getD_none, Facet.union.injEq] at hwf
    rw [hwf, UnionFacet.configured, hnone]
    rfl
  · intro z hz
    obtain ⟨f, hfresh, hkind, hzf⟩ := h.facets .session _ (by decide) (getFacet_of_mem hnodup hz)
    cases f <;> simp only [Facet.kind, reduceCtorEq] at hkind
    rename_i y
    have hparent : z.parent = y.parent := by
      simp only [rereadSession] at hzf
      split at hzf <;> cases hzf <;> rfl
    rw [hparent]
    exact hfresh

end Written

end Chroot

end Schroot
