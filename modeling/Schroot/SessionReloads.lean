import Schroot.ConfigFiles
import Schroot.SessionDirectory
import Schroot.SessionReading

/-!
# Which sessions come back from their files

A session is written to its file when it is begun, and the file is loaded in the session namespace
when the session is recovered, used or ended.  It comes back unless it is a session of a source
chroot or of a chroot with a union, or the user or the selected name cannot be read again.

**Results.**
* `comesBack_iff`: the sessions that come back.
* `reloadsFile_iff`: the sessions that are read from their files as they were begun.
-/

namespace Schroot

namespace ChrootConfig

section Loading

variable {cfg : SbuildConfig} {kf : Keyfile} {conf : ChrootConfig} {c : Chroot}

/-- **The file of a session is loaded** into a new configuration if the session is. -/
theorem exists_loadSession
    (hgroups : kf.getGroups = [c.name])
    (hload : loadChroot cfg "session" kf c.name = .ok c)
    (hsession : c.isSession = true) :
    ∃ conf, loadKeyfile cfg "session" kf .empty = .ok conf ∧
      conf.findChroot "session" c.name = some c := by
  have hnone : empty.findChroot "session" c.name = none := by
    unfold findChroot
    cases h : empty.namespaces["session"]? with
    | none => rfl
    | some chroots =>
        rw [(namespaces_empty h).2]
        simp
  obtain ⟨conf, hadd⟩ := exists_add kf (by simp [empty]) hnone (by simp [empty])
  have hsource : loadSource cfg c = .ok none := by
    unfold loadSource
    split
    · rw [hsession]
      simp
    · rfl
  refine ⟨conf, ?_, ?_⟩
  · simp [loadKeyfile, hgroups, loadGroup, hload, hadd, hsource, bind, Except.bind, pure,
      Except.pure]
  · rw [(added_of_add hadd).chroots, if_pos ⟨rfl, rfl⟩]

/-- **What is found has been loaded** from a group of the keyfile. -/
theorem exists_loadChroot_of_findChroot
    {name : String}
    (hload : loadKeyfile cfg "session" kf .empty = .ok conf)
    (hfind : conf.findChroot "session" name = some c) :
    c.name = name ∧ ∃ group, loadChroot cfg "session" kf group = .ok c := by
  have hempty : ∀ name c, empty.findChroot "session" name = some c →
      c.name = name ∧ ∃ group, loadChroot cfg "session" kf group = .ok c := by
    intro name c hfind
    obtain ⟨chroots, hns, hc⟩ := Option.bind_eq_some_iff.mp hfind
    rw [(namespaces_empty hns).2] at hc
    simp at hc
  have hrun : ∀ name c,
      (loadGroups cfg "session" kf empty kf.getGroups).1.findChroot "session" name = some c →
        c.name = name ∧ ∃ group, loadChroot cfg "session" kf group = .ok c := by
    refine loadGroups_keeps
      (P := fun conf => ∀ name c, conf.findChroot "session" name = some c →
        c.name = name ∧ ∃ group, loadChroot cfg "session" kf group = .ok c)
      (fun {group c conf conf'} hconf hc hadd name d hd => ?_)
      (fun hconf _ _ hadd name d hd => ?_) hempty kf.getGroups
    · rw [(added_of_add hadd).chroots] at hd
      split at hd
      · rename_i hname
        cases hd
        exact ⟨hname.2.symm, group, hc⟩
      · exact hconf name d hd
    · rw [(added_of_add hadd).chroots, if_neg (by simp)] at hd
      exact hconf name d hd
  have heq : (loadGroups cfg "session" kf empty kf.getGroups).1 = conf := by
    have hgroups : kf.getGroups.foldlM (loadGroup cfg "session" kf) .empty = .ok conf := hload
    rw [loadGroups_eq] at hgroups
    split at hgroups
    · rename_i hrun'
      cases hgroups
      rw [hrun']
    · cases hgroups
  exact hrun name c (heq ▸ hfind)

end Loading

end ChrootConfig

namespace Chroot

section Sources

variable {cfg : SbuildConfig} {kf : Keyfile} {c s x y : Chroot}

/-- The session is not that of a source chroot. -/
def PlainParent (x : Chroot) : Prop :=
  ∀ z, x.sessionFacet? = some z → ∀ kinds, z.parent = some kinds → .source ∉ kinds

theorem PlainParent.of_facet
    (hx : PlainParent x)
    (h : y.getFacet .session = x.getFacet .session) :
    PlainParent y := by
  intro z hz
  rw [sessionFacet?, h] at hz
  exact hx z hz

theorem sessionFacet?_updateFacet
    {z z' : SessionFacet}
    (hz : x.sessionFacet? = some z) :
    (x.updateFacet (.session z')).sessionFacet? = some z' := by
  unfold sessionFacet? getFacet at hz
  simp only [sessionFacet?, getFacet, updateFacet, TaggedList.get?_replace]
  cases hget : TaggedList.get? Facet.kind .session x.facets with
  | none => simp [hget] at hz
  | some f => simp [Facet.kind]

theorem PlainParent.updateSession
    {z z' : SessionFacet}
    (hx : PlainParent x)
    (hz : x.sessionFacet? = some z)
    (hparent : z'.parent = z.parent) :
    PlainParent (x.updateFacet (.session z')) := by
  intro w hw
  rw [sessionFacet?_updateFacet hz] at hw
  cases hw
  rw [hparent]
  exact hx z hz

theorem getFacet_setMountDevice
    {k : FacetKind}
    (hk : k ≠ .mountable)
    (device : String) (x : Chroot) :
    (setMountDevice device x).getFacet k = x.getFacet k := by
  unfold setMountDevice
  split
  · rfl
  · exact getFacet_updateFacet (f := .mountable _) hk

theorem PlainParent.typeStep
    {x₀ : Chroot} {key : String}
    (hx : PlainParent x)
    (h : TypeStep kf x₀ x key y) :
    PlainParent y := by
  cases h with
  | skip => exact hx
  | kind => exact hx.of_facet rfl
  | snapshotDevice _ _ hset =>
      obtain ⟨-, hset⟩ := checkAbs_bind_eq_ok_iff.mp hset
      cases hset
      exact hx.of_facet (getFacet_setMountDevice (by decide) _ _)
  | cloneName =>
      simp only [setZfsCloneName]
      split
      · exact hx.of_facet (getFacet_setMountDevice (by decide) _ _)
      · exact hx.of_facet (getFacet_setMountDevice (by decide) _ _)
  | switch _ hf hset =>
      split at hset
      · obtain ⟨-, rfl⟩ := addFacet_eq_ok_iff.mp hset
        refine hx.of_facet ?_
        rw [getFacet, TaggedList.get?_append]
        rcases hf with rfl | rfl
        · simp [TaggedList.get?, Facet.kind, getFacet]
        · simp [TaggedList.get?, Facet.kind, getFacet]
      · cases hset
        refine hx.of_facet (TaggedList.get?_remove ?_ _)
        rcases hf with rfl | rfl <;> simp [Facet.kind]

theorem PlainParent.facetStep
    {key : String}
    (hx : PlainParent x)
    (h : FacetStep kf x key y) :
    PlainParent y := by
  cases h with
  | skip => exact hx
  | originalName hs => exact hx.updateSession hs rfl
  | selectedName hs => exact hx.updateSession hs rfl
  | _ => exact hx.of_facet (getFacet_updateFacet (by simp [Facet.kind]))

theorem PlainParent.setUnionType
    {type : String}
    (hx : PlainParent x)
    (h : Chroot.setUnionType type x = .ok y) :
    PlainParent y := by
  have hunion : ∀ u, (x.updateFacet (.union u)).getFacet .session = x.getFacet .session :=
    fun u => getFacet_updateFacet (f := .union u) (by simp [Facet.kind])
  rcases setUnionType_cases h with
    ⟨_, rfl⟩ | ⟨u, _, _, ⟨_, rfl⟩ | ⟨_, _, rfl⟩ | ⟨_, _, rfl⟩⟩
  · exact hx
  · exact hx.of_facet ((TaggedList.get?_remove (by decide) _).trans (hunion _))
  · exact hx.of_facet (hunion _)
  · refine hx.of_facet ?_
    have hadded : TaggedList.get? Facet.kind .session [Facet.sourceClonable {}] = none := rfl
    rw [getFacet, TaggedList.get?_append, hadded, Option.or_none]
    exact hunion _

/-- **Reading a keyfile does not change what a session was begun from.** -/
theorem PlainParent.setKeyfile
    (hx : PlainParent x)
    (h : x.setKeyfile cfg kf = .ok y) :
    PlainParent y :=
  KeptByKeys.setKeyfile (P := PlainParent)
    ⟨fun hx hstep => hx.of_facet (getFacet_baseStep (by decide) hstep),
      fun hx hstep => hx.typeStep hstep, fun hx hstep => hx.facetStep hstep,
      fun hx _ hset => hx.setUnionType hset,
      fun hx _ _ _ => hx.of_facet (getFacet_updateFacet (by simp [Facet.kind]))⟩ hx h

/-- No template is the session of a source chroot. -/
theorem plainParent_createTemplate
    {ns group : String}
    (h : ChrootConfig.createTemplate cfg ns kf group = .ok c) :
    PlainParent c := by
  simp only [ChrootConfig.createTemplate, bind_eq_ok_iff, mapError_eq_ok_iff] at h
  obtain ⟨a, ha, b, hb, h⟩ := h
  obtain ⟨kind, -, hkinds⟩ := facetKinds_create ha
  obtain ⟨-, -, rfl⟩ := setName_eq_ok_iff.mp hb
  have hnone : .session ∉ a.facetKinds := by
    rw [hkinds]
    exact session_notMem_newFacetKinds
  have hsource : .source ∉ a.facetKinds := by
    rw [hkinds]
    cases kind <;> simp [newFacetKinds, extraFacets, newUnion, Facet.kind]
  have hplain : PlainParent { a with name := group } := by
    intro z hz
    have hget : a.getFacet .session = none := getFacet_none hnone
    have hno : ({ a with name := group } : Chroot).sessionFacet? = none := by
      rw [sessionFacet?, show ({ a with name := group } : Chroot).getFacet .session = _ from hget]
    rw [hno] at hz
    cases hz
  split at h
  · obtain ⟨session, hsession, h⟩ := bind_eq_ok_iff.mp h
    cases session with
    | none =>
        cases h
        exact hplain
    | some d =>
        obtain ⟨hform, -⟩ := sessionForm_cloneSession (c := { a with name := group }) hnone hsession
        obtain ⟨-, -, rfl⟩ := setName_eq_ok_iff.mp (mapError_eq_ok_iff.mp h)
        intro z hz kinds hparent
        have hz' : d.sessionFacet? = some z := hz
        rw [hform.session] at hz'
        cases hz'
        cases hparent
        exact hsource
  · cases h
    exact hplain

/-- **The flag of a source chroot's session.** -/
theorem source_getSessionFlags (x : Chroot) :
    x.getSessionFlags.source = true ↔
      ∃ z kinds, .session z ∈ x.facets ∧ z.parent = some kinds ∧ .source ∈ kinds := by
  have hfold : ∀ (facets : List Facet) (flags : SessionFlags),
      (facets.foldl (fun flags f => flags.or (x.facetFlags f)) flags).source =
        (flags.source || facets.any fun f => (x.facetFlags f).source) := by
    intro facets
    induction facets with
    | nil => simp
    | cons f facets ih =>
        intro flags
        rw [List.foldl_cons, ih, List.any_cons, SessionFlags.or]
        simp [Bool.or_assoc]
  have htype : x.typeFlags.source = false := by
    unfold typeFlags
    cases x.kind <;> rfl
  rw [getSessionFlags, hfold, htype, Bool.false_or, List.any_eq_true]
  constructor
  · rintro ⟨f, hf, hflag⟩
    cases f with
    | session z =>
        cases hparent : z.parent with
        | none => simp [facetFlags, hparent] at hflag
        | some kinds => exact ⟨z, kinds, hf, hparent, by simpa [facetFlags, hparent] using hflag⟩
    | _ => simp [facetFlags] at hflag
  · rintro ⟨z, kinds, hf, hparent, hsource⟩
    exact ⟨_, hf, by simp [facetFlags, hparent, hsource]⟩

/-- What is loaded keeps the invariant of the data. -/
theorem dataInvariant_loadChroot
    {ns group : String}
    (h : ChrootConfig.loadChroot cfg ns kf group = .ok c) :
    DataInvariant c := by
  have hreach : Reachable cfg (fun _ _ => True) c := reachable_loadChroot (fun _ _ => trivial) h
  exact dataInvariant_of_reachable hreach

/-- **No session that is loaded** has the flag. -/
theorem source_loadSession
    {group : String}
    (h : ChrootConfig.loadChroot cfg "session" kf group = .ok c) :
    c.getSessionFlags.source = false := by
  have hdata : DataInvariant c := dataInvariant_loadChroot h
  simp only [ChrootConfig.loadChroot, bind_eq_ok_iff, mapError_eq_ok_iff] at h
  obtain ⟨t, ht, hset⟩ := h
  have hplain := (plainParent_createTemplate ht).setKeyfile hset
  rw [Bool.eq_false_iff, ne_eq, source_getSessionFlags]
  rintro ⟨z, kinds, hz, hparent, hsource⟩
  have hget : c.getFacet .session = some (.session z) := getFacet_of_mem hdata.nodup hz
  refine hplain z ?_ kinds hparent hsource
  rw [sessionFacet?, hget]

end Sources

section Recovery

variable {cfg : SbuildConfig} {kf : Keyfile} {c s s' t : Chroot}
  {sessionId selected user : String} {root : Bool}

/-- A chroot of the configuration: it is loaded from a text, or it is the source chroot of
one. -/
inductive Configured (cfg : SbuildConfig) : Chroot → Prop
  | chroot {text group : String} {kf : Keyfile} {c : Chroot}
      (hparse : Keyfile.empty.parse text = .ok kf)
      (hload : ChrootConfig.loadChroot cfg "chroot" kf group = .ok c) :
      Configured cfg c
  | source {c source : Chroot}
      (hc : Configured cfg c)
      (h : c.cloneSource cfg = .ok (some source)) :
      Configured cfg source

/-- **The session comes back** when its file is loaded into a new configuration. -/
def ComesBack (cfg : SbuildConfig) (s : Chroot) : Prop :=
  ∃ conf s', ChrootConfig.parseData cfg "session" (s.getKeyfile .empty).print .empty = .ok conf ∧
    conf.findChroot "session" s.name = some s' ∧
    s'.getKeyfile .empty = s.getKeyfile .empty ∧
    s'.getSessionFlags = s.getSessionFlags

/-- What a chroot, the selected name and the user have to be like for the session to come
back. -/
structure SessionWritable (c : Chroot) (selected user : String) : Prop where
  source : .source ∉ c.facetKinds
  union : ∀ u, c.unionFacet? = some u → u.configured = false
  profile : c.scriptConfig = "" → ∀ u, c.userdata? = some u → u.HasProfile
  filter : c.environmentFilter ≠ ""
  user : SingleLine user ∧ joinStrings ',' (splitString user ",") = user
  selected : SingleLine (getNamespace selected).2 ∧
    (getNamespace (getNamespace selected).2).2 = (getNamespace selected).2

/-- The same as a test. -/
def isSessionWritable (c : Chroot) (selected user : String) : Bool :=
  !c.hasFacet .source && c.unionFacet?.all (fun u => !u.configured) &&
    (decide (c.scriptConfig ≠ "") ||
      c.userdata?.all fun u => Userdata.profileKeys.all fun key => u.userdata.contains key) &&
    decide (c.environmentFilter ≠ "") &&
    decide (SingleLine user) && decide (joinStrings ',' (splitString user ",") = user) &&
    decide (SingleLine (getNamespace selected).2) &&
    decide ((getNamespace (getNamespace selected).2).2 = (getNamespace selected).2)

theorem isSessionWritable_iff :
    c.isSessionWritable selected user = true ↔ SessionWritable c selected user := by
  have hunion : (c.unionFacet?.all fun u => !u.configured) = true ↔
      ∀ u, c.unionFacet? = some u → ¬ u.configured = true := by
    cases c.unionFacet? <;> simp
  have hprofile : (c.userdata?.all fun u =>
      Userdata.profileKeys.all fun key => u.userdata.contains key) = true ↔
        ∀ u, c.userdata? = some u → u.HasProfile := by
    cases c.userdata? <;> simp [Userdata.HasProfile]
  simp only [isSessionWritable, Bool.and_eq_true, Bool.or_eq_true, decide_eq_true_eq,
    Bool.not_eq_true', ← Bool.not_eq_true, hasFacet_iff, hunion, hprofile]
  constructor
  · rintro ⟨⟨⟨⟨⟨⟨⟨hs, hu⟩, hp⟩, hf⟩, huser⟩, hlist⟩, hsel⟩, hcut⟩
    exact ⟨hs, fun u hfacet => Bool.eq_false_iff.mpr (hu u hfacet),
      fun hscript => hp.resolve_left fun hne => hne hscript, hf, ⟨huser, hlist⟩, hsel, hcut⟩
  · rintro ⟨hs, hu, hp, hf, ⟨huser, hlist⟩, hsel, hcut⟩
    refine ⟨⟨⟨⟨⟨⟨⟨hs, fun u hfacet => Bool.eq_false_iff.mp (hu u hfacet)⟩, ?_⟩, hf⟩, huser⟩,
      hlist⟩, hsel⟩, hcut⟩
    exact or_iff_not_imp_left.mpr fun hne => hp (not_not.mp hne)

/-- A chroot that sessions are begun from and that is no source chroot. -/
structure IsOrigin (cfg : SbuildConfig) (c : Chroot) : Prop where
  loaded : IsLoaded cfg c
  built : Built cfg c
  fresh : Fresh c

theorem Configured.isOrigin
    (hc : Configured cfg c)
    (hsource : .source ∉ c.facetKinds) :
    IsOrigin cfg c := by
  cases hc with
  | chroot hparse hload =>
      have hloaded := isLoaded_of_loadChroot hload
      exact ⟨hloaded, built_loadChroot (Keyfile.singleLines_parse hparse) hload,
        fresh_of_loaded (.chroot hload) hloaded.session⟩
  | source _ h =>
      refine absurd ?_ hsource
      rw [(facetKinds_cloneSource h).2]
      simp

theorem IsOrigin.sessionData
    (hc : IsOrigin cfg c)
    (h : c.cloneSession cfg sessionId selected user root = .ok (some s)) :
    SessionData cfg s :=
  sessionData_cloneSession hc.loaded hc.built.reachable hc.fresh h

theorem form_of_cloneSession
    (h : c.cloneSession cfg sessionId selected user root = .ok (some s)) :
    SessionForm c sessionId selected s := by
  refine (sessionForm_cloneSession (fun hm => ?_) h).1
  have hno := isSession_of_cloneSession h
  rw [isSession_iff.mpr hm] at hno
  cases hno

theorem getFacet_of_sessionFacet?
    {z : SessionFacet}
    (h : s.sessionFacet? = some z) :
    s.getFacet .session = some (.session z) := by
  unfold sessionFacet? at h
  split at h
  · rename_i hget
    cases h
    exact hget
  · cases h

/-- The user is in one of the two lists. -/
theorem joinStrings_users
    (h : c.cloneSession cfg sessionId selected user root = .ok (some s)) :
    joinStrings ',' s.users = (if root then "" else user) ∧
      joinStrings ',' s.rootUsers = (if root then user else "") := by
  have hof := sessionOf_cloneSession h
  have hone : joinStrings ',' (if user ≠ "" then [user] else []) = user := by
    split
    · simp [joinStrings, LineText.joined]
    · rename_i hempty
      exact (not_not.mp hempty).symm
  rw [hof.users, hof.rootUsers]
  cases root
  · exact ⟨hone, rfl⟩
  · exact ⟨rfl, hone⟩

theorem SessionForm.union
    (h : SessionForm c sessionId selected s) :
    (∀ u, s.unionFacet? = some u → u.configured = false) ↔
      ∀ u, c.unionFacet? = some u → u.configured = false := by
  have htype := h.unionType
  cases hs : s.unionFacet? with
  | none =>
      cases hc : c.unionFacet? with
      | none => simp
      | some u => simp [hs, hc] at htype
  | some v =>
      cases hc : c.unionFacet? with
      | none => simp [hs, hc] at htype
      | some u =>
          rw [hs, hc, Option.map_some, Option.map_some, Option.some.injEq] at htype
          simp [UnionFacet.configured, htype]

theorem SessionForm.profile
    (h : SessionForm c sessionId selected s) :
    (s.scriptConfig = "" → ∀ u, s.userdata? = some u → u.HasProfile) ↔
      (c.scriptConfig = "" → ∀ u, c.userdata? = some u → u.HasProfile) := by
  have hscript : s.scriptConfig = c.scriptConfig :=
    (congrArg Chroot.scriptConfig h.rest).trans rfl
  have hdata : s.userdata? = c.userdata? := by
    rw [userdata?, userdata?, h.facets _ (.inr rfl)]
  rw [hscript, hdata]

theorem SessionForm.filter
    (h : SessionForm c sessionId selected s) :
    s.environmentFilter = c.environmentFilter :=
  (congrArg Chroot.environmentFilter h.rest).trans rfl

/-- A chroot that is read into the template of a file is none. -/
theorem SessionRead.wellKeyed
    (h : SessionRead s t s')
    (hdata : DataInvariant s')
    (ht : IsTemplate cfg (newKind s.kind) s.name t) :
    WellKeyed s' := by
  refine wellKeyed_of_location hdata fun ⟨f, hf⟩ hmount => ?_
  have hkind : newKind s'.kind = newKind s.kind := newKind_eq_of_typeName h.typeName
  rw [h.facetKinds, ht.kinds, ← hkind, hf] at hmount
  rcases hmount with hmount | ⟨hmount, -⟩
  · cases hmount
  · exact mountable_notMem_file hmount

/-- Names that are the same after they were joined and taken apart. -/
def Rejoined (names : List String) : Prop :=
  joinStrings ',' (splitString (joinStrings ',' names) ",") = joinStrings ',' names

/-- What the session of a chroot is like if it is to come back. -/
structure BackForm (s : Chroot) : Prop where
  profile : s.scriptConfig = "" → ∀ u, s.userdata? = some u → u.HasProfile
  filter : s.environmentFilter ≠ ""
  union : ∀ u, s.unionFacet? = some u → u.configured = false
  selected : ∀ z, s.sessionFacet? = some z → (getNamespace z.selectedName).2 = z.selectedName
  parent : PlainParent s
  users : Rejoined s.users
  rootUsers : Rejoined s.rootUsers

/-- The flags of such a session are those of its type. -/
theorem SessionData.getSessionFlags
    (hs : SessionData cfg s)
    (hback : BackForm s) :
    s.getSessionFlags = s.typeFlags := by
  refine getSessionFlags_of_session hs.session (hs.notMem (.inl rfl)) (fun w hw => ?_)
    fun z hz => ?_
  · refine hback.union w ?_
    rw [unionFacet?, show s.getFacet .union = _ from getFacet_of_mem hs.data.nodup hw]
  · refine hback.parent z ?_
    rw [sessionFacet?, show s.getFacet .session = _ from getFacet_of_mem hs.data.nodup hz]

/-- A session that can be written, and that has nothing that matters and is not written. -/
structure Recoverable (cfg : SbuildConfig) (s : Chroot) : Prop where
  data : SessionData cfg s
  lines : OneLine s
  back : BackForm s

/-- **What the file of such a session is loaded as.** -/
theorem Recoverable.exists_loaded
    (h : Recoverable cfg s) :
    ∃ conf s', ChrootConfig.parseData cfg "session" (s.getKeyfile .empty).print .empty = .ok conf ∧
      conf.findChroot "session" s.name = some s' ∧ s'.getKeyfile .empty = s.getKeyfile .empty ∧
      s'.getSessionFlags = s.getSessionFlags ∧ s'.kind.typeName = s.kind.typeName := by
  obtain ⟨hs, hlines, hback⟩ := h
  have hflags := hs.getSessionFlags hback
  obtain ⟨hprofile, hfilter, hunion, hselected, -, husers, hrootUsers⟩ := hback
  obtain ⟨kf, hparse, hgroups, hkf⟩ := parse_print_session hs (singleLine_writtenValues hlines)
  obtain ⟨t, htemplate, ht⟩ := hs.exists_template hkf
  obtain ⟨u, hu⟩ := exists_userdata hs.profile.present
  obtain ⟨s', hset, hread⟩ := exists_setKeyfile_session hs hkf ht hu
    (fun hscript => hprofile hscript u hu) hfilter hunion
  have hload : ChrootConfig.loadChroot cfg "session" kf s.name = .ok s' := by
    simp [ChrootConfig.loadChroot, htemplate, hset, Except.mapError, bind, Except.bind]
  have hdata : DataInvariant s' := dataInvariant_loadChroot hload
  have hsame : SameWriting s s' :=
    hread.sameWriting hs ht hunion hselected husers hrootUsers
  have hsession : s'.isSession = true := by
    rw [isSession_iff, hread.facetKinds]
    exact (ht.kinds _).mpr (.inl rfl)
  obtain ⟨conf, hconf, hfind⟩ := ChrootConfig.exists_loadSession (c := s')
    (by rw [hsame.name]; exact hgroups) (by rw [hsame.name]; exact hload) hsession
  refine ⟨conf, s', ?_, hsame.name ▸ hfind,
    hsame.getKeyfile hs.wellKeyed (hread.wellKeyed hdata ht), ?_, hread.typeName⟩
  · simp [ChrootConfig.parseData, hparse, hconf, Except.mapError, bind, Except.bind]
  · rw [hread.getSessionFlags ht hunion, hflags]

/-- **It comes back.** -/
theorem Recoverable.comesBack
    (h : Recoverable cfg s) :
    ComesBack cfg s := by
  obtain ⟨conf, s', hconf, hfind, hsame, hflags, -⟩ := h.exists_loaded
  exact ⟨conf, s', hconf, hfind, hsame, hflags⟩

/-- A chroot that can be written has a session like that. -/
theorem SessionWritable.backForm
    (hw : SessionWritable c selected user)
    (h : c.cloneSession cfg sessionId selected user root = .ok (some s)) :
    BackForm s := by
  have hform := form_of_cloneSession h
  obtain ⟨husers, hrootUsers⟩ := joinStrings_users h
  have hrejoined : ∀ b : Bool, joinStrings ',' (splitString (if b then "" else user) ",") =
      if b then "" else user := by
    intro b
    cases b
    · exact hw.user.2
    · rfl
  refine ⟨hform.profile.mpr hw.profile, ?_, hform.union.mpr hw.union, ?_, ?_, ?_, ?_⟩
  · rw [hform.filter]
    exact hw.filter
  · intro z hz
    rw [hform.session] at hz
    cases hz
    exact hw.selected.2
  · intro z hz kinds hkinds
    rw [hform.session] at hz
    cases hz
    cases hkinds
    exact hw.source
  · rw [Rejoined, husers]
    exact hrejoined root
  · rw [Rejoined, hrootUsers]
    have hnot := hrejoined !root
    cases root <;> exact hnot

/-- **These sessions can come back.** -/
theorem recoverable_of_writable
    (hc : IsOrigin cfg c)
    (hw : SessionWritable c selected user)
    (h : c.cloneSession cfg sessionId selected user root = .ok (some s)) :
    Recoverable cfg s :=
  ⟨hc.sessionData h, oneLine_cloneSession hc.built hw.selected.2 hw.selected.1 hw.user.1 h,
    hw.backForm h⟩

/-- **What the file of a session that comes back is read as** has one line for each value. -/
theorem singleLine_of_comesBack
    (hparse : Keyfile.empty.parse (s.getKeyfile .empty).print = .ok kf)
    {group : String}
    (hload : ChrootConfig.loadChroot cfg "session" kf group = .ok s')
    (hname : s'.name = s.name)
    (hsame : s'.getKeyfile .empty = s.getKeyfile .empty) :
    ∀ e ∈ s.writtenValues.toList, SingleLine e.2 := by
  have hlines := oneLine_of_built (built_loadChroot (Keyfile.singleLines_parse hparse) hload)
  intro e he
  have hvalue := Std.ExtTreeMap.mem_toList_iff_getElem?_eq_some.mp he
  have hvalues : ∀ d : Chroot, HasValues (d.getKeyfile .empty) d := value?_getKeyfile
  rw [← hvalues s, ← hsame, ← hname, hvalues s'] at hvalue
  exact singleLine_keyfileEntries hlines e
    (mem_of_mem_writtenValues (Std.ExtTreeMap.mem_toList_iff_getElem?_eq_some.mpr hvalue))

/-- A template has what a new chroot has from its constructor. -/
theorem keepsDefaults_template
    {kind : ChrootKind}
    (ht : IsTemplate cfg kind s.name t) :
    KeepsDefaults s t := by
  obtain ⟨u, hu, hfrom⟩ := ht.data
  refine ⟨ht.name, fun _ => ?_, fun _ v hv key hkey => ?_⟩
  · rw [ht.filter]
    exact cfg.filter_ne_empty
  · have hget := getFacet_of_mem ht.nodup hv
    rw [show Facet.kind (.userdata v) = .userdata from rfl, getFacet_of_userdata? hu] at hget
    cases hget
    exact (hfrom.keys key).mpr hkey

/-- What is read back is written where the session has the entry. -/
theorem entry_of_getKeyfile
    (key : String) {value value' : String}
    (hs : WellKeyed s)
    (hs' : WellKeyed s')
    (hname : s'.name = s.name)
    (hsame : s'.getKeyfile .empty = s.getKeyfile .empty)
    (h : (key, value) ∈ s.keyfileEntries)
    (h' : (key, value') ∈ s'.keyfileEntries) :
    value' = value := by
  have hvalues : ∀ d : Chroot, HasValues (d.getKeyfile .empty) d := value?_getKeyfile
  have hread := (hvalues s').of_mem hs' h'
  rw [hsame, hname, (hvalues s).of_mem hs h] at hread
  exact (Option.some.inj hread).symm

/-- What a facet writes is written. -/
theorem mem_keyfileEntries_of_getFacet
    {kind : FacetKind} {f : Facet} {key value : String}
    (hf : s.getFacet kind = some f)
    (hmem : (key, value) ∈ facetEntries s.isSession f) :
    (key, value) ∈ s.keyfileEntries := by
  rw [keyfileEntries, List.mem_append]
  exact .inr (List.mem_flatMap.mpr ⟨f, (mem_of_getFacet hf).1, hmem⟩)

/-- A template has no union yet. -/
theorem sourceMatches_template
    {kind : ChrootKind} {name : String}
    (ht : IsTemplate cfg kind name t) :
    SourceMatches t := by
  intro u hu
  have hnone : u.unionType = "none" := ht.fresh _ (mem_of_unionFacet? hu)
  rw [ht.kinds]
  simp [UnionFacet.configured, hnone]

/-- A chroot stays of its type. -/
theorem typeName_setKeyfile
    (h : t.setKeyfile cfg kf = .ok s') :
    s'.kind.typeName = t.kind.typeName := by
  obtain ⟨d, e, f, used, hbase, -, htype, hfacets, hs'⟩ := setKeyfile_phases.mp h
  have hrest : FacetFrame f s' := hs' ▸ facetFrame_setUnusedKeys kf (unusedKeys kf f.name used) f
  have hkind : s'.kind = e.kind := by rw [hrest.rest, (setFacetsKeyfile_frame hfacets).1.rest]
  rw [hkind, (typeFrame_typeKeys htype).typeName, (readKeys_baseKeys_frame hbase).2.1]

/-- What is read into the template of a session that is no file is none. -/
theorem wellKeyed_setKeyfile
    (hdata : DataInvariant s')
    (ht : IsTemplate cfg (newKind s.kind) s.name t)
    (hset : t.setKeyfile cfg kf = .ok s') :
    WellKeyed s' := by
  have hname := typeName_setKeyfile hset
  refine wellKeyed_of_location hdata fun ⟨file, hfile⟩ hmount => ?_
  rw [mem_facetKinds_setKeyfile hset _ (by decide) (by decide), ht.kinds] at hmount
  rw [ht.type, hfile] at hname
  rcases hmount with hmount | ⟨hmount, -⟩
  · cases hmount
  · cases hk : s.kind <;> simp [hk, newKind, ChrootKind.typeName] at hname
    rename_i f
    rw [hk] at hmount
    exact mountable_notMem_file hmount

/-- **A session with a union reads a source-clonable facet**, which it does not have. -/
theorem union_of_comesBack
    {u : Userdata}
    (hs : SessionData cfg s)
    (hkf : HasValues kf s)
    (ht : IsTemplate cfg (newKind s.kind) s.name t)
    (hu : s.userdata? = some u)
    (hprofile : s.scriptConfig = "" → u.HasProfile)
    (hfilter : s.environmentFilter ≠ "")
    (hset : t.setKeyfile cfg kf = .ok s')
    (hs' : WellKeyed s')
    (hname : s'.name = s.name)
    (hsame : s'.getKeyfile .empty = s.getKeyfile .empty) :
    ∀ u, s.unionFacet? = some u → u.configured = false := by
  intro w hw
  obtain ⟨v, -, hbase⟩ := readKeys_baseKeys_session hs hkf ht hu hprofile hfilter
  obtain ⟨-, e, htype, he, -⟩ := readKeys_typeKeys_base (v := v) hs hkf ht
  obtain ⟨d', e', f, used, hbase', -, htype', hfacets, hf⟩ := setKeyfile_phases.mp hset
  rw [hbase] at hbase'
  cases hbase'
  rw [htype] at htype'
  cases htype'
  have hekinds : e.facetKinds = t.facetKinds := he.facetKinds.trans (facetKinds_sessionBase s t v)
  have hematches : SourceMatches e := by
    refine (sourceMatches_template ht).of_union (unionFacet?_eq ?_) hekinds
    rw [he.facets _ (by decide), getFacet_sessionBase (by decide)]
  have hfmatches : SourceMatches f :=
    hematches.setFacetsKeyfile (hekinds ▸ ht.nodup) hfacets
  have hrest : FacetFrame f s' := hf ▸ facetFrame_setUnusedKeys kf (unusedKeys kf f.name used) f
  have hmatches : SourceMatches s' := by
    refine hfmatches.of_union (unionFacet?_eq ?_) hrest.facetKinds
    rw [hf]
    exact getFacet_setUnusedKeys (by decide) _ f
  -- the session that is read has the union of the session
  have hmem : .union ∈ s'.facetKinds := by
    rw [mem_facetKinds_setKeyfile hset _ (by decide) (by decide), ht.kinds, ← hs.facets]
    exact mem_facetKinds_of_unionFacet? hw
  obtain ⟨g, hg, hgkind⟩ := exists_getFacet hmem
  cases g <;> simp only [Facet.kind, reduceCtorEq] at hgkind
  rename_i w'
  have hw' : s'.unionFacet? = some w' := by rw [unionFacet?, hg]
  have hunionType : w'.unionType = w.unionType :=
    entry_of_getKeyfile "union-type" hs.wellKeyed hs' hname hsame
      (mem_keyfileEntries_of_getFacet (getFacet_of_unionFacet? hw) (by simp [facetEntries]))
      (mem_keyfileEntries_of_getFacet hg (by simp [facetEntries]))
  rw [Bool.eq_false_iff]
  intro hconfigured
  have hsource : .sourceClonable ∈ s'.facetKinds := by
    rw [hmatches w' hw', UnionFacet.configured, hunionType]
    exact hconfigured
  obtain ⟨g, hg, hgkind⟩ := exists_getFacet hsource
  cases g <;> simp only [Facet.kind, reduceCtorEq] at hgkind
  rename_i z
  have hvalues : ∀ d : Chroot, HasValues (d.getKeyfile .empty) d := value?_getKeyfile
  have hentry : ("source-clone", printBool z.sourceClone) ∈ s'.keyfileEntries :=
    mem_keyfileEntries_of_getFacet hg (by simp [facetEntries])
  have hread := (hvalues s').of_mem hs' hentry
  rw [hsame, hname, (hvalues s).facet_none .sourceClonable hs.wellKeyed (by decide) (by decide)]
    at hread
  · cases hread
  · intro b hb
    rw [getFacet_none (hs.notMem (.inr (.inl rfl)))] at hb
    cases hb

/-- **Only these sessions come back.** -/
theorem writable_of_comesBack
    (hc : Configured cfg c)
    (h : c.cloneSession cfg sessionId selected user root = .ok (some s))
    (hback : ComesBack cfg s) :
    SessionWritable c selected user := by
  obtain ⟨conf, s', hconf, hfind, hsame, hflags⟩ := hback
  have hform := form_of_cloneSession h
  simp only [ChrootConfig.parseData, bind_eq_ok_iff, mapError_eq_ok_iff] at hconf
  obtain ⟨kf, hparse, hconf⟩ := hconf
  obtain ⟨hname, group, hloaded⟩ := ChrootConfig.exists_loadChroot_of_findChroot hconf hfind
  have hsource : .source ∉ c.facetKinds := by
    intro hmem
    have hfalse := source_loadSession hloaded
    rw [hflags, Bool.eq_false_iff, ne_eq, source_getSessionFlags] at hfalse
    exact hfalse ⟨_, _, (mem_of_getFacet (getFacet_of_sessionFacet? hform.session)).1, rfl, hmem⟩
  have horigin := hc.isOrigin hsource
  have hs := horigin.sessionData h
  have hlines := singleLine_of_comesBack hparse hloaded hname hsame
  obtain ⟨kf', hparse', hgroups, hkf⟩ := parse_print_session hs hlines
  rw [hparse] at hparse'
  cases hparse'
  obtain ⟨t, htemplate, ht⟩ := hs.exists_template hkf
  have hkept : ∀ d, ChrootConfig.loadChroot cfg "session" kf s.name = .ok d →
      t.setKeyfile cfg kf = .ok d ∧ KeepsDefaults s d := by
    intro d hd
    simp only [ChrootConfig.loadChroot, htemplate, bind_eq_ok_iff, mapError_eq_ok_iff] at hd
    obtain ⟨_, ht', hset⟩ := hd
    cases ht'
    exact ⟨hset, (keepsDefaults_template ht).setKeyfile hkf hs.wellKeyed hset⟩
  have hload := ChrootConfig.loadChroot_of_loadKeyfile hgroups (fun d hd => (hkept d hd).2.name)
    hconf hfind
  obtain ⟨hset, hdefaults⟩ := hkept s' hload
  have hdata' : DataInvariant s' := dataInvariant_loadChroot hload
  have hs' := wellKeyed_setKeyfile hdata' ht hset
  have hwritten : ∀ key {value value'}, (key, value) ∈ s.keyfileEntries →
      (key, value') ∈ s'.keyfileEntries → value' = value :=
    fun key _ _ hmem hmem' => entry_of_getKeyfile key hs.wellKeyed hs' hname hsame hmem hmem'
  have hline : ∀ key value, (key, value) ∈ s.keyfileEntries → SingleLine value :=
    fun key value hmem => hlines (key, value) (Std.ExtTreeMap.mem_toList_iff_getElem?_eq_some.mpr
      ((writtenValues_eq_some_iff hs.wellKeyed value).mpr hmem))
  obtain ⟨u, hu⟩ := exists_userdata hs.profile.present
  -- what the session does not write comes from the template
  have hprofile : s.scriptConfig = "" → u.HasProfile := by
    intro hscript key hkey
    obtain ⟨u', hu'⟩ : ∃ u', s'.userdata? = some u' := by
      refine exists_userdata ?_
      rw [mem_facetKinds_setKeyfile hset _ (by decide) (by decide), ht.kinds, ← hs.facets]
      exact hs.profile.present
    have hhas := hdefaults.profile hscript u' (mem_of_userdata? hu') key hkey
    rw [Std.ExtTreeMap.mem_iff_isSome_getElem?] at hhas ⊢
    rw [← userdata_of_getKeyfile hs.wellKeyed hs' hname hsame hu hu'
      (Userdata.validateKeyname_of_mem_profileKeys hkey)]
    exact hhas
  have hfilter : s.environmentFilter ≠ "" := by
    intro hempty
    have hsameFilter : s'.environmentFilter = s.environmentFilter :=
      hwritten "environment-filter" (by simp [keyfileEntries, baseEntries])
        (by simp [keyfileEntries, baseEntries])
    exact hdefaults.filter hempty (hsameFilter.trans hempty)
  have hunion := union_of_comesBack hs hkf ht hu hprofile hfilter hset hs' hname hsame
  -- and what it writes is read from there
  obtain ⟨s'', hset', hread⟩ := exists_setKeyfile_session hs hkf ht hu hprofile hfilter hunion
  rw [hset] at hset'
  cases hset'
  have hsession : s'.isSession = true := by
    rw [isSession_iff, hread.facetKinds]
    exact (ht.kinds _).mpr (.inl rfl)
  refine ⟨hsource, hform.union.mp hunion, hform.profile.mp fun hscript w hw => ?_,
    hform.filter ▸ hfilter, ?_, ?_⟩
  · rw [hu] at hw
    cases hw
    exact hprofile hscript
  · obtain ⟨v, hrest⟩ := hread.rest
    have hmem : ∀ x : Chroot, ("users", joinStrings ',' x.users) ∈ x.keyfileEntries ∧
        ("root-users", joinStrings ',' x.rootUsers) ∈ x.keyfileEntries :=
      fun x => ⟨by simp [keyfileEntries, baseEntries], by simp [keyfileEntries, baseEntries]⟩
    have husers := hwritten "users" (hmem s).1 (hmem s').1
    have hrootUsers := hwritten "root-users" (hmem s).2 (hmem s').2
    have hline := And.intro (hline _ _ (hmem s).1) (hline _ _ (hmem s).2)
    rw [hrest] at husers hrootUsers
    obtain ⟨hjoined, hrootJoined⟩ := joinStrings_users h
    simp only [sessionBase, hjoined, hrootJoined] at husers hrootUsers hline
    cases root
    · exact ⟨hline.1, husers⟩
    · exact ⟨hline.2, hrootUsers⟩
  · have hz := getFacet_of_sessionFacet? hform.session
    obtain ⟨g, hg, -⟩ := exists_getFacet (isSession_iff.mp hsession)
    obtain ⟨f, -, hfkind, rfl⟩ := hread.facets .session g (by decide) hg
    cases f <;> simp only [Facet.kind, reduceCtorEq] at hfkind
    simp only [rereadSession, hform.session] at hg
    have hmem : ("selected-name", (getNamespace selected).2) ∈ s.keyfileEntries :=
      mem_keyfileEntries_of_getFacet hz (by simp [facetEntries])
    exact ⟨hline _ _ hmem, hwritten "selected-name" hmem
      (mem_keyfileEntries_of_getFacet hg (by simp [facetEntries]))⟩

/-- And they do come back. -/
theorem comesBack_of_writable
    (hc : Configured cfg c)
    (h : c.cloneSession cfg sessionId selected user root = .ok (some s))
    (hw : SessionWritable c selected user) :
    ComesBack cfg s :=
  (recoverable_of_writable (hc.isOrigin hw.source) hw h).comesBack

/-- **The sessions that come back**: what is recovered, used or ended is the session that was
begun, except for a session of a source chroot, of a chroot with a union, or of a user or under a
name that cannot be read again. -/
theorem comesBack_iff
    (hc : Configured cfg c)
    (h : c.cloneSession cfg sessionId selected user root = .ok (some s)) :
    ComesBack cfg s ↔ SessionWritable c selected user :=
  ⟨writable_of_comesBack hc h, comesBack_of_writable hc h⟩

/-- A directory chroot, and one with a union. -/
def directoryText : String :=
  "[d]\ntype=directory\ndirectory=/srv/d\naliases=default\n\n" ++
    "[u]\ntype=directory\ndirectory=/srv/u\nunion-type=overlay\n"

/-- A session of the first, which can be written. -/
theorem exists_directorySession :
    ∃ kf c s, Keyfile.empty.parse directoryText = .ok kf ∧
      ChrootConfig.loadChroot .standard "chroot" kf "d" = .ok c ∧
      c.cloneSession .standard "d-1" "chroot:default" "joe" false = .ok (some s) ∧
      SessionWritable c "chroot:default" "joe" := by
  have hrun : okAnd (Keyfile.empty.parse directoryText) (fun kf =>
      okAnd (ChrootConfig.loadChroot .standard "chroot" kf "d") fun c =>
        okAnd (c.cloneSession .standard "d-1" "chroot:default" "joe" false) Option.isSome &&
          c.isSessionWritable "chroot:default" "joe") = true := by decide +kernel
  obtain ⟨kf, hkf, hrun⟩ := okAnd_eq_true_iff.mp hrun
  obtain ⟨c, hc, hrun⟩ := okAnd_eq_true_iff.mp hrun
  obtain ⟨hclone, hwritable⟩ := Bool.and_eq_true_iff.mp hrun
  obtain ⟨s, hs, hsome⟩ := okAnd_eq_true_iff.mp hclone
  obtain ⟨s, rfl⟩ := Option.isSome_iff_exists.mp hsome
  exact ⟨kf, c, s, hkf, hc, hs, isSessionWritable_iff.mp hwritable⟩

/-- A session of the second, which cannot. -/
theorem exists_unionSession :
    ∃ kf c s, Keyfile.empty.parse directoryText = .ok kf ∧
      ChrootConfig.loadChroot .standard "chroot" kf "u" = .ok c ∧
      c.cloneSession .standard "u-1" "u" "joe" true = .ok (some s) ∧
      ¬ SessionWritable c "u" "joe" := by
  have hrun : okAnd (Keyfile.empty.parse directoryText) (fun kf =>
      okAnd (ChrootConfig.loadChroot .standard "chroot" kf "u") fun c =>
        okAnd (c.cloneSession .standard "u-1" "u" "joe" true) Option.isSome &&
          !c.isSessionWritable "u" "joe") = true := by decide +kernel
  obtain ⟨kf, hkf, hrun⟩ := okAnd_eq_true_iff.mp hrun
  obtain ⟨c, hc, hrun⟩ := okAnd_eq_true_iff.mp hrun
  obtain ⟨hclone, hlost⟩ := Bool.and_eq_true_iff.mp hrun
  obtain ⟨s, hs, hsome⟩ := okAnd_eq_true_iff.mp hclone
  obtain ⟨s, rfl⟩ := Option.isSome_iff_exists.mp hsome
  rw [Bool.not_eq_true', Bool.eq_false_iff, ne_eq, isSessionWritable_iff] at hlost
  exact ⟨kf, c, s, hkf, hc, hs, hlost⟩

/-- A session of the first comes back, one of the second does not. -/
theorem comesBack_directory :
    ∃ kf c u, Keyfile.empty.parse directoryText = .ok kf ∧
      ChrootConfig.loadChroot .standard "chroot" kf "d" = .ok c ∧
      ChrootConfig.loadChroot .standard "chroot" kf "u" = .ok u ∧
      (∃ s, c.cloneSession .standard "d-1" "chroot:default" "joe" false = .ok (some s) ∧
        ComesBack .standard s) ∧
      ∃ s, u.cloneSession .standard "u-1" "u" "joe" true = .ok (some s) ∧
        ¬ ComesBack .standard s := by
  obtain ⟨kf, c, s, hkf, hc, hs, hwritable⟩ := exists_directorySession
  obtain ⟨kf', u, s', hkf', hu, hs', hlost⟩ := exists_unionSession
  rw [hkf] at hkf'
  cases hkf'
  refine ⟨kf, c, u, hkf, hc, hu, ⟨s, hs, ?_⟩, s', hs', ?_⟩
  · exact (comesBack_iff (.chroot hkf hc) hs).mpr hwritable
  · rw [comesBack_iff (.chroot hkf hu) hs']
    exact hlost

end Recovery

section SessionFile

variable {cfg : SbuildConfig} {c s : Chroot} {sessionId selected user text : String} {root : Bool}
  {w : World} {i : Nat} {o : StageOutcomes} {st st' : SessionState}

/-- **The session is read as it was begun**: its file, which is root's, is loaded in the namespace
for sessions, and what is found there under its name writes the same keyfile and has the same
flags. -/
def ReloadsFile (cfg : SbuildConfig) (s : Chroot) (text : String) : Prop :=
  ∃ conf s', ChrootConfig.loadData cfg "session" (cfg.sessionDir ++ "/" ++ s.name)
      (ChrootConfig.rootFile text) .empty = .ok conf ∧
    conf.findChroot "session" s.name = some s' ∧
    s'.getKeyfile .empty = s.getKeyfile .empty ∧
    s'.getSessionFlags = s.getSessionFlags

theorem reloadsFile_iff_comesBack :
    ReloadsFile cfg s (s.getKeyfile .empty).print ↔ ComesBack cfg s := by
  have htrusted : ∀ text, ChrootConfig.Trusted (ChrootConfig.rootFile text) := fun text =>
    ⟨⟨_, rfl, rfl, rfl, rfl⟩, ⟨_, rfl, rfl, rfl, rfl⟩⟩
  have hload : ∀ text conf, ChrootConfig.loadData cfg "session" (cfg.sessionDir ++ "/" ++ s.name)
      (ChrootConfig.rootFile text) .empty = .ok conf ↔
        ChrootConfig.parseData cfg "session" text .empty = .ok conf := fun text conf =>
    ChrootConfig.loadData_eq_ok.trans
      ⟨fun h => h.2.2.2.2, fun h => ⟨htrusted text, rfl, rfl, rfl, h⟩⟩
  simp only [ReloadsFile, ComesBack, hload]

/-- What `setup_session_info` has written when it does not throw. -/
theorem text_of_setupSessionInfo
    (hplain : s.isPlain = false)
    (hwrite : (s.setupSessionInfo w i o true).exec st = (.ok (), st'))
    (htext : st'.sessionFiles[s.name]? = some text) :
    text = (s.getKeyfile .empty).print := by
  have hcreates : Creates s (fullText s) st st' :=
    (Effect.wp_forall.mp (setupSessionInfo_creates hplain o)).1 () st' hwrite
  rw [hcreates.written, if_pos rfl] at htext
  exact (Option.some.inj htext).symm

theorem isPlain_eq (c : Chroot) : c.isPlain = decide (c.kind.typeName = "plain") := by
  unfold isPlain
  cases c.kind <;> simp [ChrootKind.typeName]

/-- No session is plain. -/
theorem isPlain_of_cloneSession
    (h : c.cloneSession cfg sessionId selected user root = .ok (some s)) :
    s.isPlain = false := by
  obtain ⟨hplain, -, -⟩ := cloneSession_eq_ok_some_iff.mp h
  rw [isPlain_eq, (sessionOf_cloneSession h).typeName, ← isPlain_eq]
  unfold isPlain
  cases hkind : c.kind with
  | plain directory => exact absurd hkind (hplain directory)
  | _ => rfl

/-- **Which sessions are read as they were begun**, when `setup_session_info` has written their
files. -/
theorem reloadsFile_iff
    (hc : Configured cfg c)
    (h : c.cloneSession cfg sessionId selected user root = .ok (some s))
    (hwrite : (s.setupSessionInfo w i o true).exec st = (.ok (), st'))
    (htext : st'.sessionFiles[s.name]? = some text) :
    ReloadsFile cfg s text ↔ SessionWritable c selected user := by
  rw [text_of_setupSessionInfo (isPlain_of_cloneSession h) hwrite htext, reloadsFile_iff_comesBack]
  exact ⟨writable_of_comesBack hc h, comesBack_of_writable hc h⟩

/-- The file of a session is written to an empty directory. -/
def writtenFile (s : Chroot) : Except Exn Unit × SessionState :=
  (s.setupSessionInfo (Session.smoothWorld .opBegin []) 0 Session.smoothStage true).exec {}

theorem exists_writtenFile (s : Chroot) :
    ∃ st', writtenFile s = (.ok (), st') ∧
      st'.sessionFiles[s.name]? = some (s.getKeyfile .empty).print := by
  refine ⟨_, rfl, ?_⟩
  exact (SortedMap.getElem?_insert _ _ _ _).trans (if_pos rfl)

/-- A session of a directory chroot is read as it was begun. -/
theorem reloadsFile_directory :
    ∃ kf c s st' text, Keyfile.empty.parse directoryText = .ok kf ∧
      ChrootConfig.loadChroot .standard "chroot" kf "d" = .ok c ∧
      c.cloneSession .standard "d-1" "chroot:default" "joe" false = .ok (some s) ∧
      writtenFile s = (.ok (), st') ∧ st'.sessionFiles[s.name]? = some text ∧
      ReloadsFile .standard s text := by
  obtain ⟨kf, c, s, hkf, hc, hs, hwritable⟩ := exists_directorySession
  obtain ⟨st', hwrite, htext⟩ := exists_writtenFile s
  exact ⟨kf, c, s, st', _, hkf, hc, hs, hwrite, htext,
    (reloadsFile_iff (.chroot hkf hc) hs hwrite htext).mpr hwritable⟩

/-- **A session of a chroot with a union is not**: the source-clonable facet, which it does not
have, is added when its union type is read. -/
theorem not_reloadsFile_union :
    ∃ kf c s st' text, Keyfile.empty.parse directoryText = .ok kf ∧
      ChrootConfig.loadChroot .standard "chroot" kf "u" = .ok c ∧
      c.cloneSession .standard "u-1" "u" "joe" true = .ok (some s) ∧
      writtenFile s = (.ok (), st') ∧ st'.sessionFiles[s.name]? = some text ∧
      ¬ ReloadsFile .standard s text := by
  obtain ⟨kf, c, s, hkf, hc, hs, hlost⟩ := exists_unionSession
  obtain ⟨st', hwrite, htext⟩ := exists_writtenFile s
  refine ⟨kf, c, s, st', _, hkf, hc, hs, hwrite, htext, fun hreloads => hlost ?_⟩
  exact writable_of_comesBack (.chroot hkf hc) hs (reloadsFile_iff_comesBack.mp hreloads)

end SessionFile

end Chroot

end Schroot
