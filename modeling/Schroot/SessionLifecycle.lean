import Schroot.Invocations
import Schroot.SessionPrepared

/-!
# The life of a session

One invocation begins a session, others use it, and another one ends it.  In between, the session is
its file.

**Results.**
* `scriptsByType_loadChroot`: which chroots run setup scripts.
* `unnamed_loadConfig`: nothing is found under an empty name.
* `findChroot_listed`: the file of a session is found among the others.
* `session_of_begin`: the session that is used is the one that was begun, and ending it leaves the
  rest of the directory as it is.
-/

namespace Schroot

open Session

namespace Chroot

section Scripts

variable {cfg : SbuildConfig} {kf : Keyfile} {c c' : Chroot}

/-- **Setup scripts are run** for all types but plain chroots. -/
def ScriptsByType (c : Chroot) : Prop :=
  c.runSetupScripts = !c.isPlain

theorem ScriptsByType.of_same
    (hc : ScriptsByType c)
    (hscripts : c'.runSetupScripts = c.runSetupScripts)
    (htype : c'.kind.typeName = c.kind.typeName) :
    ScriptsByType c' := by
  unfold ScriptsByType at hc ⊢
  rw [hscripts, hc, isPlain_eq, isPlain_eq, htype]

theorem scriptsByType_createTemplate
    {ns group : String}
    (h : ChrootConfig.createTemplate cfg ns kf group = .ok c) :
    ScriptsByType c := by
  simp only [ChrootConfig.createTemplate, bind_eq_ok_iff, mapError_eq_ok_iff] at h
  obtain ⟨a, ha, b, hb, h⟩ := h
  unfold create at ha
  split at ha
  · cases ha
  rename_i kind hkind
  obtain ⟨u, -, -, -, rfl⟩ := construct_eq_ok ha
  obtain ⟨-, -, rfl⟩ := setName_eq_ok_iff.mp hb
  have hnew : ScriptsByType { newChroot cfg kind "" u with name := group } := by
    cases kind <;> rfl
  split at h
  · obtain ⟨session, hsession, h⟩ := bind_eq_ok_iff.mp h
    cases session with
    | none =>
        cases h
        exact hnew
    | some s =>
        rw [mapError_eq_ok_iff] at h
        obtain ⟨-, -, rfl⟩ := setName_eq_ok_iff.mp h
        have hform := form_of_cloneSession hsession
        exact hnew.of_same ((congrArg Chroot.runSetupScripts hform.rest).trans rfl)
          (sessionOf_cloneSession hsession).typeName
  · cases h
    exact hnew

theorem runSetupScripts_setMountDevice (device : String) (c : Chroot) :
    (setMountDevice device c).runSetupScripts = c.runSetupScripts := by
  unfold setMountDevice
  split <;> rfl

theorem runSetupScripts_baseStep
    {session : Bool} {key : String}
    (h : BaseStep cfg session kf c key c') :
    c'.runSetupScripts = c.runSetupScripts := by
  cases h with
  | profile _ h =>
      unfold Chroot.setProfile at h
      simp only at h
      split at h
      · cases h
        rfl
      · obtain ⟨u, -, h⟩ := bind_eq_ok_iff.mp h
        cases h
        rfl
  | scriptConfig =>
      unfold setScriptConfig
      simp only
      split <;> rfl
  | aliases _ h =>
      obtain ⟨_, _, h⟩ := bind_eq_ok_iff.mp h
      cases h
      rfl
  | mountLocation _ _ h =>
      unfold Chroot.setMountLocation at h
      split at h <;> cases h
      rfl
  | name _ _ h =>
      obtain ⟨_, _, rfl⟩ := setName_eq_ok_iff.mp h
      rfl
  | verbosity _ h =>
      obtain ⟨v, rfl⟩ := exists_verbosity h
      rfl
  | _ => rfl

theorem runSetupScripts_typeStep
    {c₀ : Chroot} {key : String}
    (h : TypeStep kf c₀ c key c') :
    c'.runSetupScripts = c.runSetupScripts := by
  cases h with
  | skip => rfl
  | kind => rfl
  | snapshotDevice _ _ hset =>
      obtain ⟨-, hset⟩ := checkAbs_bind_eq_ok_iff.mp hset
      cases hset
      exact runSetupScripts_setMountDevice _ _
  | cloneName =>
      simp only [setZfsCloneName]
      split <;> exact runSetupScripts_setMountDevice _ _
  | switch _ _ hset =>
      split at hset
      · obtain ⟨-, rfl⟩ := addFacet_eq_ok_iff.mp hset
        rfl
      · cases hset
        rfl

/-- Reading does not change it. -/
theorem runSetupScripts_setKeyfile
    (h : c.setKeyfile cfg kf = .ok c') :
    c'.runSetupScripts = c.runSetupScripts := by
  refine KeptByKeys.setKeyfile (P := fun x => x.runSetupScripts = c.runSetupScripts)
    ⟨fun hx hstep => (runSetupScripts_baseStep hstep).trans hx,
      fun hx hstep => (runSetupScripts_typeStep hstep).trans hx, fun hx hstep => ?_,
      fun hx _ hset => ?_, fun hx _ _ _ => hx⟩ rfl h
  · cases hstep <;> exact hx
  · rcases setUnionType_cases hset with
      ⟨_, rfl⟩ | ⟨u, _, _, ⟨_, rfl⟩ | ⟨_, _, rfl⟩ | ⟨_, _, rfl⟩⟩ <;> exact hx

/-- **The setup scripts of the chroots of a configuration.** -/
theorem scriptsByType_loadChroot
    {ns group : String}
    (h : ChrootConfig.loadChroot cfg ns kf group = .ok c) :
    ScriptsByType c := by
  simp only [ChrootConfig.loadChroot, bind_eq_ok_iff, mapError_eq_ok_iff] at h
  obtain ⟨t, ht, hset⟩ := h
  exact (scriptsByType_createTemplate ht).of_same (runSetupScripts_setKeyfile hset)
    (typeName_setKeyfile hset)

end Scripts

end Chroot

namespace ChrootConfig

section Names

variable {cfg : SbuildConfig} {conf conf' : ChrootConfig} {c : Chroot} {kf : Keyfile}
  {ns : String}

/-- **Nothing has an empty name** in the namespace for sessions. -/
structure Unnamed (conf : ChrootConfig) : Prop where
  noChroot : conf.findChroot "session" "" = none
  noAlias : conf.aliases[qualified "session" ""]? = none

theorem isValidSessionname_ne_empty
    {name : String}
    (h : isValidSessionname name = true) :
    name ≠ "" := by
  rintro rfl
  exact absurd h (by decide)

/-- Chroots with valid names are added. -/
theorem Unnamed.add
    (h : Unnamed conf)
    (hns : ':' ∉ ns.toList)
    (hc : Chroot.ValidNames c)
    (hadd : conf.add ns c kf = .ok conf') :
    Unnamed conf' := by
  have hadded := added_of_add hadd
  have hname := isValidSessionname_ne_empty hc.name
  -- the names of the chroot are none of them empty
  have hkey : ¬ AddedKey ns c (qualified "session" "") := by
    have hne : ∀ {ns' a : String}, ':' ∉ ns'.toList → a ≠ "" →
        qualified "session" "" ≠ qualified ns' a := by
      intro ns' a hns' ha heq
      have hsplit := congrArg (fun name => (getNamespace name).2) heq
      have hsession : ':' ∉ "session".toList := by decide
      simp only [getNamespace_qualified hns', getNamespace_qualified hsession] at hsplit
      exact ha hsplit.symm
    rintro (heq | ⟨-, -, heq⟩ | ⟨a, ha, heq | ⟨-, heq⟩⟩)
    · exact hne hns hname heq
    · exact hne (by decide) hname heq
    · exact hne hns (isValidSessionname_ne_empty (hc.aliases a ha)) heq
    · exact hne (by decide) (by simp) heq
  refine ⟨?_, ?_⟩
  · rw [hadded.chroots, if_neg fun h => hname h.2.symm]
    exact h.noChroot
  · rw [hadded.aliases, if_neg hkey, Option.or_none]
    exact h.noAlias

theorem unnamed_loadConfig
    {lc ls : Bool} {places : ConfigPlaces}
    (h : loadConfig cfg lc ls places = .ok conf) :
    Unnamed conf := by
  have hempty : Unnamed .empty := by
    refine ⟨?_, by simp [empty]⟩
    rw [Option.eq_none_iff_forall_ne_some]
    intro c hc
    obtain ⟨found, hns, hfound⟩ := Option.bind_eq_some_iff.mp hc
    rw [(namespaces_empty hns).2] at hfound
    simp at hfound
  have hread : ∀ r ∈ places.read cfg lc ls, ':' ∉ r.1.toList := by
    intro r hr
    simp only [ConfigPlaces.read, List.mem_append] at hr
    rcases hr with hr | hr
    · split at hr
      · obtain ⟨data, -, rfl⟩ := List.mem_map.mp hr
        exact (by decide : ':' ∉ "chroot".toList)
      · cases hr
    · split at hr
      · obtain ⟨data, -, rfl⟩ := List.mem_map.mp hr
        exact (by decide : ':' ∉ "session".toList)
      · cases hr
  refine (loadedAll_loadConfig h).keeps (fun hr hP hload hadd => ?_)
    (fun _ hP hload hsource hadd => ?_) hempty
  · exact hP.add (hread _ hr) (Chroot.validNames_loadChroot hload) hadd
  · unfold loadSource at hsource
    split at hsource
    · split at hsource
      · exact hP.add (by decide) (Chroot.validNames_cloneSource (Chroot.validNames_loadChroot hload)
          (mapError_eq_ok_iff.mp hsource)) hadd
      · cases hsource
    · cases hsource

/-- Nothing is found under the empty name. -/
theorem Unnamed.findAlias
    (h : Unnamed conf)
    (hns : conf.namespaces["session"]?.isSome = true) :
    conf.findAlias "session" "" = .ok none := by
  obtain ⟨sessions, hsessions⟩ := Option.isSome_iff_exists.mp hns
  have hhinted : hintedName "session" "" = ("session", "") := by decide
  have hfind := h.noChroot
  rw [findChroot, hsessions, Option.bind_some] at hfind
  rw [ChrootConfig.findAlias, hhinted]
  simp [h.noAlias, findChrootHinted, hhinted, findChrootInNamespace, findNamespace, hsessions,
    hfind, bind, Except.bind, pure, Except.pure]

/-- A session is found under its name. -/
theorem findAlias_sessionName
    {name : String}
    (h : conf.Resolves)
    (hname : ':' ∉ name.toList)
    (hfind : conf.findChroot "session" name = some c) :
    conf.findAlias "session" name = .ok (some c) := by
  have hhinted : hintedName "session" name = ("session", name) := by
    simp [hintedName, getNamespace, hname]
  rw [findAlias, hhinted]
  simp only [h.names "session" name c hfind]
  exact findChrootHinted_qualified "session" h hfind

end Names

end ChrootConfig

namespace MainBase

section Named

variable {cfg : SbuildConfig} {conf : ChrootConfig} {places : ChrootConfig.ConfigPlaces}
  {o : OptionsBase} {info : AuthInfo} {line : CommandLine} {lc ls : Bool} {c : Chroot}
  {name : String}

/-- The actions for sessions that are there. -/
theorem sessionAction
    {action : String}
    (h : OptionsBase.actionKind action = some .session) :
    action = actionSessionRecover ∨ action = actionSessionRun ∨ action = actionSessionEnd := by
  unfold OptionsBase.actionKind at h
  split at h
  · cases h
  split at h
  · cases h
  split at h
  · assumption
  split at h
  · cases h
  · split at h <;> cases h

/-- **A session is run, recovered or ended under its name**, if it has been loaded. -/
theorem runImpl_named
    (hparse : Program.parse .schroot line lc ls = .ok o)
    (haction : OptionsBase.actionKind o.action.get = some .session)
    (hline : line.chroots = [name])
    (hload : ChrootConfig.loadConfig cfg o.loadChroots o.loadSessions places = .ok conf)
    (hname : ':' ∉ name.toList)
    (hfind : conf.findChroot "session" name = some c) :
    (runImpl cfg places o info).2 = .ok (.session (createSession o info [⟨name, c⟩])) := by
  obtain ⟨kind, hunderstood⟩ := Program.understood_of_parse hparse
  have hkind : kind = .session := by
    have hboth := hunderstood.selected.action
    rw [haction] at hboth
    exact (Option.some.inj hboth).symm
  subst hkind
  have hchroots : o.chroots = [name] := by
    rcases hunderstood.chroots with h | ⟨h, -⟩
    · exact h.trans hline
    · cases h
  have hall : usesAll o = false := by
    have hused := hunderstood.selected.exclusive (by rw [hchroots]; simp)
    simp only [OptionsBase.allUsed, Bool.or_eq_false_iff] at hused
    simp [usesAll, hused]
  have hnoName : o.sessionName = "" := by
    by_contra hne
    exact absurd (hunderstood.selected.sessionName hne).1 (by simp)
  have hsession := sessionAction haction
  have hother : ∀ action ∈ [actionHelp, actionVersion, actionList, actionInfo, actionLocation,
      actionConfig], o.action.get ≠ action := by
    rcases hsession with h | h | h <;> rw [h] <;> decide
  simp only [List.forall_mem_cons] at hother
  obtain ⟨hhelp, hversion, hlist, hinfo, hlocation, hconfig, -⟩ := hother
  have hresolves := ChrootConfig.resolves_loadConfig hload
  have hfound := ChrootConfig.findAlias_sessionName hresolves hname hfind
  have hselect : getChrootOptions conf o =
      .ok ([name], (∅ : Std.ExtTreeMap String Chroot).insertIfNew name c) := by
    simp [getChrootOptions, chrootNames, namespaceHint, hall, hsession, hchroots,
      ChrootConfig.validateChroots, ChrootConfig.validateChroot, hfound, bind, Except.bind, pure,
      Except.pure]
  obtain ⟨objects, hobjects, halias, hobjectsFound⟩ := objects_getChrootOptions hselect
  have hhint : namespaceHint o = "session" := by simp [namespaceHint, hall, hsession]
  have hone : objects = [⟨name, c⟩] := by
    obtain ⟨e, rfl⟩ := List.length_eq_one_iff.mp
      ((List.length_map ChrootEntry.aliasName).symm.trans (congrArg List.length halias))
    have he := hobjectsFound e (by simp)
    have heName : e.aliasName = name := List.singleton_injective halias
    rw [Found, hhint, heName, hfound] at he
    cases e
    cases heName
    cases he
    rfl
  have hnonempty : ((∅ : Std.ExtTreeMap String Chroot).insertIfNew name c).isEmpty = false := by
    simp
  rw [runImpl_eq_act ⟨hhelp, hversion⟩ hload hselect hobjects hnonempty, hone]
  have hnone : conf.findAlias "session" "" = .ok none :=
    (ChrootConfig.unnamed_loadConfig hload).findAlias (hasNamespaces_loadConfig hload "session"
      (by simp))
  rw [act, if_neg hlist, hnoName, hnone, if_neg hinfo, if_neg hlocation, if_neg hconfig]
  rfl

end Named

end MainBase

namespace Invocation

section Listed

variable {cfg : SbuildConfig} {inv : Invocation} {files : SessionFiles} {conf : ChrootConfig}
  {c c' : Chroot}

/-- What is loaded from the file of a session. -/
structure LoadedAs (conf : ChrootConfig) (c c' : Chroot) : Prop where
  found : conf.findChroot "session" c.name = some c'
  name : c'.name = c.name
  keyfile : c'.getKeyfile .empty = c.getKeyfile .empty
  flags : c'.getSessionFlags = c.getSessionFlags
  typeName : c'.kind.typeName = c.kind.typeName
  scripts : c'.ScriptsByType

/-- The session that is loaded has a file, if the one that was begun has one. -/
theorem LoadedAs.hasFile
    {d : Chroot}
    (h : LoadedAs conf c c')
    (hfile : Session.hasFile c = true)
    (htype : d.kind.typeName = c'.kind.typeName)
    (hscripts : d.runSetupScripts = c'.runSetupScripts) :
    Session.hasFile d = true := by
  simp only [Session.hasFile, Bool.and_eq_true, Bool.not_eq_true'] at hfile ⊢
  have hplain : c'.isPlain = false := by
    rw [Chroot.isPlain_eq, h.typeName, ← Chroot.isPlain_eq]
    exact hfile.2
  refine ⟨?_, ?_⟩
  · rw [hscripts, h.scripts, hplain]
    rfl
  · rw [Chroot.isPlain_eq, htype, ← Chroot.isPlain_eq]
    exact hplain

/-- **The file of a session is found among the others.** -/
theorem findChroot_listed
    {lc : Bool}
    (hdir : cfg.sessionDir ≠ "")
    (hlists : inv.lists files = true)
    (hload : ChrootConfig.loadConfig cfg lc true inv.places = .ok conf)
    (hc : Chroot.Recoverable cfg c)
    (hfile : files[c.name]? = some (fullText c)) :
    ∃ c', LoadedAs conf c c' := by
  obtain ⟨conf₀, c', hconf, hfind, hsame, hflags, htype⟩ := hc.exists_loaded
  have hread : c'.name = c.name ∧
      ChrootConfig.ReadFrom cfg "session" (fullText c) "session" c' := by
    refine ((ChrootConfig.adds_parseData hconf "session" c.name c').mp hfind).resolve_left ?_
    intro hempty
    obtain ⟨found, hns, hfound⟩ := Option.bind_eq_some_iff.mp hempty
    rw [(ChrootConfig.namespaces_empty hns).2] at hfound
    simp at hfound
  obtain ⟨hname, hread⟩ := hread
  -- the entry of the file
  simp only [lists, Bool.and_eq_true, List.all_eq_true, decide_eq_true_eq] at hlists
  obtain ⟨hregular, hperm⟩ := hlists
  have hmem : (c.name, fullText c) ∈ inv.listing.map fun e => (e.name, e.data.text) :=
    hperm.mem_iff.mpr (Std.ExtTreeMap.mem_toList_iff_getElem?_eq_some.mpr hfile)
  obtain ⟨e, he, heq⟩ := List.mem_map.mp hmem
  obtain ⟨hename, hetext⟩ := Prod.mk.injEq _ _ _ _ ▸ heq
  have hvalid := hc.data.valid.2
  have hskips : ChrootConfig.skipsEntry e = false := by
    have hdot : c.name ≠ "." := fun h => absurd (h ▸ hvalid) (by decide)
    have hdots : c.name ≠ ".." := fun h => absurd (h ▸ hvalid) (by decide)
    simp [ChrootConfig.skipsEntry, hregular e he, hename, hvalid, hdot, hdots]
  have hfiles : ("session", e.data) ∈ inv.places.read cfg lc true := by
    refine List.mem_append_right _ (List.mem_map.mpr ⟨e.data, ?_, rfl⟩)
    simp only [places, ChrootConfig.readFiles, if_neg hdir]
    exact List.mem_map_of_mem (List.mem_filter.mpr ⟨he, by simp [hskips]⟩)
  refine ⟨c', ?_, hname, hsame, hflags, htype, ?_⟩
  · refine ((ChrootConfig.loadedAll_loadConfig hload).findChroot_iff "session" c.name c').mpr
      ⟨hname, _, hfiles, ?_⟩
    rw [hetext]
    exact hread
  · obtain ⟨kf, -, group, -, hgroup⟩ := hread
    generalize hns : "session" = ns at hgroup
    cases hgroup with
    | chroot hchroot => exact Chroot.scriptsByType_loadChroot hchroot
    | source => exact absurd hns (by decide)

end Listed

section Lives

variable {cfg : SbuildConfig} {inv later : Invocation} {invs : List Invocation}
  {files files' : SessionFiles} {s : Session} {entry : ChrootEntry} {c c' : Chroot}
  {o : OptionsBase} {conf : ChrootConfig}

/-- **A session is begun** for a chroot, without a failure, and it is one that comes back. -/
structure Begins (cfg : SbuildConfig) (inv : Invocation) (files : SessionFiles) (s : Session)
    (entry : ChrootEntry) (c : Chroot) : Prop where
  session : inv.session? cfg = some s
  operation : s.operation = .opBegin
  chroots : s.chroots = [entry]
  prepared : prepareChroot (inv.world cfg s) 0 entry = .ok c
  done : (inv.final cfg files s).1 = .ok ()
  isSession : c.isSession = true
  hasFile : hasFile c = true
  writable : Chroot.SessionWritable entry.chroot entry.aliasName s.info.ruser
  options : ∀ key value : String, s.userOptions[key]? = some value → SingleLine value

/-- The chroots that are read for new sessions belong to the configuration. -/
theorem configured_of_readFrom
    {text n : String}
    (h : ChrootConfig.ReadFrom cfg "chroot" text n c) :
    Chroot.Configured cfg c := by
  obtain ⟨kf, hparse, group, -, hgroup⟩ := h
  cases hgroup with
  | chroot hload => exact .chroot hparse hload
  | source hload hsource =>
      unfold ChrootConfig.loadSource at hsource
      split at hsource
      · split at hsource
        · exact .source (.chroot hparse hload) (mapError_eq_ok_iff.mp hsource)
        · cases hsource
      · cases hsource

theorem Begins.recoverable
    (h : Begins cfg inv files s entry c) :
    Chroot.Recoverable cfg c := by
  obtain ⟨o, conf, hparse, hrun⟩ := exists_sessionRun h.session
  have hop : performs s.operation .setupStart = true := by
    rw [h.operation]
    rfl
  have hentry : entry ∈ s.chroots := by
    rw [h.chroots]
    exact List.mem_singleton_self entry
  obtain ⟨r, -, -, n, hread⟩ := MainBase.readFrom_of_begins hparse hrun hop entry hentry
  exact recoverable_prepareChroot (w := inv.world cfg s) (configured_of_readFrom hread) h.writable
    h.prepared h.isSession h.options

/-- What a session that does not fail has done for its one chroot. -/
theorem run_one
    (hsession : inv.session? cfg = some s)
    (hchroots : s.chroots = [entry])
    (hdone : (inv.final cfg files s).1 = .ok ()) :
    ∃ c, prepareChroot (inv.world cfg s) 0 entry = .ok c ∧
      inv.run cfg files = sessionEffect s.operation c files := by
  have hrun : inv.run cfg files = (inv.final cfg files s).2.sessionFiles := by
    simp [run, hsession]
  have hexec : (Session.run (inv.world cfg s)).exec { sessionFiles := files } =
      (.ok (), (inv.final cfg files s).2) :=
    Prod.ext hdone rfl
  obtain ⟨chroots, hcompleted⟩ := completed_run rfl hexec
  rw [← hrun, show (inv.world cfg s).session.chroots = [entry] from hchroots] at hcompleted
  cases hcompleted with
  | cons hprepare heffect hrest =>
      cases hrest
      exact ⟨_, hprepare, heffect.eq⟩

/-- Its file is there afterwards. -/
theorem Begins.file
    (h : Begins cfg inv files s entry c) :
    (inv.run cfg files)[c.name]? = some (fullText c) := by
  obtain ⟨d, hd, hrun⟩ := run_one h.session h.chroots h.done
  rw [h.prepared] at hd
  cases hd
  rw [hrun, h.operation]
  simp [sessionEffect, h.hasFile]

/-- A session is prepared as it is, but for the verbosity and the options. -/
theorem prepareChroot_session
    {w : World} {i : Nat}
    (hcreate : entry.chroot.getSessionFlags.create = false)
    (h : prepareChroot w i entry = .ok c) :
    c.name = entry.chroot.name ∧ c.runSetupScripts = entry.chroot.runSetupScripts := by
  simp only [prepareChroot, bind_eq_ok_iff] at h
  obtain ⟨c₁, h₁, c₂, h₂, h₃⟩ := h
  have hcopy : c₁ = entry.chroot.copy := by
    simp only [createSession, hcreate, Bool.false_and, Bool.false_eq_true, if_false] at h₁
    exact (Except.ok.inj h₁).symm
  have hsame₁ : c₁.name = entry.chroot.name ∧
      c₁.runSetupScripts = entry.chroot.runSetupScripts := by
    rw [hcopy]
    unfold Chroot.copy
    split <;> exact ⟨rfl, rfl⟩
  have hsame₂ : c₂.name = c₁.name ∧ c₂.runSetupScripts = c₁.runSetupScripts := by
    unfold overrideVerbosity at h₂
    split at h₂
    · obtain ⟨v, rfl⟩ := Chroot.exists_verbosity (mapError_eq_ok_iff.mp h₂)
      exact ⟨rfl, rfl⟩
    · cases h₂
      exact ⟨rfl, rfl⟩
  rcases setUserOptions_eq_ok h₃ with rfl | ⟨u, rfl⟩
  · exact ⟨hsame₂.1.trans hsame₁.1, hsame₂.2.trans hsame₁.2⟩
  · exact ⟨hsame₂.1.trans hsame₁.1, hsame₂.2.trans hsame₁.2⟩

/-- The flags of a session that can come back do not let another one be begun from it. -/
theorem create_of_recoverable
    (h : Chroot.Recoverable cfg c) :
    c.getSessionFlags.create = false := by
  rw [h.data.getSessionFlags h.back]
  unfold Chroot.typeFlags
  cases c.kind <;> rfl

/-- **The life of a session.**  Once it has been begun, and as long as it has not been ended, a
later invocation that loads the session directory and names the session works with the session that
was begun; if nothing fails, ending it removes its file, and the other operations leave the
directory as it is. -/
theorem session_of_begin
    (hdir : cfg.sessionDir ≠ "")
    (hbegin : Begins cfg inv files s entry c)
    (hbetween : invoke cfg (inv.run cfg files) invs = some files')
    (hkept : ∀ inv ∈ invs, ¬ Ended cfg c.name inv)
    (hlists : later.lists files' = true)
    (hparse : Program.parse .schroot later.line later.loadChroots later.loadSessions = .ok o)
    (haction : OptionsBase.actionKind o.action.get = some .session)
    (hline : later.line.chroots = [c.name])
    (hload : ChrootConfig.loadConfig cfg o.loadChroots o.loadSessions later.places = .ok conf) :
    ∃ c' s', LoadedAs conf c c' ∧ later.session? cfg = some s' ∧ s'.chroots = [⟨c.name, c'⟩] ∧
      s'.operation = MainBase.operationOf o.action.get ∧
      ((later.final cfg files' s').1 = .ok () →
        later.run cfg files' = if s'.operation = .opEnd then files'.erase c.name else files') := by
  have hrecoverable := hbegin.recoverable
  have hfile : files'[c.name]? = some (fullText c) := by
    refine (ended_of_invoke hbetween hbegin.file).resolve_right ?_
    rintro ⟨inv, hinv, hended⟩
    exact hkept inv hinv hended
  obtain ⟨kind, hunderstood⟩ := Program.understood_of_parse hparse
  have hsessions : o.loadSessions = true := by
    refine hunderstood.selected.sessions (.inl ?_)
    have hboth := hunderstood.selected.action
    rw [haction] at hboth
    exact (Option.some.inj hboth).symm
  rw [hsessions] at hload
  obtain ⟨c', hc'⟩ := findChroot_listed hdir hlists hload hrecoverable hfile
  rw [← hsessions] at hload
  have hreply : (MainBase.runImpl cfg later.places o later.info).2 =
      .ok (.session (MainBase.createSession o later.info [⟨c.name, c'⟩])) :=
    MainBase.runImpl_named hparse haction hline hload hrecoverable.data.valid.1 hc'.found
  have hsession : later.session? cfg =
      some (MainBase.createSession o later.info [⟨c.name, c'⟩]) := by
    simp [session?, reply?, hparse, hreply, Except.toOption]
  refine ⟨c', _, hc', hsession, rfl, rfl, fun hdone => ?_⟩
  obtain ⟨d, hd, hrun⟩ := run_one hsession rfl hdone
  have hcreate : c'.getSessionFlags.create = false := by
    rw [hc'.flags]
    exact create_of_recoverable hrecoverable
  obtain ⟨hname, hscripts⟩ := prepareChroot_session hcreate hd
  have hhas : hasFile d = true :=
    hc'.hasFile hbegin.hasFile (typeName_prepareChroot hd) hscripts
  rw [hrun]
  have hsame := hname.trans hc'.name
  rcases MainBase.sessionAction haction with h | h | h <;>
    simp [MainBase.createSession, h, MainBase.operationOf, sessionEffect, hhas, hsame,
      actionSessionBegin, actionSessionRecover, actionSessionRun, actionSessionEnd]

/-- The session directory as it is found. -/
def listingOf (files : SessionFiles) : List DirectoryEntry :=
  files.toList.map fun e =>
    { name := e.1
      status := (ChrootConfig.rootFile e.2).status
      data := ChrootConfig.rootFile e.2 }

/-- Something is done with the session, when its chroot is no longer configured. -/
def laterSample (option : String) (files : SessionFiles) : Invocation :=
  { beginSample with
    line := { given := [option, "chroot"], chroots := ["d-0"] }
    conf := .directory []
    listing := listingOf files }

theorem lists_listingOf
    (h : inv.listing = listingOf files) :
    inv.lists files = true := by
  have hmap : (listingOf files).map (fun e => (e.name, e.data.text)) = files.toList := by
    rw [listingOf, List.map_map]
    exact List.map_id files.toList
  simp only [lists, h, hmap, List.Perm.refl, decide_true, Bool.and_true, List.all_eq_true]
  intro e he
  obtain ⟨_, -, rfl⟩ := List.mem_map.mp he
  rfl

theorem exists_begins :
    ∃ s entry c, Begins .standard beginSample ∅ s entry c ∧ c.name = "d-0" := by
  have hbegins : ((beginSample.session? .standard).any fun s =>
      decide (s.operation = .opBegin) && s.userOptions.isEmpty &&
        (beginSample.final .standard ∅ s).1.isOk && decide (s.chroots.length = 1) &&
          s.chroots.all fun entry =>
            entry.chroot.isSessionWritable entry.aliasName s.info.ruser &&
              okAnd (prepareChroot (beginSample.world .standard s) 0 entry) fun c =>
                c.isSession && hasFile c && decide (c.name = "d-0")) = true := by
    decide +kernel
  obtain ⟨s, hsession, hbegins⟩ := Option.any_eq_true _ _ |>.mp hbegins
  simp only [Bool.and_eq_true, decide_eq_true_eq] at hbegins
  obtain ⟨⟨⟨⟨hop, hoptions⟩, hdone⟩, hone⟩, hbegins⟩ := hbegins
  obtain ⟨entry, hchroots⟩ := List.length_eq_one_iff.mp hone
  have hentry : entry ∈ s.chroots := by
    rw [hchroots]
    exact List.mem_singleton_self entry
  obtain ⟨hwritable, hprepared⟩ :=
    Bool.and_eq_true_iff.mp (List.all_eq_true.mp hbegins entry hentry)
  obtain ⟨c, hc, hprepared⟩ := okAnd_eq_true_iff.mp hprepared
  simp only [Bool.and_eq_true, decide_eq_true_eq] at hprepared
  refine ⟨s, entry, c, ⟨hsession, hop, hchroots, hc, ?_, hprepared.1.1, hprepared.1.2,
    Chroot.isSessionWritable_iff.mp hwritable, ?_⟩, hprepared.2⟩
  · cases hend : (beginSample.final .standard ∅ s).1 with
    | ok a => rfl
    | error e =>
        rw [hend] at hdone
        cases hdone
  · intro key value hvalue
    rw [Std.ExtTreeMap.isEmpty_iff.mp hoptions] at hvalue
    simp at hvalue

/-- The session is used, or it is ended. -/
theorem parse_laterSample
    (option action : String)
    (h : (option, action) ∈ [("run-session", actionSessionRun), ("end-session", actionSessionEnd)])
    (files : SessionFiles) :
    ∃ o, Program.parse .schroot (laterSample option files).line
        (laterSample option files).loadChroots (laterSample option files).loadSessions = .ok o ∧
      OptionsBase.actionKind o.action.get = some .session ∧ o.action.get = action ∧
        o.loadChroots = true ∧ o.loadSessions = true := by
  have hparse : okAnd (Program.parse .schroot
      { given := [option, "chroot"], chroots := ["d-0"] } false false) (fun o =>
        decide (OptionsBase.actionKind o.action.get = some .session) &&
          decide (o.action.get = action) && o.loadChroots && o.loadSessions) = true := by
    simp only [List.mem_cons, Prod.mk.injEq, List.not_mem_nil, or_false] at h
    rcases h with ⟨rfl, rfl⟩ | ⟨rfl, rfl⟩ <;> decide +kernel
  obtain ⟨o, ho, hparse⟩ := okAnd_eq_true_iff.mp hparse
  simp only [Bool.and_eq_true, decide_eq_true_eq] at hparse
  obtain ⟨⟨⟨haction, hsame⟩, hchroots⟩, hsessions⟩ := hparse
  exact ⟨o, ho, haction, hsame, hchroots, hsessions⟩

/-- The one entry of the session directory. -/
theorem Begins.listing
    (h : Begins cfg inv ∅ s entry c) :
    listingOf (inv.run cfg ∅) = [
      { name := c.name
        status := (ChrootConfig.rootFile (fullText c)).status
        data := ChrootConfig.rootFile (fullText c) }] := by
  obtain ⟨d, hd, hrun⟩ := run_one h.session h.chroots h.done
  rw [h.prepared] at hd
  cases hd
  rw [hrun, h.operation]
  simp only [sessionEffect, h.hasFile, if_true]
  rfl

/-- That entry is loaded, and nothing else. -/
theorem loadConfig_laterSample
    (option : String)
    (hname : c.name = "d-0")
    (hlisting : listingOf files = [
      { name := c.name
        status := (ChrootConfig.rootFile (fullText c)).status
        data := ChrootConfig.rootFile (fullText c) }])
    (hconf : ChrootConfig.parseData .standard "session" (fullText c) .empty = .ok conf) :
    ChrootConfig.loadConfig .standard true true (laterSample option files).places = .ok conf := by
  have hdata : ChrootConfig.loadData .standard "session"
      (SbuildConfig.standard.sessionDir ++ "/" ++ c.name) (ChrootConfig.rootFile (fullText c))
      .empty = .ok conf :=
    ChrootConfig.loadData_eq_ok.mpr
      ⟨⟨⟨_, rfl, rfl, rfl, rfl⟩, ⟨_, rfl, rfl, rfl, rfl⟩⟩, rfl, rfl, rfl, hconf⟩
  have hskips : ChrootConfig.skipsEntry
      { name := c.name
        status := (ChrootConfig.rootFile (fullText c)).status
        data := ChrootConfig.rootFile (fullText c) } = false := by
    have hvalid : isValidSessionname "d-0" = true := by decide
    simp [ChrootConfig.skipsEntry, hname, hvalid, ChrootConfig.rootFile]
  have hplace : (laterSample option files).places.sessions = .directory (listingOf files) := rfl
  have hsession : ChrootConfig.loadSessions .standard (laterSample option files).places .empty =
      .ok conf := by
    rw [ChrootConfig.loadSessions, hplace, ChrootConfig.addLocation,
      ChrootConfig.addConfigDirectory, if_neg (by decide), hlisting, List.foldlM_cons,
      ChrootConfig.addConfigEntry, if_neg (by simp [hskips]), hdata]
    rfl
  exact hsession

/-- **A session is begun, used, and ended under its name.** -/
theorem session_of_beginSample :
    ∃ s entry c files o conf c' s', Begins .standard beginSample ∅ s entry c ∧
      beginSample.run .standard ∅ = files ∧
      invoke .standard files [laterSample "run-session" files] = some files ∧
      Program.parse .schroot (laterSample "end-session" files).line
        (laterSample "end-session" files).loadChroots
        (laterSample "end-session" files).loadSessions = .ok o ∧
      ChrootConfig.loadConfig .standard o.loadChroots o.loadSessions
        (laterSample "end-session" files).places = .ok conf ∧
      LoadedAs conf c c' ∧ (laterSample "end-session" files).session? .standard = some s' ∧
      s'.chroots = [⟨c.name, c'⟩] ∧ s'.operation = MainBase.operationOf o.action.get ∧
      (((laterSample "end-session" files).final .standard files s').1 = .ok () →
        (laterSample "end-session" files).run .standard files =
          if s'.operation = .opEnd then files.erase c.name else files) := by
  obtain ⟨s, entry, c, hbegins, hname⟩ := exists_begins
  obtain ⟨files, hfiles⟩ : ∃ files, beginSample.run .standard ∅ = files := ⟨_, rfl⟩
  obtain ⟨conf, c', hconf, -⟩ := hbegins.recoverable.exists_loaded
  have hload : ∀ option, ChrootConfig.loadConfig .standard true true
      (laterSample option files).places = .ok conf :=
    fun option => loadConfig_laterSample option hname (hfiles ▸ hbegins.listing) hconf
  have hline : ∀ option, (laterSample option files).line.chroots = [c.name] := fun option => by
    rw [hname]
    rfl
  have hbegun : invoke .standard (beginSample.run .standard ∅) [] = some files :=
    congrArg some hfiles
  -- it is used, which neither ends it nor changes the directory
  obtain ⟨o₁, ho₁, haction₁, hsame₁, hchroots₁, hsessions₁⟩ :=
    parse_laterSample "run-session" actionSessionRun (by decide) files
  have hload₁ : ChrootConfig.loadConfig .standard o₁.loadChroots o₁.loadSessions
      (laterSample "run-session" files).places = .ok conf := by
    rw [hchroots₁, hsessions₁]
    exact hload _
  obtain ⟨c₁, s₁, -, hsession₁, -, hop₁, -⟩ := session_of_begin (by decide) hbegins hbegun (by simp)
    (lists_listingOf rfl) ho₁ haction₁ (hline _) hload₁
  rw [hsame₁] at hop₁
  have hrun : (laterSample "run-session" files).run .standard files = files :=
    run_of_session hsession₁ (by rw [hop₁]; decide) (by rw [hop₁]; decide)
  have hused : invoke .standard files [laterSample "run-session" files] = some files :=
    ActionRun.run_cons_eq_some.mpr ⟨files, step_eq_some.mpr ⟨lists_listingOf rfl, hrun⟩, rfl⟩
  have hkept : ∀ inv ∈ [laterSample "run-session" files], ¬ Ended .standard c.name inv := by
    intro inv hinv
    rw [List.mem_singleton.mp hinv]
    rintro ⟨s₂, -, hsession₂, hend, -⟩
    rw [hsession₁] at hsession₂
    cases hsession₂
    rw [hop₁] at hend
    exact absurd hend (by decide)
  -- and then it is ended
  obtain ⟨o, ho, haction, -, hchroots, hsessions⟩ :=
    parse_laterSample "end-session" actionSessionEnd (by decide) files
  have hload₂ : ChrootConfig.loadConfig .standard o.loadChroots o.loadSessions
      (laterSample "end-session" files).places = .ok conf := by
    rw [hchroots, hsessions]
    exact hload _
  obtain ⟨c', s', hlife⟩ := session_of_begin (by decide) hbegins (hfiles.symm ▸ hused) hkept
    (lists_listingOf rfl) ho haction (hline _) hload₂
  exact ⟨s, entry, c, files, o, conf, c', s', hbegins, hfiles, hused, ho, hload₂, hlife⟩

end Lives

end Invocation

end Schroot
