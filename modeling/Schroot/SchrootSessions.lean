import Schroot.SchrootMain

/-!
# The sessions of `schroot`

Which sessions an invocation runs, and with which chroots.  The command line decides what is loaded:
new sessions are begun without the session directory.

**Results.**
* `selected_loadConfig`: what is selected when namespaces are used as a whole.
* `trusted_runImpl`: sessions are run with chroots of trusted files.
* `sessionInvalid_iff`: the name of a new session is refused if a plain chroot has it.
* `printed_runImpl`: what is printed as the configuration.
-/

namespace Schroot

namespace MainBase

section Loaded

variable {cfg : SbuildConfig} {conf : ChrootConfig} {places : ChrootConfig.ConfigPlaces}
  {lc ls : Bool}

/-- The namespaces of a configuration that is loaded. -/
theorem hasNamespaces_loadConfig
    (h : ChrootConfig.loadConfig cfg lc ls places = .ok conf) :
    HasNamespaces conf := by
  rw [← (ChrootConfig.loadedAll_loadConfig h).run_eq]
  refine ChrootConfig.run_keeps (P := HasNamespaces) cfg (fun hP hadd ns hns => ?_) ?_ _
  · rw [(ChrootConfig.added_of_add hadd).namespaces]
    exact hP ns hns
  · intro ns hns
    revert ns
    decide

/-- What is found by a name is in the configuration. -/
theorem findChroot_of_findAlias
    {hint name : String} {c : Chroot}
    (h : conf.findAlias hint name = .ok (some c)) :
    ∃ ns n, conf.findChroot ns n = some c := by
  have hhinted : ∀ {name : String}, conf.findChrootHinted hint name = .ok (some c) →
      ∃ ns n, conf.findChroot ns n = some c := by
    intro name h
    simp only [ChrootConfig.findChrootHinted, ChrootConfig.findChrootInNamespace, bind_eq_ok_iff,
      ChrootConfig.findNamespace] at h
    obtain ⟨chroots, hns, hc⟩ := h
    split at hns
    · rename_i hns'
      cases hns
      refine ⟨(ChrootConfig.hintedName hint name).1, (ChrootConfig.hintedName hint name).2, ?_⟩
      rw [ChrootConfig.findChroot, hns', Option.bind_some]
      exact Except.ok.inj hc
    · cases hns
  simp only [ChrootConfig.findAlias] at h
  split at h
  · exact hhinted h
  · exact hhinted h

/-- **Whole namespaces that are loaded can always be selected**, no name is selected twice, and the
chroots that are selected are those that the files of the namespaces describe, unless aliases are
listed, too. -/
theorem selected_loadConfig
    {o : OptionsBase}
    (h : ChrootConfig.loadConfig cfg lc ls places = .ok conf)
    (hall : usesAll o = true) :
    ∃ names chroots objects, getChrootOptions conf o = .ok (names, chroots) ∧
      chrootObjects chroots names = .ok objects ∧
      (objects.map ChrootEntry.aliasName).Nodup ∧
      (¬ (o.action.get = actionList ∧ o.excludeAliases = false) →
        ∀ e, e ∈ objects ↔ ∃ ns, Uses o ns ∧
          e.aliasName = ChrootConfig.qualified ns e.chroot.name ∧
            ∃ r ∈ places.read cfg lc ls,
              ChrootConfig.ReadFrom cfg r.1 r.2.text ns e.chroot) := by
  obtain ⟨names, chroots, objects, hselect, hobjects, honce, hexact⟩ := exists_getChrootOptions
    (ChrootConfig.resolves_loadConfig h) (hasNamespaces_loadConfig h) hall
  have hloaded := ChrootConfig.loadedAll_loadConfig h
  refine ⟨names, chroots, objects, hselect, hobjects, honce, fun hno e => ?_⟩
  rw [hexact hno]
  constructor
  · rintro ⟨ns, n, hused, hfind, halias⟩
    obtain ⟨hname, hread⟩ := (hloaded.findChroot_iff ns n e.chroot).mp hfind
    exact ⟨ns, hused, hname.symm ▸ halias, hread⟩
  · rintro ⟨ns, hused, halias, hread⟩
    exact ⟨ns, e.chroot.name, hused, (hloaded.findChroot_iff ns _ e.chroot).mpr ⟨rfl, hread⟩,
      halias⟩

/-- One directory chroot. -/
def wheezyPlaces : ChrootConfig.ConfigPlaces where
  conf := .file (ChrootConfig.rootFile "[wheezy]\ntype=directory\ndirectory=/srv/wheezy\n")
  chrootD := .directory []
  sessions := .directory []

/-- All chroots and sessions of it are selected. -/
theorem selected_wheezyPlaces :
    ∃ conf names chroots objects,
      ChrootConfig.loadConfig .standard true true wheezyPlaces = .ok conf ∧
      getChrootOptions conf
          { allChroots := true, allSessions := true, loadChroots := true, loadSessions := true } =
        .ok (names, chroots) ∧
      chrootObjects chroots names = .ok objects := by
  have hrun : okAnd (ChrootConfig.loadConfig .standard true true wheezyPlaces)
      (fun _ => true) = true := by
    decide +kernel
  obtain ⟨conf, hconf, -⟩ := okAnd_eq_true_iff.mp hrun
  obtain ⟨names, chroots, objects, hselect, hobjects, -⟩ := selected_loadConfig
    (o := { allChroots := true, allSessions := true, loadChroots := true, loadSessions := true })
    hconf rfl
  exact ⟨conf, names, chroots, objects, hconf, hselect, hobjects⟩

/-- Without sessions, all names in their namespace are those of plain chroots. -/
structure PlainSessions (conf : ChrootConfig) : Prop where
  noSessions : ∀ n, conf.findChroot "session" n = none
  aliases : ∀ n target : String, conf.aliases[ChrootConfig.qualified "session" n]? = some target ↔
    target = ChrootConfig.qualified "chroot" n ∧
      ∃ c, conf.findChroot "chroot" n = some c ∧ c.kind.typeName = "plain"

/-- A normal chroot is added. -/
theorem PlainSessions.add_chroot
    {conf' : ChrootConfig} {c : Chroot} {kf : Keyfile}
    (h : PlainSessions conf)
    (hadd : conf.add "chroot" c kf = .ok conf') :
    PlainSessions conf' := by
  have hadded := ChrootConfig.added_of_add hadd
  have hkey : ∀ n, ChrootConfig.AddedKey "chroot" c (ChrootConfig.qualified "session" n) ↔
      n = c.name ∧ c.kind.typeName = "plain" := by
    intro n
    have hne : ∀ a, ChrootConfig.qualified "session" n ≠ ChrootConfig.qualified "chroot" a :=
      fun a => (ChrootConfig.qualified_chroot_ne_session a n).symm
    constructor
    · rintro (heq | ⟨-, hplain, heq⟩ | ⟨a, -, heq | ⟨hns, -⟩⟩)
      · exact absurd heq (hne _)
      · exact ⟨ChrootConfig.qualified_injective heq, hplain⟩
      · exact absurd heq (hne a)
      · exact absurd hns (by decide)
    · rintro ⟨rfl, hplain⟩
      exact .inr (.inl ⟨rfl, hplain, rfl⟩)
  refine ⟨fun n => ?_, fun n target => ?_⟩
  · rw [hadded.chroots, if_neg (by simp)]
    exact h.noSessions n
  · rw [hadded.aliases, hadded.chroots]
    by_cases hn : n = c.name
    · -- the name is new, so that it has not been a name of a session, either
      subst hn
      have hnone : conf.aliases[ChrootConfig.qualified "session" c.name]? = none := by
        rw [Option.eq_none_iff_forall_ne_some]
        intro target htarget
        obtain ⟨-, d, hd, -⟩ := (h.aliases c.name target).mp htarget
        rw [hadded.fresh.1] at hd
        cases hd
      have hfound : (if "chroot" = "chroot" ∧ c.name = c.name then some c
          else conf.findChroot "chroot" c.name) = some c := if_pos ⟨rfl, rfl⟩
      rw [hnone, Option.none_or, hfound]
      by_cases hplain : c.kind.typeName = "plain"
      · rw [if_pos ((hkey c.name).mpr ⟨rfl, hplain⟩), Option.some.injEq]
        constructor
        · rintro rfl
          exact ⟨rfl, c, rfl, hplain⟩
        · exact fun h => h.1.symm
      · rw [if_neg fun h => hplain ((hkey c.name).mp h).2]
        constructor
        · intro h
          cases h
        · rintro ⟨-, d, hd, hd'⟩
          cases hd
          exact absurd hd' hplain
    · rw [if_neg (fun h => hn ((hkey n).mp h).1), Option.or_none, if_neg (fun h => hn h.2)]
      exact h.aliases n target

/-- A source chroot is added. -/
theorem PlainSessions.add_source
    {conf' : ChrootConfig} {c : Chroot} {kf : Keyfile}
    (h : PlainSessions conf)
    (hadd : conf.add "source" c kf = .ok conf') :
    PlainSessions conf' := by
  have hadded := ChrootConfig.added_of_add hadd
  have hkey : ∀ n, ¬ ChrootConfig.AddedKey "source" c (ChrootConfig.qualified "session" n) := by
    intro n
    have hne : ∀ a, ChrootConfig.qualified "session" n ≠ ChrootConfig.qualified "source" a :=
      ChrootConfig.qualified_ne (by decide) (by decide) (by decide) n
    rintro (heq | ⟨hns, -⟩ | ⟨a, -, heq | ⟨-, heq⟩⟩)
    · exact hne _ heq
    · exact absurd hns (by decide)
    · exact hne a heq
    · exact ChrootConfig.qualified_chroot_ne_session _ n heq.symm
  refine ⟨fun n => ?_, fun n target => ?_⟩
  · rw [hadded.chroots, if_neg (by simp)]
    exact h.noSessions n
  · rw [hadded.aliases, if_neg (hkey n), Option.or_none, hadded.chroots, if_neg (by simp)]
    exact h.aliases n target

/-- **A configuration without sessions**, by induction on the files. -/
theorem plainSessions_loadConfig
    (h : ChrootConfig.loadConfig cfg lc false places = .ok conf) :
    PlainSessions conf := by
  have hloaded := ChrootConfig.loadedAll_loadConfig h
  have hchroot : ∀ r ∈ places.read cfg lc false, r.1 = "chroot" := by
    intro r hr
    cases lc with
    | false => simp [ChrootConfig.ConfigPlaces.read] at hr
    | true =>
        simp only [ChrootConfig.ConfigPlaces.read, if_true, Bool.false_eq_true, if_false,
          List.append_nil, ChrootConfig.ConfigPlaces.chrootFiles, List.mem_map] at hr
        obtain ⟨data, -, rfl⟩ := hr
        rfl
  have hempty : PlainSessions .empty := by
    refine ⟨fun n => ?_, fun n target => ?_⟩
    · rw [Option.eq_none_iff_forall_ne_some]
      intro c hc
      obtain ⟨found, hns, hfound⟩ := Option.bind_eq_some_iff.mp hc
      rw [(ChrootConfig.namespaces_empty hns).2] at hfound
      simp at hfound
    · constructor
      · intro htarget
        simp [ChrootConfig.empty] at htarget
      · rintro ⟨-, c, hc, -⟩
        obtain ⟨found, hns, hfound⟩ := Option.bind_eq_some_iff.mp hc
        rw [(ChrootConfig.namespaces_empty hns).2] at hfound
        simp at hfound
  refine hloaded.keeps (fun hr hP _ hadd => ?_) (fun _ hP _ _ hadd => hP.add_source hadd) hempty
  rw [hchroot _ hr] at hadd
  exact hP.add_chroot hadd

/-- **The names of sessions**, when no session is loaded. -/
theorem findAlias_session
    (h : PlainSessions conf)
    (hr : conf.Resolves)
    (hns : HasNamespaces conf)
    {n : String}
    (hn : ':' ∉ n.toList) :
    conf.findAlias "session" n =
      .ok ((conf.findChroot "chroot" n).filter fun c => c.kind.typeName = "plain") := by
  have hhinted : ChrootConfig.hintedName "session" n = ("session", n) := by
    simp [ChrootConfig.hintedName, ChrootConfig.getNamespace, hn]
  rw [ChrootConfig.findAlias, hhinted]
  cases halias : conf.aliases[ChrootConfig.qualified "session" n]? with
  | some target =>
      obtain ⟨rfl, c, hc, hplain⟩ := (h.aliases n target).mp halias
      show conf.findChrootHinted "session" (ChrootConfig.qualified "chroot" n) = _
      rw [ChrootConfig.findChrootHinted_qualified "session" hr hc, hc]
      simp [Option.filter, hplain]
  | none =>
      obtain ⟨sessions, hsessions⟩ := Option.isSome_iff_exists.mp (hns "session" (by simp))
      have hfind : sessions[n]? = none := by
        have hnone := h.noSessions n
        rwa [ChrootConfig.findChroot, hsessions, Option.bind_some] at hnone
      have hplain : ((conf.findChroot "chroot" n).filter fun c => c.kind.typeName = "plain") =
          none := by
        rw [Option.filter_eq_none_iff]
        intro c hc hplain
        have hsome := (h.aliases n _).mpr ⟨rfl, c, hc, of_decide_eq_true hplain⟩
        rw [halias] at hsome
        cases hsome
      rw [hplain]
      simp [ChrootConfig.findChrootHinted, hhinted, ChrootConfig.findChrootInNamespace,
        ChrootConfig.findNamespace, hsessions, hfind, bind, Except.bind, pure, Except.pure]

end Loaded

section Sessions

variable {cfg : SbuildConfig} {conf : ChrootConfig} {places : ChrootConfig.ConfigPlaces}
  {o : OptionsBase} {info : AuthInfo} {names : List String}
  {chroots : Std.ExtTreeMap String Chroot} {line : CommandLine} {lc ls : Bool} {s : Session}

/-- A map with a chroot in it is not empty. -/
theorem isEmpty_of_getElem?
    {name : String} {c : Chroot}
    (h : chroots[name]? = some c) :
    chroots.isEmpty = false := by
  rw [Bool.eq_false_iff]
  intro hempty
  rw [Std.ExtTreeMap.isEmpty_iff.mp hempty] at h
  simp at h

/-- **How a session comes about**: the configuration is loaded, and chroots are selected. -/
structure SessionRun (cfg : SbuildConfig) (places : ChrootConfig.ConfigPlaces) (o : OptionsBase)
    (info : AuthInfo) (conf : ChrootConfig) (s : Session) : Prop where
  loaded : ChrootConfig.loadConfig cfg o.loadChroots o.loadSessions places = .ok conf
  selected : ∃ chroots, getChrootOptions conf o = .ok (s.chroots.map ChrootEntry.aliasName, chroots)
  found : ∀ e ∈ s.chroots, Found conf o e
  session : s = createSession o info s.chroots
  action : o.action.get ∉
    [actionHelp, actionVersion, actionList, actionInfo, actionLocation, actionConfig]

/-- What `run_impl` comes to when chroots are used. -/
structure UsesChroots (cfg : SbuildConfig) (places : ChrootConfig.ConfigPlaces) (o : OptionsBase)
    (info : AuthInfo) (reply : Reply) (conf : ChrootConfig) (objects : List ChrootEntry)
    (chroots : Std.ExtTreeMap String Chroot) : Prop where
  action : o.action.get ≠ actionHelp ∧ o.action.get ≠ actionVersion
  loaded : ChrootConfig.loadConfig cfg o.loadChroots o.loadSessions places = .ok conf
  selected : getChrootOptions conf o = .ok (objects.map ChrootEntry.aliasName, chroots)
  found : ∀ e ∈ objects, Found conf o e
  acts : act conf o info (objects.map ChrootEntry.aliasName) chroots objects = .ok reply

/-- **The cases of `run_impl`** that do not throw. -/
theorem cases_runImpl
    {reply : Reply}
    (h : (runImpl cfg places o info).2 = .ok reply) :
    reply = .help ∨ reply = .version ∨ reply = .nothing ∨
      ∃ conf objects chroots, UsesChroots cfg places o info reply conf objects chroots := by
  unfold runImpl at h
  split at h
  · exact .inl (Except.ok.inj h).symm
  rename_i hhelp
  split at h
  · exact .inr (.inl (Except.ok.inj h).symm)
  rename_i hversion
  split at h
  · cases h
  rename_i conf hload
  simp only [runLoaded] at h
  split at h
  · cases h
  rename_i names chroots hselect
  split at h
  · simp only [runEmpty] at h
    split at h
    · cases h
    · split at h <;> exact .inr (.inr (.inl (Except.ok.inj h).symm))
  simp only [bind_eq_ok_iff] at h
  obtain ⟨objects, hobjects, hact⟩ := h
  obtain ⟨objects', hobjects', rfl, hfound⟩ := objects_getChrootOptions hselect
  rw [hobjects] at hobjects'
  cases hobjects'
  exact .inr (.inr (.inr ⟨conf, objects, chroots, ⟨hhelp, hversion⟩, hload, hselect, hfound, hact⟩))

/-- A session is run if nothing is printed. -/
theorem act_eq_session
    {objects : List ChrootEntry}
    (h : act conf o info names chroots objects = .ok (.session s)) :
    s = createSession o info objects ∧
      o.action.get ∉ [actionList, actionInfo, actionLocation, actionConfig] := by
  unfold act at h
  split at h
  · cases h
  rename_i hlist
  simp only [bind_eq_ok_iff] at h
  obtain ⟨found, -, h⟩ := h
  split at h
  · cases h
  split at h
  · cases h
  rename_i hinfo
  split at h
  · cases h
  rename_i hlocation
  split at h
  · cases h
  rename_i hconfig
  cases h
  exact ⟨rfl, by simp [hlist, hinfo, hlocation, hconfig]⟩

/-- **The sessions that are run.** -/
theorem exists_sessionRun
    (h : (runImpl cfg places o info).2 = .ok (.session s)) :
    ∃ conf, SessionRun cfg places o info conf s := by
  rcases cases_runImpl h with hr | hr | hr | ⟨conf, objects, chroots, huses⟩
  · cases hr
  · cases hr
  · cases hr
  · obtain ⟨rfl, haction⟩ := act_eq_session huses.acts
    refine ⟨conf, huses.loaded, ⟨chroots, huses.selected⟩, huses.found, rfl, ?_⟩
    intro hmem
    rcases List.mem_cons.mp hmem with heq | hmem
    · exact huses.action.1 heq
    · rcases List.mem_cons.mp hmem with heq | hmem
      · exact huses.action.2 heq
      · exact haction hmem

/-- What `run_impl` does with chroots that are there. -/
theorem runImpl_eq_act
    {objects : List ChrootEntry}
    (haction : o.action.get ≠ actionHelp ∧ o.action.get ≠ actionVersion)
    (hload : ChrootConfig.loadConfig cfg o.loadChroots o.loadSessions places = .ok conf)
    (hselect : getChrootOptions conf o = .ok (names, chroots))
    (hobjects : chrootObjects chroots names = .ok objects)
    (hnonempty : chroots.isEmpty = false) :
    (runImpl cfg places o info).2 = act conf o info names chroots objects := by
  simp only [runImpl, if_neg haction.1, if_neg haction.2, hload, runLoaded, hselect, hnonempty,
    Bool.false_eq_true, if_false, hobjects]
  rfl

/-- The chroots of a session come from trusted files. -/
theorem SessionRun.readFrom
    (h : SessionRun cfg places o info conf s) :
    ∀ e ∈ s.chroots, ∃ r ∈ places.read cfg o.loadChroots o.loadSessions,
      ChrootConfig.Trusted r.2 ∧ ∃ n, ChrootConfig.ReadFrom cfg r.1 r.2.text n e.chroot := by
  intro e he
  obtain ⟨ns, n, hfind⟩ := findChroot_of_findAlias (h.found e he)
  have hloaded := ChrootConfig.loadedAll_loadConfig h.loaded
  obtain ⟨-, r, hr, hfrom⟩ := (hloaded.findChroot_iff ns n e.chroot).mp hfind
  exact ⟨r, hr, hloaded.trusted r hr, ns, hfrom⟩

/-- The operations that begin sessions are those of the two actions that do. -/
theorem kind_of_begins
    {kind : OptionsBase.ActionKind}
    (h : SessionRun cfg places o info conf s)
    (hop : Session.performs s.operation .setupStart = true)
    (hkind : OptionsBase.actionKind o.action.get = some kind) :
    kind = .automatic ∨ kind = .begin := by
  have haction := h.action
  have hoperation : s.operation = operationOf o.action.get := congrArg Session.operation h.session
  rw [hoperation] at hop
  generalize o.action.get = action at haction hop hkind
  unfold OptionsBase.actionKind at hkind
  split at hkind
  · exact .inl (Option.some.inj hkind).symm
  · split at hkind
    · exact .inr (Option.some.inj hkind).symm
    · rename_i hbegin
      split at hkind
      · rename_i hsession
        rcases hsession with rfl | rfl | rfl <;> exact absurd hop (by decide)
      · simp only [List.mem_cons, List.not_mem_nil, or_false, not_or] at haction
        simp [haction] at hkind

/-- **No session is loaded** when a new one is begun. -/
theorem noSessions_of_begins
    (hparse : Program.parse .schroot line lc ls = .ok o)
    (h : SessionRun cfg places o info conf s)
    (hop : Session.performs s.operation .setupStart = true) :
    o.loadSessions = false := by
  obtain ⟨kind, hunderstood⟩ := Program.understood_of_parse hparse
  have hkind := kind_of_begins h hop hunderstood.selected.action
  rcases hkind with rfl | rfl
  · exact (hunderstood.selected.noSessions (.inl rfl)).1
  · exact (hunderstood.selected.noSessions (.inr (.inl rfl))).1

/-- The files that are read without sessions. -/
theorem mem_chrootFiles
    {r : String × DataFile}
    (h : r ∈ places.read cfg lc false) :
    r ∈ places.chrootFiles cfg ∧ r.1 = "chroot" := by
  have hmem : r ∈ places.chrootFiles cfg := by
    simp only [ChrootConfig.ConfigPlaces.read, Bool.false_eq_true, if_false, List.append_nil] at h
    split at h
    · exact h
    · cases h
  refine ⟨hmem, ?_⟩
  obtain ⟨data, -, rfl⟩ := List.mem_map.mp hmem
  rfl

/-- **New sessions are begun from chroots of the configuration**: no file of the session directory
is read for them. -/
theorem readFrom_of_begins
    (hparse : Program.parse .schroot line lc ls = .ok o)
    (h : SessionRun cfg places o info conf s)
    (hop : Session.performs s.operation .setupStart = true) :
    ∀ e ∈ s.chroots, ∃ r ∈ places.chrootFiles cfg,
      ChrootConfig.Trusted r.2 ∧ ∃ n, ChrootConfig.ReadFrom cfg "chroot" r.2.text n e.chroot := by
  intro e he
  obtain ⟨r, hr, htrusted, n, hfrom⟩ := h.readFrom e he
  rw [noSessions_of_begins hparse h hop] at hr
  obtain ⟨hmem, hns⟩ := mem_chrootFiles hr
  exact ⟨r, hmem, htrusted, n, hns ▸ hfrom⟩

/-- **Sessions are run with chroots of trusted files**, and new ones are begun from chroots of the
configuration only, whatever is in the session directory. -/
theorem trusted_runImpl
    (hparse : Program.parse .schroot line lc ls = .ok o)
    (hrun : (runImpl cfg places o info).2 = .ok (.session s)) :
    ∀ e ∈ s.chroots, ∃ r ∈ places.read cfg o.loadChroots o.loadSessions,
      ChrootConfig.Trusted r.2 ∧ (∃ n, ChrootConfig.ReadFrom cfg r.1 r.2.text n e.chroot) ∧
        (Session.performs s.operation .setupStart = true →
          r ∈ places.chrootFiles cfg ∧ r.1 = "chroot") := by
  obtain ⟨conf, h⟩ := exists_sessionRun hrun
  intro e he
  obtain ⟨r, hr, htrusted, hread⟩ := h.readFrom e he
  refine ⟨r, hr, htrusted, hread, fun hop => ?_⟩
  rw [noSessions_of_begins hparse h hop] at hr
  exact mem_chrootFiles hr

/-- **A session is begun** from the one chroot that is there. -/
theorem trusted_beginLine :
    ∃ o s, Program.parse .schroot Program.beginLine true false = .ok o ∧
      (runImpl .standard wheezyPlaces o Session.sampleInfo).2 = .ok (.session s) ∧
      ∀ e ∈ s.chroots, ∃ r ∈ wheezyPlaces.read .standard o.loadChroots o.loadSessions,
        ChrootConfig.Trusted r.2 := by
  have hrun : okAnd (Program.parse .schroot Program.beginLine true false) (fun o =>
      okAnd (runImpl .standard wheezyPlaces o Session.sampleInfo).2 fun reply =>
        match reply with
        | .session _ => true
        | _ => false) = true := by
    decide +kernel
  obtain ⟨o, ho, hrun⟩ := okAnd_eq_true_iff.mp hrun
  obtain ⟨reply, hreply, hrun⟩ := okAnd_eq_true_iff.mp hrun
  cases reply with
  | session s =>
      refine ⟨o, s, ho, hreply, fun e he => ?_⟩
      obtain ⟨r, hr, htrusted, -⟩ := trusted_runImpl ho hreply e he
      exact ⟨r, hr, htrusted⟩
  | _ => cases hrun

/-- A session name that is accepted has no namespace. -/
theorem sessionName_of_parse
    (hparse : Program.parse .schroot line lc ls = .ok o) :
    ':' ∉ o.sessionName.toList := by
  obtain ⟨kind, hunderstood⟩ := Program.understood_of_parse hparse
  by_cases hname : o.sessionName = ""
  · rw [hname]
    decide
  · intro hmem
    have hvalid := (hunderstood.selected.sessionName hname).2
    have hchar := isNameChar_of_isValidSessionname hvalid ':' hmem
    revert hchar
    decide

/-- **When a new session is refused for its name**: exactly if a plain chroot has it.  Sessions that
exist do not matter, as they are not loaded; otherwise one session is run. -/
theorem sessionInvalid_iff
    (hparse : Program.parse .schroot line lc ls = .ok o)
    (hbegin : o.action.get = actionSessionBegin)
    (hload : ChrootConfig.loadConfig cfg o.loadChroots o.loadSessions places = .ok conf)
    (hselect : getChrootOptions conf o = .ok (names, chroots)) :
    ((runImpl cfg places o info).2 = .error (.sessionInvalid o.sessionName) ↔
      ∃ c, conf.findChroot "chroot" o.sessionName = some c ∧ c.kind.typeName = "plain") ∧
    ((runImpl cfg places o info).2 ≠ .error (.sessionInvalid o.sessionName) →
      ∃ s, (runImpl cfg places o info).2 = .ok (.session s) ∧ s.operation = .opBegin ∧
        s.chroots.length = 1) := by
  obtain ⟨kind, hunderstood⟩ := Program.understood_of_parse hparse
  have hkind : kind = .begin := by
    have haction := hunderstood.selected.action
    rw [hbegin] at haction
    exact (Option.some.inj haction).symm
  subst hkind
  have hone := hunderstood.selected.one rfl
  have hnoAll : usesAll o = false := by
    have hne : o.chroots ≠ [] := by
      intro hnil
      rw [hnil] at hone
      cases hone
    have hall := hunderstood.selected.exclusive hne
    simp only [OptionsBase.allUsed, Bool.or_eq_false_iff] at hall
    simp [usesAll, hall]
  have hno := (hunderstood.selected.noSessions (.inr (.inl rfl))).1
  obtain ⟨objects, hobjects, halias, hfound⟩ := objects_getChrootOptions hselect
  have hnames : names = o.chroots := by
    simp only [getChrootOptions, chrootNames, hnoAll, bind_eq_ok_iff] at hselect
    obtain ⟨_, hnames, _, -, h⟩ := hselect
    cases hnames
    cases h
    rfl
  have hlength : objects.length = 1 := by
    rw [← List.length_map ChrootEntry.aliasName, halias, hnames, hone]
  have hnonempty : chroots.isEmpty = false := by
    obtain ⟨e, rfl⟩ := List.length_eq_one_iff.mp hlength
    simp only [getChrootOptions, bind_eq_ok_iff] at hselect
    obtain ⟨_, -, _, hvalid, h⟩ := hselect
    cases h
    obtain ⟨c, hc, -⟩ := found_of_validateChroots hvalid e.aliasName (by rw [← halias]; simp)
    exact isEmpty_of_getElem? hc
  have hrun : (runImpl cfg places o info).2 = act conf o info names chroots objects := by
    refine runImpl_eq_act ?_ hload hselect hobjects hnonempty
    rw [hbegin]
    decide
  have hplain : PlainSessions conf := plainSessions_loadConfig (hno ▸ hload)
  have hsessions := findAlias_session hplain (ChrootConfig.resolves_loadConfig hload)
    (hasNamespaces_loadConfig hload) (sessionName_of_parse hparse)
  have hact : act conf o info names chroots objects =
      if ((conf.findChroot "chroot" o.sessionName).filter fun c =>
          c.kind.typeName = "plain").isSome then
        .error (.sessionInvalid o.sessionName)
      else
        .ok (.session (createSession o info objects)) := by
    have hother : ∀ action ∈ [actionList, actionInfo, actionLocation, actionConfig],
        o.action.get ≠ action := by
      rw [hbegin]
      decide
    simp only [List.forall_mem_cons] at hother
    obtain ⟨hlist, hinfo, hlocation, hconfig, -⟩ := hother
    rw [act, if_neg hlist, hsessions, if_neg hinfo, if_neg hlocation, if_neg hconfig]
    rfl
  have hiff : ((conf.findChroot "chroot" o.sessionName).filter fun c =>
        c.kind.typeName = "plain").isSome = true ↔
      ∃ c, conf.findChroot "chroot" o.sessionName = some c ∧ c.kind.typeName = "plain" := by
    cases conf.findChroot "chroot" o.sessionName with
    | none => simp
    | some c => simp [Option.filter]
  rw [hrun, hact, ← hiff]
  split
  · rename_i hrefused
    exact ⟨iff_of_true rfl hrefused, fun h => absurd rfl h⟩
  · rename_i haccepted
    refine ⟨iff_of_false (fun h => by cases h) haccepted, fun _ => ⟨_, rfl, ?_, hlength⟩⟩
    show operationOf o.action.get = .opBegin
    rw [hbegin]
    rfl

/-- **A session of it is begun** under a name that no plain chroot has. -/
theorem sessionInvalid_beginLine :
    ∃ o conf names chroots, Program.parse .schroot Program.beginLine true false = .ok o ∧
      ChrootConfig.loadConfig .standard o.loadChroots o.loadSessions wheezyPlaces = .ok conf ∧
      getChrootOptions conf o = .ok (names, chroots) ∧
      ((runImpl .standard wheezyPlaces o Session.sampleInfo).2 =
          .error (.sessionInvalid o.sessionName) ↔
        ∃ c, conf.findChroot "chroot" o.sessionName = some c ∧ c.kind.typeName = "plain") := by
  have hrun : okAnd (Program.parse .schroot Program.beginLine true false) (fun o =>
      decide (o.action.get = actionSessionBegin) &&
        okAnd (ChrootConfig.loadConfig .standard o.loadChroots o.loadSessions wheezyPlaces)
          fun conf => okAnd (getChrootOptions conf o) fun _ => true) = true := by
    decide +kernel
  obtain ⟨o, ho, hrun⟩ := okAnd_eq_true_iff.mp hrun
  obtain ⟨hbegin, hrun⟩ := Bool.and_eq_true_iff.mp hrun
  obtain ⟨conf, hconf, hrun⟩ := okAnd_eq_true_iff.mp hrun
  obtain ⟨⟨names, chroots⟩, hselect, -⟩ := okAnd_eq_true_iff.mp hrun
  exact ⟨o, conf, names, chroots, ho, hconf, hselect,
    (sessionInvalid_iff ho (of_decide_eq_true hbegin) hconf hselect).1⟩

end Sessions

section Printing

variable {cfg : SbuildConfig} {places : ChrootConfig.ConfigPlaces} {o : OptionsBase}
  {info : AuthInfo} {kf : Keyfile}

/-- The options that matter when the configuration is printed. -/
def printOptions (o : OptionsBase) : Main.Options where
  chroots := o.chroots
  allChroots := o.allChroots
  allSessions := o.allSessions
  allSourceChroots := o.allSourceChroots

theorem getChrootOptions_config
    (h : o.action.get = actionConfig)
    (conf : ChrootConfig) :
    getChrootOptions conf o = Main.getChrootOptions conf (printOptions o) := by
  have hlist : o.action.get ≠ actionList := by rw [h]; decide
  have hsession : ¬ (o.action.get = actionSessionRecover ∨ o.action.get = actionSessionRun ∨
      o.action.get = actionSessionEnd) := by
    rw [h]
    decide
  have hnames : ∀ ns all, listIf conf o ns all = Main.listIf conf ns all := by
    intro ns all
    simp [listIf, listNames, hlist, Main.listIf]
  simp only [getChrootOptions, chrootNames, namespaceHint, hnames, if_neg hsession,
    Main.getChrootOptions, Main.chrootNames, Main.namespaceHint]
  rfl

/-- The configuration is printed. -/
theorem config_of_act
    {conf : ChrootConfig} {names : List String} {chroots : Std.ExtTreeMap String Chroot}
    {objects : List ChrootEntry}
    (h : act conf o info names chroots objects = .ok (.config kf)) :
    o.action.get = actionConfig ∧ kf = names.foldl (Main.writeChroot chroots) .empty := by
  unfold act at h
  split at h
  · cases h
  simp only [bind_eq_ok_iff] at h
  obtain ⟨found, -, h⟩ := h
  split at h
  · cases h
  split at h
  · cases h
  split at h
  · cases h
  split at h
  · rename_i hconfig
    cases h
    exact ⟨hconfig, rfl⟩
  · cases h

/-- What is printed as the configuration is what `action_config` makes of it. -/
theorem actionConfig_of_runImpl
    (h : (runImpl cfg places o info).2 = .ok (.config kf)) :
    ∃ conf, ChrootConfig.loadConfig cfg o.loadChroots o.loadSessions places = .ok conf ∧
      Main.actionConfig conf (printOptions o) = .ok kf := by
  rcases cases_runImpl h with hr | hr | hr | ⟨conf, objects, chroots, huses⟩
  · cases hr
  · cases hr
  · cases hr
  · obtain ⟨hconfig, rfl⟩ := config_of_act huses.acts
    refine ⟨conf, huses.loaded, ?_⟩
    have hselect := huses.selected
    rw [getChrootOptions_config hconfig] at hselect
    simp only [Main.actionConfig, hselect, bind_eq_ok_iff]
    exact ⟨_, rfl, rfl⟩

/-- One chroot is written, unless it was generated. -/
def writeEntry (info : Keyfile) (e : ChrootEntry) : Keyfile :=
  if e.chroot.original then e.chroot.getKeyfile info else info

/-- The chroot that a group is written for last; generated chroots are not written. -/
def lastWritten (objects : List ChrootEntry) (group : String) : Option Chroot :=
  objects.reverse.findSome? fun e =>
    if e.chroot.original ∧ e.chroot.name = group then some e.chroot else none

/-- **What is left of a group**, by induction on the entries, from the last one. -/
theorem findGroup_writeEntry
    (objects : List ChrootEntry) (group : String) :
    (objects.foldl writeEntry .empty).findGroup group =
      (lastWritten objects group).bind Main.ownGroup := by
  induction objects using List.reverseRecOn with
  | nil => simp [lastWritten, Keyfile.empty, Keyfile.findGroup]
  | append_singleton objects e ih =>
      rw [List.foldl_append, List.foldl_cons, List.foldl_nil, writeEntry, lastWritten,
        List.reverse_append, List.reverse_singleton, List.singleton_append, List.findSome?_cons]
      by_cases horiginal : e.chroot.original = true
      · rw [if_pos horiginal, Main.findGroup_getKeyfile]
        by_cases hname : group = e.chroot.name
        · subst hname
          simp [horiginal, Main.ownGroup]
        · have hother : ¬ (e.chroot.original = true ∧ e.chroot.name = group) :=
            fun h => hname h.2.symm
          rw [if_neg hname, if_neg hother]
          exact ih
      · rw [if_neg horiginal, if_neg fun h => horiginal h.1]
        exact ih

/-- The loop of `action_config` writes the entries. -/
theorem foldl_writeChroot
    {objects : List ChrootEntry} {chroots : Std.ExtTreeMap String Chroot}
    (h : ∀ e ∈ objects, chroots[e.aliasName]? = some e.chroot)
    (kf : Keyfile) :
    (objects.map ChrootEntry.aliasName).foldl (Main.writeChroot chroots) kf =
      objects.foldl writeEntry kf := by
  induction objects generalizing kf with
  | nil => rfl
  | cons e objects ih =>
      obtain ⟨he, hrest⟩ := List.forall_mem_cons.mp h
      rw [List.map_cons, List.foldl_cons, List.foldl_cons, ih hrest, Main.writeChroot, he]
      rfl

/-- **What is printed as the configuration**: for each name of a chroot that is selected, the group
of the last one that has it, and nothing else. -/
theorem printed_runImpl
    (h : (runImpl cfg places o info).2 = .ok (.config kf)) :
    ∃ conf objects,
      ChrootConfig.loadConfig cfg o.loadChroots o.loadSessions places = .ok conf ∧
      chrootNames conf o = .ok (objects.map ChrootEntry.aliasName) ∧
      (∀ e ∈ objects, Found conf o e) ∧
      ∀ group, kf.findGroup group = (lastWritten objects group).bind Main.ownGroup := by
  rcases cases_runImpl h with hr | hr | hr | ⟨conf, objects, chroots, huses⟩
  · cases hr
  · cases hr
  · cases hr
  · have hselect := huses.selected
    simp only [getChrootOptions, bind_eq_ok_iff] at hselect
    obtain ⟨names, hnames, _, hvalid, hselect⟩ := hselect
    cases hselect
    have hlook : ∀ e ∈ objects, chroots[e.aliasName]? = some e.chroot := fun e he =>
      (Main.validateChroots_eq_ok hvalid e.aliasName e.chroot).mpr
        ⟨List.mem_map_of_mem he, huses.found e he⟩
    refine ⟨conf, objects, huses.loaded, hnames, huses.found, fun group => ?_⟩
    rw [(config_of_act huses.acts).2, foldl_writeChroot hlook]
    exact findGroup_writeEntry objects group

/-- What is printed of one chroot. -/
theorem printed_wheezyPlaces :
    ∃ kf conf objects,
      (runImpl .standard wheezyPlaces
        { action := { currentAction := actionConfig }, allChroots := true, loadChroots := true,
          loadSessions := false } Session.sampleInfo).2 = .ok (.config kf) ∧
      ChrootConfig.loadConfig .standard true false wheezyPlaces = .ok conf ∧
      ∀ group, kf.findGroup group = (lastWritten objects group).bind Main.ownGroup := by
  have hrun : okAnd (runImpl .standard wheezyPlaces
      { action := { currentAction := actionConfig }, allChroots := true, loadChroots := true,
        loadSessions := false } Session.sampleInfo).2 (fun reply =>
      match reply with
      | .config _ => true
      | _ => false) = true := by
    decide +kernel
  obtain ⟨reply, hreply, hrun⟩ := okAnd_eq_true_iff.mp hrun
  cases reply with
  | config kf =>
      obtain ⟨conf, objects, hload, -, -, hprinted⟩ := printed_runImpl hreply
      exact ⟨kf, conf, objects, hreply, hload, hprinted⟩
  | _ => cases hrun

end Printing

end MainBase

end Schroot
