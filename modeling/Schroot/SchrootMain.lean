import Schroot.CommandLines
import Schroot.ConfigFiles
import Schroot.MainConfig
import Schroot.Session

/-!
# One invocation of `schroot`

`run_impl` loads the configuration, selects chroots, and prints something about them or runs a
session with them.

**Input.**  The options as they are understood, the files of the configuration, and who the user is.

**Results.**
* `runImpl_ne_lookup`: the look-ups of the selected names do not fail.
* `exists_getChrootOptions`: whole namespaces can always be selected.
-/

namespace Schroot

namespace MainBase

section Model

/-- What `run_impl` can throw before there is a session. -/
inductive MainError where
  | load (e : FileError)
  | config (e : ConfigError)
  | chrootNotdefined (file : String)
  | sessionInvalid (name : String)
  | lookup (name : String)

/-- What is warned about. -/
inductive Warning where
  | chrootFile2 (file directory : String)
  | chrootNotdefined (file : String)
deriving DecidableEq, Repr

/-- What an invocation comes to. -/
inductive Reply where
  | help
  | version
  | nothing
  | list (names : List String)
  | info (chroots : List Chroot)
  | location (paths : List String)
  | config (info : Keyfile)
  | session (s : Session)

/-- The names that stand for a namespace as a whole. -/
def listNames (conf : ChrootConfig) (o : OptionsBase) (ns : String) :
    Except ConfigError (List String) :=
  if o.action.get = actionList ∧ o.excludeAliases = false then
    conf.getAliasList ns
  else
    conf.getChrootList ns

def listIf (conf : ChrootConfig) (o : OptionsBase) (ns : String) (all : Bool) :
    Except ConfigError (List String) :=
  if all then listNames conf o ns else .ok []

/-- Namespaces are used as a whole. -/
def usesAll (o : OptionsBase) : Bool :=
  o.allChroots || o.allSessions || o.allSourceChroots

/-- The namespace that names are looked for in. -/
def namespaceHint (o : OptionsBase) : String :=
  if usesAll o then ""
  else if o.action.get = actionSessionRecover ∨ o.action.get = actionSessionRun ∨
      o.action.get = actionSessionEnd then "session"
  else "chroot"

/-- The names of the chroots that are selected. -/
def chrootNames (conf : ChrootConfig) (o : OptionsBase) : Except ConfigError (List String) :=
  if usesAll o then do
    let chroots ← listIf conf o "chroot" o.allChroots
    let sessions ← listIf conf o "session" o.allSessions
    let sources ← listIf conf o "source" o.allSourceChroots
    pure (chroots ++ sessions ++ sources)
  else
    .ok o.chroots

/-- `get_chroot_options`: the names, and the chroots that they lead to. -/
def getChrootOptions (conf : ChrootConfig) (o : OptionsBase) :
    Except ConfigError (List String × Std.ExtTreeMap String Chroot) := do
  let names ← chrootNames conf o
  let chroots ← conf.validateChroots (namespaceHint o) names
  pure (names, chroots)

/-- `chroot_objects`: the chroots in the order of the names.  A look-up that failed would be of the
end of the map. -/
def chrootObjects (chroots : Std.ExtTreeMap String Chroot) (names : List String) :
    Except MainError (List ChrootEntry) :=
  names.mapM fun name =>
    match chroots[name]? with
    | some c => .ok { aliasName := name, chroot := c }
    | none => .error (.lookup name)

/-- The operation of a session; it is automatic unless something else is asked for. -/
def operationOf (action : String) : Operation :=
  if action = actionSessionBegin then .opBegin
  else if action = actionSessionRecover then .opRecover
  else if action = actionSessionRun then .opRun
  else if action = actionSessionEnd then .opEnd
  else .opAutomatic

/-- `create_session`, with what is set before it is run. -/
def createSession (o : OptionsBase) (info : AuthInfo) (objects : List ChrootEntry) : Session where
  operation := operationOf o.action.get
  chroots := objects
  sessionId := o.sessionName
  verbosity := if o.quiet then "quiet" else if o.verbose then "verbose" else ""
  userOptions := o.useroptionsMap
  info := info

/-- What is done with the chroots. -/
def act (conf : ChrootConfig) (o : OptionsBase) (info : AuthInfo) (names : List String)
    (chroots : Std.ExtTreeMap String Chroot) (objects : List ChrootEntry) :
    Except MainError Reply :=
  if o.action.get = actionList then .ok (.list names)
  else do
    let found ← (conf.findAlias "session" o.sessionName).mapError .config
    if found.isSome then .error (.sessionInvalid o.sessionName)
    else if o.action.get = actionInfo then .ok (.info (objects.map ChrootEntry.chroot))
    else if o.action.get = actionLocation then
      .ok (.location (objects.map fun e => e.chroot.getPath))
    else if o.action.get = actionConfig then
      .ok (.config (names.foldl (Main.writeChroot chroots) .empty))
    else .ok (.session (createSession o info objects))

/-- The warning about a configuration without chroots. -/
def emptyWarning (cfg : SbuildConfig) (conf : ChrootConfig) (o : OptionsBase) : List Warning :=
  if o.loadChroots && conf.namespaces["chroot"]?.all Std.ExtTreeMap.isEmpty && !o.quiet then
    [.chrootFile2 (ChrootConfig.schrootConf cfg) (ChrootConfig.schrootConfChrootD cfg)]
  else
    []

/-- `run_impl` without chroots, which is no error if namespaces are used as a whole. -/
def runEmpty (cfg : SbuildConfig) (o : OptionsBase) : List Warning × Except MainError Reply :=
  if !usesAll o then ([], .error (.chrootNotdefined (ChrootConfig.schrootConf cfg)))
  else if o.verbose then
    ([.chrootNotdefined (if o.allChroots then ChrootConfig.schrootConf cfg else cfg.sessionDir)],
      .ok .nothing)
  else ([], .ok .nothing)

/-- `run_impl` once the configuration is loaded. -/
def runLoaded (cfg : SbuildConfig) (conf : ChrootConfig) (o : OptionsBase) (info : AuthInfo) :
    List Warning × Except MainError Reply :=
  match getChrootOptions conf o with
  | .error e => ([], .error (.config e))
  | .ok (names, chroots) =>
      if chroots.isEmpty then runEmpty cfg o
      else
        ([], do
          let objects ← chrootObjects chroots names
          act conf o info names chroots objects)

/-- `run_impl`, up to the session. -/
def runImpl (cfg : SbuildConfig) (places : ChrootConfig.ConfigPlaces) (o : OptionsBase)
    (info : AuthInfo) : List Warning × Except MainError Reply :=
  if o.action.get = actionHelp then ([], .ok .help)
  else if o.action.get = actionVersion then ([], .ok .version)
  else
    match ChrootConfig.loadConfig cfg o.loadChroots o.loadSessions places with
    | .error e => ([], .error (.load e))
    | .ok conf =>
        let reply := runLoaded cfg conf o info
        (emptyWarning cfg conf o ++ reply.1, reply.2)

end Model

section Selection

variable {conf : ChrootConfig} {o : OptionsBase} {names : List String}
  {chroots : Std.ExtTreeMap String Chroot}

/-- The names that the loop of `validate_chroots` does not find are bad. -/
theorem found_of_validateChroot
    {hint : String} {bad bad' : List String} {found found' : Std.ExtTreeMap String Chroot}
    (h : names.foldlM (conf.validateChroot hint) (bad, found) = .ok (bad', found'))
    (hbad : bad' = []) :
    bad = [] ∧ ∀ name ∈ names, ∃ c, conf.findAlias hint name = .ok (some c) := by
  induction names generalizing bad found with
  | nil =>
      cases h
      exact ⟨hbad, by simp⟩
  | cons name names ih =>
      rw [List.foldlM_cons, bind_eq_ok_iff] at h
      obtain ⟨⟨bad₁, found₁⟩, hfirst, hrest⟩ := h
      obtain ⟨hbad₁, hall⟩ := ih hrest
      simp only [ChrootConfig.validateChroot, bind_eq_ok_iff] at hfirst
      obtain ⟨c, hc, hfirst⟩ := hfirst
      cases c with
      | none =>
          cases hfirst
          simp at hbad₁
      | some c =>
          cases hfirst
          exact ⟨hbad₁, List.forall_mem_cons.mpr ⟨⟨c, hc⟩, hall⟩⟩

/-- What is validated is found. -/
theorem found_of_validateChroots
    {hint : String}
    (h : conf.validateChroots hint names = .ok chroots) :
    ∀ name ∈ names, ∃ c, chroots[name]? = some c ∧ conf.findAlias hint name = .ok (some c) := by
  intro name hname
  have hvalid := h
  simp only [ChrootConfig.validateChroots, bind_eq_ok_iff] at hvalid
  obtain ⟨⟨bad, found⟩, hfold, hvalid⟩ := hvalid
  split at hvalid
  · rename_i hbad
    obtain ⟨c, hc⟩ := (found_of_validateChroot hfold hbad).2 name hname
    exact ⟨c, (Main.validateChroots_eq_ok h name c).mpr ⟨hname, hc⟩, hc⟩
  · cases hvalid

/-- A chroot under a name that leads to it. -/
def Found (conf : ChrootConfig) (o : OptionsBase) (e : ChrootEntry) : Prop :=
  conf.findAlias (namespaceHint o) e.aliasName = .ok (some e.chroot)

/-- The look-ups succeed if all names are in the map. -/
theorem exists_chrootObjects
    {P : String → Chroot → Prop}
    (h : ∀ name ∈ names, ∃ c, chroots[name]? = some c ∧ P name c) :
    ∃ objects, chrootObjects chroots names = .ok objects ∧
      objects.map ChrootEntry.aliasName = names ∧ ∀ e ∈ objects, P e.aliasName e.chroot := by
  unfold chrootObjects
  induction names with
  | nil => exact ⟨[], rfl, rfl, by simp⟩
  | cons name names ih =>
      obtain ⟨⟨c, hc, hP⟩, hrest⟩ := List.forall_mem_cons.mp h
      obtain ⟨objects, hobjects, hnames, hall⟩ := ih hrest
      refine ⟨⟨name, c⟩ :: objects, ?_, by rw [List.map_cons, hnames], ?_⟩
      · rw [List.mapM_cons, hc, hobjects]
        rfl
      · exact List.forall_mem_cons.mpr ⟨hP, hall⟩

/-- **The look-ups of the selected names do not fail**, and they find what the names lead to. -/
theorem objects_getChrootOptions
    (h : getChrootOptions conf o = .ok (names, chroots)) :
    ∃ objects, chrootObjects chroots names = .ok objects ∧
      objects.map ChrootEntry.aliasName = names ∧ ∀ e ∈ objects, Found conf o e := by
  simp only [getChrootOptions, bind_eq_ok_iff] at h
  obtain ⟨names', -, chroots', hvalid, h⟩ := h
  cases h
  exact exists_chrootObjects (found_of_validateChroots hvalid)

/-- What is done with the chroots looks nothing up. -/
theorem act_ne_lookup
    {info : AuthInfo} {objects : List ChrootEntry} {name : String} :
    act conf o info names chroots objects ≠ .error (.lookup name) := by
  intro h
  unfold act at h
  split at h
  · cases h
  cases hfind : (conf.findAlias "session" o.sessionName).mapError MainError.config with
  | error e =>
      rw [hfind] at h
      cases h
      cases hfound : conf.findAlias "session" o.sessionName with
      | error e =>
          rw [hfound] at hfind
          cases hfind
      | ok found =>
          rw [hfound] at hfind
          cases hfind
  | ok found =>
      rw [hfind] at h
      simp only [bind, Except.bind] at h
      split at h
      · cases h
      split at h
      · cases h
      split at h
      · cases h
      split at h
      · cases h
      · cases h

/-- **The end of the map is never looked at**: whatever is asked for, the names that are looked up
in the map of the chroots have been put into it. -/
theorem runImpl_ne_lookup
    (cfg : SbuildConfig) (places : ChrootConfig.ConfigPlaces) (o : OptionsBase) (info : AuthInfo)
    (name : String) :
    (runImpl cfg places o info).2 ≠ .error (.lookup name) := by
  intro h
  unfold runImpl at h
  split at h
  · cases h
  split at h
  · cases h
  split at h
  · cases h
  rename_i conf hload
  simp only [runLoaded] at h
  split at h
  · cases h
  rename_i names chroots hselect
  split at h
  · unfold runEmpty at h
    split at h
    · cases h
    · split at h <;> cases h
  · obtain ⟨objects, hobjects, -⟩ := objects_getChrootOptions hselect
    rw [hobjects] at h
    exact act_ne_lookup h

/-- The namespaces that are used as a whole. -/
def Uses (o : OptionsBase) (ns : String) : Prop :=
  ns = "chroot" ∧ o.allChroots = true ∨ ns = "session" ∧ o.allSessions = true ∨
    ns = "source" ∧ o.allSourceChroots = true

/-- A chroot that is found leads to itself under its full name. -/
theorem findAlias_qualified
    {ns n : String} {c : Chroot}
    (hint : String)
    (h : conf.Resolves)
    (hfind : conf.findChroot ns n = some c) :
    conf.findAlias hint (ChrootConfig.qualified ns n) = .ok (some c) := by
  obtain ⟨found, hns, -⟩ := Option.bind_eq_some_iff.mp hfind
  obtain ⟨hne, hsep⟩ := h.namespaces ns found hns
  have hsplit := ChrootConfig.getNamespace_qualified hsep n
  have hhinted := ChrootConfig.hintedName_of_getNamespace hint (congrArg Prod.fst hsplit) hne
  rw [ChrootConfig.findAlias, hhinted, hsplit]
  simp only [h.names ns n c hfind]
  exact ChrootConfig.findChrootHinted_qualified hint h hfind

/-- The three namespaces are there. -/
def HasNamespaces (conf : ChrootConfig) : Prop :=
  ∀ ns ∈ ["chroot", "session", "source"], conf.namespaces[ns]?.isSome = true

/-- The names of a namespace that is there, each of them once. -/
theorem exists_listIf
    (h : conf.Resolves)
    {ns : String}
    (all : Bool)
    (hns : conf.namespaces[ns]?.isSome = true) :
    ∃ names, listIf conf o ns all = .ok names ∧
      (∀ name ∈ names, ∃ c, conf.LeadsTo name c) ∧
      names.Nodup ∧ (∀ name ∈ names, (ChrootConfig.getNamespace name).1 = ns) ∧
      (¬ (o.action.get = actionList ∧ o.excludeAliases = false) →
        ∀ name, name ∈ names ↔ all = true ∧
          ∃ n c, conf.findChroot ns n = some c ∧ name = ChrootConfig.qualified ns n) := by
  obtain ⟨chroots, hchroots⟩ := Option.isSome_iff_exists.mp hns
  have hfind : conf.findNamespace ns = .ok chroots := by
    simp [ChrootConfig.findNamespace, hchroots]
  have hsep := (h.namespaces ns chroots hchroots).2
  unfold listIf listNames
  cases all with
  | false => exact ⟨[], rfl, by simp, List.nodup_nil, by simp, by simp⟩
  | true =>
      simp only [if_true]
      split
      · rename_i haliases
        obtain ⟨names, hnames⟩ : ∃ names, conf.getAliasList ns = .ok names := by
          simp [ChrootConfig.getAliasList, hfind, bind, Except.bind, pure, Except.pure]
        refine ⟨names, hnames, ChrootConfig.listed_resolve h (.inl hnames), ?_, ?_,
          fun hno => absurd haliases hno⟩
        all_goals
          simp only [ChrootConfig.getAliasList, hfind, bind_eq_ok_iff] at hnames
          obtain ⟨_, _, hnames⟩ := hnames
          cases hnames
        · exact (List.mergeSort_perm _ _).nodup_iff.mpr (Std.ExtTreeMap.nodup_keys.filter _)
        · intro name hname
          rw [List.mem_mergeSort, List.mem_filter, Bool.and_eq_true] at hname
          exact of_decide_eq_true hname.2.2
      · obtain ⟨names, hnames⟩ : ∃ names, conf.getChrootList ns = .ok names := by
          simp [ChrootConfig.getChrootList, hfind, bind, Except.bind, pure, Except.pure]
        have hlead := ChrootConfig.listed_resolve h (.inr hnames)
        simp only [ChrootConfig.getChrootList, hfind, bind_eq_ok_iff] at hnames
        obtain ⟨_, heq, hnames⟩ := hnames
        cases heq
        cases hnames
        refine ⟨_, ?_, hlead, ?_, fun name hname => ?_, fun _ name => ?_⟩
        · simp [ChrootConfig.getChrootList, hfind, bind, Except.bind, pure, Except.pure]
        · exact (List.mergeSort_perm _ _).nodup_iff.mpr
            (Std.ExtTreeMap.nodup_keys.map fun _ _ => ChrootConfig.qualified_injective)
        · rw [List.mem_mergeSort, List.mem_map] at hname
          obtain ⟨n, -, rfl⟩ := hname
          exact congrArg Prod.fst (ChrootConfig.getNamespace_qualified hsep n)
        rw [List.mem_mergeSort, List.mem_map]
        simp only [true_and, ChrootConfig.findChroot, hchroots, Option.bind_some]
        constructor
        · rintro ⟨n, hn, rfl⟩
          exact ⟨n, _, Std.ExtTreeMap.getElem?_eq_some_getElem (Std.ExtTreeMap.mem_keys.mp hn), rfl⟩
        · rintro ⟨n, c, hc, rfl⟩
          refine ⟨n, Std.ExtTreeMap.mem_keys.mpr ?_, rfl⟩
          rw [Std.ExtTreeMap.mem_iff_isSome_getElem?, hc]
          rfl

/-- **Whole namespaces can always be selected**, no name is selected twice, and the chroots that are
selected are those of the namespaces, unless aliases are listed, too. -/
theorem exists_getChrootOptions
    (h : conf.Resolves)
    (hns : HasNamespaces conf)
    (hall : usesAll o = true) :
    ∃ names chroots objects, getChrootOptions conf o = .ok (names, chroots) ∧
      chrootObjects chroots names = .ok objects ∧
      (objects.map ChrootEntry.aliasName).Nodup ∧
      (¬ (o.action.get = actionList ∧ o.excludeAliases = false) →
        ∀ e, e ∈ objects ↔ ∃ ns n, Uses o ns ∧ conf.findChroot ns n = some e.chroot ∧
          e.aliasName = ChrootConfig.qualified ns n) := by
  obtain ⟨chroots, hchroots, hlead, honce, hspace, hexact⟩ :=
    exists_listIf (o := o) h o.allChroots (hns "chroot" (by simp))
  obtain ⟨sessions, hsessions, hlead', honce', hspace', hexact'⟩ :=
    exists_listIf (o := o) h o.allSessions (hns "session" (by simp))
  obtain ⟨sources, hsources, hlead'', honce'', hspace'', hexact''⟩ :=
    exists_listIf (o := o) h o.allSourceChroots (hns "source" (by simp))
  have hnames : chrootNames conf o = .ok (chroots ++ sessions ++ sources) := by
    simp [chrootNames, hall, hchroots, hsessions, hsources, bind, Except.bind, pure, Except.pure]
  have hleads : ∀ name ∈ chroots ++ sessions ++ sources, ∃ c, conf.LeadsTo name c := by
    intro name hname
    rcases List.mem_append.mp hname with hname | hname
    · exact (List.mem_append.mp hname).elim (hlead name) (hlead' name)
    · exact hlead'' name hname
  have hhint : namespaceHint o = "" := by simp [namespaceHint, hall]
  obtain ⟨validated, hloop, -, -⟩ := ChrootConfig.validateChroot_loop hleads ([], ∅)
  have hvalid : conf.validateChroots "" (chroots ++ sessions ++ sources) = .ok validated := by
    rw [ChrootConfig.validateChroots, hloop]
    rfl
  obtain ⟨objects, hobjects, halias, hfound⟩ :=
    exists_chrootObjects (found_of_validateChroots hvalid)
  refine ⟨_, validated, objects, ?_, hobjects, ?_, fun hno e => ?_⟩
  · simp only [getChrootOptions, hnames, hhint, bind_eq_ok_iff]
    exact ⟨_, rfl, validated, hvalid, rfl⟩
  · -- names of different namespaces differ
    rw [halias, List.nodup_append, List.nodup_append]
    refine ⟨⟨honce, honce', fun a ha b hb heq => ?_⟩, honce'', fun a ha b hb heq => ?_⟩
    · have hsame := (hspace a ha).symm.trans (heq ▸ hspace' b hb)
      exact absurd hsame (by decide)
    · have hsource := hspace'' b hb
      rcases List.mem_append.mp ha with ha | ha
      · exact absurd ((hspace a ha).symm.trans (heq ▸ hsource)) (by decide)
      · exact absurd ((hspace' a ha).symm.trans (heq ▸ hsource)) (by decide)
  · have hmem : ∀ name, name ∈ chroots ++ sessions ++ sources ↔
        ∃ ns n c, Uses o ns ∧ conf.findChroot ns n = some c ∧
          name = ChrootConfig.qualified ns n := by
      intro name
      rw [List.mem_append, List.mem_append, hexact hno, hexact' hno, hexact'' hno]
      constructor
      · rintro ((⟨hused, n, c, hc⟩ | ⟨hused, n, c, hc⟩) | ⟨hused, n, c, hc⟩)
        · exact ⟨"chroot", n, c, .inl ⟨rfl, hused⟩, hc⟩
        · exact ⟨"session", n, c, .inr (.inl ⟨rfl, hused⟩), hc⟩
        · exact ⟨"source", n, c, .inr (.inr ⟨rfl, hused⟩), hc⟩
      · rintro ⟨ns, n, c, ⟨rfl, hused⟩ | ⟨rfl, hused⟩ | ⟨rfl, hused⟩, hc⟩
        · exact .inl (.inl ⟨hused, n, c, hc⟩)
        · exact .inl (.inr ⟨hused, n, c, hc⟩)
        · exact .inr ⟨hused, n, c, hc⟩
    constructor
    · intro he
      have hname : e.aliasName ∈ chroots ++ sessions ++ sources := by
        rw [← halias]
        exact List.mem_map_of_mem he
      obtain ⟨ns, n, c, hused, hc, heq⟩ := (hmem _).mp hname
      have hsame := hfound e he
      rw [heq, findAlias_qualified "" h hc] at hsame
      cases hsame
      exact ⟨ns, n, hused, hc, heq⟩
    · rintro ⟨ns, n, hused, hc, heq⟩
      have hname := (hmem e.aliasName).mpr ⟨ns, n, _, hused, hc, heq⟩
      rw [← halias, List.mem_map] at hname
      obtain ⟨e', he', hsame⟩ := hname
      have hchroot := hfound e' he'
      rw [hsame, heq, findAlias_qualified "" h hc] at hchroot
      cases e
      cases e'
      cases hchroot
      cases hsame
      exact he'

end Selection

end MainBase

end Schroot
