import Schroot.UserdataInvariant
import Mathlib.Tactic.IntervalCases

/-!
# User data and the variables of the setup scripts

The setup scripts find the user data of a chroot among the variables that the chroot and
the session set.  Nearly all of those are out of the reach of user data.

**Results.**
* `envname_ne_of_isOutOfReach`: no valid key has a variable that is out of reach.
* `scriptEnvironment_eq_ok`: setting up the environment never fails.
* `keepsVariables_iff`: user data and the system's variables keep their values as long as
  the one key that was forgotten is not used.
-/

namespace Schroot

section Names

/-- The character of a variable name for one of a key. -/
def envChar (c : Char) : Char :=
  if c.toUpper = '-' ∨ c.toUpper = '.' then '_' else c.toUpper

theorem toList_envname (key : String) :
    (envname key).toList = key.toList.map envChar := by
  simp only [envname, String.toList_ofList]
  rfl

/-- Lower-case letters and digits are read off their character in the variable name, which
is no underscore. -/
theorem envChar_of_isAlnum
    {c : Char}
    (h : isLowerAscii c = true ∨ isDigitAscii c = true) :
    envChar c ≠ '_' ∧ (envChar c).toLower = c := by
  have hrange : 97 ≤ c.toNat ∧ c.toNat ≤ 122 ∨ 48 ≤ c.toNat ∧ c.toNat ≤ 57 := by
    simpa [isLowerAscii, isDigitAscii, Char.le_def, UInt32.le_iff_toNat_le] using h
  rw [← Char.ofNat_toNat c]
  rcases hrange with ⟨hlo, hhi⟩ | ⟨hlo, hhi⟩
  · generalize c.toNat = n at hlo hhi
    interval_cases n <;> decide
  · generalize c.toNat = n at hlo hhi
    interval_cases n <;> decide

theorem envChar_dot : envChar '.' = '_' := by decide

/-- A text that splits at a dot. -/
theorem eq_append_of_splitAtDots
    {cs part part' : List Char} {parts : List (List Char)}
    (h : splitAtDots cs = part :: part' :: parts) :
    ∃ rest, cs = part ++ '.' :: rest := by
  induction cs generalizing part with
  | nil => cases h
  | cons c cs ih =>
      simp only [splitAtDots] at h
      cases hs : splitAtDots cs with
      | nil => simp [hs] at h
      | cons q qs =>
          rw [hs] at h
          by_cases hc : c = '.'
          · simp only [hc, if_true, List.cons.injEq] at h
            exact ⟨cs, by rw [← h.1, hc]; rfl⟩
          · simp only [hc, if_false, List.cons.injEq] at h
            obtain ⟨rfl, rfl⟩ := h
            obtain ⟨rest, rfl⟩ := ih hs
            exact ⟨rest, rfl⟩

theorem isAlnum_of_isKeyNamespace
    {part : List Char} {c : Char}
    (h : isKeyNamespace part = true)
    (hc : c ∈ part) :
    isLowerAscii c = true ∨ isDigitAscii c = true := by
  cases part with
  | nil => cases hc
  | cons d ds =>
      simp only [isKeyNamespace, Bool.and_eq_true, List.all_eq_true, Bool.or_eq_true] at h
      rcases List.mem_cons.mp hc with rfl | hc
      · exact .inl h.1
      · exact h.2 c hc

/-- The first namespace of a valid key. -/
theorem first_of_validateKeyname
    {key : String}
    (h : validateKeyname key = true) :
    ∃ first rest, key.toList = first ++ '.' :: rest ∧ isKeyNamespace first = true := by
  obtain ⟨namespaces, base, hparts, hne, hnamespaces, -⟩ :=
    isPermittedKeyname_cases (Bool.and_eq_true_iff.mp h).1
  obtain ⟨first, namespaces, rfl⟩ := List.exists_cons_of_ne_nil hne
  have hfirst : isKeyNamespace first = true := hnamespaces first (by simp)
  have hsplit : ∃ part' parts, splitAtDots key.toList = first :: part' :: parts := by
    cases namespaces with
    | nil => exact ⟨base, [], hparts⟩
    | cons q qs => exact ⟨q, qs ++ [base], hparts⟩
  obtain ⟨part', parts, hsplit⟩ := hsplit
  obtain ⟨rest, hrest⟩ := eq_append_of_splitAtDots hsplit
  exact ⟨first, rest, hrest, hfirst⟩

/-- The namespaces that are reserved. -/
def reservedNamespaces : List String :=
  ["auth.", "chroot.", "host.", "libexec.", "mount.", "session.", "status.", "sysconf."]

/-- The part of a variable name before its first underscore, as the start of a key. -/
def leadingKey (name : String) : String :=
  String.ofList ((name.toList.takeWhile (· ≠ '_')).map Char.toLower ++ ['.'])

/-- What is known of the system's variables except for one: a name has no underscore,
starts as a reserved namespace does, or is that of the reserved key. -/
def isOutOfReach (name : String) : Bool :=
  decide ('_' ∉ name.toList) || decide (leadingKey name ∈ reservedNamespaces) ||
    decide (name = "SETUP_DATA_DIR")

section Keys

variable {key : String}

/-- The variable of a valid key has the first namespace before its first underscore. -/
theorem leadingKey_envname
    (h : validateKeyname key = true) :
    '_' ∈ (envname key).toList ∧ (leadingKey (envname key)).toList.isPrefixOf key.toList = true := by
  obtain ⟨first, rest, hkey, hfirst⟩ := first_of_validateKeyname h
  have hname : (envname key).toList = first.map envChar ++ '_' :: rest.map envChar := by
    rw [toList_envname, hkey, List.map_append, List.map_cons, envChar_dot]
  have hfree : ∀ c ∈ first.map envChar, decide (c ≠ '_') = true := by
    intro c hc
    obtain ⟨d, hd, rfl⟩ := List.mem_map.mp hc
    exact decide_eq_true (envChar_of_isAlnum (isAlnum_of_isKeyNamespace hfirst hd)).1
  refine ⟨by simp [hname], ?_⟩
  have htake : (envname key).toList.takeWhile (· ≠ '_') = first.map envChar := by
    rw [hname, List.takeWhile_append_of_pos hfree]
    simp
  have hback : (first.map envChar).map Char.toLower = first := by
    rw [List.map_map]
    refine (List.map_congr_left fun c hc => ?_).trans (List.map_id first)
    exact (envChar_of_isAlnum (isAlnum_of_isKeyNamespace hfirst hc)).2
  rw [leadingKey, htake, hback, String.toList_ofList, hkey, List.isPrefixOf_iff_prefix]
  exact ⟨rest, by simp⟩

theorem envname_ne_empty
    (h : validateKeyname key = true) :
    envname key ≠ "" := by
  intro hempty
  have hunderscore := (leadingKey_envname h).1
  rw [hempty] at hunderscore
  cases hunderscore

/-- What a character of a valid key says about that of its variable. -/
def ReadsAs (c d : Char) : Prop :=
  d ≠ '_' ∧ c = d.toLower ∨ d = '_' ∧ (c = '.' ∨ c = '-')

theorem readsAs_envChar
    {c : Char}
    (hc : isKeyChar c = true) :
    ReadsAs c (envChar c) := by
  simp only [isKeyChar, Bool.or_eq_true, decide_eq_true_eq] at hc
  rcases hc with ((hc | hc) | rfl) | rfl
  · exact .inl ⟨(envChar_of_isAlnum (.inl hc)).1, (envChar_of_isAlnum (.inl hc)).2.symm⟩
  · exact .inl ⟨(envChar_of_isAlnum (.inr hc)).1, (envChar_of_isAlnum (.inr hc)).2.symm⟩
  · exact .inr ⟨by decide, .inr rfl⟩
  · exact .inr ⟨by decide, .inl rfl⟩

theorem forall₂_readsAs
    {name : String}
    (h : validateKeyname key = true)
    (hname : envname key = name) :
    List.Forall₂ ReadsAs key.toList name.toList := by
  rw [← hname, toList_envname, List.forall₂_map_right_iff]
  exact List.forall₂_same.mpr fun c hc => readsAs_envChar (isKeyChar_of_validateKeyname h hc)

/-- **A valid key has none of the names that are out of reach.** -/
theorem envname_ne_of_isOutOfReach
    {name : String}
    (h : validateKeyname key = true)
    (hname : isOutOfReach name = true) :
    envname key ≠ name := by
  rintro rfl
  obtain ⟨hunderscore, hprefix⟩ := leadingKey_envname h
  have hreserved : isReservedKeyname key = false := by
    simpa using (Bool.and_eq_true_iff.mp h).2
  simp only [isReservedKeyname, Bool.or_eq_false_iff, List.any_eq_false] at hreserved
  simp only [isOutOfReach, Bool.or_eq_true, decide_eq_true_eq] at hname
  rcases hname with (hname | hname) | hname
  · exact hname hunderscore
  · exact hreserved.1 _ hname hprefix
  · have hread := forall₂_readsAs h hname
    have hlist : "SETUP_DATA_DIR".toList =
        ['S', 'E', 'T', 'U', 'P', '_', 'D', 'A', 'T', 'A', '_', 'D', 'I', 'R'] := by decide
    rw [hlist] at hread
    simp [List.forall₂_cons_right_iff, ReadsAs] at hread
    obtain ⟨_, (rfl | rfl) | rfl | rfl, hkey⟩ := hread
    all_goals simp [hkey, isSetupDataDir] at hreserved

/-- Only one valid key has the remaining name. -/
theorem envname_eq_dataDir_iff
    (h : validateKeyname key = true) :
    envname key = "DATA_DIR" ↔ key = "data.dir" := by
  constructor
  · intro hname
    have hread := forall₂_readsAs h hname
    have hlist : "DATA_DIR".toList = ['D', 'A', 'T', 'A', '_', 'D', 'I', 'R'] := by decide
    rw [hlist] at hread
    simp [List.forall₂_cons_right_iff, ReadsAs] at hread
    rcases hread with hkey | hkey
    · exact String.toList_injective hkey
    · have hdot := dot_mem_of_validateKeyname h
      simp [hkey] at hdot
  · rintro rfl
    decide

end Keys

end Names

namespace Chroot

section OutOfReach

/-- All the variables have a name that is out of reach. -/
def OutOfReach (vars : List (String × String)) : Prop :=
  ∀ v ∈ vars, v.1 ≠ "" ∧ isOutOfReach v.1 = true

theorem outOfReach_append
    {vars vars' : List (String × String)} :
    OutOfReach (vars ++ vars') ↔ OutOfReach vars ∧ OutOfReach vars' :=
  List.forall_mem_append

theorem outOfReach_cons
    {v : String × String} {vars : List (String × String)} :
    OutOfReach (v :: vars) ↔ (v.1 ≠ "" ∧ isOutOfReach v.1 = true) ∧ OutOfReach vars :=
  List.forall_mem_cons

theorem outOfReach_nil : OutOfReach [] := by
  intro v hv
  cases hv

theorem outOfReach_baseVariables (cfg : SbuildConfig) (c : Chroot) :
    OutOfReach (c.baseVariables cfg) := by
  unfold baseVariables
  split_ifs <;>
    simp +decide only [outOfReach_append, outOfReach_cons, outOfReach_nil, and_self]

theorem outOfReach_typeVariables (cfg : SbuildConfig) (c : Chroot) :
    OutOfReach (c.typeVariables cfg) := by
  unfold typeVariables
  cases c.kind with
  | zfsSnapshot s =>
      dsimp only
      split <;> simp +decide only [outOfReach_append, outOfReach_cons, outOfReach_nil, and_self]
  | _ => simp +decide only [outOfReach_cons, outOfReach_nil, and_self]

theorem outOfReach_facetVariables (f : Facet) :
    OutOfReach (facetVariables f) := by
  unfold facetVariables
  cases f with
  | session s =>
      dsimp only
      split_ifs <;>
        simp +decide only [outOfReach_append, outOfReach_cons, outOfReach_nil, and_self]
  | union u =>
      dsimp only
      split <;> simp +decide only [outOfReach_cons, outOfReach_nil, and_self]
  | mountable m =>
      dsimp only
      split <;> simp +decide only [outOfReach_append, outOfReach_cons, outOfReach_nil, and_self]
  | _ => exact outOfReach_nil

end OutOfReach

section Environments

variable {c : Chroot} {env : Environment} {name : String}

theorem insertAll_append (vars vars' : List (String × String)) :
    SortedMap.insertAll env (vars ++ vars') =
      SortedMap.insertAll (SortedMap.insertAll env vars) vars' :=
  List.foldl_append

theorem notMem_insertAll
    {vars : List (String × String)}
    (henv : name ∉ env)
    (hvars : ∀ v ∈ vars, v.1 ≠ name) :
    name ∉ SortedMap.insertAll env vars := by
  induction vars generalizing env with
  | nil => exact henv
  | cons v vars ih =>
      refine ih ?_ fun w hw => hvars w (List.mem_cons_of_mem v hw)
      simpa [henv] using hvars v List.mem_cons_self

/-- The variables of user data. -/
def userVariables (u : Userdata) : List (String × String) :=
  u.userdata.toList.map fun e => (envname e.1, e.2)

/-- What a facet adds, user data included. -/
def allFacetVariables : Facet → List (String × String)
  | .userdata u => userVariables u
  | f => facetVariables f

/-- Facets other than the user data only add variables. -/
theorem facet_cases (f : Facet) :
    (∃ u, f = .userdata u) ∨
      (allFacetVariables f = facetVariables f ∧
        ∀ env, setupFacetEnv env f = .ok (Environment.addAll env (facetVariables f))) := by
  cases f with
  | userdata u => exact .inl ⟨u, rfl⟩
  | _ => exact .inr ⟨rfl, fun _ => rfl⟩

theorem setUserVariables_eq_ok
    {entries : List (String × String)}
    (hnames : ∀ e ∈ entries, envname e.1 ≠ "")
    (hdistinct : (entries.map fun e => envname e.1).Nodup)
    (hfree : ∀ e ∈ entries, envname e.1 ∉ env) :
    setUserVariables entries env =
      .ok (SortedMap.insertAll env (entries.map fun e => (envname e.1, e.2))) := by
  induction entries generalizing env with
  | nil => rfl
  | cons e entries ih =>
      obtain ⟨hnew, hdistinct⟩ := List.nodup_cons.mp hdistinct
      rw [setUserVariables, if_neg (hfree e List.mem_cons_self), Environment.add,
        if_neg (hnames e List.mem_cons_self)]
      refine ih (fun e' he' => hnames e' (List.mem_cons_of_mem e he')) hdistinct
        fun e' he' => ?_
      have hne : envname e.1 ≠ envname e'.1 := fun heq =>
        hnew (List.mem_map.mpr ⟨e', he', heq.symm⟩)
      simpa [hne] using hfree e' (List.mem_cons_of_mem e he')

theorem mem_userVariables_iff
    {u : Userdata} {v : String × String} :
    v ∈ userVariables u ↔ ∃ key, u.userdata[key]? = some v.2 ∧ envname key = v.1 := by
  obtain ⟨name, value⟩ := v
  simp only [userVariables, List.mem_map, Prod.exists, Prod.mk.injEq,
    Std.ExtTreeMap.mem_toList_iff_getElem?_eq_some]
  constructor
  · rintro ⟨key, value, h, rfl, rfl⟩
    exact ⟨key, h, rfl⟩
  · rintro ⟨key, h, rfl⟩
    exact ⟨key, value, h, rfl, rfl⟩

theorem setUserVariables_userdata
    {u : Userdata}
    (hu : u.Named)
    (hfree : ∀ key ∈ u.userdata, envname key ∉ env) :
    setUserVariables u.userdata.toList env =
      .ok (SortedMap.insertAll env (userVariables u)) := by
  have hmem : ∀ e ∈ u.userdata.toList, e.1 ∈ u.userdata := by
    rintro ⟨key, value⟩ he
    rw [Std.ExtTreeMap.mem_toList_iff_getElem?_eq_some] at he
    simp [Std.ExtTreeMap.mem_iff_isSome_getElem?, he]
  refine setUserVariables_eq_ok (fun e he => envname_ne_empty (hu.valid _ (hmem e he))) ?_
    fun e he => hfree e.1 (hmem e he)
  have hkeys := SortedMap.nodup_keys_toList u.userdata
  have hnames : (u.userdata.toList.map fun e => envname e.1) =
      (u.userdata.toList.map Prod.fst).map envname := by
    rw [List.map_map]
    rfl
  rw [hnames]
  refine hkeys.map_on fun key hkey key' hkey' heq => ?_
  obtain ⟨e, he, rfl⟩ := List.mem_map.mp hkey
  obtain ⟨e', he', rfl⟩ := List.mem_map.mp hkey'
  exact hu.injective _ (hmem e he) _ (hmem e' he') heq

/-- **The facets set all their variables.** -/
theorem setupFacets_eq_ok
    {facets : List Facet}
    (hnodup : (facets.map Facet.kind).Nodup)
    (hnamed : ∀ u, Facet.userdata u ∈ facets → u.Named)
    (hfree : ∀ u, Facet.userdata u ∈ facets → ∀ key ∈ u.userdata, envname key ∉ env) :
    facets.foldlM setupFacetEnv env =
      .ok (SortedMap.insertAll env (facets.flatMap allFacetVariables)) := by
  induction facets generalizing env with
  | nil => rfl
  | cons f facets ih =>
      rw [List.map_cons, List.nodup_cons] at hnodup
      rw [List.foldlM_cons, List.flatMap_cons, insertAll_append]
      have hrest : ∀ u, Facet.userdata u ∈ facets → u.Named := fun u hu =>
        hnamed u (List.mem_cons_of_mem f hu)
      rcases facet_cases f with ⟨u, rfl⟩ | ⟨hvars, hstep⟩
      · have hstep : setupFacetEnv env (.userdata u) =
            .ok (SortedMap.insertAll env (userVariables u)) :=
          setUserVariables_userdata (hnamed u List.mem_cons_self) (hfree u List.mem_cons_self)
        rw [hstep]
        refine ih hnodup.2 hrest fun u' hu' => ?_
        exact absurd (List.mem_map.mpr ⟨_, hu', rfl⟩) hnodup.1
      · rw [hstep, hvars, Environment.addAll_eq_insertAll fun v hv => (outOfReach_facetVariables f v hv).1]
        refine ih hnodup.2 hrest fun u hu key hkey => ?_
        refine notMem_insertAll (hfree u (List.mem_cons_of_mem f hu) key hkey) fun v hv => ?_
        exact (envname_ne_of_isOutOfReach ((hrest u hu).valid key hkey)
          (outOfReach_facetVariables f v hv).2).symm

end Environments

end Chroot

namespace Session

section Script

variable {w : World} {c : Chroot}

/-- What the session sets after the chroot. -/
def sessionVariables (w : World) (c : Chroot) : List (String × String) :=
  let info := w.session.info
  [ ("AUTH_USER", info.user)
  , ("AUTH_RUSER", info.ruser)
  , ("AUTH_RGROUP", info.rgroup)
  , ("AUTH_UID", toString info.uid)
  , ("AUTH_GID", toString info.gid)
  , ("AUTH_RUID", toString info.ruid)
  , ("AUTH_RGID", toString info.rgid)
  , ("AUTH_HOME", info.home)
  , ("AUTH_SHELL", info.shell)
  , ("VERBOSE", c.verbosity.print)
  , ("MOUNT_DIR", w.cfg.mountDir)
  , ("LIBEXEC_DIR", w.cfg.libexecDir)
  , ("SYSCONF_DIR", w.cfg.sysconfDir)
  , ("DATA_DIR", w.cfg.dataDir)
  , ("SETUP_DATA_DIR", w.cfg.setupDataDir)
  , ("PID", toString w.outcomes.pid) ] ++
  w.cfg.hostVariables ++
  [("PATH", "/usr/local/sbin:/usr/local/bin:/usr/sbin:/usr/bin:/sbin:/bin")]

theorem scriptEnvironment_eq (w : World) (c : Chroot) :
    scriptEnvironment w c =
      (c.setupEnv w.cfg ∅).map fun env => Environment.addAll env (sessionVariables w c) := by
  unfold scriptEnvironment
  cases c.setupEnv w.cfg ∅ <;> rfl

/-- The variables that the chroot and the session set, without user data. -/
def systemVariables (w : World) (c : Chroot) : List (String × String) :=
  c.baseVariables w.cfg ++ c.typeVariables w.cfg ++
    c.facets.flatMap Chroot.facetVariables ++ sessionVariables w c

/-- All the variables, in the order in which they are set. -/
def allVariables (w : World) (c : Chroot) : List (String × String) :=
  c.baseVariables w.cfg ++ c.typeVariables w.cfg ++
    c.facets.flatMap Chroot.allFacetVariables ++ sessionVariables w c

/-- One variable of the session is not out of reach. -/
theorem sessionVariables_cases
    {v : String × String}
    (hv : v ∈ sessionVariables w c) :
    v.1 ≠ "" ∧ (isOutOfReach v.1 = true ∨ v.1 = "DATA_DIR") := by
  have hhost : ∀ name ∈ hostVariableNames,
      name ≠ "" ∧ (isOutOfReach name = true ∨ name = "DATA_DIR") := by decide
  revert v
  simp +decide only [sessionVariables, List.forall_mem_append, List.forall_mem_cons, and_true,
    true_and]
  exact fun v hv => hhost v.1 (w.cfg.mem_hostVariables v hv)

theorem systemVariables_cases
    {v : String × String}
    (hv : v ∈ systemVariables w c) :
    v.1 ≠ "" ∧ (isOutOfReach v.1 = true ∨ v.1 = "DATA_DIR") := by
  simp only [systemVariables, List.mem_append, List.mem_flatMap] at hv
  rcases hv with ((hv | hv) | ⟨f, _, hv⟩) | hv
  · exact (Chroot.outOfReach_baseVariables _ _ v hv).imp_right .inl
  · exact (Chroot.outOfReach_typeVariables _ _ v hv).imp_right .inl
  · exact (Chroot.outOfReach_facetVariables _ v hv).imp_right .inl
  · exact sessionVariables_cases hv

/-- **Setting up the environment of the scripts never fails.** -/
theorem scriptEnvironment_eq_ok
    (hc : Chroot.DataInvariant c) :
    scriptEnvironment w c = .ok (SortedMap.insertAll ∅ (allVariables w c)) := by
  have hbase : ∀ v ∈ c.baseVariables w.cfg ++ c.typeVariables w.cfg,
      v.1 ≠ "" ∧ isOutOfReach v.1 = true := fun v hv =>
    (List.mem_append.mp hv).elim (Chroot.outOfReach_baseVariables _ _ v)
      (Chroot.outOfReach_typeVariables _ _ v)
  rw [scriptEnvironment_eq, Chroot.setupEnv,
    Environment.addAll_eq_insertAll fun v hv => (hbase v hv).1,
    Chroot.setupFacets_eq_ok hc.nodup hc.named fun u hu key hkey => ?_, Except.map,
    Environment.addAll_eq_insertAll fun v hv => (sessionVariables_cases hv).1]
  · simp only [allVariables, Chroot.insertAll_append]
  · refine Chroot.notMem_insertAll (by simp) fun v hv => ?_
    exact (envname_ne_of_isOutOfReach ((hc.named u hu).valid key hkey) (hbase v hv).2).symm

/-- The value that a variable has in the end. -/
theorem getElem?_insertAll_empty (vars : List (String × String)) (name : String) :
    (SortedMap.insertAll (∅ : Environment) vars)[name]? =
      SortedMap.lookup name vars.reverse := by
  rw [SortedMap.getElem?_insertAll]
  simp

/-- Where user data has no variable of the name, it makes no difference. -/
theorem lookup_allVariables
    {name : String}
    (h : ∀ u, Facet.userdata u ∈ c.facets → ∀ key ∈ u.userdata, envname key ≠ name) :
    SortedMap.lookup name (allVariables w c).reverse =
      SortedMap.lookup name (systemVariables w c).reverse := by
  refine SortedMap.lookup_congr ?_
  rw [List.filter_reverse, List.filter_reverse]
  congr 1
  simp only [allVariables, systemVariables, List.filter_append, List.filter_flatMap]
  congr 2
  refine List.flatMap_congr fun f hf => ?_
  rcases Chroot.facet_cases f with ⟨u, rfl⟩ | ⟨hvars, -⟩
  · refine (List.filter_eq_nil_iff.mpr fun v hv => ?_).trans List.filter_nil.symm
    obtain ⟨key, hvalue, hname⟩ := Chroot.mem_userVariables_iff.mp hv
    have hkey : key ∈ u.userdata := by simp [Std.ExtTreeMap.mem_iff_isSome_getElem?, hvalue]
    simpa [← hname] using h u hf key hkey
  · rw [hvars]

theorem userdata_unique
    (hc : Chroot.DataInvariant c)
    {u u' : Userdata}
    (hu : Facet.userdata u ∈ c.facets)
    (hu' : Facet.userdata u' ∈ c.facets) :
    u = u' :=
  Facet.userdata.inj (List.inj_on_of_nodup_map hc.nodup hu hu' rfl)

/-- User data has its value where the system has no variable of the name. -/
theorem lookup_allVariables_userdata
    {u : Userdata} {key value : String}
    (hc : Chroot.DataInvariant c)
    (hu : Facet.userdata u ∈ c.facets)
    (hvalue : u.userdata[key]? = some value)
    (hsystem : ∀ v ∈ systemVariables w c, envname key ≠ v.1) :
    SortedMap.lookup (envname key) (allVariables w c).reverse = some value := by
  have hmem : (envname key, value) ∈ allVariables w c := by
    have hfacet : (envname key, value) ∈ c.facets.flatMap Chroot.allFacetVariables :=
      List.mem_flatMap.mpr ⟨_, hu, Chroot.mem_userVariables_iff.mpr ⟨key, hvalue, rfl⟩⟩
    simp [allVariables, hfacet]
  cases hlookup : SortedMap.lookup (envname key) (allVariables w c).reverse with
  | none =>
      rw [SortedMap.lookup_eq_none_iff, List.map_reverse, List.mem_reverse] at hlookup
      exact absurd (List.mem_map.mpr ⟨_, hmem, rfl⟩) hlookup
  | some x =>
      have hx := SortedMap.mem_of_lookup hlookup
      simp only [List.mem_reverse, allVariables, List.mem_append, List.mem_flatMap] at hx
      have hnot : ∀ {vars : List (String × String)},
          (∀ v ∈ vars, v ∈ systemVariables w c) → (envname key, x) ∉ vars :=
        fun hsub hin => hsystem _ (hsub _ hin) rfl
      rcases hx with ((hx | hx) | ⟨f, hf, hx⟩) | hx
      · exact absurd hx (hnot fun v hv => by simp [systemVariables, hv])
      · exact absurd hx (hnot fun v hv => by simp [systemVariables, hv])
      · rcases Chroot.facet_cases f with ⟨u', rfl⟩ | ⟨hvars, -⟩
        · obtain rfl := userdata_unique hc hu hf
          obtain ⟨key', hvalue', hname⟩ := Chroot.mem_userVariables_iff.mp hx
          have hkeys : ∀ {k y}, u.userdata[k]? = some y → k ∈ u.userdata := fun h => by
            simp [Std.ExtTreeMap.mem_iff_isSome_getElem?, h]
          obtain rfl := (hc.named u hu).injective _ (hkeys hvalue') _ (hkeys hvalue) hname
          rw [← hvalue, hvalue']
        · rw [hvars] at hx
          refine absurd hx (hnot fun v hv => ?_)
          have hflat : v ∈ c.facets.flatMap Chroot.facetVariables :=
            List.mem_flatMap.mpr ⟨f, hf, hv⟩
          simp [systemVariables, hflat]
      · exact absurd hx (hnot fun v hv => by simp [systemVariables, hv])

end Script

section Keeping

variable {w : World} {c : Chroot}

/-- No key of the user data has a variable of the system; the environment is set up, and in
it every key keeps its own value and every variable of the system that of the system. -/
structure KeepsVariables (w : World) (c : Chroot) : Prop where
  different : ∀ u, Facet.userdata u ∈ c.facets → ∀ key ∈ u.userdata,
    ∀ v ∈ systemVariables w c, envname key ≠ v.1
  kept : ∃ env, scriptEnvironment w c = .ok env ∧
    (∀ u, Facet.userdata u ∈ c.facets → ∀ key value, u.userdata[key]? = some value →
      env[envname key]? = some value) ∧
    ∀ v ∈ systemVariables w c,
      env[v.1]? = (Environment.addAll ∅ (systemVariables w c))[v.1]?

theorem dataDir_mem_systemVariables (w : World) (c : Chroot) :
    ("DATA_DIR", w.cfg.dataDir) ∈ systemVariables w c := by
  simp [systemVariables, sessionVariables]

theorem envname_dataDir : envname "data.dir" = "DATA_DIR" := by decide

/-- One valid key has a variable of the system. -/
theorem envname_ne_systemVariables_iff
    {key : String}
    (h : validateKeyname key = true) :
    (∀ v ∈ systemVariables w c, envname key ≠ v.1) ↔ key ≠ "data.dir" := by
  constructor
  · rintro hne rfl
    exact hne _ (dataDir_mem_systemVariables w c) envname_dataDir
  · intro hkey v hv
    rcases (systemVariables_cases hv).2 with hreach | hdata
    · exact envname_ne_of_isOutOfReach h hreach
    · rw [hdata]
      exact fun hname => hkey ((envname_eq_dataDir_iff h).mp hname)

theorem keepsVariables_of_dataInvariant
    (hc : Chroot.DataInvariant c)
    (hkeys : ∀ u, Facet.userdata u ∈ c.facets → "data.dir" ∉ u.userdata) :
    KeepsVariables w c := by
  have hdifferent : ∀ u, Facet.userdata u ∈ c.facets → ∀ key ∈ u.userdata,
      ∀ v ∈ systemVariables w c, envname key ≠ v.1 := fun u hu key hkey =>
    (envname_ne_systemVariables_iff ((hc.named u hu).valid key hkey)).mpr fun heq =>
      hkeys u hu (heq ▸ hkey)
  refine ⟨hdifferent, _, scriptEnvironment_eq_ok hc, fun u hu key value hvalue => ?_,
    fun v hv => ?_⟩
  · rw [getElem?_insertAll_empty]
    refine lookup_allVariables_userdata hc hu hvalue (hdifferent u hu key ?_)
    simp [Std.ExtTreeMap.mem_iff_isSome_getElem?, hvalue]
  · rw [Environment.addAll_eq_insertAll fun v hv => (systemVariables_cases hv).1,
      getElem?_insertAll_empty, getElem?_insertAll_empty]
    exact lookup_allVariables fun u hu key hkey => hdifferent u hu key hkey v hv

/-- **Of the valid keys one has a variable of the system; user data and the system's
variables keep their values in the environment of the scripts if and only if that key is
not set.** -/
theorem keepsVariables_iff
    {i : Nat} {entry : ChrootEntry}
    (hentry : Chroot.Reachable w.cfg (fun _ _ => True) entry.chroot)
    (h : prepareChroot w i entry = .ok c) :
    (∀ key, validateKeyname key = true →
      ((∀ v ∈ systemVariables w c, envname key ≠ v.1) ↔ key ≠ "data.dir")) ∧
    (KeepsVariables w c ↔ ∀ u, Facet.userdata u ∈ c.facets → "data.dir" ∉ u.userdata) := by
  have hc := dataInvariant_prepareChroot (Chroot.dataInvariant_of_reachable hentry) h
  refine ⟨fun key => envname_ne_systemVariables_iff, fun hkeeps u hu hkey => ?_,
    keepsVariables_of_dataInvariant hc⟩
  exact hkeeps.different u hu _ hkey _ (dataDir_mem_systemVariables w c) envname_dataDir

/-- A session of a chroot that is loaded with a key of its user's own, as far as it comes
about, with the chroot. -/
def customKeySession (key value : String) : Option (Chroot × Chroot) :=
  match ChrootConfig.loadChroot .standard "chroot" (joesChroot.setValue "d" key value) "d" with
  | .error _ => none
  | .ok c =>
      match prepareChroot (smoothWorld .opBegin [⟨"d", c⟩]) 0 ⟨"d", c⟩ with
      | .error _ => none
      | .ok s => some (c, s)

theorem customKeySession_eq_some
    {key value : String} {c s : Chroot}
    (h : customKeySession key value = some (c, s)) :
    Chroot.Reachable .standard (fun _ _ => True) c ∧
      prepareChroot (smoothWorld .opBegin [⟨"d", c⟩]) 0 ⟨"d", c⟩ = .ok s := by
  unfold customKeySession at h
  split at h
  · cases h
  · rename_i hload
    split at h
    · cases h
    · rename_i hprepare
      cases h
      exact ⟨Chroot.reachable_loadChroot (fun _ _ => trivial) hload, hprepare⟩

/-- A key of one's own is kept. -/
theorem keepsVariables_iff_custom :
    ∃ c s, customKeySession "custom.key" "1" = some (c, s) ∧
      KeepsVariables (smoothWorld .opBegin [⟨"d", c⟩]) s := by
  have hrun : (customKeySession "custom.key" "1").any (fun p => p.2.userdata?.any fun u =>
      !u.userdata.contains "data.dir") = true := by decide +kernel
  obtain ⟨p, hsession, hp⟩ := Option.any_eq_true _ _ |>.mp hrun
  obtain ⟨u, hu, hcheck⟩ := Option.any_eq_true _ _ |>.mp hp
  obtain ⟨hreach, hprepare⟩ := customKeySession_eq_some hsession
  obtain ⟨-, hkeeps⟩ := @keepsVariables_iff (smoothWorld .opBegin [⟨"d", p.1⟩]) p.2 0
    ⟨"d", p.1⟩ hreach hprepare
  refine ⟨p.1, p.2, hsession, hkeeps.mpr fun u' hu' hkey => ?_⟩
  have hc := dataInvariant_prepareChroot (Chroot.dataInvariant_of_reachable hreach) hprepare
  obtain rfl := userdata_unique hc hu' (Chroot.mem_of_userdata? hu)
  rw [Std.ExtTreeMap.contains_iff_mem.mpr hkey] at hcheck
  cases hcheck

/-- **The directory of one's own is lost to that of the system**, although its key is
accepted. -/
theorem not_keepsVariables_dataDir :
    validateKeyname "data.dir" = true ∧ envname "data.dir" = "DATA_DIR" ∧
    ∃ c s, customKeySession "data.dir" "/mine" = some (c, s) ∧
      ¬ KeepsVariables (smoothWorld .opBegin [⟨"d", c⟩]) s ∧
      ∃ u env, s.userdata? = some u ∧ u.userdata["data.dir"]? = some "/mine" ∧
        scriptEnvironment (smoothWorld .opBegin [⟨"d", c⟩]) s = .ok env ∧
        env["DATA_DIR"]? = some "/usr/share/schroot" := by
  refine ⟨by decide, envname_dataDir, ?_⟩
  have hrun : (customKeySession "data.dir" "/mine").any (fun p => p.2.userdata?.any fun u =>
      okAnd (scriptEnvironment (smoothWorld .opBegin [⟨"d", p.1⟩]) p.2) fun env =>
        u.userdata["data.dir"]? = some "/mine" &&
          env["DATA_DIR"]? = some "/usr/share/schroot") = true := by decide +kernel
  obtain ⟨p, hsession, hp⟩ := Option.any_eq_true _ _ |>.mp hrun
  obtain ⟨u, hu, hp⟩ := Option.any_eq_true _ _ |>.mp hp
  obtain ⟨env, henv, hp⟩ := okAnd_eq_true_iff.mp hp
  simp only [Bool.and_eq_true, decide_eq_true_eq] at hp
  obtain ⟨hkey, hvariable⟩ := hp
  refine ⟨p.1, p.2, hsession, fun hkeeps => ?_, u, env, hu, hkey, henv, hvariable⟩
  obtain ⟨env', henv', hvalues, -⟩ := hkeeps.kept
  obtain rfl : env' = env := Except.ok.inj (henv'.symm.trans henv)
  have hvalue := hvalues u (Chroot.mem_of_userdata? hu) _ _ hkey
  rw [envname_dataDir, hvariable] at hvalue
  exact absurd (Option.some.inj hvalue) (by decide)

end Keeping

end Session

end Schroot
