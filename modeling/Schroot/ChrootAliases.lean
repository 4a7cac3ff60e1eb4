import Schroot.ChrootConfig

/-!
# Finding chroots

Chroots that are found by their names and aliases, with or without a namespace, in
configurations that were built by any sequence of calls.

**Input.**  A configuration and a name, in which a namespace may stand in front of the first
separator, and a namespace that is used when there is none.

**Results.**
* `added_of_add`: what adding a chroot does.
* `run_keeps`: what it keeps is kept by every sequence of calls, whether they throw or not.
* `resolves_run`: so is what the aliases lead to.
* `listed_resolve`: every listed name leads to a chroot.
-/

namespace Schroot

namespace ChrootConfig

section Model

/-- `get_namespace`: what stands in front of the first separator and what stands behind it. -/
def getNamespace (name : String) : String × String :=
  if ':' ∈ name.toList then
    (String.ofList (name.toList.takeWhile (· ≠ ':')),
      String.ofList (name.toList.dropWhile (· ≠ ':')).tail)
  else
    ("", name)

/-- The namespace and the name that are looked for. -/
def hintedName (hint name : String) : String × String :=
  let found := getNamespace name
  let ns := if found.1 = "" then hint else found.1
  (if ns = "" then "chroot" else ns, found.2)

/-- `find_chroot_in_namespace`. -/
def findChrootInNamespace (conf : ChrootConfig) (ns name : String) :
    Except ConfigError (Option Chroot) := do
  let chroots ← conf.findNamespace ns
  pure chroots[name]?

/-- `find_chroot` with a namespace hint. -/
def findChrootHinted (conf : ChrootConfig) (hint name : String) :
    Except ConfigError (Option Chroot) :=
  let found := hintedName hint name
  conf.findChrootInNamespace found.1 found.2

/-- `find_alias`. -/
def findAlias (conf : ChrootConfig) (hint name : String) : Except ConfigError (Option Chroot) :=
  let found := hintedName hint name
  match conf.aliases[qualified found.1 found.2]? with
  | some target => conf.findChrootHinted hint target
  | none => conf.findChrootHinted hint name

/-- `lookup_alias`. -/
def lookupAlias (conf : ChrootConfig) (hint name : String) : String :=
  let found := hintedName hint name
  (conf.aliases[qualified found.1 found.2]?).getD ""

/-- `get_chroot_list`. -/
def getChrootList (conf : ChrootConfig) (ns : String) : Except ConfigError (List String) := do
  let chroots ← conf.findNamespace ns
  pure ((chroots.keys.map (qualified ns)).mergeSort (· ≤ ·))

/-- `get_alias_list`. -/
def getAliasList (conf : ChrootConfig) (ns : String) : Except ConfigError (List String) := do
  let _ ← conf.findNamespace ns
  pure ((conf.aliases.keys.filter fun key =>
    ':' ∈ key.toList && (getNamespace key).1 = ns).mergeSort (· ≤ ·))

/-- One turn of the loop of `validate_chroots`: the names that are not found, and the others with
their chroots. -/
def validateChroot (conf : ChrootConfig) (hint : String)
    (state : List String × Std.ExtTreeMap String Chroot) (name : String) :
    Except ConfigError (List String × Std.ExtTreeMap String Chroot) := do
  match ← conf.findAlias hint name with
  | none => pure (state.1 ++ [name], state.2)
  | some c => pure (state.1, state.2.insertIfNew name c)

/-- `validate_chroots`. -/
def validateChroots (conf : ChrootConfig) (hint : String) (names : List String) :
    Except ConfigError (Std.ExtTreeMap String Chroot) := do
  let state ← names.foldlM (conf.validateChroot hint) ([], ∅)
  if state.1 = [] then
    pure state.2
  else
    .error
      { code := if state.1.length = 1 then .chrootNotfound else .chrootsNotfound
        context := stringListToString state.1 ", " }

/-- A call that may change the configuration. -/
inductive Call where
  | add (ns : String) (c : Chroot) (kf : Keyfile)
  | loadKeyfile (ns : String) (kf : Keyfile)
  | parseData (ns text : String)

/-- The configuration that `load_keyfile` leaves behind, whether it throws or not. -/
def loadGroups (cfg : SbuildConfig) (ns : String) (kf : Keyfile) :
    ChrootConfig → List String → ChrootConfig × Option LoadError
  | conf, [] => (conf, none)
  | conf, group :: groups =>
      match loadChroot cfg ns kf group with
      | .error e => (conf, some e)
      | .ok c =>
          match conf.add ns c kf with
          | .error e => (conf, some e)
          | .ok conf =>
              match loadSource cfg c with
              | .error e => (conf, some e)
              | .ok none => loadGroups cfg ns kf conf groups
              | .ok (some source) =>
                  match conf.add "source" source kf with
                  | .error e => (conf, some e)
                  | .ok conf => loadGroups cfg ns kf conf groups

/-- The configuration that a call leaves behind, and what it throws.  A chroot that is refused
is refused before anything is changed. -/
def Call.run (cfg : SbuildConfig) (conf : ChrootConfig) : Call → ChrootConfig × Option LoadError
  | add ns c kf =>
      match conf.add ns c kf with
      | .ok conf => (conf, none)
      | .error e => (conf, some e)
  | loadKeyfile ns kf => loadGroups cfg ns kf conf kf.getGroups
  | parseData ns text =>
      match Keyfile.empty.parse text with
      | .ok kf => loadGroups cfg ns kf conf kf.getGroups
      | .error e => (conf, some (.keyfile (.fault e)))

/-- The configuration after a sequence of calls, each of which may have thrown. -/
def run (cfg : SbuildConfig) (conf : ChrootConfig) (calls : List Call) : ChrootConfig :=
  calls.foldl (fun conf call => (call.run cfg conf).1) conf

end Model

section Calls

variable {cfg : SbuildConfig} {ns : String} {kf : Keyfile} {conf conf' : ChrootConfig}

/-- Where `load_keyfile` does not throw, it leaves behind what it returns. -/
theorem loadGroups_eq (groups : List String) :
    groups.foldlM (loadGroup cfg ns kf) conf =
      match loadGroups cfg ns kf conf groups with
      | (conf', none) => .ok conf'
      | (_, some e) => .error e := by
  induction groups generalizing conf with
  | nil => rfl
  | cons group groups ih =>
      rw [List.foldlM_cons, loadGroups, loadGroup]
      cases hload : loadChroot cfg ns kf group with
      | error e => rfl
      | ok c =>
          cases hadd : conf.add ns c kf with
          | error e => simp [hadd, bind, Except.bind]
          | ok conf₁ =>
              cases hsource : loadSource cfg c with
              | error e => simp [hadd, hsource, bind, Except.bind]
              | ok source =>
                  cases source with
                  | none => simpa [hadd, hsource, bind, Except.bind, pure, Except.pure] using ih
                  | some source =>
                      cases hadd' : conf₁.add "source" source kf with
                      | error e => simp [hadd, hsource, hadd', bind, Except.bind]
                      | ok conf₂ =>
                          simpa [hadd, hsource, hadd', bind, Except.bind] using ih

end Calls

section Names

variable {ns name : String}

/-- **A qualified name is split again** where it was put together. -/
theorem getNamespace_qualified
    (h : ':' ∉ ns.toList)
    (name : String) :
    getNamespace (qualified ns name) = (ns, name) := by
  have htext : (qualified ns name).toList = ns.toList ++ ':' :: name.toList := by
    simp [qualified, String.toList_append]
  have hns : ∀ c ∈ ns.toList, decide (c ≠ ':') = true := fun c hc =>
    decide_eq_true fun e => h (e ▸ hc)
  have htake : (ns.toList ++ ':' :: name.toList).takeWhile (· ≠ ':') = ns.toList := by
    rw [List.takeWhile_append_of_pos hns]
    simp
  have hdrop : (ns.toList ++ ':' :: name.toList).dropWhile (· ≠ ':') = ':' :: name.toList := by
    rw [List.dropWhile_append_of_pos hns]
    simp
  rw [getNamespace, htext, if_pos (by simp), htake, hdrop]
  simp

theorem mem_qualified (ns name : String) :
    ':' ∈ (qualified ns name).toList := by
  simp [qualified, String.toList_append]

theorem qualified_injective
    {a b : String}
    (h : qualified ns a = qualified ns b) :
    a = b := by
  have hlist := congrArg String.toList h
  simp only [qualified, String.toList_append, List.append_assoc, List.append_cancel_left_eq] at hlist
  exact String.toList_injective hlist

/-- Names of two namespaces differ. -/
theorem qualified_ne
    {ns' : String}
    (hns : ':' ∉ ns.toList)
    (hns' : ':' ∉ ns'.toList)
    (hne : ns ≠ ns')
    (a b : String) :
    qualified ns a ≠ qualified ns' b := by
  intro h
  have hsplit := congrArg getNamespace h
  rw [getNamespace_qualified hns, getNamespace_qualified hns'] at hsplit
  exact hne (Prod.mk.inj hsplit).1

theorem qualified_chroot_ne_source (a b : String) :
    qualified "source" a ≠ qualified "chroot" b :=
  qualified_ne (by decide) (by decide) (by decide) a b

theorem qualified_chroot_ne_session (a b : String) :
    qualified "chroot" a ≠ qualified "session" b :=
  qualified_ne (by decide) (by decide) (by decide) a b

/-- A name with a separator is the qualified name of what it is split into. -/
theorem qualified_getNamespace
    (h : ':' ∈ name.toList) :
    qualified (getNamespace name).1 (getNamespace name).2 = name := by
  obtain ⟨first, rest, hsplit, hfirst⟩ := List.eq_append_cons_of_mem h
  have hname : name = qualified (String.ofList first) (String.ofList rest) :=
    String.toList_injective (by simp [qualified, String.toList_append, hsplit])
  have hsep : ':' ∉ (String.ofList first).toList := by simpa using hfirst
  rw [hname, getNamespace_qualified hsep]

theorem hintedName_of_getNamespace
    (hint : String)
    (h : (getNamespace name).1 = ns)
    (hne : ns ≠ "") :
    hintedName hint name = (ns, (getNamespace name).2) := by
  simp [hintedName, h, hne]

end Names

section Adding

variable {conf conf' : ChrootConfig} {ns : String} {c : Chroot} {kf : Keyfile}

/-- The names that a new chroot is found by: its own, that of the proxy session of a plain
chroot, its aliases, and those with the suffix of source chroots. -/
def AddedKey (ns : String) (c : Chroot) (key : String) : Prop :=
  key = qualified ns c.name ∨
    (ns = "chroot" ∧ c.kind.typeName = "plain" ∧ key = qualified "session" c.name) ∨
      ∃ a ∈ c.aliases,
        key = qualified ns a ∨ ns = "source" ∧ key = qualified "chroot" (a ++ "-source")

theorem getElem?_addAlias (conf : ChrootConfig) (name target key : String) :
    (conf.addAlias name target).aliases[key]? =
      (conf.aliases[key]?).or (if key = name then some target else none) := by
  simp only [addAlias, SortedMap.getElem?_insertIfNew]
  split
  · rename_i heq
    rw [heq]
    cases conf.aliases[name]? <;> rfl
  · simp

theorem getElem?_addChrootAliases
    (ns target : String) (names : List String) (conf : ChrootConfig) (key : String) :
    (names.foldl (addChrootAlias ns target) conf).aliases[key]? =
      (conf.aliases[key]?).or (if ∃ a ∈ names,
        key = qualified ns a ∨ ns = "source" ∧ key = qualified "chroot" (a ++ "-source")
          then some target else none) := by
  induction names generalizing conf with
  | nil => simp
  | cons name names ih =>
      have hstep : (conf.addChrootAlias ns target name).aliases[key]? =
          (conf.aliases[key]?).or (if key = qualified ns name ∨
            ns = "source" ∧ key = qualified "chroot" (name ++ "-source")
              then some target else none) := by
        unfold addChrootAlias
        by_cases hns : ns = "source"
        · simp only [hns, if_true, true_and, getElem?_addAlias, Option.or_assoc]
          split <;> split <;> simp_all
        · simp [hns, getElem?_addAlias]
      rw [List.foldl_cons, ih, hstep, Option.or_assoc]
      congr 1
      simp only [List.mem_cons, exists_eq_or_imp]
      split <;> split <;> simp_all

instance (ns : String) (c : Chroot) (key : String) : Decidable (AddedKey ns c key) :=
  inferInstanceAs (Decidable (_ ∨ _ ∨ ∃ a ∈ c.aliases, _))

/-- **What adding a chroot does**: it is a new one, and it is led to by all its names that are not
taken. -/
structure Added (ns : String) (c : Chroot) (conf conf' : ChrootConfig) : Prop where
  namespaces : ∀ n : String, conf'.namespaces[n]?.isSome = conf.namespaces[n]?.isSome
  known : conf.namespaces[ns]?.isSome = true
  fresh : conf.findChroot ns c.name = none ∧ conf.aliases[qualified ns c.name]? = none
  chroots : ∀ n m, conf'.findChroot n m =
    if n = ns ∧ m = c.name then some c else conf.findChroot n m
  aliases : ∀ key : String, conf'.aliases[key]? =
    (conf.aliases[key]?).or (if AddedKey ns c key then some (qualified ns c.name) else none)

theorem namespaces_addChrootAliases
    (ns target : String) (names : List String) (conf : ChrootConfig) :
    (names.foldl (addChrootAlias ns target) conf).namespaces = conf.namespaces := by
  induction names generalizing conf with
  | nil => rfl
  | cons name names ih =>
      rw [List.foldl_cons, ih]
      unfold addChrootAlias
      split <;> rfl

theorem added_of_add
    (hadd : conf.add ns c kf = .ok conf') :
    Added ns c conf conf' := by
  simp only [add, findNamespace, bind_eq_ok_iff, mapError_eq_ok_iff] at hadd
  obtain ⟨chroots, hns, hadd⟩ := hadd
  split at hns
  · rename_i _ hns'
    cases hns
    split at hadd
    · cases hadd
    · rename_i hnew
      simp only [Bool.or_eq_true, Option.isSome_iff_ne_none, not_or, not_not] at hnew
      cases hadd
      have hspaces : ∀ conf₁ : ChrootConfig, (if ns = "chroot" ∧ c.kind.typeName = "plain" then
          conf₁.addAlias (qualified "session" c.name) (qualified ns c.name)
            else conf₁).namespaces = conf₁.namespaces := by
        intro conf₁
        split <;> rfl
      refine ⟨fun n => ?_, by simp [hns'], ⟨by simp [findChroot, hns', hnew.1], hnew.2⟩,
        fun n m => ?_, fun key => ?_⟩
      · rw [namespaces_addChrootAliases, hspaces]
        simp only [SortedMap.getElem?_insert]
        split
        · rename_i heq
          simp [heq, hns']
        · rfl
      · rw [findChroot, namespaces_addChrootAliases, hspaces]
        simp only [findChroot, SortedMap.getElem?_insert]
        by_cases hn : n = ns
        · subst hn
          simp [hns', SortedMap.getElem?_insert]
        · simp [hn]
      · have hproxy : ∀ conf₁ : ChrootConfig, (if ns = "chroot" ∧ c.kind.typeName = "plain" then
            conf₁.addAlias (qualified "session" c.name) (qualified ns c.name)
              else conf₁).aliases[key]? = (conf₁.aliases[key]?).or
                (if ns = "chroot" ∧ c.kind.typeName = "plain" ∧ key = qualified "session" c.name
                  then some (qualified ns c.name) else none) := by
          intro conf₁
          split
          · simp [getElem?_addAlias, *]
          · rename_i hplain
            rw [if_neg fun h => hplain ⟨h.1, h.2.1⟩, Option.or_none]
        rw [getElem?_addChrootAliases, hproxy]
        simp only [SortedMap.getElem?_insert, AddedKey]
        by_cases hkey : key = qualified ns c.name
        · simp [hkey, hnew.2]
        · simp only [hkey, if_false, false_or, Option.or_assoc]
          congr 1
          split <;> split <;> simp_all
  · cases hns

end Adding

section Invariant

/-- **What aliases lead to**: the chroots that there are, each of which is led to by its own
qualified name. -/
structure Resolves (conf : ChrootConfig) : Prop where
  namespaces : ∀ (ns : String) chroots, conf.namespaces[ns]? = some chroots → ns ≠ "" ∧ ':' ∉ ns.toList
  targets : ∀ (key target : String), conf.aliases[key]? = some target →
    ∃ ns name c, target = qualified ns name ∧ conf.findChroot ns name = some c
  names : ∀ ns name c, conf.findChroot ns name = some c →
    conf.aliases[qualified ns name]? = some (qualified ns name)

theorem namespaces_empty
    {ns : String} {chroots : Std.ExtTreeMap String Chroot}
    (h : empty.namespaces[ns]? = some chroots) :
    (ns = "chroot" ∨ ns = "session" ∨ ns = "source") ∧ chroots = ∅ := by
  simp only [empty, SortedMap.getElem?_insert] at h
  split at h
  · exact ⟨by simp [*], (Option.some.inj h).symm⟩
  · split at h
    · exact ⟨by simp [*], (Option.some.inj h).symm⟩
    · split at h
      · exact ⟨by simp [*], (Option.some.inj h).symm⟩
      · simp at h

theorem resolves_empty : Resolves empty := by
  have hnone : ∀ ns name, empty.findChroot ns name = none := by
    intro ns name
    unfold findChroot
    cases h : empty.namespaces[ns]? with
    | none => rfl
    | some chroots =>
        rw [(namespaces_empty h).2]
        simp
  refine ⟨fun ns chroots h => ?_, fun key target h => ?_, fun ns name c h => ?_⟩
  · rcases (namespaces_empty h).1 with rfl | rfl | rfl <;> decide
  · simp [empty] at h
  · rw [hnone] at h
    cases h

variable {conf conf' : ChrootConfig} {ns : String} {c : Chroot} {kf : Keyfile}

/-- **A new chroot and its aliases** keep what the aliases lead to in order. -/
theorem resolves_add
    (h : conf.Resolves)
    (hadd : conf.add ns c kf = .ok conf') :
    conf'.Resolves := by
  have hadded := added_of_add hadd
  have hkept : ∀ n m d, conf.findChroot n m = some d → conf'.findChroot n m = some d := by
    intro n m d hd
    rw [hadded.chroots, if_neg]
    · exact hd
    · rintro ⟨rfl, rfl⟩
      rw [hadded.fresh.1] at hd
      cases hd
  refine ⟨fun n chroots hn => ?_, fun key target hkey => ?_, fun n m d hd => ?_⟩
  · have hsome := hadded.namespaces n
    rw [hn, Option.isSome_some, eq_comm, Option.isSome_iff_exists] at hsome
    obtain ⟨chroots', hn'⟩ := hsome
    exact h.namespaces n chroots' hn'
  · rw [hadded.aliases, Option.or_eq_some_iff] at hkey
    rcases hkey with hkey | ⟨-, hkey⟩
    · obtain ⟨n, m, d, rfl, hd⟩ := h.targets key target hkey
      exact ⟨n, m, d, rfl, hkept n m d hd⟩
    · split at hkey <;> cases hkey
      exact ⟨ns, c.name, c, rfl, by rw [hadded.chroots, if_pos ⟨rfl, rfl⟩]⟩
  · rw [hadded.chroots] at hd
    rw [hadded.aliases]
    split at hd
    · rename_i heq
      obtain ⟨rfl, rfl⟩ := heq
      rw [hadded.fresh.2, Option.none_or, if_pos (.inl rfl)]
    · rw [h.names n m d hd]
      rfl

end Invariant

section Runs

variable {conf : ChrootConfig} {P : ChrootConfig → Prop}

/-- **Loading a keyfile**, by induction on its groups: what adding a chroot and its source chroot
keeps is kept. -/
theorem loadGroups_keeps
    {cfg : SbuildConfig} {ns : String} {kf : Keyfile}
    (hchroot : ∀ {group c conf conf'}, P conf → loadChroot cfg ns kf group = .ok c →
      conf.add ns c kf = .ok conf' → P conf')
    (hsource : ∀ {group c source conf conf'}, P conf → loadChroot cfg ns kf group = .ok c →
      loadSource cfg c = .ok (some source) → conf.add "source" source kf = .ok conf' → P conf')
    (h : P conf)
    (groups : List String) :
    P (loadGroups cfg ns kf conf groups).1 := by
  induction groups generalizing conf with
  | nil => exact h
  | cons group groups ih =>
      unfold loadGroups
      split
      · exact h
      · rename_i hload
        split
        · exact h
        · rename_i hfirst
          have h₁ := hchroot h hload hfirst
          split
          · exact h₁
          · exact ih h₁
          · rename_i hclone
            split
            · exact h₁
            · rename_i hsecond
              exact ih (hsource h₁ hload hclone hsecond)

/-- **One call** keeps what adding its chroots keeps, whether it throws or not. -/
theorem Call.run_keeps
    {cfg : SbuildConfig}
    (call : Call)
    (hadd : ∀ {ns c kf conf'}, call = .add ns c kf → conf.add ns c kf = .ok conf' → P conf')
    (hchroot : ∀ {ns kf group c conf conf'}, P conf → loadChroot cfg ns kf group = .ok c →
      conf.add ns c kf = .ok conf' → P conf')
    (hsource : ∀ {ns kf group c source conf conf'}, P conf → loadChroot cfg ns kf group = .ok c →
      loadSource cfg c = .ok (some source) → conf.add "source" source kf = .ok conf' → P conf')
    (h : P conf) :
    P (call.run cfg conf).1 := by
  cases call with
  | add ns c kf =>
      simp only [Call.run]
      split
      · rename_i hfirst
        exact hadd rfl hfirst
      · exact h
  | loadKeyfile ns kf => exact loadGroups_keeps hchroot hsource h _
  | parseData ns text =>
      simp only [Call.run]
      split
      · exact loadGroups_keeps hchroot hsource h _
      · exact h

/-- **What adding a chroot keeps is kept by every sequence of calls**, thrown or not. -/
theorem run_keeps
    (cfg : SbuildConfig)
    (hadd : ∀ {ns c kf conf conf'}, P conf → conf.add ns c kf = .ok conf' → P conf')
    (h : P conf)
    (calls : List Call) :
    P (run cfg conf calls) := by
  unfold run
  induction calls generalizing conf with
  | nil => exact h
  | cons call calls ih =>
      exact ih (call.run_keeps (fun _ hx => hadd h hx) (fun hx _ => hadd hx)
        (fun hx _ _ => hadd hx) h)

/-- **Every sequence of calls** keeps what the aliases lead to in order. -/
theorem resolves_run
    (cfg : SbuildConfig)
    (h : conf.Resolves)
    (calls : List Call) :
    (run cfg conf calls).Resolves :=
  run_keeps cfg resolves_add h calls

end Runs

section Listed

variable {conf : ChrootConfig} {ns key : String}

theorem findChrootHinted_qualified
    {name : String} {c : Chroot}
    (hint : String)
    (h : conf.Resolves)
    (hfind : conf.findChroot ns name = some c) :
    conf.findChrootHinted hint (qualified ns name) = .ok (some c) := by
  unfold findChroot at hfind
  cases hns : conf.namespaces[ns]? with
  | none => simp [hns] at hfind
  | some chroots =>
      rw [hns, Option.bind_some] at hfind
      obtain ⟨hne, hsep⟩ := h.namespaces ns chroots hns
      have hsplit := getNamespace_qualified hsep name
      rw [findChrootHinted, hintedName_of_getNamespace hint (congrArg Prod.fst hsplit) hne, hsplit]
      simp [findChrootInNamespace, findNamespace, hns, hfind, bind, Except.bind, pure, Except.pure]

/-- The entry leads to the chroot that its alias names. -/
def LeadsTo (conf : ChrootConfig) (entry : String) (c : Chroot) : Prop :=
  conf.findAlias "" entry = .ok (some c) ∧
    ∃ ns name, conf.lookupAlias "" entry = qualified ns name ∧ conf.findChroot ns name = some c

/-- An alias in a namespace leads to a chroot. -/
theorem leadsTo_of_alias
    {target : String}
    (h : conf.Resolves)
    (hne : ns ≠ "")
    (hkey : ':' ∈ key.toList ∧ (getNamespace key).1 = ns)
    (halias : conf.aliases[key]? = some target) :
    ∃ c, conf.LeadsTo key c := by
  obtain ⟨n, name, c, rfl, hfind⟩ := h.targets key target halias
  have hfull : qualified ns (getNamespace key).2 = key := by
    rw [← hkey.2]
    exact qualified_getNamespace hkey.1
  have hhinted := hintedName_of_getNamespace "" hkey.2 hne
  refine ⟨c, ?_, n, name, ?_, hfind⟩
  · rw [findAlias, hhinted]
    simp only [hfull, halias]
    exact findChrootHinted_qualified "" h hfind
  · rw [lookupAlias, hhinted]
    simp only [hfull, halias]
    rfl

/-- **Every listed name leads to a chroot.** -/
theorem listed_resolve
    {entries : List String}
    (h : conf.Resolves)
    (hlisted : conf.getAliasList ns = .ok entries ∨ conf.getChrootList ns = .ok entries) :
    ∀ entry ∈ entries, ∃ c, conf.LeadsTo entry c := by
  intro entry hentry
  rcases hlisted with hlisted | hlisted
  · simp only [getAliasList, bind_eq_ok_iff] at hlisted
    obtain ⟨chroots, hns, hlisted⟩ := hlisted
    unfold findNamespace at hns
    split at hns
    · rename_i hns'
      cases hlisted
      rw [List.mem_mergeSort, List.mem_filter] at hentry
      obtain ⟨hmem, hkey⟩ := hentry
      simp only [Bool.and_eq_true, decide_eq_true_eq] at hkey
      obtain ⟨target, htarget⟩ : ∃ target, conf.aliases[entry]? = some target := by
        have hin : entry ∈ conf.aliases := Std.ExtTreeMap.mem_keys.mp hmem
        exact ⟨_, Std.ExtTreeMap.getElem?_eq_some_getElem hin⟩
      exact leadsTo_of_alias h (h.namespaces ns _ hns').1 hkey htarget
    · cases hns
  · simp only [getChrootList, bind_eq_ok_iff] at hlisted
    obtain ⟨chroots, hns, hlisted⟩ := hlisted
    unfold findNamespace at hns
    split at hns
    · rename_i chroots' hns'
      cases hns
      cases hlisted
      rw [List.mem_mergeSort, List.mem_map] at hentry
      obtain ⟨name, hname, rfl⟩ := hentry
      obtain ⟨hne, hsep⟩ := h.namespaces ns chroots hns'
      obtain ⟨c, hc⟩ : ∃ c, conf.findChroot ns name = some c := by
        have hin : name ∈ chroots := Std.ExtTreeMap.mem_keys.mp hname
        exact ⟨_, by rw [findChroot, hns', Option.bind_some];
                     exact Std.ExtTreeMap.getElem?_eq_some_getElem hin⟩
      have hsplit := getNamespace_qualified hsep name
      refine leadsTo_of_alias h hne ⟨?_, congrArg Prod.fst hsplit⟩ (h.names ns name c hc)
      simp [qualified, String.toList_append]
    · cases hns

/-- Names that all lead to chroots are validated. -/
theorem validateChroot_loop
    {entries : List String}
    (hall : ∀ entry ∈ entries, ∃ c, conf.LeadsTo entry c)
    (state : List String × Std.ExtTreeMap String Chroot) :
    ∃ validated, entries.foldlM (conf.validateChroot "") state = .ok (state.1, validated) ∧
      (∀ (name : String) c, state.2[name]? = some c → validated[name]? = some c) ∧
        ∀ entry ∈ entries, state.2[entry]? = none → ∃ c, validated[entry]? = some c ∧
          conf.LeadsTo entry c := by
  induction entries generalizing state with
  | nil => exact ⟨state.2, rfl, fun _ _ h => h, by simp⟩
  | cons entry entries ih =>
      obtain ⟨c, hfind, hlookup⟩ := hall entry List.mem_cons_self
      have hstep : conf.validateChroot "" state entry =
          .ok (state.1, state.2.insertIfNew entry c) := by
        simp [validateChroot, hfind, bind, Except.bind, pure, Except.pure]
      obtain ⟨validated, hrest, hkept, hnew⟩ :=
        ih (fun e he => hall e (List.mem_cons_of_mem _ he)) (state.1, state.2.insertIfNew entry c)
      refine ⟨validated, ?_, fun name d hd => ?_, fun e he hnone => ?_⟩
      · rw [List.foldlM_cons, hstep]
        exact hrest
      · refine hkept name d ?_
        rw [SortedMap.getElem?_insertIfNew]
        split
        · rename_i heq
          rw [← heq, hd]
          rfl
        · exact hd
      · by_cases heq : e = entry
        · subst heq
          refine ⟨c, hkept e c ?_, hfind, hlookup⟩
          rw [SortedMap.getElem?_insertIfNew, if_pos rfl, hnone]
          rfl
        · refine hnew e ((List.mem_cons.mp he).resolve_left heq) ?_
          rw [SortedMap.getElem?_insertIfNew, if_neg heq]
          exact hnone

/-- **After any sequence of calls**, thrown or not, every alias leads to a chroot, every chroot has
its own name as an alias, and all listed names are found and validated. -/
theorem resolves_calls
    (cfg : SbuildConfig) (calls : List Call) :
    (∀ (key target : String), (run cfg empty calls).aliases[key]? = some target →
      ∃ ns name c, target = qualified ns name ∧ (run cfg empty calls).findChroot ns name = some c) ∧
    (∀ ns name c, (run cfg empty calls).findChroot ns name = some c →
      (run cfg empty calls).aliases[qualified ns name]? = some (qualified ns name)) ∧
    ∀ ns entries, (run cfg empty calls).getAliasList ns = .ok entries ∨
        (run cfg empty calls).getChrootList ns = .ok entries →
      ∃ validated, (run cfg empty calls).validateChroots "" entries = .ok validated ∧
        ∀ entry ∈ entries, ∃ c, validated[entry]? = some c ∧
          (run cfg empty calls).findAlias "" entry = .ok (some c) ∧
            ∃ ns' name, (run cfg empty calls).lookupAlias "" entry = qualified ns' name ∧
              (run cfg empty calls).findChroot ns' name = some c := by
  have h := resolves_run cfg resolves_empty calls
  refine ⟨h.targets, h.names, fun ns entries hlisted => ?_⟩
  obtain ⟨validated, hfold, -, hall⟩ := validateChroot_loop (listed_resolve h hlisted) ([], ∅)
  refine ⟨validated, ?_, fun entry hentry => hall entry hentry (by simp)⟩
  rw [validateChroots, hfold]
  rfl

end Listed

end ChrootConfig

end Schroot
