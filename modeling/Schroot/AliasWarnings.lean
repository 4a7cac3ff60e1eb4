import Schroot.ChrootAliases
import Schroot.ChrootNames

/-!
# Warnings about aliases

An alias of a new chroot that is taken is not set, and a warning is logged.  The warning looks
the alias up once more, without its namespace, to name the chroot that has it.

**Results.**
* `addWarned_fst`: the warnings change nothing.
* `warnings_foldl`: how often an alias is warned about.
* `reported_iff`: when the aliases are reported as documented.
-/

namespace Schroot

namespace ChrootConfig

section Model

/-- A warning about an alias: where the aliases are configured, and the alias with the chroot that
is said to have it. -/
structure AliasWarning where
  line : Nat
  group : String
  key : String := "aliases"
  name : String
  holder : String := ""
deriving DecidableEq, Repr

/-- The warning about an alias that was not inserted, unless the alias is found to be the chroot
itself. -/
def aliasWarning (conf : ChrootConfig) (kf : Keyfile) (name fullname a : String) :
    Option AliasWarning :=
  let line := kf.getLine name "aliases"
  match conf.aliases[a]? with
  | none => some { line := line, group := name, name := a }
  | some target =>
      if fullname ≠ a then
        some { line := line, group := name, name := a, holder := target }
      else
        none

/-- One turn of the loop over the aliases. -/
def warnChrootAlias (ns name : String) (kf : Keyfile)
    (state : ChrootConfig × List AliasWarning) (a : String) :
    ChrootConfig × List AliasWarning :=
  let fullname := qualified ns name
  (state.1.addChrootAlias ns fullname a,
    if (state.1.aliases[qualified ns a]?).isSome then
      state.2 ++ (state.1.aliasWarning kf name fullname a).toList
    else
      state.2)

/-- `add`, with the warnings that are logged. -/
def addWarned (ns : String) (c : Chroot) (kf : Keyfile) (conf : ChrootConfig) :
    Except LoadError (ChrootConfig × List AliasWarning) := do
  let fullname := qualified ns c.name
  let chroots ← (conf.findNamespace ns).mapError .config
  if chroots[c.name]?.isSome || conf.aliases[fullname]?.isSome then
    .error (.keyfile
      (.passthrough (kf.getGroupLine c.name) c.name ""
        (.config { code := .chrootExist, context := fullname })))
  else
    let conf : ChrootConfig :=
      { namespaces := conf.namespaces.insert ns (chroots.insert c.name c)
        aliases := conf.aliases.insert fullname fullname }
    let conf :=
      if ns = "chroot" ∧ c.kind.typeName = "plain" then
        conf.addAlias (qualified "session" c.name) fullname
      else
        conf
    pure (c.aliases.foldl (warnChrootAlias ns c.name kf) (conf, []))

/-- The warnings about one alias. -/
def warningsFor (a : String) (warnings : List AliasWarning) : List AliasWarning :=
  warnings.filter (fun w => w.name = a)

theorem foldl_warnChrootAlias
    (ns name : String) (kf : Keyfile) (names : List String)
    (state : ChrootConfig × List AliasWarning) :
    (names.foldl (warnChrootAlias ns name kf) state).1 =
      names.foldl (addChrootAlias ns (qualified ns name)) state.1 := by
  induction names generalizing state with
  | nil => rfl
  | cons a names ih => exact ih _

/-- **The warnings change nothing.** -/
theorem addWarned_fst
    (ns : String) (c : Chroot) (kf : Keyfile) (conf : ChrootConfig) :
    (conf.addWarned ns c kf).map Prod.fst = conf.add ns c kf := by
  unfold addWarned add
  cases conf.findNamespace ns with
  | error e => rfl
  | ok chroots =>
      simp only [Except.mapError, bind, Except.bind]
      split
      · rfl
      · simp only [pure, Except.pure, Except.map, foldl_warnChrootAlias]

end Model

section Keys

variable {ns : String}

/-- Every alias has a namespace in front of it. -/
def AllQualified (conf : ChrootConfig) : Prop :=
  ∀ key : String, ':' ∉ key.toList → conf.aliases[key]? = none

theorem allQualified_empty : AllQualified empty := by
  intro key _
  simp [empty]

variable {conf conf' : ChrootConfig} {c : Chroot} {kf : Keyfile}

theorem AllQualified.of_added
    (h : conf.AllQualified)
    (hadd : conf.add ns c kf = .ok conf') :
    conf'.AllQualified := by
  intro key hkey
  have hnot : ¬ AddedKey ns c key := by
    rintro (rfl | ⟨-, -, rfl⟩ | ⟨a, -, rfl | ⟨-, rfl⟩⟩)
    · exact hkey (mem_qualified _ _)
    · exact hkey (mem_qualified _ _)
    · exact hkey (mem_qualified _ _)
    · exact hkey (mem_qualified _ _)
  rw [(added_of_add hadd).aliases, h key hkey, if_neg hnot]
  rfl

theorem AllQualified.addChrootAlias
    (h : conf.AllQualified)
    (target name : String) :
    (conf.addChrootAlias ns target name).AllQualified := by
  intro key hkey
  have hnot : ¬ ∃ a ∈ [name], key = qualified ns a ∨
      ns = "source" ∧ key = qualified "chroot" (a ++ "-source") := by
    rintro ⟨a, -, rfl | ⟨-, rfl⟩⟩
    · exact hkey (mem_qualified _ _)
    · exact hkey (mem_qualified _ _)
  have hfold := getElem?_addChrootAliases ns target [name] conf key
  rw [if_neg hnot, h key hkey] at hfold
  exact hfold

end Keys

section Counting

variable {conf : ChrootConfig}

/-- The warning about an alias that is not found without its namespace. -/
def plainWarning (kf : Keyfile) (name a : String) : AliasWarning where
  line := kf.getLine name "aliases"
  group := name
  name := a

/-- **What one alias does**: it is bound if it was not, and warned about if it was. -/
theorem warnChrootAlias_eq
    (ns name : String) (kf : Keyfile) (a : String)
    (hconf : conf.AllQualified)
    (b : String)
    (hb : ':' ∉ b.toList)
    (warnings : List AliasWarning) :
    (warnChrootAlias ns name kf (conf, warnings) b).1.aliases[qualified ns a]? =
        (conf.aliases[qualified ns a]?).or (if b = a then some (qualified ns name) else none) ∧
      warningsFor a (warnChrootAlias ns name kf (conf, warnings) b).2 =
        warningsFor a warnings ++
          (if b = a ∧ (conf.aliases[qualified ns a]?).isSome = true then [plainWarning kf name a]
            else []) := by
  constructor
  · have hfold := getElem?_addChrootAliases ns (qualified ns name) [b] conf (qualified ns a)
    refine hfold.trans ?_
    congr 1
    have hiff : (∃ b' ∈ [b], qualified ns a = qualified ns b' ∨
        ns = "source" ∧ qualified ns a = qualified "chroot" (b' ++ "-source")) ↔ b = a := by
      constructor
      · rintro ⟨b', hb', heq | ⟨rfl, heq⟩⟩
        · rw [List.mem_singleton.mp hb'] at heq
          exact (qualified_injective heq).symm
        · exact absurd heq (qualified_chroot_ne_source _ _)
      · rintro rfl
        exact ⟨b, List.mem_singleton_self b, .inl rfl⟩
    simp only [hiff]
  · have hwarning : conf.aliasWarning kf name (qualified ns name) b =
        some (plainWarning kf name b) := by
      simp [aliasWarning, hconf b hb, plainWarning]
    by_cases hba : b = a
    · subst hba
      by_cases hbound : (conf.aliases[qualified ns b]?).isSome = true
      · simp [warnChrootAlias, warningsFor, hbound, hwarning, plainWarning]
      · simp [warnChrootAlias, warningsFor, hbound]
    · by_cases hbound : (conf.aliases[qualified ns b]?).isSome = true
      · simp [warnChrootAlias, warningsFor, hbound, hwarning, plainWarning, hba]
      · simp [warnChrootAlias, warningsFor, hbound, hba]

/-- **How often an alias is warned about**: as often as it is listed, but for the time when it is
bound. -/
theorem warnings_foldl
    (ns name : String) (kf : Keyfile) (a : String)
    (hconf : conf.AllQualified)
    {names : List String}
    (hnames : ∀ b ∈ names, ':' ∉ b.toList)
    (warnings : List AliasWarning) :
    warningsFor a (names.foldl (warnChrootAlias ns name kf) (conf, warnings)).2 =
      warningsFor a warnings ++ List.replicate
        (names.count a - if (conf.aliases[qualified ns a]?).isSome then 0 else 1)
        (plainWarning kf name a) := by
  induction names generalizing conf warnings with
  | nil => simp
  | cons b names ih =>
      obtain ⟨halias, hwarnings⟩ := warnChrootAlias_eq ns name kf a hconf b
        (hnames b List.mem_cons_self) warnings
      have hnext : (conf.addChrootAlias ns (qualified ns name) b).AllQualified :=
        hconf.addChrootAlias _ _
      rw [List.foldl_cons]
      have hrest := ih hnext (fun b' hb' => hnames b' (List.mem_cons_of_mem b hb'))
        (warnChrootAlias ns name kf (conf, warnings) b).2
      refine hrest.trans ?_
      rw [hwarnings, List.append_assoc]
      congr 1
      have hsome : (conf.addChrootAlias ns (qualified ns name) b).aliases[qualified ns a]? =
          (conf.aliases[qualified ns a]?).or (if b = a then some (qualified ns name) else none) :=
        halias
      rw [hsome]
      by_cases hba : b = a
      · subst hba
        cases conf.aliases[qualified ns b]? with
        | none => simp
        | some target => simp [List.replicate_succ]
      · simp [hba]

end Counting

section Reporting

variable {ns : String} {c : Chroot} {kf : Keyfile} {conf conf' : ChrootConfig}
  {warnings : List AliasWarning}

/-- One of three, and not two of them. -/
def ExactlyOne (p q r : Prop) : Prop :=
  (p ∨ q ∨ r) ∧ ¬ (p ∧ q) ∧ ¬ (p ∧ r) ∧ ¬ (q ∧ r)

/-- **How the aliases of a new chroot are to be reported**: an alias is bound, or it is the name of
the chroot, and there is no warning; or it was bound to another chroot, it still is, and one
warning names that chroot. -/
def Reported (ns : String) (c : Chroot) (conf conf' : ChrootConfig)
    (warnings : List AliasWarning) : Prop :=
  ∀ a ∈ c.aliases, ExactlyOne
    (conf'.aliases[qualified ns a]? = some (qualified ns c.name) ∧ warningsFor a warnings = [])
    (a = c.name ∧ warningsFor a warnings = [])
    (∃ target warning, conf.aliases[qualified ns a]? = some target ∧ target ≠ qualified ns c.name ∧
      conf'.aliases[qualified ns a]? = some target ∧ warningsFor a warnings = [warning] ∧
        warning.holder = target)

/-- The aliases of the configuration that the loop over the aliases of a chroot starts with. -/
theorem exists_warned_of_addWarned
    (hadd : conf.addWarned ns c kf = .ok (conf', warnings)) :
    ∃ conf₁ : ChrootConfig,
      c.aliases.foldl (warnChrootAlias ns c.name kf) (conf₁, []) = (conf', warnings) ∧
        ∀ key : String, conf₁.aliases[key]? =
          if key = qualified ns c.name then some (qualified ns c.name)
          else (conf.aliases[key]?).or
            (if ns = "chroot" ∧ c.kind.typeName = "plain" ∧ key = qualified "session" c.name
              then some (qualified ns c.name) else none) := by
  simp only [addWarned, bind_eq_ok_iff] at hadd
  obtain ⟨chroots, -, hadd⟩ := hadd
  split at hadd
  · cases hadd
  · refine ⟨_, Except.ok.inj hadd, fun key => ?_⟩
    by_cases hplain : ns = "chroot" ∧ c.kind.typeName = "plain"
    · rw [if_pos hplain, getElem?_addAlias, SortedMap.getElem?_insert]
      split
      · rfl
      · simp [hplain]
    · rw [if_neg hplain, SortedMap.getElem?_insert,
        if_neg (fun h => hplain ⟨h.1, h.2.1⟩ : ¬ (_ ∧ _ ∧ key = qualified "session" c.name))]
      simp

/-- **How often an alias of a new chroot is warned about**: as often as it is listed, but for the
time when it is bound. -/
theorem warnings_addWarned
    (hconf : conf.AllQualified)
    (hnames : ∀ a ∈ c.aliases, ':' ∉ a.toList)
    (hadd : conf.addWarned ns c kf = .ok (conf', warnings))
    (a : String) :
    warningsFor a warnings = List.replicate
      (c.aliases.count a -
        if a = c.name ∨ (conf.aliases[qualified ns a]?).isSome = true then 0 else 1)
      (plainWarning kf c.name a) := by
  obtain ⟨conf₁, hloop, haliases⟩ := exists_warned_of_addWarned hadd
  have hconf₁ : conf₁.AllQualified := by
    intro key hkey
    have hne : ∀ n m, key ≠ qualified n m := by
      rintro n m rfl
      exact hkey (mem_qualified n m)
    simp [haliases, hne, hconf key hkey]
  have hbound : (conf₁.aliases[qualified ns a]?).isSome = true ↔
      a = c.name ∨ (conf.aliases[qualified ns a]?).isSome = true := by
    rw [haliases, if_neg (c := ns = "chroot" ∧ _)]
    · by_cases hname : a = c.name
      · simp [hname]
      · have hne : qualified ns a ≠ qualified ns c.name := fun h => hname (qualified_injective h)
        simp [hname, hne]
    · rintro ⟨rfl, -, h⟩
      exact qualified_chroot_ne_session _ _ h
  have hfold := warnings_foldl ns c.name kf a hconf₁ hnames []
  rw [hloop] at hfold
  simpa only [hbound, warningsFor, List.filter_nil, List.nil_append] using hfold

/-- An alias is not warned about if it is new and listed once, and not the name. -/
theorem warningsFor_eq_nil_iff
    {a : String}
    (hconf : conf.AllQualified)
    (hnames : ∀ a ∈ c.aliases, ':' ∉ a.toList)
    (hadd : conf.addWarned ns c kf = .ok (conf', warnings))
    (ha : a ∈ c.aliases) :
    warningsFor a warnings = [] ↔
      c.aliases.count a = 1 ∧ a ≠ c.name ∧ conf.aliases[qualified ns a]? = none := by
  have hcount := List.count_pos_iff.mpr ha
  rw [warnings_addWarned hconf hnames hadd, List.replicate_eq_nil_iff]
  by_cases hname : a = c.name
  · rw [if_pos (.inl hname)]
    exact ⟨fun hzero => by omega, fun h => absurd hname h.2.1⟩
  · cases hfree : conf.aliases[qualified ns a]? with
    | none =>
        simp only [hname, Option.isSome_none, Bool.false_eq_true, or_self, if_false, ne_eq,
          not_false_eq_true, and_true]
        omega
    | some target =>
        simp only [hname, Option.isSome_some, or_true, if_true, ne_eq, not_false_eq_true,
          reduceCtorEq, and_false, iff_false]
        omega

/-- A warning that names no chroot is not one that is documented. -/
theorem warningsFor_eq_nil_of_reported
    {a : String}
    (hconf : conf.AllQualified)
    (hresolves : conf.Resolves)
    (hnames : ∀ a ∈ c.aliases, ':' ∉ a.toList)
    (hadd : conf.addWarned ns c kf = .ok (conf', warnings))
    (h : Reported ns c conf conf' warnings)
    (ha : a ∈ c.aliases) :
    warningsFor a warnings = [] := by
  rcases (h a ha).1 with h | h | ⟨target, warning, hold, -, -, hone, hholder⟩
  · exact h.2
  · exact h.2
  · -- the warning names no chroot, and the alias leads to one
    have hmem : warning ∈ warningsFor a warnings := by simp [hone]
    rw [warnings_addWarned hconf hnames hadd] at hmem
    rw [List.eq_of_mem_replicate hmem] at hholder
    obtain ⟨n, m, _, rfl, -⟩ := hresolves.targets _ target hold
    have hsep := mem_qualified n m
    rw [← hholder] at hsep
    cases hsep

theorem reported_iff_of_resolves
    (hconf : conf.AllQualified)
    (hresolves : conf.Resolves)
    (hnames : ∀ a ∈ c.aliases, ':' ∉ a.toList)
    (hadd : conf.addWarned ns c kf = .ok (conf', warnings)) :
    Reported ns c conf conf' warnings ↔
      c.aliases.Nodup ∧ c.name ∉ c.aliases ∧
        ∀ a ∈ c.aliases, conf.aliases[qualified ns a]? = none := by
  have hadded : Added ns c conf conf' := by
    have hfst := addWarned_fst ns c kf conf
    rw [hadd] at hfst
    exact added_of_add hfst.symm
  constructor
  · intro h
    have honce : ∀ a ∈ c.aliases, c.aliases.count a = 1 ∧ a ≠ c.name ∧
        conf.aliases[qualified ns a]? = none := fun a ha =>
      (warningsFor_eq_nil_iff hconf hnames hadd ha).mp
        (warningsFor_eq_nil_of_reported hconf hresolves hnames hadd h ha)
    refine ⟨List.nodup_iff_count_le_one.mpr fun a => ?_, fun hname => ?_,
      fun a ha => (honce a ha).2.2⟩
    · by_cases ha : a ∈ c.aliases
      · exact Nat.le_of_eq (honce a ha).1
      · rw [List.count_eq_zero_of_not_mem ha]
        exact Nat.zero_le 1
    · exact (honce c.name hname).2.1 rfl
  · rintro ⟨hnodup, hname, hfree⟩ a ha
    have hne : a ≠ c.name := fun heq => hname (heq ▸ ha)
    have hnone := (warningsFor_eq_nil_iff hconf hnames hadd ha).mpr
      ⟨List.count_eq_one_of_mem hnodup ha, hne, hfree a ha⟩
    have hbound : conf'.aliases[qualified ns a]? = some (qualified ns c.name) := by
      rw [hadded.aliases, hfree a ha, if_pos (.inr (.inr ⟨a, ha, .inl rfl⟩))]
      rfl
    refine ⟨.inl ⟨hbound, hnone⟩, fun h => hne h.2.1, fun h => ?_, fun h => hne h.1.1⟩
    obtain ⟨target, _, hold, -⟩ := h.2
    rw [hfree a ha] at hold
    cases hold

/-- **When the aliases of a new chroot are reported as documented**, whatever was loaded before:
they are all new, and none of them is the name of the chroot or is listed twice. -/
theorem reported_iff
    (cfg : SbuildConfig) (calls : List Call)
    (hnames : ∀ a ∈ c.aliases, isValidSessionname a = true)
    (hadd : (run cfg empty calls).addWarned ns c kf = .ok (conf', warnings)) :
    Reported ns c (run cfg empty calls) conf' warnings ↔
      c.aliases.Nodup ∧ c.name ∉ c.aliases ∧
        ∀ a ∈ c.aliases, (run cfg empty calls).aliases[qualified ns a]? = none :=
  reported_iff_of_resolves (run_keeps cfg AllQualified.of_added allQualified_empty calls)
    (resolves_run cfg resolves_empty calls)
    (fun a ha => Chroot.not_mem_of_isValidSessionname (hnames a ha)) hadd

/-- A directory chroot with an alias. -/
def directoryChroot (name : String) : Keyfile :=
  ((Keyfile.empty.setValue name "type" "directory").setValue name "directory" "/srv").setValue
    name "aliases" "unstable"

/-- What is left behind by a chroot with an alias, after others have been loaded. -/
def addDirectory (calls : List Call) (name : String) :
    Option (Chroot × ChrootConfig × List AliasWarning) :=
  match loadChroot .standard "chroot" (directoryChroot name) name with
  | .error _ => none
  | .ok c =>
      match (run .standard empty calls).addWarned "chroot" c (directoryChroot name) with
      | .error _ => none
      | .ok result => some (c, result)

theorem addDirectory_eq_some
    {calls : List Call} {name : String}
    (h : addDirectory calls name = some (c, conf', warnings)) :
    loadChroot .standard "chroot" (directoryChroot name) name = .ok c ∧
      (run .standard empty calls).addWarned "chroot" c (directoryChroot name) =
        .ok (conf', warnings) := by
  unfold addDirectory at h
  split at h
  · cases h
  · split at h
    · cases h
    · cases h
      exact ⟨‹_›, ‹_›⟩

/-- The first chroot with an alias. -/
theorem reported_directory :
    ∃ c conf' warnings, addDirectory [] "sid" = some (c, conf', warnings) ∧
      Reported "chroot" c empty conf' warnings := by
  have hrun : (addDirectory [] "sid").any (fun r => r.1.name = "sid" &&
      r.1.aliases = ["unstable"]) = true := by decide +kernel
  obtain ⟨⟨c, conf', warnings⟩, hadd, hc⟩ := Option.any_eq_true _ _ |>.mp hrun
  simp only [Bool.and_eq_true, decide_eq_true_eq] at hc
  obtain ⟨hload, hwarned⟩ := addDirectory_eq_some hadd
  refine ⟨c, conf', warnings, hadd, (reported_iff .standard []
    (Chroot.validNames_loadChroot hload).aliases hwarned).mpr ?_⟩
  rw [hc.1, hc.2]
  exact ⟨by simp, by simp, fun a _ => by simp [run, empty]⟩

/-- **The warning about an alias that another chroot has does not name that chroot.** -/
theorem not_reported_directory :
    ∃ c conf' warnings,
      addDirectory [.loadKeyfile "chroot" (directoryChroot "sid")] "wheezy" =
          some (c, conf', warnings) ∧
        conf'.aliases["chroot:unstable"]? = some "chroot:sid" ∧
          warnings = [{ line := 0, group := "wheezy", name := "unstable", holder := "" }] ∧
            ¬ Reported "chroot" c
              (run .standard empty [.loadKeyfile "chroot" (directoryChroot "sid")]) conf' warnings := by
  have hrun : (addDirectory [.loadKeyfile "chroot" (directoryChroot "sid")] "wheezy").any (fun r =>
      r.1.aliases = ["unstable"] && r.2.1.aliases["chroot:unstable"]? = some "chroot:sid" &&
        r.2.2 = [{ line := 0, group := "wheezy", name := "unstable", holder := "" }] &&
          r.1.name = "wheezy") = true := by
    decide +kernel
  obtain ⟨⟨c, conf', warnings⟩, hadd, hc⟩ := Option.any_eq_true _ _ |>.mp hrun
  simp only [Bool.and_eq_true, decide_eq_true_eq] at hc
  obtain ⟨⟨⟨halias, hbound⟩, hwarnings⟩, hname⟩ := hc
  refine ⟨c, conf', warnings, hadd, hbound, hwarnings, fun h => ?_⟩
  have hone := h "unstable" (by simp [halias])
  have hbound' : conf'.aliases[qualified "chroot" "unstable"]? = some "chroot:sid" := hbound
  subst hwarnings
  rcases hone.1 with h | h | ⟨target, warning, -, -, hkept, hlogged, hholder⟩
  · simp [warningsFor] at h
  · simp [warningsFor] at h
  · rw [hbound'] at hkept
    cases hkept
    simp only [warningsFor, List.filter_cons, decide_true, if_true, List.filter_nil,
      List.cons.injEq, and_true] at hlogged
    rw [← hlogged] at hholder
    simp at hholder

end Reporting

end ChrootConfig

end Schroot
