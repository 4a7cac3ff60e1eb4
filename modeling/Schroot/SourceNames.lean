import Schroot.ChrootAliases
import Schroot.ChrootNames

/-!
# Compatibility names of source chroots

A source chroot is found in its namespace by the names of the chroot it belongs to.  For
compatibility it can be found without a namespace, too, by names that end in `-source`; these are
added in the loop over the aliases.

**Input.**  The groups of a keyfile, which are loaded one after the other.

**Results.**
* `findAlias_of_kept`: a source chroot that a name leads to is still found at the end.
* `findAlias_ne_of_others`: a name that does not lead to it when it is added never does.
* `compatNames_iff`: when all compatibility names are found.
-/

namespace Schroot

namespace ChrootConfig

section Loading

variable {cfg : SbuildConfig} {ns : String} {kf : Keyfile}

/-- The compatibility name of a name. -/
def sourceName (name : String) : String :=
  name ++ "-source"

/-- A chroot `c` is loaded from a group of the keyfile, and its source chroot is added to `conf₁`.
The configuration at the end is `conf`. -/
structure LoadsSource (cfg : SbuildConfig) (ns : String) (kf : Keyfile) (c source : Chroot)
    (conf₁ conf : ChrootConfig) : Prop where
  loads : ∃ before group after conf₀ conf₂, kf.getGroups = before ++ group :: after ∧
    loadGroups cfg ns kf empty before = (conf₀, none) ∧ loadChroot cfg ns kf group = .ok c ∧
    conf₀.add ns c kf = .ok conf₁ ∧ loadSource cfg c = .ok (some source) ∧
    conf₁.add "source" source kf = .ok conf₂
  final : conf = (loadGroups cfg ns kf empty kf.getGroups).1

/-- **The compatibility names are found**: the name of the chroot and its aliases, with the suffix,
lead to the source chroot, unless they were taken before. -/
def CompatNames (c source : Chroot) (conf₁ conf : ChrootConfig) : Prop :=
  ∀ x ∈ c.name :: c.aliases, conf₁.aliases[qualified "chroot" (sourceName x)]? = none →
    conf.findAlias "chroot" (sourceName x) = .ok (some source)

theorem loadGroups_append
    {before after : List String} {conf conf₀ : ChrootConfig}
    (h : loadGroups cfg ns kf conf before = (conf₀, none)) :
    loadGroups cfg ns kf conf (before ++ after) = loadGroups cfg ns kf conf₀ after := by
  induction before generalizing conf with
  | nil =>
      cases h
      rfl
  | cons group before ih =>
      rw [List.cons_append]
      rw [loadGroups] at h ⊢
      cases hload : loadChroot cfg ns kf group with
      | error e => simp [hload] at h
      | ok c =>
          simp only [hload] at h ⊢
          cases hadd : conf.add ns c kf with
          | error e => simp [hadd] at h
          | ok conf₁ =>
              simp only [hadd] at h ⊢
              cases hsource : loadSource cfg c with
              | error e => simp [hsource] at h
              | ok source =>
                  cases source with
                  | none =>
                      simp only [hsource] at h ⊢
                      exact ih h
                  | some source =>
                      simp only [hsource] at h ⊢
                      cases hadd' : conf₁.add "source" source kf with
                      | error e => simp [hadd'] at h
                      | ok conf₂ =>
                          simp only [hadd'] at h ⊢
                          exact ih h

/-- The rest of the groups, after a source chroot has been added. -/
theorem exists_rest
    {c source : Chroot} {conf₁ conf : ChrootConfig}
    (h : LoadsSource cfg ns kf c source conf₁ conf) :
    ∃ conf₀ conf₂ after, Chroot.ValidNames c ∧ Chroot.SameNames c source ∧
      Added ns c conf₀ conf₁ ∧ Added "source" source conf₁ conf₂ ∧
        conf = (loadGroups cfg ns kf conf₂ after).1 ∧ Resolves conf₂ := by
  obtain ⟨before, group, after, conf₀, conf₂, hgroups, hbefore, hload, hadd, hsource, hadd'⟩ :=
    h.loads
  have hresolves : Resolves conf₀ := by
    have hfirst : Resolves (loadGroups cfg ns kf empty before).1 :=
      loadGroups_keeps (fun hx _ => resolves_add hx) (fun hx _ _ => resolves_add hx)
        resolves_empty before
    rwa [hbefore] at hfirst
  have hclone : c.cloneSource cfg = .ok (some source) := by
    unfold loadSource at hsource
    split at hsource
    · split at hsource
      · exact mapError_eq_ok_iff.mp hsource
      · cases hsource
    · cases hsource
  refine ⟨conf₀, conf₂, after, Chroot.validNames_loadChroot hload,
    Chroot.sameNames_cloneSource hclone, added_of_add hadd, added_of_add hadd', ?_,
    resolves_add (resolves_add hresolves hadd) hadd'⟩
  rw [h.final, hgroups, loadGroups_append hbefore, loadGroups]
  simp only [hload, hadd, hsource, hadd']

end Loading

section Finding

variable {conf : ChrootConfig} {name : String} {source : Chroot}

theorem hintedName_of_not_mem
    (h : ':' ∉ name.toList) :
    hintedName "chroot" name = ("chroot", name) := by
  simp [hintedName, getNamespace, h]

theorem sourceName_injective
    {name' : String}
    (h : sourceName name = sourceName name') :
    name = name' := by
  have hlist := congrArg String.toList h
  simp only [sourceName, String.toList_append, List.append_cancel_right_eq] at hlist
  exact String.toList_injective hlist

theorem not_mem_sourceName
    (h : ':' ∉ name.toList) :
    ':' ∉ (sourceName name).toList := by
  simp [sourceName, String.toList_append, h]

/-- A name that leads to the source chroot finds it. -/
theorem findAlias_of_kept
    (hresolves : conf.Resolves)
    (hname : ':' ∉ name.toList)
    (halias : conf.aliases[qualified "chroot" name]? = some (qualified "source" source.name))
    (hfind : conf.findChroot "source" source.name = some source) :
    conf.findAlias "chroot" name = .ok (some source) := by
  rw [findAlias, hintedName_of_not_mem hname]
  simp only [halias]
  exact findChrootHinted_qualified "chroot" hresolves hfind

/-- A name that leads only to chroots of other names does not find the source chroot. -/
theorem findAlias_ne_of_others
    (hresolves : conf.Resolves)
    (hname : ':' ∉ name.toList)
    (hothers : ∀ target : String, conf.aliases[qualified "chroot" name]? = some target →
      ∃ n d, target = qualified n d.name ∧ conf.findChroot n d.name = some d ∧
        d.name ≠ source.name) :
    conf.findAlias "chroot" name ≠ .ok (some source) := by
  intro hfound
  rw [findAlias, hintedName_of_not_mem hname] at hfound
  cases halias : conf.aliases[qualified "chroot" name]? with
  | some target =>
      simp only [halias] at hfound
      obtain ⟨n, d, rfl, hd, hne⟩ := hothers target halias
      rw [findChrootHinted_qualified "chroot" hresolves hd] at hfound
      cases hfound
      exact hne rfl
  | none =>
      -- a chroot of that name would be led to by it
      simp only [halias, findChrootHinted, hintedName_of_not_mem hname, findChrootInNamespace,
        bind_eq_ok_iff] at hfound
      obtain ⟨chroots, hns, hfound⟩ := hfound
      unfold findNamespace at hns
      split at hns
      · rename_i chroots' hns'
        cases hns
        have hfind : conf.findChroot "chroot" name = some source := by
          rw [findChroot, hns', Option.bind_some]
          exact Except.ok.inj hfound
        rw [hresolves.names _ _ _ hfind] at halias
        cases halias
      · cases hns

end Finding

section Rest

variable {cfg : SbuildConfig} {ns name : String} {kf : Keyfile} {c source : Chroot}

/-- A name leads to the source chroot. -/
structure Leads (name : String) (source : Chroot) (conf : ChrootConfig) : Prop where
  resolves : conf.Resolves
  alias_eq : conf.aliases[qualified "chroot" name]? = some (qualified "source" source.name)
  found : conf.findChroot "source" source.name = some source

/-- A name leads, if to anything, to chroots of other names. -/
structure LeadsElsewhere (ns name : String) (c source : Chroot) (conf : ChrootConfig) : Prop where
  resolves : conf.Resolves
  others : ∀ target : String, conf.aliases[qualified "chroot" name]? = some target →
    ∃ n d, target = qualified n d.name ∧ conf.findChroot n d.name = some d ∧ d.name ≠ c.name
  chroot : conf.findChroot ns c.name = some c
  found : conf.findChroot "source" c.name = some source

/-- What is found stays when a chroot is added. -/
theorem findChroot_of_added
    {n m : String} {d : Chroot} {conf conf' : ChrootConfig}
    (hadded : Added ns c conf conf')
    (h : conf.findChroot n m = some d) :
    conf'.findChroot n m = some d := by
  rw [hadded.chroots, if_neg]
  · exact h
  · rintro ⟨rfl, rfl⟩
    rw [hadded.fresh.1] at h
    cases h

theorem Leads.add
    {d : Chroot} {conf conf' : ChrootConfig}
    (h : Leads name source conf)
    (hadd : conf.add ns d kf = .ok conf') :
    Leads name source conf' := by
  have hadded := added_of_add hadd
  refine ⟨resolves_add h.resolves hadd, ?_, findChroot_of_added hadded h.found⟩
  rw [hadded.aliases, h.alias_eq]
  rfl

/-- A chroot that is added has another name than those in its namespace. -/
theorem LeadsElsewhere.add
    {n : String} {d : Chroot} {conf conf' : ChrootConfig}
    (h : LeadsElsewhere ns name c source conf)
    (hn : n = ns ∨ n = "source")
    (hadd : conf.add n d kf = .ok conf') :
    LeadsElsewhere ns name c source conf' := by
  have hadded := added_of_add hadd
  have hne : d.name ≠ c.name := by
    intro heq
    have hfresh := hadded.fresh.1
    rw [heq] at hfresh
    rcases hn with rfl | rfl
    · rw [h.chroot] at hfresh
      cases hfresh
    · rw [h.found] at hfresh
      cases hfresh
  refine ⟨resolves_add h.resolves hadd, fun target htarget => ?_,
    findChroot_of_added hadded h.chroot, findChroot_of_added hadded h.found⟩
  rw [hadded.aliases, Option.or_eq_some_iff] at htarget
  rcases htarget with htarget | ⟨-, htarget⟩
  · obtain ⟨n', d', rfl, hd', hne'⟩ := h.others target htarget
    exact ⟨n', d', rfl, findChroot_of_added hadded hd', hne'⟩
  · split at htarget <;> cases htarget
    exact ⟨n, d, rfl, by rw [hadded.chroots, if_pos ⟨rfl, rfl⟩], hne⟩

/-- A compatibility name has no namespace. -/
theorem separator_notMem_sourceName
    {x : String}
    (hvalid : c.ValidNames)
    (hx : x ∈ c.name :: c.aliases) :
    ':' ∉ (sourceName x).toList := by
  refine not_mem_sourceName (Chroot.not_mem_of_isValidSessionname ?_)
  rcases List.mem_cons.mp hx with rfl | hx
  · exact hvalid.name
  · exact hvalid.aliases x hx

/-- **An alias leads to the source chroot** once that is added, and then for good. -/
theorem findAlias_of_mem_aliases
    {conf₁ conf : ChrootConfig} {x : String}
    (h : LoadsSource cfg ns kf c source conf₁ conf)
    (hx : x ∈ c.aliases)
    (hfree : conf₁.aliases[qualified "chroot" (sourceName x)]? = none) :
    conf.findAlias "chroot" (sourceName x) = .ok (some source) := by
  obtain ⟨conf₀, conf₂, after, hvalid, ⟨-, haliases⟩, -, hadded, hconf, hresolves⟩ := exists_rest h
  have hleads : Leads (sourceName x) source conf₂ := by
    refine ⟨hresolves, ?_, ?_⟩
    · rw [hadded.aliases, hfree, if_pos]
      · rfl
      · exact .inr (.inr ⟨x, haliases ▸ hx, .inr ⟨rfl, rfl⟩⟩)
    · rw [hadded.chroots, if_pos ⟨rfl, rfl⟩]
  have hlast : Leads (sourceName x) source conf := by
    rw [hconf]
    exact loadGroups_keeps (fun hy _ => hy.add) (fun hy _ _ => hy.add) hleads after
  exact findAlias_of_kept hlast.resolves
    (separator_notMem_sourceName hvalid (List.mem_cons_of_mem _ hx)) hlast.alias_eq hlast.found

/-- **The name does not lead to the source chroot** unless it is one of the aliases. -/
theorem findAlias_name_ne
    {conf₁ conf : ChrootConfig}
    (h : LoadsSource cfg ns kf c source conf₁ conf)
    (hnot : c.name ∉ c.aliases)
    (hfree : conf₁.aliases[qualified "chroot" (sourceName c.name)]? = none) :
    conf.findAlias "chroot" (sourceName c.name) ≠ .ok (some source) := by
  obtain ⟨conf₀, conf₂, after, hvalid, ⟨hname, haliases⟩, hfirst, hsecond, hconf, hresolves⟩ :=
    exists_rest h
  have hnotAdded : ¬ AddedKey "source" source (qualified "chroot" (sourceName c.name)) := by
    rintro (hkey | ⟨hns, -⟩ | ⟨a, ha, hkey | ⟨-, hkey⟩⟩)
    · exact qualified_chroot_ne_source _ _ hkey.symm
    · exact absurd hns (by decide)
    · exact qualified_chroot_ne_source _ _ hkey.symm
    · rw [haliases] at ha
      rw [sourceName_injective (qualified_injective hkey)] at hnot
      exact hnot ha
  have hleads : LeadsElsewhere ns (sourceName c.name) c source conf₂ := by
    refine ⟨hresolves, fun target htarget => ?_, findChroot_of_added hsecond ?_, ?_⟩
    · rw [hsecond.aliases, hfree, if_neg hnotAdded] at htarget
      cases htarget
    · rw [hfirst.chroots, if_pos ⟨rfl, rfl⟩]
    · rw [hsecond.chroots, if_pos ⟨rfl, hname.symm⟩]
  have hlast : LeadsElsewhere ns (sourceName c.name) c source conf := by
    rw [hconf]
    exact loadGroups_keeps (fun hy _ => hy.add (.inl rfl)) (fun hy _ _ => hy.add (.inr rfl))
      hleads after
  refine findAlias_ne_of_others hlast.resolves
    (separator_notMem_sourceName hvalid List.mem_cons_self) ?_
  rw [hname]
  exact hlast.others

/-- **When all compatibility names are found**: the name of the chroot is one of its aliases, or
its compatibility name was taken before. -/
theorem compatNames_iff
    {conf₁ conf : ChrootConfig}
    (h : LoadsSource cfg ns kf c source conf₁ conf) :
    CompatNames c source conf₁ conf ↔
      c.name ∈ c.aliases ∨ conf₁.aliases[qualified "chroot" (sourceName c.name)]? ≠ none := by
  constructor
  · intro hall
    by_contra hnot
    rw [not_or, not_not] at hnot
    exact findAlias_name_ne h hnot.1 hnot.2 (hall c.name List.mem_cons_self hnot.2)
  · rintro hcase x hx hfree
    rcases List.mem_cons.mp hx with rfl | hx
    · rcases hcase with hmem | htaken
      · exact findAlias_of_mem_aliases h hmem hfree
      · exact absurd hfree htaken
    · exact findAlias_of_mem_aliases h hx hfree

/-- A file chroot with aliases. -/
def fileChroot (aliases : String) : Keyfile :=
  ((Keyfile.empty.setValue "wheezy" "type" "file").setValue "wheezy" "file" "/srv/wheezy.tar").setValue
    "wheezy" "aliases" aliases

/-- The chroot that is loaded from it, with its source chroot and the configuration which that
is added to. -/
def loadFileChroot (aliases : String) : Option (Chroot × Chroot × ChrootConfig) :=
  match loadChroot .standard "chroot" (fileChroot aliases) "wheezy" with
  | .error _ => none
  | .ok c =>
      match empty.add "chroot" c (fileChroot aliases), loadSource .standard c with
      | .ok conf₁, .ok (some source) =>
          if okAnd (conf₁.add "source" source (fileChroot aliases)) fun _ => true then
            some (c, source, conf₁)
          else
            none
      | _, _ => none

theorem loadsSource_of_loadFileChroot
    {aliases : String} {conf₁ : ChrootConfig}
    (hgroups : (fileChroot aliases).getGroups = ["wheezy"])
    (h : loadFileChroot aliases = some (c, source, conf₁)) :
    LoadsSource .standard "chroot" (fileChroot aliases) c source conf₁
      (loadGroups .standard "chroot" (fileChroot aliases) empty
        (fileChroot aliases).getGroups).1 := by
  unfold loadFileChroot at h
  split at h
  · cases h
  · rename_i hload
    split at h
    · rename_i hadd hsource
      split at h
      · rename_i hok
        obtain ⟨conf₂, hadd', -⟩ := okAnd_eq_true_iff.mp hok
        cases h
        exact ⟨⟨[], "wheezy", [], empty, conf₂, hgroups, rfl, hload, hadd, hsource, hadd'⟩, rfl⟩
      · cases h
    · cases h

/-- A chroot whose name is among its aliases. -/
theorem compatNames_fileChroot :
    ∃ c source conf₁, loadFileChroot "stable,wheezy" = some (c, source, conf₁) ∧
      CompatNames c source conf₁ (loadGroups .standard "chroot" (fileChroot "stable,wheezy") empty
        (fileChroot "stable,wheezy").getGroups).1 := by
  have hgroups : (fileChroot "stable,wheezy").getGroups = ["wheezy"] := by decide +kernel
  have hrun : (loadFileChroot "stable,wheezy").any (fun r => r.1.aliases.contains r.1.name) = true := by
    decide +kernel
  obtain ⟨⟨c, source, conf₁⟩, hload, hmem⟩ := Option.any_eq_true _ _ |>.mp hrun
  exact ⟨c, source, conf₁, hload, (compatNames_iff (loadsSource_of_loadFileChroot hgroups hload)).mpr
    (.inl (by simpa using hmem))⟩

/-- **The source chroot of a chroot with another alias is not found by its compatibility name.** -/
theorem not_compatNames_fileChroot :
    ∃ c source conf₁ conf, loadFileChroot "stable" = some (c, source, conf₁) ∧
      LoadsSource .standard "chroot" (fileChroot "stable") c source conf₁ conf ∧
        conf.findAlias "chroot" "wheezy-source" = .ok none ∧
          ¬ CompatNames c source conf₁ conf := by
  have hgroups : (fileChroot "stable").getGroups = ["wheezy"] := by decide +kernel
  have hrun : (loadFileChroot "stable").any (fun r => r.1.name = "wheezy" &&
      r.2.2.aliases["chroot:wheezy-source"]? = none) = true := by decide +kernel
  have hmissing : okAnd ((loadGroups .standard "chroot" (fileChroot "stable") empty
      (fileChroot "stable").getGroups).1.findAlias "chroot" "wheezy-source") Option.isNone =
        true := by
    decide +kernel
  obtain ⟨⟨c, source, conf₁⟩, hload, hc⟩ := Option.any_eq_true _ _ |>.mp hrun
  obtain ⟨found, hfound, hnone⟩ := okAnd_eq_true_iff.mp hmissing
  rw [Option.isNone_iff_eq_none] at hnone
  subst hnone
  simp only [Bool.and_eq_true, decide_eq_true_eq] at hc
  refine ⟨c, source, conf₁, _, hload, loadsSource_of_loadFileChroot hgroups hload, hfound,
    fun hall => ?_⟩
  have hname := hall c.name List.mem_cons_self
  rw [hc.1] at hname
  have hkey : sourceName "wheezy" = "wheezy-source" := by decide
  have hqualified : qualified "chroot" "wheezy-source" = "chroot:wheezy-source" := by decide
  rw [hkey, hqualified, hfound] at hname
  cases hname hc.2

end Rest

end ChrootConfig

end Schroot
