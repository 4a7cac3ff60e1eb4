import Schroot.ChrootLegible
import Schroot.ProfileData

/-!
# Reading what a chroot has written

A keyfile that has the values a chroot writes is read key by key into a new chroot.  The keys of
the base class and those of a type put back the data that they were written for.

**Results.**
* `readKeys_baseKeys`, `readKeys_typeKeys`: the base class and the types.
-/

namespace Schroot

namespace Chroot

section Keys

/-- **The keyfile has what the chroot writes**, in the group of its name. -/
def HasValues (kf : Keyfile) (c : Chroot) : Prop :=
  ∀ key, kf.value? c.name key = c.writtenValues[key]?

variable {kf : Keyfile} {spec : KeySpec Chroot} {specs : List (KeySpec Chroot)} {x y : Chroot}

/-- A key that is missing is passed over. -/
theorem readKeys_skip
    {result : Except KeyfileError Chroot}
    (hv : kf.value? x.name spec.key = none)
    (hp : spec.priority ≠ .required)
    (h : readKeys kf specs x = result) :
    readKeys kf (spec :: specs) x = result := by
  have hget : spec.get kf x.name x = .ok x :=
    (KeySpec.get_eq_ok_iff spec kf x.name x x).mpr (.inl ⟨.inl hv, hp, rfl⟩)
  rw [readKeys_cons, hget]
  exact h

/-- A key that is there leads to its setter call. -/
theorem readKeys_set
    {v : String} {act : Setter Chroot} {result : Except KeyfileError Chroot}
    (hv : kf.value? x.name spec.key = some v)
    (hread : spec.read v = .ok (some act))
    (hp : spec.priority ≠ .disallowed)
    (hact : act x = .ok y)
    (h : readKeys kf specs y = result) :
    readKeys kf (spec :: specs) x = result := by
  have hget : spec.get kf x.name x = .ok y :=
    (KeySpec.get_eq_ok_iff spec kf x.name x y).mpr (.inr ⟨act, ⟨v, hv, hread⟩, hp, hact⟩)
  rw [readKeys_cons, hget]
  exact h

theorem readKeys_nil : readKeys kf [] x = .ok x := rfl

variable {c : Chroot} {key value : String}

/-- What the chroot writes is there. -/
theorem HasValues.of_mem
    (h : HasValues kf c)
    (hc : WellKeyed c)
    (hmem : (key, value) ∈ c.keyfileEntries) :
    kf.value? c.name key = some value := by
  rw [h, writtenValues_eq_some_iff hc]
  exact hmem

theorem HasValues.of_mem_base
    (h : HasValues kf c)
    (hc : WellKeyed c)
    (hmem : (key, value) ∈ c.baseEntries) :
    kf.value? c.name key = some value :=
  h.of_mem hc (by simp [keyfileEntries, hmem])

theorem HasValues.of_mem_type
    (h : HasValues kf c)
    (hc : WellKeyed c)
    (hmem : (key, value) ∈ c.typeEntries) :
    kf.value? c.name key = some value :=
  h.of_mem hc (by simp [keyfileEntries, hmem])

/-- What it does not write is not. -/
theorem HasValues.base_none
    (h : HasValues kf c)
    (hc : WellKeyed c)
    (hkey : key ∈ baseKeyNames)
    (hnone : key ∉ c.baseEntries.map Prod.fst) :
    kf.value? c.name key = none := by
  rw [h, writtenValues_base hc hkey]
  exact SortedMap.lookup_eq_none_iff.mpr hnone

theorem HasValues.other_none
    (h : HasValues kf c)
    (hc : WellKeyed c)
    (hplain : key ∉ plainKeyNames)
    (hdotted : ¬ IsDotted key) :
    kf.value? c.name key = none := by
  rw [h, writtenValues_none hc hplain hdotted]

end Keys

section BaseClass

variable {cfg : SbuildConfig} {kf : Keyfile} {c x y : Chroot}

theorem firstLine_of_singleLine
    {value : String}
    (h : SingleLine value)
    (hne : value ≠ "") :
    firstLine value = some value := by
  have hlist : value.toList ≠ [] := fun e => hne (String.toList_eq_nil_iff.mp e)
  rw [firstLine, LineText.records_of_not_mem_self h, if_neg hlist]
  simp

theorem setAliases_of_valid
    {aliases : List String}
    (h : ∀ a ∈ aliases, isValidSessionname a = true)
    (c : Chroot) :
    setAliases aliases c = .ok { c with aliases := aliases } := by
  have hcheck : aliases.forM checkAlias = .ok () := by
    induction aliases with
    | nil => rfl
    | cons a aliases ih =>
        have ha := h a (by simp)
        have hok : checkAlias a = .ok () := by
          simp [checkAlias, ha, not_mem_of_isValidSessionname ha]
        show (checkAlias a >>= fun _ => aliases.forM checkAlias) = .ok ()
        rw [hok]
        exact ih fun b hb => h b (by simp [hb])
  rw [setAliases, hcheck]
  rfl

theorem setMountLocation_of_legible
    {location : String}
    (h : location = "" ∨ isAbsname location = true)
    (c : Chroot) :
    setMountLocation location c = .ok { c with mountLocation := location } := by
  rw [setMountLocation, if_neg]
  rintro ⟨hne, habs⟩
  rw [habs] at h
  exact hne (h.resolve_right (by decide))

theorem setVerbosity_print (v : Verbosity) (c : Chroot) :
    setVerbosity v.print c = .ok { c with verbosity := v } := by
  cases v <;> rfl

theorem readList_joinStrings
    {items : List String}
    (h : AllItems items)
    (method : List String → Setter Chroot) :
    readList method (joinStrings ',' items) = .ok (some (method items)) := by
  rw [readList, splitString_joinStrings h]

theorem readBool_printBool (method : Bool → Setter Chroot) (b : Bool) :
    readBool method (printBool b) = .ok (some (method b)) := by
  rw [readBool, parseBool_printBool]
  rfl

/-- The chroot in which the values of the base class are those of another one. -/
def withBase (c x : Chroot) : Chroot :=
  { x with
    description := c.description
    users := c.users
    groups := c.groups
    rootUsers := c.rootUsers
    rootGroups := c.rootGroups
    aliases := c.aliases
    preserveEnvironment := c.preserveEnvironment
    defaultShell := c.defaultShell
    environmentFilter := c.environmentFilter
    commandPrefix := c.commandPrefix
    verbosity := c.verbosity }

/-- **The keys of the base class are read back**, once the profile is set.  The lists of users are
split where the names that were written have commas. -/
theorem readKeys_baseKeys
    (session : Bool)
    (hkf : HasValues kf c)
    (hc : WellKeyed c)
    (hsession : c.isSession = session)
    (hlists : AllItems c.groups ∧ AllItems c.rootGroups ∧ AllItems c.commandPrefix)
    (haliases : ∀ a ∈ c.aliases, isValidSessionname a = true)
    (hitems : AllItems c.aliases)
    (hfilter : c.environmentFilter ≠ "")
    (hline : SingleLine c.environmentFilter)
    (hregex : cfg.regexValid c.environmentFilter = true)
    (hlocation : session = true → c.mountLocation = "" ∨ isAbsname c.mountLocation = true)
    (hvalid : session = true → ':' ∉ c.name.toList ∧ isValidSessionname c.name = true)
    (hname : x.name = c.name)
    (hframe : y.name = c.name)
    (hprofile : setProfile c.profile x = .ok y) :
    readKeys kf (baseKeys cfg session) x =
      .ok { withBase c (if c.scriptConfig = "" then y else setScriptConfig c.scriptConfig y) with
        users := splitString (joinStrings ',' c.users) ","
        rootUsers := splitString (joinStrings ',' c.rootUsers) ","
        mountLocation := if session then c.mountLocation else
          (if c.scriptConfig = "" then y else setScriptConfig c.scriptConfig y).mountLocation } := by
  have hbase : ∀ {key value}, (key, value) ∈ c.baseEntries → kf.value? c.name key = some value :=
    fun hmem => hkf.of_mem_base hc hmem
  have hnone : ∀ {key}, key ∉ plainKeyNames → ¬ IsDotted key → kf.value? c.name key = none :=
    fun hplain hdotted => hkf.other_none hc hplain hdotted
  have hscript : ∀ specs result,
      readKeys kf specs (if c.scriptConfig = "" then y else setScriptConfig c.scriptConfig y) =
        result →
      readKeys kf ({ key := "script-config"
                     priority := if session then .optional else .deprecated
                     read := readString (pureSetter setScriptConfig) } :: specs) y = result := by
    intro specs result hrest
    by_cases hempty : c.scriptConfig = ""
    · rw [if_pos hempty] at hrest
      refine readKeys_skip ?_ (by cases session <;> decide) hrest
      have hkey : "script-config" ∈ baseKeyNames := by decide
      rw [hframe]
      exact hkf.base_none hc hkey (by simp [baseEntries, entryIf, hempty])
    · rw [if_neg hempty] at hrest
      refine readKeys_set (v := c.scriptConfig) ?_ rfl (by cases session <;> decide) rfl hrest
      rw [hframe]
      exact hbase (by simp [baseEntries, entryIf, hempty])
  obtain ⟨z, hz⟩ : ∃ z, z = if c.scriptConfig = "" then y else setScriptConfig c.scriptConfig y :=
    ⟨_, rfl⟩
  have hzname : z.name = c.name := by
    rw [hz]
    split
    · exact hframe
    · exact (frame_setScriptConfig _ y).name.trans hframe
  rw [← hz] at hscript ⊢
  have hxnone : ∀ {key}, key ∉ plainKeyNames → ¬ IsDotted key → kf.value? x.name key = none := by
    rw [hname]
    exact hnone
  have hznone : ∀ {key}, key ∉ plainKeyNames → ¬ IsDotted key → kf.value? z.name key = none := by
    rw [hzname]
    exact hnone
  have hzbase : ∀ {key value}, (key, value) ∈ c.baseEntries →
      kf.value? z.name key = some value := by
    rw [hzname]
    exact hbase
  have hprofile' : (setProfile c.profile x).mapError ObjectError.userdata = .ok y :=
    mapError_eq_ok_iff.mpr hprofile
  have hfilter' : readRegex cfg (pureSetter fun v c => { c with environmentFilter := v })
      c.environmentFilter =
        .ok (some (pureSetter (fun v c => { c with environmentFilter := v })
          c.environmentFilter)) := by
    simp [readRegex, firstLine_of_singleLine hline hfilter, hregex]
  -- the keys up to the script configuration are read in the first chroot
  refine readKeys_skip (hxnone (by decide) (by decide)) (by decide) ?_
  refine readKeys_skip (hxnone (by decide) (by decide)) (by decide) ?_
  refine readKeys_skip (hxnone (by decide) (by decide)) (by decide) ?_
  refine readKeys_skip (hxnone (by decide) (by decide)) (by decide) ?_
  refine readKeys_set (v := c.profile) (hname ▸ hbase (by simp [baseEntries])) rfl (by decide)
    hprofile' ?_
  refine hscript _ _ ?_
  have hpriority : kf.value? z.name "priority" = none := hznone (by decide) (by decide)
  refine readKeys_skip hpriority (by cases session <;> decide) ?_
  refine readKeys_set (v := joinStrings ',' c.aliases) (hzbase (by simp [baseEntries]))
    (readList_joinStrings hitems _) (by decide)
    (mapError_eq_ok_iff.mpr (setAliases_of_valid haliases z)) ?_
  refine readKeys_set (v := c.environmentFilter) (hzbase (by simp [baseEntries])) hfilter'
    (by simp) rfl ?_
  refine readKeys_set (v := c.description) (hzbase (by simp [baseEntries])) rfl (by decide)
    rfl ?_
  refine readKeys_set (v := joinStrings ',' c.users) (hzbase (by simp [baseEntries])) rfl
    (by decide) rfl ?_
  refine readKeys_set (v := joinStrings ',' c.groups) (hzbase (by simp [baseEntries]))
    (readList_joinStrings hlists.1 _) (by decide) rfl ?_
  refine readKeys_set (v := joinStrings ',' c.rootUsers) (hzbase (by simp [baseEntries])) rfl
    (by decide) rfl ?_
  refine readKeys_set (v := joinStrings ',' c.rootGroups) (hzbase (by simp [baseEntries]))
    (readList_joinStrings hlists.2.1 _) (by decide) rfl ?_
  -- the keys behind the two that only sessions have
  have htail : ∀ w : Chroot, w.name = c.name →
      readKeys kf ((baseKeys cfg session).drop 16) w =
        .ok { w with
          commandPrefix := c.commandPrefix
          verbosity := c.verbosity
          preserveEnvironment := c.preserveEnvironment
          defaultShell := c.defaultShell } := by
    intro w hwname
    have hwbase : ∀ {key value}, (key, value) ∈ c.baseEntries →
        kf.value? w.name key = some value := by
      rw [hwname]
      exact hbase
    refine readKeys_set (v := joinStrings ',' c.commandPrefix) (hwbase (by simp [baseEntries]))
      (readList_joinStrings hlists.2.2 _) (by decide) rfl ?_
    refine readKeys_set (v := c.verbosity.print) (hwbase (by simp [baseEntries])) rfl (by decide)
      (mapError_eq_ok_iff.mpr (setVerbosity_print c.verbosity _)) ?_
    refine readKeys_set (v := printBool c.preserveEnvironment) (hwbase (by simp [baseEntries]))
      (readBool_printBool _ _) (by decide) rfl ?_
    exact readKeys_set (v := c.defaultShell) (hwbase (by simp [baseEntries])) rfl (by decide)
      rfl rfl
  cases session with
  | false =>
      have hnothing : ∀ {key}, key ∈ baseKeyNames → key ∉ c.baseEntries.map Prod.fst →
          kf.value? z.name key = none := by
        rw [hzname]
        exact fun hkey hnone => hkf.base_none hc hkey hnone
      refine readKeys_skip (hnothing (by decide) (by simp [baseEntries, entryIf, hsession]))
        (by decide) ?_
      refine readKeys_skip (hnothing (by decide) (by simp [baseEntries, entryIf, hsession]))
        (by decide) ?_
      refine (htail _ ?_).trans rfl
      exact hzname
  | true =>
      obtain ⟨hcolon, hvalid⟩ := hvalid rfl
      refine readKeys_set (v := c.mountLocation)
        (hzbase (by simp [baseEntries, entryIf, hsession])) rfl (by decide)
        (mapError_eq_ok_iff.mpr (setMountLocation_of_legible (hlocation rfl) _)) ?_
      refine readKeys_set (v := c.name) (hzbase (by simp [baseEntries, entryIf, hsession])) rfl
        (by decide) (mapError_eq_ok_iff.mpr (setName_eq_ok_iff.mpr ⟨hcolon, hvalid, rfl⟩)) ?_
      refine (htail _ ?_).trans ?_
      · rfl
      · rw [← hzname]
        rfl

end BaseClass

section Types

variable {kf : Keyfile} {c x : Chroot}

theorem HasValues.type_none
    {key : String}
    (h : HasValues kf c)
    (hc : WellKeyed c)
    (hkey : key ∈ typeKeyNames)
    (hnone : key ∉ c.typeEntries.map Prod.fst) :
    kf.value? c.name key = none := by
  rw [h, writtenValues_type hc (.inl hkey)]
  exact SortedMap.lookup_eq_none_iff.mpr hnone

/-- The location belongs to file chroots and mountable ones. -/
theorem HasValues.location_none
    (h : HasValues kf c)
    (hc : WellKeyed c)
    (hfile : ∀ f, c.kind ≠ .file f)
    (hmount : .mountable ∉ c.facetKinds) :
    kf.value? c.name "location" = none := by
  have hown : OwnsKey .mountable "location" := .inl (by simp [facetKeyNames])
  have hnone : c.getFacet .mountable = none := by
    rw [← Option.not_isSome_iff_eq_none, getFacet, ← TaggedList.has_eq_isSome_get?]
    exact fun hm => hmount ((hasFacet_iff c _).mp hm)
  rw [h, writtenValues_facet hc hown fun _ => hfile, hnone]
  rfl

theorem checkAbs_of_isAbsname
    {code : ChrootCode} {path context : String}
    (h : isAbsname path = true) :
    checkAbs code path context = .ok () := by
  rw [checkAbs, if_pos h]

theorem checkLocation_of_legible
    {location : String}
    (h : location = "" ∨ isAbsname location = true) :
    checkLocation location = .ok location :=
  checkLocation_eq_ok_iff.mpr ⟨rfl, h⟩

/-- The chroot that is read finds the values of the type. -/
structure FindsType (kf : Keyfile) (c x : Chroot) : Prop where
  value : ∀ {key value}, (key, value) ∈ c.typeEntries → kf.value? x.name key = some value
  none : ∀ {key}, key ∈ typeKeyNames → key ∉ c.typeEntries.map Prod.fst →
    kf.value? x.name key = none

theorem readKeys_directoryKeys
    {directory : String} {kind : ChrootKind}
    (hfinds : FindsType kf c x)
    (hk : c.kind = .plain directory ∨ c.kind = .directory directory)
    (hset : setDirectory directory x = .ok kind)
    (hlocation : kf.value? x.name "location" = none) :
    requireDirectory kf x = .ok () ∧
      readKeys kf (directoryKeys (kf.hasKey x.name "directory" && kf.hasKey x.name "location")) x =
        .ok { x with kind := kind } := by
  have hentry : ("directory", directory) ∈ c.typeEntries := by
    rcases hk with hk | hk <;> simp [typeEntries, hk]
  have hkey : kf.hasKey x.name "directory" = true := by
    have hvalue := hfinds.value hentry
    rw [Keyfile.value?, Option.map_eq_some_iff] at hvalue
    obtain ⟨item, hitem, -⟩ := hvalue
    simp [Keyfile.hasKey, hitem]
  refine ⟨?_, ?_⟩
  · unfold requireDirectory
    split <;> simp [hkey]
  · refine readKeys_set (v := directory) (hfinds.value hentry) rfl (by simp)
      (kindSetter_eq_ok_iff.mpr ⟨kind, hset, rfl⟩) ?_
    refine readKeys_skip hlocation ?_ rfl
    split <;> simp

theorem readKeys_customKeys
    {purgeable : Bool}
    (session : Bool)
    (hfinds : FindsType kf c x)
    (hk : c.kind = .custom purgeable)
    (hcloneable : kf.value? x.name "custom-session-cloneable" = none)
    (hsource : kf.value? x.name "custom-source-cloneable" = none) :
    readKeys kf (customKeys session) x = .ok { x with kind := .custom purgeable } := by
  refine readKeys_skip hcloneable (by cases session <;> decide) ?_
  refine readKeys_set (v := printBool purgeable) (hfinds.value (by simp [typeEntries, hk]))
    (readBool_printBool _ _) (by decide) rfl ?_
  exact readKeys_skip hsource (by cases session <;> decide) rfl

theorem readKeys_fileKeys
    {f : FileChroot}
    (hfinds : FindsType kf c x)
    (hsession : c.isSession = false)
    (hk : c.kind = .file f)
    (hlegible : KindLegible (.file f))
    (hx : x.kind = .file {}) :
    readKeys kf (fileKeys false) x = .ok { x with kind := .file f } := by
  obtain ⟨hfile, hlocation, hrepack⟩ := hlegible
  refine readKeys_set (v := f.file) (hfinds.value (by simp [typeEntries, hk])) rfl (by decide)
    (kindSetter_eq_ok_iff.mpr ⟨.file { file := f.file }, ?_, rfl⟩) ?_
  · simp [withFile, hx, checkAbs_of_isAbsname hfile, bind, Except.bind, pure, Except.pure,
      Except.map]
  refine readKeys_set (v := f.location) (hfinds.value (by simp [typeEntries, hk])) rfl
    (by decide) (kindSetter_eq_ok_iff.mpr
      ⟨.file { file := f.file, location := f.location }, ?_, rfl⟩) ?_
  · simp [withFile, checkLocation_of_legible hlocation, bind, Except.bind, pure, Except.pure,
      Except.map]
  refine readKeys_skip (hfinds.none (by decide) ?_) (by decide) ?_
  · simp [typeEntries, hk, entryIf, hsession]
  · obtain ⟨file, location, repack⟩ := f
    cases hrepack
    rfl

theorem readKeys_blockDeviceKeys
    {device : String} {k : ChrootKind} {l : List (KeySpec Chroot)}
    {result : Except KeyfileError Chroot}
    (hfinds : FindsType kf c x)
    (hentry : ("device", device) ∈ c.typeEntries)
    (hset : setDevice device x = .ok k)
    (h : readKeys kf l { x with kind := k } = result) :
    readKeys kf (blockDeviceKeys ++ l) x = result :=
  readKeys_set (v := device) (hfinds.value hentry) rfl (by decide)
    (kindSetter_eq_ok_iff.mpr ⟨k, hset, rfl⟩) h

theorem readKeys_loopbackKeys
    {file : String}
    (hfinds : FindsType kf c x)
    (hk : c.kind = .loopback file)
    (hlegible : KindLegible (.loopback file))
    (hx : x.kind = .loopback "") :
    readKeys kf loopbackKeys x = .ok { x with kind := .loopback file } := by
  refine readKeys_set (v := file) (hfinds.value (by simp [typeEntries, hk])) rfl (by decide)
    (kindSetter_eq_ok_iff.mpr ⟨.loopback file, ?_, rfl⟩) rfl
  exact checkAbs_bind_eq_ok_iff.mpr ⟨hlegible, by simp only [hx]; rfl⟩

theorem readKeys_lvmSnapshotKeys
    {s : LvmSnapshot}
    (hfinds : FindsType kf c x)
    (hsession : c.isSession = false)
    (hk : c.kind = .lvmSnapshot s)
    (hlegible : KindLegible (.lvmSnapshot s))
    (hx : x.kind = .lvmSnapshot {}) :
    readKeys kf (lvmSnapshotKeys false) x = .ok { x with kind := .lvmSnapshot s } := by
  obtain ⟨hdevice, hsnapshot⟩ := hlegible
  refine readKeys_blockDeviceKeys (k := .lvmSnapshot { device := s.device }) hfinds
    (by simp [typeEntries, hk]) (checkAbs_bind_eq_ok_iff.mpr ⟨hdevice, by simp only [hx]; rfl⟩) ?_
  refine readKeys_skip (hfinds.none (by decide) ?_) (by decide) ?_
  · simp [typeEntries, hk, entryIf, hsession]
  refine readKeys_set (v := s.snapshotOptions)
    (hfinds.value (by simp [typeEntries, hk, entryIf, hsession])) rfl (by decide)
    (mapError_eq_ok_iff.mpr rfl) ?_
  obtain ⟨device, snapshotDevice, snapshotOptions⟩ := s
  cases hsnapshot
  rfl

theorem readKeys_btrfsSnapshotKeys
    {s : BtrfsSnapshot}
    (hfinds : FindsType kf c x)
    (hsession : c.isSession = false)
    (hk : c.kind = .btrfsSnapshot s)
    (hlegible : KindLegible (.btrfsSnapshot s))
    (hx : x.kind = .btrfsSnapshot {}) :
    readKeys kf (btrfsSnapshotKeys false) x = .ok { x with kind := .btrfsSnapshot s } := by
  obtain ⟨hsource, hdirectory, hname⟩ := hlegible
  refine readKeys_set (v := s.sourceSubvolume)
    (hfinds.value (by simp [typeEntries, hk, entryIf, hsession])) rfl (by decide)
    (kindSetter_eq_ok_iff.mpr
      ⟨.btrfsSnapshot { sourceSubvolume := s.sourceSubvolume }, ?_, rfl⟩) ?_
  · simp [setSourceSubvolume, hx, checkAbs_of_isAbsname hsource, bind, Except.bind, pure,
      Except.pure]
  refine readKeys_set (v := s.snapshotDirectory)
    (hfinds.value (by simp [typeEntries, hk, entryIf, hsession])) rfl (by decide)
    (kindSetter_eq_ok_iff.mpr
      ⟨.btrfsSnapshot
        { sourceSubvolume := s.sourceSubvolume, snapshotDirectory := s.snapshotDirectory },
        ?_, rfl⟩) ?_
  · simp [withBtrfs, checkAbs_of_isAbsname hdirectory, bind, Except.bind, pure, Except.pure]
  refine readKeys_skip (hfinds.none (by decide) ?_) (by decide) ?_
  · simp [typeEntries, hk, entryIf, hsession]
  · obtain ⟨sourceSubvolume, snapshotDirectory, snapshotName⟩ := s
    cases hname
    rfl

/-- The data of a new chroot of the same type. -/
def newKind : ChrootKind → ChrootKind
  | .plain _ => .plain ""
  | .directory _ => .directory ""
  | .custom _ => .custom false
  | .file _ => .file {}
  | .blockDevice _ => .blockDevice ""
  | .loopback _ => .loopback ""
  | .lvmSnapshot _ => .lvmSnapshot {}
  | .zfsSnapshot _ => .zfsSnapshot {}
  | .btrfsSnapshot _ => .btrfsSnapshot {}

theorem kindOfType_typeName (kind : ChrootKind) :
    kindOfType kind.typeName = some (newKind kind) := by
  cases kind <;> rfl

/-- **The keys of the type are read back** into a new chroot of that type, unless it is a ZFS
snapshot. -/
theorem readKeys_typeKeys
    (hfinds : FindsType kf c x)
    (hsession : c.isSession = false)
    (hlegible : KindLegible c.kind)
    (hzfs : ∀ s, c.kind ≠ .zfsSnapshot s)
    (hlocation : ∀ d, c.kind = .plain d ∨ c.kind = .directory d →
      kf.value? x.name "location" = none)
    (hcustom : ∀ b, c.kind = .custom b → kf.value? x.name "custom-session-cloneable" = none ∧
      kf.value? x.name "custom-source-cloneable" = none)
    (hxsession : x.isSession = false)
    (hnew : x.kind = newKind c.kind) :
    requireDirectory kf x = .ok () ∧
      readKeys kf (typeKeys kf x) x = .ok { x with kind := c.kind } := by
  cases hk : c.kind with
  | plain directory =>
      rw [hk] at hlegible hnew
      have hx : x.kind = .plain "" := hnew
      simp only [typeKeys, hx]
      exact readKeys_directoryKeys hfinds (.inl hk)
        (checkAbs_bind_eq_ok_iff.mpr ⟨hlegible, by simp only [hx]; rfl⟩)
        (hlocation directory (.inl hk))
  | directory directory =>
      rw [hk] at hlegible hnew
      have hx : x.kind = .directory "" := hnew
      simp only [typeKeys, hx]
      exact readKeys_directoryKeys hfinds (.inr hk)
        (checkAbs_bind_eq_ok_iff.mpr ⟨hlegible, by simp only [hx]; rfl⟩)
        (hlocation directory (.inr hk))
  | custom purgeable =>
      rw [hk] at hnew
      have hx : x.kind = .custom false := hnew
      refine ⟨by simp [requireDirectory, hx], ?_⟩
      simp only [typeKeys, hx, hxsession]
      exact readKeys_customKeys false hfinds hk (hcustom purgeable hk).1 (hcustom purgeable hk).2
  | file f =>
      rw [hk] at hlegible hnew
      have hx : x.kind = .file {} := hnew
      refine ⟨by simp [requireDirectory, hx], ?_⟩
      simp only [typeKeys, hx, hxsession]
      exact readKeys_fileKeys hfinds hsession hk hlegible hx
  | blockDevice device =>
      rw [hk] at hlegible hnew
      have hx : x.kind = .blockDevice "" := hnew
      refine ⟨by simp [requireDirectory, hx], ?_⟩
      simp only [typeKeys, hx]
      exact readKeys_blockDeviceKeys (l := []) hfinds (by simp [typeEntries, hk])
        (checkAbs_bind_eq_ok_iff.mpr ⟨hlegible, by simp only [hx]; rfl⟩) rfl
  | loopback file =>
      rw [hk] at hlegible hnew
      have hx : x.kind = .loopback "" := hnew
      refine ⟨by simp [requireDirectory, hx], ?_⟩
      simp only [typeKeys, hx]
      exact readKeys_loopbackKeys hfinds hk hlegible hx
  | lvmSnapshot s =>
      rw [hk] at hlegible hnew
      have hx : x.kind = .lvmSnapshot {} := hnew
      refine ⟨by simp [requireDirectory, hx], ?_⟩
      simp only [typeKeys, hx, hxsession]
      exact readKeys_lvmSnapshotKeys hfinds hsession hk hlegible hx
  | zfsSnapshot s => exact absurd hk (hzfs s)
  | btrfsSnapshot s =>
      rw [hk] at hlegible hnew
      have hx : x.kind = .btrfsSnapshot {} := hnew
      refine ⟨by simp [requireDirectory, hx], ?_⟩
      simp only [typeKeys, hx, hxsession]
      exact readKeys_btrfsSnapshotKeys hfinds hsession hk hlegible hx

end Types

end Chroot

end Schroot
