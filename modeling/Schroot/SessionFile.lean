import Schroot.ChrootLines
import Schroot.ChrootNames
import Schroot.SessionResources
import Schroot.UserdataOptions

/-!
# The session file and the options of the user

A session is written to its session file with the options that its user has supplied among
its user data, and is read from there again.  The printer does not escape anything.

**Results.**
* `singleLine_keyfileEntries`: what a chroot writes has one line each.
* `getElem?_insertAll_split`: the values that are written, those of user data and the others.
* `fileKeeps_iff`: the session file keeps the options, and what else it says, if and only if
  no option has a line break.
-/

namespace Schroot

namespace Chroot

section Entries

variable {c : Chroot}

theorem forall_entryIf
    {p : String × String → Prop} {b : Bool} {key value : String} :
    (∀ e ∈ entryIf b key value, p e) ↔ (b = true → p (key, value)) := by
  cases b <;> simp [entryIf]

theorem singleLine_baseEntries
    (hc : OneLine c) :
    ∀ e ∈ c.baseEntries, SingleLine e.2 := by
  have hname : ∀ k : ChrootKind, SingleLine k.typeName := by
    intro k
    cases k <;> simp [ChrootKind.typeName, SingleLine]
  have hverbosity : ∀ v : Verbosity, SingleLine v.print := by
    intro v
    cases v <;> decide
  simp only [baseEntries, List.forall_mem_append, List.forall_mem_cons, forall_entryIf]
  simp [hc.name, hc.profile, hc.scriptConfig, hc.environmentFilter, hc.description,
    hc.mountLocation, hc.defaultShell, hname, hverbosity, singleLine_printBool,
    singleLine_joinStrings hc.aliases, singleLine_joinStrings hc.users,
    singleLine_joinStrings hc.groups, singleLine_joinStrings hc.rootUsers,
    singleLine_joinStrings hc.rootGroups, singleLine_joinStrings hc.commandPrefix]

theorem singleLine_typeEntries
    (hc : OneLine c) :
    ∀ e ∈ c.typeEntries, SingleLine e.2 := by
  have hkind := hc.kind
  unfold typeEntries
  cases hk : c.kind with
  | zfsSnapshot s | btrfsSnapshot s | lvmSnapshot s | file s =>
      rw [hk] at hkind
      simp only [KindLines] at hkind
      simp only [List.forall_mem_append, List.forall_mem_cons, forall_entryIf]
      simp [hkind, singleLine_printBool]
  | custom purgeable => simp [singleLine_printBool]
  | _ =>
      rw [hk] at hkind
      simp only [KindLines] at hkind
      simp [hkind]

theorem singleLine_facetEntries
    {f : Facet}
    (session : Bool)
    (hf : FacetLines f) :
    ∀ e ∈ facetEntries session f, SingleLine e.2 := by
  cases f with
  | personality p =>
      have hprint : SingleLine p.print := by
        rw [Personality.print, Personality.findName_persona]
        exact p.singleLine_name
      simp only [facetEntries, forall_entryIf]
      exact fun _ => hprint
  | sessionClonable | source => simp [facetEntries]
  | userdata u =>
      have hu : u.Lines := hf
      have hdata : ∀ e ∈ u.userdata.toList, SingleLine e.2 := fun e he =>
        hu.values e.1 e.2 (Std.ExtTreeMap.mem_toList_iff_getElem?_eq_some.mp he)
      simp only [facetEntries, List.forall_mem_append, List.forall_mem_cons]
      exact ⟨⟨singleLine_joinStrings hu.userKeys, singleLine_joinStrings hu.rootKeys,
        fun _ he => by cases he⟩, hdata⟩
  | session s => simpa [facetEntries, FacetLines] using hf
  | sourceClonable s =>
      simp only [facetEntries, List.forall_mem_cons]
      exact ⟨singleLine_printBool _, singleLine_joinStrings hf.1, singleLine_joinStrings hf.2.1,
        singleLine_joinStrings hf.2.2.1, singleLine_joinStrings hf.2.2.2, fun _ he => by cases he⟩
  | union u =>
      simp only [FacetLines] at hf
      simp only [facetEntries]
      split <;> simp [hf]
  | mountable m =>
      simp only [FacetLines] at hf
      simp only [facetEntries, List.forall_mem_append, List.forall_mem_cons, forall_entryIf]
      simp [hf]

/-- **What a chroot writes** has one line each. -/
theorem singleLine_keyfileEntries
    (hc : OneLine c) :
    ∀ e ∈ c.keyfileEntries, SingleLine e.2 := by
  intro e he
  simp only [keyfileEntries, List.mem_append, List.mem_flatMap] at he
  rcases he with (he | he) | ⟨f, hf, he⟩
  · exact singleLine_baseEntries hc e he
  · exact singleLine_typeEntries hc e he
  · exact singleLine_facetEntries _ (hc.facets f hf) e he

/-- A key of letters, digits, hyphens and dots is read back. -/
theorem isKeyName_of_isKeyChar
    {key : String}
    (hne : key.toList ≠ [])
    (h : ∀ c ∈ key.toList, isKeyChar c = true) :
    IsKeyName key := by
  have hnot : ∀ c, isKeyChar c = false → c ∉ key.toList := by
    intro c hc hm
    rw [h c hm] at hc
    cases hc
  obtain ⟨c, cs, hkey⟩ := List.exists_cons_of_ne_nil hne
  have hmem : c ∈ key.toList := hkey ▸ List.mem_cons_self
  refine ⟨⟨c, cs, hkey, ?_, ?_⟩, hnot '=' (by decide), hnot '\n' (by decide)⟩
  · rintro rfl
    exact hnot '#' (by decide) hmem
  · rintro rfl
    exact hnot '[' (by decide) hmem

/-- The keys that are written besides user data. -/
def plainKeyNames : List String :=
  baseKeyNames ++ typeKeyNames ++
    [ "personality", "user-modifiable-keys", "root-modifiable-keys", "original-name"
    , "selected-name", "source-clone", "source-users", "source-groups", "source-root-users"
    , "source-root-groups", "union-type", "union-mount-options", "union-overlay-directory"
    , "union-underlay-directory", "mount-device", "mount-options", "location" ]

theorem plainKeyNames_spec :
    ∀ key ∈ plainKeyNames, IsKeyName key ∧ ¬ IsDotted key := by
  have hall : plainKeyNames.all (fun key => !key.toList.isEmpty && key.toList.all isKeyChar &&
      !key.toList.contains '.') = true := by decide +kernel
  intro key hkey
  have hk := List.all_eq_true.mp hall key hkey
  simp only [Bool.and_eq_true, Bool.not_eq_true', List.isEmpty_eq_false_iff, List.all_eq_true,
    List.contains_eq_mem, decide_eq_false_iff_not] at hk
  obtain ⟨⟨hne, hchars⟩, hdotted⟩ := hk
  exact ⟨isKeyName_of_isKeyChar hne hchars, hdotted⟩

/-- A valid key of user data is read back. -/
theorem isKeyName_of_validateKeyname
    {key : String}
    (h : validateKeyname key = true) :
    IsKeyName key := by
  obtain ⟨c, cs, hkey, -⟩ := head_of_validateKeyname h
  exact isKeyName_of_isKeyChar (by simp [hkey]) fun c hc => isKeyChar_of_validateKeyname h hc

theorem keys_facetEntries
    {f : Facet}
    (session : Bool)
    (hf : ∀ u, f ≠ .userdata u) :
    ∀ e ∈ facetEntries session f, e.1 ∈ plainKeyNames := by
  cases f with
  | userdata u => exact absurd rfl (hf u)
  | union u =>
      simp only [facetEntries]
      split <;> simp [plainKeyNames]
  | mountable m =>
      simp only [facetEntries, List.forall_mem_append, List.forall_mem_cons, forall_entryIf]
      simp [plainKeyNames]
  | personality p =>
      simp only [facetEntries, forall_entryIf]
      simp [plainKeyNames]
  | _ => simp [facetEntries, plainKeyNames]

theorem keys_plainEntries (c : Chroot) :
    ∀ e ∈ c.baseEntries ++ c.typeEntries, e.1 ∈ plainKeyNames := by
  intro e he
  rcases List.mem_append.mp he with he | he
  · have hbase := (keys_baseEntries c).subset (List.mem_map_of_mem (f := Prod.fst) he)
    simp [plainKeyNames, hbase]
  · rcases (keys_typeEntries c).2 e he with htype | ⟨hlocation, -⟩
    · simp [plainKeyNames, htype]
    · simp [plainKeyNames, hlocation]

end Entries

section Split

variable {c : Chroot} {u : Userdata}

/-- The two keys of the user data facet that are not user data. -/
def modifiableEntries (u : Userdata) : List (String × String) :=
  [ ("user-modifiable-keys", joinStrings ',' u.userModifiableKeys.toList)
  , ("root-modifiable-keys", joinStrings ',' u.rootModifiableKeys.toList) ]

/-- **User data stands by itself** among what a chroot writes, and its keys are the only ones
with a dot. -/
theorem keyfileEntries_split
    (hc : c.facetKinds.Nodup)
    (hu : c.userdata? = some u) :
    ∃ before after, (∀ e ∈ before ++ after, e.1 ∈ plainKeyNames) ∧
      c.keyfileEntries = before ++ u.userdata.toList ++ after ∧
      ∀ u' : Userdata, u'.userModifiableKeys = u.userModifiableKeys →
        u'.rootModifiableKeys = u.rootModifiableKeys →
          (c.updateFacet (.userdata u')).keyfileEntries =
            before ++ u'.userdata.toList ++ after := by
  have hget : TaggedList.get? Facet.kind .userdata c.facets = some (.userdata u) := by
    unfold userdata? getFacet at hu
    split at hu
    · rename_i hget
      cases hu
      exact hget
    · cases hu
  obtain ⟨pre, post, hfacets, hkinds, hreplace⟩ := TaggedList.exists_split hc hget
  have hothers : ∀ f ∈ pre ++ post, ∀ v, f ≠ .userdata v := by
    rintro f hf v rfl
    exact hkinds _ hf rfl
  refine ⟨c.baseEntries ++ c.typeEntries ++ pre.flatMap (facetEntries c.isSession) ++
    modifiableEntries u, post.flatMap (facetEntries c.isSession), ?_, ?_, fun u' huser hroot => ?_⟩
  · intro e he
    simp only [List.mem_append, List.mem_flatMap] at he
    rcases he with ((he | ⟨f, hf, he⟩) | he) | ⟨f, hf, he⟩
    · exact keys_plainEntries c e (List.mem_append.mpr he)
    · exact keys_facetEntries _ (hothers f (List.mem_append_left _ hf)) e he
    · revert e
      simp [modifiableEntries, plainKeyNames]
    · exact keys_facetEntries _ (hothers f (List.mem_append_right _ hf)) e he
  · rw [keyfileEntries, hfacets]
    simp [facetEntries, modifiableEntries]
  · have hsession : (c.updateFacet (.userdata u')).isSession = c.isSession :=
      hasFacet_eq_of_facetKinds (facetKinds_updateFacet _ c) _
    have hbase : (c.updateFacet (.userdata u')).baseEntries = c.baseEntries := by
      unfold baseEntries
      rw [hsession]
      rfl
    have htype : (c.updateFacet (.userdata u')).typeEntries = c.typeEntries := by
      unfold typeEntries
      rw [hsession]
      rfl
    have hset : (c.updateFacet (.userdata u')).facets = pre ++ .userdata u' :: post :=
      hreplace _ rfl
    rw [keyfileEntries, hbase, htype, hsession, hset]
    simp [facetEntries, modifiableEntries, huser, hroot]

/-- **The values that a chroot writes**: those of user data for keys with a dot. -/
theorem getElem?_insertAll_split
    {before after : List (String × String)} {m : Std.ExtTreeMap String String}
    (hplain : ∀ e ∈ before ++ after, e.1 ∈ plainKeyNames)
    (hdotted : ∀ k ∈ m, IsDotted k)
    (key : String) :
    (SortedMap.insertAll ∅ (before ++ m.toList ++ after))[key]? =
      if IsDotted key then m[key]? else (SortedMap.insertAll ∅ (before ++ after))[key]? := by
  have hnone : ∀ entries : List (String × String), (∀ e ∈ entries, e.1 ∈ plainKeyNames) →
      IsDotted key → entries.filter (fun e => e.1 = key) = [] := by
    intro entries hentries hkey
    refine List.filter_eq_nil_iff.mpr fun e he hek => ?_
    have heq : e.1 = key := by simpa using hek
    exact (plainKeyNames_spec e.1 (hentries e he)).2 (heq ▸ hkey)
  rw [SortedMap.getElem?_insertAll, SortedMap.getElem?_insertAll]
  split
  · rename_i hkey
    have hsame : SortedMap.lookup key (before ++ m.toList ++ after).reverse =
        SortedMap.lookup key m.toList.reverse := by
      refine SortedMap.lookup_congr ?_
      rw [List.filter_reverse, List.filter_reverse, List.filter_append, List.filter_append,
        hnone before (fun e he => hplain e (List.mem_append_left _ he)) hkey,
        hnone after (fun e he => hplain e (List.mem_append_right _ he)) hkey]
      simp
    rw [hsame, SortedMap.lookup_reverse (SortedMap.nodup_keys_toList m), SortedMap.lookup_toList]
    simp
  · rename_i hkey
    have hdata : m.toList.filter (fun e => e.1 = key) = [] := by
      refine List.filter_eq_nil_iff.mpr fun e he hek => ?_
      have heq : e.1 = key := by simpa using hek
      have hmem : e.1 ∈ m := by
        rw [Std.ExtTreeMap.mem_iff_isSome_getElem?,
          Std.ExtTreeMap.mem_toList_iff_getElem?_eq_some.mp he]
        rfl
      exact hkey (heq ▸ hdotted e.1 hmem)
    congr 1
    refine SortedMap.lookup_congr ?_
    rw [List.filter_reverse, List.filter_reverse, List.filter_append, List.filter_append,
      List.filter_append, hdata]
    simp

/-- What is written is one of the entries. -/
theorem mem_of_mem_writtenValues
    {e : String × String}
    (he : e ∈ c.writtenValues.toList) :
    e ∈ c.keyfileEntries := by
  have hvalue : c.writtenValues[e.1]? = some e.2 :=
    Std.ExtTreeMap.mem_toList_iff_getElem?_eq_some.mp he
  rw [writtenValues, SortedMap.getElem?_insertAll] at hvalue
  simp only [Std.ExtTreeMap.getElem?_empty, Option.or_none] at hvalue
  unfold SortedMap.lookup at hvalue
  obtain ⟨e', hfind, heq⟩ := Option.map_eq_some_iff.mp hvalue
  have hmem := List.mem_reverse.mp (List.mem_of_find?_eq_some hfind)
  have hkey : e'.1 = e.1 := by simpa using List.find?_some hfind
  have hpair : e' = e := Prod.ext hkey heq
  exact hpair ▸ hmem

/-- The keys of a chroot's entries are read back. -/
theorem isKeyName_keyfileEntries
    (hc : DataInvariant c) :
    ∀ e ∈ c.keyfileEntries, IsKeyName e.1 := by
  have hplain : ∀ e : String × String, e.1 ∈ plainKeyNames → IsKeyName e.1 :=
    fun e he => (plainKeyNames_spec e.1 he).1
  intro e he
  simp only [keyfileEntries, List.mem_append, List.mem_flatMap] at he
  rcases he with he | ⟨f, hf, he⟩
  · exact hplain e (keys_plainEntries c e (List.mem_append.mpr he))
  · by_cases hdata : ∃ u, f = .userdata u
    · obtain ⟨u, rfl⟩ := hdata
      simp only [facetEntries, List.mem_append] at he
      rcases he with he | he
      · refine hplain e ?_
        revert e
        simp [plainKeyNames]
      · have hvalue := Std.ExtTreeMap.mem_toList_iff_getElem?_eq_some.mp he
        have hmem : e.1 ∈ u.userdata := by
          rw [Std.ExtTreeMap.mem_iff_isSome_getElem?, hvalue]
          rfl
        exact isKeyName_of_validateKeyname ((hc.named u hf).valid e.1 hmem)
    · exact hplain e (keys_facetEntries _ (fun u hu => hdata ⟨u, hu⟩) e he)

end Split

section Names

variable {cfg : SbuildConfig} {kf : Keyfile} {c c' : Chroot}

theorem isGroupName_of_isValidSessionname
    {name : String}
    (h : isValidSessionname name = true) :
    IsGroupName name := by
  have hbracket : ']' ∉ name.toList := fun hm =>
    absurd (isNameChar_of_isValidSessionname h _ hm) (by decide)
  refine ⟨fun hnil => ?_, hbracket, singleLine_of_isValidSessionname h⟩
  unfold isValidSessionname at h
  rw [hnil] at h
  cases h

/-- **The names of sessions are valid.** -/
theorem validName_of_built
    (h : Built cfg c)
    (hsession : c.isSession = true) :
    isValidSessionname c.name = true := by
  induction h with
  | create h =>
      obtain ⟨kind, -, hkinds⟩ := facetKinds_create h
      have hmem := isSession_iff.mp hsession
      rw [hkinds] at hmem
      cases kind <;> simp [newFacetKinds, extraFacets, newUnion, Facet.kind] at hmem
  | setName _ h =>
      obtain ⟨-, hvalid, rfl⟩ := setName_eq_ok_iff.mp h
      exact hvalid
  | setKeyfile _ _ _ h ih =>
      rcases (renamed_setKeyfile h).name with heq | hvalid
      · rw [heq]
        refine ih (isSession_iff.mpr ?_)
        exact (mem_facetKinds_setKeyfile h .session (by simp) (by simp)).mp
          (isSession_iff.mp hsession)
      · exact hvalid
  | copy _ ih =>
      rename_i c _
      rw [(sameNames_copy c).1]
      refine ih (isSession_iff.mpr ?_)
      rw [← facetKinds_copy]
      exact isSession_iff.mp hsession
  | cloneSession _ _ _ h =>
      obtain ⟨hname, hvalid, -⟩ := names_cloneSession h
      exact hname ▸ hvalid
  | cloneSource _ h ih =>
      rw [(sameNames_cloneSource h).1]
      refine ih (isSession_iff.mpr ?_)
      have hmem := isSession_iff.mp hsession
      rw [(facetKinds_cloneSource h).2] at hmem
      rcases List.mem_append.mp hmem with hmem | hmem
      · exact List.mem_of_mem_erase (List.mem_of_mem_erase hmem)
      · cases List.mem_singleton.mp hmem

end Names

section Options

variable {cfg : SbuildConfig} {s : Chroot} {u u' : Userdata}

/-- **The session file keeps the options**: it is read as one group, with the options that
were supplied and for the rest what it would say without them. -/
def FileKeeps (s s' : Chroot) (options : Std.ExtTreeMap String String) : Prop :=
  ∃ plain kf, Keyfile.empty.parse (s.getKeyfile .empty).print = .ok plain ∧
    Keyfile.empty.parse (s'.getKeyfile .empty).print = .ok kf ∧
    (∀ group, kf.hasGroup group = true ↔ group = s.name) ∧
    ∀ key, kf.value? s.name key = (options[key]?).or (plain.value? s.name key)

/-- A chroot whose texts have one line each is read back from its file. -/
theorem parse_print_getKeyfile
    (hname : isValidSessionname s.name = true)
    (hlines : OneLine s)
    (hdata : DataInvariant s) :
    ∃ kf, Keyfile.empty.parse (s.getKeyfile .empty).print = .ok kf ∧
      (∀ group, kf.hasGroup group = true ↔ group = s.name) ∧
      ∀ key, kf.value? s.name key = s.writtenValues[key]? := by
  rw [getKeyfile_empty]
  exact Keyfile.parse_print_single (isGroupName_of_isValidSessionname hname)
    (fun e he => isKeyName_keyfileEntries hdata e (mem_of_mem_writtenValues he))
    (fun e he => singleLine_keyfileEntries hlines e (mem_of_mem_writtenValues he))

/-- Values with a line break are not read. -/
theorem singleLine_of_fileKeeps
    {s' : Chroot} {options : Std.ExtTreeMap String String} {key value : String}
    (h : FileKeeps s s' options)
    (hvalue : options[key]? = some value) :
    SingleLine value := by
  obtain ⟨_, kf, -, hkf, -, hkeys⟩ := h
  have hread : kf.value? s.name key = some value := by rw [hkeys, hvalue, Option.some_or]
  exact Keyfile.singleLines_parse hkf s.name key value hread

/-- **The options of a user are kept in the session file, if and only if none of them has a
line break.** -/
theorem fileKeeps_iff
    {root : Bool} {options : Std.ExtTreeMap String String}
    (hs : Built cfg s)
    (hsession : s.isSession = true)
    (hu : s.userdata? = some u)
    (hset : u.setOptions root options = (u', none)) :
    FileKeeps s (s.updateFacet (.userdata u')) options ↔
      ∀ key value : String, options[key]? = some value → SingleLine value := by
  have hname := validName_of_built hs hsession
  have hlines := oneLine_of_built hs
  have hdata := dataInvariant_of_reachable hs.reachable
  have hnamed := (hdata.named u (mem_of_userdata? hu)).setOptions hset
  obtain ⟨hvalues, hvalid, huser, hroot⟩ := Userdata.setOptions_eq_none hset
  have hdata' : DataInvariant (s.updateFacet (.userdata u')) :=
    hdata.updateFacet fun v hv => by cases hv; exact hnamed
  obtain ⟨plain, hplain, -, hplainvalues⟩ := parse_print_getKeyfile hname hlines hdata
  constructor
  · intro hkeeps key value hvalue
    exact singleLine_of_fileKeeps hkeeps hvalue
  · intro hsingle
    have hudata : u.Lines := hlines.facets _ (mem_of_userdata? hu)
    have hudata' : u'.Lines := by
      refine ⟨fun k v hv => ?_, huser ▸ hudata.userKeys, hroot ▸ hudata.rootKeys⟩
      rw [hvalues, Option.or_eq_some_iff] at hv
      rcases hv with hv | ⟨-, hv⟩
      · exact hsingle k v hv
      · exact hudata.values k v hv
    have hlines' : OneLine (s.updateFacet (.userdata u')) :=
      hlines.updateFacet (f := .userdata u') hudata'
    obtain ⟨kf, hkf, hgroups, hkfvalues⟩ := parse_print_getKeyfile (by exact hname) hlines' hdata'
    refine ⟨plain, kf, hplain, hkf, hgroups, fun key => ?_⟩
    have hdotted : ∀ k ∈ u.userdata, IsDotted k := fun k hk =>
      dot_mem_of_validateKeyname ((hdata.named u (mem_of_userdata? hu)).valid k hk)
    have hdotted' : ∀ k ∈ u'.userdata, IsDotted k := fun k hk =>
      dot_mem_of_validateKeyname (hnamed.valid k hk)
    obtain ⟨before, after, hothers, hentries, hentries'⟩ := keyfileEntries_split hdata.nodup hu
    have hread : kf.value? s.name key = (s.updateFacet (.userdata u')).writtenValues[key]? :=
      hkfvalues key
    rw [hread, hplainvalues, writtenValues, writtenValues, hentries, hentries' u' huser hroot,
      getElem?_insertAll_split hothers hdotted, getElem?_insertAll_split hothers hdotted']
    split
    · exact hvalues key
    · rename_i hkey
      have hnone : options[key]? = none := by
        rw [← Option.not_isSome_iff_eq_none, ← Std.ExtTreeMap.mem_iff_isSome_getElem?]
        exact fun hm => hkey (dot_mem_of_validateKeyname (hvalid key hm))
      rw [hnone, Option.none_or]

theorem singleLines_setValue
    {kf : Keyfile} {group key value : String}
    (hkf : kf.SingleLines)
    (hvalue : SingleLine value) :
    (kf.setValue group key value).SingleLines := by
  intro g k v hv
  rw [Keyfile.value?_setValue] at hv
  split at hv
  · cases hv
    exact hvalue
  · exact hkf g k v hv

/-- What is loaded from a parsed text is built. -/
theorem built_loadChroot
    {ns group : String} {kf : Keyfile} {c : Chroot}
    (hkf : kf.SingleLines)
    (h : ChrootConfig.loadChroot cfg ns kf group = .ok c) :
    Built cfg c := by
  simp only [ChrootConfig.loadChroot, bind_eq_ok_iff, mapError_eq_ok_iff] at h
  obtain ⟨c₀, hc₀, h⟩ := h
  obtain ⟨-, hsource⟩ : Reachable cfg (fun _ _ => True) c₀ ∧ c₀.hasFacet .source = false :=
    reachable_createTemplate hc₀
  refine .setKeyfile ?_ hsource hkf h
  simp only [ChrootConfig.createTemplate, bind_eq_ok_iff, mapError_eq_ok_iff] at hc₀
  obtain ⟨a, ha, b, hb, hc₀⟩ := hc₀
  have hbuilt : Built cfg b := .setName (.create ha) hb
  split at hc₀
  · obtain ⟨session, hsession, hc₀⟩ := bind_eq_ok_iff.mp hc₀
    cases session with
    | none =>
        cases hc₀
        exact hbuilt
    | some d =>
        rw [mapError_eq_ok_iff] at hc₀
        exact .setName (.cloneSession hbuilt (by decide) (by decide) hsession) hc₀
  · cases hc₀
    exact hbuilt

/-- A directory chroot whose user may set a key. -/
def optionChroot : Keyfile :=
  ((Keyfile.empty.setValue "d" "type" "directory").setValue "d" "directory" "/srv").setValue
    "d" "user-modifiable-keys" "custom.key"

theorem singleLines_optionChroot : optionChroot.SingleLines := by
  have hempty : Keyfile.empty.SingleLines := by
    intro g k v hv
    simp [Keyfile.value?, Keyfile.findItem, Keyfile.findGroup, Keyfile.empty] at hv
  exact singleLines_setValue (singleLines_setValue (singleLines_setValue hempty (by decide))
    (by decide)) (by decide)

/-- The key with a value. -/
def optionOf (value : String) : Std.ExtTreeMap String String :=
  (∅ : Std.ExtTreeMap String String).insert "custom.key" value

/-- A session takes the value. -/
def acceptsOption (value : String) : Bool :=
  okAnd (ChrootConfig.loadChroot .standard "chroot" optionChroot "d") fun c =>
    okAnd (c.cloneSession .standard "d-1" "d" "joe" false) fun s => s.any fun s =>
      s.isSession && s.userdata?.any fun u => (u.setOptions false (optionOf value)).2.isNone

theorem exists_of_acceptsOption
    {value : String}
    (h : acceptsOption value = true) :
    ∃ s u u', Built .standard s ∧ s.isSession = true ∧ s.userdata? = some u ∧
      u.setOptions false (optionOf value) = (u', none) := by
  obtain ⟨c, hload, h⟩ := okAnd_eq_true_iff.mp h
  obtain ⟨s, hs, h⟩ := okAnd_any_iff.mp h
  obtain ⟨hsession, h⟩ := Bool.and_eq_true_iff.mp h
  obtain ⟨u, hu, hset⟩ := Option.any_eq_true _ _ |>.mp h
  refine ⟨s, u, (u.setOptions false (optionOf value)).1, ?_, hsession, hu, ?_⟩
  · exact .cloneSession (built_loadChroot singleLines_optionChroot hload) (by decide) (by decide)
      hs
  · exact Prod.ext rfl (Option.isNone_iff_eq_none.mp hset)

/-- A value on one line is kept. -/
theorem fileKeeps_iff_option :
    ∃ s u u', Built .standard s ∧ s.isSession = true ∧ s.userdata? = some u ∧
      u.setOptions false (optionOf "1") = (u', none) ∧
        (FileKeeps s (s.updateFacet (.userdata u')) (optionOf "1") ↔
          ∀ key value : String, (optionOf "1")[key]? = some value → SingleLine value) := by
  obtain ⟨s, u, u', hs, hsession, hu, hset⟩ :=
    exists_of_acceptsOption (show acceptsOption "1" = true by decide +kernel)
  exact ⟨s, u, u', hs, hsession, hu, hset, fileKeeps_iff hs hsession hu hset⟩

/-- **A value with a line break is accepted, and not kept.** -/
theorem not_fileKeeps :
    ¬ ∀ (cfg : SbuildConfig) (s : Chroot) (u u' : Userdata) (root : Bool)
        (options : Std.ExtTreeMap String String),
      Built cfg s → s.isSession = true → s.userdata? = some u →
        u.setOptions root options = (u', none) →
          FileKeeps s (s.updateFacet (.userdata u')) options := by
  intro hall
  obtain ⟨s, u, u', hs, hsession, hu, hset⟩ :=
    exists_of_acceptsOption (show acceptsOption "1\ntype=plain" = true by decide +kernel)
  have hkeeps := hall .standard s u u' false _ hs hsession hu hset
  have hvalue : (optionOf "1\ntype=plain")["custom.key"]? = some "1\ntype=plain" := by
    rw [optionOf, SortedMap.getElem?_insert, if_pos rfl]
  exact absurd (singleLine_of_fileKeeps hkeeps hvalue) (by decide)

end Options

end Chroot

end Schroot
