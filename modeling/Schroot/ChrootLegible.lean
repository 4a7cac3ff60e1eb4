import Schroot.WrittenValues

/-!
# What a chroot that was loaded can be written as

The lists of a loaded chroot have items that survive printing, its paths are absolute where the
loader insists on that, and its facets are those of its type.  These are the conditions under which
the values that it writes are accepted when they are read.

**Results.**
* `Legible.setKeyfile`: the data that was read can be written and read again.
* `kindLegible_typeKeys`: what the keys of a type leave behind.
-/

namespace Schroot

namespace Chroot

section Legibility

/-- All items survive printing. -/
def AllItems (items : List String) : Prop :=
  ∀ s ∈ items, IsListItem s

theorem allItems_nil : AllItems [] := fun _ hs => by cases hs

theorem allItems_splitString (value : String) : AllItems (splitString value ",") :=
  fun _ hs => isListItem_of_mem_splitString hs

theorem allItems_ofList
    {items : List String}
    (h : AllItems items) :
    AllItems (Std.ExtTreeSet.ofList items).toList := by
  intro s hs
  rw [Std.ExtTreeSet.mem_toList, Std.ExtTreeSet.mem_ofList] at hs
  exact h s (by simpa using hs)

/-- What a facet writes can be read. -/
def FacetLegible : Facet → Prop
  | .userdata u => AllItems u.userModifiableKeys.toList ∧ AllItems u.rootModifiableKeys.toList
  | .sourceClonable s =>
      AllItems s.sourceUsers ∧ AllItems s.sourceGroups ∧ AllItems s.sourceRootUsers ∧
        AllItems s.sourceRootGroups
  | .union u =>
      UnionFacet.isKnownType u.unionType = true ∧ isAbsname u.overlayDirectory = true ∧
        isAbsname u.underlayDirectory = true
  | .mountable m => m.location = "" ∨ isAbsname m.location = true
  | _ => True

/-- **What the base class and the facets write can be read.** -/
structure Legible (cfg : SbuildConfig) (c : Chroot) : Prop where
  regexValid : cfg.regexValid c.environmentFilter = true
  singleLine : SingleLine c.environmentFilter
  users : AllItems c.users
  groups : AllItems c.groups
  rootUsers : AllItems c.rootUsers
  rootGroups : AllItems c.rootGroups
  commandPrefix : AllItems c.commandPrefix
  facets : ∀ f ∈ c.facets, FacetLegible f

variable {cfg : SbuildConfig} {c c' : Chroot}

theorem Legible.setFacets
    {facets : List Facet}
    (hc : Legible cfg c)
    (h : ∀ f ∈ facets, FacetLegible f) :
    Legible cfg { c with facets := facets } :=
  { hc with facets := h }

theorem Legible.updateFacet
    {f : Facet}
    (hc : Legible cfg c)
    (hf : FacetLegible f) :
    Legible cfg (c.updateFacet f) := by
  refine hc.setFacets fun g hg => ?_
  rcases TaggedList.mem_replace hg with rfl | hg
  · exact hf
  · exact hc.facets g hg

theorem Legible.addFacet
    {f : Facet}
    (hc : Legible cfg c)
    (hf : FacetLegible f)
    (h : c.addFacet f = .ok c') :
    Legible cfg c' := by
  obtain ⟨-, rfl⟩ := addFacet_eq_ok_iff.mp h
  refine hc.setFacets fun g hg => ?_
  rcases List.mem_append.mp hg with hg | hg
  · exact hc.facets g hg
  · rw [List.mem_singleton.mp hg]
    exact hf

theorem Legible.removeFacet
    (hc : Legible cfg c)
    (kind : FacetKind) :
    Legible cfg (c.removeFacet kind) :=
  hc.setFacets fun g hg => hc.facets g (List.mem_of_mem_eraseP hg)

theorem Legible.setProfile
    {profile : String}
    (hc : Legible cfg c)
    (h : Chroot.setProfile profile c = .ok c') :
    Legible cfg c' := by
  have hset : Legible cfg { c with profile := profile } := { hc with }
  unfold Chroot.setProfile at h
  simp only at h
  split at h
  · cases h
    exact hset
  · rename_i u hu
    obtain ⟨u', hu', h⟩ := bind_eq_ok_iff.mp h
    cases h
    have hkeys : u'.userModifiableKeys = u.userModifiableKeys ∧
        u'.rootModifiableKeys = u.rootModifiableKeys := by
      simp only [profileData, List.foldlM_cons, List.foldlM_nil, bind_eq_ok_iff] at hu'
      obtain ⟨u₁, h₁, u₂, h₂, u₃, h₃, u₄, h₄, hu'⟩ := hu'
      cases hu'
      have k₁ := Userdata.keys_setSystemData h₁
      have k₂ := Userdata.keys_setSystemData h₂
      have k₃ := Userdata.keys_setSystemData h₃
      have k₄ := Userdata.keys_setSystemData h₄
      exact ⟨k₄.1.trans (k₃.1.trans (k₂.1.trans k₁.1)), k₄.2.trans (k₃.2.trans (k₂.2.trans k₁.2))⟩
    have hlegible : FacetLegible (.userdata u) := hset.facets _ (mem_of_userdata? hu)
    refine hset.updateFacet (f := .userdata u') ?_
    simp only [FacetLegible, hkeys]
    exact hlegible

theorem Legible.setScriptConfig
    (hc : Legible cfg c)
    (scriptConfig : String) :
    Legible cfg (Chroot.setScriptConfig scriptConfig c) := by
  have hset : Legible cfg { c with scriptConfig := scriptConfig, profile := "" } := { hc with }
  unfold Chroot.setScriptConfig
  simp only
  split
  · exact hset
  · rename_i u hu
    have hlegible : FacetLegible (.userdata u) := hset.facets _ (mem_of_userdata? hu)
    exact hset.updateFacet (f := .userdata _) hlegible

theorem Legible.setMountDevice
    (hc : Legible cfg c)
    (device : String) :
    Legible cfg (Chroot.setMountDevice device c) := by
  unfold Chroot.setMountDevice
  split
  · exact hc
  · rename_i m hm
    have hlegible : FacetLegible (.mountable m) := hc.facets _ (mem_of_mountable? hm)
    exact hc.updateFacet (f := .mountable _) hlegible

theorem facetLegible_newSourceClonable : FacetLegible (.sourceClonable {}) :=
  ⟨allItems_nil, allItems_nil, allItems_nil, allItems_nil⟩

theorem Legible.setUnionType
    {type : String}
    (hc : Legible cfg c)
    (h : Chroot.setUnionType type c = .ok c') :
    Legible cfg c' := by
  rcases setUnionType_cases h with ⟨_, rfl⟩ | ⟨u, hu, hknown, hset⟩
  · exact hc
  · have hlegible : FacetLegible (.union u) := hc.facets _ (mem_of_unionFacet? hu)
    have hunion : Legible cfg (c.updateFacet (.union { u with unionType := type })) :=
      hc.updateFacet ⟨hknown, hlegible.2⟩
    rcases hset with ⟨_, rfl⟩ | ⟨_, _, rfl⟩ | ⟨_, _, rfl⟩
    · exact hunion.removeFacet _
    · exact hunion
    · refine hunion.setFacets fun g hg => ?_
      rcases List.mem_append.mp hg with hg | hg
      · exact hunion.facets g hg
      · rw [List.mem_singleton.mp hg]
        exact facetLegible_newSourceClonable

end Legibility

section Reading

variable {cfg : SbuildConfig} {kf : Keyfile} {c c' : Chroot}

theorem Legible.baseStep
    {session : Bool} {key : String}
    (hc : Legible cfg c)
    (h : BaseStep cfg session kf c key c') :
    Legible cfg c' := by
  cases h with
  | skip => exact hc
  | profile _ h => exact hc.setProfile h
  | scriptConfig => exact hc.setScriptConfig _
  | aliases _ h =>
      obtain ⟨_, _, h⟩ := bind_eq_ok_iff.mp h
      cases h
      exact { hc with }
  | environmentFilter _ hline hvalid =>
      exact { hc with regexValid := hvalid, singleLine := singleLine_of_firstLine hline }
  | users => exact { hc with users := allItems_splitString _ }
  | groups => exact { hc with groups := allItems_splitString _ }
  | rootUsers => exact { hc with rootUsers := allItems_splitString _ }
  | rootGroups => exact { hc with rootGroups := allItems_splitString _ }
  | mountLocation _ _ h =>
      unfold Chroot.setMountLocation at h
      split at h <;> cases h
      exact { hc with }
  | name _ _ h =>
      obtain ⟨-, -, rfl⟩ := setName_eq_ok_iff.mp h
      exact { hc with }
  | commandPrefix => exact { hc with commandPrefix := allItems_splitString _ }
  | verbosity _ h =>
      unfold Chroot.setVerbosity at h
      repeat (split at h; · cases h; exact { hc with })
      cases h
  | description | preserveEnvironment | defaultShell => exact { hc with }

theorem Legible.facetStep
    {key : String}
    (hc : Legible cfg c)
    (h : FacetStep kf c key c') :
    Legible cfg c' := by
  have hsource : ∀ {s}, c.sourceClonable? = some s → FacetLegible (.sourceClonable s) :=
    fun hs => hc.facets _ (mem_of_sourceClonable? hs)
  have hunion : ∀ {u}, c.unionFacet? = some u → FacetLegible (.union u) :=
    fun hu => hc.facets _ (mem_of_unionFacet? hu)
  have hmount : ∀ {m}, c.mountable? = some m → FacetLegible (.mountable m) :=
    fun hm => hc.facets _ (mem_of_mountable? hm)
  have hdata : ∀ {u}, c.userdata? = some u → FacetLegible (.userdata u) :=
    fun hu => hc.facets _ (mem_of_userdata? hu)
  cases h with
  | skip => exact hc
  | personality p => exact hc.updateFacet trivial
  | userModifiableKeys hu _ =>
      exact hc.updateFacet (f := .userdata _)
        ⟨allItems_ofList (allItems_splitString _), (hdata hu).2⟩
  | rootModifiableKeys hu _ =>
      exact hc.updateFacet (f := .userdata _)
        ⟨(hdata hu).1, allItems_ofList (allItems_splitString _)⟩
  | originalName | selectedName => exact hc.updateFacet (f := .session _) trivial
  | sourceClone hs =>
      have hlegible := hsource hs
      exact hc.updateFacet (f := .sourceClonable _) hlegible
  | sourceUsers hs _ =>
      exact hc.updateFacet (f := .sourceClonable _) ⟨allItems_splitString _, (hsource hs).2⟩
  | sourceGroups hs _ =>
      exact hc.updateFacet (f := .sourceClonable _)
        ⟨(hsource hs).1, allItems_splitString _, (hsource hs).2.2⟩
  | sourceRootUsers hs _ =>
      exact hc.updateFacet (f := .sourceClonable _)
        ⟨(hsource hs).1, (hsource hs).2.1, allItems_splitString _, (hsource hs).2.2.2⟩
  | sourceRootGroups hs _ =>
      exact hc.updateFacet (f := .sourceClonable _)
        ⟨(hsource hs).1, (hsource hs).2.1, (hsource hs).2.2.1, allItems_splitString _⟩
  | unionMountOptions hu _ =>
      have hlegible := hunion hu
      exact hc.updateFacet (f := .union _) hlegible
  | unionOverlayDirectory hu _ habs =>
      exact hc.updateFacet (f := .union _) ⟨(hunion hu).1, habs, (hunion hu).2.2⟩
  | unionUnderlayDirectory hu _ habs =>
      exact hc.updateFacet (f := .union _) ⟨(hunion hu).1, (hunion hu).2.1, habs⟩
  | mountDevice hm _ | mountOptions hm _ =>
      have hlegible := hmount hm
      exact hc.updateFacet (f := .mountable _) hlegible
  | location hm _ hok => exact hc.updateFacet (f := .mountable _) hok

theorem Legible.typeStep
    {c₀ : Chroot} {key : String}
    (hc : Legible cfg c)
    (h : TypeStep kf c₀ c key c') :
    Legible cfg c' := by
  have hkind : ∀ kind, Legible cfg { c with kind := kind } := fun _ => { hc with }
  cases h with
  | skip => exact hc
  | kind => exact hkind _
  | snapshotDevice _ _ hset =>
      obtain ⟨-, hset⟩ := checkAbs_bind_eq_ok_iff.mp hset
      cases hset
      exact (hkind _).setMountDevice _
  | cloneName =>
      simp only [Chroot.setZfsCloneName]
      split
      · exact (hkind _).setMountDevice _
      · exact (hkind _).setMountDevice _
  | switch _ hf hset =>
      split at hset
      · refine hc.addFacet ?_ hset
        rcases hf with rfl | rfl
        · exact trivial
        · exact facetLegible_newSourceClonable
      · cases hset
        exact hc.removeFacet _

/-- **What was read can be written and read again.** -/
theorem Legible.setKeyfile
    (hc : Legible cfg c)
    (h : c.setKeyfile cfg kf = .ok c') :
    Legible cfg c' := by
  refine KeptByKeys.setKeyfile (P := Legible cfg) ⟨fun hx => hx.baseStep, fun hx => hx.typeStep,
    fun hx => hx.facetStep, fun hx _ => hx.setUnionType,
    fun {_ _ x u u'} hx hu hv hset => ?_⟩ hc h
  have hlegible : FacetLegible (.userdata u) := hx.facets _ (mem_of_userdata? hu)
  unfold Userdata.setData at hset
  split at hset
  · have hkeys := Userdata.keys_setSystemData hset
    refine hx.updateFacet (f := .userdata u') ?_
    simp only [FacetLegible, hkeys]
    exact hlegible
  · cases hset

end Reading

section Types

variable {kf : Keyfile} {c c' : Chroot}

/-- What a type writes can be read, and the rest is as in a new chroot. -/
def KindLegible : ChrootKind → Prop
  | .plain directory | .directory directory => isAbsname directory = true
  | .custom _ => True
  | .file f =>
      isAbsname f.file = true ∧ (f.location = "" ∨ isAbsname f.location = true) ∧
        f.repack = false
  | .blockDevice device => isAbsname device = true
  | .loopback file => isAbsname file = true
  | .lvmSnapshot s => isAbsname s.device = true ∧ s.snapshotDevice = ""
  | .zfsSnapshot _ => True
  | .btrfsSnapshot s =>
      isAbsname s.sourceSubvolume = true ∧ isAbsname s.snapshotDirectory = true ∧
        s.snapshotName = ""

/-- A key that is there is read. -/
theorem get_readString_some
    {spec : KeySpec Chroot} {method : String → Setter Chroot} {group value : String}
    (hread : spec.read = readString method)
    (hvalue : kf.value? group spec.key = some value)
    (h : spec.get kf group c = .ok c') :
    method value c = .ok c' := by
  rcases (spec.get_eq_ok_iff kf group c c').mp h with
    ⟨hnone | ⟨v, _, hv⟩, _, _⟩ | ⟨act, ⟨v, hv, hact⟩, _, hset⟩
  · rw [hvalue] at hnone
    cases hnone
  · rw [hread] at hv
    cases hv
  · rw [hvalue] at hv
    cases hv
    rw [hread] at hact
    cases hact
    exact hset

/-- The data of the type is other data of the type, and nothing else changes. -/
def KindOnly (c c' : Chroot) : Prop :=
  c' = { c with kind := c'.kind }

theorem KindOnly.trans
    {a b c : Chroot}
    (hab : KindOnly a b)
    (hbc : KindOnly b c) :
    KindOnly a c := by
  unfold KindOnly at hab hbc ⊢
  rw [hbc, hab]

/-- One of the two keys for the directory. -/
theorem directory_of_get
    {spec : KeySpec Chroot}
    (hread : spec.read = readString (kindSetter setDirectory))
    (h : spec.get kf c.name c = .ok c') :
    KindOnly c c' ∧ c'.kind.typeName = c.kind.typeName ∧
      (KindLegible c.kind ∨ kf.hasKey c.name spec.key = true →
        (∃ d, c.kind = .plain d) ∨ (∃ d, c.kind = .directory d) → KindLegible c'.kind) := by
  cases hv : kf.value? c.name spec.key with
  | none =>
      have hsame : c' = c := by
        rcases get_readString hread h with rfl | ⟨v, _, hv', _⟩
        · rfl
        · rw [hv] at hv'
          cases hv'
      subst hsame
      refine ⟨rfl, rfl, fun hor _ => hor.resolve_right fun hkey => ?_⟩
      unfold Keyfile.hasKey at hkey
      rw [Keyfile.value?, Option.map_eq_none_iff] at hv
      simp [hv] at hkey
  | some v =>
      obtain ⟨kind, hkind, rfl⟩ := kindSetter_eq_ok_iff.mp (get_readString_some hread hv h)
      obtain ⟨habs, hkind⟩ := checkAbs_bind_eq_ok_iff.mp hkind
      refine ⟨rfl, ?_, fun _ hdir => ?_⟩
      · split at hkind <;> cases hkind <;> simp [*, ChrootKind.typeName]
      · rcases hdir with ⟨d, hd⟩ | ⟨d, hd⟩
        · rw [hd] at hkind
          cases hkind
          exact habs
        · rw [hd] at hkind
          cases hkind
          exact habs

theorem KindOnly.name (h : KindOnly c c') : c'.name = c.name := by
  rw [h]

theorem KindOnly.isSession (h : KindOnly c c') : c'.isSession = c.isSession := by
  rw [h]
  rfl

theorem hasDirectory_iff (kind : ChrootKind) :
    ((∃ d, kind = .plain d) ∨ ∃ d, kind = .directory d) ↔
      kind.typeName = "plain" ∨ kind.typeName = "directory" := by
  cases kind <;> simp [ChrootKind.typeName]

theorem kindLegible_directoryKeys
    {both : Bool}
    (hdir : (∃ d, c.kind = .plain d) ∨ ∃ d, c.kind = .directory d)
    (hreq : requireDirectory kf c = .ok ())
    (h : readKeys kf (directoryKeys both) c = .ok c') :
    KindOnly c c' ∧ KindLegible c'.kind := by
  obtain ⟨d, hfirst, h⟩ := readKeys_cons_eq_ok_iff.mp h
  obtain ⟨e, hsecond, h⟩ := readKeys_cons_eq_ok_iff.mp h
  cases h
  obtain ⟨hd, htype, hkey⟩ := directory_of_get rfl hfirst
  obtain ⟨he, -, hkey'⟩ := directory_of_get rfl hsecond
  have hdir' : (∃ x, d.kind = .plain x) ∨ ∃ x, d.kind = .directory x := by
    rw [hasDirectory_iff, htype, ← hasDirectory_iff]
    exact hdir
  have hone : kf.hasKey c.name "directory" = true ∨ kf.hasKey c.name "location" = true := by
    by_contra hnone
    simp only [not_or, Bool.not_eq_true] at hnone
    rcases hdir with ⟨x, hx⟩ | ⟨x, hx⟩ <;> simp [requireDirectory, hx, hnone] at hreq
  refine ⟨hd.trans he, ?_⟩
  rcases hone with hone | hone
  · exact hkey' (.inl (hkey (.inr hone) hdir)) hdir'
  · exact hkey' (.inr (by rw [hd.name]; exact hone)) hdir'

theorem kindLegible_fileKeys
    (hk : c.kind = .file {})
    (h : readKeys kf (fileKeys false) c = .ok c') :
    KindOnly c c' ∧ KindLegible c'.kind := by
  obtain ⟨d, hfile, h⟩ := readKeys_cons_eq_ok_iff.mp h
  obtain ⟨e, hlocation, h⟩ := readKeys_cons_eq_ok_iff.mp h
  obtain ⟨f, hrepack, h⟩ := readKeys_cons_eq_ok_iff.mp h
  cases h
  obtain ⟨v, hv⟩ := get_readString_required rfl rfl hfile
  obtain ⟨kind, hkind, rfl⟩ := kindSetter_eq_ok_iff.mp hv
  simp only [withFile, hk] at hkind
  obtain ⟨a, ha, rfl⟩ := map_eq_ok_iff.mp hkind
  obtain ⟨habs, ha⟩ := checkAbs_bind_eq_ok_iff.mp ha
  cases ha
  cases get_disallowed rfl hrepack
  rcases get_readString rfl hlocation with rfl | ⟨w, _, _, hw⟩
  · exact ⟨rfl, habs, .inl rfl, rfl⟩
  · obtain ⟨kind, hkind, rfl⟩ := kindSetter_eq_ok_iff.mp hw
    simp only [withFile] at hkind
    obtain ⟨b, hb, rfl⟩ := map_eq_ok_iff.mp hkind
    obtain ⟨l, hl, hb⟩ := bind_eq_ok_iff.mp hb
    cases hb
    obtain ⟨rfl, hok⟩ := checkLocation_eq_ok_iff.mp hl
    exact ⟨rfl, habs, hok, rfl⟩

theorem kindLegible_blockDeviceKeys
    {device : String}
    (hk : c.kind = .blockDevice device)
    (h : readKeys kf blockDeviceKeys c = .ok c') :
    KindOnly c c' ∧ KindLegible c'.kind := by
  obtain ⟨d, hdevice, h⟩ := readKeys_cons_eq_ok_iff.mp h
  cases h
  obtain ⟨v, hv⟩ := get_readString_required rfl rfl hdevice
  obtain ⟨kind, hkind, rfl⟩ := kindSetter_eq_ok_iff.mp hv
  obtain ⟨habs, hkind⟩ := checkAbs_bind_eq_ok_iff.mp hkind
  rw [hk] at hkind
  cases hkind
  exact ⟨rfl, habs⟩

theorem kindLegible_loopbackKeys
    {file : String}
    (hk : c.kind = .loopback file)
    (h : readKeys kf loopbackKeys c = .ok c') :
    KindOnly c c' ∧ KindLegible c'.kind := by
  obtain ⟨d, hfile, h⟩ := readKeys_cons_eq_ok_iff.mp h
  cases h
  obtain ⟨v, hv⟩ := get_readString_required rfl rfl hfile
  obtain ⟨kind, hkind, rfl⟩ := kindSetter_eq_ok_iff.mp hv
  obtain ⟨habs, hkind⟩ := checkAbs_bind_eq_ok_iff.mp hkind
  rw [hk] at hkind
  cases hkind
  exact ⟨rfl, habs⟩

theorem kindLegible_lvmSnapshotKeys
    (hk : c.kind = .lvmSnapshot {})
    (h : readKeys kf (lvmSnapshotKeys false) c = .ok c') :
    KindOnly c c' ∧ KindLegible c'.kind := by
  obtain ⟨d, hdevice, h⟩ := readKeys_cons_eq_ok_iff.mp h
  obtain ⟨e, hsnapshot, h⟩ := readKeys_cons_eq_ok_iff.mp h
  obtain ⟨f, hoptions, h⟩ := readKeys_cons_eq_ok_iff.mp h
  cases h
  obtain ⟨v, hv⟩ := get_readString_required rfl rfl hdevice
  obtain ⟨kind, hkind, rfl⟩ := kindSetter_eq_ok_iff.mp hv
  obtain ⟨habs, hkind⟩ := checkAbs_bind_eq_ok_iff.mp hkind
  rw [hk] at hkind
  cases hkind
  cases get_disallowed rfl hsnapshot
  obtain ⟨o, ho⟩ := get_readString_required rfl rfl hoptions
  cases chrootSetter_eq_ok_iff.mp ho
  exact ⟨rfl, habs, rfl⟩

theorem kindLegible_btrfsSnapshotKeys
    (hk : c.kind = .btrfsSnapshot {})
    (h : readKeys kf (btrfsSnapshotKeys false) c = .ok c') :
    KindOnly c c' ∧ KindLegible c'.kind := by
  obtain ⟨d, hsource, h⟩ := readKeys_cons_eq_ok_iff.mp h
  obtain ⟨e, hdirectory, h⟩ := readKeys_cons_eq_ok_iff.mp h
  obtain ⟨f, hsnapshot, h⟩ := readKeys_cons_eq_ok_iff.mp h
  cases h
  obtain ⟨v, hv⟩ := get_readString_required rfl rfl hsource
  obtain ⟨kind, hkind, rfl⟩ := kindSetter_eq_ok_iff.mp hv
  simp only [setSourceSubvolume, hk] at hkind
  obtain ⟨habs, hkind⟩ := checkAbs_bind_eq_ok_iff.mp hkind
  cases hkind
  obtain ⟨w, hw⟩ := get_readString_required rfl rfl hdirectory
  obtain ⟨kind, hkind, rfl⟩ := kindSetter_eq_ok_iff.mp hw
  simp only [withBtrfs] at hkind
  obtain ⟨habs', hkind⟩ := checkAbs_bind_eq_ok_iff.mp hkind
  cases hkind
  cases get_disallowed rfl hsnapshot
  exact ⟨rfl, habs, habs', rfl⟩

theorem kindOnly_zfsSnapshotKeys
    (h : readKeys kf (zfsSnapshotKeys false) c = .ok c') :
    KindOnly c c' := by
  have hzfs : ∀ {f : String → ZfsSnapshot → ZfsSnapshot} {v : String} {x y : Chroot},
      pureSetter (fun v => withZfs fun s c => { c with kind := .zfsSnapshot (f v s) }) v x = .ok y →
        KindOnly x y := by
    intro f v x y hset
    cases hset
    show KindOnly x (withZfs _ x)
    unfold withZfs
    split <;> rfl
  obtain ⟨d, hdataset, h⟩ := readKeys_cons_eq_ok_iff.mp h
  obtain ⟨e, hsnapshot, h⟩ := readKeys_cons_eq_ok_iff.mp h
  obtain ⟨f, hclone, h⟩ := readKeys_cons_eq_ok_iff.mp h
  obtain ⟨g, hoptions, h⟩ := readKeys_cons_eq_ok_iff.mp h
  cases h
  obtain ⟨v, hv⟩ := get_readString_required rfl rfl hdataset
  have hd : KindOnly c d := hzfs (f := fun v s => { s with dataset := v }) hv
  cases get_disallowed rfl hsnapshot
  cases get_disallowed rfl hclone
  rcases get_readString rfl hoptions with rfl | ⟨o, _, _, ho⟩
  · exact hd
  · exact hd.trans (hzfs (f := fun v s => { s with snapshotOptions := v }) ho)

/-- **What the keys of a type leave behind** when a new chroot is read that is not a custom one. -/
theorem kindLegible_typeKeys
    {type : String}
    (hkind : kindOfType type = some c.kind)
    (hcustom : ∀ b, c.kind ≠ .custom b)
    (hsession : c.isSession = false)
    (hreq : requireDirectory kf c = .ok ())
    (h : readKeys kf (typeKeys kf c) c = .ok c') :
    KindOnly c c' ∧ KindLegible c'.kind := by
  have hnew : c.kind = .plain "" ∨ c.kind = .directory "" ∨ c.kind = .file {} ∨
      c.kind = .blockDevice "" ∨ c.kind = .loopback "" ∨ c.kind = .lvmSnapshot {} ∨
        c.kind = .zfsSnapshot {} ∨ c.kind = .btrfsSnapshot {} := by
    unfold kindOfType at hkind
    repeat' split at hkind
    all_goals simp only [Option.some.injEq, reduceCtorEq] at hkind
    all_goals simp [← hkind] at hcustom ⊢
  rcases hnew with hk | hk | hk | hk | hk | hk | hk | hk
  · simp only [typeKeys, hk] at h
    exact kindLegible_directoryKeys (.inl ⟨_, hk⟩) hreq h
  · simp only [typeKeys, hk] at h
    exact kindLegible_directoryKeys (.inr ⟨_, hk⟩) hreq h
  · simp only [typeKeys, hk, hsession] at h
    exact kindLegible_fileKeys hk h
  · simp only [typeKeys, hk] at h
    exact kindLegible_blockDeviceKeys hk h
  · simp only [typeKeys, hk] at h
    exact kindLegible_loopbackKeys hk h
  · simp only [typeKeys, hk, hsession] at h
    exact kindLegible_lvmSnapshotKeys hk h
  · have htype := (typeFrame_typeKeys h).typeName
    simp only [typeKeys, hk, hsession] at h
    refine ⟨kindOnly_zfsSnapshotKeys h, ?_⟩
    rw [hk] at htype
    revert htype
    cases c'.kind <;> simp [KindLegible, ChrootKind.typeName]
  · simp only [typeKeys, hk, hsession] at h
    exact kindLegible_btrfsSnapshotKeys hk h

end Types

end Chroot

end Schroot
