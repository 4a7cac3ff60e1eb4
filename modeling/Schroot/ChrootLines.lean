import Schroot.UserdataInvariant
import Schroot.ChrootWriting

/-!
# The lines of a chroot

Keyfiles have a value on each line, so that the values which are read from a text have no
line breaks.  However a chroot has come about from such keyfiles, what it writes has none
either (`OneLine`).

**Results.**
* `oneLine_of_built`: this holds of every chroot that is built from parsed texts.
-/

namespace Schroot

section Texts

theorem singleLine_append
    {a b : String}
    (ha : SingleLine a)
    (hb : SingleLine b) :
    SingleLine (a ++ b) := by
  unfold SingleLine at *
  rw [String.toList_append, List.mem_append]
  exact fun hm => hm.elim ha hb

theorem mem_of_mem_removeDuplicates
    {dup c : Char} {cs : List Char}
    (h : c ∈ removeDuplicates dup cs) :
    c ∈ cs := by
  induction cs using removeDuplicates.induct dup with
  | case1 => exact h
  | case2 d => exact h
  | case3 d e cs hdup ih =>
      rw [removeDuplicates, if_pos hdup] at h
      exact List.mem_cons_of_mem d (ih h)
  | case4 d e cs hdup ih =>
      rw [removeDuplicates, if_neg hdup] at h
      rcases List.mem_cons.mp h with rfl | h
      · exact List.mem_cons_self
      · exact List.mem_cons_of_mem d (ih h)

theorem mem_of_mem_beforeLastSeparator
    {c : Char} {cs dir : List Char}
    (h : beforeLastSeparator cs = some dir)
    (hc : c ∈ dir) :
    c ∈ cs := by
  induction cs generalizing dir with
  | nil => cases h
  | cons d cs ih =>
      unfold beforeLastSeparator at h
      split at h
      · rename_i rest hrest
        cases h
        rcases List.mem_cons.mp hc with rfl | hc
        · exact List.mem_cons_self
        · exact List.mem_cons_of_mem d (ih hrest hc)
      · split at h <;> cases h
        cases hc

/-- The directory of a path has no characters of its own but two. -/
theorem singleLine_dirname
    {name : String}
    (h : SingleLine name) :
    SingleLine (dirname name) := by
  unfold SingleLine dirname at *
  simp only
  rw [String.toList_ofList]
  intro hm
  have hm := mem_of_mem_removeDuplicates hm
  split at hm
  · simp at hm
  · simp at hm
  · rename_i dir hdir
    exact h (List.mem_of_mem_take (mem_of_mem_beforeLastSeparator hdir hm))

theorem singleLine_of_isValidSessionname
    {name : String}
    (h : isValidSessionname name = true) :
    SingleLine name :=
  fun hm => absurd (isNameChar_of_isValidSessionname h _ hm) (by decide)

theorem singleLine_getNamespace
    {name : String}
    (h : SingleLine name) :
    SingleLine (getNamespace name).2 := by
  unfold getNamespace
  split
  · unfold SingleLine at *
    rw [String.toList_ofList]
    intro hm
    exact h ((List.dropWhile_suffix _).subset (List.mem_of_mem_tail hm))
  · exact h

theorem singleLine_printBool (b : Bool) : SingleLine (printBool b) := by
  cases b <;> decide

theorem singleLine_of_firstLine
    {value line : String}
    (h : firstLine value = some line) :
    SingleLine line := by
  unfold firstLine at h
  obtain ⟨r, hr, rfl⟩ := Option.map_eq_some_iff.mp h
  have hmem : r ∈ LineText.records '\n' value.toList := List.mem_of_mem_head? hr
  unfold SingleLine
  rw [String.toList_ofList]
  exact LineText.not_mem_of_mem_records hmem

/-- None of the texts has a line break. -/
def AllSingle (texts : List String) : Prop :=
  ∀ s ∈ texts, SingleLine s

theorem allSingle_splitString
    {value : String}
    (h : SingleLine value) :
    AllSingle (splitString value ",") :=
  fun _ hs => singleLine_of_mem_splitString h hs

theorem allSingle_nil : AllSingle [] := fun _ hs => by cases hs

end Texts

namespace Userdata

section Lines

/-- The values and the modifiable keys of user data have one line each. -/
structure Lines (u : Userdata) : Prop where
  values : ∀ (key value : String), u.userdata[key]? = some value → SingleLine value
  userKeys : AllSingle u.userModifiableKeys.toList
  rootKeys : AllSingle u.rootModifiableKeys.toList

variable {u u' : Userdata} {key value : String}

theorem Lines.setSystemData
    (hu : u.Lines)
    (hvalue : SingleLine value)
    (h : u.setSystemData key value = .ok u') :
    u'.Lines := by
  obtain ⟨huser, hroot⟩ := keys_setSystemData h
  refine ⟨fun k v hv => ?_, huser ▸ hu.userKeys, hroot ▸ hu.rootKeys⟩
  rw [getElem?_setSystemData h] at hv
  split at hv
  · cases hv
    exact hvalue
  · exact hu.values k v hv

theorem Lines.removeData
    (hu : u.Lines)
    (key : String) :
    (u.removeData key).Lines := by
  refine ⟨fun k v hv => ?_, hu.userKeys, hu.rootKeys⟩
  simp only [Userdata.removeData, Std.ExtTreeMap.getElem?_erase] at hv
  split at hv
  · cases hv
  · exact hu.values k v hv

theorem Lines.setProfileData
    {profile : String}
    (hu : u.Lines)
    (hprofile : SingleLine profile)
    (h : (Chroot.profileData profile).foldlM (fun u e => u.setSystemData e.1 e.2) u = .ok u') :
    u'.Lines := by
  simp only [Chroot.profileData, List.foldlM_cons, List.foldlM_nil, bind_eq_ok_iff] at h
  obtain ⟨u₁, h₁, u₂, h₂, u₃, h₃, u₄, h₄, h⟩ := h
  cases h
  exact (((hu.setSystemData (singleLine_append hprofile (by decide)) h₁).setSystemData
    (singleLine_append hprofile (by decide)) h₂).setSystemData
    (singleLine_append hprofile (by decide)) h₃).setSystemData
    (singleLine_append hprofile (by decide)) h₄

theorem lines_new : Lines {} :=
  ⟨by simp, fun _ hs => by simp at hs, fun _ hs => by simp at hs⟩

theorem allSingle_ofList
    {texts : List String}
    (h : AllSingle texts) :
    AllSingle (Std.ExtTreeSet.ofList texts).toList := by
  intro s hs
  rw [Std.ExtTreeSet.mem_toList, Std.ExtTreeSet.mem_ofList] at hs
  exact h s (by simpa using hs)

end Lines

end Userdata

namespace Chroot

section Invariant

/-- The data of a facet has one line each. -/
def FacetLines : Facet → Prop
  | .userdata u => u.Lines
  | .session s => SingleLine s.originalName ∧ SingleLine s.selectedName
  | .sourceClonable s =>
      AllSingle s.sourceUsers ∧ AllSingle s.sourceGroups ∧ AllSingle s.sourceRootUsers ∧
        AllSingle s.sourceRootGroups
  | .union u =>
      SingleLine u.unionType ∧ SingleLine u.mountOptions ∧ SingleLine u.overlayDirectory ∧
        SingleLine u.underlayDirectory
  | .mountable m =>
      SingleLine m.mountDevice ∧ SingleLine m.mountOptions ∧ SingleLine m.location
  | _ => True

/-- The data of a type has one line each. -/
def KindLines : ChrootKind → Prop
  | .plain directory | .directory directory => SingleLine directory
  | .custom _ => True
  | .file f => SingleLine f.file ∧ SingleLine f.location
  | .blockDevice device => SingleLine device
  | .loopback file => SingleLine file
  | .lvmSnapshot s =>
      SingleLine s.device ∧ SingleLine s.snapshotDevice ∧ SingleLine s.snapshotOptions
  | .zfsSnapshot s =>
      SingleLine s.dataset ∧ SingleLine s.cloneName ∧ SingleLine s.snapshotName ∧
        SingleLine s.snapshotOptions
  | .btrfsSnapshot s =>
      SingleLine s.sourceSubvolume ∧ SingleLine s.snapshotDirectory ∧ SingleLine s.snapshotName

/-- **All texts of a chroot have one line each.** -/
structure OneLine (c : Chroot) : Prop where
  name : SingleLine c.name
  description : SingleLine c.description
  users : AllSingle c.users
  groups : AllSingle c.groups
  rootUsers : AllSingle c.rootUsers
  rootGroups : AllSingle c.rootGroups
  aliases : AllSingle c.aliases
  defaultShell : SingleLine c.defaultShell
  environmentFilter : SingleLine c.environmentFilter
  mountLocation : SingleLine c.mountLocation
  scriptConfig : SingleLine c.scriptConfig
  profile : SingleLine c.profile
  commandPrefix : AllSingle c.commandPrefix
  facets : ∀ f ∈ c.facets, FacetLines f
  kind : KindLines c.kind

variable {c c' : Chroot}

theorem OneLine.setFacets
    {facets : List Facet}
    (hc : OneLine c)
    (h : ∀ f ∈ facets, FacetLines f) :
    OneLine { c with facets := facets } :=
  { hc with facets := h }

theorem OneLine.setKind
    {kind : ChrootKind}
    (hc : OneLine c)
    (h : KindLines kind) :
    OneLine { c with kind := kind } :=
  { hc with kind := h }

theorem OneLine.updateFacet
    {f : Facet}
    (hc : OneLine c)
    (hf : FacetLines f) :
    OneLine (c.updateFacet f) := by
  refine hc.setFacets fun g hg => ?_
  rcases TaggedList.mem_replace hg with rfl | hg
  · exact hf
  · exact hc.facets g hg

theorem OneLine.addFacet
    {f : Facet}
    (hc : OneLine c)
    (hf : FacetLines f)
    (h : c.addFacet f = .ok c') :
    OneLine c' := by
  obtain ⟨-, rfl⟩ := addFacet_eq_ok_iff.mp h
  refine hc.setFacets fun g hg => ?_
  rcases List.mem_append.mp hg with hg | hg
  · exact hc.facets g hg
  · rw [List.mem_singleton.mp hg]
    exact hf

theorem OneLine.removeFacet
    (hc : OneLine c)
    (kind : FacetKind) :
    OneLine (c.removeFacet kind) :=
  hc.setFacets fun g hg => hc.facets g (List.mem_of_mem_eraseP hg)

theorem mem_of_sessionFacet?
    {s : SessionFacet}
    (h : c.sessionFacet? = some s) :
    Facet.session s ∈ c.facets := by
  unfold sessionFacet? at h
  split at h
  · rename_i hget
    cases h
    exact List.mem_of_find?_eq_some hget
  · cases h

theorem mem_of_sourceClonable?
    {s : SourceClonable}
    (h : c.sourceClonable? = some s) :
    Facet.sourceClonable s ∈ c.facets := by
  unfold sourceClonable? at h
  split at h
  · rename_i hget
    cases h
    exact List.mem_of_find?_eq_some hget
  · cases h

theorem mem_of_unionFacet?
    {u : UnionFacet}
    (h : c.unionFacet? = some u) :
    Facet.union u ∈ c.facets := by
  unfold unionFacet? at h
  split at h
  · rename_i hget
    cases h
    exact List.mem_of_find?_eq_some hget
  · cases h

theorem mem_of_mountable?
    {m : Mountable}
    (h : c.mountable? = some m) :
    Facet.mountable m ∈ c.facets := by
  unfold mountable? at h
  split at h
  · rename_i hget
    cases h
    exact List.mem_of_find?_eq_some hget
  · cases h

end Invariant

section Setters

variable {c c' : Chroot}

theorem OneLine.setName
    {name : String}
    (hc : OneLine c)
    (h : Chroot.setName name c = .ok c') :
    OneLine c' := by
  obtain ⟨-, hvalid, rfl⟩ := setName_eq_ok_iff.mp h
  exact { hc with name := singleLine_of_isValidSessionname hvalid }

theorem OneLine.setProfile
    {profile : String}
    (hc : OneLine c)
    (hprofile : SingleLine profile)
    (h : Chroot.setProfile profile c = .ok c') :
    OneLine c' := by
  have hset : OneLine { c with profile := profile } := { hc with profile := hprofile }
  unfold Chroot.setProfile at h
  simp only at h
  split at h
  · cases h
    exact hset
  · rename_i u hu
    obtain ⟨u', hu', h⟩ := bind_eq_ok_iff.mp h
    cases h
    have hlines : u.Lines := hset.facets _ (mem_of_userdata? hu)
    exact hset.updateFacet (hlines.setProfileData hprofile hu')

theorem OneLine.setScriptConfig
    {scriptConfig : String}
    (hc : OneLine c)
    (hscript : SingleLine scriptConfig) :
    OneLine (Chroot.setScriptConfig scriptConfig c) := by
  have hset : OneLine { c with scriptConfig := scriptConfig, profile := "" } :=
    { hc with scriptConfig := hscript, profile := (by decide : SingleLine "") }
  unfold Chroot.setScriptConfig
  simp only
  split
  · exact hset
  · rename_i u hu
    have hlines : u.Lines := hset.facets _ (mem_of_userdata? hu)
    exact hset.updateFacet
      ((((hlines.removeData _).removeData _).removeData _).removeData _)

theorem OneLine.setAliases
    {aliases : List String}
    (hc : OneLine c)
    (haliases : AllSingle aliases)
    (h : Chroot.setAliases aliases c = .ok c') :
    OneLine c' := by
  obtain ⟨_, _, h⟩ := bind_eq_ok_iff.mp h
  cases h
  exact { hc with aliases := haliases }

theorem OneLine.setMountLocation
    {location : String}
    (hc : OneLine c)
    (hlocation : SingleLine location)
    (h : Chroot.setMountLocation location c = .ok c') :
    OneLine c' := by
  unfold Chroot.setMountLocation at h
  split at h <;> cases h
  exact { hc with mountLocation := hlocation }

theorem OneLine.setVerbosity
    {verbosity : String}
    (hc : OneLine c)
    (h : Chroot.setVerbosity verbosity c = .ok c') :
    OneLine c' := by
  unfold Chroot.setVerbosity at h
  repeat (split at h; · cases h; exact { hc with })
  cases h

theorem OneLine.setMountDevice
    {device : String}
    (hc : OneLine c)
    (hdevice : SingleLine device) :
    OneLine (Chroot.setMountDevice device c) := by
  unfold Chroot.setMountDevice
  split
  · exact hc
  · rename_i m hm
    have hlines : FacetLines (.mountable m) := hc.facets _ (mem_of_mountable? hm)
    exact hc.updateFacet ⟨hdevice, hlines.2.1, hlines.2.2⟩

theorem OneLine.setLvmSnapshotDevice
    {device : String} {s : LvmSnapshot}
    (hc : OneLine c)
    (hk : KindLines (.lvmSnapshot s))
    (hdevice : SingleLine device)
    (h : Chroot.setLvmSnapshotDevice device s c = .ok c') :
    OneLine c' := by
  obtain ⟨-, h⟩ := checkAbs_bind_eq_ok_iff.mp h
  cases h
  have hkind : KindLines (.lvmSnapshot { s with snapshotDevice := device }) :=
    ⟨hk.1, hdevice, hk.2.2⟩
  exact (hc.setKind hkind).setMountDevice hdevice

theorem OneLine.setZfsCloneName
    {cloneName : String} {s : ZfsSnapshot}
    (hc : OneLine c)
    (hk : KindLines (.zfsSnapshot s))
    (hname : SingleLine cloneName) :
    OneLine (Chroot.setZfsCloneName cloneName s c) := by
  have hkind : KindLines (.zfsSnapshot { s with cloneName := cloneName }) :=
    ⟨hk.1, hname, hk.2.2⟩
  simp only [Chroot.setZfsCloneName]
  split
  · exact (hc.setKind hkind).setMountDevice hk.1
  · exact (hc.setKind hkind).setMountDevice hname

theorem singleLine_of_isKnownType
    {type : String}
    (h : UnionFacet.isKnownType type = true) :
    SingleLine type := by
  simp only [UnionFacet.isKnownType, decide_eq_true_eq] at h
  rcases h with rfl | rfl | rfl | rfl | rfl <;> decide

theorem OneLine.setUnionType
    {type : String}
    (hc : OneLine c)
    (h : Chroot.setUnionType type c = .ok c') :
    OneLine c' := by
  rcases setUnionType_cases h with
    ⟨_, rfl⟩ | ⟨u, hu, hknown, hset⟩
  · exact hc
  · have hlines : FacetLines (.union u) := hc.facets _ (mem_of_unionFacet? hu)
    have hunion : OneLine (c.updateFacet (.union { u with unionType := type })) :=
      hc.updateFacet ⟨singleLine_of_isKnownType hknown, hlines.2⟩
    rcases hset with ⟨_, rfl⟩ | ⟨_, _, rfl⟩ | ⟨_, _, rfl⟩
    · exact hunion.removeFacet _
    · exact hunion
    · refine hunion.setFacets fun g hg => ?_
      rcases List.mem_append.mp hg with hg | hg
      · exact hunion.facets g hg
      · rw [List.mem_singleton.mp hg]
        exact ⟨allSingle_nil, allSingle_nil, allSingle_nil, allSingle_nil⟩

end Setters

section Reading

variable {cfg : SbuildConfig} {kf : Keyfile} {c c' : Chroot}

theorem OneLine.baseStep
    {session : Bool} {key : String}
    (hc : OneLine c)
    (hkf : kf.SingleLines)
    (h : BaseStep cfg session kf c key c') :
    OneLine c' := by
  cases h with
  | skip => exact hc
  | profile hv h => exact hc.setProfile (hkf _ _ _ hv) h
  | scriptConfig hv => exact hc.setScriptConfig (hkf _ _ _ hv)
  | aliases hv h => exact hc.setAliases (allSingle_splitString (hkf _ _ _ hv)) h
  | environmentFilter _ hline _ =>
      exact { hc with environmentFilter := singleLine_of_firstLine hline }
  | description hv => exact { hc with description := hkf _ _ _ hv }
  | users hv => exact { hc with users := allSingle_splitString (hkf _ _ _ hv) }
  | groups hv => exact { hc with groups := allSingle_splitString (hkf _ _ _ hv) }
  | rootUsers hv => exact { hc with rootUsers := allSingle_splitString (hkf _ _ _ hv) }
  | rootGroups hv => exact { hc with rootGroups := allSingle_splitString (hkf _ _ _ hv) }
  | mountLocation _ hv h => exact hc.setMountLocation (hkf _ _ _ hv) h
  | name _ _ h => exact hc.setName h
  | commandPrefix hv => exact { hc with commandPrefix := allSingle_splitString (hkf _ _ _ hv) }
  | verbosity _ h => exact hc.setVerbosity h
  | preserveEnvironment => exact { hc with }
  | defaultShell hv => exact { hc with defaultShell := hkf _ _ _ hv }

theorem OneLine.facetStep
    {key : String}
    (hc : OneLine c)
    (hkf : kf.SingleLines)
    (h : FacetStep kf c key c') :
    OneLine c' := by
  have hsource : ∀ {s}, c.sourceClonable? = some s → FacetLines (.sourceClonable s) :=
    fun hs => hc.facets _ (mem_of_sourceClonable? hs)
  have hunion : ∀ {u}, c.unionFacet? = some u → FacetLines (.union u) :=
    fun hu => hc.facets _ (mem_of_unionFacet? hu)
  have hmount : ∀ {m}, c.mountable? = some m → FacetLines (.mountable m) :=
    fun hm => hc.facets _ (mem_of_mountable? hm)
  have hdata : ∀ {u}, c.userdata? = some u → u.Lines :=
    fun hu => hc.facets _ (mem_of_userdata? hu)
  cases h with
  | skip => exact hc
  | personality p => exact hc.updateFacet trivial
  | userModifiableKeys hu hv =>
      refine hc.updateFacet (f := .userdata _) ⟨(hdata hu).values, ?_, (hdata hu).rootKeys⟩
      exact Userdata.allSingle_ofList (allSingle_splitString (hkf _ _ _ hv))
  | rootModifiableKeys hu hv =>
      refine hc.updateFacet (f := .userdata _) ⟨(hdata hu).values, (hdata hu).userKeys, ?_⟩
      exact Userdata.allSingle_ofList (allSingle_splitString (hkf _ _ _ hv))
  | originalName hs hv =>
      exact hc.updateFacet (f := .session _) ⟨hkf _ _ _ hv, hkf _ _ _ hv⟩
  | selectedName hs hv =>
      have hlines : FacetLines (.session _) := hc.facets _ (mem_of_sessionFacet? hs)
      exact hc.updateFacet (f := .session _) ⟨hlines.1, singleLine_getNamespace (hkf _ _ _ hv)⟩
  | sourceClone hs =>
      exact hc.updateFacet (f := .sourceClonable _)
        ⟨(hsource hs).1, (hsource hs).2.1, (hsource hs).2.2.1, (hsource hs).2.2.2⟩
  | sourceUsers hs hv =>
      exact hc.updateFacet (f := .sourceClonable _)
        ⟨allSingle_splitString (hkf _ _ _ hv), (hsource hs).2⟩
  | sourceGroups hs hv =>
      exact hc.updateFacet (f := .sourceClonable _)
        ⟨(hsource hs).1, allSingle_splitString (hkf _ _ _ hv), (hsource hs).2.2⟩
  | sourceRootUsers hs hv =>
      exact hc.updateFacet (f := .sourceClonable _)
        ⟨(hsource hs).1, (hsource hs).2.1, allSingle_splitString (hkf _ _ _ hv),
          (hsource hs).2.2.2⟩
  | sourceRootGroups hs hv =>
      exact hc.updateFacet (f := .sourceClonable _)
        ⟨(hsource hs).1, (hsource hs).2.1, (hsource hs).2.2.1,
          allSingle_splitString (hkf _ _ _ hv)⟩
  | unionMountOptions hu hv =>
      exact hc.updateFacet (f := .union _) ⟨(hunion hu).1, hkf _ _ _ hv, (hunion hu).2.2⟩
  | unionOverlayDirectory hu hv _ =>
      exact hc.updateFacet (f := .union _)
        ⟨(hunion hu).1, (hunion hu).2.1, hkf _ _ _ hv, (hunion hu).2.2.2⟩
  | unionUnderlayDirectory hu hv _ =>
      exact hc.updateFacet (f := .union _)
        ⟨(hunion hu).1, (hunion hu).2.1, (hunion hu).2.2.1, hkf _ _ _ hv⟩
  | mountDevice hm hv =>
      exact hc.updateFacet (f := .mountable _) ⟨hkf _ _ _ hv, (hmount hm).2⟩
  | mountOptions hm hv =>
      exact hc.updateFacet (f := .mountable _) ⟨(hmount hm).1, hkf _ _ _ hv, (hmount hm).2.2⟩
  | location hm hv _ =>
      exact hc.updateFacet (f := .mountable _) ⟨(hmount hm).1, (hmount hm).2.1, hkf _ _ _ hv⟩

theorem KindStep.kindLines
    {c₀ : Chroot} {key : String} {kind : ChrootKind}
    (hc : KindLines c.kind)
    (hkf : kf.SingleLines)
    (h : KindStep kf c₀ c key kind) :
    KindLines kind := by
  cases h with
  | plain _ hv | directory _ hv | blockDevice _ hv | loopback _ hv => exact hkf _ _ _ hv
  | purgeable => exact trivial
  | file hk hv =>
      rw [hk] at hc
      exact ⟨hkf _ _ _ hv, hc.2⟩
  | location hk hv =>
      rw [hk] at hc
      exact ⟨hc.1, hkf _ _ _ hv⟩
  | repack hk =>
      rw [hk] at hc
      exact hc
  | lvmDevice hk hv =>
      rw [hk] at hc
      exact ⟨hkf _ _ _ hv, hc.2⟩
  | lvmOptions hk hv =>
      rw [hk] at hc
      exact ⟨hc.1, hc.2.1, hkf _ _ _ hv⟩
  | dataset hk hv =>
      rw [hk] at hc
      exact ⟨hkf _ _ _ hv, hc.2⟩
  | zfsSnapshotName hk hv =>
      rw [hk] at hc
      exact ⟨hc.1, hc.2.1, hkf _ _ _ hv, hc.2.2.2⟩
  | zfsOptions hk hv =>
      rw [hk] at hc
      exact ⟨hc.1, hc.2.1, hc.2.2.1, hkf _ _ _ hv⟩
  | sourceSubvolume hk hv =>
      rw [hk] at hc
      exact ⟨hkf _ _ _ hv, hc.2⟩
  | snapshotDirectory hk hv =>
      rw [hk] at hc
      exact ⟨hc.1, hkf _ _ _ hv, hc.2.2⟩
  | btrfsSnapshotName hk hv =>
      rw [hk] at hc
      exact ⟨hc.1, hc.2.1, hkf _ _ _ hv⟩

/-- **The keys of the types** keep the texts in their lines. -/
theorem OneLine.typeStep
    {c₀ : Chroot} {key : String}
    (hc : OneLine c)
    (hkf : kf.SingleLines)
    (h : TypeStep kf c₀ c key c') :
    OneLine c' := by
  cases h with
  | skip => exact hc
  | kind hstep => exact hc.setKind (hstep.kindLines hc.kind hkf)
  | snapshotDevice hk hv hset =>
      have hkind := hc.kind
      rw [hk] at hkind
      exact hc.setLvmSnapshotDevice hkind (hkf _ _ _ hv) hset
  | cloneName hk hv =>
      have hkind := hc.kind
      rw [hk] at hkind
      exact hc.setZfsCloneName hkind (hkf _ _ _ hv)
  | switch _ hf hset =>
      split at hset
      · refine hc.addFacet ?_ hset
        rcases hf with rfl | rfl
        · exact trivial
        · exact ⟨allSingle_nil, allSingle_nil, allSingle_nil, allSingle_nil⟩
      · cases hset
        exact hc.removeFacet _

/-- **Reading keeps the texts in their lines.** -/
theorem OneLine.setKeyfile
    (hc : OneLine c)
    (hkf : kf.SingleLines)
    (h : c.setKeyfile cfg kf = .ok c') :
    OneLine c' := by
  refine KeptByKeys.setKeyfile (P := OneLine) ⟨fun hx => hx.baseStep hkf, fun hx => hx.typeStep hkf,
    fun hx => hx.facetStep hkf, fun hx _ => hx.setUnionType,
    fun {_ _ x u u'} hx hu hv hset => ?_⟩ hc h
  have hlines : u.Lines := hx.facets _ (mem_of_userdata? hu)
  unfold Userdata.setData at hset
  split at hset
  · exact hx.updateFacet (f := .userdata u') (hlines.setSystemData (hkf _ _ _ hv) hset)
  · cases hset

end Reading

section Cloning

variable {cfg : SbuildConfig} {c c' : Chroot}

theorem OneLine.copy
    (hc : OneLine c) :
    OneLine c.copy := by
  unfold Chroot.copy
  split
  · exact hc.setKind trivial
  · exact hc

theorem OneLine.setSessionMountDevice
    (hc : OneLine c) :
    OneLine c.setSessionMountDevice := by
  have hkind := hc.kind
  unfold Chroot.setSessionMountDevice
  split
  · rename_i device hk
    rw [hk] at hkind
    exact hc.setMountDevice hkind
  · rename_i s hk
    rw [hk] at hkind
    exact hc.setMountDevice hkind.1
  · rename_i file hk
    rw [hk] at hkind
    exact hc.setMountDevice hkind
  · exact hc

theorem OneLine.setSessionSnapshot
    (hc : OneLine c)
    (h : c.setSessionSnapshot = .ok c') :
    OneLine c' := by
  have hkind := hc.kind
  unfold Chroot.setSessionSnapshot at h
  split at h
  · rename_i s hk
    rw [hk] at hkind
    split at h
    · have hdevice : SingleLine (dirname s.device ++ "/" ++ c.name) :=
        singleLine_append (singleLine_append (singleLine_dirname hkind.1) (by decide)) hc.name
      exact hc.setLvmSnapshotDevice hkind hdevice h
    · cases h
      exact hc
  · rename_i s hk
    rw [hk] at hkind
    split at h
    · obtain ⟨-, h⟩ := checkAbs_bind_eq_ok_iff.mp h
      cases h
      exact hc.setKind ⟨hkind.1, hkind.2.1,
        singleLine_append (singleLine_append hkind.2.1 (by decide)) hc.name⟩
    · cases h
      exact hc
  · rename_i s hk
    rw [hk] at hkind
    split at h
    · cases h
      have hsnapshot : KindLines
          (.zfsSnapshot { s with snapshotName := s.dataset ++ "@" ++ c.name }) :=
        ⟨hkind.1, hkind.2.1, singleLine_append (singleLine_append hkind.1 (by decide)) hc.name,
          hkind.2.2.2⟩
      exact (hc.setKind hsnapshot).setZfsCloneName hsnapshot
        (singleLine_append (singleLine_append hkind.1 (by decide)) hc.name)
    · cases h
      exact hc
  · cases h
    exact hc

theorem OneLine.setSessionUnion
    (hc : OneLine c)
    (h : c.setSessionUnion = .ok c') :
    OneLine c' := by
  unfold Chroot.setSessionUnion at h
  split at h
  · cases h
    exact hc
  · rename_i u hu
    have hlines : FacetLines (.union u) := hc.facets _ (mem_of_unionFacet? hu)
    simp only [bind_eq_ok_iff] at h
    obtain ⟨u₁, hoverlay, u₂, hunderlay, h⟩ := h
    cases h
    unfold UnionFacet.setOverlayDirectory at hoverlay
    split at hoverlay <;> cases hoverlay
    unfold UnionFacet.setUnderlayDirectory at hunderlay
    split at hunderlay <;> cases hunderlay
    exact hc.updateFacet (f := .union _) ⟨hlines.1, hlines.2.1,
      singleLine_append (singleLine_append hlines.2.2.1 (by decide)) hc.name,
      singleLine_append (singleLine_append hlines.2.2.2 (by decide)) hc.name⟩

theorem OneLine.setSessionLocation
    {id : String}
    (hc : OneLine c)
    (hid : SingleLine id)
    (h : c.setSessionLocation cfg id = .ok c') :
    OneLine c' := by
  unfold Chroot.setSessionLocation at h
  split at h
  · cases h
    exact hc
  · split at h
    · exact hc.setMountLocation
        (singleLine_append (singleLine_append cfg.singleLine_mountDir (by decide)) hid) h
    · cases h
      exact hc

/-- **A session**, for a user and a selected name without line breaks. -/
theorem OneLine.cloneSession
    {id selected user : String} {root : Bool}
    (hc : OneLine c)
    (hselected : SingleLine selected)
    (huser : SingleLine user)
    (h : c.cloneSession cfg id selected user root = .ok (some c')) :
    OneLine c' := by
  obtain ⟨-, -, h⟩ := cloneSession_eq_ok_some_iff.mp h
  simp only [cloneSessionSetup, bind_eq_ok_iff, mapError_eq_ok_iff] at h
  obtain ⟨c₁, h₁, c₂, h₂, c₃, h₃, c₄, h₄, h₅⟩ := h
  have hc₁ : OneLine c₁ := by
    refine ((hc.copy.removeFacet _).removeFacet _).addFacet ?_ h₁
    have hname : SingleLine c.copy.name := hc.copy.name
    exact ⟨hname, singleLine_getNamespace hselected⟩
  have hc₂ : OneLine c₂ := hc₁.setName h₂
  have hid : SingleLine id := by
    obtain ⟨-, hvalid, -⟩ := setName_eq_ok_iff.mp h₂
    exact singleLine_of_isValidSessionname hvalid
  have hallowed : AllSingle (if user ≠ "" then [user] else []) := by
    split
    · intro s hs
      rw [List.mem_singleton.mp hs]
      exact huser
    · exact allSingle_nil
  have hdescribed : OneLine
      { c₂ with description := c₂.description ++ " " ++ "(session chroot)" } :=
    { hc₂ with
      description := singleLine_append (singleLine_append hc₂.description (by decide))
        (by decide) }
  have husers : OneLine (Chroot.setSessionUsers user root
      { c₂ with description := c₂.description ++ " " ++ "(session chroot)" }) := by
    refine { hdescribed with
      users := ?_, rootUsers := ?_, groups := allSingle_nil, rootGroups := allSingle_nil,
      aliases := allSingle_nil }
    · cases root
      · exact hallowed
      · exact allSingle_nil
    · cases root
      · exact allSingle_nil
      · exact hallowed
  have hc₄ : OneLine c₄ :=
    (husers.setSessionLocation hid h₃).setSessionMountDevice.setSessionSnapshot h₄
  refine OneLine.setSessionUnion ?_ h₅
  split
  · exact hc₄
  · exact hc₄.removeFacet _

theorem facetLines_newUnion (cfg : SbuildConfig) : FacetLines (newUnion cfg) :=
  ⟨(by decide : SingleLine "none"), (by decide : SingleLine ""), cfg.singleLine_overlayDir,
    cfg.singleLine_underlayDir⟩

theorem OneLine.ensureUnion
    (hc : OneLine c)
    (h : c.ensureUnion cfg = .ok c') :
    OneLine c' := by
  unfold Chroot.ensureUnion at h
  split at h
  · cases h
    exact hc
  · exact hc.addFacet (facetLines_newUnion cfg) h

theorem OneLine.sourceCopy
    (hc : OneLine c)
    (h : c.sourceCopy cfg = .ok c') :
    OneLine c' := by
  have hkind := hc.kind
  unfold Chroot.sourceCopy at h
  split at h
  · rename_i s hk
    rw [hk] at hkind
    have hdevice : KindLines (.blockDevice s.device) := hkind.1
    exact (hc.setKind hdevice).ensureUnion h
  · rename_i s hk
    rw [hk] at hkind
    simp only [directoryOfBtrfs, bind_eq_ok_iff] at h
    obtain ⟨d, hd, _, _, h⟩ := h
    cases h
    have hempty : KindLines (.directory "") := (by decide : SingleLine "")
    have hd : OneLine d :=
      (hc.setKind hempty).ensureUnion hd
    exact hd.setKind hkind.1
  · cases h
    exact hc.copy

/-- **A source chroot.** -/
theorem OneLine.cloneSource
    (hc : OneLine c)
    (h : c.cloneSource cfg = .ok (some c')) :
    OneLine c' := by
  unfold Chroot.cloneSource at h
  split at h
  · cases h
  · cases h
  · rename_i s hs _
    have hlines : FacetLines (.sourceClonable s) := hc.facets _ (mem_of_sourceClonable? hs)
    simp only [bind_eq_ok_iff] at h
    obtain ⟨d, hd, e, he, h⟩ := h
    have hd : OneLine d := hc.sourceCopy hd
    simp only [cloneSourceSetup, bind_eq_ok_iff] at he
    obtain ⟨a, ha, he⟩ := he
    have hset : OneLine
        { d with
          description := d.description ++ " " ++ "(source chroot)"
          original := false
          users := s.sourceUsers
          groups := s.sourceGroups
          rootUsers := s.sourceRootUsers
          rootGroups := s.sourceRootGroups } :=
      { hd with
        description := singleLine_append (singleLine_append hd.description (by decide))
          (by decide)
        users := hlines.1
        groups := hlines.2.1
        rootUsers := hlines.2.2.1
        rootGroups := hlines.2.2.2 }
    have ha : OneLine a := hset.setAliases hd.aliases ha
    have he : OneLine e := ((ha.removeFacet _).removeFacet _).addFacet (f := .source) trivial he
    have hkind := he.kind
    split at h
    · rename_i f hk
      cases h
      rw [hk] at hkind
      exact he.setKind hkind
    · cases h
      exact he

end Cloning

section Runs

variable {cfg : SbuildConfig} {c : Chroot}

theorem OneLine.addFacets
    {fs : List Facet} {c' : Chroot}
    (hc : OneLine c)
    (hfs : ∀ f ∈ fs, FacetLines f)
    (h : fs.foldlM (fun c f => Chroot.addFacet f c) c = .ok c') :
    OneLine c' := by
  induction fs generalizing c with
  | nil =>
      cases h
      exact hc
  | cons f fs ih =>
      rw [List.foldlM_cons, bind_eq_ok_iff] at h
      obtain ⟨d, hd, h⟩ := h
      exact ih (hc.addFacet (hfs f List.mem_cons_self) hd)
        (fun g hg => hfs g (List.mem_cons_of_mem f hg)) h

theorem kindLines_kindOfType
    {type : String} {kind : ChrootKind}
    (h : kindOfType type = some kind) :
    KindLines kind := by
  unfold kindOfType at h
  repeat (split at h; · cases h; simp [KindLines, SingleLine])
  cases h

theorem facetLines_extraFacets
    (cfg : SbuildConfig)
    (kind : ChrootKind) :
    ∀ f ∈ extraFacets cfg kind, FacetLines f := by
  have hsource : FacetLines (.sourceClonable {}) :=
    ⟨allSingle_nil, allSingle_nil, allSingle_nil, allSingle_nil⟩
  have hempty : SingleLine "" := by decide
  have hmount : FacetLines (.mountable {}) := ⟨hempty, hempty, hempty⟩
  have hunion := facetLines_newUnion cfg
  intro f hf
  cases kind <;> simp only [extraFacets, List.mem_cons, List.not_mem_nil, or_false] at hf
  case directory => exact hf ▸ hunion
  case file => exact hf ▸ hsource
  case blockDevice => exact hf.elim (· ▸ hmount) (· ▸ hunion)
  case loopback => exact hf.elim (· ▸ hmount) (· ▸ hunion)
  case lvmSnapshot => exact hf.elim (· ▸ hmount) (· ▸ hsource)
  case zfsSnapshot => exact hf.elim (· ▸ hsource) (· ▸ hmount)
  case btrfsSnapshot => exact hf ▸ hsource

theorem oneLine_create
    {type : String}
    (h : create cfg type = .ok c) :
    OneLine c := by
  unfold create at h
  split at h
  · cases h
  · rename_i kind hkind
    simp only [construct, baseChroot, bind_eq_ok_iff, mapError_eq_ok_iff] at h
    obtain ⟨b, ⟨c₁, h₁, c₂, h₂, c₃, h₃, hbase⟩, d, hextra, h⟩ := h
    have hempty : SingleLine "" := by decide
    have hnew : OneLine { environmentFilter := cfg.defaultEnvironmentFilter, kind := kind } :=
      { name := hempty, description := hempty, users := allSingle_nil
        groups := allSingle_nil, rootUsers := allSingle_nil, rootGroups := allSingle_nil
        aliases := allSingle_nil, defaultShell := hempty
        environmentFilter := cfg.singleLine_filter, mountLocation := hempty
        scriptConfig := hempty, profile := (by decide : SingleLine "default")
        commandPrefix := allSingle_nil
        facets := fun _ hf => by cases hf
        kind := kindLines_kindOfType hkind }
    have hc₃ : OneLine c₃ :=
      ((hnew.addFacet (f := .personality _) trivial h₁).addFacet (f := .sessionClonable) trivial
        h₂).addFacet (f := .userdata {}) Userdata.lines_new h₃
    have hb : OneLine b := hc₃.setProfile hc₃.profile hbase
    have hd : OneLine d := hb.addFacets (facetLines_extraFacets cfg kind) hextra
    split at h <;> cases h
    · have hplain : OneLine { d with runSetupScripts := false } := { hd with }
      exact hplain.removeFacet _
    · exact hd

/-- **The chroots that are built from parsed texts**, by users and from names that have no
line breaks.  Source chroots are never read from a keyfile. -/
inductive Built (cfg : SbuildConfig) : Chroot → Prop
  | create {type : String} {c : Chroot}
      (h : create cfg type = .ok c) :
      Built cfg c
  | setName {name : String} {c c' : Chroot}
      (hc : Built cfg c)
      (h : c.setName name = .ok c') :
      Built cfg c'
  | setKeyfile {kf : Keyfile} {c c' : Chroot}
      (hc : Built cfg c)
      (hsource : c.hasFacet .source = false)
      (hkf : kf.SingleLines)
      (h : c.setKeyfile cfg kf = .ok c') :
      Built cfg c'
  | copy {c : Chroot}
      (hc : Built cfg c) :
      Built cfg c.copy
  | cloneSession {id selected user : String} {root : Bool} {c c' : Chroot}
      (hc : Built cfg c)
      (hselected : SingleLine selected)
      (huser : SingleLine user)
      (h : c.cloneSession cfg id selected user root = .ok (some c')) :
      Built cfg c'
  | cloneSource {c c' : Chroot}
      (hc : Built cfg c)
      (h : c.cloneSource cfg = .ok (some c')) :
      Built cfg c'

theorem Built.reachable (h : Built cfg c) : Reachable cfg (fun _ _ => True) c := by
  induction h with
  | create h => exact .create h
  | setName _ h ih => exact .setName ih h
  | setKeyfile _ hsource _ h ih => exact .setKeyfile ih hsource trivial h
  | copy _ ih => exact .copy ih
  | cloneSession _ _ _ h ih => exact .cloneSession ih h
  | cloneSource _ h ih => exact .cloneSource ih h

/-- **Every chroot that is built from parsed texts has its texts in lines.** -/
theorem oneLine_of_built (h : Built cfg c) : OneLine c := by
  induction h with
  | create h => exact oneLine_create h
  | setName _ h ih => exact ih.setName h
  | setKeyfile _ _ hkf h ih => exact ih.setKeyfile hkf h
  | copy _ ih => exact ih.copy
  | cloneSession _ hselected huser h ih => exact ih.cloneSession hselected huser h
  | cloneSource _ h ih => exact ih.cloneSource h

end Runs

end Chroot

end Schroot
