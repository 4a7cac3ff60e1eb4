import Schroot.ChrootSessions
import Schroot.ChrootAliases

/-!
# The resources of sessions

A session has files, directories and devices of its own, which are named after it
(`Resource`).  The names start from what the configuration says and end in the name of the
session, so that sessions of different names have different ones.

**Results.**
* `fresh_of_loaded`: what the chroots that `load_keyfile` makes have before a session is
  begun from them.
* `resource_cloneSession`: the names of the resources of a session.
* `resources_differ_iff`: two sessions of different names share no resource, ZFS snapshots
  and clones without a dataset apart.
-/

namespace Schroot

namespace Chroot

section Location

variable {cfg : SbuildConfig} {kf : Keyfile} {c c' : Chroot}

@[simp] theorem mountLocation_setMountDevice (device : String) (c : Chroot) :
    (setMountDevice device c).mountLocation = c.mountLocation := by
  unfold setMountDevice
  split <;> rfl

@[simp] theorem kind_setMountDevice (device : String) (c : Chroot) :
    (setMountDevice device c).kind = c.kind := by
  unfold setMountDevice
  split <;> rfl

@[simp] theorem mountLocation_setZfsCloneName
    (cloneName : String) (s : ZfsSnapshot) (c : Chroot) :
    (setZfsCloneName cloneName s c).mountLocation = c.mountLocation := by
  simp only [setZfsCloneName]
  split <;> simp

@[simp] theorem kind_setZfsCloneName
    (cloneName : String) (s : ZfsSnapshot) (c : Chroot) :
    (setZfsCloneName cloneName s c).kind = .zfsSnapshot { s with cloneName := cloneName } := by
  simp only [setZfsCloneName]
  split <;> simp

theorem setLvmSnapshotDevice_eq_ok
    {device : String} {s : LvmSnapshot}
    (h : setLvmSnapshotDevice device s c = .ok c') :
    c'.kind = .lvmSnapshot { s with snapshotDevice := device } ∧
      c'.mountLocation = c.mountLocation := by
  obtain ⟨-, h⟩ := checkAbs_bind_eq_ok_iff.mp h
  cases h
  simp

/-- No key of a type sets the mount location. -/
theorem TypeStep.mountLocation
    {c₀ : Chroot} {key : String}
    (h : TypeStep kf c₀ c key c') :
    c'.mountLocation = c.mountLocation := by
  cases h with
  | skip => rfl
  | kind => rfl
  | snapshotDevice _ _ hset => exact (setLvmSnapshotDevice_eq_ok hset).2
  | cloneName => exact mountLocation_setZfsCloneName _ _ _
  | switch _ _ hset =>
      split at hset
      · obtain ⟨-, rfl⟩ := addFacet_eq_ok_iff.mp hset
        rfl
      · cases hset
        rfl

theorem setProfile_eq_ok
    {profile : String}
    (h : setProfile profile c = .ok c') :
    c'.kind = c.kind ∧ c'.mountLocation = c.mountLocation := by
  unfold setProfile at h
  simp only at h
  split at h
  · cases h
    exact ⟨rfl, rfl⟩
  · obtain ⟨_, _, h⟩ := bind_eq_ok_iff.mp h
    cases h
    exact ⟨rfl, rfl⟩

/-- The base class of a chroot that is no session reads neither a mount location nor
anything of the type. -/
theorem BaseStep.location
    {key : String}
    (h : BaseStep cfg false kf c key c') :
    c'.kind = c.kind ∧ c'.mountLocation = c.mountLocation := by
  cases h with
  | profile _ h => exact setProfile_eq_ok h
  | scriptConfig =>
      unfold setScriptConfig
      simp only
      split <;> exact ⟨rfl, rfl⟩
  | aliases _ h =>
      obtain ⟨_, _, h⟩ := bind_eq_ok_iff.mp h
      cases h
      exact ⟨rfl, rfl⟩
  | mountLocation hsession => cases hsession
  | name hsession => cases hsession
  | verbosity _ h =>
      unfold setVerbosity at h
      repeat (split at h; · cases h; exact ⟨rfl, rfl⟩)
      cases h
  | _ => exact ⟨rfl, rfl⟩

end Location

section Reading

variable {cfg : SbuildConfig} {kf : Keyfile} {c c' : Chroot}

/-- A required key is read. -/
theorem get_readString_required
    {spec : KeySpec Chroot} {method : String → Setter Chroot} {group : String}
    (hread : spec.read = readString method)
    (hpriority : spec.priority = .required)
    (h : spec.get kf group c = .ok c') :
    ∃ v, method v c = .ok c' := by
  rcases (spec.get_eq_ok_iff kf group c c').mp h with
    ⟨_, hne, _⟩ | ⟨act, ⟨v, _, hact⟩, _, hset⟩
  · exact absurd hpriority hne
  · rw [hread] at hact
    cases hact
    exact ⟨v, hset⟩

/-- A disallowed key is not read. -/
theorem get_disallowed
    {spec : KeySpec Chroot} {group : String}
    (hpriority : spec.priority = .disallowed)
    (h : spec.get kf group c = .ok c') :
    c' = c := by
  rcases (spec.get_eq_ok_iff kf group c c').mp h with ⟨_, _, rfl⟩ | ⟨_, _, hne, _⟩
  · rfl
  · exact absurd hpriority hne

/-- What the type of a chroot says before a session is begun: the paths that the names of
snapshots start from are absolute, and there are no ZFS snapshots. -/
def FreshKind : ChrootKind → Prop
  | .lvmSnapshot s => isAbsname s.device = true
  | .btrfsSnapshot s => isAbsname s.snapshotDirectory = true
  | .zfsSnapshot s => s.snapshotName = "" ∧ s.cloneName = ""
  | _ => True

theorem freshKind_lvmSnapshotKeys
    {s : LvmSnapshot}
    (hk : c.kind = .lvmSnapshot s)
    (h : readKeys kf (lvmSnapshotKeys false) c = .ok c') :
    FreshKind c'.kind := by
  obtain ⟨d, hdevice, h⟩ := readKeys_cons_eq_ok_iff.mp h
  obtain ⟨e, hsnapshot, h⟩ := readKeys_cons_eq_ok_iff.mp h
  obtain ⟨f, hoptions, h⟩ := readKeys_cons_eq_ok_iff.mp h
  cases h
  obtain ⟨v, hv⟩ := get_readString_required rfl rfl hdevice
  obtain ⟨kind, hkind, rfl⟩ := kindSetter_eq_ok_iff.mp hv
  obtain ⟨habs, hkind⟩ := checkAbs_bind_eq_ok_iff.mp hkind
  rw [hk] at hkind
  cases hkind
  cases get_disallowed rfl hsnapshot
  obtain ⟨o, ho⟩ := get_readString_required rfl rfl hoptions
  cases chrootSetter_eq_ok_iff.mp ho
  exact habs

theorem freshKind_btrfsSnapshotKeys
    {s : BtrfsSnapshot}
    (hk : c.kind = .btrfsSnapshot s)
    (h : readKeys kf (btrfsSnapshotKeys false) c = .ok c') :
    FreshKind c'.kind := by
  obtain ⟨d, hsource, h⟩ := readKeys_cons_eq_ok_iff.mp h
  obtain ⟨e, hdirectory, h⟩ := readKeys_cons_eq_ok_iff.mp h
  obtain ⟨f, hsnapshot, h⟩ := readKeys_cons_eq_ok_iff.mp h
  cases h
  obtain ⟨v, hv⟩ := get_readString_required rfl rfl hsource
  obtain ⟨kind, hkind, rfl⟩ := kindSetter_eq_ok_iff.mp hv
  simp only [setSourceSubvolume, hk] at hkind
  obtain ⟨-, hkind⟩ := checkAbs_bind_eq_ok_iff.mp hkind
  cases hkind
  obtain ⟨w, hw⟩ := get_readString_required rfl rfl hdirectory
  obtain ⟨kind, hkind, rfl⟩ := kindSetter_eq_ok_iff.mp hw
  simp only [withBtrfs] at hkind
  obtain ⟨habs, hkind⟩ := checkAbs_bind_eq_ok_iff.mp hkind
  cases hkind
  cases get_disallowed rfl hsnapshot
  exact habs

theorem freshKind_zfsSnapshotKeys
    {s : ZfsSnapshot}
    (hk : c.kind = .zfsSnapshot s)
    (hs : FreshKind c.kind)
    (h : readKeys kf (zfsSnapshotKeys false) c = .ok c') :
    FreshKind c'.kind := by
  obtain ⟨d, hdataset, h⟩ := readKeys_cons_eq_ok_iff.mp h
  obtain ⟨e, hsnapshot, h⟩ := readKeys_cons_eq_ok_iff.mp h
  obtain ⟨f, hclone, h⟩ := readKeys_cons_eq_ok_iff.mp h
  obtain ⟨g, hoptions, h⟩ := readKeys_cons_eq_ok_iff.mp h
  cases h
  rw [hk] at hs
  obtain ⟨v, hv⟩ := get_readString_required rfl rfl hdataset
  have hd : ∃ z, d.kind = .zfsSnapshot z ∧ FreshKind (.zfsSnapshot z) := by
    cases hv
    exact ⟨{ s with dataset := v }, by simp [withZfs, hk], hs⟩
  cases get_disallowed rfl hsnapshot
  cases get_disallowed rfl hclone
  obtain ⟨z, hz, hfresh⟩ := hd
  rcases get_readString rfl hoptions with rfl | ⟨o, _, _, ho⟩
  · rw [hz]
    exact hfresh
  · cases ho
    simpa [withZfs, hz, FreshKind] using hfresh

/-- **Reading the type of a chroot that is no session.** -/
theorem freshKind_typeKeys
    (hsession : c.isSession = false)
    (hzfs : ∀ s, c.kind = .zfsSnapshot s → FreshKind c.kind)
    (h : readKeys kf (typeKeys kf c) c = .ok c') :
    FreshKind c'.kind := by
  have htype := (typeFrame_typeKeys h).typeName
  cases hk : c.kind with
  | lvmSnapshot s =>
      simp only [typeKeys, hk, hsession] at h
      exact freshKind_lvmSnapshotKeys hk h
  | zfsSnapshot s =>
      simp only [typeKeys, hk, hsession] at h
      exact freshKind_zfsSnapshotKeys hk (hzfs s hk) h
  | btrfsSnapshot s =>
      simp only [typeKeys, hk, hsession] at h
      exact freshKind_btrfsSnapshotKeys hk h
  | _ =>
      rw [hk] at htype
      revert htype
      cases c'.kind <;> simp [FreshKind, ChrootKind.typeName]

/-- A chroot that no session has touched: it has no mount location, and its type is as the
keyfile says. -/
structure Fresh (c : Chroot) : Prop where
  mountLocation : c.mountLocation = ""
  kind : FreshKind c.kind

theorem Fresh.of_eq
    (hc : Fresh c)
    (hlocation : c'.mountLocation = c.mountLocation)
    (hkind : c'.kind = c.kind) :
    Fresh c' := by
  constructor
  · rw [hlocation]
    exact hc.mountLocation
  · rw [hkind]
    exact hc.kind

theorem fresh_setKeyfile
    (hsession : c.isSession = false)
    (hlocation : c.mountLocation = "")
    (hzfs : ∀ s, c.kind = .zfsSnapshot s → FreshKind c.kind)
    (h : c.setKeyfile cfg kf = .ok c') :
    Fresh c' := by
  simp only [setKeyfile, bind_eq_ok_iff] at h
  obtain ⟨⟨d, used⟩, htype, ⟨e, used'⟩, hfacets, h⟩ := h
  cases h
  simp only [setTypeKeyfile, bind_eq_ok_iff] at htype
  obtain ⟨b, hbase, _, _, d', hkeys, hd⟩ := htype
  cases hd
  rw [hsession] at hbase
  have hb : b.kind = c.kind ∧ b.mountLocation = c.mountLocation :=
    readKeys_keeps (R := fun x y => y.kind = x.kind ∧ y.mountLocation = x.mountLocation)
      (fun _ => ⟨rfl, rfl⟩)
      (fun _ _ _ hxy hyz => ⟨hyz.1.trans hxy.1, hyz.2.trans hxy.2⟩)
      (fun _ hs _ _ hget => (baseStep_of_get hs hget).location) hbase
  have hbsession : b.isSession = false :=
    (hasFacet_eq_of_facetKinds (readKeys_baseKeys_frame hbase).1 .session).trans hsession
  have hd : Fresh d := by
    constructor
    · have hkeep : d.mountLocation = b.mountLocation :=
        readKeys_keeps (R := fun x y => y.mountLocation = x.mountLocation) (fun _ => rfl)
          (fun _ _ _ hxy hyz => hyz.trans hxy)
          (fun _ hs _ _ hget => (typeStep_of_get hs hget).mountLocation) hkeys
      rw [hkeep, hb.2, hlocation]
    · refine freshKind_typeKeys hbsession (fun s hs => ?_) hkeys
      rw [hb.1] at hs ⊢
      exact hzfs s hs
  have hrest := (setFacetsKeyfile_frame hfacets).1.rest
  have he : Fresh e := hd.of_eq (by rw [hrest]) (by rw [hrest])
  have hunused := (facetFrame_setUnusedKeys kf
    ((kf.getKeys e.name).filter (fun key => !used'.contains key)) e).rest
  exact he.of_eq (by rw [hunused]) (by rw [hunused])

end Reading

section Loading

variable {cfg : SbuildConfig} {c c' : Chroot}

theorem location_addFacets
    {fs : List Facet}
    (h : fs.foldlM (fun c f => addFacet f c) c = .ok c') :
    c'.kind = c.kind ∧ c'.mountLocation = c.mountLocation := by
  induction fs generalizing c with
  | nil =>
      cases h
      exact ⟨rfl, rfl⟩
  | cons f fs ih =>
      rw [List.foldlM_cons] at h
      obtain ⟨d, hadd, h⟩ := bind_eq_ok_iff.mp h
      obtain ⟨-, rfl⟩ := addFacet_eq_ok_iff.mp hadd
      have hrest := ih h
      exact hrest

/-- A new chroot is of its type, and has no mount location. -/
theorem location_construct
    {kind : ChrootKind}
    (h : construct cfg kind = .ok c) :
    c.kind = kind ∧ c.mountLocation = "" := by
  simp only [construct, bind_eq_ok_iff, mapError_eq_ok_iff] at h
  obtain ⟨b, hbase, d, hadd, h⟩ := h
  simp only [baseChroot, bind_eq_ok_iff, mapError_eq_ok_iff] at hbase
  obtain ⟨c₁, h₁, c₂, h₂, c₃, h₃, hprofile⟩ := hbase
  obtain ⟨-, rfl⟩ := addFacet_eq_ok_iff.mp h₁
  obtain ⟨-, rfl⟩ := addFacet_eq_ok_iff.mp h₂
  obtain ⟨-, rfl⟩ := addFacet_eq_ok_iff.mp h₃
  have hb := setProfile_eq_ok hprofile
  have hd := location_addFacets hadd
  have hdb : d.kind = kind ∧ d.mountLocation = "" :=
    ⟨hd.1.trans hb.1, hd.2.trans hb.2⟩
  cases kind with
  | plain directory =>
      cases h
      exact hdb
  | _ =>
      cases h
      exact hdb

theorem freshKind_kindOfType
    {type : String} {kind : ChrootKind} {s : ZfsSnapshot}
    (h : kindOfType type = some kind)
    (hkind : kind = .zfsSnapshot s) :
    FreshKind kind := by
  subst hkind
  unfold kindOfType at h
  repeat (split at h; · cases h <;> exact ⟨rfl, rfl⟩)
  cases h

/-- The template of a group that is no session. -/
theorem createTemplate_fresh
    {ns group : String} {kf : Keyfile}
    (h : ChrootConfig.createTemplate cfg ns kf group = .ok c)
    (hsession : c.isSession = false) :
    c.mountLocation = "" ∧ ∀ s, c.kind = .zfsSnapshot s → FreshKind c.kind := by
  simp only [ChrootConfig.createTemplate, bind_eq_ok_iff, mapError_eq_ok_iff] at h
  obtain ⟨a, ha, b, hb, h⟩ := h
  obtain ⟨-, -, rfl⟩ := setName_eq_ok_iff.mp hb
  have hnew : a.mountLocation = "" ∧ ∀ s, a.kind = .zfsSnapshot s → FreshKind a.kind := by
    unfold create at ha
    split at ha
    · cases ha
    · rename_i kind hkind
      obtain ⟨hk, hlocation⟩ := location_construct ha
      refine ⟨hlocation, fun s hs => ?_⟩
      rw [hk] at hs ⊢
      exact freshKind_kindOfType hkind hs
  split at h
  · obtain ⟨session, hclone, h⟩ := bind_eq_ok_iff.mp h
    cases session with
    | none =>
        cases h
        exact hnew
    | some d =>
        rw [mapError_eq_ok_iff] at h
        obtain ⟨-, -, rfl⟩ := setName_eq_ok_iff.mp h
        have hmem : FacetKind.session ∈ d.facetKinds := by
          rw [facetKinds_cloneSession hclone]
          exact List.mem_append_right _ (List.mem_singleton_self _)
        have hd : d.isSession = true := isSession_iff.mpr hmem
        exact absurd (hd.symm.trans hsession) (by simp)
  · cases h
    exact hnew

/-- **What `load_keyfile` reads from a group**, unless it is a session. -/
theorem fresh_loadChroot
    {ns group : String} {kf : Keyfile}
    (h : ChrootConfig.loadChroot cfg ns kf group = .ok c)
    (hsession : c.isSession = false) :
    Fresh c := by
  simp only [ChrootConfig.loadChroot, bind_eq_ok_iff, mapError_eq_ok_iff] at h
  obtain ⟨c₀, htemplate, h⟩ := h
  have hsession₀ : c₀.isSession = false := by
    rw [Bool.eq_false_iff] at hsession ⊢
    intro hs
    exact hsession (isSession_iff.mpr
      ((mem_facetKinds_setKeyfile h .session (by simp) (by simp)).mpr (isSession_iff.mp hs)))
  obtain ⟨hlocation, hzfs⟩ := createTemplate_fresh htemplate hsession₀
  exact fresh_setKeyfile hsession₀ hlocation hzfs h

theorem location_ensureUnion
    (h : c.ensureUnion cfg = .ok c') :
    c'.kind = c.kind ∧ c'.mountLocation = c.mountLocation := by
  unfold ensureUnion at h
  split at h
  · cases h
    exact ⟨rfl, rfl⟩
  · obtain ⟨-, rfl⟩ := addFacet_eq_ok_iff.mp h
    exact ⟨rfl, rfl⟩

theorem fresh_sourceCopy
    (hc : Fresh c)
    (h : c.sourceCopy cfg = .ok c') :
    Fresh c' := by
  unfold sourceCopy at h
  split at h
  · obtain ⟨hkind, hlocation⟩ := location_ensureUnion h
    exact ⟨hlocation.trans hc.mountLocation, by rw [hkind]; trivial⟩
  · simp only [directoryOfBtrfs, bind_eq_ok_iff] at h
    obtain ⟨d, hd, _, _, h⟩ := h
    cases h
    exact ⟨(location_ensureUnion hd).2.trans hc.mountLocation, trivial⟩
  · cases h
    unfold copy
    split
    · exact ⟨hc.mountLocation, trivial⟩
    · exact hc

/-- The source chroot of a chroot. -/
theorem fresh_cloneSource
    (hc : Fresh c)
    (h : c.cloneSource cfg = .ok (some c')) :
    Fresh c' := by
  unfold cloneSource at h
  split at h
  · cases h
  · cases h
  · simp only [bind_eq_ok_iff] at h
    obtain ⟨d, hd, e, he, h⟩ := h
    have hd := fresh_sourceCopy hc hd
    simp only [cloneSourceSetup, bind_eq_ok_iff] at he
    obtain ⟨f, hf, he⟩ := he
    obtain ⟨_, _, hf⟩ := bind_eq_ok_iff.mp hf
    cases hf
    obtain ⟨-, rfl⟩ := addFacet_eq_ok_iff.mp he
    split at h
    · cases h
      exact ⟨hd.mountLocation, trivial⟩
    · cases h
      exact ⟨hd.mountLocation, hd.kind⟩

/-- The chroots that `load_keyfile` makes of groups, and their source chroots. -/
inductive Loaded (cfg : SbuildConfig) : Chroot → Prop
  | chroot {ns group : String} {kf : Keyfile} {c : Chroot}
      (h : ChrootConfig.loadChroot cfg ns kf group = .ok c) :
      Loaded cfg c
  | source {c source : Chroot}
      (hc : Loaded cfg c)
      (h : ChrootConfig.loadSource cfg c = .ok (some source)) :
      Loaded cfg source

/-- **Chroots that are loaded are fresh**, unless they are sessions. -/
theorem fresh_of_loaded
    (h : Loaded cfg c)
    (hsession : c.isSession = false) :
    Fresh c := by
  induction h with
  | chroot h => exact fresh_loadChroot h hsession
  | source _ h ih =>
      unfold ChrootConfig.loadSource at h
      split at h
      · split at h
        · rename_i hclone
          rw [mapError_eq_ok_iff] at h
          exact fresh_cloneSource (ih (by simpa using (Bool.and_eq_true_iff.mp hclone).2)) h
        · cases h
      · cases h

end Loading

section Naming

variable {cfg : SbuildConfig} {c c' : Chroot} {id : String}

/-- The ZFS names of a session.  Without a dataset they stay as they are. -/
def sessionZfs (id : String) (s : ZfsSnapshot) : ZfsSnapshot :=
  if s.dataset ≠ "" then
    { s with
      snapshotName := s.dataset ++ "@" ++ id
      cloneName := s.dataset ++ "/schroot-" ++ id }
  else
    s

/-- The type of a session, with the names of its snapshots. -/
def sessionKind (id : String) : ChrootKind → ChrootKind
  | .custom _ => .custom false
  | .lvmSnapshot s => .lvmSnapshot { s with snapshotDevice := dirname s.device ++ "/" ++ id }
  | .btrfsSnapshot s => .btrfsSnapshot { s with snapshotName := s.snapshotDirectory ++ "/" ++ id }
  | .zfsSnapshot s => .zfsSnapshot (sessionZfs id s)
  | kind => kind

theorem ne_empty_of_isAbsname
    {path : String}
    (h : isAbsname path = true) :
    path ≠ "" := by
  rintro rfl
  simp [isAbsname] at h

theorem setSessionMountDevice_frame (c : Chroot) :
    c.setSessionMountDevice.kind = c.kind ∧ c.setSessionMountDevice.name = c.name ∧
      c.setSessionMountDevice.mountLocation = c.mountLocation := by
  have hset : ∀ device, (setMountDevice device c).kind = c.kind ∧
      (setMountDevice device c).name = c.name ∧
        (setMountDevice device c).mountLocation = c.mountLocation :=
    fun device => ⟨by simp, (frame_setMountDevice device c).name, by simp⟩
  unfold setSessionMountDevice
  split
  · exact hset _
  · exact hset _
  · exact hset _
  · exact ⟨rfl, rfl, rfl⟩

theorem setSessionLocation_eq_ok
    (hplain : ∀ directory, c.kind ≠ .plain directory)
    (hlocation : c.mountLocation = "")
    (h : c.setSessionLocation cfg id = .ok c') :
    c' = { c with mountLocation := cfg.mountDir ++ "/" ++ id } := by
  unfold setSessionLocation at h
  split at h
  · rename_i directory hk
    exact absurd hk (hplain directory)
  · rw [if_pos hlocation] at h
    unfold setMountLocation at h
    split at h <;> cases h
    rfl

theorem setSessionSnapshot_eq_ok
    (hkind : FreshKind c.kind)
    (hcustom : c.kind ≠ .custom true)
    (h : c.setSessionSnapshot = .ok c') :
    c'.kind = sessionKind c.name c.kind ∧ c'.name = c.name ∧
      c'.mountLocation = c.mountLocation := by
  unfold setSessionSnapshot at h
  split at h
  · rename_i s hk
    rw [hk] at hkind
    rw [if_pos (ne_empty_of_isAbsname hkind)] at h
    obtain ⟨hset, hlocation⟩ := setLvmSnapshotDevice_eq_ok h
    have hframe := frame_setLvmSnapshotDevice (by simp [hk, ChrootKind.typeName]) h
    exact ⟨by rw [hset, hk]; rfl, hframe.name, hlocation⟩
  · rename_i s hk
    rw [hk] at hkind
    rw [if_pos (ne_empty_of_isAbsname hkind)] at h
    obtain ⟨-, h⟩ := checkAbs_bind_eq_ok_iff.mp h
    cases h
    exact ⟨by rw [hk]; rfl, rfl, rfl⟩
  · rename_i s hk
    simp only [sessionKind, sessionZfs, hk]
    split at h
    · rename_i hdataset
      cases h
      rw [if_pos hdataset]
      exact ⟨by simp, (frame_setZfsCloneName rfl).name, by simp⟩
    · rename_i hdataset
      cases h
      rw [if_neg hdataset]
      exact ⟨hk, rfl, rfl⟩
  · rename_i hlvm hbtrfs hzfs
    cases h
    refine ⟨?_, rfl, rfl⟩
    cases hk : c.kind with
    | custom purgeable =>
        cases purgeable with
        | true => exact absurd hk hcustom
        | false => rfl
    | lvmSnapshot s => exact absurd hk (hlvm s)
    | btrfsSnapshot s => exact absurd hk (hbtrfs s)
    | zfsSnapshot s => exact absurd hk (hzfs s)
    | _ => rfl

/-- Updating the union facet. -/
theorem unionFacet?_updateFacet
    {u u' : UnionFacet}
    (h : c.unionFacet? = some u) :
    (c.updateFacet (.union u')).unionFacet? = some u' := by
  unfold unionFacet? getFacet at h
  simp only [unionFacet?, getFacet, updateFacet, TaggedList.get?_replace]
  cases hget : TaggedList.get? Facet.kind .union c.facets with
  | none => simp [hget] at h
  | some f => simp [Facet.kind]

theorem setSessionUnion_eq_ok
    (h : c.setSessionUnion = .ok c') :
    c'.kind = c.kind ∧ c'.name = c.name ∧ c'.mountLocation = c.mountLocation ∧
      ∀ u, c'.unionFacet? = some u →
        ∃ overlay underlay, u.overlayDirectory = overlay ++ "/" ++ c.name ∧
          u.underlayDirectory = underlay ++ "/" ++ c.name := by
  unfold setSessionUnion at h
  split at h
  · rename_i hnone
    cases h
    refine ⟨rfl, rfl, rfl, fun u hu => ?_⟩
    rw [hnone] at hu
    cases hu
  · rename_i u hu
    simp only [bind_eq_ok_iff] at h
    obtain ⟨u₁, hoverlay, u₂, hunderlay, h⟩ := h
    cases h
    refine ⟨rfl, rfl, rfl, fun v hv => ?_⟩
    rw [unionFacet?_updateFacet hu] at hv
    cases hv
    unfold UnionFacet.setOverlayDirectory at hoverlay
    split at hoverlay <;> cases hoverlay
    unfold UnionFacet.setUnderlayDirectory at hunderlay
    split at hunderlay <;> cases hunderlay
    exact ⟨u.overlayDirectory, u.underlayDirectory, rfl, rfl⟩

/-- What a session is named in all that it has of its own. -/
structure NamedBy (cfg : SbuildConfig) (c : Chroot) (id : String) (s : Chroot) : Prop where
  valid : isValidSessionname id = true
  name : s.name = id
  kind : s.kind = sessionKind id c.kind
  mountLocation : s.mountLocation = cfg.mountDir ++ "/" ++ id
  union : ∀ u, s.unionFacet? = some u →
    ∃ overlay underlay, u.overlayDirectory = overlay ++ "/" ++ id ∧
      u.underlayDirectory = underlay ++ "/" ++ id

/-- Only chroots that are no sessions can be cloned as sessions. -/
theorem isSession_of_cloneSession
    {s : Chroot} {selected user : String} {root : Bool}
    (h : c.cloneSession cfg id selected user root = .ok (some s)) :
    c.isSession = false := by
  obtain ⟨-, -, hsetup⟩ := cloneSession_eq_ok_some_iff.mp h
  simp only [cloneSessionSetup, bind_eq_ok_iff, mapError_eq_ok_iff] at hsetup
  obtain ⟨c₁, h₁, -⟩ := hsetup
  obtain ⟨hfree, -⟩ := addFacet_eq_ok_iff.mp h₁
  rw [Bool.eq_false_iff]
  intro hsession
  have hmem : FacetKind.session ∈ ((c.copy.removeFacet .sessionClonable).removeFacet
      .sourceClonable).facetKinds := by
    rw [mem_facetKinds_removeFacet (by simp), mem_facetKinds_removeFacet (by simp),
      facetKinds_copy]
    exact isSession_iff.mp hsession
  exact hfree hmem

/-- **The names of a session** that is begun from a fresh chroot. -/
theorem namedBy_cloneSession
    {s : Chroot} {selected user : String} {root : Bool}
    (hc : Fresh c)
    (h : c.cloneSession cfg id selected user root = .ok (some s)) :
    NamedBy cfg c id s := by
  obtain ⟨hplain, -, hsetup⟩ := cloneSession_eq_ok_some_iff.mp h
  simp only [cloneSessionSetup, bind_eq_ok_iff, mapError_eq_ok_iff] at hsetup
  obtain ⟨c₁, h₁, c₂, h₂, c₃, h₃, c₄, h₄, h₅⟩ := hsetup
  obtain ⟨-, rfl⟩ := addFacet_eq_ok_iff.mp h₁
  obtain ⟨-, hvalid, rfl⟩ := setName_eq_ok_iff.mp h₂
  have hcopy : c.copy.mountLocation = "" ∧ FreshKind c.copy.kind ∧ c.copy.kind ≠ .custom true ∧
      (∀ directory, c.copy.kind ≠ .plain directory) ∧
        sessionKind id c.copy.kind = sessionKind id c.kind := by
    unfold copy
    split
    · rename_i hk
      exact ⟨hc.mountLocation, trivial, by simp, by simp, by rw [hk]; rfl⟩
    · rename_i hk
      exact ⟨hc.mountLocation, hc.kind, hk true, hplain, rfl⟩
  obtain ⟨hlocation, hfresh, hcustom, hplain', hkind⟩ := hcopy
  have hc₃ := setSessionLocation_eq_ok (by exact hplain') (by exact hlocation) h₃
  obtain ⟨kind₃, name₃, location₃⟩ := setSessionMountDevice_frame c₃
  have hkind₃ : c₃.setSessionMountDevice.kind = c.copy.kind := by
    rw [kind₃, hc₃]
    rfl
  have hname₃ : c₃.setSessionMountDevice.name = id := by
    rw [name₃, hc₃]
    rfl
  have hlocation₃ : c₃.setSessionMountDevice.mountLocation = cfg.mountDir ++ "/" ++ id := by
    rw [location₃, hc₃]
  obtain ⟨kind₄, name₄, location₄⟩ := setSessionSnapshot_eq_ok (by rwa [hkind₃])
    (by rwa [hkind₃]) h₄
  obtain ⟨kind₅, name₅, location₅, union₅⟩ := setSessionUnion_eq_ok h₅
  have hrest : ∀ b : Bool, (if b then c₄ else c₄.removeFacet .union).kind = c₄.kind ∧
      (if b then c₄ else c₄.removeFacet .union).name = c₄.name ∧
        (if b then c₄ else c₄.removeFacet .union).mountLocation = c₄.mountLocation := by
    intro b
    cases b <;> exact ⟨rfl, rfl, rfl⟩
  obtain ⟨hk, hn, hl⟩ := hrest (c.hasFacet .union)
  have hname : c₄.name = id := name₄.trans hname₃
  rw [hn, hname] at union₅
  refine ⟨hvalid, ?_, ?_, ?_, union₅⟩
  · rw [name₅, hn, hname]
  · rw [kind₅, hk, kind₄, hkind₃, hname₃, hkind]
  · rw [location₅, hl, location₄, hlocation₃]

end Naming

section Resources

/-- The kinds of resources that a session has of its own. -/
inductive Resource where
  | sessionFile
  | mountLocation
  | unionOverlay
  | unionUnderlay
  | lvmSnapshotDevice
  | btrfsSnapshotName
  | zfsSnapshotName
  | zfsCloneName
deriving DecidableEq, Repr

/-- The resource of a kind that a session has, as its accessor returns it. -/
def resource? (cfg : SbuildConfig) (s : Chroot) : Resource → Option String
  | .sessionFile => some (cfg.sessionDir ++ "/" ++ s.name)
  | .mountLocation => some s.mountLocation
  | .unionOverlay => s.unionFacet?.map UnionFacet.overlayDirectory
  | .unionUnderlay => s.unionFacet?.map UnionFacet.underlayDirectory
  | .lvmSnapshotDevice =>
      match s.kind with
      | .lvmSnapshot l => some l.snapshotDevice
      | _ => none
  | .btrfsSnapshotName =>
      match s.kind with
      | .btrfsSnapshot b => some b.snapshotName
      | _ => none
  | .zfsSnapshotName =>
      match s.kind with
      | .zfsSnapshot z => some z.snapshotName
      | _ => none
  | .zfsCloneName =>
      match s.kind with
      | .zfsSnapshot z => some z.cloneName
      | _ => none

/-- The resources of ZFS. -/
def Resource.isZfs : Resource → Bool
  | zfsSnapshotName | zfsCloneName => true
  | _ => false

/-- What separates the name of a session from what stands before it. -/
def Resource.separator : Resource → Char
  | zfsSnapshotName => '@'
  | _ => '/'

/-- What stands behind the separator. -/
def Resource.leaf (id : String) : Resource → String
  | zfsCloneName => "schroot-" ++ id
  | _ => id

/-- The dataset of a ZFS chroot, as it is configured. -/
def zfsDataset (c : Chroot) : String :=
  match c.kind with
  | .zfsSnapshot s => s.dataset
  | _ => ""

variable {cfg : SbuildConfig} {c c' s s' : Chroot} {id id' : String}

/-- A name of a resource that ends in the name of the session. -/
def Resource.EndsIn (r : Resource) (id v : String) : Prop :=
  ∃ base, v.toList = base ++ r.separator :: (r.leaf id).toList

theorem endsIn_slash
    {r : Resource}
    (hseparator : r.separator = '/')
    (hleaf : r.leaf id = id)
    (base : String) :
    r.EndsIn id (base ++ "/" ++ id) := by
  refine ⟨base.toList, ?_⟩
  rw [hseparator, hleaf]
  simp [String.toList_append]

/-- **The names of the resources of a session** end in its name, but there are none of ZFS
without a dataset. -/
theorem resource_cloneSession
    {r : Resource} {v : String}
    (hc : Fresh c)
    (hs : NamedBy cfg c id s)
    (hv : s.resource? cfg r = some v) :
    if r.isZfs = true ∧ c.zfsDataset = "" then v = "" else r.EndsIn id v := by
  cases r with
  | sessionFile =>
      cases hv
      rw [if_neg (by simp [Resource.isZfs]), hs.name]
      exact endsIn_slash rfl rfl _
  | mountLocation =>
      cases hv
      rw [if_neg (by simp [Resource.isZfs]), hs.mountLocation]
      exact endsIn_slash rfl rfl _
  | unionOverlay =>
      obtain ⟨u, hu, rfl⟩ := Option.map_eq_some_iff.mp hv
      obtain ⟨overlay, _, hoverlay, _⟩ := hs.union u hu
      rw [if_neg (by simp [Resource.isZfs]), hoverlay]
      exact endsIn_slash rfl rfl _
  | unionUnderlay =>
      obtain ⟨u, hu, rfl⟩ := Option.map_eq_some_iff.mp hv
      obtain ⟨_, underlay, _, hunderlay⟩ := hs.union u hu
      rw [if_neg (by simp [Resource.isZfs]), hunderlay]
      exact endsIn_slash rfl rfl _
  | lvmSnapshotDevice =>
      rw [if_neg (by simp [Resource.isZfs])]
      simp only [resource?, hs.kind] at hv
      cases hk : c.kind with
      | lvmSnapshot l =>
          simp only [hk, sessionKind, Option.some.injEq] at hv
          rw [← hv]
          exact endsIn_slash rfl rfl _
      | _ => simp [hk, sessionKind] at hv
  | btrfsSnapshotName =>
      rw [if_neg (by simp [Resource.isZfs])]
      simp only [resource?, hs.kind] at hv
      cases hk : c.kind with
      | btrfsSnapshot b =>
          simp only [hk, sessionKind, Option.some.injEq] at hv
          rw [← hv]
          exact endsIn_slash rfl rfl _
      | _ => simp [hk, sessionKind] at hv
  | zfsSnapshotName =>
      simp only [resource?, hs.kind] at hv
      have hfresh := hc.kind
      cases hk : c.kind with
      | zfsSnapshot z =>
          rw [hk] at hfresh
          by_cases hdataset : z.dataset = ""
          · simp only [hk, sessionKind, sessionZfs, hdataset, ne_eq, not_true_eq_false, if_false,
              Option.some.injEq] at hv
            rw [if_pos ⟨rfl, by simp [zfsDataset, hk, hdataset]⟩, ← hv]
            exact hfresh.1
          · simp only [hk, sessionKind, sessionZfs, ne_eq, hdataset, not_false_eq_true, if_true,
              Option.some.injEq] at hv
            rw [if_neg (by simp [zfsDataset, hk, hdataset]), ← hv]
            exact ⟨z.dataset.toList, by simp [String.toList_append, Resource.separator,
              Resource.leaf]⟩
      | _ => simp [hk, sessionKind] at hv
  | zfsCloneName =>
      simp only [resource?, hs.kind] at hv
      have hfresh := hc.kind
      cases hk : c.kind with
      | zfsSnapshot z =>
          rw [hk] at hfresh
          by_cases hdataset : z.dataset = ""
          · simp only [hk, sessionKind, sessionZfs, hdataset, ne_eq, not_true_eq_false, if_false,
              Option.some.injEq] at hv
            rw [if_pos ⟨rfl, by simp [zfsDataset, hk, hdataset]⟩, ← hv]
            exact hfresh.2
          · simp only [hk, sessionKind, sessionZfs, ne_eq, hdataset, not_false_eq_true, if_true,
              Option.some.injEq] at hv
            rw [if_neg (by simp [zfsDataset, hk, hdataset]), ← hv]
            exact ⟨z.dataset.toList, by simp [String.toList_append, Resource.separator,
              Resource.leaf]⟩
      | _ => simp [hk, sessionKind] at hv

/-- Names of sessions have no separators. -/
theorem separator_notMem_leaf
    (hid : isValidSessionname id = true)
    (r : Resource) :
    r.separator ∉ (r.leaf id).toList := by
  have hslash : '/' ∉ id.toList := fun hm =>
    absurd (isNameChar_of_isValidSessionname hid _ hm) (by decide)
  have hat : '@' ∉ id.toList := fun hm =>
    absurd (isNameChar_of_isValidSessionname hid _ hm) (by decide)
  cases r <;> simp [Resource.separator, Resource.leaf, String.toList_append, hslash, hat]

theorem leaf_injective
    {r : Resource}
    (h : r.leaf id = r.leaf id') :
    id = id' := by
  cases r with
  | zfsCloneName => simpa [Resource.leaf] using h
  | _ => exact h

/-- Names that end in different session names are different. -/
theorem Resource.EndsIn.ne
    {r : Resource} {v v' : String}
    (hid : isValidSessionname id = true)
    (hid' : isValidSessionname id' = true)
    (hne : id ≠ id')
    (h : r.EndsIn id v)
    (h' : r.EndsIn id' v') :
    v ≠ v' := by
  rintro rfl
  obtain ⟨base, hv⟩ := h
  obtain ⟨base', hv'⟩ := h'
  have hleaf := LineText.eq_of_append_sep (separator_notMem_leaf hid r)
    (separator_notMem_leaf hid' r) (hv.symm.trans hv')
  exact hne (leaf_injective (String.toList_inj.mp hleaf))

theorem Resource.EndsIn.ne_empty
    {r : Resource} {v : String}
    (h : r.EndsIn id v) :
    v ≠ "" := by
  rintro rfl
  obtain ⟨base, hv⟩ := h
  simp at hv

/-- **Sessions of different names share no resource**, except that two ZFS chroots without a
dataset have no names for snapshots and clones. -/
theorem resources_differ_iff
    {selected selected' user user' : String} {root root' : Bool}
    (hc : Loaded cfg c)
    (hc' : Loaded cfg c')
    (hs : c.cloneSession cfg id selected user root = .ok (some s))
    (hs' : c'.cloneSession cfg id' selected' user' root' = .ok (some s'))
    (hid : id ≠ id')
    {r : Resource} {v v' : String}
    (hv : s.resource? cfg r = some v)
    (hv' : s'.resource? cfg r = some v') :
    v ≠ v' ↔ (r.isZfs = true → c.zfsDataset ≠ "" ∨ c'.zfsDataset ≠ "") := by
  have hfresh := fresh_of_loaded hc (isSession_of_cloneSession hs)
  have hfresh' := fresh_of_loaded hc' (isSession_of_cloneSession hs')
  have hnamed := namedBy_cloneSession hfresh hs
  have hnamed' := namedBy_cloneSession hfresh' hs'
  have hends := resource_cloneSession hfresh hnamed hv
  have hends' := resource_cloneSession hfresh' hnamed' hv'
  by_cases hzfs : r.isZfs = true ∧ c.zfsDataset = ""
  · rw [if_pos hzfs] at hends
    by_cases hzfs' : r.isZfs = true ∧ c'.zfsDataset = ""
    · rw [if_pos hzfs'] at hends'
      simp [hends, hends', hzfs, hzfs'.2]
    · rw [if_neg hzfs'] at hends'
      have hne : v ≠ v' := by
        rw [hends]
        exact hends'.ne_empty.symm
      exact iff_of_true hne fun hr => .inr fun he => hzfs' ⟨hr, he⟩
  · rw [if_neg hzfs] at hends
    have hne : v ≠ v' := by
      by_cases hzfs' : r.isZfs = true ∧ c'.zfsDataset = ""
      · rw [if_pos hzfs'] at hends'
        rw [hends']
        exact hends.ne_empty
      · rw [if_neg hzfs'] at hends'
        exact hends.ne hnamed.valid hnamed'.valid hid hends'
    exact iff_of_true hne fun hr => .inl fun he => hzfs ⟨hr, he⟩

/-- A session is begun, and it passes a test. -/
theorem okAnd_any_iff
    {x : Except ObjectError (Option Chroot)} {test : Chroot → Bool} :
    okAnd x (fun s => s.any test) = true ↔ ∃ s, x = .ok (some s) ∧ test s = true := by
  rw [okAnd_eq_true_iff]
  constructor
  · rintro ⟨s, hx, hs⟩
    obtain ⟨d, rfl, hd⟩ := Option.any_eq_true _ _ |>.mp hs
    exact ⟨d, hx, hd⟩
  · rintro ⟨d, hx, hd⟩
    exact ⟨some d, hx, hd⟩

/-- A directory chroot with a union. -/
def unionDirectory : Keyfile :=
  ((Keyfile.empty.setValue "d" "type" "directory").setValue "d" "directory" "/srv").setValue
    "d" "union-type" "overlayfs"

/-- Two sessions of one chroot with a union, with different overlays. -/
theorem resources_differ_unionDirectory :
    ∃ c s s' v v', Loaded .standard c ∧
      c.cloneSession .standard "d-1" "d" "joe" false = .ok (some s) ∧
      c.cloneSession .standard "d-2" "d" "eve" true = .ok (some s') ∧
      s.resource? .standard .unionOverlay = some v ∧
      s'.resource? .standard .unionOverlay = some v' ∧
      (v ≠ v' ↔ (Resource.unionOverlay.isZfs = true → c.zfsDataset ≠ "" ∨ c.zfsDataset ≠ "")) := by
  have hrun : okAnd (ChrootConfig.loadChroot .standard "chroot" unionDirectory "d") (fun c =>
      okAnd (c.cloneSession .standard "d-1" "d" "joe" false) (fun s => s.any fun s =>
        (s.resource? .standard .unionOverlay).isSome) &&
      okAnd (c.cloneSession .standard "d-2" "d" "eve" true) (fun s => s.any fun s =>
        (s.resource? .standard .unionOverlay).isSome)) = true := by decide +kernel
  obtain ⟨c, hload, hrun⟩ := okAnd_eq_true_iff.mp hrun
  obtain ⟨hs, hs'⟩ := Bool.and_eq_true_iff.mp hrun
  obtain ⟨s, hs, hv⟩ := okAnd_any_iff.mp hs
  obtain ⟨s', hs', hv'⟩ := okAnd_any_iff.mp hs'
  obtain ⟨v, hv⟩ := Option.isSome_iff_exists.mp hv
  obtain ⟨v', hv'⟩ := Option.isSome_iff_exists.mp hv'
  exact ⟨c, s, s', v, v', .chroot hload, hs, hs', hv, hv',
    resources_differ_iff (.chroot hload) (.chroot hload) hs hs' (by simp) hv hv'⟩

/-- A ZFS chroot whose dataset is empty. -/
def zfsChroot : Keyfile :=
  (Keyfile.empty.setValue "z" "type" "zfs-snapshot").setValue "z" "zfs-dataset" ""

/-- **Without a dataset the names of snapshots are alike**: both are empty. -/
theorem not_resources_differ :
    ¬ ∀ (cfg : SbuildConfig) (c c' s s' : Chroot)
        (id id' selected selected' user user' : String) (root root' : Bool),
      Loaded cfg c → Loaded cfg c' →
        c.cloneSession cfg id selected user root = .ok (some s) →
          c'.cloneSession cfg id' selected' user' root' = .ok (some s') → id ≠ id' →
            ∀ r v v', s.resource? cfg r = some v → s'.resource? cfg r = some v' → v ≠ v' := by
  intro hall
  have hrun : okAnd (ChrootConfig.loadChroot .standard "chroot" zfsChroot "z") (fun c =>
      okAnd (c.cloneSession .standard "z-1" "z" "joe" false) (fun s => s.any fun s =>
        s.resource? .standard .zfsSnapshotName = some "") &&
      okAnd (c.cloneSession .standard "z-2" "z" "joe" false) (fun s => s.any fun s =>
        s.resource? .standard .zfsSnapshotName = some "")) = true := by decide +kernel
  obtain ⟨c, hload, hrun⟩ := okAnd_eq_true_iff.mp hrun
  obtain ⟨hs, hs'⟩ := Bool.and_eq_true_iff.mp hrun
  obtain ⟨s, hs, hv⟩ := okAnd_any_iff.mp hs
  obtain ⟨s', hs', hv'⟩ := okAnd_any_iff.mp hs'
  exact hall .standard c c s s' "z-1" "z-2" "z" "z" "joe" "joe" false false (.chroot hload)
    (.chroot hload) hs hs' (by simp) .zfsSnapshotName "" "" (of_decide_eq_true hv)
    (of_decide_eq_true hv') rfl

end Resources

end Chroot

end Schroot
