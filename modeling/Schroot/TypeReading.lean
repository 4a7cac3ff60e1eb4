import Schroot.FacetReading

/-!
# What reading the keys of a type can change

`TypeStep` says what reading one key of a type can do, over the nine types.  What the
keys of a type keep is shown by its cases.

**Results.**
* `typeStep_of_get`: what reading one key of a type can do.
* `KeptByKeys.setKeyfile`: what all keys keep is kept when a chroot is read.
-/

namespace Schroot

namespace Chroot

section TypeReading

variable {kf : Keyfile} {c₀ c c' : Chroot}

/-- The data of the type after one key of the type of `c₀` is read, if it changes. -/
inductive KindStep (kf : Keyfile) (c₀ c : Chroot) : String → ChrootKind → Prop
  | plain {key directory v : String}
      (hk : c.kind = .plain directory)
      (hv : kf.value? c.name key = some v)
      (habs : isAbsname v = true) :
      KindStep kf c₀ c key (.plain v)
  | directory {key directory v : String}
      (hk : c.kind = .directory directory)
      (hv : kf.value? c.name key = some v)
      (habs : isAbsname v = true) :
      KindStep kf c₀ c key (.directory v)
  | purgeable {purgeable b : Bool}
      (hk : c₀.kind = .custom purgeable) :
      KindStep kf c₀ c "custom-session-purgeable" (.custom b)
  | file {f : FileChroot} {v : String}
      (hk : c.kind = .file f)
      (hv : kf.value? c.name "file" = some v)
      (habs : isAbsname v = true) :
      KindStep kf c₀ c "file" (.file { f with file := v })
  | location {f : FileChroot} {v : String}
      (hk : c.kind = .file f)
      (hv : kf.value? c.name "location" = some v)
      (hok : v = "" ∨ isAbsname v = true) :
      KindStep kf c₀ c "location" (.file { f with location := v })
  | repack {f : FileChroot} {b : Bool}
      (hk : c.kind = .file f) :
      KindStep kf c₀ c "file-repack" (.file { f with repack := b })
  | blockDevice {device v : String}
      (hk : c.kind = .blockDevice device)
      (hv : kf.value? c.name "device" = some v)
      (habs : isAbsname v = true) :
      KindStep kf c₀ c "device" (.blockDevice v)
  | lvmDevice {s : LvmSnapshot} {v : String}
      (hk : c.kind = .lvmSnapshot s)
      (hv : kf.value? c.name "device" = some v)
      (habs : isAbsname v = true) :
      KindStep kf c₀ c "device" (.lvmSnapshot { s with device := v })
  | lvmOptions {s : LvmSnapshot} {v : String}
      (hk : c.kind = .lvmSnapshot s)
      (hv : kf.value? c.name "lvm-snapshot-options" = some v) :
      KindStep kf c₀ c "lvm-snapshot-options" (.lvmSnapshot { s with snapshotOptions := v })
  | loopback {file v : String}
      (hk : c.kind = .loopback file)
      (hv : kf.value? c.name "file" = some v)
      (habs : isAbsname v = true) :
      KindStep kf c₀ c "file" (.loopback v)
  | dataset {s : ZfsSnapshot} {v : String}
      (hk : c.kind = .zfsSnapshot s)
      (hv : kf.value? c.name "zfs-dataset" = some v) :
      KindStep kf c₀ c "zfs-dataset" (.zfsSnapshot { s with dataset := v })
  | zfsSnapshotName {s : ZfsSnapshot} {v : String}
      (hk : c.kind = .zfsSnapshot s)
      (hv : kf.value? c.name "zfs-snapshot-name" = some v) :
      KindStep kf c₀ c "zfs-snapshot-name" (.zfsSnapshot { s with snapshotName := v })
  | zfsOptions {s : ZfsSnapshot} {v : String}
      (hk : c.kind = .zfsSnapshot s)
      (hv : kf.value? c.name "zfs-snapshot-options" = some v) :
      KindStep kf c₀ c "zfs-snapshot-options" (.zfsSnapshot { s with snapshotOptions := v })
  | sourceSubvolume {s : BtrfsSnapshot} {v : String}
      (hk : c.kind = .btrfsSnapshot s)
      (hv : kf.value? c.name "btrfs-source-subvolume" = some v)
      (habs : isAbsname v = true) :
      KindStep kf c₀ c "btrfs-source-subvolume" (.btrfsSnapshot { s with sourceSubvolume := v })
  | snapshotDirectory {s : BtrfsSnapshot} {v : String}
      (hk : c.kind = .btrfsSnapshot s)
      (hv : kf.value? c.name "btrfs-snapshot-directory" = some v)
      (habs : isAbsname v = true) :
      KindStep kf c₀ c "btrfs-snapshot-directory" (.btrfsSnapshot { s with snapshotDirectory := v })
  | btrfsSnapshotName {s : BtrfsSnapshot} {v : String}
      (hk : c.kind = .btrfsSnapshot s)
      (hv : kf.value? c.name "btrfs-snapshot-name" = some v)
      (habs : isAbsname v = true) :
      KindStep kf c₀ c "btrfs-snapshot-name" (.btrfsSnapshot { s with snapshotName := v })

/-- **What reading one key of the type of `c₀` can do**: nothing, a change of the data of
the type, the device that a session mounts, or one of the two facets of custom chroots
switched, which sessions refuse. -/
inductive TypeStep (kf : Keyfile) (c₀ c : Chroot) : String → Chroot → Prop
  | skip (key : String) : TypeStep kf c₀ c key c
  | kind {key : String} {kind : ChrootKind}
      (h : KindStep kf c₀ c key kind) :
      TypeStep kf c₀ c key { c with kind := kind }
  | snapshotDevice {s : LvmSnapshot} {v : String} {c' : Chroot}
      (hk : c.kind = .lvmSnapshot s)
      (hv : kf.value? c.name "lvm-snapshot-device" = some v)
      (h : setLvmSnapshotDevice v s c = .ok c') :
      TypeStep kf c₀ c "lvm-snapshot-device" c'
  | cloneName {s : ZfsSnapshot} {v : String}
      (hk : c.kind = .zfsSnapshot s)
      (hv : kf.value? c.name "zfs-clone-name" = some v) :
      TypeStep kf c₀ c "zfs-clone-name" (setZfsCloneName v s c)
  | switch {key : String} {f : Facet} {b : Bool} {c' : Chroot}
      (hsession : c₀.isSession = false)
      (hf : f = .sessionClonable ∨ f = .sourceClonable {})
      (h : (if b then c.addFacet f else .ok (c.removeFacet f.kind)) = .ok c') :
      TypeStep kf c₀ c key c'

/-- Setters of the type-specific data that look at the path first. -/
theorem typeStep_of_kindSetter
    {key : String} {method : String → Chroot → Except ChrootError ChrootKind}
    {spec : KeySpec Chroot}
    (hkey : spec.key = key)
    (hread : spec.read = readString (kindSetter method))
    (hmethod : ∀ v kind, kf.value? c.name key = some v → method v c = .ok kind →
      kind = c.kind ∨ KindStep kf c₀ c key kind)
    (h : spec.get kf c.name c = .ok c') :
    TypeStep kf c₀ c key c' := by
  subst hkey
  rcases get_readString hread h with rfl | ⟨v, _, hv, hset⟩
  · exact .skip _
  · obtain ⟨kind, hkind, rfl⟩ := kindSetter_eq_ok_iff.mp hset
    rcases hmethod v kind hv hkind with rfl | hstep
    · exact .skip _
    · exact .kind hstep

theorem kindStep_setDirectory
    {key v : String} {kind : ChrootKind}
    (hv : kf.value? c.name key = some v)
    (h : setDirectory v c = .ok kind) :
    kind = c.kind ∨ KindStep kf c₀ c key kind := by
  obtain ⟨habs, h⟩ := checkAbs_bind_eq_ok_iff.mp h
  split at h <;> cases h
  · exact .inr (.plain ‹_› hv habs)
  · exact .inr (.directory ‹_› hv habs)
  · exact .inl rfl

theorem kindStep_setDevice
    {v : String} {kind : ChrootKind}
    (hv : kf.value? c.name "device" = some v)
    (h : setDevice v c = .ok kind) :
    kind = c.kind ∨ KindStep kf c₀ c "device" kind := by
  obtain ⟨habs, h⟩ := checkAbs_bind_eq_ok_iff.mp h
  split at h <;> cases h
  · exact .inr (.blockDevice ‹_› hv habs)
  · exact .inr (.lvmDevice ‹_› hv habs)
  · exact .inl rfl

theorem kindStep_setLoopbackFile
    {v : String} {kind : ChrootKind}
    (hv : kf.value? c.name "file" = some v)
    (h : setLoopbackFile v c = .ok kind) :
    kind = c.kind ∨ KindStep kf c₀ c "file" kind := by
  obtain ⟨habs, h⟩ := checkAbs_bind_eq_ok_iff.mp h
  split at h <;> cases h
  · exact .inr (.loopback ‹_› hv habs)
  · exact .inl rfl

/-- A method of the file data. -/
theorem withFile_cases
    {f : FileChroot → Except ChrootError FileChroot} {kind : ChrootKind}
    (h : withFile f c = .ok kind) :
    kind = c.kind ∨ ∃ d d', c.kind = .file d ∧ f d = .ok d' ∧ kind = .file d' := by
  unfold withFile at h
  split at h
  · rename_i d hk
    obtain ⟨d', hd, rfl⟩ := map_eq_ok_iff.mp h
    exact .inr ⟨d, d', hk, hd, rfl⟩
  · cases h
    exact .inl rfl

/-- A method of the Btrfs data. -/
theorem withBtrfs_cases
    {f : BtrfsSnapshot → BtrfsSnapshot} {path : String} {kind : ChrootKind}
    (h : withBtrfs f path c = .ok kind) :
    kind = c.kind ∨
      ∃ s, c.kind = .btrfsSnapshot s ∧ isAbsname path = true ∧ kind = .btrfsSnapshot (f s) := by
  unfold withBtrfs at h
  split at h
  · rename_i s hk
    obtain ⟨habs, h⟩ := checkAbs_bind_eq_ok_iff.mp h
    cases h
    exact .inr ⟨s, hk, habs, rfl⟩
  · cases h
    exact .inl rfl

theorem kindStep_setSourceSubvolume
    {v : String} {kind : ChrootKind}
    (hv : kf.value? c.name "btrfs-source-subvolume" = some v)
    (h : setSourceSubvolume v c = .ok kind) :
    kind = c.kind ∨ KindStep kf c₀ c "btrfs-source-subvolume" kind := by
  unfold setSourceSubvolume at h
  split at h
  · rename_i s hk
    obtain ⟨habs, h⟩ := checkAbs_bind_eq_ok_iff.mp h
    cases h
    exact .inr (.sourceSubvolume hk hv habs)
  · cases h
    exact .inl rfl

/-- A key of ZFS chroots that changes only the data of the type. -/
theorem typeStep_of_withZfs
    {key : String} {f : String → ZfsSnapshot → ZfsSnapshot} {spec : KeySpec Chroot}
    (hkey : spec.key = key)
    (hread : spec.read = readString (pureSetter fun v => withZfs fun s c =>
      { c with kind := .zfsSnapshot (f v s) }))
    (hstep : ∀ v s, c.kind = .zfsSnapshot s → kf.value? c.name key = some v →
      KindStep kf c₀ c key (.zfsSnapshot (f v s)))
    (h : spec.get kf c.name c = .ok c') :
    TypeStep kf c₀ c key c' := by
  subst hkey
  rcases get_readString hread h with rfl | ⟨v, _, hv, hset⟩
  · exact .skip _
  · cases hset
    show TypeStep kf c₀ c spec.key (withZfs _ c)
    unfold withZfs
    split
    · exact .kind (hstep v _ ‹_› hv)
    · exact .skip _

/-- **Reading one key of a type.** -/
theorem typeStep_of_get
    {spec : KeySpec Chroot}
    (hspec : spec ∈ typeKeys kf c₀)
    (h : spec.get kf c.name c = .ok c') :
    TypeStep kf c₀ c spec.key c' := by
  have hfree : (if c₀.isSession then Priority.disallowed else .optional) ≠ .disallowed →
      c₀.isSession = false := by
    cases c₀.isSession <;> simp
  cases hk : c₀.kind with
  | plain dir | directory dir =>
      simp only [typeKeys, hk, directoryKeys, List.mem_cons, List.not_mem_nil, or_false] at hspec
      rcases hspec with rfl | rfl
      · exact typeStep_of_kindSetter rfl rfl (fun _ _ => kindStep_setDirectory) h
      · exact typeStep_of_kindSetter rfl rfl (fun _ _ => kindStep_setDirectory) h
  | custom purgeable =>
      simp only [typeKeys, hk, customKeys, List.mem_cons, List.not_mem_nil, or_false] at hspec
      rcases hspec with rfl | rfl | rfl
      · rcases get_readBool rfl h with rfl | ⟨_, _, hp, _, _, hset⟩
        · exact .skip _
        · exact .switch (hfree hp) (.inl rfl) (chrootSetter_eq_ok_iff.mp hset)
      · rcases get_readBool rfl h with rfl | ⟨_, _, _, _, _, hset⟩
        · exact .skip _
        · cases hset
          exact .kind (.purgeable hk)
      · rcases get_readBool rfl h with rfl | ⟨_, _, hp, _, _, hset⟩
        · exact .skip _
        · exact .switch (hfree hp) (.inr rfl) (chrootSetter_eq_ok_iff.mp hset)
  | file f =>
      simp only [typeKeys, hk, fileKeys, List.mem_cons, List.not_mem_nil, or_false] at hspec
      rcases hspec with rfl | rfl | rfl
      · refine typeStep_of_kindSetter rfl rfl (fun v kind hv hset => ?_) h
        rcases withFile_cases hset with hsame | ⟨d, d', hd, hd', rfl⟩
        · exact .inl hsame
        · obtain ⟨habs, hd'⟩ := checkAbs_bind_eq_ok_iff.mp hd'
          cases hd'
          exact .inr (.file hd hv habs)
      · refine typeStep_of_kindSetter rfl rfl (fun v kind hv hset => ?_) h
        rcases withFile_cases hset with hsame | ⟨d, d', hd, hd', rfl⟩
        · exact .inl hsame
        · obtain ⟨location, hlocation, hd'⟩ := bind_eq_ok_iff.mp hd'
          cases hd'
          obtain ⟨hok, habs⟩ := checkLocation_eq_ok_iff.mp hlocation
          subst hok
          exact .inr (.location hd hv habs)
      · rcases get_readBool rfl h with rfl | ⟨_, b, _, _, _, hset⟩
        · exact .skip _
        · obtain ⟨kind, hkind, rfl⟩ := kindSetter_eq_ok_iff.mp hset
          rcases withFile_cases hkind with rfl | ⟨d, d', hd, hd', rfl⟩
          · exact .skip _
          · cases hd'
            exact .kind (.repack hd)
  | blockDevice device =>
      simp only [typeKeys, hk, blockDeviceKeys, List.mem_singleton] at hspec
      subst hspec
      exact typeStep_of_kindSetter rfl rfl (fun _ _ => kindStep_setDevice) h
  | loopback file =>
      simp only [typeKeys, hk, loopbackKeys, List.mem_singleton] at hspec
      subst hspec
      exact typeStep_of_kindSetter rfl rfl (fun _ _ => kindStep_setLoopbackFile) h
  | lvmSnapshot s =>
      simp only [typeKeys, hk, lvmSnapshotKeys, blockDeviceKeys, List.cons_append,
        List.nil_append, List.mem_cons, List.not_mem_nil, or_false] at hspec
      rcases hspec with rfl | rfl | rfl
      · exact typeStep_of_kindSetter rfl rfl (fun _ _ => kindStep_setDevice) h
      · rcases get_readString rfl h with rfl | ⟨v, _, hv, hset⟩
        · exact .skip _
        · have hset := chrootSetter_eq_ok_iff.mp hset
          unfold withLvm at hset
          split at hset
          · exact .snapshotDevice ‹_› hv hset
          · cases hset
            exact .skip _
      · rcases get_readString rfl h with rfl | ⟨v, _, hv, hset⟩
        · exact .skip _
        · have hset := chrootSetter_eq_ok_iff.mp hset
          unfold withLvm at hset
          split at hset
          · cases hset
            exact .kind (.lvmOptions ‹_› hv)
          · cases hset
            exact .skip _
  | zfsSnapshot s =>
      simp only [typeKeys, hk, zfsSnapshotKeys, List.mem_cons, List.not_mem_nil,
        or_false] at hspec
      rcases hspec with rfl | rfl | rfl | rfl
      · exact typeStep_of_withZfs rfl rfl (fun _ _ => .dataset) h
      · exact typeStep_of_withZfs rfl rfl (fun _ _ => .zfsSnapshotName) h
      · rcases get_readString rfl h with rfl | ⟨v, _, hv, hset⟩
        · exact .skip _
        · cases hset
          show TypeStep kf c₀ c "zfs-clone-name" (withZfs (setZfsCloneName v) c)
          unfold withZfs
          split
          · exact .cloneName ‹_› hv
          · exact .skip _
      · exact typeStep_of_withZfs rfl rfl (fun _ _ => .zfsOptions) h
  | btrfsSnapshot s =>
      simp only [typeKeys, hk, btrfsSnapshotKeys, List.mem_cons, List.not_mem_nil,
        or_false] at hspec
      rcases hspec with rfl | rfl | rfl
      · exact typeStep_of_kindSetter rfl rfl (fun _ _ => kindStep_setSourceSubvolume) h
      · refine typeStep_of_kindSetter rfl rfl (fun v kind hv hset => ?_) h
        rcases withBtrfs_cases hset with hsame | ⟨s, hs, habs, rfl⟩
        · exact .inl hsame
        · exact .inr (.snapshotDirectory hs hv habs)
      · refine typeStep_of_kindSetter rfl rfl (fun v kind hv hset => ?_) h
        rcases withBtrfs_cases hset with hsame | ⟨s, hs, habs, rfl⟩
        · exact .inl hsame
        · exact .inr (.btrfsSnapshotName hs hv habs)

/-- The data stays of its type. -/
theorem KindStep.typeName
    {key : String} {kind : ChrootKind}
    (htype : c.kind.typeName = c₀.kind.typeName)
    (h : KindStep kf c₀ c key kind) :
    kind.typeName = c.kind.typeName := by
  cases h with
  | purgeable hk => rw [htype, hk, ChrootKind.typeName, ChrootKind.typeName]
  | _ => simp [*, ChrootKind.typeName]

end TypeReading

section Invariants

variable {cfg : SbuildConfig} {kf : Keyfile} {P : Chroot → Prop} {c c' : Chroot}

/-- What keeps an invariant when it is done for one key of a facet or the type of a union. -/
structure KeptByFacets (kf : Keyfile) (P : Chroot → Prop) : Prop where
  facet : ∀ {key x y}, P x → FacetStep kf x key y → P y
  unionType : ∀ {v x y}, P x → kf.value? x.name "union-type" = some v →
    setUnionType v x = .ok y → P y

theorem KeptByFacets.readPlainKeys
    {specs : List (KeySpec Chroot)}
    (hP : KeptByFacets kf P)
    (hc : P c)
    (session needed : Bool)
    (hsub : ∀ spec ∈ specs, spec ∈ plainFacetKeys session needed)
    (h : readKeys kf specs c = .ok c') :
    P c' :=
  readKeys_invariant
    (fun spec hs _ _ hx hget => hP.facet hx (facetStep_of_get (hsub spec hs) hget)) hc h

theorem KeptByFacets.setUnionKeyfile
    {more : List String}
    (hP : KeptByFacets kf P)
    (hc : P c)
    (h : Chroot.setUnionKeyfile kf c = .ok (c', more)) :
    P c' := by
  simp only [Chroot.setUnionKeyfile, bind_eq_ok_iff] at h
  obtain ⟨d, hd, e, he, g, hg, h⟩ := h
  cases h
  obtain ⟨d', hget, hd'⟩ := readKeys_cons_eq_ok_iff.mp hd
  cases hd'
  have hd : P d := by
    rcases get_readString rfl hget with rfl | ⟨v, _, hv, hset⟩
    · exact hc
    · exact hP.unionType hc hv hset
  have he : P e := by
    refine hP.readPlainKeys hd false false (fun spec hs => ?_) he
    split at hs
    · simp [plainFacetKeys, hs]
    · cases hs
  have hsub : ∀ needed, ∀ spec ∈ unionKeys needed, spec ∈ plainFacetKeys false needed := by
    intro needed spec hs
    simp [plainFacetKeys, hs]
  exact hP.readPlainKeys he false _ (hsub _) hg

theorem KeptByFacets.setFacetKeyfile
    {kind : FacetKind} {more : List String}
    (hP : KeptByFacets kf P)
    (hc : P c)
    (h : Chroot.setFacetKeyfile kf kind c = .ok (c', more)) :
    P c' := by
  have htable : ∀ session specs,
      (∀ spec ∈ specs, spec ∈ plainFacetKeys session false) →
        (readKeys kf specs c).map (fun d => (d, specs.map KeySpec.used)) = .ok (c', more) →
          P c' := by
    intro session specs hsub hread
    obtain ⟨d, hd, he⟩ := map_eq_ok_iff.mp hread
    cases he
    exact hP.readPlainKeys hc session false hsub hd
  cases kind with
  | union => exact hP.setUnionKeyfile hc h
  | personality => exact htable false _ (fun _ hs => by simp [plainFacetKeys, hs]) h
  | userdata => exact htable false _ (fun _ hs => by simp [plainFacetKeys, hs]) h
  | session => exact htable false _ (fun _ hs => by simp [plainFacetKeys, hs]) h
  | sourceClonable => exact htable false _ (fun _ hs => by simp [plainFacetKeys, hs]) h
  | mountable => exact htable c.isSession _ (fun _ hs => by simp [plainFacetKeys, hs]) h
  | sessionClonable => exact htable false [] (by simp) h
  | source => exact htable false [] (by simp) h

theorem KeptByFacets.setFacetsKeyfile
    {n : Nat} {rest : List Facet} {used used' : List String}
    (hP : KeptByFacets kf P)
    (hc : P c)
    (h : Chroot.setFacetsKeyfile kf n rest c used = .ok (c', used')) :
    P c' :=
  setFacetsKeyfile_keeps (R := fun x y => P x → P y) (fun _ hx => hx)
    (fun _ _ _ hxy hyz hx => hyz (hxy hx))
    (fun _ _ _ _ hstep hx => hP.setFacetKeyfile hx hstep) h hc

/-- What keeps an invariant when it is done for one key: a key of the base class, of a type or
of a facet, the type of a union, and a key that is taken as user data. -/
structure KeptByKeys (cfg : SbuildConfig) (kf : Keyfile) (P : Chroot → Prop) : Prop where
  base : ∀ {session key x y}, P x → BaseStep cfg session kf x key y → P y
  type : ∀ {x₀ key x y}, P x → TypeStep kf x₀ x key y → P y
  facet : ∀ {key x y}, P x → FacetStep kf x key y → P y
  unionType : ∀ {v x y}, P x → kf.value? x.name "union-type" = some v →
    setUnionType v x = .ok y → P y
  userdata : ∀ {key value x u u'}, P x → x.userdata? = some u →
    kf.value? x.name key = some value → u.setData key value = .ok u' →
      P (x.updateFacet (.userdata u'))

/-- The part of it that is about facets. -/
theorem KeptByKeys.facets
    (hP : KeptByKeys cfg kf P) :
    KeptByFacets kf P where
  facet := hP.facet
  unionType := hP.unionType

theorem KeptByKeys.setUnusedKeys
    (hP : KeptByKeys cfg kf P)
    (hc : P c)
    (keys : List String) :
    P (keys.foldl (Chroot.setUnusedKey kf) c) := by
  induction keys generalizing c with
  | nil => exact hc
  | cons key keys ih =>
      refine ih ?_
      unfold Chroot.setUnusedKey
      split
      · rename_i u value hu hv
        split
        · rename_i u' hset
          exact hP.userdata hc hu hv hset
        · exact hc
      · exact hc

/-- **What every key keeps is kept when a chroot is read.** -/
theorem KeptByKeys.setKeyfile
    (hP : KeptByKeys cfg kf P)
    (hc : P c)
    (h : c.setKeyfile cfg kf = .ok c') :
    P c' := by
  simp only [Chroot.setKeyfile, bind_eq_ok_iff] at h
  obtain ⟨⟨d, used⟩, htype, ⟨e, used'⟩, hfacets, h⟩ := h
  cases h
  simp only [setTypeKeyfile, bind_eq_ok_iff] at htype
  obtain ⟨b, hbase, _, _, d', hkeys, hd⟩ := htype
  cases hd
  have hb : P b :=
    readKeys_invariant (fun _ hs _ _ hx hget => hP.base hx (baseStep_of_get hs hget)) hc hbase
  have hd : P d :=
    readKeys_invariant (fun _ hs _ _ hx hget => hP.type hx (typeStep_of_get hs hget)) hb hkeys
  have he : P e := hP.facets.setFacetsKeyfile hd hfacets
  exact hP.setUnusedKeys he _

end Invariants

end Chroot

end Schroot
