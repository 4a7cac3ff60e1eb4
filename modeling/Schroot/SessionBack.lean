import Schroot.ChrootReloading
import Schroot.SessionTemplate

/-!
# Reading a session back

What a session has written is read into the template of a session of its type.  The names of a
snapshot and the device that is mounted are read here, as sessions have them.

**Results.**
* `readKeys_typeKeys_session`: the keys of the type.
* `setFacetsKeyfile_session`: the facets, if the union is not configured.
-/

namespace Schroot

namespace Chroot

section Types

variable {kf : Keyfile} {s x y : Chroot}

/-- Reading the type of a session changes the data of the type and the device that is mounted. -/
structure TypeRead (x y : Chroot) : Prop where
  rest : y = { x with kind := y.kind, facets := y.facets }
  facetKinds : y.facetKinds = x.facetKinds
  facets : ∀ k, k ≠ .mountable → y.getFacet k = x.getFacet k
  fresh : (∀ f ∈ x.facets, IsFresh f) → ∀ f ∈ y.facets, IsFresh f

theorem typeRead_kind (x : Chroot) (kind : ChrootKind) : TypeRead x { x with kind := kind } :=
  ⟨rfl, rfl, fun _ _ => rfl, fun h => h⟩

theorem typeRead_setMountDevice (x : Chroot) (kind : ChrootKind) (device : String) :
    TypeRead x (setMountDevice device { x with kind := kind }) := by
  unfold setMountDevice
  split
  · exact typeRead_kind x kind
  · refine ⟨rfl, facetKinds_updateFacet _ _,
      fun k hk => getFacet_updateFacet (f := .mountable _) hk, fun h f hf => ?_⟩
    · rcases TaggedList.mem_replace hf with rfl | hf
      · exact trivial
      · exact h f hf

theorem readKeys_fileKeys_session
    {f : FileChroot}
    (hfinds : FindsType kf s x)
    (hsession : s.isSession = true)
    (hk : s.kind = .file f)
    (hlegible : SessionKindLegible (.file f))
    (hx : x.kind = .file {}) :
    readKeys kf (fileKeys true) x = .ok { x with kind := .file f } := by
  obtain ⟨hfile, hlocation⟩ := hlegible
  refine readKeys_set (v := f.file) (hfinds.value (by simp [typeEntries, hk])) rfl (by decide)
    (kindSetter_eq_ok_iff.mpr ⟨.file { file := f.file }, ?_, rfl⟩) ?_
  · simp [withFile, hx, checkAbs_of_isAbsname hfile, bind, Except.bind, pure, Except.pure,
      Except.map]
  refine readKeys_set (v := f.location) (hfinds.value (by simp [typeEntries, hk])) rfl
    (by decide) (kindSetter_eq_ok_iff.mpr
      ⟨.file { file := f.file, location := f.location }, ?_, rfl⟩) ?_
  · simp [withFile, checkLocation_of_legible hlocation, bind, Except.bind, pure, Except.pure,
      Except.map]
  exact readKeys_set (v := printBool f.repack)
    (hfinds.value (by simp [typeEntries, hk, entryIf, hsession])) (readBool_printBool _ _)
    (by decide) (kindSetter_eq_ok_iff.mpr ⟨.file f, rfl, rfl⟩) rfl

theorem readKeys_lvmSnapshotKeys_session
    {l : LvmSnapshot}
    (hfinds : FindsType kf s x)
    (hsession : s.isSession = true)
    (hk : s.kind = .lvmSnapshot l)
    (hlegible : SessionKindLegible (.lvmSnapshot l))
    (hx : x.kind = .lvmSnapshot {}) :
    readKeys kf (lvmSnapshotKeys true) x =
      .ok (setMountDevice l.snapshotDevice { x with
        kind := .lvmSnapshot { device := l.device, snapshotDevice := l.snapshotDevice } }) := by
  obtain ⟨hdevice, hsnapshot⟩ := hlegible
  refine readKeys_blockDeviceKeys (k := .lvmSnapshot { device := l.device }) hfinds
    (by simp [typeEntries, hk]) (checkAbs_bind_eq_ok_iff.mpr ⟨hdevice, by simp only [hx]; rfl⟩) ?_
  refine readKeys_set (v := l.snapshotDevice)
    (hfinds.value (by simp [typeEntries, hk, entryIf, hsession])) rfl (by decide)
    (mapError_eq_ok_iff.mpr (checkAbs_bind_eq_ok_iff.mpr ⟨hsnapshot, rfl⟩)) ?_
  refine readKeys_skip ?_ (by decide) rfl
  rw [(frame_setMountDevice _ _).name]
  exact hfinds.none (by decide) (by simp [typeEntries, hk, entryIf, hsession])

theorem readKeys_zfsSnapshotKeys_session
    {z : ZfsSnapshot}
    (hfinds : FindsType kf s x)
    (hsession : s.isSession = true)
    (hk : s.kind = .zfsSnapshot z)
    (hx : x.kind = .zfsSnapshot {})
    (hsource : x.hasFacet .source = false)
    (hdataset : kf.value? x.name "zfs-dataset" = none) :
    readKeys kf (zfsSnapshotKeys true) x =
      .ok (setMountDevice z.cloneName { x with
        kind := .zfsSnapshot { snapshotName := z.snapshotName, cloneName := z.cloneName } }) := by
  have hset : withZfs (setZfsCloneName z.cloneName)
      { x with kind := .zfsSnapshot { snapshotName := z.snapshotName } } =
        setMountDevice z.cloneName { x with
          kind := .zfsSnapshot { snapshotName := z.snapshotName, cloneName := z.cloneName } } := by
    have hno : hasFacet { x with
        kind := .zfsSnapshot { snapshotName := z.snapshotName, cloneName := z.cloneName } }
          .source = false := hsource
    simp only [withZfs, setZfsCloneName, hno, Bool.false_eq_true, if_false]
  refine readKeys_skip hdataset (by decide) ?_
  refine readKeys_set (v := z.snapshotName)
    (hfinds.value (by simp [typeEntries, hk, entryIf, hsession])) rfl (by decide)
    (y := { x with kind := .zfsSnapshot { snapshotName := z.snapshotName } }) ?_ ?_
  · simp only [pureSetter, withZfs, hx]
  refine readKeys_set (v := z.cloneName)
    (hfinds.value (by simp [typeEntries, hk, entryIf, hsession])) rfl (by decide)
    (congrArg Except.ok hset) ?_
  refine readKeys_skip ?_ (by decide) rfl
  rw [(frame_setMountDevice _ _).name]
  exact hfinds.none (by decide) (by simp [typeEntries, hk, entryIf, hsession])

theorem readKeys_btrfsSnapshotKeys_session
    {b : BtrfsSnapshot}
    (hfinds : FindsType kf s x)
    (hsession : s.isSession = true)
    (hk : s.kind = .btrfsSnapshot b)
    (hlegible : SessionKindLegible (.btrfsSnapshot b))
    (hx : x.kind = .btrfsSnapshot {}) :
    readKeys kf (btrfsSnapshotKeys true) x =
      .ok { x with kind := .btrfsSnapshot { snapshotName := b.snapshotName } } := by
  refine readKeys_skip (hfinds.none (by decide) ?_) (by decide) ?_
  · simp [typeEntries, hk, entryIf, hsession]
  refine readKeys_skip (hfinds.none (by decide) ?_) (by decide) ?_
  · simp [typeEntries, hk, entryIf, hsession]
  refine readKeys_set (v := b.snapshotName)
    (hfinds.value (by simp [typeEntries, hk, entryIf, hsession])) rfl (by decide)
    (kindSetter_eq_ok_iff.mpr ⟨.btrfsSnapshot { snapshotName := b.snapshotName }, ?_, rfl⟩) rfl
  have habs : isAbsname b.snapshotName = true := hlegible
  simp [withBtrfs, hx, checkAbs_of_isAbsname habs, bind, Except.bind, pure, Except.pure]

/-- **The keys of the type of a session are read back** into a template of that type. -/
theorem readKeys_typeKeys_session
    (hfinds : FindsType kf s x)
    (hsession : s.isSession = true)
    (hlegible : SessionKindLegible s.kind)
    (hlocation : ∀ d, s.kind = .directory d → kf.value? x.name "location" = none)
    (hother : ∀ {key}, key ∉ plainKeyNames → ¬ IsDotted key → kf.value? x.name key = none)
    (hxsession : x.isSession = true)
    (hsource : x.hasFacet .source = false)
    (hnew : x.kind = newKind s.kind) :
    requireDirectory kf x = .ok () ∧ ∃ y, readKeys kf (typeKeys kf x) x = .ok y ∧
      TypeRead x y ∧ y.typeEntries = s.typeEntries ∧ y.typeFlags = s.typeFlags ∧
        y.kind.typeName = s.kind.typeName := by
  have hmount : ∀ kind device, (setMountDevice device { x with kind := kind }).isSession = true :=
    fun kind device => by
      rw [← hxsession]
      exact hasFacet_eq_of_facetKinds (typeRead_setMountDevice x kind device).facetKinds .session
  have hkindOnly : ∀ kind, ({ x with kind := kind } : Chroot).isSession = true := fun _ => hxsession
  cases hk : s.kind with
  | plain =>
      rw [hk] at hlegible
      exact hlegible.elim
  | directory directory =>
      rw [hk] at hlegible hnew
      have hx : x.kind = .directory "" := hnew
      obtain ⟨hrequired, hread⟩ := readKeys_directoryKeys hfinds (.inr hk)
        (checkAbs_bind_eq_ok_iff.mpr ⟨hlegible, by simp only [hx]; rfl⟩) (hlocation directory hk)
      refine ⟨hrequired, _, ?_, typeRead_kind x _, ?_, ?_, rfl⟩
      · simp only [typeKeys, hx]
        exact hread
      · simp [typeEntries, hk]
      · simp [typeFlags, hk]
  | custom purgeable =>
      rw [hk] at hnew
      have hx : x.kind = .custom false := hnew
      have hread := readKeys_customKeys true hfinds hk (hother (by decide) (by decide))
        (hother (by decide) (by decide))
      refine ⟨by simp [requireDirectory, hx], _, ?_, typeRead_kind x _, ?_, ?_, rfl⟩
      · simp only [typeKeys, hx, hxsession]
        exact hread
      · simp [typeEntries, hk]
      · simp [typeFlags, hk, hsession, hkindOnly]
  | file f =>
      rw [hk] at hlegible hnew
      have hx : x.kind = .file {} := hnew
      have hread := readKeys_fileKeys_session hfinds hsession hk hlegible hx
      refine ⟨by simp [requireDirectory, hx], _, ?_, typeRead_kind x _, ?_, ?_, rfl⟩
      · simp only [typeKeys, hx, hxsession]
        exact hread
      · simp [typeEntries, hk, hsession, hkindOnly]
      · simp [typeFlags, hk, hsession, hkindOnly]
  | blockDevice device =>
      rw [hk] at hlegible hnew
      have hx : x.kind = .blockDevice "" := hnew
      have hread := readKeys_blockDeviceKeys (l := []) (k := .blockDevice device) hfinds
        (by simp [typeEntries, hk])
        (checkAbs_bind_eq_ok_iff.mpr ⟨hlegible, by simp only [hx]; rfl⟩) rfl
      refine ⟨by simp [requireDirectory, hx], _, ?_, typeRead_kind x _, ?_, ?_, rfl⟩
      · simp only [typeKeys, hx]
        exact hread
      · simp [typeEntries, hk]
      · simp [typeFlags, hk]
  | loopback file =>
      rw [hk] at hlegible hnew
      have hx : x.kind = .loopback "" := hnew
      have hread := readKeys_loopbackKeys hfinds hk hlegible hx
      refine ⟨by simp [requireDirectory, hx], _, ?_, typeRead_kind x _, ?_, ?_, rfl⟩
      · simp only [typeKeys, hx]
        exact hread
      · simp [typeEntries, hk]
      · simp [typeFlags, hk]
  | lvmSnapshot l =>
      rw [hk] at hlegible hnew
      have hx : x.kind = .lvmSnapshot {} := hnew
      have hread := readKeys_lvmSnapshotKeys_session hfinds hsession hk hlegible hx
      have hkeys : typeKeys kf x = lvmSnapshotKeys true := by simp only [typeKeys, hx, hxsession]
      rw [← hkeys] at hread
      refine ⟨by simp [requireDirectory, hx], _, hread, typeRead_setMountDevice x _ _, ?_, ?_, ?_⟩
      · simp [typeEntries, hk, hsession, hmount, entryIf]
      · simp [typeFlags, hk, hsession, hmount]
      · simp [ChrootKind.typeName]
  | zfsSnapshot z =>
      rw [hk] at hnew
      have hx : x.kind = .zfsSnapshot {} := hnew
      have hread := readKeys_zfsSnapshotKeys_session hfinds hsession hk hx hsource
        (hother (by decide) (by decide))
      have hkeys : typeKeys kf x = zfsSnapshotKeys true := by simp only [typeKeys, hx, hxsession]
      rw [← hkeys] at hread
      refine ⟨by simp [requireDirectory, hx], _, hread, typeRead_setMountDevice x _ _, ?_, ?_, ?_⟩
      · simp [typeEntries, hk, hsession, hmount, entryIf]
      · simp [typeFlags, hk, hsession, hmount]
      · simp [ChrootKind.typeName]
  | btrfsSnapshot b =>
      rw [hk] at hlegible hnew
      have hx : x.kind = .btrfsSnapshot {} := hnew
      have hread := readKeys_btrfsSnapshotKeys_session hfinds hsession hk hlegible hx
      have hkeys : typeKeys kf x = btrfsSnapshotKeys true := by simp only [typeKeys, hx, hxsession]
      rw [← hkeys] at hread
      refine ⟨by simp [requireDirectory, hx], _, hread, typeRead_kind x _, ?_, ?_, ?_⟩
      · simp [typeEntries, hk, hsession, hkindOnly, entryIf]
      · simp [typeFlags, hk, hsession, hkindOnly]
      · rfl

end Types

section Facets

variable {kf : Keyfile} {s x : Chroot} {before after rest : List Facet}

theorem withSession_focus
    {z : SessionFacet}
    (f : SessionFacet → SessionFacet)
    (hbefore : ∀ g ∈ before, g.kind ≠ .session) :
    withSession f (x.withFacets (before ++ .session z :: after)) =
      x.withFacets (before ++ .session (f z) :: after) := by
  have hget := getFacet_focus x (.session z) after hbefore
  simp only [Facet.kind] at hget
  rw [withSession, sessionFacet?, hget]
  exact updateFacet_focus _ _ hbefore rfl

/-- **The names of a session are read back**; the selected one is cut at a namespace separator
again. -/
theorem readKeys_sessionKeys
    {y z : SessionFacet}
    (hkf : HasValues kf s)
    (hs : WellKeyed s)
    (hz : s.getFacet .session = some (.session z))
    (hsource : .sourceClonable ∉ s.facetKinds)
    (hname : x.name = s.name)
    (hbefore : ∀ g ∈ before, g.kind ≠ .session) :
    readKeys kf sessionKeys (x.withFacets (before ++ .session y :: after)) =
      .ok (x.withFacets (before ++ .session { y with
        originalName := z.originalName
        selectedName := (getNamespace z.selectedName).2 } :: after)) := by
  have hnone : ∀ {key}, key ∈ facetKeyNames .sourceClonable → key ≠ "location" →
      kf.value? x.name key = none := by
    rw [hname]
    refine fun hkey hlocation => hkf.facet_none _ hs hkey hlocation fun f hf => ?_
    rw [getFacet_none hsource] at hf
    cases hf
  have hvalue : ∀ {key value}, (key, value) ∈ facetEntries s.isSession (.session z) →
      kf.value? x.name key = some value := by
    rw [hname]
    exact fun hmem => hkf.of_mem_facet hs hz hmem
  have hactive : kf.value? x.name "active" = none := by
    rw [hname]
    exact hkf.other_none hs (by decide) (by decide)
  refine readKeys_skip hactive (by decide) ?_
  refine readKeys_skip (hnone (by decide) (by decide)) (by decide) ?_
  refine readKeys_skip (hnone (by decide) (by decide)) (by decide) ?_
  refine readKeys_skip (hnone (by decide) (by decide)) (by decide) ?_
  refine readKeys_skip (hnone (by decide) (by decide)) (by decide) ?_
  refine readKeys_set (v := z.originalName) (hvalue (by simp [facetEntries])) rfl (by decide)
    (congrArg Except.ok (withSession_focus _ hbefore)) ?_
  exact readKeys_set (v := z.selectedName) (hvalue (by simp [facetEntries])) rfl (by decide)
    (congrArg Except.ok (withSession_focus _ hbefore)) rfl

/-- **The device that a session mounts is read back**, with the mount options and the location. -/
theorem readKeys_mountableKeys_session
    {m n : Mountable}
    (hkf : HasValues kf s)
    (hs : WellKeyed s)
    (hsession : s.isSession = true)
    (hm : s.getFacet .mountable = some (.mountable m))
    (hlegible : FacetLegible (.mountable m))
    (hname : x.name = s.name)
    (hbefore : ∀ g ∈ before, g.kind ≠ .mountable) :
    readKeys kf (mountableKeys true) (x.withFacets (before ++ .mountable n :: after)) =
      .ok (x.withFacets (before ++ .mountable m :: after)) := by
  have hvalue : ∀ {key value}, (key, value) ∈ facetEntries s.isSession (.mountable m) →
      kf.value? x.name key = some value := by
    rw [hname]
    exact fun hmem => hkf.of_mem_facet hs hm hmem
  refine readKeys_set (v := m.mountDevice) (hvalue (by simp [facetEntries, entryIf, hsession])) rfl
    (by decide) (withMountable_focus rfl hbefore) ?_
  refine readKeys_set (v := m.mountOptions) (hvalue (by simp [facetEntries])) rfl (by decide)
    (withMountable_focus rfl hbefore) ?_
  refine readKeys_set (v := m.location) (hvalue (by simp [facetEntries])) rfl (by decide)
    (withMountable_focus (n := m) ?_ hbefore) rfl
  rw [checkLocation_of_legible hlegible]
  rfl

/-- What reading makes of a facet of the template, if the union is not configured. -/
def rereadSession (s : Chroot) : Facet → Facet
  | .session y =>
      match s.sessionFacet? with
      | some z =>
          .session { y with
            originalName := z.originalName
            selectedName := (getNamespace z.selectedName).2 }
      | none => .session y
  | .mountable n => .mountable (s.mountable?.getD n)
  | f => reread s f

theorem kind_rereadSession (s : Chroot) (f : Facet) : (rereadSession s f).kind = f.kind := by
  unfold rereadSession
  split
  · split <;> rfl
  · rfl
  · exact kind_reread s f

/-- What a session has to have for its facets to be read back. -/
structure FacetsLegible (kf : Keyfile) (s : Chroot) : Prop where
  values : HasValues kf s
  keyed : WellKeyed s
  session : s.isSession = true
  legible : ∀ f ∈ s.facets, FacetLegible f
  source : .sourceClonable ∉ s.facetKinds
  union : ∀ u, s.unionFacet? = some u → u.configured = false

/-- **One facet of a session is read back.** -/
theorem setFacetKeyfile_session
    {f : Facet}
    (hs : FacetsLegible kf s)
    (hname : x.name = s.name)
    (hfresh : IsFresh f)
    (hkind : f.kind ∈ s.facetKinds)
    (hxsession : (x.withFacets (before ++ f :: after)).isSession = true)
    (hbefore : ∀ g ∈ before, g.kind ≠ f.kind)
    (hclonable : ∀ g ∈ before ++ after, g.kind ≠ .sourceClonable) :
    ∃ more, setFacetKeyfile kf f.kind (x.withFacets (before ++ f :: after)) =
      .ok (x.withFacets (before ++ rereadSession s f :: after), more) ∧ Undotted more := by
  obtain ⟨hkf, hkeyed, hsession, hlegible, hsource, hunion⟩ := hs
  obtain ⟨g, hg, hgkind⟩ := exists_getFacet hkind
  have htable : ∀ (specs : List (KeySpec Chroot)) {y z : Chroot},
      Undotted (specs.map KeySpec.used) → readKeys kf specs y = .ok z →
        ∃ more, (readKeys kf specs y).map (fun c => (c, specs.map KeySpec.used)) = .ok (z, more) ∧
          Undotted more := by
    intro specs y z hspecs h
    refine ⟨specs.map KeySpec.used, ?_, hspecs⟩
    rw [h]
    rfl
  have hglegible := hlegible g (mem_of_getFacet hg).1
  cases f with
  | personality p =>
      cases g <;> simp only [Facet.kind, reduceCtorEq] at hgkind
      cases hfresh
      rename_i q
      have hq : s.getFacet .personality = some (.personality q) := hg
      have hpersona : s.persona? = some q := by rw [persona?, hq]
      simp only [rereadSession, reread, hpersona, Option.getD_some]
      exact htable personalityKeys (by decide)
        (readKeys_personalityKeys hkf hkeyed hq hname hbefore)
  | sessionClonable => exact hfresh.elim
  | userdata v =>
      cases g <;> simp only [Facet.kind, reduceCtorEq] at hgkind
      rename_i u
      have hu : s.getFacet .userdata = some (.userdata u) := hg
      have hdata : s.userdata? = some u := by rw [userdata?, hu]
      simp only [rereadSession, reread, hdata]
      exact htable userdataKeys (by decide)
        (readKeys_userdataKeys hkf hkeyed hu hglegible hname hbefore)
  | session y =>
      cases g <;> simp only [Facet.kind, reduceCtorEq] at hgkind
      rename_i z
      have hz : s.getFacet .session = some (.session z) := hg
      have hfacet : s.sessionFacet? = some z := by rw [sessionFacet?, hz]
      simp only [rereadSession, hfacet]
      exact htable sessionKeys (by decide)
        (readKeys_sessionKeys hkf hkeyed hz hsource hname hbefore)
  | sourceClonable => exact hfresh.elim
  | source => exact hfresh.elim
  | union v =>
      cases g <;> simp only [Facet.kind, reduceCtorEq] at hgkind
      rename_i u
      have hu : s.getFacet .union = some (.union u) := hg
      have hfacet : s.unionFacet? = some u := by rw [unionFacet?, hu]
      have hconfigured := hunion u hfacet
      have hnone : u.unionType = "none" := by simpa [UnionFacet.configured] using hconfigured
      have hreread : rereadSession s (.union v) = .union v := by
        simp [rereadSession, reread, hfacet, Option.filter, hconfigured]
      rw [hreread]
      exact setUnionKeyfile_none hkf hkeyed hu hnone hfresh hname hbefore hclonable
  | mountable n =>
      cases g <;> simp only [Facet.kind, reduceCtorEq] at hgkind
      rename_i m
      have hm : s.getFacet .mountable = some (.mountable m) := hg
      have hmount : s.mountable? = some m := by rw [mountable?, hm]
      simp only [rereadSession, hmount, Option.getD_some]
      have hread : readKeys kf (mountableKeys true)
          (x.withFacets (before ++ .mountable n :: after)) =
            .ok (x.withFacets (before ++ .mountable m :: after)) :=
        readKeys_mountableKeys_session hkf hkeyed hsession hm hglegible hname hbefore
      have hkeys := htable (mountableKeys true) (by decide) hread
      rw [← hxsession] at hkeys
      exact hkeys

/-- The facets of the template that are still to be read. -/
structure FreshAhead (s : Chroot) (before rest : List Facet) : Prop where
  nodup : (TaggedList.tags Facet.kind (before ++ rest)).Nodup
  fresh : ∀ f ∈ rest, IsFresh f
  mem : ∀ f ∈ rest, f.kind ∈ s.facetKinds
  session : .session ∈ TaggedList.tags Facet.kind (before ++ rest)
  source : .sourceClonable ∉ TaggedList.tags Facet.kind (before ++ rest)

theorem FreshAhead.next
    {f : Facet}
    (h : FreshAhead s before (f :: rest)) :
    FreshAhead s (before ++ [rereadSession s f]) rest := by
  have htags : TaggedList.tags Facet.kind (before ++ [rereadSession s f] ++ rest) =
      TaggedList.tags Facet.kind (before ++ f :: rest) := by
    simp [TaggedList.tags, kind_rereadSession]
  refine ⟨?_, fun g hg => h.fresh g (List.mem_cons_of_mem f hg),
    fun g hg => h.mem g (List.mem_cons_of_mem f hg), ?_, ?_⟩
  · rw [htags]
    exact h.nodup
  · rw [htags]
    exact h.session
  · rw [htags]
    exact h.source

/-- **The facets of a session are read back**, one after the other. -/
theorem setFacetsKeyfile_session
    {n : Nat}
    (used : List String)
    (hs : FacetsLegible kf s)
    (hname : x.name = s.name)
    (hn : rest.length ≤ n)
    (hahead : FreshAhead s before rest) :
    ∃ more, setFacetsKeyfile kf n rest (x.withFacets (before ++ rest)) used =
      .ok (x.withFacets (before ++ rest.map (rereadSession s)), used ++ more) ∧ Undotted more := by
  induction rest generalizing n before used with
  | nil =>
      refine ⟨[], ?_, by decide⟩
      cases n <;> simp [setFacetsKeyfile]
  | cons f rest ih =>
      obtain ⟨n, rfl⟩ : ∃ m, n = m + 1 := ⟨n - 1, by simp only [List.length_cons] at hn; omega⟩
      have hothers := notMem_before hahead.nodup
      have hbefore : ∀ g ∈ before, g.kind ≠ f.kind :=
        fun g hg => hothers g (List.mem_append_left _ hg)
      have hclonable : ∀ g ∈ before ++ rest, g.kind ≠ .sourceClonable := by
        intro g hg hgk
        refine hahead.source (hgk ▸ List.mem_map_of_mem ?_)
        rw [List.mem_append, List.mem_cons, or_left_comm, ← List.mem_append]
        exact .inr hg
      obtain ⟨more, hstep, hmore⟩ := setFacetKeyfile_session hs hname (hahead.fresh f (by simp))
        (hahead.mem f (by simp)) (isSession_iff.mpr hahead.session) hbefore hclonable
      obtain ⟨more', hloop, hmore'⟩ := ih (used ++ more)
        (by simpa using hn) hahead.next
      refine ⟨more ++ more', ?_, undotted_append hmore hmore'⟩
      simp only [setFacetsKeyfile, hstep, bind, Except.bind]
      show setFacetsKeyfile kf n (facetsAfter f.kind (before ++ rereadSession s f :: rest)) _ _ = _
      simp only [List.append_assoc, List.singleton_append] at hloop
      rw [facetsAfter_focus hbefore (kind_rereadSession s f), hloop, List.map_cons]

end Facets

end Chroot

end Schroot
