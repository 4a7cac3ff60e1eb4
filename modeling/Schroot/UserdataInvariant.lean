import Schroot.SessionAccess
import Schroot.UserdataNames

/-!
# The user data of every chroot

However a chroot has come about, it has at most one facet of each kind, and the keys of its
user data are valid and have different environment variables.

**Results.**
* `dataInvariant_of_reachable`: this holds of the chroots of a run.
* `dataInvariant_prepareChroot`: it holds of the chroot that a session works with.
-/

namespace Schroot

namespace Chroot

/-- The facets are of different kinds, and the keys of user data are valid and have
variables of their own. -/
structure DataInvariant (c : Chroot) : Prop where
  nodup : c.facetKinds.Nodup
  named : ∀ u, Facet.userdata u ∈ c.facets → u.Named

section Rules

variable {c c' : Chroot}

theorem DataInvariant.of_facets
    (hc : DataInvariant c)
    (h : c'.facets = c.facets) :
    DataInvariant c' := by
  refine ⟨?_, fun u hu => hc.named u (h ▸ hu)⟩
  show (TaggedList.tags Facet.kind c'.facets).Nodup
  rw [h]
  exact hc.nodup

theorem mem_of_userdata?
    {u : Userdata}
    (hu : c.userdata? = some u) :
    Facet.userdata u ∈ c.facets := by
  unfold userdata? at hu
  split at hu
  · rename_i v hget
    cases hu
    exact List.mem_of_find?_eq_some hget
  · cases hu

theorem DataInvariant.updateFacet
    {f : Facet}
    (hc : DataInvariant c)
    (hf : ∀ u, f = .userdata u → u.Named) :
    DataInvariant (c.updateFacet f) := by
  refine ⟨?_, fun u hu => ?_⟩
  · rw [facetKinds_updateFacet]
    exact hc.nodup
  · rcases TaggedList.mem_replace hu with heq | hu
    · exact hf u heq.symm
    · exact hc.named u hu

theorem DataInvariant.append
    {f : Facet}
    (hc : DataInvariant c)
    (hfree : f.kind ∉ c.facetKinds)
    (hf : ∀ u, f = .userdata u → u.Named) :
    DataInvariant { c with facets := c.facets ++ [f] } := by
  refine ⟨?_, fun u hu => ?_⟩
  · rw [facetKinds_append]
    exact nodup_facetKinds_append hc.nodup hfree
  · rcases List.mem_append.mp hu with hu | hu
    · exact hc.named u hu
    · exact hf u (List.mem_singleton.mp hu).symm

theorem DataInvariant.addFacet
    {f : Facet}
    (hc : DataInvariant c)
    (hf : ∀ u, f = .userdata u → u.Named)
    (h : c.addFacet f = .ok c') :
    DataInvariant c' := by
  obtain ⟨hfree, rfl⟩ := addFacet_eq_ok_iff.mp h
  exact hc.append hfree hf

theorem DataInvariant.removeFacet
    (hc : DataInvariant c)
    (kind : FacetKind) :
    DataInvariant (c.removeFacet kind) :=
  ⟨nodup_facetKinds_removeFacet hc.nodup kind,
    fun u hu => hc.named u (List.mem_of_mem_eraseP hu)⟩

end Rules

section Setters

variable {c c' : Chroot}

theorem DataInvariant.setProfile
    {profile : String}
    (hc : DataInvariant c)
    (h : Chroot.setProfile profile c = .ok c') :
    DataInvariant c' := by
  have hprofile : DataInvariant { c with profile := profile } := hc.of_facets rfl
  unfold Chroot.setProfile at h
  simp only at h
  split at h
  · cases h
    exact hprofile
  · rename_i u hu
    obtain ⟨u', hu', h⟩ := bind_eq_ok_iff.mp h
    cases h
    refine hprofile.updateFacet fun v hv => ?_
    cases hv
    exact (hc.named u (mem_of_userdata? hu)).setProfileData hu'

theorem DataInvariant.setScriptConfig
    (hc : DataInvariant c)
    (scriptConfig : String) :
    DataInvariant (Chroot.setScriptConfig scriptConfig c) := by
  have hscript : DataInvariant { c with scriptConfig := scriptConfig, profile := "" } :=
    hc.of_facets rfl
  unfold Chroot.setScriptConfig
  simp only
  split
  · exact hscript
  · rename_i u hu
    refine hscript.updateFacet fun v hv => ?_
    cases hv
    exact ((((hc.named u (mem_of_userdata? hu)).removeData _).removeData _).removeData
      _).removeData _

theorem DataInvariant.setMountDevice
    (hc : DataInvariant c)
    (device : String) :
    DataInvariant (Chroot.setMountDevice device c) := by
  unfold Chroot.setMountDevice
  split
  · exact hc
  · exact hc.updateFacet (fun _ hf => by cases hf)

theorem DataInvariant.setLvmSnapshotDevice
    {device : String} {s : LvmSnapshot}
    (hc : DataInvariant c)
    (h : Chroot.setLvmSnapshotDevice device s c = .ok c') :
    DataInvariant c' := by
  obtain ⟨_, h⟩ := checkAbs_bind_eq_ok_iff.mp h
  cases h
  have hkind : DataInvariant { c with kind := .lvmSnapshot { s with snapshotDevice := device } } :=
    hc.of_facets rfl
  exact hkind.setMountDevice device

theorem DataInvariant.setZfsCloneName
    (hc : DataInvariant c)
    (cloneName : String) (s : ZfsSnapshot) :
    DataInvariant (Chroot.setZfsCloneName cloneName s c) := by
  have hkind : DataInvariant { c with kind := .zfsSnapshot { s with cloneName := cloneName } } :=
    hc.of_facets rfl
  unfold Chroot.setZfsCloneName
  simp only
  split
  · exact hkind.setMountDevice _
  · exact hkind.setMountDevice _

theorem DataInvariant.setUnionType
    {type : String}
    (hc : DataInvariant c)
    (h : Chroot.setUnionType type c = .ok c') :
    DataInvariant c' := by
  have hunion : ∀ u : UnionFacet, DataInvariant (c.updateFacet (.union u)) :=
    fun u => hc.updateFacet fun _ hf => by cases hf
  rcases setUnionType_cases h with
    ⟨_, rfl⟩ | ⟨u, _, _, ⟨_, rfl⟩ | ⟨_, _, rfl⟩ | ⟨_, hfree, rfl⟩⟩
  · exact hc
  · exact (hunion _).removeFacet _
  · exact hunion _
  · refine (hunion { u with unionType := type }).append ?_ fun _ hf => by cases hf
    rw [facetKinds_updateFacet, ← hasFacet_iff]
    simp [Facet.kind, hfree]

end Setters

section Reading

variable {cfg : SbuildConfig} {kf : Keyfile} {c c' : Chroot}

theorem DataInvariant.baseStep
    {session : Bool} {key : String}
    (hc : DataInvariant c)
    (h : BaseStep cfg session kf c key c') :
    DataInvariant c' := by
  cases h with
  | skip => exact hc
  | profile _ h => exact hc.setProfile h
  | scriptConfig => exact hc.setScriptConfig _
  | aliases _ h =>
      obtain ⟨_, _, h⟩ := bind_eq_ok_iff.mp h
      cases h
      exact hc.of_facets rfl
  | mountLocation _ _ h =>
      unfold Chroot.setMountLocation at h
      split at h <;> cases h
      exact hc.of_facets rfl
  | name _ _ h =>
      obtain ⟨_, _, rfl⟩ := setName_eq_ok_iff.mp h
      exact hc.of_facets rfl
  | verbosity _ h => exact hc.of_facets (Session.sameAccess_setVerbosity h).2
  | _ => exact hc.of_facets rfl

theorem DataInvariant.facetStep
    {key : String}
    (hc : DataInvariant c)
    (h : FacetStep kf c key c') :
    DataInvariant c' := by
  cases h with
  | skip => exact hc
  | userModifiableKeys hu _ | rootModifiableKeys hu _ =>
      refine hc.updateFacet fun v hv => ?_
      cases hv
      have hu := hc.named _ (mem_of_userdata? hu)
      exact ⟨⟨hu.env, hu.injective⟩, hu.valid⟩
  | _ => exact hc.updateFacet fun _ hf => by cases hf

/-- The setters of the type keys leave the user data alone. -/
theorem DataInvariant.typeStep
    {c₀ : Chroot} {key : String}
    (hc : DataInvariant c)
    (h : TypeStep kf c₀ c key c') :
    DataInvariant c' := by
  cases h with
  | skip => exact hc
  | kind => exact hc.of_facets rfl
  | snapshotDevice _ _ hset => exact hc.setLvmSnapshotDevice hset
  | cloneName => exact hc.setZfsCloneName _ _
  | switch _ hf hset =>
      split at hset
      · refine hc.addFacet (fun u hu => ?_) hset
        rcases hf with rfl | rfl <;> cases hu
      · cases hset
        exact hc.removeFacet _

/-- **Reading keeps the invariant.**  Keys that are taken as user data are valid, or they are
dropped. -/
theorem DataInvariant.setKeyfile
    (hc : DataInvariant c)
    (h : c.setKeyfile cfg kf = .ok c') :
    DataInvariant c' := by
  refine KeptByKeys.setKeyfile (P := DataInvariant) ⟨fun hx => hx.baseStep, fun hx => hx.typeStep,
    fun hx => hx.facetStep, fun hx _ => hx.setUnionType, fun {_ _ x u u'} hx hu _ hset => ?_⟩ hc h
  refine hx.updateFacet fun v hv => ?_
  cases hv
  exact (hx.named u (mem_of_userdata? hu)).setData hset

end Reading

section Cloning

variable {cfg : SbuildConfig} {c c' : Chroot}

theorem DataInvariant.copy
    (hc : DataInvariant c) :
    DataInvariant c.copy := by
  unfold Chroot.copy
  split
  · exact hc.of_facets rfl
  · exact hc

theorem DataInvariant.setSessionMountDevice
    (hc : DataInvariant c) :
    DataInvariant c.setSessionMountDevice := by
  unfold Chroot.setSessionMountDevice
  split
  · exact hc.setMountDevice _
  · exact hc.setMountDevice _
  · exact hc.setMountDevice _
  · exact hc

theorem DataInvariant.setSessionSnapshot
    (hc : DataInvariant c)
    (h : c.setSessionSnapshot = .ok c') :
    DataInvariant c' := by
  unfold Chroot.setSessionSnapshot at h
  split at h
  · split at h
    · exact hc.setLvmSnapshotDevice h
    · cases h
      exact hc
  · split at h
    · obtain ⟨_, h⟩ := checkAbs_bind_eq_ok_iff.mp h
      cases h
      exact hc.of_facets rfl
    · cases h
      exact hc
  · split at h
    · cases h
      exact (hc.of_facets rfl).setZfsCloneName _ _
    · cases h
      exact hc
  · cases h
    exact hc

theorem DataInvariant.setSessionUnion
    (hc : DataInvariant c)
    (h : c.setSessionUnion = .ok c') :
    DataInvariant c' := by
  unfold Chroot.setSessionUnion at h
  split at h
  · cases h
    exact hc
  · simp only [bind_eq_ok_iff] at h
    obtain ⟨u, _, u', _, h⟩ := h
    cases h
    exact hc.updateFacet fun _ hf => by cases hf

theorem DataInvariant.setSessionLocation
    {sessionId : String}
    (hc : DataInvariant c)
    (h : c.setSessionLocation cfg sessionId = .ok c') :
    DataInvariant c' := by
  unfold Chroot.setSessionLocation at h
  split at h
  · cases h
    exact hc
  · split at h
    · unfold Chroot.setMountLocation at h
      split at h <;> cases h
      exact hc.of_facets rfl
    · cases h
      exact hc

/-- **A session has the user data of its parent.** -/
theorem DataInvariant.cloneSession
    {sessionId selected user : String} {root : Bool}
    (hc : DataInvariant c)
    (h : c.cloneSession cfg sessionId selected user root = .ok (some c')) :
    DataInvariant c' := by
  obtain ⟨-, -, h⟩ := cloneSession_eq_ok_some_iff.mp h
  simp only [cloneSessionSetup, bind_eq_ok_iff, mapError_eq_ok_iff] at h
  obtain ⟨c₁, h₁, c₂, h₂, c₃, h₃, c₄, h₄, h₅⟩ := h
  have hc₁ : DataInvariant c₁ := by
    refine ((hc.copy.removeFacet _).removeFacet _).addFacet (fun _ hf => ?_) h₁
    cases hf
  obtain ⟨_, _, rfl⟩ := setName_eq_ok_iff.mp h₂
  have hlocation : ∀ {a : Chroot}, a.setSessionLocation cfg sessionId = .ok c₃ →
      a.facets = c₁.facets → DataInvariant c₃ :=
    fun h ha => (hc₁.of_facets ha).setSessionLocation h
  have hc₃ : DataInvariant c₃ := hlocation h₃ rfl
  have hc₄ : DataInvariant c₄ := hc₃.setSessionMountDevice.setSessionSnapshot h₄
  refine DataInvariant.setSessionUnion ?_ h₅
  split
  · exact hc₄
  · exact hc₄.removeFacet _

theorem DataInvariant.ensureUnion
    (hc : DataInvariant c)
    (h : c.ensureUnion cfg = .ok c') :
    DataInvariant c' := by
  unfold Chroot.ensureUnion at h
  split at h
  · cases h
    exact hc
  · exact hc.addFacet (fun _ hf => by cases hf) h

theorem DataInvariant.sourceCopy
    (hc : DataInvariant c)
    (h : c.sourceCopy cfg = .ok c') :
    DataInvariant c' := by
  unfold Chroot.sourceCopy at h
  split at h
  · rename_i s _
    have hblock : DataInvariant { c with kind := .blockDevice s.device } := hc.of_facets rfl
    exact hblock.ensureUnion h
  · simp only [directoryOfBtrfs, bind_eq_ok_iff] at h
    obtain ⟨d, hd, _, _, h⟩ := h
    cases h
    have hdirectory : DataInvariant { c with kind := .directory "" } := hc.of_facets rfl
    exact (hdirectory.ensureUnion hd).of_facets rfl
  · cases h
    exact hc.copy

theorem DataInvariant.cloneSource
    (hc : DataInvariant c)
    (h : c.cloneSource cfg = .ok (some c')) :
    DataInvariant c' := by
  unfold Chroot.cloneSource at h
  split at h
  · cases h
  · cases h
  · simp only [bind_eq_ok_iff] at h
    obtain ⟨d, hd, e, he, h⟩ := h
    have hfacets : c'.facets = e.facets := by
      split at h <;> cases h <;> rfl
    simp only [cloneSourceSetup, bind_eq_ok_iff, setAliases] at he
    obtain ⟨a, ⟨_, _, ha⟩, he⟩ := he
    cases ha
    have hd : DataInvariant d := hc.sourceCopy hd
    refine DataInvariant.of_facets (DataInvariant.addFacet ?_ (fun _ hf => ?_) he) hfacets
    · refine DataInvariant.removeFacet (DataInvariant.removeFacet (hd.of_facets ?_) _) _
      rfl
    · cases hf

end Cloning

section Runs

variable {cfg : SbuildConfig} {c : Chroot}

theorem dataInvariant_create
    {type : String}
    (h : create cfg type = .ok c) :
    DataInvariant c := by
  have hadd : ∀ {fs : List Facet} {a b : Chroot}, (∀ f ∈ fs, ∀ u, f ≠ .userdata u) →
      DataInvariant a → fs.foldlM (fun c f => addFacet f c) a = .ok b → DataInvariant b := by
    intro fs
    induction fs with
    | nil =>
        intro a b _ ha hb
        cases hb
        exact ha
    | cons f fs ih =>
        intro a b hfs ha hb
        rw [List.foldlM_cons, bind_eq_ok_iff] at hb
        obtain ⟨d, hd, hb⟩ := hb
        refine ih (fun g hg => hfs g (List.mem_cons_of_mem f hg)) ?_ hb
        exact ha.addFacet (fun u hu => absurd hu (hfs f List.mem_cons_self u)) hd
  unfold create at h
  split at h
  · cases h
  · rename_i kind _
    simp only [construct, baseChroot, bind_eq_ok_iff, mapError_eq_ok_iff] at h
    obtain ⟨b, ⟨c₁, h₁, c₂, h₂, c₃, h₃, hbase⟩, d, hextra, h⟩ := h
    have hempty : DataInvariant { environmentFilter := cfg.defaultEnvironmentFilter, kind := kind } :=
      ⟨List.nodup_nil, fun _ hu => by cases hu⟩
    have hc₂ : DataInvariant c₂ :=
      (hempty.addFacet (fun _ hf => by cases hf) h₁).addFacet (fun _ hf => by cases hf) h₂
    have hc₃ : DataInvariant c₃ := by
      refine hc₂.addFacet (fun u hu => ?_) h₃
      cases hu
      exact Userdata.named_new
    have hd : DataInvariant d := by
      refine hadd ?_ (hc₃.setProfile hbase) hextra
      cases kind <;> simp [extraFacets, newUnion]
    split at h <;> cases h
    · refine DataInvariant.removeFacet (hd.of_facets ?_) _
      rfl
    · exact hd

/-- **The user data of all chroots of a run.** -/
theorem dataInvariant_of_reachable
    {ok : Keyfile → Chroot → Prop}
    (h : Reachable cfg ok c) :
    DataInvariant c := by
  induction h with
  | create h => exact dataInvariant_create h
  | setName _ h ih =>
      obtain ⟨_, _, rfl⟩ := setName_eq_ok_iff.mp h
      exact ih.of_facets rfl
  | setKeyfile _ _ _ h ih => exact ih.setKeyfile h
  | copy _ ih => exact ih.copy
  | cloneSession _ h ih => exact ih.cloneSession h
  | cloneSource _ h ih => exact ih.cloneSource h

end Runs

end Chroot

namespace Session

/-- **The user data of the chroot that a session works with**, with the options of the
user. -/
theorem dataInvariant_prepareChroot
    {w : World} {i : Nat} {entry : ChrootEntry} {c : Chroot}
    (hentry : Chroot.DataInvariant entry.chroot)
    (h : prepareChroot w i entry = .ok c) :
    Chroot.DataInvariant c := by
  simp only [prepareChroot, bind_eq_ok_iff] at h
  obtain ⟨c₁, h₁, c₂, h₂, h₃⟩ := h
  have hc₁ : Chroot.DataInvariant c₁ := by
    unfold createSession at h₁
    simp only at h₁
    split at h₁
    · cases h₁
    · split at h₁
      · simp only [bind_eq_ok_iff, mapError_eq_ok_iff] at h₁
        obtain ⟨_, _, session, hsession, h₁⟩ := h₁
        cases h₁
        cases session with
        | none => exact hentry.copy
        | some s => exact hentry.cloneSession hsession
      · cases h₁
        exact hentry.copy
  have hc₂ : Chroot.DataInvariant c₂ := by
    unfold overrideVerbosity at h₂
    split at h₂
    · exact hc₁.of_facets (sameAccess_setVerbosity (mapError_eq_ok_iff.mp h₂)).2
    · cases h₂
      exact hc₁
  unfold setUserOptions at h₃
  split at h₃
  · cases h₃
    exact hc₂
  · rename_i u hu
    have hu := hc₂.named u (Chroot.mem_of_userdata? hu)
    simp only at h₃
    split at h₃
    · rename_i u' hset
      cases h₃
      refine hc₂.updateFacet fun v hv => ?_
      injection hv with hv
      subst hv
      split at hset
      · have hroot : (u.setRootData w.session.userOptions).1.Named := hu.setAllowedData _ true _
        rwa [hset] at hroot
      · have huser : (u.setUserData w.session.userOptions).1.Named := hu.setAllowedData _ false _
        rwa [hset] at huser
    · cases h₃

end Session

end Schroot
