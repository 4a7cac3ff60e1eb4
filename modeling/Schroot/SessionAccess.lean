import Schroot.ChrootSessions
import Schroot.Session

/-!
# Who may use a session

The chroot that a run works with is a copy of the one selected or a session of it.  A
session has the user who began it on one list and nobody on the others.

**Results.**
* `sessionOf_prepareChroot`: the lists of the session that a run begins.
* `session_demands_more`: others are refused, and the user who began the session needs at
  least the authentication that the parent chroot demands.
-/

namespace Schroot

namespace Session

section Preparation

variable {w : World} {i : Nat} {entry : ChrootEntry} {c c' : Chroot}

theorem sameAccess_setVerbosity
    {verbosity : String}
    (h : c.setVerbosity verbosity = .ok c') :
    Chroot.SameAccess c c' ∧ c'.facets = c.facets := by
  unfold Chroot.setVerbosity at h
  split at h
  · cases h
    exact ⟨⟨rfl, rfl, rfl, rfl, rfl⟩, rfl⟩
  · split at h
    · cases h
      exact ⟨⟨rfl, rfl, rfl, rfl, rfl⟩, rfl⟩
    · split at h
      · cases h
        exact ⟨⟨rfl, rfl, rfl, rfl, rfl⟩, rfl⟩
      · cases h

theorem sameAccess_overrideVerbosity
    (h : overrideVerbosity w c = .ok c') :
    Chroot.SameAccess c c' ∧ c'.facetKinds = c.facetKinds := by
  unfold overrideVerbosity at h
  split at h
  · rw [mapError_eq_ok_iff] at h
    obtain ⟨haccess, hfacets⟩ := sameAccess_setVerbosity h
    exact ⟨haccess, congrArg (TaggedList.tags Facet.kind) hfacets⟩
  · cases h
    exact ⟨.refl c, rfl⟩

/-- Options are stored in the user data facet. -/
theorem setUserOptions_eq_ok
    (h : setUserOptions w c = .ok c') :
    c' = c ∨ ∃ u, c' = c.updateFacet (.userdata u) := by
  unfold setUserOptions at h
  split at h
  · cases h
    exact .inl rfl
  · simp only at h
    split at h
    · cases h
      exact .inr ⟨_, rfl⟩
    · cases h

theorem sameAccess_setUserOptions
    (h : setUserOptions w c = .ok c') :
    Chroot.SameAccess c c' ∧ c'.facetKinds = c.facetKinds := by
  rcases setUserOptions_eq_ok h with rfl | ⟨u, rfl⟩
  · exact ⟨.refl c', rfl⟩
  · exact ⟨⟨rfl, rfl, rfl, rfl, rfl⟩, Chroot.facetKinds_updateFacet _ c⟩

theorem sameAccess_copy (c : Chroot) : Chroot.SameAccess c c.copy := by
  unfold Chroot.copy
  split
  · rename_i hk
    exact Chroot.sameAccess_setKind (by simp [hk, ChrootKind.typeName])
  · exact .refl c

/-- The user of the run is the one user of the session that is begun. -/
def BegunFrom (w : World) (i : Nat) (c s : Chroot) : Prop :=
  ∃ m, getChrootMembership w.session.info (w.outcomes.groups (.createSession i)) c = .ok m ∧
    Chroot.SessionOf c w.session.info.ruser m.root s

theorem BegunFrom.typeName
    {s : Chroot}
    (h : BegunFrom w i c s) :
    s.kind.typeName = c.kind.typeName := by
  obtain ⟨_, _, h⟩ := h
  exact h.typeName

/-- What is created is a copy or a session. -/
theorem createSession_cases
    (h : createSession w i entry = .ok c) :
    c = entry.chroot.copy ∨ BegunFrom w i entry.chroot c := by
  unfold createSession at h
  simp only at h
  split at h
  · cases h
  · split at h
    · simp only [bind_eq_ok_iff, mapError_eq_ok_iff] at h
      obtain ⟨m, hm, session, hsession, h⟩ := h
      cases h
      have hmembership : getChrootMembership w.session.info
          (w.outcomes.groups (.createSession i)) entry.chroot = .ok m := by
        have hcopy := sameAccess_copy entry.chroot
        rw [← hm]
        simp only [getChrootMembership, hcopy.users, hcopy.rootUsers, hcopy.groups,
          hcopy.rootGroups]
      cases session with
      | none => exact .inl rfl
      | some s => exact .inr ⟨m, hmembership, Chroot.sessionOf_cloneSession hsession⟩
    · cases h
      exact .inl rfl

/-- The chroot that is worked with has the type of the one selected. -/
theorem typeName_prepareChroot
    (h : prepareChroot w i entry = .ok c) :
    c.kind.typeName = entry.chroot.kind.typeName := by
  simp only [prepareChroot, bind_eq_ok_iff] at h
  obtain ⟨c₁, h₁, c₂, h₂, h₃⟩ := h
  rw [(sameAccess_setUserOptions h₃).1.typeName, (sameAccess_overrideVerbosity h₂).1.typeName]
  rcases createSession_cases h₁ with rfl | hbegun
  · exact (sameAccess_copy entry.chroot).typeName
  · exact hbegun.typeName

/-- **A session that is worked with for a chroot that is none has been begun from it.** -/
theorem sessionOf_prepareChroot
    (hchroot : entry.chroot.isSession = false)
    (h : prepareChroot w i entry = .ok c)
    (hsession : c.isSession = true) :
    BegunFrom w i entry.chroot c := by
  simp only [prepareChroot, bind_eq_ok_iff] at h
  obtain ⟨c₁, h₁, c₂, h₂, h₃⟩ := h
  obtain ⟨haccess₂, hkinds₂⟩ := sameAccess_overrideVerbosity h₂
  obtain ⟨haccess₃, hkinds₃⟩ := sameAccess_setUserOptions h₃
  rcases createSession_cases h₁ with rfl | ⟨m, hm, hof⟩
  · have hmem := Chroot.isSession_iff.mp hsession
    rw [hkinds₃, hkinds₂, Chroot.facetKinds_copy] at hmem
    rw [Chroot.isSession_iff.mpr hmem] at hchroot
    cases hchroot
  · exact ⟨m, hm, (hof.sameAccess haccess₂).sameAccess haccess₃⟩

/-- Chroots of the namespace for chroots are no sessions. -/
theorem isSession_loadChroot
    {cfg : SbuildConfig} {kf : Keyfile} {group : String}
    (h : ChrootConfig.loadChroot cfg "chroot" kf group = .ok c) :
    c.isSession = false := by
  simp only [ChrootConfig.loadChroot, ChrootConfig.createTemplate, bind_eq_ok_iff,
    mapError_eq_ok_iff] at h
  obtain ⟨c₂, ⟨c₀, h₀, c₁, h₁, h₂⟩, h⟩ := h
  rw [if_neg (by simp)] at h₂
  cases h₂
  obtain ⟨kind, -, hkinds⟩ := Chroot.facetKinds_create h₀
  obtain ⟨-, -, rfl⟩ := Chroot.setName_eq_ok_iff.mp h₁
  have hnew : FacetKind.session ∉ c₀.facetKinds := by
    rw [hkinds]
    cases kind <;> simp [Chroot.newFacetKinds, Chroot.extraFacets, Chroot.newUnion, Facet.kind]
  rw [Bool.eq_false_iff]
  intro hsession
  exact hnew ((Chroot.mem_facetKinds_setKeyfile h .session (by decide) (by decide)).mp
    (Chroot.isSession_iff.mp hsession))

end Preparation

section Status

variable {w : World} {i : Nat} {c s : Chroot}

/-- The memberships in a session: that of the user who began it, alone. -/
theorem membership_of_begunFrom
    {m : Membership}
    (hs : Chroot.SessionOf c w.session.info.ruser m.root s)
    (info : AuthInfo) (g : Groups) :
    getChrootMembership info g s = .ok
      { inUsers := !m.root && decide (info.ruser = w.session.info.ruser ∧ info.ruser ≠ "")
        inRootUsers := m.root && decide (info.ruser = w.session.info.ruser ∧ info.ruser ≠ "")
        inGroups := false
        inRootGroups := false } := by
  have hlist : info.ruser ∈ (if w.session.info.ruser ≠ "" then [w.session.info.ruser] else []) ↔
      info.ruser = w.session.info.ruser ∧ info.ruser ≠ "" := by
    split
    · rename_i hne
      rw [List.mem_singleton]
      exact ⟨fun h => ⟨h, h ▸ hne⟩, fun h => h.1⟩
    · rename_i hempty
      simp only [ne_eq, not_not] at hempty
      simp [hempty]
  rw [getChrootMembership_of_groups_nil hs.groups hs.rootGroups, hs.users, hs.rootUsers]
  cases m.root
  · simp only [Bool.false_eq_true, if_false, hlist]
    simp
  · simp only [if_true, hlist]
    simp

/-- Being on the one list of the session instead of those of the parent lowers no
requirement. -/
theorem requiredStatus_le_session
    {info : AuthInfo} {m m' : Membership}
    (hany : m.any = true)
    (hordinary : m'.ordinary = true → m.root = false)
    (hroot : m'.root = true → m.root = true) :
    requiredStatus info m ≤ requiredStatus info m' := by
  have hlists : m'.ordinary = true → m.ordinary = true := by
    intro h
    simpa [Membership.any, hordinary h] using hany
  unfold requiredStatus
  split
  · exact AuthStatus.none_le _
  · rename_i hself
    rw [hany, Bool.true_and] at hself
    rw [if_neg (c := (m'.any && decide (info.ruid = info.uid)) = true) (by simp_all)]
    split
    · exact AuthStatus.none_le _
    · rename_i hrootUid
      have hrootUid' : ¬ (m'.root && decide (info.uid = 0)) = true := by
        intro h
        rw [Bool.and_eq_true] at h
        exact hrootUid (by simp [hroot h.1, h.2])
      rw [if_neg hrootUid']
      by_cases hm' : m'.ordinary = true
      · rw [if_pos hm', if_pos (hlists hm')]
        exact AuthStatus.refl_le .user
      · rw [if_neg hm']
        by_cases hruid : info.ruid = 0
        · rw [if_pos hruid]
          split
          · exact AuthStatus.refl_le .user
          · exact AuthStatus.refl_le .user
        · rw [if_neg hruid]
          exact AuthStatus.le_fail _

end Status

section Beginning

variable {w : World} {i : Nat} {entry : ChrootEntry} {s : Chroot}

/-- Every other user who is not root is refused, whoever is switched to. -/
def RefusesOthers (user : AuthInfo) (s : Chroot) : Prop :=
  ∀ (other : AuthInfo) (g : Groups) (status : AuthStatus),
    other.ruser ≠ user.ruser → other.ruid ≠ 0 → getChrootAuthStatus other g status s = .ok .fail

/-- Whoever is switched to, a user with the groups `g` needs at least the authentication
for `s` that `c` demands. -/
def DemandsAtLeast (user : AuthInfo) (g : Groups) (c s : Chroot) : Prop :=
  ∀ (info : AuthInfo) (status required : AuthStatus),
    info.ruser = user.ruser → info.ruid = user.ruid →
      getChrootAuthStatus info g status c = .ok required →
        ∃ required', getChrootAuthStatus info g status s = .ok required' ∧ required ≤ required'

/-- **Others are refused in a session, and the user who began it needs at least the
authentication that the parent chroot demands.** -/
theorem session_demands_more
    {kf : Keyfile} {group : String} {m : Membership}
    (hload : ChrootConfig.loadChroot w.cfg "chroot" kf group = .ok entry.chroot)
    (hmember : getChrootMembership w.session.info (w.outcomes.groups (.createSession i))
      entry.chroot = .ok m)
    (hany : m.any = true)
    (hbegin : prepareChroot w i entry = .ok s)
    (hsession : s.isSession = true) :
    RefusesOthers w.session.info s ∧
      DemandsAtLeast w.session.info (w.outcomes.groups (.createSession i)) entry.chroot s := by
  obtain ⟨m₁, hm₁, hof⟩ := sessionOf_prepareChroot (isSession_loadChroot hload) hbegin hsession
  obtain rfl : m = m₁ := Except.ok.inj (hmember.symm.trans hm₁)
  refine ⟨fun other g status hother hruid => ?_, fun info status required huser _ hparent => ?_⟩
  · rw [getChrootAuthStatus_eq_ok_iff]
    refine ⟨_, membership_of_begunFrom hof other g, ?_⟩
    rw [requiredStatus_of_not_any (by simp [Membership.any, Membership.ordinary,
      Membership.root, hother]) hruid, AuthStatus.change_fail]
  · obtain ⟨m₂, hm₂, rfl⟩ := getChrootAuthStatus_eq_ok_iff.mp hparent
    obtain rfl : m₂ = m := by
      have hsame : getChrootMembership info (w.outcomes.groups (.createSession i))
          entry.chroot = .ok m := by
        rw [← hmember]
        simp only [getChrootMembership, huser]
      exact Except.ok.inj (hm₂.symm.trans hsame)
    refine ⟨_, getChrootAuthStatus_eq_ok_iff.mpr ⟨_, membership_of_begunFrom hof info _, rfl⟩, ?_⟩
    refine AuthStatus.change_mono (AuthStatus.refl_le status)
      (requiredStatus_le_session hany ?_ ?_)
    · simp +contextual [Membership.ordinary]
    · simp +contextual [Membership.root]

/-- A directory chroot for one user. -/
def joesChroot : Keyfile :=
  ((Keyfile.empty.setValue "d" "type" "directory").setValue "d" "directory" "/srv").setValue
    "d" "users" "joe"

/-- A session that its user has begun, with the chroot that it comes from. -/
theorem session_demands_more_joe :
    ∃ c s, ChrootConfig.loadChroot .standard "chroot" joesChroot "d" = .ok c ∧
      prepareChroot (smoothWorld .opBegin [⟨"d", c⟩]) 0 ⟨"d", c⟩ = .ok s ∧
      s.isSession = true ∧ RefusesOthers sampleInfo s ∧
      DemandsAtLeast sampleInfo (smoothOutcomes.groups (.createSession 0)) c s := by
  have hrun : okAnd (ChrootConfig.loadChroot .standard "chroot" joesChroot "d") (fun c =>
      okAnd (prepareChroot (smoothWorld .opBegin [⟨"d", c⟩]) 0 ⟨"d", c⟩) (fun s => s.isSession) &&
        okAnd (getChrootMembership sampleInfo (smoothOutcomes.groups (.createSession 0)) c)
          (fun m => m.any)) = true := by decide +kernel
  obtain ⟨c, hload, hrun⟩ := okAnd_eq_true_iff.mp hrun
  obtain ⟨hbegin, hmember⟩ := Bool.and_eq_true_iff.mp hrun
  obtain ⟨s, hbegin, hsession⟩ := okAnd_eq_true_iff.mp hbegin
  obtain ⟨m, hmember, hany⟩ := okAnd_eq_true_iff.mp hmember
  exact ⟨c, s, hload, hbegin, hsession,
    @session_demands_more (smoothWorld .opBegin [⟨"d", c⟩]) 0 ⟨"d", c⟩ s joesChroot "d" m
      hload hmember hany hbegin hsession⟩

end Beginning

end Session

end Schroot
