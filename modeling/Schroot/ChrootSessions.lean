import Schroot.FacetInvariant

/-!
# Sessions of a chroot

What a session has of its own and what it has from the chroot that it is begun from.

**Results.**
* `sessionOf_cloneSession`: the type, the name and the access lists of a session.
-/

namespace Schroot

namespace Chroot

section SessionOf

/-- The type and the access lists of two chroots agree. -/
structure SameAccess (c c' : Chroot) : Prop where
  typeName : c'.kind.typeName = c.kind.typeName
  users : c'.users = c.users
  rootUsers : c'.rootUsers = c.rootUsers
  groups : c'.groups = c.groups
  rootGroups : c'.rootGroups = c.rootGroups

theorem SameAccess.refl (c : Chroot) : SameAccess c c :=
  ⟨rfl, rfl, rfl, rfl, rfl⟩

theorem SameAccess.trans
    {c c' c'' : Chroot}
    (h : SameAccess c c')
    (h' : SameAccess c' c'') :
    SameAccess c c'' :=
  ⟨h'.typeName.trans h.typeName, h'.users.trans h.users, h'.rootUsers.trans h.rootUsers,
    h'.groups.trans h.groups, h'.rootGroups.trans h.rootGroups⟩

theorem sameAccess_setMountDevice (device : String) (c : Chroot) :
    SameAccess c (c.setMountDevice device) := by
  unfold setMountDevice
  split
  · exact .refl c
  · exact ⟨rfl, rfl, rfl, rfl, rfl⟩

theorem sameAccess_setSessionMountDevice (c : Chroot) :
    SameAccess c c.setSessionMountDevice := by
  unfold setSessionMountDevice
  split
  · exact sameAccess_setMountDevice _ c
  · exact sameAccess_setMountDevice _ c
  · exact sameAccess_setMountDevice _ c
  · exact .refl c

theorem sameAccess_setMountLocation
    {location : String} {c c' : Chroot}
    (h : c.setMountLocation location = .ok c') :
    SameAccess c c' := by
  unfold setMountLocation at h
  split at h
  · cases h
  · cases h
    exact ⟨rfl, rfl, rfl, rfl, rfl⟩

theorem sameAccess_setSessionLocation
    {cfg : SbuildConfig} {sessionId : String} {c c' : Chroot}
    (h : c.setSessionLocation cfg sessionId = .ok c') :
    SameAccess c c' := by
  unfold setSessionLocation at h
  split at h
  · cases h
    exact .refl c
  · split at h
    · exact sameAccess_setMountLocation h
    · cases h
      exact .refl c

theorem sameAccess_setKind
    {c : Chroot} {kind : ChrootKind}
    (h : kind.typeName = c.kind.typeName) :
    SameAccess c { c with kind := kind } :=
  ⟨h, rfl, rfl, rfl, rfl⟩

theorem sameAccess_setZfsCloneName
    (cloneName : String) (z : ZfsSnapshot) {c : Chroot}
    (hc : c.kind.typeName = "zfs-snapshot") :
    SameAccess c (setZfsCloneName cloneName z c) := by
  have hkind : SameAccess c { c with kind := .zfsSnapshot { z with cloneName := cloneName } } :=
    sameAccess_setKind hc.symm
  simp only [setZfsCloneName]
  split
  · exact hkind.trans (sameAccess_setMountDevice _ _)
  · exact hkind.trans (sameAccess_setMountDevice _ _)

theorem sameAccess_setSessionSnapshot
    {c c' : Chroot}
    (h : c.setSessionSnapshot = .ok c') :
    SameAccess c c' := by
  unfold setSessionSnapshot at h
  split at h
  · rename_i l hk
    split at h
    · simp only [setLvmSnapshotDevice, bind_eq_ok_iff] at h
      obtain ⟨_, _, h⟩ := h
      cases h
      refine .trans (sameAccess_setKind ?_) (sameAccess_setMountDevice _ _)
      simp [hk, ChrootKind.typeName]
    · cases h
      exact .refl c
  · rename_i b hk
    split at h
    · simp only [bind_eq_ok_iff] at h
      obtain ⟨_, _, h⟩ := h
      cases h
      exact sameAccess_setKind (by simp [hk, ChrootKind.typeName])
    · cases h
      exact .refl c
  · rename_i z hk
    split at h
    · cases h
      refine .trans (sameAccess_setKind ?_) (sameAccess_setZfsCloneName _ _ rfl)
      simp [hk, ChrootKind.typeName]
    · cases h
      exact .refl c
  · cases h
    exact .refl c

theorem sameAccess_setSessionUnion
    {c c' : Chroot}
    (h : c.setSessionUnion = .ok c') :
    SameAccess c c' := by
  unfold setSessionUnion at h
  split at h
  · cases h
    exact .refl c
  · simp only [bind_eq_ok_iff] at h
    obtain ⟨_, _, _, _, h⟩ := h
    cases h
    exact ⟨rfl, rfl, rfl, rfl, rfl⟩

/-- Only the user who began a session is on its lists, on the list for root access or on
the other one. -/
structure SessionOf (c : Chroot) (user : String) (root : Bool) (s : Chroot) : Prop where
  typeName : s.kind.typeName = c.kind.typeName
  users : s.users = if root then [] else if user ≠ "" then [user] else []
  rootUsers : s.rootUsers = if root then if user ≠ "" then [user] else [] else []
  groups : s.groups = []
  rootGroups : s.rootGroups = []

theorem SessionOf.sameAccess
    {c s s' : Chroot} {user : String} {root : Bool}
    (h : SessionOf c user root s)
    (h' : SameAccess s s') :
    SessionOf c user root s' :=
  ⟨h'.typeName.trans h.typeName, h'.users.trans h.users, h'.rootUsers.trans h.rootUsers,
    h'.groups.trans h.groups, h'.rootGroups.trans h.rootGroups⟩

/-- A session that is cloned comes from the setup. -/
theorem cloneSession_eq_ok_some_iff
    {cfg : SbuildConfig} {c s : Chroot} {sessionId selected user : String} {root : Bool} :
    c.cloneSession cfg sessionId selected user root = .ok (some s) ↔
      (∀ directory, c.kind ≠ .plain directory) ∧ c.hasFacet .sessionClonable = true ∧
        cloneSessionSetup cfg c sessionId selected user root c.copy = .ok s := by
  unfold cloneSession
  split
  · rename_i directory hk
    simp [hk]
  · rename_i hplain
    split
    · rename_i hclonable
      rw [map_eq_ok_iff]
      simp only [hclonable, true_and, Option.some.injEq, exists_eq_right]
      exact (and_iff_right hplain).symm
    · rename_i hclonable
      simp [hclonable]

/-- **The lists of a session.** -/
theorem sessionOf_cloneSession
    {cfg : SbuildConfig} {c s : Chroot} {sessionId selected user : String} {root : Bool}
    (h : c.cloneSession cfg sessionId selected user root = .ok (some s)) :
    SessionOf c user root s := by
  obtain ⟨-, -, hsetup⟩ := cloneSession_eq_ok_some_iff.mp h
  simp only [cloneSessionSetup, bind_eq_ok_iff, mapError_eq_ok_iff] at hsetup
  obtain ⟨c₁, h₁, c₂, h₂, c₃, h₃, c₄, h₄, h₅⟩ := hsetup
  obtain ⟨-, rfl⟩ := addFacet_eq_ok_iff.mp h₁
  obtain ⟨-, -, rfl⟩ := setName_eq_ok_iff.mp h₂
  have hcopy : c.copy.kind.typeName = c.kind.typeName := by
    unfold copy
    split
    · rename_i hk
      simp [hk, ChrootKind.typeName]
    · rfl
  have hlocation := sameAccess_setSessionLocation h₃
  have hs : SessionOf c user root c₃ :=
    ⟨hlocation.typeName.trans hcopy, hlocation.users, hlocation.rootUsers, hlocation.groups,
      hlocation.rootGroups⟩
  have hs₄ := (hs.sameAccess (sameAccess_setSessionMountDevice c₃)).sameAccess
    (sameAccess_setSessionSnapshot h₄)
  refine SessionOf.sameAccess ?_ (sameAccess_setSessionUnion h₅)
  split
  · exact hs₄
  · exact hs₄.sameAccess ⟨rfl, rfl, rfl, rfl, rfl⟩

end SessionOf

end Chroot

end Schroot
