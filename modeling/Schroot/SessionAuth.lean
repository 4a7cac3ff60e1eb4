import Schroot.SessionAccess
import Mathlib.Order.Bounds.Basic

/-!
# How much authentication a session needs

The authentication of a session is that of the chroot which asks for the most, whatever
the order in which the chroots are looked at.

**Results.**
* `getAuthStatus_eq_ok`: the status is what the levels of the chroots add up to.
* `getAuthStatus_isGreatest`: it is the greatest of the levels, whatever their order.
-/

namespace Schroot

section Escalation

namespace AuthStatus

theorem change_change (a b : AuthStatus) : a.change (a.change b) = a.change b := by
  cases a <;> cases b <;> rfl

theorem le_change_right (a b : AuthStatus) : b ≤ a.change b := by
  cases a <;> cases b <;> decide

theorem le_trans
    {a b c : AuthStatus}
    (hab : a ≤ b)
    (hbc : b ≤ c) :
    a ≤ c :=
  Nat.le_trans (m := b.rank) hab hbc

theorem le_antisymm
    {a b : AuthStatus}
    (hab : a ≤ b)
    (hba : b ≤ a) :
    a = b := by
  revert hab hba
  cases a <;> cases b <;> decide

theorem change_eq_or (a b : AuthStatus) : a.change b = a ∨ a.change b = b := by
  unfold change
  split
  · exact .inr rfl
  · exact .inl rfl

/-- All the levels, one after the other. -/
def escalate (status : AuthStatus) (levels : List AuthStatus) : AuthStatus :=
  levels.foldl change status

theorem escalate_append (status : AuthStatus) (levels levels' : List AuthStatus) :
    status.escalate (levels ++ levels') = (status.escalate levels).escalate levels' :=
  List.foldl_append

/-- Nothing that comes later relaxes the status. -/
theorem le_escalate (status : AuthStatus) (levels : List AuthStatus) :
    status ≤ status.escalate levels := by
  induction levels generalizing status with
  | nil => exact refl_le status
  | cons level levels ih => exact le_trans (le_change_left status level) (ih _)

theorem le_escalate_of_mem
    (status : AuthStatus)
    {level : AuthStatus} {levels : List AuthStatus}
    (h : level ∈ levels) :
    level ≤ status.escalate levels := by
  induction levels generalizing status with
  | nil => cases h
  | cons first levels ih =>
      rcases List.mem_cons.mp h with rfl | h
      · exact le_trans (le_change_right status level) (le_escalate _ levels)
      · exact ih _ h

theorem escalate_eq_or_mem (status : AuthStatus) (levels : List AuthStatus) :
    status.escalate levels = status ∨ status.escalate levels ∈ levels := by
  induction levels generalizing status with
  | nil => exact .inl rfl
  | cons level levels ih =>
      rcases ih (status.change level) with heq | hmem
      · rcases change_eq_or status level with hold | hnew
        · exact .inl (heq.trans hold)
        · exact .inr (List.mem_cons.mpr (.inl (heq.trans hnew)))
      · exact .inr (List.mem_cons_of_mem level hmem)

/-- From the least status, the levels lead to the greatest of them. -/
theorem isGreatest_escalate
    {levels : List AuthStatus}
    (hne : levels ≠ []) :
    IsGreatest {level | level ∈ levels} (none.escalate levels) := by
  refine ⟨?_, fun level hlevel => le_escalate_of_mem none hlevel⟩
  rcases escalate_eq_or_mem none levels with heq | hmem
  · obtain ⟨level, hlevel⟩ := List.exists_mem_of_ne_nil levels hne
    have hle := le_escalate_of_mem none hlevel
    rw [heq] at hle
    obtain rfl : level = none := le_antisymm hle (none_le level)
    rw [heq]
    exact hlevel
  · exact hmem

/-- Neither the order of the levels matters nor how often each of them occurs. -/
theorem escalate_congr
    {levels levels' : List AuthStatus}
    (h : ∀ level, level ∈ levels ↔ level ∈ levels') :
    none.escalate levels = none.escalate levels' := by
  have hle : ∀ {l l' : List AuthStatus}, (∀ level, level ∈ l → level ∈ l') →
      none.escalate l ≤ none.escalate l' := by
    intro l l' hsub
    rcases escalate_eq_or_mem none l with heq | hmem
    · rw [heq]
      exact none_le _
    · exact le_escalate_of_mem _ (hsub _ hmem)
  exact le_antisymm (hle fun level => (h level).mp) (hle fun level => (h level).mpr)

end AuthStatus

end Escalation

section Level

variable (info : AuthInfo) (isMember : String → Bool)

/-- The user is in the users or in the groups of the chroot. -/
def MayUse (c : Chroot) : Prop :=
  info.ruser ∈ c.users ∨ ∃ group ∈ c.groups, isMember group = true

/-- The user is in the root users or in the root groups of the chroot. -/
def MayUseAsRoot (c : Chroot) : Prop :=
  info.ruser ∈ c.rootUsers ∨ ∃ group ∈ c.rootGroups, isMember group = true

instance (c : Chroot) : Decidable (MayUse info isMember c) :=
  inferInstanceAs (Decidable (_ ∨ _))

instance (c : Chroot) : Decidable (MayUseAsRoot info isMember c) :=
  inferInstanceAs (Decidable (_ ∨ _))

/-- What a chroot asks for: nothing of the users of its lists who stay who they are and of
its root users who become root, the user's authentication of its other users and of root;
all others are refused. -/
def authLevel (c : Chroot) : AuthStatus :=
  if ((MayUse info isMember c ∨ MayUseAsRoot info isMember c) ∧ info.ruid = info.uid) ∨
      (MayUseAsRoot info isMember c ∧ info.uid = 0) then
    .none
  else if MayUse info isMember c ∨ info.ruid = 0 then
    .user
  else
    .fail

end Level

section Membership

variable {info : AuthInfo} {g : Groups} {isMember : String → Bool}

theorem isMemberOfAny_eq_ok
    (hgroups : ∀ group, g.isGroupMember group = .ok (isMember group))
    (groups : List String) :
    g.isMemberOfAny groups = .ok (groups.any isMember) := by
  have hfold : ∀ found, groups.foldlM (fun found group => do
      let member ← g.isGroupMember group
      pure (found || member)) found = .ok (found || groups.any isMember) := by
    induction groups with
    | nil =>
        intro found
        rw [List.any_nil, Bool.or_false]
        rfl
    | cons group groups ih =>
        intro found
        rw [List.foldlM_cons, hgroups group, List.any_cons, ← Bool.or_assoc]
        exact ih _
  exact hfold false

theorem getChrootMembership_eq_ok
    (hgroups : ∀ group, g.isGroupMember group = .ok (isMember group))
    (c : Chroot) :
    getChrootMembership info g c = .ok
      { inUsers := decide (info.ruser ∈ c.users)
        inRootUsers := decide (info.ruser ∈ c.rootUsers)
        inGroups := c.groups.any isMember
        inRootGroups := c.rootGroups.any isMember } := by
  simp only [getChrootMembership, isMemberOfAny_eq_ok hgroups]
  rfl

/-- The cascade of the program decides the level. -/
theorem requiredStatus_eq_authLevel
    {m : Membership} {c : Chroot}
    (hordinary : m.ordinary = true ↔ MayUse info isMember c)
    (hroot : m.root = true ↔ MayUseAsRoot info isMember c) :
    requiredStatus info m = authLevel info isMember c := by
  have hany : m.any = true ↔ MayUse info isMember c ∨ MayUseAsRoot info isMember c := by
    rw [Membership.any, Bool.or_eq_true, hordinary, hroot]
  unfold requiredStatus authLevel
  simp only [Bool.and_eq_true, decide_eq_true_eq, hany, hroot, hordinary]
  by_cases hself :
      (MayUse info isMember c ∨ MayUseAsRoot info isMember c) ∧ info.ruid = info.uid
  · rw [if_pos hself, if_pos (Or.inl hself)]
  · by_cases hsuper : MayUseAsRoot info isMember c ∧ info.uid = 0
    · rw [if_neg hself, if_pos hsuper, if_pos (Or.inr hsuper)]
    · rw [if_neg hself, if_neg hsuper, if_neg (not_or.mpr ⟨hself, hsuper⟩)]
      by_cases huse : MayUse info isMember c
      · rw [if_pos huse, if_pos (Or.inl huse)]
      · rw [if_neg huse]
        exact if_congr (by simp [huse]) rfl rfl

theorem getChrootAuthStatus_eq_ok
    (hgroups : ∀ group, g.isGroupMember group = .ok (isMember group))
    (status : AuthStatus) (c : Chroot) :
    getChrootAuthStatus info g status c = .ok (status.change (authLevel info isMember c)) := by
  rw [getChrootAuthStatus_eq_ok_iff]
  refine ⟨_, getChrootMembership_eq_ok hgroups c, ?_⟩
  rw [requiredStatus_eq_authLevel]
  · simp [Membership.ordinary, MayUse]
  · simp [Membership.root, MayUseAsRoot]

end Membership

namespace Session

section AuthStatus

variable {w : World} {isMember : String → Bool}

/-- Every look-up of a group while the status is determined tells whether it is one of
the groups of the user. -/
def GroupsAre (w : World) (isMember : String → Bool) : Prop :=
  ∀ i group, (w.outcomes.groups (.authStatus i)).isGroupMember group = .ok (isMember group)

/-- The levels of the chroots of the session, in their order. -/
def authLevels (w : World) (isMember : String → Bool) : List AuthStatus :=
  w.session.chroots.map fun entry => authLevel w.session.info isMember entry.chroot

/-- The world with other chroots selected. -/
def selecting (w : World) (chroots : List ChrootEntry) : World :=
  { w with session := { w.session with chroots := chroots } }

theorem getAuthStatus_eq_ok
    (hgroups : GroupsAre w isMember) :
    getAuthStatus w = .ok (AuthStatus.none.escalate (authLevels w isMember)) := by
  unfold getAuthStatus authLevels
  generalize w.session.chroots = entries
  -- The index tells the look-ups of one chroot from those of another.
  suffices hfold : ∀ n status, (entries.zipIdx n).foldlM (fun status entry => do
      let required ← getChrootAuthStatus w.session.info
        (w.outcomes.groups (.authStatus entry.2)) status entry.1.chroot
      pure (status.change required)) status =
        .ok (status.escalate (entries.map fun entry =>
          authLevel w.session.info isMember entry.chroot)) from hfold 0 .none
  induction entries with
  | nil => exact fun _ _ => rfl
  | cons entry entries ih =>
      intro n status
      rw [List.zipIdx_cons, List.foldlM_cons, getChrootAuthStatus_eq_ok (hgroups n)]
      have hstep := ih (n + 1) (status.change (authLevel w.session.info isMember entry.chroot))
      rw [← AuthStatus.change_change] at hstep
      refine hstep.trans ?_
      rw [AuthStatus.change_change]
      rfl

/-- **The status is the greatest of the levels of the chroots; it depends on neither their
order nor their repetition, and no chroot relaxes what an earlier one asks for.** -/
theorem getAuthStatus_isGreatest
    (w : World) (isMember : String → Bool)
    (hne : w.session.chroots ≠ [])
    (hgroups : GroupsAre w isMember) :
    ∃ status, getAuthStatus w = .ok status ∧
      IsGreatest
        {level | ∃ entry ∈ w.session.chroots,
          level = authLevel w.session.info isMember entry.chroot} status ∧
      (∀ chroots, (∀ entry, entry ∈ chroots ↔ entry ∈ w.session.chroots) →
        getAuthStatus (selecting w chroots) = .ok status) ∧
      (∀ earlier later, w.session.chroots = earlier ++ later →
        ∃ status', getAuthStatus (selecting w earlier) = .ok status' ∧ status' ≤ status) := by
  refine ⟨_, getAuthStatus_eq_ok hgroups, ?_, ?_, ?_⟩
  · have hlevels : authLevels w isMember ≠ [] := by
      simpa [authLevels] using hne
    convert AuthStatus.isGreatest_escalate hlevels using 2
    ext level
    simp [authLevels, eq_comm]
  · intro chroots hsame
    rw [getAuthStatus_eq_ok (w := selecting w chroots) hgroups]
    congr 1
    refine AuthStatus.escalate_congr fun level => ?_
    simp only [authLevels, selecting, List.mem_map, hsame]
  · rintro earlier later happend
    refine ⟨_, getAuthStatus_eq_ok (w := selecting w earlier) hgroups, ?_⟩
    have hlevels : authLevels w isMember =
        authLevels (selecting w earlier) isMember ++ authLevels (selecting w later) isMember := by
      simp only [authLevels, happend, List.map_append]
      rfl
    rw [hlevels, AuthStatus.escalate_append]
    exact AuthStatus.le_escalate _ _

/-- A user without groups, for whom one chroot is selected twice. -/
theorem getAuthStatus_isGreatest_joe :
    ∃ c status, ChrootConfig.loadChroot .standard "chroot" joesChroot "d" = .ok c ∧
      getAuthStatus (smoothWorld .opBegin [⟨"d", c⟩, ⟨"d", c⟩]) = .ok status ∧
      IsGreatest
        {level | ∃ entry ∈ [(⟨"d", c⟩ : ChrootEntry), ⟨"d", c⟩],
          level = authLevel sampleInfo (fun _ => false) entry.chroot} status := by
  have hload : (ChrootConfig.loadChroot .standard "chroot" joesChroot "d").isOk = true := by
    decide +kernel
  cases hchroot : ChrootConfig.loadChroot .standard "chroot" joesChroot "d" with
  | error e => simp [hchroot, Except.isOk, Except.toBool] at hload
  | ok c =>
      obtain ⟨status, hstatus, hgreatest, -⟩ := getAuthStatus_isGreatest
        (smoothWorld .opBegin [⟨"d", c⟩, ⟨"d", c⟩]) (fun _ => false) (by simp [smoothWorld])
        (fun _ _ => rfl)
      exact ⟨c, status, rfl, hstatus, hgreatest⟩

end AuthStatus

end Session

end Schroot
