import Schroot.ChrootClone

/-!
# Authentication status

Who may use a chroot, and how much authentication it takes: the membership of a user in
the four lists of a chroot, and the status that follows from it and from the user to
switch to.

**Results.**
* `AuthStatus.le_change_left`: a status never goes down.
* `getChrootAuthStatus_eq_ok_iff`: the status in terms of the four memberships.
-/

namespace Schroot

section Status

/-- How much authentication is required. -/
inductive AuthStatus where
  | none
  | user
  | fail
deriving DecidableEq, Repr

namespace AuthStatus

/-- The order of the enumeration. -/
def rank : AuthStatus → Nat
  | none => 0
  | user => 1
  | fail => 2

instance : LE AuthStatus := ⟨fun a b => a.rank ≤ b.rank⟩

instance (a b : AuthStatus) : Decidable (a ≤ b) :=
  inferInstanceAs (Decidable (a.rank ≤ b.rank))

/-- `change_auth`: the status only escalates. -/
def change (old new : AuthStatus) : AuthStatus :=
  if old.rank < new.rank then new else old

theorem change_mono
    {a b a' b' : AuthStatus}
    (ha : a ≤ a')
    (hb : b ≤ b') :
    a.change b ≤ a'.change b' := by
  revert ha hb
  cases a <;> cases b <;> cases a' <;> cases b' <;> decide

theorem change_fail (a : AuthStatus) : a.change fail = fail := by
  cases a <;> rfl

theorem none_le (a : AuthStatus) : none ≤ a := by
  cases a <;> decide

theorem le_fail (a : AuthStatus) : a ≤ fail := by
  cases a <;> decide

theorem refl_le (a : AuthStatus) : a ≤ a :=
  Nat.le_refl a.rank

theorem le_change_left (a b : AuthStatus) : a ≤ a.change b := by
  cases a <;> cases b <;> decide

end AuthStatus

end Status

section Membership

/-- The user who runs the program (`r`) and the one to switch to. -/
structure AuthInfo where
  user : String
  uid : Nat
  gid : Nat
  home : String
  shell : String
  ruser : String
  ruid : Nat
  rgid : Nat
  rgroup : String

/-- The groups of the process.  `supplementary` is what `getgroups` returns, or the code
of the error that its failure leads to. -/
structure Groups where
  database : String → Option Nat
  gid : Nat
  supplementary : Except SessionCode (List Nat)

/-- `is_group_member`. -/
def Groups.isGroupMember (g : Groups) (group : String) : Except SessionError Bool :=
  match g.database group with
  | none => .ok false
  | some id =>
      if id = g.gid then
        .ok true
      else
        match g.supplementary with
        | .error code => .error { code := code }
        | .ok ids => .ok (decide (id ∈ ids))

/-- Some of the groups is one of the process; all of them are looked up. -/
def Groups.isMemberOfAny (g : Groups) (groups : List String) : Except SessionError Bool :=
  groups.foldlM (fun found group => do
    let member ← g.isGroupMember group
    pure (found || member)) false

/-- The four memberships. -/
structure Membership where
  inUsers : Bool
  inRootUsers : Bool
  inGroups : Bool
  inRootGroups : Bool
deriving DecidableEq

/-- `get_chroot_membership`. -/
def getChrootMembership (info : AuthInfo) (g : Groups) (c : Chroot) :
    Except SessionError Membership := do
  let inGroups ← g.isMemberOfAny c.groups
  let inRootGroups ← g.isMemberOfAny c.rootGroups
  pure
    { inUsers := decide (info.ruser ∈ c.users)
      inRootUsers := decide (info.ruser ∈ c.rootUsers)
      inGroups := inGroups
      inRootGroups := inRootGroups }

namespace Membership

/-- The user may become root without authentication. -/
def root (m : Membership) : Bool :=
  m.inRootUsers || m.inRootGroups

def ordinary (m : Membership) : Bool :=
  m.inUsers || m.inGroups

def any (m : Membership) : Bool :=
  m.ordinary || m.root

end Membership

/-- What a chroot requires by itself, from the memberships of the user. -/
def requiredStatus (info : AuthInfo) (m : Membership) : AuthStatus :=
  if m.any && info.ruid = info.uid then
    .none
  else if m.root && info.uid = 0 then
    .none
  else if m.ordinary then
    .user
  else if info.ruid = 0 then
    .user
  else
    .fail

/-- `get_chroot_auth_status`. -/
def getChrootAuthStatus (info : AuthInfo) (g : Groups) (status : AuthStatus) (c : Chroot) :
    Except SessionError AuthStatus := do
  let m ← getChrootMembership info g c
  pure (status.change (requiredStatus info m))

end Membership

section Facts

variable {info : AuthInfo} {g : Groups} {c : Chroot}

theorem isMemberOfAny_nil (g : Groups) : g.isMemberOfAny [] = .ok false := rfl

/-- Without groups the memberships are those in the user lists. -/
theorem getChrootMembership_of_groups_nil
    (hgroups : c.groups = [])
    (hroot : c.rootGroups = []) :
    getChrootMembership info g c = .ok
      { inUsers := decide (info.ruser ∈ c.users)
        inRootUsers := decide (info.ruser ∈ c.rootUsers)
        inGroups := false
        inRootGroups := false } := by
  simp only [getChrootMembership, hgroups, hroot, isMemberOfAny_nil]
  rfl

theorem getChrootAuthStatus_eq_ok_iff {status result : AuthStatus} :
    getChrootAuthStatus info g status c = .ok result ↔
      ∃ m, getChrootMembership info g c = .ok m ∧
        result = status.change (requiredStatus info m) := by
  rw [getChrootAuthStatus, bind_eq_ok_iff]
  simp [pure, Except.pure, eq_comm]

/-- Who is on no list and is not root is refused. -/
theorem requiredStatus_of_not_any
    {m : Membership}
    (hm : m.any = false)
    (hruid : info.ruid ≠ 0) :
    requiredStatus info m = .fail := by
  obtain ⟨hordinary, hroot⟩ := Bool.or_eq_false_iff.mp hm
  simp [requiredStatus, hm, hordinary, hroot, hruid]

end Facts

end Schroot
