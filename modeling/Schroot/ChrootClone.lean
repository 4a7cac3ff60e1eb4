import Schroot.ChrootKeyfile

/-!
# Cloning chroots

Copies of a chroot, the session that is begun from it, and its source chroot.
-/

namespace Schroot

namespace Chroot

section Copies

/-- The copy constructor of a type.  The one of custom chroots does not copy the
purgeable flag. -/
def copy (c : Chroot) : Chroot :=
  match c.kind with
  | .custom _ => { c with kind := .custom false }
  | _ => c

/-- A union facet is added unless there is one. -/
def ensureUnion (cfg : SbuildConfig) (c : Chroot) : Except ChrootError Chroot :=
  if c.hasFacet .union then .ok c else c.addFacet (newUnion cfg)

/-- `chroot_block_device (chroot_lvm_snapshot const&)`. -/
def blockDeviceOfLvm (cfg : SbuildConfig) (s : LvmSnapshot) (c : Chroot) :
    Except ChrootError Chroot :=
  ensureUnion cfg { c with kind := .blockDevice s.device }

/-- `chroot_directory (chroot_btrfs_snapshot const&)`. -/
def directoryOfBtrfs (cfg : SbuildConfig) (s : BtrfsSnapshot) (c : Chroot) :
    Except ChrootError Chroot := do
  let c ← ensureUnion cfg { c with kind := .directory "" }
  checkAbs .directoryAbs s.sourceSubvolume s.sourceSubvolume
  pure { c with kind := .directory s.sourceSubvolume }

end Copies

section Session

/-- The mount device of sessions of block devices and loopback files. -/
def setSessionMountDevice (c : Chroot) : Chroot :=
  match c.kind with
  | .blockDevice device => setMountDevice device c
  | .lvmSnapshot s => setMountDevice s.device c
  | .loopback file => setMountDevice file c
  | _ => c

/-- The names of the snapshot that a session of a snapshot chroot uses. -/
def setSessionSnapshot (c : Chroot) : Except ChrootError Chroot :=
  match c.kind with
  | .lvmSnapshot s =>
      if s.device ≠ "" then
        setLvmSnapshotDevice (dirname s.device ++ "/" ++ c.name) s c
      else
        .ok c
  | .btrfsSnapshot s =>
      if s.snapshotDirectory ≠ "" then do
        let name := s.snapshotDirectory ++ "/" ++ c.name
        checkAbs .directoryAbs name s.sourceSubvolume
        pure { c with kind := .btrfsSnapshot { s with snapshotName := name } }
      else
        .ok c
  | .zfsSnapshot s =>
      if s.dataset ≠ "" then
        let s := { s with snapshotName := s.dataset ++ "@" ++ c.name }
        .ok (setZfsCloneName (s.dataset ++ "/schroot-" ++ c.name) s
          { c with kind := .zfsSnapshot s })
      else
        .ok c
  | _ => .ok c

/-- The union directories of a session end in its name. -/
def setSessionUnion (c : Chroot) : Except UnionError Chroot :=
  match c.unionFacet? with
  | none => .ok c
  | some u => do
      let u ← u.setOverlayDirectory (u.overlayDirectory ++ "/" ++ c.name)
      let u ← u.setUnderlayDirectory (u.underlayDirectory ++ "/" ++ c.name)
      pure (c.updateFacet (.union u))

/-- The users of a session: the one who began it, in the list for root access or in
the other one. -/
def setSessionUsers (user : String) (root : Bool) (c : Chroot) : Chroot :=
  let allowedUsers := if user ≠ "" then [user] else []
  { c with
    users := if root then [] else allowedUsers
    rootUsers := if root then allowedUsers else []
    groups := []
    rootGroups := []
    aliases := [] }

/-- Sessions of chroots with setup scripts get a mount location of their own. -/
def setSessionLocation (cfg : SbuildConfig) (sessionId : String) (c : Chroot) :
    Except ChrootError Chroot :=
  match c.kind with
  | .plain _ => .ok c
  | _ =>
      if c.mountLocation = "" then
        setMountLocation (cfg.mountDir ++ "/" ++ sessionId) c
      else
        .ok c

/-- `clone_session_setup`: `c` is the copy that becomes the session. -/
def cloneSessionSetup (cfg : SbuildConfig) (parent : Chroot)
    (sessionId selected user : String) (root : Bool) (c : Chroot) :
    Except ObjectError Chroot := do
  let c := (c.removeFacet .sessionClonable).removeFacet .sourceClonable
  let s : SessionFacet := { parent := some parent.facetKinds }
  let s := (s.setOriginalName c.name).setSelectedName selected
  let c ← (c.addFacet (.session s)).mapError .chroot
  let c ← (c.setName sessionId).mapError .chroot
  let c := { c with description := c.description ++ " " ++ "(session chroot)" }
  let c := c.setSessionUsers user root
  let c ← (c.setSessionLocation cfg sessionId).mapError .chroot
  let c := c.setSessionMountDevice
  let c ← c.setSessionSnapshot.mapError .chroot
  let c := if parent.hasFacet .union then c else c.removeFacet .union
  c.setSessionUnion.mapError .union

/-- `clone_session`.  Plain chroots return no session, and the others have to be
session-clonable, which the source asserts. -/
def cloneSession (cfg : SbuildConfig) (c : Chroot) (sessionId selected user : String)
    (root : Bool) : Except ObjectError (Option Chroot) :=
  match c.kind with
  | .plain _ => .ok none
  | _ =>
      if c.hasFacet .sessionClonable then
        (cloneSessionSetup cfg c sessionId selected user root c.copy).map some
      else
        .ok none

end Session

section Source

/-- `clone_source_setup`: `c` is the copy that becomes the source chroot. -/
def cloneSourceSetup (s : SourceClonable) (c : Chroot) : Except ChrootError Chroot := do
  let c := { c with
    description := c.description ++ " " ++ "(source chroot)"
    original := false
    users := s.sourceUsers
    groups := s.sourceGroups
    rootUsers := s.sourceRootUsers
    rootGroups := s.sourceRootGroups }
  let c ← c.setAliases c.aliases
  let c := (c.removeFacet .union).removeFacet .sourceClonable
  c.addFacet .source

/-- The copy that a source chroot starts from. -/
def sourceCopy (cfg : SbuildConfig) (c : Chroot) : Except ChrootError Chroot :=
  match c.kind with
  | .lvmSnapshot s => blockDeviceOfLvm cfg s c
  | .btrfsSnapshot s => directoryOfBtrfs cfg s c
  | _ => .ok c.copy

/-- `clone_source`.  Plain chroots return none, and the others have to be
source-clonable, which the source asserts. -/
def cloneSource (cfg : SbuildConfig) (c : Chroot) : Except ChrootError (Option Chroot) :=
  match c.kind, c.sourceClonable? with
  | .plain _, _ => .ok none
  | _, none => .ok none
  | _, some s => do
      let clone ← sourceCopy cfg c
      let clone ← cloneSourceSetup s clone
      match clone.kind with
      | .file f => pure (some { clone with kind := .file { f with repack := true } })
      | _ => pure (some clone)

end Source

end Chroot

end Schroot
