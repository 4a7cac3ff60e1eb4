import Schroot.Facets

/-!
# Chroots

A chroot is the data of the base class, the data of its type, and its facets.
Setters that can throw return an `Except`, and `create` makes the chroot of a type name.
-/

namespace Schroot

section Configuration

/-- The variables of the host that a build may know. -/
def hostVariableNames : List String :=
  ["HOST", "HOST_OS", "HOST_VENDOR", "HOST_CPU", "PLATFORM"]

/-- What the build system configures, as far as chroots use it.  `regexValid` tells
which patterns the regular expression library accepts, and `hostVariables` are the
variables of the host that the build knows. -/
structure SbuildConfig where
  mountDir : String
  sessionDir : String
  fileUnpackDir : String
  overlayDir : String
  underlayDir : String
  sysconfDir : String
  libexecDir : String
  dataDir : String
  setupDataDir : String
  hostVariables : List (String × String)
  defaultEnvironmentFilter : String
  regexValid : String → Bool
  isAbsname_mountDir : isAbsname mountDir = true
  isAbsname_overlayDir : isAbsname overlayDir = true
  isAbsname_underlayDir : isAbsname underlayDir = true
  regexValid_filter : regexValid defaultEnvironmentFilter = true
  filter_ne_empty : defaultEnvironmentFilter ≠ ""
  singleLine_filter : SingleLine defaultEnvironmentFilter
  singleLine_mountDir : SingleLine mountDir
  singleLine_overlayDir : SingleLine overlayDir
  singleLine_underlayDir : SingleLine underlayDir
  mem_hostVariables : ∀ v ∈ hostVariables, v.1 ∈ hostVariableNames

/-- The configuration of a build for the root prefix, with a short environment filter and
a regular expression library that accepts everything. -/
def SbuildConfig.standard : SbuildConfig where
  mountDir := "/var/run/schroot/mount"
  sessionDir := "/var/lib/schroot/session"
  fileUnpackDir := "/var/lib/schroot/unpack"
  overlayDir := "/var/lib/schroot/union/overlay"
  underlayDir := "/var/lib/schroot/union/underlay"
  sysconfDir := "/etc/schroot"
  libexecDir := "/usr/libexec/schroot"
  dataDir := "/usr/share/schroot"
  setupDataDir := "/usr/share/schroot/setup"
  hostVariables := [("HOST", "x86_64-linux-gnu"), ("HOST_OS", "linux-gnu")]
  defaultEnvironmentFilter := "^(CDPATH|ENV|IFS|LD_.*)$"
  regexValid := fun _ => true
  isAbsname_mountDir := by decide
  isAbsname_overlayDir := by decide
  isAbsname_underlayDir := by decide
  regexValid_filter := by decide
  filter_ne_empty := by decide
  singleLine_filter := by decide
  singleLine_mountDir := by decide
  singleLine_overlayDir := by decide
  singleLine_underlayDir := by decide
  mem_hostVariables := by decide

end Configuration

section Data

/-- Message verbosity. -/
inductive Verbosity where
  | quiet
  | normal
  | verbose
deriving DecidableEq, Repr

structure FileChroot where
  file : String := ""
  location : String := ""
  repack : Bool := false
deriving DecidableEq

structure LvmSnapshot where
  device : String := ""
  snapshotDevice : String := ""
  snapshotOptions : String := ""
deriving DecidableEq

structure ZfsSnapshot where
  dataset : String := ""
  cloneName : String := ""
  snapshotName : String := ""
  snapshotOptions : String := ""
deriving DecidableEq

structure BtrfsSnapshot where
  sourceSubvolume : String := ""
  snapshotDirectory : String := ""
  snapshotName : String := ""
deriving DecidableEq

/-- The chroot types with the data that each adds to the base class. -/
inductive ChrootKind where
  | plain (directory : String)
  | directory (directory : String)
  | custom (purgeable : Bool)
  | file (f : FileChroot)
  | blockDevice (device : String)
  | loopback (file : String)
  | lvmSnapshot (s : LvmSnapshot)
  | zfsSnapshot (s : ZfsSnapshot)
  | btrfsSnapshot (s : BtrfsSnapshot)
deriving DecidableEq

/-- A chroot object. -/
structure Chroot where
  name : String := ""
  description : String := ""
  users : List String := []
  groups : List String := []
  rootUsers : List String := []
  rootGroups : List String := []
  aliases : List String := []
  preserveEnvironment : Bool := false
  defaultShell : String := ""
  environmentFilter : String
  mountLocation : String := ""
  original : Bool := true
  runSetupScripts : Bool := true
  scriptConfig : String := ""
  profile : String := "default"
  commandPrefix : List String := []
  verbosity : Verbosity := .normal
  facets : List Facet := []
  kind : ChrootKind

/-- `get_chroot_type`. -/
def ChrootKind.typeName : ChrootKind → String
  | plain _ => "plain"
  | directory _ => "directory"
  | custom _ => "custom"
  | file _ => "file"
  | blockDevice _ => "block-device"
  | loopback _ => "loopback"
  | lvmSnapshot _ => "lvm-snapshot"
  | zfsSnapshot _ => "zfs-snapshot"
  | btrfsSnapshot _ => "btrfs-snapshot"

/-- `get_verbosity_string`. -/
def Verbosity.print : Verbosity → String
  | quiet => "quiet"
  | normal => "normal"
  | verbose => "verbose"

end Data

namespace Chroot

section FacetList

/-- The kinds of the facets in order. -/
def facetKinds (c : Chroot) : List FacetKind :=
  TaggedList.tags Facet.kind c.facets

/-- `get_facet`: the first facet of a kind. -/
def getFacet (c : Chroot) (kind : FacetKind) : Option Facet :=
  TaggedList.get? Facet.kind kind c.facets

def hasFacet (c : Chroot) (kind : FacetKind) : Bool :=
  TaggedList.has Facet.kind kind c.facets

/-- `add_facet` refuses a second facet of a kind. -/
def addFacet (f : Facet) (c : Chroot) : Except ChrootError Chroot :=
  match TaggedList.add Facet.kind f c.facets with
  | none => .error { code := .facetPresent }
  | some facets => .ok { c with facets := facets }

def removeFacet (kind : FacetKind) (c : Chroot) : Chroot :=
  { c with facets := TaggedList.remove Facet.kind kind c.facets }

/-- Change the data of a facet of the chroot. -/
def updateFacet (f : Facet) (c : Chroot) : Chroot :=
  { c with facets := TaggedList.replace Facet.kind f c.facets }

def persona? (c : Chroot) : Option Personality :=
  match c.getFacet .personality with
  | some (.personality p) => some p
  | _ => none

def userdata? (c : Chroot) : Option Userdata :=
  match c.getFacet .userdata with
  | some (.userdata u) => some u
  | _ => none

def sessionFacet? (c : Chroot) : Option SessionFacet :=
  match c.getFacet .session with
  | some (.session s) => some s
  | _ => none

def sourceClonable? (c : Chroot) : Option SourceClonable :=
  match c.getFacet .sourceClonable with
  | some (.sourceClonable s) => some s
  | _ => none

def unionFacet? (c : Chroot) : Option UnionFacet :=
  match c.getFacet .union with
  | some (.union u) => some u
  | _ => none

def mountable? (c : Chroot) : Option Mountable :=
  match c.getFacet .mountable with
  | some (.mountable m) => some m
  | _ => none

/-- The chroot is a session. -/
def isSession (c : Chroot) : Bool :=
  c.hasFacet .session

end FacetList

section Setters

/-- `set_name` refuses the namespace separator and names that are not permitted. -/
def setName (name : String) (c : Chroot) : Except ChrootError Chroot :=
  if ':' ∈ name.toList then
    .error
      { code := .nameInvalid, context := name,
        reason := "Namespace separator ‘:’ may not be used in a chroot name" }
  else if isValidSessionname name then
    .ok { c with name := name }
  else
    .error
      { code := .nameInvalid, context := name,
        reason := "Naming restrictions are documented in schroot.conf(5)" }

/-- The check of one alias. -/
def checkAlias (name : String) : Except ChrootError Unit :=
  if ':' ∈ name.toList then
    .error
      { code := .nameInvalid, context := name,
        reason := "Namespace separator ‘:’ may not be used in an alias name" }
  else if isValidSessionname name then
    .ok ()
  else
    .error
      { code := .nameInvalid, context := name,
        reason := "Naming restrictions are documented in schroot.conf(5)" }

def setAliases (aliases : List String) (c : Chroot) : Except ChrootError Chroot := do
  aliases.forM checkAlias
  pure { c with aliases := aliases }

def setMountLocation (location : String) (c : Chroot) : Except ChrootError Chroot :=
  if location ≠ "" ∧ isAbsname location = false then
    .error { code := .locationAbs, context := location }
  else
    .ok { c with mountLocation := location }

def setVerbosity (verbosity : String) (c : Chroot) : Except ChrootError Chroot :=
  if verbosity = "quiet" then
    .ok { c with verbosity := .quiet }
  else if verbosity = "normal" then
    .ok { c with verbosity := .normal }
  else if verbosity = "verbose" then
    .ok { c with verbosity := .verbose }
  else
    .error { code := .verbosityInvalid, context := verbosity }

/-- The user data that a profile stands for. -/
def profileData (profile : String) : List (String × String) :=
  [("setup.config", profile ++ "/config"),
   ("setup.copyfiles", profile ++ "/copyfiles"),
   ("setup.nssdatabases", profile ++ "/nssdatabases"),
   ("setup.fstab", profile ++ "/fstab")]

def setProfile (profile : String) (c : Chroot) : Except UserdataError Chroot := do
  let c := { c with profile := profile }
  match c.userdata? with
  | none => pure c
  | some u =>
      let u ← (profileData profile).foldlM (fun u e => u.setSystemData e.1 e.2) u
      pure (c.updateFacet (.userdata u))

/-- Setting a script configuration undoes `set_profile`. -/
def setScriptConfig (scriptConfig : String) (c : Chroot) : Chroot :=
  let c := { c with scriptConfig := scriptConfig, profile := "" }
  match c.userdata? with
  | none => c
  | some u =>
      c.updateFacet
        (.userdata
          ((((u.removeData "setup.config").removeData "setup.copyfiles").removeData
            "setup.nssdatabases").removeData "setup.fstab"))

/-- `chroot_facet_union::set_union_type`: a configured union makes the chroot
source-clonable, an unconfigured one takes that back. -/
def setUnionType (type : String) (c : Chroot) : Except ObjectError Chroot :=
  match c.unionFacet? with
  | none => .ok c
  | some u =>
      if UnionFacet.isKnownType type then
        let c := c.updateFacet (.union { u with unionType := type })
        if type ≠ "none" then
          if c.hasFacet .sourceClonable then
            .ok c
          else
            (c.addFacet (.sourceClonable {})).mapError .chroot
        else
          .ok (c.removeFacet .sourceClonable)
      else
        .error (.union { code := .unionTypeUnknown, context := type })

/-- Set the mount device of the mountable facet, if there is one. -/
def setMountDevice (device : String) (c : Chroot) : Chroot :=
  match c.mountable? with
  | none => c
  | some m => c.updateFacet (.mountable { m with mountDevice := device })

/-- The path checks of the type-specific setters. -/
def checkAbs (code : ChrootCode) (path context : String) : Except ChrootError Unit :=
  if isAbsname path then .ok () else .error { code := code, context := context }

/-- `chroot_lvm_snapshot::set_snapshot_device`. -/
def setLvmSnapshotDevice (device : String) (s : LvmSnapshot) (c : Chroot) :
    Except ChrootError Chroot := do
  checkAbs .deviceAbs device device
  pure
    (setMountDevice device
      { c with kind := .lvmSnapshot { s with snapshotDevice := device } })

/-- `chroot_zfs_snapshot::set_clone_name`. -/
def setZfsCloneName (cloneName : String) (s : ZfsSnapshot) (c : Chroot) : Chroot :=
  let c := { c with kind := .zfsSnapshot { s with cloneName := cloneName } }
  if c.hasFacet .source then
    setMountDevice s.dataset c
  else
    setMountDevice cloneName c

end Setters

section Creation

/-- The base class constructor. -/
def baseChroot (cfg : SbuildConfig) (kind : ChrootKind) : Except ObjectError Chroot := do
  let c : Chroot := { environmentFilter := cfg.defaultEnvironmentFilter, kind := kind }
  let c ← (c.addFacet (.personality Personality.undefined)).mapError .chroot
  let c ← (c.addFacet .sessionClonable).mapError .chroot
  let c ← (c.addFacet (.userdata {})).mapError .chroot
  (c.setProfile c.profile).mapError .userdata

/-- A new union facet. -/
def newUnion (cfg : SbuildConfig) : Facet :=
  .union { overlayDirectory := cfg.overlayDir, underlayDirectory := cfg.underlayDir }

/-- The facets that the constructor of a type adds to those of the base class. -/
def extraFacets (cfg : SbuildConfig) : ChrootKind → List Facet
  | .plain _ => []
  | .directory _ => [newUnion cfg]
  | .custom _ => []
  | .file _ => [.sourceClonable {}]
  | .blockDevice _ => [.mountable {}, newUnion cfg]
  | .loopback _ => [.mountable {}, newUnion cfg]
  | .lvmSnapshot _ => [.mountable {}, .sourceClonable {}]
  | .zfsSnapshot _ => [.sourceClonable {}, .mountable {}]
  | .btrfsSnapshot _ => [.sourceClonable {}]

/-- The type that `chroot::create` makes of a type name. -/
def kindOfType (type : String) : Option ChrootKind :=
  if type = "directory" then some (.directory "")
  else if type = "plain" then some (.plain "")
  else if type = "custom" then some (.custom false)
  else if type = "file" then some (.file {})
  else if type = "block-device" then some (.blockDevice "")
  else if type = "loopback" then some (.loopback "")
  else if type = "lvm-snapshot" then some (.lvmSnapshot {})
  else if type = "zfs-snapshot" then some (.zfsSnapshot {})
  else if type = "btrfs-snapshot" then some (.btrfsSnapshot {})
  else none

/-- The constructor of a type. -/
def construct (cfg : SbuildConfig) (kind : ChrootKind) : Except ObjectError Chroot := do
  let c ← baseChroot cfg kind
  let c ← ((extraFacets cfg kind).foldlM (fun c f => addFacet f c) c).mapError .chroot
  match kind with
  | .plain _ =>
      pure (removeFacet .sessionClonable { c with runSetupScripts := false })
  | _ => pure c

/-- `chroot::create`. -/
def create (cfg : SbuildConfig) (type : String) : Except ObjectError Chroot :=
  match kindOfType type with
  | none => .error (.chroot { code := .chrootType, context := type })
  | some kind => construct cfg kind

end Creation

section Flags

/-- Session flags, one field for each bit. -/
structure SessionFlags where
  create : Bool := false
  clone : Bool := false
  purge : Bool := false
  source : Bool := false
deriving DecidableEq, Repr

/-- Bitwise or of two sets of flags. -/
def SessionFlags.or (a b : SessionFlags) : SessionFlags where
  create := a.create || b.create
  clone := a.clone || b.clone
  purge := a.purge || b.purge
  source := a.source || b.source

/-- The flags of the chroot type. -/
def typeFlags (c : Chroot) : SessionFlags :=
  match c.kind with
  | .plain _ => {}
  | .directory _ => {}
  | .custom purgeable => { purge := c.isSession && purgeable }
  | .file _ => { purge := c.isSession }
  | .blockDevice _ => {}
  | .loopback _ => {}
  | .lvmSnapshot _ => { purge := c.isSession }
  | .zfsSnapshot _ => { purge := c.isSession }
  | .btrfsSnapshot _ => { purge := c.isSession }

/-- The flags of a facet. -/
def facetFlags (c : Chroot) : Facet → SessionFlags
  | .sessionClonable => { create := true }
  | .session s =>
      { source := match s.parent with
          | some kinds => decide (FacetKind.source ∈ kinds)
          | none => false }
  | .sourceClonable _ => { clone := !c.isSession }
  | .union u => { purge := u.configured && c.isSession }
  | .personality _ => {}
  | .userdata _ => {}
  | .source => {}
  | .mountable _ => {}

/-- `get_session_flags`. -/
def getSessionFlags (c : Chroot) : SessionFlags :=
  c.facets.foldl (fun flags f => flags.or (c.facetFlags f)) c.typeFlags

end Flags

end Chroot

end Schroot
