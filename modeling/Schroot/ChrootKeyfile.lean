import Schroot.Chroot

/-!
# Chroots and keyfiles

Reading a chroot from its group of a keyfile (`setKeyfile`) and writing it
(`getKeyfile`).  The keys that a class, type or facet reads are tables of
`KeySpec`s in the order of the source; the group is looked up by the name that the
chroot has at that moment.
-/

namespace Schroot

namespace Chroot

section ReadingKeys

/-- Read keys one after the other. -/
def readKeys (kf : Keyfile) (specs : List (KeySpec Chroot)) (c : Chroot) :
    Except KeyfileError Chroot :=
  specs.foldlM (fun c spec => spec.get kf c.name c) c

/-- Setters of the base class that cannot fail. -/
def pureSetter {α : Type} (method : α → Chroot → Chroot) : α → Setter Chroot :=
  fun value c => .ok (method value c)

/-- Setters that throw `chroot::error`. -/
def chrootSetter {α : Type} (method : α → Chroot → Except ChrootError Chroot) :
    α → Setter Chroot :=
  fun value c => (method value c).mapError .chroot

/-- `operator >>` of a regular expression: its first line has to be valid. -/
def readRegex (cfg : SbuildConfig) (method : String → Setter Chroot) : Reader Chroot :=
  fun value =>
    match firstLine value with
    | none => .ok none
    | some pattern =>
        if cfg.regexValid pattern then .ok (some (method pattern)) else .error (.regex pattern)

/-- An obsolete boolean key. -/
def obsoleteKey (key : String) (priority : Priority) : KeySpec Chroot where
  key := key
  priority := priority
  read := readBool nullMethod

/-- `chroot::set_keyfile (chroot, keyfile, used_keys)`; `session` tells whether the
chroot has the session facet. -/
def baseKeys (cfg : SbuildConfig) (session : Bool) : List (KeySpec Chroot) :=
  [ obsoleteKey "active" .obsolete
  , obsoleteKey "run-setup-scripts" .obsolete
  , obsoleteKey "run-session-scripts" .obsolete
  , obsoleteKey "run-exec-scripts" .obsolete
  , { key := "profile", priority := .optional
      read := readString (fun v c => (setProfile v c).mapError .userdata) }
  , { key := "script-config", priority := if session then .optional else .deprecated
      read := readString (pureSetter setScriptConfig) }
  , obsoleteKey "priority" (if session then .optional else .obsolete)
  , { key := "aliases", priority := .optional
      read := readList (chrootSetter setAliases) }
  , { key := "environment-filter", priority := .optional
      read := readRegex cfg (pureSetter fun v c => { c with environmentFilter := v }) }
  , { key := "description", priority := .optional
      read := readString (pureSetter fun v c => { c with description := v }) }
  , { key := "users", priority := .optional
      read := readList (pureSetter fun v c => { c with users := v }) }
  , { key := "groups", priority := .optional
      read := readList (pureSetter fun v c => { c with groups := v }) }
  , { key := "root-users", priority := .optional
      read := readList (pureSetter fun v c => { c with rootUsers := v }) }
  , { key := "root-groups", priority := .optional
      read := readList (pureSetter fun v c => { c with rootGroups := v }) }
  , { key := "mount-location", priority := if session then .required else .disallowed
      read := readString (chrootSetter setMountLocation) }
  , { key := "name", priority := if session then .optional else .disallowed
      read := readString (chrootSetter setName) }
  , { key := "command-prefix", priority := .optional
      read := readList (pureSetter fun v c => { c with commandPrefix := v }) }
  , { key := "message-verbosity", priority := .optional
      read := readString (chrootSetter setVerbosity) }
  , { key := "preserve-environment", priority := .optional
      read := readBool (pureSetter fun v c => { c with preserveEnvironment := v }) }
  , { key := "shell", priority := .optional
      read := readString (pureSetter fun v c => { c with defaultShell := v }) } ]

/-- Keys of localised descriptions, `^description\[.*]$`. -/
def isDescriptionKey (key : String) : Bool :=
  "description[".toList.isPrefixOf key.toList && "]".toList.isSuffixOf key.toList &&
    !key.toList.contains '\x00'

end ReadingKeys

section TypeKeys

/-- A setter of the type-specific data. -/
def kindSetter {α : Type} (method : α → Chroot → Except ChrootError ChrootKind) :
    α → Setter Chroot :=
  fun value c => ((method value c).map (fun kind => { c with kind := kind })).mapError .chroot

/-- `chroot_directory_base::set_directory`. -/
def setDirectory (directory : String) (c : Chroot) : Except ChrootError ChrootKind := do
  checkAbs .directoryAbs directory directory
  match c.kind with
  | .plain _ => pure (.plain directory)
  | .directory _ => pure (.directory directory)
  | kind => pure kind

/-- `directory` and the older `location`: one of them is needed, both are refused. -/
def directoryKeys (bothKeys : Bool) : List (KeySpec Chroot) :=
  [ { key := "directory", priority := .optional
      read := readString (kindSetter setDirectory) }
  , { key := "location", priority := if bothKeys then .disallowed else .obsolete
      read := readString (kindSetter setDirectory) } ]

/-- `chroot_custom::set_session_cloneable`. -/
def setSessionCloneable (cloneable : Bool) (c : Chroot) : Except ChrootError Chroot :=
  if cloneable then c.addFacet .sessionClonable else .ok (c.removeFacet .sessionClonable)

/-- `chroot_custom::set_source_cloneable`. -/
def setSourceCloneable (cloneable : Bool) (c : Chroot) : Except ChrootError Chroot :=
  if cloneable then c.addFacet (.sourceClonable {}) else .ok (c.removeFacet .sourceClonable)

/-- The keys of custom chroots; two of them are counted as used by another name. -/
def customKeys (session : Bool) : List (KeySpec Chroot) :=
  [ { key := "custom-session-cloneable"
      priority := if session then .disallowed else .optional
      read := readBool (chrootSetter setSessionCloneable)
      used := "custom-cloneable" }
  , { key := "custom-session-purgeable", priority := .optional
      read := readBool (pureSetter fun v c => { c with kind := .custom v })
      used := "custom-purgeable" }
  , { key := "custom-source-cloneable"
      priority := if session then .disallowed else .optional
      read := readBool (chrootSetter setSourceCloneable) } ]

/-- `chroot_file::set_file` and its siblings for the file data of a chroot. -/
def withFile (f : FileChroot → Except ChrootError FileChroot) (c : Chroot) :
    Except ChrootError ChrootKind :=
  match c.kind with
  | .file d => (f d).map .file
  | kind => .ok kind

def fileKeys (session : Bool) : List (KeySpec Chroot) :=
  [ { key := "file", priority := .required
      read := readString (kindSetter fun v => withFile fun d => do
        checkAbs .fileAbs v v
        pure { d with file := v }) }
  , { key := "location", priority := .optional
      read := readString (kindSetter fun v => withFile fun d => do
        let location ← checkLocation v
        pure { d with location := location }) }
  , { key := "file-repack", priority := if session then .required else .disallowed
      read := readBool (kindSetter fun v => withFile fun d =>
        .ok { d with repack := v }) } ]

/-- `chroot_block_device_base::set_device`. -/
def setDevice (device : String) (c : Chroot) : Except ChrootError ChrootKind := do
  checkAbs .deviceAbs device device
  match c.kind with
  | .blockDevice _ => pure (.blockDevice device)
  | .lvmSnapshot s => pure (.lvmSnapshot { s with device := device })
  | kind => pure kind

def blockDeviceKeys : List (KeySpec Chroot) :=
  [ { key := "device", priority := .required
      read := readString (kindSetter setDevice) } ]

/-- `chroot_loopback::set_file`. -/
def setLoopbackFile (file : String) (c : Chroot) : Except ChrootError ChrootKind := do
  checkAbs .fileAbs file file
  match c.kind with
  | .loopback _ => pure (.loopback file)
  | kind => pure kind

def loopbackKeys : List (KeySpec Chroot) :=
  [ { key := "file", priority := .required
      read := readString (kindSetter setLoopbackFile) } ]

/-- A method of the LVM data of a chroot. -/
def withLvm (f : LvmSnapshot → Chroot → Except ChrootError Chroot) (c : Chroot) :
    Except ChrootError Chroot :=
  match c.kind with
  | .lvmSnapshot s => f s c
  | _ => .ok c

def lvmSnapshotKeys (session : Bool) : List (KeySpec Chroot) :=
  blockDeviceKeys ++
  [ { key := "lvm-snapshot-device", priority := if session then .required else .disallowed
      read := readString (chrootSetter fun v => withLvm (setLvmSnapshotDevice v)) }
  , { key := "lvm-snapshot-options"
      priority := if session then .deprecated else .required
      read := readString (chrootSetter fun v => withLvm fun s c =>
        .ok { c with kind := .lvmSnapshot { s with snapshotOptions := v } }) } ]

/-- A method of the ZFS data of a chroot. -/
def withZfs (f : ZfsSnapshot → Chroot → Chroot) (c : Chroot) : Chroot :=
  match c.kind with
  | .zfsSnapshot s => f s c
  | _ => c

def zfsSnapshotKeys (session : Bool) : List (KeySpec Chroot) :=
  [ { key := "zfs-dataset", priority := if session then .disallowed else .required
      read := readString (pureSetter fun v => withZfs fun s c =>
        { c with kind := .zfsSnapshot { s with dataset := v } }) }
  , { key := "zfs-snapshot-name", priority := if session then .required else .disallowed
      read := readString (pureSetter fun v => withZfs fun s c =>
        { c with kind := .zfsSnapshot { s with snapshotName := v } }) }
  , { key := "zfs-clone-name", priority := if session then .required else .disallowed
      read := readString (pureSetter fun v => withZfs (setZfsCloneName v)) }
  , { key := "zfs-snapshot-options"
      priority := if session then .disallowed else .optional
      read := readString (pureSetter fun v => withZfs fun s c =>
        { c with kind := .zfsSnapshot { s with snapshotOptions := v } }) } ]

/-- A method of the Btrfs data of a chroot.  All three setters report the source
subvolume when the path they are given is not absolute. -/
def withBtrfs (f : BtrfsSnapshot → BtrfsSnapshot) (path : String) (c : Chroot) :
    Except ChrootError ChrootKind :=
  match c.kind with
  | .btrfsSnapshot s => do
      checkAbs .directoryAbs path s.sourceSubvolume
      pure (.btrfsSnapshot (f s))
  | kind => .ok kind

/-- `set_source_subvolume` reports the path itself. -/
def setSourceSubvolume (path : String) (c : Chroot) : Except ChrootError ChrootKind :=
  match c.kind with
  | .btrfsSnapshot s => do
      checkAbs .directoryAbs path path
      pure (.btrfsSnapshot { s with sourceSubvolume := path })
  | kind => .ok kind

def btrfsSnapshotKeys (session : Bool) : List (KeySpec Chroot) :=
  [ { key := "btrfs-source-subvolume"
      priority := if session then .disallowed else .required
      read := readString (kindSetter setSourceSubvolume) }
  , { key := "btrfs-snapshot-directory"
      priority := if session then .disallowed else .required
      read := readString (kindSetter fun v =>
        withBtrfs (fun s => { s with snapshotDirectory := v }) v) }
  , { key := "btrfs-snapshot-name", priority := if session then .required else .disallowed
      read := readString (kindSetter fun v =>
        withBtrfs (fun s => { s with snapshotName := v }) v) } ]

/-- The keys that the type reads after those of the base class. -/
def typeKeys (kf : Keyfile) (c : Chroot) : List (KeySpec Chroot) :=
  match c.kind with
  | .plain _ | .directory _ =>
      directoryKeys (kf.hasKey c.name "directory" && kf.hasKey c.name "location")
  | .custom _ => customKeys c.isSession
  | .file _ => fileKeys c.isSession
  | .blockDevice _ => blockDeviceKeys
  | .loopback _ => loopbackKeys
  | .lvmSnapshot _ => lvmSnapshotKeys c.isSession
  | .zfsSnapshot _ => zfsSnapshotKeys c.isSession
  | .btrfsSnapshot _ => btrfsSnapshotKeys c.isSession

/-- Chroots with a directory need one of its two keys. -/
def requireDirectory (kf : Keyfile) (c : Chroot) : Except KeyfileError Unit :=
  match c.kind with
  | .plain _ | .directory _ =>
      if kf.hasKey c.name "directory" || kf.hasKey c.name "location" then
        .ok ()
      else
        .error (.fault
          { code := .missingKeyNl, group := c.name, context := "directory" })
  | _ => .ok ()

/-- The `set_keyfile` of a type, with the keys it counts as used. -/
def setTypeKeyfile (cfg : SbuildConfig) (kf : Keyfile) (c : Chroot) :
    Except KeyfileError (Chroot × List String) := do
  let base := baseKeys cfg c.isSession
  let used := "type" :: (kf.getKeys c.name).filter isDescriptionKey ++ base.map KeySpec.used
  let c ← readKeys kf base c
  requireDirectory kf c
  let keys := typeKeys kf c
  let c ← readKeys kf keys c
  pure (c, used ++ keys.map KeySpec.used)

end TypeKeys

section FacetKeys

def personalityKeys : List (KeySpec Chroot) :=
  [ { key := "personality", priority := .optional
      read := readPersonality (pureSetter fun v c => c.updateFacet (.personality v)) } ]

/-- A method of the user data facet. -/
def withUserdata (f : Userdata → Userdata) (c : Chroot) : Chroot :=
  match c.userdata? with
  | some u => c.updateFacet (.userdata (f u))
  | none => c

def userdataKeys : List (KeySpec Chroot) :=
  [ { key := "user-modifiable-keys", priority := .optional
      read := readSet (pureSetter fun v => withUserdata fun u =>
        { u with userModifiableKeys := v }) }
  , { key := "root-modifiable-keys", priority := .optional
      read := readSet (pureSetter fun v => withUserdata fun u =>
        { u with rootModifiableKeys := v }) } ]

/-- A method of the session facet. -/
def withSession (f : SessionFacet → SessionFacet) (c : Chroot) : Chroot :=
  match c.sessionFacet? with
  | some s => c.updateFacet (.session (f s))
  | none => c

/-- An obsolete list key of sessions. -/
def obsoleteListKey (key : String) : KeySpec Chroot where
  key := key
  priority := .obsolete
  read := readList nullMethod

def sessionKeys : List (KeySpec Chroot) :=
  [ obsoleteKey "active" .obsolete
  , obsoleteListKey "source-users"
  , obsoleteListKey "source-groups"
  , obsoleteListKey "source-root-users"
  , obsoleteListKey "source-root-groups"
  , { key := "original-name", priority := .optional
      read := readString (pureSetter fun v => withSession fun s => s.setOriginalName v) }
  , { key := "selected-name", priority := .optional
      read := readString (pureSetter fun v => withSession fun s => s.setSelectedName v) } ]

/-- A method of the source-clonable facet. -/
def withSourceClonable (f : SourceClonable → SourceClonable) (c : Chroot) : Chroot :=
  match c.sourceClonable? with
  | some s => c.updateFacet (.sourceClonable (f s))
  | none => c

def sourceClonableKeys : List (KeySpec Chroot) :=
  [ { key := "source-clone", priority := .optional
      read := readBool (pureSetter fun v => withSourceClonable fun s =>
        { s with sourceClone := v }) }
  , { key := "source-users", priority := .optional
      read := readList (pureSetter fun v => withSourceClonable fun s =>
        { s with sourceUsers := v }) }
  , { key := "source-groups", priority := .optional
      read := readList (pureSetter fun v => withSourceClonable fun s =>
        { s with sourceGroups := v }) }
  , { key := "source-root-users", priority := .optional
      read := readList (pureSetter fun v => withSourceClonable fun s =>
        { s with sourceRootUsers := v }) }
  , { key := "source-root-groups", priority := .optional
      read := readList (pureSetter fun v => withSourceClonable fun s =>
        { s with sourceRootGroups := v }) } ]

/-- A method of the union facet. -/
def withUnion (f : UnionFacet → Except UnionError UnionFacet) : Setter Chroot := fun c =>
  match c.unionFacet? with
  | some u => ((f u).map (fun u => c.updateFacet (.union u))).mapError .union
  | none => .ok c

def unionTypeKeys : List (KeySpec Chroot) :=
  [ { key := "union-type", priority := .optional, read := readString setUnionType } ]

/-- The union keys after its type; sessions of a configured union need both
directories. -/
def unionKeys (needed : Bool) : List (KeySpec Chroot) :=
  [ { key := "union-mount-options", priority := .optional
      read := readString fun v => withUnion fun u => .ok { u with mountOptions := v } }
  , { key := "union-overlay-directory", priority := if needed then .required else .optional
      read := readString fun v => withUnion fun u => u.setOverlayDirectory v }
  , { key := "union-underlay-directory", priority := if needed then .required else .optional
      read := readString fun v => withUnion fun u => u.setUnderlayDirectory v } ]

/-- A method of the mountable facet. -/
def withMountable (f : Mountable → Except ChrootError Mountable) : Setter Chroot := fun c =>
  match c.mountable? with
  | some m => ((f m).map (fun m => c.updateFacet (.mountable m))).mapError .chroot
  | none => .ok c

def mountableKeys (session : Bool) : List (KeySpec Chroot) :=
  [ { key := "mount-device", priority := if session then .required else .disallowed
      read := readString fun v => withMountable fun m => .ok { m with mountDevice := v } }
  , { key := "mount-options", priority := .optional
      read := readString fun v => withMountable fun m => .ok { m with mountOptions := v } }
  , { key := "location", priority := .optional
      read := readString fun v => withMountable fun m => do
        let location ← checkLocation v
        pure { m with location := location } } ]

/-- `chroot_facet_union::set_keyfile`.  A chroot that the union type made
source-clonable reads the keys of that facet here. -/
def setUnionKeyfile (kf : Keyfile) (c : Chroot) :
    Except KeyfileError (Chroot × List String) := do
  let session := c.isSession
  let c ← readKeys kf unionTypeKeys c
  let sourceKeys := if c.hasFacet .sourceClonable then sourceClonableKeys else []
  let c ← readKeys kf sourceKeys c
  let configured :=
    match c.unionFacet? with
    | some u => u.configured
    | none => false
  let keys := unionKeys (session && configured)
  let c ← readKeys kf keys c
  pure (c, (unionTypeKeys ++ sourceKeys ++ keys).map KeySpec.used)

/-- The `set_keyfile` of a facet. -/
def setFacetKeyfile (kf : Keyfile) (kind : FacetKind) (c : Chroot) :
    Except KeyfileError (Chroot × List String) :=
  let table (keys : List (KeySpec Chroot)) : Except KeyfileError (Chroot × List String) :=
    (readKeys kf keys c).map (fun c => (c, keys.map KeySpec.used))
  match kind with
  | .personality => table personalityKeys
  | .sessionClonable => table []
  | .userdata => table userdataKeys
  | .session => table sessionKeys
  | .sourceClonable => table sourceClonableKeys
  | .source => table []
  | .union => setUnionKeyfile kf c
  | .mountable => table (mountableKeys c.isSession)

/-- The facets behind the facet of a kind. -/
def facetsAfter (kind : FacetKind) (facets : List Facet) : List Facet :=
  (facets.dropWhile (fun f => f.kind ≠ kind)).tail

/-- The loop of `set_keyfile` over the facets, the first of `rest` being the current
one.  Facets may be appended and removed under way, so the next facet is looked up
after each step.  The fuel bounds the number of facets visited. -/
def setFacetsKeyfile (kf : Keyfile) :
    Nat → List Facet → Chroot → List String → Except KeyfileError (Chroot × List String)
  | 0, _, c, used => .ok (c, used)
  | _ + 1, [], c, used => .ok (c, used)
  | n + 1, f :: _, c, used => do
      let (c, more) ← setFacetKeyfile kf f.kind c
      setFacetsKeyfile kf n (facetsAfter f.kind c.facets) c (used ++ more)

/-- More than the number of facet kinds. -/
def facetFuel : Nat := 9

/-- One key that nothing has read: it is user data if it is accepted as such, and
warned about otherwise. -/
def setUnusedKey (kf : Keyfile) (c : Chroot) (key : String) : Chroot :=
  match c.userdata?, kf.value? c.name key with
  | some u, some value =>
      match u.setData key value with
      | .ok u => c.updateFacet (.userdata u)
      | .error _ => c
  | _, _ => c

/-- `chroot::set_keyfile (keyfile)`. -/
def setKeyfile (cfg : SbuildConfig) (kf : Keyfile) (c : Chroot) :
    Except KeyfileError Chroot := do
  let (c, used) ← setTypeKeyfile cfg kf c
  let (c, used) ← setFacetsKeyfile kf facetFuel c.facets c used
  let unused := (kf.getKeys c.name).filter (fun key => !used.contains key)
  pure (unused.foldl (setUnusedKey kf) c)

end FacetKeys

section Writing

/-- An entry that is written under a condition. -/
def entryIf (condition : Bool) (key value : String) : List (String × String) :=
  if condition then [(key, value)] else []

/-- `chroot::get_keyfile (chroot, keyfile)`: what the base class writes. -/
def baseEntries (c : Chroot) : List (String × String) :=
  entryIf c.isSession "name" c.name ++
  [ ("type", c.kind.typeName)
  , ("profile", c.profile) ] ++
  entryIf (c.scriptConfig ≠ "") "script-config" c.scriptConfig ++
  [ ("aliases", joinStrings ',' c.aliases)
  , ("environment-filter", c.environmentFilter)
  , ("description", c.description)
  , ("users", joinStrings ',' c.users)
  , ("groups", joinStrings ',' c.groups)
  , ("root-users", joinStrings ',' c.rootUsers)
  , ("root-groups", joinStrings ',' c.rootGroups) ] ++
  entryIf c.isSession "mount-location" c.mountLocation ++
  [ ("command-prefix", joinStrings ',' c.commandPrefix)
  , ("message-verbosity", c.verbosity.print)
  , ("preserve-environment", printBool c.preserveEnvironment)
  , ("shell", c.defaultShell) ]

/-- What the type writes after the base class. -/
def typeEntries (c : Chroot) : List (String × String) :=
  match c.kind with
  | .plain directory | .directory directory => [("directory", directory)]
  | .custom purgeable => [("custom-session-purgeable", printBool purgeable)]
  | .file f =>
      [("file", f.file), ("location", f.location)] ++
        entryIf c.isSession "file-repack" (printBool f.repack)
  | .blockDevice device => [("device", device)]
  | .loopback file => [("file", file)]
  | .lvmSnapshot s =>
      [("device", s.device)] ++
        entryIf c.isSession "lvm-snapshot-device" s.snapshotDevice ++
        entryIf (!c.isSession) "lvm-snapshot-options" s.snapshotOptions
  | .zfsSnapshot s =>
      entryIf c.isSession "zfs-snapshot-name" s.snapshotName ++
        entryIf c.isSession "zfs-clone-name" s.cloneName ++
        entryIf (!c.isSession) "zfs-dataset-name" s.dataset ++
        entryIf (!c.isSession) "zfs-snapshot-options" s.snapshotOptions
  | .btrfsSnapshot s =>
      entryIf (!c.isSession) "btrfs-source-subvolume" s.sourceSubvolume ++
        entryIf (!c.isSession) "btrfs-snapshot-directory" s.snapshotDirectory ++
        entryIf c.isSession "btrfs-snapshot-name" s.snapshotName

/-- What a facet writes. -/
def facetEntries (session : Bool) : Facet → List (String × String)
  | .personality p => entryIf (p.name ≠ "undefined") "personality" p.print
  | .sessionClonable => []
  | .userdata u =>
      [ ("user-modifiable-keys", joinStrings ',' u.userModifiableKeys.toList)
      , ("root-modifiable-keys", joinStrings ',' u.rootModifiableKeys.toList) ] ++
        u.userdata.toList
  | .session s =>
      [("original-name", s.originalName), ("selected-name", s.selectedName)]
  | .sourceClonable s =>
      [ ("source-clone", printBool s.sourceClone)
      , ("source-users", joinStrings ',' s.sourceUsers)
      , ("source-groups", joinStrings ',' s.sourceGroups)
      , ("source-root-users", joinStrings ',' s.sourceRootUsers)
      , ("source-root-groups", joinStrings ',' s.sourceRootGroups) ]
  | .source => []
  | .union u =>
      ("union-type", u.unionType) ::
        (if u.configured then
          [ ("union-mount-options", u.mountOptions)
          , ("union-overlay-directory", u.overlayDirectory)
          , ("union-underlay-directory", u.underlayDirectory) ]
        else
          [])
  | .mountable m =>
      entryIf session "mount-device" m.mountDevice ++
        [("mount-options", m.mountOptions), ("location", m.location)]

/-- Everything that `get_keyfile` writes, in order. -/
def keyfileEntries (c : Chroot) : List (String × String) :=
  c.baseEntries ++ c.typeEntries ++ c.facets.flatMap (facetEntries c.isSession)

/-- `chroot::get_keyfile (keyfile)`: the group of the chroot is written anew. -/
def getKeyfile (c : Chroot) (kf : Keyfile) : Keyfile :=
  c.keyfileEntries.foldl (fun kf e => kf.setValue c.name e.1 e.2) (kf.removeGroup c.name)

end Writing

end Chroot

end Schroot
