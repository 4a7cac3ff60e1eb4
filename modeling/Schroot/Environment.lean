import Schroot.ChrootClone

/-!
# The environment of the setup scripts

The variables that the base class, the type and the facets of a chroot set for its setup
scripts.  User data may not set a variable that is set already.

**Results.**
* `setUserVariables_eq_error`: what a failure says.
-/

namespace Schroot

/-- `environment` without a filter. -/
abbrev Environment := Std.ExtTreeMap String String

namespace Environment

/-- `environment::add`; a variable without a name is dropped. -/
def add (env : Environment) (name value : String) : Environment :=
  if name = "" then env else env.insert name value

def addAll (env : Environment) (entries : List (String × String)) : Environment :=
  entries.foldl (fun env e => env.add e.1 e.2) env

/-- Variables with names are inserted one after the other. -/
theorem addAll_eq_insertAll
    {env : Environment} {vars : List (String × String)}
    (h : ∀ v ∈ vars, v.1 ≠ "") :
    addAll env vars = SortedMap.insertAll env vars := by
  induction vars generalizing env with
  | nil => rfl
  | cons v vars ih =>
      have hadd : env.add v.1 v.2 = env.insert v.1 v.2 := by
        rw [add, if_neg (h v List.mem_cons_self)]
      show addAll (env.add v.1 v.2) vars = _
      rw [hadd, ih fun w hw => h w (List.mem_cons_of_mem v hw)]
      rfl

end Environment

namespace Chroot

section Variables

/-- `get_path`. -/
def getPath (c : Chroot) : String :=
  let mountableLocation :=
    match c.mountable? with
    | some m => m.location
    | none => ""
  match c.kind with
  | .plain directory => directory
  | .directory _ => c.mountLocation
  | .custom _ => c.mountLocation
  | .file f => if f.location ≠ "" then c.mountLocation ++ f.location else c.mountLocation
  | .blockDevice _ => c.mountLocation ++ mountableLocation
  | .loopback _ => c.mountLocation ++ mountableLocation
  | .lvmSnapshot _ => c.mountLocation ++ mountableLocation
  | .zfsSnapshot _ => c.mountLocation ++ mountableLocation
  | .btrfsSnapshot _ => c.mountLocation

/-- `chroot::setup_env (chroot, env)`. -/
def baseVariables (cfg : SbuildConfig) (c : Chroot) : List (String × String) :=
  let flags := c.getSessionFlags
  [ ("CHROOT_TYPE", c.kind.typeName)
  , ("CHROOT_NAME", c.name)
  , ("SESSION_ID", c.name)
  , ("CHROOT_DESCRIPTION", c.description) ] ++
  (if c.mountLocation ≠ "" then [("CHROOT_MOUNT_LOCATION", c.mountLocation)] else []) ++
  [("CHROOT_PATH", c.getPath)] ++
  (if c.scriptConfig ≠ "" then
    [("CHROOT_SCRIPT_CONFIG", normalname (cfg.sysconfDir ++ "/" ++ c.scriptConfig))]
  else
    []) ++
  (if c.profile ≠ "" then
    [ ("CHROOT_PROFILE", c.profile)
    , ("CHROOT_PROFILE_DIR", normalname (cfg.sysconfDir ++ "/" ++ c.profile)) ]
  else
    []) ++
  [ ("CHROOT_SESSION_CREATE", printBool flags.create)
  , ("CHROOT_SESSION_CLONE", printBool flags.clone)
  , ("CHROOT_SESSION_PURGE", printBool flags.purge)
  , ("CHROOT_SESSION_SOURCE", printBool flags.source) ]

/-- What the type adds. -/
def typeVariables (cfg : SbuildConfig) (c : Chroot) : List (String × String) :=
  match c.kind with
  | .plain directory => [("CHROOT_DIRECTORY", directory)]
  | .directory directory => [("CHROOT_DIRECTORY", directory)]
  | .custom _ => []
  | .file f =>
      [ ("CHROOT_FILE", f.file)
      , ("CHROOT_LOCATION", f.location)
      , ("CHROOT_FILE_REPACK", printBool f.repack)
      , ("CHROOT_FILE_UNPACK_DIR", cfg.fileUnpackDir) ]
  | .blockDevice device => [("CHROOT_DEVICE", device)]
  | .loopback file => [("CHROOT_FILE", file)]
  | .lvmSnapshot s =>
      [ ("CHROOT_DEVICE", s.device)
      , ("CHROOT_LVM_SNAPSHOT_NAME", basename s.snapshotDevice)
      , ("CHROOT_LVM_SNAPSHOT_DEVICE", s.snapshotDevice)
      , ("CHROOT_LVM_SNAPSHOT_OPTIONS", s.snapshotOptions) ]
  | .zfsSnapshot s =>
      [("CHROOT_ZFS_DATASET", s.dataset)] ++
      (if c.hasFacet .source then
        []
      else
        [ ("CHROOT_ZFS_SNAPSHOT_NAME", s.snapshotName)
        , ("CHROOT_ZFS_CLONE_NAME", s.cloneName)
        , ("CHROOT_ZFS_SNAPSHOT_OPTIONS", s.snapshotOptions) ])
  | .btrfsSnapshot s =>
      [ ("CHROOT_BTRFS_SOURCE_SUBVOLUME", s.sourceSubvolume)
      , ("CHROOT_BTRFS_SNAPSHOT_DIRECTORY", s.snapshotDirectory)
      , ("CHROOT_BTRFS_SNAPSHOT_NAME", s.snapshotName) ]

/-- What a facet other than the user data adds. -/
def facetVariables : Facet → List (String × String)
  | .personality _ => []
  | .sessionClonable => []
  | .userdata _ => []
  | .session s =>
      (if s.originalName ≠ "" then [("CHROOT_NAME", s.originalName)] else []) ++
        (if s.selectedName ≠ "" then [("CHROOT_ALIAS", s.selectedName)] else [])
  | .sourceClonable _ => []
  | .source => []
  | .union u =>
      ("CHROOT_UNION_TYPE", u.unionType) ::
        (if u.configured then
          [ ("CHROOT_UNION_MOUNT_OPTIONS", u.mountOptions)
          , ("CHROOT_UNION_OVERLAY_DIRECTORY", u.overlayDirectory)
          , ("CHROOT_UNION_UNDERLAY_DIRECTORY", u.underlayDirectory) ]
        else
          [])
  | .mountable m =>
      (if m.mountDevice ≠ "" then [("CHROOT_MOUNT_DEVICE", m.mountDevice)] else []) ++
        [("CHROOT_MOUNT_OPTIONS", m.mountOptions), ("CHROOT_LOCATION", m.location)]

end Variables

section SetupEnvironment

/-- `chroot_facet_userdata::setup_env`. -/
def setUserVariables :
    List (String × String) → Environment → Except UserdataError Environment
  | [], env => .ok env
  | (key, value) :: rest, env =>
      if envname key ∈ env then
        .error
          { code := .envAmbiguous, context := envname key,
            reason := "Configuration keys additional to ‘" ++ key ++
              "’ would set this setup script environment variable" }
      else
        setUserVariables rest (env.add (envname key) value)

/-- The `setup_env` of a facet. -/
def setupFacetEnv (env : Environment) : Facet → Except UserdataError Environment
  | .userdata u => setUserVariables u.userdata.toList env
  | f => .ok (Environment.addAll env (facetVariables f))

/-- `chroot::setup_env (env)`. -/
def setupEnv (cfg : SbuildConfig) (c : Chroot) (env : Environment) :
    Except UserdataError Environment :=
  c.facets.foldlM setupFacetEnv
    (Environment.addAll env (c.baseVariables cfg ++ c.typeVariables cfg))

/-- A failure names the variable that two keys would set. -/
theorem setUserVariables_eq_error
    {entries : List (String × String)} {env : Environment} {e : UserdataError}
    (h : setUserVariables entries env = .error e) :
    e.code = .envAmbiguous ∧ ∃ entry ∈ entries, e.context = envname entry.1 := by
  induction entries generalizing env with
  | nil => cases h
  | cons entry rest ih =>
      obtain ⟨key, value⟩ := entry
      unfold setUserVariables at h
      split at h
      · cases h
        exact ⟨rfl, (key, value), by simp, rfl⟩
      · obtain ⟨hcode, entry, hentry, hcontext⟩ := ih h
        exact ⟨hcode, entry, List.mem_cons_of_mem _ hentry, hcontext⟩

end SetupEnvironment

end Chroot

end Schroot
