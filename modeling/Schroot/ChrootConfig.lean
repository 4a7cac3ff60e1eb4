import Schroot.KeyfileText
import Schroot.ChrootClone

/-!
# The chroot configuration

Chroots by namespace and name, and the aliases that lead to qualified names.
`loadKeyfile` turns every group of a keyfile into a chroot, and `parseData` does so
for a text.

The compatibility aliases and the warnings about aliases that are taken do not
change which chroots exist.
-/

namespace Schroot

/-- What loading a keyfile can throw. -/
inductive LoadError where
  | object (e : ObjectError)
  | keyfile (e : KeyfileError)
  | config (e : ConfigError)
deriving DecidableEq

/-- `chroot_config`. -/
structure ChrootConfig where
  namespaces : Std.ExtTreeMap String (Std.ExtTreeMap String Chroot)
  aliases : Std.ExtTreeMap String String

namespace ChrootConfig

/-- A configuration with the three namespaces and no chroots. -/
def empty : ChrootConfig where
  namespaces := (((∅ : Std.ExtTreeMap String (Std.ExtTreeMap String Chroot)).insert
    "chroot" ∅).insert "session" ∅).insert "source" ∅
  aliases := ∅

/-- `find_namespace`. -/
def findNamespace (conf : ChrootConfig) (ns : String) :
    Except ConfigError (Std.ExtTreeMap String Chroot) :=
  match conf.namespaces[ns]? with
  | some chroots => .ok chroots
  | none => .error { code := .namespaceNotfound, context := ns }

/-- A chroot by namespace and name. -/
def findChroot (conf : ChrootConfig) (ns name : String) : Option Chroot :=
  conf.namespaces[ns]?.bind (fun chroots => chroots[name]?)

/-- A name with its namespace. -/
def qualified (ns name : String) : String :=
  ns ++ ":" ++ name

/-- Insert an alias unless it is taken. -/
def addAlias (name target : String) (conf : ChrootConfig) : ChrootConfig :=
  { conf with aliases := conf.aliases.insertIfNew name target }

/-- The aliases of one name of a chroot; those that are taken are warned about. -/
def addChrootAlias (ns target : String) (conf : ChrootConfig) (name : String) :
    ChrootConfig :=
  let conf := conf.addAlias (qualified ns name) target
  if ns = "source" then
    conf.addAlias (qualified "chroot" (name ++ "-source")) target
  else
    conf

/-- `add`: a new chroot with its aliases; existing names are refused. -/
def add (ns : String) (c : Chroot) (kf : Keyfile) (conf : ChrootConfig) :
    Except LoadError ChrootConfig := do
  let fullname := qualified ns c.name
  let chroots ← (conf.findNamespace ns).mapError .config
  if chroots[c.name]?.isSome || conf.aliases[fullname]?.isSome then
    .error (.keyfile
      (.passthrough (kf.getGroupLine c.name) c.name ""
        (.config { code := .chrootExist, context := fullname })))
  else
    let conf : ChrootConfig :=
      { namespaces := conf.namespaces.insert ns (chroots.insert c.name c)
        aliases := conf.aliases.insert fullname fullname }
    let conf :=
      if ns = "chroot" ∧ c.kind.typeName = "plain" then
        conf.addAlias (qualified "session" c.name) fullname
      else
        conf
    pure (c.aliases.foldl (addChrootAlias ns fullname) conf)

/-- The template that a group is read into.  Sessions start from a session clone of
the new chroot, so that they have the facets of a session. -/
def createTemplate (cfg : SbuildConfig) (ns : String) (kf : Keyfile) (group : String) :
    Except ObjectError Chroot := do
  let c ← Chroot.create cfg ((kf.value? group "type").getD "plain")
  let c ← (c.setName group).mapError .chroot
  if ns = "session" ∧ c.hasFacet .sessionClonable then
    match ← c.cloneSession cfg "dummy-session-name" "dummy-session-name" "" false with
    | some session => (session.setName group).mapError .chroot
    | none => pure c
  else
    pure c

/-- The chroot of one group. -/
def loadChroot (cfg : SbuildConfig) (ns : String) (kf : Keyfile) (group : String) :
    Except LoadError Chroot := do
  let c ← (createTemplate cfg ns kf group).mapError .object
  (c.setKeyfile cfg kf).mapError .keyfile

/-- The source chroot that is added along with a chroot. -/
def loadSource (cfg : SbuildConfig) (c : Chroot) : Except LoadError (Option Chroot) :=
  match c.sourceClonable? with
  | some s =>
      if s.sourceClone && !c.isSession then
        (c.cloneSource cfg).mapError (fun e => .object (.chroot e))
      else
        .ok none
  | none => .ok none

/-- One turn of the loop of `load_keyfile`. -/
def loadGroup (cfg : SbuildConfig) (ns : String) (kf : Keyfile)
    (conf : ChrootConfig) (group : String) : Except LoadError ChrootConfig := do
  let c ← loadChroot cfg ns kf group
  let conf ← conf.add ns c kf
  match ← loadSource cfg c with
  | some source => conf.add "source" source kf
  | none => pure conf

/-- `load_keyfile`. -/
def loadKeyfile (cfg : SbuildConfig) (ns : String) (kf : Keyfile) (conf : ChrootConfig) :
    Except LoadError ChrootConfig :=
  kf.getGroups.foldlM (loadGroup cfg ns kf) conf

/-- `parse_data`: a text is parsed into a keyfile of its own and loaded. -/
def parseData (cfg : SbuildConfig) (ns : String) (text : String) (conf : ChrootConfig) :
    Except LoadError ChrootConfig := do
  let kf ← (Keyfile.empty.parse text).mapError (fun f => .keyfile (.fault f))
  loadKeyfile cfg ns kf conf

end ChrootConfig

end Schroot
