import Schroot.Environment
import Schroot.Auth

/-!
# The environment of a command

`session::run_child`: how the environment that a command gets is put together from that of the
user who runs the program, that of the authentication library, and what the session adds.

**Input.**  The environment of the user, as the strings of `environ`.

**Results.**
* `getElem?_completeEnvironment`: where a variable of a preserved environment comes from.
* `getElem?_runChild`: the variables that the session leaves as they are.
* `runChild_noninterference`: what the environment of the user cannot change.
-/

namespace Schroot

namespace Environment

section Model

/-- `environment::add` with a filter; a filtered variable is removed. -/
def addFiltered (filtered : String → Bool) (env : Environment) (name value : String) :
    Environment :=
  if name = "" then
    env
  else if filtered name then
    env.erase name
  else
    env.insert name value

def addAllFiltered (filtered : String → Bool) (env : Environment)
    (entries : List (String × String)) : Environment :=
  entries.foldl (fun env e => env.addFiltered filtered e.1 e.2) env

/-- `environment::add (environment)`. -/
def addEnvironment (filtered : String → Bool) (env other : Environment) : Environment :=
  env.addAllFiltered filtered other.toList

/-- There is no filter. -/
def unfiltered : String → Bool := fun _ => false

/-- The name and the value in a string of `environ`.  A string without a name, or without an
equals sign, is a name. -/
def splitEntry (entry : String) : String × String :=
  let name := entry.toList.takeWhile (· ≠ '=')
  if name = [] ∨ '=' ∉ entry.toList then
    (entry, "")
  else
    (String.ofList name, String.ofList (entry.toList.drop (name.length + 1)))

/-- `environment (environ)`. -/
def ofStrings (entries : List String) : Environment :=
  Environment.addAll ∅ (entries.map splitEntry)

/-- `getenv`: the first string that has the name. -/
def getenv (entries : List String) (name : String) : Option String :=
  (entries.find? fun entry => (name ++ "=").toList.isPrefixOf entry.toList).map fun entry =>
    String.ofList (entry.toList.drop (name.toList.length + 1))

end Model

section Lookups

variable {filtered : String → Bool} {env other : Environment} {name value key : String}

theorem getElem?_addFiltered (env : Environment) (name value key : String) :
    (env.addFiltered filtered name value)[key]? =
      if name ≠ "" ∧ key = name then (if filtered name then none else some value)
      else env[key]? := by
  unfold addFiltered
  by_cases hname : name = ""
  · simp [hname]
  · cases hfiltered : filtered name
    · simp [hname, SortedMap.getElem?_insert]
    · simp [hname, SortedMap.getElem?_erase]

theorem addAllFiltered_cons
    (env : Environment)
    (e : String × String)
    (entries : List (String × String)) :
    env.addAllFiltered filtered (e :: entries) =
      (env.addFiltered filtered e.1 e.2).addAllFiltered filtered entries :=
  rfl

theorem getElem?_addAllFiltered_of_notMem
    {entries : List (String × String)}
    (h : key ∉ entries.map Prod.fst)
    (env : Environment) :
    (env.addAllFiltered filtered entries)[key]? = env[key]? := by
  induction entries generalizing env with
  | nil => rfl
  | cons e entries ih =>
      rw [List.map_cons, List.mem_cons, not_or] at h
      rw [addAllFiltered_cons, ih h.2, getElem?_addFiltered, if_neg fun hkey => h.1 hkey.2]

/-- **A variable after adding entries with distinct names.** -/
theorem getElem?_addAllFiltered
    {entries : List (String × String)}
    (hkey : key ≠ "")
    (hdistinct : (entries.map Prod.fst).Nodup)
    (env : Environment) :
    (env.addAllFiltered filtered entries)[key]? =
      match SortedMap.lookup key entries with
      | none => env[key]?
      | some value => if filtered key then none else some value := by
  induction entries generalizing env with
  | nil => rfl
  | cons e entries ih =>
      rw [List.map_cons, List.nodup_cons] at hdistinct
      rw [addAllFiltered_cons, SortedMap.lookup_cons]
      by_cases he : e.1 = key
      · subst he
        rw [getElem?_addAllFiltered_of_notMem hdistinct.1, getElem?_addFiltered,
          if_pos ⟨hkey, rfl⟩, if_pos rfl]
      · rw [ih hdistinct.2, getElem?_addFiltered, if_neg fun h => he h.2.symm, if_neg he]

/-- **A variable after adding an environment.** -/
theorem getElem?_addEnvironment
    (hkey : key ≠ "")
    (env other : Environment) :
    (env.addEnvironment filtered other)[key]? =
      match other[key]? with
      | none => env[key]?
      | some value => if filtered key then none else some value := by
  rw [addEnvironment, getElem?_addAllFiltered hkey (SortedMap.nodup_keys_toList other),
    SortedMap.lookup_toList]

theorem getElem?_addEnvironment_unfiltered
    (hkey : key ≠ "")
    (env other : Environment) :
    (env.addEnvironment unfiltered other)[key]? = other[key]?.or env[key]? := by
  rw [getElem?_addEnvironment hkey]
  cases other[key]? <;> rfl

end Lookups

end Environment

open Environment

section Model

/-- Where the environment of the authentication library comes from: the strings of
`pam_getenvlist`, or the minimal environment without that library. -/
inductive AuthEnvironment where
  | pam (entries : List String)
  | null

/-- What `run_child` reads of the session. -/
structure CommandRequest where
  info : AuthInfo
  wd : String := ""
  command : List String := []
  shell : String := ""
  preserveEnvironment : Bool := false
  authEnvironment : AuthEnvironment

inductive ChildCode where
  | chdir
  | chroot
  | groupSet
  | groupSetSup
  | persona
  | rootDrop
  | userSet
deriving DecidableEq, Repr

abbrev ChildError := ErrorInfo ChildCode

/-- What the child finds: the current directory, what becomes of the groups, the chroot and
the user, and what it sees of the file system. -/
structure ChildWorld where
  regexSearch : String → String → Bool
  cwd : String
  entered : Except ChildError Unit
  chdirFails : String → Bool
  shellFails : String → Bool
  isExecutable : String → Bool

/-- What is passed to `exec`. -/
structure ExecCall where
  file : String
  command : List String
  env : Environment

/-- The filter of the environment; an empty one matches nothing. -/
def ChildWorld.filtered (w : ChildWorld) (c : Chroot) (name : String) : Bool :=
  c.environmentFilter ≠ "" && w.regexSearch name c.environmentFilter

/-- `get_minimal_environment`. -/
def minimalEnvironment (info : AuthInfo) (environ : List String) : Environment :=
  Environment.addAll ∅ <|
    [ ("PATH",
        if info.uid = 0 then
          "/usr/local/sbin:/usr/local/bin:/usr/sbin:/usr/bin:/sbin:/bin"
        else
          "/usr/local/bin:/usr/bin:/bin")
    , ("HOME", if info.home ≠ "" then info.home else "/") ] ++
    (if info.user ≠ "" then [("LOGNAME", info.user), ("USER", info.user)] else []) ++
    ((getenv environ "TERM").toList.map fun term => ("TERM", term)) ++
    (if info.shell ≠ "" then [("SHELL", info.shell)] else [])

namespace CommandRequest

/-- `get_auth_environment`. -/
def getAuthEnvironment (r : CommandRequest) (environ : List String) : Environment :=
  match r.authEnvironment with
  | .pam entries => ofStrings entries
  | .null => minimalEnvironment r.info environ

/-- `get_complete_environment`; the path of the user is not preserved for root. -/
def completeEnvironment (r : CommandRequest) (environ : List String) : Environment :=
  let complete := Environment.addEnvironment unfiltered ∅ (minimalEnvironment r.info environ)
  let complete := complete.addEnvironment unfiltered (r.getAuthEnvironment environ)
  let user := ofStrings environ
  let user := if r.info.uid = 0 then user.erase "PATH" else user
  complete.addEnvironment unfiltered user

/-- The session or the chroot preserves the environment. -/
def preserves (r : CommandRequest) (c : Chroot) : Bool :=
  r.preserveEnvironment || c.preserveEnvironment

/-- The environment that `run_child` starts with. -/
def startEnvironment (w : ChildWorld) (r : CommandRequest) (c : Chroot)
    (environ : List String) : Environment :=
  Environment.addEnvironment (w.filtered c) ∅ <|
    if r.preserves c then r.completeEnvironment environ else r.getAuthEnvironment environ

def hasNoCommand (r : CommandRequest) : Bool :=
  match r.command with
  | [] => true
  | file :: _ => file = ""

/-- Add a string unless it is there already. -/
def pushNew (list : List String) (s : String) : List String :=
  if s ∈ list then list else list ++ [s]

/-- `get_login_directories`. -/
def getLoginDirectories (w : ChildWorld) (r : CommandRequest) (env : Environment) :
    List String :=
  if r.wd ≠ "" then
    [r.wd]
  else
    let list :=
      match env["HOME"]? with
      | some home => pushNew [w.cwd] home
      | none => [w.cwd]
    pushNew (pushNew list r.info.home) "/"

/-- `get_command_directories`. -/
def getCommandDirectories (w : ChildWorld) (r : CommandRequest) : List String :=
  if r.wd ≠ "" then [r.wd] else [w.cwd]

/-- Change to the first directory that there is; it is an error if there is none. -/
def changeDirectory (w : ChildWorld) : List String → Except ChildError Unit
  | [] => .ok ()
  | directory :: rest =>
      if w.chdirFails directory then
        if rest = [] then
          .error
            { code := .chdir, context := directory,
              reason := "The directory does not exist inside the chroot.  " ++
                "Use the --directory option to run the command in a different directory." }
        else
          changeDirectory w rest
      else
        .ok ()

/-- `get_shells`.  Only a session that preserves the environment looks for a shell in it. -/
def getShells (r : CommandRequest) (c : Chroot) (environ : List String) : List String :=
  if r.shell ≠ "" then
    [r.shell]
  else if c.defaultShell ≠ "" then
    [c.defaultShell]
  else
    let list :=
      if r.preserveEnvironment then (r.completeEnvironment environ)["SHELL"]?.toList else []
    let list := if r.info.shell ≠ "" then list ++ [r.info.shell] else list
    pushNew (pushNew list "/bin/bash") "/bin/sh"

/-- The loop of `get_shell`: the first shell that there is, or the last one. -/
def firstShell (w : ChildWorld) : List String → String → String
  | [], shell => shell
  | shell :: rest, _ => if w.shellFails shell then firstShell w rest shell else shell

/-- `get_shell`. -/
def getShell (w : ChildWorld) (r : CommandRequest) (c : Chroot) (environ : List String) :
    String :=
  firstShell w (r.getShells c environ) ""

/-- `find_program_in_path`, without a prefix. -/
def findProgramInPath (w : ChildWorld) (program path : String) : String :=
  if '/' ∈ program.toList then
    program
  else
    (((splitString path ":").map fun dir => dir ++ "/" ++ program).find? w.isExecutable).getD ""

/-- The file of a program, or the program itself where it is not found. -/
def programFile (w : ChildWorld) (program : String) (env : Environment) : String :=
  let file := findProgramInPath w program (env["PATH"]?.getD "")
  if file = "" then program else file

/-- `get_login_command`.  It is a login shell unless the environment is preserved. -/
def getLoginCommand (w : ChildWorld) (r : CommandRequest) (c : Chroot) (environ : List String)
    (env : Environment) : ExecCall :=
  let shell := r.getShell w c environ
  { file := shell
    command :=
      if !r.preserves c && c.commandPrefix.isEmpty then ["-" ++ basename shell] else [shell]
    env := env.addFiltered (w.filtered c) "SHELL" shell }

/-- `get_user_command`. -/
def getUserCommand (w : ChildWorld) (r : CommandRequest) (env : Environment) : ExecCall where
  file := programFile w (r.command.headD "") env
  command := r.command
  env := env

/-- `get_command`. -/
def getCommand (w : ChildWorld) (r : CommandRequest) (c : Chroot) (environ : List String)
    (env : Environment) : ExecCall :=
  if r.hasNoCommand then r.getLoginCommand w c environ env else r.getUserCommand w env

/-- What the session adds, like `sudo` does. -/
def sessionVariables (r : CommandRequest) (c : Chroot) (command : List String) :
    List (String × String) :=
  let named (name : Option String) := if name.getD "" ≠ "" then name.getD "" else c.name
  [ ("SCHROOT_COMMAND", stringListToString command " ")
  , ("SCHROOT_USER", r.info.ruser)
  , ("SCHROOT_GROUP", r.info.rgroup)
  , ("SCHROOT_UID", toString r.info.ruid)
  , ("SCHROOT_GID", toString r.info.rgid)
  , ("SCHROOT_CHROOT_NAME", named (c.sessionFacet?.map SessionFacet.originalName))
  , ("SCHROOT_ALIAS_NAME", named (c.sessionFacet?.map SessionFacet.selectedName))
  , ("SCHROOT_SESSION_ID", c.name) ]

/-- The command prefix of the chroot, with the file that is executed then. -/
def withPrefix (w : ChildWorld) (c : Chroot) (x : ExecCall) : ExecCall :=
  match c.commandPrefix with
  | [] => x
  | program :: _ =>
      { x with file := programFile w program x.env, command := c.commandPrefix ++ x.command }

/-- `run_child`, up to `exec`. -/
def runChild (w : ChildWorld) (r : CommandRequest) (c : Chroot) (environ : List String) :
    Except ChildError ExecCall := do
  let env := r.startEnvironment w c environ
  w.entered
  changeDirectory w
    (if r.hasNoCommand then r.getLoginDirectories w env else r.getCommandDirectories w)
  let x := r.getCommand w c environ env
  pure (withPrefix w c
    { x with env := x.env.addAllFiltered (w.filtered c) (r.sessionVariables c x.command) })

end CommandRequest

end Model

namespace CommandRequest

section Variables

variable {w : ChildWorld} {r : CommandRequest} {c : Chroot} {environ : List String} {key : String}

/-- **Where a variable of the complete environment comes from**: from the user unless it is the
path of root, else from the authentication library, else from the minimal environment. -/
theorem getElem?_completeEnvironment
    (hkey : key ≠ "") :
    (r.completeEnvironment environ)[key]? =
      (if r.info.uid = 0 ∧ key = "PATH" then none else (ofStrings environ)[key]?).or
        ((r.getAuthEnvironment environ)[key]?.or (minimalEnvironment r.info environ)[key]?) := by
  have huser : (if r.info.uid = 0 then (ofStrings environ).erase "PATH"
      else ofStrings environ)[key]? =
      if r.info.uid = 0 ∧ key = "PATH" then none else (ofStrings environ)[key]? := by
    by_cases huid : r.info.uid = 0
    · simp [huid, SortedMap.getElem?_erase]
    · simp [huid]
  simp only [completeEnvironment]
  rw [getElem?_addEnvironment_unfiltered hkey, huser, getElem?_addEnvironment_unfiltered hkey,
    getElem?_addEnvironment_unfiltered hkey]
  simp

/-- The command does not change other variables than its shell. -/
theorem getElem?_getCommand
    (hkey : key ≠ "SHELL")
    (env : Environment) :
    (r.getCommand w c environ env).env[key]? = env[key]? := by
  unfold getCommand
  split
  · simp only [getLoginCommand]
    rw [getElem?_addFiltered, if_neg fun h => hkey h.2]
  · rfl

theorem env_withPrefix (x : ExecCall) : (withPrefix w c x).env = x.env := by
  unfold withPrefix
  split <;> rfl

/-- The variables that the session adds. -/
def sessionNames : List String :=
  [ "SCHROOT_COMMAND", "SCHROOT_USER", "SCHROOT_GROUP", "SCHROOT_UID", "SCHROOT_GID",
    "SCHROOT_CHROOT_NAME", "SCHROOT_ALIAS_NAME", "SCHROOT_SESSION_ID" ]

theorem names_sessionVariables (r : CommandRequest) (c : Chroot) (command : List String) :
    (r.sessionVariables c command).map Prod.fst = sessionNames :=
  rfl

/-- **The variables that the session leaves as they are.** -/
theorem getElem?_runChild
    {x : ExecCall}
    (h : r.runChild w c environ = .ok x)
    (hshell : key ≠ "SHELL")
    (hkey : key ∉ sessionNames) :
    x.env[key]? = (r.startEnvironment w c environ)[key]? := by
  simp only [runChild, bind, Except.bind, pure, Except.pure] at h
  cases hentered : w.entered with
  | error e => simp [hentered] at h
  | ok =>
      simp only [hentered] at h
      split at h
      · cases h
      · cases h
        rw [env_withPrefix, getElem?_addAllFiltered_of_notMem, getElem?_getCommand hshell]
        rwa [names_sessionVariables]

end Variables

section Noninterference

variable {w : ChildWorld} {r : CommandRequest} {c : Chroot} {environ environ' : List String}

theorem minimalEnvironment_congr
    (info : AuthInfo)
    (h : getenv environ "TERM" = getenv environ' "TERM") :
    minimalEnvironment info environ = minimalEnvironment info environ' := by
  unfold minimalEnvironment
  rw [h]

theorem getAuthEnvironment_congr
    (r : CommandRequest)
    (h : getenv environ "TERM" = getenv environ' "TERM") :
    r.getAuthEnvironment environ = r.getAuthEnvironment environ' := by
  unfold getAuthEnvironment
  cases r.authEnvironment with
  | pam entries => rfl
  | null => exact minimalEnvironment_congr r.info h

/-- **The path of root** does not come from the environment of the user. -/
theorem path_startEnvironment_congr
    (h : getenv environ "TERM" = getenv environ' "TERM")
    (huid : r.info.uid = 0) :
    (r.startEnvironment w c environ)["PATH"]? = (r.startEnvironment w c environ')["PATH"]? := by
  have hkey : "PATH" ≠ "" := by decide
  have hauth := getAuthEnvironment_congr r h
  unfold startEnvironment
  rw [getElem?_addEnvironment hkey, getElem?_addEnvironment hkey]
  cases r.preserves c with
  | false => simp only [Bool.false_eq_true, if_false, hauth]
  | true =>
      simp only [if_true]
      rw [getElem?_completeEnvironment hkey, getElem?_completeEnvironment hkey, hauth,
        minimalEnvironment_congr r.info h, if_pos ⟨huid, rfl⟩, if_pos ⟨huid, rfl⟩]

/-- Without preserving it the environment of the user is not looked at, except for the
terminal. -/
theorem runChild_congr
    (h : getenv environ "TERM" = getenv environ' "TERM")
    (hpreserves : r.preserves c = false) :
    r.runChild w c environ = r.runChild w c environ' := by
  have hsession : r.preserveEnvironment = false := by
    simp only [preserves, Bool.or_eq_false_iff] at hpreserves
    exact hpreserves.1
  have hstart : r.startEnvironment w c environ = r.startEnvironment w c environ' := by
    simp only [startEnvironment, hpreserves, Bool.false_eq_true, if_false,
      getAuthEnvironment_congr r h]
  have hshells : r.getShells c environ = r.getShells c environ' := by
    simp only [getShells, hsession, Bool.false_eq_true, if_false]
  have hcommand : ∀ env, r.getCommand w c environ env = r.getCommand w c environ' env := by
    intro env
    simp only [getCommand, getLoginCommand, getShell, hshells]
  simp only [runChild, hstart, hcommand]

/-- **What the environment of the user cannot change**, apart from the terminal: the command
and its environment if neither the session nor the chroot preserves it, and the path of root
if it is preserved. -/
theorem runChild_noninterference
    (w : ChildWorld) (r : CommandRequest) (c : Chroot)
    (environ environ' : List String)
    (h : getenv environ "TERM" = getenv environ' "TERM") :
    (r.preserves c = false → r.runChild w c environ = r.runChild w c environ') ∧
      (r.preserves c = true → r.info.uid = 0 → ∀ x x', r.runChild w c environ = .ok x →
        r.runChild w c environ' = .ok x' → x.env["PATH"]? = x'.env["PATH"]?) := by
  refine ⟨runChild_congr h, fun _ huid x x' hx hx' => ?_⟩
  have hshell : "PATH" ≠ "SHELL" := by decide
  have hkey : "PATH" ∉ sessionNames := by decide
  rw [getElem?_runChild hx hshell hkey, getElem?_runChild hx' hshell hkey,
    path_startEnvironment_congr h huid]

/-- A user who becomes root. -/
def sampleRequest (preserve : Bool) : CommandRequest where
  info :=
    { user := "root", uid := 0, gid := 0, home := "/root", shell := "/bin/sh", ruser := "joe",
      ruid := 1000, rgid := 1000, rgroup := "joe" }
  preserveEnvironment := preserve
  authEnvironment := .null

def sampleWorld : ChildWorld where
  regexSearch := fun name pattern => name = pattern
  cwd := "/"
  entered := .ok ()
  chdirFails := fun _ => false
  shellFails := fun _ => false
  isExecutable := fun _ => false

def sampleChroot : Chroot where
  name := "sid"
  environmentFilter := "IFS"
  kind := .plain "/srv/sid"

/-- The user has a path in one environment, and not in the other one. -/
theorem runChild_noninterference_root :
    (sampleRequest false).runChild sampleWorld sampleChroot
        ["TERM=xterm", "PATH=/tmp", "EDITOR=vi"] =
      (sampleRequest false).runChild sampleWorld sampleChroot ["IFS=/", "TERM=xterm"] ∧
      ∃ x x', (sampleRequest true).runChild sampleWorld sampleChroot
          ["TERM=xterm", "PATH=/tmp", "EDITOR=vi"] = .ok x ∧
        (sampleRequest true).runChild sampleWorld sampleChroot ["IFS=/", "TERM=xterm"] = .ok x' ∧
        x.env["PATH"]? = x'.env["PATH"]? := by
  have hterm : getenv ["TERM=xterm", "PATH=/tmp", "EDITOR=vi"] "TERM" =
      getenv ["IFS=/", "TERM=xterm"] "TERM" := by decide +kernel
  have hrun : ∃ x, (sampleRequest true).runChild sampleWorld sampleChroot
      ["TERM=xterm", "PATH=/tmp", "EDITOR=vi"] = .ok x := ⟨_, rfl⟩
  have hrun' : ∃ x, (sampleRequest true).runChild sampleWorld sampleChroot
      ["IFS=/", "TERM=xterm"] = .ok x := ⟨_, rfl⟩
  obtain ⟨x, hx⟩ := hrun
  obtain ⟨x', hx'⟩ := hrun'
  have hpreserves := (runChild_noninterference sampleWorld (sampleRequest true) sampleChroot _ _
    hterm).2 rfl rfl x x' hx hx'
  exact ⟨(runChild_noninterference sampleWorld (sampleRequest false) sampleChroot _ _ hterm).1 rfl,
    x, x', hx, hx', hpreserves⟩

end Noninterference

end CommandRequest

end Schroot
