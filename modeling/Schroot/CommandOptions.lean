import Schroot.Library.SortedMap
import Schroot.Errors

/-!
# Options of the programs

The options that `schroot`, `dchroot` and `dchroot-dsa` are started with, after the command line
has been taken apart: `check_options` of each program, and `check_actions`, which they share.

**Input.**  The names of the options that are given, and the values that are stored for those
that have one.  The constructor leaves `load_chroots` and `load_sessions` as they are, so a start
value is given for them, too.

**Results.**
* `Answered.requestActions_eq_ok`: an option that asks for an action is accepted only once.
* `checkOptions_program_eq_ok`: what the options of a program come to.
-/

namespace Schroot

section Actions

/-- What checking the options can throw. -/
inductive OptionsError where
  | actionInvalid (action : String)
  | actionAgain
  | debugLevel
  | chrootCount
  | sessionNameSession
  | sessionNameAction
  | sessionNameInvalid
  | actionUnknown
  | commandCount
  | commandRelative
  | chrootMissing
deriving DecidableEq, Repr

/-- The text that is shown. -/
def OptionsError.message : OptionsError → String
  | .actionInvalid action => action ++ ": invalid action"
  | .actionAgain => "Only one action may be specified"
  | .debugLevel => "Invalid debug level"
  | .chrootCount => "Exactly one chroot must be specified when beginning a session"
  | .sessionNameSession =>
      "--session-name is not permitted for the specified action; " ++
        "did you mean to use --chroot?"
  | .sessionNameAction => "--session-name is not permitted for the specified action"
  | .sessionNameInvalid => "Invalid session name"
  | .actionUnknown => "Unknown action specified"
  | .commandCount => "Only one command may be specified"
  | .commandRelative => "Command must have an absolute path"
  | .chrootMissing => "No chroot specified"

/-- `option_action`: the action that is asked for; an empty text stands for none. -/
structure OptionAction where
  defaultAction : String := ""
  currentAction : String := ""
  actions : List String := []
deriving DecidableEq, Repr

namespace OptionAction

def add (action : String) (o : OptionAction) : OptionAction :=
  { o with actions := o.actions.insert action }

def valid (o : OptionAction) (action : String) : Bool :=
  action ∈ o.actions

def setDefault (action : String) (o : OptionAction) : Except OptionsError OptionAction :=
  if o.valid action then .ok { o with defaultAction := action }
  else .error (.actionInvalid action)

def get (o : OptionAction) : String :=
  if o.currentAction ≠ "" then o.currentAction else o.defaultAction

def set (action : String) (o : OptionAction) : Except OptionsError OptionAction :=
  if o.valid action then
    if o.currentAction = "" then .ok { o with currentAction := action }
    else .error .actionAgain
  else
    .error (.actionInvalid action)

end OptionAction

def actionHelp : String := "help"
def actionVersion : String := "version"
def actionSessionAuto : String := "session_auto"
def actionSessionBegin : String := "session_begin"
def actionSessionRecover : String := "session_recover"
def actionSessionRun : String := "session_run"
def actionSessionEnd : String := "session_end"
def actionList : String := "list"
def actionInfo : String := "info"
def actionLocation : String := "location"
def actionConfig : String := "config"

end Actions

section Model

/-- The debug levels. -/
inductive DebugLevel where
  | none
  | notice
  | info
  | warning
  | critical
deriving DecidableEq, Repr

/-- `options` with `options_base`: what is stored for the options, and `vm` by the names of those
that are given. -/
structure OptionsBase where
  given : List String := []
  action : OptionAction := {}
  quiet : Bool := false
  verbose : Bool := false
  debugLevel : String := ""
  debugLogLevel : DebugLevel := .none
  chroots : List String := []
  chrootPath : String := ""
  command : List String := []
  directory : String := ""
  shell : String := ""
  user : String := ""
  preserve : Bool := false
  all : Bool := false
  allChroots : Bool := false
  allSessions : Bool := false
  allSourceChroots : Bool := false
  excludeAliases : Bool := false
  loadChroots : Bool
  loadSessions : Bool
  sessionName : String := ""
  sessionForce : Bool := false
  useroptions : List String := []
  useroptionsMap : Std.ExtTreeMap String String := ∅
  log : List String := []

namespace OptionsBase

/-- `vm.count`. -/
def count (o : OptionsBase) (name : String) : Bool :=
  name ∈ o.given

def allUsed (o : OptionsBase) : Bool :=
  o.all || o.allChroots || o.allSourceChroots || o.allSessions

/-- None of the namespaces is used as a whole. -/
def clearAll (o : OptionsBase) : OptionsBase :=
  { o with all := false, allChroots := false, allSourceChroots := false, allSessions := false }

/-- The actions that `add_options` adds, and the default. -/
def addActions (action : OptionAction) : Except OptionsError OptionAction := do
  let action := (action.add actionHelp).add actionVersion
  let action ← (action.add actionSessionAuto).setDefault actionSessionAuto
  pure ([actionSessionBegin, actionSessionRecover, actionSessionRun, actionSessionEnd,
    actionList, actionInfo, actionLocation, actionConfig].foldl (fun a name => a.add name) action)

/-- `add_options`. -/
def addOptions (o : OptionsBase) : Except OptionsError OptionsBase :=
  (addActions o.action).map fun action => { o with action := action }

/-- An option that asks for an action. -/
def requestAction (name action : String) (o : OptionsBase) : Except OptionsError OptionsBase :=
  if o.count name then
    (o.action.set action).map fun a => { o with action := a }
  else
    .ok o

/-- Options that ask for actions, one after the other. -/
def requestActions (requests : List (String × String)) (o : OptionsBase) :
    Except OptionsError OptionsBase :=
  requests.foldlM (fun o request => o.requestAction request.1 request.2) o

/-- The debug level of a name. -/
def debugLevelOf (name : String) : Option DebugLevel :=
  if name = "none" then some .none
  else if name = "notice" then some .notice
  else if name = "info" then some .info
  else if name = "warning" then some .warning
  else if name = "critical" then some .critical
  else none

/-- The level that messages for debugging are shown from. -/
def checkDebug (o : OptionsBase) : Except OptionsError OptionsBase :=
  if o.count "debug" then
    match debugLevelOf o.debugLevel with
    | some level => .ok { o with debugLogLevel := level }
    | none => .error .debugLevel
  else
    .ok { o with debugLogLevel := .none }

/-- The options of all programs that ask for an action. -/
def basicRequests : List (String × String) :=
  [("help", actionHelp), ("version", actionVersion)]

def printRequests : List (String × String) :=
  [("list", actionList), ("info", actionInfo), ("config", actionConfig)]

/-- The options of `schroot` that ask for a session. -/
def sessionRequests : List (String × String) :=
  [ ("automatic-session", actionSessionAuto), ("begin-session", actionSessionBegin)
  , ("recover-session", actionSessionRecover), ("run-session", actionSessionRun)
  , ("end-session", actionSessionEnd) ]

/-- `check_options` of all programs: the basic options, and then those that print. -/
def checkOptions (o : OptionsBase) : Except OptionsError OptionsBase := do
  let o ← o.requestActions basicRequests
  let o := { o with quiet := o.quiet || o.count "quiet", verbose := o.verbose || o.count "verbose" }
  let o ← o.checkDebug
  o.requestActions printRequests

/-- The warning about options that contradict each other. -/
def warnVerbosity (o : OptionsBase) : OptionsBase :=
  if o.quiet && o.verbose then
    { o with log := o.log ++
        [ "--quiet and --verbose may not be used at the same time", "Using verbose output" ] }
  else
    o

/-- Chroots that are named are preferred to all of them. -/
def preferChroots (o : OptionsBase) : OptionsBase :=
  if !o.chroots.isEmpty && o.allUsed then
    { o.clearAll with log := o.log ++
        [ "--chroot and --all may not be used at the same time", "Using --chroots only" ] }
  else
    o

/-- Only normal chroots are used, and `default` if none is named. -/
def selectAutomatic (o : OptionsBase) : OptionsBase :=
  let o := { o with loadChroots := true, loadSessions := false, all := false,
                    allSessions := false }
  if o.chroots.isEmpty && !o.allUsed then { o with chroots := ["default"] } else o

/-- One chroot is used. -/
def selectBegin (o : OptionsBase) : Except OptionsError OptionsBase :=
  let o := { o with loadChroots := true, loadSessions := false }
  if o.chroots.length ≠ 1 || o.allUsed then .error .chrootCount else .ok o.clearAll

/-- Session operations work on all chroots. -/
def selectSession (o : OptionsBase) : Except OptionsError OptionsBase :=
  let o := { o with loadChroots := true, loadSessions := true }
  if o.sessionName ≠ "" then .error .sessionNameSession else .ok o

/-- What is used as a whole is loaded. -/
def loadUsed (o : OptionsBase) : OptionsBase :=
  let o := if o.allChroots || o.allSourceChroots then { o with loadChroots := true } else o
  if o.allSessions then { o with loadChroots := true, loadSessions := true } else o

/-- Normal chroots are loaded if nothing else is said. -/
def selectPrint (o : OptionsBase) : OptionsBase :=
  if !o.chroots.isEmpty then
    { o with loadChroots := true, loadSessions := true }.loadUsed
  else if !o.allUsed then
    { o with
      allChroots := true
      allSourceChroots := o.allSourceChroots ||
        decide (o.action.get = actionList ∨ o.action.get = actionInfo)
      loadChroots := true }.loadUsed
  else
    o.loadUsed

/-- Which chroots are loaded and used for the action. -/
def checkSelection (o : OptionsBase) : Except OptionsError OptionsBase :=
  if o.action.get = actionSessionAuto then .ok o.selectAutomatic
  else if o.action.get = actionSessionBegin then o.selectBegin
  else if o.action.get = actionSessionRecover ∨ o.action.get = actionSessionRun ∨
      o.action.get = actionSessionEnd then o.selectSession
  else if o.action.get = actionHelp ∨ o.action.get = actionVersion then
    .ok { o.clearAll with loadChroots := false, loadSessions := false }
  else if o.action.get = actionList ∨ o.action.get = actionInfo ∨
      o.action.get = actionLocation ∨ o.action.get = actionConfig then .ok o.selectPrint
  else .error .actionUnknown

/-- `check_actions`. -/
def checkActions (o : OptionsBase) : Except OptionsError OptionsBase := do
  let o ← o.warnVerbosity.preferChroots.checkSelection
  if o.sessionName ≠ "" ∧ o.action.get ≠ actionSessionBegin then .error .sessionNameAction
  else if o.sessionName ≠ "" ∧ !isValidSessionname o.sessionName then .error .sessionNameInvalid
  else pure o

/-- An option of the user; without an equals sign it is its own value. -/
def splitUserOption (option : String) : String × String :=
  if '=' ∈ option.toList then
    (String.ofList (option.toList.takeWhile (· ≠ '=')),
      String.ofList (option.toList.dropWhile (· ≠ '=')).tail)
  else
    (option, option)

/-- The options of `schroot` that select chroots. -/
def readSelection (o : OptionsBase) : OptionsBase :=
  { o with
    all := o.all || o.count "all"
    allChroots := o.allChroots || o.count "all-chroots"
    allSessions := o.allSessions || o.count "all-sessions"
    allSourceChroots := o.allSourceChroots || o.count "all-source-chroots"
    excludeAliases := o.excludeAliases || o.count "exclude-aliases"
    preserve := o.preserve || o.count "preserve-environment" }

/-- `--all` stands for all three of the others. -/
def expandAll (o : OptionsBase) : OptionsBase :=
  if o.all then { o with allChroots := true, allSessions := true, allSourceChroots := true } else o

/-- The options of the user; the first one of a name counts. -/
def readUserOptions (o : OptionsBase) : OptionsBase :=
  { o with
    useroptionsMap :=
      SortedMap.insertAllNew o.useroptionsMap (o.useroptions.map splitUserOption) }

/-- `check_options` of `schroot`. -/
def checkSchroot (o : OptionsBase) : Except OptionsError OptionsBase := do
  let o ← o.checkOptions
  let o ← o.requestActions [("location", actionLocation)]
  let o ← o.readSelection.requestActions sessionRequests
  let o := { o with sessionForce := o.sessionForce || o.count "force" }
  pure o.expandAll.readUserOptions

/-- The options of `dchroot` that select chroots. -/
def readPath (o : OptionsBase) : OptionsBase :=
  let o := if o.count "path" then { o with chroots := [o.chrootPath] } else o
  if o.count "all" then { o with all := false, allChroots := true, allSessions := false } else o

/-- Chroots that are named are preferred, but source chroots are forgotten about. -/
def preferNamed (o : OptionsBase) : OptionsBase :=
  if !o.chroots.isEmpty && o.allUsed then
    { o with
      all := false
      allChroots := false
      allSessions := false
      log := o.log ++
        [ "--chroot and --all may not be used at the same time", "Using --chroots only" ] }
  else
    o

/-- The options of `dchroot` that do not ask for an action. -/
def readDchroot (o : OptionsBase) : OptionsBase :=
  let o := o.readPath
  let o := { o with preserve := o.preserve || o.count "preserve-environment" }
  let o := o.warnVerbosity.preferNamed
  if o.all then { o with allChroots := true, allSessions := true } else o

/-- `check_options` of `dchroot`. -/
def checkDchroot (o : OptionsBase) : Except OptionsError OptionsBase := do
  let o ← o.checkOptions
  let o ← o.requestActions [("path", actionLocation)]
  pure o.readDchroot

/-- The first command names the chroot if nothing else does. -/
def takeChroot (o : OptionsBase) : OptionsBase :=
  match o.chroots, o.command with
  | [], name :: command => { o with chroots := [name], command := command }
  | _, _ => o

/-- The actions that `dchroot-dsa` needs no chroot for. -/
def needsNoChroot (action : String) : Bool :=
  action ∈ [actionConfig, actionInfo, actionList, actionLocation, actionHelp, actionVersion]

/-- The options of `dchroot-dsa` that do not ask for an action. -/
def readDchrootDsa (o : OptionsBase) : OptionsBase :=
  let o :=
    if o.count "all" then { o with all := false, allChroots := true, allSessions := false } else o
  { o with preserve := true }.takeChroot

/-- The command of `dchroot-dsa`. -/
def checkCommand (o : OptionsBase) : Except OptionsError OptionsBase :=
  if o.command.length > 1 then .error .commandCount
  else if o.command.head?.any (fun command => !isAbsname command) then .error .commandRelative
  else if o.chroots.isEmpty && !o.allUsed && !needsNoChroot o.action.get then
    .error .chrootMissing
  else .ok o

/-- `check_options` of `dchroot-dsa`. -/
def checkDchrootDsa (o : OptionsBase) : Except OptionsError OptionsBase := do
  let o ← o.checkOptions
  let o ← o.requestActions [("listpaths", actionLocation)]
  o.readDchrootDsa.checkCommand

end OptionsBase

/-- What stands on the command line. -/
structure CommandLine where
  given : List String := []
  debugLevel : String := ""
  chroots : List String := []
  chrootPath : String := ""
  command : List String := []
  directory : String := ""
  shell : String := ""
  user : String := ""
  sessionName : String := ""
  useroptions : List String := []
deriving DecidableEq, Repr

/-- The programs. -/
inductive Program where
  | schroot
  | dchroot
  | dchrootDsa
deriving DecidableEq, Repr

/-- The options before they are checked; what the two flags are before is not known. -/
def CommandLine.store (line : CommandLine) (loadChroots loadSessions : Bool) : OptionsBase where
  given := line.given
  debugLevel := line.debugLevel
  chroots := line.chroots
  chrootPath := line.chrootPath
  command := line.command
  directory := line.directory
  shell := line.shell
  user := line.user
  loadChroots := loadChroots
  loadSessions := loadSessions
  sessionName := line.sessionName
  useroptions := line.useroptions

/-- The options of a program that ask for an action. -/
def Program.requests : Program → List (String × String)
  | .schroot => OptionsBase.basicRequests ++ OptionsBase.printRequests ++
      [("location", actionLocation)] ++ OptionsBase.sessionRequests
  | .dchroot => OptionsBase.basicRequests ++ OptionsBase.printRequests ++
      [("path", actionLocation)]
  | .dchrootDsa => OptionsBase.basicRequests ++ OptionsBase.printRequests ++
      [("listpaths", actionLocation)]

def Program.checkOptions : Program → OptionsBase → Except OptionsError OptionsBase
  | .schroot => OptionsBase.checkSchroot
  | .dchroot => OptionsBase.checkDchroot
  | .dchrootDsa => OptionsBase.checkDchrootDsa

/-- `parse`, after the command line has been taken apart. -/
def Program.parse (p : Program) (line : CommandLine) (loadChroots loadSessions : Bool) :
    Except OptionsError OptionsBase := do
  let o ← (line.store loadChroots loadSessions).addOptions
  let o ← p.checkOptions o
  o.checkActions

end Model

namespace OptionsBase

section Requests

variable {o o' : OptionsBase}

/-- The actions that the given options ask for, in order. -/
def asked (requests : List (String × String)) (given : List String) : List String :=
  (requests.filter fun request => request.1 ∈ given).map Prod.snd

/-- The same options with another action. -/
def withAction (action : String) (o : OptionsBase) : OptionsBase :=
  { o with action := { o.action with currentAction := action } }

/-- The actions that there are, before one is asked for. -/
def startAction : OptionAction where
  defaultAction := actionSessionAuto
  actions := [actionConfig, actionLocation, actionInfo, actionList, actionSessionEnd,
    actionSessionRun, actionSessionRecover, actionSessionBegin, actionSessionAuto, actionVersion,
    actionHelp]

/-- Of the actions that are asked for there is at most one, and it is the current one. -/
structure Answered (requests : List (String × String)) (o : OptionsBase) : Prop where
  action : o.action =
    { startAction with currentAction := (asked requests o.given).headD "" }
  one : (asked requests o.given).length ≤ 1

/-- The requests are for actions that there are. -/
def Requestable (requests : List (String × String)) : Prop :=
  ∀ request ∈ requests, request.2 ∈ startAction.actions ∧ request.2 ≠ ""

instance : DecidablePred Requestable :=
  fun requests => inferInstanceAs (Decidable (∀ request ∈ requests, _))

theorem requestAction_of_given
    {name action : String}
    (hvalid : action ∈ o.action.actions)
    (h : name ∈ o.given) :
    o.requestAction name action =
      if o.action.currentAction = "" then .ok (o.withAction action) else .error .actionAgain := by
  simp only [requestAction, count, h, decide_true, if_true, OptionAction.set, OptionAction.valid,
    hvalid]
  split <;> rfl

theorem requestAction_of_not_given
    {name action : String}
    (h : name ∉ o.given) :
    o.requestAction name action = .ok o := by
  simp [requestAction, count, h]

/-- **Only one action is accepted** of those that are asked for, and none if there is one
already. -/
theorem requestActions_eq
    {requests : List (String × String)}
    (hactions : o.action.actions = startAction.actions)
    (h : Requestable requests) :
    o.requestActions requests =
      match asked requests o.given with
      | [] => .ok o
      | action :: more =>
          if o.action.currentAction = "" ∧ more = [] then .ok (o.withAction action)
          else .error .actionAgain := by
  induction requests generalizing o with
  | nil => rfl
  | cons request requests ih =>
      obtain ⟨⟨hvalid, hne⟩, hrest⟩ := List.forall_mem_cons.mp h
      rw [← hactions] at hvalid
      have hfold : o.requestActions (request :: requests) =
          (o.requestAction request.1 request.2).bind (requestActions requests) := rfl
      rw [hfold]
      by_cases hgiven : request.1 ∈ o.given
      · have hasked : asked (request :: requests) o.given =
            request.2 :: asked requests o.given := by
          simp [asked, hgiven]
        rw [requestAction_of_given hvalid hgiven, hasked]
        by_cases hcurrent : o.action.currentAction = ""
        · have hstep : (o.withAction request.2).requestActions requests = _ :=
            ih (o := o.withAction request.2) hactions hrest
          simp only [hcurrent, if_true, Except.bind, true_and]
          rw [hstep, show (o.withAction request.2).given = o.given from rfl]
          cases asked requests o.given with
          | nil => simp
          | cons action more => simp [withAction, hne]
        · simp [hcurrent, Except.bind]
      · have hasked : asked (request :: requests) o.given = asked requests o.given := by
          simp [asked, hgiven]
        rw [requestAction_of_not_given hgiven, hasked]
        exact ih hactions hrest

theorem asked_append (before requests : List (String × String)) (given : List String) :
    asked (before ++ requests) given = asked before given ++ asked requests given := by
  simp [asked]

theorem asked_ne
    {requests : List (String × String)}
    (h : Requestable requests)
    (given : List String) :
    ∀ action ∈ asked requests given, action ≠ "" := by
  intro action hmem
  obtain ⟨request, hrequest, rfl⟩ := List.mem_map.mp hmem
  exact (h request (List.mem_filter.mp hrequest).1).2

/-- **The requests so far and further ones** have to be for one action together. -/
theorem Answered.requestActions_eq_ok
    {before requests : List (String × String)}
    (ho : Answered before o)
    (hbefore : Requestable before)
    (h : Requestable requests) :
    o.requestActions requests = .ok o' ↔
      (asked (before ++ requests) o.given).length ≤ 1 ∧
        o' = o.withAction ((asked (before ++ requests) o.given).headD "") := by
  have hsame : o.withAction o.action.currentAction = o := rfl
  have hcurrent : o.action.currentAction = (asked before o.given).headD "" := by rw [ho.action]
  have hactions : o.action.actions = startAction.actions := by rw [ho.action]
  have hne := asked_ne hbefore o.given
  rw [requestActions_eq hactions h, asked_append]
  cases hasked : asked before o.given with
  | nil =>
      rw [hasked, List.headD_nil] at hcurrent
      cases asked requests o.given with
      | nil =>
          simp only [List.append_nil, List.length_nil, Nat.zero_le, true_and, List.headD_nil]
          rw [← hcurrent, hsame, Except.ok.injEq]
          exact eq_comm
      | cons action more =>
          cases more with
          | nil => simp [hcurrent, eq_comm]
          | cons other more => simp
  | cons first others =>
      have hfirst : first ≠ "" := hne first (by simp [hasked])
      rw [hasked, List.headD_cons] at hcurrent
      have hothers : others = [] := by
        have hone := ho.one
        rw [hasked, List.length_cons] at hone
        exact List.eq_nil_of_length_eq_zero (by omega)
      subst hothers
      cases asked requests o.given with
      | nil =>
          simp only [List.append_nil, List.length_singleton, Nat.le_refl, true_and,
            List.headD_cons]
          rw [← hcurrent, hsame, Except.ok.injEq]
          exact eq_comm
      | cons action more => simp [hcurrent, hfirst]

theorem answered_withAction
    {requests : List (String × String)}
    (hactions : o.action = { startAction with currentAction := o.action.currentAction })
    (hone : (asked requests o.given).length ≤ 1) :
    Answered requests (o.withAction ((asked requests o.given).headD "")) := by
  constructor
  · rw [withAction, hactions]
  · exact hone

/-- The level that is asked for; there is none of an unknown name. -/
def shownLevel (o : OptionsBase) : Option DebugLevel :=
  if o.count "debug" then debugLevelOf o.debugLevel else some .none

theorem checkDebug_eq_ok :
    o.checkDebug = .ok o' ↔ ∃ level, o.shownLevel = some level ∧
      o' = { o with debugLogLevel := level } := by
  unfold checkDebug shownLevel
  cases o.count "debug" with
  | false => simp [eq_comm]
  | true =>
      simp only [if_true]
      cases debugLevelOf o.debugLevel <;> simp [eq_comm]

/-- What the basic options do. -/
def readBasic (level : DebugLevel) (o : OptionsBase) : OptionsBase :=
  { o with
    quiet := o.quiet || o.count "quiet"
    verbose := o.verbose || o.count "verbose"
    debugLogLevel := level }

/-- The action that is asked for by the given options becomes the current one. -/
def answer (requests : List (String × String)) (o : OptionsBase) : OptionsBase :=
  o.withAction ((asked requests o.given).headD "")

theorem Answered.answer
    {before requests : List (String × String)}
    (ho : Answered before o)
    (hone : (asked requests o.given).length ≤ 1) :
    Answered requests (o.answer requests) := by
  refine answered_withAction ?_ hone
  rw [ho.action]

/-- The start of all programs. -/
theorem checkOptions_eq_ok
    (ho : o.action = startAction) :
    o.checkOptions = .ok o' ↔
      (asked (basicRequests ++ printRequests) o.given).length ≤ 1 ∧
        ∃ level, o.shownLevel = some level ∧
          o' = (o.readBasic level).answer (basicRequests ++ printRequests) := by
  have hstart : Answered [] o := ⟨ho, Nat.zero_le 1⟩
  have hnext : ∀ level, (asked basicRequests o.given).length ≤ 1 →
      Answered basicRequests ((o.answer basicRequests).readBasic level) := by
    intro level hone
    have hanswer := hstart.answer hone
    exact ⟨hanswer.action, hanswer.one⟩
  have hfirst : (asked (basicRequests ++ printRequests) o.given).length ≤ 1 →
      (asked basicRequests o.given).length ≤ 1 := by
    rw [asked_append, List.length_append]
    omega
  simp only [checkOptions, bind_eq_ok_iff]
  constructor
  · rintro ⟨o₁, h₁, o₂, h₂, h₃⟩
    obtain ⟨hone, rfl⟩ :=
      (hstart.requestActions_eq_ok (by decide) (by decide)).mp h₁
    obtain ⟨level, hlevel, rfl⟩ := checkDebug_eq_ok.mp h₂
    obtain ⟨hboth, rfl⟩ :=
      ((hnext level hone).requestActions_eq_ok (by decide) (by decide)).mp h₃
    exact ⟨hboth, level, hlevel, rfl⟩
  · rintro ⟨hboth, level, hlevel, rfl⟩
    have hone := hfirst hboth
    refine ⟨o.answer basicRequests, ?_, (o.answer basicRequests).readBasic level, ?_, ?_⟩
    · exact (hstart.requestActions_eq_ok (by decide) (by decide)).mpr ⟨hone, rfl⟩
    · exact checkDebug_eq_ok.mpr ⟨level, hlevel, rfl⟩
    · exact ((hnext level hone).requestActions_eq_ok (by decide) (by decide)).mpr ⟨hboth, rfl⟩

/-- The basic options and one more that asks for an action. -/
theorem checkOptions_bind_eq_ok
    {requests : List (String × String)} {f : OptionsBase → Except OptionsError OptionsBase}
    (ho : o.action = startAction)
    (hrequests : Requestable requests) :
    (do let o ← o.checkOptions; let o ← o.requestActions requests; f o) = .ok o' ↔
      (asked (basicRequests ++ printRequests ++ requests) o.given).length ≤ 1 ∧
        ∃ level, o.shownLevel = some level ∧
          f ((o.readBasic level).answer (basicRequests ++ printRequests ++ requests)) = .ok o' := by
  have hstart : Answered [] o := ⟨ho, Nat.zero_le 1⟩
  have hnext : ∀ level, (asked (basicRequests ++ printRequests) o.given).length ≤ 1 →
      Answered (basicRequests ++ printRequests)
        ((o.readBasic level).answer (basicRequests ++ printRequests)) := by
    intro level hone
    have hread : Answered [] (o.readBasic level) := ⟨ho, Nat.zero_le 1⟩
    exact hread.answer hone
  simp only [bind_eq_ok_iff]
  constructor
  · rintro ⟨o₁, h₁, o₂, h₂, h₃⟩
    obtain ⟨hone, level, hlevel, rfl⟩ := (checkOptions_eq_ok ho).mp h₁
    obtain ⟨hall, rfl⟩ :=
      ((hnext level hone).requestActions_eq_ok (by decide) hrequests).mp h₂
    exact ⟨hall, level, hlevel, h₃⟩
  · rintro ⟨hall, level, hlevel, h⟩
    have hone : (asked (basicRequests ++ printRequests) o.given).length ≤ 1 := by
      rw [asked_append, List.length_append] at hall
      omega
    refine ⟨_, (checkOptions_eq_ok ho).mpr ⟨hone, level, hlevel, rfl⟩, _, ?_, h⟩
    exact ((hnext level hone).requestActions_eq_ok (by decide) hrequests).mpr ⟨hall, rfl⟩

/-- What `schroot` makes of its options. -/
def readSchroot (level : DebugLevel) (o : OptionsBase) : OptionsBase :=
  let o := (o.readBasic level).readSelection.answer Program.schroot.requests
  { o with sessionForce := o.sessionForce || o.count "force" }.expandAll.readUserOptions

theorem checkSchroot_eq_ok
    (ho : o.action = startAction) :
    o.checkSchroot = .ok o' ↔
      (asked Program.schroot.requests o.given).length ≤ 1 ∧
        ∃ level, o.shownLevel = some level ∧ o' = o.readSchroot level := by
  have hnext : ∀ level (requests : List (String × String)),
      (asked requests o.given).length ≤ 1 →
        Answered requests ((o.readBasic level).answer requests).readSelection := by
    intro level requests hone
    have hread : Answered [] (o.readBasic level) := ⟨ho, Nat.zero_le 1⟩
    have hanswer := hread.answer hone
    exact ⟨hanswer.action, hanswer.one⟩
  rw [checkSchroot, checkOptions_bind_eq_ok ho (by decide)]
  simp only [bind_eq_ok_iff]
  constructor
  · rintro ⟨hone, level, hlevel, o₃, h₃, h₄⟩
    obtain ⟨hall, rfl⟩ := ((hnext level _ hone).requestActions_eq_ok (by decide) (by decide)).mp h₃
    cases h₄
    exact ⟨hall, level, hlevel, rfl⟩
  · rintro ⟨hall, level, hlevel, rfl⟩
    have hone : (asked (basicRequests ++ printRequests ++ [("location", actionLocation)])
        o.given).length ≤ 1 := by
      rw [Program.requests, asked_append, List.length_append] at hall
      omega
    refine ⟨hone, level, hlevel, _, ?_, rfl⟩
    exact ((hnext level _ hone).requestActions_eq_ok (by decide) (by decide)).mpr ⟨hall, rfl⟩

/-- What a program makes of its options. -/
def read (p : Program) (level : DebugLevel) (o : OptionsBase) : OptionsBase :=
  match p with
  | .schroot => o.readSchroot level
  | .dchroot => ((o.readBasic level).answer p.requests).readDchroot
  | .dchrootDsa => ((o.readBasic level).answer p.requests).readDchrootDsa

/-- `dchroot-dsa` is given one command by its path, and a chroot if it needs one. -/
structure CommandGiven (o : OptionsBase) : Prop where
  one : o.command.length ≤ 1
  path : ∀ command ∈ o.command, isAbsname command = true
  chroot : o.chroots = [] → o.allUsed = true ∨ needsNoChroot o.action.get = true

theorem checkCommand_eq_ok :
    o.checkCommand = .ok o' ↔ CommandGiven o ∧ o' = o := by
  unfold checkCommand
  constructor
  · intro h
    split at h
    · cases h
    · rename_i hone
      split at h
      · cases h
      · rename_i hpath
        split at h
        · cases h
        · rename_i hchroot
          cases h
          refine ⟨⟨by omega, ?_, ?_⟩, rfl⟩
          · intro command hmem
            cases hcommand : o.command with
            | nil =>
                rw [hcommand] at hmem
                cases hmem
            | cons first others =>
                have hothers : others = [] := by
                  rw [hcommand, List.length_cons] at hone
                  exact List.eq_nil_of_length_eq_zero (by omega)
                rw [hcommand, hothers, List.mem_singleton] at hmem
                subst hmem
                simpa [hcommand] using hpath
          · intro hnil
            by_contra hneither
            rw [not_or, Bool.not_eq_true, Bool.not_eq_true] at hneither
            exact hchroot (by simp [hnil, hneither])
  · rintro ⟨hgiven, rfl⟩
    have hpath : o'.command.head?.any (fun command => !isAbsname command) = false := by
      cases hcommand : o'.command with
      | nil => rfl
      | cons first others =>
          simp [hgiven.path first (by simp [hcommand])]
    have hchroot : (o'.chroots.isEmpty && !o'.allUsed && !needsNoChroot o'.action.get) = false := by
      cases hchroots : o'.chroots with
      | nil =>
          rcases hgiven.chroot hchroots with hall | hneeds
          · simp [hall]
          · simp [hneeds]
      | cons first others => simp
    rw [if_neg (by have := hgiven.one; omega), hpath, hchroot]
    simp

/-- **What the options of a program come to**, before the action is looked at. -/
theorem checkOptions_program_eq_ok
    (p : Program)
    (ho : o.action = startAction) :
    p.checkOptions o = .ok o' ↔
      (asked p.requests o.given).length ≤ 1 ∧
        ∃ level, o.shownLevel = some level ∧
          (p = .dchrootDsa → CommandGiven (o.read p level)) ∧ o' = o.read p level := by
  cases p with
  | schroot =>
      rw [Program.checkOptions, checkSchroot_eq_ok ho]
      simp [read]
  | dchroot =>
      rw [Program.checkOptions, checkDchroot, checkOptions_bind_eq_ok ho (by decide)]
      simp only [pure, Except.pure, Except.ok.injEq, read, reduceCtorEq, false_implies, true_and]
      simp only [eq_comm]
      rfl
  | dchrootDsa =>
      rw [Program.checkOptions, checkDchrootDsa, checkOptions_bind_eq_ok ho (by decide)]
      simp only [checkCommand_eq_ok, read, true_implies]
      rfl

end Requests

end OptionsBase

end Schroot
