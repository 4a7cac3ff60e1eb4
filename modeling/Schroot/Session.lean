import Schroot.Environment
import Schroot.SetupLock

/-!
# Running a session

`session::run` with everything that it calls in the parent process.
-/

namespace Schroot

open SessionM

namespace Session

section Setup

/-- The stages that an operation has setup scripts for. -/
def performs (operation : Operation) (stage : SetupType) : Bool :=
  match operation, stage with
  | .opBegin, .setupStart => true
  | .opRecover, .setupRecover => true
  | .opEnd, .setupStop => true
  | .opAutomatic, .setupStart => true
  | .opAutomatic, .setupStop => true
  | _, _ => false

def stageName : SetupType → String
  | .setupStart => "setup-start"
  | .setupRecover => "setup-recover"
  | .setupStop => "setup-stop"

/-- The environment of the setup scripts. -/
def scriptEnvironment (w : World) (c : Chroot) : Except UserdataError Environment := do
  let env ← c.setupEnv w.cfg ∅
  let info := w.session.info
  pure <| Environment.addAll env <|
    [ ("AUTH_USER", info.user)
    , ("AUTH_RUSER", info.ruser)
    , ("AUTH_RGROUP", info.rgroup)
    , ("AUTH_UID", toString info.uid)
    , ("AUTH_GID", toString info.gid)
    , ("AUTH_RUID", toString info.ruid)
    , ("AUTH_RGID", toString info.rgid)
    , ("AUTH_HOME", info.home)
    , ("AUTH_SHELL", info.shell)
    , ("VERBOSE", c.verbosity.print)
    , ("MOUNT_DIR", w.cfg.mountDir)
    , ("LIBEXEC_DIR", w.cfg.libexecDir)
    , ("SYSCONF_DIR", w.cfg.sysconfDir)
    , ("DATA_DIR", w.cfg.dataDir)
    , ("SETUP_DATA_DIR", w.cfg.setupDataDir)
    , ("PID", toString w.outcomes.pid) ] ++
    w.cfg.hostVariables ++
    [("PATH", "/usr/local/sbin:/usr/local/bin:/usr/sbin:/usr/bin:/sbin:/bin")]

/-- Fork the child that runs the setup scripts, and wait for it.  The directory of the scripts can
always be listed here. -/
def runScripts (w : World) (i : Nat) (c : Chroot) (stage : SetupType) : SessionM Nat := do
  let s ← get
  let args := [stageName stage, if s.chrootStatus then "ok" else "fail"]
  let env ← Effect.ofExcept ((scriptEnvironment w c).mapError (fun e => .object (.userdata e)))
  match (w.outcomes.stage i stage).scripts with
  | .forkFailed =>
      Effect.change fun s => { s with chrootStatus := false }
      throwSession .childFork c.name
  | .waitFailed code signalled =>
      note (.scripts i stage args env.toList (.waitFailed code signalled))
      Effect.change fun s => { s with chrootStatus := s.chrootStatus && !signalled }
      throwSession code ""
  | .exited status =>
      note (.scripts i stage args env.toList (.exited status))
      pure status.val

/-- A failure to lock or unlock, which spoils the session. -/
def lockFailure (i : Nat) (stage : SetupType) : SessionM Unit := do
  note (.lockFailed i stage)
  Effect.change fun s => { s with chrootStatus := false, lockStatus := false }

/-- The lock of a stage.  When it fails, the unlocking is also meant to remove the session
file. -/
def lockStage (w : World) (i : Nat) (c : Chroot) (stage : SetupType) : SessionM Unit :=
  Effect.catching Exn.isChroot (c.lock w i stage) (fun _ => do
    lockFailure i stage
    Effect.catching Exn.isChroot (c.unlock w i stage 0) (fun _ => pure ())
    throwSession .chrootLock c.name)

def unlockStage (w : World) (i : Nat) (c : Chroot) (stage : SetupType) (status : Nat) :
    SessionM Unit :=
  Effect.catching Exn.isChroot (c.unlock w i stage status) (fun _ => do
    lockFailure i stage
    throwSession .chrootUnlock c.name)

/-- Lock the chroot, run the scripts, and unlock it. -/
def stageBody (w : World) (i : Nat) (c : Chroot) (stage : SetupType) : SessionM Unit := do
  lockStage w i c stage
  let status ← runScripts w i c stage
  unlockStage w i c stage status
  if status ≠ 0 then
    Effect.change fun s => { s with chrootStatus := false }
    throwSession .chrootSetup c.name
  else
    pure ()

/-- `setup_chroot` once it is clear that there is something to do. -/
def setupStage (w : World) (i : Nat) (c : Chroot) (stage : SetupType) : SessionM Unit := do
  note (.setup i stage)
  Effect.change fun s =>
    { s with chrootStatus := stage = .setupStart || s.chrootStatus }
  stageBody w i c stage

/-- There is something to do: the operation has the stage, no lock has failed, and the
chroot runs setup scripts. -/
def entersStage (w : World) (c : Chroot) (stage : SetupType) (s : SessionState) : Bool :=
  performs w.session.operation stage && s.lockStatus && c.runSetupScripts

/-- `setup_chroot`. -/
def setupChroot (w : World) (i : Nat) (c : Chroot) (stage : SetupType) : SessionM Unit := do
  let s ← get
  if entersStage w c stage s then setupStage w i c stage else pure ()

end Setup

section Preparation

/-- The session that is created from a chroot, or a copy of the chroot. -/
def createSession (w : World) (i : Nat) (entry : ChrootEntry) : Except Exn Chroot := do
  let ch := entry.chroot
  if ch.getSessionFlags.create &&
      !(w.session.operation = .opAutomatic || w.session.operation = .opBegin) then
    .error (.session { code := .chrootNotfound, context := entry.aliasName })
  else if ch.getSessionFlags.create then do
    let sessionId :=
      if w.session.sessionId ≠ "" then
        w.session.sessionId
      else
        ch.name ++ "-" ++ w.outcomes.uniqueIdentifier i
    let m ← (getChrootMembership w.session.info (w.outcomes.groups (.createSession i))
      ch.copy).mapError .session
    let session ← (ch.cloneSession w.cfg sessionId entry.aliasName w.session.info.ruser
      m.root).mapError .object
    -- A chroot with the flag can be cloned, so there is a session.
    pure (session.getD ch.copy)
  else
    pure ch.copy

/-- The verbosity of the session overrides that of the chroot. -/
def overrideVerbosity (w : World) (c : Chroot) : Except Exn Chroot :=
  if w.session.verbosity ≠ "" then
    (c.setVerbosity w.session.verbosity).mapError (fun e => .object (.chroot e))
  else
    .ok c

/-- The user options; root may also set the options that are reserved for root. -/
def setUserOptions (w : World) (c : Chroot) : Except Exn Chroot :=
  match c.userdata? with
  | none => .ok c
  | some u =>
      let result :=
        if w.session.info.uid = 0 ∨ w.session.info.ruid = 0 then
          u.setRootData w.session.userOptions
        else
          u.setUserData w.session.userOptions
      match result with
      | (u, none) => .ok (c.updateFacet (.userdata u))
      | (_, some e) => .error (.object (.userdata e))

/-- The chroot that is worked with. -/
def prepareChroot (w : World) (i : Nat) (entry : ChrootEntry) : Except Exn Chroot := do
  let c ← createSession w i entry
  let c ← overrideVerbosity w c
  setUserOptions w c

end Preparation

section Running

/-- A call on the authentication object that may fail. -/
def authStep (c : AuthCall) (fails : Bool) : SessionM Unit :=
  call (.auth c) (if fails then throw (.auth c) else pure ())

theorem wp_authStep
    (c : AuthCall) (fails : Bool)
    {s : SessionState} {Q : Unit → SessionState → Prop} {E : Exn → SessionState → Prop} :
    Effect.Wp (authStep c fails) Q E s ↔
      if fails then
        E (.auth c) (s.note (.call (.auth c) s.childStatus (some (.auth c))))
      else
        Q () (s.note (.call (.auth c) s.childStatus none)) := by
  rw [authStep, wp_call]
  cases fails <;> rfl

def authCall (w : World) (c : AuthCall) : SessionM Unit :=
  authStep c (w.outcomes.authFails c)

/-- `run_chroot`: the command is run in a child, whose status is that of the session. -/
def runChroot (w : World) (i : Nat) : SessionM Unit :=
  match w.outcomes.command i with
  | .forkFailed => throwSession .childFork ""
  | .waitFailed code signalled => do
      Effect.change fun s =>
        { s with childStatus := 1, chrootStatus := s.chrootStatus && !signalled }
      throwSession code ""
  | .exited status => Effect.change fun s => { s with childStatus := status.val }

/-- The command in its session of the authentication library. -/
def runCommand (w : World) (i : Nat) : SessionM Unit := do
  Effect.onError (fun _ => true)
    (do
      authCall w (.openSession i)
      call (.runChroot i) (runChroot w i))
    (authCall w (.closeSession i))
  authCall w (.closeSession i)

def setupStep (w : World) (i : Nat) (c : Chroot) (stage : SetupType) : SessionM Unit :=
  call (.setupChroot i stage) (setupChroot w i c stage)

/-- The stages of a chroot before it is stopped. -/
def startAndRun (w : World) (i : Nat) (c : Chroot) : SessionM Unit := do
  setupStep w i c .setupStart
  setupStep w i c .setupRecover
  if w.session.operation = .opAutomatic ∨ w.session.operation = .opRun then
    runCommand w i
  else
    pure ()

/-- One turn of the loop of `run_impl`.  A `session::error` does not keep the chroot from
being stopped, and a second one while stopping is dropped. -/
def runEntry (w : World) (i : Nat) (entry : ChrootEntry) : SessionM Unit := do
  let c ← call (.prepareChroot i) (Effect.ofExcept (prepareChroot w i entry))
  Effect.change fun s => { s with childStatus := 0 }
  Effect.onError Exn.isSession (startAndRun w i c)
    (Effect.catching Exn.isSession (setupStep w i c .setupStop) (fun _ => pure ()))
  setupStep w i c .setupStop

/-- The loop over the chroots. -/
def runEntries (w : World) : Nat → List ChrootEntry → SessionM Unit
  | _, [] => pure ()
  | i, entry :: entries => do
      runEntry w i entry
      runEntries w (i + 1) entries

/-- The signal handlers; the first failure ends it. -/
def setSignalHandlers (w : World) : SessionM Unit :=
  if [Signal.sighup, .sigint, .sigterm].any w.outcomes.signalFails then
    throwSession .signalSet ""
  else
    pure ()

/-- If a command was not run but something failed, the child status still needs
setting. -/
def repairStatus (s : SessionState) : SessionState :=
  if s.childStatus = 0 then { s with childStatus := 1 } else s

/-- `run_impl`. -/
def runImpl (w : World) : SessionM Unit :=
  Effect.onError Exn.isSession
    (do
      call .setSignalHandlers (setSignalHandlers w)
      runEntries w 0 w.session.chroots)
    (Effect.change repairStatus)

/-- `get_auth_status`. -/
def getAuthStatus (w : World) : Except SessionError AuthStatus :=
  w.session.chroots.zipIdx.foldlM
    (fun status entry => do
      let required ← getChrootAuthStatus w.session.info
        (w.outcomes.groups (.authStatus entry.2)) status entry.1.chroot
      pure (status.change required))
    AuthStatus.none

/-- `authenticate` refuses users who need not try. -/
def authenticate (w : World) (status : AuthStatus) : SessionM Unit :=
  authStep .authenticate (status = .fail || w.outcomes.authFails .authenticate)

/-- An `auth::error` leads to a cleanup whose own failure is dropped. -/
def cleaningUp (x : SessionM Unit) (cleanup : SessionM Unit) : SessionM Unit :=
  Effect.onError Exn.isAuth x (Effect.catching Exn.isAuth cleanup (fun _ => pure ()))

/-- The credentials are established for `run_impl` and deleted afterwards. -/
def runWithCredentials (w : World) : SessionM Unit := do
  cleaningUp
    (do
      authCall w .credEstablish
      runImpl w)
    (authCall w .credDelete)
  authCall w .credDelete

/-- `run`. -/
def run (w : World) : SessionM Unit := do
  cleaningUp
    (do
      authCall w .start
      let status ← call .getAuthStatus (Effect.ofExcept ((getAuthStatus w).mapError .session))
      authenticate w status
      authCall w .setupenv
      authCall w .account
      runWithCredentials w)
    (authCall w .stop)
  authCall w .stop

end Running

section Samples

/-- An ordinary user who switches to root. -/
def sampleInfo : AuthInfo where
  user := "root"
  uid := 0
  gid := 0
  home := "/root"
  shell := "/bin/sh"
  ruser := "joe"
  ruid := 1000
  rgid := 1000
  rgroup := "joe"

/-- A stage in which nothing fails. -/
def smoothStage : StageOutcomes where
  lockStat := some { uid := 0, otherWrite := false, isRegular := true, isBlock := true }
  unlockStat := some { uid := 0, otherWrite := false, isRegular := true, isBlock := true }
  scripts := .exited 0

/-- A run in which nothing fails. -/
def smoothOutcomes : Outcomes where
  authFails := fun _ => false
  signalFails := fun _ => false
  groups := fun _ => { database := fun _ => none, gid := 1000, supplementary := .ok [] }
  uniqueIdentifier := fun _ => "0"
  command := fun _ => .exited 0
  stage := fun _ _ => smoothStage
  pid := 1

/-- A world in which nothing fails. -/
def smoothWorld (operation : Operation) (chroots : List ChrootEntry) : World where
  cfg := .standard
  session := { operation := operation, chroots := chroots, info := sampleInfo }
  outcomes := smoothOutcomes

end Samples

end Session

end Schroot
