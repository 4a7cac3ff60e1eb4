import Schroot.SessionState

/-!
# Locking a chroot for its setup scripts

`setup_lock` of every chroot type, and the session file that it creates and removes.
-/

namespace Schroot

open SessionM

namespace Chroot

section SessionInfo

/-- `setup_session_info`: create the session file, or remove it.  The source does not look at
whether the text could be written, so that a full disk is not noticed; here it is always written. -/
def setupSessionInfo (w : World) (i : Nat) (o : StageOutcomes) (c : Chroot) (start : Bool) :
    SessionM Unit := do
  let file := w.cfg.sessionDir ++ "/" ++ c.name
  note (.sessionInfo i start)
  let s ← get
  if start then
    -- `O_EXCL`: the file of another session is not opened.
    if o.openFails ∨ c.name ∈ s.sessionFiles then
      throwChroot .sessionWrite file
    else
      Effect.change fun s => { s with sessionFiles := s.sessionFiles.insert c.name "" }
      if o.setLockFails then
        throwChroot .fileLock file
      else
        match o.details with
        | some e => throw (.keyfile e)
        | none =>
            Effect.change fun s =>
              { s with
                sessionFiles := s.sessionFiles.insert c.name (c.getKeyfile .empty).print }
            if o.unsetLockFails then throwChroot .fileUnlock file else pure ()
  else if o.unlinkFails ∨ c.name ∉ s.sessionFiles then
    throwChroot .sessionUnlink file
  else
    Effect.change fun s => { s with sessionFiles := s.sessionFiles.erase c.name }

end SessionInfo

section Checks

/-- The ownership and permissions of the file of a chroot. -/
def checkFile (file : String) : Option FileStatus → SessionM Unit
  | none => throw (.stat file)
  | some status =>
      if status.uid ≠ 0 then
        throwChroot .fileOwner file
      else if status.otherWrite then
        throwChroot .filePerms file
      else if !status.isRegular then
        throwChroot .fileNotreg file
      else
        pure ()

/-- The check of a device, named in the error by `context`.  When a session is stopped it
does not matter that the device cannot be found. -/
def checkDevice (stage : SetupType) (device context : String) (status : Option FileStatus) :
    SessionM Unit :=
  Effect.catching Exn.isStat
    (match status with
      | none => throw (.stat device)
      | some status => if status.isBlock then pure () else throwChroot .deviceNotblock context)
    (fun e => if stage ≠ .setupStop then throw e else pure ())

/-- The condition under which a type creates or removes the session file. -/
def changesSessionInfo (stage : SetupType) (lock : Bool) (status : Nat) : Bool :=
  (stage = .setupStart && lock) || (stage = .setupStop && !lock && status = 0)

/-- The end of `setup_lock` in all types that have sessions. -/
def sessionLock (w : World) (i : Nat) (o : StageOutcomes) (c : Chroot)
    (stage : SetupType) (lock : Bool) (status : Nat) : SessionM Unit :=
  if changesSessionInfo stage lock status then
    c.setupSessionInfo w i o (stage = .setupStart)
  else
    pure ()

/-- `setup_lock` of file and loopback chroots. -/
def fileLock (w : World) (i : Nat) (o : StageOutcomes) (c : Chroot) (file : String)
    (stage : SetupType) (lock : Bool) (status : Nat) : SessionM Unit := do
  if stage = .setupStart ∧ lock then checkFile file o.lockStat else pure ()
  c.sessionLock w i o stage lock status

/-- `setup_lock` of block devices: the lock is kept through the whole session. -/
def blockDeviceLock (w : World) (i : Nat) (o : StageOutcomes) (c : Chroot) (device : String)
    (stage : SetupType) (lock : Bool) (status : Nat) : SessionM Unit :=
  if (stage = .setupStart ∧ lock = false) ∨ (stage = .setupStop ∧ lock = true) then
    pure ()
  else do
    checkDevice stage device device (if lock then o.lockStat else o.unlockStat)
    c.sessionLock w i o stage lock status

/-- The device that is checked: the snapshot once there is one. -/
def lvmLockDevice (l : LvmSnapshot) (stage : SetupType) : String :=
  if stage = .setupStart then l.device else l.snapshotDevice

/-- `setup_lock` of LVM snapshots: the snapshot is gone when it is unlocked after
stopping. -/
def lvmSnapshotLock (w : World) (i : Nat) (o : StageOutcomes) (c : Chroot) (l : LvmSnapshot)
    (stage : SetupType) (lock : Bool) (status : Nat) : SessionM Unit := do
  if stage = .setupStop ∧ lock = false then
    pure ()
  else
    let device := lvmLockDevice l stage
    if device = "" then
      throwChroot .chrootDevice ""
    else
      checkDevice stage device l.device (if lock then o.lockStat else o.unlockStat)
  c.sessionLock w i o stage lock status

/-- `setup_lock`. -/
def setupLock (w : World) (i : Nat) (c : Chroot) (stage : SetupType) (lock : Bool)
    (status : Nat) : SessionM Unit :=
  let o := w.outcomes.stage i stage
  match c.kind with
  | .plain _ => pure ()
  | .directory _ => c.sessionLock w i o stage lock status
  | .custom _ => c.sessionLock w i o stage lock status
  | .file f => c.fileLock w i o f.file stage lock status
  | .blockDevice device => c.blockDeviceLock w i o device stage lock status
  | .loopback file => c.fileLock w i o file stage lock status
  | .lvmSnapshot l => c.lvmSnapshotLock w i o l stage lock status
  | .zfsSnapshot _ => c.sessionLock w i o stage lock status
  | .btrfsSnapshot _ => c.sessionLock w i o stage lock status

/-- `lock`. -/
def lock (w : World) (i : Nat) (c : Chroot) (stage : SetupType) : SessionM Unit :=
  c.setupLock w i stage true 0

/-- `unlock`. -/
def unlock (w : World) (i : Nat) (c : Chroot) (stage : SetupType) (status : Nat) :
    SessionM Unit :=
  c.setupLock w i stage false status

end Checks

end Chroot

end Schroot
