import Schroot.Library.Effect
import Schroot.Auth
import Schroot.ChrootKeyfile
import Schroot.KeyfileText

/-!
# Sessions: state and surroundings

What a session run is given (`Session`), what its steps come to (`Outcomes`), what it
changes (`SessionState`) and the note it leaves of every step (`Event`).

Whatever the operating system and the authentication library decide is an outcome that
the run is given from outside, one for each step, so that a theorem about all outcomes is
about every failure at every point.
-/

namespace Schroot

section Given

/-- What a session is to do. -/
inductive Operation where
  | opAutomatic
  | opBegin
  | opRecover
  | opEnd
  | opRun
deriving DecidableEq, Repr

/-- The stages of the setup scripts. -/
inductive SetupType where
  | setupStart
  | setupRecover
  | setupStop
deriving DecidableEq, Repr

/-- A chroot under the name that it was selected by. -/
structure ChrootEntry where
  aliasName : String
  chroot : Chroot

/-- A session before it is run. -/
structure Session where
  operation : Operation
  chroots : List ChrootEntry
  sessionId : String := ""
  verbosity : String := ""
  userOptions : Std.ExtTreeMap String String := ∅
  info : AuthInfo

end Given

section Decided

/-- What `stat` finds out about a file. -/
structure FileStatus where
  uid : Nat
  otherWrite : Bool
  isRegular : Bool
  isBlock : Bool
deriving DecidableEq, Repr

/-- There are exit statuses, as `0` is one. -/
instance neZero_exitStatus : @NeZero Nat Zero.ofOfNat0 256 := ⟨Nat.succ_ne_zero 255⟩

/-- How a child process ends.  A signal that the parent passes on to the child spoils the
chroot status. -/
inductive ChildOutcome where
  | forkFailed
  | waitFailed (code : SessionCode) (signalled : Bool)
  | exited (status : Fin 256)
deriving DecidableEq, Repr

/-- The outcomes of one stage for one chroot; `stat` fails with `none`. -/
structure StageOutcomes where
  lockStat : Option FileStatus
  unlockStat : Option FileStatus
  openFails : Bool := false
  setLockFails : Bool := false
  details : Option KeyfileError := none
  unsetLockFails : Bool := false
  unlinkFails : Bool := false
  scripts : ChildOutcome

/-- The signals that get handlers, in order. -/
inductive Signal where
  | sighup
  | sigint
  | sigterm
deriving DecidableEq, Repr

/-- When the groups of the process are looked up. -/
inductive GroupQuery where
  | authStatus (chroot : Nat)
  | createSession (chroot : Nat)
deriving DecidableEq, Repr

/-- The outcomes of a run; chroots are counted from zero. -/
structure Outcomes where
  authFails : AuthCall → Bool
  signalFails : Signal → Bool
  groups : GroupQuery → Groups
  uniqueIdentifier : Nat → String
  command : Nat → ChildOutcome
  stage : Nat → SetupType → StageOutcomes
  pid : Nat

end Decided

section Changed

/-- The steps of a run that can fail. -/
inductive Call where
  | auth (call : AuthCall)
  | getAuthStatus
  | setSignalHandlers
  | prepareChroot (chroot : Nat)
  | setupChroot (chroot : Nat) (stage : SetupType)
  | runChroot (chroot : Nat)
deriving DecidableEq, Repr

/-- What is noted of a run.  A `call` is noted when it ends, with the child status from
before it and the exception that it throws; the other events are steps of
`setup_chroot`. -/
inductive Event where
  | call (c : Call) (childStatus : Nat) (failure : Option Exn)
  | setup (chroot : Nat) (stage : SetupType)
  | lockFailed (chroot : Nat) (stage : SetupType)
  | scripts (chroot : Nat) (stage : SetupType) (args : List String)
      (env : List (String × String)) (outcome : ChildOutcome)
  | sessionInfo (chroot : Nat) (start : Bool)
deriving DecidableEq

/-- The changing part of a session, and the session directory with the contents of its
files by name. -/
structure SessionState where
  chrootStatus : Bool := true
  lockStatus : Bool := true
  childStatus : Nat := 1
  sessionFiles : Std.ExtTreeMap String String := ∅
  trace : List Event := []

namespace SessionState

def note (event : Event) (s : SessionState) : SessionState :=
  { s with trace := s.trace ++ [event] }

@[simp] theorem note_trace (event : Event) (s : SessionState) :
    (s.note event).trace = s.trace ++ [event] := rfl

@[simp] theorem note_childStatus (event : Event) (s : SessionState) :
    (s.note event).childStatus = s.childStatus := rfl

@[simp] theorem note_lockStatus (event : Event) (s : SessionState) :
    (s.note event).lockStatus = s.lockStatus := rfl

@[simp] theorem note_chrootStatus (event : Event) (s : SessionState) :
    (s.note event).chrootStatus = s.chrootStatus := rfl

@[simp] theorem note_sessionFiles (event : Event) (s : SessionState) :
    (s.note event).sessionFiles = s.sessionFiles := rfl

end SessionState

/-- The methods of a session. -/
abbrev SessionM (α : Type) : Type := Effect Exn SessionState α

/-- Everything that a run is given. -/
structure World where
  cfg : SbuildConfig
  session : Session
  outcomes : Outcomes

end Changed

namespace SessionM

/-- Leave a note. -/
def note (event : Event) : SessionM Unit :=
  Effect.change (SessionState.note event)

/-- Throw a `chroot::error`. -/
def throwChroot {α : Type} (code : ChrootCode) (context : String) : SessionM α :=
  throw (.object (.chroot { code := code, context := context }))

/-- Throw a `session::error`. -/
def throwSession {α : Type} (code : SessionCode) (context : String) : SessionM α :=
  throw (.session { code := code, context := context })

/-- A step of the run with its note. -/
def call {α : Type} (c : Call) (x : SessionM α) : SessionM α := do
  let s ← get
  let a ← Effect.catching (fun _ => true) x (fun e => do
    note (.call c s.childStatus (some e))
    throw e)
  note (.call c s.childStatus none)
  pure a

section Rules

open Effect

variable {α : Type} {Q : α → SessionState → Prop} {E : Exn → SessionState → Prop}
  {s : SessionState}

theorem wp_note (event : Event) {Q : Unit → SessionState → Prop} :
    Wp (note event) Q E s ↔ Q () (s.note event) := Iff.rfl

theorem wp_throwChroot (code : ChrootCode) (context : String) :
    Wp (throwChroot code context : SessionM α) Q E s ↔
      E (.object (.chroot { code := code, context := context })) s := Iff.rfl

theorem wp_throwSession (code : SessionCode) (context : String) :
    Wp (throwSession code context : SessionM α) Q E s ↔
      E (.session { code := code, context := context }) s := Iff.rfl

/-- A step ends as its body does, and is noted then. -/
theorem wp_call (c : Call) (x : SessionM α) :
    Wp (call c x) Q E s ↔
      Wp x (fun a s' => Q a (s'.note (.call c s.childStatus none)))
        (fun e s' => E e (s'.note (.call c s.childStatus (some e)))) s := by
  simp only [call, wp_bind, wp_get, wp_catching, wp_note, wp_throw, wp_pure, if_true]

end Rules

end SessionM

end Schroot
