import Schroot.Util

/-!
# Exceptions

Every class of the source throws its own `error` type with an enumeration of
codes.  The types are unrelated to each other apart from their common base
`std::runtime_error`, so a handler for one of them does not see the others.
An `ErrorInfo` keeps the code, the name the error is about, and the reason that
the thrower adds; the message catalogue is left out.
-/

namespace Schroot

/-- What an exception object of one error class carries. -/
structure ErrorInfo (κ : Type) where
  code : κ
  context : String := ""
  reason : String := ""
deriving DecidableEq, Repr

/-- Codes of `chroot::error`. -/
inductive ChrootCode where
  | chrootCreate
  | chrootDevice
  | chrootType
  | deviceAbs
  | deviceNotblock
  | directoryAbs
  | facetPresent
  | fileAbs
  | fileLock
  | fileNotreg
  | fileOwner
  | filePerms
  | fileUnlock
  | locationAbs
  | nameInvalid
  | sessionUnlink
  | sessionWrite
  | verbosityInvalid
deriving DecidableEq, Repr

/-- Codes of `chroot_facet_union::error`. -/
inductive UnionCode where
  | unionTypeUnknown
  | unionOverlayAbs
  | unionUnderlayAbs
deriving DecidableEq, Repr

/-- Codes of `chroot_facet_userdata::error`. -/
inductive UserdataCode where
  | envAmbiguous
  | keyAmbiguous
  | keyDisallowed
  | keynameInvalid
deriving DecidableEq, Repr

/-- Codes of `personality::error`. -/
inductive PersonalityCode where
  | bad
deriving DecidableEq, Repr

/-- Codes of `chroot_config::error`. -/
inductive ConfigCode where
  | aliasExist
  | chrootNotfound
  | chrootsNotfound
  | chrootExist
  | namespaceNotfound
deriving DecidableEq, Repr

abbrev ChrootError := ErrorInfo ChrootCode
abbrev UnionError := ErrorInfo UnionCode
abbrev UserdataError := ErrorInfo UserdataCode
abbrev PersonalityError := ErrorInfo PersonalityCode
abbrev ConfigError := ErrorInfo ConfigCode

/-- What the methods of chroots and facets throw. -/
inductive ObjectError where
  | chroot (e : ChrootError)
  | union (e : UnionError)
  | userdata (e : UserdataError)
  | personality (e : PersonalityError)
  | regex (pattern : String)
deriving DecidableEq, Repr

/-- Codes of `keyfile_base::error` other than the pass-through ones. -/
inductive KeyfileCode where
  | disallowedKey
  | disallowedKeyNl
  | duplicateGroup
  | duplicateKey
  | invalidGroup
  | invalidLine
  | missingKey
  | missingKeyNl
  | noGroup
  | noKey
deriving DecidableEq, Repr

/-- An error of the keyfile itself; line `0` stands for no line. -/
structure KeyfileFault where
  code : KeyfileCode
  line : Nat := 0
  group : String := ""
  context : String := ""
deriving DecidableEq, Repr

/-- What a pass-through error wraps. -/
inductive KeyfileCause where
  | fault (f : KeyfileFault)
  | object (e : ObjectError)
  | config (e : ConfigError)
deriving DecidableEq, Repr

/-- `keyfile_base::error`.  A pass-through error names the line, group and key at
which the wrapped exception was thrown; without a key the key is empty. -/
inductive KeyfileError where
  | fault (f : KeyfileFault)
  | passthrough (line : Nat) (group key : String) (cause : KeyfileCause)
deriving DecidableEq, Repr

/-- Codes of `session::error` that `run` can throw. -/
inductive SessionCode where
  | childCore
  | childFail
  | childFork
  | childSignal
  | childWait
  | chrootLock
  | chrootNotfound
  | chrootSetup
  | chrootUnlock
  | groupGetSup
  | groupGetSupc
  | signalCatch
  | signalSet
deriving DecidableEq, Repr

abbrev SessionError := ErrorInfo SessionCode

/-- The calls on the authentication object; sessions are opened once for each chroot. -/
inductive AuthCall where
  | start
  | authenticate
  | setupenv
  | account
  | credEstablish
  | openSession (chroot : Nat)
  | closeSession (chroot : Nat)
  | credDelete
  | stop
deriving DecidableEq, Repr

/-- What a session run can throw: `session::error`, the `auth::error` of a call,
`stat::error`, `keyfile::error`, and the errors of chroots and facets. -/
inductive Exn where
  | session (e : SessionError)
  | auth (call : AuthCall)
  | stat (file : String)
  | keyfile (e : KeyfileError)
  | object (e : ObjectError)
deriving DecidableEq, Repr

namespace Exn

def isSession : Exn → Bool
  | session _ => true
  | _ => false

def isAuth : Exn → Bool
  | auth _ => true
  | _ => false

def isStat : Exn → Bool
  | stat _ => true
  | _ => false

/-- `chroot::error`, which is neither of the errors of the facets. -/
def isChroot : Exn → Bool
  | object (.chroot _) => true
  | _ => false

end Exn

section Inversion

variable {ε ε' α β : Type}

/-- A sequence succeeds if both of its parts do. -/
theorem bind_eq_ok_iff {x : Except ε α} {f : α → Except ε β} {b : β} :
    (x >>= f) = .ok b ↔ ∃ a, x = .ok a ∧ f a = .ok b := by
  cases x <;> simp [bind, Except.bind]

theorem mapError_eq_ok_iff {f : ε → ε'} {x : Except ε α} {a : α} :
    x.mapError f = .ok a ↔ x = .ok a := by
  cases x <;> simp [Except.mapError]

theorem map_eq_ok_iff {f : α → β} {x : Except ε α} {b : β} :
    x.map f = .ok b ↔ ∃ a, x = .ok a ∧ f a = b := by
  cases x <;> simp [Except.map]

/-- There is a result, and it passes a test. -/
def okAnd (x : Except ε α) (test : α → Bool) : Bool :=
  match x with
  | .ok a => test a
  | .error _ => false

theorem okAnd_eq_true_iff {x : Except ε α} {test : α → Bool} :
    okAnd x test = true ↔ ∃ a, x = .ok a ∧ test a = true := by
  cases x <;> simp [okAnd]

end Inversion

end Schroot
