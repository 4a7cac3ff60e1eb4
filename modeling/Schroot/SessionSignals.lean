import Schroot.Library.ActionRun
import Schroot.SessionState

/-!
# Signals while a session runs

`session::wait_for_child` with the flags of the signal handlers, in the order in which
`run_impl` waits for its children.  A signal may be delivered between any two accesses to a
flag.

**Input.**  The actions of a run: deliveries, what the system calls return, and the steps of
the program.

**Results.**
* `quiet_step`: without a flag and without a delivery no child gets a signal.
* `spared_iff`: when the stop scripts get no signal that was reported before.
-/

namespace Schroot

namespace WaitForChild

section Model

/-- What a child is forked for. -/
inductive Stage where
  | setup (type : SetupType)
  | command
deriving DecidableEq, Repr

/-- How a child ends. -/
inductive ChildEnd where
  | exited (status : Nat)
  | signalled
  | dumped
  | failed
deriving DecidableEq, Repr

/-- The calls that wait for a child, in `run_impl`: those in the `try` block, the one in its
handler and the one that follows. -/
inductive Place where
  | start
  | recover
  | command
  | cleanup
  | stop
deriving DecidableEq, Repr

/-- The points at which a flag is accessed, or a system call is made. -/
inductive Point where
  | ready
  | ended
  | headHup
  | headTerm
  | choose
  | kill (sig : Signal)
  | waitpid
  | retryHup
  | retryTerm
  | retryInt
  | reportHup (ending : ChildEnd)
  | reportTerm (ending : ChildEnd)
  | clear (sig : Signal)
  | throwing (sig : Signal)
  | returned (status : Nat)
deriving DecidableEq, Repr

structure State where
  place : Place := .start
  point : Point := .ready
  sighupCalled : Bool := false
  sigintCalled : Bool := false
  sigtermCalled : Bool := false
  childKilled : Bool := false
  childStatus : Nat := 0
  chrootStatus : Bool := true
deriving DecidableEq, Repr

inductive Action where
  /-- A handler is called. -/
  | delivered (sig : Signal)
  /-- The child of a stage is forked. -/
  | fork
  /-- A flag is read. -/
  | test
  /-- A child gets a signal. -/
  | sent (stage : Stage) (sig : Signal)
  /-- What `waitpid` returns. -/
  | interrupted
  | waitFailed
  | reaped (ending : ChildEnd)
  | cleared
  /-- A signal is reported. -/
  | threw (sig : Signal)
  /-- A stage is over, or it has nothing to do. -/
  | pass
  /-- A stage fails before or after its child. -/
  | fail
  /-- There are no more chroots, or there is an exception that `run_impl` does not handle. -/
  | leave
deriving DecidableEq, Repr

def Place.stage : Place → Stage
  | start => .setup .setupStart
  | recover => .setup .setupRecover
  | command => .command
  | cleanup => .setup .setupStop
  | stop => .setup .setupStop

/-- What follows a stage; after the last one it is the turn of the next chroot. -/
def Place.next : Place → Option Place
  | start => some recover
  | recover => some command
  | command => some stop
  | cleanup => none
  | stop => some start

/-- What follows a `session::error`. -/
def Place.onError : Place → Option Place
  | start => some cleanup
  | recover => some cleanup
  | command => some cleanup
  | cleanup => none
  | stop => none

def State.enter (s : State) : Option Place → State
  | some place => { s with place := place, point := .ready }
  | none => { s with point := .ended }

/-- A `session::error` is thrown. -/
def State.throw (s : State) : State :=
  s.enter s.place.onError

/-- The three handlers. -/
def State.handler (s : State) : Signal → State
  | .sighup => { s with sighupCalled := true }
  | .sigint => { s with sigintCalled := true }
  | .sigterm => { s with sigtermCalled := true }

def State.unset (s : State) : Signal → State
  | .sighup => { s with sighupCalled := false }
  | .sigint => { s with sigintCalled := false }
  | .sigterm => { s with sigtermCalled := false }

/-- A flag was found set at the head of the loop; the child gets one signal only. -/
def State.caught (s : State) : State :=
  { s with point := if s.childKilled then .waitpid else .choose }

/-- No flag was set when the child had ended. -/
def State.finish (s : State) : ChildEnd → State
  | .exited status => { s with point := .returned status, childStatus := status }
  | _ => s.throw

/-- A flag is read, and the branch is taken. -/
def State.test (s : State) : Option State :=
  match s.point with
  | .headHup => some (if s.sighupCalled then s.caught else { s with point := .headTerm })
  | .headTerm => some (if s.sigtermCalled then s.caught else { s with point := .waitpid })
  | .choose => some { s with point := .kill (if s.sighupCalled then .sighup else .sigterm) }
  | .retryHup => some { s with point := if s.sighupCalled then .headHup else .retryTerm }
  | .retryTerm => some { s with point := if s.sigtermCalled then .headHup else .retryInt }
  | .retryInt => some (if s.sigintCalled then { s with point := .headHup } else s.throw)
  | .reportHup ending =>
      some { s with point := if s.sighupCalled then .clear .sighup else .reportTerm ending }
  | .reportTerm ending =>
      some (if s.sigtermCalled then { s with point := .clear .sigterm } else s.finish ending)
  | _ => none

/-- No child is waited for. -/
def Point.between : Point → Bool
  | ready => true
  | returned _ => true
  | _ => false

/-- A stage of setup scripts is over if they succeeded; the command may fail. -/
def State.passes (s : State) : Bool :=
  match s.point with
  | .ready => true
  | .returned status => s.place = .command || status = 0
  | _ => false

/-- **One action.** -/
def step (s : State) : Action → Option State
  | .delivered sig => some (s.handler sig)
  | .fork =>
      if s.point = .ready then
        some { s with
          point := .headHup
          childKilled := false
          childStatus := 1
          chrootStatus := s.place = .start || s.chrootStatus }
      else
        none
  | .test => s.test
  | .sent stage sig =>
      if s.point = .kill sig ∧ s.place.stage = stage then
        some { s with point := .waitpid, childKilled := true, chrootStatus := false }
      else
        none
  | .interrupted => if s.point = .waitpid then some { s with point := .retryHup } else none
  | .waitFailed => if s.point = .waitpid then some s.throw else none
  | .reaped ending =>
      if s.point = .waitpid then some { s with point := .reportHup ending } else none
  | .cleared =>
      match s.point with
      | .clear sig => some { s.unset sig with point := .throwing sig }
      | _ => none
  | .threw sig => if s.point = .throwing sig then some s.throw else none
  | .pass => if s.passes then some (s.enter s.place.next) else none
  | .fail =>
      if s.point.between then
        some (State.throw { s with chrootStatus := s.place = .command && s.chrootStatus })
      else
        none
  | .leave => if s.point.between then some { s with point := .ended } else none

/-- A run of `run_impl`, which clears the flags at first. -/
def run (actions : List Action) : Option State :=
  ActionRun.run step {} actions

end Model

section Scripts

/-- A signal is delivered that is passed on to a child. -/
def Action.delivers : Action → Bool
  | delivered .sighup => true
  | delivered .sigterm => true
  | _ => false

/-- **Stop scripts are spared**: however it goes on, they get a signal only after one was
delivered. -/
def State.SparesStop (s : State) : Prop :=
  ∀ between sig after s', ActionRun.run step s
      (between ++ .sent (.setup .setupStop) sig :: after) = some s' →
    ∃ a ∈ between, a.delivers = true

/-- **What a run is to do**: once a signal is reported, the stop scripts are spared.  Here any stage
may follow; the stop scripts do follow when a chroot is run automatically, and when a session is
ended. -/
def Spared (actions : List Action) : Prop :=
  ∀ before sig after, actions = before ++ .threw sig :: after →
    ∀ s, run (before ++ [.threw sig]) = some s → s.SparesStop

/-- No signal waits to be passed on. -/
def State.settled (s : State) : Bool :=
  !s.sighupCalled && !s.sigtermCalled

/-- Whenever a signal is reported, no signal waits to be passed on, or these are the stop
scripts already. -/
def Settled (actions : List Action) : Prop :=
  ∀ before sig after, actions = before ++ .threw sig :: after →
    ∀ s, run before = some s → s.settled = true ∨ s.place.stage = .setup .setupStop

/-- No flag was found set. -/
def Point.calm : Point → Bool
  | choose => false
  | kill _ => false
  | clear _ => false
  | throwing _ => false
  | _ => true

/-- No child gets a signal unless one is delivered. -/
def Quiet (s : State) : Prop :=
  s.point = .ended ∨ (s.settled = true ∧ s.point.calm = true)

variable {s s' : State} {a : Action} {sig : Signal} {actions : List Action}

@[simp] theorem settled_enter (s : State) (place : Option Place) :
    (s.enter place).settled = s.settled := by
  cases place <;> rfl

@[simp] theorem calm_enter (s : State) (place : Option Place) :
    (s.enter place).point.calm = true := by
  cases place <;> rfl

theorem quiet_throw (h : s.settled = true) : Quiet s.throw :=
  .inr ⟨by rw [State.throw, settled_enter, h], calm_enter s _⟩

/-- A flag that is not set leads to no signal. -/
theorem quiet_test
    (hsettled : s.settled = true)
    (h : s.test = some s')
    (hcalm : s.point.calm = true) :
    Quiet s' := by
  obtain ⟨hhup, hterm⟩ : s.sighupCalled = false ∧ s.sigtermCalled = false := by
    simpa [State.settled] using hsettled
  unfold State.test at h
  cases hpoint : s.point with
  | retryInt =>
      simp only [hpoint, Option.some.injEq] at h
      subst h
      split
      · exact .inr ⟨hsettled, rfl⟩
      · exact quiet_throw hsettled
  | reportTerm ending =>
      simp only [hpoint, hterm, Bool.false_eq_true, if_false, Option.some.injEq] at h
      subst h
      cases ending with
      | exited status => exact .inr ⟨hsettled, rfl⟩
      | signalled => exact quiet_throw hsettled
      | dumped => exact quiet_throw hsettled
      | failed => exact quiet_throw hsettled
  | headHup | headTerm | retryHup | retryTerm | reportHup =>
      simp only [hpoint, hhup, hterm, Bool.false_eq_true, if_false, Option.some.injEq] at h
      subst h
      exact .inr ⟨by simp [State.settled, *], rfl⟩
  | choose => simp [hpoint, Point.calm] at hcalm
  | ready | ended | kill | waitpid | clear | throwing | returned => simp [hpoint] at h

/-- **What an action does where no child gets a signal.** -/
theorem quiet_step
    (s : State) (a : Action) (s' : State)
    (hs : Quiet s)
    (ha : a.delivers = false)
    (h : step s a = some s') :
    Quiet s' := by
  rcases hs with hended | ⟨hsettled, hcalm⟩
  · -- nothing follows but calls of the handlers
    cases a <;> simp [step, hended, State.test, State.passes, Point.between] at h
    subst h
    rename_i sig
    cases sig <;> exact .inl hended
  · cases a with
    | delivered sig =>
        cases sig with
        | sigint =>
            cases h
            exact .inr ⟨hsettled, hcalm⟩
        | sighup => cases ha
        | sigterm => cases ha
    | test => exact quiet_test hsettled h hcalm
    | sent stage sig =>
        simp only [step, Option.ite_none_right_eq_some] at h
        simp [h.1.1, Point.calm] at hcalm
    | threw sig =>
        simp only [step, Option.ite_none_right_eq_some] at h
        simp [h.1, Point.calm] at hcalm
    | cleared =>
        unfold step at h
        cases hpoint : s.point <;> simp [hpoint, Point.calm] at h hcalm
    | fork | interrupted | reaped | leave =>
        simp only [step, Option.ite_none_right_eq_some, Option.some.injEq] at h
        obtain ⟨-, rfl⟩ := h
        exact .inr ⟨hsettled, rfl⟩
    | waitFailed | fail =>
        simp only [step, Option.ite_none_right_eq_some, Option.some.injEq] at h
        obtain ⟨-, rfl⟩ := h
        exact quiet_throw hsettled
    | pass =>
        simp only [step, Option.ite_none_right_eq_some, Option.some.injEq] at h
        obtain ⟨-, rfl⟩ := h
        exact .inr ⟨by rw [settled_enter, hsettled], calm_enter s _⟩

theorem not_sent_of_quiet
    (hs : Quiet s)
    (stage : Stage) (sig : Signal) :
    step s (.sent stage sig) = none := by
  have hpoint : s.point ≠ .kill sig := by
    rintro hpoint
    rcases hs with hended | ⟨-, hcalm⟩
    · simp [hpoint] at hended
    · simp [hpoint, Point.calm] at hcalm
  simp [step, hpoint]

/-- **Stop scripts are spared** after a state in which no child gets a signal. -/
theorem sparesStop_of_quiet
    (hs : Quiet s) :
    s.SparesStop := by
  intro between sig after s' h
  by_contra hnone
  simp only [not_exists, not_and, Bool.not_eq_true] at hnone
  obtain ⟨s₁, hbetween, hrest⟩ := ActionRun.run_append.mp h
  obtain ⟨s₂, hsent, -⟩ := ActionRun.run_cons_eq_some.mp hrest
  have hquiet := ActionRun.run_keeps quiet_step hs hnone hbetween
  rw [not_sent_of_quiet hquiet] at hsent
  cases hsent

/-- **A signal that waits is passed on to the stop scripts**, if there are any. -/
theorem not_sparesStop_of_pending
    (hplace : s.place = .cleanup)
    (hpoint : s.point = .ready)
    (hpending : s.settled = false) :
    ¬ s.SparesStop := by
  intro hspares
  cases hhup : s.sighupCalled with
  | true =>
      have hrun : (ActionRun.run step s
          ([.fork, .test, .test] ++ [.sent (.setup .setupStop) .sighup])).isSome := by
        simp [ActionRun.run, step, State.test, State.caught, hpoint, hplace, hhup, Place.stage]
      obtain ⟨s', hs'⟩ := Option.isSome_iff_exists.mp hrun
      obtain ⟨a, ha, hdelivers⟩ := hspares _ _ _ _ hs'
      simp only [List.mem_cons, List.not_mem_nil, or_false] at ha
      rcases ha with rfl | rfl | rfl <;> cases hdelivers
  | false =>
      have hterm : s.sigtermCalled = true := by
        simpa [State.settled, hhup] using hpending
      have hrun : (ActionRun.run step s
          ([.fork, .test, .test, .test] ++ [.sent (.setup .setupStop) .sigterm])).isSome := by
        simp [ActionRun.run, step, State.test, State.caught, hpoint, hplace, hhup, hterm,
          Place.stage]
      obtain ⟨s', hs'⟩ := Option.isSome_iff_exists.mp hrun
      obtain ⟨a, ha, hdelivers⟩ := hspares _ _ _ _ hs'
      simp only [List.mem_cons, List.not_mem_nil, or_false] at ha
      rcases ha with rfl | rfl | rfl | rfl <;> cases hdelivers

theorem throw_of_threw
    (h : step s (.threw sig) = some s') :
    s' = s.throw := by
  simp only [step, Option.ite_none_right_eq_some, Option.some.injEq] at h
  exact h.2.symm

/-- **After a signal is reported**, the stop scripts are spared if and only if none waits to be
passed on, or these are the stop scripts already. -/
theorem sparesStop_throw_iff (s : State) :
    s.throw.SparesStop ↔ s.settled = true ∨ s.place.stage = .setup .setupStop := by
  constructor
  · intro hspares
    by_contra hnot
    rw [not_or, Bool.not_eq_true] at hnot
    obtain ⟨hpending, hstage⟩ := hnot
    have hplace : s.place.onError = some .cleanup := by
      cases hplace : s.place <;> simp [hplace, Place.stage, Place.onError] at hstage ⊢
    refine not_sparesStop_of_pending ?_ ?_ ?_ hspares
    · rw [State.throw, hplace]
      rfl
    · rw [State.throw, hplace]
      rfl
    · rw [State.throw, settled_enter, hpending]
  · rintro (hsettled | hstage)
    · exact sparesStop_of_quiet (quiet_throw hsettled)
    · have hplace : s.place.onError = none := by
        cases hplace : s.place <;> simp [hplace, Place.stage, Place.onError] at hstage ⊢
      refine sparesStop_of_quiet (.inl ?_)
      rw [State.throw, hplace]
      rfl

/-- **When the stop scripts get no signal that was reported before**, whatever follows. -/
theorem spared_iff
    (h : run actions = some s) :
    Spared actions ↔ Settled actions := by
  have hthrow : ∀ before sig after, actions = before ++ .threw sig :: after →
      ∃ s₁, run before = some s₁ ∧ run (before ++ [.threw sig]) = some s₁.throw := by
    intro before sig after hactions
    rw [hactions] at h
    obtain ⟨s₁, hbefore, hrest⟩ := ActionRun.run_append.mp h
    obtain ⟨s₂, hthrew, -⟩ := ActionRun.run_cons_eq_some.mp hrest
    obtain rfl := throw_of_threw hthrew
    refine ⟨s₁, hbefore, ActionRun.run_append.mpr ⟨s₁, hbefore, ?_⟩⟩
    simp [ActionRun.run, hthrew]
  constructor
  · intro hspared before sig after hactions s₁ hs₁
    obtain ⟨s₂, hbefore, hafter⟩ := hthrow before sig after hactions
    obtain rfl : s₁ = s₂ := Option.some.inj (hs₁.symm.trans hbefore)
    exact (sparesStop_throw_iff s₁).mp (hspared before sig after hactions _ hafter)
  · intro hsettled before sig after hactions s₁ hs₁
    obtain ⟨s₂, hbefore, hafter⟩ := hthrow before sig after hactions
    obtain rfl : s₁ = s₂.throw := Option.some.inj (hs₁.symm.trans hafter)
    exact (sparesStop_throw_iff s₂).mpr (hsettled before sig after hactions s₂ hbefore)

/-- One signal is passed on to the start scripts, and reported. -/
def oneReported : List Action :=
  [.fork, .test, .test, .delivered .sighup, .interrupted, .test, .test, .test,
    .sent (.setup .setupStart) .sighup, .reaped .signalled, .test, .cleared, .threw .sighup]

theorem spared_iff_one :
    ∃ s, run oneReported = some s ∧ (Spared oneReported ↔ Settled oneReported) := by
  have hrun : (run oneReported).isSome = true := by decide
  obtain ⟨s, hs⟩ := Option.isSome_iff_exists.mp hrun
  exact ⟨s, hs, spared_iff hs⟩

/-- Two signals are delivered while the start scripts run, and one of them is passed on. -/
def bothDelivered : List Action :=
  [.fork, .test, .test, .delivered .sighup, .delivered .sigterm, .interrupted, .test, .test, .test,
    .sent (.setup .setupStart) .sighup, .reaped .signalled, .test, .cleared]

/-- The stop scripts get a signal. -/
def stopKilled : List Action :=
  [.fork, .test, .test, .test, .sent (.setup .setupStop) .sigterm]

/-- **One of two signals is reported, and the other one is passed on to the stop scripts**,
although none was delivered in between. -/
theorem not_spared_both :
    (run (bothDelivered ++ .threw .sighup :: stopKilled)).isSome = true ∧
      ¬ ∀ actions s, run actions = some s → Spared actions := by
  have hrun : (run (bothDelivered ++ .threw .sighup :: stopKilled)).isSome = true := by decide
  refine ⟨hrun, fun h => ?_⟩
  obtain ⟨s, hs⟩ := Option.isSome_iff_exists.mp hrun
  have hspared := h _ s hs bothDelivered .sighup stopKilled rfl
  rw [run, List.append_cons] at hs
  obtain ⟨s₁, hthrew, hstop⟩ := ActionRun.run_append.mp hs
  obtain ⟨a, ha, hdelivers⟩ :=
    hspared s₁ hthrew [.fork, .test, .test, .test] .sigterm [] s hstop
  simp only [List.mem_cons, List.not_mem_nil, or_false] at ha
  rcases ha with rfl | rfl | rfl | rfl <;> cases hdelivers

end Scripts

end WaitForChild

end Schroot
