import Schroot.SessionAccess
import Schroot.SetupStage

/-!
# Stopping what was started

In the automatic operation a chroot whose setup-start scripts have run is to be stopped
exactly once.  Whether it is depends on the exception that is on its way: only a
`session::error` leads to the setup-stop stage.

**Results.**
* `runEntry_stages`: one chroot.
* `runEntries_stages`: the loop, by induction on the chroots.
* `stops_iff`: the exact condition for the stop stage.
-/

namespace Schroot

open Effect SessionM

namespace Session

section Stages

/-- The setup-start scripts of a chroot have been executed. -/
def StartScriptsRun (i : Nat) (trace : List Event) : Prop :=
  ∃ args env outcome, .scripts i .setupStart args env outcome ∈ trace

instance (i : Nat) (trace : List Event) : Decidable (StartScriptsRun i trace) :=
  decidable_of_iff
    (trace.any fun ev =>
      match ev with
      | .scripts j .setupStart _ _ _ => j = i
      | _ => false)
    (by
      rw [List.any_eq_true, StartScriptsRun]
      constructor
      · rintro ⟨ev, hmem, hev⟩
        split at hev
        · exact ⟨_, _, _, of_decide_eq_true hev ▸ hmem⟩
        · cases hev
      · rintro ⟨args, env, outcome, hmem⟩
        exact ⟨_, hmem, decide_eq_true rfl⟩)

/-- A lock or unlock of a chroot has failed. -/
def LockFailed (i : Nat) (trace : List Event) : Prop :=
  ∃ stage, .lockFailed i stage ∈ trace

instance (i : Nat) (trace : List Event) : Decidable (LockFailed i trace) :=
  decidable_of_iff
    (trace.any fun ev =>
      match ev with
      | .lockFailed j _ => j = i
      | _ => false)
    (by
      rw [List.any_eq_true, LockFailed]
      constructor
      · rintro ⟨ev, hmem, hev⟩
        split at hev
        · exact ⟨_, of_decide_eq_true hev ▸ hmem⟩
        · cases hev
      · rintro ⟨stage, hmem⟩
        exact ⟨_, hmem, decide_eq_true rfl⟩)

/-- How often a chroot was to be stopped. -/
def stops (i : Nat) (trace : List Event) : Nat :=
  trace.count (.setup i .setupStop)

/-- The unlocking after the setup-start scripts fails because the device of an LVM
snapshot cannot be found. -/
def StartUnlockLost (w : World) (i : Nat) (c : Chroot) : Prop :=
  c.kind.typeName = "lvm-snapshot" ∧ (w.outcomes.stage i .setupStart).unlockStat = none

/-- The session of the authentication library is opened and closed. -/
def OpensAndCloses (w : World) (i : Nat) : Prop :=
  w.outcomes.authFails (.openSession i) = false ∧ w.outcomes.authFails (.closeSession i) = false

/-- The outcomes that lead to the stop stage once the setup-start scripts have run. -/
def LeadsToStop (w : World) (i : Nat) (c : Chroot) : Prop :=
  match (w.outcomes.stage i .setupStart).scripts with
  | .forkFailed => False
  | .waitFailed _ _ => True
  | .exited status =>
      ¬ StartUnlockLost w i c ∧ (status ≠ 0 ∨ OpensAndCloses w i)

/-- Nothing is claimed: the setup-start scripts have not run, or a lock has failed. -/
def Excused (i : Nat) (trace : List Event) : Prop :=
  ¬ StartScriptsRun i trace ∨ LockFailed i trace

end Stages

section Start

variable {w : World} {i : Nat} {c : Chroot} {s : SessionState}

/-- Unlocking the start stage of an LVM snapshot looks at its device again. -/
theorem unlock_setupStart_lvm
    {l : LvmSnapshot}
    (hl : c.kind = .lvmSnapshot l)
    (status : Nat) :
    Wp (c.unlock w i .setupStart status)
      (fun _ s' => s' = s ∧ (w.outcomes.stage i .setupStart).unlockStat ≠ none)
      (fun e s' => s' = s ∧ (e.isChroot = true ∨ (e.isChroot = false ∧ e.isSession = false ∧
        (w.outcomes.stage i .setupStart).unlockStat = none))) s := by
  have hlock : c.unlock w i .setupStart status =
      c.lvmSnapshotLock w i (w.outcomes.stage i .setupStart) l .setupStart false status := by
    simp only [Chroot.unlock, Chroot.setupLock, hl]
  rw [hlock, Chroot.lvmSnapshotLock, if_neg (by simp)]
  by_cases hdevice : Chroot.lvmLockDevice l .setupStart = ""
  · simp only [hdevice, if_true]
    exact ⟨rfl, .inl rfl⟩
  · simp only [hdevice, if_false, wp_bind]
    unfold Chroot.checkDevice
    rw [wp_catching]
    cases hstat : (w.outcomes.stage i .setupStart).unlockStat with
    | none => exact ⟨rfl, .inr ⟨rfl, rfl, rfl⟩⟩
    | some found =>
        simp only [Bool.false_eq_true, if_false]
        cases hblock : found.isBlock
        · exact ⟨rfl, .inl rfl⟩
        · simp [wp_pure, Chroot.wp_sessionLock, Chroot.changesSessionInfo]

/-- **Unlocking the start stage.** -/
theorem unlockStage_setupStart_spec (status : Nat) :
    Wp (unlockStage w i c .setupStart status)
      (fun _ s' => s' = s ∧ ¬ StartUnlockLost w i c)
      (fun e s' => LockFailed i s'.trace ∨
        (s' = s ∧ e.isSession = false ∧ StartUnlockLost w i c)) s := by
  rw [unlockStage, wp_catching]
  by_cases hk : c.kind.typeName = "lvm-snapshot"
  · obtain ⟨l, hl⟩ : ∃ l, c.kind = .lvmSnapshot l := by
      cases h : c.kind <;> simp [h, ChrootKind.typeName] at hk ⊢
    refine wp_mono (unlock_setupStart_lvm hl status) ?_ ?_
    · rintro _ _ ⟨rfl, hfound⟩
      exact ⟨rfl, fun h => hfound h.2⟩
    · rintro e _ ⟨rfl, he | ⟨he, hsession, hnone⟩⟩
      · rw [if_pos he]
        exact .inl ⟨.setupStart, by simp⟩
      · rw [if_neg (by simp [he])]
        exact .inr ⟨rfl, hsession, hk, hnone⟩
  · have hlost : ¬ StartUnlockLost w i c := fun h => hk h.1
    refine Chroot.wp_setupLock (fun _ => ⟨rfl, hlost⟩) (fun _ hchecks => ?_)
      (fun _ _ hchanges => ?_) (fun _ _ _ => ⟨rfl, hlost⟩)
    · unfold Chroot.lockChecks at hchecks
      cases h : c.kind <;> simp [h, ChrootKind.typeName] at hk hchecks
    · simp [Chroot.changesSessionInfo] at hchanges

/-- A state from which the chroot can still be stopped for the first time. -/
structure Started (i : Nat) (s : SessionState) : Prop where
  stops : stops i s.trace = 0
  lockStatus : s.lockStatus = true

/-- What is known when an exception leaves the start stage. -/
def StartFailed (w : World) (i : Nat) (c : Chroot) (e : Exn) (s : SessionState) : Prop :=
  Excused i s.trace ∨
    (Started i s ∧ c.runSetupScripts = true ∧
      ((e.isSession = true ∧ LeadsToStop w i c) ∨
        (e.isSession = false ∧ ¬ LeadsToStop w i c)))

/-- What is known when the start stage has succeeded. -/
def StartDone (w : World) (i : Nat) (c : Chroot) (s : SessionState) : Prop :=
  s.lockStatus = true ∧
    (Excused i s.trace ∨
      (Started i s ∧ c.runSetupScripts = true ∧
        (LeadsToStop w i c ↔ OpensAndCloses w i)))

/-- Before the start stage nothing is noted of a chroot. -/
def Fresh (i : Nat) (s : SessionState) : Prop :=
  s.lockStatus = true ∧ ¬ StartScriptsRun i s.trace ∧ stops i s.trace = 0

/-- Events other than the setup-start scripts keep a chroot excused. -/
theorem Excused.append
    {trace evs : List Event}
    (h : Excused i trace)
    (hevs : ∀ args env outcome, .scripts i .setupStart args env outcome ∉ evs) :
    Excused i (trace ++ evs) := by
  rcases h with h | ⟨stage, h⟩
  · refine .inl fun ⟨args, env, outcome, hmem⟩ => ?_
    rcases List.mem_append.mp hmem with hmem | hmem
    · exact h ⟨args, env, outcome, hmem⟩
    · exact hevs args env outcome hmem
  · exact .inr ⟨stage, List.mem_append_left _ h⟩

/-- **The start stage.** -/
theorem stageBody_setupStart_spec
    (hscripts : c.runSetupScripts = true)
    (hs : Fresh i s) :
    Wp (stageBody w i c .setupStart) (fun _ s' => StartDone w i c s')
      (fun e s' => StartFailed w i c e s') s := by
  obtain ⟨hlock, hfresh, hstops⟩ := hs
  have hnone : ∀ evs, LockEvents i .setupStart true 0 evs →
      (∀ args env outcome, .scripts i .setupStart args env outcome ∉ evs) ∧ stops i evs = 0 := by
    rintro evs (rfl | ⟨-, rfl⟩) <;> simp [stops]
  rw [stageBody, wp_bind]
  refine wp_mono (lockStage_spec .setupStart) ?_ ?_
  · intro _ s₁ h₁
    obtain ⟨evs₁, htrace₁, hevs₁⟩ := LockFrame.exists_events h₁
    obtain ⟨hno₁, hstops₁⟩ := hnone evs₁ hevs₁
    have hexcused₁ : Excused i s₁.trace := htrace₁ ▸ Excused.append (.inl hfresh) hno₁
    have hstarted : ∀ ev, ev ≠ .setup i .setupStop → stops i (s₁.trace ++ [ev]) = 0 := by
      intro ev hev
      simp only [stops] at hstops hstops₁ ⊢
      rw [htrace₁]
      simp [List.count_append, hstops, hstops₁, hev]
    rw [wp_bind]
    refine wp_mono (runScripts_spec .setupStart) ?_ ?_
    · rintro _ _ ⟨args, env, code, hcode, rfl, rfl⟩
      have hs₂ : Started i (s₁.note (.scripts i .setupStart args env (.exited code))) :=
        ⟨hstarted _ (by simp), h₁.lockStatus.trans hlock⟩
      rw [wp_bind]
      refine wp_mono (unlockStage_setupStart_spec code.val) ?_ ?_
      · rintro _ _ ⟨rfl, hlost⟩
        split
        · rename_i hne
          have hne' : code ≠ 0 := fun h => hne (by simp [h])
          refine .inr ⟨⟨hs₂.stops, hs₂.lockStatus⟩, hscripts, .inl ⟨rfl, ?_⟩⟩
          simp only [LeadsToStop, hcode]
          exact ⟨hlost, .inl hne'⟩
        · rename_i heq
          have heq' : code = 0 := Fin.ext (by simpa using heq)
          refine ⟨hs₂.lockStatus, .inr ⟨hs₂, hscripts, ?_⟩⟩
          simp only [LeadsToStop, hcode]
          simp [hlost, heq']
      · rintro e s₃ (hfailed | ⟨rfl, he, hlost⟩)
        · exact .inl (.inr hfailed)
        · refine .inr ⟨hs₂, hscripts, .inr ⟨he, ?_⟩⟩
          simp only [LeadsToStop, hcode]
          exact fun h => h.1 hlost
    · rintro e s₂ ⟨-, hlock₂, -, htrace | ⟨args, env, code, signalled, hout, he, htrace⟩⟩
      · exact .inl (htrace ▸ hexcused₁)
      · refine .inr ⟨⟨?_, hlock₂.trans (h₁.lockStatus.trans hlock)⟩, hscripts, .inl ⟨he, ?_⟩⟩
        · rw [htrace]
          exact hstarted _ (by simp)
        · simp only [LeadsToStop, hout]
  · rintro e s₁ ⟨-, -, evs, hevs, ⟨evs', -, htrace⟩ | ⟨-, htrace⟩⟩
    · exact .inl (.inr ⟨.setupStart, by simp [htrace]⟩)
    · exact .inl (htrace ▸ Excused.append (.inl hfresh) (hnone evs hevs).1)

end Start

section Entry

variable {w : World} {i : Nat} {c : Chroot} {s : SessionState}

/-- How a run can leave a chroot: excused, or stopped once or never, as the outcomes
say. -/
def Settled (w : World) (i : Nat) (c : Chroot) (trace : List Event) : Prop :=
  Excused i trace ∨ (stops i trace = 1 ∧ LeadsToStop w i c) ∨
    (stops i trace = 0 ∧ ¬ LeadsToStop w i c)

/-- Notes of calls change nothing. -/
theorem excused_note_call
    (call : Call) (n : Nat) (failure : Option Exn)
    (h : Excused i s.trace) :
    Excused i (s.note (.call call n failure)).trace :=
  Excused.append h (by simp)

theorem stops_note_call (call : Call) (n : Nat) (failure : Option Exn) :
    stops i (s.note (.call call n failure)).trace = stops i s.trace := by
  simp [stops]

theorem Started.note_call
    (h : Started i s)
    (call : Call) (n : Nat) (failure : Option Exn) :
    Started i (s.note (.call call n failure)) :=
  ⟨(stops_note_call call n failure).trans h.stops, h.lockStatus⟩

/-- **The start step.** -/
theorem setupStep_setupStart_spec
    (hs : Fresh i s) :
    Wp (setupStep w i c .setupStart) (fun _ s' => StartDone w i c s')
      (fun e s' => StartFailed w i c e s') s := by
  rw [setupStep, wp_call, setupChroot, wp_bind, wp_get, wp_ite]
  split
  · rename_i henters
    have hscripts : c.runSetupScripts = true := by
      simp only [entersStage, Bool.and_eq_true] at henters
      exact henters.2
    rw [wp_setupStage]
    have hs' : Fresh i { s.note (.setup i .setupStart) with chrootStatus := true } := by
      obtain ⟨hlock, hfresh, hstops⟩ := hs
      refine ⟨hlock, ?_, ?_⟩
      · rintro ⟨args, env, outcome, hmem⟩
        rcases List.mem_append.mp hmem with hmem | hmem
        · exact hfresh ⟨args, env, outcome, hmem⟩
        · simp at hmem
      · simpa [stops] using hstops
    refine wp_mono (stageBody_setupStart_spec hscripts hs') ?_ ?_
    · rintro _ s' ⟨hlock, h | ⟨h, hrest⟩⟩
      · exact ⟨hlock, .inl (excused_note_call _ _ _ h)⟩
      · exact ⟨hlock, .inr ⟨h.note_call _ _ _, hrest⟩⟩
    · rintro e s' (h | ⟨h, hrest⟩)
      · exact .inl (excused_note_call _ _ _ h)
      · exact .inr ⟨h.note_call _ _ _, hrest⟩
  · exact ⟨hs.1, .inl (excused_note_call _ _ _ (.inl hs.2.1))⟩

/-- The events of another stage keep a chroot excused. -/
theorem Excused.of_stageFrame
    {j : Nat} {stage : SetupType} {s' : SessionState}
    (h : Excused i s.trace)
    (hother : stage ≠ .setupStart ∨ j ≠ i)
    (hframe : StageFrame j stage s s') :
    Excused i s'.trace := by
  obtain ⟨evs, htrace, hevs⟩ := hframe.trace
  rw [htrace]
  refine h.append fun args env outcome hmem => ?_
  rcases hevs _ hmem with he | he
  · cases he
  · cases he
    exact hother.elim (fun h => h rfl) (fun h => h rfl)

/-- **The stop step** of a chroot that has been started notes the one stop. -/
theorem setupStep_setupStop_spec
    (hop : w.session.operation = .opAutomatic)
    (hscripts : c.runSetupScripts = true)
    (hs : Started i s) :
    Wp (setupStep w i c .setupStop) (fun _ s' => stops i s'.trace = 1)
      (fun _ s' => stops i s'.trace = 1) s := by
  have henters : entersStage w c .setupStop s = true := by
    simp [entersStage, performs, hop, hscripts, hs.lockStatus]
  have hbody : ∀ s' : SessionState, ∀ failure, BodyFrame i .setupStop
      { s.note (.setup i .setupStop) with chrootStatus := s.chrootStatus } s' →
        stops i (s'.note (.call (.setupChroot i .setupStop) s.childStatus failure)).trace = 1 := by
    rintro s' failure ⟨-, evs, htrace, hevs⟩
    have hcount : evs.count (.setup i .setupStop) = 0 := by
      rw [List.count_eq_zero]
      intro hmem
      cases hevs _ hmem
    have hstops := hs.stops
    rw [stops_note_call]
    simp only [stops] at hstops ⊢
    rw [htrace, SessionState.note_trace]
    simp [hcount, hstops]
  rw [setupStep, wp_call, setupChroot, wp_bind, wp_get, wp_ite, if_pos henters, wp_setupStage]
  exact wp_mono (stageBody_frame .setupStop) (fun _ s' h => hbody s' _ h)
    (fun e s' h => hbody s' _ h.1)

/-- A step that is no step of this chroot's start stage keeps it excused. -/
theorem setupStep_excused
    (stage : SetupType)
    (hstage : stage ≠ .setupStart)
    (hs : Excused i s.trace) :
    Wp (setupStep w i c stage) (fun _ s' => Excused i s'.trace)
      (fun _ s' => Excused i s'.trace) s := by
  rw [setupStep, wp_call]
  exact wp_mono (setupChroot_frame stage)
    (fun _ _ h => excused_note_call _ _ _ (hs.of_stageFrame (.inl hstage) h))
    (fun _ _ h => excused_note_call _ _ _ (hs.of_stageFrame (.inl hstage) h.1))

/-- The recover stage does nothing here. -/
theorem setupStep_setupRecover_spec
    (hop : w.session.operation = .opAutomatic)
    {Q : Unit → SessionState → Prop} {E : Exn → SessionState → Prop} :
    Wp (setupStep w i c .setupRecover) Q E s ↔
      Q () (s.note (.call (.setupChroot i .setupRecover) s.childStatus none)) := by
  have henters : entersStage w c .setupRecover s = false := by
    simp [entersStage, performs, hop]
  rw [setupStep, wp_call, setupChroot, wp_bind, wp_get, wp_ite, henters]
  rfl

end Entry

section Command

variable {w : World} {i : Nat} {s : SessionState}

/-- What is said here of a chroot stays as it is. -/
structure SameFor (i : Nat) (s s' : SessionState) : Prop where
  scripts : StartScriptsRun i s'.trace ↔ StartScriptsRun i s.trace
  lockFailed : LockFailed i s'.trace ↔ LockFailed i s.trace
  stops : stops i s'.trace = stops i s.trace

theorem SameFor.refl (i : Nat) (s : SessionState) : SameFor i s s :=
  ⟨Iff.rfl, Iff.rfl, rfl⟩

theorem SameFor.trans
    {s₁ s₂ s₃ : SessionState}
    (h : SameFor i s₁ s₂)
    (h' : SameFor i s₂ s₃) :
    SameFor i s₁ s₃ :=
  ⟨h'.scripts.trans h.scripts, h'.lockFailed.trans h.lockFailed, h'.stops.trans h.stops⟩

/-- The events of a chroot in one of its stages. -/
def IsStageEventOf (i : Nat) : Event → Prop
  | .setup j _ => j = i
  | .lockFailed j _ => j = i
  | .scripts j _ _ _ _ => j = i
  | _ => False

/-- Events that are not about the stages of a chroot change nothing. -/
theorem SameFor.of_trace
    {s' : SessionState} {evs : List Event}
    (htrace : s'.trace = s.trace ++ evs)
    (hevs : ∀ ev ∈ evs, ¬ IsStageEventOf i ev) :
    SameFor i s s' := by
  refine ⟨?_, ?_, ?_⟩
  · constructor
    · rintro ⟨args, env, outcome, hmem⟩
      rw [htrace] at hmem
      rcases List.mem_append.mp hmem with hmem | hmem
      · exact ⟨args, env, outcome, hmem⟩
      · exact absurd rfl (hevs _ hmem)
    · rintro ⟨args, env, outcome, hmem⟩
      exact ⟨args, env, outcome, by simp [htrace, hmem]⟩
  · constructor
    · rintro ⟨stage, hmem⟩
      rw [htrace] at hmem
      rcases List.mem_append.mp hmem with hmem | hmem
      · exact ⟨stage, hmem⟩
      · exact absurd rfl (hevs _ hmem)
    · rintro ⟨stage, hmem⟩
      exact ⟨stage, by simp [htrace, hmem]⟩
  · have hcount : evs.count (.setup i .setupStop) = 0 := by
      rw [List.count_eq_zero]
      exact fun hmem => absurd rfl (hevs _ hmem)
    simp [Session.stops, htrace, hcount]

/-- Nothing but calls is noted, and no lock fails. -/
def OnlyCalls (s s' : SessionState) : Prop :=
  s'.lockStatus = s.lockStatus ∧ ∀ i, SameFor i s s'

theorem OnlyCalls.refl (s : SessionState) : OnlyCalls s s :=
  ⟨rfl, fun i => .refl i s⟩

theorem OnlyCalls.trans
    {s₁ s₂ s₃ : SessionState}
    (h : OnlyCalls s₁ s₂)
    (h' : OnlyCalls s₂ s₃) :
    OnlyCalls s₁ s₃ :=
  ⟨h'.1.trans h.1, fun i => (h.2 i).trans (h'.2 i)⟩

theorem OnlyCalls.note_call
    {s' : SessionState}
    (h : OnlyCalls s s')
    (call : Call) (n : Nat) (failure : Option Exn) :
    OnlyCalls s (s'.note (.call call n failure)) := by
  refine h.trans ⟨rfl, fun i => SameFor.of_trace rfl ?_⟩
  intro ev hev
  cases List.mem_singleton.mp hev
  exact id

/-- A step whose body keeps to calls does so itself. -/
theorem onlyCalls_call
    {α : Type} {x : SessionM α}
    (c : Call)
    (hx : Within OnlyCalls x) :
    Within OnlyCalls (call c x) := by
  intro s
  rw [wp_call]
  exact wp_mono (hx s) (fun _ _ h => h.note_call _ _ _) (fun _ _ h => h.note_call _ _ _)

theorem onlyCalls_authCall (c : AuthCall) : Within OnlyCalls (authCall w c) := by
  intro s
  rw [authCall, wp_authStep]
  split
  · exact (OnlyCalls.refl s).note_call _ _ _
  · exact (OnlyCalls.refl s).note_call _ _ _

theorem onlyCalls_runChroot : Within OnlyCalls (runChroot w i) := by
  intro s
  unfold runChroot
  cases w.outcomes.command i with
  | forkFailed => exact .refl s
  | waitFailed code signalled => exact ⟨rfl, fun i => ⟨Iff.rfl, Iff.rfl, rfl⟩⟩
  | exited status => exact ⟨rfl, fun i => ⟨Iff.rfl, Iff.rfl, rfl⟩⟩

theorem onlyCalls_runCommand : Within OnlyCalls (runCommand w i) := by
  have hclose : Within OnlyCalls (authCall w (.closeSession i)) := onlyCalls_authCall _
  refine within_bind (R := OnlyCalls) OnlyCalls.trans ?_ (fun _ => hclose)
  refine within_onError (R := OnlyCalls) OnlyCalls.trans ?_ hclose
  exact within_bind (R := OnlyCalls) OnlyCalls.trans (onlyCalls_authCall _)
    (fun _ => onlyCalls_call _ onlyCalls_runChroot)

/-- **Running the command** ends with a `session::error`, if it does not return, exactly
when the session of the authentication library is opened and closed. -/
theorem runCommand_spec :
    Wp (runCommand w i) (fun _ _ => OpensAndCloses w i)
      (fun e _ => e.isSession = true ↔ OpensAndCloses w i) s := by
  have hclose : ∀ {s : SessionState} {P : Prop}, (w.outcomes.authFails (.closeSession i) = false → P) →
      Wp (authCall w (.closeSession i)) (fun _ _ => P)
        (fun e _ => e.isSession = true ↔ OpensAndCloses w i) s := by
    intro s P hP
    rw [authCall, wp_authStep]
    cases hcloses : w.outcomes.authFails (.closeSession i)
    · exact hP hcloses
    · simp [OpensAndCloses, hcloses, Exn.isSession]
  rw [runCommand, wp_bind, wp_onError, wp_bind, authCall, wp_authStep]
  cases hopens : w.outcomes.authFails (.openSession i)
  · rw [if_neg Bool.false_ne_true, wp_call]
    have hbody : ∀ {s : SessionState}, Wp (runChroot w i) (fun _ _ => True)
        (fun e _ => e.isSession = true) s := by
      intro s
      unfold runChroot
      cases w.outcomes.command i <;> trivial
    refine wp_mono hbody (fun _ s' _ => hclose fun hcloses => ⟨hopens, hcloses⟩) ?_
    intro e s' he
    rw [if_pos rfl]
    exact hclose fun hcloses => iff_of_true he ⟨hopens, hcloses⟩
  · rw [if_pos rfl, if_pos rfl]
    refine hclose fun _ => ?_
    simp [OpensAndCloses, hopens, Exn.isSession]

end Command

section Others

variable {w : World} {i j : Nat} {c : Chroot} {entry : ChrootEntry} {s : SessionState}

/-- The stages of other chroots change nothing. -/
theorem sameFor_setupStep
    (hji : j ≠ i)
    (stage : SetupType) :
    Within (SameFor i) (setupStep w j c stage) := by
  have hframe : ∀ {s s' : SessionState} (failure : Option Exn), StageFrame j stage s s' →
      SameFor i s (s'.note (.call (.setupChroot j stage) s.childStatus failure)) := by
    rintro s s' failure ⟨-, evs, htrace, hevs⟩
    have hnoted : (s'.note (.call (.setupChroot j stage) s.childStatus failure)).trace =
        s.trace ++ (evs ++ [.call (.setupChroot j stage) s.childStatus failure]) := by
      simp [htrace]
    refine SameFor.of_trace hnoted (fun ev hev => ?_)
    rcases List.mem_append.mp hev with hev | hev
    · rcases hevs ev hev with rfl | hev
      · exact hji
      · cases hev with
        | lockFailed => exact hji
        | scripts args env outcome => exact hji
        | created h => exact id
        | removed h => exact id
    · cases List.mem_singleton.mp hev
      exact id
  intro s
  rw [setupStep, wp_call]
  exact wp_mono (setupChroot_frame stage) (fun _ _ h => hframe none h)
    (fun e _ h => hframe (some e) h.1)

theorem sameFor_startAndRun
    (hji : j ≠ i) :
    Within (SameFor i) (startAndRun w j c) := by
  refine within_bind (R := SameFor i) SameFor.trans (sameFor_setupStep hji _) fun _ => ?_
  refine within_bind (R := SameFor i) SameFor.trans (sameFor_setupStep hji _) fun _ => ?_
  split
  · exact onlyCalls_runCommand.mono fun h => h.2 i
  · exact within_pure (SameFor.refl i) ()

theorem sameFor_runEntry
    (hji : j ≠ i) :
    Within (SameFor i) (runEntry w j entry) := by
  have hstop : ∀ c, Within (SameFor i) (setupStep w j c .setupStop) :=
    fun c => sameFor_setupStep hji _
  have hprepare : Within OnlyCalls
      (call (.prepareChroot j) (Effect.ofExcept (prepareChroot w j entry))) :=
    onlyCalls_call _ (within_ofExcept OnlyCalls.refl _)
  refine within_bind (R := SameFor i) SameFor.trans (hprepare.mono fun h => h.2 i) fun c => ?_
  refine within_bind (R := SameFor i) SameFor.trans ?_ fun _ => ?_
  · exact within_change fun s => ⟨Iff.rfl, Iff.rfl, rfl⟩
  refine within_bind (R := SameFor i) SameFor.trans ?_ fun _ => hstop c
  refine within_onError (R := SameFor i) SameFor.trans (sameFor_startAndRun hji) ?_
  exact within_catching (R := SameFor i) SameFor.trans (hstop c)
    fun _ => within_pure (SameFor.refl i) ()

theorem sameFor_runEntries
    (entries : List ChrootEntry)
    (hi : i < j) :
    Within (SameFor i) (runEntries w j entries) := by
  induction entries generalizing j with
  | nil => exact within_pure (SameFor.refl i) ()
  | cons entry entries ih =>
      exact within_bind (R := SameFor i) SameFor.trans (sameFor_runEntry (Nat.ne_of_gt hi))
        fun _ => ih (Nat.lt_succ_of_lt hi)

/-- A stage that succeeds leaves the locks as they are. -/
theorem setupStep_lockStatus (stage : SetupType) :
    Wp (setupStep w j c stage) (fun _ s' => s'.lockStatus = s.lockStatus)
      (fun _ _ => True) s := by
  rw [setupStep, wp_call, setupChroot, wp_bind, wp_get, wp_ite]
  split
  · rw [wp_setupStage, stageBody, wp_bind]
    refine wp_mono (lockStage_spec stage) (fun _ s₁ h₁ => ?_) (fun _ _ _ => trivial)
    rw [wp_bind]
    refine wp_mono (runScripts_spec stage) ?_ (fun _ _ _ => trivial)
    rintro _ _ ⟨args, env, code, -, rfl, rfl⟩
    rw [wp_bind]
    refine wp_mono (unlockStage_spec stage code.val) (fun _ s₃ h₃ => ?_) (fun _ _ _ => trivial)
    split
    · trivial
    · exact h₃.lockStatus.trans h₁.lockStatus
  · rfl

theorem startAndRun_lockStatus :
    Wp (startAndRun w j c) (fun _ s' => s'.lockStatus = s.lockStatus) (fun _ _ => True) s := by
  rw [startAndRun, wp_bind]
  refine wp_mono (setupStep_lockStatus .setupStart) (fun _ s₁ h₁ => ?_) (fun _ _ _ => trivial)
  rw [wp_bind]
  refine wp_mono (setupStep_lockStatus .setupRecover) (fun _ s₂ h₂ => ?_) (fun _ _ _ => trivial)
  split
  · exact wp_mono (onlyCalls_runCommand s₂) (fun _ _ h₃ => h₃.1.trans (h₂.trans h₁))
      (fun _ _ _ => trivial)
  · exact h₂.trans h₁

theorem runEntry_lockStatus :
    Wp (runEntry w j entry) (fun _ s' => s'.lockStatus = s.lockStatus) (fun _ _ => True) s := by
  rw [runEntry, wp_bind, wp_call, wp_ofExcept]
  cases prepareChroot w j entry with
  | error e => trivial
  | ok c =>
      simp only [wp_bind, wp_change, wp_onError]
      refine wp_mono startAndRun_lockStatus (fun _ s₂ h₂ => ?_) (fun e s₂ _ => ?_)
      · exact wp_mono (setupStep_lockStatus .setupStop) (fun _ _ h₃ => h₃.trans h₂)
          (fun _ _ _ => trivial)
      · split
        · exact wp_true _
        · trivial

end Others

section Runs

variable {w : World} {i : Nat} {c : Chroot} {entry : ChrootEntry} {s : SessionState}

/-- Only the type of the chroot matters. -/
theorem leadsToStop_congr
    {c' : Chroot}
    (h : c'.kind.typeName = c.kind.typeName) :
    LeadsToStop w i c' ↔ LeadsToStop w i c := by
  simp only [LeadsToStop, StartUnlockLost, h]

theorem settled_congr
    {c' : Chroot} {trace : List Event}
    (h : c'.kind.typeName = c.kind.typeName)
    (hc : Settled w i c' trace) :
    Settled w i c trace := by
  unfold Settled at hc ⊢
  rwa [leadsToStop_congr h] at hc

/-- What stays the same for a chroot leaves it settled. -/
theorem Settled.of_sameFor
    {s' : SessionState}
    (h : Settled w i c s.trace)
    (hsame : SameFor i s s') :
    Settled w i c s'.trace := by
  unfold Settled Excused at h ⊢
  rwa [hsame.scripts, hsame.lockFailed, hsame.stops]

theorem Fresh.of_sameFor
    {s' : SessionState}
    (h : Fresh i s)
    (hlock : s'.lockStatus = s.lockStatus)
    (hsame : SameFor i s s') :
    Fresh i s' := by
  unfold Fresh at h ⊢
  rwa [hlock, hsame.scripts, hsame.stops]

/-- What is known when the stages before the stop stage have succeeded. -/
def RunDone (w : World) (i : Nat) (c : Chroot) (s : SessionState) : Prop :=
  Excused i s.trace ∨ (Started i s ∧ c.runSetupScripts = true ∧ LeadsToStop w i c)

/-- Calls change nothing about the start. -/
theorem Started.of_onlyCalls
    {s' : SessionState}
    (h : Started i s)
    (hcalls : OnlyCalls s s') :
    Started i s' :=
  ⟨(hcalls.2 i).stops.trans h.stops, hcalls.1.trans h.lockStatus⟩

theorem Excused.of_onlyCalls
    {s' : SessionState}
    (h : Excused i s.trace)
    (hcalls : OnlyCalls s s') :
    Excused i s'.trace := by
  unfold Excused at h ⊢
  rwa [(hcalls.2 i).scripts, (hcalls.2 i).lockFailed]

/-- **Starting and running** in the automatic operation. -/
theorem startAndRun_spec
    (hop : w.session.operation = .opAutomatic)
    (hs : Fresh i s) :
    Wp (startAndRun w i c) (fun _ s' => RunDone w i c s')
      (fun e s' => StartFailed w i c e s') s := by
  rw [startAndRun, wp_bind]
  refine wp_mono (setupStep_setupStart_spec hs) ?_ (fun _ _ h => h)
  rintro _ s₁ ⟨-, hdone⟩
  rw [wp_bind, setupStep_setupRecover_spec hop, if_pos (.inl hop)]
  have hrecover : OnlyCalls s₁
      (s₁.note (.call (.setupChroot i .setupRecover) s₁.childStatus none)) :=
    (OnlyCalls.refl s₁).note_call _ _ _
  refine wp_mono (wp_and (onlyCalls_runCommand _) runCommand_spec) ?_ ?_
  · rintro _ s₂ ⟨hcalls, hopens⟩
    rcases hdone with h | ⟨h, hscripts, hleads⟩
    · exact .inl (h.of_onlyCalls (hrecover.trans hcalls))
    · exact .inr ⟨h.of_onlyCalls (hrecover.trans hcalls), hscripts, hleads.mpr hopens⟩
  · rintro e s₂ ⟨hcalls, he⟩
    rcases hdone with h | ⟨h, hscripts, hleads⟩
    · exact .inl (h.of_onlyCalls (hrecover.trans hcalls))
    · refine .inr ⟨h.of_onlyCalls (hrecover.trans hcalls), hscripts, ?_⟩
      rw [hleads, ← he]
      cases e.isSession <;> simp

/-- The stop step settles a chroot that is to be stopped. -/
theorem setupStep_setupStop_settled
    (hop : w.session.operation = .opAutomatic)
    (hs : RunDone w i c s) :
    Wp (setupStep w i c .setupStop) (fun _ s' => Settled w i c s'.trace)
      (fun _ s' => Settled w i c s'.trace) s := by
  rcases hs with h | ⟨h, hscripts, hleads⟩
  · exact wp_mono (setupStep_excused .setupStop (by decide) h) (fun _ _ h' => .inl h')
      (fun _ _ h' => .inl h')
  · exact wp_mono (setupStep_setupStop_spec hop hscripts h)
      (fun _ _ h' => .inr (.inl ⟨h', hleads⟩)) (fun _ _ h' => .inr (.inl ⟨h', hleads⟩))

/-- **One chroot.**  However its turn ends, it is settled. -/
theorem runEntry_stages
    (hop : w.session.operation = .opAutomatic)
    (hs : Fresh i s) :
    Wp (runEntry w i entry) (fun _ s' => Settled w i entry.chroot s'.trace)
      (fun _ s' => Settled w i entry.chroot s'.trace) s := by
  have hcall : ∀ failure, OnlyCalls s (s.note (.call (.prepareChroot i) s.childStatus failure)) :=
    fun failure => (OnlyCalls.refl s).note_call _ _ _
  rw [runEntry, wp_bind, wp_call, wp_ofExcept]
  cases hprepare : prepareChroot w i entry with
  | error e =>
      exact .inl (.inl fun h => hs.2.1 (((hcall (some e)).2 i).scripts.mp h))
  | ok c =>
      have hstart : Fresh i
          { s.note (.call (.prepareChroot i) s.childStatus none) with childStatus := 0 } := by
        have hnoted := hs.of_sameFor (hcall none).1 ((hcall none).2 i)
        exact hnoted
      have hsettled : ∀ trace, Settled w i c trace → Settled w i entry.chroot trace :=
        fun trace => settled_congr (typeName_prepareChroot hprepare)
      simp only [wp_bind, wp_change, wp_onError, wp_catching, wp_pure]
      refine wp_mono (startAndRun_spec hop hstart) (fun _ s₂ h₂ => ?_) (fun e s₂ h₂ => ?_)
      · exact wp_mono (setupStep_setupStop_settled hop h₂) (fun _ _ h => hsettled _ h)
          (fun _ _ h => hsettled _ h)
      · have hdrop : ∀ s', Settled w i c s'.trace →
            Settled w i entry.chroot (s' : SessionState).trace := fun s' => hsettled _
        split
        · rename_i he
          have hdone : RunDone w i c s₂ := by
            rcases h₂ with h | ⟨h, hscripts, ⟨-, hleads⟩ | ⟨hne, -⟩⟩
            · exact .inl h
            · exact .inr ⟨h, hscripts, hleads⟩
            · rw [he] at hne
              cases hne
          refine wp_mono (setupStep_setupStop_settled hop hdone) (fun _ s' h => hdrop s' h) ?_
          intro e' s' h
          split
          · exact hdrop s' h
          · exact hdrop s' h
        · rename_i he
          refine hsettled _ ?_
          rcases h₂ with h | ⟨h, -, ⟨hsession, -⟩ | ⟨-, hleads⟩⟩
          · exact .inl h
          · exact absurd hsession he
          · exact .inr (.inr ⟨h.stops, hleads⟩)

/-- **The loop**: every chroot that has not had its turn is settled in the end. -/
theorem runEntries_stages
    (hop : w.session.operation = .opAutomatic)
    (entries : List ChrootEntry)
    (j : Nat)
    (hentry : entries[i - j]? = some entry)
    (hj : j ≤ i)
    (hs : Fresh i s) :
    Wp (runEntries w j entries) (fun _ s' => Settled w i entry.chroot s'.trace)
      (fun _ s' => Settled w i entry.chroot s'.trace) s := by
  induction entries generalizing j s with
  | nil => simp at hentry
  | cons first entries ih =>
      rw [runEntries, wp_bind]
      by_cases hij : j = i
      · subst hij
        simp only [Nat.sub_self, List.getElem?_cons_zero, Option.some.injEq] at hentry
        subst hentry
        refine wp_mono (runEntry_stages hop hs) (fun _ s₁ h₁ => ?_) (fun _ _ h => h)
        exact wp_mono (sameFor_runEntries entries (Nat.lt_succ_self j) s₁)
          (fun _ _ h => h₁.of_sameFor h) (fun _ _ h => h₁.of_sameFor h)
      · have hlt : j < i := Nat.lt_of_le_of_ne hj hij
        have hrest : entries[i - (j + 1)]? = some entry := by
          have hsucc : i - j = (i - (j + 1)) + 1 := by omega
          rwa [hsucc, List.getElem?_cons_succ] at hentry
        refine wp_mono (wp_and (sameFor_runEntry hij s) runEntry_lockStatus) ?_ ?_
        · rintro _ s₁ ⟨hsame, hlock⟩
          exact ih (j + 1) hrest hlt (hs.of_sameFor hlock hsame)
        · rintro e s₁ ⟨hsame, -⟩
          exact .inl (.inl fun h => hs.2.1 (hsame.scripts.mp h))

/-- `run_impl` settles every chroot. -/
theorem runImpl_stages
    (hop : w.session.operation = .opAutomatic)
    (hentry : w.session.chroots[i]? = some entry)
    (hs : Fresh i s) :
    Wp (runImpl w) (fun _ s' => Settled w i entry.chroot s'.trace)
      (fun _ s' => Settled w i entry.chroot s'.trace) s := by
  have hsignals : Within OnlyCalls (call .setSignalHandlers (setSignalHandlers w)) := by
    refine onlyCalls_call _ fun s => ?_
    unfold setSignalHandlers
    split
    · exact .refl s
    · exact .refl s
  have hrepair : ∀ s', Settled w i entry.chroot s'.trace →
      Settled w i entry.chroot (repairStatus s').trace := by
    intro s' h
    unfold repairStatus
    split
    · exact h
    · exact h
  have hloop : Wp (do call .setSignalHandlers (setSignalHandlers w)
                      runEntries w 0 w.session.chroots)
      (fun _ s' => Settled w i entry.chroot s'.trace)
      (fun _ s' => Settled w i entry.chroot s'.trace) s := by
    rw [wp_bind]
    refine wp_mono (hsignals s) (fun _ s₁ h₁ => ?_) (fun _ s₁ h₁ => ?_)
    · exact runEntries_stages hop _ 0 hentry (Nat.zero_le i) (hs.of_sameFor h₁.1 (h₁.2 i))
    · exact .inl (.inl fun h => hs.2.1 ((h₁.2 i).scripts.mp h))
  rw [runImpl, wp_onError]
  refine wp_mono hloop (fun _ _ h => h) (fun e s' h => ?_)
  split
  · exact hrepair s' h
  · exact h

/-- What `run_impl` of a new session notes. -/
def implTrace (w : World) (files : Std.ExtTreeMap String String) : List Event :=
  ((runImpl w).exec { sessionFiles := files }).2.trace

/-- **A chroot whose setup-start scripts have run, and whose locks have not failed, is
stopped exactly once if and only if the outcomes lead to the stop stage.** -/
theorem stops_iff
    (w : World) (files : Std.ExtTreeMap String String) (i : Nat) (entry : ChrootEntry)
    (hop : w.session.operation = .opAutomatic)
    (hentry : w.session.chroots[i]? = some entry)
    (hscripts : StartScriptsRun i (implTrace w files))
    (hlock : ¬ LockFailed i (implTrace w files)) :
    stops i (implTrace w files) = 1 ↔ LeadsToStop w i entry.chroot := by
  have hfresh : Fresh i { sessionFiles := files } := ⟨rfl, by simp [StartScriptsRun], rfl⟩
  have hsettled : Settled w i entry.chroot (implTrace w files) :=
    wp_state (P := fun s' : SessionState => Settled w i entry.chroot s'.trace)
      (runImpl_stages hop hentry hfresh)
  rcases hsettled with h | ⟨hstops, hleads⟩ | ⟨hstops, hleads⟩
  · rcases h with h | h
    · exact absurd hscripts h
    · exact absurd h hlock
  · exact iff_of_true hstops hleads
  · exact iff_of_false (by rw [hstops]; decide) hleads

/-- A chroot that is a session already, in the automatic operation. -/
def automaticWorld (outcomes : Outcomes) : World where
  cfg := .standard
  session :=
    { operation := .opAutomatic
      chroots := [⟨"s", directorySession⟩]
      info := sampleInfo }
  outcomes := outcomes

/-- When nothing fails, the chroot is stopped. -/
theorem stops_smooth :
    stops 0 (implTrace (automaticWorld smoothOutcomes) ∅) = 1 ↔
      LeadsToStop (automaticWorld smoothOutcomes) 0 directorySession :=
  stops_iff (automaticWorld smoothOutcomes) ∅ 0 ⟨"s", directorySession⟩ rfl rfl
    (by decide +kernel) (by decide +kernel)

/-- The outcomes when the authentication library does not open its session. -/
def openFails : Outcomes :=
  { smoothOutcomes with authFails := fun c => c = .openSession 0 }

/-- **A started chroot is not stopped when the session of the authentication library
cannot be opened**, although no lock has failed: what is thrown is no `session::error`. -/
theorem not_stopped_openFails :
    StartScriptsRun 0 (implTrace (automaticWorld openFails) ∅) ∧
      ¬ LockFailed 0 (implTrace (automaticWorld openFails) ∅) ∧
      stops 0 (implTrace (automaticWorld openFails) ∅) = 0 :=
  ⟨by decide +kernel, by decide +kernel, by decide +kernel⟩

end Runs

end Session

end Schroot
