import Schroot.SetupStage

/-!
# The exit status of a failed run

`run_impl` sets the child status to success for every chroot and takes that back in its
handler for `session::error` alone.  A run that fails with another exception while the
child status is zero is reported as a success.

The invariant has two parts.  Before anything fails no step has failed unseen; once an
exception is on its way (`Thrown`), an unseen failure and a child status of zero go
together, unless it is a `session::error` that the handler of `run_impl` will see.

**Results.**
* `run_spec`: the invariant through `run`.
* `childStatus_iff`: the exact condition under which a failed run has a status other than
  zero.
-/

namespace Schroot

open Effect SessionM

namespace Session

section Invariant

/-- A step fails with an exception that is no `session::error` while the child status is
zero. -/
def FailsUnseen (ev : Event) : Prop :=
  ∃ c e, ev = .call c 0 (some e) ∧ e.isSession = false

/-- No step has failed unseen. -/
def Clean (s : SessionState) : Prop :=
  ∀ ev ∈ s.trace, ¬ FailsUnseen ev

/-- The exception `e` is on its way. -/
def Thrown (e : Exn) (s : SessionState) : Prop :=
  (e.isSession = true → Clean s) ∧ (e.isSession = false → (Clean s ↔ s.childStatus ≠ 0))

/-- The exception has left `run_impl`. -/
def Final (s : SessionState) : Prop :=
  Clean s ↔ s.childStatus ≠ 0

theorem clean_note_iff (ev : Event) (s : SessionState) :
    Clean (s.note ev) ↔ Clean s ∧ ¬ FailsUnseen ev := by
  simp [Clean, or_imp, forall_and]

theorem not_failsUnseen_none (c : Call) (n : Nat) : ¬ FailsUnseen (.call c n none) := by
  rintro ⟨c', e, h, -⟩
  cases h

theorem not_failsUnseen_session
    {e : Exn}
    (he : e.isSession = true)
    (c : Call) (n : Nat) :
    ¬ FailsUnseen (.call c n (some e)) := by
  rintro ⟨c', e', h, he'⟩
  cases h
  simp [he] at he'

theorem failsUnseen_iff
    {e : Exn}
    (he : e.isSession = false)
    (c : Call) (n : Nat) :
    FailsUnseen (.call c n (some e)) ↔ n = 0 := by
  constructor
  · rintro ⟨c', e', h, -⟩
    cases h
    rfl
  · rintro rfl
    exact ⟨c, e, rfl, he⟩

/-- The events that a step notes by itself are no failures of steps. -/
theorem clean_iff_of_stageFrame
    {i : Nat} {stage : SetupType} {s s' : SessionState}
    (h : StageFrame i stage s s') :
    Clean s' ↔ Clean s := by
  obtain ⟨evs, htrace, hevs⟩ := h.trace
  unfold Clean
  rw [htrace]
  have hnone : ∀ ev ∈ evs, ¬ FailsUnseen ev := by
    rintro ev hev ⟨c, e, rfl, -⟩
    rcases hevs _ hev with h | h <;> cases h
  constructor
  · exact fun hc ev hev => hc ev (List.mem_append_left _ hev)
  · intro hc ev hev
    rcases List.mem_append.mp hev with hev | hev
    · exact hc ev hev
    · exact hnone ev hev

end Invariant

section Steps

variable {α : Type} {w : World} {i : Nat} {s : SessionState}

/-- The body of a step: it notes no failure, and it changes the child status only on its
way to success or to a `session::error`. -/
def StepBody (x : SessionM α) (s : SessionState) : Prop :=
  Wp x (fun _ s' => Clean s' ↔ Clean s)
    (fun e s' => (Clean s' ↔ Clean s) ∧
      (e.isSession = false → s'.childStatus = s.childStatus)) s

/-- **A step before anything has failed.** -/
theorem call_clean
    {c : Call} {x : SessionM α}
    (hx : StepBody x s)
    (hs : Clean s) :
    Wp (call c x) (fun _ s' => Clean s') Thrown s := by
  rw [wp_call]
  refine wp_mono hx ?_ ?_
  · intro _ s' h
    exact (clean_note_iff _ s').mpr ⟨h.mpr hs, not_failsUnseen_none c _⟩
  · rintro e s' ⟨h, hchild⟩
    refine ⟨fun he => ?_, fun he => ?_⟩
    · exact (clean_note_iff _ s').mpr ⟨h.mpr hs, not_failsUnseen_session he c _⟩
    · rw [clean_note_iff, failsUnseen_iff he, SessionState.note_childStatus, hchild he]
      exact ⟨fun hc => hc.2, fun hc => ⟨h.mpr hs, hc⟩⟩

/-- A step that always leaves the child status alone. -/
theorem call_final
    {c : Call} {x : SessionM α}
    (hx : Wp x (fun _ s' => (Clean s' ↔ Clean s) ∧ s'.childStatus = s.childStatus)
      (fun e s' => (Clean s' ↔ Clean s) ∧ s'.childStatus = s.childStatus ∧
        e.isSession = false) s)
    (hs : Final s) :
    Wp (call c x) (fun _ s' => Final s') (fun e s' => Final s' ∧ e.isSession = false) s := by
  rw [wp_call]
  refine wp_mono hx ?_ ?_
  · rintro _ s' ⟨h, hchild⟩
    have hnone := not_failsUnseen_none c s.childStatus
    simp only [Final, clean_note_iff, SessionState.note_childStatus, hchild, h, hnone,
      not_false_eq_true, and_true]
    exact hs
  · rintro e s' ⟨h, hchild, he⟩
    have hiff : Clean s ∧ ¬ s.childStatus = 0 ↔ s.childStatus ≠ 0 :=
      ⟨fun hc => hc.2, fun hc => ⟨hs.mpr hc, hc⟩⟩
    refine ⟨?_, he⟩
    simpa only [Final, clean_note_iff, failsUnseen_iff he, SessionState.note_childStatus,
      hchild, h] using hiff

theorem authBody_spec (c : AuthCall) (fails : Bool) :
    Wp (if fails then throw (.auth c) else pure () : SessionM Unit)
      (fun _ s' => s' = s) (fun e s' => s' = s ∧ e.isAuth = true) s := by
  cases fails
  · exact rfl
  · exact ⟨rfl, rfl⟩

theorem isSession_of_isAuth
    {e : Exn}
    (h : e.isAuth = true) :
    e.isSession = false := by
  cases e <;> simp [Exn.isAuth, Exn.isSession] at h ⊢

theorem authStep_clean
    (c : AuthCall) (fails : Bool)
    (hs : Clean s) :
    Wp (authStep c fails) (fun _ s' => Clean s' ∧ s'.childStatus = s.childStatus)
      (fun e s' => Thrown e s' ∧ e.isSession = false) s := by
  have hbody : StepBody (if fails then throw (.auth c) else pure () : SessionM Unit) s := by
    refine wp_mono (authBody_spec c fails) ?_ ?_
    · rintro _ _ rfl
      exact Iff.rfl
    · rintro e _ ⟨rfl, -⟩
      exact ⟨Iff.rfl, fun _ => rfl⟩
  have hexit : Wp (authStep c fails) (fun _ s' => s'.childStatus = s.childStatus)
      (fun e _ => e.isSession = false) s := by
    rw [authStep, wp_call]
    refine wp_mono (authBody_spec c fails) ?_ ?_
    · rintro _ _ rfl
      rfl
    · rintro e _ ⟨-, he⟩
      exact isSession_of_isAuth he
  exact wp_and (call_clean hbody hs) hexit

/-- A cleanup call while an exception is on its way. -/
theorem authStep_final
    (c : AuthCall) (fails : Bool)
    (hs : Final s) :
    Wp (authStep c fails) (fun _ s' => Final s')
      (fun e s' => Final s' ∧ e.isSession = false) s := by
  refine call_final (wp_mono (authBody_spec c fails) ?_ ?_) hs
  · rintro _ _ rfl
    exact ⟨Iff.rfl, rfl⟩
  · rintro e _ ⟨rfl, he⟩
    exact ⟨Iff.rfl, rfl, isSession_of_isAuth he⟩

theorem ofExcept_body (x : Except Exn α) : StepBody (Effect.ofExcept x) s := by
  rw [StepBody, wp_ofExcept]
  cases x with
  | ok a => exact Iff.rfl
  | error e => exact ⟨Iff.rfl, fun _ => rfl⟩

theorem setupStep_clean
    {c : Chroot} (stage : SetupType)
    (hs : Clean s) :
    Wp (setupStep w i c stage) (fun _ s' => Clean s') Thrown s := by
  refine call_clean (wp_mono (setupChroot_frame stage) ?_ ?_) hs
  · intro _ s' h
    exact clean_iff_of_stageFrame h
  · rintro e s' ⟨h, -⟩
    exact ⟨clean_iff_of_stageFrame h, fun _ => h.childStatus⟩

/-- The command changes the child status, but fails with a `session::error` only. -/
theorem runChroot_body : StepBody (runChroot w i) s := by
  unfold StepBody runChroot
  cases w.outcomes.command i with
  | forkFailed => exact ⟨Iff.rfl, fun _ => rfl⟩
  | waitFailed code signalled => exact ⟨Iff.rfl, fun h => by cases h⟩
  | exited status => exact Iff.rfl

/-- Closing the session of the authentication library while an exception is on its way. -/
theorem closeSession_thrown
    {e : Exn}
    (hs : Thrown e s) :
    Wp (authCall w (.closeSession i)) (fun _ s' => Thrown e s') Thrown s := by
  cases he : e.isSession with
  | true =>
      refine wp_mono (authStep_clean _ _ (hs.1 he)) ?_ (fun _ _ h => h.1)
      rintro _ s' ⟨hclean, -⟩
      exact ⟨fun _ => hclean, fun he' => by simp [he] at he'⟩
  | false =>
      refine wp_mono (authStep_final _ _ (hs.2 he)) ?_ ?_
      · intro _ s' hfinal
        exact ⟨fun he' => by simp [he] at he', fun _ => hfinal⟩
      · rintro e' s' ⟨hfinal, he'⟩
        exact ⟨fun h => by simp [he'] at h, fun _ => hfinal⟩

theorem runCommand_clean
    (hs : Clean s) :
    Wp (runCommand w i) (fun _ s' => Clean s') Thrown s := by
  rw [runCommand, wp_bind, wp_onError, wp_bind]
  refine wp_mono (authStep_clean _ _ hs) ?_ (fun e s' h => closeSession_thrown h.1)
  rintro _ s₁ ⟨h₁, -⟩
  refine wp_mono (call_clean runChroot_body h₁) ?_ (fun e s' h => closeSession_thrown h)
  intro _ s₂ h₂
  exact wp_mono (authStep_clean _ _ h₂) (fun _ _ h => h.1) (fun _ _ h => h.1)

theorem startAndRun_clean
    {c : Chroot}
    (hs : Clean s) :
    Wp (startAndRun w i c) (fun _ s' => Clean s') Thrown s := by
  rw [startAndRun, wp_bind]
  refine wp_mono (setupStep_clean _ hs) ?_ (fun _ _ h => h)
  intro _ s₁ h₁
  rw [wp_bind]
  refine wp_mono (setupStep_clean _ h₁) ?_ (fun _ _ h => h)
  intro _ s₂ h₂
  split
  · exact runCommand_clean h₂
  · exact h₂

/-- One turn of the loop. -/
theorem runEntry_clean
    {entry : ChrootEntry}
    (hs : Clean s) :
    Wp (runEntry w i entry) (fun _ s' => Clean s') Thrown s := by
  rw [runEntry, wp_bind]
  refine wp_mono (call_clean (ofExcept_body _) hs) ?_ (fun _ _ h => h)
  intro c s₁ h₁
  rw [wp_bind, wp_change, wp_bind, wp_onError]
  have h₁' : Clean { s₁ with childStatus := 0 } := h₁
  refine wp_mono (startAndRun_clean h₁') ?_ ?_
  · intro _ s₂ h₂
    exact setupStep_clean _ h₂
  · intro e s₂ h₂
    split
    · rename_i he
      -- The chroot is stopped, and a `session::error` of that is dropped.
      rw [wp_catching]
      have hthrown : ∀ s' : SessionState, Clean s' → Thrown e s' :=
        fun s' hclean => ⟨fun _ => hclean, fun he' => by simp [he] at he'⟩
      refine wp_mono (setupStep_clean _ (h₂.1 he)) (fun _ s₃ => hthrown s₃) ?_
      intro e' s₃ h₃
      split
      · rename_i he'
        exact hthrown s₃ (h₃.1 he')
      · exact h₃
    · exact h₂

/-- The loop. -/
theorem runEntries_clean
    {entries : List ChrootEntry}
    (hs : Clean s) :
    Wp (runEntries w i entries) (fun _ s' => Clean s') Thrown s := by
  induction entries generalizing i s with
  | nil => exact hs
  | cons entry entries ih =>
      rw [runEntries, wp_bind]
      refine wp_mono (runEntry_clean hs) ?_ (fun _ _ h => h)
      intro _ s' h
      exact ih h

/-- **`run_impl`**: its handler repairs the child status after a `session::error`. -/
theorem runImpl_spec
    (hs : Clean s) :
    Wp (runImpl w) (fun _ s' => Clean s') (fun _ s' => Final s') s := by
  rw [runImpl, wp_onError, wp_bind]
  have hhandler : ∀ e s', Thrown e s' →
      (if e.isSession then
        Wp (change repairStatus : SessionM Unit) (fun _ s' => Final s') (fun _ s' => Final s') s'
      else
        Final s') := by
    intro e s' h
    split
    · rename_i he
      have hclean := h.1 he
      rw [wp_change, repairStatus]
      split
      · exact ⟨fun _ => by simp, fun _ => hclean⟩
      · rename_i hchild
        exact ⟨fun _ => hchild, fun _ => hclean⟩
    · rename_i he
      exact h.2 (by simpa using he)
  have hsignals : StepBody (setSignalHandlers w) s := by
    unfold StepBody setSignalHandlers
    split
    · exact ⟨Iff.rfl, fun _ => rfl⟩
    · exact Iff.rfl
  refine wp_mono (call_clean hsignals hs) ?_ hhandler
  intro _ s₁ h₁
  exact wp_mono (runEntries_clean h₁) (fun _ _ h => h) hhandler

end Steps

section Run

variable {w : World} {s : SessionState}

/-- A handler for `auth::error` keeps what holds of failed runs. -/
theorem cleaningUp_final
    {x : SessionM Unit} {c : AuthCall} {Q : Unit → SessionState → Prop}
    (hx : Wp x Q (fun _ s' => Final s') s) :
    Wp (cleaningUp x (authCall w c)) Q (fun _ s' => Final s') s := by
  rw [cleaningUp, wp_onError]
  refine wp_mono hx (fun _ _ h => h) ?_
  intro e s₁ h₁
  split
  · rw [wp_catching]
    refine wp_mono (authStep_final c _ h₁) (fun _ _ h => h) ?_
    rintro e' s₂ ⟨h₂, -⟩
    split
    · exact h₂
    · exact h₂
  · exact h₁

theorem Thrown.final
    {e : Exn}
    (h : Thrown e s ∧ e.isSession = false) :
    Final s :=
  h.1.2 h.2

/-- Before `run_impl` the child status is that of a failure. -/
theorem authStep_early
    (c : AuthCall) (fails : Bool)
    (hs : Clean s ∧ s.childStatus ≠ 0) :
    Wp (authStep c fails) (fun _ s' => Clean s' ∧ s'.childStatus ≠ 0)
      (fun _ s' => Final s') s :=
  wp_mono (authStep_clean c fails hs.1) (fun _ _ h => ⟨h.1, h.2 ▸ hs.2⟩)
    (fun _ _ h => Thrown.final h)

theorem runWithCredentials_spec
    (hs : Clean s ∧ s.childStatus ≠ 0) :
    Wp (runWithCredentials w) (fun _ s' => Clean s') (fun _ s' => Final s') s := by
  rw [runWithCredentials, wp_bind]
  refine cleaningUp_final ?_
  rw [wp_bind]
  refine wp_mono (authStep_early _ _ hs) ?_ (fun _ _ h => h)
  intro _ s₁ h₁
  refine wp_mono (runImpl_spec h₁.1) ?_ (fun _ _ h => h)
  intro _ s₂ h₂
  exact wp_mono (authStep_clean _ _ h₂) (fun _ _ h => h.1) (fun _ _ h => Thrown.final h)

/-- **The invariant through `run`.** -/
theorem run_spec
    (hs : Clean s ∧ s.childStatus ≠ 0) :
    Wp (run w) (fun _ s' => Clean s') (fun _ s' => Final s') s := by
  rw [run, wp_bind]
  refine cleaningUp_final ?_
  rw [wp_bind]
  refine wp_mono (authStep_early _ _ hs) ?_ (fun _ _ h => h)
  intro _ s₁ h₁
  rw [wp_bind]
  have hstatus : Wp (call .getAuthStatus (Effect.ofExcept ((getAuthStatus w).mapError .session)))
      (fun _ s' => Clean s' ∧ s'.childStatus ≠ 0) (fun _ s' => Final s') s₁ := by
    rw [wp_call, wp_ofExcept]
    cases getAuthStatus w with
    | ok status => exact ⟨(clean_note_iff _ _).mpr ⟨h₁.1, not_failsUnseen_none _ _⟩, h₁.2⟩
    | error e =>
        exact ⟨fun _ => h₁.2, fun _ =>
          (clean_note_iff _ _).mpr ⟨h₁.1, not_failsUnseen_session rfl _ _⟩⟩
  refine wp_mono hstatus ?_ (fun _ _ h => h)
  intro status s₂ h₂
  rw [wp_bind]
  refine wp_mono (authStep_early _ _ h₂) ?_ (fun _ _ h => h)
  intro _ s₃ h₃
  rw [wp_bind]
  refine wp_mono (authStep_early _ _ h₃) ?_ (fun _ _ h => h)
  intro _ s₄ h₄
  rw [wp_bind]
  refine wp_mono (authStep_early _ _ h₄) ?_ (fun _ _ h => h)
  intro _ s₅ h₅
  refine wp_mono (runWithCredentials_spec h₅) ?_ (fun _ _ h => h)
  intro _ s₆ h₆
  exact wp_mono (authStep_clean _ _ h₆) (fun _ _ h => h.1) (fun _ _ h => Thrown.final h)

/-- **A failed run has a status other than zero if and only if no step has failed unseen**,
whatever files there are in the session directory. -/
theorem childStatus_iff
    (w : World) (files : Std.ExtTreeMap String String) :
    (∀ e, ((run w).exec { sessionFiles := files }).1 = .error e →
        ((run w).exec { sessionFiles := files }).2.childStatus ≠ 0) ↔
      ∀ ev ∈ ((run w).exec { sessionFiles := files }).2.trace, ¬ FailsUnseen ev := by
  have hstart : Clean { sessionFiles := files } ∧
      ({ sessionFiles := files } : SessionState).childStatus ≠ 0 :=
    ⟨fun _ hev => by simp at hev, Nat.one_ne_zero⟩
  have hspec := wp_forall.mp (run_spec (w := w) hstart)
  cases hexec : (run w).exec { sessionFiles := files } with
  | mk r s' =>
      cases r with
      | ok a => exact ⟨fun _ => hspec.1 a s' hexec, fun _ e h => by cases h⟩
      | error e =>
          have hfinal : Final s' := hspec.2 e s' hexec
          exact ⟨fun h => hfinal.mpr (h e rfl), fun h _ _ => hfinal.mp h⟩

/-- A plain chroot, of which no session is made. -/
def plainEntry : ChrootEntry where
  aliasName := "p"
  chroot := { name := "p", users := ["joe"], environmentFilter := "", kind := .plain "/srv" }

/-- A run in which the session of the authentication library cannot be opened. -/
def openSessionWorld : World :=
  { smoothWorld .opRun [plainEntry] with
    outcomes := { smoothOutcomes with authFails := fun c => c == .openSession 0 } }

/-- **That run fails and is reported as a success.** -/
theorem childStatus_openSession :
    ((run openSessionWorld).exec {}).1 = .error (.auth (.openSession 0)) ∧
      ((run openSessionWorld).exec {}).2.childStatus = 0 := by
  decide

end Run

end Session

end Schroot
