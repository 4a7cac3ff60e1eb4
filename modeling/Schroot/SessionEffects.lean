import Schroot.SessionDirectory
import Schroot.SessionStages

/-!
# Sessions that succeed

A run that ends without an exception has done to the session directory what its operation says:
a session that is begun leaves its file, a session that is ended does not, and an automatic
session leaves the directory as it was.

**Results.**
* `runEntry_done`: one chroot.
* `completed_run`: a whole run.
* `begin_end`: ending what was begun leaves the directory as it was.
* `done_of_run`: its status, too.
* `statusAt_run`: the child status at each call of a run.
-/

namespace Schroot

open Effect SessionM

namespace Session

section Completion

variable {w : World} {i : Nat} {c : Chroot} {entry : ChrootEntry} {s s' : SessionState}

/-- The chroot has a session file while its session lasts. -/
def hasFile (c : Chroot) : Bool :=
  c.runSetupScripts && !c.isPlain

/-- **What an operation that succeeds does to the files** for one chroot. -/
def sessionEffect (operation : Operation) (c : Chroot) (files : SessionFiles) : SessionFiles :=
  if hasFile c then
    match operation with
    | .opBegin => files.insert c.name (fullText c)
    | .opEnd => files.erase c.name
    | .opAutomatic | .opRecover | .opRun => files
  else
    files

/-- The locked part of the stop stage succeeds when the file is removed. -/
theorem lockedBody_stop_done :
    Wp (lockedBody w i c .setupStop)
      (fun _ s' => c.isPlain = true ∧ SameFiles s s' ∨ c.isPlain = false ∧ Erases c.name s s')
      (fun _ _ => True) s := by
  rw [lockedBody, wp_bind]
  refine wp_mono (sameFiles_runScripts .setupStop s) (fun status s₁ h₁ => ?_)
    (fun _ _ _ => trivial)
  rw [wp_bind, unlockStage, wp_catching]
  have hfailed : ∀ (e : Exn) (s₂ : SessionState) (Q : Unit → SessionState → Prop),
      if e.isChroot = true then
        Wp (do lockFailure i .setupStop; throwSession .chrootUnlock c.name) Q (fun _ _ => True) s₂
      else
        True := by
    intro e s₂ Q
    split
    · simp only [wp_bind, lockFailure, wp_note, wp_change, wp_throwSession]
    · trivial
  by_cases hstatus : status = 0
  · subst hstatus
    refine wp_mono Chroot.erases_unlock (fun _ s₂ h₂ => ?_) (fun e s₂ _ => hfailed e s₂ _)
    simp only [ne_eq, not_true_eq_false, if_false, wp_pure]
    unfold SameFiles Erases at h₂ ⊢
    rwa [h₁] at h₂
  · refine wp_mono (wp_true _) (fun _ _ _ => ?_) (fun e s₂ _ => hfailed e s₂ _)
    rw [if_pos hstatus]
    trivial

/-- What the stages before the last one do to the files. -/
structure StartEffect (operation : Operation) (c : Chroot) (s s' : SessionState) : Prop where
  creates : performs operation .setupStart = true ∧ hasFile c = true → Creates c (fullText c) s s'
  same : ¬ (performs operation .setupStart = true ∧ hasFile c = true) → SameFiles s s'

theorem StartEffect.sameFiles
    {operation : Operation} {s₀ s₁ : SessionState}
    (h : StartEffect operation c s s')
    (hbefore : SameFiles s₀ s)
    (hafter : SameFiles s' s₁) :
    StartEffect operation c s₀ s₁ :=
  ⟨fun hop => (h.creates hop).sameFiles hbefore hafter,
    fun hop => (hbefore.trans (h.same hop)).trans hafter⟩

/-- What the last stage does to the files. -/
structure StopEffect (operation : Operation) (c : Chroot) (s s' : SessionState) : Prop where
  erases : performs operation .setupStop = true ∧ hasFile c = true → Erases c.name s s'
  same : ¬ (performs operation .setupStop = true ∧ hasFile c = true) → SameFiles s s'

/-- **The start step**, if it succeeds. -/
theorem setupStep_start_done
    (hlock : s.lockStatus = true) :
    Wp (setupStep w i c .setupStart)
      (fun _ s' => StartEffect w.session.operation c s s')
      (fun _ _ => True) s := by
  rw [setupStep, wp_call, setupChroot, wp_bind, wp_get, wp_ite]
  split
  · rename_i henters
    simp only [entersStage, Bool.and_eq_true] at henters
    rw [wp_setupStage, stageBody_eq, wp_bind, lockStage, wp_catching]
    refine wp_mono Chroot.creates_lock (fun _ s₁ h₁ => ?_) (fun e s₁ _ => ?_)
    · have hrest : Within SameFiles (lockedBody w i c .setupStart) :=
        sameFiles_lockedBody fun status => by simp [Chroot.changesSessionInfo]
      refine wp_mono (hrest s₁) (fun _ s₂ h₂ => ?_) (fun _ _ _ => trivial)
      rcases h₁ with ⟨hplain, hsame⟩ | hcreates
      · refine ⟨fun h => ?_, fun _ => SameFiles.trans hsame h₂⟩
        simp [hasFile, hplain] at h
      · refine ⟨fun _ => hcreates.sameFiles rfl h₂, fun h => absurd ⟨henters.1.1, ?_⟩ h⟩
        simp [hasFile, henters.2, hcreates.plain]
    · split
      · simp only [wp_bind, lockFailure, wp_note, wp_change, wp_catching, wp_throwSession]
        refine wp_mono (wp_true _) (fun _ _ _ => trivial) (fun _ _ _ => ?_)
        split <;> trivial
      · trivial
  · rename_i henters
    refine ⟨fun h => absurd ?_ henters, fun _ => SameFiles.refl s⟩
    simp only [hasFile, Bool.and_eq_true] at h
    simp [entersStage, h, hlock]

/-- **The stop step**, if it succeeds. -/
theorem setupStep_stop_done
    (hlock : s.lockStatus = true) :
    Wp (setupStep w i c .setupStop)
      (fun _ s' => StopEffect w.session.operation c s s')
      (fun _ _ => True) s := by
  rw [setupStep, wp_call, setupChroot, wp_bind, wp_get, wp_ite]
  split
  · rename_i henters
    simp only [entersStage, Bool.and_eq_true] at henters
    rw [wp_setupStage, stageBody_eq, wp_bind, lockStage, wp_catching]
    have hlock : Within SameFiles (c.lock w i .setupStop) :=
      Chroot.sameFiles_setupLock (.inr (by simp [Chroot.changesSessionInfo]))
    refine wp_mono (hlock _) (fun _ s₁ h₁ => ?_) (fun e s₁ _ => ?_)
    · have h₁' : SameFiles s s₁ := h₁
      refine wp_mono lockedBody_stop_done (fun _ s₂ h₂ => ?_) (fun _ _ _ => trivial)
      rcases h₂ with ⟨hplain, hsame⟩ | ⟨hplain, herases⟩
      · refine ⟨fun h => ?_, fun _ => h₁'.trans hsame⟩
        simp [hasFile, hplain] at h
      · refine ⟨fun _ => ?_, fun h => absurd ⟨henters.1.1, ?_⟩ h⟩
        · unfold Erases at herases ⊢
          rwa [h₁'] at herases
        · simp [hasFile, henters.2, hplain]
    · split
      · simp only [wp_bind, lockFailure, wp_note, wp_change, wp_catching, wp_throwSession]
        refine wp_mono (wp_true _) (fun _ _ _ => trivial) (fun _ _ _ => ?_)
        split <;> trivial
      · trivial
  · rename_i henters
    refine ⟨fun h => absurd ?_ henters, fun _ => SameFiles.refl s⟩
    simp only [hasFile, Bool.and_eq_true] at h
    simp [entersStage, h, hlock]

/-- The recovering step leaves the files alone. -/
theorem sameFiles_setupStep_recover : Within SameFiles (setupStep w i c .setupRecover) := by
  intro s
  rw [setupStep, wp_call, setupChroot, wp_bind, wp_get, wp_ite]
  split
  · rw [wp_setupStage]
    exact wp_mono (stageBody_recover_files _) (fun _ _ h => h) (fun _ _ h => h)
  · exact SameFiles.refl s

/-- **The effect of an operation** on the files for one chroot, which must not have been there if
a session of it is begun. -/
structure Effected (operation : Operation) (c : Chroot) (files files' : SessionFiles) : Prop where
  eq : files' = sessionEffect operation c files
  new : performs operation .setupStart = true → hasFile c = true → c.name ∉ files

/-- The effect is that of the start step and of the stop step. -/
theorem effected_of_steps
    {operation : Operation} {s₁ s₂ : SessionState}
    (hstart : StartEffect operation c s s₁)
    (hstop : StopEffect operation c s₁ s₂) :
    Effected operation c s.sessionFiles s₂.sessionFiles := by
  refine ⟨?_, fun hop hfile => (hstart.creates ⟨hop, hfile⟩).new⟩
  by_cases hfile : hasFile c = true
  · unfold sessionEffect
    rw [if_pos hfile]
    cases operation with
    | opAutomatic =>
        have hcreates := hstart.creates ⟨rfl, hfile⟩
        refine Std.ExtTreeMap.ext_getElem? fun n => ?_
        rw [hstop.erases ⟨rfl, hfile⟩, hcreates.written]
        split
        · rename_i hname
          rw [hname]
          exact (Std.ExtTreeMap.getElem?_eq_none hcreates.new).symm
        · rfl
    | opBegin =>
        have hcreates := hstart.creates ⟨rfl, hfile⟩
        have hsame := hstop.same (by simp [performs])
        rw [hsame]
        refine Std.ExtTreeMap.ext_getElem? fun n => ?_
        rw [hcreates.written, SortedMap.getElem?_insert]
    | opEnd =>
        have hsame := hstart.same (by simp [performs])
        refine Std.ExtTreeMap.ext_getElem? fun n => ?_
        rw [hstop.erases ⟨rfl, hfile⟩, hsame, SortedMap.getElem?_erase]
    | opRecover => exact (hstart.same (by simp [performs])).trans (hstop.same (by simp [performs]))
    | opRun => exact (hstart.same (by simp [performs])).trans (hstop.same (by simp [performs]))
  · unfold sessionEffect
    rw [if_neg hfile]
    exact (hstart.same fun h => hfile h.2).trans (hstop.same fun h => hfile h.2)

/-- **Starting and running** a chroot, if it succeeds. -/
theorem startAndRun_done
    (hlock : s.lockStatus = true) :
    Wp (startAndRun w i c)
      (fun _ s' => s'.lockStatus = true ∧ StartEffect w.session.operation c s s')
      (fun _ _ => True) s := by
  suffices heffect : Wp (startAndRun w i c) (fun _ s' => StartEffect w.session.operation c s s')
      (fun _ _ => True) s from
    wp_mono (wp_and startAndRun_lockStatus heffect) (fun _ _ h => ⟨h.1.trans hlock, h.2⟩)
      (fun _ _ _ => trivial)
  rw [startAndRun, wp_bind]
  refine wp_mono (setupStep_start_done hlock) (fun _ s₁ h₁ => ?_) (fun _ _ _ => trivial)
  rw [wp_bind]
  refine wp_mono (sameFiles_setupStep_recover s₁) (fun _ s₂ h₂ => ?_) (fun _ _ _ => trivial)
  split
  · exact wp_mono (quiet_runCommand s₂)
      (fun _ s₃ h₃ => h₁.sameFiles rfl (h₂.trans h₃.files)) (fun _ _ _ => trivial)
  · exact h₁.sameFiles rfl h₂

/-- **One chroot**, if its turn succeeds. -/
theorem runEntry_done
    (hlock : s.lockStatus = true) :
    Wp (runEntry w i entry)
      (fun _ s' => s'.lockStatus = true ∧ ∃ c, prepareChroot w i entry = .ok c ∧
        Effected w.session.operation c s.sessionFiles s'.sessionFiles)
      (fun _ _ => True) s := by
  have hrun : Wp (runEntry w i entry)
      (fun _ s' => ∃ c, prepareChroot w i entry = .ok c ∧
        Effected w.session.operation c s.sessionFiles s'.sessionFiles)
      (fun _ _ => True) s := by
    rw [runEntry, wp_bind, wp_call, wp_ofExcept]
    cases hprepare : prepareChroot w i entry with
    | error e => trivial
    | ok c =>
        simp only [wp_bind, wp_change]
        refine wp_mono (wp_onError_done (startAndRun_done hlock)) (fun _ s₁ h₁ => ?_)
          (fun _ _ _ => trivial)
        refine wp_mono (setupStep_stop_done h₁.1) (fun _ s₂ h₂ => ?_)
          (fun _ _ _ => trivial)
        exact ⟨c, rfl, effected_of_steps (h₁.2.sameFiles rfl rfl) h₂⟩
  exact wp_mono (wp_and runEntry_lockStatus hrun) (fun _ _ h => ⟨h.1.trans hlock, h.2⟩)
    (fun _ _ _ => trivial)

/-- **A completed run**: the chroots that were prepared have had their turns, one after the other,
and each has had its effect on the files. -/
inductive Completed (w : World) :
    Nat → List ChrootEntry → List Chroot → SessionFiles → SessionFiles → Prop
  | nil (i : Nat) (files : SessionFiles) : Completed w i [] [] files files
  | cons {i : Nat} {entry : ChrootEntry} {entries : List ChrootEntry} {c : Chroot}
      {chroots : List Chroot} {files files₁ files' : SessionFiles}
      (hprepare : prepareChroot w i entry = .ok c)
      (heffect : Effected w.session.operation c files files₁)
      (hrest : Completed w (i + 1) entries chroots files₁ files') :
      Completed w i (entry :: entries) (c :: chroots) files files'

/-- The run of a session that does not fail. -/
def CompletedRun (w : World) (files files' : SessionFiles) : Prop :=
  ∃ chroots, Completed w 0 w.session.chroots chroots files files'

theorem runEntries_done
    (hlock : s.lockStatus = true)
    (entries : List ChrootEntry) :
    Wp (runEntries w i entries)
      (fun _ s' => ∃ chroots, Completed w i entries chroots s.sessionFiles s'.sessionFiles)
      (fun _ _ => True) s := by
  induction entries generalizing i s with
  | nil => exact ⟨[], .nil i s.sessionFiles⟩
  | cons entry entries ih =>
      rw [runEntries, wp_bind]
      refine wp_mono (runEntry_done hlock) ?_ (fun _ _ _ => trivial)
      rintro _ s₁ ⟨hlock₁, c, hprepare, heffect⟩
      refine wp_mono (ih hlock₁) (fun _ s₂ h₂ => ?_) (fun _ _ _ => trivial)
      obtain ⟨chroots, hrest⟩ := h₂
      exact ⟨c :: chroots, .cons hprepare heffect hrest⟩

theorem runImpl_done
    (hlock : s.lockStatus = true) :
    Wp (runImpl w)
      (fun _ s' => CompletedRun w s.sessionFiles s'.sessionFiles)
      (fun _ _ => True) s := by
  refine wp_onError_done ?_
  rw [wp_bind]
  refine wp_mono (quiet_setSignalHandlers s) (fun _ s₁ h₁ => ?_) (fun _ _ _ => trivial)
  rw [← show s₁.sessionFiles = s.sessionFiles from h₁.files]
  exact runEntries_done (h₁.lockStatus.trans hlock) w.session.chroots

end Completion

section Statuses

variable {w : World} {i : Nat} {c : Chroot} {entry : ChrootEntry} {s s' : SessionState}

/-- The status of the command, if it is run without a failure. -/
def commandStatus (w : World) (i : Nat) : Nat :=
  match w.outcomes.command i with
  | .exited status => status.val
  | _ => 1

/-- **The status of a chroot that has had its turn**: that of its command, if there is one. -/
def entryStatus (w : World) (i : Nat) : Nat :=
  if w.session.operation = .opAutomatic ∨ w.session.operation = .opRun then commandStatus w i else 0

theorem setupStep_childStatus
    (stage : SetupType) :
    Wp (setupStep w i c stage) (fun _ s' => s'.childStatus = s.childStatus)
      (fun _ _ => True) s := by
  rw [setupStep, wp_call]
  exact wp_mono (setupChroot_frame stage) (fun _ _ h => h.childStatus) (fun _ _ _ => trivial)

/-- The calls on the authentication object leave the status alone. -/
theorem authCall_childStatus (c : AuthCall) :
    Wp (authCall w c) (fun _ s' => s'.childStatus = s.childStatus) (fun _ _ => True) s := by
  rw [authCall, wp_authStep]
  split
  · trivial
  · rfl

theorem runCommand_childStatus :
    Wp (runCommand w i) (fun _ s' => s'.childStatus = commandStatus w i) (fun _ _ => True) s := by
  rw [runCommand, wp_bind]
  refine wp_mono (wp_onError_done (Q := fun _ s' => s'.childStatus = commandStatus w i) ?_)
    (fun _ s₁ h₁ => ?_) (fun _ _ _ => trivial)
  · rw [wp_bind]
    refine wp_mono (authCall_childStatus _) (fun _ s₁ _ => ?_) (fun _ _ _ => trivial)
    rw [wp_call, runChroot, commandStatus]
    cases w.outcomes.command i with
    | forkFailed => trivial
    | waitFailed code signalled => trivial
    | exited status => rfl
  · exact wp_mono (authCall_childStatus _) (fun _ _ h => h.trans h₁) (fun _ _ _ => trivial)

/-- **One chroot.** -/
theorem runEntry_childStatus :
    Wp (runEntry w i entry) (fun _ s' => s'.childStatus = entryStatus w i) (fun _ _ => True) s := by
  rw [runEntry, wp_bind, wp_call, wp_ofExcept]
  cases prepareChroot w i entry with
  | error e => trivial
  | ok c =>
      simp only [wp_bind, wp_change]
      refine wp_mono (wp_onError_done (Q := fun _ s' => s'.childStatus = entryStatus w i) ?_)
        (fun _ s₁ h₁ => ?_) (fun _ _ _ => trivial)
      · rw [startAndRun, wp_bind]
        refine wp_mono (setupStep_childStatus _) (fun _ s₁ h₁ => ?_) (fun _ _ _ => trivial)
        rw [wp_bind]
        refine wp_mono (setupStep_childStatus _) (fun _ s₂ h₂ => ?_) (fun _ _ _ => trivial)
        unfold entryStatus
        split
        · exact runCommand_childStatus
        · exact h₂.trans h₁
      · exact wp_mono (setupStep_childStatus _) (fun _ _ h => h.trans h₁) (fun _ _ _ => trivial)

/-- **The loop**: the status is that of the last chroot. -/
theorem runEntries_childStatus
    (entries : List ChrootEntry) :
    Wp (runEntries w i entries)
      (fun _ s' => s'.childStatus =
        if entries = [] then s.childStatus else entryStatus w (i + (entries.length - 1)))
      (fun _ _ => True) s := by
  induction entries generalizing i s with
  | nil => rfl
  | cons entry entries ih =>
      rw [runEntries, wp_bind]
      refine wp_mono runEntry_childStatus (fun _ s₁ h₁ => ?_) (fun _ _ _ => trivial)
      refine wp_mono ih (fun _ s₂ h₂ => ?_) (fun _ _ _ => trivial)
      rw [h₂, if_neg (List.cons_ne_nil _ _)]
      cases entries with
      | nil => exact h₁
      | cons _ rest =>
          rw [if_neg (List.cons_ne_nil _ _)]
          congr 1
          simp only [List.length_cons]
          omega

/-- The status after a run of some chroots. -/
def lastStatus (w : World) (childStatus : Nat) : Nat :=
  if w.session.chroots = [] then childStatus
  else entryStatus w (w.session.chroots.length - 1)

theorem runImpl_childStatus :
    Wp (runImpl w) (fun _ s' => s'.childStatus = lastStatus w s.childStatus)
      (fun _ _ => True) s := by
  refine wp_onError_done ?_
  rw [wp_bind, wp_call]
  have hsignals : Wp (setSignalHandlers w) (fun _ s' => s' = s) (fun _ _ => True) s := by
    unfold setSignalHandlers
    split
    · trivial
    · rfl
  refine wp_mono hsignals (fun _ s₁ h₁ => ?_) (fun _ _ _ => trivial)
  subst h₁
  refine wp_mono (runEntries_childStatus w.session.chroots) (fun _ s₂ h₂ => ?_)
    (fun _ _ _ => trivial)
  rw [h₂, lastStatus, Nat.zero_add]
  rfl

end Statuses

section Done

variable {w : World} {s s' : SessionState}

/-- Only the trace is another one. -/
def Noted (s s' : SessionState) : Prop :=
  ∃ trace, s' = { s with trace := trace }

theorem Noted.refl (s : SessionState) : Noted s s := ⟨s.trace, rfl⟩

theorem noted_call
    {α : Type} {x : SessionM α}
    (c : Call)
    (hx : Within Noted x) :
    Within Noted (call c x) := by
  intro s
  rw [wp_call]
  refine wp_mono (hx s) ?_ ?_
  · rintro _ _ ⟨trace, rfl⟩
    exact ⟨_, rfl⟩
  · rintro _ _ ⟨trace, rfl⟩
    exact ⟨_, rfl⟩

theorem noted_authStep (c : AuthCall) (fails : Bool) : Within Noted (authStep c fails) := by
  refine noted_call _ fun s => ?_
  split <;> exact Noted.refl s

/-- **What a run that does not fail has done**: every chroot has had its effect on the files, and
the status is that of the last one. -/
structure Done (w : World) (s s' : SessionState) : Prop where
  files : CompletedRun w s.sessionFiles s'.sessionFiles
  childStatus : s'.childStatus = lastStatus w s.childStatus

/-- **The calls around the loop** do nothing else. -/
theorem run_done
    (hlock : s.lockStatus = true) :
    Wp (run w) (fun _ s' => Done w s s') (fun _ _ => True) s := by
  have hbefore : ∀ {α : Type} {x : SessionM α} {f : α → SessionM Unit} {s : SessionState},
      Within Noted x → s.lockStatus = true →
      (∀ a s, s.lockStatus = true → Wp (f a) (fun _ s' => Done w s s') (fun _ _ => True) s) →
      Wp (x >>= f) (fun _ s' => Done w s s') (fun _ _ => True) s := by
    intro α x f s hx hlock hf
    rw [wp_bind]
    refine wp_mono (hx s) ?_ (fun _ _ _ => trivial)
    rintro a _ ⟨trace, rfl⟩
    exact wp_mono (hf a { s with trace := trace } hlock) (fun _ _ h => ⟨h.files, h.childStatus⟩)
      (fun _ _ _ => trivial)
  have hafter : ∀ {x cleanup : SessionM Unit} {c : AuthCall} {s : SessionState},
      Wp x (fun _ s' => Done w s s') (fun _ _ => True) s →
      Wp (do cleaningUp x cleanup; authCall w c) (fun _ s' => Done w s s') (fun _ _ => True) s := by
    intro x cleanup c s hx
    rw [wp_bind]
    refine wp_mono (wp_onError_done hx) (fun _ s₁ h₁ => ?_) (fun _ _ _ => trivial)
    refine wp_mono (noted_authStep c _ s₁) ?_ (fun _ _ _ => trivial)
    rintro _ _ ⟨trace, rfl⟩
    exact ⟨h₁.files, h₁.childStatus⟩
  have himpl : ∀ s : SessionState, s.lockStatus = true →
      Wp (runImpl w) (fun _ s' => Done w s s') (fun _ _ => True) s := fun s hlock =>
    wp_mono (wp_and (runImpl_done hlock) runImpl_childStatus) (fun _ _ h => ⟨h.1, h.2⟩)
      (fun _ _ _ => trivial)
  have hcredentials : ∀ s : SessionState, s.lockStatus = true →
      Wp (runWithCredentials w) (fun _ s' => Done w s s') (fun _ _ => True) s := fun s hlock =>
    hafter (hbefore (noted_authStep _ _) hlock fun _ s₁ h₁ => himpl s₁ h₁)
  refine hafter (hbefore (noted_authStep _ _) hlock fun _ s₁ h₁ => ?_)
  refine hbefore (noted_call _ (within_ofExcept Noted.refl _)) h₁ fun status s₂ h₂ => ?_
  refine hbefore (noted_authStep _ _) h₂ fun _ s₃ h₃ => ?_
  refine hbefore (noted_authStep _ _) h₃ fun _ s₄ h₄ => ?_
  exact hbefore (noted_authStep _ _) h₄ fun _ s₅ h₅ => hcredentials s₅ h₅

/-- **What a run that succeeds has done.** -/
theorem done_of_run
    (hlock : s.lockStatus = true)
    (hrun : (run w).exec s = (.ok (), s')) :
    Done w s s' :=
  (wp_forall.mp (run_done hlock)).1 () s' hrun

/-- **What a run that succeeds has done to the session directory**: what its operation says, for
one chroot after the other. -/
theorem completed_run
    (hlock : s.lockStatus = true)
    (hrun : (run w).exec s = (.ok (), s')) :
    CompletedRun w s.sessionFiles s'.sessionFiles :=
  ((wp_forall.mp (run_done hlock)).1 () s' hrun).files

end Done

section Calls

variable {w : World} {i : Nat} {c : Chroot} {entry : ChrootEntry} {s s' : SessionState}

/-- The operation runs commands. -/
def RunsCommand (w : World) : Prop :=
  w.session.operation = .opAutomatic ∨ w.session.operation = .opRun

/-- The status after the command of a chroot, whether it was run or not. -/
def afterCommand (w : World) (i : Nat) : Nat :=
  match w.outcomes.command i with
  | .exited status => status.val
  | .waitFailed _ _ => 1
  | .forkFailed => 0

/-- **The child status at a call** of a run: that of a failure before the first chroot has been
prepared, that of a success from then on until its command has been run, and what the command left
after that.  The cleanup at the end of the run has what it finds. -/
def StatusAt (w : World) : Call → Nat → Prop
  | .auth (.openSession _), n => n = 0
  | .auth (.closeSession i), n =>
      n = if w.outcomes.authFails (.openSession i) then 0 else afterCommand w i
  | .auth .credDelete, _ => True
  | .auth .stop, _ => True
  | .auth _, n => n = 1
  | .getAuthStatus, n => n = 1
  | .setSignalHandlers, n => n = 1
  | .prepareChroot 0, n => n = 1
  | .prepareChroot (i + 1), n => n = entryStatus w i
  | .setupChroot i .setupStop, n => n = 0 ∨ RunsCommand w ∧ n = afterCommand w i
  | .setupChroot _ _, n => n = 0
  | .runChroot _, n => n = 0

/-- All calls so far have been made with these statuses. -/
def CallsAt (w : World) (s : SessionState) : Prop :=
  ∀ c n e, .call c n e ∈ s.trace → StatusAt w c n

/-- A computation keeps that, and ends with a status of `P`, or of `E` if it throws. -/
def Calls {α : Type} (w : World) (x : SessionM α) (P E : Nat → Prop) (s : SessionState) : Prop :=
  Wp x (fun _ s' => CallsAt w s' ∧ P s'.childStatus) (fun _ s' => CallsAt w s' ∧ E s'.childStatus) s

theorem Calls.mono
    {α : Type} {x : SessionM α} {P P' E E' : Nat → Prop}
    (h : Calls w x P E s)
    (hP : ∀ n, P n → P' n)
    (hE : ∀ n, E n → E' n) :
    Calls w x P' E' s :=
  wp_mono h (fun _ _ h => ⟨h.1, hP _ h.2⟩) (fun _ _ h => ⟨h.1, hE _ h.2⟩)

theorem Calls.bind
    {α β : Type} {x : SessionM α} {f : α → SessionM β} {P Q E : Nat → Prop}
    (hx : Calls w x P E s)
    (hf : ∀ a s', CallsAt w s' → P s'.childStatus → Calls w (f a) Q E s') :
    Calls w (x >>= f) Q E s := by
  rw [Calls, wp_bind]
  exact wp_mono hx (fun a s' h => hf a s' h.1 h.2) (fun _ _ h => h)

/-- A cleanup after an exception; what it throws itself is thrown in its place. -/
theorem Calls.onError
    {α : Type} {p : Exn → Bool} {x : SessionM α} {cleanup : SessionM Unit} {P E : Nat → Prop}
    (hx : Calls w x P E s)
    (hcleanup : ∀ s', CallsAt w s' → E s'.childStatus → Calls w cleanup E E s') :
    Calls w (Effect.onError p x cleanup) P E s := by
  rw [Calls, wp_onError]
  refine wp_mono hx (fun _ _ h => h) (fun e s' h => ?_)
  split
  · exact hcleanup s' h.1 h.2
  · exact h

theorem Calls.catching
    {α : Type} {p : Exn → Bool} {x : SessionM α} {handler : Exn → SessionM α} {P E : Nat → Prop}
    (hx : Calls w x P E s)
    (hhandler : ∀ e s', CallsAt w s' → E s'.childStatus → Calls w (handler e) P E s') :
    Calls w (Effect.catching p x handler) P E s := by
  rw [Calls, wp_catching]
  refine wp_mono hx (fun _ _ h => h) (fun e s' h => ?_)
  split
  · exact hhandler e s' h.1 h.2
  · exact h

theorem CallsAt.note
    {call : Call} {n : Nat} {e : Option Exn}
    (hs : CallsAt w s)
    (h : StatusAt w call n) :
    CallsAt w (s.note (.call call n e)) := by
  intro c' n' e' hmem
  rw [SessionState.note_trace, List.mem_append, List.mem_singleton] at hmem
  rcases hmem with hmem | heq
  · exact hs c' n' e' hmem
  · cases heq
    exact h

/-- **A call**, with the status that it is made with. -/
theorem calls_call
    {α : Type} {call : Call} {x : SessionM α} {P E : Nat → Prop}
    (hx : Calls w x P E s)
    (h : StatusAt w call s.childStatus) :
    Calls w (SessionM.call call x) P E s := by
  rw [Calls, wp_call]
  exact wp_mono hx (fun _ _ h' => ⟨h'.1.note h, h'.2⟩) (fun _ _ h' => ⟨h'.1.note h, h'.2⟩)

theorem calls_authStep
    (call : AuthCall) (fails : Bool)
    (hs : CallsAt w s)
    (h : StatusAt w (.auth call) s.childStatus) :
    Calls w (authStep call fails) (fun n => fails = false ∧ n = s.childStatus)
      (fun n => fails = true ∧ n = s.childStatus) s := by
  refine calls_call ?_ h
  cases fails <;> exact ⟨hs, rfl, rfl⟩

theorem calls_setupStep
    {stage : SetupType}
    (hs : CallsAt w s)
    (h : StatusAt w (.setupChroot i stage) s.childStatus) :
    Calls w (setupStep w i c stage) (· = s.childStatus) (· = s.childStatus) s := by
  have hframe : ∀ {s'}, StageFrame i stage s s' →
      CallsAt w s' ∧ s'.childStatus = s.childStatus := by
    intro s' hframe
    obtain ⟨evs, htrace, hevs⟩ := hframe.trace
    refine ⟨fun c' n e hmem => ?_, hframe.childStatus⟩
    rw [htrace, List.mem_append] at hmem
    rcases hmem with hmem | hmem
    · exact hs c' n e hmem
    · rcases hevs _ hmem with heq | hevent
      · cases heq
      · cases hevent
  exact calls_call (wp_mono (setupChroot_frame stage) (fun _ _ h => hframe h)
    (fun _ _ h => hframe h.1)) h

/-- The command: it is begun with the status of a success. -/
theorem calls_runChroot
    (hs : CallsAt w s)
    (h : s.childStatus = 0) :
    Calls w (call (.runChroot i) (runChroot w i))
      (fun n => n = afterCommand w i ∧ n = commandStatus w i) (· = afterCommand w i) s := by
  refine calls_call ?_ h
  unfold Calls runChroot afterCommand commandStatus
  cases w.outcomes.command i with
  | forkFailed => exact ⟨hs, h⟩
  | waitFailed code signalled => exact ⟨hs, rfl⟩
  | exited status => exact ⟨hs, rfl, rfl⟩

/-- The command in its session of the authentication library. -/
theorem calls_runCommand
    (hs : CallsAt w s)
    (h : s.childStatus = 0) :
    Calls w (runCommand w i) (fun n => n = afterCommand w i ∧ n = commandStatus w i)
      (fun n => n = 0 ∨ n = afterCommand w i) s := by
  have hleft : ∀ n, (n = if w.outcomes.authFails (.openSession i) then 0 else afterCommand w i) →
      n = 0 ∨ n = afterCommand w i := by
    intro n hn
    split at hn
    · exact .inl hn
    · exact .inr hn
  have hbody : Calls w (do authCall w (.openSession i); call (.runChroot i) (runChroot w i))
      (fun n => w.outcomes.authFails (.openSession i) = false ∧ n = afterCommand w i ∧
        n = commandStatus w i)
      (fun n => n = if w.outcomes.authFails (.openSession i) then 0 else afterCommand w i) s := by
    refine Calls.bind (P := fun n => w.outcomes.authFails (.openSession i) = false ∧ n = 0) ?_ ?_
    · refine (calls_authStep (.openSession i) _ hs h).mono (fun n hn => ⟨hn.1, hn.2.trans h⟩)
        (fun n hn => ?_)
      rw [if_pos hn.1]
      exact hn.2.trans h
    · intro _ s₁ hs₁ h₁
      refine (calls_runChroot hs₁ h₁.2).mono (fun n hn => ⟨h₁.1, hn⟩) (fun n hn => ?_)
      rw [if_neg (Bool.eq_false_iff.mp h₁.1)]
      exact hn
  refine Calls.bind ((hbody.onError fun s₁ hs₁ h₁ => ?_).mono (fun _ hn => hn) hleft) ?_
  · exact (calls_authStep (.closeSession i) _ hs₁ h₁).mono (fun n hn => hn.2.trans h₁)
      (fun n hn => hn.2.trans h₁)
  · rintro _ s₁ hs₁ ⟨hopen, hafter, hstatus⟩
    have hclose : StatusAt w (.auth (.closeSession i)) s₁.childStatus := by
      rw [StatusAt, hopen]
      exact hafter
    exact (calls_authStep (.closeSession i) _ hs₁ hclose).mono
      (fun n hn => ⟨hn.2.trans hafter, hn.2.trans hstatus⟩) (fun n hn => .inr (hn.2.trans hafter))

/-- What a chroot leaves before it is stopped. -/
theorem calls_startAndRun
    (hs : CallsAt w s)
    (h : s.childStatus = 0) :
    Calls w (startAndRun w i c)
      (fun n => StatusAt w (.setupChroot i .setupStop) n ∧ n = entryStatus w i)
      (StatusAt w (.setupChroot i .setupStop)) s := by
  have hstep : ∀ stage {s₁ : SessionState}, CallsAt w s₁ → s₁.childStatus = 0 →
      StatusAt w (.setupChroot i stage) s₁.childStatus →
        Calls w (setupStep w i c stage) (· = 0) (StatusAt w (.setupChroot i .setupStop)) s₁ :=
    fun stage s₁ hs₁ h₁ hstatus => (calls_setupStep hs₁ hstatus).mono (fun n hn => hn.trans h₁)
      (fun n hn => .inl (hn.trans h₁))
  refine Calls.bind (hstep .setupStart hs h h) fun _ s₁ hs₁ h₁ => ?_
  refine Calls.bind (hstep .setupRecover hs₁ h₁ h₁) fun _ s₂ hs₂ h₂ => ?_
  unfold entryStatus
  split
  · rename_i hruns
    exact (calls_runCommand hs₂ h₂).mono (fun n hn => ⟨.inr ⟨hruns, hn.1⟩, hn.2⟩)
      (fun n hn => hn.imp id fun hafter => ⟨hruns, hafter⟩)
  · exact ⟨hs₂, .inl h₂, h₂⟩

/-- **One chroot.** -/
theorem calls_runEntry
    (hs : CallsAt w s)
    (h : StatusAt w (.prepareChroot i) s.childStatus) :
    Calls w (runEntry w i entry) (· = entryStatus w i) (fun _ => True) s := by
  have hprepare : Calls w (call (.prepareChroot i) (Effect.ofExcept (prepareChroot w i entry)))
      (fun _ => True) (fun _ => True) s := by
    refine calls_call ?_ h
    rw [Calls, wp_ofExcept]
    split <;> exact ⟨hs, trivial⟩
  refine Calls.bind hprepare fun c s₁ hs₁ _ => ?_
  refine Calls.bind (P := (· = 0)) ⟨hs₁, rfl⟩ fun _ s₂ hs₂ h₂ => ?_
  have hstarted : Calls w (Effect.onError Exn.isSession (startAndRun w i c)
      (Effect.catching Exn.isSession (setupStep w i c .setupStop) (fun _ => pure ())))
      (fun n => StatusAt w (.setupChroot i .setupStop) n ∧ n = entryStatus w i)
      (StatusAt w (.setupChroot i .setupStop)) s₂ := by
    refine (calls_startAndRun hs₂ h₂).onError fun s₃ hs₃ h₃ => ?_
    refine Calls.catching ?_ fun _ s₄ hs₄ h₄ => ⟨hs₄, h₄⟩
    exact (calls_setupStep hs₃ h₃).mono (fun n hn => hn ▸ h₃) (fun n hn => hn ▸ h₃)
  refine Calls.bind (hstarted.mono (fun _ hn => hn) fun _ _ => trivial) fun _ s₃ hs₃ h₃ => ?_
  exact (calls_setupStep hs₃ h₃.1).mono (fun n hn => hn.trans h₃.2) (fun _ _ => trivial)

/-- **The loop**, by induction on the chroots. -/
theorem calls_runEntries
    (entries : List ChrootEntry)
    (hs : CallsAt w s)
    (h : StatusAt w (.prepareChroot i) s.childStatus) :
    Calls w (runEntries w i entries) (fun _ => True) (fun _ => True) s := by
  induction entries generalizing i s with
  | nil => exact ⟨hs, trivial⟩
  | cons entry entries ih =>
      exact Calls.bind ((calls_runEntry hs h).mono (fun _ hn => hn) fun _ _ => trivial)
        fun _ s₁ hs₁ h₁ => ih hs₁ h₁

/-- `run_impl`, which is begun with the status of a failure. -/
theorem calls_runImpl
    (hs : CallsAt w s)
    (h : s.childStatus = 1) :
    Calls w (runImpl w) (fun _ => True) (fun _ => True) s := by
  refine Calls.onError (Calls.bind (P := (· = 1)) (calls_call ?_ h) fun _ s₁ hs₁ h₁ => ?_)
    fun s₁ hs₁ _ => ⟨?_, trivial⟩
  · unfold setSignalHandlers
    split
    · exact ⟨hs, trivial⟩
    · exact ⟨hs, h⟩
  · exact calls_runEntries _ hs₁ h₁
  · unfold repairStatus
    split <;> exact hs₁

/-- The calls before `run_impl`. -/
theorem Calls.before
    {call : AuthCall} {fails : Bool} {x : SessionM Unit}
    (hs : CallsAt w s)
    (h : s.childStatus = 1)
    (hcall : ∀ n, StatusAt w (.auth call) n ↔ n = 1)
    (hx : ∀ s', CallsAt w s' → s'.childStatus = 1 → Calls w x (fun _ => True) (fun _ => True) s') :
    Calls w (do authStep call fails; x) (fun _ => True) (fun _ => True) s :=
  Calls.bind ((calls_authStep call fails hs ((hcall _).mpr h)).mono (fun _ hn => hn.2.trans h)
    fun _ _ => trivial) fun _ s' hs' h' => hx s' hs' h'

/-- The cleanup after it, which is made with any status. -/
theorem Calls.after
    {call : AuthCall} {x : SessionM Unit}
    (hcall : ∀ n, StatusAt w (.auth call) n)
    (hx : Calls w x (fun _ => True) (fun _ => True) s) :
    Calls w (do cleaningUp x (authCall w call); authCall w call) (fun _ => True) (fun _ => True)
      s := by
  have hcleanup : ∀ s', CallsAt w s' →
      Calls w (authCall w call) (fun _ => True) (fun _ => True) s' := fun s' hs' =>
    (calls_authStep call _ hs' (hcall _)).mono (fun _ _ => trivial) (fun _ _ => trivial)
  refine Calls.bind (Calls.onError hx fun s' hs' _ => ?_) fun _ s' hs' _ => hcleanup s' hs'
  exact Calls.catching (hcleanup s' hs') fun _ s₁ hs₁ _ => ⟨hs₁, trivial⟩

/-- **The child status at the calls of a run**, whatever fails in it. -/
theorem statusAt_run
    {files : SessionFiles} {call : Call} {n : Nat} {e : Option Exn}
    (h : .call call n e ∈ ((run w).exec { sessionFiles := files }).2.trace) :
    StatusAt w call n := by
  have hcredentials : ∀ s, CallsAt w s → s.childStatus = 1 →
      Calls w (runWithCredentials w) (fun _ => True) (fun _ => True) s := fun s hs h₁ =>
    Calls.after (fun _ => trivial) (Calls.before hs h₁ (fun _ => Iff.rfl) fun _ => calls_runImpl)
  have hrun : Calls w (run w) (fun _ => True) (fun _ => True) { sessionFiles := files } := by
    refine Calls.after (fun _ => trivial) ?_
    refine Calls.before (fun _ _ _ hmem => by simp at hmem) rfl (fun _ => Iff.rfl)
      fun s₁ hs₁ h₁ => ?_
    have hstatus : Calls w
        (SessionM.call .getAuthStatus (Effect.ofExcept ((getAuthStatus w).mapError .session)))
        (· = 1) (fun _ => True) s₁ := by
      refine calls_call ?_ h₁
      rw [Calls, wp_ofExcept]
      split
      · exact ⟨hs₁, h₁⟩
      · exact ⟨hs₁, trivial⟩
    refine Calls.bind hstatus fun status s₂ hs₂ h₂ => ?_
    refine Calls.before hs₂ h₂ (fun _ => Iff.rfl) fun s₃ hs₃ h₃ => ?_
    refine Calls.before hs₃ h₃ (fun _ => Iff.rfl) fun s₄ hs₄ h₄ => ?_
    exact Calls.before hs₄ h₄ (fun _ => Iff.rfl) hcredentials
  have hcalls : CallsAt w ((run w).exec { sessionFiles := files }).2 := (wp_state hrun).1
  exact hcalls call n e h

end Calls

section Files

variable {w : World} {i : Nat} {c : Chroot} {entry : ChrootEntry}

/-- The names of the session files. -/
def fileNames (chroots : List Chroot) : List String :=
  (chroots.filter hasFile).map Chroot.name

theorem mem_fileNames_cons
    {chroots : List Chroot} {name : String} :
    name ∈ fileNames (c :: chroots) ↔
      (hasFile c = true ∧ name = c.name) ∨ name ∈ fileNames chroots := by
  unfold fileNames
  rw [List.filter_cons]
  split
  · rename_i hfile
    simp [hfile]
  · rename_i hfile
    simp [hfile]

/-- **Sessions that are begun** are new, and the other files stay. -/
theorem Completed.begun
    {entries : List ChrootEntry} {chroots : List Chroot} {files files' : SessionFiles}
    (hop : w.session.operation = .opBegin)
    (h : Completed w i entries chroots files files')
    (name : String) :
    (name ∈ fileNames chroots → name ∉ files) ∧
      (name ∉ fileNames chroots → files'[name]? = files[name]?) := by
  induction h with
  | nil i files => exact ⟨fun hname => absurd hname (by simp [fileNames]), fun _ => rfl⟩
  | @cons i entry entries c chroots files files₁ files' hprepare heffect hrest ih =>
      have heq : files₁ = sessionEffect .opBegin c files := hop ▸ heffect.eq
      rw [mem_fileNames_cons]
      by_cases hfile : hasFile c = true
      · simp only [sessionEffect, hfile, if_true] at heq
        have hnew : c.name ∉ files := heffect.new (by rw [hop]; rfl) hfile
        subst heq
        constructor
        · rintro (⟨-, rfl⟩ | hname)
          · exact hnew
          · exact fun hmem => ih.1 hname (by simp [hmem])
        · intro hname
          obtain ⟨hne, hrest⟩ := not_or.mp hname
          rw [ih.2 hrest, SortedMap.getElem?_insert, if_neg fun h => hne ⟨hfile, h⟩]
      · simp only [sessionEffect, hfile] at heq
        subst heq
        simpa [hfile] using ih

/-- **Sessions that are ended** have no files, and the other files stay. -/
theorem Completed.ended
    {entries : List ChrootEntry} {chroots : List Chroot} {files files' : SessionFiles}
    (hop : w.session.operation = .opEnd)
    (h : Completed w i entries chroots files files')
    (name : String) :
    files'[name]? = if name ∈ fileNames chroots then none else files[name]? := by
  induction h with
  | nil i files => rfl
  | @cons i entry entries c chroots files files₁ files' hprepare heffect hrest ih =>
      have heq : files₁ = sessionEffect .opEnd c files := hop ▸ heffect.eq
      simp only [ih, mem_fileNames_cons]
      by_cases hfile : hasFile c = true
      · simp only [sessionEffect, hfile, if_true] at heq
        subst heq
        by_cases hname : name ∈ fileNames chroots
        · simp [hname]
        · simp only [hname, if_false, hfile, true_and, or_false]
          exact SortedMap.getElem?_erase _ _ _
      · simp only [sessionEffect, hfile] at heq
        subst heq
        simp [hfile]

/-- A chroot with a file of the name is worked with. -/
def FileOf (w : World) (name : String) : Prop :=
  ∃ c, WorksWith w c ∧ hasFile c = true ∧ c.name = name

/-- The names are those of the chroots that were prepared. -/
theorem Completed.mem_fileNames
    {entries : List ChrootEntry} {chroots : List Chroot} {files files' : SessionFiles}
    (h : Completed w i entries chroots files files')
    (name : String) :
    name ∈ fileNames chroots ↔
      ∃ j entry c, entries[j]? = some entry ∧ prepareChroot w (i + j) entry = .ok c ∧
        hasFile c = true ∧ c.name = name := by
  induction h with
  | nil i files => simp [fileNames]
  | @cons i entry entries c chroots files files₁ files' hprepare heffect hrest ih =>
      rw [mem_fileNames_cons, ih]
      constructor
      · rintro (⟨hfile, rfl⟩ | ⟨j, entry', c', hentry, hprepare', hfile, hname⟩)
        · exact ⟨0, entry, c, rfl, hprepare, hfile, rfl⟩
        · refine ⟨j + 1, entry', c', hentry, ?_, hfile, hname⟩
          rwa [Nat.add_right_comm] at hprepare'
      · rintro ⟨j, entry', c', hentry, hprepare', hfile, hname⟩
        cases j with
        | zero =>
            cases hentry
            rw [Nat.add_zero, hprepare] at hprepare'
            cases hprepare'
            exact .inl ⟨hfile, hname.symm⟩
        | succ j =>
            refine .inr ⟨j, entry', c', hentry, ?_, hfile, hname⟩
            rwa [Nat.add_right_comm]

theorem Completed.mem_fileNames_iff
    {chroots : List Chroot} {files files' : SessionFiles}
    (h : Completed w 0 w.session.chroots chroots files files')
    (name : String) :
    name ∈ fileNames chroots ↔ FileOf w name := by
  rw [h.mem_fileNames]
  constructor
  · rintro ⟨j, entry, c, hentry, hprepare, hfile, hname⟩
    exact ⟨c, ⟨j, entry, hentry, by rwa [Nat.zero_add] at hprepare⟩, hfile, hname⟩
  · rintro ⟨c, ⟨j, entry, hentry, hprepare⟩, hfile, hname⟩
    exact ⟨j, entry, c, hentry, by rwa [Nat.zero_add], hfile, hname⟩

/-- **Ending what was begun** leaves the files as they were before. -/
theorem begin_end
    {w' : World} {files files₁ files₂ : SessionFiles}
    (hbegin : w.session.operation = .opBegin)
    (hend : w'.session.operation = .opEnd)
    (hnames : ∀ name, FileOf w name ↔ FileOf w' name)
    (h : CompletedRun w files files₁)
    (h' : CompletedRun w' files₁ files₂) :
    files₂ = files := by
  obtain ⟨chroots, h⟩ := h
  obtain ⟨chroots', h'⟩ := h'
  refine Std.ExtTreeMap.ext_getElem? fun name => ?_
  have hmem : name ∈ fileNames chroots' ↔ name ∈ fileNames chroots := by
    rw [h'.mem_fileNames_iff, ← hnames, ← h.mem_fileNames_iff]
  obtain ⟨hnew, hsame⟩ := h.begun hbegin name
  rw [h'.ended hend name]
  split
  · rename_i hname
    exact (Std.ExtTreeMap.getElem?_eq_none (hnew (hmem.mp hname))).symm
  · rename_i hname
    exact hsame fun h => hname (hmem.mpr h)

/-- A user who may become root in the chroot. -/
def rootWorld (operation : Operation) : World :=
  smoothWorld operation [⟨"s", { directorySession with rootUsers := ["joe"] }⟩]

/-- The run for an operation, with what it finds and leaves. -/
def rootRun (operation : Operation) (files : SessionFiles) : Except Exn Unit × SessionState :=
  (run (rootWorld operation)).exec { sessionFiles := files }

/-- A session is begun and its file is there; it is ended and its file is gone. -/
theorem rootRun_done :
    (rootRun .opBegin ∅).1.isOk = true ∧
      "s" ∈ (rootRun .opBegin ∅).2.sessionFiles ∧
        (rootRun .opEnd (rootRun .opBegin ∅).2.sessionFiles).1.isOk = true := by
  decide +kernel

theorem exec_of_isOk
    {operation : Operation} {files : SessionFiles}
    (h : (rootRun operation files).1.isOk = true) :
    (run (rootWorld operation)).exec { sessionFiles := files } =
      (.ok (), (rootRun operation files).2) := by
  unfold rootRun at h ⊢
  cases hexec : (run (rootWorld operation)).exec { sessionFiles := files } with
  | mk r s' =>
      rw [hexec] at h
      cases r with
      | ok a => rfl
      | error e => cases h

/-- **A session is begun.** -/
theorem done_rootRun :
    "s" ∈ (rootRun .opBegin ∅).2.sessionFiles ∧
      Done (rootWorld .opBegin) {} (rootRun .opBegin ∅).2 :=
  ⟨rootRun_done.2.1, done_of_run rfl (exec_of_isOk rootRun_done.1)⟩

/-- **It is ended.** -/
theorem begin_end_rootRun :
    (rootRun .opEnd (rootRun .opBegin ∅).2.sessionFiles).2.sessionFiles = ∅ := by
  -- a session is prepared in the same way for both
  have hcreate : ({ directorySession with rootUsers := ["joe"] } : Chroot).getSessionFlags.create =
      false := by
    decide
  have hprepare : ∀ i entry c, (rootWorld .opBegin).session.chroots[i]? = some entry →
      (prepareChroot (rootWorld .opBegin) i entry = .ok c ↔
        prepareChroot (rootWorld .opEnd) i entry = .ok c) := by
    intro i entry c hentry
    have hsession : entry = ⟨"s", { directorySession with rootUsers := ["joe"] }⟩ :=
      List.mem_singleton.mp (List.mem_of_getElem? hentry)
    subst hsession
    simp only [prepareChroot, createSession, hcreate, Bool.false_and, Bool.false_eq_true, if_false]
    rfl
  have hbegun := completed_run rfl (exec_of_isOk rootRun_done.1)
  have hended := completed_run rfl (exec_of_isOk rootRun_done.2.2)
  refine begin_end ?_ ?_ (fun name => ?_) hbegun hended
  · rfl
  · rfl
  · constructor
    · rintro ⟨c, ⟨i, entry, hentry, hc⟩, hfile, hname⟩
      exact ⟨c, ⟨i, entry, hentry, (hprepare i entry c hentry).mp hc⟩, hfile, hname⟩
    · rintro ⟨c, ⟨i, entry, hentry, hc⟩, hfile, hname⟩
      exact ⟨c, ⟨i, entry, hentry, (hprepare i entry c hentry).mpr hc⟩, hfile, hname⟩

end Files

end Session

end Schroot
