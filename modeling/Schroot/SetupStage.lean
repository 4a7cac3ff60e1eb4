import Schroot.Session

/-!
# One stage of the setup scripts

The session file belongs to a session from the lock of its setup-start stage to the
unlock of its setup-stop stage.

**Results.**
* `setupLock_frame`: the one place at which locking touches the session file.
* `removalsFollowStop_iff`: the session file is removed after successful stop scripts
  only, unless the stop lock of an LVM snapshot fails.
* `sessionFiles_lock_failure_iff`: a failing start lock leaves the session files as they
  were, unless it has created the session file before it fails.
-/

namespace Schroot

open Effect SessionM

namespace Chroot

section Locking

variable {w : World} {i : Nat} {c : Chroot} {o : StageOutcomes} {s : SessionState}

/-- The session file may be touched, and the touching is noted. -/
structure InfoFrame (i : Nat) (start : Bool) (s s' : SessionState) : Prop where
  childStatus : s'.childStatus = s.childStatus
  chrootStatus : s'.chrootStatus = s.chrootStatus
  lockStatus : s'.lockStatus = s.lockStatus
  trace : s'.trace = s.trace ++ [.sessionInfo i start]

/-- **What `setup_session_info` does to the session files.** -/
theorem setupSessionInfo_spec (start : Bool) :
    Wp (c.setupSessionInfo w i o start)
      (fun _ s' => InfoFrame i start s s')
      (fun e s' => InfoFrame i start s s' ∧ e.isSession = false ∧ e.isAuth = false ∧
        (start = true →
          (s'.sessionFiles = s.sessionFiles ∧ (o.openFails = true ∨ c.name ∈ s.sessionFiles)) ∨
          (c.name ∈ s'.sessionFiles ∧ o.openFails = false ∧ c.name ∉ s.sessionFiles)))
      s := by
  unfold setupSessionInfo
  simp only [wp_bind, wp_note, wp_get]
  have hinfo : InfoFrame i start s (s.note (.sessionInfo i start)) := ⟨rfl, rfl, rfl, rfl⟩
  have hfiles : ∀ files, InfoFrame i start s
      { s.note (.sessionInfo i start) with sessionFiles := files } :=
    fun files => ⟨rfl, rfl, rfl, rfl⟩
  cases start with
  | true =>
      simp only [if_true]
      split
      · rename_i hopen
        exact ⟨hinfo, rfl, rfl, fun _ => .inl ⟨rfl, hopen⟩⟩
      · rename_i hopen
        obtain ⟨hfails, hnew⟩ := not_or.mp hopen
        have hfails' : o.openFails = false := by simpa using hfails
        have hnew' : c.name ∉ s.sessionFiles := hnew
        rw [wp_bind, wp_change]
        split
        · exact ⟨hfiles _, rfl, rfl, fun _ => .inr ⟨by simp, hfails', hnew'⟩⟩
        · cases o.details with
          | some e => exact ⟨hfiles _, rfl, rfl, fun _ => .inr ⟨by simp, hfails', hnew'⟩⟩
          | none =>
              simp only [wp_bind, wp_change]
              split
              · exact ⟨hfiles _, rfl, rfl, fun _ => .inr ⟨by simp, hfails', hnew'⟩⟩
              · exact hfiles _
  | false =>
      simp only [Bool.false_eq_true, if_false]
      split
      · exact ⟨hinfo, rfl, rfl, fun h => by cases h⟩
      · exact hfiles _

/-- The file of a chroot passes its check. -/
def fileOk : Option FileStatus → Bool
  | none => false
  | some status => status.uid = 0 && !status.otherWrite && status.isRegular

/-- The device of a chroot passes its check. -/
def deviceOk (stage : SetupType) : Option FileStatus → Bool
  | none => stage = .setupStop
  | some status => status.isBlock

/-- The checks that `setup_lock` makes before it gets to the session file. -/
def lockChecks (c : Chroot) (o : StageOutcomes) (stage : SetupType) (lock : Bool) : Bool :=
  match c.kind with
  | .file _ | .loopback _ => !(stage = .setupStart && lock) || fileOk o.lockStat
  | .blockDevice _ =>
      (stage = .setupStart && !lock) || (stage = .setupStop && lock) ||
        deviceOk stage (if lock then o.lockStat else o.unlockStat)
  | .lvmSnapshot l =>
      (stage = .setupStop && !lock) ||
        (lvmLockDevice l stage ≠ "" &&
          deviceOk stage (if lock then o.lockStat else o.unlockStat))
  | _ => true

def isPlain (c : Chroot) : Bool :=
  match c.kind with
  | .plain _ => true
  | _ => false

/-- The exceptions of the checks. -/
def IsLockError (stage : SetupType) (e : Exn) : Prop :=
  e.isChroot = true ∨ (e.isStat = true ∧ stage ≠ .setupStop)

theorem checkFile_spec (file : String) (status : Option FileStatus) (stage : SetupType) :
    Wp (checkFile file status)
      (fun _ s' => s' = s ∧ fileOk status = true)
      (fun e s' => s' = s ∧ fileOk status = false ∧ (stage ≠ .setupStop → IsLockError stage e))
      s := by
  unfold checkFile
  cases status with
  | none => exact ⟨rfl, rfl, fun h => .inr ⟨rfl, h⟩⟩
  | some status =>
      cases huid : decide (status.uid = 0)
      · have huid' : status.uid ≠ 0 := by simpa using huid
        simp only [huid', ne_eq, not_false_eq_true, if_true]
        exact ⟨rfl, by simp [fileOk, huid'], fun _ => .inl rfl⟩
      · have huid' : status.uid = 0 := by simpa using huid
        simp only [huid', ne_eq, not_true_eq_false, if_false]
        cases hwrite : status.otherWrite
        · cases hregular : status.isRegular
          · exact ⟨rfl, by simp [fileOk, hregular], fun _ => .inl rfl⟩
          · exact ⟨rfl, by simp [fileOk, huid', hwrite, hregular]⟩
        · exact ⟨rfl, by simp [fileOk, hwrite], fun _ => .inl rfl⟩

theorem checkDevice_spec
    (stage : SetupType) (device context : String) (status : Option FileStatus) :
    Wp (checkDevice stage device context status)
      (fun _ s' => s' = s ∧ deviceOk stage status = true)
      (fun e s' => s' = s ∧ deviceOk stage status = false ∧ IsLockError stage e) s := by
  unfold checkDevice
  rw [wp_catching]
  cases status with
  | none =>
      by_cases hstage : stage = .setupStop
      · simp [hstage, wp_throw, wp_pure, Exn.isStat, deviceOk]
      · simp [hstage, wp_throw, Exn.isStat, deviceOk, IsLockError]
  | some status =>
      cases hblock : status.isBlock
      · simp [hblock, wp_throwChroot, Exn.isStat, deviceOk, IsLockError, Exn.isChroot]
      · simp [hblock, wp_pure, deviceOk]

theorem wp_sessionLock
    {stage : SetupType} {lock : Bool} {status : Nat}
    {Q : Unit → SessionState → Prop} {E : Exn → SessionState → Prop} :
    Wp (c.sessionLock w i o stage lock status) Q E s ↔
      if changesSessionInfo stage lock status then
        Wp (c.setupSessionInfo w i o (stage = .setupStart)) Q E s
      else
        Q () s := by
  simp only [sessionLock, wp_ite, wp_pure]

/-- **What `setup_lock` does**: it checks, and then it may touch the session file. -/
theorem wp_setupLock
    {stage : SetupType} {lock : Bool} {status : Nat}
    {Q : Unit → SessionState → Prop} {E : Exn → SessionState → Prop}
    (hplain : c.isPlain = true → Q () s)
    (hfail : c.isPlain = false → c.lockChecks (w.outcomes.stage i stage) stage lock = false →
      ∀ e, IsLockError stage e → E e s)
    (hinfo : c.isPlain = false → c.lockChecks (w.outcomes.stage i stage) stage lock = true →
      changesSessionInfo stage lock status = true →
        Wp (c.setupSessionInfo w i (w.outcomes.stage i stage) (stage = .setupStart)) Q E s)
    (hrest : c.isPlain = false → c.lockChecks (w.outcomes.stage i stage) stage lock = true →
      changesSessionInfo stage lock status = false → Q () s) :
    Wp (c.setupLock w i stage lock status) Q E s := by
  have hsession : c.isPlain = false →
      c.lockChecks (w.outcomes.stage i stage) stage lock = true →
        Wp (c.sessionLock w i (w.outcomes.stage i stage) stage lock status) Q E s := by
    intro hp hchecks
    rw [wp_sessionLock]
    split
    · exact hinfo hp hchecks ‹_›
    · rename_i hchanges
      exact hrest hp hchecks (by simpa using hchanges)
  have hfile : ∀ file, c.isPlain = false →
      c.lockChecks (w.outcomes.stage i stage) stage lock =
        (!(stage = .setupStart && lock) || fileOk (w.outcomes.stage i stage).lockStat) →
      Wp (c.fileLock w i (w.outcomes.stage i stage) file stage lock status) Q E s := by
    intro file hp hchecks
    unfold fileLock
    split
    · rename_i hstart
      refine (wp_bind _ _).mpr (wp_mono (checkFile_spec file _ stage) ?_ ?_)
      · rintro _ _ ⟨rfl, hok⟩
        exact hsession hp (by rw [hchecks, hok, Bool.or_true])
      · rintro e _ ⟨rfl, hok, he⟩
        refine hfail hp ?_ e (he (by simp [hstart.1]))
        rw [hchecks, hok]
        simp [hstart]
    · rename_i hstart
      refine hsession hp ?_
      rw [hchecks]
      cases stage <;> cases lock <;> simp at hstart ⊢
  unfold setupLock
  cases hk : c.kind with
  | plain directory => exact hplain (by simp [isPlain, hk])
  | directory directory => exact hsession (by simp [isPlain, hk]) (by simp [lockChecks, hk])
  | custom purgeable => exact hsession (by simp [isPlain, hk]) (by simp [lockChecks, hk])
  | zfsSnapshot z => exact hsession (by simp [isPlain, hk]) (by simp [lockChecks, hk])
  | btrfsSnapshot b => exact hsession (by simp [isPlain, hk]) (by simp [lockChecks, hk])
  | file f => exact hfile f.file (by simp [isPlain, hk]) (by simp [lockChecks, hk])
  | loopback file => exact hfile file (by simp [isPlain, hk]) (by simp [lockChecks, hk])
  | blockDevice device =>
      have hp : c.isPlain = false := by simp [isPlain, hk]
      simp only [blockDeviceLock, wp_ite, wp_pure, wp_bind]
      split
      · rename_i hskip
        refine hrest hp ?_ ?_
        · rcases hskip with ⟨h₁, h₂⟩ | ⟨h₁, h₂⟩ <;> simp [lockChecks, hk, h₁, h₂]
        · rcases hskip with ⟨h₁, h₂⟩ | ⟨h₁, h₂⟩ <;> simp [changesSessionInfo, h₁, h₂]
      · rename_i hskip
        have hchecks : c.lockChecks (w.outcomes.stage i stage) stage lock =
            deviceOk stage (if lock then (w.outcomes.stage i stage).lockStat
              else (w.outcomes.stage i stage).unlockStat) := by
          simp only [lockChecks, hk]
          cases stage <;> cases lock <;> simp_all
        refine wp_mono (checkDevice_spec stage device device _) ?_ ?_
        · rintro _ _ ⟨rfl, hok⟩
          exact hsession hp (hchecks.trans hok)
        · rintro e _ ⟨rfl, hok, he⟩
          exact hfail hp (hchecks.trans hok) e he
  | lvmSnapshot l =>
      have hp : c.isPlain = false := by simp [isPlain, hk]
      have hchecks : c.lockChecks (w.outcomes.stage i stage) stage lock =
          ((stage = .setupStop && !lock) || (lvmLockDevice l stage ≠ "" &&
            deviceOk stage (if lock then (w.outcomes.stage i stage).lockStat
              else (w.outcomes.stage i stage).unlockStat))) := by
        simp only [lockChecks, hk]
      show Wp (c.lvmSnapshotLock w i _ l stage lock status) Q E s
      unfold lvmSnapshotLock
      split
      · rename_i hskip
        exact hsession hp (by rw [hchecks]; simp [hskip])
      · rename_i hskip
        have hskip' : (decide (stage = .setupStop) && !lock) = false := by
          cases stage <;> cases lock <;> simp at hskip ⊢
        rw [hskip', Bool.false_or] at hchecks
        by_cases hdevice : lvmLockDevice l stage = ""
        · simp only [hdevice, if_true]
          exact hfail hp (by simp [hchecks, hdevice]) _ (.inl rfl)
        · simp only [hdevice, if_false]
          refine (wp_bind _ _).mpr (wp_mono (checkDevice_spec stage _ l.device _) ?_ ?_)
          · rintro _ _ ⟨rfl, hok⟩
            exact hsession hp (by simp [hchecks, hok, hdevice])
          · rintro e _ ⟨rfl, hok, he⟩
            exact hfail hp (by simp [hchecks, hok]) e he

/-- The session file is touched at most once. -/
structure LockFrame (i : Nat) (stage : SetupType) (lock : Bool) (status : Nat)
    (s s' : SessionState) : Prop where
  childStatus : s'.childStatus = s.childStatus
  chrootStatus : s'.chrootStatus = s.chrootStatus
  lockStatus : s'.lockStatus = s.lockStatus
  trace : s'.trace = s.trace ∨
    (changesSessionInfo stage lock status = true ∧
      s'.trace = s.trace ++ [.sessionInfo i (stage = .setupStart)])

theorem LockFrame.refl
    (i : Nat) (stage : SetupType) (lock : Bool) (status : Nat) (s : SessionState) :
    LockFrame i stage lock status s s :=
  ⟨rfl, rfl, rfl, .inl rfl⟩

/-- **What locking can change and throw.** -/
theorem setupLock_frame (stage : SetupType) (lock : Bool) (status : Nat) :
    Wp (c.setupLock w i stage lock status)
      (fun _ s' => LockFrame i stage lock status s s')
      (fun e s' => LockFrame i stage lock status s s' ∧
        e.isSession = false ∧ e.isAuth = false) s := by
  refine wp_setupLock (fun _ => .refl i stage lock status s) (fun _ _ e he => ?_)
    (fun _ _ hchanges => ?_) (fun _ _ _ => .refl i stage lock status s)
  · refine ⟨.refl i stage lock status s, ?_⟩
    rcases he with he | ⟨he, _⟩ <;> cases e <;>
      simp_all [Exn.isChroot, Exn.isStat, Exn.isSession, Exn.isAuth]
  · refine wp_mono (setupSessionInfo_spec _) ?_ ?_
    · rintro _ s' h
      exact ⟨h.childStatus, h.chrootStatus, h.lockStatus, .inr ⟨hchanges, h.trace⟩⟩
    · rintro e s' ⟨h, hsession, hauth, _⟩
      exact ⟨⟨h.childStatus, h.chrootStatus, h.lockStatus, .inr ⟨hchanges, h.trace⟩⟩,
        hsession, hauth⟩

end Locking

end Chroot

namespace Session

section Stages

variable {w : World} {i : Nat} {c : Chroot} {s : SessionState}

/-- **What running the setup scripts comes to.** -/
theorem runScripts_spec (stage : SetupType) :
    Wp (runScripts w i c stage)
      (fun status s' => ∃ args env code,
        (w.outcomes.stage i stage).scripts = .exited code ∧ status = code.val ∧
          s' = s.note (.scripts i stage args env (.exited code)))
      (fun e s' => s'.childStatus = s.childStatus ∧ s'.lockStatus = s.lockStatus ∧
        e.isAuth = false ∧
        (s'.trace = s.trace ∨
          ∃ args env code signalled,
            (w.outcomes.stage i stage).scripts = .waitFailed code signalled ∧
              e.isSession = true ∧
              s'.trace = s.trace ++ [.scripts i stage args env (.waitFailed code signalled)]))
      s := by
  rw [runScripts, wp_bind, wp_get, wp_bind, wp_ofExcept]
  cases scriptEnvironment w c with
  | error e => exact ⟨rfl, rfl, rfl, .inl rfl⟩
  | ok env =>
      simp only [Except.mapError]
      cases (w.outcomes.stage i stage).scripts with
      | forkFailed => exact ⟨rfl, rfl, rfl, .inl rfl⟩
      | waitFailed code signalled =>
          exact ⟨rfl, rfl, rfl, .inr ⟨_, _, code, signalled, rfl, rfl, rfl⟩⟩
      | exited code => exact ⟨_, _, code, rfl, rfl, rfl⟩

/-- The events of a lock or unlock. -/
def LockEvents (i : Nat) (stage : SetupType) (lock : Bool) (status : Nat)
    (evs : List Event) : Prop :=
  evs = [] ∨
    (Chroot.changesSessionInfo stage lock status = true ∧
      evs = [.sessionInfo i (stage = .setupStart)])

theorem LockFrame.exists_events
    {stage : SetupType} {lock : Bool} {status : Nat} {s' : SessionState}
    (h : Chroot.LockFrame i stage lock status s s') :
    ∃ evs, s'.trace = s.trace ++ evs ∧ LockEvents i stage lock status evs := by
  rcases h.trace with htrace | ⟨hchanges, htrace⟩
  · exact ⟨[], by simpa using htrace, .inl rfl⟩
  · exact ⟨_, htrace, .inr ⟨hchanges, rfl⟩⟩

/-- **What unlocking a stage comes to.** -/
theorem unlockStage_spec (stage : SetupType) (status : Nat) :
    Wp (unlockStage w i c stage status)
      (fun _ s' => Chroot.LockFrame i stage false status s s')
      (fun e s' => s'.childStatus = s.childStatus ∧ e.isAuth = false ∧
        ∃ evs, LockEvents i stage false status evs ∧
          ((e.isSession = true ∧ s'.trace = s.trace ++ evs ++ [.lockFailed i stage]) ∨
            (e.isSession = false ∧ s'.trace = s.trace ++ evs))) s := by
  unfold unlockStage
  rw [wp_catching]
  refine wp_mono (Chroot.setupLock_frame stage false status) (fun _ _ h => h) ?_
  rintro e s' ⟨h, hsession, hauth⟩
  obtain ⟨evs, htrace, hevs⟩ := LockFrame.exists_events h
  split
  · refine ⟨h.childStatus, rfl, evs, hevs, .inl ⟨rfl, ?_⟩⟩
    show s'.trace ++ _ = _
    rw [htrace]
  · exact ⟨h.childStatus, hauth, evs, hevs, .inr ⟨hsession, htrace⟩⟩

/-- **What locking a stage comes to.**  After a failure the unlocking has status zero. -/
theorem lockStage_spec (stage : SetupType) :
    Wp (lockStage w i c stage)
      (fun _ s' => Chroot.LockFrame i stage true 0 s s')
      (fun e s' => s'.childStatus = s.childStatus ∧ e.isAuth = false ∧
        ∃ evs, LockEvents i stage true 0 evs ∧
          ((∃ evs', LockEvents i stage false 0 evs' ∧
              s'.trace = s.trace ++ evs ++ .lockFailed i stage :: evs') ∨
            (e.isSession = false ∧ s'.trace = s.trace ++ evs))) s := by
  unfold lockStage
  rw [wp_catching]
  refine wp_mono (Chroot.setupLock_frame stage true 0) (fun _ _ h => h) ?_
  rintro e s' ⟨h, hsession, hauth⟩
  obtain ⟨evs, htrace, hevs⟩ := LockFrame.exists_events h
  split
  · simp only [wp_bind, lockFailure, wp_note, wp_change, wp_catching, wp_throwSession, wp_pure]
    have hunlock : ∀ s'' : SessionState,
        Chroot.LockFrame i stage false 0
          { s'.note (.lockFailed i stage) with chrootStatus := false, lockStatus := false }
          s'' →
        s''.childStatus = s.childStatus ∧
          ∃ evs', LockEvents i stage false 0 evs' ∧
            s''.trace = s.trace ++ evs ++ .lockFailed i stage :: evs' := by
      intro s'' h''
      obtain ⟨evs', htrace', hevs'⟩ := LockFrame.exists_events h''
      refine ⟨h''.childStatus.trans h.childStatus, evs', hevs', ?_⟩
      rw [htrace', SessionState.note_trace, htrace]
      simp
    refine wp_mono (Chroot.setupLock_frame stage false 0) ?_ ?_
    · intro _ s'' h''
      obtain ⟨hchild, evs', hevs', htrace'⟩ := hunlock s'' h''
      exact ⟨hchild, rfl, evs, hevs, .inl ⟨evs', hevs', htrace'⟩⟩
    · rintro e' s'' ⟨h'', -, hauth'⟩
      obtain ⟨hchild, evs', hevs', htrace'⟩ := hunlock s'' h''
      split
      · exact ⟨hchild, rfl, evs, hevs, .inl ⟨evs', hevs', htrace'⟩⟩
      · exact ⟨hchild, hauth', evs, hevs, .inl ⟨evs', hevs', htrace'⟩⟩
  · exact ⟨h.childStatus, hauth, evs, hevs, .inr ⟨hsession, htrace⟩⟩

/-- The events of one stage for one chroot, after the stage has been entered. -/
inductive StageEvent (i : Nat) (stage : SetupType) : Event → Prop
  | lockFailed : StageEvent i stage (.lockFailed i stage)
  | scripts (args : List String) (env : List (String × String)) (outcome : ChildOutcome) :
      StageEvent i stage (.scripts i stage args env outcome)
  | created (h : stage = .setupStart) : StageEvent i stage (.sessionInfo i true)
  | removed (h : stage = .setupStop) : StageEvent i stage (.sessionInfo i false)

theorem LockEvents.stageEvent
    {stage : SetupType} {lock : Bool} {status : Nat} {evs : List Event}
    (h : LockEvents i stage lock status evs) :
    ∀ ev ∈ evs, StageEvent i stage ev := by
  rcases h with rfl | ⟨hchanges, rfl⟩
  · simp
  · intro ev hev
    rw [List.mem_singleton.mp hev]
    cases stage with
    | setupStart => exact .created rfl
    | setupStop => exact .removed rfl
    | setupRecover => simp [Chroot.changesSessionInfo] at hchanges

/-- The body of a stage leaves the child status alone and notes its own events. -/
structure BodyFrame (i : Nat) (stage : SetupType) (s s' : SessionState) : Prop where
  childStatus : s'.childStatus = s.childStatus
  trace : ∃ evs, s'.trace = s.trace ++ evs ∧ ∀ ev ∈ evs, StageEvent i stage ev

theorem BodyFrame.append
    {stage : SetupType} {s s' s'' : SessionState} {evs : List Event}
    (h : BodyFrame i stage s s')
    (hchild : s''.childStatus = s'.childStatus)
    (htrace : s''.trace = s'.trace ++ evs)
    (hevs : ∀ ev ∈ evs, StageEvent i stage ev) :
    BodyFrame i stage s s'' := by
  obtain ⟨evs', htrace', hevs'⟩ := h.trace
  refine ⟨hchild.trans h.childStatus, evs' ++ evs, by rw [htrace, htrace', List.append_assoc],
    fun ev hev => ?_⟩
  rcases List.mem_append.mp hev with hev | hev
  · exact hevs' ev hev
  · exact hevs ev hev

theorem BodyFrame.refl (i : Nat) (stage : SetupType) (s : SessionState) :
    BodyFrame i stage s s :=
  ⟨rfl, [], by simp, by simp⟩

theorem stageBody_frame (stage : SetupType) :
    Wp (stageBody w i c stage)
      (fun _ s' => BodyFrame i stage s s')
      (fun e s' => BodyFrame i stage s s' ∧ e.isAuth = false) s := by
  simp only [stageBody, wp_bind]
  have hstart := BodyFrame.refl i stage s
  refine wp_mono (lockStage_spec stage) ?_ ?_
  · intro _ s₁ h₁
    obtain ⟨evs₁, htrace₁, hevs₁⟩ := LockFrame.exists_events h₁
    have hf₁ := hstart.append h₁.childStatus htrace₁ hevs₁.stageEvent
    refine wp_mono (runScripts_spec stage) ?_ ?_
    · rintro _ _ ⟨args, env, code, -, rfl, rfl⟩
      have hf₂ : BodyFrame i stage s (s₁.note (.scripts i stage args env (.exited code))) :=
        hf₁.append rfl rfl (fun ev hev => by
          rw [List.mem_singleton.mp hev]
          exact .scripts args env _)
      refine wp_mono (unlockStage_spec stage code.val) ?_ ?_
      · intro _ s₃ h₃
        obtain ⟨evs₃, htrace₃, hevs₃⟩ := LockFrame.exists_events h₃
        have hf₃ := hf₂.append h₃.childStatus htrace₃ hevs₃.stageEvent
        split
        · exact ⟨⟨hf₃.childStatus, hf₃.trace⟩, rfl⟩
        · exact hf₃
      · rintro e s₃ ⟨hchild, hauth, evs, hevs, ⟨-, htrace⟩ | ⟨-, htrace⟩⟩
        · refine ⟨hf₂.append hchild (htrace.trans (List.append_assoc _ _ _)) ?_, hauth⟩
          intro ev hev
          rcases List.mem_append.mp hev with hev | hev
          · exact hevs.stageEvent ev hev
          · rw [List.mem_singleton.mp hev]
            exact .lockFailed
        · exact ⟨hf₂.append hchild htrace hevs.stageEvent, hauth⟩
    · rintro e s₂ ⟨hchild, -, hauth, htrace | ⟨args, env, code, signalled, -, -, htrace⟩⟩
      · exact ⟨hf₁.append hchild (htrace.trans (List.append_nil _).symm) (by simp), hauth⟩
      · refine ⟨hf₁.append hchild htrace (fun ev hev => ?_), hauth⟩
        rw [List.mem_singleton.mp hev]
        exact .scripts args env _
  · rintro e s₁ ⟨hchild, hauth, evs, hevs, ⟨evs', hevs', htrace⟩ | ⟨-, htrace⟩⟩
    · refine ⟨hstart.append hchild (htrace.trans (List.append_assoc _ _ _)) ?_, hauth⟩
      intro ev hev
      rcases List.mem_append.mp hev with hev | hev
      · exact hevs.stageEvent ev hev
      · rcases List.mem_cons.mp hev with rfl | hev
        · exact .lockFailed
        · exact hevs'.stageEvent ev hev
    · exact ⟨hstart.append hchild htrace hevs.stageEvent, hauth⟩

/-- A stage notes that it is entered, if it is, and then its own events. -/
structure StageFrame (i : Nat) (stage : SetupType) (s s' : SessionState) : Prop where
  childStatus : s'.childStatus = s.childStatus
  trace : ∃ evs, s'.trace = s.trace ++ evs ∧
    ∀ ev ∈ evs, ev = .setup i stage ∨ StageEvent i stage ev

theorem StageFrame.refl (i : Nat) (stage : SetupType) (s : SessionState) :
    StageFrame i stage s s :=
  ⟨rfl, [], by simp, by simp⟩

/-- Entering a stage. -/
theorem wp_setupStage
    {stage : SetupType} {Q : Unit → SessionState → Prop} {E : Exn → SessionState → Prop} :
    Wp (setupStage w i c stage) Q E s ↔
      Wp (stageBody w i c stage) Q E
        { s.note (.setup i stage) with chrootStatus := stage = .setupStart || s.chrootStatus } := by
  rw [setupStage, wp_bind, wp_note, wp_bind, wp_change]
  rfl

theorem setupStage_frame (stage : SetupType) :
    Wp (setupStage w i c stage)
      (fun _ s' => StageFrame i stage s s')
      (fun e s' => StageFrame i stage s s' ∧ e.isAuth = false) s := by
  have hframe : ∀ s' : SessionState, BodyFrame i stage
      { s.note (.setup i stage) with chrootStatus := stage = .setupStart || s.chrootStatus } s' →
        StageFrame i stage s s' := by
    rintro s' ⟨hchild, evs, htrace, hevs⟩
    refine ⟨hchild, .setup i stage :: evs, by rw [htrace]; simp, fun ev hev => ?_⟩
    rcases List.mem_cons.mp hev with rfl | hev
    · exact .inl rfl
    · exact .inr (hevs ev hev)
  rw [wp_setupStage]
  exact wp_mono (stageBody_frame stage) (fun _ s' h => hframe s' h)
    (fun _ s' h => ⟨hframe s' h.1, h.2⟩)

/-- **The frame of `setup_chroot`.** -/
theorem setupChroot_frame (stage : SetupType) :
    Wp (setupChroot w i c stage)
      (fun _ s' => StageFrame i stage s s')
      (fun e s' => StageFrame i stage s s' ∧ e.isAuth = false) s := by
  rw [setupChroot, wp_bind, wp_get, wp_ite]
  split
  · exact setupStage_frame stage
  · exact .refl i stage s

end Stages

section Removal

variable {w : World} {i : Nat} {c : Chroot} {s : SessionState}

/-- The events that a computation adds to the trace. -/
def newEvents {α : Type} (x : SessionM α) (s : SessionState) : List Event :=
  (x.exec s).2.trace.drop s.trace.length

theorem newEvents_eq
    {α : Type} {x : SessionM α} {P : List Event → Prop}
    (h : Wp x (fun _ s' => ∃ evs, s'.trace = s.trace ++ evs ∧ P evs)
      (fun _ s' => ∃ evs, s'.trace = s.trace ++ evs ∧ P evs) s) :
    P (newEvents x s) := by
  have hevs : ∃ evs, (x.exec s).2.trace = s.trace ++ evs ∧ P evs := by
    unfold Wp at h
    cases hx : x.exec s with
    | mk r s' => cases r <;> simpa [hx] using h
  obtain ⟨evs, htrace, hP⟩ := hevs
  simpa [newEvents, htrace] using hP

/-- Every removal of the session file comes after setup-stop scripts that exited with
status zero. -/
def RemovalsFollowStop (i : Nat) (evs : List Event) : Prop :=
  ∀ pre post, evs = pre ++ .sessionInfo i false :: post →
    ∃ args env, .scripts i .setupStop args env (.exited 0) ∈ pre

theorem removalsFollowStop_of_notMem
    {evs : List Event}
    (h : .sessionInfo i false ∉ evs) :
    RemovalsFollowStop i evs := by
  rintro pre post rfl
  simp at h

/-- A removal at the end follows the scripts that are noted before it. -/
theorem removalsFollowStop_append
    {evs : List Event}
    (args : List String)
    (env : List (String × String))
    (h : .sessionInfo i false ∉ evs)
    (hscripts : .scripts i .setupStop args env (.exited 0) ∈ evs) :
    RemovalsFollowStop i (evs ++ [.sessionInfo i false]) := by
  intro pre post heq
  rcases List.eq_nil_or_concat post with rfl | ⟨post, last, rfl⟩
  · have hpre : evs = pre := (List.append_inj' heq rfl).1
    exact ⟨args, env, hpre ▸ hscripts⟩
  · have hcons : pre ++ Event.sessionInfo i false :: post.concat last =
        (pre ++ .sessionInfo i false :: post) ++ [last] := by simp
    rw [hcons] at heq
    have hmem : Event.sessionInfo i false ∈ evs := by
      rw [(List.append_inj' heq rfl).1]
      simp
    exact absurd hmem h

/-- The stop lock of an LVM snapshot fails: the session has no snapshot device, or the
file of that name is no block device. -/
def LvmStopLockFails (w : World) (i : Nat) (c : Chroot) : Prop :=
  ∃ l, c.kind = .lvmSnapshot l ∧
    (l.snapshotDevice = "" ∨
      ∃ status, (w.outcomes.stage i .setupStop).lockStat = some status ∧
        status.isBlock = false)

theorem lockChecks_setupStop_eq_false_iff :
    c.lockChecks (w.outcomes.stage i .setupStop) .setupStop true = false ↔
      LvmStopLockFails w i c := by
  unfold Chroot.lockChecks LvmStopLockFails
  cases hk : c.kind with
  | lvmSnapshot l =>
      cases hstat : (w.outcomes.stage i .setupStop).lockStat with
      | none => simp [Chroot.lvmLockDevice, Chroot.deviceOk]
      | some status =>
          by_cases hdevice : l.snapshotDevice = ""
          · simp [Chroot.lvmLockDevice, Chroot.deviceOk, hdevice]
          · simp [Chroot.lvmLockDevice, Chroot.deviceOk, hdevice]
  | _ => simp

theorem RemovalsFollowStop.append
    {evs : List Event} {e : Event}
    (h : RemovalsFollowStop i evs)
    (he : e ≠ .sessionInfo i false) :
    RemovalsFollowStop i (evs ++ [e]) := by
  intro pre post heq
  rcases List.eq_nil_or_concat post with rfl | ⟨post, last, rfl⟩
  · exact absurd (List.cons.inj (List.append_inj' heq rfl).2).1 he
  · have hcons : pre ++ Event.sessionInfo i false :: post.concat last =
        (pre ++ .sessionInfo i false :: post) ++ [last] := by simp
    rw [hcons] at heq
    exact h pre post (List.append_inj' heq rfl).1

/-- The stop lock changes nothing when it does not fail. -/
theorem lockStage_setupStop_spec
    (hlvm : ¬ LvmStopLockFails w i c) :
    Wp (lockStage w i c .setupStop) (fun _ s' => s' = s) (fun _ _ => False) s := by
  rw [lockStage, wp_catching]
  refine Chroot.wp_setupLock (fun _ => rfl) (fun _ hchecks => ?_) (fun _ _ hchanges => ?_)
    (fun _ _ _ => rfl)
  · exact absurd (lockChecks_setupStop_eq_false_iff.mp hchecks) hlvm
  · simp [Chroot.changesSessionInfo] at hchanges

/-- When the stop lock of an LVM snapshot fails, the unlocking removes the session
file. -/
theorem lockStage_lvm_spec
    (hlvm : LvmStopLockFails w i c) :
    Wp (lockStage w i c .setupStop) (fun _ _ => False)
      (fun _ s' => s'.trace =
        s.trace ++ [.lockFailed i .setupStop, .sessionInfo i false]) s := by
  obtain ⟨l, hk, -⟩ := id hlvm
  have hplain : c.isPlain = false := by simp [Chroot.isPlain, hk]
  rw [lockStage, wp_catching]
  refine Chroot.wp_setupLock (fun h => by simp [hplain] at h) (fun _ _ e he => ?_)
    (fun _ hchecks => ?_) (fun _ hchecks => ?_)
  · have hchroot : e.isChroot = true := by simpa [Chroot.IsLockError] using he
    rw [if_pos hchroot]
    simp only [wp_bind, lockFailure, wp_note, wp_change, wp_catching, wp_throwSession, wp_pure]
    refine Chroot.wp_setupLock (fun h => by simp [hplain] at h) (fun _ hchecks => ?_)
      (fun _ _ _ => ?_) (fun _ _ hchanges => ?_)
    · simp [Chroot.lockChecks, hk] at hchecks
    · refine wp_mono (Chroot.setupSessionInfo_spec _) ?_ ?_
      · rintro _ s' h
        simpa using h.trace
      · rintro e' s' ⟨h, -⟩
        have htrace : s'.trace =
            s.trace ++ [.lockFailed i .setupStop, .sessionInfo i false] := by
          simpa using h.trace
        split <;> exact htrace
    · simp [Chroot.changesSessionInfo] at hchanges
  · simp [lockChecks_setupStop_eq_false_iff.mpr hlvm] at hchecks
  · simp [lockChecks_setupStop_eq_false_iff.mpr hlvm] at hchecks

/-- The events of a stop stage whose lock does not fail. -/
theorem setupStage_setupStop_spec
    (hlvm : ¬ LvmStopLockFails w i c) :
    Wp (setupStage w i c .setupStop)
      (fun _ s' => ∃ evs, s'.trace = s.trace ++ evs ∧ RemovalsFollowStop i evs)
      (fun _ s' => ∃ evs, s'.trace = s.trace ++ evs ∧ RemovalsFollowStop i evs) s := by
  rw [wp_setupStage]
  simp only [stageBody, wp_bind]
  refine wp_mono (lockStage_setupStop_spec hlvm) ?_ (fun _ _ h => h.elim)
  rintro _ _ rfl
  refine wp_mono (runScripts_spec .setupStop) ?_ ?_
  · -- The scripts have run, and the removal depends on their exit status.
    rintro _ _ ⟨args, env, code, -, rfl, rfl⟩
    have hevs : ∀ evs, LockEvents i .setupStop false code.val evs →
        RemovalsFollowStop i
          ([.setup i .setupStop, .scripts i .setupStop args env (.exited code)] ++ evs) := by
      rintro evs (rfl | ⟨hchanges, rfl⟩)
      · exact removalsFollowStop_of_notMem (by simp)
      · have hcode : code = 0 := by
          simpa [Chroot.changesSessionInfo] using hchanges
        subst hcode
        exact removalsFollowStop_append args env (by simp) (by simp)
    refine wp_mono (unlockStage_spec .setupStop code.val) ?_ ?_
    · intro _ s' h
      obtain ⟨evs, htrace, hlock⟩ := LockFrame.exists_events h
      have htrace' : s'.trace = s.trace ++
          ([.setup i .setupStop, .scripts i .setupStop args env (.exited code)] ++ evs) := by
        simpa using htrace
      split
      · exact ⟨_, htrace', hevs evs hlock⟩
      · exact ⟨_, htrace', hevs evs hlock⟩
    · rintro e s' ⟨-, -, evs, hlock, ⟨-, htrace⟩ | ⟨-, htrace⟩⟩
      · exact ⟨_, by simpa using htrace, (hevs evs hlock).append (by simp)⟩
      · exact ⟨_, by simpa using htrace, hevs evs hlock⟩
  · rintro e s' ⟨-, -, -, htrace | ⟨args, env, code, signalled, -, -, htrace⟩⟩
    · exact ⟨[.setup i .setupStop], by simpa using htrace,
        removalsFollowStop_of_notMem (by simp)⟩
    · exact ⟨[.setup i .setupStop, .scripts i .setupStop args env (.waitFailed code signalled)],
        by simpa using htrace, removalsFollowStop_of_notMem (by simp)⟩

/-- **The session file is removed after successful stop scripts only**, unless the stop
lock of an LVM snapshot fails. -/
theorem removalsFollowStop_iff
    (w : World) (i : Nat) (c : Chroot) (stage : SetupType) (s : SessionState) :
    RemovalsFollowStop i (newEvents (setupChroot w i c stage) s) ↔
      ¬ (stage = .setupStop ∧ entersStage w c stage s = true ∧ LvmStopLockFails w i c) := by
  constructor
  · rintro h ⟨rfl, henters, hlvm⟩
    have hevents : newEvents (setupChroot w i c .setupStop) s =
        [.setup i .setupStop, .lockFailed i .setupStop, .sessionInfo i false] := by
      refine newEvents_eq (P := fun evs => evs =
        [.setup i .setupStop, .lockFailed i .setupStop, .sessionInfo i false]) ?_
      rw [setupChroot, wp_bind, wp_get, wp_ite, if_pos henters]
      rw [wp_setupStage, stageBody, wp_bind]
      refine wp_mono (lockStage_lvm_spec hlvm) (fun _ _ h => h.elim) ?_
      intro _ s' htrace
      exact ⟨_, by simpa using htrace, rfl⟩
    obtain ⟨args, env, hmem⟩ := h [.setup i .setupStop, .lockFailed i .setupStop] [] hevents
    simp at hmem
  · intro h
    refine newEvents_eq ?_
    by_cases hstop : stage = .setupStop
    · subst hstop
      rw [setupChroot, wp_bind, wp_get, wp_ite]
      split
      · rename_i henters
        exact setupStage_setupStop_spec fun hlvm => h ⟨rfl, henters, hlvm⟩
      · exact ⟨[], by simp, removalsFollowStop_of_notMem (by simp)⟩
    · have hframe : ∀ s' : SessionState, StageFrame i stage s s' →
          ∃ evs, s'.trace = s.trace ++ evs ∧ RemovalsFollowStop i evs := by
        rintro s' ⟨-, evs, htrace, hevs⟩
        refine ⟨evs, htrace, removalsFollowStop_of_notMem fun hmem => ?_⟩
        rcases hevs _ hmem with h | h
        · cases h
        · cases h with
          | removed hstop' => exact hstop hstop'
      exact wp_mono (setupChroot_frame stage) (fun _ s' => hframe s')
        (fun _ s' hs' => hframe s' hs'.1)

/-- The session of an LVM snapshot. -/
def lvmSession : Chroot where
  name := "s"
  environmentFilter := ""
  facets := [.personality .undefined, .userdata {}, .mountable {}, .session {}]
  kind := .lvmSnapshot { device := "/dev/vg/root", snapshotDevice := "/dev/vg/s" }

/-- When it is to be ended, the file of its snapshot device is no block device. -/
def lvmEndWorld : World :=
  { smoothWorld .opEnd [⟨"s", lvmSession⟩] with
    outcomes :=
      { smoothOutcomes with
        stage := fun _ _ =>
          { smoothStage with
            lockStat := some
              { uid := 0, otherWrite := false, isRegular := true, isBlock := false } } } }

/-- **The session file of that session is removed without any stop scripts.** -/
theorem not_removalsFollowStop_lvmSession :
    ¬ RemovalsFollowStop 0 (newEvents (setupChroot lvmEndWorld 0 lvmSession .setupStop) {}) := by
  have hevents : newEvents (setupChroot lvmEndWorld 0 lvmSession .setupStop) {} =
      [.setup 0 .setupStop, .lockFailed 0 .setupStop, .sessionInfo 0 false] := by decide
  intro h
  obtain ⟨args, env, hmem⟩ := h [.setup 0 .setupStop, .lockFailed 0 .setupStop] [] hevents
  simp at hmem

end Removal

section StartLock

variable {w : World} {i : Nat} {c : Chroot} {s : SessionState}

/-- Something goes wrong with the session file that is to be created. -/
def InfoFails (o : StageOutcomes) (c : Chroot) (s : SessionState) : Prop :=
  o.openFails = true ∨ c.name ∈ s.sessionFiles ∨ o.setLockFails = true ∨
    o.details.isSome = true ∨ o.unsetLockFails = true

theorem setupSessionInfo_fails (o : StageOutcomes) :
    Wp (c.setupSessionInfo w i o true) (fun _ _ => ¬ InfoFails o c s)
      (fun _ _ => InfoFails o c s) s := by
  unfold Chroot.setupSessionInfo InfoFails
  simp only [wp_bind, wp_note, wp_get, if_true]
  split
  · rename_i hopen
    rcases hopen with hopen | hopen
    · exact .inl hopen
    · exact .inr (.inl hopen)
  · rename_i hopen
    obtain ⟨hopen, hnew⟩ := not_or.mp hopen
    have hnew' : c.name ∉ s.sessionFiles := hnew
    rw [wp_bind, wp_change]
    split
    · rename_i hlock
      exact .inr (.inr (.inl hlock))
    · rename_i hlock
      cases hdetails : o.details with
      | some e => exact .inr (.inr (.inr (.inl rfl)))
      | none =>
          simp only [wp_bind, wp_change]
          split
          · rename_i hunset
            exact .inr (.inr (.inr (.inr hunset)))
          · rename_i hunset
            simp [wp_pure, hopen, hnew', hlock, hunset]

/-- The start lock fails. -/
def StartLockFails (w : World) (i : Nat) (c : Chroot) (s : SessionState) : Prop :=
  c.isPlain = false ∧
    (c.lockChecks (w.outcomes.stage i .setupStart) .setupStart true = false ∨
      InfoFails (w.outcomes.stage i .setupStart) c s)

/-- The start lock passes its checks and creates the session file. -/
def CreatesSessionFile (w : World) (i : Nat) (c : Chroot) (s : SessionState) : Prop :=
  c.isPlain = false ∧
    c.lockChecks (w.outcomes.stage i .setupStart) .setupStart true = true ∧
      (w.outcomes.stage i .setupStart).openFails = false ∧ c.name ∉ s.sessionFiles

/-- **What the start lock does to the session files** when it fails. -/
theorem lock_setupStart_spec :
    Wp (c.lock w i .setupStart) (fun _ _ => ¬ StartLockFails w i c s)
      (fun _ s' => StartLockFails w i c s ∧
        ((CreatesSessionFile w i c s ∧ c.name ∈ s'.sessionFiles) ∨
          (¬ CreatesSessionFile w i c s ∧ s'.sessionFiles = s.sessionFiles))) s := by
  refine Chroot.wp_setupLock (fun hplain => ?_) (fun hplain hchecks e _ => ?_)
    (fun hplain hchecks _ => ?_) (fun _ _ hchanges => ?_)
  · exact fun h => absurd h.1 (by simp [hplain])
  · refine ⟨⟨hplain, .inl hchecks⟩, .inr ⟨fun h => ?_, rfl⟩⟩
    exact absurd h.2.1 (by simp [hchecks])
  · refine wp_mono (wp_and (Chroot.setupSessionInfo_spec true) (setupSessionInfo_fails _)) ?_ ?_
    · rintro _ s' ⟨-, hfails⟩ ⟨-, h⟩
      rcases h with h | h
      · exact absurd h (by simp [hchecks])
      · exact hfails h
    · rintro e s' ⟨⟨-, -, -, hfiles⟩, hfails⟩
      refine ⟨⟨hplain, .inr hfails⟩, ?_⟩
      rcases hfiles rfl with ⟨hsame, hopen⟩ | ⟨hmem, hopen, hnew⟩
      · refine .inr ⟨fun h => ?_, hsame⟩
        rcases hopen with hopen | hopen
        · exact absurd h.2.2.1 (by simp [hopen])
        · exact h.2.2.2 hopen
      · exact .inl ⟨⟨hplain, hchecks, hopen, hnew⟩, hmem⟩
  · simp [Chroot.changesSessionInfo] at hchanges

/-- Unlocking the start stage leaves the session files alone. -/
theorem unlock_setupStart_spec (status : Nat) :
    Wp (c.unlock w i .setupStart status) (fun _ s' => s'.sessionFiles = s.sessionFiles)
      (fun _ s' => s'.sessionFiles = s.sessionFiles) s :=
  Chroot.wp_setupLock (fun _ => rfl) (fun _ _ _ _ => rfl)
    (fun _ _ hchanges => by simp [Chroot.changesSessionInfo] at hchanges) (fun _ _ _ => rfl)

/-- **A start lock that fails leaves the session files as they were if and only if it
fails before it has created the session file.** -/
theorem sessionFiles_lock_failure_iff
    (w : World) (i : Nat) (c : Chroot) (s : SessionState)
    (henters : entersStage w c .setupStart s = true)
    (hfails : ∃ e s', (c.lock w i .setupStart).exec s = (.error e, s')) :
    ∃ e s', (setupChroot w i c .setupStart).exec s = (.error e, s') ∧
      (s'.sessionFiles = s.sessionFiles ↔ ¬ CreatesSessionFile w i c s) := by
  have hstart : StartLockFails w i c s := by
    obtain ⟨e, s', hexec⟩ := hfails
    exact ((wp_forall.mp lock_setupStart_spec).2 e s' hexec).1
  have hspec : Wp (setupChroot w i c .setupStart) (fun _ _ => False)
      (fun _ s' => s'.sessionFiles = s.sessionFiles ↔ ¬ CreatesSessionFile w i c s) s := by
    have hfiles : ∀ files,
        ((CreatesSessionFile w i c s ∧ c.name ∈ files) ∨
          (¬ CreatesSessionFile w i c s ∧ files = s.sessionFiles)) →
        (files = s.sessionFiles ↔ ¬ CreatesSessionFile w i c s) := by
      rintro files (⟨hcreates, hmem⟩ | ⟨hcreates, hsame⟩)
      · refine ⟨fun hsame => absurd (hsame ▸ hmem) hcreates.2.2.2, fun h => absurd hcreates h⟩
      · exact ⟨fun _ => hcreates, fun _ => hsame⟩
    rw [setupChroot, wp_bind, wp_get, wp_ite, if_pos henters]
    rw [wp_setupStage, stageBody, wp_bind, lockStage, wp_catching]
    refine wp_mono lock_setupStart_spec (fun _ _ h => absurd hstart h) ?_
    rintro e s₁ ⟨-, hs₁⟩
    have hs₁' := hfiles _ hs₁
    split
    · simp only [wp_bind, lockFailure, wp_note, wp_change, wp_catching, wp_throwSession, wp_pure]
      refine wp_mono (unlock_setupStart_spec 0) ?_ ?_
      · intro _ s₂ hsame
        rw [hsame]
        exact hs₁'
      · intro e' s₂ hsame
        rw [hsame]
        split <;> exact hs₁'
    · exact hs₁'
  cases hexec : (setupChroot w i c .setupStart).exec s with
  | mk r s' =>
      cases r with
      | ok a => exact ((wp_forall.mp hspec).1 a s' hexec).elim
      | error e => exact ⟨e, s', rfl, (wp_forall.mp hspec).2 e s' hexec⟩

/-- The session of a directory chroot. -/
def directorySession : Chroot where
  name := "s"
  environmentFilter := ""
  mountLocation := "/mnt/s"
  facets := [.personality .undefined, .userdata {}, .session {}]
  kind := .directory "/srv"

/-- A world in which the start stage comes to `o`. -/
def startWorld (o : StageOutcomes) : World :=
  { smoothWorld .opBegin [⟨"s", directorySession⟩] with
    outcomes := { smoothOutcomes with stage := fun _ _ => o } }

/-- When the session file cannot be opened, nothing is left behind. -/
theorem sessionFiles_openFails :
    ∃ e s', (setupChroot (startWorld { smoothStage with openFails := true }) 0
        directorySession .setupStart).exec {} = (.error e, s') ∧
      (s'.sessionFiles = ({} : SessionState).sessionFiles ↔
        ¬ CreatesSessionFile (startWorld { smoothStage with openFails := true }) 0
          directorySession {}) := by
  refine sessionFiles_lock_failure_iff _ 0 directorySession {} (by decide) ?_
  exact ⟨_, _, rfl⟩

/-- **When the session file cannot be locked, it is left behind**, although the session
that it was created for does not exist. -/
theorem sessionFiles_setLockFails :
    ∃ e s', (directorySession.lock (startWorld { smoothStage with setLockFails := true }) 0
        .setupStart).exec {} = (.error e, s') ∧
      "s" ∉ ({} : SessionState).sessionFiles ∧
      "s" ∈ ((setupChroot (startWorld { smoothStage with setLockFails := true }) 0
        directorySession .setupStart).exec {}).2.sessionFiles :=
  ⟨_, _, rfl, by simp, by decide +kernel⟩

end StartLock

end Session

end Schroot
