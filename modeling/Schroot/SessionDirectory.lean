import Schroot.SetupStage

/-!
# The session directory

A session that is begun creates the file of its name, and a session that is ended removes it.
Whatever fails on the way, the files of other sessions are left alone.

**Results.**
* `stageBody_start_files`, `stageBody_stop_files`: what the stages do to the files.
* `runEntry_frame`: one chroot.
* `frame_run`: a whole run.
-/

namespace Schroot

open Effect SessionM

/-- The files of the session directory, by their names. -/
abbrev SessionFiles : Type := Std.ExtTreeMap String String

section Changes

/-- The session files stay as they are. -/
def SameFiles (s s' : SessionState) : Prop :=
  s'.sessionFiles = s.sessionFiles

theorem SameFiles.refl (s : SessionState) : SameFiles s s := rfl

theorem SameFiles.trans
    {s₁ s₂ s₃ : SessionState}
    (h : SameFiles s₁ s₂)
    (h' : SameFiles s₂ s₃) :
    SameFiles s₁ s₃ :=
  Eq.trans h' h

/-- A file is removed. -/
def Erases (name : String) (s s' : SessionState) : Prop :=
  ∀ n : String, s'.sessionFiles[n]? = if n = name then none else s.sessionFiles[n]?

/-- One file is removed, or none. -/
def Removes (name : String) (s s' : SessionState) : Prop :=
  SameFiles s s' ∨ Erases name s s'

theorem Removes.refl (name : String) (s : SessionState) : Removes name s s :=
  .inl (.refl s)

theorem Removes.trans
    {name : String} {s₁ s₂ s₃ : SessionState}
    (h : Removes name s₁ s₂)
    (h' : Removes name s₂ s₃) :
    Removes name s₁ s₃ := by
  rcases h with h | h
  · unfold Removes SameFiles Erases at h' ⊢
    rwa [h] at h'
  · rcases h' with h' | h'
    · refine .inr fun n => ?_
      rw [h']
      exact h n
    · refine .inr fun n => ?_
      rw [h', h]
      split <;> rfl

/-- The text that a chroot writes to its file. -/
def fullText (c : Chroot) : String :=
  (c.getKeyfile .empty).print

/-- What the file of a chroot holds: nothing yet, or what the chroot writes. -/
def FileText (c : Chroot) (text : String) : Prop :=
  text = "" ∨ text = fullText c

/-- The file of a chroot is created with a text. -/
structure Creates (c : Chroot) (text : String) (s s' : SessionState) : Prop where
  plain : c.isPlain = false
  new : c.name ∉ s.sessionFiles
  written : ∀ n : String,
    s'.sessionFiles[n]? = if n = c.name then some text else s.sessionFiles[n]?

theorem Creates.sameFiles
    {c : Chroot} {text : String} {s₀ s s' s'' : SessionState}
    (h : Creates c text s s')
    (hbefore : SameFiles s₀ s)
    (hafter : SameFiles s' s'') :
    Creates c text s₀ s'' := by
  refine ⟨h.plain, ?_, ?_⟩
  · rw [← hbefore]
    exact h.new
  · rw [hafter, ← hbefore]
    exact h.written

/-- The file of a chroot may have been created. -/
def MayCreate (c : Chroot) (s s' : SessionState) : Prop :=
  SameFiles s s' ∨ ∃ text, FileText c text ∧ Creates c text s s'

theorem MayCreate.sameFiles
    {c : Chroot} {s s' s'' : SessionState}
    (h : MayCreate c s s')
    (hsame : SameFiles s' s'') :
    MayCreate c s s'' :=
  h.imp (fun h => h.trans hsame) fun ⟨text, htext, h⟩ =>
    ⟨text, htext, h.sameFiles (.refl s) hsame⟩

end Changes

namespace Chroot

section Locking

variable {w : World} {i : Nat} {c : Chroot} {s : SessionState}

/-- **The file of a chroot is created** unless there is one. -/
theorem setupSessionInfo_creates
    (hplain : c.isPlain = false)
    (o : StageOutcomes) :
    Wp (c.setupSessionInfo w i o true)
      (fun _ s' => Creates c (fullText c) s s')
      (fun _ s' => MayCreate c s s') s := by
  unfold setupSessionInfo
  simp only [wp_bind, wp_note, wp_get, if_true]
  split
  · exact .inl rfl
  · rename_i hopen
    have hnew : c.name ∉ s.sessionFiles := (not_or.mp hopen).2
    have hempty : ∀ n : String, (s.sessionFiles.insert c.name "")[n]? =
        if n = c.name then some "" else s.sessionFiles[n]? := SortedMap.getElem?_insert _ _ _
    have hfull : ∀ n : String, ((s.sessionFiles.insert c.name "").insert c.name
        (c.getKeyfile .empty).print)[n]? =
          if n = c.name then some (fullText c) else s.sessionFiles[n]? := by
      intro n
      rw [SortedMap.getElem?_insert, SortedMap.getElem?_insert]
      split <;> rfl
    rw [wp_bind, wp_change]
    split
    · exact .inr ⟨"", .inl rfl, hplain, hnew, hempty⟩
    · cases o.details with
      | some e => exact .inr ⟨"", .inl rfl, hplain, hnew, hempty⟩
      | none =>
          simp only [wp_bind, wp_change]
          split
          · exact .inr ⟨fullText c, .inr rfl, hplain, hnew, hfull⟩
          · exact ⟨hplain, hnew, hfull⟩

/-- **The file of a chroot is removed** if there is one. -/
theorem setupSessionInfo_erases (o : StageOutcomes) :
    Wp (c.setupSessionInfo w i o false) (fun _ s' => Erases c.name s s')
      (fun _ s' => SameFiles s s') s := by
  unfold setupSessionInfo
  simp only [wp_bind, wp_note, wp_get, Bool.false_eq_true, if_false]
  split
  · exact .refl s
  · exact fun n => SortedMap.getElem?_erase _ _ _

/-- Most locks leave the files alone. -/
theorem sameFiles_setupLock
    {stage : SetupType} {lock : Bool} {status : Nat}
    (h : c.isPlain = true ∨ changesSessionInfo stage lock status = false) :
    Within SameFiles (c.setupLock w i stage lock status) := by
  intro s
  refine wp_setupLock (fun _ => .refl s) (fun _ _ _ _ => .refl s) (fun hplain _ hchanges => ?_)
    (fun _ _ _ => .refl s)
  rcases h with h | h
  · rw [hplain] at h
    cases h
  · rw [hchanges] at h
    cases h

/-- When a chroot is stopped, only its own file is removed. -/
theorem removes_setupLock (lock : Bool) (status : Nat) :
    Within (Removes c.name) (c.setupLock w i .setupStop lock status) := by
  intro s
  have hsame : Removes c.name s s := .refl c.name s
  refine wp_setupLock (fun _ => hsame) (fun _ _ _ _ => hsame) (fun _ _ _ => ?_)
    (fun _ _ _ => hsame)
  exact wp_mono (setupSessionInfo_erases _) (fun _ _ h => .inr h) (fun _ _ h => .inl h)

/-- **The start lock** of a chroot that has sessions creates its file. -/
theorem creates_lock :
    Wp (c.lock w i .setupStart)
      (fun _ s' => c.isPlain = true ∧ SameFiles s s' ∨ Creates c (fullText c) s s')
      (fun _ s' => MayCreate c s s') s := by
  refine wp_setupLock (fun hplain => .inl ⟨hplain, .refl s⟩) (fun _ _ _ _ => .inl (.refl s))
    (fun hplain _ _ => ?_) (fun _ _ hchanges => ?_)
  · exact wp_mono (setupSessionInfo_creates hplain _) (fun _ _ h => .inr h) (fun _ _ h => h)
  · simp [changesSessionInfo] at hchanges

/-- **The last unlock** of a chroot that has sessions removes its file. -/
theorem erases_unlock :
    Wp (c.unlock w i .setupStop 0)
      (fun _ s' => c.isPlain = true ∧ SameFiles s s' ∨ c.isPlain = false ∧ Erases c.name s s')
      (fun _ _ => True) s := by
  refine wp_setupLock (fun hplain => .inl ⟨hplain, .refl s⟩) (fun _ _ _ _ => trivial)
    (fun hplain _ _ => ?_) (fun _ _ hchanges => ?_)
  · exact wp_mono (setupSessionInfo_erases _) (fun _ _ h => .inr ⟨hplain, h⟩)
      (fun _ _ _ => trivial)
  · simp [changesSessionInfo] at hchanges

end Locking

end Chroot

namespace Session

section Stages

variable {w : World} {i : Nat} {c : Chroot} {s : SessionState}

theorem sameFiles_runScripts (stage : SetupType) :
    Within SameFiles (runScripts w i c stage) := by
  intro s
  rw [runScripts, wp_bind, wp_get, wp_bind, wp_ofExcept]
  cases scriptEnvironment w c with
  | error e => exact .refl s
  | ok env =>
      simp only [Except.mapError]
      cases (w.outcomes.stage i stage).scripts with
      | forkFailed => exact .refl s
      | waitFailed code signalled => exact .refl s
      | exited code => exact .refl s

/-- `setup_chroot` once the chroot is locked. -/
def lockedBody (w : World) (i : Nat) (c : Chroot) (stage : SetupType) : SessionM Unit := do
  let status ← runScripts w i c stage
  unlockStage w i c stage status
  if status ≠ 0 then
    Effect.change fun s => { s with chrootStatus := false }
    throwSession .chrootSetup c.name
  else
    pure ()

theorem stageBody_eq (w : World) (i : Nat) (c : Chroot) (stage : SetupType) :
    stageBody w i c stage = (do lockStage w i c stage; lockedBody w i c stage) := rfl

/-- What holds of the unlocking and needs nothing else of the state holds of the rest, too. -/
theorem within_lockedBody
    {R : SessionState → SessionState → Prop}
    {stage : SetupType}
    (hsame : ∀ {s s'}, SameFiles s s' → R s s')
    (htrans : ∀ {s₁ s₂ s₃}, R s₁ s₂ → R s₂ s₃ → R s₁ s₃)
    (hunlock : ∀ status, Within R (c.unlock w i stage status)) :
    Within R (lockedBody w i c stage) := by
  have hrefl : ∀ s, R s s := fun s => hsame (SameFiles.refl s)
  refine within_bind (R := R) htrans ((sameFiles_runScripts stage).mono hsame) fun status => ?_
  refine within_bind (R := R) htrans ?_ fun _ s => ?_
  · refine within_catching (R := R) htrans (hunlock status) fun _ s => ?_
    exact hsame (SameFiles.refl s)
  · split
    · exact hsame (SameFiles.refl s)
    · exact hrefl s

/-- The start stage leaves the files alone once the chroot is locked. -/
theorem sameFiles_lockedBody
    {stage : SetupType}
    (h : ∀ status, Chroot.changesSessionInfo stage false status = false) :
    Within SameFiles (lockedBody w i c stage) :=
  within_lockedBody (fun h => h) SameFiles.trans
    fun status => Chroot.sameFiles_setupLock (.inr (h status))

/-- The file of the chroot is its own, or there is nothing that could remove it. -/
def Owns (c : Chroot) (s s' : SessionState) : Prop :=
  s'.lockStatus = false ∨ c.runSetupScripts = false ∨ c.isPlain = true ∨ c.name ∉ s.sessionFiles

/-- **The start stage** creates the file of the chroot.  After a `session::error`, which leads to
the stop stage, the file is its own. -/
theorem stageBody_start_files :
    Wp (stageBody w i c .setupStart)
      (fun _ s' => MayCreate c s s' ∧ Owns c s s')
      (fun e s' => MayCreate c s s' ∧ (e.isSession = true → Owns c s s')) s := by
  rw [stageBody_eq, wp_bind, lockStage, wp_catching]
  refine wp_mono (wp_and Chroot.creates_lock (Chroot.setupLock_frame .setupStart true 0)) ?_ ?_
  · rintro _ s₁ ⟨h₁, -⟩
    have howns : ∀ s', Owns c s s' := by
      intro s'
      rcases h₁ with ⟨hplain, -⟩ | hcreates
      · exact .inr (.inr (.inl hplain))
      · exact .inr (.inr (.inr hcreates.new))
    have hfiles : MayCreate c s s₁ := h₁.imp (fun h => h.2) fun h => ⟨_, .inr rfl, h⟩
    have hrest : Within SameFiles (lockedBody w i c .setupStart) :=
      sameFiles_lockedBody fun status => by simp [Chroot.changesSessionInfo]
    exact wp_mono (hrest s₁) (fun _ s₂ h₂ => ⟨hfiles.sameFiles h₂, howns s₂⟩)
      (fun _ s₂ h₂ => ⟨hfiles.sameFiles h₂, fun _ => howns s₂⟩)
  · rintro e s₁ ⟨h₁, -, hsession, -⟩
    split
    · -- the lock has failed, so that the stop stage is not entered
      simp only [wp_bind, lockFailure, wp_note, wp_change, wp_catching, wp_throwSession, wp_pure]
      have hunlock : Wp (c.unlock w i .setupStart 0)
          (fun _ s₂ => SameFiles s₁ s₂ ∧ s₂.lockStatus = false)
          (fun _ s₂ => SameFiles s₁ s₂ ∧ s₂.lockStatus = false)
          { s₁.note (.lockFailed i .setupStart) with chrootStatus := false, lockStatus := false } :=
        Chroot.wp_setupLock (fun _ => ⟨rfl, rfl⟩) (fun _ _ _ _ => ⟨rfl, rfl⟩)
          (fun _ _ hchanges => by simp [Chroot.changesSessionInfo] at hchanges)
          (fun _ _ _ => ⟨rfl, rfl⟩)
      refine wp_mono hunlock ?_ ?_
      · rintro _ s₂ ⟨hsame, hlock⟩
        exact ⟨h₁.sameFiles hsame, fun _ => .inl hlock⟩
      · rintro e' s₂ ⟨hsame, hlock⟩
        split <;> exact ⟨h₁.sameFiles hsame, fun _ => .inl hlock⟩
    · refine ⟨h₁, fun h => ?_⟩
      rw [hsession] at h
      cases h

/-- **The recovering stage** leaves the files alone. -/
theorem stageBody_recover_files :
    Within SameFiles (stageBody w i c .setupRecover) := by
  have hlock : ∀ lock status, Within SameFiles (c.setupLock w i .setupRecover lock status) :=
    fun lock status => Chroot.sameFiles_setupLock (.inr (by simp [Chroot.changesSessionInfo]))
  rw [stageBody_eq]
  refine within_bind (R := SameFiles) SameFiles.trans ?_ fun _ =>
    sameFiles_lockedBody fun status => by simp [Chroot.changesSessionInfo]
  refine within_catching (R := SameFiles) SameFiles.trans (hlock true 0) fun _ => ?_
  refine within_bind (R := SameFiles) SameFiles.trans (fun s => SameFiles.refl s) fun _ => ?_
  refine within_bind (R := SameFiles) SameFiles.trans ?_ fun _ s => SameFiles.refl s
  exact within_catching (R := SameFiles) SameFiles.trans (hlock false 0)
    fun _ s => SameFiles.refl s

/-- The stop stage removes the file of a chroot, but not that of a plain one. -/
structure StopFiles (c : Chroot) (s s' : SessionState) : Prop where
  removes : Removes c.name s s'
  plain : c.isPlain = true → SameFiles s s'

theorem StopFiles.of_sameFiles
    {s s' : SessionState}
    (h : SameFiles s s') :
    StopFiles c s s' :=
  ⟨.inl h, fun _ => h⟩

theorem StopFiles.trans
    {s₁ s₂ s₃ : SessionState}
    (h : StopFiles c s₁ s₂)
    (h' : StopFiles c s₂ s₃) :
    StopFiles c s₁ s₃ :=
  ⟨h.removes.trans h'.removes, fun hplain => (h.plain hplain).trans (h'.plain hplain)⟩

/-- **The stop stage** removes the file of the chroot, or none. -/
theorem stageBody_stop_files :
    Within (StopFiles c) (stageBody w i c .setupStop) := by
  have hrefl : ∀ s, StopFiles c s s := fun s => .of_sameFiles (.refl s)
  have hlock : ∀ lock status, Within (StopFiles c) (c.setupLock w i .setupStop lock status) := by
    intro lock status s
    by_cases hplain : c.isPlain = true
    · exact (Chroot.sameFiles_setupLock (.inl hplain)).mono StopFiles.of_sameFiles s
    · exact (Chroot.removes_setupLock lock status).mono
        (fun h => ⟨h, fun h' => absurd h' hplain⟩) s
  rw [stageBody_eq]
  refine within_bind (R := StopFiles c) StopFiles.trans ?_ fun _ =>
    within_lockedBody StopFiles.of_sameFiles StopFiles.trans (hlock false)
  refine within_catching (R := StopFiles c) StopFiles.trans (hlock true 0) fun _ => ?_
  refine within_bind (R := StopFiles c) StopFiles.trans
    (fun s => StopFiles.of_sameFiles (SameFiles.refl s)) fun _ => ?_
  refine within_bind (R := StopFiles c) StopFiles.trans ?_ fun _ => hrefl
  exact within_catching (R := StopFiles c) StopFiles.trans (hlock false 0) fun _ => hrefl

end Stages

section Quiet

variable {w : World} {i : Nat}

/-- Neither the session files nor the locks change. -/
structure Quiet (s s' : SessionState) : Prop where
  files : SameFiles s s'
  lockStatus : s'.lockStatus = s.lockStatus

theorem Quiet.refl (s : SessionState) : Quiet s s := ⟨rfl, rfl⟩

theorem Quiet.trans
    {s₁ s₂ s₃ : SessionState}
    (h : Quiet s₁ s₂)
    (h' : Quiet s₂ s₃) :
    Quiet s₁ s₃ :=
  ⟨h.files.trans h'.files, h'.lockStatus.trans h.lockStatus⟩

/-- The note of a step is not noticed. -/
theorem quiet_call
    {α : Type} {x : SessionM α}
    (c : Call)
    (hx : Within Quiet x) :
    Within Quiet (call c x) := by
  intro s
  rw [wp_call]
  exact wp_mono (hx s) (fun _ _ h => ⟨h.files, h.lockStatus⟩)
    (fun _ _ h => ⟨h.files, h.lockStatus⟩)

theorem quiet_authCall (c : AuthCall) : Within Quiet (authCall w c) := by
  refine quiet_call _ fun s => ?_
  split <;> exact Quiet.refl s

theorem quiet_setSignalHandlers :
    Within Quiet (call .setSignalHandlers (setSignalHandlers w)) := by
  refine quiet_call _ fun s => ?_
  unfold setSignalHandlers
  split <;> exact Quiet.refl s

theorem quiet_runCommand : Within Quiet (runCommand w i) := by
  have hchroot : Within Quiet (runChroot w i) := by
    intro s
    unfold runChroot
    cases w.outcomes.command i with
    | forkFailed => exact .refl s
    | waitFailed code signalled => exact ⟨rfl, rfl⟩
    | exited status => exact ⟨rfl, rfl⟩
  refine within_bind (R := Quiet) Quiet.trans ?_ fun _ => quiet_authCall _
  refine within_onError (R := Quiet) Quiet.trans ?_ (quiet_authCall _)
  exact within_bind (R := Quiet) Quiet.trans (quiet_authCall _) fun _ => quiet_call _ hchroot

end Quiet

section Frames

variable {w : World} {base : SessionFiles} {i : Nat} {c : Chroot} {entry : ChrootEntry}
  {s s' : SessionState}

/-- A chroot that the session works with. -/
def WorksWith (w : World) (c : Chroot) : Prop :=
  ∃ i entry, w.session.chroots[i]? = some entry ∧ prepareChroot w i entry = .ok c

/-- **What a session may do to the files** that were there before it. -/
structure Frame (w : World) (base files : SessionFiles) : Prop where
  kept : ∀ name ∈ base, files[name]? = base[name]? ∨
    (w.session.operation = .opEnd ∧ files[name]? = none ∧
      ∃ c, WorksWith w c ∧ c.isPlain = false ∧ c.name = name)
  new : ∀ (name text : String), files[name]? = some text → base[name]? = some text ∨
    (performs w.session.operation .setupStart = true ∧
      ∃ c, WorksWith w c ∧ c.isPlain = false ∧ c.name = name ∧ FileText c text)

theorem Frame.refl (w : World) (base : SessionFiles) : Frame w base base :=
  ⟨fun _ _ => .inl rfl, fun _ _ h => .inl h⟩

/-- The files that were there are still there when a session is begun. -/
theorem Frame.mem
    {files : SessionFiles} {name : String}
    (h : Frame w base files)
    (hop : performs w.session.operation .setupStart = true)
    (hmem : name ∈ base) :
    name ∈ files := by
  rcases h.kept name hmem with hkept | ⟨hend, -⟩
  · rw [Std.ExtTreeMap.mem_iff_isSome_getElem?] at hmem ⊢
    rwa [hkept]
  · rw [hend] at hop
    cases hop

/-- The file of a chroot is created. -/
theorem Frame.create
    (h : Frame w base s.sessionFiles)
    (hop : performs w.session.operation .setupStart = true)
    (hc : WorksWith w c)
    {text : String}
    (htext : FileText c text)
    (hcreates : Creates c text s s') :
    Frame w base s'.sessionFiles := by
  constructor
  · intro name hname
    rw [hcreates.written, if_neg]
    · exact h.kept name hname
    · rintro rfl
      exact hcreates.new (h.mem hop hname)
  · intro name text' hvalue
    rw [hcreates.written] at hvalue
    split at hvalue
    · rename_i hname
      cases hvalue
      exact .inr ⟨hop, c, hc, hcreates.plain, hname.symm, htext⟩
    · exact h.new name text' hvalue

theorem MayCreate.frame
    (hfiles : MayCreate c s s')
    (h : Frame w base s.sessionFiles)
    (hop : performs w.session.operation .setupStart = true)
    (hc : WorksWith w c) :
    Frame w base s'.sessionFiles := by
  rcases hfiles with hsame | ⟨text, htext, hcreates⟩
  · rwa [hsame]
  · exact h.create hop hc htext hcreates

/-- The file of a chroot may be removed. -/
def Removable (w : World) (base : SessionFiles) (c : Chroot) : Prop :=
  w.session.operation = .opEnd ∨ c.isPlain = true ∨ c.name ∉ base

/-- The file of a chroot is removed. -/
theorem Frame.remove
    (h : Frame w base s.sessionFiles)
    (hc : WorksWith w c)
    (hremovable : Removable w base c)
    (hstop : StopFiles c s s') :
    Frame w base s'.sessionFiles := by
  rcases hstop.removes with hsame | hfiles
  · rwa [hsame]
  · by_cases hplain : c.isPlain = true
    · rwa [hstop.plain hplain]
    · constructor
      · intro name hname
        rw [hfiles]
        split
        · rename_i heq
          rcases hremovable with hend | hplain' | hnew
          · exact .inr ⟨hend, rfl, c, hc, by simpa using hplain, heq.symm⟩
          · exact absurd hplain' hplain
          · exact absurd (heq ▸ hname) hnew
        · exact h.kept name hname
      · intro name text hvalue
        rw [hfiles] at hvalue
        split at hvalue
        · cases hvalue
        · exact h.new name text hvalue

/-- If the chroot is stopped in this state, its file may be removed. -/
def Stoppable (w : World) (base : SessionFiles) (c : Chroot) (s : SessionState) : Prop :=
  entersStage w c .setupStop s = true → Removable w base c

/-- Only the locks are looked at. -/
theorem Stoppable.quiet
    (h : Stoppable w base c s)
    (hquiet : Quiet s s') :
    Stoppable w base c s' := by
  unfold Stoppable entersStage at h ⊢
  rwa [hquiet.lockStatus]

theorem Stoppable.of_owns
    (h : Frame w base s.sessionFiles)
    (hop : performs w.session.operation .setupStart = true)
    (howns : Owns c s s') :
    Stoppable w base c s' := by
  intro henters
  simp only [entersStage, Bool.and_eq_true] at henters
  rcases howns with hlock | hscripts | hplain | hnew
  · rw [henters.1.2] at hlock
    cases hlock
  · rw [henters.2] at hscripts
    cases hscripts
  · exact .inr (.inl hplain)
  · exact .inr (.inr fun hmem => hnew (h.mem hop hmem))

/-- A chroot that is not started may be stopped when its session is ended, if at all. -/
theorem Stoppable.of_not_started
    (h : entersStage w c .setupStart s = false) :
    Stoppable w base c s := by
  intro henters
  refine .inl ?_
  unfold entersStage at h henters
  cases hop : w.session.operation <;> simp_all [performs]

/-- The start step. -/
theorem setupStep_start_frame
    (h : Frame w base s.sessionFiles)
    (hc : WorksWith w c) :
    Wp (setupStep w i c .setupStart)
      (fun _ s' => Frame w base s'.sessionFiles ∧ Stoppable w base c s')
      (fun e s' => Frame w base s'.sessionFiles ∧ (e.isSession = true → Stoppable w base c s'))
      s := by
  rw [setupStep, wp_call, setupChroot, wp_bind, wp_get, wp_ite]
  split
  · rename_i henters
    have hop : performs w.session.operation .setupStart = true := by
      simp only [entersStage, Bool.and_eq_true] at henters
      exact henters.1.1
    rw [wp_setupStage]
    refine wp_mono stageBody_start_files ?_ ?_
    · rintro _ s' ⟨hfiles, howns⟩
      have hframe : Frame w base s'.sessionFiles := MayCreate.frame hfiles (by exact h) hop hc
      exact ⟨hframe, Stoppable.of_owns (by exact h) hop howns⟩
    · rintro e s' ⟨hfiles, howns⟩
      have hframe : Frame w base s'.sessionFiles := MayCreate.frame hfiles (by exact h) hop hc
      exact ⟨hframe, fun he => Stoppable.of_owns (by exact h) hop (howns he)⟩
  · rename_i henters
    have hstart : entersStage w c .setupStart s = false := by simpa using henters
    exact ⟨h, Stoppable.of_not_started hstart⟩

/-- The recovering step. -/
theorem setupStep_recover_frame
    (h : Frame w base s.sessionFiles)
    (hs : Stoppable w base c s) :
    Wp (setupStep w i c .setupRecover)
      (fun _ s' => Frame w base s'.sessionFiles ∧ Stoppable w base c s')
      (fun _ s' => Frame w base s'.sessionFiles ∧ Stoppable w base c s') s := by
  rw [setupStep, wp_call, setupChroot, wp_bind, wp_get, wp_ite]
  split
  · rename_i henters
    -- a session that is recovered is not stopped
    have hstop : ∀ s', Stoppable w base c s' := by
      intro s' hstop
      simp only [entersStage, Bool.and_eq_true] at henters hstop
      cases hop : w.session.operation <;> simp [hop, performs] at henters hstop
    have hframe : ∀ s', SameFiles s s' → Frame w base s'.sessionFiles := by
      intro s' hsame
      rwa [hsame]
    rw [wp_setupStage]
    exact wp_mono (stageBody_recover_files _) (fun _ s' h' => ⟨hframe s' h', hstop _⟩)
      (fun _ s' h' => ⟨hframe s' h', hstop _⟩)
  · exact ⟨h, hs⟩

/-- The stop step. -/
theorem setupStep_stop_frame
    (h : Frame w base s.sessionFiles)
    (hc : WorksWith w c)
    (hs : Stoppable w base c s) :
    Wp (setupStep w i c .setupStop) (fun _ s' => Frame w base s'.sessionFiles)
      (fun _ s' => Frame w base s'.sessionFiles) s := by
  rw [setupStep, wp_call, setupChroot, wp_bind, wp_get, wp_ite]
  split
  · rename_i henters
    rw [wp_setupStage]
    have hremove : ∀ s', StopFiles c s s' → Frame w base s'.sessionFiles :=
      fun s' hstop => h.remove hc (hs henters) hstop
    exact wp_mono (stageBody_stop_files _) (fun _ s' h' => hremove s' ⟨h'.removes, h'.plain⟩)
      (fun _ s' h' => hremove s' ⟨h'.removes, h'.plain⟩)
  · exact h

/-- Starting and running a chroot. -/
theorem startAndRun_frame
    (h : Frame w base s.sessionFiles)
    (hc : WorksWith w c) :
    Wp (startAndRun w i c)
      (fun _ s' => Frame w base s'.sessionFiles ∧ Stoppable w base c s')
      (fun e s' => Frame w base s'.sessionFiles ∧ (e.isSession = true → Stoppable w base c s'))
      s := by
  rw [startAndRun, wp_bind]
  refine wp_mono (setupStep_start_frame h hc) ?_ (fun _ _ h => h)
  rintro _ s₁ ⟨h₁, hs₁⟩
  rw [wp_bind]
  refine wp_mono (setupStep_recover_frame h₁ hs₁) ?_ (fun _ _ h => ⟨h.1, fun _ => h.2⟩)
  rintro _ s₂ ⟨h₂, hs₂⟩
  have hquiet : ∀ s', Quiet s₂ s' → Frame w base s'.sessionFiles ∧ Stoppable w base c s' := by
    intro s' hq
    refine ⟨?_, hs₂.quiet hq⟩
    rwa [hq.files]
  split
  · exact wp_mono (quiet_runCommand s₂) (fun _ s' h => hquiet s' h)
      (fun _ s' h => ⟨(hquiet s' h).1, fun _ => (hquiet s' h).2⟩)
  · exact ⟨h₂, hs₂⟩

/-- The frame is kept. -/
def KeepsFrame (w : World) (base : SessionFiles) (s s' : SessionState) : Prop :=
  Frame w base s.sessionFiles → Frame w base s'.sessionFiles

theorem KeepsFrame.refl (s : SessionState) : KeepsFrame w base s s := fun h => h

theorem KeepsFrame.trans
    {s₁ s₂ s₃ : SessionState}
    (h : KeepsFrame w base s₁ s₂)
    (h' : KeepsFrame w base s₂ s₃) :
    KeepsFrame w base s₁ s₃ :=
  fun hframe => h' (h hframe)

/-- What is quiet keeps the frame. -/
theorem Quiet.keepsFrame
    (h : Quiet s s') :
    KeepsFrame w base s s' := by
  intro hframe
  rwa [h.files]

/-- **One chroot.** -/
theorem runEntry_frame
    (hentry : w.session.chroots[i]? = some entry) :
    Within (KeepsFrame w base) (runEntry w i entry) := by
  intro s
  rw [runEntry, wp_bind, wp_call, wp_ofExcept]
  cases hprepare : prepareChroot w i entry with
  | error e => exact fun h => h
  | ok c =>
      have hc : WorksWith w c := ⟨i, entry, hentry, hprepare⟩
      by_cases h : Frame w base s.sessionFiles
      · simp only [wp_bind, wp_change, wp_onError, wp_catching, wp_pure]
        refine wp_mono (startAndRun_frame (by exact h) hc) ?_ ?_
        · rintro _ s₁ ⟨h₁, hs₁⟩
          exact wp_mono (setupStep_stop_frame h₁ hc hs₁) (fun _ _ h₂ _ => h₂) (fun _ _ h₂ _ => h₂)
        · rintro e s₁ ⟨h₁, hs₁⟩
          split
          · rename_i he
            refine wp_mono (setupStep_stop_frame h₁ hc (hs₁ he)) (fun _ _ h₂ _ => h₂) ?_
            intro e' s₂ h₂
            split <;> exact fun _ => h₂
          · exact fun _ => h₁
      · exact wp_mono (wp_true _) (fun _ _ _ h' => absurd h' h) (fun _ _ _ h' => absurd h' h)

/-- **The loop**, by induction on the chroots that are left. -/
theorem runEntries_frame
    {entries : List ChrootEntry}
    (hentries : w.session.chroots.drop i = entries) :
    Within (KeepsFrame w base) (runEntries w i entries) := by
  induction entries generalizing i with
  | nil => exact KeepsFrame.refl
  | cons entry entries ih =>
      have hentry : w.session.chroots[i]? = some entry := by
        rw [← Nat.add_zero i, ← List.getElem?_drop, hentries]
        rfl
      have hrest : w.session.chroots.drop (i + 1) = entries := by
        rw [← List.drop_drop, hentries]
        rfl
      exact within_bind (R := KeepsFrame w base) KeepsFrame.trans (runEntry_frame hentry)
        fun _ => ih hrest

theorem runImpl_frame : Within (KeepsFrame w base) (runImpl w) := by
  refine within_onError (R := KeepsFrame w base) KeepsFrame.trans ?_ fun s => ?_
  · exact within_bind (R := KeepsFrame w base) KeepsFrame.trans
      (quiet_setSignalHandlers.mono Quiet.keepsFrame) fun _ => runEntries_frame rfl
  · show KeepsFrame w base s (repairStatus s)
    unfold repairStatus
    split <;> exact KeepsFrame.refl s

/-- A cleanup is quiet. -/
theorem cleaningUp_frame
    {x : SessionM Unit} {c : AuthCall}
    (hx : Within (KeepsFrame w base) x) :
    Within (KeepsFrame w base) (cleaningUp x (authCall w c)) := by
  refine within_onError (R := KeepsFrame w base) KeepsFrame.trans hx ?_
  exact within_catching (R := KeepsFrame w base) KeepsFrame.trans
    ((quiet_authCall c).mono Quiet.keepsFrame) fun _ => KeepsFrame.refl

theorem run_keepsFrame : Within (KeepsFrame w base) (run w) := by
  have hauth : ∀ c, Within (KeepsFrame w base) (authCall w c) :=
    fun c => (quiet_authCall c).mono Quiet.keepsFrame
  have hcredentials : Within (KeepsFrame w base) (runWithCredentials w) := by
    refine within_bind (R := KeepsFrame w base) KeepsFrame.trans (cleaningUp_frame ?_)
      fun _ => hauth _
    exact within_bind (R := KeepsFrame w base) KeepsFrame.trans (hauth _) fun _ => runImpl_frame
  have hstatus : Within (KeepsFrame w base)
      (call .getAuthStatus (Effect.ofExcept ((getAuthStatus w).mapError .session))) :=
    (quiet_call _ (within_ofExcept Quiet.refl _)).mono Quiet.keepsFrame
  have hauthenticate : ∀ status, Within (KeepsFrame w base) (authenticate w status) := by
    intro status
    refine (quiet_call _ fun s => ?_).mono Quiet.keepsFrame
    split <;> exact Quiet.refl s
  refine within_bind (R := KeepsFrame w base) KeepsFrame.trans (cleaningUp_frame ?_) fun _ =>
    hauth _
  refine within_bind (R := KeepsFrame w base) KeepsFrame.trans (hauth _) fun _ => ?_
  refine within_bind (R := KeepsFrame w base) KeepsFrame.trans hstatus fun status => ?_
  refine within_bind (R := KeepsFrame w base) KeepsFrame.trans (hauthenticate status) fun _ => ?_
  refine within_bind (R := KeepsFrame w base) KeepsFrame.trans (hauth _) fun _ => ?_
  exact within_bind (R := KeepsFrame w base) KeepsFrame.trans (hauth _) fun _ => hcredentials

/-- **What a session does to the session directory**, whatever fails: it keeps the files of other
sessions as they are, and creates files of its own only. -/
theorem frame_run (w : World) (s : SessionState) :
    Frame w s.sessionFiles ((run w).exec s).2.sessionFiles :=
  within_exec (R := KeepsFrame w s.sessionFiles) run_keepsFrame s (Frame.refl w s.sessionFiles)

end Frames

end Session

end Schroot
