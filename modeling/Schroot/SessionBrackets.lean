import Schroot.Library.Brackets
import Schroot.SetupStage

/-!
# The calls on the authentication object

The calls that open something on the authentication object and the cleanup calls are the
brackets of a word.  The protocol of the authentication object is kept if this word is
balanced: every successful opening has its one cleanup, in the reverse order.

The state of the bracket word, of the failed openings and of the last failure (`At`) is
followed through the run.

**Results.**
* `run_decided`: the states in which a run can end.
* `balanced_authBrackets_iff`: the exact condition under which the protocol is kept.
-/

namespace Schroot

open Effect SessionM Brackets

namespace Session

section Protocol

/-- What is opened and cleaned up. -/
inductive Handle where
  | connection
  | credentials
  | session (chroot : Nat)
deriving DecidableEq, Repr

/-- The bracket of an event: openings count if they succeed, cleanups count if they are
called. -/
def bracketOf : Event → Option (Bracket Handle)
  | .call (.auth .start) _ none => some (.opening .connection)
  | .call (.auth .credEstablish) _ none => some (.opening .credentials)
  | .call (.auth (.openSession i)) _ none => some (.opening (.session i))
  | .call (.auth (.closeSession i)) _ _ => some (.closing (.session i))
  | .call (.auth .credDelete) _ _ => some (.closing .credentials)
  | .call (.auth .stop) _ _ => some (.closing .connection)
  | _ => none

/-- The bracket word of a trace. -/
def authBrackets (trace : List Event) : List (Bracket Handle) :=
  trace.filterMap bracketOf

/-- An opening call fails. -/
def opensFail : Event → Bool
  | .call (.auth .start) _ (some _) => true
  | .call (.auth .credEstablish) _ (some _) => true
  | .call (.auth (.openSession _)) _ (some _) => true
  | _ => false

/-- The failure of a step, except for the last two cleanups. -/
def failureOf : Event → Option Exn
  | .call (.auth .credDelete) _ _ => none
  | .call (.auth .stop) _ _ => none
  | .call _ _ failure => failure
  | _ => none

/-- The last failure before the credentials are deleted and the connection is stopped. -/
def lastFailure (trace : List Event) : Option Exn :=
  (trace.filterMap failureOf).getLast?

end Protocol

section Tracking

variable {b : Option (List Handle)} {o : Bool} {f : Option Bool} {s : SessionState}

/-- The brackets that are open, whether an opening call has failed, and whether the last
failure was an `auth::error`. -/
structure At (b : Option (List Handle)) (o : Bool) (f : Option Bool) (s : SessionState) :
    Prop where
  brackets : close? (authBrackets s.trace) [] = b
  opening : s.trace.any opensFail = o
  failure : (lastFailure s.trace).map Exn.isAuth = f

theorem at_note
    (h : At b o f s)
    (ev : Event) :
    At (b.bind (close? (bracketOf ev).toList)) (o || opensFail ev)
      (((failureOf ev).map Exn.isAuth).or f) (s.note ev) := by
  refine ⟨?_, ?_, ?_⟩
  · rw [SessionState.note_trace, authBrackets, List.filterMap_append, close?_append]
    have hb := h.brackets
    rw [authBrackets] at hb
    rw [hb]
    cases hev : bracketOf ev <;> simp [hev]
  · simp [← h.opening]
  · have hf := h.failure
    rw [lastFailure] at hf ⊢
    rw [SessionState.note_trace, List.filterMap_append]
    cases hev : failureOf ev with
    | none => simpa [hev] using hf
    | some e => simp [hev]

/-- The events of a stage are no calls. -/
theorem at_of_stageFrame
    {i : Nat} {stage : SetupType} {s' : SessionState}
    (h : At b o f s)
    (hframe : StageFrame i stage s s') :
    At b o f s' := by
  obtain ⟨evs, htrace, hevs⟩ := hframe.trace
  have hbracket : evs.filterMap bracketOf = [] := by
    rw [List.filterMap_eq_nil_iff]
    intro ev hev
    rcases hevs ev hev with rfl | h
    · rfl
    · cases h <;> rfl
  have hopens : evs.any opensFail = false := by
    rw [List.any_eq_false]
    intro ev hev
    rcases hevs ev hev with rfl | h
    · simp [opensFail]
    · cases h <;> simp [opensFail]
  have hfailure : evs.filterMap failureOf = [] := by
    rw [List.filterMap_eq_nil_iff]
    intro ev hev
    rcases hevs ev hev with rfl | h
    · rfl
    · cases h <;> rfl
  refine ⟨?_, ?_, ?_⟩
  · rw [htrace, authBrackets, List.filterMap_append, hbracket, List.append_nil]
    exact h.brackets
  · rw [htrace, List.any_append, hopens, Bool.or_false]
    exact h.opening
  · rw [htrace, lastFailure, List.filterMap_append, hfailure, List.append_nil]
    exact h.failure

theorem At.of_trace
    {s' : SessionState}
    (h : At b o f s)
    (htrace : s'.trace = s.trace) :
    At b o f s' :=
  ⟨htrace ▸ h.brackets, htrace ▸ h.opening, htrace ▸ h.failure⟩

/-- Nothing has failed. -/
def Running (st : List Handle) (s : SessionState) : Prop :=
  At (some st) false none s

/-- The exception `e` is on its way: a failed opening has spoilt the word, or else the
word is where it was. -/
def Broken (st : List Handle) (e : Exn) (s : SessionState) : Prop :=
  At (some st) false (some e.isAuth) s ∨ At none true (some e.isAuth) s

end Tracking

section Steps

variable {w : World} {i : Nat} {st : List Handle} {s : SessionState}

/-- A call that opens or cleans up nothing. -/
def IsPlainCall (c : Call) : Prop :=
  ∀ n failure, bracketOf (.call c n failure) = none ∧ opensFail (.call c n failure) = false ∧
    failureOf (.call c n failure) = failure

/-- A step whose body leaves no trace of calls. -/
theorem call_running
    {α : Type} {c : Call} {x : SessionM α}
    (hc : IsPlainCall c)
    (hx : ∀ b o f, At b o f s → Wp x (fun _ s' => At b o f s') (fun _ s' => At b o f s') s)
    (hs : Running st s) :
    Wp (call c x) (fun _ s' => Running st s')
      (fun e s' => At (some st) false (some e.isAuth) s') s := by
  rw [wp_call]
  refine wp_mono (hx _ _ _ hs) ?_ ?_
  · intro _ s' h
    have hnote := at_note h (.call c s.childStatus none)
    obtain ⟨h₁, h₂, h₃⟩ := hc s.childStatus none
    simpa [Running, h₁, h₂, h₃, close?] using hnote
  · intro e s' h
    have hnote := at_note h (.call c s.childStatus (some e))
    obtain ⟨h₁, h₂, h₃⟩ := hc s.childStatus (some e)
    simpa [h₁, h₂, h₃, close?] using hnote

theorem setupStep_running
    {c : Chroot} (stage : SetupType)
    (hs : Running st s) :
    Wp (setupStep w i c stage) (fun _ s' => Running st s')
      (fun e s' => At (some st) false (some e.isAuth) s') s :=
  call_running (fun _ _ => ⟨rfl, rfl, rfl⟩)
    (fun _ _ _ h => wp_mono (setupChroot_frame stage) (fun _ _ hf => at_of_stageFrame h hf)
      (fun _ _ hf => at_of_stageFrame h hf.1)) hs

/-- Stopping the chroot while a `session::error` is on its way. -/
theorem setupStep_broken
    {c : Chroot} {e : Exn}
    (he : e.isSession = true)
    (hs : Broken st e s) :
    Wp (setupStep w i c .setupStop) (fun _ s' => Broken st e s')
      (fun e' s' => Broken st e' s' ∧ e'.isAuth = e.isAuth) s := by
  have hauth : e.isAuth = false := by
    cases e <;> simp [Exn.isSession, Exn.isAuth] at he ⊢
  have hstep : ∀ b o, At b o (some e.isAuth) s →
      Wp (setupStep w i c .setupStop) (fun _ s' => At b o (some e.isAuth) s')
        (fun e' s' => At b o (some e'.isAuth) s' ∧ e'.isAuth = e.isAuth) s := by
    intro b o h
    rw [setupStep, wp_call]
    refine wp_mono (setupChroot_frame .setupStop) ?_ ?_
    · intro _ s' hframe
      have hnote := at_note (at_of_stageFrame h hframe)
        (.call (.setupChroot i .setupStop) s.childStatus none)
      simpa [bracketOf, opensFail, failureOf, close?, Option.bind_some] using hnote
    · rintro e' s' ⟨hframe, hauth'⟩
      have hnote := at_note (at_of_stageFrame h hframe)
        (.call (.setupChroot i .setupStop) s.childStatus (some e'))
      refine ⟨?_, hauth'.trans hauth.symm⟩
      simpa [bracketOf, opensFail, failureOf, close?, Option.bind_some] using hnote
  rcases hs with h | h
  · exact wp_mono (hstep _ _ h) (fun _ _ h' => .inl h') (fun _ _ h' => ⟨.inl h'.1, h'.2⟩)
  · exact wp_mono (hstep _ _ h) (fun _ _ h' => .inr h') (fun _ _ h' => ⟨.inr h'.1, h'.2⟩)

end Steps

section Loop

variable {w : World} {i : Nat} {st : List Handle} {s : SessionState}

theorem runChroot_running
    (hs : Running st s) :
    Wp (call (.runChroot i) (runChroot w i)) (fun _ s' => Running st s')
      (fun e s' => At (some st) false (some e.isAuth) s') s := by
  refine call_running (fun _ _ => ⟨rfl, rfl, rfl⟩) (fun b o f h => ?_) hs
  unfold runChroot
  cases w.outcomes.command i with
  | forkFailed => exact h
  | waitFailed code signalled => exact h.of_trace rfl
  | exited status => exact h.of_trace rfl

/-- Closing a session that is open, or that could not be opened, while an exception is on
its way. -/
theorem closeSession_broken
    {e : Exn}
    (hs : At (some (.session i :: st)) false (some e.isAuth) s ∨
      At (some st) true (some e.isAuth) s)
    (hst : .session i ∉ st) :
    Wp (authCall w (.closeSession i)) (fun _ s' => Broken st e s')
      (fun e' s' => Broken st e' s') s := by
  rw [authCall, wp_authStep]
  have hclose : close? [.closing (.session i)] st = none := by
    cases st with
    | nil => rfl
    | cons a st =>
        have hne : Handle.session i ≠ a := fun h => hst (by simp [h])
        simp [close?, hne]
  rcases hs with h | h
  · split
    · have hnote := at_note h
        (.call (.auth (.closeSession i)) s.childStatus (some (.auth (.closeSession i))))
      refine .inl ?_
      simpa [bracketOf, opensFail, failureOf, close?] using hnote
    · have hnote := at_note h (.call (.auth (.closeSession i)) s.childStatus none)
      refine .inl ?_
      simpa [bracketOf, opensFail, failureOf, close?] using hnote
  · split
    · have hnote := at_note h
        (.call (.auth (.closeSession i)) s.childStatus (some (.auth (.closeSession i))))
      refine .inr ?_
      simpa [bracketOf, opensFail, failureOf, hclose] using hnote
    · have hnote := at_note h (.call (.auth (.closeSession i)) s.childStatus none)
      refine .inr ?_
      simpa [bracketOf, opensFail, failureOf, hclose] using hnote

theorem runCommand_running
    (hst : .session i ∉ st)
    (hs : Running st s) :
    Wp (runCommand w i) (fun _ s' => Running st s') (fun e s' => Broken st e s') s := by
  rw [runCommand, wp_bind, wp_onError, wp_bind, authCall, wp_authStep]
  split
  · have hnote := at_note hs
      (.call (.auth (.openSession i)) s.childStatus (some (.auth (.openSession i))))
    refine closeSession_broken (.inr ?_) hst
    simpa [bracketOf, opensFail, failureOf, close?] using hnote
  · have hnote := at_note hs (.call (.auth (.openSession i)) s.childStatus none)
    have hopen : Running (.session i :: st)
        (s.note (.call (.auth (.openSession i)) s.childStatus none)) := by
      simpa [Running, bracketOf, opensFail, failureOf, close?] using hnote
    refine wp_mono (runChroot_running hopen) ?_ ?_
    · intro _ s₂ h₂
      rw [authCall, wp_authStep]
      split
      · have hfail := at_note h₂
          (.call (.auth (.closeSession i)) s₂.childStatus (some (.auth (.closeSession i))))
        refine .inl ?_
        simpa [bracketOf, opensFail, failureOf, close?] using hfail
      · have hclosed := at_note h₂ (.call (.auth (.closeSession i)) s₂.childStatus none)
        simpa [Running, bracketOf, opensFail, failureOf, close?] using hclosed
    · intro e s₂ h₂
      exact closeSession_broken (.inl h₂) hst

theorem startAndRun_running
    {c : Chroot}
    (hst : .session i ∉ st)
    (hs : Running st s) :
    Wp (startAndRun w i c) (fun _ s' => Running st s') (fun e s' => Broken st e s') s := by
  rw [startAndRun, wp_bind]
  refine wp_mono (setupStep_running _ hs) ?_ (fun _ _ h => .inl h)
  intro _ s₁ h₁
  rw [wp_bind]
  refine wp_mono (setupStep_running _ h₁) ?_ (fun _ _ h => .inl h)
  intro _ s₂ h₂
  split
  · exact runCommand_running hst h₂
  · exact h₂

/-- One turn of the loop. -/
theorem runEntry_running
    {entry : ChrootEntry}
    (hst : .session i ∉ st)
    (hs : Running st s) :
    Wp (runEntry w i entry) (fun _ s' => Running st s') (fun e s' => Broken st e s') s := by
  have hprepare : Wp (call (.prepareChroot i) (Effect.ofExcept (prepareChroot w i entry)))
      (fun _ s' => Running st s') (fun e s' => At (some st) false (some e.isAuth) s') s := by
    refine call_running (fun _ _ => ⟨rfl, rfl, rfl⟩) (fun b o f h => ?_) hs
    rw [wp_ofExcept]
    cases prepareChroot w i entry <;> exact h
  rw [runEntry, wp_bind]
  refine wp_mono hprepare ?_ (fun _ _ h => .inl h)
  intro c s₁ h₁
  rw [wp_bind, wp_change, wp_bind, wp_onError]
  refine wp_mono (startAndRun_running hst (At.of_trace h₁ rfl)) ?_ ?_
  · intro _ s₂ h₂
    exact wp_mono (setupStep_running _ h₂) (fun _ _ h => h) (fun _ _ h => .inl h)
  · intro e s₂ h₂
    split
    · rename_i he
      rw [wp_catching]
      refine wp_mono (setupStep_broken he h₂) (fun _ _ h => h) ?_
      rintro e' s₃ ⟨h₃, hauth⟩
      split
      · -- The dropped exception was no `auth::error` either.
        rw [Broken, hauth] at h₃
        exact h₃
      · exact h₃
    · exact h₂

/-- The loop. -/
theorem runEntries_running
    {entries : List ChrootEntry}
    (hst : ∀ j, .session j ∉ st)
    (hs : Running st s) :
    Wp (runEntries w i entries) (fun _ s' => Running st s') (fun e s' => Broken st e s') s := by
  induction entries generalizing i s with
  | nil => exact hs
  | cons entry entries ih =>
      rw [runEntries, wp_bind]
      refine wp_mono (runEntry_running (hst i) hs) ?_ (fun _ _ h => h)
      intro _ s' h
      exact ih h

theorem runImpl_running
    (hst : ∀ j, .session j ∉ st)
    (hs : Running st s) :
    Wp (runImpl w) (fun _ s' => Running st s') (fun e s' => Broken st e s') s := by
  have hsignals : Wp (call .setSignalHandlers (setSignalHandlers w))
      (fun _ s' => Running st s') (fun e s' => At (some st) false (some e.isAuth) s') s := by
    refine call_running (fun _ _ => ⟨rfl, rfl, rfl⟩) (fun b o f h => ?_) hs
    unfold setSignalHandlers
    split <;> exact h
  have hrepair : ∀ e s', Broken st e s' →
      (if e.isSession then
        Wp (change repairStatus : SessionM Unit) (fun _ s'' => Broken st e s'')
          (fun e' s'' => Broken st e' s'') s'
      else
        Broken st e s') := by
    intro e s' h
    have htrace : (repairStatus s').trace = s'.trace := by
      unfold repairStatus
      split <;> rfl
    split
    · rcases h with h | h
      · exact .inl (h.of_trace htrace)
      · exact .inr (h.of_trace htrace)
    · exact h
  rw [runImpl, wp_onError, wp_bind]
  refine wp_mono hsignals ?_ (fun e s' h => hrepair e s' (.inl h))
  intro _ s₁ h₁
  exact wp_mono (runEntries_running hst h₁) (fun _ _ h => h) hrepair

end Loop

section Run

variable {w : World} {s : SessionState}

/-- The protocol is kept if and only if no opening call has failed, and the last failure
was an `auth::error`. -/
def Decided (s : SessionState) : Prop :=
  close? (authBrackets s.trace) [] = some [] ↔
    (∀ ev ∈ s.trace, opensFail ev = false) ∧
      ∀ e, lastFailure s.trace = some e → e.isAuth = true

theorem any_opensFail_eq_false_iff :
    s.trace.any opensFail = false ↔ ∀ ev ∈ s.trace, opensFail ev = false := by
  rw [List.any_eq_false]
  simp

theorem lastFailure_isAuth_iff :
    (∀ e, lastFailure s.trace = some e → e.isAuth = true) ↔
      (lastFailure s.trace).map Exn.isAuth ≠ some false := by
  cases lastFailure s.trace <;> simp

theorem decided_of_at
    {b : Option (List Handle)} {o : Bool} {f : Option Bool}
    (h : At b o f s)
    (hd : b = some [] ↔ o = false ∧ f ≠ some false) :
    Decided s := by
  rw [Decided, ← any_opensFail_eq_false_iff, lastFailure_isAuth_iff, h.brackets, h.opening,
    h.failure]
  exact hd

/-- A failure that leads to the cleanup of the connection. -/
def Open (e : Exn) (s : SessionState) : Prop :=
  (e.isAuth = true ∧ (At none true (some true) s ∨
    ∃ f, f ≠ some false ∧ At (some [.connection]) false f s)) ∨
  (e.isAuth = false ∧ (At none true (some false) s ∨
    ∃ a st, At (some (a :: st)) false (some false) s))

theorem authStep_open
    (c : AuthCall) (fails : Bool)
    (hc : IsPlainCall (.auth c))
    (hs : Running [.connection] s) :
    Wp (authStep c fails) (fun _ s' => Running [.connection] s') Open s := by
  rw [wp_authStep]
  obtain ⟨h₁, h₂, h₃⟩ := hc s.childStatus (some (.auth c))
  obtain ⟨h₁', h₂', h₃'⟩ := hc s.childStatus none
  split
  · have hnote := at_note hs (.call (.auth c) s.childStatus (some (.auth c)))
    refine .inl ⟨rfl, .inr ⟨some true, by simp, ?_⟩⟩
    simpa [h₁, h₂, h₃, close?, Exn.isAuth] using hnote
  · have hnote := at_note hs (.call (.auth c) s.childStatus none)
    simpa [Running, h₁', h₂', h₃', close?] using hnote

/-- The two last cleanups close a bracket, and their failures do not count. -/
def IsFinalCleanup (c : AuthCall) (a : Handle) : Prop :=
  ∀ n failure, bracketOf (.call (.auth c) n failure) = some (.closing a) ∧
    opensFail (.call (.auth c) n failure) = false ∧ failureOf (.call (.auth c) n failure) = none

theorem isFinalCleanup_credDelete : IsFinalCleanup .credDelete .credentials :=
  fun _ _ => ⟨rfl, rfl, rfl⟩

theorem isFinalCleanup_stop : IsFinalCleanup .stop .connection :=
  fun _ _ => ⟨rfl, rfl, rfl⟩

/-- A final cleanup: whether it fails does not matter for the word. -/
theorem wp_finalCleanup
    {c : AuthCall} {a : Handle}
    (hc : IsFinalCleanup c a)
    {b : Option (List Handle)} {o : Bool} {f : Option Bool}
    {Q : Unit → SessionState → Prop} {E : Exn → SessionState → Prop}
    (hs : At b o f s)
    (hQ : ∀ s', At (b.bind (close? [.closing a])) o f s' → Q () s' ∧ E (.auth c) s') :
    Wp (authCall w c) Q E s := by
  have hnote : ∀ failure,
      At (b.bind (close? [.closing a])) o f (s.note (.call (.auth c) s.childStatus failure)) := by
    intro failure
    obtain ⟨h₁, h₂, h₃⟩ := hc s.childStatus failure
    simpa [h₁, h₂, h₃] using at_note hs (.call (.auth c) s.childStatus failure)
  rw [authCall, wp_authStep]
  split
  · exact (hQ _ (hnote _)).2
  · exact (hQ _ (hnote _)).1

/-- The handler that cleans up after an `auth::error`. -/
theorem wp_cleaningUp
    {x : SessionM Unit} {c : AuthCall} {Q : Unit → SessionState → Prop}
    {E E' : Exn → SessionState → Prop}
    (hx : Wp x Q E' s)
    (hauth : ∀ e s', E' e s' → e.isAuth = true →
      Wp (authCall w c) (fun _ s'' => E e s'') (fun _ s'' => E e s'') s')
    (hother : ∀ e s', E' e s' → e.isAuth = false → E e s') :
    Wp (cleaningUp x (authCall w c)) Q E s := by
  rw [cleaningUp, wp_onError]
  refine wp_mono hx (fun _ _ h => h) ?_
  intro e s' h
  split
  · rename_i he
    rw [wp_catching]
    have hboth : Wp (authCall w c) (fun _ _ => True) (fun e' _ => e'.isAuth = true) s' := by
      rw [authCall, wp_authStep]
      split
      · rfl
      · trivial
    refine wp_mono (wp_and (hauth e s' h he) hboth) (fun _ _ h => h.1) ?_
    rintro e' s'' ⟨h', he'⟩
    rw [if_pos he']
    exact h'
  · rename_i he
    exact hother e s' h (by simpa using he)

theorem runWithCredentials_open
    (hs : Running [.connection] s) :
    Wp (runWithCredentials w) (fun _ s' => Running [.connection] s') Open s := by
  have hst : ∀ j, Handle.session j ∉ [Handle.credentials, .connection] := by simp
  -- What has gone wrong before the credentials are deleted.
  let Failed (e : Exn) (s' : SessionState) : Prop :=
    Broken [.credentials, .connection] e s' ∨
      (e.isAuth = true ∧ At (some [.connection]) true (some true) s')
  rw [runWithCredentials, wp_bind]
  have hbody : Wp (do authCall w .credEstablish; runImpl w)
      (fun _ s' => Running [.credentials, .connection] s') Failed s := by
    rw [wp_bind, authCall, wp_authStep]
    split
    · have hnote := at_note hs
        (.call (.auth .credEstablish) s.childStatus (some (.auth .credEstablish)))
      refine .inr ⟨rfl, ?_⟩
      simpa [bracketOf, opensFail, failureOf, close?, Exn.isAuth] using hnote
    · have hnote := at_note hs (.call (.auth .credEstablish) s.childStatus none)
      have hrunning : Running [.credentials, .connection]
          (s.note (.call (.auth .credEstablish) s.childStatus none)) := by
        simpa [Running, bracketOf, opensFail, failureOf, close?] using hnote
      exact wp_mono (runImpl_running hst hrunning) (fun _ _ h => h) (fun _ _ h => .inl h)
  have hcleaned : Wp (cleaningUp (do authCall w .credEstablish; runImpl w)
      (authCall w .credDelete)) (fun _ s' => Running [.credentials, .connection] s') Open s := by
    refine wp_cleaningUp hbody ?_ ?_
    · intro e s' h he
      rcases h with (h | h) | ⟨-, h⟩
      · rw [he] at h
        refine wp_finalCleanup isFinalCleanup_credDelete h fun s'' h'' => ?_
        have hopen : Open e s'' := .inl ⟨he, .inr ⟨some true, by simp, h''⟩⟩
        exact ⟨hopen, hopen⟩
      · rw [he] at h
        refine wp_finalCleanup isFinalCleanup_credDelete h fun s'' h'' => ?_
        have hopen : Open e s'' := .inl ⟨he, .inl h''⟩
        exact ⟨hopen, hopen⟩
      · refine wp_finalCleanup isFinalCleanup_credDelete h fun s'' h'' => ?_
        have hopen : Open e s'' := .inl ⟨he, .inl h''⟩
        exact ⟨hopen, hopen⟩
    · intro e s' h he
      rcases h with (h | h) | ⟨hauth, -⟩
      · rw [he] at h
        exact .inr ⟨he, .inr ⟨_, _, h⟩⟩
      · rw [he] at h
        exact .inr ⟨he, .inl h⟩
      · simp [he] at hauth
  refine wp_mono hcleaned ?_ (fun _ _ h => h)
  intro _ s₁ h₁
  refine wp_finalCleanup isFinalCleanup_credDelete h₁ fun s₂ h₂ => ⟨h₂, ?_⟩
  exact .inl ⟨rfl, .inr ⟨none, by simp, h₂⟩⟩

/-- **How a run can end.** -/
theorem run_decided
    (hs : Running [] s) :
    Wp (run w) (fun _ s' => Decided s') (fun _ s' => Decided s') s := by
  -- The connection failed, or it is open and a failure is on its way.
  let Failed (e : Exn) (s' : SessionState) : Prop :=
    Open e s' ∨ (e.isAuth = true ∧ At (some []) true (some true) s')
  have hbody : Wp (do
      authCall w .start
      let status ← call .getAuthStatus (Effect.ofExcept ((getAuthStatus w).mapError .session))
      authenticate w status
      authCall w .setupenv
      authCall w .account
      runWithCredentials w)
      (fun _ s' => Running [.connection] s') Failed s := by
    rw [wp_bind, authCall, wp_authStep]
    split
    · have hnote := at_note hs (.call (.auth .start) s.childStatus (some (.auth .start)))
      refine .inr ⟨rfl, ?_⟩
      simpa [bracketOf, opensFail, failureOf, close?, Exn.isAuth] using hnote
    · have hnote := at_note hs (.call (.auth .start) s.childStatus none)
      have hrunning : Running [.connection]
          (s.note (.call (.auth .start) s.childStatus none)) := by
        simpa [Running, bracketOf, opensFail, failureOf, close?] using hnote
      have hstatus : Wp (call .getAuthStatus
            (Effect.ofExcept ((getAuthStatus w).mapError .session)))
          (fun _ s' => Running [.connection] s') Open
          (s.note (.call (.auth .start) s.childStatus none)) := by
        have hcall := call_running (c := .getAuthStatus)
          (x := Effect.ofExcept ((getAuthStatus w).mapError .session))
          (fun _ _ => ⟨rfl, rfl, rfl⟩)
          (fun b o f h => by
            rw [wp_ofExcept]
            cases (getAuthStatus w).mapError Exn.session <;> exact h) hrunning
        have hexn : Wp (call .getAuthStatus
              (Effect.ofExcept ((getAuthStatus w).mapError .session)))
            (fun _ _ => True) (fun e _ => e.isAuth = false)
            (s.note (.call (.auth .start) s.childStatus none)) := by
          rw [wp_call, wp_ofExcept]
          cases getAuthStatus w <;> trivial
        refine wp_mono (wp_and hcall hexn) (fun _ _ h => h.1) ?_
        rintro e s' ⟨h, he⟩
        rw [he] at h
        exact .inr ⟨he, .inr ⟨_, _, h⟩⟩
      rw [wp_bind]
      refine wp_mono hstatus ?_ (fun _ _ h => .inl h)
      intro status s₂ h₂
      rw [wp_bind]
      refine wp_mono (authStep_open _ _ (fun _ _ => ⟨rfl, rfl, rfl⟩) h₂) ?_ (fun _ _ h => .inl h)
      intro _ s₃ h₃
      rw [wp_bind]
      refine wp_mono (authStep_open _ _ (fun _ _ => ⟨rfl, rfl, rfl⟩) h₃) ?_ (fun _ _ h => .inl h)
      intro _ s₄ h₄
      rw [wp_bind]
      refine wp_mono (authStep_open _ _ (fun _ _ => ⟨rfl, rfl, rfl⟩) h₄) ?_ (fun _ _ h => .inl h)
      intro _ s₅ h₅
      exact wp_mono (runWithCredentials_open h₅) (fun _ _ h => h) (fun _ _ h => .inl h)
  rw [run, wp_bind]
  refine wp_mono (wp_cleaningUp (E := fun _ s' => Decided s') hbody ?_ ?_) ?_ (fun _ _ h => h)
  · intro e s' h he
    rcases h with (⟨-, h | ⟨f, hf, h⟩⟩ | ⟨he', -⟩) | ⟨-, h⟩
    · refine wp_finalCleanup isFinalCleanup_stop h fun s'' h'' => ?_
      have hd : Decided s'' := decided_of_at h'' (by simp)
      exact ⟨hd, hd⟩
    · refine wp_finalCleanup isFinalCleanup_stop h fun s'' h'' => ?_
      have hd : Decided s'' := decided_of_at h'' (by simp [close?, hf])
      exact ⟨hd, hd⟩
    · simp [he] at he'
    · refine wp_finalCleanup isFinalCleanup_stop h fun s'' h'' => ?_
      have hd : Decided s'' := decided_of_at h'' (by simp [close?])
      exact ⟨hd, hd⟩
  · intro e s' h he
    rcases h with (⟨he', -⟩ | ⟨-, h | ⟨a, st, h⟩⟩) | ⟨he', -⟩
    · simp [he] at he'
    · exact decided_of_at h (by simp)
    · exact decided_of_at h (by simp)
    · simp [he] at he'
  · intro _ s₁ h₁
    refine wp_finalCleanup isFinalCleanup_stop h₁ fun s₂ h₂ => ?_
    have hd : Decided s₂ := decided_of_at h₂ (by simp [close?])
    exact ⟨hd, hd⟩

/-- **The protocol of the authentication object is kept if and only if no opening call
fails, and the last failure before the final cleanups, if there is one, is an
`auth::error`.** -/
theorem balanced_authBrackets_iff
    (w : World) (files : Std.ExtTreeMap String String) :
    Balanced (authBrackets ((run w).exec { sessionFiles := files }).2.trace) ↔
      (∀ ev ∈ ((run w).exec { sessionFiles := files }).2.trace, opensFail ev = false) ∧
        ∀ e, lastFailure ((run w).exec { sessionFiles := files }).2.trace = some e →
          e.isAuth = true := by
  have hstart : Running [] { sessionFiles := files } := ⟨rfl, rfl, rfl⟩
  have hdecided : Decided ((run w).exec { sessionFiles := files }).2 :=
    wp_state (run_decided (w := w) hstart)
  rw [balanced_iff_close?]
  exact hdecided

/-- A run of a plain chroot whose command cannot be forked. -/
def forkFailedWorld : World :=
  { smoothWorld .opRun
      [{ aliasName := "p"
         chroot := { name := "p", users := ["joe"], environmentFilter := "", kind := .plain "/" } }]
    with outcomes := { smoothOutcomes with command := fun _ => .forkFailed } }

/-- **That run neither deletes the credentials nor stops the connection.** -/
theorem not_balanced_forkFailed :
    ¬ Balanced (authBrackets ((run forkFailedWorld).exec {}).2.trace) := by
  decide

end Run

end Session

end Schroot
