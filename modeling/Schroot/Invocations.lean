import Schroot.Library.ActionRun
import Schroot.SchrootSessions
import Schroot.SessionEffects
import Schroot.SessionStatus

/-!
# Invocations one after the other

The program is invoked again and again, and all that one invocation leaves to the next is the
session directory.

**Input.**  For each invocation its command line, the files of the configuration, who the user is,
and what happens while a session is run.  The session directory is read in any order.

**Results.**
* `files_of_invoke`: where session files come from, and how long they stay.
* `exitStatus_eq_zero_iff`: when the program says that it has succeeded.
-/

namespace Schroot

open Effect Session

section Model

/-- What one invocation is given.  The two flags are never initialised by the program. -/
structure Invocation where
  line : CommandLine
  loadChroots : Bool
  loadSessions : Bool
  conf : Location
  chrootD : Location
  listing : List DirectoryEntry
  info : AuthInfo
  outcomes : Outcomes

namespace Invocation

variable (cfg : SbuildConfig) (inv : Invocation) (files : SessionFiles)

/-- The session directory is listed as it is: only files are in it, with what was written. -/
def lists : Bool :=
  inv.listing.all (fun e => e.status.any FileStatus.isRegular) &&
    decide ((inv.listing.map fun e => (e.name, e.data.text)).Perm files.toList)

def places : ChrootConfig.ConfigPlaces where
  conf := inv.conf
  chrootD := inv.chrootD
  sessions := .directory inv.listing

/-- What the command line comes to; nothing if an exception ends the program. -/
def reply? : Option MainBase.Reply :=
  match Program.parse .schroot inv.line inv.loadChroots inv.loadSessions with
  | .error _ => none
  | .ok o => (MainBase.runImpl cfg inv.places o inv.info).2.toOption

/-- The session that is run, if any. -/
def session? : Option Session :=
  match inv.reply? cfg with
  | some (.session s) => some s
  | _ => none

/-- The world of the session. -/
def world (s : Session) : World where
  cfg := cfg
  session := s
  outcomes := inv.outcomes

/-- The end of the session. -/
def final (s : Session) : Except Exn Unit × SessionState :=
  (Session.run (inv.world cfg s)).exec { sessionFiles := files }

/-- The session directory afterwards. -/
def run : SessionFiles :=
  match inv.session? cfg with
  | none => files
  | some s => (inv.final cfg files s).2.sessionFiles

/-- The exit status of the program.  Exceptions of a session are reported, and its child status is
returned all the same. -/
def exitStatus : Nat :=
  match inv.reply? cfg with
  | none => 1
  | some (.session s) => (inv.final cfg files s).2.childStatus
  | some _ => 0

/-- An invocation that finds the session directory as it is. -/
def step : Option SessionFiles :=
  if inv.lists files then some (inv.run cfg files) else none

end Invocation

/-- Invocations one after the other. -/
def invoke (cfg : SbuildConfig) (files : SessionFiles) (invs : List Invocation) :
    Option SessionFiles :=
  ActionRun.run (fun files inv => Invocation.step cfg inv files) files invs

end Model

namespace Invocation

section Runs

variable {cfg : SbuildConfig} {inv : Invocation} {invs : List Invocation}
  {files files' : SessionFiles} {s : Session} {name text : String}

theorem step_eq_some :
    inv.step cfg files = some files' ↔ inv.lists files = true ∧ inv.run cfg files = files' := by
  unfold step
  split
  · rename_i hlists
    simp [hlists]
  · rename_i hlists
    simp [hlists]

/-- **The invocations that run a session** have understood their command lines and loaded their
configurations. -/
theorem exists_sessionRun
    (h : inv.session? cfg = some s) :
    ∃ o conf, Program.parse .schroot inv.line inv.loadChroots inv.loadSessions = .ok o ∧
      MainBase.SessionRun cfg inv.places o inv.info conf s := by
  unfold session? reply? at h
  split at h
  · rename_i s' hreply
    cases h
    split at hreply
    · cases hreply
    · rename_i o hparse
      cases hrun : (MainBase.runImpl cfg inv.places o inv.info).2 with
      | error e =>
          rw [hrun] at hreply
          cases hreply
      | ok reply =>
          rw [hrun] at hreply
          cases hreply
          obtain ⟨conf, hsession⟩ := MainBase.exists_sessionRun hrun
          exact ⟨o, conf, hparse, hsession⟩
  · cases h

/-- An invocation that runs no session leaves the directory alone, and otherwise the session keeps
its frame. -/
theorem run_cases (cfg : SbuildConfig) (inv : Invocation) (files : SessionFiles) :
    (inv.session? cfg = none ∧ inv.run cfg files = files) ∨
      ∃ s, inv.session? cfg = some s ∧ Frame (inv.world cfg s) files (inv.run cfg files) := by
  cases hsession : inv.session? cfg with
  | none => exact .inl ⟨rfl, by simp [run, hsession]⟩
  | some s =>
      refine .inr ⟨s, rfl, ?_⟩
      have hkeeps := within_exec (R := KeepsFrame (inv.world cfg s) files)
        run_keepsFrame { sessionFiles := files } (Frame.refl _ files)
      simpa [run, hsession, final] using hkeeps

/-- **Using and recovering sessions leaves the directory as it is**, whatever fails. -/
theorem run_of_session
    (hsession : inv.session? cfg = some s)
    (hstart : performs s.operation .setupStart = false)
    (hend : s.operation ≠ .opEnd) :
    inv.run cfg files = files := by
  rcases run_cases cfg inv files with ⟨-, hsame⟩ | ⟨s', hsession', hframe⟩
  · exact hsame
  rw [hsession] at hsession'
  cases hsession'
  apply Std.ExtTreeMap.ext_getElem?
  intro name
  by_cases hmem : name ∈ files
  · exact (hframe.kept name hmem).resolve_right fun h => hend h.1
  · have hnone : files[name]? = none := by simpa using hmem
    rw [hnone, Option.eq_none_iff_forall_ne_some]
    intro text htext
    rcases hframe.new name text htext with hold | ⟨hop, -⟩
    · rw [hnone] at hold
      cases hold
    · have hno : performs s.operation .setupStart = true := hop
      rw [hstart] at hno
      cases hno

/-- **The invocation wrote the file**: it prepared a chroot of the name from a chroot of a trusted
configuration file, and the text is nothing yet or all that the prepared chroot writes. -/
def Wrote (cfg : SbuildConfig) (name text : String) (inv : Invocation) : Prop :=
  ∃ s i entry c, inv.session? cfg = some s ∧ performs s.operation .setupStart = true ∧
    s.chroots[i]? = some entry ∧ prepareChroot (inv.world cfg s) i entry = .ok c ∧
      c.isPlain = false ∧ c.name = name ∧ FileText c text ∧
        ∃ r ∈ inv.places.chrootFiles cfg, ChrootConfig.Trusted r.2 ∧
          ∃ n, ChrootConfig.ReadFrom cfg "chroot" r.2.text n entry.chroot

/-- **The invocation ended the session** of the name. -/
def Ended (cfg : SbuildConfig) (name : String) (inv : Invocation) : Prop :=
  ∃ s c, inv.session? cfg = some s ∧ s.operation = .opEnd ∧ WorksWith (inv.world cfg s) c ∧
    c.name = name

/-- One invocation writes its own files only. -/
theorem wrote_of_step
    (h : inv.step cfg files = some files')
    (hfile : files'[name]? = some text) :
    files[name]? = some text ∨ Wrote cfg name text inv := by
  obtain ⟨-, rfl⟩ := step_eq_some.mp h
  rcases run_cases cfg inv files with ⟨-, hsame⟩ | ⟨s, hsession, hframe⟩
  · rw [hsame] at hfile
    exact .inl hfile
  · rcases hframe.new name text hfile with hold | ⟨hop, c, hworks, hplain, hname, htext⟩
    · exact .inl hold
    · obtain ⟨i, entry, hentry, hprepare⟩ := hworks
      obtain ⟨o, conf, hparse, hrun⟩ := exists_sessionRun hsession
      have hread := MainBase.readFrom_of_begins hparse hrun hop entry (List.mem_of_getElem? hentry)
      exact .inr ⟨s, i, entry, c, hsession, hop, hentry, hprepare, hplain, hname, htext, hread⟩

/-- One invocation removes the files of sessions that it ends only. -/
theorem ended_of_step
    (h : inv.step cfg files = some files')
    (hfile : files'[name]? ≠ some text) :
    files[name]? ≠ some text ∨ Ended cfg name inv := by
  obtain ⟨-, rfl⟩ := step_eq_some.mp h
  rcases run_cases cfg inv files with ⟨-, hsame⟩ | ⟨s, hsession, hframe⟩
  · rw [hsame] at hfile
    exact .inl hfile
  · by_cases hold : files[name]? = some text
    · have hmem : name ∈ files := by
        rw [Std.ExtTreeMap.mem_iff_isSome_getElem?, hold]
        rfl
      rcases hframe.kept name hmem with hkept | ⟨hend, -, c, hworks, -, hname⟩
      · exact absurd (hkept.trans hold) hfile
      · exact .inr ⟨s, c, hsession, hend, hworks, hname⟩
    · exact .inl hold

/-- **Where files come from**: they have been there, or one of the invocations wrote them. -/
theorem wrote_of_invoke
    (h : invoke cfg files invs = some files')
    (hfile : files'[name]? = some text) :
    files[name]? = some text ∨ ∃ inv ∈ invs, Wrote cfg name text inv :=
  ActionRun.run_origin (H := fun files : SessionFiles => files[name]? = some text)
    (fun _ _ _ hstep => wrote_of_step hstep) h hfile

/-- **How long files stay**: until one of the invocations ends their sessions. -/
theorem ended_of_invoke
    (h : invoke cfg files invs = some files')
    (hfile : files[name]? = some text) :
    files'[name]? = some text ∨ ∃ inv ∈ invs, Ended cfg name inv := by
  by_contra hgone
  obtain ⟨hmissing, hno⟩ := not_or.mp hgone
  rcases ActionRun.run_origin (H := fun files : SessionFiles => files[name]? ≠ some text)
    (fun _ _ _ hstep => ended_of_step hstep) h hmissing with hnever | hended
  · exact hnever hfile
  · exact hno hended

/-- **What invocations do to the session directory**, whatever fails in them: a file that was not
there has been written by one of them, for a chroot of a trusted configuration file, and a file
that is no longer there belonged to a session that one of them ended. -/
theorem files_of_invoke
    (h : invoke cfg files invs = some files')
    (name text : String) :
    (files'[name]? = some text →
        files[name]? = some text ∨ ∃ inv ∈ invs, Wrote cfg name text inv) ∧
      (files[name]? = some text →
        files'[name]? = some text ∨ ∃ inv ∈ invs, Ended cfg name inv) :=
  ⟨wrote_of_invoke h, ended_of_invoke h⟩

/-- One chroot that `joe` may become root in. -/
def rootText : String :=
  "[d]\ntype=directory\ndirectory=/srv/d\nroot-users=joe\n"

/-- A session of it is begun, in an empty directory. -/
def beginSample : Invocation where
  line := { given := ["begin-session", "chroot"], chroots := ["d"] }
  loadChroots := false
  loadSessions := false
  conf := .file (ChrootConfig.rootFile rootText)
  chrootD := .directory []
  listing := []
  info := sampleInfo
  outcomes := smoothOutcomes

/-- Its file has been written by the invocation. -/
theorem files_of_beginSample :
    ∃ files text, invoke .standard ∅ [beginSample] = some files ∧
      files["d-0"]? = some text ∧ ∃ inv ∈ [beginSample], Wrote .standard "d-0" text inv := by
  have hrun : ((beginSample.run .standard ∅)["d-0"]?).isSome = true := by decide +kernel
  obtain ⟨text, htext⟩ := Option.isSome_iff_exists.mp hrun
  have hinvoke : invoke .standard ∅ [beginSample] = some (beginSample.run .standard ∅) := by
    have hlists : beginSample.lists ∅ = true := by decide
    simp [invoke, ActionRun.run, step, hlists]
  refine ⟨_, text, hinvoke, htext, ?_⟩
  refine ((files_of_invoke hinvoke "d-0" text).1 htext).resolve_left fun hempty => ?_
  simp at hempty

end Runs

section Status

variable {cfg : SbuildConfig} {inv : Invocation} {files : SessionFiles} {s : Session}

/-- The exit status of an invocation that runs a session. -/
theorem exitStatus_of_session
    (files : SessionFiles)
    (h : inv.session? cfg = some s) :
    inv.exitStatus cfg files = (inv.final cfg files s).2.childStatus ∧
      inv.run cfg files = (inv.final cfg files s).2.sessionFiles := by
  refine ⟨?_, by simp [run, h]⟩
  unfold session? at h
  unfold exitStatus
  split at h
  · rename_i s' hreply
    cases h
    rw [hreply]
  · cases h

/-- Without a session, the exit status is that of the reply. -/
theorem exitStatus_of_none
    (h : inv.session? cfg = none) :
    inv.exitStatus cfg files = if (inv.reply? cfg).isSome then 0 else 1 := by
  unfold session? at h
  unfold exitStatus
  cases hreply : inv.reply? cfg with
  | none => rfl
  | some reply =>
      cases reply with
      | session s =>
          rw [hreply] at h
          cases h
      | _ => rfl

/-- **When the exit status is zero.**  Either there was no session and something has been printed;
or the session has done what its operation says for every chroot, and the last command, if there
was one, has succeeded; or the session has failed, and a step of it failed unseen. -/
theorem exitStatus_eq_zero_iff (cfg : SbuildConfig) (inv : Invocation) (files : SessionFiles) :
    inv.exitStatus cfg files = 0 ↔
      (inv.session? cfg = none ∧ (inv.reply? cfg).isSome = true) ∨
        ∃ s, inv.session? cfg = some s ∧
          (((inv.final cfg files s).1 = .ok () ∧
              CompletedRun (inv.world cfg s) files (inv.run cfg files) ∧
              lastStatus (inv.world cfg s) 1 = 0) ∨
            ((∃ e, (inv.final cfg files s).1 = .error e) ∧
              ∃ ev ∈ (inv.final cfg files s).2.trace, FailsUnseen ev)) := by
  cases hsession : inv.session? cfg with
  | none =>
      rw [exitStatus_of_none hsession]
      split
      · rename_i hreply
        simp [hreply]
      · rename_i hreply
        simp [hreply]
  | some s =>
      obtain ⟨hstatus, hrun⟩ := exitStatus_of_session files hsession
      simp only [reduceCtorEq, false_and, Option.some.injEq, exists_eq_left', false_or, hstatus,
        hrun]
      have hstart : Clean { sessionFiles := files } ∧
          ({ sessionFiles := files } : SessionState).childStatus ≠ 0 :=
        ⟨fun _ hev => by simp at hev, Nat.one_ne_zero⟩
      cases hexec : inv.final cfg files s with
      | mk r s' =>
          cases r with
          | ok a =>
              have hdone : Done (inv.world cfg s) { sessionFiles := files } s' :=
                (wp_forall.mp (run_done rfl)).1 a s' hexec
              rw [hdone.childStatus]
              constructor
              · exact fun hzero => .inl ⟨rfl, hdone.files, hzero⟩
              · rintro (⟨-, -, hzero⟩ | ⟨⟨e, he⟩, -⟩)
                · exact hzero
                · cases he
          | error e =>
              have hfinal : Final s' :=
                (wp_forall.mp (run_spec (w := inv.world cfg s) hstart)).2 e s' hexec
              have hseen : s'.childStatus = 0 ↔ ∃ ev ∈ s'.trace, FailsUnseen ev := by
                unfold Final Clean at hfinal
                rw [← not_iff_not, ← ne_eq, ← hfinal]
                simp
              rw [hseen]
              constructor
              · exact fun hunseen => .inr ⟨⟨e, rfl⟩, hunseen⟩
              · rintro (⟨hok, -⟩ | ⟨-, hunseen⟩)
                · cases hok
                · exact hunseen

end Status

end Invocation

end Schroot
