import Schroot.Library.ActionRun
import Schroot.Library.FileTable
import Schroot.SessionDirectory

/-!
# Processes that share the session directory

Any number of processes create, load and remove session files at the same time, and each may be
killed, or fail, at any moment.  A process that does several of these one after the other is as many
processes here, which hold no locks when they have finished.

**Algorithm.**  A session file is opened exclusively and locked, what is written to it stays in a
buffer until the file is closed, and it is unlocked before that.  A file is loaded under a lock that
others may share, and removed without a lock.

**Results.**
* `step_eq_some`: what a step does.
* `moves_sound`: what the process that makes it and the others keep.
-/

namespace Schroot

namespace Sharing

open FileTable

section Model

/-- What a process does with the session directory. -/
inductive Task where
  | begins (name : String) (text : List Char)
  | loads (name : String)
  | ends (name : String)
deriving DecidableEq, Repr

/-- How far a process is with a file: it is open, locked, the data has been moved through the
stream, and it is unlocked. -/
inductive Stage where
  | opened
  | locked
  | moved
  | unlocked
deriving DecidableEq, Repr

/-- A process that writes has the rest of its text, and one that reads what it has read. -/
inductive Phase where
  | start
  | writing (stage : Stage) (node : Nat) (rest : List Char)
  | written (node : Nat)
  | reading (stage : Stage) (node : Nat) (text : List Char)
  | removed
  | failed
deriving DecidableEq, Repr

/-- A process and what is left of its task. -/
structure Process where
  task : Task
  phase : Phase := .start
deriving DecidableEq, Repr

/-- Where a session file comes from: a process, or a time before all of them. -/
structure Origin where
  name : String
  creator : Option Nat
  text : List Char

abbrev Files : Type := FileTable String Origin Char

/-- The directory and the processes. -/
structure System where
  files : Files
  procs : List Process

/-- System calls, and what may happen in between. -/
inductive Op where
  | openFile
  | lock
  | write (k : Nat)
  | read
  | unlock
  | close
  | unlink
  | fail (k : Nat)

/-- The process holds a lock that another one has to wait for. -/
def Phase.blocks (exclusive : Bool) (i : Nat) : Phase → Bool
  | .writing stage j _ => i = j && (stage = .locked || stage = .moved)
  | .reading stage j _ => exclusive && i = j && (stage = .locked || stage = .moved)
  | _ => false

/-- The lock can be had now. -/
def System.free (s : System) (exclusive : Bool) (i : Nat) : Bool :=
  s.procs.all fun proc => !proc.phase.blocks exclusive i

/-- What the file with a number holds. -/
def Files.dataAt (files : Files) (i : Nat) : List Char :=
  (files.nodes[i]?.map FileNode.data).getD []

/-- The next step of a process; there is none while it waits for a lock. -/
def Process.next (s : System) (p : Nat) (proc : Process) (op : Op) : Option (Files × Phase) :=
  match proc.task, proc.phase, op with
  -- `O_CREAT | O_EXCL`
  | .begins name text, .start, .openFile =>
      if name ∈ s.files.links then some (s.files, .failed)
      else
        some (s.files.create name { name := name, creator := some p, text := text },
          .writing .opened s.files.nodes.length text)
  | .begins _ _, .writing .opened i rest, .lock =>
      if s.free true i then some (s.files, .writing .locked i rest) else none
  -- only what the buffer cannot hold is written
  | .begins _ _, .writing .locked i rest, .write k =>
      some (s.files.append i (rest.take k), .writing .moved i (rest.drop k))
  | .begins _ _, .writing .moved i rest, .unlock => some (s.files, .writing .unlocked i rest)
  | .begins _ _, .writing .unlocked i rest, .close => some (s.files.append i rest, .written i)
  -- the stream may still be flushed
  | .begins _ _, .writing stage i rest, .fail k =>
      if stage = .moved ∨ stage = .unlocked then some (s.files.append i (rest.take k), .failed)
      else some (s.files, .failed)
  | .loads name, .start, .openFile =>
      match s.files.links[name]? with
      | none => some (s.files, .failed)
      | some i => some (s.files, .reading .opened i [])
  | .loads _, .reading .opened i text, .lock =>
      if s.free false i then some (s.files, .reading .locked i text) else none
  | .loads _, .reading .locked i _, .read =>
      some (s.files, .reading .moved i (Files.dataAt s.files i))
  | .loads _, .reading .moved i text, .unlock => some (s.files, .reading .unlocked i text)
  | .ends name, .start, .unlink =>
      if name ∈ s.files.links then some (s.files.unlink name, .removed)
      else some (s.files, .failed)
  | _, .start, .fail _ => some (s.files, .failed)
  | .loads _, .reading stage _ _, .fail _ =>
      if stage = .unlocked then none else some (s.files, .failed)
  | _, _, _ => none

/-- One process does something. -/
def step (s : System) (act : Nat × Op) : Option System :=
  match s.procs[act.1]? with
  | none => none
  | some proc =>
      (proc.next s act.1 act.2).map fun next =>
        { files := next.1, procs := s.procs.set act.1 { proc with phase := next.2 } }

/-- The processes do something, one after the other and in any order. -/
def run (s : System) (acts : List (Nat × Op)) : Option System :=
  ActionRun.run step s acts

end Model

section Steps

variable {s s' : System} {p : Nat} {op : Op}

/-- What a step of a process does to the files, and where the process is afterwards. -/
inductive Moves (s : System) (p : Nat) : Process → Files → Phase → Prop
  | create (name : String) (text : List Char) (h : name ∉ s.files.links) :
      Moves s p ⟨.begins name text, .start⟩
        (s.files.create name { name := name, creator := some p, text := text })
        (.writing .opened s.files.nodes.length text)
  | lock (name : String) (text : List Char) (i : Nat) (rest : List Char)
      (h : s.free true i = true) :
      Moves s p ⟨.begins name text, .writing .opened i rest⟩ s.files (.writing .locked i rest)
  | write (name : String) (text : List Char) (i : Nat) (rest : List Char) (k : Nat) :
      Moves s p ⟨.begins name text, .writing .locked i rest⟩ (s.files.append i (rest.take k))
        (.writing .moved i (rest.drop k))
  | unlock (name : String) (text : List Char) (i : Nat) (rest : List Char) :
      Moves s p ⟨.begins name text, .writing .moved i rest⟩ s.files (.writing .unlocked i rest)
  | close (name : String) (text : List Char) (i : Nat) (rest : List Char) :
      Moves s p ⟨.begins name text, .writing .unlocked i rest⟩ (s.files.append i rest) (.written i)
  | abandon (name : String) (text : List Char) (stage : Stage) (i : Nat) (rest : List Char)
      (k : Nat) :
      Moves s p ⟨.begins name text, .writing stage i rest⟩ (s.files.append i (rest.take k)) .failed
  | openRead (name : String) (i : Nat) (h : s.files.links[name]? = some i) :
      Moves s p ⟨.loads name, .start⟩ s.files (.reading .opened i [])
  | share (name : String) (i : Nat) (text : List Char) (h : s.free false i = true) :
      Moves s p ⟨.loads name, .reading .opened i text⟩ s.files (.reading .locked i text)
  | read (name : String) (i : Nat) (text : List Char) :
      Moves s p ⟨.loads name, .reading .locked i text⟩ s.files
        (.reading .moved i (Files.dataAt s.files i))
  | release (name : String) (i : Nat) (text : List Char) :
      Moves s p ⟨.loads name, .reading .moved i text⟩ s.files (.reading .unlocked i text)
  | unlink (name : String) (h : name ∈ s.files.links) :
      Moves s p ⟨.ends name, .start⟩ (s.files.unlink name) .removed
  | fail (task : Task) (phase : Phase) (h : phase ≠ .removed) :
      Moves s p ⟨task, phase⟩ s.files .failed

theorem moves_of_next
    {proc : Process} {files : Files} {phase : Phase}
    (h : proc.next s p op = some (files, phase)) :
    Moves s p proc files phase := by
  obtain ⟨task, phase₀⟩ := proc
  unfold Process.next at h
  split at h
  case h_1 name text htask hphase =>
      subst htask hphase
      split at h
      · cases h
        exact .fail _ _ (by simp)
      · rename_i hnew
        cases h
        exact .create name text hnew
  case h_2 i rest htask hphase =>
      subst htask hphase
      split at h
      · rename_i hfree
        cases h
        exact .lock _ _ i rest hfree
      · cases h
  case h_3 i rest k htask hphase =>
      subst htask hphase
      cases h
      exact .write _ _ i rest k
  case h_4 i rest htask hphase =>
      subst htask hphase
      cases h
      exact .unlock _ _ i rest
  case h_5 i rest htask hphase =>
      subst htask hphase
      cases h
      exact .close _ _ i rest
  case h_6 stage i rest k htask hphase =>
      subst htask hphase
      split at h
      · cases h
        exact .abandon _ _ stage i rest k
      · cases h
        exact .fail _ _ (by simp)
  case h_7 name htask hphase =>
      subst htask hphase
      split at h
      · cases h
        exact .fail _ _ (by simp)
      · rename_i i hi
        cases h
        exact .openRead name i hi
  case h_8 i text htask hphase =>
      subst htask hphase
      split at h
      · rename_i hfree
        cases h
        exact .share _ i text hfree
      · cases h
  case h_9 i text htask hphase =>
      subst htask hphase
      cases h
      exact .read _ i text
  case h_10 i text htask hphase =>
      subst htask hphase
      cases h
      exact .release _ i text
  case h_11 name htask hphase =>
      subst htask hphase
      split at h
      · rename_i hlinked
        cases h
        exact .unlink name hlinked
      · cases h
        exact .fail _ _ (by simp)
  case h_12 hphase =>
      subst hphase
      cases h
      exact .fail _ _ (by simp)
  case h_13 stage i text k htask hphase =>
      subst htask hphase
      split at h
      · cases h
      · cases h
        exact .fail _ _ (by simp)
  case h_14 => cases h

/-- One step of the processes. -/
theorem step_eq_some
    {act : Nat × Op}
    (h : step s act = some s') :
    ∃ proc files phase, s.procs[act.1]? = some proc ∧ Moves s act.1 proc files phase ∧
      s' = { files := files, procs := s.procs.set act.1 { proc with phase := phase } } := by
  unfold step at h
  split at h
  · cases h
  · rename_i proc hproc
    obtain ⟨⟨files, phase⟩, hnext, rfl⟩ := Option.map_eq_some_iff.mp h
    exact ⟨proc, files, phase, hproc, moves_of_next hnext, rfl⟩

end Steps

section Invariant

variable {s₀ s s' : System} {files files' : Files} {p q : Nat} {proc : Process} {phase : Phase}

/-- The files of a process. -/
def Mine (p : Nat) (tag : Origin) : Prop :=
  tag.creator = some p

/-- **What is true of a process**, whatever the others do: it has written a beginning of its text,
and read a beginning of a file. -/
structure ProcessSound (files : Files) (p : Nat) (proc : Process) : Prop where
  writing : ∀ stage i rest, proc.phase = .writing stage i rest →
    ∃ (name : String) (text : List Char) (n : FileNode Origin Char),
      proc.task = .begins name text ∧ files.nodes[i]? = some n ∧
        n.tag = { name := name, creator := some p, text := text } ∧ n.data ++ rest = text
  written : ∀ i, proc.phase = .written i →
    ∃ (name : String) (text : List Char) (n : FileNode Origin Char),
      proc.task = .begins name text ∧ files.nodes[i]? = some n ∧
        n.tag = { name := name, creator := some p, text := text } ∧ n.data = text
  reading : ∀ stage i text, proc.phase = .reading stage i text →
    ∃ (name : String) (n : FileNode Origin Char),
      proc.task = .loads name ∧ files.nodes[i]? = some n ∧ n.tag.name = name ∧
        text <+: n.data ∧
        (stage = .moved ∨ stage = .unlocked → n.tag.creator = none → text = n.data)

/-- What others do to the files keeps it. -/
theorem ProcessSound.stable
    (h : ProcessSound files q proc)
    (hleaves : Leaves (Mine p) files files')
    (hne : q ≠ p) :
    ProcessSound files' q proc := by
  have hother : ∀ {n : FileNode Origin Char}, n.tag.creator = some q → ¬ Mine p n.tag := by
    intro n hn hmine
    rw [Mine, hn, Option.some.injEq] at hmine
    exact hne hmine
  constructor
  · intro stage i rest hphase
    obtain ⟨name, text, n, htask, hn, htag, hdata⟩ := h.writing stage i rest hphase
    exact ⟨name, text, n, htask, hleaves.others i n hn (hother (by rw [htag])), htag, hdata⟩
  · intro i hphase
    obtain ⟨name, text, n, htask, hn, htag, hdata⟩ := h.written i hphase
    exact ⟨name, text, n, htask, hleaves.others i n hn (hother (by rw [htag])), htag, hdata⟩
  · intro stage i text hphase
    obtain ⟨name, n, htask, hn, hname, hread, hold⟩ := h.reading stage i text hphase
    obtain ⟨n', hn', htag, hgrown⟩ := hleaves.grows i n hn
    refine ⟨name, n', htask, hn', htag ▸ hname, hread.trans hgrown, fun hstage hcreator => ?_⟩
    have hcreator' : n.tag.creator = none := htag ▸ hcreator
    have hsame := hleaves.others i n hn (by rw [Mine, hcreator']; simp)
    rw [hn'] at hsame
    cases hsame
    exact hold hstage hcreator

/-- Names lead to files of their names, and files hold beginnings of their texts. -/
structure FilesSound (files : Files) : Prop where
  links : ∀ (name : String) (i : Nat), files.links[name]? = some i →
    ∃ n, files.nodes[i]? = some n ∧ n.tag.name = name
  texts : ∀ (i : Nat) (n : FileNode Origin Char), files.nodes[i]? = some n → n.data <+: n.tag.text

/-- More of its text is written to a file. -/
theorem FilesSound.append
    {n : FileNode Origin Char} {i : Nat} {xs : List Char}
    (h : FilesSound files)
    (hn : files.nodes[i]? = some n)
    (hxs : n.data ++ xs <+: n.tag.text) :
    FilesSound (files.append i xs) := by
  have hnode : ∀ (j : Nat) (m : FileNode Origin Char), files.nodes[j]? = some m →
      ∃ m', (files.append i xs).nodes[j]? = some m' ∧ m'.tag = m.tag := by
    intro j m hm
    rw [nodes_append]
    by_cases hj : j = i
    · subst hj
      exact ⟨{ m with data := m.data ++ xs }, by simp [hm], rfl⟩
    · exact ⟨m, by rw [if_neg hj, hm], rfl⟩
  constructor
  · intro name j hj
    obtain ⟨m, hm, hname⟩ := h.links name j hj
    obtain ⟨m', hm', htag⟩ := hnode j m hm
    exact ⟨m', hm', htag ▸ hname⟩
  · intro j m hm
    rw [nodes_append] at hm
    split at hm
    · rw [hn] at hm
      cases hm
      exact hxs
    · exact h.texts j m hm

/-- A process that writes adds a part of what it still has to write. -/
theorem append_moves
    {stage : Stage} {i : Nat} {rest taken left : List Char}
    (hfiles : FilesSound files)
    (hproc : ProcessSound files p proc)
    (hphase : proc.phase = .writing stage i rest)
    (hrest : taken ++ left = rest) :
    Leaves (Mine p) files (files.append i taken) ∧ FilesSound (files.append i taken) ∧
      ∃ (name : String) (text : List Char) (n : FileNode Origin Char),
        proc.task = .begins name text ∧ (files.append i taken).nodes[i]? = some n ∧
          n.tag = { name := name, creator := some p, text := text } ∧ n.data ++ left = text := by
  obtain ⟨name, text, n, htask, hn, htag, hdata⟩ := hproc.writing stage i rest hphase
  have hmine : Mine p n.tag := by rw [htag]; rfl
  have hwhole : n.data ++ taken ++ left = text := by rw [List.append_assoc, hrest, hdata]
  refine ⟨leaves_append hn hmine, hfiles.append hn ?_, name, text,
    { n with data := n.data ++ taken }, htask, ?_, htag, hwhole⟩
  · rw [htag]
    exact ⟨left, hwhole⟩
  · rw [nodes_append, if_pos rfl, hn]
    rfl

/-- **One step**, as the process that makes it and the others see it. -/
theorem moves_sound
    (hfiles : FilesSound s.files)
    (hproc : ProcessSound s.files p proc)
    (h : Moves s p proc files phase) :
    Leaves (Mine p) s.files files ∧ FilesSound files ∧
      ProcessSound files p { proc with phase := phase } := by
  have hsame : Leaves (Mine p) s.files s.files := .refl _ _
  cases h with
  | create name text hnew =>
      have hself : (s.files.create name
          { name := name, creator := some p, text := text }).nodes[s.files.nodes.length]? =
            some { tag := { name := name, creator := some p, text := text }, data := [] } := by
        rw [nodes_create, if_pos rfl]
      refine ⟨leaves_create rfl, ⟨fun name' i hi => ?_, fun i n hn => ?_⟩, ⟨?_, by simp, by simp⟩⟩
      · rw [links_create] at hi
        split at hi
        · rename_i hname
          cases hi
          exact ⟨_, hself, hname.symm⟩
        · obtain ⟨n, hn, hname⟩ := hfiles.links name' i hi
          have hlt := (List.getElem?_eq_some_iff.mp hn).1
          exact ⟨n, by rw [nodes_create, if_neg (by omega), hn], hname⟩
      · rw [nodes_create] at hn
        split at hn
        · cases hn
          exact List.nil_prefix
        · exact hfiles.texts i n hn
      · rintro stage i rest hphase
        cases hphase
        exact ⟨name, text, _, rfl, hself, rfl, rfl⟩
  | lock name text i rest hfree =>
      refine ⟨hsame, hfiles, ⟨?_, by simp, by simp⟩⟩
      rintro stage j rest' hphase
      cases hphase
      exact hproc.writing .opened i rest rfl
  | write name text i rest k =>
      obtain ⟨hleaves, hsound, hwritten⟩ :=
        append_moves hfiles hproc rfl (List.take_append_drop k rest)
      refine ⟨hleaves, hsound, ⟨?_, by simp, by simp⟩⟩
      rintro stage j rest' hphase
      cases hphase
      exact hwritten
  | unlock name text i rest =>
      refine ⟨hsame, hfiles, ⟨?_, by simp, by simp⟩⟩
      rintro stage j rest' hphase
      cases hphase
      exact hproc.writing .moved i rest rfl
  | close name text i rest =>
      obtain ⟨hleaves, hsound, hwritten⟩ :=
        append_moves hfiles hproc rfl (List.append_nil rest)
      refine ⟨hleaves, hsound, ⟨by simp, ?_, by simp⟩⟩
      rintro j hphase
      cases hphase
      simpa only [List.append_nil] using hwritten
  | abandon name text stage i rest k =>
      obtain ⟨hleaves, hsound, -⟩ :=
        append_moves hfiles hproc rfl (List.take_append_drop k rest)
      exact ⟨hleaves, hsound, by simp, by simp, by simp⟩
  | openRead name i hi =>
      refine ⟨hsame, hfiles, ⟨by simp, by simp, ?_⟩⟩
      rintro stage j text hphase
      cases hphase
      obtain ⟨n, hn, hname⟩ := hfiles.links name i hi
      exact ⟨name, n, rfl, hn, hname, List.nil_prefix, by simp⟩
  | share name i text hfree =>
      refine ⟨hsame, hfiles, ⟨by simp, by simp, ?_⟩⟩
      rintro stage j text' hphase
      cases hphase
      obtain ⟨name', n, htask, hn, hname, hread, -⟩ := hproc.reading .opened i text rfl
      exact ⟨name', n, htask, hn, hname, hread, by simp⟩
  | read name i text =>
      refine ⟨hsame, hfiles, ⟨by simp, by simp, ?_⟩⟩
      rintro stage j text' hphase
      cases hphase
      obtain ⟨name', n, htask, hn, hname, -, -⟩ := hproc.reading .locked i text rfl
      have hdata : Files.dataAt s.files i = n.data := by simp [Files.dataAt, hn]
      exact ⟨name', n, htask, hn, hname, hdata ▸ List.prefix_rfl, fun _ _ => hdata⟩
  | release name i text =>
      refine ⟨hsame, hfiles, ⟨by simp, by simp, ?_⟩⟩
      rintro stage j text' hphase
      cases hphase
      obtain ⟨name', n, htask, hn, hname, hread, hold⟩ := hproc.reading .moved i text rfl
      exact ⟨name', n, htask, hn, hname, hread, fun _ => hold (.inl rfl)⟩
  | unlink name hlinked =>
      refine ⟨leaves_unlink, ⟨fun name' i hi => ?_, hfiles.texts⟩, by simp, by simp, by simp⟩
      rw [links_unlink] at hi
      split at hi
      · cases hi
      · exact hfiles.links name' i hi
  | fail task phase hphase => exact ⟨hsame, hfiles, by simp, by simp, by simp⟩

end Invariant

end Sharing

end Schroot
