import Schroot.SharedDirectory

/-!
# Runs of processes that share the session directory

**Input.**  A directory in which every file is whole and has its name, and processes that have not
begun; their steps come in any order.

**Results.**
* `sound_run`: what holds at all times.
* `contents_of_run`: what is found under the names.
* `loaded_of_run`: what is loaded.
* `written_of_run`: sessions of one name.
* `run_alone`: a process that is not interrupted does what `setup_session_info` does.
-/

namespace Schroot

namespace Sharing

open FileTable

section Runs

variable {s₀ s s' : System} {files : Files} {p i : Nat} {proc : Process} {phase : Phase}
  {n : FileNode Origin Char} {acts : List (Nat × Op)} {name : String} {text : List Char}

/-- The file that a process has created and still knows. -/
def Phase.created? : Phase → Option Nat
  | .writing _ i _ => some i
  | .written i => some i
  | _ => none

/-- A process has taken the name away. -/
def Removed (s : System) (name : String) : Prop :=
  ∃ q : Nat, s.procs[q]? = some (Process.mk (.ends name) .removed)

/-- **Before the processes**: none of them has begun, and every file is whole and has its name. -/
structure Ready (s : System) : Prop where
  procs : ∀ (p : Nat) (proc : Process), s.procs[p]? = some proc → proc.phase = .start
  files : FilesSound s.files
  old : ∀ (i : Nat) (n : FileNode Origin Char), s.files.nodes[i]? = some n →
    n.tag.creator = none ∧ n.data = n.tag.text ∧ s.files.links[n.tag.name]? = some i

/-- **What holds at all times.** -/
structure Sound (s₀ s : System) : Prop where
  files : FilesSound s.files
  procs : ∀ (p : Nat) (proc : Process), s.procs[p]? = some proc → ProcessSound s.files p proc
  tasks : s.procs.map Process.task = s₀.procs.map Process.task
  old : ∀ (i : Nat) (n : FileNode Origin Char), s.files.nodes[i]? = some n →
    n.tag.creator = none → s₀.files.nodes[i]? = some n
  created : ∀ (i : Nat) (n : FileNode Origin Char) (p : Nat), s.files.nodes[i]? = some n →
    n.tag.creator = some p → ∃ proc, s.procs[p]? = some proc ∧
      proc.task = .begins n.tag.name n.tag.text ∧ proc.phase ≠ .start ∧
        ∀ j, proc.phase.created? = some j → j = i
  linked : ∀ (i : Nat) (n : FileNode Origin Char), s.files.nodes[i]? = some n →
    s.files.links[n.tag.name]? = some i ∨ Removed s n.tag.name

theorem Ready.sound
    (h : Ready s) :
    Sound s s := by
  refine ⟨h.files, fun p proc hproc => ?_, rfl, fun i n hn _ => hn, fun i n p hn hcreator => ?_,
    fun i n hn => .inl (h.old i n hn).2.2⟩
  · have hstart := h.procs p proc hproc
    exact ⟨by simp [hstart], by simp [hstart], by simp [hstart]⟩
  · rw [(h.old i n hn).1] at hcreator
    cases hcreator

/-- A file was there, or it is the one that is created. -/
theorem nodes_of_moves
    (h : Moves s p proc files phase)
    (hn : files.nodes[i]? = some n) :
    (∃ m, s.files.nodes[i]? = some m ∧ m.tag = n.tag) ∨
      proc = Process.mk (.begins n.tag.name n.tag.text) .start ∧
        phase = .writing .opened i n.tag.text ∧ n.tag.creator = some p ∧
          files.links[n.tag.name]? = some i := by
  have happend : ∀ {j : Nat} {xs : List Char}, (s.files.append j xs).nodes[i]? = some n →
      ∃ m, s.files.nodes[i]? = some m ∧ m.tag = n.tag := by
    intro j xs hn
    rw [nodes_append] at hn
    split at hn
    · rename_i hi
      subst hi
      obtain ⟨m, hm, rfl⟩ := Option.map_eq_some_iff.mp hn
      exact ⟨m, hm, rfl⟩
    · exact ⟨n, hn, rfl⟩
  cases h with
  | create name text hnew =>
      rw [nodes_create] at hn
      split at hn
      · rename_i hi
        cases hn
        exact .inr ⟨rfl, by rw [hi], rfl, by rw [links_create, if_pos rfl, hi]⟩
      · exact .inl ⟨n, hn, rfl⟩
  | write name text j rest k => exact .inl (happend hn)
  | close name text j rest => exact .inl (happend hn)
  | abandon name text stage j rest k => exact .inl (happend hn)
  | _ => exact .inl ⟨n, hn, rfl⟩

/-- A process goes on with the file that it has created. -/
theorem phase_of_moves
    (h : Moves s p proc files phase) :
    phase ≠ .start ∧
      (proc.phase = .start ∨ ∀ j, phase.created? = some j → proc.phase.created? = some j) := by
  cases h with
  | fail task phase hphase => exact ⟨by simp, .inr (by simp [Phase.created?])⟩
  | _ => simp [Phase.created?]

/-- A name leads to its file until it is taken away. -/
theorem links_of_moves
    (h : Moves s p proc files phase)
    (hi : s.files.links[name]? = some i) :
    files.links[name]? = some i ∨ proc.task = .ends name ∧ phase = .removed := by
  cases h with
  | create name' text hnew =>
      have hne : name ≠ name' := by
        rintro rfl
        rw [Std.ExtTreeMap.mem_iff_isSome_getElem?, hi] at hnew
        exact hnew rfl
      exact .inl (by rw [links_create, if_neg hne, hi])
  | unlink name' hlinked =>
      by_cases hname : name = name'
      · subst hname
        exact .inr ⟨rfl, rfl⟩
      · exact .inl (by rw [links_unlink, if_neg hname, hi])
  | _ => exact .inl hi

/-- A name that was taken away stays so for ever. -/
theorem Removed.moves
    (hremoved : Removed s name)
    (hproc : s.procs[p]? = some proc)
    (h : Moves s p proc files phase) :
    Removed { files := files, procs := s.procs.set p { proc with phase := phase } } name := by
  obtain ⟨q, hq⟩ := hremoved
  have hne : p ≠ q := by
    rintro rfl
    rw [hq] at hproc
    cases hproc
    cases h with
    | fail task phase hphase => simp at hphase
  exact ⟨q, by simpa [List.getElem?_set_ne hne] using hq⟩

/-- **What a step keeps.** -/
theorem sound_step
    {act : Nat × Op}
    (hs : Sound s₀ s)
    (h : step s act = some s') :
    Sound s₀ s' := by
  obtain ⟨proc, files, phase, hproc, hmoves, rfl⟩ := step_eq_some h
  obtain ⟨p, op⟩ := act
  obtain ⟨hleaves, hfiles, hself⟩ := moves_sound hs.files (hs.procs p proc hproc) hmoves
  have hlt : p < s.procs.length := (List.getElem?_eq_some_iff.mp hproc).1
  have hthis : (s.procs.set p { proc with phase := phase })[p]? =
      some { proc with phase := phase } := by
    rw [List.getElem?_set_self hlt]
  have hother : ∀ {q : Nat}, p ≠ q →
      (s.procs.set p { proc with phase := phase })[q]? = s.procs[q]? :=
    fun hne => List.getElem?_set_ne hne
  refine ⟨hfiles, fun q proc' hq => ?_, ?_, fun i n hn hcreator => ?_, fun i n q hn hcreator => ?_,
    fun i n hn => ?_⟩
  · by_cases hne : p = q
    · subst hne
      rw [hthis] at hq
      cases hq
      exact hself
    · rw [hother hne] at hq
      exact (hs.procs q proc' hq).stable hleaves fun heq => hne heq.symm
  · have htask : (s.procs.map Process.task)[p]? = some proc.task := by
      rw [List.getElem?_map, hproc]
      rfl
    obtain ⟨hbound, heq⟩ := List.getElem?_eq_some_iff.mp htask
    rw [List.map_set, ← hs.tasks]
    show (s.procs.map Process.task).set p proc.task = s.procs.map Process.task
    rw [← heq]
    exact List.set_getElem_self hbound
  · exact hs.old i n (hleaves.new i n hn (by rw [Mine, hcreator]; simp)) hcreator
  · -- the file is another one's, one's own, or new
    by_cases hne : p = q
    · subst hne
      refine ⟨_, hthis, ?_⟩
      rcases nodes_of_moves hmoves hn with ⟨m, hm, htag⟩ | ⟨hbegins, hphase, -, -⟩
      · obtain ⟨proc', hproc', htask, hstart, honly⟩ :=
          hs.created i m p hm (by rw [htag, hcreator])
        rw [hproc] at hproc'
        cases hproc'
        obtain ⟨hstart', hphase⟩ := phase_of_moves hmoves
        refine ⟨htag ▸ htask, hstart', fun j hj => ?_⟩
        exact honly j (hphase.resolve_left hstart j hj)
      · subst hbegins hphase
        refine ⟨rfl, by simp, fun j hj => ?_⟩
        exact (Option.some.inj hj).symm
    · rw [hother hne]
      have hold := hleaves.new i n hn (by
        rw [Mine, hcreator, Option.some.injEq]
        exact fun heq => hne heq.symm)
      exact hs.created i n q hold hcreator
  · rcases nodes_of_moves hmoves hn with ⟨m, hm, htag⟩ | ⟨-, -, -, hlinks⟩
    · rcases hs.linked i m hm with hlinks | hremoved
      · rw [htag] at hlinks
        rcases links_of_moves hmoves hlinks with hstill | ⟨htask, hphase⟩
        · exact .inl hstill
        · exact .inr ⟨p, by rw [hthis, htask, hphase]⟩
      · rw [htag] at hremoved
        exact .inr (hremoved.moves hproc hmoves)
    · exact .inl hlinks

/-- **What holds at all times**, in any order of the steps. -/
theorem sound_run
    (h₀ : Ready s₀)
    (h : run s₀ acts = some s) :
    Sound s₀ s :=
  ActionRun.run_keeps (I := Sound s₀) (P := fun _ => True) (fun _ _ _ hs _ hstep =>
    sound_step hs hstep) h₀.sound (fun _ _ => trivial) h

/-- The process that a file comes from, as it was before. -/
theorem Sound.creator
    (hs : Sound s₀ s)
    (h₀ : Ready s₀)
    (hn : s.files.nodes[i]? = some n)
    (hcreator : n.tag.creator = some p) :
    s₀.procs[p]? = some (Process.mk (.begins n.tag.name n.tag.text) .start) := by
  obtain ⟨proc, hproc, htask, -, -⟩ := hs.created i n p hn hcreator
  have hmap := congrArg (fun tasks => tasks[p]?) hs.tasks
  simp only [List.getElem?_map, hproc, Option.map_some] at hmap
  obtain ⟨proc₀, hproc₀, htask₀⟩ := Option.map_eq_some_iff.mp hmap.symm
  have hstart := h₀.procs p proc₀ hproc₀
  obtain ⟨task₀, phase₀⟩ := proc₀
  cases hstart
  rw [hproc₀, ← htask, ← htask₀]

/-- A file that was there is found under its name. -/
theorem Sound.content_old
    (hs : Sound s₀ s)
    (h₀ : Ready s₀)
    (hn : s.files.nodes[i]? = some n)
    (hcreator : n.tag.creator = none) :
    s₀.files.content n.tag.name = some n.data := by
  have hold := hs.old i n hn hcreator
  rw [content, (h₀.old i n hold).2.2, Option.bind_some, hold]
  rfl

/-- Two processes that begin sessions of one name, one that ends them and one that loads them. -/
def fourProcesses : System where
  files := {}
  procs := [⟨.begins "d-0" "[d-0]".toList, .start⟩, ⟨.begins "d-0" "[d-1]".toList, .start⟩,
    ⟨.ends "d-0", .start⟩, ⟨.loads "d-0", .start⟩]

theorem ready_fourProcesses : Ready fourProcesses := by
  refine ⟨fun p proc hproc => ?_, ⟨?_, ?_⟩, ?_⟩
  · have hmem := List.mem_of_getElem? hproc
    simp only [fourProcesses, List.mem_cons, List.not_mem_nil, or_false] at hmem
    rcases hmem with rfl | rfl | rfl | rfl <;> rfl
  · simp [fourProcesses]
  · simp [fourProcesses]
  · simp [fourProcesses]

/-- The file is loaded after it has been unlocked, and before the buffer is written. -/
def earlyLoad : List (Nat × Op) :=
  [(0, .openFile), (3, .openFile), (0, .lock), (0, .write 2), (0, .unlock), (3, .lock), (3, .read),
    (3, .unlock)]

theorem exists_earlyLoad :
    ∃ s, run fourProcesses earlyLoad = some s ∧ s.files.content "d-0" = some "[d".toList ∧
      s.procs[3]? = some ⟨.loads "d-0", .reading .unlocked 0 "[d".toList⟩ := by
  have hrun : ((run fourProcesses earlyLoad).any fun s =>
      decide (s.files.content "d-0" = some "[d".toList) &&
        decide (s.procs[3]? = some ⟨.loads "d-0", .reading .unlocked 0 "[d".toList⟩)) = true := by
    decide +kernel
  obtain ⟨s, hs, hrun⟩ := Option.any_eq_true _ _ |>.mp hrun
  simp only [Bool.and_eq_true, decide_eq_true_eq] at hrun
  exact ⟨s, hs, hrun.1, hrun.2⟩

/-- **What is found under a name**, while any number of processes are at work: what was there before
them, or a beginning of what one of them writes under the name, and all of it once it has finished.
No two sessions are mixed. -/
theorem contents_of_run
    (h₀ : Ready s₀)
    (h : run s₀ acts = some s)
    (hfile : s.files.content name = some text) :
    s₀.files.content name = some text ∨
      ∃ (p : Nat) (full : List Char), s₀.procs[p]? = some (Process.mk (.begins name full) .start) ∧
        text <+: full ∧ ∀ i : Nat,
          s.procs[p]? = some (Process.mk (.begins name full) (.written i)) → text = full := by
  have hs := sound_run h₀ h
  obtain ⟨i, hi, hnode⟩ := Option.bind_eq_some_iff.mp hfile
  obtain ⟨n, hn, rfl⟩ := Option.map_eq_some_iff.mp hnode
  obtain ⟨n', hn', rfl⟩ := hs.files.links name i hi
  rw [hn] at hn'
  cases hn'
  cases hcreator : n.tag.creator with
  | none => exact .inl (hs.content_old h₀ hn hcreator)
  | some p =>
      refine .inr ⟨p, n.tag.text, hs.creator h₀ hn hcreator, hs.files.texts i n hn, ?_⟩
      intro j hproc
      obtain ⟨proc', hproc', -, -, honly⟩ := hs.created i n p hn hcreator
      rw [hproc] at hproc'
      cases hproc'
      obtain ⟨name', full, m, -, hm, htag, hdata⟩ := (hs.procs p _ hproc).written j rfl
      have hj : j = i := honly j rfl
      rw [hj, hn] at hm
      cases hm
      rw [hdata, htag]

/-- Two characters are found in the file. -/
theorem contents_earlyLoad :
    ∃ (p : Nat) (full : List Char),
      fourProcesses.procs[p]? = some (Process.mk (.begins "d-0" full) .start) ∧
        "[d".toList <+: full := by
  obtain ⟨s, hs, hfile, -⟩ := exists_earlyLoad
  rcases contents_of_run ready_fourProcesses hs hfile with hold | ⟨p, full, hp, hprefix, -⟩
  · simp [fourProcesses, content] at hold
  · exact ⟨p, full, hp, hprefix⟩

/-- **What is loaded from a session file**, while other processes are at work: what was there before
them, or a beginning of what one of them writes under the name. -/
theorem loaded_of_run
    (h₀ : Ready s₀)
    (h : run s₀ acts = some s)
    (hp : s.procs[p]? = some (Process.mk (.loads name) (.reading .unlocked i text))) :
    s₀.files.content name = some text ∨
      ∃ (q : Nat) (full : List Char),
        s₀.procs[q]? = some (Process.mk (.begins name full) .start) ∧ text <+: full := by
  have hs := sound_run h₀ h
  obtain ⟨name', n, htask, hn, hname, hread, hold⟩ := (hs.procs p _ hp).reading .unlocked i text rfl
  cases htask
  subst hname
  cases hcreator : n.tag.creator with
  | none =>
      rw [hold (.inr rfl) hcreator]
      exact .inl (hs.content_old h₀ hn hcreator)
  | some q =>
      exact .inr ⟨q, n.tag.text, hs.creator h₀ hn hcreator,
        hread.trans (hs.files.texts i n hn)⟩

/-- **The lock does not help**: two characters of a session have been loaded, and no more. -/
theorem loaded_earlyLoad :
    ∃ (s : System) (q : Nat) (full : List Char), run fourProcesses earlyLoad = some s ∧
      s.procs[3]? = some ⟨.loads "d-0", .reading .unlocked 0 "[d".toList⟩ ∧
      fourProcesses.procs[q]? = some (Process.mk (.begins "d-0" full) .start) ∧
        "[d".toList <+: full ∧ "[d".toList ≠ full := by
  obtain ⟨s, hs, -, hloaded⟩ := exists_earlyLoad
  rcases loaded_of_run ready_fourProcesses hs hloaded with hold | ⟨q, full, hq, hprefix⟩
  · simp [fourProcesses, content] at hold
  · refine ⟨s, q, full, hs, hloaded, hq, hprefix, ?_⟩
    have hmem := List.mem_of_getElem? hq
    simp only [fourProcesses, List.mem_cons, Process.mk.injEq, Task.begins.injEq, true_and,
      and_true, reduceCtorEq, List.not_mem_nil, or_false] at hmem
    rcases hmem with rfl | rfl <;> decide

/-- **Two files of one name** have been there only if a process has taken the name away. -/
theorem removed_of_run
    {j : Nat} {m : FileNode Origin Char}
    (h₀ : Ready s₀)
    (h : run s₀ acts = some s)
    (hn : s.files.nodes[i]? = some n)
    (hm : s.files.nodes[j]? = some m)
    (hne : i ≠ j)
    (hname : n.tag.name = m.tag.name) :
    Removed s n.tag.name := by
  have hs := sound_run h₀ h
  rcases hs.linked i n hn with hi | hremoved
  · rcases hs.linked j m hm with hj | hremoved
    · rw [← hname, hi] at hj
      exact absurd (Option.some.inj hj) hne
    · rw [hname]
      exact hremoved
  · exact hremoved

/-- **Only one of several sessions of one name is begun**, unless a process takes the name away. -/
theorem written_of_run
    {q j : Nat} {full full' : List Char}
    (h₀ : Ready s₀)
    (h : run s₀ acts = some s)
    (hp : s.procs[p]? = some (Process.mk (.begins name full) (.written i)))
    (hq : s.procs[q]? = some (Process.mk (.begins name full') (.written j)))
    (hne : p ≠ q) :
    Removed s name := by
  have hs := sound_run h₀ h
  obtain ⟨_, _, n, htask, hn, htag, -⟩ := (hs.procs p _ hp).written i rfl
  cases htask
  obtain ⟨_, _, m, htask, hm, htag', -⟩ := (hs.procs q _ hq).written j rfl
  cases htask
  have hij : i ≠ j := by
    rintro rfl
    rw [hn] at hm
    cases hm
    rw [htag] at htag'
    simp only [Origin.mk.injEq, Option.some.injEq] at htag'
    exact hne htag'.2.1
  have hremoved := removed_of_run h₀ h hn hm hij (by rw [htag, htag'])
  rwa [htag] at hremoved

/-- Both sessions are begun, with the name taken away in between. -/
theorem written_fourProcesses :
    ∃ s, run fourProcesses
        [(0, .openFile), (0, .lock), (0, .write 2), (0, .unlock), (0, .close), (2, .unlink),
          (1, .openFile), (1, .lock), (1, .write 0), (1, .unlock), (1, .close)] = some s ∧
      Removed s "d-0" := by
  have hrun : ((run fourProcesses
      [(0, .openFile), (0, .lock), (0, .write 2), (0, .unlock), (0, .close), (2, .unlink),
        (1, .openFile), (1, .lock), (1, .write 0), (1, .unlock), (1, .close)]).any fun s =>
      decide (s.procs[0]? = some ⟨.begins "d-0" "[d-0]".toList, .written 0⟩) &&
        decide (s.procs[1]? = some ⟨.begins "d-0" "[d-1]".toList, .written 1⟩)) = true := by
    decide +kernel
  obtain ⟨s, hs, hrun⟩ := Option.any_eq_true _ _ |>.mp hrun
  simp only [Bool.and_eq_true, decide_eq_true_eq] at hrun
  exact ⟨s, hs, written_of_run ready_fourProcesses hs hrun.1 hrun.2 (by decide)⟩

end Runs

section Alone

variable {s₀ s : System} {files : Files} {p : Nat} {proc : Process} {phase : Phase} {c : Chroot}
  {st st' : SessionState}

/-- A table of names and texts stands for the directory. -/
def Represents (files : Files) (sessionFiles : SessionFiles) : Prop :=
  ∀ name : String, sessionFiles[name]? = (files.content name).map String.ofList

theorem step_of_next
    (op : Op)
    (hproc : s.procs[p]? = some proc)
    (h : proc.next s p op = some (files, phase)) :
    step s (p, op) =
      some { files := files, procs := s.procs.set p { proc with phase := phase } } := by
  simp [step, hproc, h]

/-- Nobody has locked a file that is not there yet. -/
theorem Sound.not_blocks
    (hs : Sound s₀ s)
    (hproc : proc ∈ s.procs) :
    proc.phase.blocks true s.files.nodes.length = false := by
  obtain ⟨q, hq⟩ := List.mem_iff_getElem?.mp hproc
  have hsound := hs.procs q proc hq
  have hlt : ∀ {j : Nat} {n : FileNode Origin Char}, s.files.nodes[j]? = some n →
      ¬ s.files.nodes.length = j := by
    intro j n hn heq
    have hj := (List.getElem?_eq_some_iff.mp hn).1
    omega
  cases hphase : proc.phase with
  | writing stage j rest =>
      obtain ⟨_, _, n, _, hn, _⟩ := hsound.writing stage j rest hphase
      simp [Phase.blocks, hlt hn]
  | reading stage j text =>
      obtain ⟨_, n, _, hn, _⟩ := hsound.reading stage j text hphase
      simp [Phase.blocks, hlt hn]
  | _ => rfl

/-- What is found after a file has been created and written. -/
theorem content_created
    (hs : FilesSound files)
    (name : String) (tag : Origin) (xs ys : List Char) (name' : String) :
    (((files.create name tag).append files.nodes.length xs).append files.nodes.length ys).content
        name' =
      if name' = name then some (xs ++ ys) else files.content name' := by
  have hlinks : (((files.create name tag).append files.nodes.length xs).append
      files.nodes.length ys).links[name']? =
        if name' = name then some files.nodes.length else files.links[name']? := by
    show (files.create name tag).links[name']? = _
    exact links_create
  rw [content, hlinks]
  split
  · rw [Option.bind_some, nodes_append, if_pos rfl, nodes_append, if_pos rfl, nodes_create,
      if_pos rfl]
    simp
  · rw [content]
    cases hi : files.links[name']? with
    | none => rfl
    | some i =>
        obtain ⟨n, hn, -⟩ := hs.links name' i hi
        have hlt := (List.getElem?_eq_some_iff.mp hn).1
        rw [Option.bind_some, Option.bind_some, nodes_append, if_neg (by omega), nodes_append,
          if_neg (by omega), nodes_create, if_neg (by omega)]

/-- The next step of a process that has just made one. -/
theorem step_after
    {procs : List Process} {files' : Files}
    (op : Op)
    (hlt : p < procs.length)
    (h : proc.next { files := files, procs := procs.set p proc } p op = some (files', phase)) :
    step { files := files, procs := procs.set p proc } (p, op) =
      some { files := files', procs := procs.set p { proc with phase := phase } } := by
  rw [step_of_next op (List.getElem?_set_self hlt) h, List.set_set]

/-- What a process does with a file that it has created. -/
theorem run_writing
    {procs : List Process} {name : String} {text rest : List Char} {i : Nat}
    (hlt : p < procs.length)
    (hfree : (System.mk files
      (procs.set p ⟨.begins name text, .writing .opened i rest⟩)).free true i = true)
    (k : Nat) :
    run { files := files, procs := procs.set p ⟨.begins name text, .writing .opened i rest⟩ }
        [(p, .lock), (p, .write k), (p, .unlock), (p, .close)] =
      some
        { files := (files.append i (rest.take k)).append i (rest.drop k)
          procs := procs.set p ⟨.begins name text, .written i⟩ } := by
  have hlock := step_after .lock hlt (show Process.next _ p
    (Process.mk (.begins name text) (.writing .opened i rest)) .lock = some (files, _) from
      if_pos hfree)
  have hwrite : step ⟨files, procs.set p ⟨.begins name text, .writing .locked i rest⟩⟩
      (p, .write k) =
        some ⟨files.append i (rest.take k),
          procs.set p ⟨.begins name text, .writing .moved i (rest.drop k)⟩⟩ :=
    step_after (.write k) hlt rfl
  refine ActionRun.run_cons_eq_some.mpr ⟨_, hlock, ActionRun.run_cons_eq_some.mpr ⟨_, hwrite, ?_⟩⟩
  exact ActionRun.run_cons_eq_some.mpr ⟨_, step_after .unlock hlt rfl,
    ActionRun.run_cons_eq_some.mpr ⟨_, step_after .close hlt rfl, rfl⟩⟩

/-- **A process that is not interrupted** does what `setup_session_info` does when it does not
fail. -/
theorem run_alone
    (hs : Sound s₀ s)
    (hp : s.procs[p]? = some (Process.mk (.begins c.name (fullText c).toList) .start))
    (hfiles : Represents s.files st.sessionFiles)
    (hcreates : Creates c (fullText c) st st')
    (k : Nat) :
    ∃ s', run s [(p, .openFile), (p, .lock), (p, .write k), (p, .unlock), (p, .close)] = some s' ∧
      Represents s'.files st'.sessionFiles := by
  have hlt : p < s.procs.length := (List.getElem?_eq_some_iff.mp hp).1
  have hnew : c.name ∉ s.files.links := by
    intro hmem
    obtain ⟨i, hi⟩ := Option.isSome_iff_exists.mp (Std.ExtTreeMap.mem_iff_isSome_getElem?.mp hmem)
    obtain ⟨n, hn, -⟩ := hs.files.links c.name i hi
    refine hcreates.new ?_
    rw [Std.ExtTreeMap.mem_iff_isSome_getElem?, hfiles, content, hi, Option.bind_some, hn]
    rfl
  have hnext : (Process.mk (.begins c.name (fullText c).toList) .start).next s p .openFile =
      some (s.files.create c.name
          { name := c.name, creator := some p, text := (fullText c).toList },
        .writing .opened s.files.nodes.length (fullText c).toList) := by
    simp only [Process.next, if_neg hnew]
  have hfree : (System.mk (s.files.create c.name
      { name := c.name, creator := some p, text := (fullText c).toList })
      (s.procs.set p ⟨.begins c.name (fullText c).toList,
        .writing .opened s.files.nodes.length (fullText c).toList⟩)).free true
          s.files.nodes.length = true := by
    rw [System.free, List.all_eq_true]
    intro proc hproc
    rcases List.mem_or_eq_of_mem_set hproc with hproc | rfl
    · simp [hs.not_blocks hproc]
    · simp [Phase.blocks]
  refine ⟨_, ActionRun.run_cons_eq_some.mpr
    ⟨_, step_of_next .openFile hp hnext, run_writing hlt hfree k⟩, ?_⟩
  intro name
  rw [hcreates.written, content_created hs.files, List.take_append_drop]
  split
  · simp
  · exact hfiles name

end Alone

end Sharing

end Schroot
