import Schroot.CommandEnvironment

/-!
# The filter of an environment

An `environment` object has a filter, and every way of adding a variable ends in the one that
looks at it.  What an object holds is therefore free of filtered names after any sequence of
operations, whatever the filters of the environments are that it is merged with.

**Results.**
* `keepsOut_run`: the invariant of an environment with a filter.
* `exists_run_runChild`: the environment of a command comes from such operations.
* `runChild_environment_filter`: what the filter of a chroot keeps from a command, and what it
  does not.
-/

namespace Schroot

namespace Environment

section Operations

/-- An operation on an environment object: `add`, `remove` and the operators that are written
with them. -/
inductive Operation where
  | addStrings (entries : List String)
  | addEnvironment (other : Environment)
  | addEntry (entry : String)
  | addValue (name value : String)
  | removeStrings (entries : List String)
  | removeEnvironment (other : Environment)
  | removeEntry (entry : String)
  | removeValue (name : String)

/-- `environment::add (string)`. -/
def addEntry (filtered : String → Bool) (env : Environment) (entry : String) : Environment :=
  env.addFiltered filtered (splitEntry entry).1 (splitEntry entry).2

/-- `environment::remove (string)`. -/
def removeEntry (env : Environment) (entry : String) : Environment :=
  env.erase (splitEntry entry).1

/-- What an operation does to an environment with a filter. -/
def apply (filtered : String → Bool) (env : Environment) : Operation → Environment
  | .addStrings entries => entries.foldl (addEntry filtered) env
  | .addEnvironment other => env.addEnvironment filtered other
  | .addEntry entry => env.addEntry filtered entry
  | .addValue name value => env.addFiltered filtered name value
  | .removeStrings entries => entries.foldl removeEntry env
  | .removeEnvironment other => other.toList.foldl (fun env e => env.erase e.1) env
  | .removeEntry entry => env.removeEntry entry
  | .removeValue name => env.erase name

/-- The operations one after the other. -/
def run (filtered : String → Bool) (env : Environment) (ops : List Operation) : Environment :=
  ops.foldl (apply filtered) env

theorem run_append
    (filtered : String → Bool)
    (env : Environment)
    (ops ops' : List Operation) :
    env.run filtered (ops ++ ops') = (env.run filtered ops).run filtered ops' :=
  List.foldl_append

/-- No variable has a name that the filter matches. -/
def KeepsOut (filtered : String → Bool) (env : Environment) : Prop :=
  ∀ key ∈ env, filtered key = false

variable {filtered : String → Bool} {env : Environment}

theorem keepsOut_empty : KeepsOut filtered ∅ := by
  intro key hkey
  simp at hkey

theorem keepsOut_erase
    (h : KeepsOut filtered env)
    (name : String) :
    KeepsOut filtered (env.erase name) := by
  intro key hkey
  exact h key (Std.ExtTreeMap.mem_of_mem_erase hkey)

/-- The one place that inserts looks at the filter. -/
theorem keepsOut_addFiltered
    (h : KeepsOut filtered env)
    (name value : String) :
    KeepsOut filtered (env.addFiltered filtered name value) := by
  unfold addFiltered
  split
  · exact h
  · cases hfiltered : filtered name with
    | true =>
        rw [if_pos rfl]
        exact keepsOut_erase h name
    | false =>
        rw [if_neg Bool.false_ne_true]
        intro key hkey
        rcases Std.ExtTreeMap.mem_insert.mp hkey with hname | hkey
        · rwa [← Std.LawfulEqCmp.compare_eq_iff_eq.mp hname]
        · exact h key hkey

/-- What each turn of a loop keeps is kept by the loop. -/
theorem keepsOut_foldl
    {α : Type} {f : Environment → α → Environment}
    (hf : ∀ env a, KeepsOut filtered env → KeepsOut filtered (f env a))
    (h : KeepsOut filtered env)
    (as : List α) :
    KeepsOut filtered (as.foldl f env) := by
  induction as generalizing env with
  | nil => exact h
  | cons a as ih => exact ih (hf env a h)

theorem keepsOut_apply
    (h : KeepsOut filtered env)
    (op : Operation) :
    KeepsOut filtered (env.apply filtered op) := by
  cases op with
  | addStrings entries =>
      exact keepsOut_foldl (fun env entry henv => keepsOut_addFiltered henv _ _) h entries
  | addEnvironment other =>
      exact keepsOut_foldl (fun env e henv => keepsOut_addFiltered henv e.1 e.2) h other.toList
  | addEntry entry => exact keepsOut_addFiltered h _ _
  | addValue name value => exact keepsOut_addFiltered h name value
  | removeStrings entries =>
      exact keepsOut_foldl (fun env entry henv => keepsOut_erase henv _) h entries
  | removeEnvironment other =>
      exact keepsOut_foldl (fun env e henv => keepsOut_erase henv e.1) h other.toList
  | removeEntry entry => exact keepsOut_erase h _
  | removeValue name => exact keepsOut_erase h name

/-- **The invariant of an environment with a filter**, over every sequence of operations. -/
theorem keepsOut_run
    (h : KeepsOut filtered env)
    (ops : List Operation) :
    KeepsOut filtered (env.run filtered ops) :=
  keepsOut_foldl (fun _ op henv => keepsOut_apply henv op) h ops

theorem run_addValues
    (filtered : String → Bool)
    (env : Environment)
    (entries : List (String × String)) :
    env.run filtered (entries.map fun e => .addValue e.1 e.2) =
      env.addAllFiltered filtered entries := by
  simp only [run, addAllFiltered, List.foldl_map]
  rfl

end Operations

section Names

/-- An environment has no variable without a name. -/
def Named (env : Environment) : Prop :=
  env[""]? = none

variable {filtered : String → Bool} {env : Environment}

theorem named_empty : Named ∅ := by
  simp [Named]

theorem named_addFiltered
    (h : Named env)
    (name value : String) :
    Named (env.addFiltered filtered name value) := by
  unfold Named
  rw [getElem?_addFiltered, if_neg fun hname => hname.1 hname.2.symm]
  exact h

theorem named_addAll
    (h : Named env)
    (entries : List (String × String)) :
    Named (Environment.addAll env entries) := by
  induction entries generalizing env with
  | nil => exact h
  | cons e entries ih =>
      have hadd : Named (env.add e.1 e.2) := by
        unfold add
        split
        · exact h
        · next hname =>
            unfold Named
            rw [SortedMap.getElem?_insert, if_neg (Ne.symm hname)]
            exact h
      exact ih hadd

theorem named_addEnvironment
    (h : Named env)
    (other : Environment) :
    Named (env.addEnvironment filtered other) := by
  suffices hlist : ∀ (entries : List (String × String)) (env : Environment), Named env →
      Named (env.addAllFiltered filtered entries) from hlist other.toList env h
  intro entries
  induction entries with
  | nil => exact fun env henv => henv
  | cons e entries ih => exact fun env henv => ih _ (named_addFiltered henv e.1 e.2)

end Names

end Environment

namespace CommandRequest

open Environment

section Source

variable {w : ChildWorld} {r : CommandRequest} {c : Chroot} {environ : List String}

/-- The environment that is merged into the one of the command. -/
def sourceEnvironment (r : CommandRequest) (c : Chroot) (environ : List String) : Environment :=
  if r.preserves c then r.completeEnvironment environ else r.getAuthEnvironment environ

/-- The variables that `run_child` sets, the shell only for a login. -/
def ownNames (r : CommandRequest) : List String :=
  (if r.hasNoCommand then ["SHELL"] else []) ++ sessionNames

theorem named_sourceEnvironment (r : CommandRequest) (c : Chroot) (environ : List String) :
    Named (r.sourceEnvironment c environ) := by
  have hauth : Named (r.getAuthEnvironment environ) := by
    unfold getAuthEnvironment
    split
    · exact named_addAll named_empty _
    · exact named_addAll named_empty _
  unfold sourceEnvironment
  split
  · exact named_addEnvironment (named_addEnvironment (named_addEnvironment named_empty _) _) _
  · exact hauth

/-- The merge into the empty environment keeps the variables that are not filtered. -/
theorem getElem?_startEnvironment
    {key : String}
    (hkey : key ≠ "") :
    (r.startEnvironment w c environ)[key]? =
      if w.filtered c key then none else (r.sourceEnvironment c environ)[key]? := by
  show (Environment.addEnvironment (w.filtered c) ∅ (r.sourceEnvironment c environ))[key]? = _
  rw [getElem?_addEnvironment hkey]
  cases (r.sourceEnvironment c environ)[key]? with
  | none => simp
  | some value => rfl

/-- What becomes of the environment between the merge and the variables of the session. -/
def commandOperations (w : ChildWorld) (r : CommandRequest) (c : Chroot)
    (environ : List String) : List Operation :=
  if r.hasNoCommand then [.addValue "SHELL" (r.getShell w c environ)] else []

theorem env_getCommand (env : Environment) :
    (r.getCommand w c environ env).env =
      env.run (w.filtered c) (r.commandOperations w c environ) := by
  unfold getCommand commandOperations
  split
  · rfl
  · rfl

/-- **The environment of a command** comes from operations on an empty environment with the
filter of the chroot. -/
theorem exists_run_runChild
    {x : ExecCall}
    (h : r.runChild w c environ = .ok x) :
    ∃ command, x.env = Environment.run (w.filtered c) ∅
      (.addEnvironment (r.sourceEnvironment c environ) ::
        (r.commandOperations w c environ ++
          (r.sessionVariables c command).map fun e => .addValue e.1 e.2)) := by
  simp only [runChild, bind, Except.bind, pure, Except.pure] at h
  cases hentered : w.entered with
  | error e => simp [hentered] at h
  | ok =>
      simp only [hentered] at h
      split at h
      · cases h
      · cases h
        refine ⟨(r.getCommand w c environ (r.startEnvironment w c environ)).command, ?_⟩
        rw [env_withPrefix, env_getCommand, ← List.singleton_append, run_append, run_append,
          run_addValues]
        rfl

theorem getElem?_commandOperations
    {key : String}
    (hkey : key ∉ r.ownNames)
    (env : Environment) :
    (env.run (w.filtered c) (r.commandOperations w c environ))[key]? = env[key]? := by
  unfold commandOperations
  split
  · next hlogin =>
      have hshell : key ≠ "SHELL" := by
        intro hshell
        simp [ownNames, hlogin, hshell] at hkey
      show (env.addFiltered (w.filtered c) "SHELL" _)[key]? = _
      rw [getElem?_addFiltered, if_neg fun hname => hshell hname.2]
  · rfl

/-- **What the filter of a chroot does**: no variable of a command has a name that matches, and
every other variable of the environment that the session starts from keeps its value, unless
the session sets it. -/
theorem runChild_environment_filter
    (w : ChildWorld) (r : CommandRequest) (c : Chroot) (environ : List String)
    (x : ExecCall)
    (hfilter : c.environmentFilter ≠ "")
    (h : r.runChild w c environ = .ok x) :
    (∀ key ∈ x.env, w.regexSearch key c.environmentFilter = false) ∧
      ∀ key value, (r.sourceEnvironment c environ)[key]? = some value →
        w.regexSearch key c.environmentFilter = false → key ∉ r.ownNames →
          x.env[key]? = some value := by
  have hsearch : ∀ key, w.filtered c key = w.regexSearch key c.environmentFilter := by
    intro key
    simp [ChildWorld.filtered, hfilter]
  obtain ⟨command, hrun⟩ := exists_run_runChild h
  constructor
  · intro key hkey
    rw [hrun] at hkey
    rw [← hsearch key]
    exact keepsOut_run keepsOut_empty _ key hkey
  · intro key value hvalue hunmatched hown
    have hname : key ≠ "" := by
      rintro rfl
      rw [named_sourceEnvironment r c environ] at hvalue
      cases hvalue
    have hsession : key ∉ sessionNames := fun hm => hown (List.mem_append_right _ hm)
    rw [hrun, ← List.singleton_append, run_append, run_append, run_addValues,
      getElem?_addAllFiltered_of_notMem (by rwa [names_sessionVariables]),
      getElem?_commandOperations hown]
    show (r.startEnvironment w c environ)[key]? = _
    rw [getElem?_startEnvironment hname, hsearch, hunmatched]
    exact hvalue

/-- The field separators of the user are filtered, the editor is not. -/
theorem runChild_environment_filter_login :
    ∃ x, (sampleRequest true).runChild sampleWorld sampleChroot
        ["IFS=/", "EDITOR=vi"] = .ok x ∧
      (∀ key ∈ x.env, sampleWorld.regexSearch key sampleChroot.environmentFilter = false) ∧
      ((sampleRequest true).sourceEnvironment sampleChroot ["IFS=/", "EDITOR=vi"])["EDITOR"]? =
        some "vi" ∧
      x.env["EDITOR"]? = some "vi" := by
  have hrun : ∃ x, (sampleRequest true).runChild sampleWorld sampleChroot
      ["IFS=/", "EDITOR=vi"] = .ok x := ⟨_, rfl⟩
  obtain ⟨x, hx⟩ := hrun
  have hfilter := runChild_environment_filter sampleWorld (sampleRequest true) sampleChroot
    ["IFS=/", "EDITOR=vi"] x (by decide) hx
  have hsource : ((sampleRequest true).sourceEnvironment sampleChroot
      ["IFS=/", "EDITOR=vi"])["EDITOR"]? = some "vi" := by
    decide +kernel
  exact ⟨x, hx, hfilter.1, hsource,
    hfilter.2 "EDITOR" "vi" hsource (by decide) (by decide)⟩

end Source

end CommandRequest

end Schroot
