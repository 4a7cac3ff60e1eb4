import Mathlib.Data.List.Induction
import Mathlib.Data.List.Nodup
import Schroot.RunParts

/-!
# Running all scripts of a directory

`run_parts::run` runs the programs of a set one after the other, in ascending or descending
order of their names, and stops at the first failure if it is told to.

**Input.**  The set of programs, and the exit status of each.

**Results.**
* `runLoop_executed`, `runLoop_status`: what is executed, and which status is returned.
* `documented_iff`: when this is what is documented.
-/

namespace Schroot

/-- `run_parts`, as far as the order of its programs depends on it. -/
structure RunParts where
  abortOnError : Bool := true
  reverse : Bool := false
  directory : String
  programs : Std.ExtTreeSet String

namespace RunParts

section Model

/-- A program that `run_child` executes, with its command. -/
structure Execution where
  path : String
  command : List String
deriving DecidableEq, Repr

/-- The order of the iterators. -/
def order (rp : RunParts) : List String :=
  if rp.reverse then rp.programs.toList.reverse else rp.programs.toList

/-- The loop over the programs, with the exit status of the program before. -/
def runLoop (abortOnError : Bool) (status : String → Int) :
    List String → Int → List String × Int
  | [], exitStatus => ([], exitStatus)
  | file :: files, _ =>
      if status file ≠ 0 ∧ abortOnError = true then
        ([file], status file)
      else
        let rest := runLoop abortOnError status files (status file)
        (file :: rest.1, rest.2)

/-- `run_child` of a program. -/
def execution (rp : RunParts) (command : List String) (file : String) : Execution where
  path := rp.directory ++ "/" ++ file
  command := file :: command

/-- `run`: the programs that are executed, and what is returned. -/
def run (rp : RunParts) (status : String → Int) (command : List String) :
    List Execution × Int :=
  let result := runLoop rp.abortOnError status rp.order 0
  (result.1.map (rp.execution command), result.2)

end Model

section Documentation

/-- The programs that are to be executed: all of them, or those up to the first failure. -/
def upToFailure (abortOnError : Bool) (status : String → Int) (files : List String) :
    List String :=
  if abortOnError then
    files.takeWhile (status · = 0) ++ (files.dropWhile (status · = 0)).take 1
  else
    files

/-- The status that is to be returned: that of the last failing program, or zero. -/
def lastFailure (status : String → Int) (files : List String) : Int :=
  (((files.map status).filter (· ≠ 0)).getLast?).getD 0

/-- The order in which the programs are to be executed. -/
def Before (reverse : Bool) (file file' : String) : Prop :=
  if reverse then file' < file else file < file'

/-- **What `run` is to do**: it executes the programs in order, each of them once and up to the
first failure if that ends the run.  It returns zero if all of them succeeded, and otherwise
the status of the last one that failed. -/
structure Documented (rp : RunParts) (status : String → Int) (command : List String) :
    Prop where
  ordered : rp.order.Pairwise (Before rp.reverse)
  complete : ∀ file, file ∈ rp.order ↔ file ∈ rp.programs
  executed : (rp.run status command).1 =
    (upToFailure rp.abortOnError status rp.order).map (rp.execution command)
  once : (rp.run status command).1.Nodup
  zero : (rp.run status command).2 = 0 ↔
    ∀ file ∈ upToFailure rp.abortOnError status rp.order, status file = 0
  last : (rp.run status command).2 =
    lastFailure status (upToFailure rp.abortOnError status rp.order)

variable {status : String → Int}

theorem pairwise_order (rp : RunParts) :
    rp.order.Pairwise (Before rp.reverse) := by
  have hsorted : rp.programs.toList.Pairwise (· < ·) :=
    rp.programs.ordered_toList.imp fun h => compareOfLessAndEq_eq_lt.mp h
  unfold order Before
  cases rp.reverse with
  | false => simpa using hsorted
  | true => simpa using List.pairwise_reverse.mpr hsorted

theorem mem_order_iff (rp : RunParts) (file : String) :
    file ∈ rp.order ↔ file ∈ rp.programs := by
  unfold order
  split <;> simp

theorem nodup_order (rp : RunParts) :
    rp.order.Nodup := by
  refine (pairwise_order rp).imp fun {a b} h heq => ?_
  subst heq
  unfold Before at h
  split at h
  · exact String.lt_irrefl a h
  · exact String.lt_irrefl a h

theorem upToFailure_sublist (abortOnError : Bool) (files : List String) :
    (upToFailure abortOnError status files).Sublist files := by
  unfold upToFailure
  split
  · have hparts := (List.take_sublist 1 (files.dropWhile (status · = 0))).append_left
      (files.takeWhile (status · = 0))
    rwa [List.takeWhile_append_dropWhile] at hparts
  · exact List.Sublist.refl files

/-- **The programs that are executed** are those up to the first failure. -/
theorem runLoop_executed (abortOnError : Bool) (files : List String) (last : Int) :
    (runLoop abortOnError status files last).1 = upToFailure abortOnError status files := by
  induction files generalizing last with
  | nil => cases abortOnError <;> rfl
  | cons file files ih =>
      unfold upToFailure at ih ⊢
      by_cases hok : status file = 0
      · cases abortOnError with
        | false => simpa [runLoop, hok] using ih _
        | true => simpa [runLoop, hok] using ih _
      · cases abortOnError with
        | false => simpa [runLoop, hok] using ih _
        | true => simp [runLoop, hok]

/-- **The status that is returned** is that of the last program that is executed. -/
theorem runLoop_status (abortOnError : Bool) (files : List String) (last : Int) :
    (runLoop abortOnError status files last).2 =
      (((upToFailure abortOnError status files).map status).getLast?).getD last := by
  induction files generalizing last with
  | nil => cases abortOnError <;> rfl
  | cons file files ih =>
      rw [← runLoop_executed abortOnError (file :: files) last]
      simp only [runLoop]
      split
      · rfl
      · rw [ih, ← runLoop_executed abortOnError files (status file)]
        cases (runLoop abortOnError status files (status file)).1 <;> simp [List.getLast?_cons]

theorem lastFailure_concat (files : List String) (file : String) :
    lastFailure status (files ++ [file]) =
      if status file = 0 then lastFailure status files else status file := by
  unfold lastFailure
  rw [List.map_append, List.filter_append]
  by_cases hok : status file = 0 <;> simp [hok]

theorem lastFailure_eq_zero_iff (status : String → Int) (files : List String) :
    lastFailure status files = 0 ↔ ∀ file ∈ files, status file = 0 := by
  induction files using List.reverseRecOn with
  | nil => simp [lastFailure]
  | append_singleton files file ih =>
      rw [lastFailure_concat, List.forall_mem_append]
      by_cases hok : status file = 0
      · simp [hok, ih]
      · simp [hok]

/-- **When the last status is the documented one**: the last program failed, or none did. -/
theorem lastStatus_iff (status : String → Int) (files : List String) :
    (((files.map status).getLast?).getD 0 = 0 ↔ ∀ file ∈ files, status file = 0) ∧
        ((files.map status).getLast?).getD 0 = lastFailure status files ↔
      (∀ file ∈ files.getLast?, status file ≠ 0) ∨ ∀ file ∈ files, status file = 0 := by
  rcases List.eq_nil_or_concat files with rfl | ⟨files, file, rfl⟩
  · simp [lastFailure]
  · rw [List.concat_eq_append, lastFailure_concat]
    have hzero := lastFailure_eq_zero_iff status files
    by_cases hok : status file = 0
    · have hall : (∀ f ∈ files ++ [file], status f = 0) ↔ ∀ f ∈ files, status f = 0 := by
        rw [List.forall_mem_append]
        exact and_iff_left (by simpa using hok)
      rw [hall, ← hzero]
      simp [hok, eq_comm]
    · simp [hok]

/-- After the first failure nothing is executed. -/
theorem upToFailure_abort (files : List String) :
    (∀ file ∈ (upToFailure true status files).getLast?, status file ≠ 0) ∨
      ∀ file ∈ upToFailure true status files, status file = 0 := by
  induction files with
  | nil => exact .inr (by simp [upToFailure])
  | cons file files ih =>
      by_cases hok : status file = 0
      · have hcons : upToFailure true status (file :: files) =
            file :: upToFailure true status files := by
          simp [upToFailure, hok]
        rw [hcons]
        rcases ih with ih | ih
        · cases hrest : upToFailure true status files with
          | nil => exact .inr (by simp [hok])
          | cons next rest =>
              rw [hrest] at ih
              exact .inl (by simpa [List.getLast?_cons] using ih)
        · exact .inr (List.forall_mem_cons.mpr ⟨hok, ih⟩)
      · exact .inl (by simp [upToFailure, hok])

/-- **When `run` does what it is documented to do**: failures end the run, or the program that
comes last fails, or no program does. -/
theorem documented_iff
    (rp : RunParts) (status : String → Int) (command : List String) :
    Documented rp status command ↔
      rp.abortOnError = true ∨ (∀ file ∈ rp.order.getLast?, status file ≠ 0) ∨
        ∀ file ∈ rp.programs, status file = 0 := by
  have hexecuted : (rp.run status command).1 =
      (upToFailure rp.abortOnError status rp.order).map (rp.execution command) := by
    rw [← runLoop_executed rp.abortOnError rp.order 0]
    rfl
  have hstatus : (rp.run status command).2 =
      (((upToFailure rp.abortOnError status rp.order).map status).getLast?).getD 0 :=
    runLoop_status rp.abortOnError rp.order 0
  have hcommand : Function.Injective (rp.execution command) := fun a b h =>
    (List.cons.inj (congrArg Execution.command h)).1
  have honce : (rp.run status command).1.Nodup := by
    rw [hexecuted]
    exact List.Nodup.map hcommand ((nodup_order rp).sublist (upToFailure_sublist _ _))
  have hlast := lastStatus_iff status (upToFailure rp.abortOnError status rp.order)
  rw [← hstatus] at hlast
  have hiff : Documented rp status command ↔
      (∀ file ∈ (upToFailure rp.abortOnError status rp.order).getLast?, status file ≠ 0) ∨
        ∀ file ∈ upToFailure rp.abortOnError status rp.order, status file = 0 := by
    rw [← hlast]
    constructor
    · exact fun h => ⟨h.zero, h.last⟩
    · exact fun h => ⟨pairwise_order rp, mem_order_iff rp, hexecuted, honce, h.1, h.2⟩
  rw [hiff]
  cases habort : rp.abortOnError with
  | true => exact iff_of_true (upToFailure_abort rp.order) (.inl rfl)
  | false => simp [upToFailure, mem_order_iff]

/-- A script that fails is forgotten when the next one succeeds. -/
theorem not_documented_of_success :
    ¬ ∀ (rp : RunParts) (status : String → Int) (command : List String),
      Documented rp status command := by
  intro h
  have hzero := (h
    { abortOnError := false, directory := "/etc/schroot/setup.d",
      programs := Std.ExtTreeSet.ofList ["10mount", "20copyfiles"] }
    (fun file => if file = "10mount" then 1 else 0) ["setup-stop"]).zero
  revert hzero
  decide

end Documentation

end RunParts

end Schroot
