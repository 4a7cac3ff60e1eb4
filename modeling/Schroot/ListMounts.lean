import Schroot.MountStream

/-!
# Listing mounts

`action_listmounts` prints the mounts at and below a directory, the one that was mounted last
first.

**Input.**  What `realpath` says of the directory, and the mount table.

**Results.**
* `isListed_iff`: which directories are listed.
* `listLoop_of_reading`: the loop collects the listed entries of the table, each once and in
  order.
* `actionListmounts_eq`: what is printed.
-/

namespace Schroot

section Model

inductive ListmountsCode where
  | find
deriving DecidableEq, Repr

/-- The exceptions that listing mounts ends with. -/
inductive ListmountsError where
  | main (e : ErrorInfo ListmountsCode)
  | mount (e : MountError)
deriving DecidableEq, Repr

/-- The test of a mount directory: `find` at `0` is a test of the first characters. -/
def isListed (toFind mountDir : String) : Bool :=
  let size := toFind.toList.length
  -- the names are the same, or a separator follows, else it is not the same directory
  toFind = "/" ||
    (toFind.toList.isPrefixOf mountDir.toList &&
      (mountDir.toList.length = size ||
        (size < mountDir.toList.length && mountDir.toList[size]? = some '/')))

/-- The loop over the mounts, with fuel; it ends with the directories to list. -/
def listLoop (toFind : String) : Nat → List String → MountStream →
    Option (Except MountError (List String))
  | 0, _, _ => none
  | fuel + 1, mountlist, mounts =>
      match MountStream.extract.exec mounts with
      | (.error e, _) => some (.error e)
      | (.ok entry, mounts) =>
          if mounts.isGood then
            listLoop toFind fuel
              (if isListed toFind entry.directory then mountlist ++ [entry.directory]
                else mountlist)
              mounts
          else
            some (.ok mountlist)

/-- A line for each directory, from the last one to the first one. -/
def printReversed (mountlist : List String) : String :=
  mountlist.foldr (fun dir printed => printed ++ dir ++ "\n") ""

/-- `main::action_listmounts`: what is printed, unless the fuel runs out. -/
def actionListmounts (realpath : String → Except String String)
    (procMounts : Except String MountFile) (fuel : Nat) (mountpoint : String) :
    Option (Except ListmountsError String) :=
  let toFind := normalname mountpoint
  match realpath toFind with
  | .error reason => some (.error (.main { code := .find, context := toFind, reason := reason }))
  | .ok toFind =>
      match (MountStream.openFile "/proc/mounts" procMounts).exec {} with
      | (.error e, _) => some (.error (.mount e))
      | (.ok _, mounts) =>
          match listLoop toFind fuel [] mounts with
          | none => none
          | some (.error e) => some (.error (.mount e))
          | some (.ok mountlist) => some (.ok (printReversed mountlist))

end Model

section Listed

/-- A directory is `m`, or `m` is the path in front of one of its separators; everything is
below the root. -/
def AtOrBelow (m dir : String) : Prop :=
  m = "/" ∨ dir = m ∨ ∃ below, dir = m ++ "/" ++ below

/-- **Which directories are listed**: those at or below the one that is looked for. -/
theorem isListed_iff (toFind mountDir : String) :
    isListed toFind mountDir = true ↔ AtOrBelow toFind mountDir := by
  have hpath : ∀ below, (toFind ++ "/" ++ below).toList = toFind.toList ++ '/' :: below.toList := by
    intro below
    simp [String.toList_append]
  simp only [isListed, AtOrBelow, Bool.or_eq_true, Bool.and_eq_true, decide_eq_true_eq,
    List.isPrefixOf_iff_prefix]
  refine or_congr_right ⟨?_, ?_⟩
  · rintro ⟨⟨rest, hrest⟩, hsame | ⟨hlonger, hnext⟩⟩
    · have hnil : rest = [] := by
        have hlengths := congrArg List.length hrest
        rw [List.length_append, hsame] at hlengths
        exact List.length_eq_zero_iff.mp (by omega)
      rw [hnil, List.append_nil] at hrest
      exact .inl (String.toList_inj.mp hrest.symm)
    · rw [← hrest, List.getElem?_append_right (Nat.le_refl _), Nat.sub_self] at hnext
      cases rest with
      | nil => simp at hnext
      | cons c below =>
          have hc : c = '/' := by simpa using hnext
          refine .inr ⟨String.ofList below, String.toList_inj.mp ?_⟩
          rw [hpath, String.toList_ofList, ← hrest, hc]
  · rintro (rfl | ⟨below, rfl⟩)
    · exact ⟨List.prefix_refl _, .inl rfl⟩
    · rw [hpath]
      refine ⟨List.prefix_append _ _, .inr ⟨by simp, ?_⟩⟩
      rw [List.getElem?_append_right (Nat.le_refl _), Nat.sub_self]
      rfl

instance (m dir : String) : Decidable (AtOrBelow m dir) :=
  decidable_of_iff _ (isListed_iff m dir)

theorem isListed_eq (m dir : String) : isListed m dir = decide (AtOrBelow m dir) :=
  Bool.eq_iff_iff.mpr (by simp [isListed_iff])

end Listed

section Loop

open MountStream

variable {s : MountStream} {toFind : String}

/-- The directories of a table that are listed. -/
def listedDirectories (toFind : String) (entries : List MountEntry) : List String :=
  (entries.map MountEntry.directory).filter (isListed toFind)

theorem listedDirectories_cons (toFind : String) (e : MountEntry) (entries : List MountEntry) :
    listedDirectories toFind (e :: entries) =
      (if isListed toFind e.directory then [e.directory] else []) ++
        listedDirectories toFind entries := by
  unfold listedDirectories
  rw [List.map_cons, List.filter_cons]
  split <;> rfl

/-- An extraction that shows an entry leads to another turn. -/
theorem listLoop_of_entry
    {e : MountEntry} {s' : MountStream}
    (h : extraction s = (.entry e, s'))
    (fuel : Nat)
    (mountlist : List String) :
    listLoop toFind (fuel + 1) mountlist s =
      listLoop toFind fuel
        (mountlist ++ if isListed toFind e.directory then [e.directory] else []) s' := by
  unfold extraction at h
  rw [listLoop]
  cases hexec : extract.exec s with
  | mk result s'' =>
      rw [hexec] at h
      cases result with
      | error e => cases h
      | ok entry =>
          cases hgood : s''.isGood with
          | false => simp [hgood] at h
          | true =>
              simp only [hgood, if_true, Prod.mk.injEq, Extraction.entry.injEq] at h
              obtain ⟨rfl, rfl⟩ := h
              simp only [hgood, if_true]
              split <;> simp

theorem listLoop_of_ended
    (h : (extraction s).1 = .ended)
    (fuel : Nat)
    (mountlist : List String) :
    listLoop toFind (fuel + 1) mountlist s = some (.ok mountlist) := by
  unfold extraction at h
  rw [listLoop]
  cases hexec : extract.exec s with
  | mk result s'' =>
      rw [hexec] at h
      cases result with
      | error e => cases h
      | ok entry =>
          cases hgood : s''.isGood with
          | false => simp [hgood]
          | true => simp [hgood] at h

/-- **The loop collects the listed entries**, those in the queue first. -/
theorem listLoop_of_reading
    (toFind : String)
    {entries : List MountEntry}
    (h : Reading s (entries.map .entry))
    (mountlist : List String)
    (fuel : Nat)
    (hfuel : (s.data ++ entries).length < fuel) :
    listLoop toFind fuel mountlist s =
      some (.ok (mountlist ++ listedDirectories toFind (s.data ++ entries))) := by
  induction fuel generalizing s entries mountlist with
  | zero => omega
  | succ fuel ih =>
      cases entries with
      | nil =>
          cases hdata : s.data with
          | nil =>
              rw [listLoop_of_ended (extraction_of_empty h hdata).1]
              simp [listedDirectories]
          | cons first queue =>
              obtain ⟨s', hs', hreading, hqueue⟩ := extraction_of_queue h hdata
              have hless : (s'.data ++ []).length < fuel := by
                simp only [hdata, hqueue, List.length_append, List.length_cons] at hfuel ⊢
                omega
              have hnil : Reading s' (([] : List MountEntry).map .entry) := hreading
              rw [listLoop_of_entry hs', ih hnil _ hless, List.cons_append,
                listedDirectories_cons, hqueue, List.append_assoc]
      | cons e entries =>
          obtain ⟨first, queue, s', hdata, hs', hreading, hqueue⟩ := extraction_of_entry h
          have hall : s.data ++ e :: entries = first :: (queue ++ entries) := by
            rw [← List.singleton_append, ← List.append_assoc, hdata, List.cons_append]
          have hless : (s'.data ++ entries).length < fuel := by
            simp only [hall, hqueue, List.length_append, List.length_cons] at hfuel ⊢
            omega
          rw [listLoop_of_entry hs', ih hreading _ hless, hall, listedDirectories_cons, hqueue,
            List.append_assoc]

theorem listLoop_openFile
    (toFind file : String)
    (entries : List MountEntry)
    (fuel : Nat)
    (hfuel : entries.length < fuel) :
    listLoop toFind fuel [] ((openFile file (.ok (entries.map .entry))).exec {}).2 =
      some (.ok (listedDirectories toFind entries)) := by
  cases entries with
  | nil =>
      obtain ⟨hreading, hdata⟩ := openFile_nil {} file
      have hloop := listLoop_of_reading toFind hreading [] fuel (by rwa [hdata])
      rwa [hdata] at hloop
  | cons e entries =>
      obtain ⟨hreading, hdata⟩ := openFile_entry {} file e (entries.map .entry)
      have hloop := listLoop_of_reading toFind hreading [] fuel (by rwa [hdata])
      rwa [hdata] at hloop

end Loop

section Printing

theorem printReversed_eq (mountlist : List String) :
    printReversed mountlist = String.join (mountlist.reverse.map fun dir => dir ++ "\n") := by
  induction mountlist with
  | nil => rfl
  | cons dir mountlist ih =>
      have hcons : printReversed (dir :: mountlist) = printReversed mountlist ++ dir ++ "\n" := rfl
      rw [hcons, ih, List.reverse_cons, List.map_append]
      simp [String.join_append, String.append_assoc]

/-- **What is printed**: a line for each entry that is listed, the one that was mounted last
first. -/
theorem actionListmounts_eq
    (realpath : String → Except String String)
    (mountpoint m : String)
    (entries : List MountEntry)
    (fuel : Nat)
    (hm : realpath (normalname mountpoint) = .ok m)
    (hfuel : entries.length < fuel) :
    actionListmounts realpath (.ok (entries.map .entry)) fuel mountpoint =
      some (.ok (String.join
        ((entries.reverse.filter fun e => AtOrBelow m e.directory).map
          fun e => e.directory ++ "\n"))) := by
  have hlist : (listedDirectories m entries).reverse =
      (entries.reverse.filter fun e => AtOrBelow m e.directory).map MountEntry.directory := by
    rw [listedDirectories, ← List.filter_reverse, ← List.map_reverse, List.filter_map]
    refine congrArg _ (List.filter_congr fun e _ => ?_)
    exact isListed_eq m e.directory
  have hloop := listLoop_openFile m "/proc/mounts" entries fuel hfuel
  have hopen : ((MountStream.openFile "/proc/mounts" (.ok (entries.map .entry))).exec {}).1 =
      .ok () := by
    cases entries <;> rfl
  simp only [actionListmounts, hm]
  cases hexec : (MountStream.openFile "/proc/mounts" (.ok (entries.map .entry))).exec {} with
  | mk result mounts =>
      rw [hexec] at hopen hloop
      cases result with
      | error e => cases hopen
      | ok u =>
          simp only [hloop, printReversed_eq, hlist, List.map_map]
          rfl

/-- The mounts of a session; the directory of another one only starts like it. -/
theorem actionListmounts_session :
    actionListmounts (fun path => .ok path)
        (.ok (([ { directory := "/run/sid" }, { directory := "/run/sid2" },
          { directory := "/run/sid/proc" }, { directory := "/home" } ] : List MountEntry).map
          .entry)) 5 "/run//sid/" =
      some (.ok "/run/sid/proc\n/run/sid\n") := by
  have hrealpath : normalname "/run//sid/" = "/run/sid" := by decide +kernel
  rw [actionListmounts_eq (fun path => .ok path) "/run//sid/" "/run/sid" _ 5
    (congrArg Except.ok hrealpath) (by decide)]
  decide +kernel

end Printing

end Schroot
