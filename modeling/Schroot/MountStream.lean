import Schroot.Errors
import Schroot.Library.Effect

/-!
# Mount streams

`mntstream`: a mount file whose entries are read one ahead of the one that is extracted.

**Input.**  A mount file is what `getmntent` delivers: entries, and failures to read one.  An
operation that opens a file comes with what `setmntent` finds then.

**Results.**
* `extractions_of_readable`: the queue is delivered first, then the rest of the file.
* `exists_thrown`: a failure to read is met by an extraction.
* `data_openFile`, `data_run_close`, `data_run_extract`: what leaves nothing in the queue.
* `delivers_iff`: when a stream that was opened delivers what it was opened for.
-/

namespace Schroot

section Model

/-- `mntstream::mntentry`. -/
structure MountEntry where
  filesystemName : String := ""
  directory : String := ""
  type : String := ""
  options : String := ""
  dumpFrequency : Int := 0
  fsckPass : Int := 0
deriving DecidableEq, Repr

/-- Codes of `mntstream::error`. -/
inductive MountCode where
  | mntOpen
  | mntRead
deriving DecidableEq, Repr

abbrev MountError := ErrorInfo MountCode

/-- What one call of `getmntent` delivers; with nothing left it reports the end of the file. -/
inductive Delivery where
  | entry (e : MountEntry)
  | failure (reason : String)
deriving DecidableEq, Repr

/-- What is left of a mount file. -/
abbrev MountFile := List Delivery

/-- The state of a `mntstream`; before the constructor has opened a file there is none. -/
structure MountStream where
  file : String := ""
  mntfile : Option MountFile := none
  data : List MountEntry := []
  errorStatus : Bool := true
  eofStatus : Bool := true
deriving DecidableEq, Repr

namespace MountStream

/-- `operator bool`. -/
def isGood (s : MountStream) : Bool :=
  !(s.errorStatus || s.eofStatus)

/-- `mntstream::read`. -/
def read : Nat → Effect MountError MountStream Unit
  | 0 => pure ()
  | quantity + 1 => do
      let s ← get
      match s.mntfile with
      | none => pure ()
      | some [] => pure ()
      | some (.entry e :: rest) => do
          Effect.change fun s => { s with mntfile := some rest, data := s.data ++ [e] }
          read quantity
      | some (.failure reason :: rest) => do
          Effect.change fun s => { s with mntfile := some rest, errorStatus := true }
          throw { code := .mntRead, context := s.file, reason := reason }

/-- `mntstream::open`.  Nothing is done about the entries of a file that was open before. -/
def openFile (file : String) (found : Except String MountFile) :
    Effect MountError MountStream Unit :=
  match found with
  | .error reason => do
      Effect.change fun s =>
        { s with mntfile := none, file := "", errorStatus := true, eofStatus := true }
      throw { code := .mntOpen, context := file, reason := reason }
  | .ok table => do
      Effect.change fun s =>
        { s with mntfile := some table, file := file, errorStatus := false, eofStatus := false }
      read 1

/-- `mntstream::close`. -/
def close : Effect MountError MountStream Unit :=
  Effect.change fun s =>
    { s with mntfile := none, data := [], file := "", errorStatus := true, eofStatus := true }

/-- `operator >>`; the entry is blanked when there is none. -/
def extract : Effect MountError MountStream MountEntry := do
  read 1
  let s ← get
  match s.isGood, s.data with
  | true, e :: rest => do
      Effect.change fun s => { s with data := rest }
      pure e
  | _, _ => do
      Effect.change fun s => { s with eofStatus := true }
      pure {}

/-- An operation on a stream. -/
inductive Operation where
  | openFile (file : String) (found : Except String MountFile)
  | extract
  | close

def perform : Operation → Effect MountError MountStream Unit
  | .openFile file found => openFile file found
  | .extract => do
      let _ ← extract
      pure ()
  | .close => close

/-- The stream after some operations; who catches an exception goes on with the stream. -/
def run (ops : List Operation) (s : MountStream) : MountStream :=
  ops.foldl (fun s op => ((perform op).exec s).2) s

/-- What a caller sees of an extraction. -/
inductive Extraction where
  | entry (e : MountEntry)
  | ended
  | thrown (e : MountError)
deriving DecidableEq, Repr

/-- An extraction and the test of the stream behind it. -/
def extraction (s : MountStream) : Extraction × MountStream :=
  match extract.exec s with
  | (.ok e, s') => (if s'.isGood then .entry e else .ended, s')
  | (.error e, s') => (.thrown e, s')

/-- What a number of extractions show. -/
def extractions : Nat → MountStream → List Extraction
  | 0, _ => []
  | n + 1, s => (extraction s).1 :: extractions n (extraction s).2

/-- The entries in a mount file. -/
def entriesOf (table : MountFile) : List MountEntry :=
  table.filterMap fun d =>
    match d with
    | .entry e => some e
    | .failure _ => none

/-- Each entry once and in order, and then the end. -/
def eachThenEnd (entries : List MountEntry) (n : Nat) : List Extraction :=
  (entries.map Extraction.entry ++ List.replicate n Extraction.ended).take n

/-- However many extractions there are, they show the entries and then the end. -/
def Delivers (s : MountStream) (entries : List MountEntry) : Prop :=
  ∀ n, extractions n s = eachThenEnd entries n

end MountStream

end Model

namespace MountStream

section Steps

variable {s : MountStream} {e : MountEntry} {rest : MountFile} {reason : String}

/-- Open and in a good state, with the file that is left. -/
structure Reading (s : MountStream) (left : MountFile) : Prop where
  good : s.isGood = true
  mntfile : s.mntfile = some left

/-- An extraction that reads one more entry. -/
theorem extraction_of_entry
    (h : Reading s (.entry e :: rest)) :
    ∃ first queue s', s.data ++ [e] = first :: queue ∧ extraction s = (.entry first, s') ∧
      Reading s' rest ∧ s'.data = queue := by
  obtain ⟨file, mntfile, data, errorStatus, eofStatus⟩ := s
  obtain ⟨hgood, hfile⟩ := h
  simp only [isGood, Bool.not_eq_true', Bool.or_eq_false_iff] at hgood
  obtain ⟨rfl, rfl⟩ := hgood
  cases hfile
  cases data with
  | nil => exact ⟨e, [], _, rfl, rfl, ⟨rfl, rfl⟩, rfl⟩
  | cons first queue => exact ⟨first, queue ++ [e], _, rfl, rfl, ⟨rfl, rfl⟩, rfl⟩

/-- An extraction at the end of the file takes what was read ahead. -/
theorem extraction_of_queue
    {first : MountEntry} {queue : List MountEntry}
    (h : Reading s [])
    (hdata : s.data = first :: queue) :
    ∃ s', extraction s = (.entry first, s') ∧ Reading s' [] ∧ s'.data = queue := by
  obtain ⟨file, mntfile, data, errorStatus, eofStatus⟩ := s
  obtain ⟨hgood, hfile⟩ := h
  simp only [isGood, Bool.not_eq_true', Bool.or_eq_false_iff] at hgood
  obtain ⟨rfl, rfl⟩ := hgood
  cases hfile
  cases hdata
  exact ⟨_, rfl, ⟨rfl, rfl⟩, rfl⟩

/-- The stream has come to the end of the file, and an extraction has shown it. -/
structure Ended (s : MountStream) : Prop where
  eof : s.eofStatus = true
  mntfile : s.mntfile = some []

theorem extraction_of_empty
    (h : Reading s [])
    (hdata : s.data = []) :
    (extraction s).1 = .ended ∧ Ended (extraction s).2 := by
  obtain ⟨file, mntfile, data, errorStatus, eofStatus⟩ := s
  obtain ⟨hgood, hfile⟩ := h
  simp only [isGood, Bool.not_eq_true', Bool.or_eq_false_iff] at hgood
  obtain ⟨rfl, rfl⟩ := hgood
  cases hfile
  cases hdata
  exact ⟨rfl, rfl, rfl⟩

theorem extraction_of_ended
    (h : Ended s) :
    (extraction s).1 = .ended ∧ Ended (extraction s).2 := by
  obtain ⟨file, mntfile, data, errorStatus, eofStatus⟩ := s
  obtain ⟨heof, hfile⟩ := h
  cases heof
  cases hfile
  cases errorStatus <;> exact ⟨rfl, rfl, rfl⟩

theorem extraction_of_failure
    (h : Reading s (.failure reason :: rest)) :
    ∃ e, (extraction s).1 = .thrown e := by
  obtain ⟨file, mntfile, data, errorStatus, eofStatus⟩ := s
  obtain ⟨hgood, hfile⟩ := h
  cases hfile
  exact ⟨_, rfl⟩

end Steps

section Runs

variable {s : MountStream}

theorem extractions_of_ended
    (h : Ended s)
    (n : Nat) :
    extractions n s = List.replicate n .ended := by
  induction n generalizing s with
  | zero => rfl
  | succ n ih =>
      obtain ⟨hended, hstate⟩ := extraction_of_ended h
      rw [extractions, hended, ih hstate]
      rfl

theorem eachThenEnd_nil (n : Nat) : eachThenEnd [] n = List.replicate n .ended := by
  simp [eachThenEnd]

theorem eachThenEnd_cons (e : MountEntry) (entries : List MountEntry) (n : Nat) :
    eachThenEnd (e :: entries) (n + 1) = .entry e :: eachThenEnd entries n := by
  simp only [eachThenEnd, List.map_cons, List.cons_append, List.take_succ_cons]
  rw [List.replicate_succ', ← List.append_assoc, List.take_append_of_le_length (by simp)]

/-- **The queue is delivered first**, then the rest of the file. -/
theorem extractions_of_readable
    {entries : List MountEntry}
    (h : Reading s (entries.map .entry))
    (n : Nat) :
    extractions n s = eachThenEnd (s.data ++ entries) n := by
  induction n generalizing s entries with
  | zero => rfl
  | succ n ih =>
      cases entries with
      | nil =>
          cases hdata : s.data with
          | nil =>
              obtain ⟨hended, hstate⟩ := extraction_of_empty h hdata
              rw [extractions, hended, extractions_of_ended hstate, List.append_nil,
                eachThenEnd_nil]
              rfl
          | cons first queue =>
              obtain ⟨s', hs', hreading, hqueue⟩ := extraction_of_queue h hdata
              have hnil : Reading s' (([] : List MountEntry).map .entry) := hreading
              rw [extractions, hs', List.cons_append, eachThenEnd_cons, ← hqueue]
              exact congrArg _ (ih hnil)
      | cons e entries =>
          obtain ⟨first, queue, s', hdata, hs', hreading, hqueue⟩ := extraction_of_entry h
          have hall : s.data ++ e :: entries = first :: (queue ++ entries) := by
            rw [← List.singleton_append, ← List.append_assoc, hdata, List.cons_append]
          rw [extractions, hs', hall, eachThenEnd_cons, ← hqueue]
          exact congrArg _ (ih hreading)

/-- **A failure to read is met by an extraction.** -/
theorem exists_thrown
    {entries : List MountEntry} {reason : String} {rest : MountFile}
    (h : Reading s (entries.map .entry ++ .failure reason :: rest)) :
    ∃ e, .thrown e ∈ extractions (entries.length + 1) s := by
  induction entries generalizing s with
  | nil =>
      obtain ⟨e, he⟩ := extraction_of_failure h
      exact ⟨e, by simp [extractions, he]⟩
  | cons entry entries ih =>
      obtain ⟨first, queue, s', -, hs', hreading, -⟩ := extraction_of_entry h
      obtain ⟨e, he⟩ := ih hreading
      refine ⟨e, ?_⟩
      rw [List.length_cons, extractions, hs']
      exact List.mem_cons_of_mem _ he

end Runs

section Queue

variable {s : MountStream} {file : String}

/-- Opening a file puts nothing in the queue, unless its first entry can be read. -/
theorem data_openFile
    {found : Except String MountFile}
    (h : ∀ e rest, found ≠ .ok (.entry e :: rest)) :
    ((openFile file found).exec s).2.data = s.data := by
  cases found with
  | error reason => rfl
  | ok table =>
      cases table with
      | nil => rfl
      | cons d rest =>
          cases d with
          | failure reason => rfl
          | entry e => exact absurd rfl (h e rest)

/-- **Nothing is left in a stream that was closed.** -/
theorem data_run_close (ops : List Operation) (s : MountStream) :
    (run (ops ++ [.close]) s).data = [] := by
  rw [run, List.foldl_append]
  rfl

/-- The state after an extraction is that of the operation. -/
theorem exec_extract (s : MountStream) :
    ((perform .extract).exec s).2 = (extraction s).2 := by
  rw [perform, Effect.exec_bind, extraction]
  cases extract.exec s with
  | mk r s' => cases r <;> rfl

/-- **Nothing is left in a stream that was extracted to its end**, by induction on the number of
extractions. -/
theorem data_run_extract
    {entries : List MountEntry}
    (h : Reading s (entries.map .entry)) :
    (run (List.replicate (s.data.length + entries.length) .extract) s).data = [] := by
  generalize hn : s.data.length + entries.length = n
  induction n generalizing s entries with
  | zero => exact List.length_eq_zero_iff.mp (by omega : s.data.length = 0)
  | succ n ih =>
      have hstep : run (List.replicate (n + 1) .extract) s =
          run (List.replicate n .extract) (extraction s).2 := by
        rw [List.replicate_succ, run, List.foldl_cons, exec_extract]
        rfl
      rw [hstep]
      cases entries with
      | nil =>
          cases hdata : s.data with
          | nil => simp [hdata] at hn
          | cons first queue =>
              obtain ⟨s', hs', hreading, hqueue⟩ := extraction_of_queue h hdata
              have hnil : Reading s' (([] : List MountEntry).map .entry) := hreading
              rw [hs']
              refine ih hnil ?_
              rw [hdata, List.length_cons] at hn
              rw [hqueue]
              omega
      | cons e entries =>
          obtain ⟨first, queue, s', hdata, hs', hreading, hqueue⟩ := extraction_of_entry h
          have hlength := congrArg List.length hdata
          simp only [List.length_append, List.length_cons, List.length_nil] at hlength hn
          rw [hs']
          refine ih hreading ?_
          rw [hqueue]
          omega

end Queue

section Opening

variable {s : MountStream} {file : String} {table : MountFile}

/-- What a file is made of: entries, and perhaps a failure behind them. -/
theorem table_cases (table : MountFile) :
    (∃ entries : List MountEntry, table = entries.map .entry ∧ entriesOf table = entries) ∨
      ∃ (entries : List MountEntry) (reason : String) (rest : MountFile),
        table = entries.map .entry ++ .failure reason :: rest := by
  induction table with
  | nil => exact .inl ⟨[], rfl, rfl⟩
  | cons d table ih =>
      cases d with
      | failure reason => exact .inr ⟨[], reason, table, rfl⟩
      | entry e =>
          rcases ih with ⟨entries, rfl, hentries⟩ | ⟨entries, reason, rest, rfl⟩
          · exact .inl ⟨e :: entries, rfl, congrArg (e :: ·) hentries⟩
          · exact .inr ⟨e :: entries, reason, rest, rfl⟩

/-- Opening reads the first entry ahead, behind what is in the queue. -/
theorem openFile_entry
    (s : MountStream) (file : String) (e : MountEntry) (rest : MountFile) :
    Reading ((openFile file (.ok (.entry e :: rest))).exec s).2 rest ∧
      ((openFile file (.ok (.entry e :: rest))).exec s).2.data = s.data ++ [e] :=
  ⟨⟨rfl, rfl⟩, rfl⟩

theorem openFile_nil (s : MountStream) (file : String) :
    Reading ((openFile file (.ok [])).exec s).2 (([] : List MountEntry).map .entry) ∧
      ((openFile file (.ok [])).exec s).2.data = s.data :=
  ⟨⟨rfl, rfl⟩, rfl⟩

/-- What is seen of a stream that was opened on a file without failures. -/
theorem extractions_openFile
    (s : MountStream) (file : String) (entries : List MountEntry) (n : Nat) :
    extractions n ((openFile file (.ok (entries.map .entry))).exec s).2 =
      eachThenEnd (s.data ++ entries) n := by
  cases entries with
  | nil =>
      obtain ⟨hreading, hdata⟩ := openFile_nil s file
      have hshown := extractions_of_readable hreading n
      rwa [hdata] at hshown
  | cons e entries =>
      obtain ⟨hreading, hdata⟩ := openFile_entry s file e (entries.map .entry)
      have hshown := extractions_of_readable hreading n
      rwa [hdata, List.append_assoc] at hshown

/-- What is left in the queue is delivered by a stream that was opened again. -/
theorem delivers_openFile_iff
    (s : MountStream)
    (entries : List MountEntry) :
    Delivers ((openFile file (.ok (entries.map .entry))).exec s).2 entries ↔ s.data = [] := by
  constructor
  · intro h
    by_contra hdata
    -- an extraction past the entries shows one more entry, and not the end
    have hshown := h (s.data ++ entries).length
    rw [extractions_openFile] at hshown
    have hended : Extraction.ended ∈ eachThenEnd entries (s.data ++ entries).length := by
      have hlength : 0 < s.data.length := List.length_pos_iff.mpr hdata
      rw [eachThenEnd, List.take_append, List.mem_append]
      refine .inr ?_
      rw [List.take_replicate, List.mem_replicate]
      refine ⟨?_, rfl⟩
      simp only [List.length_append, List.length_map]
      omega
    rw [← hshown, eachThenEnd, List.take_left' (by simp)] at hended
    simp at hended
  · intro hdata n
    rw [extractions_openFile, hdata, List.nil_append]

/-- **When a stream delivers what it was opened for**, after any operations: there is nothing
left in the queue, and the file can be read to its end. -/
theorem delivers_iff
    (ops : List Operation)
    (file : String)
    (table : MountFile)
    (hopen : ((openFile file (.ok table)).exec (run ops {})).1 = .ok ()) :
    Delivers ((openFile file (.ok table)).exec (run ops {})).2 (entriesOf table) ↔
      (run ops {}).data = [] ∧ ∀ reason, .failure reason ∉ table := by
  rcases table_cases table with ⟨entries, rfl, hentries⟩ | ⟨entries, reason, rest, rfl⟩
  · rw [hentries, delivers_openFile_iff]
    simp
  · refine iff_of_false ?_ ?_
    · intro h
      cases entries with
      | nil => cases hopen
      | cons e entries =>
          obtain ⟨hreading, -⟩ := openFile_entry (run ops {}) file e
            (entries.map .entry ++ .failure reason :: rest)
          obtain ⟨thrown, hthrown⟩ := exists_thrown hreading
          have hshown := h (entries.length + 1)
          rw [List.map_cons, List.cons_append] at hshown
          rw [hshown, eachThenEnd] at hthrown
          have hmem := List.mem_of_mem_take hthrown
          simp at hmem
    · rintro ⟨-, hfree⟩
      exact hfree reason (by simp)

/-- One mount, opened by the constructor. -/
theorem delivers_proc :
    Delivers ((openFile "/proc/mounts" (.ok [.entry { directory := "/proc" }])).exec (run [] {})).2
      [{ directory := "/proc" }] :=
  (delivers_iff [] "/proc/mounts" [.entry { directory := "/proc" }] rfl).mpr ⟨rfl, by simp⟩

/-- The first entry of `/etc/mtab` is delivered by a stream that was opened on `/proc/mounts`
since. -/
theorem not_delivers_reopened :
    ((openFile "/proc/mounts" (.ok [.entry { directory := "/proc" }])).exec
        (run [.openFile "/etc/mtab" (.ok [.entry { directory := "/home" }])] {})).1 = .ok () ∧
      ¬ Delivers ((openFile "/proc/mounts" (.ok [.entry { directory := "/proc" }])).exec
        (run [.openFile "/etc/mtab" (.ok [.entry { directory := "/home" }])] {})).2
        (entriesOf [.entry { directory := "/proc" }]) := by
  refine ⟨rfl, fun h => ?_⟩
  have hfirst := h 1
  exact absurd hfirst (by decide)

end Opening

end MountStream

end Schroot
