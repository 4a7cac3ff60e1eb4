import Schroot.RunParts

/-!
# The pipes of a script

What `poll` and `read` see of the two pipes of a script, and how the loop of
`run_parts::run_child` knows that both are at their end.

**Input.**  The order in which data, the hangup of a pipe, the end of its file and the
interruption of a read come.

**Results.**
* `readLoop_eq_none_iff`: the loop goes on for as long as its turns read something.
* `readEvents_ok`, `readEvents_error`: how it ends.
* `reads_iff`: when both pipes are at their end there, and all that was written is logged.
-/

namespace Schroot

namespace RunParts

section Model

/-- What a pipe has at a return of `poll`.  A hangup may be reported without any data to read,
or else as data of which a read returns no bytes. -/
inductive PipeEvent where
  | silent
  | data (bytes : List UInt8)
  | hangup
  | endOfFile
  | interrupted
  | failed (reason : String)
deriving DecidableEq, Repr

inductive PollEvent where
  | failed (reason : String)
  | ready (stderr stdout : PipeEvent)
deriving DecidableEq, Repr

/-- A pipe is read if `POLLIN` is set. -/
def PipeEvent.read : PipeEvent → PipeRead
  | silent => .notReady
  | data bytes => .data bytes
  | hangup => .notReady
  | endOfFile => .data []
  | interrupted => .interrupted
  | failed reason => .failed reason

def PollEvent.toPoll : PollEvent → Poll
  | failed reason => .failed reason
  | ready stderr stdout => .ready stderr.read stdout.read

/-- The loop over what the pipes have. -/
def readEvents (file : String) (events : List PollEvent) :
    Option (Except Fault (List LogLine)) :=
  readLoop file {} (events.map PollEvent.toPoll)

end Model

section Pipes

def PollEvent.pipe (s : Stream) : PollEvent → PipeEvent
  | failed _ => .silent
  | ready stderr stdout => match s with
      | .stdout => stdout
      | .stderr => stderr

/-- Nothing is written to the pipe any more, and all of it was read. -/
def PipeEvent.atEnd : PipeEvent → Bool
  | hangup => true
  | endOfFile => true
  | _ => false

def PipeEvent.bytes : PipeEvent → List UInt8
  | data bytes => bytes
  | _ => []

/-- The pipe was not read, or its read returned. -/
def PipeEvent.returned : PipeEvent → Bool
  | interrupted => false
  | failed _ => false
  | _ => true

/-- `poll` and both reads returned. -/
def PollEvent.returned : PollEvent → Bool
  | failed _ => false
  | ready stderr stdout => stderr.returned && stdout.returned

/-- Both reads returned, and there was something to read. -/
def PollEvent.active (e : PollEvent) : Bool :=
  e.returned && !e.toPoll.closed

/-- What is read from a pipe. -/
def readFrom (s : Stream) (events : List PollEvent) : List UInt8 :=
  (events.map fun e => (e.pipe s).bytes).flatten

/-- **What two pipes can have**, when `written` is all that is written to them: `poll` waits
for something, a read at the end of the file is the only one that returns no bytes, the bytes
come in order, and a pipe is at its end when all of them were read, and stays there. -/
structure Possible (written : Stream → List UInt8) (events : List PollEvent) : Prop where
  awake : PollEvent.ready .silent .silent ∉ events
  data_ne : ∀ e ∈ events, ∀ s, e.pipe s ≠ .data []
  ordered : ∀ s, readFrom s events <+: written s
  ended : ∀ before e after, events = before ++ e :: after → ∀ s, (e.pipe s).atEnd = true →
    readFrom s before = written s
  stays : ∀ before e after, events = before ++ e :: after → ∀ s, (e.pipe s).atEnd = true →
    ∀ stderr stdout, PollEvent.ready stderr stdout ∈ after →
      ((PollEvent.ready stderr stdout).pipe s).atEnd = true

/-- **What the loop is to do** with what is written: if it ends, then both pipes have come to
their end, no buffer was given a negative count of bytes, and what was written is logged. -/
def Reads (file : String) (written : Stream → List UInt8) (events : List PollEvent) : Prop :=
  ∀ before e after, events = before ++ e :: after → readEvents file before = none →
    ∀ result, readEvents file (before ++ [e]) = some result →
      (∀ s, ∃ e' ∈ before ++ [e], (e'.pipe s).atEnd = true) ∧ result ≠ .error .length ∧
        ∃ log, result = .ok log ∧ ∀ s, linesOf s log = LineText.records newline (written s)

/-- The first turn at which no data comes, or a read does not return, finds both pipes at their
end; and what was read before is whole lines, or has no line break. -/
def Clean (events : List PollEvent) : Prop :=
  ∀ before e after, events = before ++ e :: after → (∀ e' ∈ before, e'.active = true) →
    e.active = false → ∀ s, (e.pipe s).atEnd = true ∧
      ∀ e' ∈ before, EndsLine (e'.pipe s).bytes

end Pipes

section Loop

variable {file : String} {e : PollEvent} {before : List PollEvent}

theorem PipeEvent.bytes_read (e : PipeEvent) : e.read.bytes = e.bytes := by
  cases e <;> rfl

theorem bytes_toPoll (s : Stream) (e : PollEvent) :
    e.toPoll.bytes s = (e.pipe s).bytes := by
  cases e with
  | failed reason => rfl
  | ready stderr stdout => cases s <;> exact PipeEvent.bytes_read _

/-- A read that returns adds to its buffer. -/
theorem PipeEvent.into_read
    (buf : List UInt8)
    {e : PipeEvent}
    (h : e.returned = true) :
    e.read.into buf = .ok (buf ++ e.bytes) := by
  cases e <;> simp [PipeEvent.returned, PipeEvent.read, PipeRead.into, PipeEvent.bytes] at h ⊢

/-- A read that does not return ends the loop. -/
theorem PipeEvent.into_read_error
    (buf : List UInt8)
    {e : PipeEvent}
    (h : e.returned = false) :
    ∃ fault, e.read.into buf = .error fault := by
  cases e <;> simp [PipeEvent.returned, PipeEvent.read, PipeRead.into] at h ⊢

theorem PollEvent.turn_returned
    (file : String)
    (st : LoopState)
    (h : e.returned = true) :
    ∃ st', turn file st e.toPoll = .ok st' := by
  cases e with
  | failed reason => cases h
  | ready stderr stdout =>
      simp only [PollEvent.returned, Bool.and_eq_true] at h
      simp only [PollEvent.toPoll, turn, PipeEvent.into_read _ h.1, PipeEvent.into_read _ h.2,
        bind, Except.bind, pure, Except.pure]
      exact ⟨_, rfl⟩

theorem PollEvent.turn_not_returned
    (file : String)
    (st : LoopState)
    (h : e.returned = false) :
    ∃ fault, turn file st e.toPoll = .error fault := by
  cases e with
  | failed reason => exact ⟨_, rfl⟩
  | ready stderr stdout =>
      simp only [PollEvent.toPoll, turn]
      cases herr : stderr.returned with
      | false =>
          obtain ⟨fault, hfault⟩ := PipeEvent.into_read_error st.stderrBuf herr
          simp [hfault, bind, Except.bind]
      | true =>
          have hout : stdout.returned = false := by simpa [PollEvent.returned, herr] using h
          obtain ⟨fault, hfault⟩ := PipeEvent.into_read_error st.stdoutBuf hout
          simp [PipeEvent.into_read _ herr, hfault, bind, Except.bind]

/-- **The loop goes on** after turns that read something, by induction on the turns. -/
theorem readLoop_active
    (file : String)
    (st : LoopState)
    (h : ∀ e ∈ before, e.active = true)
    (polls : List Poll) :
    ∃ st', readLoop file st (before.map PollEvent.toPoll ++ polls) = readLoop file st' polls := by
  induction before generalizing st with
  | nil => exact ⟨st, rfl⟩
  | cons e before ih =>
      have hactive := h e List.mem_cons_self
      simp only [PollEvent.active, Bool.and_eq_true, Bool.not_eq_true'] at hactive
      obtain ⟨st', hturn⟩ := PollEvent.turn_returned file st hactive.1
      obtain ⟨st'', hrest⟩ := ih st' fun e' he' => h e' (List.mem_cons_of_mem _ he')
      refine ⟨st'', ?_⟩
      rw [List.map_cons, List.cons_append, readLoop]
      simpa [hturn, hactive.2] using hrest

/-- A turn whose reads do not return ends the loop with an error. -/
theorem readEvents_error
    (file : String)
    (hbefore : ∀ e ∈ before, e.active = true)
    (h : e.returned = false) :
    ∃ fault, readEvents file (before ++ [e]) = some (.error fault) := by
  obtain ⟨st, hst⟩ := readLoop_active file {} hbefore [e.toPoll]
  obtain ⟨fault, hturn⟩ := PollEvent.turn_not_returned file st h
  refine ⟨fault, ?_⟩
  rw [readEvents, List.map_append, List.map_singleton, hst]
  simp [readLoop, hturn]

/-- A turn that reads nothing ends the loop. -/
theorem readEvents_ok
    (file : String)
    (hbefore : ∀ e ∈ before, e.active = true)
    (h : e.returned = true)
    (hclosed : e.toPoll.closed = true) :
    ∃ log, readEvents file (before ++ [e]) = some (.ok log) := by
  obtain ⟨st, hst⟩ := readLoop_active file {} hbefore [e.toPoll]
  obtain ⟨st', hturn⟩ := PollEvent.turn_returned file st h
  refine ⟨flushBuffers file st', ?_⟩
  rw [readEvents, List.map_append, List.map_singleton, hst]
  simp [readLoop, hturn, hclosed]

/-- **The loop is still waiting** if and only if each of its turns read something. -/
theorem readLoop_eq_none_iff
    (file : String)
    (st : LoopState)
    (events : List PollEvent) :
    readLoop file st (events.map PollEvent.toPoll) = none ↔ ∀ e ∈ events, e.active = true := by
  induction events generalizing st with
  | nil => simp [readLoop]
  | cons e events ih =>
      rw [List.map_cons, readLoop, List.forall_mem_cons, PollEvent.active]
      cases hreturned : e.returned with
      | false =>
          obtain ⟨fault, hturn⟩ := PollEvent.turn_not_returned file st hreturned
          simp [hturn]
      | true =>
          obtain ⟨st', hturn⟩ := PollEvent.turn_returned file st hreturned
          cases hclosed : e.toPoll.closed with
          | false => simp [hturn, ih]
          | true => simp [hturn]

theorem chunks_end
    (s : Stream)
    (hbefore : ∀ e ∈ before, e.active = true)
    (hclosed : e.toPoll.closed = true) :
    chunks s ((before ++ [e]).map PollEvent.toPoll) =
      before.map fun e => (e.pipe s).bytes := by
  have hopen : ∀ p ∈ before.map PollEvent.toPoll, (!p.closed) = true := by
    intro p hp
    obtain ⟨e', he', rfl⟩ := List.mem_map.mp hp
    have hactive := hbefore e' he'
    rw [PollEvent.active, Bool.and_eq_true] at hactive
    exact hactive.2
  rw [chunks, List.map_append, List.takeWhile_append_of_pos hopen, List.map_singleton,
    List.takeWhile_cons_of_neg (by simp [hclosed]), List.append_nil, List.map_map]
  exact List.map_congr_left fun e' _ => bytes_toPoll s e'

/-- **What is logged when the loop ends** is what was read, if and only if every chunk is whole
lines or has no line break. -/
theorem readEvents_lines_iff
    (hbefore : ∀ e ∈ before, e.active = true)
    (hclosed : e.toPoll.closed = true)
    {log : List LogLine}
    (h : readEvents file (before ++ [e]) = some (.ok log))
    (s : Stream) :
    linesOf s log = LineText.records newline (readFrom s before) ↔
      ∀ e' ∈ before, EndsLine (e'.pipe s).bytes := by
  have hlines := (readLoop_log {} (fun s => by cases s <;> simp [LoopState.buf]) h).1 s
  have hnew : (linesOf s ({} : LoopState).log, ({} : LoopState).buf s) = ([], []) := by
    cases s <;> rfl
  rw [hlines, hnew, chunks_end s hbefore hclosed, readFrom, lines_foldl_takeIn_iff,
    List.forall_mem_map]

end Loop

section Ends

variable {file : String} {written : Stream → List UInt8} {events before after : List PollEvent}
variable {e : PollEvent}

/-- A pipe that has come to its end is there when the loop ends. -/
theorem atEnd_of_exists
    (h : Possible written (before ++ e :: after))
    {s : Stream}
    (hready : ∃ stderr stdout, e = .ready stderr stdout)
    (hend : ∃ e' ∈ before ++ [e], (e'.pipe s).atEnd = true) :
    (e.pipe s).atEnd = true := by
  obtain ⟨e', he', hend⟩ := hend
  obtain ⟨stderr, stdout, rfl⟩ := hready
  rcases List.mem_append.mp he' with he' | he'
  · obtain ⟨first, second, rfl⟩ := List.append_of_mem he'
    exact h.stays first e' (second ++ .ready stderr stdout :: after) (by simp) s hend stderr stdout
      (by simp)
  · rwa [← List.mem_singleton.mp he']

theorem PipeEvent.of_atEnd
    {e : PipeEvent}
    (h : e.atEnd = true) :
    e.returned = true ∧ e.bytes = [] := by
  cases e <;> simp [PipeEvent.atEnd, PipeEvent.returned, PipeEvent.bytes] at h ⊢

/-- At the end of both pipes the reads return, and nothing is read. -/
theorem returned_of_atEnd
    (h : ∀ s, (e.pipe s).atEnd = true) :
    e.returned = true ∧ e.toPoll.closed = true := by
  cases e with
  | failed reason => cases h .stdout
  | ready stderr stdout =>
      obtain ⟨herr, herrBytes⟩ := PipeEvent.of_atEnd (h .stderr)
      obtain ⟨hout, houtBytes⟩ := PipeEvent.of_atEnd (h .stdout)
      simp only [PollEvent.pipe] at herr herrBytes hout houtBytes
      simp [PollEvent.returned, PollEvent.toPoll, Poll.closed, PipeEvent.bytes_read, herr, hout,
        herrBytes, houtBytes]

/-- Where the loop does what it is to do, the turn at which it ends finds both pipes at their
end. -/
theorem clean_of_reads
    (h : Possible written events)
    (hreads : Reads file written events) :
    Clean events := by
  intro before e after hevents hbefore hactive
  subst hevents
  have hwaiting := (readLoop_eq_none_iff file {} before).mpr hbefore
  cases hreturned : e.returned with
  | false =>
      obtain ⟨fault, hfault⟩ := readEvents_error file hbefore hreturned
      obtain ⟨-, -, log, hlog, -⟩ := hreads before e after rfl hwaiting _ hfault
      cases hlog
  | true =>
      have hclosed : e.toPoll.closed = true := by
        simpa [PollEvent.active, hreturned] using hactive
      obtain ⟨log, hlog⟩ := readEvents_ok file hbefore hreturned hclosed
      obtain ⟨hends, -, log', hlog', hlines⟩ := hreads before e after rfl hwaiting _ hlog
      cases hlog'
      have hready : ∃ stderr stdout, e = .ready stderr stdout := by
        cases e with
        | failed reason => cases hclosed
        | ready stderr stdout => exact ⟨stderr, stdout, rfl⟩
      intro s
      have hend := atEnd_of_exists h hready (hends s)
      refine ⟨hend, ?_⟩
      rw [← readEvents_lines_iff hbefore hclosed hlog s, hlines s,
        h.ended before e after rfl s hend]

/-- Where the first turn that is not active finds both pipes at their end, the loop ends there
and all was read. -/
theorem reads_of_clean
    (h : Possible written events)
    (hclean : Clean events) :
    Reads file written events := by
  intro before e after hevents hwaiting result hresult
  subst hevents
  have hbefore := (readLoop_eq_none_iff file {} before).mp hwaiting
  have hactive : e.active = false := by
    by_contra hactive
    have hall : ∀ e' ∈ before ++ [e], e'.active = true := by
      rw [List.forall_mem_append]
      exact ⟨hbefore, by simpa using hactive⟩
    have hnone := (readLoop_eq_none_iff file {} (before ++ [e])).mpr hall
    rw [readEvents, hnone] at hresult
    cases hresult
  have hends := hclean before e after rfl hbefore hactive
  obtain ⟨hreturned, hclosed⟩ := returned_of_atEnd fun s => (hends s).1
  obtain ⟨log, hlog⟩ := readEvents_ok file hbefore hreturned hclosed
  rw [hlog] at hresult
  cases hresult
  refine ⟨fun s => ⟨e, by simp, (hends s).1⟩, by simp, log, rfl, fun s => ?_⟩
  rw [(readEvents_lines_iff hbefore hclosed hlog s).mpr (hends s).2,
    h.ended before e after rfl s (hends s).1]

/-- **When the loop ends with both pipes at their end, and all that was written is logged.** -/
theorem reads_iff
    (file : String)
    (h : Possible written events) :
    Reads file written events ↔ Clean events :=
  ⟨clean_of_reads h, reads_of_clean h⟩

end Ends

section Runs

/-- The bytes of one line that is written to the standard output. -/
def lineWritten : Stream → List UInt8
  | .stdout => [97, 10]
  | .stderr => []

theorem split_pair
    {e₁ e₂ e : PollEvent} {before after : List PollEvent}
    (h : [e₁, e₂] = before ++ e :: after) :
    (before = [] ∧ e = e₁ ∧ after = [e₂]) ∨ (before = [e₁] ∧ e = e₂ ∧ after = []) := by
  rcases before with _ | ⟨e₁', _ | ⟨e₂', before⟩⟩
  · cases h
    exact .inl ⟨rfl, rfl, rfl⟩
  · cases h
    exact .inr ⟨rfl, rfl, rfl⟩
  · simp at h

/-- The script writes its line, and then closes both pipes. -/
theorem reads_iff_line :
    Possible lineWritten [.ready .silent (.data [97, 10]), .ready .hangup .hangup] ∧
      (Reads "x" lineWritten [.ready .silent (.data [97, 10]), .ready .hangup .hangup] ↔
        Clean [.ready .silent (.data [97, 10]), .ready .hangup .hangup]) := by
  have h : Possible lineWritten
      [.ready .silent (.data [97, 10]), .ready .hangup .hangup] := by
    refine ⟨by decide, ?_, ?_, ?_, ?_⟩
    · intro e he s
      rcases List.mem_pair.mp he with rfl | rfl <;> cases s <;> simp [PollEvent.pipe]
    · intro s
      cases s <;> decide
    · intro before e after hsplit s hend
      rcases split_pair hsplit with ⟨rfl, rfl, -⟩ | ⟨rfl, rfl, -⟩
      · cases s <;> cases hend
      · cases s <;> rfl
    · intro before e after hsplit s hend
      rcases split_pair hsplit with ⟨-, rfl, -⟩ | ⟨-, -, rfl⟩
      · cases s <;> cases hend
      · simp
  exact ⟨h, reads_iff "x" h⟩

/-- What the pipes can have first. -/
theorem possible_singleton
    {written : Stream → List UInt8}
    {stderr stdout : PipeEvent}
    (hawake : PollEvent.ready .silent .silent ∉ [PollEvent.ready stderr stdout])
    (hbytes : stderr.bytes = [] ∧ stdout.bytes = [])
    (hdata : stderr ≠ .data [] ∧ stdout ≠ .data [])
    (hend : ∀ s, ((PollEvent.ready stderr stdout).pipe s).atEnd = true → written s = []) :
    Possible written [.ready stderr stdout] := by
  refine ⟨hawake, ?_, ?_, ?_, ?_⟩
  · intro e he s
    rw [List.mem_singleton.mp he]
    cases s with
    | stdout => exact hdata.2
    | stderr => exact hdata.1
  · intro s
    cases s <;> simp [readFrom, PollEvent.pipe, hbytes]
  · intro before e after hsplit s he
    obtain ⟨rfl, htail⟩ | ⟨-, htail⟩ := List.singleton_eq_append_iff.mp hsplit
    · cases htail
      exact (hend s he).symm
    · cases htail
  · intro before e after hsplit s he
    obtain ⟨-, htail⟩ | ⟨-, htail⟩ := List.singleton_eq_append_iff.mp hsplit
    · cases htail
      simp
    · cases htail

/-- **A script that closes its standard error** before it writes its line is not read, and **a
read that is interrupted** gives a buffer a negative count of bytes. -/
theorem not_reads :
    Possible lineWritten [.ready .hangup .silent] ∧
      readEvents "x" [.ready .hangup .silent] = some (.ok []) ∧
      Possible lineWritten [.ready .silent .interrupted] ∧
      readEvents "x" [.ready .silent .interrupted] = some (.error .length) ∧
      ¬ ∀ file written events, Possible written events → Reads file written events := by
  have hclosed : Possible lineWritten [.ready .hangup .silent] := by
    refine possible_singleton (by decide) ⟨rfl, rfl⟩ (by decide) fun s => ?_
    cases s <;> simp [PollEvent.pipe, PipeEvent.atEnd, lineWritten]
  have hinterrupted : Possible lineWritten [.ready .silent .interrupted] := by
    refine possible_singleton (by decide) ⟨rfl, rfl⟩ (by decide) fun s => ?_
    cases s <;> simp [PollEvent.pipe, PipeEvent.atEnd]
  refine ⟨hclosed, rfl, hinterrupted, rfl, fun h => ?_⟩
  obtain ⟨hends, -⟩ := h "x" lineWritten _ hclosed [] (.ready .hangup .silent) [] rfl rfl _ rfl
  obtain ⟨e, he, hend⟩ := hends .stdout
  rw [List.mem_singleton.mp he] at hend
  cases hend

end Runs

end RunParts

end Schroot
