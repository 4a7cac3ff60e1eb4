import Schroot.Util

/-!
# Running scripts

The loop in which `run_parts` logs what a script writes to its standard output and its
standard error.

**Input.**  What each turn of the loop sees of the two pipes: nothing, the bytes that a read
returns, or a failure.

**Results.**
* `takeIn_cases`: what the buffer of a pipe and the logged lines become.
* `readLoop_log`: what is logged when the loop ends.
* `readLoop_lines_iff`: when this is the lines that were written.
-/

namespace Schroot

namespace RunParts

section Model

inductive Stream where
  | stdout
  | stderr
deriving DecidableEq, Repr

/-- A logged line; lines of the standard error are logged as errors. -/
structure LogLine where
  stream : Stream
  file : String
  line : List UInt8
deriving DecidableEq, Repr

/-- What the loop throws.  A read that was interrupted has the length -1, of which no string
can be made. -/
inductive Fault where
  | poll (reason : String)
  | read (reason : String)
  | length
deriving DecidableEq, Repr

/-- What a turn sees of a pipe.  At the end of the file a read returns no bytes. -/
inductive PipeRead where
  | notReady
  | data (bytes : List UInt8)
  | interrupted
  | failed (reason : String)
deriving DecidableEq, Repr

/-- What a turn waits for. -/
inductive Poll where
  | failed (reason : String)
  | ready (stderr stdout : PipeRead)
deriving DecidableEq, Repr

structure LoopState where
  stderrBuf : List UInt8 := []
  stdoutBuf : List UInt8 := []
  log : List LogLine := []
deriving DecidableEq, Repr

def newline : UInt8 := 10

/-- The bytes that a read delivers. -/
def PipeRead.bytes : PipeRead → List UInt8
  | data bytes => bytes
  | _ => []

/-- A read appends to the buffer of its pipe. -/
def PipeRead.into (buf : List UInt8) : PipeRead → Except Fault (List UInt8)
  | notReady => .ok buf
  | data bytes => .ok (buf ++ bytes)
  | interrupted => .error .length
  | failed reason => .error (.read reason)

/-- The loop over the lines of a buffer: all but the last are logged, and the last one too if
the buffer is flushed; otherwise it becomes the buffer. -/
def logLoop (flush : Bool) : List (List UInt8) → List UInt8 → List (List UInt8) × List UInt8
  | [], buf => ([], buf)
  | line :: lines, buf =>
      if lines ≠ [] ∨ flush = true then
        let rest := logLoop flush lines buf
        (line :: rest.1, rest.2)
      else
        logLoop flush lines line

/-- What is logged of a buffer, and what stays in it. -/
def logLines (buf : List UInt8) : List (List UInt8) × List UInt8 :=
  if buf = [] then
    ([], buf)
  else
    let flush : Bool := buf.getLast? = some newline
    let logged := logLoop flush (splitStringStrict buf [newline]) buf
    (logged.1, if flush then [] else logged.2)

/-- One turn of the loop; the standard error comes first. -/
def turn (file : String) (st : LoopState) : Poll → Except Fault LoopState
  | .failed reason => .error (.poll reason)
  | .ready stderr stdout => do
      let stderrBuf ← stderr.into st.stderrBuf
      let stdoutBuf ← stdout.into st.stdoutBuf
      let errLogged := logLines stderrBuf
      let outLogged := logLines stdoutBuf
      pure {
        stderrBuf := errLogged.2
        stdoutBuf := outLogged.2
        log := st.log ++ errLogged.1.map (LogLine.mk .stderr file) ++
          outLogged.1.map (LogLine.mk .stdout file) }

/-- No bytes came from either pipe, which is taken to mean that both are closed. -/
def Poll.closed : Poll → Bool
  | .failed _ => false
  | .ready stderr stdout => stderr.bytes = [] && stdout.bytes = []

/-- The lines that are left in the buffers. -/
def flushBuffers (file : String) (st : LoopState) : List LogLine :=
  st.log ++ (if st.stderrBuf = [] then [] else [⟨.stderr, file, st.stderrBuf⟩]) ++
    (if st.stdoutBuf = [] then [] else [⟨.stdout, file, st.stdoutBuf⟩])

/-- The loop of `run_parts::run_child`, which is still waiting when the polls are used up. -/
def readLoop (file : String) : LoopState → List Poll → Option (Except Fault (List LogLine))
  | _, [] => none
  | st, p :: polls =>
      match turn file st p with
      | .error e => some (.error e)
      | .ok st' => if p.closed then some (.ok (flushBuffers file st')) else readLoop file st' polls

end Model

section Buffers

variable {buf chunk : List UInt8} {rs : List (List UInt8)} {tail : List UInt8}

theorem logLoop_flush
    (lines : List (List UInt8)) (buf : List UInt8) :
    logLoop true lines buf = (lines, buf) := by
  induction lines with
  | nil => rfl
  | cons line lines ih => simp [logLoop, ih]

/-- Without a flush the last line becomes the buffer. -/
theorem logLoop_keep
    (lines : List (List UInt8)) (last buf : List UInt8) :
    logLoop false (lines ++ [last]) buf = (lines, last) := by
  induction lines with
  | nil => simp [logLoop]
  | cons line lines ih => simp [logLoop, ih]

/-- Lines that are all terminated are all logged. -/
theorem logLines_flush
    (hrs : ∀ r ∈ rs, newline ∉ r) :
    logLines (LineText.terminated newline rs) = (rs, []) := by
  cases hcases : rs with
  | nil => rfl
  | cons r rest =>
      rw [← hcases]
      have hne : rs ≠ [] := by simp [hcases]
      have hnil : newline ∉ ([] : List UInt8) := by simp
      have hsplit := splitStringStrict_terminated hrs hnil
      have hlast := (LineText.getLast?_terminated_append_iff hnil).mpr ⟨hne, rfl⟩
      rw [List.append_nil] at hsplit hlast
      have hbuf : LineText.terminated newline rs ≠ [] := fun h => by simp [h] at hlast
      rw [logLines, if_neg hbuf, hsplit]
      simp [hlast, logLoop_flush]

/-- A line that is not terminated stays in the buffer. -/
theorem logLines_keep
    (htail : newline ∉ tail) :
    logLines tail = ([], tail) := by
  unfold logLines
  by_cases hnil : tail = []
  · simp [hnil]
  · have hlast : tail.getLast? ≠ some newline := fun h => htail (List.mem_of_getLast? h)
    have hnone : ∀ r ∈ ([] : List (List UInt8)), newline ∉ r := by simp
    have hsplit := splitStringStrict_terminated hnone htail
    rw [LineText.terminated_nil, List.nil_append] at hsplit
    rw [if_neg hnil, hsplit]
    simp [logLoop, hlast]

/-- A line that is not terminated is lost when another one is in front of it, and that one
stays in the buffer. -/
theorem logLines_lose
    {last : List UInt8}
    (hrs : ∀ r ∈ rs ++ [last], newline ∉ r)
    (htail : newline ∉ tail)
    (hne : tail ≠ []) :
    logLines (LineText.terminated newline (rs ++ [last]) ++ tail) = (rs, last) := by
  have hlast : (LineText.terminated newline (rs ++ [last]) ++ tail).getLast? ≠ some newline := by
    rw [Ne, LineText.getLast?_terminated_append_iff htail]
    exact fun h => hne h.2
  rw [logLines, if_neg (by simp [hne]), splitStringStrict_terminated hrs htail]
  simp only [hlast, decide_false, logLoop_keep]
  simp

end Buffers

section Chunks

/-- The lines logged of a pipe and its buffer, after one more chunk. -/
def takeIn (state : List (List UInt8) × List UInt8) (chunk : List UInt8) :
    List (List UInt8) × List UInt8 :=
  (state.1 ++ (logLines (state.2 ++ chunk)).1, (logLines (state.2 ++ chunk)).2)

/-- The chunk has no line break, or it ends with one. -/
def EndsLine (chunk : List UInt8) : Prop :=
  newline ∈ chunk → chunk.getLast? = some newline

instance (chunk : List UInt8) : Decidable (EndsLine chunk) :=
  inferInstanceAs (Decidable (_ → _))

/-- The bytes of a text that belong to its lines. -/
def textBytes (bytes : List UInt8) : Nat :=
  (bytes.filter (· ≠ newline)).length

/-- The bytes in what was logged and in the buffer. -/
def keptBytes (state : List (List UInt8) × List UInt8) : Nat :=
  state.1.flatten.length + state.2.length

/-- What was logged and the buffer together are what was read. -/
structure Holds (seen : List UInt8) (state : List (List UInt8) × List UInt8) : Prop where
  seen_eq : seen = LineText.terminated newline state.1 ++ state.2
  lines : ∀ line ∈ state.1, newline ∉ line

variable {state : List (List UInt8) × List UInt8} {chunk seen : List UInt8}

theorem textBytes_append (xs ys : List UInt8) :
    textBytes (xs ++ ys) = textBytes xs + textBytes ys := by
  simp [textBytes]

theorem textBytes_of_not_mem
    {xs : List UInt8}
    (h : newline ∉ xs) :
    textBytes xs = xs.length := by
  unfold textBytes
  rw [List.filter_eq_self.mpr]
  intro c hc
  simpa using fun e : c = newline => h (e ▸ hc)

theorem textBytes_terminated
    {rs : List (List UInt8)}
    (h : ∀ r ∈ rs, newline ∉ r) :
    textBytes (LineText.terminated newline rs) = rs.flatten.length := by
  rw [textBytes, ← LineText.length_flatten_records, LineText.records_terminated h]

/-- **What a chunk does**: it adds to the unfinished line, or it ends a line, or bytes of it
are lost. -/
theorem takeIn_cases
    (state : List (List UInt8) × List UInt8)
    (hbuf : newline ∉ state.2)
    (chunk : List UInt8) :
    newline ∉ (takeIn state chunk).2 ∧
      ((EndsLine chunk ∧ keptBytes (takeIn state chunk) = keptBytes state + textBytes chunk ∧
          ∀ seen, Holds seen state → Holds (seen ++ chunk) (takeIn state chunk)) ∨
        (¬ EndsLine chunk ∧ keptBytes (takeIn state chunk) < keptBytes state + textBytes chunk)) := by
  obtain ⟨rs, tail, hsplit, hrs, htail⟩ :=
    LineText.exists_eq_terminated_append newline (state.2 ++ chunk)
  have hmem : newline ∈ chunk ↔ rs ≠ [] := by
    rw [← LineText.mem_terminated_append_iff htail, ← hsplit, List.mem_append]
    simp [hbuf]
  have hlast : chunk.getLast? = some newline ↔ rs ≠ [] ∧ tail = [] := by
    rw [← LineText.getLast?_terminated_append_iff htail, ← hsplit]
    cases hchunk : chunk.getLast? with
    | some c => simp [List.getLast?_append, hchunk]
    | none =>
        rw [List.getLast?_eq_none_iff.mp hchunk, List.append_nil]
        simpa using fun h => hbuf (List.mem_of_getLast? h)
  have hends : EndsLine chunk ↔ rs = [] ∨ tail = [] := by
    unfold EndsLine
    rw [hmem, hlast]
    by_cases hnil : rs = [] <;> simp [hnil]
  have hseen : ∀ seen, Holds seen state → seen ++ chunk =
      LineText.terminated newline (state.1 ++ rs) ++ tail := by
    intro seen h
    rw [h.seen_eq, List.append_assoc, hsplit, LineText.terminated_append, List.append_assoc]
  have hlines : ∀ seen, Holds seen state → ∀ line ∈ state.1 ++ rs, newline ∉ line := by
    intro seen h line hline
    rcases List.mem_append.mp hline with hline | hline
    · exact h.lines line hline
    · exact hrs line hline
  have hbytes := congrArg textBytes hsplit
  rw [textBytes_append, textBytes_append, textBytes_of_not_mem hbuf, textBytes_of_not_mem htail,
    textBytes_terminated hrs] at hbytes
  unfold takeIn keptBytes
  by_cases htailNil : tail = []
  · -- the chunk ends a line
    subst htailNil
    rw [List.append_nil] at hsplit
    have hlogged := logLines_flush hrs
    rw [hsplit, hlogged]
    refine ⟨by simp, .inl ⟨hends.mpr (.inr rfl), ?_, fun seen h => ⟨hseen seen h, hlines seen h⟩⟩⟩
    simp only [List.flatten_append, List.length_append]
    omega
  · rcases List.eq_nil_or_concat rs with rfl | ⟨lines, last, rfl⟩
    · -- the chunk has no line break
      rw [LineText.terminated_nil, List.nil_append] at hsplit
      have hlogged := logLines_keep htail
      rw [hsplit, hlogged]
      refine ⟨htail, .inl ⟨hends.mpr (.inl rfl), ?_, fun seen h => ⟨hseen seen h, hlines seen h⟩⟩⟩
      simp only [List.flatten_append, List.length_append, List.flatten_nil, List.length_nil] at hbytes ⊢
      omega
    · -- what stands after the last line break is lost
      have hpos := List.length_pos_iff.mpr htailNil
      rw [List.concat_eq_append] at hsplit hrs hends hbytes
      have hlogged := logLines_lose hrs htail htailNil
      rw [hsplit, hlogged]
      refine ⟨hrs last (by simp), .inr ⟨by simp [hends, htailNil], ?_⟩⟩
      simp only [List.flatten_append, List.length_append, List.flatten_cons, List.flatten_nil,
        List.append_nil] at hbytes ⊢
      omega

theorem not_mem_foldl_takeIn
    (hbuf : newline ∉ state.2)
    (chunks : List (List UInt8)) :
    newline ∉ (chunks.foldl takeIn state).2 := by
  induction chunks generalizing state with
  | nil => exact hbuf
  | cons chunk chunks ih => exact ih (takeIn_cases state hbuf chunk).1

/-- **What chunks that each end a line do**, by induction on the chunks. -/
theorem holds_foldl_takeIn
    {chunks : List (List UInt8)}
    (hbuf : newline ∉ state.2)
    (h : Holds seen state)
    (hends : ∀ chunk ∈ chunks, EndsLine chunk) :
    Holds (seen ++ chunks.flatten) (chunks.foldl takeIn state) := by
  induction chunks generalizing state seen with
  | nil => simpa using h
  | cons chunk chunks ih =>
      obtain ⟨hbuf', hcases⟩ := takeIn_cases state hbuf chunk
      have hstep : Holds (seen ++ chunk) (takeIn state chunk) := by
        rcases hcases with ⟨-, -, hstep⟩ | ⟨hnot, -⟩
        · exact hstep seen h
        · exact absurd (hends chunk List.mem_cons_self) hnot
      rw [List.flatten_cons, ← List.append_assoc]
      exact ih hbuf' hstep fun c hc => hends c (List.mem_cons_of_mem _ hc)

/-- **Bytes are never added**, and some are lost by a chunk that does not end its last line. -/
theorem keptBytes_foldl_takeIn
    (hbuf : newline ∉ state.2)
    (chunks : List (List UInt8)) :
    keptBytes (chunks.foldl takeIn state) ≤ keptBytes state + textBytes chunks.flatten ∧
      ((∃ chunk ∈ chunks, ¬ EndsLine chunk) →
        keptBytes (chunks.foldl takeIn state) < keptBytes state + textBytes chunks.flatten) := by
  induction chunks generalizing state with
  | nil => exact ⟨Nat.le_add_right _ _, by simp⟩
  | cons chunk chunks ih =>
      obtain ⟨hbuf', hcases⟩ := takeIn_cases state hbuf chunk
      obtain ⟨hle, hlt⟩ := ih hbuf'
      rw [List.foldl_cons, List.flatten_cons, textBytes_append]
      rcases hcases with ⟨hends, hkept, -⟩ | ⟨-, hkept⟩
      · refine ⟨by omega, fun hbad => ?_⟩
        obtain ⟨c, hc, hnot⟩ := hbad
        have hrest := hlt ⟨c, (List.mem_cons.mp hc).resolve_left fun e => hnot (e ▸ hends), hnot⟩
        omega
      · exact ⟨by omega, fun _ => by omega⟩

/-- **Which chunks are logged as their lines.** -/
theorem lines_foldl_takeIn_iff (chunks : List (List UInt8)) :
    (chunks.foldl takeIn ([], [])).1 ++ (if (chunks.foldl takeIn ([], [])).2 = [] then []
        else [(chunks.foldl takeIn ([], [])).2]) = LineText.records newline chunks.flatten ↔
      ∀ chunk ∈ chunks, EndsLine chunk := by
  have hnew : newline ∉ (([], []) : List (List UInt8) × List UInt8).2 := by simp
  have hbuf := not_mem_foldl_takeIn hnew chunks
  constructor
  · intro hlines
    by_contra hnot
    simp only [not_forall] at hnot
    obtain ⟨c, hc, hends⟩ := hnot
    have hlt := (keptBytes_foldl_takeIn hnew chunks).2 ⟨c, hc, hends⟩
    have hlength := congrArg (fun rs => rs.flatten.length) hlines
    rw [LineText.length_flatten_records] at hlength
    unfold keptBytes textBytes at hlt
    by_cases hnil : (chunks.foldl takeIn ([], [])).2 = []
    · simp only [hnil, if_true, List.append_nil, List.length_nil] at hlength hlt
      simp only [List.flatten_nil, List.length_nil] at hlt
      omega
    · simp only [hnil, if_false, List.flatten_append, List.length_append, List.flatten_cons,
        List.flatten_nil, List.append_nil] at hlength
      simp only [List.flatten_nil, List.length_nil] at hlt
      omega
  · intro hends
    have hholds : Holds chunks.flatten (chunks.foldl takeIn ([], [])) := by
      have hstart : Holds [] (([], []) : List (List UInt8) × List UInt8) := ⟨rfl, by simp⟩
      simpa using holds_foldl_takeIn hnew hstart hends
    rw [hholds.seen_eq, LineText.records_terminated_append hholds.lines,
      LineText.records_of_not_mem_self hbuf]

end Chunks

section Loop

/-- The lines that are logged of a pipe. -/
def linesOf (s : Stream) (log : List LogLine) : List (List UInt8) :=
  (log.filter fun l => l.stream = s).map LogLine.line

def LoopState.buf (st : LoopState) : Stream → List UInt8
  | .stdout => st.stdoutBuf
  | .stderr => st.stderrBuf

/-- The bytes that a turn reads from a pipe. -/
def Poll.bytes (s : Stream) : Poll → List UInt8
  | .failed _ => []
  | .ready stderr stdout => match s with
      | .stdout => stdout.bytes
      | .stderr => stderr.bytes

/-- The chunks that are read from a pipe until the loop ends. -/
def chunks (s : Stream) (polls : List Poll) : List (List UInt8) :=
  (polls.takeWhile fun p => !p.closed).map (Poll.bytes s)

variable {file : String} {st st' : LoopState} {p : Poll}

theorem linesOf_append (s : Stream) (log log' : List LogLine) :
    linesOf s (log ++ log') = linesOf s log ++ linesOf s log' := by
  simp [linesOf]

theorem linesOf_map (s t : Stream) (file : String) (lines : List (List UInt8)) :
    linesOf s (lines.map (LogLine.mk t file)) = if t = s then lines else [] := by
  unfold linesOf
  rw [List.filter_map, List.map_map]
  by_cases h : t = s
  · subst h
    simp [Function.comp_def]
  · simp [Function.comp_def, h]

theorem into_eq_ok
    {buf buf' : List UInt8} {r : PipeRead}
    (h : r.into buf = .ok buf') :
    buf' = buf ++ r.bytes := by
  cases r <;> simp [PipeRead.into, PipeRead.bytes] at h ⊢ <;> exact h.symm

/-- **One turn of the loop** takes a chunk in from each pipe. -/
theorem turn_eq_ok
    (h : turn file st p = .ok st') :
    (∀ s, (linesOf s st'.log, st'.buf s) = takeIn (linesOf s st.log, st.buf s) (p.bytes s)) ∧
      ((∀ l ∈ st.log, l.file = file) → ∀ l ∈ st'.log, l.file = file) := by
  cases p with
  | failed reason => cases h
  | ready stderr stdout =>
      unfold turn at h
      cases herr : stderr.into st.stderrBuf with
      | error e => simp [herr, bind, Except.bind] at h
      | ok stderrBuf =>
          cases hout : stdout.into st.stdoutBuf with
          | error e => simp [herr, hout, bind, Except.bind] at h
          | ok stdoutBuf =>
              simp only [herr, hout, bind, Except.bind, pure, Except.pure, Except.ok.injEq] at h
              subst h
              rw [into_eq_ok herr, into_eq_ok hout]
              refine ⟨fun s => ?_, fun hfile l hl => ?_⟩
              · cases s <;> simp [linesOf_append, linesOf_map, takeIn, LoopState.buf, Poll.bytes]
              · simp only [List.mem_append, List.mem_map] at hl
                rcases hl with (hl | ⟨line, -, rfl⟩) | ⟨line, -, rfl⟩
                · exact hfile l hl
                · rfl
                · rfl

/-- A turn that ends the loop has read nothing. -/
theorem bytes_of_closed
    (h : p.closed = true)
    (s : Stream) :
    p.bytes s = [] := by
  cases p with
  | failed reason => cases h
  | ready stderr stdout =>
      simp only [Poll.closed, Bool.and_eq_true, decide_eq_true_eq] at h
      cases s with
      | stdout => exact h.2
      | stderr => exact h.1

theorem linesOf_flushBuffers (file : String) (st : LoopState) (s : Stream) :
    linesOf s (flushBuffers file st) =
      linesOf s st.log ++ (if st.buf s = [] then [] else [st.buf s]) := by
  unfold flushBuffers
  rw [linesOf_append, linesOf_append]
  cases s <;> by_cases herr : st.stderrBuf = [] <;> by_cases hout : st.stdoutBuf = [] <;>
    simp [linesOf, LoopState.buf, herr, hout]

/-- **What is logged when the loop ends**, by induction on the turns. -/
theorem readLoop_log
    (st : LoopState)
    {polls : List Poll} {log : List LogLine}
    (hbuf : ∀ s, newline ∉ st.buf s)
    (h : readLoop file st polls = some (.ok log)) :
    (∀ s, linesOf s log =
      ((chunks s polls).foldl takeIn (linesOf s st.log, st.buf s)).1 ++
        (if ((chunks s polls).foldl takeIn (linesOf s st.log, st.buf s)).2 = [] then []
          else [((chunks s polls).foldl takeIn (linesOf s st.log, st.buf s)).2])) ∧
      ((∀ l ∈ st.log, l.file = file) → ∀ l ∈ log, l.file = file) := by
  induction polls generalizing st with
  | nil => cases h
  | cons p polls ih =>
      unfold readLoop at h
      cases hturn : turn file st p with
      | error e => simp [hturn] at h
      | ok st' =>
          simp only [hturn] at h
          obtain ⟨hstep, hfile⟩ := turn_eq_ok hturn
          by_cases hclosed : p.closed = true
          · rw [if_pos hclosed] at h
            cases h
            refine ⟨fun s => ?_, fun hlog l hl => ?_⟩
            · have hs := hstep s
              rw [bytes_of_closed hclosed, takeIn, List.append_nil, logLines_keep (hbuf s)] at hs
              simp only [List.append_nil, Prod.mk.injEq] at hs
              rw [linesOf_flushBuffers, hs.1, hs.2, chunks, List.takeWhile_cons_of_neg (by simp [hclosed])]
              rfl
            · simp only [flushBuffers, List.mem_append] at hl
              rcases hl with (hl | hl) | hl
              · exact hfile hlog l hl
              · split at hl
                · cases hl
                · rw [List.mem_singleton.mp hl]
              · split at hl
                · cases hl
                · rw [List.mem_singleton.mp hl]
          · rw [if_neg hclosed] at h
            have hbuf' : ∀ s, newline ∉ st'.buf s := fun s => by
              have hmem := (takeIn_cases (linesOf s st.log, st.buf s) (hbuf s) (p.bytes s)).1
              rwa [← hstep s] at hmem
            obtain ⟨hlines, hlog⟩ := ih st' hbuf' h
            refine ⟨fun s => ?_, fun hst => hlog (hfile hst)⟩
            rw [hlines, hstep s, chunks, chunks, List.takeWhile_cons_of_pos (by simp [hclosed])]
            rfl

/-- **The lines that are logged of a pipe are the lines that were read from it** if and only if
every chunk that has a line break ends with one. -/
theorem readLoop_lines_iff
    {polls : List Poll} {log : List LogLine}
    (h : readLoop file {} polls = some (.ok log)) :
    (∀ l ∈ log, l.file = file) ∧
      ∀ s, linesOf s log = LineText.records newline (chunks s polls).flatten ↔
        ∀ chunk ∈ chunks s polls, newline ∈ chunk → chunk.getLast? = some newline := by
  obtain ⟨hlines, hfile⟩ := readLoop_log {} (fun s => by cases s <;> simp [LoopState.buf]) h
  refine ⟨hfile (by simp), fun s => ?_⟩
  rw [hlines s]
  have hnew : (linesOf s ({} : LoopState).log, ({} : LoopState).buf s) = ([], []) := by
    cases s <;> rfl
  rw [hnew]
  exact lines_foldl_takeIn_iff (chunks s polls)

/-- The script writes `a`, then a line break, then `b`, and both pipes are closed. -/
theorem readLoop_lines_iff_whole :
    readLoop "x" {} [.ready .notReady (.data [97]), .ready .notReady (.data [10]),
        .ready .notReady (.data [98]), .ready (.data []) (.data [])] =
      some (.ok [⟨.stdout, "x", [97]⟩, ⟨.stdout, "x", [98]⟩]) ∧
    (∀ l ∈ [⟨.stdout, "x", [97]⟩, ⟨.stdout, "x", [98]⟩], LogLine.file l = "x") ∧
      ∀ s, linesOf s [⟨.stdout, "x", [97]⟩, ⟨.stdout, "x", [98]⟩] = LineText.records newline
          (chunks s [.ready .notReady (.data [97]), .ready .notReady (.data [10]),
            .ready .notReady (.data [98]), .ready (.data []) (.data [])]).flatten ↔
        ∀ chunk ∈ chunks s [.ready .notReady (.data [97]), .ready .notReady (.data [10]),
            .ready .notReady (.data [98]), .ready (.data []) (.data [])],
          newline ∈ chunk → chunk.getLast? = some newline := by
  have hrun : readLoop "x" {} [.ready .notReady (.data [97]), .ready .notReady (.data [10]),
        .ready .notReady (.data [98]), .ready (.data []) (.data [])] =
      some (.ok [⟨.stdout, "x", [97]⟩, ⟨.stdout, "x", [98]⟩]) := rfl
  exact ⟨hrun, readLoop_lines_iff hrun⟩

/-- **What stands after a line break in a chunk is lost**: the same bytes are logged as two
lines or as one, depending on how they are read. -/
theorem not_readLoop_lines :
    readLoop "x" {} [.ready .notReady (.data [97, 10, 98]), .ready (.data []) (.data [])] =
        some (.ok [⟨.stdout, "x", [97]⟩]) ∧
      ¬ ∀ file polls log, readLoop file {} polls = some (.ok log) →
        ∀ s, linesOf s log = LineText.records newline (chunks s polls).flatten := by
  have hrun : readLoop "x" {} [.ready .notReady (.data [97, 10, 98]),
      .ready (.data []) (.data [])] = some (.ok [⟨.stdout, "x", [97]⟩]) := rfl
  refine ⟨hrun, fun h => ?_⟩
  exact absurd (h _ _ _ hrun .stdout) (by decide)

end Loop

end RunParts

end Schroot
