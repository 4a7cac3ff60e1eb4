import Schroot.KeyfileRoundTrip
import Mathlib.Data.List.Induction
import Mathlib.Data.List.TakeWhile

/-!
# The lines of a keyfile

What the lines of a text say, each looked at by itself and at its place among the others,
and what the parser makes of them.

**Results.**
* `readLine_eq`: what one more line does to what has been read.
* `readLines_cases`: what reading lines does.
* `parse_lines`: a text is read if and only if its lines are well formed, and then the
  keyfile is what the lines say.
* `parse_error_line_iff`: which errors carry the number of the line that is at fault.
-/

namespace Schroot

section Lines

/-- What a line is by itself. -/
inductive LineKind where
  | empty
  | comment (text : String)
  | header (group : String)
  | item (key value : String)
  | malformed
deriving DecidableEq, Repr

/-- A line is empty, starts with `#`, starts with `[` and has one `]`, which follows at
least one other character, or has a `=` with something in front of it. -/
def lineKind (line : String) : LineKind :=
  match line.toList with
  | [] => .empty
  | '#' :: text => .comment (String.ofList text)
  | '[' :: text =>
      if text.count ']' = 1 ∧ text.takeWhile (· ≠ ']') ≠ [] then
        .header (String.ofList (text.takeWhile (· ≠ ']')))
      else
        .malformed
  | text =>
      if '=' ∈ text ∧ text.takeWhile (· ≠ '=') ≠ [] then
        .item (String.ofList (text.takeWhile (· ≠ '=')))
          (String.ofList (text.dropWhile (· ≠ '=')).tail)
      else
        .malformed

namespace LineKind

def header? : LineKind → Option String
  | header group => some group
  | _ => none

def comment? : LineKind → Option String
  | comment text => some text
  | _ => none

/-- Headers and items take the comment in front of them. -/
def completes : LineKind → Bool
  | header _ => true
  | item _ _ => true
  | _ => false

end LineKind

/-- The group that the lines end in. -/
def lastGroup (lines : List String) : Option String :=
  (lines.filterMap fun line => (lineKind line).header?).getLast?

/-- The texts of the comment lines since the last header or item. -/
def pendingTexts (lines : List String) : List String :=
  ((lines.reverse.takeWhile fun line => !(lineKind line).completes).filterMap
    fun line => (lineKind line).comment?).reverse

/-- Texts joined by line breaks. -/
def joinLines (texts : List String) : String :=
  String.ofList (LineText.joined '\n' (texts.map String.toList))

/-- The comment of a header or item after the lines: leading empty texts are dropped. -/
def pendingComment (lines : List String) : String :=
  joinLines ((pendingTexts lines).dropWhile (· = ""))

/-- There is a header for the group, with its comment and the number of its line. -/
def HeaderAt (lines : List String) (group comment : String) (number : Nat) : Prop :=
  ∃ before line after, lines = before ++ line :: after ∧ lineKind line = .header group ∧
    comment = pendingComment before ∧ number = before.length + 1

/-- There is such an item in the group. -/
def ItemAt (lines : List String) (group key : String) (item : Item) : Prop :=
  ∃ before line after, lines = before ++ line :: after ∧ lineKind line = .item key item.value ∧
    lastGroup before = some group ∧ item.comment = pendingComment before ∧
    item.line = before.length + 1

/-- No line is malformed, every item is in a group, no header repeats, and no key repeats
within a group. -/
structure WellFormed (lines : List String) : Prop where
  form : ∀ line ∈ lines, lineKind line ≠ .malformed
  grouped : ∀ before line after key value, lines = before ++ line :: after →
    lineKind line = .item key value → lastGroup before ≠ none
  groups : ∀ group comment number comment' number', HeaderAt lines group comment number →
    HeaderAt lines group comment' number' → number = number'
  keys : ∀ group key item item', ItemAt lines group key item → ItemAt lines group key item' →
    item.line = item'.line

/-- The keyfile has the groups and items of the lines, and no others. -/
structure Reads (lines : List String) (kf : Keyfile) : Prop where
  groups : ∀ group comment number,
    (∃ g, kf.findGroup group = some g ∧ g.comment = comment ∧ g.line = number) ↔
      HeaderAt lines group comment number
  items : ∀ group key item, kf.findItem group key = some item ↔ ItemAt lines group key item

end Lines

section Appending

variable {lines : List String} {line group key : String}

theorem append_singleton_eq_iff
    {before after : List String} {l : String} :
    lines ++ [line] = before ++ l :: after ↔
      (after = [] ∧ before = lines ∧ l = line) ∨
        ∃ after', after = after' ++ [line] ∧ lines = before ++ l :: after' := by
  constructor
  · intro h
    rcases List.eq_nil_or_concat after with rfl | ⟨after', x, rfl⟩
    · obtain ⟨hlines, hline⟩ := List.append_inj' h rfl
      exact .inl ⟨rfl, hlines.symm, (List.cons.inj hline).1.symm⟩
    · have hsplit : before ++ l :: after'.concat x = (before ++ l :: after') ++ [x] := by simp
      rw [hsplit] at h
      obtain ⟨hlines, hline⟩ := List.append_inj' h rfl
      cases hline
      exact .inr ⟨after', by simp, hlines⟩
  · rintro (⟨rfl, rfl, rfl⟩ | ⟨after', rfl, rfl⟩)
    · rfl
    · simp

theorem headerAt_append
    {comment : String} {number : Nat} :
    HeaderAt (lines ++ [line]) group comment number ↔
      HeaderAt lines group comment number ∨
        (lineKind line = .header group ∧ comment = pendingComment lines ∧
          number = lines.length + 1) := by
  constructor
  · rintro ⟨before, l, after, happend, h⟩
    rcases append_singleton_eq_iff.mp happend with ⟨rfl, rfl, rfl⟩ | ⟨after', rfl, rfl⟩
    · exact .inr h
    · exact .inl ⟨before, l, after', rfl, h⟩
  · rintro (⟨before, l, after, rfl, h⟩ | h)
    · exact ⟨before, l, after ++ [line], by simp, h⟩
    · exact ⟨lines, line, [], rfl, h⟩

theorem itemAt_append
    {item : Item} :
    ItemAt (lines ++ [line]) group key item ↔
      ItemAt lines group key item ∨
        (lineKind line = .item key item.value ∧ lastGroup lines = some group ∧
          item.comment = pendingComment lines ∧ item.line = lines.length + 1) := by
  constructor
  · rintro ⟨before, l, after, happend, h⟩
    rcases append_singleton_eq_iff.mp happend with ⟨rfl, rfl, rfl⟩ | ⟨after', rfl, rfl⟩
    · exact .inr h
    · exact .inl ⟨before, l, after', rfl, h⟩
  · rintro (⟨before, l, after, rfl, h⟩ | h)
    · exact ⟨before, l, after ++ [line], by simp, h⟩
    · exact ⟨lines, line, [], rfl, h⟩

theorem HeaderAt.le_length
    {comment : String} {number : Nat}
    (h : HeaderAt lines group comment number) :
    number ≤ lines.length := by
  obtain ⟨before, l, after, rfl, -, -, rfl⟩ := h
  simp

theorem ItemAt.le_length
    {item : Item}
    (h : ItemAt lines group key item) :
    item.line ≤ lines.length := by
  obtain ⟨before, l, after, rfl, -, -, -, hline⟩ := h
  simp [hline]

theorem lastGroup_append :
    lastGroup (lines ++ [line]) = ((lineKind line).header?).or (lastGroup lines) := by
  unfold lastGroup
  rw [List.filterMap_append]
  cases h : (lineKind line).header? <;> simp [h]

theorem pendingTexts_append_of_completes
    (h : (lineKind line).completes = true) :
    pendingTexts (lines ++ [line]) = [] := by
  simp [pendingTexts, h]

theorem pendingTexts_append
    (h : (lineKind line).completes = false) :
    pendingTexts (lines ++ [line]) =
      pendingTexts lines ++ ((lineKind line).comment?).toList := by
  unfold pendingTexts
  rw [List.reverse_append]
  simp only [List.reverse_cons, List.reverse_nil, List.nil_append, List.cons_append,
    List.takeWhile_cons, h, Bool.not_false, if_true]
  cases hc : (lineKind line).comment? <;> simp [hc]

end Appending

section Comments

/-- One more text goes behind a line break, unless there is nothing before it. -/
theorem joinLines_append
    (texts : List String) (text : String) :
    joinLines (texts ++ [text]) =
      (if texts = [] then "" else joinLines texts ++ "\n") ++ text := by
  have hjoined : ∀ xs : List (List Char), xs ≠ [] →
      LineText.joined '\n' (xs ++ [text.toList]) = LineText.joined '\n' xs ++ '\n' :: text.toList := by
    intro xs
    induction xs with
    | nil => exact fun h => absurd rfl h
    | cons x xs ih =>
        intro _
        cases xs with
        | nil => rfl
        | cons y ys =>
            have hrest := ih (by simp)
            simp only [List.cons_append] at hrest ⊢
            rw [LineText.joined, hrest, LineText.joined]
            simp
  by_cases h : texts = []
  · subst h
    simp [joinLines, LineText.joined]
  · rw [if_neg h]
    unfold joinLines
    rw [List.map_append, List.map_singleton, hjoined _ (by simpa using h)]
    apply String.toList_injective
    simp

/-- After leading empty texts are dropped, nothing is left only of nothing. -/
theorem joinLines_dropWhile_eq_empty_iff
    (texts : List String) :
    joinLines (texts.dropWhile (· = "")) = "" ↔ texts.dropWhile (· = "") = [] := by
  constructor
  · intro h
    cases hd : texts.dropWhile (· = "") with
    | nil => rfl
    | cons text rest =>
        have hne : text ≠ "" := by
          have hhead := List.head_dropWhile_not (p := fun t : String => decide (t = ""))
            (l := texts) (by simp [hd])
          simpa [hd] using hhead
        rw [hd] at h
        have hlist := congrArg String.toList h
        simp only [joinLines, List.map_cons, String.toList_ofList] at hlist
        cases rest with
        | nil => exact absurd (String.toList_injective (by simpa [LineText.joined] using hlist)) hne
        | cons next rest => simp [LineText.joined] at hlist
  · intro h
    rw [h]
    rfl

/-- What a comment line makes of the comment read so far. -/
theorem pendingComment_append_comment
    {lines : List String} {line text : String}
    (h : lineKind line = .comment text) :
    pendingComment (lines ++ [line]) =
      (if pendingComment lines = "" then "" else pendingComment lines ++ "\n") ++ text := by
  have hcompletes : (lineKind line).completes = false := by rw [h]; rfl
  have htexts : pendingTexts (lines ++ [line]) = pendingTexts lines ++ [text] := by
    rw [pendingTexts_append hcompletes, h]
    rfl
  unfold pendingComment
  rw [htexts]
  simp only [joinLines_dropWhile_eq_empty_iff]
  by_cases hempty : (pendingTexts lines).dropWhile (· = "") = []
  · rw [if_pos hempty]
    have hall : ∀ t ∈ pendingTexts lines, decide (t = "") = true :=
      List.dropWhile_eq_nil_iff.mp hempty
    rw [List.dropWhile_append_of_pos hall]
    by_cases ht : text = ""
    · simp [ht, joinLines, LineText.joined]
    · simp [ht, joinLines, LineText.joined]
  · have hdrop : (pendingTexts lines ++ [text]).dropWhile (· = "") =
        (pendingTexts lines).dropWhile (· = "") ++ [text] := by
      rw [List.dropWhile_append]
      simp [hempty]
    rw [hdrop, joinLines_append, if_neg hempty]

theorem pendingComment_append_empty
    {lines : List String} {line : String}
    (h : lineKind line = .empty) :
    pendingComment (lines ++ [line]) = pendingComment lines := by
  unfold pendingComment
  rw [pendingTexts_append (by rw [h]; rfl), h]
  simp [LineKind.comment?]

theorem pendingComment_append_of_completes
    {lines : List String} {line : String}
    (h : (lineKind line).completes = true) :
    pendingComment (lines ++ [line]) = "" := by
  unfold pendingComment
  rw [pendingTexts_append_of_completes h]
  rfl

end Comments

section Kinds

variable {lines : List String} {line group : String}

theorem lineKind_header_ne
    (h : lineKind line = .header group) :
    group ≠ "" := by
  unfold lineKind at h
  split at h
  · cases h
  · cases h
  · split at h
    · rename_i hheader
      cases h
      intro hempty
      exact hheader.2 (by simpa using congrArg String.toList hempty)
    · cases h
  · split at h <;> cases h

theorem lastGroup_ne_empty : lastGroup lines ≠ some "" := by
  intro h
  have hmem := List.mem_of_getLast? h
  obtain ⟨line, -, hline⟩ := List.mem_filterMap.mp hmem
  cases hkind : lineKind line with
  | header group =>
      rw [hkind] at hline
      exact lineKind_header_ne hkind (Option.some.inj hline)
  | _ => rw [hkind] at hline; cases hline

end Kinds

section Parsing

/-- The parser state after the lines, as far as it matters for the next one. -/
structure Follows (lines : List String) (st : ParserState) : Prop where
  lineNumber : st.lineNumber = lines.length
  group : st.group = (lastGroup lines).getD ""
  comment : (if st.commentSet then "" else st.comment) = pendingComment lines

theorem follows_new : Follows [] {} :=
  ⟨rfl, rfl, rfl⟩

variable {lines : List String} {line : String} {st : ParserState}

theorem Follows.group_eq_iff
    (h : Follows lines st) :
    st.group = "" ↔ lastGroup lines = none := by
  rw [h.group]
  cases hlast : lastGroup lines with
  | none => simp
  | some group =>
      have hne : group ≠ "" := fun e => lastGroup_ne_empty (e ▸ hlast)
      simp [hne]

/-- Empty lines and comments complete nothing. -/
theorem parseLine_empty
    (h : Follows lines st)
    (hkind : lineKind line = .empty) :
    ∃ st', st.parseLine line = .ok st' ∧ Follows (lines ++ [line]) st' ∧
      st'.groupSet = false ∧ st'.keySet = false := by
  have hline : line.toList = [] := by
    unfold lineKind at hkind
    split at hkind
    · assumption
    · cases hkind
    · split at hkind <;> cases hkind
    · split at hkind <;> cases hkind
  refine ⟨st.clearSet.countLine, by simp [ParserState.parseLine, hline], ⟨?_, ?_, ?_⟩, rfl, rfl⟩
  · simp [ParserState.countLine, ParserState.clearSet, h.lineNumber]
  · rw [lastGroup_append, hkind]
    exact h.group
  · rw [pendingComment_append_empty hkind]
    exact h.comment

theorem parseLine_comment
    {text : String}
    (h : Follows lines st)
    (hkind : lineKind line = .comment text) :
    ∃ st', st.parseLine line = .ok st' ∧ Follows (lines ++ [line]) st' ∧
      st'.groupSet = false ∧ st'.keySet = false := by
  have hline : ∃ cs, line.toList = '#' :: cs ∧ text = String.ofList cs := by
    unfold lineKind at hkind
    split at hkind
    · cases hkind
    · cases hkind
      exact ⟨_, ‹_›, rfl⟩
    · split at hkind <;> cases hkind
    · split at hkind <;> cases hkind
  obtain ⟨cs, hline, rfl⟩ := hline
  refine ⟨(st.clearSet.parseComment cs).countLine, by simp [ParserState.parseLine, hline],
    ⟨?_, ?_, ?_⟩, rfl, rfl⟩
  · simp [ParserState.countLine, ParserState.parseComment, ParserState.clearSet, h.lineNumber]
  · rw [lastGroup_append, hkind]
    exact h.group
  · rw [pendingComment_append_comment hkind, ← h.comment]
    rfl

theorem parseLine_header
    {group : String}
    (h : Follows lines st)
    (hkind : lineKind line = .header group) :
    ∃ st', st.parseLine line = .ok st' ∧ Follows (lines ++ [line]) st' ∧
      st'.groupSet = true ∧ st'.keySet = false ∧ st'.group = group ∧
      st'.comment = pendingComment lines := by
  have hline : ∃ cs, line.toList = '[' :: cs ∧ cs.count ']' = 1 ∧
      cs.takeWhile (· ≠ ']') ≠ [] ∧ group = String.ofList (cs.takeWhile (· ≠ ']')) := by
    unfold lineKind at hkind
    split at hkind
    · cases hkind
    · cases hkind
    · split at hkind
      · rename_i hheader
        cases hkind
        exact ⟨_, ‹_›, hheader.1, hheader.2, rfl⟩
      · cases hkind
    · split at hkind <;> cases hkind
  obtain ⟨cs, hline, hcount, hne, rfl⟩ := hline
  have hparse : st.parseLine line = .ok
      { st.clearSet with
        group := String.ofList (cs.takeWhile (· ≠ ']'))
        commentSet := true
        groupSet := true
        lineNumber := st.clearSet.lineNumber + 1 } := by
    unfold ParserState.parseLine
    simp only [hline, ParserState.parseGroup, hcount, hne, ne_eq, not_true_eq_false, if_false]
    rfl
  refine ⟨_, hparse, ⟨?_, ?_, ?_⟩, rfl, rfl, rfl, h.comment⟩
  · simp [ParserState.clearSet, h.lineNumber]
  · rw [lastGroup_append, hkind]
    rfl
  · rw [pendingComment_append_of_completes (by rw [hkind]; rfl)]
    rfl

/-- A line that starts neither a comment nor a header is parsed as an item. -/
theorem parseLine_eq_parseItem
    {c : Char} {cs : List Char}
    (st : ParserState)
    (hline : line.toList = c :: cs)
    (hcomment : c ≠ '#')
    (hheader : c ≠ '[') :
    st.parseLine line = (st.clearSet.parseItem line).map ParserState.countLine := by
  unfold ParserState.parseLine
  split
  · rename_i hnil
    rw [hline] at hnil
    cases hnil
  · rename_i heq
    rw [hline] at heq
    exact absurd (List.cons.inj heq).1 hcomment
  · rename_i heq
    rw [hline] at heq
    exact absurd (List.cons.inj heq).1 hheader
  · rfl

theorem lineKind_item
    {key value : String}
    (hkind : lineKind line = .item key value) :
    ∃ c cs, line.toList = c :: cs ∧ c ≠ '#' ∧ c ≠ '[' ∧ '=' ∈ line.toList ∧
      line.toList.takeWhile (· ≠ '=') ≠ [] ∧
      key = String.ofList (line.toList.takeWhile (· ≠ '=')) ∧
      value = String.ofList (line.toList.dropWhile (· ≠ '=')).tail := by
  unfold lineKind at hkind
  split at hkind
  · cases hkind
  · cases hkind
  · split at hkind <;> cases hkind
  · rename_i hnil hcomment hheader
    split at hkind
    · rename_i hitem
      cases hkind
      cases hline : line.toList with
      | nil => exact absurd hline hnil
      | cons c cs =>
          refine ⟨c, cs, rfl, fun e => hcomment cs (by rw [hline, e]),
            fun e => hheader cs (by rw [hline, e]), ?_⟩
          rw [← hline]
          exact ⟨hitem.1, hitem.2, rfl, rfl⟩
    · cases hkind

theorem parseLine_item
    {key value group : String}
    (h : Follows lines st)
    (hkind : lineKind line = .item key value)
    (hgroup : lastGroup lines = some group) :
    ∃ st', st.parseLine line = .ok st' ∧ Follows (lines ++ [line]) st' ∧
      st'.groupSet = false ∧ st'.keySet = true ∧ st'.valueSet = true ∧ st'.group = group ∧
      st'.key = key ∧ st'.value = value ∧ st'.comment = pendingComment lines := by
  obtain ⟨c, cs, hline, hcomment, hheader, hmem, hne, rfl, rfl⟩ := lineKind_item hkind
  have hset : st.clearSet.group ≠ "" := by
    show st.group ≠ ""
    rw [Ne, h.group_eq_iff, hgroup]
    simp
  have hparse : st.parseLine line = .ok
      { st.clearSet with
        key := String.ofList (line.toList.takeWhile (· ≠ '='))
        value := String.ofList (line.toList.dropWhile (· ≠ '=')).tail
        commentSet := true
        keySet := true
        valueSet := true
        lineNumber := st.clearSet.lineNumber + 1 } := by
    rw [parseLine_eq_parseItem st hline hcomment hheader, ParserState.parseItem,
      if_neg (not_not.mpr hmem)]
    simp only [hne, hset, if_false]
    rfl
  refine ⟨_, hparse, ⟨?_, ?_, ?_⟩, rfl, rfl, rfl, ?_, rfl, rfl, h.comment⟩
  · simp [ParserState.clearSet, h.lineNumber]
  · rw [lastGroup_append, hkind]
    exact h.group
  · rw [pendingComment_append_of_completes (by rw [hkind]; rfl)]
    rfl
  · have hsame : st.group = group := by rw [h.group, hgroup]; rfl
    exact hsame

/-- An item outside a group; the fault has the number of the line before. -/
theorem parseLine_item_of_none
    {key value : String}
    (h : Follows lines st)
    (hkind : lineKind line = .item key value)
    (hgroup : lastGroup lines = none) :
    st.parseLine line = .error { code := .noGroup, line := lines.length, context := line } := by
  obtain ⟨c, cs, hline, hcomment, hheader, hmem, hne, -, -⟩ := lineKind_item hkind
  have hset : st.clearSet.group = "" := h.group_eq_iff.mpr hgroup
  rw [parseLine_eq_parseItem st hline hcomment hheader, ParserState.parseItem,
    if_neg (not_not.mpr hmem)]
  simp only [hne, hset, if_false, if_true]
  rw [← h.lineNumber]
  rfl

/-- A malformed line; the fault has the number of the line before. -/
theorem parseLine_malformed
    (h : Follows lines st)
    (hkind : lineKind line = .malformed) :
    ∃ code, (code = .invalidGroup ∨ code = .invalidLine ∨ code = .noKey) ∧
      st.parseLine line = .error { code := code, line := lines.length, context := line } := by
  have hnumber : st.clearSet.lineNumber = lines.length := h.lineNumber
  unfold lineKind at hkind
  split at hkind
  · cases hkind
  · cases hkind
  · rename_i text hline
    split at hkind
    · cases hkind
    · rename_i hheader
      refine ⟨.invalidGroup, .inl rfl, ?_⟩
      unfold ParserState.parseLine
      simp only [hline, ParserState.parseGroup, hnumber]
      by_cases hcount : text.count ']' = 1
      · have hnil : text.takeWhile (· ≠ ']') = [] := by
          by_contra hne
          exact hheader ⟨hcount, hne⟩
        rw [if_neg (not_not.mpr hcount), if_pos hnil]
        rfl
      · rw [if_pos hcount]
        rfl
  · rename_i hnil hcomment hheader
    split at hkind
    · cases hkind
    · rename_i hitem
      cases hline : line.toList with
      | nil => exact absurd hline hnil
      | cons c cs =>
          rw [parseLine_eq_parseItem st hline (fun e => hcomment cs (by rw [hline, e]))
            fun e => hheader cs (by rw [hline, e]), ParserState.parseItem]
          by_cases hmem : '=' ∈ line.toList
          · have htake : line.toList.takeWhile (· ≠ '=') = [] := by
              by_contra hne
              exact hitem ⟨hmem, hne⟩
            refine ⟨.noKey, .inr (.inr rfl), ?_⟩
            rw [if_neg (not_not.mpr hmem), if_pos htake, hnumber]
            rfl
          · refine ⟨.invalidLine, .inr (.inl rfl), ?_⟩
            rw [if_pos hmem, hnumber]
            rfl

end Parsing

namespace Keyfile

section Reading

variable {lines : List String} {line : String} {st : ParserState} {kf : Keyfile}

theorem reads_empty : Reads [] empty := by
  have hsplit : ∀ {before after : List String} {l : String}, [] ≠ before ++ l :: after := by
    intro before after l h
    simpa using congrArg List.length h
  refine ⟨fun group comment number => ⟨?_, ?_⟩, fun group key item => ⟨?_, ?_⟩⟩
  · rintro ⟨g, hg, -⟩
    simp [findGroup, empty] at hg
  · rintro ⟨before, l, after, h, -⟩
    exact absurd h hsplit
  · intro h
    simp [findItem, findGroup, empty] at h
  · rintro ⟨before, l, after, h, -⟩
    exact absurd h hsplit

theorem wellFormed_nil : WellFormed [] := by
  have hsplit : ∀ {before after : List String} {l : String}, [] ≠ before ++ l :: after := by
    intro before after l h
    simpa using congrArg List.length h
  refine ⟨by simp, fun _ _ _ _ _ h => absurd h hsplit, ?_, ?_⟩
  · rintro _ _ _ _ _ ⟨_, _, _, h, -⟩
    exact absurd h hsplit
  · rintro _ _ _ _ ⟨_, _, _, h, -⟩
    exact absurd h hsplit

/-- Nothing that is well formed has a beginning that is not. -/
theorem wellFormed_of_append
    (rest : List String)
    (h : WellFormed (lines ++ rest)) :
    WellFormed lines := by
  have hheader : ∀ {group comment number}, HeaderAt lines group comment number →
      HeaderAt (lines ++ rest) group comment number := by
    rintro group comment number ⟨before, l, after, rfl, hrest⟩
    exact ⟨before, l, after ++ rest, by simp, hrest⟩
  have hitem : ∀ {group key item}, ItemAt lines group key item →
      ItemAt (lines ++ rest) group key item := by
    rintro group key item ⟨before, l, after, rfl, hrest⟩
    exact ⟨before, l, after ++ rest, by simp, hrest⟩
  refine ⟨fun l hl => h.form l (List.mem_append_left rest hl), ?_, ?_, ?_⟩
  · rintro before l after key value rfl
    exact h.grouped before l (after ++ rest) key value (by simp)
  · exact fun group c n c' n' h₁ h₂ => h.groups group c n c' n' (hheader h₁) (hheader h₂)
  · exact fun group key item item' h₁ h₂ => h.keys group key item item' (hitem h₁) (hitem h₂)

/-- One more line that completes nothing. -/
theorem wellFormed_append_of_not_completes
    (h : WellFormed lines)
    (hform : lineKind line ≠ .malformed)
    (hheader : ∀ group, lineKind line ≠ .header group)
    (hitem : ∀ key value, lineKind line ≠ .item key value) :
    WellFormed (lines ++ [line]) := by
  refine ⟨fun l hl => ?_, fun before l after key value happend hkind => ?_,
    fun group c n c' n' h₁ h₂ => ?_, fun group key item item' h₁ h₂ => ?_⟩
  · rcases List.mem_append.mp hl with hl | hl
    · exact h.form l hl
    · exact List.mem_singleton.mp hl ▸ hform
  · rcases append_singleton_eq_iff.mp happend with ⟨rfl, rfl, rfl⟩ | ⟨after', rfl, rfl⟩
    · exact absurd hkind (hitem key value)
    · exact h.grouped before l after' key value rfl hkind
  · rw [headerAt_append] at h₁ h₂
    exact h.groups group c n c' n' (h₁.resolve_right fun e => hheader group e.1)
      (h₂.resolve_right fun e => hheader group e.1)
  · rw [itemAt_append] at h₁ h₂
    exact h.keys group key item item' (h₁.resolve_right fun e => hitem key _ e.1)
      (h₂.resolve_right fun e => hitem key _ e.1)

theorem reads_append_of_not_completes
    (h : Reads lines kf)
    (hheader : ∀ group, lineKind line ≠ .header group)
    (hitem : ∀ key value, lineKind line ≠ .item key value) :
    Reads (lines ++ [line]) kf := by
  refine ⟨fun group comment number => ?_, fun group key item => ?_⟩
  · rw [headerAt_append, h.groups]
    simp [hheader]
  · rw [itemAt_append, h.items]
    simp [hitem]

/-- A group that is there has its header among the lines. -/
theorem hasGroup_iff_headerAt
    {group : String}
    (h : Reads lines kf) :
    kf.hasGroup group = true ↔ ∃ comment number, HeaderAt lines group comment number := by
  unfold hasGroup
  rw [Option.isSome_iff_exists]
  constructor
  · rintro ⟨g, hg⟩
    exact ⟨_, _, (h.groups group _ _).mp ⟨g, hg, rfl, rfl⟩⟩
  · rintro ⟨comment, number, hheader⟩
    obtain ⟨g, hg, -⟩ := (h.groups group comment number).mpr hheader
    exact ⟨g, hg⟩

theorem hasKey_iff_itemAt
    {group key : String}
    (h : Reads lines kf) :
    kf.hasKey group key = true ↔ ∃ item, ItemAt lines group key item := by
  unfold hasKey
  rw [Option.isSome_iff_exists]
  exact exists_congr fun item => h.items group key item

/-- The last group is among the groups. -/
theorem headerAt_of_lastGroup
    {group : String}
    (h : lastGroup lines = some group) :
    ∃ comment number, HeaderAt lines group comment number := by
  induction lines using List.reverseRecOn with
  | nil => cases h
  | append_singleton lines line ih =>
      rw [lastGroup_append] at h
      cases hkind : lineKind line with
      | header g =>
          rw [hkind] at h
          cases h
          exact ⟨_, _, headerAt_append.mpr (.inr ⟨hkind, rfl, rfl⟩)⟩
      | _ =>
          rw [hkind] at h
          obtain ⟨comment, number, hheader⟩ := ih h
          exact ⟨comment, number, headerAt_append.mpr (.inl hheader)⟩

end Reading

section Steps

variable {lines : List String} {line : String} {st : ParserState} {kf : Keyfile}

theorem readLine_of_parseLine
    {st' : ParserState}
    (h : st.parseLine line = .ok st') :
    readLine (st, kf) line = (kf.insertParsed st').map fun kf' => (st', kf') := by
  simp only [readLine, h]
  cases hinsert : kf.insertParsed st' <;> simp [bind, Except.bind, hinsert, Except.map, pure, Except.pure]

theorem readLine_of_parseLine_error
    {e : KeyfileFault}
    (h : st.parseLine line = .error e) :
    readLine (st, kf) line = .error e := by
  simp only [readLine, h]
  rfl

/-- The line is neither malformed nor an item outside a group, so that only a repetition can
be wrong with it. -/
def CanOnlyRepeat (lines : List String) (line : String) : Prop :=
  lineKind line ≠ .malformed ∧ ∀ key value, lineKind line = .item key value → lastGroup lines ≠ none

/-- What is reported of a line that cannot be read: a repetition with the number of the
line, everything else with that of the line before. -/
structure FaultAt (lines : List String) (line : String) (e : KeyfileFault) : Prop where
  repeats : CanOnlyRepeat lines line →
    (e.code = .duplicateGroup ∨ e.code = .duplicateKey) ∧ e.line = lines.length + 1
  other : ¬ CanOnlyRepeat lines line →
    (e.code = .invalidGroup ∨ e.code = .invalidLine ∨ e.code = .noKey ∨ e.code = .noGroup) ∧
      e.line = lines.length

/-- **What one more line does**: it is read, and what has been read is what the lines say,
or it makes the lines ill-formed, and its fault is reported. -/
def ReadsOn (lines : List String) (line : String) (st : ParserState) (kf : Keyfile) : Prop :=
  (∃ st' kf', readLine (st, kf) line = .ok (st', kf') ∧ Follows (lines ++ [line]) st' ∧
    Reads (lines ++ [line]) kf' ∧ WellFormed (lines ++ [line])) ∨
  (∃ e, readLine (st, kf) line = .error e ∧ ¬ WellFormed (lines ++ [line]) ∧
    FaultAt lines line e)

theorem readsOn_of_not_completes
    (hkf : Reads lines kf)
    (hwf : WellFormed lines)
    (hform : lineKind line ≠ .malformed)
    (hheader : ∀ group, lineKind line ≠ .header group)
    (hitem : ∀ key value, lineKind line ≠ .item key value)
    (hparse : ∃ st', st.parseLine line = .ok st' ∧ Follows (lines ++ [line]) st' ∧
      st'.groupSet = false ∧ st'.keySet = false) :
    ReadsOn lines line st kf := by
  obtain ⟨st', hparse, hst', hgroupSet, hkeySet⟩ := hparse
  have hinsert : kf.insertParsed st' = .ok kf := by
    simp [insertParsed, insertGroup, insertItem, hgroupSet, hkeySet, bind, Except.bind]
  refine .inl ⟨st', kf, ?_, hst', reads_append_of_not_completes hkf hheader hitem,
    wellFormed_append_of_not_completes hwf hform hheader hitem⟩
  rw [readLine_of_parseLine hparse, hinsert]
  rfl

/-- A header of a new group. -/
theorem reads_append_header
    {group : String}
    (hkf : Reads lines kf)
    (hkind : lineKind line = .header group)
    (hnew : kf.hasGroup group = false) :
    Reads (lines ++ [line]) (kf.setGroup group (pendingComment lines) (lines.length + 1)) := by
  have hnone : kf.findGroup group = none := by simpa [hasGroup] using hnew
  refine ⟨fun g comment number => ?_, fun g key item => ?_⟩
  · rw [headerAt_append, ← hkf.groups, findGroup_setGroup, hkind]
    by_cases hg : g = group
    · subst hg
      simp only [true_and, hnone, if_true, reduceCtorEq, false_and, exists_false, false_or]
      constructor
      · rintro ⟨_, h, rfl, rfl⟩
        cases h
        exact ⟨rfl, rfl⟩
      · rintro ⟨rfl, rfl⟩
        exact ⟨_, rfl, rfl, rfl⟩
    · simp [hg, Ne.symm hg]
  · rw [itemAt_append, ← hkf.items, hkind]
    simp only [reduceCtorEq, false_and, or_false]
    unfold findItem
    rw [findGroup_setGroup]
    by_cases hg : g = group
    · subst hg
      simp [hnone]
    · simp [hg]

theorem wellFormed_append_header
    {group : String}
    (hwf : WellFormed lines)
    (hkind : lineKind line = .header group)
    (hnew : ∀ comment number, ¬ HeaderAt lines group comment number) :
    WellFormed (lines ++ [line]) := by
  refine ⟨fun l hl => ?_, fun before l after key value happend hitem => ?_,
    fun g c n c' n' h₁ h₂ => ?_, fun g key item item' h₁ h₂ => ?_⟩
  · rcases List.mem_append.mp hl with hl | hl
    · exact hwf.form l hl
    · rw [List.mem_singleton.mp hl, hkind]
      simp
  · rcases append_singleton_eq_iff.mp happend with ⟨rfl, rfl, rfl⟩ | ⟨after', rfl, rfl⟩
    · rw [hkind] at hitem
      cases hitem
    · exact hwf.grouped before l after' key value rfl hitem
  · rcases headerAt_append.mp h₁ with h₁ | ⟨hg, -, rfl⟩
    · rcases headerAt_append.mp h₂ with h₂ | ⟨hg, -, -⟩
      · exact hwf.groups g c n c' n' h₁ h₂
      · cases hkind.symm.trans hg
        exact absurd h₁ (hnew c n)
    · rcases headerAt_append.mp h₂ with h₂ | ⟨-, -, rfl⟩
      · cases hkind.symm.trans hg
        exact absurd h₂ (hnew c' n')
      · rfl
  · rw [itemAt_append, hkind] at h₁ h₂
    exact hwf.keys g key item item' (h₁.resolve_right (by simp)) (h₂.resolve_right (by simp))

theorem readsOn_header
    {group : String}
    (hst : Follows lines st)
    (hkf : Reads lines kf)
    (hwf : WellFormed lines)
    (hkind : lineKind line = .header group) :
    ReadsOn lines line st kf := by
  obtain ⟨st', hparse, hst', hgroupSet, hkeySet, rfl, hcomment⟩ := parseLine_header hst hkind
  have hnumber : st'.lineNumber = lines.length + 1 := by simpa using hst'.lineNumber
  by_cases hnew : kf.hasGroup st'.group = false
  · refine .inl ⟨st', kf.setGroup st'.group st'.comment st'.lineNumber, ?_, hst', ?_, ?_⟩
    · rw [readLine_of_parseLine hparse, insertParsed_group hgroupSet hkeySet hnew]
      rfl
    · rw [hcomment, hnumber]
      exact reads_append_header hkf hkind hnew
    · refine wellFormed_append_header hwf hkind fun comment number hheader => ?_
      rw [(hasGroup_iff_headerAt hkf).mpr ⟨_, _, hheader⟩] at hnew
      cases hnew
  · have hold : kf.hasGroup st'.group = true := by simpa using hnew
    refine .inr ⟨{ code := .duplicateGroup, line := st'.lineNumber, context := st'.group }, ?_,
      fun hwf' => ?_, ⟨fun _ => ⟨.inl rfl, hnumber⟩, fun hnot => ?_⟩⟩
    · rw [readLine_of_parseLine hparse]
      simp [insertParsed, insertGroup, hgroupSet, hold, bind, Except.bind, Except.map]
    · obtain ⟨comment, number, hheader⟩ := (hasGroup_iff_headerAt hkf).mp hold
      have hsame := hwf'.groups _ _ _ _ _ (headerAt_append.mpr (.inl hheader))
        (headerAt_append.mpr (.inr ⟨hkind, rfl, rfl⟩))
      have hle := hheader.le_length
      omega
    · exact absurd ⟨by simp [hkind], by simp [hkind]⟩ hnot

/-- An item whose key is new in its group. -/
theorem reads_append_item
    {group key value : String}
    (hkf : Reads lines kf)
    (hkind : lineKind line = .item key value)
    (hgroup : lastGroup lines = some group)
    (hnew : kf.hasKey group key = false) :
    Reads (lines ++ [line])
      (kf.setItem group key ⟨value, pendingComment lines, lines.length + 1⟩) := by
  have hthere : ∃ g, kf.findGroup group = some g := by
    obtain ⟨comment, number, hheader⟩ := headerAt_of_lastGroup hgroup
    obtain ⟨g, hg, -⟩ := (hkf.groups _ _ _).mpr hheader
    exact ⟨g, hg⟩
  obtain ⟨old, hold⟩ := hthere
  have hnone : kf.findItem group key = none := by simpa [hasKey] using hnew
  refine ⟨fun g comment number => ?_, fun g k item => ?_⟩
  · rw [headerAt_append, ← hkf.groups, findGroup_setItem, hkind]
    by_cases hg : g = group
    · subst hg
      simp [groupOrNew, hold]
    · simp [hg]
  · rw [itemAt_append, ← hkf.items, findItem_setItem, hkind, hgroup]
    by_cases hk : g = group ∧ k = key
    · obtain ⟨rfl, rfl⟩ := hk
      obtain ⟨v, c, n⟩ := item
      simp [hnone, eq_comm]
    · rw [if_neg hk]
      refine ⟨.inl, fun h => h.resolve_right ?_⟩
      rintro ⟨hitem, hlast, -⟩
      cases hitem
      cases hlast
      exact hk ⟨rfl, rfl⟩

theorem wellFormed_append_item
    {group key value : String}
    (hwf : WellFormed lines)
    (hkind : lineKind line = .item key value)
    (hgroup : lastGroup lines = some group)
    (hnew : ∀ item, ¬ ItemAt lines group key item) :
    WellFormed (lines ++ [line]) := by
  refine ⟨fun l hl => ?_, fun before l after k v happend hitem => ?_,
    fun g c n c' n' h₁ h₂ => ?_, fun g k item item' h₁ h₂ => ?_⟩
  · rcases List.mem_append.mp hl with hl | hl
    · exact hwf.form l hl
    · rw [List.mem_singleton.mp hl, hkind]
      simp
  · rcases append_singleton_eq_iff.mp happend with ⟨rfl, rfl, rfl⟩ | ⟨after', rfl, rfl⟩
    · rw [hgroup]
      simp
    · exact hwf.grouped before l after' k v rfl hitem
  · rw [headerAt_append, hkind] at h₁ h₂
    exact hwf.groups g c n c' n' (h₁.resolve_right (by simp)) (h₂.resolve_right (by simp))
  · have hsame : ∀ {i}, lineKind line = .item k i → lastGroup lines = some g →
        k = key ∧ g = group := by
      intro i hk hg
      cases hkind.symm.trans hk
      cases hgroup.symm.trans hg
      exact ⟨rfl, rfl⟩
    rcases itemAt_append.mp h₁ with h₁ | ⟨hk, hg, -, hn⟩
    · rcases itemAt_append.mp h₂ with h₂ | ⟨hk, hg, -, -⟩
      · exact hwf.keys g k item item' h₁ h₂
      · obtain ⟨rfl, rfl⟩ := hsame hk hg
        exact absurd h₁ (hnew item)
    · rcases itemAt_append.mp h₂ with h₂ | ⟨-, -, -, hn'⟩
      · obtain ⟨rfl, rfl⟩ := hsame hk hg
        exact absurd h₂ (hnew item')
      · rw [hn, hn']

theorem readsOn_item
    {key value : String}
    (hst : Follows lines st)
    (hkf : Reads lines kf)
    (hwf : WellFormed lines)
    (hkind : lineKind line = .item key value) :
    ReadsOn lines line st kf := by
  cases hgroup : lastGroup lines with
  | none =>
      refine .inr ⟨_, readLine_of_parseLine_error (parseLine_item_of_none hst hkind hgroup),
        fun hwf' => ?_, ⟨fun h => ?_, fun _ => ⟨by simp, rfl⟩⟩⟩
      · exact hwf'.grouped lines line [] key value rfl hkind hgroup
      · exact absurd hgroup (h.2 key value hkind)
  | some group =>
      obtain ⟨st', hparse, hst', hgroupSet, hkeySet, hvalueSet, rfl, rfl, rfl, hcomment⟩ :=
        parseLine_item hst hkind hgroup
      have hnumber : st'.lineNumber = lines.length + 1 := by simpa using hst'.lineNumber
      by_cases hnew : kf.hasKey st'.group st'.key = false
      · refine .inl ⟨st',
          kf.setItem st'.group st'.key ⟨st'.value, st'.comment, st'.lineNumber⟩, ?_, hst', ?_, ?_⟩
        · rw [readLine_of_parseLine hparse, insertParsed_item hgroupSet hkeySet hvalueSet]
          · rfl
          · rw [hasKey_iff_value?] at hnew
            simpa using hnew
        · rw [hcomment, hnumber]
          exact reads_append_item hkf hkind hgroup hnew
        · refine wellFormed_append_item hwf hkind hgroup fun item hitem => ?_
          rw [(hasKey_iff_itemAt hkf).mpr ⟨_, hitem⟩] at hnew
          cases hnew
      · have hold : kf.hasKey st'.group st'.key = true := by simpa using hnew
        let e : KeyfileFault :=
          { code := .duplicateKey, line := st'.lineNumber, group := st'.group, context := st'.key }
        refine .inr ⟨e, ?_, fun hwf' => ?_, ⟨fun _ => ⟨.inr rfl, hnumber⟩, fun hnot => ?_⟩⟩
        · rw [readLine_of_parseLine hparse]
          simp [insertParsed, insertGroup, insertItem, hgroupSet, hkeySet, hvalueSet, hold, bind,
            Except.bind, Except.map, e]
        · obtain ⟨item, hitem⟩ := (hasKey_iff_itemAt hkf).mp hold
          have hsame := hwf'.keys _ _ item ⟨st'.value, pendingComment lines, lines.length + 1⟩
            (itemAt_append.mpr (.inl hitem))
            (itemAt_append.mpr (.inr ⟨hkind, hgroup, rfl, rfl⟩))
          have hle := hitem.le_length
          simp only at hsame
          omega
        · exact absurd ⟨by simp [hkind], fun _ _ _ => by simp [hgroup]⟩ hnot

/-- **One turn of the reading loop.** -/
theorem readLine_eq
    (hst : Follows lines st)
    (hkf : Reads lines kf)
    (hwf : WellFormed lines)
    (line : String) :
    ReadsOn lines line st kf := by
  cases hkind : lineKind line with
  | empty =>
      exact readsOn_of_not_completes hkf hwf (by simp [hkind]) (by simp [hkind]) (by simp [hkind])
        (parseLine_empty hst hkind)
  | comment text =>
      exact readsOn_of_not_completes hkf hwf (by simp [hkind]) (by simp [hkind]) (by simp [hkind])
        (parseLine_comment hst hkind)
  | header group => exact readsOn_header hst hkf hwf hkind
  | item key value => exact readsOn_item hst hkf hwf hkind
  | malformed =>
      obtain ⟨code, hcode, hparse⟩ := parseLine_malformed hst hkind
      refine .inr ⟨_, readLine_of_parseLine_error hparse, fun hwf' => ?_,
        ⟨fun h => absurd hkind h.1, fun _ => ⟨?_, rfl⟩⟩⟩
      · exact hwf'.form line (by simp) hkind
      · rcases hcode with rfl | rfl | rfl <;> simp

/-- **What reading lines does.** -/
theorem readLines_cases (lines : List String) :
    (∃ st kf, readLines ({}, empty) lines = .ok (st, kf) ∧ Follows lines st ∧ Reads lines kf ∧
      WellFormed lines) ∨
    (∃ e before line after, readLines ({}, empty) lines = .error e ∧
      lines = before ++ line :: after ∧ WellFormed before ∧ ¬ WellFormed (before ++ [line]) ∧
      FaultAt before line e) := by
  induction lines using List.reverseRecOn with
  | nil => exact .inl ⟨{}, empty, rfl, follows_new, reads_empty, wellFormed_nil⟩
  | append_singleton lines line ih =>
      rcases ih with ⟨st, kf, hread, hst, hkf, hwf⟩ |
        ⟨e, before, l, after, hread, rfl, hwf, hnot, hfault⟩
      · rcases readLine_eq hst hkf hwf line with
          ⟨st', kf', hline, hst', hkf', hwf'⟩ | ⟨e, hline, hnot, hfault⟩
        · refine .inl ⟨st', kf', ?_, hst', hkf', hwf'⟩
          rw [readLines, List.foldlM_append]
          exact bind_eq_ok_iff.mpr ⟨_, hread, bind_eq_ok_iff.mpr ⟨_, hline, rfl⟩⟩
        · refine .inr ⟨e, lines, line, [], ?_, rfl, hwf, hnot, hfault⟩
          rw [readLines, List.foldlM_append]
          show (readLines ({}, empty) lines >>= fun state => [line].foldlM readLine state) = _
          rw [hread]
          simp [List.foldlM_cons, hline, bind, Except.bind]
      · refine .inr ⟨e, before, l, after ++ [line], ?_, by simp, hwf, hnot, hfault⟩
        rw [readLines, List.foldlM_append]
        show (readLines ({}, empty) (before ++ l :: after) >>=
          fun state => [line].foldlM readLine state) = _
        rw [hread]
        rfl

end Steps

section Texts

/-- **A text is read if and only if its lines are well formed, and then the keyfile has the
groups and items of its lines, with their comments and the numbers of their lines.** -/
theorem parse_lines (text : String) :
    (∀ kf, (∃ kf', parse kf text = .ok kf') ↔ WellFormed (textLines text)) ∧
      ∀ kf, parse empty text = .ok kf → Reads (textLines text) kf := by
  rcases readLines_cases (textLines text) with ⟨st, read, hread, -, hkf, hwf⟩ |
    ⟨e, before, line, after, hread, hlines, -, hnot, -⟩
  · have hparse : ∀ kf, parse kf text = .ok (kf.append read) := by
      intro kf
      simp [parse, hread, bind, Except.bind, pure, Except.pure]
    refine ⟨fun kf => iff_of_true ⟨_, hparse kf⟩ hwf, fun kf h => ?_⟩
    rw [hparse, empty_append] at h
    cases h
    exact hkf
  · have hparse : ∀ kf, parse kf text = .error e := by
      intro kf
      simp [parse, hread, bind, Except.bind]
    refine ⟨fun kf => iff_of_false ?_ fun hwf => hnot ?_, fun kf h => ?_⟩
    · simp [hparse]
    · rw [hlines] at hwf
      exact wellFormed_of_append after (by simpa using hwf)
    · rw [hparse] at h
      cases h

/-- **The error of a text that is not read has the number of the first line that is at fault
if and only if that line is at fault only because it repeats a header or a key.** -/
theorem parse_error_line_iff
    {kf : Keyfile} {text : String} {e : KeyfileFault}
    (h : parse kf text = .error e) :
    ∃ before line after, textLines text = before ++ line :: after ∧ WellFormed before ∧
      ¬ WellFormed (before ++ [line]) ∧
      (e.line = before.length + 1 ↔ CanOnlyRepeat before line) := by
  rcases readLines_cases (textLines text) with ⟨st, read, hread, -, -, -⟩ |
    ⟨e', before, line, after, hread, hlines, hwf, hnot, hfault⟩
  · simp [parse, hread, bind, Except.bind, pure, Except.pure] at h
  · have hparse : parse kf text = .error e' := by
      simp [parse, hread, bind, Except.bind]
    obtain rfl : e' = e := Except.error.inj (hparse.symm.trans h)
    refine ⟨before, line, after, hlines, hwf, hnot, fun hline => ?_, fun hrepeat =>
      (hfault.repeats hrepeat).2⟩
    by_contra hother
    have hbefore := (hfault.other hother).2
    omega

/-- The fault that a text is refused with. -/
def fault? (text : String) : Option KeyfileFault :=
  match parse empty text with
  | .ok _ => none
  | .error e => some e

theorem parse_of_fault?
    {text : String} {e : KeyfileFault}
    (h : fault? text = some e) :
    parse empty text = .error e := by
  unfold fault? at h
  split at h
  · cases h
  · rename_i heq
    cases h
    exact heq

/-- A repeated header is reported with its line. -/
theorem parse_error_line_iff_repeated :
    fault? "[a]\n[a]\n" = some { code := .duplicateGroup, line := 2, context := "a" } ∧
      ∃ before line after, textLines "[a]\n[a]\n" = before ++ line :: after ∧
        WellFormed before ∧ ¬ WellFormed (before ++ [line]) ∧
        (2 = before.length + 1 ↔ CanOnlyRepeat before line) := by
  have hfault : fault? "[a]\n[a]\n" =
      some { code := .duplicateGroup, line := 2, context := "a" } := by decide +kernel
  exact ⟨hfault, parse_error_line_iff (parse_of_fault? hfault)⟩

/-- **Four of the errors carry the number of the line before**, which is 0 for the first
line of a text. -/
theorem not_parse_error_line :
    fault? "[a\n" = some { code := .invalidGroup, line := 0, context := "[a" } ∧
      fault? "a\n" = some { code := .invalidLine, line := 0, context := "a" } ∧
      fault? "=a\n" = some { code := .noKey, line := 0, context := "=a" } ∧
      fault? "a=b\n" = some { code := .noGroup, line := 0, context := "a=b" } ∧
      ¬ ∀ text e, parse empty text = .error e →
        ∃ before line after, textLines text = before ++ line :: after ∧
          ¬ WellFormed (before ++ [line]) ∧ e.line = before.length + 1 := by
  have hfault : fault? "a=b\n" = some { code := .noGroup, line := 0, context := "a=b" } := by
    decide +kernel
  refine ⟨by decide +kernel, by decide +kernel, by decide +kernel, hfault, fun h => ?_⟩
  obtain ⟨before, line, after, -, -, hline⟩ := h _ _ (parse_of_fault? hfault)
  exact absurd hline (by simp)

end Texts

end Keyfile

end Schroot
