import Schroot.Keyfile

/-!
# Keyfile text

The parser and the printer of keyfiles.

**Input.**  A text is cut into lines; every line is a comment, a group header, an
item or empty.

**Algorithm.**  `parseLine` classifies one line and leaves a complete group or item
in the parser state; `insertParsed` moves it into a keyfile that is merged into the
target at the end.  The printer writes the groups in order, an empty line between
two groups, and nothing is escaped.
-/

namespace Schroot

/-- The state of `keyfile_parser` between two lines. -/
structure ParserState where
  group : String := ""
  groupSet : Bool := false
  key : String := ""
  keySet : Bool := false
  value : String := ""
  valueSet : Bool := false
  comment : String := ""
  commentSet : Bool := false
  lineNumber : Nat := 0
deriving DecidableEq, Repr

namespace ParserState

/-- Forget what the previous line completed; the group stays. -/
def clearSet (st : ParserState) : ParserState :=
  { st with
    comment := if st.commentSet then "" else st.comment
    commentSet := false
    groupSet := false
    key := if st.keySet then "" else st.key
    keySet := false
    value := if st.valueSet then "" else st.value
    valueSet := false }

/-- `basic_keyfile_parser::parse_line` only counts the line. -/
def countLine (st : ParserState) : ParserState :=
  { st with lineNumber := st.lineNumber + 1 }

/-- A line that starts with `#`. -/
def parseComment (st : ParserState) (text : List Char) : ParserState :=
  { st with
    comment :=
      (if st.comment = "" then "" else st.comment ++ "\n") ++ String.ofList text }

/-- A line that starts with `[`; `text` is what follows. -/
def parseGroup (st : ParserState) (line : String) (text : List Char) :
    Except KeyfileFault ParserState :=
  let invalid : KeyfileFault :=
    { code := .invalidGroup, line := st.lineNumber, context := line }
  -- the first and the last closing bracket have to be the same one
  if text.count ']' ≠ 1 then
    .error invalid
  else
    let group := text.takeWhile (· ≠ ']')
    if group = [] then
      .error invalid
    else
      .ok { st with group := String.ofList group, commentSet := true, groupSet := true }

/-- Any other non-empty line. -/
def parseItem (st : ParserState) (line : String) : Except KeyfileFault ParserState :=
  let fault (code : KeyfileCode) : KeyfileFault :=
    { code := code, line := st.lineNumber, context := line }
  if '=' ∉ line.toList then
    .error (fault .invalidLine)
  else
    let key := line.toList.takeWhile (· ≠ '=')
    if key = [] then
      .error (fault .noKey)
    else if st.group = "" then
      .error (fault .noGroup)
    else
      .ok { st with
        key := String.ofList key
        value := String.ofList (line.toList.dropWhile (· ≠ '=')).tail
        commentSet := true
        keySet := true
        valueSet := true }

/-- `keyfile_parser::parse_line`.  The line number is still that of the line before
while the line is parsed. -/
def parseLine (st : ParserState) (line : String) : Except KeyfileFault ParserState :=
  let st := st.clearSet
  match line.toList with
  | [] => .ok st.countLine
  | '#' :: text => .ok (st.parseComment text).countLine
  | '[' :: text => (st.parseGroup line text).map countLine
  | _ => (st.parseItem line).map countLine

end ParserState

namespace Keyfile

/-- Insert the group that the last line completed. -/
def insertGroup (kf : Keyfile) (st : ParserState) : Except KeyfileFault Keyfile :=
  if st.groupSet then
    if kf.hasGroup st.group then
      .error { code := .duplicateGroup, line := st.lineNumber, context := st.group }
    else
      .ok (kf.setGroup st.group st.comment st.lineNumber)
  else
    .ok kf

/-- Insert the item that the last line completed. -/
def insertItem (kf : Keyfile) (st : ParserState) : Except KeyfileFault Keyfile :=
  if st.keySet && st.valueSet then
    if kf.hasKey st.group st.key then
      .error
        { code := .duplicateKey, line := st.lineNumber, group := st.group,
          context := st.key }
    else
      .ok (kf.setItem st.group st.key ⟨st.value, st.comment, st.lineNumber⟩)
  else
    .ok kf

/-- What the reading loop does after a line. -/
def insertParsed (kf : Keyfile) (st : ParserState) : Except KeyfileFault Keyfile := do
  let kf ← kf.insertGroup st
  kf.insertItem st

/-- One turn of the reading loop. -/
def readLine (state : ParserState × Keyfile) (line : String) :
    Except KeyfileFault (ParserState × Keyfile) := do
  let st ← state.1.parseLine line
  let kf ← state.2.insertParsed st
  pure (st, kf)

/-- The reading loop over the lines of a text. -/
def readLines (state : ParserState × Keyfile) (lines : List String) :
    Except KeyfileFault (ParserState × Keyfile) :=
  lines.foldlM readLine state

/-- The lines that `std::getline` delivers. -/
def textLines (text : String) : List String :=
  (LineText.records '\n' text.toList).map String.ofList

/-- `operator >>`: everything read is merged into the keyfile at the end. -/
def parse (kf : Keyfile) (text : String) : Except KeyfileFault Keyfile := do
  let state ← readLines ({}, Keyfile.empty) (textLines text)
  pure (kf.append state.2)

end Keyfile

/-- `print_comment`: every line of the comment behind a `#`. -/
def commentChunks (comment : String) : List String :=
  (LineText.records '\n' comment.toList).map (fun line => "#" ++ String.ofList line)

/-- What is written for one item, without the final line break. -/
def Item.chunks (key : String) (item : Item) : List String :=
  commentChunks item.comment ++ [key ++ "=" ++ item.value]

/-- What is written for one group, piece by piece. -/
def Group.chunks (name : String) (group : Group) : List String :=
  commentChunks group.comment ++ ("[" ++ name ++ "]") ::
    group.items.toList.flatMap (fun entry => entry.2.chunks entry.1)

namespace Keyfile

/-- What is written for a keyfile, piece by piece; a line break follows each. -/
def chunks (kf : Keyfile) : List String :=
  match kf.groups.toList with
  | [] => []
  | first :: rest =>
      first.2.chunks first.1 ++ rest.flatMap (fun entry => "" :: entry.2.chunks entry.1)

/-- `operator <<`. -/
def print (kf : Keyfile) : String :=
  String.ofList (LineText.terminated '\n' (kf.chunks.map String.toList))

end Keyfile

end Schroot
