import Schroot.Util
import Schroot.Library.IndexedText

/-!
# Splitting strings by position

The loops of `split_string` and of the two overloads of `split_string_strict`, with the
positions that they search from.

**Input.**  A text and the symbols that separate.

**Results.**
* `returns_splitString_iff`: `split_string` returns the pieces between separators.
* `returns_splitStringStrict_iff`: the overload for strings returns what stands in front of each
  separator.
* `joined_splitStringStrict_iff`: joining them gives no text but the empty one.
* `splitStringStrictTemplate_unfinished`: the template starts over at the end of the text.
* `not_splitsStrictly`: what this means for a split that is to be undone.
-/

namespace Schroot

open IndexedText

universe u

namespace Indexed

section Model

variable {α : Type u} [DecidableEq α]

/-- A symbol that separates. -/
def separates (separator : Text α) (c : α) : Bool :=
  c ∈ separator.symbols

/-- `find_first_of`. -/
def findFirstOf (value separator : Text α) (start : Nat) : Nat :=
  value.find (separates separator) start

/-- `find_first_not_of`. -/
def findFirstNotOf (value separator : Text α) (start : Nat) : Nat :=
  value.find (fun c => !separates separator c) start

/-- The variables of the loops. -/
structure SplitState (α : Type u) where
  lastPos : Nat
  pos : Nat
  ret : List (List α)

/-- What the loops add to the list: everything from `lastPos`, or what is in front of `pos`. -/
def addPiece (value : Text α) (st : SplitState α) : Except Fault (List (List α)) := do
  let piece ←
    if st.pos = npos then
      value.substr st.lastPos st.pos
    else
      value.substr st.lastPos (sub st.pos st.lastPos)
  .ok (st.ret ++ [piece.symbols])

def splitStringTurn (value separator : Text α) (st : SplitState α) :
    Except Fault (SplitState α ⊕ List (List α)) :=
  if st.pos ≠ npos ∨ st.lastPos ≠ npos then do
    let ret ← addPiece value st
    let lastPos := findFirstNotOf value separator st.pos
    .ok (.inl ⟨lastPos, findFirstOf value separator lastPos, ret⟩)
  else
    .ok (.inr st.ret)

/-- The loop of `split_string` skips separators at the start. -/
def splitStringStart (value separator : Text α) : SplitState α :=
  let lastPos := findFirstNotOf value separator 0
  ⟨lastPos, findFirstOf value separator lastPos, []⟩

/-- A turn of both overloads of `split_string_strict`, which differ in their condition. -/
def strictTurn (goOn : SplitState α → Bool) (value separator : Text α) (st : SplitState α) :
    Except Fault (SplitState α ⊕ List (List α)) :=
  if goOn st then do
    let ret ← addPiece value st
    let lastPos := add st.pos separator.size
    .ok (.inl ⟨lastPos, findFirstOf value separator lastPos, ret⟩)
  else
    .ok (.inr st.ret)

def strictStart (value separator : Text α) : SplitState α :=
  ⟨0, findFirstOf value separator 0, []⟩

/-- The overload of `split_string_strict` for strings. -/
def splitStringStrictTurn (value separator : Text α) :
    SplitState α → Except Fault (SplitState α ⊕ List (List α)) :=
  strictTurn (fun st => st.pos ≠ npos) value separator

/-- The overload of `split_string_strict` for any kind of string. -/
def splitStringStrictTemplateTurn (value separator : Text α) :
    SplitState α → Except Fault (SplitState α ⊕ List (List α)) :=
  strictTurn (fun st => st.pos ≠ npos ∨ st.lastPos ≠ npos) value separator

end Model

section Turns

variable {α : Type u} {value : Text α} {st : SplitState α}

/-- The piece up to a separator. -/
theorem addPiece_of_found
    {piece rest : List α} {c : α}
    (hdrop : value.symbols.drop st.lastPos = piece ++ c :: rest)
    (hpos : st.pos = st.lastPos + piece.length)
    (hlt : st.pos < value.size) :
    addPiece value st = .ok (st.ret ++ [piece]) := by
  have hne : st.pos ≠ npos := Nat.ne_of_lt (Nat.lt_trans hlt value.size_lt_npos)
  have hcount : sub st.pos st.lastPos = piece.length := by
    rw [sub_of_le (by omega) (Nat.lt_trans hlt value.size_lt_positions)]
    omega
  simp only [addPiece, if_neg hne, hcount]
  have hpiece : ((value.drop st.lastPos).take piece.length).symbols = piece := by
    show (value.symbols.drop st.lastPos).take piece.length = piece
    rw [hdrop, List.take_left]
  rw [Text.substr_of_le (by omega)]
  show Except.ok (st.ret ++ [((value.drop st.lastPos).take piece.length).symbols]) = _
  rw [hpiece]

/-- The piece up to the end. -/
theorem addPiece_of_npos
    (hpos : st.pos = npos)
    (hle : st.lastPos ≤ value.size) :
    addPiece value st = .ok (st.ret ++ [value.symbols.drop st.lastPos]) := by
  simp only [addPiece, if_pos hpos]
  rw [Text.substr_of_le hle, hpos, Text.take_npos]
  rfl

end Turns

section Split

variable {α : Type u} [DecidableEq α] {value separator : Text α}

/-- **`split_string` returns the pieces between separators**, from any position on. -/
theorem returns_splitString_from
    (value separator : Text α)
    (start : Nat)
    (ret : List (List α)) :
    Returns (splitStringTurn value separator)
      ⟨findFirstNotOf value separator start,
        findFirstOf value separator (findFirstNotOf value separator start), ret⟩
      (ret ++ LineText.pieces (separates separator)
        (value.symbols.drop start)) := by
  -- by induction on what is left of the text
  induction hleft : value.size - start using Nat.strongRecOn generalizing start ret with
  | _ left ih =>
      rcases Text.find_cases (fun c => !separates separator c) value start with
        ⟨hnone, hall⟩ | ⟨seps, c, rest, hdrop, hseps, hc, hfound, hdrop', hlt⟩
      · have hlast : findFirstNotOf value separator start = npos := hnone
        have hpos : findFirstOf value separator npos = npos := Text.find_npos _ value
        rw [hlast, hpos, LineText.pieces_of_forall fun c hc => by simpa using hall c hc, List.append_nil]
        exact Returns.of_end (by simp [splitStringTurn])
      · have hlast : findFirstNotOf value separator start = start + seps.length := hfound
        have hlastNe : start + seps.length ≠ npos :=
          Nat.ne_of_lt (Nat.lt_trans hlt value.size_lt_npos)
        have hfirst : separates separator c = false := by simpa using hc
        rw [hlast, hdrop, LineText.pieces_append_of_forall fun d hd => by simpa using hseps d hd]
        rcases Text.find_cases (separates separator) value
            (start + seps.length) with
          ⟨hnone, hall⟩ | ⟨piece, d, rest', hsplit, hpiece, hd, hnext, hdrop'', hlt'⟩
        · -- the last piece
          have hpos : findFirstOf value separator (start + seps.length) = npos := hnone
          have hend : findFirstNotOf value separator npos = npos := Text.find_npos _ value
          have hend' : findFirstOf value separator npos = npos := Text.find_npos _ value
          have hpieces : LineText.pieces (separates separator) (c :: rest) =
              [c :: rest] :=
            LineText.pieces_of_isPiece ⟨by simp, fun d hd => hall d (hdrop' ▸ hd)⟩
          have hturn : splitStringTurn value separator ⟨start + seps.length, npos, ret⟩ =
              .ok (.inl ⟨npos, npos, ret ++ [c :: rest]⟩) := by
            simp only [splitStringTurn]
            rw [if_pos (.inr hlastNe), addPiece_of_npos rfl (Nat.le_of_lt hlt), hdrop', hend,
              hend']
            rfl
          rw [hpos, hpieces]
          exact Returns.of_turn hturn (Returns.of_end (by simp [splitStringTurn]))
        · have hpos : findFirstOf value separator (start + seps.length) =
              start + seps.length + piece.length := hnext
          have hpieceNe : piece ≠ [] := by
            rintro rfl
            rw [hdrop', List.nil_append, List.cons.injEq] at hsplit
            rw [← hsplit.1, hfirst] at hd
            cases hd
          have hpieces : LineText.pieces (separates separator) (c :: rest) =
              piece :: LineText.pieces (separates separator) (d :: rest') := by
            rw [← hdrop', hsplit, LineText.pieces_append_sep hd,
              LineText.pieces_of_isPiece ⟨hpieceNe, hpiece⟩, LineText.pieces_cons_sep hd]
            rfl
          have hlength : 0 < piece.length := List.length_pos_iff.mpr hpieceNe
          have hrest := ih (value.size - (start + seps.length + piece.length)) (by omega)
            (start + seps.length + piece.length) (ret ++ [piece]) rfl
          rw [hdrop''] at hrest
          rw [hpos, hpieces, ← List.singleton_append, ← List.append_assoc]
          refine Returns.of_turn ?_ hrest
          simp only [splitStringTurn]
          rw [if_pos (.inr hlastNe), addPiece_of_found hsplit rfl hlt']
          rfl

theorem returns_splitString_iff
    (value separator : Text α)
    (ret : List (List α)) :
    Returns (splitStringTurn value separator) (splitStringStart value separator) ret ↔
      ret = LineText.pieces (separates separator) value.symbols := by
  have hreturns := returns_splitString_from value separator 0 []
  exact ⟨fun h => h.unique hreturns, fun h => h ▸ hreturns⟩

end Split

section Strict

variable {α : Type} [DecidableEq α] {value separator : Text α}

theorem splitStrictFrom_drop
    (separator : List α)
    (skip : Nat)
    (xs : List α) :
    splitStrictFrom separator skip [] xs = splitStringStrict (xs.drop skip) separator := by
  induction skip generalizing xs with
  | zero => rfl
  | succ skip ih =>
      cases xs with
      | nil => rfl
      | cons x xs =>
          rw [splitStrictFrom, ih, List.drop_succ_cons]

theorem splitStrictFrom_of_forall
    {separator r : List α}
    (hr : ∀ c ∈ r, c ∉ separator)
    (piece xs : List α) :
    splitStrictFrom separator 0 piece (r ++ xs) = splitStrictFrom separator 0 (piece ++ r) xs := by
  induction r generalizing piece with
  | nil => simp
  | cons c r ih =>
      rw [List.cons_append, splitStrictFrom, if_neg (hr c List.mem_cons_self),
        ih fun d hd => hr d (List.mem_cons_of_mem c hd), List.append_assoc]
      rfl

/-- The overload for strings returns what stands in front of each separator, from any position
on. -/
theorem returns_splitStringStrict_from
    (value separator : Text α)
    (start : Nat)
    (ret : List (List α)) :
    Returns (splitStringStrictTurn value separator)
      ⟨start, findFirstOf value separator start, ret⟩
      (ret ++ Schroot.splitStringStrict (value.symbols.drop start) separator.symbols) := by
  induction hleft : value.size - start using Nat.strongRecOn generalizing start ret with
  | _ left ih =>
      rcases Text.find_cases (separates separator) value start with
        ⟨hnone, hall⟩ | ⟨piece, c, rest, hdrop, hpiece, hc, hfound, hdrop', hlt⟩
      · have hpos : findFirstOf value separator start = npos := hnone
        have hnil : Schroot.splitStringStrict (value.symbols.drop start) separator.symbols = [] := by
          have hfree : ∀ c ∈ value.symbols.drop start, c ∉ separator.symbols := fun c hc => by
            simpa [separates] using hall c hc
          have hend := splitStrictFrom_of_forall hfree [] []
          rw [List.append_nil] at hend
          rw [Schroot.splitStringStrict, hend, splitStrictFrom]
        rw [hpos, hnil, List.append_nil]
        exact Returns.of_end (by simp [splitStringStrictTurn, strictTurn])
      · have hpos : findFirstOf value separator start = start + piece.length := hfound
        have hne : start + piece.length ≠ npos :=
          Nat.ne_of_lt (Nat.lt_trans hlt value.size_lt_npos)
        have hmem : c ∈ separator.symbols := by simpa [separates] using hc
        have hsize : 0 < separator.size := List.length_pos_of_mem hmem
        have hlast : add (start + piece.length) separator.size =
            start + piece.length + separator.size := by
          refine add_of_lt ?_
          have hvalue : value.size ≤ maxSize := value.size_le
          have hseparator : separator.size ≤ maxSize := separator.size_le
          simp only [maxSize, positions] at hvalue hseparator ⊢
          omega
        have hskip : (c :: rest).drop separator.size =
            value.symbols.drop (start + piece.length + separator.size) := by
          rw [← List.drop_drop, hdrop']
        have hstrict : Schroot.splitStringStrict (value.symbols.drop start) separator.symbols =
            piece :: Schroot.splitStringStrict
              (value.symbols.drop (start + piece.length + separator.size)) separator.symbols := by
          obtain ⟨n, hn⟩ : ∃ n, separator.symbols.length = n + 1 :=
            Nat.exists_eq_succ_of_ne_zero (Nat.ne_of_gt hsize)
          have hn' : separator.size = n + 1 := hn
          rw [hn', List.drop_succ_cons] at hskip
          rw [Schroot.splitStringStrict, hdrop,
            splitStrictFrom_of_forall fun d hd => by simpa [separates] using hpiece d hd, splitStrictFrom,
            if_pos hmem, splitStrictFrom_drop, hn, Nat.add_sub_cancel, hskip, hn']
          rfl
        have hrest := ih (value.size - (start + piece.length + separator.size)) (by omega)
          (start + piece.length + separator.size) (ret ++ [piece]) rfl
        rw [hpos, hstrict, ← List.singleton_append, ← List.append_assoc]
        refine Returns.of_turn ?_ hrest
        simp only [splitStringStrictTurn, strictTurn]
        rw [if_pos (by simpa using hne), addPiece_of_found hdrop rfl hlt, hlast]
        rfl

/-- **The overload for strings** returns what stands in front of each separator. -/
theorem returns_splitStringStrict_iff
    (value separator : Text α)
    (ret : List (List α)) :
    Returns (splitStringStrictTurn value separator) (strictStart value separator) ret ↔
      ret = Schroot.splitStringStrict value.symbols separator.symbols := by
  have hreturns := returns_splitStringStrict_from value separator 0 []
  exact ⟨fun h => h.unique hreturns, fun h => h ▸ hreturns⟩

end Strict

section Undoing

variable {value : Text Char} {sep : Char}

/-- What strict splitting is for: both overloads return every piece, and joining the pieces
gives the text again. -/
def SplitsStrictly (value : Text Char) (sep : Char) : Prop :=
  ∃ ret,
    Returns (splitStringStrictTurn value (Text.single sep)) (strictStart value (Text.single sep)) ret ∧
    Returns (splitStringStrictTemplateTurn value (Text.single sep)) (strictStart value (Text.single sep))
      ret ∧
    ret = value.symbols.splitOn sep ∧
    stringListToString (ret.map String.ofList) (String.ofList [sep]) =
      String.ofList value.symbols

/-- Where a turn of the template starts from, and what it has found there. -/
def Searching (value : Text Char) (sep : Char) (st : SplitState Char) : Prop :=
  st.lastPos ≤ value.size ∧ st.pos = findFirstOf value (Text.single sep) st.lastPos

/-- A turn at the end of the text starts over: the position behind `npos` is `0`. -/
theorem splitStringStrictTemplateTurn_searching
    {st : SplitState Char}
    (h : Searching value sep st) :
    ∃ st', splitStringStrictTemplateTurn value (Text.single sep) st = .ok (.inl st') ∧
      Searching value sep st' := by
  have hgoes : st.pos ≠ npos ∨ st.lastPos ≠ npos :=
    .inr (Nat.ne_of_lt (Nat.lt_of_le_of_lt h.1 value.size_lt_npos))
  have hsize : (Text.single sep).size = 1 := rfl
  simp only [splitStringStrictTemplateTurn, strictTurn]
  rw [if_pos (by simpa using hgoes), hsize]
  rcases Text.find_cases (separates (Text.single sep)) value st.lastPos with
    ⟨hnone, -⟩ | ⟨piece, c, rest, hdrop, -, -, hfound, -, hlt⟩
  · have hpos : st.pos = npos := h.2.trans hnone
    rw [addPiece_of_npos hpos h.1, hpos, add_npos_one]
    exact ⟨_, rfl, Nat.zero_le _, rfl⟩
  · have hpos : st.pos = st.lastPos + piece.length := h.2.trans hfound
    have hlt' : st.pos < value.size := hpos ▸ hlt
    have hnext : add st.pos 1 = st.pos + 1 :=
      add_of_lt (Nat.lt_of_le_of_lt hlt' value.size_lt_positions)
    rw [addPiece_of_found hdrop hpos hlt', hnext]
    exact ⟨_, rfl, hlt', rfl⟩

/-- **The template has no end** on any text with a separator of one symbol. -/
theorem splitStringStrictTemplate_unfinished
    (value : Text Char)
    (sep : Char)
    (fuel : Nat) :
    loop (splitStringStrictTemplateTurn value (Text.single sep)) fuel
        (strictStart value (Text.single sep)) =
      .error .unfinished :=
  loop_eq_unfinished (fun _ h => splitStringStrictTemplateTurn_searching h)
    (show Searching value sep _ from ⟨Nat.zero_le _, rfl⟩) fuel

theorem not_returns_splitStringStrictTemplate
    (value : Text Char)
    (sep : Char)
    (ret : List (List Char)) :
    ¬ Returns (splitStringStrictTemplateTurn value (Text.single sep)) (strictStart value (Text.single sep))
      ret := by
  rintro ⟨fuel, hfuel⟩
  rw [splitStringStrictTemplate_unfinished] at hfuel
  cases hfuel

/-- What the overload for strings returns is undone for the empty text alone. -/
theorem joined_splitStringStrict_iff (value : List Char) (sep : Char) :
    LineText.joined sep (Schroot.splitStringStrict value [sep]) = value ↔ value = [] := by
  obtain ⟨rs, tail, rfl, hrs, htail⟩ := LineText.exists_eq_terminated_append sep value
  rw [splitStringStrict_terminated hrs htail]
  by_cases hnil : rs = []
  · subst hnil
    simp [LineText.joined]
  · rw [LineText.terminated_eq_joined hnil]
    simp

/-- **Strict splitting is nowhere what it is for**: the template never returns. -/
theorem not_splitsStrictly (value : Text Char) (sep : Char) : ¬ SplitsStrictly value sep := by
  rintro ⟨ret, -, htemplate, -⟩
  exact not_returns_splitStringStrictTemplate value sep ret htemplate

/-- The overload for strings returns the first half of `a,b`, the template returns nothing. -/
theorem not_splitsStrictly_halves :
    Returns (splitStringStrictTurn ⟨['a', ',', 'b'], by decide⟩ (Text.single ','))
        (strictStart ⟨['a', ',', 'b'], by decide⟩ (Text.single ',')) [['a']] ∧
      ¬ SplitsStrictly ⟨['a', ',', 'b'], by decide⟩ ',' := by
  refine ⟨(returns_splitStringStrict_iff _ _ _).mpr rfl, ?_⟩
  rintro ⟨ret, -, htemplate, -⟩
  exact not_returns_splitStringStrictTemplate _ _ ret htemplate

end Undoing

end Indexed

end Schroot
