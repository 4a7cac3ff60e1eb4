import Schroot.Library.LineText

/-!
# String utilities

The string functions of `sbuild-util` that chroot loading, cloning and locking
use.  A `std::string` is a `String`; where the source walks over characters the
walk is over its list of characters.
-/

namespace Schroot

section Paths

/-- Drop repeated adjacent occurrences of `dup`. -/
def removeDuplicates (dup : Char) : List Char → List Char
  | [] => []
  | [c] => [c]
  | c :: d :: cs =>
      if c = dup ∧ d = dup then
        removeDuplicates dup (d :: cs)
      else
        c :: removeDuplicates dup (d :: cs)

/-- The cursor that removes trailing separators; it stops at the first character.
At `0` the source already reads outside the string, so only non-empty names have
a defined result. -/
def trailingCursor (name : List Char) : Nat → Nat
  | 0 => 0
  | 1 => 1
  | cur + 2 =>
      if name[cur + 1]? = some '/' then trailingCursor name (cur + 1) else cur + 2

/-- A name without its trailing separators. -/
def withoutTrailing (name : List Char) : List Char :=
  name.take (trailingCursor name name.length)

/-- What stands before the last separator, if there is one. -/
def beforeLastSeparator : List Char → Option (List Char)
  | [] => none
  | c :: cs =>
      match beforeLastSeparator cs with
      | some dir => some (c :: dir)
      | none => if c = '/' then some [] else none

/-- What stands after the last separator; the whole name if there is none. -/
def afterLastSeparator : List Char → List Char
  | [] => []
  | c :: cs =>
      if '/' ∈ cs then afterLastSeparator cs else if c = '/' then cs else c :: cs

def basename (name : String) : String :=
  let name := withoutTrailing name.toList
  let ret :=
    match beforeLastSeparator name with
    | none => name
    | some _ => if name = ['/'] then ['/'] else afterLastSeparator name
  String.ofList (removeDuplicates '/' ret)

def dirname (name : String) : String :=
  let name := withoutTrailing name.toList
  let ret :=
    match beforeLastSeparator name with
    | none => ['.']
    | some [] => ['/']
    | some dir => dir
  String.ofList (removeDuplicates '/' ret)

def normalname (name : String) : String :=
  String.ofList (removeDuplicates '/' (withoutTrailing name.toList))

/-- An absolute path starts with the separator. -/
def isAbsname (name : String) : Bool :=
  name.toList.head? = some '/'

theorem isAbsname_append
    {a b : String}
    (h : isAbsname a = true) :
    isAbsname (a ++ b) = true := by
  simp only [isAbsname, decide_eq_true_eq] at h ⊢
  cases ha : a.toList with
  | nil => simp [ha] at h
  | cons c cs => simpa [ha] using h

theorem removeDuplicates_head? (dup : Char) (cs : List Char) :
    (removeDuplicates dup cs).head? = cs.head? := by
  induction cs using removeDuplicates.induct dup with
  | case1 => rfl
  | case2 => rfl
  | case3 c d cs h ih =>
      obtain ⟨rfl, rfl⟩ := h
      simpa [removeDuplicates] using ih
  | case4 c d cs h _ =>
      simp [removeDuplicates, h]

theorem trailingCursor_pos
    (name : List Char)
    (n : Nat) :
    0 < trailingCursor name (n + 1) := by
  induction n with
  | zero => simp [trailingCursor]
  | succ n ih =>
      simp only [trailingCursor]
      split
      · exact ih
      · omega

theorem withoutTrailing_head?
    (name : List Char) :
    (withoutTrailing name).head? = name.head? := by
  cases name with
  | nil => rfl
  | cons c cs =>
      have hpos := trailingCursor_pos (c :: cs) cs.length
      obtain ⟨n, hn⟩ := Nat.exists_eq_succ_of_ne_zero (Nat.pos_iff_ne_zero.mp hpos)
      simp [withoutTrailing, hn]

end Paths

section Names

/-- A letter or digit of a name. -/
def isNameAlnum (c : Char) : Bool :=
  ('a' ≤ c && c ≤ 'z') || ('A' ≤ c && c ≤ 'Z') || ('0' ≤ c && c ≤ '9')

/-- A further character of a name. -/
def isNameChar (c : Char) : Bool :=
  isNameAlnum c || c = '_' || c = '.' || c = '-'

/-- The search for `dpkg-(old|dist|new|tmp)$`. -/
def isDpkgConffileCruft (name : String) : Bool :=
  ["dpkg-old", "dpkg-dist", "dpkg-new", "dpkg-tmp"].any
    (fun suffix => suffix.toList.isSuffixOf name.toList)

/-- Names match `^[a-zA-Z0-9][a-zA-Z0-9_.-]*$` and are no conffile left-overs. -/
def isValidSessionname (name : String) : Bool :=
  match name.toList with
  | [] => false
  | c :: cs => isNameAlnum c && cs.all isNameChar && !isDpkgConffileCruft name

theorem isNameChar_of_isValidSessionname
    {name : String}
    (h : isValidSessionname name = true) :
    ∀ c ∈ name.toList, isNameChar c = true := by
  intro d hd
  unfold isValidSessionname at h
  cases hn : name.toList with
  | nil => simp [hn] at hd
  | cons c cs =>
      simp only [hn, Bool.and_eq_true, List.all_eq_true] at h
      rw [hn] at hd
      rcases List.mem_cons.mp hd with rfl | hd
      · simp [isNameChar, h.1.1]
      · exact h.1.2 d hd

end Names

section Lists

/-- `split_string`: the non-empty runs between any of the separator characters. -/
def splitString (value separator : String) : List String :=
  (LineText.pieces (fun c => separator.toList.contains c) value.toList).map String.ofList

/-- The loop of `split_string_strict`, `piece` being what was read since the last separator
and `skip` the number of characters that are skipped after one. -/
def splitStrictFrom {α : Type} [DecidableEq α] (separator : List α) :
    Nat → List α → List α → List (List α)
  | _, _, [] => []
  | skip + 1, piece, _ :: cs => splitStrictFrom separator skip piece cs
  | 0, piece, c :: cs =>
      if c ∈ separator then
        piece :: splitStrictFrom separator (separator.length - 1) [] cs
      else
        splitStrictFrom separator 0 (piece ++ [c]) cs

/-- `split_string_strict`: what stands before each of the separators.  What stands after the
last one is not added. -/
def splitStringStrict {α : Type} [DecidableEq α] (value separator : List α) : List (List α) :=
  splitStrictFrom separator 0 [] value

/-- `string_list_to_string`: the strings with the separator between them. -/
def stringListToString : List String → String → String
  | [], _ => ""
  | [s], _ => s
  | s :: t :: rest, separator => s ++ separator ++ stringListToString (t :: rest) separator

/-- The loop of `set_list_value`: the items with the separator between them. -/
def joinStrings (separator : Char) (items : List String) : String :=
  String.ofList (LineText.joined separator (items.map String.toList))

/-- A text without line breaks. -/
def SingleLine (s : String) : Prop :=
  '\n' ∉ s.toList

instance (s : String) : Decidable (SingleLine s) :=
  inferInstanceAs (Decidable ('\n' ∉ s.toList))

/-- An item that survives printing in a comma-separated list. -/
def IsListItem (s : String) : Prop :=
  s.toList ≠ [] ∧ ',' ∉ s.toList

instance (s : String) : Decidable (IsListItem s) :=
  inferInstanceAs (Decidable (_ ∧ _))

theorem splitStrictFrom_append
    {α : Type} [DecidableEq α] {sep : α} {r : List α}
    (hr : sep ∉ r)
    (piece cs : List α) :
    splitStrictFrom [sep] 0 piece (r ++ cs) = splitStrictFrom [sep] 0 (piece ++ r) cs := by
  induction r generalizing piece with
  | nil => simp
  | cons c r ih =>
      have hc : c ≠ sep := fun h => hr (by simp [h])
      have hrest : sep ∉ r := fun h => hr (by simp [h])
      simp [splitStrictFrom, hc, ih hrest]

/-- **Splitting strictly** at one character gives the terminated records. -/
theorem splitStringStrict_terminated
    {α : Type} [DecidableEq α] {sep : α} {rs : List (List α)} {tail : List α}
    (hrs : ∀ r ∈ rs, sep ∉ r)
    (htail : sep ∉ tail) :
    splitStringStrict (LineText.terminated sep rs ++ tail) [sep] = rs := by
  unfold splitStringStrict
  induction rs with
  | nil =>
      have hend := splitStrictFrom_append htail [] []
      simpa [splitStrictFrom] using hend
  | cons r rs ih =>
      rw [LineText.terminated_cons, List.append_assoc, splitStrictFrom_append (hrs r (by simp)),
        List.cons_append, splitStrictFrom]
      simp [ih fun q hq => hrs q (by simp [hq])]

theorem isPiece_iff_isListItem (s : String) :
    LineText.IsPiece (fun c => ",".toList.contains c) s.toList ↔ IsListItem s := by
  simp only [LineText.IsPiece, IsListItem]
  refine and_congr_right fun _ => ⟨fun h hm => ?_, fun h c hc => ?_⟩
  · simpa using h _ hm
  · have : c ≠ ',' := fun e => h (e ▸ hc)
    simpa using this

theorem isListItem_of_mem_splitString
    {s value : String}
    (h : s ∈ splitString value ",") :
    IsListItem s := by
  obtain ⟨x, hx, rfl⟩ := List.mem_map.mp h
  have hpiece := LineText.isPiece_of_mem_pieces hx
  rw [← isPiece_iff_isListItem]
  simpa only [String.toList_ofList] using hpiece

/-- **A printed list is read back** when its items are list items. -/
theorem splitString_joinStrings
    {items : List String}
    (h : ∀ s ∈ items, IsListItem s) :
    splitString (joinStrings ',' items) "," = items := by
  have hpieces :
      LineText.pieces (fun c => ",".toList.contains c)
        (LineText.joined ',' (items.map String.toList)) = items.map String.toList := by
    refine LineText.pieces_joined (by decide) (fun x hx => ?_)
    obtain ⟨s, hs, rfl⟩ := List.mem_map.mp hx
    exact (isPiece_iff_isListItem s).mpr (h s hs)
  have hjoined : (joinStrings ',' items).toList =
      LineText.joined ',' (items.map String.toList) := String.toList_ofList
  rw [splitString, hjoined, hpieces]
  simp

/-- A component of a path. -/
def IsComponent (name : String) : Prop :=
  name.toList ≠ [] ∧ '/' ∉ name.toList

theorem isPiece_iff_isComponent (name : String) :
    LineText.IsPiece (fun c => "/".toList.contains c) name.toList ↔ IsComponent name := by
  simp only [LineText.IsPiece, IsComponent]
  refine and_congr_right fun _ => ⟨fun h hm => ?_, fun h c hc => ?_⟩
  · simpa using h _ hm
  · have hne : c ≠ '/' := fun e => h (e ▸ hc)
    simpa using hne

theorem isComponent_of_mem_splitString
    {name path : String}
    (h : name ∈ splitString path "/") :
    IsComponent name := by
  obtain ⟨x, hx, rfl⟩ := List.mem_map.mp h
  have hpiece := LineText.isPiece_of_mem_pieces hx
  rw [← isPiece_iff_isComponent]
  simpa only [String.toList_ofList] using hpiece

theorem toList_stringListToString (names : List String) :
    (stringListToString names "/").toList = LineText.joined '/' (names.map String.toList) := by
  induction names with
  | nil => rfl
  | cons name names ih =>
      cases names with
      | nil => rfl
      | cons next names =>
          simp only [List.map_cons] at ih
          simp [stringListToString, LineText.joined, String.toList_append, ih]

/-- **Components that are joined are split again.** -/
theorem splitString_stringListToString
    {names : List String}
    (h : ∀ name ∈ names, IsComponent name) :
    splitString (stringListToString names "/") "/" = names := by
  have hpieces : LineText.pieces (fun c => "/".toList.contains c)
      (LineText.joined '/' (names.map String.toList)) = names.map String.toList := by
    refine LineText.pieces_joined (by decide) fun x hx => ?_
    obtain ⟨s, hs, rfl⟩ := List.mem_map.mp hx
    exact (isPiece_iff_isComponent s).mpr (h s hs)
  rw [splitString, toList_stringListToString, hpieces]
  simp

/-- The components of a path are those in front of a separator and those behind it. -/
theorem splitString_append (path path' : String) :
    splitString (path ++ "/" ++ path') "/" = splitString path "/" ++ splitString path' "/" := by
  have htext : (path ++ "/" ++ path').toList = path.toList ++ '/' :: path'.toList := by
    simp [String.toList_append]
  unfold splitString
  rw [htext, LineText.pieces_append_sep (by decide), List.map_append]

theorem splitString_of_isComponent
    {name : String}
    (h : IsComponent name) :
    splitString name "/" = [name] := by
  have hall : ∀ n ∈ [name], IsComponent n := fun n hn => by rwa [List.mem_singleton.mp hn]
  exact splitString_stringListToString hall

theorem splitString_slash (path : String) :
    splitString ("/" ++ path) "/" = splitString path "/" := by
  have htext : ("/" ++ path).toList = '/' :: path.toList := by simp [String.toList_append]
  unfold splitString
  rw [htext, LineText.pieces_cons_sep (by decide)]

theorem singleLine_joinStrings
    {items : List String}
    (h : ∀ s ∈ items, SingleLine s) :
    SingleLine (joinStrings ',' items) := by
  unfold SingleLine joinStrings
  rw [String.toList_ofList]
  intro hm
  rcases LineText.mem_of_mem_joined hm with e | ⟨x, hx, hc⟩
  · exact absurd e (by decide)
  · obtain ⟨s, hs, rfl⟩ := List.mem_map.mp hx
    exact h s hs hc

theorem singleLine_of_mem_splitString
    {s value : String}
    (hv : SingleLine value)
    (h : s ∈ splitString value ",") :
    SingleLine s := by
  obtain ⟨x, hx, rfl⟩ := List.mem_map.mp h
  intro hm
  rw [String.toList_ofList] at hm
  exact hv (LineText.mem_of_mem_pieces hx hm)

end Lists

end Schroot
