import Schroot.Keyfile

/-!
# Lists and sets in keyfiles

`set_list_value` writes the elements of a list with the separator of keyfiles between them, and
`get_list_value` takes the pieces between separators.  Sets are written as sorted lists.

**Results.**
* `getListValue_setListValue`: what is read back for any list.
* `list_round_trip`: which lists and sets are read back, and that reading back is idempotent.
-/

namespace Schroot

namespace Keyfile

section Model

/-- `get_list_value` into a container of strings; whether the key was found comes first. -/
def getListValue (kf : Keyfile) (group key : String) (container : List String) :
    Bool × List String :=
  match kf.value? group key with
  | some value => (true, container ++ splitString value ",")
  | none => (false, container)

/-- `get_set_value` into a container of strings. -/
def getSetValue (kf : Keyfile) (group key : String) (container : Std.ExtTreeSet String) :
    Bool × Std.ExtTreeSet String :=
  match kf.value? group key with
  | some value => (true, (splitString value ",").foldl (fun set item => set.insert item) container)
  | none => (false, container)

/-- `set_list_value`. -/
def setListValue (kf : Keyfile) (group key : String) (items : List String) (comment : String)
    (line : Nat) : Keyfile :=
  kf.setItem group key ⟨joinStrings ',' items, comment, line⟩

/-- `set_set_value`, from the elements in any order. -/
def setSetValue (kf : Keyfile) (group key : String) (items : List String) (comment : String)
    (line : Nat) : Keyfile :=
  kf.setListValue group key (items.mergeSort fun a b => (compare a b).isLE) comment line

end Model

section Reading

/-- The texts between the commas of a text that are not empty. -/
def commaPieces (s : String) : List String :=
  ((s.toList.splitOn ',').filter fun piece => !piece.isEmpty).map String.ofList

variable {kf : Keyfile} {group key comment : String} {line : Nat} {items : List String}

theorem splitString_eq_commaPieces (s : String) : splitString s "," = commaPieces s := by
  have hcomma : (fun c => ",".toList.contains c) = fun c => c == ',' := by
    funext c
    have hlist : ",".toList = [','] := rfl
    rw [hlist, List.contains_cons, List.contains_nil, Bool.or_false]
  rw [splitString, commaPieces, hcomma, LineText.pieces_eq_filter, List.splitOn_eq_splitOnP]

theorem splitString_joinStrings_eq (items : List String) :
    splitString (joinStrings ',' items) "," = items.flatMap commaPieces := by
  have hpieces : ∀ s : String, commaPieces s =
      (LineText.pieces (fun c => ",".toList.contains c) s.toList).map String.ofList :=
    fun s => (splitString_eq_commaPieces s).symm
  have hjoined : (joinStrings ',' items).toList =
      LineText.joined ',' (items.map String.toList) := String.toList_ofList
  rw [splitString, hjoined, LineText.pieces_joined_eq_flatMap (by decide), List.flatMap_map,
    List.map_flatMap]
  exact List.flatMap_congr fun s _ => (hpieces s).symm

theorem value?_setListValue :
    (kf.setListValue group key items comment line).value? group key =
      some (joinStrings ',' items) := by
  rw [setListValue, value?, findItem_setItem, if_pos ⟨rfl, rfl⟩]
  rfl

/-- **What is read back**: the pieces of each element, one after the other. -/
theorem getListValue_setListValue (items container : List String) :
    (kf.setListValue group key items comment line).getListValue group key container =
      (true, container ++ items.flatMap commaPieces) := by
  rw [getListValue, value?_setListValue]
  simp only [splitString_joinStrings_eq]

theorem isListItem_of_mem_flatMap
    {s : String}
    (h : s ∈ items.flatMap commaPieces) :
    IsListItem s := by
  rw [← splitString_joinStrings_eq] at h
  exact isListItem_of_mem_splitString h

theorem flatMap_commaPieces
    (h : ∀ s ∈ items, IsListItem s) :
    items.flatMap commaPieces = items := by
  rw [← splitString_joinStrings_eq, splitString_joinStrings h]

/-- Cutting is the identity exactly on list items. -/
theorem flatMap_commaPieces_eq_iff :
    items.flatMap commaPieces = items ↔ ∀ s ∈ items, IsListItem s :=
  ⟨fun h _ hs => isListItem_of_mem_flatMap (h ▸ hs), flatMap_commaPieces⟩

theorem flatMap_commaPieces_idem (items : List String) :
    (items.flatMap commaPieces).flatMap commaPieces = items.flatMap commaPieces :=
  flatMap_commaPieces fun _ => isListItem_of_mem_flatMap

end Reading

section Sets

theorem mem_foldl_insert
    {item : String}
    (items : List String)
    (set : Std.ExtTreeSet String) :
    item ∈ items.foldl (fun set item => set.insert item) set ↔ item ∈ set ∨ item ∈ items := by
  induction items generalizing set with
  | nil => simp
  | cons first items ih =>
      rw [List.foldl_cons, ih, Std.ExtTreeSet.mem_insert, Std.LawfulEqCmp.compare_eq_iff_eq,
        List.mem_cons]
      constructor
      · rintro ((h | h) | h)
        · exact .inr (.inl h.symm)
        · exact .inl h
        · exact .inr (.inr h)
      · rintro (h | h | h)
        · exact .inl (.inr h)
        · exact .inl (.inl h.symm)
        · exact .inr h

/-- What is read back for a set: the pieces of its elements, with what was in the container. -/
theorem getSetValue_setSetValue
    (kf : Keyfile)
    (group key comment : String)
    (line : Nat)
    (items : List String)
    (container : Std.ExtTreeSet String) :
    ((kf.setSetValue group key items comment line).getSetValue group key container).1 = true ∧
      ∀ item, item ∈ ((kf.setSetValue group key items comment line).getSetValue group key
        container).2 ↔ item ∈ container ∨ item ∈ items.flatMap commaPieces := by
  rw [getSetValue, setSetValue, value?_setListValue]
  refine ⟨rfl, fun item => ?_⟩
  simp only [mem_foldl_insert, splitString_joinStrings_eq, List.mem_flatMap, List.mem_mergeSort]

end Sets

section RoundTrip

/-- Writing back what is in a keyfile changes nothing. -/
theorem setListValue_setListValue
    (kf : Keyfile)
    (group key comment : String)
    (line : Nat)
    (items : List String) :
    (kf.setListValue group key items comment line).setListValue group key items comment line =
      kf.setListValue group key items comment line :=
  setItem_setItem kf group key _ _

/-- The set that is read back is written back as itself. -/
theorem getSetValue_idem
    (kf kf' : Keyfile)
    (group key comment : String)
    (line : Nat)
    (items : List String) :
    let read := ((kf.setSetValue group key items comment line).getSetValue group key ∅).2
    (kf'.setSetValue group key read.toList comment line).getSetValue group key ∅ =
      (true, read) := by
  intro read
  have hread := (getSetValue_setSetValue kf group key comment line items ∅).2
  obtain ⟨hfound, hagain⟩ := getSetValue_setSetValue kf' group key comment line read.toList ∅
  refine Prod.ext hfound (Std.ExtTreeSet.ext_mem fun item => ?_)
  have hitems : ∀ s ∈ read.toList, IsListItem s := by
    intro s hs
    have hmem := (hread s).mp (Std.ExtTreeSet.mem_toList.mp hs)
    exact isListItem_of_mem_flatMap (by simpa using hmem)
  rw [hagain item, flatMap_commaPieces hitems]
  simp

/-- **Lists and sets in keyfiles**: what is read back, when it is what was written, and that
reading back is idempotent. -/
theorem list_round_trip
    (kf : Keyfile)
    (group key comment : String)
    (line : Nat) :
    (∀ items, (kf.setListValue group key items comment line).getListValue group key [] =
      (true, items.flatMap commaPieces)) ∧
      (∀ items, (kf.setListValue group key items comment line).getListValue group key [] =
        (true, items) ↔ ∀ s ∈ items, IsListItem s) ∧
      (∀ items,
        let kf₁ := kf.setListValue group key items comment line
        let read := (kf₁.getListValue group key []).2
        let kf₂ := kf₁.setListValue group key read comment line
        kf₂.getListValue group key [] = (true, read) ∧
          kf₂.setListValue group key read comment line = kf₂) ∧
      (∀ items, ((kf.setSetValue group key items comment line).getSetValue group key ∅).1 = true ∧
        ∀ item, item ∈ ((kf.setSetValue group key items comment line).getSetValue group key ∅).2 ↔
          item ∈ items.flatMap commaPieces) ∧
      (∀ items,
        (∀ item, item ∈ ((kf.setSetValue group key items comment line).getSetValue group key ∅).2 ↔
          item ∈ items) ↔ ∀ s ∈ items, IsListItem s) ∧
      ∀ items,
        let kf₁ := kf.setSetValue group key items comment line
        let read := (kf₁.getSetValue group key ∅).2
        let kf₂ := kf₁.setSetValue group key read.toList comment line
        kf₂.getSetValue group key ∅ = (true, read) ∧
          kf₂.setSetValue group key read.toList comment line = kf₂ := by
  have hlist : ∀ (kf : Keyfile) (items : List String),
      (kf.setListValue group key items comment line).getListValue group key [] =
        (true, items.flatMap commaPieces) :=
    fun kf items => getListValue_setListValue items []
  have hset : ∀ items : List String, ∀ item,
      item ∈ ((kf.setSetValue group key items comment line).getSetValue group key ∅).2 ↔
        item ∈ items.flatMap commaPieces := by
    intro items item
    rw [(getSetValue_setSetValue kf group key comment line items ∅).2 item]
    simp
  refine ⟨hlist kf, fun items => ?_, fun items => ?_, fun items => ⟨?_, hset items⟩,
    fun items => ?_, fun items => ?_⟩
  · rw [hlist, Prod.mk.injEq]
    simpa using flatMap_commaPieces_eq_iff
  · intro kf₁ read kf₂
    have hread : read = items.flatMap commaPieces := congrArg Prod.snd (hlist kf items)
    refine ⟨?_, setListValue_setListValue kf₁ group key comment line read⟩
    rw [hlist, hread, flatMap_commaPieces_idem]
  · exact (getSetValue_setSetValue kf group key comment line items ∅).1
  · constructor
    · intro h s hs
      exact isListItem_of_mem_flatMap ((hset items s).mp ((h s).mpr hs))
    · intro h item
      rw [hset, flatMap_commaPieces h]
  · intro kf₁ read kf₂
    exact ⟨getSetValue_idem kf kf₁ group key comment line items,
      setListValue_setListValue kf₁ group key comment line _⟩

end RoundTrip

end Keyfile

end Schroot
