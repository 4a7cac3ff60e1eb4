import Schroot.KeyfileMerge

/-!
# Printing a group and parsing it again

Keyfiles with one group, as they are written for a chroot, printed and parsed again.

**Results.**
* `Keyfile.parse_print_single`: the group comes back when its values have one line each.
* `Keyfile.parse_print_cut`: a value with a line break does not come back.
* `Keyfile.singleLines_parse`: the values of a parsed text have one line each.
-/

namespace Schroot

namespace Keyfile

section Single

/-- The keyfile with one group, as it is written: no comments and no line numbers. -/
def single (name : String) (values : Std.ExtTreeMap String String) : Keyfile :=
  ⟨(∅ : Std.ExtTreeMap String Group).insert name
    ⟨values.map fun _ value => ⟨value, "", 0⟩, "", 0⟩⟩

theorem findGroup_single (name : String) (values : Std.ExtTreeMap String String) (group : String) :
    (single name values).findGroup group =
      if group = name then some ⟨values.map fun _ value => ⟨value, "", 0⟩, "", 0⟩ else none := by
  simp [single, findGroup, SortedMap.getElem?_insert]

theorem hasGroup_single (name : String) (values : Std.ExtTreeMap String String) (group : String) :
    (single name values).hasGroup group = true ↔ group = name := by
  unfold hasGroup
  rw [findGroup_single]
  split <;> simp [*]

theorem value?_single
    (name : String) (values : Std.ExtTreeMap String String) (group key : String) :
    (single name values).value? group key = if group = name then values[key]? else none := by
  unfold value? findItem
  rw [findGroup_single]
  split
  · cases h : values[key]? <;> simp [h]
  · rfl

/-- Setting a value in such a keyfile. -/
theorem setValue_single
    (name : String) (values : Std.ExtTreeMap String String) (key value : String) :
    (single name values).setValue name key value = single name (values.insert key value) := by
  have hgroup := findGroup_single name values name
  rw [if_pos rfl] at hgroup
  have hset : (single name values).setGroup name "" 0 = single name values := by
    simp [setGroup, hasGroup, hgroup]
  have hitems : ((values.map fun _ value => (⟨value, "", 0⟩ : Item)).insert key ⟨value, "", 0⟩) =
      (values.insert key value).map fun _ value => ⟨value, "", 0⟩ := by
    apply Std.ExtTreeMap.ext_getElem?
    intro k
    simp only [SortedMap.getElem?_insert, Std.ExtTreeMap.getElem?_map]
    split <;> rfl
  simp only [setValue, setItem, hset, hgroup, hitems]
  unfold single
  congr 1
  apply Std.ExtTreeMap.ext_getElem?
  intro k
  simp only [SortedMap.getElem?_insert]
  split <;> rfl

theorem toList_groups_single (name : String) (values : Std.ExtTreeMap String String) :
    (single name values).groups.toList =
      [(name, ⟨values.map fun _ value => ⟨value, "", 0⟩, "", 0⟩)] := by
  have hlength : (single name values).groups.toList.length = 1 := by
    rw [Std.ExtTreeMap.length_toList]
    simp [single, Std.ExtTreeMap.size_insert]
  obtain ⟨e, he⟩ := List.length_eq_one_iff.mp hlength
  have hmem : (name, (⟨values.map fun _ value => ⟨value, "", 0⟩, "", 0⟩ : Group)) ∈
      (single name values).groups.toList := by
    rw [Std.ExtTreeMap.mem_toList_iff_getElem?_eq_some]
    simp [single]
  rw [he, List.mem_singleton] at hmem
  rw [he, hmem]

/-- How an item is printed. -/
def itemLine (entry : String × String) : String :=
  entry.1 ++ "=" ++ entry.2

/-- The lines of such a keyfile. -/
theorem chunks_single (name : String) (values : Std.ExtTreeMap String String) :
    (single name values).chunks = ("[" ++ name ++ "]") :: values.toList.map itemLine := by
  have hitem : ∀ e : String × String,
      Item.chunks e.1 ⟨e.2, "", 0⟩ = [itemLine e] := fun e => rfl
  have hflat : ∀ entries : List (String × String),
      entries.flatMap (fun e => [itemLine e]) = entries.map itemLine := fun entries => by
    induction entries with
    | nil => rfl
    | cons e entries ih => rw [List.flatMap_cons, ih]; rfl
  unfold chunks
  rw [toList_groups_single]
  simp only [List.flatMap_nil, List.append_nil, Group.chunks, commentChunks,
    Std.ExtTreeMap.toList_map, List.flatMap_map, hitem, hflat]
  rfl

end Single

end Keyfile

section Lines

/-- A group name that is read back from its header. -/
structure IsGroupName (name : String) : Prop where
  ne_nil : name.toList ≠ []
  bracket : ']' ∉ name.toList
  singleLine : SingleLine name

/-- A key name that is read back from an item. -/
structure IsKeyName (key : String) : Prop where
  head : ∃ c cs, key.toList = c :: cs ∧ c ≠ '#' ∧ c ≠ '['
  equals : '=' ∉ key.toList
  singleLine : SingleLine key

namespace ParserState

/-- A header that was printed is a header. -/
theorem parseLine_group
    {name : String}
    (st : ParserState)
    (h : IsGroupName name) :
    ∃ st', st.parseLine ("[" ++ name ++ "]") = .ok st' ∧ st'.group = name ∧
      st'.groupSet = true ∧ st'.keySet = false := by
  have hline : ("[" ++ name ++ "]").toList = '[' :: (name.toList ++ [']']) := by
    simp [String.toList_append]
  have hcount : (name.toList ++ [']']).count ']' = 1 := by
    rw [List.count_append, List.count_eq_zero.mpr h.bracket]
    rfl
  have htake : (name.toList ++ [']']).takeWhile (· ≠ ']') = name.toList := by
    have hname : ∀ c ∈ name.toList, (decide (c ≠ ']')) = true := fun c hc =>
      decide_eq_true fun e => h.bracket (e ▸ hc)
    rw [List.takeWhile_append_of_pos hname]
    simp
  unfold parseLine
  simp only [hline, parseGroup, hcount, htake, h.ne_nil, ne_eq, not_true_eq_false, if_false]
  exact ⟨_, rfl, by simp [countLine], rfl, by simp [countLine, clearSet]⟩

/-- An item that was printed is an item; only the first line of its value is read. -/
theorem parseLine_item
    {key : String}
    (st : ParserState)
    (hgroup : st.group ≠ "")
    (h : IsKeyName key)
    (value : String) :
    ∃ st', st.parseLine (key ++ "=" ++ value) = .ok st' ∧ st'.group = st.group ∧
      st'.groupSet = false ∧ st'.key = key ∧ st'.value = value ∧
        st'.keySet = true ∧ st'.valueSet = true := by
  obtain ⟨c, cs, hhead, hc, hc'⟩ := h.head
  have hline : (key ++ "=" ++ value).toList = key.toList ++ '=' :: value.toList := by
    simp [String.toList_append]
  have hkey : ∀ d ∈ key.toList, (decide (d ≠ '=')) = true := fun d hd =>
    decide_eq_true fun e => h.equals (e ▸ hd)
  have htake : (key.toList ++ '=' :: value.toList).takeWhile (· ≠ '=') = key.toList := by
    rw [List.takeWhile_append_of_pos hkey]
    simp
  have hdrop : (key.toList ++ '=' :: value.toList).dropWhile (· ≠ '=') = '=' :: value.toList := by
    rw [List.dropWhile_append_of_pos hkey]
    simp
  have hne : key.toList ≠ [] := by simp [hhead]
  have hitem : st.clearSet.parseItem (key ++ "=" ++ value) = .ok
      { st.clearSet with
        key := key
        value := value
        commentSet := true
        keySet := true
        valueSet := true } := by
    have hmem : '=' ∈ key.toList ++ '=' :: value.toList := by simp
    have hgroup' : st.clearSet.group ≠ "" := hgroup
    unfold parseItem
    simp only [hline, hmem, htake, hdrop, hne, hgroup', not_true_eq_false, if_false, List.tail_cons,
      String.ofList_toList]
  have hparse : st.parseLine (key ++ "=" ++ value) =
      (st.clearSet.parseItem (key ++ "=" ++ value)).map countLine := by
    unfold parseLine
    rw [hline, hhead]
    simp only [List.cons_append]
    split
    · rename_i heq
      cases heq
    · rename_i heq
      cases heq
      exact absurd rfl hc
    · rename_i heq
      cases heq
      exact absurd rfl hc'
    · rfl
  rw [hparse, hitem]
  exact ⟨_, rfl, rfl, rfl, rfl, rfl, rfl, rfl⟩

end ParserState

end Lines

namespace Keyfile

section Inserting

variable {kf : Keyfile} {st : ParserState}

theorem hasGroup_setGroup
    (kf : Keyfile) (group comment : String) (line : Nat) (g : String) :
    (kf.setGroup group comment line).hasGroup g = true ↔ g = group ∨ kf.hasGroup g = true := by
  unfold hasGroup
  rw [findGroup_setGroup]
  cases h : kf.findGroup group with
  | none => by_cases hg : g = group <;> simp [hg]
  | some a =>
      by_cases hg : g = group
      · subst hg
        simp [h]
      · simp [hg]

theorem value?_setGroup
    (kf : Keyfile) (group comment : String) (line : Nat) (g key : String) :
    (kf.setGroup group comment line).value? g key = kf.value? g key := by
  unfold value? findItem
  rw [findGroup_setGroup]
  split
  · rename_i h
    obtain ⟨rfl, hnone⟩ := h
    simp [hnone]
  · rfl

theorem hasGroup_setItem
    (kf : Keyfile) (group key : String) (item : Item) (g : String) :
    (kf.setItem group key item).hasGroup g = true ↔ g = group ∨ kf.hasGroup g = true := by
  unfold hasGroup
  rw [findGroup_setItem]
  by_cases hg : g = group <;> simp [hg]

theorem value?_setItem
    (kf : Keyfile) (group key : String) (item : Item) (g k : String) :
    (kf.setItem group key item).value? g k =
      if g = group ∧ k = key then some item.value else kf.value? g k := by
  unfold value?
  rw [findItem_setItem]
  split <;> rfl

theorem hasKey_iff_value? (kf : Keyfile) (g k : String) :
    kf.hasKey g k = (kf.value? g k).isSome := by
  unfold hasKey value?
  cases kf.findItem g k <;> rfl

/-- A complete item that the group does not have yet. -/
theorem insertParsed_item
    (hgroup : st.groupSet = false)
    (hkey : st.keySet = true)
    (hvalue : st.valueSet = true)
    (hnew : kf.value? st.group st.key = none) :
    kf.insertParsed st =
      .ok (kf.setItem st.group st.key ⟨st.value, st.comment, st.lineNumber⟩) := by
  have hfree : kf.hasKey st.group st.key = false := by
    rw [hasKey_iff_value?, hnew]
    rfl
  simp [insertParsed, insertGroup, insertItem, hgroup, hkey, hvalue, hfree, bind, Except.bind]

/-- A header of a group that the keyfile does not have yet. -/
theorem insertParsed_group
    (hgroup : st.groupSet = true)
    (hkey : st.keySet = false)
    (hnew : kf.hasGroup st.group = false) :
    kf.insertParsed st = .ok (kf.setGroup st.group st.comment st.lineNumber) := by
  simp [insertParsed, insertGroup, insertItem, hgroup, hkey, hnew, bind, Except.bind]

/-- **What has been read stays as it is.** -/
theorem value?_insertParsed
    {kf' : Keyfile} {g k v : String}
    (h : kf.insertParsed st = .ok kf')
    (hv : kf.value? g k = some v) :
    kf'.value? g k = some v := by
  obtain ⟨kf₁, h₁, h₂⟩ := bind_eq_ok_iff.mp h
  have hv₁ : kf₁.value? g k = some v := by
    unfold insertGroup at h₁
    split at h₁
    · split at h₁
      · cases h₁
      · cases h₁
        rwa [value?_setGroup]
    · cases h₁
      exact hv
  unfold insertItem at h₂
  split at h₂
  · split at h₂
    · cases h₂
    · rename_i hfree
      cases h₂
      rw [value?_setItem, if_neg]
      · exact hv₁
      · rintro ⟨rfl, rfl⟩
        rw [hasKey_iff_value?, hv₁] at hfree
        exact hfree rfl
  · cases h₂
    exact hv₁

theorem value?_readLines
    {state state' : ParserState × Keyfile} {lines : List String} {g k v : String}
    (h : readLines state lines = .ok state')
    (hv : state.2.value? g k = some v) :
    state'.2.value? g k = some v := by
  induction lines generalizing state with
  | nil =>
      cases h
      exact hv
  | cons line lines ih =>
      simp only [readLines, List.foldlM_cons, bind_eq_ok_iff] at h
      obtain ⟨state₁, h₁, h⟩ := h
      simp only [readLine, bind_eq_ok_iff] at h₁
      obtain ⟨st, -, kf, hkf, h₁⟩ := h₁
      cases h₁
      exact ih h (value?_insertParsed hkf hv)

end Inserting


section Reading

/-- The parser is inside the only group of a keyfile with the given values. -/
structure Inside (name : String) (read : String → Option String)
    (state : ParserState × Keyfile) : Prop where
  group : state.1.group = name
  hasGroup : ∀ g, state.2.hasGroup g = true ↔ g = name
  value? : ∀ k, state.2.value? name k = read k

/-- Reading the header. -/
theorem readLine_group
    {name : String}
    (h : IsGroupName name) :
    ∃ state, readLine ({}, empty) ("[" ++ name ++ "]") = .ok state ∧
      Inside name (fun _ => none) state := by
  obtain ⟨st, hparse, hgroup, hset, hkey⟩ := ParserState.parseLine_group {} h
  have hfree : empty.hasGroup st.group = false := by
    simp [Keyfile.hasGroup, findGroup, empty]
  have hinsert := insertParsed_group hset hkey hfree
  refine ⟨_, bind_eq_ok_iff.mpr ⟨st, hparse, bind_eq_ok_iff.mpr ⟨_, hinsert, rfl⟩⟩, hgroup, ?_, ?_⟩
  · intro g
    rw [hasGroup_setGroup, hgroup]
    simp [Keyfile.hasGroup, findGroup, empty]
  · intro k
    rw [value?_setGroup, value?_empty]

/-- Reading one item. -/
theorem readLine_item
    {name key : String} {read : String → Option String} {state : ParserState × Keyfile}
    (hname : name ≠ "")
    (hkey : IsKeyName key)
    (value : String)
    (hnew : read key = none)
    (h : Inside name read state) :
    ∃ state', readLine state (key ++ "=" ++ value) = .ok state' ∧
      Inside name (fun k => if k = key then some value else read k) state' := by
  have hgroup : state.1.group ≠ "" := h.group ▸ hname
  obtain ⟨st, hparse, hst, hset, rfl, rfl, hkeySet, hvalueSet⟩ :=
    ParserState.parseLine_item state.1 hgroup hkey value
  have hstname : st.group = name := hst.trans h.group
  have hfree : state.2.value? st.group st.key = none := by
    rw [hstname, h.value?, hnew]
  have hinsert := insertParsed_item hset hkeySet hvalueSet hfree
  refine ⟨_, bind_eq_ok_iff.mpr ⟨st, hparse, bind_eq_ok_iff.mpr ⟨_, hinsert, rfl⟩⟩, hstname, ?_, ?_⟩
  · intro g
    rw [hasGroup_setItem, h.hasGroup, hstname, or_self]
  · intro k
    rw [value?_setItem, hstname, h.value?]
    simp

/-- **Reading items**, by induction on the items. -/
theorem readLines_items
    {name : String}
    (hname : name ≠ "")
    (entries : List (String × String))
    {read : String → Option String} {state : ParserState × Keyfile}
    (hkeys : ∀ e ∈ entries, IsKeyName e.1)
    (hdistinct : (entries.map Prod.fst).Nodup)
    (hnew : ∀ e ∈ entries, read e.1 = none)
    (h : Inside name read state) :
    ∃ state', readLines state (entries.map itemLine) = .ok state' ∧
      Inside name (fun k => (SortedMap.lookup k entries).or (read k)) state' := by
  induction entries generalizing read state with
  | nil => exact ⟨state, rfl, h.group, h.hasGroup, fun k => by simpa using h.value? k⟩
  | cons e entries ih =>
      rw [List.map_cons, List.nodup_cons] at hdistinct
      obtain ⟨state₁, hread, h₁⟩ :=
        readLine_item hname (hkeys e (by simp)) e.2 (hnew e (by simp)) h
      have hnew₁ : ∀ e' ∈ entries, (if e'.1 = e.1 then some e.2 else read e'.1) = none := by
        intro e' he'
        rw [if_neg fun heq : e'.1 = e.1 => hdistinct.1 (heq ▸ List.mem_map_of_mem he')]
        exact hnew e' (by simp [he'])
      obtain ⟨state', hrest, h'⟩ :=
        ih (fun e' he' => hkeys e' (by simp [he'])) hdistinct.2 hnew₁ h₁
      refine ⟨state', ?_, h'.group, h'.hasGroup, fun k => ?_⟩
      · rw [List.map_cons, readLines, List.foldlM_cons, itemLine, hread]
        exact hrest
      · rw [h'.value?, SortedMap.lookup_cons]
        by_cases hk : e.1 = k
        · subst hk
          have hnone : SortedMap.lookup e.1 entries = none :=
            SortedMap.lookup_eq_none_iff.mpr hdistinct.1
          simp [hnone]
        · simp [hk, Ne.symm hk]

end Reading

section RoundTrip

variable {name : String} {values : Std.ExtTreeMap String String}

theorem singleLine_header (h : IsGroupName name) : '\n' ∉ ("[" ++ name ++ "]").toList := by
  have hname : '\n' ∉ name.toList := h.singleLine
  simp [String.toList_append, hname]

theorem singleLine_itemLine
    {e : String × String}
    (hkey : IsKeyName e.1)
    (hvalue : SingleLine e.2) :
    '\n' ∉ (itemLine e).toList := by
  have hkey' : '\n' ∉ e.1.toList := hkey.singleLine
  have hvalue' : '\n' ∉ e.2.toList := hvalue
  simp [itemLine, String.toList_append, hkey', hvalue']

/-- The lines of a text that was printed from single lines. -/
theorem textLines_print
    {kf : Keyfile}
    (h : ∀ chunk ∈ kf.chunks, SingleLine chunk) :
    textLines kf.print = kf.chunks := by
  have hback : (kf.chunks.map String.toList).map String.ofList = kf.chunks := by
    rw [List.map_map]
    exact List.map_id'' (fun chunk => String.ofList_toList) kf.chunks
  rw [textLines, print, String.toList_ofList, LineText.records_terminated, hback]
  intro r hr
  obtain ⟨chunk, hchunk, rfl⟩ := List.mem_map.mp hr
  exact h chunk hchunk

/-- **A group whose values have one line each comes back.** -/
theorem parse_print_single
    (hname : IsGroupName name)
    (hkeys : ∀ e ∈ values.toList, IsKeyName e.1)
    (hvalues : ∀ e ∈ values.toList, SingleLine e.2) :
    ∃ kf, empty.parse (single name values).print = .ok kf ∧
      (∀ g, kf.hasGroup g = true ↔ g = name) ∧ ∀ k, kf.value? name k = values[k]? := by
  have hlines : textLines (single name values).print =
      ("[" ++ name ++ "]") :: values.toList.map itemLine := by
    rw [textLines_print, chunks_single]
    intro line hline
    rw [chunks_single] at hline
    rcases List.mem_cons.mp hline with rfl | hline
    · exact singleLine_header hname
    · obtain ⟨e, he, rfl⟩ := List.mem_map.mp hline
      exact singleLine_itemLine (hkeys e he) (hvalues e he)
  have hne : name ≠ "" := fun e => hname.ne_nil (by simp [e])
  obtain ⟨state₁, hheader, h₁⟩ := readLine_group hname
  obtain ⟨state, hitems, h⟩ := readLines_items hne values.toList hkeys
    (SortedMap.nodup_keys_toList _) (fun _ _ => rfl) h₁
  refine ⟨empty.append state.2, ?_, fun g => ?_, fun k => ?_⟩
  · rw [parse, hlines, readLines, List.foldlM_cons, hheader]
    exact bind_eq_ok_iff.mpr ⟨state, hitems, rfl⟩
  · rw [empty_append, h.hasGroup]
  · rw [empty_append, h.value?, SortedMap.lookup_toList, Option.or_none]

/-- The lines of a printed text up to the first line break inside a piece. -/
theorem records_chunks_cut
    {lines : List String} {cut : String} {first rest : List Char}
    (more : List String)
    (hlines : ∀ line ∈ lines, SingleLine line)
    (hcut : cut.toList = first ++ '\n' :: rest)
    (hfirst : '\n' ∉ first) :
    ∃ others, (LineText.records '\n' (LineText.terminated '\n'
        ((lines ++ cut :: more).map String.toList))).map String.ofList =
      lines ++ String.ofList first :: others := by
  have hrecords : ∀ r ∈ lines.map String.toList, '\n' ∉ r := by
    intro r hr
    obtain ⟨line, hline, rfl⟩ := List.mem_map.mp hr
    exact hlines line hline
  have htext : LineText.terminated '\n' ((lines ++ cut :: more).map String.toList) =
      LineText.terminated '\n' (lines.map String.toList) ++
        (first ++ '\n' :: (rest ++ '\n' :: LineText.terminated '\n' (more.map String.toList))) := by
    rw [List.map_append, List.map_cons, LineText.terminated_append, LineText.terminated_cons, hcut]
    simp
  have hback : (lines.map String.toList).map String.ofList = lines := by
    rw [List.map_map]
    exact List.map_id'' (fun line => String.ofList_toList) lines
  rw [htext, LineText.records_terminated_append hrecords, LineText.records_record hfirst,
    List.map_append, hback]
  exact ⟨_, rfl⟩

theorem readLines_append
    (state : ParserState × Keyfile) (lines lines' : List String) :
    readLines state (lines ++ lines') =
      (readLines state lines).bind fun state' => readLines state' lines' := by
  unfold readLines
  rw [List.foldlM_append]
  rfl

theorem readLines_cons
    (state : ParserState × Keyfile) (line : String) (lines : List String) :
    readLines state (line :: lines) =
      (readLine state line).bind fun state' => readLines state' lines := by
  unfold readLines
  rw [List.foldlM_cons]
  rfl

/-- **A value with a line break does not come back**: parsing fails, or some value that
was written with a line break is read as another one. -/
theorem parse_print_cut
    {kf : Keyfile}
    (hname : IsGroupName name)
    (hkeys : ∀ e ∈ values.toList, IsKeyName e.1)
    (hcut : ∃ e ∈ values.toList, ¬ SingleLine e.2)
    (hparse : empty.parse (single name values).print = .ok kf) :
    ∃ e ∈ values.toList, ¬ SingleLine e.2 ∧ kf.value? name e.1 ≠ some e.2 := by
  -- the first item whose value has a line break
  obtain ⟨⟨key, value⟩, hfind⟩ : ∃ e, values.toList.find? (fun e => ¬ SingleLine e.2) = some e := by
    obtain ⟨e, he, hline⟩ := hcut
    exact Option.isSome_iff_exists.mp (List.find?_isSome.mpr ⟨e, he, by simpa using hline⟩)
  obtain ⟨hline, before, after, hsplit, hbefore⟩ := List.find?_eq_some_iff_append.mp hfind
  simp only [decide_eq_true_eq] at hline
  obtain ⟨first, rest, hvalue, hfirst⟩ := List.eq_append_cons_of_mem (Decidable.not_not.mp hline)
  have hmem : (key, value) ∈ values.toList := hsplit ▸ by simp
  have hkeysBefore : ∀ e ∈ before, IsKeyName e.1 := fun e he => hkeys e (hsplit ▸ by simp [he])
  have hkey : IsKeyName key := hkeys _ hmem
  have hne : name ≠ "" := fun e => hname.ne_nil (by simp [e])
  have hlines : ∃ others, textLines (single name values).print =
      ("[" ++ name ++ "]") :: before.map itemLine ++
        itemLine (key, String.ofList first) :: others := by
    have hcutLine : (itemLine (key, value)).toList =
        (itemLine (key, String.ofList first)).toList ++ '\n' :: rest := by
      simp [itemLine, String.toList_append, hvalue]
    have hchunks : (single name values).chunks = ("[" ++ name ++ "]") :: before.map itemLine ++
        itemLine (key, value) :: after.map itemLine := by
      rw [chunks_single, hsplit, List.map_append, List.map_cons]
      rfl
    rw [textLines, print, String.toList_ofList, hchunks]
    obtain ⟨others, hothers⟩ := records_chunks_cut (after.map itemLine) (fun line hl => by
      rcases List.mem_cons.mp hl with rfl | hl
      · exact singleLine_header hname
      · obtain ⟨e, he, rfl⟩ := List.mem_map.mp hl
        exact singleLine_itemLine (hkeysBefore e he) (by simpa using hbefore e he))
      hcutLine (singleLine_itemLine hkey (by simpa [SingleLine] using hfirst))
    refine ⟨others, hothers.trans ?_⟩
    rw [String.ofList_toList]
  -- reading goes on from a state in which the key has the first line as its value
  obtain ⟨others, hlines⟩ := hlines
  obtain ⟨state, hread, hkf⟩ := bind_eq_ok_iff.mp hparse
  cases hkf
  obtain ⟨state₁, hheader, h₁⟩ := readLine_group hname
  have hdistinct := SortedMap.nodup_keys_toList values
  rw [hsplit, List.map_append, List.map_cons] at hdistinct
  obtain ⟨state₂, hitems, h₂⟩ := readLines_items hne before hkeysBefore
    (List.Nodup.of_append_left hdistinct) (fun _ _ => rfl) h₁
  have hnew : (SortedMap.lookup key before).or none = none := by
    rw [Option.or_none]
    refine SortedMap.lookup_eq_none_iff.mpr fun hm => ?_
    exact List.disjoint_of_nodup_append hdistinct hm (by simp)
  obtain ⟨state₃, hitem, h₃⟩ := readLine_item hne hkey (String.ofList first) hnew h₂
  have hrest : readLines state₃ others = .ok state := by
    have hitem' : readLine state₂ (itemLine (key, String.ofList first)) = .ok state₃ := hitem
    rw [hlines, readLines_append, readLines_cons, hheader] at hread
    simp only [Except.bind, hitems] at hread
    rw [readLines_cons, hitem'] at hread
    exact hread
  refine ⟨(key, value), hmem, hline, ?_⟩
  have hvalue₃ : state₃.2.value? name key = some (String.ofList first) := by
    rw [h₃.value?, if_pos rfl]
  rw [empty_append, value?_readLines hrest hvalue₃]
  intro heq
  have hfirst' : first = value.toList := by
    have hvalue' : String.ofList first = value := Option.some.inj heq
    rw [← hvalue', String.toList_ofList]
  exact hfirst (by rw [hfirst', hvalue]; simp)

end RoundTrip

section Parsed

/-- The value of an item is a part of its line. -/
theorem singleLine_value_parseLine
    {st st' : ParserState} {line : String}
    (hline : SingleLine line)
    (h : st.parseLine line = .ok st')
    (hkey : st'.keySet = true) :
    SingleLine st'.value := by
  have hclear : st.clearSet.keySet = false := rfl
  unfold ParserState.parseLine at h
  simp only at h
  split at h
  · cases h
    cases hclear.symm.trans hkey
  · cases h
    cases hclear.symm.trans hkey
  · obtain ⟨st₁, hgroup, rfl⟩ := map_eq_ok_iff.mp h
    unfold ParserState.parseGroup at hgroup
    simp only at hgroup
    split at hgroup
    · cases hgroup
    · split at hgroup
      · cases hgroup
      · cases hgroup
        cases hclear.symm.trans hkey
  · obtain ⟨st₁, hitem, rfl⟩ := map_eq_ok_iff.mp h
    unfold ParserState.parseItem at hitem
    simp only at hitem
    split at hitem
    · cases hitem
    · split at hitem
      · cases hitem
      · split at hitem
        · cases hitem
        · cases hitem
          intro hmem
          refine hline ?_
          have hdrop : '\n' ∈ (line.toList.dropWhile (· ≠ '=')).tail := by
            simpa [ParserState.countLine] using hmem
          exact (List.dropWhile_sublist _).subset (List.mem_of_mem_tail hdrop)

theorem singleLine_of_mem_textLines
    {text line : String}
    (h : line ∈ textLines text) :
    SingleLine line := by
  obtain ⟨r, hr, rfl⟩ := List.mem_map.mp h
  unfold SingleLine
  rw [String.toList_ofList]
  exact LineText.not_mem_of_mem_records hr

/-- Every value has one line. -/
def SingleLines (kf : Keyfile) : Prop :=
  ∀ g k v, kf.value? g k = some v → SingleLine v

theorem singleLines_insertParsed
    {kf kf' : Keyfile} {st : ParserState}
    (hkf : kf.SingleLines)
    (hst : st.keySet = true → SingleLine st.value)
    (h : kf.insertParsed st = .ok kf') :
    kf'.SingleLines := by
  obtain ⟨kf₁, h₁, h₂⟩ := bind_eq_ok_iff.mp h
  have hkf₁ : kf₁.SingleLines := by
    unfold insertGroup at h₁
    split at h₁
    · split at h₁
      · cases h₁
      · cases h₁
        intro g k v hv
        rw [value?_setGroup] at hv
        exact hkf g k v hv
    · cases h₁
      exact hkf
  unfold insertItem at h₂
  split at h₂
  · rename_i hset
    split at h₂
    · cases h₂
    · cases h₂
      intro g k v hv
      rw [value?_setItem] at hv
      split at hv
      · cases hv
        exact hst (Bool.and_eq_true_iff.mp hset).1
      · exact hkf₁ g k v hv
  · cases h₂
    exact hkf₁

/-- **The values of a parsed text have one line each.** -/
theorem singleLines_parse
    {text : String} {kf : Keyfile}
    (h : empty.parse text = .ok kf) :
    kf.SingleLines := by
  have hloop : ∀ (lines : List String) (state state' : ParserState × Keyfile),
      (∀ line ∈ lines, SingleLine line) → state.2.SingleLines →
        readLines state lines = .ok state' → state'.2.SingleLines := by
    intro lines
    induction lines with
    | nil =>
        intro state state' _ hs hread
        cases hread
        exact hs
    | cons line lines ih =>
        intro state state' hlines hs hread
        rw [readLines_cons] at hread
        obtain ⟨state₁, hfirst, hrest⟩ := bind_eq_ok_iff.mp hread
        simp only [readLine, bind_eq_ok_iff] at hfirst
        obtain ⟨st, hparse, kf₁, hinsert, hstate⟩ := hfirst
        cases hstate
        refine ih _ _ (fun l hl => hlines l (by simp [hl])) ?_ hrest
        exact singleLines_insertParsed hs
          (singleLine_value_parseLine (hlines line (by simp)) hparse) hinsert
  obtain ⟨state, hread, hkf⟩ := bind_eq_ok_iff.mp h
  cases hkf
  intro g k v hv
  rw [empty_append] at hv
  refine hloop _ _ _ (fun _ => singleLine_of_mem_textLines) ?_ hread g k v hv
  intro g k v hv
  rw [value?_empty] at hv
  cases hv

end Parsed

end Keyfile

end Schroot
