import Schroot.KeyfileLines

/-!
# Printing what was parsed

What is printed of a keyfile that a text was parsed to, and what parsing makes of it.

**Results.**
* `printable_of_parse`: what the names, values and comments of a parsed keyfile look like.
* `parse_print`: what a parsed keyfile is after it is printed and parsed again.
* `parse_print_iff`: which parsed keyfiles come back as they are.
-/

namespace Schroot

section Kinds

theorem lineKind_comment (text : List Char) :
    lineKind ("#" ++ String.ofList text) = .comment (String.ofList text) := by
  have hline : ("#" ++ String.ofList text).toList = '#' :: text := by
    simp [String.toList_append]
  unfold lineKind
  simp only [hline]

/-- A printed header is a header. -/
theorem lineKind_printedHeader
    {name : String}
    (h : IsGroupName name) :
    lineKind ("[" ++ name ++ "]") = .header name := by
  have hline : ("[" ++ name ++ "]").toList = '[' :: (name.toList ++ [']']) := by
    simp [String.toList_append]
  have hcount : (name.toList ++ [']']).count ']' = 1 := by
    rw [List.count_append, List.count_eq_zero.mpr h.bracket]
    rfl
  have htake : (name.toList ++ [']']).takeWhile (· ≠ ']') = name.toList := by
    have hname : ∀ c ∈ name.toList, decide (c ≠ ']') = true := fun c hc =>
      decide_eq_true fun e => h.bracket (e ▸ hc)
    rw [List.takeWhile_append_of_pos hname]
    simp
  unfold lineKind
  simp only [hline, hcount, htake, h.ne_nil, ne_eq, not_false_eq_true, and_self, if_true,
    String.ofList_toList]

/-- A printed item is an item. -/
theorem lineKind_printedItem
    {key : String}
    (h : IsKeyName key)
    (value : String) :
    lineKind (key ++ "=" ++ value) = .item key value := by
  obtain ⟨c, cs, hhead, hcomment, hheader⟩ := h.head
  have hline : (key ++ "=" ++ value).toList = key.toList ++ '=' :: value.toList := by
    simp [String.toList_append]
  have hkey : ∀ d ∈ key.toList, decide (d ≠ '=') = true := fun d hd =>
    decide_eq_true fun e => h.equals (e ▸ hd)
  have htake : (key.toList ++ '=' :: value.toList).takeWhile (· ≠ '=') = key.toList := by
    rw [List.takeWhile_append_of_pos hkey]
    simp
  have hdrop : (key.toList ++ '=' :: value.toList).dropWhile (· ≠ '=') = '=' :: value.toList := by
    rw [List.dropWhile_append_of_pos hkey]
    simp
  have hne : key.toList ≠ [] := by simp [hhead]
  have hmem : '=' ∈ key.toList ++ '=' :: value.toList := by simp
  unfold lineKind
  rw [hline]
  split
  · rename_i heq
    simp at heq
  · rename_i heq
    rw [hhead] at heq
    exact absurd (List.cons.inj heq).1 hcomment
  · rename_i heq
    rw [hhead] at heq
    exact absurd (List.cons.inj heq).1 hheader
  · simp only [hmem, htake, hdrop, hne, ne_eq, not_false_eq_true, and_self, if_true, List.tail_cons,
      String.ofList_toList]

/-- The name in a header that is one line. -/
theorem isGroupName_of_header
    {line name : String}
    (hline : SingleLine line)
    (hkind : lineKind line = .header name) :
    IsGroupName name := by
  unfold lineKind at hkind
  split at hkind
  · cases hkind
  · cases hkind
  · rename_i text htext
    split at hkind
    · rename_i hheader
      cases hkind
      refine ⟨by simpa using hheader.2, fun hmem => ?_, fun hmem => ?_⟩
      · rw [String.toList_ofList] at hmem
        simpa using List.mem_takeWhile_imp hmem
      · rw [String.toList_ofList] at hmem
        have hbreak := (List.takeWhile_sublist _).mem hmem
        exact hline (by rw [htext]; exact List.mem_cons_of_mem _ hbreak)
    · cases hkind
  · split at hkind <;> cases hkind

/-- The key and the value in an item that is one line. -/
theorem isKeyName_of_item
    {line key value : String}
    (hline : SingleLine line)
    (hkind : lineKind line = .item key value) :
    IsKeyName key ∧ SingleLine value := by
  obtain ⟨c, cs, htext, hcomment, hheader, hmem, hne, rfl, rfl⟩ := lineKind_item hkind
  have htake : line.toList.takeWhile (· ≠ '=') = c :: cs.takeWhile (· ≠ '=') := by
    rw [htext, List.takeWhile_cons] at hne ⊢
    split at hne
    · rename_i hc
      rw [if_pos hc]
    · exact absurd rfl hne
  refine ⟨⟨⟨c, cs.takeWhile (· ≠ '='), ?_, hcomment, hheader⟩, fun hequals => ?_, fun hbreak => ?_⟩,
    fun hbreak => ?_⟩
  · rw [String.toList_ofList, htake]
  · rw [String.toList_ofList] at hequals
    simpa using List.mem_takeWhile_imp hequals
  · rw [String.toList_ofList] at hbreak
    exact hline ((List.takeWhile_sublist _).mem hbreak)
  · rw [String.toList_ofList] at hbreak
    exact hline ((List.dropWhile_sublist _).mem (List.mem_of_mem_tail hbreak))

end Kinds

section Comments

/-- The comment is empty or its first line is not. -/
def StartsInLine (comment : String) : Prop :=
  comment.toList.head? ≠ some '\n'

/-- The comment ends with a line break: its last line is empty. -/
def EndsInBreak (comment : String) : Prop :=
  comment.toList.getLast? = some '\n'

instance (comment : String) : Decidable (EndsInBreak comment) :=
  inferInstanceAs (Decidable (_ = _))

/-- What comes back of a comment. -/
def stripBreak (comment : String) : String :=
  if EndsInBreak comment then String.ofList comment.toList.dropLast else comment

theorem stripBreak_eq_iff (comment : String) :
    stripBreak comment = comment ↔ ¬ EndsInBreak comment := by
  unfold stripBreak
  split
  · rename_i hbreak
    refine iff_of_false (fun h => ?_) (not_not.mpr hbreak)
    have hlength := congrArg (fun s : String => s.toList.length) h
    rw [String.toList_ofList, List.length_dropLast] at hlength
    have hpos : comment.toList.length ≠ 0 := by
      intro hzero
      rw [EndsInBreak, List.length_eq_zero_iff.mp hzero] at hbreak
      cases hbreak
    omega
  · rename_i hbreak
    exact iff_of_true rfl hbreak

/-- The comment that a header or an item is given. -/
theorem startsInLine_pendingComment
    {lines : List String}
    (hlines : ∀ line ∈ lines, SingleLine line) :
    StartsInLine (pendingComment lines) := by
  have htexts : ∀ text ∈ pendingTexts lines, SingleLine text := by
    intro text htext
    obtain ⟨line, hline, hcomment⟩ := List.mem_filterMap.mp (List.mem_reverse.mp htext)
    have hmem := hlines line (List.mem_reverse.mp ((List.takeWhile_sublist _).mem hline))
    unfold lineKind at hcomment
    split at hcomment
    · cases hcomment
    · rename_i cs hcs
      cases hcomment
      intro hbreak
      rw [String.toList_ofList] at hbreak
      exact hmem (by rw [hcs]; exact List.mem_cons_of_mem _ hbreak)
    · split at hcomment <;> cases hcomment
    · split at hcomment <;> cases hcomment
  unfold StartsInLine pendingComment
  cases hdrop : (pendingTexts lines).dropWhile (· = "") with
  | nil => simp [joinLines, LineText.joined]
  | cons text rest =>
      have hmem : text ∈ pendingTexts lines :=
        (List.dropWhile_sublist _).mem (by rw [hdrop]; exact List.mem_cons_self)
      have hne : text ≠ "" := by
        have hhead := List.head_dropWhile_not (p := fun t : String => decide (t = ""))
          (l := pendingTexts lines) (by simp [hdrop])
        simpa [hdrop] using hhead
      obtain ⟨c, cs, hcs⟩ := List.exists_cons_of_ne_nil
        (fun h : text.toList = [] => hne (String.toList_injective (by simpa using h)))
      have hc : c ≠ '\n' := fun h => htexts text hmem (by rw [hcs, h]; exact List.mem_cons_self)
      have hjoined : (LineText.joined '\n' ((text :: rest).map String.toList)).head? = some c := by
        cases rest <;> simp [LineText.joined, hcs]
      rw [joinLines, String.toList_ofList, hjoined]
      simpa using hc

/-- Comment lines after lines that leave no comment. -/
theorem pendingTexts_append_commentChunks
    {lines : List String}
    (h : pendingTexts lines = [])
    (comment : String) :
    pendingTexts (lines ++ commentChunks comment) =
      (LineText.records '\n' comment.toList).map String.ofList := by
  unfold commentChunks
  induction LineText.records '\n' comment.toList using List.reverseRecOn with
  | nil => simpa using h
  | append_singleton records record ih =>
      have hkind := lineKind_comment record
      rw [List.map_append, List.map_append, ← List.append_assoc, List.map_singleton,
        List.map_singleton, pendingTexts_append (by rw [hkind]; rfl), ih, hkind]
      rfl

theorem pendingComment_append_commentChunks
    {lines : List String} {comment : String}
    (h : pendingTexts lines = [])
    (hcomment : StartsInLine comment) :
    pendingComment (lines ++ commentChunks comment) = stripBreak comment := by
  have hdrop : ((LineText.records '\n' comment.toList).map String.ofList).dropWhile (· = "") =
      (LineText.records '\n' comment.toList).map String.ofList := by
    unfold StartsInLine at hcomment
    cases hcs : comment.toList with
    | nil => rfl
    | cons c cs =>
        have hc : c ≠ '\n' := by simpa [hcs] using hcomment
        rw [LineText.records, if_neg hc]
        split
        · simp
        · rw [List.map_cons, List.dropWhile_cons_of_neg]
          simp
  have hback : ∀ records : List (List Char),
      (records.map String.ofList).map String.toList = records := fun records => by
    rw [List.map_map]
    exact List.map_id'' (fun record => String.toList_ofList) records
  rw [pendingComment, pendingTexts_append_commentChunks h, hdrop, joinLines, hback,
    LineText.joined_records, stripBreak]
  by_cases hbreak : EndsInBreak comment
  · have hlast : comment.toList.getLast? = some '\n' := hbreak
    rw [if_pos hlast, if_pos hbreak]
  · have hlast : comment.toList.getLast? ≠ some '\n' := hbreak
    rw [if_neg hlast, if_neg hbreak, String.ofList_toList]

end Comments

namespace Keyfile

section Printable

/-- What a printed keyfile needs to be read back. -/
structure Printable (kf : Keyfile) : Prop where
  group : ∀ name g, kf.findGroup name = some g → IsGroupName name ∧ StartsInLine g.comment
  item : ∀ name key item, kf.findItem name key = some item →
    IsKeyName key ∧ SingleLine item.value ∧ StartsInLine item.comment

/-- **Every parsed keyfile can be printed and read back.** -/
theorem printable_of_parse
    {text : String} {kf : Keyfile}
    (h : parse empty text = .ok kf) :
    Printable kf := by
  have hreads := (parse_lines text).2 kf h
  have hlines : ∀ line ∈ textLines text, SingleLine line := fun _ => singleLine_of_mem_textLines
  refine ⟨fun name g hg => ?_, fun name key item hitem => ?_⟩
  · obtain ⟨before, line, after, happend, hkind, hcomment, -⟩ :=
      (hreads.groups name _ _).mp ⟨g, hg, rfl, rfl⟩
    have hbefore : ∀ l ∈ before, SingleLine l := fun l hl =>
      hlines l (by rw [happend]; exact List.mem_append_left _ hl)
    rw [hcomment]
    exact ⟨isGroupName_of_header (hlines line (by simp [happend])) hkind,
      startsInLine_pendingComment hbefore⟩
  · obtain ⟨before, line, after, happend, hkind, -, hcomment, -⟩ :=
      (hreads.items name key item).mp hitem
    have hbefore : ∀ l ∈ before, SingleLine l := fun l hl =>
      hlines l (by rw [happend]; exact List.mem_append_left _ hl)
    rw [hcomment]
    obtain ⟨hkey, hvalue⟩ := isKeyName_of_item (hlines line (by simp [happend])) hkind
    exact ⟨hkey, hvalue, startsInLine_pendingComment hbefore⟩

end Printable

section Reading

/-- The comment of a group that is there. -/
def groupComment? (kf : Keyfile) (name : String) : Option String :=
  (kf.findGroup name).map Group.comment

/-- The value and the comment of a key that is there. -/
def itemText? (kf : Keyfile) (name key : String) : Option (String × String) :=
  (kf.findItem name key).map fun item => (item.value, item.comment)

/-- What comes back of the value and the comment of a key. -/
def Item.reread (item : Item) : String × String :=
  (item.value, stripBreak item.comment)

/-- The lines are read as the keyfile, and no comment is left over. -/
structure ReadAs (lines : List String) (kf : Keyfile) : Prop where
  wellFormed : WellFormed lines
  reads : Reads lines kf
  pending : pendingTexts lines = []
  singleLine : ∀ line ∈ lines, SingleLine line

variable {lines : List String} {kf : Keyfile}

theorem readAs_nil : ReadAs [] empty :=
  ⟨wellFormed_nil, reads_empty, rfl, by simp⟩

/-- The line between two groups. -/
theorem readAs_append_empty
    (h : ReadAs lines kf) :
    ReadAs (lines ++ [""]) kf := by
  have hkind : lineKind "" = .empty := rfl
  refine ⟨wellFormed_append_of_not_completes h.wellFormed (by simp [hkind]) (by simp [hkind])
    (by simp [hkind]), reads_append_of_not_completes h.reads (by simp [hkind]) (by simp [hkind]),
    ?_, ?_⟩
  · rw [pendingTexts_append (by rw [hkind]; rfl), h.pending]
    rfl
  · intro line hline
    rcases List.mem_append.mp hline with hline | hline
    · exact h.singleLine line hline
    · rw [List.mem_singleton.mp hline]
      decide

/-- The lines of a comment are read as nothing yet. -/
theorem reads_append_commentChunks
    (hwf : WellFormed lines)
    (hreads : Reads lines kf)
    (hlines : ∀ line ∈ lines, SingleLine line)
    (comment : String) :
    WellFormed (lines ++ commentChunks comment) ∧ Reads (lines ++ commentChunks comment) kf ∧
      (∀ line ∈ lines ++ commentChunks comment, SingleLine line) ∧
        lastGroup (lines ++ commentChunks comment) = lastGroup lines := by
  have hbreak : ∀ record ∈ LineText.records '\n' comment.toList, '\n' ∉ record := fun _ =>
    LineText.not_mem_of_mem_records
  unfold commentChunks
  generalize LineText.records '\n' comment.toList = records at hbreak
  induction records using List.reverseRecOn with
  | nil => simpa using ⟨hwf, hreads, hlines⟩
  | append_singleton records record ih =>
      have hkind := lineKind_comment record
      obtain ⟨hwf', hreads', hlines', hlast⟩ := ih fun r hr => hbreak r (List.mem_append_left _ hr)
      rw [List.map_append, List.map_singleton, ← List.append_assoc]
      refine ⟨wellFormed_append_of_not_completes hwf' (by simp [hkind]) (by simp [hkind])
        (by simp [hkind]), reads_append_of_not_completes hreads' (by simp [hkind]) (by simp [hkind]),
        fun line hline => ?_, ?_⟩
      · rcases List.mem_append.mp hline with hline | hline
        · exact hlines' line hline
        · rw [List.mem_singleton.mp hline]
          have hrecord := hbreak record (by simp)
          simp [SingleLine, String.toList_append, hrecord]
      · rw [lastGroup_append, hlast, hkind]
        rfl

/-- A printed header with its comment. -/
theorem readAs_append_header
    {name comment : String}
    (h : ReadAs lines kf)
    (hname : IsGroupName name)
    (hcomment : StartsInLine comment)
    (hnew : kf.findGroup name = none) :
    ∃ number, ReadAs (lines ++ commentChunks comment ++ ["[" ++ name ++ "]"])
        (kf.setGroup name (stripBreak comment) number) ∧
      lastGroup (lines ++ commentChunks comment ++ ["[" ++ name ++ "]"]) = some name := by
  obtain ⟨hwf, hreads, hlines, -⟩ :=
    reads_append_commentChunks h.wellFormed h.reads h.singleLine comment
  have hpending := pendingComment_append_commentChunks h.pending hcomment
  have hkind := lineKind_printedHeader hname
  have hgroup : kf.hasGroup name = false := by rw [hasGroup, hnew]; rfl
  have hfree : ∀ c n, ¬ HeaderAt (lines ++ commentChunks comment) name c n := fun c n hheader => by
    rw [(hasGroup_iff_headerAt hreads).mpr ⟨c, n, hheader⟩] at hgroup
    cases hgroup
  refine ⟨(lines ++ commentChunks comment).length + 1,
    ⟨wellFormed_append_header hwf hkind hfree, ?_, ?_, fun line hline => ?_⟩, ?_⟩
  · rw [← hpending]
    exact reads_append_header hreads hkind hgroup
  · exact pendingTexts_append_of_completes (by rw [hkind]; rfl)
  · rcases List.mem_append.mp hline with hline | hline
    · exact hlines line hline
    · rw [List.mem_singleton.mp hline]
      exact singleLine_header hname
  · rw [lastGroup_append, hkind]
    rfl

/-- A printed item with its comment. -/
theorem readAs_append_item
    {name key : String} {item : Item}
    (h : ReadAs lines kf)
    (hkey : IsKeyName key)
    (hvalue : SingleLine item.value)
    (hcomment : StartsInLine item.comment)
    (hgroup : lastGroup lines = some name)
    (hnew : kf.findItem name key = none) :
    ∃ number, ReadAs (lines ++ item.chunks key)
        (kf.setItem name key ⟨item.value, stripBreak item.comment, number⟩) ∧
      lastGroup (lines ++ item.chunks key) = some name := by
  obtain ⟨hwf, hreads, hlines, hlast⟩ :=
    reads_append_commentChunks h.wellFormed h.reads h.singleLine item.comment
  have hpending := pendingComment_append_commentChunks h.pending hcomment
  have hkind := lineKind_printedItem hkey item.value
  have hfree : kf.hasKey name key = false := by rw [hasKey, hnew]; rfl
  have hfree' : ∀ i, ¬ ItemAt (lines ++ commentChunks item.comment) name key i := fun i hitem => by
    rw [(hasKey_iff_itemAt hreads).mpr ⟨i, hitem⟩] at hfree
    cases hfree
  rw [hgroup] at hlast
  refine ⟨(lines ++ commentChunks item.comment).length + 1, ?_, ?_⟩
  · rw [Item.chunks, ← List.append_assoc]
    refine ⟨wellFormed_append_item hwf hkind hlast hfree', ?_, ?_, fun line hline => ?_⟩
    · rw [← hpending]
      exact reads_append_item hreads hkind hlast hfree
    · exact pendingTexts_append_of_completes (by rw [hkind]; rfl)
    · rcases List.mem_append.mp hline with hline | hline
      · exact hlines line hline
      · rw [List.mem_singleton.mp hline]
        exact singleLine_itemLine (e := (key, item.value)) hkey hvalue
  · rw [Item.chunks, ← List.append_assoc, lastGroup_append, hkind, hlast]
    rfl

/-- **Printed items are read back**, by induction on the items. -/
theorem readAs_append_items
    {name : String}
    (entries : List (String × Item))
    (h : ReadAs lines kf)
    (hgroup : lastGroup lines = some name)
    (hentries : ∀ e ∈ entries, IsKeyName e.1 ∧ SingleLine e.2.value ∧ StartsInLine e.2.comment)
    (hdistinct : (entries.map Prod.fst).Nodup)
    (hnew : ∀ e ∈ entries, kf.findItem name e.1 = none) :
    ∃ kf', ReadAs (lines ++ entries.flatMap fun e => e.2.chunks e.1) kf' ∧
      (∀ g, kf'.groupComment? g = kf.groupComment? g) ∧
      ∀ g k, kf'.itemText? g k = if g = name then
        ((SortedMap.lookup k entries).map Item.reread).or (kf.itemText? g k) else kf.itemText? g k := by
  induction entries generalizing lines kf with
  | nil => exact ⟨kf, by simpa using h, fun _ => rfl, fun g k => by simp⟩
  | cons e entries ih =>
      rw [List.map_cons, List.nodup_cons] at hdistinct
      obtain ⟨hkey, hvalue, hcomment⟩ := hentries e List.mem_cons_self
      obtain ⟨number, h₁, hgroup₁⟩ :=
        readAs_append_item h hkey hvalue hcomment hgroup (hnew e List.mem_cons_self)
      have hnew₁ : ∀ e' ∈ entries, (kf.setItem name e.1
          ⟨e.2.value, stripBreak e.2.comment, number⟩).findItem name e'.1 = none := by
        intro e' he'
        have hne : e'.1 ≠ e.1 := fun heq => hdistinct.1 (heq ▸ List.mem_map_of_mem he')
        rw [findItem_setItem, if_neg (by simp [hne])]
        exact hnew e' (List.mem_cons_of_mem _ he')
      obtain ⟨kf', h', hcomments, hitems⟩ :=
        ih h₁ hgroup₁ (fun e' he' => hentries e' (List.mem_cons_of_mem _ he')) hdistinct.2 hnew₁
      refine ⟨kf', ?_, fun g => ?_, fun g k => ?_⟩
      · rw [List.flatMap_cons, ← List.append_assoc]
        exact h'
      · rw [hcomments, groupComment?, findGroup_setItem]
        by_cases hg : g = name
        · subst hg
          obtain ⟨comment, n, hheader⟩ := headerAt_of_lastGroup hgroup
          obtain ⟨old, hold, -⟩ := (h.reads.groups _ _ _).mpr hheader
          simp [groupComment?, groupOrNew, hold]
        · rw [if_neg hg]
          rfl
      · rw [hitems, SortedMap.lookup_cons]
        simp only [itemText?, findItem_setItem]
        by_cases hg : g = name
        · subst hg
          by_cases hk : e.1 = k
          · subst hk
            have hnone : SortedMap.lookup e.1 entries = none :=
              SortedMap.lookup_eq_none_iff.mpr hdistinct.1
            simp [hnone, Item.reread]
          · simp [hk, Ne.symm hk]
        · simp [hg]

/-- **A printed group is read back.** -/
theorem readAs_append_group
    {name : String} {g : Group}
    (h : ReadAs lines kf)
    (hname : IsGroupName name)
    (hcomment : StartsInLine g.comment)
    (hitems : ∀ k item, g.items[k]? = some item →
      IsKeyName k ∧ SingleLine item.value ∧ StartsInLine item.comment)
    (hnew : kf.findGroup name = none) :
    ∃ kf', ReadAs (lines ++ g.chunks name) kf' ∧
      (∀ n, kf'.groupComment? n = if n = name then some (stripBreak g.comment)
        else kf.groupComment? n) ∧
      ∀ n k, kf'.itemText? n k = if n = name then (g.items[k]?).map Item.reread
        else kf.itemText? n k := by
  obtain ⟨number, h₁, hgroup₁⟩ := readAs_append_header h hname hcomment hnew
  have hfind : ∀ n, (kf.setGroup name (stripBreak g.comment) number).findGroup n =
      if n = name then some ⟨∅, stripBreak g.comment, number⟩ else kf.findGroup n := fun n => by
    rw [findGroup_setGroup]
    simp [hnew]
  obtain ⟨kf', h', hcomments, hitems'⟩ := readAs_append_items g.items.toList h₁ hgroup₁
    (fun e he => hitems e.1 e.2 (Std.ExtTreeMap.mem_toList_iff_getElem?_eq_some.mp he))
    (SortedMap.nodup_keys_toList _) (fun e _ => by simp [findItem, hfind])
  refine ⟨kf', ?_, fun n => ?_, fun n k => ?_⟩
  · have hchunks : lines ++ g.chunks name = (lines ++ commentChunks g.comment ++
        ["[" ++ name ++ "]"]) ++ g.items.toList.flatMap fun e => e.2.chunks e.1 := by
      simp [Group.chunks]
    rw [hchunks]
    exact h'
  · rw [hcomments, groupComment?, hfind]
    by_cases hn : n = name
    · simp [hn]
    · simp [hn, groupComment?]
  · rw [hitems', SortedMap.lookup_toList, itemText?, findItem, hfind]
    by_cases hn : n = name
    · simp [hn]
    · simp [hn, itemText?, findItem]

/-- **Printed groups are read back**, by induction on the groups. -/
theorem readAs_append_groups
    {entries : List (String × Group)}
    (h : ReadAs lines kf)
    (hgroups : ∀ e ∈ entries, IsGroupName e.1 ∧ StartsInLine e.2.comment)
    (hitems : ∀ e ∈ entries, ∀ k item, e.2.items[k]? = some item →
      IsKeyName k ∧ SingleLine item.value ∧ StartsInLine item.comment)
    (hdistinct : (entries.map Prod.fst).Nodup)
    (hnew : ∀ e ∈ entries, kf.groupComment? e.1 = none) :
    ∃ kf', ReadAs (lines ++ entries.flatMap fun e => "" :: e.2.chunks e.1) kf' ∧
      (∀ n, kf'.groupComment? n =
        ((SortedMap.lookup n entries).map fun g => stripBreak g.comment).or (kf.groupComment? n)) ∧
      ∀ n k, kf'.itemText? n k = match SortedMap.lookup n entries with
        | some g => (g.items[k]?).map Item.reread
        | none => kf.itemText? n k := by
  induction entries generalizing lines kf with
  | nil => exact ⟨kf, by simpa using h, fun _ => by simp, fun _ _ => rfl⟩
  | cons e entries ih =>
      rw [List.map_cons, List.nodup_cons] at hdistinct
      obtain ⟨hname, hcomment⟩ := hgroups e List.mem_cons_self
      have hfree : kf.findGroup e.1 = none := by
        simpa [groupComment?] using hnew e List.mem_cons_self
      obtain ⟨kf₁, h₁, hcomments₁, hitems₁⟩ := readAs_append_group (readAs_append_empty h) hname
        hcomment (hitems e List.mem_cons_self) hfree
      have hnew₁ : ∀ e' ∈ entries, kf₁.groupComment? e'.1 = none := by
        intro e' he'
        have hne : e'.1 ≠ e.1 := fun heq => hdistinct.1 (heq ▸ List.mem_map_of_mem he')
        rw [hcomments₁, if_neg hne]
        exact hnew e' (List.mem_cons_of_mem _ he')
      obtain ⟨kf', h', hcomments, hitems'⟩ :=
        ih h₁ (fun e' he' => hgroups e' (List.mem_cons_of_mem _ he'))
          (fun e' he' => hitems e' (List.mem_cons_of_mem _ he')) hdistinct.2 hnew₁
      have hnone : SortedMap.lookup e.1 entries = none :=
        SortedMap.lookup_eq_none_iff.mpr hdistinct.1
      refine ⟨kf', by simpa using h', fun n => ?_, fun n k => ?_⟩
      · rw [hcomments, hcomments₁, SortedMap.lookup_cons]
        by_cases hn : e.1 = n
        · subst hn
          simp [hnone]
        · simp [hn, Ne.symm hn]
      · rw [hitems', SortedMap.lookup_cons, hitems₁]
        by_cases hn : e.1 = n
        · subst hn
          simp [hnone]
        · simp [hn, Ne.symm hn]

/-- **The lines of a printed keyfile** are read as the keyfile without the line breaks at the
ends of its comments. -/
theorem readAs_chunks
    (h : Printable kf) :
    ∃ kf', ReadAs kf.chunks kf' ∧
      (∀ n, kf'.groupComment? n = (kf.groupComment? n).map stripBreak) ∧
      ∀ n k, kf'.itemText? n k = (kf.findItem n k).map Item.reread := by
  have hgroups : ∀ e ∈ kf.groups.toList, IsGroupName e.1 ∧ StartsInLine e.2.comment := fun e he =>
    h.group e.1 e.2 (Std.ExtTreeMap.mem_toList_iff_getElem?_eq_some.mp he)
  have hitems : ∀ e ∈ kf.groups.toList, ∀ k item, e.2.items[k]? = some item →
      IsKeyName k ∧ SingleLine item.value ∧ StartsInLine item.comment := by
    intro e he k item hitem
    refine h.item e.1 k item ?_
    have hfind : kf.findGroup e.1 = some e.2 := Std.ExtTreeMap.mem_toList_iff_getElem?_eq_some.mp he
    rw [findItem, hfind]
    exact hitem
  have hdistinct := SortedMap.nodup_keys_toList kf.groups
  have hlookup : ∀ n, kf.findGroup n = SortedMap.lookup n kf.groups.toList := fun n =>
    (SortedMap.lookup_toList kf.groups n).symm
  unfold chunks
  simp only [groupComment?, findItem, hlookup]
  cases hlist : kf.groups.toList with
  | nil => exact ⟨empty, readAs_nil, fun n => by simp [findGroup, empty],
      fun n k => by simp [itemText?, findItem, findGroup, empty]⟩
  | cons first rest =>
      rw [hlist] at hgroups hitems hdistinct
      rw [List.map_cons, List.nodup_cons] at hdistinct
      have hnone : SortedMap.lookup first.1 rest = none :=
        SortedMap.lookup_eq_none_iff.mpr hdistinct.1
      obtain ⟨hname, hcomment⟩ := hgroups first List.mem_cons_self
      obtain ⟨kf₁, h₁, hcomments₁, hitems₁⟩ := readAs_append_group readAs_nil hname hcomment
        (hitems first List.mem_cons_self) (by simp [findGroup, empty])
      have hnew₁ : ∀ e ∈ rest, kf₁.groupComment? e.1 = none := by
        intro e he
        have hne : e.1 ≠ first.1 := fun heq => hdistinct.1 (heq ▸ List.mem_map_of_mem he)
        rw [hcomments₁, if_neg hne]
        simp [groupComment?, findGroup, empty]
      obtain ⟨kf', h', hcomments, hitems'⟩ :=
        readAs_append_groups h₁ (fun e he => hgroups e (List.mem_cons_of_mem _ he))
          (fun e he => hitems e (List.mem_cons_of_mem _ he)) hdistinct.2 hnew₁
      refine ⟨kf', by simpa using h', fun n => ?_, fun n k => ?_⟩
      · have hsame := (hcomments n).trans (congrArg _ (hcomments₁ n))
        rw [groupComment?] at hsame
        rw [hsame, SortedMap.lookup_cons]
        by_cases hn : first.1 = n
        · subst hn
          simp [hnone]
        · cases SortedMap.lookup n rest <;>
            simp [hn, Ne.symm hn, groupComment?, findGroup, empty]
      · rw [hitems', hitems₁, SortedMap.lookup_cons]
        by_cases hn : first.1 = n
        · subst hn
          simp [hnone]
        · cases SortedMap.lookup n rest <;>
            simp [hn, Ne.symm hn, itemText?, findItem, findGroup, empty]

/-- What the lines of a text say of a group is what is read. -/
theorem groupComment?_eq_some_iff
    {name comment : String}
    (h : Reads lines kf) :
    kf.groupComment? name = some comment ↔ ∃ number, HeaderAt lines name comment number := by
  simp only [groupComment?, Option.map_eq_some_iff, ← h.groups]
  constructor
  · rintro ⟨g, hg, rfl⟩
    exact ⟨_, g, hg, rfl, rfl⟩
  · rintro ⟨number, g, hg, hcomment, -⟩
    exact ⟨g, hg, hcomment⟩

theorem findItem_congr
    {kf' : Keyfile}
    (h : Reads lines kf)
    (h' : Reads lines kf')
    (name key : String) :
    kf.findItem name key = kf'.findItem name key := by
  apply Option.ext
  intro item
  rw [h.items, h'.items]

end Reading

section RoundTrip

variable {kf : Keyfile}

/-- **A printable keyfile is read back** without the line breaks at the ends of its comments. -/
theorem parse_print
    (h : Printable kf) :
    ∃ kf', parse empty kf.print = .ok kf' ∧
      (∀ n, kf'.groupComment? n = (kf.groupComment? n).map stripBreak) ∧
      ∀ n k, kf'.itemText? n k = (kf.findItem n k).map Item.reread := by
  obtain ⟨read, hread, hcomments, hitems⟩ := readAs_chunks h
  have hlines := textLines_print hread.singleLine
  obtain ⟨hparse, hreads⟩ := parse_lines kf.print
  rw [hlines] at hparse hreads
  obtain ⟨kf', hkf'⟩ := (hparse empty).mpr hread.wellFormed
  refine ⟨kf', hkf', fun n => ?_, fun n k => ?_⟩
  · rw [← hcomments]
    apply Option.ext
    intro comment
    rw [groupComment?_eq_some_iff (hreads kf' hkf'), groupComment?_eq_some_iff hread.reads]
  · rw [← hitems, itemText?, itemText?, findItem_congr (hreads kf' hkf') hread.reads]

/-- The comment of a key that is there. -/
def itemComment? (kf : Keyfile) (name key : String) : Option String :=
  (kf.findItem name key).map Item.comment

/-- The comment is that of a group or of a key. -/
def HasComment (kf : Keyfile) (comment : String) : Prop :=
  (∃ n, kf.groupComment? n = some comment) ∨ ∃ n k, kf.itemComment? n k = some comment

/-- The groups and keys have the same comments. -/
def SameComments (kf kf' : Keyfile) : Prop :=
  (∀ n, kf.groupComment? n = kf'.groupComment? n) ∧ ∀ n k, kf.itemComment? n k = kf'.itemComment? n k

/-- **Every parsed keyfile that is printed is read back with its groups, keys and values, and
with its comments if and only if none of them ends with a line break.** -/
theorem parse_print_iff
    {text : String}
    (h : parse empty text = .ok kf) :
    ∃ kf', parse empty kf.print = .ok kf' ∧ kf'.getGroups = kf.getGroups ∧
      (∀ n, kf'.getKeys n = kf.getKeys n) ∧ (∀ n k, kf'.value? n k = kf.value? n k) ∧
        (SameComments kf' kf ↔ ∀ comment, kf.HasComment comment → ¬ EndsInBreak comment) := by
  obtain ⟨kf', hparse, hcomments, hitems⟩ := parse_print (printable_of_parse h)
  have hgroup : ∀ n, (kf'.findGroup n).isSome = (kf.findGroup n).isSome := fun n => by
    simpa [groupComment?] using congrArg Option.isSome (hcomments n)
  have hitem : ∀ n k, (kf'.findItem n k).isSome = (kf.findItem n k).isSome := fun n k => by
    simpa [itemText?] using congrArg Option.isSome (hitems n k)
  have hitemComment : ∀ n k, kf'.itemComment? n k = (kf.itemComment? n k).map stripBreak := by
    intro n k
    have hsecond := congrArg (Option.map Prod.snd) (hitems n k)
    rw [itemText?, Option.map_map, Option.map_map] at hsecond
    rw [itemComment?, itemComment?, Option.map_map]
    exact hsecond
  refine ⟨kf', hparse, SortedMap.keys_eq hgroup, fun n => ?_, fun n k => ?_, ?_⟩
  · have hn := hgroup n
    unfold getKeys
    cases hg : kf.findGroup n with
    | none =>
        rw [hg] at hn
        have hg' : kf'.findGroup n = none := by simpa using hn
        rw [hg']
    | some g =>
        rw [hg] at hn
        obtain ⟨g', hg'⟩ := Option.isSome_iff_exists.mp hn
        rw [hg']
        refine SortedMap.keys_eq fun k => ?_
        simpa [findItem, hg, hg'] using hitem n k
  · have hfirst := congrArg (Option.map Prod.fst) (hitems n k)
    rw [itemText?, Option.map_map, Option.map_map] at hfirst
    exact hfirst
  · have hsame : ∀ comment : Option String, comment.map stripBreak = comment ↔
        ∀ c, comment = some c → ¬ EndsInBreak c := by
      intro comment
      cases comment with
      | none => simp
      | some c => simp [stripBreak_eq_iff]
    simp only [SameComments, hcomments, hitemComment, hsame, HasComment]
    constructor
    · rintro ⟨hgroups, hkeys⟩ comment (⟨n, hn⟩ | ⟨n, k, hn⟩)
      · exact hgroups n comment hn
      · exact hkeys n k comment hn
    · exact fun hall => ⟨fun n c hn => hall c (.inl ⟨n, hn⟩), fun n k c hn => hall c (.inr ⟨n, k, hn⟩)⟩

/-- A text that has no fault is read. -/
theorem exists_parse_of_fault?
    (text : String)
    (h : fault? text = none) :
    ∃ kf, parse empty text = .ok kf := by
  unfold fault? at h
  split at h
  · exact ⟨_, ‹_›⟩
  · cases h

/-- A keyfile with a comment of two lines. -/
theorem parse_print_iff_twoLines :
    ∃ kf, parse empty "#a\n#b\n[g]\n#c\nk=v\n" = .ok kf ∧ ∃ kf', parse empty kf.print = .ok kf' ∧
      kf'.getGroups = kf.getGroups ∧ (∀ n, kf'.getKeys n = kf.getKeys n) ∧
        (∀ n k, kf'.value? n k = kf.value? n k) ∧
          (SameComments kf' kf ↔ ∀ comment, kf.HasComment comment → ¬ EndsInBreak comment) := by
  obtain ⟨kf, hkf⟩ := exists_parse_of_fault? "#a\n#b\n[g]\n#c\nk=v\n" (by decide +kernel)
  exact ⟨kf, hkf, parse_print_iff hkf⟩

/-- **A comment that ends in an empty line loses it.** -/
theorem not_parse_print :
    (∃ kf kf', parse empty "#a\n#\n[g]\n" = .ok kf ∧ parse empty kf.print = .ok kf' ∧
      kf.groupComment? "g" = some "a\n" ∧ kf'.groupComment? "g" = some "a") ∧
    ¬ ∀ text kf, parse empty text = .ok kf →
      ∃ kf', parse empty kf.print = .ok kf' ∧ SameComments kf' kf := by
  obtain ⟨kf, hkf⟩ := exists_parse_of_fault? "#a\n#\n[g]\n" (by decide +kernel)
  have hcomment : kf.groupComment? "g" = some "a\n" := by
    have hread : (parse empty "#a\n#\n[g]\n").toOption.bind (fun kf => kf.groupComment? "g") =
        some "a\n" := by decide +kernel
    rwa [hkf] at hread
  obtain ⟨kf', hparse, hcomments, -⟩ := parse_print (printable_of_parse hkf)
  have hcomment' : kf'.groupComment? "g" = some "a" := by
    rw [hcomments, hcomment]
    decide
  refine ⟨⟨kf, kf', hkf, hparse, hcomment, hcomment'⟩, fun hall => ?_⟩
  obtain ⟨other, hother, hsame⟩ := hall _ _ hkf
  rw [hparse] at hother
  cases hother
  have heq := hsame.1 "g"
  rw [hcomment, hcomment'] at heq
  exact absurd heq (by decide)

end RoundTrip

end Keyfile

end Schroot
