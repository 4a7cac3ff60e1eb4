import Schroot.PathNames
import Schroot.Library.IndexedText

/-!
# The parts of a path by position

`basename`, `dirname` and `normalname` with the positions at which they look at the name.  The
guard of the loop that removes separators at the end compares the position in front of the cursor
with `0`, and in front of `0` there is the largest position of all.

**Results.**
* `loop_trailingTurn`: the loop on a name that is not empty.
* `removeDuplicates_eq`: removing duplicates stays inside the text.
* `basename_eq`, `dirname_eq`, `normalname_eq`: the results for a name that is not empty.
* `inRange_iff`: when the three functions stay inside the name.
-/

namespace Schroot

open IndexedText

namespace Indexed

section Model

/-- A turn of the loop that removes trailing separators. -/
def trailingTurn (name : Text Char) (cur : Nat) : Except Fault (Nat ⊕ Nat) :=
  if sub cur 1 ≠ 0 then do
    let c ← name.get (sub cur 1)
    if c = '/' then .ok (.inl (sub cur 1)) else .ok (.inr cur)
  else
    .ok (.inr cur)

/-- The name without its trailing separators. -/
def withoutTrailing (name : Text Char) : Except Fault (Text Char) := do
  let cur ← loop (trailingTurn name) (name.size + 1) name.size
  .ok (name.take cur)

/-- A turn of the inner loop of `remove_duplicates`. -/
def skipTurn (str : Text Char) (dup : Char) (pos : Nat) : Except Fault (Nat ⊕ Nat) :=
  if add pos 1 < str.size then do
    let c ← str.get (add pos 1)
    if c = dup then .ok (.inl (add pos 1)) else .ok (.inr pos)
  else
    .ok (.inr pos)

/-- The inner loop is only entered at a duplicate character. -/
def skipDuplicates (str : Text Char) (dup c : Char) (pos : Nat) : Except Fault Nat :=
  if c = dup then loop (skipTurn str dup) (str.size + 1) pos else .ok pos

/-- A turn of the outer loop of `remove_duplicates`. -/
def duplicatesTurn (str : Text Char) (dup : Char) (st : Nat × List Char) :
    Except Fault (Nat × List Char ⊕ List Char) :=
  if st.1 < str.size then do
    let c ← str.get st.1
    let pos ← skipDuplicates str dup c st.1
    .ok (.inl (add pos 1, st.2 ++ [c]))
  else
    .ok (.inr st.2)

/-- `remove_duplicates`. -/
def removeDuplicates (str : Text Char) (dup : Char) : Except Fault (List Char) :=
  loop (duplicatesTurn str dup) (str.size + 1) (0, [])

def isSeparator (c : Char) : Bool :=
  c = '/'

/-- The name is the separator alone; `name[0]` is looked at last. -/
def isRoot (name : Text Char) (pos : Nat) : Except Fault Bool :=
  if pos = 0 ∧ name.size = 1 then do
    let c ← name.get 0
    .ok (isSeparator c)
  else
    .ok false

/-- What `basename` takes of a name whose last separator is at a position. -/
def basePart (name : Text Char) (pos : Nat) : Except Fault (Text Char) :=
  if pos = npos then
    .ok name
  else do
    let root ← isRoot name pos
    if root then .ok (Text.single '/') else name.substr (add pos 1) npos

/-- What `dirname` takes of a name whose last separator is at a position. -/
def dirPart (name : Text Char) (pos : Nat) : Except Fault (Text Char) :=
  if pos = npos then
    .ok (Text.single '.')
  else if pos = 0 then
    .ok (Text.single '/')
  else
    name.substr 0 pos

def basename (name : Text Char) : Except Fault (List Char) := do
  let name ← withoutTrailing name
  let ret ← basePart name (name.rfind isSeparator)
  removeDuplicates ret '/'

def dirname (name : Text Char) : Except Fault (List Char) := do
  let name ← withoutTrailing name
  let ret ← dirPart name (name.rfind isSeparator)
  removeDuplicates ret '/'

def normalname (name : Text Char) : Except Fault (List Char) := do
  let name ← withoutTrailing name
  removeDuplicates name '/'

end Model

section Trailing

variable {name : Text Char}

/-- The loop on a cursor that is not `0`. -/
theorem loop_trailingTurn
    (name : Text Char)
    (cur fuel : Nat)
    (hcur : cur + 1 ≤ name.size)
    (hfuel : cur < fuel) :
    loop (trailingTurn name) fuel (cur + 1) =
      .ok (Schroot.trailingCursor name.symbols (cur + 1)) := by
  have hsub : ∀ n, n + 1 ≤ name.size → sub (n + 1) 1 = n := by
    intro n hn
    have hlt := name.size_lt_positions
    rw [sub_of_le (by omega) (by omega)]
    rfl
  induction cur generalizing fuel with
  | zero =>
      obtain ⟨fuel, rfl⟩ := Nat.exists_eq_succ_of_ne_zero (Nat.ne_of_gt hfuel)
      have hturn : trailingTurn name (0 + 1) = .ok (.inr 1) := by
        rw [trailingTurn, hsub 0 hcur]
        rfl
      rw [loop, hturn]
      rfl
  | succ cur ih =>
      obtain ⟨fuel, rfl⟩ := Nat.exists_eq_succ_of_ne_zero (Nat.ne_of_gt (Nat.lt_of_le_of_lt
        (Nat.zero_le _) hfuel))
      have hlt : cur + 1 < name.symbols.length := hcur
      have hget : name.get (cur + 1) = .ok name.symbols[cur + 1] :=
        Text.get_of_drop (List.drop_eq_getElem_cons hlt)
      have hturn : trailingTurn name (cur + 1 + 1) =
          if name.symbols[cur + 1] = '/' then .ok (.inl (cur + 1))
          else .ok (.inr (cur + 1 + 1)) := by
        rw [trailingTurn, hsub (cur + 1) hcur, if_pos (Nat.succ_ne_zero cur), hget]
        rfl
      rw [loop, hturn]
      by_cases hc : name.symbols[cur + 1] = '/'
      · have hc' : name.symbols[cur + 1]? = some '/' := by
          rw [List.getElem?_eq_getElem hlt, hc]
        rw [if_pos hc, Schroot.trailingCursor, if_pos hc']
        exact ih fuel (by omega) (by omega)
      · have hc' : name.symbols[cur + 1]? ≠ some '/' := by
          rw [List.getElem?_eq_getElem hlt]
          simpa using hc
        rw [if_neg hc, Schroot.trailingCursor, if_neg hc']

theorem withoutTrailing_eq
    (h : name.symbols ≠ []) :
    ∃ text, withoutTrailing name = .ok text ∧
      text.symbols = Schroot.withoutTrailing name.symbols := by
  obtain ⟨n, hn⟩ := Nat.exists_eq_succ_of_ne_zero
    (Nat.ne_of_gt (List.length_pos_iff.mpr h))
  have hsize : name.size = n + 1 := hn
  have hloop := loop_trailingTurn name n (name.size + 1) (by omega) (by omega)
  refine ⟨name.take (Schroot.trailingCursor name.symbols name.size), ?_, rfl⟩
  rw [← hsize] at hloop
  rw [withoutTrailing, hloop]
  rfl

/-- The loop on the empty name looks at the largest position. -/
theorem withoutTrailing_of_nil
    (h : name.symbols = []) :
    withoutTrailing name = .error (.outOfRange npos) := by
  have hsize : name.size = 0 := by simp [Text.size, h]
  have hget : name.get npos = .error (.outOfRange npos) :=
    Text.get_of_size_le (Nat.le_of_lt name.size_lt_npos)
  have hturn : trailingTurn name 0 = .error (.outOfRange npos) := by
    rw [trailingTurn, sub_zero_one, if_pos (by decide), hget]
    rfl
  rw [withoutTrailing, hsize, loop, hturn]
  rfl

end Trailing

section Duplicates

variable {str : Text Char} {dup : Char}

/-- The inner loop stops in front of the first other character. -/
theorem loop_skipTurn
    (k pos fuel : Nat)
    (rest : List Char)
    (hdrop : str.symbols.drop (pos + 1) = List.replicate k dup ++ rest)
    (hrest : rest.head? ≠ some dup)
    (hpos : pos < str.size)
    (hfuel : k < fuel) :
    loop (skipTurn str dup) fuel pos = .ok (pos + k) := by
  have hlt := str.size_lt_positions
  induction k generalizing pos fuel with
  | zero =>
      obtain ⟨fuel, rfl⟩ := Nat.exists_eq_succ_of_ne_zero (Nat.ne_of_gt hfuel)
      have hturn : skipTurn str dup pos = .ok (.inr pos) := by
        rw [skipTurn, add_of_lt (by omega)]
        split
        · next hin =>
            have hne : rest ≠ [] := by
              rintro rfl
              exact absurd (List.drop_eq_nil_iff.mp hdrop) (Nat.not_le.mpr hin)
            obtain ⟨c, cs, rfl⟩ := List.exists_cons_of_ne_nil hne
            have hc : c ≠ dup := by simpa using hrest
            rw [Text.get_of_drop (hdrop.trans rfl)]
            show (if c = dup then _ else _) = _
            rw [if_neg hc]
        · rfl
      rw [loop, hturn]
      rfl
  | succ k ih =>
      obtain ⟨fuel, rfl⟩ := Nat.exists_eq_succ_of_ne_zero (Nat.ne_of_gt (Nat.lt_of_le_of_lt
        (Nat.zero_le _) hfuel))
      have hdrop' : str.symbols.drop (pos + 1) = dup :: (List.replicate k dup ++ rest) := by
        rw [hdrop, List.replicate_succ, List.cons_append]
      have hin : pos + 1 < str.size := by
        have hlength := congrArg List.length hdrop'
        rw [List.length_drop, List.length_cons] at hlength
        unfold Text.size
        omega
      have hturn : skipTurn str dup pos = .ok (.inl (pos + 1)) := by
        rw [skipTurn, add_of_lt (by omega), if_pos hin, Text.get_of_drop hdrop']
        show (if dup = dup then _ else _) = _
        rw [if_pos rfl]
      have hnext : str.symbols.drop (pos + 1 + 1) = List.replicate k dup ++ rest := by
        rw [← List.drop_drop, hdrop', List.drop_one, List.tail_cons]
      rw [loop, hturn]
      show loop (skipTurn str dup) fuel (pos + 1) = _
      rw [ih (pos + 1) fuel hnext hin (by omega)]
      congr 1
      omega

theorem loop_duplicatesTurn
    (str : Text Char)
    (dup : Char)
    (pos fuel : Nat)
    (ret : List Char)
    (hpos : pos ≤ str.size)
    (hfuel : str.size - pos < fuel) :
    loop (duplicatesTurn str dup) fuel (pos, ret) =
      .ok (ret ++ Schroot.removeDuplicates dup (str.symbols.drop pos)) := by
  have hlt := str.size_lt_positions
  -- by induction on the fuel: every turn moves the position
  induction fuel generalizing pos ret with
  | zero => omega
  | succ fuel ih =>
      cases hdrop : str.symbols.drop pos with
      | nil =>
          have hend : ¬ pos < str.size := Nat.not_lt.mpr (List.drop_eq_nil_iff.mp hdrop)
          rw [loop, duplicatesTurn, if_neg hend]
          simp [Schroot.removeDuplicates]
      | cons c cs =>
          have hnext : str.symbols.drop (pos + 1) = cs := by
            rw [← List.drop_drop, hdrop, List.drop_one, List.tail_cons]
          have hin : pos < str.size := by
            have hlength := congrArg List.length hdrop
            rw [List.length_drop, List.length_cons] at hlength
            unfold Text.size
            omega
          by_cases hc : c = dup
          · subst hc
            obtain ⟨k, rest, hcs, hrest⟩ := exists_eq_replicate_append c cs
            have hlength : str.size - pos = 1 + (k + rest.length) := by
              have hlength := congrArg List.length hdrop
              rw [List.length_drop, List.length_cons, hcs, List.length_append,
                List.length_replicate] at hlength
              unfold Text.size
              omega
            have hskip := loop_skipTurn k pos (str.size + 1) rest (hnext.trans hcs) hrest hin
              (by omega)
            have hturn : duplicatesTurn str c (pos, ret) =
                .ok (.inl (pos + k + 1, ret ++ [c])) := by
              have hskip' : skipDuplicates str c c pos = .ok (pos + k) := by
                rw [skipDuplicates, if_pos rfl, hskip]
              rw [duplicatesTurn, if_pos hin, Text.get_of_drop hdrop, ok_bind, hskip',
                ok_bind, add_of_lt (by omega)]
            have hrest' : str.symbols.drop (pos + k + 1) = rest := by
              have hsum : pos + k + 1 = pos + 1 + k := by omega
              rw [hsum, ← List.drop_drop, hnext, hcs]
              exact List.drop_left' List.length_replicate
            rw [loop, hturn]
            show loop (duplicatesTurn str c) fuel (pos + k + 1, ret ++ [c]) = _
            rw [ih (pos + k + 1) (ret ++ [c]) (by omega) (by omega), hrest', hcs,
              removeDuplicates_replicate hrest, List.append_assoc]
            rfl
          · have hturn : duplicatesTurn str dup (pos, ret) =
                .ok (.inl (pos + 1, ret ++ [c])) := by
              have hskip : skipDuplicates str dup c pos = .ok pos := if_neg hc
              rw [duplicatesTurn, if_pos hin, Text.get_of_drop hdrop, ok_bind, hskip,
                ok_bind, add_of_lt (by omega)]
            rw [loop, hturn]
            show loop (duplicatesTurn str dup) fuel (pos + 1, ret ++ [c]) = _
            rw [ih (pos + 1) (ret ++ [c]) (by omega) (by omega), hnext,
              removeDuplicates_cons_of_ne hc, List.append_assoc]
            rfl

/-- **Removing duplicates stays inside the text.** -/
theorem removeDuplicates_eq (str : Text Char) (dup : Char) :
    removeDuplicates str dup = .ok (Schroot.removeDuplicates dup str.symbols) := by
  have hloop := loop_duplicatesTurn str dup 0 (str.size + 1) [] (by omega) (by omega)
  rw [removeDuplicates, hloop]
  rfl

end Duplicates

section Parts

variable {name : Text Char}

theorem isSeparator_eq_false
    {w : List Char}
    (h : '/' ∉ w) :
    ∀ c ∈ w, isSeparator c = false := by
  intro c hc
  have hne : c ≠ '/' := fun e => h (e ▸ hc)
  simpa [isSeparator] using hne

/-- What `basename` keeps. -/
theorem basePart_eq (text : Text Char) :
    ∃ part, basePart text (text.rfind isSeparator) = .ok part ∧
      part.symbols =
        match beforeLastSeparator text.symbols with
        | none => text.symbols
        | some _ => if text.symbols = ['/'] then ['/'] else afterLastSeparator text.symbols := by
  rcases splitLast_cases text.symbols with
    ⟨hw, hbefore, -⟩ | ⟨dir, base, hw, hbase, hbefore, hafter⟩
  · have hpos : text.rfind isSeparator = npos := Text.rfind_of_forall (isSeparator_eq_false hw)
    exact ⟨text, by rw [basePart, if_pos hpos], by rw [hbefore]⟩
  · have hpos : text.rfind isSeparator = dir.length :=
      Text.rfind_of_append hw rfl (isSeparator_eq_false hbase)
    have hsize : text.size = dir.length + (base.length + 1) := by simp [Text.size, hw]
    have hlt := text.size_lt_npos
    have hlt' := text.size_lt_positions
    simp only [hbefore, hafter]
    rw [hpos, basePart, if_neg (by omega)]
    by_cases hroot : text.symbols = ['/']
    · have hone : text.size = 1 := by simp [Text.size, hroot]
      have hdrop : text.symbols.drop 0 = '/' :: [] := hroot
      have hget : text.get 0 = .ok '/' := Text.get_of_drop hdrop
      have hisRoot : isRoot text dir.length = .ok true := by
        rw [isRoot, if_pos ⟨by omega, hone⟩, hget]
        rfl
      rw [hisRoot, ok_bind, if_pos hroot]
      exact ⟨Text.single '/', rfl, rfl⟩
    · have hisRoot : isRoot text dir.length = .ok false := by
        rw [isRoot]
        split
        · next honly =>
            have hdir : dir = [] := List.length_eq_zero_iff.mp honly.1
            have hnil : base = [] := List.length_eq_zero_iff.mp (by omega)
            rw [hdir, hnil] at hw
            exact absurd hw hroot
        · rfl
      rw [hisRoot, ok_bind, if_neg hroot, if_neg Bool.false_ne_true, add_of_lt (by omega),
        Text.substr_of_le (by omega), Text.take_npos]
      refine ⟨_, rfl, ?_⟩
      show text.symbols.drop (dir.length + 1) = base
      rw [hw, ← List.drop_drop, List.drop_left]
      rfl

/-- What `dirname` keeps. -/
theorem dirPart_eq (text : Text Char) :
    ∃ part, dirPart text (text.rfind isSeparator) = .ok part ∧
      part.symbols =
        match beforeLastSeparator text.symbols with
        | none => ['.']
        | some [] => ['/']
        | some dir => dir := by
  rcases splitLast_cases text.symbols with
    ⟨hw, hbefore, -⟩ | ⟨dir, base, hw, hbase, hbefore, -⟩
  · have hpos : text.rfind isSeparator = npos := Text.rfind_of_forall (isSeparator_eq_false hw)
    exact ⟨Text.single '.', by rw [dirPart, if_pos hpos], by rw [hbefore]; rfl⟩
  · have hpos : text.rfind isSeparator = dir.length :=
      Text.rfind_of_append hw rfl (isSeparator_eq_false hbase)
    have hsize : text.size = dir.length + (base.length + 1) := by simp [Text.size, hw]
    have hlt := text.size_lt_npos
    rw [hpos, hbefore, dirPart, if_neg (by omega)]
    cases dir with
    | nil => exact ⟨Text.single '/', rfl, rfl⟩
    | cons d ds =>
        rw [if_neg (by simp), Text.substr_of_le (Nat.zero_le _)]
        refine ⟨_, rfl, ?_⟩
        show text.symbols.take (d :: ds).length = d :: ds
        rw [hw, List.take_left]

theorem basename_eq
    (h : name.symbols ≠ []) :
    basename name = .ok (Schroot.basename (String.ofList name.symbols)).toList := by
  obtain ⟨text, htext, hsymbols⟩ := withoutTrailing_eq h
  obtain ⟨part, hpart, hpartSymbols⟩ := basePart_eq text
  obtain ⟨path, hpath⟩ : ∃ path : String, name.symbols = path.toList :=
    ⟨_, String.toList_ofList.symm⟩
  rw [basename, htext, ok_bind, hpart, ok_bind, removeDuplicates_eq, hpartSymbols, hsymbols, hpath,
    String.ofList_toList]
  exact congrArg Except.ok String.toList_ofList.symm

theorem dirname_eq
    (h : name.symbols ≠ []) :
    dirname name = .ok (Schroot.dirname (String.ofList name.symbols)).toList := by
  obtain ⟨text, htext, hsymbols⟩ := withoutTrailing_eq h
  obtain ⟨part, hpart, hpartSymbols⟩ := dirPart_eq text
  obtain ⟨path, hpath⟩ : ∃ path : String, name.symbols = path.toList :=
    ⟨_, String.toList_ofList.symm⟩
  rw [dirname, htext, ok_bind, hpart, ok_bind, removeDuplicates_eq, hpartSymbols, hsymbols, hpath,
    String.ofList_toList]
  exact congrArg Except.ok String.toList_ofList.symm

theorem normalname_eq
    (h : name.symbols ≠ []) :
    normalname name = .ok (Schroot.normalname (String.ofList name.symbols)).toList := by
  obtain ⟨text, htext, hsymbols⟩ := withoutTrailing_eq h
  rw [normalname, htext, ok_bind, removeDuplicates_eq, hsymbols]
  simp only [Schroot.normalname, String.toList_ofList]

end Parts

section Range

/-- No position outside a text is looked at. -/
def InRange {α : Type} (result : Except Fault α) : Prop :=
  ∀ position, result ≠ .error (.outOfRange position)

theorem inRange_ok {α : Type} (a : α) : InRange (.ok a) := by
  intro position h
  cases h

theorem not_inRange_of_nil
    {name : Text Char}
    (h : name.symbols = []) :
    ¬ InRange (basename name) ∧ ¬ InRange (dirname name) ∧ ¬ InRange (normalname name) := by
  have hfault := withoutTrailing_of_nil h
  refine ⟨fun hin => hin npos ?_, fun hin => hin npos ?_, fun hin => hin npos ?_⟩
  · rw [basename, hfault, error_bind]
  · rw [dirname, hfault, error_bind]
  · rw [normalname, hfault, error_bind]

/-- **The three functions stay inside the name** exactly if it is not empty. -/
theorem inRange_iff (name : Text Char) :
    (InRange (basename name) ↔ name.symbols ≠ []) ∧
      (InRange (dirname name) ↔ name.symbols ≠ []) ∧
      (InRange (normalname name) ↔ name.symbols ≠ []) := by
  by_cases h : name.symbols = []
  · obtain ⟨hbase, hdir, hnormal⟩ := not_inRange_of_nil h
    exact ⟨iff_of_false hbase (not_not_intro h), iff_of_false hdir (not_not_intro h),
      iff_of_false hnormal (not_not_intro h)⟩
  · refine ⟨iff_of_true ?_ h, iff_of_true ?_ h, iff_of_true ?_ h⟩
    · rw [basename_eq h]
      exact inRange_ok _
    · rw [dirname_eq h]
      exact inRange_ok _
    · rw [normalname_eq h]
      exact inRange_ok _

/-- The empty name. -/
theorem not_inRange_empty :
    ¬ InRange (basename ⟨[], by decide⟩) ∧
      ¬ InRange (dirname ⟨[], by decide⟩) ∧
      ¬ InRange (normalname ⟨[], by decide⟩) :=
  not_inRange_of_nil rfl

end Range

end Indexed

end Schroot
