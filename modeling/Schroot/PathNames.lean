import Schroot.Util

/-!
# The parts of a path

What `normalname`, `dirname` and `basename` have to do with each other.  All of them remove the
separators at the end first and duplicate separators last, and what is removed at the end of a
directory part is only what stands behind its last separator.

**Results.**
* `withoutTrailing_spec`: what the loop that removes separators at the end leaves.
* `splitLast_cases`: the last separator of a name.
* `normalised_dirname_iff`: which directory parts are normal.
* `normalname_join_iff`: when a name is the join of its parts.
* `path_parts`: the laws of the three functions.
-/

namespace Schroot

section Duplicates

variable {dup : Char} {xs ys : List Char}

theorem removeDuplicates_cons (dup c : Char) (cs : List Char) :
    removeDuplicates dup (c :: cs) =
      if c = dup ∧ cs.head? = some dup then
        removeDuplicates dup cs
      else
        c :: removeDuplicates dup cs := by
  cases cs with
  | nil => simp [removeDuplicates]
  | cons d cs => simp [removeDuplicates]

theorem removeDuplicates_idem (dup : Char) (xs : List Char) :
    removeDuplicates dup (removeDuplicates dup xs) = removeDuplicates dup xs := by
  induction xs using removeDuplicates.induct dup with
  | case1 => rfl
  | case2 c => rfl
  | case3 c d cs h ih => simpa [removeDuplicates, h] using ih
  | case4 c d cs h ih =>
      have hcons : removeDuplicates dup (c :: d :: cs) = c :: removeDuplicates dup (d :: cs) := by
        simp [removeDuplicates, h]
      rw [hcons, removeDuplicates_cons, removeDuplicates_head?, if_neg (by simpa using h), ih]

/-- Duplicates may be removed from a text before another one is added. -/
theorem removeDuplicates_append (dup : Char) (xs ys : List Char) :
    removeDuplicates dup (removeDuplicates dup xs ++ ys) = removeDuplicates dup (xs ++ ys) := by
  induction xs using removeDuplicates.induct dup with
  | case1 => rfl
  | case2 c => rfl
  | case3 c d cs h ih => simpa [removeDuplicates, h] using ih
  | case4 c d cs h ih =>
      have hcons : removeDuplicates dup (c :: d :: cs) = c :: removeDuplicates dup (d :: cs) := by
        simp [removeDuplicates, h]
      have hhead : (removeDuplicates dup (d :: cs) ++ ys).head? = some d := by
        rw [List.head?_append, removeDuplicates_head?]
        rfl
      rw [hcons, List.cons_append, removeDuplicates_cons, hhead, if_neg (by simpa using h), ih]
      simp [removeDuplicates, h]

theorem getLast?_removeDuplicates (dup : Char) (xs : List Char) :
    (removeDuplicates dup xs).getLast? = xs.getLast? := by
  induction xs using removeDuplicates.induct dup with
  | case1 => rfl
  | case2 c => rfl
  | case3 c d cs h ih => simpa [removeDuplicates, h] using ih
  | case4 c d cs h ih =>
      have hcons : removeDuplicates dup (c :: d :: cs) = c :: removeDuplicates dup (d :: cs) := by
        simp [removeDuplicates, h]
      rw [hcons, List.getLast?_cons, ih, List.getLast?_cons_cons]
      cases hlast : (d :: cs).getLast? with
      | none => simp at hlast
      | some e => rfl

theorem mem_removeDuplicates_iff
    {c : Char} :
    c ∈ removeDuplicates dup xs ↔ c ∈ xs := by
  induction xs using removeDuplicates.induct dup with
  | case1 => simp [removeDuplicates]
  | case2 d => simp [removeDuplicates]
  | case3 d e cs h ih =>
      obtain ⟨rfl, rfl⟩ := h
      simpa [removeDuplicates] using ih
  | case4 d e cs h ih => simp [removeDuplicates, h, ih]

theorem removeDuplicates_of_notMem
    (h : dup ∉ xs) :
    removeDuplicates dup xs = xs := by
  induction xs with
  | nil => rfl
  | cons c cs ih =>
      rw [List.mem_cons, not_or] at h
      rw [removeDuplicates_cons, if_neg fun hc => h.1 hc.1.symm, ih h.2]

theorem removeDuplicates_of_forall
    (hne : xs ≠ [])
    (h : ∀ c ∈ xs, c = dup) :
    removeDuplicates dup xs = [dup] := by
  induction xs with
  | nil => exact absurd rfl hne
  | cons c cs ih =>
      have hc : c = dup := h c List.mem_cons_self
      cases cs with
      | nil => simp [removeDuplicates, hc]
      | cons d ds =>
          have hd : d = dup := h d (by simp)
          have hrest := ih (by simp) fun e he => h e (List.mem_cons_of_mem c he)
          simpa [removeDuplicates, hc, hd] using hrest

theorem removeDuplicates_cons_of_ne
    {c : Char}
    (hc : c ≠ dup)
    (cs : List Char) :
    removeDuplicates dup (c :: cs) = c :: removeDuplicates dup cs := by
  rw [removeDuplicates_cons, if_neg fun h => hc h.1]

/-- A run of duplicates leaves one of them. -/
theorem removeDuplicates_replicate
    {rest : List Char}
    (hrest : rest.head? ≠ some dup)
    (k : Nat) :
    removeDuplicates dup (dup :: (List.replicate k dup ++ rest)) =
      dup :: removeDuplicates dup rest := by
  induction k with
  | zero =>
      rw [List.replicate_zero, List.nil_append, removeDuplicates_cons,
        if_neg fun h => hrest h.2]
  | succ k ih =>
      rw [List.replicate_succ, List.cons_append, removeDuplicates_cons,
        if_pos ⟨rfl, rfl⟩, ih]

theorem exists_eq_replicate_append (dup : Char) (cs : List Char) :
    ∃ k rest, cs = List.replicate k dup ++ rest ∧ rest.head? ≠ some dup := by
  induction cs with
  | nil => exact ⟨0, [], rfl, by simp⟩
  | cons c cs ih =>
      by_cases hc : c = dup
      · obtain ⟨k, rest, hcs, hrest⟩ := ih
        exact ⟨k + 1, rest, by rw [hc, hcs, List.replicate_succ, List.cons_append], hrest⟩
      · exact ⟨0, c :: cs, rfl, by simpa using hc⟩

end Duplicates

section Trailing

variable {w : List Char}

/-- A name without separators at its end, the root apart. -/
def Stripped (w : List Char) : Prop :=
  w = ['/'] ∨ w.getLast? ≠ some '/'

theorem trailingCursor_spec
    (name : List Char)
    (cur : Nat)
    (h : cur ≤ name.length) :
    ∃ k, name.take cur = name.take (trailingCursor name cur) ++ List.replicate k '/' ∧
      (trailingCursor name cur ≤ 1 ∨
        (name.take (trailingCursor name cur)).getLast? ≠ some '/') := by
  induction cur using trailingCursor.induct name with
  | case1 => exact ⟨0, by simp [trailingCursor]⟩
  | case2 => exact ⟨0, by simp [trailingCursor]⟩
  | case3 cur hc ih =>
      obtain ⟨k, htake, hend⟩ := ih (by omega)
      refine ⟨k + 1, ?_, ?_⟩
      · rw [trailingCursor, if_pos hc, List.take_add_one, hc, htake, List.append_assoc,
          List.replicate_succ']
        rfl
      · rwa [trailingCursor, if_pos hc]
  | case4 cur hc =>
      refine ⟨0, by rw [trailingCursor, if_neg hc]; simp, .inr ?_⟩
      rw [trailingCursor, if_neg hc, List.getLast?_take]
      have hlt : cur + 1 < name.length := by omega
      rw [List.getElem?_eq_getElem hlt] at hc
      simpa [hlt] using hc

/-- **What the loop leaves**: the name without some separators at its end. -/
theorem withoutTrailing_spec
    (hne : w ≠ []) :
    Stripped (withoutTrailing w) ∧ ∃ k, w = withoutTrailing w ++ List.replicate k '/' := by
  obtain ⟨k, htake, hend⟩ := trailingCursor_spec w w.length (Nat.le_refl _)
  rw [List.take_length] at htake
  refine ⟨?_, k, htake⟩
  rcases hend with hone | hlast
  · have hhead := withoutTrailing_head? w
    have hlength : (withoutTrailing w).length ≤ 1 :=
      Nat.le_trans (List.length_take_le _ _) hone
    cases hw : withoutTrailing w with
    | nil =>
        rw [hw] at hhead
        cases w with
        | nil => exact absurd rfl hne
        | cons c cs => simp at hhead
    | cons c cs =>
        rw [hw] at hlength
        have hcs : cs = [] := List.length_eq_zero_iff.mp (by simpa using hlength)
        by_cases hc : c = '/'
        · exact .inl (by rw [hc, hcs])
        · exact .inr (by simpa [hcs] using hc)
  · exact .inr hlast

theorem withoutTrailing_of_stripped
    (h : Stripped w) :
    withoutTrailing w = w := by
  rcases h with rfl | hlast
  · rfl
  · have hcursor : trailingCursor w w.length = w.length := by
      cases hlength : w.length with
      | zero => rfl
      | succ n =>
          cases n with
          | zero => rfl
          | succ n =>
              rw [List.getLast?_eq_getElem?, hlength] at hlast
              have hend : w[n + 1]? ≠ some '/' := hlast
              rw [trailingCursor, if_neg hend]
    rw [withoutTrailing, hcursor, List.take_length]

theorem stripped_removeDuplicates
    (h : Stripped w) :
    Stripped (removeDuplicates '/' w) := by
  rcases h with rfl | hlast
  · exact .inl rfl
  · exact .inr (by rwa [getLast?_removeDuplicates])

theorem stripped_of_notMem
    (h : '/' ∉ w) :
    Stripped w :=
  .inr fun hlast => h (List.mem_of_getLast? hlast)

end Trailing

section LastSeparator

/-- **The last separator of a name**, if there is one. -/
theorem splitLast_cases (w : List Char) :
    ('/' ∉ w ∧ beforeLastSeparator w = none ∧ afterLastSeparator w = w) ∨
      ∃ dir base, w = dir ++ '/' :: base ∧ '/' ∉ base ∧ beforeLastSeparator w = some dir ∧
        afterLastSeparator w = base := by
  induction w with
  | nil => exact .inl ⟨by simp, rfl, rfl⟩
  | cons c cs ih =>
      rcases ih with ⟨hfree, hbefore, -⟩ | ⟨dir, base, hcs, hbase, hbefore, hafter⟩
      · by_cases hc : c = '/'
        · exact .inr ⟨[], cs, by simp [hc], hfree, by simp [beforeLastSeparator, hbefore, hc],
            by simp [afterLastSeparator, hfree, hc]⟩
        · refine .inl ⟨?_, by simp [beforeLastSeparator, hbefore, hc],
            by simp [afterLastSeparator, hfree, hc]⟩
          simp [hfree, Ne.symm hc]
      · have hmem : '/' ∈ cs := by simp [hcs]
        exact .inr ⟨c :: dir, base, by simp [hcs], hbase, by simp [beforeLastSeparator, hbefore],
          by simp [afterLastSeparator, hmem, hafter]⟩

end LastSeparator

section Laws

variable {name : String}

/-- A name that `normalname` leaves as it is. -/
def Normalised (name : String) : Prop :=
  normalname name = name ∧ (name = "/" ∨ name.toList.getLast? ≠ some '/')

/-- Two separators in a row stand in front of the last component, and an earlier component in
front of them. -/
def DoubledSplit (name : String) : Prop :=
  ∃ front base, withoutTrailing name.toList = front ++ '/' :: '/' :: base ∧ '/' ∉ base ∧
    ∃ c ∈ front, c ≠ '/'

theorem normalised_ofList
    {w : List Char}
    (hstripped : Stripped w)
    (hsingle : removeDuplicates '/' w = w) :
    Normalised (String.ofList w) := by
  refine ⟨?_, ?_⟩
  · rw [normalname, String.toList_ofList, withoutTrailing_of_stripped hstripped, hsingle]
  · rw [String.toList_ofList]
    rcases hstripped with rfl | hlast
    · exact .inl rfl
    · exact .inr hlast

theorem normalised_removeDuplicates
    {w : List Char}
    (hstripped : Stripped w) :
    Normalised (String.ofList (removeDuplicates '/' w)) :=
  normalised_ofList (stripped_removeDuplicates hstripped) (removeDuplicates_idem '/' w)

theorem toList_ne_nil
    (h : name ≠ "") :
    name.toList ≠ [] :=
  fun hnil => h (String.toList_inj.mp hnil)

theorem normalised_normalname
    (h : name ≠ "") :
    Normalised (normalname name) :=
  normalised_removeDuplicates (withoutTrailing_spec (toList_ne_nil h)).1

theorem normalised_basename
    (h : name ≠ "") :
    Normalised (basename name) := by
  have hstripped := (withoutTrailing_spec (toList_ne_nil h)).1
  have hfree : ∀ {w : List Char}, '/' ∉ w →
      Normalised (String.ofList (removeDuplicates '/' w)) :=
    fun hw => normalised_removeDuplicates (stripped_of_notMem hw)
  rcases splitLast_cases (withoutTrailing name.toList) with
    ⟨hw, hbefore, -⟩ | ⟨dir, base, hw, hbase, hbefore, hafter⟩
  · simp only [basename, hbefore]
    exact hfree hw
  · simp only [basename, hbefore, hafter]
    split
    · exact normalised_removeDuplicates (.inl rfl)
    · exact hfree hbase

/-- **The directory part of a name is normal** exactly without a doubled split. -/
theorem normalised_dirname_iff
    (h : name ≠ "") :
    Normalised (dirname name) ↔ ¬ DoubledSplit name := by
  have hstripped := (withoutTrailing_spec (toList_ne_nil h)).1
  rcases splitLast_cases (withoutTrailing name.toList) with
    ⟨hw, hbefore, -⟩ | ⟨dir, base, hw, hbase, hbefore, -⟩
  · refine iff_of_true ?_ ?_
    · simp only [dirname, hbefore]
      exact normalised_removeDuplicates (.inr (by decide))
    · rintro ⟨front, base, hsplit, -⟩
      exact hw (by simp [hsplit])
  · cases dir with
    | nil =>
        refine iff_of_true ?_ ?_
        · simp only [dirname, hbefore]
          exact normalised_removeDuplicates (.inl rfl)
        · rintro ⟨front, base', hsplit, hbase', c, hc, hne⟩
          rw [hw] at hsplit
          have hmem : '/' ∈ base := by
            cases front with
            | nil => simp at hc
            | cons d front =>
                have hrest := (List.cons.inj hsplit).2
                simp [hrest]
          exact hbase hmem
    | cons d ds =>
        have hdirname : dirname name = String.ofList (removeDuplicates '/' (d :: ds)) := by
          simp only [dirname, hbefore]
        constructor
        · rintro ⟨-, hend⟩ ⟨front, base', hsplit, hbase', c, hc, hne⟩
          have hbases : base = base' := by
            refine LineText.eq_of_append_sep hbase hbase' (a := d :: ds) (b := front ++ ['/']) ?_
            rw [← hw, hsplit]
            simp
          have hdir : d :: ds = front ++ ['/'] := by
            have happend : (d :: ds) ++ '/' :: base' = (front ++ ['/']) ++ '/' :: base' := by
              rw [← hbases, ← hw, hsplit, hbases]
              simp
            exact List.append_cancel_right happend
          rw [hdirname, String.toList_ofList, getLast?_removeDuplicates, hdir] at hend
          rcases hend with hroot | hlast
          · have hmem : c ∈ (String.ofList (removeDuplicates '/' (front ++ ['/']))).toList := by
              rw [String.toList_ofList, mem_removeDuplicates_iff]
              simp [hc]
            rw [hroot] at hmem
            simp at hmem
            exact hne hmem
          · simp at hlast
        · intro hdoubled
          rw [hdirname]
          by_cases hall : ∀ c ∈ d :: ds, c = '/'
          · rw [removeDuplicates_of_forall (by simp) hall]
            exact normalised_ofList (.inl rfl) rfl
          · refine normalised_removeDuplicates (.inr fun hlast => hdoubled ?_)
            obtain ⟨front, hfront⟩ := List.getLast?_eq_some_iff.mp hlast
            refine ⟨front, base, by rw [hw, hfront]; simp, hbase, ?_⟩
            by_contra hno
            refine hall fun c hc => ?_
            by_contra hne
            rw [hfront] at hc
            rcases List.mem_append.mp hc with hc | hc
            · exact hno ⟨c, hc, hne⟩
            · exact hne (List.mem_singleton.mp hc)

/-- **A name is the join of its parts** exactly if it has a separator that is not at its end. -/
theorem normalname_join_iff
    (h : name ≠ "") :
    normalname (dirname name ++ "/" ++ basename name) = normalname name ↔
      '/' ∈ withoutTrailing name.toList := by
  have hstripped := (withoutTrailing_spec (toList_ne_nil h)).1
  have hjoin : ∀ a b : List Char,
      (String.ofList a ++ "/" ++ String.ofList b).toList = a ++ '/' :: b := by
    intro a b
    simp [String.toList_append]
  rcases splitLast_cases (withoutTrailing name.toList) with
    ⟨hw, hbefore, -⟩ | ⟨dir, base, hw, hbase, hbefore, hafter⟩
  · refine iff_of_false ?_ hw
    have hdot : removeDuplicates '/' ['.'] = ['.'] := rfl
    have hparts : Stripped ('.' :: '/' :: withoutTrailing name.toList) := by
      obtain ⟨c, cs, hcs⟩ := List.exists_cons_of_ne_nil (l := withoutTrailing name.toList) <| by
        intro hnil
        have hhead := withoutTrailing_head? name.toList
        rw [hnil] at hhead
        exact toList_ne_nil h (List.head?_eq_none_iff.mp hhead.symm)
      refine .inr fun hlast => hw ?_
      rw [hcs, List.getLast?_cons_cons, List.getLast?_cons_cons] at hlast
      rw [hcs]
      exact List.mem_of_getLast? hlast
    simp only [dirname, basename, normalname, hbefore, hdot, hjoin]
    rw [removeDuplicates_of_notMem hw, List.singleton_append, withoutTrailing_of_stripped hparts]
    intro heq
    have hlists := String.ofList_inj.mp heq
    rw [removeDuplicates_cons, if_neg (by simp), removeDuplicates_cons] at hlists
    have hhead : ¬ ('/' = '/' ∧ (withoutTrailing name.toList).head? = some '/') := by
      rintro ⟨-, hhead⟩
      exact hw (List.mem_of_head? hhead)
    rw [if_neg hhead, removeDuplicates_of_notMem hw] at hlists
    have hlengths := congrArg List.length hlists
    simp only [List.length_cons] at hlengths
    omega
  · refine iff_of_true ?_ (by simp [hw])
    by_cases hroot : withoutTrailing name.toList = ['/']
    · simp only [dirname, basename, normalname, hroot]
      decide +kernel
    · -- the last component is not empty, so nothing is removed at the end of the join
      have hlast : (withoutTrailing name.toList).getLast? ≠ some '/' :=
        hstripped.resolve_left hroot
      have hbaseNe : base ≠ [] := by
        rintro rfl
        rw [hw] at hlast
        simp at hlast
      have hjoined : ∀ a : List Char, Stripped (a ++ '/' :: base) := by
        intro a
        refine .inr fun hend => hbase ?_
        obtain ⟨c, cs, rfl⟩ := List.exists_cons_of_ne_nil hbaseNe
        rw [List.getLast?_append, List.getLast?_cons_cons] at hend
        cases hlast' : (c :: cs).getLast? with
        | none => simp at hlast'
        | some e =>
            rw [hlast'] at hend
            have he : e = '/' := by simpa using hend
            exact List.mem_of_getLast? (he ▸ hlast')
      simp only [dirname, basename, normalname, hbefore, hafter, if_neg hroot]
      rw [removeDuplicates_of_notMem hbase]
      cases dir with
      | nil =>
          simp only [hjoin]
          rw [withoutTrailing_of_stripped (hjoined _), removeDuplicates_append, hw]
          rfl
      | cons d ds =>
          simp only [hjoin]
          rw [withoutTrailing_of_stripped (hjoined _), removeDuplicates_append, hw]

/-- **The laws of the parts of a path.** -/
theorem path_parts
    (name : String)
    (h : name ≠ "") :
    normalname (normalname name) = normalname name ∧
      Normalised (basename name) ∧
      (¬ DoubledSplit name → Normalised (dirname name)) ∧
      ('/' ∈ withoutTrailing name.toList →
        normalname (dirname name ++ "/" ++ basename name) = normalname name) :=
  ⟨(normalised_normalname h).1, normalised_basename h, (normalised_dirname_iff h).mpr,
    (normalname_join_iff h).mpr⟩

/-- Duplicate separators elsewhere, and one at the end. -/
theorem path_parts_share :
    normalname (normalname "/usr//share/lib/") = normalname "/usr//share/lib/" ∧
      Normalised (basename "/usr//share/lib/") ∧
      Normalised (dirname "/usr//share/lib/") ∧
      normalname (dirname "/usr//share/lib/" ++ "/" ++ basename "/usr//share/lib/") =
        normalname "/usr//share/lib/" := by
  have hname : "/usr//share/lib/" ≠ "" := by decide
  have hsplit : ¬ DoubledSplit "/usr//share/lib/" :=
    (normalised_dirname_iff hname).mp ⟨by decide +kernel, by decide +kernel⟩
  obtain ⟨hidem, hbase, hdir, hjoin⟩ := path_parts "/usr//share/lib/" hname
  exact ⟨hidem, hbase, hdir hsplit, hjoin (by decide +kernel)⟩

/-- A doubled split, and a name whose only separator is at its end. -/
theorem not_path_parts :
    normalname (dirname "a//b") ≠ dirname "a//b" ∧
      '/' ∈ "a/".toList ∧
      normalname (dirname "a/" ++ "/" ++ basename "a/") ≠ normalname "a/" := by
  decide +kernel

end Laws

end Schroot
