import Schroot.ChrootAliases
import Schroot.ChrootWriting
import Mathlib.Data.List.Induction

/-!
# Printing the configuration of chroots

`schroot --config` writes all chroots that are named into one keyfile, which has one group for
each name; namespaces are not written.

**Input.**  A configuration and the options that name chroots.

**Results.**
* `validateChroots_eq_ok`: the chroots that names are validated as.
* `findGroup_getKeyfile`: what writing a chroot does to a keyfile.
* `printsAll_iff`: when all named chroots are printed.
-/

namespace Schroot

namespace Main

section Model

/-- The options that name chroots. -/
structure Options where
  chroots : List String := []
  allChroots : Bool := false
  allSessions : Bool := false
  allSourceChroots : Bool := false
deriving DecidableEq, Repr

/-- One of the namespaces is named as a whole. -/
def Options.all (o : Options) : Bool :=
  o.allChroots || o.allSessions || o.allSourceChroots

/-- The namespace that names are looked for in. -/
def namespaceHint (o : Options) : String :=
  if o.all then "" else "chroot"

/-- The chroots of a namespace, if they are all named. -/
def listIf (conf : ChrootConfig) (ns : String) (all : Bool) : Except ConfigError (List String) :=
  if all then conf.getChrootList ns else .ok []

/-- The names that `get_chroot_options` finds. -/
def chrootNames (conf : ChrootConfig) (o : Options) : Except ConfigError (List String) :=
  if o.all then do
    let chroots ← listIf conf "chroot" o.allChroots
    let sessions ← listIf conf "session" o.allSessions
    let sources ← listIf conf "source" o.allSourceChroots
    pure (chroots ++ sessions ++ sources)
  else
    .ok o.chroots

/-- `get_chroot_options`, for an action that prints: the names and their chroots. -/
def getChrootOptions (conf : ChrootConfig) (o : Options) :
    Except ConfigError (List String × Std.ExtTreeMap String Chroot) := do
  let names ← chrootNames conf o
  let chroots ← conf.validateChroots (namespaceHint o) names
  pure (names, chroots)

/-- One turn of the loop of `action_config`: generated chroots are not written. -/
def writeChroot (chroots : Std.ExtTreeMap String Chroot) (info : Keyfile) (name : String) :
    Keyfile :=
  match chroots[name]? with
  | some c => if c.original then c.getKeyfile info else info
  | none => info

/-- `action_config`: the keyfile that is printed. -/
def actionConfig (conf : ChrootConfig) (o : Options) : Except ConfigError Keyfile := do
  let selected ← getChrootOptions conf o
  pure (selected.1.foldl (writeChroot selected.2) .empty)

end Model

section Validation

variable {conf : ChrootConfig} {hint : String}

/-- What the loop of `validate_chroots` has found when no name was bad. -/
theorem validateChroot_foldlM
    {names bad bad' : List String} {found found' : Std.ExtTreeMap String Chroot}
    (h : names.foldlM (conf.validateChroot hint) (bad, found) = .ok (bad', found'))
    (hbad : bad' = []) :
    bad = [] ∧ ∀ (name : String) c, found'[name]? = some c ↔
      found[name]? = some c ∨
        found[name]? = none ∧ name ∈ names ∧ conf.findAlias hint name = .ok (some c) := by
  induction names generalizing bad found with
  | nil =>
      cases h
      exact ⟨hbad, by simp⟩
  | cons first names ih =>
      rw [List.foldlM_cons, bind_eq_ok_iff] at h
      obtain ⟨⟨bad₁, found₁⟩, hfirst, hrest⟩ := h
      obtain ⟨hbad₁, hfound⟩ := ih hrest
      simp only [ChrootConfig.validateChroot, bind_eq_ok_iff] at hfirst
      obtain ⟨c₁, hc₁, hfirst⟩ := hfirst
      cases c₁ with
      | none =>
          cases hfirst
          simp at hbad₁
      | some c₁ =>
          cases hfirst
          refine ⟨hbad₁, fun name c => ?_⟩
          rw [hfound, SortedMap.getElem?_insertIfNew]
          by_cases hname : name = first
          · subst hname
            cases found[name]? <;> simp [hc₁]
          · simp [hname]

/-- **The chroots that names are validated as.** -/
theorem validateChroots_eq_ok
    {names : List String} {chroots : Std.ExtTreeMap String Chroot}
    (h : conf.validateChroots hint names = .ok chroots)
    (name : String) (c : Chroot) :
    chroots[name]? = some c ↔ name ∈ names ∧ conf.findAlias hint name = .ok (some c) := by
  simp only [ChrootConfig.validateChroots, bind_eq_ok_iff] at h
  obtain ⟨⟨bad, found⟩, hfold, h⟩ := h
  split at h
  · rename_i hbad
    cases h
    rw [(validateChroot_foldlM hfold hbad).2]
    simp
  · cases h

end Validation

section Writing

/-- The groups that a list of entries does not write to. -/
theorem findGroup_foldl_setValue
    {name group : String}
    (hne : group ≠ name)
    (entries : List (String × String)) (kf : Keyfile) :
    (entries.foldl (fun kf e => kf.setValue name e.1 e.2) kf).findGroup group =
      kf.findGroup group := by
  induction entries generalizing kf with
  | nil => rfl
  | cons e entries ih =>
      rw [List.foldl_cons, ih, Keyfile.setValue, Keyfile.findGroup_setItem, if_neg hne]

/-- The group that they write to depends on what it was before. -/
theorem findGroup_foldl_setValue_self
    {name : String} {kf kf' : Keyfile}
    (h : kf.findGroup name = kf'.findGroup name)
    (entries : List (String × String)) :
    (entries.foldl (fun kf e => kf.setValue name e.1 e.2) kf).findGroup name =
      (entries.foldl (fun kf e => kf.setValue name e.1 e.2) kf').findGroup name := by
  induction entries generalizing kf kf' with
  | nil => exact h
  | cons e entries ih =>
      refine ih ?_
      simp only [Keyfile.setValue, Keyfile.findGroup_setItem, Keyfile.groupOrNew, h]

theorem findGroup_removeGroup (kf : Keyfile) (name group : String) :
    (kf.removeGroup name).findGroup group = if group = name then none else kf.findGroup group := by
  simp only [Keyfile.removeGroup, Keyfile.findGroup, SortedMap.getElem?_erase]

/-- **What writing a chroot does**: its group is written anew, and the others stay. -/
theorem findGroup_getKeyfile (c : Chroot) (kf : Keyfile) (group : String) :
    (c.getKeyfile kf).findGroup group =
      if group = c.name then (c.getKeyfile .empty).findGroup group else kf.findGroup group := by
  by_cases hname : group = c.name
  · subst hname
    rw [if_pos rfl]
    refine findGroup_foldl_setValue_self ?_ c.keyfileEntries
    rw [findGroup_removeGroup, findGroup_removeGroup, if_pos rfl, if_pos rfl]
  · rw [if_neg hname, Chroot.getKeyfile, findGroup_foldl_setValue hname, findGroup_removeGroup,
      if_neg hname]

/-- The group that a chroot writes on its own. -/
def ownGroup (c : Chroot) : Option Group :=
  (c.getKeyfile .empty).findGroup c.name

/-- **What the loop of `action_config` writes**, if chroots of one name write the same: by
induction on the names, from the last one. -/
theorem findGroup_foldl_writeChroot
    {chroots : Std.ExtTreeMap String Chroot} {S : Chroot → Prop}
    (hsame : ∀ c c', S c → S c' → c.name = c'.name → ownGroup c = ownGroup c')
    {names : List String}
    (hnames : ∀ name ∈ names, ∀ c, chroots[name]? = some c → c.original = true → S c)
    {name : String} {c : Chroot}
    (hname : name ∈ names)
    (hc : chroots[name]? = some c)
    (horiginal : c.original = true) :
    (names.foldl (writeChroot chroots) .empty).findGroup c.name = ownGroup c := by
  induction names using List.reverseRecOn with
  | nil => cases hname
  | append_singleton names last ih =>
      have hS : S c := hnames name hname c hc horiginal
      have hinit : name ∈ names → (names.foldl (writeChroot chroots) .empty).findGroup c.name =
          ownGroup c := fun hmem =>
        ih (fun n hn => hnames n (List.mem_append_left _ hn)) hmem
      rw [List.foldl_append, List.foldl_cons, List.foldl_nil, writeChroot]
      cases hlast : chroots[last]? with
      | none =>
          refine hinit ((List.mem_append.mp hname).resolve_right fun heq => ?_)
          rw [List.mem_singleton.mp heq, hlast] at hc
          cases hc
      | some d =>
          by_cases hd : d.original = true
          · simp only [hd, if_true]
            rw [findGroup_getKeyfile]
            by_cases heq : c.name = d.name
            · rw [if_pos heq]
              have hSd : S d := hnames last (by simp) d hlast hd
              rw [hsame c d hS hSd heq, heq]
              rfl
            · rw [if_neg heq]
              refine hinit ((List.mem_append.mp hname).resolve_right fun hmem => heq ?_)
              rw [List.mem_singleton.mp hmem, hlast] at hc
              cases hc
              rfl
          · simp only [hd]
            refine hinit ((List.mem_append.mp hname).resolve_right fun hmem => hd ?_)
            rw [List.mem_singleton.mp hmem, hlast] at hc
            cases hc
            exact horiginal

end Writing

section Printing

variable {conf : ChrootConfig} {o : Options} {info : Keyfile}

/-- A chroot that the options name and that was not generated. -/
def Selected (conf : ChrootConfig) (o : Options) (c : Chroot) : Prop :=
  ∃ names name, chrootNames conf o = .ok names ∧ name ∈ names ∧
    conf.findAlias (namespaceHint o) name = .ok (some c) ∧ c.original = true

/-- **All selected chroots are printed.** -/
def PrintsAll (conf : ChrootConfig) (o : Options) (info : Keyfile) : Prop :=
  ∀ c, Selected conf o c → info.findGroup c.name = ownGroup c

/-- **When all selected chroots are printed**: those of one name write the same group. -/
theorem printsAll_iff
    (h : actionConfig conf o = .ok info) :
    PrintsAll conf o info ↔
      ∀ c c', Selected conf o c → Selected conf o c' → c.name = c'.name →
        ownGroup c = ownGroup c' := by
  simp only [actionConfig, getChrootOptions, bind_eq_ok_iff] at h
  obtain ⟨selected, ⟨names, hnames, chroots, hchroots, hselected⟩, hinfo⟩ := h
  cases hselected
  cases hinfo
  have hfound := validateChroots_eq_ok hchroots
  constructor
  · intro hall c c' hc hc' hname
    rw [← hall c hc, ← hall c' hc', hname]
  · rintro hsame c ⟨names', name, hnames', hname, hc, horiginal⟩
    rw [hnames] at hnames'
    cases hnames'
    exact findGroup_foldl_writeChroot hsame
      (fun n hn d hd hdo => ⟨names, n, hnames, hn, ((hfound n d).mp hd).2, hdo⟩) hname
      ((hfound name c).mpr ⟨hname, hc⟩) horiginal

/-- A chroot and a session that may have the same name. -/
def chrootAndSession (session : String) : List ChrootConfig.Call :=
  [ .loadKeyfile "chroot"
      ((Keyfile.empty.setValue "wheezy" "type" "directory").setValue
        "wheezy" "directory" "/srv/wheezy")
  , .loadKeyfile "session"
      (((Keyfile.empty.setValue session "type" "directory").setValue
        session "directory" "/srv/wheezy").setValue session "mount-location" "/mnt") ]

/-- The configuration with a chroot and a session of one name. -/
def bothWheezy : ChrootConfig :=
  ChrootConfig.run .standard .empty (chrootAndSession "wheezy")

/-- One chroot. -/
theorem printsAll_wheezy :
    ∃ info, actionConfig bothWheezy { chroots := ["wheezy"] } = .ok info ∧
      PrintsAll bothWheezy { chroots := ["wheezy"] } info := by
  have hrun : okAnd (actionConfig bothWheezy { chroots := ["wheezy"] }) (fun _ => true) = true := by
    decide +kernel
  obtain ⟨info, hinfo, -⟩ := okAnd_eq_true_iff.mp hrun
  refine ⟨info, hinfo, (printsAll_iff hinfo).mpr ?_⟩
  rintro c c' ⟨names, name, hnames, hname, hc, -⟩ ⟨names', name', hnames', hname', hc', -⟩ -
  have hone : chrootNames bothWheezy { chroots := ["wheezy"] } = .ok ["wheezy"] := rfl
  rw [hone] at hnames hnames'
  cases hnames
  cases hnames'
  rw [List.mem_singleton.mp hname] at hc
  rw [List.mem_singleton.mp hname', hc] at hc'
  cases hc'
  rfl

/-- **The session is printed in place of the chroot of its name.** -/
theorem not_printsAll_wheezy :
    ∃ info, actionConfig bothWheezy { allChroots := true, allSessions := true } = .ok info ∧
      info.getGroups = ["wheezy"] ∧
        ¬ PrintsAll bothWheezy { allChroots := true, allSessions := true } info := by
  -- the configuration is loaded once for all that is looked up
  have hevaluated :
      (okAnd (actionConfig bothWheezy { allChroots := true, allSessions := true })
          (fun info => info.getGroups = ["wheezy"] && info.value? "wheezy" "name" = some "wheezy") &&
        okAnd (chrootNames bothWheezy { allChroots := true, allSessions := true })
          (fun names => names.contains "chroot:wheezy") &&
        okAnd (bothWheezy.findAlias "" "chroot:wheezy") (fun c => c.any fun c =>
          c.original && c.name = "wheezy" &&
            (c.getKeyfile .empty).value? "wheezy" "name" = none)) = true := by
    decide +kernel
  obtain ⟨hfirst, hfound⟩ := Bool.and_eq_true_iff.mp hevaluated
  obtain ⟨hrun, hnames⟩ := Bool.and_eq_true_iff.mp hfirst
  obtain ⟨info, hinfo, hprinted⟩ := okAnd_eq_true_iff.mp hrun
  obtain ⟨names, hnames, hmem⟩ := okAnd_eq_true_iff.mp hnames
  obtain ⟨found, hfound, hany⟩ := okAnd_eq_true_iff.mp hfound
  obtain ⟨c, hsome, hc⟩ := Option.any_eq_true _ _ |>.mp hany
  subst hsome
  simp only [Bool.and_eq_true, decide_eq_true_eq] at hprinted hc
  refine ⟨info, hinfo, hprinted.1, fun hall => ?_⟩
  have hown := hall c ⟨names, "chroot:wheezy", hnames, by simpa using hmem, hfound, hc.1.1⟩
  have hvalue : info.value? "wheezy" "name" = (c.getKeyfile .empty).value? "wheezy" "name" := by
    rw [hc.1.2, ownGroup, hc.1.2] at hown
    rw [Keyfile.value?, Keyfile.value?, Keyfile.findItem, Keyfile.findItem, hown]
  rw [hprinted.2, hc.2] at hvalue
  cases hvalue

end Printing

end Main

end Schroot
