import Schroot.CommandOptions

/-!
# Accepted command lines

What is loaded and used has to fit the action that a command line asks for: named chroots and whole
namespaces exclude each other, a session is begun from one chroot, and only a session that is begun
has a name.

**Results.**
* `parse_understands`: the command lines that a program accepts, and what they are understood as.
* `loads_settled_iff`: when the command line settles what is loaded.
-/

namespace Schroot

namespace OptionsBase

section Selection

variable {o o' : OptionsBase}

/-- The kinds of actions. -/
inductive ActionKind where
  | automatic
  | begin
  | session
  | basic
  | print
deriving DecidableEq, Repr

/-- The kind of an action. -/
def actionKind (action : String) : Option ActionKind :=
  if action = actionSessionAuto then some .automatic
  else if action = actionSessionBegin then some .begin
  else if action = actionSessionRecover ∨ action = actionSessionRun ∨
      action = actionSessionEnd then some .session
  else if action = actionHelp ∨ action = actionVersion then some .basic
  else if action = actionList ∨ action = actionInfo ∨ action = actionLocation ∨
      action = actionConfig then some .print
  else none

/-- **The options are consistent**: what is loaded and used fits the action. -/
structure Selected (kind : ActionKind) (o : OptionsBase) : Prop where
  action : actionKind o.action.get = some kind
  exclusive : o.chroots ≠ [] → o.allUsed = false
  loadChroots : o.loadChroots = true ↔ kind ≠ .basic
  sessions : kind = .session ∨ kind = .print ∧ (o.chroots ≠ [] ∨ o.allSessions = true) →
    o.loadSessions = true
  noSessions : kind = .automatic ∨ kind = .begin ∨ kind = .basic →
    o.loadSessions = false ∧ o.allSessions = false
  selects : kind = .automatic ∨ kind = .print →
    o.chroots ≠ [] ∨ o.allChroots = true ∨ o.allSessions = true ∨ o.allSourceChroots = true
  one : kind = .begin → o.chroots.length = 1
  sessionName : o.sessionName ≠ "" → kind = .begin ∧ isValidSessionname o.sessionName = true

/-- `--all` has been expanded. -/
def Expanded (o : OptionsBase) : Prop :=
  o.all = true → o.allChroots = true ∧ o.allSessions = true ∧ o.allSourceChroots = true

/-- What checking the actions leaves alone. -/
structure ActionsFrame (o o' : OptionsBase) : Prop where
  rest : o' =
    { o with
      chroots := o'.chroots
      all := o'.all
      allChroots := o'.allChroots
      allSessions := o'.allSessions
      allSourceChroots := o'.allSourceChroots
      loadChroots := o'.loadChroots
      loadSessions := o'.loadSessions
      log := o'.log }

/-- Named chroots and whole namespaces are not used together. -/
structure Preferred (o q : OptionsBase) : Prop where
  frame : ActionsFrame o q
  chroots : q.chroots = o.chroots
  loads : q.loadChroots = o.loadChroots ∧ q.loadSessions = o.loadSessions
  exclusive : q.chroots ≠ [] → q.allUsed = false
  expanded : Expanded o → Expanded q
  same : o.chroots = [] → q.allChroots = o.allChroots ∧ q.allSessions = o.allSessions ∧
    q.allSourceChroots = o.allSourceChroots ∧ q.allUsed = o.allUsed

theorem preferred_preferChroots (o : OptionsBase) :
    Preferred o o.warnVerbosity.preferChroots := by
  have hwarn : o.warnVerbosity = { o with log := o.warnVerbosity.log } := by
    unfold warnVerbosity
    split <;> rfl
  rw [hwarn]
  unfold preferChroots
  split
  · rename_i hboth
    have hne : o.chroots ≠ [] := by
      intro hnil
      simp [hnil] at hboth
    refine ⟨⟨rfl⟩, rfl, ⟨rfl, rfl⟩, fun _ => rfl, fun _ hall => ?_, fun hnil => absurd hnil hne⟩
    cases hall
  · rename_i hboth
    refine ⟨⟨rfl⟩, rfl, ⟨rfl, rfl⟩, fun hne => ?_, id, fun _ => ⟨rfl, rfl, rfl, rfl⟩⟩
    have hne' : o.chroots.isEmpty = false := by
      rw [Bool.eq_false_iff, ne_eq, List.isEmpty_iff]
      exact hne
    have hall : ¬ o.allUsed = true := fun hall => hboth (by
      rw [Bool.and_eq_true, Bool.not_eq_true']
      exact ⟨hne', hall⟩)
    exact Bool.eq_false_iff.mpr hall

theorem checkSelection_of_kind
    {kind : ActionKind}
    (h : actionKind o.action.get = some kind) :
    o.checkSelection =
      match kind with
      | .automatic => .ok o.selectAutomatic
      | .begin => o.selectBegin
      | .session => o.selectSession
      | .basic => .ok { o.clearAll with loadChroots := false, loadSessions := false }
      | .print => .ok o.selectPrint := by
  unfold actionKind at h
  unfold checkSelection
  split at h
  · cases h
    rw [if_pos ‹_›]
  · rw [if_neg ‹_›]
    split at h
    · cases h
      rw [if_pos ‹_›]
    · rw [if_neg ‹_›]
      split at h
      · cases h
        rw [if_pos ‹_›]
      · rw [if_neg ‹_›]
        split at h
        · cases h
          rw [if_pos ‹_›]
        · rw [if_neg ‹_›]
          split at h
          · cases h
            rw [if_pos ‹_›]
          · cases h

theorem allUsed_eq_false :
    o.allUsed = false ↔
      o.all = false ∧ o.allChroots = false ∧ o.allSourceChroots = false ∧
        o.allSessions = false := by
  simp [allUsed, and_assoc]

theorem selected_selectAutomatic
    (hkind : actionKind o.action.get = some .automatic)
    (hexclusive : o.chroots ≠ [] → o.allUsed = false)
    (hname : o.sessionName = "") :
    Selected .automatic o.selectAutomatic ∧ ActionsFrame o o.selectAutomatic := by
  unfold selectAutomatic
  simp only
  split
  · rename_i hdefault
    rw [Bool.and_eq_true, Bool.not_eq_true'] at hdefault
    constructor
    · constructor
      case action => exact hkind
      case exclusive => exact fun _ => hdefault.2
      case loadChroots => simp
      case sessions => simp
      case noSessions => exact fun _ => ⟨rfl, rfl⟩
      case selects => simp
      case one => simp
      case sessionName => exact fun h => absurd hname h
    · exact ⟨rfl⟩
  · rename_i hdefault
    constructor
    · constructor
      case action => exact hkind
      case exclusive =>
        intro hne
        obtain ⟨-, hchroots, hsource, -⟩ := allUsed_eq_false.mp (hexclusive hne)
        exact allUsed_eq_false.mpr ⟨rfl, hchroots, hsource, rfl⟩
      case loadChroots => simp
      case sessions => simp
      case noSessions => exact fun _ => ⟨rfl, rfl⟩
      case selects =>
        intro _
        by_contra hnone
        simp only [not_or, not_not, Bool.not_eq_true] at hnone
        obtain ⟨hnil, hchroots, -, hsource⟩ := hnone
        refine hdefault ?_
        rw [Bool.and_eq_true, Bool.not_eq_true', List.isEmpty_iff]
        exact ⟨hnil, allUsed_eq_false.mpr ⟨rfl, hchroots, hsource, rfl⟩⟩
      case one => simp
      case sessionName => exact fun h => absurd hname h
    · exact ⟨rfl⟩

theorem selectBegin_eq_ok
    (hkind : actionKind o.action.get = some .begin)
    (hname : o.sessionName ≠ "" → isValidSessionname o.sessionName = true)
    (h : o.selectBegin = .ok o') :
    o.chroots.length = 1 ∧ Selected .begin o' ∧ ActionsFrame o o' ∧ o'.chroots = o.chroots := by
  unfold selectBegin at h
  simp only at h
  split at h
  · cases h
  · rename_i hone
    rw [Bool.or_eq_true, not_or, decide_eq_true_eq, not_not] at hone
    cases h
    refine ⟨hone.1, ?_, ⟨rfl⟩, rfl⟩
    constructor
    case action => exact hkind
    case exclusive => exact fun _ => rfl
    case loadChroots => simp [clearAll]
    case sessions => simp
    case noSessions => exact fun _ => ⟨rfl, rfl⟩
    case selects => simp
    case one => exact fun _ => hone.1
    case sessionName => exact fun h => ⟨rfl, hname h⟩

theorem Expanded.of_allUsed
    (h : Expanded o)
    (hall : o.allUsed = true) :
    o.allChroots = true ∨ o.allSessions = true ∨ o.allSourceChroots = true := by
  simp only [allUsed, Bool.or_eq_true] at hall
  rcases hall with ((hall | hall) | hall) | hall
  · exact .inl (h hall).1
  · exact .inl hall
  · exact .inr (.inr hall)
  · exact .inr (.inl hall)

theorem loadUsed_eq (o : OptionsBase) :
    o.loadUsed =
      { o with
        loadChroots := o.allChroots || o.allSourceChroots || o.allSessions || o.loadChroots
        loadSessions := o.allSessions || o.loadSessions } := by
  cases o
  rename_i allChroots allSessions allSourceChroots _ _ _ _ _ _ _ _
  cases allChroots <;> cases allSessions <;> cases allSourceChroots <;> rfl

theorem selected_selectPrint
    (hkind : actionKind o.action.get = some .print)
    (hexclusive : o.chroots ≠ [] → o.allUsed = false)
    (hexpanded : Expanded o)
    (hname : o.sessionName = "") :
    Selected .print o.selectPrint ∧ ActionsFrame o o.selectPrint ∧
      o.selectPrint.chroots = o.chroots ∧
      o.selectPrint.loadSessions =
        (!o.chroots.isEmpty || o.allSessions || o.loadSessions) := by
  unfold selectPrint
  simp only [loadUsed_eq]
  split
  · rename_i hempty
    have hne : o.chroots ≠ [] := by simpa using hempty
    have hnone := hexclusive hne
    refine ⟨?_, ⟨rfl⟩, rfl, by simp [hne]⟩
    constructor
    case action => exact hkind
    case exclusive => exact fun _ => hnone
    case loadChroots => simp
    case sessions => simp
    case noSessions => simp
    case selects => exact fun _ => .inl hne
    case one => simp
    case sessionName => exact fun h => absurd hname h
  · rename_i hempty
    have hnil : o.chroots = [] := by simpa using hempty
    split
    · rename_i hused
      have hnone : o.allUsed = false := by simpa using hused
      have hsessions := (allUsed_eq_false.mp hnone).2.2.2
      refine ⟨?_, ⟨rfl⟩, rfl, by simp [hnil, hsessions]⟩
      constructor
      case action => exact hkind
      case exclusive => exact fun hne => absurd hnil hne
      case loadChroots => simp
      case sessions => simp [hnil, hsessions]
      case noSessions => simp
      case selects => exact fun _ => .inr (.inl rfl)
      case one => simp
      case sessionName => exact fun h => absurd hname h
    · rename_i hused
      have hsome := hexpanded.of_allUsed (by simpa using hused)
      refine ⟨?_, ⟨rfl⟩, rfl, by simp [hnil]⟩
      constructor
      case action => exact hkind
      case exclusive => exact fun hne => absurd hnil hne
      case loadChroots =>
        rcases hsome with h | h | h <;> simp [h]
      case sessions => simp +contextual [hnil]
      case noSessions => simp
      case selects => exact fun _ => .inr hsome
      case one => simp
      case sessionName => exact fun h => absurd hname h

/-- The conditions on the chroots and the name of the session. -/
structure Permitted (kind : ActionKind) (o : OptionsBase) : Prop where
  chroot : kind = .begin → o.chroots.length = 1
  sessionName : o.sessionName ≠ "" → kind = .begin ∧ isValidSessionname o.sessionName = true

theorem actionKind_eq_begin
    {action : String} :
    actionKind action = some .begin ↔ action = actionSessionBegin := by
  constructor
  · intro h
    unfold actionKind at h
    split at h
    · cases h
    · split at h
      · assumption
      · repeat' split at h
        all_goals cases h
  · rintro rfl
    decide

theorem ActionsFrame.trans
    {q : OptionsBase}
    (h : ActionsFrame o q)
    (h' : ActionsFrame q o') :
    ActionsFrame o o' := by
  constructor
  rw [h'.rest, h.rest]

/-- **What a checked action comes to**: the options are consistent, and the chroots that were named
are still those that are used, except where `default` is used. -/
structure Checked (kind : ActionKind) (o o' : OptionsBase) : Prop where
  selected : Selected kind o'
  frame : ActionsFrame o o'
  chroots : kind ≠ .automatic → o'.chroots = o.chroots
  default : kind = .automatic → o'.chroots = o.chroots ∨ o.chroots = [] ∧ o'.chroots = ["default"]
  printSessions : kind = .print →
    o'.loadSessions = (!o.chroots.isEmpty || o.allSessions || o.loadSessions)

theorem checked_checkSelection
    {kind : ActionKind}
    (hkind : actionKind o.action.get = some kind)
    (hexclusive : o.chroots ≠ [] → o.allUsed = false)
    (hexpanded : Expanded o)
    (hname : o.sessionName ≠ "" → kind = .begin ∧ isValidSessionname o.sessionName = true)
    (h : o.checkSelection = .ok o') :
    Checked kind o o' ∧ Permitted kind o := by
  have hempty : kind ≠ .begin → o.sessionName = "" := by
    intro hne
    by_contra hsession
    exact hne (hname hsession).1
  rw [checkSelection_of_kind hkind] at h
  cases kind with
  | automatic =>
      cases h
      obtain ⟨hselected, hframe⟩ :=
        selected_selectAutomatic hkind hexclusive (hempty (by decide))
      refine ⟨⟨hselected, hframe, by simp, fun _ => ?_, by simp⟩, ⟨by simp, hname⟩⟩
      unfold selectAutomatic
      simp only
      split
      · rename_i hdefault
        rw [Bool.and_eq_true, List.isEmpty_iff] at hdefault
        exact .inr ⟨hdefault.1, rfl⟩
      · exact .inl rfl
  | begin =>
      obtain ⟨hone, hselected, hframe, hchroots⟩ :=
        selectBegin_eq_ok hkind (fun hne => (hname hne).2) h
      exact ⟨⟨hselected, hframe, fun _ => hchroots, by simp, by simp⟩, ⟨fun _ => hone, hname⟩⟩
  | session =>
      unfold selectSession at h
      simp only at h
      split at h
      · cases h
      · cases h
        refine ⟨⟨?_, ⟨rfl⟩, fun _ => rfl, by simp, by simp⟩, ⟨by simp, hname⟩⟩
        constructor
        case action => exact hkind
        case exclusive => exact hexclusive
        case loadChroots => simp
        case sessions => exact fun _ => rfl
        case noSessions => simp
        case selects => simp
        case one => simp
        case sessionName => exact hname
  | basic =>
      cases h
      refine ⟨⟨?_, ⟨rfl⟩, fun _ => rfl, by simp, by simp⟩, ⟨by simp, hname⟩⟩
      constructor
      case action => exact hkind
      case exclusive => exact fun _ => rfl
      case loadChroots => simp
      case sessions => simp
      case noSessions => exact fun _ => ⟨rfl, rfl⟩
      case selects => simp
      case one => simp
      case sessionName => exact hname
  | print =>
      cases h
      obtain ⟨hselected, hframe, hchroots, hsessions⟩ :=
        selected_selectPrint hkind hexclusive hexpanded (hempty (by decide))
      exact ⟨⟨hselected, hframe, fun _ => hchroots, by simp, fun _ => hsessions⟩,
        ⟨by simp, hname⟩⟩

theorem checkSelection_name
    (h : o.checkSelection = .ok o') :
    o'.action = o.action ∧ o'.sessionName = o.sessionName := by
  unfold checkSelection at h
  split at h
  · cases h
    unfold selectAutomatic
    simp only
    split <;> exact ⟨rfl, rfl⟩
  · split at h
    · unfold selectBegin at h
      simp only at h
      split at h
      · cases h
      · cases h
        exact ⟨rfl, rfl⟩
    · split at h
      · unfold selectSession at h
        simp only at h
        split at h
        · cases h
        · cases h
          exact ⟨rfl, rfl⟩
      · split at h
        · cases h
          exact ⟨rfl, rfl⟩
        · split at h
          · cases h
            unfold selectPrint
            simp only [loadUsed_eq]
            split
            · exact ⟨rfl, rfl⟩
            · split <;> exact ⟨rfl, rfl⟩
          · cases h

theorem exists_checkSelection
    {kind : ActionKind}
    (hkind : actionKind o.action.get = some kind)
    (hexclusive : o.chroots ≠ [] → o.allUsed = false)
    (h : Permitted kind o) :
    ∃ o', o.checkSelection = .ok o' := by
  rw [checkSelection_of_kind hkind]
  cases kind with
  | begin =>
      have hone := h.chroot rfl
      have hnone : o.allUsed = false := by
        refine hexclusive fun hnil => ?_
        rw [hnil] at hone
        cases hone
      have hused : ({ o with loadChroots := true, loadSessions := false } : OptionsBase).allUsed =
          false := hnone
      exact ⟨_, by simp only [selectBegin, hone, hused]; rfl⟩
  | session =>
      have hname : o.sessionName = "" := by
        by_contra hne
        exact absurd (h.sessionName hne).1 (by decide)
      exact ⟨_, by simp only [selectSession, hname]; rfl⟩
  | _ => exact ⟨_, rfl⟩

theorem checkActions_eq_ok :
    o.checkActions = .ok o' ↔ o.warnVerbosity.preferChroots.checkSelection = .ok o' ∧
      (o'.sessionName ≠ "" →
        o'.action.get = actionSessionBegin ∧ isValidSessionname o'.sessionName = true) := by
  simp only [checkActions, bind_eq_ok_iff]
  constructor
  · rintro ⟨q, hq, h⟩
    split at h
    · cases h
    · rename_i haction
      split at h
      · cases h
      · rename_i hvalid
        cases h
        refine ⟨hq, fun hne => ⟨?_, ?_⟩⟩
        · by_contra hother
          exact haction ⟨hne, hother⟩
        · by_contra hinvalid
          exact hvalid ⟨hne, by simpa using hinvalid⟩
  · rintro ⟨hq, h⟩
    refine ⟨o', hq, ?_⟩
    rw [if_neg fun hboth => hboth.2 (h hboth.1).1, if_neg fun hboth => ?_]
    · rfl
    · rw [(h hboth.1).2] at hboth
      simp at hboth

/-- **When the actions are accepted**, and what they come to. -/
theorem checkActions_spec
    {kind : ActionKind}
    (hkind : actionKind o.action.get = some kind)
    (hexpanded : Expanded o) :
    ((∃ o', o.checkActions = .ok o') ↔ Permitted kind o) ∧
      ∀ o', o.checkActions = .ok o' → Checked kind o o' := by
  have hq := preferred_preferChroots o
  have haction : o.warnVerbosity.preferChroots.action = o.action := by rw [hq.frame.rest]
  have hsession : o.warnVerbosity.preferChroots.sessionName = o.sessionName := by
    rw [hq.frame.rest]
  have hkind' : actionKind o.warnVerbosity.preferChroots.action.get = some kind := by
    rw [haction]
    exact hkind
  have hpermitted : Permitted kind o.warnVerbosity.preferChroots ↔ Permitted kind o := by
    constructor
    · rintro ⟨hone, hname⟩
      exact ⟨hq.chroots ▸ hone, hsession ▸ hname⟩
    · rintro ⟨hone, hname⟩
      exact ⟨hq.chroots ▸ hone, hsession ▸ hname⟩
  have hchecked : ∀ o', o.checkActions = .ok o' →
      Checked kind o.warnVerbosity.preferChroots o' ∧
        Permitted kind o.warnVerbosity.preferChroots := by
    intro o' h
    obtain ⟨hselect, hname⟩ := checkActions_eq_ok.mp h
    obtain ⟨haction', hsession'⟩ := checkSelection_name hselect
    rw [hsession', haction'] at hname
    refine checked_checkSelection hkind' hq.exclusive (hq.expanded hexpanded) (fun hne => ?_)
      hselect
    obtain ⟨hbegin, hvalid⟩ := hname hne
    rw [actionKind_eq_begin.mpr hbegin] at hkind'
    exact ⟨(Option.some.inj hkind').symm, hvalid⟩
  refine ⟨⟨?_, fun h => ?_⟩, fun o' h => ?_⟩
  · rintro ⟨o', h⟩
    exact hpermitted.mp (hchecked o' h).2
  · obtain ⟨o', hselect⟩ := exists_checkSelection hkind' hq.exclusive (hpermitted.mpr h)
    obtain ⟨haction', hsession'⟩ := checkSelection_name hselect
    refine ⟨o', checkActions_eq_ok.mpr ⟨hselect, fun hne => ?_⟩⟩
    rw [hsession', hsession] at hne ⊢
    obtain ⟨hbegin, hvalid⟩ := h.sessionName hne
    subst hbegin
    rw [haction', haction]
    exact ⟨actionKind_eq_begin.mp hkind, hvalid⟩
  · obtain ⟨hselected, hframe, hchroots, hdefault, hprint⟩ := (hchecked o' h).1
    rw [hq.chroots] at hchroots hdefault
    refine ⟨hselected, hq.frame.trans hframe, hchroots, hdefault, fun hkind => ?_⟩
    rw [hprint hkind, hq.chroots, hq.loads.2]
    by_cases hnil : o.chroots = []
    · rw [(hq.same hnil).2.1]
    · have hempty : o.chroots.isEmpty = false := by simpa using hnil
      simp only [hempty, Bool.not_false, Bool.true_or]

end Selection

end OptionsBase

namespace Program

section Accepted

variable {p : Program} {line : CommandLine} {loadChroots loadSessions : Bool} {o : OptionsBase}

/-- The action that a command line asks for. -/
def askedAction (p : Program) (line : CommandLine) : String :=
  (OptionsBase.asked p.requests line.given).headD actionSessionAuto

/-- The chroots that a command line names. -/
def namedChroots : Program → CommandLine → List String
  | .schroot, line => line.chroots
  | .dchroot, line => if "path" ∈ line.given then [line.chrootPath] else line.chroots
  | .dchrootDsa, line => if line.chroots = [] then line.command.head?.toList else line.chroots

/-- The command that is left. -/
def commandOf : Program → CommandLine → List String
  | .dchrootDsa, line => if line.chroots = [] then line.command.tail else line.command
  | _, line => line.command

/-- The options of the user, which only `schroot` has. -/
def userOptions : Program → CommandLine → Std.ExtTreeMap String String
  | .schroot, line => SortedMap.insertAllNew ∅ (line.useroptions.map OptionsBase.splitUserOption)
  | _, _ => ∅

/-- All sessions are asked for, which only `schroot` knows. -/
def asksSessions (p : Program) (line : CommandLine) : Bool :=
  decide (p = .schroot) && ("all" ∈ line.given || "all-sessions" ∈ line.given)

/-- **The command lines that a program accepts.** -/
structure Accepts (p : Program) (line : CommandLine) : Prop where
  one : (OptionsBase.asked p.requests line.given).length ≤ 1
  debug : "debug" ∈ line.given → (OptionsBase.debugLevelOf line.debugLevel).isSome = true
  chroot : p.askedAction line = actionSessionBegin → (p.namedChroots line).length = 1
  sessionName : line.sessionName ≠ "" →
    p.askedAction line = actionSessionBegin ∧ isValidSessionname line.sessionName = true
  command : p = .dchrootDsa → (p.commandOf line).length ≤ 1 ∧
    (∀ command ∈ p.commandOf line, isAbsname command = true) ∧
    (p.namedChroots line = [] →
      "all" ∈ line.given ∨ OptionsBase.needsNoChroot (p.askedAction line) = true)

/-- The options before they are checked. -/
def started (line : CommandLine) (loadChroots loadSessions : Bool) : OptionsBase :=
  { line.store loadChroots loadSessions with action := OptionsBase.startAction }

theorem addActions_eq : OptionsBase.addActions {} = .ok OptionsBase.startAction := by decide

theorem addOptions_store :
    (line.store loadChroots loadSessions).addOptions =
      .ok (started line loadChroots loadSessions) := by
  rw [OptionsBase.addOptions, CommandLine.store, addActions_eq]
  rfl

theorem requestable_requests (p : Program) : OptionsBase.Requestable p.requests := by
  cases p <;> decide

theorem get_answered
    {requests : List (String × String)} {action : OptionAction}
    (given : List String)
    (hrequests : OptionsBase.Requestable requests)
    (h : action = { OptionsBase.startAction with
      currentAction := (OptionsBase.asked requests given).headD "" }) :
    action.get = (OptionsBase.asked requests given).headD actionSessionAuto := by
  have hne := OptionsBase.asked_ne hrequests given
  rw [h, OptionAction.get]
  cases hasked : OptionsBase.asked requests given with
  | nil => rfl
  | cons first others =>
      rw [List.headD_cons, List.headD_cons, if_pos (hne first (by simp [hasked]))]

/-- **What the options are read as**, before the action is looked at. -/
structure ReadAs (p : Program) (line : CommandLine) (loadSessions : Bool) (o : OptionsBase) :
    Prop where
  action : o.action.get = p.askedAction line
  chroots : o.chroots = p.namedChroots line
  command : o.command = p.commandOf line
  sessionName : o.sessionName = line.sessionName
  allSessions : o.allSessions = p.asksSessions line
  loadSessions : o.loadSessions = loadSessions
  useroptionsMap : o.useroptionsMap = userOptions p line
  expanded : OptionsBase.Expanded o
  all : p = .dchrootDsa → (o.allUsed = true ↔ "all" ∈ line.given)

theorem expandAll_eq (o : OptionsBase) :
    o.expandAll =
      { o with
        allChroots := o.all || o.allChroots
        allSessions := o.all || o.allSessions
        allSourceChroots := o.all || o.allSourceChroots } := by
  cases o
  rename_i all _ _ _ _ _ _ _ _ _ _ _
  cases all <;> rfl

theorem readAs_schroot (level : DebugLevel) :
    ReadAs .schroot line loadSessions
      ((started line loadChroots loadSessions).readSchroot level) := by
  unfold OptionsBase.readSchroot
  simp only [expandAll_eq]
  constructor
  case action => exact get_answered line.given (requestable_requests .schroot) rfl
  case chroots => rfl
  case command => rfl
  case sessionName => rfl
  case allSessions =>
    simp [OptionsBase.readUserOptions, OptionsBase.readSelection, OptionsBase.answer,
      OptionsBase.withAction, OptionsBase.readBasic, started, CommandLine.store, asksSessions,
      OptionsBase.count]
  case loadSessions => rfl
  case useroptionsMap => rfl
  case expanded =>
    -- all three flags are disjunctions whose first part is this one
    intro hall
    have hboth : ∀ b : Bool,
        (((started line loadChroots loadSessions).readBasic level).readSelection.all || b) =
          true := by
      intro b
      rw [Bool.or_eq_true]
      exact .inl hall
    exact ⟨hboth _, hboth _, hboth _⟩
  case all => exact fun h => absurd h (by decide)

/-- Options of `dchroot` never ask for sessions. -/
structure NoSessions (o o' : OptionsBase) : Prop where
  rest : o' =
    { o with
      chroots := o'.chroots
      all := o'.all
      allChroots := o'.allChroots
      allSessions := o'.allSessions
      preserve := o'.preserve
      log := o'.log }
  none : o.all = false → o.allSessions = false → o'.all = false ∧ o'.allSessions = false

theorem NoSessions.trans
    {o' o'' : OptionsBase}
    (h : NoSessions o o')
    (h' : NoSessions o' o'') :
    NoSessions o o'' := by
  constructor
  · rw [h'.rest, h.rest]
  · intro hall hsessions
    obtain ⟨hall', hsessions'⟩ := h.none hall hsessions
    exact h'.none hall' hsessions'

theorem noSessions_readPath (o : OptionsBase) :
    NoSessions o o.readPath ∧
      o.readPath.chroots = if o.count "path" then [o.chrootPath] else o.chroots := by
  have hpath : ∀ q : OptionsBase, NoSessions q
      (if q.count "all" then { q with all := false, allChroots := true, allSessions := false }
        else q) := by
    intro q
    split
    · exact ⟨rfl, fun _ _ => ⟨rfl, rfl⟩⟩
    · exact ⟨rfl, fun hall hsessions => ⟨hall, hsessions⟩⟩
  unfold OptionsBase.readPath
  simp only
  constructor
  · refine NoSessions.trans ?_ (hpath _)
    split <;> exact ⟨rfl, fun hall hsessions => ⟨hall, hsessions⟩⟩
  · split <;> split <;> rfl

theorem noSessions_preferNamed (o : OptionsBase) :
    NoSessions o o.warnVerbosity.preferNamed ∧
      o.warnVerbosity.preferNamed.chroots = o.chroots := by
  have hwarn : o.warnVerbosity = { o with log := o.warnVerbosity.log } := by
    unfold OptionsBase.warnVerbosity
    split <;> rfl
  rw [hwarn]
  unfold OptionsBase.preferNamed
  split
  · exact ⟨⟨rfl, fun _ _ => ⟨rfl, rfl⟩⟩, rfl⟩
  · exact ⟨⟨rfl, fun hall hsessions => ⟨hall, hsessions⟩⟩, rfl⟩

theorem noSessions_readDchroot
    (hall : o.all = false)
    (hsessions : o.allSessions = false) :
    NoSessions o o.readDchroot ∧
      o.readDchroot.chroots = if o.count "path" then [o.chrootPath] else o.chroots := by
  obtain ⟨hpath, hchroots⟩ := noSessions_readPath o
  have hpreserve : NoSessions o.readPath
      { o.readPath with
        preserve := o.readPath.preserve || o.readPath.count "preserve-environment" } :=
    ⟨rfl, fun hall hsessions => ⟨hall, hsessions⟩⟩
  obtain ⟨hnamed, hkept⟩ := noSessions_preferNamed
    { o.readPath with preserve := o.readPath.preserve || o.readPath.count "preserve-environment" }
  have hframe := (hpath.trans hpreserve).trans hnamed
  unfold OptionsBase.readDchroot
  simp only
  rw [if_neg (by rw [(hframe.none hall hsessions).1]; simp)]
  exact ⟨hframe, hkept.trans hchroots⟩

theorem readAs_dchroot (level : DebugLevel) :
    ReadAs .dchroot line loadSessions
      (((started line loadChroots loadSessions).readBasic level).answer
        Program.dchroot.requests).readDchroot := by
  have hget := get_answered line.given (requestable_requests .dchroot) rfl
  have hstart : ∀ o, o = ((started line loadChroots loadSessions).readBasic level).answer
      Program.dchroot.requests → ReadAs .dchroot line loadSessions o.readDchroot := by
    intro o ho
    obtain ⟨hframe, hchroots⟩ := noSessions_readDchroot (o := o) (by rw [ho]; rfl) (by rw [ho]; rfl)
    have hnone := hframe.none (by rw [ho]; rfl) (by rw [ho]; rfl)
    have hrest := hframe.rest
    constructor
    case action =>
      rw [hrest, ho]
      exact hget
    case chroots =>
      rw [hchroots, ho]
      simp [namedChroots, OptionsBase.answer, OptionsBase.withAction, OptionsBase.readBasic,
        started, CommandLine.store, OptionsBase.count]
    case command =>
      rw [hrest, ho]
      rfl
    case sessionName =>
      rw [hrest, ho]
      rfl
    case allSessions => simp [hnone, asksSessions]
    case loadSessions =>
      rw [hrest, ho]
      rfl
    case useroptionsMap =>
      rw [hrest, ho]
      rfl
    case expanded => exact fun hall => absurd hnone.1 (by rw [hall]; simp)
    case all => exact fun h => absurd h (by decide)
  exact hstart _ rfl

theorem takeChroot_eq (o : OptionsBase) :
    o.takeChroot =
      { o with
        chroots := if o.chroots = [] then o.command.head?.toList else o.chroots
        command := if o.chroots = [] then o.command.tail else o.command } := by
  obtain ⟨_, _, _, _, _, _, chroots, _, command⟩ := o
  cases chroots <;> cases command <;> rfl

theorem readAs_dchrootDsa (level : DebugLevel) :
    ReadAs .dchrootDsa line loadSessions
      (((started line loadChroots loadSessions).readBasic level).answer
        Program.dchrootDsa.requests).readDchrootDsa := by
  have hget := get_answered line.given (requestable_requests .dchrootDsa) rfl
  unfold OptionsBase.readDchrootDsa
  simp only [takeChroot_eq]
  split
  · rename_i hall
    have hgiven : "all" ∈ line.given := of_decide_eq_true hall
    constructor
    case action => exact hget
    case chroots => rfl
    case command => rfl
    case sessionName => rfl
    case allSessions => rfl
    case loadSessions => rfl
    case useroptionsMap => rfl
    case expanded => exact fun h => by cases h
    case all => exact fun _ => iff_of_true rfl hgiven
  · rename_i hall
    have hgiven : "all" ∉ line.given := by
      intro hmem
      exact hall (decide_eq_true hmem)
    constructor
    case action => exact hget
    case chroots => rfl
    case command => rfl
    case sessionName => rfl
    case allSessions => rfl
    case loadSessions => rfl
    case useroptionsMap => rfl
    case expanded => exact fun h => by cases h
    case all => exact fun _ => iff_of_false Bool.false_ne_true hgiven

theorem readAs (p : Program) (level : DebugLevel) :
    ReadAs p line loadSessions ((started line loadChroots loadSessions).read p level) := by
  cases p with
  | schroot => exact readAs_schroot level
  | dchroot => exact readAs_dchroot level
  | dchrootDsa => exact readAs_dchrootDsa level

/-- All actions that are asked for are of some kind. -/
theorem exists_actionKind
    (p : Program) (line : CommandLine) :
    ∃ kind, OptionsBase.actionKind (p.askedAction line) = some kind := by
  have hall : ∀ request ∈ p.requests, (OptionsBase.actionKind request.2).isSome = true := by
    cases p <;> decide
  unfold askedAction
  cases hasked : OptionsBase.asked p.requests line.given with
  | nil => exact ⟨.automatic, rfl⟩
  | cons action others =>
      have hmem : action ∈ OptionsBase.asked p.requests line.given := by simp [hasked]
      obtain ⟨request, hrequest, rfl⟩ := List.mem_map.mp hmem
      exact Option.isSome_iff_exists.mp (hall request (List.mem_filter.mp hrequest).1)

/-- Only `schroot` is asked for a session that exists, or to begin one that stays. -/
theorem actionKind_schroot
    {kind : OptionsBase.ActionKind}
    (h : OptionsBase.actionKind (p.askedAction line) = some kind)
    (hkind : kind = .begin ∨ kind = .session) :
    p = .schroot := by
  have hother : ∀ p : Program, p ≠ .schroot → ∀ request ∈ p.requests,
      OptionsBase.actionKind request.2 ≠ some .begin ∧
        OptionsBase.actionKind request.2 ≠ some .session := by
    intro p hp
    cases p with
    | schroot => exact absurd rfl hp
    | dchroot => decide
    | dchrootDsa => decide
  by_contra hp
  unfold askedAction at h
  cases hasked : OptionsBase.asked p.requests line.given with
  | nil =>
      rw [hasked] at h
      cases h
      simp at hkind
  | cons action others =>
      rw [hasked, List.headD_cons] at h
      have hmem : action ∈ OptionsBase.asked p.requests line.given := by simp [hasked]
      obtain ⟨request, hrequest, rfl⟩ := List.mem_map.mp hmem
      obtain ⟨hbegin, hsession⟩ := hother p hp request (List.mem_filter.mp hrequest).1
      rcases hkind with rfl | rfl
      · exact hbegin h
      · exact hsession h

theorem parse_eq_ok :
    p.parse line loadChroots loadSessions = .ok o ↔
      (OptionsBase.asked p.requests line.given).length ≤ 1 ∧ ∃ level,
        (started line loadChroots loadSessions).shownLevel = some level ∧
          (p = .dchrootDsa →
            OptionsBase.CommandGiven ((started line loadChroots loadSessions).read p level)) ∧
          ((started line loadChroots loadSessions).read p level).checkActions = .ok o := by
  have hstart : (started line loadChroots loadSessions).action = OptionsBase.startAction := rfl
  simp only [parse, addOptions_store, bind_eq_ok_iff, Except.ok.injEq, exists_eq_left',
    OptionsBase.checkOptions_program_eq_ok p hstart]
  constructor
  · rintro ⟨q, ⟨hone, level, hlevel, hcommand, rfl⟩, h⟩
    exact ⟨hone, level, hlevel, hcommand, h⟩
  · rintro ⟨hone, level, hlevel, hcommand, h⟩
    exact ⟨_, ⟨hone, level, hlevel, hcommand, rfl⟩, h⟩

theorem exists_shownLevel :
    (∃ level, (started line loadChroots loadSessions).shownLevel = some level) ↔
      ("debug" ∈ line.given → (OptionsBase.debugLevelOf line.debugLevel).isSome = true) := by
  by_cases hdebug : "debug" ∈ line.given
  · simp [OptionsBase.shownLevel, OptionsBase.count, started, CommandLine.store, hdebug,
      Option.isSome_iff_exists]
  · simp [OptionsBase.shownLevel, OptionsBase.count, started, CommandLine.store, hdebug]

theorem ReadAs.permitted_iff
    {kind : OptionsBase.ActionKind}
    (h : ReadAs p line loadSessions o)
    (hkind : OptionsBase.actionKind (p.askedAction line) = some kind) :
    OptionsBase.Permitted kind o ↔
      (p.askedAction line = actionSessionBegin → (p.namedChroots line).length = 1) ∧
        (line.sessionName ≠ "" →
          p.askedAction line = actionSessionBegin ∧
            isValidSessionname line.sessionName = true) := by
  have hbegin : kind = .begin ↔ p.askedAction line = actionSessionBegin := by
    rw [← OptionsBase.actionKind_eq_begin, hkind, Option.some.injEq]
  rw [← hbegin, ← h.chroots, ← h.sessionName]
  constructor
  · rintro ⟨hone, hname⟩
    exact ⟨hone, hname⟩
  · rintro ⟨hone, hname⟩
    exact ⟨hone, hname⟩

theorem ReadAs.commandGiven_iff
    (h : ReadAs p line loadSessions o)
    (hp : p = .dchrootDsa) :
    OptionsBase.CommandGiven o ↔
      (p.commandOf line).length ≤ 1 ∧
        (∀ command ∈ p.commandOf line, isAbsname command = true) ∧
        (p.namedChroots line = [] →
          "all" ∈ line.given ∨ OptionsBase.needsNoChroot (p.askedAction line) = true) := by
  rw [← h.command, ← h.chroots, ← h.action, ← h.all hp]
  constructor
  · rintro ⟨hone, hpath, hchroot⟩
    exact ⟨hone, hpath, hchroot⟩
  · rintro ⟨hone, hpath, hchroot⟩
    exact ⟨hone, hpath, hchroot⟩

/-- **The command lines that are accepted**, whatever the two flags were before. -/
theorem exists_parse_iff (p : Program) (line : CommandLine) (loadChroots loadSessions : Bool) :
    (∃ o, p.parse line loadChroots loadSessions = .ok o) ↔ p.Accepts line := by
  obtain ⟨kind, hkind⟩ := exists_actionKind p line
  have hread : ∀ level, ReadAs p line loadSessions
      ((started line loadChroots loadSessions).read p level) := readAs p
  have hactions : ∀ level,
      (∃ o, ((started line loadChroots loadSessions).read p level).checkActions = .ok o) ↔
        OptionsBase.Permitted kind ((started line loadChroots loadSessions).read p level) := by
    intro level
    refine (OptionsBase.checkActions_spec ?_ (hread level).expanded).1
    rw [(hread level).action]
    exact hkind
  simp only [parse_eq_ok]
  constructor
  · rintro ⟨o, hone, level, hlevel, hgiven, ho⟩
    obtain ⟨hchroot, hname⟩ :=
      ((hread level).permitted_iff hkind).mp ((hactions level).mp ⟨o, ho⟩)
    exact ⟨hone, exists_shownLevel.mp ⟨level, hlevel⟩, hchroot, hname,
      fun hp => ((hread level).commandGiven_iff hp).mp (hgiven hp)⟩
  · rintro ⟨hone, hdebug, hchroot, hname, hcommand⟩
    obtain ⟨level, hlevel⟩ := exists_shownLevel.mpr hdebug
    obtain ⟨o, ho⟩ := (hactions level).mpr
      (((hread level).permitted_iff hkind).mpr ⟨hchroot, hname⟩)
    exact ⟨o, hone, level, hlevel,
      fun hp => ((hread level).commandGiven_iff hp).mpr (hcommand hp), ho⟩

/-- **What an accepted command line is understood as.** -/
structure Understood (p : Program) (line : CommandLine) (loadSessions : Bool)
    (kind : OptionsBase.ActionKind) (o : OptionsBase) : Prop where
  selected : OptionsBase.Selected kind o
  action : o.action.get = p.askedAction line
  chroots : o.chroots = p.namedChroots line ∨
    kind = .automatic ∧ p.namedChroots line = [] ∧ o.chroots = ["default"]
  command : o.command = p.commandOf line
  sessionName : o.sessionName = line.sessionName
  useroptionsMap : o.useroptionsMap = userOptions p line
  schroot : kind = .begin ∨ kind = .session → p = .schroot
  printSessions : kind = .print → o.loadSessions =
    (!(p.namedChroots line).isEmpty || p.asksSessions line || loadSessions)

/-- **The options that are left are consistent**: what is loaded and used fits the action. -/
theorem understood_of_parse
    (h : p.parse line loadChroots loadSessions = .ok o) :
    ∃ kind, Understood p line loadSessions kind o := by
  obtain ⟨kind, hkind⟩ := exists_actionKind p line
  obtain ⟨-, level, -, -, hactions⟩ := parse_eq_ok.mp h
  have hread : ReadAs p line loadSessions
      ((started line loadChroots loadSessions).read p level) := readAs p level
  have hschroot := actionKind_schroot hkind
  rw [← hread.action] at hkind
  obtain ⟨hselected, ⟨hrest⟩, hchroots, hdefault, hprint⟩ :=
    (OptionsBase.checkActions_spec hkind hread.expanded).2 o hactions
  rw [hread.chroots] at hchroots hdefault
  refine ⟨kind, hselected, ?_, ?_, ?_, ?_, ?_, hschroot, fun hkind => ?_⟩
  · rw [hrest]
    exact hread.action
  · by_cases hautomatic : kind = .automatic
    · rcases hdefault hautomatic with hsame | ⟨hnil, hnew⟩
      · exact .inl hsame
      · exact .inr ⟨hautomatic, hnil, hnew⟩
    · exact .inl (hchroots hautomatic)
  · rw [hrest]
    exact hread.command
  · rw [hrest]
    exact hread.sessionName
  · rw [hrest]
    exact hread.useroptionsMap
  · rw [hprint hkind, hread.chroots, hread.allSessions, hread.loadSessions]

/-- **What `parse` does with a command line**, whatever the two flags were before: it is accepted if
it is one of those that are, and what is left of it fits the action. -/
theorem parse_understands (p : Program) (line : CommandLine) (loadChroots loadSessions : Bool) :
    ((∃ o, p.parse line loadChroots loadSessions = .ok o) ↔ p.Accepts line) ∧
      ∀ o, p.parse line loadChroots loadSessions = .ok o →
        ∃ kind, Understood p line loadSessions kind o :=
  ⟨exists_parse_iff p line loadChroots loadSessions, fun _ => understood_of_parse⟩

/-- `schroot` with an option of the user, as it begins a session under a name. -/
def beginLine : CommandLine where
  given := ["begin-session", "chroot", "session-name", "option"]
  chroots := ["wheezy"]
  sessionName := "wheezy-1"
  useroptions := ["debug=yes", "debug=no"]

/-- The actions that print. -/
theorem actionKind_eq_print
    {action : String} :
    OptionsBase.actionKind action = some .print ↔
      action ∈ [actionList, actionInfo, actionLocation, actionConfig] := by
  constructor
  · intro h
    unfold OptionsBase.actionKind at h
    split at h
    · cases h
    · split at h
      · cases h
      · split at h
        · cases h
        · split at h
          · cases h
          · split at h
            · simpa using ‹_›
            · cases h
  · revert action
    decide

/-- **What is loaded is settled by the command line**, and not by what the flags were before, unless
something is printed and neither chroots nor sessions are asked for: then whether sessions are
loaded is what the flag was before. -/
theorem loads_settled_iff
    (h : p.Accepts line) :
    ((∀ loadChroots loadSessions loadChroots' loadSessions' o o',
        p.parse line loadChroots loadSessions = .ok o →
          p.parse line loadChroots' loadSessions' = .ok o' →
            o.loadChroots = o'.loadChroots ∧ o.loadSessions = o'.loadSessions) ↔
        ¬ (p.askedAction line ∈ [actionList, actionInfo, actionLocation, actionConfig] ∧
          p.namedChroots line = [] ∧ p.asksSessions line = false)) ∧
      (p.askedAction line ∈ [actionList, actionInfo, actionLocation, actionConfig] →
        p.namedChroots line = [] → p.asksSessions line = false →
          ∀ loadChroots loadSessions o,
            p.parse line loadChroots loadSessions = .ok o → o.loadSessions = loadSessions) := by
  obtain ⟨kind, hkind⟩ := exists_actionKind p line
  have hunderstood : ∀ {loadChroots loadSessions o},
      p.parse line loadChroots loadSessions = .ok o → Understood p line loadSessions kind o := by
    intro loadChroots loadSessions o ho
    obtain ⟨kind', hkind'⟩ := understood_of_parse ho
    have hsame := hkind'.selected.action
    rw [hkind'.action, hkind] at hsame
    cases hsame
    exact hkind'
  rw [← actionKind_eq_print, hkind, Option.some.injEq]
  have hflag : kind = .print → p.namedChroots line = [] → p.asksSessions line = false →
      ∀ loadChroots loadSessions o, p.parse line loadChroots loadSessions = .ok o →
        o.loadSessions = loadSessions := by
    intro hprint hnil hsessions loadChroots loadSessions o ho
    rw [(hunderstood ho).printSessions hprint, hnil, hsessions]
    rfl
  refine ⟨?_, hflag⟩
  constructor
  · rintro hsettled ⟨hprint, hnil, hsessions⟩
    obtain ⟨o, ho⟩ := (exists_parse_iff p line false false).mpr h
    obtain ⟨o', ho'⟩ := (exists_parse_iff p line false true).mpr h
    have hsame := (hsettled _ _ _ _ o o' ho ho').2
    rw [hflag hprint hnil hsessions _ _ o ho, hflag hprint hnil hsessions _ _ o' ho'] at hsame
    cases hsame
  · intro hother lc ls lc' ls' o o' ho ho'
    have hu := hunderstood ho
    have hu' := hunderstood ho'
    constructor
    · rw [Bool.eq_iff_iff, hu.selected.loadChroots, hu'.selected.loadChroots]
    · cases hk : kind with
      | print =>
          rw [hu.printSessions hk, hu'.printSessions hk]
          cases hnil : (p.namedChroots line).isEmpty with
          | false => simp
          | true =>
              cases hsessions : p.asksSessions line with
              | true => simp
              | false => exact absurd ⟨hk, List.isEmpty_iff.mp hnil, hsessions⟩ hother
      | session => rw [hu.selected.sessions (.inl hk), hu'.selected.sessions (.inl hk)]
      | automatic =>
          rw [(hu.selected.noSessions (.inl hk)).1, (hu'.selected.noSessions (.inl hk)).1]
      | begin =>
          rw [(hu.selected.noSessions (.inr (.inl hk))).1,
            (hu'.selected.noSessions (.inr (.inl hk))).1]
      | basic =>
          rw [(hu.selected.noSessions (.inr (.inr hk))).1,
            (hu'.selected.noSessions (.inr (.inr hk))).1]

/-- What `schroot --list` loads is not settled on its own. -/
theorem not_loads_settled_list :
    ¬ ∀ loadChroots loadSessions loadChroots' loadSessions' o o',
      Program.parse .schroot { given := ["list"] } loadChroots loadSessions = .ok o →
        Program.parse .schroot { given := ["list"] } loadChroots' loadSessions' = .ok o' →
          o.loadChroots = o'.loadChroots ∧ o.loadSessions = o'.loadSessions := by
  have haccepts : Program.Accepts .schroot { given := ["list"] } :=
    ⟨by decide, by decide, fun h => absurd h (by decide), fun h => absurd rfl h,
      fun h => absurd h (by decide)⟩
  exact fun hsettled => (loads_settled_iff haccepts).1.mp hsettled ⟨by decide, rfl, rfl⟩

end Accepted

end Program

end Schroot
