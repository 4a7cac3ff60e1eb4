import Schroot.Library.SortedMap
import Schroot.Errors

/-!
# Keyfiles

A keyfile maps group names to groups and, within a group, key names to items, both
sorted by name.  This module has the store itself and the typed access of
`basic_keyfile`: reading a key with a priority through a parser into a setter, and
writing a key from a printed value.

**Results.**
* `KeySpec.get_eq_ok_iff`: what reading a key can do, in terms of its value alone.
-/

namespace Schroot

section Store

/-- A key with its value; `line` is `0` when the key was not read from a file. -/
structure Item where
  value : String
  comment : String
  line : Nat
deriving DecidableEq, Repr

/-- A group of keys. -/
structure Group where
  items : Std.ExtTreeMap String Item
  comment : String
  line : Nat

/-- A keyfile: groups by name. -/
structure Keyfile where
  groups : Std.ExtTreeMap String Group

namespace Keyfile

/-- The keyfile without groups. -/
def empty : Keyfile := ⟨∅⟩

def findGroup (kf : Keyfile) (group : String) : Option Group :=
  kf.groups[group]?

def findItem (kf : Keyfile) (group key : String) : Option Item :=
  (kf.findGroup group).bind (fun g => g.items[key]?)

def hasGroup (kf : Keyfile) (group : String) : Bool :=
  (kf.findGroup group).isSome

def hasKey (kf : Keyfile) (group key : String) : Bool :=
  (kf.findItem group key).isSome

/-- The group names in order. -/
def getGroups (kf : Keyfile) : List String :=
  kf.groups.keys

/-- The key names of a group in order. -/
def getKeys (kf : Keyfile) (group : String) : List String :=
  match kf.findGroup group with
  | some g => g.items.keys
  | none => []

def getGroupLine (kf : Keyfile) (group : String) : Nat :=
  match kf.findGroup group with
  | some g => g.line
  | none => 0

def getLine (kf : Keyfile) (group key : String) : Nat :=
  match kf.findItem group key with
  | some item => item.line
  | none => 0

/-- A group is created only if it does not exist yet. -/
def setGroup (kf : Keyfile) (group comment : String) (line : Nat) : Keyfile :=
  if kf.hasGroup group then
    kf
  else
    ⟨kf.groups.insert group ⟨∅, comment, line⟩⟩

/-- A key replaces an earlier one of the same name. -/
def setItem (kf : Keyfile) (group key : String) (item : Item) : Keyfile :=
  let kf := kf.setGroup group "" 0
  match kf.findGroup group with
  | some g => ⟨kf.groups.insert group { g with items := g.items.insert key item }⟩
  | none => kf

/-- `set_value` without comment and line. -/
def setValue (kf : Keyfile) (group key value : String) : Keyfile :=
  kf.setItem group key ⟨value, "", 0⟩

def removeGroup (kf : Keyfile) (group : String) : Keyfile :=
  ⟨kf.groups.erase group⟩

/-- The items of one group, set one by one. -/
def mergeItems (kf : Keyfile) (group : String) (items : List (String × Item)) : Keyfile :=
  items.foldl (fun kf entry => kf.setItem group entry.1 entry.2) kf

/-- `operator +=`: the groups of `rhs` and their items are set one by one. -/
def append (kf rhs : Keyfile) : Keyfile :=
  rhs.groups.toList.foldl
    (fun kf entry =>
      (kf.setGroup entry.1 entry.2.comment entry.2.line).mergeItems
        entry.1 entry.2.items.toList)
    kf

/-- The value of a key, if the key exists. -/
def value? (kf : Keyfile) (group key : String) : Option String :=
  (kf.findItem group key).map Item.value

@[simp] theorem value?_empty (group key : String) : empty.value? group key = none := by
  simp [value?, findItem, findGroup, empty]

/-- A keyfile is its groups. -/
theorem ext_findGroup
    {a b : Keyfile}
    (h : ∀ group, a.findGroup group = b.findGroup group) :
    a = b := by
  obtain ⟨groups⟩ := a
  obtain ⟨groups'⟩ := b
  exact congrArg Keyfile.mk (Std.ExtTreeMap.ext_getElem? fun group => h group)

theorem findGroup_setGroup
    (kf : Keyfile)
    (group comment : String)
    (line : Nat)
    (group' : String) :
    (kf.setGroup group comment line).findGroup group' =
      if group' = group ∧ kf.findGroup group = none then
        some ⟨∅, comment, line⟩
      else
        kf.findGroup group' := by
  unfold setGroup hasGroup
  cases h : kf.findGroup group with
  | some g => simp
  | none => simp [findGroup, SortedMap.getElem?_insert]

/-- The group that a new key is put into. -/
def groupOrNew (kf : Keyfile) (group : String) : Group :=
  (kf.findGroup group).getD ⟨∅, "", 0⟩

theorem findGroup_setItem
    (kf : Keyfile)
    (group key : String)
    (item : Item)
    (group' : String) :
    (kf.setItem group key item).findGroup group' =
      if group' = group then
        some { kf.groupOrNew group with
          items := (kf.groupOrNew group).items.insert key item }
      else
        kf.findGroup group' := by
  have hself : (kf.setGroup group "" 0).findGroup group = some (kf.groupOrNew group) := by
    rw [findGroup_setGroup, groupOrNew]
    cases kf.findGroup group <;> simp
  unfold setItem
  simp only [hself]
  show (Std.ExtTreeMap.insert _ _ _)[group']? = _
  rw [SortedMap.getElem?_insert]
  by_cases h : group' = group
  · simp [h]
  · have hother := findGroup_setGroup kf group "" 0 group'
    rw [if_neg (fun e => h e.1)] at hother
    rw [if_neg h, if_neg h]
    exact hother

theorem findItem_setItem
    (kf : Keyfile)
    (group key : String)
    (item : Item)
    (group' key' : String) :
    (kf.setItem group key item).findItem group' key' =
      if group' = group ∧ key' = key then some item else kf.findItem group' key' := by
  unfold findItem
  rw [findGroup_setItem]
  by_cases h : group' = group
  · subst h
    have hitems : (kf.findGroup group').bind (fun g => g.items[key']?) =
        (kf.groupOrNew group').items[key']? := by
      unfold groupOrNew
      cases kf.findGroup group' <;> simp
    simp only [if_true, Option.bind_some, SortedMap.getElem?_insert, true_and, hitems]
  · simp [h]

/-- The last write of a key wins. -/
theorem setItem_setItem
    (kf : Keyfile)
    (group key : String)
    (item item' : Item) :
    (kf.setItem group key item).setItem group key item' = kf.setItem group key item' := by
  have hself : (kf.setItem group key item).groupOrNew group =
      { kf.groupOrNew group with items := (kf.groupOrNew group).items.insert key item } := by
    rw [groupOrNew, findGroup_setItem, if_pos rfl]
    rfl
  have hinsert : ∀ items : Std.ExtTreeMap String Item,
      (items.insert key item).insert key item' = items.insert key item' := by
    intro items
    apply Std.ExtTreeMap.ext_getElem?
    intro k
    simp only [SortedMap.getElem?_insert]
    split <;> rfl
  apply ext_findGroup
  intro group'
  rw [findGroup_setItem, hself, hinsert]
  by_cases hgroup : group' = group
  · rw [if_pos hgroup, findGroup_setItem, if_pos hgroup]
  · rw [if_neg hgroup, findGroup_setItem, if_neg hgroup, findGroup_setItem, if_neg hgroup]

theorem value?_setValue
    (kf : Keyfile)
    (group key value group' key' : String) :
    (kf.setValue group key value).value? group' key' =
      if group' = group ∧ key' = key then some value else kf.value? group' key' := by
  unfold value? setValue
  rw [findItem_setItem]
  split <;> rfl

end Keyfile

end Store

section Reading

/-- How a missing or present key is to be treated. -/
inductive Priority where
  | optional
  | required
  | disallowed
  | deprecated
  | obsolete
deriving DecidableEq, Repr

/-- `check_priority`: a missing required key and a present disallowed key are
errors; everything else at most warns. -/
def Keyfile.checkPriority
    (kf : Keyfile) (group key : String) (priority : Priority) (valid : Bool) :
    Except KeyfileFault Unit :=
  match valid, priority with
  | false, .required =>
      let gline := kf.getGroupLine group
      if gline ≠ 0 then
        .error { code := .missingKey, line := gline, group := group, context := key }
      else
        .error { code := .missingKeyNl, group := group, context := key }
  | true, .disallowed =>
      let line := kf.getLine group key
      if line ≠ 0 then
        .error { code := .disallowedKey, line := line, group := group, context := key }
      else
        .error { code := .disallowedKeyNl, group := group, context := key }
  | _, _ => .ok ()

/-- A setter method of an object. -/
abbrev Setter (σ : Type) := σ → Except ObjectError σ

/-- How the value of a key is parsed and which setter call it leads to.  A value
that cannot be parsed is warned about and leads to no call. -/
abbrev Reader (σ : Type) := String → Except ObjectError (Option (Setter σ))

/-- `parse_value` for booleans. -/
def parseBool (value : String) : Option Bool :=
  if value = "true" ∨ value = "yes" ∨ value = "1" then
    some true
  else if value = "false" ∨ value = "no" ∨ value = "0" then
    some false
  else
    none

/-- Booleans are written with `std::boolalpha`. -/
def printBool (b : Bool) : String :=
  if b then "true" else "false"

@[simp] theorem parseBool_printBool (b : Bool) : parseBool (printBool b) = some b := by
  cases b <;> rfl

/-- What `std::getline` delivers from a value: its first line, unless it is empty. -/
def firstLine (value : String) : Option String :=
  (LineText.records '\n' value.toList).head?.map String.ofList

variable {σ : Type}

def readString (method : String → Setter σ) : Reader σ :=
  fun value => .ok (some (method value))

def readBool (method : Bool → Setter σ) : Reader σ :=
  fun value => .ok ((parseBool value).map method)

/-- `get_object_list_value`: the items between the separators. -/
def readList (method : List String → Setter σ) : Reader σ :=
  fun value => .ok (some (method (splitString value ",")))

/-- `get_object_set_value`: the set of the items between the separators. -/
def readSet (method : Std.ExtTreeSet String → Setter σ) : Reader σ :=
  fun value => .ok (some (method (Std.ExtTreeSet.ofList (splitString value ","))))

/-- The null method of obsolete keys: the value is parsed and dropped. -/
def nullMethod {α : Type} : α → Setter σ :=
  fun _ obj => .ok obj

/-- One key that an object reads: its name, the name under which it is counted as
used, its priority, and how its value is read. -/
structure KeySpec (σ : Type) where
  key : String
  priority : Priority
  read : Reader σ
  used : String := key

namespace KeySpec

/-- The body of `get_object_value` inside its handler. -/
def run (spec : KeySpec σ) (kf : Keyfile) (group : String) (obj : σ) :
    Except KeyfileCause σ := do
  let act ←
    match kf.value? group spec.key with
    | none => pure none
    | some value => (spec.read value).mapError .object
  (kf.checkPriority group spec.key spec.priority act.isSome).mapError .fault
  match act with
  | none => pure obj
  | some act => (act obj).mapError .object

/-- `get_object_value`: any exception is passed on with the place of the key. -/
def get (spec : KeySpec σ) (kf : Keyfile) (group : String) (obj : σ) :
    Except KeyfileError σ :=
  (spec.run kf group obj).mapError
    (.passthrough (kf.getLine group spec.key) group spec.key)

/-- The key is missing, or its value could not be parsed. -/
def Skipped (spec : KeySpec σ) (kf : Keyfile) (group : String) : Prop :=
  kf.value? group spec.key = none ∨
    ∃ value, kf.value? group spec.key = some value ∧ spec.read value = .ok none

/-- The value of the key was parsed and leads to a setter call. -/
def Reads (spec : KeySpec σ) (kf : Keyfile) (group : String) (act : Setter σ) : Prop :=
  ∃ value, kf.value? group spec.key = some value ∧ spec.read value = .ok (some act)

theorem checkPriority_false_eq_ok_iff
    (kf : Keyfile) (group key : String) (priority : Priority) :
    kf.checkPriority group key priority false = .ok () ↔ priority ≠ .required := by
  cases priority <;> simp [Keyfile.checkPriority]
  split <;> simp

theorem checkPriority_true_eq_ok_iff
    (kf : Keyfile) (group key : String) (priority : Priority) :
    kf.checkPriority group key priority true = .ok () ↔ priority ≠ .disallowed := by
  cases priority <;> simp [Keyfile.checkPriority]
  split <;> simp

theorem run_of_skipped
    {spec : KeySpec σ} {kf : Keyfile} {group : String}
    (h : spec.Skipped kf group)
    (obj : σ) :
    spec.run kf group obj =
      ((kf.checkPriority group spec.key spec.priority false).mapError .fault).bind
        (fun _ => .ok obj) := by
  rcases h with h | ⟨value, h, hread⟩
  · simp only [run, h]
    rfl
  · simp only [run, h, hread]
    rfl

theorem run_of_reads
    {spec : KeySpec σ} {kf : Keyfile} {group : String} {act : Setter σ}
    (h : spec.Reads kf group act)
    (obj : σ) :
    spec.run kf group obj =
      ((kf.checkPriority group spec.key spec.priority true).mapError .fault).bind
        (fun _ => (act obj).mapError .object) := by
  obtain ⟨value, h, hread⟩ := h
  simp only [run, h, hread]
  rfl

/-- **What reading a key can do**: leave the object alone, or make one setter call. -/
theorem get_eq_ok_iff
    (spec : KeySpec σ) (kf : Keyfile) (group : String) (obj obj' : σ) :
    spec.get kf group obj = .ok obj' ↔
      (spec.Skipped kf group ∧ spec.priority ≠ .required ∧ obj' = obj) ∨
      (∃ act, spec.Reads kf group act ∧ spec.priority ≠ .disallowed ∧
        act obj = .ok obj') := by
  have hskip : ∀ h : spec.Skipped kf group,
      spec.run kf group obj = .ok obj' ↔ spec.priority ≠ .required ∧ obj' = obj := by
    intro h
    rw [run_of_skipped h, ← checkPriority_false_eq_ok_iff kf group spec.key]
    cases kf.checkPriority group spec.key spec.priority false <;>
      simp [Except.mapError, Except.bind, eq_comm]
  have hreads : ∀ act, spec.Reads kf group act →
      (spec.run kf group obj = .ok obj' ↔
        spec.priority ≠ .disallowed ∧ act obj = .ok obj') := by
    intro act h
    rw [run_of_reads h, ← checkPriority_true_eq_ok_iff kf group spec.key]
    cases kf.checkPriority group spec.key spec.priority true <;>
      simp [Except.mapError, Except.bind]
    cases act obj <;> simp
  rw [get, mapError_eq_ok_iff]
  cases hv : kf.value? group spec.key with
  | none =>
      have h : spec.Skipped kf group := .inl hv
      simp [hskip h, h, Reads, hv]
  | some value =>
      cases hr : spec.read value with
      | error e =>
          simp [run, hv, hr, Except.mapError, Skipped, Reads, bind, Except.bind]
      | ok act =>
          cases act with
          | none =>
              have h : spec.Skipped kf group := .inr ⟨value, hv, hr⟩
              simp [hskip h, h, Reads, hv, hr]
          | some act =>
              have h : spec.Reads kf group act := ⟨value, hv, hr⟩
              simp [hreads act h, Skipped, Reads, hv, hr]

end KeySpec

end Reading

end Schroot
