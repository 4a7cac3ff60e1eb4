import Schroot.ChrootKeyfile

/-!
# Values of a keyfile

Every key is read with a priority, as a value of one of six types.  A value that cannot be
parsed is warned about and is then as good as missing, except that regular expressions and
personalities throw exceptions of their own.

**Results.**
* `run_eq_getPriorityValue`: this is how the keys of chroots are read.
* `throws_iff`: when reading a key throws.
* `throws_iff_of_parsed`, `not_enforced_priorities`: what the priority decides.
-/

namespace Schroot

section Model

/-- What `parse_value` makes of a text: nothing if it throws `parse_value_error`, which
`get_value` warns about, and an error if it throws anything else. -/
abbrev ValueParser (α : Type) := String → Except ObjectError (Option α)

/-- The types of the values that are read. -/
inductive ValueType where
  | string
  | bool
  | regex
  | personality
  | stringList
  | stringSet
deriving DecidableEq, Repr

namespace ValueType

/-- A value of a type. -/
abbrev Value : ValueType → Type
  | string => String
  | bool => Bool
  | regex => String
  | personality => Personality
  | stringList => List String
  | stringSet => Std.ExtTreeSet String

/-- The items of a list are parsed one after the other. -/
def parseItems {α : Type} (parse : ValueParser α) :
    List String → Except ObjectError (Option (List α))
  | [] => .ok (some [])
  | item :: items => do
      match ← parse item with
      | none => pure none
      | some value => (parseItems parse items).map (Option.map (value :: ·))

/-- `parse_value` for strings. -/
def parseString : ValueParser String :=
  fun value => .ok (some value)

/-- `operator >>` of a regular expression reads a line and compiles it. -/
def parseRegex (cfg : SbuildConfig) : ValueParser String :=
  fun value =>
    match firstLine value with
    | none => .ok none
    | some pattern => if cfg.regexValid pattern then .ok (some pattern) else .error (.regex pattern)

/-- `operator >>` of a personality reads a line and looks the name up. -/
def parsePersonality : ValueParser Personality :=
  fun value =>
    match firstLine value with
    | none => .ok none
    | some name => ((Personality.setName name).mapError .personality).map some

/-- `parse_value`, `get_list_value` and `get_set_value`, for the text of a key. -/
def parse (cfg : SbuildConfig) : (type : ValueType) → ValueParser type.Value
  | string => parseString
  | bool => fun value => .ok (parseBool value)
  | regex => parseRegex cfg
  | personality => parsePersonality
  | stringList => fun value => parseItems parseString (splitString value ",")
  | stringSet => fun value =>
      (parseItems parseString (splitString value ",")).map (Option.map fun items => .ofList items)

end ValueType

namespace Keyfile

/-- `get_value`, `get_list_value` and `get_set_value` without a priority. -/
def getValue {α : Type} (kf : Keyfile) (group key : String) (parse : ValueParser α) :
    Except KeyfileCause (Option α) :=
  match kf.value? group key with
  | none => .ok none
  | some text => (parse text).mapError .object

/-- The same with a priority.  `check_priority` is told whether there is a value, not whether
there is a key. -/
def getPriorityValue {α : Type}
    (kf : Keyfile) (group key : String) (priority : Priority) (parse : ValueParser α) :
    Except KeyfileCause (Option α) := do
  let value ← kf.getValue group key parse
  (kf.checkPriority group key priority value.isSome).mapError .fault
  pure value

end Keyfile

end Model

section Readers

variable {σ α : Type}

theorem parseItems_parseString (items : List String) :
    ValueType.parseItems ValueType.parseString items = .ok (some items) := by
  induction items with
  | nil => rfl
  | cons item items ih =>
      show (ValueType.parseItems ValueType.parseString items).map _ = _
      rw [ih]
      rfl

/-- A reader parses a value and hands it to a method. -/
def ReadsBy (read : Reader σ) (parse : ValueParser α) (method : α → Setter σ) : Prop :=
  ∀ text, read text = (parse text).map (Option.map method)

theorem readsBy_readString (cfg : SbuildConfig) (method : String → Setter σ) :
    ReadsBy (readString method) (ValueType.string.parse cfg) method :=
  fun _ => rfl

theorem readsBy_readBool (cfg : SbuildConfig) (method : Bool → Setter σ) :
    ReadsBy (readBool method) (ValueType.bool.parse cfg) method :=
  fun _ => rfl

theorem readsBy_readRegex (cfg : SbuildConfig) (method : String → Setter Chroot) :
    ReadsBy (Chroot.readRegex cfg method) (ValueType.regex.parse cfg) method := by
  intro text
  simp only [Chroot.readRegex, ValueType.parse, ValueType.parseRegex]
  cases firstLine text with
  | none => rfl
  | some pattern => cases hvalid : cfg.regexValid pattern <;> simp [hvalid, Except.map]

theorem readsBy_readPersonality (cfg : SbuildConfig) (method : Personality → Setter σ) :
    ReadsBy (readPersonality method) (ValueType.personality.parse cfg) method := by
  intro text
  simp only [readPersonality, ValueType.parse, ValueType.parsePersonality]
  cases firstLine text with
  | none => rfl
  | some name => cases hname : Personality.setName name <;> simp [hname, Except.map, Except.mapError]

theorem readsBy_readList (cfg : SbuildConfig) (method : List String → Setter σ) :
    ReadsBy (readList method) (ValueType.stringList.parse cfg) method := by
  intro text
  simp only [ValueType.parse, parseItems_parseString]
  rfl

theorem readsBy_readSet (cfg : SbuildConfig) (method : Std.ExtTreeSet String → Setter σ) :
    ReadsBy (readSet method) (ValueType.stringSet.parse cfg) method := by
  intro text
  simp only [ValueType.parse, parseItems_parseString]
  rfl

/-- **How a key is read into an object**: its value is read, and if there is one, it is handed
to the method. -/
theorem run_eq_getPriorityValue
    {spec : KeySpec σ} {parse : ValueParser α} {method : α → Setter σ}
    (hread : ReadsBy spec.read parse method)
    (kf : Keyfile) (group : String) (obj : σ) :
    spec.run kf group obj =
      (kf.getPriorityValue group spec.key spec.priority parse).bind fun value =>
        (value.elim (.ok obj) fun a => method a obj).mapError .object := by
  unfold Keyfile.getPriorityValue Keyfile.getValue
  cases hv : kf.value? group spec.key with
  | none =>
      rw [KeySpec.run_of_skipped (.inl hv)]
      cases hcheck : kf.checkPriority group spec.key spec.priority false <;>
        simp [hcheck, Except.mapError, Except.bind, bind, pure, Except.pure]
  | some text =>
      have htext := hread text
      cases hparse : parse text with
      | error e =>
          rw [hparse] at htext
          simp [KeySpec.run, hv, htext, hparse, Except.map, Except.mapError, Except.bind, bind]
      | ok value =>
          rw [hparse] at htext
          cases value with
          | none =>
              rw [KeySpec.run_of_skipped (.inr ⟨text, hv, htext⟩)]
              cases hcheck : kf.checkPriority group spec.key spec.priority false <;>
                simp [hparse, hcheck, Except.mapError, Except.bind, bind, pure, Except.pure]
          | some a =>
              rw [KeySpec.run_of_reads ⟨text, hv, htext⟩]
              cases hcheck : kf.checkPriority group spec.key spec.priority true <;>
                simp [hparse, hcheck, Except.mapError, Except.bind, bind, pure, Except.pure]

end Readers

section Priorities

variable {α : Type} {kf : Keyfile} {group key : String} {priority : Priority}
  {parse : ValueParser α}

/-- Reading the key throws. -/
def Throws (kf : Keyfile) (group key : String) (priority : Priority) (parse : ValueParser α) :
    Prop :=
  ∃ e, kf.getPriorityValue group key priority parse = .error e

/-- The key has a value that can be parsed. -/
def HasValue (kf : Keyfile) (group key : String) (parse : ValueParser α) : Prop :=
  ∃ value, kf.getValue group key parse = .ok (some value)

/-- The key has a value that its type rejects with an exception of its own. -/
def Rejected (kf : Keyfile) (group key : String) (parse : ValueParser α) : Prop :=
  ∃ text e, kf.value? group key = some text ∧ parse text = .error e

/-- **The priority decides**: reading throws if and only if a required key is missing or cannot
be parsed, or a disallowed key is present. -/
def Enforced (kf : Keyfile) (group key : String) (priority : Priority) (parse : ValueParser α) :
    Prop :=
  Throws kf group key priority parse ↔
    priority = .required ∧ ¬ HasValue kf group key parse ∨
      priority = .disallowed ∧ kf.hasKey group key = true

theorem hasKey_iff :
    kf.hasKey group key = true ↔ ∃ text, kf.value? group key = some text := by
  unfold Keyfile.hasKey Keyfile.value?
  cases kf.findItem group key <;> simp

theorem rejected_iff :
    Rejected kf group key parse ↔ ∃ e, kf.getValue group key parse = .error e := by
  unfold Rejected Keyfile.getValue
  cases hv : kf.value? group key with
  | none => simp
  | some text => cases hparse : parse text <;> simp [hparse, Except.mapError]

theorem hasKey_of_hasValue
    (h : HasValue kf group key parse) :
    kf.hasKey group key = true := by
  obtain ⟨value, h⟩ := h
  rw [hasKey_iff]
  unfold Keyfile.getValue at h
  cases hv : kf.value? group key with
  | none => simp [hv] at h
  | some text => exact ⟨text, rfl⟩

/-- When `check_priority` throws. -/
theorem checkPriority_throws_iff
    (kf : Keyfile) (group key : String) (priority : Priority) (valid : Bool) :
    (∃ e, (kf.checkPriority group key priority valid).mapError KeyfileCause.fault = .error e) ↔
      priority = .required ∧ valid = false ∨ priority = .disallowed ∧ valid = true := by
  have hmissing := KeySpec.checkPriority_false_eq_ok_iff kf group key priority
  have hfound := KeySpec.checkPriority_true_eq_ok_iff kf group key priority
  have hthrows : ∀ x : Except KeyfileFault Unit,
      (∃ e, x.mapError KeyfileCause.fault = .error e) ↔ ¬ x = .ok () := by
    intro x
    cases x <;> simp [Except.mapError]
  rw [hthrows]
  cases valid with
  | false => simp [hmissing]
  | true => simp [hfound]

/-- A sequence throws if its first part does, or its second part after the first. -/
theorem bind_throws_iff {ε α β : Type} {x : Except ε α} {f : α → Except ε β} :
    (∃ e, (x >>= f) = .error e) ↔
      (∃ e, x = .error e) ∨ ∃ a, x = .ok a ∧ ∃ e, f a = .error e := by
  cases x <;> simp [bind, Except.bind]

/-- **When reading a key throws**: its type rejects the value, or there is no value of a required
key, or there is one of a disallowed key. -/
theorem throws_iff
    (kf : Keyfile) (group key : String) (priority : Priority) (parse : ValueParser α) :
    Throws kf group key priority parse ↔
      Rejected kf group key parse ∨
        priority = .required ∧ ¬ HasValue kf group key parse ∨
          priority = .disallowed ∧ HasValue kf group key parse := by
  have hcheck : ∀ value : Option α,
      (∃ e, ((kf.checkPriority group key priority value.isSome).mapError KeyfileCause.fault >>=
        fun _ => pure value) = .error e) ↔
      priority = .required ∧ value = none ∨ priority = .disallowed ∧ value.isSome = true := by
    intro value
    have hcheck := checkPriority_throws_iff kf group key priority value.isSome
    rw [Option.isSome_eq_false_iff, Option.isNone_iff_eq_none] at hcheck
    rw [bind_throws_iff, hcheck]
    simp [pure, Except.pure]
  unfold Throws Keyfile.getPriorityValue
  rw [bind_throws_iff, rejected_iff]
  simp only [hcheck]
  unfold HasValue
  cases kf.getValue group key parse with
  | error e => simp
  | ok value => cases value <;> simp

/-- **The priority decides what reading throws besides the exceptions of the types**, unless a
disallowed key has a value that cannot be parsed. -/
theorem throws_iff_of_parsed
    (cfg : SbuildConfig) (type : ValueType) (kf : Keyfile) (group key : String)
    (priority : Priority)
    (hparsed : priority = .disallowed →
      ∀ text, kf.value? group key = some text → type.parse cfg text ≠ .ok none) :
    Throws kf group key priority (type.parse cfg) ↔
      Rejected kf group key (type.parse cfg) ∨
        priority = .required ∧ ¬ HasValue kf group key (type.parse cfg) ∨
          priority = .disallowed ∧ kf.hasKey group key = true := by
  rw [throws_iff]
  have hpresent : priority = .disallowed →
      (Rejected kf group key (type.parse cfg) ∨ HasValue kf group key (type.parse cfg) ↔
        Rejected kf group key (type.parse cfg) ∨ kf.hasKey group key = true) := by
    intro hdisallowed
    constructor
    · exact Or.imp_right hasKey_of_hasValue
    · rintro (hrejected | hkey)
      · exact .inl hrejected
      · obtain ⟨text, hv⟩ := hasKey_iff.mp hkey
        cases hparse : type.parse cfg text with
        | error e => exact .inl ⟨text, e, hv, hparse⟩
        | ok value =>
            cases value with
            | none => exact absurd hparse (hparsed hdisallowed text hv)
            | some value =>
                refine .inr ⟨value, ?_⟩
                simp [Keyfile.getValue, hv, hparse, Except.mapError]
  by_cases hdisallowed : priority = .disallowed
  · simpa [hdisallowed] using hpresent hdisallowed
  · simp [hdisallowed]

/-- A boolean at a disallowed key. -/
theorem throws_of_disallowed_bool :
    Throws (Keyfile.empty.setValue "sid" "custom-session-cloneable" "true") "sid"
      "custom-session-cloneable" .disallowed (ValueType.bool.parse .standard) := by
  have hcloneable : (Keyfile.empty.setValue "sid" "custom-session-cloneable" "true").value?
      "sid" "custom-session-cloneable" = some "true" := by
    rw [Keyfile.value?_setValue]
    simp
  refine (throws_iff_of_parsed .standard .bool _ _ _ _ fun _ text htext => ?_).mpr
    (.inr (.inr ⟨rfl, hasKey_iff.mpr ⟨_, hcloneable⟩⟩))
  rw [hcloneable] at htext
  cases htext
  simp [ValueType.parse, parseBool]

/-- **A disallowed key is accepted if its value is not a boolean, and an unknown personality is
an error even where a personality is optional.** -/
theorem not_enforced_priorities :
    ¬ Enforced (Keyfile.empty.setValue "sid" "custom-session-cloneable" "maybe") "sid"
        "custom-session-cloneable" .disallowed (ValueType.bool.parse .standard) ∧
      ¬ Enforced (Keyfile.empty.setValue "sid" "personality" "vms") "sid" "personality" .optional
        (ValueType.personality.parse .standard) := by
  have hcloneable : (Keyfile.empty.setValue "sid" "custom-session-cloneable" "maybe").value?
      "sid" "custom-session-cloneable" = some "maybe" := by
    rw [Keyfile.value?_setValue]
    simp
  have hpersonality : (Keyfile.empty.setValue "sid" "personality" "vms").value?
      "sid" "personality" = some "vms" := by
    rw [Keyfile.value?_setValue]
    simp
  have hmaybe : ValueType.bool.parse .standard "maybe" = .ok none := by
    simp [ValueType.parse, parseBool]
  have hvms : ∃ e, ValueType.personality.parse .standard "vms" = .error e := ⟨_, rfl⟩
  constructor
  · intro h
    have hthrows := h.mpr (.inr ⟨rfl, hasKey_iff.mpr ⟨_, hcloneable⟩⟩)
    rw [throws_iff] at hthrows
    simp [Rejected, HasValue, Keyfile.getValue, hcloneable, hmaybe, Except.mapError] at hthrows
  · intro h
    obtain ⟨e, hvms⟩ := hvms
    have hthrows := h.mp ((throws_iff _ _ _ _ _).mpr (.inl ⟨_, e, hpersonality, hvms⟩))
    simp at hthrows

end Priorities

end Schroot
