import Schroot.Library.TaggedList
import Schroot.Keyfile

/-!
# Chroot facets

A chroot carries a list of facets, each with data of its own.  This module has the
facets and the methods that touch nothing but the facet; methods that also touch
the chroot are with the chroot.

**Results.**
* `Personality.findName_persona`: a personality prints as the name it was set by.
* `isKeyChar_of_validateKeyname`, `dot_mem_of_validateKeyname`: what a valid user data
  key looks like.
-/

namespace Schroot

section PersonalityFacet

/-- The supported personalities, sorted by name. -/
def personalities : List (String × Nat) :=
  [("bsd", 0x0000006), ("hpux", 0x0000010), ("irix32", 0x4000009),
   ("irix64", 0x400000b), ("irixn32", 0x400000a), ("iscr4", 0x4000005),
   ("linux", 0x0000000), ("linux32", 0x0000008), ("linux_32bit", 0x0800000),
   ("osf4", 0x000000f), ("osr5", 0x6000003), ("riscos", 0x000000c),
   ("scorvr3", 0x7000003), ("solaris", 0x400000d), ("sunos", 0x4000006),
   ("svr4", 0x4100001), ("undefined", 0xffffffff), ("uw7", 0x410000e),
   ("wysev386", 0x5000004), ("xenix", 0x5000007)]

/-- A personality is an entry of the table. -/
structure Personality where
  name : String
  persona : Nat
  known : (name, persona) ∈ personalities
deriving DecidableEq

namespace Personality

/-- The personality that nothing was set for. -/
def undefined : Personality := ⟨"undefined", 0xffffffff, by decide⟩

/-- `find_personality` by number. -/
def findName (persona : Nat) : String :=
  match personalities.find? (fun entry => entry.2 = persona) with
  | some entry => entry.1
  | none => "unknown"

/-- `get_personalities`: the names, with a line break behind them. -/
def getPersonalities : String :=
  "Valid personalities: " ++ ", ".intercalate (personalities.map Prod.fst) ++ "\n"

/-- `find_personality` by name followed by `set_name`. -/
def setName (name : String) : Except PersonalityError Personality :=
  match h : personalities.find? (fun entry => entry.1 = name) with
  | some entry => .ok ⟨entry.1, entry.2, List.mem_of_find?_eq_some h⟩
  | none =>
      .error { code := .bad, context := name, reason := getPersonalities }

/-- The name that `operator <<` prints. -/
def print (p : Personality) : String :=
  findName p.persona

/-- A personality prints as its name. -/
theorem findName_persona (p : Personality) : findName p.persona = p.name := by
  have h : ∀ entry ∈ personalities, findName entry.2 = entry.1 := by decide
  exact h _ p.known

theorem setName_name (p : Personality) : setName p.name = .ok p := by
  have h : ∀ entry ∈ personalities,
      personalities.find? (fun e => e.1 = entry.1) = some entry := by decide
  have hfind := h _ p.known
  unfold setName
  split
  · rename_i entry hentry
    rw [hfind] at hentry
    cases hentry
    rfl
  · rename_i hnone
    rw [hfind] at hnone
    cases hnone

theorem singleLine_name (p : Personality) : SingleLine p.name := by
  have h : ∀ entry ∈ personalities, SingleLine entry.1 := by decide
  exact h _ p.known

end Personality

/-- `operator >>` of a personality: its first line has to be a known name. -/
def readPersonality {σ : Type} (method : Personality → Setter σ) : Reader σ :=
  fun value =>
    match firstLine value with
    | none => .ok none
    | some name => ((Personality.setName name).mapError .personality).map (some ∘ method)

end PersonalityFacet

section UserdataFacet

/-- The parts of a text between dots. -/
def splitAtDots : List Char → List (List Char)
  | [] => [[]]
  | c :: cs =>
      match splitAtDots cs with
      | [] => [[c]]
      | part :: parts => if c = '.' then [] :: part :: parts else (c :: part) :: parts

def isLowerAscii (c : Char) : Bool :=
  'a' ≤ c && c ≤ 'z'

def isDigitAscii (c : Char) : Bool :=
  '0' ≤ c && c ≤ '9'

/-- A namespace matches `[a-z][a-z0-9]*`. -/
def isKeyNamespace : List Char → Bool
  | [] => false
  | c :: cs => isLowerAscii c && cs.all (fun d => isLowerAscii d || isDigitAscii d)

/-- The name after the last dot matches `[a-z][a-z0-9-]*`. -/
def isKeyBase : List Char → Bool
  | [] => false
  | c :: cs =>
      isLowerAscii c && cs.all (fun d => isLowerAscii d || isDigitAscii d || d = '-')

/-- `^([a-z][a-z0-9]*\.)+[a-z][a-z0-9-]*$`. -/
def isPermittedKeyname (key : String) : Bool :=
  match (splitAtDots key.toList).reverse with
  | [] => false
  | base :: namespaces =>
      isKeyBase base && !namespaces.isEmpty && namespaces.all isKeyNamespace

/-- `setup.data.dir` as a pattern, in which a dot stands for any character. -/
def isSetupDataDir : List Char → Bool
  | ['s', 'e', 't', 'u', 'p', _, 'd', 'a', 't', 'a', _, 'd', 'i', 'r'] => true
  | _ => false

/-- The keys reserved for the setup environment. -/
def isReservedKeyname (key : String) : Bool :=
  ["auth.", "chroot.", "host.", "libexec.", "mount.", "session.", "status.",
    "sysconf."].any (fun ns => ns.toList.isPrefixOf key.toList) ||
    isSetupDataDir key.toList

def validateKeyname (key : String) : Bool :=
  isPermittedKeyname key && !isReservedKeyname key

theorem splitAtDots_of_notMem
    {cs : List Char}
    (h : '.' ∉ cs) :
    splitAtDots cs = [cs] := by
  induction cs with
  | nil => rfl
  | cons c cs ih =>
      rw [List.mem_cons, not_or] at h
      simp [splitAtDots, ih h.2, Ne.symm h.1]

/-- Every character is a dot or in a part. -/
theorem mem_splitAtDots
    {cs : List Char} {c : Char}
    (h : c ∈ cs) :
    c = '.' ∨ ∃ part ∈ splitAtDots cs, c ∈ part := by
  induction cs with
  | nil => simp at h
  | cons d ds ih =>
      simp only [splitAtDots]
      cases hs : splitAtDots ds with
      | nil =>
          rcases List.mem_cons.mp h with rfl | h
          · exact .inr ⟨[c], by simp, by simp⟩
          · rcases ih h with h | ⟨part, hpart, _⟩
            · exact .inl h
            · simp [hs] at hpart
      | cons part parts =>
          by_cases hd : d = '.'
          · rcases List.mem_cons.mp h with rfl | h
            · exact .inl hd
            · rcases ih h with h | ⟨q, hq, hc⟩
              · exact .inl h
              · exact .inr ⟨q, by simp [hd, ← hs, hq], hc⟩
          · rcases List.mem_cons.mp h with rfl | h
            · exact .inr ⟨c :: part, by simp [hd], by simp⟩
            · rcases ih h with h | ⟨q, hq, hc⟩
              · exact .inl h
              · rw [hs] at hq
                rcases List.mem_cons.mp hq with rfl | hq
                · exact .inr ⟨d :: q, by simp [hd], by simp [hc]⟩
                · exact .inr ⟨q, by simp [hd, hq], hc⟩

/-- The first part starts as the text does. -/
theorem head?_splitAtDots
    (c : Char) (cs : List Char) :
    (splitAtDots (c :: cs)).head? = some [] ∨
      ∃ part, (splitAtDots (c :: cs)).head? = some (c :: part) := by
  simp only [splitAtDots]
  cases splitAtDots cs with
  | nil => exact .inr ⟨[], rfl⟩
  | cons part parts =>
      by_cases hc : c = '.'
      · exact .inl (by simp [hc])
      · exact .inr ⟨part, by simp [hc]⟩

/-- The parts of a permitted key name. -/
theorem isPermittedKeyname_cases
    {key : String}
    (h : isPermittedKeyname key = true) :
    ∃ namespaces base, splitAtDots key.toList = namespaces ++ [base] ∧ namespaces ≠ [] ∧
      (∀ part ∈ namespaces, isKeyNamespace part = true) ∧ isKeyBase base = true := by
  unfold isPermittedKeyname at h
  split at h
  · cases h
  · rename_i base namespaces hparts
    simp only [Bool.and_eq_true, Bool.not_eq_true', List.isEmpty_eq_false_iff, ne_eq,
      List.all_eq_true] at h
    refine ⟨namespaces.reverse, base, ?_, by simpa using h.1.2, fun part hpart => ?_, h.1.1⟩
    · have hreverse := congrArg List.reverse hparts
      simpa using hreverse
    · exact h.2 part (List.mem_reverse.mp hpart)

/-- A character of a key name. -/
def isKeyChar (c : Char) : Bool :=
  isLowerAscii c || isDigitAscii c || c = '-' || c = '.'

theorem isKeyChar_of_mem_part
    {part : List Char} {c : Char}
    (h : isKeyNamespace part = true ∨ isKeyBase part = true)
    (hc : c ∈ part) :
    isKeyChar c = true := by
  rcases h with h | h
  · cases part with
    | nil => simp at hc
    | cons d ds =>
        simp only [isKeyNamespace, Bool.and_eq_true, List.all_eq_true] at h
        rcases List.mem_cons.mp hc with rfl | hc
        · simp [isKeyChar, h.1]
        · have hd := h.2 c hc
          simp only [Bool.or_eq_true] at hd
          rcases hd with hd | hd <;> simp [isKeyChar, hd]
  · cases part with
    | nil => simp at hc
    | cons d ds =>
        simp only [isKeyBase, Bool.and_eq_true, List.all_eq_true] at h
        rcases List.mem_cons.mp hc with rfl | hc
        · simp [isKeyChar, h.1]
        · have hd := h.2 c hc
          simp only [Bool.or_eq_true] at hd
          rcases hd with (hd | hd) | hd <;> simp [isKeyChar, hd]

/-- **The characters of a valid key name.** -/
theorem isKeyChar_of_validateKeyname
    {key : String} {c : Char}
    (h : validateKeyname key = true)
    (hc : c ∈ key.toList) :
    isKeyChar c = true := by
  obtain ⟨namespaces, base, hparts, -, hnamespaces, hbase⟩ :=
    isPermittedKeyname_cases (Bool.and_eq_true_iff.mp h).1
  rcases mem_splitAtDots hc with rfl | ⟨part, hpart, hc⟩
  · decide
  · rw [hparts, List.mem_append, List.mem_singleton] at hpart
    rcases hpart with hpart | rfl
    · exact isKeyChar_of_mem_part (.inl (hnamespaces part hpart)) hc
    · exact isKeyChar_of_mem_part (.inr hbase) hc

/-- **A valid key name has a dot.** -/
theorem dot_mem_of_validateKeyname
    {key : String}
    (h : validateKeyname key = true) :
    '.' ∈ key.toList := by
  obtain ⟨namespaces, base, hparts, hne, -, -⟩ :=
    isPermittedKeyname_cases (Bool.and_eq_true_iff.mp h).1
  by_contra hdot
  rw [splitAtDots_of_notMem hdot] at hparts
  have hlength := congrArg List.length hparts
  simp only [List.length_singleton, List.length_append] at hlength
  exact hne (List.length_eq_zero_iff.mp (by omega))

/-- A valid key name starts with a letter. -/
theorem head_of_validateKeyname
    {key : String}
    (h : validateKeyname key = true) :
    ∃ c cs, key.toList = c :: cs ∧ isLowerAscii c = true := by
  obtain ⟨namespaces, base, hparts, hne, hnamespaces, -⟩ :=
    isPermittedKeyname_cases (Bool.and_eq_true_iff.mp h).1
  cases hkey : key.toList with
  | nil =>
      have hdot := dot_mem_of_validateKeyname h
      simp [hkey] at hdot
  | cons c cs =>
      obtain ⟨first, rest, rfl⟩ := List.exists_cons_of_ne_nil hne
      have hfirst := hnamespaces first (by simp)
      have hhead : (splitAtDots (c :: cs)).head? = some first := by
        rw [← hkey, hparts]
        rfl
      rcases head?_splitAtDots c cs with hnil | ⟨part, hcons⟩
      · rw [hhead] at hnil
        cases hnil
        cases hfirst
      · rw [hhead] at hcons
        cases hcons
        exact ⟨c, cs, rfl, (Bool.and_eq_true_iff.mp hfirst).1⟩

/-- The environment variable of a user data key. -/
def envname (key : String) : String :=
  String.ofList
    (key.toList.map (fun c =>
      let u := c.toUpper
      if u = '-' ∨ u = '.' then '_' else u))

/-- The user data facet.  `env` has the variable names of all keys that were ever
set, so that two keys never share a variable. -/
structure Userdata where
  userdata : Std.ExtTreeMap String String := ∅
  env : Std.ExtTreeSet String := ∅
  userModifiableKeys : Std.ExtTreeSet String := ∅
  rootModifiableKeys : Std.ExtTreeSet String := ∅

namespace Userdata

def setSystemData (u : Userdata) (key value : String) : Except UserdataError Userdata :=
  if key ∈ u.userdata then
    .ok { u with userdata := (u.userdata.erase key).insert key value }
  else if envname key ∈ u.env then
    .error
      { code := .keyAmbiguous, context := key,
        reason := "More than one configuration key would set the ‘" ++ envname key ++
          "’ environment variable" }
  else
    .ok { u with
      env := u.env.insert (envname key)
      userdata := u.userdata.insert key value }

/-- `remove_data` leaves the variable name reserved. -/
def removeData (u : Userdata) (key : String) : Userdata :=
  { u with userdata := u.userdata.erase key }

def setData (u : Userdata) (key value : String) : Except UserdataError Userdata :=
  if validateKeyname key then
    u.setSystemData key value
  else
    .error { code := .keynameInvalid, context := key }

/-- The loop of `set_data` over the options in key order: the state it reaches and
the error that ends it, if any. -/
def setAllowedData (allowed : Std.ExtTreeSet String) (root : Bool) :
    List (String × String) → Userdata → Userdata × Option UserdataError
  | [], u => (u, none)
  | (key, value) :: rest, u =>
      if key ∈ allowed then
        match u.setData key value with
        | .ok u' => setAllowedData allowed root rest u'
        | .error e => (u, some e)
      else
        (u, some
          { code := .keyDisallowed, context := key,
            reason :=
              if root then
                "The key is not present in user-modifiable-keys or root-modifiable-keys"
              else
                "The key is not present in user-modifiable-keys" })

def setUserData (data : Std.ExtTreeMap String String) (u : Userdata) :
    Userdata × Option UserdataError :=
  setAllowedData u.userModifiableKeys false data.toList u

/-- Root may use the keys of both sets. -/
def setRootData (data : Std.ExtTreeMap String String) (u : Userdata) :
    Userdata × Option UserdataError :=
  setAllowedData (u.userModifiableKeys.insertMany u.rootModifiableKeys.toList) true
    data.toList u

end Userdata

end UserdataFacet

section OtherFacets

/-- The kinds of facets. -/
inductive FacetKind where
  | personality
  | sessionClonable
  | userdata
  | session
  | sourceClonable
  | source
  | union
  | mountable
deriving DecidableEq, Repr

/-- The session facet.  Of the parent chroot only the facets are consulted. -/
structure SessionFacet where
  originalName : String := ""
  selectedName : String := ""
  parent : Option (List FacetKind) := none
deriving DecidableEq

namespace SessionFacet

/-- The original name is also the selected one until that is set. -/
def setOriginalName (s : SessionFacet) (name : String) : SessionFacet :=
  { s with originalName := name, selectedName := name }

end SessionFacet

/-- `get_namespace`: the name is cut at its first separator. -/
def getNamespace (name : String) : String × String :=
  if ':' ∈ name.toList then
    (String.ofList (name.toList.takeWhile (· ≠ ':')),
      String.ofList (name.toList.dropWhile (· ≠ ':')).tail)
  else
    ("", name)

/-- Only the name behind the namespace is kept. -/
def SessionFacet.setSelectedName (s : SessionFacet) (name : String) : SessionFacet :=
  { s with selectedName := (getNamespace name).2 }

structure SourceClonable where
  sourceClone : Bool := true
  sourceUsers : List String := []
  sourceGroups : List String := []
  sourceRootUsers : List String := []
  sourceRootGroups : List String := []
deriving DecidableEq

structure UnionFacet where
  unionType : String := "none"
  mountOptions : String := ""
  overlayDirectory : String
  underlayDirectory : String
deriving DecidableEq

namespace UnionFacet

def configured (u : UnionFacet) : Bool :=
  u.unionType ≠ "none"

/-- The known union types. -/
def isKnownType (type : String) : Bool :=
  type = "aufs" ∨ type = "overlay" ∨ type = "overlayfs" ∨ type = "unionfs" ∨
    type = "none"

def setOverlayDirectory (u : UnionFacet) (directory : String) :
    Except UnionError UnionFacet :=
  if isAbsname directory then
    .ok { u with overlayDirectory := directory }
  else
    .error { code := .unionOverlayAbs, context := directory }

def setUnderlayDirectory (u : UnionFacet) (directory : String) :
    Except UnionError UnionFacet :=
  if isAbsname directory then
    .ok { u with underlayDirectory := directory }
  else
    .error { code := .unionUnderlayAbs, context := directory }

end UnionFacet

structure Mountable where
  mountDevice : String := ""
  mountOptions : String := ""
  location : String := ""
deriving DecidableEq

/-- `chroot_facet_mountable::set_location`; `chroot_file` has the same method. -/
def checkLocation (location : String) : Except ChrootError String :=
  if location ≠ "" ∧ isAbsname location = false then
    .error { code := .locationAbs, context := location }
  else
    .ok location

/-- A facet with its data. -/
inductive Facet where
  | personality (p : Personality)
  | sessionClonable
  | userdata (u : Userdata)
  | session (s : SessionFacet)
  | sourceClonable (s : SourceClonable)
  | source
  | union (u : UnionFacet)
  | mountable (m : Mountable)

namespace Facet

def kind : Facet → FacetKind
  | personality _ => .personality
  | sessionClonable => .sessionClonable
  | userdata _ => .userdata
  | session _ => .session
  | sourceClonable _ => .sourceClonable
  | source => .source
  | union _ => .union
  | mountable _ => .mountable

end Facet

end OtherFacets

end Schroot
