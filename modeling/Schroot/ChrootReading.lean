import Schroot.ChrootConfig

/-!
# What reading keys can change

Rules for the reading loops of chroots: a relation that every key of a table keeps
is kept by the whole table, by every facet, and by the loop over the facets.  The
frame conditions of the setters follow: only a few keys change the name of a chroot
or the kinds of its facets.
-/

namespace Schroot

namespace Chroot

section Rules

variable {R : Chroot → Chroot → Prop}

theorem readKeys_cons
    (kf : Keyfile) (spec : KeySpec Chroot) (specs : List (KeySpec Chroot)) (c : Chroot) :
    readKeys kf (spec :: specs) c =
      (spec.get kf c.name c).bind (readKeys kf specs) := rfl

theorem readKeys_cons_eq_ok_iff
    {kf : Keyfile} {spec : KeySpec Chroot} {specs : List (KeySpec Chroot)} {c c' : Chroot} :
    readKeys kf (spec :: specs) c = .ok c' ↔
      ∃ d, spec.get kf c.name c = .ok d ∧ readKeys kf specs d = .ok c' := by
  rw [readKeys_cons]
  cases spec.get kf c.name c <;> simp [Except.bind]

theorem readKeys_append
    {kf : Keyfile} {specs specs' : List (KeySpec Chroot)} {c c' : Chroot} :
    readKeys kf (specs ++ specs') c = .ok c' ↔
      ∃ d, readKeys kf specs c = .ok d ∧ readKeys kf specs' d = .ok c' := by
  simp only [readKeys, List.foldlM_append]
  cases specs.foldlM (fun c spec => KeySpec.get spec kf c.name c) c <;>
    simp [bind, Except.bind]

/-- A relation that every key of a table keeps is kept by the table. -/
theorem readKeys_keeps
    {kf : Keyfile} {specs : List (KeySpec Chroot)} {c c' : Chroot}
    (hrefl : ∀ x, R x x)
    (htrans : ∀ x y z, R x y → R y z → R x z)
    (h : ∀ spec ∈ specs, ∀ x y, spec.get kf x.name x = .ok y → R x y)
    (hread : readKeys kf specs c = .ok c') :
    R c c' := by
  induction specs generalizing c with
  | nil =>
      cases hread
      exact hrefl _
  | cons spec specs ih =>
      rw [readKeys_cons] at hread
      cases hget : spec.get kf c.name c with
      | error e => simp [hget, Except.bind] at hread
      | ok d =>
          rw [hget] at hread
          have hstep : R c d := h spec (by simp) c d hget
          have hrest : R d c' := ih (fun s hs => h s (by simp [hs])) hread
          exact htrans c d c' hstep hrest

/-- An invariant that every key of a table keeps is kept by the table. -/
theorem readKeys_invariant
    {P : Chroot → Prop}
    {kf : Keyfile} {specs : List (KeySpec Chroot)} {c c' : Chroot}
    (h : ∀ spec ∈ specs, ∀ x y, P x → spec.get kf x.name x = .ok y → P y)
    (hc : P c)
    (hread : readKeys kf specs c = .ok c') :
    P c' :=
  readKeys_keeps (R := fun x y => P x → P y) (fun _ hx => hx)
    (fun _ _ _ hxy hyz hx => hyz (hxy hx))
    (fun spec hs x y hget hx => h spec hs x y hx hget) hread hc

/-- A relation that every facet keeps is kept by the loop over the facets. -/
theorem setFacetsKeyfile_keeps
    {kf : Keyfile}
    (hrefl : ∀ x, R x x)
    (htrans : ∀ x y z, R x y → R y z → R x z)
    (h : ∀ kind x y more, setFacetKeyfile kf kind x = .ok (y, more) → R x y)
    {n : Nat} {rest : List Facet} {c c' : Chroot} {used used' : List String}
    (hread : setFacetsKeyfile kf n rest c used = .ok (c', used')) :
    R c c' := by
  induction n generalizing rest c used with
  | zero =>
      cases hread
      exact hrefl _
  | succ n ih =>
      cases rest with
      | nil =>
          cases hread
          exact hrefl _
      | cons f fs =>
          simp only [setFacetsKeyfile] at hread
          cases hstep : setFacetKeyfile kf f.kind c with
          | error e => simp [hstep, bind, Except.bind] at hread
          | ok result =>
              obtain ⟨d, more⟩ := result
              simp only [hstep, bind, Except.bind] at hread
              exact htrans c d c' (h f.kind c d more hstep) (ih hread)

end Rules

section Frames

/-- The name, the type and the facet kinds are those of before. -/
structure Frame (c c' : Chroot) : Prop where
  name : c'.name = c.name
  typeName : c'.kind.typeName = c.kind.typeName
  facetKinds : c'.facetKinds = c.facetKinds

theorem Frame.refl (c : Chroot) : Frame c c := ⟨rfl, rfl, rfl⟩

theorem Frame.trans
    {a b c : Chroot}
    (hab : Frame a b)
    (hbc : Frame b c) :
    Frame a c :=
  ⟨hbc.name.trans hab.name, hbc.typeName.trans hab.typeName,
    hbc.facetKinds.trans hab.facetKinds⟩

@[simp] theorem facetKinds_updateFacet (f : Facet) (c : Chroot) :
    (c.updateFacet f).facetKinds = c.facetKinds :=
  TaggedList.tags_replace f c.facets

theorem hasFacet_iff (c : Chroot) (kind : FacetKind) :
    c.hasFacet kind = true ↔ kind ∈ c.facetKinds :=
  TaggedList.has_iff_mem_tags

theorem hasFacet_eq_of_facetKinds
    {c c' : Chroot}
    (h : c'.facetKinds = c.facetKinds)
    (kind : FacetKind) :
    c'.hasFacet kind = c.hasFacet kind :=
  TaggedList.has_eq_of_tags_eq h kind

theorem frame_updateFacet (f : Facet) (c : Chroot) : Frame c (c.updateFacet f) :=
  ⟨rfl, rfl, facetKinds_updateFacet f c⟩

theorem frame_setProfile
    {profile : String} {c c' : Chroot}
    (h : setProfile profile c = .ok c') :
    Frame c c' := by
  unfold setProfile at h
  simp only at h
  split at h
  · cases h
    exact ⟨rfl, rfl, rfl⟩
  · rename_i u _
    cases hfold : (profileData profile).foldlM
        (fun u e => u.setSystemData e.1 e.2) u with
    | error e => simp [hfold, bind, Except.bind] at h
    | ok u' =>
        simp only [hfold, bind, Except.bind, pure, Except.pure, Except.ok.injEq] at h
        subst h
        exact ⟨rfl, rfl, TaggedList.tags_replace _ _⟩

theorem frame_setScriptConfig (scriptConfig : String) (c : Chroot) :
    Frame c (setScriptConfig scriptConfig c) := by
  unfold setScriptConfig
  simp only
  split
  · exact ⟨rfl, rfl, rfl⟩
  · exact ⟨rfl, rfl, TaggedList.tags_replace _ _⟩

theorem frame_setAliases
    {aliases : List String} {c c' : Chroot}
    (h : setAliases aliases c = .ok c') :
    Frame c c' := by
  unfold setAliases at h
  cases hcheck : aliases.forM checkAlias with
  | error e => simp [hcheck, bind, Except.bind] at h
  | ok _ =>
      simp only [hcheck, bind, Except.bind, pure, Except.pure, Except.ok.injEq] at h
      subst h
      exact ⟨rfl, rfl, rfl⟩

theorem frame_setMountLocation
    {location : String} {c c' : Chroot}
    (h : setMountLocation location c = .ok c') :
    Frame c c' := by
  unfold setMountLocation at h
  split at h <;> cases h
  exact ⟨rfl, rfl, rfl⟩

theorem setName_eq_ok_iff
    {name : String} {c c' : Chroot} :
    setName name c = .ok c' ↔
      ':' ∉ name.toList ∧ isValidSessionname name = true ∧ c' = { c with name := name } := by
  unfold setName
  by_cases hsep : ':' ∈ name.toList
  · simp [hsep]
  · by_cases hvalid : isValidSessionname name = true
    · simp [hsep, hvalid, eq_comm]
    · simp [hsep, hvalid]

theorem frame_setVerbosity
    {verbosity : String} {c c' : Chroot}
    (h : setVerbosity verbosity c = .ok c') :
    Frame c c' := by
  unfold setVerbosity at h
  repeat (split at h; · cases h; exact ⟨rfl, rfl, rfl⟩)
  cases h

theorem frame_setMountDevice (device : String) (c : Chroot) :
    Frame c (setMountDevice device c) := by
  unfold setMountDevice
  split
  · exact Frame.refl c
  · exact frame_updateFacet _ c

theorem chrootSetter_eq_ok_iff
    {α : Type} {method : α → Chroot → Except ChrootError Chroot}
    {value : α} {c c' : Chroot} :
    chrootSetter method value c = .ok c' ↔ method value c = .ok c' :=
  mapError_eq_ok_iff

theorem kindSetter_eq_ok_iff
    {α : Type} {method : α → Chroot → Except ChrootError ChrootKind}
    {value : α} {c c' : Chroot} :
    kindSetter method value c = .ok c' ↔
      ∃ kind, method value c = .ok kind ∧ c' = { c with kind := kind } := by
  unfold kindSetter
  rw [mapError_eq_ok_iff]
  cases method value c <;> simp [Except.map, eq_comm]

end Frames

section Inversion

/-- A key read through a string setter. -/
theorem get_readString
    {spec : KeySpec Chroot} {method : String → Setter Chroot}
    {kf : Keyfile} {group : String} {c c' : Chroot}
    (hread : spec.read = readString method)
    (h : spec.get kf group c = .ok c') :
    c' = c ∨ ∃ v, spec.priority ≠ .disallowed ∧
      kf.value? group spec.key = some v ∧ method v c = .ok c' := by
  rcases (spec.get_eq_ok_iff kf group c c').mp h with
    ⟨_, _, rfl⟩ | ⟨act, ⟨v, hv, hact⟩, hp, hset⟩
  · exact .inl rfl
  · rw [hread] at hact
    cases hact
    exact .inr ⟨v, hp, hv, hset⟩

/-- A key read through a list setter. -/
theorem get_readList
    {spec : KeySpec Chroot} {method : List String → Setter Chroot}
    {kf : Keyfile} {group : String} {c c' : Chroot}
    (hread : spec.read = readList method)
    (h : spec.get kf group c = .ok c') :
    c' = c ∨ ∃ v, spec.priority ≠ .disallowed ∧
      kf.value? group spec.key = some v ∧ method (splitString v ",") c = .ok c' := by
  rcases (spec.get_eq_ok_iff kf group c c').mp h with
    ⟨_, _, rfl⟩ | ⟨act, ⟨v, hv, hact⟩, hp, hset⟩
  · exact .inl rfl
  · rw [hread] at hact
    cases hact
    exact .inr ⟨v, hp, hv, hset⟩

/-- A key read through a boolean setter. -/
theorem get_readBool
    {spec : KeySpec Chroot} {method : Bool → Setter Chroot}
    {kf : Keyfile} {group : String} {c c' : Chroot}
    (hread : spec.read = readBool method)
    (h : spec.get kf group c = .ok c') :
    c' = c ∨ ∃ v b, spec.priority ≠ .disallowed ∧
      kf.value? group spec.key = some v ∧ parseBool v = some b ∧ method b c = .ok c' := by
  rcases (spec.get_eq_ok_iff kf group c c').mp h with
    ⟨_, _, rfl⟩ | ⟨act, ⟨v, hv, hact⟩, hp, hset⟩
  · exact .inl rfl
  · rw [hread] at hact
    obtain ⟨b, hb, rfl⟩ := Option.map_eq_some_iff.mp (Except.ok.inj hact)
    exact .inr ⟨v, b, hp, hv, hb, hset⟩

/-- A key read through a setter of the environment filter. -/
theorem get_readRegex
    {cfg : SbuildConfig} {spec : KeySpec Chroot} {method : String → Setter Chroot}
    {kf : Keyfile} {group : String} {c c' : Chroot}
    (hread : spec.read = readRegex cfg method)
    (h : spec.get kf group c = .ok c') :
    c' = c ∨ ∃ v pattern, kf.value? group spec.key = some v ∧
      firstLine v = some pattern ∧ cfg.regexValid pattern = true ∧
        method pattern c = .ok c' := by
  rcases (spec.get_eq_ok_iff kf group c c').mp h with
    ⟨_, _, rfl⟩ | ⟨act, ⟨v, hv, hact⟩, _, hset⟩
  · exact .inl rfl
  · rw [hread] at hact
    unfold readRegex at hact
    cases hline : firstLine v with
    | none => simp [hline] at hact
    | some pattern =>
        simp only [hline] at hact
        split at hact <;> cases hact
        exact .inr ⟨v, pattern, hv, hline, ‹_›, hset⟩

end Inversion

section BaseClass

/-- **What reading one key of the base class can do**: nothing, or one setter call
with what the value of the key was parsed to. -/
inductive BaseStep (cfg : SbuildConfig) (session : Bool) (kf : Keyfile) (c : Chroot) :
    String → Chroot → Prop
  | skip (key : String) : BaseStep cfg session kf c key c
  | profile {v : String} {c' : Chroot}
      (hv : kf.value? c.name "profile" = some v)
      (h : setProfile v c = .ok c') :
      BaseStep cfg session kf c "profile" c'
  | scriptConfig {v : String}
      (hv : kf.value? c.name "script-config" = some v) :
      BaseStep cfg session kf c "script-config" (setScriptConfig v c)
  | aliases {v : String} {c' : Chroot}
      (hv : kf.value? c.name "aliases" = some v)
      (h : setAliases (splitString v ",") c = .ok c') :
      BaseStep cfg session kf c "aliases" c'
  | environmentFilter {v pattern : String}
      (hv : kf.value? c.name "environment-filter" = some v)
      (hline : firstLine v = some pattern)
      (hvalid : cfg.regexValid pattern = true) :
      BaseStep cfg session kf c "environment-filter" { c with environmentFilter := pattern }
  | description {v : String}
      (hv : kf.value? c.name "description" = some v) :
      BaseStep cfg session kf c "description" { c with description := v }
  | users {v : String}
      (hv : kf.value? c.name "users" = some v) :
      BaseStep cfg session kf c "users" { c with users := splitString v "," }
  | groups {v : String}
      (hv : kf.value? c.name "groups" = some v) :
      BaseStep cfg session kf c "groups" { c with groups := splitString v "," }
  | rootUsers {v : String}
      (hv : kf.value? c.name "root-users" = some v) :
      BaseStep cfg session kf c "root-users" { c with rootUsers := splitString v "," }
  | rootGroups {v : String}
      (hv : kf.value? c.name "root-groups" = some v) :
      BaseStep cfg session kf c "root-groups" { c with rootGroups := splitString v "," }
  | mountLocation {v : String} {c' : Chroot}
      (hsession : session = true)
      (hv : kf.value? c.name "mount-location" = some v)
      (h : setMountLocation v c = .ok c') :
      BaseStep cfg session kf c "mount-location" c'
  | name {v : String} {c' : Chroot}
      (hsession : session = true)
      (hv : kf.value? c.name "name" = some v)
      (h : setName v c = .ok c') :
      BaseStep cfg session kf c "name" c'
  | commandPrefix {v : String}
      (hv : kf.value? c.name "command-prefix" = some v) :
      BaseStep cfg session kf c "command-prefix" { c with commandPrefix := splitString v "," }
  | verbosity {v : String} {c' : Chroot}
      (hv : kf.value? c.name "message-verbosity" = some v)
      (h : setVerbosity v c = .ok c') :
      BaseStep cfg session kf c "message-verbosity" c'
  | preserveEnvironment {b : Bool} :
      BaseStep cfg session kf c "preserve-environment" { c with preserveEnvironment := b }
  | defaultShell {v : String}
      (hv : kf.value? c.name "shell" = some v) :
      BaseStep cfg session kf c "shell" { c with defaultShell := v }

theorem baseStep_of_get
    {cfg : SbuildConfig} {session : Bool} {spec : KeySpec Chroot}
    (hspec : spec ∈ baseKeys cfg session)
    {kf : Keyfile} {c c' : Chroot}
    (h : spec.get kf c.name c = .ok c') :
    BaseStep cfg session kf c spec.key c' := by
  have hobsolete : ∀ key priority,
      (obsoleteKey key priority).get kf c.name c = .ok c' →
        BaseStep cfg session kf c key c' := by
    intro key priority hget
    rcases get_readBool rfl hget with rfl | ⟨_, _, _, _, _, hset⟩
    · exact .skip key
    · cases hset
      exact .skip key
  simp only [baseKeys, List.mem_cons, List.not_mem_nil, or_false] at hspec
  rcases hspec with rfl | rfl | rfl | rfl | rfl | rfl | rfl | rfl | rfl | rfl | rfl | rfl |
    rfl | rfl | rfl | rfl | rfl | rfl | rfl | rfl
  · exact hobsolete _ _ h
  · exact hobsolete _ _ h
  · exact hobsolete _ _ h
  · exact hobsolete _ _ h
  · rcases get_readString rfl h with rfl | ⟨v, _, hv, hset⟩
    · exact .skip _
    · exact .profile hv (mapError_eq_ok_iff.mp hset)
  · rcases get_readString rfl h with rfl | ⟨v, _, hv, hset⟩
    · exact .skip _
    · cases hset
      exact .scriptConfig hv
  · exact hobsolete _ _ h
  · rcases get_readList rfl h with rfl | ⟨v, _, hv, hset⟩
    · exact .skip _
    · exact .aliases hv (chrootSetter_eq_ok_iff.mp hset)
  · rcases get_readRegex rfl h with rfl | ⟨v, pattern, hv, hline, hvalid, hset⟩
    · exact .skip _
    · cases hset
      exact .environmentFilter hv hline hvalid
  · rcases get_readString rfl h with rfl | ⟨v, _, hv, hset⟩
    · exact .skip _
    · cases hset
      exact .description hv
  · rcases get_readList rfl h with rfl | ⟨v, _, hv, hset⟩
    · exact .skip _
    · cases hset
      exact .users hv
  · rcases get_readList rfl h with rfl | ⟨v, _, hv, hset⟩
    · exact .skip _
    · cases hset
      exact .groups hv
  · rcases get_readList rfl h with rfl | ⟨v, _, hv, hset⟩
    · exact .skip _
    · cases hset
      exact .rootUsers hv
  · rcases get_readList rfl h with rfl | ⟨v, _, hv, hset⟩
    · exact .skip _
    · cases hset
      exact .rootGroups hv
  · rcases get_readString rfl h with rfl | ⟨v, hp, hv, hset⟩
    · exact .skip _
    · exact .mountLocation (by cases session <;> simp_all) hv (chrootSetter_eq_ok_iff.mp hset)
  · rcases get_readString rfl h with rfl | ⟨v, hp, hv, hset⟩
    · exact .skip _
    · exact .name (by cases session <;> simp_all) hv (chrootSetter_eq_ok_iff.mp hset)
  · rcases get_readList rfl h with rfl | ⟨v, _, hv, hset⟩
    · exact .skip _
    · cases hset
      exact .commandPrefix hv
  · rcases get_readString rfl h with rfl | ⟨v, _, hv, hset⟩
    · exact .skip _
    · exact .verbosity hv (chrootSetter_eq_ok_iff.mp hset)
  · rcases get_readBool rfl h with rfl | ⟨_, _, _, _, _, hset⟩
    · exact .skip _
    · cases hset
      exact .preserveEnvironment
  · rcases get_readString rfl h with rfl | ⟨v, _, hv, hset⟩
    · exact .skip _
    · cases hset
      exact .defaultShell hv

/-- Only the name key changes the name. -/
theorem BaseStep.frame
    {cfg : SbuildConfig} {session : Bool} {kf : Keyfile} {c c' : Chroot} {key : String}
    (h : BaseStep cfg session kf c key c')
    (hkey : key ≠ "name") :
    Frame c c' := by
  cases h with
  | skip => exact Frame.refl c
  | profile _ h => exact frame_setProfile h
  | scriptConfig => exact frame_setScriptConfig _ c
  | aliases _ h => exact frame_setAliases h
  | mountLocation _ _ h => exact frame_setMountLocation h
  | name => exact absurd rfl hkey
  | verbosity _ h => exact frame_setVerbosity h
  | _ => exact ⟨rfl, rfl, rfl⟩

/-- Keys of the base class other than the name keep the frame. -/
theorem frame_of_readKeys_base
    (cfg : SbuildConfig)
    (session : Bool)
    {specs : List (KeySpec Chroot)}
    (hsub : ∀ spec ∈ specs, spec ∈ baseKeys cfg session)
    (hname : ∀ spec ∈ specs, spec.key ≠ "name")
    {kf : Keyfile} {c c' : Chroot}
    (h : readKeys kf specs c = .ok c') :
    Frame c c' :=
  readKeys_keeps Frame.refl (fun _ _ _ => Frame.trans)
    (fun spec hs _ _ hget => (baseStep_of_get (hsub spec hs) hget).frame (hname spec hs)) h

/-- What the base class makes of the name and the facets: sessions take the name
that they find in their group. -/
theorem readKeys_baseKeys_frame
    {cfg : SbuildConfig} {session : Bool} {kf : Keyfile} {c c' : Chroot}
    (h : readKeys kf (baseKeys cfg session) c = .ok c') :
    c'.facetKinds = c.facetKinds ∧ c'.kind.typeName = c.kind.typeName ∧
      c'.name = if session then (kf.value? c.name "name").getD c.name else c.name := by
  have hsplit : baseKeys cfg session =
      (baseKeys cfg session).take 15 ++
        ({ key := "name", priority := if session then .optional else .disallowed
           read := readString (chrootSetter setName) } :: (baseKeys cfg session).drop 16) := rfl
  rw [hsplit] at h
  obtain ⟨d, hd, h⟩ := readKeys_append.mp h
  obtain ⟨e, he, h⟩ := readKeys_cons_eq_ok_iff.mp h
  have hcd : Frame c d := frame_of_readKeys_base cfg session
    (fun spec hs => List.mem_of_mem_take hs) (by simp [baseKeys, obsoleteKey]) hd
  have hec : Frame e c' := frame_of_readKeys_base cfg session
    (fun spec hs => List.mem_of_mem_drop hs) (by simp [baseKeys]) h
  have hname : e.facetKinds = d.facetKinds ∧ e.kind = d.kind ∧
      e.name = if session then (kf.value? d.name "name").getD d.name else d.name := by
    rcases (KeySpec.get_eq_ok_iff _ kf d.name d e).mp he with
      ⟨hskip, _, rfl⟩ | ⟨act, ⟨v, hv, hact⟩, hp, hset⟩
    · rcases hskip with hnone | ⟨v, _, hread⟩
      · have hnone' : kf.value? e.name "name" = none := hnone
        simp [hnone']
      · cases hread
    · cases hact
      have hsession : session = true := by
        by_contra hs
        exact hp (if_neg hs)
      have hv' : kf.value? d.name "name" = some v := hv
      obtain ⟨_, _, rfl⟩ := setName_eq_ok_iff.mp (chrootSetter_eq_ok_iff.mp hset)
      exact ⟨rfl, rfl, by simp [hsession, hv']⟩
  refine ⟨?_, ?_, ?_⟩
  · rw [hec.facetKinds, hname.1, hcd.facetKinds]
  · rw [hec.typeName, hname.2.1, hcd.typeName]
  · rw [hec.name, hname.2.2, hcd.name]

end BaseClass

section TypeData

variable {kf : Keyfile} {c c' : Chroot}

/-- A path check in front of a result. -/
theorem checkAbs_bind_eq_ok_iff
    {β : Type} {code : ChrootCode} {path context : String}
    {f : Unit → Except ChrootError β} {b : β} :
    (checkAbs code path context >>= f) = .ok b ↔ isAbsname path = true ∧ f () = .ok b := by
  unfold checkAbs
  split <;> simp [*, bind, Except.bind]

theorem frame_setKind
    {kind : ChrootKind}
    (h : kind.typeName = c.kind.typeName) :
    Frame c { c with kind := kind } :=
  ⟨rfl, h, rfl⟩

theorem frame_setLvmSnapshotDevice
    {device : String} {s : LvmSnapshot}
    (hkind : c.kind.typeName = "lvm-snapshot")
    (h : setLvmSnapshotDevice device s c = .ok c') :
    Frame c c' := by
  obtain ⟨_, h⟩ := checkAbs_bind_eq_ok_iff.mp h
  cases h
  have hset : Frame c { c with kind := .lvmSnapshot { s with snapshotDevice := device } } :=
    frame_setKind hkind.symm
  exact hset.trans (frame_setMountDevice device _)

theorem frame_setZfsCloneName
    {cloneName : String} {s : ZfsSnapshot}
    (hkind : c.kind.typeName = "zfs-snapshot") :
    Frame c (setZfsCloneName cloneName s c) := by
  have hset : Frame c { c with kind := .zfsSnapshot { s with cloneName := cloneName } } :=
    frame_setKind hkind.symm
  unfold setZfsCloneName
  simp only
  split
  · exact hset.trans (frame_setMountDevice _ _)
  · exact hset.trans (frame_setMountDevice _ _)

end TypeData

end Chroot

end Schroot
