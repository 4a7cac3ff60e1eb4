import Schroot.ChrootSessions

/-!
# The names of chroots

The name of a chroot and its aliases are checked when they are set, and nothing else changes
them.  So the names of loaded chroots are valid, and have no separator.

**Results.**
* `validNames_loadChroot`: the names of a chroot that is loaded.
* `validNames_cloneSource`: its source chroot has the same names.
-/

namespace Schroot

namespace Chroot

/-- The name and all aliases are valid. -/
structure ValidNames (c : Chroot) : Prop where
  name : isValidSessionname c.name = true
  aliases : ∀ a ∈ c.aliases, isValidSessionname a = true

/-- The name and the aliases are those of before. -/
def SameNames (c c' : Chroot) : Prop :=
  c'.name = c.name ∧ c'.aliases = c.aliases

/-- The name is that of before or has been checked, and so are the aliases. -/
structure Renamed (c c' : Chroot) : Prop where
  name : c'.name = c.name ∨ isValidSessionname c'.name = true
  aliases : c'.aliases = c.aliases ∨ ∀ a ∈ c'.aliases, isValidSessionname a = true

/-- A valid name has no separator. -/
theorem not_mem_of_isValidSessionname
    {name : String}
    (h : isValidSessionname name = true) :
    ':' ∉ name.toList :=
  fun hm => absurd (isNameChar_of_isValidSessionname h _ hm) (by decide)

section Setters

variable {c c' : Chroot}

theorem SameNames.trans
    {a b : Chroot}
    (hab : SameNames a b)
    (hbc : SameNames b c) :
    SameNames a c :=
  ⟨hbc.1.trans hab.1, hbc.2.trans hab.2⟩

theorem SameNames.renamed
    (h : SameNames c c') :
    Renamed c c' :=
  ⟨.inl h.1, .inl h.2⟩

theorem Renamed.trans
    {a b : Chroot}
    (hab : Renamed a b)
    (hbc : Renamed b c) :
    Renamed a c := by
  refine ⟨?_, ?_⟩
  · rcases hbc.name with heq | hvalid
    · rw [heq]
      exact hab.name
    · exact .inr hvalid
  · rcases hbc.aliases with heq | hvalid
    · rw [heq]
      exact hab.aliases
    · exact .inr hvalid

theorem ValidNames.of_renamed
    (hc : ValidNames c)
    (h : Renamed c c') :
    ValidNames c' :=
  ⟨h.name.elim (fun heq => heq ▸ hc.name) id, h.aliases.elim (fun heq => heq ▸ hc.aliases) id⟩

theorem sameNames_addFacet
    {f : Facet}
    (h : c.addFacet f = .ok c') :
    SameNames c c' := by
  obtain ⟨-, rfl⟩ := addFacet_eq_ok_iff.mp h
  exact ⟨rfl, rfl⟩

theorem sameNames_setProfile
    {profile : String}
    (h : setProfile profile c = .ok c') :
    SameNames c c' := by
  unfold setProfile at h
  simp only at h
  split at h
  · cases h
    exact ⟨rfl, rfl⟩
  · obtain ⟨_, _, h⟩ := bind_eq_ok_iff.mp h
    cases h
    exact ⟨rfl, rfl⟩

theorem sameNames_setScriptConfig (scriptConfig : String) (c : Chroot) :
    SameNames c (setScriptConfig scriptConfig c) := by
  unfold setScriptConfig
  simp only
  split
  · exact ⟨rfl, rfl⟩
  · exact ⟨rfl, rfl⟩

theorem sameNames_setMountLocation
    {location : String}
    (h : setMountLocation location c = .ok c') :
    SameNames c c' := by
  unfold setMountLocation at h
  split at h <;> cases h
  exact ⟨rfl, rfl⟩

theorem sameNames_setVerbosity
    {verbosity : String}
    (h : setVerbosity verbosity c = .ok c') :
    SameNames c c' := by
  unfold setVerbosity at h
  repeat (split at h; · cases h; exact ⟨rfl, rfl⟩)
  cases h

theorem sameNames_setMountDevice (device : String) (c : Chroot) :
    SameNames c (setMountDevice device c) := by
  unfold setMountDevice
  split
  · exact ⟨rfl, rfl⟩
  · exact ⟨rfl, rfl⟩

theorem sameNames_setLvmSnapshotDevice
    {device : String} {s : LvmSnapshot}
    (h : setLvmSnapshotDevice device s c = .ok c') :
    SameNames c c' := by
  obtain ⟨_, h⟩ := checkAbs_bind_eq_ok_iff.mp h
  cases h
  exact sameNames_setMountDevice device _

theorem sameNames_setZfsCloneName (cloneName : String) (s : ZfsSnapshot) (c : Chroot) :
    SameNames c (setZfsCloneName cloneName s c) := by
  unfold setZfsCloneName
  simp only
  split
  · exact sameNames_setMountDevice _ _
  · exact sameNames_setMountDevice _ _

theorem sameNames_setUnionType
    {type : String}
    (h : setUnionType type c = .ok c') :
    SameNames c c' := by
  rcases setUnionType_cases h with
    ⟨_, rfl⟩ | ⟨u, _, _, ⟨_, rfl⟩ | ⟨_, _, rfl⟩ | ⟨_, _, rfl⟩⟩
  · exact ⟨rfl, rfl⟩
  · exact ⟨rfl, rfl⟩
  · exact ⟨rfl, rfl⟩
  · exact ⟨rfl, rfl⟩

/-- Every alias is checked. -/
theorem aliases_setAliases
    {aliases : List String}
    (h : setAliases aliases c = .ok c') :
    c' = { c with aliases := aliases } ∧ ∀ a ∈ aliases, isValidSessionname a = true := by
  simp only [setAliases, bind_eq_ok_iff] at h
  obtain ⟨_, hcheck, h⟩ := h
  cases h
  refine ⟨rfl, fun a ha => ?_⟩
  induction aliases with
  | nil => cases ha
  | cons first aliases ih =>
      have hboth : (checkAlias first >>= fun _ => aliases.forM checkAlias) = .ok () := hcheck
      obtain ⟨_, hfirst, hrest⟩ := bind_eq_ok_iff.mp hboth
      rcases List.mem_cons.mp ha with rfl | ha
      · unfold checkAlias at hfirst
        split at hfirst
        · cases hfirst
        · split at hfirst
          · assumption
          · cases hfirst
      · exact ih hrest ha

end Setters

section Reading

variable {cfg : SbuildConfig} {kf : Keyfile} {c c' : Chroot}

theorem renamed_of_baseStep
    {session : Bool} {key : String}
    (h : BaseStep cfg session kf c key c') :
    Renamed c c' := by
  cases h with
  | profile _ h => exact (sameNames_setProfile h).renamed
  | scriptConfig => exact (sameNames_setScriptConfig _ c).renamed
  | aliases _ h =>
      obtain ⟨rfl, hvalid⟩ := aliases_setAliases h
      exact ⟨.inl rfl, .inr hvalid⟩
  | mountLocation _ _ h => exact (sameNames_setMountLocation h).renamed
  | name _ _ h =>
      obtain ⟨-, hvalid, rfl⟩ := setName_eq_ok_iff.mp h
      exact ⟨.inr hvalid, .inl rfl⟩
  | verbosity _ h => exact (sameNames_setVerbosity h).renamed
  | _ => exact ⟨.inl rfl, .inl rfl⟩

theorem sameNames_of_typeStep
    {c₀ : Chroot} {key : String}
    (h : TypeStep kf c₀ c key c') :
    SameNames c c' := by
  cases h with
  | skip => exact ⟨rfl, rfl⟩
  | kind => exact ⟨rfl, rfl⟩
  | snapshotDevice _ _ hset => exact sameNames_setLvmSnapshotDevice hset
  | cloneName => exact sameNames_setZfsCloneName _ _ _
  | switch _ _ hset =>
      split at hset
      · exact sameNames_addFacet hset
      · cases hset
        exact ⟨rfl, rfl⟩

theorem sameNames_of_facetStep
    {key : String}
    (h : FacetStep kf c key c') :
    SameNames c c' := by
  cases h <;> exact ⟨rfl, rfl⟩

/-- **What reading does to the names**: they are checked, or stay as they were. -/
theorem renamed_setKeyfile
    (h : c.setKeyfile cfg kf = .ok c') :
    Renamed c c' :=
  KeptByKeys.setKeyfile (P := Renamed c)
    ⟨fun hx hstep => hx.trans (renamed_of_baseStep hstep),
      fun hx hstep => hx.trans (sameNames_of_typeStep hstep).renamed,
      fun hx hstep => hx.trans (sameNames_of_facetStep hstep).renamed,
      fun hx _ hset => hx.trans (sameNames_setUnionType hset).renamed,
      fun hx _ _ _ => ⟨hx.name, hx.aliases⟩⟩ ⟨.inl rfl, .inl rfl⟩ h

end Reading

section Cloning

variable {cfg : SbuildConfig} {c c' : Chroot}

theorem sameNames_copy (c : Chroot) :
    SameNames c c.copy := by
  unfold copy
  split <;> exact ⟨rfl, rfl⟩

theorem sameNames_setSessionMountDevice (c : Chroot) :
    SameNames c c.setSessionMountDevice := by
  unfold setSessionMountDevice
  split
  · exact sameNames_setMountDevice _ _
  · exact sameNames_setMountDevice _ _
  · exact sameNames_setMountDevice _ _
  · exact ⟨rfl, rfl⟩

theorem sameNames_setSessionSnapshot
    (h : c.setSessionSnapshot = .ok c') :
    SameNames c c' := by
  unfold setSessionSnapshot at h
  split at h
  · split at h
    · exact sameNames_setLvmSnapshotDevice h
    · cases h
      exact ⟨rfl, rfl⟩
  · split at h
    · obtain ⟨-, h⟩ := checkAbs_bind_eq_ok_iff.mp h
      cases h
      exact ⟨rfl, rfl⟩
    · cases h
      exact ⟨rfl, rfl⟩
  · split at h
    · cases h
      exact sameNames_setZfsCloneName _ _ _
    · cases h
      exact ⟨rfl, rfl⟩
  · cases h
    exact ⟨rfl, rfl⟩

theorem sameNames_setSessionLocation
    {sessionId : String}
    (h : c.setSessionLocation cfg sessionId = .ok c') :
    SameNames c c' := by
  unfold setSessionLocation at h
  split at h
  · cases h
    exact ⟨rfl, rfl⟩
  · split at h
    · exact sameNames_setMountLocation h
    · cases h
      exact ⟨rfl, rfl⟩

theorem sameNames_setSessionUnion
    (h : c.setSessionUnion = .ok c') :
    SameNames c c' := by
  unfold setSessionUnion at h
  split at h
  · cases h
    exact ⟨rfl, rfl⟩
  · simp only [bind_eq_ok_iff] at h
    obtain ⟨_, _, _, _, h⟩ := h
    cases h
    exact ⟨rfl, rfl⟩

/-- **A session has the name it is begun with, and no aliases.** -/
theorem names_cloneSession
    {sessionId selected user : String} {root : Bool}
    (h : c.cloneSession cfg sessionId selected user root = .ok (some c')) :
    c'.name = sessionId ∧ isValidSessionname sessionId = true ∧ c'.aliases = [] := by
  obtain ⟨-, -, h⟩ := cloneSession_eq_ok_some_iff.mp h
  simp only [cloneSessionSetup, bind_eq_ok_iff, mapError_eq_ok_iff] at h
  obtain ⟨c₁, -, c₂, h₂, c₃, h₃, c₄, h₄, h₅⟩ := h
  obtain ⟨-, hvalid, rfl⟩ := setName_eq_ok_iff.mp h₂
  have hunion : ∀ b : Bool, SameNames c₄ (if b then c₄ else c₄.removeFacet .union) := by
    intro b
    cases b <;> exact ⟨rfl, rfl⟩
  have hsame := (sameNames_setSessionLocation h₃).trans
    ((sameNames_setSessionMountDevice c₃).trans ((sameNames_setSessionSnapshot h₄).trans
      ((hunion _).trans (sameNames_setSessionUnion h₅))))
  exact ⟨hsame.1, hvalid, hsame.2⟩

/-- **A source chroot has the names of the chroot.** -/
theorem sameNames_cloneSource
    (h : c.cloneSource cfg = .ok (some c')) :
    SameNames c c' := by
  have hunion : ∀ {a b : Chroot}, a.ensureUnion cfg = .ok b → SameNames a b := by
    intro a b hab
    unfold ensureUnion at hab
    split at hab
    · cases hab
      exact ⟨rfl, rfl⟩
    · exact sameNames_addFacet hab
  unfold cloneSource at h
  split at h
  · cases h
  · cases h
  · simp only [bind_eq_ok_iff] at h
    obtain ⟨d, hd, e, he, h⟩ := h
    have hcopy : SameNames c d := by
      unfold sourceCopy at hd
      split at hd
      · have hblock := hunion hd
        exact hblock
      · simp only [directoryOfBtrfs, bind_eq_ok_iff] at hd
        obtain ⟨a, ha, _, _, hd⟩ := hd
        cases hd
        have hdirectory := hunion ha
        exact hdirectory
      · cases hd
        exact sameNames_copy c
    simp only [cloneSourceSetup, bind_eq_ok_iff] at he
    obtain ⟨a, ha, he⟩ := he
    obtain ⟨rfl, -⟩ := aliases_setAliases ha
    have hsource : SameNames d e := by
      obtain ⟨-, rfl⟩ := addFacet_eq_ok_iff.mp he
      exact ⟨rfl, rfl⟩
    split at h <;> cases h <;> exact hcopy.trans hsource

end Cloning

section Loading

variable {cfg : SbuildConfig} {kf : Keyfile} {c : Chroot}

theorem aliases_create
    {type : String}
    (h : create cfg type = .ok c) :
    c.aliases = [] := by
  have hadd : ∀ {fs : List Facet} {a b : Chroot},
      fs.foldlM (fun c f => addFacet f c) a = .ok b → SameNames a b := by
    intro fs
    induction fs with
    | nil =>
        intro a b hb
        cases hb
        exact ⟨rfl, rfl⟩
    | cons f fs ih =>
        intro a b hb
        rw [List.foldlM_cons, bind_eq_ok_iff] at hb
        obtain ⟨d, hd, hb⟩ := hb
        exact (sameNames_addFacet hd).trans (ih hb)
  unfold create at h
  split at h
  · cases h
  · simp only [construct, baseChroot, bind_eq_ok_iff, mapError_eq_ok_iff] at h
    obtain ⟨b, ⟨c₁, h₁, c₂, h₂, c₃, h₃, hbase⟩, d, hextra, h⟩ := h
    have hsame := (sameNames_addFacet h₁).trans ((sameNames_addFacet h₂).trans
      ((sameNames_addFacet h₃).trans ((sameNames_setProfile hbase).trans (hadd hextra))))
    split at h <;> cases h <;> exact hsame.2

/-- The template of a group has the name of the group. -/
theorem validNames_createTemplate
    {ns group : String}
    (h : ChrootConfig.createTemplate cfg ns kf group = .ok c) :
    ValidNames c := by
  have hname : ∀ {a b : Chroot}, a.setName group = .ok b → a.aliases = [] → ValidNames b := by
    intro a b hb ha
    obtain ⟨-, hvalid, rfl⟩ := setName_eq_ok_iff.mp hb
    exact ⟨hvalid, by simp [ha]⟩
  simp only [ChrootConfig.createTemplate, bind_eq_ok_iff, mapError_eq_ok_iff] at h
  obtain ⟨a, ha, b, hb, h⟩ := h
  have hb := hname hb (aliases_create ha)
  split at h
  · obtain ⟨session, hsession, h⟩ := bind_eq_ok_iff.mp h
    cases session with
    | none =>
        cases h
        exact hb
    | some d => exact hname (mapError_eq_ok_iff.mp h) (names_cloneSession hsession).2.2
  · cases h
    exact hb

/-- **The names of a chroot that is loaded.** -/
theorem validNames_loadChroot
    {ns group : String}
    (h : ChrootConfig.loadChroot cfg ns kf group = .ok c) :
    ValidNames c := by
  simp only [ChrootConfig.loadChroot, bind_eq_ok_iff, mapError_eq_ok_iff] at h
  obtain ⟨c₀, hc₀, h⟩ := h
  exact (validNames_createTemplate hc₀).of_renamed (renamed_setKeyfile h)

/-- **The names of its source chroot.** -/
theorem validNames_cloneSource
    {c' : Chroot}
    (hc : ValidNames c)
    (h : c.cloneSource cfg = .ok (some c')) :
    ValidNames c' :=
  hc.of_renamed (sameNames_cloneSource h).renamed

end Loading

end Chroot

end Schroot
