import Schroot.SessionBack
import Schroot.SessionFile

/-!
# What a session writes

A session that is begun from a loaded chroot has the facets of its type and the session facet,
without the facets of a chroot that can be cloned.  The file that it is written to is read as one
group with what it has written, unless the user or the selected name has a line break.

**Results.**
* `sessionData_cloneSession`: what holds of every session of a loaded chroot.
* `parse_print_session`: the file of a session.
-/

namespace Schroot

namespace Chroot

section Sessions

variable {cfg : SbuildConfig} {c s : Chroot} {sessionId selected user : String} {root : Bool}

/-- The keys of a chroot are apart if its user data has dots and a file is not mounted. -/
theorem wellKeyed_of_location
    (hdata : DataInvariant c)
    (hlocation : (∃ f, c.kind = .file f) → .mountable ∉ c.facetKinds) :
    WellKeyed c := by
  refine ⟨hdata.nodup, fun u hu e he => ?_, hlocation⟩
  have hkey : e.1 ∈ u.userdata := by
    rw [← Std.ExtTreeMap.mem_keys, ← Std.ExtTreeMap.map_fst_toList_eq_keys]
    exact List.mem_map_of_mem he
  exact dot_mem_of_validateKeyname ((hdata.named u hu).valid e.1 hkey)

/-- The facets of a session of a type. -/
def HasSessionFacets (cfg : SbuildConfig) (kind : ChrootKind) (s : Chroot) : Prop :=
  ∀ k, k ∈ s.facetKinds ↔ k = .session ∨
    (k ∈ newFacetKinds cfg kind ∧ k ≠ .sessionClonable ∧ k ≠ .sourceClonable)

/-- **What holds of a session** that is begun from a loaded chroot. -/
structure SessionData (cfg : SbuildConfig) (s : Chroot) : Prop where
  valid : ':' ∉ s.name.toList ∧ isValidSessionname s.name = true
  session : s.isSession = true
  data : DataInvariant s
  profile : ProfileInvariant s
  lists : s.groups = [] ∧ s.rootGroups = [] ∧ s.aliases = [] ∧ AllItems s.commandPrefix
  filter : SingleLine s.environmentFilter ∧ cfg.regexValid s.environmentFilter = true
  location : isAbsname s.mountLocation = true
  legible : ∀ f ∈ s.facets, FacetLegible f
  kindLegible : SessionKindLegible s.kind
  facets : HasSessionFacets cfg (newKind s.kind) s
  template : ∃ u, construct cfg (newKind s.kind) = .ok (newChroot cfg (newKind s.kind) "" u) ∧
    u.FromProfile ∧ (u.userModifiableKeys = ∅ ∧ u.rootModifiableKeys = ∅)

theorem mountable_notMem_file
    {f : FileChroot} :
    .mountable ∉ newFacetKinds cfg (newKind (.file f)) := by
  simp [newKind, newFacetKinds, extraFacets, Facet.kind]

theorem SessionData.wellKeyed
    (hs : SessionData cfg s) :
    WellKeyed s := by
  refine wellKeyed_of_location hs.data fun ⟨f, hf⟩ hmount => ?_
  rw [hs.facets, hf] at hmount
  rcases hmount with hmount | ⟨hmount, -⟩
  · cases hmount
  · exact mountable_notMem_file hmount

theorem SessionData.notMem
    (hs : SessionData cfg s)
    {k : FacetKind}
    (hk : k = .sessionClonable ∨ k = .sourceClonable ∨ k = .source) :
    k ∉ s.facetKinds := by
  intro hmem
  rcases (hs.facets k).mp hmem with rfl | ⟨hnew, hsession, hsource⟩
  · simp at hk
  · rcases hk with rfl | rfl | rfl
    · exact hsession rfl
    · exact hsource rfl
    · revert hnew
      cases newKind s.kind <;> simp [newFacetKinds, extraFacets, newUnion, Facet.kind]

/-- The facets of a loaded chroot that are left in its sessions. -/
theorem IsLoaded.facets_of_ne
    (hc : IsLoaded cfg c)
    {k : FacetKind}
    (hsession : k ≠ .sessionClonable)
    (hsource : k ≠ .sourceClonable) :
    k ∈ c.facetKinds ↔ k ∈ newFacetKinds cfg (newKind c.kind) := by
  by_cases hcustom : ∃ b, c.kind = .custom b
  · exact hc.custom hcustom k hsession hsource
  · rw [hc.facets (fun b hb => hcustom ⟨b, hb⟩) k]
    simp [hsource]

/-- **Every session of a loaded chroot.** -/
theorem sessionData_cloneSession
    (hc : IsLoaded cfg c)
    (hreachable : Reachable cfg (fun _ _ => True) c)
    (hfresh : Fresh c)
    (h : c.cloneSession cfg sessionId selected user root = .ok (some s)) :
    SessionData cfg s := by
  have hsession : .session ∉ c.facetKinds := fun hm => by
    have hnone := hc.session
    rw [isSession_iff.mpr hm] at hnone
    cases hnone
  obtain ⟨hform, hkind, -⟩ := sessionForm_cloneSession hsession h
  have hnamed := namedBy_cloneSession hfresh h
  have hof := sessionOf_cloneSession h
  have hkinds := facetKinds_cloneSession h
  have hnew : newKind s.kind = newKind c.kind := newKind_eq_of_typeName hof.typeName
  have hmem : ∀ k, k ∈ s.facetKinds ↔ k = .session ∨
      (k ∈ c.facetKinds ∧ k ≠ .sessionClonable ∧ k ≠ .sourceClonable) := by
    intro k
    rw [hkinds, List.mem_append, (hc.data.nodup.erase _).mem_erase_iff, hc.data.nodup.mem_erase_iff,
      List.mem_singleton]
    tauto
  have hfilter : s.environmentFilter = c.environmentFilter :=
    (congrArg Chroot.environmentFilter hform.rest).trans rfl
  have hscript : s.scriptConfig = c.scriptConfig :=
    (congrArg Chroot.scriptConfig hform.rest).trans rfl
  have hprofile : s.profile = c.profile := (congrArg Chroot.profile hform.rest).trans rfl
  have hcommandPrefix : s.commandPrefix = c.commandPrefix :=
    (congrArg Chroot.commandPrefix hform.rest).trans rfl
  obtain ⟨u, hu⟩ := exists_userdata hc.profile.present
  have hdata : s.userdata? = some u := by
    rw [userdata?, hform.facets _ (.inr rfl), getFacet_of_userdata? hu]
  have hsdata : DataInvariant s := dataInvariant_of_reachable (.cloneSession hreachable h)
  have hpresent : .userdata ∈ s.facetKinds :=
    (hmem _).mpr (.inr ⟨hc.profile.present, by decide, by decide⟩)
  refine ⟨?_, isSession_iff.mpr ((hmem _).mpr (.inl rfl)), hsdata, ⟨hpresent, fun v hv => ?_, ?_⟩,
    ⟨hof.groups, hof.rootGroups, congrArg Chroot.aliases hform.rest, ?_⟩, ?_, ?_,
    hform.legible hc.legible.facets, hkind hc.kindLegible, fun k => ?_, ?_⟩
  · rw [hform.name]
    exact hform.valid
  · -- with facets of different kinds, there is only one with user data
    have hsame : v = u := by
      have hget := getFacet_of_mem hsdata.nodup hv
      rw [show Facet.kind (.userdata v) = .userdata from rfl, getFacet_of_userdata? hdata] at hget
      cases hget
      rfl
    rw [hsame, hscript]
    exact hc.profile.data u (mem_of_userdata? hu)
  · rw [hscript, hprofile]
    exact hc.profile.profile
  · rw [hcommandPrefix]
    exact hc.legible.commandPrefix
  · rw [hfilter]
    exact ⟨hc.legible.singleLine, hc.legible.regexValid⟩
  · rw [hnamed.mountLocation]
    exact isAbsname_append (isAbsname_append cfg.isAbsname_mountDir)
  · rw [hmem, hnew]
    by_cases hk : k = .sessionClonable
    · simp [hk]
    · by_cases hk' : k = .sourceClonable
      · simp [hk']
      · rw [hc.facets_of_ne hk hk']
  · obtain ⟨_, -, -, -, htemplate⟩ := hc.template
    obtain ⟨kind, u, hkindOf, hcreate, hu, hmodifiable, -⟩ := construct_of_createTemplate htemplate
    have hwritten := kindOfType_written hc.wellKeyed
    rw [hwritten] at hkindOf
    cases hkindOf
    rw [hnew]
    exact ⟨u, hcreate, hu, hmodifiable⟩

end Sessions

section Files

variable {cfg : SbuildConfig} {c s : Chroot} {sessionId selected user : String} {root : Bool}

/-- Only what is behind the namespace is taken of the selected name. -/
theorem cloneSession_selected
    {selected' : String}
    (h : (getNamespace selected').2 = (getNamespace selected).2) :
    c.cloneSession cfg sessionId selected' user root =
      c.cloneSession cfg sessionId selected user root := by
  unfold cloneSession cloneSessionSetup
  simp only [SessionFacet.setSelectedName, h]

/-- The groups of a keyfile with a single one. -/
theorem getGroups_of_hasGroup
    {kf : Keyfile} {name : String}
    (h : ∀ group, kf.hasGroup group = true ↔ group = name) :
    kf.getGroups = [name] := by
  have hmem : ∀ group, group ∈ kf.getGroups ↔ group = name := by
    intro group
    rw [← h group, Keyfile.getGroups, Std.ExtTreeMap.mem_keys, Keyfile.hasGroup, Keyfile.findGroup,
      Std.ExtTreeMap.mem_iff_isSome_getElem?]
  have hnodup : kf.getGroups.Nodup := by
    rw [Keyfile.getGroups, ← Std.ExtTreeMap.map_fst_toList_eq_keys]
    exact SortedMap.nodup_keys_toList _
  exact List.perm_singleton.mp ((List.perm_ext_iff_of_nodup hnodup (List.nodup_singleton name)).mpr
    fun group => by rw [hmem, List.mem_singleton])

/-- **The file of a session** has one group, with what the session has written. -/
theorem parse_print_session
    (hs : SessionData cfg s)
    (hlines : ∀ e ∈ s.writtenValues.toList, SingleLine e.2) :
    ∃ kf, Keyfile.empty.parse (s.getKeyfile .empty).print = .ok kf ∧ kf.getGroups = [s.name] ∧
      HasValues kf s := by
  obtain ⟨kf, hkf, hgroups, hvalues⟩ := Keyfile.parse_print_single
    (isGroupName_of_isValidSessionname hs.valid.2)
    (fun e he => isKeyName_keyfileEntries hs.data e (mem_of_mem_writtenValues he)) hlines
  refine ⟨kf, ?_, getGroups_of_hasGroup hgroups, hvalues⟩
  rw [getKeyfile_empty]
  exact hkf

/-- Without line breaks in the user and the selected name, a session has none. -/
theorem oneLine_cloneSession
    (hc : Built cfg c)
    (hselected : (getNamespace (getNamespace selected).2).2 = (getNamespace selected).2)
    (hline : SingleLine (getNamespace selected).2)
    (huser : SingleLine user)
    (h : c.cloneSession cfg sessionId selected user root = .ok (some s)) :
    OneLine s := by
  rw [← cloneSession_selected hselected] at h
  exact oneLine_of_built (.cloneSession hc hline huser h)

/-- What it writes has one line for each value. -/
theorem singleLine_writtenValues
    (hlines : OneLine s) :
    ∀ e ∈ s.writtenValues.toList, SingleLine e.2 :=
  fun e he => singleLine_keyfileEntries hlines e (mem_of_mem_writtenValues he)

end Files

end Chroot

end Schroot
