import Schroot.SessionReloads
import Schroot.SessionAccess

/-!
# Prepared sessions and their files

What a session works with is not the session that was begun from the chroot: the verbosity may be
overridden, and the options of the user are set among its data.  The file is written from there.
Neither matters for whether the session comes back, except that an option with a line break is
lost.

**Results.**
* `comesBack_prepareChroot`: the prepared sessions that come back.
-/

namespace Schroot

namespace Userdata

section Options

variable {u u' : Userdata} {root : Bool}

/-- Setting keys keeps all of a profile, or none. -/
theorem Profiled.setAllowedData
    {allowed : Std.ExtTreeSet String} {data : List (String × String)}
    (hu : u.Profiled)
    (h : setAllowedData allowed root data u = (u', none)) :
    u'.Profiled ∧ (u.FreeOfProfile → u'.FreeOfProfile) ∧ (u.HasProfile → u'.HasProfile) := by
  induction data generalizing u with
  | nil =>
      cases h
      exact ⟨hu, id, id⟩
  | cons entry data ih =>
      simp only [Userdata.setAllowedData] at h
      split at h
      · split at h
        · rename_i v hset
          obtain ⟨hv, hfree⟩ := hu.setData hset
          obtain ⟨hu', hfree', hhas'⟩ := ih hv h
          refine ⟨hu', hfree' ∘ hfree, fun hhas => hhas' fun key hkey => ?_⟩
          have hold := hhas key hkey
          rw [Std.ExtTreeMap.mem_iff_isSome_getElem?] at hold ⊢
          rw [(setData_eq_ok hset).2]
          split
          · rfl
          · exact hold
        · cases h
      · cases h

theorem Profiled.setOptions
    {options : Std.ExtTreeMap String String}
    (hu : u.Profiled)
    (h : u.setOptions root options = (u', none)) :
    u'.Profiled ∧ (u.FreeOfProfile → u'.FreeOfProfile) ∧ (u.HasProfile → u'.HasProfile) := by
  cases root
  · exact Profiled.setAllowedData hu (show Userdata.setAllowedData _ false _ u = (u', none) from h)
  · exact Profiled.setAllowedData hu (show Userdata.setAllowedData _ true _ u = (u', none) from h)

end Options

end Userdata

namespace Chroot

section Sessions

variable {cfg : SbuildConfig} {s : Chroot} {u u' : Userdata} {root : Bool}
  {options : Std.ExtTreeMap String String} {v : Verbosity}

theorem exists_verbosity
    {verbosity : String} {s' : Chroot}
    (h : s.setVerbosity verbosity = .ok s') :
    ∃ v, s' = { s with verbosity := v } := by
  unfold setVerbosity at h
  split at h
  · exact ⟨_, (Except.ok.inj h).symm⟩
  · split at h
    · exact ⟨_, (Except.ok.inj h).symm⟩
    · split at h
      · exact ⟨_, (Except.ok.inj h).symm⟩
      · cases h

/-- The verbosity is no part of what a session needs to come back. -/
theorem Recoverable.withVerbosity
    (hs : Recoverable cfg s) :
    Recoverable cfg { s with verbosity := v } where
  data :=
    { hs.data with
      data := hs.data.data.of_facets rfl
      profile := ⟨hs.data.profile.present, hs.data.profile.data, hs.data.profile.profile⟩ }
  lines := { hs.lines with }
  back := ⟨hs.back.profile, hs.back.filter, hs.back.union, hs.back.selected, hs.back.parent,
    hs.back.users, hs.back.rootUsers⟩

theorem SessionData.updateUserdata
    (hs : SessionData cfg s)
    (hu : s.userdata? = some u)
    (hset : u.setOptions root options = (u', none)) :
    SessionData cfg (s.updateFacet (.userdata u')) := by
  have hmem := mem_of_userdata? hu
  have hnamed := (hs.data.named u hmem).setOptions hset
  obtain ⟨hprofiled, hfree, -⟩ := (hs.profile.data u hmem).1.setOptions hset
  obtain ⟨-, -, huser, hroot⟩ := Userdata.setOptions_eq_none hset
  have hlegible : AllItems u.userModifiableKeys.toList ∧ AllItems u.rootModifiableKeys.toList :=
    hs.legible _ hmem
  have hkinds : (s.updateFacet (.userdata u')).facetKinds = s.facetKinds :=
    facetKinds_updateFacet _ s
  exact
    { hs with
      session := by
        rw [isSession_iff, hkinds]
        exact isSession_iff.mp hs.session
      data := hs.data.updateFacet fun w hw => by
        cases hw
        exact hnamed
      profile := hs.profile.updateFacet fun w hw => by
        cases hw
        exact ⟨hprofiled, fun hall => hfree (hall u hmem)⟩
      legible := fun f hf => by
        rcases TaggedList.mem_replace hf with rfl | hf
        · rw [← huser, ← hroot] at hlegible
          exact hlegible
        · exact hs.legible f hf
      facets := fun k => by
        rw [hkinds]
        exact hs.facets k }

theorem BackForm.updateUserdata
    (hs : SessionData cfg s)
    (hback : BackForm s)
    (hu : s.userdata? = some u)
    (hset : u.setOptions root options = (u', none)) :
    BackForm (s.updateFacet (.userdata u')) := by
  have hget : ∀ k, k ≠ .userdata →
      (s.updateFacet (.userdata u')).getFacet k = s.getFacet k :=
    fun k hk => getFacet_updateFacet (f := .userdata u') hk
  obtain ⟨-, -, hhas⟩ := (hs.profile.data u (mem_of_userdata? hu)).1.setOptions hset
  refine ⟨fun hscript w hw => ?_, hback.filter, fun w hw => ?_, fun z hz => ?_,
    hback.parent.of_facet (hget .session (by decide)), hback.users, hback.rootUsers⟩
  · rw [userdata?_updateFacet hu] at hw
    cases hw
    exact hhas (hback.profile hscript u hu)
  · rw [unionFacet?, hget .union (by decide)] at hw
    exact hback.union w hw
  · rw [sessionFacet?, hget .session (by decide)] at hz
    exact hback.selected z hz

theorem OneLine.updateUserdata
    (hs : OneLine s)
    (hu : s.userdata? = some u)
    (hset : u.setOptions root options = (u', none))
    (hoptions : ∀ key value : String, options[key]? = some value → SingleLine value) :
    OneLine (s.updateFacet (.userdata u')) := by
  obtain ⟨hvalues, -, huser, hroot⟩ := Userdata.setOptions_eq_none hset
  have hlines : u.Lines := hs.facets _ (mem_of_userdata? hu)
  have hlines' : u'.Lines := by
    refine ⟨fun k v hv => ?_, huser ▸ hlines.userKeys, hroot ▸ hlines.rootKeys⟩
    rw [hvalues, Option.or_eq_some_iff] at hv
    rcases hv with hv | ⟨-, hv⟩
    · exact hoptions k v hv
    · exact hlines.values k v hv
  exact hs.updateFacet (f := .userdata u') hlines'

/-- Options without line breaks do not matter, either. -/
theorem Recoverable.updateUserdata
    (hs : Recoverable cfg s)
    (hu : s.userdata? = some u)
    (hset : u.setOptions root options = (u', none))
    (hoptions : ∀ key value : String, options[key]? = some value → SingleLine value) :
    Recoverable cfg (s.updateFacet (.userdata u')) :=
  ⟨hs.data.updateUserdata hu hset, hs.lines.updateUserdata hu hset hoptions,
    hs.back.updateUserdata hs.data hu hset⟩

/-- The options are written. -/
theorem singleLine_options
    (hs : SessionData cfg (s.updateFacet (.userdata u')))
    (hu : s.userdata? = some u)
    (hset : u.setOptions root options = (u', none))
    (hback : ComesBack cfg (s.updateFacet (.userdata u')))
    {key value : String}
    (hvalue : options[key]? = some value) :
    SingleLine value := by
  obtain ⟨conf, s', hconf, hfind, hsame, -⟩ := hback
  simp only [ChrootConfig.parseData, bind_eq_ok_iff, mapError_eq_ok_iff] at hconf
  obtain ⟨kf, hparse, hconf⟩ := hconf
  obtain ⟨hname, group, hload⟩ := ChrootConfig.exists_loadChroot_of_findChroot hconf hfind
  have hlines := singleLine_of_comesBack hparse hload hname hsame
  obtain ⟨hvalues, -, -, -⟩ := Userdata.setOptions_eq_none hset
  have hdata : u'.userdata[key]? = some value := by rw [hvalues, hvalue, Option.some_or]
  refine hlines (key, value) (Std.ExtTreeMap.mem_toList_iff_getElem?_eq_some.mpr
    ((writtenValues_eq_some_iff hs.wellKeyed value).mpr ?_))
  refine mem_keyfileEntries_of_getFacet (getFacet_of_userdata? (userdata?_updateFacet hu u')) ?_
  simp only [facetEntries]
  exact List.mem_append_right _ (Std.ExtTreeMap.mem_toList_iff_getElem?_eq_some.mpr hdata)

end Sessions

end Chroot

namespace Session

section Prepared

variable {w : World} {i : Nat} {entry : ChrootEntry} {c s : Chroot}

/-- **What is worked with as a session of a chroot that is none has been cloned from it.** -/
theorem cloned_of_prepareChroot
    (hchroot : entry.chroot.isSession = false)
    (h : prepareChroot w i entry = .ok s)
    (hsession : s.isSession = true) :
    ∃ sessionId root c d,
      entry.chroot.cloneSession w.cfg sessionId entry.aliasName w.session.info.ruser root =
        .ok (some c) ∧
      overrideVerbosity w c = .ok d ∧ setUserOptions w d = .ok s := by
  simp only [prepareChroot, bind_eq_ok_iff] at h
  obtain ⟨c, hc, d, hd, hs⟩ := h
  have hno : entry.chroot.copy ≠ c := by
    rintro rfl
    have hmem := Chroot.isSession_iff.mp hsession
    rw [(sameAccess_setUserOptions hs).2, (sameAccess_overrideVerbosity hd).2,
      Chroot.facetKinds_copy] at hmem
    rw [Chroot.isSession_iff.mpr hmem] at hchroot
    cases hchroot
  unfold createSession at hc
  simp only at hc
  split at hc
  · cases hc
  · split at hc
    · simp only [bind_eq_ok_iff, mapError_eq_ok_iff] at hc
      obtain ⟨m, -, clone, hclone, hc⟩ := hc
      cases hc
      cases clone with
      | none => exact absurd rfl hno
      | some c => exact ⟨_, m.root, c, d, hclone, hd, hs⟩
    · cases hc
      exact absurd rfl hno

/-- The options that are set are those of the user or of root. -/
theorem setOptions_of_setUserOptions
    {u : Userdata}
    (hu : c.userdata? = some u)
    (h : setUserOptions w c = .ok s) :
    ∃ root u', u.setOptions root w.session.userOptions = (u', none) ∧
      s = c.updateFacet (.userdata u') := by
  unfold setUserOptions at h
  simp only [hu] at h
  split at h
  · rename_i u' hset
    cases h
    split at hset
    · exact ⟨true, u', hset, rfl⟩
    · exact ⟨false, u', hset, rfl⟩
  · cases h

/-- **A prepared session** is one that can come back, with the options of the user. -/
theorem exists_recoverable
    (hc : Chroot.Configured w.cfg entry.chroot)
    (hw : Chroot.SessionWritable entry.chroot entry.aliasName w.session.info.ruser)
    (h : prepareChroot w i entry = .ok s)
    (hsession : s.isSession = true) :
    ∃ d u u' root, Chroot.Recoverable w.cfg d ∧ d.userdata? = some u ∧
      u.setOptions root w.session.userOptions = (u', none) ∧ s = d.updateFacet (.userdata u') := by
  have horigin := hc.isOrigin hw.source
  obtain ⟨sessionId, root, c, d, hclone, hd, hs⟩ :=
    cloned_of_prepareChroot horigin.loaded.session h hsession
  have hrecoverable := Chroot.recoverable_of_writable horigin hw hclone
  have hverbosity : ∃ v, d = { c with verbosity := v } := by
    unfold overrideVerbosity at hd
    split at hd
    · exact Chroot.exists_verbosity (mapError_eq_ok_iff.mp hd)
    · cases hd
      exact ⟨_, rfl⟩
  obtain ⟨v, rfl⟩ := hverbosity
  have hrecoverable' := hrecoverable.withVerbosity (v := v)
  obtain ⟨u, hu⟩ := Chroot.exists_userdata hrecoverable'.data.profile.present
  obtain ⟨byRoot, u', hset, hs⟩ := setOptions_of_setUserOptions hu hs
  exact ⟨_, u, u', byRoot, hrecoverable', hu, hset, hs⟩

/-- It can come back itself if the options have one line each. -/
theorem recoverable_prepareChroot
    (hc : Chroot.Configured w.cfg entry.chroot)
    (hw : Chroot.SessionWritable entry.chroot entry.aliasName w.session.info.ruser)
    (h : prepareChroot w i entry = .ok s)
    (hsession : s.isSession = true)
    (hoptions : ∀ key value : String, w.session.userOptions[key]? = some value →
      SingleLine value) :
    Chroot.Recoverable w.cfg s := by
  obtain ⟨d, u, u', root, hd, hu, hset, rfl⟩ := exists_recoverable hc hw h hsession
  exact hd.updateUserdata hu hset hoptions

/-- **The prepared sessions that come back** are those that the options of the user do not break
the lines of. -/
theorem comesBack_prepareChroot
    (hc : Chroot.Configured w.cfg entry.chroot)
    (hw : Chroot.SessionWritable entry.chroot entry.aliasName w.session.info.ruser)
    (h : prepareChroot w i entry = .ok s)
    (hsession : s.isSession = true) :
    Chroot.ComesBack w.cfg s ↔
      ∀ key value : String, w.session.userOptions[key]? = some value → SingleLine value := by
  constructor
  · intro hcomes key value hvalue
    obtain ⟨d, u, u', root, hd, hu, hset, rfl⟩ := exists_recoverable hc hw h hsession
    exact Chroot.singleLine_options (hd.data.updateUserdata hu hset) hu hset hcomes hvalue
  · intro hoptions
    exact (recoverable_prepareChroot hc hw h hsession hoptions).comesBack

/-- A chroot whose user may set a key. -/
def modifiableText : String :=
  "[d]\ntype=directory\ndirectory=/srv/d\nuser-modifiable-keys=custom.key\n"

/-- A run that begins a session, with a value for the key. -/
def optionWorld (value : String) : World where
  cfg := .standard
  session :=
    { operation := .opBegin
      chroots := []
      userOptions := Chroot.optionOf value
      info := sampleInfo }
  outcomes := smoothOutcomes

/-- A value on one line comes back with the session, two lines do not. -/
theorem comesBack_option :
    ∃ kf c, Keyfile.empty.parse modifiableText = .ok kf ∧
      ChrootConfig.loadChroot .standard "chroot" kf "d" = .ok c ∧
      (∃ s, prepareChroot (optionWorld "1") 0 ⟨"d", c⟩ = .ok s ∧
        Chroot.ComesBack (optionWorld "1").cfg s) ∧
      ∃ s, prepareChroot (optionWorld "1\n2") 0 ⟨"d", c⟩ = .ok s ∧
        ¬ Chroot.ComesBack (optionWorld "1\n2").cfg s := by
  have hsessions : okAnd (Keyfile.empty.parse modifiableText) (fun kf =>
      okAnd (ChrootConfig.loadChroot .standard "chroot" kf "d") fun c =>
        c.isSessionWritable "d" "joe" && ["1", "1\n2"].all fun value =>
          okAnd (prepareChroot (optionWorld value) 0 ⟨"d", c⟩) Chroot.isSession) = true := by
    decide +kernel
  obtain ⟨kf, hkf, hsessions⟩ := okAnd_eq_true_iff.mp hsessions
  obtain ⟨c, hc, hsessions⟩ := okAnd_eq_true_iff.mp hsessions
  obtain ⟨hwritable, hprepared⟩ := Bool.and_eq_true_iff.mp hsessions
  have hw := Chroot.isSessionWritable_iff.mp hwritable
  obtain ⟨s, hs, hsession⟩ :=
    okAnd_eq_true_iff.mp (List.all_eq_true.mp hprepared "1" (by simp))
  obtain ⟨s', hs', hsession'⟩ :=
    okAnd_eq_true_iff.mp (List.all_eq_true.mp hprepared "1\n2" (by simp))
  have hoptions : ∀ value, (optionWorld value).session.userOptions = Chroot.optionOf value :=
    fun _ => rfl
  have hvalue : ∀ value key value' : String,
      (optionWorld value).session.userOptions[key]? = some value' → value' = value := by
    intro value key value' h
    rw [hoptions, Chroot.optionOf, SortedMap.getElem?_insert] at h
    split at h
    · exact (Option.some.inj h).symm
    · simp at h
  have hiff : ∀ (value : String) (s : Chroot),
      prepareChroot (optionWorld value) 0 ⟨"d", c⟩ = .ok s → s.isSession = true →
        (Chroot.ComesBack (optionWorld value).cfg s ↔
          ∀ key value' : String, (optionWorld value).session.userOptions[key]? = some value' →
            SingleLine value') := by
    intro value s hs hsession
    have hconfigured : Chroot.Configured (optionWorld value).cfg (ChrootEntry.mk "d" c).chroot :=
      .chroot hkf hc
    have hjoe : Chroot.SessionWritable (ChrootEntry.mk "d" c).chroot
        (ChrootEntry.mk "d" c).aliasName (optionWorld value).session.info.ruser := hw
    exact comesBack_prepareChroot hconfigured hjoe hs hsession
  refine ⟨kf, c, hkf, hc, ⟨s, hs, ?_⟩, s', hs', ?_⟩
  · rw [hiff "1" s hs hsession]
    intro key value h
    rw [hvalue "1" key value h]
    decide
  · rw [hiff "1\n2" s' hs' hsession']
    intro hlines
    have hget : (optionWorld "1\n2").session.userOptions["custom.key"]? = some "1\n2" := by
      rw [hoptions, Chroot.optionOf, SortedMap.getElem?_insert, if_pos rfl]
    exact absurd (hlines _ _ hget) (by decide)

end Prepared

end Session

end Schroot
