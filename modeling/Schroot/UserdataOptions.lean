import Schroot.ChrootConfig
import Schroot.Session
import Schroot.UserdataNames

/-!
# Options of users

The options that a user supplies are set one after the other among the user data of the
chroot.  Each of them has to be modifiable by the user, or by root if root is involved.

**Results.**
* `setAllowedData_eq_none`: what the loop has done if it does not throw.
* `setAllowedData_frame`: what it leaves alone, wherever it ends.
* `requests_respected`: what requests, and so sessions, can change.
* `rootKey_changed`: it is not only root that changes what is reserved for root.
-/

namespace Schroot

namespace Userdata

section Options

variable {u u' : Userdata} {key value : String}

/-- **What the options of a user do to user data**, if they are all accepted. -/
theorem setAllowedData_eq_none
    {allowed : Std.ExtTreeSet String} {root : Bool} {data : List (String × String)}
    (h : setAllowedData allowed root data u = (u', none)) :
    (∀ k : String, u'.userdata[k]? = (SortedMap.insertAll u.userdata data)[k]?) ∧
      (∀ e ∈ data, validateKeyname e.1 = true) ∧
      u'.userModifiableKeys = u.userModifiableKeys ∧
      u'.rootModifiableKeys = u.rootModifiableKeys := by
  induction data generalizing u with
  | nil =>
      cases h
      exact ⟨fun _ => rfl, by simp, rfl, rfl⟩
  | cons entry data ih =>
      simp only [setAllowedData] at h
      split at h
      · split at h
        · rename_i v hset
          obtain ⟨hvalues, hvalid, huser, hroot⟩ := ih h
          unfold Userdata.setData at hset
          split at hset
          · rename_i hkey
            obtain ⟨huser', hroot'⟩ := keys_setSystemData hset
            refine ⟨fun k => ?_, ?_, huser.trans huser', hroot.trans hroot'⟩
            · have hstep : v.userdata = u.userdata.insert entry.1 entry.2 := by
                apply Std.ExtTreeMap.ext_getElem?
                intro a
                rw [getElem?_setSystemData hset, SortedMap.getElem?_insert]
              rw [hvalues, hstep]
              rfl
            · intro e he
              rcases List.mem_cons.mp he with rfl | he
              · exact hkey
              · exact hvalid e he
          · cases hset
        · cases h
      · cases h

/-- The options, set by a user or by root. -/
def setOptions (root : Bool) (options : Std.ExtTreeMap String String) (u : Userdata) :
    Userdata × Option UserdataError :=
  if root then u.setRootData options else u.setUserData options

theorem setOptions_eq_none
    {root : Bool} {options : Std.ExtTreeMap String String}
    (h : u.setOptions root options = (u', none)) :
    (∀ k : String, u'.userdata[k]? = (options[k]?).or u.userdata[k]?) ∧
      (∀ k ∈ options, validateKeyname k = true) ∧
      u'.userModifiableKeys = u.userModifiableKeys ∧
      u'.rootModifiableKeys = u.rootModifiableKeys := by
  have hset : ∃ allowed, setAllowedData allowed root options.toList u = (u', none) := by
    cases root
    · exact ⟨_, h⟩
    · exact ⟨_, h⟩
  obtain ⟨allowed, hset⟩ := hset
  obtain ⟨hvalues, hvalid, hkeys⟩ := setAllowedData_eq_none hset
  refine ⟨fun k => ?_, fun k hk => ?_, hkeys⟩
  · rw [hvalues, SortedMap.getElem?_insertAll,
      SortedMap.lookup_reverse (SortedMap.nodup_keys_toList options), SortedMap.lookup_toList]
  · obtain ⟨v, hv⟩ := Option.isSome_iff_exists.mp
      (Std.ExtTreeMap.mem_iff_isSome_getElem?.mp hk)
    exact hvalid (k, v) (Std.ExtTreeMap.mem_toList_iff_getElem?_eq_some.mpr hv)

theorem Named.setOptions
    {root : Bool} {options : Std.ExtTreeMap String String}
    (hu : u.Named)
    (h : u.setOptions root options = (u', none)) :
    u'.Named := by
  cases root
  · have hset : (u.setUserData options).1.Named := hu.setAllowedData _ false _
    have heq : u.setUserData options = (u', none) := h
    rwa [heq] at hset
  · have hset : (u.setRootData options).1.Named := hu.setAllowedData _ true _
    have heq : u.setRootData options = (u', none) := h
    rwa [heq] at hset

end Options

section Requests

/-- What may change when the keys of `allowed` may be set: no other key, and no key that is
not permitted is added; and if nothing is thrown, all data is set. -/
structure Respects (allowed : String → Prop) (data : Std.ExtTreeMap String String)
    (u u' : Userdata) (error : Option UserdataError) : Prop where
  frame : ∀ key : String, ¬ allowed key → u'.userdata[key]? = u.userdata[key]?
  valid : ∀ key ∈ u'.userdata, key ∉ u.userdata → validateKeyname key = true
  done : error = none → ∀ key value : String, data[key]? = some value →
    u'.userdata[key]? = some value

variable {u u' : Userdata}

/-- One accepted key. -/
theorem setData_eq_ok
    {key value : String}
    (h : u.setData key value = .ok u') :
    validateKeyname key = true ∧
      (∀ k : String, u'.userdata[k]? = if k = key then some value else u.userdata[k]?) := by
  unfold setData at h
  split at h
  · exact ⟨‹_›, getElem?_setSystemData h⟩
  · cases h

/-- **The keys that are not allowed stay as they are**, wherever the loop ends. -/
theorem setAllowedData_frame
    {allowed : Std.ExtTreeSet String}
    (root : Bool) (data : List (String × String)) (u : Userdata)
    {key : String}
    (hkey : key ∉ allowed) :
    (setAllowedData allowed root data u).1.userdata[key]? = u.userdata[key]? := by
  induction data generalizing u with
  | nil => rfl
  | cons entry data ih =>
      simp only [setAllowedData]
      split
      · rename_i hallowed
        have hne : key ≠ entry.1 := fun e => hkey (e ▸ hallowed)
        cases hset : u.setData entry.1 entry.2 with
        | error e => rfl
        | ok v =>
            rw [ih v, (setData_eq_ok hset).2, if_neg hne]
      · rfl

/-- **Only permitted keys are added.** -/
theorem setAllowedData_valid
    (allowed : Std.ExtTreeSet String) (root : Bool) (data : List (String × String))
    (u : Userdata)
    {key : String}
    (hkey : key ∈ (setAllowedData allowed root data u).1.userdata)
    (hfree : key ∉ u.userdata) :
    validateKeyname key = true := by
  induction data generalizing u with
  | nil => exact absurd hkey hfree
  | cons entry data ih =>
      simp only [setAllowedData] at hkey
      split at hkey
      · cases hset : u.setData entry.1 entry.2 with
        | error e =>
            simp only [hset] at hkey
            exact absurd hkey hfree
        | ok v =>
            simp only [hset] at hkey
            obtain ⟨hvalid, hvalues⟩ := setData_eq_ok hset
            by_cases heq : key = entry.1
            · exact heq ▸ hvalid
            · refine ih v hkey fun hv => hfree ?_
              rw [Std.ExtTreeMap.mem_iff_isSome_getElem?] at hv ⊢
              rwa [hvalues, if_neg heq] at hv
      · exact absurd hkey hfree

/-- **What a request respects**, whether it is of a user or of root. -/
theorem respects_setAllowedData
    (allowed : Std.ExtTreeSet String) (root : Bool) (data : Std.ExtTreeMap String String)
    (u : Userdata) :
    Respects (· ∈ allowed) data u (setAllowedData allowed root data.toList u).1
      (setAllowedData allowed root data.toList u).2 := by
  refine ⟨fun key hkey => setAllowedData_frame root _ u hkey,
    fun key => setAllowedData_valid allowed root _ u, fun herror key value hvalue => ?_⟩
  have hset : setAllowedData allowed root data.toList u =
      ((setAllowedData allowed root data.toList u).1, none) := by
    rw [← herror]
  rw [(setAllowedData_eq_none hset).1, SortedMap.getElem?_insertAll,
    SortedMap.lookup_reverse (SortedMap.nodup_keys_toList data), SortedMap.lookup_toList, hvalue]
  rfl

/-- The keys that root may set are those of both sets. -/
theorem mem_rootKeys_iff (u : Userdata) (key : String) :
    key ∈ u.userModifiableKeys.insertMany u.rootModifiableKeys.toList ↔
      key ∈ u.userModifiableKeys ∨ key ∈ u.rootModifiableKeys := by
  rw [Std.ExtTreeSet.mem_insertMany_list]
  simp

/-- What `set_user_data` and `set_root_data` respect. -/
theorem respects_requests (data : Std.ExtTreeMap String String) (u : Userdata) :
    Respects (· ∈ u.userModifiableKeys) data u (u.setUserData data).1 (u.setUserData data).2 ∧
      Respects (fun key => key ∈ u.userModifiableKeys ∨ key ∈ u.rootModifiableKeys) data u
        (u.setRootData data).1 (u.setRootData data).2 := by
  refine ⟨respects_setAllowedData _ false data u, ?_⟩
  have hroot := respects_setAllowedData (u.userModifiableKeys.insertMany u.rootModifiableKeys.toList)
    true data u
  simp only [mem_rootKeys_iff] at hroot
  exact hroot

end Requests

end Userdata

namespace Session

section Requests

/-- What the options of a user may change in the user data of a chroot: if neither the user
nor the user switched to is root, keys that users may modify, and otherwise those that root
may. -/
def KeepsKeys (w : World) (u u' : Userdata) : Prop :=
  ∀ key : String, key ∉ u.userModifiableKeys →
    (w.session.info.uid = 0 ∨ w.session.info.ruid = 0 → key ∉ u.rootModifiableKeys) →
      u'.userdata[key]? = u.userdata[key]?

/-- A chroot that `run_impl` works with has all its other keys as they were. -/
def KeepsUserData (w : World) (c : Chroot) : Prop :=
  ∀ u c', c.userdata? = some u → setUserOptions w c = .ok c' →
    ∃ u', c'.userdata? = some u' ∧ KeepsKeys w u u'

theorem keepsUserData (w : World) (c : Chroot) :
    KeepsUserData w c := by
  intro u c' hu h
  obtain ⟨huser, hroot⟩ := Userdata.respects_requests w.session.userOptions u
  unfold setUserOptions at h
  simp only [hu] at h
  split at h
  · rename_i u' hset
    cases h
    refine ⟨u', Chroot.userdata?_updateFacet hu u', fun key hkey hrootKey => ?_⟩
    split at hset
    · rename_i hid
      have hframe := hroot.frame key fun hmem => hmem.elim hkey (hrootKey hid)
      rwa [hset] at hframe
    · have hframe := huser.frame key hkey
      rwa [hset] at hframe
  · cases h

/-- **What a request respects**, wherever it fails, and so what a session respects. -/
theorem requests_respected :
    (∀ (data : Std.ExtTreeMap String String) (u : Userdata),
      Userdata.Respects (· ∈ u.userModifiableKeys) data u
          (u.setUserData data).1 (u.setUserData data).2 ∧
        Userdata.Respects (fun key => key ∈ u.userModifiableKeys ∨ key ∈ u.rootModifiableKeys)
          data u (u.setRootData data).1 (u.setRootData data).2) ∧
      ∀ (w : World) (c : Chroot), KeepsUserData w c :=
  ⟨Userdata.respects_requests, keepsUserData⟩

/-- One key of this chroot is reserved for root. -/
def rootKeyText : String :=
  "[d]\ntype=directory\ndirectory=/srv/d\nroot-users=joe\nroot-modifiable-keys=custom.key\n"

/-- `joe`, who is not root, switches to root and asks for the key. -/
def rootKeyWorld : World :=
  { smoothWorld .opRun [] with
    session :=
      { operation := .opRun
        chroots := []
        userOptions := Std.ExtTreeMap.ofList [("custom.key", "1")]
        info := sampleInfo } }

/-- **Who switches to root changes what is reserved for root**, without being root. -/
theorem rootKey_changed :
    ∃ c c' u u', (∃ kf, Keyfile.empty.parse rootKeyText = .ok kf ∧
        ChrootConfig.loadChroot .standard "chroot" kf "d" = .ok c) ∧
      rootKeyWorld.session.info.ruid ≠ 0 ∧ c.userdata? = some u ∧
      "custom.key" ∉ u.userModifiableKeys ∧ "custom.key" ∈ u.rootModifiableKeys ∧
      setUserOptions rootKeyWorld c = .ok c' ∧ c'.userdata? = some u' ∧
      u'.userdata["custom.key"]? ≠ u.userdata["custom.key"]? := by
  have hrun : okAnd (Keyfile.empty.parse rootKeyText) (fun kf =>
      okAnd (ChrootConfig.loadChroot .standard "chroot" kf "d") fun c =>
        c.userdata?.any (fun u => decide ("custom.key" ∉ u.userModifiableKeys) &&
          decide ("custom.key" ∈ u.rootModifiableKeys) &&
            decide (u.userdata["custom.key"]? = none)) &&
          okAnd (setUserOptions rootKeyWorld c) fun c' =>
            c'.userdata?.any fun u => decide (u.userdata["custom.key"]? = some "1")) = true := by
    decide +kernel
  obtain ⟨kf, hkf, hrun⟩ := okAnd_eq_true_iff.mp hrun
  obtain ⟨c, hc, hrun⟩ := okAnd_eq_true_iff.mp hrun
  obtain ⟨hbefore, hrun⟩ := Bool.and_eq_true_iff.mp hrun
  obtain ⟨c', hc', hafter⟩ := okAnd_eq_true_iff.mp hrun
  obtain ⟨u, hu, hbefore⟩ := Option.any_eq_true _ _ |>.mp hbefore
  obtain ⟨u', hu', hafter⟩ := Option.any_eq_true _ _ |>.mp hafter
  simp only [Bool.and_eq_true, decide_eq_true_eq] at hbefore hafter
  obtain ⟨⟨huser, hroot⟩, hnone⟩ := hbefore
  refine ⟨c, c', u, u', ⟨kf, hkf, hc⟩, by decide, hu, huser, hroot, hc', hu', ?_⟩
  rw [hafter, hnone]
  simp

end Requests

end Session

end Schroot
