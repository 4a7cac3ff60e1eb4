import Schroot.FacetReading
import Schroot.KeyfileRoundTrip

/-!
# What a chroot writes

The keyfile that a chroot writes, as a map from keys to values.

**Results.**
* `getKeyfile_empty`: the written keyfile has one group.
* `keys_baseEntries`, `keys_typeEntries`: which keys the base class and the type write.
-/

namespace Schroot

namespace Chroot

section Values

/-- The values that a chroot writes. -/
def writtenValues (c : Chroot) : Std.ExtTreeMap String String :=
  SortedMap.insertAll ∅ c.keyfileEntries

theorem foldl_setValue_single
    (name : String) (entries : List (String × String))
    (values : Std.ExtTreeMap String String) :
    entries.foldl (fun kf e => kf.setValue name e.1 e.2) (Keyfile.single name values) =
      Keyfile.single name (SortedMap.insertAll values entries) := by
  induction entries generalizing values with
  | nil => rfl
  | cons e entries ih =>
      rw [List.foldl_cons, Keyfile.setValue_single, ih]
      rfl

theorem setValue_empty (name key value : String) :
    Keyfile.empty.setValue name key value =
      Keyfile.single name ((∅ : Std.ExtTreeMap String String).insert key value) := by
  have hset : Keyfile.empty.setGroup name "" 0 = Keyfile.single name ∅ := by
    have hfree : Keyfile.empty.hasGroup name = false := by
      simp [Keyfile.hasGroup, Keyfile.findGroup, Keyfile.empty]
    have hitems : (∅ : Std.ExtTreeMap String String).map (fun _ v => (⟨v, "", 0⟩ : Item)) = ∅ := by
      apply Std.ExtTreeMap.ext_getElem?
      simp
    rw [Keyfile.setGroup, if_neg (by simp [hfree]), Keyfile.single, hitems]
    rfl
  have hitem : Keyfile.empty.setValue name key value =
      (Keyfile.single name ∅).setValue name key value := by
    simp only [Keyfile.setValue, Keyfile.setItem, hset]
    have hsame : (Keyfile.single name ∅).setGroup name "" 0 = Keyfile.single name ∅ := by
      rw [Keyfile.setGroup, if_pos ((Keyfile.hasGroup_single ..).mpr rfl)]
    rw [hsame]
  rw [hitem, Keyfile.setValue_single]

/-- **The keyfile that a chroot writes** into an empty one has one group. -/
theorem getKeyfile_empty (c : Chroot) :
    c.getKeyfile .empty = Keyfile.single c.name c.writtenValues := by
  have hremove : Keyfile.empty.removeGroup c.name = Keyfile.empty := by
    simp [Keyfile.removeGroup, Keyfile.empty]
  obtain ⟨e, entries, hentries⟩ : ∃ e entries, c.keyfileEntries = e :: entries := by
    unfold keyfileEntries baseEntries entryIf
    cases c.isSession <;> exact ⟨_, _, rfl⟩
  rw [getKeyfile, hremove, writtenValues, hentries, List.foldl_cons, setValue_empty,
    foldl_setValue_single]
  rfl

end Values

section Keys

/-- The keys of the base class. -/
def baseKeyNames : List String :=
  [ "name", "type", "profile", "script-config", "aliases", "environment-filter", "description"
  , "users", "groups", "root-users", "root-groups", "mount-location", "command-prefix"
  , "message-verbosity", "preserve-environment", "shell" ]

/-- The keys of the types, without the location of file chroots. -/
def typeKeyNames : List String :=
  [ "directory", "custom-session-purgeable", "file", "file-repack", "device"
  , "lvm-snapshot-device", "lvm-snapshot-options", "zfs-snapshot-name", "zfs-clone-name"
  , "zfs-dataset-name", "zfs-snapshot-options", "btrfs-source-subvolume"
  , "btrfs-snapshot-directory", "btrfs-snapshot-name" ]

/-- The keys of the facets, without user data. -/
def facetKeyNames : FacetKind → List String
  | .personality => ["personality"]
  | .sessionClonable => []
  | .userdata => ["user-modifiable-keys", "root-modifiable-keys"]
  | .session => ["original-name", "selected-name"]
  | .sourceClonable =>
      ["source-clone", "source-users", "source-groups", "source-root-users", "source-root-groups"]
  | .source => []
  | .union =>
      ["union-type", "union-mount-options", "union-overlay-directory", "union-underlay-directory"]
  | .mountable => ["mount-device", "mount-options", "location"]

/-- A key of user data has a dot, and the others do not. -/
def IsDotted (key : String) : Prop :=
  '.' ∈ key.toList

instance (key : String) : Decidable (IsDotted key) :=
  inferInstanceAs (Decidable ('.' ∈ key.toList))

/-- What keeps the keys of a chroot apart. -/
structure WellKeyed (c : Chroot) : Prop where
  nodup : c.facetKinds.Nodup
  dotted : ∀ u, .userdata u ∈ c.facets → ∀ e ∈ u.userdata.toList, IsDotted e.1
  location : (∃ f, c.kind = .file f) → .mountable ∉ c.facetKinds

variable {c : Chroot}

theorem keys_baseEntries (c : Chroot) :
    (c.baseEntries.map Prod.fst).Sublist baseKeyNames := by
  unfold baseEntries entryIf
  cases c.isSession
  · cases decide (c.scriptConfig ≠ "")
    · exact List.isSublist_iff_sublist.mp rfl
    · exact List.isSublist_iff_sublist.mp rfl
  · cases decide (c.scriptConfig ≠ "")
    · exact List.isSublist_iff_sublist.mp rfl
    · exact List.isSublist_iff_sublist.mp rfl

theorem keys_typeEntries (c : Chroot) :
    (c.typeEntries.map Prod.fst).Nodup ∧ ∀ e ∈ c.typeEntries,
      e.1 ∈ typeKeyNames ∨ (e.1 = "location" ∧ ∃ f, c.kind = .file f) := by
  unfold typeEntries entryIf
  cases c.kind <;> cases c.isSession <;> simp [typeKeyNames]

end Keys

end Chroot

end Schroot
