import Schroot.UserdataInvariant
import Schroot.ChrootWriting
import Schroot.Environment

/-!
# Copies of chroots

Sessions are never run with a configured chroot itself, but with a copy of it or a session
that starts as a copy.  All copy constructors copy all fields but that of custom chroots,
which clears the purgeable flag.

**Results.**
* `value?_getKeyfile_custom`: what is written of the flag.
* `copyFaithful_iff`: which chroots have a faithful copy.
-/

namespace Schroot

namespace Chroot

section Copies

/-- **The copy stands for the chroot**: it is written as the same keyfile, has the same
session flags, facets and setup environment, and sessions that are to be purged are. -/
structure CopyFaithful (cfg : SbuildConfig) (c : Chroot) : Prop where
  keyfile : ∀ kf, c.copy.getKeyfile kf = c.getKeyfile kf
  flags : c.copy.getSessionFlags = c.getSessionFlags
  facets : c.copy.facetKinds = c.facetKinds
  env : ∀ env, c.copy.setupEnv cfg env = c.setupEnv cfg env
  purge : c.kind = .custom true → ∀ sessionId selected user root s,
    c.cloneSession cfg sessionId selected user root = .ok (some s) → s.getSessionFlags.purge = true

variable {cfg : SbuildConfig} {c : Chroot}

/-- Every other copy is the chroot itself. -/
theorem copy_eq_self
    (h : c.kind ≠ .custom true) :
    c.copy = c := by
  unfold copy
  split
  · rename_i purgeable hkind
    cases purgeable with
    | true => exact absurd hkind h
    | false => rw [← hkind]
  · rfl

theorem copyFaithful_of_ne
    (h : c.kind ≠ .custom true) :
    CopyFaithful cfg c := by
  have hcopy := copy_eq_self h
  exact ⟨fun _ => by rw [hcopy], by rw [hcopy], by rw [hcopy], fun _ => by rw [hcopy],
    fun hkind => absurd hkind h⟩

/-- The facets do not write the key of the flag. -/
theorem facetEntries_ne
    {f : Facet}
    (hc : DataInvariant c)
    (hf : f ∈ c.facets)
    (e : String × String)
    (he : e ∈ facetEntries c.isSession f) :
    e.1 ≠ "custom-session-purgeable" := by
  cases f with
  | userdata u =>
      simp only [facetEntries, List.cons_append, List.nil_append, List.mem_cons] at he
      rcases he with rfl | rfl | he
      · simp
      · simp
      · have hmem : e.1 ∈ u.userdata := by
          have hvalue := Std.ExtTreeMap.mem_toList_iff_getElem?_eq_some.mp he
          exact Std.ExtTreeMap.mem_iff_isSome_getElem?.mpr (by simp [hvalue])
        have hdot := dot_mem_of_validateKeyname ((hc.named u hf).valid _ hmem)
        intro hkey
        rw [hkey] at hdot
        revert hdot
        decide
  | personality p =>
      simp only [facetEntries, entryIf] at he
      split at he <;> simp at he
      simp [he]
  | union u =>
      simp only [facetEntries] at he
      split at he <;> simp at he <;> rcases he with rfl | rfl | rfl | rfl <;> simp
  | mountable m =>
      simp only [facetEntries, entryIf] at he
      split at he <;> simp at he <;> rcases he with rfl | rfl | rfl <;> simp
  | _ =>
      simp [facetEntries] at he
      try rcases he with rfl | rfl | rfl | rfl | rfl <;> simp

/-- **What is written of the flag.** -/
theorem writtenValues_custom
    {purgeable : Bool}
    (hc : DataInvariant c)
    (hkind : c.kind = .custom purgeable) :
    c.writtenValues["custom-session-purgeable"]? = some (printBool purgeable) := by
  have htype : c.typeEntries = [("custom-session-purgeable", printBool purgeable)] := by
    simp [typeEntries, hkind]
  have hfacets : SortedMap.lookup "custom-session-purgeable"
      (c.facets.flatMap (facetEntries c.isSession)).reverse = none := by
    rw [SortedMap.lookup_eq_none_iff]
    intro hkey
    obtain ⟨e, he, hkey⟩ := List.mem_map.mp hkey
    obtain ⟨f, hf, he⟩ := List.mem_flatMap.mp (List.mem_reverse.mp he)
    exact facetEntries_ne hc hf e he hkey
  rw [writtenValues, keyfileEntries, htype, SortedMap.getElem?_insertAll, List.reverse_append,
    List.reverse_append, SortedMap.lookup_append, SortedMap.lookup_append, hfacets]
  simp [SortedMap.lookup_cons]

theorem not_copyFaithful
    (hc : DataInvariant c)
    (hkind : c.kind = .custom true) :
    ¬ CopyFaithful cfg c := by
  intro h
  have hcopy : c.copy.kind = .custom false := by
    simp [copy, hkind]
  have hname : c.copy.name = c.name := by
    simp [copy, hkind]
  have hvalue := writtenValues_custom hc hkind
  have hvalue' := writtenValues_custom hc.copy hcopy
  have hkeyfile := congrArg (fun kf => kf.value? c.name "custom-session-purgeable")
    (h.keyfile .empty)
  simp only [getKeyfile_empty, Keyfile.value?_single, hname, if_true, hvalue, hvalue',
    Option.some.injEq] at hkeyfile
  exact absurd hkeyfile (by decide)

/-- **Which chroots have a faithful copy**: all but custom chroots that are purgeable. -/
theorem copyFaithful_iff
    {ok : Keyfile → Chroot → Prop}
    (hc : Reachable cfg ok c) :
    CopyFaithful cfg c ↔ c.kind ≠ .custom true :=
  ⟨fun h hkind => not_copyFaithful (dataInvariant_of_reachable hc) hkind h, copyFaithful_of_ne⟩

/-- A custom chroot. -/
def customChroot (purgeable : String) : Keyfile :=
  ((Keyfile.empty.setValue "sid" "type" "custom").setValue "sid" "custom-session-purgeable"
    purgeable)

/-- The chroot of a keyfile with a session of it. -/
def customSession (purgeable : String) : Option (Chroot × Chroot) :=
  match ChrootConfig.loadChroot .standard "chroot" (customChroot purgeable) "sid" with
  | .ok c =>
      match c.cloneSession .standard "sid-1" "sid" "" false with
      | .ok (some s) => some (c, s)
      | _ => none
  | .error _ => none

theorem customSession_eq_some
    {purgeable : String} {s : Chroot}
    (h : customSession purgeable = some (c, s)) :
    ChrootConfig.loadChroot .standard "chroot" (customChroot purgeable) "sid" = .ok c ∧
      c.cloneSession .standard "sid-1" "sid" "" false = .ok (some s) := by
  unfold customSession at h
  split at h
  · split at h
    · cases h
      exact ⟨‹_›, ‹_›⟩
    · cases h
  · cases h

/-- A custom chroot that is not purgeable has a faithful copy. -/
theorem copyFaithful_custom :
    ∃ c s, customSession "false" = some (c, s) ∧ CopyFaithful .standard c := by
  have hrun : (customSession "false").any (fun p => p.1.kind ≠ .custom true) = true := by
    decide +kernel
  obtain ⟨p, hsession, hkind⟩ := Option.any_eq_true _ _ |>.mp hrun
  have hload := (customSession_eq_some hsession).1
  have hreach : Reachable .standard (fun _ _ => True) p.1 :=
    reachable_loadChroot (fun _ _ => trivial) hload
  exact ⟨p.1, p.2, hsession, (copyFaithful_iff hreach).mpr (by simpa using hkind)⟩

/-- **A session of a custom chroot is not purged although the chroot says so.** -/
theorem not_copyFaithful_custom :
    ∃ c s, customSession "true" = some (c, s) ∧ c.kind = .custom true ∧
      s.getSessionFlags.purge = false ∧ ¬ CopyFaithful .standard c := by
  have hrun : (customSession "true").any (fun p =>
      p.1.kind = .custom true && !p.2.getSessionFlags.purge) = true := by
    decide +kernel
  obtain ⟨p, hsession, hp⟩ := Option.any_eq_true _ _ |>.mp hrun
  obtain ⟨hkind, hpurge⟩ := Bool.and_eq_true_iff.mp hp
  have hsessions := (customSession_eq_some hsession).2
  simp only [decide_eq_true_eq, Bool.not_eq_true'] at hkind hpurge
  refine ⟨p.1, p.2, hsession, hkind, hpurge, fun h => ?_⟩
  have hflags := h.purge hkind _ _ _ _ _ hsessions
  rw [hpurge] at hflags
  cases hflags

end Copies

end Chroot

end Schroot
