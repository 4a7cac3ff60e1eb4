import Schroot.SessionFile

/-!
# The values that a chroot writes

Every key that a chroot writes belongs to the base class, to its type or to one of its facets, and
no key is written twice.  So what is written under a key is what its owner writes there.

**Results.**
* `keyfileEntries_keys`: a chroot writes no key twice.
* `writtenValues_base`, `writtenValues_type`, `writtenValues_facet`: what is written under a key of
  the base class, of the type and of a facet.
* `writtenValues_none`: nothing is written under any other key.
-/

namespace Schroot

namespace Chroot

section Owners

/-- A facet of this kind writes the key. -/
def OwnsKey (kind : FacetKind) (key : String) : Prop :=
  key ∈ facetKeyNames kind ∨ (kind = .userdata ∧ IsDotted key)

theorem facetKeyNames_subset (kind : FacetKind) :
    facetKeyNames kind ⊆ plainKeyNames := by
  cases kind <;> simp [facetKeyNames, plainKeyNames]

theorem not_isDotted_of_mem_facetKeyNames
    {kind : FacetKind} {key : String}
    (h : key ∈ facetKeyNames kind) :
    ¬ IsDotted key :=
  (plainKeyNames_spec key (facetKeyNames_subset kind h)).2

theorem facetKeyNames_disjoint
    {a b : FacetKind} {key : String}
    (ha : key ∈ facetKeyNames a)
    (hb : key ∈ facetKeyNames b) :
    a = b := by
  revert key
  cases a <;> cases b <;> simp [facetKeyNames]

/-- **A key has one owner** among the facets. -/
theorem OwnsKey.unique
    {a b : FacetKind} {key : String}
    (ha : OwnsKey a key)
    (hb : OwnsKey b key) :
    a = b := by
  rcases ha with ha | ⟨rfl, ha⟩
  · rcases hb with hb | ⟨-, hb⟩
    · exact facetKeyNames_disjoint ha hb
    · exact absurd hb (not_isDotted_of_mem_facetKeyNames ha)
  · rcases hb with hb | ⟨rfl, -⟩
    · exact absurd ha (not_isDotted_of_mem_facetKeyNames hb)
    · rfl

/-- The base class and the types have keys of their own. -/
theorem OwnsKey.notMem
    {kind : FacetKind} {key : String}
    (h : OwnsKey kind key) :
    key ∉ baseKeyNames ∧ key ∉ typeKeyNames := by
  rcases h with h | ⟨-, h⟩
  · revert key
    cases kind <;> simp [facetKeyNames, baseKeyNames, typeKeyNames]
  · have hplain : key ∉ plainKeyNames := fun hm => (plainKeyNames_spec key hm).2 h
    simp only [plainKeyNames, List.mem_append, not_or] at hplain
    exact hplain.1

theorem typeKeyNames_disjoint
    {key : String}
    (hbase : key ∈ baseKeyNames) :
    key ∉ typeKeyNames := by
  revert key
  decide

/-- What a facet writes. -/
theorem facetEntries_keys
    {f : Facet} {session : Bool}
    (hdotted : ∀ u, f = .userdata u → ∀ e ∈ u.userdata.toList, IsDotted e.1) :
    ((facetEntries session f).map Prod.fst).Nodup ∧
      ∀ e ∈ facetEntries session f, OwnsKey f.kind e.1 := by
  cases f with
  | userdata u =>
      have hdata := hdotted u rfl
      have hnot : ∀ key, ¬ IsDotted key → key ∉ u.userdata.toList.map Prod.fst := by
        intro key hkey hm
        obtain ⟨e, he, rfl⟩ := List.mem_map.mp hm
        exact hkey (hdata e he)
      refine ⟨?_, ?_⟩
      · have huser := hnot "user-modifiable-keys" (by decide)
        have hroot := hnot "root-modifiable-keys" (by decide)
        simp only [facetEntries, List.cons_append, List.nil_append, List.map_cons,
          List.nodup_cons, List.mem_cons, not_or]
        exact ⟨⟨by decide, huser⟩, hroot, SortedMap.nodup_keys_toList _⟩
      · intro e he
        simp only [facetEntries, List.cons_append, List.nil_append, List.mem_cons] at he
        rcases he with rfl | rfl | he
        · exact .inl (by simp [facetKeyNames, Facet.kind])
        · exact .inl (by simp [facetKeyNames, Facet.kind])
        · exact .inr ⟨rfl, hdata e he⟩
  | union u =>
      simp only [facetEntries]
      split <;> simp [OwnsKey, facetKeyNames, Facet.kind]
  | mountable m =>
      simp only [facetEntries]
      cases session <;> simp [entryIf, OwnsKey, facetKeyNames, Facet.kind]
  | personality p =>
      simp only [facetEntries, entryIf]
      split <;> simp [OwnsKey, facetKeyNames, Facet.kind]
  | _ => simp [facetEntries, OwnsKey, facetKeyNames, Facet.kind]

end Owners

section Values

variable {c : Chroot} {key : String}

/-- The facets write what the owner of a key writes. -/
theorem lookup_facets
    {kind : FacetKind} {session : Bool} {facets : List Facet}
    (hnodup : (TaggedList.tags Facet.kind facets).Nodup)
    (hdotted : ∀ u, .userdata u ∈ facets → ∀ e ∈ u.userdata.toList, IsDotted e.1)
    (hkey : OwnsKey kind key) :
    SortedMap.lookup key (facets.flatMap (facetEntries session)) =
      (TaggedList.get? Facet.kind kind facets).bind fun f =>
        SortedMap.lookup key (facetEntries session f) := by
  have hother : ∀ f ∈ facets, f.kind ≠ kind →
      SortedMap.lookup key (facetEntries session f) = none := by
    intro f hf hne
    rw [SortedMap.lookup_eq_none_iff]
    intro hm
    obtain ⟨e, he, rfl⟩ := List.mem_map.mp hm
    exact hne (((facetEntries_keys fun u hu => hdotted u (hu ▸ hf)).2 e he).unique hkey)
  induction facets with
  | nil => rfl
  | cons f facets ih =>
      obtain ⟨hfirst, hrest⟩ := List.nodup_cons.mp hnodup
      have hfacets := ih hrest (fun u hu => hdotted u (List.mem_cons_of_mem f hu))
        fun g hg => hother g (List.mem_cons_of_mem f hg)
      rw [List.flatMap_cons, SortedMap.lookup_append, hfacets]
      by_cases hf : f.kind = kind
      · have hnone : TaggedList.get? Facet.kind kind facets = none := by
          refine List.find?_eq_none.mpr fun g hg hgk => hfirst ?_
          have hgkind : g.kind = f.kind := (of_decide_eq_true hgk).trans hf.symm
          exact hgkind ▸ List.mem_map_of_mem hg
        rw [hnone]
        simp [TaggedList.get?, hf]
      · rw [hother f (by simp) hf]
        simp [TaggedList.get?, hf]

/-- **A chroot writes no key twice.** -/
theorem keyfileEntries_keys
    (hc : WellKeyed c) :
    (c.keyfileEntries.map Prod.fst).Nodup := by
  have hfacet : ∀ f ∈ c.facets, ((facetEntries c.isSession f).map Prod.fst).Nodup ∧
      ∀ e ∈ facetEntries c.isSession f, OwnsKey f.kind e.1 :=
    fun f hf => facetEntries_keys fun u hu => hc.dotted u (hu ▸ hf)
  have hbase : (c.baseEntries.map Prod.fst).Nodup := (keys_baseEntries c).nodup (by decide)
  have hbasetype : List.Disjoint (c.baseEntries.map Prod.fst) (c.typeEntries.map Prod.fst) := by
    intro key hb ht
    have hmem := (keys_baseEntries c).subset hb
    obtain ⟨e, he, rfl⟩ := List.mem_map.mp ht
    rcases (keys_typeEntries c).2 e he with htype | ⟨hlocation, -⟩
    · exact typeKeyNames_disjoint hmem htype
    · rw [hlocation] at hmem
      revert hmem
      decide
  rw [keyfileEntries, List.map_append, List.map_append, List.map_flatMap]
  refine List.Nodup.append (hbase.append (keys_typeEntries c).1 hbasetype) ?_ ?_
  · rw [List.nodup_flatMap]
    refine ⟨fun f hf => (hfacet f hf).1, ?_⟩
    have hkinds : c.facets.Pairwise (fun f g => f.kind ≠ g.kind) :=
      List.pairwise_map.mp hc.nodup
    refine hkinds.imp_of_mem fun {f g} hf hg hne => ?_
    intro key hkf hkg
    obtain ⟨e, he, rfl⟩ := List.mem_map.mp hkf
    obtain ⟨e', he', hkey⟩ := List.mem_map.mp hkg
    have hown := (hfacet g hg).2 e' he'
    rw [hkey] at hown
    exact hne (((hfacet f hf).2 e he).unique hown)
  · intro key hk hm
    obtain ⟨f, hf, hm⟩ := List.mem_flatMap.mp hm
    obtain ⟨e, he, rfl⟩ := List.mem_map.mp hm
    have hown := (hfacet f hf).2 e he
    rcases List.mem_append.mp hk with hk | hk
    · exact hown.notMem.1 ((keys_baseEntries c).subset hk)
    · obtain ⟨e', he', hkey⟩ := List.mem_map.mp hk
      rcases (keys_typeEntries c).2 e' he' with htype | ⟨hlocation, hfile⟩
      · exact hown.notMem.2 (hkey ▸ htype)
      · have hmount : OwnsKey .mountable e.1 := .inl (by simp [← hkey, hlocation, facetKeyNames])
        exact hc.location hfile (hown.unique hmount ▸ List.mem_map_of_mem hf)

theorem writtenValues_eq_lookup
    (hc : WellKeyed c)
    (key : String) :
    c.writtenValues[key]? = (SortedMap.lookup key c.baseEntries).or
      ((SortedMap.lookup key c.typeEntries).or
        (SortedMap.lookup key (c.facets.flatMap (facetEntries c.isSession)))) := by
  rw [writtenValues, SortedMap.getElem?_insertAll,
    SortedMap.lookup_reverse (keyfileEntries_keys hc), keyfileEntries, SortedMap.lookup_append,
    SortedMap.lookup_append]
  simp [Option.or_assoc]

/-- What is written is one of the entries, and every entry is written. -/
theorem writtenValues_eq_some_iff
    (hc : WellKeyed c)
    (value : String) :
    c.writtenValues[key]? = some value ↔ (key, value) ∈ c.keyfileEntries := by
  rw [writtenValues, SortedMap.getElem?_insertAll,
    SortedMap.lookup_reverse (keyfileEntries_keys hc)]
  simp [SortedMap.lookup_eq_some_iff (keyfileEntries_keys hc)]

theorem lookup_baseEntries_none
    (h : key ∉ baseKeyNames) :
    SortedMap.lookup key c.baseEntries = none :=
  SortedMap.lookup_eq_none_iff.mpr fun hm => h ((keys_baseEntries c).subset hm)

theorem lookup_typeEntries_none
    (htype : key ∉ typeKeyNames)
    (hlocation : key = "location" → ∀ f, c.kind ≠ .file f) :
    SortedMap.lookup key c.typeEntries = none := by
  rw [SortedMap.lookup_eq_none_iff]
  intro hm
  obtain ⟨e, he, rfl⟩ := List.mem_map.mp hm
  rcases (keys_typeEntries c).2 e he with h | ⟨h, f, hf⟩
  · exact htype h
  · exact hlocation h f hf

theorem lookup_facetEntries_none
    (hc : WellKeyed c)
    (h : ∀ kind ∈ c.facetKinds, ¬ OwnsKey kind key) :
    SortedMap.lookup key (c.facets.flatMap (facetEntries c.isSession)) = none := by
  rw [SortedMap.lookup_eq_none_iff, List.map_flatMap]
  intro hm
  obtain ⟨f, hf, hm⟩ := List.mem_flatMap.mp hm
  obtain ⟨e, he, rfl⟩ := List.mem_map.mp hm
  exact h f.kind (List.mem_map_of_mem hf)
    ((facetEntries_keys fun u hu => hc.dotted u (hu ▸ hf)).2 e he)

/-- **What is written under a key of the base class.** -/
theorem writtenValues_base
    (hc : WellKeyed c)
    (hkey : key ∈ baseKeyNames) :
    c.writtenValues[key]? = SortedMap.lookup key c.baseEntries := by
  have hlocation : key = "location" → ∀ f, c.kind ≠ .file f := by
    rintro rfl
    exact absurd hkey (by decide)
  rw [writtenValues_eq_lookup hc, lookup_typeEntries_none (typeKeyNames_disjoint hkey) hlocation,
    lookup_facetEntries_none hc fun _ _ hown => hown.notMem.1 hkey]
  simp

/-- **What is written under a key of the type.** -/
theorem writtenValues_type
    (hc : WellKeyed c)
    (hkey : key ∈ typeKeyNames ∨ (key = "location" ∧ ∃ f, c.kind = .file f)) :
    c.writtenValues[key]? = SortedMap.lookup key c.typeEntries := by
  have hbase : key ∉ baseKeyNames := by
    rcases hkey with hkey | ⟨rfl, -⟩
    · exact fun hm => typeKeyNames_disjoint hm hkey
    · decide
  have hfacets : ∀ kind ∈ c.facetKinds, ¬ OwnsKey kind key := by
    intro kind hkind hown
    rcases hkey with hkey | ⟨rfl, hfile⟩
    · exact hown.notMem.2 hkey
    · have hmount : OwnsKey .mountable "location" := .inl (by simp [facetKeyNames])
      exact hc.location hfile (hown.unique hmount ▸ hkind)
  rw [writtenValues_eq_lookup hc, lookup_baseEntries_none hbase,
    lookup_facetEntries_none hc hfacets]
  simp

/-- **What is written under a key of a facet.** -/
theorem writtenValues_facet
    {kind : FacetKind}
    (hc : WellKeyed c)
    (hkey : OwnsKey kind key)
    (hlocation : key = "location" → ∀ f, c.kind ≠ .file f) :
    c.writtenValues[key]? =
      (c.getFacet kind).bind fun f => SortedMap.lookup key (facetEntries c.isSession f) := by
  rw [writtenValues_eq_lookup hc, lookup_baseEntries_none hkey.notMem.1,
    lookup_typeEntries_none hkey.notMem.2 hlocation, lookup_facets hc.nodup hc.dotted hkey]
  simp [getFacet]

/-- **Nothing else is written.** -/
theorem writtenValues_none
    (hc : WellKeyed c)
    (hplain : key ∉ plainKeyNames)
    (hdotted : ¬ IsDotted key) :
    c.writtenValues[key]? = none := by
  have hbase : key ∉ baseKeyNames := fun hm => hplain (by simp [plainKeyNames, hm])
  have htype : key ∉ typeKeyNames := fun hm => hplain (by simp [plainKeyNames, hm])
  have hlocation : key = "location" → ∀ f, c.kind ≠ .file f := by
    rintro rfl
    exact absurd (by decide) hplain
  have hfacets : ∀ kind ∈ c.facetKinds, ¬ OwnsKey kind key := by
    rintro kind - (hown | ⟨-, hown⟩)
    · exact hplain (facetKeyNames_subset kind hown)
    · exact hdotted hown
  rw [writtenValues_eq_lookup hc, lookup_baseEntries_none hbase,
    lookup_typeEntries_none htype hlocation, lookup_facetEntries_none hc hfacets]
  rfl

/-- The values of the written keyfile. -/
theorem value?_getKeyfile (c : Chroot) (key : String) :
    (c.getKeyfile .empty).value? c.name key = c.writtenValues[key]? := by
  rw [getKeyfile_empty, Keyfile.value?_single, if_pos rfl]

end Values

end Chroot

end Schroot
