import Schroot.Library.PathTree
import Schroot.Errors

/-!
# Resolving mount points

How `schroot-mount` resolves a mount point inside the chroot, and where the resolved path leads
outside of it.

**Input.**  The directory tree inside the chroot, what `realpath` makes of paths there, and the
mount point.

**Algorithm.**  A path that `realpath` does not resolve is refused if it is a symbolic link;
otherwise its last component is taken off and put back behind the resolved rest.

**Results.**
* `resolved_of_ok`: what the resolved path is made of.
* `resolvePathChrooted_safe_iff`: which mount points are resolved safely.
* `walk_of_safe`: a path that was resolved safely leads below the base path.
-/

namespace Schroot

namespace Mount

open PathTree

section Model

/-- The name of a file in a directory. -/
structure IsFileName (name : String) : Prop where
  component : IsComponent name
  ne_self : name ≠ "."
  ne_parent : name ≠ ".."

/-- The step that a component of a path is. -/
def stepOf (name : String) : Step String :=
  if name = "." then .stay else if name = ".." then .up else .down name

/-- The steps of a path; a slash at its end stands in front of a `.`. -/
def steps (path : String) : List (Step String) :=
  (splitString path "/").map stepOf ++ if path.toList.getLast? = some '/' then [.stay] else []

/-- The path of a location. -/
def pathOf (loc : List String) : String :=
  "/" ++ stringListToString loc.reverse "/"

/-- What the chroot looks like from inside: its tree, the number of links that are followed in
one path, and `realpath`, which fails or returns the path of the location that it is asked for. -/
structure FileSystem where
  tree : DirTree String
  limit : Nat
  realpath : String → Option String
  names : ∀ name loc, tree.kind (name :: loc) ≠ none → IsFileName name
  realpath_spec : ∀ path real, realpath path = some real →
    ∃ loc, tree.walk true limit [] (steps path) = some loc ∧ real = pathOf loc

/-- `stat(path, true).is_link()`, where it does not throw. -/
def FileSystem.isLink (fs : FileSystem) (path : String) : Bool :=
  match fs.tree.walk false fs.limit [] (steps path) with
  | some loc => fs.tree.isLinkAt loc
  | none => false

/-- The error `REALPATH` of `schroot-mount`. -/
structure Fault where
  path : String
  reason : String
deriving DecidableEq, Repr

/-- A mount point with a slash in front. -/
def absolute (mountpoint : String) : String :=
  if isAbsname mountpoint then mountpoint else "/" ++ mountpoint

theorem splitString_absolute (mountpoint : String) :
    splitString (absolute mountpoint) "/" = splitString mountpoint "/" := by
  unfold absolute
  split
  · rfl
  · exact splitString_slash mountpoint

/-- `resolve_path_chrooted`. -/
def resolvePathChrooted (fs : FileSystem) (mountpoint : String) : Except Fault String :=
  let directory := absolute mountpoint
  match fs.realpath directory with
  | some resolved => .ok resolved
  | none =>
      if fs.isLink directory then
        .error ⟨directory, "ENOTDIR"⟩
      else
        let dirs := splitString directory "/"
        if _h : 1 < dirs.length then do
          let newpath ← resolvePathChrooted fs (stringListToString dirs.dropLast "/")
          pure (newpath ++ "/" ++ dirs.getLast?.getD "")
        else
          .ok directory
termination_by (splitString mountpoint "/").length
decreasing_by
  have hsplit : splitString (stringListToString dirs.dropLast "/") "/" = dirs.dropLast :=
    splitString_stringListToString fun name hname =>
      isComponent_of_mem_splitString ((List.dropLast_sublist _).mem hname)
  have hdirs : dirs = splitString mountpoint "/" := splitString_absolute mountpoint
  show (splitString (stringListToString dirs.dropLast "/") "/").length < _
  rw [hsplit, ← hdirs, List.length_dropLast]
  omega

/-- What `resolve_path` returns when the chroot is at the base path. -/
def resolvePath (basepath : String) (fs : FileSystem) (mountpoint : String) :
    Except Fault String :=
  (resolvePathChrooted fs mountpoint).map (basepath ++ ·)

end Model

section Paths

variable {path name : String} {loc : List String}

theorem isAbsname_pathOf (loc : List String) : isAbsname (pathOf loc) = true := by
  simp [isAbsname, pathOf, String.toList_append]

theorem splitString_pathOf
    (h : ∀ name ∈ loc, IsComponent name) :
    splitString (pathOf loc) "/" = loc.reverse := by
  rw [pathOf, splitString_slash]
  exact splitString_stringListToString fun name hname => h name (List.mem_reverse.mp hname)

theorem toList_stringListToString_ne_nil
    {names : List String}
    (h : ∀ name ∈ names, IsComponent name)
    (hne : names ≠ []) :
    (stringListToString names "/").toList ≠ [] := by
  intro hnil
  have hempty : stringListToString names "/" = "" := by simpa using hnil
  have hsplit := splitString_stringListToString h
  rw [hempty] at hsplit
  exact hne (by rw [← hsplit]; rfl)

theorem getLast?_joined
    {names : List String}
    (h : ∀ name ∈ names, IsComponent name)
    (hne : names ≠ []) :
    (stringListToString names "/").toList.getLast? ≠ some '/' := by
  induction names with
  | nil => exact absurd rfl hne
  | cons name names ih =>
      cases names with
      | nil =>
          intro hlast
          exact (h name List.mem_cons_self).2 (List.mem_of_getLast? hlast)
      | cons next names =>
          have hrest := ih (fun n hn => h n (List.mem_cons_of_mem _ hn)) (by simp)
          have hnil := toList_stringListToString_ne_nil
            (fun n hn => h n (List.mem_cons_of_mem _ hn)) (List.cons_ne_nil next names)
          rw [stringListToString, String.toList_append, List.getLast?_append_of_ne_nil _ hnil]
          exact hrest

/-- The steps of a path that was put together. -/
theorem steps_pathOf
    (h : ∀ name ∈ loc, IsComponent name)
    (hne : loc ≠ []) :
    steps (pathOf loc) = loc.reverse.map stepOf := by
  have hlast : (pathOf loc).toList.getLast? ≠ some '/' := by
    have hnames : ∀ name ∈ loc.reverse, IsComponent name := fun name hname =>
      h name (List.mem_reverse.mp hname)
    have hnil := toList_stringListToString_ne_nil hnames (by simpa using hne)
    rw [pathOf, String.toList_append, List.getLast?_append_of_ne_nil _ hnil]
    exact getLast?_joined hnames (by simpa using hne)
  rw [steps, splitString_pathOf h, if_neg hlast, List.append_nil]

theorem stepOf_of_isFileName
    (h : IsFileName name) :
    stepOf name = .down name := by
  rw [stepOf, if_neg h.ne_self, if_neg h.ne_parent]

theorem stepOf_eq_up_iff : stepOf name = .up ↔ name = ".." := by
  unfold stepOf
  split
  · rename_i h
    rw [h]
    exact iff_of_false (by simp) (by decide)
  · split <;> simp [*]

theorem noUp_map_stepOf_iff (names : List String) :
    DirTree.NoUp (names.map stepOf) ↔ ".." ∉ names := by
  unfold DirTree.NoUp
  rw [not_iff_not, List.mem_map]
  simp only [stepOf_eq_up_iff, exists_eq_right]

end Paths

section Links

variable {fs : FileSystem} {loc : List String}

theorem names_of_location
    (h : fs.tree.kind loc ≠ none) :
    ∀ name ∈ loc, IsFileName name := by
  induction loc with
  | nil => simp
  | cons name loc ih =>
      intro name' hname'
      rcases List.mem_cons.mp hname' with rfl | hname'
      · exact fs.names name' loc h
      · exact ih (by simp [fs.tree.parent name loc h]) name' hname'

theorem isLink_iff
    {path : String} :
    fs.isLink path = true ↔ ∃ loc, fs.tree.walk false fs.limit [] (steps path) = some loc ∧
      fs.tree.isLinkAt loc = true := by
  unfold FileSystem.isLink
  split <;> simp [*]

theorem isLink_root : fs.isLink (pathOf []) = false := by
  have hdir : fs.tree.isDirAt [] = true := DirTree.isDirAt_iff.mpr fs.tree.root
  have hsteps : steps (pathOf []) = [.stay] := rfl
  unfold FileSystem.isLink
  rw [hsteps, DirTree.walk_stay hdir, DirTree.walk_nil]
  exact DirTree.not_isLinkAt_of_isDirAt hdir

/-- A link below a location, by the path of the location. -/
theorem isLink_pathOf_append
    (names : List String)
    (hsome : fs.tree.kind loc ≠ none)
    (hlink : fs.tree.isLinkAt loc = false)
    (hnames : ∀ name ∈ names, IsComponent name) :
    fs.isLink (pathOf (names.reverse ++ loc)) = true ↔
      ∃ loc', fs.tree.walk false fs.limit loc (names.map stepOf) = some loc' ∧
        fs.tree.isLinkAt loc' = true := by
  by_cases hnil : names.reverse ++ loc = []
  · obtain ⟨hn, rfl⟩ := List.append_eq_nil_iff.mp hnil
    rw [List.reverse_eq_nil_iff.mp hn]
    simp [isLink_root, hlink]
  · have hloc := names_of_location hsome
    have hall : ∀ name ∈ names.reverse ++ loc, IsComponent name := by
      intro name hname
      rcases List.mem_append.mp hname with hname | hname
      · exact hnames name (List.mem_reverse.mp hname)
      · exact (hloc name hname).component
    have hdown : loc.reverse.map stepOf = (loc.map Step.down).reverse := by
      rw [← List.map_reverse]
      exact List.map_congr_left fun name hname =>
        stepOf_of_isFileName (hloc name (List.mem_reverse.mp hname))
    rw [isLink_iff, steps_pathOf hall hnil, List.reverse_append, List.reverse_reverse,
      List.map_append, hdown, DirTree.walk_location hsome hlink]

/-- What is not a link has no link in its path. -/
theorem not_isLink_of_append
    {inner outer : List String}
    (hsome : fs.tree.kind (inner ++ outer) ≠ none)
    (hlink : fs.tree.isLinkAt (inner ++ outer) = false) :
    fs.isLink (pathOf outer) = false := by
  obtain ⟨hsome', hlink'⟩ := DirTree.not_isLinkAt_of_append hsome hlink
  by_contra htrue
  rw [Bool.not_eq_false] at htrue
  obtain ⟨loc, hwalk, hat⟩ :=
    (isLink_pathOf_append [] hsome' hlink' (by simp)).mp htrue
  rw [List.map_nil, DirTree.walk_nil] at hwalk
  cases hwalk
  rw [hlink'] at hat
  cases hat

end Links

section Resolving

/-- The path is absolute and has neither a `..` nor a beginning that is a link. -/
structure FileSystem.Safe (fs : FileSystem) (path : String) : Prop where
  absolute : isAbsname path = true
  parent : ".." ∉ splitString path "/"
  link : ∀ before, before <+: splitString path "/" → fs.isLink (pathOf before.reverse) = false

/-- The components that are taken off until `realpath` resolves the rest, the innermost one
first. -/
def FileSystem.unresolved (fs : FileSystem) : List String → List String
  | [] => []
  | name :: outer =>
      if (fs.realpath (pathOf (name :: outer))).isSome then [] else name :: fs.unresolved outer

/-- The components that are taken off a mount point that `realpath` does not resolve. -/
def FileSystem.missing (fs : FileSystem) (mountpoint : String) : List String :=
  match (splitString mountpoint "/").reverse with
  | [] => []
  | name :: outer => name :: fs.unresolved outer

/-- The path is that of a location with components behind it, each of which was found not to be
a link, apart from the last one. -/
structure Resolved (fs : FileSystem) (before rest : List String) (loc : List String)
    (path : String) : Prop where
  leads : fs.tree.walk true fs.limit [] (before.map stepOf) = some loc
  names : ∀ name ∈ before ++ rest, IsComponent name
  components : splitString path "/" = loc.reverse ++ rest
  absolute : isAbsname path = true
  tested : ∀ mid, mid <+: rest → mid ≠ [] → mid ≠ rest →
    fs.isLink (pathOf (before ++ mid).reverse) = false

variable {fs : FileSystem} {path : String}

theorem walk_root
    {before loc : List String}
    (h : fs.tree.walk true fs.limit [] (before.map stepOf) = some loc) :
    fs.tree.kind loc ≠ none ∧ fs.tree.isLinkAt loc = false := by
  refine DirTree.walk_true_exists (by simp [fs.tree.root]) ?_ h
  exact DirTree.not_isLinkAt_of_isDirAt (DirTree.isDirAt_iff.mpr fs.tree.root)

theorem absolute_joined
    {names : List String}
    (h : ∀ name ∈ names, IsComponent name) :
    absolute (stringListToString names "/") = pathOf names.reverse := by
  have hhead : isAbsname (stringListToString names "/") = false := by
    cases names with
    | nil => rfl
    | cons name names =>
        obtain ⟨hne, hslash⟩ := h name List.mem_cons_self
        obtain ⟨c, cs, hcs⟩ := List.exists_cons_of_ne_nil hne
        have hc : c ≠ '/' := fun e => hslash (by rw [hcs, e]; exact List.mem_cons_self)
        cases names <;> simp [isAbsname, stringListToString, String.toList_append, hcs, hc]
  rw [absolute, hhead]
  simp [pathOf]

/-- A single component. -/
theorem resolved_single
    {name : String}
    (hname : IsComponent name)
    (hpath : splitString path "/" = [name])
    (habs : isAbsname path = true) :
    Resolved fs [] [name] [] path := by
  refine ⟨by simp, by simpa using hname, hpath, habs, fun mid hmid hne hrest => ?_⟩
  rcases List.prefix_cons_iff.mp hmid with rfl | ⟨t, rfl, ht⟩
  · exact absurd rfl hne
  · rw [List.prefix_nil.mp ht] at hrest
    exact absurd rfl hrest

/-- One more component behind what was resolved. -/
theorem Resolved.concat
    {before rest loc : List String} {name : String}
    (h : Resolved fs before rest loc path)
    (hname : IsComponent name)
    (htested : rest ≠ [] → fs.isLink (pathOf (before ++ rest).reverse) = false) :
    Resolved fs before (rest ++ [name]) loc (path ++ "/" ++ name) := by
  refine ⟨h.leads, fun n hn => ?_, ?_, ?_, fun mid hmid hne hrest => ?_⟩
  · rw [← List.append_assoc, List.mem_append, List.mem_singleton] at hn
    rcases hn with hn | rfl
    · exact h.names n hn
    · exact hname
  · rw [splitString_append, h.components, splitString_of_isComponent hname, List.append_assoc]
  · exact isAbsname_append (isAbsname_append h.absolute)
  · rcases List.prefix_concat_iff.mp hmid with rfl | hmid
    · exact absurd rfl hrest
    · by_cases hall : mid = rest
      · rw [hall] at hne ⊢
        exact htested hne
      · exact h.tested mid hmid hne hall

/-- One call, when `realpath` does not resolve the path. -/
theorem resolvePathChrooted_of_none
    {mountpoint : String}
    (hreal : fs.realpath (absolute mountpoint) = none) :
    resolvePathChrooted fs mountpoint =
      if fs.isLink (absolute mountpoint) then
        .error ⟨absolute mountpoint, "ENOTDIR"⟩
      else if 1 < (splitString mountpoint "/").length then
        (resolvePathChrooted fs
          (stringListToString (splitString mountpoint "/").dropLast "/")).map
            (· ++ "/" ++ (splitString mountpoint "/").getLast?.getD "")
      else
        .ok (absolute mountpoint) := by
  rw [resolvePathChrooted]
  simp only [hreal, splitString_absolute]
  split
  · rfl
  · split
    · cases resolvePathChrooted fs
        (stringListToString (splitString mountpoint "/").dropLast "/") <;> rfl
    · rfl

theorem resolvePathChrooted_of_some
    {mountpoint real : String}
    (hreal : fs.realpath (absolute mountpoint) = some real) :
    resolvePathChrooted fs mountpoint = .ok real := by
  rw [resolvePathChrooted, hreal]

/-- **What a path of components is resolved to**, by induction on the components. -/
theorem resolved_of_components
    (names : List String)
    (hnames : ∀ name ∈ names, IsComponent name)
    (hne : names ≠ [])
    (h : resolvePathChrooted fs (stringListToString names.reverse "/") = .ok path) :
    ∃ before loc, names.reverse = before ++ (fs.unresolved names).reverse ∧
      Resolved fs before (fs.unresolved names).reverse loc path ∧
        (fs.unresolved names ≠ [] → fs.isLink (pathOf names) = false) := by
  induction names generalizing path with
  | nil => exact absurd rfl hne
  | cons name outer ih =>
      have hreverse : ∀ n ∈ (name :: outer).reverse, IsComponent n := fun n hn =>
        hnames n (List.mem_reverse.mp hn)
      have hdirs : splitString (stringListToString (name :: outer).reverse "/") "/" =
          outer.reverse ++ [name] := by
        rw [splitString_stringListToString hreverse, List.reverse_cons]
      have habsolute : absolute (stringListToString (name :: outer).reverse "/") =
          pathOf (name :: outer) := by
        rw [absolute_joined hreverse, List.reverse_reverse]
      cases hreal : fs.realpath (pathOf (name :: outer)) with
      | some real =>
          rw [resolvePathChrooted_of_some (habsolute ▸ hreal)] at h
          cases h
          obtain ⟨loc, hwalk, rfl⟩ := fs.realpath_spec _ _ hreal
          have hunresolved : fs.unresolved (name :: outer) = [] := by
            simp [FileSystem.unresolved, hreal]
          rw [steps_pathOf hnames hne] at hwalk
          have hloc := names_of_location (walk_root hwalk).1
          rw [hunresolved]
          refine ⟨(name :: outer).reverse, loc, by simp, ⟨hwalk, by simpa using hreverse, ?_,
            isAbsname_pathOf loc, ?_⟩, by simp⟩
          · rw [splitString_pathOf fun n hn => (hloc n hn).component]
            simp
          · intro mid hmid hnil
            exact absurd (List.prefix_nil.mp hmid) hnil
      | none =>
          have hunresolved : fs.unresolved (name :: outer) = name :: fs.unresolved outer := by
            simp [FileSystem.unresolved, hreal]
          rw [resolvePathChrooted_of_none (habsolute ▸ hreal), habsolute, hdirs] at h
          by_cases hlink : fs.isLink (pathOf (name :: outer)) = true
          · simp [hlink] at h
          · have hlink' : fs.isLink (pathOf (name :: outer)) = false := by simpa using hlink
            rw [if_neg hlink, List.dropLast_concat, List.getLast?_concat] at h
            by_cases houter : outer = []
            · subst houter
              cases h
              have hsingle : fs.unresolved [name] = [name] := hunresolved
              refine ⟨[], [], by simp [hsingle], ?_, fun _ => hlink'⟩
              rw [hsingle]
              exact resolved_single (hnames name List.mem_cons_self) (splitString_pathOf hnames)
                (isAbsname_pathOf _)
            · have hlength : 1 < (outer.reverse ++ [name]).length := by
                have hpos := List.length_pos_iff.mpr houter
                simp
                omega
              rw [if_pos hlength] at h
              cases hcall : resolvePathChrooted fs (stringListToString outer.reverse "/") with
              | error e => rw [hcall] at h; cases h
              | ok newpath =>
                  rw [hcall] at h
                  cases h
                  obtain ⟨before, loc, hsplit, hresolved, htested⟩ :=
                    ih (fun n hn => hnames n (List.mem_cons_of_mem _ hn)) houter hcall
                  have hname := hnames name List.mem_cons_self
                  refine ⟨before, loc, ?_, ?_, fun _ => hlink'⟩
                  · rw [List.reverse_cons, hsplit, hunresolved, List.reverse_cons,
                      List.append_assoc]
                  · rw [hunresolved, List.reverse_cons]
                    refine hresolved.concat hname fun hrest => ?_
                    rw [← hsplit, List.reverse_reverse]
                    exact htested (by simpa using hrest)

end Resolving

section Safety

variable {fs : FileSystem} {mountpoint path : String}

/-- What `realpath` returns is safe. -/
theorem safe_of_realpath
    (h : fs.realpath mountpoint = some path) :
    fs.Safe path := by
  obtain ⟨loc, hwalk, rfl⟩ := fs.realpath_spec _ _ h
  obtain ⟨hsome, hlink⟩ := DirTree.walk_true_exists (by simp [fs.tree.root])
    (DirTree.not_isLinkAt_of_isDirAt (DirTree.isDirAt_iff.mpr fs.tree.root)) hwalk
  have hnames := names_of_location hsome
  have hcomponents := splitString_pathOf fun name hname => (hnames name hname).component
  refine ⟨isAbsname_pathOf loc, fun hparent => ?_, fun before hbefore => ?_⟩
  · rw [hcomponents, List.mem_reverse] at hparent
    exact (hnames _ hparent).ne_parent rfl
  · rw [hcomponents] at hbefore
    obtain ⟨inner, hinner⟩ := hbefore
    have hloc : loc = inner.reverse ++ before.reverse := by
      rw [← List.reverse_append, hinner, List.reverse_reverse]
    rw [hloc] at hsome hlink
    exact not_isLink_of_append hsome hlink

/-- The names lead from a location to a symbolic link. -/
def FileSystem.LinkAt (fs : FileSystem) (links : Nat) (loc mid : List String) : Prop :=
  ∃ loc', fs.tree.walk false links loc (mid.map stepOf) = some loc' ∧
    fs.tree.isLinkAt loc' = true

theorem ne_nil_of_linkAt
    {links : Nat} {loc mid : List String}
    (hlink : fs.tree.isLinkAt loc = false)
    (h : fs.LinkAt links loc mid) :
    mid ≠ [] := by
  rintro rfl
  obtain ⟨loc', hwalk, hat⟩ := h
  rw [List.map_nil, DirTree.walk_nil] at hwalk
  cases hwalk
  rw [hlink] at hat
  cases hat

/-- Without a name that leads up, it does not matter how many links may be followed. -/
theorem exists_linkAt_iff
    {loc rest : List String}
    (links : Nat)
    (hlink : fs.tree.isLinkAt loc = false)
    (hparent : ".." ∉ rest) :
    (∃ mid, mid <+: rest ∧ fs.LinkAt links loc mid) ↔ fs.tree.HasLink loc (rest.map stepOf) := by
  rw [← DirTree.exists_prefix_isLinkAt_iff (n := links) ((noUp_map_stepOf_iff rest).mpr hparent)
    hlink]
  constructor
  · rintro ⟨mid, hmid, hat⟩
    exact ⟨_, hmid.map stepOf, hat⟩
  · rintro ⟨s, hs, hat⟩
    obtain ⟨mid, hmid, rfl⟩ := List.prefix_map_iff.mp hs
    exact ⟨mid, hmid, hat⟩

/-- Where a beginning of the mount point is a link. -/
theorem Resolved.isLink_mountPoint
    {before rest loc : List String}
    (h : Resolved fs before rest loc path) :
    ∃ n, ∀ mid, mid <+: rest → mid ≠ [] →
      (fs.isLink (pathOf (before ++ mid).reverse) = true ↔ fs.LinkAt n loc mid) := by
  obtain ⟨n, hwalk⟩ := DirTree.walk_append h.leads
  refine ⟨n, fun mid hmid hnil => ?_⟩
  have hall : ∀ name ∈ (before ++ mid).reverse, IsComponent name := by
    intro name hname
    rw [List.mem_reverse, List.mem_append] at hname
    refine h.names name (List.mem_append.mpr ?_)
    exact hname.imp id fun hm => hmid.subset hm
  rw [isLink_iff, steps_pathOf hall (by simp [hnil]), List.reverse_reverse, List.map_append,
    hwalk false (mid.map stepOf) (by simpa using hnil)]
  rfl

/-- Where a beginning of the path is a link. -/
theorem Resolved.isLink_path
    {before rest loc mid : List String}
    (h : Resolved fs before rest loc path)
    (hmid : mid <+: rest) :
    fs.isLink (pathOf (loc.reverse ++ mid).reverse) = true ↔ fs.LinkAt fs.limit loc mid := by
  obtain ⟨hsome, hlink⟩ := walk_root h.leads
  rw [List.reverse_append, List.reverse_reverse]
  exact isLink_pathOf_append mid hsome hlink fun name hname =>
    h.names name (List.mem_append_right _ (hmid.subset hname))

/-- **A path of a location with components behind it is safe** if and only if none of these is
a `..` and the last one is not a link either. -/
theorem safe_iff_of_resolved
    {before rest loc : List String}
    (h : Resolved fs before rest loc path)
    (hrest : rest = [] → before = []) :
    fs.Safe path ↔ ".." ∉ rest ∧ fs.isLink (pathOf (before ++ rest).reverse) = false := by
  obtain ⟨hsome, hlink⟩ := walk_root h.leads
  have hnames := names_of_location hsome
  -- a beginning of the mount point and the one of the path are links together
  obtain ⟨n, hbefore⟩ := h.isLink_mountPoint
  constructor
  · intro hsafe
    have hparent : ".." ∉ rest := fun hm =>
      hsafe.parent (by rw [h.components]; exact List.mem_append_right _ hm)
    refine ⟨hparent, ?_⟩
    by_contra htrue
    rw [Bool.not_eq_false] at htrue
    by_cases hnil : rest = []
    · rw [hnil, hrest hnil, List.append_nil, List.reverse_nil, isLink_root] at htrue
      cases htrue
    · have hat := (hbefore rest List.prefix_rfl hnil).mp htrue
      have hhas := (exists_linkAt_iff n hlink hparent).mp ⟨rest, List.prefix_rfl, hat⟩
      obtain ⟨mid, hmid, hat'⟩ := (exists_linkAt_iff fs.limit hlink hparent).mpr hhas
      have hfalse := hsafe.link (loc.reverse ++ mid)
        (by rw [h.components]; exact (List.prefix_append_right_inj _).mpr hmid)
      rw [(h.isLink_path hmid).mpr hat'] at hfalse
      cases hfalse
  · rintro ⟨hparent, hlast⟩
    have hno : ¬ fs.tree.HasLink loc (rest.map stepOf) := by
      intro hhas
      obtain ⟨mid, hmid, hat⟩ := (exists_linkAt_iff n hlink hparent).mpr hhas
      have hnil := ne_nil_of_linkAt hlink hat
      have htrue := (hbefore mid hmid hnil).mpr hat
      by_cases hall : mid = rest
      · rw [hall, hlast] at htrue
        cases htrue
      · rw [h.tested mid hmid hnil hall] at htrue
        cases htrue
    refine ⟨h.absolute, fun hm => ?_, fun start hstart => ?_⟩
    · rw [h.components] at hm
      rcases List.mem_append.mp hm with hm | hm
      · exact (hnames _ (List.mem_reverse.mp hm)).ne_parent rfl
      · exact hparent hm
    · rw [h.components] at hstart
      rcases List.prefix_or_prefix_of_prefix hstart (List.prefix_append loc.reverse rest) with
        ⟨inner, hinner⟩ | ⟨mid, rfl⟩
      · have hloc : loc = inner.reverse ++ start.reverse := by
          rw [← List.reverse_append, hinner, List.reverse_reverse]
        rw [hloc] at hsome hlink
        exact not_isLink_of_append hsome hlink
      · have hmid := (List.prefix_append_right_inj _).mp hstart
        by_contra htrue
        rw [Bool.not_eq_false] at htrue
        exact hno ((exists_linkAt_iff fs.limit hlink hparent).mp
          ⟨mid, hmid, (h.isLink_path hmid).mp htrue⟩)

/-- **What a mount point is resolved to** when `realpath` does not resolve it. -/
theorem resolved_of_ok
    (h : resolvePathChrooted fs mountpoint = .ok path)
    (hreal : fs.realpath (absolute mountpoint) = none) :
    ∃ before loc, splitString mountpoint "/" = before ++ (fs.missing mountpoint).reverse ∧
      Resolved fs before (fs.missing mountpoint).reverse loc path ∧
        (fs.missing mountpoint = [] → before = []) := by
  have hcomponents : ∀ name ∈ splitString mountpoint "/", IsComponent name := fun _ =>
    isComponent_of_mem_splitString
  have habs : isAbsname (absolute mountpoint) = true := by
    unfold absolute
    split
    · assumption
    · simp [isAbsname, String.toList_append]
  rw [resolvePathChrooted_of_none hreal] at h
  by_cases hlink : fs.isLink (absolute mountpoint) = true
  · simp [hlink] at h
  · rw [if_neg hlink] at h
    unfold FileSystem.missing
    rcases List.eq_nil_or_concat (splitString mountpoint "/") with hnil | ⟨outer, name, hconcat⟩
    · rw [hnil] at h ⊢
      cases h
      refine ⟨[], [], rfl, ⟨by simp, by simp, ?_, habs, ?_⟩, fun _ => rfl⟩
      · rw [splitString_absolute, hnil]
        rfl
      · intro mid hmid hne
        exact absurd (List.prefix_nil.mp hmid) hne
    · rw [hconcat] at h hcomponents ⊢
      simp only [List.concat_eq_append, List.reverse_append, List.reverse_singleton,
        List.singleton_append] at h hcomponents ⊢
      have hname := hcomponents name (by simp)
      by_cases houter : outer = []
      · subst houter
        cases h
        refine ⟨[], [], by simp [FileSystem.unresolved], ?_, by simp⟩
        refine resolved_single hname ?_ habs
        rw [splitString_absolute, hconcat]
        rfl
      · have hlength : 1 < (outer ++ [name]).length := by
          have hpos := List.length_pos_iff.mpr houter
          simp
          omega
        rw [if_pos hlength, List.dropLast_concat, List.getLast?_concat] at h
        cases hcall : resolvePathChrooted fs (stringListToString outer "/") with
        | error e => rw [hcall] at h; cases h
        | ok newpath =>
            rw [hcall] at h
            cases h
            obtain ⟨before, loc, hsplit, hresolved, htested⟩ :=
              resolved_of_components outer.reverse
                (fun n hn => hcomponents n (by simpa using Or.inl (List.mem_reverse.mp hn)))
                (by simpa using houter) (by rw [List.reverse_reverse]; exact hcall)
            rw [List.reverse_reverse] at hsplit
            refine ⟨before, loc, ?_, ?_, by simp⟩
            · rw [List.reverse_cons, ← List.append_assoc, ← hsplit]
            · rw [List.reverse_cons]
              refine hresolved.concat hname fun hrest => ?_
              rw [← hsplit]
              exact htested (by simpa using hrest)

/-- The tree of the host has that of the chroot below a location. -/
structure Contains (host : DirTree String) (base : List String) (fs : FileSystem) : Prop where
  names : ∀ name ∈ base, IsFileName name
  subtree : ∀ inner, host.kind (inner ++ base) = fs.tree.kind inner

theorem steps_pathOf_append
    {base : List String}
    (hnames : ∀ name ∈ base, IsFileName name)
    (habs : isAbsname path = true) :
    steps (pathOf base ++ path) = (base.map Step.down).reverse ++ steps path := by
  obtain ⟨cs, hcs⟩ : ∃ cs, path.toList = '/' :: cs := by
    cases hp : path.toList with
    | nil => simp [isAbsname, hp] at habs
    | cons c cs =>
        have hc : c = '/' := by simpa [isAbsname, hp] using habs
        exact ⟨cs, by rw [hc]⟩
  have hpath : path = "/" ++ String.ofList cs :=
    String.toList_injective (by simp [hcs, String.toList_append])
  have hsplit : splitString (pathOf base ++ path) "/" = base.reverse ++ splitString path "/" := by
    rw [hpath, ← String.append_assoc, splitString_append, splitString_slash,
      splitString_pathOf fun name hname => (hnames name hname).component]
  have hlast : (pathOf base ++ path).toList.getLast? = path.toList.getLast? := by
    rw [String.toList_append, List.getLast?_append_of_ne_nil _ (by simp [hcs])]
  have hdown : base.reverse.map stepOf = (base.map Step.down).reverse := by
    rw [← List.map_reverse]
    exact List.map_congr_left fun name hname =>
      stepOf_of_isFileName (hnames name (List.mem_reverse.mp hname))
  rw [steps, hsplit, hlast, List.map_append, hdown, List.append_assoc]
  rfl

/-- **A safe path leads below the base path** in every host that has the chroot there. -/
theorem walk_of_safe
    {host : DirTree String} {base loc : List String} {follow : Bool} {links : Nat}
    (hsafe : fs.Safe path)
    (hhost : Contains host base fs)
    (h : host.walk follow links [] (steps (pathOf base ++ path)) = some loc) :
    ∃ inner, loc = inner ++ base := by
  have hbase : host.kind base = some .dir := (hhost.subtree []).trans fs.tree.root
  have hdir := DirTree.isDirAt_iff.mpr hbase
  have hroot := DirTree.not_isLinkAt_of_isDirAt (DirTree.isDirAt_iff.mpr fs.tree.root)
  rw [steps_pathOf_append hhost.names hsafe.absolute,
    DirTree.walk_location (by simp [hbase]) (DirTree.not_isLinkAt_of_isDirAt hdir)] at h
  have hup : DirTree.NoUp ((splitString path "/").map stepOf) :=
    (noUp_map_stepOf_iff _).mpr hsafe.parent
  have hup' : DirTree.NoUp (steps path) := by
    intro hm
    rcases List.mem_append.mp hm with hm | hm
    · exact hup hm
    · split at hm <;> simp at hm
  have hno : ¬ fs.tree.HasLink [] ((splitString path "/").map stepOf) := by
    intro hhas
    obtain ⟨s, hs, hat⟩ := (DirTree.exists_prefix_isLinkAt_iff (n := fs.limit) hup hroot).mpr hhas
    obtain ⟨mid, hmid, rfl⟩ := List.prefix_map_iff.mp hs
    have hnames : ∀ name ∈ mid, IsComponent name := fun name hname =>
      isComponent_of_mem_splitString (hmid.subset hname)
    have htrue := (isLink_pathOf_append mid (by simp [fs.tree.root]) hroot hnames).mpr hat
    rw [List.append_nil, hsafe.link mid hmid] at htrue
    cases htrue
  have hno' : ¬ host.HasLink base (steps path) := by
    intro hhas
    have hhas' := DirTree.hasLink_of_subtree [] hhost.subtree hup' hhas
    unfold steps at hhas'
    split at hhas'
    · exact hno ((DirTree.hasLink_append_stay _ _ _).mp hhas')
    · rw [List.append_nil] at hhas'
      exact hno hhas'
  rw [DirTree.walk_below hup' hno' h]
  exact DirTree.locationBelow_eq base (steps path)

/-- **A resolved mount point is safe** if and only if `realpath` resolves it, or none of the
components that have to be taken off is a `..` and the mount point is not a link when it has no
slash at its end.  What is safe leads below the base path. -/
theorem resolvePathChrooted_safe_iff
    (h : resolvePathChrooted fs mountpoint = .ok path) :
    (fs.Safe path ↔ (fs.realpath (absolute mountpoint)).isSome ∨
      (".." ∉ fs.missing mountpoint ∧
        fs.isLink (pathOf (splitString mountpoint "/").reverse) = false)) ∧
    (fs.Safe path → ∀ host base, Contains host base fs → ∀ basepath, basepath = pathOf base →
      ∃ directory, resolvePath basepath fs mountpoint = .ok directory ∧
        ∀ follow links loc, host.walk follow links [] (steps directory) = some loc →
          ∃ inner, loc = inner ++ base) := by
  refine ⟨?_, ?_⟩
  · cases hreal : fs.realpath (absolute mountpoint) with
    | some real =>
        rw [resolvePathChrooted_of_some hreal] at h
        cases h
        exact iff_of_true (safe_of_realpath hreal) (.inl rfl)
    | none =>
        obtain ⟨before, loc, hsplit, hresolved, hmissing⟩ := resolved_of_ok h hreal
        rw [safe_iff_of_resolved hresolved (fun hnil => hmissing (by simpa using hnil)), ← hsplit]
        simp
  · rintro hsafe host base hhost basepath rfl
    refine ⟨pathOf base ++ path, by rw [resolvePath, h]; rfl, fun follow links loc hwalk => ?_⟩
    exact walk_of_safe hsafe hhost hwalk

end Safety

section Escape

/-- `realpath` as it is documented, within the same number of links. -/
def FileSystem.ofTree (tree : DirTree String) (limit : Nat)
    (names : ∀ name loc, tree.kind (name :: loc) ≠ none → IsFileName name) : FileSystem where
  tree := tree
  limit := limit
  realpath := fun path => (tree.walk true limit [] (steps path)).map pathOf
  names := names
  realpath_spec := by
    intro path real h
    obtain ⟨loc, hwalk, rfl⟩ := Option.map_eq_some_iff.mp h
    exact ⟨loc, hwalk, rfl⟩

/-- A chroot that has nothing but a link to `/x`, which it does not have. -/
def danglingTree : DirTree String where
  kind := fun loc =>
    if loc = [] then some .dir else if loc = ["l"] then some (.link true [.down "x"]) else none
  root := rfl
  parent := by
    intro name loc h
    by_cases hloc : loc = []
    · simp [hloc]
    · simp [hloc] at h

def danglingLink : FileSystem :=
  .ofTree danglingTree 40 <| by
    intro name loc h
    by_cases hname : name = "l"
    · subst hname
      exact ⟨⟨by decide, by decide⟩, by decide, by decide⟩
    · simp [danglingTree, hname] at h

/-- A host that has the chroot in `/c` and a directory `/x`. -/
def danglingHost : DirTree String where
  kind := fun loc =>
    if loc ∈ [[], ["c"], ["x"]] then some .dir
    else if loc = ["l", "c"] then some (.link true [.down "x"])
    else none
  root := rfl
  parent := by
    intro name loc h
    by_cases hloc : loc ∈ [[], ["c"]]
    · simp only [List.mem_cons, List.not_mem_nil, or_false] at hloc
      rcases hloc with rfl | rfl <;> rfl
    · simp only [List.mem_cons, List.not_mem_nil, or_false, not_or] at hloc
      simp [hloc] at h

theorem contains_danglingHost : Contains danglingHost ["c"] danglingLink := by
  refine ⟨fun name hname => ?_, fun inner => ?_⟩
  · rw [List.mem_singleton.mp hname]
    exact ⟨⟨by decide, by decide⟩, by decide, by decide⟩
  · cases inner with
    | nil => rfl
    | cons name inner =>
        by_cases hnil : inner = []
        · subst hnil
          by_cases hname : name = "l"
          · subst hname
            rfl
          · simp [danglingHost, danglingLink, FileSystem.ofTree, danglingTree, hname]
        · simp [danglingHost, danglingLink, FileSystem.ofTree, danglingTree, hnil]

theorem resolvePathChrooted_danglingLink :
    resolvePathChrooted danglingLink "/l/" = .ok "/l/" := by
  have habs : absolute "/l/" = "/l/" := by decide +kernel
  have hreal : danglingLink.realpath (absolute "/l/") = none := by decide +kernel
  have hlink : danglingLink.isLink (absolute "/l/") = false := by decide +kernel
  have hlength : ¬ 1 < (splitString "/l/" "/").length := by decide +kernel
  rw [resolvePathChrooted_of_none hreal, hlink, if_neg (by simp), if_neg hlength, habs]

theorem resolvePathChrooted_missing :
    resolvePathChrooted danglingLink "m" = .ok "/m" := by
  have habs : absolute "m" = "/m" := by decide +kernel
  have hreal : danglingLink.realpath (absolute "m") = none := by decide +kernel
  have hlink : danglingLink.isLink (absolute "m") = false := by decide +kernel
  have hlength : ¬ 1 < (splitString "m" "/").length := by decide +kernel
  rw [resolvePathChrooted_of_none hreal, hlink, if_neg (by simp), if_neg hlength, habs]

theorem resolvePathChrooted_parent :
    resolvePathChrooted danglingLink "m/.." = .ok "/m/.." := by
  have hreal : danglingLink.realpath (absolute "m/..") = none := by decide +kernel
  have hlink : danglingLink.isLink (absolute "m/..") = false := by decide +kernel
  have hdirs : splitString "m/.." "/" = ["m", ".."] := by decide +kernel
  have hcall : resolvePathChrooted danglingLink (stringListToString ["m"] "/") = .ok "/m" :=
    resolvePathChrooted_missing
  rw [resolvePathChrooted_of_none hreal, hlink, if_neg (by simp), hdirs, if_pos (by decide)]
  show Except.map _ (resolvePathChrooted danglingLink (stringListToString ["m"] "/")) = _
  rw [hcall]
  decide +kernel

/-- A mount point that is to be created. -/
theorem resolvePathChrooted_safe_iff_missing :
    resolvePathChrooted danglingLink "m" = .ok "/m" ∧
    (danglingLink.Safe "/m" ↔ (danglingLink.realpath (absolute "m")).isSome ∨
      (".." ∉ danglingLink.missing "m" ∧
        danglingLink.isLink (pathOf (splitString "m" "/").reverse) = false)) ∧
    (danglingLink.Safe "/m" → ∀ host base, Contains host base danglingLink →
      ∀ basepath, basepath = pathOf base →
        ∃ directory, resolvePath basepath danglingLink "m" = .ok directory ∧
          ∀ follow links loc, host.walk follow links [] (steps directory) = some loc →
            ∃ inner, loc = inner ++ base) :=
  ⟨resolvePathChrooted_missing, resolvePathChrooted_safe_iff resolvePathChrooted_missing⟩

/-- **A link with a slash behind it is not refused**, and leads out of the chroot; a `..` behind
a missing directory is left in the path. -/
theorem not_resolvePathChrooted_safe :
    (resolvePathChrooted danglingLink "m/.." = .ok "/m/.." ∧ ".." ∈ splitString "/m/.." "/") ∧
    resolvePath "/c" danglingLink "/l/" = .ok "/c/l/" ∧
    danglingHost.walk true 40 [] (steps "/c/l/") = some ["x"] ∧
    ¬ ∀ fs mountpoint path, resolvePathChrooted fs mountpoint = .ok path →
      fs.Safe path ∧ ∀ host base, Contains host base fs → ∀ follow links loc,
        host.walk follow links [] (steps (pathOf base ++ path)) = some loc →
          ∃ inner, loc = inner ++ base := by
  have hwalk : danglingHost.walk true 40 [] (steps (pathOf ["c"] ++ "/l/")) = some ["x"] := by
    decide +kernel
  refine ⟨⟨resolvePathChrooted_parent, by decide +kernel⟩,
    by rw [resolvePath, resolvePathChrooted_danglingLink]; decide +kernel, hwalk,
    fun hall => ?_⟩
  obtain ⟨inner, hinner⟩ := (hall _ _ _ resolvePathChrooted_danglingLink).2 _ _
    contains_danglingHost _ _ _ hwalk
  have hlast := congrArg List.getLast? hinner
  rw [List.getLast?_concat] at hlast
  exact absurd hlast (by decide)

end Escape

end Mount

end Schroot
