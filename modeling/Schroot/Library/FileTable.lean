import Schroot.Library.SortedMap

/-!
# Files and their names

A directory links names to nodes.  A node keeps its data when its name is taken away, data is only
added at its end, and a name that is linked cannot be created.

**Results.**
* `Grows`: nodes stay, and keep the data that they have.
* `Leaves`: what one owner does, as the other owners see it.
-/

universe u v w

/-- A file: a tag that it keeps, and its data. -/
structure FileNode (τ : Type u) (α : Type v) where
  tag : τ
  data : List α

/-- Names that are linked to nodes, by their numbers. -/
structure FileTable (κ : Type w) [Ord κ] (τ : Type u) (α : Type v) where
  links : Std.ExtTreeMap κ Nat := ∅
  nodes : List (FileNode τ α) := []

namespace FileTable

variable {κ : Type w} {τ : Type u} {α : Type v} [Ord κ]

section Operations

variable [Std.TransOrd κ] (files : FileTable κ τ α)

/-- A new file under a name. -/
def create (name : κ) (tag : τ) : FileTable κ τ α where
  links := files.links.insert name files.nodes.length
  nodes := files.nodes ++ [{ tag := tag, data := [] }]

/-- Data is added to a file. -/
def append (files : FileTable κ τ α) (i : Nat) (xs : List α) : FileTable κ τ α where
  links := files.links
  nodes := files.nodes.modify i fun n => { n with data := n.data ++ xs }

/-- A name is taken away. -/
def unlink (name : κ) : FileTable κ τ α where
  links := files.links.erase name
  nodes := files.nodes

/-- What is found under a name. -/
def content (name : κ) : Option (List α) :=
  files.links[name]?.bind fun i => files.nodes[i]?.map FileNode.data

end Operations

section Lookups

variable {files : FileTable κ τ α} {name name' : κ} {tag : τ} {i j : Nat} {xs : List α}
  {n : FileNode τ α}

theorem links_create [Std.TransOrd κ] [Std.LawfulEqOrd κ] [DecidableEq κ] :
    (files.create name tag).links[name']? =
      if name' = name then some files.nodes.length else files.links[name']? :=
  SortedMap.getElem?_insert _ _ _ _

theorem nodes_create [Std.TransOrd κ] :
    (files.create name tag).nodes[i]? =
      if i = files.nodes.length then some { tag := tag, data := [] } else files.nodes[i]? := by
  simp only [create, List.getElem?_append, List.getElem?_singleton]
  split
  · rename_i hlt
    rw [if_neg (by omega)]
  · rename_i hge
    by_cases hi : i = files.nodes.length
    · simp [hi]
    · rw [if_neg (by omega), if_neg hi, List.getElem?_eq_none (by omega)]

theorem nodes_append :
    (files.append i xs).nodes[j]? =
      if j = i then files.nodes[i]?.map fun n => { n with data := n.data ++ xs }
      else files.nodes[j]? := by
  simp only [append, List.getElem?_modify]
  by_cases hj : j = i
  · subst hj
    cases files.nodes[j]? <;> simp
  · have hne : i ≠ j := fun h => hj h.symm
    cases files.nodes[j]? <;> simp [hj, hne]

theorem links_unlink [Std.TransOrd κ] [Std.LawfulEqOrd κ] [DecidableEq κ] :
    (files.unlink name).links[name']? = if name' = name then none else files.links[name']? :=
  SortedMap.getElem?_erase _ _ _

end Lookups

section Growth

variable {files files' files'' : FileTable κ τ α} {name : κ} {tag : τ} {i : Nat} {xs : List α}

/-- **Files grow**: a node stays, keeps its tag, and its data is a beginning of what it becomes. -/
def Grows (files files' : FileTable κ τ α) : Prop :=
  ∀ (i : Nat) (n : FileNode τ α), files.nodes[i]? = some n →
    ∃ n' : FileNode τ α, files'.nodes[i]? = some n' ∧ n'.tag = n.tag ∧ n.data <+: n'.data

/-- **What one owner leaves alone**: the nodes of others are as they were. -/
structure Leaves (mine : τ → Prop) (files files' : FileTable κ τ α) : Prop where
  grows : Grows files files'
  others : ∀ (i : Nat) (n : FileNode τ α), files.nodes[i]? = some n → ¬ mine n.tag → files'.nodes[i]? = some n
  new : ∀ (i : Nat) (n : FileNode τ α), files'.nodes[i]? = some n → ¬ mine n.tag → files.nodes[i]? = some n

variable {mine : τ → Prop}

theorem Leaves.refl (mine : τ → Prop) (files : FileTable κ τ α) : Leaves mine files files :=
  ⟨fun _ n h => ⟨n, h, rfl, List.prefix_rfl⟩, fun _ _ h _ => h, fun _ _ h _ => h⟩

/-- Something of one's own is created. -/
theorem leaves_create
    [Std.TransOrd κ]
    (h : mine tag) :
    Leaves mine files (files.create name tag) := by
  have hold : ∀ (i : Nat) (n : FileNode τ α), files.nodes[i]? = some n →
      (files.create name tag).nodes[i]? = some n := by
    intro i n hn
    have hlt := (List.getElem?_eq_some_iff.mp hn).1
    rw [nodes_create, if_neg (by omega), hn]
  refine ⟨fun i n hn => ⟨n, hold i n hn, rfl, List.prefix_rfl⟩, fun i n hn _ => hold i n hn, ?_⟩
  intro i n hn hmine
  rw [nodes_create] at hn
  split at hn
  · cases hn
    exact absurd h hmine
  · exact hn

/-- Data is added to something of one's own. -/
theorem leaves_append
    {n : FileNode τ α}
    (hn : files.nodes[i]? = some n)
    (h : mine n.tag) :
    Leaves mine files (files.append i xs) := by
  have hother : ∀ {j : Nat}, j ≠ i → (files.append i xs).nodes[j]? = files.nodes[j]? :=
    fun hj => by rw [nodes_append, if_neg hj]
  have hself : (files.append i xs).nodes[i]? = some { n with data := n.data ++ xs } := by
    rw [nodes_append, if_pos rfl, hn]
    rfl
  refine ⟨fun j m hm => ?_, fun j m hm hmine => ?_, fun j m hm hmine => ?_⟩
  · by_cases hj : j = i
    · subst hj
      rw [hn] at hm
      cases hm
      exact ⟨_, hself, rfl, List.prefix_append _ _⟩
    · exact ⟨m, (hother hj).trans hm, rfl, List.prefix_rfl⟩
  · have hj : j ≠ i := by
      rintro rfl
      rw [hn] at hm
      cases hm
      exact hmine h
    rwa [hother hj]
  · have hj : j ≠ i := by
      rintro rfl
      rw [hself] at hm
      cases hm
      exact hmine h
    rwa [hother hj] at hm

/-- A name is taken away from anything. -/
theorem leaves_unlink [Std.TransOrd κ] : Leaves mine files (files.unlink name) :=
  ⟨fun _ n h => ⟨n, h, rfl, List.prefix_rfl⟩, fun _ _ h _ => h, fun _ _ h _ => h⟩

end Growth

end FileTable
