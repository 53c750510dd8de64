import ClrOci.Container
import ClrOci.Foundation.Redirection
import ClrOci.Foundation.Resolve

/-! Which directory a container identifier names.

The identifier comes from the command line and is joined to the root as it is, so
where the runtime path leads depends on the dots and separators in it, and what the deletion
takes away on how the shell reads it.
-/

set_option autoImplicit false

namespace ClrOci

open Foundation

def rootPath (rootDir : Option String) : String := rootDir.getD runtimeDirPrefix

def locate (cwd : Location) (path : String) : Option Location := resolve 4095 cwd path

def containerPaths (rootDir : Option String) (id : String) : List PathBuffer :=
  let runtime := runtimePath rootDir id
  [runtime, stateFilePath runtime, commsPath runtime, procsockPath runtime]

/-- What `clr_oci_runtime_dir_delete` may take away. A relative path is refused by the function, and
an open quotation by the shell; a command that the shell reads otherwise may be anything. -/
def deleted (cwd : Location) (path : String) : Set Location :=
  { place | isAbsolute path = true ∧ ¬ Shell.Unfinished (rmCommand path).toList ∧
    (Shell.Inert path.toList → ∃ top, locate cwd path = some top ∧ place ∈ tree top) }

def touched (cwd : Location) (rootDir : Option String) (id : String) : Set Location :=
  { place |
    ∃ path ∈ containerPaths rootDir id, ∃ top, locate cwd path.text = some top ∧ place ∈ tree top } ∪
  deleted cwd (runtimePath rootDir id).text

def DirectChild (cwd : Location) (rootDir : Option String) (id : String) : Prop :=
  ∃ root name, locate cwd (rootPath rootDir) = some root ∧
    locate cwd (runtimePath rootDir id).text = some (root ++ [name])

structure Separated (cwd : Location) (rootDir : Option String) (first second : String) : Prop where
  children : DirectChild cwd rootDir first ∧ DirectChild cwd rootDir second
  apart : first ≠ second →
    locate cwd (runtimePath rootDir first).text ≠ locate cwd (runtimePath rootDir second).text
  inside : ∀ root, locate cwd (rootPath rootDir) = some root →
    touched cwd rootDir first ⊆ tree root \ {root} ∧ touched cwd rootDir second ⊆ tree root \ {root}
  disjoint : first ≠ second →
    ∀ place ∈ touched cwd rootDir first, place ∉ touched cwd rootDir second

def keptId (rootDir : Option String) (id : String) : List Char :=
  id.toList.take (4095 - (rootPath rootDir).length - 1)

/-- Apart from going up and down the same way again, the identifier is one name. -/
def NamesEntry (cwd : Location) (rootDir : Option String) (id : String) (name : Name) : Prop :=
  ∃ root, locate cwd (rootPath rootDir) = some root ∧
    (detour (keptId rootDir id)).names =
      root.drop (root.length - (detour (keptId rootDir id)).ups) ++ [name]

/-- The deletion is read as it was meant, if it gets to that. -/
def ReadAsMeant (path : String) : Prop :=
  isAbsolute path = true → Shell.Inert path.toList ∨ Shell.Unfinished (rmCommand path).toList

section Paths
variable {cwd : Location} {rootDir : Option String} {id : String} {root top : Location} {name : Name}

theorem locate_runtimePath (found : locate cwd (rootPath rootDir) = some root) :
    locate cwd (runtimePath rootDir id).text = some (walk root (keptId rootDir id)) :=
  resolve_joined found

theorem namesEntry_iff : NamesEntry cwd rootDir id name ↔
    ∃ root, locate cwd (rootPath rootDir) = some root ∧
      locate cwd (runtimePath rootDir id).text = some (root ++ [name]) := by
  constructor
  · rintro ⟨root, found, entry⟩
    refine ⟨root, found, ?_⟩
    rw [locate_runtimePath found, walk_child_iff.mpr entry]
  · rintro ⟨root, found, child⟩
    rw [locate_runtimePath found] at child
    exact ⟨root, found, walk_child_iff.mp (Option.some.inj child)⟩

theorem containerPaths_below (found : locate cwd (runtimePath rootDir id).text = some top)
    {path : PathBuffer} (member : path ∈ containerPaths rootDir id) :
    ∃ place, locate cwd path.text = some place ∧ top <+: place := by
  have file : ∀ {file : String}, '/' ∉ file.toList → file.toList.head? ≠ some '.' →
      ∃ place, locate cwd (Buffer.copy 4095 ((runtimePath rootDir id).text ++ "/" ++ file)).text =
        some place ∧ top <+: place := by
    intro file apart dotless
    exact ⟨_, resolve_joined found, prefix_walk_take apart dotless _⟩
  simp only [containerPaths, List.mem_cons, List.not_mem_nil, or_false] at member
  rcases member with rfl | rfl | rfl | rfl
  · exact ⟨top, found, List.prefix_refl top⟩
  · exact file (by decide) (by decide)
  · exact file (by decide) (by decide)
  · exact file (by decide) (by decide)

theorem deleted_subset {path : String} (meant : ReadAsMeant path)
    (found : locate cwd path = some top) : deleted cwd path ⊆ tree top := by
  rintro place ⟨absolute, finished, below⟩
  rcases meant absolute with inert | unfinished
  · obtain ⟨there, located, inside⟩ := below inert
    cases located.symm.trans found
    exact inside
  · exact absurd unfinished finished

theorem touched_eq (meant : ReadAsMeant (runtimePath rootDir id).text)
    (found : locate cwd (runtimePath rootDir id).text = some top) :
    touched cwd rootDir id = tree top := by
  ext place
  constructor
  · rintro (⟨path, member, bottom, located, inside⟩ | removed)
    · obtain ⟨there, same, below⟩ := containerPaths_below found member
      cases located.symm.trans same
      exact tree_subset below inside
    · exact deleted_subset meant found removed
  · intro inside
    exact Or.inl ⟨_, List.mem_cons_self, top, found, inside⟩

theorem readAsMeant_of_inside (inside : touched cwd rootDir id ⊆ tree root \ {root}) :
    ReadAsMeant (runtimePath rootDir id).text := by
  intro absolute
  by_contra other
  simp only [not_or] at other
  -- Of a text that is read in another way nothing is known: it may delete the root itself.
  have anywhere : root ∈ touched cwd rootDir id :=
    Or.inr ⟨absolute, other.2, fun inert => absurd inert other.1⟩
  exact (inside anywhere).2 rfl

end Paths

/-- Exactly the pairs of identifiers that spell different names in the root, and paths that the
shell reads as they are, are kept apart. -/
theorem separated_iff (cwd : Location) (rootDir : Option String) (first second : String) :
    Separated cwd rootDir first second ↔
      ∃ name name', NamesEntry cwd rootDir first name ∧ NamesEntry cwd rootDir second name' ∧
        (first ≠ second → name ≠ name') ∧ ReadAsMeant (runtimePath rootDir first).text ∧
        ReadAsMeant (runtimePath rootDir second).text := by
  constructor
  · intro separated
    obtain ⟨⟨root, name, found, child⟩, root', name', found', child'⟩ := separated.children
    refine ⟨name, name', namesEntry_iff.mpr ⟨root, found, child⟩,
      namesEntry_iff.mpr ⟨root', found', child'⟩, ?_,
      readAsMeant_of_inside (separated.inside root found).1,
      readAsMeant_of_inside (separated.inside root found).2⟩
    rintro different rfl
    cases found.symm.trans found'
    exact separated.apart different (child.trans child'.symm)
  · rintro ⟨name, name', entry, entry', different, meant, meant'⟩
    obtain ⟨root, found, child⟩ := namesEntry_iff.mp entry
    obtain ⟨root', found', child'⟩ := namesEntry_iff.mp entry'
    cases found.symm.trans found'
    have trees := touched_eq meant child
    have trees' := touched_eq meant' child'
    exact {
      children := ⟨⟨root, name, found, child⟩, root, name', found, child'⟩
      apart := by
        intro other same
        rw [child, child'] at same
        have names := List.append_cancel_left (Option.some.inj same)
        exact different other (List.cons.inj names).1
      inside := by
        intro root' again
        cases found.symm.trans again
        rw [trees, trees']
        exact ⟨tree_child_inside, tree_child_inside⟩
      disjoint := by
        intro other place
        rw [trees, trees']
        exact tree_disjoint (different other) }

/-- Dots lead out of the root, and to the directory of another container. -/
theorem dotted_ids_escape :
    locate [] (runtimePath none "../victim").text =
        some ["run".toList, "opencontainer".toList, "victim".toList] ∧
      locate [] (runtimePath none "./c1").text = locate [] (runtimePath none "c1").text ∧
      ¬ Separated [] none "../victim" "c1" ∧ ¬ Separated [] none "c1" "./c1" := by
  have outside : locate [] (runtimePath none "../victim").text =
      some ["run".toList, "opencontainer".toList, "victim".toList] := by decide +kernel
  have shared : locate [] (runtimePath none "./c1").text = locate [] (runtimePath none "c1").text := by
    decide +kernel
  have located : locate [] (rootPath none) =
      some ["run".toList, "opencontainer".toList, "containers".toList] := by decide +kernel
  refine ⟨outside, shared, ?_, ?_⟩
  · intro separated
    obtain ⟨⟨root, name, found, child⟩, _⟩ := separated.children
    cases located.symm.trans found
    have lengths := congrArg (Option.map List.length) (outside.symm.trans child)
    simp at lengths
  · intro separated
    exact separated.apart (by decide) shared.symm

end ClrOci
