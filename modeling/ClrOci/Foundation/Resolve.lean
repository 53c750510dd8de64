import ClrOci.Foundation.Text
import Mathlib.Data.List.Infix
import Mathlib.Data.Set.Insert

/-! Resolution of slash-separated paths, without symbolic links.

A location is the list of the names on the way to it from the root. A path walks to a
location: an empty component or one dot stays, two dots go up, and the root is above
itself. A walk that starts anywhere is a detour that does not depend on where it starts:
so many names up, then some names down.
-/

set_option autoImplicit false

namespace ClrOci.Foundation

abbrev Name := List Char

abbrev Location := List Name

def components (path : List Char) : List Name := splitAt '/' none [] path

def enter (place : Location) (name : Name) : Location :=
  if name = [] ∨ name = ['.'] then place
  else if name = ['.', '.'] then place.dropLast
  else place ++ [name]

def walk (start : Location) (path : List Char) : Location := (components path).foldl enter start

def resolve (limit : Nat) (cwd : Location) (path : String) : Option Location :=
  if path = "" ∨ limit < path.length then none
  else some (walk (if isAbsolute path then [] else cwd) path.toList)

structure Plain (name : Name) : Prop where
  apart : '/' ∉ name
  visible : name ≠ []
  not_dot : name ≠ ['.']
  not_dots : name ≠ ['.', '.']

structure Detour where
  ups : Nat
  names : Location
  deriving DecidableEq

namespace Detour

def enter (detour : Detour) (name : Name) : Detour :=
  if name = [] ∨ name = ['.'] then detour
  else if name = ['.', '.'] then
    if detour.names = [] then { detour with ups := detour.ups + 1 }
    else { detour with names := detour.names.dropLast }
  else { detour with names := detour.names ++ [name] }

def arrive (detour : Detour) (start : Location) : Location :=
  start.take (start.length - detour.ups) ++ detour.names

end Detour

def detour (path : List Char) : Detour := (components path).foldl Detour.enter ⟨0, []⟩

section Walk
variable {start place : Location} {path rest : List Char} {name : Name}

theorem components_append {piece : List Char} :
    splitAt '/' none piece (path ++ '/' :: rest) = splitAt '/' none piece path ++ components rest := by
  induction path generalizing piece with
  | nil => simp [splitAt, components]
  | cons c path ih =>
    by_cases separator : c = '/'
    · simp [splitAt, separator, ih]
    · simp [splitAt, separator, ih]

theorem walk_append : walk start (path ++ '/' :: rest) = walk (walk start path) rest := by
  simp only [walk, components, components_append, List.foldl_append]

@[simp] theorem walk_nil : walk start [] = start := by
  simp [walk, components, splitAt, enter]

theorem Plain.enter (plain : Plain name) : Foundation.enter place name = place ++ [name] := by
  simp [Foundation.enter, plain.visible, plain.not_dot, plain.not_dots]

theorem Plain.components (plain : Plain name) : components name = [name] :=
  splitAt_last_word plain.apart

theorem Plain.walk (plain : Plain name) : walk start name = start ++ [name] := by
  rw [Foundation.walk, plain.components, List.foldl_cons, List.foldl_nil, plain.enter]

theorem Detour.enter_arrive (detour : Detour) :
    Foundation.enter (detour.arrive start) name = (detour.enter name).arrive start := by
  have up : (start.take (start.length - detour.ups)).dropLast =
      start.take (start.length - (detour.ups + 1)) := by
    rw [List.dropLast_eq_take, List.take_take, List.length_take]
    congr 1
    omega
  simp only [Foundation.enter, Detour.enter, Detour.arrive]
  by_cases still : name = [] ∨ name = ['.']
  · simp only [still, if_true]
  · by_cases dots : name = ['.', '.']
    · by_cases top : detour.names = []
      · simp [dots, top, up]
      · simp [dots, top]
    · simp [still, dots]

theorem walk_eq_detour : walk start path = (detour path).arrive start := by
  have all : ∀ (names : List Name) (begun : Detour),
      names.foldl Foundation.enter (begun.arrive start) =
        (names.foldl Detour.enter begun).arrive start := by
    intro names
    induction names with
    | nil => exact fun _ => rfl
    | cons name names ih =>
      intro begun
      rw [List.foldl_cons, List.foldl_cons, Detour.enter_arrive, ih]
  have stay : (⟨0, []⟩ : Detour).arrive start = start := by simp [Detour.arrive]
  rw [walk, detour, ← all, stay]

/-- A detour ends right below its start when it goes down the way it went up, and one name on. -/
theorem walk_child_iff : walk start path = start ++ [name] ↔
    (detour path).names = start.drop (start.length - (detour path).ups) ++ [name] := by
  have whole : start ++ [name] = start.take (start.length - (detour path).ups) ++
      (start.drop (start.length - (detour path).ups) ++ [name]) := by
    rw [← List.append_assoc, List.take_append_drop]
  rw [walk_eq_detour, Detour.arrive, whole]
  exact List.append_cancel_left_eq _ _ _ |>.to_iff

/-- However short a name is cut, entering it does not lead up. -/
theorem prefix_walk_take (apart : '/' ∉ name) (dotless : name.head? ≠ some '.') (kept : Nat) :
    start <+: walk start (name.take kept) := by
  by_cases gone : name.take kept = []
  · rw [gone, walk_nil]
  · have starts : (name.take kept).head? ≠ some '.' := by
      cases name with
      | nil => simp
      | cons c name =>
        cases kept with
        | zero => simp
        | succ kept => simpa using dotless
    have plain : Plain (name.take kept) := {
      apart := fun member => apart (List.mem_of_mem_take member)
      visible := gone
      not_dot := by
        intro dot
        simp [dot] at starts
      not_dots := by
        intro dots
        simp [dots] at starts }
    rw [plain.walk]
    exact List.prefix_append start _

end Walk

section Resolve
variable {limit : Nat} {cwd place : Location} {path rest : String}

theorem resolve_of_fits (visible : path ≠ "") (fits : path.length ≤ limit) :
    resolve limit cwd path = some (walk (if isAbsolute path then [] else cwd) path.toList) := by
  rw [resolve, if_neg (by simp [visible, fits])]

theorem resolve_isSome_iff : (∃ place, resolve limit cwd path = some place) ↔
    path ≠ "" ∧ path.length ≤ limit := by
  constructor
  · rintro ⟨place, found⟩
    unfold resolve at found
    split at found
    · cases found
    · next valid =>
      constructor
      · exact fun empty => valid (.inl empty)
      · exact Nat.le_of_not_lt fun long => valid (.inr long)
  · intro valid
    exact ⟨_, resolve_of_fits valid.1 valid.2⟩

/-- A path goes on from where its first part leads, with as much of the rest as fits. -/
theorem resolve_joined (found : resolve limit cwd path = some place) :
    resolve limit cwd (Buffer.copy limit (path ++ "/" ++ rest)).text =
      some (walk place (rest.toList.take (limit - path.length - 1))) := by
  obtain ⟨visible, fits⟩ := resolve_isSome_iff.mp ⟨place, found⟩
  rw [resolve_of_fits visible fits] at found
  have length : path.toList.length = path.length := String.length_toList
  have letters : path.toList ≠ [] := by simpa using visible
  have joined : (Buffer.copy limit (path ++ "/" ++ rest)).text.toList =
      path.toList ++ ('/' :: rest.toList).take (limit - path.length) := by
    have whole : (path ++ "/" ++ rest).toList = path.toList ++ '/' :: rest.toList := by simp
    rw [Buffer.copy, String.toList_ofList, whole, List.take_append, List.take_of_length_le, length]
    rw [length]
    exact fits
  have set : (Buffer.copy limit (path ++ "/" ++ rest)).text ≠ "" := by
    intro empty
    rw [empty, String.toList_empty] at joined
    exact letters (List.append_eq_nil_iff.mp joined.symm).1
  have rooted : isAbsolute (Buffer.copy limit (path ++ "/" ++ rest)).text = isAbsolute path := by
    rw [isAbsolute, isAbsolute, joined, List.head?_append_of_ne_nil _ letters]
  have walked : ∀ start, walk start (Buffer.copy limit (path ++ "/" ++ rest)).text.toList =
      walk (walk start path.toList) (rest.toList.take (limit - path.length - 1)) := by
    intro start
    rw [joined]
    cases room : limit - path.length with
    | zero => simp
    | succ room => rw [List.take_succ_cons, walk_append, Nat.add_sub_cancel]
  rw [resolve_of_fits set (Buffer.fits _), rooted, walked, Option.some.inj found]

end Resolve

def tree (top : Location) : Set Location := { place | top <+: place }

section Tree
variable {top place : Location} {name other : Name}

theorem tree_subset (below : top <+: place) : tree place ⊆ tree top :=
  fun _ inside => below.trans inside

theorem tree_child_inside : tree (top ++ [name]) ⊆ tree top \ {top} := by
  intro place inside
  refine ⟨(List.prefix_append top [name]).trans inside, ?_⟩
  intro same
  have long := inside.length_le
  rw [Set.mem_singleton_iff.mp same, List.length_append, List.length_singleton] at long
  omega

theorem tree_disjoint (apart : name ≠ other) (first : place ∈ tree (top ++ [name])) :
    place ∉ tree (top ++ [other]) := by
  intro second
  obtain ⟨rest, rfl⟩ := first
  obtain ⟨rest', same⟩ := second
  rw [List.append_assoc, List.append_assoc, List.append_cancel_left_eq] at same
  exact apart (List.cons.inj same).1.symm

end Tree

end ClrOci.Foundation
