import ClrOci.Foundation.Lines
import ClrOci.Foundation.Printing
import ClrOci.Util

/-! The lines of a file as the vector of strings that is made of it. -/

set_option autoImplicit false

namespace ClrOci

open Foundation

abbrev StringVector := List (Option String)

inductive StrvPointer where
  | untouched
  | freed
  | points (strv : StringVector)
  deriving DecidableEq

def shown (contents : String) : String := String.ofList (contents.toList.takeWhile (· != nul))

-- `g_strsplit (contents, "\n", -1)`: never a null pointer, but a vector that ends in one.
def splitContents (contents : String) : StringVector :=
  (strsplit (shown contents) '\n' none).map some ++ [none]

def StringVector.strings (strv : StringVector) : List String :=
  (strv.takeWhile Option.isSome).filterMap id

/-- `g_strv_length`. -/
def strvLength (strv : StringVector) : Nat := (strv.takeWhile Option.isSome).length

/-- `clr_oci_file_to_strv`: its result, and what the caller's pointer has; `strv` is whether there is
such a pointer. -/
def clrOciFileToStrv (host : Host) (file : Option String) (strv : Bool) : Bool × StrvPointer :=
  match file with
  | none => (false, .untouched)
  | some file =>
    if !strv then (false, .untouched)
    else if !isAbsolute file then (false, .untouched)
    else
      match host.readText file with
      | none => (false, .untouched)
      | some contents =>
        let split := splitContents contents
        let len := strvLength split
        if len = 0 then (false, .freed)
        -- The last element is freed, and becomes the end of the vector.
        else if split[len - 1]? = some (some "") then (true, .points (split.set (len - 1) none))
        else (true, .points split)

structure ReadsLines (contents : String) (lines : List String) : Prop where
  some : lines ≠ []
  unbroken : ∀ line ∈ lines, '\n' ∉ line.toList
  joined : (strjoin "\n" lines).toList = chomp '\n' contents.toList

theorem readsLines_iff {contents : String} {lines : List String} :
    ReadsLines contents lines ↔ LinesOf '\n' contents.toList (lines.map String.toList) := by
  have characters : (strjoin "\n" lines).toList = ['\n'].intercalate (lines.map String.toList) := by
    rw [strjoin, String.toList_intercalate]
    rfl
  constructor
  · rintro ⟨some, unbroken, joined⟩
    exact ⟨by simpa using some, by simpa using unbroken, by rw [← characters, joined]⟩
  · rintro ⟨some, unbroken, joined⟩
    exact ⟨by simpa using some, by simpa using unbroken, by rw [characters, joined]⟩

section Vector
variable {pieces : List String} {contents : String}

theorem takeWhile_terminated (pieces : List String) (rest : StringVector) :
    (pieces.map some ++ none :: rest).takeWhile Option.isSome = pieces.map some := by
  have all : ∀ entry ∈ pieces.map some, Option.isSome entry = true := by simp
  rw [List.takeWhile_append_of_pos all, List.takeWhile_cons_of_neg (by decide), List.append_nil]

theorem strings_terminated (pieces : List String) (rest : StringVector) :
    StringVector.strings (pieces.map some ++ none :: rest) = pieces := by
  rw [StringVector.strings, takeWhile_terminated]
  simp

theorem shown_of_plain (plain : nul ∉ contents.toList) : shown contents = contents := by
  rw [shown, takeWhile_plain plain, String.ofList_toList]

def keptPieces (pieces : List String) : List String :=
  if pieces.getLast? = some "" then pieces.dropLast else pieces

theorem keptPieces_toList (pieces : List String) :
    (keptPieces pieces).map String.toList = dropEmptyLast (pieces.map String.toList) := by
  rcases List.eq_nil_or_concat' pieces with rfl | ⟨front, last, rfl⟩
  · rfl
  · have mapped : (front ++ [last]).map String.toList = front.map String.toList ++ [last.toList] :=
      List.map_append
    rw [mapped, dropEmptyLast, keptPieces, List.getLast?_concat, List.getLast?_concat]
    by_cases empty : last = ""
    · subst empty
      rw [if_pos rfl, if_pos (by simp), List.dropLast_concat, List.dropLast_concat]
    · rw [if_neg (by simpa using empty), if_neg (by simpa using empty), mapped]

theorem strings_set_last {front : List String} {last : String} :
    StringVector.strings (((front ++ [last]).map some ++ [none]).set front.length none) = front := by
  have overwritten : ((front ++ [last]).map some ++ [none]).set front.length none =
      front.map some ++ none :: [none] := by
    have place : (front.map some).length = front.length := List.length_map some
    rw [List.map_append, List.append_assoc, ← place, List.set_append_right _ _ (Nat.le_refl _), Nat.sub_self]
    rfl
  rw [overwritten, strings_terminated]

theorem strsplit_ne_nil (visible : contents ≠ "") : strsplit contents '\n' none ≠ [] := by
  rw [strsplit, if_neg visible]
  simpa using splitAt_ne_nil contents.toList

/-- What a file of plain text becomes: a vector of the pieces that are kept. -/
theorem clrOciFileToStrv_of_plain {host : Host} {file : String} (absolute : isAbsolute file = true)
    (readable : host.readText file = some contents) (visible : contents ≠ "")
    (plain : nul ∉ contents.toList) :
    ∃ strv, clrOciFileToStrv host (some file) true = (true, .points strv) ∧
      strv.strings = keptPieces (strsplit contents '\n' none) := by
  have split : splitContents contents = (strsplit contents '\n' none).map some ++ [none] := by
    rw [splitContents, shown_of_plain plain]
  have several : strsplit contents '\n' none ≠ [] := strsplit_ne_nil visible
  simp only [clrOciFileToStrv, absolute, readable, Bool.not_true, Bool.false_eq_true, ↓reduceIte, split]
  generalize strsplit contents '\n' none = pieces at several ⊢
  obtain ⟨front, last, rfl⟩ : ∃ front last, pieces = front ++ [last] :=
    ⟨_, _, (List.dropLast_concat_getLast several).symm⟩
  have count : strvLength ((front ++ [last]).map some ++ [none]) = front.length + 1 := by
    rw [strvLength, takeWhile_terminated, List.length_map, List.length_append, List.length_singleton]
  have final : ((front ++ [last]).map some ++ [none])[front.length]? = some (some last) := by
    simp
  rw [count, if_neg (Nat.succ_ne_zero _), Nat.add_sub_cancel, final, keptPieces, List.getLast?_concat]
  by_cases empty : last = ""
  · subst empty
    rw [if_pos rfl, if_pos rfl, List.dropLast_concat]
    exact ⟨_, rfl, strings_set_last⟩
  · rw [if_neg (by simpa using empty), if_neg (by simpa using empty)]
    exact ⟨_, rfl, strings_terminated _ _⟩

theorem fileToStrv_of_readable {host : Host} {file : String} (absolute : isAbsolute file = true)
    (readable : host.readText file = some contents) (visible : contents ≠ "") :
    fileToStrv host (some file) = some (keptPieces (strsplit contents '\n' none)) := by
  have several : strsplit contents '\n' none ≠ [] := strsplit_ne_nil visible
  simp [fileToStrv, absolute, readable, several, keptPieces, guard]

end Vector

variable {host : Host} {file contents : String}

/-- A file of plain text is read as its lines, and in no other way. -/
theorem fileToStrv_lines (absolute : isAbsolute file = true) (readable : host.readText file = some contents)
    (visible : contents ≠ "") (plain : nul ∉ contents.toList) :
    ∃ strv, clrOciFileToStrv host (some file) true = (true, .points strv) ∧
      ReadsLines contents strv.strings ∧
      (∀ lines, ReadsLines contents lines → lines = strv.strings) ∧
      fileToStrv host (some file) = some strv.strings := by
  obtain ⟨strv, done, strings⟩ := clrOciFileToStrv_of_plain absolute readable visible plain
  have parts : (strsplit contents '\n' none).map String.toList = splitAt '\n' none [] contents.toList := by
    rw [strsplit, if_neg visible, List.map_map]
    simp
  have lines : LinesOf '\n' contents.toList (strv.strings.map String.toList) := by
    have joined : ['\n'].intercalate (splitAt '\n' none [] contents.toList) = contents.toList :=
      intercalate_splitAt contents.toList
    have cut := linesOf_dropEmptyLast (splitAt_ne_nil contents.toList)
      (fun part member => not_mem_of_mem_splitAt List.not_mem_nil member)
      (by rw [joined]; simpa using visible)
    rw [joined, ← parts, ← keptPieces_toList, ← strings] at cut
    exact cut
  refine ⟨strv, done, readsLines_iff.mpr lines, fun others read => ?_, ?_⟩
  · have same := (readsLines_iff.mp read).unique lines
    exact List.map_injective_iff.mpr (fun _ _ => String.toList_inj.mp) same
  · rw [fileToStrv_of_readable absolute readable visible, strings]

def hostWith (contents : String) : Host := { Host.calm with readText := fun _ => some contents }

theorem fileToStrv_lines_empty_line :
    ∃ strv, clrOciFileToStrv (hostWith "qemu\n\n-nographic\n") (some "/args") true = (true, .points strv) ∧
      ReadsLines "qemu\n\n-nographic\n" strv.strings ∧
      (∀ lines, ReadsLines "qemu\n\n-nographic\n" lines → lines = strv.strings) ∧
      fileToStrv (hostWith "qemu\n\n-nographic\n") (some "/args") = some strv.strings :=
  fileToStrv_lines (by decide) rfl (by decide) (by decide)

-- A file of one newline has one empty line.
example : clrOciFileToStrv (hostWith "\n") (some "/args") true = (true, .points [some "", none, none]) := by
  decide

end ClrOci
