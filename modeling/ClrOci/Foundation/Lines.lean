import Mathlib.Data.List.Basic

/-! Lines of a text, of which the last one may be ended like the others or not. -/

set_option autoImplicit false

namespace ClrOci.Foundation

section Join
variable {α : Type} {delimiter : α} {lines : List (List α)}

theorem intercalate_concat (some : lines ≠ []) (last : List α) :
    [delimiter].intercalate (lines ++ [last]) = [delimiter].intercalate lines ++ delimiter :: last := by
  induction lines with
  | nil => exact absurd rfl some
  | cons line lines ih =>
    cases lines with
    | nil => simp
    | cons next lines =>
      have later := ih (List.cons_ne_nil next lines)
      rw [List.cons_append] at later
      rw [List.cons_append, List.cons_append, List.intercalate_cons_cons, later, List.intercalate_cons_cons,
        List.append_assoc, List.append_assoc, List.append_assoc]

/-- Joined parts end as the last one does, if that is not empty. -/
theorem getLast?_intercalate_concat {last : List α} (some : last ≠ []) :
    ([delimiter].intercalate (lines ++ [last])).getLast? = last.getLast? := by
  by_cases none : lines = []
  · rw [none, List.nil_append, List.intercalate_singleton]
  · rw [intercalate_concat none, List.append_cons, List.getLast?_append_of_ne_nil _ some]

end Join

section Lines
variable {α : Type} [DecidableEq α] {delimiter : α} {text : List α} {lines : List (List α)}

def chomp (delimiter : α) (text : List α) : List α :=
  if text.getLast? = some delimiter then text.dropLast else text

structure LinesOf (delimiter : α) (text : List α) (lines : List (List α)) : Prop where
  some : lines ≠ []
  unbroken : ∀ line ∈ lines, delimiter ∉ line
  joined : [delimiter].intercalate lines = chomp delimiter text

theorem LinesOf.unique {lines' : List (List α)} (first : LinesOf delimiter text lines)
    (second : LinesOf delimiter text lines') : lines = lines' := by
  rw [← List.splitOn_intercalate delimiter first.unbroken first.some, first.joined, ← second.joined,
    List.splitOn_intercalate delimiter second.unbroken second.some]

def dropEmptyLast (parts : List (List α)) : List (List α) :=
  if parts.getLast? = some [] then parts.dropLast else parts

/-- An empty last part is what follows a delimiter at the end, and no part comes from elsewhere. -/
theorem linesOf_dropEmptyLast {parts : List (List α)} (some : parts ≠ [])
    (unbroken : ∀ part ∈ parts, delimiter ∉ part) (visible : [delimiter].intercalate parts ≠ []) :
    LinesOf delimiter ([delimiter].intercalate parts) (dropEmptyLast parts) := by
  obtain ⟨front, last, rfl⟩ : ∃ front last, parts = front ++ [last] :=
    ⟨_, _, (List.dropLast_concat_getLast some).symm⟩
  have whole : delimiter ∉ last := unbroken last (List.mem_append_right front List.mem_cons_self)
  have inside : ∀ part ∈ front, delimiter ∉ part := fun part member =>
    unbroken part (List.mem_append_left [last] member)
  by_cases empty : last = []
  · subst empty
    -- The only part of a text would be all of it.
    have more : front ≠ [] := by
      rintro rfl
      exact visible List.intercalate_singleton
    have dropped : dropEmptyLast (front ++ [[]]) = front := by
      rw [dropEmptyLast, List.getLast?_concat, if_pos rfl, List.dropLast_concat]
    rw [dropped, intercalate_concat more]
    refine ⟨more, inside, ?_⟩
    rw [chomp, List.getLast?_concat, if_pos rfl, List.dropLast_concat]
  · have kept : dropEmptyLast (front ++ [last]) = front ++ [last] := by
      rw [dropEmptyLast, List.getLast?_concat, if_neg (by simpa using empty)]
    have ending : ([delimiter].intercalate (front ++ [last])).getLast? ≠ Option.some delimiter := by
      rw [getLast?_intercalate_concat empty]
      exact fun ends => whole (List.mem_of_getLast? ends)
    rw [kept]
    exact ⟨some, unbroken, by rw [chomp, if_neg ending]⟩

end Lines

section Cut
variable {α : Type} [DecidableEq α] (delimiter : α)

def cutLines : List α → List (List α) × List α
  | [] => ([], [])
  | a :: rest =>
    let later := cutLines rest
    if a = delimiter then ([] :: later.1, later.2)
    else
      match later.1 with
      | [] => ([], a :: later.2)
      | line :: lines => ((a :: line) :: lines, later.2)

variable {delimiter}

theorem cutLines_delimiter (rest : List α) :
    cutLines delimiter (delimiter :: rest) =
      ([] :: (cutLines delimiter rest).1, (cutLines delimiter rest).2) := by
  rw [cutLines, if_pos rfl]

theorem cutLines_append {front : List α} (whole : (cutLines delimiter front).2 = []) (back : List α) :
    cutLines delimiter (front ++ back) =
      ((cutLines delimiter front).1 ++ (cutLines delimiter back).1, (cutLines delimiter back).2) := by
  induction front with
  | nil => rfl
  | cons a rest ih =>
    by_cases ends : a = delimiter
    · subst ends
      rw [cutLines_delimiter] at whole
      rw [List.cons_append, cutLines_delimiter, cutLines_delimiter, ih whole]
      rfl
    · simp only [cutLines, ends, ↓reduceIte, List.cons_append] at whole ⊢
      cases first : (cutLines delimiter rest).1 with
      | nil =>
        rw [first] at whole
        exact absurd whole (List.cons_ne_nil a _)
      | cons line lines =>
        rw [first] at whole
        rw [ih whole, first]
        rfl

theorem cutLines_line {line : List α} (unbroken : delimiter ∉ line) :
    cutLines delimiter (line ++ [delimiter]) = ([line], []) := by
  induction line with
  | nil => exact cutLines_delimiter []
  | cons a rest ih =>
    rw [List.mem_cons, not_or] at unbroken
    rw [List.cons_append, cutLines, ih unbroken.2, if_neg (Ne.symm unbroken.1)]

theorem unbroken_cutLines (text : List α) : ∀ line ∈ (cutLines delimiter text).1, delimiter ∉ line := by
  induction text with
  | nil => exact fun line member => absurd member List.not_mem_nil
  | cons a rest ih =>
    by_cases ends : a = delimiter
    · subst ends
      rw [cutLines_delimiter]
      intro line member
      rcases List.mem_cons.mp member with rfl | later
      · exact List.not_mem_nil
      · exact ih line later
    · simp only [cutLines, ends, ↓reduceIte]
      cases first : (cutLines delimiter rest).1 with
      | nil => exact fun line member => absurd member List.not_mem_nil
      | cons head lines =>
        rw [first] at ih
        intro line member
        rcases List.mem_cons.mp member with rfl | later
        · rw [List.mem_cons, not_or]
          exact ⟨Ne.symm ends, ih head List.mem_cons_self⟩
        · exact ih line (List.mem_cons_of_mem head later)

theorem cutLines_flatMap_iff {lines : List (List α)} :
    (cutLines delimiter (lines.flatMap (· ++ [delimiter]))).1 = lines ↔
      ∀ line ∈ lines, delimiter ∉ line := by
  constructor
  · intro same
    rw [← same]
    exact unbroken_cutLines _
  · intro unbroken
    induction lines with
    | nil => rfl
    | cons line lines ih =>
      have here := cutLines_line (unbroken line List.mem_cons_self)
      rw [List.flatMap_cons, cutLines_append (by rw [here]), here,
        ih fun other member => unbroken other (List.mem_cons_of_mem line member)]
      rfl

end Cut

end ClrOci.Foundation
