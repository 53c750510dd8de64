import Mathlib.Data.List.DropRight

/-! Tables of left-justified columns with one blank between them.

A cell that is no longer than its column is padded; a longer one pushes what follows to the right.
Where the cells of a line begin depends on these overruns only, and a line without any can be cut
into its cells again.
-/

set_option autoImplicit false

namespace ClrOci.Foundation

def justify (width : Nat) (cell : List Char) : List Char :=
  cell ++ List.replicate (width - cell.length) ' '

def layout : List (Nat × List Char) → List Char
  | [] => []
  | [(width, cell)] => justify width cell
  | (width, cell) :: next :: rest => justify width cell ++ ' ' :: layout (next :: rest)

def starts : List (Nat × List Char) → List Nat
  | [] => []
  | (width, cell) :: rest => 0 :: (starts rest).map (max width cell.length + 1 + ·)

def extent (column : Nat × List Char) : Nat := max column.1 column.2.length

def cutColumns : List Nat → List Char → List (List Char)
  | [], _ => []
  | width :: rest, line => line.take width :: cutColumns rest (line.drop (width + 1))

def trimEnd (cell : List Char) : List Char := cell.rdropWhile (· = ' ')

section Columns
variable {width : Nat} {cell : List Char} {columns others : List (Nat × List Char)}

theorem length_justify : (justify width cell).length = max width cell.length := by
  rw [justify, List.length_append, List.length_replicate]
  omega

theorem length_justify_of_fits (fits : cell.length ≤ width) : (justify width cell).length = width := by
  rw [length_justify]
  omega

theorem trimEnd_justify : trimEnd (justify width cell) = trimEnd cell := by
  rw [trimEnd, trimEnd, justify, List.rdropWhile, List.rdropWhile, List.reverse_append,
    List.reverse_replicate, List.dropWhile_append_of_pos]
  intro c member
  simp [List.eq_of_mem_replicate member]

theorem layout_cons_cons (next : Nat × List Char) (rest : List (Nat × List Char)) :
    layout ((width, cell) :: next :: rest) = justify width cell ++ ' ' :: layout (next :: rest) := rfl

theorem starts_cons (column : Nat × List Char) (rest : List (Nat × List Char)) :
    starts (column :: rest) = 0 :: (starts rest).map (extent column + 1 + ·) := rfl

theorem cutColumns_layout (fits : ∀ column ∈ columns, column.2.length ≤ column.1) :
    cutColumns (columns.map Prod.fst) (layout columns) =
      columns.map fun column => justify column.1 column.2 := by
  induction columns with
  | nil => rfl
  | cons column rest ih =>
    obtain ⟨width, cell⟩ := column
    have whole : (justify width cell).length = width :=
      length_justify_of_fits (fits (width, cell) List.mem_cons_self)
    have later := ih fun column member => fits column (List.mem_cons_of_mem _ member)
    cases rest with
    | nil =>
      simp only [layout, List.map_cons, List.map_nil, cutColumns]
      rw [List.take_of_length_le (Nat.le_of_eq whole)]
    | cons next rest =>
      have cut : (justify width cell ++ ' ' :: layout (next :: rest)).drop (width + 1) =
          layout (next :: rest) := by
        rw [← List.drop_drop, List.drop_left' whole, List.drop_succ_cons, List.drop_zero]
      have head : (justify width cell ++ ' ' :: layout (next :: rest)).take width = justify width cell :=
        List.take_left' whole
      rw [layout_cons_cons, List.map_cons, cutColumns, head, cut, later]
      rfl

/-- Moving two lists that begin with zero to the right tells how far, and from where. -/
theorem map_shift_inj {shift shift' : Nat} {first second : List Nat} :
    (0 :: first).map (shift + 1 + ·) = (0 :: second).map (shift' + 1 + ·) ↔
      shift = shift' ∧ first = second := by
  rw [List.map_cons, List.map_cons, List.cons.injEq]
  constructor
  · rintro ⟨heads, tails⟩
    have same : shift = shift' := by omega
    subst same
    refine ⟨rfl, List.map_injective_iff.mpr (fun left right moved => ?_) tails⟩
    exact Nat.add_left_cancel moved
  · rintro ⟨rfl, rfl⟩
    exact ⟨rfl, rfl⟩

/-- Two lines begin their cells at the same places exactly if all cells but the last reach as far. -/
theorem starts_eq_iff (paired : columns.length = others.length) :
    starts columns = starts others ↔ columns.dropLast.map extent = others.dropLast.map extent := by
  induction columns generalizing others with
  | nil =>
    cases others with
    | nil => exact Iff.rfl
    | cons _ _ => cases paired
  | cons column rest ih =>
    cases others with
    | nil => cases paired
    | cons other more =>
      have counts : rest.length = more.length := Nat.succ.inj paired
      cases rest with
      | nil =>
        cases more with
        | nil => simp [starts]
        | cons _ _ => cases counts
      | cons next rest =>
        cases more with
        | nil => cases counts
        | cons second more =>
          have later := ih counts
          rw [starts_cons next, starts_cons second, List.cons.injEq] at later
          rw [List.dropLast_cons_cons, List.dropLast_cons_cons, List.map_cons, List.map_cons,
            List.cons.injEq, ← later, starts_cons column, starts_cons other, starts_cons next,
            starts_cons second, List.cons.injEq, map_shift_inj]
          simp only [true_and]

theorem starts_of_fits (fits : ∀ column ∈ columns, column.2.length ≤ column.1) :
    starts columns = starts (columns.map fun column => (column.1, [])) := by
  rw [starts_eq_iff (List.length_map _).symm, ← List.map_dropLast, List.map_map]
  apply List.map_congr_left
  intro column member
  have narrow := fits column (List.dropLast_subset _ member)
  simp only [extent, Function.comp_apply, List.length_nil]
  omega

end Columns

end ClrOci.Foundation
