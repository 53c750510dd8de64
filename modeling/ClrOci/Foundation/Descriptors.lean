import Mathlib.Data.List.Basic

/-! The table of open files of a process, and the calls that change it. -/

set_option autoImplicit false

namespace ClrOci.Foundation

abbrev Descriptors (F : Type) := List (Option F)

namespace Descriptors
variable {F : Type}

def at? : Descriptors F → Nat → Option F
  | [], _ => none
  | entry :: _, 0 => entry
  | _ :: rest, fd + 1 => at? rest fd

-- `open` takes the lowest descriptor that is free.
def lowest : Descriptors F → Nat
  | [] => 0
  | none :: _ => 0
  | some _ :: rest => lowest rest + 1

def put : Descriptors F → Nat → Option F → Descriptors F
  | [], 0, entry => [entry]
  | [], fd + 1, entry => none :: put [] fd entry
  | _ :: rest, 0, entry => entry :: rest
  | head :: rest, fd + 1, entry => head :: put rest fd entry

/-- `open`: the descriptor, and the table with the file. -/
def openFile (table : Descriptors F) (file : F) : Nat × Descriptors F :=
  (table.lowest, table.put table.lowest (some file))

def close (table : Descriptors F) (fd : Nat) : Descriptors F := table.put fd none

/-- `dup2` fails for a descriptor that is not open. -/
def dup2 (table : Descriptors F) (source target : Nat) : Option (Descriptors F) :=
  (table.at? source).map fun file => table.put target (some file)

@[simp] theorem at?_nil (fd : Nat) : at? ([] : Descriptors F) fd = none := rfl

@[simp] theorem at?_put (table : Descriptors F) (fd : Nat) (entry : Option F) (other : Nat) :
    (table.put fd entry).at? other = if other = fd then entry else table.at? other := by
  induction fd generalizing table other with
  | zero =>
    cases table <;> cases other <;> simp [put, at?]
  | succ fd ih =>
    cases table with
    | nil =>
      cases other with
      | zero => simp [put, at?]
      | succ other => simp only [put, at?, ih, Nat.add_right_cancel_iff]
    | cons head rest =>
      cases other with
      | zero => simp [put, at?]
      | succ other => simp only [put, at?, ih, Nat.add_right_cancel_iff]

@[simp] theorem at?_close (table : Descriptors F) (fd other : Nat) :
    (table.close fd).at? other = if other = fd then none else table.at? other :=
  at?_put table fd none other

theorem at?_lowest (table : Descriptors F) : table.at? table.lowest = none := by
  induction table with
  | nil => rfl
  | cons head rest ih =>
    cases head with
    | none => rfl
    | some file => exact ih

theorem dup2_of_open {table : Descriptors F} {source : Nat} {file : F} (held : table.at? source = some file)
    (target : Nat) : table.dup2 source target = some (table.put target (some file)) := by
  rw [dup2, held, Option.map_some]

end Descriptors

end ClrOci.Foundation
