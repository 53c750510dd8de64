import Mathlib.Data.List.Forall2

/-! Bytes in memory that are read as a terminated string. -/

set_option autoImplicit false

namespace ClrOci.Foundation

/-- The string that begins here: `none` reads past the end of the memory. -/
def cstring : List UInt8 → Option (List UInt8)
  | [] => none
  | byte :: memory => if byte = 0 then some [] else (cstring memory).map (byte :: ·)

section CString
variable {text memory : List UInt8}

theorem cstring_append (plain : 0 ∉ text) : cstring (text ++ memory) = (cstring memory).map (text ++ ·) := by
  induction text with
  | nil => exact (Option.map_id_apply).symm
  | cons byte text ih =>
    obtain ⟨set, plain⟩ := not_or.mp (mt List.mem_cons.mpr plain)
    rw [List.cons_append, cstring, if_neg (Ne.symm set), ih plain, Option.map_map]
    rfl

theorem cstring_terminated (plain : 0 ∉ text) : cstring (text ++ 0 :: memory) = some text := by
  rw [cstring_append plain, cstring, if_pos rfl, Option.map_some, List.append_nil]

theorem cstring_unterminated {read : List UInt8} (reads : cstring memory = some read) : 0 ∉ read := by
  induction memory generalizing read with
  | nil => cases reads
  | cons byte memory ih =>
    rw [cstring] at reads
    split at reads
    · cases reads
      exact List.not_mem_nil
    · next set =>
      obtain ⟨rest, found, rfl⟩ := Option.map_eq_some_iff.mp reads
      rintro (_ | ⟨_, later⟩)
      · exact set rfl
      · exact ih found later

end CString

end ClrOci.Foundation
