import ClrOci.Foundation.Text
import Mathlib.Data.List.Infix

/-! The first occurrence of a pattern in a text, and text as the bytes of its UTF-8 form. -/

set_option autoImplicit false

namespace ClrOci.Foundation

structure FirstOccurrence (pattern text before after : List Char) : Prop where
  parts : text = before ++ pattern ++ after
  shortest : ∀ before' after', text = before' ++ pattern ++ after' → before.length ≤ before'.length

section Occurrence
variable {pattern text before after found : List Char}

theorem FirstOccurrence.unique {before' after' : List Char} (first : FirstOccurrence pattern text before after)
    (second : FirstOccurrence pattern text before' after') : before = before' ∧ after = after' := by
  have same : before.length = before'.length :=
    Nat.le_antisymm (first.shortest _ _ second.parts) (second.shortest _ _ first.parts)
  have parts := first.parts.symm.trans second.parts
  rw [List.append_assoc, List.append_assoc] at parts
  obtain ⟨fronts, rests⟩ := List.append_inj parts same
  exact ⟨fronts, List.append_cancel_left rests⟩

theorem firstOccurrence_of_not_infix (visible : pattern ≠ [])
    (none : ¬ pattern <:+: before ++ pattern.dropLast) :
    FirstOccurrence pattern (before ++ pattern ++ after) before after where
  parts := rfl
  shortest before' after' parts := by
    by_contra shorter
    have whole : before ++ pattern.dropLast <+: before ++ pattern ++ after := by
      rw [List.append_assoc, List.prefix_append_right_inj]
      exact (List.dropLast_prefix pattern).trans (List.prefix_append pattern after)
    have starts : before' ++ pattern <+: before ++ pattern ++ after := ⟨after', parts.symm⟩
    have some := List.length_pos_of_ne_nil visible
    have within : before' ++ pattern <+: before ++ pattern.dropLast := by
      apply List.prefix_of_prefix_length_le starts whole
      simp only [List.length_append, List.length_dropLast]
      omega
    exact none ((List.suffix_append before' pattern).isInfix.trans within.isInfix)

theorem findFirst_first (search : findFirst pattern text = some (before, found)) :
    ∃ after, found = pattern ++ after ∧ FirstOccurrence pattern text before after := by
  induction text generalizing before with
  | nil =>
    rw [findFirst] at search
    split at search
    · next empty =>
      cases search
      exact ⟨[], by rw [empty]; rfl, by rw [empty]; rfl, fun _ _ _ => Nat.zero_le _⟩
    · cases search
  | cons c text ih =>
    rw [findFirst] at search
    split at search
    · next start =>
      cases search
      obtain ⟨after, whole⟩ := List.isPrefixOf_iff_prefix.mp start
      exact ⟨after, whole.symm, by rw [List.nil_append, whole], fun _ _ _ => Nat.zero_le _⟩
    · next other =>
      obtain ⟨⟨front, rest⟩, inner, split⟩ := Option.map_eq_some_iff.mp search
      cases split
      obtain ⟨after, rfl, parts, shortest⟩ := ih inner
      refine ⟨after, rfl, by rw [parts]; rfl, fun before' after' parts' => ?_⟩
      cases before' with
      | nil => exact absurd (List.isPrefixOf_iff_prefix.mpr ⟨after', parts'.symm⟩) other
      | cons c' before' => exact Nat.succ_le_succ (shortest before' after' (List.cons.inj parts').2)

theorem findFirst_eq_none_iff : findFirst pattern text = none ↔ ¬ pattern <:+: text := by
  induction text with
  | nil => simp [findFirst]
  | cons c text ih =>
    rw [findFirst, List.infix_cons_iff, not_or, ← List.isPrefixOf_iff_prefix, ← ih]
    split
    · next start => simp [start]
    · next other => simp [other]

theorem FirstOccurrence.infix (first : FirstOccurrence pattern text before after) : pattern <:+: text :=
  ⟨before, after, first.parts.symm⟩

theorem findFirst_eq_some_iff : findFirst pattern text = some (before, found) ↔
    ∃ after, found = pattern ++ after ∧ FirstOccurrence pattern text before after := by
  constructor
  · exact findFirst_first
  · rintro ⟨after, rfl, first⟩
    cases search : findFirst pattern text with
    | none => exact absurd first.infix (findFirst_eq_none_iff.mp search)
    | some result =>
      obtain ⟨before', found'⟩ := result
      obtain ⟨after', rfl, other⟩ := findFirst_first search
      obtain ⟨rfl, rfl⟩ := other.unique first
      rfl

end Occurrence

def utf8Char (c : Char) : List Char := (String.utf8EncodeChar c).map fun byte => Char.ofNat byte.toNat

def utf8Bytes (text : String) : List Char := text.toList.flatMap utf8Char

def utf8 (text : String) : String := String.ofList (utf8Bytes text)

def IsAscii (text : String) : Prop := ∀ c ∈ text.toList, c.utf8Size = 1

instance (text : String) : Decidable (IsAscii text) := List.decidableBAll _ _

section Utf8
variable {text : String}

@[simp] theorem utf8_toList : (utf8 text).toList = utf8Bytes text := String.toList_ofList

theorem length_utf8Char (c : Char) : (utf8Char c).length = c.utf8Size := by
  rw [utf8Char, List.length_map, String.length_utf8EncodeChar]

theorem length_utf8Bytes (text : String) : (utf8Bytes text).length = text.utf8ByteSize := by
  rw [← String.size_toByteArray, ← String.utf8Encode_toList, List.utf8Encode, List.size_toByteArray, utf8Bytes]
  induction text.toList with
  | nil => rfl
  | cons c rest ih =>
    rw [List.flatMap_cons, List.flatMap_cons, List.length_append, List.length_append, ih, length_utf8Char,
      String.length_utf8EncodeChar]

theorem length_le_utf8Bytes (text : String) : text.toList.length ≤ (utf8Bytes text).length ∧
    (text.toList.length = (utf8Bytes text).length ↔ IsAscii text) := by
  rw [utf8Bytes, IsAscii]
  induction text.toList with
  | nil => simp
  | cons c rest ih =>
    obtain ⟨below, equal⟩ := ih
    have least := c.utf8Size_pos
    simp only [List.flatMap_cons, List.length_append, length_utf8Char, List.length_cons, List.forall_mem_cons,
      ← equal]
    omega

/-- `g_utf8_skip` of a lead byte is the number of bytes that follow, and itself. -/
theorem utf8Char_lead (c : Char) : ∃ lead tail, utf8Char c = lead :: tail ∧
    ((lead.toNat < 0xc0 ∧ tail.length = 0) ∨ (0xc0 ≤ lead.toNat ∧ lead.toNat < 0xe0 ∧ tail.length = 1) ∨
      (0xe0 ≤ lead.toNat ∧ lead.toNat < 0xf0 ∧ tail.length = 2) ∨
      (0xf0 ≤ lead.toNat ∧ lead.toNat < 0xf8 ∧ tail.length = 3)) := by
  have byte (n : Nat) (small : n < 256) : (Char.ofNat (UInt8.ofNat n).toNat).toNat = n := by
    have valid : n.isValidChar := .inl (by omega)
    rw [UInt8.toNat_ofNat_of_lt' small, Char.ofNat, dif_pos valid]
    rfl
  unfold utf8Char String.utf8EncodeChar
  dsimp only
  split
  · next one => exact ⟨_, _, rfl, .inl ⟨by rw [byte _ (by omega)]; omega, rfl⟩⟩
  · split
    · exact ⟨_, _, rfl, .inr (.inl ⟨by rw [byte _ (by omega)]; omega, by rw [byte _ (by omega)]; omega, rfl⟩)⟩
    · split
      · exact ⟨_, _, rfl, .inr (.inr (.inl
          ⟨by rw [byte _ (by omega)]; omega, by rw [byte _ (by omega)]; omega, rfl⟩))⟩
      · exact ⟨_, _, rfl, .inr (.inr (.inr
          ⟨by rw [byte _ (by omega)]; omega, by rw [byte _ (by omega)]; omega, rfl⟩))⟩

end Utf8

end ClrOci.Foundation
