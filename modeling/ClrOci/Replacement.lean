import ClrOci.Foundation.Occurrence
import ClrOci.Util

/-! The replacement in a string, with the widths of its offsets and its text in UTF-8. -/

set_option autoImplicit false

namespace ClrOci

open Foundation

-- `%.*s`: the offset is unsigned, its precision an `int`, and a negative precision is none.
def printTo (offset : Nat) (text : List Char) : List Char :=
  let precision := Int32.ofNat offset
  if precision < 0 then text else text.take precision.toNatClampNeg

-- `g_strdup_printf`: there is no text whose length an `int` cannot hold.
def strdupPrintf (text : List Char) : Option String :=
  if text.length ≤ intMax then some (String.ofList text) else none

/-- `clr_oci_replace_string`: what the string is afterwards. -/
def clrOciReplaceString (text pattern : String) (value : Option String) : Option String :=
  match value with
  | none => some text
  | some value =>
    if pattern = "" then some text
    else
      match findFirst pattern.toList text.toList with
      | none => some text
      | some (before, found) =>
        strdupPrintf (printTo before.length text.toList ++ value.toList ++
          found.drop (utf8Strlen pattern lineMax))

structure ReplacesFirst (text pattern value : List Char) (result : Option String) : Prop where
  unchanged : ¬ pattern <:+: text → result = some (String.ofList text)
  replaced : ∀ before after, FirstOccurrence pattern text before after →
    result = some (String.ofList (before ++ value ++ after))

section Widths
variable {text pattern value : String} {before found : List Char}

theorem printTo_of_le {offset : Nat} (narrow : offset ≤ intMax) (text : List Char) :
    printTo offset text = text.take offset := by
  have small : offset < 2147483648 := Nat.lt_succ_of_le narrow
  have positive : ¬ Int32.ofNat offset < 0 := by
    rw [Int32.lt_iff_toInt_lt, Int32.toInt_ofNat_of_lt small]
    exact Int.not_lt.mpr (Int.natCast_nonneg offset)
  simp only [printTo, if_neg positive, Int32.toNatClampNeg_ofNat_of_lt small]

theorem utf8Skip_utf8Char (c : Char) :
    ∃ lead tail, utf8Char c = lead :: tail ∧ utf8Skip lead = tail.length + 1 := by
  obtain ⟨lead, tail, bytes, width⟩ := utf8Char_lead c
  refine ⟨lead, tail, bytes, ?_⟩
  unfold utf8Skip
  rcases width with ⟨low, count⟩ | ⟨_, _, count⟩ | ⟨_, _, count⟩ | ⟨_, _, count⟩
  all_goals
    rw [count]
    split_ifs <;> omega

theorem utf8StrlenFrom_utf8 {limit fuel seen : Nat} {chars : List Char} (enough : chars.length ≤ fuel)
    (bounded : seen + (chars.flatMap utf8Char).length ≤ limit) :
    utf8StrlenFrom limit fuel seen (chars.flatMap utf8Char) = chars.length := by
  induction chars generalizing fuel seen with
  | nil => cases fuel <;> rfl
  | cons c chars ih =>
    cases fuel with
    | zero => cases enough
    | succ fuel =>
      obtain ⟨lead, tail, bytes, skip⟩ := utf8Skip_utf8Char c
      have rest : (tail ++ chars.flatMap utf8Char).drop (utf8Skip lead - 1) = chars.flatMap utf8Char := by
        rw [skip, Nat.add_sub_cancel, List.drop_left]
      simp only [List.flatMap_cons, bytes, List.cons_append, List.length_cons, List.length_append] at bounded ⊢
      have later : utf8StrlenFrom limit fuel (seen + utf8Skip lead) (chars.flatMap utf8Char) = chars.length :=
        ih (Nat.le_of_succ_le_succ enough) (by omega)
      rw [utf8StrlenFrom, rest, later]
      by_cases within : seen + utf8Skip lead < limit
      · rw [if_pos within, Nat.add_comm]
      · have last : (chars.flatMap utf8Char).length = 0 := by omega
        rw [if_neg within, if_pos (by omega)]
        cases chars with
        | nil => rfl
        | cons d chars =>
          have least := d.utf8Size_pos
          rw [List.flatMap_cons, List.length_append, length_utf8Char] at last
          omega

theorem utf8Strlen_utf8 (bounded : pattern.utf8ByteSize ≤ lineMax) :
    utf8Strlen (utf8 pattern) lineMax = pattern.toList.length := by
  rw [← length_utf8Bytes] at bounded
  rw [utf8Strlen, utf8_toList, utf8, String.length_ofList]
  exact utf8StrlenFrom_utf8 (length_le_utf8Bytes pattern).1 (by rw [Nat.zero_add]; exact bounded)

theorem strdupPrintf_eq_iff {made wanted : List Char} :
    strdupPrintf made = some (String.ofList wanted) ↔ made = wanted ∧ wanted.length ≤ intMax := by
  unfold strdupPrintf
  split
  · next short =>
    rw [Option.some.injEq, String.ofList_inj]
    exact ⟨fun same => ⟨same, same ▸ short⟩, fun same => same.1⟩
  · next long => exact ⟨nofun, fun ⟨same, short⟩ => absurd (same ▸ short) long⟩

theorem clrOciReplaceString_eq {value : Option String} (short : text.length ≤ intMax)
    (fits : (replaceString text pattern value).length ≤ intMax) :
    clrOciReplaceString text pattern value = some (replaceString text pattern value) := by
  unfold clrOciReplaceString
  unfold replaceString at fits ⊢
  cases value with
  | none => rfl
  | some value =>
    by_cases empty : pattern = ""
    · simp only [if_pos empty]
    · simp only [if_neg empty] at fits ⊢
      cases search : findFirst pattern.toList text.toList with
      | none => rfl
      | some result =>
        obtain ⟨before, found⟩ := result
        obtain ⟨after, rfl, first⟩ := findFirst_first search
        have front : text.toList.take before.length = before := by
          rw [first.parts, List.append_assoc, List.take_left]
        have narrow : before.length ≤ intMax := by
          rw [← front, List.length_take, String.length_toList]
          omega
        simp only [search, String.length_ofList] at fits
        simp only [printTo_of_le narrow, front, strdupPrintf, if_pos fits]

theorem utf8_visible (visible : pattern ≠ "") : utf8 pattern ≠ "" := by
  intro empty
  have none : utf8Bytes pattern = [] := by
    rw [← utf8_toList, empty]
    rfl
  rw [← List.length_eq_zero_iff, length_utf8Bytes, String.utf8ByteSize_eq_zero_iff] at none
  exact visible none

theorem clrOciReplaceString_of_none (value : Option String)
    (absent : ¬ utf8Bytes pattern <:+: utf8Bytes text) :
    clrOciReplaceString (utf8 text) (utf8 pattern) value = some (utf8 text) := by
  have search : findFirst (utf8 pattern).toList (utf8 text).toList = none := by
    rw [utf8_toList, utf8_toList, findFirst_eq_none_iff]
    exact absent
  unfold clrOciReplaceString
  rw [search]
  cases value with
  | none => rfl
  | some value => simp only [ite_self]

theorem clrOciReplaceString_of_first (visible : pattern ≠ "") (bounded : pattern.utf8ByteSize ≤ lineMax)
    {before after : List Char} (first : FirstOccurrence (utf8Bytes pattern) (utf8Bytes text) before after) :
    clrOciReplaceString (utf8 text) (utf8 pattern) (some (utf8 value)) =
      strdupPrintf (printTo before.length (utf8Bytes text) ++ utf8Bytes value ++
        ((utf8Bytes pattern).drop pattern.toList.length ++ after)) := by
  have search : findFirst (utf8 pattern).toList (utf8 text).toList =
      some (before, utf8Bytes pattern ++ after) := by
    rw [utf8_toList, utf8_toList, findFirst_eq_some_iff]
    exact ⟨after, rfl, first⟩
  have rest : (utf8Bytes pattern ++ after).drop pattern.toList.length =
      (utf8Bytes pattern).drop pattern.toList.length ++ after :=
    List.drop_append_of_le_length (length_le_utf8Bytes pattern).1
  simp only [clrOciReplaceString, if_neg (utf8_visible visible), search, utf8Strlen_utf8 bounded, rest]
  rw [utf8_toList, utf8_toList]

/-- With an occurrence the value is put in its place exactly if the pattern is plain ASCII and an
`int` holds the length of the new text. -/
theorem clrOciReplaceString_first_iff (visible : pattern ≠ "") (bounded : pattern.utf8ByteSize ≤ lineMax)
    {before after : List Char} (first : FirstOccurrence (utf8Bytes pattern) (utf8Bytes text) before after) :
    clrOciReplaceString (utf8 text) (utf8 pattern) (some (utf8 value)) =
        some (String.ofList (before ++ utf8Bytes value ++ after)) ↔
      IsAscii pattern ∧ text.utf8ByteSize + value.utf8ByteSize ≤ intMax + pattern.utf8ByteSize := by
  obtain ⟨most, plain⟩ := length_le_utf8Bytes pattern
  have front : (utf8Bytes text).take before.length = before := by
    rw [first.parts, List.append_assoc, List.take_left]
  have total : (utf8Bytes text).length = before.length + (utf8Bytes pattern).length + after.length := by
    rw [first.parts, List.length_append, List.length_append]
  rw [clrOciReplaceString_of_first visible bounded first, strdupPrintf_eq_iff, ← plain]
  simp only [← length_utf8Bytes, List.length_append, total]
  constructor
  · rintro ⟨same, short⟩
    rw [printTo_of_le (by omega), front] at same
    have lengths := congrArg List.length same
    simp only [List.length_append, List.length_drop] at lengths
    omega
  · rintro ⟨count, short⟩
    rw [printTo_of_le (by omega), front, count, List.drop_length, List.nil_append]
    exact ⟨rfl, by omega⟩

end Widths

variable {text pattern : String}

/-- In UTF-8 strings the first occurrence of a pattern is replaced exactly if there is none, or the
pattern is plain ASCII and an `int` holds the length of the new text. -/
theorem replacesFirst_iff (visible : pattern ≠ "") (bounded : pattern.utf8ByteSize ≤ lineMax)
    (value : String) :
    ReplacesFirst (utf8Bytes text) (utf8Bytes pattern) (utf8Bytes value)
        (clrOciReplaceString (utf8 text) (utf8 pattern) (some (utf8 value))) ↔
      ¬ utf8Bytes pattern <:+: utf8Bytes text ∨
        IsAscii pattern ∧ text.utf8ByteSize + value.utf8ByteSize ≤ intMax + pattern.utf8ByteSize := by
  by_cases occurs : utf8Bytes pattern <:+: utf8Bytes text
  · have finds := mt findFirst_eq_none_iff.mp (not_not.mpr occurs)
    obtain ⟨⟨before, found⟩, search⟩ := Option.ne_none_iff_exists'.mp finds
    obtain ⟨after, rfl, first⟩ := findFirst_eq_some_iff.mp search
    rw [or_iff_right (not_not.mpr occurs), ← clrOciReplaceString_first_iff visible bounded first]
    constructor
    · exact fun replaces => replaces.replaced before after first
    · intro result
      refine ⟨fun absent => absurd occurs absent, fun before' after' other => ?_⟩
      obtain ⟨rfl, rfl⟩ := first.unique other
      exact result
  · refine iff_of_true ⟨fun absent => clrOciReplaceString_of_none _ absent, ?_⟩ (.inl occurs)
    exact fun before after first => absurd first.infix occurs

theorem replacesFirst_name :
    ReplacesFirst (utf8Bytes "caf\u00e9@NAME@") (utf8Bytes "@NAME@") (utf8Bytes "\u00e9t\u00e9")
      (clrOciReplaceString (utf8 "caf\u00e9@NAME@") (utf8 "@NAME@") (some (utf8 "\u00e9t\u00e9"))) :=
  (replacesFirst_iff (by decide) (by decide) "\u00e9t\u00e9").mpr (.inr ⟨by decide, by decide⟩)

/-- A pattern of one character and two bytes: the second byte stays behind the value. -/
theorem accent_leaves_a_byte :
    let result := clrOciReplaceString (utf8 "caf\u00e9s") (utf8 "\u00e9") (some (utf8 "e"))
    result = some (String.ofList ("cafe".toList ++ [Char.ofNat 0xa9, 's'])) ∧
      ¬ ReplacesFirst (utf8Bytes "caf\u00e9s") (utf8Bytes "\u00e9") (utf8Bytes "e") result := by
  intro result
  have printed : result = some (String.ofList ("cafe".toList ++ [Char.ofNat 0xa9, 's'])) := by decide
  have search : findFirst (utf8Bytes "\u00e9") (utf8Bytes "caf\u00e9s") =
      some ("caf".toList, utf8Bytes "\u00e9" ++ ['s']) := by decide
  refine ⟨printed, fun replaces => ?_⟩
  obtain ⟨after, rest, first⟩ := findFirst_first search
  cases List.append_cancel_left rest
  have expected := replaces.replaced _ _ first
  rw [printed] at expected
  revert expected
  decide

end ClrOci
