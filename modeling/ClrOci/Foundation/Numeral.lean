import Mathlib.Data.List.TakeWhile

/-! Decimal numerals: what the C library prints and reads back.

`strtoll` follows the documented behaviour of base ten: leading blanks, one sign,
the longest run of digits, saturation at 64 bits. No digits is no conversion.
-/

set_option autoImplicit false

namespace ClrOci.Foundation

def isBlank (c : Char) : Bool := c == ' ' || ('\t' ≤ c && c ≤ '\r')

/-- `LLONG_MAX`. -/
def llongMax : Nat := 9223372036854775807

def saturate (value : Int) : Int := max (-(llongMax : Int) - 1) (min value llongMax)

def leadingDigits (text : List Char) : Option Nat :=
  match text.takeWhile Char.isDigit with
  | [] => none
  | digits => some (Nat.ofDigitChars 10 digits 0)

def signedDigits : List Char → Option Int
  | '-' :: rest => (leadingDigits rest).map fun value => -Int.ofNat value
  | '+' :: rest => (leadingDigits rest).map Int.ofNat
  | rest => (leadingDigits rest).map Int.ofNat

/-- `strtoll` in base ten; `none` when nothing was converted (`endptr` is the text). -/
def strtoll (text : String) : Option Int :=
  (signedDigits (text.toList.dropWhile isBlank)).map saturate

/-- `atol`: no conversion is zero. -/
def atol (text : String) : Int := (strtoll text).getD 0

/-- `atoi`: `strtol` narrowed to a 32-bit `int`. -/
def atoi (text : String) : Int32 := Int32.ofInt (atol text)

theorem isDigit_not_blank {c : Char} (digit : c.isDigit = true) : isBlank c = false := by
  simp only [Char.isDigit, Bool.and_eq_true, decide_eq_true_eq] at digit
  have low : '0'.val ≤ c.val := digit.1
  simp only [isBlank, Bool.or_eq_false_iff, Bool.and_eq_false_iff, beq_eq_false_iff_ne,
    decide_eq_false_iff_not]
  refine ⟨?_, Or.inr ?_⟩
  · rintro rfl
    exact absurd low (by decide)
  · intro small
    exact absurd (UInt32.le_trans low small) (by decide)

theorem takeWhile_digits {digits : List Char} (all : ∀ c ∈ digits, c.isDigit = true) :
    digits.takeWhile Char.isDigit = digits :=
  List.takeWhile_eq_self_iff.mpr all

theorem leadingDigits_toDigits (n : Nat) : leadingDigits (Nat.toDigits 10 n) = some n := by
  have all : ∀ c ∈ Nat.toDigits 10 n, c.isDigit = true :=
    fun c member => Nat.isDigit_of_mem_toDigits (by omega) (by omega) member
  unfold leadingDigits
  rw [takeWhile_digits all]
  split
  · next none => exact absurd none Nat.toDigits_ne_nil
  · rw [Nat.ofDigitChars_ten_toDigits]

theorem signedDigits_of_digit {c : Char} {rest : List Char} (digit : c.isDigit = true) :
    signedDigits (c :: rest) = (leadingDigits (c :: rest)).map Int.ofNat := by
  have minus : c ≠ '-' := by rintro rfl; exact absurd digit (by decide)
  have plus : c ≠ '+' := by rintro rfl; exact absurd digit (by decide)
  unfold signedDigits
  split
  · next same => exact absurd (List.cons.inj same).1 minus
  · next same => exact absurd (List.cons.inj same).1 plus
  · rfl

theorem strtoll_of_value {digits : List Char} {n : Nat} (all : ∀ c ∈ digits, c.isDigit = true)
    (value : leadingDigits digits = some n) :
    strtoll (String.ofList digits) = some ((min n llongMax : Nat) : Int) := by
  cases digits with
  | nil => simp [leadingDigits] at value
  | cons c rest =>
    have digit := all c List.mem_cons_self
    have kept : (c :: rest).dropWhile isBlank = c :: rest :=
      List.dropWhile_cons_of_neg (by simp [isDigit_not_blank digit])
    have bounded : saturate (Int.ofNat n) = (min n llongMax : Nat) := by
      simp only [saturate, Int.ofNat_eq_natCast]
      omega
    simp only [strtoll, String.toList_ofList, kept, signedDigits_of_digit digit, value,
      Option.map_some, bounded]

theorem strtoll_of_digits {digits : List Char} {n : Nat} (all : ∀ c ∈ digits, c.isDigit = true)
    (value : leadingDigits digits = some n) (small : n ≤ llongMax) :
    strtoll (String.ofList digits) = some (n : Int) := by
  rw [strtoll_of_value all value, Nat.min_eq_left small]

structure Numeral where
  text : String
  visible : text ≠ ""
  digits : ∀ c ∈ text.toList, c.isDigit = true

namespace Numeral

def value (number : Numeral) : Nat := Nat.ofDigitChars 10 number.text.toList 0

theorem apart (number : Numeral) {c : Char} (other : c.isDigit = false) : c ∉ number.text.toList := by
  intro member
  rw [number.digits c member] at other
  cases other

theorem leadingDigits_text (number : Numeral) :
    leadingDigits number.text.toList = some number.value := by
  unfold leadingDigits
  rw [takeWhile_digits number.digits]
  split
  · next none => exact absurd (String.toList_eq_nil_iff.mp none) number.visible
  · rfl

theorem atol_text (number : Numeral) : atol number.text = (min number.value llongMax : Nat) := by
  have read := strtoll_of_value number.digits number.leadingDigits_text
  rw [String.ofList_toList] at read
  rw [atol, read, Option.getD_some]

def ofNat (n : Nat) : Numeral where
  text := n.repr
  visible := by
    rw [Nat.repr_eq_ofList_toDigits]
    intro none
    have noDigits : Nat.toDigits 10 n = [] := by
      rw [← String.toList_ofList (l := Nat.toDigits 10 n), none, String.toList_empty]
    exact Nat.toDigits_ne_nil noDigits
  digits := by
    rw [Nat.repr_eq_ofList_toDigits, String.toList_ofList]
    exact fun c member => Nat.isDigit_of_mem_toDigits (by omega) (by omega) member

@[simp] theorem ofNat_text (n : Nat) : (ofNat n).text = n.repr := rfl

@[simp] theorem ofNat_value (n : Nat) : (ofNat n).value = n := by
  rw [value, ofNat_text, Nat.repr_eq_ofList_toDigits, String.toList_ofList,
    Nat.ofDigitChars_ten_toDigits]

end Numeral

theorem compare_sub (first second : Int) : compare (first - second) 0 = compare first second := by
  rcases Int.lt_trichotomy first second with less | same | more
  · rw [Int.compare_eq_lt.mpr less]
    exact Int.compare_eq_lt.mpr (by omega)
  · rw [Int.compare_eq_eq.mpr same]
    exact Int.compare_eq_eq.mpr (by omega)
  · rw [Int.compare_eq_gt.mpr more]
    exact Int.compare_eq_gt.mpr (by omega)

theorem compare_natCast (first second : Nat) : compare (first : Int) second = compare first second := by
  rcases Nat.lt_trichotomy first second with less | same | more
  · rw [Nat.compare_eq_lt.mpr less]
    exact Int.compare_eq_lt.mpr (by omega)
  · rw [Nat.compare_eq_eq.mpr same]
    exact Int.compare_eq_eq.mpr (by omega)
  · rw [Nat.compare_eq_gt.mpr more]
    exact Int.compare_eq_gt.mpr (by omega)

theorem strtoll_repr {n : Nat} (small : n ≤ llongMax) : strtoll n.repr = some (n : Int) := by
  rw [Nat.repr_eq_ofList_toDigits]
  exact strtoll_of_digits (fun c member => Nat.isDigit_of_mem_toDigits (by omega) (by omega) member)
    (leadingDigits_toDigits n) small

theorem strtoll_toString {value : Int} (small : value.natAbs ≤ llongMax) :
    strtoll (toString value) = some value := by
  cases value with
  | ofNat n => exact strtoll_repr small
  | negSucc n =>
    have digits : leadingDigits (n + 1).repr.toList = some (n + 1) := by
      rw [Nat.repr_eq_ofList_toDigits, String.toList_ofList]
      exact leadingDigits_toDigits (n + 1)
    have text : (toString (Int.negSucc n)).toList = '-' :: (n + 1).repr.toList :=
      String.toList_append
    have sign : ('-' :: (n + 1).repr.toList).dropWhile isBlank = '-' :: (n + 1).repr.toList :=
      List.dropWhile_cons_of_neg (by decide)
    have bounded : saturate (-Int.ofNat (n + 1)) = Int.negSucc n := by
      rw [saturate, Int.ofNat_eq_natCast]
      omega
    rw [strtoll, text, sign, signedDigits, digits, Option.map_some, Option.map_some, bounded]

/-- A 32-bit integer printed through `unsigned` and narrowed again is unchanged. -/
theorem ofInt_toUInt32 (n : Int32) : Int32.ofInt (n.toUInt32.toNat : Int) = n := by
  apply Int32.toBitVec_inj.mp
  simp [Int32.ofInt]

theorem toUInt32_le (n : Int32) : n.toUInt32.toNat ≤ llongMax := by
  have bound := n.toUInt32.toNat_lt
  rw [llongMax]
  omega

end ClrOci.Foundation
