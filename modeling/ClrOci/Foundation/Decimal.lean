import Mathlib.Algebra.Order.Floor.Semifield
import Mathlib.Data.Rat.Floor
import Mathlib.Tactic.Linarith
import Mathlib.Tactic.NormNum
import Mathlib.Tactic.Positivity

/-! Decimal numbers with a point: how `%f` writes a binary64 number, and what a text denotes.

Magnitudes are rational numbers. A double holds one that is nearest to the number as
written; writing it again rounds to the last place that is printed.
-/

set_option autoImplicit false

namespace ClrOci.Foundation

def IsDouble (x : ℚ) : Prop :=
  ∃ (mantissa : ℕ) (exponent : ℤ), mantissa < 2 ^ 53 ∧ -1074 ≤ exponent ∧ exponent ≤ 971 ∧
    x = mantissa * 2 ^ exponent

def overflow : ℚ := 2 ^ 1024 - 2 ^ 970

def Nearest (x : ℚ) : Option ℚ → Prop
  | some held => x < overflow ∧ IsDouble held ∧ ∀ other, IsDouble other → |held - x| ≤ |other - x|
  | none => overflow ≤ x

def RoundsTo (x : ℚ) (n : ℕ) : Prop := |x - n| < 1 / 2 ∨ (|x - n| = 1 / 2 ∧ n % 2 = 0)

def roundHalfEven (x : ℚ) : ℕ :=
  let n := ⌊x⌋₊
  if x - n < 1 / 2 then n
  else if 1 / 2 < x - n then n + 1
  else if n % 2 = 0 then n else n + 1

def padded (width n : ℕ) : List Char :=
  List.replicate (width - (Nat.toDigits 10 n).length) '0' ++ Nat.toDigits 10 n

def fixedPoint (places units : ℕ) : List Char :=
  Nat.toDigits 10 (units / 10 ^ places) ++ '.' :: padded places (units % 10 ^ places)

def readDecimal (text : List Char) : Option ℚ :=
  let whole := text.takeWhile Char.isDigit
  if whole = [] then none
  else
    match text.dropWhile Char.isDigit with
    | [] => some (Nat.ofDigitChars 10 whole 0)
    | '.' :: fraction =>
      if fraction.all Char.isDigit then
        some (Nat.ofDigitChars 10 (whole ++ fraction) 0 / 10 ^ fraction.length)
      else none
    | _ => none

def readSigned : List Char → Option ℚ
  | '-' :: rest => (readDecimal rest).map fun value => -value
  | text => readDecimal text

section Doubles
variable {x : ℚ}

theorem IsDouble.nonneg (double : IsDouble x) : 0 ≤ x := by
  obtain ⟨mantissa, exponent, _, _, _, rfl⟩ := double
  exact mul_nonneg (Nat.cast_nonneg _) (zpow_nonneg (by norm_num) _)

theorem lt_overflow {k : ℕ} (small : x ≤ 2 ^ k) (fits : k < 970) : x < overflow := by
  have power : (2 : ℚ) ^ k < 2 ^ 970 := pow_lt_pow_right₀ (by norm_num) fits
  have room : (2 : ℚ) ^ 1024 = 2 ^ 54 * 2 ^ 970 := by rw [← pow_add]
  have twice : (2 : ℚ) ^ 970 + 2 ^ 970 ≤ 2 ^ 54 * 2 ^ 970 := by
    rw [← two_mul]
    exact mul_le_mul_of_nonneg_right (by norm_num) (by positivity)
  rw [overflow, room]
  exact lt_of_le_of_lt small (lt_of_lt_of_le power (le_sub_iff_add_le.mpr twice))

theorem IsDouble.nearest (double : IsDouble x) (finite : x < overflow) : Nearest x (some x) :=
  ⟨finite, double, fun other _ => by rw [sub_self, abs_zero]; exact abs_nonneg _⟩

theorem IsDouble.large (double : IsDouble x) (large : 2 ^ 53 ≤ x) :
    (∃ n : ℕ, x = n) ∧ IsDouble (x / 2) := by
  obtain ⟨mantissa, exponent, small, low, high, rfl⟩ := double
  have positive : 1 ≤ exponent := by
    by_contra other
    have shrinks : (2 : ℚ) ^ exponent ≤ 1 := zpow_le_one_of_nonpos₀ (by norm_num) (by omega)
    have bounded : (mantissa : ℚ) < 2 ^ 53 := by exact_mod_cast small
    have below : (mantissa : ℚ) * 2 ^ exponent ≤ mantissa :=
      mul_le_of_le_one_right (Nat.cast_nonneg _) shrinks
    linarith
  obtain ⟨k, rfl⟩ := Int.eq_ofNat_of_zero_le (show 0 ≤ exponent by omega)
  refine ⟨⟨mantissa * 2 ^ k, by push_cast; rw [zpow_natCast]⟩, mantissa, (k : ℤ) - 1, small,
    by omega, by omega, ?_⟩
  rw [zpow_sub_one₀ (by norm_num), mul_div_assoc, div_eq_mul_inv]

end Doubles

section Rounding
variable {x : ℚ} {n m : ℕ}

theorem RoundsTo.unique (first : RoundsTo x n) (second : RoundsTo x m) : n = m := by
  have near {k : ℕ} (rounds : RoundsTo x k) : |x - k| ≤ 1 / 2 := by
    rcases rounds with less | ⟨same, _⟩
    · exact less.le
    · exact same.le
  by_contra different
  have apart : (1 : ℚ) ≤ |(n : ℚ) - m| := by
    exact_mod_cast Int.one_le_abs (show (n : ℤ) - m ≠ 0 by omega)
  have between : |(n : ℚ) - m| ≤ |x - n| + |x - m| := by
    rw [abs_sub_comm x (n : ℚ)]
    exact abs_sub_le _ _ _
  have halves : |x - n| = 1 / 2 ∧ |x - m| = 1 / 2 := by
    have early := near first
    have late := near second
    constructor <;> linarith
  have even {k : ℕ} (rounds : RoundsTo x k) (half : |x - k| = 1 / 2) : k % 2 = 0 := by
    rcases rounds with less | ⟨_, even⟩
    · rw [half] at less
      exact absurd less (lt_irrefl _)
    · exact even
  -- Two even numbers are further apart than two halves.
  have step : (2 : ℚ) ≤ |(n : ℚ) - m| := by
    have early := even first halves.1
    have late := even second halves.2
    have gap : (2 : ℤ) ≤ |(n : ℤ) - m| := by
      rcases abs_cases ((n : ℤ) - m) with ⟨same, _⟩ | ⟨same, _⟩ <;> rw [same] <;> omega
    exact_mod_cast gap
  linarith [halves.1, halves.2]

theorem roundsTo_roundHalfEven (nonneg : 0 ≤ x) : RoundsTo x (roundHalfEven x) := by
  have low : (⌊x⌋₊ : ℚ) ≤ x := Nat.floor_le nonneg
  have high : x < ⌊x⌋₊ + 1 := Nat.lt_floor_add_one x
  unfold roundHalfEven
  dsimp only
  split
  · next less =>
    left
    rw [abs_of_nonneg (by linarith)]
    exact less
  · split
    · next more =>
      left
      push_cast
      rw [abs_of_nonpos (by linarith)]
      linarith
    · next notLess notMore =>
      have half : x - ⌊x⌋₊ = 1 / 2 := le_antisymm (not_lt.mp notMore) (not_lt.mp notLess)
      split
      · next even =>
        right
        rw [half]
        exact ⟨by norm_num, even⟩
      · next odd =>
        right
        push_cast
        rw [show x - ((⌊x⌋₊ : ℚ) + 1) = -(1 / 2) by linarith]
        exact ⟨by norm_num, by omega⟩

theorem roundHalfEven_eq (nonneg : 0 ≤ x) (rounds : RoundsTo x n) : roundHalfEven x = n :=
  (roundsTo_roundHalfEven nonneg).unique rounds

end Rounding

section Digits

theorem isDigit_toDigits {n : ℕ} {c : Char} (member : c ∈ Nat.toDigits 10 n) : c.isDigit = true :=
  Nat.isDigit_of_mem_toDigits (by omega) (by omega) member

theorem isDigit_padded {width n : ℕ} {c : Char} (member : c ∈ padded width n) : c.isDigit = true := by
  rcases List.mem_append.mp member with zero | digit
  · rw [List.eq_of_mem_replicate zero]
    rfl
  · exact isDigit_toDigits digit

theorem length_padded {width n : ℕ} (some : 0 < width) (fits : n < 10 ^ width) :
    (padded width n).length = width := by
  have short := (Nat.length_toDigits_le_iff (b := 10) (by omega) some).mpr fits
  rw [padded, List.length_append, List.length_replicate]
  omega

theorem ofDigitChars_padded (width n init : ℕ) :
    Nat.ofDigitChars 10 (padded width n) init =
      10 ^ (padded width n).length * init + n := by
  rw [Nat.ofDigitChars_eq_ofDigitChars_zero, padded, Nat.ofDigitChars_append,
    Nat.ofDigitChars_replicate_zero, Nat.mul_zero, Nat.ofDigitChars_ten_toDigits]

theorem takeWhile_front {front rest : List Char} (all : ∀ c ∈ front, c.isDigit = true)
    (stops : ∀ c ∈ rest.head?, c.isDigit = false) :
    (front ++ rest).takeWhile Char.isDigit = front ∧ (front ++ rest).dropWhile Char.isDigit = rest := by
  rw [List.takeWhile_append_of_pos all, List.dropWhile_append_of_pos all]
  cases rest with
  | nil => simp
  | cons c rest =>
    have other := stops c rfl
    simp [other]

variable {whole fraction : List Char}

theorem readDecimal_whole (all : ∀ c ∈ whole, c.isDigit = true) (visible : whole ≠ []) :
    readDecimal whole = some (Nat.ofDigitChars 10 whole 0 : ℚ) := by
  obtain ⟨taken, dropped⟩ := @takeWhile_front whole [] all (by simp)
  rw [List.append_nil] at taken dropped
  simp only [readDecimal, taken, dropped, visible, ↓reduceIte]

theorem readDecimal_point (all : ∀ c ∈ whole, c.isDigit = true) (visible : whole ≠ [])
    (others : ∀ c ∈ fraction, c.isDigit = true) :
    readDecimal (whole ++ '.' :: fraction) =
      some (Nat.ofDigitChars 10 (whole ++ fraction) 0 / 10 ^ fraction.length : ℚ) := by
  obtain ⟨taken, dropped⟩ := @takeWhile_front whole ('.' :: fraction) all
    (fun c same => by cases same; rfl)
  simp only [readDecimal, taken, dropped, visible, ↓reduceIte, List.all_eq_true.mpr others]

theorem readDecimal_zeros (all : ∀ c ∈ whole, c.isDigit = true) (visible : whole ≠ []) (k : ℕ) :
    readDecimal (whole ++ ('.' :: List.replicate k '0')) =
      some (Nat.ofDigitChars 10 whole 0 : ℚ) := by
  rw [readDecimal_point all visible fun c member => by rw [List.eq_of_mem_replicate member]; rfl,
    Nat.ofDigitChars_append, Nat.ofDigitChars_replicate_zero, List.length_replicate]
  push_cast
  rw [mul_div_cancel_left₀ _ (by positivity)]

theorem tenfold_take_le {digits : List Char} {k : ℕ} (shorter : k < digits.length) :
    10 * Nat.ofDigitChars 10 (digits.take k) 0 ≤ Nat.ofDigitChars 10 digits 0 := by
  have split : Nat.ofDigitChars 10 digits 0 =
      10 ^ (digits.drop k).length * Nat.ofDigitChars 10 (digits.take k) 0 +
        Nat.ofDigitChars 10 (digits.drop k) 0 := by
    rw [← Nat.ofDigitChars_eq_ofDigitChars_zero, ← Nat.ofDigitChars_append, List.take_append_drop]
  have power : 10 ≤ 10 ^ (digits.drop k).length := by
    apply Nat.le_self_pow
    rw [List.length_drop]
    omega
  rw [split]
  exact Nat.le_add_right_of_le (Nat.mul_le_mul_right _ power)

end Digits

section FixedPoint
variable {places units k : ℕ}

theorem readDecimal_fixedPoint (some : 0 < places) :
    readDecimal (fixedPoint places units) = Option.some (units / 10 ^ places : ℚ) := by
  have small : units % 10 ^ places < 10 ^ places := Nat.mod_lt _ (by positivity)
  rw [fixedPoint, readDecimal_point (fun _ => isDigit_toDigits) Nat.toDigits_ne_nil fun _ => isDigit_padded,
    Nat.ofDigitChars_append, ofDigitChars_padded, Nat.ofDigitChars_ten_toDigits,
    length_padded some small, Nat.div_add_mod]

/-- What is cut off behind the point does not matter when it is zero. -/
theorem readDecimal_take_whole (whole : 10 ^ places ∣ units)
    (fits : (Nat.toDigits 10 (units / 10 ^ places)).length ≤ k) :
    readDecimal ((fixedPoint places units).take k) = some (units / 10 ^ places : ℚ) := by
  obtain ⟨n, rfl⟩ := whole
  have positive : 0 < 10 ^ places := by positivity
  have value : ((10 ^ places * n : ℕ) : ℚ) / 10 ^ places = n := by
    push_cast
    rw [mul_div_cancel_left₀ _ (by positivity)]
  rw [Nat.mul_div_cancel_left n positive] at fits
  rw [value, fixedPoint, Nat.mul_div_cancel_left n positive, Nat.mul_mod_right, List.take_append,
    List.take_of_length_le fits]
  have digits := @isDigit_toDigits n
  have visible : Nat.toDigits 10 n ≠ [] := Nat.toDigits_ne_nil
  cases k - (Nat.toDigits 10 n).length with
  | zero => rw [List.take_zero, List.append_nil, readDecimal_whole (fun _ => digits) visible,
      Nat.ofDigitChars_ten_toDigits]
  | succ more =>
    have zeros : (padded places 0).take more = List.replicate (min more (padded places 0).length) '0' := by
      have all : ∀ c ∈ padded places 0, c = '0' := by
        intro c member
        rcases List.mem_append.mp member with zero | digit
        · exact List.eq_of_mem_replicate zero
        · rw [Nat.toDigits_zero] at digit
          exact List.mem_singleton.mp digit
      rw [List.eq_replicate_of_mem all, List.take_replicate, List.length_replicate]
    rw [List.take_succ_cons, zeros, readDecimal_zeros (fun _ => digits) visible,
      Nat.ofDigitChars_ten_toDigits]

theorem readDecimal_take_short (some : 0 < k)
    (cut : k < (Nat.toDigits 10 (units / 10 ^ places)).length) :
    ∃ value : ℕ, readDecimal ((fixedPoint places units).take k) = Option.some (value : ℚ) ∧
      10 * value ≤ units / 10 ^ places := by
  have digits := Nat.ofDigitChars_ten_toDigits (n := units / 10 ^ places)
  have loses := tenfold_take_le cut
  rw [digits] at loses
  refine ⟨_, ?_, loses⟩
  rw [fixedPoint, List.take_append_of_le_length cut.le]
  apply readDecimal_whole
  · exact fun _ member => isDigit_toDigits (List.mem_of_mem_take member)
  · intro none
    rcases List.take_eq_nil_iff.mp none with rfl | none
    · exact absurd some (lt_irrefl 0)
    · exact Nat.toDigits_ne_nil none

end FixedPoint

structure Number where
  negative : Bool
  written : ℚ
  held : Option ℚ
  nonneg : 0 ≤ written
  nearest : Nearest written held

namespace Number

def exact (negative : Bool) (x : ℚ) (double : IsDouble x) (finite : x < overflow) : Number :=
  ⟨negative, x, some x, double.nonneg, double.nearest finite⟩

variable (number : Number)

def value : ℚ := if number.negative then -number.written else number.written

def magnitudeText : List Char :=
  match number.held with
  | none => "inf".toList
  | some held => fixedPoint 6 (roundHalfEven (held * 10 ^ 6))

/-- `%f` of the double. -/
def rendering : List Char :=
  if number.negative then '-' :: number.magnitudeText else number.magnitudeText

def FitsPoint (room : ℕ) : Prop :=
  number.written < 10 ^ room ∧ ∃ held, number.held = some held ∧
    ∃ units : ℕ, number.written = units / 10 ^ 6 ∧ RoundsTo (held * 10 ^ 6) units

variable {number} {held : ℚ} {room : ℕ}

/-- A double with more digits than sixteen is natural, and what is printed are its own digits. -/
theorem rounding_large {units : ℕ} (double : IsDouble held) (rounds : RoundsTo (held * 10 ^ 6) units)
    (large : 10 ^ 16 ≤ units / 10 ^ 6) :
    ∃ n : ℕ, held = n ∧ units = 10 ^ 6 * n ∧ IsDouble (held / 2) := by
  have close : |held * 10 ^ 6 - units| ≤ 1 / 2 := by
    rcases rounds with less | ⟨same, _⟩
    · exact less.le
    · exact same.le
  have many : (10 : ℚ) ^ 22 ≤ units := by
    have whole : 10 ^ 22 ≤ units := by omega
    exact_mod_cast whole
  -- From 2 ^ 53 on every double is natural.
  have least : (2 : ℚ) ^ 53 ≤ held := by
    have below := (abs_le.mp close).1
    linarith
  obtain ⟨⟨n, rfl⟩, half⟩ := double.large least
  refine ⟨n, rfl, ?_, half⟩
  have own : RoundsTo ((n : ℚ) * 10 ^ 6) (10 ^ 6 * n) := by
    have none : (n : ℚ) * 10 ^ 6 - ((10 ^ 6 * n : ℕ) : ℚ) = 0 := by
      push_cast
      ring
    left
    rw [none, abs_zero]
    norm_num
  exact rounds.unique own

theorem large_of_digits {n : ℕ} (long : 16 < (Nat.toDigits 10 n).length) : 10 ^ 16 ≤ n := by
  by_contra small
  have short := (Nat.length_toDigits_le_iff (k := 16) (by omega) (by omega)).mpr (not_le.mp small)
  omega

theorem readDecimal_rounded {units : ℕ} (double : IsDouble held) (rounds : RoundsTo (held * 10 ^ 6) units)
    (roomy : 23 ≤ room) (fits : (Nat.toDigits 10 (units / 10 ^ 6)).length ≤ room) :
    readDecimal ((fixedPoint 6 units).take room) = some (units / 10 ^ 6 : ℚ) := by
  -- A text that has to be cut is so long that its double has no places behind the point.
  by_cases all : (fixedPoint 6 units).length ≤ room
  · rw [List.take_of_length_le all, readDecimal_fixedPoint (by omega)]
  · have digits : 16 < (Nat.toDigits 10 (units / 10 ^ 6)).length := by
      rw [fixedPoint, List.length_append, List.length_cons, length_padded (by omega)
        (Nat.mod_lt _ (by positivity))] at all
      omega
    obtain ⟨n, _, whole, _⟩ := rounding_large double rounds (large_of_digits digits)
    exact readDecimal_take_whole ⟨n, whole⟩ fits

/-- What is left of digits that do not fit is no number whose double they are. -/
theorem readDecimal_cut {written : ℚ} {units : ℕ} (nearest : Nearest written (some held))
    (rounds : RoundsTo (held * 10 ^ 6) units) (roomy : 23 ≤ room)
    (cut : room < (Nat.toDigits 10 (units / 10 ^ 6)).length) :
    readDecimal ((fixedPoint 6 units).take room) ≠ some written := by
  obtain ⟨_, double, closest⟩ := nearest
  obtain ⟨value, read, tenth⟩ := readDecimal_take_short (by omega) cut
  have large : 10 ^ 16 ≤ units / 10 ^ 6 := large_of_digits (by omega)
  obtain ⟨n, rfl, rfl, half⟩ := rounding_large double rounds large
  rw [Nat.mul_div_cancel_left n (by positivity)] at tenth large
  rw [read, ne_eq, Option.some_inj]
  intro same
  -- Half of the double would be nearer than the double.
  have nearer := closest _ half
  have positive : (0 : ℚ) < n := by
    have some : 0 < n := Nat.lt_of_lt_of_le (by positivity) large
    exact_mod_cast some
  have bound : 10 * written ≤ n := by
    rw [← same]
    exact_mod_cast tenth
  rw [abs_of_nonneg (by linarith), abs_of_nonneg (by linarith)] at nearer
  linarith

theorem magnitudeText_reads_iff (roomy : 23 ≤ room) :
    readDecimal (number.magnitudeText.take room) = some number.written ↔ number.FitsPoint room := by
  have nearest := number.nearest
  cases finite : number.held with
  | none =>
    have text : (number.magnitudeText.take room) = "inf".toList := by
      rw [magnitudeText, finite]
      exact List.take_of_length_le (Nat.le_trans (by decide) roomy)
    rw [text]
    constructor
    · intro read
      cases read
    · rintro ⟨_, held, other, _⟩
      rw [finite] at other
      cases other
  | some held =>
    rw [finite] at nearest
    have rounds : RoundsTo (held * 10 ^ 6) (roundHalfEven (held * 10 ^ 6)) :=
      roundsTo_roundHalfEven (mul_nonneg nearest.2.1.nonneg (by norm_num))
    rw [magnitudeText, finite]
    dsimp only
    generalize roundHalfEven (held * 10 ^ 6) = units at rounds
    have few : (Nat.toDigits 10 (units / 10 ^ 6)).length ≤ room ↔ (units / 10 ^ 6 : ℚ) < 10 ^ room := by
      rw [Nat.length_toDigits_le_iff (by omega) (by omega), Nat.div_lt_iff_lt_mul (by positivity),
        div_lt_iff₀ (by positivity)]
      exact_mod_cast Iff.rfl
    have unique : number.FitsPoint room ↔
        (units / 10 ^ 6 : ℚ) < 10 ^ room ∧ number.written = units / 10 ^ 6 := by
      constructor
      · rintro ⟨small, other, same, n, written, roundsToo⟩
        cases finite.symm.trans same
        rw [rounds.unique roundsToo]
        exact ⟨written ▸ small, written⟩
      · rintro ⟨small, written⟩
        exact ⟨written ▸ small, held, finite, units, written, rounds⟩
    rw [unique, ← few]
    -- Either only places behind the point are cut, or some of the digits before it.
    by_cases fits : (Nat.toDigits 10 (units / 10 ^ 6)).length ≤ room
    · rw [readDecimal_rounded nearest.2.1 rounds roomy fits, Option.some_inj, and_iff_right fits, eq_comm]
    · have lost := readDecimal_cut nearest rounds roomy (not_le.mp fits)
      exact ⟨fun same => absurd same lost, fun both => absurd both.1 fits⟩

/-- A rendering that is cut denotes the number exactly if the sign and the digits before the point
are left of it. -/
theorem rendering_reads_iff (roomy : 24 ≤ room) :
    readSigned (number.rendering.take room) = some number.value ↔
      number.FitsPoint (if number.negative then room - 1 else room) := by
  unfold rendering value
  cases sign : number.negative with
  | true =>
    obtain ⟨less, rfl⟩ := Nat.exists_eq_succ_of_ne_zero (show room ≠ 0 by omega)
    simp only [↓reduceIte, List.take_succ_cons, readSigned]
    rw [Nat.succ_sub_one, ← magnitudeText_reads_iff (by omega)]
    cases readDecimal (number.magnitudeText.take less) <;> simp
  | false =>
    have unsigned : ∀ rest, number.magnitudeText.take room ≠ '-' :: rest := by
      intro rest same
      have first : number.magnitudeText.head? = some '-' := by
        have kept := List.head?_take (l := number.magnitudeText) (i := room)
        rw [if_neg (by omega), same] at kept
        exact kept.symm
      unfold magnitudeText at first
      split at first
      · cases first
      · next held _ =>
        rw [fixedPoint, List.head?_append_of_ne_nil _ Nat.toDigits_ne_nil] at first
        have digit := isDigit_toDigits (List.mem_of_mem_head? first)
        cases digit
    simp only [Bool.false_eq_true, ↓reduceIte]
    rw [readSigned]
    · exact magnitudeText_reads_iff (by omega)
    · exact unsigned

end Number

end ClrOci.Foundation
