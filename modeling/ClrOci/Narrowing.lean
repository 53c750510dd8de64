import ClrOci.Version

/-! Versions that differ in one number, and the conversions of that number. -/

set_option autoImplicit false

namespace ClrOci

open Foundation

/-- A version with a place for a number: everything that two versions share which differ in one
numeric field. -/
inductive VersionContext where
  | atMajor (minor patch : Numeral) (preRelease metadata : Option String)
      (plain : ∀ text ∈ preRelease, '+' ∉ text.toList)
  | atMinor (major patch : Numeral) (preRelease metadata : Option String)
      (plain : ∀ text ∈ preRelease, '+' ∉ text.toList)
  | atPatch (major minor : Numeral) (preRelease metadata : Option String)
      (plain : ∀ text ∈ preRelease, '+' ∉ text.toList)
  | atIdentifier (major minor patch : Numeral) (before after : List String) (metadata : Option String)
      (plain : ∀ field ∈ before ++ after, '.' ∉ field.toList ∧ '+' ∉ field.toList)

section Identifier
variable {before after : List String} {number number' : Numeral}

theorem fields_plain (plain : ∀ field ∈ before ++ after, '.' ∉ field.toList ∧ '+' ∉ field.toList)
    (number : Numeral) :
    ∀ field ∈ before ++ number.text :: after, '.' ∉ field.toList ∧ '+' ∉ field.toList := by
  intro field member
  rcases List.mem_append.mp member with early | late
  · exact plain field (List.mem_append_left _ early)
  · rcases List.mem_cons.mp late with rfl | later
    · exact ⟨number.apart (by decide), number.apart (by decide)⟩
    · exact plain field (List.mem_append_right _ later)

theorem preReleaseOrder_numeral
    (plain : ∀ field ∈ before ++ after, '.' ∉ field.toList ∧ '+' ∉ field.toList) :
    preReleaseOrder (strjoin "." (before ++ number.text :: after))
      (strjoin "." (before ++ number'.text :: after)) = fieldOrder number.text number'.text := by
  have fields (number : Numeral) : strsplit (strjoin "." (before ++ number.text :: after)) '.' none =
      before ++ number.text :: after :=
    strsplit_strjoin (fun field member => (fields_plain plain number field member).1)
      (strjoin_visible (List.mem_append_right _ List.mem_cons_self) number.visible)
  rw [preReleaseOrder, fields, fields, compareLex_append fieldOrder_self, List.compareLex_cons_cons,
    compareLex_self fieldOrder_self, Ordering.then_eq]

end Identifier

namespace VersionContext

def fill : VersionContext → Numeral → WrittenVersion
  | .atMajor minor patch preRelease metadata plain, number =>
    ⟨number, minor, patch, preRelease, metadata, plain⟩
  | .atMinor major patch preRelease metadata plain, number =>
    ⟨major, number, patch, preRelease, metadata, plain⟩
  | .atPatch major minor preRelease metadata plain, number =>
    ⟨major, minor, number, preRelease, metadata, plain⟩
  | .atIdentifier major minor patch before after metadata plain, number =>
    ⟨major, minor, patch, some (strjoin "." (before ++ number.text :: after)), metadata, by
      rintro _ ⟨⟩
      apply not_mem_strjoin (by decide)
      exact fun field member => (fields_plain plain number field member).2⟩

-- The place of a number among the values of an `int`.
def narrowed (number : Nat) : Nat := (number + 2147483648) % 4294967296

/-- The conversion to an `int` keeps the order of the numbers. -/
def KeepsOrder (first second : Nat) : Prop :=
  (first < second → narrowed first < narrowed second) ∧ (second < first → narrowed second < narrowed first)

/-- The difference of the numbers keeps its sign as an `int`. -/
def KeepsSign (first second : Nat) : Prop :=
  (first < second → 0 < (second - first) % 4294967296 ∧ (second - first) % 4294967296 ≤ 2147483648) ∧
    (second < first → 0 < (first - second) % 4294967296 ∧ (first - second) % 4294967296 < 2147483648)

def Keeps : VersionContext → Nat → Nat → Prop
  | .atMajor .., _, _ => True
  | .atMinor .., _, _ => True
  | .atPatch .., first, second => KeepsOrder first second
  | .atIdentifier .., first, second => KeepsSign first second

theorem bmod_eq (n : Nat) : (n : Int).bmod 4294967296 = narrowed n - 2147483648 := by
  rw [Int.bmod_def, narrowed]
  split <;> omega

theorem narrowed_iff {first second : Nat} :
    compare ((first : Int).bmod 4294967296) ((second : Int).bmod 4294967296) = compare first second ↔
      KeepsOrder first second := by
  rw [bmod_eq, bmod_eq, KeepsOrder]
  rcases Nat.lt_trichotomy first second with less | rfl | more
  · rw [Nat.compare_eq_lt.mpr less, Int.compare_eq_lt]
    omega
  · rw [Nat.compare_eq_eq.mpr rfl, Int.compare_eq_eq]
    omega
  · rw [Nat.compare_eq_gt.mpr more, Int.compare_eq_gt]
    omega

theorem difference_iff {first second : Nat} :
    compare (((first : Int) - second).bmod 4294967296) 0 = compare first second ↔
      KeepsSign first second := by
  rw [Int.bmod_def, KeepsSign]
  rcases Nat.lt_trichotomy first second with less | rfl | more
  · rw [Nat.compare_eq_lt.mpr less, Int.compare_eq_lt]
    split <;> omega
  · rw [Nat.compare_eq_eq.mpr rfl, Int.compare_eq_eq]
    split <;> omega
  · rw [Nat.compare_eq_gt.mpr more, Int.compare_eq_gt]
    split <;> omega

section Filled
variable {number number' : Numeral}

theorem atol_of_fits (fits : number.value ≤ llongMax) : atol number.text = number.value := by
  rw [Numeral.atol_text, Nat.min_eq_left fits]

theorem atoi_of_fits (fits : number.value ≤ llongMax) :
    (atoi number.text).toInt = (number.value : Int).bmod 4294967296 := by
  rw [atoi, atol_of_fits fits, Int32.toInt_ofInt]

theorem fieldOrder_numeral (fits : number.value ≤ llongMax) (fits' : number'.value ≤ llongMax) :
    fieldOrder number.text number'.text =
      compare (((number.value : Int) - number'.value).bmod 4294967296) 0 := by
  have numeric (number : Numeral) : stringIsNumeric number.text = true :=
    List.all_eq_true.mpr number.digits
  rw [fieldOrder, numeric, numeric, atol_of_fits fits, atol_of_fits fits']
  rfl

def Orders (context : VersionContext) (number number' : Numeral) : Prop :=
  (semverCmp (context.fill number).text (context.fill number').text).map outcome =
    some (compare number.value number'.value)

/-- Versions that differ in one number are compared by it exactly if its conversion keeps the order. -/
theorem semverCmp_fill_iff (context : VersionContext) (fits : number.value ≤ llongMax)
    (fits' : number'.value ≤ llongMax) :
    context.Orders number number' ↔ context.Keeps number.value number'.value := by
  have same {A : Type} [Ord A] [Std.ReflOrd A] (value : A) : compare value value = .eq :=
    Std.ReflOrd.compare_self
  rw [Orders, WrittenVersion.semverCmp_text, Option.some_inj, WrittenVersion.coreOrder]
  cases context with
  | atMajor minor patch preRelease metadata plain =>
    simp only [fill, WrittenVersion.seen, seenOrder_self, same, Ordering.then_eq, atol_of_fits fits,
      atol_of_fits fits', compare_natCast, Keeps]
  | atMinor major patch preRelease metadata plain =>
    simp only [fill, WrittenVersion.seen, seenOrder_self, same, Ordering.then_eq, Ordering.eq_then,
      atol_of_fits fits, atol_of_fits fits', compare_natCast, Keeps]
  | atPatch major minor preRelease metadata plain =>
    simp only [fill, WrittenVersion.seen, seenOrder_self, same, Ordering.then_eq, Ordering.eq_then,
      Keeps]
    rw [atoi_of_fits fits, atoi_of_fits fits', narrowed_iff]
  | atIdentifier major minor patch before after metadata plain =>
    simp only [fill, WrittenVersion.seen, seenOrder, same, Ordering.eq_then, Keeps,
      preReleaseOrder_numeral plain, fieldOrder_numeral fits fits']
    exact difference_iff

end Filled

def patchPlace : VersionContext := .atPatch (.ofNat 0) (.ofNat 0) none none (by simp)

def identifierPlace : VersionContext :=
  .atIdentifier (.ofNat 0) (.ofNat 0) (.ofNat 0) ["rc"] [] none (by decide)

theorem semverCmp_fill_identifier :
    (semverCmp "0.0.0-rc.2147483649" "0.0.0-rc.2").map outcome = some .gt := by
  have fits (n : Nat) (small : n ≤ llongMax) : (Numeral.ofNat n).value ≤ llongMax := by
    rwa [Numeral.ofNat_value]
  have keeps : identifierPlace.Keeps (Numeral.ofNat 2147483649).value (Numeral.ofNat 2).value := by
    rw [Numeral.ofNat_value, Numeral.ofNat_value]
    constructor <;> decide
  have compared := (semverCmp_fill_iff identifierPlace (fits 2147483649 (by decide))
    (fits 2 (by decide))).mpr keeps
  rw [Orders, Numeral.ofNat_value, Numeral.ofNat_value] at compared
  exact compared

/-- A patch or an identifier that is larger by 2 ^ 32 hides the difference, and one by 2 ^ 31 turns
it round. -/
theorem narrowed_difference_lost :
    (semverCmp "0.0.4294967296" "0.0.0" = some 0 ∧ semverCmp "0.0.2147483648" "0.0.0" = some (-1)) ∧
      (semverCmp "0.0.0-rc.4294967296" "0.0.0-rc.0" = some 0 ∧
        (semverCmp "0.0.0-rc.2147483648" "0.0.0-rc.0").map outcome = some .lt) ∧
      ¬ patchPlace.Orders (.ofNat 4294967296) (.ofNat 0) ∧
        ¬ identifierPlace.Orders (.ofNat 2147483648) (.ofNat 0) := by
  have lost (context : VersionContext) (first second : Nat) (verdict : Ordering)
      (run : (semverCmp (context.fill (.ofNat first)).text (context.fill (.ofNat second)).text).map outcome =
        some verdict) (other : verdict ≠ compare first second) :
      ¬ context.Orders (.ofNat first) (.ofNat second) := by
    intro orders
    rw [Orders, run, Numeral.ofNat_value, Numeral.ofNat_value] at orders
    exact other (Option.some.inj orders)
  refine ⟨by decide +kernel, by decide +kernel, ?_, ?_⟩
  · exact lost patchPlace 4294967296 0 .eq (by decide +kernel) (by decide)
  · exact lost identifierPlace 2147483648 0 .lt (by decide +kernel) (by decide)

end VersionContext

end ClrOci
