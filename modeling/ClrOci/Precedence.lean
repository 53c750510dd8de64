import ClrOci.Version

/-! The precedence of semantic versions, and where the comparison departs from it. -/

set_option autoImplicit false

namespace ClrOci

open Foundation

structure Word where
  text : String
  letters : ∀ c ∈ text.toList, (c.isAlphanum || c == '-') = true
  mixed : stringIsNumeric text = false

inductive Identifier where
  | numeric (value : Nat)
  | alphanumeric (word : Word)

/-- A semantic version without metadata. A version that is no pre-release has no identifiers. -/
structure Version where
  major : Nat
  minor : Nat
  patch : Nat
  preRelease : List Identifier

@[ext] theorem Word.ext {first second : Word} (same : first.text = second.text) : first = second := by
  cases first
  cases second
  cases same
  rfl

theorem Word.visible (word : Word) : word.text ≠ "" := by
  intro none
  have mixed := word.mixed
  rw [none] at mixed
  cases mixed

namespace Identifier

def text : Identifier → String
  | .numeric value => value.repr
  | .alphanumeric word => word.text

def order : Identifier → Identifier → Ordering
  | .numeric first, .numeric second => compare first second
  | .numeric _, .alphanumeric _ => .lt
  | .alphanumeric _, .numeric _ => .gt
  | .alphanumeric first, .alphanumeric second => compare first.text.toList second.text.toList

instance : Std.TransCmp order where
  eq_swap {first second} := by
    cases first <;> cases second
    · exact Std.OrientedOrd.eq_swap
    · rfl
    · rfl
    · exact Std.OrientedOrd.eq_swap
  isLE_trans {first second third} less less' := by
    cases first <;> cases second <;> cases third
    · exact Std.TransOrd.isLE_trans less less'
    · rfl
    · cases less'
    · rfl
    · cases less
    · cases less
    · cases less'
    · exact Std.TransOrd.isLE_trans less less'

theorem order_eq_iff {first second : Identifier} : order first second = .eq ↔ first = second := by
  cases first <;> cases second
  · simp [order]
  · simp [order]
  · simp [order]
  · simp [order, Word.ext_iff, String.toList_inj]

def textOrder : Identifier → Identifier → Ordering
  | .numeric first, .numeric second => compare first second
  | first, second => compare first.text.toList second.text.toList

/-- A number stays below the bound of the versions that are compared. -/
def Small : Identifier → Prop
  | .numeric value => value < 2147483648
  | .alphanumeric _ => True

def Misplaced : Identifier → Identifier → Prop
  | .numeric value, .alphanumeric word => compare word.text.toList value.repr.toList = .lt
  | .alphanumeric word, .numeric value => compare word.text.toList value.repr.toList = .lt
  | .numeric _, .numeric _ => False
  | .alphanumeric _, .alphanumeric _ => False

theorem repr_numeric (value : Nat) : stringIsNumeric value.repr = true :=
  List.all_eq_true.mpr (Numeral.ofNat value).digits

theorem text_apart {c : Char} (identifier : Identifier) (other : c.isAlphanum = false)
    (noHyphen : c ≠ '-') : c ∉ identifier.text.toList := by
  intro member
  cases identifier with
  | numeric value =>
    have digit : c.isDigit = true := (Numeral.ofNat value).digits c member
    simp [Char.isAlphanum, digit] at other
  | alphanumeric word =>
    have letter := word.letters c member
    simp [other, noHyphen] at letter

theorem text_visible (identifier : Identifier) : identifier.text ≠ "" := by
  cases identifier with
  | numeric value => exact (Numeral.ofNat value).visible
  | alphanumeric word => exact word.visible

theorem mixed_apart (value : Nat) (word : Word) : compare word.text.toList value.repr.toList ≠ .eq := by
  intro same
  have numeric := repr_numeric value
  rw [← String.toList_inj.mp (Std.LawfulEqOrd.eq_of_compare same), word.mixed] at numeric
  cases numeric

theorem textOrder_swap (first second : Identifier) :
    textOrder first second = (textOrder second first).swap := by
  cases first <;> cases second <;> exact Std.OrientedOrd.eq_swap

theorem textOrder_eq_iff {first second : Identifier} : textOrder first second = .eq ↔ first = second := by
  cases first with
  | numeric value =>
    cases second with
    | numeric => simp [textOrder]
    | alphanumeric word =>
      rw [textOrder_swap, Ordering.swap_eq_eq]
      exact ⟨fun same => absurd same (mixed_apart value word), fun same => by cases same⟩
  | alphanumeric word =>
    cases second with
    | numeric value => exact ⟨fun same => absurd same (mixed_apart value word), fun same => by cases same⟩
    | alphanumeric => simp [textOrder, text, Word.ext_iff, String.toList_inj]

theorem textOrder_ne_order_iff {first second : Identifier} :
    textOrder first second ≠ order first second ↔ Misplaced first second := by
  cases first with
  | numeric value =>
    cases second with
    | numeric => simp [textOrder, order, Misplaced]
    | alphanumeric word =>
      have apart := mixed_apart value word
      rw [textOrder_swap]
      simp only [textOrder, text, order, Misplaced]
      cases found : compare word.text.toList value.repr.toList with
      | lt => decide
      | eq => exact absurd found apart
      | gt => decide
  | alphanumeric word =>
    cases second with
    | alphanumeric => simp [textOrder, text, order, Misplaced]
    | numeric value =>
      have apart := mixed_apart value word
      simp only [textOrder, text, order, Misplaced]
      cases found : compare word.text.toList value.repr.toList with
      | lt => decide
      | eq => exact absurd found apart
      | gt => decide

theorem atol_repr {n : Nat} (small : n < 2147483648) : atol n.repr = n := by
  rw [← Numeral.ofNat_text, Numeral.atol_text, Numeral.ofNat_value, llongMax]
  omega

theorem atoi_repr {n : Nat} (small : n < 2147483648) : (atoi n.repr).toInt = n := by
  rw [atoi, atol_repr small, Int32.toInt_ofInt_of_le]
  · omega
  · omega

/-- The fields of two pre-releases are compared as the texts are, as long as the numbers are small. -/
theorem fieldOrder_text {first second : Identifier} (small : first.Small) (small' : second.Small) :
    fieldOrder first.text second.text = textOrder first second := by
  cases first with
  | numeric value =>
    cases second with
    | numeric value' =>
      have inside : ((value : Int) - value').bmod 4294967296 = value - value' := by
        apply Int.bmod_eq_of_le
        · simp only [Small] at small small'
          omega
        · simp only [Small] at small small'
          omega
      rw [fieldOrder, text, text, repr_numeric, repr_numeric, atol_repr small, atol_repr small', inside,
        compare_sub, compare_natCast]
      rfl
    | alphanumeric word => simp [fieldOrder, text, word.mixed, textOrder]
  | alphanumeric word => cases second <;> simp [fieldOrder, text, word.mixed, textOrder]

end Identifier

open Identifier

section Order
variable {cmp : Identifier → Identifier → Ordering}

def preReleasesBy (cmp : Identifier → Identifier → Ordering) :
    List Identifier → List Identifier → Ordering
  | [], [] => .eq
  | [], _ :: _ => .gt
  | _ :: _, [] => .lt
  | first, second => first.compareLex cmp second

instance [Std.OrientedCmp cmp] : Std.OrientedCmp (preReleasesBy cmp) where
  eq_swap {first second} := by
    cases first <;> cases second
    · rfl
    · rfl
    · rfl
    · exact @Std.OrientedCmp.eq_swap _ (List.compareLex cmp) _ _ _

instance [Std.TransCmp cmp] : Std.TransCmp (preReleasesBy cmp) where
  isLE_trans {first second third} less less' := by
    cases first <;> cases second <;> cases third
    · rfl
    · cases less'
    · rfl
    · cases less
    · rfl
    · cases less'
    · rfl
    · exact @Std.TransCmp.isLE_trans _ (List.compareLex cmp) _ _ _ _ less less'

def versionsBy (cmp : Identifier → Identifier → Ordering) (first second : Version) : Ordering :=
  (compare first.major second.major).then ((compare first.minor second.minor).then
    ((compare first.patch second.patch).then
      (preReleasesBy cmp first.preRelease second.preRelease)))

instance [Std.OrientedCmp cmp] : Std.OrientedCmp (versionsBy cmp) :=
  have : Std.OrientedCmp fun first second : Version =>
      preReleasesBy cmp first.preRelease second.preRelease := orientedCmp_on Version.preRelease
  inferInstanceAs (Std.OrientedCmp (compareLex (compareOn Version.major)
    (compareLex (compareOn Version.minor) (compareLex (compareOn Version.patch)
      fun first second : Version => preReleasesBy cmp first.preRelease second.preRelease))))

instance [Std.TransCmp cmp] : Std.TransCmp (versionsBy cmp) :=
  have : Std.TransCmp fun first second : Version =>
      preReleasesBy cmp first.preRelease second.preRelease := transCmp_on Version.preRelease
  inferInstanceAs (Std.TransCmp (compareLex (compareOn Version.major)
    (compareLex (compareOn Version.minor) (compareLex (compareOn Version.patch)
      fun first second : Version => preReleasesBy cmp first.preRelease second.preRelease))))

end Order

namespace Version

def precedence (first second : Version) : Ordering := versionsBy order first second

def preReleaseText (identifiers : List Identifier) : String := strjoin "." (identifiers.map Identifier.text)

theorem preReleaseText_plain (identifiers : List Identifier) :
    '+' ∉ (preReleaseText identifiers).toList := by
  apply not_mem_strjoin (by decide)
  intro piece member
  obtain ⟨identifier, _, rfl⟩ := List.mem_map.mp member
  exact identifier.text_apart (by decide) (by decide)

theorem strsplit_preReleaseText {identifiers : List Identifier} (some : identifiers ≠ []) :
    strsplit (preReleaseText identifiers) '.' none = identifiers.map Identifier.text := by
  obtain ⟨identifier, rest, rfl⟩ := List.exists_cons_of_ne_nil some
  have apart : ∀ piece ∈ (identifier :: rest).map Identifier.text, '.' ∉ piece.toList := by
    intro piece member
    obtain ⟨word, _, rfl⟩ := List.mem_map.mp member
    exact word.text_apart (by decide) (by decide)
  have visible : strjoin "." ((identifier :: rest).map Identifier.text) ≠ "" :=
    strjoin_visible List.mem_cons_self identifier.text_visible
  exact strsplit_strjoin apart visible

def preReleasePart : List Identifier → Option String
  | [] => none
  | identifiers => some (preReleaseText identifiers)

def written (version : Version) (metadata : Option String) : WrittenVersion where
  major := .ofNat version.major
  minor := .ofNat version.minor
  patch := .ofNat version.patch
  preRelease := preReleasePart version.preRelease
  metadata := metadata
  plain := by
    intro text given
    cases identifiers : version.preRelease with
    | nil =>
      rw [identifiers] at given
      cases given
    | cons =>
      rw [identifiers] at given
      cases given
      exact preReleaseText_plain _

def text (version : Version) : String := (version.written none).text

structure Small (version : Version) : Prop where
  major : version.major < 2147483648
  minor : version.minor < 2147483648
  patch : version.patch < 2147483648
  preRelease : ∀ identifier ∈ version.preRelease, identifier.Small

def compared (first second : Version) : Option Ordering := (semverCmp first.text second.text).map outcome

/-- Versions with the same numbers have no misplaced identifier where their pre-releases first differ. -/
def InOrder (first second : Version) : Prop :=
  first.major = second.major → first.minor = second.minor → first.patch = second.patch →
    ¬ FirstPair Misplaced first.preRelease second.preRelease

section Compared
variable {first second third : Version}

theorem coreOrder_written {metadata metadata' : Option String} (small : first.Small) (small' : second.Small) :
    (first.written metadata).coreOrder (second.written metadata') =
      (compare first.major second.major).then
        ((compare first.minor second.minor).then (compare first.patch second.patch)) := by
  simp only [WrittenVersion.coreOrder, written, Numeral.ofNat_text, atol_repr small.major,
    atol_repr small.minor, atol_repr small'.major, atol_repr small'.minor, atoi_repr small.patch,
    atoi_repr small'.patch, compare_natCast]

theorem seen_written_none : (first.written none).seen = preReleasePart first.preRelease := by
  cases identifiers : first.preRelease <;> simp [WrittenVersion.seen, written, identifiers, preReleasePart]

theorem seenOrder_preReleasePart {identifiers identifiers' : List Identifier}
    (small : ∀ identifier ∈ identifiers, identifier.Small)
    (small' : ∀ identifier ∈ identifiers', identifier.Small) :
    seenOrder (preReleasePart identifiers) (preReleasePart identifiers') =
      preReleasesBy textOrder identifiers identifiers' := by
  cases given : identifiers with
  | nil => cases identifiers' <;> rfl
  | cons word words =>
    cases given' : identifiers' with
    | nil => rfl
    | cons word' words' =>
      subst given given'
      have fields := strsplit_preReleaseText (List.cons_ne_nil word words)
      have fields' := strsplit_preReleaseText (List.cons_ne_nil word' words')
      change preReleaseOrder _ _ = List.compareLex textOrder _ _
      rw [preReleaseOrder, fields, fields', compareLex_map]
      exact compareLex_congr fun x member y member' => fieldOrder_text (small x member) (small' y member')

theorem compared_of_small (small : first.Small) (small' : second.Small) :
    compared first second = some (versionsBy textOrder first second) := by
  rw [compared, text, text, WrittenVersion.semverCmp_text, coreOrder_written small small', seen_written_none,
    seen_written_none, seenOrder_preReleasePart small.preRelease small'.preRelease, versionsBy,
    Ordering.then_assoc, Ordering.then_assoc]

theorem preReleasesBy_eq_iff {identifiers identifiers' : List Identifier} :
    preReleasesBy textOrder identifiers identifiers' = preReleasesBy order identifiers identifiers' ↔
      ¬ FirstPair Misplaced identifiers identifiers' := by
  have misplaced : (fun x y => textOrder x y ≠ order x y) = Misplaced := by
    funext x y
    exact propext textOrder_ne_order_iff
  cases identifiers with
  | nil => exact ⟨fun _ => not_firstPair_nil_left, fun _ => by cases identifiers' <;> rfl⟩
  | cons =>
    cases identifiers' with
    | nil => exact ⟨fun _ => not_firstPair_nil_right, fun _ => rfl⟩
    | cons =>
      rw [← misplaced]
      apply compareLex_eq_iff
      · exact fun x y => textOrder_eq_iff
      · exact fun x y => order_eq_iff

theorem versionsBy_eq_iff :
    versionsBy textOrder first second = precedence first second ↔ InOrder first second := by
  rw [precedence, versionsBy, versionsBy, then_congr_iff, then_congr_iff, then_congr_iff,
    preReleasesBy_eq_iff, Nat.compare_eq_eq, Nat.compare_eq_eq, Nat.compare_eq_eq]
  rfl

def AtMost (first second : Version) : Prop :=
  ∃ verdict, compared first second = some verdict ∧ verdict.isLE = true

theorem compared_swap (small : first.Small) (small' : second.Small) :
    compared second first = (compared first second).map Ordering.swap := by
  have : Std.OrientedCmp textOrder := ⟨textOrder_swap _ _⟩
  rw [compared_of_small small small', compared_of_small small' small, Option.map_some]
  exact congrArg some (@Std.OrientedCmp.eq_swap _ (versionsBy textOrder) _ _ _)

theorem atMost_iff (small : first.Small) (small' : second.Small) (fine : InOrder first second) :
    AtMost first second ↔ (precedence first second).isLE = true := by
  rw [AtMost, compared_of_small small small', versionsBy_eq_iff.mpr fine]
  constructor
  · rintro ⟨verdict, same, less⟩
    rwa [Option.some.inj same]
  · exact fun less => ⟨_, rfl, less⟩

/-- The comparison of small versions is the precedence exactly if no identifier is misplaced. -/
theorem semverCmp_precedence_iff (small : first.Small) (small' : second.Small) :
    (compared first second = some (precedence first second) ↔ InOrder first second) ∧
      compared second first = (compared first second).map Ordering.swap ∧
      ∀ third : Version, third.Small → InOrder first second → InOrder second third →
        InOrder first third → AtMost first second → AtMost second third → AtMost first third := by
  refine ⟨?_, compared_swap small small', ?_⟩
  · rw [compared_of_small small small', Option.some_inj]
    exact versionsBy_eq_iff
  · intro third small'' fine fine' fine'' less less'
    rw [atMost_iff small small' fine] at less
    rw [atMost_iff small' small'' fine'] at less'
    rw [atMost_iff small small'' fine'']
    exact @Std.TransCmp.isLE_trans _ (versionsBy order) _ _ _ _ less less'

end Compared

def firstRelease (identifiers : List Identifier) : Version := ⟨1, 0, 0, identifiers⟩

theorem firstRelease_small {identifiers : List Identifier}
    (small : ∀ identifier ∈ identifiers, identifier.Small) : (firstRelease identifiers).Small where
  major := by simp [firstRelease]
  minor := by simp [firstRelease]
  patch := by simp [firstRelease]
  preRelease := small

def beta : Word := ⟨"beta", List.all_eq_true.mp (by decide), by decide⟩

theorem semverCmp_precedence_beta :
    compared (firstRelease [.alphanumeric beta, .numeric 9])
      (firstRelease [.alphanumeric beta, .numeric 10]) = some .lt := by
  have small (n : Nat) (below : n < 2147483648) :
      (firstRelease [.alphanumeric beta, .numeric n]).Small := by
    apply firstRelease_small
    simpa [Identifier.Small] using below
  have agrees := (semverCmp_precedence_iff (small 9 (by decide)) (small 10 (by decide))).1.mpr
    (versionsBy_eq_iff.mp (by decide))
  exact agrees

def tenA : Word := ⟨"10a", List.all_eq_true.mp (by decide), by decide⟩

/-- A cycle of versions, each of which is less than the next for the comparison. -/
theorem semverCmp_cycle :
    let two := firstRelease [.numeric 2]
    let ten := firstRelease [.numeric 10]
    let word := firstRelease [.alphanumeric tenA]
    (two.text = "1.0.0-2" ∧ ten.text = "1.0.0-10" ∧ word.text = "1.0.0-10a") ∧
      compared two ten = some .lt ∧ compared ten word = some .lt ∧ compared word two = some .lt ∧
      precedence word two = .gt ∧ compared word two ≠ some (precedence word two) := by
  decide

end Version

end ClrOci
