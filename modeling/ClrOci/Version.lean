import ClrOci.Semver
import ClrOci.Foundation.Lexicographic

/-! What the comparison of two versions comes to, in the words of their texts. -/

set_option autoImplicit false

namespace ClrOci

open Foundation

/-- What a value like that of `strcmp` says. -/
def outcome (ret : Int32) : Ordering := compare ret.toInt 0

theorem outcome_eq_iff {ret : Int32} : outcome ret = .eq ↔ ret = 0 := by
  rw [outcome, Int.compare_eq_eq, ← Int32.toInt_zero, Int32.toInt_inj]

@[simp] theorem outcome_zero : outcome 0 = .eq := by decide

@[simp] theorem outcome_one : outcome 1 = .gt := by decide

@[simp] theorem outcome_neg_one : outcome (-1) = .lt := by decide

/-- Two fields are compared as numbers, in so far as their difference fits an `int`, or as texts. -/
def fieldOrder (first second : String) : Ordering :=
  if stringIsNumeric first && stringIsNumeric second then
    compare ((atol first - atol second).bmod 4294967296) 0
  else compare first.toList second.toList

theorem outcome_strcmp (first second : String) :
    outcome (strcmp first second) = compare first.toList second.toList := by
  unfold strcmp
  split
  · next less => exact less.symm
  · next same => exact same.symm
  · next more => exact more.symm

theorem outcome_fieldDifference (first second : Int) :
    outcome (fieldDifference first second) = compare ((first - second).bmod 4294967296) 0 := by
  rw [outcome, fieldDifference, Int32.toInt_ofInt, Int64.toInt_ofInt, Int.bmod_bmod_of_dvd (by decide)]

theorem outcome_semverCmpField (first second : String) :
    outcome (semverCmpField first second) = fieldOrder first second := by
  unfold semverCmpField fieldOrder
  split
  · exact outcome_fieldDifference _ _
  · exact outcome_strcmp _ _

@[simp] theorem fieldOrder_self (field : String) : fieldOrder field field = .eq := by
  unfold fieldOrder
  split
  · rw [Int.sub_self]
    decide
  · exact Std.ReflOrd.compare_self

theorem outcome_semverCmpPreReleaseFields (first second : List String) :
    outcome (semverCmpPreReleaseFields first second) = first.compareLex fieldOrder second := by
  induction first generalizing second with
  | nil =>
    cases second with
    | nil => exact outcome_zero
    | cons y ys => exact outcome_neg_one
  | cons x xs ih =>
    cases second with
    | nil => exact outcome_one
    | cons y ys =>
      rw [semverCmpPreReleaseFields, List.compareLex_cons_cons, ← outcome_semverCmpField]
      split
      · next differ =>
        cases found : outcome (semverCmpField x y) with
        | eq => exact absurd (outcome_eq_iff.mp found) differ
        | lt => rfl
        | gt => rfl
      · next same =>
        rw [outcome_eq_iff.mpr (not_not.mp same)]
        exact ih ys

def preReleaseOrder (first second : String) : Ordering :=
  (strsplit first '.' none).compareLex fieldOrder (strsplit second '.' none)

def seenOrder : Option String → Option String → Ordering
  | some _, none => .lt
  | none, some _ => .gt
  | none, none => .eq
  | some first, some second => preReleaseOrder first second

theorem preReleaseOrder_self (text : String) : preReleaseOrder text text = .eq := by
  exact compareLex_self fieldOrder_self _

theorem seenOrder_self (seen : Option String) : seenOrder seen seen = .eq := by
  cases seen with
  | none => rfl
  | some text => exact preReleaseOrder_self text

structure WrittenVersion where
  major : Numeral
  minor : Numeral
  patch : Numeral
  preRelease : Option String
  metadata : Option String
  plain : ∀ text ∈ preRelease, '+' ∉ text.toList

def hidden (metadata : String) : Option String :=
  (findFirst ['-'] metadata.toList).map fun found => String.ofList (found.2.drop 1)

def separated (separator : Char) (part : Option String) : List Char :=
  part.elim [] fun text => separator :: text.toList

namespace WrittenVersion
variable (version : WrittenVersion)

def patchText : String :=
  String.ofList (version.patch.text.toList ++ separated '-' version.preRelease ++
    separated '+' version.metadata)

def text : String :=
  version.major.text ++ "." ++ version.minor.text ++ "." ++ version.patchText

def seen : Option String :=
  match version.preRelease, version.metadata with
  | some text, _ => some text
  | none, some metadata => hidden metadata
  | none, none => none

def coreOrder (first second : WrittenVersion) : Ordering :=
  (compare (atol first.major.text) (atol second.major.text)).then
    ((compare (atol first.minor.text) (atol second.minor.text)).then
      (compare (atoi first.patch.text).toInt (atoi second.patch.text).toInt))

variable {version}

theorem patchText_number :
    (semverSplitPatchVersion version.patchText).number = atoi version.patch.text := by
  have plain : ∀ c ∈ version.patch.text.toList, (c != '-' && c != '+') = true := by
    intro c member
    have digit := version.patch.digits c member
    have other (sign : Char) (word : sign.isDigit = false) : c ≠ sign := by
      rintro rfl
      exact absurd digit (by simp [word])
    simp [other '-' (by decide), other '+' (by decide)]
  have stops : (separated '-' version.preRelease ++ separated '+' version.metadata).takeWhile
      (fun c => c != '-' && c != '+') = [] := by
    cases version.preRelease <;> cases version.metadata <;> simp [separated]
  simp only [semverSplitPatchVersion, patchText, String.toList_ofList, List.append_assoc,
    List.takeWhile_append_of_pos plain, stops, List.append_nil, String.ofList_toList]

theorem hidden_none {metadata : String} (apart : '-' ∉ metadata.toList) : hidden metadata = none := by
  rw [hidden, findFirst_none apart, Option.map_none]

theorem splitPreRelease_metadata (metadata : String) :
    (semverSplitPatchVersion
        (String.ofList (version.patch.text.toList ++ '+' :: metadata.toList))).preRelease =
      hidden metadata := by
  have noHyphen : '-' ∉ version.patch.text.toList := version.patch.apart (by decide)
  unfold semverSplitPatchVersion
  simp only [String.toList_ofList]
  by_cases hyphen : '-' ∈ metadata.toList
  · obtain ⟨before, after, cut, first⟩ := List.eq_append_cons_of_mem hyphen
    have apart : '-' ∉ version.patch.text.toList ++ '+' :: before := by
      simp [noHyphen, first]
    have found : findFirst ['-'] ((version.patch.text.toList ++ '+' :: before) ++ '-' :: after) =
        some (version.patch.text.toList ++ '+' :: before, '-' :: after) := findFirst_some apart
    rw [List.append_assoc, List.cons_append] at found
    simp only [cut, found, hidden, findFirst_some first, Option.map_some]
    simp
  · have apart : '-' ∉ version.patch.text.toList ++ '+' :: metadata.toList := by
      simp [noHyphen, hyphen]
    rw [findFirst_none apart, hidden_none hyphen]

theorem patchText_preRelease :
    (semverSplitPatchVersion version.patchText).preRelease = version.seen := by
  have noHyphen : '-' ∉ version.patch.text.toList := version.patch.apart (by decide)
  have noPlus : '+' ∉ version.patch.text.toList := version.patch.apart (by decide)
  unfold patchText seen
  cases given : version.preRelease with
  | some text =>
    have plain : ∀ c ∈ text.toList, (c != '+') = true := by
      intro c member
      rw [bne_iff_ne]
      rintro rfl
      exact version.plain text given member
    have ends : (separated '+' version.metadata).takeWhile (· != '+') = [] := by
      cases version.metadata <;> simp [separated]
    have found : findFirst ['-'] (version.patch.text.toList ++
        '-' :: (text.toList ++ separated '+' version.metadata)) = some (version.patch.text.toList,
          '-' :: (text.toList ++ separated '+' version.metadata)) := findFirst_some noHyphen
    have parts : version.patch.text.toList ++ separated '-' (some text) ++
        separated '+' version.metadata =
          version.patch.text.toList ++ '-' :: (text.toList ++ separated '+' version.metadata) := by
      simp [separated]
    simp only [semverSplitPatchVersion, String.toList_ofList, parts, found]
    simp [noPlus, List.takeWhile_append_of_pos plain, ends]
  | none =>
    cases tagged : version.metadata with
    | none =>
      simp only [semverSplitPatchVersion, String.toList_ofList, separated, Option.elim_none,
        List.append_nil, findFirst_none noHyphen]
    | some metadata =>
      simp only [separated, Option.elim_none, Option.elim_some, List.append_nil]
      exact splitPreRelease_metadata metadata

theorem outcome_semverCmpPatchVersions (first second : WrittenVersion) :
    outcome (semverCmpPatchVersions first.patchText second.patchText) =
      (compare (atoi first.patch.text).toInt (atoi second.patch.text).toInt).then
        (seenOrder first.seen second.seen) := by
  unfold semverCmpPatchVersions
  simp only [patchText_number, patchText_preRelease, gt_iff_lt, Int32.lt_iff_toInt_lt]
  rcases Int.lt_trichotomy (atoi first.patch.text).toInt (atoi second.patch.text).toInt with
    less | same | more
  · rw [if_neg (Int.not_lt.mpr (Int.le_of_lt less)), if_pos less, Int.compare_eq_lt.mpr less,
      outcome_neg_one, Ordering.lt_then]
  · rw [same, if_neg (Int.lt_irrefl _), if_neg (Int.lt_irrefl _), Int.compare_eq_eq.mpr rfl,
      Ordering.eq_then]
    cases first.seen <;> cases second.seen
    · exact outcome_zero
    · exact outcome_one
    · exact outcome_neg_one
    · exact outcome_semverCmpPreReleaseFields _ _
  · rw [if_pos more, Int.compare_eq_gt.mpr more, outcome_one, Ordering.gt_then]

/-- Two versions are compared by their numbers, and then by what is taken for their pre-releases. -/
theorem semverCmp_text (first second : WrittenVersion) :
    (semverCmp first.text second.text).map outcome =
      some ((first.coreOrder second).then (seenOrder first.seen second.seen)) := by
  have fields (version : WrittenVersion) : strsplit version.text '.' (some 3) =
      [version.major.text, version.minor.text, version.patchText] := by
    have dot : "." = String.singleton '.' := rfl
    rw [text, dot]
    exact strsplit_three (version.major.apart (by decide)) (version.minor.apart (by decide))
  rw [semverCmp, fields, fields, coreOrder, Ordering.then_assoc, Ordering.then_assoc,
    ← outcome_semverCmpPatchVersions]
  simp only [semverCmpFields, List.getElem?_cons_zero, List.getElem?_cons_succ, Option.bind_eq_bind,
    Option.bind_some, Option.pure_def, gt_iff_lt]
  rcases Int.lt_trichotomy (atol first.major.text) (atol second.major.text) with less | same | more
  · rw [if_neg (Int.not_lt.mpr (Int.le_of_lt less)), if_pos less, Int.compare_eq_lt.mpr less,
      Option.map_some, outcome_neg_one, Ordering.lt_then]
  · rw [same, if_neg (Int.lt_irrefl _), if_neg (Int.lt_irrefl _), Int.compare_eq_eq.mpr rfl,
      Ordering.eq_then]
    rcases Int.lt_trichotomy (atol first.minor.text) (atol second.minor.text) with less | same | more
    · rw [if_neg (Int.not_lt.mpr (Int.le_of_lt less)), if_pos less, Int.compare_eq_lt.mpr less,
        Option.map_some, outcome_neg_one, Ordering.lt_then]
    · rw [same, if_neg (Int.lt_irrefl _), if_neg (Int.lt_irrefl _), Int.compare_eq_eq.mpr rfl,
        Ordering.eq_then, Option.map_some]
    · rw [if_pos more, Int.compare_eq_gt.mpr more, Option.map_some, outcome_one, Ordering.gt_then]
  · rw [if_pos more, Int.compare_eq_gt.mpr more, Option.map_some, outcome_one, Ordering.gt_then]

end WrittenVersion

end ClrOci
