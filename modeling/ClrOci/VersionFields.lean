import ClrOci.Container

/-! Which version texts the check of a configuration can take apart. -/

set_option autoImplicit false

namespace ClrOci

open Foundation

def Config.withVersion (config : Config) (version : String) : Config :=
  { config with oci := { config.oci with ociVersion := some version } }

/-- A version of two fields that already differ from those of the supported one. -/
def DecidedByTwoFields (version : String) : Prop :=
  ∃ major minor : String, '.' ∉ major.toList ∧ '.' ∉ minor.toList ∧
    version = major ++ "." ++ minor ∧ (atol major ≠ 1 ∨ atol minor ≠ 0)

theorem strsplit_of_no_dot {version : String} (apart : '.' ∉ version.toList) :
    (strsplit version '.' (some 3)).length ≤ 1 := by
  unfold strsplit
  split
  · exact Nat.zero_le 1
  · have whole : splitAt '.' (some 3) [] version.toList = [version.toList] := splitAt_last_word apart
    rw [whole]
    exact Nat.le_refl 1

theorem strsplit_of_one_dot {major minor : String} (apart : '.' ∉ major.toList)
    (apart' : '.' ∉ minor.toList) :
    strsplit (major ++ "." ++ minor) '.' (some 3) = [major, minor] := by
  have text : (major ++ "." ++ minor).toList = major.toList ++ '.' :: minor.toList := by simp
  have visible : major ++ "." ++ minor ≠ "" := by
    intro none
    rw [none] at text
    simp at text
  have last : splitAt '.' (some 2) [] minor.toList = [minor.toList] := splitAt_last_word apart'
  rw [strsplit, if_neg visible, text, splitAt_word apart (by decide), Option.map_some, last]
  simp

theorem fields_cases (version : String) :
    '.' ∉ version.toList ∨
      (∃ major minor : String, '.' ∉ major.toList ∧ '.' ∉ minor.toList ∧
        version = major ++ "." ++ minor) ∨
      ∃ major minor patch : String, '.' ∉ major.toList ∧ '.' ∉ minor.toList ∧
        version = major ++ "." ++ minor ++ "." ++ patch := by
  by_cases dot : '.' ∈ version.toList
  · obtain ⟨major, rest, parts, apart⟩ := List.eq_append_cons_of_mem dot
    by_cases dot' : '.' ∈ rest
    · obtain ⟨minor, patch, parts', apart'⟩ := List.eq_append_cons_of_mem dot'
      right; right
      refine ⟨String.ofList major, String.ofList minor, String.ofList patch, by simpa using apart,
        by simpa using apart', ?_⟩
      apply String.toList_inj.mp
      simp [parts, parts']
    · right; left
      refine ⟨String.ofList major, String.ofList rest, by simpa using apart, by simpa using dot', ?_⟩
      apply String.toList_inj.mp
      simp [parts]
  · exact Or.inl dot

theorem semverCmpFields_isSome_iff (fields : List String) :
    (semverCmpFields ["1", "0", "0-rc1"] fields).isSome ↔
      3 ≤ fields.length ∨
        ∃ major minor, fields = [major, minor] ∧ (atol major ≠ 1 ∨ atol minor ≠ 0) := by
  have one : atol "1" = 1 := by decide
  have zero : atol "0" = 0 := by decide
  cases fields with
  | nil => simp [semverCmpFields]
  | cons major fields =>
    cases fields with
    | nil => simp [semverCmpFields]
    | cons minor fields =>
      simp only [semverCmpFields, List.getElem?_cons_zero, List.getElem?_cons_succ,
        Option.bind_eq_bind, Option.bind_some, Option.pure_def, one, zero, gt_iff_lt]
      cases fields with
      | nil =>
        simp only [List.getElem?_nil, Option.bind_none]
        split_ifs with h1 h2 h3 h4 <;> simp <;> omega
      | cons patch fields =>
        simp only [List.getElem?_cons_zero, Option.bind_some]
        split_ifs <;> simp

/-- The check returns exactly if the fields it needs are there. -/
theorem configCheck_returns_iff (config : Config) (version : String) :
    (configCheck (config.withVersion version)).isSome ↔
      2 ≤ version.toList.count '.' ∨ DecidedByTwoFields version := by
  have supported : strsplit supportedSpecVersion '.' (some 3) = ["1", "0", "0-rc1"] := by decide
  have asked : (configCheck (config.withVersion version)).isSome =
      (semverCmpFields ["1", "0", "0-rc1"] (strsplit version '.' (some 3))).isSome := by
    rw [← supported]
    exact Option.isSome_map
  rw [asked, semverCmpFields_isSome_iff]
  rcases fields_cases version with apart | ⟨major, minor, apart, apart', rfl⟩ |
    ⟨major, minor, patch, apart, apart', rfl⟩
  · have short := strsplit_of_no_dot apart
    have none : version.toList.count '.' = 0 := List.count_eq_zero.mpr apart
    have noFields : ¬ DecidedByTwoFields version := by
      rintro ⟨major, minor, -, -, rfl, -⟩
      simp at apart
    constructor
    · rintro (long | ⟨major, minor, two, -⟩)
      · omega
      · rw [two] at short
        simp at short
    · rintro (dots | two)
      · omega
      · exact absurd two noFields
  · have split := strsplit_of_one_dot apart apart'
    have one : (major ++ "." ++ minor).toList.count '.' = 1 := by
      simp [List.count_eq_zero.mpr apart, List.count_eq_zero.mpr apart']
    rw [split, one]
    constructor
    · rintro (long | ⟨major', minor', two, decided⟩)
      · simp at long
      · cases two
        exact Or.inr ⟨major, minor, apart, apart', rfl, decided⟩
    · rintro (dots | ⟨major', minor', word, word', same, decided⟩)
      · omega
      · have fields := strsplit_of_one_dot word word'
        rw [← same, split] at fields
        cases fields
        exact Or.inr ⟨major, minor, rfl, decided⟩
  · have dot : "." = String.singleton '.' := rfl
    have three : strsplit (major ++ "." ++ minor ++ "." ++ patch) '.' (some 3) =
        [major, minor, patch] := by
      rw [dot]
      exact strsplit_three apart apart'
    have two : 2 ≤ (major ++ "." ++ minor ++ "." ++ patch).toList.count '.' := by
      simp [List.count_eq_zero.mpr apart, List.count_eq_zero.mpr apart']
    rw [three]
    exact iff_of_true (Or.inl (Nat.le_refl 3)) (Or.inl two)

/-- An empty version, one field, and the first two fields of the supported version. -/
theorem configCheck_crashes :
    configCheck (({} : Config).withVersion "") = none ∧
      configCheck (({} : Config).withVersion "1") = none ∧
      configCheck (({} : Config).withVersion "1.0") = none := by
  decide

end ClrOci
