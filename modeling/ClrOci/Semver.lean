import ClrOci.Foundation.Numeral
import ClrOci.Foundation.Text

/-! Comparison of semantic versions, as the version check of the configuration uses it.

`none` stands for a read through a null pointer or a failed assertion.
-/

set_option autoImplicit false

namespace ClrOci

open Foundation

/-- `clr_oci_string_is_numeric`. -/
def stringIsNumeric (text : String) : Bool := text.toList.all Char.isDigit

/-- The sign of `strcmp`, on bytes. -/
def strcmp (first second : String) : Int32 :=
  match compare first.toList second.toList with
  | .lt => -1
  | .eq => 0
  | .gt => 1

-- The difference of two `long` values, narrowed to `int`.
def fieldDifference (first second : Int) : Int32 := Int32.ofInt (Int64.ofInt (first - second)).toInt

def semverCmpField (first second : String) : Int32 :=
  if stringIsNumeric first && stringIsNumeric second then fieldDifference (atol first) (atol second)
  else strcmp first second

/-- The loop of `clr_oci_semver_cmp_patch_pre_releases`. -/
def semverCmpPreReleaseFields : List String → List String → Int32
  | [], [] => 0
  | [], _ :: _ => -1
  | _ :: _, [] => 1
  | first :: restFirst, second :: restSecond =>
    let ret := semverCmpField first second
    if ret ≠ 0 then ret else semverCmpPreReleaseFields restFirst restSecond

/-- `clr_oci_semver_cmp_patch_pre_releases`. -/
def semverCmpPatchPreReleases (first second : String) : Int32 :=
  semverCmpPreReleaseFields (strsplit first '.' none) (strsplit second '.' none)

structure PatchVersion where
  number : Int32
  preRelease : Option String

/-- `clr_oci_semver_split_patch_version`: both separators are overwritten in one buffer, so
each part ends at the next of them. -/
def semverSplitPatchVersion (patchVersion : String) : PatchVersion where
  number := atoi (String.ofList (patchVersion.toList.takeWhile fun c => c != '-' && c != '+'))
  preRelease :=
    match findFirst ['-'] patchVersion.toList with
    | none => none
    | some (before, found) =>
      -- Only the first plus sign is overwritten.
      some (String.ofList (if before.contains '+' then found.drop 1
        else (found.drop 1).takeWhile (· != '+')))

/-- `clr_oci_semver_cmp_patch_versions`. -/
def semverCmpPatchVersions (first second : String) : Int32 :=
  let a := semverSplitPatchVersion first
  let b := semverSplitPatchVersion second
  if a.number > b.number then 1
  else if a.number < b.number then -1
  else
    match a.preRelease, b.preRelease with
    | some _, none => -1
    | none, some _ => 1
    | none, none => 0
    | some pra, some prb => semverCmpPatchPreReleases pra prb

/-- `clr_oci_semver_cmp_fields`: major and minor are converted before anything is compared. -/
def semverCmpFields (first second : List String) : Option Int32 := do
  let majorA ← first[0]?
  let minorA ← first[1]?
  let majorB ← second[0]?
  let minorB ← second[1]?
  if atol majorA > atol majorB then return 1
  else if atol majorA < atol majorB then return -1
  else if atol minorA > atol minorB then return 1
  else if atol minorA < atol minorB then return -1
  else return semverCmpPatchVersions (← first[2]?) (← second[2]?)

/-- `clr_oci_semver_cmp`. -/
def semverCmp (first second : String) : Option Int32 :=
  semverCmpFields (strsplit first '.' (some 3)) (strsplit second '.' (some 3))

example : semverCmp "1.0.0-rc1" "1.0.0-rc1" = some 0 := by decide

end ClrOci
