import ClrOci.Container
import ClrOci.Precedence

/-! Build metadata, and when it changes the outcome of a comparison. -/

set_option autoImplicit false

namespace ClrOci

open Foundation

structure Metadata where
  identifiers : List String
  some : identifiers ≠ []
  visible : ∀ identifier ∈ identifiers, identifier ≠ ""
  letters : ∀ identifier ∈ identifiers, ∀ c ∈ identifier.toList, (c.isAlphanum || c == '-') = true

def Metadata.text (metadata : Metadata) : String := strjoin "." metadata.identifiers

namespace Version

def textWith (version : Version) (metadata : Metadata) : String :=
  version.text ++ "+" ++ metadata.text

theorem textWith_eq (version : Version) (metadata : Metadata) :
    version.textWith metadata = (version.written (some metadata.text)).text := by
  apply String.toList_inj.mp
  simp [textWith, text, WrittenVersion.text, WrittenVersion.patchText, written, separated]

structure SameNumbers (first second : Version) : Prop where
  major : min first.major llongMax = min second.major llongMax
  minor : min first.minor llongMax = min second.minor llongMax
  patch : min first.patch llongMax % 4294967296 = min second.patch llongMax % 4294967296

/-- A hyphen in the metadata of a version that is no pre-release does not matter for its comparison with
another version. -/
def Unaffected (first second : Version) (metadata metadata' : Metadata) : Prop :=
  SameNumbers first second →
    match first.preRelease, second.preRelease with
    | [], [] =>
      (hidden metadata.text = none ∧ hidden metadata'.text = none) ∨
        ∃ text text', hidden metadata.text = some text ∧ hidden metadata'.text = some text' ∧
          preReleaseOrder text text' = .eq
    | [], identifiers =>
      ∀ text, hidden metadata.text = some text → preReleaseOrder text (preReleaseText identifiers) = .gt
    | identifiers, [] =>
      ∀ text, hidden metadata'.text = some text → preReleaseOrder (preReleaseText identifiers) text = .lt
    | _, _ => True

section Metadata
variable {first second : Version} {metadata metadata' : Metadata}

theorem atoi_repr_eq_iff {n m : Nat} :
    compare (atoi n.repr).toInt (atoi m.repr).toInt = .eq ↔
      min n llongMax % 4294967296 = min m llongMax % 4294967296 := by
  have read (n : Nat) : (atoi n.repr).toInt = ((min n llongMax : Nat) : Int).bmod 4294967296 := by
    rw [atoi, ← Numeral.ofNat_text, Numeral.atol_text, Numeral.ofNat_value, Int32.toInt_ofInt]
  rw [read, read, Int.compare_eq_eq]
  constructor
  · intro same
    have rest := congrArg (fun value => value % ((4294967296 : Nat) : Int)) same
    simp only [Int.bmod_emod] at rest
    omega
  · intro same
    rw [← Int.emod_bmod, ← Int.emod_bmod (x := (min m llongMax : Nat))]
    congr 1
    omega

theorem coreOrder_eq_iff {tag tag' : Option String} :
    (first.written tag).coreOrder (second.written tag') = .eq ↔ SameNumbers first second := by
  have long {n m : Nat} : compare (atol n.repr) (atol m.repr) = .eq ↔ min n llongMax = min m llongMax := by
    rw [← Numeral.ofNat_text, ← Numeral.ofNat_text, Numeral.atol_text, Numeral.atol_text,
      Numeral.ofNat_value, Numeral.ofNat_value, Int.compare_eq_eq, Int.natCast_inj]
  simp only [WrittenVersion.coreOrder, Ordering.then_eq_eq, written, Numeral.ofNat_text, long,
    atoi_repr_eq_iff]
  constructor
  · rintro ⟨major, minor, patch⟩
    exact ⟨major, minor, patch⟩
  · intro same
    exact ⟨same.major, same.minor, same.patch⟩

theorem seen_written_some {metadata : String} (release : first.preRelease = []) :
    (first.written (some metadata)).seen = hidden metadata := by
  simp [WrittenVersion.seen, written, release, preReleasePart]

theorem seen_of_preRelease {tag : Option String} {word : Identifier} {words : List Identifier}
    (given : first.preRelease = word :: words) :
    (first.written tag).seen = some (preReleaseText (word :: words)) := by
  simp [WrittenVersion.seen, written, given, preReleasePart]

def IgnoresMetadata (first second : Version) (metadata metadata' : Metadata) : Prop :=
  (semverCmp (first.textWith metadata) (second.textWith metadata')).map outcome =
    (semverCmp first.text second.text).map outcome

theorem ignoresMetadata_iff :
    IgnoresMetadata first second metadata metadata' ↔ Unaffected first second metadata metadata' := by
  rw [IgnoresMetadata, textWith_eq, textWith_eq, text, text, WrittenVersion.semverCmp_text,
    WrittenVersion.semverCmp_text, Option.some_inj]
  change (WrittenVersion.coreOrder (first.written none) (second.written none)).then _ = _ ↔ _
  rw [then_congr_iff, coreOrder_eq_iff, Unaffected]
  apply imp_congr_right
  intro _
  cases given : first.preRelease with
  | nil =>
    rw [seen_written_some given, seen_written_none, given]
    cases given' : second.preRelease with
    | nil =>
      rw [seen_written_some given', seen_written_none, given']
      cases hidden metadata.text <;> cases hidden metadata'.text <;> simp [seenOrder, preReleasePart]
    | cons word words =>
      rw [seen_of_preRelease given', seen_of_preRelease given']
      cases hidden metadata.text <;> simp [seenOrder, preReleasePart]
  | cons word words =>
    rw [seen_of_preRelease given, seen_of_preRelease given]
    cases given' : second.preRelease with
    | nil =>
      rw [seen_written_some given', seen_written_none, given']
      cases hidden metadata'.text <;> simp [seenOrder, preReleasePart]
    | cons word' words' =>
      rw [seen_of_preRelease given', seen_of_preRelease given']
      simp

def supportedVersion : Version :=
  ⟨1, 0, 0, [.alphanumeric ⟨"rc1", List.all_eq_true.mp (by decide), by decide⟩]⟩

theorem supportedVersion_text : supportedVersion.text = supportedSpecVersion := by decide

def AcceptsAlike (config : Config) (version : Version) (metadata : Metadata) : Prop :=
  let asking (text : String) : Config := { config with oci := { config.oci with ociVersion := some text } }
  configCheck (asking (version.textWith metadata)) = configCheck (asking version.text)

theorem accepts_text (config : Config) (written : WrittenVersion) :
    configCheck { config with oci := { config.oci with ociVersion := some written.text } } =
      some (((supportedVersion.written none).coreOrder written).then
        (seenOrder (some "rc1") written.seen) != .lt) := by
  have sign (ret : Int32) : decide (0 ≤ ret) = (outcome ret != .lt) := by
    rw [Bool.eq_iff_iff, decide_eq_true_iff, bne_iff_ne, outcome, ne_eq, Int.compare_eq_lt, Int.not_lt,
      Int32.le_iff_toInt_le]
    rfl
  have seen : (supportedVersion.written none).seen = some "rc1" := by decide
  have known := WrittenVersion.semverCmp_text (supportedVersion.written none) written
  obtain ⟨ret, run, verdict⟩ := Option.map_eq_some_iff.mp known
  rw [seen] at verdict
  rw [← verdict]
  change (semverCmp supportedSpecVersion written.text).map (fun order => decide (0 ≤ order)) = _
  rw [← supportedVersion_text, text, run, Option.map_some, sign]

theorem acceptsAlike_iff (config : Config) (version : Version) (metadata metadata' : Metadata) :
    AcceptsAlike config version metadata ↔ Unaffected supportedVersion version metadata' metadata := by
  rw [AcceptsAlike, textWith_eq, text, accepts_text, accepts_text, Option.some_inj, Unaffected]
  change ((WrittenVersion.coreOrder _ (version.written none)).then _ != _) = _ ↔ _
  by_cases same : SameNumbers supportedVersion version
  · rw [coreOrder_eq_iff.mpr same, Ordering.eq_then, Ordering.eq_then, forall_prop_of_true same]
    cases given : version.preRelease with
    | nil =>
      rw [seen_written_some given, seen_written_none, given]
      cases hidden metadata.text <;> simp [seenOrder, preReleasePart, supportedVersion,
        preReleaseText, Identifier.text, strjoin]
    | cons word words =>
      rw [seen_of_preRelease given, seen_of_preRelease given]
      simp [supportedVersion]
  · have apart : (supportedVersion.written none).coreOrder (version.written none) ≠ .eq :=
      mt coreOrder_eq_iff.mp same
    cases core : (supportedVersion.written none).coreOrder (version.written none) with
    | eq => exact absurd core apart
    | lt => simp [same]
    | gt => simp [same]

/-- Metadata is ignored exactly if no hyphen in it decides. -/
theorem metadata_ignored_iff (first second : Version) (metadata metadata' : Metadata) :
    (IgnoresMetadata first second metadata metadata' ↔ Unaffected first second metadata metadata') ∧
      ∀ config : Config, AcceptsAlike config second metadata' ↔
        Unaffected supportedVersion second metadata metadata' :=
  ⟨ignoresMetadata_iff, fun config => acceptsAlike_iff config second metadata' metadata⟩

end Metadata

def hyphened : Metadata :=
  ⟨["a-b"], by decide, by decide, List.forall_mem_singleton.mpr (List.all_eq_true.mp (by decide))⟩

def unhyphened : Metadata :=
  ⟨["ab"], by decide, by decide, List.forall_mem_singleton.mpr (List.all_eq_true.mp (by decide))⟩

/-- A hyphen in the metadata makes a pre-release of a version, and lets a configuration through. -/
theorem hyphened_metadata_decides :
    let version := firstRelease []
    let asking (text : String) : Config := { oci := { ociVersion := some text } }
    (version.text = "1.0.0" ∧ version.textWith hyphened = "1.0.0+a-b" ∧
      version.textWith unhyphened = "1.0.0+ab") ∧
      (semverCmp "1.0.0+a-b" "1.0.0+ab" = some (-1) ∧ semverCmp "1.0.0" "1.0.0" = some 0 ∧
        ¬ IgnoresMetadata version version hyphened unhyphened) ∧
      configCheck (asking "1.0.0+a-b") = some true ∧ configCheck (asking "1.0.0") = some false ∧
        ¬ AcceptsAlike {} version hyphened := by
  intro version asking
  refine ⟨by decide, ⟨by decide, by decide, ?_⟩, by decide, by decide, ?_⟩
  · unfold IgnoresMetadata
    decide
  · unfold AcceptsAlike
    decide

end Version

end ClrOci
