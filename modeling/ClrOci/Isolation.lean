import ClrOci.HooksSection

/-! Calls of the handlers that keep half-built objects in static variables. -/

set_option autoImplicit false

namespace ClrOci

open Foundation

inductive StaticHandler where
  | mounts | hooks | linux

structure SectionCall where
  handler : StaticHandler
  root : Option GNode
  config : Option Config

abbrev Effect := Bool × Option Config

def StaticHandler.handle (root : GNode) (parse : Parse) : StaticHandler → Bool × Parse
  | .mounts => mountsHandleSection root parse
  | .hooks => hooksHandleSection root parse
  | .linux => linuxHandleSection root parse

namespace SectionCall

def run (call : SectionCall) (statics : Statics) : Effect × Statics :=
  match call.root, call.config with
  | some root, some config =>
    let (ok, parse) := call.handler.handle root { config := config, statics := statics }
    ((ok, some parse.config), parse.statics)
  -- Both pointers are checked first.
  | _, _ => ((false, call.config), statics)

def alone (call : SectionCall) : Effect := (call.run {}).1

end SectionCall

def runSections : List SectionCall → Statics → List Effect × Statics
  | [], statics => ([], statics)
  | call :: calls, statics =>
    let first := call.run statics
    let rest := runSections calls first.2
    (first.1 :: rest.1, rest.2)

theorem Scan.saveLast_current {A : Type} {complete : A → Bool} {scan : Scan A}
    (settled : scan.Settled) : (if scan.error then scan else scan.save complete).current = none := by
  split
  · next error => exact settled error
  · exact Scan.save_current scan

theorem handleLinuxSection_settled (scan : Scan Namespace) (node : GNode) (settled : scan.Settled) :
    (handleLinuxSection scan node).Settled := by
  unfold handleLinuxSection
  split
  · exact foldl_kept Scan.visit_settled node.children settled
  · exact settled

section Step
variable (root : GNode) (config : Config)

theorem mountsHandleSection_statics :
    (mountsHandleSection root { config := config }).2.statics = {} := by
  have settled : (root.children.foldl handleMountsSection ⟨none, false, config.oci.mounts⟩).Settled :=
    foldl_kept Scan.visit_settled _ fun _ => rfl
  rw [mountsHandleSection]
  by_cases loaded : config.oci.mounts ≠ []
  · rw [if_pos loaded]
  · rw [if_neg loaded]
    exact congrArg (Statics.mk · none none) (Scan.saveLast_current settled)

theorem hooksHandleSection_statics :
    (hooksHandleSection root { config := config }).2.statics = {} :=
  congrArg (Statics.mk none · none) (foldl_current root.children rfl)

theorem linuxHandleSection_statics :
    (linuxHandleSection root { config := config }).2.statics = {} := by
  have settled : (root.children.foldl handleLinuxSection
      ⟨none, false, config.oci.namespaces⟩).Settled :=
    foldl_kept handleLinuxSection_settled _ fun _ => rfl
  exact congrArg (Statics.mk none none) (Scan.saveLast_current settled)

end Step

/-- From empty static variables every call goes back to them, whether it succeeds or not. -/
theorem SectionCall.run_statics (call : SectionCall) : (call.run {}).2 = {} := by
  obtain ⟨handler, root, config⟩ := call
  cases root with
  | none => rfl
  | some root =>
    cases config with
    | none => rfl
    | some config =>
      cases handler with
      | mounts => exact mountsHandleSection_statics root config
      | hooks => exact hooksHandleSection_statics root config
      | linux => exact linuxHandleSection_statics root config

theorem runSections_eq (calls : List SectionCall) :
    runSections calls {} = (calls.map SectionCall.alone, {}) := by
  induction calls with
  | nil => rfl
  | cons call calls ih =>
    rw [runSections, call.run_statics, ih]
    rfl

/-- Every call of a sequence has the effect that it has alone, and nothing is left behind after any. -/
theorem sectionCalls_isolated (calls : List SectionCall) :
    (runSections calls {}).1 = calls.map SectionCall.alone ∧
      ∀ before, before <+: calls → (runSections before {}).2 = {} := by
  constructor
  · rw [runSections_eq]
  · intro before _
    rw [runSections_eq]

end ClrOci
