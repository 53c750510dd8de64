import ClrOci.Command
import ClrOci.StateRoundTrip

/-! What a later command makes of the state file.

A command starts from a configuration that holds little more than the root directory.
It is rebuilt from the state file, and the state file is written from it again.
-/

set_option autoImplicit false

namespace ClrOci

open Foundation

def Config.fresh (rootDir : Option String) : Config := { rootDir := rootDir }

def Config.reloaded (rootDir : Option String) (id : String) (state : OciState) : Config :=
  configUpdate ((((Config.fresh rootDir).setContainerId (some id)).placed id).fill state) state

structure Stored (files : Files) (config : Config) (inputs : StateInputs) : Prop where
  given : stateInputs config (some inputs.created) = some inputs
  placed : config.state.runtimePath = runtimePath config.rootDir inputs.id
  held : ∃ status, config.state.status.toStr = some status ∧
    files (stateFilePath config.state.runtimePath).text = some (.json
      (stateJson config inputs.vm inputs.id inputs.bundlePath status inputs.created))

section Stored
variable {files : Files} {config : Config} {inputs : StateInputs}

theorem Stored.read (stored : Stored files config inputs) :
    stateFileRead files (stateFilePath (runtimePath config.rootDir inputs.id)).text =
      if config.console.isSome then some (recalled config inputs) else none := by
  obtain ⟨status, named, held⟩ := stored.held
  rw [← stored.placed]
  have set := (stateInputs_eq_some_iff.mp stored.given).2.2.2.2.1
  exact stateFileRead_stateJson named (stateFilePath_ne_empty set) held

theorem Stored.fetched (stored : Stored files config inputs) {fetched : Fetched}
    (got : getConfigAndState files ((Config.fresh config.rootDir).setContainerId (some inputs.id)) =
      some fetched) :
    config.console.isSome = true ∧ fetched.state = recalled config inputs ∧
      configUpdate fetched.config fetched.state =
        Config.reloaded config.rootDir inputs.id (recalled config inputs) := by
  rw [getConfigAndState_eq rfl, Option.bind_eq_bind, Option.bind_eq_some_iff] at got
  obtain ⟨state, read, rest⟩ := got
  rw [Config.setContainerId_rootDir] at read
  rw [show (Config.fresh config.rootDir).rootDir = config.rootDir from rfl, stored.read] at read
  obtain ⟨console, same⟩ := Option.ite_none_right_eq_some.mp read
  cases same
  obtain ⟨file, _, same⟩ := Option.bind_eq_some_iff.mp rest
  cases same
  exact ⟨console, rfl, rfl⟩

theorem Stored.found (stored : Stored files config inputs) (console : config.console.isSome = true)
    (file : (configFilePath (some inputs.bundlePath)).isSome = true) :
    ∃ fetched, getConfigAndState files
      ((Config.fresh config.rootDir).setContainerId (some inputs.id)) = some fetched := by
  obtain ⟨path, found⟩ := Option.isSome_iff_exists.mp file
  have bundle : configFilePath (recalled config inputs).bundlePath = some path := found
  apply Option.isSome_iff_exists.mp
  rw [getConfigAndState_eq rfl, Config.setContainerId_rootDir,
    show (Config.fresh config.rootDir).rootDir = config.rootDir from rfl, stored.read, if_pos console]
  simp only [Option.bind_eq_bind, Option.bind_some, bundle, Option.pure_def, Option.isSome_some]

def surviving (config : Config) (inputs : StateInputs) : Config where
  oci := { mounts := (recordedDests config.oci.mounts).map mountOfDest }
  vm := some { inputs.vm with kernelParams := some (inputs.vm.kernelParams.getD "") }
  state := { config.state with stateFilePath := stateFilePath config.state.runtimePath }
  bundlePath := some inputs.bundlePath
  console := config.console
  useSocketConsole := config.useSocketConsole
  rootDir := config.rootDir
  optargContainerId := some inputs.id

theorem Stored.reloaded_eq (stored : Stored files config inputs) (console : config.console.isSome) :
    Config.reloaded config.rootDir inputs.id (recalled config inputs) = surviving config inputs := by
  have mounts : ∀ recorded : List Mount, (if recorded = [] then [] else recorded) = recorded := by
    intro recorded
    split
    · next none => exact none.symm
    · rfl
  obtain ⟨path, present⟩ := Option.isSome_iff_exists.mp console
  rw [Config.reloaded, Config.placed_eq]
  simp only [Config.fresh, Config.setContainerId, Config.fill, configUpdate, recalled, surviving,
    mounts, present, Option.isSome_some, ↓reduceIte, Option.getD_some, Buffer.copy_text,
    ← stored.placed]

def Config.withBundle (config : Config) (bundlePath : Option String) : Config :=
  { config with bundlePath := bundlePath }

/-- The inputs that a command has for writing the state file again. -/
def StateInputs.again (inputs : StateInputs) : StateInputs :=
  { inputs with vm := { inputs.vm with kernelParams := some (inputs.vm.kernelParams.getD "") } }

theorem stateInputs_surviving_again (given : stateInputs config (some inputs.created) = some inputs) :
    stateInputs (surviving config inputs) (some inputs.created) = some inputs.again := by
  obtain ⟨_, _, nonempty, _, runtime, comms, procsock, _⟩ := stateInputs_eq_some_iff.mp given
  exact stateInputs_eq_some_iff.mpr ⟨rfl, rfl, nonempty, rfl, runtime, comms, procsock, rfl⟩

theorem stateInputs_surviving {bundlePath : Option String} {others : StateInputs}
    (given : stateInputs ((surviving config inputs).withBundle bundlePath) (some inputs.created) =
      some others) :
    ∃ bundle, bundlePath = some bundle ∧ others = { inputs.again with bundlePath := bundle } := by
  obtain ⟨created, id, _, bundle, _, _, _, vm⟩ := stateInputs_eq_some_iff.mp given
  refine ⟨others.bundlePath, bundle, ?_⟩
  cases others
  cases created
  cases id
  cases vm
  rfl

def Config.withoutAnnotations (config : Config) : Config :=
  { config with oci := { config.oci with annotations := [] } }

theorem stateJson_surviving (config : Config) (inputs : StateInputs) (bundlePath : Option String)
    (bundle status : String) :
    stateJson ((surviving config inputs).withBundle bundlePath) inputs.again.vm inputs.id bundle
        status inputs.created =
      stateJson config.withoutAnnotations inputs.vm inputs.id bundle status inputs.created := by
  have mounts := recordedDests_reloadMounts config.oci.mounts
  rw [reloadMounts_eq] at mounts
  simp only [stateJson, surviving, Config.withBundle, Config.withoutAnnotations, StateInputs.again,
    vmJson, consoleJson, mountsToJson, mounts, Option.getD_some]
  rfl

def SameButStatus (before after : Json) : Prop :=
  ∀ name, name ≠ "status" → after.member? name = before.member? name

theorem member?_stateJson_annotations (config : Config) (vm : VmConfig)
    (id bundlePath status created : String) :
    (stateJson config vm id bundlePath status created).member? "annotations" =
      if config.oci.annotations.isEmpty then none
      else some (.object (annotationsToJson config.oci.annotations)) := by
  unfold stateJson
  split <;> rfl

theorem stateJson_withoutAnnotations {config : Config} (none : config.oci.annotations = []) (vm : VmConfig)
    (id bundlePath status created : String) :
    stateJson config.withoutAnnotations vm id bundlePath status created =
      stateJson config vm id bundlePath status created := by
  simp only [stateJson, Config.withoutAnnotations, none]
  rfl

theorem sameButStatus_iff (config : Config) (inputs : StateInputs) (bundle status status' : String) :
    SameButStatus
        (stateJson config inputs.vm inputs.id inputs.bundlePath status inputs.created)
        (stateJson config.withoutAnnotations inputs.vm inputs.id bundle status' inputs.created) ↔
      config.oci.annotations = [] ∧ bundle = inputs.bundlePath := by
  constructor
  · intro same
    have annotations := same "annotations" (by decide)
    have bundlePath := same "bundlePath" (by decide)
    rw [member?_stateJson_annotations, member?_stateJson_annotations] at annotations
    refine ⟨?_, ?_⟩
    · by_contra some
      simp [Config.withoutAnnotations, some] at annotations
    · have text : some (Json.string bundle) = some (Json.string inputs.bundlePath) := bundlePath
      cases text
      rfl
  · rintro ⟨none, rfl⟩ name other
    have skipped : (name == "status") = false := beq_eq_false_iff_ne.mpr other
    simp only [stateJson, Config.withoutAnnotations, Json.member?, none, List.isEmpty_nil,
      ↓reduceIte, List.append_nil, List.lookup_cons, skipped]
    rfl

end Stored

end ClrOci
