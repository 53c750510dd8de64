import ClrOci.Foundation.Numeral
import ClrOci.Mount
import Mathlib.Data.Option.Basic

/-! The state file: how it is written from a configuration and read back.

Writer and reader are separate functions of the source. They meet in the document
held by the file, and the reader sees that document through the node tree.
-/

set_option autoImplicit false

namespace ClrOci

open Foundation

/-- `clr_oci_annotations_to_json`. -/
def annotationsToJson (annotations : List Annotation) : List (String × Json) :=
  annotations.foldl
    (fun members note => Json.setMember members note.key (Json.ofString? note.value)) []

def vmJson (vm : VmConfig) : Json :=
  .object [("hypervisor_path", .string vm.hypervisorPath.text),
    ("image_path", .string vm.imagePath.text), ("kernel_path", .string vm.kernelPath.text),
    ("workload_path", .string vm.workloadPath.text),
    -- This element must be set, so no parameters are a blank string.
    ("kernel_params", .string (vm.kernelParams.getD ""))]

def consoleJson (config : Config) : Json :=
  .object [("socket", .bool config.useSocketConsole), ("path", Json.ofString? config.console)]

def stateJson (config : Config) (vm : VmConfig) (id bundlePath status created : String) : Json :=
  .object ([("ociVersion", .string supportedSpecVersion), ("id", .string id),
    ("pid", .int config.state.workloadPid.toUInt32.toNat), ("bundlePath", .string bundlePath),
    ("commsPath", .string config.state.commsPath.text),
    ("processPath", .string config.state.procsockPath.text), ("status", .string status),
    ("created", .string created), ("mounts", mountsToJson config.oci.mounts),
    ("console", consoleJson config), ("vm", vmJson vm)] ++
    if config.oci.annotations.isEmpty then []
    else [("annotations", .object (annotationsToJson config.oci.annotations))])

def stateFilePath (runtimePath : PathBuffer) : PathBuffer :=
  Buffer.copy _ (runtimePath.text ++ "/" ++ stateFileName)

def Config.withStateFilePath (config : Config) : Config :=
  { config with state :=
    { config.state with stateFilePath := stateFilePath config.state.runtimePath } }

/-- `clr_oci_state_file_get`. -/
def stateFileGet (config : Config) : Option Config :=
  if config.state.runtimePath.isSet then some config.withStateFilePath else none

theorem stateFileGet_eq_some {config located : Config} (got : stateFileGet config = some located) :
    located = config.withStateFilePath := by
  unfold stateFileGet at got
  split at got
  · exact (Option.some.inj got).symm
  · cases got

-- The values that `clr_oci_state_file_create` insists on.
structure StateInputs where
  created : String
  id : String
  bundlePath : String
  vm : VmConfig

def stateInputs (config : Config) (created : Option String) : Option StateInputs := do
  let created ← created
  let id ← config.optargContainerId
  guard (id ≠ "")
  let bundlePath ← config.bundlePath
  guard (config.state.runtimePath.isSet ∧ config.state.commsPath.isSet ∧
    config.state.procsockPath.isSet)
  let vm ← config.vm
  return ⟨created, id, bundlePath, vm⟩

variable (env : Env)

/-- `clr_oci_state_file_create`. -/
def stateFileCreate (created : Option String) : Action World := fun world =>
  match stateInputs world.config created, stateFileGet world.config with
  | some inputs, some config =>
    match config.state.status.toStr with
    | none => ⟨.returned false, { world with config := config }⟩
    | some status =>
      let document := stateJson config inputs.vm inputs.id inputs.bundlePath status inputs.created
      let written := setContents env config.state.stateFilePath.text (.json document) world.sys
      ⟨.returned written.1, { config := config, sys := written.2 }⟩
  | _, _ => ⟨.returned false, world⟩

/-- `clr_oci_state_file_delete`. -/
def stateFileDelete (config : Config) (sys : Sys) : Bool × Sys :=
  unlink env config.state.stateFilePath.text sys

-- `state_handlers`, in table order.
inductive Section where
  | ociVersion | id | pid | bundlePath | commsPath | processPath | status | created
  | mounts | console | vm | annotations
  deriving DecidableEq

namespace Section

def name : Section → String
  | .ociVersion => "ociVersion"
  | .id => "id"
  | .pid => "pid"
  | .bundlePath => "bundlePath"
  | .commsPath => "commsPath"
  | .processPath => "processPath"
  | .status => "status"
  | .created => "created"
  | .mounts => "mounts"
  | .console => "console"
  | .vm => "vm"
  | .annotations => "annotations"

-- `subelements_needed`.
def needed : Section → Nat
  | .mounts | .annotations => 0
  | .console => 2
  | .vm => 5
  | _ => 1

def all : List Section :=
  [.ociVersion, .id, .pid, .bundlePath, .commsPath, .processPath, .status, .created,
    .mounts, .console, .vm, .annotations]

end Section

-- `update_subelements_and_strdup`.
def strdupMember (node : GNode) (state : OciState) (update : String → OciState) : OciState × Nat :=
  match node.data with
  | none => (state, 0)
  | some text => (update text, 1)

def handleStatePidSection (node : GNode) (state : OciState) : OciState × Nat :=
  match node.data with
  | none => (state, 0)
  | some text =>
    match strtoll text with
    | none => ({ state with pid := 0 }, 0)
    | some value => ({ state with pid := Int32.ofInt value }, 1)

def memberText (node : GNode) : Option (String × String) := do
  let name ← node.data
  let value ← node.childData?
  return (name, ← value)

def handleStateConsoleSection (node : GNode) (state : OciState) : OciState × Nat :=
  match memberText node with
  | none => (state, 0)
  | some (name, value) =>
    if name = "socket" then ({ state with useSocketConsole := value == "true" }, 1)
    else if name = "path" then ({ state with console := some value }, 1)
    else (state, 0)

def handleStateVmSection (node : GNode) (state : OciState) : OciState × Nat :=
  match memberText node, state.vm with
  | some (name, value), some vm =>
    if name = "workload_path" then
      ({ state with vm := some { vm with workloadPath := Buffer.copy _ value } }, 1)
    else if name = "hypervisor_path" then
      ({ state with vm := some { vm with hypervisorPath := Buffer.copy _ value } }, 1)
    else if name = "kernel_path" then
      ({ state with vm := some { vm with kernelPath := Buffer.copy _ value } }, 1)
    else if name = "image_path" then
      ({ state with vm := some { vm with imagePath := Buffer.copy _ value } }, 1)
    else if name = "kernel_params" then
      ({ state with vm := some { vm with kernelParams := some value } }, 1)
    else (state, 0)
  | _, _ => (state, 0)

/-- `handle_state_annotations_section`: a member without a value is passed over. -/
def handleStateAnnotationsSection (node : GNode) (annotations : List Annotation) : List Annotation :=
  match memberText node with
  | none => annotations
  | some (key, value) => ⟨key, some value⟩ :: annotations

def Section.handle (node : GNode) (state : OciState) : Section → OciState × Nat
  | .ociVersion => strdupMember node state fun text => { state with ociVersion := some text }
  | .id => strdupMember node state fun text => { state with id := some text }
  | .pid => handleStatePidSection node state
  | .bundlePath => strdupMember node state fun text => { state with bundlePath := some text }
  | .commsPath => strdupMember node state fun text => { state with commsPath := some text }
  | .processPath => strdupMember node state fun text => { state with procsockPath := some text }
  | .status => strdupMember node state fun text => { state with status := Status.ofStr text }
  | .created => strdupMember node state fun text => { state with createTime := some text }
  | .mounts => ({ state with mounts := handleStateMountsSection node state.mounts }, 0)
  | .console => handleStateConsoleSection node state
  | .vm => handleStateVmSection node state
  | .annotations =>
    ({ state with annotations := handleStateAnnotationsSection node state.annotations }, 0)

structure Reading where
  state : OciState
  counts : Section → Nat

def Reading.start : Reading := ⟨{ vm := some {} }, fun _ => 0⟩

def Reading.visit (handler : Section) (reading : Reading) (node : GNode) : Reading :=
  let handled := handler.handle node reading.state
  ⟨handled.1, Function.update reading.counts handler (reading.counts handler + handled.2)⟩

-- `g_node_children_foreach` of a section with its handler.
def Reading.foreach (handler : Section) (children : List GNode) (reading : Reading) : Reading :=
  children.foldl (Reading.visit handler) reading

/-- `handle_state_sections`. -/
def handleStateSections (reading : Reading) (node : GNode) : Reading :=
  match node.data with
  | none => reading
  | some name =>
    match Section.all.find? fun handler => handler.name == name with
    | none => reading
    | some handler => reading.foreach handler node.children

def Reading.complete (reading : Reading) : Bool :=
  Section.all.all fun handler => handler.needed ≤ reading.counts handler

/-- `clr_oci_state_file_read`. -/
def stateFileRead (files : Files) (path : String) : Option OciState :=
  match jsonParseFile files path with
  | none => none
  | some root =>
    let reading := root.children.foldl handleStateSections Reading.start
    if reading.complete then some reading.state else none

theorem stateFilePath_ne_empty {runtimePath : PathBuffer} (set : runtimePath.isSet = true) :
    (stateFilePath runtimePath).text ≠ "" := by
  intro blank
  have nonempty : runtimePath.text.toList ≠ [] := by
    simpa [Buffer.isSet] using set
  have cut : (runtimePath.text ++ "/" ++ stateFileName).toList.take 4095 = [] := by
    have text := congrArg String.toList blank
    simpa only [stateFilePath, Buffer.copy, String.toList_ofList, String.toList_empty] using text
  have short := List.take_eq_nil_iff.mp cut
  simp [nonempty] at short

section Create
variable {env} {created : Option String} {world : World} {inputs : StateInputs} {status : String}

theorem stateInputs_eq_some_iff {config : Config} :
    stateInputs config created = some inputs ↔
      created = some inputs.created ∧ config.optargContainerId = some inputs.id ∧ inputs.id ≠ "" ∧
        config.bundlePath = some inputs.bundlePath ∧ config.state.runtimePath.isSet = true ∧
        config.state.commsPath.isSet = true ∧ config.state.procsockPath.isSet = true ∧
        config.vm = some inputs.vm := by
  obtain ⟨time, id, bundle, vm⟩ := inputs
  simp only [stateInputs, Option.bind_eq_bind, Option.bind_eq_some_iff, Option.guard_eq_some',
    Option.pure_def, Option.some.injEq, StateInputs.mk.injEq]
  constructor
  · rintro ⟨_, time, _, id, _, named, _, bundle, _, paths, _, vm, rfl, rfl, rfl, rfl⟩
    exact ⟨time, id, named, bundle, paths.1, paths.2.1, paths.2.2, vm⟩
  · rintro ⟨time, id, named, bundle, runtime, comms, procsock, vm⟩
    exact ⟨_, time, _, id, (), named, _, bundle, (), ⟨runtime, comms, procsock⟩, _, vm, rfl, rfl, rfl, rfl⟩

theorem stateFileCreate_eq (given : stateInputs world.config created = some inputs)
    (named : world.config.state.status.toStr = some status) :
    stateFileCreate env created world =
      let path := (stateFilePath world.config.state.runtimePath).text
      let document := stateJson world.config inputs.vm inputs.id inputs.bundlePath status inputs.created
      let written := setContents env path (.json document) world.sys
      ⟨.returned written.1, { config := world.config.withStateFilePath, sys := written.2 }⟩ := by
  have set := (stateInputs_eq_some_iff.mp given).2.2.2.2.1
  unfold stateFileCreate
  rw [given, stateFileGet, if_pos set]
  simp only [Config.withStateFilePath, named]
  rfl

theorem stateFileCreate_succeeds_iff :
    (stateFileCreate env created).Succeeds world ↔
      (∃ inputs, stateInputs world.config created = some inputs) ∧
        world.config.state.status ≠ .invalid ∧
        (env.host world.sys.clock).setContents
          (stateFilePath world.config.state.runtimePath).text = true := by
  cases given : stateInputs world.config created with
  | none =>
    have refused : stateFileCreate env created world = ⟨.returned false, world⟩ := by
      rw [stateFileCreate, given]
    simp [Action.Succeeds, refused]
  | some inputs =>
    cases named : world.config.state.status.toStr with
    | none =>
      have invalid : world.config.state.status = .invalid := by
        by_contra other
        have known := (Status.toStr_isSome_iff _).mpr other
        rw [named] at known
        cases known
      have refused : (stateFileCreate env created world).exit = .returned false := by
        have set := (stateInputs_eq_some_iff.mp given).2.2.2.2.1
        unfold stateFileCreate
        rw [given, stateFileGet, if_pos set]
        simp only [Config.withStateFilePath, named]
      simp [Action.Succeeds, refused, invalid]
    | some status =>
      have valid := (Status.toStr_isSome_iff _).mp (Option.isSome_of_mem named)
      rw [Action.Succeeds, stateFileCreate_eq given named, Exit.returned.injEq, setContents_ok_iff]
      simp [valid]

theorem stateFileCreate_state (ok : (stateFileCreate env created).Succeeds world) :
    ∃ inputs status, stateInputs world.config created = some inputs ∧
      world.config.state.status.toStr = some status ∧
      (stateFileCreate env created world).state =
        { config := world.config.withStateFilePath
          sys := world.sys.tick.written (stateFilePath world.config.state.runtimePath).text (.json
            (stateJson world.config inputs.vm inputs.id inputs.bundlePath status inputs.created)) } := by
  obtain ⟨⟨inputs, given⟩, valid, allowed⟩ := stateFileCreate_succeeds_iff.mp ok
  obtain ⟨status, named⟩ := Option.isSome_iff_exists.mp ((Status.toStr_isSome_iff _).mpr valid)
  refine ⟨inputs, status, given, named, ?_⟩
  have written := (setContents_ok_iff env _ (.json (stateJson world.config inputs.vm inputs.id
    inputs.bundlePath status inputs.created)) world.sys).mpr allowed
  simp only [stateFileCreate_eq given named, setContents_of_ok env written]

end Create

theorem handleStateSections_name (handler : Section) (children : List GNode) (reading : Reading) :
    handleStateSections reading (.node (some handler.name) children) =
      reading.foreach handler children := by
  cases handler <;> rfl

theorem handleStateSections_separator (reading : Reading) :
    handleStateSections reading GNode.separator = reading := rfl

end ClrOci
