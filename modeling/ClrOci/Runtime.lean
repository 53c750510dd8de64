import ClrOci.Foundation.Steps
import ClrOci.Util

/-! The runtime directory of a container. -/

set_option autoImplicit false

namespace ClrOci

open Foundation

def Config.setState (config : Config) (state : ContainerState) : Config :=
  { config with state := state }

def runtimePath (rootDir : Option String) (id : String) : PathBuffer :=
  Buffer.copy _ (rootDir.getD runtimeDirPrefix ++ "/" ++ id)

theorem runtimePath_isSet (rootDir : Option String) (id : String) :
    (runtimePath rootDir id).isSet = true := by
  have separated : '/' ∈ (rootDir.getD runtimeDirPrefix ++ "/" ++ id).toList := by simp
  have nonempty := List.ne_nil_of_mem separated
  simp only [runtimePath, Buffer.isSet, Buffer.copy, bne_iff_ne, ne_eq]
  intro blank
  have cut := congrArg String.toList blank
  rw [String.toList_ofList, String.toList_empty, List.take_eq_nil_iff] at cut
  rcases cut with impossible | blank
  · cases impossible
  · exact nonempty blank

def Config.located (config : Config) (id : String) : Config :=
  config.setState { config.state with runtimePath := runtimePath config.rootDir id }

/-- `clr_oci_runtime_path_get`. -/
def runtimePathGet (config : Config) : Option Config :=
  config.optargContainerId.map config.located

def commsPath (runtimePath : PathBuffer) : PathBuffer :=
  Buffer.copy _ (runtimePath.text ++ "/" ++ hypervisorSocket)

def procsockPath (runtimePath : PathBuffer) : PathBuffer :=
  Buffer.copy _ (runtimePath.text ++ "/" ++ processSocket)

def runtimePaths (config : Config) : Option Config := do
  let config ← if config.state.runtimePath.isSet then some config else runtimePathGet config
  let runtime := config.state.runtimePath
  return config.setState { config.state with
    commsPath := commsPath runtime, procsockPath := procsockPath runtime }

variable (env : Env)

/-- `clr_oci_runtime_dir_setup`: a failure to make the parents is only logged. -/
def runtimeDirSetup : Action World := fun world =>
  match runtimePaths world.config with
  | none => ⟨.returned false, world⟩
  | some config =>
    let path := config.state.runtimePath.text
    let parents := mkdirWithParents env (dirname path) world.sys
    let made := mkdir env path parents.2
    ⟨.returned made.1, ⟨config, made.2⟩⟩

/-- `clr_oci_runtime_dir_delete`. -/
def runtimeDirDelete (config : Config) (sys : Sys) : Bool × Sys :=
  if isAbsolute config.state.runtimePath.text then rmRf env config.state.runtimePath.text sys
  else (false, sys)

end ClrOci
