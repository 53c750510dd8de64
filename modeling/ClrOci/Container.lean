import ClrOci.Process
import ClrOci.Semver
import ClrOci.SpecHandlers
import ClrOci.State

/-! The operations on a container.

Each operation works on the configuration of its process and on the system. A step
that fails ends the operation; nothing that was done before is undone.
-/

set_option autoImplicit false

namespace ClrOci

open Foundation

def sigcont : Int32 := 18

namespace World

def withStatus (world : World) (status : Status) : World :=
  { world with config := world.config.setState { world.config.state with status := status } }

def withSys (world : World) (sys : Sys) : World := { world with sys := sys }

end World

/-- What `clr_oci_get_config_and_state` hands over. -/
structure Fetched where
  config : Config
  state : OciState
  configFile : String

def Config.fill (config : Config) (state : OciState) : Config :=
  { config with
    bundlePath := state.bundlePath
    state := { config.state with
      workloadPid := state.pid
      status := state.status
      commsPath := Buffer.copy _ (state.commsPath.getD "") } }

/-- `clr_oci_get_config_and_state`. -/
-- A blank bundle path is a failure; that the source then frees the state twice is left out.
def getConfigAndState (files : Files) (config : Config) : Option Fetched := do
  let config ← runtimePathGet config
  let config ← stateFileGet config
  let state ← stateFileRead files config.state.stateFilePath.text
  let configFile ← configFilePath state.bundlePath
  return ⟨config.fill state, state, configFile⟩

def Config.placed (config : Config) (id : String) : Config := (config.located id).withStateFilePath

theorem Config.placed_eq (config : Config) (id : String) :
    config.placed id = { config with state := { config.state with
      runtimePath := runtimePath config.rootDir id
      stateFilePath := stateFilePath (runtimePath config.rootDir id) } } := rfl

@[simp] theorem Config.placed_rootDir (config : Config) (id : String) :
    (config.placed id).rootDir = config.rootDir := by
  rw [Config.placed_eq]

theorem Config.placed_optargContainerId (config : Config) (id : String) :
    (config.placed id).optargContainerId = config.optargContainerId := by
  rw [Config.placed_eq]

theorem Config.fill_placed_paths (config : Config) (id : String) (state : OciState) :
    ((config.placed id).fill state).state.runtimePath = runtimePath config.rootDir id ∧
      ((config.placed id).fill state).state.stateFilePath =
        stateFilePath (runtimePath config.rootDir id) := by
  rw [Config.placed_eq]
  exact ⟨rfl, rfl⟩

theorem Config.placed_placed (config : Config) (id : String) :
    (config.placed id).placed id = config.placed id := by
  generalize first : config.placed id = placed
  rw [Config.placed_eq] at first ⊢
  subst first
  dsimp only

theorem stateFileGet_located (config : Config) (id : String) :
    stateFileGet (config.located id) = some (config.placed id) :=
  if_pos (runtimePath_isSet config.rootDir id)

theorem getConfigAndState_eq {files : Files} {config : Config} {id : String}
    (named : config.optargContainerId = some id) :
    getConfigAndState files config = (do
      let state ← stateFileRead files (stateFilePath (runtimePath config.rootDir id)).text
      let configFile ← configFilePath state.bundlePath
      return ⟨(config.placed id).fill state, state, configFile⟩) := by
  simp only [getConfigAndState, runtimePathGet, named, Option.map_some, Option.bind_eq_bind,
    Option.bind_some, stateFileGet_located]
  rfl

/-- `clr_oci_config_update`. -/
def configUpdate (config : Config) (state : OciState) : Config :=
  { config with
    oci := { config.oci with mounts := if state.mounts = [] then config.oci.mounts else state.mounts }
    console := if state.console.isSome then state.console else config.console
    useSocketConsole := state.useSocketConsole
    vm := if state.vm.isSome then state.vm else config.vm
    state := { config.state with procsockPath :=
      match state.procsockPath with
      | some path => Buffer.copy _ path
      | none => config.state.procsockPath } }

/-- `clr_oci_config_check`; `none` when the comparison crashes. -/
def configCheck (config : Config) : Option Bool :=
  match config.oci.ociVersion with
  | none => some false
  | some version => (semverCmp supportedSpecVersion version).map fun order => decide (0 ≤ order)

variable (env : Env)

-- `clr_oci_vm_running`.
def vmRunning (state : OciState) (sys : Sys) : Bool × Sys :=
  if state.pid = 0 then (false, sys) else ((env.host sys.clock).kill state.pid 0, sys.tick)

def writeStatus (created : Option String) (status : Status) : Action World :=
  fun world => stateFileCreate env created (world.withStatus status)

/-- `clr_oci_kill`. -/
def clrOciKill (state : OciState) (signum : Int32) : Action World := fun world =>
  let last := world.config.state.status
  let deliver : Action World := fun world =>
    let sent := kill env state.pid signum world.sys
    if sent.1 then writeStatus env state.createTime .stopped (world.withSys sent.2)
    -- The process is gone: go back to the status found.
    else ⟨.returned false, (writeStatus env state.createTime last (world.withSys sent.2)).state⟩
  (writeStatus env state.createTime .stopping).andThen deliver world

/-- `clr_oci_toggle`. -/
def clrOciToggle (state : OciState) (pause : Bool) : Action World := fun world =>
  let dest := if pause then Status.paused else Status.running
  if state.status = dest then ⟨.returned true, world⟩
  else
    let command := if pause then QmpCommand.pause else QmpCommand.resume
    let world' := world.withSys world.sys.tick
    match (env.host world.sys.clock).qmp command (state.commsPath.getD "") state.pid with
    | .returned true => writeStatus env state.createTime dest world'
    | refused => ⟨refused, world'⟩

def envFilePath (config : Config) : String := buildPath [config.oci.root.path.text, envFile]

def workloadFilePath (config : Config) : String := buildPath [config.oci.root.path.text, workloadFile]

def workloadScript (cwd : PathBuffer) (args : List String) : String :=
  "#!" ++ workloadShell ++ "\ncd " ++ shellQuote cwd.text ++ "\n" ++ strjoin " " args ++ "\n"

def createEnvFile (config : Config) (sys : Sys) : Bool × Sys :=
  match config.oci.process.env with
  | none => (true, sys)
  | some entries => setContents env (envFilePath config) (.text (strjoin "\n" entries)) sys

def Config.withWorkload (config : Config) (vm : VmConfig) (args : List String) : Config :=
  { config with
    vm := some { vm with workloadPath := Buffer.copy _ (workloadFilePath config) }
    oci := { config.oci with process :=
      { config.oci.process with args := some (args.map shellQuote) } } }

/-- `clr_oci_create_container_workload`; missing arguments fail an assertion. -/
def createContainerWorkload : Action World := fun world =>
  match world.config.oci.process.args, world.config.vm with
  | none, _ => ⟨.aborted, world⟩
  | some _, none => ⟨.returned false, world⟩
  | some args, some vm =>
    let made := createEnvFile env world.config world.sys
    if !made.1 then ⟨.returned false, world.withSys made.2⟩
    else
      let config := world.config.withWorkload vm args
      let path := Buffer.copy 4095 (workloadFilePath world.config)
      let script := workloadScript config.oci.process.cwd (args.map shellQuote)
      let written := setContents env path.text (.text script) made.2
      -- The result of `chmod` is logged, not returned.
      ⟨.returned written.1, ⟨config, written.2⟩⟩

def unmountAll : Action World := fun world =>
  let unmade := handleUnmounts env world.config.oci.mounts world.sys
  ⟨unmade.exit, world.withSys unmade.state⟩

def deleteStateFile : Action World := fun world =>
  if !world.config.state.stateFilePath.isSet then ⟨.aborted, world⟩
  else
    let deleted := stateFileDelete env world.config world.sys
    ⟨.returned deleted.1, world.withSys deleted.2⟩

def deleteRuntimeDir : Action World := fun world =>
  let deleted := runtimeDirDelete env world.config world.sys
  ⟨.returned deleted.1, world.withSys deleted.2⟩

/-- `clr_oci_cleanup`. -/
def cleanup : Action World :=
  (unmountAll env).andThen ((deleteStateFile env).andThen (deleteRuntimeDir env))

-- The nodes of `config.json`, dispatched in order.
def parseSections (host : Host) (root : GNode) (config : Config) : Option Parse :=
  root.children.foldlM (processConfigStart host) { config := config }

/-- `clr_oci_config_file_parse`; paths are resolved against the bundle. -/
def configFileParse : Action World := fun world =>
  let host := env.host world.sys.clock
  match world.config.bundlePath, configFilePath world.config.bundlePath with
  | some bundle, some file =>
    if !host.chdir bundle then ⟨.returned false, world⟩
    else
      match jsonParseFile world.sys.files file with
      | none => ⟨.returned false, world⟩
      | some root =>
        match parseSections host root world.config with
        | none => ⟨.aborted, world⟩
        | some parse =>
          let found := getSpecVmFromCfgFile env host world.sys.files parse
          ⟨.returned found.1, { world with config := found.2.config }⟩
  | _, _ => ⟨.returned false, world⟩

def checkConfig : Action World := fun world =>
  match configCheck world.config with
  | none => ⟨.aborted, world⟩
  | some ok => ⟨.returned ok, world⟩

/-- The steps of `clr_oci_create` up to the runtime directory. -/
def claimContainer : Action World :=
  Action.sequence [configFileParse env, checkConfig, runtimeDirSetup env]

def prepareContainer : Action World :=
  (handleMounts env).andThen (createContainerWorkload env)

def prestartHooks : Action World := fun world =>
  let ran := runHooks env world.config.oci.hooks.prestart world.config.state.stateFilePath.text true
    world.sys
  -- A hook that fails is logged, and the creation succeeds.
  ⟨.returned true, world.withSys ran.2⟩

def launchContainer : Action World := fun world =>
  let world' := (world.withStatus .created).withSys world.sys.tick
  match (env.host world.sys.clock).timestamp with
  | none => ⟨.returned false, world'⟩
  | some created => (vmLaunch env).andThen (stateFileCreate env (some created)) world'

variable {env} in
theorem launchContainer_of_succeeds {world : World} (ok : (launchContainer env).Succeeds world) :
    let ready := (world.withStatus .created).withSys world.sys.tick
    ∃ created, (vmLaunch env).Succeeds ready ∧
      (stateFileCreate env (some created)).Succeeds (vmLaunch env ready).state ∧
      launchContainer env world = stateFileCreate env (some created) (vmLaunch env ready).state := by
  unfold Action.Succeeds launchContainer at ok
  unfold launchContainer
  dsimp only at ok ⊢
  split at ok
  · cases ok
  · next created _ =>
    obtain ⟨launched, stored⟩ := Action.andThen_succeeds_iff.mp ok
    exact ⟨created, launched, stored, Action.andThen_of_succeeds launched⟩

/-- `clr_oci_create` after the runtime directory; in dry-run mode nothing is launched. -/
def buildContainer : Action World :=
  (prepareContainer env).andThen fun world =>
    if world.config.dryRunMode then ⟨.returned true, world⟩
    else (launchContainer env).andThen (prestartHooks env) world

/-- `clr_oci_create`. -/
def clrOciCreate : Action World := (claimContainer env).andThen (buildContainer env)

def vmDown (state : OciState) : Action World := fun world =>
  let running := vmRunning env state world.sys
  if !running.1 then ⟨.returned true, world.withSys running.2⟩
  else
    let down := (env.host running.2.clock).qmp .shutdown (state.commsPath.getD "") state.pid
    ⟨down, world.withSys running.2.tick⟩

def cleanupThenHooks : Action World := fun world =>
  let cleaned := cleanup env world
  match cleaned.exit with
  | .returned ok =>
    let config := cleaned.state.config
    let ran := runHooks env config.oci.hooks.poststop config.state.stateFilePath.text false
      cleaned.state.sys
    ⟨.returned ok, cleaned.state.withSys ran.2⟩
  | _ => cleaned

/-- `clr_oci_stop`. -/
def clrOciStop (state : OciState) : Action World := (vmDown env state).andThen (cleanupThenHooks env)

def afterLoop (failed : Bool) : Action World := fun world =>
  match getConfigAndState world.sys.files world.config with
  | none => ⟨.returned false, world⟩
  | some fetched =>
    let world' : World := { world with config := fetched.config }
    if fetched.state.status = .stopped ∨ fetched.state.status = .stopping then ⟨.returned true, world'⟩
    else
      let cleaned := cleanup env world'
      match cleaned.exit with
      | .returned ok => ⟨.returned (ok && !failed), cleaned.state⟩
      | _ => cleaned

def waitForVm : Action World := fun world =>
  match (env.host world.sys.clock).mainLoop world.sys.files with
  | none => ⟨.stuck, world⟩
  | some wakeup => afterLoop env wakeup.failed (world.withSys { world.sys.tick with files := wakeup.files })

-- `start --bundle` replaces the path that the state file gave.
def overrideBundle (data : StartData) : Action World := fun world =>
  match data.bundle with
  | none => ⟨.returned true, world⟩
  | some bundle =>
    let resolved := resolvePath (env.host world.sys.clock) (some bundle)
    ⟨.returned true, { world with config := { world.config with bundlePath := resolved } }⟩

def resumeVm (created : Option String) : Action World := fun world =>
  let sent := kill env world.config.state.workloadPid sigcont world.sys
  if sent.1 then writeStatus env created .running (world.withSys sent.2)
  else ⟨.returned false, world.withSys sent.2⟩

def waits (host : Host) (config : Config) : Bool :=
  host.isatty && !config.detachedMode && !config.useSocketConsole

def watchRuntimeDir (wait : Bool) : Action World := fun world =>
  ⟨.returned (!wait || (env.host world.sys.clock).monitor), world⟩

def poststartHooks : Action World := fun world =>
  let ran := runHooks env world.config.oci.hooks.poststart world.config.state.stateFilePath.text false
    world.sys
  ⟨.returned true, world.withSys ran.2⟩

/-- `clr_oci_start`. -/
def clrOciStart (data : StartData) (state : OciState) : Action World := fun world =>
  if state.status ≠ .created then ⟨.returned false, world⟩
  else
    let wait := waits (env.host world.sys.clock) world.config
    Action.sequence [overrideBundle env data, watchRuntimeDir env wait,
      resumeVm env state.createTime, poststartHooks env,
      if wait then waitForVm env else Action.succeed] world

/-- `clr_oci_run`. The bundle option has been consumed by then. -/
def clrOciRun (data : StartData) : Action World :=
  (clrOciCreate env).andThen fun world =>
    match stateFileRead world.sys.files world.config.state.stateFilePath.text with
    | none => ⟨.returned false, world⟩
    | some state => clrOciStart env { data with bundle := none } state world

end ClrOci
