import ClrOci.Runtime

/-! Processes: the hypervisor's command line and launch, and the hooks. -/

set_option autoImplicit false

namespace ClrOci

open Foundation

def uuidPattern : List Char := "00000000-0000-0000-0000-000000000000".toList

-- The loop over the bytes: two digits each, then a hyphen where the pattern has one.
def uuidText (uuid : List UInt8) : String :=
  String.ofList (uuid.foldl (fun text byte =>
    let digits := text ++ [Nat.digitChar (byte.toNat / 16), Nat.digitChar (byte.toNat % 16)]
    if uuidPattern[digits.length]? = some '-' then digits ++ ['-'] else digits) [])

-- `g_strrstr (uuid_str, "-") + 1`.
def uuidName (uuid : String) : String :=
  String.ofList (uuid.toList.reverse.takeWhile (· != '-')).reverse

def Config.withConsole (config : Config) : Config :=
  if config.console.all fun console => utf8Strlen console lineMax = 0 then
    { config with
      console := some (buildPath [config.state.runtimePath.text, consoleSocket])
      useSocketConsole := true }
  else config

def consoleDevice (given prepared : Config) : String :=
  if given.console.all fun console => utf8Strlen console lineMax = 0 then
    "socket,path=" ++ textOrNull prepared.console ++ ",server,nowait,id=charconsole0,signal=off"
  else "stdio,id=charconsole0,signal=off"

/-- The tags of the command line with their values, in the order of replacement. -/
def commandLineTags (config prepared : Config) (vm : VmConfig) (size : Nat) (uuid : String) :
    List (String × Option String) :=
  [("@WORKLOAD_DIR@", some config.oci.root.path.text), ("@KERNEL@", some vm.kernelPath.text),
    ("@KERNEL_PARAMS@", vm.kernelParams), ("@IMAGE@", some vm.imagePath.text),
    ("@SIZE@", some (toString size)), ("@COMMS_SOCKET@", some config.state.commsPath.text),
    ("@PROCESS_SOCKET@",
      some ("socket,id=procsock,path=" ++ config.state.procsockPath.text ++ ",server,nowait")),
    ("@CONSOLE_DEVICE@", some (consoleDevice config prepared)), ("@NAME@", some (uuidName uuid)),
    ("@UUID@", some uuid)]

def expandArg (tags : List (String × Option String)) (arg : String) : String :=
  tags.foldl (fun text tag => replaceString text tag.1 tag.2) arg

-- The command must be the first entry; a relative one is looked up.
def resolveCommand (host : Host) : List String → List String
  | [] => []
  | command :: rest =>
    if isAbsolute command then command :: rest
    else (host.findProgramInPath command).getD command :: rest

/-- `clr_oci_expand_cmdline`: the configuration with its console, and the expanded arguments. -/
def expandCmdline (host : Host) (config : Config) (args : List String) :
    Option (Config × List String) := do
  let vm ← config.vm
  guard vm.imagePath.isSet
  let image ← host.stat vm.imagePath.text
  guard (vm.kernelPath.isSet ∧ (host.stat vm.kernelPath.text).isSome)
  guard (config.oci.root.path.isSet ∧ (host.stat config.oci.root.path.text).isSome)
  let prepared := config.withConsole
  let tags := commandLineTags config prepared vm image.size (uuidText host.uuid)
  return (prepared, (resolveCommand host args).map (expandArg tags))

variable (env : Env)

/-- `clr_oci_vm_args_file_path`: the bundle first, then the two system directories. -/
def vmArgsFilePath (host : Host) (config : Config) : Option String := do
  let inBundle ← getBundlepathFile config.bundlePath hypervisorCmdlineFile
  let inSysconf := buildPath [env.sysconfdir, hypervisorCmdlineFile]
  let inDefaults := buildPath [env.defaultsdir, hypervisorCmdlineFile]
  [inBundle, inSysconf, inDefaults].find? fun file => (host.stat file).isSome

/-- `clr_oci_vm_args_get`. -/
def vmArgsGet (host : Host) (config : Config) : Option (Config × List String) := do
  let args ← fileToStrv host (vmArgsFilePath env host config)
  expandCmdline host config args

def Config.setWorkloadPid (config : Config) (pid : GPid) : Config :=
  config.setState { config.state with workloadPid := pid }

-- What follows the spawn. A child that is not stopped as expected is logged, but the
-- result is still that of the spawn.
def vmWait (config : Config) (sys : Sys) : Bool × Sys :=
  match (env.host sys.clock).waitpid with
  | .stopped 5 =>
    if !(env.host sys.tick.clock).detach then (true, sys.tick.tick)
    else
      match config.pidFile with
      | some pidfile => createPidfile env pidfile config.state.workloadPid sys.tick.tick
      | none => (true, sys.tick.tick)
  | _ => (true, sys.tick)

def Sys.launched (sys : Sys) (args : List String) (pid : GPid) : Sys :=
  { sys.log (.spawn args pid) with procs := pid :: sys.procs }

/-- `clr_oci_vm_launch`. -/
def vmLaunch : Action World := fun world =>
  let host := env.host world.sys.clock
  match vmArgsGet env host world.config with
  | none => ⟨.returned false, world⟩
  | some (config, args) =>
    match host.spawn args with
    | none => ⟨.returned false, ⟨config, world.sys.tick⟩⟩
    | some pid =>
      let waited := vmWait env (config.setWorkloadPid pid) (world.sys.tick.launched args pid)
      ⟨.returned waited.1, ⟨config.setWorkloadPid pid, waited.2⟩⟩

/-- `clr_run_hook`, with the state of the container on stdin. -/
def runHook (hook : Hook) (state : Content) (sys : Sys) : Bool × Sys :=
  let outcome := (env.host sys.clock).hook hook
  (outcome == .exited 0, sys.tick.log (.hook hook state outcome))

def runHookList (stopOnFailure : Bool) (state : Content) : List Hook → Sys → Bool × Sys
  | [], sys => (true, sys)
  | hook :: rest, sys =>
    let ran := runHook env hook state sys
    if !ran.1 && stopOnFailure then (false, ran.2) else runHookList stopOnFailure state rest ran.2

/-- `clr_run_hooks`. -/
def runHooks (hooks : List Hook) (stateFilePath : String) (stopOnFailure : Bool) (sys : Sys) :
    Bool × Sys :=
  if hooks = [] then (true, sys)
  else
    match sys.files stateFilePath with
    | none => (false, sys)
    | some state => runHookList env stopOnFailure state hooks sys

end ClrOci
