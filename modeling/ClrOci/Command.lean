import ClrOci.Container

/-! The commands, each in a process of its own that starts from an empty configuration. -/

set_option autoImplicit false

namespace ClrOci

open Foundation

/-- `signal_table`. -/
def signalTable : List (String × Int32) :=
  [("SIGHUP", 1), ("SIGINT", 2), ("SIGQUIT", 3), ("SIGILL", 4), ("SIGTRAP", 5), ("SIGABRT", 6),
    ("SIGIOT", 6), ("SIGBUS", 7), ("SIGFPE", 8), ("SIGKILL", 9), ("SIGUSR1", 10), ("SIGSEGV", 11),
    ("SIGUSR2", 12), ("SIGPIPE", 13), ("SIGALRM", 14), ("SIGTERM", 15), ("SIGSTKFLT", 16),
    ("SIGCLD", 17), ("SIGCHLD", 17), ("SIGCONT", 18), ("SIGSTOP", 19), ("SIGTSTP", 20),
    ("SIGTTIN", 21), ("SIGTTOU", 22), ("SIGURG", 23), ("SIGXCPU", 24), ("SIGXFSZ", 25),
    ("SIGVTALRM", 26), ("SIGPROF", 27), ("SIGWINCH", 28), ("SIGPOLL", 29), ("SIGIO", 29),
    ("SIGPWR", 30), ("SIGSYS", 31), ("SIGUNUSED", 31)]

def sigterm : Int32 := 15

/-- `clr_oci_get_signum`, with or without the prefix. -/
def getSignum (signame : String) : Int32 :=
  let full := if "SIG".toList.isPrefixOf signame.toList then signame else "SIG" ++ signame
  (signalTable.lookup (Buffer.copy 31 full).text).getD (-1)

/-- `handle_default_usage`: the result when the arguments only ask for the usage. -/
def handleDefaultUsage : List String → Option Bool
  | [] => some false
  | first :: _ => if first = "--help" ∨ first = "-h" then some true else none

def Config.setContainerId (config : Config) (id : Option String) : Config :=
  { config with optargContainerId := id }

@[simp] theorem Config.setContainerId_rootDir (config : Config) (id : Option String) :
    (config.setContainerId id).rootDir = config.rootDir := rfl

def World.setContainerId (world : World) (id : Option String) : World :=
  { world with config := world.config.setContainerId id }

/-- `clr_oci_state_file_exists`. -/
def stateFileExists (files : Files) (config : Config) : Bool × Config :=
  match runtimePathGet config with
  | none => (false, config)
  | some config =>
    match stateFileGet config with
    | none => (false, config)
    | some config => ((files config.state.stateFilePath.text).isSome, config)

theorem stateFileExists_eq {files : Files} {config : Config} {id : String}
    (named : config.optargContainerId = some id) :
    stateFileExists files config =
      ((files (stateFilePath (runtimePath config.rootDir id)).text).isSome, config.placed id) := by
  simp only [stateFileExists, runtimePathGet, named, Option.map_some, stateFileGet_located]
  rfl

variable (env : Env)

/-- `handle_command_setup`. -/
def handleCommandSetup (data : StartData) (argv : List String) : Action World := fun world =>
  match handleDefaultUsage argv with
  | some ret => ⟨.returned ret, world⟩
  | none =>
    let named := world.setContainerId argv.head?
    let finish (bundle : Option String) : Run World :=
      ⟨.returned true, { named with config := { named.config with
        bundlePath := resolvePath (env.host world.sys.clock) bundle
        console := data.console
        pidFile := data.pidFile
        dryRunMode := data.dryRunMode
        detachedMode := data.detach } }⟩
    match data.bundle, argv with
    | some bundle, [_] => finish (some bundle)
    | none, [_, bundle] => finish (some bundle)
    | _, _ => ⟨.returned false, named⟩

/-- `handler_create`. -/
def handlerCreate (data : StartData) (argv : List String) : Action World :=
  (handleCommandSetup env data argv).andThen (clrOciCreate env)

/-- `handler_run`. -/
def handlerRun (data : StartData) (argv : List String) : Action World :=
  (handleCommandSetup env data argv).andThen (clrOciRun env data)

-- What `start`, `pause`, `resume` and `kill` do with the state file before they act.
def withState (act : OciState → Action World) : Action World := fun world =>
  match getConfigAndState world.sys.files world.config with
  | none => ⟨.returned false, world⟩
  | some fetched =>
    act fetched.state { world with config := configUpdate fetched.config fetched.state }

/-- `handler_start`. -/
def handlerStart (data : StartData) (argv : List String) : Action World := fun world =>
  match handleDefaultUsage argv with
  | some ret => ⟨.returned ret, world⟩
  | none => withState (clrOciStart env data) (world.setContainerId argv.head?)

/-- `handle_command_toggle`. -/
def handleCommandToggle (pause : Bool) (argv : List String) : Action World := fun world =>
  match handleDefaultUsage argv with
  | some ret => ⟨.returned ret, world⟩
  | none => withState (fun state => clrOciToggle env state pause) (world.setContainerId argv.head?)

-- The signal that the arguments of `kill` ask for.
def killSignum : List String → Option Int32
  | [_, signame] =>
    let signum := if 0 < atoi signame then atoi signame else getSignum signame
    if signum < 0 then none else some signum
  | _ => some sigterm

/-- `handler_kill`. -/
def handlerKill (argv : List String) : Action World := fun world =>
  match argv with
  | [] => ⟨.returned false, world⟩
  | id :: _ =>
    if id = "--help" ∨ id = "-h" then ⟨.returned true, world⟩
    else
      let world := world.setContainerId (some id)
      match killSignum argv with
      | none => ⟨.returned false, world⟩
      | some signum => withState (fun state => clrOciKill env state signum) world

/-- `handle_command_stop`, from the parsed `config.json` on. -/
def stopFetched (fetched : Fetched) (root : GNode) : Action World := fun world =>
  match root.children.foldlM (processConfigStop (env.host world.sys.clock))
      ({ config := fetched.config } : Parse) with
  | none => ⟨.aborted, world⟩
  | some parse =>
    let oci := { parse.config.oci with mounts := fetched.state.mounts }
    clrOciStop env fetched.state { world with config := { parse.config with oci := oci } }

/-- `handle_command_stop`. -/
def handleCommandStop (argv : List String) : Action World := fun world =>
  match handleDefaultUsage argv with
  | some ret => ⟨.returned ret, world⟩
  | none =>
    let found := stateFileExists world.sys.files (world.config.setContainerId argv.head?)
    let world' := { world with config := found.2 }
    if !found.1 then ⟨.returned true, world'⟩
    else
      match getConfigAndState world.sys.files found.2 with
      | none => ⟨.returned false, world'⟩
      | some fetched =>
        match jsonParseFile world.sys.files fetched.configFile with
        -- The return value is still that of the state file.
        | none => ⟨.returned true, { world' with config := fetched.config }⟩
        | some root => stopFetched env fetched root world'

end ClrOci
