import ClrOci.Foundation.Text

/-! The data of a container: the configuration, its bundle and its state.

The structures follow `oci.h`. A pointer that may be `NULL` is an option, an array
of `PATH_MAX` characters is a buffer, and a list of pointers is a list. A string
vector holds the strings before its first `NULL`, which is what every reader sees.
-/

set_option autoImplicit false

namespace ClrOci

open Foundation (Buffer)

/-- `gchar[PATH_MAX]`. -/
abbrev PathBuffer := Buffer 4095

/-- `GPid`, `int` and `gint`. -/
abbrev GPid := Int32

def supportedSpecVersion : String := "1.0.0-rc1"
def configFileName : String := "config.json"
def hypervisorSocket : String := "hypervisor.sock"
def processSocket : String := "process.sock"
def consoleSocket : String := "console.sock"
def stateFileName : String := "state.json"
def runtimeDirPrefix : String := "/run/opencontainer/containers"
def expectedPlatform : String := "linux"
def expectedArchitecture : String := "amd64"
def workloadFile : String := "/.containerexec"
def envFile : String := "/.dockerenv"
def workloadShell : String := "/bin/sh"
def vmConfigFile : String := "vm.json"
def hypervisorCmdlineFile : String := "hypervisor.args"

/-- `enum oci_status`. -/
inductive Status where
  | created | running | paused | stopped | stopping | invalid
  deriving DecidableEq, Repr

/-- `enum oci_namespace`; the flag values are those of `clone(2)`. -/
inductive NamespaceType where
  | pid | net | mount | ipc | uts | user | cgroup | invalid
  deriving DecidableEq, Repr

structure Platform where
  os : Option String := none
  arch : Option String := none
  deriving DecidableEq

structure Root where
  path : PathBuffer := Buffer.empty
  readOnly : Bool := false
  deriving DecidableEq

structure User where
  uid : UInt32 := 0
  gid : UInt32 := 0
  deriving DecidableEq

structure Hook where
  path : PathBuffer := Buffer.empty
  args : Option (List String) := none
  env : Option (List String) := none
  timeout : Int32 := 0
  deriving DecidableEq

structure Hooks where
  prestart : List Hook := []
  poststart : List Hook := []
  poststop : List Hook := []
  deriving DecidableEq

structure Annotation where
  key : String
  value : Option String
  deriving DecidableEq

structure Namespace where
  type : NamespaceType := .invalid
  path : Option String := none
  deriving DecidableEq

structure Process where
  args : Option (List String) := none
  cwd : PathBuffer := Buffer.empty
  env : Option (List String) := none
  terminal : Bool := false
  user : User := {}
  deriving DecidableEq

/-- `struct mntent`. -/
structure MountEntry where
  fsname : Option String := none
  dir : Option String := none
  type : Option String := none
  opts : Option String := none
  deriving DecidableEq

/-- `struct clr_oci_mount`. -/
structure Mount where
  flags : Nat := 0
  entry : MountEntry := {}
  /-- Full path of the mount point: the root path followed by `entry.dir`. -/
  dest : PathBuffer := Buffer.empty
  ignoreMount : Bool := false
  deriving DecidableEq

/-- `struct oci_cfg`. -/
structure Spec where
  ociVersion : Option String := none
  hooks : Hooks := {}
  hostname : Option String := none
  mounts : List Mount := []
  annotations : List Annotation := []
  platform : Platform := {}
  root : Root := {}
  process : Process := {}
  namespaces : List Namespace := []
  deriving DecidableEq

/-- `struct clr_oci_vm_cfg`. -/
structure VmConfig where
  hypervisorPath : PathBuffer := Buffer.empty
  imagePath : PathBuffer := Buffer.empty
  kernelPath : PathBuffer := Buffer.empty
  workloadPath : PathBuffer := Buffer.empty
  kernelParams : Option String := none
  deriving DecidableEq

/-- `struct clr_oci_container_state`. -/
structure ContainerState where
  stateFilePath : PathBuffer := Buffer.empty
  runtimePath : PathBuffer := Buffer.empty
  commsPath : PathBuffer := Buffer.empty
  procsockPath : PathBuffer := Buffer.empty
  workloadPid : GPid := 0
  status : Status := .created
  deriving DecidableEq

/-- `struct clr_oci_config`, zeroed when a command starts. -/
structure Config where
  oci : Spec := {}
  vm : Option VmConfig := none
  state : ContainerState := {}
  bundlePath : Option String := none
  pidFile : Option String := none
  console : Option String := none
  useSocketConsole : Bool := false
  rootDir : Option String := none
  optargContainerId : Option String := none
  dryRunMode : Bool := false
  detachedMode : Bool := false
  deriving DecidableEq

/-- `struct oci_state`, what is read back from the state file. -/
structure OciState where
  ociVersion : Option String := none
  id : Option String := none
  pid : GPid := 0
  bundlePath : Option String := none
  commsPath : Option String := none
  procsockPath : Option String := none
  status : Status := .created
  createTime : Option String := none
  mounts : List Mount := []
  annotations : List Annotation := []
  console : Option String := none
  useSocketConsole : Bool := false
  vm : Option VmConfig := none
  deriving DecidableEq

/-- `struct start_data`: the options given on the command line. -/
structure StartData where
  bundle : Option String := none
  console : Option String := none
  pidFile : Option String := none
  detach : Bool := false
  dryRunMode : Bool := false
  deriving DecidableEq

namespace Status

/-- `oci_status_map`. -/
def map : List (Status × String) :=
  [(.created, "created"), (.running, "running"), (.paused, "paused"),
    (.stopped, "stopped"), (.stopping, "stopping")]

/-- `clr_oci_status_to_str`. -/
def toStr (status : Status) : Option String :=
  (map.find? fun entry => entry.1 == status).map Prod.snd

/-- `clr_oci_str_to_status`. -/
def ofStr (text : String) : Status :=
  ((map.find? fun entry => entry.2 == text).map Prod.fst).getD .invalid

theorem ofStr_of_toStr {status : Status} {text : String} (named : status.toStr = some text) :
    ofStr text = status := by
  cases status <;> cases named <;> decide

theorem toStr_isSome_iff (status : Status) : status.toStr.isSome = true ↔ status ≠ .invalid := by
  cases status <;> decide

end Status

end ClrOci
