import ClrOci.Util

/-! The section handlers of the bundle configuration and their dispatchers.

A handler works on the nodes of its section and says whether the section is
complete. `none` stands for a read through a null pointer, which kills the process.
-/

set_option autoImplicit false

namespace ClrOci

open Foundation

-- The first child of a node that has children: `root->children->data`.
def childText (node : GNode) : Option String := node.childData?.join

-- An item collected member by member, the error flag, and the items saved so far.
structure Scan (A : Type) where
  current : Option A := none
  error : Bool := false
  saved : List A := []

namespace Scan
variable {A : Type} [Inhabited A] (complete : A → Bool) (fill : String → GNode → A → Option A)

/-- `save_current_*`: an incomplete item is an error and is dropped. -/
def save (scan : Scan A) : Scan A :=
  match scan.current with
  | none => scan
  | some item =>
    if complete item then { scan with current := none, saved := scan.saved ++ [item] }
    else { scan with current := none, error := true }

def visit (scan : Scan A) (node : GNode) : Scan A :=
  if scan.error then scan
  else
    match node.data with
    | none => scan.save complete
    | some name =>
      if node.hasChildren then
        match fill name node (scan.current.getD default) with
        | some item => { scan with current := some item }
        | none => { scan with current := none, error := true }
      else scan

end Scan

/-- `handle_annotation`: an empty value is kept as none. -/
def handleAnnotation (annotations : List Annotation) (node : GNode) : List Annotation :=
  match node.data with
  | none => annotations
  | some key =>
    if !node.hasChildren || key = "" then annotations
    else ⟨key, (childText node).filter (· ≠ "")⟩ :: annotations

instance : Inhabited Hook := ⟨{}⟩
instance : Inhabited Mount := ⟨{}⟩
instance : Inhabited Namespace := ⟨{}⟩

/-- A member of a hook, in `handle_hook`. -/
def fillHook (name : String) (node : GNode) (hook : Hook) : Option Hook :=
  if name = "path" then some { hook with path := Buffer.copy _ (textOrNull (childText node)) }
  else if name = "args" then some { hook with args := some (nodeToStrv node) }
  else if name = "env" then some { hook with env := some (nodeToStrv node) }
  else if name = "timeout" then
    some { hook with timeout := Int32.ofInt (((childText node).bind strtoll).getD 0) }
  else some hook

def hookComplete (hook : Hook) : Bool := hook.path.isSet

/-- `handle_hook`. -/
def handleHook : Scan Hook → GNode → Scan Hook := Scan.visit hookComplete fillHook

structure HookScan where
  current : Option Hook
  error : Bool
  hooks : Hooks

def HookScan.collect (scan : HookScan) (node : GNode) (saved : List Hook) : Scan Hook :=
  (node.children.foldl handleHook ⟨scan.current, scan.error, saved⟩).save hookComplete

/-- `handle_hooks_section`. -/
def handleHooksSection (scan : HookScan) (node : GNode) : HookScan :=
  if !node.hasChildren || scan.error then scan
  else if node.data = some "prestart" then
    let found := scan.collect node scan.hooks.prestart
    ⟨found.current, found.error, { scan.hooks with prestart := found.saved }⟩
  else if node.data = some "poststart" then
    let found := scan.collect node scan.hooks.poststart
    ⟨found.current, found.error, { scan.hooks with poststart := found.saved }⟩
  else if node.data = some "poststop" then
    let found := scan.collect node scan.hooks.poststop
    ⟨found.current, found.error, { scan.hooks with poststop := found.saved }⟩
  else scan

/-- `mnt_flag_map`, with the values of the `MS_` flags of `mount(2)`. -/
def mntFlagMap : List (String × Nat) :=
  [("bind", 4096), ("dirsync", 128), ("mandlock", 64), ("move", 8192), ("noatime", 1024),
    ("nodev", 4), ("nodiratime", 2048), ("noexec", 8), ("nosuid", 2), ("ro", 1),
    ("relatime", 2097152), ("remount", 32), ("silent", 32768), ("strictatime", 16777216),
    ("sync", 16), ("rbind", 4096 + 16384), ("rprivate", 262144 + 16384), ("private", 262144),
    ("rslave", 524288 + 16384), ("slave", 524288), ("rshared", 1048576 + 16384),
    ("shared", 1048576)]

/-- `mount_get_flag_value`: zero for what is not a flag. -/
def mountGetFlagValue (flag : Option String) : Nat :=
  (flag.bind fun name => mntFlagMap.lookup name).getD 0

/-- `handle_options_section`: the flags so far and the other options, each with its comma. -/
def handleOptionsSection (found : Nat × String) (node : GNode) : Nat × String :=
  let flag := mountGetFlagValue node.data
  if flag ≠ 0 then (found.1 ||| flag, found.2)
  else (found.1, found.2 ++ textOrNull node.data ++ ",")

/-- A member of a mount, in `handle_mounts_section`. -/
def fillMount (name : String) (node : GNode) (mount : Mount) : Option Mount :=
  if name = "destination" then
    some { mount with entry := { mount.entry with dir := childText node } }
  else if name = "type" then some { mount with entry := { mount.entry with type := childText node } }
  else if name = "source" then
    some { mount with entry := { mount.entry with fsname := childText node } }
  else if name = "options" then
    let found := node.children.foldl handleOptionsSection (mount.flags, "")
    let opts := if found.2 = "" then mount.entry.opts
      else some (String.ofList found.2.toList.dropLast)
    some { mount with flags := found.1, entry := { mount.entry with opts := opts } }
  else some mount

def mountComplete (mount : Mount) : Bool :=
  mount.entry.dir.isSome && mount.entry.type.isSome && mount.entry.fsname.isSome

/-- `handle_mounts_section`. -/
def handleMountsSection : Scan Mount → GNode → Scan Mount := Scan.visit mountComplete fillMount

/-- `handle_platform_section`. -/
def handlePlatformSection (platform : Platform) (node : GNode) : Platform :=
  if !node.hasChildren then platform
  else if node.data = some "os" then { platform with os := childText node }
  else if node.data = some "arch" then { platform with arch := childText node }
  else platform

/-- `handle_user_section`: the value is converted without a check. -/
def handleUserSection (user : User) (node : GNode) : Option User :=
  if node.data = some "uid" then
    (childText node).map fun text => { user with uid := (atoi text).toUInt32 }
  else if node.data = some "gid" then
    (childText node).map fun text => { user with gid := (atoi text).toUInt32 }
  else some user

/-- `handle_process_section`. -/
def handleProcessSection (process : Process) (node : GNode) : Option Process :=
  if !node.hasChildren then some process
  else if node.data = some "cwd" then
    some { process with cwd := Buffer.copy _ (textOrNull (childText node)) }
  else if node.data = some "args" then some { process with args := some (nodeToStrv node) }
  else if node.data = some "env" then some { process with env := some (nodeToStrv node) }
  else if node.data = some "terminal" then
    some { process with terminal := childText node == some "true" }
  else if node.data = some "user" then
    (node.children.foldlM handleUserSection process.user).map fun user => { process with user := user }
  else some process

def processComplete (process : Process) : Bool :=
  process.cwd.isSet && isAbsolute process.cwd.text && process.args.isSome

/-- `handle_root_section`. -/
def handleRootSection (host : Host) (root : Root) (node : GNode) : Root :=
  if !node.hasChildren then root
  else if node.data = some "path" then
    match resolvePath host (childText node) with
    | some full => { root with path := Buffer.copy _ full }
    | none => root
  else if node.data = some "readonly" then
    if childText node = some "true" then { root with readOnly := true }
    else if childText node = some "false" then { root with readOnly := false }
    else root
  else root

def isDirectory (host : Host) (path : String) : Bool := (host.stat path).any Stat.isDir

def rootComplete (host : Host) (root : Root) : Bool :=
  root.path.isSet && isDirectory host root.path.text

def resolvedPath (host : Host) (node : GNode) (old : PathBuffer) : PathBuffer :=
  match resolvePath host (childText node) with
  | some path => Buffer.copy _ path
  | none => old

/-- `handle_kernel_section`. -/
def handleKernelSection (host : Host) (vm : VmConfig) (node : GNode) : VmConfig :=
  if !node.hasChildren then vm
  else if node.data = some "path" then { vm with kernelPath := resolvedPath host node vm.kernelPath }
  else if node.data = some "parameters" then { vm with kernelParams := childText node }
  else vm

/-- `handle_vm_section`. -/
def handleVmSection (host : Host) (vm : VmConfig) (node : GNode) : VmConfig :=
  if !node.hasChildren then vm
  else if node.data = some "path" then
    { vm with hypervisorPath := resolvedPath host node vm.hypervisorPath }
  else if node.data = some "image" then { vm with imagePath := resolvedPath host node vm.imagePath }
  else if node.data = some "kernel" then node.children.foldl (handleKernelSection host) vm
  else vm

def vmComplete (host : Host) (vm : VmConfig) : Bool :=
  [vm.hypervisorPath, vm.imagePath, vm.kernelPath].all fun path =>
    path.isSet && (host.stat path.text).isSome

/-- `oci_ns_map`. -/
def nsMap : List (String × NamespaceType) :=
  [("cgroup", .cgroup), ("ipc", .ipc), ("mount", .mount), ("network", .net), ("pid", .pid),
    ("user", .user), ("uts", .uts)]

/-- `clr_oci_str_to_ns`. -/
def strToNs (name : String) : NamespaceType := (nsMap.lookup name).getD .invalid

/-- A member of a namespace, in `handle_namespaces_section`. -/
def fillNamespace (name : String) (node : GNode) (ns : Namespace) : Option Namespace :=
  if name = "type" then
    match childText node with
    | none => none
    | some type => if strToNs type = .invalid then none else some { ns with type := strToNs type }
  else if name = "path" then
    match childText node with
    | some path => if path = "" then some ns else some { ns with path := some path }
    | none => some ns
  else some ns

/-- `handle_namespaces_section`; every namespace is saved as it is. -/
def handleNamespacesSection : Scan Namespace → GNode → Scan Namespace :=
  Scan.visit (fun _ => true) fillNamespace

/-- `handle_linux_section`. -/
def handleLinuxSection (scan : Scan Namespace) (node : GNode) : Scan Namespace :=
  if node.hasChildren && node.data = some "namespaces" then
    node.children.foldl handleNamespacesSection scan
  else scan

structure Statics where
  currentMount : Option Mount := none
  currentHook : Option Hook := none
  currentNs : Option Namespace := none

structure Parse where
  config : Config
  statics : Statics := {}
  failed : List String := []

namespace Parse

def setOci (parse : Parse) (oci : Spec) : Parse :=
  { parse with config := { parse.config with oci := oci } }

def setVm (parse : Parse) (vm : Option VmConfig) : Parse :=
  { parse with config := { parse.config with vm := vm } }

end Parse

/-- `annotations_handle_section`. -/
def annotationsHandleSection (root : GNode) (parse : Parse) : Bool × Parse :=
  let oci := parse.config.oci
  (true, parse.setOci { oci with annotations := root.children.foldl handleAnnotation oci.annotations })

/-- `hooks_handle_section`. -/
def hooksHandleSection (root : GNode) (parse : Parse) : Bool × Parse :=
  let oci := parse.config.oci
  let scan := root.children.foldl handleHooksSection ⟨parse.statics.currentHook, false, oci.hooks⟩
  (!scan.error, { parse.setOci { oci with hooks := scan.hooks } with
    statics := { parse.statics with currentHook := scan.current } })

/-- `mounts_handle_section`; mounts that are already there are left alone. -/
def mountsHandleSection (root : GNode) (parse : Parse) : Bool × Parse :=
  let oci := parse.config.oci
  if oci.mounts ≠ [] then (true, parse)
  else
    let scan := root.children.foldl handleMountsSection ⟨parse.statics.currentMount, false, oci.mounts⟩
    let scan := if scan.error then scan else scan.save mountComplete
    (!scan.error, { parse.setOci { oci with mounts := scan.saved } with
      statics := { parse.statics with currentMount := scan.current } })

/-- `platform_handle_section`. -/
def platformHandleSection (root : GNode) (parse : Parse) : Bool × Parse :=
  let oci := parse.config.oci
  let platform := root.children.foldl handlePlatformSection oci.platform
  (platform.os == some expectedPlatform && platform.arch == some expectedArchitecture,
    parse.setOci { oci with platform := platform })

/-- `process_handle_section`. -/
def processHandleSection (root : GNode) (parse : Parse) : Option (Bool × Parse) := do
  let oci := parse.config.oci
  let process ← root.children.foldlM handleProcessSection oci.process
  return (processComplete process, parse.setOci { oci with process := process })

/-- `root_handle_section`. -/
def rootHandleSection (host : Host) (root : GNode) (parse : Parse) : Bool × Parse :=
  let oci := parse.config.oci
  let found := root.children.foldl (handleRootSection host) oci.root
  (rootComplete host found, parse.setOci { oci with root := found })

/-- `vm_handle_section`; on failure no VM configuration is left. -/
def vmHandleSection (host : Host) (root : GNode) (parse : Parse) : Bool × Parse :=
  let vm := root.children.foldl (handleVmSection host) (parse.config.vm.getD {})
  if vmComplete host vm then (true, parse.setVm (some vm)) else (false, parse.setVm none)

/-- `linux_handle_section`. -/
def linuxHandleSection (root : GNode) (parse : Parse) : Bool × Parse :=
  let oci := parse.config.oci
  let scan := root.children.foldl handleLinuxSection ⟨parse.statics.currentNs, false, oci.namespaces⟩
  let scan := if scan.error then scan else scan.save fun _ => true
  (!scan.error, { parse.setOci { oci with namespaces := scan.saved } with
    statics := { parse.statics with currentNs := scan.current } })

-- `struct spec_handler`, by section.
inductive SpecHandler where
  | annotations | hooks | mounts | platform | process | root | vm | linux
  deriving DecidableEq

namespace SpecHandler

def name : SpecHandler → String
  | .annotations => "annotations"
  | .hooks => "hooks"
  | .mounts => "mounts"
  | .platform => "platform"
  | .process => "process"
  | .root => "root"
  | .vm => "vm"
  | .linux => "linux"

def handleSection (host : Host) (node : GNode) (parse : Parse) : SpecHandler → Option (Bool × Parse)
  | .annotations => some (annotationsHandleSection node parse)
  | .hooks => some (hooksHandleSection node parse)
  | .mounts => some (mountsHandleSection node parse)
  | .platform => some (platformHandleSection node parse)
  | .process => processHandleSection node parse
  | .root => some (rootHandleSection host node parse)
  | .vm => some (vmHandleSection host node parse)
  | .linux => some (linuxHandleSection node parse)

end SpecHandler

def stopSpecHandlers : List SpecHandler := [.hooks]

def startSpecHandlers : List SpecHandler :=
  [.annotations, .hooks, .mounts, .platform, .process, .root, .vm, .linux]

def dispatch (handlers : List SpecHandler) (host : Host) (node : GNode) (parse : Parse) :
    Option Parse :=
  match handlers.find? fun handler => some handler.name == node.data with
  | none => some parse
  | some handler => do
    let (ok, parse) ← handler.handleSection host node parse
    return if ok then parse else { parse with failed := parse.failed ++ [handler.name] }

/-- `process_config_stop`. -/
def processConfigStop (host : Host) (parse : Parse) (node : GNode) : Option Parse :=
  dispatch stopSpecHandlers host node parse

/-- `process_config_start`. -/
def processConfigStart (host : Host) (parse : Parse) (node : GNode) : Option Parse :=
  match node.data with
  | none => some parse
  | some name => do
    let oci := parse.config.oci
    if name = "ociVersion" then
      return parse.setOci { oci with ociVersion := ← node.childData? }
    if name = "hostname" then
      return parse.setOci { oci with hostname := ← node.childData? }
    dispatch startSpecHandlers host node parse

/-- `get_spec_vm_from_cfg_file`. -/
def getSpecVmFromCfgFile (env : Env) (host : Host) (files : Files) (parse : Parse) : Bool × Parse :=
  if parse.config.vm.isSome then (true, parse)
  else
    let inSysconf := buildPath [env.sysconfdir, vmConfigFile]
    let file := if (host.stat inSysconf).isSome then inSysconf
      else buildPath [env.defaultsdir, vmConfigFile]
    match jsonParseFile files file with
    | none => (false, parse)
    | some root =>
      match root.children.find? fun node => node.data == some SpecHandler.vm.name with
      | none => (false, parse)
      | some node =>
        let handled := (vmHandleSection host node parse).2
        (handled.config.vm.isSome, handled)

end ClrOci
