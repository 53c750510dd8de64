import ClrOci.SectionParts
import ClrOci.Verdicts

/-! The checks that a creation makes after the parse, and when they stop a creation from a document with a
refused section, whatever the host does.

None of them is about the section. What they look at is the VM, the version, the runtime directory, the
root path and the arguments; all that the host can do is to let a call fail.
-/

set_option autoImplicit false

namespace ClrOci

open Foundation

/-- A configuration as the command line sets it up, with nothing of the bundle in it yet. -/
structure Config.Fresh (config : Config) : Prop where
  spec : config.oci = {}
  vm : config.vm = none
  unplaced : config.state.runtimePath.isSet = false
  absolute : ∀ bundle ∈ config.bundlePath, isAbsolute bundle = true

structure Env.ReadsAs (env other : Env) (clock : Nat) : Prop where
  chdir : (env.host clock).chdir = (other.host clock).chdir
  realpath : (env.host clock).realpath = (other.host clock).realpath
  stat : (env.host clock).stat = (other.host clock).stat
  sysconfdir : env.sysconfdir = other.sysconfdir
  defaultsdir : env.defaultsdir = other.defaultsdir

def VersionRefused (version : Option String) : Prop :=
  ∀ text ∈ version, ∃ order, semverCmp supportedSpecVersion text = some order ∧ order < 0

def VersionAccepted (version : Option String) : Prop :=
  ∃ text ∈ version, ∃ order, semverCmp supportedSpecVersion text = some order ∧ 0 ≤ order

def Placeless (world : World) : Prop :=
  ∀ id ∈ world.config.optargContainerId,
    world.sys.dirs (runtimePath world.config.rootDir id).text = true

/-- No handler is killed, and there is no VM, the version is refused, there is no place for the
container, or the launch, which comes after the arguments are used, has no root path. -/
def CaughtAnyway (env : Env) (world : World) (root : GNode) : Prop :=
  let host := env.host world.sys.clock
  (∀ node ∈ root.children, ¬ Childless node ∧ ¬ UntextedUser node) ∧
    (vmFound env host world.sys.files root none = none ∨ VersionRefused (versionGiven root none) ∨
      VersionAccepted (versionGiven root none) ∧ (Placeless world ∨
        world.config.dryRunMode = false ∧ GivesArgs root ∧ (rootGiven host root {}).path.isSet = false))

section Parsed
variable {env : Env} {world : World} {root : GNode}

structure ParsedFrom (env : Env) (world : World) (root : GNode) (config : Config) : Prop where
  vm : config.vm = vmFound env (env.host world.sys.clock) world.sys.files root none
  version : config.oci.ociVersion = versionGiven root none
  rootPath : config.oci.root = rootGiven (env.host world.sys.clock) root {}
  args : config.oci.process.args.isSome = true ↔ GivesArgs root
  sourced : ∀ mount ∈ config.oci.mounts, mount.entry.fsname.isSome = true
  frame : config.frame = world.config.frame

theorem configFileParse_of_tree (tree : bundleTree env world = some root) :
    configFileParse env world =
      match parseSections (env.host world.sys.clock) root world.config with
      | none => ⟨.aborted, world⟩
      | some parse =>
        let found := getSpecVmFromCfgFile env (env.host world.sys.clock) world.sys.files parse
        ⟨.returned found.1, { world with config := found.2.config }⟩ := by
  unfold bundleTree at tree
  simp only [Option.bind_eq_bind, Option.bind_eq_some_iff] at tree
  obtain ⟨bundle, given, file, path, _, entered, parsed⟩ := tree
  have allowed : (env.host world.sys.clock).chdir bundle = true := by
    by_contra refused
    simp [guard, refused] at entered
  unfold configFileParse
  rw [given] at path ⊢
  cases run : parseSections (env.host world.sys.clock) root world.config with
  | none => simp only [path, allowed, Bool.not_true, Bool.false_eq_true, ↓reduceIte, parsed, run]
  | some parse => simp only [path, allowed, Bool.not_true, Bool.false_eq_true, ↓reduceIte, parsed, run]

theorem configFileParse_killed (tree : bundleTree env world = some root)
    (killed : ¬ ∀ node ∈ root.children, ¬ Childless node ∧ ¬ UntextedUser node) :
    (configFileParse env world).exit = .aborted := by
  have broken : parseSections (env.host world.sys.clock) root world.config = none := by
    rw [← Option.not_isSome_iff_eq_none, parseSections_isSome_iff]
    exact killed
  rw [configFileParse_of_tree tree, broken]

theorem configFileParse_parsed (fresh : world.config.Fresh) (tree : bundleTree env world = some root)
    (whole : ∀ node ∈ root.children, ¬ Childless node ∧ ¬ UntextedUser node) :
    ∃ config, ParsedFrom env world root config ∧ configFileParse env world =
      ⟨.returned (vmFound env (env.host world.sys.clock) world.sys.files root none).isSome,
        { world with config := config }⟩ := by
  have some : (parseSections (env.host world.sys.clock) root world.config).isSome = true :=
    parseSections_isSome_iff.mpr whole
  obtain ⟨parse, run⟩ := Option.isSome_iff_exists.mp some
  obtain ⟨version, -, rootPath, args⟩ := parseSections_parts run
  obtain ⟨found, filled⟩ := getSpecVmFromCfgFile_found run env world.sys.files
  have sourced := parseSections_mounts run (by rw [fresh.spec])
  have kept := (getSpecVmFromCfgFile_frame env (env.host world.sys.clock) world.sys.files parse).trans
    (parseSections_frame run)
  rw [fresh.spec] at version rootPath args
  rw [fresh.vm] at found filled
  refine ⟨_, ?_, by rw [configFileParse_of_tree tree, run]; exact congrArg (Run.mk · _) (congrArg _ found)⟩
  rw [filled] at kept ⊢
  exact ⟨rfl, version, rootPath, by simpa using args, sourced, kept⟩

end Parsed

section Checked
variable {env : Env} {world : World}

theorem checkConfig_false_iff :
    (checkConfig world).exit = .returned false ↔ VersionRefused world.config.oci.ociVersion := by
  unfold checkConfig configCheck VersionRefused
  cases world.config.oci.ociVersion with
  | none => simp
  | some text =>
    cases compared : semverCmp supportedSpecVersion text with
    | none => simp [compared]
    | some order => simp [compared]

theorem checkConfig_succeeds_iff :
    checkConfig.Succeeds world ↔ VersionAccepted world.config.oci.ociVersion := by
  unfold Action.Succeeds checkConfig configCheck VersionAccepted
  cases world.config.oci.ociVersion with
  | none => simp
  | some text =>
    cases compared : semverCmp supportedSpecVersion text with
    | none => simp [compared]
    | some order => simp [compared]

structure LaunchInputs where
  root : PathBuffer
  vm : Option (PathBuffer × PathBuffer)
  dryRun : Bool
  bundle : Option String

def Config.launchInputs (config : Config) : LaunchInputs where
  root := config.oci.root.path
  vm := config.vm.map fun vm => (vm.imagePath, vm.kernelPath)
  dryRun := config.dryRunMode
  bundle := config.bundlePath

theorem runtimePaths_unplaced (unplaced : world.config.state.runtimePath.isSet = false) :
    runtimePaths world.config = world.config.optargContainerId.map fun id =>
      let runtime := runtimePath world.config.rootDir id
      world.config.setState { world.config.state with
        runtimePath := runtime, commsPath := commsPath runtime, procsockPath := procsockPath runtime } := by
  unfold runtimePaths
  rw [if_neg (by simp [unplaced])]
  unfold runtimePathGet
  cases world.config.optargContainerId with
  | none => rfl
  | some id => rfl

theorem runtimeDirSetup_placeless (unplaced : world.config.state.runtimePath.isSet = false)
    (placeless : Placeless world) : (runtimeDirSetup env world).exit = .returned false := by
  unfold runtimeDirSetup
  rw [runtimePaths_unplaced unplaced]
  unfold Placeless at placeless
  cases named : world.config.optargContainerId with
  | none => rfl
  | some id =>
    have there := (mkdirWithParents_grows env world.sys
      (dirname (runtimePath world.config.rootDir id).text) : world.sys.Grows [] _).dirs _
        (placeless id named)
    simp [mkdir, Config.setState, there]

theorem runtimeDirSetup_keeps (unplaced : world.config.state.runtimePath.isSet = false) :
    let after := (runtimeDirSetup env world).state.config
    after.oci = world.config.oci ∧ after.vm = world.config.vm ∧
      after.launchInputs = world.config.launchInputs := by
  unfold runtimeDirSetup
  rw [runtimePaths_unplaced unplaced]
  cases world.config.optargContainerId with
  | none => exact ⟨rfl, rfl, rfl⟩
  | some id => exact ⟨rfl, rfl, rfl⟩

theorem handleMount_returns {root : PathBuffer} {dryRun : Bool} {mount : Mount}
    (sourced : mount.entry.fsname.isSome = true) (sys : Sys) :
    ∃ ok, (handleMount env root dryRun mount sys).exit = .returned ok := by
  obtain ⟨source, given⟩ := Option.isSome_iff_exists.mp sourced
  unfold handleMount
  dsimp only
  split
  · exact ⟨true, rfl⟩
  · rw [given]
    dsimp only
    split
    · exact ⟨true, rfl⟩
    · split
      · exact ⟨false, rfl⟩
      · exact ⟨_, rfl⟩

theorem handleMounts_returns
    (sourced : ∀ mount ∈ world.config.oci.mounts, mount.entry.fsname.isSome = true) :
    ∃ ok, (handleMounts env world).exit = .returned ok := by
  have ends : ∀ mount ∈ world.config.oci.mounts, ∀ sys, ∃ ok,
      (handleMount env world.config.oci.root.path world.config.dryRunMode mount sys).exit = .returned ok :=
    fun mount member sys => handleMount_returns (sourced mount member) sys
  exact @sweep_exits _ _ _ (fun exit => ∃ ok, exit = .returned ok) ⟨true, rfl⟩ _ _ ends

theorem createContainerWorkload_returns (given : world.config.oci.process.args.isSome = true)
    (vm : world.config.vm.isSome = true) : ∃ ok, (createContainerWorkload env world).exit = .returned ok := by
  obtain ⟨args, used⟩ := Option.isSome_iff_exists.mp given
  obtain ⟨found, there⟩ := Option.isSome_iff_exists.mp vm
  unfold createContainerWorkload
  rw [used, there]
  dsimp only
  split
  · exact ⟨false, rfl⟩
  · exact ⟨_, rfl⟩

theorem createContainerWorkload_keeps :
    (createContainerWorkload env world).state.config.launchInputs = world.config.launchInputs := by
  unfold createContainerWorkload
  split
  · rfl
  · rfl
  · next vm _ there =>
    dsimp only
    split
    · rfl
    · simp [Config.launchInputs, Config.withWorkload, there]

theorem vmArgsGet_rootless {host : Host} {config : Config} (rootless : config.oci.root.path.isSet = false) :
    vmArgsGet env host config = none := by
  have refused (args : List String) : expandCmdline host config args = none := by
    simp only [expandCmdline, Option.bind_eq_bind, Option.bind_eq_none_iff]
    intro vm _ _ _ image _ _ _ _ root
    simp [guard, rootless] at root
  simp only [vmArgsGet, Option.bind_eq_bind, Option.bind_eq_none_iff]
  exact fun args _ => refused args

theorem unlaunched_rootless (rootless : world.config.launchInputs.root.isSet = false) :
    Unlaunched env world := by
  have unset : (world.withStatus .created).config.oci.root.path.isSet = false := rootless
  exact Or.inr (by rw [vmArgsGet_rootless unset, Option.bind_none])

end Checked

def Env.permitting (env : Env) (clock : Nat) : Env where
  host now :=
    if now = clock then
      { Host.calm with
        chdir := (env.host clock).chdir
        realpath := (env.host clock).realpath
        stat := (env.host clock).stat
        -- If no parents are made, none of them takes the place of the container.
        mkdirWithParents := fun _ => false }
    else .calm
  sysconfdir := env.sysconfdir
  defaultsdir := env.defaultsdir

section Permitting
variable {env : Env} {clock : Nat} {world : World}

theorem permitting_readsAs (env : Env) (clock : Nat) : (env.permitting clock).ReadsAs env clock where
  chdir := by simp [Env.permitting]
  realpath := by simp [Env.permitting]
  stat := by simp [Env.permitting]
  sysconfdir := rfl
  defaultsdir := rfl

theorem permitting_later {now : Nat} (later : clock < now) : (env.permitting clock).host now = .calm :=
  if_neg (by omega)

theorem runtimeDirSetup_permitted (unplaced : world.config.state.runtimePath.isSet = false)
    (place : ¬ Placeless world) (now : world.sys.clock = clock) :
    (runtimeDirSetup (env.permitting clock)).Succeeds world ∧
      clock < (runtimeDirSetup (env.permitting clock) world).state.sys.clock := by
  subst now
  unfold Placeless at place
  unfold Action.Succeeds runtimeDirSetup
  rw [runtimePaths_unplaced unplaced]
  cases named : world.config.optargContainerId with
  | none => simp [named] at place
  | some id =>
    simp only [named, Option.mem_def, Option.some.injEq, forall_eq', Bool.not_eq_true] at place
    have refused (path : String) :
        mkdirWithParents (env.permitting world.sys.clock) path world.sys = (false, world.sys.tick) := by
      simp [mkdirWithParents, Env.permitting]
    have calm : (env.permitting world.sys.clock).host world.sys.tick.clock = .calm :=
      permitting_later (Nat.lt_succ_self world.sys.clock)
    have made (path : String) (free : world.sys.dirs path = false) :
        mkdir (env.permitting world.sys.clock) path world.sys.tick =
          (true, { world.sys.tick.tick with dirs := Function.update world.sys.dirs path true }) := by
      rw [mkdir, calm]
      simp [Host.calm, free]
    simp only [Option.map_some, Config.setState, refused, made _ place]
    exact ⟨trivial, by rw [Sys.tick_clock, Sys.tick_clock]; omega⟩

theorem handleMount_permitted {root : PathBuffer} {dryRun : Bool} {mount : Mount}
    (sourced : mount.entry.fsname.isSome = true) (sys : Sys) (later : clock < sys.clock) :
    (handleMount (env.permitting clock) root dryRun mount sys).exit = .returned true ∧
      clock < (handleMount (env.permitting clock) root dryRun mount sys).state.clock := by
  obtain ⟨source, given⟩ := Option.isSome_iff_exists.mp sourced
  have calm := @permitting_later env _ _ later
  cases ignored : mountIgnore mount <;> cases dryRun <;>
    simp [handleMount, performMount, sourceMissing, ignored, given, calm, Host.calm] <;> omega

theorem handleMounts_permitted
    (sourced : ∀ mount ∈ world.config.oci.mounts, mount.entry.fsname.isSome = true)
    (later : clock < world.sys.clock) :
    (handleMounts (env.permitting clock)).Succeeds world ∧
      clock < (handleMounts (env.permitting clock) world).state.sys.clock :=
  @sweep_succeeds_kept _ _ _ (fun sys : Sys => clock < sys.clock) _ _
    (fun mount member sys later => handleMount_permitted (sourced mount member) sys later) later

theorem setContents_permitted (path : String) (content : Content) (sys : Sys) (later : clock < sys.clock) :
    setContents (env.permitting clock) path content sys = (true, sys.tick.written path content) := by
  rw [setContents, permitting_later later]
  exact if_pos rfl

theorem createContainerWorkload_permitted (given : world.config.oci.process.args.isSome = true)
    (vm : world.config.vm.isSome = true) (later : clock < world.sys.clock) :
    (createContainerWorkload (env.permitting clock)).Succeeds world ∧
      clock < (createContainerWorkload (env.permitting clock) world).state.sys.clock := by
  obtain ⟨args, used⟩ := Option.isSome_iff_exists.mp given
  obtain ⟨found, there⟩ := Option.isSome_iff_exists.mp vm
  have entries : (createEnvFile (env.permitting clock) world.config world.sys).1 = true ∧
      clock < (createEnvFile (env.permitting clock) world.config world.sys).2.clock := by
    unfold createEnvFile
    split
    · exact ⟨rfl, later⟩
    · rw [setContents_permitted _ _ _ later]
      exact ⟨rfl, Nat.lt_succ_of_lt later⟩
  unfold Action.Succeeds createContainerWorkload
  rw [used, there]
  simp only [entries.1, Bool.not_true, Bool.false_eq_true, ↓reduceIte, setContents_permitted _ _ _ entries.2]
  exact ⟨trivial, Nat.lt_succ_of_lt entries.2⟩

theorem isAbsolute_buildPath {directory file : String} (absolute : isAbsolute directory = true)
    (visible : file ≠ "") : isAbsolute (buildPath [directory, file]) = true := by
  have named : file.toList ≠ [] := by simpa using visible
  cases chars : directory.toList with
  | nil => simp [isAbsolute, chars] at absolute
  | cons c rest =>
    have slash : c = '/' := by simpa [isAbsolute, chars] using absolute
    subst slash
    simp [buildPath, chars, named, isAbsolute]

theorem launched_permitted (rooted : world.config.launchInputs.root.isSet = true)
    (paths : ∀ found ∈ world.config.launchInputs.vm, found.1.isSet = true ∧ found.2.isSet = true)
    (vm : world.config.launchInputs.vm.isSome = true)
    (absolute : ∃ bundle ∈ world.config.launchInputs.bundle, isAbsolute bundle = true)
    (later : clock < world.sys.clock) : ¬ Unlaunched (env.permitting clock) world := by
  obtain ⟨bundle, given, absolute⟩ := absolute
  have bundled : world.config.bundlePath = some bundle := given
  have visible : bundle ≠ "" := by
    rintro rfl
    cases absolute
  cases there : world.config.vm with
  | none => simp [Config.launchInputs, there] at vm
  | some found =>
    have set := paths (found.imagePath, found.kernelPath) (by simp [Config.launchInputs, there])
    have file : vmArgsFilePath (env.permitting clock) .calm (world.withStatus .created).config =
        some (buildPath [bundle, hypervisorCmdlineFile]) := by
      simp [vmArgsFilePath, World.withStatus, Config.setState, bundled, getBundlepathFile, visible,
        hypervisorCmdlineFile, Host.calm]
    have lines : vmArgsGet (env.permitting clock) .calm (world.withStatus .created).config =
        expandCmdline .calm (world.withStatus .created).config ["qemu"] := by
      have absolute' := isAbsolute_buildPath absolute (show hypervisorCmdlineFile ≠ "" by decide)
      have split : strsplit "qemu" '\n' none = ["qemu"] := by decide
      have read (path : String) : Host.calm.readText path = some "qemu" := rfl
      simp [vmArgsGet, file, fileToStrv, guard, absolute', read, split]
    have expanded : (expandCmdline .calm (world.withStatus .created).config ["qemu"]).isSome = true := by
      have root : world.config.oci.root.path.isSet = true := rooted
      simp [expandCmdline, World.withStatus, Config.setState, there, guard, set, root, Host.calm]
    obtain ⟨prepared, made⟩ := Option.isSome_iff_exists.mp expanded
    unfold Unlaunched
    rw [permitting_later later, permitting_later (Nat.lt_succ_of_lt later), lines, made, Option.bind_some]
    rintro (untimed | unspawned)
    · cases untimed
    · cases unspawned

end Permitting

section Stopped
variable {env : Env} {world : World} {root : GNode}

theorem stopsIn_of_returns {first : Action World} {rest : List (Action World)}
    (returns : ∃ ok, (first world).exit = .returned ok)
    (later : first.Succeeds world → StopsIn env rest (first world).state) :
    StopsIn env (first :: rest) world := by
  obtain ⟨ok, exit⟩ := returns
  cases ok with
  | false => exact stopsIn_cons.mpr (Or.inl exit)
  | true => exact stopsIn_cons.mpr (Or.inr ⟨exit, later exit⟩)

theorem stopsIn_of_succeeds {first : Action World} {rest : List (Action World)}
    (ok : first.Succeeds world) :
    StopsIn env (first :: rest) world ↔ StopsIn env rest (first world).state := by
  have exit : (first world).exit = .returned true := ok
  rw [stopsIn_cons, exit]
  simp [ok]

theorem runtimeDirSetup_returns (world : World) : ∃ ok, (runtimeDirSetup env world).exit = .returned ok := by
  unfold runtimeDirSetup
  split
  · exact ⟨false, rfl⟩
  · exact ⟨_, rfl⟩

theorem ParsedFrom.options {config : Config} (parsed : ParsedFrom env world root config)
    (fresh : world.config.Fresh) :
    config.state.runtimePath.isSet = false ∧ config.dryRunMode = world.config.dryRunMode ∧
      config.bundlePath = world.config.bundlePath ∧
      (Placeless { world with config := config } ↔ Placeless world) := by
  have same := parsed.frame
  have path : config.state = world.config.state := congrArg (fun config => config.state) same
  have id : config.optargContainerId = world.config.optargContainerId :=
    congrArg (fun config => config.optargContainerId) same
  have directory : config.rootDir = world.config.rootDir := congrArg (fun config => config.rootDir) same
  refine ⟨by rw [path]; exact fresh.unplaced, congrArg (fun config => config.dryRunMode) same,
    congrArg (fun config => config.bundlePath) same, ?_⟩
  unfold Placeless
  rw [id, directory]

/-- Where the launch has no root path, the steps before it are enough to stop. -/
theorem stopsIn_build_of_rootless
    (sourced : ∀ mount ∈ world.config.oci.mounts, mount.entry.fsname.isSome = true)
    (vm : world.config.vm.isSome = true) (real : world.config.launchInputs.dryRun = false)
    (used : world.config.oci.process.args.isSome = true)
    (rootless : world.config.launchInputs.root.isSet = false) :
    StopsIn env [handleMounts env, createContainerWorkload env] world := by
  apply stopsIn_of_returns (handleMounts_returns sourced)
  intro _
  have returns := @createContainerWorkload_returns env (handleMounts env world).state used vm
  apply stopsIn_of_returns returns
  intro _
  have kept : (createContainerWorkload env (handleMounts env world).state).state.config.launchInputs =
      world.config.launchInputs := createContainerWorkload_keeps
  rw [stopsIn_nil]
  constructor
  · exact (congrArg LaunchInputs.dryRun kept).trans real
  · exact unlaunched_rootless ((congrArg (fun inputs => inputs.root.isSet) kept).trans rootless)

theorem rootless_of_stopsIn_build {clock : Nat} (later : clock < world.sys.clock)
    (sourced : ∀ mount ∈ world.config.oci.mounts, mount.entry.fsname.isSome = true)
    (vm : world.config.vm.isSome = true)
    (paths : ∀ found ∈ world.config.launchInputs.vm, found.1.isSet = true ∧ found.2.isSet = true)
    (absolute : ∃ bundle ∈ world.config.launchInputs.bundle, isAbsolute bundle = true)
    (stopped : StopsIn (env.permitting clock)
      [handleMounts (env.permitting clock), createContainerWorkload (env.permitting clock)] world) :
    world.config.launchInputs.dryRun = false ∧ world.config.oci.process.args.isSome = true ∧
      world.config.launchInputs.root.isSet = false := by
  obtain ⟨mounted, later⟩ := @handleMounts_permitted env _ _ sourced later
  rw [stopsIn_of_succeeds mounted] at stopped
  cases used : world.config.oci.process.args.isSome with
  | false =>
    have none : (handleMounts (env.permitting clock) world).state.config.oci.process.args = none :=
      Option.isSome_eq_false_iff.mp used |> Option.isNone_iff_eq_none.mp
    have aborted : (createContainerWorkload (env.permitting clock)
        (handleMounts (env.permitting clock) world).state).exit = .aborted := by
      unfold createContainerWorkload
      rw [none]
    rw [stopsIn_cons, Action.Succeeds, aborted] at stopped
    rcases stopped with failed | ⟨ok, -⟩
    · cases failed
    · cases ok
  | true =>
    obtain ⟨built, later⟩ := @createContainerWorkload_permitted env _ (handleMounts _ world).state used vm later
    rw [stopsIn_of_succeeds built, stopsIn_nil] at stopped
    have kept : (createContainerWorkload (env.permitting clock)
        (handleMounts (env.permitting clock) world).state).state.config.launchInputs =
          world.config.launchInputs := createContainerWorkload_keeps
    have real : world.config.launchInputs.dryRun = false :=
      (congrArg LaunchInputs.dryRun kept).symm.trans stopped.1
    refine ⟨real, rfl, ?_⟩
    by_contra rooted
    rw [Bool.not_eq_false] at rooted
    have some : world.config.launchInputs.vm.isSome = true := by
      rw [Config.launchInputs, Option.isSome_map, vm]
    rw [← kept] at rooted paths absolute some
    exact launched_permitted rooted paths some absolute later stopped.2

theorem stopped_of_caught (fresh : world.config.Fresh) (tree : bundleTree env world = some root)
    (caught : CaughtAnyway env world root) : StoppedBeforeLaunch env world := by
  obtain ⟨whole, caught⟩ := caught
  obtain ⟨config, parsed, run⟩ := configFileParse_parsed fresh tree whole
  obtain ⟨unplaced, dryRun, -, placeless⟩ := parsed.options fresh
  apply stopsIn_of_returns ⟨_, congrArg Run.exit run⟩
  intro ok
  rw [Action.Succeeds, run, Exit.returned.injEq] at ok
  rw [run, stopsIn_cons, checkConfig_false_iff, checkConfig_succeeds_iff, checkConfig_state]
  dsimp only
  rw [parsed.version]
  -- In the order in which the steps of the creation come.
  rcases caught with missing | refused | ⟨accepted, caught⟩
  · rw [missing] at ok
    cases ok
  · exact Or.inl refused
  · refine Or.inr ⟨accepted, ?_⟩
    rcases caught with taken | ⟨real, used, rootless⟩
    · exact stopsIn_cons.mpr (Or.inl (runtimeDirSetup_placeless unplaced (placeless.mpr taken)))
    · obtain ⟨oci, vm, inputs⟩ := @runtimeDirSetup_keeps env ⟨config, world.sys⟩ unplaced
      apply stopsIn_of_returns (runtimeDirSetup_returns _)
      intro _
      apply stopsIn_build_of_rootless
      · rw [oci]
        exact parsed.sourced
      · rw [vm]
        exact (congrArg Option.isSome parsed.vm).trans ok
      · exact (congrArg LaunchInputs.dryRun inputs).trans (dryRun.trans real)
      · rw [oci]
        exact parsed.args.mpr used
      · rw [inputs]
        exact (congrArg (fun found : Root => found.path.isSet) parsed.rootPath).trans rootless

theorem rootless_of_stopsIn_setup {clock : Nat} (now : world.sys.clock = clock) (fresh : world.config.Fresh)
    {config : Config} (parsed : ParsedFrom (env.permitting clock) world root config) {vm : VmConfig}
    (found : config.vm = some vm)
    (complete : vmComplete ((env.permitting clock).host world.sys.clock) vm = true)
    (absolute : ∃ bundle ∈ world.config.bundlePath, isAbsolute bundle = true) (free : ¬ Placeless world)
    (stopped : StopsIn (env.permitting clock) [runtimeDirSetup (env.permitting clock),
      handleMounts (env.permitting clock), createContainerWorkload (env.permitting clock)] ⟨config, world.sys⟩) :
    world.config.dryRunMode = false ∧ GivesArgs root ∧
      (rootGiven ((env.permitting clock).host world.sys.clock) root {}).path.isSet = false := by
  obtain ⟨unplaced, dryRun, bundle, placeless⟩ := parsed.options fresh
  obtain ⟨made, later⟩ := @runtimeDirSetup_permitted env clock ⟨config, world.sys⟩ unplaced
    (mt placeless.mp free) now
  obtain ⟨oci, vm', inputs⟩ := @runtimeDirSetup_keeps (env.permitting clock) ⟨config, world.sys⟩ unplaced
  have paths : ∀ both ∈ config.launchInputs.vm, both.1.isSet = true ∧ both.2.isSet = true := by
    intro both member
    simp only [Config.launchInputs, found, Option.map_some, Option.mem_def, Option.some_inj] at member
    simp only [vmComplete, List.all_cons, Bool.and_eq_true] at complete
    rw [← member]
    exact ⟨complete.2.1.1, complete.2.2.1.1⟩
  rw [stopsIn_of_succeeds made] at stopped
  obtain ⟨real, used, rootless⟩ := rootless_of_stopsIn_build later (by rw [oci]; exact parsed.sourced)
    (by rw [vm', found]; rfl) (by rw [inputs]; exact paths)
    (by rw [inputs, Config.launchInputs, bundle]; exact absolute) stopped
  rw [inputs] at real rootless
  rw [oci] at used
  refine ⟨dryRun.symm.trans real, parsed.args.mp used, ?_⟩
  exact (congrArg (fun found : Root => found.path.isSet) parsed.rootPath).symm.trans rootless

theorem caught_of_stopped {clock : Nat} (now : world.sys.clock = clock) (fresh : world.config.Fresh)
    (tree : bundleTree (env.permitting clock) world = some root)
    (stopped : StoppedBeforeLaunch (env.permitting clock) world) :
    CaughtAnyway (env.permitting clock) world root := by
  have whole : ∀ node ∈ root.children, ¬ Childless node ∧ ¬ UntextedUser node := by
    by_contra killed
    have aborted := configFileParse_killed tree killed
    rw [StoppedBeforeLaunch, earlySteps, stopsIn_cons, Action.Succeeds, aborted] at stopped
    rcases stopped with failed | ⟨ok, -⟩
    · cases failed
    · cases ok
  obtain ⟨config, parsed, run⟩ := configFileParse_parsed fresh tree whole
  refine ⟨whole, ?_⟩
  have complete := vmFound_complete (env.permitting clock) ((env.permitting clock).host world.sys.clock)
    world.sys.files root
  cases found : vmFound (env.permitting clock) ((env.permitting clock).host world.sys.clock) world.sys.files root
    none with
  | none => exact Or.inl rfl
  | some vm =>
    right
    rw [found] at complete run
    have ok : (configFileParse (env.permitting clock)).Succeeds world := congrArg Run.exit run
    rw [StoppedBeforeLaunch, earlySteps, stopsIn_of_succeeds ok, run, stopsIn_cons, checkConfig_false_iff,
      checkConfig_succeeds_iff, checkConfig_state] at stopped
    dsimp only at stopped
    rw [parsed.version] at stopped
    apply stopped.imp_right
    rintro ⟨accepted, stopped⟩
    refine ⟨accepted, ?_⟩
    by_cases taken : Placeless world
    · exact Or.inl taken
    · right
      have entered : ∃ path ∈ world.config.bundlePath, isAbsolute path = true := by
        unfold bundleTree at tree
        simp only [Option.bind_eq_bind, Option.bind_eq_some_iff] at tree
        obtain ⟨path, given, -⟩ := tree
        exact ⟨path, given, fresh.absolute path given⟩
      exact rootless_of_stopsIn_setup now fresh parsed (parsed.vm.trans found) (by simpa using complete)
        entered taken stopped

end Stopped

section Alike
variable {env other : Env} {world : World} (alike : env.ReadsAs other world.sys.clock)
include alike

theorem Env.ReadsAs.reading :
    (env.host world.sys.clock).reading = (other.host world.sys.clock).reading := by
  rw [Host.reading, Host.reading, alike.chdir, alike.realpath, alike.stat]

theorem Env.ReadsAs.bundleTree : bundleTree env world = bundleTree other world := by
  unfold ClrOci.bundleTree
  rw [alike.chdir]

theorem Env.ReadsAs.sectionRejected_iff : SectionRejected env world ↔ SectionRejected other world := by
  have steps : processConfigStart (env.host world.sys.clock) = processConfigStart (other.host world.sys.clock) := by
    rw [← processConfigStart_reading, alike.reading, processConfigStart_reading]
  have handles (handler : SpecHandler) (node : GNode) (parse : Parse) :
      handler.handleSection (env.host world.sys.clock) node parse =
        handler.handleSection (other.host world.sys.clock) node parse := by
    rw [← handleSection_reading, alike.reading, handleSection_reading]
  unfold SectionRejected
  rw [alike.bundleTree, steps]
  simp only [handles]

theorem Env.ReadsAs.caughtAnyway_iff {root : GNode} :
    CaughtAnyway env world root ↔ CaughtAnyway other world root := by
  have file (host : Host) : vmFile env host = vmFile other host := by
    unfold vmFile
    rw [alike.sysconfdir, alike.defaultsdir]
  have vm : vmFound env (env.host world.sys.clock) = vmFound other (other.host world.sys.clock) := by
    have read (env : Env) (host : Host) : vmFound env host.reading = vmFound env host := rfl
    rw [← read, alike.reading, read]
    unfold vmFound
    simp only [file]
  have rooted : rootGiven (env.host world.sys.clock) = rootGiven (other.host world.sys.clock) := by
    have read (host : Host) : rootGiven host.reading = rootGiven host := rfl
    rw [← read, alike.reading, read]
  unfold CaughtAnyway
  dsimp only
  rw [vm, rooted]

end Alike

/-- Whatever the host does after the parse, a refused section stops the creation before a hypervisor is
launched, if and only if no section is refused or the creation is caught anyway. -/
theorem rejected_section_stops_iff (env : Env) (world : World) (fresh : world.config.Fresh) :
    (∀ later, later.ReadsAs env world.sys.clock → SectionRejected later world →
      (clrOciCreate later world).exit = .returned false ∧
        world.sys.spawnedSince (clrOciCreate later world).state.sys = []) ↔
      ¬ SectionRejected env world ∨
        ∃ root, bundleTree env world = some root ∧ CaughtAnyway env world root := by
  simp only [create_fails_unlaunched_iff]
  constructor
  · intro stops
    by_cases rejected : SectionRejected env world
    · -- A host that reads the same and then grants everything is among those that may be there.
      have alike := permitting_readsAs env world.sys.clock
      have stopped := stops _ alike (alike.sectionRejected_iff.mpr rejected)
      obtain ⟨root, -, -, -, -, -, -, tree, -⟩ := rejected
      have caught := caught_of_stopped rfl fresh (alike.bundleTree.trans tree) stopped
      exact Or.inr ⟨root, tree, alike.caughtAnyway_iff.mp caught⟩
    · exact Or.inl rejected
  · rintro (accepted | ⟨root, tree, caught⟩) later alike rejected
    · exact absurd (alike.sectionRejected_iff.mp rejected) accepted
    · exact stopped_of_caught fresh (alike.bundleTree.trans tree) (alike.caughtAnyway_iff.mpr caught)

def foreignWorld : World :=
  ⟨bundleConfig, Sys.idle fun path =>
    if path = "/bundle/config.json" then some (.json (.object [platformSection "windows"])) else none⟩

theorem rejected_section_stops_without_vm :
    SectionRejected Env.calm foreignWorld ∧
      ∀ later, later.ReadsAs Env.calm 0 → SectionRejected later foreignWorld →
        (clrOciCreate later foreignWorld).exit = .returned false ∧
          foreignWorld.sys.spawnedSince (clrOciCreate later foreignWorld).state.sys = [] := by
  refine ⟨sectionRejected_of_rejectedSections (by decide), ?_⟩
  have fresh : foreignWorld.config.Fresh := ⟨rfl, rfl, by decide, by decide⟩
  refine (rejected_section_stops_iff Env.calm foreignWorld fresh).mpr (Or.inr ?_)
  refine ⟨jsonParse "/bundle/config.json" (.object [platformSection "windows"]), rfl, ?_, Or.inl rfl⟩
  have parsed : (parseSections (Env.calm.host foreignWorld.sys.clock) (jsonParse "/bundle/config.json"
      (.object [platformSection "windows"])) foreignWorld.config).isSome = true := by decide
  exact parseSections_isSome_iff.mp parsed

/-- A container for another platform is created and launched. -/
theorem create_accepts_wrong_platform :
    SectionRejected Env.calm (bundleWorld [platformSection "windows"]) ∧
      (clrOciCreate Env.calm (bundleWorld [platformSection "windows"])).exit = .returned true ∧
      (bundleWorld [platformSection "windows"]).sys.spawnedSince
        (clrOciCreate Env.calm (bundleWorld [platformSection "windows"])).state.sys = [4242] :=
  ⟨sectionRejected_of_rejectedSections (by decide), by decide, by decide⟩

end ClrOci
