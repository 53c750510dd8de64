import ClrOci.Container

/-! What the steps of a creation may change.

No step takes a directory away, and each adds events of some kinds only. This is
proved once for every step and carried to whole runs by the rules for sequences.
-/

set_option autoImplicit false

namespace ClrOci

open Foundation

structure Sys.Grows (kinds : List Event.Kind) (before after : Sys) : Prop where
  adds : before.Adds (fun event => event.kind ∈ kinds) after
  dirs : ∀ path, before.dirs path = true → after.dirs path = true

namespace Sys.Grows
variable {kinds more : List Event.Kind} {first second third : Sys}

theorem refl (sys : Sys) : sys.Grows kinds sys := ⟨Sys.Adds.refl sys, fun _ made => made⟩

theorem trans (early : first.Grows kinds second) (late : second.Grows kinds third) :
    first.Grows kinds third :=
  ⟨early.adds.trans late.adds, fun path made => late.dirs path (early.dirs path made)⟩

theorem mono (included : kinds ⊆ more) (grows : first.Grows kinds second) :
    first.Grows more second :=
  ⟨grows.adds.mono fun _ allowed => included allowed, grows.dirs⟩

theorem tick (sys : Sys) : sys.Grows kinds sys.tick := ⟨Sys.Adds.of_same rfl, fun _ made => made⟩

theorem log {event : Event} (allowed : event.kind ∈ kinds) (sys : Sys) :
    sys.Grows kinds (sys.log event) :=
  ⟨Sys.Adds.log allowed sys, fun _ made => made⟩

theorem of_same {after : Sys} (grows : first.Grows kinds second)
    (trace : after.trace = second.trace) (dirs : after.dirs = second.dirs) :
    first.Grows kinds after :=
  ⟨grows.adds.trans (Sys.Adds.of_same trace), by rw [dirs]; exact grows.dirs⟩

end Sys.Grows

section Primitives
variable (env : Env) {kinds : List Event.Kind} (sys : Sys)

theorem setContents_grows (wrote : .wrote ∈ kinds) (path : String) (content : Content) :
    sys.Grows kinds (setContents env path content sys).2 := by
  unfold setContents
  split
  · exact ((Sys.Grows.tick sys).trans (Sys.Grows.log wrote sys.tick)).of_same rfl rfl
  · exact Sys.Grows.tick sys

theorem mkdirWithParents_grows (path : String) :
    sys.Grows kinds (mkdirWithParents env path sys).2 := by
  unfold mkdirWithParents
  split
  · have ticked : sys.Grows kinds sys.tick := Sys.Grows.tick sys
    refine ⟨ticked.adds, fun other made => ?_⟩
    simp [made]
  · exact Sys.Grows.tick sys

theorem mkdir_grows (path : String) : sys.Grows kinds (mkdir env path sys).2 := by
  unfold mkdir
  split
  · have ticked : sys.Grows kinds sys.tick := Sys.Grows.tick sys
    refine ⟨ticked.adds, fun other made => ?_⟩
    by_cases same : other = path
    · simp [same]
    · simp [Function.update_of_ne same, made]
  · exact Sys.Grows.tick sys

theorem handleMount_state (root : PathBuffer) (dryRun : Bool) (mount : Mount) :
    let after := (handleMount env root dryRun mount sys).state
    after = sys.tick ∨ after = sys.tick.mounted (mountDest root mount).text := by
  unfold handleMount
  cases mountIgnore mount with
  | true => exact Or.inl rfl
  | false =>
    cases mount.entry.fsname with
    | none => exact Or.inl rfl
    | some source =>
      simp only [Bool.false_eq_true, ↓reduceIte]
      split
      · exact Or.inl rfl
      · split
        · exact Or.inl rfl
        · unfold performMount
          split
          · exact Or.inl rfl
          · split
            · exact Or.inr rfl
            · exact Or.inl rfl

theorem handleMount_grows (mounted : .mount ∈ kinds) (root : PathBuffer) (dryRun : Bool)
    (mount : Mount) : sys.Grows kinds (handleMount env root dryRun mount sys).state := by
  rcases handleMount_state env sys root dryRun mount with same | same
  · rw [same]
    exact Sys.Grows.tick sys
  · rw [same]
    have logged : sys.tick.Grows kinds (sys.tick.log (.mount (mountDest root mount).text)) :=
      Sys.Grows.log mounted sys.tick
    exact ((Sys.Grows.tick sys).trans logged).of_same rfl rfl

theorem createPidfile_grows (wrote : .wrote ∈ kinds) (pidfile : String) (pid : GPid) :
    sys.Grows kinds (createPidfile env pidfile pid sys).2 := by
  unfold createPidfile
  split
  · exact Sys.Grows.refl sys
  · exact setContents_grows env sys wrote _ _

theorem runHookList_grows (hooked : .hook ∈ kinds) (stopOnFailure : Bool) (state : Content)
    (hooks : List Hook) : sys.Grows kinds (runHookList env stopOnFailure state hooks sys).2 := by
  induction hooks generalizing sys with
  | nil => exact Sys.Grows.refl sys
  | cons hook rest ih =>
    have ran : sys.Grows kinds (runHook env hook state sys).2 :=
      (Sys.Grows.tick sys).trans (Sys.Grows.log hooked sys.tick)
    unfold runHookList
    simp only
    split
    · exact ran
    · exact ran.trans (ih _)

theorem runHooks_grows (hooked : .hook ∈ kinds) (hooks : List Hook) (path : String)
    (stopOnFailure : Bool) : sys.Grows kinds (runHooks env hooks path stopOnFailure sys).2 := by
  unfold runHooks
  split
  · exact Sys.Grows.refl sys
  · split
    · exact Sys.Grows.refl sys
    · exact runHookList_grows env sys hooked stopOnFailure _ hooks

end Primitives

def Config.options (config : Config) : Config where
  bundlePath := config.bundlePath
  rootDir := config.rootDir
  optargContainerId := config.optargContainerId
  dryRunMode := config.dryRunMode
  detachedMode := config.detachedMode

structure World.Grows (kinds : List Event.Kind) (before after : World) : Prop where
  sys : before.sys.Grows kinds after.sys
  runtimePath : before.config.state.runtimePath.isSet = true →
    after.config.state.runtimePath = before.config.state.runtimePath
  options : after.config.options = before.config.options

namespace World.Grows
variable {kinds more : List Event.Kind} {first second third : World}

theorem refl (world : World) : world.Grows kinds world :=
  ⟨Sys.Grows.refl world.sys, fun _ => rfl, rfl⟩

theorem trans (early : first.Grows kinds second) (late : second.Grows kinds third) :
    first.Grows kinds third := by
  refine ⟨early.sys.trans late.sys, fun set => ?_, late.options.trans early.options⟩
  have same := early.runtimePath set
  rw [late.runtimePath (by rw [same]; exact set), same]

theorem mono (included : kinds ⊆ more) (grows : first.Grows kinds second) :
    first.Grows more second :=
  ⟨grows.sys.mono included, grows.runtimePath, grows.options⟩

theorem dryRun (grows : first.Grows kinds second) :
    second.config.dryRunMode = first.config.dryRunMode := by
  have same := congrArg Config.dryRunMode grows.options
  exact same

theorem andThen {head next : Action World} (early : head.Moves (World.Grows kinds))
    (late : next.Moves (World.Grows kinds)) : (head.andThen next).Moves (World.Grows kinds) := by
  have trans : ∀ first second third : World, first.Grows kinds second → second.Grows kinds third →
      first.Grows kinds third := fun _ _ _ => World.Grows.trans
  exact Action.Moves.andThen trans early late

theorem weaken {action : Action World} (moves : action.Moves (World.Grows kinds))
    (included : kinds ⊆ more) : action.Moves (World.Grows more) :=
  fun world => (moves world).mono included

end World.Grows

def Config.frame (config : Config) : Config := { config with oci := {}, vm := none }

section Parsing

/-- A handler works on the specification and the VM, and on nothing else: it leaves the rest of the
configuration and the log of failures alone. -/
theorem handleSection_frame {host : Host} {node : GNode} {parse : Parse} {handler : SpecHandler}
    {handled : Bool × Parse} (run : handler.handleSection host node parse = some handled) :
    handled.2.config.frame = parse.config.frame ∧ handled.2.failed = parse.failed := by
  cases handler
  case process =>
    simp only [SpecHandler.handleSection, processHandleSection, Option.bind_eq_bind,
      Option.bind_eq_some_iff] at run
    obtain ⟨process, _, same⟩ := run
    cases same
    exact ⟨rfl, rfl⟩
  case mounts =>
    cases run
    unfold mountsHandleSection
    dsimp only
    split <;> exact ⟨rfl, rfl⟩
  case vm =>
    cases run
    unfold vmHandleSection
    dsimp only
    split <;> exact ⟨rfl, rfl⟩
  all_goals
    cases run
    exact ⟨rfl, rfl⟩

theorem dispatch_frame {handlers : List SpecHandler} {host : Host} {node : GNode}
    {before after : Parse} (run : dispatch handlers host node before = some after) :
    after.config.frame = before.config.frame := by
  unfold dispatch at run
  split at run
  · cases run
    rfl
  · next handler _ =>
    rw [Option.bind_eq_bind, Option.bind_eq_some_iff] at run
    obtain ⟨handled, ran, same⟩ := run
    have kept := (handleSection_frame ran).1
    cases ok : handled.1 <;> simp only [ok, Option.pure_def, Option.some.injEq] at same <;>
      exact same ▸ kept

theorem processConfigStart_frame {host : Host} {node : GNode} {before after : Parse}
    (run : processConfigStart host before node = some after) :
    after.config.frame = before.config.frame := by
  unfold processConfigStart at run
  split at run
  · cases run
    rfl
  · simp only at run
    split at run
    · obtain ⟨text, _, same⟩ := Option.bind_eq_some_iff.mp run
      cases same
      rfl
    · split at run
      · obtain ⟨text, _, same⟩ := Option.bind_eq_some_iff.mp run
        cases same
        rfl
      · exact dispatch_frame run

theorem parseSections_frame {host : Host} {root : GNode} {config : Config} {parse : Parse}
    (run : parseSections host root config = some parse) : parse.config.frame = config.frame := by
  refine foldlM_keeps (fun parse : Parse => parse.config.frame = config.frame) ?_ run rfl
  intro before node after step same
  exact (processConfigStart_frame step).trans same

theorem getSpecVmFromCfgFile_frame (env : Env) (host : Host) (files : Files) (parse : Parse) :
    (getSpecVmFromCfgFile env host files parse).2.config.frame = parse.config.frame := by
  have handled : ∀ node, (vmHandleSection host node parse).2.config.frame = parse.config.frame := by
    intro node
    have run : SpecHandler.vm.handleSection host node parse =
        some (vmHandleSection host node parse) := rfl
    exact (handleSection_frame run).1
  unfold getSpecVmFromCfgFile
  dsimp only
  split
  · rfl
  · split
    · rfl
    · split
      · rfl
      · exact handled _

theorem configFileParse_frame (env : Env) (world : World) :
    (configFileParse env world).state.sys = world.sys ∧
      (configFileParse env world).state.config.frame = world.config.frame := by
  unfold configFileParse
  dsimp only
  split
  · split
    · exact ⟨rfl, rfl⟩
    · split
      · exact ⟨rfl, rfl⟩
      · split
        · exact ⟨rfl, rfl⟩
        · next parse parsed =>
          exact ⟨rfl, (getSpecVmFromCfgFile_frame env _ _ parse).trans (parseSections_frame parsed)⟩
  · exact ⟨rfl, rfl⟩

end Parsing

section Steps
variable (env : Env)

theorem World.Grows.of_frame {kinds : List Event.Kind} {before after : World}
    (grows : before.sys.Grows kinds after.sys) (same : after.config.frame = before.config.frame) :
    before.Grows kinds after :=
  ⟨grows, fun _ => congrArg (fun config => config.state.runtimePath) same,
    congrArg (fun config => config.options) same⟩

theorem configFileParse_grows : (configFileParse env).Moves (World.Grows []) := by
  intro world
  obtain ⟨sys, same⟩ := configFileParse_frame env world
  refine World.Grows.of_frame ?_ same
  rw [sys]
  exact Sys.Grows.refl world.sys

theorem checkConfig_state (world : World) : (checkConfig world).state = world := by
  unfold checkConfig
  split <;> rfl

theorem runtimePaths_of_isSet {config filled : Config} (found : runtimePaths config = some filled) :
    (config.state.runtimePath.isSet = true →
      filled.state.runtimePath = config.state.runtimePath) ∧
      filled.options = config.options := by
  unfold runtimePaths at found
  split at found
  · cases found
    exact ⟨fun _ => rfl, rfl⟩
  · next unset =>
    rw [Option.bind_eq_bind, Option.bind_eq_some_iff] at found
    obtain ⟨placed, got, same⟩ := found
    obtain ⟨id, _, rfl⟩ := Option.map_eq_some_iff.mp got
    cases same
    exact ⟨fun set => absurd set unset, rfl⟩

theorem runtimeDirSetup_grows : (runtimeDirSetup env).Moves (World.Grows []) := by
  intro world
  unfold runtimeDirSetup
  split
  · exact World.Grows.refl world
  · next filled found =>
    obtain ⟨path, options⟩ := runtimePaths_of_isSet found
    exact ⟨(mkdirWithParents_grows env world.sys _).trans (mkdir_grows env _ _), path, options⟩

theorem handleMounts_grows : (handleMounts env).Moves (World.Grows [.mount]) := by
  intro world
  refine ⟨?_, fun _ => rfl, rfl⟩
  exact sweep_moves (Sys.Grows [.mount]) Sys.Grows.refl (fun _ _ _ => Sys.Grows.trans)
    (fun mount sys => handleMount_grows env sys List.mem_cons_self _ _ mount) _ world.sys

theorem createEnvFile_grows (config : Config) (sys : Sys) :
    sys.Grows [.wrote] (createEnvFile env config sys).2 := by
  unfold createEnvFile
  split
  · exact Sys.Grows.refl sys
  · exact setContents_grows env sys List.mem_cons_self _ _

theorem createContainerWorkload_grows :
    (createContainerWorkload env).Moves (World.Grows [.wrote]) := by
  intro world
  unfold createContainerWorkload
  split
  · exact World.Grows.refl world
  · exact World.Grows.refl world
  · dsimp only
    have made := createEnvFile_grows env world.config world.sys
    split
    · exact ⟨made, fun _ => rfl, rfl⟩
    · exact ⟨made.trans (setContents_grows env _ List.mem_cons_self _ _), fun _ => rfl, rfl⟩

theorem stateFileCreate_grows (created : Option String) :
    (stateFileCreate env created).Moves (World.Grows [.wrote]) := by
  intro world
  unfold stateFileCreate
  split
  · next inputs config _ got =>
    rw [stateFileGet_eq_some got]
    dsimp only
    split
    · exact ⟨Sys.Grows.refl world.sys, fun _ => rfl, rfl⟩
    · exact ⟨setContents_grows env world.sys List.mem_cons_self _ _, fun _ => rfl, rfl⟩
  · exact World.Grows.refl world

theorem withConsole_frame (config : Config) :
    config.withConsole.state = config.state ∧ config.withConsole.options = config.options := by
  unfold Config.withConsole
  split <;> exact ⟨rfl, rfl⟩

theorem vmArgsGet_config {host : Host} {config prepared : Config} {args : List String}
    (found : vmArgsGet env host config = some (prepared, args)) : prepared = config.withConsole := by
  simp only [vmArgsGet, expandCmdline, Option.bind_eq_bind, Option.bind_eq_some_iff,
    Option.pure_def, Option.some.injEq, Prod.mk.injEq] at found
  obtain ⟨_, _, _, _, _, _, _, _, _, _, _, _, same, _⟩ := found
  exact same.symm

theorem vmWait_grows (config : Config) (sys : Sys) : sys.Grows [.wrote] (vmWait env config sys).2 := by
  have once : sys.Grows [.wrote] sys.tick := Sys.Grows.tick sys
  have twice := once.trans (Sys.Grows.tick sys.tick)
  unfold vmWait
  split
  · split
    · exact twice
    · split
      · exact twice.trans (createPidfile_grows env _ List.mem_cons_self _ _)
      · exact twice
  · exact once

theorem launched_grows (sys : Sys) (args : List String) (pid : GPid) :
    sys.Grows [.spawn, .wrote] (sys.launched args pid) := by
  have spawned : (Event.spawn args pid).kind ∈ [Event.Kind.spawn, .wrote] := List.mem_cons_self
  exact (Sys.Grows.log spawned sys).of_same rfl rfl

theorem vmLaunch_grows : (vmLaunch env).Moves (World.Grows [.spawn, .wrote]) := by
  intro world
  unfold vmLaunch
  dsimp only
  split
  · exact World.Grows.refl world
  · next config args found =>
    have same := vmArgsGet_config env found
    obtain ⟨state, options⟩ := withConsole_frame world.config
    have path : config.state.runtimePath = world.config.state.runtimePath := by rw [same, state]
    have mode : config.options = world.config.options := by rw [same, options]
    split
    · exact ⟨Sys.Grows.tick world.sys, fun _ => path, mode⟩
    · next pid _ =>
      have launched := launched_grows world.sys.tick args pid
      have waited := (vmWait_grows env (config.setWorkloadPid pid)
        (world.sys.tick.launched args pid)).mono (List.subset_cons_self Event.Kind.spawn [.wrote])
      exact ⟨((Sys.Grows.tick world.sys).trans launched).trans waited, fun _ => path, mode⟩

theorem prestartHooks_grows : (prestartHooks env).Moves (World.Grows [.hook]) := by
  intro world
  exact ⟨runHooks_grows env world.sys List.mem_cons_self _ _ _, fun _ => rfl, rfl⟩

end Steps

end ClrOci
