import ClrOci.Creation
import ClrOci.Marks

/-! What the commands for one container leave alone.

A file and a directory that lie outside the runtime directory of a container, and that its creation
is not asked to write, are as they were after every command for it. The steps are taken one by one,
and sequences by the rule for what operations move.
-/

set_option autoImplicit false

namespace ClrOci

open Foundation

structure Sys.Spares (file dir : String) (before after : Sys) : Prop where
  file : after.files file = before.files file
  dir : before.dirs dir = true → after.dirs dir = true

namespace Sys.Spares
variable {file dir : String} {first second third : Sys}

theorem refl (sys : Sys) : sys.Spares file dir sys := ⟨rfl, fun made => made⟩

theorem trans (early : first.Spares file dir second) (late : second.Spares file dir third) :
    first.Spares file dir third :=
  ⟨late.file.trans early.file, fun made => late.dir (early.dir made)⟩

theorem of_same (files : second.files = first.files) (dirs : second.dirs = first.dirs) :
    first.Spares file dir second :=
  ⟨congrFun files file, fun made => by rw [dirs]; exact made⟩

theorem tick (sys : Sys) : sys.Spares file dir sys.tick := of_same rfl rfl

end Sys.Spares

structure Elsewhere (rootDir : Option String) (id file dir : String) : Prop where
  state : file ≠ statePathOf rootDir id
  file : Sys.below (runtimePath rootDir id).text file = false
  dir : Sys.below (runtimePath rootDir id).text dir = false

section Primitives
variable (env : Env) {file dir : String} (sys : Sys)

theorem setContents_spares {path : String} (other : file ≠ path) (content : Content) :
    sys.Spares file dir (setContents env path content sys).2 := by
  unfold setContents
  split
  · exact ⟨Function.update_of_ne other _ _, fun made => made⟩
  · exact Sys.Spares.tick sys

theorem unlink_spares {path : String} (other : file ≠ path) :
    sys.Spares file dir (unlink env path sys).2 := by
  unfold unlink
  split
  · exact ⟨Function.update_of_ne other _ _, fun made => made⟩
  · exact Sys.Spares.tick sys

theorem rmRf_spares {path : String} (outside : Sys.below path file = false)
    (apart : Sys.below path dir = false) : sys.Spares file dir (rmRf env path sys).2 := by
  unfold rmRf
  split
  · exact Sys.Spares.refl sys
  · dsimp only
    split
    · constructor
      · simp [Sys.removeTree, outside]
      · intro made
        simp [Sys.removeTree, apart, made]
    · exact Sys.Spares.tick sys

theorem kill_spares (pid : GPid) (signum : Int32) : sys.Spares file dir (kill env pid signum sys).2 := by
  unfold kill
  split
  · exact Sys.Spares.of_same rfl rfl
  · exact Sys.Spares.tick sys

theorem runHooks_spares (hooks : List Hook) (path : String) (stopOnFailure : Bool) :
    sys.Spares file dir (runHooks env hooks path stopOnFailure sys).2 := by
  obtain ⟨files, dirs, _⟩ := runHooks_frame env hooks path stopOnFailure sys
  exact Sys.Spares.of_same files dirs

end Primitives

structure Config.For (rootDir : Option String) (id : String) (config : Config) : Prop where
  root : config.rootDir = rootDir
  named : config.optargContainerId = some id
  placed : config.state.runtimePath = runtimePath rootDir id

theorem Config.fill_placed_names (config : Config) (id : String) (state : OciState) :
    ((config.placed id).fill state).rootDir = config.rootDir ∧
      ((config.placed id).fill state).optargContainerId = config.optargContainerId := by
  simp only [Config.fill, Config.placed_eq, and_self]

def Config.strays (config : Config) : List String :=
  config.pidFile.toList ++ [envFilePath config, (Buffer.copy 4095 (workloadFilePath config)).text]

def World.Spares (kind : Config → Prop) (file dir : String) (before after : World) : Prop :=
  kind before.config → kind after.config ∧ before.sys.Spares file dir after.sys

namespace World.Spares
variable {kind : Config → Prop} {file dir : String}

theorem refl (world : World) : world.Spares kind file dir world :=
  fun given => ⟨given, Sys.Spares.refl world.sys⟩

theorem trans {first second third : World} (early : first.Spares kind file dir second)
    (late : second.Spares kind file dir third) : first.Spares kind file dir third := by
  intro given
  obtain ⟨still, before⟩ := early given
  obtain ⟨also, after⟩ := late still
  exact ⟨also, before.trans after⟩

theorem andThen {head next : Action World} (early : head.Moves (World.Spares kind file dir))
    (late : next.Moves (World.Spares kind file dir)) :
    (head.andThen next).Moves (World.Spares kind file dir) := by
  have trans : ∀ first second third : World, first.Spares kind file dir second →
      second.Spares kind file dir third → first.Spares kind file dir third :=
    fun _ _ _ => World.Spares.trans
  exact Action.Moves.andThen trans early late

end World.Spares

section Steps
variable (env : Env) {rootDir : Option String} {id file dir : String}

/-- Writing the state file changes no other file, and of the configuration only its path. -/
theorem stateFileCreate_spares (created : Option String) (world : World)
    (apart : file ≠ statePathOf rootDir id)
    (placed : world.config.state.runtimePath = runtimePath rootDir id) :
    world.sys.Spares file dir (stateFileCreate env created world).state.sys ∧
      ((stateFileCreate env created world).state.config = world.config ∨
        (stateFileCreate env created world).state.config = world.config.withStateFilePath) := by
  unfold stateFileCreate
  split
  · next inputs config _ got =>
    rw [stateFileGet_eq_some got]
    have path : world.config.withStateFilePath.state.stateFilePath.text = statePathOf rootDir id :=
      congrArg (fun runtime => (stateFilePath runtime).text) placed
    dsimp only
    split
    · exact ⟨Sys.Spares.refl world.sys, Or.inr rfl⟩
    · rw [path]
      exact ⟨setContents_spares env world.sys apart _, Or.inr rfl⟩
  · exact ⟨Sys.Spares.refl world.sys, Or.inl rfl⟩

theorem poststartHooks_for :
    (poststartHooks env).Moves (World.Spares (Config.For rootDir id) file dir) := by
  intro world given
  exact ⟨given, runHooks_spares env world.sys _ _ _⟩

section Rewriting
variable (elsewhere : Elsewhere rootDir id file dir)
include elsewhere

theorem writeStatus_for (created : Option String) (status : Status) :
    (writeStatus env created status).Moves (World.Spares (Config.For rootDir id) file dir) := by
  intro world given
  obtain ⟨spares, config⟩ := stateFileCreate_spares env created (world.withStatus status)
    elsewhere.state given.placed
  refine ⟨?_, spares⟩
  rcases config with same | same
  · rw [writeStatus, same]
    exact ⟨given.root, given.named, given.placed⟩
  · rw [writeStatus, same]
    exact ⟨given.root, given.named, given.placed⟩

theorem clrOciKill_for (state : OciState) (signum : Int32) :
    (clrOciKill env state signum).Moves (World.Spares (Config.For rootDir id) file dir) := by
  intro world
  refine World.Spares.andThen (writeStatus_for env elsewhere state.createTime .stopping) ?_ world
  intro world given
  have sent : world.sys.Spares file dir (kill env state.pid signum world.sys).2 :=
    kill_spares env world.sys state.pid signum
  dsimp only
  split
  · obtain ⟨still, written⟩ := writeStatus_for env elsewhere state.createTime .stopped
      (world.withSys (kill env state.pid signum world.sys).2) given
    exact ⟨still, sent.trans written⟩
  · obtain ⟨still, written⟩ := writeStatus_for env elsewhere state.createTime _
      (world.withSys (kill env state.pid signum world.sys).2) given
    exact ⟨still, sent.trans written⟩

theorem clrOciToggle_for (state : OciState) (pause : Bool) :
    (clrOciToggle env state pause).Moves (World.Spares (Config.For rootDir id) file dir) := by
  intro world
  unfold clrOciToggle
  dsimp only
  generalize (if pause = true then Status.paused else Status.running) = dest
  split
  · exact World.Spares.refl world
  · intro given
    have ticked : world.sys.Spares file dir (world.withSys world.sys.tick).sys :=
      Sys.Spares.tick world.sys
    split
    · obtain ⟨still, written⟩ := writeStatus_for env elsewhere state.createTime dest
        (world.withSys world.sys.tick) given
      exact ⟨still, ticked.trans written⟩
    · exact ⟨given, ticked⟩

theorem cleanup_for (world : World)
    (placed : world.config.state.runtimePath = runtimePath rootDir id)
    (path : world.config.state.stateFilePath.text = statePathOf rootDir id) :
    (cleanup env world).state.config = world.config ∧
      world.sys.Spares file dir (cleanup env world).state.sys := by
  obtain ⟨files, dirs⟩ := handleUnmounts_frame env world.config.oci.mounts world.sys
  have unmounted : world.sys.Spares file dir (unmountAll env world).state.sys :=
    Sys.Spares.of_same files dirs
  rw [cleanup]
  by_cases drained : (unmountAll env).Succeeds world
  · rw [Action.andThen_of_succeeds drained]
    generalize emptied : (unmountAll env world).state = second at unmounted ⊢
    have same : second.config = world.config := by rw [← emptied]; rfl
    have unlinked : (deleteStateFile env second).state.config = world.config ∧
        second.sys.Spares file dir (deleteStateFile env second).state.sys := by
      unfold deleteStateFile stateFileDelete
      split
      · exact ⟨same, Sys.Spares.refl second.sys⟩
      · exact ⟨same, unlink_spares env second.sys (by rw [same, path]; exact elsewhere.state)⟩
    by_cases deleted : (deleteStateFile env).Succeeds second
    · rw [Action.andThen_of_succeeds deleted]
      generalize (deleteStateFile env second).state = third at unlinked ⊢
      have removed : third.sys.Spares file dir (deleteRuntimeDir env third).state.sys := by
        unfold deleteRuntimeDir runtimeDirDelete
        rw [unlinked.1, placed]
        dsimp only
        split
        · exact rmRf_spares env third.sys elsewhere.file elsewhere.dir
        · exact Sys.Spares.refl third.sys
      exact ⟨unlinked.1, (unmounted.trans unlinked.2).trans removed⟩
    · rw [Action.andThen_of_stops deleted]
      exact ⟨unlinked.1, unmounted.trans unlinked.2⟩
  · rw [Action.andThen_of_stops drained]
    exact ⟨rfl, unmounted⟩

theorem afterLoop_for (failed : Bool) :
    (afterLoop env failed).Moves (World.Spares (Config.For rootDir id) file dir) := by
  intro world given
  unfold afterLoop
  split
  · exact ⟨given, Sys.Spares.refl world.sys⟩
  · next fetched got =>
    obtain ⟨_, _, placed⟩ := getConfigAndState_spec given.named got
    obtain ⟨runtime, path⟩ := Config.fill_placed_paths world.config id fetched.state
    rw [← placed, given.root] at runtime path
    obtain ⟨root, named⟩ := Config.fill_placed_names world.config id fetched.state
    rw [← placed] at root named
    have again : fetched.config.For rootDir id :=
      ⟨root.trans given.root, named.trans given.named, runtime⟩
    dsimp only
    split
    · exact ⟨again, Sys.Spares.refl world.sys⟩
    · obtain ⟨config, spares⟩ := cleanup_for env elsewhere
        { world with config := fetched.config } runtime (by rw [path]; rfl)
      split
      · exact ⟨config ▸ again, spares⟩
      · exact ⟨config ▸ again, spares⟩

theorem waitIf_for (sequential : env.Sequential) (wait : Bool) :
    (waitIf env wait).Moves (World.Spares (Config.For rootDir id) file dir) := by
  intro world given
  unfold waitIf
  split
  · unfold waitForVm
    split
    · exact ⟨given, Sys.Spares.refl world.sys⟩
    · next wakeup woken =>
      have woke : world.sys.Spares file dir { world.sys.tick with files := wakeup.files } :=
        Sys.Spares.of_same (sequential _ _ _ woken) rfl
      obtain ⟨still, spares⟩ := afterLoop_for env elsewhere wakeup.failed
        (world.withSys { world.sys.tick with files := wakeup.files }) given
      exact ⟨still, woke.trans spares⟩
  · exact ⟨given, Sys.Spares.refl world.sys⟩

theorem reachRunning_for (created : Option String) (wait : Bool) :
    (reachRunning env wait created).Moves (World.Spares (Config.For rootDir id) file dir) := by
  apply World.Spares.andThen
  · intro world
    exact World.Spares.refl world
  · intro world given
    have sent : world.sys.Spares file dir
        (kill env world.config.state.workloadPid sigcont world.sys).2 :=
      kill_spares env world.sys _ sigcont
    unfold resumeVm
    dsimp only
    split
    · obtain ⟨still, written⟩ := writeStatus_for env elsewhere created .running
        (world.withSys (kill env world.config.state.workloadPid sigcont world.sys).2) given
      exact ⟨still, sent.trans written⟩
    · exact ⟨given, sent⟩

theorem clrOciStart_for (sequential : env.Sequential) (data : StartData) (state : OciState) :
    (clrOciStart env data state).Moves (World.Spares (Config.For rootDir id) file dir) := by
  intro world given
  by_cases ready : state.status = .created
  · rw [clrOciStart_eq env data ready]
    have moves (wait : Bool) : ((reachRunning env wait state.createTime).andThen
        ((poststartHooks env).andThen (waitIf env wait))).Moves
          (World.Spares (Config.For rootDir id) file dir) :=
      World.Spares.andThen (reachRunning_for env elsewhere state.createTime wait)
        (World.Spares.andThen (poststartHooks_for env) (waitIf_for env elsewhere sequential wait))
    have opened (bundlePath : Option String) : (world.config.withBundle bundlePath).For rootDir id :=
      ⟨given.root, given.named, given.placed⟩
    exact moves _ ⟨_, world.sys⟩ (opened _)
  · rw [clrOciStart, if_pos ready]
    exact ⟨given, Sys.Spares.refl world.sys⟩

end Rewriting

section Creating

def Config.Building (rootDir : Option String) (id file : String) (config : Config) : Prop :=
  config.For rootDir id ∧ file ∉ config.strays

theorem handleMounts_building :
    (handleMounts env).Moves (World.Spares (Config.Building rootDir id file) file dir) := by
  intro world given
  refine ⟨⟨⟨given.1.root, given.1.named, given.1.placed⟩, given.2⟩, ?_⟩
  apply sweep_moves (Sys.Spares file dir) Sys.Spares.refl (fun _ _ _ => Sys.Spares.trans)
  intro mount sys
  rcases handleMount_state env sys world.config.oci.root.path world.config.dryRunMode mount with same | same
  · rw [same]
    exact Sys.Spares.tick sys
  · rw [same]
    exact Sys.Spares.of_same rfl rfl

theorem createContainerWorkload_building :
    (createContainerWorkload env).Moves (World.Spares (Config.Building rootDir id file) file dir) := by
  intro world given
  have apart := given.2
  simp only [Config.strays, List.mem_append, List.mem_cons, List.not_mem_nil, or_false, not_or] at apart
  obtain ⟨_, notEnv, notWorkload⟩ := apart
  have made : world.sys.Spares file dir (createEnvFile env world.config world.sys).2 := by
    unfold createEnvFile
    split
    · exact Sys.Spares.refl world.sys
    · exact setContents_spares env world.sys notEnv _
  unfold createContainerWorkload
  split
  · exact ⟨given, Sys.Spares.refl world.sys⟩
  · exact ⟨given, Sys.Spares.refl world.sys⟩
  · dsimp only
    split
    · exact ⟨given, made⟩
    · refine ⟨⟨⟨given.1.root, given.1.named, given.1.placed⟩, given.2⟩, ?_⟩
      exact made.trans (setContents_spares env _ notWorkload _)

theorem vmWait_spares {config : Config} (apart : file ∉ config.strays) (sys : Sys) :
    sys.Spares file dir (vmWait env config sys).2 := by
  have once : sys.Spares file dir sys.tick := Sys.Spares.tick sys
  have twice := once.trans (Sys.Spares.tick sys.tick)
  unfold vmWait
  split
  · split
    · exact twice
    · split
      · next pidfile named =>
        have other : file ≠ pidfile := by
          intro same
          exact apart (List.mem_append_left _ (by rw [named, same]; exact List.mem_singleton_self pidfile))
        unfold createPidfile
        split
        · exact twice
        · exact twice.trans (setContents_spares env _ other _)
      · exact twice
  · exact once

theorem vmLaunch_building :
    (vmLaunch env).Moves (World.Spares (Config.Building rootDir id file) file dir) := by
  intro world given
  unfold vmLaunch
  dsimp only
  split
  · exact ⟨given, Sys.Spares.refl world.sys⟩
  · next config args found =>
    have kept : ∀ pid, (config.setWorkloadPid pid).Building rootDir id file ∧
        config.Building rootDir id file := by
      intro pid
      rw [vmArgsGet_config env found]
      unfold Config.withConsole
      split
      · exact ⟨⟨⟨given.1.root, given.1.named, given.1.placed⟩, given.2⟩,
          ⟨given.1.root, given.1.named, given.1.placed⟩, given.2⟩
      · exact ⟨⟨⟨given.1.root, given.1.named, given.1.placed⟩, given.2⟩, given⟩
    split
    · exact ⟨(kept 0).2, Sys.Spares.tick world.sys⟩
    · next pid _ =>
      have launched : world.sys.Spares file dir (world.sys.tick.launched args pid) :=
        Sys.Spares.of_same rfl rfl
      exact ⟨(kept pid).1, launched.trans (vmWait_spares env (kept pid).1.2 _)⟩

theorem prestartHooks_building :
    (prestartHooks env).Moves (World.Spares (Config.Building rootDir id file) file dir) := by
  intro world given
  exact ⟨given, runHooks_spares env world.sys _ _ _⟩

variable (apart : file ≠ statePathOf rootDir id)
include apart

theorem launchContainer_building :
    (launchContainer env).Moves (World.Spares (Config.Building rootDir id file) file dir) := by
  intro world given
  have stored (created : Option String) : (stateFileCreate env created).Moves
      (World.Spares (Config.Building rootDir id file) file dir) := by
    intro world given
    obtain ⟨spares, config⟩ := stateFileCreate_spares env created world apart given.1.placed
    refine ⟨?_, spares⟩
    rcases config with same | same
    · rw [same]
      exact given
    · rw [same]
      exact ⟨⟨given.1.root, given.1.named, given.1.placed⟩, given.2⟩
  unfold launchContainer
  dsimp only
  have stamped : ((world.withStatus .created).withSys world.sys.tick).config.Building rootDir id file :=
    ⟨⟨given.1.root, given.1.named, given.1.placed⟩, given.2⟩
  have ticked : world.sys.Spares file dir ((world.withStatus .created).withSys world.sys.tick).sys :=
    Sys.Spares.tick world.sys
  split
  · exact ⟨stamped, ticked⟩
  · next created _ =>
    have launched := World.Spares.andThen (vmLaunch_building env) (stored (some created))
    obtain ⟨still, spares⟩ := launched _ stamped
    exact ⟨still, ticked.trans spares⟩

theorem buildContainer_building :
    (buildContainer env).Moves (World.Spares (Config.Building rootDir id file) file dir) := by
  have prepared : (prepareContainer env).Moves (World.Spares (Config.Building rootDir id file) file dir) :=
    World.Spares.andThen (handleMounts_building env) (createContainerWorkload_building env)
  apply World.Spares.andThen prepared
  intro world
  dsimp only
  split
  · exact World.Spares.refl world
  · exact World.Spares.andThen (launchContainer_building env apart) (prestartHooks_building env) world

end Creating

end Steps

end ClrOci
