import ClrOci.Creation
import ClrOci.Truncation

/-! What a run leaves behind that is asked only to try. -/

set_option autoImplicit false

namespace ClrOci

open Foundation

def dryWorld (config : Config) (sys : Sys) : World :=
  ⟨{ config with dryRunMode := true, state := {} }, sys⟩

structure NoTrace (before after : World) : Prop where
  runtimeDir : after.sys.dirs after.config.state.runtimePath.text = false
  mounts : before.sys.mountedSince after.sys = []
  processes : before.sys.spawnedSince after.sys = []
  stateFile : after.sys.files (stateFilePath after.config.state.runtimePath).text = none

def DryRunHolds (env : Env) (data : StartData) (world : World) : Prop :=
  (clrOciRun env data).Succeeds world ∧ NoTrace world (clrOciRun env data world).state

def KeepsStateFilePath (before after : World) : Prop :=
  after.config.state.stateFilePath = before.config.state.stateFilePath

namespace KeepsStateFilePath
variable {first second third : World}

theorem refl (world : World) : KeepsStateFilePath world world := rfl

theorem trans (early : KeepsStateFilePath first second) (late : KeepsStateFilePath second third) :
    KeepsStateFilePath first third := Eq.trans late early

theorem sequence {steps : List (Action World)} (each : ∀ step ∈ steps, step.Moves KeepsStateFilePath) :
    (Action.sequence steps).Moves KeepsStateFilePath :=
  Action.Moves.sequence refl (fun _ _ _ => trans) each

end KeepsStateFilePath

section Steps
variable (env : Env)

theorem runtimeDirSetup_stateFilePath : (runtimeDirSetup env).Moves KeepsStateFilePath := by
  intro world
  unfold runtimeDirSetup
  split
  · rfl
  · next filled found =>
    rw [runtimePaths_eq] at found
    obtain ⟨path, _, rfl⟩ := Option.map_eq_some_iff.mp found
    rfl

theorem claimContainer_stateFilePath : (claimContainer env).Moves KeepsStateFilePath := by
  apply KeepsStateFilePath.sequence
  intro step member
  simp only [List.mem_cons, List.not_mem_nil, or_false] at member
  rcases member with rfl | rfl | rfl
  · intro world
    exact congrArg (fun config => config.state.stateFilePath) (configFileParse_frame env world).2
  · intro world
    rw [checkConfig_state]
    exact KeepsStateFilePath.refl world
  · exact runtimeDirSetup_stateFilePath env

theorem createContainerWorkload_stateFilePath :
    (createContainerWorkload env).Moves KeepsStateFilePath := by
  intro world
  unfold createContainerWorkload
  split
  · rfl
  · rfl
  · dsimp only
    split <;> rfl

theorem dryBuild_stateFilePath : (Action.sequence (buildSteps env true)).Moves KeepsStateFilePath := by
  apply KeepsStateFilePath.sequence
  intro step member
  simp only [buildSteps, ↓reduceIte, List.append_nil, List.mem_cons, List.not_mem_nil, or_false] at member
  rcases member with rfl | rfl
  · exact fun world => KeepsStateFilePath.refl world
  · exact createContainerWorkload_stateFilePath env

theorem dryCreate_stateFilePath {world : World} (dry : world.config.dryRunMode = true) :
    KeepsStateFilePath world (clrOciCreate env world).state := by
  have claim := claimContainer_stateFilePath env world
  by_cases claimed : (claimContainer env).Succeeds world
  · have still := (claimContainer_grows env world).dryRun.trans dry
    rw [clrOciCreate, Action.andThen_of_succeeds claimed, buildContainer_eq_sequence, still]
    exact claim.trans (dryBuild_stateFilePath env _)
  · rw [clrOciCreate, Action.andThen_of_stops claimed]
    exact claim

end Steps

theorem stateFileRead_unnamed (files : Files) : stateFileRead files "" = none := by
  have unread : jsonParseFile files "" = none := by
    unfold jsonParseFile
    split <;> rfl
  rw [stateFileRead, unread]

/-- The state file that was not written is read from an empty path. -/
theorem dryRun_eq (env : Env) (data : StartData) (config : Config) (sys : Sys) :
    ¬ (clrOciRun env data).Succeeds (dryWorld config sys) ∧
      (clrOciRun env data (dryWorld config sys)).state = (clrOciCreate env (dryWorld config sys)).state := by
  by_cases created : (clrOciCreate env).Succeeds (dryWorld config sys)
  · have unset : (clrOciCreate env (dryWorld config sys)).state.config.state.stateFilePath.text = "" := by
      rw [dryCreate_stateFilePath env (show (dryWorld config sys).config.dryRunMode = true from rfl)]
      exact Buffer.empty_text
    rw [Action.Succeeds, clrOciRun, Action.andThen_of_succeeds created]
    simp only [unset, stateFileRead_unnamed]
    refine ⟨fun ok => ?_, trivial⟩
    cases ok
  · rw [Action.Succeeds, clrOciRun, Action.andThen_of_stops created]
    exact ⟨created, rfl⟩

/-- A dry run never succeeds, and the directory that it makes takes the id. -/
theorem dryRun_never (env : Env) (data : StartData) (config : Config) (sys : Sys) :
    ¬ DryRunHolds env data (dryWorld config sys) ∧
      ¬ (clrOciRun env data).Succeeds (dryWorld config sys) ∧
      ((claimContainer env).Succeeds (dryWorld config sys) →
        ¬ NoTrace (dryWorld config sys) (clrOciRun env data (dryWorld config sys)).state) := by
  obtain ⟨fails, same⟩ := dryRun_eq env data config sys
  refine ⟨fun holds => fails holds.1, fails, fun claimed clean => ?_⟩
  have free := clean.runtimeDir
  rw [same, clrOciCreate_keeps_runtimeDir claimed] at free
  cases free

/-- A bundle that is accepted, with an id that is free: the run fails, and its directory stays. -/
theorem dryRun_blocks_id :
    let world := dryWorld bundleConfig (Sys.idle (bundleFiles [platformSection "linux"]))
    let after := (clrOciRun .calm {} world).state
    (claimContainer .calm).Succeeds world ∧ world.sys.dirs after.config.state.runtimePath.text = false ∧
      (clrOciRun .calm {} world).exit = .returned false ∧
      after.sys.dirs after.config.state.runtimePath.text = true ∧ ¬ DryRunHolds .calm {} world := by
  have failed : (clrOciRun .calm {} (dryWorld bundleConfig
      (Sys.idle (bundleFiles [platformSection "linux"])))).exit = .returned false := by decide
  refine ⟨by decide, by decide, failed, by decide, fun holds => ?_⟩
  have ok := holds.1
  rw [Action.Succeeds, failed] at ok
  cases ok

end ClrOci
