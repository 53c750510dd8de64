import ClrOci.Hooks
import ClrOci.Reload

/-! What a creation that succeeds leaves for the commands after it. -/

set_option autoImplicit false

namespace ClrOci

open Foundation

structure Created (world : World) (inputs : StateInputs) : Prop where
  given : stateInputs world.config (some inputs.created) = some inputs
  status : world.config.state.status = .created
  console : world.config.console.isSome = true
  file : world.config.state.stateFilePath = stateFilePath world.config.state.runtimePath
  held : world.sys.files (stateFilePath world.config.state.runtimePath).text = some (.json
    (stateJson world.config inputs.vm inputs.id inputs.bundlePath "created" inputs.created))

theorem withConsole_isSome (config : Config) : config.withConsole.console.isSome = true := by
  unfold Config.withConsole
  split
  · rfl
  · next set =>
    cases given : config.console with
    | none => simp [given] at set
    | some console => rfl

section Launch
variable {env : Env} {world : World}

theorem vmLaunch_config (ok : (vmLaunch env).Succeeds world) :
    ∃ pid, (vmLaunch env world).state.config = world.config.withConsole.setWorkloadPid pid := by
  unfold Action.Succeeds vmLaunch at ok
  unfold vmLaunch
  dsimp only at ok ⊢
  split at ok
  · cases ok
  · next config args found =>
    cases vmArgsGet_config env found
    split at ok
    · cases ok
    · next pid _ => exact ⟨pid, rfl⟩

theorem Created.of_create {created : Option String} (ok : (stateFileCreate env created).Succeeds world)
    (status : world.config.state.status = .created) (console : world.config.console.isSome = true) :
    ∃ inputs, Created (stateFileCreate env created world).state inputs := by
  obtain ⟨inputs, text, given, named, after⟩ := stateFileCreate_state ok
  have time := (stateInputs_eq_some_iff.mp given).1
  rw [status] at named
  cases named
  refine ⟨inputs, ?_⟩
  rw [after]
  exact {
    given := time ▸ given
    status := status
    console := console
    file := rfl
    held := Sys.written_files_self _ _ _ }

theorem launchContainer_created (ok : (launchContainer env).Succeeds world) :
    ∃ inputs, Created (launchContainer env world).state inputs := by
  obtain ⟨created, launched, stored, run⟩ := launchContainer_of_succeeds ok
  obtain ⟨pid, config⟩ := vmLaunch_config launched
  have console := withConsole_isSome (world.withStatus .created).config
  have state := (withConsole_frame (world.withStatus .created).config).1
  rw [run]
  apply Created.of_create stored
  · rw [config]
    exact congrArg ContainerState.status state
  · rw [config]
    exact console

end Launch

section Create
variable {env : Env} {world : World} {id : String}

theorem Created.prestartHooks {inputs : StateInputs} (created : Created world inputs) :
    Created (prestartHooks env world).state inputs := by
  have files := (runHooks_frame env world.config.oci.hooks.prestart
    world.config.state.stateFilePath.text true world.sys).1
  exact {
    given := created.given
    status := created.status
    console := created.console
    file := created.file
    held := (congrFun files _).trans created.held }

theorem runtimeDirSetup_placed
    (unset : world.config.state.runtimePath.isSet = false)
    (named : world.config.optargContainerId = some id) :
    (runtimeDirSetup env world).state.config.state.runtimePath =
      runtimePath world.config.rootDir id := by
  have filled : runtimePaths world.config = some (((world.config.located id).setState
      { (world.config.located id).state with
        commsPath := commsPath (runtimePath world.config.rootDir id)
        procsockPath := procsockPath (runtimePath world.config.rootDir id) })) := by
    unfold runtimePaths
    rw [if_neg (by simp [unset]), runtimePathGet, named]
    rfl
  unfold runtimeDirSetup
  rw [filled]
  rfl

theorem configFileParse_bundle (ok : (configFileParse env).Succeeds world) :
    (configFilePath world.config.bundlePath).isSome = true := by
  unfold Action.Succeeds configFileParse at ok
  dsimp only at ok
  split at ok
  · next file _ => simp_all
  · cases ok

theorem claimContainer_placed (ok : (claimContainer env).Succeeds world)
    (unset : world.config.state.runtimePath.isSet = false)
    (named : world.config.optargContainerId = some id) :
    (claimContainer env world).state.config.state.runtimePath = runtimePath world.config.rootDir id ∧
      (configFilePath world.config.bundlePath).isSome = true := by
  obtain ⟨parsed, rest⟩ := Action.andThen_succeeds_iff.mp ok
  obtain ⟨checked, made⟩ := Action.andThen_succeeds_iff.mp rest
  rw [checkConfig_state] at made
  have frame := (configFileParse_frame env world).2
  have state := congrArg Config.state frame
  have options := congrArg Config.optargContainerId frame
  have root := congrArg Config.rootDir frame
  have same := claimContainer_of_checked parsed checked
  generalize (configFileParse env world).state = bundle at *
  change bundle.config.state = world.config.state at state
  change bundle.config.optargContainerId = world.config.optargContainerId at options
  change bundle.config.rootDir = world.config.rootDir at root
  rw [same, ← root]
  refine ⟨runtimeDirSetup_placed (by rw [state]; exact unset) (options.trans named), ?_⟩
  exact configFileParse_bundle parsed

theorem clrOciCreate_created (ok : (clrOciCreate env).Succeeds world)
    (real : world.config.dryRunMode = false) (unset : world.config.state.runtimePath.isSet = false)
    (named : world.config.optargContainerId = some id) :
    (∃ inputs, Created (clrOciCreate env world).state inputs) ∧
      (clrOciCreate env world).state.config.state.runtimePath = runtimePath world.config.rootDir id ∧
      (clrOciCreate env world).state.config.options = world.config.options ∧
      (configFilePath world.config.bundlePath).isSome = true := by
  rw [Action.Succeeds, clrOciCreate_eq_reachHooks real] at ok
  rw [clrOciCreate_eq_reachHooks real]
  obtain ⟨reached, _⟩ := Action.andThen_succeeds_iff.mp ok
  have options := (reachHooks_grows env world).options
  obtain ⟨claimed, rest⟩ := Action.andThen_succeeds_iff.mp reached
  obtain ⟨prepared, launched⟩ := Action.andThen_succeeds_iff.mp rest
  obtain ⟨placed, bundle⟩ := claimContainer_placed claimed unset named
  have state : reachHooks env world = launchContainer env
      (prepareContainer env (claimContainer env world).state).state := by
    rw [reachHooks, Action.andThen_of_succeeds claimed, Action.andThen_of_succeeds prepared]
  have kept := ((prepareContainer_grows env (claimContainer env world).state).mono
    (List.subset_append_right [Event.Kind.spawn] _)).trans
    ((launchContainer_grows env (prepareContainer env (claimContainer env world).state).state).mono
      (by decide))
  obtain ⟨inputs, created⟩ := launchContainer_created launched
  rw [← state] at created kept
  rw [Action.andThen_of_succeeds reached]
  refine ⟨⟨inputs, created.prestartHooks⟩, ?_, options, bundle⟩
  exact (kept.runtimePath (by rw [placed]; exact runtimePath_isSet _ _)).trans placed

end Create

end ClrOci
