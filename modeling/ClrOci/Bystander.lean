import ClrOci.Containment
import ClrOci.Deletion
import ClrOci.Footprint
import ClrOci.Foundation.Runs
import ClrOci.Truncation
import ClrOci.Truthful

/-! Containers that a command is not for.

Every command of the runtime is taken here, whatever its outcome. With identifiers that are plain
names, a command for one container leaves the state file and the runtime directory of any other as
they are, and so does a whole run of commands for other containers.
-/

set_option autoImplicit false

namespace ClrOci

open Foundation Foundation.Shell

inductive RuntimeCommand where
  | create (data : StartData) (rest : List String)
  | run (data : StartData) (rest : List String)
  | given (invocation : Invocation)
  | stop (rest : List String)

namespace RuntimeCommand
variable (env : Env) (rootDir : Option String) (id : String) (sys : Sys)

def perform : RuntimeCommand → Sys
  | .create data rest => (handlerCreate env data (id :: rest) ⟨Config.fresh rootDir, sys⟩).state.sys
  | .run data rest => (handlerRun env data (id :: rest) ⟨Config.fresh rootDir, sys⟩).state.sys
  | .given invocation => invocation.perform env rootDir id sys
  | .stop rest => (handleCommandStop env (id :: rest) ⟨Config.fresh rootDir, sys⟩).state.sys

def configured (data : StartData) (rest : List String) : Run World :=
  ((handleCommandSetup env data (id :: rest)).andThen (configFileParse env)) ⟨Config.fresh rootDir, sys⟩

def strays : RuntimeCommand → List String
  | .create data rest | .run data rest =>
    let parsed := configured env rootDir id sys data rest
    if parsed.exit = .returned true then parsed.state.config.strays else []
  | .given _ | .stop _ => []

end RuntimeCommand

/-- An identifier that names a directory of its own, also to the shell that removes it. -/
structure Proper (rootDir : Option String) (id : String) : Prop where
  plain : Plain id.toList
  fits : (rootPath rootDir ++ "/" ++ id ++ "/" ++ stateFileName).length ≤ 4095
  inert : Inert (runtimePath rootDir id).text.toList

section Proper
variable {rootDir : Option String} {id other : String}

theorem Proper.runtimePath_text (proper : Proper rootDir id) :
    (runtimePath rootDir id).text = rootPath rootDir ++ "/" ++ id := by
  have fits := proper.fits
  simp only [String.length_append] at fits
  apply Buffer.copy_text_of_fits
  rw [← rootPath]
  simp only [String.length_append]
  omega

theorem Proper.statePathOf_eq (proper : Proper rootDir id) :
    statePathOf rootDir id = rootPath rootDir ++ "/" ++ id ++ "/" ++ stateFileName := by
  rw [statePathOf, stateFilePath, proper.runtimePath_text]
  exact Buffer.copy_text_of_fits proper.fits

theorem eq_of_append_slash {first second before after : List Char} (plain : '/' ∉ first)
    (also : '/' ∉ second) (same : first ++ '/' :: before = second ++ '/' :: after) : first = second := by
  have cut : ∀ {name rest : List Char}, '/' ∉ name →
      (name ++ '/' :: rest).takeWhile (· ≠ '/') = name := by
    intro name rest apart
    rw [List.takeWhile_append_of_pos]
    · simp
    · intro c member
      simp only [ne_eq, decide_eq_true_eq]
      rintro rfl
      exact apart member
  rw [← cut plain, same, cut also]

theorem Proper.elsewhere (proper : Proper rootDir id) (also : Proper rootDir other)
    (different : other ≠ id) :
    Elsewhere rootDir id (statePathOf rootDir other) (runtimePath rootDir other).text := by
  have names : other.toList ≠ id.toList := fun same => different (String.toList_inj.mp same)
  have slashed : ∀ rest : List Char, other.toList ≠ id.toList ++ '/' :: rest := by
    intro rest same
    have member : '/' ∈ other.toList := by rw [same]; simp
    exact also.plain.apart member
  have inside : ∀ rest rest' : List Char, other.toList ++ '/' :: rest ≠ id.toList ++ '/' :: rest' :=
    fun rest rest' same => names (eq_of_append_slash also.plain.apart proper.plain.apart same)
  refine ⟨?_, ?_, ?_⟩
  · intro same
    rw [proper.statePathOf_eq, also.statePathOf_eq] at same
    have letters := congrArg String.toList same
    simp only [String.toList_append, List.append_assoc, List.append_cancel_left_eq] at letters
    exact inside _ _ letters
  · rw [proper.runtimePath_text, also.statePathOf_eq]
    simp only [Sys.below, Bool.or_eq_false_iff, beq_eq_false_iff_ne, ne_eq]
    constructor
    · intro same
      have letters := congrArg String.toList same
      simp only [String.toList_append, List.append_assoc, List.append_cancel_left_eq] at letters
      have member : '/' ∈ id.toList := by rw [← letters]; simp
      exact proper.plain.apart member
    · rw [Bool.eq_false_iff]
      intro within
      obtain ⟨rest, same⟩ := List.isPrefixOf_iff_prefix.mp within
      simp only [String.toList_append, List.append_assoc, List.append_cancel_left_eq] at same
      exact inside _ _ same.symm
  · rw [proper.runtimePath_text, also.runtimePath_text]
    simp only [Sys.below, Bool.or_eq_false_iff, beq_eq_false_iff_ne, ne_eq]
    constructor
    · intro same
      have letters := congrArg String.toList same
      simp only [String.toList_append, List.append_assoc, List.append_cancel_left_eq] at letters
      exact names letters
    · rw [Bool.eq_false_iff]
      intro within
      obtain ⟨rest, same⟩ := List.isPrefixOf_iff_prefix.mp within
      simp only [String.toList_append, List.append_assoc, List.append_cancel_left_eq] at same
      exact slashed _ same.symm

end Proper

section Commands
variable {env : Env} {rootDir : Option String} {id file dir : String} {sys : Sys} {data : StartData}
  {rest : List String}

/-- The claim of a container settles its place, and the files that will be written elsewhere. -/
theorem claimContainer_building {world : World} (claimed : (claimContainer env).Succeeds world)
    (named : world.config.optargContainerId = some id) (root : world.config.rootDir = rootDir)
    (unset : world.config.state.runtimePath.isSet = false)
    (clean : (configFileParse env).Succeeds world →
      file ∉ (configFileParse env world).state.config.strays) :
    (claimContainer env world).state.config.Building rootDir id file := by
  have options := (claimContainer_grows env world).options
  have placed := (claimContainer_placed claimed unset named).1
  obtain ⟨parsed, others⟩ := Action.andThen_succeeds_iff.mp claimed
  obtain ⟨checked, made⟩ := Action.andThen_succeeds_iff.mp others
  rw [checkConfig_state, Action.sequence_singleton] at made
  refine ⟨⟨?_, ?_, ?_⟩, ?_⟩
  · exact (congrArg Config.rootDir options).trans root
  · exact (congrArg Config.optargContainerId options).trans named
  · rw [placed, root]
  · have strays := clean parsed
    rw [claimContainer_of_checked parsed checked]
    generalize (configFileParse env world).state = bundle at made strays ⊢
    cases wanted : wantedRuntimePath bundle.config with
    | none =>
      have none : runtimePaths bundle.config = none := by rw [runtimePaths_eq, wanted, Option.map_none]
      rw [Action.Succeeds, runtimeDirSetup, none] at made
      cases made
    | some path =>
      rw [runtimeDirSetup_config wanted]
      exact strays

/-- A creation spares what it is not asked to write, and is for the container to its end. -/
theorem clrOciCreate_spares {world : World} (apart : file ≠ statePathOf rootDir id)
    (named : world.config.optargContainerId = some id) (root : world.config.rootDir = rootDir)
    (unset : world.config.state.runtimePath.isSet = false)
    (clean : (configFileParse env).Succeeds world →
      file ∉ (configFileParse env world).state.config.strays) :
    world.sys.Spares file dir (clrOciCreate env world).state.sys ∧
      ((clrOciCreate env).Succeeds world → (clrOciCreate env world).state.config.For rootDir id) := by
  have frame := (claimContainer_frame env world).1
  have claim : world.sys.Spares file dir (claimContainer env world).state.sys :=
    ⟨congrFun frame file, (claimContainer_grows env world).sys.dirs dir⟩
  by_cases claimed : (claimContainer env).Succeeds world
  · have building := claimContainer_building claimed named root unset clean
    have moved : World.Spares (Config.Building rootDir id file) file dir _ _ :=
      buildContainer_building env apart (claimContainer env world).state
    obtain ⟨built, spares⟩ := moved building
    rw [Action.Succeeds, clrOciCreate, Action.andThen_of_succeeds claimed]
    exact ⟨claim.trans spares, fun _ => built.1⟩
  · rw [Action.Succeeds, clrOciCreate, Action.andThen_of_stops claimed]
    exact ⟨claim, fun ok => absurd ok claimed⟩

theorem handlerCreate_spares (dir : String) (apart : file ≠ statePathOf rootDir id)
    (clean : file ∉ (RuntimeCommand.create data rest).strays env rootDir id sys) :
    let created := handlerCreate env data (id :: rest) ⟨Config.fresh rootDir, sys⟩
    sys.Spares file dir created.state.sys ∧
      (created.exit = .returned true → created.state.config.For rootDir id) := by
  intro created
  have same := handleCommandSetup_sys env data (id :: rest) ⟨Config.fresh rootDir, sys⟩
  by_cases set : (handleCommandSetup env data (id :: rest)).Succeeds ⟨Config.fresh rootDir, sys⟩
  · have whole : created = clrOciCreate env
        (handleCommandSetup env data (id :: rest) ⟨Config.fresh rootDir, sys⟩).state :=
      Action.andThen_of_succeeds set
    have cases' := handleCommandSetup_cases set
    simp only [RuntimeCommand.strays, RuntimeCommand.configured, Action.andThen_of_succeeds set] at clean
    rw [whole]
    dsimp only at cases'
    generalize (handleCommandSetup env data (id :: rest) ⟨Config.fresh rootDir, sys⟩).state = world at *
    change world.sys = sys at same
    subst same
    rcases cases' with usage | ⟨_, _, named, root, state, _⟩
    · -- After the usage there is no bundle to create a container from.
      have unclaimed : ¬ (claimContainer env).Succeeds world := by
        intro claimed
        obtain ⟨parsed, _⟩ := Action.andThen_succeeds_iff.mp claimed
        rw [usage] at parsed
        cases configFileParse_bundle parsed
      rw [clrOciCreate, Action.andThen_of_stops unclaimed]
      refine ⟨⟨congrFun (claimContainer_frame env world).1 file, ?_⟩, fun ok => absurd ok unclaimed⟩
      exact (claimContainer_grows env world).sys.dirs dir
    · refine clrOciCreate_spares apart named root (by rw [state]; decide) fun parsed => ?_
      rw [if_pos (show (configFileParse env world).exit = .returned true from parsed)] at clean
      exact clean
  · have whole : created = handleCommandSetup env data (id :: rest) ⟨Config.fresh rootDir, sys⟩ :=
      Action.andThen_of_stops set
    rw [whole, same]
    exact ⟨Sys.Spares.refl sys, fun ok => absurd ok set⟩

theorem handleCommandStop_of_missing {world : World} (asked : handleDefaultUsage (id :: rest) = none)
    (missing : world.sys.files (world.statePath id) = none) :
    (handleCommandStop env (id :: rest) world).state.sys = world.sys := by
  have named : (world.config.setContainerId (some id)).optargContainerId = some id := rfl
  rw [World.statePath] at missing
  simp only [handleCommandStop, asked, List.head?_cons, stateFileExists_eq named,
    Config.setContainerId_rootDir, missing, Option.isSome_none, Bool.not_false, ↓reduceIte]

variable (elsewhere : Elsewhere rootDir id file dir)
include elsewhere

theorem handlerRun_spares (sequential : env.Sequential)
    (clean : file ∉ (RuntimeCommand.run data rest).strays env rootDir id sys) :
    sys.Spares file dir ((RuntimeCommand.run data rest).perform env rootDir id sys) := by
  have creation := handlerCreate_spares dir elsewhere.state clean
  simp only [RuntimeCommand.perform, handlerRun_eq]
  dsimp only at creation
  by_cases ok : (handlerCreate env data (id :: rest)).Succeeds ⟨Config.fresh rootDir, sys⟩
  · rw [Action.andThen_of_succeeds ok]
    have given := creation.2 ok
    refine creation.1.trans ?_
    generalize (handlerCreate env data (id :: rest) ⟨Config.fresh rootDir, sys⟩).state = world at given ⊢
    unfold runCreated
    split
    · exact Sys.Spares.refl world.sys
    · next state _ => exact (clrOciStart_for env elsewhere sequential _ state world given).2
  · rw [Action.andThen_of_stops ok]
    exact creation.1

theorem Invocation.perform_spares (sequential : env.Sequential) (invocation : Invocation) :
    sys.Spares file dir (invocation.perform env rootDir id sys) := by
  by_cases usage : id = "--help" ∨ id = "-h"
  · rw [Invocation.perform_of_usage usage]
    exact Sys.Spares.refl sys
  cases got : fetch rootDir id sys with
  | none =>
    rw [Invocation.perform_of_missing got]
    exact Sys.Spares.refl sys
  | some fetched =>
    rw [Invocation.perform_of_found got usage]
    have found' : World.fetch ⟨Config.fresh rootDir, sys⟩ id = some fetched := got
    have config := (World.fetch_spec found').2.2
    have runtime := (World.fetch_paths found').1
    let found : World := ⟨configUpdate fetched.config fetched.state, sys⟩
    have given : found.config.For rootDir id := by
      obtain ⟨root, named⟩ := Config.fill_placed_names
        ((Config.fresh rootDir).setContainerId (some id)) id fetched.state
      dsimp only at config
      rw [← config] at root named
      exact ⟨root, named, runtime⟩
    obtain ⟨command, arguments⟩ := invocation
    dsimp only
    cases command with
    | start data => exact (clrOciStart_for env elsewhere sequential data _ found given).2
    | toggle pause => exact (clrOciToggle_for env elsewhere _ pause found given).2
    | kill =>
      dsimp only
      cases killSignum (id :: arguments) with
      | none => exact Sys.Spares.refl sys
      | some signum => exact (clrOciKill_for env elsewhere _ signum found given).2

theorem clrOciStop_spares (state : OciState) (world : World)
    (placed : world.config.state.runtimePath = runtimePath rootDir id)
    (path : world.config.state.stateFilePath.text = statePathOf rootDir id) :
    world.sys.Spares file dir (clrOciStop env state world).state.sys := by
  obtain ⟨clock, same⟩ := vmDown_state env state world
  have down : world.sys.Spares file dir (vmDown env state world).state.sys := by
    rw [same]
    exact Sys.Spares.of_same rfl rfl
  rw [clrOciStop]
  by_cases ok : (vmDown env state).Succeeds world
  · rw [Action.andThen_of_succeeds ok]
    refine down.trans ?_
    rw [same]
    obtain ⟨_, cleaned⟩ := cleanup_for env elsewhere
      (world.withSys { world.sys with clock := clock }) placed path
    unfold cleanupThenHooks
    dsimp only
    split
    · exact cleaned.trans (runHooks_spares env _ _ _ _)
    · exact cleaned
  · rw [Action.andThen_of_stops ok]
    exact down

theorem handleCommandStop_spares :
    sys.Spares file dir ((RuntimeCommand.stop rest).perform env rootDir id sys) := by
  let world : World := ⟨Config.fresh rootDir, sys⟩
  simp only [RuntimeCommand.perform]
  cases asked : handleDefaultUsage (id :: rest) with
  | some ret =>
    simp only [handleCommandStop, asked]
    exact Sys.Spares.refl sys
  | none =>
    cases present : sys.files (world.statePath id) with
    | none =>
      rw [handleCommandStop_of_missing asked present]
      exact Sys.Spares.refl sys
    | some content =>
      rw [handleCommandStop_of_present asked present]
      dsimp only
      cases got : world.fetch id with
      | none => exact Sys.Spares.refl sys
      | some fetched =>
        dsimp only
        split
        · exact Sys.Spares.refl sys
        · next root _ =>
          obtain ⟨stopping, _, state, run⟩ := stopFetched_eq env fetched root
            ⟨(world.config.setContainerId (some id)).placed id, world.sys⟩
          obtain ⟨runtime, path⟩ := World.fetch_paths got
          rw [run]
          refine clrOciStop_spares elsewhere fetched.state ⟨stopping, sys⟩ ?_ ?_
          · exact (congrArg ContainerState.runtimePath state).trans runtime
          · exact congrArg Buffer.text ((congrArg ContainerState.stateFilePath state).trans path)

theorem RuntimeCommand.perform_spares (sequential : env.Sequential) (command : RuntimeCommand)
    (clean : file ∉ command.strays env rootDir id sys) :
    sys.Spares file dir (command.perform env rootDir id sys) := by
  cases command with
  | create data rest => exact (handlerCreate_spares dir elsewhere.state clean).1
  | run data rest => exact handlerRun_spares elsewhere sequential clean
  | given invocation => exact Invocation.perform_spares elsewhere sequential invocation
  | stop rest => exact handleCommandStop_spares elsewhere

end Commands

def act (env : Env) (rootDir : Option String) (sys : Sys) (input : String × RuntimeCommand) : Sys :=
  input.2.perform env rootDir input.1 sys

/-- A command for another container, whose other files are not the state file of this one. -/
def ForOther (env : Env) (rootDir : Option String) (id : String) (sys : Sys)
    (input : String × RuntimeCommand) : Prop :=
  Proper rootDir input.1 ∧ input.1 ≠ id ∧
    statePathOf rootDir id ∉ input.2.strays env rootDir input.1 sys

section Runs
variable {env : Env} {rootDir : Option String} {id : String} {sys : Sys}

theorem stateFileRead_congr {files others : Files} {path : String} (same : files path = others path) :
    stateFileRead files path = stateFileRead others path := by
  unfold stateFileRead jsonParseFile
  rw [same]

theorem fetch_congr {after : Sys}
    (same : after.files (statePathOf rootDir id) = sys.files (statePathOf rootDir id)) :
    fetch rootDir id after = fetch rootDir id sys := by
  have read := stateFileRead_congr same
  rw [statePathOf] at read
  rw [fetch, fetch, getConfigAndState_eq rfl, getConfigAndState_eq rfl, Config.setContainerId_rootDir]
  rw [show (Config.fresh rootDir).rootDir = rootDir from rfl, read]

/-- A run of commands for other containers, whatever they are and however they end, leaves the state
file of a container as it is and its directory in place, and a later command finds it unchanged. -/
theorem others_leave_container (sequential : env.Sequential) (proper : Proper rootDir id)
    (inputs : List (String × RuntimeCommand))
    (others : Along (act env rootDir) (ForOther env rootDir id) sys inputs) :
    let after := inputs.foldl (act env rootDir) sys
    after.files (statePathOf rootDir id) = sys.files (statePathOf rootDir id) ∧
      (sys.dirs (runtimePath rootDir id).text = true → after.dirs (runtimePath rootDir id).text = true) ∧
      fetch rootDir id after = fetch rootDir id sys := by
  have spares : sys.Spares (statePathOf rootDir id) (runtimePath rootDir id).text
      (inputs.foldl (act env rootDir) sys) := by
    induction inputs generalizing sys with
    | nil => exact Sys.Spares.refl sys
    | cons input rest ih =>
      obtain ⟨⟨also, different, clean⟩, later⟩ := others
      have now := RuntimeCommand.perform_spares (also.elsewhere proper (Ne.symm different)) sequential
        input.2 clean
      exact now.trans (ih later)
  exact ⟨spares.file, spares.dir, fetch_congr spares.file⟩

end Runs

def bundleOptions : StartData := sharedOptions (some "/bundle") none none

theorem proper_c1 : Proper (some "/run") "c1" where
  plain := ⟨by decide, by decide, by decide, by decide⟩
  fits := by decide
  inert := Inert.of_ordinary (by decide)

theorem proper_c2 : Proper (some "/run") "c2" where
  plain := ⟨by decide, by decide, by decide, by decide⟩
  fits := by decide
  inert := Inert.of_ordinary (by decide)

def firstCreated : Sys := act Env.calm (some "/run") bundleSys ("c1", .create bundleOptions [])

def secondStopped : List (String × RuntimeCommand) :=
  [("c2", .create bundleOptions []), ("c2", .given ⟨.start {}, []⟩), ("c2", .stop [])]

theorem second_leaves_first :
    let after := secondStopped.foldl (act Env.calm (some "/run")) firstCreated
    statusAt firstCreated.files "/run/c1/state.json" = some .created ∧
      statusAt after.files "/run/c2/state.json" = none ∧
      after.files "/run/c1/state.json" = firstCreated.files "/run/c1/state.json" := by
  have path : statePathOf (some "/run") "c1" = "/run/c1/state.json" := by decide
  have clean : statePathOf (some "/run") "c1" ∉
      (RuntimeCommand.create bundleOptions []).strays Env.calm (some "/run") "c2" firstCreated := by
    decide +kernel
  have others : Along (act Env.calm (some "/run")) (ForOther Env.calm (some "/run") "c1") firstCreated
      secondStopped :=
    ⟨⟨proper_c2, by decide, clean⟩, ⟨proper_c2, by decide, List.not_mem_nil⟩,
      ⟨proper_c2, by decide, List.not_mem_nil⟩, trivial⟩
  obtain ⟨kept, _⟩ := others_leave_container Env.calm_sequential proper_c1 secondStopped others
  rw [path] at kept
  exact ⟨by decide +kernel, by decide +kernel, kept⟩

end ClrOci
