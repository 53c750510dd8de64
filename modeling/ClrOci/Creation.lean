import ClrOci.Growth
import ClrOci.StateRoundTrip

/-! What a creation leaves behind when a step of it fails. -/

set_option autoImplicit false

namespace ClrOci

open Foundation

section Runs
variable (env : Env)

theorem claimContainer_grows : (claimContainer env).Moves (World.Grows []) := by
  refine Action.Moves.sequence World.Grows.refl (fun _ _ _ => World.Grows.trans) fun step member => ?_
  simp only [List.mem_cons, List.not_mem_nil, or_false] at member
  rcases member with rfl | rfl | rfl
  · exact configFileParse_grows env
  · intro world
    rw [checkConfig_state]
    exact World.Grows.refl world
  · exact runtimeDirSetup_grows env

theorem prepareContainer_grows : (prepareContainer env).Moves (World.Grows [.mount, .wrote]) := by
  refine World.Grows.andThen ?_ ?_
  · exact World.Grows.weaken (handleMounts_grows env) (by decide)
  · exact World.Grows.weaken (createContainerWorkload_grows env) (by decide)

theorem launchContainer_grows : (launchContainer env).Moves (World.Grows [.spawn, .wrote]) := by
  intro world
  have stamped : world.Grows [.spawn, .wrote] ((world.withStatus .created).withSys world.sys.tick) :=
    ⟨Sys.Grows.tick world.sys, fun _ => rfl, rfl⟩
  unfold launchContainer
  dsimp only
  split
  · exact stamped
  · next created _ =>
    have launched : ((vmLaunch env).andThen (stateFileCreate env (some created))).Moves
        (World.Grows [.spawn, .wrote]) := by
      refine World.Grows.andThen (vmLaunch_grows env) ?_
      exact World.Grows.weaken (stateFileCreate_grows env (some created)) (by decide)
    exact stamped.trans (launched _)

theorem buildContainer_grows :
    (buildContainer env).Moves (World.Grows [.mount, .wrote, .spawn, .hook]) := by
  refine World.Grows.andThen ?_ ?_
  · exact World.Grows.weaken (prepareContainer_grows env) (by decide)
  · intro world
    dsimp only
    split
    · exact World.Grows.refl world
    · refine World.Grows.andThen ?_ ?_ world
      · exact World.Grows.weaken (launchContainer_grows env) (by decide)
      · exact World.Grows.weaken (prestartHooks_grows env) (by decide)

def buildSteps (dryRun : Bool) : List (Action World) :=
  [handleMounts env, createContainerWorkload env] ++
    if dryRun then [] else [launchContainer env, prestartHooks env]

theorem buildContainer_eq_sequence (world : World) :
    buildContainer env world = Action.sequence (buildSteps env world.config.dryRunMode) world := by
  rw [buildSteps, Action.sequence_append, buildContainer]
  have prepare : Action.sequence [handleMounts env, createContainerWorkload env] =
      prepareContainer env := by
    rw [Action.sequence_cons, Action.sequence_singleton, prepareContainer]
  rw [prepare]
  by_cases ok : (prepareContainer env).Succeeds world
  · rw [Action.andThen_of_succeeds ok, Action.andThen_of_succeeds ok,
      (prepareContainer_grows env world).dryRun]
    cases world.config.dryRunMode with
    | true => rfl
    | false =>
      simp only [Bool.false_eq_true, ↓reduceIte]
      rw [Action.sequence_cons, Action.sequence_singleton]
  · rw [Action.andThen_of_stops ok, Action.andThen_of_stops ok]

end Runs

theorem runtimePaths_isSet {config filled : Config} (found : runtimePaths config = some filled) :
    filled.state.runtimePath.isSet = true := by
  unfold runtimePaths at found
  split at found
  · next set =>
    cases found
    exact set
  · rw [Option.bind_eq_bind, Option.bind_eq_some_iff] at found
    obtain ⟨placed, got, same⟩ := found
    obtain ⟨id, _, rfl⟩ := Option.map_eq_some_iff.mp got
    cases same
    exact runtimePath_isSet config.rootDir id

theorem runtimeDirSetup_made {env : Env} {world : World} (ok : (runtimeDirSetup env).Succeeds world) :
    let after := (runtimeDirSetup env world).state
    after.config.state.runtimePath.isSet = true ∧
      after.sys.dirs after.config.state.runtimePath.text = true := by
  unfold Action.Succeeds runtimeDirSetup at ok
  unfold runtimeDirSetup
  split at ok
  · cases ok
  · next filled found =>
    refine ⟨runtimePaths_isSet found, ?_⟩
    simp only [Exit.returned.injEq] at ok
    unfold mkdir at ok ⊢
    split at ok
    · next allowed => simp [allowed]
    · cases ok

theorem claimContainer_made {env : Env} {world : World} (ok : (claimContainer env).Succeeds world) :
    let after := (claimContainer env world).state
    after.config.state.runtimePath.isSet = true ∧
      after.sys.dirs after.config.state.runtimePath.text = true := by
  have split : claimContainer env =
      (Action.sequence [configFileParse env, checkConfig]).andThen (runtimeDirSetup env) := by
    have appended := Action.sequence_append [configFileParse env, checkConfig] [runtimeDirSetup env]
    rwa [Action.sequence_singleton] at appended
  rw [split] at ok ⊢
  obtain ⟨checked, setup⟩ := Action.andThen_succeeds_iff.mp ok
  rw [Action.andThen_of_succeeds checked]
  exact runtimeDirSetup_made setup

theorem claimContainer_of_checked {env : Env} {world : World}
    (parsed : (configFileParse env).Succeeds world)
    (checked : checkConfig.Succeeds (configFileParse env world).state) :
    claimContainer env world = runtimeDirSetup env (configFileParse env world).state := by
  rw [claimContainer, Action.sequence_cons, Action.andThen_of_succeeds parsed,
    Action.sequence_cons, Action.andThen_of_succeeds checked, checkConfig_state,
    Action.sequence_singleton]

theorem claimContainer_frame (env : Env) (world : World) :
    (claimContainer env world).state.sys.files = world.sys.files ∧
      (claimContainer env world).state.sys.trace = world.sys.trace := by
  have moves : (claimContainer env).Moves fun before after : World =>
      after.sys.files = before.sys.files ∧ after.sys.trace = before.sys.trace := by
    refine Action.Moves.sequence (fun _ => ⟨rfl, rfl⟩)
      (fun _ _ _ early late => ⟨late.1.trans early.1, late.2.trans early.2⟩) ?_
    intro step member world
    simp only [List.mem_cons, List.not_mem_nil, or_false] at member
    rcases member with rfl | rfl | rfl
    · rw [(configFileParse_frame env world).1]
      exact ⟨rfl, rfl⟩
    · rw [checkConfig_state]
      exact ⟨rfl, rfl⟩
    · unfold runtimeDirSetup mkdir mkdirWithParents
      split
      · exact ⟨rfl, rfl⟩
      · dsimp only
        split <;> split <;> exact ⟨rfl, rfl⟩
  exact moves world

theorem runtimeDirSetup_unmade {env : Env} {world : World}
    (ok : (runtimeDirSetup env).Succeeds world) :
    world.sys.dirs (runtimeDirSetup env world).state.config.state.runtimePath.text = false := by
  unfold Action.Succeeds runtimeDirSetup at ok
  unfold runtimeDirSetup
  split at ok
  · cases ok
  · next filled found =>
    rw [Exit.returned.injEq] at ok
    have parents : world.sys.Grows [] (mkdirWithParents env
        (dirname filled.state.runtimePath.text) world.sys).2 :=
      mkdirWithParents_grows env world.sys _
    by_contra present
    have there := parents.dirs _ (Bool.not_eq_false _ ▸ present)
    unfold mkdir at ok
    simp only [there, Bool.not_true, Bool.and_false, Bool.false_eq_true, ↓reduceIte] at ok

theorem claimContainer_unmade {env : Env} {world : World} (ok : (claimContainer env).Succeeds world) :
    world.sys.dirs (claimContainer env world).state.config.state.runtimePath.text = false := by
  obtain ⟨parsed, rest⟩ := Action.andThen_succeeds_iff.mp ok
  obtain ⟨checked, made⟩ := Action.andThen_succeeds_iff.mp rest
  rw [checkConfig_state, Action.sequence_singleton] at made
  rw [claimContainer_of_checked parsed checked, ← (configFileParse_frame env world).1]
  exact runtimeDirSetup_unmade made

/-- Nothing of a container is left: no mount it made, no runtime directory, no process. -/
structure NothingLeft (before after : World) : Prop where
  mounts : ∀ dest ∈ before.sys.mountedSince after.sys, dest ∉ after.sys.mounts
  runtimeDir : after.sys.dirs after.config.state.runtimePath.text = false
  processes : ∀ pid ∈ before.sys.spawnedSince after.sys, pid ∉ after.sys.procs

theorem clrOciCreate_keeps_runtimeDir {env : Env} {world : World}
    (claimed : (claimContainer env).Succeeds world) :
    let after := (clrOciCreate env world).state
    after.sys.dirs after.config.state.runtimePath.text = true := by
  obtain ⟨set, made⟩ := claimContainer_made claimed
  have grown := buildContainer_grows env (claimContainer env world).state
  rw [clrOciCreate, Action.andThen_of_succeeds claimed]
  dsimp only
  rw [grown.runtimePath set]
  exact grown.sys.dirs _ made

/-- A creation that has made the runtime directory leaves nothing behind when it fails if and
only if none of the later steps fails: there is no way back from any of them. -/
theorem create_leaves_nothing_iff (env : Env) (world : World)
    (claimed : (claimContainer env).Succeeds world) :
    ((clrOciCreate env world).exit = .returned false →
        NothingLeft world (clrOciCreate env world).state) ↔
      ¬ Action.FailsIn (buildSteps env (claimContainer env world).state.config.dryRunMode)
        (claimContainer env world).state := by
  have failing : (clrOciCreate env world).exit = .returned false ↔
      Action.FailsIn (buildSteps env (claimContainer env world).state.config.dryRunMode)
        (claimContainer env world).state := by
    rw [← Action.sequence_returns_false_iff, ← buildContainer_eq_sequence, clrOciCreate,
      Action.andThen_of_succeeds claimed]
  rw [← failing]
  constructor
  · intro clean failed
    have gone := (clean failed).runtimeDir
    rw [clrOciCreate_keeps_runtimeDir claimed] at gone
    cases gone
  · exact fun fine failed => absurd failed fine

def bundleMembers : List (String × Json) :=
  [("ociVersion", .string "1.0.0-rc1"),
    ("process", .object [("cwd", .string "/"), ("args", .array [.string "sh"])]),
    ("root", .object [("path", .string "/rootfs")]),
    ("vm", .object [("path", .string "/qemu"), ("image", .string "/image"),
      ("kernel", .object [("path", .string "/kernel"), ("parameters", .string "quiet")])])]

def platformSection (os : String) : String × Json :=
  ("platform", .object [("os", .string os), ("arch", .string "amd64")])

def bundleFiles (sections : List (String × Json)) : Files := fun path =>
  if path = "/bundle/config.json" then some (.json (.object (bundleMembers ++ sections))) else none

def bundleConfig : Config := { bundlePath := some "/bundle", optargContainerId := some "c1" }

def bundleWorld (sections : List (String × Json)) : World :=
  ⟨bundleConfig, Sys.idle (bundleFiles sections)⟩

def mountJson (source dest : String) : Json :=
  .object [("destination", .string dest), ("type", .string "bind"), ("source", .string source)]

def twoMounts : List (String × Json) :=
  [platformSection "linux", ("mounts", .array [mountJson "/a" "/a", mountJson "/b" "/b"])]

theorem create_leaves_nothing_calm :
    let created := clrOciCreate Env.calm (bundleWorld twoMounts)
    created.exit = .returned true ∧
      (created.exit = .returned false → NothingLeft (bundleWorld twoMounts) created.state) := by
  refine ⟨by decide, ?_⟩
  refine (create_leaves_nothing_iff Env.calm (bundleWorld twoMounts) (by decide)).mpr ?_
  rw [← Action.sequence_returns_false_iff]
  decide

def Env.refusing : Env :=
  { Env.calm with host := fun _ =>
    { Host.calm with mount := fun mount => mount.dest.text == "/rootfs/a" } }

/-- The first mount and the runtime directory stay, and the id is taken from then on. -/
theorem create_leaves_mount_behind :
    let failed := clrOciCreate Env.refusing (bundleWorld twoMounts)
    let again := clrOciCreate Env.calm { bundleWorld twoMounts with sys := failed.state.sys }
    (claimContainer Env.refusing).Succeeds (bundleWorld twoMounts) ∧
      failed.exit = .returned false ∧
      (bundleWorld twoMounts).sys.mountedSince failed.state.sys = ["/rootfs/a"] ∧
      "/rootfs/a" ∈ failed.state.sys.mounts ∧
      failed.state.sys.dirs failed.state.config.state.runtimePath.text = true ∧
      again.exit = .returned false := by
  decide

end ClrOci
