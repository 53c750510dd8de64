import ClrOci.Command
import ClrOci.Foundation.Drain
import ClrOci.Foundation.Redirection
import ClrOci.Hooks

/-! Removing a container: what a successful cleanup has done, and what stop makes of it. -/

set_option autoImplicit false

namespace ClrOci

open Foundation

section Cleanup
variable {env : Env} {world : World} {mounts : List Mount} {sys : Sys}

theorem handleUnmount_frame (env : Env) (mount : Mount) (sys : Sys) :
    (handleUnmount env mount sys).state.files = sys.files ∧
      (handleUnmount env mount sys).state.dirs = sys.dirs := by
  unfold handleUnmount performUnmount
  split
  · exact ⟨rfl, rfl⟩
  · dsimp only
    split <;> exact ⟨rfl, rfl⟩

theorem handleUnmounts_frame (env : Env) (mounts : List Mount) (sys : Sys) :
    (handleUnmounts env mounts sys).state.files = sys.files ∧
      (handleUnmounts env mounts sys).state.dirs = sys.dirs := by
  refine sweep_moves (fun before after : Sys =>
    after.files = before.files ∧ after.dirs = before.dirs) ?_ ?_ ?_ mounts sys
  · exact fun _ => ⟨rfl, rfl⟩
  · exact fun _ _ _ early late => ⟨late.1.trans early.1, late.2.trans early.2⟩
  · exact fun mount sys => handleUnmount_frame env mount sys

theorem handleUnmounts_drain {allowed : List String → String → Bool}
    (uniform : ∀ clock, (env.host clock).umount = allowed) (mounts : List Mount) (sys : Sys) :
    (handleUnmounts env mounts sys).exit =
        .returned (drain allowed (recordedDests mounts) sys.mounts).1 ∧
      (handleUnmounts env mounts sys).state.mounts =
        (drain allowed (recordedDests mounts) sys.mounts).2 := by
  change (sweep (handleUnmount env) mounts sys).exit = _ ∧
    (sweep (handleUnmount env) mounts sys).state.mounts = _
  induction mounts generalizing sys with
  | nil => exact ⟨rfl, rfl⟩
  | cons mount rest ih =>
    cases ignored : mount.ignoreMount with
    | true =>
      have skipped : handleUnmount env mount sys = ⟨.returned true, mount, sys⟩ := by
        rw [handleUnmount, if_pos ignored]
      rw [sweep_cons_of_success (by rw [skipped]), skipped, recordedDests_cons_of_ignored ignored]
      exact ih sys
    | false =>
      rw [recordedDests_cons_of_made ignored, drain]
      cases permitted : allowed sys.mounts mount.dest.text with
      | true =>
        have unmade : handleUnmount env mount sys = ⟨.returned true, mount,
            { sys.tick.log (.umount mount.dest.text true) with
              mounts := sys.mounts.erase mount.dest.text }⟩ := by
          simp [handleUnmount, performUnmount, ignored, uniform, permitted]
        rw [sweep_cons_of_success (by rw [unmade]), unmade]
        exact ih _
      | false =>
        have refused : handleUnmount env mount sys =
            ⟨.returned false, mount, sys.tick.log (.umount mount.dest.text false)⟩ := by
          simp [handleUnmount, performUnmount, ignored, uniform, permitted]
        rw [sweep_cons_of_failure (by simp [refused]), refused]
        exact ⟨rfl, rfl⟩

theorem unlink_gone {path : String} (ok : (unlink env path sys).1 = true) :
    (unlink env path sys).2.files path = none ∧ (unlink env path sys).2.trace = sys.trace ∧
      (unlink env path sys).2.mounts = sys.mounts ∧ (unlink env path sys).2.dirs = sys.dirs := by
  unfold unlink at ok ⊢
  split at ok
  · next allowed => simp [allowed]
  · cases ok

def RemovesAt (env : Env) (path : String) : Prop :=
  ∀ clock, ((env.host clock).system (rmCommand path)).ok = true →
    ((env.host clock).system (rmCommand path)).removed = true

/-- What is known of the shell that deletes: it hands an inert path to `rm` as it is, and refuses
a quotation that is left open. Of any other path it may have read something else. -/
structure SoundShell (env : Env) : Prop where
  removes : ∀ path, Shell.Inert path.toList → RemovesAt env path
  refuses : ∀ path, Shell.Unfinished (rmCommand path).toList →
    ∀ clock, ((env.host clock).system (rmCommand path)).ok = false

structure RuntimeDeleted (env : Env) (path : String) (before after : Sys) : Prop where
  absolute : isAbsolute path = true
  reported : ∃ clock, ((env.host clock).system (rmCommand path)).ok = true
  trace : after.trace = before.trace
  mounts : after.mounts = before.mounts
  files : ∀ other, before.files other = none → after.files other = none
  dirs : ∀ other, before.dirs other = false → after.dirs other = false
  gone : RemovesAt env path → after.dirs path = false
  kept : (∀ clock, ((env.host clock).system (rmCommand path)).removed = false) →
    after.dirs = before.dirs

theorem runtimeDirDelete_gone {config : Config}
    (ok : (runtimeDirDelete env config sys).1 = true) :
    RuntimeDeleted env config.state.runtimePath.text sys (runtimeDirDelete env config sys).2 := by
  unfold runtimeDirDelete rmRf at ok ⊢
  split at ok
  · split at ok
    · cases ok
    · next absolute set =>
      simp only [absolute, set, ↓reduceIte]
      exact {
        absolute := absolute
        reported := ⟨sys.clock, ok⟩
        trace := by split <;> rfl
        mounts := by split <;> rfl
        files := fun path gone => by split <;> simp [Sys.removeTree, gone]
        dirs := fun path gone => by split <;> simp [Sys.removeTree, gone]
        gone := fun removes => by simp [removes _ ok, Sys.removeTree, Sys.below_self]
        kept := fun fails => by simp [fails] }
  · cases ok

structure CleanedUp (env : Env) (before after : World) : Prop where
  config : after.config = before.config
  absolute : isAbsolute before.config.state.runtimePath.text = true
  reported : ∃ clock,
    ((env.host clock).system (rmCommand before.config.state.runtimePath.text)).ok = true
  drained : ∀ allowed, (∀ clock, (env.host clock).umount = allowed) →
    drain allowed (recordedDests before.config.oci.mounts) before.sys.mounts =
      (true, after.sys.mounts)
  trace : after.sys.trace = before.sys.trace ++
    (recordedDests before.config.oci.mounts).map fun dest => .umount dest true
  stateFile : after.sys.files before.config.state.stateFilePath.text = none
  dirs : ∀ path, before.sys.dirs path = false → after.sys.dirs path = false
  runtimeDir : RemovesAt env before.config.state.runtimePath.text →
    after.sys.dirs before.config.state.runtimePath.text = false
  kept : (∀ clock,
      ((env.host clock).system (rmCommand before.config.state.runtimePath.text)).removed = false) →
    after.sys.dirs = before.sys.dirs

theorem cleanup_success (ok : (cleanup env).Succeeds world) :
    CleanedUp env world (cleanup env world).state := by
  obtain ⟨unmounted, rest⟩ := Action.andThen_succeeds_iff.mp ok
  obtain ⟨deleted, removed⟩ := Action.andThen_succeeds_iff.mp rest
  rw [cleanup, Action.andThen_of_succeeds unmounted, Action.andThen_of_succeeds deleted]
  let first := (unmountAll env world).state
  have logged : first.sys.trace = world.sys.trace ++
      (recordedDests world.config.oci.mounts).map fun dest => .umount dest true :=
    handleUnmounts_trace env unmounted
  obtain ⟨state, allowed⟩ : (deleteStateFile env first).state =
      first.withSys (stateFileDelete env first.config first.sys).2 ∧
      (stateFileDelete env first.config first.sys).1 = true := by
    have same : (deleteStateFile env first).exit = .returned true := deleted
    unfold deleteStateFile at same ⊢
    split at same
    · cases same
    · next set => exact ⟨by simp [set], by simpa using same⟩
  obtain ⟨gone, traced, table, untouched⟩ := unlink_gone allowed
  rw [show (unmountAll env world).state = first from rfl, state] at removed ⊢
  have cleared : (runtimeDirDelete env first.config
      (stateFileDelete env first.config first.sys).2).1 = true := by
    have same : (deleteRuntimeDir env
      (first.withSys (stateFileDelete env first.config first.sys).2)).exit = .returned true := removed
    simpa [deleteRuntimeDir, World.withSys] using same
  have deletion := runtimeDirDelete_gone cleared
  have dirs : (stateFileDelete env first.config first.sys).2.dirs = world.sys.dirs :=
    untouched.trans (handleUnmounts_frame env world.config.oci.mounts world.sys).2
  exact {
    config := rfl
    absolute := deletion.absolute
    reported := deletion.reported
    drained := fun allowed uniform => by
      obtain ⟨exit, mounts⟩ := handleUnmounts_drain uniform world.config.oci.mounts world.sys
      have drained := exit.symm.trans unmounted
      rw [Exit.returned.injEq] at drained
      exact Prod.ext drained (mounts.symm.trans (deletion.mounts.trans table).symm)
    trace := deletion.trace.trans (traced.trans logged)
    stateFile := deletion.files _ gone
    dirs := fun path absent => deletion.dirs path ((congrFun dirs path).trans absent)
    runtimeDir := deletion.gone
    kept := fun fails => (deletion.kept fails).trans dirs }

end Cleanup

section Stop
variable {env : Env} {state : OciState} {world : World}

theorem vmDown_state (env : Env) (state : OciState) (world : World) :
    ∃ clock, (vmDown env state world).state = world.withSys { world.sys with clock := clock } := by
  unfold vmDown vmRunning
  split
  · exact ⟨world.sys.clock, rfl⟩
  · dsimp only
    split
    · exact ⟨world.sys.clock + 1, rfl⟩
    · exact ⟨world.sys.clock + 2, rfl⟩

theorem cleanupThenHooks_exit (env : Env) (world : World) :
    (cleanupThenHooks env world).exit = (cleanup env world).exit := by
  unfold cleanupThenHooks
  dsimp only
  split
  · next done => exact done.symm
  · rfl

/-- After a successful cleanup the state file is gone, and no hook can be given the state. -/
theorem cleanupThenHooks_state (ok : (cleanup env).Succeeds world) :
    (cleanupThenHooks env world).state = (cleanup env world).state := by
  have result := cleanup_success ok
  have missing : (cleanup env world).state.sys.files
      (cleanup env world).state.config.state.stateFilePath.text = none := by
    rw [result.config]
    exact result.stateFile
  unfold cleanupThenHooks
  simp only [show (cleanup env world).exit = .returned true from ok,
    runHooks_of_missing env false missing]
  rfl

theorem clrOciStop_cleaned (ok : (clrOciStop env state).Succeeds world) :
    CleanedUp env world (clrOciStop env state world).state := by
  obtain ⟨down, finished⟩ := Action.andThen_succeeds_iff.mp ok
  rw [clrOciStop, Action.andThen_of_succeeds down]
  obtain ⟨clock, same⟩ := vmDown_state env state world
  rw [same] at finished ⊢
  rw [Action.Succeeds, cleanupThenHooks_exit] at finished
  rw [cleanupThenHooks_state finished]
  have result := cleanup_success finished
  exact ⟨result.config, result.absolute, result.reported, result.drained, result.trace,
    result.stateFile, result.dirs, result.runtimeDir, result.kept⟩

structure Working (env : Env) : Prop where
  shutdown : ∀ clock path pid, (env.host clock).qmp .shutdown path pid = .returned true
  unlink : ∀ clock path, (env.host clock).unlink path = true

section Completion
variable {allowed : List String → String → Bool}

theorem Working.vmDown (working : Working env) (state : OciState) (world : World) :
    (vmDown env state).Succeeds world := by
  unfold Action.Succeeds ClrOci.vmDown
  dsimp only
  split
  · rfl
  · rw [working.shutdown]

theorem Working.deleteStateFile (working : Working env) {content : Content}
    (set : world.config.state.stateFilePath.isSet = true)
    (present : world.sys.files world.config.state.stateFilePath.text = some content) :
    (deleteStateFile env).Succeeds world := by
  simp [Action.Succeeds, ClrOci.deleteStateFile, set, stateFileDelete, ClrOci.unlink,
    working.unlink, present]

theorem deleteRuntimeDir_succeeds
    (reported : ∀ clock,
      ((env.host clock).system (rmCommand world.config.state.runtimePath.text)).ok = true)
    (set : world.config.state.runtimePath.isSet = true)
    (absolute : isAbsolute world.config.state.runtimePath.text = true) :
    (deleteRuntimeDir env).Succeeds world := by
  have nonempty : world.config.state.runtimePath.text ≠ "" := by
    simpa [Buffer.isSet] using set
  simp [Action.Succeeds, ClrOci.deleteRuntimeDir, runtimeDirDelete, absolute,
    rmRf_of_set env nonempty, reported]

theorem cleanup_completes (working : Working env)
    (reported : ∀ clock,
      ((env.host clock).system (rmCommand world.config.state.runtimePath.text)).ok = true)
    (uniform : ∀ clock, (env.host clock).umount = allowed) {content : Content}
    (granted : (drain allowed (recordedDests world.config.oci.mounts) world.sys.mounts).1 = true)
    (set : world.config.state.stateFilePath.isSet = true)
    (present : world.sys.files world.config.state.stateFilePath.text = some content)
    (placed : world.config.state.runtimePath.isSet = true)
    (absolute : isAbsolute world.config.state.runtimePath.text = true) :
    (cleanup env).Succeeds world := by
  have frame := handleUnmounts_frame env world.config.oci.mounts world.sys
  have unmounted : (unmountAll env).Succeeds world :=
    (handleUnmounts_drain uniform world.config.oci.mounts world.sys).1.trans
      (congrArg Exit.returned granted)
  have deleted : (ClrOci.deleteStateFile env).Succeeds (unmountAll env world).state :=
    working.deleteStateFile set ((congrFun frame.1 _).trans present)
  have config : (ClrOci.deleteStateFile env (unmountAll env world).state).state.config =
      world.config := by
    unfold ClrOci.deleteStateFile
    split <;> rfl
  have removed : (ClrOci.deleteRuntimeDir env).Succeeds
      (ClrOci.deleteStateFile env (unmountAll env world).state).state := by
    apply deleteRuntimeDir_succeeds
    · rw [config]
      exact reported
    · rw [config]
      exact placed
    · rw [config]
      exact absolute
  exact Action.andThen_succeeds_iff.mpr
    ⟨unmounted, Action.andThen_succeeds_iff.mpr ⟨deleted, removed⟩⟩

theorem clrOciStop_completes (working : Working env)
    (reported : ∀ clock,
      ((env.host clock).system (rmCommand world.config.state.runtimePath.text)).ok = true)
    (uniform : ∀ clock, (env.host clock).umount = allowed) {content : Content}
    (granted : (drain allowed (recordedDests world.config.oci.mounts) world.sys.mounts).1 = true)
    (set : world.config.state.stateFilePath.isSet = true)
    (present : world.sys.files world.config.state.stateFilePath.text = some content)
    (placed : world.config.state.runtimePath.isSet = true)
    (absolute : isAbsolute world.config.state.runtimePath.text = true) :
    (clrOciStop env state).Succeeds world := by
  apply Action.andThen_succeeds_iff.mpr
  refine ⟨working.vmDown state world, ?_⟩
  obtain ⟨clock, same⟩ := vmDown_state env state world
  rw [Action.Succeeds, cleanupThenHooks_exit, same]
  exact cleanup_completes working reported uniform granted set present placed absolute

end Completion

/-- The poststop hooks are executed in order, each with the state of the container. -/
structure PoststopRan (before after : World) : Prop where
  executed : (before.sys.hooksSince after.sys).map Prod.fst = before.config.oci.hooks.poststop
  informed : ∀ hook stdin outcome, .hook hook stdin outcome ∈ before.sys.eventsSince after.sys →
    before.sys.files before.config.state.stateFilePath.text = some stdin

/-- A stop that cleans up runs the poststop hooks exactly if there are none. -/
theorem stop_runs_poststop_iff (env : Env) (state : OciState) (world : World)
    (ok : (clrOciStop env state).Succeeds world) :
    PoststopRan world (clrOciStop env state world).state ↔ world.config.oci.hooks.poststop = [] := by
  have cleaned := clrOciStop_cleaned ok
  have events := Sys.eventsSince_of_append cleaned.trace
  have none : world.sys.hooksSince (clrOciStop env state world).state.sys = [] := by
    rw [Sys.hooksSince, events, List.filterMap_map]
    exact List.filterMap_eq_nil_iff.mpr fun _ _ => rfl
  constructor
  · intro ran
    rw [← ran.executed, none]
    rfl
  · intro empty
    refine ⟨by rw [none, empty]; rfl, fun hook stdin outcome member => ?_⟩
    rw [events] at member
    obtain ⟨dest, _, same⟩ := List.mem_map.mp member
    cases same

end Stop

def stoppingWorld (poststop : List Hook) : World where
  config := { (createdConfig []).withStateFilePath with oci := { hooks := { poststop := poststop } } }
  sys := Sys.idle fun path => if path = "/run/c1/state.json" then some (.text "state") else none

theorem stop_runs_no_poststop :
    PoststopRan (stoppingWorld []) (clrOciStop Env.calm {} (stoppingWorld [])).state :=
  (stop_runs_poststop_iff Env.calm {} (stoppingWorld []) (by decide)).mpr rfl

/-- The stop succeeds, and its one poststop hook is not run. -/
theorem stop_skips_poststop :
    (clrOciStop Env.calm {}).Succeeds (stoppingWorld [{ path := Buffer.copy _ "/hook" }]) ∧
      ¬ PoststopRan (stoppingWorld [{ path := Buffer.copy _ "/hook" }])
        (clrOciStop Env.calm {} (stoppingWorld [{ path := Buffer.copy _ "/hook" }])).state := by
  refine ⟨by decide, fun ran => ?_⟩
  have executed := ran.executed
  revert executed
  decide

section StopCommand
variable {env : Env} {world : World} {fetched : Fetched}

theorem getConfigAndState_spec {files : Files} {config : Config} {id : String}
    (named : config.optargContainerId = some id)
    (got : getConfigAndState files config = some fetched) :
    stateFileRead files (stateFilePath (runtimePath config.rootDir id)).text = some fetched.state ∧
      configFilePath fetched.state.bundlePath = some fetched.configFile ∧
      fetched.config = (config.placed id).fill fetched.state := by
  simp only [getConfigAndState_eq named, Option.bind_eq_bind, Option.bind_eq_some_iff,
    Option.pure_def, Option.some.injEq] at got
  obtain ⟨state, read, configFile, path, rfl⟩ := got
  exact ⟨read, path, rfl⟩

theorem processConfigStop_total (host : Host) (parse : Parse) (node : GNode) :
    ∃ after, processConfigStop host parse node = some after := by
  unfold processConfigStop dispatch
  split
  · exact ⟨parse, rfl⟩
  · next handler found =>
    have listed := List.mem_of_find?_eq_some found
    rw [stopSpecHandlers, List.mem_singleton] at listed
    subst listed
    exact ⟨_, rfl⟩

theorem stopSections_total (host : Host) (nodes : List GNode) (parse : Parse) :
    ∃ after, nodes.foldlM (processConfigStop host) parse = some after ∧
      after.config.frame = parse.config.frame := by
  induction nodes generalizing parse with
  | nil => exact ⟨parse, rfl, rfl⟩
  | cons node rest ih =>
    obtain ⟨middle, first⟩ := processConfigStop_total host parse node
    obtain ⟨after, others, same⟩ := ih middle
    refine ⟨after, ?_, same.trans (dispatch_frame first)⟩
    rw [List.foldlM_cons, first]
    exact others

theorem stopFetched_eq (env : Env) (fetched : Fetched) (root : GNode) (world : World) :
    ∃ config : Config, config.oci.mounts = fetched.state.mounts ∧
      config.state = fetched.config.state ∧
      stopFetched env fetched root world = clrOciStop env fetched.state ⟨config, world.sys⟩ := by
  obtain ⟨parse, parsed, same⟩ := stopSections_total (env.host world.sys.clock) root.children
    { config := fetched.config }
  have state := congrArg (fun frame : Config => frame.state) same
  let config : Config := { parse.config with
    oci := { parse.config.oci with mounts := fetched.state.mounts } }
  refine ⟨config, rfl, state, ?_⟩
  rw [stopFetched]
  simp only [parsed]
  rfl

theorem getConfigAndState_placed {files : Files} {config : Config} {id : String}
    (named : config.optargContainerId = some id) :
    getConfigAndState files (config.placed id) = getConfigAndState files config := by
  have again := (config.placed_optargContainerId id).trans named
  rw [getConfigAndState_eq named, getConfigAndState_eq again, Config.placed_placed,
    Config.placed_rootDir]

def World.statePath (world : World) (id : String) : String :=
  (stateFilePath (runtimePath world.config.rootDir id)).text

def World.fetch (world : World) (id : String) : Option Fetched :=
  getConfigAndState world.sys.files (world.config.setContainerId (some id))

theorem stateFileRead_of_missing {files : Files} {path : String} (missing : files path = none) :
    stateFileRead files path = none := by
  simp only [stateFileRead, jsonParseFile, missing]

theorem World.fetch_spec {id : String} (got : world.fetch id = some fetched) :
    stateFileRead world.sys.files (world.statePath id) = some fetched.state ∧
      configFilePath fetched.state.bundlePath = some fetched.configFile ∧
      fetched.config =
        ((world.config.setContainerId (some id)).placed id).fill fetched.state :=
  getConfigAndState_spec rfl got

theorem World.fetch_paths {id : String} (got : world.fetch id = some fetched) :
    fetched.config.state.runtimePath = runtimePath world.config.rootDir id ∧
      fetched.config.state.stateFilePath = stateFilePath (runtimePath world.config.rootDir id) := by
  have paths := Config.fill_placed_paths (world.config.setContainerId (some id)) id fetched.state
  rwa [← (World.fetch_spec got).2.2, Config.setContainerId_rootDir] at paths

theorem World.fetch_present {id : String} (got : world.fetch id = some fetched) :
    ∃ content, world.sys.files (world.statePath id) = some content := by
  apply Option.ne_none_iff_exists'.mp
  intro missing
  have read := (World.fetch_spec got).1
  rw [stateFileRead_of_missing missing] at read
  cases read

section Cases
variable {id : String} {rest : List String} (asked : handleDefaultUsage (id :: rest) = none)
include asked

theorem handleCommandStop_of_present {content : Content}
    (present : world.sys.files (world.statePath id) = some content) :
    handleCommandStop env (id :: rest) world =
      let found : World := ⟨(world.config.setContainerId (some id)).placed id, world.sys⟩
      match world.fetch id with
      | none => ⟨.returned false, found⟩
      | some fetched =>
        match jsonParseFile world.sys.files fetched.configFile with
        | none => ⟨.returned true, { found with config := fetched.config }⟩
        | some root => stopFetched env fetched root found := by
  have named : (world.config.setContainerId (some id)).optargContainerId = some id := rfl
  simp only [handleCommandStop, asked, List.head?_cons, stateFileExists_eq named,
    getConfigAndState_placed named, Config.setContainerId_rootDir]
  rw [World.statePath] at present
  simp only [present, Option.isSome_some, Bool.not_true, Bool.false_eq_true, ↓reduceIte]
  rfl

end Cases

def recordedInState (files : Files) (path : String) : List String :=
  (stateFileRead files path).elim [] fun state => recordedDests state.mounts

structure Released (id : String) (before after : World) : Prop where
  mounts : ∀ dest ∈ recordedInState before.sys.files (before.statePath id),
    .umount dest true ∈ before.sys.eventsSince after.sys
  stateFile : after.sys.files (before.statePath id) = none
  runtimeDir : after.sys.dirs (runtimePath before.config.rootDir id).text = false

section Fetched
variable {id : String} {rest : List String} {root : GNode}
  (asked : handleDefaultUsage (id :: rest) = none) (got : world.fetch id = some fetched)
  (parsed : jsonParseFile world.sys.files fetched.configFile = some root)
include asked got parsed

/-- A stop is the operation on the mounts and the paths of the state file. -/
theorem handleCommandStop_eq (env : Env) :
    ∃ config : Config, config.oci.mounts = fetched.state.mounts ∧
      config.state = fetched.config.state ∧
      handleCommandStop env (id :: rest) world = clrOciStop env fetched.state ⟨config, world.sys⟩ := by
  obtain ⟨content, present⟩ := World.fetch_present got
  obtain ⟨config, mounts, state, run⟩ := stopFetched_eq env fetched root
    ⟨(world.config.setContainerId (some id)).placed id, world.sys⟩
  refine ⟨config, mounts, state, ?_⟩
  rw [handleCommandStop_of_present asked present, got]
  simp only [parsed]
  exact run

theorem handleCommandStop_completes {allowed : List String → String → Bool} (working : Working env)
    (reported : ∀ clock, ((env.host clock).system
      (rmCommand (runtimePath world.config.rootDir id).text)).ok = true)
    (uniform : ∀ clock, (env.host clock).umount = allowed)
    (granted : (drain allowed (recordedDests fetched.state.mounts) world.sys.mounts).1 = true)
    (absolute : isAbsolute (runtimePath world.config.rootDir id).text = true) :
    (handleCommandStop env (id :: rest) world).exit = .returned true := by
  obtain ⟨config, mounts, state, run⟩ := handleCommandStop_eq asked got parsed env
  obtain ⟨runtime, file⟩ := World.fetch_paths got
  obtain ⟨content, present⟩ := World.fetch_present got
  have named : (stateFilePath (runtimePath world.config.rootDir id)).isSet = true :=
    bne_iff_ne.mpr (stateFilePath_ne_empty (runtimePath_isSet _ _))
  rw [run]
  apply clrOciStop_completes working _ uniform
  · rw [mounts]
    exact granted
  · rw [state, file]
    exact named
  · rw [state, file]
    exact present
  · rw [state, runtime]
    exact runtimePath_isSet _ _
  · rw [state, runtime]
    exact absolute
  · rw [state, runtime]
    exact reported

theorem handleCommandStop_released
    (gone : RemovesAt env (runtimePath world.config.rootDir id).text ∨
      world.sys.dirs (runtimePath world.config.rootDir id).text = false)
    (ok : (handleCommandStop env (id :: rest) world).exit = .returned true) :
    Released id world (handleCommandStop env (id :: rest) world).state := by
  have read := (World.fetch_spec got).1
  obtain ⟨runtime, file⟩ := World.fetch_paths got
  obtain ⟨stopping, mounts, state, run⟩ := handleCommandStop_eq asked got parsed env
  rw [run] at ok ⊢
  have cleaned := clrOciStop_cleaned ok
  refine ⟨fun dest recorded => ?_, ?_, ?_⟩
  · rw [Sys.eventsSince_of_append cleaned.trace, mounts]
    rw [recordedInState, read] at recorded
    exact List.mem_map_of_mem recorded
  · have gone := cleaned.stateFile
    dsimp only at gone
    rwa [state, file, ← World.statePath] at gone
  · rcases gone with removes | absent
    · have gone := cleaned.runtimeDir
      dsimp only at gone
      rw [state, runtime] at gone
      exact gone removes
    · exact cleaned.dirs _ absent

end Fetched

-- A shell that treats the deletion of one path in a way of its own.
def Env.shell (allowed : List String → String → Bool) (path : String)
    (here elsewhere : CommandResult) : Env :=
  { Env.calm with host := fun _ => { Host.calm with
      umount := allowed
      system := fun command => if command = rmCommand path then here else elsewhere } }

theorem Env.shell_working (allowed : List String → String → Bool) (path : String)
    (here elsewhere : CommandResult) : Working (Env.shell allowed path here elsewhere) :=
  ⟨fun _ _ _ => rfl, fun _ _ => rfl⟩

theorem Env.shell_here (allowed : List String → String → Bool) (path : String)
    (here elsewhere : CommandResult) (clock : Nat) :
    ((Env.shell allowed path here elsewhere).host clock).system (rmCommand path) = here := by
  simp [Env.shell]

theorem Env.shell_elsewhere (allowed : List String → String → Bool) {path other : String}
    (here elsewhere : CommandResult) (apart : other ≠ path) (clock : Nat) :
    ((Env.shell allowed path here elsewhere).host clock).system (rmCommand other) = elsewhere := by
  have different : rmCommand other ≠ rmCommand path := fun same => apart (rmCommand_injective same)
  simp [Env.shell, different]

theorem Env.shell_sound {allowed : List String → String → Bool} {path : String} {here : CommandResult}
    (removes : Shell.Inert path.toList → here.ok = true → here.removed = true)
    (refuses : Shell.Unfinished (rmCommand path).toList → here.ok = false) :
    SoundShell (Env.shell allowed path here ⟨false, false⟩) where
  removes other inert clock ok := by
    by_cases same : other = path
    · subst same
      rw [Env.shell_here] at ok ⊢
      exact removes inert ok
    · rw [Env.shell_elsewhere _ _ _ same] at ok
      cases ok
  refuses other unfinished clock := by
    by_cases same : other = path
    · subst same
      rw [Env.shell_here]
      exact refuses unfinished
    · rw [Env.shell_elsewhere _ _ _ same]

theorem drain_granted (items table : List String) : (drain (fun _ _ => true) items table).1 = true := by
  induction items generalizing table with
  | nil => rfl
  | cons item rest ih => exact ih _

/-- Where the directory of the container is still there after a deletion that was reported as a
success, the shell has read another command. -/
theorem stop_keeps_directory {id : String} {rest : List String} {root : GNode}
    (asked : handleDefaultUsage (id :: rest) = none) (got : world.fetch id = some fetched)
    (parsed : jsonParseFile world.sys.files fetched.configFile = some root)
    (absolute : isAbsolute (runtimePath world.config.rootDir id).text = true) :
    let run := handleCommandStop (Env.shell (fun _ _ => true)
      (runtimePath world.config.rootDir id).text ⟨true, false⟩ ⟨false, false⟩) (id :: rest) world
    run.exit = .returned true ∧ run.state.sys.dirs = world.sys.dirs := by
  intro run
  have ok : run.exit = .returned true := handleCommandStop_completes asked got parsed
    (Env.shell_working _ _ _ _) (fun clock => by rw [Env.shell_here]) (fun _ => rfl)
    (drain_granted _ _) absolute
  refine ⟨ok, ?_⟩
  obtain ⟨runtime, _⟩ := World.fetch_paths got
  obtain ⟨stopping, _, state, same⟩ := handleCommandStop_eq asked got parsed
    (Env.shell (fun _ _ => true) (runtimePath world.config.rootDir id).text ⟨true, false⟩
      ⟨false, false⟩)
  change handleCommandStop _ _ _ = _ at same
  rw [show run = _ from same] at ok ⊢
  have kept := (clrOciStop_cleaned ok).kept
  dsimp only at kept
  rw [state, runtime] at kept
  exact kept fun clock => by rw [Env.shell_here]

/-- What a stop needs so that its success means something: the bundle parses, and the shell reads
the deletion as it was meant, or fails, or there is nothing to delete. -/
structure StopSound (world : World) (id : String) (fetched : Fetched) : Prop where
  parses : jsonParseFile world.sys.files fetched.configFile ≠ none
  deletes : isAbsolute (runtimePath world.config.rootDir id).text = true →
    Shell.Inert (runtimePath world.config.rootDir id).text.toList ∨
      Shell.Unfinished (rmCommand (runtimePath world.config.rootDir id).text).toList ∨
      world.sys.dirs (runtimePath world.config.rootDir id).text = false

/-- Whatever fails on the way, and however the shell treats what is not quoted, a stop succeeds
only after releasing everything if and only if the `config.json` of every container whose state
can be read parses, and the deletion of its directory is read as one. -/
theorem stop_success_releases_iff (world : World) (id : String) (rest : List String)
    (asked : handleDefaultUsage (id :: rest) = none) :
    (∀ env, SoundShell env →
        let run := handleCommandStop env (id :: rest) world
        run.exit = .returned true →
          world.sys.files (world.statePath id) = none ∨ Released id world run.state) ↔
      ∀ fetched, world.fetch id = some fetched → StopSound world id fetched := by
  constructor
  · intro promise fetched got
    obtain ⟨content, present⟩ := World.fetch_present got
    have parses : jsonParseFile world.sys.files fetched.configFile ≠ none := by
      intro missing
      -- Without the bundle the stop gets to no call, so any shell will do.
      have done := promise (Env.shell (fun _ _ => true) "" ⟨false, false⟩ ⟨false, false⟩)
        (Env.shell_sound (fun _ ok => ok) fun _ => rfl)
      dsimp only at done
      rw [handleCommandStop_of_present asked present] at done
      simp only [got, missing, present, reduceCtorEq, false_or, forall_const] at done
      have gone := done.stateFile
      dsimp only at gone
      rw [present] at gone
      cases gone
    refine ⟨parses, fun absolute => ?_⟩
    by_contra none
    simp only [not_or] at none
    obtain ⟨active, whole, there⟩ := none
    obtain ⟨root, parsed⟩ := Option.ne_none_iff_exists'.mp parses
    obtain ⟨ok, kept⟩ := stop_keeps_directory asked got parsed absolute
    -- A shell that reports the deletion of just this path, and deletes nothing.
    have shell : SoundShell (Env.shell (fun _ _ => true)
        (runtimePath world.config.rootDir id).text ⟨true, false⟩ ⟨false, false⟩) :=
      Env.shell_sound (fun inert _ => absurd inert active) fun unfinished => absurd unfinished whole
    rcases promise _ shell ok with missing | released
    · rw [present] at missing
      cases missing
    · have gone := released.runtimeDir
      rw [kept] at gone
      exact there gone
  · intro sound env shell run ok
    cases present : world.sys.files (world.statePath id) with
    | none => exact Or.inl rfl
    | some content =>
      cases got : world.fetch id with
      | none =>
        have failed : run.exit = .returned false := by
          simp only [run, handleCommandStop_of_present asked present, got]
        rw [failed] at ok
        cases ok
      | some fetched =>
        obtain ⟨parses, deletes⟩ := sound fetched got
        obtain ⟨root, parsed⟩ := Option.ne_none_iff_exists'.mp parses
        obtain ⟨stopping, _, state, same⟩ := handleCommandStop_eq asked got parsed env
        obtain ⟨runtime, _⟩ := World.fetch_paths got
        have stopped : (clrOciStop env fetched.state).Succeeds ⟨stopping, world.sys⟩ :=
          (congrArg Run.exit same).symm.trans ok
        have cleaned := clrOciStop_cleaned stopped
        have absolute := cleaned.absolute
        obtain ⟨clock, reported⟩ := cleaned.reported
        dsimp only at absolute reported
        rw [state, runtime] at absolute reported
        right
        -- What the deletion of a path of either kind comes to.
        rcases deletes absolute with inert | unfinished | absent
        · exact handleCommandStop_released asked got parsed (Or.inl (shell.removes _ inert)) ok
        · rw [shell.refuses _ unfinished clock] at reported
          cases reported
        · exact handleCommandStop_released asked got parsed (Or.inr absent) ok

end StopCommand

def mountedAt (dest : String) : Mount := { dest := Buffer.copy _ dest }

def runningFiles (mounts : List Mount) (bundle : Files) : Files :=
  Function.update bundle "/run/c1/state.json" (some (.json (stateJson
    { createdConfig [] with oci := { mounts := mounts } } {} "c1" "/bundle" "running" "now")))

def runningWorld (mounts : List Mount) (bundle : Files) : World where
  config := { rootDir := some "/run" }
  sys := { Sys.idle (runningFiles mounts bundle) with
    dirs := fun path => path == "/run/c1"
    mounts := recordedDests mounts
    procs := [4242] }

theorem stop_releases_running :
    let world := runningWorld [mountedAt "/rootfs/a"] (bundleFiles [])
    let env := Env.shell (fun _ _ => true) "/run/c1" ⟨true, true⟩ ⟨false, false⟩
    let run := handleCommandStop env ["c1"] world
    run.exit = .returned true ∧ SoundShell env ∧
      (world.sys.files (world.statePath "c1") = none ∨ Released "c1" world run.state) := by
  intro world env run
  have ok : run.exit = .returned true := by decide
  have inert : Shell.Inert "/run/c1".toList := Shell.Inert.of_ordinary (by decide)
  have sound : SoundShell env := by
    refine Env.shell_sound (fun _ _ => rfl) fun unfinished => ?_
    have read : (Shell.tokens (rmCommand "/run/c1").toList).isSome = true := by decide
    rw [unfinished.tokens_eq] at read
    cases read
  refine ⟨ok, sound, (stop_success_releases_iff world "c1" [] (by decide)).mpr ?_ env sound ok⟩
  intro fetched got
  have parsable : (world.fetch "c1").all
      (fun fetched => (jsonParseFile world.sys.files fetched.configFile).isSome) = true := by
    decide
  rw [got] at parsable
  have placed : (runtimePath world.config.rootDir "c1").text = "/run/c1" := by decide
  refine ⟨Option.isSome_iff_ne_none.mp parsable, fun _ => Or.inl ?_⟩
  rw [placed]
  exact inert

/-- Without its `config.json` a container is reported as stopped, and nothing of it goes away. -/
theorem stop_reports_success_without_bundle :
    let world := runningWorld [mountedAt "/rootfs/a"] fun _ => none
    let run := handleCommandStop Env.calm ["c1"] world
    run.exit = .returned true ∧ run.state.sys.mounts = ["/rootfs/a"] ∧
      (run.state.sys.files "/run/c1/state.json").isSome = true ∧
      run.state.sys.dirs "/run/c1" = true ∧ run.state.sys.procs = [4242] ∧
      ¬ (run.exit = .returned true → world.sys.files (world.statePath "c1") = none ∨
          Released "c1" world run.state) := by
  intro world run
  have present : (run.state.sys.files "/run/c1/state.json").isSome = true := by decide
  have found : (world.sys.files (world.statePath "c1")).isSome = true := by decide
  refine ⟨by decide, by decide, present, by decide, by decide, fun promise => ?_⟩
  rcases promise (by decide) with missing | released
  · rw [missing] at found
    cases found
  · have gone := released.stateFile
    rw [show world.statePath "c1" = "/run/c1/state.json" by decide] at gone
    rw [gone] at present
    cases present

end ClrOci
