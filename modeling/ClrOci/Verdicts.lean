import ClrOci.Hooks

/-! What becomes of the verdict of a section handler.

The dispatcher logs a handler's failure and goes on. A container is then created all
the same, unless one of the later checks happens to stop the creation.
-/

set_option autoImplicit false

namespace ClrOci

open Foundation

def bundleTree (env : Env) (world : World) : Option GNode := do
  let bundle ← world.config.bundlePath
  let file ← configFilePath world.config.bundlePath
  guard ((env.host world.sys.clock).chdir bundle)
  jsonParseFile world.sys.files file

/-- Some handler returns false for its section in the course of the parse. -/
def SectionRejected (env : Env) (world : World) : Prop :=
  ∃ root before node after parse handler handled, bundleTree env world = some root ∧
    root.children = before ++ node :: after ∧
    before.foldlM (processConfigStart (env.host world.sys.clock)) { config := world.config } =
      some parse ∧
    handler ∈ startSpecHandlers ∧ some handler.name = node.data ∧
    handler.handleSection (env.host world.sys.clock) node parse = some (false, handled)

def Unlaunched (env : Env) (world : World) : Prop :=
  (env.host world.sys.clock).timestamp = none ∨
    ((vmArgsGet env (env.host (world.sys.clock + 1)) (world.withStatus .created).config).bind
      fun found => (env.host (world.sys.clock + 1)).spawn found.2) = none

def earlySteps (env : Env) : List (Action World) :=
  [configFileParse env, checkConfig, runtimeDirSetup env, handleMounts env,
    createContainerWorkload env]

def StopsIn (env : Env) (steps : List (Action World)) (world : World) : Prop :=
  Action.FailsIn steps world ∨
    (Action.sequence steps).Succeeds world ∧
      let ready := (Action.sequence steps world).state
      ready.config.dryRunMode = false ∧ Unlaunched env ready

def StoppedBeforeLaunch (env : Env) (world : World) : Prop := StopsIn env (earlySteps env) world

theorem stopsIn_nil {env : Env} {world : World} :
    StopsIn env [] world ↔ world.config.dryRunMode = false ∧ Unlaunched env world := by
  simp [StopsIn, Action.FailsIn, Action.sequence, Action.succeed, Action.Succeeds]

theorem stopsIn_cons {env : Env} {first : Action World} {rest : List (Action World)} {world : World} :
    StopsIn env (first :: rest) world ↔
      (first world).exit = .returned false ∨
        first.Succeeds world ∧ StopsIn env rest (first world).state := by
  unfold StopsIn
  by_cases ok : first.Succeeds world
  · rw [Action.FailsIn, Action.sequence_cons, Action.andThen_succeeds_iff, Action.andThen_of_succeeds ok]
    simp only [ok, true_and, or_assoc]
  · rw [Action.FailsIn, Action.sequence_cons, Action.andThen_succeeds_iff]
    simp only [ok, false_and, or_false]

section Launch
variable {env : Env} {world : World}

theorem spawnedSince_of_grows {kinds : List Event.Kind} {before after : Sys}
    (grows : before.Grows kinds after) (quiet : .spawn ∉ kinds) : before.spawnedSince after = [] := by
  refine grows.adds.filterMap_eventsSince fun event allowed => ?_
  cases event with
  | spawn args pid => exact absurd allowed quiet
  | _ => rfl

theorem spawnedSince_ne_nil {first second third : Sys} (early : first.trace <+: second.trace)
    (late : second.trace <+: third.trace) (spawned : first.spawnedSince second ≠ []) :
    first.spawnedSince third ≠ [] := by
  rw [Sys.spawnedSince, Sys.eventsSince_trans early late, List.filterMap_append]
  exact fun none => spawned (List.append_eq_nil_iff.mp none).1

theorem vmLaunch_cases (env : Env) (world : World) :
    let found := (vmArgsGet env (env.host world.sys.clock) world.config).bind
      fun found => (env.host world.sys.clock).spawn found.2
    found = none ∧ (vmLaunch env world).exit = .returned false ∧
        world.sys.spawnedSince (vmLaunch env world).state.sys = [] ∨
      found ≠ none ∧ world.sys.spawnedSince (vmLaunch env world).state.sys ≠ [] := by
  intro found
  cases got : vmArgsGet env (env.host world.sys.clock) world.config with
  | none =>
    refine Or.inl ⟨by simp [found, got], ?_⟩
    rw [vmLaunch]
    simp only [got]
    exact ⟨trivial, spawnedSince_of_grows (Sys.Grows.refl world.sys) (List.not_mem_nil)⟩
  | some prepared =>
    cases spawned : (env.host world.sys.clock).spawn prepared.2 with
    | none =>
      refine Or.inl ⟨by simp [found, got, spawned], ?_⟩
      rw [vmLaunch]
      simp only [got, spawned]
      exact ⟨trivial, spawnedSince_of_grows (Sys.Grows.tick world.sys) (List.not_mem_nil)⟩
    | some pid =>
      refine Or.inr ⟨by simp [found, got, spawned], ?_⟩
      have launched : world.sys.trace <+: (world.sys.tick.launched prepared.2 pid).trace :=
        ⟨[.spawn prepared.2 pid], rfl⟩
      have waited := (vmWait_grows env (prepared.1.setWorkloadPid pid)
        (world.sys.tick.launched prepared.2 pid)).adds.trace_extends
      have logged : (world.sys.tick.launched prepared.2 pid).trace =
          world.sys.trace ++ [.spawn prepared.2 pid] := rfl
      have first : world.sys.spawnedSince (world.sys.tick.launched prepared.2 pid) = [pid] := by
        rw [Sys.spawnedSince, Sys.eventsSince_of_append logged]
        rfl
      rw [vmLaunch]
      simp only [got, spawned]
      refine spawnedSince_ne_nil launched waited ?_
      rw [first]
      exact List.cons_ne_nil pid []

theorem launch_fails_early_iff (env : Env) (world : World) :
    let run := (launchContainer env).andThen (prestartHooks env) world
    run.exit = .returned false ∧ world.sys.spawnedSince run.state.sys = [] ↔
      Unlaunched env world := by
  let stamped := (world.withStatus .created).withSys world.sys.tick
  cases time : (env.host world.sys.clock).timestamp with
  | none =>
    have launch : launchContainer env world = ⟨.returned false, stamped⟩ := by
      simp only [launchContainer, time, stamped]
    have stops : ¬ (launchContainer env).Succeeds world := by simp [Action.Succeeds, launch]
    rw [Action.andThen_of_stops stops, launch]
    have quiet : world.sys.spawnedSince stamped.sys = [] :=
      spawnedSince_of_grows (Sys.Grows.tick world.sys) List.not_mem_nil
    simp [Unlaunched, time, quiet]
  | some created =>
    have launch : (launchContainer env).andThen (prestartHooks env) world =
        (vmLaunch env).andThen ((stateFileCreate env (some created)).andThen (prestartHooks env))
          stamped := by
      rw [← Action.andThen_assoc]
      simp only [Action.andThen, launchContainer, time, stamped]
    have later : ((stateFileCreate env (some created)).andThen (prestartHooks env)).Moves
        (World.Grows [.wrote, .hook]) := by
      refine World.Grows.andThen ?_ ?_
      · exact World.Grows.weaken (stateFileCreate_grows env (some created)) (by decide)
      · exact World.Grows.weaken (prestartHooks_grows env) (by decide)
    have early : Unlaunched env world ↔
        ((vmArgsGet env (env.host stamped.sys.clock) stamped.config).bind
          fun found => (env.host stamped.sys.clock).spawn found.2) = none := by
      simp [Unlaunched, time, stamped, World.withSys]
    simp only [launch, early]
    rcases vmLaunch_cases env stamped with ⟨none, failed, quiet⟩ | ⟨found, spawned⟩
    · have stops : ¬ (vmLaunch env).Succeeds stamped := by simp [Action.Succeeds, failed]
      rw [Action.andThen_of_stops stops]
      exact ⟨fun _ => none, fun _ => ⟨failed, quiet⟩⟩
    · refine ⟨fun both => ?_, fun none => absurd none found⟩
      by_cases launched : (vmLaunch env).Succeeds stamped
      · rw [Action.andThen_of_succeeds launched] at both
        exact absurd both.2 (spawnedSince_ne_nil (vmLaunch_grows env stamped).sys.adds.trace_extends
          (later _).sys.adds.trace_extends spawned)
      · rw [Action.andThen_of_stops launched] at both
        exact absurd both.2 spawned

end Launch

theorem clrOciCreate_eq_early (env : Env) (world : World) :
    clrOciCreate env world = (Action.sequence (earlySteps env)).andThen (fun ready =>
      if ready.config.dryRunMode then ⟨.returned true, ready⟩
      else (launchContainer env).andThen (prestartHooks env) ready) world := by
  have split : Action.sequence (earlySteps env) =
      (claimContainer env).andThen (prepareContainer env) := by
    have appended := Action.sequence_append [configFileParse env, checkConfig, runtimeDirSetup env]
      [handleMounts env, createContainerWorkload env]
    rwa [Action.sequence_cons (handleMounts env), Action.sequence_singleton] at appended
  rw [split, Action.andThen_assoc]
  rfl

theorem earlySteps_grows (env : Env) :
    (Action.sequence (earlySteps env)).Moves (World.Grows [.mount, .wrote]) := by
  have trans : ∀ first second third : World, first.Grows [.mount, .wrote] second →
      second.Grows [.mount, .wrote] third → first.Grows [.mount, .wrote] third :=
    fun _ _ _ => World.Grows.trans
  refine Action.Moves.sequence World.Grows.refl trans fun step member => ?_
  simp only [earlySteps, List.mem_cons, List.not_mem_nil, or_false] at member
  rcases member with rfl | rfl | rfl | rfl | rfl
  · exact World.Grows.weaken (configFileParse_grows env) (by decide)
  · intro world
    rw [checkConfig_state]
    exact World.Grows.refl world
  · exact World.Grows.weaken (runtimeDirSetup_grows env) (by decide)
  · exact World.Grows.weaken (handleMounts_grows env) (by decide)
  · exact World.Grows.weaken (createContainerWorkload_grows env) (by decide)

/-- A creation fails without a hypervisor exactly if a check of its own stops it in time. -/
theorem create_fails_unlaunched_iff (env : Env) (world : World) :
    (clrOciCreate env world).exit = .returned false ∧
        world.sys.spawnedSince (clrOciCreate env world).state.sys = [] ↔
      StoppedBeforeLaunch env world := by
  have grown := (earlySteps_grows env world).sys
  have quiet : world.sys.spawnedSince (Action.sequence (earlySteps env) world).state.sys = [] :=
    spawnedSince_of_grows grown (by decide)
  rw [clrOciCreate_eq_early]
  by_cases ready : (Action.sequence (earlySteps env)).Succeeds world
  · have unfailed : ¬ Action.FailsIn (earlySteps env) world := by
      rw [← Action.sequence_returns_false_iff, show _ = Exit.returned true from ready]
      decide
    rw [Action.andThen_of_succeeds ready]
    simp only [StoppedBeforeLaunch, StopsIn, unfailed, ready, false_or, true_and]
    cases dry : (Action.sequence (earlySteps env) world).state.config.dryRunMode with
    | true => simp
    | false =>
      have early := launch_fails_early_iff env (Action.sequence (earlySteps env) world).state
      dsimp only at early
      rw [← early]
      have late : (launchContainer env).andThen (prestartHooks env) |>.Moves
          (World.Grows [.spawn, .wrote, .hook]) := by
        refine World.Grows.andThen ?_ ?_
        · exact World.Grows.weaken (launchContainer_grows env) (by decide)
        · exact World.Grows.weaken (prestartHooks_grows env) (by decide)
      have spawned : world.sys.spawnedSince ((launchContainer env).andThen (prestartHooks env)
          (Action.sequence (earlySteps env) world).state).state.sys =
          (Action.sequence (earlySteps env) world).state.sys.spawnedSince
            ((launchContainer env).andThen (prestartHooks env)
              (Action.sequence (earlySteps env) world).state).state.sys := by
        rw [Sys.spawnedSince, Sys.eventsSince_trans grown.adds.trace_extends (late _).sys.adds.trace_extends,
          List.filterMap_append]
        exact (congrArg (· ++ _) quiet).trans (List.nil_append _)
      simp only [Bool.false_eq_true, ↓reduceIte, true_and, spawned]
  · rw [Action.andThen_of_stops ready]
    simp only [StoppedBeforeLaunch, StopsIn, ready, false_and, or_false, quiet, and_true]
    exact Action.sequence_returns_false_iff

section Log
variable {host : Host} {node : GNode} {before after : Parse}

theorem rejected_of_logged (run : processConfigStart host before node = some after)
    (logged : after.failed ≠ before.failed) :
    ∃ handler handled, handler ∈ startSpecHandlers ∧ some handler.name = node.data ∧
      handler.handleSection host node before = some (false, handled) := by
  unfold processConfigStart at run
  split at run
  · cases run
    exact absurd rfl logged
  · simp only at run
    split at run
    · obtain ⟨text, _, same⟩ := Option.bind_eq_some_iff.mp run
      cases same
      exact absurd rfl logged
    · split at run
      · obtain ⟨text, _, same⟩ := Option.bind_eq_some_iff.mp run
        cases same
        exact absurd rfl logged
      · unfold dispatch at run
        split at run
        · cases run
          exact absurd rfl logged
        · next handler found =>
          rw [Option.bind_eq_bind, Option.bind_eq_some_iff] at run
          obtain ⟨⟨ok, handled⟩, ran, same⟩ := run
          cases ok with
          | true =>
            cases same
            exact absurd (handleSection_frame ran).2 logged
          | false =>
            have named := List.find?_some found
            exact ⟨handler, handled, List.mem_of_find?_eq_some found, by simpa using named, ran⟩

theorem sectionRejected_of_failed {env : Env} {world : World} {root : GNode} {parse : Parse}
    (tree : bundleTree env world = some root)
    (parsed : parseSections (env.host world.sys.clock) root world.config = some parse)
    (failed : parse.failed ≠ []) : SectionRejected env world := by
  have search : ∀ (nodes : List GNode) (start : Parse),
      nodes.foldlM (processConfigStart (env.host world.sys.clock)) start = some parse →
      parse.failed ≠ start.failed →
      ∃ earlier node later middle handler handled, nodes = earlier ++ node :: later ∧
        earlier.foldlM (processConfigStart (env.host world.sys.clock)) start = some middle ∧
        handler ∈ startSpecHandlers ∧ some handler.name = node.data ∧
        handler.handleSection (env.host world.sys.clock) node middle = some (false, handled) := by
    intro nodes
    induction nodes with
    | nil =>
      intro start run logged
      cases run
      exact absurd rfl logged
    | cons node rest ih =>
      intro start run logged
      rw [List.foldlM_cons, Option.bind_eq_bind, Option.bind_eq_some_iff] at run
      obtain ⟨middle, first, others⟩ := run
      by_cases same : middle.failed = start.failed
      · obtain ⟨earlier, found, later, reached, handler, handled, split, run, rest⟩ :=
          ih middle others (same ▸ logged)
        refine ⟨node :: earlier, found, later, reached, handler, handled, by rw [split]; rfl, ?_, rest⟩
        rw [List.foldlM_cons, first]
        exact run
      · obtain ⟨handler, handled, listed, named, ran⟩ := rejected_of_logged first same
        exact ⟨[], node, rest, start, handler, handled, rfl, rfl, listed, named, ran⟩
  obtain ⟨earlier, node, later, middle, handler, handled, split, run, listed, named, ran⟩ :=
    search root.children { config := world.config } parsed failed
  exact ⟨root, earlier, node, later, middle, handler, handled, tree, split, run, listed, named, ran⟩

end Log

def rejectedSections (env : Env) (world : World) : List String :=
  (do let root ← bundleTree env world
      parseSections (env.host world.sys.clock) root world.config).elim [] Parse.failed

theorem sectionRejected_of_rejectedSections {env : Env} {world : World}
    (logged : rejectedSections env world ≠ []) : SectionRejected env world := by
  unfold rejectedSections at logged
  cases tree : bundleTree env world with
  | none => simp [tree] at logged
  | some root =>
    cases parsed : parseSections (env.host world.sys.clock) root world.config with
    | none => simp [tree, parsed] at logged
    | some parse =>
      refine sectionRejected_of_failed tree parsed ?_
      simpa [tree, parsed] using logged

end ClrOci
