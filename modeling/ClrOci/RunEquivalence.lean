import ClrOci.Created
import ClrOci.Rewrite

/-! `create` and then `start`, compared with `run`.

Both executions create the container in the same way. Then `run` goes on with its own
configuration, where `start` has to rebuild one from the state file.
-/

set_option autoImplicit false

namespace ClrOci

open Foundation

def Event.runningMembers? : Event → Option (String → Option Json)
  | .wrote _ (.json document) =>
    match document.member? "status" with
    | some (.string "running") => some document.member?
    | _ => none
  | _ => none

@[ext] structure Observation where
  hooks : List (Hook × HookOutcome)
  running : List (String → Option Json)

namespace Sys

def observe (before after : Sys) : Observation where
  hooks := before.hooksSince after
  running := (before.eventsSince after).filterMap Event.runningMembers?

variable {first second third : Sys}

theorem observe_trans (early : first.trace <+: second.trace) (late : second.trace <+: third.trace) :
    first.observe third =
      ⟨(first.observe second).hooks ++ (second.observe third).hooks,
        (first.observe second).running ++ (second.observe third).running⟩ := by
  rw [observe, hooksSince, eventsSince_trans early late, List.filterMap_append,
    List.filterMap_append]
  rfl

theorem observe_eq_iff {other : Sys} (early : first.trace <+: second.trace)
    (late : second.trace <+: third.trace) (also : second.trace <+: other.trace) :
    first.observe third = first.observe other ↔ second.observe third = second.observe other := by
  rw [observe_trans early late, observe_trans early also, Observation.ext_iff, Observation.ext_iff]
  simp only [List.append_cancel_left_eq]

theorem observe_of_quiet (quiet : first.Adds Event.Quiet second) : first.observe second = ⟨[], []⟩ := by
  have hooks : ∀ event : Event, event.Quiet → event.hookRun? = none := by
    intro event quiet
    cases event <;> first | rfl | exact absurd (by simp [Event.kind]) quiet
  have running : ∀ event : Event, event.Quiet → event.runningMembers? = none := by
    intro event quiet
    cases event <;> first | rfl | exact absurd (by simp [Event.kind]) quiet
  exact Observation.ext (quiet.filterMap_eventsSince hooks) (quiet.filterMap_eventsSince running)

end Sys

section Start
variable (env : Env)

/-- The outside calls that a start makes up to the running state are all granted. -/
structure GrantsRunning (wait : Bool) (world : World) : Prop where
  watched : wait = true → (env.host world.sys.clock).monitor = true
  killed : (env.host world.sys.clock).kill world.config.state.workloadPid sigcont = true
  written : (env.host (world.sys.clock + 1)).setContents
    (stateFilePath world.config.state.runtimePath).text = true

instance (wait : Bool) (world : World) : Decidable (GrantsRunning env wait world) :=
  decidable_of_iff
    ((wait = true → (env.host world.sys.clock).monitor = true) ∧
      (env.host world.sys.clock).kill world.config.state.workloadPid sigcont = true ∧
      (env.host (world.sys.clock + 1)).setContents
        (stateFilePath world.config.state.runtimePath).text = true)
    ⟨fun all => ⟨all.1, all.2.1, all.2.2⟩, fun all => ⟨all.watched, all.killed, all.written⟩⟩

def runningDocument (config : Config) (inputs : StateInputs) : Json :=
  stateJson config inputs.vm inputs.id inputs.bundlePath "running" inputs.created

variable {world : World}

theorem stateFileCreate_refused {created : Option String}
    (refused : ¬ (stateFileCreate env created).Succeeds world) :
    (stateFileCreate env created world).state.sys.trace = world.sys.trace ∧
      (stateFileCreate env created world).state.sys.files = world.sys.files := by
  unfold Action.Succeeds at refused
  unfold stateFileCreate setContents at refused ⊢
  split
  · split
    · exact ⟨rfl, rfl⟩
    · next others config found got _ status named =>
      simp only [found, got, named] at refused ⊢
      split
      · next allowed => simp [allowed] at refused
      · exact ⟨rfl, rfl⟩
  · exact ⟨rfl, rfl⟩

/-- A start that does not get to the running state leaves nothing to observe. -/
theorem reachRunning_refused {wait : Bool} {created : Option String}
    (refused : ¬ (reachRunning env wait created).Succeeds world) :
    world.sys.Adds Event.Quiet (reachRunning env wait created world).state.sys := by
  by_cases watched : (watchRuntimeDir env wait).Succeeds world
  · rw [reachRunning, Action.Succeeds, Action.andThen_of_succeeds watched] at refused
    rw [reachRunning, Action.andThen_of_succeeds watched]
    change ¬ (resumeVm env created world).exit = .returned true at refused
    change world.sys.Adds Event.Quiet (resumeVm env created world).state.sys
    have killed := kill_adds env world.config.state.workloadPid sigcont world.sys
      (show Event.Quiet (.kill world.config.state.workloadPid sigcont) by
        simp [Event.Quiet, Event.kind])
    unfold resumeVm at refused ⊢
    dsimp only at refused ⊢
    split
    · next sent =>
      rw [if_pos sent] at refused
      exact killed.trans (Sys.Adds.of_same (stateFileCreate_refused env refused).1)
    · exact killed
  · rw [reachRunning, Action.andThen_of_stops watched]
    exact Sys.Adds.refl world.sys

variable {inputs : StateInputs}
  (given : stateInputs world.config (some inputs.created) = some inputs)
include given

theorem resumeVm_eq :
    resumeVm env (some inputs.created) world =
      if (env.host world.sys.clock).kill world.config.state.workloadPid sigcont then
        let killed := world.sys.tick.log (.kill world.config.state.workloadPid sigcont)
        let written := setContents env (stateFilePath world.config.state.runtimePath).text
          (.json (runningDocument world.config inputs)) killed
        ⟨.returned written.1, ⟨(world.withStatus .running).config.withStateFilePath, written.2⟩⟩
      else ⟨.returned false, world.withSys world.sys.tick⟩ := by
  unfold resumeVm kill
  cases (env.host world.sys.clock).kill world.config.state.workloadPid sigcont with
  | false => rfl
  | true =>
    let killed := world.sys.tick.log (.kill world.config.state.workloadPid sigcont)
    have running : stateInputs ((world.withSys killed).withStatus .running).config
        (some inputs.created) = some inputs := given
    simp only [↓reduceIte]
    exact stateFileCreate_eq running rfl

theorem reachRunning_succeeds_iff (wait : Bool) :
    (reachRunning env wait (some inputs.created)).Succeeds world ↔ GrantsRunning env wait world := by
  have watched : (watchRuntimeDir env wait).Succeeds world ↔
      (wait = true → (env.host world.sys.clock).monitor = true) := by
    cases wait <;> simp [Action.Succeeds, watchRuntimeDir]
  have resumed : (resumeVm env (some inputs.created)).Succeeds world ↔
      (env.host world.sys.clock).kill world.config.state.workloadPid sigcont = true ∧
        (env.host (world.sys.clock + 1)).setContents
          (stateFilePath world.config.state.runtimePath).text = true := by
    rw [Action.Succeeds, resumeVm_eq env given]
    split
    · next killed => simp [killed, setContents_ok_iff]
    · next alive => simp [alive]
  have both : (reachRunning env wait (some inputs.created)).Succeeds world ↔ _ :=
    Action.andThen_succeeds_iff
  rw [both, watched]
  constructor
  · rintro ⟨watch, rest⟩
    obtain ⟨killed, written⟩ := resumed.mp rest
    exact ⟨watch, killed, written⟩
  · intro granted
    exact ⟨granted.watched, resumed.mpr ⟨granted.killed, granted.written⟩⟩

theorem reachRunning_state {wait : Bool}
    (ok : (reachRunning env wait (some inputs.created)).Succeeds world) :
    (reachRunning env wait (some inputs.created) world).state =
      ⟨(world.withStatus .running).config.withStateFilePath,
        (world.sys.tick.log (.kill world.config.state.workloadPid sigcont)).tick.written
          (stateFilePath world.config.state.runtimePath).text
          (.json (runningDocument world.config inputs))⟩ := by
  have granted := (reachRunning_succeeds_iff env given wait).mp ok
  obtain ⟨watched, resumed⟩ := Action.andThen_succeeds_iff.mp ok
  rw [reachRunning, Action.andThen_of_succeeds watched]
  change (resumeVm env _ world).state = _
  rw [resumeVm_eq env given, if_pos granted.killed]
  have allowed := (setContents_ok_iff env (stateFilePath world.config.state.runtimePath).text
    (.json (runningDocument world.config inputs))
    (world.sys.tick.log (.kill world.config.state.workloadPid sigcont))).mpr granted.written
  dsimp only
  rw [setContents_of_ok env allowed]

theorem observe_reachRunning {wait : Bool}
    (ok : (reachRunning env wait (some inputs.created)).Succeeds world) :
    world.sys.trace <+: (reachRunning env wait (some inputs.created) world).state.sys.trace ∧
      world.sys.observe (reachRunning env wait (some inputs.created) world).state.sys =
        ⟨[], [(runningDocument world.config inputs).member?]⟩ := by
  have events : (reachRunning env wait (some inputs.created) world).state.sys.trace =
      world.sys.trace ++ [.kill world.config.state.workloadPid sigcont,
        .wrote (stateFilePath world.config.state.runtimePath).text
          (.json (runningDocument world.config inputs))] := by
    rw [reachRunning_state env given ok]
    simp
  refine ⟨⟨_, events.symm⟩, ?_⟩
  rw [Sys.observe, Sys.hooksSince, Sys.eventsSince_of_append events]
  rfl

omit given in
/-- The poststart hooks are run when the state file is there, and are all that is observed. -/
theorem observe_poststartHooks {content : Content}
    (present : world.sys.files world.config.state.stateFilePath.text = some content) :
    world.sys.observe (poststartHooks env world).state.sys =
      ⟨hookRuns env false world.sys.clock world.config.oci.hooks.poststart, []⟩ := by
  have ran : world.sys.Grows [.hook] (poststartHooks env world).state.sys :=
    runHooks_grows env world.sys List.mem_cons_self _ _ false
  refine Observation.ext (runHooks_hooksSince env false present) ?_
  apply ran.adds.filterMap_eventsSince
  intro event allowed
  cases event <;> first | rfl | (simp [Event.kind] at allowed)

theorem clrOciStart_observed {data : StartData} (plain : data.bundle = none) {state : OciState}
    (created : state.status = .created) (time : state.createTime = some inputs.created) :
    let wait := waits (env.host world.sys.clock) world.config
    world.sys.trace <+: (clrOciStart env data state world).state.sys.trace ∧
      ∃ clock, world.sys.observe (clrOciStart env data state world).state.sys =
        if (reachRunning env wait (some inputs.created)).Succeeds world then
          ⟨hookRuns env false clock world.config.oci.hooks.poststart,
            [(runningDocument world.config inputs).member?]⟩
        else ⟨[], []⟩ := by
  intro wait
  have recorded : data.bundlePath (env.host world.sys.clock) world.config.bundlePath =
      world.config.bundlePath := by
    rw [StartData.bundlePath, plain]
  have run : clrOciStart env data state world =
      (reachRunning env wait (some inputs.created)).andThen
        ((poststartHooks env).andThen (waitIf env wait)) world := by
    rw [clrOciStart_eq env data created, recorded, time]
    rfl
  rw [run]
  by_cases reached : (reachRunning env wait (some inputs.created)).Succeeds world
  · simp only [reached, ↓reduceIte, Action.andThen_of_succeeds]
    obtain ⟨early, transition⟩ := observe_reachRunning env given reached
    have state := reachRunning_state env given reached
    have present : (reachRunning env wait (some inputs.created) world).state.sys.files
        (reachRunning env wait (some inputs.created) world).state.config.state.stateFilePath.text =
          some (.json (runningDocument world.config inputs)) := by
      rw [state]
      exact Sys.written_files_self _ _ _
    have hooks : (reachRunning env wait (some inputs.created) world).state.config.oci.hooks =
        world.config.oci.hooks := by
      rw [state]
      rfl
    generalize (reachRunning env wait (some inputs.created) world).state = running at *
    have executed := observe_poststartHooks env present
    have moved : running.Rewrites none _ := poststartHooks_rewrites env running
    have middle := moved.adds.trace_extends
    rw [Action.andThen_of_succeeds (show (poststartHooks env).Succeeds running from rfl)]
    have quiet := waitIf_adds env Event.umount_quiet wait (poststartHooks env running).state
    refine ⟨early.trans (middle.trans quiet.trace_extends), running.sys.clock, ?_⟩
    rw [Sys.observe_trans early (middle.trans quiet.trace_extends),
      Sys.observe_trans middle quiet.trace_extends, transition, executed,
      Sys.observe_of_quiet quiet, hooks]
    simp
  · have quiet := reachRunning_refused env reached
    simp only [reached, ↓reduceIte, Action.andThen_of_stops, not_false_eq_true]
    exact ⟨quiet.trace_extends, 0, Sys.observe_of_quiet quiet⟩

end Start

-- The options that `create` and `run` have in common.
def sharedOptions (bundle console pidFile : Option String) : StartData :=
  { bundle := bundle, console := console, pidFile := pidFile }

section Setup
variable {env : Env} {data : StartData} {id : String} {rest : List String} {rootDir : Option String}
  {sys : Sys}

theorem handleCommandSetup_cases
    (ok : (handleCommandSetup env data (id :: rest)).Succeeds ⟨Config.fresh rootDir, sys⟩) :
    let named := (handleCommandSetup env data (id :: rest) ⟨Config.fresh rootDir, sys⟩).state
    named = ⟨Config.fresh rootDir, sys⟩ ∨
      handleDefaultUsage (id :: rest) = none ∧ named.sys = sys ∧
        named.config.optargContainerId = some id ∧ named.config.rootDir = rootDir ∧
        named.config.state = {} ∧ named.config.dryRunMode = data.dryRunMode ∧
        named.config.detachedMode = data.detach := by
  unfold Action.Succeeds handleCommandSetup at ok
  unfold handleCommandSetup
  dsimp only at ok ⊢
  split
  · exact Or.inl rfl
  · next asked =>
    rw [asked] at ok
    refine Or.inr ⟨asked, ?_⟩
    -- The bundle is given by the option or as the second argument, not by both.
    rcases data with ⟨- | bundle, console, pidFile, detach, dryRunMode⟩ <;>
      rcases rest with - | ⟨other, - | ⟨more, others⟩⟩ <;>
      first | exact ⟨rfl, rfl, rfl, rfl, rfl, rfl⟩ | cases ok

theorem clrOciCreate_extends (env : Env) (world : World) :
    world.sys.trace <+: (clrOciCreate env world).state.sys.trace := by
  have claimed : (claimContainer env).Moves (World.Grows [.mount, .wrote, .spawn, .hook]) :=
    World.Grows.weaken (claimContainer_grows env) (List.nil_subset _)
  exact (World.Grows.andThen claimed (buildContainer_grows env) world).sys.adds.trace_extends

/-- What a `create` that succeeds leaves for the commands that are given its id. -/
theorem handlerCreate_created (real : data.dryRunMode = false)
    (ok : (handlerCreate env data (id :: rest)).Succeeds ⟨Config.fresh rootDir, sys⟩) :
    let created := (handlerCreate env data (id :: rest) ⟨Config.fresh rootDir, sys⟩).state
    handleDefaultUsage (id :: rest) = none ∧ sys.trace <+: created.sys.trace ∧
      created.config.rootDir = rootDir ∧ created.config.detachedMode = data.detach ∧
      ∃ inputs, Created created inputs ∧ Stored created.sys.files created.config inputs ∧
        inputs.id = id ∧ (configFilePath (some inputs.bundlePath)).isSome = true := by
  intro created
  obtain ⟨set, made⟩ := Action.andThen_succeeds_iff.mp ok
  have run : created = (clrOciCreate env (handleCommandSetup env data (id :: rest)
      ⟨Config.fresh rootDir, sys⟩).state).state :=
    congrArg Run.state (Action.andThen_of_succeeds set)
  rcases handleCommandSetup_cases set with usage | ⟨asked, same, named, root, state, mode, detach⟩
  · -- After the usage there is no bundle to create a container from.
    rw [usage] at made
    obtain ⟨claimed, _⟩ := Action.andThen_succeeds_iff.mp made
    obtain ⟨parsed, _⟩ := Action.andThen_succeeds_iff.mp claimed
    cases configFileParse_bundle parsed
  · have extends' := clrOciCreate_extends env
      (handleCommandSetup env data (id :: rest) ⟨Config.fresh rootDir, sys⟩).state
    rw [← run, same] at extends'
    obtain ⟨⟨inputs, container⟩, placed, options, bundle⟩ := clrOciCreate_created made
      (mode.trans real) (by rw [state]; decide) named
    rw [← run] at container placed options
    obtain ⟨_, id', _, recorded, _⟩ := stateInputs_eq_some_iff.mp container.given
    have keptId := congrArg Config.optargContainerId options
    have keptRoot := congrArg Config.rootDir options
    have keptBundle := congrArg Config.bundlePath options
    have keptDetach := congrArg Config.detachedMode options
    change created.config.detachedMode = _ at keptDetach
    change created.config.optargContainerId = _ at keptId
    change created.config.rootDir = _ at keptRoot
    change created.config.bundlePath = _ at keptBundle
    have same : inputs.id = id := Option.some.inj (id'.symm.trans (keptId.trans named))
    rw [root] at placed
    refine ⟨asked, extends', keptRoot.trans root, keptDetach.trans detach, inputs, container,
      ⟨container.given, ?_, "created", by rw [container.status]; rfl, container.held⟩, same, ?_⟩
    · rw [same, keptRoot.trans root]
      exact placed
    · rw [← recorded, keptBundle]
      exact bundle

end Setup

/-- `create`, and if it succeeds `start`, each in a process of its own. -/
def createThenStart (env : Env) (options : StartData) (id : String) (rest : List String)
    (rootDir : Option String) (sys : Sys) : Run World :=
  (handlerCreate env options (id :: rest)).andThen
    (fun created => handlerStart env {} [id] ⟨Config.fresh rootDir, created.sys⟩)
    ⟨Config.fresh rootDir, sys⟩

-- What `run` does after the creation.
def runCreated (env : Env) (data : StartData) : Action World := fun world =>
  match stateFileRead world.sys.files world.config.state.stateFilePath.text with
  | none => ⟨.returned false, world⟩
  | some state => clrOciStart env { data with bundle := none } state world

section Continue
variable (env : Env) {created : World} {inputs : StateInputs} (container : Created created inputs)
include container

theorem runCreated_eq (data : StartData)
    (stored : Stored created.sys.files created.config inputs) :
    runCreated env data created =
      clrOciStart env { data with bundle := none } (recalled created.config inputs) created := by
  have read : stateFileRead created.sys.files created.config.state.stateFilePath.text =
      some (recalled created.config inputs) := by
    rw [container.file, stored.placed, stored.read, if_pos container.console]
  rw [runCreated]
  simp only [read]

theorem handlerStart_eq {id : String} {rootDir : Option String}
    (stored : Stored created.sys.files created.config inputs) (named : inputs.id = id)
    (root : created.config.rootDir = rootDir) (asked : handleDefaultUsage [id] = none)
    (file : (configFilePath (some inputs.bundlePath)).isSome = true) :
    handlerStart env {} [id] ⟨Config.fresh rootDir, created.sys⟩ =
      clrOciStart env {} (recalled created.config inputs)
        ⟨surviving created.config inputs, created.sys⟩ := by
  subst named root
  obtain ⟨fetched, got⟩ := stored.found container.console file
  obtain ⟨_, state, config⟩ := stored.fetched got
  rw [stored.reloaded_eq container.console] at config
  rw [handlerStart]
  simp only [asked, List.head?_cons, withState, World.setContainerId, got, config]
  rw [state]

theorem clrOciStart_created (data : StartData) (plain : data.bundle = none) :
    let started := clrOciStart env data (recalled created.config inputs) created
    created.sys.trace <+: started.state.sys.trace ∧
      ∃ clock, created.sys.observe started.state.sys =
        if GrantsRunning env (waits (env.host created.sys.clock) created.config) created then
          ⟨hookRuns env false clock created.config.oci.hooks.poststart,
            [(runningDocument created.config inputs).member?]⟩
        else ⟨[], []⟩ := by
  have observed := clrOciStart_observed env container.given plain
    (show (recalled created.config inputs).status = .created from container.status) rfl
  dsimp only at observed
  simpa only [reachRunning_succeeds_iff env container.given] using observed

theorem clrOciStart_surviving (attached : created.config.detachedMode = false) (data : StartData)
    (plain : data.bundle = none) :
    let started := clrOciStart env data (recalled created.config inputs)
      ⟨surviving created.config inputs, created.sys⟩
    created.sys.trace <+: started.state.sys.trace ∧
      created.sys.observe started.state.sys =
        if GrantsRunning env (waits (env.host created.sys.clock) created.config) created then
          ⟨[], [(runningDocument created.config.withoutAnnotations inputs).member?]⟩
        else ⟨[], []⟩ := by
  have again : stateInputs (World.mk (surviving created.config inputs) created.sys).config
      (some inputs.again.created) = some inputs.again := stateInputs_surviving_again container.given
  have observed := clrOciStart_observed env again plain
    (show (recalled created.config inputs).status = .created from container.status) rfl
  have document : runningDocument (surviving created.config inputs) inputs.again =
      runningDocument created.config.withoutAnnotations inputs :=
    stateJson_surviving created.config inputs (some inputs.bundlePath) inputs.bundlePath "running"
  have wait : waits (env.host created.sys.clock) (surviving created.config inputs) =
      waits (env.host created.sys.clock) created.config := by
    unfold waits
    rw [attached]
    rfl
  have granted : ∀ wait, GrantsRunning env wait ⟨surviving created.config inputs, created.sys⟩ ↔
      GrantsRunning env wait created := fun wait =>
    ⟨fun all => ⟨all.watched, all.killed, all.written⟩,
      fun all => ⟨all.watched, all.killed, all.written⟩⟩
  dsimp only at observed
  simp only [reachRunning_succeeds_iff env again, granted, document, wait] at observed
  obtain ⟨extended, clock, same⟩ := observed
  exact ⟨extended, same⟩

end Continue

theorem handlerRun_eq (env : Env) (data : StartData) (argv : List String) :
    handlerRun env data argv = (handlerCreate env data argv).andThen (runCreated env data) := by
  rw [handlerRun, handlerCreate, Action.andThen_assoc]
  rfl

theorem hookRuns_eq_nil_iff {env : Env} {stopOnFailure : Bool} {clock : Nat} {hooks : List Hook} :
    hookRuns env stopOnFailure clock hooks = [] ↔ hooks = [] := by
  cases hooks with
  | nil => simp [hookRuns]
  | cons hook rest => simp [hookRuns]

theorem runningDocument_members_iff (config : Config) (inputs : StateInputs) :
    (runningDocument config.withoutAnnotations inputs).member? =
      (runningDocument config inputs).member? ↔ config.oci.annotations = [] := by
  constructor
  · intro same
    have member := congrFun same "annotations"
    rw [runningDocument, runningDocument, member?_stateJson_annotations,
      member?_stateJson_annotations] at member
    by_contra some
    simp [Config.withoutAnnotations, some] at member
  · intro none
    rw [runningDocument, stateJson_withoutAnnotations none]
    rfl

/-- Creating and starting a container is observed as running it if and only if its VM does not
get to run, or it has neither poststart hooks nor annotations: the state file carries no hooks,
and the annotations that it does carry are not transferred. -/
theorem create_start_matches_run_iff (env : Env) (bundle console pidFile : Option String)
    (id : String) (rest : List String) (rootDir : Option String) (sys : Sys) :
    let options := sharedOptions bundle console pidFile
    let fresh : World := ⟨Config.fresh rootDir, sys⟩
    let created := handlerCreate env options (id :: rest) fresh
    sys.observe (createThenStart env options id rest rootDir sys).state.sys =
        sys.observe (handlerRun env options (id :: rest) fresh).state.sys ↔
      (created.exit = .returned true →
        GrantsRunning env (waits (env.host created.state.sys.clock) created.state.config)
          created.state →
        created.state.config.oci.hooks.poststart = [] ∧
          created.state.config.oci.annotations = []) := by
  intro options fresh created
  rw [handlerRun_eq]
  by_cases ok : (handlerCreate env options (id :: rest)).Succeeds fresh
  · obtain ⟨asked, early, root, detach, inputs, container, stored, named, file⟩ :=
      handlerCreate_created rfl ok
    rw [createThenStart, Action.andThen_of_succeeds ok, Action.andThen_of_succeeds ok]
    rw [runCreated_eq env container options stored,
      handlerStart_eq env container stored named root asked file]
    obtain ⟨extended, apart⟩ := clrOciStart_surviving env container detach {} rfl
    obtain ⟨also, clock, together⟩ :=
      clrOciStart_created env container { options with bundle := none } rfl
    rw [Sys.observe_eq_iff early extended also, apart, together]
    by_cases granted : GrantsRunning env
        (waits (env.host created.state.sys.clock) created.state.config) created.state
    · rw [if_pos granted, if_pos granted, Observation.mk.injEq, List.singleton_inj,
        runningDocument_members_iff, eq_comm, hookRuns_eq_nil_iff]
      exact ⟨fun both _ _ => both, fun both => both ok granted⟩
    · rw [if_neg granted, if_neg granted]
      exact ⟨fun _ _ allowed => absurd allowed granted, fun _ => rfl⟩
  · rw [createThenStart, Action.andThen_of_stops ok, Action.andThen_of_stops ok]
    exact ⟨fun _ success => absurd success ok, fun _ => rfl⟩

def poststartSys : Sys :=
  Sys.idle (bundleFiles [platformSection "linux",
    ("hooks", .object [("poststart", .array [hookJson "/a"])])])

/-- The same bundle with a poststart hook: `run` executes it, `create` and `start` do not. -/
theorem start_skips_poststart :
    let options := sharedOptions (some "/bundle") none none
    let started := createThenStart Env.calm options "c1" [] (some "/run") poststartSys
    let run := handlerRun Env.calm options ["c1"] ⟨Config.fresh (some "/run"), poststartSys⟩
    started.exit = .returned true ∧ run.exit = .returned true ∧
      poststartSys.observe started.state.sys ≠ poststartSys.observe run.state.sys := by
  intro options started run
  have facts : started.exit = .returned true ∧ run.exit = .returned true ∧
      poststartSys.hooksSince started.state.sys = [] ∧ poststartSys.hooksSince run.state.sys ≠ [] := by
    decide +kernel
  obtain ⟨startedWell, ranWell, skipped, executed⟩ := facts
  refine ⟨startedWell, ranWell, fun same => executed ?_⟩
  rw [← skipped]
  exact (congrArg Observation.hooks same).symm

end ClrOci
