import ClrOci.Marks

/-! Which hypervisor a container has, over creations and the commands after them.

The state file is in the runtime directory, and a creation that gets anywhere has found
neither. So the process it holds is the one that was launched last.
-/

set_option autoImplicit false

namespace ClrOci

open Foundation

structure Hypervisor where
  pid : GPid
  signals : List Int32
  deriving DecidableEq

def Hypervisor.follow (current : Option Hypervisor) : Mark → Option Hypervisor
  | .launch pid => some ⟨pid, []⟩
  | .signal pid signum => current.map fun vm =>
    if vm.pid = pid then { vm with signals := vm.signals ++ [signum] } else vm
  | .status _ => current

def Sys.hypervisor? (path : String) (sys : Sys) : Option Hypervisor :=
  (sys.trace.filterMap (Event.mark? path)).foldl Hypervisor.follow none

theorem Sys.hypervisor?_of_marks {path : String} {before after : Sys} {marks : List Mark}
    (trace : ∃ events, after.trace = before.trace ++ events ∧
      events.filterMap (Event.mark? path) = marks) :
    after.hypervisor? path = marks.foldl Hypervisor.follow (before.hypervisor? path) := by
  obtain ⟨events, added, same⟩ := trace
  rw [hypervisor?, added, List.filterMap_append, List.foldl_append, same]
  rfl

/-- No state file is there: at most a text in its place. -/
def NoDocument (path : String) (sys : Sys) : Prop :=
  ∀ document, sys.files path ≠ some (.json document)

section Events
variable {path : String} {before after : Sys}

theorem Sys.hypervisor?_of_adds (adds : before.Adds (fun event => event.kind ∈ [.mount, .wrote, .hook]) after) :
    after.hypervisor? path = before.hypervisor? path := by
  obtain ⟨events, added, kinds⟩ := adds
  rw [hypervisor?_of_marks ⟨events, added, rfl⟩]
  clear added
  generalize before.hypervisor? path = current
  induction events with
  | nil => rfl
  | cons event rest ih =>
    have kind := kinds event List.mem_cons_self
    have others := ih fun event member => kinds event (List.mem_cons_of_mem _ member)
    cases event with
    | mount | hook => exact others
    | umount | spawn | kill => simp [Event.kind] at kind
    | wrote other content =>
      cases put : Event.mark? path (.wrote other content) with
      | none =>
        rw [List.filterMap_cons_none put]
        exact others
      | some mark =>
        rw [List.filterMap_cons_some put]
        have status : ∃ status, mark = .status status := by
          unfold Event.mark? at put
          dsimp only at put
          split at put
          · obtain ⟨status, _, same⟩ := Option.map_eq_some_iff.mp put
            exact ⟨status, same.symm⟩
          · cases put
        obtain ⟨status, rfl⟩ := status
        exact others

end Events

section Create
variable {env : Env} {rootDir : Option String} {id path : String} {world : World}

theorem vmLaunch_hypervisor (ok : (vmLaunch env).Succeeds world) :
    (vmLaunch env world).state.sys.hypervisor? path =
      some ⟨(vmLaunch env world).state.config.state.workloadPid, []⟩ := by
  unfold Action.Succeeds vmLaunch at ok
  unfold vmLaunch
  dsimp only at ok ⊢
  split at ok
  · cases ok
  · next config args found =>
    split at ok
    · cases ok
    · next pid spawned =>
      have waited := (vmWait_grows env (config.setWorkloadPid pid)
        (world.sys.tick.launched args pid)).mono
          (show [Event.Kind.wrote] ⊆ [.mount, .wrote, .hook] by decide)
      have launched : (world.sys.tick.launched args pid).hypervisor? path = some ⟨pid, []⟩ :=
        Sys.hypervisor?_of_marks (show ∃ events, _ = world.sys.trace ++ events ∧
          events.filterMap (Event.mark? path) = [.launch pid] from ⟨[.spawn args pid], rfl, rfl⟩)
      exact (Sys.hypervisor?_of_adds waited.adds).trans launched

theorem launchContainer_hypervisor (ok : (launchContainer env).Succeeds world) :
    (launchContainer env world).state.sys.hypervisor? path =
      some ⟨(launchContainer env world).state.config.state.workloadPid, []⟩ := by
  obtain ⟨created, launched, stored, run⟩ := launchContainer_of_succeeds ok
  have wrote := (stateFileCreate_grows env (some created) (vmLaunch env
    ((world.withStatus .created).withSys world.sys.tick)).state).sys.mono
      (show [Event.Kind.wrote] ⊆ [.mount, .wrote, .hook] by decide)
  rw [run, Sys.hypervisor?_of_adds wrote.adds, vmLaunch_hypervisor launched]
  obtain ⟨_, _, _, _, after⟩ := stateFileCreate_state stored
  rw [after]
  rfl

def Textual (path : String) (before after : World) : Prop :=
  NoDocument path before.sys → NoDocument path after.sys

namespace Textual

theorem of_files {before after : World} (same : after.sys.files = before.sys.files) :
    Textual path before after := by
  intro none document
  rw [same]
  exact none document

theorem andThen {first next : Action World} (early : first.Moves (Textual path))
    (late : next.Moves (Textual path)) : (first.andThen next).Moves (Textual path) := by
  have trans : ∀ first second third : World, Textual path first second →
      Textual path second third → Textual path first third :=
    fun _ _ _ early late none => late (early none)
  exact Action.Moves.andThen trans early late

end Textual

theorem setContents_textual {other text : String} {sys : Sys} (none : NoDocument path sys) :
    NoDocument path (setContents env other (.text text) sys).2 := by
  unfold setContents
  split
  · intro document
    by_cases same : path = other
    · simp [same]
    · simp only [Sys.written_files, Function.update_of_ne same]
      exact none document
  · exact none

theorem handleMounts_textual : (handleMounts env).Moves (Textual path) := by
  intro world
  refine Textual.of_files ?_
  refine sweep_moves (fun before after : Sys => after.files = before.files) (fun _ => rfl)
    (fun _ _ _ early late => late.trans early) ?_ world.config.oci.mounts world.sys
  intro mount sys
  rcases handleMount_state env sys world.config.oci.root.path world.config.dryRunMode mount with
    same | same
  · rw [same]
    rfl
  · rw [same]
    rfl

theorem createContainerWorkload_textual : (createContainerWorkload env).Moves (Textual path) := by
  intro world
  unfold createContainerWorkload
  split
  · exact Textual.of_files rfl
  · exact Textual.of_files rfl
  · have made : Textual path world (world.withSys (createEnvFile env world.config world.sys).2) := by
      intro none
      unfold createEnvFile
      split
      · exact none
      · exact setContents_textual none
    dsimp only
    split
    · exact made
    · exact fun none => setContents_textual (made none)

theorem vmLaunch_textual : (vmLaunch env).Moves (Textual path) := by
  intro world
  unfold vmLaunch
  dsimp only
  split
  · exact Textual.of_files rfl
  · split
    · exact Textual.of_files rfl
    · next config args _ pid _ =>
      intro none
      change NoDocument path (vmWait env _ _).2
      unfold vmWait
      split
      · split
        · exact none
        · split
          · unfold createPidfile
            split
            · exact none
            · exact setContents_textual none
          · exact none
      · exact none

theorem launchContainer_textual (failed : ¬ (launchContainer env).Succeeds world) :
    Textual path world (launchContainer env world).state := by
  unfold Action.Succeeds launchContainer at failed
  unfold launchContainer
  dsimp only at failed ⊢
  split at failed
  · exact Textual.of_files rfl
  · next created _ =>
    let stamped := (world.withStatus .created).withSys world.sys.tick
    by_cases launched : (vmLaunch env).Succeeds stamped
    · rw [Action.andThen_of_succeeds launched] at failed ⊢
      intro none document
      rw [(stateFileCreate_refused env failed).2]
      exact vmLaunch_textual stamped none document
    · rw [Action.andThen_of_stops launched]
      exact vmLaunch_textual stamped

theorem buildContainer_textual
    (failed : ¬ (buildContainer env).Succeeds world ∨ world.config.dryRunMode = true) :
    Textual path world (buildContainer env world).state := by
  have prepared : (prepareContainer env).Moves (Textual path) :=
    Textual.andThen handleMounts_textual createContainerWorkload_textual
  have mode := (prepareContainer_grows env world).dryRun
  by_cases ready : (prepareContainer env).Succeeds world
  · rw [buildContainer, Action.Succeeds, Action.andThen_of_succeeds ready, mode] at failed
    rw [buildContainer, Action.andThen_of_succeeds ready, mode]
    cases dry : world.config.dryRunMode with
    | true => exact prepared world
    | false =>
      simp only [dry, Bool.false_eq_true, ↓reduceIte, or_false] at failed ⊢
      have unlaunched : ¬ (launchContainer env).Succeeds (prepareContainer env world).state := by
        intro launched
        rw [Action.andThen_of_succeeds launched] at failed
        exact failed rfl
      rw [Action.andThen_of_stops unlaunched]
      exact fun none => launchContainer_textual unlaunched (prepared world none)
  · rw [buildContainer, Action.andThen_of_stops ready]
    exact prepared world

theorem buildContainer_hypervisor (real : world.config.dryRunMode = false)
    (ok : (buildContainer env).Succeeds world) :
    (buildContainer env world).state.sys.hypervisor? path =
      some ⟨(buildContainer env world).state.config.state.workloadPid, []⟩ := by
  obtain ⟨ready, rest⟩ := Action.andThen_succeeds_iff.mp ok
  have mode := (prepareContainer_grows env world).dryRun.trans real
  rw [buildContainer, Action.andThen_of_succeeds ready]
  unfold Action.Succeeds at rest
  simp only [mode, Bool.false_eq_true, ↓reduceIte] at rest ⊢
  obtain ⟨launched, _⟩ := Action.andThen_succeeds_iff.mp rest
  rw [Action.andThen_of_succeeds launched]
  have hooked := (prestartHooks_grows env
    (launchContainer env (prepareContainer env world).state).state).sys.mono
      (show [Event.Kind.hook] ⊆ [.mount, .wrote, .hook] by decide)
  exact (Sys.hypervisor?_of_adds hooked.adds).trans (launchContainer_hypervisor launched)

end Create

/-- What is known of a container between two commands: its state file is in its runtime directory,
and holds the process that was launched last. -/
structure Tracked (rootDir : Option String) (id : String) (sys : Sys) : Prop where
  dir : sys.files (statePathOf rootDir id) ≠ none → sys.dirs (runtimePath rootDir id).text = true
  state : NoDocument (statePathOf rootDir id) sys ∨
    ∃ pid status vm, Holding sys.files rootDir id pid status ∧
      sys.hypervisor? (statePathOf rootDir id) = some vm ∧ vm.pid = pid

section Tracked
variable {env : Env} {rootDir : Option String} {id : String} {sys : Sys}

theorem Tracked.of_missing (missing : sys.files (statePathOf rootDir id) = none) :
    Tracked rootDir id sys :=
  ⟨fun present => absurd missing present, Or.inl fun document => by rw [missing]; exact nofun⟩

theorem Tracked.of_same {after : Sys} (tracked : Tracked rootDir id sys)
    (files : after.files = sys.files) (trace : after.trace = sys.trace)
    (dirs : ∀ path, sys.dirs path = true → after.dirs path = true) : Tracked rootDir id after := by
  refine ⟨fun present => dirs _ (tracked.dir (files ▸ present)), ?_⟩
  rw [NoDocument, Sys.hypervisor?, files, trace]
  exact tracked.state

/-- A creation leaves everything that is followed here as it was, or no state file, or a container
whose hypervisor has been sent nothing. -/
def Fresh (rootDir : Option String) (id : String) (before after : Sys) : Prop :=
  after.files = before.files ∧ after.trace = before.trace ∨
    NoDocument (statePathOf rootDir id) after ∨
    ∃ pid, Holding after.files rootDir id pid .created ∧
      after.hypervisor? (statePathOf rootDir id) = some ⟨pid, []⟩

theorem clrOciCreate_unclaimed {world : World} (tracked : Tracked rootDir id world.sys)
    (refused : ¬ (claimContainer env).Succeeds world) :
    Tracked rootDir id (clrOciCreate env world).state.sys ∧
      Fresh rootDir id world.sys (clrOciCreate env world).state.sys := by
  obtain ⟨files, trace⟩ := claimContainer_frame env world
  rw [clrOciCreate, Action.andThen_of_stops refused]
  exact ⟨tracked.of_same files trace (claimContainer_grows env world).sys.dirs,
    Or.inl ⟨files, trace⟩⟩

/-- A creation that gets anywhere has found no state file, and keeps the runtime directory. -/
theorem clrOciCreate_claimed {world : World} (tracked : Tracked rootDir id world.sys)
    (named : world.config.optargContainerId = some id) (root : world.config.rootDir = rootDir)
    (unset : world.config.state.runtimePath.isSet = false)
    (claimed : (claimContainer env).Succeeds world) :
    NoDocument (statePathOf rootDir id) (claimContainer env world).state.sys ∧
      (clrOciCreate env world).state.sys.dirs (runtimePath rootDir id).text = true := by
  have placed := (claimContainer_placed claimed unset named).1
  rw [root] at placed
  have unmade := claimContainer_unmade claimed
  rw [placed] at unmade
  constructor
  · intro document
    rw [(claimContainer_frame env world).1]
    intro present
    have there := tracked.dir (by rw [present]; exact nofun)
    rw [unmade] at there
    cases there
  · have kept := clrOciCreate_keeps_runtimeDir claimed
    have grown := buildContainer_grows env (claimContainer env world).state
    have set := (claimContainer_made claimed).1
    rw [clrOciCreate, Action.andThen_of_succeeds claimed] at kept ⊢
    dsimp only at kept
    rwa [grown.runtimePath set, placed] at kept

theorem handleCommandSetup_sys (env : Env) (data : StartData) (argv : List String) (world : World) :
    (handleCommandSetup env data argv world).state.sys = world.sys := by
  unfold handleCommandSetup
  split
  · rfl
  · dsimp only
    split <;> rfl

inductive ContainerCommand where
  | create (data : StartData) (rest : List String)
  | given (invocation : Invocation)

def ContainerCommand.perform (env : Env) (rootDir : Option String) (id : String) (sys : Sys) :
    ContainerCommand → Sys
  | .create data rest =>
    (handlerCreate env data (id :: rest) ⟨Config.fresh rootDir, sys⟩).state.sys
  | .given invocation => invocation.perform env rootDir id sys

theorem handlerCreate_tracked (tracked : Tracked rootDir id sys) (data : StartData)
    (rest : List String) :
    Tracked rootDir id ((ContainerCommand.create data rest).perform env rootDir id sys) ∧
      Fresh rootDir id sys ((ContainerCommand.create data rest).perform env rootDir id sys) := by
  simp only [ContainerCommand.perform]
  have same := handleCommandSetup_sys env data (id :: rest) ⟨Config.fresh rootDir, sys⟩
  by_cases set : (handleCommandSetup env data (id :: rest)).Succeeds ⟨Config.fresh rootDir, sys⟩
  · have whole : handlerCreate env data (id :: rest) ⟨Config.fresh rootDir, sys⟩ =
        clrOciCreate env (handleCommandSetup env data (id :: rest) ⟨Config.fresh rootDir, sys⟩).state :=
      Action.andThen_of_succeeds set
    have created (real : data.dryRunMode = false)
        (ok : (handlerCreate env data (id :: rest)).Succeeds ⟨Config.fresh rootDir, sys⟩) :=
      handlerCreate_created real ok
    have cases' := handleCommandSetup_cases set
    unfold Action.Succeeds at created
    rw [whole] at created ⊢
    dsimp only at cases'
    generalize (handleCommandSetup env data (id :: rest) ⟨Config.fresh rootDir, sys⟩).state = world at *
    change world.sys = sys at same
    rw [← same] at tracked ⊢
    by_cases claimed : (claimContainer env).Succeeds world
    · rcases cases' with usage | ⟨_, _, named, root, state, mode, _⟩
      · -- After the usage there is no bundle to create a container from.
        obtain ⟨parsed, _⟩ := Action.andThen_succeeds_iff.mp claimed
        rw [usage] at parsed
        cases configFileParse_bundle parsed
      · obtain ⟨none, dir⟩ := clrOciCreate_claimed tracked named root (by rw [state]; decide) claimed
        have built : clrOciCreate env world = buildContainer env (claimContainer env world).state :=
          Action.andThen_of_succeeds claimed
        have dry := (claimContainer_grows env world).dryRun.trans mode
        rw [built] at created dir ⊢
        by_cases ready : (buildContainer env).Succeeds (claimContainer env world).state ∧
            data.dryRunMode = false
        · obtain ⟨_, _, root', _, inputs, container, stored, name, _⟩ := created ready.2 ready.1
          have holding : Holding _ rootDir id _ .created :=
            ⟨_, inputs, stored, root', name, rfl, container.status⟩
          have launched : Sys.hypervisor? (statePathOf rootDir id) _ = _ :=
            buildContainer_hypervisor (dry.trans ready.2) ready.1
          exact ⟨⟨fun _ => dir, Or.inr ⟨_, _, _, holding, launched, rfl⟩⟩,
            Or.inr (Or.inr ⟨_, holding, launched⟩)⟩
        · have unlaunched : ¬ (buildContainer env).Succeeds (claimContainer env world).state ∨
              (claimContainer env world).state.config.dryRunMode = true := by
            rw [dry]
            by_contra others
            rw [not_or, not_not, Bool.not_eq_true] at others
            exact ready others
          have absent := buildContainer_textual unlaunched none
          exact ⟨⟨fun _ => dir, Or.inl absent⟩, Or.inr (Or.inl absent)⟩
    · exact clrOciCreate_unclaimed tracked claimed
  · rw [handlerCreate, Action.andThen_of_stops set, same]
    exact ⟨tracked, Or.inl ⟨rfl, rfl⟩⟩

theorem fetch_of_noDocument (none : NoDocument (statePathOf rootDir id) sys) :
    fetch rootDir id sys = Option.none := by
  have read : stateFileRead sys.files (statePathOf rootDir id) = Option.none := by
    unfold stateFileRead jsonParseFile
    cases held : sys.files (statePathOf rootDir id) with
    | none => rfl
    | some content =>
      cases content with
      | json document => exact absurd held (none document)
      | text value => rfl
  rw [fetch, getConfigAndState_eq rfl, Config.setContainerId_rootDir]
  change (stateFileRead sys.files (statePathOf rootDir id)).bind _ = Option.none
  rw [read, Option.bind_none]

theorem statusAt_of_noDocument (none : NoDocument (statePathOf rootDir id) sys) :
    statusAt sys.files (statePathOf rootDir id) = Option.none := by
  unfold statusAt
  cases held : sys.files (statePathOf rootDir id) with
  | none => rfl
  | some content =>
    cases content with
    | json document => exact absurd held (none document)
    | text value => rfl

def signalsTo (pid : GPid) (marks : List Mark) : List Int32 :=
  marks.filterMap fun
    | .signal other signum => if pid = other then some signum else none
    | _ => none

theorem foldl_follow {marks : List Mark} (silent : ∀ pid, .launch pid ∉ marks) (vm : Hypervisor) :
    marks.foldl Hypervisor.follow (some vm) =
      some ⟨vm.pid, vm.signals ++ signalsTo vm.pid marks⟩ := by
  induction marks generalizing vm with
  | nil => simp [signalsTo]
  | cons mark rest ih =>
    have others := ih fun pid member => silent pid (List.mem_cons_of_mem mark member)
    rw [List.foldl_cons]
    cases mark with
    | launch pid => exact absurd List.mem_cons_self (silent pid)
    | status status => exact others vm
    | signal pid signum =>
      by_cases same : vm.pid = pid
      · simp only [Hypervisor.follow, Option.map_some, if_pos same, others]
        simp [signalsTo, same]
      · simp only [Hypervisor.follow, Option.map_some, if_neg same, others]
        simp [signalsTo, same]

theorem marks_unlaunched (invocation : Invocation) (fetched : Fetched) (pid : GPid) :
    .launch pid ∉ invocation.marks env rootDir id fetched sys := by
  unfold Invocation.marks startMarks toggleMarks killMarks
  dsimp only
  split
  · exact List.not_mem_nil
  · split
    · split
      · exact List.not_mem_nil
      · split
        · split <;> simp
        · exact List.not_mem_nil
    · split <;> simp
    · split
      · exact List.not_mem_nil
      · split
        · split <;> split <;> simp
        · exact List.not_mem_nil

theorem Leaves.hypervisor? {invocation : Invocation} {fetched : Fetched} {after : Sys} {vm : Hypervisor}
    (leaves : Leaves rootDir id vm.pid (invocation.marks env rootDir id fetched sys) sys after)
    (launched : sys.hypervisor? (statePathOf rootDir id) = some vm) :
    after.hypervisor? (statePathOf rootDir id) = some
      ⟨vm.pid, vm.signals ++ signalsTo vm.pid (invocation.marks env rootDir id fetched sys)⟩ := by
  rw [Sys.hypervisor?_of_marks leaves.trace, launched]
  exact foldl_follow (marks_unlaunched invocation fetched) vm

theorem Tracked.perform (sequential : env.Sequential) (tracked : Tracked rootDir id sys)
    (invocation : Invocation) : Tracked rootDir id (invocation.perform env rootDir id sys) := by
  cases got : fetch rootDir id sys with
  | none =>
    rw [Invocation.perform_of_missing got]
    exact tracked
  | some fetched =>
    rcases tracked.state with none | ⟨pid, status, vm, holding, launched, rfl⟩
    · rw [fetch_of_noDocument none] at got
      cases got
    have leaves := invocation.perform_leaves holding got sequential
    refine ⟨fun present => ?_, ?_⟩
    · rw [leaves.dirs.resolve_left present]
      refine tracked.dir fun missing => ?_
      have held := holding.statusAt
      rw [statusAt, missing] at held
      cases held
    · rcases leaves.left status holding with gone | held
      · exact (Tracked.of_missing gone).state
      · exact Or.inr ⟨_, _, _, held, leaves.hypervisor? launched, rfl⟩

end Tracked

end ClrOci
