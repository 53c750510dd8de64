import ClrOci.Bystander
import ClrOci.DryRun
import ClrOci.Foundation.Components

/-! The runtime as a registry of containers.

What the runtime keeps between two commands is abstractly a table: for each identifier nothing, or a
process and a status. A command moves the entry of its own container along a few edges and leaves
the others alone. The files of the runtime simulate this table, whatever the outcomes of the calls.
-/

set_option autoImplicit false

namespace ClrOci

open Foundation

structure Entry where
  pid : GPid
  status : Status
  deriving DecidableEq

inductive Advance : Option Entry → RuntimeCommand → Option Entry → Prop where
  -- Any command may fail or be refused.
  | idle (entry : Option Entry) (command : RuntimeCommand) : Advance entry command entry
  | create (pid : GPid) (data : StartData) (rest : List String) :
      data.dryRunMode = false → Advance none (.create data rest) (some ⟨pid, .created⟩)
  | run (pid : GPid) (status : Status) (data : StartData) (rest : List String) :
      data.dryRunMode = false → status = .created ∨ status = .running →
      Advance none (.run data rest) (some ⟨pid, status⟩)
  | start (pid : GPid) (data : StartData) (rest : List String) :
      Advance (some ⟨pid, .created⟩) (.given ⟨.start data, rest⟩) (some ⟨pid, .running⟩)
  -- A start that waits for the VM cleans up after it.
  | ended (pid : GPid) (data : StartData) (rest : List String) :
      Advance (some ⟨pid, .created⟩) (.given ⟨.start data, rest⟩) none
  | toggle (pid : GPid) (status : Status) (pause : Bool) (rest : List String) :
      Advance (some ⟨pid, status⟩) (.given ⟨.toggle pause, rest⟩) (some ⟨pid, toggleDest pause⟩)
  | kill (pid : GPid) (found status : Status) (rest : List String) :
      status = .stopping ∨ status = .stopped →
      Advance (some ⟨pid, found⟩) (.given ⟨.kill, rest⟩) (some ⟨pid, status⟩)
  | stop (entry : Entry) (rest : List String) : Advance (some entry) (.stop rest) none

structure Recorded (rootDir : Option String) (id : String) (sys : Sys) (entry : Option Entry) : Prop where
  dir : sys.files (statePathOf rootDir id) ≠ none → sys.dirs (runtimePath rootDir id).text = true
  absent : entry = none → NoDocument (statePathOf rootDir id) sys
  present : ∀ held, entry = some held → Holding sys.files rootDir id held.pid held.status

section Recorded
variable {env : Env} {rootDir : Option String} {id : String} {sys after : Sys} {entry : Option Entry}

theorem Recorded.of_none (dir : sys.files (statePathOf rootDir id) ≠ none →
      sys.dirs (runtimePath rootDir id).text = true) (blank : NoDocument (statePathOf rootDir id) sys) :
    Recorded rootDir id sys none :=
  ⟨dir, fun _ => blank, fun _ there => by cases there⟩

theorem Recorded.of_missing (missing : sys.files (statePathOf rootDir id) = none) :
    Recorded rootDir id sys none := by
  refine .of_none (fun present => absurd missing present) fun document held => ?_
  rw [missing] at held
  cases held

theorem Recorded.of_holding {pid : GPid} {status : Status}
    (dir : sys.files (statePathOf rootDir id) ≠ none → sys.dirs (runtimePath rootDir id).text = true)
    (holding : Holding sys.files rootDir id pid status) : Recorded rootDir id sys (some ⟨pid, status⟩) := by
  refine ⟨dir, fun there => (by cases there), fun held same => ?_⟩
  cases same
  exact holding

theorem Holding.file_present {pid : GPid} {status : Status}
    (holding : Holding sys.files rootDir id pid status) : sys.files (statePathOf rootDir id) ≠ none := by
  intro missing
  have held := holding.statusAt
  rw [ClrOci.statusAt, missing] at held
  cases held

/-- A step that spares the files of a container leaves its entry as it was. -/
theorem Recorded.of_spares (recorded : Recorded rootDir id sys entry)
    (spares : sys.Spares (statePathOf rootDir id) (runtimePath rootDir id).text after) :
    Recorded rootDir id after entry := by
  refine ⟨fun present => ?_, fun unrecorded document => ?_, fun held same => ?_⟩
  · rw [spares.file] at present
    exact spares.dir (recorded.dir present)
  · rw [spares.file]
    exact recorded.absent unrecorded document
  · exact (recorded.present held same).of_same spares.file

theorem Recorded.of_grown (recorded : Recorded rootDir id sys entry) (files : after.files = sys.files)
    (dirs : ∀ path, sys.dirs path = true → after.dirs path = true) : Recorded rootDir id after entry :=
  recorded.of_spares ⟨congrFun files _, dirs _⟩

theorem Recorded.of_leaves {pid : GPid} {status : Status} {marks : List Mark}
    (recorded : Recorded rootDir id sys (some ⟨pid, status⟩))
    (leaves : Leaves rootDir id pid marks sys after) :
    Recorded rootDir id after none ∨
      Recorded rootDir id after (some ⟨pid, (statuses marks).getLastD status⟩) := by
  have holding := recorded.present _ rfl
  rcases leaves.left status holding with gone | held
  · exact Or.inl (.of_missing gone)
  · refine Or.inr (.of_holding (fun present => ?_) held)
    rw [leaves.dirs.resolve_left present]
    exact recorded.dir holding.file_present

theorem Recorded.of_puts {pid : GPid} {status : Status} {marks : List Mark}
    (recorded : Recorded rootDir id sys (some ⟨pid, status⟩))
    (puts : Puts rootDir id pid marks sys after) :
    Recorded rootDir id after (some ⟨pid, (statuses marks).getLastD status⟩) := by
  have holding := recorded.present _ rfl
  refine .of_holding (fun _ => ?_) (puts.held status holding)
  rw [puts.dirs]
  exact recorded.dir holding.file_present

end Recorded

section Commands
variable {env : Env} {rootDir : Option String} {id : String} {sys : Sys} {entry : Option Entry}

/-- What a command given to a container finds, and the entry it is found under. -/
theorem Recorded.fetched (recorded : Recorded rootDir id sys entry) {fetched : Fetched}
    (got : fetch rootDir id sys = some fetched) :
    entry = some ⟨fetched.state.pid, fetched.state.status⟩ := by
  cases entry with
  | none =>
    rw [fetch_of_noDocument (recorded.absent rfl)] at got
    cases got
  | some held =>
    obtain ⟨status, pid, _⟩ := (recorded.present held rfl).fetched got
    rw [status, pid]

theorem getLastD_toggleMarks (dest found : Status) (accepted written : Bool) :
    (statuses (toggleMarks dest found accepted written)).getLastD found =
      if found ≠ dest ∧ accepted ∧ written then dest else found := by
  unfold toggleMarks
  split <;> rfl

theorem getLastD_killMarks (pid : GPid) (signum : Int32) (found : Status) (stopping sent last : Bool) :
    (statuses (killMarks pid signum found stopping sent last)).getLastD found =
      if stopping then if last then if sent then .stopped else found else .stopping else found := by
  cases stopping <;> cases sent <;> cases last <;> rfl

theorem getLastD_startMarks (pid : GPid) (found : Status) (sent written : Bool) :
    (statuses (startMarks pid sent written)).getLastD found =
      if sent && written then .running else found := by
  cases sent <;> cases written <;> rfl

theorem Invocation.perform_advances (sequential : env.Sequential)
    (recorded : Recorded rootDir id sys entry) (invocation : Invocation) :
    ∃ next, Advance entry (.given invocation) next ∧
      Recorded rootDir id (invocation.perform env rootDir id sys) next := by
  cases got : fetch rootDir id sys with
  | none =>
    rw [Invocation.perform_of_missing got]
    exact ⟨entry, .idle entry _, recorded⟩
  | some fetched =>
    obtain rfl := recorded.fetched got
    have holding := recorded.present _ rfl
    by_cases usage : id = "--help" ∨ id = "-h"
    · rw [Invocation.perform_of_usage usage]
      exact ⟨_, .idle _ _, recorded⟩
    obtain ⟨command, rest⟩ := invocation
    cases command with
    | start data =>
      have leaves := Invocation.perform_leaves ⟨.start data, rest⟩ holding got sequential
      by_cases created : fetched.state.status = .created
      · rw [created] at recorded ⊢
        rcases recorded.of_leaves leaves with gone | kept
        · exact ⟨none, .ended _ data rest, gone⟩
        · refine ⟨_, ?_, kept⟩
          simp only [Invocation.marks, if_neg usage, created, ne_eq, not_true_eq_false, ↓reduceIte,
            getLastD_startMarks]
          split
          · exact .start _ data rest
          · exact .idle _ _
      · -- A container in any other status is not started.
        rw [Invocation.perform_of_found got usage]
        dsimp only
        rw [clrOciStart, if_pos created]
        exact ⟨_, .idle _ _, recorded⟩
    | toggle pause =>
      have puts : Puts rootDir id _ _ sys (Invocation.perform env rootDir id sys ⟨.toggle pause, rest⟩) :=
        Invocation.perform_puts ⟨.toggle pause, rest⟩ holding got fun _ other => by cases other
      refine ⟨_, ?_, recorded.of_puts puts⟩
      simp only [Invocation.marks, if_neg usage, getLastD_toggleMarks]
      split
      · exact .toggle _ _ pause rest
      · exact .idle _ _
    | kill =>
      have puts : Puts rootDir id _ _ sys (Invocation.perform env rootDir id sys ⟨.kill, rest⟩) :=
        Invocation.perform_puts ⟨.kill, rest⟩ holding got fun _ other => by cases other
      refine ⟨_, ?_, recorded.of_puts puts⟩
      simp only [Invocation.marks, if_neg usage]
      cases killSignum (id :: rest) with
      | none => exact .idle _ _
      | some signum =>
        simp only [getLastD_killMarks]
        split
        · split
          · split
            · exact .kill _ _ _ rest (Or.inr rfl)
            · exact .idle _ _
          · exact .kill _ _ _ rest (Or.inl rfl)
        · exact .idle _ _

/-- What only deletes files, and directories after the state file, keeps the entry or drops it. -/
theorem Recorded.of_deletes {after : Sys} (recorded : Recorded rootDir id sys entry)
    (deletes : Deletes (statePathOf rootDir id) sys after) :
    Recorded rootDir id after none ∨ Recorded rootDir id after entry := by
  by_cases gone : after.files (statePathOf rootDir id) = none
  · exact Or.inl (.of_missing gone)
  · refine Or.inr (recorded.of_spares ⟨(deletes.files _).resolve_right gone, ?_⟩)
    rw [deletes.dirs.resolve_left gone]
    exact fun made => made

theorem clrOciStop_deletes (state : OciState) (world : World)
    (path : world.config.state.stateFilePath.text = statePathOf rootDir id) :
    Deletes (statePathOf rootDir id) world.sys (clrOciStop env state world).state.sys := by
  obtain ⟨clock, same⟩ := vmDown_state env state world
  have down : Deletes (statePathOf rootDir id) world.sys (vmDown env state world).state.sys := by
    rw [same]
    exact Deletes.of_same rfl rfl
  rw [clrOciStop]
  by_cases ok : (vmDown env state).Succeeds world
  · rw [Action.andThen_of_succeeds ok]
    refine down.trans ?_
    rw [same]
    have cleaned := cleanup_deletes env (world.withSys { world.sys with clock := clock })
    rw [show (world.withSys { world.sys with clock := clock }).config = world.config from rfl, path] at cleaned
    unfold cleanupThenHooks
    dsimp only
    split
    · obtain ⟨files, dirs, _⟩ := runHooks_frame env
        (cleanup env (world.withSys { world.sys with clock := clock })).state.config.oci.hooks.poststop
        (cleanup env (world.withSys { world.sys with clock := clock })).state.config.state.stateFilePath.text
        false (cleanup env (world.withSys { world.sys with clock := clock })).state.sys
      exact cleaned.trans (Deletes.of_same files dirs)
    · exact cleaned
  · rw [Action.andThen_of_stops ok]
    exact down

theorem handleCommandStop_advances (recorded : Recorded rootDir id sys entry) (rest : List String) :
    ∃ next, Advance entry (.stop rest) next ∧
      Recorded rootDir id ((RuntimeCommand.stop rest).perform env rootDir id sys) next := by
  let world : World := ⟨Config.fresh rootDir, sys⟩
  have idle : ∀ after : Sys, after = sys →
      ∃ next, Advance entry (.stop rest) next ∧ Recorded rootDir id after next :=
    fun after same => ⟨entry, .idle entry _, by rw [same]; exact recorded⟩
  simp only [RuntimeCommand.perform]
  cases asked : handleDefaultUsage (id :: rest) with
  | some ret =>
    simp only [handleCommandStop, asked]
    exact idle _ rfl
  | none =>
    cases present : sys.files (world.statePath id) with
    | none =>
      rw [handleCommandStop_of_missing asked present]
      exact idle _ rfl
    | some content =>
      rw [handleCommandStop_of_present asked present]
      dsimp only
      cases got : world.fetch id with
      | none => exact idle _ rfl
      | some fetched =>
        dsimp only
        split
        · exact idle _ rfl
        · next root _ =>
          obtain ⟨stopping, _, state, run⟩ := stopFetched_eq env fetched root
            ⟨(world.config.setContainerId (some id)).placed id, world.sys⟩
          rw [run]
          have deletes : Deletes (statePathOf rootDir id) sys
              (clrOciStop env fetched.state ⟨stopping, sys⟩).state.sys :=
            clrOciStop_deletes fetched.state ⟨stopping, sys⟩
              (congrArg Buffer.text
                ((congrArg ContainerState.stateFilePath state).trans (World.fetch_paths got).2))
          obtain rfl := recorded.fetched got
          rcases recorded.of_deletes deletes with gone | kept
          · exact ⟨none, .stop _ rest, gone⟩
          · exact ⟨_, .idle _ _, kept⟩

/-- A creation that succeeds, and not only on paper, has found no entry; any other one leaves the
entry as it was. -/
theorem handlerCreate_recorded (recorded : Recorded rootDir id sys entry) (data : StartData)
    (rest : List String) :
    let created := handlerCreate env data (id :: rest) ⟨Config.fresh rootDir, sys⟩
    if created.exit = .returned true ∧ data.dryRunMode = false then
      entry = none ∧ created.state.sys.dirs (runtimePath rootDir id).text = true
    else Recorded rootDir id created.state.sys entry := by
  intro created
  have same := handleCommandSetup_sys env data (id :: rest) ⟨Config.fresh rootDir, sys⟩
  by_cases set : (handleCommandSetup env data (id :: rest)).Succeeds ⟨Config.fresh rootDir, sys⟩
  · have whole : created = clrOciCreate env
        (handleCommandSetup env data (id :: rest) ⟨Config.fresh rootDir, sys⟩).state :=
      Action.andThen_of_succeeds set
    have cases' := handleCommandSetup_cases set
    rw [whole]
    dsimp only at cases'
    generalize (handleCommandSetup env data (id :: rest) ⟨Config.fresh rootDir, sys⟩).state = world at *
    change world.sys = sys at same
    subst same
    by_cases claimed : (claimContainer env).Succeeds world
    · rcases cases' with usage | ⟨_, _, named, root, state, mode, _⟩
      · -- After the usage there is no bundle to create a container from.
        obtain ⟨parsed, _⟩ := Action.andThen_succeeds_iff.mp claimed
        rw [usage] at parsed
        cases configFileParse_bundle parsed
      · have placed := (claimContainer_placed claimed (by rw [state]; decide) named).1
        rw [root] at placed
        have unmade := claimContainer_unmade claimed
        have kept := clrOciCreate_keeps_runtimeDir claimed
        rw [placed] at unmade
        have missing : world.sys.files (statePathOf rootDir id) = none := by
          by_contra present
          rw [recorded.dir present] at unmade
          cases unmade
        have absent : NoDocument (statePathOf rootDir id) (claimContainer env world).state.sys := by
          intro document held
          rw [(claimContainer_frame env world).1, missing] at held
          cases held
        have free : entry = none := by
          cases entry with
          | none => rfl
          | some held => exact absurd missing (recorded.present held rfl).file_present
        have grown := buildContainer_grows env (claimContainer env world).state
        have dry := (claimContainer_grows env world).dryRun.trans mode
        rw [clrOciCreate, Action.andThen_of_succeeds claimed] at kept ⊢
        dsimp only at kept
        rw [grown.runtimePath (claimContainer_made claimed).1, placed] at kept
        split
        · exact ⟨free, kept⟩
        · next failed =>
          rw [free]
          refine .of_none (fun _ => kept) (buildContainer_textual ?_ absent)
          rw [dry]
          by_contra others
          rw [not_or, not_not, Bool.not_eq_true] at others
          exact failed others
    · have files := (claimContainer_frame env world).1
      have grown := (claimContainer_grows env world).sys.dirs
      rw [clrOciCreate, Action.andThen_of_stops claimed, if_neg fun ok => claimed ok.1]
      exact recorded.of_grown files grown
  · have whole : created = handleCommandSetup env data (id :: rest) ⟨Config.fresh rootDir, sys⟩ :=
      Action.andThen_of_stops set
    rw [whole, if_neg fun ok => set ok.1, same]
    exact recorded

/-- What a creation that succeeded leaves for a start: the state file, and the configuration it is from. -/
theorem handlerCreate_begun {data : StartData} {rest : List String} (real : data.dryRunMode = false)
    (made : (handlerCreate env data (id :: rest)).Succeeds ⟨Config.fresh rootDir, sys⟩)
    (dir : (handlerCreate env data (id :: rest) ⟨Config.fresh rootDir, sys⟩).state.sys.dirs
      (runtimePath rootDir id).text = true) :
    let world := (handlerCreate env data (id :: rest) ⟨Config.fresh rootDir, sys⟩).state
    ∃ inputs, Created world inputs ∧ Stored world.sys.files world.config inputs ∧
      world.config.Fit rootDir id world.config.state.workloadPid (recalled world.config inputs).createTime ∧
      Recorded rootDir id world.sys (some ⟨world.config.state.workloadPid, .created⟩) := by
  obtain ⟨_, _, root, _, inputs, container, stored, named, _⟩ := handlerCreate_created real made
  generalize (handlerCreate env data (id :: rest) ⟨Config.fresh rootDir, sys⟩).state = world at *
  have holding : Holding world.sys.files rootDir id world.config.state.workloadPid .created :=
    ⟨_, inputs, stored, root, named, rfl, container.status⟩
  refine ⟨inputs, container, stored, ⟨root, ?_, ?_, rfl, inputs, container.given⟩,
    .of_holding (fun _ => dir) holding⟩
  · rw [← named]
    exact (stateInputs_eq_some_iff.mp container.given).2.1
  · rw [stored.placed, named, root]

theorem handlerCreate_advances (recorded : Recorded rootDir id sys entry) (data : StartData)
    (rest : List String) :
    ∃ next, Advance entry (.create data rest) next ∧
      Recorded rootDir id ((RuntimeCommand.create data rest).perform env rootDir id sys) next := by
  have created := @handlerCreate_recorded env rootDir id sys entry recorded data rest
  dsimp only at created
  split at created
  · next done =>
    obtain ⟨rfl, dir⟩ := created
    obtain ⟨_, _, _, _, begun⟩ := handlerCreate_begun done.2 done.1 dir
    exact ⟨_, .create _ data rest done.2, begun⟩
  · exact ⟨entry, .idle entry _, created⟩

theorem handlerRun_dry {data : StartData} (dry : data.dryRunMode = true) (rest : List String) :
    (handlerRun env data (id :: rest) ⟨Config.fresh rootDir, sys⟩).state =
      (handlerCreate env data (id :: rest) ⟨Config.fresh rootDir, sys⟩).state := by
  by_cases set : (handleCommandSetup env data (id :: rest)).Succeeds ⟨Config.fresh rootDir, sys⟩
  · have cases' := handleCommandSetup_cases set
    rw [handlerRun, handlerCreate, Action.andThen_of_succeeds set, Action.andThen_of_succeeds set]
    dsimp only at cases'
    generalize (handleCommandSetup env data (id :: rest) ⟨Config.fresh rootDir, sys⟩).state = world at *
    rcases cases' with usage | ⟨_, _, _, _, state, mode, _⟩
    · have unclaimed : ¬ (clrOciCreate env).Succeeds world := by
        intro made
        obtain ⟨claimed, _⟩ := Action.andThen_succeeds_iff.mp made
        obtain ⟨parsed, _⟩ := Action.andThen_succeeds_iff.mp claimed
        rw [usage] at parsed
        cases configFileParse_bundle parsed
      rw [clrOciRun, Action.andThen_of_stops unclaimed]
    · have plain : world = dryWorld world.config world.sys := by
        obtain ⟨config, sys⟩ := world
        dsimp only at state mode
        rw [dryWorld, ← state, ← dry, ← mode]
      have same := (dryRun_eq env data world.config world.sys).2
      rwa [← plain] at same
  · rw [handlerRun, handlerCreate, Action.andThen_of_stops set, Action.andThen_of_stops set]

theorem handlerRun_advances (sequential : env.Sequential) (recorded : Recorded rootDir id sys entry)
    (data : StartData) (rest : List String) :
    ∃ next, Advance entry (.run data rest) next ∧
      Recorded rootDir id ((RuntimeCommand.run data rest).perform env rootDir id sys) next := by
  have created := @handlerCreate_recorded env rootDir id sys entry recorded data rest
  dsimp only at created
  simp only [RuntimeCommand.perform]
  split at created
  · next done =>
    obtain ⟨rfl, dir⟩ := created
    obtain ⟨inputs, container, stored, fit, begun⟩ := handlerCreate_begun done.2 done.1 dir
    rw [handlerRun_eq, Action.andThen_of_succeeds done.1, runCreated_eq env container data stored]
    generalize (handlerCreate env data (id :: rest) ⟨Config.fresh rootDir, sys⟩).state = made at *
    have leaves := clrOciStart_leaves env made.sys { data with bundle := none } fit container.status sequential
    rcases begun.of_leaves leaves with gone | kept
    · exact ⟨none, .idle _ _, gone⟩
    · refine ⟨_, .run _ _ data rest done.2 ?_, kept⟩
      rw [getLastD_startMarks]
      split
      · exact Or.inr rfl
      · exact Or.inl rfl
  · next failed =>
    refine ⟨entry, .idle entry _, ?_⟩
    by_cases ok : (handlerCreate env data (id :: rest)).Succeeds ⟨Config.fresh rootDir, sys⟩
    · have dry : data.dryRunMode = true := by
        by_contra real
        exact failed ⟨ok, Bool.eq_false_iff.mpr real⟩
      rw [handlerRun_dry dry]
      exact created
    · rw [handlerRun_eq, Action.andThen_of_stops ok]
      exact created

theorem RuntimeCommand.perform_advances (sequential : env.Sequential)
    (recorded : Recorded rootDir id sys entry) (command : RuntimeCommand) :
    ∃ next, Advance entry command next ∧ Recorded rootDir id (command.perform env rootDir id sys) next := by
  cases command with
  | create data rest => exact handlerCreate_advances recorded data rest
  | run data rest => exact handlerRun_advances sequential recorded data rest
  | given invocation => exact Invocation.perform_advances sequential recorded invocation
  | stop rest => exact handleCommandStop_advances recorded rest

end Commands

abbrev Registry := String → Option Entry

def Represents (rootDir : Option String) (sys : Sys) (registry : Registry) : Prop :=
  ∀ id, Proper rootDir id → Recorded rootDir id sys (registry id)

/-- A command for a proper container whose other files are no state files. -/
def Sane (env : Env) (rootDir : Option String) (sys : Sys) (input : String × RuntimeCommand) : Prop :=
  Proper rootDir input.1 ∧
    ∀ id, Proper rootDir id → statePathOf rootDir id ∉ input.2.strays env rootDir input.1 sys

section Registry
variable {env : Env} {rootDir : Option String} {sys : Sys} {registry : Registry}

theorem Represents.of_blank (blank : ∀ id, Proper rootDir id → sys.files (statePathOf rootDir id) = none) :
    Represents rootDir sys fun _ => none :=
  fun id proper => .of_missing (blank id proper)

theorem runtime_simulates (sequential : env.Sequential) :
    Simulates (act env rootDir) (Addressed Advance) (Represents rootDir) (Sane env rootDir) := by
  intro sys registry input represents sane
  obtain ⟨id, command⟩ := input
  obtain ⟨proper, clean⟩ := sane
  obtain ⟨next, advance, recorded⟩ :=
    RuntimeCommand.perform_advances sequential (represents id proper) command
  refine ⟨Function.update registry id next, ⟨?_, ?_⟩, ?_⟩
  · rw [Function.update_self]
    exact advance
  · exact fun other apart => Function.update_of_ne apart _ _
  · intro other also
    by_cases same : other = id
    · subst same
      rw [Function.update_self]
      exact recorded
    · rw [Function.update_of_ne same]
      exact (represents other also).of_spares
        (RuntimeCommand.perform_spares (proper.elsewhere also same) sequential command (clean other also))

/-- Every run of the runtime is a run of the registry: whatever the calls of the commands return, the
entry of each container is reached by the commands for it, and the state files show the entries. -/
theorem runs_follow_registry (sequential : env.Sequential) (start : Represents rootDir sys registry)
    (inputs : List (String × RuntimeCommand))
    (sane : Along (act env rootDir) (Sane env rootDir) sys inputs) :
    ∃ final : Registry, Represents rootDir (inputs.foldl (act env rootDir) sys) final ∧
      Path (Addressed Advance) registry inputs final ∧
      ∀ id, Path Advance (registry id) (addressedTo id inputs) (final id) := by
  obtain ⟨final, path, represents⟩ := (runtime_simulates sequential).run start sane
  exact ⟨final, represents, path, path.component⟩

end Registry

theorem statePathOf_apart {id other : String} (proper : Proper (some "/run") id)
    (outside : "/run/".toList.isPrefixOf other.toList = false) : statePathOf (some "/run") id ≠ other := by
  intro same
  rw [← same, proper.statePathOf_eq] at outside
  have inside : "/run/".toList <+: (rootPath (some "/run") ++ "/" ++ id ++ "/" ++ stateFileName).toList :=
    ⟨id.toList ++ ('/' :: stateFileName.toList), by simp [rootPath]⟩
  rw [List.isPrefixOf_iff_prefix.mpr inside] at outside
  cases outside

theorem bundleSys_blank : Represents (some "/run") bundleSys fun _ => none := by
  refine .of_blank fun id proper => ?_
  have apart := statePathOf_apart proper (show "/run/".toList.isPrefixOf "/bundle/config.json".toList = false
    by decide)
  simp only [bundleSys, Sys.idle, bundleFiles, if_neg apart]

def twoContainers : List (String × RuntimeCommand) :=
  [("c1", .create bundleOptions []), ("c2", .run bundleOptions []), ("c1", .given ⟨.start {}, []⟩),
    ("c1", .given ⟨.kill, ["SIGTERM"]⟩), ("c2", .stop [])]

def twoContainersSys (performed : Nat) : Sys :=
  (twoContainers.take performed).foldl (act Env.calm (some "/run")) bundleSys

theorem bundle_strays_apart {strays : List String} {id : String} (proper : Proper (some "/run") id)
    (known : strays = ["/rootfs/.dockerenv", "/rootfs/.containerexec"]) :
    statePathOf (some "/run") id ∉ strays := by
  rw [known]
  simp only [List.mem_cons, List.not_mem_nil, or_false, not_or]
  exact ⟨statePathOf_apart proper (by decide), statePathOf_apart proper (by decide)⟩

theorem twoContainers_sane :
    Along (act Env.calm (some "/run")) (Sane Env.calm (some "/run")) bundleSys twoContainers :=
  ⟨⟨proper_c1, fun id proper => bundle_strays_apart proper (by decide +kernel)⟩,
    ⟨proper_c2, fun id proper => bundle_strays_apart proper (by decide +kernel)⟩,
    ⟨proper_c1, fun _ _ => List.not_mem_nil⟩, ⟨proper_c1, fun _ _ => List.not_mem_nil⟩,
    ⟨proper_c2, fun _ _ => List.not_mem_nil⟩, trivial⟩

theorem two_containers_follow_registry :
    statusAt (twoContainersSys 4).files "/run/c1/state.json" = some .stopped ∧
      statusAt (twoContainersSys 4).files "/run/c2/state.json" = some .running ∧
      ∃ final : Registry,
        Represents (some "/run") (twoContainers.foldl (act Env.calm (some "/run")) bundleSys) final ∧
        Path (Addressed Advance) (fun _ => none) twoContainers final ∧
        ∀ id, Path Advance none (addressedTo id twoContainers) (final id) := by
  refine ⟨by decide +kernel, by decide +kernel, ?_⟩
  exact runs_follow_registry Env.calm_sequential bundleSys_blank twoContainers twoContainers_sane

section Processes
variable {env : Env} {rootDir : Option String} {sys : Sys} {registry : Registry}

theorem Holding.pid_unique {files : Files} {id : String} {pid pid' : GPid} {status status' : Status}
    (holding : Holding files rootDir id pid status) (also : Holding files rootDir id pid' status') :
    pid = pid' := by
  obtain ⟨config, inputs, stored, root, named, rfl, _⟩ := holding
  obtain ⟨config', inputs', stored', root', named', rfl, _⟩ := also
  obtain ⟨text, _, held⟩ := stored.held
  obtain ⟨text', _, held'⟩ := stored'.held
  rw [stored.placed, root, named] at held
  rw [stored'.placed, root', named'] at held'
  have documents := Option.some.inj (held.symm.trans held')
  simp only [Content.json.injEq] at documents
  have member := congrArg (fun document => Json.member? document "pid") documents
  have number : Json.int config.state.workloadPid.toUInt32.toNat =
      .int config'.state.workloadPid.toUInt32.toNat := Option.some.inj member
  rw [Json.int.injEq] at number
  have words := congrArg Int32.ofUInt32 (UInt32.toNat_inj.mp (Int.ofNat_inj.mp number))
  exact words

theorem Advance.pid {entry next : Entry} {command : RuntimeCommand}
    (advance : Advance (some entry) command (some next)) : next.pid = entry.pid := by
  cases advance <;> rfl

/-- The process of a container never changes under the same state document: between two states that name
different processes, the container has had no state file with a document in it. -/
theorem process_changes_through_absence (sequential : env.Sequential)
    (start : Represents rootDir sys registry) (inputs : List (String × RuntimeCommand))
    (sane : Along (act env rootDir) (Sane env rootDir) sys inputs) {id : String}
    (proper : Proper rootDir id) {pid pid' : GPid} {status status' : Status}
    (before : Holding sys.files rootDir id pid status)
    (after : Holding (inputs.foldl (act env rootDir) sys).files rootDir id pid' status')
    (different : pid ≠ pid') :
    ∃ early late, inputs = early ++ late ∧
      NoDocument (statePathOf rootDir id) (early.foldl (act env rootDir) sys) := by
  induction inputs generalizing sys registry status with
  | nil => exact absurd (before.pid_unique after) different
  | cons input rest ih =>
    obtain ⟨next, moved, represents⟩ := runtime_simulates sequential sys registry input start sane.1
    cases entry : next id with
    | none => exact ⟨[input], rest, rfl, (represents id proper).absent entry⟩
    | some held =>
      have holding := (represents id proper).present held entry
      have same : held.pid = pid := by
        by_cases own : id = input.1
        · have advance := moved.moves
          rw [← own, entry] at advance
          cases found : registry id with
          | none =>
            have unread := statusAt_of_noDocument ((start id proper).absent found)
            rw [before.statusAt] at unread
            cases unread
          | some first =>
            rw [found] at advance
            exact advance.pid.trans (((start id proper).present first found).pid_unique before)
        · have kept := moved.others id own
          rw [entry] at kept
          exact ((start id proper).present held kept.symm).pid_unique before
      rw [same] at holding
      obtain ⟨early, late, split, blank⟩ := ih represents sane.2 holding after
      exact ⟨input :: early, late, by rw [split]; rfl, blank⟩

end Processes

def Env.counting : Env :=
  { Env.calm with host := fun clock =>
    { Host.calm with spawn := fun _ => some (Int32.ofNat (4000 + clock)) } }

theorem Env.counting_sequential : Env.counting.Sequential := by
  intro clock files wakeup woken
  cases woken
  rfl

def createdRun (sys : Sys) : Run World :=
  handlerCreate Env.counting bundleOptions ["c1"] ⟨Config.fresh (some "/run"), sys⟩

theorem createdRun_holding {sys : Sys} (ok : (createdRun sys).exit = .returned true) :
    Holding (createdRun sys).state.sys.files (some "/run") "c1"
      (createdRun sys).state.config.state.workloadPid .created := by
  obtain ⟨_, _, root, _, inputs, container, stored, named, _⟩ :=
    handlerCreate_created (show bundleOptions.dryRunMode = false from rfl) ok
  exact ⟨_, inputs, stored, root, named, rfl, container.status⟩

theorem act_create (sys : Sys) :
    act Env.counting (some "/run") sys ("c1", .create bundleOptions []) = (createdRun sys).state.sys := rfl

def stopAndCreate : List (String × RuntimeCommand) :=
  [("c1", .stop []), ("c1", .create bundleOptions [])]

def firstContainer : Sys := (createdRun bundleSys).state.sys

def stoppedContainer : Sys := act Env.counting (some "/run") firstContainer ("c1", .stop [])

theorem firstContainer_registered :
    ∃ registry : Registry, Represents (some "/run") firstContainer registry := by
  have sane : Sane Env.counting (some "/run") bundleSys ("c1", .create bundleOptions []) :=
    ⟨proper_c1, fun id proper => bundle_strays_apart proper (by decide +kernel)⟩
  obtain ⟨registry, _, represents⟩ :=
    runtime_simulates Env.counting_sequential bundleSys _ _ bundleSys_blank sane
  rw [act_create] at represents
  exact ⟨registry, represents⟩

theorem recreated_through_absence :
    ∃ early late, stopAndCreate = early ++ late ∧
      NoDocument (statePathOf (some "/run") "c1")
        (early.foldl (act Env.counting (some "/run")) firstContainer) := by
  obtain ⟨registry, represents⟩ := firstContainer_registered
  have sane : Along (act Env.counting (some "/run")) (Sane Env.counting (some "/run")) firstContainer
      stopAndCreate :=
    ⟨⟨proper_c1, fun _ _ => List.not_mem_nil⟩,
      ⟨proper_c1, fun id proper => bundle_strays_apart proper (by decide +kernel)⟩, trivial⟩
  have first : (createdRun bundleSys).exit = .returned true := by decide +kernel
  have second : (createdRun stoppedContainer).exit = .returned true := by decide +kernel
  have recreated : stopAndCreate.foldl (act Env.counting (some "/run")) firstContainer =
      (createdRun stoppedContainer).state.sys := by
    rw [stopAndCreate, List.foldl_cons, List.foldl_cons, List.foldl_nil, act_create,
      stoppedContainer]
  have after := createdRun_holding second
  rw [← recreated] at after
  have different : (createdRun bundleSys).state.config.state.workloadPid ≠
      (createdRun stoppedContainer).state.config.state.workloadPid := by decide +kernel
  exact process_changes_through_absence Env.counting_sequential represents stopAndCreate sane proper_c1
    (createdRun_holding first) after different

end ClrOci
