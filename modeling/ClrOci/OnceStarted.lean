import ClrOci.Orphans

/-! A container is started once.

Only a container that was created and not started yet can be started, and no command makes that of it
again. So between two starts of one identifier its container has been removed.
-/

set_option autoImplicit false

namespace ClrOci

open Foundation

def RuntimeCommand.starts : RuntimeCommand → Bool
  | .run _ _ => true
  | .given invocation =>
    match invocation.command with
    | .start _ => true
    | _ => false
  | _ => false

section Started
variable {env : Env} {rootDir : Option String} {id : String} {sys : Sys} {entry : Option Entry}

theorem clrOciStart_reached {config : Config} {pid : GPid} {state : OciState} {data : StartData}
    (fit : config.Fit rootDir id pid state.createTime) (created : state.status = .created)
    (ok : (clrOciStart env data state).Succeeds ⟨config, sys⟩) :
    let host := env.host sys.clock
    ((!waits host config || host.monitor) && host.kill pid sigcont) = true ∧
      ((data.bundlePath host config.bundlePath).isSome &&
        (env.host (sys.clock + 1)).setContents (statePathOf rootDir id)) = true := by
  intro host
  rw [Action.Succeeds, clrOciStart_eq env data created] at ok
  obtain ⟨reached, _⟩ := Action.andThen_succeeds_iff.mp ok
  obtain ⟨exit, _⟩ := reachRunning_puts env sys fit (waits host config)
    (data.bundlePath host config.bundlePath)
  rw [Action.Succeeds] at reached
  have both := Exit.returned.inj (exit.symm.trans reached)
  exact Bool.and_eq_true_iff.mp both

/-- After the start of a container nothing is left of it, or it is running. -/
theorem Recorded.of_started {pid : GPid} {after : Sys} {found : Status}
    (recorded : Recorded rootDir id sys (some ⟨pid, found⟩))
    (leaves : Leaves rootDir id pid (startMarks pid true true) sys after) :
    Recorded rootDir id after none ∨ Recorded rootDir id after (some ⟨pid, .running⟩) := by
  have left := recorded.of_leaves leaves
  rwa [getLastD_startMarks] at left

theorem exit_of_start {data : StartData} {rest : List String} (asked : ¬ (id = "--help" ∨ id = "-h"))
    {fetched : Fetched} (got : fetch rootDir id sys = some fetched) :
    (RuntimeCommand.given ⟨.start data, rest⟩).exit env rootDir id sys =
      (clrOciStart env data fetched.state ⟨configUpdate fetched.config fetched.state, sys⟩).exit := by
  have accepted : handleDefaultUsage (id :: rest) = none := if_neg asked
  have found : getConfigAndState sys.files ((World.mk (Config.fresh rootDir) sys).setContainerId
      (some id)).config = some fetched := got
  simp only [RuntimeCommand.exit, Rewriting.run, handlerStart, accepted, withState, List.head?_cons]
  simp only [World.setContainerId] at found ⊢
  rw [found]

/-- A start that succeeds has found a container that was not started yet. -/
theorem start_of_created (sequential : env.Sequential) (recorded : Recorded rootDir id sys entry)
    (asked : ¬ (id = "--help" ∨ id = "-h")) {data : StartData} {rest : List String}
    (ok : (RuntimeCommand.given ⟨.start data, rest⟩).exit env rootDir id sys = .returned true) :
    let after := (RuntimeCommand.given ⟨.start data, rest⟩).perform env rootDir id sys
    ∃ pid, entry = some ⟨pid, .created⟩ ∧
      (Recorded rootDir id after none ∨ Recorded rootDir id after (some ⟨pid, .running⟩)) := by
  intro after
  cases got : fetch rootDir id sys with
  | none =>
    rw [Invocation.exit_of_missing _ asked got] at ok
    cases ok
  | some fetched =>
    obtain rfl := recorded.fetched got
    have holding := recorded.present _ rfl
    have leaves := Invocation.perform_leaves ⟨.start data, rest⟩ holding got sequential
    rw [exit_of_start asked got] at ok
    obtain ⟨_, _, _, fit⟩ := holding.fetched got
    by_cases created : fetched.state.status = .created
    · obtain ⟨sent, written⟩ := clrOciStart_reached fit created ok
      simp only [Invocation.marks, if_neg asked, created, ne_eq, not_true_eq_false, ↓reduceIte, Nat.add_zero,
        sent, written] at leaves
      rw [created] at recorded ⊢
      exact ⟨fetched.state.pid, rfl, recorded.of_started leaves⟩
    · rw [clrOciStart, if_pos created] at ok
      cases ok

/-- A run on paper fails at the state file that it does not have. -/
theorem handlerRun_real {data : StartData} {rest : List String}
    (ok : (handlerRun env data (id :: rest)).Succeeds ⟨Config.fresh rootDir, sys⟩) :
    data.dryRunMode = false := by
  by_contra dry
  rw [Bool.not_eq_false] at dry
  obtain ⟨set, ran⟩ := Action.andThen_succeeds_iff.mp ok
  have cases' := handleCommandSetup_cases set
  dsimp only at cases'
  generalize (handleCommandSetup env data (id :: rest) ⟨Config.fresh rootDir, sys⟩).state = world at *
  rcases cases' with usage | ⟨_, _, _, _, state, mode, _⟩
  · obtain ⟨made, _⟩ := Action.andThen_succeeds_iff.mp ran
    obtain ⟨claimed, _⟩ := Action.andThen_succeeds_iff.mp made
    obtain ⟨parsed, _⟩ := Action.andThen_succeeds_iff.mp claimed
    rw [usage] at parsed
    cases configFileParse_bundle parsed
  · have plain : world = dryWorld world.config world.sys := by
      obtain ⟨config, sys⟩ := world
      dsimp only at state mode
      rw [dryWorld, ← state, ← dry, ← mode]
    rw [plain] at ran
    exact (dryRun_eq env data world.config world.sys).1 ran

theorem run_of_absent (sequential : env.Sequential) (recorded : Recorded rootDir id sys entry)
    {data : StartData} {rest : List String}
    (ok : (RuntimeCommand.run data rest).exit env rootDir id sys = .returned true) :
    let after := (RuntimeCommand.run data rest).perform env rootDir id sys
    entry = none ∧ (Recorded rootDir id after none ∨
      ∃ pid, Recorded rootDir id after (some ⟨pid, .running⟩)) := by
  intro after
  have succeeded : (handlerRun env data (id :: rest)).Succeeds ⟨Config.fresh rootDir, sys⟩ := ok
  have real := handlerRun_real succeeded
  have created := @handlerCreate_recorded env rootDir id sys entry recorded data rest
  have same : after = (handlerRun env data (id :: rest) ⟨Config.fresh rootDir, sys⟩).state.sys := rfl
  rw [Action.Succeeds, handlerRun_eq] at succeeded
  obtain ⟨made, ran⟩ := Action.andThen_succeeds_iff.mp succeeded
  dsimp only at created
  rw [if_pos ⟨made, real⟩] at created
  obtain ⟨absent, dir⟩ := created
  obtain ⟨inputs, container, stored, fit, begun⟩ := handlerCreate_begun real made dir
  refine ⟨absent, ?_⟩
  rw [same, handlerRun_eq, Action.andThen_of_succeeds made]
  rw [Action.Succeeds] at ran
  generalize (handlerCreate env data (id :: rest) ⟨Config.fresh rootDir, sys⟩).state = world at *
  rw [runCreated_eq env container data stored] at ran ⊢
  have leaves := clrOciStart_leaves env world.sys { data with bundle := none } fit container.status sequential
  obtain ⟨sent, written⟩ := clrOciStart_reached fit container.status ran
  simp only [sent, written] at leaves
  rcases begun.of_started leaves with gone | running
  · exact Or.inl gone
  · exact Or.inr ⟨_, running⟩

/-- A command that starts its container has found none, or one that was not started; nothing is left of
the container then, or it is running. -/
theorem starts_spec (sequential : env.Sequential) (recorded : Recorded rootDir id sys entry)
    (asked : ¬ (id = "--help" ∨ id = "-h")) {command : RuntimeCommand} (starts : command.starts = true)
    (ok : command.exit env rootDir id sys = .returned true) :
    (∀ held, entry = some held → held.status = .created) ∧
      ∃ next : Option Entry, Recorded rootDir id (command.perform env rootDir id sys) next ∧
        ∀ held, next = some held → held.status = .running := by
  have settled {after : Sys} {pid : GPid} (either : Recorded rootDir id after none ∨
      Recorded rootDir id after (some ⟨pid, .running⟩)) :
      ∃ next : Option Entry, Recorded rootDir id after next ∧
        ∀ held, next = some held → held.status = .running := by
    rcases either with gone | running
    · exact ⟨none, gone, fun _ there => (by cases there)⟩
    · exact ⟨_, running, fun _ same => (congrArg Entry.status (Option.some.inj same)).symm⟩
  cases command with
  | create data rest => cases starts
  | stop rest => cases starts
  | run data rest =>
    obtain ⟨absent, left⟩ := run_of_absent sequential recorded ok
    subst absent
    refine ⟨fun _ there => (by cases there), ?_⟩
    rcases left with gone | ⟨pid, running⟩
    · exact ⟨none, gone, fun _ there => (by cases there)⟩
    · exact settled (Or.inr running)
  | given invocation =>
    obtain ⟨command, rest⟩ := invocation
    cases command with
    | toggle pause => cases starts
    | kill => cases starts
    | start data =>
      obtain ⟨pid, found, left⟩ := start_of_created sequential recorded asked ok
      refine ⟨fun held same => ?_, settled left⟩
      rw [found] at same
      cases same
      rfl

end Started

theorem Advance.stays_started {held next : Entry} {command : RuntimeCommand}
    (advance : Advance (some held) command (some next)) (started : held.status ≠ .created) :
    next.status ≠ .created := by
  cases advance with
  | idle => exact started
  | start pid data rest => exact absurd rfl started
  | toggle pid status pause rest =>
    change toggleDest pause ≠ .created
    cases pause with
    | false => decide
    | true => decide
  | kill pid found status rest either =>
    change status ≠ .created
    rcases either with rfl | rfl
    · decide
    · decide

section Runs
variable {env : Env} {rootDir : Option String} {sys : Sys} {registry : Registry}

theorem stays_started (sequential : env.Sequential) (start : Represents rootDir sys registry)
    (inputs : List (String × RuntimeCommand))
    (sane : Along (act env rootDir) (Sane env rootDir) sys inputs) {id : String} (proper : Proper rootDir id)
    (started : ∀ held, registry id = some held → held.status ≠ .created) :
    (∃ early late, inputs = early ++ late ∧
      NoDocument (statePathOf rootDir id) (early.foldl (act env rootDir) sys)) ∨
      ∃ final : Registry, Represents rootDir (inputs.foldl (act env rootDir) sys) final ∧
        ∃ held, final id = some held ∧ held.status ≠ .created := by
  induction inputs generalizing sys registry with
  | nil =>
    cases entry : registry id with
    | none => exact Or.inl ⟨[], [], rfl, (start id proper).absent entry⟩
    | some held => exact Or.inr ⟨registry, start, held, entry, started held entry⟩
  | cons input rest ih =>
    cases entry : registry id with
    | none => exact Or.inl ⟨[], input :: rest, rfl, (start id proper).absent entry⟩
    | some held =>
      obtain ⟨next, moved, represents⟩ := runtime_simulates sequential sys registry input start sane.1
      have kept : ∀ held, next id = some held → held.status ≠ .created := by
        intro after found
        by_cases own : id = input.1
        · have advance := moved.moves
          rw [← own, entry, found] at advance
          exact advance.stays_started (started held entry)
        · rw [moved.others id own, entry] at found
          cases found
          exact started held entry
      rcases ih represents sane.2 kept with ⟨early, late, split, blank⟩ | still
      · exact Or.inl ⟨input :: early, late, by rw [split]; rfl, blank⟩
      · exact Or.inr still

/-- A container is started at most once: in every run of commands on any containers, between two
commands, be they start or run, that both succeed for one identifier, its container has had no state
file with a document in it. -/
theorem started_once (sequential : env.Sequential) (start : Represents rootDir sys registry) {id : String}
    (proper : Proper rootDir id) (asked : ¬ (id = "--help" ∨ id = "-h")) {first second : RuntimeCommand}
    (starts : first.starts = true) (starts' : second.starts = true)
    (middle : List (String × RuntimeCommand))
    (sane : Along (act env rootDir) (Sane env rootDir) sys ((id, first) :: middle))
    (ok : first.exit env rootDir id sys = .returned true)
    (ok' : second.exit env rootDir id (((id, first) :: middle).foldl (act env rootDir) sys) = .returned true) :
    ∃ early late, middle = early ++ late ∧ NoDocument (statePathOf rootDir id)
      (early.foldl (act env rootDir) (act env rootDir sys (id, first))) := by
  obtain ⟨_, entry, recorded, running⟩ := starts_spec sequential (start id proper) asked starts ok
  obtain ⟨next, _, represents⟩ := runtime_simulates sequential sys registry (id, first) start sane.1
  -- The registry after the first command, with what is known of its own container.
  have settled : Represents rootDir (act env rootDir sys (id, first)) (Function.update next id entry) := by
    intro other also
    by_cases same : other = id
    · subst same
      rw [Function.update_self]
      exact recorded
    · rw [Function.update_of_ne same]
      exact represents other also
  have started : ∀ held, Function.update next id entry id = some held → held.status ≠ .created := by
    intro held found
    rw [Function.update_self] at found
    rw [running held found]
    decide
  rcases stays_started sequential settled middle sane.2 proper started with
    absent | ⟨final, there, held, found, other⟩
  · exact absent
  · obtain ⟨unstarted, _⟩ := starts_spec sequential (there id proper) asked starts' ok'
    exact absurd (unstarted held found) other

end Runs

def stoppedAndCreated : List (String × RuntimeCommand) :=
  [("c1", .stop []), ("c1", .create bundleOptions [])]

theorem started_twice_through_absence :
    ∃ early late, stoppedAndCreated = early ++ late ∧
      NoDocument (statePathOf (some "/run") "c1") (early.foldl (act Env.calm (some "/run"))
        (act Env.calm (some "/run") firstCreated ("c1", .given ⟨.start {}, []⟩))) := by
  have made : Sane Env.calm (some "/run") bundleSys ("c1", .create bundleOptions []) :=
    ⟨proper_c1, fun id proper => bundle_strays_apart proper (by decide +kernel)⟩
  obtain ⟨registry, _, represents⟩ :=
    runtime_simulates Env.calm_sequential bundleSys _ _ bundleSys_blank made
  have begun : Represents (some "/run") firstCreated registry := represents
  have sane : Along (act Env.calm (some "/run")) (Sane Env.calm (some "/run")) firstCreated
      (("c1", .given ⟨.start {}, []⟩) :: stoppedAndCreated) :=
    ⟨⟨proper_c1, fun _ _ => List.not_mem_nil⟩, ⟨proper_c1, fun _ _ => List.not_mem_nil⟩,
      ⟨proper_c1, fun id proper => bundle_strays_apart proper (by decide +kernel)⟩, trivial⟩
  exact started_once Env.calm_sequential begun proper_c1 (by decide)
    (show (RuntimeCommand.given ⟨.start {}, []⟩).starts = true from rfl)
    (show (RuntimeCommand.given ⟨.start {}, []⟩).starts = true from rfl)
    stoppedAndCreated sane (by decide +kernel) (by decide +kernel)

end ClrOci
