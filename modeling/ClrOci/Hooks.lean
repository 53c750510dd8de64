import ClrOci.Creation

/-! Hooks: which of a list are run, and what a creation makes of their outcomes. -/

set_option autoImplicit false

namespace ClrOci

open Foundation

section HookList
variable (env : Env)

def hookRuns (stopOnFailure : Bool) : Nat → List Hook → List (Hook × HookOutcome)
  | _, [] => []
  | clock, hook :: rest =>
    let outcome := (env.host clock).hook hook
    (hook, outcome) ::
      if outcome ≠ .exited 0 ∧ stopOnFailure then [] else hookRuns stopOnFailure (clock + 1) rest

def HooksSucceed (clock : Nat) (hooks : List Hook) : Prop :=
  ∀ position hook, hooks[position]? = some hook → (env.host (clock + position)).hook hook = .exited 0

theorem hooksSucceed_cons {clock : Nat} {hook : Hook} {rest : List Hook} :
    HooksSucceed env clock (hook :: rest) ↔
      (env.host clock).hook hook = .exited 0 ∧ HooksSucceed env (clock + 1) rest := by
  constructor
  · intro all
    refine ⟨all 0 hook rfl, fun position other found => ?_⟩
    have later := all (position + 1) other (by simpa using found)
    rwa [show clock + (position + 1) = clock + 1 + position by omega] at later
  · rintro ⟨first, others⟩ position other found
    cases position with
    | zero =>
      cases found
      exact first
    | succ position =>
      have later := others position other (by simpa using found)
      rwa [show clock + 1 + position = clock + (position + 1) by omega] at later

theorem runHookList_trace (stopOnFailure : Bool) (state : Content) (hooks : List Hook) (sys : Sys) :
    (runHookList env stopOnFailure state hooks sys).2.trace =
      sys.trace ++ (hookRuns env stopOnFailure sys.clock hooks).map
        fun run => .hook run.1 state run.2 := by
  induction hooks generalizing sys with
  | nil => exact (List.append_nil sys.trace).symm
  | cons hook rest ih =>
    simp only [runHookList, runHook, hookRuns]
    by_cases failed : (env.host sys.clock).hook hook = .exited 0
    · simp [failed, ih]
    · cases stopOnFailure with
      | true => simp [failed]
      | false => simp [failed, ih]

theorem hookRuns_of_succeed {clock : Nat} {hooks : List Hook} (stopOnFailure : Bool)
    (all : HooksSucceed env clock hooks) :
    hookRuns env stopOnFailure clock hooks = hooks.map fun hook => (hook, .exited 0) := by
  induction hooks generalizing clock with
  | nil => rfl
  | cons hook rest ih =>
    obtain ⟨first, others⟩ := (hooksSucceed_cons env).mp all
    simp [hookRuns, first, ih others]

theorem exists_failed_run {clock : Nat} {hooks : List Hook} (stopOnFailure : Bool)
    (some_failed : ¬ HooksSucceed env clock hooks) :
    ∃ run ∈ hookRuns env stopOnFailure clock hooks, run.2 ≠ .exited 0 := by
  induction hooks generalizing clock with
  | nil => exact absurd (fun _ _ found => nomatch found) some_failed
  | cons hook rest ih =>
    by_cases first : (env.host clock).hook hook = .exited 0
    · have later : ¬ HooksSucceed env (clock + 1) rest := by
        intro others
        exact some_failed ((hooksSucceed_cons env).mpr ⟨first, others⟩)
      obtain ⟨run, member, failed⟩ := ih later
      exact ⟨run, by simp [hookRuns, first, member], failed⟩
    · exact ⟨(hook, (env.host clock).hook hook), by simp [hookRuns], first⟩

theorem runHooks_hooksSince {hooks : List Hook} {path : String} {state : Content}
    (stopOnFailure : Bool) {sys : Sys} (present : sys.files path = some state) :
    sys.hooksSince (runHooks env hooks path stopOnFailure sys).2 =
      hookRuns env stopOnFailure sys.clock hooks := by
  have trace : (runHooks env hooks path stopOnFailure sys).2.trace = sys.trace ++
      (hookRuns env stopOnFailure sys.clock hooks).map fun run => .hook run.1 state run.2 := by
    unfold runHooks
    split
    · next none =>
      subst none
      exact (List.append_nil sys.trace).symm
    · simp only [present]
      exact runHookList_trace env stopOnFailure state hooks sys
  rw [Sys.hooksSince, Sys.eventsSince_of_append trace, List.filterMap_map]
  exact List.filterMap_some

theorem runHooks_of_missing {hooks : List Hook} {path : String} (stopOnFailure : Bool) {sys : Sys}
    (missing : sys.files path = none) :
    (runHooks env hooks path stopOnFailure sys).2 = sys := by
  unfold runHooks
  split
  · rfl
  · simp only [missing]

theorem runHookList_frame (stopOnFailure : Bool) (state : Content) (hooks : List Hook) (sys : Sys) :
    let after := (runHookList env stopOnFailure state hooks sys).2
    after.files = sys.files ∧ after.dirs = sys.dirs ∧ after.mounts = sys.mounts := by
  induction hooks generalizing sys with
  | nil => exact ⟨rfl, rfl, rfl⟩
  | cons hook rest ih =>
    simp only [runHookList]
    split
    · exact ⟨rfl, rfl, rfl⟩
    · exact ih _

theorem runHooks_frame (hooks : List Hook) (path : String) (stopOnFailure : Bool) (sys : Sys) :
    let after := (runHooks env hooks path stopOnFailure sys).2
    after.files = sys.files ∧ after.dirs = sys.dirs ∧ after.mounts = sys.mounts := by
  unfold runHooks
  split
  · exact ⟨rfl, rfl, rfl⟩
  · split
    · exact ⟨rfl, rfl, rfl⟩
    · exact runHookList_frame env stopOnFailure _ hooks sys

end HookList

def reachHooks (env : Env) : Action World :=
  (claimContainer env).andThen ((prepareContainer env).andThen (launchContainer env))

section Prestart
variable {env : Env} {world : World}

theorem clrOciCreate_eq_reachHooks (real : world.config.dryRunMode = false) :
    clrOciCreate env world = (reachHooks env).andThen (prestartHooks env) world := by
  rw [clrOciCreate, reachHooks, Action.andThen_assoc]
  by_cases claimed : (claimContainer env).Succeeds world
  · rw [Action.andThen_of_succeeds claimed, Action.andThen_of_succeeds claimed, buildContainer,
      Action.andThen_assoc]
    by_cases prepared : (prepareContainer env).Succeeds (claimContainer env world).state
    · rw [Action.andThen_of_succeeds prepared, Action.andThen_of_succeeds prepared,
        (prepareContainer_grows env _).dryRun, (claimContainer_grows env world).dryRun, real]
      rfl
    · rw [Action.andThen_of_stops prepared, Action.andThen_of_stops prepared]
  · rw [Action.andThen_of_stops claimed, Action.andThen_of_stops claimed]

theorem reachHooks_grows (env : Env) :
    (reachHooks env).Moves (World.Grows [.mount, .wrote, .spawn]) := by
  refine World.Grows.andThen (World.Grows.weaken (claimContainer_grows env) (by decide)) ?_
  refine World.Grows.andThen ?_ ?_
  · exact World.Grows.weaken (prepareContainer_grows env) (by decide)
  · exact World.Grows.weaken (launchContainer_grows env) (by decide)

theorem hooksSince_reachHooks (env : Env) (world : World) :
    world.sys.hooksSince (reachHooks env world).state.sys = [] := by
  refine (reachHooks_grows env world).sys.adds.filterMap_eventsSince fun event allowed => ?_
  cases event <;> first | rfl | (simp [Event.kind] at allowed)

theorem stateFileCreate_stateFile {created : Option String}
    (ok : (stateFileCreate env created).Succeeds world) :
    let after := (stateFileCreate env created world).state
    ∃ content, after.sys.files after.config.state.stateFilePath.text = some content := by
  obtain ⟨inputs, status, _, _, after⟩ := stateFileCreate_state ok
  rw [after]
  exact ⟨_, Sys.written_files_self _ _ _⟩

theorem launchContainer_stateFile (ok : (launchContainer env).Succeeds world) :
    let after := (launchContainer env world).state
    ∃ content, after.sys.files after.config.state.stateFilePath.text = some content := by
  obtain ⟨created, _, stored, run⟩ := launchContainer_of_succeeds ok
  rw [run]
  exact stateFileCreate_stateFile stored

theorem reachHooks_stateFile (ok : (reachHooks env).Succeeds world) :
    let after := (reachHooks env world).state
    ∃ content, after.sys.files after.config.state.stateFilePath.text = some content := by
  obtain ⟨claimed, rest⟩ := Action.andThen_succeeds_iff.mp ok
  obtain ⟨prepared, launched⟩ := Action.andThen_succeeds_iff.mp rest
  rw [reachHooks, Action.andThen_of_succeeds claimed, Action.andThen_of_succeeds prepared]
  exact launchContainer_stateFile launched

theorem clrOciCreate_hooksSince (real : world.config.dryRunMode = false)
    (reached : (reachHooks env).Succeeds world) :
    let before := (reachHooks env world).state
    world.sys.hooksSince (clrOciCreate env world).state.sys =
      hookRuns env true before.sys.clock before.config.oci.hooks.prestart := by
  intro before
  obtain ⟨content, present⟩ := reachHooks_stateFile reached
  have early := (reachHooks_grows env world).sys.adds.trace_extends
  have late := (prestartHooks_grows env before).sys.adds.trace_extends
  have quiet := hooksSince_reachHooks env world
  have ran : before.sys.hooksSince (prestartHooks env before).state.sys =
      hookRuns env true before.sys.clock before.config.oci.hooks.prestart :=
    runHooks_hooksSince env true present
  rw [clrOciCreate_eq_reachHooks real, Action.andThen_of_succeeds reached, Sys.hooksSince,
    Sys.eventsSince_trans early late, List.filterMap_append]
  exact (congrArg₂ (· ++ ·) quiet ran).trans (List.nil_append _)

structure PrestartEnforced (before : World) (after : Run World) : Prop where
  success : after.exit = .returned true → before.sys.hooksSince after.state.sys =
    after.state.config.oci.hooks.prestart.map fun hook => (hook, .exited 0)
  failure : ∀ run ∈ before.sys.hooksSince after.state.sys, run.2 ≠ .exited 0 →
    (before.sys.hooksSince after.state.sys).getLast? = some run ∧
      after.exit = .returned false ∧ NothingLeft before after.state

/-- A creation that gets to the hooks enforces them exactly if they all succeed: their failure
is logged, but neither reported nor answered by tearing the container down. -/
theorem create_enforces_prestart_iff (env : Env) (world : World)
    (real : world.config.dryRunMode = false) :
    PrestartEnforced world (clrOciCreate env world) ↔
      ((reachHooks env).Succeeds world →
        let before := (reachHooks env world).state
        HooksSucceed env before.sys.clock before.config.oci.hooks.prestart) := by
  by_cases reached : (reachHooks env).Succeeds world
  · have runs := clrOciCreate_hooksSince real reached
    have exit : (clrOciCreate env world).exit = .returned true := by
      rw [clrOciCreate_eq_reachHooks real, Action.andThen_of_succeeds reached]
      rfl
    have prestart : (clrOciCreate env world).state.config.oci.hooks.prestart =
        (reachHooks env world).state.config.oci.hooks.prestart := by
      rw [clrOciCreate_eq_reachHooks real, Action.andThen_of_succeeds reached]
      rfl
    dsimp only at runs
    constructor
    · intro enforced _
      by_contra failed
      obtain ⟨run, member, bad⟩ := exists_failed_run env true failed
      rw [← runs] at member
      have refused := (enforced.failure run member bad).2.1
      rw [exit] at refused
      cases refused
    · intro all
      have mapped := hookRuns_of_succeed env true (all reached)
      refine ⟨fun _ => by rw [runs, prestart, mapped], fun run member bad => ?_⟩
      rw [runs, mapped] at member
      obtain ⟨hook, _, rfl⟩ := List.mem_map.mp member
      exact absurd rfl bad
  · have stopped : clrOciCreate env world = reachHooks env world := by
      rw [clrOciCreate_eq_reachHooks real, Action.andThen_of_stops reached]
    have quiet := hooksSince_reachHooks env world
    refine ⟨fun _ ok => absurd ok reached, fun _ => ?_⟩
    rw [stopped]
    exact ⟨fun ok => absurd ok reached, fun run member => by simp [quiet] at member⟩

end Prestart

def hookJson (path : String) : Json := .object [("path", .string path)]

def prestartSections : List (String × Json) :=
  [platformSection "linux", ("hooks", .object [("prestart", .array [hookJson "/a", hookJson "/b"])])]

theorem create_enforces_calm_prestart :
    PrestartEnforced (bundleWorld prestartSections)
      (clrOciCreate Env.calm (bundleWorld prestartSections)) :=
  (create_enforces_prestart_iff Env.calm (bundleWorld prestartSections) rfl).mpr
    fun _ _ _ _ => rfl

def Env.hookless : Env :=
  { Env.calm with host := fun _ => { Host.calm with hook := fun _ => .exited 1 } }

/-- The first hook fails, and the creation succeeds with the VM running. -/
theorem create_ignores_failed_prestart :
    let created := clrOciCreate Env.hookless (bundleWorld prestartSections)
    created.exit = .returned true ∧
      ((bundleWorld prestartSections).sys.hooksSince created.state.sys).map Prod.snd = [.exited 1] ∧
      created.state.sys.procs = [4242] ∧
      ¬ PrestartEnforced (bundleWorld prestartSections) created := by
  intro created
  have facts : created.exit = .returned true ∧
      ((bundleWorld prestartSections).sys.hooksSince created.state.sys).map Prod.snd = [.exited 1] ∧
      created.state.sys.procs = [4242] := by
    decide +kernel
  obtain ⟨exit, outcomes, running⟩ := facts
  refine ⟨exit, outcomes, running, fun enforced => ?_⟩
  have success := congrArg (List.map Prod.snd) (enforced.success exit)
  rw [outcomes, List.map_map] at success
  obtain ⟨_, _, zero⟩ := List.mem_map.mp (success ▸ List.mem_singleton_self (HookOutcome.exited 1))
  cases zero

end ClrOci
