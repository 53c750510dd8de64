import ClrOci.Registry
import ClrOci.Retry

/-! Orphaned identifiers.

The directory of a container claims its identifier, and a command takes it away again only after it
has read the state file in it. A creation that fails in between leaves a directory that no command
will ever remove.
-/

set_option autoImplicit false

namespace ClrOci

open Foundation

def RuntimeCommand.exit (env : Env) (rootDir : Option String) (id : String) (sys : Sys) :
    RuntimeCommand → Exit
  | .create data rest => (handlerCreate env data (id :: rest) ⟨Config.fresh rootDir, sys⟩).exit
  | .run data rest => (handlerRun env data (id :: rest) ⟨Config.fresh rootDir, sys⟩).exit
  | .given invocation =>
    (invocation.command.run env (id :: invocation.rest) ⟨Config.fresh rootDir, sys⟩).exit
  | .stop rest => (handleCommandStop env (id :: rest) ⟨Config.fresh rootDir, sys⟩).exit

/-- The identifier is claimed, and no command finds a container under it. -/
structure Orphaned (rootDir : Option String) (id : String) (sys : Sys) : Prop where
  claimed : sys.dirs (runtimePath rootDir id).text = true
  unread : fetch rootDir id sys = none

-- A command for the container, or one for another that does not write its state file.
def ForAny (env : Env) (rootDir : Option String) (id : String) (sys : Sys)
    (input : String × RuntimeCommand) : Prop :=
  input.1 = id ∨ ForOther env rootDir id sys input

section Claimed
variable {env : Env} {rootDir : Option String} {id : String} {sys : Sys} {data : StartData}
  {rest : List String}

theorem handlerCreate_of_claimed (claimed : sys.dirs (runtimePath rootDir id).text = true) :
    let created := handlerCreate env data (id :: rest) ⟨Config.fresh rootDir, sys⟩
    created.exit ≠ .returned true ∧ created.state.sys.files = sys.files ∧
      ∀ path, sys.dirs path = true → created.state.sys.dirs path = true := by
  intro created
  have same := handleCommandSetup_sys env data (id :: rest) ⟨Config.fresh rootDir, sys⟩
  by_cases set : (handleCommandSetup env data (id :: rest)).Succeeds ⟨Config.fresh rootDir, sys⟩
  · have whole : created = clrOciCreate env
        (handleCommandSetup env data (id :: rest) ⟨Config.fresh rootDir, sys⟩).state :=
      Action.andThen_of_succeeds set
    have cases' := handleCommandSetup_cases set
    rw [whole]
    dsimp only at cases'
    generalize (handleCommandSetup env data (id :: rest) ⟨Config.fresh rootDir, sys⟩).state = world at *
    change world.sys = sys at same
    subst same
    have unclaimed : ¬ (claimContainer env).Succeeds world := by
      intro ok
      rcases cases' with usage | ⟨_, _, named, root, state, _⟩
      · obtain ⟨parsed, _⟩ := Action.andThen_succeeds_iff.mp ok
        rw [usage] at parsed
        cases configFileParse_bundle parsed
      · have placed := (claimContainer_placed ok (by rw [state]; decide) named).1
        have unmade := claimContainer_unmade ok
        rw [placed, root, claimed] at unmade
        cases unmade
    rw [clrOciCreate, Action.andThen_of_stops unclaimed]
    exact ⟨unclaimed, (claimContainer_frame env world).1, (claimContainer_grows env world).sys.dirs⟩
  · have whole : created = handleCommandSetup env data (id :: rest) ⟨Config.fresh rootDir, sys⟩ :=
      Action.andThen_of_stops set
    rw [whole]
    refine ⟨set, by rw [same], fun path made => ?_⟩
    rw [same]
    exact made

theorem handlerRun_of_claimed (claimed : sys.dirs (runtimePath rootDir id).text = true) :
    handlerRun env data (id :: rest) ⟨Config.fresh rootDir, sys⟩ =
      handlerCreate env data (id :: rest) ⟨Config.fresh rootDir, sys⟩ := by
  rw [handlerRun_eq]
  exact Action.andThen_of_stops (handlerCreate_of_claimed claimed).1

end Claimed

section Orphaned
variable {env : Env} {rootDir : Option String} {id : String} {sys : Sys}

theorem Invocation.exit_of_missing (invocation : Invocation) (asked : ¬ (id = "--help" ∨ id = "-h"))
    (missing : fetch rootDir id sys = none) :
    (RuntimeCommand.given invocation).exit env rootDir id sys = .returned false := by
  have unread : ∀ act : OciState → Action World,
      (withState act ((World.mk (Config.fresh rootDir) sys).setContainerId (some id))).exit =
        .returned false := by
    intro act
    have none : getConfigAndState sys.files ((World.mk (Config.fresh rootDir) sys).setContainerId
        (some id)).config = none := missing
    rw [withState]
    simp only [World.setContainerId] at none ⊢
    rw [none]
  obtain ⟨command, rest⟩ := invocation
  have accepted : handleDefaultUsage (id :: rest) = none := if_neg asked
  cases command with
  | start data =>
    simp only [RuntimeCommand.exit, Rewriting.run, handlerStart, accepted]
    exact unread _
  | toggle pause =>
    simp only [RuntimeCommand.exit, Rewriting.run, handleCommandToggle, accepted]
    exact unread _
  | kill =>
    simp only [RuntimeCommand.exit, Rewriting.run, handlerKill, if_neg asked]
    split
    · rfl
    · exact unread _

theorem stop_exit_of_missing {world : World} {rest : List String}
    (asked : handleDefaultUsage (id :: rest) = none)
    (missing : world.sys.files (world.statePath id) = none) :
    (handleCommandStop env (id :: rest) world).exit = .returned true := by
  have named : (world.config.setContainerId (some id)).optargContainerId = some id := rfl
  rw [World.statePath] at missing
  simp only [handleCommandStop, asked, List.head?_cons, stateFileExists_eq named,
    Config.setContainerId_rootDir, missing, Option.isSome_none, Bool.not_false, ↓reduceIte]

/-- A stop that cannot read the state changes nothing, and fails unless there is no state file. -/
theorem stop_of_unread {world : World} {rest : List String}
    (asked : handleDefaultUsage (id :: rest) = none) (unread : world.fetch id = none) :
    (handleCommandStop env (id :: rest) world).state.sys = world.sys ∧
      (handleCommandStop env (id :: rest) world).exit =
        .returned (world.sys.files (world.statePath id)).isNone := by
  cases present : world.sys.files (world.statePath id) with
  | none => exact ⟨handleCommandStop_of_missing asked present, stop_exit_of_missing asked present⟩
  | some content =>
    rw [handleCommandStop_of_present asked present]
    simp only [unread]
    exact ⟨trivial, rfl⟩

theorem Orphaned.own (orphaned : Orphaned rootDir id sys) (command : RuntimeCommand) :
    (command.perform env rootDir id sys).files = sys.files ∧
      ∀ path, sys.dirs path = true → (command.perform env rootDir id sys).dirs path = true := by
  cases command with
  | create data rest => exact (handlerCreate_of_claimed orphaned.claimed).2
  | run data rest =>
    simp only [RuntimeCommand.perform, handlerRun_of_claimed orphaned.claimed]
    exact (handlerCreate_of_claimed orphaned.claimed).2
  | given invocation =>
    simp only [RuntimeCommand.perform, Invocation.perform_of_missing orphaned.unread]
    exact ⟨trivial, fun _ made => made⟩
  | stop rest =>
    simp only [RuntimeCommand.perform]
    by_cases usage : id = "--help" ∨ id = "-h"
    · have asked : handleDefaultUsage (id :: rest) = some true := if_pos usage
      simp only [handleCommandStop, asked]
      exact ⟨trivial, fun _ made => made⟩
    · have asked : handleDefaultUsage (id :: rest) = none := if_neg usage
      have unread : (World.mk (Config.fresh rootDir) sys).fetch id = none := orphaned.unread
      rw [(stop_of_unread asked unread).1]
      exact ⟨rfl, fun _ made => made⟩

/-- No command finds an orphaned identifier, be it to create or to use a container; a stop is content if
there is no state file. -/
theorem Orphaned.exit (orphaned : Orphaned rootDir id sys) (asked : ¬ (id = "--help" ∨ id = "-h"))
    {command : RuntimeCommand} (ok : command.exit env rootDir id sys = .returned true) :
    (∃ rest, command = .stop rest) ∧ sys.files (statePathOf rootDir id) = none := by
  cases command with
  | create data rest => exact absurd ok (handlerCreate_of_claimed orphaned.claimed).1
  | run data rest =>
    simp only [RuntimeCommand.exit, handlerRun_of_claimed orphaned.claimed] at ok
    exact absurd ok (handlerCreate_of_claimed orphaned.claimed).1
  | given invocation =>
    rw [invocation.exit_of_missing asked orphaned.unread] at ok
    cases ok
  | stop rest =>
    have accepted : handleDefaultUsage (id :: rest) = none := if_neg asked
    have unread : (World.mk (Config.fresh rootDir) sys).fetch id = none := orphaned.unread
    simp only [RuntimeCommand.exit, (stop_of_unread accepted unread).2] at ok
    have missing : (sys.files (statePathOf rootDir id)).isNone = true := Exit.returned.inj ok
    exact ⟨⟨rest, rfl⟩, Option.isNone_iff_eq_none.mp missing⟩

theorem Orphaned.act (sequential : env.Sequential) (proper : Proper rootDir id)
    (orphaned : Orphaned rootDir id sys) {input : String × RuntimeCommand}
    (any : ForAny env rootDir id sys input) :
    Orphaned rootDir id (ClrOci.act env rootDir sys input) ∧
      (ClrOci.act env rootDir sys input).files (statePathOf rootDir id) = sys.files (statePathOf rootDir id) := by
  obtain ⟨name, command⟩ := input
  rcases any with same | ⟨also, different, clean⟩
  · dsimp only at same
    subst same
    obtain ⟨files, dirs⟩ : (command.perform env rootDir name sys).files = sys.files ∧
        ∀ path, sys.dirs path = true → (command.perform env rootDir name sys).dirs path = true :=
      orphaned.own command
    have kept := congrFun files (statePathOf rootDir name)
    exact ⟨⟨dirs _ orphaned.claimed, (fetch_congr kept).trans orphaned.unread⟩, kept⟩
  · have spares := RuntimeCommand.perform_spares (also.elsewhere proper (Ne.symm different)) sequential
      command clean
    exact ⟨⟨spares.dir orphaned.claimed, (fetch_congr spares.file).trans orphaned.unread⟩, spares.file⟩

theorem Orphaned.run (sequential : env.Sequential) (proper : Proper rootDir id)
    (orphaned : Orphaned rootDir id sys) (inputs : List (String × RuntimeCommand))
    (any : Along (ClrOci.act env rootDir) (ForAny env rootDir id) sys inputs) :
    Orphaned rootDir id (inputs.foldl (ClrOci.act env rootDir) sys) ∧
      (inputs.foldl (ClrOci.act env rootDir) sys).files (statePathOf rootDir id) =
        sys.files (statePathOf rootDir id) := by
  apply foldl_keeps (fun after => Orphaned rootDir id after ∧
    after.files (statePathOf rootDir id) = sys.files (statePathOf rootDir id)) _ ⟨orphaned, rfl⟩ any
  intro state input reached permitted
  obtain ⟨still, file⟩ := reached.1.act sequential proper permitted
  exact ⟨still, file.trans reached.2⟩

end Orphaned

def Env.granting : Env :=
  { Env.calm with host := fun _ => { Host.calm with umount := fun _ _ => true } }

theorem Env.granting_working : Working Env.granting := ⟨fun _ _ _ => rfl, fun _ _ => rfl⟩

theorem Env.granting_sequential : Env.granting.Sequential := by
  intro _ _ _ same
  cases same
  rfl

section Recovery
variable {rootDir : Option String} {id : String} {sys : Sys}

/-- On a host that grants everything, a stop that reads the state and the bundle frees the identifier. -/
theorem stop_frees {rest : List String} (asked : ¬ (id = "--help" ∨ id = "-h")) {fetched : Fetched}
    (got : fetch rootDir id sys = some fetched) {root : GNode}
    (parsed : jsonParseFile sys.files fetched.configFile = some root)
    (absolute : isAbsolute (runtimePath rootDir id).text = true) :
    ((RuntimeCommand.stop rest).perform Env.granting rootDir id sys).dirs
      (runtimePath rootDir id).text = false := by
  let world : World := ⟨Config.fresh rootDir, sys⟩
  have found : world.fetch id = some fetched := got
  have accepted : handleDefaultUsage (id :: rest) = none := if_neg asked
  have ok := handleCommandStop_completes accepted found parsed Env.granting_working (fun _ => rfl)
    (fun _ => rfl) (drain_granted _ _) absolute
  exact (handleCommandStop_released accepted found parsed (Or.inl fun _ _ => rfl) ok).runtimeDir

/-- Commands can free an identifier again exactly if it is not orphaned. -/
theorem identifier_recoverable_iff (proper : Proper rootDir id) (asked : ¬ (id = "--help" ∨ id = "-h"))
    (absolute : isAbsolute (runtimePath rootDir id).text = true)
    (bundled : ∀ fetched, fetch rootDir id sys = some fetched →
      jsonParseFile sys.files fetched.configFile ≠ none) :
    (∃ env : Env, env.Sequential ∧ ∃ inputs, Along (act env rootDir) (ForAny env rootDir id) sys inputs ∧
        (inputs.foldl (act env rootDir) sys).dirs (runtimePath rootDir id).text = false) ↔
      ¬ Orphaned rootDir id sys := by
  constructor
  · rintro ⟨env, sequential, inputs, any, freed⟩ orphaned
    have still := (orphaned.run sequential proper inputs any).1.claimed
    rw [freed] at still
    cases still
  · intro found
    refine ⟨Env.granting, Env.granting_sequential, ?_⟩
    cases claimed : sys.dirs (runtimePath rootDir id).text with
    | false => exact ⟨[], trivial, claimed⟩
    | true =>
      cases got : fetch rootDir id sys with
      | none => exact absurd ⟨claimed, got⟩ found
      | some fetched =>
        obtain ⟨root, parsed⟩ := Option.ne_none_iff_exists'.mp (bundled fetched got)
        exact ⟨[(id, .stop [])], ⟨Or.inl rfl, trivial⟩, stop_frees asked got parsed absolute⟩

/-- A creation that has claimed its identifier and then fails, or is one on paper, orphans it: whatever
commands follow, no container is ever created, used or removed under it. -/
theorem failed_creation_orphans {env : Env} (sequential : env.Sequential) (proper : Proper rootDir id)
    (asked : ¬ (id = "--help" ∨ id = "-h")) (blank : sys.files (statePathOf rootDir id) = none)
    (data : StartData) (rest : List String) :
    let creation := RuntimeCommand.create data rest
    let after := creation.perform env rootDir id sys
    after.dirs (runtimePath rootDir id).text = true →
    ¬ (creation.exit env rootDir id sys = .returned true ∧ data.dryRunMode = false) →
    ∀ inputs, Along (act env rootDir) (ForAny env rootDir id) after inputs →
      let later := inputs.foldl (act env rootDir) after
      later.dirs (runtimePath rootDir id).text = true ∧ fetch rootDir id later = none ∧
        ∀ command : RuntimeCommand, command.exit env rootDir id later = .returned true →
          ∃ arguments, command = .stop arguments := by
  intro creation after claimed failed inputs any
  have unrecorded : Recorded rootDir id sys none := .of_missing blank
  have recorded := @handlerCreate_recorded env rootDir id sys none unrecorded data rest
  have begun : Recorded rootDir id after none := by
    dsimp only at recorded
    split at recorded
    · next made => exact absurd made failed
    · exact recorded
  have orphaned : Orphaned rootDir id after := ⟨claimed, fetch_of_noDocument (begun.absent rfl)⟩
  have still := (orphaned.run sequential proper inputs any).1
  exact ⟨still.claimed, still.unread, fun command ok => (still.exit asked ok).1⟩

end Recovery

def Env.spawnless : Env :=
  { Env.calm with host := fun _ => { Host.calm with spawn := fun _ => none } }

theorem Env.spawnless_sequential : Env.spawnless.Sequential := by
  intro _ _ _ same
  cases same
  rfl

def unlaunchedSys : Sys := act Env.spawnless (some "/run") bundleSys ("c1", .create bundleOptions [])

def stopThenCreate : List (String × RuntimeCommand) := [("c1", .stop []), ("c1", .create bundleOptions [])]

theorem unlaunched_creation_orphans :
    let later := stopThenCreate.foldl (act Env.spawnless (some "/run")) unlaunchedSys
    later.dirs "/run/c1" = true ∧ fetch (some "/run") "c1" later = none := by
  have place : (runtimePath (some "/run") "c1").text = "/run/c1" := by decide
  have claimed : unlaunchedSys.dirs (runtimePath (some "/run") "c1").text = true := by decide +kernel
  have failed : (RuntimeCommand.create bundleOptions []).exit Env.spawnless (some "/run") "c1" bundleSys =
      .returned false := by decide +kernel
  have orphaned := failed_creation_orphans Env.spawnless_sequential proper_c1 (by decide)
    (show bundleSys.files (statePathOf (some "/run") "c1") = none by decide) bundleOptions [] claimed
    (by rw [failed]; decide) stopThenCreate ⟨Or.inl rfl, Or.inl rfl, trivial⟩
  rw [place] at orphaned
  exact ⟨orphaned.1, orphaned.2.1⟩

theorem created_identifier_recoverable :
    (∃ env : Env, env.Sequential ∧ ∃ inputs,
      Along (act env (some "/run")) (ForAny env (some "/run") "c1") firstCreated inputs ∧
        (inputs.foldl (act env (some "/run")) firstCreated).dirs "/run/c1" = false) := by
  have place : (runtimePath (some "/run") "c1").text = "/run/c1" := by decide
  have parses : (fetch (some "/run") "c1" firstCreated).all (fun fetched =>
      (jsonParseFile firstCreated.files fetched.configFile).isSome) = true := by decide +kernel
  have read : (fetch (some "/run") "c1" firstCreated).isSome = true := by decide +kernel
  have bundled : ∀ fetched, fetch (some "/run") "c1" firstCreated = some fetched →
      jsonParseFile firstCreated.files fetched.configFile ≠ none := by
    intro fetched got
    rw [got] at parses
    exact Option.isSome_iff_ne_none.mp parses
  have recoverable := identifier_recoverable_iff proper_c1 (by decide) (by decide) bundled
  rw [place] at recoverable
  apply recoverable.mpr
  intro orphaned
  rw [orphaned.unread] at read
  cases read

end ClrOci
