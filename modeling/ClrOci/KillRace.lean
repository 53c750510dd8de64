import ClrOci.Concurrent

/-! Kill commands at the same time.

A kill puts the status it found back when the signal cannot be sent, whatever other processes
have written in between.
-/

set_option autoImplicit false

namespace ClrOci

open Foundation

def Status.live : Status → Bool
  | .created | .running | .paused => true
  | _ => false

def Returned {I : Type} (pool : Pool I SysCall Sys (Exit × Config)) (i : I) : Prop :=
  ∃ config, pool.scripts i = .done (.returned true, config)

theorem returned_iff {I : Type} {pool : Pool I SysCall Sys (Exit × Config)} {i : I} :
    Returned pool i ↔ (pool.scripts i).result?.map Prod.fst = some (.returned true) := by
  cases here : pool.scripts i with
  | done result =>
    obtain ⟨exit, config⟩ := result
    simp [Returned, here, Script.result?]
  | step call effect next => simp [Returned, here, Script.result?]

instance {I : Type} (pool : Pool I SysCall Sys (Exit × Config)) (i : I) :
    Decidable (Returned pool i) := decidable_of_iff _ returned_iff.symm

section Kill
variable {env : Env} {rootDir : Option String} {id : String} {pid : GPid}

def HasState (rootDir : Option String) (id : String) (pid : GPid) (_ : SysCall) (sys : Sys) : Prop :=
  ∃ status, Holding sys.files rootDir id pid status

def KillRule (env : Env) (rootDir : Option String) (id : String) (call : SysCall) (before : Sys)
    (next : Script SysCall Sys (Exit × Config)) : Prop :=
  call.cleans = false ∧ ∀ config, next = .done (.returned true, config) →
    call.puts? env (statePathOf rootDir id) before = some .stopped

theorem writeSteps_bind_done (created : Option String) (status : Status) (config : Config) :
    (writeSteps env created status config).bind .done = writeSteps env created status config := rfl

theorem deliverSteps_keeps {state : OciState} {config : Config}
    (fit : config.Fit rootDir id pid state.createTime) (signum : Int32) {last : Status}
    (valid : last ≠ .invalid) :
    (deliverSteps env state signum last config).Keeps (HasState rootDir id pid)
      (Guarantees env rootDir id pid (KillRule env rootDir id)) := by
  intro sys _
  have same : (kill env state.pid signum sys).2.files = sys.files := by
    unfold kill
    split <;> rfl
  have writes : Writes env rootDir id pid (.kill signum) sys (kill env state.pid signum sys).2 :=
    Writes.of_same rfl same
  cases sent : (kill env state.pid signum sys).1 with
  | true =>
    simp only [sent, ↓reduceIte]
    refine ⟨⟨writes, rfl, fun _ ended => absurd ended (Script.step_ne_done _ _ _ _)⟩, ?_⟩
    rw [← writeSteps_bind_done]
    refine fit.keeps_write (by decide) fun sys' config' _ => ⟨⟨rfl, fun other ended => ?_⟩, trivial⟩
    cases granted : (env.host sys'.clock).setContents (statePathOf rootDir id) with
    | true => simp [SysCall.puts?, granted]
    | false =>
      rw [granted] at ended
      cases ended
  | false =>
    simp only [sent, Bool.false_eq_true, ↓reduceIte]
    refine ⟨⟨writes, rfl, fun _ ended => absurd ended (Script.step_ne_done _ _ _ _)⟩, ?_⟩
    refine fit.keeps_write valid fun _ _ _ => ⟨⟨rfl, fun _ ended => ?_⟩, trivial⟩
    cases ended

theorem killSteps_keeps {state : OciState} {config : Config}
    (fit : config.Fit rootDir id pid state.createTime) (signum : Int32)
    (valid : config.state.status ≠ .invalid) :
    (killSteps env state signum config).Keeps (HasState rootDir id pid)
      (Guarantees env rootDir id pid (KillRule env rootDir id)) := by
  refine fit.keeps_write (by decide) fun sys config' fit' => ?_
  cases (env.host sys.clock).setContents (statePathOf rootDir id) with
  | true => exact ⟨⟨rfl, fun _ ended => nomatch ended⟩, deliverSteps_keeps fit' signum valid⟩
  | false => exact ⟨⟨rfl, fun _ ended => nomatch ended⟩, trivial⟩

/-- What a kill command guarantees, from its start on a container with a state file. -/
theorem killCommand_keeps (signum : Int32) :
    (killCommand env signum ((Config.fresh rootDir).setContainerId (some id))).Keeps
      (HasState rootDir id pid) (Guarantees env rootDir id pid (KillRule env rootDir id)) := by
  refine readState_keeps (fun _ held => held) (fun _ _ => ⟨rfl, fun _ ended => nomatch ended⟩) ?_
  intro sys state config fit _ same valid
  exact ⟨⟨rfl, fun _ ended => nomatch ended⟩, killSteps_keeps fit signum (by rw [same]; exact valid)⟩

end Kill

section Race
variable {I : Type} [DecidableEq I] (env : Env) (rootDir : Option String) (id : String)

def Settled (pool : Pool I SysCall Sys (Exit × Config)) : Prop :=
  (∃ i, Returned pool i) →
    ∀ status, statusAt pool.state.files (statePathOf rootDir id) = some status → status.live = false

/-- The command does not put back the status of a live container after another has returned true. -/
def LeavesSettled (pool : Pool I SysCall Sys (Exit × Config)) (i : I) : Prop :=
  ∀ call, (pool.scripts i).label? = some call →
    ∀ status, call.puts? env (statePathOf rootDir id) pool.state = some status →
      status.live = true → ∀ j, ¬ Returned pool j

structure Killing (pid : GPid) (pool : Pool I SysCall Sys (Exit × Config)) : Prop where
  held : ∃ status, Holding pool.state.files rootDir id pid status
  keeps : ∀ i, (pool.scripts i).Keeps (HasState rootDir id pid)
    (Guarantees env rootDir id pid (KillRule env rootDir id))

variable {env rootDir id} {pid : GPid} {pool : Pool I SysCall Sys (Exit × Config)}

theorem Killing.step (killing : Killing env rootDir id pid pool) (i : I) :
    Killing env rootDir id pid (pool.step i) := by
  cases here : pool.scripts i with
  | done result =>
    rw [Pool.step_of_done here]
    exact killing
  | step call effect next =>
    obtain ⟨⟨writes, tidy, _⟩, keeps⟩ := Pool.keeps_step killing.keeps here killing.held
    refine ⟨?_, keeps⟩
    rw [Pool.step_of_step here]
    exact writes.holding tidy killing.held

theorem Killing.settled_step_iff (killing : Killing env rootDir id pid pool) (i : I)
    (settled : Settled rootDir id pool) :
    Settled rootDir id (pool.step i) ↔ LeavesSettled env rootDir id pool i := by
  cases here : pool.scripts i with
  | done result =>
    rw [Pool.step_of_done here]
    refine ⟨fun _ call labelled => ?_, fun _ => settled⟩
    rw [here] at labelled
    nomatch labelled
  | step call effect next =>
    obtain ⟨⟨writes, tidy, stops⟩, _⟩ := Pool.keeps_step killing.keeps here killing.held
    have status := writes.statusAt tidy
    have taken := Pool.step_of_step here
    constructor
    · intro after call' labelled put puts live j returned
      rw [here] at labelled
      cases labelled
      obtain ⟨config, ended⟩ := returned
      have down := after ⟨j, config, Pool.step_keeps_done ended⟩ put (by rw [taken, status, puts]; rfl)
      rw [down] at live
      nomatch live
    · intro leaves returned put found
      obtain ⟨j, config, ended⟩ := returned
      rw [taken, status] at found
      cases puts : call.puts? env (statePathOf rootDir id) pool.state with
      | some put' =>
        rw [puts, Option.some_or, Option.some.injEq] at found
        subst found
        by_contra live
        have early : ∀ j, ¬ Returned pool j := by
          refine leaves call ?_ put' puts (Bool.not_eq_false _ ▸ live)
          rw [here]
          rfl
        by_cases same : j = i
        · subst same
          rw [Pool.step_scripts_self here] at ended
          rw [stops config ended, Option.some.injEq] at puts
          rw [← puts] at live
          exact live rfl
        · rw [Pool.step_scripts_of_ne same] at ended
          exact early j ⟨config, ended⟩
      | none =>
        rw [puts, Option.none_or] at found
        by_cases same : j = i
        · subst same
          rw [Pool.step_scripts_self here] at ended
          rw [stops config ended] at puts
          nomatch puts
        · rw [Pool.step_scripts_of_ne same] at ended
          exact settled ⟨j, config, ended⟩ put found

/-- In every interleaving of any number of kill commands, once one has returned true the status
on disk stays that of a container that is down if and only if no kill, failing to send its signal,
puts back the status of a live container after that. -/
theorem kills_settle_iff {sys : Sys} {status : Status} (held : Holding sys.files rootDir id pid status)
    (signums : I → Int32) (schedule : List I) :
    let start := together rootDir id (fun i => killCommand env (signums i)) sys
    Along Pool.step (fun pool i => Settled rootDir id (pool.step i)) start schedule ↔
      Along Pool.step (LeavesSettled env rootDir id) start schedule := by
  intro start
  have killing : Killing env rootDir id pid start :=
    ⟨⟨status, held⟩, fun i => killCommand_keeps (signums i)⟩
  have fresh : Settled rootDir id start := by
    rintro ⟨i, config, ended⟩
    nomatch ended
  exact along_states_iff (Killing env rootDir id pid) (fun _ i killing => killing.step i)
    (fun _ i killing settled => killing.settled_step_iff i settled) killing fresh

end Race

def sysWith (status : Status) : Sys :=
  (stateFileCreate Env.calm (some "now") ((placedWorld []).withStatus status)).state.sys

theorem sysWith_holding {status : Status} (valid : status ≠ .invalid) :
    Holding (sysWith status).files (some "/run") "c1" 4242 status := by
  have created : (stateFileCreate Env.calm (some "now")).Succeeds ((placedWorld []).withStatus status) :=
    stateFileCreate_succeeds_iff.mpr ⟨⟨_, rfl⟩, valid, rfl⟩
  obtain ⟨inputs, _, named, _, stored⟩ := Stored.of_create created
  have same : inputs.id = "c1" := (Option.some.inj named).symm
  have placed : (placedWorld []).config.state.runtimePath = runtimePath (some "/run") "c1" := by decide
  exact ⟨_, inputs, stored (by rw [same]; exact placed), rfl, same, rfl, rfl⟩

def oneSignalEnv : Env :=
  { Env.calm with host := fun clock => { Host.calm with kill := fun _ _ => decide (clock ≤ 2) } }

def twoKills : Pool (Fin 2) SysCall Sys (Exit × Config) :=
  together (some "/run") "c1" (fun _ => killCommand oneSignalEnv sigterm) (sysWith .running)

-- One kill after the other: the second finds the container stopped, and puts that back.
theorem kills_in_turn_settle :
    Along Pool.step (fun pool i => Settled (some "/run") "c1" (pool.step i)) twoKills
      [0, 0, 0, 0, 1, 1, 1, 1] := by
  refine (kills_settle_iff (sysWith_holding (by decide)) (fun _ => sigterm) _).mpr ?_
  have down : Along Pool.step (fun (pool : Pool (Fin 2) SysCall Sys (Exit × Config)) i =>
      ((pool.scripts i).label?.bind (SysCall.puts? oneSignalEnv (statePathOf (some "/run") "c1")
        pool.state)).all (fun status => !status.live) = true) twoKills [0, 0, 0, 0, 1, 1, 1, 1] := by
    decide +kernel
  refine down.mono fun pool i dead call labelled status puts live => ?_
  rw [labelled, Option.bind_some, puts, Option.all_some, live] at dead
  nomatch dead

/-- The second kill has read the state before the first one ends: it cannot send its signal any more,
and puts running back over stopped. -/
theorem failed_kill_revives :
    let schedule : List (Fin 2) := [0, 1, 0, 0, 0, 1, 1, 1]
    let after := schedule.foldl Pool.step twoKills
    statusAt twoKills.state.files (statePathOf (some "/run") "c1") = some .running ∧
      Returned ((schedule.take 5).foldl Pool.step twoKills) 0 ∧
      statusAt after.state.files (statePathOf (some "/run") "c1") = some .running ∧
      ¬ Along Pool.step (fun pool i => Settled (some "/run") "c1" (pool.step i)) twoKills schedule := by
  intro schedule after
  have facts : statusAt twoKills.state.files (statePathOf (some "/run") "c1") = some .running ∧
      Returned ((schedule.take 5).foldl Pool.step twoKills) 0 ∧ Returned after 0 ∧
      statusAt after.state.files (statePathOf (some "/run") "c1") = some .running := by
    decide +kernel
  obtain ⟨running, first, ended, last⟩ := facts
  refine ⟨running, first, last, fun settled => ?_⟩
  have live := along_iff_split.mp settled [0, 1, 0, 0, 0, 1, 1] 1 [] rfl ⟨0, ended⟩ .running last
  nomatch live

end ClrOci
