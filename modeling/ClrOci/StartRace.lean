import ClrOci.KillRace

/-! A start and a kill at the same time.

A foreground start waits for the end of the VM. It reads the state again then, to tell whether the
VM was stopped by another command; otherwise it cleans up.
-/

set_option autoImplicit false

namespace ClrOci

open Foundation

def NextCleans (script : Script SysCall Sys (Exit × Config)) : Prop :=
  ∃ call, script.label? = some call ∧ call.cleans = true

@[simp] theorem nextCleans_done (result : Exit × Config) : ¬ NextCleans (.done result) := by
  rintro ⟨call, labelled, _⟩
  nomatch labelled

@[simp] theorem nextCleans_step {call : SysCall} {effect : Sys → Sys}
    {next : Sys → Script SysCall Sys (Exit × Config)} :
    NextCleans (.step call effect next) ↔ call.cleans = true := by
  simp [NextCleans, Script.label?]

def FindsLive (rootDir : Option String) (id : String) (call : SysCall) (sys : Sys) : Prop :=
  call = .reread ∧ ∃ fetched, fetch rootDir id sys = some fetched ∧
    ¬ (fetched.state.status = .stopped ∨ fetched.state.status = .stopping)

instance (rootDir : Option String) (id : String) (call : SysCall) (sys : Sys) :
    Decidable (FindsLive rootDir id call sys) :=
  decidable_of_iff (call = .reread ∧ (fetch rootDir id sys).any fun fetched =>
    ¬ (fetched.state.status = .stopped ∨ fetched.state.status = .stopping)) (by
      simp [FindsLive, Option.any_eq_true])

section Start
variable {env : Env} {rootDir : Option String} {id : String} {pid : GPid}

def Undisturbed (rootDir : Option String) (id : String) (pid : GPid) (call : SysCall) (sys : Sys) :
    Prop :=
  call.cleans = false ∧ HasState rootDir id pid call sys

/-- A start writes no status but running, and goes on to clean up exactly if it reads the state
again and finds the container live. -/
def StartRule (env : Env) (rootDir : Option String) (id : String) (call : SysCall) (before : Sys)
    (next : Script SysCall Sys (Exit × Config)) : Prop :=
  (∀ status, call.puts? env (statePathOf rootDir id) before = some status → status = .running) ∧
    (NextCleans next ↔ FindsLive rootDir id call before)

structure Starts (env : Env) (rootDir : Option String) (id : String) (pid : GPid)
    (script : Script SysCall Sys (Exit × Config)) : Prop where
  tidy : ¬ NextCleans script
  keeps : script.Keeps (Undisturbed rootDir id pid)
    (Guarantees env rootDir id pid (StartRule env rootDir id))

theorem Starts.done (result : Exit × Config) : Starts env rootDir id pid (.done result) :=
  ⟨nextCleans_done result, trivial⟩

theorem Starts.quiet {call : SysCall} {effect : Sys → Sys}
    {next : Sys → Script SysCall Sys (Exit × Config)} (tidy : call.cleans = false)
    (silent : ∀ sys, call.puts? env (statePathOf rootDir id) sys = none) (other : call ≠ .reread)
    (same : ∀ sys, (effect sys).files = sys.files)
    (further : ∀ sys, Starts env rootDir id pid (next sys)) :
    Starts env rootDir id pid (.step call effect next) := by
  refine ⟨by simp [tidy], fun sys _ => ⟨⟨Writes.of_same (silent sys) (same sys), ?_, ?_⟩, ?_⟩⟩
  · intro status puts
    rw [silent sys] at puts
    nomatch puts
  · exact ⟨fun cleans => absurd cleans (further sys).tidy, fun found => absurd found.1 other⟩
  · exact (further sys).keeps

-- The write of running, from a configuration that is fit for it or lacks a value.
theorem Starts.write {created : Option String} {config : Config}
    (inputs : config.Fit rootDir id pid created ∨ stateInputs config created = none)
    {rest : Exit × Config → Script SysCall Sys (Exit × Config)}
    (refused : ∀ config', Starts env rootDir id pid (rest (.returned false, config')))
    (written : ∀ config', config'.Fit rootDir id pid created →
      Starts env rootDir id pid (rest (.returned true, config'))) :
    Starts env rootDir id pid ((writeSteps env created .running config).bind rest) := by
  rcases inputs with fit | unfit
  · refine ⟨by simp [writeSteps, Procedure.atomic, Script.bind, SysCall.cleans], ?_⟩
    refine fit.keeps_write (by decide) fun sys config' fit' => ?_
    have next : Starts env rootDir id pid
        (rest (.returned ((env.host sys.clock).setContents (statePathOf rootDir id)), config')) := by
      cases (env.host sys.clock).setContents (statePathOf rootDir id) with
      | true => exact written config' fit'
      | false => exact refused config'
    refine ⟨⟨fun status puts => ?_, fun cleans => absurd cleans next.tidy,
      fun found => absurd found.1 (by simp)⟩, next.keeps⟩
    exact (Option.some.inj (Option.ite_none_right_eq_some.mp puts).2).symm
  · have lacks : SysCall.write .running (stateInputs config created).isSome = .write .running false := by
      rw [unfit]
      rfl
    have stays : ∀ sys, writeStatus env created .running ⟨config, sys⟩ =
        ⟨.returned false, (⟨config, sys⟩ : World).withStatus .running⟩ :=
      fun sys => writeStatus_of_unfit env sys .running unfit
    rw [writeSteps, Procedure.atomic, lacks, Script.bind]
    refine Starts.quiet rfl (fun _ => rfl) (by simp) (fun sys => ?_) fun sys => ?_
    · rw [stays]
      rfl
    · rw [stays]
      exact refused _

-- One step of the runtime that leaves the files alone, and what follows its success.
theorem Starts.atomic {call : Config → SysCall} {action : Action World} {next : Procedure}
    {config : Config} (tidy : (call config).cleans = false)
    (silent : ∀ sys, (call config).puts? env (statePathOf rootDir id) sys = none)
    (other : call config ≠ .reread)
    (same : ∀ sys, (action ⟨config, sys⟩).state.sys.files = sys.files)
    (further : ∀ sys, Starts env rootDir id pid (next (action ⟨config, sys⟩).state.config)) :
    Starts env rootDir id pid (((Procedure.atomic call action).andThen next) config) := by
  refine Starts.quiet tidy silent other same fun sys => ?_
  change Starts env rootDir id pid (if (action ⟨config, sys⟩).exit = .returned true then
    next (action ⟨config, sys⟩).state.config else .done _)
  split
  · exact further sys
  · exact Starts.done _

theorem cleanupSteps_step (env : Env) (config : Config) :
    ∃ call effect next, cleanupSteps env config = .step call effect next ∧ call.cleans = true := by
  rw [cleanupSteps, Procedure.andThen, unmountSteps]
  cases config.oci.mounts with
  | nil => exact ⟨.unlink, _, _, rfl, rfl⟩
  | cons mount rest => exact ⟨.umount mount.dest.text, _, _, rfl, rfl⟩

theorem fetch_state {config : Config} (named : config.optargContainerId = some id)
    (root : config.rootDir = rootDir) (sys : Sys) :
    (fetch rootDir id sys).map Fetched.state =
      (getConfigAndState sys.files config).map Fetched.state := by
  rw [fetch, getConfigAndState_eq rfl, getConfigAndState_eq named, root, Config.setContainerId_rootDir]
  simp only [Config.fresh, Option.bind_eq_bind]
  cases stateFileRead sys.files (stateFilePath (runtimePath rootDir id)).text with
  | none => rfl
  | some state =>
    simp only [Option.bind_some]
    cases configFilePath state.bundlePath <;> rfl

/-- The loop ends when the VM is gone; what the state file holds then decides on the cleanup. -/
theorem afterLoopSteps_starts {config : Config} (named : config.optargContainerId = some id)
    (root : config.rootDir = rootDir) (failed : Bool)
    {rest : Teardown → Script SysCall Sys (Exit × Config)}
    (ends : ∀ ended, Starts env rootDir id pid (rest ended)) :
    Starts env rootDir id pid ((afterLoopSteps env failed config).bind rest) := by
  refine ⟨by simp [afterLoopSteps, Script.bind, SysCall.cleans], fun sys _ => ?_⟩
  have found := fetch_state named root sys
  have silent : ∀ status, SysCall.reread.puts? env (statePathOf rootDir id) sys = some status →
      status = .running := fun _ puts => absurd puts.symm (Option.some_ne_none _)
  dsimp only [Function.id_def]
  cases got : getConfigAndState sys.files config with
  | none =>
    rw [got, Option.map_none, Option.map_eq_none_iff] at found
    have lost : ¬ FindsLive rootDir id .reread sys := by
      rintro ⟨_, fetched, other, _⟩
      rw [found] at other
      cases other
    exact ⟨⟨Writes.of_same rfl rfl, silent, fun cleans => absurd cleans (ends _).tidy,
      fun found => absurd found lost⟩, (ends _).keeps⟩
  | some fetched =>
    rw [got, Option.map_some, Option.map_eq_some_iff] at found
    obtain ⟨fetched', got', state⟩ := found
    have live : FindsLive rootDir id .reread sys ↔
        ¬ (fetched.state.status = .stopped ∨ fetched.state.status = .stopping) := by
      rw [← state]
      refine ⟨?_, fun live => ⟨rfl, fetched', got', live⟩⟩
      rintro ⟨_, other, again, live⟩
      cases got'.symm.trans again
      exact live
    dsimp only
    split
    · next down =>
      exact ⟨⟨Writes.of_same rfl rfl, silent, fun cleans => absurd cleans (ends _).tidy,
        fun found => absurd down (live.mp found)⟩, (ends _).keeps⟩
    · next up =>
      obtain ⟨call, effect, next, shape, cleans⟩ := cleanupSteps_step env fetched.config
      rw [shape]
      refine ⟨⟨Writes.of_same rfl rfl, silent, fun _ => live.mpr up, fun _ => ⟨call, rfl, cleans⟩⟩, ?_⟩
      exact fun state' allowed => absurd (cleans.symm.trans allowed.1) (by decide)

theorem waitSteps_starts {config : Config} (named : config.optargContainerId = some id)
    (root : config.rootDir = rootDir) :
    Starts env rootDir id pid (((waitSteps env).andThen Procedure.succeed) config) := by
  refine Starts.quiet rfl (fun _ => rfl) (fun same => nomatch same) (fun sys => ?_) fun sys => ?_
  · split <;> rfl
  · dsimp only
    cases (env.host sys.clock).mainLoop sys.files with
    | none => exact Starts.done _
    | some wakeup =>
      rw [Script.bind_assoc]
      refine afterLoopSteps_starts named root wakeup.failed fun ended => ?_
      dsimp only [Script.bind]
      split <;> exact Starts.done _

theorem resumeSteps_starts {created : Option String} {config : Config}
    (inputs : config.Fit rootDir id pid created ∨ stateInputs config created = none) {next : Procedure}
    (further : ∀ config', config'.Fit rootDir id pid created →
      Starts env rootDir id pid (next config')) :
    Starts env rootDir id pid (((resumeSteps env created).andThen next) config) := by
  refine Starts.quiet rfl (fun _ => rfl) (fun same => nomatch same) (fun sys => ?_) fun sys => ?_
  · unfold kill
    split <;> rfl
  · dsimp only
    split
    · refine Starts.write inputs (fun _ => Starts.done _) fun config' fit => further config' fit
    · exact Starts.done _

theorem overrideBundle_inputs {created : Option String} {config : Config}
    (fit : config.Fit rootDir id pid created) (data : StartData) (sys : Sys) :
    let config' := (overrideBundle env data ⟨config, sys⟩).state.config
    config'.Fit rootDir id pid created ∨ stateInputs config' created = none := by
  unfold overrideBundle
  split
  · exact Or.inl fit
  · next bundle _ =>
    obtain ⟨fits, lacks⟩ := fit.withBundle (resolvePath (env.host sys.clock) (some bundle))
    by_cases resolved : resolvePath (env.host sys.clock) (some bundle) = none
    · exact Or.inr (lacks resolved)
    · exact Or.inl (fits (Option.isSome_iff_ne_none.mpr resolved))

theorem startSteps_starts {state : OciState} {config : Config}
    (fit : config.Fit rootDir id pid state.createTime) (data : StartData) :
    Starts env rootDir id pid (startSteps env data state config) := by
  unfold startSteps
  split
  · exact Starts.done _
  · refine Starts.quiet rfl (fun _ => rfl) (fun same => nomatch same) (fun _ => rfl) fun sys => ?_
    have overridden : ∀ sys, (overrideBundle env data ⟨config, sys⟩).state.sys.files = sys.files := by
      intro sys
      unfold overrideBundle
      split <;> rfl
    refine Starts.atomic rfl (fun _ => rfl) (fun same => nomatch same) overridden fun sys => ?_
    refine Starts.atomic rfl (fun _ => rfl) (fun same => nomatch same) (fun _ => rfl) fun sys' => ?_
    refine resumeSteps_starts ?_ fun config' fit' => ?_
    · exact overrideBundle_inputs fit data sys
    · refine Starts.atomic rfl (fun _ => rfl) (fun same => nomatch same) (fun sys => ?_) fun sys => ?_
      · exact (runHooks_frame env config'.oci.hooks.poststart config'.state.stateFilePath.text false sys).1
      · split
        · exact waitSteps_starts fit'.named fit'.root
        · exact Starts.done _

/-- What a start command guarantees, from its beginning on a container with a state file. -/
theorem startCommand_keeps (data : StartData) :
    Starts env rootDir id pid (startCommand env data ((Config.fresh rootDir).setContainerId (some id))) := by
  refine ⟨by simp [startCommand, readState, SysCall.cleans], ?_⟩
  have other : ∀ sys, ¬ FindsLive rootDir id .read sys := fun _ found => absurd found.1 (by decide)
  have quiet : ∀ (sys : Sys) {next : Script SysCall Sys (Exit × Config)},
      Starts env rootDir id pid next → StartRule env rootDir id .read sys next :=
    fun sys _ starts => ⟨fun _ puts => absurd puts.symm (Option.some_ne_none _),
      fun cleans => absurd cleans starts.tidy, fun found => absurd found (other sys)⟩
  refine readState_keeps (fun _ allowed => allowed.2) (fun sys config => quiet sys (Starts.done _)) ?_
  intro sys state config fit _ _ _
  have starts : Starts env rootDir id pid (startSteps env data state config) :=
    startSteps_starts fit data
  exact ⟨quiet sys starts, starts.keeps⟩

end Start

inductive Party where
  | start | kill
  deriving DecidableEq

def startAndKill (env : Env) (data : StartData) (signum : Int32) : Party → Procedure
  | .start => startCommand env data
  | .kill => killCommand env signum

section Race
variable (env : Env) (rootDir : Option String) (id : String)

def Tidy (pool : Pool Party SysCall Sys (Exit × Config)) (party : Party) : Prop :=
  ∀ call, (pool.scripts party).label? = some call → ¬ call.cleans = true

/-- The start puts running on disk before the kill has returned true, and finds the container stopped
or stopping when it reads the state again. -/
def Timely (pool : Pool Party SysCall Sys (Exit × Config)) : Party → Prop
  | .kill => True
  | .start => ∀ call, (pool.scripts .start).label? = some call →
    ((call.puts? env (statePathOf rootDir id) pool.state).isSome → ¬ Returned pool .kill) ∧
      ¬ FindsLive rootDir id call pool.state

instance (pool : Pool Party SysCall Sys (Exit × Config)) (party : Party) :
    Decidable (Tidy pool party) :=
  inferInstanceAs (Decidable (∀ call ∈ (pool.scripts party).label?, ¬ call.cleans = true))

instance (pool : Pool Party SysCall Sys (Exit × Config)) :
    ∀ party, Decidable (Timely env rootDir id pool party)
  | .kill => isTrue trivial
  | .start => inferInstanceAs (Decidable (∀ call ∈ (pool.scripts .start).label?,
      ((call.puts? env (statePathOf rootDir id) pool.state).isSome → ¬ Returned pool .kill) ∧
        ¬ FindsLive rootDir id call pool.state))

def Counts (rootDir : Option String) (id : String) (pid : GPid) : Party → SysCall → Sys → Prop
  | .start => Undisturbed rootDir id pid
  | .kill => HasState rootDir id pid

def Rule (env : Env) (rootDir : Option String) (id : String) :
    Party → SysCall → Sys → Script SysCall Sys (Exit × Config) → Prop
  | .start => StartRule env rootDir id
  | .kill => KillRule env rootDir id

structure Racing (pid : GPid) (pool : Pool Party SysCall Sys (Exit × Config)) : Prop where
  held : ∃ status, Holding pool.state.files rootDir id pid status
  keeps : ∀ party, (pool.scripts party).Keeps (Counts rootDir id pid party)
    (Guarantees env rootDir id pid (Rule env rootDir id party))

variable {env rootDir id} {pid : GPid} {pool : Pool Party SysCall Sys (Exit × Config)}
  {party : Party} {call : SysCall} {effect : Sys → Sys}
  {next : Sys → Script SysCall Sys (Exit × Config)}

theorem Racing.counts (racing : Racing env rootDir id pid pool) (party : Party)
    (tidy : call.cleans = false) : Counts rootDir id pid party call pool.state := by
  cases party with
  | start => exact ⟨tidy, racing.held⟩
  | kill => exact racing.held

theorem Racing.step_of_step (racing : Racing env rootDir id pid pool)
    (here : pool.scripts party = .step call effect next) (tidy : call.cleans = false) :
    Racing env rootDir id pid (pool.step party) ∧
      Rule env rootDir id party call pool.state (next pool.state) ∧
      statusAt (pool.step party).state.files (statePathOf rootDir id) =
        (call.puts? env (statePathOf rootDir id) pool.state).or
          (statusAt pool.state.files (statePathOf rootDir id)) := by
  obtain ⟨⟨writes, rule⟩, keeps⟩ := Pool.keeps_step racing.keeps here (racing.counts party tidy)
  have taken := Pool.step_of_step here
  refine ⟨⟨?_, keeps⟩, rule, ?_⟩
  · rw [taken]
    exact writes.holding tidy racing.held
  · rw [taken]
    exact writes.statusAt tidy

theorem Racing.kill_tidy (racing : Racing env rootDir id pid pool) : Tidy pool .kill := by
  intro call labelled
  have keeps := racing.keeps .kill
  cases here : pool.scripts .kill with
  | done result =>
    rw [here] at labelled
    nomatch labelled
  | step call' effect next =>
    rw [here] at labelled keeps
    cases labelled
    rw [(keeps pool.state racing.held).1.2.1]
    exact Bool.false_ne_true

theorem Racing.step (racing : Racing env rootDir id pid pool) (tidy : Tidy pool party) :
    Racing env rootDir id pid (pool.step party) := by
  cases here : pool.scripts party with
  | done result =>
    rw [Pool.step_of_done here]
    exact racing
  | step call effect next =>
    exact (racing.step_of_step here (Bool.eq_false_iff.mpr (tidy call (by rw [here]; rfl)))).1

/-- After the kill has returned, a status that the start puts on disk stays there while nothing is
cleaned up. -/
theorem stays_running (racing : Racing env rootDir id pid pool) (killed : Returned pool .kill)
    (running : statusAt pool.state.files (statePathOf rootDir id) = some .running)
    {schedule : List Party} (tidy : Along Pool.step Tidy pool schedule) :
    statusAt (schedule.foldl Pool.step pool).state.files (statePathOf rootDir id) = some .running := by
  have kept := foldl_keeps (fun pool => Racing env rootDir id pid pool ∧ Returned pool .kill ∧
      statusAt pool.state.files (statePathOf rootDir id) = some .running)
    (fun pool party ⟨racing, killed, running⟩ tidy => ?_) ⟨racing, killed, running⟩ tidy
  · exact kept.2.2
  · obtain ⟨config, ended⟩ := killed
    refine ⟨racing.step tidy, ⟨config, Pool.step_keeps_done ended⟩, ?_⟩
    cases here : pool.scripts party with
    | done result =>
      rw [Pool.step_of_done here]
      exact running
    | step call effect next =>
      cases party with
      | kill =>
        rw [ended] at here
        nomatch here
      | start =>
        obtain ⟨_, rule, status⟩ := racing.step_of_step here
          (Bool.eq_false_iff.mpr (tidy call (by rw [here]; rfl)))
        rw [status, running]
        cases puts : call.puts? env (statePathOf rootDir id) pool.state with
        | none => rfl
        | some put => rw [rule.1 put puts]; rfl

/-- A run in time is one in which the start never cleans up, and a kill that has returned true leaves
the container stopped. -/
theorem timely_settles (racing : Racing env rootDir id pid pool)
    (before : ¬ NextCleans (pool.scripts .start)) (running : ∀ config,
      pool.scripts .kill ≠ .done (.returned true, config)) {schedule : List Party}
    (timely : Along Pool.step (Timely env rootDir id) pool schedule) :
    Along Pool.step Tidy pool schedule ∧ (Returned (schedule.foldl Pool.step pool) .kill →
      statusAt (schedule.foldl Pool.step pool).state.files (statePathOf rootDir id) =
        some .stopped) := by
  let invariant (pool : Pool Party SysCall Sys (Exit × Config)) : Prop :=
    Racing env rootDir id pid pool ∧ ¬ NextCleans (pool.scripts .start) ∧ (Returned pool .kill →
      statusAt pool.state.files (statePathOf rootDir id) = some .stopped)
  have tidy : ∀ pool party, invariant pool → Timely env rootDir id pool party → Tidy pool party := by
    rintro pool party ⟨racing, before, _⟩ _
    cases party with
    | start => exact fun call labelled cleans => before ⟨call, labelled, cleans⟩
    | kill => exact racing.kill_tidy
  have kept : ∀ pool party, invariant pool → Timely env rootDir id pool party →
      invariant (pool.step party) := by
    rintro pool party ⟨racing, before, settled⟩ timely
    have calm := tidy pool party ⟨racing, before, settled⟩ timely
    cases here : pool.scripts party with
    | done result =>
      rw [Pool.step_of_done here]
      exact ⟨racing, before, settled⟩
    | step call effect next =>
      have labelled : (pool.scripts party).label? = some call := by rw [here]; rfl
      obtain ⟨after, rule, status⟩ := racing.step_of_step here (Bool.eq_false_iff.mpr (calm call labelled))
      have taken := Pool.step_scripts_self here
      refine ⟨after, ?_, ?_⟩
      · cases party with
        | start =>
          rw [taken, rule.2]
          exact (timely call labelled).2
        | kill =>
          rw [Pool.step_scripts_of_ne (by decide)]
          exact before
      · rintro ⟨config, ended⟩
        rw [status]
        cases party with
        | start =>
          rw [Pool.step_scripts_of_ne (by decide)] at ended
          cases puts : call.puts? env (statePathOf rootDir id) pool.state with
          | none => exact settled ⟨config, ended⟩
          | some put => exact absurd ⟨config, ended⟩ ((timely call labelled).1 (by rw [puts]; rfl))
        | kill =>
          rw [taken] at ended
          rw [rule.2 config ended]
          rfl
  have holds : invariant pool := ⟨racing, before, fun ⟨config, ended⟩ => absurd ended (running config)⟩
  exact ⟨Along.of_invariant invariant kept tidy holds timely,
    (foldl_keeps invariant kept holds timely).2.2⟩

/-- When the start ends without a cleanup on a stopped container, the run was in time. -/
theorem settled_is_timely (racing : Racing env rootDir id pid pool) {schedule : List Party}
    (ended : ((schedule.foldl Pool.step pool).scripts .start).result?.isSome = true)
    (stopped : statusAt (schedule.foldl Pool.step pool).state.files (statePathOf rootDir id) =
      some .stopped)
    (tidy : Along Pool.step Tidy pool schedule) :
    Along Pool.step (Timely env rootDir id) pool schedule := by
  induction schedule generalizing pool with
  | nil => trivial
  | cons party rest ih =>
    refine ⟨?_, ih (racing.step tidy.1) ended stopped tidy.2⟩
    cases party with
    | kill => trivial
    | start =>
      intro call labelled
      cases here : pool.scripts .start with
      | done result =>
        rw [here] at labelled
        nomatch labelled
      | step call' effect next =>
        rw [here] at labelled
        cases labelled
        obtain ⟨after, rule, status⟩ := racing.step_of_step here
          (Bool.eq_false_iff.mpr (tidy.1 call (by rw [here]; rfl)))
        refine ⟨fun puts killed => ?_, fun found => ?_⟩
        · obtain ⟨put, puts⟩ := Option.isSome_iff_exists.mp puts
          obtain ⟨config, done⟩ := killed
          rw [puts, rule.1 put puts] at status
          have last := stays_running after ⟨config, Pool.step_keeps_done done⟩ status tidy.2
          cases last.symm.trans stopped
        · obtain ⟨label, labelled, cleans⟩ := rule.2.mpr found
          cases shape : next pool.state with
          | done result =>
            rw [shape] at labelled
            nomatch labelled
          | step label' effect' next' =>
            rw [shape] at labelled
            cases labelled
            have waits := Pool.foldl_waits ((Pool.step_scripts_self here).trans shape) cleans tidy.2
            rw [List.foldl_cons, waits] at ended
            nomatch ended

/-- In every interleaving of a start and a kill that both end, the kill having returned true: the
status is stopped at the end and the start does not clean up, if and only if the start puts running
on disk before the kill has returned, and finds the container stopped or stopping when it reads the
state again. -/
theorem killed_start_iff {sys : Sys} {status : Status}
    (held : Holding sys.files rootDir id pid status) (data : StartData) (signum : Int32)
    (schedule : List Party) :
    let start := together rootDir id (startAndKill env data signum) sys
    let final := schedule.foldl Pool.step start
    (final.scripts .start).result?.isSome = true → Returned final .kill →
      ((statusAt final.state.files (statePathOf rootDir id) = some .stopped ∧
          Along Pool.step Tidy start schedule) ↔
        Along Pool.step (Timely env rootDir id) start schedule) := by
  intro start final ended killed
  have starts : Starts env rootDir id pid (start.scripts .start) := startCommand_keeps data
  have racing : Racing env rootDir id pid start := by
    refine ⟨⟨status, held⟩, fun party => ?_⟩
    cases party with
    | start => exact starts.keeps
    | kill => exact killCommand_keeps signum
  constructor
  · rintro ⟨stopped, tidy⟩
    exact settled_is_timely racing ended stopped tidy
  · intro timely
    obtain ⟨tidy, settled⟩ := timely_settles racing starts.tidy (fun _ ended => nomatch ended) timely
    exact ⟨settled killed, tidy⟩

end Race

def terminalEnv : Env := { Env.calm with host := fun _ => { Host.calm with isatty := true } }

def startThenKill : Pool Party SysCall Sys (Exit × Config) :=
  together (some "/run") "c1" (startAndKill terminalEnv {} sigterm) (sysWith .created)

def killedWhileWaiting : List Party := List.replicate 7 .start ++ List.replicate 4 .kill ++ [.start, .start]

theorem kill_of_waiting_start :
    let final := killedWhileWaiting.foldl Pool.step startThenKill
    statusAt final.state.files (statePathOf (some "/run") "c1") = some .stopped ∧
      Along Pool.step Tidy startThenKill killedWhileWaiting :=
  (killed_start_iff (sysWith_holding (by decide)) {} sigterm killedWhileWaiting (by decide +kernel)
    (by decide +kernel)).mpr (by decide +kernel)

/-- The kill comes between the signal that continues the VM and the write of running: the start then
takes the container for one whose VM has ended by itself, and deletes its state. -/
theorem killed_start_cleans_up :
    let schedule : List Party := List.replicate 5 .start ++ List.replicate 4 .kill ++
      List.replicate 6 .start
    let final := schedule.foldl Pool.step startThenKill
    (final.scripts .start).result?.map Prod.fst = some (.returned true) ∧ Returned final .kill ∧
      statusAt final.state.files (statePathOf (some "/run") "c1") = none ∧
      ¬ Along Pool.step Tidy startThenKill schedule := by
  decide +kernel

end ClrOci
