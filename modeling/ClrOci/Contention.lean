import ClrOci.CleanupRace
import ClrOci.Foundation.Histories

/-! Any number of commands at work on one container at the same time.

Between two atomic steps of a command the others may do anything, so its picture of the state file
can be old. What is on disk is still simple: the file is a register, and each write and each removal
replaces all of it.
-/

set_option autoImplicit false

namespace ClrOci

open Foundation

inductive Deed where
  | call (call : SysCall)
  | qmp (command : QmpCommand)
  deriving DecidableEq

abbrev Course := Config → Script Deed Sys (Exit × Config)

def Course.alone (course : Course) : Action World := fun world =>
  let ended := (course world.config).alone world.sys
  ⟨ended.1.1, ended.1.2, ended.2⟩

def Procedure.course (procedure : Procedure) : Course := fun config => (procedure config).relabel .call

section Courses
variable (env : Env)

/-- `clr_oci_toggle`, step by step. -/
def toggleSteps (pause : Bool) (state : OciState) : Course := fun config =>
  if state.status = toggleDest pause then .done (.returned true, config)
  else
    .step (.qmp (toggleCommand pause)) Sys.tick fun sys =>
      match (env.host sys.clock).qmp (toggleCommand pause) (state.commsPath.getD "") state.pid with
      | .returned true => Procedure.course (writeSteps env state.createTime (toggleDest pause)) config
      | refused => .done (refused, config)

def toggleCourse (pause : Bool) : Course := fun config =>
  .step (.call .read) id fun sys =>
    match getConfigAndState sys.files config with
    | none => .done (.returned false, config)
    | some fetched => toggleSteps env pause fetched.state (configUpdate fetched.config fetched.state)

/-- The cleanup of `clr_oci_stop` and the hooks after it. -/
def stopCleanup : Course := fun config =>
  ((stopSteps env config).relabel .call).bind fun ended => .done (ended.exit, ended.config)

/-- `clr_oci_stop`, step by step. -/
def downSteps (state : OciState) : Course := fun config =>
  if state.pid = 0 then stopCleanup env config
  else
    .step (.call (.kill 0)) Sys.tick fun sys =>
      if !(env.host sys.clock).kill state.pid 0 then stopCleanup env config
      else
        .step (.qmp .shutdown) Sys.tick fun sys =>
          match (env.host sys.clock).qmp .shutdown (state.commsPath.getD "") state.pid with
          | .returned true => stopCleanup env config
          | refused => .done (refused, config)

/-- `handle_command_stop`, step by step: the file is looked for, read, and the bundle parsed. -/
def stopCourse : Course := fun config =>
  .step (.call .look) id fun sys =>
    let found := stateFileExists sys.files config
    if !found.1 then .done (.returned true, found.2)
    else
      .step (.call .read) id fun sys =>
        match getConfigAndState sys.files found.2 with
        | none => .done (.returned false, found.2)
        | some fetched =>
          .step (.call .parse) id fun sys =>
            match jsonParseFile sys.files fetched.configFile with
            | none => .done (.returned true, fetched.config)
            | some root =>
              match root.children.foldlM (processConfigStop (env.host sys.clock))
                  ({ config := fetched.config } : Parse) with
              | none => .done (.aborted, found.2)
              | some parse =>
                downSteps env fetched.state
                  { parse.config with oci := { parse.config.oci with mounts := fetched.state.mounts } }

inductive Order where
  | kill (signum : Int32)
  | start (data : StartData)
  | toggle (pause : Bool)
  | stop

def Order.course : Order → Course
  | .kill signum => Procedure.course (killCommand env signum)
  | .start data => Procedure.course (startCommand env data)
  | .toggle pause => toggleCourse env pause
  | .stop => stopCourse env

def Order.action : Order → Action World
  | .kill signum => withState fun state => clrOciKill env state signum
  | .start data => withState (clrOciStart env data)
  | .toggle pause => withState fun state => clrOciToggle env state pause
  | .stop => fun world => handleCommandStop env [world.config.optargContainerId.getD ""] world

end Courses

section Alone
variable {env : Env}

theorem Procedure.course_alone (procedure : Procedure) : procedure.course.alone = procedure.alone := by
  funext world
  simp only [Course.alone, Procedure.course, Script.alone_relabel]
  rfl

theorem toggleSteps_alone (pause : Bool) (state : OciState) :
    (toggleSteps env pause state).alone = clrOciToggle env state pause := by
  funext world
  rw [Course.alone, toggleSteps, clrOciToggle, toggleDest, toggleCommand]
  by_cases found : state.status = if pause then Status.paused else Status.running
  · simp only [if_pos found]
    rfl
  · simp only [if_neg found, Script.alone]
    generalize (env.host world.sys.clock).qmp (if pause then .pause else .resume)
      (state.commsPath.getD "") state.pid = answer
    cases answer with
    | returned ok =>
      cases ok with
      | false => rfl
      | true =>
        exact congrFun (Procedure.course_alone (writeSteps env state.createTime
          (if pause then .paused else .running))) (world.withSys world.sys.tick)
    | _ => rfl

theorem toggleCourse_alone (pause : Bool) :
    (toggleCourse env pause).alone = withState fun state => clrOciToggle env state pause := by
  funext world
  rw [withState, Course.alone, toggleCourse, Script.alone]
  dsimp only [id]
  cases getConfigAndState world.sys.files world.config with
  | none => rfl
  | some fetched => exact congrFun (toggleSteps_alone pause fetched.state) ⟨_, world.sys⟩

theorem stopCleanup_alone : (stopCleanup env).alone = cleanupThenHooks env := by
  funext world
  have same := stopSteps_alone env world
  rw [Course.alone, stopCleanup, Script.alone_bind, Script.alone_relabel]
  exact same

theorem downSteps_alone (state : OciState) : (downSteps env state).alone = clrOciStop env state := by
  funext world
  have finish (sys : Sys) : (stopCleanup env).alone (world.withSys sys) =
      cleanupThenHooks env (world.withSys sys) := by rw [stopCleanup_alone]
  rw [Course.alone, downSteps, clrOciStop]
  by_cases unstarted : state.pid = 0
  · have down : vmDown env state world = ⟨.returned true, world⟩ := by
      simp only [vmDown, vmRunning, if_pos unstarted, Bool.not_false, ↓reduceIte]
      rfl
    rw [Action.andThen_of_succeeds (by rw [Action.Succeeds, down]), down]
    simp only [if_pos unstarted]
    exact finish world.sys
  · simp only [if_neg unstarted, Script.alone]
    cases answers : (env.host world.sys.clock).kill state.pid 0 with
    | false =>
      have down : vmDown env state world = ⟨.returned true, world.withSys world.sys.tick⟩ := by
        simp only [vmDown, vmRunning, if_neg unstarted, answers, Bool.not_false, ↓reduceIte]
      rw [Action.andThen_of_succeeds (by rw [Action.Succeeds, down]), down]
      exact finish world.sys.tick
    | true =>
      have down : vmDown env state world =
          ⟨(env.host world.sys.tick.clock).qmp .shutdown (state.commsPath.getD "") state.pid,
            world.withSys world.sys.tick.tick⟩ := by
        simp only [vmDown, vmRunning, if_neg unstarted, answers, Bool.not_true, Bool.false_eq_true,
          ↓reduceIte]
      simp only [Bool.not_true, Bool.false_eq_true, ↓reduceIte, Script.alone]
      by_cases shut : (env.host world.sys.tick.clock).qmp .shutdown (state.commsPath.getD "") state.pid =
          .returned true
      · rw [Action.andThen_of_succeeds (by rw [Action.Succeeds, down, shut]), down, shut]
        exact finish world.sys.tick.tick
      · rw [Action.andThen_of_stops (by rw [Action.Succeeds, down]; exact shut), down]
        generalize (env.host world.sys.tick.clock).qmp .shutdown (state.commsPath.getD "") state.pid =
          answer at shut
        cases answer with
        | returned ok =>
          cases ok with
          | false => rfl
          | true => exact absurd rfl shut
        | _ => rfl

/-- A stop that meets no other process is `handle_command_stop`. -/
theorem stopCourse_alone {world : World} {name : String}
    (named : world.config.optargContainerId = some name) (asked : handleDefaultUsage [name] = none) :
    (stopCourse env).alone world = handleCommandStop env [name] world := by
  have same : world.config.setContainerId (some name) = world.config := by
    rw [Config.setContainerId, ← named]
  simp only [handleCommandStop, asked, List.head?_cons, same]
  rw [Course.alone, stopCourse, Script.alone]
  dsimp only [id]
  cases present : (stateFileExists world.sys.files world.config).1 with
  | false => rfl
  | true =>
    simp only [Bool.not_true, Bool.false_eq_true, ↓reduceIte, Script.alone]
    dsimp only [id]
    cases getConfigAndState world.sys.files (stateFileExists world.sys.files world.config).2 with
    | none => rfl
    | some fetched =>
      simp only [Script.alone]
      dsimp only [id]
      cases jsonParseFile world.sys.files fetched.configFile with
      | none => rfl
      | some root =>
        simp only [stopFetched]
        cases root.children.foldlM (processConfigStop (env.host world.sys.clock))
            ({ config := fetched.config } : Parse) with
        | none => rfl
        | some parse =>
          exact congrFun (downSteps_alone fetched.state) ⟨{ parse.config with
            oci := { parse.config.oci with mounts := fetched.state.mounts } }, world.sys⟩

theorem Order.course_alone (sequential : env.Sequential) {order : Order} {world : World} {id : String}
    (named : world.config.optargContainerId = some id) (asked : handleDefaultUsage [id] = none) :
    (order.course env).alone world = order.action env world := by
  cases order with
  | kill signum =>
    have same := readState_alone fun state => killSteps_alone env state signum
    exact congrFun ((Procedure.course_alone _).trans same) world
  | start data =>
    have same := readState_alone fun state => startSteps_alone env sequential data state
    exact congrFun ((Procedure.course_alone _).trans same) world
  | toggle pause => exact congrFun (toggleCourse_alone pause) world
  | stop =>
    have stopped : (stopCourse env).alone world = handleCommandStop env [id] world :=
      stopCourse_alone named asked
    simp only [Order.action, named, Option.getD_some]
    exact stopped

end Alone

section Register
variable (env : Env) (rootDir : Option String) (id : String) (pid : GPid)

def SysCall.clears (sys : Sys) : SysCall → Bool
  | .unlink => (env.host sys.clock).unlink (statePathOf rootDir id)
  | .remove =>
    let dir := (runtimePath rootDir id).text
    isAbsolute dir && ((env.host sys.clock).system (rmCommand dir)).removed &&
      Sys.below dir (statePathOf rootDir id)
  | _ => false

/-- What a step makes of the status on disk, by its label and the outcome of its call. -/
def SysCall.record (call : SysCall) (sys : Sys) (value : Option Status) : Option Status :=
  if call.clears env rootDir id sys then none else (call.puts? env (statePathOf rootDir id) sys).or value

def Deed.record : Deed → Sys → Option Status → Option Status
  | .call made => made.record env rootDir id
  | .qmp _ => fun _ value => value

/-- There is no state file, or a whole one that names the process. -/
def Whole (sys : Sys) : Prop :=
  sys.files (statePathOf rootDir id) = none ∨ ∃ status, Holding sys.files rootDir id pid status

def Recording {A : Type} (script : Script SysCall Sys A) : Prop :=
  script.Keeps (fun _ sys => Whole rootDir id pid sys) fun call before after _ =>
    Whole rootDir id pid after ∧ statusAt after.files (statePathOf rootDir id) =
      call.record env rootDir id before (statusAt before.files (statePathOf rootDir id))

end Register

section Recording
variable {A B : Type} {env : Env} {rootDir : Option String} {id : String} {pid : GPid}

theorem statusAt_congr {before after : Sys}
    (same : after.files (statePathOf rootDir id) = before.files (statePathOf rootDir id)) :
    statusAt after.files (statePathOf rootDir id) = statusAt before.files (statePathOf rootDir id) := by
  rw [statusAt, statusAt, same]

theorem Whole.of_same {before after : Sys} (whole : Whole rootDir id pid before)
    (same : after.files (statePathOf rootDir id) = before.files (statePathOf rootDir id)) :
    Whole rootDir id pid after := by
  rcases whole with none | ⟨status, holding⟩
  · exact Or.inl (same.trans none)
  · exact Or.inr ⟨status, holding.of_same same⟩

theorem Whole.statusAt {sys : Sys} (whole : Whole rootDir id pid sys) :
    (∀ status, statusAt sys.files (statePathOf rootDir id) = some status →
      Holding sys.files rootDir id pid status) ∧
    (statusAt sys.files (statePathOf rootDir id) = none → sys.files (statePathOf rootDir id) = none) := by
  rcases whole with none | ⟨status, holding⟩
  · refine ⟨fun status there => ?_, fun _ => none⟩
    rw [ClrOci.statusAt, none] at there
    cases there
  · rw [holding.statusAt]
    exact ⟨fun other same => Option.some.inj same ▸ holding, fun missing => by cases missing⟩

theorem clears_of_tidy {call : SysCall} (tidy : call.cleans = false) (sys : Sys) :
    call.clears env rootDir id sys = false := by
  cases call <;> first | rfl | cases tidy

theorem Recording.done (result : A) : Recording env rootDir id pid (.done result) := trivial

theorem Recording.bind {script : Script SysCall Sys A} {rest : A → Script SysCall Sys B}
    (first : Recording env rootDir id pid script)
    (further : ∀ result, Recording env rootDir id pid (rest result)) :
    Recording env rootDir id pid (script.bind rest) := Script.Keeps.bind first further

theorem Recording.quiet {call : SysCall} {effect : Sys → Sys} {next : Sys → Script SysCall Sys A}
    (uncleared : ∀ sys, call.clears env rootDir id sys = false)
    (silent : ∀ sys, call.puts? env (statePathOf rootDir id) sys = none)
    (same : ∀ sys, (effect sys).files (statePathOf rootDir id) = sys.files (statePathOf rootDir id))
    (further : ∀ sys, Whole rootDir id pid sys → Recording env rootDir id pid (next sys)) :
    Recording env rootDir id pid (.step call effect next) := by
  intro sys whole
  refine ⟨⟨whole.of_same (same sys), ?_⟩, further sys whole⟩
  rw [SysCall.record, uncleared, silent, statusAt_congr (same sys)]
  rfl

theorem Recording.clear {call : SysCall} {effect : Sys → Sys} {next : Sys → Script SysCall Sys A}
    (silent : ∀ sys, call.puts? env (statePathOf rootDir id) sys = none)
    (gone : ∀ sys, (effect sys).files (statePathOf rootDir id) =
      if call.clears env rootDir id sys then none else sys.files (statePathOf rootDir id))
    (further : ∀ sys, Recording env rootDir id pid (next sys)) :
    Recording env rootDir id pid (.step call effect next) := by
  intro sys whole
  refine ⟨?_, further sys⟩
  have left := gone sys
  cases cleared : call.clears env rootDir id sys with
  | true =>
    rw [cleared, if_pos rfl] at left
    refine ⟨Or.inl left, ?_⟩
    rw [SysCall.record, cleared, if_pos rfl, statusAt, left]
    rfl
  | false =>
    rw [cleared, if_neg (by decide)] at left
    refine ⟨whole.of_same left, ?_⟩
    rw [SysCall.record, cleared, silent, statusAt_congr left]
    rfl

theorem Recording.write {created : Option String} {config : Config} {status : Status}
    (fit : config.Fit rootDir id pid created) (valid : status ≠ .invalid)
    {rest : Exit × Config → Script SysCall Sys A}
    (further : ∀ exit config', config'.Fit rootDir id pid created →
      Recording env rootDir id pid (rest (exit, config'))) :
    Recording env rootDir id pid ((writeSteps env created status config).bind rest) := by
  obtain ⟨inputs, given⟩ := fit.given
  have able : SysCall.write status (stateInputs config created).isSome = .write status true := by
    rw [given]
    rfl
  rw [writeSteps, Procedure.atomic, able, Script.bind]
  intro sys whole
  obtain ⟨fit', _⟩ := fit.puts env sys status valid
  refine ⟨?_, further _ _ fit'⟩
  have writes : Writes env rootDir id pid (.write status true) sys _ := fit.writes valid sys
  have seen := writes.statusAt rfl
  refine ⟨?_, seen⟩
  unfold Writes at writes
  split at writes
  · exact Or.inr ⟨_, writes⟩
  · exact whole.of_same (writes rfl)

theorem Recording.write_unfit {created : Option String} {config : Config} {status : Status}
    (unfit : stateInputs config created = none) {rest : Exit × Config → Script SysCall Sys A}
    (further : ∀ config', Recording env rootDir id pid (rest (.returned false, config'))) :
    Recording env rootDir id pid ((writeSteps env created status config).bind rest) := by
  have lacks : SysCall.write status (stateInputs config created).isSome = .write status false := by
    rw [unfit]
    rfl
  rw [writeSteps, Procedure.atomic, lacks, Script.bind]
  apply Recording.quiet (fun _ => rfl) (fun _ => rfl)
  · intro sys
    rw [writeStatus_of_unfit env sys status unfit]
    rfl
  · intro sys _
    rw [writeStatus_of_unfit env sys status unfit]
    exact further _

-- One step of the runtime that leaves the state file alone, and what follows its success.
theorem Recording.atomic {call : Config → SysCall} {action : Action World} {next : Procedure} {config : Config}
    (tidy : (call config).cleans = false)
    (silent : ∀ sys, (call config).puts? env (statePathOf rootDir id) sys = none)
    (same : ∀ sys, (action ⟨config, sys⟩).state.sys.files = sys.files)
    (further : ∀ sys, Recording env rootDir id pid (next (action ⟨config, sys⟩).state.config)) :
    Recording env rootDir id pid (((Procedure.atomic call action).andThen next) config) := by
  apply Recording.quiet (clears_of_tidy tidy) silent fun sys => congrFun (same sys) _
  intro sys _
  change Recording env rootDir id pid (if (action ⟨config, sys⟩).exit = .returned true then
    next (action ⟨config, sys⟩).state.config else .done _)
  split
  · exact further sys
  · exact Recording.done _

end Recording

section Commands
variable {A : Type} {env : Env} {rootDir : Option String} {id : String} {pid : GPid}

structure Config.At (rootDir : Option String) (id : String) (config : Config) : Prop where
  dir : config.state.runtimePath = runtimePath rootDir id
  file : config.state.stateFilePath.text = statePathOf rootDir id

theorem unfetched_of_missing {files : Files} {config : Config} (named : config.optargContainerId = some id)
    (root : config.rootDir = rootDir) (missing : files (statePathOf rootDir id) = none) :
    getConfigAndState files config = none := by
  rw [getConfigAndState_eq named, root, ← statePathOf, stateFileRead_of_missing missing]
  rfl

theorem fetched_at {files : Files} {config : Config} (named : config.optargContainerId = some id)
    (root : config.rootDir = rootDir) {fetched : Fetched}
    (got : getConfigAndState files config = some fetched) : fetched.config.At rootDir id := by
  obtain ⟨_, _, same⟩ := getConfigAndState_spec named got
  obtain ⟨dir, file⟩ := Config.fill_placed_paths config id fetched.state
  rw [root] at dir file
  rw [same]
  exact ⟨dir, congrArg Buffer.text file⟩

theorem unlink_files (path : String) (sys : Sys) :
    (unlink env path sys).2.files path =
      if (env.host sys.clock).unlink path then none else sys.files path := by
  unfold unlink
  cases (env.host sys.clock).unlink path with
  | false => rfl
  | true =>
    cases present : sys.files path with
    | none => exact present
    | some content => exact Function.update_self path none sys.files

theorem rmRf_files {dir : String} (set : dir ≠ "") (path : String) (sys : Sys) :
    (rmRf env dir sys).2.files path =
      if ((env.host sys.clock).system (rmCommand dir)).removed && Sys.below dir path then none
      else sys.files path := by
  rw [rmRf_of_set env set]
  dsimp only
  cases ((env.host sys.clock).system (rmCommand dir)).removed with
  | false => rfl
  | true => rfl

theorem deleteStateFile_at {config : Config} (placed : config.At rootDir id) (sys : Sys) :
    (deleteStateFile env ⟨config, sys⟩).state.config = config ∧
      (deleteStateFile env ⟨config, sys⟩).state.sys.files (statePathOf rootDir id) =
        if SysCall.clears env rootDir id sys .unlink then none
        else sys.files (statePathOf rootDir id) := by
  have set : config.state.stateFilePath.isSet = true := by
    rw [Buffer.isSet, bne_iff_ne, placed.file]
    exact stateFilePath_ne_empty (runtimePath_isSet rootDir id)
  have whole : deleteStateFile env ⟨config, sys⟩ =
      ⟨.returned (unlink env (statePathOf rootDir id) sys).1,
        config, (unlink env (statePathOf rootDir id) sys).2⟩ := by
    rw [deleteStateFile, set, stateFileDelete, placed.file]
    rfl
  rw [whole]
  exact ⟨rfl, unlink_files _ sys⟩

theorem deleteRuntimeDir_at {config : Config} (placed : config.At rootDir id) (sys : Sys) :
    (deleteRuntimeDir env ⟨config, sys⟩).state.sys.files (statePathOf rootDir id) =
      if SysCall.clears env rootDir id sys .remove then none else sys.files (statePathOf rootDir id) := by
  have set : (runtimePath rootDir id).text ≠ "" := by
    have there := runtimePath_isSet rootDir id
    rwa [Buffer.isSet, bne_iff_ne] at there
  have same : (deleteRuntimeDir env ⟨config, sys⟩).state.sys =
      (runtimeDirDelete env config sys).2 := rfl
  rw [same, runtimeDirDelete, placed.dir]
  by_cases absolute : isAbsolute (runtimePath rootDir id).text
  · rw [if_pos absolute, rmRf_files set, SysCall.clears, absolute, Bool.true_and]
  · rw [if_neg absolute, SysCall.clears, Bool.eq_false_iff.mpr absolute, Bool.false_and, Bool.false_and]
    rfl

theorem cleanupSteps_records {config : Config} (placed : config.At rootDir id) :
    Recording env rootDir id pid (cleanupSteps env config) := by
  have unmounted : Recording env rootDir id pid
      (Script.sweep (fun mount => SysCall.umount mount.dest.text) (handleUnmount env) config.oci.mounts) := by
    apply Script.keeps_sweep
    intro mount sys whole
    have same := (handleUnmount_frame env mount sys).1
    refine ⟨whole.of_same (congrFun same _), ?_⟩
    rw [statusAt_congr (congrFun same _)]
    rfl
  rw [cleanupSteps, Procedure.andThen, unmountSteps, Script.bind_assoc]
  refine unmounted.bind fun swept => ?_
  rw [Script.bind]
  split
  · refine Recording.clear (fun _ => rfl) (fun sys => (deleteStateFile_at placed sys).2) fun sys => ?_
    rw [Script.bind]
    split
    · rw [(deleteStateFile_at placed sys).1]
      exact Recording.clear (fun _ => rfl) (fun sys => deleteRuntimeDir_at placed sys)
        fun _ => Recording.done _
    · exact Recording.done _
  · exact Recording.done _

theorem stopSteps_records {config : Config} (placed : config.At rootDir id) :
    Recording env rootDir id pid (stopSteps env config) := by
  refine (cleanupSteps_records placed).bind fun ended => ?_
  unfold endStop
  split
  · apply Recording.quiet (fun _ => rfl) (fun _ => rfl)
    · exact fun sys => congrFun (runHooks_frame env _ _ false sys).1 _
    · exact fun _ _ => Recording.done _
  · exact Recording.done _

theorem afterLoopSteps_records {config : Config} (named : config.optargContainerId = some id)
    (root : config.rootDir = rootDir) (failed : Bool) :
    Recording env rootDir id pid (afterLoopSteps env failed config) := by
  apply Recording.quiet (fun _ => rfl) (fun _ => rfl) fun _ => rfl
  intro sys _
  cases got : getConfigAndState sys.files config with
  | none => exact Recording.done _
  | some fetched =>
    dsimp only
    split
    · exact Recording.done _
    · exact (cleanupSteps_records (fetched_at named root got)).bind fun _ => Recording.done _

theorem waitSteps_records {config : Config} (named : config.optargContainerId = some id)
    (root : config.rootDir = rootDir) : Recording env rootDir id pid (waitSteps env config) := by
  apply Recording.quiet (fun _ => rfl) (fun _ => rfl)
  · intro sys
    split <;> rfl
  · intro sys _
    cases (env.host sys.clock).mainLoop sys.files with
    | none => exact Recording.done _
    | some wakeup => exact (afterLoopSteps_records named root wakeup.failed).bind fun _ => Recording.done _

theorem Whole.fetched {sys : Sys} (whole : Whole rootDir id pid sys) {fetched : Fetched}
    (got : getConfigAndState sys.files ((Config.fresh rootDir).setContainerId (some id)) = some fetched) :
    let config := configUpdate fetched.config fetched.state
    fetched.state.pid = pid ∧ config.Fit rootDir id pid fetched.state.createTime ∧
      config.state.status ≠ .invalid := by
  rcases whole with missing | ⟨status, holding⟩
  · have root : ((Config.fresh rootDir).setContainerId (some id)).rootDir = rootDir := rfl
    have none := unfetched_of_missing rfl root missing
    rw [none] at got
    cases got
  · obtain ⟨_, process, same, fit⟩ := holding.fetched got
    exact ⟨process, fit, same ▸ holding.valid⟩

theorem Recording.read {act : OciState → Procedure}
    (found : ∀ state config, config.Fit rootDir id pid state.createTime →
      config.state.status ≠ .invalid → Recording env rootDir id pid (act state config)) :
    Recording env rootDir id pid (readState act ((Config.fresh rootDir).setContainerId (some id))) := by
  apply Recording.quiet (fun _ => rfl) (fun _ => rfl) fun _ => rfl
  intro sys whole
  cases got : getConfigAndState sys.files ((Config.fresh rootDir).setContainerId (some id)) with
  | none => exact Recording.done _
  | some fetched =>
    obtain ⟨_, fit, valid⟩ := whole.fetched got
    exact found fetched.state _ fit valid

theorem kill_files (process : GPid) (signum : Int32) (sys : Sys) :
    (kill env process signum sys).2.files = sys.files := by
  unfold kill
  split <;> rfl

theorem deliverSteps_records {state : OciState} {config : Config}
    (fit : config.Fit rootDir id pid state.createTime) (signum : Int32) {last : Status}
    (valid : last ≠ .invalid) : Recording env rootDir id pid (deliverSteps env state signum last config) := by
  apply Recording.quiet (fun _ => rfl) (fun _ => rfl) fun sys => congrFun (kill_files state.pid signum sys) _
  intro sys _
  split
  · rw [← writeSteps_bind_done]
    exact Recording.write fit (by decide) fun _ _ _ => Recording.done _
  · exact Recording.write fit valid fun _ _ _ => Recording.done _

theorem killSteps_records {state : OciState} {config : Config}
    (fit : config.Fit rootDir id pid state.createTime) (signum : Int32)
    (valid : config.state.status ≠ .invalid) :
    Recording env rootDir id pid (killSteps env state signum config) := by
  refine Recording.write fit (by decide) fun exit config' fit' => ?_
  dsimp only
  split
  · exact deliverSteps_records fit' signum valid
  · exact Recording.done _

theorem resumeSteps_records {created : Option String} {config : Config}
    (inputs : config.Fit rootDir id pid created ∨ stateInputs config created = none) {next : Procedure}
    (further : ∀ config', config'.Fit rootDir id pid created → Recording env rootDir id pid (next config')) :
    Recording env rootDir id pid (((resumeSteps env created).andThen next) config) := by
  apply Recording.quiet (fun _ => rfl) (fun _ => rfl) fun sys => congrFun (kill_files _ sigcont sys) _
  intro sys _
  dsimp only
  split
  · rcases inputs with fit | unfit
    · refine Recording.write fit (by decide) fun exit config' fit' => ?_
      dsimp only
      split
      · exact further config' fit'
      · exact Recording.done _
    · exact Recording.write_unfit unfit fun _ => Recording.done _
  · exact Recording.done _

theorem startSteps_records {state : OciState} {config : Config}
    (fit : config.Fit rootDir id pid state.createTime) (data : StartData) :
    Recording env rootDir id pid (startSteps env data state config) := by
  unfold startSteps
  split
  · exact Recording.done _
  · apply Recording.quiet (fun _ => rfl) (fun _ => rfl) fun _ => rfl
    intro sys _
    have overridden : ∀ sys, (overrideBundle env data ⟨config, sys⟩).state.sys.files = sys.files := by
      intro sys
      unfold overrideBundle
      split <;> rfl
    refine Recording.atomic rfl (fun _ => rfl) overridden fun sys => ?_
    refine Recording.atomic rfl (fun _ => rfl) (fun _ => rfl) fun sys' => ?_
    refine resumeSteps_records (overrideBundle_inputs fit data sys) fun config' fit' => ?_
    refine Recording.atomic rfl (fun _ => rfl) (fun sys => ?_) fun sys => ?_
    · exact (runHooks_frame env config'.oci.hooks.poststart config'.state.stateFilePath.text false sys).1
    · split
      · refine (waitSteps_records fit'.named fit'.root).bind fun ended => ?_
        split <;> exact Recording.done _
      · exact Recording.done _

end Commands

section Orders
variable (env : Env) (rootDir : Option String) (id : String) (pid : GPid)

def CourseRecords (script : Script Deed Sys (Exit × Config)) : Prop :=
  Pool.Observed (Whole rootDir id pid) (fun sys => statusAt sys.files (statePathOf rootDir id))
    (Deed.record env rootDir id) script

variable {env rootDir id pid}

theorem Recording.course {procedure : Procedure} {config : Config}
    (records : Recording env rootDir id pid (procedure config)) :
    CourseRecords env rootDir id pid (procedure.course config) := Script.Keeps.relabel records

theorem CourseRecords.quiet {deed : Deed} {effect : Sys → Sys}
    {next : Sys → Script Deed Sys (Exit × Config)}
    (silent : ∀ sys value, deed.record env rootDir id sys value = value)
    (same : ∀ sys, (effect sys).files (statePathOf rootDir id) = sys.files (statePathOf rootDir id))
    (further : ∀ sys, Whole rootDir id pid sys → CourseRecords env rootDir id pid (next sys)) :
    CourseRecords env rootDir id pid (.step deed effect next) := by
  intro sys whole
  refine ⟨⟨whole.of_same (same sys), ?_⟩, further sys whole⟩
  rw [silent]
  exact statusAt_congr (same sys)

theorem toggleSteps_records {state : OciState} {config : Config}
    (fit : config.Fit rootDir id pid state.createTime) (pause : Bool) :
    CourseRecords env rootDir id pid (toggleSteps env pause state config) := by
  unfold toggleSteps
  split
  · trivial
  · apply CourseRecords.quiet (fun _ _ => rfl) fun _ => rfl
    intro sys _
    split
    · apply Recording.course
      rw [← writeSteps_bind_done]
      refine Recording.write fit ?_ fun _ _ _ => Recording.done _
      cases pause <;> decide
    · trivial

theorem toggleCourse_records (pause : Bool) :
    CourseRecords env rootDir id pid
      (toggleCourse env pause ((Config.fresh rootDir).setContainerId (some id))) := by
  apply CourseRecords.quiet (fun _ _ => rfl) fun _ => rfl
  intro sys whole
  cases got : getConfigAndState sys.files ((Config.fresh rootDir).setContainerId (some id)) with
  | none => trivial
  | some fetched =>
    obtain ⟨_, fit, _⟩ := whole.fetched got
    exact toggleSteps_records fit pause

theorem stopCleanup_records {config : Config} (placed : config.At rootDir id) :
    CourseRecords env rootDir id pid (stopCleanup env config) :=
  Script.Keeps.bind (Script.Keeps.relabel (stopSteps_records placed)) fun _ => trivial

theorem downSteps_records (state : OciState) {config : Config} (placed : config.At rootDir id) :
    CourseRecords env rootDir id pid (downSteps env state config) := by
  unfold downSteps
  split
  · exact stopCleanup_records placed
  · apply CourseRecords.quiet (fun _ _ => rfl) fun _ => rfl
    intro sys _
    split
    · exact stopCleanup_records placed
    · apply CourseRecords.quiet (fun _ _ => rfl) fun _ => rfl
      intro sys _
      split
      · exact stopCleanup_records placed
      · trivial

theorem stopCourse_records :
    CourseRecords env rootDir id pid (stopCourse env ((Config.fresh rootDir).setContainerId (some id))) := by
  have named : ((Config.fresh rootDir).setContainerId (some id)).optargContainerId = some id := rfl
  have root : ((Config.fresh rootDir).setContainerId (some id)).rootDir = rootDir := rfl
  generalize (Config.fresh rootDir).setContainerId (some id) = config at named root
  apply CourseRecords.quiet (fun _ _ => rfl) fun _ => rfl
  intro sys _
  rw [stateFileExists_eq named]
  dsimp only
  split
  · trivial
  · apply CourseRecords.quiet (fun _ _ => rfl) fun _ => rfl
    intro sys _
    rw [getConfigAndState_placed named]
    cases got : getConfigAndState sys.files config with
    | none => trivial
    | some fetched =>
      have placed := fetched_at named root got
      apply CourseRecords.quiet (fun _ _ => rfl) fun _ => rfl
      intro sys _
      cases jsonParseFile sys.files fetched.configFile with
      | none => trivial
      | some document =>
        obtain ⟨parse, parsed, same⟩ := stopSections_total (env.host sys.clock) document.children
          { config := fetched.config }
        have state := congrArg (fun frame : Config => frame.state) same
        simp only [parsed]
        apply downSteps_records
        exact ⟨(congrArg ContainerState.runtimePath state).trans placed.dir,
          (congrArg (fun paths : ContainerState => paths.stateFilePath.text) state).trans placed.file⟩

theorem Order.course_records (order : Order) :
    CourseRecords env rootDir id pid (order.course env ((Config.fresh rootDir).setContainerId (some id))) := by
  cases order with
  | kill signum =>
    apply Recording.course
    exact Recording.read fun state config fit valid => killSteps_records fit signum valid
  | start data =>
    apply Recording.course
    exact Recording.read fun state config fit _ => startSteps_records fit data
  | toggle pause => exact toggleCourse_records pause
  | stop => exact stopCourse_records

end Orders

def gathered {I : Type} (env : Env) (rootDir : Option String) (id : String) (orders : I → Order) (sys : Sys) :
    Pool I Deed Sys (Exit × Config) :=
  ⟨fun i => (orders i).course env ((Config.fresh rootDir).setContainerId (some id)), sys⟩

section Contention
variable {I : Type} [DecidableEq I] {env : Env} {rootDir : Option String} {id : String} {pid : GPid}

/-- Whatever the processes do at the same time, the state file is a register: what is on disk is what
the writes and removals of the history make of it, one after another and each as a whole, and a file
that is there names the process of the container. -/
theorem orders_share_register (orders : I → Order) {sys : Sys} {status : Status}
    (held : Holding sys.files rootDir id pid status) (schedule : List I) :
    let pool := gathered env rootDir id orders sys
    let after := (schedule.foldl Pool.step pool).state.files
    let value := (pool.history schedule).foldl
      (fun value taken => taken.1.record env rootDir id taken.2 value) (some status)
    (∀ status', value = some status' → Holding after rootDir id pid status') ∧
      (value = none → after (statePathOf rootDir id) = none) := by
  intro pool after value
  have records : ∀ i, CourseRecords env rootDir id pid (pool.scripts i) := fun i => (orders i).course_records
  have whole : Whole rootDir id pid pool.state := Or.inr ⟨status, held⟩
  obtain ⟨_, whole', seen⟩ := Pool.foldl_observed records whole schedule
  have begun : statusAt pool.state.files (statePathOf rootDir id) = some status := held.statusAt
  have last : statusAt after (statePathOf rootDir id) = value := by
    rw [begun] at seen
    exact seen
  rw [← last]
  exact whole'.statusAt

def bundledSys : Sys :=
  (sysWith .running).written "/bundle/config.json" ((bundleFiles [] "/bundle/config.json").getD (.text ""))

theorem bundledSys_holding : Holding bundledSys.files (some "/run") "c1" 4242 .running := by
  have other : statePathOf (some "/run") "c1" ≠ "/bundle/config.json" := by decide
  have same : bundledSys.files (statePathOf (some "/run") "c1") =
      (sysWith .running).files (statePathOf (some "/run") "c1") := by
    rw [bundledSys, Sys.written_files, Function.update_of_ne other]
  exact (sysWith_holding (by decide)).of_same same

def stopAndKill : Fin 2 → Order := fun i => if i = 0 then .stop else .kill 15

/-- The stop has read the state before the kill writes it, and then removes what was written. -/
theorem stop_and_kill_share_register :
    let pool := gathered Env.calm (some "/run") "c1" stopAndKill bundledSys
    let schedule := [0, 0, 1, 1, 0, 1, 1] ++ List.replicate 5 0
    let after := (schedule.foldl Pool.step pool).state.files
    let value := (pool.history schedule).foldl
      (fun value taken => taken.1.record Env.calm (some "/run") "c1" taken.2 value) (some .running)
    value = none ∧ (∀ status', value = some status' → Holding after (some "/run") "c1" 4242 status') ∧
      (value = none → after (statePathOf (some "/run") "c1") = none) :=
  ⟨by decide +kernel,
    orders_share_register stopAndKill bundledSys_holding ([0, 0, 1, 1, 0, 1, 1] ++ List.replicate 5 0)⟩

/-- What an order returns when there is no state file: only a stop is content with that. -/
def Order.withoutState : Order → Bool
  | .stop => true
  | _ => false

theorem Order.course_of_missing (env : Env) (order : Order) {sys : Sys}
    (missing : sys.files (statePathOf rootDir id) = none) :
    ∃ deed next config, order.course env ((Config.fresh rootDir).setContainerId (some id)) =
        .step deed (fun sys => sys) next ∧
      next sys = .done (.returned order.withoutState, config) := by
  have root : ((Config.fresh rootDir).setContainerId (some id)).rootDir = rootDir := rfl
  have none : getConfigAndState sys.files ((Config.fresh rootDir).setContainerId (some id)) = Option.none :=
    unfetched_of_missing rfl root missing
  cases order with
  | kill signum =>
    refine ⟨.call .read, _, (Config.fresh rootDir).setContainerId (some id), rfl, ?_⟩
    simp only [none]
    rfl
  | start data =>
    refine ⟨.call .read, _, (Config.fresh rootDir).setContainerId (some id), rfl, ?_⟩
    simp only [none]
    rfl
  | toggle pause =>
    refine ⟨.call .read, _, (Config.fresh rootDir).setContainerId (some id), rfl, ?_⟩
    simp only [none]
    rfl
  | stop =>
    refine ⟨.call .look, _, ((Config.fresh rootDir).setContainerId (some id)).placed id, rfl, ?_⟩
    have path : (stateFilePath (runtimePath ((Config.fresh rootDir).setContainerId (some id)).rootDir id)).text =
        statePathOf rootDir id := rfl
    simp only [stateFileExists_eq (show ((Config.fresh rootDir).setContainerId (some id)).optargContainerId =
      some id from rfl), path, missing]
    rfl

/-- The process has not begun, or it has found no state file and ended. -/
def Late (env : Env) (rootDir : Option String) (id : String) (order : Order)
    (script : Script Deed Sys (Exit × Config)) : Prop :=
  script = order.course env ((Config.fresh rootDir).setContainerId (some id)) ∨
    ∃ config, script = .done (.returned order.withoutState, config)

theorem late_step {order : Order} {pool : Pool I Deed Sys (Exit × Config)} {i : I}
    (gone : pool.state.files (statePathOf rootDir id) = none)
    (late : Late env rootDir id order (pool.scripts i)) :
    (pool.step i).state.files (statePathOf rootDir id) = none ∧
      ∃ config, (pool.step i).scripts i = .done (.returned order.withoutState, config) := by
  rcases late with begins | ⟨config, ended⟩
  · obtain ⟨deed, next, config, shape, ends⟩ := order.course_of_missing env gone
    have here := begins.trans shape
    refine ⟨?_, config, (Pool.step_scripts_self here).trans ends⟩
    rw [Pool.step_of_step here]
    exact gone
  · rw [Pool.step_of_done ended]
    exact ⟨gone, config, ended⟩

/-- A container that is gone is not brought back by a process that begins afterwards, whatever the
processes that had begun before it are in the middle of: such a process ends with its first step. -/
theorem latecomers_leave_gone (orders : I → Order) (pool : Pool I Deed Sys (Exit × Config)) (later : List I)
    (gone : pool.state.files (statePathOf rootDir id) = none)
    (late : ∀ i ∈ later, Late env rootDir id (orders i) (pool.scripts i)) :
    (later.foldl Pool.step pool).state.files (statePathOf rootDir id) = none ∧
      ∀ i ∈ later, ∃ config, (later.foldl Pool.step pool).scripts i =
        .done (.returned (orders i).withoutState, config) := by
  induction later generalizing pool with
  | nil => exact ⟨gone, fun _ member => by cases member⟩
  | cons i rest ih =>
    obtain ⟨gone', config, ended⟩ := late_step gone (late i List.mem_cons_self)
    have others : ∀ j ∈ rest, Late env rootDir id (orders j) ((pool.step i).scripts j) := by
      intro j member
      by_cases same : j = i
      · exact Or.inr ⟨config, by rw [same]; exact ended⟩
      · rw [Pool.step_scripts_of_ne same]
        exact late j (List.mem_cons_of_mem _ member)
    obtain ⟨stays, ends⟩ := ih (pool.step i) gone' others
    refine ⟨stays, fun j member => ?_⟩
    rcases List.mem_cons.mp member with rfl | member
    · exact ⟨config, Pool.foldl_keeps_done ended rest⟩
    · exact ends j member

def stoppedPool : Pool (Fin 2) Deed Sys (Exit × Config) :=
  (List.replicate 8 0).foldl Pool.step (gathered Env.calm (some "/run") "c1" stopAndKill bundledSys)

theorem kill_after_stop_leaves_gone :
    ([1, 1].foldl Pool.step stoppedPool).state.files (statePathOf (some "/run") "c1") = none ∧
      ∀ i ∈ [(1 : Fin 2), 1], ∃ config, ([1, 1].foldl Pool.step stoppedPool).scripts i =
        .done (.returned (stopAndKill i).withoutState, config) := by
  apply latecomers_leave_gone stopAndKill stoppedPool [1, 1]
  · decide +kernel
  · intro i member
    obtain rfl : i = 1 := by simpa using member
    exact Or.inl rfl

end Contention

end ClrOci
