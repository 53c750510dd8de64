import ClrOci.Foundation.Script
import ClrOci.Marks

/-! The commands as the processes that they are: step by step, with room for other processes.

Each procedure below follows its operation call by call. When no other process takes a step it does
what the operation does, so the two are one program at two grains.
-/

set_option autoImplicit false

namespace ClrOci

open Foundation

/-- The atomic steps of the commands. A write is able when the configuration has all that the state
file needs. -/
inductive SysCall where
  | parse | check (ociVersion : Option String) | makeParents | makeDirectory
  | mount | workload | stamp | launch
  | read | look | bundle | watch | hooks | wake | reread
  | kill (signum : Int32)
  | write (status : Status) (able : Bool)
  | umount (dest : String) | unlink | remove
  deriving DecidableEq

abbrev Procedure := Config → Script SysCall Sys (Exit × Config)

namespace Procedure

def atomic (call : Config → SysCall) (action : Action World) : Procedure := fun config =>
  .step (call config) (fun sys => (action ⟨config, sys⟩).state.sys) fun sys =>
    .done ((action ⟨config, sys⟩).exit, (action ⟨config, sys⟩).state.config)

def succeed : Procedure := fun config => .done (.returned true, config)

def andThen (first next : Procedure) : Procedure := fun config =>
  (first config).bind fun ended =>
    if ended.1 = .returned true then next ended.2 else .done ended

def sequence : List Procedure → Procedure
  | [] => succeed
  | first :: rest => first.andThen (sequence rest)

def alone (procedure : Procedure) : Action World := fun world =>
  let ended := (procedure world.config).alone world.sys
  ⟨ended.1.1, ended.1.2, ended.2⟩

theorem alone_atomic (call : Config → SysCall) (action : Action World) :
    (atomic call action).alone = action := rfl

theorem alone_andThen (first next : Procedure) :
    (first.andThen next).alone = first.alone.andThen next.alone := by
  funext world
  have parts : (first.andThen next).alone world =
      let ended := (first world.config).alone world.sys
      let rest := (if ended.1.1 = .returned true then next ended.1.2 else .done ended.1).alone ended.2
      ⟨rest.1.1, rest.1.2, rest.2⟩ := by
    simp only [alone, andThen, Script.alone_bind]
  rw [parts]
  by_cases ok : first.alone.Succeeds world
  · rw [Action.andThen_of_succeeds ok]
    simp only [if_pos (show ((first world.config).alone world.sys).1.1 = .returned true from ok)]
    rfl
  · rw [Action.andThen_of_stops ok]
    simp only [if_neg (show ¬ ((first world.config).alone world.sys).1.1 = .returned true from ok)]
    rfl

theorem andThen_assoc (first second third : Procedure) :
    (first.andThen second).andThen third = first.andThen (second.andThen third) := by
  funext config
  rw [andThen, andThen, andThen, Script.bind_assoc]
  congr 1
  funext ended
  split <;> simp_all [Script.bind, andThen]

theorem andThen_succeed (procedure : Procedure) : procedure.andThen succeed = procedure := by
  funext config
  have same : (fun ended : Exit × Config => if ended.1 = .returned true then succeed ended.2
      else Script.done ended) = .done := by
    funext ended
    split
    · next ok => rw [succeed, ← ok]
    · rfl
  rw [andThen, same, Script.bind_done]

theorem alone_sequence (steps : List Procedure) :
    (sequence steps).alone = Action.sequence (steps.map alone) := by
  induction steps with
  | nil => rfl
  | cons first rest ih => rw [sequence, alone_andThen, ih, List.map_cons, Action.sequence_cons]

end Procedure

open Procedure

variable (env : Env)

def readState (act : OciState → Procedure) : Procedure := fun config =>
  .step .read id fun sys =>
    match getConfigAndState sys.files config with
    | none => .done (.returned false, config)
    | some fetched => act fetched.state (configUpdate fetched.config fetched.state)

def writeSteps (created : Option String) (status : Status) : Procedure :=
  atomic (fun config => .write status (stateInputs config created).isSome)
    (writeStatus env created status)

def deliverSteps (state : OciState) (signum : Int32) (last : Status) : Procedure := fun config =>
  .step (.kill signum) (fun sys => (kill env state.pid signum sys).2) fun sys =>
    if (kill env state.pid signum sys).1 then writeSteps env state.createTime .stopped config
    else
      (writeSteps env state.createTime last config).bind fun ended => .done (.returned false, ended.2)

def killSteps (state : OciState) (signum : Int32) : Procedure := fun config =>
  (writeSteps env state.createTime .stopping).andThen
    (deliverSteps env state signum config.state.status) config

def unmountSteps : Procedure := fun config =>
  (Script.sweep (fun mount => SysCall.umount mount.dest.text) (handleUnmount env) config.oci.mounts).bind
    fun swept => .done (swept.1, config)

def cleanupSteps : Procedure :=
  (unmountSteps env).andThen ((atomic (fun _ => .unlink) (deleteStateFile env)).andThen
    (atomic (fun _ => .remove) (deleteRuntimeDir env)))

structure Teardown where
  cleanup : Option Exit
  exit : Exit
  config : Config

def endStart (failed : Bool) (ended : Exit × Config) : Script SysCall Sys Teardown :=
  .done ⟨some ended.1, match ended.1 with
    | .returned ok => .returned (ok && !failed)
    | crashed => crashed, ended.2⟩

def afterLoopSteps (failed : Bool) (config : Config) : Script SysCall Sys Teardown :=
  .step .reread id fun sys =>
    match getConfigAndState sys.files config with
    | none => .done ⟨none, .returned false, config⟩
    | some fetched =>
      if fetched.state.status = .stopped ∨ fetched.state.status = .stopping then
        .done ⟨none, .returned true, fetched.config⟩
      else (cleanupSteps env fetched.config).bind (endStart failed)

def endStop (ended : Exit × Config) : Script SysCall Sys Teardown :=
  match ended.1 with
  | .returned ok =>
    .step .hooks (fun sys => (runHooks env ended.2.oci.hooks.poststop
      ended.2.state.stateFilePath.text false sys).2) fun _ => .done ⟨some ended.1, .returned ok, ended.2⟩
  | crashed => .done ⟨some crashed, crashed, ended.2⟩

def stopSteps (config : Config) : Script SysCall Sys Teardown :=
  (cleanupSteps env config).bind (endStop env)

def waitSteps : Procedure := fun config =>
  .step .wake
    (fun sys => if ((env.host sys.clock).mainLoop sys.files).isSome then sys.tick else sys)
    fun sys =>
      match (env.host sys.clock).mainLoop sys.files with
      | none => .done (.stuck, config)
      | some wakeup =>
        (afterLoopSteps env wakeup.failed config).bind fun ended => .done (ended.exit, ended.config)

def resumeSteps (created : Option String) : Procedure := fun config =>
  .step (.kill sigcont) (fun sys => (kill env config.state.workloadPid sigcont sys).2) fun sys =>
    if (kill env config.state.workloadPid sigcont sys).1 then writeSteps env created .running config
    else .done (.returned false, config)

def startSteps (data : StartData) (state : OciState) : Procedure := fun config =>
  if state.status ≠ .created then .done (.returned false, config)
  else
    .step .look id fun sys =>
      let wait := waits (env.host sys.clock) config
      Procedure.sequence [atomic (fun _ => .bundle) (overrideBundle env data),
        atomic (fun _ => .watch) (watchRuntimeDir env wait), resumeSteps env state.createTime,
        atomic (fun _ => .hooks) (poststartHooks env),
        if wait then waitSteps env else Procedure.succeed] config

def setupSteps : Procedure := fun config =>
  match runtimePaths config with
  | none => .done (.returned false, config)
  | some config =>
    let path := config.state.runtimePath.text
    .step .makeParents (fun sys => (mkdirWithParents env (dirname path) sys).2) fun _ =>
      .step .makeDirectory (fun sys => (mkdir env path sys).2) fun sys =>
        .done (.returned (mkdir env path sys).1, config)

def mountSteps : Procedure := fun config =>
  (Script.sweep (fun _ => SysCall.mount) (handleMount env config.oci.root.path config.dryRunMode)
    config.oci.mounts).bind fun swept =>
      .done (swept.1, { config with oci := { config.oci with mounts := swept.2 } })

def launchSteps : Procedure := fun config =>
  .step .stamp Sys.tick fun sys =>
    let config := config.setState { config.state with status := .created }
    match (env.host sys.clock).timestamp with
    | none => .done (.returned false, config)
    | some created =>
      (atomic (fun _ => .launch) (vmLaunch env)).andThen
        (atomic (fun config => .write .created (stateInputs config (some created)).isSome)
          (stateFileCreate env (some created))) config

def claimSteps : Procedure :=
  Procedure.sequence [atomic (fun _ => .parse) (configFileParse env),
    atomic (fun config => .check config.oci.ociVersion) checkConfig, setupSteps env]

def raiseSteps : Procedure :=
  ((mountSteps env).andThen (atomic (fun _ => .workload) (createContainerWorkload env))).andThen
    fun config =>
      if config.dryRunMode then .done (.returned true, config)
      else (launchSteps env).andThen (atomic (fun _ => .hooks) (prestartHooks env)) config

def createSteps : Procedure := (claimSteps env).andThen (raiseSteps env)

def killCommand (signum : Int32) : Procedure := readState fun state => killSteps env state signum

def startCommand (data : StartData) : Procedure := readState (startSteps env data)

section Alone

theorem readState_alone {act : OciState → Procedure} {action : OciState → Action World}
    (same : ∀ state, (act state).alone = action state) : (readState act).alone = withState action := by
  funext world
  rw [withState, Procedure.alone, readState, Script.alone]
  dsimp only [id]
  cases getConfigAndState world.sys.files world.config with
  | none => rfl
  | some fetched => exact congrFun (same fetched.state) ⟨_, world.sys⟩

theorem writeSteps_alone (created : Option String) (status : Status) :
    (writeSteps env created status).alone = writeStatus env created status := rfl

theorem deliverSteps_alone (state : OciState) (signum : Int32) (last : Status) :
    (deliverSteps env state signum last).alone = deliverSignal env state signum last := by
  funext world
  rw [deliverSignal, Procedure.alone, deliverSteps, Script.alone]
  cases kill env state.pid signum world.sys with
  | mk sent sys => cases sent <;> rfl

theorem killSteps_alone (state : OciState) (signum : Int32) :
    (killSteps env state signum).alone = clrOciKill env state signum := by
  funext world
  rw [clrOciKill_eq, ← writeSteps_alone, ← deliverSteps_alone, ← alone_andThen]
  rfl

theorem unmountSteps_alone : (unmountSteps env).alone = unmountAll env := by
  funext world
  simp only [Procedure.alone, unmountSteps, Script.alone_bind, Script.alone_sweep]
  rfl

theorem cleanupSteps_alone : (cleanupSteps env).alone = cleanup env := by
  rw [cleanupSteps, alone_andThen, alone_andThen, unmountSteps_alone]
  rfl

theorem cleanupSteps_alone_apply (world : World) :
    (cleanupSteps env world.config).alone world.sys =
      (((cleanup env world).exit, (cleanup env world).state.config), (cleanup env world).state.sys) := by
  rw [← cleanupSteps_alone]
  rfl

theorem afterLoopSteps_alone (failed : Bool) (world : World) :
    let ended := (afterLoopSteps env failed world.config).alone world.sys
    (⟨ended.1.exit, ended.1.config, ended.2⟩ : Run World) = afterLoop env failed world := by
  rw [afterLoop, afterLoopSteps, Script.alone]
  dsimp only [id]
  cases getConfigAndState world.sys.files world.config with
  | none => rfl
  | some fetched =>
    dsimp only
    split
    · rfl
    · rw [Script.alone_bind, cleanupSteps_alone_apply env ⟨fetched.config, world.sys⟩]
      generalize cleanup env ⟨fetched.config, world.sys⟩ = cleaned
      obtain ⟨exit, state⟩ := cleaned
      cases exit <;> rfl

theorem stopSteps_alone (world : World) :
    let ended := (stopSteps env world.config).alone world.sys
    (⟨ended.1.exit, ended.1.config, ended.2⟩ : Run World) = cleanupThenHooks env world := by
  rw [cleanupThenHooks, stopSteps, Script.alone_bind, cleanupSteps_alone_apply env world]
  generalize cleanup env world = cleaned
  obtain ⟨exit, state⟩ := cleaned
  cases exit <;> rfl

theorem waitSteps_alone (sequential : env.Sequential) : (waitSteps env).alone = waitForVm env := by
  funext world
  rw [waitForVm, Procedure.alone, waitSteps, Script.alone]
  cases woken : (env.host world.sys.clock).mainLoop world.sys.files with
  | none => rfl
  | some wakeup =>
    dsimp only
    rw [sequential _ _ _ woken, Script.alone_bind]
    exact afterLoopSteps_alone env wakeup.failed (world.withSys world.sys.tick)

theorem resumeSteps_alone (created : Option String) :
    (resumeSteps env created).alone = resumeVm env created := by
  funext world
  rw [resumeVm, Procedure.alone, resumeSteps, Script.alone]
  cases kill env world.config.state.workloadPid sigcont world.sys with
  | mk sent sys => cases sent <;> rfl

theorem startSteps_alone (sequential : env.Sequential) (data : StartData) (state : OciState) :
    (startSteps env data state).alone = clrOciStart env data state := by
  funext world
  rw [clrOciStart, Procedure.alone, startSteps]
  split
  · rfl
  · have wait : ∀ waiting : Bool, (if waiting then waitSteps env else Procedure.succeed).alone =
        if waiting then waitForVm env else Action.succeed := by
      intro waiting
      cases waiting with
      | true => exact waitSteps_alone env sequential
      | false => rfl
    rw [Script.alone]
    dsimp only [id]
    rw [← wait, ← resumeSteps_alone]
    exact congrFun (Procedure.alone_sequence [atomic (fun _ => .bundle) (overrideBundle env data),
      atomic (fun _ => .watch) (watchRuntimeDir env (waits (env.host world.sys.clock) world.config)),
      resumeSteps env state.createTime, atomic (fun _ => .hooks) (poststartHooks env), _]) world

theorem handlerKill_eq_alone {id : String} {rest : List String} {signum : Int32}
    (asked : ¬ (id = "--help" ∨ id = "-h")) (named : killSignum (id :: rest) = some signum)
    (world : World) :
    handlerKill env (id :: rest) world = (killCommand env signum).alone (world.setContainerId (some id)) := by
  simp only [handlerKill, if_neg asked, named]
  rw [killCommand, readState_alone fun state => killSteps_alone env state signum]

theorem handlerStart_eq_alone (sequential : env.Sequential) (data : StartData) {id : String}
    {rest : List String} (asked : ¬ (id = "--help" ∨ id = "-h")) (world : World) :
    handlerStart env data (id :: rest) world =
      (startCommand env data).alone (world.setContainerId (some id)) := by
  have accepted : handleDefaultUsage (id :: rest) = none := if_neg asked
  simp only [handlerStart, accepted, List.head?_cons]
  rw [startCommand, readState_alone fun state => startSteps_alone env sequential data state]

theorem setupSteps_alone : (setupSteps env).alone = runtimeDirSetup env := by
  funext world
  rw [runtimeDirSetup, Procedure.alone, setupSteps]
  cases runtimePaths world.config <;> rfl

theorem mountSteps_alone : (mountSteps env).alone = handleMounts env := by
  funext world
  simp only [Procedure.alone, mountSteps, Script.alone_bind, Script.alone_sweep]
  rfl

theorem launchSteps_alone : (launchSteps env).alone = launchContainer env := by
  funext world
  rw [launchContainer, Procedure.alone, launchSteps, Script.alone]
  dsimp only
  cases (env.host world.sys.clock).timestamp with
  | none => rfl
  | some created =>
    have both := congrFun (Procedure.alone_andThen (atomic (fun _ => .launch) (vmLaunch env))
      (atomic (fun config => .write .created (stateInputs config (some created)).isSome)
        (stateFileCreate env (some created)))) ((world.withStatus .created).withSys world.sys.tick)
    rw [Procedure.alone_atomic, Procedure.alone_atomic] at both
    exact both

theorem claimSteps_alone : (claimSteps env).alone = claimContainer env := by
  rw [claimSteps, claimContainer, Procedure.alone_sequence, List.map_cons, List.map_cons, List.map_cons,
    List.map_nil, setupSteps_alone]
  rfl

theorem raiseSteps_alone : (raiseSteps env).alone = buildContainer env := by
  rw [raiseSteps, buildContainer, prepareContainer, Procedure.alone_andThen, Procedure.alone_andThen,
    mountSteps_alone]
  congr 1
  funext world
  have launched := congrFun (Procedure.alone_andThen (launchSteps env)
    (atomic (fun _ => .hooks) (prestartHooks env))) world
  rw [launchSteps_alone] at launched
  rw [Procedure.alone]
  split
  · rfl
  · exact launched

/-- A create that no other process meets is `clr_oci_create`. -/
theorem createSteps_alone : (createSteps env).alone = clrOciCreate env := by
  rw [createSteps, clrOciCreate, Procedure.alone_andThen, claimSteps_alone, raiseSteps_alone]

end Alone

def together {I : Type} (rootDir : Option String) (id : String) (commands : I → Procedure) (sys : Sys) :
    Pool I SysCall Sys (Exit × Config) :=
  ⟨fun i => commands i ((Config.fresh rootDir).setContainerId (some id)), sys⟩

def SysCall.cleans : SysCall → Bool
  | .umount _ | .unlink | .remove => true
  | _ => false

def SysCall.puts? (path : String) (sys : Sys) : SysCall → Option Status
  | .write status able =>
    if able && (env.host sys.clock).setContents path then some status else none
  | _ => none

def Writes (rootDir : Option String) (id : String) (pid : GPid) (call : SysCall) (before after : Sys) :
    Prop :=
  match call.puts? env (statePathOf rootDir id) before with
  | some status => Holding after.files rootDir id pid status
  | none => call.cleans = false →
      after.files (statePathOf rootDir id) = before.files (statePathOf rootDir id)

section Writes
variable {env} {rootDir : Option String} {id : String} {pid : GPid} {call : SysCall} {before after : Sys}

theorem Writes.of_same (silent : call.puts? env (statePathOf rootDir id) before = none)
    (same : after.files = before.files) : Writes env rootDir id pid call before after := by
  rw [Writes, silent]
  exact fun _ => congrFun same (statePathOf rootDir id)

theorem Writes.statusAt (writes : Writes env rootDir id pid call before after)
    (tidy : call.cleans = false) :
    statusAt after.files (statePathOf rootDir id) =
      (call.puts? env (statePathOf rootDir id) before).or
        (statusAt before.files (statePathOf rootDir id)) := by
  unfold Writes at writes
  split at writes
  · next status put =>
    rw [put, writes.statusAt]
    rfl
  · next silent =>
    rw [silent, ClrOci.statusAt, writes tidy]
    rfl

theorem Writes.holding (writes : Writes env rootDir id pid call before after)
    (tidy : call.cleans = false) (held : ∃ status, Holding before.files rootDir id pid status) :
    ∃ status, Holding after.files rootDir id pid status := by
  unfold Writes at writes
  split at writes
  · next status _ => exact ⟨status, writes⟩
  · obtain ⟨status, holding⟩ := held
    exact ⟨status, holding.of_same (writes tidy)⟩

section Keeps
variable {A : Type} {rely : SysCall → Sys → Prop}
  {more : SysCall → Sys → Script SysCall Sys A → Prop} {created : Option String} {config : Config}
  {status : Status}

def Guarantees (env : Env) (rootDir : Option String) (id : String) (pid : GPid)
    (more : SysCall → Sys → Script SysCall Sys A → Prop) (call : SysCall) (before after : Sys)
    (next : Script SysCall Sys A) : Prop :=
  Writes env rootDir id pid call before after ∧ more call before next

theorem Config.Fit.writes (fit : config.Fit rootDir id pid created) (valid : status ≠ .invalid)
    (sys : Sys) :
    Writes env rootDir id pid (.write status true) sys
      (ClrOci.writeStatus env created status ⟨config, sys⟩).state.sys := by
  obtain ⟨_, content, _, holds, _, state⟩ := fit.writeStatus env sys valid
  rw [Writes, state, setContents]
  cases granted : (env.host sys.clock).setContents (statePathOf rootDir id) with
  | true =>
    simp only [SysCall.puts?, granted, Bool.and_self, ↓reduceIte]
    exact holds _ (Sys.written_files_self _ _ _)
  | false =>
    simp only [SysCall.puts?, granted, Bool.and_false, Bool.false_eq_true, ↓reduceIte]
    exact fun _ => rfl

/-- The step that writes the status from a fit configuration, and what comes after it. -/
theorem Config.Fit.keeps_write (fit : config.Fit rootDir id pid created) (valid : status ≠ .invalid)
    {rest : Exit × Config → Script SysCall Sys A}
    (further : ∀ (sys : Sys) (config' : Config), config'.Fit rootDir id pid created →
      let granted := (env.host sys.clock).setContents (statePathOf rootDir id)
      let next := rest (.returned granted, config')
      more (.write status true) sys next ∧
        next.Keeps rely (Guarantees env rootDir id pid more)) :
    ((writeSteps env created status config).bind rest).Keeps rely
      (Guarantees env rootDir id pid more) := by
  obtain ⟨inputs, given⟩ := fit.given
  have able : SysCall.write status (stateInputs config created).isSome = .write status true := by
    rw [given]
    rfl
  rw [writeSteps, Procedure.atomic, able, Script.bind]
  intro sys _
  obtain ⟨fit', exit, _⟩ := fit.puts env sys status valid
  have next := further sys _ fit'
  dsimp only at next
  rw [← exit] at next
  exact ⟨⟨fit.writes valid sys, next.1⟩, next.2⟩

/-- The step that reads the state of a container, and what the command does then. -/
theorem readState_keeps {act : OciState → Procedure}
    {more : SysCall → Sys → Script SysCall Sys (Exit × Config) → Prop}
    (relied : ∀ sys, rely .read sys → ∃ status, Holding sys.files rootDir id pid status)
    (lost : ∀ sys config, more .read sys (.done (.returned false, config)))
    (found : ∀ sys state config, config.Fit rootDir id pid state.createTime → state.pid = pid →
      config.state.status = state.status → state.status ≠ .invalid →
      more .read sys (act state config) ∧
        (act state config).Keeps rely (Guarantees env rootDir id pid more)) :
    (readState act ((Config.fresh rootDir).setContainerId (some id))).Keeps rely
      (Guarantees env rootDir id pid more) := by
  intro sys allowed
  have silent : Writes env rootDir id pid .read sys sys := Writes.of_same rfl rfl
  obtain ⟨status, holding⟩ := relied sys allowed
  dsimp only [Function.id_def]
  cases got : getConfigAndState sys.files ((Config.fresh rootDir).setContainerId (some id)) with
  | none => exact ⟨⟨silent, lost sys _⟩, trivial⟩
  | some fetched =>
    obtain ⟨same, process, same', fit⟩ := holding.fetched got
    have acts := found sys fetched.state _ fit process (same'.trans same.symm)
      (by rw [same]; exact holding.valid)
    exact ⟨⟨silent, acts.1⟩, acts.2⟩

end Keeps

end Writes

end ClrOci
