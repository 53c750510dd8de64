import ClrOci.Growth
import ClrOci.Reload

/-! Rewriting the state file: what start, pause, resume and kill put into it. -/

set_option autoImplicit false

namespace ClrOci

open Foundation

def Config.settled (config : Config) : Config :=
  config.setState { config.state with status := .created, stateFilePath := Buffer.empty }

def WritesState (created : Option String) (config : Config) (event : Event) : Prop :=
  ∀ path content, event = .wrote path content →
    ∃ inputs status, stateInputs config created = some inputs ∧ content = .json
      (stateJson config inputs.vm inputs.id inputs.bundlePath status inputs.created)

structure World.Rewrites (created : Option String) (before after : World) : Prop where
  config : after.config.settled = before.config.settled
  adds : before.sys.Adds (WritesState created before.config.settled) after.sys

namespace World.Rewrites
variable {created : Option String} {first second third : World}

theorem refl (world : World) : world.Rewrites created world := ⟨rfl, Sys.Adds.refl world.sys⟩

theorem trans (early : first.Rewrites created second) (late : second.Rewrites created third) :
    first.Rewrites created third :=
  ⟨late.config.trans early.config, early.adds.trans (early.config ▸ late.adds)⟩

theorem andThen {head next : Action World} (early : head.Moves (World.Rewrites created))
    (late : next.Moves (World.Rewrites created)) :
    (head.andThen next).Moves (World.Rewrites created) := by
  have trans : ∀ first second third : World, first.Rewrites created second →
      second.Rewrites created third → first.Rewrites created third :=
    fun _ _ _ => World.Rewrites.trans
  exact Action.Moves.andThen trans early late

end World.Rewrites

theorem WritesState.of_kind {created : Option String} {config : Config} {event : Event}
    (other : event.kind ≠ .wrote) : WritesState created config event := by
  rintro path content rfl
  exact absurd rfl other

section Steps
variable (env : Env) {created : Option String}

theorem stateFileCreate_rewrites :
    (stateFileCreate env created).Moves (World.Rewrites created) := by
  intro world
  unfold stateFileCreate
  split
  · next inputs config given got =>
    rw [stateFileGet_eq_some got]
    dsimp only
    split
    · exact ⟨rfl, Sys.Adds.refl world.sys⟩
    · next status _ =>
      refine ⟨rfl, ?_⟩
      unfold setContents
      split
      · apply Sys.Adds.trans (Sys.Adds.of_same rfl)
        refine Sys.Adds.trans (Sys.Adds.log ?_ world.sys.tick) (Sys.Adds.of_same rfl)
        intro path content same
        cases same
        exact ⟨inputs, status, given, rfl⟩
      · exact Sys.Adds.of_same rfl
  · exact World.Rewrites.refl world

theorem writeStatus_rewrites (status : Status) :
    (writeStatus env created status).Moves (World.Rewrites created) := by
  intro world
  have named : world.Rewrites created (world.withStatus status) := ⟨rfl, Sys.Adds.of_same rfl⟩
  exact named.trans (stateFileCreate_rewrites env (world.withStatus status))

theorem kill_adds {allowed : Event → Prop} (pid : GPid) (signum : Int32) (sys : Sys)
    (fine : allowed (.kill pid signum)) : sys.Adds allowed (kill env pid signum sys).2 := by
  unfold kill
  split
  · exact Sys.Adds.trans (Sys.Adds.of_same rfl) (Sys.Adds.log fine sys.tick)
  · exact Sys.Adds.of_same rfl

theorem kill_rewrites (created : Option String) (pid : GPid) (signum : Int32) (world : World) :
    world.Rewrites created (world.withSys (kill env pid signum world.sys).2) :=
  ⟨rfl, kill_adds env pid signum world.sys (WritesState.of_kind (by simp [Event.kind]))⟩

theorem clrOciKill_rewrites (state : OciState) (signum : Int32) :
    (clrOciKill env state signum).Moves (World.Rewrites state.createTime) := by
  intro world
  unfold clrOciKill
  dsimp only
  apply World.Rewrites.andThen (writeStatus_rewrites env .stopping)
  intro world
  have killed := kill_rewrites env state.createTime state.pid signum world
  dsimp only
  split
  · exact killed.trans (writeStatus_rewrites env .stopped _)
  · exact killed.trans (writeStatus_rewrites env _ _)

theorem clrOciToggle_rewrites (state : OciState) (pause : Bool) :
    (clrOciToggle env state pause).Moves (World.Rewrites state.createTime) := by
  intro world
  unfold clrOciToggle
  generalize (if pause then Status.paused else Status.running) = dest
  generalize (if pause then QmpCommand.pause else QmpCommand.resume) = command
  dsimp only
  have asked : world.Rewrites state.createTime (world.withSys world.sys.tick) :=
    ⟨rfl, Sys.Adds.of_same rfl⟩
  split
  · exact World.Rewrites.refl world
  · split
    · exact asked.trans (writeStatus_rewrites env _ _)
    · exact asked

theorem resumeVm_rewrites : (resumeVm env created).Moves (World.Rewrites created) := by
  intro world
  unfold resumeVm
  have killed := kill_rewrites env created world.config.state.workloadPid sigcont world
  dsimp only
  split
  · exact killed.trans (writeStatus_rewrites env .running _)
  · exact killed

theorem watchRuntimeDir_rewrites (wait : Bool) :
    (watchRuntimeDir env wait).Moves (World.Rewrites created) :=
  fun world => World.Rewrites.refl world

theorem poststartHooks_rewrites : (poststartHooks env).Moves (World.Rewrites created) := by
  intro world
  have ran : world.sys.Grows [.hook] _ := runHooks_grows env world.sys List.mem_cons_self
    world.config.oci.hooks.poststart world.config.state.stateFilePath.text false
  refine ⟨rfl, ran.adds.mono fun event kind => WritesState.of_kind ?_⟩
  rw [List.mem_singleton.mp kind]
  decide

end Steps

section Wait
variable (env : Env) {allowed : Event → Prop} (umounts : ∀ dest ok, allowed (.umount dest ok))
include umounts

theorem handleUnmounts_adds (mounts : List Mount) (sys : Sys) :
    sys.Adds allowed (handleUnmounts env mounts sys).state := by
  refine sweep_moves (Sys.Adds allowed) Sys.Adds.refl (fun _ _ _ => Sys.Adds.trans) ?_ mounts sys
  intro mount sys
  unfold handleUnmount performUnmount
  split
  · exact Sys.Adds.refl sys
  · have unmounted : ∀ ok, sys.Adds allowed (sys.tick.log (.umount mount.dest.text ok)) :=
      fun ok => Sys.Adds.trans (Sys.Adds.of_same rfl) (Sys.Adds.log (umounts _ ok) sys.tick)
    dsimp only
    split
    · exact (unmounted true).trans (Sys.Adds.of_same rfl)
    · exact unmounted false

theorem cleanup_adds :
    (cleanup env).Moves fun before after : World => before.sys.Adds allowed after.sys := by
  have trans : ∀ first second third : World, first.sys.Adds allowed second.sys →
      second.sys.Adds allowed third.sys → first.sys.Adds allowed third.sys :=
    fun _ _ _ => Sys.Adds.trans
  apply Action.Moves.andThen trans
  · exact fun world => handleUnmounts_adds env umounts world.config.oci.mounts world.sys
  apply Action.Moves.andThen trans
  · intro world
    unfold deleteStateFile stateFileDelete unlink
    split
    · exact Sys.Adds.refl world.sys
    · dsimp only
      split <;> exact Sys.Adds.of_same rfl
  · intro world
    unfold deleteRuntimeDir runtimeDirDelete rmRf
    dsimp only
    apply Sys.Adds.of_same
    split
    · split
      · rfl
      · dsimp only
        split <;> rfl
    · rfl

theorem waitForVm_adds (world : World) :
    world.sys.Adds allowed (waitForVm env world).state.sys := by
  unfold waitForVm
  split
  · exact Sys.Adds.refl world.sys
  · apply Sys.Adds.trans (Sys.Adds.of_same rfl)
    unfold afterLoop
    split
    · exact Sys.Adds.of_same rfl
    · dsimp only
      split
      · exact Sys.Adds.of_same rfl
      · have cleaned := cleanup_adds env umounts
        split
        · exact cleaned _
        · exact cleaned _

end Wait

def Event.Quiet (event : Event) : Prop := event.kind ∉ [Event.Kind.wrote, .hook]

theorem Event.umount_quiet (dest : String) (ok : Bool) : (Event.umount dest ok).Quiet := by
  simp [Event.Quiet, Event.kind]

def StartData.bundlePath (data : StartData) (host : Host) (recorded : Option String) :
    Option String :=
  match data.bundle with
  | none => recorded
  | some bundle => resolvePath host (some bundle)

section Start
variable (env : Env) (data : StartData)

theorem overrideBundle_eq (world : World) :
    overrideBundle env data world = ⟨.returned true, ⟨world.config.withBundle
      (data.bundlePath (env.host world.sys.clock) world.config.bundlePath), world.sys⟩⟩ := by
  unfold overrideBundle StartData.bundlePath
  cases data.bundle with
  | none => rfl
  | some bundle => rfl

def reachRunning (wait : Bool) (created : Option String) : Action World :=
  (watchRuntimeDir env wait).andThen (resumeVm env created)

def waitIf (wait : Bool) : Action World := if wait then waitForVm env else Action.succeed

theorem clrOciStart_eq {state : OciState} (created : state.status = .created) (world : World) :
    clrOciStart env data state world =
      let wait := waits (env.host world.sys.clock) world.config
      let bundlePath := data.bundlePath (env.host world.sys.clock) world.config.bundlePath
      (reachRunning env wait state.createTime).andThen
        ((poststartHooks env).andThen (waitIf env wait))
        ⟨world.config.withBundle bundlePath, world.sys⟩ := by
  have overridden : (overrideBundle env data).Succeeds world := by
    rw [Action.Succeeds, overrideBundle_eq]
  rw [clrOciStart, if_neg (not_not.mpr created)]
  dsimp only
  rw [Action.sequence_cons, Action.andThen_of_succeeds overridden, overrideBundle_eq,
    Action.sequence_cons, Action.sequence_cons, Action.sequence_cons, Action.sequence_singleton,
    reachRunning, Action.andThen_assoc]
  rfl

theorem reachRunning_rewrites (wait : Bool) (created : Option String) :
    (reachRunning env wait created).Moves (World.Rewrites created) :=
  World.Rewrites.andThen (watchRuntimeDir_rewrites env wait) (resumeVm_rewrites env)

theorem waitIf_adds {allowed : Event → Prop} (umounts : ∀ dest ok, allowed (.umount dest ok))
    (wait : Bool) (world : World) : world.sys.Adds allowed (waitIf env wait world).state.sys := by
  unfold waitIf
  split
  · exact waitForVm_adds env umounts world
  · exact Sys.Adds.refl world.sys

theorem clrOciStart_adds (state : OciState) (world : World) :
    world.sys.Adds (WritesState state.createTime (world.config.withBundle
        (data.bundlePath (env.host world.sys.clock) world.config.bundlePath)).settled)
      (clrOciStart env data state world).state.sys := by
  by_cases created : state.status = .created
  · rw [clrOciStart_eq env data created]
    dsimp only
    rw [← Action.andThen_assoc]
    generalize world.config.withBundle _ = config
    generalize waits (env.host world.sys.clock) world.config = wait
    have early := World.Rewrites.andThen (reachRunning_rewrites env wait state.createTime)
      (poststartHooks_rewrites env) ⟨config, world.sys⟩
    by_cases reached : ((reachRunning env wait state.createTime).andThen
        (poststartHooks env)).Succeeds ⟨config, world.sys⟩
    · rw [Action.andThen_of_succeeds reached]
      have umounts : ∀ dest ok, WritesState state.createTime config.settled (.umount dest ok) :=
        fun _ _ => WritesState.of_kind (by simp [Event.kind])
      exact early.adds.trans (waitIf_adds env umounts wait _)
    · rw [Action.andThen_of_stops reached]
      exact early.adds
  · rw [clrOciStart, if_pos created]
    exact Sys.Adds.refl world.sys

end Start

inductive Rewriting where
  | start (data : StartData)
  | toggle (pause : Bool)
  | kill

namespace Rewriting

def run (env : Env) : Rewriting → List String → Action World
  | .start data => handlerStart env data
  | .toggle pause => handleCommandToggle env pause
  | .kill => handlerKill env

def bundlePath (host : Host) (recorded : Option String) : Rewriting → Option String
  | .start data => data.bundlePath host recorded
  | _ => recorded

variable (env : Env)

theorem withState_cases (act : OciState → Action World) (world : World) :
    (withState act world).state.sys = world.sys ∨
      ∃ fetched, getConfigAndState world.sys.files world.config = some fetched ∧
        withState act world = act fetched.state
          { world with config := configUpdate fetched.config fetched.state } := by
  unfold withState
  split
  · exact Or.inl rfl
  · next fetched got => exact Or.inr ⟨fetched, got, rfl⟩

def Writes (command : Rewriting) (id : String) (world : World) (after : Sys) : Prop :=
  after = world.sys ∨
    ∃ fetched, getConfigAndState world.sys.files (world.config.setContainerId (some id)) =
        some fetched ∧
      let config := configUpdate fetched.config fetched.state
      world.sys.Adds (WritesState fetched.state.createTime (config.withBundle
        (command.bundlePath (env.host world.sys.clock) config.bundlePath)).settled) after

variable {env} {command : Rewriting} {id : String}

theorem withState_writes {act : OciState → Action World}
    (adds : ∀ (state : OciState) (world : World), world.sys.Adds (WritesState state.createTime
      (world.config.withBundle (command.bundlePath (env.host world.sys.clock)
        world.config.bundlePath)).settled) (act state world).state.sys) (world : World) :
    command.Writes env id world (withState act (world.setContainerId (some id))).state.sys := by
  rcases withState_cases act (world.setContainerId (some id)) with same | ⟨fetched, got, run⟩
  · exact Or.inl same
  · refine Or.inr ⟨fetched, got, ?_⟩
    have written := adds fetched.state { world.setContainerId (some id) with
      config := configUpdate fetched.config fetched.state }
    rw [← run] at written
    exact written

variable (env) (id)

theorem run_writes (command : Rewriting) (rest : List String) (world : World) :
    command.Writes env id world (command.run env (id :: rest) world).state.sys := by
  cases command with
  | start data =>
    change Writes env _ id world (handlerStart env data (id :: rest) world).state.sys
    unfold handlerStart
    split
    · exact Or.inl rfl
    · apply withState_writes
      exact fun state world => clrOciStart_adds env data state world
  | toggle pause =>
    change Writes env _ id world (handleCommandToggle env pause (id :: rest) world).state.sys
    unfold handleCommandToggle
    split
    · exact Or.inl rfl
    · apply withState_writes
      exact fun state world => (clrOciToggle_rewrites env state pause world).adds
  | kill =>
    change Writes env _ id world (handlerKill env (id :: rest) world).state.sys
    unfold handlerKill
    dsimp only
    split
    · exact Or.inl rfl
    · split
      · exact Or.inl rfl
      · next signum _ =>
        apply withState_writes
        exact fun state world => (clrOciKill_rewrites env state signum world).adds

end Rewriting

theorem Stored.of_create {writer : Env} {created : Option String} {before : World}
    (ok : (stateFileCreate writer created).Succeeds before) :
    ∃ inputs : StateInputs, created = some inputs.created ∧
      before.config.optargContainerId = some inputs.id ∧
      before.config.bundlePath = some inputs.bundlePath ∧
      (before.config.state.runtimePath = runtimePath before.config.rootDir inputs.id →
        Stored (stateFileCreate writer created before).state.sys.files before.config inputs) := by
  obtain ⟨inputs, status, given, named, after⟩ := stateFileCreate_state ok
  obtain ⟨time, id, _, bundle, _⟩ := stateInputs_eq_some_iff.mp given
  refine ⟨inputs, time, id, bundle, fun placed => ⟨time ▸ given, placed, status, named, ?_⟩⟩
  rw [after]
  exact Sys.written_files_self _ _ _

/-- A command that writes the state file of a container again changes its status only if and
only if the container has no annotations and the command works with the recorded bundle: the
annotations are read back, but not transferred to the configuration. -/
theorem rewrite_changes_status_only_iff (env writer : Env) {created : Option String} {before : World}
    (ok : (stateFileCreate writer created).Succeeds before) {id : String}
    (named : before.config.optargContainerId = some id)
    (placed : before.config.state.runtimePath = runtimePath before.config.rootDir id)
    (command : Rewriting) (rest : List String) {sys : Sys} {path : String}
    (file : path = (stateFilePath (runtimePath before.config.rootDir id)).text)
    {old new : Json} (written : (stateFileCreate writer created before).state.sys.files path =
      some (.json old)) (kept : sys.files path = some (.json old))
    (rewritten : .wrote path (.json new) ∈ sys.eventsSince (command.run env (id :: rest)
      ⟨Config.fresh before.config.rootDir, sys⟩).state.sys) :
    SameButStatus old new ↔
      before.config.oci.annotations = [] ∧
        command.bundlePath (env.host sys.clock) before.config.bundlePath =
          before.config.bundlePath := by
  subst file
  obtain ⟨inputs, time, same, bundle, stored⟩ := Stored.of_create ok
  cases named.symm.trans same
  obtain ⟨given, _, status, valid, held⟩ := stored placed
  rw [placed] at held
  cases written.symm.trans held
  have there : Stored sys.files before.config inputs :=
    ⟨given, placed, status, valid, by rw [placed]; exact kept⟩
  rcases command.run_writes env inputs.id rest ⟨Config.fresh before.config.rootDir, sys⟩ with
    idle | ⟨fetched, got, adds⟩
  · rw [idle, Sys.eventsSince_of_append (List.append_nil sys.trace).symm] at rewritten
    cases rewritten
  · obtain ⟨console, state, config⟩ := there.fetched got
    rw [config, there.reloaded_eq console, state] at adds
    obtain ⟨others, status', again, content⟩ := adds.of_mem rewritten _ _ rfl
    obtain ⟨recorded, resolved, rfl⟩ := stateInputs_surviving again
    cases content
    have same := sameButStatus_iff before.config inputs recorded status status'
    rw [← stateJson_surviving before.config inputs (some recorded)] at same
    have path : command.bundlePath (env.host sys.clock) before.config.bundlePath = some recorded := by
      rw [bundle]
      exact resolved
    rw [path, bundle, Option.some.injEq]
    exact same

def placedWorld (annotations : List Annotation) : World :=
  ⟨{ createdConfig annotations with rootDir := some "/run" }, Sys.idle fun _ => none⟩

def createdSys (annotations : List Annotation) : Sys :=
  (stateFileCreate Env.calm (some "now") (placedWorld annotations)).state.sys

def paused (annotations : List Annotation) : Run World :=
  (Rewriting.toggle true).run Env.calm ["c1"] ⟨Config.fresh (some "/run"), createdSys annotations⟩

def documentAt (files : Files) (path : String) : Option Json :=
  match files path with
  | some (.json document) => some document
  | _ => none

theorem documentAt_eq_some {files : Files} {path : String} {document : Json}
    (held : documentAt files path = some document) : files path = some (.json document) := by
  unfold documentAt at held
  split at held
  · next found =>
    cases held
    exact found
  · cases held

def Event.documentWritten? (path : String) : Event → Option Json
  | .wrote other (.json document) => if other = path then some document else none
  | _ => none

theorem Event.documentWritten?_eq_some {path : String} {event : Event} {document : Json}
    (written : event.documentWritten? path = some document) :
    event = .wrote path (.json document) := by
  unfold Event.documentWritten? at written
  split at written
  · split at written
    · next same =>
      cases written
      rw [same]
    · cases written
  · cases written

theorem pause_changes_status_only :
    ∃ old new, (createdSys []).files "/run/c1/state.json" = some (.json old) ∧
      .wrote "/run/c1/state.json" (.json new) ∈
        (createdSys []).eventsSince (paused []).state.sys ∧ SameButStatus old new := by
  have held : (documentAt (createdSys []).files "/run/c1/state.json").isSome = true := by decide
  obtain ⟨old, found⟩ := Option.isSome_iff_exists.mp held
  have stored := documentAt_eq_some found
  have wrote : ((createdSys []).eventsSince (paused []).state.sys).any (fun event =>
      (event.documentWritten? "/run/c1/state.json").isSome) = true := by decide
  obtain ⟨event, member, shape⟩ := List.any_eq_true.mp wrote
  obtain ⟨new, written⟩ := Option.isSome_iff_exists.mp shape
  rw [Event.documentWritten?_eq_some written] at member
  refine ⟨old, new, stored, member, ?_⟩
  exact (rewrite_changes_status_only_iff Env.calm Env.calm (by decide) rfl (by decide)
    (.toggle true) [] (by decide) stored stored member).mpr ⟨rfl, rfl⟩

/-- Pausing a container with an annotation writes a state file without it. -/
theorem pause_loses_annotation :
    let annotations := [⟨"note", some "x"⟩]
    (stateFileCreate Env.calm (some "now")).Succeeds (placedWorld annotations) ∧
      (paused annotations).exit = .returned true ∧
      ∃ old new, (createdSys annotations).files "/run/c1/state.json" = some (.json old) ∧
        (paused annotations).state.sys.files "/run/c1/state.json" = some (.json new) ∧
        ¬ SameButStatus old new := by
  intro annotations
  refine ⟨by decide, by decide, ?_⟩
  have before : (documentAt (createdSys annotations).files "/run/c1/state.json").any (fun document =>
      (document.member? "annotations").isSome) = true := by decide
  have after : (documentAt (paused annotations).state.sys.files "/run/c1/state.json").any
      (fun document => (document.member? "annotations").isNone) = true := by decide
  obtain ⟨old, found, noted⟩ := (Option.any_eq_true _ _).mp before
  obtain ⟨new, left, lost⟩ := (Option.any_eq_true _ _).mp after
  refine ⟨old, new, documentAt_eq_some found, documentAt_eq_some left, fun same => ?_⟩
  rw [← same "annotations" (by decide), Option.isNone_iff_eq_none.mp lost] at noted
  cases noted

end ClrOci
