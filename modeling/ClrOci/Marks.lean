import ClrOci.RunEquivalence
import ClrOci.Removal
import ClrOci.StatusFile

/-! What start, pause, resume and kill put on disk, for every outcome of the calls they make.

It is stated once for each of them, in terms of the marks that it adds; the laws of whole
sequences of commands follow from it.
-/

set_option autoImplicit false

namespace ClrOci

open Foundation

-- The part of `clr_oci_kill` after the status has been set to stopping.
def deliverSignal (env : Env) (state : OciState) (signum : Int32) (last : Status) : Action World :=
  fun world =>
    let sent := kill env state.pid signum world.sys
    if sent.1 then writeStatus env state.createTime .stopped (world.withSys sent.2)
    else ⟨.returned false, (writeStatus env state.createTime last (world.withSys sent.2)).state⟩

theorem clrOciKill_eq (env : Env) (state : OciState) (signum : Int32) (world : World) :
    clrOciKill env state signum world =
      (writeStatus env state.createTime .stopping).andThen
        (deliverSignal env state signum world.config.state.status) world := rfl

def killMarks (pid : GPid) (signum : Int32) (found : Status) (stopping sent last : Bool) : List Mark :=
  if stopping then
    .status .stopping :: (if sent then [.signal pid signum] else []) ++
      if last then [.status (if sent then .stopped else found)] else []
  else []

def startMarks (pid : GPid) (sent written : Bool) : List Mark :=
  if sent then .signal pid sigcont :: if written then [.status .running] else [] else []

def toggleMarks (dest found : Status) (accepted written : Bool) : List Mark :=
  if found ≠ dest ∧ accepted ∧ written then [.status dest] else []

section Signal
variable {env : Env} {sys : Sys} {pid : GPid} {signum : Int32}

theorem kill_of_granted (granted : (env.host sys.clock).kill pid signum = true) :
    kill env pid signum sys = (true, sys.tick.log (.kill pid signum)) := if_pos granted

theorem kill_of_refused (refused : (env.host sys.clock).kill pid signum = false) :
    kill env pid signum sys = (false, sys.tick) := if_neg (Bool.eq_false_iff.mp refused)

end Signal

section Acts
variable (env : Env) {rootDir : Option String} {id : String} {pid : GPid} {created : Option String}
  {config : Config} (sys : Sys)

theorem deliverSignal_puts {state : OciState} (signum : Int32) {last : Status}
    (fit : config.Fit rootDir id state.pid state.createTime) (valid : last ≠ .invalid) :
    let sent := (env.host sys.clock).kill state.pid signum
    let written := (env.host (sys.clock + 1)).setContents (statePathOf rootDir id)
    Puts rootDir id state.pid
      ((if sent then [.signal state.pid signum] else []) ++
        if written then [.status (if sent then .stopped else last)] else [])
      sys (deliverSignal env state signum last ⟨config, sys⟩).state.sys := by
  intro sent written
  have signalled : Puts rootDir id state.pid _ sys _ := Puts.kill env signum sys
  unfold deliverSignal
  cases granted : sent with
  | true =>
    rw [kill_of_granted granted] at signalled ⊢
    have wrote := fit.puts env (sys.tick.log (.kill state.pid signum)) .stopped (by decide)
    exact signalled.trans wrote.2.2.2
  | false =>
    rw [kill_of_refused granted] at signalled ⊢
    have wrote := fit.puts env sys.tick last valid
    exact signalled.trans wrote.2.2.2

theorem clrOciKill_puts {state : OciState} (signum : Int32)
    (fit : config.Fit rootDir id state.pid state.createTime)
    (valid : config.state.status ≠ .invalid) :
    Puts rootDir id state.pid (killMarks state.pid signum config.state.status
        ((env.host sys.clock).setContents (statePathOf rootDir id))
        ((env.host (sys.clock + 1)).kill state.pid signum)
        ((env.host (sys.clock + 2)).setContents (statePathOf rootDir id)))
      sys (clrOciKill env state signum ⟨config, sys⟩).state.sys := by
  obtain ⟨fit', exit, clock, stopping⟩ := fit.puts env sys .stopping (by decide)
  rw [clrOciKill_eq]
  cases granted : (env.host sys.clock).setContents (statePathOf rootDir id) with
  | false =>
    rw [granted] at exit stopping
    rw [Action.andThen_of_stops (by rw [Action.Succeeds, exit]; decide)]
    exact stopping
  | true =>
    rw [granted] at exit stopping
    rw [Action.andThen_of_succeeds exit]
    generalize (writeStatus env state.createTime .stopping ⟨config, sys⟩).state = middle at *
    obtain ⟨config', sys'⟩ := middle
    change sys'.clock = sys.clock + 1 at clock
    have rest := deliverSignal_puts env sys' signum fit' valid
    rw [clock] at rest
    exact stopping.trans rest

def toggleDest (pause : Bool) : Status := if pause then .paused else .running

def toggleCommand (pause : Bool) : QmpCommand := if pause then .pause else .resume

theorem clrOciToggle_puts {state : OciState} (pause : Bool)
    (fit : config.Fit rootDir id pid state.createTime) :
    Puts rootDir id pid (toggleMarks (toggleDest pause) state.status
        ((env.host sys.clock).qmp (toggleCommand pause) (state.commsPath.getD "") state.pid =
          .returned true)
        ((env.host (sys.clock + 1)).setContents (statePathOf rootDir id)))
      sys (clrOciToggle env state pause ⟨config, sys⟩).state.sys := by
  unfold clrOciToggle
  dsimp only
  rw [show (if pause then Status.paused else Status.running) = toggleDest pause from rfl,
    show (if pause then QmpCommand.pause else QmpCommand.resume) = toggleCommand pause from rfl]
  by_cases already : state.status = toggleDest pause
  · rw [if_pos already, toggleMarks, if_neg fun others => others.1 already]
    exact Puts.refl sys
  · rw [if_neg already]
    split
    · next accepted =>
      have valid : toggleDest pause ≠ .invalid := by cases pause <;> decide
      have wrote := fit.puts env sys.tick (toggleDest pause) valid
      have same : ∀ written, toggleMarks (toggleDest pause) state.status true written =
          if written then [.status (toggleDest pause)] else [] := by
        intro written
        cases written <;> simp [toggleMarks, already]
      rw [accepted, decide_eq_true rfl, same]
      exact (Puts.tick sys).trans wrote.2.2.2
    · next refused =>
      have none : toggleMarks (toggleDest pause) state.status false
          ((env.host (sys.clock + 1)).setContents (statePathOf rootDir id)) = [] := by
        simp [toggleMarks]
      rw [decide_eq_false refused, none]
      exact Puts.tick sys

theorem writeStatus_of_unfit (status : Status) (unfit : stateInputs config created = none) :
    writeStatus env created status ⟨config, sys⟩ =
      ⟨.returned false, (⟨config, sys⟩ : World).withStatus status⟩ := by
  have missing : stateInputs ((⟨config, sys⟩ : World).withStatus status).config created = none := unfit
  rw [writeStatus, stateFileCreate, missing]

theorem Config.Fit.withBundle (fit : config.Fit rootDir id pid created) (bundlePath : Option String) :
    (bundlePath.isSome = true → (config.withBundle bundlePath).Fit rootDir id pid created) ∧
      (bundlePath = none → stateInputs (config.withBundle bundlePath) created = none) := by
  obtain ⟨inputs, given⟩ := fit.given
  obtain ⟨time, name, nonempty, _, paths⟩ := stateInputs_eq_some_iff.mp given
  refine ⟨fun present => ?_, fun none => ?_⟩
  · obtain ⟨bundle, rfl⟩ := Option.isSome_iff_exists.mp present
    have again : stateInputs (config.withBundle (some bundle)) created =
        some { inputs with bundlePath := bundle } :=
      stateInputs_eq_some_iff.mpr ⟨time, name, nonempty, rfl, paths⟩
    exact ⟨fit.root, fit.named, fit.placed, fit.workload, _, again⟩
  · subst none
    rw [Option.eq_none_iff_forall_ne_some]
    intro inputs given
    cases (stateInputs_eq_some_iff.mp given).2.2.2.1

theorem reachRunning_puts (fit : config.Fit rootDir id pid created) (wait : Bool)
    (bundlePath : Option String) :
    let watched := !wait || (env.host sys.clock).monitor
    let sent := watched && (env.host sys.clock).kill pid sigcont
    let written := bundlePath.isSome &&
      (env.host (sys.clock + 1)).setContents (statePathOf rootDir id)
    let after := reachRunning env wait created ⟨config.withBundle bundlePath, sys⟩
    after.exit = .returned (sent && written) ∧
      Puts rootDir id pid (startMarks pid sent written) sys after.state.sys := by
  intro watched sent written after
  cases looked : watched with
  | false =>
    have stopped : after = ⟨.returned false, ⟨config.withBundle bundlePath, sys⟩⟩ := by
      have refused : (watchRuntimeDir env wait ⟨config.withBundle bundlePath, sys⟩) =
          ⟨.returned false, ⟨config.withBundle bundlePath, sys⟩⟩ :=
        congrArg (fun ok => Run.mk (.returned ok) _) looked
      have stops : ¬ (watchRuntimeDir env wait).Succeeds ⟨config.withBundle bundlePath, sys⟩ := by
        rw [Action.Succeeds, refused]
        simp
      exact (Action.andThen_of_stops stops).trans refused
    rw [stopped]
    simp only [sent, looked]
    exact ⟨rfl, Puts.refl sys⟩
  | true =>
    have goes : (watchRuntimeDir env wait).Succeeds ⟨config.withBundle bundlePath, sys⟩ :=
      congrArg Exit.returned looked
    have resumed : after = resumeVm env created ⟨config.withBundle bundlePath, sys⟩ :=
      Action.andThen_of_succeeds goes
    rw [resumed, resumeVm]
    have workload : (config.withBundle bundlePath).state.workloadPid = pid := fit.workload
    simp only [workload, sent, looked, Bool.true_and]
    have signalled : Puts rootDir id pid _ sys _ := Puts.kill env sigcont sys
    cases granted : (env.host sys.clock).kill pid sigcont with
    | false =>
      rw [kill_of_refused granted] at signalled ⊢
      exact ⟨rfl, signalled⟩
    | true =>
      rw [kill_of_granted granted] at signalled ⊢
      obtain ⟨fits, unfit⟩ := fit.withBundle bundlePath
      cases bundle : bundlePath with
      | none =>
        subst bundle
        have refused := writeStatus_of_unfit env (sys.tick.log (.kill pid sigcont)) .running
          (unfit rfl)
        have same : (World.mk (config.withBundle none) sys).withSys
            (sys.tick.log (.kill pid sigcont)) =
              ⟨config.withBundle none, sys.tick.log (.kill pid sigcont)⟩ := rfl
        simp only [same, refused]
        exact ⟨rfl, signalled⟩
      | some bundle =>
        subst bundle
        obtain ⟨_, exit, _, wrote⟩ := (fits rfl).puts env (sys.tick.log (.kill pid sigcont)) .running
          (by decide)
        exact ⟨exit, signalled.trans wrote⟩

end Acts

/-- The commands are given one after another: nothing changes while a start waits. A start that
does not return stays waiting, and other commands may follow it. -/
def Env.Sequential (env : Env) : Prop :=
  ∀ clock files wakeup, (env.host clock).mainLoop files = some wakeup → wakeup.files = files

/-- What a command adds to the marks of a container. Its state file may be deleted at the end, and
only then is a directory taken away. -/
structure Leaves (rootDir : Option String) (id : String) (pid : GPid) (marks : List Mark)
    (before after : Sys) : Prop where
  trace : ∃ events, after.trace = before.trace ++ events ∧
    events.filterMap (Event.mark? (statePathOf rootDir id)) = marks
  left : ∀ status, Holding before.files rootDir id pid status →
    after.files (statePathOf rootDir id) = none ∨
      Holding after.files rootDir id pid ((statuses marks).getLastD status)
  dirs : after.files (statePathOf rootDir id) = none ∨ after.dirs = before.dirs

section Wait
variable (env : Env) {rootDir : Option String} {id : String} {pid : GPid}

theorem Puts.leaves {marks : List Mark} {before after : Sys}
    (puts : Puts rootDir id pid marks before after) : Leaves rootDir id pid marks before after :=
  ⟨puts.trace, fun status holding => Or.inr (puts.held status holding), Or.inr puts.dirs⟩

theorem Leaves.marksSince {marks : List Mark} {before after : Sys}
    (leaves : Leaves rootDir id pid marks before after) :
    before.marksSince (statePathOf rootDir id) after = marks := by
  obtain ⟨events, added, same⟩ := leaves.trace
  rw [Sys.marksSince, Sys.eventsSince_of_append added, same]

structure Deletes (path : String) (before after : Sys) : Prop where
  files : ∀ other, after.files other = before.files other ∨ after.files other = none
  dirs : after.files path = none ∨ after.dirs = before.dirs

namespace Deletes
variable {path : String} {first second third : Sys}

theorem refl (sys : Sys) : Deletes path sys sys := ⟨fun _ => Or.inl rfl, Or.inr rfl⟩

theorem of_same (files : second.files = first.files) (dirs : second.dirs = first.dirs) :
    Deletes path first second := ⟨fun other => Or.inl (congrFun files other), Or.inr dirs⟩

theorem trans (early : Deletes path first second) (late : Deletes path second third) :
    Deletes path first third := by
  refine ⟨fun other => ?_, ?_⟩
  · rcases late.files other with same | gone
    · rw [same]
      exact early.files other
    · exact Or.inr gone
  · rcases late.dirs with gone | same
    · exact Or.inl gone
    · rcases early.dirs with gone | before
      · refine Or.inl ?_
        rcases late.files path with kept | absent
        · exact kept.trans gone
        · exact absent
      · exact Or.inr (same.trans before)

end Deletes

theorem Puts.then_deletes {marks : List Mark} {first second third : Sys}
    (puts : Puts rootDir id pid marks first second)
    (umounts : second.Adds (fun event => event.kind = .umount) third)
    (deletes : Deletes (statePathOf rootDir id) second third) :
    Leaves rootDir id pid marks first third := by
  obtain ⟨events, added, same⟩ := puts.trace
  obtain ⟨late, extended, unmounted⟩ := umounts
  have silent := filterMap_mark?_eq_nil (statePathOf rootDir id) fun event member => by
    rw [unmounted event member]
    decide
  refine ⟨⟨events ++ late, ?_, ?_⟩, fun status holding => ?_, ?_⟩
  · rw [extended, added, List.append_assoc]
  · rw [List.filterMap_append, same, silent, List.append_nil]
  · rcases deletes.files (statePathOf rootDir id) with kept | gone
    · exact Or.inr ((puts.held status holding).of_same kept)
    · exact Or.inl gone
  · rw [← puts.dirs]
    exact deletes.dirs

theorem deleteStateFile_deletes (world : World) :
    Deletes world.config.state.stateFilePath.text world.sys
        (deleteStateFile env world).state.sys ∧
      (deleteStateFile env world).state.config = world.config ∧
      ((deleteStateFile env).Succeeds world →
        (deleteStateFile env world).state.sys.files world.config.state.stateFilePath.text = none) := by
  unfold Action.Succeeds deleteStateFile stateFileDelete unlink
  split
  · exact ⟨Deletes.refl _, rfl, fun ok => absurd ok (by simp)⟩
  · dsimp only
    split
    · refine ⟨⟨fun other => ?_, Or.inr rfl⟩, rfl, fun _ => Function.update_self _ _ _⟩
      by_cases same : other = world.config.state.stateFilePath.text
      · exact Or.inr (by simp [World.withSys, same])
      · exact Or.inl (by simp [World.withSys, Function.update_of_ne same])
    · exact ⟨Deletes.of_same rfl rfl, rfl, fun ok => absurd ok (by simp)⟩

theorem deleteRuntimeDir_files (world : World) (path : String) :
    (deleteRuntimeDir env world).state.sys.files path = world.sys.files path ∨
      (deleteRuntimeDir env world).state.sys.files path = none := by
  unfold deleteRuntimeDir runtimeDirDelete rmRf
  dsimp only
  split
  · split
    · exact Or.inl rfl
    · dsimp only
      split
      · simp only [World.withSys, Sys.removeTree]
        split
        · exact Or.inr rfl
        · exact Or.inl rfl
      · exact Or.inl rfl
  · exact Or.inl rfl

theorem cleanup_deletes (world : World) :
    Deletes world.config.state.stateFilePath.text world.sys (cleanup env world).state.sys := by
  obtain ⟨files, dirs⟩ := handleUnmounts_frame env world.config.oci.mounts world.sys
  have unmounted : Deletes world.config.state.stateFilePath.text world.sys
      (unmountAll env world).state.sys := Deletes.of_same files dirs
  rw [cleanup]
  by_cases drained : (unmountAll env).Succeeds world
  · rw [Action.andThen_of_succeeds drained]
    refine unmounted.trans ?_
    obtain ⟨deletes, config, gone⟩ := deleteStateFile_deletes env (unmountAll env world).state
    by_cases deleted : (deleteStateFile env).Succeeds (unmountAll env world).state
    · rw [Action.andThen_of_succeeds deleted]
      refine deletes.trans ⟨deleteRuntimeDir_files env _, Or.inl ?_⟩
      rcases deleteRuntimeDir_files env (deleteStateFile env (unmountAll env world).state).state
        world.config.state.stateFilePath.text with kept | absent
      · exact kept.trans (gone deleted)
      · exact absent
    · rw [Action.andThen_of_stops deleted]
      exact deletes
  · rw [Action.andThen_of_stops drained]
    exact unmounted

theorem waitIf_deletes (sequential : env.Sequential) (wait : Bool) {world : World}
    (named : world.config.optargContainerId = some id) (root : world.config.rootDir = rootDir) :
    Deletes (statePathOf rootDir id) world.sys (waitIf env wait world).state.sys := by
  unfold waitIf
  split
  · unfold waitForVm
    split
    · exact Deletes.refl _
    · next wakeup woken =>
      have same := sequential _ _ _ woken
      have ticked : Deletes (statePathOf rootDir id) world.sys
          { world.sys.tick with files := wakeup.files } := Deletes.of_same same rfl
      refine ticked.trans ?_
      unfold afterLoop
      split
      · exact Deletes.refl _
      · next fetched got =>
        dsimp only
        split
        · exact Deletes.refl _
        · have placed := (getConfigAndState_spec named got).2.2
          have paths := (Config.fill_placed_paths world.config id fetched.state).2
          change fetched.config = (world.config.placed id).fill fetched.state at placed
          rw [← placed, root] at paths
          have cleaned := cleanup_deletes env
            ⟨fetched.config, { world.sys.tick with files := wakeup.files }⟩
          simp only [paths] at cleaned
          split
          · exact cleaned
          · exact cleaned
  · exact Deletes.refl _

theorem poststartHooks_puts (world : World) :
    Puts rootDir id pid [] world.sys (poststartHooks env world).state.sys := by
  have ran : world.sys.Grows [.hook] (poststartHooks env world).state.sys :=
    runHooks_grows env world.sys List.mem_cons_self _ _ false
  obtain ⟨events, added, hooks⟩ := ran.adds
  have silent := filterMap_mark?_eq_nil (statePathOf rootDir id) fun event member => by
    rw [List.mem_singleton.mp (hooks event member)]
    decide
  obtain ⟨files, dirs, _⟩ := runHooks_frame env world.config.oci.hooks.poststart
    world.config.state.stateFilePath.text false world.sys
  have puts : Puts rootDir id pid _ world.sys _ :=
    Puts.of_files events added files dirs (by rw [silent]; rfl)
  rwa [silent] at puts

section Start
variable {config : Config} (sys : Sys) {state : OciState} (data : StartData)
  (fit : config.Fit rootDir id pid state.createTime) (created : state.status = .created)
include fit created

/-- A start that does not get to the running state puts nothing on disk. -/
theorem clrOciStart_puts :
    let host := env.host sys.clock
    let sent := (!waits host config || host.monitor) && host.kill pid sigcont
    let written := (data.bundlePath host config.bundlePath).isSome &&
      (env.host (sys.clock + 1)).setContents (statePathOf rootDir id)
    (sent && written) = false →
      Puts rootDir id pid (startMarks pid sent written) sys
        (clrOciStart env data state ⟨config, sys⟩).state.sys := by
  intro host sent written failed
  obtain ⟨exit, puts⟩ := reachRunning_puts env sys fit (waits host config)
    (data.bundlePath host config.bundlePath)
  rw [clrOciStart_eq env data created]
  have stops : ¬ (reachRunning env (waits host config) state.createTime).Succeeds
      ⟨config.withBundle (data.bundlePath host config.bundlePath), sys⟩ := by
    rw [Action.Succeeds, exit, Exit.returned.injEq]
    exact Bool.eq_false_iff.mp failed
  dsimp only
  rw [Action.andThen_of_stops stops]
  exact puts

theorem clrOciStart_leaves (sequential : env.Sequential) :
    let host := env.host sys.clock
    let sent := (!waits host config || host.monitor) && host.kill pid sigcont
    let written := (data.bundlePath host config.bundlePath).isSome &&
      (env.host (sys.clock + 1)).setContents (statePathOf rootDir id)
    Leaves rootDir id pid (startMarks pid sent written) sys
      (clrOciStart env data state ⟨config, sys⟩).state.sys := by
  intro host sent written
  cases reached : sent && written with
  | false => exact (clrOciStart_puts env sys data fit created reached).leaves
  | true =>
    obtain ⟨exit, puts⟩ := reachRunning_puts env sys fit (waits host config)
      (data.bundlePath host config.bundlePath)
    let opened : World := ⟨config.withBundle (data.bundlePath host config.bundlePath), sys⟩
    let running := (reachRunning env (waits host config) state.createTime opened).state
    have moved : opened.Rewrites state.createTime (poststartHooks env running).state :=
      (reachRunning_rewrites env (waits host config) state.createTime opened).trans
        (poststartHooks_rewrites env running)
    have named := congrArg Config.optargContainerId moved.config
    have root := congrArg Config.rootDir moved.config
    rw [clrOciStart_eq env data created]
    dsimp only
    rw [Action.andThen_of_succeeds (exit.trans (congrArg Exit.returned reached)),
      Action.andThen_of_succeeds (show (poststartHooks env).Succeeds running from rfl)]
    have hooked := puts.trans (poststartHooks_puts env running)
    rw [List.append_nil] at hooked
    exact hooked.then_deletes (waitIf_adds env (fun _ _ => rfl) _ _)
      (waitIf_deletes env sequential _ (named.trans fit.named) (root.trans fit.root))

end Start

end Wait

structure Invocation where
  command : Rewriting
  rest : List String

def fetch (rootDir : Option String) (id : String) (sys : Sys) : Option Fetched :=
  getConfigAndState sys.files ((Config.fresh rootDir).setContainerId (some id))

namespace Invocation
variable (env : Env) (rootDir : Option String) (id : String)

def perform (sys : Sys) (invocation : Invocation) : Sys :=
  (invocation.command.run env (id :: invocation.rest) ⟨Config.fresh rootDir, sys⟩).state.sys

def marks (fetched : Fetched) (sys : Sys) (invocation : Invocation) : List Mark :=
  let host (after : Nat) := env.host (sys.clock + after)
  let state := fetched.state
  let path := statePathOf rootDir id
  if id = "--help" ∨ id = "-h" then []
  else
    match invocation.command with
    | .start data =>
      let config := configUpdate fetched.config state
      if state.status ≠ .created then []
      else
        startMarks state.pid
          ((!waits (host 0) config || (host 0).monitor) && (host 0).kill state.pid sigcont)
          ((data.bundlePath (host 0) config.bundlePath).isSome && (host 1).setContents path)
    | .toggle pause =>
      toggleMarks (toggleDest pause) state.status
        ((host 0).qmp (toggleCommand pause) (state.commsPath.getD "") state.pid = .returned true)
        ((host 1).setContents path)
    | .kill =>
      match killSignum (id :: invocation.rest) with
      | none => []
      | some signum =>
        killMarks state.pid signum state.status ((host 0).setContents path)
          ((host 1).kill state.pid signum) ((host 2).setContents path)

variable {env rootDir id} {sys : Sys} {invocation : Invocation}

theorem perform_of_usage (usage : id = "--help" ∨ id = "-h") :
    invocation.perform env rootDir id sys = sys := by
  obtain ⟨command, rest⟩ := invocation
  have asked : handleDefaultUsage (id :: rest) = some true := if_pos usage
  cases command with
  | start data => simp only [perform, Rewriting.run, handlerStart, asked]
  | toggle pause => simp only [perform, Rewriting.run, handleCommandToggle, asked]
  | kill => simp only [perform, Rewriting.run, handlerKill, if_pos usage]

theorem perform_of_missing (missing : fetch rootDir id sys = none) :
    invocation.perform env rootDir id sys = sys := by
  have lost : ∀ act : OciState → Action World,
      (withState act ((World.mk (Config.fresh rootDir) sys).setContainerId (some id))).state.sys =
        sys := by
    intro act
    have none : getConfigAndState sys.files ((World.mk (Config.fresh rootDir) sys).setContainerId
        (some id)).config = none := missing
    rw [withState]
    simp only [World.setContainerId] at none ⊢
    rw [none]
  by_cases usage : id = "--help" ∨ id = "-h"
  · exact perform_of_usage usage
  obtain ⟨command, rest⟩ := invocation
  have asked : handleDefaultUsage (id :: rest) = none := if_neg usage
  cases command with
  | start data =>
    simp only [perform, Rewriting.run, handlerStart, asked]
    exact lost _
  | toggle pause =>
    simp only [perform, Rewriting.run, handleCommandToggle, asked]
    exact lost _
  | kill =>
    simp only [perform, Rewriting.run, handlerKill, if_neg usage]
    split
    · rfl
    · exact lost _

theorem perform_of_found {fetched : Fetched} (got : fetch rootDir id sys = some fetched)
    (asked : ¬ (id = "--help" ∨ id = "-h")) :
    let world : World := ⟨configUpdate fetched.config fetched.state, sys⟩
    invocation.perform env rootDir id sys =
      match invocation.command with
      | .start data => (clrOciStart env data fetched.state world).state.sys
      | .toggle pause => (clrOciToggle env fetched.state pause world).state.sys
      | .kill =>
        match killSignum (id :: invocation.rest) with
        | none => sys
        | some signum => (clrOciKill env fetched.state signum world).state.sys := by
  have acts : ∀ act : OciState → Action World,
      (withState act ((World.mk (Config.fresh rootDir) sys).setContainerId (some id))).state.sys =
        (act fetched.state ⟨configUpdate fetched.config fetched.state, sys⟩).state.sys := by
    intro act
    have found : getConfigAndState sys.files ((World.mk (Config.fresh rootDir) sys).setContainerId
        (some id)).config = some fetched := got
    rw [withState]
    simp only [World.setContainerId] at found ⊢
    rw [found]
  obtain ⟨command, rest⟩ := invocation
  have accepted : handleDefaultUsage (id :: rest) = none := if_neg asked
  cases command with
  | start data =>
    simp only [perform, Rewriting.run, handlerStart, accepted, List.head?_cons, acts]
  | toggle pause =>
    simp only [perform, Rewriting.run, handleCommandToggle, accepted, List.head?_cons, acts]
  | kill =>
    simp only [perform, Rewriting.run, handlerKill, if_neg asked]
    cases killSignum (id :: rest) with
    | none => rfl
    | some signum => exact acts _

section Found
variable (invocation) {pid : GPid} {status : Status} (holding : Holding sys.files rootDir id pid status)
  {fetched : Fetched} (got : fetch rootDir id sys = some fetched)
include holding got

/-- A command that does not get a container to run only adds to what is on disk. -/
theorem perform_puts (idle : ∀ data, invocation.command = .start data →
      statuses (invocation.marks env rootDir id fetched sys) = []) :
    Puts rootDir id pid (invocation.marks env rootDir id fetched sys) sys
      (invocation.perform env rootDir id sys) := by
  obtain ⟨found, same, same', fit⟩ := holding.fetched got
  subst same
  rw [marks] at idle ⊢
  by_cases usage : id = "--help" ∨ id = "-h"
  · rw [perform_of_usage usage, if_pos usage]
    exact Puts.refl sys
  rw [if_neg usage] at idle ⊢
  rw [perform_of_found got usage]
  obtain ⟨command, rest⟩ := invocation
  cases command with
  | start data =>
    have silent := idle data rfl
    dsimp only at silent ⊢
    by_cases created : fetched.state.status = .created
    · rw [if_neg (not_not.mpr created)] at silent ⊢
      refine clrOciStart_puts env sys data fit created ?_
      by_contra reached
      rw [Bool.not_eq_false, Bool.and_eq_true] at reached
      simp only [Nat.add_zero, startMarks, reached.1, reached.2, ↓reduceIte] at silent
      cases silent
    · rw [if_pos created, clrOciStart, if_pos created]
      exact Puts.refl sys
  | toggle pause => exact clrOciToggle_puts env sys pause fit
  | kill =>
    dsimp only
    cases killSignum (id :: rest) with
    | none => exact Puts.refl sys
    | some signum =>
      have puts := clrOciKill_puts env sys signum fit (by rw [same']; exact holding.valid)
      rw [same', ← found] at puts
      exact puts

theorem perform_leaves (sequential : env.Sequential) :
    Leaves rootDir id pid (invocation.marks env rootDir id fetched sys) sys
      (invocation.perform env rootDir id sys) := by
  by_cases idle : ∀ data, invocation.command = .start data →
      statuses (invocation.marks env rootDir id fetched sys) = []
  · exact (perform_puts invocation holding got idle).leaves
  obtain ⟨data, named⟩ := not_forall.mp idle
  obtain ⟨named, active⟩ := Classical.not_imp.mp named
  obtain ⟨found, same, _, fit⟩ := holding.fetched got
  subst same
  obtain ⟨command, rest⟩ := invocation
  cases named
  rw [marks] at active ⊢
  by_cases usage : id = "--help" ∨ id = "-h"
  · rw [if_pos usage] at active
    exact absurd rfl active
  rw [if_neg usage] at active ⊢
  rw [perform_of_found got usage]
  dsimp only at active ⊢
  by_cases created : fetched.state.status = .created
  · rw [if_neg (not_not.mpr created)]
    exact clrOciStart_leaves env sys data fit created sequential
  · rw [if_pos created] at active
    exact absurd rfl active

end Found

end Invocation

theorem fetch_of_missing {rootDir : Option String} {id : String} {sys : Sys}
    (missing : sys.files (statePathOf rootDir id) = none) : fetch rootDir id sys = none := by
  have read : stateFileRead sys.files (statePathOf rootDir id) = none :=
    stateFileRead_of_missing missing
  rw [fetch, getConfigAndState_eq rfl, Config.setContainerId_rootDir]
  change (stateFileRead sys.files (statePathOf rootDir id)).bind _ = none
  rw [read, Option.bind_none]

/-- The state file of a container is gone, or holds what the runtime has written. -/
def Kept (rootDir : Option String) (id : String) (sys : Sys) : Prop :=
  sys.files (statePathOf rootDir id) = none ∨ ∃ pid status, Holding sys.files rootDir id pid status

section Kept
variable {env : Env} {rootDir : Option String} {id : String} {sys : Sys}

theorem Kept.perform (sequential : env.Sequential) (kept : Kept rootDir id sys)
    (invocation : Invocation) : Kept rootDir id (invocation.perform env rootDir id sys) := by
  cases got : fetch rootDir id sys with
  | none =>
    rw [Invocation.perform_of_missing got]
    exact kept
  | some fetched =>
    rcases kept with missing | ⟨pid, status, holding⟩
    · rw [fetch_of_missing missing] at got
      cases got
    · rcases (invocation.perform_leaves holding got sequential).left status holding with gone | held
      · exact Or.inl gone
      · exact Or.inr ⟨pid, _, held⟩

theorem Kept.of_create {data : StartData} {rest : List String} (real : data.dryRunMode = false)
    (ok : (handlerCreate env data (id :: rest)).Succeeds ⟨Config.fresh rootDir, sys⟩) :
    Kept rootDir id (handlerCreate env data (id :: rest) ⟨Config.fresh rootDir, sys⟩).state.sys := by
  obtain ⟨_, _, root, _, inputs, container, stored, named, _⟩ := handlerCreate_created real ok
  exact Or.inr ⟨_, _, _, inputs, stored, root, named, rfl, rfl⟩

end Kept

theorem Env.calm_sequential : Env.calm.Sequential := by
  intro clock files wakeup woken
  cases woken
  rfl

theorem createdSys_holding :
    Holding (createdSys []).files (some "/run") "c1" 4242 .created := by
  obtain ⟨inputs, _, named, _, stored⟩ := Stored.of_create
    (show (stateFileCreate Env.calm (some "now")).Succeeds (placedWorld []) by decide)
  have same : inputs.id = "c1" := (Option.some.inj named).symm
  exact ⟨_, inputs, stored (by rw [same]; decide), rfl, same, rfl, rfl⟩

end ClrOci
