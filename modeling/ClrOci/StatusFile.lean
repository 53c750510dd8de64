import ClrOci.Reload

/-! The status on disk: what the state file of a container holds, and how a command changes it. -/

set_option autoImplicit false

namespace ClrOci

open Foundation

/-- The state file of the container with an id, below a root directory. -/
def statePathOf (rootDir : Option String) (id : String) : String :=
  (stateFilePath (runtimePath rootDir id)).text

def Content.status? : Content → Option Status
  | .json document =>
    match document.member? "status" with
    | some (.string name) => some (Status.ofStr name)
    | _ => none
  | .text _ => none

def statusAt (files : Files) (path : String) : Option Status := (files path).bind Content.status?

/-- What an event means for the container: its status on disk, or a signal to a process, or the
launch of one. -/
inductive Mark where
  | status (status : Status)
  | signal (pid : GPid) (signum : Int32)
  | launch (pid : GPid)
  deriving DecidableEq

def Event.mark? (path : String) : Event → Option Mark
  | .wrote other content => if other = path then content.status?.map Mark.status else none
  | .kill pid signum => some (.signal pid signum)
  | .spawn _ pid => some (.launch pid)
  | _ => none

def Mark.status? : Mark → Option Status
  | .status put => some put
  | _ => none

def statuses (marks : List Mark) : List Status := marks.filterMap Mark.status?

def Sys.marksSince (path : String) (before after : Sys) : List Mark :=
  (before.eventsSince after).filterMap (Event.mark? path)

theorem filterMap_mark?_eq_nil {events : List Event} (path : String)
    (silent : ∀ event ∈ events, event.kind ∉ [Event.Kind.wrote, .spawn, .kill]) :
    events.filterMap (Event.mark? path) = [] := by
  refine List.filterMap_eq_nil_iff.mpr fun event member => ?_
  have other := silent event member
  cases event with
  | mount | umount | hook => rfl
  | wrote | spawn | kill => exact absurd (by simp [Event.kind]) other

theorem status?_stateJson {status : Status} {text : String} (named : status.toStr = some text)
    (config : Config) (vm : VmConfig) (id bundlePath created : String) :
    (Content.json (stateJson config vm id bundlePath text created)).status? = some status := by
  have member : (stateJson config vm id bundlePath text created).member? "status" =
      some (.string text) := rfl
  simp only [Content.status?, member, Status.ofStr_of_toStr named]

/-- The state file is in its place, and holds a process and a status as the runtime writes them. -/
def Holding (files : Files) (rootDir : Option String) (id : String) (pid : GPid) (status : Status) :
    Prop :=
  ∃ config inputs, Stored files config inputs ∧ config.rootDir = rootDir ∧ inputs.id = id ∧
    config.state.workloadPid = pid ∧ config.state.status = status

structure Config.Fit (rootDir : Option String) (id : String) (pid : GPid) (created : Option String)
    (config : Config) : Prop where
  root : config.rootDir = rootDir
  named : config.optargContainerId = some id
  placed : config.state.runtimePath = runtimePath rootDir id
  workload : config.state.workloadPid = pid
  given : ∃ inputs, stateInputs config created = some inputs

section Holding
variable {files : Files} {rootDir : Option String} {id : String} {pid : GPid} {status : Status}

theorem Holding.statusAt (holding : Holding files rootDir id pid status) :
    statusAt files (statePathOf rootDir id) = some status := by
  obtain ⟨config, inputs, stored, rfl, rfl, rfl, rfl⟩ := holding
  obtain ⟨text, named, held⟩ := stored.held
  rw [stored.placed] at held
  rw [ClrOci.statusAt, statePathOf, held, Option.bind_some, status?_stateJson named]

theorem Holding.valid (holding : Holding files rootDir id pid status) : status ≠ .invalid := by
  obtain ⟨config, inputs, stored, rfl, rfl, rfl, rfl⟩ := holding
  obtain ⟨text, named, _⟩ := stored.held
  exact (Status.toStr_isSome_iff _).mp (Option.isSome_of_mem named)

theorem Holding.of_same {others : Files} (holding : Holding files rootDir id pid status)
    (same : others (statePathOf rootDir id) = files (statePathOf rootDir id)) :
    Holding others rootDir id pid status := by
  obtain ⟨config, inputs, stored, rfl, rfl, rfl, rfl⟩ := holding
  obtain ⟨text, named, held⟩ := stored.held
  refine ⟨config, inputs, ⟨stored.given, stored.placed, text, named, ?_⟩, rfl, rfl, rfl, rfl⟩
  rw [← held, stored.placed]
  exact same

/-- What a command makes of the state file: its status, and a configuration to write it again. -/
theorem Holding.fetched (holding : Holding files rootDir id pid status) {fetched : Fetched}
    (got : getConfigAndState files ((Config.fresh rootDir).setContainerId (some id)) =
      some fetched) :
    let config := configUpdate fetched.config fetched.state
    fetched.state.status = status ∧ fetched.state.pid = pid ∧ config.state.status = status ∧
      config.Fit rootDir id pid fetched.state.createTime := by
  obtain ⟨config, inputs, stored, rfl, rfl, rfl, rfl⟩ := holding
  obtain ⟨console, state, reloaded⟩ := stored.fetched got
  rw [reloaded, stored.reloaded_eq console, state]
  exact ⟨rfl, rfl, rfl, rfl, rfl, stored.placed, rfl, _, stateInputs_surviving_again stored.given⟩

end Holding

section Fit
variable (env : Env) {rootDir : Option String} {id : String} {pid : GPid} {created : Option String}
  {config : Config} (sys : Sys) {status : Status}

/-- How a write of the state file ends, and what it leaves, from a configuration fit for it. -/
theorem Config.Fit.writeStatus (fit : config.Fit rootDir id pid created) (valid : status ≠ .invalid) :
    let after := writeStatus env created status ⟨config, sys⟩
    after.state.config.Fit rootDir id pid created ∧
      ∃ content, content.status? = some status ∧
        (∀ files, files (statePathOf rootDir id) = some content →
          Holding files rootDir id pid status) ∧
        after.exit = .returned (setContents env (statePathOf rootDir id) content sys).1 ∧
        after.state.sys = (setContents env (statePathOf rootDir id) content sys).2 := by
  obtain ⟨inputs, given⟩ := fit.given
  obtain ⟨text, named⟩ := Option.isSome_iff_exists.mp ((Status.toStr_isSome_iff status).mpr valid)
  obtain ⟨time, name, _⟩ := stateInputs_eq_some_iff.mp given
  have same : inputs.id = id := Option.some.inj (name.symm.trans fit.named)
  let labelled := ((⟨config, sys⟩ : World).withStatus status).config
  have path : (stateFilePath labelled.state.runtimePath).text = statePathOf rootDir id :=
    congrArg (fun runtime => (stateFilePath runtime).text) fit.placed
  have again : stateInputs labelled created = some inputs := given
  have written : stateFileCreate env created ⟨labelled, sys⟩ = _ := stateFileCreate_eq again named
  dsimp only at written
  rw [path] at written
  dsimp only
  rw [ClrOci.writeStatus, show (⟨config, sys⟩ : World).withStatus status = ⟨labelled, sys⟩ from rfl,
    written]
  refine ⟨⟨fit.root, fit.named, fit.placed, fit.workload, fit.given⟩, _,
    status?_stateJson named labelled inputs.vm inputs.id inputs.bundlePath inputs.created,
    fun files held => ?_, rfl, rfl⟩
  refine ⟨labelled, inputs, ⟨time ▸ again, ?_, text, named, by rw [path]; exact held⟩, fit.root,
    same, fit.workload, rfl⟩
  rw [same]
  exact fit.placed.trans (congrArg (runtimePath · id) fit.root.symm)

end Fit

structure Puts (rootDir : Option String) (id : String) (pid : GPid) (marks : List Mark)
    (before after : Sys) : Prop where
  trace : ∃ events, after.trace = before.trace ++ events ∧
    events.filterMap (Event.mark? (statePathOf rootDir id)) = marks
  held : ∀ status, Holding before.files rootDir id pid status →
    Holding after.files rootDir id pid ((statuses marks).getLastD status)
  dirs : after.dirs = before.dirs

namespace Puts
variable {rootDir : Option String} {id : String} {pid : GPid} {marks more : List Mark}
  {first second third : Sys}

theorem marksSince (puts : Puts rootDir id pid marks first second) :
    first.marksSince (statePathOf rootDir id) second = marks := by
  obtain ⟨events, added, same⟩ := puts.trace
  rw [Sys.marksSince, Sys.eventsSince_of_append added, same]

theorem refl (sys : Sys) : Puts rootDir id pid [] sys sys :=
  ⟨⟨[], (List.append_nil _).symm, rfl⟩, fun _ holding => holding, rfl⟩

theorem trans (early : Puts rootDir id pid marks first second)
    (late : Puts rootDir id pid more second third) :
    Puts rootDir id pid (marks ++ more) first third := by
  obtain ⟨before, added, some⟩ := early.trace
  obtain ⟨after, extended, others⟩ := late.trace
  refine ⟨⟨before ++ after, ?_, ?_⟩, fun status holding => ?_, late.dirs.trans early.dirs⟩
  · rw [extended, added, List.append_assoc]
  · rw [List.filterMap_append, some, others]
  · have held := late.held _ (early.held status holding)
    rw [statuses, List.filterMap_append, List.getLastD_eq_getLast?, List.getLast?_append,
      Option.getD_or, ← List.getLastD_eq_getLast?, ← List.getLastD_eq_getLast?]
    exact held

theorem of_files (events : List Event) (added : second.trace = first.trace ++ events)
    (same : second.files = first.files) (dirs : second.dirs = first.dirs)
    (silent : statuses (events.filterMap (Event.mark? (statePathOf rootDir id))) = []) :
    Puts rootDir id pid (events.filterMap (Event.mark? (statePathOf rootDir id))) first second := by
  refine ⟨⟨events, added, rfl⟩, fun status holding => ?_, dirs⟩
  rw [silent, same]
  exact holding

theorem tick (sys : Sys) : Puts rootDir id pid [] sys sys.tick :=
  of_files [] (List.append_nil _).symm rfl rfl rfl

theorem kill (env : Env) (signum : Int32) (sys : Sys) :
    Puts rootDir id pid (if (ClrOci.kill env pid signum sys).1 then [.signal pid signum] else []) sys
      (ClrOci.kill env pid signum sys).2 := by
  unfold ClrOci.kill
  split
  · exact of_files [.kill pid signum] rfl rfl rfl rfl
  · exact tick sys

end Puts

theorem Config.Fit.puts (env : Env) {rootDir : Option String} {id : String} {pid : GPid}
    {created : Option String} {config : Config} (sys : Sys) (status : Status)
    (fit : config.Fit rootDir id pid created) (valid : status ≠ .invalid) :
    let granted := (env.host sys.clock).setContents (statePathOf rootDir id)
    let after := ClrOci.writeStatus env created status ⟨config, sys⟩
    after.state.config.Fit rootDir id pid created ∧ after.exit = .returned granted ∧
      after.state.sys.clock = sys.clock + 1 ∧
      Puts rootDir id pid (if granted then [.status status] else []) sys after.state.sys := by
  intro granted after
  obtain ⟨fit, content, held, holds, exit, state⟩ := fit.writeStatus env sys valid
  cases allowed : granted with
  | false =>
    have refused : setContents env (statePathOf rootDir id) content sys = (false, sys.tick) := by
      rw [setContents, if_neg (Bool.eq_false_iff.mp allowed)]
    rw [refused] at exit state
    refine ⟨fit, exit, congrArg Sys.clock state, ?_⟩
    rw [state]
    exact Puts.tick sys
  | true =>
    have written : setContents env (statePathOf rootDir id) content sys =
        (true, sys.tick.written (statePathOf rootDir id) content) := if_pos allowed
    rw [written] at exit state
    refine ⟨fit, exit, congrArg Sys.clock state, ?_⟩
    have there := holds (sys.tick.written (statePathOf rootDir id) content).files
      (Sys.written_files_self _ _ content)
    rw [state, if_pos rfl]
    refine ⟨⟨[.wrote (statePathOf rootDir id) content], rfl, ?_⟩, fun _ _ => there, rfl⟩
    simp [Event.mark?, held]

end ClrOci
