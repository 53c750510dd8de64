import ClrOci.Foundation.MainLoop
import ClrOci.Footprint
import ClrOci.ProcessWatcher

/-! The statistics that `events` prints.

The status of the container is read once, before the main loop. A timer prints the statistics from
then on, and the loop ends when the process socket of the hypervisor is deleted.
-/

set_option autoImplicit false

namespace ClrOci

open Foundation

/-- The options of `events`. -/
structure EventsOptions where
  stats : Bool := false
  interval : Int32 := 5

structure LoopCalls where
  loop : Bool := true
  file : Bool := true
  monitor : Bool := true

inductive StatsEvent where
  | tick
  | changed (event : MonitorEvent) (path : Option String)
  deriving DecidableEq

/-- `struct watcher_vm_data` with the sources of its main loop, and what has been printed. -/
structure Reporting where
  timer : Bool := true
  monitor : Bool := true
  quit : Bool := false
  printed : List Json := []

def statsJson (id : Option String) : Json :=
  let resources := Json.setMember (Json.setMember [] "cpu_stats" (.object [])) "memory_stats" (.object [])
  let data := Json.setMember [] "CgroupStats" (.object resources)
  let root := Json.setMember [] "type" (.string "stats")
  let root := Json.setMember (Json.setMember root "id" (Json.ofString? id)) "id" (Json.ofString? id)
  .object (Json.setMember root "data" (.object data))

/-- `get_container_stats`. -/
def getContainerStats (config : Config) : Option Json :=
  if config.state.status ≠ .running then none else some (statsJson config.optargContainerId)

/-- `show_interval_stats`: the timer is removed once there is nothing to show. -/
def showIntervalStats (config : Config) (reporting : Reporting) : Reporting :=
  match getContainerStats config with
  | none => { reporting with timer := false }
  | some stats => { reporting with printed := reporting.printed ++ [stats] }

/-- `watcher_destroyed_vm`. -/
def watcherDestroyedVm (event : MonitorEvent) (path : Option String) (reporting : Reporting) : Reporting :=
  if event ≠ .deleted then reporting
  else
    match path with
    | none => reporting
    | some path =>
      if basename path ≠ processSocket then reporting
      else { reporting with monitor := false, quit := true }

def Reporting.dispatch (config : Config) (reporting : Reporting) : StatsEvent → Reporting
  | .tick => if reporting.timer then showIntervalStats config reporting else reporting
  | .changed event path =>
    if reporting.monitor then watcherDestroyedVm event path reporting else reporting

/-- `show_container_stats`: its result and what it has printed, or nothing if it never returns. -/
def showContainerStats (config : Config) (interval : Int32) (calls : LoopCalls)
    (iterations : List (List StatsEvent)) : Option (Bool × List Json) :=
  if interval ≠ 0 then
    if !calls.loop || !calls.file || !calls.monitor then some (false, [])
    else
      (iterate (Reporting.dispatch config) Reporting.quit iterations {}).map fun after => (true, after.printed)
  else
    match getContainerStats config with
    | none => some (false, [])
    | some stats => some (true, [stats])

/-- `handler_events`. -/
def handlerEvents (options : EventsOptions) (calls : LoopCalls) (iterations : List (List StatsEvent))
    (argv : List String) (world : World) : Option (Bool × List Json) :=
  match handleDefaultUsage argv with
  | some ret => some (ret, [])
  | none =>
    if options.interval ≤ 0 then some (false, [])
    else
      match getConfigAndState world.sys.files (world.config.setContainerId argv.head?) with
      | none => some (false, [])
      | some fetched =>
        let interval := if options.stats then 0 else options.interval
        showContainerStats fetched.config interval calls iterations

def StatsEvent.destroys : StatsEvent → Bool
  | .tick => false
  | .changed event path => event = .deleted && path.any fun path => basename path = processSocket

section Loop
variable {config : Config} {reporting : Reporting}

theorem dispatch_spec (event : StatsEvent) (watched : reporting.monitor = !reporting.quit)
    (timed : (getContainerStats config).isSome = true → reporting.timer = true) :
    let after := reporting.dispatch config event
    after.monitor = !after.quit ∧
      ((getContainerStats config).isSome = true → after.timer = true) ∧
      after.quit = (reporting.quit || event.destroys) ∧
      after.printed = reporting.printed ++
        (if event = .tick then (getContainerStats config).toList else []) := by
  cases event with
  | tick =>
    simp only [Reporting.dispatch, showIntervalStats, StatsEvent.destroys, Bool.or_false, ↓reduceIte]
    cases stats : getContainerStats config with
    | none =>
      split
      · exact ⟨watched, fun other => (by cases other), rfl, (List.append_nil _).symm⟩
      · exact ⟨watched, fun other => (by cases other), rfl, (List.append_nil _).symm⟩
    | some document =>
      rw [stats] at timed
      rw [if_pos (timed rfl)]
      exact ⟨watched, fun _ => timed rfl, rfl, rfl⟩
  | changed event path =>
    simp only [Reporting.dispatch, reduceCtorEq, ↓reduceIte, List.append_nil]
    cases quit : reporting.quit with
    | true =>
      rw [quit, Bool.not_true] at watched
      simp only [watched, Bool.false_eq_true, ↓reduceIte, quit, Bool.not_true, Bool.true_or]
      exact ⟨trivial, timed, trivial, trivial⟩
    | false =>
      rw [quit, Bool.not_false] at watched
      simp only [watched, ↓reduceIte, watcherDestroyedVm, StatsEvent.destroys, Bool.false_or]
      by_cases deleted : event = .deleted
      · subst deleted
        cases path with
        | none => simpa [watched, quit] using timed
        | some path =>
          by_cases socket : basename path = processSocket
          · simpa [socket] using timed
          · simpa [socket, watched, quit] using timed
      · simpa [deleted, watched, quit] using timed

/-- What is printed so far, and whether the loop is told to quit, by the events that there were. -/
theorem foldl_dispatch_spec (events : List StatsEvent) (watched : reporting.monitor = !reporting.quit)
    (timed : (getContainerStats config).isSome = true → reporting.timer = true) :
    let after := events.foldl (Reporting.dispatch config) reporting
    after.quit = (reporting.quit || events.any StatsEvent.destroys) ∧
      after.printed = reporting.printed ++
        (getContainerStats config).toList.flatMap (List.replicate (events.count .tick)) := by
  induction events generalizing reporting with
  | nil => simp
  | cons event rest ih =>
    obtain ⟨watched', timed', quits, prints⟩ := dispatch_spec event watched timed
    obtain ⟨quits', prints'⟩ := ih watched' timed'
    refine ⟨?_, ?_⟩
    · rw [List.foldl_cons, quits', quits, List.any_cons, Bool.or_assoc]
    · rw [List.foldl_cons, prints', prints, List.append_assoc]
      congr 1
      cases getContainerStats config with
      | none => simp
      | some stats =>
        by_cases tick : event = .tick
        · subst tick
          simp [List.replicate_succ]
        · simp [tick]

theorem reported (config : Config) (events : List StatsEvent) :
    let after := events.foldl (Reporting.dispatch config) {}
    after.quit = events.any StatsEvent.destroys ∧
      after.printed = (getContainerStats config).toList.flatMap (List.replicate (events.count .tick)) := by
  have started : ({} : Reporting).monitor = !({} : Reporting).quit := rfl
  exact foldl_dispatch_spec events started fun _ => rfl

theorem iterate_reporting_iff {iterations : List (List StatsEvent)} {after : Reporting} :
    iterate (Reporting.dispatch config) Reporting.quit iterations {} = some after ↔
      ∃ before iteration rest, iterations = before ++ iteration :: rest ∧
        before.flatten.any StatsEvent.destroys = false ∧ iteration.any StatsEvent.destroys = true ∧
        (before.flatten ++ iteration).foldl (Reporting.dispatch config) {} = after := by
  have quits (events : List StatsEvent) :
      (events.foldl (Reporting.dispatch config) {}).quit = events.any StatsEvent.destroys :=
    (reported config events).1
  rw [iterate_eq_some_iff]
  constructor
  · rintro ⟨before, iteration, rest, whole, unquit, quit, same⟩
    have none : before.flatten.any StatsEvent.destroys = false := by
      by_cases some : before = []
      · subst some
        rfl
      · rw [← quits]
        exact unquit before some (List.prefix_refl before)
    refine ⟨before, iteration, rest, whole, none, ?_, same⟩
    rw [← same, quits, List.any_append, none, Bool.false_or] at quit
    exact quit
  · rintro ⟨before, iteration, rest, whole, none, here, same⟩
    refine ⟨before, iteration, rest, whole, fun early _ within => ?_, ?_, same⟩
    · rw [quits, List.any_eq_false]
      obtain ⟨late, rfl⟩ := within
      rw [List.flatten_append, List.any_append, Bool.or_eq_false_iff] at none
      exact List.any_eq_false.mp none.1
    · rw [← same, quits, List.any_append, here, Bool.or_true]

end Loop

/-- For every order of ticks and changes of the directory, `events` returns exactly when the process
socket is deleted, and has then printed the statistics once for each tick if the container was running
when its state was read; otherwise it has printed nothing, and has waited all the same. -/
theorem stats_reported_iff {rootDir : Option String} {id : String} {sys : Sys} {fetched : Fetched}
    (asked : ¬ (id = "--help" ∨ id = "-h")) (got : fetch rootDir id sys = some fetched)
    {options : EventsOptions} (positive : 0 < options.interval) (rest : List String)
    (iterations : List (List StatsEvent)) (result : Bool × List Json) :
    let printing (count : Nat) :=
      if fetched.state.status = .running then List.replicate count (statsJson (some id)) else []
    handlerEvents options {} iterations (id :: rest) ⟨Config.fresh rootDir, sys⟩ = some result ↔
      if options.stats then
        result = (decide (fetched.state.status = .running), printing 1)
      else
        ∃ before iteration later, iterations = before ++ iteration :: later ∧
          before.flatten.any StatsEvent.destroys = false ∧ iteration.any StatsEvent.destroys = true ∧
          result = (true, printing ((before.flatten ++ iteration).count .tick)) := by
  intro printing
  have accepted : handleDefaultUsage (id :: rest) = none := if_neg asked
  have found : getConfigAndState sys.files ((Config.fresh rootDir).setContainerId (some id)) =
    some fetched := got
  have found' : (World.mk (Config.fresh rootDir) sys).fetch id = some fetched := got
  have filled : fetched.config =
      (((Config.fresh rootDir).setContainerId (some id)).placed id).fill fetched.state :=
    (World.fetch_spec found').2.2
  have stats : getContainerStats fetched.config =
      if fetched.state.status = .running then some (statsJson (some id)) else none := by
    have status : fetched.config.state.status = fetched.state.status := by rw [filled]; rfl
    have named : fetched.config.optargContainerId = some id := by
      rw [filled, (Config.fill_placed_names _ id fetched.state).2]
      rfl
    rw [getContainerStats, status, named]
    by_cases running : fetched.state.status = .running
    · rw [if_neg (not_not.mpr running), if_pos running]
    · rw [if_pos running, if_neg running]
  have shown (count : Nat) :
      (getContainerStats fetched.config).toList.flatMap (List.replicate count) = printing count := by
    rw [stats]
    simp only [printing]
    split <;> simp
  have begins : ¬ options.interval ≤ 0 := Int32.not_le.mpr positive
  simp only [handlerEvents, accepted, begins, ↓reduceIte, List.head?_cons, found, showContainerStats]
  cases once : options.stats with
  | true =>
    simp only [↓reduceIte, ne_eq, not_true_eq_false, stats, printing]
    by_cases running : fetched.state.status = .running
    · simp [running, eq_comm]
    · simp [running, eq_comm]
  | false =>
    have nonzero : options.interval ≠ 0 := by
      intro zero
      rw [zero] at positive
      exact absurd positive (by decide)
    simp only [Bool.false_eq_true, ↓reduceIte, ne_eq, nonzero, not_false_eq_true, Bool.not_true,
      Bool.or_self]
    rw [Option.map_eq_some_iff]
    constructor
    · rintro ⟨after, ended, same⟩
      obtain ⟨before, iteration, later, whole, none, here, reached⟩ := iterate_reporting_iff.mp ended
      refine ⟨before, iteration, later, whole, none, here, ?_⟩
      have printed := (reported fetched.config (before.flatten ++ iteration)).2
      rw [reached, shown] at printed
      rw [← same, printed]
    · rintro ⟨before, iteration, later, whole, none, here, same⟩
      refine ⟨_, iterate_reporting_iff.mpr ⟨before, iteration, later, whole, none, here, rfl⟩, ?_⟩
      have printed := (reported fetched.config (before.flatten ++ iteration)).2
      rw [shown] at printed
      rw [printed, same]

-- The socket goes in the second iteration, before the last tick of it.
def ticksUntilGone : List (List StatsEvent) :=
  [[.tick, .changed .deleted (some "/run/c1/state.json"), .tick],
    [.changed .deleted (some "/run/c1/process.sock"), .tick], [.tick]]

theorem running_reported_three_times :
    handlerEvents {} {} ticksUntilGone ["c1"]
        ⟨Config.fresh (some "/run"), (runningWorld [] (bundleFiles [])).sys⟩ =
      some (true, List.replicate 3 (statsJson (some "c1"))) := by
  have fetches : ((fetch (some "/run") "c1" (runningWorld [] (bundleFiles [])).sys).map
      fun fetched => fetched.state.status) = some .running := by decide
  obtain ⟨fetched, got, running⟩ := Option.map_eq_some_iff.mp fetches
  apply (stats_reported_iff (by decide) got (by decide) [] ticksUntilGone _).mpr
  rw [if_neg (by decide)]
  refine ⟨[[.tick, .changed .deleted (some "/run/c1/state.json"), .tick]],
    [.changed .deleted (some "/run/c1/process.sock"), .tick], [[.tick]], rfl, by decide, by decide, ?_⟩
  dsimp only
  rw [if_pos running]
  rfl

end ClrOci
