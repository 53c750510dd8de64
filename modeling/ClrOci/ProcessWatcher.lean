import ClrOci.Foundation.Runs
import ClrOci.Foundation.Steps
import ClrOci.Oci

/-! How a start that waits learns that the hypervisor is gone.

The main loop calls back when a file of the runtime directory changes, and when the
process socket hangs up. The hypervisor makes the socket and may end at any time.
-/

set_option autoImplicit false

namespace ClrOci

open Foundation

/-- `GFileMonitorEvent`. -/
inductive MonitorEvent where
  | changed | changesDoneHint | deleted | created | attributeChanged | preUnmount | unmounted
  | moved | renamed | movedIn | movedOut
  deriving DecidableEq

inductive Vm where
  | booting | listening | exited
  deriving DecidableEq

structure Connection where
  socket : Bool
  address : Bool
  connects : Bool
  channel : Bool
  deriving DecidableEq

def Connection.complete (connection : Connection) : Bool :=
  connection.socket && connection.address && connection.connects && connection.channel

/-- `struct process_watcher_data`, each pointer by whether it is set, and the main loop with its sources. -/
structure Watcher where
  config : Config
  vm : Vm := .booting
  loop : Bool := true
  socket : Bool := false
  srcAddress : Bool := false
  channel : Bool := false
  failed : Bool := false
  monitor : Bool := true
  hangUpWatch : Bool := false
  quit : Bool := false
  -- The creation of the process socket has been handled.
  handled : Bool := false

namespace Watcher

/-- `handle_process_socket`: every failure past the checks drops the loop. -/
def handleProcessSocket (watcher : Watcher) (connection : Connection) : Bool × Watcher :=
  if !watcher.loop then (false, watcher)
  else if !watcher.config.state.procsockPath.isSet then (false, watcher)
  else if !connection.socket then (false, { watcher with loop := false })
  else
    let watcher := { watcher with socket := true }
    if !connection.address then (false, { watcher with loop := false })
    else
      let watcher := { watcher with srcAddress := true }
      -- Nobody accepts the connection once the hypervisor is gone.
      if !(watcher.vm = .listening && connection.connects) then (false, { watcher with loop := false })
      else if !connection.channel then (false, { watcher with loop := false })
      else (true, { watcher with channel := true, hangUpWatch := true })

def isCreation (event : MonitorEvent) (path : Option String) : Bool :=
  event = .changesDoneHint && path.any fun path => basename path = processSocket

def unmonitored (watcher : Watcher) : Watcher := { watcher with monitor := false, handled := true }

/-- `watcher_runtime_dir`. -/
def watcherRuntimeDir (watcher : Watcher) (event : MonitorEvent) (path : Option String)
    (connection : Connection) : Watcher :=
  if !isCreation event path then watcher
  else
    let connected := handleProcessSocket watcher.unmonitored connection
    if connected.1 then connected.2 else { connected.2 with failed := true }

/-- `handle_socket_close`; the watch is gone after it. -/
def handleSocketClose (watcher : Watcher) : Watcher :=
  { watcher with quit := true, hangUpWatch := false }

inductive Happening where
  | listens
  | exits
  | changed (event : MonitorEvent) (path : Option String) (connection : Connection)
  | hangsUp

def step (watcher : Watcher) : Happening → Watcher
  | .listens => if watcher.vm = .booting then { watcher with vm := .listening } else watcher
  | .exits => { watcher with vm := .exited }
  | .changed event path connection =>
    if watcher.monitor then watcher.watcherRuntimeDir event path connection else watcher
  | .hangsUp => if watcher.hangUpWatch then watcher.handleSocketClose else watcher

/-- Once the creation of the socket is handled there is a way to end the loop, or it has ended. -/
def Attended (watcher : Watcher) : Prop :=
  watcher.handled = true → watcher.hangUpWatch = true ∨ watcher.quit = true

instance (watcher : Watcher) : Decidable watcher.Attended := inferInstanceAs (Decidable (_ → _))

def Ready (watcher : Watcher) (connection : Connection) : Prop :=
  watcher.config.state.procsockPath.isSet = true ∧ watcher.vm = .listening ∧ connection.complete = true

/-- When the creation of the socket is handled, it can be connected to. -/
def Connects (watcher : Watcher) : Happening → Prop
  | .changed event path connection =>
    watcher.monitor = true → isCreation event path = true → watcher.Ready connection
  | _ => True

structure Sound (watcher : Watcher) : Prop where
  fresh : watcher.monitor = true →
    watcher.loop = true ∧ watcher.handled = false ∧ watcher.hangUpWatch = false ∧ watcher.quit = false
  asserted : watcher.hangUpWatch = true → watcher.loop = true

section Steps
variable (watcher : Watcher) {connection : Connection} {event : MonitorEvent} {path : Option String}

theorem handleProcessSocket_of_ready (loop : watcher.loop = true) (ready : watcher.Ready connection) :
    watcher.handleProcessSocket connection =
      (true, { watcher with socket := true, srcAddress := true, channel := true, hangUpWatch := true }) := by
  obtain ⟨set, listening, complete⟩ := ready
  simp only [Connection.complete, Bool.and_eq_true] at complete
  simp [handleProcessSocket, loop, set, listening, complete]

structure Unchanged (before after : Watcher) : Prop where
  hangUpWatch : after.hangUpWatch = before.hangUpWatch
  quit : after.quit = before.quit
  handled : after.handled = before.handled
  monitor : after.monitor = before.monitor

theorem handleProcessSocket_of_failure (failure : ¬ watcher.Ready connection) :
    (watcher.handleProcessSocket connection).1 = false ∧
      watcher.Unchanged (watcher.handleProcessSocket connection).2 := by
  unfold handleProcessSocket
  cases watcher.loop with
  | false => exact ⟨rfl, rfl, rfl, rfl, rfl⟩
  | true =>
    cases set : watcher.config.state.procsockPath.isSet with
    | false => exact ⟨rfl, rfl, rfl, rfl, rfl⟩
    | true =>
      obtain ⟨socket, address, connects, channel⟩ := connection
      cases socket with
      | false => exact ⟨rfl, rfl, rfl, rfl, rfl⟩
      | true =>
        cases address with
        | false => exact ⟨rfl, rfl, rfl, rfl, rfl⟩
        | true =>
          cases connects with
          | false =>
            simp only [Bool.and_false]
            exact ⟨rfl, rfl, rfl, rfl, rfl⟩
          | true =>
            cases channel with
            | false =>
              simp only [Bool.not_false, ↓reduceIte, ite_self]
              split <;> exact ⟨rfl, rfl, rfl, rfl, rfl⟩
            | true =>
              have gone : watcher.vm ≠ .listening := fun listening => failure ⟨set, listening, rfl⟩
              simp only [gone]
              exact ⟨rfl, rfl, rfl, rfl, rfl⟩

theorem watcherRuntimeDir_of_other (other : isCreation event path = false) :
    watcher.watcherRuntimeDir event path connection = watcher := by
  simp only [watcherRuntimeDir, other, Bool.not_false, ↓reduceIte]

theorem watcherRuntimeDir_of_ready (creation : isCreation event path = true) (loop : watcher.loop = true)
    (ready : watcher.Ready connection) :
    watcher.watcherRuntimeDir event path connection =
      { watcher.unmonitored with
        socket := true, srcAddress := true, channel := true, hangUpWatch := true } := by
  unfold watcherRuntimeDir
  rw [creation, handleProcessSocket_of_ready watcher.unmonitored loop ready]
  rfl

theorem watcherRuntimeDir_of_failure (creation : isCreation event path = true)
    (failure : ¬ watcher.Ready connection) :
    watcher.unmonitored.Unchanged (watcher.watcherRuntimeDir event path connection) := by
  have result := handleProcessSocket_of_failure watcher.unmonitored failure
  unfold watcherRuntimeDir
  generalize watcher.unmonitored.handleProcessSocket connection = connected at result ⊢
  obtain ⟨ok, after⟩ := connected
  obtain ⟨failed, unchanged⟩ := result
  cases failed
  rw [creation]
  exact ⟨unchanged.hangUpWatch, unchanged.quit, unchanged.handled, unchanged.monitor⟩

variable {watcher}

theorem Sound.step (sound : watcher.Sound) (happening : Happening) : (watcher.step happening).Sound := by
  cases happening with
  | listens =>
    simp only [Watcher.step]
    split
    · exact ⟨sound.fresh, sound.asserted⟩
    · exact sound
  | exits => exact ⟨sound.fresh, sound.asserted⟩
  | hangsUp =>
    simp only [Watcher.step]
    split
    · next watched =>
      refine ⟨fun monitored => ?_, nofun⟩
      rw [(sound.fresh monitored).2.2.1] at watched
      cases watched
    · exact sound
  | changed event path connection =>
    simp only [Watcher.step]
    split
    · next monitored =>
      obtain ⟨loop, _, unwatched, _⟩ := sound.fresh monitored
      cases creation : isCreation event path with
      | false =>
        rw [watcherRuntimeDir_of_other watcher creation]
        exact sound
      | true =>
        by_cases ready : watcher.Ready connection
        · rw [watcherRuntimeDir_of_ready watcher creation loop ready]
          exact ⟨nofun, fun _ => loop⟩
        · have unchanged := watcherRuntimeDir_of_failure watcher creation ready
          refine ⟨fun monitored => ?_, fun watched => ?_⟩
          · rw [unchanged.monitor] at monitored
            cases monitored
          · rw [unchanged.hangUpWatch] at watched
            exact absurd (watched.symm.trans unwatched) (by decide)
    · exact sound

/-- A step leaves a way to end the loop exactly if a creation that it handles is connected to. -/
theorem attended_step_iff (happening : Happening) (sound : watcher.Sound) (attended : watcher.Attended) :
    (watcher.step happening).Attended ↔ watcher.Connects happening := by
  cases happening with
  | listens =>
    simp only [Watcher.step]
    split
    · exact iff_of_true attended trivial
    · exact iff_of_true attended trivial
  | exits => exact iff_of_true attended trivial
  | hangsUp =>
    simp only [Watcher.step]
    split
    · exact iff_of_true (fun _ => Or.inr rfl) trivial
    · exact iff_of_true attended trivial
  | changed event path connection =>
    simp only [Watcher.step]
    split
    · next monitored =>
      obtain ⟨loop, _, unwatched, running⟩ := sound.fresh monitored
      cases creation : isCreation event path with
      | false =>
        rw [watcherRuntimeDir_of_other watcher creation]
        exact iff_of_true attended fun _ handled => absurd (creation.symm.trans handled) (by decide)
      | true =>
        by_cases ready : watcher.Ready connection
        · rw [watcherRuntimeDir_of_ready watcher creation loop ready]
          exact iff_of_true (fun _ => Or.inl rfl) fun _ _ => ready
        · have unchanged := watcherRuntimeDir_of_failure watcher creation ready
          refine iff_of_false (fun ends => ?_) fun connects => ready (connects monitored creation)
          rcases ends unchanged.handled with watched | quit
          · exact absurd ((unchanged.hangUpWatch.symm.trans watched).symm.trans unwatched) (by decide)
          · exact absurd ((unchanged.quit.symm.trans quit).symm.trans running) (by decide)
    · next unmonitored => exact iff_of_true attended fun monitored => absurd monitored unmonitored

end Steps

/-- The main loop when it begins to run, with the monitor in place. -/
def waiting (config : Config) : Watcher := { config := config }

theorem waiting_sound (config : Config) : (waiting config).Sound :=
  ⟨fun _ => ⟨rfl, rfl, rfl, rfl⟩, nofun⟩

structure Deaf (watcher : Watcher) : Prop where
  monitor : watcher.monitor = false
  hangUpWatch : watcher.hangUpWatch = false
  quit : watcher.quit = false

theorem Deaf.step {watcher : Watcher} (deaf : watcher.Deaf) (happening : Happening) :
    (watcher.step happening).Deaf := by
  cases happening with
  | listens =>
    simp only [Watcher.step]
    split
    · exact ⟨deaf.monitor, deaf.hangUpWatch, deaf.quit⟩
    · exact deaf
  | exits => exact ⟨deaf.monitor, deaf.hangUpWatch, deaf.quit⟩
  | changed event path connection =>
    simp only [Watcher.step, deaf.monitor, Bool.false_eq_true, ↓reduceIte]
    exact deaf
  | hangsUp =>
    simp only [Watcher.step, deaf.hangUpWatch, Bool.false_eq_true, ↓reduceIte]
    exact deaf

theorem Deaf.forever {watcher : Watcher} (deaf : watcher.Deaf) (happenings : List Happening) :
    (happenings.foldl Watcher.step watcher).quit = false := by
  have kept : ∀ watcher happening, Deaf watcher → (watcher.step happening).Deaf :=
    fun _ happening deaf => deaf.step happening
  exact (foldl_kept kept happenings deaf).quit

def socketPath : String := "/run/c1/process.sock"

def socketConfig : Config := { state := { procsockPath := Buffer.copy _ socketPath } }

-- The hypervisor ends between making the socket and the connection to it.
def goneEarly : List Happening :=
  [.listens, .exits, .changed .changesDoneHint (some socketPath) ⟨true, true, true, true⟩]

end Watcher

end ClrOci
