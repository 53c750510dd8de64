import ClrOci.Attach
import ClrOci.Footprint
import ClrOci.Foundation.MainLoop
import Mathlib.Data.List.Induction

/-! A session at the console of a container.

The main loop watches the terminal and the socket of the console. Each line that is read from the
terminal gets a watch of its own, which writes it to the socket once there is room; the loop calls
these watches in the order in which they were added. A watch holds a reference of its channel; with
the last reference the channel is freed.
-/

set_option autoImplicit false

namespace ClrOci

open Foundation

/-- Which of the calls succeed that `clr_oci_attach` begins with. -/
structure AttachCalls where
  loop : Bool := true
  socket : Bool := true
  address : Bool := true
  connects : Bool := true
  socketIo : Bool := true
  stdIn : Bool := true

/-- What the main loop calls back: the watch on the terminal with the line it reads, the watch on what
the console prints, or the oldest watch that waits for room. The first two look whether the VM runs. -/
inductive AttachEvent where
  | stdin (condition : IoCondition) (line : Option (List UInt8)) (running : Bool)
  | console (condition : IoCondition) (chunks : List Chunk) (frame : Frame) (running : Bool)
  | room (condition : IoCondition) (results : (length : Nat) → List (WriteResult length))

/-- The watches of a session, with the lines that wait for room; what was read from the terminal and
from the socket, and what was written to them. A write may never end. The references are those of the
channel of the socket: of the session itself, of the watch on the console and of each line. -/
structure AttachSession where
  stdin : Bool := true
  console : Bool := true
  waiting : List (List UInt8) := []
  typed : List (List UInt8) := []
  sent : List UInt8 := []
  received : List Chunk := []
  printed : Option (List UInt8) := some []
  references : Nat := 2
  stuck : Bool := false
  quit : Bool := false
  -- The channel was used after it had been freed.
  undefined : Bool := false

-- `g_io_channel_unref` of the socket, so many times.
def AttachSession.unref (session : AttachSession) (count : Nat) : AttachSession :=
  { session with
    references := session.references - count
    undefined := session.undefined || session.references < count }

def AttachSession.checked (session : AttachSession) : AttachSession :=
  { session with undefined := session.undefined ||
      session.references = 0 && (session.console || !session.waiting.isEmpty) }

/-- `watcher_stdin`. -/
def watcherStdin (condition : IoCondition) (line : Option (List UInt8)) (running : Bool)
    (session : AttachSession) : AttachSession :=
  let session :=
    if condition = .onlyHup then { session with stdin := false }
    else
      match line with
      | none => session
      | some line => { session with
          waiting := session.waiting ++ [line]
          typed := session.typed ++ [line]
          references := session.references + 1
          undefined := session.undefined || session.references = 0 }
  if !running then { session with stdin := false, quit := true } else session

-- `watcher_socket_stdout`, in a session.
def AttachSession.showOutput (printer : Printer) (condition : IoCondition) (chunks : List Chunk)
    (frame : Frame) (running : Bool) (session : AttachSession) : AttachSession :=
  let watched := watcherSocketStdout printer condition running true frame chunks
  let shown : AttachSession := { session with
    received := if condition = .onlyHup then session.received else session.received ++ chunks
    printed := session.printed.bind fun front => watched.printed.map (front ++ ·)
    console := watched.stays
    quit := session.quit || watched.quits }
  shown.unref ((if condition = .onlyHup then 1 else 0) + if watched.stays then 0 else 1)

-- `watcher_socket_stdin`, of the oldest watch for room.
def AttachSession.passLine (condition : IoCondition)
    (results : (length : Nat) → List (WriteResult length)) (session : AttachSession) : AttachSession :=
  match session.waiting with
  | [] => session
  | line :: rest =>
    match watcherSocketStdin condition line (results line.length) with
    | none => { session with stuck := true }
    | some positions =>
      let passed : AttachSession := { session with waiting := rest, sent := session.sent ++ positions.map line.get }
      passed.unref (if condition = .onlyHup then 2 else 1)

def AttachSession.dispatch (printer : Printer) (session : AttachSession) (event : AttachEvent) :
    AttachSession :=
  if session.stuck || session.undefined then session
  else
    match event with
    | .stdin condition line running =>
      if session.stdin then (watcherStdin condition line running session).checked else session
    | .console condition chunks frame running =>
      if session.console then (session.showOutput printer condition chunks frame running).checked
      else session
    -- The reference that the watch for room has taken is given up with it.
    | .room condition results => (session.passLine condition results).checked

inductive AttachEnd where
  | undefined
  | returned (ret : Bool) (session : AttachSession)

/-- `clr_oci_attach`; it may never return. In the end the channel of the socket is shut down. -/
def clrOciAttach (printer : Printer) (calls : AttachCalls) (iterations : List (List AttachEvent)) :
    Option AttachEnd :=
  if !calls.loop || !calls.socket || !calls.address || !calls.connects || !calls.socketIo || !calls.stdIn then
    some (.returned false {})
  else
    (iterate (AttachSession.dispatch printer)
        (fun session => session.undefined || session.quit && !session.stuck) iterations {}).map
      fun after => if after.undefined || after.references = 0 then .undefined else .returned true after

/-- `handler_attach`. -/
def handlerAttach (printer : Printer) (calls : AttachCalls) (iterations : List (List AttachEvent))
    (argv : List String) (world : World) : Option AttachEnd :=
  match handleDefaultUsage argv with
  | some ret => some (.returned ret {})
  | none =>
    match getConfigAndState world.sys.files (world.config.setContainerId argv.head?) with
    | none => some (.returned false {})
    | some _ => clrOciAttach printer calls iterations

inductive Stream where
  | stdin | console
  deriving DecidableEq

namespace AttachEvent

def stream? : AttachEvent → Option Stream
  | .stdin .. => some .stdin
  | .console .. => some .console
  | .room .. => none

def hangsUp : AttachEvent → Bool
  | .stdin condition _ _ | .console condition _ _ _ | .room condition _ => condition = .onlyHup

def running : AttachEvent → Bool
  | .stdin _ _ running | .console _ _ _ running => running
  | .room .. => true

def Settles : AttachEvent → Prop
  | .room _ results => ∀ length, Ends (results length)
  | _ => True

def Whole : AttachEvent → Prop
  | .room condition results => condition ≠ .onlyHup ∧ ∀ length, (results length).head? = some .full
  | _ => True

def Connected : AttachEvent → Prop
  | .console condition _ _ _ | .room condition _ => condition ≠ .onlyHup
  | .stdin .. => True

def Plain (printer : Printer) : AttachEvent → Prop
  | .console _ chunks _ _ => ∀ chunk ∈ chunks, PlainChunk printer chunk
  | _ => True

end AttachEvent

/-- A callback of a stream that has not hung up before finds that the VM is gone. -/
def Notices (events : List AttachEvent) : Prop :=
  ∃ stream front event rest, events = front ++ event :: rest ∧ event.stream? = some stream ∧
    event.running = false ∧ ∀ early ∈ front, early.stream? = some stream → early.hangsUp = false

theorem notices_concat (events : List AttachEvent) (event : AttachEvent) :
    Notices (events ++ [event]) ↔ Notices events ∨ ∃ stream, event.stream? = some stream ∧
      event.running = false ∧ ∀ early ∈ events, early.stream? = some stream → early.hangsUp = false := by
  constructor
  · rintro ⟨stream, front, found, rest, whole, named, gone, before⟩
    rcases List.eq_nil_or_concat rest with none | ⟨middle, last, some⟩
    · subst none
      obtain ⟨rfl, same⟩ := List.append_inj' whole rfl
      cases same
      exact Or.inr ⟨stream, named, gone, before⟩
    · rw [some, List.concat_eq_append, ← List.cons_append, ← List.append_assoc] at whole
      obtain ⟨rfl, _⟩ := List.append_inj' whole rfl
      exact Or.inl ⟨stream, front, found, middle, rfl, named, gone, before⟩
  · rintro (⟨stream, front, found, rest, rfl, named, gone, before⟩ | ⟨stream, named, gone, before⟩)
    · exact ⟨stream, front, found, rest ++ [event], by simp, named, gone, before⟩
    · exact ⟨stream, events, event, [], rfl, named, gone, before⟩

theorem Notices.append {events : List AttachEvent} (noticed : Notices events) (more : List AttachEvent) :
    Notices (events ++ more) := by
  obtain ⟨stream, front, found, rest, rfl, named, gone, before⟩ := noticed
  exact ⟨stream, front, found, rest ++ more, by simp, named, gone, before⟩

namespace AttachSession

def watches (session : AttachSession) : Stream → Bool
  | .stdin => session.stdin
  | .console => session.console

section Step
variable {session : AttachSession} {event : AttachEvent}

theorem passLine_settled (condition : IoCondition) {results : (length : Nat) → List (WriteResult length)}
    (settles : ∀ length, Ends (results length)) (unstuck : session.stuck = false) :
    let after := session.passLine condition results
    after.stuck = false ∧ after.stdin = session.stdin ∧ after.console = session.console ∧
      after.quit = session.quit := by
  cases waits : session.waiting with
  | nil => simp [passLine, waits, unstuck]
  | cons line rest =>
    have ends : (watcherSocketStdin condition line (results line.length)).isSome = true := by
      rw [watcherSocketStdin]
      split
      · rfl
      · exact (writeLoop_isSome_iff _).mpr (settles _)
    obtain ⟨positions, passed⟩ := Option.isSome_iff_exists.mp ends
    simp [passLine, waits, passed, unstuck, unref]

theorem watcherStdin_spec (session : AttachSession) (condition : IoCondition)
    (line : Option (List UInt8)) (running : Bool) :
    let after := watcherStdin condition line running session
    after.stdin = (session.stdin && condition ≠ .onlyHup && running) ∧ after.console = session.console ∧
      after.quit = (session.quit || !running) ∧ after.stuck = session.stuck := by
  by_cases hangs : condition = .onlyHup
  · cases running <;> simp [watcherStdin, hangs]
  · cases line <;> cases running <;> simp [watcherStdin, hangs]

theorem showOutput_spec (printer : Printer) (session : AttachSession) (condition : IoCondition)
    (chunks : List Chunk) (frame : Frame) (running : Bool) :
    let after := session.showOutput printer condition chunks frame running
    after.stdin = session.stdin ∧ after.console = (decide (condition ≠ .onlyHup) && running) ∧
      after.quit = (session.quit || !running) ∧ after.stuck = session.stuck := by
  cases running <;> simp [showOutput, watcherSocketStdout, unref]

structure Counted (session : AttachSession) : Prop where
  defined : session.undefined = false
  count : session.references = 1 + (if session.console then 1 else 0) + session.waiting.length

theorem Counted.checked {session : AttachSession} (counted : session.Counted) : session.checked = session := by
  have held : session.references ≠ 0 := by
    have count := counted.count
    omega
  simp [AttachSession.checked, held]

theorem watcherStdin_counted (counted : session.Counted) (condition : IoCondition) (line : Option (List UInt8))
    (running : Bool) : (watcherStdin condition line running session).Counted := by
  have count := counted.count
  have defined := counted.defined
  by_cases hangs : condition = .onlyHup
  · cases running <;> exact ⟨by simpa [watcherStdin, hangs] using defined,
      by simpa [watcherStdin, hangs] using count⟩
  · cases line with
    | none =>
      cases running <;> exact ⟨by simpa [watcherStdin, hangs] using defined,
        by simpa [watcherStdin, hangs] using count⟩
    | some line =>
      have held : session.references ≠ 0 := by omega
      cases running <;> exact ⟨by simp [watcherStdin, hangs, defined, held],
        by simp [watcherStdin, hangs, count]; omega⟩

theorem showOutput_counted (printer : Printer) (counted : session.Counted) (watched : session.console = true)
    {condition : IoCondition} (connected : condition ≠ .onlyHup) (chunks : List Chunk) (frame : Frame)
    (running : Bool) : (session.showOutput printer condition chunks frame running).Counted := by
  have count := counted.count
  have defined := counted.defined
  rw [if_pos watched] at count
  cases running with
  | true => exact ⟨by simp [showOutput, watcherSocketStdout, unref, connected, defined],
      by simp [showOutput, watcherSocketStdout, unref, connected, count]⟩
  | false => exact ⟨by simp [showOutput, watcherSocketStdout, unref, connected, defined]; omega,
      by simp [showOutput, watcherSocketStdout, unref, connected]; omega⟩

theorem passLine_counted (counted : session.Counted) {condition : IoCondition}
    (connected : condition ≠ .onlyHup) (results : (length : Nat) → List (WriteResult length)) :
    (session.passLine condition results).Counted := by
  have count := counted.count
  have defined := counted.defined
  unfold passLine
  split
  · exact counted
  · next line rest waits =>
    rw [waits, List.length_cons] at count
    split
    · exact ⟨defined, by simp only [waits, List.length_cons]; exact count⟩
    · exact ⟨by simp [unref, connected, defined]; omega, by simp [unref, connected]; omega⟩

/-- As long as the socket does not hang up, no reference is given up that is still needed. -/
theorem dispatch_counted (printer : Printer) (counted : session.Counted) (connected : event.Connected) :
    (session.dispatch printer event).Counted := by
  unfold dispatch
  split
  · exact counted
  · cases event with
    | stdin condition line running =>
      have kept := watcherStdin_counted counted condition line running
      dsimp only
      split
      · rw [kept.checked]
        exact kept
      · exact counted
    | console condition chunks frame running =>
      dsimp only
      split
      · next watched =>
        have kept := showOutput_counted printer counted watched connected chunks frame running
        rw [kept.checked]
        exact kept
      · exact counted
    | room condition results =>
      have kept := passLine_counted counted connected results
      dsimp only
      rw [kept.checked]
      exact kept

theorem dispatch_spec (printer : Printer) (counted : session.Counted) (unstuck : session.stuck = false)
    (settles : event.Settles) :
    let after := session.dispatch printer event
    after.stuck = false ∧
      (∀ stream, after.watches stream =
        (session.watches stream && !(event.stream? == some stream && (event.hangsUp || !event.running)))) ∧
      after.quit = (session.quit || event.stream?.any session.watches && !event.running) := by
  have defined := counted.defined
  cases event with
  | stdin condition line running =>
    obtain ⟨stdin, console, quit, stuck⟩ := watcherStdin_spec session condition line running
    cases watched : session.stdin with
    | false =>
      refine ⟨by simp [dispatch, unstuck, defined, watched], fun stream => ?_, ?_⟩
      · cases stream <;> simp [dispatch, unstuck, defined, watched, watches, AttachEvent.stream?]
      · simp [dispatch, unstuck, defined, watched, watches, AttachEvent.stream?]
    | true =>
      simp only [dispatch, unstuck, defined, watched, Bool.or_self, Bool.false_eq_true, ↓reduceIte, checked]
      refine ⟨stuck.trans unstuck, fun stream => ?_, ?_⟩
      · cases stream with
        | stdin => simp [watches, stdin, watched, AttachEvent.stream?, AttachEvent.hangsUp, AttachEvent.running]
        | console => simp [watches, console, AttachEvent.stream?]
      · simp [quit, watches, watched, AttachEvent.stream?, AttachEvent.running]
  | console condition chunks frame running =>
    obtain ⟨stdin, console, quit, stuck⟩ :=
      showOutput_spec printer session condition chunks frame running
    cases watched : session.console with
    | false =>
      refine ⟨by simp [dispatch, unstuck, defined, watched], fun stream => ?_, ?_⟩
      · cases stream <;> simp [dispatch, unstuck, defined, watched, watches, AttachEvent.stream?]
      · simp [dispatch, unstuck, defined, watched, watches, AttachEvent.stream?]
    | true =>
      simp only [dispatch, unstuck, defined, watched, Bool.or_self, Bool.false_eq_true, ↓reduceIte, checked]
      refine ⟨stuck.trans unstuck, fun stream => ?_, ?_⟩
      · cases stream with
        | stdin => simp [watches, stdin, AttachEvent.stream?]
        | console =>
          simp [watches, console, watched, AttachEvent.stream?, AttachEvent.hangsUp, AttachEvent.running]
      · simp [quit, watches, watched, AttachEvent.stream?, AttachEvent.running]
  | room condition results =>
    obtain ⟨stuck, stdin, console, quit⟩ := passLine_settled condition settles unstuck
    simp only [dispatch, unstuck, defined, Bool.or_self, Bool.false_eq_true, ↓reduceIte, checked]
    refine ⟨stuck, fun stream => ?_, ?_⟩
    · cases stream with
      | stdin => simp [watches, stdin, AttachEvent.stream?]
      | console => simp [watches, console, AttachEvent.stream?]
    · simp [quit, AttachEvent.stream?]

/-- After some callbacks the loop is told to quit exactly if one of them has noticed that the VM is
gone, and up to then a stream is watched as long as it has not hung up. -/
structure After (events : List AttachEvent) (session : AttachSession) : Prop extends Counted session where
  unstuck : session.stuck = false
  quit : session.quit = true ↔ Notices events
  watches : ¬ Notices events → ∀ stream, session.watches stream = true ↔
    ∀ early ∈ events, early.stream? = some stream → early.hangsUp = false

theorem After.nil : After [] {} where
  toCounted := ⟨rfl, rfl⟩
  unstuck := rfl
  quit := by
    refine ⟨fun quit => absurd quit Bool.false_ne_true, ?_⟩
    rintro ⟨_, front, _, _, whole, _⟩
    exact absurd whole.symm (List.append_ne_nil_of_right_ne_nil front (List.cons_ne_nil _ _))
  watches _ stream := by cases stream <;> simp [AttachSession.watches]

theorem After.step (printer : Printer) {events : List AttachEvent} (before : session.After events)
    (settles : event.Settles) (connected : event.Connected) :
    (session.dispatch printer event).After (events ++ [event]) := by
  have counted := dispatch_counted printer before.toCounted connected
  obtain ⟨unstuck, watches, quit⟩ := dispatch_spec printer before.toCounted before.unstuck settles
  by_cases noticed : Notices events
  · have quits := before.quit.mpr noticed
    have still : Notices (events ++ [event]) := (notices_concat events event).mpr (Or.inl noticed)
    refine ⟨counted, unstuck, iff_of_true ?_ still, fun unnoticed => absurd still unnoticed⟩
    rw [quit, quits, Bool.true_or]
  · have running : session.quit = false := by
      rw [← Bool.not_eq_true, before.quit]
      exact noticed
    have watched := before.watches noticed
    refine ⟨counted, unstuck, ?_, fun unnoticed stream => ?_⟩
    · rw [quit, running, Bool.false_or, notices_concat, or_iff_right noticed]
      cases named : event.stream? with
      | none => simp
      | some stream =>
        rw [Option.any_some, Bool.and_eq_true, watched stream, Bool.not_eq_true']
        constructor
        · exact fun ⟨unhung, gone⟩ => ⟨stream, rfl, gone, unhung⟩
        · rintro ⟨_, same, gone, unhung⟩
          cases same
          exact ⟨unhung, gone⟩
    · rw [watches, Bool.and_eq_true, watched stream, Bool.not_eq_true', Bool.and_eq_false_iff]
      simp only [List.mem_append, List.mem_singleton]
      constructor
      · rintro ⟨unhung, kept⟩ early (member | same) named
        · exact unhung early member named
        · subst same
          have still : early.hangsUp = false ∧ early.running = true := by simpa [named] using kept
          exact still.1
      · intro unhung
        have first : ∀ early ∈ events, early.stream? = some stream → early.hangsUp = false :=
          fun early member => unhung early (Or.inl member)
        refine ⟨first, ?_⟩
        by_cases named : event.stream? = some stream
        · -- The stream is watched, so the callback has found the VM running.
          have runs : event.running = true := by
            by_contra gone
            rw [Bool.not_eq_true] at gone
            exact unnoticed ((notices_concat events event).mpr (Or.inr ⟨stream, named, gone, first⟩))
          exact Or.inr (by simp [unhung event (Or.inr rfl) named, runs])
        · exact Or.inl (by simpa using named)

theorem after_foldl (printer : Printer) (events : List AttachEvent)
    (settle : ∀ event ∈ events, event.Settles) (connected : ∀ event ∈ events, event.Connected) :
    (events.foldl (dispatch printer) {}).After events := by
  induction events using List.reverseRecOn with
  | nil => exact After.nil
  | append_singleton events event ih =>
    have before := ih (fun early member => settle early (List.mem_append_left [event] member))
      fun early member => connected early (List.mem_append_left [event] member)
    rw [List.foldl_append, List.foldl_cons, List.foldl_nil]
    exact before.step printer (settle event (by simp)) (connected event (by simp))

def Delivers (session : AttachSession) : Prop :=
  ∃ delivered, session.typed = delivered ++ session.waiting ∧ session.sent = delivered.flatten

/-- The watch on the terminal adds what it reads to the lines that wait, and leaves the rest alone. -/
theorem watcherStdin_lines (session : AttachSession) (condition : IoCondition)
    (line : Option (List UInt8)) (running : Bool) :
    let after := watcherStdin condition line running session
    (∃ lines, after.typed = session.typed ++ lines ∧ after.waiting = session.waiting ++ lines) ∧
      after.sent = session.sent ∧ after.received = session.received ∧ after.printed = session.printed := by
  by_cases hangs : condition = .onlyHup
  · refine ⟨⟨[], ?_⟩, ?_⟩ <;> cases running <;> simp [watcherStdin, hangs]
  · refine ⟨⟨line.toList, ?_⟩, ?_⟩ <;> cases line <;> cases running <;> simp [watcherStdin, hangs]

theorem checked_eq (session : AttachSession) :
    session.checked.waiting = session.waiting ∧ session.checked.typed = session.typed ∧
      session.checked.sent = session.sent ∧ session.checked.received = session.received ∧
      session.checked.printed = session.printed := ⟨rfl, rfl, rfl, rfl, rfl⟩

theorem dispatch_delivers (printer : Printer) (delivers : session.Delivers) (whole : event.Whole) :
    (session.dispatch printer event).Delivers := by
  cases halted : session.stuck || session.undefined with
  | true => rwa [dispatch.eq_def, if_pos halted]
  | false =>
    rw [dispatch.eq_def, if_neg (by simp [halted])]
    obtain ⟨delivered, typed, sent⟩ := delivers
    cases event with
    | stdin condition line running =>
      dsimp only
      split
      · obtain ⟨⟨lines, typed', waiting'⟩, sent', _⟩ :=
          watcherStdin_lines session condition line running
        refine ⟨delivered, ?_, sent'.trans sent⟩
        rw [(checked_eq _).1, (checked_eq _).2.1, typed', waiting', typed, List.append_assoc]
      · exact ⟨delivered, typed, sent⟩
    | console condition chunks frame running =>
      dsimp only
      split
      · exact ⟨delivered, typed, sent⟩
      · exact ⟨delivered, typed, sent⟩
    | room condition results =>
      obtain ⟨there, first⟩ := whole
      cases waits : session.waiting with
      | nil =>
        rw [waits] at typed
        exact ⟨delivered, by simp [passLine, checked, waits, typed], by simp [passLine, checked, waits, sent]⟩
      | cons line rest =>
        have passed : watcherSocketStdin condition line (results line.length) =
            some (List.finRange line.length) := by
          obtain ⟨more, full⟩ := List.head?_eq_some_iff.mp (first line.length)
          rw [watcherSocketStdin, if_neg there, full, WriteResult.full, writeLoop, if_pos (Fin.val_last _),
            firstPositions_full (Fin.val_last _)]
        have text : (List.finRange line.length).map line.get = line := List.map_get_finRange line
        rw [waits] at typed
        refine ⟨delivered ++ [line], ?_, ?_⟩
        · simp [passLine, checked, unref, waits, passed, typed]
        · simp only [passLine, checked, unref, waits, passed, text, sent, List.flatten_append,
            List.flatten_cons, List.flatten_nil, List.append_nil]

def Prints (session : AttachSession) : Prop :=
  session.printed = some (session.received.flatMap Chunk.bytes)

theorem passLine_output {condition : IoCondition} {results : (length : Nat) → List (WriteResult length)} :
    (session.passLine condition results).received = session.received ∧
      (session.passLine condition results).printed = session.printed := by
  rw [passLine]
  split
  · exact ⟨rfl, rfl⟩
  · split
    · exact ⟨rfl, rfl⟩
    · exact ⟨rfl, rfl⟩

theorem dispatch_prints {printer : Printer} (prints : session.Prints) (plain : event.Plain printer) :
    (session.dispatch printer event).Prints := by
  cases halted : session.stuck || session.undefined with
  | true => rwa [dispatch.eq_def, if_pos halted]
  | false =>
    rw [dispatch.eq_def, if_neg (by simp [halted])]
    cases event with
    | stdin condition line running =>
      dsimp only
      split
      · obtain ⟨_, _, received, printed⟩ :=
          watcherStdin_lines session condition line running
        rw [Prints, (checked_eq _).2.2.2.1, (checked_eq _).2.2.2.2, received, printed]
        exact prints
      · exact prints
    | console condition chunks frame running =>
      dsimp only
      split
      · rw [Prints] at prints
        by_cases hangs : condition = .onlyHup
        · cases running <;> simp [Prints, checked, unref, showOutput, watcherSocketStdout, hangs, prints]
        · have shown : printChunks printer frame chunks = some (chunks.flatMap Chunk.bytes) :=
            printChunks_plain plain
          cases running <;>
            simp [Prints, checked, unref, showOutput, watcherSocketStdout, hangs, prints, shown]
      · exact prints
    | room condition results =>
      dsimp only
      rw [Prints, (checked_eq _).2.2.2.1, (checked_eq _).2.2.2.2, passLine_output.1, passLine_output.2]
      exact prints

def Freed (session : AttachSession) : Prop := session.undefined = true ∨ session.references = 0

theorem dispatch_freed (printer : Printer) (freed : session.Freed) (event : AttachEvent) :
    (session.dispatch printer event).Freed := by
  unfold dispatch
  split
  · exact freed
  · next halted =>
    have gone : session.references = 0 := freed.resolve_left fun undefined => halted (by simp [undefined])
    cases event with
    | stdin condition line running =>
      dsimp only
      split
      · by_cases hangs : condition = .onlyHup
        · cases running <;> simp [Freed, watcherStdin, checked, hangs, gone]
        · cases line <;> cases running <;> simp [Freed, watcherStdin, checked, hangs, gone]
      · exact freed
    | console condition chunks frame running =>
      dsimp only
      split
      · exact Or.inr (by simp [checked, showOutput, unref, gone])
      · exact freed
    | room condition results =>
      right
      change (session.passLine condition results).references = 0
      unfold passLine
      split
      · exact gone
      · split
        · exact gone
        · simp [unref, gone]

theorem hangUp_frees (printer : Printer) (counted : session.Counted) (watched : session.console = true)
    (idle : session.waiting = []) (unstuck : session.stuck = false) (chunks : List Chunk) (frame : Frame)
    (running : Bool) : (session.dispatch printer (.console .onlyHup chunks frame running)).Freed := by
  have count := counted.count
  rw [watched, idle] at count
  right
  cases running <;>
    simp [dispatch, unstuck, counted.defined, watched, checked, showOutput, watcherSocketStdout, unref, count]

end Step

section Loop
variable {printer : Printer} {iterations : List (List AttachEvent)} {after : AttachSession}

theorem iterate_attach_iff (settle : ∀ iteration ∈ iterations, ∀ event ∈ iteration, event.Settles)
    (connected : ∀ iteration ∈ iterations, ∀ event ∈ iteration, event.Connected) :
    iterate (dispatch printer) (fun session => session.undefined || session.quit && !session.stuck)
        iterations {} = some after ↔
      ∃ before iteration later, iterations = before ++ iteration :: later ∧ ¬ Notices before.flatten ∧
        Notices (before.flatten ++ iteration) ∧
        (before.flatten ++ iteration).foldl (dispatch printer) {} = after := by
  have quits (events : List AttachEvent) (settle : ∀ event ∈ events, event.Settles)
      (connected : ∀ event ∈ events, event.Connected) :
      ((events.foldl (dispatch printer) {}).undefined || (events.foldl (dispatch printer) {}).quit &&
        !(events.foldl (dispatch printer) {}).stuck) = true ↔ Notices events := by
    have here := after_foldl printer events settle connected
    rw [here.defined, here.unstuck, Bool.not_false, Bool.and_true, Bool.false_or]
    exact here.quit
  rw [iterate_eq_some_iff]
  constructor
  · rintro ⟨before, iteration, later, whole, unquit, quit, same⟩
    have all := forall_upto settle whole
    have linked := forall_upto connected whole
    refine ⟨before, iteration, later, whole, fun noticed => ?_, ?_, same⟩
    · by_cases none : before = []
      · subst none
        obtain ⟨_, front, _, _, none, _⟩ := noticed
        exact absurd none.symm (List.append_ne_nil_of_right_ne_nil front (List.cons_ne_nil _ _))
      · have early := unquit before none (List.prefix_refl before)
        rw [(quits _ (fun event member => all event (List.mem_append_left iteration member))
          fun event member => linked event (List.mem_append_left iteration member)).mpr noticed] at early
        cases early
    · rw [← same] at quit
      exact (quits _ all linked).mp quit
  · rintro ⟨before, iteration, later, whole, unnoticed, noticed, same⟩
    have all := forall_upto settle whole
    have linked := forall_upto connected whole
    refine ⟨before, iteration, later, whole, fun early _ within => ?_, ?_, same⟩
    · obtain ⟨late, rfl⟩ := within
      rw [List.flatten_append] at unnoticed all linked
      rw [← Bool.not_eq_true, quits _ (fun event member => all event (by simp [member]))
        fun event member => linked event (by simp [member])]
      exact fun noticed => unnoticed (noticed.append late.flatten)
    · rw [← same]
      exact (quits _ all linked).mpr noticed

end Loop

end AttachSession

section Session
variable {rootDir : Option String} {id : String} {sys : Sys} {fetched : Fetched}
  (asked : ¬ (id = "--help" ∨ id = "-h")) (got : fetch rootDir id sys = some fetched) (rest : List String)
  (printer : Printer) {iterations : List (List AttachEvent)} (after : AttachSession)
include asked got

theorem handlerAttach_returned_iff :
    handlerAttach printer {} iterations (id :: rest) ⟨Config.fresh rootDir, sys⟩ =
        some (.returned true after) ↔
      iterate (AttachSession.dispatch printer)
          (fun session => session.undefined || session.quit && !session.stuck) iterations {} = some after ∧
        ¬ after.Freed := by
  have accepted : handleDefaultUsage (id :: rest) = none := if_neg asked
  have found : getConfigAndState sys.files ((Config.fresh rootDir).setContainerId (some id)) =
    some fetched := got
  simp only [handlerAttach, accepted, List.head?_cons, found, clrOciAttach, Bool.not_true,
    Bool.or_self, Bool.false_eq_true, ↓reduceIte, Option.map_eq_some_iff]
  constructor
  · rintro ⟨ended, loop, returned⟩
    split at returned
    · cases returned
    · next kept =>
      cases returned
      exact ⟨loop, by simpa [AttachSession.Freed] using kept⟩
  · rintro ⟨loop, kept⟩
    refine ⟨after, loop, if_neg ?_⟩
    simpa [AttachSession.Freed] using kept

/-- For every order of callbacks, as long as the socket does not hang up alone, a session at the
console ends exactly with the iteration in which a stream that has not hung up before finds that the VM
is gone; hang-ups of the terminal never end it. The lines that were typed have then been delivered in
order, up to some that still wait for room, if each write takes all of its line; and what was received
has been printed if the reads leave room for the terminator and need no conversion. -/
theorem attach_session_iff
    (settle : ∀ iteration ∈ iterations, ∀ event ∈ iteration, event.Settles)
    (connected : ∀ iteration ∈ iterations, ∀ event ∈ iteration, event.Connected) :
    let attached := handlerAttach printer {} iterations (id :: rest) ⟨Config.fresh rootDir, sys⟩ =
      some (.returned true after)
    (attached ↔ ∃ before iteration later, iterations = before ++ iteration :: later ∧
      ¬ Notices before.flatten ∧ Notices (before.flatten ++ iteration) ∧
      (before.flatten ++ iteration).foldl (AttachSession.dispatch printer) {} = after) ∧
    (attached → (∀ iteration ∈ iterations, ∀ event ∈ iteration, event.Whole) → after.Delivers) ∧
    (attached → (∀ iteration ∈ iterations, ∀ event ∈ iteration, event.Plain printer) → after.Prints) := by
  intro attached
  have ends : attached ↔ ∃ before iteration later, iterations = before ++ iteration :: later ∧
      ¬ Notices before.flatten ∧ Notices (before.flatten ++ iteration) ∧
      (before.flatten ++ iteration).foldl (AttachSession.dispatch printer) {} = after := by
    rw [← AttachSession.iterate_attach_iff settle connected]
    refine (handlerAttach_returned_iff asked got rest printer after).trans (and_iff_left_of_imp ?_)
    rw [AttachSession.iterate_attach_iff settle connected]
    rintro ⟨before, iteration, later, whole, _, _, rfl⟩ freed
    have kept := AttachSession.after_foldl printer _ (forall_upto settle whole) (forall_upto connected whole)
    have count := kept.count
    rcases freed with undefined | gone
    · rw [kept.defined] at undefined
      cases undefined
    · omega
  refine ⟨ends, fun done wholes => ?_, fun done plain => ?_⟩
  · obtain ⟨before, iteration, later, whole, _, _, rfl⟩ := ends.mp done
    exact foldl_dispatch (fun _ _ => AttachSession.dispatch_delivers printer) ⟨[], rfl, rfl⟩
      (forall_upto wholes whole)
  · obtain ⟨before, iteration, later, whole, _, _, rfl⟩ := ends.mp done
    exact foldl_dispatch (fun _ _ => AttachSession.dispatch_prints) rfl (forall_upto plain whole)

/-- After the console hangs up alone while no line waits, no session returns any more. -/
theorem hung_up_undefined {front back : List AttachEvent} {chunks : List Chunk} {frame : Frame}
    {running : Bool} (whole : iterations.flatten = front ++ .console .onlyHup chunks frame running :: back)
    (settle : ∀ event ∈ front, event.Settles) (connected : ∀ event ∈ front, event.Connected)
    (unnoticed : ¬ Notices front)
    (watched : (front.foldl (AttachSession.dispatch printer) {}).console = true)
    (idle : (front.foldl (AttachSession.dispatch printer) {}).waiting = []) :
    handlerAttach printer {} iterations (id :: rest) ⟨Config.fresh rootDir, sys⟩ ≠
      some (.returned true after) := by
  intro returned
  obtain ⟨loop, kept⟩ := (handlerAttach_returned_iff asked got rest printer after).mp returned
  obtain ⟨early, iteration, later, parts, _, quit, rfl⟩ := iterate_eq_some_iff.mp loop
  let hung : AttachEvent := .console .onlyHup chunks frame running
  have freed : ((front ++ [hung]).foldl (AttachSession.dispatch printer) {}).Freed := by
    have before := AttachSession.after_foldl printer front settle connected
    rw [List.foldl_append]
    exact AttachSession.hangUp_frees printer before.toCounted watched idle before.unstuck chunks frame running
  have still : ∀ (session : AttachSession) (event : AttachEvent), session.Freed → True →
      (session.dispatch printer event).Freed :=
    fun _ event held _ => AttachSession.dispatch_freed printer held event
  have ended : early.flatten ++ iteration <+: iterations.flatten :=
    ⟨later.flatten, by rw [parts]; simp⟩
  have hangs : front ++ [hung] <+: iterations.flatten := ⟨back, by rw [whole]; simp [hung]⟩
  have covers : front ++ [hung] <+: early.flatten ++ iteration := by
    rcases List.prefix_or_prefix_of_prefix hangs ended with covers | short
    · exact covers
    · rcases List.prefix_concat_iff.mp short with same | within
      · rw [same]
      · -- The loop has not been told to quit by then.
        obtain ⟨more, rfl⟩ := within
        have early := AttachSession.after_foldl printer _
          (fun event member => settle event (List.mem_append_left more member))
          fun event member => connected event (List.mem_append_left more member)
        rw [early.defined, early.unstuck, Bool.not_false, Bool.and_true, Bool.false_or, early.quit] at quit
        exact absurd (quit.append more) unnoticed
  obtain ⟨more, same⟩ := covers
  apply kept
  rw [← same, List.foldl_append]
  exact foldl_dispatch still freed fun _ _ => trivial

end Session

def shortSession : List (List AttachEvent) :=
  [[.stdin {} (some [108, 115, 10]) true, .room { out := true } fun _ => [.full]],
    [.console {} [⟨[111, 107], by decide⟩] (blankFrame []) true, .stdin .onlyHup none true],
    [.console { hup := true, out := true } [] (blankFrame []) false]]

theorem short_session_delivered :
    ∃ after, handlerAttach .replacing {} shortSession ["c1"] ⟨Config.fresh (some "/run"),
        (runningWorld [] (bundleFiles [])).sys⟩ = some (.returned true after) ∧
      after.sent = [108, 115, 10] ∧ after.printed = some [111, 107] := by
  have fetches : (fetch (some "/run") "c1" (runningWorld [] (bundleFiles [])).sys).isSome = true := by decide
  obtain ⟨fetched, got⟩ := Option.isSome_iff_exists.mp fetches
  have settle : ∀ iteration ∈ shortSession, ∀ event ∈ iteration, event.Settles := by
    simp [shortSession, AttachEvent.Settles, Ends]
  have connected : ∀ iteration ∈ shortSession, ∀ event ∈ iteration, event.Connected := by
    simp [shortSession, AttachEvent.Connected, IoCondition.onlyHup]
  have whole : ∀ iteration ∈ shortSession, ∀ event ∈ iteration, event.Whole := by
    simp [shortSession, AttachEvent.Whole, IoCondition.onlyHup]
  have answer : PlainChunk .replacing ⟨[111, 107], by decide⟩ :=
    ⟨by decide, by decide, Or.inr (by decide)⟩
  have plain : ∀ iteration ∈ shortSession, ∀ event ∈ iteration, event.Plain .replacing := by
    simp [shortSession, AttachEvent.Plain, answer]
  have unnoticed : ¬ Notices (shortSession.take 2).flatten := by
    rintro ⟨_, front, event, rest, whole, _, gone, _⟩
    have runs : ∀ event ∈ (shortSession.take 2).flatten, event.running = true := by decide
    rw [runs event (by rw [whole]; simp)] at gone
    cases gone
  have noticed : Notices ((shortSession.take 2).flatten ++
      [.console { hup := true, out := true } [] (blankFrame []) false]) :=
    ⟨.console, (shortSession.take 2).flatten, _, [], rfl, rfl, rfl, by decide⟩
  obtain ⟨ends, delivers, prints⟩ := attach_session_iff (by decide) got [] .replacing
    (shortSession.flatten.foldl (AttachSession.dispatch .replacing) {}) settle connected
  have attached := ends.mpr ⟨shortSession.take 2, _, [], rfl, unnoticed, noticed, rfl⟩
  obtain ⟨delivered, typed, sent⟩ := delivers attached whole
  have everything : [[108, 115, 10]] = delivered ++ [] := typed
  rw [List.append_nil] at everything
  refine ⟨_, attached, ?_, prints attached plain⟩
  rw [sent, ← everything]
  rfl

end ClrOci
