import ClrOci.Foundation.MainLoop
import ClrOci.Hooks

/-! How the runtime waits for a hook.

All hooks of a list share one main loop. The watch on the process of a hook writes the exit status
into the frame of the call that waits for it, and ends the loop. A call that gives up early leaves its
watch behind.
-/

set_option autoImplicit false

namespace ClrOci

open Foundation

/-- What `g_spawn_async_with_pipes` is asked to run: the first element is the file, the rest are the
arguments that it sees. -/
structure SpawnCall where
  file : String
  argv : List String
  environment : Option (List String)
  deriving DecidableEq

def Hook.spawnCall (hook : Hook) : SpawnCall := ⟨hook.path.text, hook.args.getD [], hook.env⟩

/-- What the system answers to a hook: whether it is spawned, and how much of the state and of the
newline after it goes into its stdin. -/
structure Attempt where
  spawns : Bool
  takesState : Option Nat
  takesNewline : Option Nat
  deriving DecidableEq

inductive LoopEvent where
  | ended (hook : Nat) (status : Int32)
  | line (stderr : Bool) (text : String)
  | hungUp (stderr : Bool)
  deriving DecidableEq

structure HookLoop where
  watches : List Nat := []
  spawned : List SpawnCall := []
  fed : List (Nat × String) := []
  output : List (Bool × String) := []

/-- A call of `clr_run_hook` that waits: its exit code, and whether the loop was told to quit.
A watch of an earlier call writes into a frame that is gone. -/
structure Waiting where
  loop : HookLoop
  exitCode : Int32 := -1
  quit : Bool := false
  stray : Bool := false

inductive HookEnd where
  | returned (ok : Bool)
  | hangs
  | undefined
  deriving DecidableEq

/-- `clr_oci_hook_watcher` and `clr_oci_output_watcher`, called back during the call with a number. -/
def Waiting.dispatch (number : Nat) (waiting : Waiting) : LoopEvent → Waiting
  | .ended hook status =>
    if hook ∈ waiting.loop.watches then
      let loop := { waiting.loop with watches := waiting.loop.watches.erase hook }
      if hook = number then { waiting with loop := loop, exitCode := status, quit := true }
      else { waiting with loop := loop, stray := true, quit := true }
    else waiting
  | .line stderr text =>
    { waiting with loop := { waiting.loop with output := waiting.loop.output ++ [(stderr, text)] } }
  | .hungUp _ => waiting

/-- `g_main_loop_run`. -/
def Waiting.run (number : Nat) (iterations : List (List LoopEvent)) (waiting : Waiting) : Option Waiting :=
  iterate (dispatch number) Waiting.quit iterations waiting

-- `g_strdelimit`: the state on one line.
def onOneLine (state : String) : String := state.map fun c => if c = '\n' then ' ' else c

/-- `clr_run_hook`. -/
def clrRunHook (number : Nat) (hook : Hook) (state : String) (attempt : Attempt)
    (iterations : List (List LoopEvent)) (loop : HookLoop) : HookEnd × HookLoop :=
  if !attempt.spawns then (.returned false, loop)
  else
    let loop := { loop with
      spawned := loop.spawned ++ [hook.spawnCall]
      watches := number :: loop.watches }
    match attempt.takesState with
    | none => (.returned false, loop)
    | some taken =>
      let loop := { loop with
        fed := loop.fed ++ [(number, String.ofList ((onOneLine state).toList.take taken))] }
      match attempt.takesNewline with
      | none => (.returned false, loop)
      | some taken =>
        let loop := { loop with fed := loop.fed ++ [(number, String.ofList ("\n".toList.take taken))] }
        match Waiting.run number iterations { loop := loop } with
        | none => (.hangs, loop)
        | some waiting =>
          if waiting.stray then (.undefined, waiting.loop)
          else (.returned (waiting.exitCode == 0), waiting.loop)

/-- `clr_run_hooks` over the hooks from a number on. -/
def clrRunHooks (stopOnFailure : Bool) (state : String) (attempts : Nat → Attempt)
    (iterations : Nat → List (List LoopEvent)) : Nat → List Hook → HookLoop → HookEnd × HookLoop
  | _, [], loop => (.returned true, loop)
  | number, hook :: rest, loop =>
    let ran := clrRunHook number hook state (attempts number) (iterations number) loop
    match ran.1 with
    | .returned ok =>
      if !ok && stopOnFailure then (.returned false, ran.2)
      else clrRunHooks stopOnFailure state attempts iterations (number + 1) rest ran.2
    | bad => (bad, ran.2)

def Attempt.outcome (attempt : Attempt) (status : Int32) : HookOutcome :=
  if !attempt.spawns then .spawnFailed
  else if attempt.takesState.isNone || attempt.takesNewline.isNone then .stdinFailed
  else .exited status

def Attempt.waits (attempt : Attempt) : Bool :=
  attempt.spawns && attempt.takesState.isSome && attempt.takesNewline.isSome

def Attempt.abandons (attempt : Attempt) : Bool := attempt.spawns && !attempt.waits

/-- The loop reports each process with the status that it ends with, and in the end the own one. -/
def Reports (exits : Nat → Int32) (number : Nat) (iterations : List (List LoopEvent)) : Prop :=
  (∃ iteration ∈ iterations, .ended number (exits number) ∈ iteration) ∧
    ∀ iteration ∈ iterations, ∀ hook status, .ended hook status ∈ iteration → status = exits hook

/-- Whatever order the loop calls back in, the hooks that are spawned and the result are those of the
plain runner, which knows only how each process ends. -/
def Faithful (stopOnFailure : Bool) (state : String) (attempts : Nat → Attempt) (hooks : List Hook) : Prop :=
  ∀ (env : Env) (content : Content) (sys : Sys) (exits : Nat → Int32)
    (iterations : Nat → List (List LoopEvent)), (∀ number, Reports exits number (iterations number)) →
    (∀ number hook, (env.host (sys.clock + number)).hook hook = (attempts number).outcome (exits number)) →
    let ran := clrRunHooks stopOnFailure state attempts iterations 0 hooks {}
    ran.1 = .returned (runHookList env stopOnFailure content hooks sys).1 ∧
      ran.2.spawned = (hookRuns env stopOnFailure sys.clock hooks).filterMap fun run =>
        if run.2 = .spawnFailed then none else some run.1.spawnCall

def InTurn (attempts : Nat → Attempt) (start count : Nat) : Prop :=
  ∀ i j, start ≤ i → i < j → j < start + count → (attempts i).abandons = true → (attempts j).waits = false

section Wait
variable {number : Nat} {exits : Nat → Int32} {waiting : Waiting}

structure Waiting.Clean (exits : Nat → Int32) (number : Nat) (spawned : List SpawnCall) (waiting : Waiting) :
    Prop where
  unstray : waiting.stray = false
  spawned : waiting.loop.spawned = spawned
  phase : waiting.quit = false ∧ waiting.loop.watches = [number] ∨
    waiting.quit = true ∧ waiting.loop.watches = [] ∧ waiting.exitCode = exits number

variable {spawned : List SpawnCall}

theorem Waiting.Clean.dispatch (clean : waiting.Clean exits number spawned) {event : LoopEvent}
    (truthful : ∀ hook status, event = .ended hook status → status = exits hook) :
    (waiting.dispatch number event).Clean exits number spawned ∧
      (event = .ended number (exits number) ∨ waiting.quit = true →
        (waiting.dispatch number event).quit = true) := by
  obtain ⟨unstray, same, phase⟩ := clean
  cases event with
  | line stderr text => exact ⟨⟨unstray, same, phase⟩, fun either => either.resolve_left (by simp)⟩
  | hungUp stderr => exact ⟨⟨unstray, same, phase⟩, fun either => either.resolve_left (by simp)⟩
  | ended hook status =>
    rcases phase with ⟨running, watched⟩ | ⟨quit, watched, code⟩
    · by_cases own : hook = number
      · subst own
        have left : ([hook].erase hook : List Nat) = [] := by simp
        simp only [Waiting.dispatch, watched, List.mem_singleton, ↓reduceIte]
        exact ⟨⟨unstray, same, Or.inr ⟨rfl, left, truthful _ _ rfl⟩⟩, fun _ => trivial⟩
      · simp only [Waiting.dispatch, watched, List.mem_singleton, own, ↓reduceIte]
        refine ⟨⟨unstray, same, Or.inl ⟨running, watched⟩⟩, fun either => ?_⟩
        rcases either with mine | quit
        · cases mine
          exact absurd rfl own
        · exact quit
    · simp only [Waiting.dispatch, watched, List.not_mem_nil, ↓reduceIte]
      exact ⟨⟨unstray, same, Or.inr ⟨quit, watched, code⟩⟩, fun _ => quit⟩

theorem Waiting.Clean.run (clean : waiting.Clean exits number spawned)
    {iterations : List (List LoopEvent)} (reports : Reports exits number iterations) :
    ∃ after, Waiting.run number iterations waiting = some after ∧ after.stray = false ∧
      after.exitCode = exits number ∧ after.loop.watches = [] ∧ after.loop.spawned = spawned := by
  obtain ⟨reported, truthful⟩ := reports
  have kept : ∀ (waiting : Waiting) (event : LoopEvent), waiting.Clean exits number spawned →
      (∀ hook status, event = .ended hook status → status = exits hook) →
      (waiting.dispatch number event).Clean exits number spawned :=
    fun _ _ clean truthful => (clean.dispatch truthful).1
  have ends : ∀ (waiting : Waiting) (event : LoopEvent), waiting.Clean exits number spawned →
      (∀ hook status, event = .ended hook status → status = exits hook) →
      event = .ended number (exits number) ∨ waiting.quit = true →
      (waiting.dispatch number event).quit = true :=
    fun _ _ clean truthful => (clean.dispatch truthful).2
  have each : ∀ iteration ∈ iterations, ∀ event ∈ iteration,
      ∀ hook status, event = .ended hook status → status = exits hook := by
    intro iteration member event here hook status same
    subst same
    exact truthful iteration member hook status here
  obtain ⟨after, ran, reached, quits⟩ := iterate_ends kept ends clean each reported
  refine ⟨after, ran, reached.unstray, ?_⟩
  rcases reached.phase with ⟨running, _⟩ | ⟨_, watched, code⟩
  · rw [running] at quits
    cases quits
  · exact ⟨code, watched, reached.spawned⟩

end Wait

section Call
variable {number : Nat} {hook : Hook} {state : String} {attempt : Attempt}
  {iterations : List (List LoopEvent)} {loop : HookLoop} {exits : Nat → Int32}

theorem clrRunHook_of_not_waits (early : attempt.waits = false) :
    (clrRunHook number hook state attempt iterations loop).1 = .returned false ∧
      (clrRunHook number hook state attempt iterations loop).2.spawned =
        loop.spawned ++ (if attempt.spawns then [hook.spawnCall] else []) ∧
      (clrRunHook number hook state attempt iterations loop).2.watches =
        (if attempt.spawns then [number] else []) ++ loop.watches := by
  obtain ⟨spawns, takesState, takesNewline⟩ := attempt
  unfold clrRunHook
  cases spawns with
  | false => exact ⟨rfl, (List.append_nil _).symm, rfl⟩
  | true =>
    cases takesState with
    | none => exact ⟨rfl, rfl, rfl⟩
    | some taken =>
      cases takesNewline with
      | none => exact ⟨rfl, rfl, rfl⟩
      | some taken => cases early

/-- A call that waits, with no watch of an earlier one around, returns as its process ends. -/
theorem clrRunHook_of_waits (waits : attempt.waits = true) (fresh : loop.watches = [])
    (reports : Reports exits number iterations) :
    (clrRunHook number hook state attempt iterations loop).1 = .returned (exits number == 0) ∧
      (clrRunHook number hook state attempt iterations loop).2.spawned =
        loop.spawned ++ [hook.spawnCall] ∧
      (clrRunHook number hook state attempt iterations loop).2.watches = [] := by
  obtain ⟨spawns, takesState, takesNewline⟩ := attempt
  cases spawns with
  | false => cases waits
  | true =>
    cases takesState with
    | none => cases waits
    | some taken =>
      cases takesNewline with
      | none => cases waits
      | some taken' =>
        simp only [clrRunHook, Bool.not_true, Bool.false_eq_true, ↓reduceIte]
        generalize begun : ({ loop := { loop with
          spawned := loop.spawned ++ [hook.spawnCall]
          watches := number :: loop.watches
          fed := loop.fed ++ [(number, String.ofList ((onOneLine state).toList.take taken))] ++
            [(number, String.ofList ("\n".toList.take taken'))] } } : Waiting) = waiting
        have clean : waiting.Clean exits number (loop.spawned ++ [hook.spawnCall]) := by
          subst begun
          exact ⟨rfl, rfl, Or.inl ⟨rfl, congrArg (number :: ·) fresh⟩⟩
        obtain ⟨after, ran, unstray, code, watched, same⟩ := clean.run reports
        simp only [ran, unstray, Bool.false_eq_true, ↓reduceIte, code]
        exact ⟨trivial, same, watched⟩

end Call

section Runs
variable {stopOnFailure : Bool} {state : String} {attempts : Nat → Attempt} {exits : Nat → Int32}
  {iterations : Nat → List (List LoopEvent)}

theorem InTurn.tail {start count : Nat} (ordered : InTurn attempts start (count + 1)) :
    InTurn attempts (start + 1) count :=
  fun i j first later last => ordered i j (by omega) later (by omega)

theorem outcome_of_waits {attempt : Attempt} (waits : attempt.waits = true) (status : Int32) :
    attempt.outcome status = .exited status := by
  obtain ⟨spawns, takesState, takesNewline⟩ := attempt
  cases spawns <;> cases takesState <;> cases takesNewline <;> first | rfl | cases waits

theorem outcome_of_not_waits {attempt : Attempt} (early : attempt.waits = false) (status : Int32) :
    attempt.outcome status = if attempt.spawns then .stdinFailed else .spawnFailed := by
  obtain ⟨spawns, takesState, takesNewline⟩ := attempt
  cases spawns <;> cases takesState <;> cases takesNewline <;> first | rfl | cases early

def spawnedFor (run : Hook × HookOutcome) : Option SpawnCall :=
  if run.2 = .spawnFailed then none else some run.1.spawnCall

theorem filterMap_spawnedFor_cons (run : Hook × HookOutcome) (rest : List (Hook × HookOutcome)) :
    (run :: rest).filterMap spawnedFor = (spawnedFor run).toList ++ rest.filterMap spawnedFor := by
  rw [List.filterMap_cons]
  cases spawnedFor run <;> rfl

/-- The runner at the loop is the plain runner, as long as no watch is left behind for a later wait. -/
theorem clrRunHooks_eq_plain {env : Env} (content : Content)
    (reports : ∀ number, Reports exits number (iterations number)) (hooks : List Hook) {number : Nat}
    {loop : HookLoop} {sys : Sys}
    (answers : ∀ later hook, (env.host (sys.clock + later)).hook hook =
      (attempts (number + later)).outcome (exits (number + later)))
    (ordered : stopOnFailure = true ∨ InTurn attempts number hooks.length)
    (fresh : loop.watches = [] ∨ stopOnFailure = false ∧
      ∀ j, number ≤ j → j < number + hooks.length → (attempts j).waits = false) :
    let ran := clrRunHooks stopOnFailure state attempts iterations number hooks loop
    ran.1 = .returned (runHookList env stopOnFailure content hooks sys).1 ∧
      ran.2.spawned = loop.spawned ++
        (hookRuns env stopOnFailure sys.clock hooks).filterMap spawnedFor := by
  induction hooks generalizing number loop sys with
  | nil => exact ⟨rfl, (List.append_nil _).symm⟩
  | cons hook rest ih =>
    have outcome := answers 0 hook
    rw [Nat.add_zero, Nat.add_zero] at outcome
    have later : ∀ later hook, (env.host (sys.clock + 1 + later)).hook hook =
        (attempts (number + 1 + later)).outcome (exits (number + 1 + later)) := by
      intro later other
      have next := answers (1 + later) other
      rwa [← Nat.add_assoc, ← Nat.add_assoc] at next
    have tail : stopOnFailure = true ∨ InTurn attempts (number + 1) rest.length := ordered.imp id InTurn.tail
    -- What the call for this hook comes to, whether it waits or not.
    have called : ∃ ok, (clrRunHook number hook state (attempts number) (iterations number) loop).1 =
          .returned ok ∧
        ok = ((env.host sys.clock).hook hook == .exited 0) ∧
        (clrRunHook number hook state (attempts number) (iterations number) loop).2.spawned =
          loop.spawned ++ (spawnedFor (hook, (env.host sys.clock).hook hook)).toList ∧
        (ok = true ∨ stopOnFailure = false →
          (clrRunHook number hook state (attempts number) (iterations number) loop).2.watches = [] ∨
            stopOnFailure = false ∧
              ∀ j, number + 1 ≤ j → j < number + 1 + rest.length → (attempts j).waits = false) := by
      rw [outcome]
      cases waits : (attempts number).waits with
      | true =>
        have unwatched : loop.watches = [] := by
          rcases fresh with none | ⟨_, early⟩
          · exact none
          · rw [early number (Nat.le_refl _) (by simp)] at waits
            cases waits
        obtain ⟨ends, spawned, watches⟩ := clrRunHook_of_waits waits unwatched (reports number)
        rw [outcome_of_waits waits]
        refine ⟨_, ends, ?_, spawned, fun _ => Or.inl watches⟩
        by_cases zero : exits number = 0 <;> simp [zero]
      | false =>
        obtain ⟨ends, spawned, watches⟩ := clrRunHook_of_not_waits waits
        rw [outcome_of_not_waits waits]
        refine ⟨false, ends, ?_, ?_, fun either => ?_⟩
        · cases (attempts number).spawns <;> rfl
        · rw [spawned]
          cases (attempts number).spawns <;> rfl
        · have goes : stopOnFailure = false := either.resolve_left (by decide)
          have ordered := ordered.resolve_left (by rw [goes]; decide)
          cases spawns : (attempts number).spawns with
          | false =>
            rw [spawns] at watches
            refine fresh.imp (fun none => watches.trans none) fun early => ⟨goes, fun j first last => ?_⟩
            exact early.2 j (by omega) (by simp only [List.length_cons]; omega)
          | true =>
            have abandons : (attempts number).abandons = true := by
              rw [Attempt.abandons, spawns, waits]
              rfl
            refine Or.inr ⟨goes, fun j first last => ?_⟩
            exact ordered number j (Nat.le_refl _) (by omega) (by simp only [List.length_cons]; omega) abandons
    obtain ⟨ok, ends, okay, spawned, fresh'⟩ := called
    have plain : (runHook env hook content sys).1 = ok := okay.symm
    simp only [clrRunHooks, ends, runHookList, hookRuns, plain]
    by_cases stops : ok = false ∧ stopOnFailure = true
    · obtain ⟨rfl, rfl⟩ := stops
      have failed : (env.host sys.clock).hook hook ≠ .exited 0 := by
        intro same
        rw [same] at okay
        cases okay
      simp only [Bool.not_false, Bool.and_self, ↓reduceIte, ne_eq, failed, not_false_eq_true, and_self]
      refine ⟨trivial, ?_⟩
      rw [filterMap_spawnedFor_cons, spawned, List.filterMap_nil, List.append_nil]
    · have goes : ok = true ∨ stopOnFailure = false := by
        cases ok <;> cases stopOnFailure <;> simp_all
      have on : (!ok && stopOnFailure) = false := by
        rcases goes with rfl | rfl
        · rfl
        · exact Bool.and_false _
      have runs : ¬ ((env.host sys.clock).hook hook ≠ .exited 0 ∧ stopOnFailure = true) := by
        rintro ⟨failed, stop⟩
        refine stops ⟨?_, stop⟩
        rw [okay, beq_eq_false_iff_ne]
        exact failed
      obtain ⟨result, all⟩ := @ih (number + 1) _ (runHook env hook content sys).2 later tail (fresh' goes)
      simp only [on, Bool.false_eq_true, ↓reduceIte, if_neg runs]
      refine ⟨result, ?_⟩
      rw [filterMap_spawnedFor_cons, ← List.append_assoc, ← spawned]
      exact all

def staleFirst (number : Nat) : List (List LoopEvent) :=
  [(List.range (number + 1)).map fun hook => .ended hook 0]

theorem reports_staleFirst (number : Nat) : Reports (fun _ => 0) number (staleFirst number) := by
  refine ⟨⟨_, List.mem_singleton_self _, List.mem_map.mpr ⟨number, List.mem_range.mpr (by omega), rfl⟩⟩, ?_⟩
  intro iteration member hook status here
  rw [List.mem_singleton.mp member, List.mem_map] at here
  obtain ⟨_, _, same⟩ := here
  cases same
  rfl

theorem foldl_dispatch_stray {number : Nat} (iteration : List LoopEvent) {waiting : Waiting}
    (stray : waiting.stray = true ∧ waiting.quit = true) :
    (iteration.foldl (Waiting.dispatch number) waiting).stray = true ∧
      (iteration.foldl (Waiting.dispatch number) waiting).quit = true := by
  have kept : ∀ (waiting : Waiting) (event : LoopEvent), waiting.stray = true ∧ waiting.quit = true →
      True → (waiting.dispatch number event).stray = true ∧ (waiting.dispatch number event).quit = true := by
    intro waiting event stray _
    cases event with
    | ended hook status =>
      simp only [Waiting.dispatch]
      split
      · split
        · exact ⟨stray.1, rfl⟩
        · exact ⟨rfl, rfl⟩
      · exact stray
    | line stderr text => exact stray
    | hungUp stderr => exact stray
  exact foldl_dispatch kept stray fun _ _ => trivial

/-- An iteration that reports the process of an earlier call writes into a frame that is gone. -/
theorem foldl_dispatch_stale {number stale : Nat} (hooks : List Nat) {waiting : Waiting}
    (watched : stale ∈ waiting.loop.watches) (other : stale ≠ number) (reported : stale ∈ hooks) :
    let after := (hooks.map fun hook => LoopEvent.ended hook 0).foldl (Waiting.dispatch number) waiting
    after.stray = true ∧ after.quit = true := by
  induction hooks generalizing waiting with
  | nil => cases reported
  | cons hook rest ih =>
    rw [List.map_cons, List.foldl_cons]
    by_cases attached : hook ∈ waiting.loop.watches
    · by_cases own : hook = number
      · have elsewhere : stale ∈ rest := by
          rcases List.mem_cons.mp reported with same | later
          · exact absurd (same.trans own) other
          · exact later
        apply ih _ elsewhere
        simp only [Waiting.dispatch, if_pos attached, if_pos own]
        exact (List.mem_erase_of_ne (fun same => other (same.trans own))).mpr watched
      · have called : Waiting.dispatch number waiting (.ended hook 0) =
            { waiting with
              loop := { waiting.loop with watches := waiting.loop.watches.erase hook }
              stray := true
              quit := true } := by
          simp only [Waiting.dispatch, if_pos attached, if_neg own]
        rw [called]
        exact foldl_dispatch_stray _ ⟨rfl, rfl⟩
    · have elsewhere : stale ∈ rest := by
        rcases List.mem_cons.mp reported with same | later
        · exact absurd (same ▸ watched) attached
        · exact later
      apply ih _ elsewhere
      simp only [Waiting.dispatch, if_neg attached]
      exact watched

/-- A call that waits while the watch of an earlier one is attached may be its ruin. -/
theorem clrRunHook_of_stale {number stale : Nat} {hook : Hook} {attempt : Attempt} {loop : HookLoop}
    (waits : attempt.waits = true) (watched : stale ∈ loop.watches) (earlier : stale < number) :
    (clrRunHook number hook state attempt (staleFirst number) loop).1 = .undefined := by
  obtain ⟨spawns, takesState, takesNewline⟩ := attempt
  cases spawns with
  | false => cases waits
  | true =>
    cases takesState with
    | none => cases waits
    | some taken =>
      cases takesNewline with
      | none => cases waits
      | some taken' =>
        simp only [clrRunHook, Bool.not_true, Bool.false_eq_true, ↓reduceIte]
        generalize begun : ({ loop := { loop with
          spawned := loop.spawned ++ [hook.spawnCall]
          watches := number :: loop.watches
          fed := loop.fed ++ [(number, String.ofList ((onOneLine state).toList.take taken))] ++
            [(number, String.ofList ("\n".toList.take taken'))] } } : Waiting) = waiting
        have attached : stale ∈ waiting.loop.watches := by
          subst begun
          exact List.mem_cons_of_mem _ watched
        obtain ⟨stray, quit⟩ := foldl_dispatch_stale (List.range (number + 1)) attached
          (Nat.ne_of_lt earlier) (List.mem_range.mpr (by omega))
        simp only [staleFirst, Waiting.run, iterate, quit, ↓reduceIte, stray]

/-- If the list goes on after a failure, a watch that is left behind can be called back while a later
hook is waited for. -/
theorem clrRunHooks_undefined (hooks : List Hook) {number j : Nat} {loop : HookLoop}
    (below : ∀ watched ∈ loop.watches, watched < number) (last : j < hooks.length)
    (waits : (attempts (number + j)).waits = true)
    (stale : loop.watches ≠ [] ∨ ∃ i < j, (attempts (number + i)).abandons = true) :
    (clrRunHooks false state attempts staleFirst number hooks loop).1 = .undefined := by
  induction hooks generalizing number j loop with
  | nil => cases last
  | cons hook rest ih =>
    -- What is left of the list once the call for this hook has returned.
    have goOn {ok : Bool} {loop' : HookLoop} {j' : Nat} (same : j = j' + 1)
        (ends : clrRunHook number hook state (attempts number) (staleFirst number) loop = (.returned ok, loop'))
        (below' : ∀ watched ∈ loop'.watches, watched < number + 1)
        (stale' : loop'.watches ≠ [] ∨ ∃ i < j', (attempts (number + 1 + i)).abandons = true) :
        (clrRunHooks false state attempts staleFirst number (hook :: rest) loop).1 = .undefined := by
      subst same
      simp only [clrRunHooks, ends, Bool.and_false, Bool.false_eq_true, ↓reduceIte]
      apply ih below' (Nat.lt_of_succ_lt_succ last) _ stale'
      rwa [Nat.add_assoc, Nat.add_comm 1]
    have shift (i : Nat) : number + 1 + i = number + (i + 1) := by omega
    cases here : (attempts number).waits with
    | true =>
      by_cases fresh : loop.watches = []
      · obtain ⟨i, before, abandons⟩ := stale.resolve_left fun some => some fresh
        obtain ⟨ends, _, watches⟩ := clrRunHook_of_waits here fresh (reports_staleFirst number)
        cases i with
        | zero =>
          rw [Nat.add_zero, Attempt.abandons, here, Bool.not_true, Bool.and_false] at abandons
          cases abandons
        | succ i =>
          refine goOn (show j = (j - 1) + 1 by omega) (Prod.ext ends rfl) ?_ (Or.inr ⟨i, by omega, ?_⟩)
          · rw [watches]
            exact fun _ member => absurd member List.not_mem_nil
          · rwa [shift]
      · obtain ⟨old, watched⟩ := List.exists_mem_of_ne_nil _ fresh
        have ruined :
            (clrRunHook number hook state (attempts number) (staleFirst number) loop).1 = .undefined :=
          clrRunHook_of_stale here watched (below old watched)
        simp only [clrRunHooks, ruined]
    | false =>
      obtain ⟨ends, _, watches⟩ := clrRunHook_of_not_waits here
      have apart : j ≠ 0 := by
        rintro rfl
        rw [Nat.add_zero, here] at waits
        cases waits
      refine goOn (show j = (j - 1) + 1 by omega) (Prod.ext ends rfl) ?_ ?_
      · rw [watches]
        intro watched member
        rcases List.mem_append.mp member with own | old
        · split at own
          · rw [List.mem_singleton.mp own]
            exact Nat.lt_succ_self number
          · cases own
        · exact Nat.lt_succ_of_lt (below watched old)
      · rw [watches]
        rcases stale with some | ⟨i, before, abandons⟩
        · exact Or.inl (List.append_ne_nil_of_right_ne_nil _ some)
        · cases i with
          | zero =>
            have spawns : (attempts number).spawns = true := (Bool.and_eq_true_iff.mp abandons).1
            rw [spawns, if_pos rfl]
            exact Or.inl (List.cons_ne_nil _ _)
          | succ i => exact Or.inr ⟨i, by omega, by rwa [shift]⟩

end Runs

def hookEnv (attempts : Nat → Attempt) : Env :=
  { Env.calm with host := fun clock =>
    { Host.calm with hook := fun _ => (attempts clock).outcome 0 } }

/-- The main loop is as good as a plain wait for every order of callbacks exactly if the list stops at
the first failure, or no hook waits after one whose process was abandoned because its stdin failed. -/
theorem hooks_faithful_iff (stopOnFailure : Bool) (state : String) (attempts : Nat → Attempt)
    (hooks : List Hook) :
    Faithful stopOnFailure state attempts hooks ↔
      stopOnFailure = true ∨ InTurn attempts 0 hooks.length := by
  constructor
  · intro faithful
    by_contra neither
    rw [not_or, Bool.not_eq_true] at neither
    obtain ⟨goes, disordered⟩ := neither
    subst goes
    have ⟨i, j, earlier, last, abandons, waits⟩ : ∃ i j, i < j ∧ j < hooks.length ∧
        (attempts i).abandons = true ∧ (attempts j).waits = true := by
      by_contra none
      refine disordered fun i j _ earlier last abandons => ?_
      by_contra waits
      rw [Bool.not_eq_false] at waits
      exact none ⟨i, j, earlier, by omega, abandons, waits⟩
    have undefined : (clrRunHooks false state attempts staleFirst 0 hooks {}).1 = .undefined :=
      clrRunHooks_undefined hooks (fun _ member => absurd member List.not_mem_nil) last
        (by rwa [Nat.zero_add]) (Or.inr ⟨i, earlier, by rwa [Nat.zero_add]⟩)
    have answers : ∀ number hook, ((hookEnv attempts).host ((Sys.idle fun _ => none).clock + number)).hook hook =
        (attempts number).outcome 0 := by
      intro number hook
      rw [show (Sys.idle fun _ => none).clock + number = number from Nat.zero_add number]
      rfl
    have ran := (faithful (hookEnv attempts) (.text "") (Sys.idle fun _ => none) (fun _ => 0) staleFirst
      reports_staleFirst answers).1
    rw [undefined] at ran
    cases ran
  · intro ordered env content sys exits iterations reports answers
    have unwatched : ({} : HookLoop).watches = [] ∨ stopOnFailure = false ∧
        ∀ j, 0 ≤ j → j < 0 + hooks.length → (attempts j).waits = false := Or.inl rfl
    apply clrRunHooks_eq_plain content reports hooks _ ordered unwatched
    intro later hook
    rw [Nat.zero_add]
    exact answers later hook

end ClrOci
