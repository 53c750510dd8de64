import Mathlib.Data.List.Basic

/-! Sequences of operations that may fail.

An operation changes a state and reports success or failure. A sequence stops at
the first operation that does not succeed and keeps the state that one left: there
is no rollback. The rules below are stated over an arbitrary state.
-/

set_option autoImplicit false

namespace ClrOci.Foundation

/-- How a call ends: with a result, by killing the process, or not at all. -/
inductive Exit where
  | returned (ok : Bool)
  | aborted
  | stuck
  deriving DecidableEq, Repr

structure Run (S : Type) where
  exit : Exit
  state : S

abbrev Action (S : Type) := S → Run S

namespace Action
variable {S : Type}

def succeed : Action S := fun state => ⟨.returned true, state⟩

def andThen (first next : Action S) : Action S := fun state =>
  match (first state).exit with
  | .returned true => next (first state).state
  | _ => first state

def sequence : List (Action S) → Action S
  | [] => succeed
  | first :: rest => first.andThen (sequence rest)

def Succeeds (action : Action S) (state : S) : Prop := (action state).exit = .returned true

instance (action : Action S) (state : S) : Decidable (action.Succeeds state) :=
  inferInstanceAs (Decidable (_ = _))

theorem andThen_of_succeeds {first next : Action S} {state : S} (ok : first.Succeeds state) :
    first.andThen next state = next (first state).state := by
  simp only [andThen, show (first state).exit = .returned true from ok]

theorem andThen_of_stops {first next : Action S} {state : S} (stops : ¬ first.Succeeds state) :
    first.andThen next state = first state := by
  unfold andThen
  split
  · next ok => exact absurd ok stops
  · rfl

theorem andThen_succeeds_iff {first next : Action S} {state : S} :
    (first.andThen next).Succeeds state ↔
      first.Succeeds state ∧ next.Succeeds (first state).state := by
  by_cases ok : first.Succeeds state
  · simp only [Succeeds, andThen_of_succeeds ok, show (first state).exit = .returned true from ok,
      true_and]
  · simp only [ok, false_and, iff_false]
    rw [Succeeds, andThen_of_stops ok]
    exact ok

theorem sequence_cons (first : Action S) (rest : List (Action S)) :
    sequence (first :: rest) = first.andThen (sequence rest) := rfl

theorem sequence_singleton (action : Action S) : sequence [action] = action := by
  funext state
  by_cases ok : action.Succeeds state
  · rw [sequence_cons, andThen_of_succeeds ok]
    exact congrArg (fun exit => Run.mk exit (action state).state) (Eq.symm ok)
  · exact andThen_of_stops ok

theorem andThen_assoc (first second third : Action S) :
    (first.andThen second).andThen third = first.andThen (second.andThen third) := by
  funext state
  by_cases ok : first.Succeeds state
  · rw [andThen_of_succeeds ok]
    by_cases also : second.Succeeds (first state).state
    · rw [andThen_of_succeeds also, andThen_of_succeeds (andThen_succeeds_iff.mpr ⟨ok, also⟩),
        andThen_of_succeeds ok]
    · rw [andThen_of_stops also, andThen_of_stops fun both => also (andThen_succeeds_iff.mp both).2,
        andThen_of_succeeds ok]
  · rw [andThen_of_stops ok, andThen_of_stops fun both => ok (andThen_succeeds_iff.mp both).1,
      andThen_of_stops ok]

theorem succeed_andThen (next : Action S) : succeed.andThen next = next := rfl

theorem sequence_append (before after : List (Action S)) :
    sequence (before ++ after) = (sequence before).andThen (sequence after) := by
  induction before with
  | nil => exact (succeed_andThen (sequence after)).symm
  | cons first rest ih => rw [List.cons_append, sequence_cons, ih, sequence_cons, andThen_assoc]

theorem andThen_returns_false_iff {first next : Action S} {state : S} :
    (first.andThen next state).exit = .returned false ↔
      (first state).exit = .returned false ∨
        first.Succeeds state ∧ (next (first state).state).exit = .returned false := by
  by_cases ok : first.Succeeds state
  · have exit : (first state).exit = .returned true := ok
    simp [andThen_of_succeeds ok, ok, exit]
  · simp [andThen_of_stops ok, ok]

def FailsIn : List (Action S) → S → Prop
  | [], _ => False
  | first :: rest, state =>
    (first state).exit = .returned false ∨ first.Succeeds state ∧ FailsIn rest (first state).state

theorem sequence_returns_false_iff {steps : List (Action S)} {state : S} :
    (sequence steps state).exit = .returned false ↔ FailsIn steps state := by
  induction steps generalizing state with
  | nil => simp [sequence, succeed, FailsIn]
  | cons first rest ih => rw [sequence_cons, andThen_returns_false_iff, FailsIn, ih]

def Moves (relation : S → S → Prop) (action : Action S) : Prop :=
  ∀ state, relation state (action state).state

section Moves
variable {relation : S → S → Prop} (refl : ∀ state, relation state state)
  (trans : ∀ first second third, relation first second → relation second third →
    relation first third)
include trans

theorem Moves.andThen {first next : Action S} (head : Moves relation first)
    (tail : Moves relation next) : Moves relation (first.andThen next) := by
  intro state
  by_cases ok : first.Succeeds state
  · rw [andThen_of_succeeds ok]
    exact trans _ _ _ (head state) (tail _)
  · rw [andThen_of_stops ok]
    exact head state

include refl in
theorem Moves.sequence {steps : List (Action S)} (each : ∀ step ∈ steps, Moves relation step) :
    Moves relation (sequence steps) := by
  induction steps with
  | nil => exact fun state => refl state
  | cons first rest ih =>
    exact Moves.andThen trans (each first List.mem_cons_self)
      (ih fun step member => each step (List.mem_cons_of_mem first member))

end Moves

end Action

theorem foldl_kept {S A : Type} {step : S → A → S} {invariant : S → Prop}
    (each : ∀ state item, invariant state → invariant (step state item)) (items : List A) {state : S}
    (holds : invariant state) : invariant (items.foldl step state) := by
  induction items generalizing state with
  | nil => exact holds
  | cons item rest ih => exact ih (each state item holds)

theorem foldlM_keeps {S A : Type} {step : S → A → Option S} (invariant : S → Prop)
    (each : ∀ state item after, step state item = some after → invariant state → invariant after)
    {items : List A} {before after : S} (run : items.foldlM step before = some after)
    (holds : invariant before) : invariant after := by
  induction items generalizing before with
  | nil =>
    cases run
    exact holds
  | cons item rest ih =>
    rw [List.foldlM_cons, Option.bind_eq_bind, Option.bind_eq_some_iff] at run
    obtain ⟨middle, first, others⟩ := run
    exact ih others (each before item middle first holds)

/-- A loop whose steps break on certain items, in any state, breaks exactly on a list with such an item. -/
theorem foldlM_eq_none_iff {S A : Type} {step : S → A → Option S} {breaks : A → Prop}
    (exact : ∀ state item, step state item = none ↔ breaks item) {items : List A} {start : S} :
    items.foldlM step start = none ↔ ∃ item ∈ items, breaks item := by
  induction items generalizing start with
  | nil => simp
  | cons item rest ih =>
    have here := exact start item
    rw [List.foldlM_cons, Option.bind_eq_bind]
    cases stepped : step start item with
    | none => exact ⟨fun _ => ⟨item, List.mem_cons_self, here.mp stepped⟩, fun _ => rfl⟩
    | some next =>
      have fine : ¬ breaks item := fun broken => by simp [here.mpr broken] at stepped
      rw [Option.bind_some, ih]
      simp [fine]

structure Visit (A S : Type) where
  exit : Exit
  item : A
  state : S

structure Swept (A S : Type) where
  exit : Exit
  items : List A
  state : S

section Sweep
variable {A S : Type} (visit : A → S → Visit A S)

/-- Handle the elements in order and stop at the first that does not succeed, which
leaves the elements after it as they were. -/
def sweep : List A → S → Swept A S
  | [], state => ⟨.returned true, [], state⟩
  | item :: rest, state =>
    let seen := visit item state
    if seen.exit = .returned true then
      let tail := sweep rest seen.state
      ⟨tail.exit, seen.item :: tail.items, tail.state⟩
    else ⟨seen.exit, seen.item :: rest, seen.state⟩

variable {visit}

theorem sweep_cons_of_success {item : A} {rest : List A} {state : S}
    (ok : (visit item state).exit = .returned true) :
    sweep visit (item :: rest) state =
      ⟨(sweep visit rest (visit item state).state).exit,
        (visit item state).item :: (sweep visit rest (visit item state).state).items,
        (sweep visit rest (visit item state).state).state⟩ := by
  simp only [sweep, ok, ↓reduceIte]

theorem sweep_cons_of_failure {item : A} {rest : List A} {state : S}
    (failed : (visit item state).exit ≠ .returned true) :
    sweep visit (item :: rest) state =
      ⟨(visit item state).exit, (visit item state).item :: rest, (visit item state).state⟩ := by
  simp only [sweep, failed, ↓reduceIte]

theorem sweep_cons_succeeds_iff {item : A} {rest : List A} {state : S} :
    (sweep visit (item :: rest) state).exit = .returned true ↔
      (visit item state).exit = .returned true ∧
        (sweep visit rest (visit item state).state).exit = .returned true := by
  by_cases seen : (visit item state).exit = .returned true
  · rw [sweep_cons_of_success seen]
    exact ⟨fun others => ⟨seen, others⟩, And.right⟩
  · rw [sweep_cons_of_failure seen]
    exact ⟨fun same => absurd same seen, And.left⟩

/-- The rule for a loop that may stop early: what every visit does, the loop does. -/
theorem sweep_moves (relation : S → S → Prop) (refl : ∀ state, relation state state)
    (trans : ∀ first second third, relation first second → relation second third →
      relation first third)
    (step : ∀ item state, relation state (visit item state).state) (items : List A) (state : S) :
    relation state (sweep visit items state).state := by
  induction items generalizing state with
  | nil => exact refl state
  | cons item rest ih =>
    by_cases seen : (visit item state).exit = .returned true
    · rw [sweep_cons_of_success seen]
      exact trans _ _ _ (step item state) (ih _)
    · rw [sweep_cons_of_failure seen]
      exact step item state

theorem sweep_visits {items : List A} {state : S} (ok : (sweep visit items state).exit = .returned true)
    {item : A} (member : item ∈ items) : ∃ state, (visit item state).exit = .returned true := by
  induction items generalizing state with
  | nil => cases member
  | cons first rest ih =>
    obtain ⟨here, later⟩ := sweep_cons_succeeds_iff.mp ok
    rcases List.mem_cons.mp member with rfl | member
    · exact ⟨state, here⟩
    · exact ih later member

theorem sweep_items {change : A → A} (same : ∀ item state, (visit item state).item = change item)
    {items : List A} {state : S} (ok : (sweep visit items state).exit = .returned true) :
    (sweep visit items state).items = items.map change := by
  induction items generalizing state with
  | nil => rfl
  | cons first rest ih =>
    obtain ⟨here, later⟩ := sweep_cons_succeeds_iff.mp ok
    rw [sweep_cons_of_success here, same, ih later, List.map_cons]

/-- A loop succeeds if each visit does, in the states that the visits lead to. -/
theorem sweep_succeeds_kept {invariant : S → Prop} {items : List A} {state : S}
    (each : ∀ item ∈ items, ∀ state, invariant state →
      (visit item state).exit = .returned true ∧ invariant (visit item state).state)
    (holds : invariant state) :
    (sweep visit items state).exit = .returned true ∧ invariant (sweep visit items state).state := by
  induction items generalizing state with
  | nil => exact ⟨rfl, holds⟩
  | cons first rest ih =>
    obtain ⟨here, later⟩ := List.forall_mem_cons.mp each
    obtain ⟨seen, kept⟩ := here state holds
    rw [sweep_cons_of_success seen]
    exact ih later kept

theorem sweep_succeeds {items : List A} {state : S}
    (each : ∀ item ∈ items, ∀ state, (visit item state).exit = .returned true) :
    (sweep visit items state).exit = .returned true := by
  have each' : ∀ item ∈ items, ∀ state, True → (visit item state).exit = .returned true ∧ True :=
    fun item member state _ => ⟨each item member state, trivial⟩
  exact (sweep_succeeds_kept each' trivial).1

theorem sweep_exits {ends : Exit → Prop} (done : ends (.returned true)) {items : List A} {state : S}
    (each : ∀ item ∈ items, ∀ state, ends (visit item state).exit) :
    ends (sweep visit items state).exit := by
  induction items generalizing state with
  | nil => exact done
  | cons first rest ih =>
    obtain ⟨here, later⟩ := List.forall_mem_cons.mp each
    by_cases seen : (visit first state).exit = .returned true
    · rw [sweep_cons_of_success seen]
      exact ih later
    · rw [sweep_cons_of_failure seen]
      exact here state

end Sweep

end ClrOci.Foundation
