import Mathlib.Data.List.Basic

/-! Runs of a machine that is given one input after another, and what holds all along a run. -/

set_option autoImplicit false

namespace ClrOci.Foundation

variable {X A : Type} (step : X → A → X)

/-- A property of every step of a run, at the state that the step is taken from. -/
def Along (property : X → A → Prop) : X → List A → Prop
  | _, [] => True
  | state, input :: rest => property state input ∧ Along property (step state input) rest

instance Along.decidable (property : X → A → Prop) [∀ state input, Decidable (property state input)] :
    ∀ state inputs, Decidable (Along step property state inputs)
  | _, [] => isTrue trivial
  | state, input :: rest =>
    have := Along.decidable property (step state input) rest
    inferInstanceAs (Decidable (property state input ∧ Along step property (step state input) rest))

variable {step} {property other : X → A → Prop} {state : X} {inputs : List A}

@[simp] theorem along_nil : Along step property state [] ↔ True := Iff.rfl

@[simp] theorem along_cons {input : A} {rest : List A} :
    Along step property state (input :: rest) ↔
      property state input ∧ Along step property (step state input) rest := Iff.rfl

theorem along_append {before after : List A} :
    Along step property state (before ++ after) ↔
      Along step property state before ∧ Along step property (before.foldl step state) after := by
  induction before generalizing state with
  | nil => simp
  | cons input rest ih => simp only [List.cons_append, along_cons, ih, List.foldl_cons, and_assoc]

theorem Along.mono (weaker : ∀ state input, property state input → other state input)
    (holds : Along step property state inputs) : Along step other state inputs := by
  induction inputs generalizing state with
  | nil => trivial
  | cons input rest ih => exact ⟨weaker state input holds.1, ih holds.2⟩

theorem along_iff_split :
    Along step property state inputs ↔
      ∀ before input after, inputs = before ++ input :: after →
        property (before.foldl step state) input := by
  constructor
  · rintro holds before input after rfl
    exact (along_append.mp holds).2.1
  · intro each
    induction inputs generalizing state with
    | nil => trivial
    | cons input rest ih =>
      refine ⟨each [] input rest rfl, ih fun before next after same => ?_⟩
      exact each (input :: before) next after (congrArg (input :: ·) same)

section Invariant
variable (invariant : X → Prop)

/-- The rule for a run whose steps keep an invariant when they have a property. -/
theorem foldl_keeps (kept : ∀ state input, invariant state → property state input →
      invariant (step state input)) (holds : invariant state)
    (steps : Along step property state inputs) : invariant (inputs.foldl step state) := by
  induction inputs generalizing state with
  | nil => exact holds
  | cons input rest ih => exact ih (kept state input holds steps.1) steps.2

/-- Along a run whose steps keep an invariant when they have a property, they have what follows. -/
theorem Along.of_invariant (kept : ∀ state input, invariant state → property state input →
      invariant (step state input))
    (each : ∀ state input, invariant state → property state input → other state input)
    (holds : invariant state) (steps : Along step property state inputs) :
    Along step other state inputs := by
  induction inputs generalizing state with
  | nil => trivial
  | cons input rest ih =>
    exact ⟨each state input holds steps.1, ih (kept state input holds steps.1) steps.2⟩

variable (kept : ∀ state input, invariant state → invariant (step state input))
include kept

theorem along_congr (same : ∀ state input, invariant state → (property state input ↔ other state input))
    (holds : invariant state) : Along step property state inputs ↔ Along step other state inputs := by
  induction inputs generalizing state with
  | nil => exact Iff.rfl
  | cons input rest ih =>
    rw [along_cons, along_cons, same state input holds, ih (kept state input holds)]

/-- When a step keeps a property of states exactly on a condition, so does a run. -/
theorem along_states_iff {good : X → Prop}
    (exactly : ∀ state input, invariant state → good state →
      (good (step state input) ↔ property state input)) (holds : invariant state) (fine : good state) :
    Along step (fun state input => good (step state input)) state inputs ↔
      Along step property state inputs := by
  induction inputs generalizing state with
  | nil => exact Iff.rfl
  | cons input rest ih =>
    rw [along_cons, along_cons, exactly state input holds fine]
    refine and_congr_right fun condition => ?_
    exact ih (kept state input holds) ((exactly state input holds fine).mpr condition)

end Invariant

end ClrOci.Foundation
