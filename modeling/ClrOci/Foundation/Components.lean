import ClrOci.Foundation.Runs
import Mathlib.Logic.Function.Basic

/-! Specifications with many alike components, and machines that simulate a specification.

A specification relates states; an input is addressed to one component, and the others stay as they
are. What a machine does is then a run of the specification, and a run of the specification is, for
each component, a run of its own under the inputs addressed to it.
-/

set_option autoImplicit false

namespace ClrOci.Foundation

section Paths
variable {Y A : Type}

inductive Path (spec : Y → A → Y → Prop) : Y → List A → Y → Prop where
  | done (state : Y) : Path spec state [] state
  | move {first second last : Y} {input : A} {rest : List A} (now : spec first input second)
      (later : Path spec second rest last) : Path spec first (input :: rest) last

variable {spec weaker : Y → A → Y → Prop} {first second last : Y} {inputs more : List A}

theorem Path.append (early : Path spec first inputs second) (late : Path spec second more last) :
    Path spec first (inputs ++ more) last := by
  induction early with
  | done state => exact late
  | move now later ih => exact .move now (ih late)

theorem Path.mono (implied : ∀ state input next, spec state input next → weaker state input next)
    (path : Path spec first inputs last) : Path weaker first inputs last := by
  induction path with
  | done state => exact .done state
  | move now later ih => exact .move (implied _ _ _ now) ih

theorem Path.eq_of_nil (path : Path spec first [] last) : last = first := by
  cases path
  rfl

theorem Path.keeps {invariant : Y → Prop}
    (kept : ∀ state input next, spec state input next → invariant state → invariant next)
    (path : Path spec first inputs last) (holds : invariant first) : invariant last := by
  induction path with
  | done state => exact holds
  | move now later ih => exact ih (kept _ _ _ now holds)

end Paths

section Components
variable {I Y A : Type} [DecidableEq I] (spec : Y → A → Y → Prop)

structure Addressed (before : I → Y) (input : I × A) (after : I → Y) : Prop where
  moves : spec (before input.1) input.2 (after input.1)
  others : ∀ other, other ≠ input.1 → after other = before other

def addressedTo (part : I) (inputs : List (I × A)) : List A :=
  (inputs.filter fun input => input.1 = part).map Prod.snd

variable {spec} {before after : I → Y} {inputs : List (I × A)} {part : I}

theorem addressedTo_cons_self (input : A) :
    addressedTo part ((part, input) :: inputs) = input :: addressedTo part inputs := by
  simp [addressedTo]

theorem addressedTo_cons_of_ne {other : I} (apart : other ≠ part) (input : A) :
    addressedTo part ((other, input) :: inputs) = addressedTo part inputs := by
  simp [addressedTo, apart]

theorem Path.component (path : Path (Addressed spec) before inputs after) (part : I) :
    Path spec (before part) (addressedTo part inputs) (after part) := by
  induction path with
  | done state => exact .done _
  | @move first second last input rest now later ih =>
    obtain ⟨target, input⟩ := input
    by_cases same : target = part
    · subst same
      rw [addressedTo_cons_self]
      exact .move now.moves ih
    · rw [addressedTo_cons_of_ne same, ← now.others part (Ne.symm same)]
      exact ih

theorem Path.untouched (path : Path (Addressed spec) before inputs after)
    (none : ∀ input ∈ inputs, input.1 ≠ part) : after part = before part := by
  have alone := path.component part
  have silent : addressedTo part inputs = [] := by
    rw [addressedTo, List.map_eq_nil_iff, List.filter_eq_nil_iff]
    intro input member
    simp [none input member]
  rw [silent] at alone
  exact alone.eq_of_nil

end Components

section Simulation
variable {X Y A : Type} (step : X → A → X) (spec : Y → A → Y → Prop) (related : X → Y → Prop)
  (allowed : X → A → Prop)

def Simulates : Prop :=
  ∀ state abstract input, related state abstract → allowed state input →
    ∃ next, spec abstract input next ∧ related (step state input) next

variable {step spec related allowed}

theorem Simulates.run (simulates : Simulates step spec related allowed) {state : X} {abstract : Y}
    {inputs : List A} (start : related state abstract) (fine : Along step allowed state inputs) :
    ∃ final, Path spec abstract inputs final ∧ related (inputs.foldl step state) final := by
  induction inputs generalizing state abstract with
  | nil => exact ⟨abstract, .done abstract, start⟩
  | cons input rest ih =>
    obtain ⟨next, now, held⟩ := simulates state abstract input start fine.1
    obtain ⟨final, later, reached⟩ := ih held fine.2
    exact ⟨final, .move now later, reached⟩

end Simulation

end ClrOci.Foundation
