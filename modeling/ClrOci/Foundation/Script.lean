import ClrOci.Foundation.Runs
import ClrOci.Foundation.Steps
import Mathlib.Logic.Function.Basic

/-! Programs that run at the same time over one state.

A script is a sequential program whose atomic steps are visible; between two of them other
scripts may run. A pool runs its scripts in the order that a schedule gives, and every
interleaving of their steps is the run of some schedule.
-/

set_option autoImplicit false

namespace ClrOci.Foundation

/-- A program that ends with a result, or takes a labelled atomic step and goes on. What it goes on
with may depend on the state that the step finds. -/
inductive Script (L S A : Type) where
  | done (result : A)
  | step (label : L) (effect : S → S) (next : S → Script L S A)

namespace Script
variable {L S A B : Type}

theorem step_ne_done (label : L) (effect : S → S) (next : S → Script L S A) (result : A) :
    Script.step label effect next ≠ .done result := fun same => nomatch same

def alone : Script L S A → S → A × S
  | .done result, state => (result, state)
  | .step _ effect next, state => alone (next state) (effect state)

def bind : Script L S A → (A → Script L S B) → Script L S B
  | .done result, rest => rest result
  | .step label effect next, rest => .step label effect fun state => bind (next state) rest

theorem alone_bind (script : Script L S A) (rest : A → Script L S B) (state : S) :
    (script.bind rest).alone state = (rest (script.alone state).1).alone (script.alone state).2 := by
  induction script generalizing state with
  | done result => rfl
  | step label effect next ih => exact ih state (effect state)

theorem bind_assoc {C : Type} (script : Script L S A) (first : A → Script L S B)
    (second : B → Script L S C) :
    (script.bind first).bind second = script.bind fun result => (first result).bind second := by
  induction script with
  | done result => rfl
  | step label effect next ih => exact congrArg (Script.step label effect) (funext ih)

theorem bind_done (script : Script L S A) : script.bind .done = script := by
  induction script with
  | done result => rfl
  | step label effect next ih => exact congrArg (Script.step label effect) (funext ih)

def sweep (label : A → L) (visit : A → S → Visit A S) : List A → Script L S (Exit × List A)
  | [] => .done (.returned true, [])
  | item :: rest => .step (label item) (fun state => (visit item state).state) fun state =>
    let seen := visit item state
    if seen.exit = .returned true then
      (sweep label visit rest).bind fun tail => .done (tail.1, seen.item :: tail.2)
    else .done (seen.exit, seen.item :: rest)

theorem alone_sweep (label : A → L) (visit : A → S → Visit A S) (items : List A) (state : S) :
    (sweep label visit items).alone state =
      (((Foundation.sweep visit items state).exit, (Foundation.sweep visit items state).items),
        (Foundation.sweep visit items state).state) := by
  induction items generalizing state with
  | nil => rfl
  | cons item rest ih =>
    rw [sweep, alone]
    by_cases seen : (visit item state).exit = .returned true
    · rw [sweep_cons_of_success seen, if_pos seen, alone_bind, ih]
      rfl
    · rw [sweep_cons_of_failure seen, if_neg seen]
      rfl

def result? : Script L S A → Option A
  | .done result => some result
  | .step _ _ _ => none

def label? : Script L S A → Option L
  | .done _ => none
  | .step label _ _ => some label

/-- Every step of the script that is taken from a state it may rely on keeps a guarantee: of its
label, of the states before and after it, and of the script that is left. -/
def Keeps (rely : L → S → Prop) (guarantee : L → S → S → Script L S A → Prop) :
    Script L S A → Prop
  | .done _ => True
  | .step label effect next => ∀ state, rely label state →
    guarantee label state (effect state) (next state) ∧ Keeps rely guarantee (next state)

theorem Keeps.mono {rely stronger : L → S → Prop} {guarantee weaker : L → S → S → Script L S A → Prop}
    (relied : ∀ label state, stronger label state → rely label state)
    (kept : ∀ label state state' next, guarantee label state state' next →
      weaker label state state' next) {script : Script L S A} (keeps : script.Keeps rely guarantee) :
    script.Keeps stronger weaker := by
  induction script with
  | done result => trivial
  | step label effect next ih =>
    intro state allowed
    obtain ⟨now, later⟩ := keeps state (relied label state allowed)
    exact ⟨kept _ _ _ _ now, ih state later⟩

section Allowed
variable {rely : L → S → Prop} {allowed : L → S → S → Prop}

theorem Keeps.bind {script : Script L S A} {rest : A → Script L S B}
    (first : script.Keeps rely fun label state state' _ => allowed label state state')
    (further : ∀ result, (rest result).Keeps rely fun label state state' _ => allowed label state state') :
    (script.bind rest).Keeps rely fun label state state' _ => allowed label state state' := by
  induction script with
  | done result => exact further result
  | step label effect next ih =>
    intro state relied
    obtain ⟨now, later⟩ := first state relied
    exact ⟨now, ih state later⟩

theorem keeps_sweep {label : A → L} {visit : A → S → Visit A S}
    (each : ∀ item state, rely (label item) state →
      allowed (label item) state (visit item state).state) (items : List A) :
    (sweep label visit items).Keeps rely fun label state state' _ => allowed label state state' := by
  induction items with
  | nil => trivial
  | cons item rest ih =>
    intro state relied
    refine ⟨each item state relied, ?_⟩
    dsimp only
    split
    · exact Keeps.bind ih fun _ => trivial
    · trivial

end Allowed

end Script

structure Pool (I L S A : Type) where
  scripts : I → Script L S A
  state : S

namespace Pool
variable {I L S A : Type} [DecidableEq I]

/-- One atomic step of one of the scripts, which does nothing once the script has ended. -/
def step (pool : Pool I L S A) (i : I) : Pool I L S A :=
  match pool.scripts i with
  | .done _ => pool
  | .step _ effect next =>
    ⟨Function.update pool.scripts i (next pool.state), effect pool.state⟩

variable {pool : Pool I L S A} {i j : I} {label : L} {effect : S → S} {next : S → Script L S A}
  {result : A}

theorem step_of_step (here : pool.scripts i = .step label effect next) :
    pool.step i = ⟨Function.update pool.scripts i (next pool.state), effect pool.state⟩ := by
  rw [step, here]

theorem step_of_done (ended : pool.scripts i = .done result) : pool.step i = pool := by
  rw [step, ended]

theorem step_scripts_self (here : pool.scripts i = .step label effect next) :
    (pool.step i).scripts i = next pool.state := by
  rw [step_of_step here]
  exact Function.update_self i (next pool.state) pool.scripts

@[simp] theorem step_scripts_of_ne (other : j ≠ i) : (pool.step i).scripts j = pool.scripts j := by
  cases here : pool.scripts i with
  | done result => rw [step_of_done here]
  | step label effect next =>
    rw [step_of_step here]
    simp [other]

/-- What holds of a script still holds of it after any step, if its own steps keep it. -/
theorem step_script {motive : Script L S A → Prop} (now : motive (pool.scripts j))
    (own : ∀ label effect next, pool.scripts j = .step label effect next → i = j →
      motive (next pool.state)) : motive ((pool.step i).scripts j) := by
  by_cases same : j = i
  · subst same
    cases here : pool.scripts j with
    | done result =>
      rw [step_of_done here]
      rwa [here] at now ⊢
    | step label effect next =>
      rw [step_scripts_self here]
      exact own label effect next here rfl
  · rw [step_scripts_of_ne same]
    exact now

theorem step_keeps_done (ended : pool.scripts j = .done result) :
    (pool.step i).scripts j = .done result := by
  refine step_script (motive := fun script => script = .done result) ended ?_
  intro label effect next here _
  cases ended.symm.trans here

theorem foldl_keeps_done (ended : pool.scripts j = .done result) (schedule : List I) :
    (schedule.foldl step pool).scripts j = .done result := by
  induction schedule generalizing pool with
  | nil => exact ended
  | cons i rest ih => exact ih (step_keeps_done ended)

theorem foldl_waits {blocked : L → Prop} (here : pool.scripts i = .step label effect next)
    (waits : blocked label) {schedule : List I}
    (avoids : Along step (fun pool j => ∀ label, (pool.scripts j).label? = some label → ¬ blocked label)
      pool schedule) :
    (schedule.foldl step pool).scripts i = .step label effect next := by
  induction schedule generalizing pool with
  | nil => exact here
  | cons j rest ih =>
    have other : i ≠ j := by
      intro same
      subst same
      exact avoids.1 label (by rw [here]; rfl) waits
    exact ih ((step_scripts_of_ne other).trans here) avoids.2

section Keeps
variable {rely : I → L → S → Prop} {guarantee : I → L → S → S → Script L S A → Prop}

/-- The rule for a pool whose scripts each keep a guarantee: the step of one of them, from a state it
may rely on, keeps its guarantee and leaves all of them keeping theirs. -/
theorem keeps_step (keeps : ∀ j, (pool.scripts j).Keeps (rely j) (guarantee j))
    (here : pool.scripts i = .step label effect next) (relied : rely i label pool.state) :
    guarantee i label pool.state (effect pool.state) (next pool.state) ∧
      ∀ j, ((pool.step i).scripts j).Keeps (rely j) (guarantee j) := by
  have mine := keeps i
  rw [here] at mine
  obtain ⟨kept, further⟩ := mine pool.state relied
  refine ⟨kept, fun j => ?_⟩
  by_cases same : j = i
  · subst same
    rw [step_scripts_self here]
    exact further
  · rw [step_scripts_of_ne same]
    exact keeps j

end Keeps

end Pool

end ClrOci.Foundation
