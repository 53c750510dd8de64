import ClrOci.Foundation.Script

/-! What a pool of scripts has done: its steps in the order in which they were taken.

If each step does to an observed part of the state what its label says, then what is observed after
any interleaving is computed from the history, and nothing else of the scripts matters.
-/

set_option autoImplicit false

namespace ClrOci.Foundation

namespace Script
variable {L M S A : Type} {name : L → M}

def relabel (name : L → M) : Script L S A → Script M S A
  | .done result => .done result
  | .step label effect next => .step (name label) effect fun state => (next state).relabel name

theorem alone_relabel (script : Script L S A) (state : S) :
    (script.relabel name).alone state = script.alone state := by
  induction script generalizing state with
  | done result => rfl
  | step label effect next ih => exact ih state (effect state)

theorem Keeps.relabel {rely : M → S → Prop} {allowed : M → S → S → Prop} {script : Script L S A}
    (keeps : script.Keeps (fun label => rely (name label))
      fun label state state' _ => allowed (name label) state state') :
    (script.relabel name).Keeps rely fun label state state' _ => allowed label state state' := by
  induction script with
  | done result => trivial
  | step label effect next ih =>
    intro state relied
    obtain ⟨now, later⟩ := keeps state relied
    exact ⟨now, ih state later⟩

end Script

namespace Pool
variable {I L S A V : Type} [DecidableEq I]

/-- The labels of the steps that are taken, each with the state it is taken from. -/
def history (pool : Pool I L S A) : List I → List (L × S)
  | [] => []
  | i :: rest =>
    ((pool.scripts i).label?.map fun label => (label, pool.state)).toList ++ history (pool.step i) rest

def Observed (safe : S → Prop) (observe : S → V) (change : L → S → V → V) (script : Script L S A) : Prop :=
  script.Keeps (fun _ state => safe state) fun label before after _ =>
    safe after ∧ observe after = change label before (observe before)

variable {safe : S → Prop} {observe : S → V} {change : L → S → V → V} {pool : Pool I L S A}

theorem history_of_done {i : I} {result : A} (ended : pool.scripts i = .done result) (rest : List I) :
    pool.history (i :: rest) = pool.history rest := by
  rw [history, ended, step_of_done ended]
  rfl

theorem history_of_step {i : I} {label : L} {effect : S → S} {next : S → Script L S A}
    (here : pool.scripts i = .step label effect next) (rest : List I) :
    pool.history (i :: rest) = (label, pool.state) :: (pool.step i).history rest := by
  rw [history, here]
  rfl

theorem foldl_observed (observed : ∀ i, Observed safe observe change (pool.scripts i))
    (begun : safe pool.state) (schedule : List I) :
    (∀ i, Observed safe observe change ((schedule.foldl step pool).scripts i)) ∧
      safe (schedule.foldl step pool).state ∧
      observe (schedule.foldl step pool).state =
        (pool.history schedule).foldl (fun value taken => change taken.1 taken.2 value)
          (observe pool.state) := by
  induction schedule generalizing pool with
  | nil => exact ⟨observed, begun, rfl⟩
  | cons i rest ih =>
    cases here : pool.scripts i with
    | done result =>
      rw [List.foldl_cons, history_of_done here, step_of_done here]
      exact ih observed begun
    | step label effect next =>
      obtain ⟨⟨kept, seen⟩, further⟩ := keeps_step observed here begun
      have later := ih further (by rw [step_of_step here]; exact kept)
      rw [List.foldl_cons, history_of_step here, List.foldl_cons, ← seen]
      rw [step_of_step here] at later ⊢
      exact later

end Pool

end ClrOci.Foundation
