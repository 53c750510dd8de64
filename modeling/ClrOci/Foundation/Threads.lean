import ClrOci.Foundation.Script

/-! Threads: scripts that take given steps one after the other, whatever state they find.

After any interleaving the steps of a thread that were taken are a first part of its steps, in their
order, and the state is what the taken steps make of it.
-/

set_option autoImplicit false

namespace ClrOci.Foundation

namespace Script
variable {L S : Type}

def ofLabels (effect : L → S → S) : List L → Script L S Unit
  | [] => .done ()
  | label :: rest => .step label (effect label) fun _ => ofLabels effect rest

theorem ofLabels_eq_done {effect : L → S → S} {labels : List L}
    (ended : ofLabels effect labels = .done ()) : labels = [] := by
  cases labels with
  | nil => rfl
  | cons label rest => exact absurd ended (step_ne_done label (effect label) _ ())

end Script

def own {I L : Type} [DecidableEq I] (i : I) (taken : List (I × L)) : List L :=
  taken.filterMap fun entry => if entry.1 = i then some entry.2 else none

section Own
variable {I L M : Type} [DecidableEq I] {i j : I} {taken : List (I × L)}

@[simp] theorem own_nil : own i ([] : List (I × L)) = [] := rfl

@[simp] theorem own_cons_self (label : L) : own i ((i, label) :: taken) = label :: own i taken := by
  simp [own]

theorem own_cons_of_ne (other : i ≠ j) (label : L) : own j ((i, label) :: taken) = own j taken := by
  simp [own, other]

theorem mem_own {label : L} : label ∈ own i taken ↔ (i, label) ∈ taken := by
  simp [own]

/-- Picking from a common list and picking from what one owner has in it come to the same. -/
theorem own_filterMap (pick : L → Option M) (taken : List (I × L)) :
    own i (taken.filterMap fun entry => (pick entry.2).map (entry.1, ·)) = (own i taken).filterMap pick := by
  induction taken with
  | nil => rfl
  | cons entry rest ih =>
    obtain ⟨j, label⟩ := entry
    by_cases mine : j = i
    · subst mine
      cases picked : pick label <;> simp [picked, ih]
    · rw [own_cons_of_ne mine]
      cases picked : pick label with
      | none => simpa [picked] using ih
      | some found => simpa [picked, own_cons_of_ne mine] using ih

end Own

namespace Pool
variable {I L S : Type} [DecidableEq I] (effect : L → S → S)

def threads (labels : I → List L) (state : S) : Pool I L S Unit :=
  ⟨fun i => Script.ofLabels effect (labels i), state⟩

variable {effect} {labels : I → List L} {state : S} {i : I}

theorem step_threads_of_nil (ended : labels i = []) :
    (threads effect labels state).step i = threads effect labels state := by
  have done : (threads effect labels state).scripts i = .done () := by
    dsimp only [threads]
    rw [ended]
    rfl
  exact step_of_done done

theorem step_threads_of_cons {label : L} {rest : List L} (here : labels i = label :: rest) :
    (threads effect labels state).step i =
      threads effect (Function.update labels i rest) (effect label state) := by
  have next : (threads effect labels state).scripts i =
      .step label (effect label) fun _ => Script.ofLabels effect rest := by
    dsimp only [threads]
    rw [here]
    rfl
  rw [step_of_step next]
  apply congrArg (Pool.mk · (effect label state))
  funext j
  by_cases same : j = i
  · subst same
    simp
  · simp [same, threads]

/-- After any interleaving each thread has taken a first part of its steps, and the rest is left. -/
theorem foldl_threads (effect : L → S → S) (labels : I → List L) (state : S) (schedule : List I) :
    ∃ (taken : List (I × L)) (left : I → List L),
      schedule.foldl step (threads effect labels state) =
        threads effect left (taken.foldl (fun state entry => effect entry.2 state) state) ∧
      ∀ j, labels j = own j taken ++ left j := by
  induction schedule generalizing labels state with
  | nil => exact ⟨[], labels, rfl, fun j => rfl⟩
  | cons i rest ih =>
    cases here : labels i with
    | nil =>
      rw [List.foldl_cons, step_threads_of_nil here]
      exact ih labels state
    | cons label more =>
      obtain ⟨taken, left, run, split⟩ := ih (Function.update labels i more) (effect label state)
      refine ⟨(i, label) :: taken, left, ?_, fun j => ?_⟩
      · rw [List.foldl_cons, step_threads_of_cons here, run]
        rfl
      · have later := split j
        by_cases same : j = i
        · subst same
          rw [Function.update_self] at later
          rw [here, later, own_cons_self]
          rfl
        · rw [Function.update_of_ne same] at later
          rw [later, own_cons_of_ne (Ne.symm same)]

/-- The steps that one thread has taken are a first part of its steps, and all of them once it has
ended. -/
theorem foldl_threads_own (effect : L → S → S) (labels : I → List L) (state : S) (schedule : List I) :
    let after := schedule.foldl step (threads effect labels state)
    ∃ taken : List (I × L), after.state = taken.foldl (fun state entry => effect entry.2 state) state ∧
      ∀ j, own j taken <+: labels j ∧ (after.scripts j = .done () → own j taken = labels j) := by
  obtain ⟨taken, left, run, split⟩ := foldl_threads effect labels state schedule
  refine ⟨taken, by rw [run]; rfl, fun j => ⟨⟨left j, (split j).symm⟩, fun ended => ?_⟩⟩
  rw [run] at ended
  have nothing : left j = [] := Script.ofLabels_eq_done ended
  rw [split j, nothing, List.append_nil]

end Pool

end ClrOci.Foundation
