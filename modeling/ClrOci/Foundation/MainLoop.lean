import Mathlib.Data.List.Basic

/-! A main loop that dispatches the events of one iteration after another.

An iteration dispatches everything that is ready in it, also what comes after the event that told
the loop to quit.
-/

set_option autoImplicit false

namespace ClrOci.Foundation

section MainLoop
variable {S E : Type} (dispatch : S → E → S) (quit : S → Bool)

def iterate : List (List E) → S → Option S
  | [], _ => none
  | iteration :: rest, state =>
    let after := iteration.foldl dispatch state
    if quit after then some after else iterate rest after

variable {dispatch quit} {state : S} {iterations : List (List E)}

/-- A loop that ends has dispatched the iterations up to the first one after which it had to quit. -/
theorem iterate_eq_some_iff {after : S} :
    iterate dispatch quit iterations state = some after ↔
      ∃ before iteration rest, iterations = before ++ iteration :: rest ∧
        (∀ early, early ≠ [] → early <+: before → quit (early.flatten.foldl dispatch state) = false) ∧
        quit after = true ∧ (before.flatten ++ iteration).foldl dispatch state = after := by
  induction iterations generalizing state with
  | nil =>
    constructor
    · intro none
      cases none
    · rintro ⟨before, iteration, rest, whole, _⟩
      exact absurd whole.symm (List.append_ne_nil_of_right_ne_nil before (List.cons_ne_nil iteration rest))
  | cons first others ih =>
    rw [iterate]
    cases ends : quit (first.foldl dispatch state) with
    | true =>
      simp only [↓reduceIte, Option.some.injEq]
      constructor
      · intro same
        subst same
        refine ⟨[], first, others, rfl, fun early some within => ?_, ends, by simp⟩
        exact absurd (List.prefix_nil.mp within) some
      · rintro ⟨before, iteration, rest, whole, unquit, _, same⟩
        cases before with
        | nil =>
          obtain ⟨rfl, _⟩ := List.cons.inj whole
          simpa using same
        | cons head tail =>
          obtain ⟨rfl, _⟩ := List.cons.inj whole
          have early := unquit [first] (List.cons_ne_nil _ _) ⟨tail, rfl⟩
          simp only [List.flatten_cons, List.flatten_nil, List.append_nil, ends] at early
          cases early
    | false =>
      simp only [Bool.false_eq_true, ↓reduceIte]
      rw [ih]
      constructor
      · rintro ⟨before, iteration, rest, rfl, unquit, quits, same⟩
        refine ⟨first :: before, iteration, rest, rfl, fun early some within => ?_, quits, ?_⟩
        · cases early with
          | nil => exact absurd rfl some
          | cons head tail =>
            obtain ⟨rfl, within'⟩ := List.cons_prefix_cons.mp within
            rw [List.flatten_cons, List.foldl_append]
            cases tail with
            | nil => exact ends
            | cons => exact unquit _ (List.cons_ne_nil _ _) within'
        · rw [List.flatten_cons, List.append_assoc, List.foldl_append]
          exact same
      · rintro ⟨before, iteration, rest, whole, unquit, quits, same⟩
        cases before with
        | nil =>
          obtain ⟨rfl, _⟩ := List.cons.inj whole
          rw [List.flatten_nil, List.nil_append] at same
          rw [same, quits] at ends
          cases ends
        | cons head tail =>
          obtain ⟨rfl, rfl⟩ := List.cons.inj whole
          refine ⟨tail, iteration, rest, rfl, fun early some within => ?_, quits, ?_⟩
          · have longer : first :: early <+: first :: tail := List.cons_prefix_cons.mpr ⟨rfl, within⟩
            have later := unquit (first :: early) (List.cons_ne_nil _ _) longer
            rwa [List.flatten_cons, List.foldl_append] at later
          · rwa [List.flatten_cons, List.append_assoc, List.foldl_append] at same

theorem forall_upto {property : E → Prop} {before rest : List (List E)} {iteration : List E}
    (each : ∀ iteration ∈ iterations, ∀ event ∈ iteration, property event)
    (whole : iterations = before ++ iteration :: rest) :
    ∀ event ∈ before.flatten ++ iteration, property event := by
  intro event member
  subst whole
  rcases List.mem_append.mp member with early | here
  · obtain ⟨front, inside, among⟩ := List.mem_flatten.mp early
    exact each front (List.mem_append_left _ inside) event among
  · exact each iteration (by simp) event here

section Invariant
variable {invariant : S → Prop} {property : E → Prop}

theorem foldl_dispatch (kept : ∀ state event, invariant state → property event →
      invariant (dispatch state event)) {iteration : List E} (holds : invariant state)
    (each : ∀ event ∈ iteration, property event) : invariant (iteration.foldl dispatch state) := by
  induction iteration generalizing state with
  | nil => exact holds
  | cons event rest ih =>
    exact ih (kept state event holds (each event List.mem_cons_self))
      fun other member => each other (List.mem_cons_of_mem event member)

/-- An awaited event is not missed: if it ends the loop wherever it comes, and the loop that is told
to quit stays so, then the loop ends. -/
theorem iterate_ends {awaited : E} (kept : ∀ state event, invariant state → property event →
      invariant (dispatch state event))
    (ends : ∀ state event, invariant state → property event → event = awaited ∨ quit state = true →
      quit (dispatch state event) = true)
    (holds : invariant state) (each : ∀ iteration ∈ iterations, ∀ event ∈ iteration, property event)
    (comes : ∃ iteration ∈ iterations, awaited ∈ iteration) :
    ∃ after, iterate dispatch quit iterations state = some after ∧ invariant after ∧ quit after = true := by
  have noticed : ∀ {iteration : List E} {state : S}, invariant state →
      (∀ event ∈ iteration, property event) →
      awaited ∈ iteration ∨ quit state = true → quit (iteration.foldl dispatch state) = true := by
    intro iteration
    induction iteration with
    | nil => exact fun _ _ either => either.resolve_left List.not_mem_nil
    | cons event rest ih =>
      intro state holds each either
      have here := each event List.mem_cons_self
      apply ih (kept state event holds here) fun other member =>
        each other (List.mem_cons_of_mem event member)
      rcases either with member | quits
      · rcases List.mem_cons.mp member with same | later
        · exact Or.inr (ends state event holds here (Or.inl same.symm))
        · exact Or.inl later
      · exact Or.inr (ends state event holds here (Or.inr quits))
  induction iterations generalizing state with
  | nil =>
    obtain ⟨_, member, _⟩ := comes
    cases member
  | cons first rest ih =>
    have now := each first List.mem_cons_self
    have reached := foldl_dispatch kept holds now
    rw [iterate]
    cases quits : quit (first.foldl dispatch state) with
    | true => exact ⟨_, if_pos rfl, reached, quits⟩
    | false =>
      simp only [Bool.false_eq_true, ↓reduceIte]
      apply ih reached fun iteration member => each iteration (List.mem_cons_of_mem first member)
      obtain ⟨iteration, member, here⟩ := comes
      rcases List.mem_cons.mp member with same | later
      · subst same
        rw [noticed holds now (Or.inl here)] at quits
        cases quits
      · exact ⟨iteration, later, here⟩

end Invariant

end MainLoop

end ClrOci.Foundation
