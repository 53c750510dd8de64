import Mathlib.Data.List.Basic

/-! Steps that work on separate parts of a state, and runs of them in any order. -/

set_option autoImplicit false

namespace ClrOci.Foundation

structure Slot (S : Type) where
  Value : Type
  get : S → Value
  put : S → Value → S

structure Slot.Apart {S : Type} (first second : Slot S) : Prop where
  getFirst : ∀ state value, first.get (second.put state value) = first.get state
  getSecond : ∀ state value, second.get (first.put state value) = second.get state
  swap : ∀ state value value',
    second.put (first.put state value) value' = first.put (second.put state value') value

section Slots
variable {S T A : Type}

theorem Slot.Apart.symm {first second : Slot S} (apart : first.Apart second) : second.Apart first :=
  ⟨apart.getSecond, apart.getFirst, fun state value value' => (apart.swap state value' value).symm⟩

def Slot.Confines (slot : Slot S) (step : S → Option S) : Prop :=
  ∃ update : slot.Value → Option slot.Value,
    ∀ state, step state = (update (slot.get state)).map (slot.put state)

theorem Slot.Apart.commute {first second : Slot S} (apart : first.Apart second) {early late : S → Option S}
    (confined : first.Confines early) (confined' : second.Confines late) (state : S) :
    (early state).bind late = (late state).bind early := by
  obtain ⟨update, same⟩ := confined
  obtain ⟨update', same'⟩ := confined'
  rw [same, same']
  cases found : update (first.get state) with
  | none =>
    cases found' : update' (second.get state) with
    | none => rfl
    | some value' =>
      simp only [Option.map_none, Option.bind_none, Option.map_some, Option.bind_some]
      rw [same, apart.getFirst, found]
      rfl
  | some value =>
    simp only [Option.map_some, Option.bind_some]
    rw [same', apart.getSecond]
    cases found' : update' (second.get state) with
    | none => rfl
    | some value' =>
      simp only [Option.map_some, Option.bind_some]
      rw [same, apart.getFirst, found, Option.map_some, apart.swap]

theorem foldlM_perm {step : S → A → Option S} {inputs others : List A} (same : inputs.Perm others)
    (commute : ∀ a ∈ inputs, ∀ b ∈ inputs, ∀ state,
      (step state a).bind (step · b) = (step state b).bind (step · a)) (state : S) :
    inputs.foldlM step state = others.foldlM step state := by
  induction same generalizing state with
  | nil => rfl
  | cons head _ ih =>
    rw [List.foldlM_cons, List.foldlM_cons]
    apply congrArg
    funext next
    apply ih
    exact fun a member b member' => commute a (List.mem_cons_of_mem head member) b
      (List.mem_cons_of_mem head member')
  | swap first second rest =>
    have swapped := commute first (List.mem_cons_of_mem _ List.mem_cons_self) second List.mem_cons_self
    simp only [List.foldlM_cons, Option.bind_eq_bind]
    rw [← Option.bind_assoc, ← Option.bind_assoc, swapped]
  | trans first _ ih ih' =>
    rw [ih commute]
    apply ih'
    exact fun a member b member' => commute a (first.mem_iff.mpr member) b (first.mem_iff.mpr member')

/-- A run seen through a view of its states, when each step can be seen through it. -/
theorem foldlM_view {step : S → A → Option S} {step' : T → A → Option T} {view : S → T}
    (each : ∀ state input, (step state input).map view = step' (view state) input) (inputs : List A)
    (state : S) :
    (inputs.foldlM step state).map view = inputs.foldlM step' (view state) := by
  induction inputs generalizing state with
  | nil => rfl
  | cons input rest ih =>
    rw [List.foldlM_cons, List.foldlM_cons, ← each]
    cases step state input with
    | none => rfl
    | some next => exact ih next

end Slots

end ClrOci.Foundation
