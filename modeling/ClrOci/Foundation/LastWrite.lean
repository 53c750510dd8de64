import ClrOci.Foundation.Steps

/-! Events that are folded into a state, a part of which each event writes or leaves alone. -/

set_option autoImplicit false

namespace ClrOci.Foundation

section LastWrite
variable {S E B : Type} {step : S → E → S} {kept : S → Prop} {part : S → B}
  {write : E → Option B}

structure Writes (step : S → E → S) (kept : S → Prop) (part : S → B) (write : E → Option B) :
    Prop where
  keeps : ∀ state event, kept state → kept (step state event)
  wrote : ∀ state event, kept state → part (step state event) = (write event).getD (part state)

namespace Writes

theorem unchanged (writes : Writes step kept part write) {events : List E} {state : S}
    (start : kept state) (quiet : ∀ event ∈ events, write event = none) :
    part (events.foldl step state) = part state := by
  induction events generalizing state with
  | nil => rfl
  | cons event events ih =>
    obtain ⟨here, later⟩ := List.forall_mem_cons.mp quiet
    rw [List.foldl_cons, ih (writes.keeps state event start) later, writes.wrote state event start, here]
    rfl

theorem last (writes : Writes step kept part write) {before after : List E} {event : E} {value : B}
    {state : S} (start : kept state) (written : write event = some value)
    (quiet : ∀ later ∈ after, write later = none) :
    part ((before ++ event :: after).foldl step state) = value := by
  have reached := foldl_kept writes.keeps before start
  rw [List.foldl_append, List.foldl_cons, writes.unchanged (writes.keeps _ event reached) quiet,
    writes.wrote _ event reached, written]
  rfl

end Writes

theorem foldl_count {counted : E → Bool} (number : S → Nat) (start : S)
    (keeps : ∀ state event, kept state → kept (step state event))
    (grows : ∀ state event, kept state →
      number (step state event) = number state + if counted event then 1 else 0)
    (events : List E) (reached : kept start) :
    number (events.foldl step start) = number start + events.countP counted := by
  induction events generalizing start with
  | nil => rfl
  | cons event events ih =>
    rw [List.foldl_cons, ih _ (keeps start event reached), grows start event reached, List.countP_cons]
    omega

/-- A part that only some of the events write is what those events make of it. -/
theorem foldl_filter {owned : E → Bool} {own : B → E → B}
    (writes : ∀ state event, part (step state event) =
      if owned event then own (part state) event else part state) (events : List E) (start : S) :
    part (events.foldl step start) = (events.filter owned).foldl own (part start) := by
  induction events generalizing start with
  | nil => rfl
  | cons event events ih =>
    rw [List.foldl_cons, ih, writes]
    cases mine : owned event with
    | true => rw [List.filter_cons_of_pos mine, List.foldl_cons, if_pos rfl]
    | false => rw [List.filter_cons_of_neg (by simp [mine]), if_neg (by simp)]

theorem foldlM_filter {step : S → E → Option S} {owned : E → Bool} {own : B → E → B} {events : List E}
    (writes : ∀ event ∈ events, ∀ state after, step state event = some after →
      part after = if owned event then own (part state) event else part state)
    {start final : S} (run : events.foldlM step start = some final) :
    part final = (events.filter owned).foldl own (part start) := by
  induction events generalizing start with
  | nil =>
    cases run
    rfl
  | cons event events ih =>
    obtain ⟨here, later⟩ := List.forall_mem_cons.mp writes
    rw [List.foldlM_cons, Option.bind_eq_bind, Option.bind_eq_some_iff] at run
    obtain ⟨middle, first, rest⟩ := run
    rw [ih later rest, here start middle first]
    cases mine : owned event with
    | true => rw [List.filter_cons_of_pos mine, List.foldl_cons, if_pos rfl]
    | false => rw [List.filter_cons_of_neg (by simp [mine]), if_neg (by simp)]

end LastWrite

end ClrOci.Foundation
