import Mathlib.Data.List.Basic

/-! Taking items out of a table one after the other, up to the first that is refused.

A drain that was interrupted has already taken some items out. Whether a second one
can finish the work depends on how it treats the items that are gone.
-/

set_option autoImplicit false

namespace ClrOci.Foundation

section Drain
variable {A : Type} [DecidableEq A]

def drain (allowed : List A → A → Bool) : List A → List A → Bool × List A
  | [], table => (true, table)
  | item :: rest, table =>
    if allowed table item then drain allowed rest (table.erase item) else (false, table)

variable {allowed : List A → A → Bool} {item fault : A} {items rest before after table : List A}

theorem drain_of_refused (refused : allowed table item = false) :
    drain allowed (item :: rest) table = (false, table) := by
  rw [drain, refused]
  rfl

theorem drain_append (ok : (drain allowed before table).1 = true) :
    drain allowed (before ++ after) table = drain allowed after (drain allowed before table).2 := by
  induction before generalizing table with
  | nil => rfl
  | cons item rest ih =>
    cases permitted : allowed table item with
    | true =>
      simp only [List.cons_append, drain, permitted, ↓reduceIte] at ok ⊢
      exact ih ok
    | false =>
      rw [drain_of_refused permitted] at ok
      cases ok

theorem drain_table (ok : (drain allowed items table).1 = true) :
    (drain allowed items table).2 = table.diff items := by
  induction items generalizing table with
  | nil => rfl
  | cons item rest ih =>
    cases permitted : allowed table item with
    | true =>
      simp only [drain, permitted, ↓reduceIte, List.diff_cons] at ok ⊢
      exact ih ok
    | false =>
      rw [drain_of_refused permitted] at ok
      cases ok

theorem drain_of_present (distinct : items.Nodup) (present : ∀ item ∈ items, item ∈ table)
    (each : ∀ table, ∀ item ∈ items, item ∈ table → allowed table item = true) :
    drain allowed items table = (true, table.diff items) := by
  induction items generalizing table with
  | nil => rfl
  | cons item rest ih =>
    obtain ⟨fresh, others⟩ := List.nodup_cons.mp distinct
    have permitted := each table item List.mem_cons_self (present item List.mem_cons_self)
    have kept : ∀ other ∈ rest, other ∈ table.erase item := by
      intro other member
      have different : other ≠ item := fun same => fresh (same ▸ member)
      exact (List.mem_erase_of_ne different).mpr (present other (List.mem_cons_of_mem item member))
    rw [drain, if_pos permitted, List.diff_cons]
    apply ih others kept
    exact fun table other member => each table other (List.mem_cons_of_mem item member)

omit [DecidableEq A] in
theorem split_at_position {k : Nat} (position : items[k]? = some fault) :
    items = items.take k ++ fault :: items.drop (k + 1) := by
  obtain ⟨inside, found⟩ := List.getElem?_eq_some_iff.mp position
  rw [← found, ← List.drop_eq_getElem_cons inside, List.take_append_drop]

/-- A fault at one item leaves the items before it taken out, and the others in place. -/
theorem drain_of_fault (distinct : items.Nodup) (present : ∀ item ∈ items, item ∈ table) {k : Nat}
    (position : items[k]? = some fault)
    (policy : ∀ table item, allowed table item = (table.contains item && item != fault)) :
    drain allowed items table = (false, table.diff (items.take k)) := by
  have whole := split_at_position position
  generalize items.take k = before at whole ⊢
  generalize items.drop (k + 1) = after at whole
  subst whole
  obtain ⟨front, _, apart⟩ := List.nodup_append.mp distinct
  have there : ∀ item ∈ before, item ∈ table := fun item member =>
    present item (List.mem_append_left _ member)
  have each : ∀ table, ∀ item ∈ before, item ∈ table → allowed table item = true := by
    intro table item member found
    have different : item ≠ fault := apart item member fault List.mem_cons_self
    simp [policy, found, different]
  have reached := drain_of_present front there each
  rw [drain_append (by rw [reached]), reached]
  exact drain_of_refused (by simp [policy])

theorem not_mem_diff_of_once (once : table.count item ≤ 1) (listed : item ∈ items) :
    item ∉ table.diff items := by
  induction items generalizing table with
  | nil => cases listed
  | cons head rest ih =>
    rw [List.diff_cons]
    rcases List.mem_cons.mp listed with rfl | later
    · intro member
      have left : item ∈ table.erase item := List.diff_subset _ _ member
      have count := List.count_pos_iff.mpr left
      rw [List.count_erase_self] at count
      omega
    · apply ih _ later
      exact Nat.le_trans (List.erase_sublist.count_le item) once

/-- A drain that insists on finding every item completes an interrupted one exactly if that
one was interrupted at the first item. -/
theorem drain_again_iff (distinct : items.Nodup) (once : ∀ item ∈ items, table.count item = 1)
    {k : Nat} (inside : k < items.length)
    (policy : ∀ table item, allowed table item = table.contains item) :
    (drain allowed items (table.diff (items.take k))).1 = true ↔ k = 0 := by
  have present : ∀ item ∈ items, item ∈ table := fun item member =>
    List.count_pos_iff.mp (by rw [once item member]; omega)
  constructor
  · intro completed
    cases items with
    | nil => cases inside
    | cons item rest =>
      by_contra later
      have taken : item ∈ (item :: rest).take k := by
        cases k with
        | zero => exact absurd rfl later
        | succ k => exact List.mem_cons_self
      have gone : item ∉ table.diff ((item :: rest).take k) :=
        not_mem_diff_of_once (Nat.le_of_eq (once item List.mem_cons_self)) taken
      rw [drain_of_refused (by rw [policy, List.contains_eq_mem, decide_eq_false gone])] at completed
      cases completed
  · rintro rfl
    rw [List.take_zero, List.diff_nil, drain_of_present distinct present fun table item _ there => by
      simp [policy, there]]

theorem allowed_stacked_iff {below : A → A → Bool} (irreflexive : ∀ item, below item item = false)
    (policy : ∀ table item, allowed table item = (table.contains item && !table.any (below item)))
    {base : List A} (stacked : table.Perm (item :: rest ++ base)) :
    allowed table item = true ↔
      (∀ other ∈ rest, below item other = false) ∧ ∀ other ∈ base, below item other = false := by
  have there : item ∈ table := stacked.mem_iff.mpr List.mem_cons_self
  have clear : table.any (below item) = false ↔ ∀ other ∈ item :: rest ++ base, below item other = false := by
    rw [List.any_eq_false]
    exact ⟨fun all other member => Bool.eq_false_iff.mpr (all other (stacked.mem_iff.mpr member)),
      fun all other member => Bool.eq_false_iff.mp (all other (stacked.mem_iff.mp member))⟩
  rw [policy, List.contains_eq_mem, decide_eq_true there, Bool.true_and, Bool.not_eq_true', clear]
  constructor
  · intro all
    refine ⟨fun other member => all other ?_, fun other member => all other ?_⟩
    · exact List.mem_append_left _ (List.mem_cons_of_mem item member)
    · exact List.mem_append_right _ member
  · rintro ⟨others, others'⟩ other member
    rcases List.mem_append.mp member with listed | outside
    · rcases List.mem_cons.mp listed with rfl | later
      · exact irreflexive other
      · exact others other later
    · exact others' other outside

/-- Taking the items out in the order they were put in succeeds exactly if no item was put
below an earlier one, and nothing else is below an item. -/
theorem drain_stacked_iff {below : A → A → Bool} (irreflexive : ∀ item, below item item = false)
    (policy : ∀ table item, allowed table item = (table.contains item && !table.any (below item)))
    {base : List A} (stacked : table.Perm (items ++ base)) :
    (drain allowed items table).1 = true ∧ (drain allowed items table).2.Perm base ↔
      items.Pairwise (fun first second => below first second = false) ∧
        ∀ item ∈ items, ∀ other ∈ base, below item other = false := by
  induction items generalizing table with
  | nil => exact ⟨fun _ => ⟨List.Pairwise.nil, by simp⟩, fun _ => ⟨rfl, stacked⟩⟩
  | cons item rest ih =>
    have first := allowed_stacked_iff irreflexive policy stacked
    rw [List.pairwise_cons, List.forall_mem_cons]
    cases permitted : allowed table item with
    | true =>
      obtain ⟨others, others'⟩ := first.mp permitted
      have left : (table.erase item).Perm (rest ++ base) := by
        have erased := stacked.erase item
        rwa [List.cons_append, List.erase_cons_head] at erased
      rw [drain, if_pos permitted, ih left]
      exact ⟨fun ⟨pairs, outside⟩ => ⟨⟨others, pairs⟩, others', outside⟩,
        fun ⟨⟨_, pairs⟩, _, outside⟩ => ⟨pairs, outside⟩⟩
    | false =>
      rw [drain_of_refused permitted]
      constructor
      · rintro ⟨impossible, _⟩
        cases impossible
      · rintro ⟨⟨others, _⟩, others', _⟩
        rw [first.mpr ⟨others, others'⟩] at permitted
        cases permitted

end Drain

end ClrOci.Foundation
