import Mathlib.Data.List.Basic

/-! Lexicographic comparison of lists, and where two comparisons of their members part. -/

set_option autoImplicit false

namespace ClrOci.Foundation

section Lexicographic
variable {A : Type} {cmp cmp' : A → A → Ordering} {differ : A → A → Prop}
  {first second : List A}

def FirstPair (differ : A → A → Prop) (first second : List A) : Prop :=
  ∃ common x y xs ys, first = common ++ x :: xs ∧ second = common ++ y :: ys ∧ x ≠ y ∧ differ x y

theorem not_firstPair_nil_left : ¬ FirstPair differ [] second := by
  rintro ⟨common, x, y, xs, ys, left, _⟩
  cases common <;> cases left

theorem not_firstPair_nil_right : ¬ FirstPair differ first [] := by
  rintro ⟨common, x, y, xs, ys, _, right, _⟩
  cases common <;> cases right

theorem firstPair_cons_self {x : A} :
    FirstPair differ (x :: first) (x :: second) ↔ FirstPair differ first second := by
  constructor
  · rintro ⟨common, a, b, xs, ys, left, right, apart, pair⟩
    cases common with
    | nil =>
      cases left
      cases right
      exact absurd rfl apart
    | cons c common =>
      cases left
      cases right
      exact ⟨common, a, b, xs, ys, rfl, rfl, apart, pair⟩
  · rintro ⟨common, a, b, xs, ys, rfl, rfl, apart, pair⟩
    exact ⟨x :: common, a, b, xs, ys, rfl, rfl, apart, pair⟩

theorem firstPair_cons_of_ne {x y : A} (apart : x ≠ y) :
    FirstPair differ (x :: first) (y :: second) ↔ differ x y := by
  constructor
  · rintro ⟨common, a, b, xs, ys, left, right, _, pair⟩
    cases common with
    | nil =>
      cases left
      cases right
      exact pair
    | cons c common =>
      cases left
      cases right
      exact absurd rfl apart
  · exact fun pair => ⟨[], x, y, first, second, rfl, rfl, apart, pair⟩

/-- Comparisons that tell the same members apart agree on two lists exactly if they agree on the first
pair of members that differ. -/
theorem compareLex_eq_iff (exact : ∀ x y, cmp x y = .eq ↔ x = y)
    (exact' : ∀ x y, cmp' x y = .eq ↔ x = y) :
    first.compareLex cmp second = first.compareLex cmp' second ↔
      ¬ FirstPair (fun x y => cmp x y ≠ cmp' x y) first second := by
  induction first generalizing second with
  | nil =>
    cases second with
    | nil => exact ⟨fun _ => not_firstPair_nil_left, fun _ => rfl⟩
    | cons y ys => exact ⟨fun _ => not_firstPair_nil_left, fun _ => rfl⟩
  | cons x xs ih =>
    cases second with
    | nil => exact ⟨fun _ => not_firstPair_nil_right, fun _ => rfl⟩
    | cons y ys =>
      rw [List.compareLex_cons_cons, List.compareLex_cons_cons]
      by_cases same : x = y
      · subst same
        rw [(exact x x).mpr rfl, (exact' x x).mpr rfl, firstPair_cons_self]
        exact ih
      · have decided (order : A → A → Ordering) (other : order x y ≠ .eq) (later : Ordering) :
            (order x y).then later = order x y := by
          cases found : order x y with
          | eq => exact absurd found other
          | lt => rfl
          | gt => rfl
        rw [decided cmp (mt (exact x y).mp same), decided cmp' (mt (exact' x y).mp same),
          firstPair_cons_of_ne same, not_not]

theorem then_congr_iff {here later later' : Ordering} :
    here.then later = here.then later' ↔ (here = .eq → later = later') := by
  cases here
  · exact ⟨fun _ same => absurd same (by decide), fun _ => rfl⟩
  · exact ⟨fun same _ => same, fun same => same rfl⟩
  · exact ⟨fun _ same => absurd same (by decide), fun _ => rfl⟩

theorem compareLex_map {B : Type} (value : B → A) (first second : List B) :
    (first.map value).compareLex cmp (second.map value) =
      first.compareLex (fun x y => cmp (value x) (value y)) second := by
  induction first generalizing second with
  | nil => cases second <;> rfl
  | cons x xs ih =>
    cases second with
    | nil => rfl
    | cons y ys =>
      rw [List.map_cons, List.map_cons, List.compareLex_cons_cons, List.compareLex_cons_cons, ih]

theorem compareLex_congr {first second : List A}
    (same : ∀ x ∈ first, ∀ y ∈ second, cmp x y = cmp' x y) :
    first.compareLex cmp second = first.compareLex cmp' second := by
  induction first generalizing second with
  | nil => cases second <;> rfl
  | cons x xs ih =>
    cases second with
    | nil => rfl
    | cons y ys =>
      rw [List.compareLex_cons_cons, List.compareLex_cons_cons,
        same x List.mem_cons_self y List.mem_cons_self]
      congr 1
      exact ih fun a left b right => same a (List.mem_cons_of_mem x left) b (List.mem_cons_of_mem y right)

theorem compareLex_append (reflexive : ∀ x, cmp x x = .eq) (common : List A) :
    (common ++ first).compareLex cmp (common ++ second) = first.compareLex cmp second := by
  induction common with
  | nil => rfl
  | cons x common ih =>
    rw [List.cons_append, List.cons_append, List.compareLex_cons_cons, reflexive, ih]
    rfl

theorem compareLex_self (reflexive : ∀ x, cmp x x = .eq) (items : List A) :
    items.compareLex cmp items = .eq := by
  have passed : (items ++ []).compareLex cmp (items ++ []) = [].compareLex cmp [] :=
    compareLex_append reflexive items
  rwa [List.append_nil] at passed

theorem orientedCmp_on {B : Type} [Std.OrientedCmp cmp] (value : B → A) :
    Std.OrientedCmp fun x y => cmp (value x) (value y) where
  eq_swap {x y} := @Std.OrientedCmp.eq_swap _ cmp _ (value x) (value y)

theorem transCmp_on {B : Type} [Std.TransCmp cmp] (value : B → A) :
    Std.TransCmp fun x y => cmp (value x) (value y) where
  eq_swap {x y} := @Std.OrientedCmp.eq_swap _ cmp _ (value x) (value y)
  isLE_trans {x y z} := @Std.TransCmp.isLE_trans _ cmp _ (value x) (value y) (value z)

end Lexicographic

end ClrOci.Foundation
