import Mathlib.Data.List.Basic

/-! Sequences that separators cut into groups, and items that are built group by group. -/

set_option autoImplicit false

namespace ClrOci.Foundation

section Groups
variable {N : Type} {ends : N → Bool}

theorem splitOnP_append_of_none {group rest : List N} (inside : ∀ node ∈ group, ends node = false) :
    (group ++ rest).splitOnP ends = (rest.splitOnP ends).modifyHead (group ++ ·) := by
  induction group with
  | nil =>
    have same : (([] : List N) ++ ·) = id := rfl
    rw [same, List.modifyHead_id]
    rfl
  | cons node group ih =>
    obtain ⟨here, later⟩ := List.forall_mem_cons.mp inside
    rw [List.cons_append, List.splitOnP_cons_eq_if_modifyHead, if_neg (by simp [here]), ih later]
    cases rest.splitOnP ends <;> rfl

theorem splitOnP_blocks {separator : N} (stops : ends separator = true) {blocks : List (List N)}
    (inside : ∀ block ∈ blocks, ∀ node ∈ block, ends node = false) :
    (blocks.flatMap (separator :: ·)).splitOnP ends = [] :: blocks := by
  induction blocks with
  | nil => exact List.splitOnP_nil
  | cons block blocks ih =>
    obtain ⟨here, later⟩ := List.forall_mem_cons.mp inside
    rw [List.flatMap_cons, List.cons_append, List.splitOnP_cons_eq_if_modifyHead, if_pos stops,
      splitOnP_append_of_none here, ih later]
    simp

theorem not_ends_of_mem_splitOnP {nodes group : List N} (member : group ∈ nodes.splitOnP ends) :
    ∀ node ∈ group, ends node = false := by
  induction nodes generalizing group with
  | nil => simp_all [List.splitOnP_nil]
  | cons node nodes ih =>
    rw [List.splitOnP_cons_eq_if_modifyHead] at member
    cases stops : ends node with
    | true =>
      rw [if_pos stops, List.mem_cons] at member
      rcases member with rfl | later
      · simp
      · exact ih later
    | false =>
      rw [if_neg (by simp [stops])] at member
      cases split : nodes.splitOnP ends with
      | nil => exact absurd split (List.splitOnP_ne_nil ends nodes)
      | cons first others =>
        rw [split, List.modifyHead_cons, List.mem_cons] at member
        rcases member with rfl | later
        · exact List.forall_mem_cons.mpr ⟨stops, ih (split ▸ List.mem_cons_self)⟩
        · exact ih (split ▸ List.mem_cons_of_mem first later)

end Groups

section Collect
variable {G A : Type} (build : G → Option (List A))

def join (saved : List A) : Option (List A) → Bool × List A
  | none => (false, saved)
  | some built => (true, saved ++ built)

def collect : List A → List G → Bool × List A
  | saved, [] => (true, saved)
  | saved, group :: rest =>
    match build group with
    | none => (false, saved)
    | some built => collect (saved ++ built) rest

variable {build}

theorem collect_refuses_iff {saved : List A} {groups : List G} :
    (collect build saved groups).1 = false ↔ ∃ group ∈ groups, build group = none := by
  induction groups generalizing saved with
  | nil => simp [collect]
  | cons group groups ih =>
    rw [collect]
    cases built : build group with
    | none => simp [built]
    | some items => simp [built, ih]

theorem collect_map {B : Type} {group : B → G} {item : B → A} {sources : List B}
    (built : ∀ source ∈ sources, build (group source) = some [item source]) (saved : List A) :
    collect build saved (sources.map group) = (true, saved ++ sources.map item) := by
  induction sources generalizing saved with
  | nil => simp [collect]
  | cons source sources ih =>
    obtain ⟨here, later⟩ := List.forall_mem_cons.mp built
    rw [List.map_cons, collect, here]
    dsimp only
    rw [ih later, List.map_cons, List.append_assoc, List.singleton_append]

end Collect

section Grouped
variable {S N A : Type} {step : S → N → S} {close : S → S} {ends : N → Bool} {valid : S → Prop}

/-- Where a separator closes a group, a run that is closed at its end closes every group. -/
theorem close_foldl_eq_groups (keeps : ∀ state node, valid state → valid (step state node))
    (closes : ∀ state node, valid state → ends node = true → step state node = close state)
    (nodes : List N) {start : S} (reached : valid start) :
    close (nodes.foldl step start) =
      (nodes.splitOnP ends).foldl (fun state group => close (group.foldl step state)) start := by
  induction nodes generalizing start with
  | nil => rfl
  | cons node nodes ih =>
    have later := ih (keeps start node reached)
    rw [List.foldl_cons, later, List.splitOnP_cons_eq_if_modifyHead]
    cases stops : ends node with
    | true => rw [if_pos rfl, List.foldl_cons, List.foldl_nil, closes start node reached stops]
    | false =>
      rw [if_neg (by simp)]
      cases split : nodes.splitOnP ends with
      | nil => exact absurd split (List.splitOnP_ne_nil ends nodes)
      | cons group groups => rfl

section Building
variable {build : List N → Option (List A)} {outcome : Bool × List A → S}

theorem foldl_groups_eq_collect {groups : List (List N)}
    (builds : ∀ saved, ∀ group ∈ groups, close (group.foldl step (outcome (true, saved))) =
      outcome (join saved (build group)))
    (stuck : ∀ saved, ∀ group ∈ groups, close (group.foldl step (outcome (false, saved))) =
      outcome (false, saved)) (saved : List A) :
    groups.foldl (fun state group => close (group.foldl step state)) (outcome (true, saved)) =
      outcome (collect build saved groups) := by
  have refused (saved : List A) {groups : List (List N)}
      (stuck : ∀ group ∈ groups, close (group.foldl step (outcome (false, saved))) =
        outcome (false, saved)) :
      groups.foldl (fun state group => close (group.foldl step state)) (outcome (false, saved)) =
        outcome (false, saved) := by
    induction groups with
    | nil => rfl
    | cons group groups ih =>
      obtain ⟨here, later⟩ := List.forall_mem_cons.mp stuck
      rw [List.foldl_cons, here, ih later]
  induction groups generalizing saved with
  | nil => rfl
  | cons group groups ih =>
    have here := builds saved group List.mem_cons_self
    rw [List.foldl_cons, here, collect]
    cases build group with
    | none => exact refused saved fun later member => stuck saved later (List.mem_cons_of_mem group member)
    | some built =>
      exact ih (fun saved later member => builds saved later (List.mem_cons_of_mem group member))
        (fun saved later member => stuck saved later (List.mem_cons_of_mem group member)) (saved ++ built)

/-- A run that builds or refuses each group, and is then stuck, collects what is built. -/
theorem close_foldl_eq_collect (keeps : ∀ state node, valid state → valid (step state node))
    (closes : ∀ state node, valid state → ends node = true → step state node = close state)
    (builds : ∀ saved group, (∀ node ∈ group, ends node = false) →
      close (group.foldl step (outcome (true, saved))) = outcome (join saved (build group)))
    (stuck : ∀ (saved : List A) (group : List N), close (group.foldl step (outcome (false, saved))) =
      outcome (false, saved)) (nodes : List N) {saved : List A} (reached : valid (outcome (true, saved))) :
    close (nodes.foldl step (outcome (true, saved))) =
      outcome (collect build saved (nodes.splitOnP ends)) := by
  rw [close_foldl_eq_groups keeps closes nodes reached]
  apply foldl_groups_eq_collect
  · intro saved group member
    exact builds saved group (not_ends_of_mem_splitOnP member)
  · intro saved group _
    exact stuck saved group

end Building

end Grouped

end ClrOci.Foundation
