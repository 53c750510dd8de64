import Mathlib.Data.List.Infix
import Mathlib.Data.List.Nodup

/-! Tags between delimiters, the replacement of a first occurrence, and that of all tags at once in a
text that has them at most once and apart.
-/

set_option autoImplicit false

namespace ClrOci.Foundation

section Lists
variable {α : Type}

theorem before_delimiter {d : α} {word word' rest rest' : List α} (apart : d ∉ word)
    (apart' : d ∉ word') (same : word ++ d :: rest = word' ++ d :: rest') :
    word = word' ∧ rest = rest' := by
  induction word generalizing word' with
  | nil =>
    cases word' with
    | nil => exact ⟨rfl, (List.cons.inj same).2⟩
    | cons c word' => exact absurd List.mem_cons_self ((List.cons.inj same).1 ▸ apart')
  | cons c word ih =>
    cases word' with
    | nil => exact absurd List.mem_cons_self ((List.cons.inj same).1 ▸ apart)
    | cons c' word' =>
      obtain ⟨rfl, later⟩ := List.cons.inj same
      obtain ⟨rfl, rfl⟩ := ih (mt (List.mem_cons_of_mem c) apart) (mt (List.mem_cons_of_mem c) apart') later
      exact ⟨rfl, rfl⟩

end Lists

structure Tag {α : Type} (d : α) where
  name : List α
  value : List α
  apart : d ∉ name

namespace Tag
variable {α : Type} {d : α}

def text (tag : Tag d) : List α := d :: (tag.name ++ [d])

theorem text_length (tag : Tag d) : tag.text.length = tag.name.length + 2 := by simp [text]

theorem text_ne_nil (tag : Tag d) : tag.text ≠ [] := List.cons_ne_nil _ _

theorem name_of_start {tag tag' : Tag d} {rest rest' : List α}
    (same : tag.text ++ rest = tag'.text ++ rest') : tag.name = tag'.name ∧ rest = rest' := by
  have inner : tag.name ++ d :: rest = tag'.name ++ d :: rest' := by
    simpa [text] using same
  exact before_delimiter tag.apart tag'.apart inner

/-- A part of a tag that starts with the delimiter, and not at its start, is its last delimiter. -/
theorem last_part {tag : Tag d} {before rest : List α} (some : before ≠ [])
    (parts : tag.text = before ++ d :: rest) : rest = [] ∧ before = d :: tag.name := by
  obtain ⟨first, before, rfl⟩ := List.exists_cons_of_ne_nil some
  obtain ⟨rfl, inner⟩ := List.cons.inj parts
  rcases List.append_eq_append_iff.mp inner with ⟨between, longer, ends⟩ | ⟨between, shorter, ends⟩
  · cases between with
    | nil => exact ⟨(List.cons.inj ends).2.symm, by rw [longer, List.append_nil]⟩
    | cons c between =>
      have lengths := congrArg List.length ends
      simp at lengths
  · cases between with
    | nil => exact ⟨(List.cons.inj ends).2, by rw [shorter, List.append_nil]⟩
    | cons c between =>
      obtain ⟨rfl, -⟩ := List.cons.inj ends
      exact absurd (shorter ▸ by simp) tag.apart

theorem name_of_inside {tag tag' : Tag d} (inside : tag.text <:+: tag'.text) :
    tag.name = tag'.name := by
  obtain ⟨before, after, parts⟩ := inside
  cases before with
  | nil =>
    have same : tag.text ++ after = tag'.text ++ [] := by simpa using parts
    exact (name_of_start same).1
  | cons c before =>
    have shape : tag'.text = (c :: before) ++ d :: (tag.name ++ [d] ++ after) := by
      rw [← parts]
      simp [text]
    obtain ⟨none, -⟩ := last_part (List.cons_ne_nil c before) shape
    simp at none

theorem length_of_inside {tag tag' : Tag d} (inside : tag.text <:+: tag'.text) :
    tag.text.length = tag'.text.length := by
  rw [text_length, text_length, name_of_inside inside]

end Tag

section Replace
variable {α : Type} [DecidableEq α]

def replaceFirst (pattern value : List α) : List α → List α
  | [] => []
  | c :: rest =>
    if pattern.isPrefixOf (c :: rest) then value ++ (c :: rest).drop pattern.length
    else c :: replaceFirst pattern value rest

variable {pattern value text : List α}

theorem replaceFirst_of_absent (absent : ¬ pattern <:+: text) : replaceFirst pattern value text = text := by
  induction text with
  | nil => rfl
  | cons c text ih =>
    have noPrefix : ¬ pattern <+: c :: text := fun starts => absent starts.isInfix
    have later : ¬ pattern <:+: text := fun inside => absent (inside.trans (List.suffix_cons c text).isInfix)
    rw [replaceFirst, if_neg (by simpa using noPrefix), ih later]

theorem replaceFirst_of_first {before after : List α} (some : pattern ≠ [])
    (first : ¬ pattern <:+: before ++ pattern.dropLast) :
    replaceFirst pattern value (before ++ pattern ++ after) = before ++ value ++ after := by
  induction before with
  | nil =>
    obtain ⟨c, rest, rfl⟩ := List.exists_cons_of_ne_nil some
    simp [replaceFirst]
  | cons c before ih =>
    have noPrefix : ¬ pattern <+: c :: (before ++ pattern ++ after) := by
      intro starts
      have shorter : c :: (before ++ pattern.dropLast) <+: c :: (before ++ pattern ++ after) := by
        rw [List.append_assoc]
        have cut := (List.dropLast_prefix pattern).trans (List.prefix_append pattern after)
        exact List.cons_prefix_cons.mpr ⟨rfl, (List.prefix_append_right_inj before).mpr cut⟩
      apply first
      apply List.IsPrefix.isInfix
      apply List.prefix_of_prefix_length_le starts shorter
      simp
      omega
    have later : ¬ pattern <:+: before ++ pattern.dropLast :=
      fun inside => first (List.infix_cons_iff.mpr (Or.inr inside))
    rw [List.cons_append, List.cons_append, replaceFirst, if_neg (by simpa using noPrefix), ih later]
    rfl

theorem replaceFirst_self : replaceFirst pattern pattern text = text := by
  induction text with
  | nil => rfl
  | cons c text ih =>
    rw [replaceFirst, ih]
    split
    · next starts =>
      obtain ⟨rest, parts⟩ := List.isPrefixOf_iff_prefix.mp starts
      rw [← parts, List.drop_left]
    · rfl

theorem replaceFirst_append_of_present (value : List α) {first : List α} (some : pattern ≠ [])
    (present : pattern <:+: first) :
    ∃ replaced, ∀ rest, replaceFirst pattern value (first ++ rest) = replaced ++ rest := by
  induction first with
  | nil => exact absurd (List.infix_nil.mp present) some
  | cons c first ih =>
    by_cases starts : pattern <+: c :: first
    · obtain ⟨after, parts⟩ := starts
      refine ⟨value ++ after, fun rest => ?_⟩
      have also : pattern <+: c :: (first ++ rest) := ⟨after ++ rest, by
        rw [← List.append_assoc, parts, List.cons_append]⟩
      have dropped : (c :: (first ++ rest)).drop pattern.length = after ++ rest := by
        rw [← List.cons_append, ← parts, List.append_assoc, List.drop_left]
      rw [List.cons_append, replaceFirst, if_pos (by simpa using also), dropped, List.append_assoc]
    · have inside : pattern <:+: first := (List.infix_cons_iff.mp present).resolve_left starts
      obtain ⟨replaced, later⟩ := ih inside
      refine ⟨c :: replaced, fun rest => ?_⟩
      have noPrefix : ¬ pattern <+: c :: (first ++ rest) := by
        intro also
        apply starts
        apply List.prefix_of_prefix_length_le also (List.prefix_append (c :: first) rest)
        exact Nat.le_succ_of_le inside.length_le
      rw [List.cons_append, replaceFirst, if_neg (by simpa using noPrefix), later, List.cons_append]

end Replace

section Expand
variable {α : Type} [DecidableEq α] {d : α} {table : List (Tag d)}

def expandFrom (table : List (Tag d)) : Nat → List α → List α
  | _, [] => []
  | skip + 1, _ :: rest => expandFrom table skip rest
  | 0, c :: rest =>
    match table.find? fun tag => tag.text.isPrefixOf (c :: rest) with
    | some tag => tag.value ++ expandFrom table (tag.name.length + 1) rest
    | none => c :: expandFrom table 0 rest

def expand (table : List (Tag d)) (text : List α) : List α := expandFrom table 0 text

def Untagged (table : List (Tag d)) (text : List α) : Prop := ∀ tag ∈ table, ¬ tag.text <+: text

theorem expandFrom_eq (table : List (Tag d)) (skip : Nat) (text : List α) :
    expandFrom table skip text = expand table (text.drop skip) := by
  induction skip generalizing text with
  | zero => rfl
  | succ skip ih =>
    cases text with
    | nil => rfl
    | cons c rest => rw [expandFrom, ih, List.drop_succ_cons]

theorem expand_cons {c : α} {rest : List α} (untagged : Untagged table (c :: rest)) :
    expand table (c :: rest) = c :: expand table rest := by
  have none : table.find? (fun tag => tag.text.isPrefixOf (c :: rest)) = none := by
    rw [List.find?_eq_none]
    intro tag member
    simpa using untagged tag member
  rw [expand, expandFrom, none]
  rfl

theorem expand_tag (distinct : (table.map Tag.name).Nodup) {tag : Tag d} (member : tag ∈ table)
    (rest : List α) : expand table (tag.text ++ rest) = tag.value ++ expand table rest := by
  have found : table.find? (fun other => other.text.isPrefixOf (tag.text ++ rest)) = some tag := by
    cases found : table.find? (fun other => other.text.isPrefixOf (tag.text ++ rest)) with
    | none =>
      have untagged := List.find?_eq_none.mp found tag member
      simp at untagged
    | some other =>
      have starts := List.find?_some found
      obtain ⟨after, parts⟩ := List.isPrefixOf_iff_prefix.mp starts
      have same := (Tag.name_of_start parts).1
      rw [List.inj_on_of_nodup_map distinct (List.mem_of_find?_eq_some found) member same]
  have shape : tag.text ++ rest = d :: (tag.name ++ [d] ++ rest) := by simp [Tag.text]
  have skipped : (tag.name ++ [d] ++ rest).drop (tag.name.length + 1) = rest := by
    rw [← List.length_singleton (a := d), ← List.length_append, List.drop_left]
  rw [shape] at found ⊢
  rw [expand, expandFrom, found]
  dsimp only
  rw [expandFrom_eq, skipped]

omit [DecidableEq α] in
/-- A scan of a text: a tag is passed as a whole, everything else character by character. -/
theorem scan_induction (table : List (Tag d)) {motive : List α → Prop} (nil : motive [])
    (char : ∀ c rest, Untagged table (c :: rest) → motive rest → motive (c :: rest))
    (tag : ∀ tag ∈ table, ∀ rest, motive rest → motive (tag.text ++ rest)) (text : List α) :
    motive text := by
  induction bound : text.length using Nat.strongRecOn generalizing text with
  | ind n ih =>
    cases text with
    | nil => exact nil
    | cons c rest =>
      by_cases untagged : Untagged table (c :: rest)
      · exact char c rest untagged (ih rest.length (by simp at bound; omega) rest rfl)
      · simp only [Untagged, not_forall, not_not] at untagged
        obtain ⟨found, member, after, parts⟩ := untagged
        have shorter : after.length < n := by
          rw [← bound, ← parts, List.length_append, Tag.text_length]
          omega
        rw [← parts]
        exact tag found member after (ih after.length shorter after rfl)

theorem expand_of_free {text : List α} (free : ∀ tag ∈ table, ¬ tag.text <:+: text) :
    expand table text = text := by
  induction text with
  | nil => rfl
  | cons c text ih =>
    have untagged : Untagged table (c :: text) :=
      fun tag member starts => free tag member starts.isInfix
    have later : ∀ tag ∈ table, ¬ tag.text <:+: text :=
      fun tag member inside => free tag member (List.infix_cons_iff.mpr (Or.inr inside))
    rw [expand_cons untagged, ih later]

def Separate (table : List (Tag d)) (before after : List α) : Prop :=
  ∀ tag ∈ table, ∀ left right, left ≠ [] → right ≠ [] → tag.text = left ++ right →
    left <:+ before → ¬ right <+: after

theorem expand_append (distinct : (table.map Tag.name).Nodup) {before after : List α}
    (separate : Separate table before after) :
    expand table (before ++ after) = expand table before ++ expand table after := by
  induction before using scan_induction table with
  | nil => rfl
  | char c rest untagged ih =>
    have later : Separate table rest after := by
      intro tag member left right some some' parts ends
      exact separate tag member left right some some' parts (ends.trans (List.suffix_cons c rest))
    have together : Untagged table (c :: (rest ++ after)) := by
      rintro tag member ⟨remaining, parts⟩
      have shape : tag.text ++ remaining = (c :: rest) ++ after := by simpa using parts
      rcases List.append_eq_append_iff.mp shape with ⟨between, first, second⟩ | ⟨between, first, second⟩
      · exact untagged tag member ⟨between, first.symm⟩
      · cases between with
        | nil => exact untagged tag member ⟨[], by rw [first, List.append_nil, List.append_nil]⟩
        | cons e between =>
          exact separate tag member (c :: rest) (e :: between) (List.cons_ne_nil _ _)
            (List.cons_ne_nil _ _) first List.suffix_rfl ⟨remaining, second.symm⟩
    rw [List.cons_append, expand_cons together, expand_cons untagged, ih later, List.cons_append]
  | tag tag member rest ih =>
    have later : Separate table rest after := by
      intro other member' left right some some' parts ends
      exact separate other member' left right some some' parts
        (ends.trans (List.suffix_append tag.text rest))
    rw [List.append_assoc, expand_tag distinct member, expand_tag distinct member, ih later,
      List.append_assoc]

end Expand

section WellFormed
variable {α : Type} {d : α} {table : List (Tag d)} {text : List α}

def Once (table : List (Tag d)) (text : List α) : Prop :=
  ∀ tag ∈ table, ∀ before after before' after', text = before ++ tag.text ++ after →
    text = before' ++ tag.text ++ after' → before = before'

def Overlap (table : List (Tag d)) (text : List α) : Prop :=
  ∃ tag ∈ table, ∃ tag' ∈ table, ∃ left shared right, left ≠ [] ∧ shared ≠ [] ∧
    tag.text = left ++ shared ∧ tag'.text = shared ++ right ∧ left ++ shared ++ right <:+: text

structure WellFormed (table : List (Tag d)) (text : List α) : Prop where
  once : Once table text
  apart : ¬ Overlap table text

namespace WellFormed

theorem of_free (free : ∀ tag ∈ table, ¬ tag.text <:+: text) : WellFormed table text where
  once tag member before after _ _ parts _ := absurd ⟨before, after, parts.symm⟩ (free tag member)
  apart := by
    rintro ⟨tag, member, -, -, left, shared, right, -, -, parts, -, inside⟩
    apply free tag member
    rw [parts]
    exact (List.prefix_append _ right).isInfix.trans inside

theorem of_beginning {shorter : List α} (wellFormed : WellFormed table text) (starts : shorter <+: text) :
    WellFormed table shorter where
  once tag member before after before' after' parts parts' := by
    obtain ⟨rest, rfl⟩ := starts
    apply wellFormed.once tag member before (after ++ rest) before' (after' ++ rest)
    · rw [parts, List.append_assoc]
    · rw [parts', List.append_assoc]
  apart := by
    rintro ⟨tag, member, tag', member', left, shared, right, some, some', parts, parts', inside⟩
    exact wellFormed.apart ⟨tag, member, tag', member', left, shared, right, some, some', parts, parts',
      inside.trans starts.isInfix⟩

theorem of_ending {shorter : List α} (wellFormed : WellFormed table text)
    (ends : shorter <:+ text) : WellFormed table shorter := by
  obtain ⟨front, rfl⟩ := ends
  constructor
  · rintro tag member before after before' after' parts parts'
    have longer : front ++ shorter = front ++ before ++ tag.text ++ after := by
      rw [parts]
      simp
    have longer' : front ++ shorter = front ++ before' ++ tag.text ++ after' := by
      rw [parts']
      simp
    exact List.append_cancel_left (wellFormed.once tag member _ after _ after' longer longer')
  · rintro ⟨tag, member, tag', member', left, shared, right, some, some', parts, parts', inside⟩
    exact wellFormed.apart ⟨tag, member, tag', member', left, shared, right, some, some', parts, parts',
      inside.trans (List.suffix_append front shorter).isInfix⟩

variable {tag : Tag d} (member : tag ∈ table) {before after : List α}
  (wellFormed : WellFormed table (before ++ tag.text ++ after))
include member wellFormed

theorem separate_before : Separate table before (tag.text ++ after) := by
  rintro tag' member' left right some some' parts ⟨earlier, rfl⟩ ⟨later, starts⟩
  rcases List.append_eq_append_iff.mp starts with ⟨between, shorter, -⟩ | ⟨between, longer, -⟩
  · apply wellFormed.apart
    refine ⟨tag', member', tag, member, left, right, between, some, some', parts, shorter, ?_⟩
    exact ⟨earlier, after, by simp [shorter]⟩
  · have inside : tag.text <:+: tag'.text := ⟨left, between, by rw [parts, longer, List.append_assoc]⟩
    have lengths := Tag.length_of_inside inside
    have visible := List.length_pos_iff.mpr some
    rw [parts, longer, List.length_append, List.length_append] at lengths
    omega

theorem separate_after : Separate table tag.text after := by
  rintro tag' member' left right some some' parts ⟨earlier, ends⟩ ⟨later, starts⟩
  by_cases whole : earlier = []
  · have inside : tag.text <:+: tag'.text := ⟨[], right, by rw [parts, ← ends, whole]; rfl⟩
    have lengths := Tag.length_of_inside inside
    have visible := List.length_pos_iff.mpr some'
    rw [parts, ← ends, whole, List.nil_append, List.length_append] at lengths
    omega
  · apply wellFormed.apart
    refine ⟨tag, member, tag', member', earlier, left, right, whole, some, ends.symm, parts, ?_⟩
    exact ⟨before, later, by simp [← ends, ← starts]⟩

theorem absent_after : ¬ tag.text <:+: after := by
  rintro ⟨left, right, rfl⟩
  have same := wellFormed.once tag member before (left ++ tag.text ++ right)
    (before ++ tag.text ++ left) right rfl (by simp)
  have lengths := congrArg List.length same
  simp [Tag.text_length] at lengths

theorem absent_before : ¬ tag.text <:+: before ++ [d] := by
  rintro ⟨left, right, parts⟩
  have whole : before ++ tag.text ++ after = left ++ tag.text ++ (right ++ (tag.name ++ [d] ++ after)) := by
    have begun : before ++ tag.text ++ after = before ++ [d] ++ (tag.name ++ [d] ++ after) := by
      simp [Tag.text]
    rw [begun, ← parts]
    simp
  have same := wellFormed.once tag member before after left _ rfl whole
  have lengths := congrArg List.length parts
  rw [← same, List.length_append, List.length_append, List.length_append, Tag.text_length,
    List.length_singleton] at lengths
  omega

end WellFormed

end WellFormed

end ClrOci.Foundation
