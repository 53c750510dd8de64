import ClrOci.Foundation.Tags

/-! The values of tags put in one after the other, against all at once.

The values are put in one after the other by replacing the first occurrence of each tag
in turn, so that a later tag is also found in what an earlier one left behind.
-/

set_option autoImplicit false

namespace ClrOci.Foundation

section Sequence
variable {α : Type} [DecidableEq α] {d : α} {table earlier later : List (Tag d)} {tag : Tag d}
  {text : List α}

def MadeUp (earlier : List (Tag d)) (tag : Tag d) (text : List α) : Prop :=
  ¬ tag.text <:+: text ∧ tag.text <:+: expand earlier text

def Disturbs (earlier : List (Tag d)) (tag : Tag d) (text : List α) : Prop :=
  MadeUp earlier tag text ∨
    ∃ before after, text = before ++ tag.text ++ after ∧ MadeUp earlier tag (before ++ [d])

def Undisturbed (table : List (Tag d)) (text : List α) : Prop :=
  ∀ earlier tag later, table = earlier ++ tag :: later → tag.value ≠ tag.text →
    ¬ Disturbs earlier tag text

theorem expand_snoc_of_absent (distinct : ((earlier ++ [tag]).map Tag.name).Nodup)
    (absent : ¬ tag.text <:+: text) : expand (earlier ++ [tag]) text = expand earlier text := by
  have distinct' : (earlier.map Tag.name).Nodup :=
    distinct.sublist ((List.sublist_append_left earlier [tag]).map Tag.name)
  induction text using scan_induction earlier with
  | nil => rfl
  | char c rest untagged ih =>
    have later : ¬ tag.text <:+: rest := fun inside => absent (List.infix_cons_iff.mpr (Or.inr inside))
    have untagged' : Untagged (earlier ++ [tag]) (c :: rest) := by
      intro other member
      rcases List.mem_append.mp member with before | last
      · exact untagged other before
      · rw [List.mem_singleton.mp last]
        exact fun starts => absent starts.isInfix
    rw [expand_cons untagged', expand_cons untagged, ih later]
  | tag other member rest ih =>
    have later : ¬ tag.text <:+: rest :=
      fun inside => absent (inside.trans (List.suffix_append other.text rest).isInfix)
    rw [expand_tag distinct (List.mem_append_left [tag] member), expand_tag distinct' member, ih later]

omit [DecidableEq α] in
theorem Separate.mono {sub : List (Tag d)} {before after : List α} (separate : Separate table before after)
    (within : ∀ tag ∈ sub, tag ∈ table) : Separate sub before after :=
  fun tag member => separate tag (within tag member)

section Step
variable (distinct : ((earlier ++ tag :: later).map Tag.name).Nodup)
include distinct

omit [DecidableEq α] in
theorem distinct_snoc : ((earlier ++ [tag]).map Tag.name).Nodup := by
  have shorter : (earlier ++ [tag]).Sublist (earlier ++ tag :: later) :=
    (List.cons_sublist_cons.mpr (List.nil_sublist later)).append_left earlier
  exact List.Nodup.sublist (shorter.map Tag.name) distinct

omit [DecidableEq α] in
theorem distinct_earlier : (earlier.map Tag.name).Nodup :=
  distinct.sublist ((List.sublist_append_left earlier (tag :: later)).map Tag.name)

omit [DecidableEq α] in
theorem not_earlier_in_tag : ∀ other ∈ earlier, ¬ other.text <:+: tag.text := by
  intro other member inside
  have same := Tag.name_of_inside inside
  rw [List.map_append, List.map_cons] at distinct
  have apart := (List.nodup_append.mp distinct).2.2
  exact apart other.name (List.mem_map_of_mem member) tag.name List.mem_cons_self same

variable {before after : List α}
  (wellFormed : WellFormed (earlier ++ tag :: later) (before ++ tag.text ++ after))
include wellFormed

theorem expand_around : expand earlier (before ++ tag.text ++ after) =
    expand earlier before ++ tag.text ++ expand earlier after := by
  have member : tag ∈ earlier ++ tag :: later := List.mem_append_right earlier List.mem_cons_self
  have within : ∀ other ∈ earlier, other ∈ earlier ++ tag :: later :=
    fun other found => List.mem_append_left _ found
  have left := (wellFormed.separate_before member).mono within
  have right := (wellFormed.separate_after member).mono within
  have distinct' := distinct_earlier distinct
  rw [List.append_assoc, expand_append distinct' left, expand_append distinct' right,
    expand_of_free (not_earlier_in_tag distinct), List.append_assoc]

theorem expand_snoc_around : expand (earlier ++ [tag]) (before ++ tag.text ++ after) =
    expand earlier before ++ tag.value ++ expand earlier after := by
  have member : tag ∈ earlier ++ tag :: later := List.mem_append_right earlier List.mem_cons_self
  have within : ∀ other ∈ earlier ++ [tag], other ∈ earlier ++ tag :: later := by
    intro other found
    rcases List.mem_append.mp found with left | right
    · exact List.mem_append_left _ left
    · rw [List.mem_singleton.mp right]
      exact member
  have left := (wellFormed.separate_before member).mono within
  have distinct' := distinct_snoc distinct
  have absent : ¬ tag.text <:+: before :=
    fun inside => wellFormed.absent_before member (inside.trans (List.prefix_append before [d]).isInfix)
  rw [List.append_assoc, expand_append distinct' left,
    expand_tag distinct' (List.mem_append_right earlier (List.mem_singleton_self tag)),
    expand_snoc_of_absent distinct' absent,
    expand_snoc_of_absent distinct' (wellFormed.absent_after member), List.append_assoc]

theorem expand_before : expand earlier (before ++ [d]) = expand earlier before ++ [d] := by
  have member : tag ∈ earlier ++ tag :: later := List.mem_append_right earlier List.mem_cons_self
  have separate : Separate earlier before [d] := by
    intro other found left right some some' parts ends starts
    apply wellFormed.separate_before member other (List.mem_append_left _ found) left right some some'
      parts ends
    exact starts.trans ⟨tag.name ++ [d] ++ after, by simp [Tag.text]⟩
  have single : expand earlier [d] = [d] := by
    apply expand_of_free
    intro other _ inside
    have lengths := inside.length_le
    rw [Tag.text_length, List.length_singleton] at lengths
    omega
  rw [expand_append (distinct_earlier distinct) separate, single]

theorem own_first (unmade : ¬ MadeUp earlier tag (before ++ [d])) :
    ¬ tag.text <:+: expand earlier before ++ tag.text.dropLast := by
  have member : tag ∈ earlier ++ tag :: later := List.mem_append_right earlier List.mem_cons_self
  have none : ¬ tag.text <:+: expand earlier before ++ [d] := by
    rw [← expand_before distinct wellFormed]
    exact fun inside => unmade ⟨wellFormed.absent_before member, inside⟩
  have shape : tag.text.dropLast = [d] ++ tag.name := by
    rw [Tag.text, ← List.cons_append, List.dropLast_concat]
    rfl
  rintro ⟨left, right, parts⟩
  have same : (left ++ d :: tag.name) ++ d :: right = (expand earlier before ++ [d]) ++ tag.name := by
    have whole : (expand earlier before ++ [d]) ++ tag.name = left ++ tag.text ++ right := by
      rw [List.append_assoc, ← shape, parts]
    rw [whole]
    simp [Tag.text]
  rcases List.append_eq_append_iff.mp same with ⟨between, longer, ends⟩ | ⟨between, -, ends⟩
  · cases between with
    | nil =>
      have name : d :: right = tag.name := ends
      exact tag.apart (name ▸ List.mem_cons_self)
    | cons c between =>
      obtain ⟨rfl, -⟩ := List.cons.inj ends
      exact none ⟨left, between, by rw [longer]; simp [Tag.text]⟩
  · apply tag.apart
    rw [ends]
    simp

theorem replace_around (unmade : ¬ MadeUp earlier tag (before ++ [d])) :
    replaceFirst tag.text tag.value (expand earlier (before ++ tag.text ++ after)) =
      expand (earlier ++ [tag]) (before ++ tag.text ++ after) := by
  rw [expand_around distinct wellFormed,
    replaceFirst_of_first tag.text_ne_nil (own_first distinct wellFormed unmade),
    expand_snoc_around distinct wellFormed]

end Step

theorem replace_step (distinct : ((earlier ++ tag :: later).map Tag.name).Nodup)
    (wellFormed : WellFormed (earlier ++ tag :: later) text)
    (undisturbed : ¬ Disturbs earlier tag text) :
    replaceFirst tag.text tag.value (expand earlier text) = expand (earlier ++ [tag]) text := by
  by_cases present : tag.text <:+: text
  · obtain ⟨before, after, rfl⟩ := present
    apply replace_around distinct wellFormed
    exact fun made => undisturbed (Or.inr ⟨before, after, rfl, made⟩)
  · have absent : ¬ tag.text <:+: expand earlier text :=
      fun inside => undisturbed (Or.inl ⟨present, inside⟩)
    rw [replaceFirst_of_absent absent, expand_snoc_of_absent (distinct_snoc distinct) present]

theorem expand_snoc_self (distinct : ((earlier ++ tag :: later).map Tag.name).Nodup)
    (wellFormed : WellFormed (earlier ++ tag :: later) text) (same : tag.value = tag.text) :
    expand (earlier ++ [tag]) text = expand earlier text := by
  by_cases present : tag.text <:+: text
  · obtain ⟨before, after, rfl⟩ := present
    rw [expand_snoc_around distinct wellFormed, expand_around distinct wellFormed, same]
  · exact expand_snoc_of_absent (distinct_snoc distinct) present

theorem foldl_eq_expand {β : Type} {entries : List β} {tagOf : β → Tag d}
    {apply : List α → β → List α}
    (steps : ∀ earlier entry later, entries = earlier ++ entry :: later →
      apply (expand (earlier.map tagOf) text) entry = expand (earlier.map tagOf ++ [tagOf entry]) text) :
    entries.foldl apply text = expand (entries.map tagOf) text := by
  have run (later earlier : List β) (split : entries = earlier ++ later) :
      later.foldl apply (expand (earlier.map tagOf) text) = expand (entries.map tagOf) text := by
    induction later generalizing earlier with
    | nil => rw [split, List.append_nil, List.foldl_nil]
    | cons entry later ih =>
      have longer : earlier.map tagOf ++ [tagOf entry] = (earlier ++ [entry]).map tagOf := by simp
      rw [List.foldl_cons, steps earlier entry later split, longer]
      exact ih (earlier ++ [entry]) (by rw [split, List.append_assoc, List.singleton_append])
  have start : expand ([] : List (Tag d)) text = text :=
    expand_of_free fun _ member => absurd member List.not_mem_nil
  have whole := run entries [] rfl
  rwa [List.map_nil, start] at whole

def replaceAll (table : List (Tag d)) (text : List α) : List α :=
  table.foldl (fun text tag => replaceFirst tag.text tag.value text) text

/-- No text that has each tag at most once, and apart, comes to have a tag by the replacement of
earlier ones, but for tags that stand for themselves. -/
def Harmless (table : List (Tag d)) : Prop :=
  ∀ earlier tag later, table = earlier ++ tag :: later → tag.value ≠ tag.text →
    ∀ text, WellFormed table text → ¬ MadeUp earlier tag text

theorem Undisturbed.front (undisturbed : Undisturbed (earlier ++ later) text) : Undisturbed earlier text := by
  intro front tag back split
  apply undisturbed front tag (back ++ later)
  rw [split, List.append_assoc, List.cons_append]

/-- The rule for going through a table: each tag finds the text undisturbed by those before it. -/
theorem undisturbed_of_turns
    (turn : ∀ earlier tag later, table = earlier ++ tag :: later → Undisturbed earlier text →
      tag.value ≠ tag.text → ¬ Disturbs earlier tag text) : Undisturbed table text := by
  intro earlier
  induction bound : earlier.length using Nat.strongRecOn generalizing earlier with
  | ind length ih =>
    intro tag later split
    refine turn earlier tag later split fun front tag' back parts => ?_
    have fewer : front.length < length := by
      rw [← bound, parts, List.length_append, List.length_cons]
      omega
    apply ih front.length fewer front rfl tag' (back ++ tag :: later)
    rw [split, parts, List.append_assoc, List.cons_append]

theorem undisturbed_of_beginnings
    (unmade : ∀ earlier tag later, table = earlier ++ tag :: later → tag.value ≠ tag.text →
      ∀ shorter, shorter <+: text → ¬ MadeUp earlier tag shorter) : Undisturbed table text := by
  rintro earlier tag later split other (made | ⟨before, after, rfl, made⟩)
  · exact unmade earlier tag later split other text List.prefix_rfl made
  · apply unmade earlier tag later split other (before ++ [d]) _ made
    exact ⟨tag.name ++ [d] ++ after, by simp [Tag.text]⟩

theorem Harmless.undisturbed (harmless : Harmless table) (wellFormed : WellFormed table text) :
    Undisturbed table text := by
  apply undisturbed_of_beginnings
  intro earlier tag later split other shorter starts
  exact harmless earlier tag later split other shorter (wellFormed.of_beginning starts)

theorem replaceAll_eq_expand_earlier (distinct : ((earlier ++ later).map Tag.name).Nodup)
    (wellFormed : WellFormed (earlier ++ later) text) (undisturbed : Undisturbed earlier text) :
    replaceAll earlier text = expand earlier text := by
  have run : earlier.foldl (fun text tag => replaceFirst tag.text tag.value text) text =
      expand (earlier.map id) text := by
    apply foldl_eq_expand
    intro before tag after split
    have whole : earlier ++ later = before ++ tag :: (after ++ later) := by
      rw [split, List.append_assoc, List.cons_append]
    rw [whole] at distinct wellFormed
    rw [List.map_id, id]
    by_cases same : tag.value = tag.text
    · rw [expand_snoc_self distinct wellFormed same, same, replaceFirst_self]
    · exact replace_step distinct wellFormed (undisturbed before tag after split same)
  rwa [List.map_id] at run

theorem replaceAll_eq_expand (distinct : (table.map Tag.name).Nodup)
    (wellFormed : WellFormed table text) (undisturbed : Undisturbed table text) :
    replaceAll table text = expand table text := by
  rw [← List.append_nil table] at distinct wellFormed
  exact replaceAll_eq_expand_earlier distinct wellFormed undisturbed

end Sequence

/-! A tag is set apart from what stands before it by characters that no tag has. -/

section Gap
variable {α : Type} {d c : α} {n : Nat} {table : List (Tag d)}

theorem on_one_side {first second before word after : List α} (apart : c ∉ word)
    (parts : before ++ word ++ after = first ++ c :: second) :
    (∃ rest, first = before ++ word ++ rest) ∨
      ∃ later, before = first ++ c :: later ∧ second = later ++ word ++ after := by
  rcases List.append_eq_append_iff.mp parts with ⟨between, longer, -⟩ | ⟨between, shorter, ends⟩
  · exact Or.inl ⟨between, longer⟩
  · cases between with
    | nil => exact Or.inl ⟨[], by rw [shorter, List.append_nil, List.append_nil]⟩
    | cons e between =>
      obtain ⟨rfl, rest⟩ := List.cons.inj ends
      rcases List.append_eq_append_iff.mp shorter with ⟨middle, -, inside⟩ | ⟨middle, longer, inside⟩
      · exact absurd (inside ▸ by simp) apart
      · cases middle with
        | nil =>
          rw [List.nil_append] at inside
          exact absurd (inside ▸ List.mem_cons_self) apart
        | cons e middle =>
          obtain ⟨rfl, tail⟩ := List.cons.inj inside
          refine Or.inr ⟨middle, longer, ?_⟩
          rw [rest, tail]
          rfl

theorem beside_gap {first second before word after : List α} (apart : c ∉ word) (some : word ≠ [])
    (parts : before ++ word ++ after = first ++ (List.replicate (n + 1) c ++ second)) :
    (∃ rest, first = before ++ word ++ rest) ∨
      ∃ later, before = first ++ (List.replicate (n + 1) c ++ later) ∧
        second = later ++ word ++ after := by
  induction n generalizing first before with
  | zero =>
    rcases on_one_side apart parts with here | ⟨later, starts, ends⟩
    · exact Or.inl here
    · exact Or.inr ⟨later, starts, ends⟩
  | succ n ih =>
    have head : before ++ word ++ after = first ++ c :: (List.replicate (n + 1) c ++ second) := parts
    rcases on_one_side apart head with here | ⟨later, starts, ends⟩
    · exact Or.inl here
    · have rest : later ++ word ++ after = [] ++ (List.replicate (n + 1) c ++ second) := ends.symm
      rcases ih rest with ⟨remaining, empty⟩ | ⟨last, lasts, ending⟩
      · have blank := List.append_eq_nil_iff.mp (List.append_eq_nil_iff.mp empty.symm).1
        exact absurd blank.2 some
      · refine Or.inr ⟨last, ?_, ending⟩
        rw [starts, lasts]
        rfl

theorem infix_beside_gap {first second word : List α} (apart : c ∉ word) (some : word ≠ [])
    (inside : word <:+: first ++ (List.replicate (n + 1) c ++ second)) :
    word <:+: first ∨ word <:+: second := by
  obtain ⟨before, after, parts⟩ := inside
  rcases beside_gap apart some parts with ⟨rest, here⟩ | ⟨later, -, there⟩
  · exact Or.inl ⟨before, rest, here.symm⟩
  · exact Or.inr ⟨later, after, there.symm⟩

theorem Tag.wellFormed (tag : Tag d) : WellFormed table tag.text where
  once other member before after before' after' parts parts' := by
    have inside : other.text <:+: tag.text := ⟨before, after, parts.symm⟩
    have lengths := Tag.length_of_inside inside
    have first := congrArg List.length parts
    have second := congrArg List.length parts'
    simp only [List.length_append] at first second
    have empty : before = [] := List.eq_nil_of_length_eq_zero (by omega)
    have empty' : before' = [] := List.eq_nil_of_length_eq_zero (by omega)
    rw [empty, empty']
  apart := by
    rintro ⟨first, member, second, member', left, shared, right, some, some', parts, parts', inside⟩
    have one : first.text <:+: tag.text := by
      rw [parts]
      exact (List.prefix_append _ right).isInfix.trans inside
    have two : second.text <:+: tag.text := by
      rw [parts']
      apply List.IsInfix.trans _ inside
      exact ⟨left, [], by simp⟩
    have lengths := Tag.length_of_inside one
    have lengths' := Tag.length_of_inside two
    have whole := inside.length_le
    have visible := List.length_pos_iff.mpr some
    rw [parts] at lengths
    rw [parts'] at lengths'
    simp only [List.length_append] at lengths lengths' whole
    omega

theorem not_overlap_gap {first second : List α} (fresh : ∀ tag ∈ table, c ∉ tag.text)
    (left : ¬ Overlap table first) (right : ¬ Overlap table second) :
    ¬ Overlap table (first ++ (List.replicate (n + 1) c ++ second)) := by
  rintro ⟨tag, member, tag', member', begin, shared, ending, some, some', parts, parts', inside⟩
  have apart : c ∉ begin ++ shared ++ ending := by
    have one := fresh tag member
    have two := fresh tag' member'
    rw [parts] at one
    rw [parts'] at two
    simp only [List.mem_append, not_or] at one two ⊢
    exact ⟨one, two.2⟩
  have visible : begin ++ shared ++ ending ≠ [] := by simp [some]
  rcases infix_beside_gap apart visible inside with here | there
  · exact left ⟨tag, member, tag', member', begin, shared, ending, some, some', parts, parts', here⟩
  · exact right ⟨tag, member, tag', member', begin, shared, ending, some, some', parts, parts', there⟩

/-- Two well-formed texts with a gap between them are well-formed, if no tag is in both. -/
theorem WellFormed.append_gap {first second : List α} (fresh : ∀ tag ∈ table, c ∉ tag.text)
    (left : WellFormed table first) (right : WellFormed table second)
    (once : ∀ tag ∈ table, tag.text <:+: first → ¬ tag.text <:+: second) :
    WellFormed table (first ++ (List.replicate (n + 1) c ++ second)) where
  once tag member before after before' after' parts parts' := by
    have apart := fresh tag member
    rcases beside_gap apart tag.text_ne_nil parts.symm with
      ⟨rest, here⟩ | ⟨later, starts, there⟩
    · rcases beside_gap apart tag.text_ne_nil parts'.symm with
        ⟨rest', here'⟩ | ⟨later', starts', there'⟩
      · exact left.once tag member before rest before' rest' here here'
      · exact absurd ⟨later', after', there'.symm⟩ (once tag member ⟨before, rest, here.symm⟩)
    · rcases beside_gap apart tag.text_ne_nil parts'.symm with
        ⟨rest', here'⟩ | ⟨later', starts', there'⟩
      · exact absurd ⟨later, after, there.symm⟩ (once tag member ⟨before', rest', here'.symm⟩)
      · rw [starts, starts', right.once tag member later after later' after' there there']
  apart := not_overlap_gap fresh left.apart right.apart

variable [DecidableEq α]

theorem expand_gap (distinct : (table.map Tag.name).Nodup) (fresh : ∀ tag ∈ table, c ∉ tag.text)
    (first second : List α) :
    expand table (first ++ (List.replicate (n + 1) c ++ second)) =
      expand table first ++ (List.replicate (n + 1) c ++ expand table second) := by
  have starting (rest : List α) : Untagged table (c :: rest) := by
    rintro tag member ⟨after, parts⟩
    have head : d = c := (List.cons.inj parts).1
    exact fresh tag member (head ▸ List.mem_cons_self)
  have gap (m : Nat) : expand table (List.replicate m c ++ second) =
      List.replicate m c ++ expand table second := by
    induction m with
    | zero => rfl
    | succ m ih => rw [List.replicate_succ, List.cons_append, expand_cons (starting _), ih]; rfl
  have separate : Separate table first (List.replicate (n + 1) c ++ second) := by
    rintro tag member left right some some' parts - ⟨after, starts⟩
    obtain ⟨e, right, rfl⟩ := List.exists_cons_of_ne_nil some'
    have head : e = c := (List.cons.inj starts).1
    apply fresh tag member
    rw [parts, head]
    simp
  rw [expand_append distinct separate, gap]

omit [DecidableEq α] in
/-- Behind a gap that is long enough, two ends that differ are not the same text, unless one
continues the gap. -/
theorem ends_differ {first second ending ending' : List α} (apart : c ∉ ending) (other : ending' ≠ ending)
    (stops : ending'.head? ≠ some c) (long : ending'.length ≤ n) :
    first ++ (List.replicate (n + 1) c ++ ending) ≠
      second ++ (List.replicate (n + 1) c ++ ending') := by
  intro same
  rw [← List.append_assoc, ← List.append_assoc] at same
  rcases List.append_eq_append_iff.mp same with ⟨between, longer, parts⟩ | ⟨between, longer, parts⟩
  · rcases between.eq_nil_or_concat with rfl | ⟨init, last, rfl⟩
    · exact other parts.symm
    · rw [List.replicate_succ', ← List.append_assoc, List.concat_eq_append, ← List.append_assoc] at longer
      have ends := List.append_inj_right' longer rfl
      apply apart
      rw [parts, List.concat_eq_append, ← List.cons.inj ends |>.1]
      simp
  · cases between with
    | nil => exact other parts
    | cons e between =>
      rcases List.append_eq_append_iff.mp longer with ⟨middle, -, gap⟩ | ⟨middle, -, gap⟩
      · have member : e ∈ List.replicate (n + 1) c := by
          rw [gap]
          simp
        rw [parts, List.eq_of_mem_replicate member] at stops
        exact stops rfl
      · have lengths := congrArg List.length gap
        have total := congrArg List.length parts
        simp only [List.length_append, List.length_replicate] at lengths total
        omega

/-- Replacements leave a tag alone that stands behind a gap and is not theirs. -/
theorem replaceAll_behind_gap {tag : Tag d} (fresh : ∀ other ∈ table, c ∉ other.text)
    (others : ∀ other ∈ table, other.name ≠ tag.name) (first : List α) :
    ∃ replaced, replaceAll table (first ++ (List.replicate (n + 1) c ++ tag.text)) =
      replaced ++ (List.replicate (n + 1) c ++ tag.text) := by
  induction table generalizing first with
  | nil => exact ⟨first, rfl⟩
  | cons other table ih =>
    have fresh' : ∀ another ∈ table, c ∉ another.text :=
      fun another member => fresh another (List.mem_cons_of_mem other member)
    have others' : ∀ another ∈ table, another.name ≠ tag.name :=
      fun another member => others another (List.mem_cons_of_mem other member)
    unfold replaceAll at ih ⊢
    rw [List.foldl_cons]
    by_cases present : other.text <:+: first
    · obtain ⟨replaced, step⟩ := replaceFirst_append_of_present other.value other.text_ne_nil present
      rw [step]
      exact ih fresh' others' replaced
    · have absent : ¬ other.text <:+: first ++ (List.replicate (n + 1) c ++ tag.text) := by
        intro inside
        rcases infix_beside_gap (fresh other List.mem_cons_self) other.text_ne_nil inside with here | there
        · exact present here
        · exact others other List.mem_cons_self (Tag.name_of_inside there)
      rw [replaceFirst_of_absent absent]
      exact ih fresh' others' first

/-- Behind a text that makes a tag up, the tag itself is not replaced. -/
theorem made_up_spoils {earlier later : List (Tag d)} {tag : Tag d} {text : List α}
    (distinct : ((earlier ++ tag :: later).map Tag.name).Nodup)
    (fresh : ∀ other ∈ earlier ++ tag :: later, c ∉ other.text)
    (stops : tag.value.head? ≠ some c) (other : tag.value ≠ tag.text)
    (before : ∀ text, WellFormed (earlier ++ tag :: later) text →
      replaceAll earlier text = expand earlier text)
    (wellFormed : WellFormed (earlier ++ tag :: later) text) (made : MadeUp earlier tag text) :
    ∃ spoilt, WellFormed (earlier ++ tag :: later) spoilt ∧
      replaceAll (earlier ++ tag :: later) spoilt ≠ expand (earlier ++ tag :: later) spoilt := by
  have member : tag ∈ earlier ++ tag :: later := List.mem_append_right earlier List.mem_cons_self
  have gapped : WellFormed (earlier ++ tag :: later)
      (text ++ (List.replicate (tag.value.length + 1) c ++ tag.text)) := by
    apply WellFormed.append_gap fresh wellFormed (Tag.wellFormed tag)
    intro another member' inside inside'
    have name := Tag.name_of_inside inside'
    rw [List.inj_on_of_nodup_map distinct member' member name] at inside
    exact made.1 inside
  have freshEarlier : ∀ another ∈ earlier, c ∉ another.text :=
    fun another found => fresh another (List.mem_append_left _ found)
  have freshLater : ∀ another ∈ later, c ∉ another.text :=
    fun another found => fresh another (List.mem_append_right earlier (List.mem_cons_of_mem tag found))
  have othersLater : ∀ another ∈ later, another.name ≠ tag.name := by
    intro another found same
    rw [List.map_append, List.map_cons] at distinct
    apply (List.nodup_cons.mp (List.nodup_append.mp distinct).2.1).1
    rw [← same]
    exact List.mem_map_of_mem found
  refine ⟨_, gapped, ?_⟩
  have start := before _ gapped
  rw [expand_gap (distinct_earlier distinct) freshEarlier,
    expand_of_free (not_earlier_in_tag distinct)] at start
  obtain ⟨replaced, step⟩ :=
    replaceFirst_append_of_present tag.value tag.text_ne_nil made.2
  obtain ⟨replaced', rest⟩ := replaceAll_behind_gap (n := tag.value.length) freshLater othersLater replaced
  have sequence : replaceAll (earlier ++ tag :: later)
      (text ++ (List.replicate (tag.value.length + 1) c ++ tag.text)) =
        replaced' ++ (List.replicate (tag.value.length + 1) c ++ tag.text) := by
    unfold replaceAll at start rest ⊢
    rw [List.foldl_append, List.foldl_cons, start, step, rest]
  have value := expand_tag distinct member []
  rw [List.append_nil] at value
  rw [sequence, expand_gap distinct fresh, value]
  have empty : expand (earlier ++ tag :: later) [] = [] := rfl
  rw [empty, List.append_nil]
  exact ends_differ (fresh tag member) other stops (Nat.le_refl _)

/-- If the replacement one after the other is that of all at once, no tag is ever made up. -/
theorem harmless_of_replaceAll {c' : α} (distinct : (table.map Tag.name).Nodup) (two : c ≠ c')
    (fresh : ∀ tag ∈ table, c ∉ tag.text) (fresh' : ∀ tag ∈ table, c' ∉ tag.text)
    (same : ∀ text, WellFormed table text → replaceAll table text = expand table text) :
    Harmless table := by
  intro earlier
  induction bound : earlier.length using Nat.strongRecOn generalizing earlier with
  | ind length ih =>
    rintro tag later rfl other text wellFormed made
    have before (text : List α) (wellFormed : WellFormed (earlier ++ tag :: later) text) :
        replaceAll earlier text = expand earlier text := by
      apply replaceAll_eq_expand_earlier distinct wellFormed
      apply undisturbed_of_beginnings
      rintro before tag' after rfl other' shorter starts
      have fewer : before.length < length := by
        rw [← bound, List.length_append, List.length_cons]
        omega
      apply ih before.length fewer before rfl tag' (after ++ tag :: later) _ other'
      · exact wellFormed.of_beginning starts
      · rw [List.append_assoc, List.cons_append]
    have spoilt : ∃ spoilt, WellFormed (earlier ++ tag :: later) spoilt ∧
        replaceAll (earlier ++ tag :: later) spoilt ≠ expand (earlier ++ tag :: later) spoilt := by
      by_cases stops : tag.value.head? = some c
      · apply made_up_spoils distinct fresh' _ other before wellFormed made
        rw [stops]
        exact fun equal => two (Option.some.inj equal)
      · exact made_up_spoils distinct fresh stops other before wellFormed made
    obtain ⟨text', wellFormed', differs⟩ := spoilt
    exact differs (same text' wellFormed')

end Gap

/-! Values without the delimiter make a tag up only of a text that becomes its name. -/

section Names
variable {α : Type} [DecidableEq α] {d : α} {table : List (Tag d)}

theorem delimiter_of_expand (distinct : (table.map Tag.name).Nodup) (plain : ∀ tag ∈ table, d ∉ tag.value)
    {text before after : List α} (expanded : expand table text = before ++ d :: after) :
    ∃ first second, text = first ++ d :: second ∧ expand table first = before ∧
      expand table second = after ∧ Untagged table (d :: second) := by
  induction text using scan_induction table generalizing before with
  | nil =>
    have none : [] = before ++ d :: after := expanded
    simp at none
  | char c rest untagged ih =>
    rw [expand_cons untagged] at expanded
    cases before with
    | nil =>
      obtain ⟨rfl, rest'⟩ := List.cons.inj expanded
      exact ⟨[], rest, rfl, rfl, rest', untagged⟩
    | cons e before =>
      obtain ⟨rfl, rest'⟩ := List.cons.inj expanded
      obtain ⟨first, second, rfl, start, ending, free⟩ := ih rest'
      refine ⟨c :: first, second, rfl, ?_, ending, free⟩
      have untagged' : Untagged table (c :: first) := by
        intro tag member starts
        exact untagged tag member (starts.trans (List.prefix_append (c :: first) (d :: second)))
      rw [expand_cons untagged', start]
  | tag tag member rest ih =>
    rw [expand_tag distinct member] at expanded
    rcases List.append_eq_append_iff.mp expanded with
      ⟨between, longer, parts⟩ | ⟨between, shorter, parts⟩
    · obtain ⟨first, second, rfl, start, ending, free⟩ := ih parts
      refine ⟨tag.text ++ first, second, by rw [List.append_assoc], ?_, ending, free⟩
      rw [expand_tag distinct member, start, longer]
    · cases between with
      | nil =>
        have here : expand table rest = [] ++ d :: after := parts.symm
        obtain ⟨first, second, rfl, start, ending, free⟩ := ih here
        refine ⟨tag.text ++ first, second, by rw [List.append_assoc], ?_, ending, free⟩
        rw [expand_tag distinct member, start, shorter, List.append_nil, List.append_nil]
      | cons e between =>
        obtain ⟨rfl, -⟩ := List.cons.inj parts
        exact absurd (shorter ▸ by simp) (plain tag member)

theorem expand_of_no_delimiter (distinct : (table.map Tag.name).Nodup) {sub : List (Tag d)}
    (distinct' : (sub.map Tag.name).Nodup) (within : ∀ tag ∈ sub, tag ∈ table) {text : List α}
    (none : d ∉ expand sub text) : expand table text = expand sub text := by
  induction text using scan_induction sub with
  | nil => rfl
  | char c rest untagged ih =>
    rw [expand_cons untagged] at none ⊢
    have untagged' : Untagged table (c :: rest) := by
      rintro tag - ⟨after, parts⟩
      have head : d = c := (List.cons.inj parts).1
      exact none (head ▸ List.mem_cons_self)
    rw [expand_cons untagged', ih (fun member => none (List.mem_cons_of_mem c member))]
  | tag tag member rest ih =>
    rw [expand_tag distinct' member] at none ⊢
    rw [expand_tag distinct (within tag member),
      ih (fun inside => none (List.mem_append_right tag.value inside))]

/-- Nothing between two delimiters that has a tag becomes the name of a tag. -/
def MakesNoName (table : List (Tag d)) (text : List α) : Prop :=
  ∀ part, d :: (part ++ [d]) <:+: text → (∃ tag ∈ table, tag.text <:+: part) →
    ∀ tag ∈ table, expand table part ≠ tag.name

theorem MakesNoName.of_beginning {text shorter : List α} (names : MakesNoName table text)
    (starts : shorter <+: text) : MakesNoName table shorter :=
  fun part inside => names part (inside.trans starts.isInfix)

theorem makesNoName_of_apart {text : List α} (apart : d ∉ text) : MakesNoName table text :=
  fun _ inside _ _ _ _ => apart (inside.subset List.mem_cons_self)

theorem Tag.makesNoName (tag : Tag d) : MakesNoName table tag.text := by
  rintro part inside ⟨other, -, has⟩
  have shorter := inside.length_le
  have longer := has.length_le
  rw [Tag.length_of_inside (has.trans (List.IsInfix.trans ⟨[d], [d], rfl⟩ inside))] at longer
  simp only [List.length_cons, List.length_append, List.length_nil] at shorter
  omega

variable (distinct : (table.map Tag.name).Nodup) (plain : ∀ tag ∈ table, d ∉ tag.value)
include distinct plain

theorem tag_of_expand {sub : List (Tag d)} (distinct' : (sub.map Tag.name).Nodup)
    (within : ∀ tag ∈ sub, tag ∈ table) {text : List α} (names : MakesNoName table text)
    {tag : Tag d} (member : tag ∈ table) (inside : tag.text <:+: expand sub text) :
    tag.text <:+: text ∧ tag ∉ sub := by
  obtain ⟨before, after, parts⟩ := inside
  have begun : expand sub text = before ++ d :: (tag.name ++ d :: after) := by
    rw [← parts]
    simp [Tag.text]
  have plain' : ∀ other ∈ sub, d ∉ other.value := fun other found => plain other (within other found)
  obtain ⟨first, rest, rfl, -, named, free⟩ := delimiter_of_expand distinct' plain' begun
  obtain ⟨part, last, rfl, name, -, -⟩ := delimiter_of_expand distinct' plain' named
  have whole : expand table part = tag.name := by
    rw [← name]
    apply expand_of_no_delimiter distinct distinct' within
    rw [name]
    exact tag.apart
  have between : d :: (part ++ [d]) <:+: first ++ d :: (part ++ d :: last) :=
    ⟨first, last, by simp⟩
  have untouched : ∀ other ∈ table, ¬ other.text <:+: part :=
    fun other found has => names part between ⟨other, found, has⟩ tag member whole
  rw [expand_of_free untouched] at whole
  have here : tag.text ++ last = d :: (part ++ d :: last) := by simp [Tag.text, whole]
  constructor
  · rw [← here]
    exact ⟨first, last, by simp⟩
  · intro found
    exact free tag found ⟨last, here⟩

/-- No tag is made up of names that are not made. -/
theorem not_madeUp {earlier later : List (Tag d)} {tag : Tag d} (split : table = earlier ++ tag :: later)
    {text : List α} (names : MakesNoName table text) : ¬ MadeUp earlier tag text := by
  rintro ⟨absent, inside⟩
  have member : tag ∈ table := split ▸ List.mem_append_right earlier List.mem_cons_self
  have within : ∀ other ∈ earlier, other ∈ table :=
    fun other found => split ▸ List.mem_append_left _ found
  have distinct' := distinct_earlier (split ▸ distinct)
  exact absent (tag_of_expand distinct plain distinct' within names member inside).1

theorem no_tag_of_expand {text : List α} (names : MakesNoName table text) :
    ∀ tag ∈ table, ¬ tag.text <:+: expand table text :=
  fun _ member inside =>
    (tag_of_expand distinct plain distinct (fun _ found => found) names member inside).2 member

end Names

end ClrOci.Foundation
