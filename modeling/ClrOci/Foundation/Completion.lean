import ClrOci.Foundation.Substitution

/-! Which values complete a tag: the tag is in the value, or the text has what the value lacks of it. -/

set_option autoImplicit false

namespace ClrOci.Foundation

section Fence
variable {α : Type} {d : α} {table : List (Tag d)}

def fence (d : α) (words : List (List α)) : List α := words.flatMap (fun word => d :: word) ++ [d]

theorem fence_cons (word : List α) (words : List (List α)) :
    fence d (word :: words) = d :: (word ++ fence d words) := by
  simp [fence]

theorem fence_eq_cons (words : List (List α)) : fence d words = d :: (fence d words).tail := by
  cases words with
  | nil => rfl
  | cons word words => rw [fence_cons]; rfl

theorem fence_append (first : List (List α)) (tag : Tag d) (second : List (List α)) :
    fence d (first ++ tag.name :: second) =
      first.flatMap (fun word => d :: word) ++ tag.text ++ (fence d second).tail := by
  have parts : fence d (first ++ tag.name :: second) =
      first.flatMap (fun word => d :: word) ++ (d :: tag.name ++ fence d second) := by
    simp [fence]
  rw [parts, fence_eq_cons second]
  simp [Tag.text]

/-- The tags of a fence are those that have one of the words for their name. -/
theorem tag_in_fence {words : List (List α)} (apart : ∀ word ∈ words, d ∉ word) {tag : Tag d}
    {before after : List α} (parts : fence d words = before ++ tag.text ++ after) :
    ∃ first second, words = first ++ tag.name :: second ∧
      before = first.flatMap fun word => d :: word := by
  induction words generalizing before with
  | nil =>
    have lengths := congrArg List.length parts
    simp only [fence, List.flatMap_nil, List.nil_append, List.length_singleton, List.length_append,
      Tag.text_length] at lengths
    omega
  | cons word words ih =>
    have apartWord := apart word List.mem_cons_self
    rw [fence_cons] at parts
    cases before with
    | nil =>
      have inner : word ++ d :: (fence d words).tail = tag.name ++ d :: after := by
        rw [← fence_eq_cons words]
        simpa [Tag.text] using (List.cons.inj parts).2
      obtain ⟨rfl, -⟩ := before_delimiter apartWord tag.apart inner
      exact ⟨[], words, rfl, rfl⟩
    | cons c before =>
      obtain ⟨rfl, inner⟩ := List.cons.inj parts
      rw [List.append_eq, List.append_eq, List.append_assoc] at inner
      rcases List.append_eq_append_iff.mp inner with ⟨between, rfl, later⟩ | ⟨between, longer, later⟩
      · obtain ⟨first, second, rfl, rfl⟩ :=
          ih (fun other member => apart other (List.mem_cons_of_mem word member))
            (by rw [later, List.append_assoc])
        exact ⟨word :: first, second, rfl, rfl⟩
      · cases between with
        | nil =>
          have here : fence d words = [] ++ tag.text ++ after := by simpa using later.symm
          obtain ⟨first, second, rfl, none⟩ :=
            ih (fun other member => apart other (List.mem_cons_of_mem word member)) here
          rw [List.append_nil] at longer
          subst longer
          exact ⟨word :: first, second, rfl, by rw [List.flatMap_cons, ← none, List.append_nil]⟩
        | cons e between =>
          have head : d = e := (List.cons.inj later).1
          exact absurd (longer ▸ by simp [head]) apartWord

theorem wellFormed_fence {first second : List (List α)} {tag : Tag d}
    (apart : ∀ word ∈ first ++ tag.name :: second, d ∉ word)
    (others : ∀ other ∈ table, other.name ∉ first ∧ other.name ∉ second) :
    WellFormed table (fence d (first ++ tag.name :: second)) := by
  have place {other : Tag d} (member : other ∈ table) {before after : List α}
      (parts : fence d (first ++ tag.name :: second) = before ++ other.text ++ after) :
      before = first.flatMap fun word => d :: word := by
    obtain ⟨first', second', words, rfl⟩ := tag_in_fence apart parts
    obtain ⟨notFirst, notSecond⟩ := others other member
    rcases List.append_eq_append_iff.mp words with ⟨between, rfl, ends⟩ | ⟨between, rfl, ends⟩
    · cases between with
      | nil => rw [List.append_nil]
      | cons word between =>
        obtain ⟨-, rfl⟩ := List.cons.inj ends
        exact absurd (by simp) notSecond
    · cases between with
      | nil => rw [List.append_nil]
      | cons word between =>
        obtain ⟨rfl, -⟩ := List.cons.inj ends
        exact absurd (by simp) notFirst
  constructor
  · intro other member before after before' after' parts parts'
    rw [place member parts, place member parts']
  · rintro ⟨other, member, other', member', left, shared, right, some, -, parts, parts', span⟩
    obtain ⟨before, after, inside⟩ := span
    have shape : fence d (first ++ tag.name :: second) = before ++ other.text ++ (right ++ after) := by
      rw [← inside, parts]
      simp
    have shape' : fence d (first ++ tag.name :: second) = before ++ left ++ other'.text ++ after := by
      rw [← inside, parts']
      simp
    have two := place member' shape'
    rw [← place member shape] at two
    exact some (List.self_eq_append_right.mp two.symm)

end Fence

section Completes
variable {α : Type} {d : α} {table : List (Tag d)}

/-- A value has a tag, or begins it, or ends it, or stands inside it, where the text can have the
rest. What the text has before the value is not a name, which would be a tag that overlaps. -/
inductive Completes (table : List (Tag d)) (value name : List α) : Prop where
  | whole : d :: (name ++ [d]) <:+: value → Completes table value name
  | start (part rest : List α) : name = part ++ rest → part ≠ [] → d :: part <:+ value →
      Completes table value name
  | ending (part rest : List α) : name = part ++ rest → rest ≠ [] → part ∉ table.map Tag.name →
      rest ++ [d] <+: value → Completes table value name
  | middle (part rest : List α) : name = part ++ value ++ rest → part ++ value ≠ [] →
      part ∉ table.map Tag.name → Completes table value name

theorem completes_iff {value name : List α} : Completes table value name ↔
    d :: (name ++ [d]) <:+: value ∨ ∃ n < name.length + 1,
      (name.take n ≠ [] ∧ d :: name.take n <:+ value) ∨
      (name.drop n ≠ [] ∧ name.take n ∉ table.map Tag.name ∧ name.drop n ++ [d] <+: value) ∨
      (value <+: name.drop n ∧ name.take n ++ value ≠ [] ∧ name.take n ∉ table.map Tag.name) := by
  have within (part rest : List α) : part.length < (part ++ rest).length + 1 := by
    rw [List.length_append]
    omega
  constructor
  · rintro (whole | ⟨part, rest, rfl, some, ends⟩ | ⟨part, rest, rfl, some, unnamed, starts⟩ |
      ⟨part, rest, rfl, some, unnamed⟩)
    · exact Or.inl whole
    · refine Or.inr ⟨part.length, within part rest, Or.inl ?_⟩
      rw [List.take_left]
      exact ⟨some, ends⟩
    · refine Or.inr ⟨part.length, within part rest, Or.inr (Or.inl ?_)⟩
      rw [List.take_left, List.drop_left]
      exact ⟨some, unnamed, starts⟩
    · rw [List.append_assoc part value rest]
      refine Or.inr ⟨part.length, within part (value ++ rest), Or.inr (Or.inr ?_)⟩
      rw [List.take_left, List.drop_left]
      exact ⟨List.prefix_append value rest, some, unnamed⟩
  · rintro (whole | ⟨n, -, ⟨some, ends⟩ | ⟨some, unnamed, starts⟩ |
      ⟨⟨rest, inside⟩, some, unnamed⟩⟩)
    · exact .whole whole
    · exact .start (name.take n) (name.drop n) (List.take_append_drop n name).symm some ends
    · exact .ending (name.take n) (name.drop n) (List.take_append_drop n name).symm some unnamed starts
    · exact .middle (name.take n) rest (by rw [List.append_assoc, inside, List.take_append_drop]) some unnamed

instance [DecidableEq α] (table : List (Tag d)) (value name : List α) :
    Decidable (Completes table value name) :=
  decidable_of_iff _ completes_iff.symm

/-- No value completes a tag that is replaced later, but for tags that stand for themselves. -/
def Uncompleted (table : List (Tag d)) : Prop :=
  table.Pairwise fun other tag => tag.value ≠ tag.text → ¬ Completes table other.value tag.name

instance [DecidableEq α] (table : List (Tag d)) : Decidable (Uncompleted table) :=
  inferInstanceAs (Decidable (List.Pairwise _ table))

theorem pairwise_of_splits {β : Type} {relates : β → β → Prop} {list : List β}
    (splits : ∀ earlier later' later, list = earlier ++ later' :: later → ∀ other ∈ earlier,
      relates other later') : list.Pairwise relates := by
  induction list with
  | nil => exact List.Pairwise.nil
  | cons first list ih =>
    apply List.pairwise_cons.mpr
    constructor
    · intro other member
      obtain ⟨earlier, later, rfl⟩ := List.append_of_mem member
      exact splits (first :: earlier) other later rfl first List.mem_cons_self
    · apply ih
      rintro earlier other later rfl another member
      exact splits (first :: earlier) other later rfl another (List.mem_cons_of_mem first member)

theorem prefix_across {word first second : List α} (starts : word ++ [d] <+: first ++ second) :
    word ++ [d] <+: first ∨ ∃ rest, word = first ++ rest ∧ rest ++ [d] <+: second := by
  obtain ⟨after, parts⟩ := starts
  rcases List.append_eq_append_iff.mp parts with ⟨between, longer, -⟩ | ⟨between, shorter, ends⟩
  · exact Or.inl ⟨between, longer.symm⟩
  · rcases between.eq_nil_or_concat with rfl | ⟨rest, last, rfl⟩
    · exact Or.inl ⟨[], by rw [shorter, List.append_nil, List.append_nil]⟩
    · rw [List.concat_eq_append] at shorter ends
      rw [← List.append_assoc] at shorter
      obtain ⟨inside, same⟩ := List.append_inj' shorter rfl
      obtain rfl := (List.cons.inj same).1
      exact Or.inr ⟨rest, inside, ⟨after, ends.symm⟩⟩

theorem WellFormed.not_name {word rest : List α} {other : Tag d} (member : other ∈ table)
    (wellFormed : WellFormed table (d :: (word ++ (other.text ++ rest)))) :
    word ∉ table.map Tag.name := by
  intro named
  obtain ⟨tag, member', rfl⟩ := List.mem_map.mp named
  apply wellFormed.apart
  refine ⟨tag, member', other, member, d :: tag.name, [d], other.name ++ [d], List.cons_ne_nil _ _,
    List.cons_ne_nil _ _, rfl, rfl, ?_⟩
  exact ⟨[], rest, by simp [Tag.text]⟩

variable [DecidableEq α] {earlier later : List (Tag d)} {tag : Tag d}

/-- A name that goes on in the outcome goes on in the text, or a value completes it. -/
theorem goes_on (distinct : (earlier.map Tag.name).Nodup) (within : ∀ other ∈ earlier, other ∈ table)
    (member : tag ∈ table) {part remaining text : List α} (name : tag.name = part ++ remaining)
    (wellFormed : WellFormed table (d :: (part ++ text)))
    (ends : remaining ++ [d] <+: expand earlier text) :
    tag.text <:+: d :: (part ++ text) ∨ ∃ other ∈ earlier, Completes table other.value tag.name := by
  induction text using scan_induction earlier generalizing part remaining with
  | nil =>
    have lengths := ends.length_le
    have empty : expand earlier [] = [] := rfl
    rw [empty, List.length_append, List.length_singleton, List.length_nil] at lengths
    omega
  | char c rest untagged ih =>
    rw [expand_cons untagged] at ends
    cases remaining with
    | nil =>
      obtain ⟨rfl, -⟩ := List.cons_prefix_cons.mp ends
      rw [List.append_nil] at name
      exact Or.inl ⟨[], rest, by simp [Tag.text, name]⟩
    | cons e remaining =>
      obtain ⟨rfl, ends'⟩ := List.cons_prefix_cons.mp ends
      have shape : part ++ e :: rest = (part ++ [e]) ++ rest := by simp
      rw [shape] at wellFormed ⊢
      exact ih (by simp [name]) wellFormed ends'
  | tag other found rest ih =>
    have unnamed := wellFormed.not_name (within other found)
    rw [expand_tag distinct found] at ends
    rcases prefix_across ends with whole | ⟨rest', inside, ends'⟩
    · have visible : remaining ≠ [] := by
        rintro rfl
        rw [List.append_nil] at name
        exact unnamed (name ▸ List.mem_map_of_mem member)
      exact Or.inr ⟨other, found, Completes.ending part remaining name visible unnamed whole⟩
    · by_cases empty : part ++ other.value = []
      · -- The delimiter that ends this tag takes the place of the one before it.
        obtain ⟨rfl, blank⟩ := List.append_eq_nil_iff.mp empty
        rw [blank, List.nil_append] at inside
        have behind : d :: ([] ++ rest) <:+ d :: ([] ++ (other.text ++ rest)) :=
          ⟨d :: d :: other.name, by simp [Tag.text]⟩
        rcases ih name (wellFormed.of_ending behind) (inside ▸ ends') with here | there
        · exact Or.inl (here.trans behind.isInfix)
        · exact Or.inr there
      · have split : tag.name = part ++ other.value ++ rest' := by
          rw [name, inside, List.append_assoc]
        exact Or.inr ⟨other, found, Completes.middle part rest' split empty unnamed⟩

theorem completes_of_madeUp (distinct : (earlier.map Tag.name).Nodup)
    (within : ∀ other ∈ earlier, other ∈ table) (member : tag ∈ table) {text : List α}
    (wellFormed : WellFormed table text) (made : MadeUp earlier tag text) :
    ∃ other ∈ earlier, Completes table other.value tag.name := by
  obtain ⟨absent, inside⟩ := made
  induction text using scan_induction earlier with
  | nil => exact absurd inside absent
  | char c rest untagged ih =>
    rw [expand_cons untagged] at inside
    rcases List.infix_cons_iff.mp inside with starts | later
    · obtain ⟨rfl, ends⟩ := List.cons_prefix_cons.mp starts
      have name : tag.name = [] ++ tag.name := rfl
      rcases goes_on distinct within member name wellFormed ends with here | there
      · exact absurd here absent
      · exact there
    · have behind : rest <:+ c :: rest := List.suffix_cons c rest
      exact ih (wellFormed.of_ending behind) (mt (fun here => here.trans behind.isInfix) absent) later
  | tag other found rest ih =>
    have behind : rest <:+ other.text ++ rest := List.suffix_append other.text rest
    rw [expand_tag distinct found] at inside
    obtain ⟨before, after, parts⟩ := inside
    rw [List.append_assoc] at parts
    rcases List.append_eq_append_iff.mp parts with ⟨between, longer, ends⟩ | ⟨between, -, ends⟩
    · cases between with
      | nil =>
        have later : tag.text <:+: expand earlier rest := ⟨[], after, ends⟩
        exact ih (wellFormed.of_ending behind) (mt (fun here => here.trans behind.isInfix) absent) later
      | cons e between =>
        obtain ⟨rfl, across⟩ := List.cons.inj ends
        rcases prefix_across ⟨after, across⟩ with ⟨remaining, whole⟩ | ⟨remaining, name, ends'⟩
        · have inside : d :: (tag.name ++ [d]) <:+: other.value :=
            ⟨before, remaining, by rw [longer, ← whole]; simp⟩
          exact ⟨other, found, Completes.whole inside⟩
        · by_cases empty : between = []
          · subst empty
            have closing : d :: ([] ++ rest) <:+ other.text ++ rest := ⟨d :: other.name, by simp [Tag.text]⟩
            rcases goes_on distinct within member name (wellFormed.of_ending closing) ends' with
              here | there
            · exact absurd (here.trans closing.isInfix) absent
            · exact there
          · exact ⟨other, found, Completes.start between remaining name empty ⟨before, longer.symm⟩⟩
    · have later : tag.text <:+: expand earlier rest := ⟨between, after, by rw [ends, List.append_assoc]⟩
      exact ih (wellFormed.of_ending behind) (mt (fun here => here.trans behind.isInfix) absent) later

theorem expand_around_once {sub : List (Tag d)} (distinct : (sub.map Tag.name).Nodup)
    (within : ∀ other ∈ sub, other ∈ table) (member : tag ∈ sub) {before after : List α}
    (wellFormed : WellFormed table (before ++ tag.text ++ after)) :
    expand sub (before ++ tag.text ++ after) = expand sub before ++ tag.value ++ expand sub after := by
  have separate := (wellFormed.separate_before (within tag member)).mono within
  rw [List.append_assoc, expand_append distinct separate, expand_tag distinct member after,
    List.append_assoc]

section Spaced
variable (distinct : (table.map Tag.name).Nodup) (split : table = earlier ++ tag :: later)
  {other : Tag d} (member : other ∈ earlier)
include distinct split member

/-- A tag that a value completes between words is made up in a text of those words. -/
theorem madeUp_of_fence (first second : List (List α)) (apart : ∀ word ∈ first ++ second, d ∉ word)
    (others : ∀ another ∈ table, another.name ∉ first ∧ another.name ∉ second)
    (completed : tag.text <:+:
      first.flatMap (fun word => d :: word) ++ other.value ++ (fence d second).tail) :
    ∃ text, WellFormed table text ∧ MadeUp earlier tag text := by
  have within : ∀ another ∈ earlier, another ∈ table :=
    fun another found => split ▸ List.mem_append_left _ found
  have included : tag ∈ table := split ▸ List.mem_append_right earlier List.mem_cons_self
  have distinct' := distinct_earlier (split ▸ distinct)
  have apart' : ∀ word ∈ first ++ other.name :: second, d ∉ word := by
    intro word found
    rcases List.mem_append.mp found with left | right
    · exact apart word (List.mem_append_left second left)
    · rcases List.mem_cons.mp right with rfl | right
      · exact other.apart
      · exact apart word (List.mem_append_right first right)
  have wellFormed : WellFormed table (fence d (first ++ other.name :: second)) :=
    wellFormed_fence apart' others
  refine ⟨_, wellFormed, ?_, ?_⟩
  · rintro ⟨before, after, parts⟩
    obtain ⟨first', second', words, -⟩ := tag_in_fence apart' parts.symm
    have found : tag.name ∈ first ++ other.name :: second := by
      rw [words]
      simp
    rcases List.mem_append.mp found with left | right
    · exact (others tag included).1 left
    · rcases List.mem_cons.mp right with same | right
      · have inside : other.text <:+: tag.text := by rw [Tag.text, Tag.text, same]
        exact not_earlier_in_tag (split ▸ distinct) other member inside
      · exact (others tag included).2 right
  · have free {words : List (List α)} (apart : ∀ word ∈ words, d ∉ word)
        (unnamed : ∀ another ∈ table, another.name ∉ words) :
        ∀ another ∈ earlier, ¬ another.text <:+: fence d words := by
      rintro another found ⟨before, after, parts⟩
      obtain ⟨first', second', rfl, -⟩ := tag_in_fence apart parts.symm
      exact unnamed another (within another found) (by simp)
    have left := free (fun word found => apart word (List.mem_append_left second found))
      fun another found => (others another found).1
    have right := free (fun word found => apart word (List.mem_append_right first found))
      fun another found => (others another found).2
    have begins : first.flatMap (fun word => d :: word) <:+: fence d first :=
      (List.prefix_append _ _).isInfix
    have ends : (fence d second).tail <:+: fence d second := (List.tail_suffix _).isInfix
    rw [fence_append] at wellFormed ⊢
    rw [expand_around_once distinct' within member wellFormed,
      expand_of_free fun another found inside => left another found (inside.trans begins),
      expand_of_free fun another found inside => right another found (inside.trans ends)]
    exact completed

theorem madeUp_of_completes
    (tails : ∀ tag ∈ table, ∀ other ∈ table, other.name <:+ tag.name → other.name = tag.name)
    (completes : Completes table other.value tag.name) :
    ∃ text, WellFormed table text ∧ MadeUp earlier tag text := by
  have included : tag ∈ table := split ▸ List.mem_append_right earlier List.mem_cons_self
  have piece (before word after : List α) (parts : tag.name = before ++ word ++ after) : d ∉ word := by
    intro inside
    apply tag.apart
    rw [parts]
    simp [inside]
  have ending {part rest : List α} (some : part ≠ []) (parts : tag.name = part ++ rest) :
      ∀ another ∈ table, another.name ≠ rest := by
    rintro another found rfl
    have same := tails tag included another found ⟨part, parts.symm⟩
    rw [← same] at parts
    exact some (List.append_left_eq_self.mp parts.symm)
  cases completes with
  | whole inside =>
    apply madeUp_of_fence distinct split member [] []
    · simp
    · simp
    · simpa [fence, Tag.text] using inside
  | start part rest name some inside =>
    obtain ⟨before, value⟩ := inside
    have apart : d ∉ rest := piece part rest [] (by rw [name, List.append_nil])
    apply madeUp_of_fence distinct split member [] [rest]
    · simpa using apart
    · simpa using ending some name
    · exact ⟨before, [], by simp [fence, Tag.text, name, ← value]⟩
  | ending part rest name some unnamed inside =>
    obtain ⟨after, value⟩ := inside
    have apart : d ∉ part := piece [] part rest (by rw [name, List.nil_append])
    apply madeUp_of_fence distinct split member [part] []
    · simpa using apart
    · simpa using unnamed
    · exact ⟨[], after, by simp [fence, Tag.text, name, ← value]⟩
  | middle part rest name some unnamed =>
    have apart : d ∉ part :=
      piece [] part (other.value ++ rest) (by rw [name, List.nil_append, List.append_assoc])
    have apart' : d ∉ rest :=
      piece (part ++ other.value) rest [] (by rw [name, List.append_nil])
    have unnamed' : ∀ another ∈ table, another.name ≠ part := by
      rintro another found rfl
      exact unnamed (List.mem_map_of_mem found)
    apply madeUp_of_fence distinct split member [part] [rest]
    · simpa using ⟨apart, apart'⟩
    · intro another found
      simpa using ⟨unnamed' another found, ending some name another found⟩
    · exact ⟨[], [], by simp [fence, Tag.text, name]⟩

end Spaced

/-- Where no name ends another, no tag is ever made up exactly if no value completes one. -/
theorem harmless_iff (distinct : (table.map Tag.name).Nodup)
    (tails : ∀ tag ∈ table, ∀ other ∈ table, other.name <:+ tag.name → other.name = tag.name) :
    Harmless table ↔ Uncompleted table := by
  constructor
  · intro harmless
    apply pairwise_of_splits
    intro earlier tag later split other member differs completes
    obtain ⟨text, wellFormed, made⟩ := madeUp_of_completes distinct split member tails completes
    exact harmless earlier tag later split differs text wellFormed made
  · rintro uncompleted earlier tag later rfl differs text wellFormed made
    have within : ∀ other ∈ earlier, other ∈ earlier ++ tag :: later :=
      fun other found => List.mem_append_left _ found
    have included : tag ∈ earlier ++ tag :: later := List.mem_append_right earlier List.mem_cons_self
    obtain ⟨other, member, completes⟩ :=
      completes_of_madeUp (distinct_earlier distinct) within included wellFormed made
    have apart := (List.pairwise_append.mp uncompleted).2.2
    exact apart other member tag List.mem_cons_self differs completes

/-- One after the other is all at once, in every text that has each tag at most once, exactly if no
value completes a tag. -/
theorem replaceAll_eq_expand_iff {c c' : α} (distinct : (table.map Tag.name).Nodup)
    (tails : ∀ tag ∈ table, ∀ other ∈ table, other.name <:+ tag.name → other.name = tag.name)
    (two : c ≠ c') (fresh : ∀ tag ∈ table, c ∉ tag.text) (fresh' : ∀ tag ∈ table, c' ∉ tag.text) :
    (∀ text, WellFormed table text → replaceAll table text = expand table text) ↔
      Uncompleted table := by
  rw [← harmless_iff distinct tails]
  constructor
  · exact harmless_of_replaceAll distinct two fresh fresh'
  · intro harmless text wellFormed
    exact replaceAll_eq_expand distinct wellFormed (harmless.undisturbed wellFormed)

end Completes

end ClrOci.Foundation
