import ClrOci.Process
import ClrOci.Collection
import ClrOci.Foundation.Completion
import ClrOci.Foundation.Occurrence

/-! The special tags in the arguments of a hypervisor: what their replacement, one after the other,
makes of an argument.
-/

set_option autoImplicit false

namespace ClrOci

open Foundation

section Replacement

theorem replaceFirst_eq_findFirst {pattern value text : List Char} (visible : pattern ≠ []) :
    replaceFirst pattern value text =
      ((findFirst pattern text).map fun found =>
        found.1 ++ value ++ found.2.drop pattern.length).getD text := by
  induction text with
  | nil => simp [findFirst, visible, replaceFirst]
  | cons c text ih =>
    rw [replaceFirst, findFirst]
    split
    · simp
    · rw [ih]
      cases findFirst pattern text <;> rfl

/-- The length of a pattern is that of its characters, so that just the pattern is left out. -/
def Regular (pattern : String) : Prop := pattern ≠ "" ∧ utf8Strlen pattern lineMax = pattern.toList.length

instance (pattern : String) : Decidable (Regular pattern) := by unfold Regular; infer_instance

theorem replaceString_toList {pattern : String} (regular : Regular pattern) (text value : String) :
    (replaceString text pattern (some value)).toList =
      replaceFirst pattern.toList value.toList text.toList := by
  obtain ⟨visible, width⟩ := regular
  have some : pattern.toList ≠ [] := by simpa using visible
  rw [replaceFirst_eq_findFirst some, replaceString, if_neg visible, width]
  cases findFirst pattern.toList text.toList with
  | none => rfl
  | some found => simp

end Replacement

section Tags

def tagOf (entry : String × Option String) : Tag '@' where
  name := (entry.1.toList.drop 1).takeWhile (· != '@')
  value := (entry.2.getD "").toList
  apart inside := by simpa using List.mem_takeWhile_imp inside

def specialEntries (host : Host) (config : Config) : Option (List (String × Option String)) := do
  let vm ← config.vm
  let image ← host.stat vm.imagePath.text
  return commandLineTags config config.withConsole vm image.size (uuidText host.uuid)

def specialTags (host : Host) (config : Config) : Option (List (Tag '@')) :=
  (specialEntries host config).map fun entries => entries.map tagOf

def kernelParams (config : Config) : Option String := config.vm.bind VmConfig.kernelParams

def tagPatterns : List String :=
  ["@WORKLOAD_DIR@", "@KERNEL@", "@KERNEL_PARAMS@", "@IMAGE@", "@SIZE@", "@COMMS_SOCKET@",
    "@PROCESS_SOCKET@", "@CONSOLE_DEVICE@", "@NAME@", "@UUID@"]

def tagNames : List (List Char) := tagPatterns.map fun pattern => (tagOf (pattern, none)).name

theorem tagPatterns_regular : ∀ pattern ∈ tagPatterns,
    Regular pattern ∧ (tagOf (pattern, none)).text = pattern.toList := by decide

theorem tagNames_distinct : tagNames.Nodup := by decide

theorem tagNames_tails : ∀ name ∈ tagNames, ∀ other ∈ tagNames, other <:+ name → other = name := by
  decide

theorem tagNames_fresh : ∀ name ∈ tagNames, 'a' ∉ name ∧ 'b' ∉ name := by decide

variable {host : Host} {config : Config} {entries : List (String × Option String)}
  (found : specialEntries host config = some entries)
include found

theorem specialEntries_patterns : entries.map Prod.fst = tagPatterns := by
  simp only [specialEntries, Option.bind_eq_bind, Option.bind_eq_some_iff] at found
  obtain ⟨vm, -, image, -, rest⟩ := found
  obtain rfl := Option.some.inj rest
  rfl

theorem specialEntries_missing {entry : String × Option String} (member : entry ∈ entries)
    (missing : entry.2 = none) : entry.1 = "@KERNEL_PARAMS@" ∧ kernelParams config = none := by
  simp only [specialEntries, Option.bind_eq_bind, Option.bind_eq_some_iff] at found
  obtain ⟨vm, given, image, -, rest⟩ := found
  obtain rfl := Option.some.inj rest
  simp only [commandLineTags, List.mem_cons, List.not_mem_nil, or_false] at member
  rcases member with rfl | rfl | rfl | rfl | rfl | rfl | rfl | rfl | rfl | rfl
  case inr.inr.inl => exact ⟨rfl, by rw [kernelParams, given]; exact missing⟩
  all_goals cases missing

theorem specialEntries_regular {entry : String × Option String} (member : entry ∈ entries) :
    Regular entry.1 ∧ (tagOf entry).text = entry.1.toList := by
  have listed : entry.1 ∈ tagPatterns := specialEntries_patterns found ▸ List.mem_map_of_mem member
  exact tagPatterns_regular entry.1 listed

theorem specialEntries_names : (entries.map tagOf).map Tag.name = tagNames := by
  rw [tagNames, ← specialEntries_patterns found, List.map_map, List.map_map]
  rfl

theorem specialEntries_distinct : ((entries.map tagOf).map Tag.name).Nodup := by
  rw [specialEntries_names found]
  exact tagNames_distinct

/-- Whether the command line is expanded does not depend on the arguments. -/
theorem expandCmdline_args (args : List String) :
    (expandCmdline host config args).map Prod.snd =
      (expandCmdline host config []).map fun _ => (resolveCommand host args).map (expandArg entries) := by
  simp only [specialEntries, Option.bind_eq_bind, Option.bind_eq_some_iff] at found
  obtain ⟨vm, given, image, stat, rest⟩ := found
  obtain rfl := Option.some.inj rest
  simp only [expandCmdline, given, stat, Option.bind_eq_bind, Option.bind_some, guard]
  split <;> split <;> split <;> rfl

end Tags

section Expansion

def replaceEntry (text : List Char) (entry : String × Option String) : List Char :=
  if entry.2.isSome then replaceFirst (tagOf entry).text (tagOf entry).value text else text

theorem expandArg_toList {entries : List (String × Option String)}
    (regular : ∀ entry ∈ entries, Regular entry.1 ∧ (tagOf entry).text = entry.1.toList) (arg : String) :
    (expandArg entries arg).toList = entries.foldl replaceEntry arg.toList := by
  unfold expandArg
  induction entries generalizing arg with
  | nil => rfl
  | cons entry entries ih =>
    have step : (replaceString arg entry.1 entry.2).toList = replaceEntry arg.toList entry := by
      obtain ⟨width, text⟩ := regular entry List.mem_cons_self
      rw [replaceEntry, text, tagOf]
      cases entry.2 with
      | none => rfl
      | some value => exact replaceString_toList width arg value
    rw [List.foldl_cons, List.foldl_cons, ← step]
    exact ih (fun later member => regular later (List.mem_cons_of_mem entry member)) _

variable {host : Host} {config : Config} {entries : List (String × Option String)}
  (found : specialEntries host config = some entries)
include found

theorem specialEntries_present (params : (kernelParams config).isSome) :
    ∀ entry ∈ entries, entry.2.isSome := by
  intro entry member
  cases given : entry.2 with
  | some value => rfl
  | none =>
    rw [(specialEntries_missing found member given).2] at params
    cases params

theorem expandArg_eq_replaceAll (params : (kernelParams config).isSome)
    {part : List (String × Option String)} (within : ∀ entry ∈ part, entry ∈ entries) (arg : String) :
    (expandArg part arg).toList = replaceAll (part.map tagOf) arg.toList := by
  have regular := fun entry member => specialEntries_regular found (within entry member)
  rw [expandArg_toList regular, replaceAll, List.foldl_map]
  apply List.foldl_ext
  intro text entry member
  rw [replaceEntry, if_pos (specialEntries_present found params entry (within entry member))]

/-- An argument in which no name is made comes out with all tags replaced at once. -/
theorem expandArg_eq_expand {arg : String} (plain : ∀ tag ∈ entries.map tagOf, '@' ∉ tag.value)
    (params : (kernelParams config).isSome ∨ ¬ "@KERNEL_PARAMS@".toList <:+: arg.toList)
    (wellFormed : WellFormed (entries.map tagOf) arg.toList)
    (names : MakesNoName (entries.map tagOf) arg.toList) :
    (expandArg entries arg).toList = expand (entries.map tagOf) arg.toList := by
  have distinct := specialEntries_distinct found
  rw [expandArg_toList fun entry member => specialEntries_regular found member]
  apply foldl_eq_expand
  rintro earlier entry later rfl
  have member : entry ∈ earlier ++ entry :: later := List.mem_append_right earlier List.mem_cons_self
  have regular := specialEntries_regular found member
  rw [List.map_append, List.map_cons] at distinct wellFormed plain names
  rw [replaceEntry]
  cases given : entry.2 with
  | some value =>
    rw [Option.isSome_some, if_pos rfl]
    apply replace_step distinct wellFormed
    rintro (made | ⟨before, after, parts, made⟩)
    · exact not_madeUp distinct plain rfl names made
    · have starts : before ++ ['@'] <+: arg.toList :=
        ⟨(tagOf entry).name ++ ['@'] ++ after, by rw [parts]; simp [Tag.text]⟩
      exact not_madeUp distinct plain rfl (names.of_beginning starts) made
  | none =>
    obtain ⟨pattern, missing⟩ := specialEntries_missing found member given
    have absent : ¬ (tagOf entry).text <:+: arg.toList := by
      rw [regular.2, pattern]
      apply params.resolve_left
      rw [missing]
      exact Bool.false_ne_true
    rw [expand_snoc_of_absent (distinct_snoc distinct) absent]
    rfl

end Expansion

section Own
variable {earlier later : List (Tag '@')} {tag : Tag '@'} {text : List Char}

/-- What disturbs is found first, and is not the tag that the text has. -/
theorem disturbs_iff (distinct : ((earlier ++ tag :: later).map Tag.name).Nodup)
    (wellFormed : WellFormed (earlier ++ tag :: later) text) :
    Disturbs earlier tag text ↔ ∃ before after,
      FirstOccurrence tag.text (expand earlier text) before after ∧
        ∀ first second, text = first ++ tag.text ++ second → before ≠ expand earlier first := by
  have member : tag ∈ earlier ++ tag :: later := List.mem_append_right earlier List.mem_cons_self
  constructor
  · intro disturbs
    have inside : tag.text <:+: expand earlier text := by
      rcases disturbs with made | ⟨first, second, rfl, made⟩
      · exact made.2
      · have front := made.2
        rw [expand_before distinct wellFormed] at front
        rw [expand_around distinct wellFormed]
        exact front.trans ⟨[], tag.name ++ ['@'] ++ expand earlier second, by simp [Tag.text]⟩
    cases search : findFirst tag.text (expand earlier text) with
    | none => exact absurd inside (findFirst_eq_none_iff.mp search)
    | some result =>
      obtain ⟨before, found⟩ := result
      obtain ⟨after, -, occurrence⟩ := findFirst_first search
      refine ⟨before, after, occurrence, ?_⟩
      rintro first second parts rfl
      rcases disturbs with made | ⟨first', second', parts', made⟩
      · exact made.1 ⟨first, second, parts.symm⟩
      · obtain rfl := wellFormed.once tag member _ _ _ _ parts parts'
        subst parts
        have front := made.2
        rw [expand_before distinct wellFormed] at front
        obtain ⟨left, right, ends⟩ := front
        have whole : expand earlier (first ++ tag.text ++ second) =
            left ++ tag.text ++ (right ++ tag.name ++ ['@'] ++ expand earlier second) := by
          rw [expand_around distinct wellFormed]
          calc expand earlier first ++ tag.text ++ expand earlier second
              = expand earlier first ++ ['@'] ++ (tag.name ++ ['@'] ++ expand earlier second) := by
                simp [Tag.text]
            _ = left ++ tag.text ++ (right ++ tag.name ++ ['@'] ++ expand earlier second) := by
                rw [← ends]
                simp
        have least := occurrence.shortest _ _ whole
        have lengths := congrArg List.length ends
        simp only [List.length_append, Tag.text_length, List.length_singleton] at lengths
        omega
  · rintro ⟨before, after, occurrence, foreign⟩
    by_cases present : tag.text <:+: text
    · obtain ⟨first, second, rfl⟩ := present
      refine Or.inr ⟨first, second, rfl, ?_⟩
      by_contra unmade
      have own : FirstOccurrence tag.text (expand earlier first ++ tag.text ++ expand earlier second)
          (expand earlier first) (expand earlier second) :=
        firstOccurrence_of_not_infix tag.text_ne_nil (own_first distinct wellFormed unmade)
      rw [← expand_around distinct wellFormed] at own
      exact foreign first second rfl (occurrence.unique own).1
    · exact Or.inl ⟨present, occurrence.infix⟩

/-- Whatever the code replaces in an argument is a tag that the argument has, behind what the values of
the tags before it make of what stands in front of it. -/
def FindsOwn (host : Host) (config : Config) (arg : String) : Prop :=
  ∀ entries earlier entry later, specialEntries host config = some entries →
    entries = earlier ++ entry :: later → entry.2 ≠ some entry.1 →
    ∀ before after, FirstOccurrence entry.1.toList (expandArg earlier arg).toList before after →
      ∃ first second, arg.toList = first ++ entry.1.toList ++ second ∧
        before = expand (earlier.map tagOf) first

section Turns
variable {host : Host} {config : Config} {earlier later : List (String × Option String)}
  {entry : String × Option String} {arg : String}

theorem entry_own_iff (found : specialEntries host config = some (earlier ++ entry :: later))
    (params : (kernelParams config).isSome) :
    entry.2 = some entry.1 ↔ (tagOf entry).value = (tagOf entry).text := by
  have member : entry ∈ earlier ++ entry :: later := List.mem_append_right earlier List.mem_cons_self
  have text := (specialEntries_regular found member).2
  obtain ⟨value, given⟩ := Option.isSome_iff_exists.mp (specialEntries_present found params entry member)
  rw [text, given, Option.some_inj, tagOf, given]
  exact String.toList_inj.symm

/-- At the turn of an entry, what disturbs is a first occurrence that the argument does not have. -/
theorem disturbs_entry_iff (found : specialEntries host config = some (earlier ++ entry :: later))
    (params : (kernelParams config).isSome)
    (wellFormed : WellFormed ((earlier ++ entry :: later).map tagOf) arg.toList)
    (undisturbed : Undisturbed (earlier.map tagOf) arg.toList) :
    Disturbs (earlier.map tagOf) (tagOf entry) arg.toList ↔ ∃ before after,
      FirstOccurrence entry.1.toList (expandArg earlier arg).toList before after ∧
        ∀ first second, arg.toList = first ++ entry.1.toList ++ second →
          before ≠ expand (earlier.map tagOf) first := by
  have member : entry ∈ earlier ++ entry :: later := List.mem_append_right earlier List.mem_cons_self
  have within : ∀ other ∈ earlier, other ∈ earlier ++ entry :: later :=
    fun other before => List.mem_append_left _ before
  have distinct := specialEntries_distinct found
  rw [List.map_append, List.map_cons] at distinct wellFormed
  rw [disturbs_iff distinct wellFormed, (specialEntries_regular found member).2,
    expandArg_eq_replaceAll found params within,
    replaceAll_eq_expand_earlier distinct wellFormed undisturbed]

end Turns

theorem findsOwn_iff {host : Host} {config : Config} {entries : List (String × Option String)}
    (found : specialEntries host config = some entries) (params : (kernelParams config).isSome)
    {arg : String} (wellFormed : WellFormed (entries.map tagOf) arg.toList) :
    FindsOwn host config arg ↔ Undisturbed (entries.map tagOf) arg.toList := by
  constructor
  · intro own
    apply undisturbed_of_turns
    intro earlier tag later split undisturbed other disturbs
    obtain ⟨before, rest, rfl, rfl, tail⟩ := List.map_eq_append_iff.mp split
    obtain ⟨entry, after, rfl, rfl, rfl⟩ := List.map_eq_cons_iff.mp tail
    obtain ⟨start, ending, occurrence, foreign⟩ :=
      (disturbs_entry_iff found params wellFormed undisturbed).mp disturbs
    -- What disturbs this turn is replaced, but the argument does not have it there.
    have changes : entry.2 ≠ some entry.1 := mt (entry_own_iff found params).mp other
    obtain ⟨first, second, parts, front⟩ := own _ before entry after found rfl changes start ending occurrence
    exact foreign first second parts front
  · intro undisturbed entries' earlier entry later found' split other before after occurrence
    obtain rfl := Option.some.inj (found.symm.trans found')
    subst split
    rw [List.map_append, List.map_cons] at undisturbed
    by_contra foreign
    apply undisturbed _ _ _ rfl (mt (entry_own_iff found params).mpr other)
    refine (disturbs_entry_iff found params wellFormed undisturbed.front).mpr
      ⟨before, after, occurrence, fun first second parts front => ?_⟩
    exact foreign ⟨first, second, parts, front⟩

end Own

section Tagged

theorem of_no_delimiter (table : List (Tag '@')) {arg : String} (apart : '@' ∉ arg.toList) :
    WellFormed table arg.toList ∧ MakesNoName table arg.toList :=
  ⟨WellFormed.of_free fun _ _ inside => apart (inside.subset List.mem_cons_self),
    makesNoName_of_apart apart⟩

theorem undisturbed_of_no_delimiter (table : List (Tag '@')) {arg : String} (apart : '@' ∉ arg.toList) :
    Undisturbed table arg.toList := by
  have free (tag : Tag '@') : ¬ tag.text <:+: arg.toList :=
    fun inside => apart (inside.subset List.mem_cons_self)
  rintro earlier tag later - - (made | ⟨before, after, parts, -⟩)
  · have inside := made.2
    rw [expand_of_free fun other _ => free other] at inside
    exact free tag inside
  · exact free tag ⟨before, after, parts.symm⟩

theorem of_pattern (table : List (Tag '@')) (pattern : String)
    (text : (tagOf (pattern, none)).text = pattern.toList) :
    WellFormed table pattern.toList ∧ MakesNoName table pattern.toList := by
  rw [← text]
  exact ⟨Tag.wellFormed _, Tag.makesNoName _⟩

def vmSection (kernel : String) : GNode :=
  .node (some "vm") (jsonParseAux (.object [("path", .string "/usr/bin/qemu"),
    ("image", .string "/images/clear.img"),
    ("kernel", .object [("path", .string kernel), ("parameters", .string "quiet")])]) false)

/-- What is made of the section on a host where nothing fails. -/
def vmHandled (kernel : String) : Bool × Parse :=
  vmHandleSection Host.calm (vmSection kernel) { config := {} }

def taggedConfig (kernel : String) : Config where
  oci := { root := { path := Buffer.copy _ "/bundle/rootfs" } }
  vm := (vmHandled kernel).2.config.vm
  state := {
    runtimePath := Buffer.copy _ "/run/pod"
    commsPath := Buffer.copy _ "/run/pod/hypervisor.sock"
    procsockPath := Buffer.copy _ "/run/pod/process.sock" }

def taggedTable (kernel : String) : List (Tag '@') :=
  (specialTags Host.calm (taggedConfig kernel)).getD []

theorem taggedTable_plain : ∀ tag ∈ taggedTable "/images/vmlinux", '@' ∉ tag.value := by decide +kernel

end Tagged

section CommandLine
variable {host : Host} {config : Config} {table : List (Tag '@')}

def expandedAtOnce (table : List (Tag '@')) (args : List String) : List String :=
  args.map fun arg => String.ofList (expand table arg.toList)

/-- Tags that each argument has at most once are all replaced, if no value has a delimiter and no name
is made; a missing value must not be asked for. -/
theorem expandCmdline_leaves_no_tag {args args' : List String} {prepared : Config}
    (tags : specialTags host config = some table)
    (done : expandCmdline host config args = some (prepared, args'))
    (plain : ∀ tag ∈ table, '@' ∉ tag.value)
    (params : (kernelParams config).isSome ∨
      ∀ arg ∈ resolveCommand host args, ¬ "@KERNEL_PARAMS@".toList <:+: arg.toList)
    (wellFormed : ∀ arg ∈ resolveCommand host args, WellFormed table arg.toList)
    (names : ∀ arg ∈ resolveCommand host args, MakesNoName table arg.toList) :
    args' = expandedAtOnce table (resolveCommand host args) ∧
      ∀ arg' ∈ args', ∀ tag ∈ table, ¬ tag.text <:+: arg'.toList := by
  obtain ⟨entries, found, rfl⟩ := Option.map_eq_some_iff.mp tags
  have expanded : args' = (resolveCommand host args).map (expandArg entries) := by
    have outcome := expandCmdline_args found args
    rw [done] at outcome
    cases accepted : expandCmdline host config [] with
    | none =>
      rw [accepted] at outcome
      cases outcome
    | some _ =>
      rw [accepted] at outcome
      exact Option.some.inj outcome
  have atOnce : args' = expandedAtOnce (entries.map tagOf) (resolveCommand host args) := by
    rw [expanded, expandedAtOnce]
    apply List.map_congr_left
    intro arg member
    rw [← expandArg_eq_expand found plain (params.imp_right fun absent => absent arg member)
      (wellFormed arg member) (names arg member), String.ofList_toList]
  refine ⟨atOnce, ?_⟩
  rw [atOnce]
  intro arg' member
  obtain ⟨arg, member', rfl⟩ := List.mem_map.mp member
  rw [String.toList_ofList]
  exact no_tag_of_expand (specialEntries_distinct found) plain (names arg member')

theorem expandCmdline_leaves_no_tag_qemu :
    let table := taggedTable "/images/vmlinux"
    ["/usr/bin/qemu", "/images/vmlinux", "000000000000"] =
        expandedAtOnce table ["/usr/bin/qemu", "@KERNEL@", "@NAME@"] ∧
      ∀ arg' ∈ ["/usr/bin/qemu", "/images/vmlinux", "000000000000"], ∀ tag ∈ table,
        ¬ tag.text <:+: arg'.toList := by
  have printed : (expandCmdline Host.calm (taggedConfig "/images/vmlinux")
      ["/usr/bin/qemu", "@KERNEL@", "@NAME@"]).map Prod.snd =
        some ["/usr/bin/qemu", "/images/vmlinux", "000000000000"] := by decide +kernel
  obtain ⟨⟨prepared, args'⟩, done, rfl⟩ := Option.map_eq_some_iff.mp printed
  have each : ∀ arg ∈ ["/usr/bin/qemu", "@KERNEL@", "@NAME@"],
      WellFormed (taggedTable "/images/vmlinux") arg.toList ∧
        MakesNoName (taggedTable "/images/vmlinux") arg.toList := by
    intro arg member
    simp only [List.mem_cons, List.not_mem_nil, or_false] at member
    rcases member with rfl | rfl | rfl
    · exact of_no_delimiter _ (by decide)
    · exact of_pattern _ _ (by decide)
    · exact of_pattern _ _ (by decide)
  exact expandCmdline_leaves_no_tag rfl done taggedTable_plain (Or.inl rfl)
    (fun arg member => (each arg member).1) fun arg member => (each arg member).2

def LeavesNoTag (host : Host) (config : Config) (args : List String) : Prop :=
  ∀ table prepared args', specialTags host config = some table →
    expandCmdline host config args = some (prepared, args') → (∀ tag ∈ table, '@' ∉ tag.value) →
    (∀ arg ∈ resolveCommand host args, ¬ Overlap table arg.toList) →
    ∀ arg' ∈ args', ∀ tag ∈ table, ¬ tag.text <:+: arg'.toList

/-- Of two tags of one name the second is kept. -/
theorem second_tag_kept : (vmHandled "/images/vmlinux").1 = true ∧
    ¬ LeavesNoTag Host.calm (taggedConfig "/images/vmlinux") ["/usr/bin/qemu", "@NAME@ @NAME@"] := by
  refine ⟨by decide, fun leaves => ?_⟩
  have printed : (expandCmdline Host.calm (taggedConfig "/images/vmlinux")
      ["/usr/bin/qemu", "@NAME@ @NAME@"]).map Prod.snd =
        some ["/usr/bin/qemu", "000000000000 @NAME@"] := by decide +kernel
  obtain ⟨⟨prepared, args'⟩, done, rfl⟩ := Option.map_eq_some_iff.mp printed
  have apart : ∀ arg ∈ ["/usr/bin/qemu", "@NAME@ @NAME@"],
      ¬ Overlap (taggedTable "/images/vmlinux") arg.toList := by
    intro arg member
    simp only [List.mem_cons, List.not_mem_nil, or_false] at member
    rcases member with rfl | rfl
    · exact (of_no_delimiter _ (by decide)).1.apart
    · have name := (of_pattern (taggedTable "/images/vmlinux") "@NAME@" (by decide)).1.apart
      have fresh : ∀ tag ∈ taggedTable "/images/vmlinux", ' ' ∉ tag.text := by decide +kernel
      exact not_overlap_gap (n := 0) fresh name name
  have free := leaves _ _ _ rfl done taggedTable_plain apart "000000000000 @NAME@" (by simp)
  exact absurd free (by decide +kernel)

def ExpandsAtOnce (host : Host) (config : Config) (table : List (Tag '@')) (args : List String) : Prop :=
  (expandCmdline host config args).map Prod.snd = some (expandedAtOnce table (resolveCommand host args))

def TagsApart (host : Host) (table : List (Tag '@')) (args : List String) : Prop :=
  ∀ arg ∈ resolveCommand host args, WellFormed table arg.toList

/-- The values are put in as they are where no tag comes up ahead of the argument's own, that is,
where nothing else is replaced; and for all arguments exactly if no value completes a tag that is
replaced later. -/
theorem expandsAtOnce_iff (tags : specialTags host config = some table)
    (params : (kernelParams config).isSome) (accepted : (expandCmdline host config []).isSome) :
    (∀ args, TagsApart host table args →
      (∀ arg ∈ resolveCommand host args, Undisturbed table arg.toList) →
        ExpandsAtOnce host config table args) ∧
    (∀ arg, WellFormed table arg.toList → (Undisturbed table arg.toList ↔ FindsOwn host config arg)) ∧
    ((∀ args, TagsApart host table args → ExpandsAtOnce host config table args) ↔ Uncompleted table) := by
  obtain ⟨entries, found, rfl⟩ := Option.map_eq_some_iff.mp tags
  have distinct := specialEntries_distinct found
  have named : ∀ tag ∈ entries.map tagOf, tag.name ∈ tagNames :=
    fun tag member => specialEntries_names found ▸ List.mem_map_of_mem member
  have tails : ∀ tag ∈ entries.map tagOf, ∀ other ∈ entries.map tagOf,
      other.name <:+ tag.name → other.name = tag.name :=
    fun tag member other member' => tagNames_tails tag.name (named tag member) other.name (named other member')
  have fresh : ∀ tag ∈ entries.map tagOf, 'a' ∉ tag.text ∧ 'b' ∉ tag.text := by
    intro tag member
    obtain ⟨one, two⟩ := tagNames_fresh tag.name (named tag member)
    simp [Tag.text, one, two]
  have sequence (args : List String) : (expandCmdline host config args).map Prod.snd =
      some ((resolveCommand host args).map (expandArg entries)) := by
    rw [expandCmdline_args found args, Option.map_eq_some_iff]
    obtain ⟨result, done⟩ := Option.isSome_iff_exists.mp accepted
    exact ⟨result, done, rfl⟩
  have replaced (arg : String) : (expandArg entries arg).toList = replaceAll (entries.map tagOf) arg.toList :=
    expandArg_eq_replaceAll found params (fun _ member => member) arg
  have each (args : List String) (same : ∀ arg ∈ resolveCommand host args,
      replaceAll (entries.map tagOf) arg.toList = expand (entries.map tagOf) arg.toList) :
      ExpandsAtOnce host config (entries.map tagOf) args := by
    rw [ExpandsAtOnce, sequence, expandedAtOnce]
    apply congrArg some
    apply List.map_congr_left
    intro arg member
    rw [← same arg member, ← replaced, String.ofList_toList]
  refine ⟨fun args wellFormed undisturbed => each args fun arg member => ?_,
    fun arg wellFormed => (findsOwn_iff found params wellFormed).symm, ?_⟩
  · exact replaceAll_eq_expand distinct (wellFormed arg member) (undisturbed arg member)
  rw [← replaceAll_eq_expand_iff distinct tails (by decide) (fun tag member => (fresh tag member).1)
    fun tag member => (fresh tag member).2]
  constructor
  · intro atOnce text wellFormed
    -- The text is an argument behind a command that is not looked up.
    have command : resolveCommand host ["/", String.ofList text] = ["/", String.ofList text] := rfl
    have small : WellFormed (entries.map tagOf) "/".toList := by
      apply WellFormed.of_free
      intro tag member inside
      have lengths := inside.length_le
      rw [Tag.text_length] at lengths
      simp at lengths
    have run := atOnce ["/", String.ofList text]
    rw [TagsApart, ExpandsAtOnce, sequence, command] at run
    have both := Option.some.inj (run (by simpa using ⟨small, wellFormed⟩))
    have second := (List.cons.inj (List.cons.inj both).2).1
    have chars := congrArg String.toList second
    rw [replaced] at chars
    simpa only [String.toList_ofList] using chars
  · intro same args wellFormed
    exact each args fun arg member => same arg.toList (wellFormed arg member)

-- Ordinary paths complete no tag.
example : Uncompleted (taggedTable "/images/vmlinux") := by decide +kernel

theorem expandsAtOnce_iff_tagged :
    let table := taggedTable "/images/@IMAGE@/vmlinux"
    let config := taggedConfig "/images/@IMAGE@/vmlinux"
    ExpandsAtOnce Host.calm config table ["/usr/bin/qemu", "-S"] ∧
      ((∀ args, TagsApart Host.calm table args → ExpandsAtOnce Host.calm config table args) ↔
        Uncompleted table) := by
  have plain : ∀ arg ∈ resolveCommand Host.calm ["/usr/bin/qemu", "-S"], '@' ∉ arg.toList := by decide
  obtain ⟨atOnce, -, exactly⟩ := @expandsAtOnce_iff Host.calm (taggedConfig "/images/@IMAGE@/vmlinux") _
    rfl rfl (by decide +kernel)
  refine ⟨atOnce _ (fun arg member => ?_) fun arg member => ?_, exactly⟩
  · exact (of_no_delimiter _ (plain arg member)).1
  · exact undisturbed_of_no_delimiter _ (plain arg member)

/-- A value that has a tag does not come out as it is. -/
theorem value_rewritten :
    let table := taggedTable "/images/@IMAGE@/vmlinux"
    let config := taggedConfig "/images/@IMAGE@/vmlinux"
    TagsApart Host.calm table ["/usr/bin/qemu", "@KERNEL@"] ∧
      ¬ ExpandsAtOnce Host.calm config table ["/usr/bin/qemu", "@KERNEL@"] ∧
      expandedAtOnce table ["/usr/bin/qemu", "@KERNEL@"] = ["/usr/bin/qemu", "/images/@IMAGE@/vmlinux"] ∧
      (expandCmdline Host.calm config ["/usr/bin/qemu", "@KERNEL@"]).map Prod.snd =
        some ["/usr/bin/qemu", "/images//images/clear.img/vmlinux"] := by
  have verbatim : expandedAtOnce (taggedTable "/images/@IMAGE@/vmlinux") ["/usr/bin/qemu", "@KERNEL@"] =
      ["/usr/bin/qemu", "/images/@IMAGE@/vmlinux"] := by decide +kernel
  have rewritten : (expandCmdline Host.calm (taggedConfig "/images/@IMAGE@/vmlinux")
      ["/usr/bin/qemu", "@KERNEL@"]).map Prod.snd =
        some ["/usr/bin/qemu", "/images//images/clear.img/vmlinux"] := by decide +kernel
  have command : resolveCommand Host.calm ["/usr/bin/qemu", "@KERNEL@"] = ["/usr/bin/qemu", "@KERNEL@"] := rfl
  refine ⟨fun arg member => ?_, fun atOnce => ?_, verbatim, rewritten⟩
  · rw [command] at member
    simp only [List.mem_cons, List.not_mem_nil, or_false] at member
    rcases member with rfl | rfl
    · exact (of_no_delimiter _ (by decide)).1
    · exact (of_pattern _ _ (by decide)).1
  · rw [ExpandsAtOnce, rewritten, command, verbatim] at atOnce
    exact absurd atOnce (by decide)

end CommandLine

end ClrOci
