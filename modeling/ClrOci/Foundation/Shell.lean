import Mathlib.Data.List.Forall2

/-! How a POSIX shell reads a text into simple commands.

A character outside quotes that the shell gives a meaning of its own, other than
separating words and commands, ends the reading, as does an expansion inside
double quotes and a quotation that is left open.
-/

set_option autoImplicit false

namespace ClrOci.Foundation.Shell

inductive Mode where
  | unquoted | escaped | single | double | doubleEscaped
  deriving DecidableEq

structure Reading where
  mode : Mode := .unquoted
  word : Option (List Char) := none
  words : List (List Char) := []
  commands : List (List (List Char)) := []

def special : List Char :=
  ['|', '&', ';', '<', '>', '(', ')', '$', '`', '*', '?', '[', '#', '~', '=', '%', '!', '{', '}']

def escapable : List Char := ['$', '`', '"', '\\']

namespace Reading

def push (reading : Reading) (c : Char) : Reading :=
  { reading with word := some (reading.word.getD [] ++ [c]) }

def beginWord (reading : Reading) : Reading := { reading with word := some (reading.word.getD []) }

def endWord (reading : Reading) : Reading :=
  match reading.word with
  | none => reading
  | some word => { reading with word := none, words := reading.words ++ [word] }

def endCommand (reading : Reading) : Reading :=
  let ended := reading.endWord
  if ended.words = [] then ended
  else { ended with words := [], commands := ended.commands ++ [ended.words] }

def step (reading : Reading) (c : Char) : Option Reading :=
  match reading.mode with
  | .unquoted =>
    if c = '\'' then some { reading.beginWord with mode := .single }
    else if c = '"' then some { reading.beginWord with mode := .double }
    else if c = '\\' then some { reading with mode := .escaped }
    else if c = ' ' ∨ c = '\t' then some reading.endWord
    else if c = '\n' then some reading.endCommand
    else if c ∈ special then none
    else some (reading.push c)
  | .escaped =>
    -- An escaped newline is a line continuation.
    let back := { reading with mode := .unquoted }
    if c = '\n' then some back else some (back.push c)
  | .single =>
    if c = '\'' then some { reading with mode := .unquoted } else some (reading.push c)
  | .double =>
    if c = '"' then some { reading with mode := .unquoted }
    else if c = '\\' then some { reading with mode := .doubleEscaped }
    else if c = '$' ∨ c = '`' then none
    else some (reading.push c)
  | .doubleEscaped =>
    let back := { reading with mode := .double }
    if c = '\n' then some back
    else if c ∈ escapable then some (back.push c)
    else some ((back.push '\\').push c)

def finish (reading : Reading) : Option (List (List (List Char))) :=
  if reading.mode = .unquoted then some reading.endCommand.commands else none

end Reading

def commands (text : List Char) : Option (List (List (List Char))) :=
  (text.foldlM Reading.step {}).bind Reading.finish

section Words
variable {words : List (List Char)} {done : List (List (List Char))}

def Reads (text word : List Char) : Prop :=
  ∀ words done, text.foldlM Reading.step ⟨.unquoted, none, words, done⟩ =
    some ⟨.unquoted, some word, words, done⟩

def Plain (c : Char) : Prop := c ∉ special ∧ c ∉ ['\'', '"', '\\', ' ', '\t', '\n']

theorem step_plain {c : Char} (plain : Plain c) (word : Option (List Char)) :
    Reading.step ⟨.unquoted, word, words, done⟩ c =
      some ⟨.unquoted, some (word.getD [] ++ [c]), words, done⟩ := by
  obtain ⟨ordinary, others⟩ := plain
  simp only [List.mem_cons, List.not_mem_nil, or_false, not_or] at others
  obtain ⟨noSingle, noDouble, noBackslash, noBlank, noTab, noNewline⟩ := others
  simp [Reading.step, ordinary, noSingle, noDouble, noBackslash, noBlank, noTab, noNewline, Reading.push]

theorem reads_plain {text : List Char} (some : text ≠ []) (plain : ∀ c ∈ text, Plain c) :
    Reads text text := by
  have later {text : List Char} (plain : ∀ c ∈ text, Plain c) (word : List Char) words done :
      text.foldlM Reading.step ⟨.unquoted, Option.some word, words, done⟩ =
        Option.some ⟨.unquoted, Option.some (word ++ text), words, done⟩ := by
    induction text generalizing word with
    | nil => simp
    | cons c text ih =>
      obtain ⟨here, rest⟩ := List.forall_mem_cons.mp plain
      rw [List.foldlM_cons, step_plain here, Option.bind_eq_bind, Option.bind_some, ih rest,
        Option.getD_some, List.append_assoc, List.singleton_append]
  intro words done
  obtain ⟨c, text, rfl⟩ := List.exists_cons_of_ne_nil some
  obtain ⟨here, rest⟩ := List.forall_mem_cons.mp plain
  rw [List.foldlM_cons, step_plain here, Option.bind_eq_bind, Option.bind_some, later rest]
  rfl

theorem step_blank (word : List Char) :
    Reading.step ⟨.unquoted, some word, words, done⟩ ' ' =
      some ⟨.unquoted, none, words ++ [word], done⟩ := rfl

theorem step_newline (word : List Char) :
    Reading.step ⟨.unquoted, some word, words, done⟩ '\n' =
      some ⟨.unquoted, none, [], done ++ [words ++ [word]]⟩ := by
  simp [Reading.step, Reading.endCommand, Reading.endWord]

theorem foldlM_command {texts read : List (List Char)} (some : texts ≠ [])
    (reads : List.Forall₂ Reads texts read) (words : List (List Char))
    (done : List (List (List Char))) :
    ([' '].intercalate texts ++ ['\n']).foldlM Reading.step ⟨.unquoted, none, words, done⟩ =
      Option.some ⟨.unquoted, none, [], done ++ [words ++ read]⟩ := by
  induction reads generalizing words with
  | nil => exact absurd rfl some
  | @cons text word texts read first rest ih =>
    cases rest with
    | nil =>
      rw [List.intercalate_singleton, List.foldlM_append, first words done, Option.bind_eq_bind,
        Option.bind_some, List.foldlM_cons, step_newline]
      rfl
    | cons next others =>
      have later := ih (List.cons_ne_nil _ _) (words ++ [word])
      rw [List.intercalate_cons_cons, List.append_assoc, List.append_assoc, List.foldlM_append,
        first words done, Option.bind_eq_bind, Option.bind_some, List.singleton_append,
        List.foldlM_cons, step_blank, Option.bind_eq_bind, Option.bind_some, later,
        List.append_assoc, List.singleton_append]

end Words

theorem commands_of_lines {lines read : List (List (List Char))}
    (reads : List.Forall₂ (fun line words => line ≠ [] ∧ List.Forall₂ Reads line words) lines read) :
    commands (lines.flatMap fun line => [' '].intercalate line ++ ['\n']) = some read := by
  have run (done : List (List (List Char))) :
      (lines.flatMap fun line => [' '].intercalate line ++ ['\n']).foldlM Reading.step
        ⟨.unquoted, none, [], done⟩ = some ⟨.unquoted, none, [], done ++ read⟩ := by
    induction reads generalizing done with
    | nil => simp
    | @cons line words lines read first rest ih =>
      rw [List.flatMap_cons, List.foldlM_append, foldlM_command first.1 first.2, Option.bind_eq_bind,
        Option.bind_some, List.nil_append, ih, List.append_assoc, List.singleton_append]
  rw [commands]
  change (List.foldlM Reading.step ⟨.unquoted, none, [], []⟩ _).bind _ = _
  rw [run]
  rfl

end ClrOci.Foundation.Shell
