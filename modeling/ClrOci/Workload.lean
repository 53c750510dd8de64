import ClrOci.Container
import ClrOci.Foundation.Shell

/-! The files that the workload is started from: what is read back from the environment file and
from the script.
-/

set_option autoImplicit false

namespace ClrOci

open Foundation

section Written
variable {env : Env} {world : World}

def envWrites (config : Config) : List Event :=
  (config.oci.process.env.map fun entries =>
    Event.wrote (envFilePath config) (.text (strjoin "\n" entries))).toList

theorem setContents_trace {path : String} {content : Content} {sys : Sys}
    (ok : (setContents env path content sys).1 = true) :
    (setContents env path content sys).2.trace = sys.trace ++ [.wrote path content] := by
  unfold setContents at ok ⊢
  split at ok
  · next done => rw [if_pos done]; rfl
  · cases ok

theorem createEnvFile_trace {config : Config} {sys : Sys} (ok : (createEnvFile env config sys).1 = true) :
    (createEnvFile env config sys).2.trace = sys.trace ++ envWrites config := by
  unfold createEnvFile at ok ⊢
  unfold envWrites
  cases given : config.oci.process.env with
  | none => simp
  | some entries =>
    rw [given] at ok
    exact setContents_trace ok

def workloadPathOf (config : Config) : String := (Buffer.copy 4095 (workloadFilePath config)).text

theorem createContainerWorkload_writes (ok : (createContainerWorkload env).Succeeds world) :
    ∃ args, world.config.oci.process.args = some args ∧
      world.sys.eventsSince (createContainerWorkload env world).state.sys =
        envWrites world.config ++ [.wrote (workloadPathOf world.config)
          (.text (workloadScript world.config.oci.process.cwd (args.map shellQuote)))] := by
  unfold Action.Succeeds createContainerWorkload at ok
  unfold createContainerWorkload
  cases given : world.config.oci.process.args with
  | none =>
    rw [given] at ok
    cases ok
  | some args =>
    cases vm : world.config.vm with
    | none =>
      rw [given, vm] at ok
      cases ok
    | some vm' =>
      rw [given, vm] at ok
      dsimp only at ok ⊢
      cases made : (createEnvFile env world.config world.sys).1 with
      | false =>
        rw [made] at ok
        cases ok
      | true =>
        rw [made] at ok
        have written := setContents_trace (Exit.returned.inj ok)
        rw [createEnvFile_trace made, List.append_assoc] at written
        exact ⟨args, rfl, Sys.eventsSince_of_append written⟩

end Written

section Script

theorem reads_shellQuote (text : String) : Shell.Reads (shellQuote text).toList text.toList := by
  have inside (text word : List Char) (words : List (List Char)) (done : List (List (List Char))) :
      ((text.flatMap fun c => if c = '\'' then "'\\''".toList else [c]) ++ ['\'']).foldlM
          Shell.Reading.step ⟨.single, some word, words, done⟩ =
        some ⟨.unquoted, some (word ++ text), words, done⟩ := by
    induction text generalizing word with
    | nil => simp [Shell.Reading.step]
    | cons c text ih =>
      rw [List.flatMap_cons, List.append_assoc, List.foldlM_append]
      have read : (if c = '\'' then "'\\''".toList else [c]).foldlM Shell.Reading.step
          ⟨.single, some word, words, done⟩ = some ⟨.single, some (word ++ [c]), words, done⟩ := by
        split
        · next quote =>
          subst quote
          rfl
        · next other => simp [Shell.Reading.step, Shell.Reading.push, other]
      rw [read, Option.bind_eq_bind, Option.bind_some, ih, List.append_assoc, List.singleton_append]
  intro words done
  have quoted : (shellQuote text).toList = '\'' ::
      ((text.toList.flatMap fun c => if c = '\'' then "'\\''".toList else [c]) ++ ['\'']) := by
    simp [shellQuote]
  have begun : Shell.Reading.step ⟨.unquoted, none, words, done⟩ '\'' =
      some ⟨.single, some [], words, done⟩ := rfl
  rw [quoted, List.foldlM_cons, begun, Option.bind_eq_bind, Option.bind_some, inside, List.nil_append]

def afterFirstLine (text : List Char) : List Char := (text.dropWhile (· != '\n')).drop 1

/-- The commands that a shell reads in a script after its first line. -/
def scriptCommands (script : String) : Option (List (List String)) :=
  (Shell.commands (afterFirstLine script.toList)).map fun commands =>
    commands.map fun words => words.map String.ofList

theorem scriptCommands_workloadScript (cwd : PathBuffer) {args : List String} (some : args ≠ []) :
    scriptCommands (workloadScript cwd (args.map shellQuote)) =
      Option.some [["cd", cwd.text], args] := by
  have lines : afterFirstLine (workloadScript cwd (args.map shellQuote)).toList =
      [["cd".toList, (shellQuote cwd.text).toList], args.map fun arg => (shellQuote arg).toList].flatMap
        fun line => [' '].intercalate line ++ ['\n'] := by
    have text : (workloadScript cwd (args.map shellQuote)).toList = "#!/bin/sh".toList ++
        '\n' :: ("cd ".toList ++ (shellQuote cwd.text).toList ++
          '\n' :: ([' '].intercalate (args.map fun arg => (shellQuote arg).toList) ++ ['\n'])) := by
      simp [workloadScript, workloadShell, strjoin, Function.comp_def]
    have first : ∀ c ∈ "#!/bin/sh".toList, (c != '\n') = true := List.all_eq_true.mp (by decide)
    rw [text, afterFirstLine, List.dropWhile_append_of_pos first]
    simp
  have cd : Shell.Reads "cd".toList "cd".toList := by
    apply Shell.reads_plain
    · decide
    · intro c member
      rcases List.mem_cons.mp member with rfl | member
      · exact ⟨by decide, by decide⟩
      · rw [List.mem_singleton.mp member]
        exact ⟨by decide, by decide⟩
  have words : List.Forall₂ Shell.Reads (args.map fun arg => (shellQuote arg).toList)
      (args.map String.toList) := by
    rw [List.forall₂_map_left_iff, List.forall₂_map_right_iff, List.forall₂_same]
    exact fun arg _ => reads_shellQuote arg
  have first : List.Forall₂ Shell.Reads ["cd".toList, (shellQuote cwd.text).toList]
      ["cd".toList, cwd.text.toList] := .cons cd (.cons (reads_shellQuote cwd.text) .nil)
  have read := Shell.commands_of_lines
    (.cons ⟨List.cons_ne_nil _ _, first⟩ (.cons ⟨by simpa using some, words⟩ .nil))
  rw [scriptCommands, lines, read]
  simp

/-- The script of a workload that is created changes directory and runs the arguments. -/
theorem createContainerWorkload_reads {env : Env} {world : World} {args : List String}
    (given : world.config.oci.process.args = some args) (nonempty : args ≠ [])
    (ok : (createContainerWorkload env).Succeeds world) :
    ∃ script, (world.sys.eventsSince (createContainerWorkload env world).state.sys).getLast? =
        some (.wrote (workloadPathOf world.config) (.text script)) ∧
      scriptCommands script = some [["cd", world.config.oci.process.cwd.text], args] := by
  obtain ⟨args', given', writes⟩ := createContainerWorkload_writes ok
  rw [given] at given'
  cases given'
  refine ⟨workloadScript world.config.oci.process.cwd (args.map shellQuote), ?_, ?_⟩
  · rw [writes, List.getLast?_concat]
  · exact scriptCommands_workloadScript _ nonempty

end Script

def workloadWorld (args : List String) (entries : Option (List String)) : World where
  config := {
    oci := { process := { args := some args, cwd := Buffer.copy _ "/", env := entries } }
    vm := some {} }
  sys := Sys.idle fun _ => none

theorem workloadWorld_succeeds (args : List String) (entries : Option (List String)) :
    (createContainerWorkload Env.calm).Succeeds (workloadWorld args entries) := by
  cases entries <;> rfl

theorem createContainerWorkload_reads_echo :
    let world := workloadWorld ["echo", "it's", "", "$HOME\n; reboot"] none
    ∃ script, (world.sys.eventsSince (createContainerWorkload Env.calm world).state.sys).getLast? =
        some (.wrote (workloadPathOf world.config) (.text script)) ∧
      scriptCommands script = some [["cd", "/"], ["echo", "it's", "", "$HOME\n; reboot"]] :=
  createContainerWorkload_reads rfl (List.cons_ne_nil _ _) (workloadWorld_succeeds _ none)

section Environment

/-- The entries are what a way of splitting finds in the environment file, whenever it is written. -/
def KeepsEntries (split : String → List String) (entries : List String) : Prop :=
  ∀ (env : Env) (world : World), world.config.oci.process.env = some entries →
    (createContainerWorkload env).Succeeds world →
    ∃ text, (world.sys.eventsSince (createContainerWorkload env world).state.sys).head? =
        some (.wrote (envFilePath world.config) (.text text)) ∧ split text = entries

def lines (text : String) : List String := (splitAt '\n' none [] text.toList).map String.ofList

def strsplitLines (text : String) : List String := strsplit text '\n' none

theorem keepsEntries_iff_split (split : String → List String) (entries : List String) :
    KeepsEntries split entries ↔ split (strjoin "\n" entries) = entries := by
  have written {env : Env} {world : World} (given : world.config.oci.process.env = some entries)
      (ok : (createContainerWorkload env).Succeeds world) :
      (world.sys.eventsSince (createContainerWorkload env world).state.sys).head? =
        some (.wrote (envFilePath world.config) (.text (strjoin "\n" entries))) := by
    obtain ⟨args, -, writes⟩ := createContainerWorkload_writes ok
    rw [writes, envWrites, given]
    rfl
  constructor
  · intro keeps
    have ok := workloadWorld_succeeds ["sh"] (some entries)
    obtain ⟨text, first, same⟩ := keeps Env.calm (workloadWorld ["sh"] (some entries)) rfl ok
    rw [written rfl ok] at first
    cases first
    exact same
  · intro same env world given ok
    exact ⟨strjoin "\n" entries, written given ok, same⟩

theorem lines_strjoin_iff (entries : List String) :
    lines (strjoin "\n" entries) = entries ↔
      entries ≠ [] ∧ ∀ entry ∈ entries, '\n' ∉ entry.toList := by
  have joined : (strjoin "\n" entries).toList = ['\n'].intercalate (entries.map String.toList) :=
    String.toList_intercalate
  have same : lines (strjoin "\n" entries) = entries ↔
      splitAt '\n' none [] (['\n'].intercalate (entries.map String.toList)) =
        entries.map String.toList := by
    rw [lines, joined]
    constructor
    · intro same
      have read := congrArg (List.map String.toList) same
      rw [List.map_map] at read
      simpa [Function.comp_def] using read
    · intro same
      rw [same, List.map_map]
      simp [Function.comp_def]
  rw [same, splitAt_intercalate_iff]
  simp

theorem strsplitLines_strjoin_iff (entries : List String) :
    strsplitLines (strjoin "\n" entries) = entries ↔
      entries ≠ [""] ∧ ∀ entry ∈ entries, '\n' ∉ entry.toList := by
  have visible : "\n" ≠ "" := by decide
  by_cases blank : strjoin "\n" entries = ""
  · rw [strsplitLines, strsplit, if_pos blank]
    rcases (strjoin_eq_empty_iff visible).mp blank with rfl | rfl <;> simp
  · have shown : entries ≠ [] ∧ entries ≠ [""] := by
      rw [strjoin_eq_empty_iff visible, not_or] at blank
      exact blank
    have same : strsplitLines (strjoin "\n" entries) = lines (strjoin "\n" entries) := by
      rw [strsplitLines, strsplit, if_neg blank, lines]
    rw [same, lines_strjoin_iff, and_iff_right shown.1, and_iff_right shown.2]

/-- The entries are found again exactly if none contains a newline, but for what an empty file means. -/
theorem keepsEntries_iff (entries : List String) :
    (KeepsEntries lines entries ↔ entries ≠ [] ∧ ∀ entry ∈ entries, '\n' ∉ entry.toList) ∧
      (KeepsEntries strsplitLines entries ↔
        entries ≠ [""] ∧ ∀ entry ∈ entries, '\n' ∉ entry.toList) := by
  rw [keepsEntries_iff_split, keepsEntries_iff_split]
  exact ⟨lines_strjoin_iff entries, strsplitLines_strjoin_iff entries⟩

/-- An entry with a newline makes two. -/
theorem entries_injected :
    ¬ KeepsEntries lines ["TERM=dumb\nLD_PRELOAD=/evil.so"] ∧
      ¬ KeepsEntries strsplitLines ["TERM=dumb\nLD_PRELOAD=/evil.so"] ∧
      lines (strjoin "\n" ["TERM=dumb\nLD_PRELOAD=/evil.so"]) = ["TERM=dumb", "LD_PRELOAD=/evil.so"] := by
  rw [keepsEntries_iff_split, keepsEntries_iff_split]
  decide

end Environment

end ClrOci
