import ClrOci.Host

/-! From the command line to the exit status.

The option parser, the rights of the user and the handlers are given; the way between
them is that of `main.c`.
-/

set_option autoImplicit false

namespace ClrOci

open Foundation

/-- `struct subcommand`: its name, and whether it has options of its own. -/
structure Subcommand where
  name : String
  options : Bool := false
  deriving DecidableEq

/-- `subcommands`. -/
def subcommands : List Subcommand :=
  [{ name := "attach" }, { name := "checkpoint" }, { name := "create", options := true },
    { name := "delete" }, { name := "events", options := true }, { name := "exec" }, { name := "help" },
    { name := "kill" }, { name := "list", options := true }, { name := "pause" }, { name := "ps" },
    { name := "restore" }, { name := "resume" }, { name := "run", options := true },
    { name := "start", options := true }, { name := "state" }, { name := "stop" }, { name := "update" },
    { name := "version" }]

/-- `get_subcmd`. -/
def getSubcmd (command : String) : Option Subcommand := subcommands.find? fun sub => sub.name = command

structure GlobalOptions where
  log : Option String := none
  globalLog : Option String := none
  rootDir : Option String := none
  json : Bool := false
  showVersion : Bool := false

/-- `struct clr_log_options`. -/
structure LogOptions where
  filename : Option String
  globalLogfile : Option String
  useJson : Bool

inductive Access where
  | writable | missing | refused
  deriving DecidableEq

/-- What the option parser makes of the options of a command; it ends the process after it has shown
the help. -/
inductive SubParse where
  | parsed (argv : List String)
  | failed
  | helped

structure Calls where
  context : Bool
  parseGlobal : List String → Option (GlobalOptions × List String)
  access : String → Access
  uid : Nat
  host : Host
  subContext : Bool
  parseSub : Subcommand → List String → SubParse
  handler : Subcommand → Config → List String → Bool

inductive Handling where
  | noContext
  | optionError
  | usage
  | unknownCommand
  | refused
  | noLogging
  | helped
  | handled (sub : Subcommand) (ok : Bool)
  deriving DecidableEq

variable (calls : Calls)

/-- `clr_oci_get_priv_level`. -/
def getPrivLevel (argv : List String) (sub : Subcommand) (config : Config) : Int :=
  if sub.name = "help" ∨ sub.name = "version" then -1
  else if argv[1]? = some "--help" ∨ argv[1]? = some "-h" then -1
  else
    match config.rootDir with
    | none => 1
    | some rootDir =>
      match calls.access rootDir with
      | .writable => 0
      | .missing => if calls.access (dirname rootDir) = .writable then 0 else 1
      | .refused => 1

/-- `setup_logging`, with the default of the global log file. -/
def setupLogging (options : LogOptions) (config : Config) : LogOptions :=
  { options with globalLogfile := some (options.globalLogfile.getD
      (buildPath [config.rootDir.getD runtimeDirPrefix, "clr-oci-runtime.log"])) }

/-- `clr_oci_log_init`. -/
def logInit (options : LogOptions) : Bool :=
  options.globalLogfile.all fun file => calls.host.mkdirWithParents (dirname file)

-- The handlers of `help` and `version` only print.
def runHandler (sub : Subcommand) (config : Config) (argv : List String) : Bool :=
  if sub.name = "help" ∨ sub.name = "version" then true else calls.handler sub config argv

def handleParsed (argv : List String) (sub : Subcommand) (config : Config) : Handling × Bool :=
  let ok := runHandler calls sub config argv.tail
  (.handled sub ok, ok)

/-- `handle_sub_commands`. -/
def handleSubCommands (argv : List String) (sub : Subcommand) (config : Config) : Handling × Bool :=
  if sub.options then
    if !calls.subContext then (.noContext, false)
    else
      match calls.parseSub sub argv with
      | .failed => (.optionError, false)
      | .helped => (.helped, true)
      | .parsed argv => handleParsed calls argv sub config
  else handleParsed calls argv sub config

-- `handle_arguments` once the command is known. A refusal leaves the result of the option parsing.
def handleCommand (options : GlobalOptions) (argv : List String) (sub : Subcommand) : Handling × Bool :=
  let config : Config := { rootDir := options.rootDir }
  let level := getPrivLevel calls argv sub config
  if level = 1 ∧ calls.uid ≠ 0 then (.refused, true)
  else if 0 ≤ level ∧ !logInit calls (setupLogging ⟨options.log, options.globalLog, options.json⟩ config) then
    (.noLogging, false)
  else handleSubCommands calls argv sub config

/-- `handle_arguments`. -/
def handleArguments (argv : List String) : Handling × Bool :=
  if !calls.context then (.noContext, false)
  else
    match calls.parseGlobal argv with
    | none => (.optionError, false)
    | some (options, argv) =>
      if options.showVersion then (.handled { name := "version" } true, true)
      else
        match argv.tail with
        | [] => (.usage, true)
        | command :: rest =>
          match getSubcmd command with
          | none => (.unknownCommand, false)
          | some sub => handleCommand calls options (command :: rest) sub

/-- `main`: the exit status. -/
def exitStatus (argv : List String) : Nat := if (handleArguments calls argv).2 then 0 else 1

def Handling.Earned : Handling → Prop
  | .handled _ ok => ok = true
  | .usage | .helped => True
  | _ => False

def Handling.Denied : Handling → Prop
  | .optionError | .unknownCommand | .refused | .noLogging => True
  | _ => False

def Fair (result : Handling × Bool) : Prop :=
  (result.2 = true → result.1.Earned) ∧ (result.1.Denied → result.2 = false)

/-- Success is only for what was done or told, and what is turned down is a failure. -/
structure Honest (argv : List String) : Prop where
  success : exitStatus calls argv = 0 → (handleArguments calls argv).1.Earned
  failure : (handleArguments calls argv).1.Denied → exitStatus calls argv = 1

def LacksRights (options : GlobalOptions) (argv : List String) (sub : Subcommand) : Prop :=
  getPrivLevel calls argv sub { rootDir := options.rootDir } = 1 ∧ calls.uid ≠ 0

def selected (argv : List String) : Option (GlobalOptions × List String × Subcommand) :=
  if !calls.context then none
  else
    (calls.parseGlobal argv).bind fun parsed =>
      if parsed.1.showVersion then none
      else
        parsed.2.tail.head?.bind fun command =>
          (getSubcmd command).map fun sub => (parsed.1, parsed.2.tail, sub)

/-- The command line is that of a known command, and the user lacks the rights for it. -/
def Unprivileged (argv : List String) : Prop :=
  ∃ options rest sub, selected calls argv = some (options, rest, sub) ∧ LacksRights calls options rest sub

variable {calls} {argv : List String} {sub : Subcommand}

theorem honest_iff_fair : Honest calls argv ↔ Fair (handleArguments calls argv) := by
  have status : exitStatus calls argv = if (handleArguments calls argv).2 then 0 else 1 := rfl
  constructor
  · rintro ⟨success, failure⟩
    rw [status] at success failure
    generalize handleArguments calls argv = result at success failure ⊢
    obtain ⟨ending, ok⟩ := result
    cases ok with
    | false => exact ⟨nofun, fun _ => rfl⟩
    | true => exact ⟨fun _ => success rfl, fun denied => absurd (failure denied) Nat.zero_ne_one⟩
  · intro fair
    refine ⟨fun success => ?_, fun denied => ?_⟩
    · rw [status] at success
      apply fair.1
      by_contra failed
      rw [if_neg failed] at success
      cases success
    · rw [status, fair.2 denied]
      rfl

theorem handleParsed_fair (config : Config) : Fair (handleParsed calls argv sub config) :=
  ⟨fun ok => ok, nofun⟩

theorem handleSubCommands_fair (config : Config) : Fair (handleSubCommands calls argv sub config) := by
  unfold handleSubCommands
  split
  · split
    · exact ⟨nofun, nofun⟩
    · split
      · exact ⟨nofun, fun _ => rfl⟩
      · exact ⟨fun _ => trivial, nofun⟩
      · exact handleParsed_fair config
  · exact handleParsed_fair config

/-- A known command is answered fairly exactly if the user has the rights for it. -/
theorem handleCommand_fair_iff (options : GlobalOptions) :
    Fair (handleCommand calls options argv sub) ↔ ¬ LacksRights calls options argv sub := by
  unfold handleCommand LacksRights
  dsimp only
  split
  · next lacks => exact iff_of_false (fun fair => fair.1 rfl) (not_not.mpr lacks)
  · next allowed =>
    refine iff_of_true ?_ allowed
    split
    · exact ⟨nofun, fun _ => rfl⟩
    · exact handleSubCommands_fair _

theorem handleArguments_cases (calls : Calls) (argv : List String) :
    (∃ options rest sub, selected calls argv = some (options, rest, sub) ∧
      handleArguments calls argv = handleCommand calls options rest sub) ∨
      selected calls argv = none ∧ Fair (handleArguments calls argv) := by
  unfold handleArguments selected
  cases calls.context with
  | false => exact Or.inr ⟨rfl, nofun, nofun⟩
  | true =>
    cases calls.parseGlobal argv with
    | none => exact Or.inr ⟨rfl, nofun, fun _ => rfl⟩
    | some found =>
      obtain ⟨options, argv⟩ := found
      simp only [Bool.not_true, Bool.false_eq_true, ↓reduceIte, Option.bind_some]
      cases options.showVersion with
      | true => exact Or.inr ⟨rfl, fun _ => rfl, nofun⟩
      | false =>
        simp only [Bool.false_eq_true, ↓reduceIte]
        cases argv.tail with
        | nil => exact Or.inr ⟨rfl, fun _ => trivial, nofun⟩
        | cons command rest =>
          simp only [List.head?_cons, Option.bind_some]
          cases getSubcmd command with
          | none => exact Or.inr ⟨rfl, nofun, fun _ => rfl⟩
          | some sub => exact Or.inl ⟨options, command :: rest, sub, rfl, rfl⟩

/-- The exit status tells what was done exactly if no known command lacks its rights. -/
theorem honest_iff (calls : Calls) (argv : List String) : Honest calls argv ↔ ¬ Unprivileged calls argv := by
  rw [honest_iff_fair]
  rcases handleArguments_cases calls argv with ⟨options, rest, sub, known, handled⟩ | ⟨other, fair⟩
  · rw [handled, handleCommand_fair_iff, not_iff_not]
    constructor
    · exact fun lacks => ⟨options, rest, sub, known, lacks⟩
    · rintro ⟨_, _, _, same, lacks⟩
      rw [known] at same
      cases same
      exact lacks
  · refine iff_of_true fair ?_
    rintro ⟨_, _, _, found, _⟩
    rw [other] at found
    cases found

def userCalls : Calls where
  context := true
  parseGlobal := fun argv => some ({}, argv)
  access := fun _ => .refused
  uid := 1000
  host := .calm
  subContext := true
  parseSub := fun _ argv => .parsed argv
  handler := fun _ _ _ => true

/-- The container is not deleted, and the exit status says that it was. -/
theorem refusal_succeeds :
    handleArguments userCalls ["clr-oci-runtime", "delete", "c1"] = (.refused, true) ∧
      exitStatus userCalls ["clr-oci-runtime", "delete", "c1"] = 0 ∧
      ¬ Honest userCalls ["clr-oci-runtime", "delete", "c1"] := by
  have refused : handleArguments userCalls ["clr-oci-runtime", "delete", "c1"] = (.refused, true) := by
    decide +kernel
  refine ⟨refused, ?_, fun honest => ?_⟩
  · rw [exitStatus, refused]
    rfl
  · have failure := honest.failure
    rw [exitStatus, refused] at failure
    exact absurd (failure trivial) (by decide)

end ClrOci
