import ClrOci.Arguments
import ClrOci.Foundation.Lines
import ClrOci.Foundation.Threads
import ClrOci.Json

/-! The log files.

A message goes to the log of the process, as text or as JSON, and to the global log, always as text.
Both are opened for each message and appended to. Processes share the global log, and may share
the other one.
-/

set_option autoImplicit false

namespace ClrOci

open Foundation

-- `GLogLevelFlags`. A fatal message comes with the flag for that in its level.
abbrev LogLevelFlags := UInt32

namespace LogLevelFlags

def error : LogLevelFlags := 4
def critical : LogLevelFlags := 8
def warning : LogLevelFlags := 16
def message : LogLevelFlags := 32
def info : LogLevelFlags := 64
def debug : LogLevelFlags := 128

/-- The names of `clr_oci_log_handler`. -/
def name (level : LogLevelFlags) : String :=
  if level = error then "error"
  else if level = critical then "critical"
  else if level = warning then "warning"
  else if level = message then "message"
  else if level = info then "info"
  else if level = debug then "debug"
  else "error"

end LogLevelFlags

/-- How the opening of a log file and the writes to it end. A text is written in pieces: the sizes of
those before the last one that was written are given. -/
inductive LogWrite where
  | openFailed (reason : String)
  | noChannel
  | writeFailed (sizes : List Nat) (reason : String)
  | closeFailed (sizes : List Nat) (reason : String)
  | written (sizes : List Nat)
  deriving DecidableEq

structure LogCall where
  domain : Option String
  level : LogLevelFlags
  message : String
  timestamp : Option String
  toMain : LogWrite
  toGlobal : LogWrite
  deriving DecidableEq

inductive LogOp where
  | append (file : String) (piece : List Char)
  | stderr (text : String)
  | syslog (function : String) (text : Buffer 1023)
  deriving DecidableEq

/-- `clr_oci_error`. The terminator is always written, so the check for an overrun never fires and a
longer text is cut. -/
def clrOciError (function text : String) : LogOp := .syslog function (Buffer.copy 1023 text)

def pieces : List Nat → List Char → List (List Char) × List Char
  | [], text => ([], text)
  | size :: rest, text =>
    let later := pieces rest (text.drop size)
    (text.take size :: later.1, later.2)

/-- `clr_oci_log_msg_write`. -/
def logMsgWrite (filename text : String) : LogWrite → List LogOp × Bool
  | .openFailed reason =>
    ([clrOciError "clr_oci_log_msg_write"
      ("failed to open logfile " ++ filename ++ " for writing: " ++ reason)], false)
  | .noChannel => ([clrOciError "clr_oci_log_msg_write" "failed to create I/O channel"], false)
  | .writeFailed sizes reason =>
    ((pieces sizes text.toList).1.map (.append filename) ++
      [clrOciError "clr_oci_log_msg_write" ("failed to write to I/O channel: " ++ reason)], false)
  | .closeFailed sizes reason =>
    ((pieces sizes text.toList).1.map (.append filename) ++
      [clrOciError "clr_oci_log_msg_write" ("failed to close I/O channel: " ++ reason)], false)
  | .written sizes =>
    let written := pieces sizes text.toList
    ((written.1 ++ [written.2]).map (.append filename), true)

structure Logger where
  options : LogOptions
  enableDebug : Bool
  pid : UInt32
  calls : List LogCall

section Handler
variable (render : Json → Option String)

/-- `clr_oci_log_to_json`, with what json-glib makes of the object. -/
def logToJson (timestamp level message : String) : Option String :=
  render (.object [("level", .string level), ("mesg", .string message), ("time", .string timestamp)])

/-- `clr_oci_msg_fmt`. -/
def msgFmt (pid : UInt32) (logDomain : Option String) (logLevel message timestamp : String)
    (useJson : Bool) : Option String :=
  if useJson then (logToJson render timestamp logLevel message).map fun str => str ++ "\n"
  else some (timestamp ++ ":" ++ toString pid.toNat ++ ":" ++ logDomain.getD "" ++ ":" ++ logLevel ++ ":" ++
    message ++ "\n")

def debugHidden (enableDebug : Bool) (call : LogCall) : Bool := call.level = .debug && !enableDebug

-- What follows `update_global_log`.
def updateGlobalLog (logger : Logger) (call : LogCall) (timestamp final : String) : List LogOp :=
  match logger.options.globalLogfile with
  | none => []
  | some globalLogfile =>
    let final := if logger.options.useJson then
        msgFmt render logger.pid call.domain call.level.name call.message timestamp false
      else some final
    match final with
    | none => []
    | some final => (logMsgWrite globalLogfile final call.toGlobal).1

/-- `clr_oci_log_handler`. -/
def logHandler (logger : Logger) (call : LogCall) : List LogOp :=
  let options := logger.options
  if options.filename.isNone && options.globalLogfile.isNone then []
  else if debugHidden logger.enableDebug call && options.globalLogfile.isNone then []
  else
    match call.timestamp with
    | none => []
    | some timestamp =>
      match msgFmt render logger.pid call.domain call.level.name call.message timestamp options.useJson with
      | none => [clrOciError "clr_oci_log_handler" "failed to format log entry"]
      | some final =>
        let loud := if call.level = .error ∨ call.level = .critical then [LogOp.stderr (final ++ "\n")] else []
        if debugHidden logger.enableDebug call then loud ++ updateGlobalLog render logger call timestamp final
        else
          match options.filename with
          | none => loud ++ updateGlobalLog render logger call timestamp final
          | some filename =>
            let main := logMsgWrite filename final call.toMain
            if main.2 then loud ++ main.1 ++ updateGlobalLog render logger call timestamp final
            else loud ++ main.1

end Handler

/-- The log files, missing ones as empty ones, and what was sent elsewhere. -/
structure Logs where
  files : String → List Char := fun _ => []
  stderr : List String := []
  syslog : List (String × String) := []

def LogOp.perform (logs : Logs) : LogOp → Logs
  | .append file piece => { logs with files := Function.update logs.files file (logs.files file ++ piece) }
  | .stderr text => { logs with stderr := logs.stderr ++ [text] }
  | .syslog function text => { logs with syslog := logs.syslog ++ [(function, text.text)] }

namespace LogOp
variable {file : String}

def piece? (file : String) : LogOp → Option (List Char)
  | .append other piece => if other = file then some piece else none
  | _ => none

theorem perform_files (logs : Logs) (op : LogOp) :
    (op.perform logs).files file = logs.files file ++ (op.piece? file).getD [] := by
  cases op with
  | append other piece =>
    by_cases here : other = file
    · subst here
      simp [perform, piece?]
    · simp [perform, piece?, here, Ne.symm here]
  | stderr text => simp [perform, piece?]
  | syslog function text => simp [perform, piece?]

theorem foldl_perform_files {A : Type} (op : A → LogOp) (steps : List A) (logs : Logs) :
    (steps.foldl (fun logs step => (op step).perform logs) logs).files file =
      logs.files file ++ (steps.filterMap fun step => (op step).piece? file).flatten := by
  induction steps generalizing logs with
  | nil => simp
  | cons step rest ih =>
    rw [List.foldl_cons, ih, perform_files, List.append_assoc]
    cases here : (op step).piece? file <;> simp [here]

@[simp] theorem piece?_clrOciError (function text : String) :
    (clrOciError function text).piece? file = none := rfl

@[simp] theorem piece?_stderr (text : String) : (LogOp.stderr text).piece? file = none := rfl

theorem pieces_here (parts : List (List Char)) :
    (parts.map (LogOp.append file)).filterMap (LogOp.piece? file) = parts := by
  induction parts with
  | nil => rfl
  | cons part rest ih => simp [piece?, ih]

theorem pieces_elsewhere {other : String} (apart : other ≠ file) (parts : List (List Char)) :
    (parts.map (LogOp.append other)).filterMap (LogOp.piece? file) = [] := by
  induction parts with
  | nil => rfl
  | cons part rest ih => simp [piece?, apart, ih]

end LogOp

namespace LogWrite

def accepted : LogWrite → Bool
  | .written _ => true
  | _ => false

def Atomic : LogWrite → Prop
  | .writeFailed sizes _ | .closeFailed sizes _ | .written sizes => sizes = []
  | _ => True

instance (outcome : LogWrite) : Decidable outcome.Atomic :=
  match outcome with
  | .openFailed _ | .noChannel => isTrue trivial
  | .writeFailed sizes _ | .closeFailed sizes _ | .written sizes => inferInstanceAs (Decidable (sizes = []))

end LogWrite

section Write
variable {file filename text : String} {outcome : LogWrite}

theorem logMsgWrite_ok : (logMsgWrite filename text outcome).2 = outcome.accepted := by
  cases outcome with
  | _ => rfl

theorem logMsgWrite_elsewhere (apart : filename ≠ file) :
    (logMsgWrite filename text outcome).1.filterMap (LogOp.piece? file) = [] := by
  cases outcome with
  | openFailed reason => rfl
  | noChannel => rfl
  | writeFailed sizes reason => simp [logMsgWrite, LogOp.pieces_elsewhere apart]
  | closeFailed sizes reason => simp [logMsgWrite, LogOp.pieces_elsewhere apart]
  | written sizes => exact LogOp.pieces_elsewhere apart _

theorem logMsgWrite_here (atomic : outcome.Atomic) :
    (logMsgWrite file text outcome).1.filterMap (LogOp.piece? file) =
      if outcome.accepted then [text.toList] else [] := by
  cases outcome with
  | openFailed reason => rfl
  | noChannel => rfl
  | writeFailed sizes reason =>
    cases (show sizes = [] from atomic)
    rfl
  | closeFailed sizes reason =>
    cases (show sizes = [] from atomic)
    rfl
  | written sizes =>
    cases (show sizes = [] from atomic)
    exact LogOp.pieces_here _

end Write

namespace Logger
variable (render : Json → Option String)

def plainLine (logger : Logger) (call : LogCall) : String :=
  call.timestamp.getD "" ++ ":" ++ toString logger.pid.toNat ++ ":" ++ call.domain.getD "" ++ ":" ++
    call.level.name ++ ":" ++ call.message

def document (call : LogCall) : Json :=
  .object [("level", .string call.level.name), ("mesg", .string call.message),
    ("time", .string (call.timestamp.getD ""))]

def formats (logger : Logger) (call : LogCall) : Bool :=
  call.timestamp.isSome && (!logger.options.useJson || (render (document call)).isSome)

def reachesMain (logger : Logger) (call : LogCall) : Bool :=
  logger.formats render call && !debugHidden logger.enableDebug call && call.toMain.accepted

/-- The calls whose messages get to the global log: the log of the process, if they are for that, has
accepted them before. -/
def reachesGlobal (logger : Logger) (call : LogCall) : Bool :=
  logger.formats render call &&
    (debugHidden logger.enableDebug call || logger.options.filename.isNone || call.toMain.accepted) &&
    call.toGlobal.accepted

variable {render} {logger : Logger} {call : LogCall} {file timestamp : String}

theorem msgFmt_plain (stamped : call.timestamp = some timestamp) :
    msgFmt render logger.pid call.domain call.level.name call.message timestamp false =
      some (logger.plainLine call ++ "\n") := by
  simp [msgFmt, plainLine, stamped]

theorem msgFmt_json (stamped : call.timestamp = some timestamp) :
    msgFmt render logger.pid call.domain call.level.name call.message timestamp true =
      (render (document call)).map fun text => text ++ "\n" := by
  simp [msgFmt, logToJson, document, stamped]

/-- The entry is made, or the call is not one that can be formatted. -/
theorem formats_eq (stamped : call.timestamp = some timestamp) :
    logger.formats render call = (msgFmt render logger.pid call.domain call.level.name call.message
      timestamp logger.options.useJson).isSome := by
  cases mode : logger.options.useJson with
  | false => simp [formats, mode, stamped, msgFmt_plain stamped]
  | true => simp [formats, mode, stamped, msgFmt_json stamped]

theorem updateGlobalLog_pieces (stamped : call.timestamp = some timestamp)
    (shared : logger.options.globalLogfile = some file) (atomic : call.toGlobal.Atomic) {final : String}
    (made : msgFmt render logger.pid call.domain call.level.name call.message timestamp
      logger.options.useJson = some final) :
    (updateGlobalLog render logger call timestamp final).filterMap (LogOp.piece? file) =
      if call.toGlobal.accepted then [(logger.plainLine call ++ "\n").toList] else [] := by
  rw [updateGlobalLog, shared]
  cases mode : logger.options.useJson with
  | false =>
    rw [mode, msgFmt_plain stamped] at made
    cases made
    exact logMsgWrite_here atomic
  | true =>
    simp only [↓reduceIte, msgFmt_plain stamped]
    exact logMsgWrite_here atomic

theorem updateGlobalLog_elsewhere (apart : logger.options.globalLogfile ≠ some file) (final : String) :
    (updateGlobalLog render logger call timestamp final).filterMap (LogOp.piece? file) = [] := by
  rw [updateGlobalLog]
  cases named : logger.options.globalLogfile with
  | none => rfl
  | some other =>
    have different : other ≠ file := fun same => apart (by rw [named, same])
    dsimp only
    split
    · rfl
    · exact logMsgWrite_elsewhere different

theorem logHandler_of_unformatted (unformatted : logger.formats render call = false) :
    (logHandler render logger call).filterMap (LogOp.piece? file) = [] := by
  simp only [logHandler]
  split
  · rfl
  · split
    · rfl
    · split
      · rfl
      · next timestamp stamped =>
        rw [formats_eq stamped, Option.isSome_eq_false_iff, Option.isNone_iff_eq_none] at unformatted
        rw [unformatted]
        rfl

/-- What the handler appends to a file once it has the text of the entry. -/
theorem logHandler_of_formatted {final : String} (stamped : call.timestamp = some timestamp)
    (made : msgFmt render logger.pid call.domain call.level.name call.message timestamp
      logger.options.useJson = some final) :
    (logHandler render logger call).filterMap (LogOp.piece? file) =
      (if debugHidden logger.enableDebug call then []
        else logger.options.filename.elim [] fun filename =>
          (logMsgWrite filename final call.toMain).1.filterMap (LogOp.piece? file)) ++
      if debugHidden logger.enableDebug call || logger.options.filename.isNone || call.toMain.accepted then
        (updateGlobalLog render logger call timestamp final).filterMap (LogOp.piece? file)
      else [] := by
  have quiet : (if call.level = .error ∨ call.level = .critical then [LogOp.stderr (final ++ "\n")]
      else []).filterMap (LogOp.piece? file) = [] := by
    split <;> rfl
  have nowhere (none : logger.options.globalLogfile = none) :
      updateGlobalLog render logger call timestamp final = [] := by
    rw [updateGlobalLog, none]
  simp only [logHandler, stamped, made, logMsgWrite_ok]
  cases hides : debugHidden logger.enableDebug call with
  | true =>
    cases shared : logger.options.globalLogfile with
    | none => simp [nowhere shared]
    | some globalLogfile => simp [quiet]
  | false =>
    cases named : logger.options.filename with
    | none =>
      cases shared : logger.options.globalLogfile with
      | none => simp [nowhere shared]
      | some globalLogfile => simp [quiet]
    | some filename =>
      cases accepted : call.toMain.accepted with
      | true => simp [quiet]
      | false => simp [quiet]

theorem logHandler_global (shared : logger.options.globalLogfile = some file)
    (apart : logger.options.filename ≠ some file) (atomic : call.toGlobal.Atomic) :
    (logHandler render logger call).filterMap (LogOp.piece? file) =
      if logger.reachesGlobal render call then [(logger.plainLine call).toList ++ ['\n']] else [] := by
  cases formatted : logger.formats render call with
  | false =>
    rw [logHandler_of_unformatted formatted, reachesGlobal, formatted]
    rfl
  | true =>
    obtain ⟨timestamp, stamped⟩ : ∃ timestamp, call.timestamp = some timestamp := by
      rw [formats, Bool.and_eq_true] at formatted
      exact Option.isSome_iff_exists.mp formatted.1
    obtain ⟨final, made⟩ := Option.isSome_iff_exists.mp ((formats_eq stamped).symm.trans formatted)
    have main : (logger.options.filename.elim [] fun filename =>
        (logMsgWrite filename final call.toMain).1.filterMap (LogOp.piece? file)) = [] := by
      cases named : logger.options.filename with
      | none => rfl
      | some filename =>
        exact logMsgWrite_elsewhere fun same => apart (by rw [named, same])
    rw [logHandler_of_formatted stamped made, updateGlobalLog_pieces stamped shared atomic made, main,
      ite_self, List.nil_append, reachesGlobal, formatted, String.toList_append]
    cases debugHidden logger.enableDebug call || logger.options.filename.isNone || call.toMain.accepted with
    | true => rfl
    | false => rfl

def mainLine (render : Json → Option String) (logger : Logger) (call : LogCall) : String :=
  if logger.options.useJson then (render (document call)).getD "" else logger.plainLine call

theorem logHandler_main (named : logger.options.filename = some file)
    (apart : logger.options.globalLogfile ≠ some file) (atomic : call.toMain.Atomic) :
    (logHandler render logger call).filterMap (LogOp.piece? file) =
      if logger.reachesMain render call then [(logger.mainLine render call).toList ++ ['\n']] else [] := by
  cases formatted : logger.formats render call with
  | false =>
    rw [logHandler_of_unformatted formatted, reachesMain, formatted]
    rfl
  | true =>
    obtain ⟨timestamp, stamped⟩ : ∃ timestamp, call.timestamp = some timestamp := by
      rw [formats, Bool.and_eq_true] at formatted
      exact Option.isSome_iff_exists.mp formatted.1
    obtain ⟨final, made⟩ := Option.isSome_iff_exists.mp ((formats_eq stamped).symm.trans formatted)
    have text : final.toList = (logger.mainLine render call).toList ++ ['\n'] := by
      cases mode : logger.options.useJson with
      | false =>
        rw [mode, msgFmt_plain stamped] at made
        cases made
        simp [mainLine, mode]
      | true =>
        rw [mode, msgFmt_json stamped, Option.map_eq_some_iff] at made
        obtain ⟨json, rendered, rfl⟩ := made
        simp [mainLine, mode, rendered]
    rw [logHandler_of_formatted stamped made, updateGlobalLog_elsewhere apart, ite_self, List.append_nil,
      named, Option.elim_some, logMsgWrite_here atomic, text, reachesMain, formatted]
    cases debugHidden logger.enableDebug call with
    | true => rfl
    | false => rfl

end Logger

section Logging
variable {I : Type} [DecidableEq I] (render : Json → Option String) (loggers : I → Logger)

/-- Processes that log at the same time. Each step is known by the call that it is for. -/
def logging (before : Logs) : Pool I (LogCall × LogOp) Logs Unit :=
  Pool.threads (fun label logs => label.2.perform logs)
    (fun i => (loggers i).calls.flatMap fun call => (logHandler render (loggers i) call).map (call, ·)) before

variable {render loggers}

def appender (file : String) (label : LogCall × LogOp) : Option LogCall :=
  (label.2.piece? file).map fun _ => label.1

section File
variable {file : String} {entry : I → LogCall → List Char} {reaches : I → LogCall → Bool}

theorem filterMap_appender {ops : LogCall → List LogOp} {text : LogCall → List Char}
    {wanted : LogCall → Bool} {calls : List LogCall}
    (each : ∀ call ∈ calls,
      (ops call).filterMap (LogOp.piece? file) = if wanted call then [text call] else []) :
    (calls.flatMap fun call => (ops call).map (call, ·)).filterMap (appender file) =
      calls.filter wanted := by
  induction calls with
  | nil => rfl
  | cons call rest ih =>
    have here : ((ops call).map (call, ·)).filterMap (appender file) =
        ((ops call).filterMap (LogOp.piece? file)).map fun _ => call := by
      rw [List.filterMap_map, List.map_filterMap]
      rfl
    rw [List.flatMap_cons, List.filterMap_append, here, each call List.mem_cons_self,
      ih fun other member => each other (List.mem_cons_of_mem call member), List.filter_cons]
    cases wanted call with
    | true => rfl
    | false => rfl

/-- A file that takes at most one entry from each call has, after any interleaving, the entries of some
calls, and those of each process are its first ones, or all once it has ended. -/
theorem logging_collects
    (each : ∀ i, ∀ call ∈ (loggers i).calls,
      (logHandler render (loggers i) call).filterMap (LogOp.piece? file) =
        if reaches i call then [entry i call] else [])
    (before : Logs) (schedule : List I) :
    let after := schedule.foldl Pool.step (logging render loggers before)
    ∃ collected : List (I × LogCall),
      after.state.files file =
        before.files file ++ collected.flatMap (fun entered => entry entered.1 entered.2) ∧
      ∀ i, own i collected <+: (loggers i).calls.filter (reaches i) ∧
        (after.scripts i = .done () → own i collected = (loggers i).calls.filter (reaches i)) := by
  intro after
  let labels := fun i =>
    (loggers i).calls.flatMap fun call => (logHandler render (loggers i) call).map (call, ·)
  obtain ⟨taken, state, threads⟩ := Pool.foldl_threads_own
    (fun (label : LogCall × LogOp) logs => label.2.perform logs) labels before schedule
  have all (i : I) : (labels i).filterMap (appender file) = (loggers i).calls.filter (reaches i) :=
    filterMap_appender (each i)
  -- A step that appends to the file appends the entry of its call.
  have appended : ∀ step ∈ taken,
      step.2.2.piece? file = (appender file step.2).map (entry step.1) := by
    intro ⟨i, call, op⟩ member
    have mine : (call, op) ∈ labels i := (threads i).1.subset (mem_own.mpr member)
    obtain ⟨call', known, op', made, same⟩ : ∃ call' ∈ (loggers i).calls,
        ∃ op' ∈ logHandler render (loggers i) call', (call', op') = (call, op) := by
      simpa [labels] using mine
    cases same
    cases piece : op.piece? file with
    | none => simp [appender, piece]
    | some text =>
      have found : text ∈ (logHandler render (loggers i) call).filterMap (LogOp.piece? file) :=
        List.mem_filterMap.mpr ⟨op, made, piece⟩
      rw [each i call known] at found
      split at found
      · rw [List.mem_singleton.mp found]
        simp [appender, piece]
      · exact absurd found List.not_mem_nil
  refine ⟨taken.filterMap fun step => (appender file step.2).map (step.1, ·), ?_, fun i => ?_⟩
  · have reached : after.state = taken.foldl (fun logs step => step.2.2.perform logs) before := state
    rw [reached, LogOp.foldl_perform_files fun step : I × LogCall × LogOp => step.2.2,
      List.filterMap_congr appended, List.flatMap_def, List.map_filterMap]
    simp only [Option.map_map]
    rfl
  · rw [own_filterMap, ← all i]
    refine ⟨(threads i).1.filterMap _, fun ended => ?_⟩
    rw [(threads i).2 ended]

end File

def Logs.lines (logs : Logs) (file : String) : List (List Char) := (cutLines '\n' (logs.files file)).1

def Logs.Whole (logs : Logs) (file : String) : Prop := (cutLines '\n' (logs.files file)).2 = []

variable {file : String} {before : Logs}

/-- Processes that share the global log do not disturb each other: after any interleaving it has, after
what it had, one line for each message that has got there, and those of each process are the first ones
that get there, in their order, or all of them once it has ended. It reads back as these lines exactly
if no message has a newline in it. -/
theorem global_log_collects (shared : ∀ i, (loggers i).options.globalLogfile = some file)
    (apart : ∀ i, (loggers i).options.filename ≠ some file)
    (atomic : ∀ i, ∀ call ∈ (loggers i).calls, call.toGlobal.Atomic) (whole : before.Whole file)
    (schedule : List I) :
    let after := schedule.foldl Pool.step (logging render loggers before)
    let line (entered : I × LogCall) := ((loggers entered.1).plainLine entered.2).toList
    ∃ collected : List (I × LogCall),
      after.state.files file = before.files file ++ (collected.map line).flatMap (· ++ ['\n']) ∧
      (∀ i, own i collected <+: (loggers i).calls.filter ((loggers i).reachesGlobal render) ∧
        (after.scripts i = .done () →
          own i collected = (loggers i).calls.filter ((loggers i).reachesGlobal render))) ∧
      (after.state.lines file = before.lines file ++ collected.map line ↔
        ∀ entered ∈ collected, '\n' ∉ line entered) := by
  intro after line
  obtain ⟨collected, held, owned⟩ := logging_collects
    (fun i call known => Logger.logHandler_global (shared i) (apart i) (atomic i call known)) before schedule
  have lines : after.state.files file =
      before.files file ++ (collected.map line).flatMap (· ++ ['\n']) := by
    rw [List.flatMap_map]
    exact held
  refine ⟨collected, lines, owned, ?_⟩
  rw [Logs.lines, Logs.lines, lines, cutLines_append whole, List.append_cancel_left_eq, cutLines_flatMap_iff]
  simp only [List.mem_map, forall_exists_index, and_imp, forall_apply_eq_imp_iff₂]

def timedCall (level : LogLevelFlags) (message : String) : LogCall where
  domain := some "cc-oci-runtime"
  level := level
  message := message
  timestamp := some "2016-05-12T09:08:03Z"
  toMain := .written []
  toGlobal := .written []

def twoLoggers : Bool → Logger
  | true => ⟨⟨some "/var/log/stop.log", some "/run/clr-oci-runtime.log", false⟩, true, 100,
      [timedCall .debug "called as: stop c1", timedCall .critical "failed to connect"]⟩
  | false => ⟨⟨none, some "/run/clr-oci-runtime.log", false⟩, false, 101,
      [timedCall .debug "called as: kill c1"]⟩

theorem two_loggers_collected :
    let after := [true, false, true, true, true, true].foldl Pool.step
      (logging (fun _ => none) twoLoggers {})
    let line (entered : Bool × LogCall) := ((twoLoggers entered.1).plainLine entered.2).toList
    ∃ collected : List (Bool × LogCall), own true collected = (twoLoggers true).calls ∧
      own false collected = (twoLoggers false).calls ∧
      after.state.lines "/run/clr-oci-runtime.log" = collected.map line := by
  intro after line
  have atomic : ∀ i, ∀ call ∈ (twoLoggers i).calls, call.toGlobal.Atomic := by
    intro i
    cases i <;> decide
  obtain ⟨collected, _, owned, lines⟩ := @global_log_collects Bool _ (fun _ => none) twoLoggers
    "/run/clr-oci-runtime.log" {} (by decide) (by decide) atomic rfl [true, false, true, true, true, true]
  have stop : own true collected = (twoLoggers true).calls := (owned true).2 rfl
  have kill : own false collected = (twoLoggers false).calls := (owned false).2 rfl
  have unbroken : ∀ i, ∀ call ∈ (twoLoggers i).calls, '\n' ∉ line (i, call) := by
    intro i
    cases i <;> decide
  refine ⟨collected, stop, kill, lines.mpr ?_⟩
  intro ⟨i, call⟩ member
  apply unbroken i call
  cases i with
  | false => exact kill ▸ mem_own.mpr member
  | true => exact stop ▸ mem_own.mpr member

/-- A log in JSON that processes share reads back, whatever the messages have in them: its lines give
the level, the text and the time of each message that has got there. -/
theorem json_log_reads_back {parse : String → Option Json}
    (inverse : ∀ json text, render json = some text → parse text = some json)
    (single : ∀ json text, render json = some text → '\n' ∉ text.toList)
    (shared : ∀ i, (loggers i).options.filename = some file)
    (apart : ∀ i, (loggers i).options.globalLogfile ≠ some file)
    (json : ∀ i, (loggers i).options.useJson = true)
    (atomic : ∀ i, ∀ call ∈ (loggers i).calls, call.toMain.Atomic) (whole : before.Whole file)
    (schedule : List I) :
    let after := schedule.foldl Pool.step (logging render loggers before)
    let read (logs : Logs) := (logs.lines file).map fun line => parse (String.ofList line)
    ∃ collected : List (I × LogCall),
      read after.state = read before ++ collected.map (fun entered => some (Logger.document entered.2)) ∧
      ∀ i, own i collected <+: (loggers i).calls.filter ((loggers i).reachesMain render) ∧
        (after.scripts i = .done () →
          own i collected = (loggers i).calls.filter ((loggers i).reachesMain render)) := by
  intro after read
  obtain ⟨collected, held, owned⟩ := logging_collects
    (fun i call known => Logger.logHandler_main (shared i) (apart i) (atomic i call known)) before schedule
  refine ⟨collected, ?_, owned⟩
  let line (entered : I × LogCall) := ((loggers entered.1).mainLine render entered.2).toList
  -- What has got there has been rendered.
  have rendered : ∀ entered ∈ collected, render (Logger.document entered.2) =
      some ((loggers entered.1).mainLine render entered.2) := by
    intro ⟨i, call⟩ member
    have reaches := (List.mem_filter.mp ((owned i).1.subset (mem_own.mpr member))).2
    rw [Logger.reachesMain, Logger.formats, json i] at reaches
    obtain ⟨text, made⟩ : ∃ text, render (Logger.document call) = some text := by
      apply Option.isSome_iff_exists.mp
      simp at reaches
      exact reaches.1.1.2
    rw [made, Logger.mainLine, json i, if_pos rfl, made]
    rfl
  have unbroken : ∀ text ∈ collected.map line, '\n' ∉ text := by
    intro text member
    obtain ⟨entered, known, rfl⟩ := List.mem_map.mp member
    exact single _ _ (rendered entered known)
  have lines : after.state.lines file = before.lines file ++ collected.map line := by
    rw [Logs.lines, Logs.lines, show after.state.files file =
      before.files file ++ (collected.map line).flatMap (· ++ ['\n']) by rw [List.flatMap_map]; exact held,
      cutLines_append whole, List.append_cancel_left_eq]
    exact cutLines_flatMap_iff.mpr unbroken
  dsimp only [read]
  rw [lines, List.map_append, List.map_map]
  congr 1
  apply List.map_congr_left
  intro entered known
  dsimp only [Function.comp, line]
  rw [String.ofList_toList]
  exact inverse _ _ (rendered entered known)

-- A message with a newline in it, and what json-glib makes of it.
def brokenLogger : Logger :=
  ⟨⟨some "/var/log/kill.json", none, true⟩, false, 102, [timedCall .warning "first\nsecond"]⟩

def renderedCall : String :=
  "\x7b\"level\":\"warning\",\"mesg\":\"first\\nsecond\",\"time\":\"2016-05-12T09:08:03Z\"\x7d"

def renderCall : Json → Option String
  | .object [("level", .string "warning"), ("mesg", .string "first\nsecond"),
      ("time", .string "2016-05-12T09:08:03Z")] => some renderedCall
  | _ => none

def parseCall (text : String) : Option Json :=
  if text = renderedCall then some (Logger.document (timedCall .warning "first\nsecond")) else none

theorem broken_message_reads_back :
    let after := [(), (), ()].foldl Pool.step (logging renderCall (fun _ : Unit => brokenLogger) {})
    (after.state.lines "/var/log/kill.json").map (fun line => parseCall (String.ofList line)) =
      [some (Logger.document (timedCall .warning "first\nsecond"))] := by
  intro after
  have rendered : ∀ json text, renderCall json = some text →
      text = renderedCall ∧ json = Logger.document (timedCall .warning "first\nsecond") := by
    intro json text made
    rw [renderCall.eq_def] at made
    split at made
    · exact ⟨(Option.some.inj made).symm, rfl⟩
    · exact absurd made (Option.some_ne_none text).symm
  have inverse : ∀ json text, renderCall json = some text → parseCall text = some json := by
    intro json text made
    rw [(rendered json text made).1, (rendered json text made).2, parseCall, if_pos rfl]
  have single : ∀ json text, renderCall json = some text → '\n' ∉ text.toList := by
    intro json text made
    rw [(rendered json text made).1]
    decide
  obtain ⟨collected, read, owned⟩ := @json_log_reads_back Unit _ renderCall (fun _ => brokenLogger)
    "/var/log/kill.json" {} parseCall inverse single
    (fun _ => rfl) (fun _ => by decide) (fun _ => rfl) (fun _ => by decide) rfl [(), (), ()]
  have all : own () collected = brokenLogger.calls := (owned ()).2 rfl
  have everything : own () collected = collected.map Prod.snd := by simp [own]
  have documents : collected.map (fun entered => some (Logger.document entered.2)) =
      (collected.map Prod.snd).map fun call => some (Logger.document call) := by
    rw [List.map_map]
    rfl
  dsimp only at read
  rw [documents, ← everything, all] at read
  exact read

end Logging

end ClrOci
