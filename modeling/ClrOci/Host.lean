import ClrOci.Foundation.Steps
import ClrOci.Json
import Mathlib.Logic.Function.Basic

/-! The system the runtime runs on.

A host answers the calls of one instant; an environment gives the host of every
instant, and each call that may answer differently next time advances the clock.
An environment is therefore an assignment of outcomes to all calls of a run. The
system keeps what calls change: files, directories, the mount table, the spawned
hypervisors, and the trace of what was done.
-/

set_option autoImplicit false

namespace ClrOci

structure Stat where
  isDir : Bool
  size : Nat
  deriving DecidableEq

inductive HookOutcome where
  | spawnFailed
  | stdinFailed
  | exited (status : Int32)
  deriving DecidableEq

/-- What `waitpid` reports of the traced child. -/
inductive WaitStatus where
  | failed
  | exited
  | stopped (signal : Nat)
  deriving DecidableEq

inductive QmpCommand where
  | pause | resume | shutdown
  deriving DecidableEq

structure CommandResult where
  ok : Bool
  removed : Bool
  deriving DecidableEq

inductive Content where
  | json (document : Json)
  | text (value : String)

abbrev Files := String → Option Content

structure Wakeup where
  failed : Bool
  files : Files

structure Host where
  chdir : String → Bool
  realpath : String → Option String
  stat : String → Option Stat
  readText : String → Option String
  findProgramInPath : String → Option String
  mkdirWithParents : String → Bool
  mkdir : String → Bool
  mount : Mount → Bool
  -- The kernel decides with its mount table at hand.
  umount : List String → String → Bool
  setContents : String → Bool
  chmod : String → Bool
  unlink : String → Bool
  system : String → CommandResult
  timestamp : Option String
  uuid : List UInt8
  spawn : List String → Option GPid
  waitpid : WaitStatus
  detach : Bool
  hook : Hook → HookOutcome
  kill : GPid → Int32 → Bool
  -- A command sent to the hypervisor may also end the process that sends it.
  qmp : QmpCommand → String → GPid → Foundation.Exit
  isatty : Bool
  monitor : Bool
  -- Other processes may rewrite files while the loop runs; it may never return.
  mainLoop : Files → Option Wakeup

structure Env where
  host : Nat → Host
  sysconfdir : String
  defaultsdir : String

/-- A host on which every call succeeds; the kernel unmounts what is mounted. -/
def Host.calm : Host where
  chdir := fun _ => true
  realpath := some
  stat := fun _ => some { isDir := true, size := 4096 }
  readText := fun _ => some "qemu"
  findProgramInPath := fun program => some ("/usr/bin/" ++ program)
  mkdirWithParents := fun _ => true
  mkdir := fun _ => true
  mount := fun _ => true
  umount := fun mounts dest => mounts.contains dest
  setContents := fun _ => true
  chmod := fun _ => true
  unlink := fun _ => true
  system := fun _ => { ok := true, removed := true }
  timestamp := some "2016-09-01T10:00:00Z"
  uuid := List.replicate 16 0
  spawn := fun _ => some 4242
  waitpid := .stopped 5
  detach := true
  hook := fun _ => .exited 0
  kill := fun _ _ => true
  qmp := fun _ _ _ => .returned true
  isatty := false
  monitor := true
  mainLoop := fun files => some { failed := false, files := files }

def Env.calm : Env where
  host := fun _ => .calm
  sysconfdir := "/etc"
  defaultsdir := "/usr/share/defaults"

inductive Event where
  | mount (dest : String)
  | umount (dest : String) (ok : Bool)
  | wrote (path : String) (content : Content)
  | spawn (args : List String) (pid : GPid)
  | hook (hook : Hook) (stdin : Content) (outcome : HookOutcome)
  | kill (pid : GPid) (signum : Int32)

namespace Event

inductive Kind where
  | mount | umount | wrote | spawn | hook | kill
  deriving DecidableEq

def kind : Event → Kind
  | .mount _ => .mount
  | .umount _ _ => .umount
  | .wrote _ _ => .wrote
  | .spawn _ _ => .spawn
  | .hook _ _ _ => .hook
  | .kill _ _ => .kill

def mountedDest? : Event → Option String
  | .mount dest => some dest
  | _ => none

def umountedDest? : Event → Option String
  | .umount dest _ => some dest
  | _ => none

def spawnedPid? : Event → Option GPid
  | .spawn _ pid => some pid
  | _ => none

def hookRun? : Event → Option (Hook × HookOutcome)
  | .hook ran _ outcome => some (ran, outcome)
  | _ => none

end Event

structure Sys where
  clock : Nat
  files : Files
  -- Directories made for the runtime; mount points below a root path are not followed.
  dirs : String → Bool
  mounts : List String
  procs : List GPid
  trace : List Event

namespace Sys

def idle (files : Files) : Sys where
  clock := 0
  files := files
  dirs := fun _ => false
  mounts := []
  procs := []
  trace := []

def tick (sys : Sys) : Sys := { sys with clock := sys.clock + 1 }

def log (sys : Sys) (event : Event) : Sys := { sys with trace := sys.trace ++ [event] }

def written (sys : Sys) (path : String) (content : Content) : Sys :=
  { sys.log (.wrote path content) with files := Function.update sys.files path (some content) }

section Fields
variable (sys : Sys) (event : Event) (path : String) (content : Content)

@[simp] theorem tick_clock : sys.tick.clock = sys.clock + 1 := rfl
@[simp] theorem tick_files : sys.tick.files = sys.files := rfl
@[simp] theorem tick_dirs : sys.tick.dirs = sys.dirs := rfl
@[simp] theorem tick_mounts : sys.tick.mounts = sys.mounts := rfl
@[simp] theorem tick_procs : sys.tick.procs = sys.procs := rfl
@[simp] theorem tick_trace : sys.tick.trace = sys.trace := rfl
@[simp] theorem log_clock : (sys.log event).clock = sys.clock := rfl
@[simp] theorem log_files : (sys.log event).files = sys.files := rfl
@[simp] theorem log_dirs : (sys.log event).dirs = sys.dirs := rfl
@[simp] theorem log_mounts : (sys.log event).mounts = sys.mounts := rfl
@[simp] theorem log_procs : (sys.log event).procs = sys.procs := rfl
@[simp] theorem log_trace : (sys.log event).trace = sys.trace ++ [event] := rfl

@[simp] theorem written_clock : (sys.written path content).clock = sys.clock := rfl
@[simp] theorem written_files :
    (sys.written path content).files = Function.update sys.files path (some content) := rfl
@[simp] theorem written_dirs : (sys.written path content).dirs = sys.dirs := rfl
@[simp] theorem written_mounts : (sys.written path content).mounts = sys.mounts := rfl
@[simp] theorem written_trace :
    (sys.written path content).trace = sys.trace ++ [.wrote path content] := rfl

theorem written_files_self : (sys.written path content).files path = some content := by
  rw [written_files, Function.update_self]

end Fields

def below (directory path : String) : Bool :=
  path == directory || (directory ++ "/").toList.isPrefixOf path.toList

def removeTree (sys : Sys) (directory : String) : Sys :=
  { sys with
    files := fun path => if below directory path then none else sys.files path
    dirs := fun path => if below directory path then false else sys.dirs path }

def eventsSince (before after : Sys) : List Event := after.trace.drop before.trace.length

def mountedSince (before after : Sys) : List String :=
  (before.eventsSince after).filterMap Event.mountedDest?

def umountedSince (before after : Sys) : List String :=
  (before.eventsSince after).filterMap Event.umountedDest?

def spawnedSince (before after : Sys) : List GPid :=
  (before.eventsSince after).filterMap Event.spawnedPid?

def hooksSince (before after : Sys) : List (Hook × HookOutcome) :=
  (before.eventsSince after).filterMap Event.hookRun?

theorem eventsSince_of_append {before after : Sys} {events : List Event}
    (added : after.trace = before.trace ++ events) : before.eventsSince after = events := by
  rw [eventsSince, added, List.drop_left]

theorem eventsSince_trans {first second third : Sys} (early : first.trace <+: second.trace)
    (late : second.trace <+: third.trace) :
    first.eventsSince third = first.eventsSince second ++ second.eventsSince third := by
  obtain ⟨before, added⟩ := early
  obtain ⟨after, extended⟩ := late
  have whole : third.trace = first.trace ++ (before ++ after) := by
    rw [← extended, ← added, List.append_assoc]
  rw [eventsSince_of_append whole, eventsSince_of_append added.symm,
    eventsSince_of_append extended.symm]

def Adds (allowed : Event → Prop) (before after : Sys) : Prop :=
  ∃ events, after.trace = before.trace ++ events ∧ ∀ event ∈ events, allowed event

namespace Adds
variable {allowed more : Event → Prop} {first second third : Sys}

theorem of_same (same : second.trace = first.trace) : first.Adds allowed second :=
  ⟨[], by rw [same, List.append_nil], fun _ member => nomatch member⟩

theorem refl (sys : Sys) : sys.Adds allowed sys := of_same rfl

theorem trans (early : first.Adds allowed second) (late : second.Adds allowed third) :
    first.Adds allowed third := by
  obtain ⟨before, added, fine⟩ := early
  obtain ⟨after, extended, also⟩ := late
  refine ⟨before ++ after, by rw [extended, added, List.append_assoc], fun event member => ?_⟩
  rcases List.mem_append.mp member with old | new
  · exact fine event old
  · exact also event new

theorem mono (weaker : ∀ event, allowed event → more event) (adds : first.Adds allowed second) :
    first.Adds more second := by
  obtain ⟨events, added, fine⟩ := adds
  exact ⟨events, added, fun event member => weaker event (fine event member)⟩

theorem log {event : Event} (fine : allowed event) (sys : Sys) : sys.Adds allowed (sys.log event) :=
  ⟨[event], rfl, fun _ member => List.mem_singleton.mp member ▸ fine⟩

theorem of_mem {event : Event} (adds : first.Adds allowed second)
    (member : event ∈ first.eventsSince second) : allowed event := by
  obtain ⟨events, added, fine⟩ := adds
  rw [eventsSince_of_append added] at member
  exact fine event member

theorem trace_extends (adds : first.Adds allowed second) : first.trace <+: second.trace := by
  obtain ⟨events, added, _⟩ := adds
  exact ⟨events, added.symm⟩

theorem filterMap_eventsSince {A : Type} {select : Event → Option A} (adds : first.Adds allowed second)
    (others : ∀ event, allowed event → select event = none) :
    (first.eventsSince second).filterMap select = [] :=
  List.filterMap_eq_nil_iff.mpr fun event member => others event (adds.of_mem member)

end Adds

theorem below_self (directory : String) : below directory directory = true := by
  simp [below]

end Sys

/-- A command at work: the configuration it fills in and the system around it. -/
structure World where
  config : Config
  sys : Sys

variable (env : Env)

-- `g_file_set_contents` replaces a file or leaves it as it is.
def setContents (path : String) (content : Content) (sys : Sys) : Bool × Sys :=
  if (env.host sys.clock).setContents path then (true, sys.tick.written path content)
  else (false, sys.tick)

def unlink (path : String) (sys : Sys) : Bool × Sys :=
  if (env.host sys.clock).unlink path && (sys.files path).isSome then
    (true, { sys.tick with files := Function.update sys.files path none })
  else (false, sys.tick)

-- `g_mkdir_with_parents`: the directory and everything above it.
def mkdirWithParents (path : String) (sys : Sys) : Bool × Sys :=
  if (env.host sys.clock).mkdirWithParents path then
    (true, { sys.tick with dirs := fun other => sys.dirs other || Sys.below other path })
  else (false, sys.tick)

-- `mkdir(2)` fails on an existing path.
def mkdir (path : String) (sys : Sys) : Bool × Sys :=
  if (env.host sys.clock).mkdir path && !sys.dirs path then
    (true, { sys.tick with dirs := Function.update sys.dirs path true })
  else (false, sys.tick)

def kill (pid : GPid) (signum : Int32) (sys : Sys) : Bool × Sys :=
  if (env.host sys.clock).kill pid signum then (true, sys.tick.log (.kill pid signum))
  else (false, sys.tick)

def jsonParseFile (files : Files) (path : String) : Option GNode :=
  match files path with
  | some (.json document) => if path = "" then none else some (jsonParse path document)
  | _ => none

theorem setContents_ok_iff (path : String) (content : Content) (sys : Sys) :
    (setContents env path content sys).1 = true ↔ (env.host sys.clock).setContents path = true := by
  unfold setContents
  split <;> simp_all

theorem setContents_of_ok {path : String} {content : Content} {sys : Sys}
    (ok : (setContents env path content sys).1 = true) :
    (setContents env path content sys).2 = sys.tick.written path content := by
  have allowed := (setContents_ok_iff env path content sys).mp ok
  simp only [setContents, allowed, ↓reduceIte]

end ClrOci
