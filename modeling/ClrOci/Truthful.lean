import ClrOci.Foundation.Runs
import ClrOci.Tracking

/-! Whether the status on disk tells the truth about the hypervisor. -/

set_option autoImplicit false

namespace ClrOci

open Foundation

inductive SignalKind where
  | terminates | stopsOrContinues | handledOrIgnored
  deriving DecidableEq

/-- The calls that the commands make are granted; only these are needed of those that are. -/
structure Env.Granting (env : Env) : Prop where
  realpath : ∀ clock path, ((env.host clock).realpath path).isSome = true
  setContents : ∀ clock path, (env.host clock).setContents path = true
  kill : ∀ clock pid signum, (env.host clock).kill pid signum = true
  monitor : ∀ clock, (env.host clock).monitor = true

section Truthful
variable (kind : Int32 → SignalKind) (rootDir : Option String) (id : String)

def Terminated (sys : Sys) : Prop :=
  ∃ vm, sys.hypervisor? (statePathOf rootDir id) = some vm ∧
    ∃ signum ∈ vm.signals, kind signum = .terminates

/-- Stopped implies that the hypervisor was sent a signal that terminates it, and created implies
that it has not been continued since it was launched stopped. -/
def Truthful (sys : Sys) : Prop :=
  (statusAt sys.files (statePathOf rootDir id) = some .stopped → Terminated kind rootDir id sys) ∧
    (statusAt sys.files (statePathOf rootDir id) = some .created →
      ∃ vm, sys.hypervisor? (statePathOf rootDir id) = some vm ∧ sigcont ∉ vm.signals)

/-- A kill sends a signal that terminates, or one has been sent, and a start is not given a blank
bundle path. -/
def Prudent (sys : Sys) : ContainerCommand → Prop
  | .create _ _ => True
  | .given ⟨command, rest⟩ =>
    ∀ fetched, fetch rootDir id sys = some fetched → ¬ (id = "--help" ∨ id = "-h") →
      match command with
      | .start data => fetched.state.status = .created → data.bundle ≠ some ""
      | .toggle _ => True
      | .kill => ∀ signum, killSignum (id :: rest) = some signum →
        kind signum = .terminates ∨ Terminated kind rootDir id sys

variable {kind rootDir id} {env : Env} {sys after : Sys}

theorem Truthful.of_same (truthful : Truthful kind rootDir id sys) (files : after.files = sys.files)
    (trace : after.trace = sys.trace) : Truthful kind rootDir id after := by
  unfold Truthful Terminated Sys.hypervisor? at truthful ⊢
  rw [files, trace]
  exact truthful

theorem Truthful.of_noStatus (none : statusAt sys.files (statePathOf rootDir id) = none) :
    Truthful kind rootDir id sys := by
  unfold Truthful
  rw [none]
  exact ⟨nofun, nofun⟩

theorem truthful_iff {pid : GPid} {status : Status} {vm : Hypervisor}
    (holding : Holding sys.files rootDir id pid status)
    (launched : sys.hypervisor? (statePathOf rootDir id) = some vm) :
    Truthful kind rootDir id sys ↔
      (status = .stopped → ∃ signum ∈ vm.signals, kind signum = .terminates) ∧
        (status = .created → sigcont ∉ vm.signals) := by
  simp only [Truthful, Terminated, holding.statusAt, launched, Option.some.injEq, exists_eq_left']

theorem terminated_iff {vm : Hypervisor}
    (launched : sys.hypervisor? (statePathOf rootDir id) = some vm) :
    Terminated kind rootDir id sys ↔ ∃ signum ∈ vm.signals, kind signum = .terminates := by
  simp only [Terminated, launched, Option.some.injEq, exists_eq_left']

theorem Truthful.of_fresh (truthful : Truthful kind rootDir id sys)
    (fresh : Fresh rootDir id sys after) : Truthful kind rootDir id after := by
  rcases fresh with ⟨files, trace⟩ | none | ⟨pid, holding, launched⟩
  · exact truthful.of_same files trace
  · exact Truthful.of_noStatus (statusAt_of_noDocument none)
  · rw [truthful_iff holding launched]
    exact ⟨nofun, fun _ => List.not_mem_nil⟩

theorem bundlePath_isSome (granting : env.Granting) (clock : Nat) (data : StartData)
    {recorded : Option String} (present : recorded.isSome = true) :
    (data.bundlePath (env.host clock) recorded).isSome = !(data.bundle == some "") := by
  unfold StartData.bundlePath
  cases data.bundle with
  | none => simpa using present
  | some bundle =>
    by_cases blank : bundle = ""
    · simp [blank, resolvePath]
    · simp [blank, resolvePath, granting.realpath clock bundle]

section Found
variable {pid : GPid} {status : Status} {vm : Hypervisor} {fetched : Fetched}
  (granting : env.Granting) (sequential : env.Sequential)
  (holding : Holding sys.files rootDir id vm.pid status)
  (launched : sys.hypervisor? (statePathOf rootDir id) = some vm)
  (got : fetch rootDir id sys = some fetched) (truthful : Truthful kind rootDir id sys)
include holding launched got

theorem truthful_of_puts {invocation : Invocation} {marks : List Mark}
    (marked : invocation.marks env rootDir id fetched sys = marks)
    (idle : ∀ data, invocation.command = .start data → statuses marks = []) :
    Truthful kind rootDir id (invocation.perform env rootDir id sys) ↔
      ((statuses marks).getLastD status = .stopped →
        ∃ signum ∈ vm.signals ++ signalsTo vm.pid marks, kind signum = .terminates) ∧
        ((statuses marks).getLastD status = .created →
          sigcont ∉ vm.signals ++ signalsTo vm.pid marks) := by
  subst marked
  have puts := invocation.perform_puts holding got idle
  exact truthful_iff (puts.held status holding) (puts.leaves.hypervisor? launched)

include truthful in
theorem truthful_of_silent {invocation : Invocation}
    (silent : invocation.marks env rootDir id fetched sys = []) :
    Truthful kind rootDir id (invocation.perform env rootDir id sys) := by
  rw [truthful_of_puts holding launched got silent fun _ _ => rfl]
  simpa [statuses, signalsTo] using (truthful_iff holding launched).mp truthful

include granting truthful in
theorem kill_truthful_iff (rest : List String) :
    Truthful kind rootDir id ((⟨.kill, rest⟩ : Invocation).perform env rootDir id sys) ↔
      Prudent kind rootDir id sys (.given ⟨.kill, rest⟩) := by
  by_cases usage : id = "--help" ∨ id = "-h"
  · exact ⟨fun _ _ _ asked => absurd usage asked,
      fun _ => truthful_of_silent holding launched got truthful (if_pos usage)⟩
  cases asked : killSignum (id :: rest) with
  | none =>
    refine ⟨fun _ _ _ _ signum named => ?_,
      fun _ => truthful_of_silent holding launched got truthful ?_⟩
    · rw [asked] at named
      cases named
    · simp only [Invocation.marks, if_neg usage, asked]
  | some signum =>
    have pid := (holding.fetched got).2.1
    have marked : (⟨.kill, rest⟩ : Invocation).marks env rootDir id fetched sys =
        [.status .stopping, .signal vm.pid signum, .status .stopped] := by
      simp only [Invocation.marks, if_neg usage, asked, killMarks, granting.setContents,
        granting.kill, pid, ↓reduceIte, List.cons_append, List.nil_append]
    rw [truthful_of_puts holding launched got marked fun _ other => Rewriting.noConfusion other]
    have sent : signalsTo vm.pid [.status .stopping, .signal vm.pid signum, .status .stopped] =
        [signum] := by
      simp [signalsTo]
    rw [sent]
    have prudent : Prudent kind rootDir id sys (.given ⟨.kill, rest⟩) ↔
        kind signum = .terminates ∨ ∃ signum ∈ vm.signals, kind signum = .terminates := by
      rw [← terminated_iff launched]
      constructor
      · exact fun prudent => prudent fetched got usage signum asked
      · intro either _ _ _ other named
        cases asked.symm.trans named
        exact either
    have last : (statuses [.status .stopping, .signal vm.pid signum, .status .stopped]).getLastD
        status = .stopped := rfl
    rw [prudent, last]
    simp [or_comm]

include granting sequential truthful in
theorem start_truthful_iff (data : StartData) (rest : List String) :
    Truthful kind rootDir id ((⟨.start data, rest⟩ : Invocation).perform env rootDir id sys) ↔
      Prudent kind rootDir id sys (.given ⟨.start data, rest⟩) := by
  by_cases usage : id = "--help" ∨ id = "-h"
  · exact ⟨fun _ _ _ asked => absurd usage asked,
      fun _ => truthful_of_silent holding launched got truthful (if_pos usage)⟩
  obtain ⟨found, pid, _, fit⟩ := holding.fetched got
  by_cases created : fetched.state.status = .created
  · have recorded : (configUpdate fetched.config fetched.state).bundlePath.isSome = true := by
      obtain ⟨inputs, given⟩ := fit.given
      rw [(stateInputs_eq_some_iff.mp given).2.2.2.1]
      rfl
    have marked : (⟨.start data, rest⟩ : Invocation).marks env rootDir id fetched sys =
        startMarks vm.pid true !(data.bundle == some "") := by
      simp only [Invocation.marks, if_neg usage, if_neg (not_not.mpr created),
        bundlePath_isSome granting sys.clock data recorded, Nat.add_zero, granting.setContents,
        granting.kill, granting.monitor, pid, Bool.or_true, Bool.and_true]
    have prudent : Prudent kind rootDir id sys (.given ⟨.start data, rest⟩) ↔
        data.bundle ≠ some "" := by
      constructor
      · exact fun prudent => prudent fetched got usage created
      · exact fun given _ _ _ _ => given
    rw [prudent]
    by_cases blank : data.bundle = some ""
    · rw [beq_iff_eq.mpr blank] at marked
      rw [truthful_of_puts holding launched got marked fun _ _ => rfl, ← found, created]
      simp [startMarks, statuses, Mark.status?, signalsTo, blank]
    · rw [beq_eq_false_iff_ne.mpr blank] at marked
      have leaves := (⟨.start data, rest⟩ : Invocation).perform_leaves holding got sequential
      rw [marked] at leaves
      refine iff_of_true ?_ blank
      rcases leaves.left status holding with gone | held
      · exact Truthful.of_noStatus (by rw [statusAt, gone]; rfl)
      · have last : (statuses (startMarks vm.pid true !false)).getLastD status = .running := rfl
        unfold Truthful
        rw [held.statusAt, last]
        simp
  · have marked : (⟨.start data, rest⟩ : Invocation).marks env rootDir id fetched sys = [] := by
      simp only [Invocation.marks, if_neg usage, if_pos created]
    refine ⟨fun _ other again _ same => ?_,
      fun _ => truthful_of_silent holding launched got truthful marked⟩
    cases got.symm.trans again
    exact absurd same created

include truthful in
theorem toggle_truthful (pause : Bool) (rest : List String) :
    Truthful kind rootDir id ((⟨.toggle pause, rest⟩ : Invocation).perform env rootDir id sys) := by
  by_cases silent : (⟨.toggle pause, rest⟩ : Invocation).marks env rootDir id fetched sys = []
  · exact truthful_of_silent holding launched got truthful silent
  · have marked : (⟨.toggle pause, rest⟩ : Invocation).marks env rootDir id fetched sys =
        [.status (toggleDest pause)] := by
      unfold Invocation.marks toggleMarks at silent ⊢
      dsimp only at silent ⊢
      split at silent
      · exact absurd rfl silent
      · split at silent
        · next asked done => rw [if_neg asked, if_pos done]
        · exact absurd rfl silent
    rw [truthful_of_puts holding launched got marked fun _ other => nomatch other]
    cases pause <;> exact ⟨nofun, nofun⟩

end Found

theorem perform_truthful_iff (granting : env.Granting) (sequential : env.Sequential)
    (tracked : Tracked rootDir id sys) (truthful : Truthful kind rootDir id sys)
    (command : ContainerCommand) :
    Truthful kind rootDir id (command.perform env rootDir id sys) ↔
      Prudent kind rootDir id sys command := by
  cases command with
  | create data rest =>
    exact iff_of_true (truthful.of_fresh (handlerCreate_tracked tracked data rest).2) trivial
  | given invocation =>
    cases got : fetch rootDir id sys with
    | none =>
      rw [ContainerCommand.perform, Invocation.perform_of_missing got]
      refine iff_of_true truthful fun fetched found => ?_
      rw [got] at found
      cases found
    | some fetched =>
      rcases tracked.state with none | ⟨pid, status, vm, holding, launched, rfl⟩
      · rw [fetch_of_noDocument none] at got
        cases got
      obtain ⟨command, rest⟩ := invocation
      cases command with
      | start data => exact start_truthful_iff granting sequential holding launched got truthful data rest
      | toggle pause =>
        exact iff_of_true (toggle_truthful holding launched got truthful pause rest) fun _ _ _ => trivial
      | kill => exact kill_truthful_iff granting holding launched got truthful rest

theorem ContainerCommand.perform_tracked (sequential : env.Sequential)
    (tracked : Tracked rootDir id sys) (command : ContainerCommand) :
    Tracked rootDir id (command.perform env rootDir id sys) := by
  cases command with
  | create data rest => exact (handlerCreate_tracked tracked data rest).1
  | given invocation => exact tracked.perform sequential invocation

/-- The status on disk is truthful after every command of a sequence if and only if every kill that
finds the container sends a signal that terminates the hypervisor, or one has been sent, and no
start of the created container is given a blank bundle path: a kill records stopped whatever the
signal, and a start without a bundle continues the hypervisor but cannot write the state file. -/
theorem status_is_truthful_iff (kind : Int32 → SignalKind) (granting : env.Granting)
    (sequential : env.Sequential) (missing : sys.files (statePathOf rootDir id) = none)
    (commands : List ContainerCommand) :
    Along (ContainerCommand.perform env rootDir id)
        (fun sys command => Truthful kind rootDir id (command.perform env rootDir id sys))
        sys commands ↔
      Along (ContainerCommand.perform env rootDir id) (Prudent kind rootDir id) sys commands :=
  along_states_iff (Tracked rootDir id)
    (fun _ command tracked => command.perform_tracked sequential tracked)
    (fun _ command tracked truthful =>
      perform_truthful_iff granting sequential tracked truthful command)
    (Tracked.of_missing missing)
    (Truthful.of_noStatus (by rw [statusAt, missing]; rfl))

end Truthful

/-- The usual effect of the signals of `signal_table` on a hypervisor. -/
def usualKind (signum : Int32) : SignalKind :=
  if signum ∈ [18, 19, 20, 21, 22] then .stopsOrContinues
  else if signum ∈ [17, 23, 28] then .handledOrIgnored
  else .terminates

theorem Env.calm_granting : Env.calm.Granting :=
  ⟨fun _ _ => rfl, fun _ _ => rfl, fun _ _ _ => rfl, fun _ => rfl⟩

def bundleSys : Sys := Sys.idle (bundleFiles [platformSection "linux"])

def createStartKill (signame : String) : List ContainerCommand :=
  [.create (sharedOptions (some "/bundle") none none) [], .given ⟨.start {}, []⟩,
    .given ⟨.kill, [signame]⟩]

theorem terminated_status_is_truthful :
    Along (ContainerCommand.perform Env.calm (some "/run") "c1")
      (fun sys command => Truthful usualKind (some "/run") "c1"
        (command.perform Env.calm (some "/run") "c1" sys)) bundleSys (createStartKill "SIGTERM") := by
  refine (status_is_truthful_iff usualKind Env.calm_granting Env.calm_sequential (by decide)
    (createStartKill "SIGTERM")).mpr ⟨trivial, ?_, ?_, trivial⟩
  · exact fun _ _ _ _ => nofun
  · intro _ _ _ signum named
    have sigterm : killSignum ["c1", "SIGTERM"] = some 15 := by decide
    cases sigterm.symm.trans named
    exact Or.inl (by decide)

/-- A container whose hypervisor was only continued is recorded as stopped. -/
theorem stopped_but_continued :
    let perform := ContainerCommand.perform Env.calm (some "/run") "c1"
    let after := (createStartKill "SIGCONT").foldl perform bundleSys
    statusAt after.files "/run/c1/state.json" = some .stopped ∧
      after.hypervisor? "/run/c1/state.json" = some ⟨4242, [18, 18]⟩ ∧
      usualKind 18 = .stopsOrContinues ∧
      ¬ Along perform (fun sys command => Truthful usualKind (some "/run") "c1" (perform sys command))
        bundleSys (createStartKill "SIGCONT") := by
  intro perform after
  have path : statePathOf (some "/run") "c1" = "/run/c1/state.json" := by decide
  have facts : statusAt after.files "/run/c1/state.json" = some .stopped ∧
      after.hypervisor? "/run/c1/state.json" = some ⟨4242, [18, 18]⟩ := by
    decide +kernel
  obtain ⟨stopped, sent⟩ := facts
  refine ⟨stopped, sent, by decide, fun truthful => ?_⟩
  obtain ⟨_, _, last, _⟩ := truthful
  change Truthful usualKind (some "/run") "c1" after at last
  rw [Truthful, path] at last
  obtain ⟨vm, found, signum, member, terminates⟩ := last.1 stopped
  rw [path, sent, Option.some.injEq] at found
  subst found
  simp only [List.mem_cons, List.not_mem_nil, or_false, or_self] at member
  subst member
  cases terminates

end ClrOci
