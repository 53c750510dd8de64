import ClrOci.Hooks

/-! The launch of the hypervisor: what its parent makes of the child, and what the child does
before it becomes the hypervisor.
-/

set_option autoImplicit false

namespace ClrOci

open Foundation

section Parent
variable (env : Env) (world : World)

structure StoppedChild (args : List String) (pid : GPid) : Prop where
  spawned : (env.host world.sys.clock).spawn args = some pid
  trapped : (env.host (world.sys.clock + 1)).waitpid = .stopped 5
  detached : (env.host (world.sys.clock + 2)).detach = true

/-- A launch succeeds only with a child that has stopped, and whose pid is in the file it was
asked to be in. -/
def HonestLaunch : Prop :=
  (vmLaunch env).Succeeds world → ∃ config args pid,
    vmArgsGet env (env.host world.sys.clock) world.config = some (config, args) ∧
      StoppedChild env world args pid ∧
      ∀ pidfile, world.config.pidFile = some pidfile →
        .wrote pidfile (.text (toString pid.toInt)) ∈ world.sys.eventsSince (vmLaunch env world).state.sys

def ChildStops : Prop :=
  ∀ config args pid, vmArgsGet env (env.host world.sys.clock) world.config = some (config, args) →
    (env.host world.sys.clock).spawn args = some pid →
      (env.host (world.sys.clock + 1)).waitpid = .stopped 5 ∧
        (env.host (world.sys.clock + 2)).detach = true

variable {env world}

theorem withConsole_pidFile (config : Config) : config.withConsole.pidFile = config.pidFile := by
  unfold Config.withConsole
  split <;> rfl

theorem withConsole_oci (config : Config) : config.withConsole.oci = config.oci := by
  unfold Config.withConsole
  split <;> rfl

theorem vmArgsGet_oci {host : Host} {config filled : Config} {args : List String}
    (found : vmArgsGet env host config = some (filled, args)) : filled.oci = config.oci := by
  rw [vmArgsGet_config env found, withConsole_oci]

theorem createPidfile_wrote {pidfile : String} {pid : GPid} {sys : Sys}
    (ok : (createPidfile env pidfile pid sys).1 = true) :
    (createPidfile env pidfile pid sys).2 = sys.tick.written pidfile (.text (toString pid.toInt)) := by
  unfold createPidfile at ok ⊢
  split
  · next refused =>
    rw [if_pos refused] at ok
    cases ok
  · next accepted =>
    rw [if_neg accepted] at ok
    exact setContents_of_ok env ok

/-- What comes after the spawn: any child that is not seen to stop is a success. -/
theorem vmWait_of_astray {config : Config} {sys : Sys}
    (astray : ¬ ((env.host sys.clock).waitpid = .stopped 5 ∧ (env.host (sys.clock + 1)).detach = true)) :
    (vmWait env config sys).1 = true := by
  unfold vmWait
  split
  · next trapped =>
    have held : (env.host (sys.clock + 1)).detach = false :=
      Bool.eq_false_iff.mpr fun detached => astray ⟨trapped, detached⟩
    simp [held]
  · rfl

theorem vmLaunch_of_spawn {config : Config} {args : List String} {pid : GPid}
    (found : vmArgsGet env (env.host world.sys.clock) world.config = some (config, args))
    (spawned : (env.host world.sys.clock).spawn args = some pid) :
    vmLaunch env world =
      let waited := vmWait env (config.setWorkloadPid pid) (world.sys.tick.launched args pid)
      ⟨.returned waited.1, ⟨config.setWorkloadPid pid, waited.2⟩⟩ := by
  simp only [vmLaunch, found, spawned]

/-- The pid is written when the child stops, a file was asked for and the launch succeeds. -/
theorem vmWait_wrote {config : Config} {sys : Sys} {pidfile : String}
    (trapped : (env.host sys.clock).waitpid = .stopped 5)
    (detached : (env.host (sys.clock + 1)).detach = true) (asked : config.pidFile = some pidfile)
    (ok : (vmWait env config sys).1 = true) :
    (vmWait env config sys).2 = sys.tick.tick.tick.written pidfile
      (.text (toString config.state.workloadPid.toInt)) := by
  have waited : vmWait env config sys =
      createPidfile env pidfile config.state.workloadPid sys.tick.tick := by
    simp [vmWait, trapped, detached, asked]
  rw [waited] at ok ⊢
  exact createPidfile_wrote ok

/-- A launch is honest exactly if the child it spawns stops: the result of the spawn is kept when the
wait for the child goes wrong. -/
theorem honestLaunch_iff : HonestLaunch env world ↔ ChildStops env world := by
  constructor
  · intro honest config args pid found spawned
    by_contra astray
    have ok : (vmLaunch env).Succeeds world := by
      rw [Action.Succeeds, vmLaunch_of_spawn found spawned]
      exact congrArg Exit.returned (vmWait_of_astray astray)
    obtain ⟨config', args', pid', _, stopped, _⟩ := honest ok
    exact astray ⟨stopped.trapped, stopped.detached⟩
  · intro stops ok
    cases found : vmArgsGet env (env.host world.sys.clock) world.config with
    | none => simp [Action.Succeeds, vmLaunch, found] at ok
    | some prepared =>
      obtain ⟨config, args⟩ := prepared
      cases spawned : (env.host world.sys.clock).spawn args with
      | none => simp [Action.Succeeds, vmLaunch, found, spawned] at ok
      | some pid =>
        obtain ⟨trapped, detached⟩ := stops config args pid found spawned
        refine ⟨config, args, pid, rfl, ⟨spawned, trapped, detached⟩, fun pidfile asked => ?_⟩
        have launched := vmLaunch_of_spawn found spawned
        rw [Action.Succeeds, launched, Exit.returned.injEq] at ok
        have asked' : (config.setWorkloadPid pid).pidFile = some pidfile := by
          rw [vmArgsGet_config env found]
          exact (withConsole_pidFile world.config).trans asked
        have wrote := vmWait_wrote trapped detached asked' ok
        have added : (vmLaunch env world).state.sys.trace = world.sys.trace ++
            [.spawn args pid, .wrote pidfile (.text (toString pid.toInt))] := by
          rw [launched]
          dsimp only
          rw [wrote]
          exact List.append_assoc _ _ _
        rw [Sys.eventsSince_of_append added]
        exact List.mem_cons_of_mem _ List.mem_cons_self

variable (env world)

def launching : World :=
  let prepared := (prepareContainer env (claimContainer env world).state).state
  (prepared.withStatus .created).withSys prepared.sys.tick

def Records : Prop := world.config.dryRunMode = false ∧ (reachHooks env).Succeeds world

/-- A container is recorded as created only with a VM that is there and does not run yet. -/
def RecordsHonestly : Prop :=
  Records env world → ∃ config args pid,
    vmArgsGet env (env.host (launching env world).sys.clock) (launching env world).config =
        some (config, args) ∧
      StoppedChild env (launching env world) args pid

/-- For every outcome of the calls of a launch and of a creation. -/
theorem launch_and_creation_honest_iff :
    (HonestLaunch env world ↔ ChildStops env world) ∧
      (RecordsHonestly env world ↔ (Records env world → ChildStops env (launching env world))) := by
  refine ⟨honestLaunch_iff, ?_⟩
  constructor
  · intro honest records config args pid found spawned
    obtain ⟨config', args', pid', found', stopped⟩ := honest records
    exact ⟨stopped.trapped, stopped.detached⟩
  · intro stops records
    obtain ⟨claimed, rest⟩ := Action.andThen_succeeds_iff.mp records.2
    obtain ⟨prepared, launched⟩ := Action.andThen_succeeds_iff.mp rest
    obtain ⟨created, ok, _, _⟩ := launchContainer_of_succeeds launched
    obtain ⟨config, args, pid, found, stopped, _⟩ := honestLaunch_iff.mpr (stops records) ok
    exact ⟨config, args, pid, found, stopped⟩

end Parent

def Env.exiting : Env :=
  { Env.calm with host := fun _ => { Host.calm with waitpid := .exited } }

/-- The launch of a VM that exits succeeds, and it is recorded as created. -/
theorem exited_vm_recorded :
    let world := bundleWorld [platformSection "linux"]
    (clrOciCreate Env.exiting world).exit = .returned true ∧ Records Env.exiting world ∧
      ¬ HonestLaunch Env.exiting (launching Env.exiting world) ∧ ¬ RecordsHonestly Env.exiting world := by
  intro world
  have facts : (clrOciCreate Env.exiting world).exit = .returned true ∧
      world.config.dryRunMode = false ∧ (reachHooks Env.exiting).Succeeds world ∧
      (vmLaunch Env.exiting).Succeeds (launching Env.exiting world) := by
    decide +kernel
  obtain ⟨created, real, reached, launched⟩ := facts
  refine ⟨created, ⟨real, reached⟩, fun honest => ?_, fun honest => ?_⟩
  · obtain ⟨_, _, _, _, stopped, _⟩ := honest launched
    cases stopped.trapped
  · obtain ⟨_, _, _, _, stopped⟩ := honest ⟨real, reached⟩
    cases stopped.trapped

/-- What the calls of the forked child come to, at one of its steps. -/
structure ChildHost where
  -- `open(2)` of a namespace or of a terminal.
  openFile : String → Bool
  setns : Bool
  unshare : Bool
  traceme : Bool
  dup2 : Bool

inductive ChildEvent where
  | joined (path : String)
  | created
  | traced
  | exec (args : List String)
  deriving DecidableEq

section Child
variable (child : Nat → ChildHost)

/-- The loop of `clr_oci_ns_setup`: only network namespaces are supported, the others are ignored. -/
def nsSetupFrom : Nat → List Namespace → Bool × List ChildEvent
  | _, [] => (true, [])
  | step, ns :: rest =>
    if ns.type ≠ .net then nsSetupFrom (step + 1) rest
    else
      match ns.path with
      | some path =>
        if !(child step).openFile path then (false, [])
        else if !(child step).setns then (false, [])
        else
          let others := nsSetupFrom (step + 1) rest
          (others.1, .joined path :: others.2)
      | none =>
        if !(child step).unshare then (false, [])
        else
          let others := nsSetupFrom (step + 1) rest
          (others.1, .created :: others.2)

/-- `clr_oci_ns_setup`. -/
def nsSetup (namespaces : List Namespace) : Bool × List ChildEvent := nsSetupFrom child 0 namespaces

/-- `clr_oci_set_child_std_fds`: false when an assertion fails. -/
def setChildStdFds (last : Nat) (tty : Option String) : Bool :=
  match tty with
  | none => false
  | some tty =>
    -- A terminal that cannot be opened is logged.
    if !(child last).openFile tty then true
    else (child last).dup2 && (child (last + 1)).dup2 && (child (last + 2)).dup2

/-- `clr_oci_setup_child`: whether it returns, which says nothing of its success, and what it did. -/
def setupChild (config : Config) : Bool × List ChildEvent :=
  let namespaces := config.oci.namespaces
  let entered := nsSetup child namespaces
  if !entered.1 then (true, entered.2)
  else if !(child namespaces.length).traceme then (true, entered.2)
  else if config.useSocketConsole then (true, entered.2 ++ [.traced])
  else (setChildStdFds child (namespaces.length + 1) config.console, entered.2 ++ [.traced])

-- `g_spawn_async_with_pipes` in the child: the program is executed whenever the setup returns.
def spawnedChild (config : Config) (args : List String) : List ChildEvent :=
  let setup := setupChild child config
  if setup.1 then setup.2 ++ [.exec args] else setup.2

def launchedChild (env : Env) (world : World) : List ChildEvent :=
  let host := env.host world.sys.clock
  match vmArgsGet env host world.config with
  | none => []
  | some (config, args) =>
    match host.spawn args with
    | none => []
    | some _ => spawnedChild child config args

def requestedEntries (namespaces : List Namespace) : List ChildEvent :=
  (namespaces.filter fun ns => ns.type = .net).map fun ns =>
    match ns.path with
    | some path => .joined path
    | none => .created

/-- The hypervisor is executed only in the namespaces that were asked for, and traced. -/
def Confined (env : Env) (world : World) : Prop :=
  ∀ args, .exec args ∈ launchedChild child env world →
    (nsSetup child world.config.oci.namespaces).1 = true ∧
      launchedChild child env world =
        requestedEntries world.config.oci.namespaces ++ [.traced, .exec args]

def Grants (host : ChildHost) (ns : Namespace) : Prop :=
  ns.type = .net → match ns.path with
    | some path => host.openFile path = true ∧ host.setns = true
    | none => host.unshare = true

/-- The calls of the child up to and with its request to be traced succeed. -/
def ChildGranted (namespaces : List Namespace) : Prop :=
  (∀ step ns, namespaces[step]? = some ns → Grants (child step) ns) ∧
    (child namespaces.length).traceme = true

def Forks (env : Env) (world : World) : Prop :=
  ∃ config args pid, vmArgsGet env (env.host world.sys.clock) world.config = some (config, args) ∧
    (env.host world.sys.clock).spawn args = some pid

variable {child}

theorem forall_getElem?_cons {A : Type} {first : A} {rest : List A} {holds : Nat → A → Prop} :
    (∀ step item, (first :: rest)[step]? = some item → holds step item) ↔
      holds 0 first ∧ ∀ step item, rest[step]? = some item → holds (step + 1) item := by
  constructor
  · exact fun all => ⟨all 0 first rfl, fun step item found => all (step + 1) item found⟩
  · rintro ⟨here, others⟩ step item found
    cases step with
    | zero =>
      cases found
      exact here
    | succ step => exact others step item found

/-- The setup succeeds exactly if every call for a network namespace does, and has then entered them
all. -/
theorem nsSetupFrom_spec (step : Nat) (namespaces : List Namespace) :
    ((nsSetupFrom child step namespaces).1 = true ↔
        ∀ position ns, namespaces[position]? = some ns → Grants (child (step + position)) ns) ∧
      ((nsSetupFrom child step namespaces).1 = true →
        (nsSetupFrom child step namespaces).2 = requestedEntries namespaces) := by
  induction namespaces generalizing step with
  | nil => exact ⟨⟨fun _ _ _ found => by simp at found, fun _ => rfl⟩, fun _ => rfl⟩
  | cons ns rest ih =>
    obtain ⟨exactly, entered⟩ := ih (step + 1)
    simp only [Nat.add_right_comm step 1, Nat.add_assoc step] at exactly
    rw [forall_getElem?_cons, ← exactly, Nat.add_zero, nsSetupFrom]
    by_cases net : ns.type = .net
    · have requested (entry : ChildEvent) (same : (match ns.path with
          | some path => ChildEvent.joined path
          | none => .created) = entry) :
          requestedEntries (ns :: rest) = entry :: requestedEntries rest := by
        simp [requestedEntries, net, same]
      rw [if_neg (not_not.mpr net)]
      cases given : ns.path with
      | some path =>
        have asked := requested (.joined path) (by rw [given])
        simp only [Grants, net, given, forall_const]
        cases (child step).openFile path <;> cases (child step).setns <;> simp_all
      | none =>
        have asked := requested .created (by rw [given])
        simp only [Grants, net, given, forall_const]
        cases (child step).unshare <;> simp_all
    · have ignored : requestedEntries (ns :: rest) = requestedEntries rest := by
        simp [requestedEntries, net]
      rw [if_pos net, ignored]
      exact ⟨⟨fun ok => ⟨fun same => absurd same net, ok⟩, fun both => both.2⟩, entered⟩

theorem nsSetup_true_iff {namespaces : List Namespace} :
    (nsSetup child namespaces).1 = true ↔
      ∀ step ns, namespaces[step]? = some ns → Grants (child step) ns := by
  have exactly : (nsSetupFrom child 0 namespaces).1 = true ↔
      ∀ position ns, namespaces[position]? = some ns → Grants (child (0 + position)) ns :=
    (nsSetupFrom_spec 0 namespaces).1
  simp only [Nat.zero_add] at exactly
  exact exactly

theorem nsSetup_entries {namespaces : List Namespace} (entered : (nsSetup child namespaces).1 = true) :
    (nsSetup child namespaces).2 = requestedEntries namespaces :=
  (nsSetupFrom_spec 0 namespaces).2 entered

theorem exec_not_requested {args : List String} (namespaces : List Namespace) :
    .exec args ∉ requestedEntries namespaces := by
  intro member
  obtain ⟨ns, _, same⟩ := List.mem_map.mp member
  cases given : ns.path <;> rw [given] at same <;> cases same

theorem spawnedChild_of_denied {config : Config} {args : List String}
    (denied : ¬ ChildGranted child config.oci.namespaces) :
    spawnedChild child config args = (nsSetup child config.oci.namespaces).2 ++ [.exec args] := by
  rw [ChildGranted, ← nsSetup_true_iff] at denied
  have setup : setupChild child config = (true, (nsSetup child config.oci.namespaces).2) := by
    cases entered : (nsSetup child config.oci.namespaces).1 with
    | false => simp [setupChild, entered]
    | true =>
      have untraced : (child config.oci.namespaces.length).traceme = false :=
        Bool.eq_false_iff.mpr fun traced => denied ⟨entered, traced⟩
      simp [setupChild, entered, untraced]
  simp only [spawnedChild, setup, ↓reduceIte]

theorem spawnedChild_of_granted {config : Config} (args : List String)
    (granted : ChildGranted child config.oci.namespaces) :
    ∃ executed, (executed = [] ∨ executed = [.exec args]) ∧
      spawnedChild child config args = requestedEntries config.oci.namespaces ++ .traced :: executed := by
  have entered := nsSetup_true_iff.mpr granted.1
  have events := nsSetup_entries entered
  simp only [spawnedChild, setupChild, entered, granted.2, events, Bool.not_true, Bool.false_eq_true,
    ↓reduceIte]
  split
  · exact ⟨[.exec args], Or.inr rfl, by simp⟩
  · dsimp only
    split
    · exact ⟨[.exec args], Or.inr rfl, by simp⟩
    · exact ⟨[], Or.inl rfl, rfl⟩

/-- The hypervisor stays confined exactly if the child gets the namespaces and the tracing that it asks
for: its setup has no way to say that it failed. -/
theorem launch_confined_iff (child : Nat → ChildHost) (env : Env) (world : World) :
    Confined child env world ↔
      (Forks env world → ChildGranted child world.config.oci.namespaces) := by
  constructor
  · rintro confined ⟨config, args, pid, found, spawned⟩
    by_contra denied
    have same : config.oci = world.config.oci := vmArgsGet_oci found
    have run : launchedChild child env world =
        (nsSetup child world.config.oci.namespaces).2 ++ [.exec args] := by
      rw [← same] at denied ⊢
      simp only [launchedChild, found, spawned, spawnedChild_of_denied denied]
    have executed : ChildEvent.exec args ∈ launchedChild child env world := by
      rw [run]
      exact List.mem_append_right _ List.mem_cons_self
    obtain ⟨entered, events⟩ := confined args executed
    rw [run, nsSetup_entries entered] at events
    cases List.append_cancel_left events
  · intro granted args executed
    unfold launchedChild at executed ⊢
    dsimp only at executed ⊢
    split at executed
    · cases executed
    · next config args' found =>
      split at executed
      · cases executed
      · next pid spawned =>
        have fine := granted ⟨config, args', pid, found, spawned⟩
        have same : config.oci = world.config.oci := vmArgsGet_oci found
        rw [← same] at fine ⊢
        obtain ⟨last, either, events⟩ := spawnedChild_of_granted args' fine
        rw [events] at executed
        refine ⟨nsSetup_true_iff.mpr fine.1, ?_⟩
        rw [events]
        rcases List.mem_append.mp executed with early | late
        · exact absurd early (exec_not_requested _)
        · rcases either with rfl | rfl
          · simp at late
          · simp only [List.mem_cons, reduceCtorEq, List.not_mem_nil, or_false, false_or,
              ChildEvent.exec.injEq] at late
            rw [late]

end Child

def ChildHost.calm : ChildHost where
  openFile := fun _ => true
  setns := true
  unshare := true
  traceme := true
  dup2 := true

def networkSection : String × Json :=
  ("linux", .object [("namespaces",
    .array [.object [("type", .string "network"), ("path", .string "/ns")]])])

/-- A network namespace that cannot be joined: the hypervisor is executed outside of it, untraced. -/
theorem unjoined_vm_executed :
    let world := launching Env.calm (bundleWorld [platformSection "linux", networkSection])
    let child := fun _ => { ChildHost.calm with setns := false }
    world.config.oci.namespaces = [⟨.net, some "/ns"⟩] ∧
      launchedChild child Env.calm world = [.exec ["/usr/bin/qemu"]] ∧
      ¬ Confined child Env.calm world := by
  intro world child
  have facts : world.config.oci.namespaces = [⟨.net, some "/ns"⟩] ∧
      launchedChild child Env.calm world = [.exec ["/usr/bin/qemu"]] := by
    decide +kernel
  obtain ⟨asked, run⟩ := facts
  refine ⟨asked, run, fun confined => ?_⟩
  have executed : ChildEvent.exec ["/usr/bin/qemu"] ∈ launchedChild child Env.calm world := by
    rw [run]
    exact List.mem_cons_self
  have events := (confined _ executed).2
  rw [run, asked] at events
  cases events

end ClrOci
