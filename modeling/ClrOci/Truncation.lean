import ClrOci.SpecHandlers
import ClrOci.State
import ClrOci.Runtime

/-! When the paths that are composed in fixed buffers are whole. -/

set_option autoImplicit false

namespace ClrOci

open Foundation

def wholeRuntimePath (rootDir : Option String) (id : String) : String :=
  rootDir.getD runtimeDirPrefix ++ "/" ++ id

def wantedRuntimePath (config : Config) : Option String :=
  if config.state.runtimePath.isSet then some config.state.runtimePath.text
  else config.optargContainerId.map (wholeRuntimePath config.rootDir)

def RuntimePathWhole (config : Config) : Prop :=
  ∀ located ∈ runtimePathGet config,
    config.optargContainerId.map (wholeRuntimePath config.rootDir) = some located.state.runtimePath.text

def SetupWhole (config : Config) : Prop :=
  ∀ (env : Env) (sys : Sys), (runtimeDirSetup env).Succeeds ⟨config, sys⟩ →
    ∀ path ∈ wantedRuntimePath config,
      let state := (runtimeDirSetup env ⟨config, sys⟩).state.config.state
      state.runtimePath.text = path ∧ state.commsPath.text = path ++ "/" ++ hypervisorSocket ∧
        state.procsockPath.text = path ++ "/" ++ processSocket

def StateFileWhole (config : Config) : Prop :=
  ∀ located ∈ stateFileGet config,
    located.state.stateFilePath.text = config.state.runtimePath.text ++ "/" ++ stateFileName

def PathsDistinct (runtimePath : PathBuffer) : Prop :=
  stateFilePath runtimePath ≠ commsPath runtimePath ∧ stateFilePath runtimePath ≠ procsockPath runtimePath ∧
    commsPath runtimePath ≠ procsockPath runtimePath

def wholeDest (root : PathBuffer) (mount : Mount) : String := root.text ++ textOrNull mount.entry.dir

def MountsWhole (config : Config) : Prop :=
  ∀ (env : Env) (sys : Sys), (handleMounts env).Succeeds ⟨config, sys⟩ →
    ∀ mount ∈ (handleMounts env ⟨config, sys⟩).state.config.oci.mounts, mountIgnore mount = false →
      mount.dest.text = wholeDest config.oci.root.path mount

/-- The path of a hook is the text of its node, unless the section fails. -/
def HookWhole (scan : Scan Hook) (node : GNode) : Prop :=
  node.data = some "path" → node.hasChildren = true →
    (handleHook scan node).error = true ∨
      ∃ hook, (handleHook scan node).current = some hook ∧ hook.path.text = textOrNull (childText node)

theorem runtimePathWhole_iff (config : Config) : RuntimePathWhole config ↔
    ∀ id ∈ config.optargContainerId, (wholeRuntimePath config.rootDir id).length ≤ 4095 := by
  unfold RuntimePathWhole runtimePathGet
  cases config.optargContainerId with
  | none => simp
  | some id =>
    simp only [Option.map_some, Option.mem_def, Option.some.injEq, forall_eq']
    rw [eq_comm]
    exact Buffer.copy_text_eq_iff

def Config.laidOut (config : Config) (path : String) : Config :=
  config.setState { config.state with
    runtimePath := Buffer.copy _ path
    commsPath := commsPath (Buffer.copy _ path)
    procsockPath := procsockPath (Buffer.copy _ path) }

theorem runtimePaths_eq (config : Config) :
    runtimePaths config = (wantedRuntimePath config).map config.laidOut := by
  unfold runtimePaths wantedRuntimePath runtimePathGet
  cases set : config.state.runtimePath.isSet with
  | true => simp [Config.laidOut]
  | false =>
    cases config.optargContainerId with
    | none => rfl
    | some id => rfl

theorem runtimeDirSetup_config {env : Env} {config : Config} {sys : Sys} {path : String}
    (wanted : wantedRuntimePath config = some path) :
    (runtimeDirSetup env ⟨config, sys⟩).state.config = config.laidOut path := by
  unfold runtimeDirSetup
  rw [runtimePaths_eq, wanted]
  rfl

theorem not_below_dirname {path : String} (long : 1 < path.toList.length) :
    Sys.below path (dirname path) = false := by
  have short := length_dirname_lt long
  by_contra above
  rw [Bool.not_eq_false, Sys.below, Bool.or_eq_true, beq_iff_eq] at above
  rcases above with same | above
  · have lengths := congrArg (fun path => path.toList.length) same
    omega
  · have long := (List.isPrefixOf_iff_prefix.mp above).length_le
    rw [String.toList_append, List.length_append] at long
    omega

/-- On a host without directories a path is not made with its parents. -/
theorem runtimeDirSetup_calm {config : Config} {path : String} (wanted : wantedRuntimePath config = some path)
    (long : 1 < path.length) : (runtimeDirSetup .calm).Succeeds ⟨config, .idle fun _ => none⟩ := by
  have kept : 1 < (Buffer.copy 4095 path).text.toList.length := by
    rw [String.length_toList, Buffer.length_copy]
    omega
  have deeper := not_below_dirname kept
  unfold Action.Succeeds runtimeDirSetup
  rw [runtimePaths_eq, wanted]
  simp only [Option.map_some, Config.laidOut, Config.setState]
  generalize Buffer.copy 4095 path = runtimePath at deeper
  simp [mkdirWithParents, mkdir, Env.calm, Host.calm, Sys.idle, Sys.tick, deeper]

theorem copy_name_iff {runtimePath name : String} {length : Nat} (counted : name.length = length) :
    (Buffer.copy 4095 (runtimePath ++ "/" ++ name)).text = runtimePath ++ "/" ++ name ↔
      runtimePath.length + 1 + length ≤ 4095 := by
  rw [Buffer.copy_text_eq_iff, String.length_append, String.length_append, counted]
  rfl

theorem setupWhole_iff (config : Config) : SetupWhole config ↔
    ∀ path ∈ wantedRuntimePath config, path.length ≤ 4079 := by
  constructor
  · intro whole path wanted
    by_contra tight
    have placed := whole .calm _ (runtimeDirSetup_calm wanted (by omega)) path wanted
    rw [runtimeDirSetup_config wanted] at placed
    obtain ⟨runtime, comms, _⟩ := placed
    change (commsPath (Buffer.copy 4095 path)).text = _ at comms
    change (Buffer.copy 4095 path).text = path at runtime
    rw [commsPath, runtime] at comms
    have room := (copy_name_iff (show hypervisorSocket.length = 15 by decide +kernel)).mp comms
    omega
  · intro fits env sys _ path wanted
    have room := fits path wanted
    have runtime : (Buffer.copy 4095 path).text = path := Buffer.copy_text_of_fits (by omega)
    rw [runtimeDirSetup_config wanted]
    refine ⟨runtime, ?_, ?_⟩
    · change (commsPath (Buffer.copy 4095 path)).text = _
      rw [commsPath, runtime]
      exact (copy_name_iff (show hypervisorSocket.length = 15 by decide +kernel)).mpr (by omega)
    · change (procsockPath (Buffer.copy 4095 path)).text = _
      rw [procsockPath, runtime]
      exact (copy_name_iff (show processSocket.length = 12 by decide +kernel)).mpr (by omega)

theorem stateFileWhole_iff (config : Config) :
    StateFileWhole config ↔ config.state.runtimePath.text.length ≤ 4084 := by
  have room : _ ↔ config.state.runtimePath.text.length + 1 + 10 ≤ 4095 :=
    copy_name_iff (show stateFileName.length = 10 by decide +kernel)
  unfold StateFileWhole stateFileGet
  cases set : config.state.runtimePath.isSet with
  | true =>
    simp only [↓reduceIte, Option.mem_def, Option.some.injEq, forall_eq']
    change (stateFilePath config.state.runtimePath).text = _ ↔ _
    rw [stateFilePath, room]
    omega
  | false =>
    have blank : config.state.runtimePath.text = "" := by simpa [Buffer.isSet] using set
    simp [blank]

theorem copy_names_ne_iff {runtimePath : PathBuffer} {first second : String}
    (differ : first.toList.head? ≠ second.toList.head?) :
    (Buffer.copy 4095 (runtimePath.text ++ "/" ++ first) ≠
        Buffer.copy 4095 (runtimePath.text ++ "/" ++ second)) ↔
      runtimePath.text.length ≤ 4093 := by
  have length : (runtimePath.text ++ "/").length = runtimePath.text.length + 1 := by
    rw [String.length_append]
    rfl
  rw [ne_eq, Buffer.copy_append_eq_iff, length]
  constructor
  · intro apart
    by_contra tight
    apply apart
    rw [show 4095 - (runtimePath.text.length + 1) = 0 by omega, List.take_zero, List.take_zero]
  · intro room same
    have heads := congrArg List.head? same
    have some_room : 4095 - (runtimePath.text.length + 1) ≠ 0 := by omega
    rw [List.head?_take, List.head?_take, if_neg some_room, if_neg some_room] at heads
    exact differ heads

theorem stateFilePath_ne_commsPath_iff (runtimePath : PathBuffer) :
    stateFilePath runtimePath ≠ commsPath runtimePath ↔ runtimePath.text.length ≤ 4093 :=
  copy_names_ne_iff (by decide +kernel)

theorem stateFilePath_ne_procsockPath_iff (runtimePath : PathBuffer) :
    stateFilePath runtimePath ≠ procsockPath runtimePath ↔ runtimePath.text.length ≤ 4093 :=
  copy_names_ne_iff (by decide +kernel)

theorem commsPath_ne_procsockPath_iff (runtimePath : PathBuffer) :
    commsPath runtimePath ≠ procsockPath runtimePath ↔ runtimePath.text.length ≤ 4093 :=
  copy_names_ne_iff (by decide +kernel)

theorem pathsDistinct_iff (runtimePath : PathBuffer) :
    PathsDistinct runtimePath ↔ runtimePath.text.length ≤ 4093 := by
  rw [PathsDistinct, stateFilePath_ne_commsPath_iff, stateFilePath_ne_procsockPath_iff,
    commsPath_ne_procsockPath_iff]
  simp only [and_self]

section Mounts
variable {env : Env} {root : PathBuffer} {dryRun : Bool} {mount : Mount} {sys : Sys}

def placedMount (root : PathBuffer) (mount : Mount) : Mount :=
  if mountIgnore mount then { mount with ignoreMount := true }
  else { mount with dest := mountDest root mount }

theorem handleMount_item : (handleMount env root dryRun mount sys).item = placedMount root mount := by
  unfold handleMount placedMount
  cases mountIgnore mount with
  | true => rfl
  | false =>
    simp only [Bool.false_eq_true, ↓reduceIte]
    split
    · rfl
    · split
      · rfl
      · split <;> rfl

theorem handleMount_sourceless (made : mountIgnore mount = false) (missing : mount.entry.fsname = none) :
    (handleMount env root dryRun mount sys).exit = .aborted := by
  simp [handleMount, made, missing]

theorem handleMount_calm (given : mountIgnore mount = true ∨ mount.entry.fsname.isSome = true) :
    (handleMount .calm root dryRun mount sys).exit = .returned true := by
  unfold handleMount
  cases ignored : mountIgnore mount with
  | true => rfl
  | false =>
    rw [ignored] at given
    obtain ⟨source, found⟩ := Option.isSome_iff_exists.mp (given.resolve_left (by decide))
    cases dryRun <;> simp [found, sourceMissing, Env.calm, Host.calm, performMount]

theorem mountIgnore_placedMount : mountIgnore (placedMount root mount) = mountIgnore mount := by
  unfold placedMount
  split <;> rfl

theorem placedMount_whole_iff (made : mountIgnore mount = false) :
    (placedMount root mount).dest.text = wholeDest root (placedMount root mount) ↔
      (wholeDest root mount).length ≤ 4095 := by
  rw [placedMount, made]
  exact Buffer.copy_text_eq_iff

end Mounts

/-- A mount that is made and has no source stops all of them. -/
theorem mountsWhole_iff (config : Config) : MountsWhole config ↔
    (∃ mount ∈ config.oci.mounts, mountIgnore mount = false ∧ mount.entry.fsname = none) ∨
      ∀ mount ∈ config.oci.mounts, mountIgnore mount = false →
        (wholeDest config.oci.root.path mount).length ≤ 4095 := by
  have items {env : Env} {sys : Sys} (ok : (handleMounts env).Succeeds ⟨config, sys⟩) :
      (handleMounts env ⟨config, sys⟩).state.config.oci.mounts =
        config.oci.mounts.map (placedMount config.oci.root.path) := by
    have each : ∀ mount sys, (handleMount env config.oci.root.path config.dryRunMode mount sys).item =
        placedMount config.oci.root.path mount := fun _ _ => handleMount_item
    exact sweep_items each ok
  constructor
  · intro whole
    by_cases sourceless : ∃ mount ∈ config.oci.mounts, mountIgnore mount = false ∧ mount.entry.fsname = none
    · exact Or.inl sourceless
    · right
      intro mount member made
      have ok : (handleMounts .calm).Succeeds ⟨config, .idle fun _ => none⟩ := by
        apply sweep_succeeds
        intro mount member sys
        apply handleMount_calm
        by_contra neither
        rw [not_or, Bool.not_eq_true, Bool.not_eq_true, Option.isSome_eq_false_iff,
          Option.isNone_iff_eq_none] at neither
        exact sourceless ⟨mount, member, neither⟩
      have placed := whole .calm _ ok (placedMount config.oci.root.path mount)
        (by rw [items ok]; exact List.mem_map_of_mem member) (by rw [mountIgnore_placedMount, made])
      exact (placedMount_whole_iff made).mp placed
  · intro fits env sys ok mount member made
    rw [items ok] at member
    obtain ⟨original, before, rfl⟩ := List.mem_map.mp member
    rw [mountIgnore_placedMount] at made
    rcases fits with ⟨sourceless, among, used, missing⟩ | fits
    · obtain ⟨sys, visited⟩ := sweep_visits ok among
      rw [handleMount_sourceless used missing] at visited
      cases visited
    · exact (placedMount_whole_iff made).mpr (fits original before made)

theorem handleHook_path {scan : Scan Hook} {node : GNode} (going : scan.error = false)
    (named : node.data = some "path") (filled : node.hasChildren = true) :
    handleHook scan node =
      let hook := scan.current.getD default
      { scan with current := some { hook with path := Buffer.copy _ (textOrNull (childText node)) } } := by
  simp [handleHook, Scan.visit, going, named, filled, fillHook]

theorem hookWhole_iff (scan : Scan Hook) (node : GNode) : HookWhole scan node ↔
    (scan.error = false → node.data = some "path" → node.hasChildren = true →
      (textOrNull (childText node)).length ≤ 4095) := by
  unfold HookWhole
  cases failed : scan.error with
  | true => simp [handleHook, Scan.visit, failed]
  | false =>
    constructor
    · intro whole _ named filled
      have found := whole named filled
      rw [handleHook_path failed named filled] at found
      obtain failing | ⟨hook, current, text⟩ := found
      · exact absurd failing (by simp [failed])
      · obtain rfl := Option.some.inj current
        exact Buffer.copy_text_eq_iff.mp text
    · intro fits named filled
      rw [handleHook_path failed named filled]
      exact Or.inr ⟨_, rfl, Buffer.copy_text_of_fits (fits rfl named filled)⟩

/-- Every composition is whole exactly if there is room for all of it, and the paths of
a container are told apart exactly if one letter fits after its directory. -/
theorem compositions_whole_iff (config : Config) (runtimePath : PathBuffer) (scan : Scan Hook) (node : GNode) :
    (RuntimePathWhole config ↔
      ∀ id ∈ config.optargContainerId, (wholeRuntimePath config.rootDir id).length ≤ 4095) ∧
    (SetupWhole config ↔ ∀ path ∈ wantedRuntimePath config, path.length ≤ 4079) ∧
    (StateFileWhole config ↔ config.state.runtimePath.text.length ≤ 4084) ∧
    (PathsDistinct runtimePath ↔ runtimePath.text.length ≤ 4093) ∧
    (MountsWhole config ↔
      (∃ mount ∈ config.oci.mounts, mountIgnore mount = false ∧ mount.entry.fsname = none) ∨
        ∀ mount ∈ config.oci.mounts, mountIgnore mount = false →
          (wholeDest config.oci.root.path mount).length ≤ 4095) ∧
    (HookWhole scan node ↔
      (scan.error = false → node.data = some "path" → node.hasChildren = true →
        (textOrNull (childText node)).length ≤ 4095)) :=
  ⟨runtimePathWhole_iff config, setupWhole_iff config, stateFileWhole_iff config,
    pathsDistinct_iff runtimePath, mountsWhole_iff config, hookWhole_iff scan node⟩

def deepRoot (depth : Nat) : String := String.ofList (List.replicate depth ['/', 'a']).flatten

theorem length_deepRoot (depth : Nat) : (deepRoot depth).length = depth * 2 := by
  rw [deepRoot, String.length_ofList, List.length_flatten, List.map_replicate,
    List.sum_replicate_nat]
  rfl

def deepConfig (depth : Nat) : Config := { rootDir := some (deepRoot depth), optargContainerId := some "abc" }

theorem deepConfig_wanted (depth : Nat) :
    wantedRuntimePath (deepConfig depth) = some (wholeRuntimePath (some (deepRoot depth)) "abc") := by
  rfl

theorem length_wholeRuntimePath (rootDir : String) :
    (wholeRuntimePath (some rootDir) "abc").length = rootDir.length + 4 := by
  rw [wholeRuntimePath, String.length_append, String.length_append]
  rfl

/-- The directory is made, but the state file and the sockets get the same path. -/
theorem deepConfig_paths :
    let world : World := ⟨deepConfig 2045, .idle fun _ => none⟩
    let state := (runtimeDirSetup .calm world).state.config.state
    (runtimeDirSetup .calm).Succeeds world ∧ ¬ SetupWhole world.config ∧
      stateFilePath state.runtimePath = state.commsPath ∧ state.commsPath = state.procsockPath := by
  have wanted := deepConfig_wanted 2045
  have long := length_wholeRuntimePath (deepRoot 2045)
  rw [length_deepRoot] at long
  generalize wholeRuntimePath (some (deepRoot 2045)) "abc" = path at wanted long
  have runtime : ¬ (Buffer.copy 4095 path).text.length ≤ 4093 := by
    rw [Buffer.length_copy]
    omega
  intro world state
  have placed : state = ((deepConfig 2045).laidOut path).state :=
    congrArg Config.state (runtimeDirSetup_config wanted)
  refine ⟨runtimeDirSetup_calm wanted (by omega), fun whole => ?_, ?_, ?_⟩
  · have room := (setupWhole_iff _).mp whole path wanted
    omega
  · rw [placed]
    exact not_not.mp fun apart => runtime ((stateFilePath_ne_commsPath_iff _).mp apart)
  · rw [placed]
    exact not_not.mp fun apart => runtime ((commsPath_ne_procsockPath_iff _).mp apart)

end ClrOci
