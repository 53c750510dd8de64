import ClrOci.ConfigSafety
import ClrOci.MemberOrder
import ClrOci.Foundation.LastWrite

/-! What of a document decides the parts of the configuration that a creation looks at: the version, the
VM, the root path and the arguments of the process.
-/

set_option autoImplicit false

namespace ClrOci

open Foundation

def membersNamed (name : String) (root : GNode) : List GNode :=
  root.children.filter fun node => node.data == some name

def versionGiven (root : GNode) (version : Option String) : Option String :=
  (membersNamed KnownMember.ociVersion.name root).foldl (fun _ node => childText node) version

def vmAfter (host : Host) (vm : Option VmConfig) (node : GNode) : Option VmConfig :=
  let found := node.children.foldl (handleVmSection host) (vm.getD {})
  if vmComplete host found then some found else none

def vmGiven (host : Host) (root : GNode) (vm : Option VmConfig) : Option VmConfig :=
  (membersNamed SpecHandler.vm.name root).foldl (vmAfter host) vm

def vmFile (env : Env) (host : Host) : String :=
  let inSysconf := buildPath [env.sysconfdir, vmConfigFile]
  if (host.stat inSysconf).isSome then inSysconf else buildPath [env.defaultsdir, vmConfigFile]

/-- The VM of the document, or else that of the first VM section in the file of the system. -/
def vmFound (env : Env) (host : Host) (files : Files) (root : GNode) (vm : Option VmConfig) :
    Option VmConfig :=
  match vmGiven host root vm with
  | some vm => some vm
  | none => (vmNode? files (vmFile env host)).bind (vmAfter host none)

def rootGiven (host : Host) (root : GNode) (before : Root) : Root :=
  (membersNamed SpecHandler.root.name root).foldl
    (fun found node => node.children.foldl (handleRootSection host) found) before

def isArgs (node : GNode) : Bool := node.hasChildren && node.data == some "args"

def GivesArgs (root : GNode) : Prop :=
  ∃ node ∈ root.children, node.data = some SpecHandler.process.name ∧
    ∃ member ∈ node.children, isArgs member = true

theorem vmAfter_complete {host : Host} {vm : Option VmConfig} {node : GNode} :
    (vmAfter host vm node).all (vmComplete host) = true := by
  unfold vmAfter
  dsimp only
  split
  · next complete => exact complete
  · rfl

theorem vmFound_complete (env : Env) (host : Host) (files : Files) (root : GNode) :
    (vmFound env host files root none).all (vmComplete host) = true := by
  unfold vmFound
  cases given : vmGiven host root none with
  | some vm =>
    have each : ∀ (vm : Option VmConfig) (node : GNode), vm.all (vmComplete host) = true →
        (vmAfter host vm node).all (vmComplete host) = true := fun _ _ _ => vmAfter_complete
    have complete := @foldl_kept _ _ _ (fun vm : Option VmConfig => vm.all (vmComplete host) = true) each
      (membersNamed SpecHandler.vm.name root) none rfl
    rwa [← vmGiven, given] at complete
  | none =>
    cases vmNode? files (vmFile env host) with
    | none => rfl
    | some node => exact vmAfter_complete

section Parts
variable {host : Host} {node : GNode} {before after : Parse}

-- A member that is not for a part leaves the part alone.
theorem processConfigStart_other (member : KnownMember) (other : node.data ≠ some member.name)
    (run : processConfigStart host before node = some after) :
    member.slot.get after.parsed = member.slot.get before.parsed := by
  rcases processConfigStart_parsed host node with nothing | ⟨member', named, update, same⟩
  · have kept := nothing before
    rw [run, Option.map_some, Option.some_inj] at kept
    rw [kept]
  · have apart : member ≠ member' := by
      rintro rfl
      exact other named
    have step := same before
    rw [run, Option.map_some] at step
    obtain ⟨value, -, put⟩ := Option.map_eq_some_iff.mp step.symm
    rw [← put]
    exact (KnownMember.slot_apart apart).getFirst _ _

theorem processConfigStart_handled (handler : SpecHandler) (named : node.data = some handler.name)
    (run : processConfigStart host before node = some after) :
    ∃ value, handler.update host node ((KnownMember.handled handler).slot.get before.parsed) = some value ∧
      (KnownMember.handled handler).slot.put before.parsed value = after.parsed := by
  have dispatched : processConfigStart host before node = dispatch startSpecHandlers host node before := by
    have version : handler.name ≠ "ociVersion" := by cases handler <;> decide
    have hostname : handler.name ≠ "hostname" := by cases handler <;> decide
    simp only [processConfigStart, named, version, hostname, ↓reduceIte]
  have found : startSpecHandlers.find? (fun other => some other.name == node.data) = some handler := by
    rw [named]
    cases handler <;> decide
  have step : (processConfigStart host before node).map Parse.parsed =
      (handler.update host node ((KnownMember.handled handler).slot.get before.parsed)).map
        ((KnownMember.handled handler).slot.put before.parsed) := by
    rw [dispatched, dispatch_parsed, found]
    exact handler.handleSection_parsed host node before
  rw [run, Option.map_some] at step
  exact Option.map_eq_some_iff.mp step.symm

theorem version_step (run : processConfigStart host before node = some after) :
    after.config.oci.ociVersion = if node.data == some KnownMember.ociVersion.name then childText node
      else before.config.oci.ociVersion := by
  by_cases named : node.data = some KnownMember.ociVersion.name
  · have text : (processConfigStart host before node) =
        node.childData?.map fun version =>
          before.setOci { before.config.oci with ociVersion := version } := by
      simp only [processConfigStart, named, KnownMember.name, ↓reduceIte]
      cases node.childData? with
      | none => rfl
      | some version => rfl
    rw [text, Option.map_eq_some_iff] at run
    obtain ⟨version, child, rfl⟩ := run
    rw [named, beq_self_eq_true, if_pos rfl, childText, child]
    rfl
  · rw [if_neg (by simpa using named)]
    exact processConfigStart_other .ociVersion named run

theorem vm_step (run : processConfigStart host before node = some after) :
    after.config.vm = if node.data == some SpecHandler.vm.name then vmAfter host before.config.vm node
      else before.config.vm := by
  by_cases named : node.data = some SpecHandler.vm.name
  · obtain ⟨value, made, put⟩ := processConfigStart_handled .vm named run
    have same : after.config.vm = value := congrArg (fun parsed => parsed.config.vm) put.symm
    have update : SpecHandler.vm.update host node before.config.vm =
        some (vmAfter host before.config.vm node) := by
      simp only [SpecHandler.update, vmAfter]
      split
      · rfl
      · rfl
    rw [named, beq_self_eq_true, if_pos rfl, same]
    exact Option.some.inj (made.symm.trans update)
  · rw [if_neg (by simpa using named)]
    exact processConfigStart_other (.handled .vm) named run

theorem root_step (run : processConfigStart host before node = some after) :
    after.config.oci.root = if node.data == some SpecHandler.root.name then
      node.children.foldl (handleRootSection host) before.config.oci.root
      else before.config.oci.root := by
  by_cases named : node.data = some SpecHandler.root.name
  · obtain ⟨value, made, put⟩ := processConfigStart_handled .root named run
    have same : after.config.oci.root = value := congrArg (fun parsed => parsed.config.oci.root) put.symm
    rw [named, beq_self_eq_true, if_pos rfl, same]
    exact (Option.some.inj made).symm
  · rw [if_neg (by simpa using named)]
    exact processConfigStart_other (.handled .root) named run

theorem handleProcessSection_args {process process' : Process} {member : GNode}
    (run : handleProcessSection process member = some process') :
    process'.args.isSome = (process.args.isSome || isArgs member) := by
  unfold handleProcessSection at run
  unfold isArgs
  split at run
  · next childless =>
    cases run
    simp only [Bool.not_eq_true'] at childless
    rw [childless, Bool.false_and, Bool.or_false]
  · next valued =>
    simp only [Bool.not_eq_true', Bool.not_eq_false] at valued
    rw [valued, Bool.true_and]
    split at run
    · next named =>
      cases run
      rw [named]
      exact (Bool.or_false _).symm
    · split at run
      · next named =>
        cases run
        rw [named]
        exact (Bool.or_true _).symm
      · next other =>
        rw [beq_eq_false_iff_ne.mpr other, Bool.or_false]
        split at run
        · cases run
          rfl
        · split at run
          · cases run
            rfl
          · split at run
            · obtain ⟨user, -, rfl⟩ := Option.map_eq_some_iff.mp run
              rfl
            · cases run
              rfl

theorem foldl_or {A : Type} (wanted : A → Bool) (items : List A) (start : Bool) :
    items.foldl (fun found item => found || wanted item) start = (start || items.any wanted) := by
  induction items generalizing start with
  | nil => exact (Bool.or_false start).symm
  | cons item items ih => rw [List.foldl_cons, ih, List.any_cons, Bool.or_assoc]

theorem args_step (run : processConfigStart host before node = some after) :
    after.config.oci.process.args.isSome = if node.data == some SpecHandler.process.name then
      before.config.oci.process.args.isSome || node.children.any isArgs
      else before.config.oci.process.args.isSome := by
  by_cases named : node.data = some SpecHandler.process.name
  · obtain ⟨value, made, put⟩ := processConfigStart_handled .process named run
    have same : after.config.oci.process = value :=
      congrArg (fun parsed => parsed.config.oci.process) put.symm
    have members : node.children.foldlM handleProcessSection before.config.oci.process = some value := made
    have each := @foldlM_filter _ _ _ (fun process : Process => process.args.isSome)
      handleProcessSection (fun _ => true) (fun found member => found || isArgs member) _
      (fun member _ process process' ran => handleProcessSection_args ran) _ _ members
    rw [List.filter_true, foldl_or] at each
    rw [named, beq_self_eq_true, if_pos rfl, same, each]
  · rw [if_neg (by simpa using named)]
    have kept := processConfigStart_other (.handled .process) named run
    exact congrArg (fun process : Process => process.args.isSome) kept

def Host.reading (host : Host) : Host :=
  { Host.calm with chdir := host.chdir, realpath := host.realpath, stat := host.stat }

theorem handleSection_reading (host : Host) (node : GNode) (parse : Parse) (handler : SpecHandler) :
    handler.handleSection host.reading node parse = handler.handleSection host node parse := by
  cases handler <;> rfl

theorem processConfigStart_reading (host : Host) :
    processConfigStart host.reading = processConfigStart host := rfl

section Saved
variable {A : Type} [Inhabited A] {complete : A → Bool} {fill : String → GNode → A → Option A}
  {scan : Scan A}

omit [Inhabited A] in
theorem Scan.save_complete (whole : ∀ item ∈ scan.saved, complete item = true) :
    ∀ item ∈ (scan.save complete).saved, complete item = true := by
  unfold Scan.save
  split
  · exact whole
  · next item current =>
    split
    · next done =>
      intro other member
      rcases List.mem_append.mp member with earlier | last
      · exact whole other earlier
      · rwa [List.mem_singleton.mp last]
    · exact whole

theorem Scan.visit_complete (whole : ∀ item ∈ scan.saved, complete item = true) (node : GNode) :
    ∀ item ∈ (scan.visit complete fill node).saved, complete item = true := by
  unfold Scan.visit
  split
  · exact whole
  · split
    · exact Scan.save_complete whole
    · split
      · split
        · exact whole
        · exact whole
      · exact whole

end Saved

theorem mounts_step (run : processConfigStart host before node = some after)
    (sourced : ∀ mount ∈ before.config.oci.mounts, mount.entry.fsname.isSome) :
    ∀ mount ∈ after.config.oci.mounts, mount.entry.fsname.isSome := by
  by_cases named : node.data = some SpecHandler.mounts.name
  · obtain ⟨(value : List Mount × Option Mount), made, put⟩ := processConfigStart_handled .mounts named run
    have same : after.config.oci.mounts = value.1 :=
      congrArg (fun parsed => parsed.config.oci.mounts) put.symm
    rw [same]
    by_cases there : before.config.oci.mounts = []
    · have scanned : ∀ mount ∈ (node.children.foldl handleMountsSection
          ⟨before.statics.currentMount, false, []⟩).saved, mountComplete mount = true := by
        have each : ∀ (scan : Scan Mount) (node : GNode),
            (∀ mount ∈ scan.saved, mountComplete mount = true) →
              ∀ mount ∈ (handleMountsSection scan node).saved, mountComplete mount = true :=
          fun scan node whole => Scan.visit_complete whole node
        exact foldl_kept each node.children fun mount member => absurd member List.not_mem_nil
      have update := made
      simp only [SpecHandler.update, KnownMember.slot, Parse.parsed, there, ne_eq, not_true_eq_false,
        ↓reduceIte] at update
      rw [← Option.some.inj update]
      intro mount member
      have complete : mountComplete mount = true := by
        dsimp only at member
        split at member
        · exact scanned mount member
        · exact Scan.save_complete scanned mount member
      simp only [mountComplete, Bool.and_eq_true] at complete
      exact complete.2
    · have update := made
      simp only [SpecHandler.update, KnownMember.slot, Parse.parsed, there, ne_eq, not_false_eq_true,
        ↓reduceIte] at update
      rw [← Option.some.inj update]
      exact sourced
  · have kept := congrArg Prod.fst (processConfigStart_other (.handled .mounts) named run)
    have same : after.config.oci.mounts = before.config.oci.mounts := kept
    rw [same]
    exact sourced

end Parts

section Document
variable {host : Host} {root : GNode} {config : Config} {parse : Parse}
  (run : parseSections host root config = some parse)
include run

theorem parseSections_part {B : Type} (part : Parse → B) (name : String) (own : B → GNode → B)
    (writes : ∀ node before after, processConfigStart host before node = some after →
      part after = if node.data == some name then own (part before) node else part before) :
    part parse = (membersNamed name root).foldl own (part { config := config }) :=
  foldlM_filter (fun node _ => writes node) run

theorem parseSections_parts :
    parse.config.oci.ociVersion = versionGiven root config.oci.ociVersion ∧
      parse.config.vm = vmGiven host root config.vm ∧
      parse.config.oci.root = rootGiven host root config.oci.root ∧
      (parse.config.oci.process.args.isSome ↔ config.oci.process.args.isSome ∨ GivesArgs root) := by
  refine ⟨?_, ?_, ?_, ?_⟩
  · exact parseSections_part run (fun parse => parse.config.oci.ociVersion) _ _
      fun _ _ _ step => version_step step
  · exact parseSections_part run (fun parse => parse.config.vm) _ _ fun _ _ _ step => vm_step step
  · exact parseSections_part run (fun parse => parse.config.oci.root) _ _
      fun _ _ _ step => root_step step
  · have each := parseSections_part run (fun parse => parse.config.oci.process.args.isSome) _
      (fun found node => found || node.children.any isArgs) fun _ _ _ step => args_step step
    rw [each, foldl_or, membersNamed]
    simp [GivesArgs, List.any_filter]

theorem parseSections_mounts (none : config.oci.mounts = []) :
    ∀ mount ∈ parse.config.oci.mounts, mount.entry.fsname.isSome := by
  refine foldlM_keeps (fun parse : Parse => ∀ mount ∈ parse.config.oci.mounts, mount.entry.fsname.isSome)
    ?_ run ?_
  · exact fun before node after step sourced => mounts_step step sourced
  · rw [none]
    exact fun mount member => absurd member List.not_mem_nil

theorem getSpecVmFromCfgFile_found (env : Env) (files : Files) :
    let found := vmFound env host files root config.vm
    (getSpecVmFromCfgFile env host files parse).1 = found.isSome ∧
      (getSpecVmFromCfgFile env host files parse).2.config = { parse.config with vm := found } := by
  have given : parse.config.vm = vmGiven host root config.vm := (parseSections_parts run).2.1
  rw [getSpecVmFromCfgFile_eq, vmFound, ← given]
  cases left : parse.config.vm with
  | some vm =>
    have same : parse.config = { parse.config with vm := some vm } := by rw [← left]
    exact ⟨rfl, same⟩
  | none =>
    have same : parse.config = { parse.config with vm := none } := by rw [← left]
    simp only [Option.isSome_none, Bool.false_eq_true, ↓reduceIte, vmFile]
    cases vmNode? files (if (host.stat (buildPath [env.sysconfdir, vmConfigFile])).isSome then
        buildPath [env.sysconfdir, vmConfigFile] else buildPath [env.defaultsdir, vmConfigFile]) with
    | none => exact ⟨rfl, same⟩
    | some node =>
      simp only [Option.bind_some, vmAfter, vmHandleSection, left]
      split
      · exact ⟨rfl, rfl⟩
      · exact ⟨rfl, rfl⟩

end Document

end ClrOci
