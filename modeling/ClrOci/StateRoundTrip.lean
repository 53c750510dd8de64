import ClrOci.State

/-! Reading back what was written.

The reader rebuilds the members of the document section by section. One lemma for
each kind of section says what its handler makes of what the writer put there.
-/

set_option autoImplicit false

namespace ClrOci

open Foundation

namespace Reading

def counted (reading : Reading) (handler : Section) (count : Nat)
    (update : OciState → OciState) : Reading :=
  ⟨update reading.state, Function.update reading.counts handler (reading.counts handler + count)⟩

theorem visit_of_handled {handler : Section} {reading : Reading} {node : GNode} {count : Nat}
    {update : OciState → OciState}
    (handled : handler.handle node reading.state = (update reading.state, count)) :
    reading.visit handler node = reading.counted handler count update := by
  rw [visit, handled]
  rfl

theorem counted_counted (reading : Reading) (handler : Section) (first second : Nat)
    (before after : OciState → OciState) :
    (reading.counted handler first before).counted handler second after =
      reading.counted handler (first + second) fun state => after (before state) := by
  simp only [counted, Function.update_self, Function.update_idem, Nat.add_assoc]

theorem foreach_nil (handler : Section) (reading : Reading) :
    reading.foreach handler [] = reading := rfl

theorem foreach_cons {handler : Section} {reading : Reading} {node : GNode} {rest : List GNode}
    (count : Nat) (update : OciState → OciState)
    (handled : handler.handle node reading.state = (update reading.state, count)) :
    reading.foreach handler (node :: rest) =
      (reading.counted handler count update).foreach handler rest := by
  rw [foreach, List.foldl_cons, visit_of_handled handled]
  rfl

theorem counted_nothing (reading : Reading) (handler : Section) :
    reading.counted handler 0 id = reading := by
  simp only [counted, Nat.add_zero, Function.update_eq_self, id]

theorem foreach_separator {handler : Section} {rest : List GNode} {reading : Reading}
    (ignored : handler.handle GNode.separator reading.state = (reading.state, 0)) :
    reading.foreach handler (GNode.separator :: rest) = reading.foreach handler rest := by
  rw [foreach_cons 0 id ignored, counted_nothing]

end Reading

section Sections
variable (reading : Reading)

theorem foreach_string (handler : Section) (text : String) (update : OciState → OciState)
    (handled : handler.handle (scalarNode (.string text) false) reading.state =
      (update reading.state, 1)) :
    reading.foreach handler (jsonParseAux (.string text) false) =
      reading.counted handler 1 update := by
  rw [jsonParseAux, Reading.foreach_cons 1 update handled, Reading.foreach_nil]

theorem foreach_pid (pid : GPid) :
    reading.foreach .pid (jsonParseAux (.int pid.toUInt32.toNat) false) =
      reading.counted .pid 1 fun state => { state with pid := pid } := by
  have read : strtoll (jsonString (.int pid.toUInt32.toNat)) = some (pid.toUInt32.toNat : Int) :=
    strtoll_repr (toUInt32_le pid)
  have handled : Section.pid.handle (scalarNode (.int pid.toUInt32.toNat) false) reading.state =
      ({ reading.state with pid := pid }, 1) := by
    simp only [Section.handle, handleStatePidSection, scalarNode, GNode.data_node, read,
      ofInt_toUInt32]
  rw [jsonParseAux, Reading.foreach_cons 1 (fun state => { state with pid := pid }) handled,
    Reading.foreach_nil]

theorem foreach_mounts (dests : List String) :
    reading.foreach .mounts (jsonParseAux (.array (dests.map Json.string)) false) =
      reading.counted .mounts 0 fun state =>
        { state with mounts := state.mounts ++ dests.map mountOfDest } := by
  rw [jsonParseAux, jsonParseElements_strings]
  induction dests generalizing reading with
  | nil =>
    have unchanged : (fun state : OciState => { state with mounts := state.mounts ++ [] }) = id := by
      funext state
      simp only [List.append_nil, id]
    rw [List.map_nil, List.map_nil, unchanged, Reading.counted_nothing, Reading.foreach_nil]
  | cons dest rest ih =>
    rw [List.map_cons, Reading.foreach_cons 0
      (fun state => { state with mounts := state.mounts ++ [mountOfDest dest] }) rfl, ih,
      Reading.counted_counted]
    simp only [List.append_assoc, List.singleton_append, List.map_cons]

def recallNodes (nodes : List GNode) (annotations : List Annotation) : List Annotation :=
  nodes.foldl (fun seen node => handleStateAnnotationsSection node seen) annotations

def recallAnnotations (members : List (String × Json)) : List Annotation :=
  recallNodes (jsonParseMembers members) []

theorem foreach_annotation_nodes (nodes : List GNode) :
    reading.foreach .annotations nodes = reading.counted .annotations 0 fun state =>
      { state with annotations := recallNodes nodes state.annotations } := by
  induction nodes generalizing reading with
  | nil => exact (reading.counted_nothing .annotations).symm
  | cons node rest ih =>
    rw [Reading.foreach_cons 0 (fun state =>
      { state with annotations := handleStateAnnotationsSection node state.annotations }) rfl, ih,
      Reading.counted_counted]
    rfl

theorem foreach_annotations (members : List (String × Json))
    (fresh : reading.state.annotations = []) :
    reading.foreach .annotations (jsonParseAux (.object members) false) =
      reading.counted .annotations 0 fun state =>
        { state with annotations := recallAnnotations members } := by
  rw [jsonParseAux, Reading.foreach_separator rfl, foreach_annotation_nodes]
  simp only [Reading.counted, fresh, recallAnnotations]

-- Without a console path the member is null, and only the socket flag is counted.
theorem foreach_console (config : Config) (fresh : reading.state.console = none) :
    reading.foreach .console (jsonParseAux (consoleJson config) false) =
      reading.counted .console (if config.console.isSome then 2 else 1) fun state =>
        { state with useSocketConsole := config.useSocketConsole, console := config.console } := by
  have socket : Section.console.handle
      (.node (some "socket") (jsonParseAux (.bool config.useSocketConsole) false)) reading.state =
      ({ reading.state with useSocketConsole := config.useSocketConsole }, 1) := by
    rw [jsonParseAux]
    cases config.useSocketConsole <;> rfl
  rw [consoleJson, jsonParseAux, Reading.foreach_separator rfl, jsonParseMembers, jsonParseMembers,
    jsonParseMembers, Reading.foreach_cons 1 (fun state =>
      { state with useSocketConsole := config.useSocketConsole }) socket]
  cases config.console with
  | none =>
    rw [Json.ofString?, jsonParseAux, Reading.foreach_cons 0 id rfl, Reading.foreach_nil,
      Reading.counted_counted]
    simp only [Reading.counted, id, Option.isSome_none, Bool.false_eq_true, ↓reduceIte, Nat.add_zero]
    rw [← fresh]
  | some console =>
    rw [Json.ofString?, jsonParseAux, Reading.foreach_cons 1
      (fun state => { state with console := some console }) rfl,
      Reading.foreach_nil, Reading.counted_counted]
    rfl

theorem foreach_vm (vm : VmConfig) (fresh : reading.state.vm = some {}) :
    reading.foreach .vm (jsonParseAux (vmJson vm) false) =
      reading.counted .vm 5 fun state =>
        { state with vm := some { vm with kernelParams := some (vm.kernelParams.getD "") } } := by
  have ignored : Section.vm.handle GNode.separator reading.state = (reading.state, 0) := rfl
  simp only [vmJson, jsonParseAux, jsonParseMembers, scalarNode, jsonString, Bool.false_eq_true,
    ↓reduceIte]
  rw [Reading.foreach_separator ignored]
  simp [Reading.foreach, Reading.visit, Section.handle, handleStateVmSection, memberText, fresh,
    GNode.childData?, Reading.counted]

end Sections

def Reading.member (reading : Reading) (entry : Section × Json) : Reading :=
  reading.foreach entry.1 (jsonParseAux entry.2 false)

theorem handleStateSections_members (entries : List (Section × Json)) (reading : Reading) :
    (jsonParseMembers (entries.map fun entry => (entry.1.name, entry.2))).foldl
        handleStateSections reading = entries.foldl Reading.member reading := by
  induction entries generalizing reading with
  | nil => rw [List.map_nil, jsonParseMembers]; rfl
  | cons entry rest ih =>
    rw [List.map_cons, jsonParseMembers, List.foldl_cons, handleStateSections_name, ih]
    rfl

section Document
variable (config : Config) (inputs : StateInputs) (status : String)

def stateEntries : List (Section × Json) :=
  [(.ociVersion, .string supportedSpecVersion), (.id, .string inputs.id),
    (.pid, .int config.state.workloadPid.toUInt32.toNat), (.bundlePath, .string inputs.bundlePath),
    (.commsPath, .string config.state.commsPath.text),
    (.processPath, .string config.state.procsockPath.text), (.status, .string status),
    (.created, .string inputs.created), (.mounts, mountsToJson config.oci.mounts),
    (.console, consoleJson config), (.vm, vmJson inputs.vm)]

def annotationEntries : List (Section × Json) :=
  if config.oci.annotations.isEmpty then []
  else [(.annotations, .object (annotationsToJson config.oci.annotations))]

theorem stateJson_eq_entries :
    stateJson config inputs.vm inputs.id inputs.bundlePath status inputs.created =
      .object ((stateEntries config inputs status ++ annotationEntries config).map
        fun entry => (entry.1.name, entry.2)) := by
  unfold stateJson annotationEntries
  split <;> rfl

def recalled : OciState where
  ociVersion := some supportedSpecVersion
  id := some inputs.id
  pid := config.state.workloadPid
  bundlePath := some inputs.bundlePath
  commsPath := some config.state.commsPath.text
  procsockPath := some config.state.procsockPath.text
  status := config.state.status
  createTime := some inputs.created
  mounts := (recordedDests config.oci.mounts).map mountOfDest
  annotations := recallAnnotations (annotationsToJson config.oci.annotations)
  console := config.console
  useSocketConsole := config.useSocketConsole
  vm := some { inputs.vm with kernelParams := some (inputs.vm.kernelParams.getD "") }

def recalledCounts (hasConsole : Bool) : Section → Nat :=
  if hasConsole then Section.needed else Function.update Section.needed .console 1

theorem foldl_stateEntries {config : Config} {inputs : StateInputs} {status : String}
    (named : config.state.status.toStr = some status) :
    (stateEntries config inputs status).foldl Reading.member Reading.start =
      ⟨{ recalled config inputs with annotations := [] }, recalledCounts config.console.isSome⟩ := by
  simp only [stateEntries, List.foldl_cons, List.foldl_nil, Reading.member]
  rw [foreach_string _ .ociVersion supportedSpecVersion
      (fun state => { state with ociVersion := some supportedSpecVersion }) rfl,
    foreach_string _ .id inputs.id (fun state => { state with id := some inputs.id }) rfl,
    foreach_pid,
    foreach_string _ .bundlePath inputs.bundlePath
      (fun state => { state with bundlePath := some inputs.bundlePath }) rfl,
    foreach_string _ .commsPath config.state.commsPath.text
      (fun state => { state with commsPath := some config.state.commsPath.text }) rfl,
    foreach_string _ .processPath config.state.procsockPath.text
      (fun state => { state with procsockPath := some config.state.procsockPath.text }) rfl,
    foreach_string _ .status status (fun state => { state with status := Status.ofStr status }) rfl,
    foreach_string _ .created inputs.created
      (fun state => { state with createTime := some inputs.created }) rfl,
    mountsToJson, foreach_mounts, foreach_console _ _ rfl, foreach_vm _ _ rfl,
    Status.ofStr_of_toStr named]
  refine congrArg₂ Reading.mk rfl ?_
  funext handler
  cases config.console <;> cases handler <;> rfl

theorem foldl_annotationEntries (config : Config) {reading : Reading}
    (fresh : reading.state.annotations = []) :
    (annotationEntries config).foldl Reading.member reading =
      reading.counted .annotations 0 fun state =>
        { state with annotations := recallAnnotations (annotationsToJson config.oci.annotations) } := by
  unfold annotationEntries
  split
  · next none =>
    have unchanged : recallAnnotations (annotationsToJson config.oci.annotations) = [] := by
      rw [List.isEmpty_iff.mp none]
      rfl
    simp only [List.foldl_nil, Reading.counted, unchanged, ← fresh, Nat.add_zero,
      Function.update_eq_self]
  · exact foreach_annotations reading _ fresh

/-- The reader accepts the document exactly if there is a console, and recovers every
member; of a mount it keeps the destination, and of the annotations those with a value. -/
theorem stateFileRead_stateJson {config : Config} {inputs : StateInputs} {status path : String}
    {files : Files} (named : config.state.status.toStr = some status) (set : path ≠ "")
    (held : files path = some (.json
      (stateJson config inputs.vm inputs.id inputs.bundlePath status inputs.created))) :
    stateFileRead files path =
      if config.console.isSome then some (recalled config inputs) else none := by
  have parsed : jsonParseFile files path = some (jsonParse path
      (stateJson config inputs.vm inputs.id inputs.bundlePath status inputs.created)) := by
    simp only [jsonParseFile, held, set, ↓reduceIte]
  have read : (jsonParse path (stateJson config inputs.vm inputs.id inputs.bundlePath status
      inputs.created)).children.foldl handleStateSections Reading.start =
      ⟨recalled config inputs, recalledCounts config.console.isSome⟩ := by
    rw [jsonParse, GNode.children_node, stateJson_eq_entries, jsonParseAux, List.foldl_cons,
      handleStateSections_separator, handleStateSections_members, List.foldl_append,
      foldl_stateEntries named, foldl_annotationEntries config rfl]
    simp only [Reading.counted, Nat.add_zero, Function.update_eq_self]
    rfl
  have complete : Reading.complete ⟨recalled config inputs, recalledCounts config.console.isSome⟩ =
      config.console.isSome := by
    cases config.console <;> rfl
  rw [stateFileRead, parsed]
  simp only [read, complete]

end Document

section Annotations
variable {annotations : List Annotation}

theorem annotationsToJson_of_distinct (distinct : (annotations.map Annotation.key).Nodup) :
    annotationsToJson annotations =
      annotations.map fun note => (note.key, Json.ofString? note.value) := by
  have step : ∀ (later : List Annotation) (members : List (String × Json)),
      (members.map Prod.fst ++ later.map Annotation.key).Nodup →
      later.foldl (fun members note =>
        Json.setMember members note.key (Json.ofString? note.value)) members =
        members ++ later.map fun note => (note.key, Json.ofString? note.value) := by
    intro later
    induction later with
    | nil => exact fun members _ => (List.append_nil members).symm
    | cons note rest ih =>
      intro members distinct
      have fresh : ∀ member ∈ members, member.1 ≠ note.key := by
        intro member found same
        have apart := (List.nodup_append.mp distinct).2.2 member.1 (List.mem_map_of_mem found)
          note.key (by simp)
        exact apart same
      rw [List.foldl_cons, Json.setMember_of_fresh fresh, ih, List.append_assoc]
      · rfl
      · simpa using distinct
  exact step annotations [] (by simpa using distinct)

-- A key with a null value has no child, so the reader passes over it.
theorem handleStateAnnotationsSection_member (note : Annotation) (seen : List Annotation) :
    handleStateAnnotationsSection
        (.node (some note.key) (jsonParseAux (Json.ofString? note.value) false)) seen =
      if note.value.isSome then note :: seen else seen := by
  rcases note with ⟨key, none | value⟩
  · rw [Json.ofString?, jsonParseAux]
    rfl
  · rw [Json.ofString?, jsonParseAux]
    rfl

theorem recallAnnotations_of_distinct (distinct : (annotations.map Annotation.key).Nodup) :
    recallAnnotations (annotationsToJson annotations) =
      (annotations.filter fun note => note.value.isSome).reverse := by
  have step : ∀ (later seen : List Annotation),
      recallNodes (later.map fun note => .node (some note.key)
        (jsonParseAux (Json.ofString? note.value) false)) seen =
        (later.filter fun note => note.value.isSome).reverse ++ seen := by
    intro later
    induction later with
    | nil => exact fun _ => rfl
    | cons note rest ih =>
      intro seen
      rw [List.map_cons, recallNodes, List.foldl_cons, handleStateAnnotationsSection_member]
      cases valued : note.value.isSome with
      | true => simpa [valued, recallNodes] using ih (note :: seen)
      | false => simpa [valued, recallNodes] using ih seen
  rw [annotationsToJson_of_distinct distinct, recallAnnotations, jsonParseMembers_map, step,
    List.append_nil]

end Annotations

def writeThenRead (env : Env) (created : Option String) (world : World) : Option OciState :=
  let after := (stateFileCreate env created world).state
  stateFileRead after.sys.files after.config.state.stateFilePath.text

theorem writeThenRead_eq {env : Env} {created : Option String} {world : World}
    {inputs : StateInputs} (given : stateInputs world.config created = some inputs)
    (ok : (stateFileCreate env created).Succeeds world) :
    writeThenRead env created world =
      if world.config.console.isSome then some (recalled world.config inputs) else none := by
  obtain ⟨others, status, also, named, after⟩ := stateFileCreate_state ok
  cases Option.some.inj (given.symm.trans also)
  have set := (stateInputs_eq_some_iff.mp given).2.2.2.2.1
  rw [writeThenRead, after]
  exact stateFileRead_stateJson named (stateFilePath_ne_empty set)
    (Sys.written_files_self world.sys.tick _ _)

/-- The state read back says of the container what the configuration said. -/
structure Recovers (config : Config) (created : Option String) (state : OciState) : Prop where
  id : state.id = config.optargContainerId
  pid : state.pid = config.state.workloadPid
  bundlePath : state.bundlePath = config.bundlePath
  commsPath : state.commsPath = some config.state.commsPath.text
  procsockPath : state.procsockPath = some config.state.procsockPath.text
  status : state.status = config.state.status
  createTime : state.createTime = created
  console : state.console = config.console
  useSocketConsole : state.useSocketConsole = config.useSocketConsole
  vm : state.vm = config.vm
  mounts : state.mounts.map (fun mount => mount.dest.text) = recordedDests config.oci.mounts
  annotations : ∀ note, note ∈ state.annotations ↔ note ∈ config.oci.annotations

theorem recovers_recalled_iff {config : Config} {created : Option String} {inputs : StateInputs}
    (given : stateInputs config created = some inputs)
    (distinct : (config.oci.annotations.map Annotation.key).Nodup) :
    Recovers config created (recalled config inputs) ↔
      (∀ note ∈ config.oci.annotations, note.value ≠ none) ∧
        inputs.vm.kernelParams ≠ none := by
  obtain ⟨time, id, -, bundle, -, -, -, vm⟩ := stateInputs_eq_some_iff.mp given
  have kept : ∀ note, note ∈ (recalled config inputs).annotations ↔
      note ∈ config.oci.annotations ∧ note.value.isSome = true := by
    intro note
    rw [recalled, recallAnnotations_of_distinct distinct, List.mem_reverse, List.mem_filter]
  have params : (recalled config inputs).vm = config.vm ↔ inputs.vm.kernelParams ≠ none := by
    rw [vm, recalled, Option.some.injEq]
    cases inputs.vm with
    | mk hypervisor image kernel workload params => cases params <;> simp
  constructor
  · intro recovers
    refine ⟨fun note member => ?_, params.mp recovers.vm⟩
    have found := (kept note).mp ((recovers.annotations note).mpr member)
    exact Option.isSome_iff_ne_none.mp found.2
  · rintro ⟨valued, present⟩
    exact {
      id := id.symm
      pid := rfl
      bundlePath := bundle.symm
      commsPath := rfl
      procsockPath := rfl
      status := rfl
      createTime := time.symm
      console := rfl
      useSocketConsole := rfl
      vm := params.mpr present
      mounts := map_dest_mountOfDest config.oci.mounts
      annotations := fun note => (kept note).trans
        ⟨And.left, fun member => ⟨member, Option.isSome_iff_ne_none.mpr (valued note member)⟩⟩ }

/-- The state file gives back everything that was put into it exactly if every annotation
has a value and the kernel parameters are set. -/
theorem state_file_recovers_iff (env : Env) (created : Option String) (world : World)
    (ok : (stateFileCreate env created).Succeeds world) (console : world.config.console ≠ none)
    (distinct : (world.config.oci.annotations.map Annotation.key).Nodup) :
    (∃ state, writeThenRead env created world = some state ∧
        Recovers world.config created state) ↔
      (∀ note ∈ world.config.oci.annotations, note.value ≠ none) ∧
        ∀ vm, world.config.vm = some vm → vm.kernelParams ≠ none := by
  obtain ⟨inputs, given⟩ := (stateFileCreate_succeeds_iff.mp ok).1
  have vm := (stateInputs_eq_some_iff.mp given).2.2.2.2.2.2.2
  have read := writeThenRead_eq given ok
  simp only [Option.isSome_iff_ne_none.mpr console, ↓reduceIte] at read
  simp only [read, Option.some.injEq, exists_eq_left', vm, forall_eq']
  exact recovers_recalled_iff given distinct

def createdConfig (annotations : List Annotation) : Config where
  oci := { annotations := annotations }
  vm := some { kernelParams := some "quiet" }
  state := {
    runtimePath := Buffer.copy _ "/run/c1"
    commsPath := Buffer.copy _ "/run/c1/hypervisor.sock"
    procsockPath := Buffer.copy _ "/run/c1/process.sock"
    workloadPid := 4242 }
  bundlePath := some "/bundle"
  console := some "/dev/pts/3"
  optargContainerId := some "c1"

def createdWorld (annotations : List Annotation) : World :=
  ⟨createdConfig annotations, Sys.idle fun _ => none⟩

theorem state_file_recovers_valued :
    ∃ state, writeThenRead Env.calm (some "now") (createdWorld [⟨"note", some "x"⟩]) = some state ∧
      Recovers (createdConfig [⟨"note", some "x"⟩]) (some "now") state :=
  (state_file_recovers_iff Env.calm (some "now") (createdWorld [⟨"note", some "x"⟩]) (by decide)
    (by decide) (by decide)).mpr ⟨by decide, by decide⟩

/-- An annotation with an empty value is stored as null and lost on reading. -/
theorem state_file_loses_empty_annotation :
    (stateFileCreate Env.calm (some "now")).Succeeds (createdWorld [⟨"note", none⟩]) ∧
      (createdWorld [⟨"note", none⟩]).config.console ≠ none ∧
      0 < (createdWorld [⟨"note", none⟩]).config.state.workloadPid ∧
      ¬ ∃ state, writeThenRead Env.calm (some "now") (createdWorld [⟨"note", none⟩]) = some state ∧
        Recovers (createdConfig [⟨"note", none⟩]) (some "now") state := by
  have ok : (stateFileCreate Env.calm (some "now")).Succeeds (createdWorld [⟨"note", none⟩]) := by
    decide
  refine ⟨ok, by decide, by decide, ?_⟩
  rintro ⟨state, read, recovers⟩
  have lost : (writeThenRead Env.calm (some "now") (createdWorld [⟨"note", none⟩])).map
      OciState.annotations = some [] := by
    decide
  rw [read, Option.map_some, Option.some.injEq] at lost
  have kept := (recovers.annotations ⟨"note", none⟩).mpr List.mem_cons_self
  rw [lost] at kept
  cases kept

end ClrOci
