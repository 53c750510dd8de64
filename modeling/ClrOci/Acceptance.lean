import ClrOci.State
import ClrOci.Foundation.LastWrite

/-! Which documents the reader of the state file accepts, and what it makes of them. -/

set_option autoImplicit false

namespace ClrOci

open Foundation

def lastMember? (members : List (String × Json)) (name : String) : Option Json :=
  members.reverse.lookup name

structure StateRecord where
  ociVersion : String
  id : String
  pid : GPid
  bundlePath : String
  commsPath : String
  processPath : String
  status : Status
  created : String
  socket : Bool
  console : String
  hypervisorPath : String
  imagePath : String
  kernelPath : String
  workloadPath : String
  kernelParams : String
  positive : 0 < pid.toInt
  known : status ≠ .invalid

namespace StateRecord
variable (record : StateRecord)

def consoleMembers : List (String × Json) :=
  [("socket", .bool record.socket), ("path", .string record.console)]

def vmMembers : List (String × Json) :=
  [("hypervisor_path", .string record.hypervisorPath), ("image_path", .string record.imagePath),
    ("kernel_path", .string record.kernelPath), ("workload_path", .string record.workloadPath),
    ("kernel_params", .string record.kernelParams)]

def scalars : List (Section × Json) :=
  [(.ociVersion, .string record.ociVersion), (.id, .string record.id), (.pid, .int record.pid.toInt),
    (.bundlePath, .string record.bundlePath), (.commsPath, .string record.commsPath),
    (.processPath, .string record.processPath), (.status, .string (record.status.toStr.getD "")),
    (.created, .string record.created)]

def SaidBy (document : Json) : Prop :=
  ∃ members console vm, document = .object members ∧
    (∀ entry ∈ record.scalars, lastMember? members entry.1.name = some entry.2) ∧
    lastMember? members Section.console.name = some (.object console) ∧
    (∀ entry ∈ record.consoleMembers, lastMember? console entry.1 = some entry.2) ∧
    lastMember? members Section.vm.name = some (.object vm) ∧
    ∀ entry ∈ record.vmMembers, lastMember? vm entry.1 = some entry.2

structure HeldBy (state : OciState) : Prop where
  ociVersion : state.ociVersion = some record.ociVersion
  id : state.id = some record.id
  pid : state.pid = record.pid
  bundlePath : state.bundlePath = some record.bundlePath
  commsPath : state.commsPath = some record.commsPath
  processPath : state.procsockPath = some record.processPath
  status : state.status = record.status
  created : state.createTime = some record.created
  socket : state.useSocketConsole = record.socket
  console : state.console = some record.console
  vm : ∃ vm, state.vm = some vm ∧ vm.hypervisorPath.text = record.hypervisorPath ∧
    vm.imagePath.text = record.imagePath ∧ vm.kernelPath.text = record.kernelPath ∧
    vm.workloadPath.text = record.workloadPath ∧ vm.kernelParams = some record.kernelParams

structure Fits : Prop where
  hypervisorPath : record.hypervisorPath.length ≤ 4095
  imagePath : record.imagePath.length ≤ 4095
  kernelPath : record.kernelPath.length ≤ 4095
  workloadPath : record.workloadPath.length ≤ 4095

end StateRecord

def sectionOf (node : GNode) : Option Section :=
  node.data.bind fun name => Section.all.find? fun handler => handler.name == name

def visits (nodes : List GNode) : List (Section × GNode) :=
  nodes.flatMap fun node =>
    (sectionOf node).elim [] fun handler => node.children.map fun child => (handler, child)

def consoleNames : List String := ["socket", "path"]

def vmNames : List String :=
  ["workload_path", "hypervisor_path", "kernel_path", "image_path", "kernel_params"]

/-- A visit supplies something to its section: a text, one that begins with an integer, or a text for
a member of an object that is known. -/
def supplies (visit : Section × GNode) : Bool :=
  match visit.1 with
  | .mounts | .annotations => false
  | .pid => (visit.2.data.bind strtoll).isSome
  | .console => (memberText visit.2).any fun member => consoleNames.contains member.1
  | .vm => (memberText visit.2).any fun member => vmNames.contains member.1
  | _ => visit.2.data.isSome

def Starved (document : Json) : Prop :=
  ∃ handler : Section, (visits (jsonParseAux document false)).countP
    (fun visit => visit.1 = handler && supplies visit) < handler.needed

def ReadsFaithfully (document : Json) : Prop :=
  ∀ files path state, files path = some (.json document) → stateFileRead files path = some state →
    ∃ record : StateRecord, record.SaidBy document ∧ record.HeldBy state

def visitStep (reading : Reading) (visit : Section × GNode) : Reading := reading.visit visit.1 visit.2

def HasVm (reading : Reading) : Prop := reading.state.vm.isSome = true

section Visits
variable {reading : Reading} {handler : Section} {node : GNode} {state : OciState}

theorem visits_cons (node : GNode) (nodes : List GNode) :
    visits (node :: nodes) =
      ((sectionOf node).elim [] fun handler => node.children.map fun child => (handler, child)) ++
        visits nodes := rfl

theorem handleStateSections_eq (reading : Reading) (node : GNode) :
    handleStateSections reading node =
      ((sectionOf node).elim [] fun handler => node.children.map fun child => (handler, child)).foldl
        visitStep reading := by
  unfold handleStateSections sectionOf
  cases node.data with
  | none => rfl
  | some name =>
    dsimp only [Option.bind_some]
    cases Section.all.find? fun handler => handler.name == name with
    | none => rfl
    | some handler =>
      rw [Option.elim_some, List.foldl_map]
      rfl

theorem foldl_handleStateSections (nodes : List GNode) (reading : Reading) :
    nodes.foldl handleStateSections reading = (visits nodes).foldl visitStep reading := by
  induction nodes generalizing reading with
  | nil => rfl
  | cons node nodes ih => rw [List.foldl_cons, ih, visits_cons, List.foldl_append, handleStateSections_eq]

theorem console_frame (node : GNode) (state : OciState) :
    ∃ socket console, (handleStateConsoleSection node state).1 =
      { state with useSocketConsole := socket, console := console } := by
  unfold handleStateConsoleSection
  split
  · exact ⟨_, _, rfl⟩
  · split
    · exact ⟨_, _, rfl⟩
    · split
      · exact ⟨_, _, rfl⟩
      · exact ⟨_, _, rfl⟩

theorem vm_frame (node : GNode) (state : OciState) :
    ∃ vm, (handleStateVmSection node state).1 = { state with vm := vm } ∧ vm.isSome = state.vm.isSome := by
  unfold handleStateVmSection
  split
  · next vm given =>
    rw [given]
    split
    · exact ⟨_, rfl, rfl⟩
    · split
      · exact ⟨_, rfl, rfl⟩
      · split
        · exact ⟨_, rfl, rfl⟩
        · split
          · exact ⟨_, rfl, rfl⟩
          · split
            · exact ⟨_, rfl, rfl⟩
            · exact ⟨_, rfl, by rw [given]⟩
  · exact ⟨_, rfl, rfl⟩

theorem pid_frame (node : GNode) (state : OciState) :
    ∃ pid, (handleStatePidSection node state).1 = { state with pid := pid } := by
  unfold handleStatePidSection
  split
  · exact ⟨_, rfl⟩
  · split
    · exact ⟨_, rfl⟩
    · exact ⟨_, rfl⟩

theorem visitStep_keeps (reading : Reading) (visit : Section × GNode) (has : HasVm reading) :
    HasVm (visitStep reading visit) := by
  obtain ⟨handler, node⟩ := visit
  have own : (handler.handle node reading.state).1.vm.isSome = true := by
    cases handler with
    | pid =>
      obtain ⟨pid, same⟩ := pid_frame node reading.state
      simp only [Section.handle, same]
      exact has
    | console =>
      obtain ⟨socket, console, same⟩ := console_frame node reading.state
      simp only [Section.handle, same]
      exact has
    | vm =>
      obtain ⟨vm, same, kept⟩ := vm_frame node reading.state
      simp only [Section.handle, same, kept]
      exact has
    | mounts => exact has
    | annotations => exact has
    | _ =>
      simp only [Section.handle, strdupMember]
      split <;> exact has
  exact own

theorem handle_count (has : state.vm.isSome = true) :
    (handler.handle node state).2 = if supplies (handler, node) then 1 else 0 := by
  obtain ⟨vm, given⟩ := Option.isSome_iff_exists.mp has
  cases handler with
  | pid =>
    cases found : node.data with
    | none => simp [Section.handle, handleStatePidSection, supplies, found]
    | some text =>
      cases converted : strtoll text <;>
        simp [Section.handle, handleStatePidSection, supplies, found, converted]
  | console =>
    cases found : memberText node with
    | none => simp [Section.handle, handleStateConsoleSection, supplies, found]
    | some member =>
      obtain ⟨name, value⟩ := member
      simp only [Section.handle, handleStateConsoleSection, supplies, found, consoleNames, Option.any_some]
      split
      · next known => simp [known]
      · split
        · next known => simp [known]
        · simp_all
  | vm =>
    cases found : memberText node with
    | none => simp [Section.handle, handleStateVmSection, supplies, found]
    | some member =>
      obtain ⟨name, value⟩ := member
      simp only [Section.handle, handleStateVmSection, supplies, vmNames, given, found, Option.any_some]
      split
      · next known => simp [known]
      · split
        · next known => simp [known]
        · split
          · next known => simp [known]
          · split
            · next known => simp [known]
            · split
              · next known => simp [known]
              · simp_all
  | mounts => rfl
  | annotations => rfl
  | _ =>
    simp only [Section.handle, strdupMember, supplies]
    split
    · next none => simp [none]
    · next text => simp [text]

theorem count_visitStep (reading : Reading) (visit : Section × GNode) (has : HasVm reading) :
    (visitStep reading visit).counts handler =
      reading.counts handler + if visit.1 = handler && supplies visit then 1 else 0 := by
  obtain ⟨other, node⟩ := visit
  have counted : (other.handle node reading.state).2 = if supplies (other, node) then 1 else 0 :=
    handle_count has
  by_cases same : other = handler
  · subst same
    simp [visitStep, Reading.visit, counted]
  · have kept : handler ≠ other := fun eq => same eq.symm
    simp [visitStep, Reading.visit, same, kept]

def readingOf (document : Json) : Reading :=
  (visits (jsonParseAux document false)).foldl visitStep Reading.start

theorem complete_iff (document : Json) : (readingOf document).complete = true ↔ ¬ Starved document := by
  have counts (handler : Section) : (readingOf document).counts handler =
      (visits (jsonParseAux document false)).countP
        fun visit => visit.1 = handler && supplies visit := by
    have grown := foldl_count (fun reading => reading.counts handler) Reading.start visitStep_keeps
      count_visitStep (visits (jsonParseAux document false)) rfl
    rw [readingOf, grown]
    exact Nat.zero_add _
  have all (handler : Section) : handler ∈ Section.all := by
    cases handler <;> decide
  simp only [Reading.complete, List.all_eq_true, decide_eq_true_eq, Starved, not_exists, not_lt, counts]
  exact ⟨fun enough handler => enough handler (all handler), fun enough handler _ => enough handler⟩

theorem stateFileRead_eq {files : Files} {path : String} {document : Json}
    (held : files path = some (.json document)) (set : path ≠ "") :
    stateFileRead files path =
      if (readingOf document).complete then some (readingOf document).state else none := by
  have parsed : jsonParseFile files path = some (jsonParse path document) := by
    simp only [jsonParseFile, held, set, ↓reduceIte]
  rw [stateFileRead, parsed]
  simp only [jsonParse, GNode.children_node, foldl_handleStateSections]
  rfl

end Visits

def Section.part (state : OciState) : Section → OciState
  | .ociVersion => { ociVersion := state.ociVersion }
  | .id => { id := state.id }
  | .pid => { pid := state.pid }
  | .bundlePath => { bundlePath := state.bundlePath }
  | .commsPath => { commsPath := state.commsPath }
  | .processPath => { procsockPath := state.procsockPath }
  | .status => { status := state.status }
  | .created => { createTime := state.createTime }
  | .mounts => { mounts := state.mounts }
  | .console => { useSocketConsole := state.useSocketConsole, console := state.console }
  | .vm => { vm := state.vm }
  | .annotations => { annotations := state.annotations }

def memberNamed (name : String) (node : GNode) : Option String :=
  (memberText node).bind fun member => if member.1 = name then some member.2 else none

def writeOf {B : Type} (handler : Section) (value : GNode → Option B) (visit : Section × GNode) :
    Option B :=
  if visit.1 = handler then value visit.2 else none

section Parts
variable {B : Type} {handler : Section} {node : GNode} {state : OciState}

theorem handle_part {other : Section} (apart : other ≠ handler) :
    handler.part (other.handle node state).1 = handler.part state := by
  cases other with
  | pid =>
    obtain ⟨pid, same⟩ := pid_frame node state
    simp only [Section.handle, same]
    cases handler <;> first | rfl | exact absurd rfl apart
  | console =>
    obtain ⟨socket, console, same⟩ := console_frame node state
    simp only [Section.handle, same]
    cases handler <;> first | rfl | exact absurd rfl apart
  | vm =>
    obtain ⟨vm, same, _⟩ := vm_frame node state
    simp only [Section.handle, same]
    cases handler <;> first | rfl | exact absurd rfl apart
  | mounts => cases handler <;> first | rfl | exact absurd rfl apart
  | annotations => cases handler <;> first | rfl | exact absurd rfl apart
  | _ =>
    simp only [Section.handle, strdupMember]
    split
    · rfl
    · cases handler <;> first | rfl | exact absurd rfl apart

theorem writes_part {view : OciState → B} {value : GNode → Option B}
    (own : ∀ state, view (handler.part state) = view state)
    (handled : ∀ node state, state.vm.isSome = true →
      view (handler.handle node state).1 = (value node).getD (view state)) :
    Writes visitStep HasVm (fun reading => view reading.state) (writeOf handler value) where
  keeps := visitStep_keeps
  wrote := by
    rintro reading ⟨other, node⟩ has
    by_cases same : other = handler
    · subst same
      rw [writeOf, if_pos rfl]
      exact handled node reading.state has
    · rw [writeOf, if_neg same, Option.getD_none, ← own, ← own reading.state]
      exact congrArg view (handle_part same)

theorem strdupMember_view {view : OciState → B} {update : String → OciState} {value : String → B}
    (updated : ∀ text, view (update text) = value text) (node : GNode) (state : OciState) :
    view (strdupMember node state update).1 = (node.data.map value).getD (view state) := by
  unfold strdupMember
  split
  · next none => rw [none, Option.map_none, Option.getD_none]
  · next text found => rw [found, Option.map_some, Option.getD_some, updated]

theorem pid_view (node : GNode) (state : OciState) :
    (handleStatePidSection node state).1.pid =
      (node.data.map fun text => ((strtoll text).map Int32.ofInt).getD 0).getD state.pid := by
  unfold handleStatePidSection
  split
  · next none => rw [none, Option.map_none, Option.getD_none]
  · next text found =>
    rw [found, Option.map_some, Option.getD_some]
    split
    · next failed => rw [failed, Option.map_none, Option.getD_none]
    · next value read => rw [read, Option.map_some, Option.getD_some]

theorem console_view (node : GNode) (state : OciState) :
    (handleStateConsoleSection node state).1.useSocketConsole =
        ((memberNamed "socket" node).map fun value => value == "true").getD state.useSocketConsole ∧
      (handleStateConsoleSection node state).1.console =
        ((memberNamed "path" node).map some).getD state.console := by
  unfold handleStateConsoleSection memberNamed
  cases memberText node with
  | none => exact ⟨rfl, rfl⟩
  | some member =>
    obtain ⟨name, value⟩ := member
    dsimp only [Option.bind_some]
    by_cases socket : name = "socket"
    · simp [socket]
    · by_cases path : name = "path" <;> simp [socket, path]

theorem vm_view {vm : VmConfig} (node : GNode) (given : state.vm = some vm) :
    (handleStateVmSection node state).1.vm = some
      { workloadPath := ((memberNamed "workload_path" node).map (Buffer.copy _)).getD vm.workloadPath
        hypervisorPath := ((memberNamed "hypervisor_path" node).map (Buffer.copy _)).getD vm.hypervisorPath
        kernelPath := ((memberNamed "kernel_path" node).map (Buffer.copy _)).getD vm.kernelPath
        imagePath := ((memberNamed "image_path" node).map (Buffer.copy _)).getD vm.imagePath
        kernelParams := ((memberNamed "kernel_params" node).map some).getD vm.kernelParams } := by
  unfold handleStateVmSection memberNamed
  cases found : memberText node with
  | none => simpa using given
  | some member =>
    obtain ⟨name, value⟩ := member
    simp only [given, Option.bind_some]
    split
    · next known => simp [known]
    · split
      · next known => simp [known]
      · split
        · next known => simp [known]
        · split
          · next known => simp [known]
          · split
            · simp
            · simp_all

theorem writes_vm {name : String} {field : VmConfig → B} {value : String → B}
    (handled : ∀ node state vm, state.vm = some vm →
      ∃ vm', (handleStateVmSection node state).1.vm = some vm' ∧
        field vm' = ((memberNamed name node).map value).getD (field vm)) :
    Writes visitStep HasVm (fun reading => field (reading.state.vm.getD {}))
      (writeOf .vm fun node => (memberNamed name node).map value) := by
  apply @writes_part B .vm (fun state => field (state.vm.getD {})) _ (fun _ => rfl)
  intro node state has
  obtain ⟨vm, given⟩ := Option.isSome_iff_exists.mp has
  obtain ⟨vm', after, same⟩ := handled node state vm given
  simp only [Section.handle, after, given, Option.getD_some, same]

end Parts

theorem lastMember?_split {members : List (String × Json)} {name : String} {value : Json}
    (found : lastMember? members name = some value) :
    ∃ before after, members = before ++ (name, value) :: after ∧
      ∀ member ∈ after, member.1 ≠ name := by
  obtain ⟨later, earlier, split, apart⟩ := List.lookup_eq_some_iff.mp found
  refine ⟨earlier.reverse, later.reverse, ?_, ?_⟩
  · rw [← List.reverse_reverse members, split]
    simp
  · intro member inside
    have differ := apart member (List.mem_reverse.mp inside)
    exact fun same => by simp [same] at differ

theorem jsonParseMembers_append (before after : List (String × Json)) :
    jsonParseMembers (before ++ after) = jsonParseMembers before ++ jsonParseMembers after := by
  induction before with
  | nil => rw [List.nil_append, jsonParseMembers, List.nil_append]
  | cons member before ih =>
    obtain ⟨name, value⟩ := member
    rw [List.cons_append, jsonParseMembers, ih, jsonParseMembers, List.cons_append]

theorem mem_jsonParseMembers {members : List (String × Json)} {node : GNode}
    (inside : node ∈ jsonParseMembers members) : ∃ member ∈ members, node.data = some member.1 := by
  induction members with
  | nil =>
    rw [jsonParseMembers] at inside
    cases inside
  | cons member members ih =>
    obtain ⟨name, value⟩ := member
    rw [jsonParseMembers] at inside
    rcases List.mem_cons.mp inside with rfl | later
    · exact ⟨(name, value), List.mem_cons_self, rfl⟩
    · obtain ⟨member, found, same⟩ := ih later
      exact ⟨member, List.mem_cons_of_mem _ found, same⟩

theorem mem_visits {nodes : List GNode} {visit : Section × GNode} (inside : visit ∈ visits nodes) :
    ∃ node ∈ nodes, node.data = some visit.1.name := by
  obtain ⟨node, found, member⟩ := List.mem_flatMap.mp inside
  refine ⟨node, found, ?_⟩
  unfold sectionOf at member
  cases data : node.data with
  | none =>
    rw [data] at member
    cases member
  | some name =>
    rw [data, Option.bind_some] at member
    cases handled : Section.all.find? fun handler => handler.name == name with
    | none =>
      rw [handled] at member
      cases member
    | some handler =>
      rw [handled] at member
      obtain ⟨child, _, rfl⟩ := List.mem_map.mp member
      have named : (handler.name == name) = true := by
        simpa using List.find?_some handled
      rw [eq_of_beq named]

theorem visits_name (handler : Section) (children nodes : List GNode) :
    visits (.node (some handler.name) children :: nodes) =
      children.map (fun child => (handler, child)) ++ visits nodes := by
  cases handler <;> rfl

section Document
variable {B : Type} {members inner : List (String × Json)} {handler : Section} {document value : Json}
  {part : Reading → B} {written : GNode → Option B}

theorem visits_lastMember (found : lastMember? members handler.name = some value) :
    ∃ before after, visits (jsonParseAux (.object members) false) =
        before ++ ((jsonParseAux value false).map (fun child => (handler, child)) ++ after) ∧
      ∀ visit ∈ after, visit.1 ≠ handler := by
  obtain ⟨before, after, rfl, apart⟩ := lastMember?_split found
  refine ⟨visits (GNode.separator :: jsonParseMembers before), visits (jsonParseMembers after), ?_, ?_⟩
  · rw [jsonParseAux, jsonParseMembers_append, jsonParseMembers, ← visits_name, visits, visits, visits,
      ← List.flatMap_append, List.cons_append]
  · rintro visit inside rfl
    obtain ⟨node, found, data⟩ := mem_visits inside
    obtain ⟨member, listed, same⟩ := mem_jsonParseMembers found
    exact apart member listed (Option.some.inj (same.symm.trans data))

theorem reading_scalar {node : GNode} {result : B}
    (writes : Writes visitStep HasVm part (writeOf handler written))
    (found : lastMember? members handler.name = some value) (leaf : jsonParseAux value false = [node])
    (own : written node = some result) : part (readingOf (.object members)) = result := by
  obtain ⟨before, after, split, quiet⟩ := visits_lastMember found
  rw [readingOf, split, leaf]
  refine writes.last rfl ?_ fun later inside => ?_
  · rw [writeOf, if_pos rfl, own]
  · rw [writeOf, if_neg (quiet later inside)]

theorem reading_member {name text : String} {convert : String → B}
    (writes : Writes visitStep HasVm part
      (writeOf handler fun node => (memberNamed name node).map convert))
    (found : lastMember? members handler.name = some (.object inner))
    (listed : lastMember? inner name = some value)
    (leaf : jsonParseAux value false = [.leaf (some text)]) :
    part (readingOf (.object members)) = convert text := by
  obtain ⟨before, after, split, quiet⟩ := visits_lastMember found
  obtain ⟨earlier, later, rfl, apart⟩ := lastMember?_split listed
  have nodes : jsonParseAux (.object (earlier ++ (name, value) :: later)) false =
      (GNode.separator :: jsonParseMembers earlier) ++
        .node (some name) [.leaf (some text)] :: jsonParseMembers later := by
    rw [jsonParseAux, jsonParseMembers_append, jsonParseMembers, leaf, List.cons_append]
  have shape : before ++ ((jsonParseAux (.object (earlier ++ (name, value) :: later)) false).map
        (fun child => (handler, child)) ++ after) =
      (before ++ (GNode.separator :: jsonParseMembers earlier).map fun child => (handler, child)) ++
        (handler, .node (some name) [.leaf (some text)]) ::
          ((jsonParseMembers later).map (fun child => (handler, child)) ++ after) := by
    rw [nodes]
    simp
  rw [readingOf, split, shape]
  refine writes.last rfl ?_ fun visit inside => ?_
  · simp [writeOf, memberNamed, memberText, GNode.childData?, GNode.leaf]
  · rcases List.mem_append.mp inside with sibling | outside
    · obtain ⟨node, member, rfl⟩ := List.mem_map.mp sibling
      obtain ⟨entry, entered, data⟩ := mem_jsonParseMembers member
      have other := apart entry entered
      rw [writeOf, if_pos rfl]
      cases text : node.childData? with
      | none => simp [memberNamed, memberText, data, text]
      | some held => cases held <;> simp [memberNamed, memberText, data, text, other]
    · rw [writeOf, if_neg (quiet visit outside)]

theorem reading_text {view : OciState → Option String} {text : String}
    {update : OciState → String → OciState}
    (own : ∀ state, view (handler.part state) = view state)
    (handled : ∀ node state, handler.handle node state = strdupMember node state (update state))
    (updated : ∀ state text, view (update state text) = some text)
    (found : lastMember? members handler.name = some (.string text)) :
    view (readingOf (.object members)).state = some text := by
  have writes : Writes visitStep HasVm (fun reading => view reading.state)
      (writeOf handler fun node => node.data.map some) := by
    refine writes_part own fun node state _ => ?_
    rw [handled]
    exact strdupMember_view (updated state) node state
  exact reading_scalar writes found rfl rfl

theorem strtoll_pid {pid : GPid} (positive : 0 < pid.toInt) :
    strtoll (toString pid.toInt) = some pid.toInt := by
  obtain ⟨n, same⟩ := Int.eq_ofNat_of_zero_le (Int.le_of_lt positive)
  have small : n ≤ llongMax := by
    have bound := pid.toInt_lt
    rw [llongMax]
    omega
  rw [same]
  exact strtoll_repr small

theorem reading_pid {pid : GPid} (positive : 0 < pid.toInt)
    (found : lastMember? members Section.pid.name = some (.int pid.toInt)) :
    (readingOf (.object members)).state.pid = pid := by
  have writes : Writes visitStep HasVm (fun reading => reading.state.pid) (writeOf .pid fun node =>
      node.data.map fun text => ((strtoll text).map Int32.ofInt).getD 0) :=
    writes_part (fun _ => rfl) fun node state _ => pid_view node state
  refine reading_scalar writes found rfl ?_
  change some (((strtoll (toString pid.toInt)).map Int32.ofInt).getD 0) = some pid
  rw [strtoll_pid positive, Option.map_some, Option.getD_some, Int32.ofInt_toInt]

theorem reading_status {status : Status} (known : status ≠ .invalid)
    (found : lastMember? members Section.status.name = some (.string (status.toStr.getD ""))) :
    (readingOf (.object members)).state.status = status := by
  have writes : Writes visitStep HasVm (fun reading => reading.state.status) (writeOf .status fun node =>
      node.data.map Status.ofStr) :=
    writes_part (fun _ => rfl) fun node state _ => strdupMember_view (fun _ => rfl) node state
  obtain ⟨text, named⟩ := Option.isSome_iff_exists.mp ((Status.toStr_isSome_iff status).mpr known)
  rw [named, Option.getD_some] at found
  refine reading_scalar writes found rfl ?_
  exact congrArg some (Status.ofStr_of_toStr named)

theorem reading_console {socket : Bool} {path : String}
    (found : lastMember? members Section.console.name = some (.object inner))
    (socketFound : lastMember? inner "socket" = some (.bool socket))
    (pathFound : lastMember? inner "path" = some (.string path)) :
    (readingOf (.object members)).state.useSocketConsole = socket ∧
      (readingOf (.object members)).state.console = some path := by
  have writesSocket : Writes visitStep HasVm (fun reading => reading.state.useSocketConsole)
      (writeOf .console fun node => (memberNamed "socket" node).map fun value => value == "true") :=
    writes_part (fun _ => rfl) fun node state _ => (console_view node state).1
  have writesPath : Writes visitStep HasVm (fun reading => reading.state.console)
      (writeOf .console fun node => (memberNamed "path" node).map some) :=
    writes_part (fun _ => rfl) fun node state _ => (console_view node state).2
  refine ⟨?_, reading_member writesPath found pathFound rfl⟩
  cases socket with
  | true => exact reading_member writesSocket found socketFound rfl
  | false => exact reading_member writesSocket found socketFound rfl

theorem reading_path {name text : String} {field : VmConfig → PathBuffer}
    (handled : ∀ node state vm, state.vm = some vm →
      ∃ vm', (handleStateVmSection node state).1.vm = some vm' ∧
        field vm' = ((memberNamed name node).map (Buffer.copy _)).getD (field vm))
    (found : lastMember? members Section.vm.name = some (.object inner))
    (listed : lastMember? inner name = some (.string text)) (fits : text.length ≤ 4095) :
    (field ((readingOf (.object members)).state.vm.getD {})).text = text := by
  have copied := reading_member (writes_vm handled) found listed rfl
  rw [copied]
  exact Buffer.copy_text_of_fits fits

theorem reading_params {text : String}
    (found : lastMember? members Section.vm.name = some (.object inner))
    (listed : lastMember? inner "kernel_params" = some (.string text)) :
    ((readingOf (.object members)).state.vm.getD {}).kernelParams = some text :=
  reading_member (writes_vm fun node _ _ given => ⟨_, vm_view node given, rfl⟩) found listed rfl

/-- What a document says is what is read from it, as far as the paths fit. -/
theorem heldBy_of_saidBy {record : StateRecord} (said : record.SaidBy document) (fits : record.Fits) :
    record.HeldBy (readingOf document).state := by
  obtain ⟨members, console, vm, rfl, scalars, consoleFound, consoleMembers, vmFound, vmMembers⟩ := said
  simp only [StateRecord.scalars, List.forall_mem_cons, List.not_mem_nil, false_imp_iff, implies_true,
    and_true] at scalars
  simp only [StateRecord.consoleMembers, List.forall_mem_cons, List.not_mem_nil, false_imp_iff,
    implies_true, and_true] at consoleMembers
  simp only [StateRecord.vmMembers, List.forall_mem_cons, List.not_mem_nil, false_imp_iff,
    implies_true, and_true] at vmMembers
  obtain ⟨ociVersion, id, pid, bundlePath, commsPath, processPath, status, created⟩ := scalars
  obtain ⟨socket, path⟩ := consoleMembers
  obtain ⟨hypervisor, image, kernel, workload, params⟩ := vmMembers
  constructor
  · exact reading_text (fun _ => rfl) (fun _ _ => rfl) (fun _ _ => rfl) ociVersion
  · exact reading_text (fun _ => rfl) (fun _ _ => rfl) (fun _ _ => rfl) id
  · exact reading_pid record.positive pid
  · exact reading_text (fun _ => rfl) (fun _ _ => rfl) (fun _ _ => rfl) bundlePath
  · exact reading_text (fun _ => rfl) (fun _ _ => rfl) (fun _ _ => rfl) commsPath
  · exact reading_text (fun _ => rfl) (fun _ _ => rfl) (fun _ _ => rfl) processPath
  · exact reading_status record.known status
  · exact reading_text (fun _ => rfl) (fun _ _ => rfl) (fun _ _ => rfl) created
  · exact (reading_console consoleFound socket path).1
  · exact (reading_console consoleFound socket path).2
  · have has : HasVm (readingOf (.object members)) := foldl_kept visitStep_keeps _ rfl
    obtain ⟨held, given⟩ := Option.isSome_iff_exists.mp has
    have written : (readingOf (.object members)).state.vm.getD {} = held := by
      rw [given, Option.getD_some]
    refine ⟨held, given, ?_, ?_, ?_, ?_, ?_⟩
    · rw [← written]
      exact reading_path (fun node _ _ given => ⟨_, vm_view node given, rfl⟩) vmFound hypervisor
        fits.hypervisorPath
    · rw [← written]
      exact reading_path (fun node _ _ given => ⟨_, vm_view node given, rfl⟩) vmFound image fits.imagePath
    · rw [← written]
      exact reading_path (fun node _ _ given => ⟨_, vm_view node given, rfl⟩) vmFound kernel
        fits.kernelPath
    · rw [← written]
      exact reading_path (fun node _ _ given => ⟨_, vm_view node given, rfl⟩) vmFound workload
        fits.workloadPath
    · rw [← written]
      exact reading_params vmFound params

theorem fits_of_heldBy {record : StateRecord} {state : OciState} (held : record.HeldBy state) :
    record.Fits := by
  obtain ⟨vm, _, hypervisor, image, kernel, workload, _⟩ := held.vm
  constructor
  · exact hypervisor ▸ vm.hypervisorPath.fits
  · exact image ▸ vm.imagePath.fits
  · exact kernel ▸ vm.kernelPath.fits
  · exact workload ▸ vm.workloadPath.fits

/-- What is read is what the document says, exactly if the document starves a section or says a record
whose paths fit. -/
theorem readsFaithfully_iff (document : Json) :
    ReadsFaithfully document ↔
      Starved document ∨ ∃ record : StateRecord, record.SaidBy document ∧ record.Fits := by
  constructor
  · intro faithful
    by_cases starved : Starved document
    · exact Or.inl starved
    · have read : stateFileRead (fun _ => some (.json document)) "/" =
          if (readingOf document).complete then some (readingOf document).state else none :=
        stateFileRead_eq rfl (by decide)
      rw [if_pos ((complete_iff document).mpr starved)] at read
      obtain ⟨record, said, held⟩ := faithful _ _ _ rfl read
      exact Or.inr ⟨record, said, fits_of_heldBy held⟩
  · intro either files path state held read
    have set : path ≠ "" := by
      rintro rfl
      simp [stateFileRead, jsonParseFile, held] at read
    rw [stateFileRead_eq held set] at read
    split at read
    · next complete =>
      cases Option.some.inj read
      rcases either with starved | ⟨record, said, fits⟩
      · exact absurd starved ((complete_iff document).mp complete)
      · exact ⟨record, said, heldBy_of_saidBy said fits⟩
    · cases read

end Document

def stateDocument (pid status console : Json) : Json :=
  .object [("ociVersion", .string "1.0.0"), ("id", .string "box"), ("pid", pid),
    ("bundlePath", .string "/bundle"), ("commsPath", .string "/comms"),
    ("processPath", .string "/process"), ("status", status), ("created", .string "now"),
    ("console", console), ("vm", .object [("hypervisor_path", .string "/qemu"),
      ("image_path", .string "/image"), ("kernel_path", .string "/kernel"),
      ("workload_path", .string "/workload"), ("kernel_params", .string "")])]

/-- A negative pid is taken, a status that is none, and a console with two sockets and no path. -/
theorem unsaid_state_read :
    let console := Json.array [.object [("socket", .bool true)], .object [("socket", .bool false)]]
    let document := stateDocument (.int (-1)) (.string "gone") console
    (stateFileRead (fun _ => some (.json document)) "/state").map
        (fun state => (state.pid, state.status, state.console)) = some (-1, .invalid, none) ∧
      ¬ ReadsFaithfully document := by
  intro console document
  have read : (stateFileRead (fun _ => some (.json document)) "/state").map
      (fun state => (state.pid, state.status, state.console)) = some (-1, .invalid, none) := by
    decide +kernel
  refine ⟨read, fun faithful => ?_⟩
  obtain ⟨state, found, parts⟩ := Option.map_eq_some_iff.mp read
  obtain ⟨record, _, held⟩ := faithful _ _ state rfl found
  have invalid : state.status = .invalid := congrArg (fun parts => parts.2.1) parts
  exact record.known (held.status.symm.trans invalid)

end ClrOci
