import ClrOci.Collection
import ClrOci.ConfigSafety
import ClrOci.Foundation.LastWrite

/-! What the hooks section makes of its lists. -/

set_option autoImplicit false

namespace ClrOci

open Foundation

def gatheredHook (group : List GNode) : Hook := Scan.gathered fillHook group

section Parts
variable {B : Type} (part : Hook → B) (name : String) (write : B → GNode → B) {group : List GNode}

theorem gatheredHook_part (members : ∀ node ∈ group, isSeparator node = false)
    (writes : ∀ other node hook, part (hookWith other node hook) =
      if other = name then write (part hook) node else part hook) :
    part (gatheredHook group) = (valued name group).foldl write (part {}) := by
  have owns : Scan.Owns fillHook part name write := .of_total fillHook_eq writes
  exact owns.gathered fillHook_eq members

end Parts

structure HookObject extends JsonObject where
  path : String
  args : Option (List String)
  env : Option (List String)
  timeout : Option Int32
  present : path ≠ ""
  short : path.length < 4096
  hasPath : toJsonObject.member? "path" = some (.string path)
  hasArgs : toJsonObject.member? "args" = args.map fun texts => .array (texts.map .string)
  hasEnv : toJsonObject.member? "env" = env.map fun texts => .array (texts.map .string)
  hasTimeout : toJsonObject.member? "timeout" = timeout.map fun seconds => .int seconds.toInt

def HookObject.hook (object : HookObject) : Hook where
  path := ⟨object.path, Nat.le_of_lt_succ object.short⟩
  args := vectorOf object.args
  env := vectorOf object.env
  timeout := object.timeout.getD 0

theorem nodeToStrv_texts (name : String) (texts : List String) :
    nodeToStrv (.node (some name) (texts.map textNode)) = texts := by
  have data : (texts.map textNode).map GNode.data = texts.map some := by
    rw [List.map_map]
    rfl
  have all : (texts.map some).takeWhile Option.isSome = texts.map some := by
    rw [List.takeWhile_eq_self_iff]
    simp
  rw [nodeToStrv, GNode.children_node, data, all, List.filterMap_map]
  exact List.filterMap_some

namespace HookObject
variable (object : HookObject)

theorem noticed : isNoticed object.nodes = true := by
  have member : GNode.node (some "path") [GNode.leaf (some object.path)] ∈
      valued "path" object.nodes := by
    rw [JsonObject.valued_string object.hasPath]
    exact List.mem_singleton_self _
  exact List.any_eq_true.mpr ⟨_, List.mem_of_mem_filter member, rfl⟩

theorem vector_eq {name : String} {texts : Option (List String)}
    (given : object.member? name = texts.map fun texts => .array (texts.map .string)) :
    (valued name object.nodes).foldl (fun _ node => some (nodeToStrv node)) none = vectorOf texts := by
  rw [JsonObject.valued_strings given]
  cases vectorOf texts with
  | none => rfl
  | some texts =>
    rw [Option.toList_some, List.map_cons, List.map_nil, List.foldl_cons, List.foldl_nil,
      nodeToStrv_texts]

theorem timeout_eq : (valued "timeout" object.nodes).foldl
    (fun _ node => Int32.ofInt (((childText node).bind strtoll).getD 0)) 0 =
      object.timeout.getD 0 := by
  rw [JsonObject.valued_nodes, object.hasTimeout]
  cases object.timeout with
  | none => rfl
  | some seconds =>
    have node : memberNode ("timeout", .int seconds.toInt) =
        .node (some "timeout") [GNode.leaf (some (toString seconds.toInt))] := by
      rw [memberNode, jsonParseAux]
      rfl
    have small : seconds.toInt.natAbs ≤ llongMax := by
      have low := Int32.le_toInt seconds
      have high := Int32.toInt_lt seconds
      rw [llongMax]
      omega
    have read : (childText (.node (some "timeout") [GNode.leaf (some (toString seconds.toInt))])).bind
        strtoll = some seconds.toInt := strtoll_toString small
    have kept : ([GNode.node (some "timeout") [GNode.leaf (some (toString seconds.toInt))]].filter
      GNode.hasChildren) = [.node (some "timeout") [GNode.leaf (some (toString seconds.toInt))]] := rfl
    rw [Option.map_some, Option.map_some, node, Option.toList_some, kept, List.foldl_cons,
      List.foldl_nil, read, Option.getD_some, Int32.ofInt_toInt, Option.getD_some]

theorem gathered_nodes : gatheredHook object.nodes = object.hook := by
  have members := object.nodes_members
  have path : (gatheredHook object.nodes).path = object.hook.path := by
    rw [gatheredHook_part (fun hook => hook.path) "path"
      (fun _ node => Buffer.copy _ (textOrNull (childText node))) members fun _ _ _ => rfl,
      JsonObject.valued_string object.hasPath]
    exact Buffer.ext (Buffer.copy_text_of_fits (Nat.le_of_lt_succ object.short))
  have args : (gatheredHook object.nodes).args = object.hook.args := by
    rw [gatheredHook_part (fun hook => hook.args) "args"
      (fun _ node => some (nodeToStrv node)) members fun _ _ _ => rfl]
    exact object.vector_eq object.hasArgs
  have env : (gatheredHook object.nodes).env = object.hook.env := by
    rw [gatheredHook_part (fun hook => hook.env) "env"
      (fun _ node => some (nodeToStrv node)) members fun _ _ _ => rfl]
    exact object.vector_eq object.hasEnv
  have timeout : (gatheredHook object.nodes).timeout = object.hook.timeout := by
    rw [gatheredHook_part (fun hook => hook.timeout) "timeout"
      (fun _ node => Int32.ofInt (((childText node).bind strtoll).getD 0)) members fun _ _ _ => rfl]
    exact object.timeout_eq
  generalize gatheredHook object.nodes = hook at path args env timeout
  cases hook
  cases path
  cases args
  cases env
  cases timeout
  rfl

theorem build_nodes : Scan.build hookComplete fillHook object.nodes = some [object.hook] := by
  have same : Scan.gathered fillHook object.nodes = object.hook := object.gathered_nodes
  have whole : hookComplete (Scan.gathered fillHook object.nodes) = true := by
    rw [same]
    simpa [hookComplete, Buffer.isSet, hook] using object.present
  rw [Scan.build_of_complete fillHook_eq object.noticed whole, same]

end HookObject

section Lists

def listRead (node : GNode) (saved : List Hook) : Bool × List Hook :=
  collect (Scan.build hookComplete fillHook) saved (groups node.children)

def isList (name : String) (node : GNode) : Bool := node.hasChildren && node.data == some name

def listWith (name : String) (saved : List Hook) (node : GNode) : List Hook :=
  if isList name node then (listRead node saved).2 else saved

def hooksWith (hooks : Hooks) (node : GNode) : Hooks where
  prestart := listWith "prestart" hooks.prestart node
  poststart := listWith "poststart" hooks.poststart node
  poststop := listWith "poststop" hooks.poststop node

def refusesList (node : GNode) : Bool := isHookList node && !(listRead node []).1

variable {node : GNode}

theorem listRead_accepts (node : GNode) (saved : List Hook) :
    (listRead node saved).1 = (listRead node []).1 := by
  rw [Bool.eq_iff_iff, ← not_iff_not, Bool.not_eq_true, Bool.not_eq_true, listRead, listRead,
    collect_refuses_iff, collect_refuses_iff]

theorem isHookList_eq (node : GNode) :
    isHookList node = (isList "prestart" node || isList "poststart" node || isList "poststop" node) := by
  cases value : node.hasChildren with
  | false => simp [isHookList, isList, value]
  | true =>
    cases named : node.data with
    | none => simp [isHookList, isList, named]
    | some name =>
      simp [isHookList, isList, value, named, hookLists, Bool.or_assoc, beq_eq_decide]

theorem collect_eq (hooks : Hooks) (node : GNode) (saved : List Hook) :
    HookScan.collect ⟨none, false, hooks⟩ node saved = Scan.outcome (listRead node saved) :=
  Scan.save_foldl_visit node.children saved

theorem handleHooksSection_eq (hooks : Hooks) (node : GNode) :
    handleHooksSection ⟨none, false, hooks⟩ node = ⟨none, refusesList node, hooksWith hooks node⟩ := by
  cases value : node.hasChildren with
  | false =>
    have apart (name : String) : isList name node = false := by simp [isList, value]
    rw [handleHooksSection, if_pos (by simp [value])]
    simp [refusesList, isHookList_eq, hooksWith, listWith, apart]
  | true =>
    have kind (name : String) : isList name node = decide (node.data = some name) := by
      rw [isList, value, Bool.true_and, beq_eq_decide]
    rw [handleHooksSection, if_neg (by simp [value])]
    dsimp only
    rw [collect_eq, collect_eq, collect_eq]
    simp only [refusesList, isHookList_eq, hooksWith, listWith, kind, Scan.outcome]
    split
    · next same => simp [same, listRead_accepts node hooks.prestart]
    · next noPrestart =>
      split
      · next same => simp [same, listRead_accepts node hooks.poststart]
      · next noPoststart =>
        split
        · next same => simp [same, listRead_accepts node hooks.poststop]
        · next noPoststop => simp [noPrestart, noPoststart, noPoststop]

theorem foldl_hooks {nodes : List GNode} (fine : ∀ node ∈ nodes, refusesList node = false)
    (hooks : Hooks) :
    nodes.foldl handleHooksSection ⟨none, false, hooks⟩ =
      ⟨none, false, nodes.foldl hooksWith hooks⟩ := by
  induction nodes generalizing hooks with
  | nil => rfl
  | cons node nodes ih =>
    obtain ⟨here, later⟩ := List.forall_mem_cons.mp fine
    rw [List.foldl_cons, handleHooksSection_eq, here, ih later, List.foldl_cons]

theorem foldl_hooks_stopped (nodes : List GNode) (hooks : Hooks) :
    nodes.foldl handleHooksSection ⟨none, true, hooks⟩ = ⟨none, true, hooks⟩ := by
  induction nodes with
  | nil => rfl
  | cons node nodes ih => rw [List.foldl_cons, handleHooksSection_error, ih]

theorem foldl_hooks_error (nodes : List GNode) (hooks : Hooks) :
    (nodes.foldl handleHooksSection ⟨none, false, hooks⟩).error = nodes.any refusesList := by
  induction nodes generalizing hooks with
  | nil => rfl
  | cons node nodes ih =>
    rw [List.foldl_cons, handleHooksSection_eq, List.any_cons]
    cases refusesList node with
    | false => exact ih (hooksWith hooks node)
    | true => rw [foldl_hooks_stopped, Bool.true_or]

end Lists

structure HooksObject extends JsonObject where
  prestart : Option (List HookObject)
  poststart : Option (List HookObject)
  poststop : Option (List HookObject)
  hasPrestart : toJsonObject.member? "prestart" =
    prestart.map fun hooks => .array (hooks.map fun hook => hook.json)
  hasPoststart : toJsonObject.member? "poststart" =
    poststart.map fun hooks => .array (hooks.map fun hook => hook.json)
  hasPoststop : toJsonObject.member? "poststop" =
    poststop.map fun hooks => .array (hooks.map fun hook => hook.json)

def listed (objects : Option (List HookObject)) : List Hook := (objects.getD []).map HookObject.hook

def HooksObject.appendTo (object : HooksObject) (hooks : Hooks) : Hooks where
  prestart := hooks.prestart ++ listed object.prestart
  poststart := hooks.poststart ++ listed object.poststart
  poststop := hooks.poststop ++ listed object.poststop

namespace HooksObject
variable (object : HooksObject)

theorem listRead_objects (name : String) (hooks : List HookObject) (saved : List Hook) :
    listRead (memberNode (name, .array (hooks.map fun hook => hook.json))) saved =
      (true, saved ++ hooks.map HookObject.hook) := by
  have split : groups (jsonParseElements (hooks.map fun hook => hook.json)) =
      [] :: hooks.map fun hook => hook.nodes := by
    have known := JsonObject.groups_objects (hooks.map HookObject.toJsonObject)
    rwa [List.map_map, List.map_map] at known
  have begun : Scan.build hookComplete fillHook [] = some [] := rfl
  rw [listRead, memberNode, GNode.children_node, jsonParseAux, split, collect, begun]
  dsimp only
  rw [List.append_nil]
  exact collect_map (fun (hook : HookObject) _ => hook.build_nodes) saved

theorem list_read {name : String} {hooks : Option (List HookObject)} (saved : List Hook)
    (given : object.member? name = hooks.map fun hooks => .array (hooks.map fun hook => hook.json)) :
    (valued name object.nodes).foldl (fun saved node => (listRead node saved).2) saved =
      saved ++ listed hooks := by
  rw [JsonObject.valued_nodes, given]
  cases hooks with
  | none => simp [listed]
  | some hooks =>
    rw [Option.map_some, Option.map_some, Option.toList_some]
    cases hooks with
    | nil => simp [listed, memberNode, jsonParseAux, jsonParseElements, GNode.hasChildren]
    | cons hook hooks =>
      have kept : [memberNode (name, .array ((hook :: hooks).map fun hook => hook.json))].filter
          GNode.hasChildren =
            [memberNode (name, .array ((hook :: hooks).map fun hook => hook.json))] := by
        rw [List.map_cons, memberNode, jsonParseAux, jsonParseElements, JsonObject.json, jsonParseAux]
        rfl
      rw [kept, List.foldl_cons, List.foldl_nil, listRead_objects]
      rfl

theorem list_accepted {name : String} {hooks : Option (List HookObject)} {node : GNode}
    (given : object.member? name = hooks.map fun hooks => .array (hooks.map fun hook => hook.json))
    (member : node ∈ object.nodes) (kind : isList name node = true) : (listRead node []).1 = true := by
  have found : node ∈ valued name object.nodes := List.mem_filter.mpr ⟨member, kind⟩
  rw [JsonObject.valued_nodes, given] at found
  have same := List.mem_of_mem_filter found
  cases hooks with
  | none => cases same
  | some hooks =>
    rw [Option.map_some, Option.map_some, Option.toList_some, List.mem_singleton] at same
    rw [same, listRead_objects]

theorem nodes_fine : ∀ node ∈ object.nodes, refusesList node = false := by
  intro node member
  rw [refusesList, isHookList_eq, Bool.and_eq_false_iff, Bool.or_eq_false_iff, Bool.or_eq_false_iff]
  cases prestart : isList "prestart" node with
  | true => simp [object.list_accepted object.hasPrestart member prestart]
  | false =>
    cases poststart : isList "poststart" node with
    | true => simp [object.list_accepted object.hasPoststart member poststart]
    | false =>
      cases poststop : isList "poststop" node with
      | true => simp [object.list_accepted object.hasPoststop member poststop]
      | false => simp

theorem foldl_hooksWith (hooks : Hooks) : object.nodes.foldl hooksWith hooks = object.appendTo hooks := by
  have own (name : String) (part : Hooks → List Hook) (writes : ∀ hooks node,
      part (hooksWith hooks node) = listWith name (part hooks) node) :
      part (object.nodes.foldl hooksWith hooks) =
        (valued name object.nodes).foldl (fun saved node => (listRead node saved).2) (part hooks) :=
    foldl_filter writes object.nodes hooks
  have prestart := own "prestart" (fun hooks => hooks.prestart) fun _ _ => rfl
  have poststart := own "poststart" (fun hooks => hooks.poststart) fun _ _ => rfl
  have poststop := own "poststop" (fun hooks => hooks.poststop) fun _ _ => rfl
  rw [object.list_read _ object.hasPrestart] at prestart
  rw [object.list_read _ object.hasPoststart] at poststart
  rw [object.list_read _ object.hasPoststop] at poststop
  generalize object.nodes.foldl hooksWith hooks = found at prestart poststart poststop
  cases found
  cases prestart
  cases poststart
  cases poststop
  rfl

/-- The section takes the hooks of every list, in order, and nothing else. -/
theorem hooksHandleSection_object (name : Option String) (parse : Parse)
    (idle : parse.statics.currentHook = none) :
    hooksHandleSection (.node name (jsonParseAux object.json false)) parse =
      (true, parse.setOci { parse.config.oci with hooks := object.appendTo parse.config.oci.hooks }) := by
  have nodes : jsonParseAux object.json false = GNode.separator :: object.nodes := by
    rw [JsonObject.json, jsonParseAux, JsonObject.jsonParseMembers_eq_nodes]
  have first : handleHooksSection ⟨none, false, parse.config.oci.hooks⟩ GNode.separator =
      ⟨none, false, parse.config.oci.hooks⟩ := handleHooksSection_other rfl
  have kept : parse.statics = { parse.statics with currentHook := none } := by rw [← idle]
  rw [hooksHandleSection, GNode.children_node, nodes, idle, List.foldl_cons, first,
    foldl_hooks object.nodes_fine, object.foldl_hooksWith]
  simp only [Parse.setOci, Bool.not_false]
  rw [← kept]

end HooksObject

def notifyObject : HookObject where
  members :=
    [("timeout", .int (-5)), ("env", .array ([].map .string)), ("path", .string "/bin/notify"),
      ("args", .array (["notify", ""].map .string))]
  distinct := by decide
  path := "/bin/notify"
  args := some ["notify", ""]
  env := some []
  timeout := some (-5)
  present := by decide
  short := by decide
  hasPath := rfl
  hasArgs := rfl
  hasEnv := rfl
  hasTimeout := rfl

def notifyingObject : HooksObject where
  members := [("poststop", .array ([notifyObject, notifyObject].map fun hook => hook.json))]
  distinct := by decide
  prestart := none
  poststart := none
  poststop := some [notifyObject, notifyObject]
  hasPrestart := rfl
  hasPoststart := rfl
  hasPoststop := rfl

theorem hooksHandleSection_notifying :
    let parse : Parse := { config := {} }
    hooksHandleSection (.node (some "hooks") (jsonParseAux notifyingObject.json false)) parse =
      (true, parse.setOci { parse.config.oci with
        hooks := { poststop := [notifyObject.hook, notifyObject.hook] } }) :=
  notifyingObject.hooksHandleSection_object (some "hooks") { config := {} } rfl

end ClrOci
