import ClrOci.HooksSection
import ClrOci.MountsSection

/-! When the section handlers refuse an object that lacks a required member. -/

set_option autoImplicit false

namespace ClrOci

open Foundation

/-- A section with a member that is an array of objects, whatever the other members are. -/
structure ObjectArray (name : String) extends JsonObject where
  objects : List JsonObject
  found : toJsonObject.member? name = some (.array (objects.map JsonObject.json))

namespace JsonObject

def noticed (object : JsonObject) : Bool :=
  object.members.any fun member => !(jsonParseAux member.2 false).isEmpty

def text? (object : JsonObject) (name : String) : Option String :=
  (object.member? name).bind fun value => childText (memberNode (name, value))

theorem noticed_eq (object : JsonObject) : isNoticed object.nodes = object.noticed := by
  rw [isNoticed, nodes, List.any_map, noticed]
  rfl

theorem valued_text (object : JsonObject) (name : String) :
    (valued name object.nodes).foldl (fun _ node => childText node) none = object.text? name := by
  rw [valued_nodes, text?]
  cases object.member? name with
  | none => rfl
  | some value =>
    rw [Option.map_some, Option.bind_some, Option.toList_some]
    cases filled : (memberNode (name, value)).hasChildren with
    | true => rw [List.filter_cons_of_pos filled]; rfl
    | false =>
      have empty : (memberNode (name, value)).children = [] := by
        simpa [GNode.hasChildren] using filled
      rw [List.filter_cons_of_neg (by simp [filled]), childText, GNode.childData?, empty]
      rfl

end JsonObject

section Mounts

def mountMembers : List String := ["destination", "type", "source"]

def mountsVerdict (config : Config) (objects : List JsonObject) : Bool :=
  (mountsHandleSection
    (.node (some "mounts") (jsonParseAux (.array (objects.map JsonObject.json)) false))
    { config := config }).1

def LacksMountMember (object : JsonObject) : Prop :=
  ∃ name ∈ mountMembers, object.member? name = none

def BrokenMount (object : JsonObject) : Prop :=
  object.noticed = true ∧ ∃ name ∈ mountMembers, object.text? name = none

theorem mount_refused_iff (object : JsonObject) :
    Scan.build mountComplete fillMount object.nodes = none ↔ BrokenMount object := by
  have members := object.nodes_members
  have dir := gatheredMount_text members (fun mount => mount.entry.dir) (fun _ _ _ => rfl) rfl
  have type := gatheredMount_text members (fun mount => mount.entry.type) (fun _ _ _ => rfl) rfl
  have source := gatheredMount_text members (fun mount => mount.entry.fsname) (fun _ _ _ => rfl) rfl
  rw [JsonObject.valued_text] at dir type source
  have complete : mountComplete (Scan.gathered fillMount object.nodes) =
      mountMembers.all fun name => (object.text? name).isSome := by
    simp only [mountMembers, List.all_cons, List.all_nil, Bool.and_true, ← dir, ← type, ← source,
      ← Bool.and_assoc]
    rfl
  rw [Scan.build_eq_none_iff fillMount_eq, complete, JsonObject.noticed_eq, BrokenMount]
  simp

theorem mountsVerdict_refuses_iff (config : Config) (objects : List JsonObject) :
    mountsVerdict config objects = false ↔
      config.oci.mounts = [] ∧ ∃ object ∈ objects, BrokenMount object := by
  by_cases fresh : config.oci.mounts = []
  · have begun : Scan.build mountComplete fillMount [] ≠ none := by simp [Scan.build, Scan.finish]
    have split : groups (jsonParseAux (.array (objects.map JsonObject.json)) false) =
        [] :: objects.map JsonObject.nodes := by
      rw [jsonParseAux, JsonObject.groups_objects]
    rw [mountsVerdict, mountsHandleSection_eq fresh rfl, GNode.children_node, split,
      collect_refuses_iff]
    simp [begun, mount_refused_iff, fresh]
  · simp [mountsVerdict, mountsHandleSection, fresh]

end Mounts

section Hooks

inductive HookKind where
  | prestart | poststart | poststop
  deriving DecidableEq

def HookKind.name : HookKind → String
  | .prestart => "prestart"
  | .poststart => "poststart"
  | .poststop => "poststop"

def hooksVerdict (config : Config) (hooks : JsonObject) : Bool :=
  (hooksHandleSection (.node (some "hooks") (jsonParseAux hooks.json false)) { config := config }).1

def groupPath (group : List GNode) : String :=
  (valued "path" group).getLast?.elim "" fun node => textOrNull (childText node)

def BrokenHook (group : List GNode) : Prop := isNoticed group = true ∧ groupPath group = ""

def BrokenHooks (hooks : JsonObject) : Prop :=
  ∃ list ∈ hooks.nodes, isHookList list = true ∧ ∃ group ∈ groups list.children, BrokenHook group

theorem copy_isSet {capacity : Nat} (room : 0 < capacity) (text : String) :
    (Buffer.copy capacity text).isSet = decide (text ≠ "") := by
  obtain ⟨n, rfl⟩ := Nat.exists_eq_succ_of_ne_zero (Nat.ne_of_gt room)
  rw [Bool.eq_iff_iff, Buffer.isSet, bne_iff_ne, decide_eq_true_iff, not_iff_not, Buffer.copy,
    String.ofList_eq_empty_iff, List.take_eq_nil_iff, String.toList_eq_nil_iff]
  simp

theorem hook_refused_iff {group : List GNode} (members : ∀ node ∈ group, isSeparator node = false) :
    Scan.build hookComplete fillHook group = none ↔ BrokenHook group := by
  have path := gatheredHook_part (fun hook => hook.path) "path"
    (fun _ node => Buffer.copy _ (textOrNull (childText node))) members fun _ _ _ => rfl
  have complete : hookComplete (Scan.gathered fillHook group) = decide (groupPath group ≠ "") := by
    change (gatheredHook group).path.isSet = _
    rw [path]
    rcases (valued "path" group).eq_nil_or_concat with none | ⟨before, last, ends⟩
    · rw [groupPath, none]
      decide
    · rw [groupPath, ends, List.concat_eq_append, List.foldl_concat, copy_isSet (by decide),
        List.getLast?_concat]
      rfl
  rw [Scan.build_eq_none_iff fillHook_eq, complete, BrokenHook, decide_eq_false_iff_not, not_not]

theorem refusesList_iff (list : GNode) :
    refusesList list = true ↔
      isHookList list = true ∧ ∃ group ∈ groups list.children, BrokenHook group := by
  rw [refusesList, Bool.and_eq_true, Bool.not_eq_true', listRead, collect_refuses_iff]
  apply and_congr_right
  intro _
  apply exists_congr
  intro group
  apply and_congr_right
  intro member
  exact hook_refused_iff (not_ends_of_mem_splitOnP member)

theorem hooksVerdict_refuses_iff (config : Config) (hooks : JsonObject) :
    hooksVerdict config hooks = false ↔ BrokenHooks hooks := by
  have nodes : jsonParseAux hooks.json false = GNode.separator :: hooks.nodes := by
    rw [JsonObject.json, jsonParseAux, JsonObject.jsonParseMembers_eq_nodes]
  have first : refusesList GNode.separator = false := rfl
  rw [hooksVerdict, hooksHandleSection, GNode.children_node, nodes]
  dsimp only
  rw [foldl_hooks_error, Bool.not_eq_false', List.any_cons, first, Bool.false_or, List.any_eq_true,
    BrokenHooks]
  simp only [refusesList_iff]

end Hooks

section Namespaces

def linuxVerdict (config : Config) (linux : JsonObject) : Bool :=
  (linuxHandleSection (.node (some "linux") (jsonParseAux linux.json false)) { config := config }).1

def HasValidType (object : JsonObject) : Prop :=
  ∃ type, object.member? "type" = some (.string type) ∧ strToNs type ≠ .invalid

/-- The type has a value, of which no namespace type can be read. -/
def BrokenType (object : JsonObject) : Prop :=
  ∃ value, object.member? "type" = some value ∧ jsonParseAux value false ≠ [] ∧
    ((object.text? "type").elim .invalid strToNs) = NamespaceType.invalid

theorem fillNamespace_refuses_iff (name : String) (node : GNode) (ns : Namespace) :
    fillNamespace name node ns = none ↔
      name = "type" ∧ (childText node).elim .invalid strToNs = NamespaceType.invalid := by
  unfold fillNamespace
  split
  · next same =>
    cases childText node with
    | none => simp [same]
    | some type => by_cases bad : strToNs type = .invalid <;> simp [same, bad]
  · next other =>
    split
    · split
      · split <;> simp [other]
      · simp [other]
    · simp [other]

theorem absorb_refuses_iff (current : Option Namespace) (node : GNode) :
    Scan.absorb fillNamespace current node = none ↔
      node.hasChildren = true ∧ node.data.getD "" = "type" ∧
        (childText node).elim .invalid strToNs = NamespaceType.invalid := by
  unfold Scan.absorb
  split
  · next value => rw [Option.map_eq_none_iff, fillNamespace_refuses_iff, value]; simp
  · next none => simp [none]

theorem namespace_refused_iff (object : JsonObject) :
    Scan.build (fun _ => true) fillNamespace object.nodes = none ↔ BrokenType object := by
  have finished (current : Option Namespace) : Scan.finish (fun _ => true) current ≠ none := by
    cases current <;> simp [Scan.finish]
  have refused : Scan.build (fun _ => true) fillNamespace object.nodes = none ↔
      ∃ node ∈ valued "type" object.nodes,
        (childText node).elim .invalid strToNs = NamespaceType.invalid := by
    have named (node : GNode) (member : node ∈ object.nodes) :
        node.data.getD "" = "type" ↔ node.data = some "type" := by
      obtain ⟨entry, -, rfl⟩ := List.mem_map.mp member
      simp [memberNode]
    have build : Scan.build (fun _ => true) fillNamespace object.nodes = none ↔
        object.nodes.foldlM (Scan.absorb fillNamespace) none = none := by
      rw [Scan.build]
      cases object.nodes.foldlM (Scan.absorb fillNamespace) none with
      | none => simp
      | some current => simp [finished]
    rw [build, foldlM_eq_none_iff absorb_refuses_iff]
    apply exists_congr
    intro node
    rw [valued, List.mem_filter]
    constructor
    · rintro ⟨member, value, type, bad⟩
      exact ⟨⟨member, by simp [value, (named node member).mp type]⟩, bad⟩
    · rintro ⟨⟨member, kind⟩, bad⟩
      obtain ⟨value, type⟩ := Bool.and_eq_true_iff.mp kind
      exact ⟨member, value, (named node member).mpr (by simpa using type), bad⟩
  rw [refused, JsonObject.valued_nodes, BrokenType, JsonObject.text?]
  cases object.member? "type" with
  | none => simp
  | some value => simp [memberNode, GNode.hasChildren]

theorem foldl_namespaces (linux : ObjectArray "namespaces") (scan : Scan Namespace) :
    linux.nodes.foldl handleLinuxSection scan =
      (jsonParseElements (linux.objects.map JsonObject.json)).foldl handleNamespacesSection scan := by
  have own (scan : Scan Namespace) (node : GNode) : handleLinuxSection scan node =
      if node.hasChildren && node.data == some "namespaces" then
        node.children.foldl handleNamespacesSection scan
      else scan := by
    simp [handleLinuxSection]
  have filtered : id (linux.nodes.foldl handleLinuxSection scan) =
      (valued "namespaces" linux.nodes).foldl
        (fun scan node => node.children.foldl handleNamespacesSection scan) (id scan) :=
    foldl_filter own linux.nodes scan
  rw [id_eq, id_eq] at filtered
  rw [filtered, JsonObject.valued_nodes, linux.found, Option.map_some, Option.toList_some, memberNode,
    jsonParseAux]
  cases split : jsonParseElements (linux.objects.map JsonObject.json) with
  | nil => rfl
  | cons node nodes => rfl

theorem linuxVerdict_refuses_iff (config : Config) (linux : ObjectArray "namespaces") :
    linuxVerdict config linux.toJsonObject = false ↔ ∃ object ∈ linux.objects, BrokenType object := by
  have nodes : jsonParseAux linux.json false = GNode.separator :: linux.nodes := by
    rw [JsonObject.json, jsonParseAux, JsonObject.jsonParseMembers_eq_nodes]
  have first (scan : Scan Namespace) : handleLinuxSection scan GNode.separator = scan := rfl
  have run (scan : Scan Namespace) : (GNode.separator :: linux.nodes).foldl handleLinuxSection scan =
      (jsonParseElements (linux.objects.map JsonObject.json)).foldl handleNamespacesSection scan := by
    rw [List.foldl_cons, first, foldl_namespaces]
  have scanned := Scan.saveLast_eq (fun _ => true) fillNamespace
    (jsonParseElements (linux.objects.map JsonObject.json)) config.oci.namespaces
  have accepted : linuxVerdict config linux.toJsonObject =
      (collect (Scan.build (fun _ => true) fillNamespace) config.oci.namespaces
        ([] :: linux.objects.map JsonObject.nodes)).1 := by
    rw [JsonObject.groups_objects] at scanned
    rw [linuxVerdict, linuxHandleSection, GNode.children_node, nodes, run]
    exact (congrArg (fun scan => !scan.error) scanned).trans (Bool.not_not _)
  have begun : Scan.build (fun _ => true) fillNamespace [] ≠ none := by
    simp [Scan.build, Scan.finish]
  rw [accepted, collect_refuses_iff]
  simp [begun, namespace_refused_iff]

end Namespaces

/-- Each handler refuses a list for an object that lacks a required member exactly if no object lacks
one or an object that was begun is broken. -/
theorem sections_refuse_iff (config : Config) :
    (∀ objects : List JsonObject,
      ((∃ object ∈ objects, LacksMountMember object) → mountsVerdict config objects = false) ↔
        (∀ object ∈ objects, ¬ LacksMountMember object) ∨
          (config.oci.mounts = [] ∧ ∃ object ∈ objects, BrokenMount object)) ∧
    (∀ (kind : HookKind) (hooks : ObjectArray kind.name),
      ((∃ object ∈ hooks.objects, object.member? "path" = none) →
          hooksVerdict config hooks.toJsonObject = false) ↔
        (∀ object ∈ hooks.objects, object.member? "path" ≠ none) ∨
          BrokenHooks hooks.toJsonObject) ∧
    ∀ linux : ObjectArray "namespaces",
      ((∃ object ∈ linux.objects, ¬ HasValidType object) →
          linuxVerdict config linux.toJsonObject = false) ↔
        (∀ object ∈ linux.objects, HasValidType object) ∨
          ∃ object ∈ linux.objects, BrokenType object := by
  have split {lacks refused : Prop} : (lacks → refused) ↔ ¬ lacks ∨ refused := imp_iff_not_or
  refine ⟨fun objects => ?_, fun kind hooks => ?_, fun linux => ?_⟩
  · rw [split, mountsVerdict_refuses_iff]
    simp only [not_exists, not_and]
  · rw [split, hooksVerdict_refuses_iff]
    simp only [not_exists, not_and, ne_eq]
  · rw [split, linuxVerdict_refuses_iff]
    simp only [not_exists, not_and, not_not]

def emptyObject : JsonObject := ⟨[], List.nodup_nil⟩

def emptyHooks : ObjectArray "prestart" where
  members := [("prestart", .array [emptyObject.json])]
  distinct := by decide
  objects := [emptyObject]
  found := rfl

def untypedNamespaces : ObjectArray "namespaces" where
  members := [("namespaces", .array [emptyObject.json, .object [("path", .string "/ns")]])]
  distinct := by decide
  objects := [emptyObject, ⟨[("path", .string "/ns")], by decide⟩]
  found := rfl

/-- Empty objects and a namespace without a type are let through. -/
theorem incomplete_accepted :
    (LacksMountMember emptyObject ∧ mountsVerdict {} [emptyObject] = true) ∧
      (emptyObject.member? "path" = none ∧ hooksVerdict {} emptyHooks.toJsonObject = true) ∧
      (∃ object ∈ untypedNamespaces.objects, object.noticed = true ∧ ¬ HasValidType object) ∧
      linuxVerdict {} untypedNamespaces.toJsonObject = true := by
  have untyped : ¬ HasValidType ⟨[("path", .string "/ns")], by decide⟩ := by
    rintro ⟨type, found, -⟩
    cases found
  refine ⟨⟨⟨"type", by decide, rfl⟩, rfl⟩, ⟨rfl, rfl⟩, ⟨_, ?_, rfl, untyped⟩, rfl⟩
  exact List.mem_cons_of_mem _ List.mem_cons_self

end ClrOci
