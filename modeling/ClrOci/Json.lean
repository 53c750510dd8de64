import ClrOci.Foundation.Decimal
import ClrOci.Oci

/-! JSON documents and the tree of strings the runtime flattens them into.

A document is what json-glib hands over after parsing. Files are modelled by the
document they hold, so generating a file and parsing it again is the identity.
-/

set_option autoImplicit false

namespace ClrOci

/-- A parsed document: an `int` is what a `gint64` holds, and a `double` comes with the number that
was written. -/
inductive Json where
  | null
  | bool (value : Bool)
  | int (value : Int)
  | double (number : Foundation.Number)
  | string (value : String)
  | array (elements : List Json)
  | object (members : List (String × Json))

namespace Json

def setMember (members : List (String × Json)) (name : String) (value : Json) :
    List (String × Json) :=
  match members with
  | [] => [(name, value)]
  | member :: rest =>
    if member.1 = name then (name, value) :: rest else member :: setMember rest name value

def member? (document : Json) (name : String) : Option Json :=
  match document with
  | .object members => members.lookup name
  | _ => none

-- `json_object_set_string_member` with a NULL string writes a JSON null.
def ofString? : Option String → Json
  | none => .null
  | some text => .string text

theorem setMember_of_fresh {members : List (String × Json)} {name : String} {value : Json}
    (fresh : ∀ member ∈ members, member.1 ≠ name) :
    setMember members name value = members ++ [(name, value)] := by
  induction members with
  | nil => rfl
  | cons member rest ih =>
    have other := fresh member List.mem_cons_self
    rw [setMember, if_neg other, ih fun entry found => fresh entry (List.mem_cons_of_mem member found)]
    rfl

end Json

/-- `GNode` with string data: a missing string separates the objects of an array. -/
inductive GNode where
  | node (data : Option String) (children : List GNode)

namespace GNode

def data : GNode → Option String
  | .node data _ => data

def children : GNode → List GNode
  | .node _ children => children

def leaf (data : Option String) : GNode := .node data []

def separator : GNode := leaf none

-- `root->children->data`: no child is a read through a null pointer.
def childData? (root : GNode) : Option (Option String) := root.children.head?.map data

def hasChildren (root : GNode) : Bool := !root.children.isEmpty

@[simp] theorem data_node (data : Option String) (children : List GNode) :
    (GNode.node data children).data = data := rfl

@[simp] theorem children_node (data : Option String) (children : List GNode) :
    (GNode.node data children).children = children := rfl

end GNode

def nodeBufSize : Nat := 64

-- `clr_oci_json_string`: the text of a scalar, where a number is printed into a fixed buffer.
def jsonString : Json → String
  | .string value => value
  | .int value => toString value
  | .double number => String.ofList (number.rendering.take (nodeBufSize - 1))
  | .bool true => "true"
  | .bool false => "false"
  | _ => "Unknown type"

def scalarNode (scalar : Json) (parsingArray : Bool) : GNode :=
  .node (some (jsonString scalar)) (if parsingArray then [GNode.separator] else [])

-- `clr_oci_json_parse_aux`: the nodes appended below the current one. An object
-- starts with a separator, a scalar in an array carries one as its only child,
-- and null adds nothing.
mutual
def jsonParseAux : Json → Bool → List GNode
  | .object members, _ => GNode.separator :: jsonParseMembers members
  | .array elements, _ => jsonParseElements elements
  | .null, _ => []
  | .bool value, parsingArray => [scalarNode (.bool value) parsingArray]
  | .int value, parsingArray => [scalarNode (.int value) parsingArray]
  | .double number, parsingArray => [scalarNode (.double number) parsingArray]
  | .string value, parsingArray => [scalarNode (.string value) parsingArray]

def jsonParseMembers : List (String × Json) → List GNode
  | [] => []
  | (name, value) :: rest => .node (some name) (jsonParseAux value false) :: jsonParseMembers rest

def jsonParseElements : List Json → List GNode
  | [] => []
  | element :: rest => jsonParseAux element true ++ jsonParseElements rest
end

-- `clr_oci_json_parse` of a file that holds the document.
def jsonParse (filename : String) (document : Json) : GNode :=
  .node (some filename) (jsonParseAux document false)

theorem jsonParseElements_strings (texts : List String) :
    jsonParseElements (texts.map Json.string) =
      texts.map fun text => .node (some text) [GNode.separator] := by
  induction texts with
  | nil => rw [List.map_nil, jsonParseElements]; rfl
  | cons text rest ih =>
    rw [List.map_cons, jsonParseElements, jsonParseAux, ih]
    rfl

theorem jsonParseMembers_map {A : Type} (name : A → String) (value : A → Json) (entries : List A) :
    jsonParseMembers (entries.map fun entry => (name entry, value entry)) =
      entries.map fun entry => .node (some (name entry)) (jsonParseAux (value entry) false) := by
  induction entries with
  | nil => rw [List.map_nil, jsonParseMembers]; rfl
  | cons entry rest ih => rw [List.map_cons, jsonParseMembers, ih, List.map_cons]

end ClrOci
