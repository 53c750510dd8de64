import ClrOci.SpecHandlers
import ClrOci.Foundation.Grouping
import ClrOci.Foundation.LastWrite

/-! Items that a section handler builds from a flattened array.

The flattened objects are groups of nodes between separators. A group yields an item
if one of its members has a value, and what a part of the item holds is up to the
members of one name.
-/

set_option autoImplicit false

namespace ClrOci

open Foundation

def isSeparator (node : GNode) : Bool := node.data.isNone

def groups (nodes : List GNode) : List (List GNode) := nodes.splitOnP isSeparator

/-- Whether a group has a member with a value, so that its item is begun. -/
def isNoticed (group : List GNode) : Bool := group.any GNode.hasChildren

def valued (name : String) (group : List GNode) : List GNode :=
  group.filter fun node => node.hasChildren && node.data == some name

namespace Scan
variable {A : Type} [Inhabited A] {complete : A → Bool} {fill : String → GNode → A → Option A}

variable (complete fill) in
def absorb (current : Option A) (node : GNode) : Option (Option A) :=
  if node.hasChildren then (fill (node.data.getD "") node (current.getD default)).map some
  else some current

variable (complete) in
def finish : Option A → Option (List A)
  | none => some []
  | some item => if complete item then some [item] else none

variable (complete fill) in
def build (group : List GNode) : Option (List A) :=
  (group.foldlM (absorb fill) none).bind (finish complete)

def outcome (found : Bool × List A) : Scan A := ⟨none, !found.1, found.2⟩

omit [Inhabited A] in
theorem save_eq_outcome (current : Option A) (saved : List A) :
    (Scan.mk current false saved).save complete = outcome (join saved (finish complete current)) := by
  cases current with
  | none => simp [save, finish, join, outcome]
  | some item =>
    simp only [save, finish]
    split <;> simp [join, outcome]

theorem visit_error {scan : Scan A} (error : scan.error = true) (node : GNode) :
    scan.visit complete fill node = scan := by
  rw [visit, if_pos error]

theorem foldl_visit_error {scan : Scan A} (error : scan.error = true) (nodes : List GNode) :
    nodes.foldl (visit complete fill) scan = scan := by
  induction nodes with
  | nil => rfl
  | cons node nodes ih => rw [List.foldl_cons, visit_error error, ih]

theorem visit_separator {current : Option A} {saved : List A} {node : GNode}
    (parts : isSeparator node = true) :
    (Scan.mk current false saved).visit complete fill node =
      (Scan.mk current false saved).save complete := by
  rw [visit, if_neg (by simp), Option.isNone_iff_eq_none.mp parts]

theorem visit_member {current : Option A} {saved : List A} {node : GNode}
    (member : isSeparator node = false) :
    (Scan.mk current false saved).visit complete fill node =
      (absorb fill current node).elim ⟨none, true, saved⟩ fun current => ⟨current, false, saved⟩ := by
  obtain ⟨name, named⟩ := Option.isSome_iff_exists.mp (by simpa [isSeparator] using member)
  rw [visit, if_neg (by simp), named, absorb, named, Option.getD_some]
  dsimp only
  split
  · cases fill name node (current.getD default) <;> rfl
  · rfl

def Settled (scan : Scan A) : Prop := scan.error = true → scan.current = none

omit [Inhabited A] in
theorem save_current (scan : Scan A) : (scan.save complete).current = none := by
  unfold save
  split
  · next none => exact none
  · split <;> rfl

omit [Inhabited A] in
theorem save_settled (scan : Scan A) : (scan.save complete).Settled := fun _ => save_current scan

theorem visit_settled (scan : Scan A) (node : GNode) (settled : scan.Settled) :
    (scan.visit complete fill node).Settled := by
  unfold visit
  split
  · exact settled
  · next fine =>
    split
    · exact save_settled scan
    · split
      · split
        · exact fun error => absurd error fine
        · exact fun _ => rfl
      · exact settled

theorem save_foldl_members {group : List GNode} (members : ∀ node ∈ group, isSeparator node = false)
    (current : Option A) (saved : List A) :
    (group.foldl (visit complete fill) ⟨current, false, saved⟩).save complete =
      outcome (join saved ((group.foldlM (absorb fill) current).bind (finish complete))) := by
  induction group generalizing current with
  | nil => exact save_eq_outcome current saved
  | cons node group ih =>
    obtain ⟨here, later⟩ := List.forall_mem_cons.mp members
    rw [List.foldl_cons, visit_member here, List.foldlM_cons, Option.bind_eq_bind]
    cases absorb fill current node with
    | none =>
      rw [foldl_visit_error rfl]
      rfl
    | some current => exact ih later current

/-- A handler collects what it builds from the groups, up to one that it cannot build. -/
theorem save_foldl_visit (nodes : List GNode) (saved : List A) :
    (nodes.foldl (visit complete fill) ⟨none, false, saved⟩).save complete =
      outcome (collect (build complete fill) saved (groups nodes)) := by
  have closes (scan : Scan A) (node : GNode) (settled : scan.Settled)
      (parts : isSeparator node = true) : scan.visit complete fill node = scan.save complete := by
    obtain ⟨current, error, saved⟩ := scan
    cases error with
    | false => exact visit_separator parts
    | true =>
      have empty : current = none := settled rfl
      rw [visit_error rfl, empty]
      rfl
  have stuck (saved : List A) (group : List GNode) :
      (group.foldl (visit complete fill) (outcome (false, saved))).save complete =
        outcome (false, saved) := by
    rw [foldl_visit_error rfl]
    rfl
  exact close_foldl_eq_collect visit_settled closes
    (fun saved group members => save_foldl_members members none saved) stuck nodes (fun _ => rfl)

section Parts
variable {B : Type} {part : A → B} {name : String} {write : B → GNode → B} {group : List GNode}

variable (fill part name write) in
structure Owns : Prop where
  own : ∀ node item filled, fill name node item = some filled → part filled = write (part item) node
  others : ∀ other node item filled, other ≠ name → fill other node item = some filled →
    part filled = part item

omit [Inhabited A] in
theorem Owns.of_total {filledBy : String → GNode → A → A}
    (fills : ∀ other node item, fill other node item = some (filledBy other node item))
    (writes : ∀ other node item, part (filledBy other node item) =
      if other = name then write (part item) node else part item) : Owns fill part name write where
  own node item filled done := by
    rw [fills] at done
    cases done
    rw [writes, if_pos rfl]
  others other node item filled differ done := by
    rw [fills] at done
    cases done
    rw [writes, if_neg differ]

variable (fill) in
def gathered (group : List GNode) : A := ((group.foldlM (absorb fill) none).bind id).getD default

theorem absorb_isSome {current found : Option A} {node : GNode}
    (run : absorb fill current node = some found) :
    found.isSome = (current.isSome || node.hasChildren) := by
  unfold absorb at run
  cases value : node.hasChildren with
  | true =>
    rw [if_pos value] at run
    obtain ⟨item, -, rfl⟩ := Option.map_eq_some_iff.mp run
    simp
  | false =>
    rw [if_neg (by simp [value])] at run
    cases run
    simp

theorem noticed_of_absorbed {current found : Option A}
    (run : group.foldlM (absorb fill) current = some found) :
    found.isSome = (current.isSome || isNoticed group) := by
  induction group generalizing current with
  | nil =>
    cases run
    simp [isNoticed]
  | cons node group ih =>
    rw [List.foldlM_cons, Option.bind_eq_bind, Option.bind_eq_some_iff] at run
    obtain ⟨middle, first, rest⟩ := run
    rw [ih rest, absorb_isSome first, Bool.or_assoc]
    rfl

theorem Owns.absorb (owns : Owns fill part name write) {current found : Option A} {node : GNode}
    (member : isSeparator node = false) (run : Scan.absorb fill current node = some found) :
    part (found.getD default) =
      if node.hasChildren && node.data == some name then write (part (current.getD default)) node
      else part (current.getD default) := by
  obtain ⟨other, named⟩ := Option.isSome_iff_exists.mp (by simpa [isSeparator] using member)
  unfold Scan.absorb at run
  cases value : node.hasChildren with
  | true =>
    rw [if_pos value, named, Option.getD_some] at run
    obtain ⟨filled, fills, rfl⟩ := Option.map_eq_some_iff.mp run
    by_cases same : other = name
    · subst same
      rw [if_pos (by simp [named])]
      exact owns.own node _ filled fills
    · rw [if_neg (by simp [named, same])]
      exact owns.others other node _ filled same fills
  | false =>
    rw [if_neg (by simp [value])] at run
    cases run
    rfl

theorem Owns.absorbed (owns : Owns fill part name write) {current found : Option A}
    (members : ∀ node ∈ group, isSeparator node = false)
    (run : group.foldlM (Scan.absorb fill) current = some found) :
    part (found.getD default) = (valued name group).foldl write (part (current.getD default)) := by
  have writes : ∀ node ∈ group, ∀ current found, Scan.absorb fill current node = some found →
      part (found.getD default) =
        if node.hasChildren && node.data == some name then write (part (current.getD default)) node
        else part (current.getD default) :=
    fun node member _ _ step => owns.absorb (members node member) step
  exact foldlM_filter writes run

section Total
variable {filledBy : String → GNode → A → A}
  (total : ∀ name node item, fill name node item = some (filledBy name node item))
include total

theorem absorbs (group : List GNode) (current : Option A) :
    ∃ found, group.foldlM (absorb fill) current = some found := by
  induction group generalizing current with
  | nil => exact ⟨current, rfl⟩
  | cons node group ih =>
    have absorbed : (absorb fill current node).isSome = true := by
      unfold absorb
      split
      · rw [total]
        rfl
      · rfl
    obtain ⟨next, stepped⟩ := Option.isSome_iff_exists.mp absorbed
    rw [List.foldlM_cons, Option.bind_eq_bind, stepped]
    exact ih next

theorem Owns.gathered (owns : Owns fill part name write)
    (members : ∀ node ∈ group, isSeparator node = false) :
    part (Scan.gathered fill group) = (valued name group).foldl write (part default) := by
  obtain ⟨found, run⟩ := absorbs total group none
  have same : Scan.gathered fill group = found.getD default := by
    rw [Scan.gathered, run]
    rfl
  rw [same]
  exact owns.absorbed members run

theorem build_of_total (group : List GNode) :
    build complete fill group =
      if isNoticed group then
        if complete (Scan.gathered fill group) then some [Scan.gathered fill group] else none
      else some [] := by
  obtain ⟨found, run⟩ := absorbs total group none
  have noticed := noticed_of_absorbed run
  rw [build, Scan.gathered, run]
  cases found with
  | none =>
    rw [if_neg (by simpa using noticed.symm)]
    rfl
  | some item =>
    rw [if_pos (by simpa using noticed.symm)]
    rfl

theorem build_of_complete {group : List GNode} (noticed : isNoticed group = true)
    (whole : complete (Scan.gathered fill group) = true) :
    build complete fill group = some [Scan.gathered fill group] := by
  rw [build_of_total total, if_pos noticed, if_pos whole]

theorem build_eq_none_iff (group : List GNode) :
    build complete fill group = none ↔
      isNoticed group = true ∧ complete (Scan.gathered fill group) = false := by
  rw [build_of_total total]
  cases isNoticed group <;> cases complete (Scan.gathered fill group) <;> simp

end Total

end Parts

variable (complete fill) in
theorem saveLast_eq (nodes : List GNode) (saved : List A) :
    let scan := nodes.foldl (visit complete fill) ⟨none, false, saved⟩
    (if scan.error then scan else scan.save complete) =
      outcome (collect (build complete fill) saved (groups nodes)) := by
  intro scan
  have settled : scan.Settled := foldl_kept visit_settled nodes (fun _ => rfl)
  rw [← save_foldl_visit]
  split
  · next error =>
    have empty := settled error
    unfold save
    rw [empty]
  · rfl

end Scan

def memberNode (member : String × Json) : GNode := .node (some member.1) (jsonParseAux member.2 false)

def textNode (text : String) : GNode := .node (some text) [GNode.separator]

def vectorOf (texts : Option (List String)) : Option (List String) := texts.filter (· ≠ [])

structure JsonObject where
  members : List (String × Json)
  distinct : (members.map Prod.fst).Nodup

namespace JsonObject

def json (object : JsonObject) : Json := .object object.members

def member? (object : JsonObject) (name : String) : Option Json := object.members.lookup name

def nodes (object : JsonObject) : List GNode := object.members.map memberNode

theorem jsonParseMembers_eq_nodes (object : JsonObject) :
    jsonParseMembers object.members = object.nodes := by
  have names := jsonParseMembers_map Prod.fst Prod.snd object.members
  rwa [List.map_id'] at names

theorem nodes_members (object : JsonObject) : ∀ node ∈ object.nodes, isSeparator node = false := by
  intro node member
  obtain ⟨entry, -, rfl⟩ := List.mem_map.mp member
  rfl

theorem valued_nodes (object : JsonObject) (name : String) :
    valued name object.nodes =
      ((object.member? name).map fun value => memberNode (name, value)).toList.filter
        GNode.hasChildren := by
  obtain ⟨members, distinct⟩ := object
  change valued name (members.map memberNode) =
    ((members.lookup name).map fun value => memberNode (name, value)).toList.filter GNode.hasChildren
  induction members with
  | nil => rfl
  | cons member members ih =>
    obtain ⟨fresh, others⟩ := List.nodup_cons.mp distinct
    obtain ⟨other, value⟩ := member
    have split : valued name (((other, value) :: members).map memberNode) =
        valued name [memberNode (other, value)] ++ valued name (members.map memberNode) := by
      rw [valued, List.map_cons, ← List.singleton_append, List.filter_append]
      rfl
    by_cases same : other = name
    · subst same
      have absent : valued other (members.map memberNode) = [] := by
        rw [valued, List.filter_eq_nil_iff]
        intro node member
        obtain ⟨entry, found, rfl⟩ := List.mem_map.mp member
        have differ : entry.1 ≠ other := by
          intro same
          exact fresh (List.mem_map.mpr ⟨entry, found, same⟩)
        simp [memberNode, differ]
      rw [split, absent, List.lookup_cons_self, List.append_nil]
      simp [valued, memberNode, List.filter_singleton]
    · have skipped : valued name [memberNode (other, value)] = [] := by
        simp [valued, memberNode, same]
      have next : ((other, value) :: members).lookup name = members.lookup name := by
        rw [List.lookup_cons, beq_false_of_ne (Ne.symm same)]
      rw [split, skipped, next]
      exact ih others

def value? (object : JsonObject) (name : String) : Option GNode :=
  ((object.member? name).map fun value => memberNode (name, value)).filter GNode.hasChildren

theorem valued_eq (object : JsonObject) (name : String) :
    valued name object.nodes = (object.value? name).toList := by
  rw [valued_nodes, value?]
  cases (object.member? name).map fun value => memberNode (name, value) with
  | none => rfl
  | some node => cases filled : node.hasChildren <;> simp [filled, Option.filter]

theorem valued_string {object : JsonObject} {name text : String}
    (given : object.member? name = some (.string text)) :
    valued name object.nodes = [.node (some name) [GNode.leaf (some text)]] := by
  rw [valued_nodes, given, Option.map_some, memberNode, jsonParseAux]
  rfl

theorem valued_strings {object : JsonObject} {name : String} {texts : Option (List String)}
    (given : object.member? name = texts.map fun texts => .array (texts.map .string)) :
    valued name object.nodes =
      (vectorOf texts).toList.map fun texts => .node (some name) (texts.map textNode) := by
  rw [valued_nodes, given]
  cases texts with
  | none => rfl
  | some texts =>
    have node : memberNode (name, .array (texts.map .string)) = .node (some name) (texts.map textNode) := by
      rw [memberNode, jsonParseAux, jsonParseElements_strings]
      rfl
    rw [Option.map_some, Option.map_some, node, Option.toList_some]
    cases texts <;> rfl

theorem groups_objects (objects : List JsonObject) :
    groups (jsonParseElements (objects.map json)) = [] :: objects.map nodes := by
  have blocks : jsonParseElements (objects.map json) =
      (objects.map nodes).flatMap (GNode.separator :: ·) := by
    induction objects with
    | nil => rw [List.map_nil, jsonParseElements]; rfl
    | cons object objects ih =>
      rw [List.map_cons, jsonParseElements, ih, json, jsonParseAux, jsonParseMembers_eq_nodes]
      rfl
  rw [blocks]
  apply splitOnP_blocks rfl
  intro block member
  obtain ⟨object, -, rfl⟩ := List.mem_map.mp member
  exact nodes_members object

end JsonObject

end ClrOci
