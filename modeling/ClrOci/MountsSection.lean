import ClrOci.Collection

/-! What the mounts section makes of an array of mount objects. -/

set_option autoImplicit false

namespace ClrOci

open Foundation

/-- An object with the members that a mount needs, perhaps options, and whatever else. -/
structure MountObject extends JsonObject where
  destination : String
  type : String
  source : String
  options : Option (List String)
  hasDestination : toJsonObject.member? "destination" = some (.string destination)
  hasType : toJsonObject.member? "type" = some (.string type)
  hasSource : toJsonObject.member? "source" = some (.string source)
  hasOptions : toJsonObject.member? "options" = options.map fun names => .array (names.map .string)

def otherOptions (names : List String) : List String :=
  names.filter fun name => (mntFlagMap.lookup name).isNone

def MountObject.mount (object : MountObject) : Mount where
  flags := ((object.options.getD []).filterMap fun name => mntFlagMap.lookup name).foldl (· ||| ·) 0
  entry :=
    { dir := some object.destination
      type := some object.type
      fsname := some object.source
      opts :=
        let others := otherOptions (object.options.getD [])
        if others = [] then none else some (strjoin "," others) }

def withOptions (found : Nat × Option String) (node : GNode) : Nat × Option String :=
  let read := node.children.foldl handleOptionsSection (found.1, "")
  (read.1, if read.2 = "" then found.2 else some (String.ofList read.2.toList.dropLast))

def mountWith (name : String) (node : GNode) (mount : Mount) : Mount :=
  let found := (mount.flags, mount.entry.opts)
  let read := if name = "options" then withOptions found node else found
  { mount with
    flags := read.1
    entry :=
      { dir := if name = "destination" then childText node else mount.entry.dir
        type := if name = "type" then childText node else mount.entry.type
        fsname := if name = "source" then childText node else mount.entry.fsname
        opts := read.2 } }

theorem fillMount_eq (name : String) (node : GNode) (mount : Mount) :
    fillMount name node mount = some (mountWith name node mount) := by
  unfold fillMount mountWith
  split
  · next same => simp [same]
  · split
    · next same => simp [same]
    · split
      · next same => simp [same]
      · split
        · next same => simp [withOptions]
        · rfl

def gatheredMount (group : List GNode) : Mount := Scan.gathered fillMount group

section Parts
variable {group : List GNode} (members : ∀ node ∈ group, isSeparator node = false)
include members

theorem gatheredMount_text (part : Mount → Option String) {name : String}
    (writes : ∀ other node mount, part (mountWith other node mount) =
      if other = name then childText node else part mount) (unset : part {} = none) :
    part (gatheredMount group) = (valued name group).foldl (fun _ node => childText node) none := by
  have owns : Scan.Owns fillMount part name fun _ node => childText node :=
    .of_total fillMount_eq writes
  rw [← unset]
  exact owns.gathered fillMount_eq members

theorem gatheredMount_options : ((gatheredMount group).flags, (gatheredMount group).entry.opts) =
    (valued "options" group).foldl withOptions (0, none) := by
  have writes (other : String) (node : GNode) (mount : Mount) :
      ((mountWith other node mount).flags, (mountWith other node mount).entry.opts) =
        if other = "options" then withOptions (mount.flags, mount.entry.opts) node
        else (mount.flags, mount.entry.opts) := by
    by_cases same : other = "options" <;> simp [mountWith, same]
  have owns : Scan.Owns fillMount (fun mount => (mount.flags, mount.entry.opts)) "options" withOptions :=
    .of_total fillMount_eq writes
  exact owns.gathered fillMount_eq members

theorem gatheredMount_unresolved :
    ((gatheredMount group).dest, (gatheredMount group).ignoreMount) = (Buffer.empty, false) := by
  have owns : Scan.Owns fillMount (fun mount => (mount.dest, mount.ignoreMount)) ""
      (fun kept _ => kept) := .of_total fillMount_eq fun _ _ _ => (ite_self _).symm
  have written := owns.gathered fillMount_eq members
  rw [List.foldl_fixed] at written
  exact written

end Parts

section Options

def commaEnded (words : List String) : String := String.join (words.map (· ++ ","))

theorem mountGetFlagValue_some (name : String) :
    mountGetFlagValue (some name) = (mntFlagMap.lookup name).getD 0 := rfl

theorem flag_ne_zero {name : String} {flag : Nat} (found : mntFlagMap.lookup name = some flag) :
    flag ≠ 0 := by
  have table : ∀ entry ∈ mntFlagMap, entry.2 ≠ 0 := by decide
  obtain ⟨before, after, split, -⟩ := List.lookup_eq_some_iff.mp found
  exact table (name, flag) (split ▸ List.mem_append_right before List.mem_cons_self)

theorem options_read (names : List String) (flags : Nat) (others : String) :
    (names.map textNode).foldl handleOptionsSection (flags, others) =
      ((names.filterMap fun name => mntFlagMap.lookup name).foldl (· ||| ·) flags,
        others ++ commaEnded (otherOptions names)) := by
  induction names generalizing flags others with
  | nil => simp [commaEnded, otherOptions]
  | cons name names ih =>
    rw [List.map_cons, List.foldl_cons]
    cases found : mntFlagMap.lookup name with
    | some flag =>
      have step : handleOptionsSection (flags, others) (textNode name) = (flags ||| flag, others) := by
        simp [handleOptionsSection, textNode, mountGetFlagValue_some, found, flag_ne_zero found]
      rw [step, ih]
      simp [otherOptions, found]
    | none =>
      have step : handleOptionsSection (flags, others) (textNode name) =
          (flags, others ++ name ++ ",") := by
        simp [handleOptionsSection, textNode, mountGetFlagValue_some, found, textOrNull]
      rw [step, ih]
      simp [otherOptions, found, commaEnded, String.append_assoc]

theorem commaEnded_visible {words : List String} (some : words ≠ []) : commaEnded words ≠ "" := by
  obtain ⟨word, rest, rfl⟩ := List.exists_cons_of_ne_nil some
  simp [commaEnded]

theorem dropLast_commaEnded {words : List String} (some : words ≠ []) :
    String.ofList (commaEnded words).toList.dropLast = strjoin "," words := by
  induction words with
  | nil => exact absurd rfl some
  | cons word words ih =>
    by_cases last : words = []
    · subst last
      simp [commaEnded, strjoin]
    · have visible : (commaEnded words).toList ≠ [] := by simpa using commaEnded_visible last
      have split : commaEnded (word :: words) = word ++ "," ++ commaEnded words := by
        simp [commaEnded]
      rw [strjoin_cons_of_ne_nil last, ← ih last, split, String.toList_append,
        List.dropLast_append_of_ne_nil visible]
      simp [String.append_assoc]

end Options

namespace MountObject
variable (object : MountObject)

theorem noticed : isNoticed object.nodes = true := by
  have member : GNode.node (some "destination") [GNode.leaf (some object.destination)] ∈
      valued "destination" object.nodes := by
    rw [JsonObject.valued_string object.hasDestination]
    exact List.mem_singleton_self _
  exact List.any_eq_true.mpr ⟨_, List.mem_of_mem_filter member, rfl⟩

theorem withOptions_names (names : List String) :
    withOptions (0, none) (.node (some "options") (names.map textNode)) =
      ((names.filterMap fun name => mntFlagMap.lookup name).foldl (· ||| ·) 0,
        if otherOptions names = [] then none else some (strjoin "," (otherOptions names))) := by
  have read := options_read names 0 ""
  rw [String.empty_append] at read
  rw [withOptions, GNode.children_node, read]
  dsimp only
  by_cases none : otherOptions names = []
  · rw [none, if_pos rfl, if_pos (by rfl)]
  · rw [if_neg none, if_neg (commaEnded_visible none), dropLast_commaEnded none]

theorem options_eq : (valued "options" object.nodes).foldl withOptions (0, none) =
    (object.mount.flags, object.mount.entry.opts) := by
  rw [JsonObject.valued_strings object.hasOptions]
  cases given : object.options with
  | none => simp [mount, given, otherOptions, vectorOf]
  | some names =>
    cases names with
    | nil =>
      have empty : vectorOf (some []) = none := rfl
      simp [mount, given, otherOptions, empty]
    | cons name names =>
      have kept : vectorOf (some (name :: names)) = some (name :: names) := rfl
      rw [kept, Option.toList_some, List.map_cons, List.map_nil, List.foldl_cons, List.foldl_nil,
        withOptions_names, mount, given, Option.getD_some]

theorem gathered_nodes : gatheredMount object.nodes = object.mount := by
  have members := object.nodes_members
  have dir : (gatheredMount object.nodes).entry.dir = some object.destination := by
    rw [gatheredMount_text members (fun mount => mount.entry.dir) (fun _ _ _ => rfl) rfl,
      JsonObject.valued_string object.hasDestination]
    rfl
  have type : (gatheredMount object.nodes).entry.type = some object.type := by
    rw [gatheredMount_text members (fun mount => mount.entry.type) (fun _ _ _ => rfl) rfl,
      JsonObject.valued_string object.hasType]
    rfl
  have source : (gatheredMount object.nodes).entry.fsname = some object.source := by
    rw [gatheredMount_text members (fun mount => mount.entry.fsname) (fun _ _ _ => rfl) rfl,
      JsonObject.valued_string object.hasSource]
    rfl
  have options := gatheredMount_options members
  have unresolved := gatheredMount_unresolved members
  rw [options_eq, Prod.mk.injEq] at options
  rw [Prod.mk.injEq] at unresolved
  generalize gatheredMount object.nodes = mount at dir type source options unresolved
  obtain ⟨flags, ⟨fsname, dir', type', opts⟩, dest, ignoreMount⟩ := mount
  cases dir
  cases type
  cases source
  obtain ⟨rfl, rfl⟩ := options
  obtain ⟨rfl, rfl⟩ := unresolved
  rfl

theorem build_nodes : Scan.build mountComplete fillMount object.nodes = some [object.mount] := by
  have same : Scan.gathered fillMount object.nodes = object.mount := object.gathered_nodes
  have whole : mountComplete (Scan.gathered fillMount object.nodes) = true := by
    rw [same]
    rfl
  rw [Scan.build_of_complete fillMount_eq object.noticed whole, same]

end MountObject

theorem mountsHandleSection_eq {parse : Parse} (fresh : parse.config.oci.mounts = [])
    (idle : parse.statics.currentMount = none) (root : GNode) :
    let found := collect (Scan.build mountComplete fillMount) [] (groups root.children)
    mountsHandleSection root parse =
      (found.1, parse.setOci { parse.config.oci with mounts := found.2 }) := by
  intro found
  have scanned := Scan.saveLast_eq mountComplete fillMount root.children []
  have ended : parse.statics = { parse.statics with currentMount := none } := by rw [← idle]
  rw [mountsHandleSection, if_neg (by simp [fresh]), fresh, idle]
  dsimp only [handleMountsSection]
  rw [scanned]
  simp only [Scan.outcome, Bool.not_not, Parse.setOci]
  rw [← ended]

/-- An array of mount objects gives one mount for each, in order. -/
theorem mountsHandleSection_objects (objects : List MountObject) (name : Option String)
    (parse : Parse) (fresh : parse.config.oci.mounts = []) (idle : parse.statics.currentMount = none) :
    mountsHandleSection
        (.node name (jsonParseAux (.array (objects.map fun object => object.json)) false)) parse =
      (true, parse.setOci { parse.config.oci with mounts := objects.map MountObject.mount }) := by
  have split : groups (jsonParseAux (.array (objects.map fun object => object.json)) false) =
      [] :: objects.map fun object => object.nodes := by
    have known := JsonObject.groups_objects (objects.map MountObject.toJsonObject)
    rw [List.map_map, List.map_map] at known
    rw [jsonParseAux]
    exact known
  have collected : collect (Scan.build mountComplete fillMount) []
      ([] :: objects.map fun object => object.nodes) = (true, objects.map MountObject.mount) :=
    collect_map (fun object _ => object.build_nodes) []
  rw [mountsHandleSection_eq fresh idle, GNode.children_node, split, collected]

def procObject : MountObject where
  members :=
    [("source", .string "none"), ("options", .array (["ro", "gid=5", "nosuid"].map .string)),
      ("destination", .string "/proc"), ("note", .null), ("type", .string "proc")]
  distinct := by decide
  destination := "/proc"
  type := "proc"
  source := "none"
  options := some ["ro", "gid=5", "nosuid"]
  hasDestination := rfl
  hasType := rfl
  hasSource := rfl
  hasOptions := rfl

theorem mountsHandleSection_proc :
    let parse : Parse := { config := {} }
    mountsHandleSection (.node (some "mounts") (jsonParseAux (.array [procObject.json]) false)) parse =
      (true, parse.setOci { parse.config.oci with mounts :=
        [{ flags := 1 ||| 2
           entry := ⟨some "none", some "/proc", some "proc", some "gid=5"⟩ }] }) :=
  mountsHandleSection_objects [procObject] (some "mounts") { config := {} } rfl rfl

end ClrOci
