import ClrOci.Creation
import ClrOci.Foundation.Slots
import Mathlib.Data.List.Nodup

/-! The order of the members of `config.json`.

Each section is handled on its own: its handler reads and replaces its part of the configuration and
the static variable that it has, and nothing else. So the members of the document can come in any order.
-/

set_option autoImplicit false

namespace ClrOci

open Foundation

structure Parsed where
  config : Config
  statics : Statics

def Parse.parsed (parse : Parse) : Parsed := ⟨parse.config, parse.statics⟩

def Parsed.parse (parsed : Parsed) : Parse := { config := parsed.config, statics := parsed.statics }

@[simp] theorem Parsed.parse_config (parsed : Parsed) : parsed.parse.config = parsed.config := rfl

def Parsed.setOci (parsed : Parsed) (oci : Spec) : Parsed := (parsed.parse.setOci oci).parsed

inductive KnownMember where
  | ociVersion | hostname
  | handled (handler : SpecHandler)
  deriving DecidableEq

namespace KnownMember

def name : KnownMember → String
  | .ociVersion => "ociVersion"
  | .hostname => "hostname"
  | .handled handler => handler.name

def slot : KnownMember → Slot Parsed
  | .ociVersion =>
    ⟨Option String, fun parsed => parsed.config.oci.ociVersion,
      fun parsed version => parsed.setOci { parsed.config.oci with ociVersion := version }⟩
  | .hostname =>
    ⟨Option String, fun parsed => parsed.config.oci.hostname,
      fun parsed name => parsed.setOci { parsed.config.oci with hostname := name }⟩
  | .handled .annotations =>
    ⟨List Annotation, fun parsed => parsed.config.oci.annotations,
      fun parsed annotations => parsed.setOci { parsed.config.oci with annotations := annotations }⟩
  | .handled .hooks =>
    ⟨Hooks × Option Hook, fun parsed => (parsed.config.oci.hooks, parsed.statics.currentHook),
      fun parsed found => { parsed.setOci { parsed.config.oci with hooks := found.1 } with
        statics := { parsed.statics with currentHook := found.2 } }⟩
  | .handled .mounts =>
    ⟨List Mount × Option Mount, fun parsed => (parsed.config.oci.mounts, parsed.statics.currentMount),
      fun parsed found => { parsed.setOci { parsed.config.oci with mounts := found.1 } with
        statics := { parsed.statics with currentMount := found.2 } }⟩
  | .handled .platform =>
    ⟨Platform, fun parsed => parsed.config.oci.platform,
      fun parsed platform => parsed.setOci { parsed.config.oci with platform := platform }⟩
  | .handled .process =>
    ⟨Process, fun parsed => parsed.config.oci.process,
      fun parsed process => parsed.setOci { parsed.config.oci with process := process }⟩
  | .handled .root =>
    ⟨Root, fun parsed => parsed.config.oci.root,
      fun parsed root => parsed.setOci { parsed.config.oci with root := root }⟩
  | .handled .vm =>
    ⟨Option VmConfig, fun parsed => parsed.config.vm,
      fun parsed vm => { parsed with config := { parsed.config with vm := vm } }⟩
  | .handled .linux =>
    ⟨List Namespace × Option Namespace,
      fun parsed => (parsed.config.oci.namespaces, parsed.statics.currentNs),
      fun parsed found => { parsed.setOci { parsed.config.oci with namespaces := found.1 } with
        statics := { parsed.statics with currentNs := found.2 } }⟩

theorem slot_apart {first second : KnownMember} (other : first ≠ second) :
    first.slot.Apart second.slot := by
  cases first with
  | ociVersion =>
    cases second with
    | ociVersion => exact absurd rfl other
    | hostname => exact ⟨fun _ _ => rfl, fun _ _ => rfl, fun _ _ _ => rfl⟩
    | handled handler => cases handler <;> exact ⟨fun _ _ => rfl, fun _ _ => rfl, fun _ _ _ => rfl⟩
  | hostname =>
    cases second with
    | ociVersion => exact ⟨fun _ _ => rfl, fun _ _ => rfl, fun _ _ _ => rfl⟩
    | hostname => exact absurd rfl other
    | handled handler => cases handler <;> exact ⟨fun _ _ => rfl, fun _ _ => rfl, fun _ _ _ => rfl⟩
  | handled handler =>
    cases second with
    | ociVersion => cases handler <;> exact ⟨fun _ _ => rfl, fun _ _ => rfl, fun _ _ _ => rfl⟩
    | hostname => cases handler <;> exact ⟨fun _ _ => rfl, fun _ _ => rfl, fun _ _ _ => rfl⟩
    | handled handler' =>
      cases handler <;> cases handler' <;>
        first
        | exact absurd rfl other
        | exact ⟨fun _ _ => rfl, fun _ _ => rfl, fun _ _ _ => rfl⟩

end KnownMember

section Sections
variable (host : Host) (node : GNode)

def SpecHandler.update : (handler : SpecHandler) → (KnownMember.handled handler).slot.Value →
    Option (KnownMember.handled handler).slot.Value
  | .annotations => fun (annotations : List Annotation) =>
    some (node.children.foldl handleAnnotation annotations)
  | .hooks => fun (found : Hooks × Option Hook) =>
    let scan := node.children.foldl handleHooksSection ⟨found.2, false, found.1⟩
    some (scan.hooks, scan.current)
  | .mounts => fun (found : List Mount × Option Mount) =>
    if found.1 ≠ [] then some found
    else
      let scan := node.children.foldl handleMountsSection ⟨found.2, false, found.1⟩
      let scan := if scan.error then scan else scan.save mountComplete
      some (scan.saved, scan.current)
  | .platform => fun (platform : Platform) => some (node.children.foldl handlePlatformSection platform)
  | .process => fun (process : Process) => node.children.foldlM handleProcessSection process
  | .root => fun (root : Root) => some (node.children.foldl (handleRootSection host) root)
  | .vm => fun (vm : Option VmConfig) =>
    let found := node.children.foldl (handleVmSection host) (vm.getD {})
    if vmComplete host found then some (some found) else some none
  | .linux => fun (found : List Namespace × Option Namespace) =>
    let scan := node.children.foldl handleLinuxSection ⟨found.2, false, found.1⟩
    let scan := if scan.error then scan else scan.save fun _ => true
    some (scan.saved, scan.current)

/-- Whatever its verdict, a handler keeps to its part, and does not look at the log. -/
theorem SpecHandler.handleSection_parsed (handler : SpecHandler) (parse : Parse) :
    let part := (KnownMember.handled handler).slot
    (handler.handleSection host node parse).map (fun handled => handled.2.parsed) =
      (handler.update host node (part.get parse.parsed)).map (part.put parse.parsed) := by
  cases handler with
  | mounts =>
    simp only [handleSection, mountsHandleSection, update, KnownMember.slot, Parse.parsed]
    by_cases there : parse.config.oci.mounts = []
    · simp only [there, ne_eq, not_true_eq_false, ↓reduceIte]
      rfl
    · simp only [there, ne_eq, not_false_eq_true, ↓reduceIte]
      rfl
  | process =>
    simp only [handleSection, processHandleSection, update, KnownMember.slot, Parse.parsed,
      Option.bind_eq_bind, Option.pure_def]
    cases node.children.foldlM handleProcessSection parse.config.oci.process with
    | none => rfl
    | some process => rfl
  | vm =>
    simp only [handleSection, vmHandleSection, update, KnownMember.slot, Parse.parsed]
    by_cases complete : vmComplete host
        (node.children.foldl (handleVmSection host) (parse.config.vm.getD {})) = true
    · simp only [complete, ↓reduceIte]
      rfl
    · simp only [complete, Bool.false_eq_true, ↓reduceIte]
      rfl
  | _ => rfl

theorem dispatch_parsed (handlers : List SpecHandler) (parse : Parse) :
    (dispatch handlers host node parse).map Parse.parsed =
      match handlers.find? fun handler => some handler.name == node.data with
      | none => some parse.parsed
      | some handler => (handler.handleSection host node parse).map fun handled => handled.2.parsed := by
  rw [dispatch]
  cases handlers.find? fun handler => some handler.name == node.data with
  | none => rfl
  | some handler =>
    dsimp only
    cases handler.handleSection host node parse with
    | none => rfl
    | some handled =>
      obtain ⟨ok, after⟩ := handled
      cases ok with
      | false => rfl
      | true => rfl

def memberStep (parsed : Parsed) (node : GNode) : Option Parsed :=
  (processConfigStart host parsed.parse node).map Parse.parsed

/-- A member is nothing to the runtime, or is for one part of the configuration. -/
theorem processConfigStart_parsed :
    (∀ parse : Parse, (processConfigStart host parse node).map Parse.parsed = some parse.parsed) ∨
      ∃ member : KnownMember, node.data = some member.name ∧
        ∃ update : member.slot.Value → Option member.slot.Value, ∀ parse : Parse,
          (processConfigStart host parse node).map Parse.parsed =
            (update (member.slot.get parse.parsed)).map (member.slot.put parse.parsed) := by
  cases named : node.data with
  | none =>
    refine Or.inl fun parse => ?_
    rw [processConfigStart, named]
    rfl
  | some name =>
    by_cases version : name = "ociVersion"
    · subst version
      refine Or.inr ⟨.ociVersion, rfl, fun _ => node.childData?, fun parse => ?_⟩
      simp only [processConfigStart, named, ↓reduceIte]
      cases node.childData? with
      | none => rfl
      | some text => rfl
    · by_cases hostname : name = "hostname"
      · subst hostname
        refine Or.inr ⟨.hostname, rfl, fun _ => node.childData?, fun parse => ?_⟩
        simp only [processConfigStart, named, version, ↓reduceIte]
        cases node.childData? with
        | none => rfl
        | some text => rfl
      · have dispatched (parse : Parse) : processConfigStart host parse node =
            dispatch startSpecHandlers host node parse := by
          simp only [processConfigStart, named, version, hostname, ↓reduceIte]
        cases found : startSpecHandlers.find? fun handler => some handler.name == node.data with
        | none =>
          refine Or.inl fun parse => ?_
          rw [dispatched, dispatch_parsed, found]
        | some handler =>
          have matching := List.find?_some found
          have same : some handler.name = some name := named ▸ eq_of_beq matching
          refine Or.inr ⟨.handled handler, same.symm, handler.update host node, fun parse => ?_⟩
          rw [dispatched, dispatch_parsed, found]
          exact handler.handleSection_parsed host node parse

theorem processConfigStart_view (parse : Parse) :
    (processConfigStart host parse node).map Parse.parsed = memberStep host parse.parsed node := by
  rcases processConfigStart_parsed host node with nothing | ⟨member, _, update, same⟩
  · rw [memberStep, nothing, nothing]
    rfl
  · rw [memberStep, same, same]
    rfl

theorem memberStep_commute {node other : GNode} (different : node.data ≠ other.data) (parsed : Parsed) :
    (memberStep host parsed node).bind (memberStep host · other) =
      (memberStep host parsed other).bind (memberStep host · node) := by
  have idle {node : GNode} (nothing : ∀ parse : Parse,
      (processConfigStart host parse node).map Parse.parsed = some parse.parsed) (parsed : Parsed) :
      memberStep host parsed node = some parsed := nothing parsed.parse
  rcases processConfigStart_parsed host node with nothing | ⟨member, named, update, same⟩
  · rw [idle nothing, Option.bind_some, Option.bind_congr fun next _ => idle nothing next, Option.bind_fun_some]
  · rcases processConfigStart_parsed host other with nothing | ⟨member', named', update', same'⟩
    · rw [idle nothing, Option.bind_some, Option.bind_congr fun next _ => idle nothing next,
        Option.bind_fun_some]
    · have apart : member ≠ member' := by
        rintro rfl
        exact different (named.trans named'.symm)
      have confined : member.slot.Confines (memberStep host · node) :=
        ⟨update, fun parsed => same parsed.parse⟩
      have confined' : member'.slot.Confines (memberStep host · other) :=
        ⟨update', fun parsed => same' parsed.parse⟩
      exact (KnownMember.slot_apart apart).commute confined confined' parsed

theorem parseSections_perm {nodes others : List GNode} (same : nodes.Perm others)
    (distinct : (nodes.map GNode.data).Nodup) (parse : Parse) :
    (nodes.foldlM (processConfigStart host) parse).map Parse.parsed =
      (others.foldlM (processConfigStart host) parse).map Parse.parsed := by
  have view : ∀ parse input, (processConfigStart host parse input).map Parse.parsed =
      memberStep host parse.parsed input := fun parse input => processConfigStart_view host input parse
  rw [foldlM_view view, foldlM_view view]
  apply foldlM_perm same
  intro first member second member' parsed
  by_cases equal : first = second
  · rw [equal]
  · refine memberStep_commute host (fun names => equal ?_) parsed
    exact List.inj_on_of_nodup_map distinct member member' names

end Sections

theorem find?_perm {A : Type} {wanted : A → Bool} {items others : List A} (same : items.Perm others)
    (unique : ∀ a ∈ items, ∀ b ∈ items, wanted a = true → wanted b = true → a = b) :
    items.find? wanted = others.find? wanted := by
  cases found : items.find? wanted with
  | none =>
    symm
    rw [List.find?_eq_none] at found ⊢
    exact fun item member => found item (same.mem_iff.mpr member)
  | some item =>
    have member := List.mem_of_find?_eq_some found
    have matching := List.find?_some found
    cases found' : others.find? wanted with
    | none => exact absurd matching (List.find?_eq_none.mp found' item (same.mem_iff.mp member))
    | some other =>
      have member' := same.mem_iff.mpr (List.mem_of_find?_eq_some found')
      rw [unique item member other member' matching (List.find?_some found')]

section Document
variable {members others : List (String × Json)}

def memberNodes (members : List (String × Json)) : List GNode :=
  GNode.separator :: members.map fun member => .node (some member.1) (jsonParseAux member.2 false)

theorem jsonParse_object (filename : String) (members : List (String × Json)) :
    (jsonParse filename (.object members)).children = memberNodes members := by
  have nodes := jsonParseMembers_map Prod.fst Prod.snd members
  rw [List.map_id'' fun member => rfl] at nodes
  rw [jsonParse, jsonParseAux, GNode.children_node, nodes]
  rfl

theorem memberNodes_perm (same : members.Perm others) : (memberNodes members).Perm (memberNodes others) :=
  (same.map _).cons _

theorem memberNodes_distinct (distinct : (members.map Prod.fst).Nodup) :
    ((memberNodes members).map GNode.data).Nodup := by
  have names : (memberNodes members).map GNode.data = none :: (members.map Prod.fst).map some := by
    simp [memberNodes, GNode.separator, GNode.leaf, Function.comp_def]
  rw [names, List.nodup_cons]
  refine ⟨?_, distinct.map (Option.some_injective String)⟩
  simp

def vmNode? (files : Files) (path : String) : Option GNode :=
  (jsonParseFile files path).bind fun root =>
    root.children.find? fun node => node.data == some SpecHandler.vm.name

theorem getSpecVmFromCfgFile_eq (env : Env) (host : Host) (files : Files) (parse : Parse) :
    getSpecVmFromCfgFile env host files parse =
      if parse.config.vm.isSome then (true, parse)
      else
        let inSysconf := buildPath [env.sysconfdir, vmConfigFile]
        let file := if (host.stat inSysconf).isSome then inSysconf
          else buildPath [env.defaultsdir, vmConfigFile]
        match vmNode? files file with
        | none => (false, parse)
        | some node =>
          let handled := (vmHandleSection host node parse).2
          (handled.config.vm.isSome, handled) := by
  by_cases given : parse.config.vm.isSome
  · rw [getSpecVmFromCfgFile, if_pos given, if_pos given]
  · rw [getSpecVmFromCfgFile, if_neg given, if_neg given]
    dsimp only [vmNode?]
    cases jsonParseFile files (if (host.stat (buildPath [env.sysconfdir, vmConfigFile])).isSome then
      buildPath [env.sysconfdir, vmConfigFile] else buildPath [env.defaultsdir, vmConfigFile]) with
    | none => rfl
    | some root => rfl

variable {files : Files} {file : String} (held : files file = some (.json (.object members)))
  (same : members.Perm others) (distinct : (members.map Prod.fst).Nodup)
include held same distinct

theorem vmNode?_perm (path : String) :
    vmNode? (Function.update files file (some (.json (.object others)))) path = vmNode? files path := by
  by_cases here : path = file
  · subst here
    simp only [vmNode?, jsonParseFile, Function.update_self, held]
    split
    · rfl
    · simp only [Option.bind_some, jsonParse_object]
      symm
      apply find?_perm (memberNodes_perm same)
      intro first member second member' named named'
      apply List.inj_on_of_nodup_map (memberNodes_distinct distinct) member member'
      exact (eq_of_beq named).trans (eq_of_beq named').symm
  · simp only [vmNode?, jsonParseFile, Function.update_of_ne here]

/-- The VM configuration that is used if the bundle has none does not depend on the order either. -/
theorem getSpecVmFromCfgFile_perm (env : Env) (host : Host) {parse parse' : Parse}
    (equal : parse.parsed = parse'.parsed) :
    let found := getSpecVmFromCfgFile env host files parse
    let found' := getSpecVmFromCfgFile env host
      (Function.update files file (some (.json (.object others)))) parse'
    found'.1 = found.1 ∧ found'.2.config = found.2.config := by
  have config : parse.config = parse'.config := congrArg Parsed.config equal
  simp only [getSpecVmFromCfgFile_eq, vmNode?_perm held same distinct, config]
  split
  · exact ⟨rfl, config.symm⟩
  · split
    · exact ⟨rfl, config.symm⟩
    · next node _ =>
      have handled : (vmHandleSection host node parse').2.config =
          (vmHandleSection host node parse).2.config := by
        have seen := SpecHandler.handleSection_parsed host node .vm parse
        have seen' := SpecHandler.handleSection_parsed host node .vm parse'
        dsimp only at seen seen'
        rw [equal, ← seen'] at seen
        exact (congrArg Parsed.config (Option.some.inj seen)).symm
      exact ⟨congrArg (fun config : Config => config.vm.isSome) handled, handled⟩

/-- The order of the members of `config.json` does not matter: for every document and every order of its
members, and whatever the handlers say of them, the bundle is accepted or not all the same, and leaves
the same configuration. -/
theorem config_members_any_order (env : Env) {world : World} (placed : world.sys.files = files)
    (given : configFilePath world.config.bundlePath = some file) :
    let reordered := Function.update files file (some (.json (.object others)))
    let run := configFileParse env world
    let run' := configFileParse env ⟨world.config, { world.sys with files := reordered }⟩
    run'.exit = run.exit ∧ run'.state.config = run.state.config := by
  subst placed
  cases bundle : world.config.bundlePath with
  | none =>
    simp only [configFileParse, bundle]
    exact ⟨trivial, trivial⟩
  | some path =>
    rw [bundle] at given
    simp only [configFileParse, bundle, given]
    split
    · exact ⟨rfl, rfl⟩
    · have parsed := parseSections_perm (env.host world.sys.clock) (memberNodes_perm same)
        (memberNodes_distinct distinct) { config := world.config }
      have read (document : Json) (files : Files) (there : files file = some (.json document)) :
          jsonParseFile files file = if file = "" then none else some (jsonParse file document) := by
        rw [jsonParseFile, there]
      rw [read _ _ held, read _ _ (Function.update_self file _ world.sys.files)]
      by_cases empty : file = ""
      · simp only [empty, ↓reduceIte]
        exact ⟨trivial, trivial⟩
      · simp only [empty, ↓reduceIte, parseSections, jsonParse_object]
        cases first : (memberNodes members).foldlM (processConfigStart (env.host world.sys.clock))
            { config := world.config } with
        | none =>
          rw [first, Option.map_none, eq_comm, Option.map_eq_none_iff] at parsed
          simp only [parsed]
          exact ⟨trivial, trivial⟩
        | some parse =>
          rw [first, Option.map_some, eq_comm, Option.map_eq_some_iff] at parsed
          obtain ⟨parse', second, equal⟩ := parsed
          simp only [second]
          obtain ⟨verdict, config⟩ := getSpecVmFromCfgFile_perm held same distinct env
            (env.host world.sys.clock) equal.symm
          exact ⟨congrArg Exit.returned verdict, config⟩

end Document

def backwards : Files :=
  Function.update (bundleFiles twoMounts) "/bundle/config.json"
    (some (.json (.object (bundleMembers ++ twoMounts).reverse)))

theorem backwards_accepted :
    let reordered : World := ⟨bundleConfig, { (bundleWorld twoMounts).sys with files := backwards }⟩
    let run := configFileParse Env.calm reordered
    run.exit = .returned true ∧
      run.state.config = (configFileParse Env.calm (bundleWorld twoMounts)).state.config := by
  have accepted : (configFileParse Env.calm (bundleWorld twoMounts)).exit = .returned true := by decide
  have held : bundleFiles twoMounts "/bundle/config.json" =
      some (.json (.object (bundleMembers ++ twoMounts))) := by rfl
  have equal := config_members_any_order held (List.reverse_perm _).symm (by decide) Env.calm
    (show (bundleWorld twoMounts).sys.files = bundleFiles twoMounts from rfl)
    (show configFilePath bundleConfig.bundlePath = some "/bundle/config.json" by decide)
  exact ⟨equal.1.trans accepted, equal.2⟩

end ClrOci
