import ClrOci.Collection
import ClrOci.ConfigSafety

/-! The argument and environment vectors that the process section gives. -/

set_option autoImplicit false

namespace ClrOci

open Foundation

inductive ProcessVector where
  | args | env
  deriving DecidableEq

namespace ProcessVector

def name : ProcessVector → String
  | .args => "args"
  | .env => "env"

def get (process : Process) : ProcessVector → Option (List String)
  | .args => process.args
  | .env => process.env

end ProcessVector

/-- A process section with an array for a vector, whatever the other members are. -/
structure VectorSection (vector : ProcessVector) extends JsonObject where
  elements : List Json
  found : toJsonObject.member? vector.name = some (.array elements)

def isScalar : Json → Bool
  | .bool _ | .int _ | .double _ | .string _ => true
  | .null | .array _ | .object _ => false

def Denotes : Json → String → Prop
  | .string value, text => text = value
  | .int value, text => text = toString value
  | .double number, text => readSigned text.toList = some number.value
  | .bool value, text => text = if value then "true" else "false"
  | _, _ => False

def processRun (config : Config) (process : JsonObject) : Option (Bool × Parse) :=
  processHandleSection (.node (some "process") (jsonParseAux process.json false)) { config := config }

/-- A vector that is accepted has a text for each element in turn, and an element without a text is
refused. -/
def KeepsVector {vector : ProcessVector} (config : Config) (process : VectorSection vector) : Prop :=
  (∀ parse, processRun config process.toJsonObject = some (true, parse) → process.elements ≠ [] →
    ∃ texts, vector.get parse.config.oci.process = some texts ∧
      process.elements.Forall₂ Denotes texts) ∧
  ((∃ element ∈ process.elements, isScalar element = false) →
    ∃ parse, processRun config process.toJsonObject = some (false, parse))

/-- An element whose text denotes it: a number has at most six places, its double rounds to it, and a
sign and its digits before the point take at most 63 characters. -/
def Legible : Json → Prop
  | .double number => number.FitsPoint (if number.negative then 62 else 63)
  | element => isScalar element = true

def cwdOf (config : Config) (process : JsonObject) : String :=
  (process.value? "cwd").elim config.oci.process.cwd.text fun node => textOrNull (childText node)

/-- A user or group of the section has no text, and reading it kills the process. -/
def UntextedIds (process : JsonObject) : Prop :=
  ∃ user ∈ process.nodes, user.data = some "user" ∧ ∃ member ∈ user.children,
    (member.data = some "uid" ∨ member.data = some "gid") ∧ childText member = none

/-- The section is refused for its working directory, or since there are no arguments at all. -/
def RefusedProcess (config : Config) (process : JsonObject) : Prop :=
  ¬ UntextedIds process ∧ (isAbsolute (cwdOf config process) = false ∨
    (config.oci.process.args = none ∧ process.value? "args" = none))

theorem denotes_jsonString_iff (element : Json) :
    Denotes element (jsonString element) ↔ Legible element := by
  cases element with
  | null | array | object => exact ⟨False.elim, fun scalar => by cases scalar⟩
  | string value => exact ⟨fun _ => rfl, fun _ => rfl⟩
  | int value => exact ⟨fun _ => rfl, fun _ => rfl⟩
  | bool value => cases value <;> exact ⟨fun _ => rfl, fun _ => rfl⟩
  | double number =>
    rw [Denotes, jsonString, String.toList_ofList]
    exact Number.rendering_reads_iff (by decide)

theorem Legible.isScalar {element : Json} (legible : Legible element) : isScalar element = true := by
  cases element with
  | double => rfl
  | null | array | object | string | int | bool => exact legible

section Run
variable {config : Config} {process : JsonObject}

theorem processRun_eq_none_iff : processRun config process = none ↔ UntextedIds process := by
  have nodes : jsonParseAux process.json false = GNode.separator :: process.nodes := by
    rw [JsonObject.json, jsonParseAux, JsonObject.jsonParseMembers_eq_nodes]
  rw [processRun, processHandleSection_eq_none_iff, GNode.children_node, nodes, UntextedIds]
  simp [GNode.separator, GNode.leaf]

/-- What one member does to the parts that the check reads, and to the environment. -/
theorem handleProcessSection_parts {node : GNode} {before after : Process}
    (step : handleProcessSection before node = some after) :
    let own (name : String) : Bool := node.hasChildren && node.data == some name
    after.cwd = (if own "cwd" then Buffer.copy _ (textOrNull (childText node)) else before.cwd) ∧
      after.args = (if own "args" then some (nodeToStrv node) else before.args) ∧
      after.env = (if own "env" then some (nodeToStrv node) else before.env) := by
  intro own
  unfold handleProcessSection at step
  cases value : node.hasChildren with
  | false =>
    simp only [value, Bool.not_false, if_true] at step
    cases step
    simp [own, value]
  | true =>
    simp only [value, Bool.not_true] at step
    by_cases cwd : node.data = some "cwd"
    · rw [if_neg (by simp), if_pos cwd] at step
      cases step
      simp [own, value, cwd]
    · by_cases args : node.data = some "args"
      · rw [if_neg (by simp), if_neg cwd, if_pos args] at step
        cases step
        simp [own, value, args]
      · by_cases env : node.data = some "env"
        · rw [if_neg (by simp), if_neg cwd, if_neg args, if_pos env] at step
          cases step
          simp [own, value, env]
        · rw [if_neg (by simp), if_neg cwd, if_neg args, if_neg env] at step
          have same : after.cwd = before.cwd ∧ after.args = before.args ∧ after.env = before.env := by
            split at step
            · cases step
              exact ⟨rfl, rfl, rfl⟩
            · split at step
              · obtain ⟨user, -, rfl⟩ := Option.map_eq_some_iff.mp step
                exact ⟨rfl, rfl, rfl⟩
              · cases step
                exact ⟨rfl, rfl, rfl⟩
          simp [own, value, cwd, args, env, same]

theorem processRun_parts {ok : Bool} {parse : Parse} (run : processRun config process = some (ok, parse)) :
    let found := parse.config.oci.process
    found.cwd = (process.value? "cwd").elim config.oci.process.cwd
        (fun node => Buffer.copy _ (textOrNull (childText node))) ∧
      found.args = (process.value? "args").elim config.oci.process.args (fun node => some (nodeToStrv node)) ∧
      found.env = (process.value? "env").elim config.oci.process.env (fun node => some (nodeToStrv node)) ∧
      ok = processComplete found := by
  have nodes : jsonParseAux process.json false = GNode.separator :: process.nodes := by
    rw [JsonObject.json, jsonParseAux, JsonObject.jsonParseMembers_eq_nodes]
  rw [processRun, processHandleSection, GNode.children_node, nodes, Option.bind_eq_bind,
    Option.bind_eq_some_iff] at run
  obtain ⟨found, folded, rfl, rfl⟩ := run
  have part {B : Type} (part : Process → B) (name : String) (own : B → GNode → B)
      (writes : ∀ node before after, handleProcessSection before node = some after →
        part after = if node.hasChildren && node.data == some name then own (part before) node
          else part before) :
      part found = (process.value? name).elim (part config.oci.process)
        (own (part config.oci.process)) := by
    have owned : (GNode.separator :: process.nodes).filter
        (fun node => node.hasChildren && node.data == some name) = (process.value? name).toList :=
      process.valued_eq name
    rw [foldlM_filter (fun node _ => writes node) folded, owned]
    cases process.value? name <;> rfl
  exact ⟨part (fun process => process.cwd) "cwd" (fun _ node => Buffer.copy _ (textOrNull (childText node)))
      fun _ _ _ step => (handleProcessSection_parts step).1,
    part (fun process => process.args) "args" (fun _ node => some (nodeToStrv node))
      fun _ _ _ step => (handleProcessSection_parts step).2.1,
    part (fun process => process.env) "env" (fun _ node => some (nodeToStrv node))
      fun _ _ _ step => (handleProcessSection_parts step).2.2, rfl⟩

theorem copy_isAbsolute {capacity : Nat} (room : 0 < capacity) (text : String) :
    isAbsolute (Buffer.copy capacity text).text = isAbsolute text := by
  obtain ⟨n, rfl⟩ := Nat.exists_eq_succ_of_ne_zero (Nat.ne_of_gt room)
  unfold isAbsolute Buffer.copy
  rw [String.toList_ofList]
  cases text.toList <;> rfl

theorem processRun_verdict {ok : Bool} {parse : Parse}
    (run : processRun config process = some (ok, parse)) :
    ok = (isAbsolute (cwdOf config process) &&
      (config.oci.process.args.isSome || (process.value? "args").isSome)) := by
  obtain ⟨cwd, args, -, rfl⟩ := processRun_parts run
  have absolute : isAbsolute parse.config.oci.process.cwd.text = isAbsolute (cwdOf config process) := by
    rw [cwd, cwdOf]
    cases process.value? "cwd" with
    | none => rfl
    | some node => exact copy_isAbsolute (by decide) _
  have present : parse.config.oci.process.args.isSome =
      (config.oci.process.args.isSome || (process.value? "args").isSome) := by
    rw [args]
    cases process.value? "args" <;> simp
  have visible : isAbsolute parse.config.oci.process.cwd.text = true →
      parse.config.oci.process.cwd.isSet = true := by
    intro starts
    simp only [Buffer.isSet, bne_iff_ne]
    intro none
    rw [none] at starts
    cases starts
  rw [processComplete, present, ← absolute]
  cases starts : isAbsolute parse.config.oci.process.cwd.text with
  | false => simp
  | true => simp [visible starts]

theorem refused_iff :
    (∃ parse, processRun config process = some (false, parse)) ↔ RefusedProcess config process := by
  cases run : processRun config process with
  | none =>
    have untexted := processRun_eq_none_iff.mp run
    simp [RefusedProcess, untexted]
  | some result =>
    obtain ⟨ok, parse⟩ := result
    have verdict := processRun_verdict run
    have running : processRun config process ≠ none := by simp [run]
    have texted : ¬ UntextedIds process := mt processRun_eq_none_iff.mpr running
    rw [RefusedProcess, and_iff_right texted]
    cases ok with
    | true =>
      obtain ⟨absolute, present⟩ := Bool.and_eq_true_iff.mp verdict.symm
      constructor
      · rintro ⟨_, same⟩
        cases same
      · rintro (relative | ⟨noArgs, noValue⟩)
        · rw [relative] at absolute
          cases absolute
        · rw [noArgs, noValue] at present
          cases present
    | false =>
      rw [eq_comm, Bool.and_eq_false_iff] at verdict
      simpa using verdict

end Run

section Vector
variable {vector : ProcessVector}

theorem jsonParseElements_scalars {elements : List Json}
    (scalars : ∀ element ∈ elements, isScalar element = true) :
    jsonParseElements elements = elements.map fun element => scalarNode element true := by
  induction elements with
  | nil => rfl
  | cons element elements ih =>
    obtain ⟨here, later⟩ := List.forall_mem_cons.mp scalars
    have single : jsonParseAux element true = [scalarNode element true] := by
      cases element with
      | null | array | object => cases here
      | bool | int | double | string => rw [jsonParseAux]
    rw [jsonParseElements, single, ih later]
    rfl

theorem nodeToStrv_scalars (name : String) {elements : List Json}
    (scalars : ∀ element ∈ elements, isScalar element = true) :
    nodeToStrv (memberNode (name, .array elements)) = elements.map jsonString := by
  have data : (jsonParseElements elements).map GNode.data = (elements.map jsonString).map some := by
    rw [jsonParseElements_scalars scalars, List.map_map, List.map_map]
    rfl
  have all : ((elements.map jsonString).map some).takeWhile Option.isSome =
      (elements.map jsonString).map some := by
    rw [List.takeWhile_eq_self_iff]
    simp
  rw [nodeToStrv, memberNode, GNode.children_node, jsonParseAux, data, all, List.filterMap_map]
  exact List.filterMap_some

theorem vector_of_scalars {config : Config} {process : VectorSection vector} {ok : Bool} {parse : Parse}
    (run : processRun config process.toJsonObject = some (ok, parse)) (some : process.elements ≠ [])
    (scalars : ∀ element ∈ process.elements, isScalar element = true) :
    vector.get parse.config.oci.process = process.elements.map jsonString := by
  obtain ⟨-, args, env, -⟩ := processRun_parts run
  have filled : (memberNode (vector.name, .array process.elements)).hasChildren = true := by
    obtain ⟨element, elements, split⟩ := List.exists_cons_of_ne_nil some
    rw [memberNode, GNode.hasChildren, GNode.children_node, jsonParseAux,
      jsonParseElements_scalars scalars, split]
    rfl
  have value : process.value? vector.name = memberNode (vector.name, .array process.elements) := by
    rw [JsonObject.value?, process.found, Option.map_some, Option.filter_some, if_pos filled]
  cases vector with
  | args =>
    change process.value? "args" = _ at value
    rw [value, Option.elim_some, nodeToStrv_scalars _ scalars] at args
    exact args
  | env =>
    change process.value? "env" = _ at value
    rw [value, Option.elim_some, nodeToStrv_scalars _ scalars] at env
    exact env

theorem texts_denote_iff (elements : List Json) :
    elements.Forall₂ Denotes (elements.map jsonString) ↔ ∀ element ∈ elements, Legible element := by
  rw [List.forall₂_map_right_iff, List.forall₂_same]
  exact forall₂_congr fun element _ => denotes_jsonString_iff element

/-- A vector is kept exactly if the text of each element is legible, or the section is refused
anyway; reading it may also kill the process. -/
theorem keepsVector_iff (config : Config) (process : VectorSection vector) :
    KeepsVector config process ↔
      (∀ element ∈ process.elements, Legible element) ∨ RefusedProcess config process.toJsonObject ∨
        (UntextedIds process.toJsonObject ∧ ∀ element ∈ process.elements, isScalar element = true) := by
  constructor
  · rintro ⟨keeps, refuses⟩
    by_cases scalars : ∀ element ∈ process.elements, isScalar element = true
    · cases run : processRun config process.toJsonObject with
      | none => exact Or.inr (Or.inr ⟨processRun_eq_none_iff.mp run, scalars⟩)
      | some result =>
        obtain ⟨ok, parse⟩ := result
        cases ok with
        | false => exact Or.inr (Or.inl (refused_iff.mp ⟨parse, run⟩))
        | true =>
          left
          -- An array without elements sets no vector.
          by_cases visible : process.elements = []
          · rw [visible]
            simp
          · obtain ⟨texts, found, denote⟩ := keeps parse run visible
            rw [vector_of_scalars run visible scalars, Option.some_inj] at found
            rw [← texts_denote_iff, found]
            exact denote
    · simp only [not_forall, Bool.not_eq_true] at scalars
      obtain ⟨element, member, other⟩ := scalars
      exact Or.inr (Or.inl (refused_iff.mp (refuses ⟨element, member, other⟩)))
  · have accepted (scalars : ∀ element ∈ process.elements, isScalar element = true) :
        ¬ ∃ element ∈ process.elements, isScalar element = false := by
      rintro ⟨element, member, other⟩
      rw [scalars element member] at other
      cases other
    rintro (legible | refused | ⟨killed, scalars⟩)
    · have scalars := fun element member => (legible element member).isScalar
      refine ⟨fun parse run visible => ?_, fun other => absurd other (accepted scalars)⟩
      exact ⟨_, vector_of_scalars run visible scalars, (texts_denote_iff _).mpr legible⟩
    · obtain ⟨refusal, ended⟩ := refused_iff.mpr refused
      constructor
      · intro parse run
        rw [ended] at run
        cases run
      · intro _
        exact ⟨refusal, ended⟩
    · constructor
      · intro parse run
        rw [processRun_eq_none_iff.mpr killed] at run
        cases run
      · exact fun other => absurd other (accepted scalars)

end Vector

def splicedSection : VectorSection .args where
  members :=
    [("cwd", .string "/"),
      ("args", .array [.string "rm", .array [.string "-r", .null], .object [], .string "x"])]
  distinct := by decide
  elements := [.string "rm", .array [.string "-r", .null], .object [], .string "x"]
  found := rfl

def blankSection : VectorSection .args where
  members := [("cwd", .string "/"), ("args", .array [.object []])]
  distinct := by decide
  elements := [.object []]
  found := rfl

def slight : Number :=
  .exact false (1 / 2 ^ 30) ⟨1, -30, by decide, by decide, by decide, by norm_num⟩
    (lt_overflow (show (1 / 2 ^ 30 : ℚ) ≤ 2 ^ 0 by norm_num) (by decide))

def vast : Number :=
  .exact false (2 ^ 220) ⟨1, 220, by decide, by decide, by decide, by norm_num⟩
    (lt_overflow (le_refl (2 ^ 220 : ℚ)) (by decide))

theorem slight_rounds : RoundsTo ((1 / 2 ^ 30 : ℚ) * 10 ^ 6) 0 := by
  left
  norm_num

theorem slight_text : jsonString (.double slight) = "0.000000" := by
  change String.ofList ((fixedPoint 6 (roundHalfEven ((1 / 2 ^ 30 : ℚ) * 10 ^ 6))).take 63) = _
  rw [roundHalfEven_eq (by norm_num) slight_rounds]
  decide

theorem vast_text : jsonString (.double vast) =
    "168499666669691498716668844293872691710232152640878578006897564" := by
  have rounded : roundHalfEven ((2 ^ 220 : ℚ) * 10 ^ 6) = 2 ^ 220 * 10 ^ 6 := by
    apply roundHalfEven_eq (by norm_num)
    left
    norm_num
  change String.ofList ((fixedPoint 6 (roundHalfEven ((2 ^ 220 : ℚ) * 10 ^ 6))).take 63) = _
  rw [rounded]
  decide +kernel

def roundedSection : VectorSection .args where
  members := [("cwd", .string "/"), ("args", .array [.string "sleep", .double slight, .double vast])]
  distinct := by decide
  elements := [.string "sleep", .double slight, .double vast]
  found := rfl

/-- A nested array is spliced in, a null is dropped and an object ends the vector; the vector may be
empty where there are to be arguments, and numbers are rounded to zero and cut. -/
theorem vector_spliced :
    (processRun {} splicedSection.toJsonObject).map (fun result =>
        (result.1, result.2.config.oci.process.args)) = some (true, some ["rm", "-r"]) ∧
      (processRun {} blankSection.toJsonObject).map (fun result =>
        (result.1, result.2.config.oci.process.args)) = some (true, some []) ∧
      (processRun {} roundedSection.toJsonObject).map (fun result =>
        (result.1, result.2.config.oci.process.args)) =
          some (true, some ["sleep", jsonString (.double slight), jsonString (.double vast)]) ∧
      jsonString (.double slight) = "0.000000" ∧
      jsonString (.double vast) = "168499666669691498716668844293872691710232152640878578006897564" ∧
      ¬ KeepsVector {} splicedSection ∧ ¬ KeepsVector {} blankSection ∧
      ¬ KeepsVector {} roundedSection := by
  refine ⟨rfl, rfl, rfl, slight_text, vast_text, ?_, ?_, ?_⟩
  · rintro ⟨-, refuses⟩
    obtain ⟨parse, run⟩ := refuses ⟨.object [], by simp [splicedSection], rfl⟩
    cases run
  · rintro ⟨-, refuses⟩
    obtain ⟨parse, run⟩ := refuses ⟨.object [], by simp [blankSection], rfl⟩
    cases run
  · rintro ⟨keeps, -⟩
    obtain ⟨texts, found, denote⟩ := keeps _ rfl (List.cons_ne_nil _ _)
    have own : some ["sleep", jsonString (.double slight), jsonString (.double vast)] = some texts := found
    cases own
    have read := (List.forall₂_cons.mp (List.forall₂_cons.mp denote).2).1
    obtain ⟨_, held, same, units, written, rounds⟩ := (denotes_jsonString_iff _).mp read
    cases same
    change (1 / 2 ^ 30 : ℚ) = _ at written
    rw [← slight_rounds.unique rounds] at written
    norm_num at written

end ClrOci
