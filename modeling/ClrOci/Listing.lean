import ClrOci.Acceptance
import ClrOci.Foundation.Columns
import ClrOci.Registry

/-! Listing the containers below a root directory, as a table or as JSON. -/

set_option autoImplicit false

namespace ClrOci

open Foundation

/-- `clr_oci_vm_get_state`. -/
def vmGetState (files : Files) (rootDir : Option String) (name : String) : Option OciState := do
  let config ← runtimePathGet { rootDir := rootDir, optargContainerId := some name }
  let config ← stateFileGet config
  stateFileRead files config.state.stateFilePath.text

/-- `clr_oci_status_length`. -/
def statusLength : Nat :=
  Status.map.foldl (fun longest entry => max (utf8Strlen entry.2 lineMax) longest) 0

/-- `struct format_options`, without the array. -/
structure FormatOptions where
  useJson : Bool := false
  showAll : Bool := false
  idWidth : Nat := 0
  pidWidth : Nat := 0
  statusWidth : Nat := 0
  bundleWidth : Nat := 0
  createdWidth : Nat := 0
  hypervisorWidth : Nat := 0
  imageWidth : Nat := 0
  kernelWidth : Nat := 0
  deriving DecidableEq

structure Listing where
  options : FormatOptions
  statusMax : Nat := 0
  vms : List OciState := []

def OciState.vmConfig (state : OciState) : VmConfig := state.vm.getD {}

-- `%u` of the process.
def pidText (pid : GPid) : String := String.ofList (Nat.toDigits 10 pid.toUInt32.toNat)

/-- `clr_oci_update_options`: assigning a missing text leaves the string with what it held before. -/
def updateOptions (listing : Listing) (state : OciState) : Listing :=
  let statusMax := if listing.statusMax = 0 then statusLength else listing.statusMax
  let options := listing.options
  let id := state.id.getD ""
  let pid := pidText state.pid
  let bundle := state.bundlePath.getD pid
  let created := state.createTime.getD bundle
  { listing with
    statusMax := statusMax
    options := { options with
      statusWidth := if listing.statusMax = 0 then statusMax else options.statusWidth
      idWidth := max options.idWidth id.length
      pidWidth := max (max options.pidWidth pid.length) "PID".length
      bundleWidth := max options.bundleWidth bundle.length
      createdWidth := max options.createdWidth created.length
      hypervisorWidth := max options.hypervisorWidth state.vmConfig.hypervisorPath.text.length
      imageWidth := max options.imageWidth state.vmConfig.imagePath.text.length
      kernelWidth := max options.kernelWidth state.vmConfig.kernelPath.text.length } }

/-- What `g_dir_open` and `g_file_test` say of the root directory. -/
structure Directory where
  names : Option (List String)
  isDir : String → Bool

def visitName (files : Files) (directory : Directory) (dirname : String) (listing : Listing)
    (name : String) : Listing :=
  if !directory.isDir (buildPath [dirname, name]) then listing
  else
    match vmGetState files (some dirname) name with
    | none => listing
    | some state =>
      let listing := if listing.options.useJson then listing else updateOptions listing state
      { listing with vms := listing.vms ++ [state] }

-- `%-*s`.
def printLeft (width : Nat) (text : String) : String :=
  text ++ String.ofList (List.replicate (width - text.length) ' ')

-- `%-*.*s`.
def printLeftCut (width precision : Nat) (text : String) : String :=
  printLeft width (String.ofList (text.toList.take precision))

variable (env : Env)

def shownStatus (state : OciState) (sys : Sys) : Option String × Sys :=
  let running := vmRunning env state sys
  (if running.1 then state.status.toStr else Status.stopped.toStr, running.2)

/-- The line of `clr_oci_list_vm`. -/
def vmLine (options : FormatOptions) (state : OciState) (status : Option String) : String :=
  printLeft options.idWidth (textOrNull state.id) ++ " " ++
    (if state.pid = 0 then printLeftCut options.pidWidth options.pidWidth "0"
      else printLeft options.pidWidth (pidText state.pid)) ++ " " ++
    printLeft options.statusWidth (textOrNull status) ++ " " ++
    printLeft options.bundleWidth (textOrNull state.bundlePath) ++ " " ++
    printLeft options.createdWidth (textOrNull state.createTime) ++
    (if options.showAll then
      " " ++ printLeft options.hypervisorWidth state.vmConfig.hypervisorPath.text ++ " " ++
        printLeft options.kernelWidth state.vmConfig.kernelPath.text ++ " " ++
        printLeft options.imageWidth state.vmConfig.imagePath.text ++ "\n"
    else "\n")

/-- The object of `clr_oci_list_vm`. -/
def vmObject (options : FormatOptions) (state : OciState) (status : Option String) : Json :=
  .object ([("id", Json.ofString? state.id), ("pid", .int state.pid.toInt), ("status", Json.ofString? status),
    ("bundle", Json.ofString? state.bundlePath), ("created", Json.ofString? state.createTime)] ++
    if options.showAll then
      [("hypervisor", .string state.vmConfig.hypervisorPath.text),
        ("kernel", .string state.vmConfig.kernelPath.text),
        ("image", .string state.vmConfig.imagePath.text)]
    else [])

def headerLine (options : FormatOptions) : String :=
  printLeft options.idWidth "ID" ++ " " ++ printLeft options.pidWidth "PID" ++ " " ++
    printLeft options.statusWidth "STATUS" ++ " " ++ printLeft options.bundleWidth "BUNDLE" ++ " " ++
    printLeft options.createdWidth "CREATED" ++
    (if options.showAll then
      " " ++ printLeft options.hypervisorWidth "HYPERVISOR" ++ " " ++
        printLeft options.kernelWidth "KERNEL" ++ " " ++ printLeft options.imageWidth "IMAGE" ++ "\n"
    else "\n")

/-- `clr_oci_list_vm` for each VM in order. -/
def listVms {A : Type} (show? : OciState → Option String → A) : List OciState → Sys → List A × Sys
  | [], sys => ([], sys)
  | state :: rest, sys =>
    let status := shownStatus env state sys
    let later := listVms show? rest status.2
    (show? state status.1 :: later.1, later.2)

inductive ListOutput where
  | refused
  | table (header : String) (lines : List String)
  | null
  | array (elements : List Json)

/-- `clr_oci_list`: what is printed, unless the format is none. -/
def clrOciList (rootDir : Option String) (format : Option String) (showAll : Bool)
    (directory : Directory) (sys : Sys) : ListOutput × Sys :=
  let list (useJson : Bool) : ListOutput × Sys :=
    let dirname := rootDir.getD runtimeDirPrefix
    let start : Listing := { options := { useJson := useJson, showAll := showAll } }
    let listing := (directory.names.getD []).foldl (visitName sys.files directory dirname) start
    let options := listing.options
    if useJson then
      if listing.vms = [] then (.null, sys)
      else
        let shown := listVms env (vmObject options) listing.vms sys
        (.array shown.1, shown.2)
    else
      let shown := listVms env (vmLine options) listing.vms sys
      (.table (headerLine options) shown.1, shown.2)
  match format with
  | none => (.refused, sys)
  | some format =>
    if format = "" then (.refused, sys)
    else if format = "json" then list true
    else if format = "table" then list false
    else (.refused, sys)

/-- `handler_list`. -/
def handlerList (rootDir : Option String) (format : Option String) (showAll : Bool)
    (directory : Directory) (sys : Sys) : ListOutput × Sys :=
  clrOciList env rootDir (some (format.getD "table")) showAll directory sys

structure OciState.Shown (state : OciState) : Prop where
  id : state.id.isSome
  bundlePath : state.bundlePath.isSome
  createTime : state.createTime.isSome

section Shown
variable (handler : Section) (view : OciState → Option String) (update : OciState → String → OciState)

theorem foldl_present (own : ∀ state, view (handler.part state) = view state)
    (handled : ∀ node state, handler.handle node state = strdupMember node state (update state))
    (updated : ∀ state text, view (update state text) = some text) (seen : List (Section × GNode))
    {reading : Reading} (before : reading.counts handler = 0 ∨ (view reading.state).isSome) :
    (seen.foldl visitStep reading).counts handler = 0 ∨
      (view (seen.foldl visitStep reading).state).isSome := by
  induction seen generalizing reading with
  | nil => exact before
  | cons visit rest ih =>
    obtain ⟨other, node⟩ := visit
    apply ih
    by_cases same : other = handler
    · subst same
      simp only [visitStep, Reading.visit, handled, strdupMember]
      split
      · simpa using before
      · exact Or.inr (by rw [updated]; rfl)
    · have kept : view (other.handle node reading.state).1 = view reading.state := by
        rw [← own, ← own reading.state]
        exact congrArg view (handle_part same)
      have uncounted : handler ≠ other := fun eq => same eq.symm
      simpa [visitStep, Reading.visit, uncounted, kept] using before

theorem stateFileRead_shown {files : Files} {path : String} {state : OciState}
    (read : stateFileRead files path = some state) : state.Shown := by
  unfold stateFileRead at read
  cases parsed : jsonParseFile files path with
  | none => simp [parsed] at read
  | some root =>
    simp only [parsed, foldl_handleStateSections, Option.ite_none_right_eq_some, Option.some.injEq] at read
    obtain ⟨complete, rfl⟩ := read
    have counted (handler : Section) (listed : handler ∈ Section.all) (needed : handler.needed = 1) :
        ¬ ((visits root.children).foldl visitStep Reading.start).counts handler = 0 := by
      have enough := List.all_eq_true.mp complete handler listed
      rw [needed, decide_eq_true_eq] at enough
      omega
    constructor
    · exact (foldl_present .id OciState.id (fun state text => { state with id := some text })
        (fun _ => rfl) (fun _ _ => rfl) (fun _ _ => rfl) _ (Or.inl rfl)).resolve_left
          (counted .id (by decide) rfl)
    · exact (foldl_present .bundlePath OciState.bundlePath
        (fun state text => { state with bundlePath := some text })
        (fun _ => rfl) (fun _ _ => rfl) (fun _ _ => rfl) _ (Or.inl rfl)).resolve_left
          (counted .bundlePath (by decide) rfl)
    · exact (foldl_present .created OciState.createTime
        (fun state text => { state with createTime := some text })
        (fun _ => rfl) (fun _ _ => rfl) (fun _ _ => rfl) _ (Or.inl rfl)).resolve_left
          (counted .created (by decide) rfl)

theorem vmGetState_shown {files : Files} {rootDir : Option String} {name : String} {state : OciState}
    (got : vmGetState files rootDir name = some state) : state.Shown := by
  unfold vmGetState at got
  simp only [Option.bind_eq_bind, Option.bind_eq_some_iff] at got
  obtain ⟨_, _, _, _, read⟩ := got
  exact stateFileRead_shown read

end Shown

section Read
variable (files : Files) (directory : Directory) (dirname : String)

def readEntry (name : String) : Option OciState :=
  if directory.isDir (buildPath [dirname, name]) then vmGetState files (some dirname) name else none

theorem visitName_eq (listing : Listing) (name : String) :
    visitName files directory dirname listing name =
      match readEntry files directory dirname name with
      | none => listing
      | some state =>
        let listing := if listing.options.useJson then listing else updateOptions listing state
        { listing with vms := listing.vms ++ [state] } := by
  unfold visitName readEntry
  cases directory.isDir (buildPath [dirname, name]) with
  | false => rfl
  | true => rfl

def listedVms : List OciState := (directory.names.getD []).filterMap (readEntry files directory dirname)

theorem listedVms_shown {state : OciState} (member : state ∈ listedVms files directory dirname) : state.Shown := by
  obtain ⟨name, _, read⟩ := List.mem_filterMap.mp member
  unfold readEntry at read
  split at read
  · exact vmGetState_shown read
  · cases read

theorem foldl_visitName_json (names : List String) {listing : Listing}
    (json : listing.options.useJson = true) :
    names.foldl (visitName files directory dirname) listing =
      { listing with vms := listing.vms ++ names.filterMap (readEntry files directory dirname) } := by
  induction names generalizing listing with
  | nil => simp
  | cons name rest ih =>
    rw [List.foldl_cons, visitName_eq, List.filterMap_cons]
    cases readEntry files directory dirname name with
    | none => exact ih json
    | some state =>
      have later := ih (show ({ listing with vms := listing.vms ++ [state] } : Listing).options.useJson =
        true from json)
      simp only [json, ↓reduceIte, later, List.append_assoc, List.singleton_append]

theorem foldl_visitName_table (names : List String) {listing : Listing}
    (table : listing.options.useJson = false) :
    names.foldl (visitName files directory dirname) listing =
      { (names.filterMap (readEntry files directory dirname)).foldl updateOptions listing with
        vms := listing.vms ++ names.filterMap (readEntry files directory dirname) } := by
  have kept : ∀ (states : List OciState) (first : Listing) (vms : List OciState),
      states.foldl updateOptions { first with vms := vms } =
        { states.foldl updateOptions first with vms := vms } := by
    intro states
    induction states with
    | nil => exact fun _ _ => rfl
    | cons state rest ih => exact fun first vms => ih (updateOptions first state) vms
  induction names generalizing listing with
  | nil => simp
  | cons name rest ih =>
    rw [List.foldl_cons, visitName_eq, List.filterMap_cons]
    cases readEntry files directory dirname name with
    | none => exact ih table
    | some state =>
      simp only [table, Bool.false_eq_true, ↓reduceIte]
      rw [ih (by exact table), kept]
      simp [updateOptions]

end Read

section Widths

def measured (showAll : Bool) (vms : List OciState) : FormatOptions :=
  (vms.foldl updateOptions { options := { showAll := showAll } }).options

theorem foldl_width {width : FormatOptions → Nat} {asked : OciState → Nat}
    (update : ∀ listing state, width (updateOptions listing state).options =
      max (width listing.options) (asked state)) (vms : List OciState) (listing : Listing) (least : Nat) :
    least ≤ width (vms.foldl updateOptions listing).options ↔
      least ≤ width listing.options ∨ ∃ state ∈ vms, least ≤ asked state := by
  induction vms generalizing listing with
  | nil => simp
  | cons state rest ih =>
    have either : least ≤ max (width listing.options) (asked state) ↔
        least ≤ width listing.options ∨ least ≤ asked state := by omega
    rw [List.foldl_cons, ih, update, either]
    simp only [List.mem_cons, exists_eq_or_imp, or_assoc]

theorem foldl_showAll (vms : List OciState) (listing : Listing) :
    (vms.foldl updateOptions listing).options.showAll = listing.options.showAll := by
  induction vms generalizing listing with
  | nil => rfl
  | cons state rest ih => exact ih (updateOptions listing state)

theorem statusLength_eq : statusLength = 8 := by decide

theorem foldl_statusWidth (vms : List OciState) {listing : Listing}
    (settled : listing.statusMax = statusLength ∧ listing.options.statusWidth = statusLength) :
    (vms.foldl updateOptions listing).options.statusWidth = statusLength := by
  induction vms generalizing listing with
  | nil => exact settled.2
  | cons state rest ih =>
    have set : listing.statusMax ≠ 0 := by
      rw [settled.1, statusLength_eq]
      decide
    apply ih
    simp only [updateOptions, if_neg set]
    exact settled

theorem length_status_le (status : Status) : (textOrNull status.toStr).length ≤ statusLength := by
  cases status <;> decide

structure FormatOptions.Hold (options : FormatOptions) (state : OciState) : Prop where
  id : (textOrNull state.id).length ≤ options.idWidth
  pid : (pidText state.pid).length ≤ options.pidWidth
  heading : "PID".length ≤ options.pidWidth
  status : options.statusWidth = statusLength
  bundle : (textOrNull state.bundlePath).length ≤ options.bundleWidth
  created : (textOrNull state.createTime).length ≤ options.createdWidth
  hypervisor : state.vmConfig.hypervisorPath.text.length ≤ options.hypervisorWidth
  kernel : state.vmConfig.kernelPath.text.length ≤ options.kernelWidth
  image : state.vmConfig.imagePath.text.length ≤ options.imageWidth

theorem textOrNull_of_isSome {text : Option String} (there : text.isSome) (other : String) :
    textOrNull text = text.getD other := by
  cases text with
  | none => cases there
  | some _ => rfl

theorem measured_hold (showAll : Bool) {vms : List OciState} {state : OciState} (member : state ∈ vms)
    (shown : state.Shown) : (measured showAll vms).Hold state := by
  have largest (width : FormatOptions → Nat) (asked : OciState → Nat)
      (update : ∀ listing state, width (updateOptions listing state).options =
        max (width listing.options) (asked state)) : asked state ≤ width (measured showAll vms) :=
    (foldl_width update vms _ _).mpr (Or.inr ⟨state, member, Nat.le_refl _⟩)
  have pids := largest FormatOptions.pidWidth (fun state => max (pidText state.pid).length "PID".length)
    fun _ _ => Nat.max_assoc _ _ _
  have ids := largest FormatOptions.idWidth (fun state => (state.id.getD "").length) fun _ _ => rfl
  have bundles := largest FormatOptions.bundleWidth
    (fun state => (state.bundlePath.getD (pidText state.pid)).length) fun _ _ => rfl
  have times := largest FormatOptions.createdWidth
    (fun state => (state.createTime.getD (state.bundlePath.getD (pidText state.pid))).length) fun _ _ => rfl
  refine {
    id := by rwa [textOrNull_of_isSome shown.id]
    pid := by omega
    heading := by omega
    status := ?_
    bundle := by rwa [textOrNull_of_isSome shown.bundlePath]
    created := by rwa [textOrNull_of_isSome shown.createTime]
    hypervisor := largest FormatOptions.hypervisorWidth
      (fun state => state.vmConfig.hypervisorPath.text.length) fun _ _ => rfl
    kernel := largest FormatOptions.kernelWidth (fun state => state.vmConfig.kernelPath.text.length)
      fun _ _ => rfl
    image := largest FormatOptions.imageWidth (fun state => state.vmConfig.imagePath.text.length)
      fun _ _ => rfl }
  cases vms with
  | nil => cases member
  | cons first rest => exact foldl_statusWidth rest ⟨rfl, rfl⟩

end Widths

section Table

def FormatOptions.widths (options : FormatOptions) : List Nat :=
  [options.idWidth, options.pidWidth, options.statusWidth, options.bundleWidth, options.createdWidth] ++
    if options.showAll then [options.hypervisorWidth, options.kernelWidth, options.imageWidth] else []

def vmCells (showAll : Bool) (state : OciState) (status : Option String) : List String :=
  [textOrNull state.id, pidText state.pid, textOrNull status, textOrNull state.bundlePath,
    textOrNull state.createTime] ++
    if showAll then
      [state.vmConfig.hypervisorPath.text, state.vmConfig.kernelPath.text, state.vmConfig.imagePath.text]
    else []

def headings (showAll : Bool) : List String :=
  ["ID", "PID", "STATUS", "BUNDLE", "CREATED"] ++
    if showAll then ["HYPERVISOR", "KERNEL", "IMAGE"] else []

def columnsOf (widths : List Nat) (cells : List String) : List (Nat × List Char) :=
  widths.zip (cells.map String.toList)

theorem toList_printLeft (width : Nat) (text : String) :
    (printLeft width text).toList = justify width text.toList := by
  rw [printLeft, justify, String.toList_append, String.toList_ofList, String.length_toList]

theorem printLeft_pid {width : Nat} (wide : 1 ≤ width) (pid : GPid) :
    (if pid = 0 then printLeftCut width width "0" else printLeft width (pidText pid)) =
      printLeft width (pidText pid) := by
  split
  · next zero =>
    have whole : "0".toList.take width = "0".toList := List.take_of_length_le wide
    rw [printLeftCut, whole, zero]
    rfl
  · rfl

theorem vmLine_eq {options : FormatOptions} (wide : 1 ≤ options.pidWidth) (state : OciState)
    (status : Option String) :
    (vmLine options state status).toList =
      layout (columnsOf options.widths (vmCells options.showAll state status)) ++ ['\n'] := by
  rw [vmLine, printLeft_pid wide]
  cases all : options.showAll with
  | false =>
    simp [FormatOptions.widths, vmCells, columnsOf, layout, toList_printLeft, all]
  | true =>
    simp [FormatOptions.widths, vmCells, columnsOf, layout, toList_printLeft, all]

theorem headerLine_eq (options : FormatOptions) :
    (headerLine options).toList =
      layout (columnsOf options.widths (headings options.showAll)) ++ ['\n'] := by
  rw [headerLine]
  cases all : options.showAll with
  | false => simp [FormatOptions.widths, headings, columnsOf, layout, toList_printLeft, all]
  | true => simp [FormatOptions.widths, headings, columnsOf, layout, toList_printLeft, all]

theorem FormatOptions.Hold.fits {options : FormatOptions} {state : OciState} (hold : options.Hold state)
    (status : Status) : ∀ column ∈ columnsOf options.widths (vmCells options.showAll state status.toStr),
      column.2.length ≤ column.1 := by
  have named := length_status_le status
  rw [← hold.status] at named
  cases all : options.showAll with
  | false =>
    simp only [columnsOf, FormatOptions.widths, vmCells, all, Bool.false_eq_true, ↓reduceIte,
      List.append_nil, List.map_cons, List.map_nil, List.zip_cons_cons, List.zip_nil_right,
      List.forall_mem_cons, String.length_toList, List.not_mem_nil, false_imp_iff, implies_true]
    exact ⟨hold.id, hold.pid, named, hold.bundle, hold.created, trivial⟩
  | true =>
    simp only [columnsOf, FormatOptions.widths, vmCells, all, ↓reduceIte, List.cons_append,
      List.nil_append, List.map_cons, List.map_nil, List.zip_cons_cons, List.zip_nil_right,
      List.forall_mem_cons, String.length_toList, List.not_mem_nil, false_imp_iff, implies_true]
    exact ⟨hold.id, hold.pid, named, hold.bundle, hold.created, hold.hypervisor, hold.kernel, hold.image,
      trivial⟩

theorem shownStatus_eq (state : OciState) (sys : Sys) :
    ∃ status : Status, (shownStatus env state sys).1 = status.toStr ∧
      (status = state.status ∨ status = .stopped) := by
  unfold shownStatus
  dsimp only
  split
  · exact ⟨state.status, rfl, Or.inl rfl⟩
  · exact ⟨.stopped, rfl, Or.inr rfl⟩

theorem shownStatus_sys (state : OciState) (sys : Sys) :
    ∃ clock, (shownStatus env state sys).2 = { sys with clock := clock } := by
  unfold shownStatus vmRunning
  split
  · exact ⟨sys.clock, rfl⟩
  · exact ⟨_, rfl⟩

theorem listVms_forall₂ {A : Type} (show? : OciState → Option String → A) (vms : List OciState) (sys : Sys) :
    List.Forall₂ (fun state shown => ∃ clock,
        shown = show? state (shownStatus env state { sys with clock := clock }).1)
      vms (listVms env show? vms sys).1 := by
  induction vms generalizing sys with
  | nil => exact .nil
  | cons state rest ih =>
    have later := ih (shownStatus env state sys).2
    obtain ⟨tick, moved⟩ := shownStatus_sys env state sys
    rw [moved] at later
    refine .cons ⟨sys.clock, rfl⟩ ?_
    rw [moved]
    exact later

theorem forall₂_imp_mem {A B : Type} {R S : A → B → Prop} {left : List A} {right : List B}
    (paired : List.Forall₂ R left right) (imp : ∀ a b, a ∈ left → R a b → S a b) :
    List.Forall₂ S left right :=
  ((List.forall₂_and_left _ _).mpr ⟨fun _ member => member, paired⟩).imp
    fun a b ⟨member, related⟩ => imp a b member related

theorem forall₂_of_filterMap {A B C : Type} {f : A → Option B} {S : B → C → Prop} {R : A → C → Prop}
    {left : List A} {right : List C} (paired : List.Forall₂ S (left.filterMap f) right)
    (imp : ∀ a b c, a ∈ left → f a = some b → S b c → R a c) :
    List.Forall₂ R (left.filter fun a => (f a).isSome) right := by
  induction left generalizing right with
  | nil =>
    cases paired
    exact .nil
  | cons a rest ih =>
    have later {right : List C} (paired : List.Forall₂ S (rest.filterMap f) right) :=
      ih paired fun a b c member => imp a b c (List.mem_cons_of_mem _ member)
    rw [List.filterMap_cons] at paired
    cases found : f a with
    | none =>
      rw [found] at paired
      rw [List.filter_cons_of_neg (by simp [found])]
      exact later paired
    | some b =>
      rw [found] at paired
      obtain ⟨c, more, related, further, rfl⟩ := List.forall₂_cons_left_iff.mp paired
      rw [List.filter_cons_of_pos (by simp [found])]
      exact .cons (imp a b c List.mem_cons_self found related) (later further)

theorem columnsOf_widths {widths : List Nat} {cells : List String} (paired : cells.length = widths.length) :
    (columnsOf widths cells).map Prod.fst = widths := by
  apply List.map_fst_zip
  rw [List.length_map, paired]

theorem length_vmCells (options : FormatOptions) (state : OciState) (status : Option String) :
    (vmCells options.showAll state status).length = options.widths.length := by
  cases all : options.showAll <;> simp [vmCells, FormatOptions.widths, all]

theorem length_headings (options : FormatOptions) :
    (headings options.showAll).length = options.widths.length := by
  cases all : options.showAll <;> simp [headings, FormatOptions.widths, all]

theorem handlerList_table (rootDir : Option String) (showAll : Bool) (directory : Directory) (sys : Sys) :
    let vms := listedVms sys.files directory (rootDir.getD runtimeDirPrefix)
    let options := measured showAll vms
    handlerList env rootDir none showAll directory sys =
      (.table (headerLine options) (listVms env (vmLine options) vms sys).1,
        (listVms env (vmLine options) vms sys).2) := by
  have found := foldl_visitName_table sys.files directory (rootDir.getD runtimeDirPrefix)
    (directory.names.getD [])
    (show ({ options := { showAll := showAll } } : Listing).options.useJson = false from rfl)
  simp only [handlerList, Option.getD_none, clrOciList]
  rw [if_neg (by decide), if_neg (by decide), if_pos trivial]
  simp only [found, Bool.false_eq_true, ↓reduceIte, List.nil_append]
  rfl

/-- The line shows the VM in the columns given, with a status that was found out at some time. -/
def Shows (widths : List Nat) (showAll : Bool) (sys : Sys) (state : OciState) (line : String)
    (columns : List (Nat × List Char)) : Prop :=
  line.toList = layout columns ++ ['\n'] ∧ ∃ clock,
    columns = columnsOf widths (vmCells showAll state (shownStatus env state { sys with clock := clock }).1)

theorem Shows.columns_fit {env : Env} {showAll : Bool} {sys : Sys} {vms : List OciState} {state : OciState}
    {line : String} {columns : List (Nat × List Char)} (member : state ∈ vms) (texts : state.Shown)
    (shows : Shows env (measured showAll vms).widths showAll sys state line columns) :
    columns.map Prod.fst = (measured showAll vms).widths ∧
      ∀ column ∈ columns, column.2.length ≤ column.1 := by
  obtain ⟨_, clock, rfl⟩ := shows
  have all : (measured showAll vms).showAll = showAll := foldl_showAll vms _
  obtain ⟨status, named, _⟩ := shownStatus_eq env state { sys with clock := clock }
  have fits := (measured_hold showAll member texts).fits status
  have paired := length_vmCells (measured showAll vms) state status.toStr
  rw [all] at fits paired
  rw [named]
  exact ⟨columnsOf_widths paired, fits⟩

theorem Shows.starts {env : Env} {showAll : Bool} {sys : Sys} {vms : List OciState} {state : OciState}
    {line : String} {columns : List (Nat × List Char)} (member : state ∈ vms) (texts : state.Shown)
    (shows : Shows env (measured showAll vms).widths showAll sys state line columns) :
    starts columns = starts ((measured showAll vms).widths.map fun width => (width, [])) := by
  obtain ⟨firsts, fits⟩ := shows.columns_fit member texts
  rw [starts_of_fits fits, ← firsts, List.map_map]
  rfl

theorem handlerList_shows (rootDir : Option String) (showAll : Bool) (directory : Directory) (sys : Sys) :
    let vms := listedVms sys.files directory (rootDir.getD runtimeDirPrefix)
    let widths := (measured showAll vms).widths
    ∃ header lines after, handlerList env rootDir none showAll directory sys = (.table header lines, after) ∧
      header.toList = layout (columnsOf widths (headings showAll)) ++ ['\n'] ∧
      List.Forall₂ (fun state line => ∃ columns, Shows env widths showAll sys state line columns)
        vms lines := by
  intro vms widths
  have all : (measured showAll vms).showAll = showAll := foldl_showAll vms _
  have head := headerLine_eq (measured showAll vms)
  rw [all] at head
  refine ⟨_, _, _, handlerList_table env rootDir showAll directory sys, head, ?_⟩
  apply forall₂_imp_mem (listVms_forall₂ env (vmLine (measured showAll vms)) vms sys)
  rintro state line member ⟨clock, rfl⟩
  have hold := measured_hold showAll member (listedVms_shown sys.files directory _ member)
  have text := vmLine_eq (Nat.le_trans (by decide) hold.heading) state
    (shownStatus env state { sys with clock := clock }).1
  rw [all] at text
  exact ⟨_, text, clock, rfl⟩

/-- The table can be read back: with the widths that were measured, the line of every VM is cut into
its cells, up to blanks at their ends, and the cells of all lines begin at the same places. -/
theorem table_reads_back (rootDir : Option String) (showAll : Bool) (directory : Directory) (sys : Sys) :
    let vms := listedVms sys.files directory (rootDir.getD runtimeDirPrefix)
    let widths := (measured showAll vms).widths
    ∃ header lines after,
      handlerList env rootDir none showAll directory sys = (.table header lines, after) ∧
      List.Forall₂ (fun state line => ∃ columns, Shows env widths showAll sys state line columns ∧
          (cutColumns widths line.toList.dropLast).map trimEnd =
            columns.map (fun column => trimEnd column.2) ∧
          starts columns = starts (widths.map fun width => (width, []))) vms lines := by
  intro vms widths
  obtain ⟨header, lines, after, printed, _, each⟩ := handlerList_shows env rootDir showAll directory sys
  refine ⟨header, lines, after, printed, forall₂_imp_mem each ?_⟩
  rintro state line member ⟨columns, shows⟩
  have texts := listedVms_shown sys.files directory _ member
  obtain ⟨firsts, fits⟩ := shows.columns_fit member texts
  refine ⟨columns, shows, ?_, shows.starts member texts⟩
  have cut := cutColumns_layout fits
  rw [firsts] at cut
  rw [shows.1, List.dropLast_concat, cut, List.map_map]
  apply List.map_congr_left
  exact fun _ _ => trimEnd_justify

def Reaches (vms : List OciState) (text : OciState → String) (heading : String) : Prop :=
  ∃ state ∈ vms, heading.length ≤ (text state).length

structure HeadingsFit (showAll : Bool) (vms : List OciState) : Prop where
  id : Reaches vms (fun state => textOrNull state.id) "ID"
  bundle : Reaches vms (fun state => textOrNull state.bundlePath) "BUNDLE"
  created : showAll = true → Reaches vms (fun state => textOrNull state.createTime) "CREATED"
  hypervisor : showAll = true → Reaches vms (fun state => state.vmConfig.hypervisorPath.text) "HYPERVISOR"
  kernel : showAll = true → Reaches vms (fun state => state.vmConfig.kernelPath.text) "KERNEL"

theorem reaches_iff (showAll : Bool) (vms : List OciState) (width : FormatOptions → Nat)
    (asked : OciState → Nat) (text : OciState → String) (heading : String)
    (update : ∀ listing state, width (updateOptions listing state).options =
      max (width listing.options) (asked state))
    (begins : width { showAll := showAll } = 0) (named : heading ≠ "")
    (same : ∀ state ∈ vms, asked state = (text state).length) :
    heading.length ≤ width (measured showAll vms) ↔ Reaches vms text heading := by
  have positive : 0 < heading.length := Nat.pos_of_ne_zero fun none => named (String.length_eq_zero_iff.mp none)
  rw [measured, foldl_width update]
  simp only [begins]
  constructor
  · rintro (none | ⟨state, member, long⟩)
    · omega
    · exact ⟨state, member, same state member ▸ long⟩
  · rintro ⟨state, member, long⟩
    exact Or.inr ⟨state, member, (same state member).symm ▸ long⟩

/-- The headings begin where the columns do exactly if no heading but the last overruns. -/
theorem starts_headings {options : FormatOptions} (pid : "PID".length ≤ options.pidWidth)
    (status : options.statusWidth = statusLength) :
    starts (columnsOf options.widths (headings options.showAll)) =
        starts (options.widths.map fun width => (width, [])) ↔
      "ID".length ≤ options.idWidth ∧ "BUNDLE".length ≤ options.bundleWidth ∧
        (options.showAll = true → "CREATED".length ≤ options.createdWidth) ∧
        (options.showAll = true → "HYPERVISOR".length ≤ options.hypervisorWidth) ∧
        (options.showAll = true → "KERNEL".length ≤ options.kernelWidth) := by
  have paired : (columnsOf options.widths (headings options.showAll)).length =
      (options.widths.map fun width => (width, ([] : List Char))).length := by
    rw [columnsOf, List.length_zip, List.length_map, List.length_map, length_headings, Nat.min_self]
  have fixed : 3 ≤ options.pidWidth ∧ 6 ≤ options.statusWidth := by
    rw [status, statusLength_eq]
    exact ⟨pid, by decide⟩
  rw [starts_eq_iff paired]
  cases all : options.showAll with
  | false =>
    simp [columnsOf, FormatOptions.widths, headings, extent, all, fixed]
    rfl
  | true =>
    simp [columnsOf, FormatOptions.widths, headings, extent, all, fixed]
    rfl

theorem headingsFit_iff {showAll : Bool} {vms : List OciState} (texts : ∀ state ∈ vms, state.Shown) :
    let options := measured showAll vms
    HeadingsFit showAll vms ↔
      "ID".length ≤ options.idWidth ∧ "BUNDLE".length ≤ options.bundleWidth ∧
        (showAll = true → "CREATED".length ≤ options.createdWidth) ∧
        (showAll = true → "HYPERVISOR".length ≤ options.hypervisorWidth) ∧
        (showAll = true → "KERNEL".length ≤ options.kernelWidth) := by
  dsimp only
  have id := reaches_iff showAll vms FormatOptions.idWidth (fun state => (state.id.getD "").length)
    (fun state => textOrNull state.id) "ID" (fun _ _ => rfl) rfl (by decide)
    fun state member => by rw [textOrNull_of_isSome (texts state member).id]
  have bundle := reaches_iff showAll vms FormatOptions.bundleWidth
    (fun state => (state.bundlePath.getD (pidText state.pid)).length)
    (fun state => textOrNull state.bundlePath) "BUNDLE" (fun _ _ => rfl) rfl (by decide)
    fun state member => by rw [textOrNull_of_isSome (texts state member).bundlePath]
  have created := reaches_iff showAll vms FormatOptions.createdWidth
    (fun state => (state.createTime.getD (state.bundlePath.getD (pidText state.pid))).length)
    (fun state => textOrNull state.createTime) "CREATED" (fun _ _ => rfl) rfl (by decide)
    fun state member => by rw [textOrNull_of_isSome (texts state member).createTime]
  have hypervisor := reaches_iff showAll vms FormatOptions.hypervisorWidth
    (fun state => state.vmConfig.hypervisorPath.text.length)
    (fun state => state.vmConfig.hypervisorPath.text) "HYPERVISOR" (fun _ _ => rfl) rfl (by decide)
    fun _ _ => rfl
  have kernel := reaches_iff showAll vms FormatOptions.kernelWidth
    (fun state => state.vmConfig.kernelPath.text.length)
    (fun state => state.vmConfig.kernelPath.text) "KERNEL" (fun _ _ => rfl) rfl (by decide)
    fun _ _ => rfl
  rw [id, bundle, created, hypervisor, kernel]
  exact ⟨fun fit => ⟨fit.id, fit.bundle, fit.created, fit.hypervisor, fit.kernel⟩,
    fun ⟨id, bundle, created, hypervisor, kernel⟩ => ⟨id, bundle, created, hypervisor, kernel⟩⟩

def directoryOf (names : List String) : Directory := { names := some names, isDir := fun _ => true }

/-- The headings stand over their columns exactly if each column but the last has a text that is as
long as its heading. -/
theorem headings_aligned_iff (rootDir : Option String) (showAll : Bool) (directory : Directory) (sys : Sys)
    (some : listedVms sys.files directory (rootDir.getD runtimeDirPrefix) ≠ []) :
    let vms := listedVms sys.files directory (rootDir.getD runtimeDirPrefix)
    let widths := (measured showAll vms).widths
    ∃ header lines after,
      handlerList env rootDir none showAll directory sys = (.table header lines, after) ∧
      header.toList = layout (columnsOf widths (headings showAll)) ++ ['\n'] ∧
      (List.Forall₂ (fun state line => ∃ columns, Shows env widths showAll sys state line columns ∧
          starts (columnsOf widths (headings showAll)) = starts columns) vms lines ↔
        HeadingsFit showAll vms) := by
  intro vms widths
  obtain ⟨header, lines, after, printed, head, each⟩ := handlerList_shows env rootDir showAll directory sys
  refine ⟨header, lines, after, printed, head, ?_⟩
  have texts : ∀ state ∈ vms, state.Shown := fun state member => listedVms_shown sys.files directory _ member
  have together : starts (columnsOf widths (headings showAll)) =
      starts (widths.map fun width => (width, [])) ↔ HeadingsFit showAll vms := by
    obtain ⟨first, member⟩ := List.exists_mem_of_ne_nil _ some
    have hold := measured_hold showAll member (texts first member)
    have all : (measured showAll vms).showAll = showAll := foldl_showAll vms _
    have fit := starts_headings hold.heading hold.status
    rw [all] at fit
    exact fit.trans (headingsFit_iff texts).symm
  rw [← together]
  constructor
  · intro aligned
    cases vms_eq : vms with
    | nil => exact absurd vms_eq some
    | cons first rest =>
      rw [vms_eq] at aligned
      obtain ⟨line, _, ⟨columns, shows, same⟩, _⟩ := List.forall₂_cons_left_iff.mp aligned
      have member : first ∈ vms := vms_eq ▸ List.mem_cons_self
      exact same.trans (shows.starts member (texts first member))
  · intro fit
    apply forall₂_imp_mem each
    rintro state line member ⟨columns, shows⟩
    exact ⟨columns, shows, fit.trans (shows.starts member (texts state member)).symm⟩

theorem running_listed : listedVms (runningFiles [] (bundleFiles [])) (directoryOf ["c1"]) "/run" ≠ [] := by
  decide +kernel

theorem headings_of_running :
    let sys := Sys.idle (runningFiles [] (bundleFiles []))
    let vms := listedVms sys.files (directoryOf ["c1"]) "/run"
    let widths := (measured false vms).widths
    ∃ header lines after,
      handlerList Env.calm (some "/run") none false (directoryOf ["c1"]) sys = (.table header lines, after) ∧
      header.toList = layout (columnsOf widths (headings false)) ++ ['\n'] ∧
      (List.Forall₂ (fun state line => ∃ columns, Shows Env.calm widths false sys state line columns ∧
          starts (columnsOf widths (headings false)) = starts columns) vms lines ↔ HeadingsFit false vms) :=
  headings_aligned_iff Env.calm (some "/run") false (directoryOf ["c1"])
    (Sys.idle (runningFiles [] (bundleFiles []))) running_listed

end Table

section Registered
variable {env : Env} {rootDir : Option String} {sys : Sys} {registry : Registry}

theorem vmGetState_eq (files : Files) (name : String) :
    vmGetState files (some (rootDir.getD runtimeDirPrefix)) name =
      stateFileRead files (statePathOf rootDir name) := by
  let config : Config := { rootDir := some (rootDir.getD runtimeDirPrefix), optargContainerId := some name }
  have located : runtimePathGet config = some (config.located name) := rfl
  have path : (config.located name).state.runtimePath = runtimePath rootDir name := rfl
  have set : stateFileGet (config.located name) = some (config.located name).withStateFilePath := by
    rw [stateFileGet, path, if_pos (runtimePath_isSet _ _)]
  show ((runtimePathGet config).bind fun config => (stateFileGet config).bind fun config =>
    stateFileRead files config.state.stateFilePath.text) = _
  rw [located, Option.bind_some, set, Option.bind_some]
  rfl

/-- The element of a container is its entry, but that it is stopped if its process cannot be signalled. -/
def ShowsEntry (env : Env) (registry : Registry) (name : String) (element : Json) : Prop :=
  ∃ entry clock, registry name = some entry ∧
    element.member? "id" = some (.string name) ∧
    element.member? "pid" = some (.int entry.pid.toInt) ∧
    element.member? "status" = some (Json.ofString?
      (if entry.pid ≠ 0 ∧ (env.host clock).kill entry.pid 0 then entry.status else .stopped).toStr)

theorem stateFileRead_of_noDocument {path : String} (absent : NoDocument path sys) :
    stateFileRead sys.files path = none := by
  unfold stateFileRead jsonParseFile
  cases held : sys.files path with
  | none => rfl
  | some content =>
    cases content with
    | json document => exact absurd held (absent document)
    | text value => rfl

theorem Represents.state (represents : Represents rootDir sys registry) {name : String}
    (proper : Proper rootDir name) {state : OciState}
    (read : stateFileRead sys.files (statePathOf rootDir name) = some state) :
    registry name = some ⟨state.pid, state.status⟩ ∧ state.id = some name := by
  cases found : registry name with
  | none =>
    have unread := stateFileRead_of_noDocument ((represents name proper).absent found)
    rw [unread] at read
    cases read
  | some entry =>
    obtain ⟨config, inputs, stored, rfl, rfl, pid, status⟩ := (represents name proper).present entry found
    rw [statePathOf, stored.read] at read
    obtain ⟨console, same⟩ := Option.ite_none_right_eq_some.mp read
    cases same
    exact ⟨congrArg Option.some (show entry = ⟨config.state.workloadPid, config.state.status⟩ by
      rw [pid, status]), rfl⟩

theorem vmObject_members (options : FormatOptions) (state : OciState) (status : Option String) :
    let object := vmObject options state status
    object.member? "id" = some (Json.ofString? state.id) ∧
      object.member? "pid" = some (.int state.pid.toInt) ∧
      object.member? "status" = some (Json.ofString? status) := by
  refine ⟨?_, ?_, ?_⟩ <;> simp [vmObject, Json.member?, List.lookup_cons]

theorem shownStatus_iff (state : OciState) (sys : Sys) (clock : Nat) :
    (shownStatus env state { sys with clock := clock }).1 =
      (if state.pid ≠ 0 ∧ (env.host clock).kill state.pid 0 then state.status else .stopped).toStr := by
  unfold shownStatus vmRunning
  by_cases none : state.pid = 0
  · simp [none]
  · by_cases runs : (env.host clock).kill state.pid 0 = true <;> simp [none, runs]

theorem handlerList_json (showAll : Bool) (directory : Directory) :
    let vms := listedVms sys.files directory (rootDir.getD runtimeDirPrefix)
    let elements := (listVms env (vmObject { useJson := true, showAll := showAll }) vms sys).1
    (handlerList env rootDir (some "json") showAll directory sys).1 =
      if elements = [] then .null else .array elements := by
  have found := foldl_visitName_json sys.files directory (rootDir.getD runtimeDirPrefix)
    (directory.names.getD [])
    (show ({ options := { useJson := true, showAll := showAll } } : Listing).options.useJson = true from rfl)
  simp only [handlerList, Option.getD_some, clrOciList]
  rw [if_neg (by decide), if_pos trivial]
  simp only [found, ↓reduceIte, List.nil_append]
  have all := found.symm
  rw [← listedVms]
  cases listedVms sys.files directory (rootDir.getD runtimeDirPrefix) with
  | nil => rfl
  | cons first rest => rfl

/-- The listing as JSON has an element for each entry of the directory whose state can be read. -/
theorem Represents.listed (env : Env) (represents : Represents rootDir sys registry) (showAll : Bool)
    (directory : Directory) (proper : ∀ name ∈ directory.names.getD [], Proper rootDir name) :
    ∃ elements : List Json, (handlerList env rootDir (some "json") showAll directory sys).1 =
        (if elements = [] then .null else .array elements) ∧
      List.Forall₂ (ShowsEntry env registry)
        ((directory.names.getD []).filter fun name => (readEntry sys.files
          directory (rootDir.getD runtimeDirPrefix) name).isSome) elements := by
  refine ⟨_, handlerList_json showAll directory, ?_⟩
  apply forall₂_of_filterMap (listVms_forall₂ env _ _ _)
  rintro name state element member read ⟨clock, rfl⟩
  unfold readEntry at read
  split at read
  · rw [vmGetState_eq] at read
    obtain ⟨entry, id⟩ := represents.state (proper name member) read
    obtain ⟨named, process, status⟩ := vmObject_members { useJson := true, showAll := showAll } state
      (shownStatus env state { sys with clock := clock }).1
    refine ⟨_, clock, entry, ?_, process, ?_⟩
    · rw [named, id]
      rfl
    · rw [status, shownStatus_iff]
  · cases read

/-- After any run of the runtime, the listing as JSON has one element for each entry of the directory
whose state can be read, in this order: it shows the entry that the container has in the registry, and
what is not registered is not listed. -/
theorem listing_shows_registry (sequential : env.Sequential) (start : Represents rootDir sys registry)
    (inputs : List (String × RuntimeCommand))
    (sane : Along (act env rootDir) (Sane env rootDir) sys inputs) (showAll : Bool) (directory : Directory)
    (proper : ∀ name ∈ directory.names.getD [], Proper rootDir name) :
    ∃ (final : Registry) (elements : List Json), Path (Addressed Advance) registry inputs final ∧
      (handlerList env rootDir (some "json") showAll directory (inputs.foldl (act env rootDir) sys)).1 =
        (if elements = [] then .null else .array elements) ∧
      List.Forall₂ (ShowsEntry env final)
        ((directory.names.getD []).filter fun name => (readEntry (inputs.foldl (act env rootDir) sys).files
          directory (rootDir.getD runtimeDirPrefix) name).isSome) elements := by
  obtain ⟨final, path, represents⟩ := (runtime_simulates sequential).run start sane
  obtain ⟨elements, printed, shown⟩ := represents.listed env showAll directory proper
  exact ⟨final, elements, path, printed, shown⟩

end Registered

theorem two_containers_listed :
    ∃ (final : Registry) (elements : List Json),
      Path (Addressed Advance) (fun _ => none) twoContainers final ∧
      (handlerList Env.calm (some "/run") (some "json") false (directoryOf ["c1", "c2"])
          (twoContainers.foldl (act Env.calm (some "/run")) bundleSys)).1 =
        (if elements = [] then .null else .array elements) ∧
      List.Forall₂ (ShowsEntry Env.calm final)
        (["c1", "c2"].filter fun name =>
          (readEntry (twoContainers.foldl (act Env.calm (some "/run")) bundleSys).files
            (directoryOf ["c1", "c2"]) "/run" name).isSome) elements := by
  apply listing_shows_registry Env.calm_sequential bundleSys_blank twoContainers twoContainers_sane false
    (directoryOf ["c1", "c2"])
  intro name member
  rcases List.mem_pair.mp member with rfl | rfl
  · exact proper_c1
  · exact proper_c2

end ClrOci
