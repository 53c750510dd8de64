import ClrOci.Collection
import ClrOci.Container

/-! Documents that break the handlers of the bundle configuration: a child that is read and is not
there, and a conversion of a text that is not there.
-/

set_option autoImplicit false

namespace ClrOci

open Foundation

-- The text of a timeout is converted by `g_ascii_strtoll`.
def timeoutConversions (node : GNode) : List (Option String) :=
  if node.data = some "timeout" ∧ node.hasChildren then [childText node] else []

/-- What `handle_hook` converts, over the nodes of one list. -/
def hookConversions : Scan Hook → List GNode → List (Option String)
  | _, [] => []
  | scan, node :: rest =>
    (if scan.error then [] else timeoutConversions node) ++ hookConversions (handleHook scan node) rest

def hookLists : List String := ["prestart", "poststart", "poststop"]

-- A list of hooks that `handle_hooks_section` goes through, unless there was an error.
def isHookList (node : GNode) : Bool := node.hasChildren && node.data.any hookLists.contains

/-- What `handle_hooks_section` converts. -/
def sectionConversions : HookScan → List GNode → List (Option String)
  | _, [] => []
  | scan, node :: rest =>
    (if isHookList node && !scan.error then hookConversions ⟨scan.current, scan.error, []⟩ node.children
      else []) ++ sectionConversions (handleHooksSection scan node) rest

/-- What `process_config_start` converts for the hooks, over the top-level nodes. -/
def configConversions (host : Host) : Parse → List GNode → List (Option String)
  | _, [] => []
  | parse, node :: rest =>
    (if node.data = some SpecHandler.hooks.name then
      sectionConversions ⟨parse.statics.currentHook, false, parse.config.oci.hooks⟩ node.children
    else []) ++
      match processConfigStart host parse node with
      | none => []
      | some next => configConversions host next rest

/-- Every child that is read is there, and so is every text that is converted. -/
def HandledSafely (host : Host) (config : Config) (root : GNode) : Prop :=
  (parseSections host root config).isSome = true ∧
    ∀ text ∈ configConversions host { config := config } root.children, text.isSome = true

/-- A top-level member that is read without a check has no child. -/
def Childless (node : GNode) : Prop :=
  (node.data = some "ociVersion" ∨ node.data = some "hostname") ∧ node.hasChildren = false

def UntextedUser (node : GNode) : Prop :=
  node.data = some SpecHandler.process.name ∧ ∃ user ∈ node.children, user.data = some "user" ∧
    ∃ member ∈ user.children, (member.data = some "uid" ∨ member.data = some "gid") ∧
      childText member = none

def hookOf (group : List GNode) : Option Hook :=
  group.foldl (fun current node =>
    if node.hasChildren then fillHook (node.data.getD "") node (current.getD default) else current) none

def endedGroups : List GNode → List GNode → List (List GNode)
  | _, [] => []
  | group, node :: rest =>
    if node.data = none then group :: endedGroups [] rest else endedGroups (group ++ [node]) rest

-- The nodes of all the lists of a section; the end of a list ends a hook as a separator does.
def hookNodes (lists : List GNode) : List GNode :=
  lists.flatMap fun node => if isHookList node then node.children ++ [GNode.separator] else []

def Untexted (node : GNode) : Prop :=
  node.data = some "timeout" ∧ node.hasChildren = true ∧ childText node = none

/-- Among the nodes is a timeout without a text, and before it no hook ends that has a member but no
path; the group comes before the nodes. -/
def ReachesUntexted (group nodes : List GNode) : Prop :=
  ∃ before timeout after, nodes = before ++ timeout :: after ∧ Untexted timeout ∧
    ∀ ended ∈ endedGroups group before, (hookOf ended).all hookComplete = true

def UntextedTimeout (node : GNode) : Prop :=
  node.data = some SpecHandler.hooks.name ∧ ReachesUntexted [] (hookNodes node.children)

section Crash
variable {host : Host} {parse : Parse} {node : GNode}

theorem handleUserSection_eq_none_iff (user : User) (node : GNode) :
    handleUserSection user node = none ↔
      (node.data = some "uid" ∨ node.data = some "gid") ∧ childText node = none := by
  unfold handleUserSection
  split
  · next uid => simp [uid]
  · next noUid =>
    split
    · next gid => simp [gid]
    · next noGid => simp [noUid, noGid]

theorem handleProcessSection_eq_none_iff (process : Process) (node : GNode) :
    handleProcessSection process node = none ↔
      node.data = some "user" ∧ ∃ member ∈ node.children,
        (member.data = some "uid" ∨ member.data = some "gid") ∧ childText member = none := by
  unfold handleProcessSection
  split
  · next childless =>
    have none : node.children = [] := by
      simpa [GNode.hasChildren] using childless
    simp [none]
  · split
    · next named => simp [named]
    · split
      · next named => simp [named]
      · split
        · next named => simp [named]
        · split
          · next named => simp [named]
          · split
            · next user =>
              rw [Option.map_eq_none_iff, foldlM_eq_none_iff handleUserSection_eq_none_iff]
              simp [user]
            · next other => simp [other]

theorem processHandleSection_eq_none_iff :
    processHandleSection node parse = none ↔ ∃ user ∈ node.children, user.data = some "user" ∧
      ∃ member ∈ user.children, (member.data = some "uid" ∨ member.data = some "gid") ∧
        childText member = none := by
  unfold processHandleSection
  cases run : node.children.foldlM handleProcessSection parse.config.oci.process with
  | none => simpa [run] using (foldlM_eq_none_iff handleProcessSection_eq_none_iff).mp run
  | some process =>
    have fine := mt (foldlM_eq_none_iff handleProcessSection_eq_none_iff).mpr (by rw [run]; simp)
    simpa [run] using fine

theorem dispatch_eq_none_iff :
    dispatch startSpecHandlers host node parse = none ↔ UntextedUser node := by
  unfold dispatch UntextedUser
  split
  · next unknown =>
    have other := List.find?_eq_none.mp unknown .process (by decide)
    simp only [beq_iff_eq] at other
    simp [Ne.symm other]
  · next handler found =>
    have named : some handler.name = node.data := by
      simpa using List.find?_some found
    have run : (handler.handleSection host node parse).bind (fun result =>
        some (if result.1 then result.2 else { result.2 with failed := result.2.failed ++ [handler.name] })) =
          none ↔ handler.handleSection host node parse = none := by
      cases handler.handleSection host node parse <;> simp
    refine Iff.trans run ?_
    rw [← named]
    cases handler with
    | process => simpa [SpecHandler.handleSection] using processHandleSection_eq_none_iff
    | _ => simp [SpecHandler.handleSection, SpecHandler.name]

theorem processConfigStart_eq_none_iff (parse : Parse) (node : GNode) :
    processConfigStart host parse node = none ↔ Childless node ∨ UntextedUser node := by
  have childless (update : Option String → Parse) :
      (node.childData?.bind fun text => some (update text)) = none ↔ node.hasChildren = false := by
    cases children : node.children <;> simp [GNode.childData?, GNode.hasChildren, children]
  unfold processConfigStart
  cases named : node.data with
  | none => simp [Childless, UntextedUser, named]
  | some name =>
    dsimp only
    split
    · next same =>
      subst same
      refine Iff.trans (childless _) ?_
      simp [Childless, UntextedUser, named, SpecHandler.name]
    · split
      · next same =>
        subst same
        refine Iff.trans (childless _) ?_
        simp [Childless, UntextedUser, named, SpecHandler.name]
      · next version hostname =>
        refine Iff.trans dispatch_eq_none_iff ?_
        simp [Childless, named, version, hostname]

theorem parseSections_isSome_iff {root : GNode} {config : Config} :
    (parseSections host root config).isSome = true ↔
      ∀ node ∈ root.children, ¬ Childless node ∧ ¬ UntextedUser node := by
  rw [← Option.ne_none_iff_isSome, ne_eq, parseSections, foldlM_eq_none_iff processConfigStart_eq_none_iff]
  simp only [not_exists, not_and, not_or]

end Crash

def hookWith (name : String) (node : GNode) (hook : Hook) : Hook where
  path := if name = "path" then Buffer.copy _ (textOrNull (childText node)) else hook.path
  args := if name = "args" then some (nodeToStrv node) else hook.args
  env := if name = "env" then some (nodeToStrv node) else hook.env
  timeout :=
    if name = "timeout" then Int32.ofInt (((childText node).bind strtoll).getD 0) else hook.timeout

theorem fillHook_eq (name : String) (node : GNode) (hook : Hook) :
    fillHook name node hook = some (hookWith name node hook) := by
  unfold fillHook hookWith
  split
  · next same => simp [same]
  · split
    · next same => simp [same]
    · split
      · next same => simp [same]
      · split
        · simp
        · rfl

section Timeouts
variable {scan scan' : Scan Hook} {group nodes : List GNode} {node : GNode} {saved saved' : List Hook}
  {current : Option Hook} {error : Bool}

theorem handleHook_error (stopped : scan.error = true) (node : GNode) : handleHook scan node = scan :=
  Scan.visit_error stopped node

theorem hookConversions_error (stopped : scan.error = true) (nodes : List GNode) :
    hookConversions scan nodes = [] := by
  induction nodes with
  | nil => rfl
  | cons node rest ih => rw [hookConversions, if_pos stopped, handleHook_error stopped, ih, List.nil_append]

theorem hookOf_append (group : List GNode) (node : GNode) :
    hookOf (group ++ [node]) =
      if node.hasChildren then fillHook (node.data.getD "") node ((hookOf group).getD default)
      else hookOf group := by
  rw [hookOf, List.foldl_append]
  rfl

theorem handleHook_member {name : String} (named : node.data = some name) :
    handleHook ⟨hookOf group, false, saved⟩ node = ⟨hookOf (group ++ [node]), false, saved⟩ := by
  rw [hookOf_append, named, Option.getD_some, handleHook, Scan.visit, if_neg (by simp), named]
  dsimp only
  split
  · rw [fillHook_eq]
  · rfl

theorem handleHook_separator (parted : node.data = none) :
    handleHook ⟨current, false, saved⟩ node = (Scan.mk current false saved).save hookComplete := by
  rw [handleHook, Scan.visit, if_neg (by simp), parted]

theorem save_of_complete (saved : List Hook) (complete : current.all hookComplete = true) :
    ∃ saved', (Scan.mk current false saved).save hookComplete = ⟨none, false, saved'⟩ := by
  cases current with
  | none => exact ⟨saved, rfl⟩
  | some hook =>
    refine ⟨saved ++ [hook], ?_⟩
    rw [Option.all_some] at complete
    simp [Scan.save, complete]

theorem save_of_incomplete (incomplete : current.all hookComplete = false) :
    ((Scan.mk current false saved).save hookComplete).error = true := by
  cases current with
  | none => cases incomplete
  | some hook =>
    rw [Option.all_some] at incomplete
    simp [Scan.save, incomplete]

theorem reachesUntexted_separator (parted : node.data = none) :
    ReachesUntexted group (node :: nodes) ↔
      (hookOf group).all hookComplete = true ∧ ReachesUntexted [] nodes := by
  constructor
  · rintro ⟨before, timeout, after, split, untexted, fine⟩
    cases before with
    | nil =>
      cases split
      rw [untexted.1] at parted
      cases parted
    | cons first before =>
      cases split
      rw [endedGroups, if_pos parted] at fine
      obtain ⟨here, later⟩ := List.forall_mem_cons.mp fine
      exact ⟨here, before, timeout, after, rfl, untexted, later⟩
  · rintro ⟨here, before, timeout, after, rfl, untexted, later⟩
    refine ⟨node :: before, timeout, after, rfl, untexted, ?_⟩
    rw [endedGroups, if_pos parted]
    exact List.forall_mem_cons.mpr ⟨here, later⟩

theorem reachesUntexted_member (named : node.data ≠ none) :
    ReachesUntexted group (node :: nodes) ↔
      Untexted node ∨ ReachesUntexted (group ++ [node]) nodes := by
  constructor
  · rintro ⟨before, timeout, after, split, untexted, fine⟩
    cases before with
    | nil =>
      cases split
      exact Or.inl untexted
    | cons first before =>
      cases split
      rw [endedGroups, if_neg named] at fine
      exact Or.inr ⟨before, timeout, after, rfl, untexted, fine⟩
  · rintro (untexted | ⟨before, timeout, after, rfl, untexted, fine⟩)
    · exact ⟨[], node, nodes, rfl, untexted, fun ended member => by cases member⟩
    · refine ⟨node :: before, timeout, after, rfl, untexted, ?_⟩
      rwa [endedGroups, if_neg named]

theorem timeoutConversions_iff :
    (∀ text ∈ timeoutConversions node, text.isSome = true) ↔ ¬ Untexted node := by
  unfold timeoutConversions Untexted
  split
  · next timeout =>
    cases text : childText node <;> simp [timeout]
  · next other =>
    refine ⟨fun _ untexted => other ⟨untexted.1, untexted.2.1⟩, fun _ text member => ?_⟩
    cases member

/-- The scan converts only texts that are there exactly if it reaches no timeout without one. -/
theorem hookConversions_iff (nodes : List GNode) (group : List GNode) (saved : List Hook) :
    (∀ text ∈ hookConversions ⟨hookOf group, false, saved⟩ nodes, text.isSome = true) ↔
      ¬ ReachesUntexted group nodes := by
  induction nodes generalizing group saved with
  | nil =>
    refine ⟨fun _ => ?_, fun _ text member => by cases member⟩
    rintro ⟨before, timeout, after, split, _⟩
    cases before <;> cases split
  | cons node rest ih =>
    rw [hookConversions, if_neg (by simp), List.forall_mem_append, timeoutConversions_iff]
    cases parted : node.data with
    | none =>
      have other : ¬ Untexted node := fun untexted => absurd (parted.symm.trans untexted.1) (by simp)
      rw [handleHook_separator parted, reachesUntexted_separator parted]
      cases complete : (hookOf group).all hookComplete with
      | true =>
        obtain ⟨saved', same⟩ := save_of_complete saved complete
        have later : (∀ text ∈ hookConversions ⟨none, false, saved'⟩ rest, text.isSome = true) ↔
            ¬ ReachesUntexted [] rest := ih [] saved'
        rw [same]
        simp [other, later]
      | false =>
        rw [hookConversions_error (save_of_incomplete complete)]
        simp [other]
    | some name =>
      rw [handleHook_member parted, ih, reachesUntexted_member (by simp [parted]), not_or]

def progress (scan : Scan Hook) : Option Hook × Bool := (scan.current, scan.error)

theorem save_progress (same : progress scan = progress scan') :
    progress (scan.save hookComplete) = progress (scan'.save hookComplete) := by
  obtain ⟨current, error, saved⟩ := scan
  obtain ⟨current', error', saved'⟩ := scan'
  cases same
  cases current with
  | none => rfl
  | some hook => cases complete : hookComplete hook <;> simp [progress, Scan.save, complete]

theorem handleHook_progress (same : progress scan = progress scan') (node : GNode) :
    progress (handleHook scan node) = progress (handleHook scan' node) := by
  have currents : scan.current = scan'.current := congrArg Prod.fst same
  have errors : scan.error = scan'.error := congrArg Prod.snd same
  unfold handleHook Scan.visit
  rw [currents, errors]
  split
  · exact same
  · split
    · exact save_progress same
    · split
      · split <;> rfl
      · exact same

theorem foldl_progress (same : progress scan = progress scan') (nodes : List GNode) :
    progress (nodes.foldl handleHook scan) = progress (nodes.foldl handleHook scan') := by
  induction nodes generalizing scan scan' with
  | nil => exact same
  | cons node rest ih => exact ih (handleHook_progress same node)

theorem hookConversions_progress (same : progress scan = progress scan') (nodes : List GNode) :
    hookConversions scan nodes = hookConversions scan' nodes := by
  induction nodes generalizing scan scan' with
  | nil => rfl
  | cons node rest ih =>
    have errors : scan.error = scan'.error := congrArg Prod.snd same
    rw [hookConversions, hookConversions, errors, ih (handleHook_progress same node)]

theorem hookConversions_append (before after : List GNode) :
    hookConversions scan (before ++ after) =
      hookConversions scan before ++ hookConversions (before.foldl handleHook scan) after := by
  induction before generalizing scan with
  | nil => rfl
  | cons node rest ih =>
    rw [List.cons_append, hookConversions, hookConversions, ih, List.append_assoc]
    rfl

theorem foldl_settled (settled : scan.Settled) (nodes : List GNode) :
    (nodes.foldl handleHook scan).Settled := foldl_kept Scan.visit_settled nodes settled

theorem save_eq_separator (settled : scan.Settled) :
    progress (scan.save hookComplete) = progress (handleHook scan GNode.separator) := by
  cases stopped : scan.error with
  | true =>
    rw [handleHook_error stopped, Scan.save, settled stopped]
  | false => simp [handleHook, Scan.visit, stopped, GNode.separator, GNode.leaf]

-- What `handle_hooks_section` makes of a list that it goes through.
theorem handleHooksSection_list (hooks : Hooks) (listed : isHookList node = true) :
    ∃ hooks' saved, handleHooksSection ⟨none, false, hooks⟩ node =
      ⟨none, ((node.children.foldl handleHook ⟨none, false, saved⟩).save hookComplete).error,
        hooks'⟩ := by
  obtain ⟨children, name⟩ := Bool.and_eq_true_iff.mp listed
  unfold handleHooksSection
  rw [if_neg (by simp [children])]
  split
  · exact ⟨_, _, congrArg (HookScan.mk · _ _) (Scan.save_current _)⟩
  · split
    · exact ⟨_, _, congrArg (HookScan.mk · _ _) (Scan.save_current _)⟩
    · split
      · exact ⟨_, _, congrArg (HookScan.mk · _ _) (Scan.save_current _)⟩
      · next noPre noStart noStop =>
        cases named : node.data with
        | none => simp [named] at name
        | some text => simp_all [hookLists]

theorem handleHooksSection_other {hooks : Hooks} (other : isHookList node = false) :
    handleHooksSection ⟨none, error, hooks⟩ node = ⟨none, error, hooks⟩ := by
  unfold handleHooksSection
  split
  · rfl
  · next visited =>
    have unknown : node.data.any hookLists.contains = false := by
      simp_all [isHookList]
    have apart (name : String) (known : name ∈ hookLists) : node.data ≠ some name := by
      intro named
      rw [named] at unknown
      simp_all
    rw [if_neg (apart "prestart" (by decide)), if_neg (apart "poststart" (by decide)),
      if_neg (apart "poststop" (by decide))]

theorem handleHooksSection_error {hooks : Hooks} :
    handleHooksSection ⟨none, true, hooks⟩ node = ⟨none, true, hooks⟩ := by
  simp [handleHooksSection]

theorem sectionConversions_eq (lists : List GNode) (hooks : Hooks) (saved : List Hook) :
    sectionConversions ⟨none, error, hooks⟩ lists =
      hookConversions ⟨none, error, saved⟩ (hookNodes lists) := by
  induction lists generalizing hooks saved error with
  | nil => rfl
  | cons list rest ih =>
    rw [sectionConversions, hookNodes, List.flatMap_cons, ← hookNodes]
    cases listed : isHookList list with
    | false =>
      rw [handleHooksSection_other listed, ih hooks saved]
      simp
    | true =>
      cases error with
      | true =>
        have stopped (nodes : List GNode) : hookConversions ⟨none, true, saved⟩ nodes = [] :=
          hookConversions_error rfl nodes
        rw [handleHooksSection_error, ih hooks saved, stopped, stopped]
        simp
      | false =>
        obtain ⟨hooks', kept, handled⟩ := handleHooksSection_list hooks listed
        have begun : progress (Scan.mk none false saved) = progress (Scan.mk none false kept) := rfl
        have settled : (Scan.mk none false kept : Scan Hook).Settled := fun _ => rfl
        have ended : progress (handleHook (list.children.foldl handleHook ⟨none, false, saved⟩)
            GNode.separator) = progress ⟨none,
              ((list.children.foldl handleHook ⟨none, false, kept⟩).save hookComplete).error, []⟩ := by
          rw [handleHook_progress (foldl_progress begun list.children),
            ← save_eq_separator (foldl_settled settled list.children)]
          exact Prod.ext (Scan.save_current _) rfl
        have apart : timeoutConversions GNode.separator = [] := by
          simp [timeoutConversions, GNode.separator, GNode.leaf]
        rw [handled, ih hooks' [], if_pos (by simp), if_pos rfl, List.append_assoc, hookConversions_append,
          List.singleton_append, hookConversions, apart, ite_self, List.nil_append]
        congr 1
        · have blank : progress (Scan.mk none false []) = progress (Scan.mk none false saved) := rfl
          exact hookConversions_progress blank list.children
        · exact (hookConversions_progress ended (hookNodes rest)).symm

theorem handleHooksSection_current {scan : HookScan} (idle : scan.current = none) (node : GNode) :
    (handleHooksSection scan node).current = none := by
  unfold handleHooksSection
  split
  · exact idle
  · split
    · exact Scan.save_current _
    · split
      · exact Scan.save_current _
      · split
        · exact Scan.save_current _
        · exact idle

theorem foldl_current (nodes : List GNode) {scan : HookScan} (idle : scan.current = none) :
    (nodes.foldl handleHooksSection scan).current = none := by
  apply @foldl_kept _ _ _ (fun scan : HookScan => scan.current = none) _ nodes scan idle
  intro scan node idle
  exact handleHooksSection_current idle node

theorem handleSection_idle {host : Host} {before : Parse} {result : Bool × Parse} {handler : SpecHandler}
    (ran : handler.handleSection host node before = some result)
    (idle : before.statics.currentHook = none) : result.2.statics.currentHook = none := by
  cases handler with
  | hooks =>
    cases ran
    exact foldl_current node.children idle
  | process =>
    obtain ⟨process, _, same⟩ := Option.bind_eq_some_iff.mp ran
    cases same
    exact idle
  | mounts =>
    cases ran
    unfold mountsHandleSection
    dsimp only
    split <;> exact idle
  | vm =>
    cases ran
    unfold vmHandleSection
    dsimp only
    split <;> exact idle
  | _ =>
    cases ran
    exact idle

theorem processConfigStart_idle {host : Host} {before after : Parse}
    (ran : processConfigStart host before node = some after) (idle : before.statics.currentHook = none) :
    after.statics.currentHook = none := by
  unfold processConfigStart at ran
  split at ran
  · cases ran
    exact idle
  · dsimp only at ran
    split at ran
    · obtain ⟨text, _, same⟩ := Option.bind_eq_some_iff.mp ran
      cases same
      exact idle
    · split at ran
      · obtain ⟨text, _, same⟩ := Option.bind_eq_some_iff.mp ran
        cases same
        exact idle
      · unfold dispatch at ran
        split at ran
        · cases ran
          exact idle
        · obtain ⟨result, handled, same⟩ := Option.bind_eq_some_iff.mp ran
          have kept := handleSection_idle handled idle
          cases ok : result.1 <;> simp only [ok, Option.pure_def, Option.some.injEq] at same <;>
            exact same ▸ kept

/-- As long as the nodes are handled, the texts of the timeouts are there exactly if none without one
is reached. -/
theorem configConversions_iff {host : Host} {parse : Parse} (idle : parse.statics.currentHook = none)
    (handled : ∀ node ∈ nodes, ¬ Childless node ∧ ¬ UntextedUser node) :
    (∀ text ∈ configConversions host parse nodes, text.isSome = true) ↔
      ∀ node ∈ nodes, ¬ UntextedTimeout node := by
  induction nodes generalizing parse with
  | nil => simp [configConversions]
  | cons node rest ih =>
    obtain ⟨here, later⟩ := List.forall_mem_cons.mp handled
    have fine : processConfigStart host parse node ≠ none := by
      rw [ne_eq, processConfigStart_eq_none_iff, not_or]
      exact here
    obtain ⟨next, ran⟩ := Option.ne_none_iff_exists'.mp fine
    rw [configConversions, ran, List.forall_mem_append, List.forall_mem_cons,
      ih (processConfigStart_idle ran idle) later, idle]
    refine and_congr_left fun _ => ?_
    unfold UntextedTimeout
    split
    · next hooks =>
      rw [sectionConversions_eq node.children parse.config.oci.hooks []]
      have scanned : (∀ text ∈ hookConversions ⟨none, false, []⟩ (hookNodes node.children),
          text.isSome = true) ↔ ¬ ReachesUntexted [] (hookNodes node.children) :=
        hookConversions_iff (hookNodes node.children) [] []
      simp [scanned, hooks]
    · next other => simp [other]

/-- A document is handled or rejected, with every child and every text there, exactly if none of the
three is in it. -/
theorem handledSafely_iff (host : Host) (config : Config) (file : String) (document : Json) :
    HandledSafely host config (jsonParse file document) ↔
      ∀ node ∈ (jsonParse file document).children,
        ¬ Childless node ∧ ¬ UntextedUser node ∧ ¬ UntextedTimeout node := by
  rw [HandledSafely, parseSections_isSome_iff]
  constructor
  · rintro ⟨handled, texts⟩ node member
    exact ⟨(handled node member).1, (handled node member).2,
      (configConversions_iff rfl handled).mp texts node member⟩
  · intro fine
    have handled : ∀ node ∈ (jsonParse file document).children,
        ¬ Childless node ∧ ¬ UntextedUser node :=
      fun node member => ⟨(fine node member).1, (fine node member).2.1⟩
    exact ⟨handled, (configConversions_iff rfl handled).mpr fun node member => (fine node member).2.2⟩

end Timeouts

/-- A version that is null, a user id that is an object, and a timeout that is one. -/
theorem broken_configs :
    let version := jsonParse "/config.json" (.object [("ociVersion", .null)])
    let user := jsonParse "/config.json"
      (.object [("process", .object [("user", .object [("uid", .object [])])])])
    let hook := jsonParse "/config.json" (.object [("hooks", .object [("prestart",
      .array [.object [("path", .string "/hook"), ("timeout", .object [])]])])])
    parseSections Host.calm version {} = none ∧ parseSections Host.calm user {} = none ∧
      configConversions Host.calm { config := {} } hook.children = [none] ∧
      ¬ HandledSafely Host.calm {} version ∧ ¬ HandledSafely Host.calm {} user ∧
      ¬ HandledSafely Host.calm {} hook := by
  intro version user hook
  have first : parseSections Host.calm version {} = none := rfl
  have second : parseSections Host.calm user {} = none := rfl
  have third : configConversions Host.calm { config := {} } hook.children = [none] := rfl
  refine ⟨first, second, third, fun safe => ?_, fun safe => ?_, fun safe => ?_⟩
  · have parsed := safe.1
    rw [first] at parsed
    cases parsed
  · have parsed := safe.1
    rw [second] at parsed
    cases parsed
  · have given := safe.2 none (by rw [third]; exact List.mem_singleton.mpr rfl)
    cases given

end ClrOci
