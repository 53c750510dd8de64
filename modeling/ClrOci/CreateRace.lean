import ClrOci.Concurrent
import ClrOci.Creation

/-! Creations of one container at the same time.

What keeps them apart is the call that makes the runtime directory: it fails on a directory that
is there, and it comes after everything that only reads and before everything that changes something.
-/

set_option autoImplicit false

namespace ClrOci

open Foundation

def SysCall.claims : SysCall → Bool
  | .parse | .check _ | .makeParents | .makeDirectory => true
  | _ => false

def SameInside (directory : String) (before after : Sys) : Prop :=
  ∀ path, Sys.below directory path = true → path ≠ directory →
    after.files path = before.files path ∧ after.dirs path = before.dirs path

theorem SameInside.of_same {directory : String} {before after : Sys}
    (files : after.files = before.files) (dirs : after.dirs = before.dirs) :
    SameInside directory before after := by
  intro path _ _
  rw [files, dirs]
  exact ⟨rfl, rfl⟩

section Raise
variable {env : Env} {directory : String}

def Raises (directory : String) (call : SysCall) (before after : Sys) : Prop :=
  call.claims = false ∧ (before.dirs directory = true → after.dirs directory = true)

theorem atomic_raises {call : Config → SysCall} {action : Action World} {kinds : List Event.Kind}
    (beyond : ∀ config, (call config).claims = false) (grows : action.Moves (World.Grows kinds))
    (config : Config) :
    (Procedure.atomic call action config).Keeps (fun _ _ => True)
      fun call before after _ => Raises directory call before after :=
  fun sys _ => ⟨⟨beyond config, (grows ⟨config, sys⟩).sys.dirs directory⟩, trivial⟩

theorem andThen_raises {first next : Procedure}
    (head : ∀ config, (first config).Keeps (fun _ _ => True)
      fun call before after _ => Raises directory call before after)
    (tail : ∀ config, (next config).Keeps (fun _ _ => True)
      fun call before after _ => Raises directory call before after) (config : Config) :
    ((first.andThen next) config).Keeps (fun _ _ => True)
      fun call before after _ => Raises directory call before after := by
  refine Script.Keeps.bind (head config) fun ended => ?_
  split
  · exact tail ended.2
  · trivial

theorem mountSteps_raises (config : Config) :
    (mountSteps env config).Keeps (fun _ _ => True)
      fun call before after _ => Raises directory call before after := by
  refine Script.Keeps.bind (Script.keeps_sweep (fun mount sys _ => ⟨rfl, ?_⟩) _) fun _ => trivial
  have grows : sys.Grows [.mount] _ := handleMount_grows env sys List.mem_cons_self
    config.oci.root.path config.dryRunMode mount
  exact grows.dirs directory

theorem launchSteps_raises (config : Config) :
    (launchSteps env config).Keeps (fun _ _ => True)
      fun call before after _ => Raises directory call before after := by
  intro sys _
  refine ⟨⟨rfl, id⟩, ?_⟩
  dsimp only
  split
  · trivial
  · next created _ =>
    exact andThen_raises (atomic_raises (fun _ => rfl) (vmLaunch_grows env))
      (atomic_raises (fun _ => rfl) (stateFileCreate_grows env (some created))) _

theorem raiseSteps_raises (config : Config) :
    (raiseSteps env config).Keeps (fun _ _ => True)
      fun call before after _ => Raises directory call before after := by
  refine andThen_raises (andThen_raises mountSteps_raises
    (atomic_raises (fun _ => rfl) (createContainerWorkload_grows env))) (fun config => ?_) config
  split
  · trivial
  · exact andThen_raises launchSteps_raises
      (atomic_raises (fun _ => rfl) (prestartHooks_grows env)) config

end Raise

theorem mkdirWithParents_inside (env : Env) {directory : String} (set : directory ≠ "") (sys : Sys) :
    SameInside directory sys (mkdirWithParents env (dirname directory) sys).2 := by
  intro path below other
  unfold mkdirWithParents
  split
  · refine ⟨rfl, ?_⟩
    have inner : directory.toList.length < path.toList.length := by
      simp only [Sys.below, Bool.or_eq_true, beq_iff_eq, other, false_or] at below
      have long := (List.isPrefixOf_iff_prefix.mp below).length_le
      exact Nat.lt_of_succ_le (by simpa using long)
    have deeper : Sys.below path (dirname directory) = false := by
      have short := length_dirname_le set
      by_contra above
      rw [Bool.not_eq_false, Sys.below, Bool.or_eq_true, beq_iff_eq] at above
      rcases above with same | above
      · rw [same] at short
        omega
      · have long := (List.isPrefixOf_iff_prefix.mp above).length_le
        simp only [String.toList_append, List.length_append] at long
        omega
    simp [deeper]
  · exact ⟨rfl, rfl⟩

theorem mkdir_inside (env : Env) (directory : String) (sys : Sys) :
    SameInside directory sys (mkdir env directory sys).2 := by
  intro path _ other
  unfold mkdir
  split
  · exact ⟨rfl, Function.update_of_ne other true sys.dirs⟩
  · exact ⟨rfl, rfl⟩

section Claim
variable (env : Env) (directory : String)

def ParseCrashes (config : Config) (sys : Sys) : Prop :=
  ∃ bundle file root, config.bundlePath = some bundle ∧ configFilePath config.bundlePath = some file ∧
    (env.host sys.clock).chdir bundle = true ∧ jsonParseFile sys.files file = some root ∧
    parseSections (env.host sys.clock) root config = none

def Crashes (config : Config) (call : SysCall) (sys : Sys) : Prop :=
  match call with
  | .parse => ParseCrashes env config sys
  | .check version => ∃ text, version = some text ∧ semverCmp supportedSpecVersion text = none
  | _ => False

def Makes (call : SysCall) (sys : Sys) : Prop :=
  call = .makeDirectory ∧ (mkdir env directory sys).1 = true

def Outside (script : Script SysCall Sys (Exit × Config)) : Prop :=
  ∀ call, script.label? = some call → call.claims = true

def Past (script : Script SysCall Sys (Exit × Config)) : Prop :=
  ∀ call, script.label? = some call → call.claims = false

structure CreateRule (config : Config) (call : SysCall) (before after : Sys)
    (next : Script SysCall Sys (Exit × Config)) : Prop where
  grows : before.dirs directory = true → after.dirs directory = true
  inside : call.claims = true → SameInside directory before after
  made : Makes env directory call before → after.dirs directory = true ∧ Past next
  past : call.claims = false → Past next
  outside : call.claims = true → ¬ Makes env directory call before → Outside next
  failed : call.claims = true → ¬ Makes env directory call before → ¬ Crashes env config call before →
    ∀ result, next = .done result → result.1 = .returned false
  crashed : Crashes env config call before → ∃ result, next = .done result ∧ result.1 = .aborted

variable {env directory} {config : Config}

theorem Outside.done (result : Exit × Config) : Outside (.done result) := fun _ none => nomatch none

theorem Past.done (result : Exit × Config) : Past (.done result) := fun _ none => nomatch none

theorem not_makes_iff {sys : Sys} : ¬ Makes env directory .makeDirectory sys ↔
    (mkdir env directory sys).1 = false := by
  simp [Makes]

theorem CreateRule.early {call : SysCall} {before after : Sys}
    {next : Script SysCall Sys (Exit × Config)} (claims : call.claims = true)
    (unmade : ¬ Makes env directory call before)
    (grows : before.dirs directory = true → after.dirs directory = true)
    (inside : SameInside directory before after) (outside : Outside next)
    (failed : ¬ Crashes env config call before → ∀ result, next = .done result →
      result.1 = .returned false)
    (crashed : Crashes env config call before → ∃ result, next = .done result ∧ result.1 = .aborted) :
    CreateRule env directory config call before after next where
  grows := grows
  inside := fun _ => inside
  made := fun makes => absurd makes unmade
  past := by
    intro beyond
    rw [claims] at beyond
    nomatch beyond
  outside := fun _ _ => outside
  failed := fun _ _ => failed
  crashed := crashed

theorem createRule_of_raises {script : Script SysCall Sys (Exit × Config)}
    (raises : script.Keeps (fun _ _ => True) fun call before after _ => Raises directory call before after) :
    Past script ∧ script.Keeps (fun _ _ => True) (CreateRule env directory config) := by
  induction script with
  | done result => exact ⟨Past.done result, trivial⟩
  | step call effect next ih =>
    have beyond : call.claims = false := (raises (Sys.idle fun _ => none) trivial).1.1
    refine ⟨fun other same => ?_, fun sys _ => ?_⟩
    · cases same
      exact beyond
    · obtain ⟨⟨_, grows⟩, later⟩ := raises sys trivial
      obtain ⟨past, keeps⟩ := ih sys later
      have early : ∀ {P : Prop}, call.claims = true → P := by
        intro P claims
        rw [beyond] at claims
        nomatch claims
      have unmade : ¬ Makes env directory call sys := by
        rintro ⟨rfl, _⟩
        nomatch beyond
      have uncrashed : ¬ Crashes env config call sys := by
        intro crash
        cases call <;> first | exact crash | nomatch beyond
      exact ⟨⟨grows, early, fun makes => absurd makes unmade, fun _ => past, early, early,
        fun crash => absurd crash uncrashed⟩, keeps⟩

end Claim

/-- A creation of the container with an id, as it is called: the runtime path is not filled in, or it
is the one of the container. -/
structure Requested (rootDir : Option String) (id : String) (config : Config) : Prop where
  root : config.rootDir = rootDir
  named : config.optargContainerId = some id
  placed : config.state.runtimePath.isSet = true → config.state.runtimePath = runtimePath rootDir id

section Create
variable {env : Env} {rootDir : Option String} {id : String} {config given : Config}

theorem Requested.of_frame (requested : Requested rootDir id config) {other : Config}
    (same : other.frame = config.frame) : Requested rootDir id other := by
  have state := congrArg (fun frame : Config => frame.state) same
  have root := congrArg (fun frame : Config => frame.rootDir) same
  have named := congrArg (fun frame : Config => frame.optargContainerId) same
  dsimp only [Config.frame] at state root named
  refine ⟨root.trans requested.root, named.trans requested.named, ?_⟩
  rw [state]
  exact requested.placed

theorem Requested.filled (requested : Requested rootDir id config) :
    ∃ filled, runtimePaths config = some filled ∧
      filled.state.runtimePath = runtimePath rootDir id := by
  unfold runtimePaths
  split
  · next set => exact ⟨_, rfl, requested.placed set⟩
  · rw [runtimePathGet, requested.named]
    exact ⟨_, rfl, congrArg (runtimePath · id) requested.root⟩

structure Claiming (env : Env) (directory : String) (given : Config)
    (script : Script SysCall Sys (Exit × Config)) : Prop where
  goesOn : ∀ result, script ≠ .done result
  outside : Outside script
  keeps : script.Keeps (fun _ _ => True) (CreateRule env directory given)

/-- From the check of the version on, a creation makes the parents and then the directory itself. -/
theorem setupSteps_rule (requested : Requested rootDir id config) :
    Claiming env (runtimePath rootDir id).text given
      (((setupSteps env).andThen (raiseSteps env)) config) := by
  obtain ⟨filled, found, path⟩ := requested.filled
  let directory := (runtimePath rootDir id).text
  have set : directory ≠ "" := by
    have set := runtimePath_isSet rootDir id
    rwa [Buffer.isSet, bne_iff_ne] at set
  have shape : ((setupSteps env).andThen (raiseSteps env)) config = .step .makeParents
      (fun sys => (mkdirWithParents env (dirname directory) sys).2) fun _ =>
        .step .makeDirectory (fun sys => (mkdir env directory sys).2) fun sys =>
          if Exit.returned (mkdir env directory sys).1 = .returned true then raiseSteps env filled
          else .done (.returned (mkdir env directory sys).1, filled) := by
    simp only [directory, Procedure.andThen, setupSteps, found, ← path]
    rfl
  rw [shape]
  refine ⟨Script.step_ne_done _ _ _, fun call same => ?_, fun sys _ => ⟨?_, fun sys' _ => ?_⟩⟩
  · cases same
    rfl
  · have grows : sys.Grows [] _ := mkdirWithParents_grows env sys (dirname directory)
    refine CreateRule.early rfl (fun makes => SysCall.noConfusion makes.1) (grows.dirs directory)
      (mkdirWithParents_inside env set sys) (fun call same => ?_) (fun _ result ended => ?_) False.elim
    · cases same
      rfl
    · cases ended
  · obtain ⟨past, keeps⟩ : Past (raiseSteps env filled) ∧
        (raiseSteps env filled).Keeps (fun _ _ => True) (CreateRule env directory given) :=
      createRule_of_raises (raiseSteps_raises filled)
    have grows : sys'.Grows [] _ := mkdir_grows env sys' directory
    dsimp only
    cases made : (mkdir env directory sys').1 with
    | true =>
      have there : (mkdir env directory sys').2.dirs directory = true := by
        unfold mkdir at made ⊢
        split at made
        · next allowed => simp [allowed]
        · cases made
      rw [if_pos rfl]
      refine ⟨⟨grows.dirs directory, fun _ => mkdir_inside env directory sys', fun _ => ⟨there, past⟩,
        fun beyond => Bool.noConfusion beyond, fun _ unmade => ?_, fun _ unmade => ?_, False.elim⟩, keeps⟩
      · exact absurd ⟨rfl, made⟩ unmade
      · exact absurd ⟨rfl, made⟩ unmade
    | false =>
      rw [if_neg (by decide)]
      refine ⟨CreateRule.early rfl (not_makes_iff.mpr made) (grows.dirs directory)
        (mkdir_inside env directory sys') (Outside.done _) (fun _ result ended => ?_) False.elim,
        trivial⟩
      cases ended
      rfl

theorem checkConfig_exit (env : Env) (given config : Config) (sys : Sys) :
    let exit := (checkConfig ⟨config, sys⟩).exit
    (Crashes env given (.check config.oci.ociVersion) sys → exit = .aborted) ∧
      (¬ Crashes env given (.check config.oci.ociVersion) sys → ∃ ok, exit = .returned ok) := by
  unfold Crashes checkConfig configCheck
  dsimp only
  cases config.oci.ociVersion with
  | none => exact ⟨fun ⟨_, same, _⟩ => (nomatch same), fun _ => ⟨false, rfl⟩⟩
  | some version =>
    cases compared : semverCmp supportedSpecVersion version with
    | none => exact ⟨fun _ => by simp [compared], fun fine => absurd ⟨version, rfl, compared⟩ fine⟩
    | some order =>
      refine ⟨fun ⟨text, same, crash⟩ => ?_, fun _ => ⟨decide (0 ≤ order), by simp [compared]⟩⟩
      cases same
      rw [compared] at crash
      nomatch crash

theorem configFileParse_exit (env : Env) (config : Config) (sys : Sys) :
    let exit := (configFileParse env ⟨config, sys⟩).exit
    (ParseCrashes env config sys → exit = .aborted) ∧
      (¬ ParseCrashes env config sys → ∃ ok, exit = .returned ok) := by
  dsimp only
  constructor
  · rintro ⟨bundle, file, root, given, path, entered, parsed, crashed⟩
    rw [given] at path
    simp [configFileParse, given, path, entered, parsed, crashed]
  · intro fine
    unfold configFileParse
    dsimp only
    split
    · next bundle file given path =>
      split
      · exact ⟨false, rfl⟩
      · next entered =>
        split
        · exact ⟨false, rfl⟩
        · next root parsed =>
          split
          · next crashed =>
            refine absurd ⟨bundle, file, root, given, path, ?_, parsed, crashed⟩ fine
            simpa using entered
          · exact ⟨_, rfl⟩
    · exact ⟨false, rfl⟩

instance (env : Env) (config : Config) (sys : Sys) : Decidable (ParseCrashes env config sys) :=
  decidable_of_iff ((configFileParse env ⟨config, sys⟩).exit = .aborted) <| by
    obtain ⟨crashes, ends⟩ := configFileParse_exit env config sys
    refine ⟨fun aborted => ?_, crashes⟩
    by_contra fine
    obtain ⟨ok, returned⟩ := ends fine
    nomatch aborted.symm.trans returned

instance (env : Env) (config : Config) (call : SysCall) (sys : Sys) :
    Decidable (Crashes env config call sys) :=
  match call with
  | .parse => inferInstanceAs (Decidable (ParseCrashes env config sys))
  | .check none => isFalse fun ⟨_, same, _⟩ => nomatch same
  | .check (some version) => decidable_of_iff (semverCmp supportedSpecVersion version = none)
    ⟨fun crash => ⟨version, rfl, crash⟩, fun ⟨_, same, crash⟩ => Option.some.inj same ▸ crash⟩
  | .makeParents | .makeDirectory | .mount | .workload | .stamp | .launch | .read | .look | .bundle
  | .watch | .hooks | .wake | .reread | .kill _ | .write _ _ | .umount _ | .unlink | .remove =>
    isFalse False.elim

theorem createSteps_eq (env : Env) :
    createSteps env = (Procedure.atomic (fun _ => .parse) (configFileParse env)).andThen
      ((Procedure.atomic (fun config => .check config.oci.ociVersion) checkConfig).andThen
        ((setupSteps env).andThen (raiseSteps env))) := by
  rw [createSteps, claimSteps, Procedure.sequence, Procedure.sequence, Procedure.sequence,
    Procedure.sequence, Procedure.andThen_succeed, Procedure.andThen_assoc, Procedure.andThen_assoc]

theorem reading_rule {call : Config → SysCall} {action : Action World} {next : Procedure}
    {directory : String} (claims : (call config).claims = true) (other : call config ≠ .makeDirectory)
    (same : ∀ sys, (action ⟨config, sys⟩).state.sys = sys)
    (exits : ∀ sys, let exit := (action ⟨config, sys⟩).exit
      (Crashes env given (call config) sys → exit = .aborted) ∧
        (¬ Crashes env given (call config) sys → ∃ ok, exit = .returned ok))
    (further : ∀ sys, Claiming env directory given (next (action ⟨config, sys⟩).state.config)) :
    Claiming env directory given (((Procedure.atomic call action).andThen next) config) := by
  have shape : ((Procedure.atomic call action).andThen next) config =
      .step (call config) (fun sys => (action ⟨config, sys⟩).state.sys) fun sys =>
        if (action ⟨config, sys⟩).exit = .returned true then next (action ⟨config, sys⟩).state.config
        else .done ((action ⟨config, sys⟩).exit, (action ⟨config, sys⟩).state.config) := rfl
  rw [shape]
  refine ⟨Script.step_ne_done _ _ _, fun label labelled => ?_, fun sys _ => ?_⟩
  · cases labelled
    exact claims
  · have unmade : ¬ Makes env directory (call config) sys := fun makes => other makes.1
    obtain ⟨crashes, ends⟩ := exits sys
    obtain ⟨goesOn, outside, keeps⟩ := further sys
    have still : SameInside directory sys (action ⟨config, sys⟩).state.sys := by
      rw [same]
      exact SameInside.of_same rfl rfl
    have grows : sys.dirs directory = true → (action ⟨config, sys⟩).state.sys.dirs directory = true := by
      rw [same]
      exact id
    dsimp only
    by_cases ok : (action ⟨config, sys⟩).exit = .returned true
    · rw [if_pos ok]
      refine ⟨CreateRule.early claims unmade grows still outside
        (fun _ result ended => absurd ended (goesOn result)) fun crash => ?_, keeps⟩
      nomatch ok.symm.trans (crashes crash)
    · rw [if_neg ok]
      refine ⟨CreateRule.early claims unmade grows still (Outside.done _) (fun fine result ended => ?_)
        fun crash => ⟨_, rfl, crashes crash⟩, trivial⟩
      cases ended
      obtain ⟨result, exit⟩ := ends fine
      rw [exit] at ok ⊢
      cases result with
      | true => exact absurd rfl ok
      | false => rfl

theorem createSteps_claiming (requested : Requested rootDir id config) :
    Claiming env (runtimePath rootDir id).text config (createSteps env config) := by
  rw [createSteps_eq]
  refine reading_rule rfl nofun (fun sys => (configFileParse_frame env ⟨config, sys⟩).1)
    (configFileParse_exit env config) fun sys => ?_
  refine reading_rule rfl nofun (fun sys => congrArg World.sys (checkConfig_state _))
    (checkConfig_exit env config _) fun sys' => ?_
  rw [checkConfig_state]
  exact setupSteps_rule (requested.of_frame (configFileParse_frame env ⟨config, sys⟩).2)

end Create

section Race
variable {I : Type} [DecidableEq I] (env : Env) (directory : String)

def Passes (pool : Pool I SysCall Sys (Exit × Config)) (i : I) : Prop :=
  (pool.scripts i).label? = some .makeDirectory ∧ (mkdir env directory pool.state).1 = true

instance (pool : Pool I SysCall Sys (Exit × Config)) (i : I) : Decidable (Passes env directory pool i) :=
  inferInstanceAs (Decidable (_ ∧ _))

def passing : Pool I SysCall Sys (Exit × Config) → List I → List I
  | _, [] => []
  | pool, i :: rest =>
    if Passes env directory pool i then i :: passing (pool.step i) rest else passing (pool.step i) rest

/-- At most one of the creations passes; every other one takes only steps that lead up to the
runtime directory, changes nothing in that, and returns false. -/
structure Excludes (start : Pool I SysCall Sys (Exit × Config)) (schedule : List I) : Prop where
  once : (passing env directory start schedule).length ≤ 1
  outside : Along Pool.step (fun pool i => i ∉ passing env directory start schedule →
    Outside (pool.scripts i) ∧ SameInside directory pool.state (pool.step i).state) start schedule
  failed : ∀ i ∉ passing env directory start schedule, ∀ result,
    (schedule.foldl Pool.step start).scripts i = .done result → result.1 = .returned false

variable {env directory} {calls : I → Config} {pool : Pool I SysCall Sys (Exit × Config)} {i j : I}

omit [DecidableEq I] in
theorem not_passes_of_done {result : Exit × Config} (ended : pool.scripts i = .done result) :
    ¬ Passes env directory pool i := by
  rintro ⟨labelled, _⟩
  rw [ended] at labelled
  nomatch labelled

omit [DecidableEq I] in
theorem passes_iff {call : SysCall} {effect : Sys → Sys}
    {next : Sys → Script SysCall Sys (Exit × Config)} (here : pool.scripts i = .step call effect next) :
    Passes env directory pool i ↔ Makes env directory call pool.state := by
  rw [Passes, here, Script.label?, Option.some.injEq, Makes]

theorem not_mem_passing_of_done {result : Exit × Config} (ended : pool.scripts i = .done result)
    (schedule : List I) : i ∉ passing env directory pool schedule := by
  induction schedule generalizing pool with
  | nil => simp [passing]
  | cons k rest ih =>
    have later := ih (Pool.step_keeps_done (i := k) ended)
    rw [passing]
    split
    · next passes =>
      have other : i ≠ k := by
        rintro rfl
        exact not_passes_of_done ended passes
      simp [other, later]
    · exact later

theorem not_mem_passing_cons {k : I} {rest : List I}
    (missing : i ∉ passing env directory pool (k :: rest)) :
    (i = k → ¬ Passes env directory pool k) ∧ i ∉ passing env directory (pool.step k) rest := by
  rw [passing] at missing
  split at missing
  · rw [List.mem_cons, not_or] at missing
    exact ⟨fun same => absurd same missing.1, missing.2⟩
  · next refused => exact ⟨fun _ => refused, missing⟩

theorem passing_append (before after : List I) :
    passing env directory pool (before ++ after) =
      passing env directory pool before ++ passing env directory (before.foldl Pool.step pool) after := by
  induction before generalizing pool with
  | nil => rfl
  | cons k rest ih =>
    rw [List.cons_append, passing, passing, ih, List.foldl_cons]
    split <;> rfl

variable (env directory calls) in
def Creating (pool : Pool I SysCall Sys (Exit × Config)) : Prop :=
  ∀ i, (pool.scripts i).Keeps (fun _ _ => True) (CreateRule env directory (calls i))

section Step
variable {call : SysCall} {effect : Sys → Sys} {next : Sys → Script SysCall Sys (Exit × Config)}

theorem Creating.rule (creating : Creating env directory calls pool)
    (here : pool.scripts i = .step call effect next) :
    CreateRule env directory (calls i) call pool.state (effect pool.state) (next pool.state) :=
  (Pool.keeps_step creating here trivial).1

end Step

theorem Creating.step (creating : Creating env directory calls pool) (i : I) :
    Creating env directory calls (pool.step i) := by
  cases here : pool.scripts i with
  | done result =>
    rw [Pool.step_of_done here]
    exact creating
  | step call effect next => exact (Pool.keeps_step creating here trivial).2

theorem Creating.run (creating : Creating env directory calls pool) (schedule : List I) :
    Creating env directory calls (schedule.foldl Pool.step pool) := by
  induction schedule generalizing pool with
  | nil => exact creating
  | cons k rest ih => exact ih (creating.step k)

theorem Creating.grows (creating : Creating env directory calls pool)
    (there : pool.state.dirs directory = true) : (pool.step i).state.dirs directory = true := by
  cases here : pool.scripts i with
  | done result =>
    rw [Pool.step_of_done here]
    exact there
  | step call effect next =>
    rw [Pool.step_of_step here]
    exact (creating.rule here).grows there

theorem Creating.passed (creating : Creating env directory calls pool)
    (passes : Passes env directory pool i) :
    (pool.step i).state.dirs directory = true ∧ Past ((pool.step i).scripts i) := by
  cases here : pool.scripts i with
  | done result => exact absurd passes (not_passes_of_done here)
  | step call effect next =>
    rw [Pool.step_scripts_self here, Pool.step_of_step here]
    exact (creating.rule here).made ((passes_iff here).mp passes)

theorem Creating.past_step (creating : Creating env directory calls pool) (past : Past (pool.scripts j)) :
    Past ((pool.step i).scripts j) := by
  refine Pool.step_script past fun call effect next here _ => ?_
  refine (creating.rule here).past (past call ?_)
  rw [here]
  rfl

theorem Creating.past_run (creating : Creating env directory calls pool) (past : Past (pool.scripts i))
    (schedule : List I) : Past ((schedule.foldl Pool.step pool).scripts i) := by
  induction schedule generalizing pool with
  | nil => exact past
  | cons k rest ih => exact ih (creating.step k) (creating.past_step past)

/-- A creation that has passed is past the claim at the end of the run. -/
theorem Creating.past_of_passing (creating : Creating env directory calls pool) {schedule : List I}
    (passed : i ∈ passing env directory pool schedule) :
    Past ((schedule.foldl Pool.step pool).scripts i) := by
  induction schedule generalizing pool with
  | nil => simp [passing] at passed
  | cons k rest ih =>
    rw [passing] at passed
    split at passed
    · next passes =>
      rcases List.mem_cons.mp passed with rfl | later
      · exact (creating.step i).past_run (creating.passed passes).2 rest
      · exact ih (creating.step k) later
    · exact ih (creating.step k) passed

theorem Creating.passing_eq_nil (creating : Creating env directory calls pool)
    (there : pool.state.dirs directory = true) (schedule : List I) :
    passing env directory pool schedule = [] := by
  induction schedule generalizing pool with
  | nil => rfl
  | cons k rest ih =>
    have refused : ¬ Passes env directory pool k := by
      rintro ⟨_, made⟩
      simp [mkdir, there] at made
    rw [passing, if_neg refused]
    exact ih (creating.step k) (creating.grows there)

theorem Creating.passing_length (creating : Creating env directory calls pool) (schedule : List I) :
    (passing env directory pool schedule).length ≤ 1 := by
  induction schedule generalizing pool with
  | nil => exact Nat.zero_le 1
  | cons k rest ih =>
    rw [passing]
    split
    · next passes =>
      rw [(creating.step k).passing_eq_nil (creating.passed passes).1 rest]
      exact Nat.le_refl 1
    · exact ih (creating.step k)

variable (env calls) in
def Survives (pool : Pool I SysCall Sys (Exit × Config)) (i : I) : Prop :=
  ∀ call, (pool.scripts i).label? = some call → ¬ Crashes env (calls i) call pool.state

instance (pool : Pool I SysCall Sys (Exit × Config)) (i : I) : Decidable (Survives env calls pool i) :=
  inferInstanceAs (Decidable (∀ call ∈ (pool.scripts i).label?, ¬ Crashes env (calls i) call pool.state))

section Losers
variable {losers : I → Prop}

theorem Creating.outside_step (creating : Creating env directory calls pool)
    (unmade : losers i → ¬ Passes env directory pool i)
    (outside : ∀ j, losers j → Outside (pool.scripts j)) (j : I) (loses : losers j) :
    Outside ((pool.step i).scripts j) := by
  refine Pool.step_script (outside j loses) ?_
  rintro call effect next here rfl
  have claims : call.claims = true := outside i loses call (by rw [here]; rfl)
  exact (creating.rule here).outside claims fun makes => unmade loses ((passes_iff here).mpr makes)

theorem Creating.inside_step (creating : Creating env directory calls pool)
    (outside : Outside (pool.scripts i)) : SameInside directory pool.state (pool.step i).state := by
  cases here : pool.scripts i with
  | done result =>
    rw [Pool.step_of_done here]
    exact SameInside.of_same rfl rfl
  | step call effect next =>
    rw [Pool.step_of_step here]
    exact (creating.rule here).inside (outside call (by rw [here]; rfl))

theorem Creating.outside_run (creating : Creating env directory calls pool) {schedule : List I}
    (unmade : ∀ i, losers i → i ∉ passing env directory pool schedule)
    (outside : ∀ j, losers j → Outside (pool.scripts j)) :
    Along Pool.step (fun pool i => losers i →
      Outside (pool.scripts i) ∧ SameInside directory pool.state (pool.step i).state) pool schedule := by
  induction schedule generalizing pool with
  | nil => trivial
  | cons k rest ih =>
    refine ⟨fun loses => ⟨outside k loses, creating.inside_step (outside k loses)⟩, ?_⟩
    exact ih (creating.step k) (fun i loses => (not_mem_passing_cons (unmade i loses)).2)
      (creating.outside_step (fun loses => (not_mem_passing_cons (unmade k loses)).1 rfl) outside)

/-- A creation that does not pass and that no step kills returns false. -/
theorem Creating.failed_step (creating : Creating env directory calls pool)
    (unmade : losers i → ¬ Passes env directory pool i)
    (outside : ∀ j, losers j → Outside (pool.scripts j)) (survives : Survives env calls pool i)
    (failed : ∀ j, losers j → ∀ result, pool.scripts j = .done result → result.1 = .returned false)
    (j : I) (loses : losers j) : ∀ result, (pool.step i).scripts j = .done result →
      result.1 = .returned false := by
  refine Pool.step_script (motive := fun script : Script SysCall Sys (Exit × Config) =>
    ∀ result, script = .done result → result.1 = .returned false) (failed j loses) ?_
  rintro call effect next here rfl
  have labelled : (pool.scripts i).label? = some call := by
    rw [here]
    rfl
  exact (creating.rule here).failed (outside i loses call labelled)
    (fun makes => unmade loses ((passes_iff here).mpr makes)) (survives call labelled)

theorem Creating.failed_run (creating : Creating env directory calls pool) {schedule : List I}
    (unmade : ∀ i, losers i → i ∉ passing env directory pool schedule)
    (outside : ∀ j, losers j → Outside (pool.scripts j))
    (survive : Along Pool.step (Survives env calls) pool schedule)
    (failed : ∀ j, losers j → ∀ result, pool.scripts j = .done result → result.1 = .returned false) :
    ∀ j, losers j → ∀ result,
      (schedule.foldl Pool.step pool).scripts j = .done result → result.1 = .returned false := by
  induction schedule generalizing pool with
  | nil => exact failed
  | cons k rest ih =>
    have refused : losers k → ¬ Passes env directory pool k :=
      fun loses => (not_mem_passing_cons (unmade k loses)).1 rfl
    exact ih (creating.step k) (fun i loses => (not_mem_passing_cons (unmade i loses)).2)
      (creating.outside_step refused outside) survive.2
      (creating.failed_step refused outside survive.1 failed)

end Losers

/-- A step that kills its process ends a creation that never passes. -/
theorem Creating.crash_ends (creating : Creating env directory calls pool) {call : SysCall}
    (labelled : (pool.scripts i).label? = some call) (crash : Crashes env (calls i) call pool.state) :
    ¬ Passes env directory pool i ∧
      ∃ result, (pool.step i).scripts i = .done result ∧ result.1 = .aborted := by
  cases here : pool.scripts i with
  | done result =>
    rw [here] at labelled
    nomatch labelled
  | step call' effect next =>
    rw [here] at labelled
    cases labelled
    rw [Pool.step_scripts_self here]
    refine ⟨fun passes => ?_, (creating.rule here).crashed crash⟩
    obtain ⟨rfl, _⟩ := (passes_iff here).mp passes
    exact crash

theorem Crashes.claims {config : Config} {call : SysCall} {sys : Sys}
    (crash : Crashes env config call sys) : call.claims = true := by
  cases call <;> first | rfl | exact crash.elim

/-- In every interleaving of any number of creations of one container, at most one gets past the
making of the runtime directory and the others change nothing in it. They all return false if
and only if no step of a creation kills its process. -/
theorem creations_exclude_iff {rootDir : Option String} {id : String}
    (requested : ∀ i, Requested rootDir id (calls i)) (sys : Sys) (schedule : List I) :
    let start : Pool I SysCall Sys (Exit × Config) := ⟨fun i => createSteps env (calls i), sys⟩
    Excludes env (runtimePath rootDir id).text start schedule ↔
      Along Pool.step (Survives env calls) start schedule := by
  intro start
  have claiming : ∀ i, Claiming env (runtimePath rootDir id).text (calls i) (createSteps env (calls i)) :=
    fun i => createSteps_claiming (requested i)
  have creating : Creating env (runtimePath rootDir id).text calls start := fun i => (claiming i).keeps
  constructor
  · intro excludes
    refine along_iff_split.mpr fun before i after cut call labelled crash => ?_
    -- Neither before the crash, nor at it, nor after it has the process passed.
    obtain ⟨refused, result, ended, aborted⟩ := (creating.run before).crash_ends labelled crash
    have missed : i ∉ passing env (runtimePath rootDir id).text start schedule := by
      rw [cut, passing_append, List.mem_append, passing, if_neg refused, not_or]
      refine ⟨fun passed => ?_, not_mem_passing_of_done ended after⟩
      nomatch (creating.past_of_passing passed call labelled).symm.trans crash.claims
    have last := excludes.failed i missed result
    rw [cut, List.foldl_append, List.foldl_cons] at last
    nomatch aborted.symm.trans (last (Pool.foldl_keeps_done ended after))
  · intro survive
    have outside : ∀ j, j ∉ passing env (runtimePath rootDir id).text start schedule →
        Outside (start.scripts j) := fun j _ => (claiming j).outside
    exact ⟨creating.passing_length schedule, creating.outside_run (fun _ loses => loses) outside,
      creating.failed_run (fun _ loses => loses) outside survive
        fun j _ result ended => absurd ended ((claiming j).goesOn result)⟩

end Race

/-- Two creations of one container that take turns: the first to make the directory wins. -/
theorem creations_in_turn_exclude :
    let start : Pool (Fin 2) SysCall Sys (Exit × Config) :=
      ⟨fun _ => createSteps Env.calm bundleConfig, (bundleWorld [platformSection "linux"]).sys⟩
    let schedule := [0, 1, 0, 1, 0, 1, 0, 1, 0, 0, 0, 0, 0, 0]
    let after := schedule.foldl Pool.step start
    Excludes Env.calm (runtimePath none "c1").text start schedule ∧
      passing Env.calm (runtimePath none "c1").text start schedule = [0] ∧
      (after.scripts 0).result?.map Prod.fst = some (.returned true) ∧
      (after.scripts 1).result?.map Prod.fst = some (.returned false) := by
  intro start schedule after
  have requested : Requested none "c1" bundleConfig := ⟨rfl, rfl, by decide⟩
  refine ⟨(creations_exclude_iff (fun _ => requested) _ schedule).mpr ?_, ?_⟩
  · decide +kernel
  · decide +kernel

def shortFiles : Files :=
  Function.update (bundleFiles [platformSection "linux"]) "/short/config.json"
    (some (.json (.object (("ociVersion", .string "1") :: bundleMembers.tail))))

def shortCalls : Fin 2 → Config
  | 0 => bundleConfig
  | 1 => { bundleConfig with bundlePath := some "/short" }

/-- The creation that loses is killed as it checks the version, and returns nothing. -/
theorem short_version_kills_creation :
    let start : Pool (Fin 2) SysCall Sys (Exit × Config) :=
      ⟨fun i => createSteps Env.calm (shortCalls i), Sys.idle shortFiles⟩
    let schedule := [1, 0, 0, 0, 0, 1, 0, 0, 0, 0, 0, 0]
    let after := schedule.foldl Pool.step start
    passing Env.calm (runtimePath none "c1").text start schedule = [0] ∧
      (after.scripts 1).result?.map Prod.fst = some .aborted ∧
      ¬ Excludes Env.calm (runtimePath none "c1").text start schedule := by
  intro start schedule after
  have facts : passing Env.calm (runtimePath none "c1").text start schedule = [0] ∧
      (after.scripts 1).result?.map Prod.fst = some .aborted := by
    decide +kernel
  obtain ⟨won, aborted⟩ := facts
  refine ⟨won, aborted, fun excludes => ?_⟩
  cases ended : after.scripts 1 with
  | done result =>
    have failed : result.1 = .returned false := excludes.failed 1 (by simp [won]) result ended
    rw [ended, Script.result?, Option.map_some, failed] at aborted
    nomatch aborted
  | step call effect next =>
    rw [ended] at aborted
    nomatch aborted

end ClrOci
