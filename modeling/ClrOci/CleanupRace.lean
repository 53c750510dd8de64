import ClrOci.StartRace

/-! Two cleanups of one container at the same time.

When a stop has shut the VM down, a foreground start of the container wakes up as well, and both
clean up. The first successful step makes a process the owner of the rest: the other one fails at
its own first step, or finds no state any more.
-/

set_option autoImplicit false

namespace ClrOci

open Foundation

/-- The two processes: a start that has been woken, and a stop. -/
inductive Cleaner where
  | start | stop
  deriving DecidableEq

/-- What the claims on a cleanup rest on: `umount` and `unlink` succeed exactly on a target that is
still there, and the recursive delete of the runtime directory succeeds. -/
structure Obliging (env : Env) (rootDir : Option String) (id : String) : Prop where
  umount : ∀ mount sys, (performUnmount env mount sys).1 = sys.mounts.contains mount.dest.text
  unlink : ∀ path sys, (ClrOci.unlink env path sys).1 = (sys.files path).isSome
  delete : ∀ config sys, config.state.runtimePath = runtimePath rootDir id →
    (runtimeDirDelete env config sys).1 = true
  removes : RemovesAt env (runtimePath rootDir id).text

structure Recalls (rootDir : Option String) (id : String) (mounts : List Mount) (config : Config) :
    Prop where
  root : config.rootDir = rootDir
  named : config.optargContainerId = some id
  mounts : config.oci.mounts = mounts

structure Poised (rootDir : Option String) (id : String) (mounts : List Mount) (config : Config) :
    Prop where
  mounts : config.oci.mounts = mounts
  runtime : config.state.runtimePath = runtimePath rootDir id
  stateFile : config.state.stateFilePath = stateFilePath (runtimePath rootDir id)

/-- A container that nobody has begun to clean up: each mount is made once, and the state file is
there. -/
structure Intact (rootDir : Option String) (id : String) (mounts : List Mount) (sys : Sys) : Prop where
  made : ∀ mount ∈ mounts, sys.mounts.count mount.dest.text = 1
  present : (sys.files (statePathOf rootDir id)).isSome = true

def Lost (rootDir : Option String) (id : String) (mounts : List Mount) (sys : Sys) : Prop :=
  match mounts with
  | [] => sys.files (statePathOf rootDir id) = none
  | mount :: _ => mount.dest.text ∉ sys.mounts

structure Same (before after : Sys) : Prop where
  files : after.files = before.files
  dirs : after.dirs = before.dirs
  mounts : after.mounts = before.mounts

section Shape
variable (env : Env)

def unmounting (mounts : List Mount) (next : Exit → Script SysCall Sys Teardown) :
    Script SysCall Sys Teardown :=
  (Script.sweep (fun mount => SysCall.umount mount.dest.text) (handleUnmount env) mounts).bind
    fun swept => next swept.1

def deleting (config : Config) (finish : Exit × Config → Script SysCall Sys Teardown) :
    Script SysCall Sys Teardown :=
  (Procedure.atomic (fun _ => .remove) (deleteRuntimeDir env) config).bind finish

def unlinking (config : Config) (finish : Exit × Config → Script SysCall Sys Teardown) :
    Script SysCall Sys Teardown :=
  .step .unlink (fun sys => (deleteStateFile env ⟨config, sys⟩).state.sys) fun sys =>
    let deleted := deleteStateFile env ⟨config, sys⟩
    if deleted.exit = .returned true then deleting env deleted.state.config finish
    else finish (deleted.exit, deleted.state.config)

def afterUnmounts (config : Config) (finish : Exit × Config → Script SysCall Sys Teardown)
    (exit : Exit) : Script SysCall Sys Teardown :=
  if exit = .returned true then unlinking env config finish else finish (exit, config)

variable {env}

theorem unmounting_nil (next : Exit → Script SysCall Sys Teardown) :
    unmounting env [] next = next (.returned true) := rfl

theorem unmounting_cons (mount : Mount) (rest : List Mount)
    (next : Exit → Script SysCall Sys Teardown) :
    unmounting env (mount :: rest) next =
      .step (.umount mount.dest.text) (fun sys => (handleUnmount env mount sys).state) fun sys =>
        if (handleUnmount env mount sys).exit = .returned true then unmounting env rest next
        else next (handleUnmount env mount sys).exit := by
  rw [unmounting, Script.sweep, Script.bind]
  congr 1
  funext sys
  dsimp only
  split
  · rw [Script.bind_assoc]
    rfl
  · rfl

theorem cleanupSteps_bind (config : Config) (finish : Exit × Config → Script SysCall Sys Teardown) :
    (cleanupSteps env config).bind finish =
      unmounting env config.oci.mounts (afterUnmounts env config finish) := by
  have branch : ∀ (ended : Exit × Config) (next : Procedure),
      (if ended.1 = .returned true then next ended.2 else .done ended).bind finish =
        if ended.1 = .returned true then (next ended.2).bind finish else finish ended := by
    intro ended next
    split <;> rfl
  rw [cleanupSteps, Procedure.andThen, unmountSteps, Script.bind_assoc, Script.bind_assoc, unmounting]
  congr 1
  funext swept
  change (if swept.1 = .returned true then _ else Script.done (swept.1, config)).bind finish = _
  rw [branch (swept.1, config), afterUnmounts]
  split
  · rw [Procedure.andThen, Script.bind_assoc, unlinking, Procedure.atomic, Script.bind]
    congr 1
    funext sys
    exact branch _ _
  · rfl

end Shape

section Calls
variable {env : Env} {rootDir : Option String} {id : String} {mounts : List Mount} (sys : Sys)
  {mount : Mount} {config : Config} (obliging : Obliging env rootDir id)
include obliging

theorem Obliging.permits (mount : Mount) :
    (env.host sys.clock).umount sys.mounts mount.dest.text = sys.mounts.contains mount.dest.text := by
  have result := obliging.umount mount sys
  unfold performUnmount at result
  dsimp only at result
  split at result
  · next granted => rw [granted, ← result]
  · next refused => rw [Bool.eq_false_iff.mpr refused, ← result]

theorem Obliging.unmounts (recorded : mount.ignoreMount = false)
    (made : mount.dest.text ∈ sys.mounts) :
    (handleUnmount env mount sys).exit = .returned true ∧
      (handleUnmount env mount sys).state.mounts = sys.mounts.erase mount.dest.text := by
  have permitted := obliging.permits sys mount
  rw [List.contains_iff_mem.mpr made] at permitted
  simp [handleUnmount, performUnmount, recorded, permitted]

theorem Obliging.unmounted_fails (recorded : mount.ignoreMount = false)
    (gone : mount.dest.text ∉ sys.mounts) :
    (handleUnmount env mount sys).exit = .returned false ∧
      Same sys (handleUnmount env mount sys).state := by
  have refused := obliging.permits sys mount
  rw [List.contains_eq_mem, decide_eq_false gone] at refused
  obtain ⟨files, dirs⟩ := handleUnmount_frame env mount sys
  refine ⟨?_, files, dirs, ?_⟩
  · simp [handleUnmount, performUnmount, recorded, refused]
  · simp [handleUnmount, performUnmount, recorded, refused]

omit obliging in
theorem Poised.delete_eq (poised : Poised rootDir id mounts config) :
    deleteStateFile env ⟨config, sys⟩ =
      ⟨.returned (unlink env (statePathOf rootDir id) sys).1,
        ⟨config, (unlink env (statePathOf rootDir id) sys).2⟩⟩ := by
  have path : config.state.stateFilePath.text = statePathOf rootDir id :=
    congrArg Buffer.text poised.stateFile
  have set : config.state.stateFilePath.isSet = true := by
    rw [Buffer.isSet, path, bne_iff_ne]
    exact stateFilePath_ne_empty (runtimePath_isSet rootDir id)
  simp only [deleteStateFile, stateFileDelete, set, path, Bool.not_true, Bool.false_eq_true,
    ↓reduceIte]
  rfl

theorem Poised.unlinks (poised : Poised rootDir id mounts config)
    (present : (sys.files (statePathOf rootDir id)).isSome = true) :
    let deleted := deleteStateFile env ⟨config, sys⟩
    deleted.exit = .returned true ∧ deleted.state.config = config ∧
      deleted.state.sys.files (statePathOf rootDir id) = none ∧
      deleted.state.sys.mounts = sys.mounts := by
  have granted := obliging.unlink (statePathOf rootDir id) sys
  rw [present] at granted
  obtain ⟨files, _, mounts, _⟩ := unlink_gone granted
  rw [poised.delete_eq]
  exact ⟨congrArg Exit.returned granted, rfl, files, mounts⟩

theorem Poised.unlink_fails (poised : Poised rootDir id mounts config)
    (missing : sys.files (statePathOf rootDir id) = none) :
    let deleted := deleteStateFile env ⟨config, sys⟩
    deleted.exit = .returned false ∧ deleted.state.config = config ∧ Same sys deleted.state.sys := by
  have refused := obliging.unlink (statePathOf rootDir id) sys
  rw [missing] at refused
  have ticked : (unlink env (statePathOf rootDir id) sys).2 = sys.tick := by
    unfold unlink at refused ⊢
    split at refused
    · nomatch refused
    · next denied => rw [if_neg denied]
  rw [poised.delete_eq, ticked]
  exact ⟨congrArg Exit.returned refused, rfl, rfl, rfl, rfl⟩

theorem Poised.deletes (poised : Poised rootDir id mounts config) :
    let deleted := deleteRuntimeDir env ⟨config, sys⟩
    deleted.exit = .returned true ∧ deleted.state.sys.mounts = sys.mounts ∧
      (∀ path, sys.files path = none → deleted.state.sys.files path = none) ∧
      deleted.state.sys.dirs (runtimePath rootDir id).text = false := by
  have ok := obliging.delete config sys poised.runtime
  have deletion := runtimeDirDelete_gone ok
  have gone := deletion.gone
  rw [poised.runtime] at gone
  exact ⟨congrArg Exit.returned ok, deletion.mounts, deletion.files, gone obliging.removes⟩

end Calls

def Closes (exit : Exit) : Script SysCall Sys Teardown → Prop
  | .done ended => ended.cleanup = some exit
  | .step _ effect next => ∀ sys, Same sys (effect sys) ∧
    ∃ ended, next sys = .done ended ∧ ended.cleanup = some exit

theorem endStart_closes (failed : Bool) (ended : Exit × Config) :
    Closes ended.1 (endStart failed ended) := rfl

theorem endStop_closes (env : Env) (ended : Exit × Config) : Closes ended.1 (endStop env ended) := by
  obtain ⟨exit, config⟩ := ended
  cases exit with
  | returned ok =>
    intro sys
    obtain ⟨files, dirs, mounts⟩ := runHooks_frame env config.oci.hooks.poststop
      config.state.stateFilePath.text false sys
    exact ⟨⟨files, dirs, mounts⟩, _, rfl, rfl⟩
  | aborted | stuck => rfl

section Race
variable (env : Env) (rootDir : Option String) (id : String) (mounts : List Mount)

def Begins (script : Script SysCall Sys Teardown) : Prop :=
  ∃ config finish, Poised rootDir id mounts config ∧ (∀ ended, Closes ended.1 (finish ended)) ∧
    script = unmounting env mounts (afterUnmounts env config finish)

inductive Owns (sys : Sys) : Script SysCall Sys Teardown → Prop where
  | unmounting {config : Config} {finish : Exit × Config → Script SysCall Sys Teardown}
      {before rest : List Mount} (poised : Poised rootDir id mounts config)
      (closes : ∀ ended, Closes ended.1 (finish ended)) (split : mounts = before ++ rest)
      (gone : ∀ mount ∈ before, mount.dest.text ∉ sys.mounts)
      (left : ∀ mount ∈ rest, sys.mounts.count mount.dest.text = 1)
      (present : (sys.files (statePathOf rootDir id)).isSome = true) :
      Owns sys (ClrOci.unmounting env rest (afterUnmounts env config finish))
  | deleting {config : Config} {finish : Exit × Config → Script SysCall Sys Teardown}
      (poised : Poised rootDir id mounts config) (closes : ∀ ended, Closes ended.1 (finish ended))
      (gone : ∀ mount ∈ mounts, mount.dest.text ∉ sys.mounts)
      (deleted : sys.files (statePathOf rootDir id) = none) :
      Owns sys (ClrOci.deleting env config finish)
  | closed {script : Script SysCall Sys Teardown} (closes : Closes (.returned true) script)
      (gone : ∀ mount ∈ mounts, mount.dest.text ∉ sys.mounts)
      (deleted : sys.files (statePathOf rootDir id) = none)
      (removed : sys.dirs (runtimePath rootDir id).text = false) : Owns sys script

/-- A process that takes nothing away, and whose cleanup does not succeed, when the first thing that
a cleanup takes away is gone. -/
structure Yields (script : Script SysCall Sys Teardown) : Prop where
  fails : ∀ ended, script = .done ended → ended.cleanup ≠ some (.returned true)
  keeps : script.Keeps (fun _ sys => Lost rootDir id mounts sys) fun _ before after next =>
    Same before after ∧ ∀ ended, next = .done ended → ended.cleanup ≠ some (.returned true)

variable {env rootDir id mounts} {sys sys' : Sys} {script : Script SysCall Sys Teardown}

theorem Owns.of_same (owns : Owns env rootDir id mounts sys script) (same : Same sys sys') :
    Owns env rootDir id mounts sys' script := by
  obtain ⟨files, dirs, table⟩ := same
  cases owns with
  | unmounting poised closes split gone left present =>
    rw [← table] at gone left
    exact .unmounting poised closes split gone left (by rw [files]; exact present)
  | deleting poised closes gone deleted =>
    rw [← table] at gone
    exact .deleting poised closes gone (by rw [files]; exact deleted)
  | closed closes gone deleted removed =>
    rw [← table] at gone
    exact .closed closes gone (by rw [files]; exact deleted) (by rw [dirs]; exact removed)

theorem Owns.ended {ended : Teardown} (owns : Owns env rootDir id mounts sys script)
    (shape : script = .done ended) :
    ended.cleanup = some (.returned true) ∧ (∀ mount ∈ mounts, mount.dest.text ∉ sys.mounts) ∧
      sys.files (statePathOf rootDir id) = none ∧ sys.dirs (runtimePath rootDir id).text = false := by
  cases owns with
  | @unmounting config finish before rest _ _ _ _ _ _ =>
    cases rest with
    | nil => nomatch shape
    | cons mount others =>
      rw [unmounting_cons] at shape
      nomatch shape
  | deleting => nomatch shape
  | closed closes gone deleted removed =>
    subst shape
    exact ⟨closes, gone, deleted, removed⟩

theorem Lost.of_same (lost : Lost rootDir id mounts sys) (same : Same sys sys') :
    Lost rootDir id mounts sys' := by
  unfold Lost at lost ⊢
  rw [same.files, same.mounts]
  exact lost

theorem Yields.of_closes {exit : Exit} (failed : exit ≠ .returned true) (closes : Closes exit script) :
    Yields rootDir id mounts script := by
  have other : ∀ ended : Teardown, ended.cleanup = some exit →
      ended.cleanup ≠ some (.returned true) := by
    intro ended same ok
    exact failed (Option.some.inj (same.symm.trans ok))
  cases script with
  | done ended =>
    refine ⟨fun ended' same => ?_, trivial⟩
    cases same
    exact other ended closes
  | step call effect next =>
    refine ⟨fun _ same => (nomatch same), fun sys _ => ?_⟩
    obtain ⟨same, ended, shape, exit⟩ := closes sys
    rw [shape]
    refine ⟨⟨same, fun ended' same => ?_⟩, trivial⟩
    cases same
    exact other ended exit

theorem Yields.step {call : SysCall} {effect : Sys → Sys} {next : Sys → Script SysCall Sys Teardown}
    (yields : Yields rootDir id mounts (.step call effect next)) (lost : Lost rootDir id mounts sys) :
    Same sys (effect sys) ∧ Yields rootDir id mounts (next sys) := by
  obtain ⟨⟨same, fails⟩, keeps⟩ := yields.keeps sys lost
  exact ⟨same, fails, keeps⟩

theorem Recalls.next {config : Config} (recalls : Recalls rootDir id mounts config) (env : Env)
    (failed : Bool) :
    ∃ next, afterLoopSteps env failed config = .step .reread (fun sys => sys) next ∧
      ∀ sys, (∃ ended, next sys = .done ended ∧ ended.cleanup = none) ∨
        Begins env rootDir id mounts (next sys) := by
  refine ⟨_, rfl, fun sys => ?_⟩
  cases got : getConfigAndState sys.files config with
  | none => exact Or.inl ⟨_, rfl, rfl⟩
  | some fetched =>
    dsimp only
    split
    · exact Or.inl ⟨_, rfl, rfl⟩
    · have filled := (getConfigAndState_spec recalls.named got).2.2
      obtain ⟨runtime, stateFile⟩ := Config.fill_placed_paths config id fetched.state
      rw [← filled, recalls.root] at runtime stateFile
      have kept : fetched.config.oci.mounts = mounts := by
        rw [filled, Config.placed_eq]
        exact recalls.mounts
      refine Or.inr ⟨fetched.config, endStart failed, ⟨kept, runtime, stateFile⟩,
        endStart_closes failed, ?_⟩
      rw [cleanupSteps_bind, kept]

theorem Owns.of_begins (intact : Intact rootDir id mounts sys)
    (begins : Begins env rootDir id mounts script) : Owns env rootDir id mounts sys script := by
  obtain ⟨config, finish, poised, closes, rfl⟩ := begins
  exact .unmounting poised closes (List.nil_append mounts).symm (fun _ none => nomatch none)
    intact.made intact.present

section Obliging
variable (obliging : Obliging env rootDir id)
  (recorded : ∀ mount ∈ mounts, mount.ignoreMount = false)
include obliging recorded

theorem Yields.of_begins (begins : Begins env rootDir id mounts script) :
    Yields rootDir id mounts script := by
  obtain ⟨config, finish, poised, closes, rfl⟩ := begins
  cases mounts with
  | nil =>
    rw [unmounting_nil, afterUnmounts, if_pos rfl, unlinking]
    refine ⟨fun _ same => (nomatch same), fun sys lost => ?_⟩
    obtain ⟨exit, _, same⟩ := poised.unlink_fails sys obliging lost
    have failed : ¬ (deleteStateFile env ⟨config, sys⟩).exit = .returned true := by
      rw [exit]
      decide
    have rest : Yields rootDir id [] (finish ((deleteStateFile env ⟨config, sys⟩).exit,
        (deleteStateFile env ⟨config, sys⟩).state.config)) := Yields.of_closes failed (closes _)
    dsimp only
    rw [if_neg failed]
    exact ⟨⟨same, rest.fails⟩, rest.keeps⟩
  | cons mount others =>
    rw [unmounting_cons]
    refine ⟨fun _ same => (nomatch same), fun sys lost => ?_⟩
    obtain ⟨exit, same⟩ := obliging.unmounted_fails sys (recorded mount List.mem_cons_self) lost
    have failed : ¬ (handleUnmount env mount sys).exit = .returned true := by
      rw [exit]
      decide
    have rest : Yields rootDir id (mount :: others)
        (finish ((handleUnmount env mount sys).exit, config)) := Yields.of_closes failed (closes _)
    dsimp only
    rw [if_neg failed, afterUnmounts, if_neg failed]
    exact ⟨⟨same, rest.fails⟩, rest.keeps⟩

variable (distinct : (mounts.map fun mount => mount.dest.text).Nodup)
include distinct

theorem Owns.step {call : SysCall} {effect : Sys → Sys} {next : Sys → Script SysCall Sys Teardown}
    (owns : Owns env rootDir id mounts sys script) (shape : script = .step call effect next) :
    Owns env rootDir id mounts (effect sys) (next sys) ∧
      (Lost rootDir id mounts sys → Lost rootDir id mounts (effect sys)) := by
  cases owns with
  | @unmounting config finish before rest poised closes split gone left present =>
    cases rest with
    | nil =>
      rw [unmounting_nil, afterUnmounts, if_pos rfl, unlinking] at shape
      cases shape
      obtain ⟨exit, same, deleted, table⟩ := poised.unlinks sys obliging present
      rw [List.append_nil] at split
      subst split
      dsimp only
      rw [if_pos exit, same]
      rw [← table] at gone
      refine ⟨.deleting poised closes gone deleted, fun lost => ?_⟩
      cases mounts with
      | nil => exact deleted
      | cons mount others => exact gone mount List.mem_cons_self
    | cons mount others =>
      rw [unmounting_cons] at shape
      cases shape
      subst split
      have once := left mount List.mem_cons_self
      obtain ⟨exit, table⟩ := obliging.unmounts sys
        (recorded mount (List.mem_append_right before List.mem_cons_self))
        (List.count_pos_iff.mp (by omega))
      have files := (handleUnmount_frame env mount sys).1
      have shrinks : ∀ dest, dest ∉ sys.mounts → dest ∉ (handleUnmount env mount sys).state.mounts := by
        intro dest missing
        rw [table]
        exact fun member => missing (List.mem_of_mem_erase member)
      dsimp only
      rw [if_pos exit]
      refine ⟨.unmounting poised closes (List.append_cons before mount others)
        (fun other member => ?_) (fun other member => ?_) (by rw [files]; exact present), fun lost => ?_⟩
      · rcases List.mem_append.mp member with early | now
        · exact shrinks _ (gone other early)
        · rw [List.mem_singleton.mp now, table, ← List.count_eq_zero, List.count_erase_self]
          omega
      · have apart : other.dest.text ≠ mount.dest.text := by
          rw [List.map_append, List.map_cons] at distinct
          have fresh := (List.nodup_cons.mp (List.nodup_append.mp distinct).2.1).1
          exact fun same => fresh (List.mem_map.mpr ⟨other, member, same⟩)
        rw [table, List.count_erase_of_ne apart]
        exact left other (List.mem_cons_of_mem mount member)
      · cases before with
        | nil => exact shrinks _ lost
        | cons first _ => exact shrinks _ lost
  | @deleting config finish poised closes gone deleted =>
    cases shape
    obtain ⟨exit, table, files, removed⟩ := poised.deletes sys obliging
    have closed : ∀ ended : Exit × Config, ended.1 = .returned true →
        Closes (.returned true) (finish ended) := by
      intro ended ok
      have closed := closes ended
      rwa [ok] at closed
    rw [← table] at gone
    refine ⟨.closed (closed _ exit) gone (files _ deleted) removed, fun lost => ?_⟩
    cases mounts with
    | nil => exact files _ lost
    | cons mount others => exact gone mount List.mem_cons_self
  | closed closes gone deleted removed =>
    subst shape
    obtain ⟨⟨files, dirs, table⟩, ended, shape, exit⟩ := closes sys
    rw [← table] at gone
    rw [shape]
    refine ⟨.closed exit gone (by rw [files]; exact deleted) (by rw [dirs]; exact removed), fun lost => ?_⟩
    cases mounts with
    | nil => exact (congrFun files _).trans lost
    | cons mount others => exact gone mount List.mem_cons_self

/-- The first step of a cleanup succeeds, and makes the process the owner of the rest. -/
theorem Begins.first (intact : Intact rootDir id mounts sys)
    (begins : Begins env rootDir id mounts script) :
    ∃ call effect next, script = .step call effect next ∧
      Owns env rootDir id mounts (effect sys) (next sys) ∧ Lost rootDir id mounts (effect sys) := by
  have owns := Owns.of_begins intact begins
  obtain ⟨config, finish, poised, closes, rfl⟩ := begins
  cases mounts with
  | nil =>
    refine ⟨_, _, _, rfl, (owns.step obliging recorded distinct rfl).1, ?_⟩
    exact (poised.unlinks sys obliging intact.present).2.2.1
  | cons mount others =>
    refine ⟨_, _, _, unmounting_cons mount others _,
      (owns.step obliging recorded distinct (unmounting_cons mount others _)).1, ?_⟩
    have once := intact.made mount List.mem_cons_self
    have table := (obliging.unmounts sys (recorded mount List.mem_cons_self)
      (List.count_pos_iff.mp (by omega))).2
    rw [Lost, table, ← List.count_eq_zero, List.count_erase_self]
    omega

end Obliging

/-- A start that has not taken anything away: it has still to read the state again, is at the
beginning of its cleanup, or has ended without one. -/
def Waits (env : Env) (rootDir : Option String) (id : String) (mounts : List Mount)
    (script : Script SysCall Sys Teardown) : Prop :=
  (∃ config failed, Recalls rootDir id mounts config ∧ script = afterLoopSteps env failed config) ∨
    Begins env rootDir id mounts script ∨ ∃ ended, script = .done ended ∧ ended.cleanup = none

theorem Yields.of_ended {ended : Teardown} (none : ended.cleanup = none) :
    Yields rootDir id mounts (.done ended) := by
  refine ⟨fun other same => ?_, trivial⟩
  cases same
  rw [none]
  exact fun ok => nomatch ok

inductive Stage (env : Env) (rootDir : Option String) (id : String) (mounts : List Mount)
    (pool : Pool Cleaner SysCall Sys Teardown) : Prop where
  | fresh (intact : Intact rootDir id mounts pool.state)
      (start : Waits env rootDir id mounts (pool.scripts .start))
      (stop : Begins env rootDir id mounts (pool.scripts .stop))
  | owned (owner : Cleaner) (owns : Owns env rootDir id mounts pool.state (pool.scripts owner))
      (yields : ∀ other, other ≠ owner → Yields rootDir id mounts (pool.scripts other))
      (lost : Lost rootDir id mounts pool.state)

section Obliging
variable (obliging : Obliging env rootDir id)
  (recorded : ∀ mount ∈ mounts, mount.ignoreMount = false)
include obliging recorded

theorem Waits.yields (waits : Waits env rootDir id mounts script) : Yields rootDir id mounts script := by
  rcases waits with ⟨config, failed, recalls, rfl⟩ | begins | ⟨ended, rfl, none⟩
  · obtain ⟨next, shape, goes⟩ := recalls.next env failed
    rw [shape]
    refine ⟨fun _ same => (nomatch same), fun sys _ => ?_⟩
    have rest : Yields rootDir id mounts (next sys) := by
      rcases goes sys with ⟨ended, same, none⟩ | begins
      · rw [same]
        exact Yields.of_ended none
      · exact Yields.of_begins obliging recorded begins
    exact ⟨⟨⟨rfl, rfl, rfl⟩, rest.fails⟩, rest.keeps⟩
  · exact Yields.of_begins obliging recorded begins
  · exact Yields.of_ended none

variable (distinct : (mounts.map fun mount => mount.dest.text).Nodup)
include distinct

theorem Stage.step {pool : Pool Cleaner SysCall Sys Teardown} (stage : Stage env rootDir id mounts pool)
    (i : Cleaner) : Stage env rootDir id mounts (pool.step i) := by
  cases here : pool.scripts i with
  | done result =>
    rw [Pool.step_of_done here]
    exact stage
  | step call effect next =>
    have mine := Pool.step_scripts_self here
    have state : (pool.step i).state = effect pool.state := by rw [Pool.step_of_step here]
    cases stage with
    | fresh intact start stop =>
      cases i with
      | stop =>
        obtain ⟨_, _, _, shape, owns, lost⟩ := stop.first obliging recorded distinct intact
        cases here.symm.trans shape
        refine .owned .stop (by rw [mine, state]; exact owns) (fun other apart => ?_)
          (by rw [state]; exact lost)
        cases other with
        | start =>
          rw [Pool.step_scripts_of_ne (by decide)]
          exact start.yields obliging recorded
        | stop => exact absurd rfl apart
      | start =>
        have others : (pool.step .start).scripts .stop = pool.scripts .stop :=
          Pool.step_scripts_of_ne (by decide)
        rcases start with ⟨config, failed, recalls, shape⟩ | begins | ⟨ended, shape, _⟩
        · obtain ⟨_, shape', goes⟩ := recalls.next env failed
          cases here.symm.trans (shape.trans shape')
          refine .fresh (by rw [state]; exact intact) ?_ (by rw [others]; exact stop)
          rw [mine]
          rcases goes pool.state with ended | begins
          · exact Or.inr (Or.inr ended)
          · exact Or.inr (Or.inl begins)
        · obtain ⟨_, _, _, shape, owns, lost⟩ := begins.first obliging recorded distinct intact
          cases here.symm.trans shape
          refine .owned .start (by rw [mine, state]; exact owns) (fun other apart => ?_)
            (by rw [state]; exact lost)
          cases other with
          | start => exact absurd rfl apart
          | stop =>
            rw [others]
            exact Yields.of_begins obliging recorded stop
        · cases here.symm.trans shape
    | owned owner owns yields lost =>
      by_cases same : i = owner
      · subst same
        obtain ⟨owns, kept⟩ := owns.step obliging recorded distinct here
        refine .owned i (by rw [mine, state]; exact owns) (fun other apart => ?_)
          (by rw [state]; exact kept lost)
        rw [Pool.step_scripts_of_ne apart]
        exact yields other apart
      · have yielding := yields i same
        rw [here] at yielding
        obtain ⟨unchanged, further⟩ := yielding.step lost
        refine .owned owner ?_ (fun other apart => ?_) (by rw [state]; exact lost.of_same unchanged)
        · rw [Pool.step_scripts_of_ne (Ne.symm same), state]
          exact owns.of_same unchanged
        · by_cases acts : other = i
          · rw [acts, mine]
            exact further
          · rw [Pool.step_scripts_of_ne acts]
            exact yields other apart

def CleanedUpBy (pool : Pool Cleaner SysCall Sys Teardown) (cleaner : Cleaner) : Prop :=
  ∃ ended, pool.scripts cleaner = .done ended ∧ ended.cleanup = some (.returned true)

theorem Stage.ended {pool : Pool Cleaner SysCall Sys Teardown} (stage : Stage env rootDir id mounts pool)
    (ended : ∀ cleaner, (pool.scripts cleaner).result?.isSome = true) :
    (∀ mount ∈ mounts, mount.dest.text ∉ pool.state.mounts) ∧
      pool.state.files (statePathOf rootDir id) = none ∧
      pool.state.dirs (runtimePath rootDir id).text = false ∧
      ∃ owner, ∀ cleaner, CleanedUpBy pool cleaner ↔ cleaner = owner := by
  have finished : ∀ cleaner, ∃ result, pool.scripts cleaner = .done result := by
    intro cleaner
    have reached := ended cleaner
    cases here : pool.scripts cleaner with
    | done result => exact ⟨result, rfl⟩
    | step call effect next =>
      rw [here] at reached
      nomatch reached
  cases stage with
  | fresh intact start stop =>
    obtain ⟨result, shape⟩ := finished .stop
    obtain ⟨_, _, _, shape', _⟩ := stop.first obliging recorded distinct intact
    cases shape.symm.trans shape'
  | owned owner owns yields lost =>
    obtain ⟨result, shape⟩ := finished owner
    obtain ⟨cleaned, gone, deleted, removed⟩ := owns.ended shape
    refine ⟨gone, deleted, removed, owner, fun cleaner => ⟨fun ⟨other, same, ok⟩ => ?_, ?_⟩⟩
    · by_contra apart
      exact (yields cleaner apart).fails other same ok
    · rintro rfl
      exact ⟨result, shape, cleaned⟩

def cleaners (env : Env) (failed : Bool) (start stop : Config) (sys : Sys) :
    Pool Cleaner SysCall Sys Teardown :=
  ⟨fun
    | .start => afterLoopSteps env failed start
    | .stop => stopSteps env stop, sys⟩

/-- In every interleaving of the cleanup of a woken start and that of a stop, both for the same
recorded mounts: when both have ended, no recorded mount remains, the state file and the runtime
directory are gone, and exactly one cleanup has returned true. -/
theorem cleanup_succeeds_once {start stop : Config} (recalls : Recalls rootDir id mounts start)
    (poised : Poised rootDir id mounts stop) (intact : Intact rootDir id mounts sys) (failed : Bool)
    (schedule : List Cleaner) :
    let final := schedule.foldl Pool.step (cleaners env failed start stop sys)
    (∀ cleaner, (final.scripts cleaner).result?.isSome = true) →
      (∀ mount ∈ mounts, mount.dest.text ∉ final.state.mounts) ∧
        final.state.files (statePathOf rootDir id) = none ∧
        final.state.dirs (runtimePath rootDir id).text = false ∧
        ∃ owner, ∀ cleaner, CleanedUpBy final cleaner ↔ cleaner = owner := by
  intro final ended
  have begins : Begins env rootDir id mounts (stopSteps env stop) := by
    refine ⟨stop, endStop env, poised, endStop_closes env, ?_⟩
    rw [stopSteps, cleanupSteps_bind, poised.mounts]
  have stage : Stage env rootDir id mounts (cleaners env failed start stop sys) :=
    .fresh intact (Or.inl ⟨start, failed, recalls, rfl⟩) begins
  have last : Stage env rootDir id mounts final :=
    List.foldlRecOn schedule Pool.step stage fun _ stage cleaner _ =>
      stage.step obliging recorded distinct cleaner
  exact last.ended obliging recorded distinct ended

end Obliging

end Race

section Commands
variable {env : Env} {rootDir : Option String} {id : String} {sys : Sys} {fetched : Fetched}
  (got : fetch rootDir id sys = some fetched)
include got

theorem waiting_recalls (data : StartData) (wait : Bool) :
    let config := configUpdate fetched.config fetched.state
    let bundlePath := data.bundlePath (env.host sys.clock) config.bundlePath
    let running := (reachRunning env wait fetched.state.createTime ⟨config.withBundle bundlePath, sys⟩).state
    Recalls rootDir id fetched.state.mounts (poststartHooks env running).state.config := by
  intro config bundlePath running
  have moved : (World.mk (config.withBundle bundlePath) sys).Rewrites fetched.state.createTime
      (poststartHooks env running).state :=
    (reachRunning_rewrites env wait fetched.state.createTime _).trans (poststartHooks_rewrites env running)
  have filled := (getConfigAndState_spec rfl got).2.2
  have mounts : config.oci.mounts = fetched.state.mounts := by
    change (if fetched.state.mounts = [] then fetched.config.oci.mounts else fetched.state.mounts) = _
    rw [filled, Config.placed_eq]
    split
    · next none => exact none.symm
    · rfl
  have root : config.rootDir = rootDir := by
    change fetched.config.rootDir = rootDir
    rw [filled, Config.placed_eq]
    rfl
  have named : config.optargContainerId = some id := by
    change fetched.config.optargContainerId = some id
    rw [filled, Config.placed_eq]
    rfl
  exact ⟨(congrArg Config.rootDir moved.config).trans root,
    (congrArg Config.optargContainerId moved.config).trans named,
    (congrArg (fun config : Config => config.oci.mounts) moved.config).trans mounts⟩

/-- A stop cleans up with the mounts that it has read, and with the paths of the container. -/
theorem stopping_poised (env : Env) (root : GNode) (world : World) :
    ∃ config, Poised rootDir id fetched.state.mounts config ∧
      stopFetched env fetched root world = clrOciStop env fetched.state ⟨config, world.sys⟩ := by
  obtain ⟨config, mounts, state, run⟩ := stopFetched_eq env fetched root world
  have paths := Config.fill_placed_paths ((Config.fresh rootDir).setContainerId (some id)) id fetched.state
  rw [← (getConfigAndState_spec rfl got).2.2, ← state, Config.setContainerId_rootDir] at paths
  exact ⟨config, ⟨mounts, paths.1, paths.2⟩, run⟩

theorem fetched_recorded {pid : GPid} {status : Status}
    (holding : Holding sys.files rootDir id pid status) :
    ∀ mount ∈ fetched.state.mounts, mount.ignoreMount = false := by
  obtain ⟨config, inputs, stored, rfl, rfl, rfl, rfl⟩ := holding
  obtain ⟨_, state, _⟩ := stored.fetched got
  intro mount member
  rw [state] at member
  obtain ⟨dest, _, rfl⟩ := List.mem_map.mp member
  rfl

end Commands

theorem Env.calm_obliging : Obliging Env.calm (some "/run") "c1" where
  umount := by
    intro mount sys
    unfold performUnmount
    dsimp only
    split
    · next made => exact made.symm
    · next missing => exact (Bool.eq_false_iff.mpr missing).symm
  unlink := by
    intro path sys
    unfold unlink
    split
    · next present => exact present.symm
    · next missing => exact (Bool.eq_false_iff.mpr missing).symm
  delete := by
    intro config sys runtime
    rw [runtimeDirDelete, runtime]
    rfl
  removes := fun _ _ => rfl

def sharedMounts : List Mount := [mountedAt "/rootfs/a", mountedAt "/rootfs/b"]

def wokenConfig : Config :=
  { rootDir := some "/run", optargContainerId := some "c1", oci := { mounts := sharedMounts } }

theorem interleaved_cleanup_succeeds_once :
    let schedule : List Cleaner := [.start, .stop, .start, .stop, .stop, .stop, .stop]
    let final := schedule.foldl Pool.step (cleaners Env.calm false wokenConfig (wokenConfig.placed "c1")
      (runningWorld sharedMounts fun _ => none).sys)
    (∀ mount ∈ sharedMounts, mount.dest.text ∉ final.state.mounts) ∧
      final.state.files (statePathOf (some "/run") "c1") = none ∧
      final.state.dirs (runtimePath (some "/run") "c1").text = false ∧
      ∃ owner, ∀ cleaner, CleanedUpBy final cleaner ↔ cleaner = owner := by
  intro schedule final
  have recalls : Recalls (some "/run") "c1" sharedMounts wokenConfig := ⟨rfl, rfl, rfl⟩
  have poised : Poised (some "/run") "c1" sharedMounts (wokenConfig.placed "c1") := by
    rw [Config.placed_eq]
    exact ⟨rfl, rfl, rfl⟩
  have intact : Intact (some "/run") "c1" sharedMounts (runningWorld sharedMounts fun _ => none).sys :=
    ⟨by decide +kernel, by decide +kernel⟩
  refine cleanup_succeeds_once Env.calm_obliging (by decide +kernel) (by decide +kernel) recalls poised
    intact false schedule fun cleaner => ?_
  cases cleaner <;> decide +kernel

end ClrOci
