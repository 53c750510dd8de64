import ClrOci.Removal

/-! A stop that fails half-way, and the stop that is tried after it. -/

set_option autoImplicit false

namespace ClrOci

open Foundation

section Stop
variable {env : Env} {state : OciState} {world : World} {allowed : List String → String → Bool}

/-- A stop that is refused one of the umounts has changed the mount table only. -/
theorem clrOciStop_interrupted (state : OciState) (working : Working env)
    (uniform : ∀ clock, (env.host clock).umount = allowed)
    (refused : (drain allowed (recordedDests world.config.oci.mounts) world.sys.mounts).1 = false) :
    let run := clrOciStop env state world
    run.exit = .returned false ∧ run.state.sys.files = world.sys.files ∧
      run.state.sys.dirs = world.sys.dirs ∧
      run.state.sys.mounts =
        (drain allowed (recordedDests world.config.oci.mounts) world.sys.mounts).2 := by
  obtain ⟨clock, same⟩ := vmDown_state env state world
  rw [clrOciStop, Action.andThen_of_succeeds (working.vmDown state world), same]
  generalize halted : world.withSys { world.sys with clock := clock } = reached
  have table : reached.sys.mounts = world.sys.mounts := by subst halted; rfl
  have config : reached.config = world.config := by subst halted; rfl
  obtain ⟨exit, mounts⟩ := handleUnmounts_drain uniform reached.config.oci.mounts reached.sys
  obtain ⟨files, dirs⟩ := handleUnmounts_frame env reached.config.oci.mounts reached.sys
  rw [config, table, refused] at exit
  have stopped : ¬ (unmountAll env).Succeeds reached := by
    intro ok
    have contrary := exit.symm.trans (show _ = Exit.returned true from config ▸ ok)
    cases contrary
  have cleaned : cleanup env reached = unmountAll env reached := Action.andThen_of_stops stopped
  have failed : (cleanup env reached).exit = .returned false := by
    rw [cleaned, unmountAll, config]
    exact exit
  have hooks := runHooks_frame env (unmountAll env reached).state.config.oci.hooks.poststop
    (unmountAll env reached).state.config.state.stateFilePath.text false
    (unmountAll env reached).state.sys
  rw [cleanupThenHooks]
  simp only [failed]
  rw [cleaned]
  refine ⟨trivial, hooks.1.trans (files.trans ?_), hooks.2.1.trans (dirs.trans ?_),
    hooks.2.2.trans (mounts.trans ?_)⟩
  · subst halted; rfl
  · subst halted; rfl
  · rw [config, table]

end Stop

structure Completed (dests : List String) (runtimePath : PathBuffer) (after : Run World) :
    Prop where
  success : after.exit = .returned true
  unmounted : ∀ dest ∈ dests, dest ∉ after.state.sys.mounts
  stateFile : after.state.sys.files (stateFilePath runtimePath).text = none
  runtimeDir : after.state.sys.dirs runtimePath.text = false

section Repeated
variable {world : World} {id : String} {rest : List String} {fetched : Fetched} {root : GNode}

theorem fetch_of_same_files {sys : Sys} (files : sys.files = world.sys.files) :
    World.fetch { world with sys := sys } id = world.fetch id := by
  rw [World.fetch, World.fetch, files]

variable (asked : handleDefaultUsage (id :: rest) = none) (got : world.fetch id = some fetched)
  (parsed : jsonParseFile world.sys.files fetched.configFile = some root)
include asked got parsed

/-- A stop with a fault at one of the recorded mounts fails, and the fault goes no further than
the mount table. -/
theorem handleCommandStop_interrupted {env : Env} {allowed : List String → String → Bool}
    (working : Working env) (uniform : ∀ clock, (env.host clock).umount = allowed)
    (refused : (drain allowed (recordedDests fetched.state.mounts) world.sys.mounts).1 = false) :
    let run := handleCommandStop env (id :: rest) world
    run.exit = .returned false ∧ run.state.sys.files = world.sys.files ∧
      run.state.sys.mounts = (drain allowed (recordedDests fetched.state.mounts)
        world.sys.mounts).2 := by
  obtain ⟨config, mounts, _, run⟩ := handleCommandStop_eq asked got parsed env
  rw [run]
  rw [← mounts] at refused ⊢
  obtain ⟨exit, files, _, table⟩ := clrOciStop_interrupted fetched.state working uniform
    (show (drain allowed (recordedDests (World.mk config world.sys).config.oci.mounts)
      (World.mk config world.sys).sys.mounts).1 = false from refused)
  exact ⟨exit, files, table⟩

theorem handleCommandStop_completed_iff {env : Env} (working : Working env)
    (reported : ∀ clock, ((env.host clock).system
      (rmCommand (runtimePath world.config.rootDir id).text)).ok = true)
    (removes : RemovesAt env (runtimePath world.config.rootDir id).text)
    (granting : ∀ clock, (env.host clock).umount = fun table dest => table.contains dest)
    (mounted : ∀ dest ∈ recordedDests fetched.state.mounts, world.sys.mounts.count dest ≤ 1) :
    Completed (recordedDests fetched.state.mounts) (runtimePath world.config.rootDir id)
        (handleCommandStop env (id :: rest) world) ↔
      (drain (fun table dest => table.contains dest) (recordedDests fetched.state.mounts)
          world.sys.mounts).1 = true ∧
        isAbsolute (runtimePath world.config.rootDir id).text = true := by
  obtain ⟨config, mounts, state, run⟩ := handleCommandStop_eq asked got parsed env
  obtain ⟨runtime, file⟩ := World.fetch_paths got
  constructor
  · intro completed
    have ok := completed.success
    rw [run] at ok
    have cleaned := clrOciStop_cleaned ok
    have drained := cleaned.drained _ granting
    have absolute := cleaned.absolute
    simp only [mounts, state, runtime] at drained absolute
    exact ⟨congrArg Prod.fst drained, absolute⟩
  · rintro ⟨granted, absolute⟩
    have ok := handleCommandStop_completes asked got parsed working reported granting granted absolute
    have released := handleCommandStop_released asked got parsed (Or.inl removes) ok
    refine ⟨ok, fun dest recorded => ?_, released.stateFile, released.runtimeDir⟩
    rw [run] at ok ⊢
    have drained := (clrOciStop_cleaned ok).drained _ granting
    simp only [mounts] at drained
    have left := drain_table granted
    rw [drained] at left
    dsimp only at left
    rw [left]
    exact not_mem_diff_of_once (mounted dest recorded) recorded

theorem handleCommandStop_unreported {env : Env}
    (refused : ∀ clock, ((env.host clock).system
      (rmCommand (runtimePath world.config.rootDir id).text)).ok = false) :
    (handleCommandStop env (id :: rest) world).exit ≠ .returned true := by
  intro ok
  obtain ⟨config, _, state, run⟩ := handleCommandStop_eq asked got parsed env
  obtain ⟨runtime, _⟩ := World.fetch_paths got
  rw [run] at ok
  obtain ⟨clock, reported⟩ := (clrOciStop_cleaned ok).reported
  dsimp only at reported
  rw [state, runtime, refused clock] at reported
  cases reported

end Repeated

structure Deleting (env : Env) : Prop extends Working env where
  deletes : ∀ path, Shell.Inert path.toList →
    ∀ clock, (env.host clock).system (rmCommand path) = ⟨true, true⟩

structure Faulty (fault : String) (env : Env) : Prop extends Deleting env where
  umount : ∀ clock, (env.host clock).umount = fun table dest => table.contains dest && dest != fault

structure Recovered (env : Env) : Prop extends Deleting env where
  umount : ∀ clock, (env.host clock).umount = fun table dest => table.contains dest

theorem Env.shell_recovered {path : String} (active : ¬ Shell.Inert path.toList) :
    Recovered (Env.shell (fun table dest => table.contains dest) path ⟨false, false⟩ ⟨true, true⟩) where
  toWorking := Env.shell_working _ _ _ _
  deletes other inert clock := by
    have apart : other ≠ path := fun same => active (same ▸ inert)
    rw [Env.shell_elsewhere _ _ _ apart]
  umount _ := rfl

def Env.busy (fault : String) : Env :=
  { Env.calm with host := fun _ =>
    { Host.calm with umount := fun table dest => table.contains dest && dest != fault } }

theorem Env.busy_faulty (fault : String) : Faulty fault (Env.busy fault) where
  shutdown _ _ _ := rfl
  unlink _ _ := rfl
  deletes _ _ _ := rfl
  umount _ := rfl

theorem Env.calm_recovered : Recovered Env.calm where
  shutdown _ _ _ := rfl
  unlink _ _ := rfl
  deletes _ _ _ := rfl
  umount _ := rfl

/-- A stop that failed at one of its umounts can be completed by another stop exactly if it was
the first umount, and the runtime path is absolute and one that the shell reads as it is. -/
theorem stop_again_completes_iff (world : World) (id : String) (rest : List String)
    {fetched : Fetched} {root : GNode} (asked : handleDefaultUsage (id :: rest) = none)
    (got : world.fetch id = some fetched)
    (parsed : jsonParseFile world.sys.files fetched.configFile = some root)
    (distinct : (recordedDests fetched.state.mounts).Nodup)
    (mounted : ∀ dest ∈ recordedDests fetched.state.mounts, world.sys.mounts.count dest = 1)
    {k : Nat} {fault : String} (position : (recordedDests fetched.state.mounts)[k]? = some fault) :
    let path := (runtimePath world.config.rootDir id).text
    let failed (env : Env) := handleCommandStop env (id :: rest) world
    let again (env env' : Env) :=
      handleCommandStop env' (id :: rest) { world with sys := (failed env).state.sys }
    (∀ faulty, Faulty fault faulty → (failed faulty).exit = .returned false) ∧
      ((∀ faulty recovered, Faulty fault faulty → Recovered recovered →
          Completed (recordedDests fetched.state.mounts) (runtimePath world.config.rootDir id)
            (again faulty recovered)) ↔
        k = 0 ∧ isAbsolute path = true ∧ Shell.Inert path.toList) := by
  intro path failed again
  have present : ∀ dest ∈ recordedDests fetched.state.mounts, dest ∈ world.sys.mounts :=
    fun dest member => List.count_pos_iff.mp (by rw [mounted dest member]; omega)
  have stuck : drain (fun table dest => table.contains dest && dest != fault)
      (recordedDests fetched.state.mounts) world.sys.mounts = _ :=
    drain_of_fault distinct present position fun _ _ => rfl
  have inside := (List.getElem?_eq_some_iff.mp position).1
  have interrupted : ∀ faulty, Faulty fault faulty → _ := fun faulty first =>
    handleCommandStop_interrupted asked got parsed first.toWorking first.umount (by rw [stuck])
  -- The second stop finds the files as they were, and the table that the first one left.
  have second : ∀ faulty, Faulty fault faulty →
      World.fetch { world with sys := (failed faulty).state.sys } id = some fetched ∧
        jsonParseFile (failed faulty).state.sys.files fetched.configFile = some root := by
    intro faulty first
    obtain ⟨_, files, _⟩ := interrupted faulty first
    exact ⟨(fetch_of_same_files files).trans got, (congrArg (jsonParseFile · _) files).trans parsed⟩
  have completed : ∀ faulty recovered, Faulty fault faulty → Recovered recovered →
      Shell.Inert path.toList →
      (Completed (recordedDests fetched.state.mounts) (runtimePath world.config.rootDir id)
        (again faulty recovered) ↔ k = 0 ∧ isAbsolute path = true) := by
    intro faulty recovered first later inert
    obtain ⟨_, _, table⟩ := interrupted faulty first
    rw [stuck] at table
    have once : ∀ dest ∈ recordedDests fetched.state.mounts,
        (failed faulty).state.sys.mounts.count dest ≤ 1 := by
      intro dest member
      rw [table, ← mounted dest member]
      exact (List.diff_sublist _ _).count_le dest
    -- The items before the fault are gone, so a drain over all of them stops at the first of these.
    have drained : (drain (fun table dest => table.contains dest)
        (recordedDests fetched.state.mounts) (failed faulty).state.sys.mounts).1 = true ↔ k = 0 := by
      rw [table]
      exact drain_again_iff distinct mounted inside fun _ _ => rfl
    have deleted := later.deletes path inert
    rw [← drained]
    exact handleCommandStop_completed_iff asked (second faulty first).1 (second faulty first).2
      later.toWorking (fun clock => congrArg CommandResult.ok (deleted clock))
      (fun clock _ => congrArg CommandResult.removed (deleted clock)) later.umount once
  refine ⟨fun faulty first => (interrupted faulty first).1, ?_, ?_⟩
  · intro all
    have inert : Shell.Inert path.toList := by
      by_contra active
      -- A shell that refuses this path is one of those that may be there.
      have done := all _ _ (Env.busy_faulty fault) (Env.shell_recovered active)
      obtain ⟨again, parses⟩ := second _ (Env.busy_faulty fault)
      exact handleCommandStop_unreported asked again parses (fun clock => by rw [Env.shell_here])
        done.success
    obtain ⟨first, absolute⟩ := (completed _ _ (Env.busy_faulty fault) Env.calm_recovered inert).mp
      (all _ _ (Env.busy_faulty fault) Env.calm_recovered)
    exact ⟨first, absolute, inert⟩
  · rintro ⟨first, absolute, inert⟩ faulty recovered broken later
    exact (completed faulty recovered broken later inert).mpr ⟨first, absolute⟩

def twiceMounted : World := runningWorld [mountedAt "/rootfs/a", mountedAt "/rootfs/b"] (bundleFiles [])

def stopAgain (fault : String) : Run World :=
  handleCommandStop Env.calm ["c1"] { twiceMounted with
    sys := (handleCommandStop (Env.busy fault) ["c1"] twiceMounted).state.sys }

theorem stop_again_completes_first :
    Completed ["/rootfs/a", "/rootfs/b"] (runtimePath (some "/run") "c1") (stopAgain "/rootfs/a") := by
  have fetches : (twiceMounted.fetch "c1").isSome = true := by decide
  obtain ⟨fetched, got⟩ := Option.isSome_iff_exists.mp fetches
  have recorded : (twiceMounted.fetch "c1").map (fun fetched => recordedDests fetched.state.mounts) =
      some ["/rootfs/a", "/rootfs/b"] := by decide
  have parses : (twiceMounted.fetch "c1").all (fun fetched =>
      (jsonParseFile twiceMounted.sys.files fetched.configFile).isSome) = true := by decide
  rw [got, Option.map_some, Option.some.injEq] at recorded
  rw [got] at parses
  obtain ⟨root, parsed⟩ := Option.isSome_iff_exists.mp parses
  have first : (recordedDests fetched.state.mounts)[0]? = some "/rootfs/a" := by rw [recorded]; rfl
  have placed : (runtimePath twiceMounted.config.rootDir "c1").text = "/run/c1" := by decide
  have again := (stop_again_completes_iff twiceMounted "c1" [] (by decide) got parsed
    (by rw [recorded]; decide) (by rw [recorded]; decide) first).2.mpr
  dsimp only at again
  rw [recorded, placed] at again
  exact again ⟨rfl, by decide, Shell.Inert.of_ordinary (by decide)⟩ _ _ (Env.busy_faulty _)
    Env.calm_recovered

/-- The fault was at the second mount: the first is not mounted any more, and stop fails at it. -/
theorem stop_again_stuck_second :
    (stopAgain "/rootfs/b").exit = .returned false ∧
      (stopAgain "/rootfs/b").state.sys.mounts = ["/rootfs/b"] ∧
      (stopAgain "/rootfs/b").state.sys.dirs "/run/c1" = true ∧
      ¬ Completed ["/rootfs/a", "/rootfs/b"] (runtimePath (some "/run") "c1")
        (stopAgain "/rootfs/b") := by
  have failed : (stopAgain "/rootfs/b").exit = .returned false := by decide
  refine ⟨failed, by decide, by decide, fun completed => ?_⟩
  have success := completed.success
  rw [failed] at success
  cases success

end ClrOci
