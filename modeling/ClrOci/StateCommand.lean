import ClrOci.Listing

/-! What `state` prints.

The command prints the state file as it is: it neither parses it nor looks at the process, so unlike the
listing it may show a container as running whose hypervisor is gone.
-/

set_option autoImplicit false

namespace ClrOci

open Foundation

/-- `handler_state`: its result, and the content of the state file if that is printed. -/
def handlerState (argv : List String) (world : World) : Bool × Option Content :=
  match handleDefaultUsage argv with
  | some ret => (ret, none)
  | none =>
    if argv.length ≠ 1 then (false, none)
    else
      match (runtimePathGet (world.config.setContainerId argv.head?)).bind stateFileGet with
      | none => (false, none)
      | some config =>
        match world.sys.files config.state.stateFilePath.text with
        | none => (false, none)
        | some contents => (true, some contents)

section State
variable {env : Env} {rootDir : Option String} {id : String} {sys : Sys}

theorem handlerState_eq (asked : ¬ (id = "--help" ∨ id = "-h")) :
    handlerState [id] ⟨Config.fresh rootDir, sys⟩ =
      ((sys.files (statePathOf rootDir id)).isSome, sys.files (statePathOf rootDir id)) := by
  have accepted : handleDefaultUsage [id] = none := if_neg asked
  have located : (runtimePathGet ((Config.fresh rootDir).setContainerId (some id))).bind stateFileGet =
      some (((Config.fresh rootDir).setContainerId (some id)).located id).withStateFilePath :=
    if_pos (runtimePath_isSet rootDir id)
  simp only [handlerState, accepted, List.length_singleton, ne_eq, not_true_eq_false, ↓reduceIte,
    List.head?_cons, located]
  have path : (((Config.fresh rootDir).setContainerId
      (some id)).located id).withStateFilePath.state.stateFilePath =
      stateFilePath (runtimePath rootDir id) := rfl
  rw [path, ← statePathOf]
  cases sys.files (statePathOf rootDir id) with
  | none => rfl
  | some contents => rfl

structure ShowsState (id : String) (entry : Entry) (document : Json) : Prop where
  named : document.member? "id" = some (.string id)
  process : document.member? "pid" = some (.int entry.pid.toUInt32.toNat)
  status : document.member? "status" = some (Json.ofString? entry.status.toStr)

theorem Holding.shows {files : Files} {pid : GPid} {status : Status}
    (holding : Holding files rootDir id pid status) :
    ∃ document, files (statePathOf rootDir id) = some (.json document) ∧
      ShowsState id ⟨pid, status⟩ document := by
  obtain ⟨config, inputs, stored, rfl, rfl, rfl, rfl⟩ := holding
  obtain ⟨text, shown, held⟩ := stored.held
  rw [stored.placed] at held
  refine ⟨_, held, ?_, ?_, ?_⟩
  · rfl
  · rfl
  · rw [shown]
    rfl

theorem handlerState_registered {registry : Registry} (represents : Represents rootDir sys registry)
    (proper : Proper rootDir id) (asked : ¬ (id = "--help" ∨ id = "-h")) {entry : Entry}
    (registered : registry id = some entry) :
    ∃ document, ShowsState id entry document ∧
      handlerState [id] ⟨Config.fresh rootDir, sys⟩ = (true, some (.json document)) := by
  obtain ⟨document, held, shows⟩ := ((represents id proper).present entry registered).shows
  refine ⟨document, shows, ?_⟩
  rw [handlerState_eq asked, held]
  rfl

theorem ofString?_inj {text text' : Option String} :
    Json.ofString? text = Json.ofString? text' ↔ text = text' := by
  cases text <;> cases text' <;> simp [Json.ofString?]

theorem toStr_eq_stopped_iff (status : Status) :
    Status.stopped.toStr = status.toStr ↔ status = .stopped := by
  cases status <;> decide

/-- After any run of the runtime, `state` shows for each container that is listed the entry that it has in
the registry, and the listing shows the same status exactly if the container is stopped or its process can
be signalled; what is not registered has no document to be printed. -/
theorem state_agrees_with_listing {registry : Registry} (sequential : env.Sequential)
    (start : Represents rootDir sys registry) (inputs : List (String × RuntimeCommand))
    (sane : Along (act env rootDir) (Sane env rootDir) sys inputs) (showAll : Bool) (directory : Directory)
    (proper : ∀ name ∈ directory.names.getD [], Proper rootDir name ∧ ¬ (name = "--help" ∨ name = "-h")) :
    let after := inputs.foldl (act env rootDir) sys
    let state (name : String) := handlerState [name] ⟨Config.fresh rootDir, after⟩
    ∃ (final : Registry) (elements : List Json), Path (Addressed Advance) registry inputs final ∧
      (handlerList env rootDir (some "json") showAll directory after).1 =
        (if elements = [] then .null else .array elements) ∧
      List.Forall₂ (fun name element => ∃ entry document, final name = some entry ∧
          state name = (true, some (.json document)) ∧ ShowsState name entry document ∧
          ∃ clock, (element.member? "status" = document.member? "status" ↔
            entry.status = .stopped ∨ entry.pid ≠ 0 ∧ (env.host clock).kill entry.pid 0 = true))
        ((directory.names.getD []).filter fun name =>
          (readEntry after.files directory (rootDir.getD runtimeDirPrefix) name).isSome) elements ∧
      ∀ name ∈ directory.names.getD [], final name = none →
        ∀ document, (state name).2 ≠ some (.json document) := by
  intro after state
  obtain ⟨final, path, represents⟩ := (runtime_simulates sequential).run start sane
  obtain ⟨elements, printed, shown⟩ :=
    represents.listed env showAll directory fun name member => (proper name member).1
  refine ⟨final, elements, path, printed, ?_, fun name member absent document => ?_⟩
  · have named : ∀ name ∈ (directory.names.getD []).filter fun name =>
        (readEntry after.files directory (rootDir.getD runtimeDirPrefix) name).isSome,
        Proper rootDir name ∧ ¬ (name = "--help" ∨ name = "-h") :=
      fun name member => proper name (List.mem_of_mem_filter member)
    apply List.Forall₂.imp _ ((List.forall₂_and_left _ _).mpr ⟨named, shown⟩)
    rintro name element ⟨⟨there, asked⟩, entry, clock, registered, _, _, listed⟩
    obtain ⟨document, shows, whole⟩ := handlerState_registered represents there asked registered
    refine ⟨entry, document, registered, whole, shows, clock, ?_⟩
    rw [listed, shows.status]
    by_cases runs : entry.pid ≠ 0 ∧ (env.host clock).kill entry.pid 0 = true
    · rw [if_pos runs]
      exact iff_of_true rfl (Or.inr runs)
    · rw [if_neg runs, or_iff_left runs]
      rw [Option.some.injEq, ofString?_inj]
      exact toStr_eq_stopped_iff entry.status
  · have place := proper name member
    simp only [state]
    rw [handlerState_eq place.2]
    exact (represents name place.1).absent absent document

end State

theorem two_containers_agree :
    let after := twoContainers.foldl (act Env.calm (some "/run")) bundleSys
    let state (name : String) := handlerState [name] ⟨Config.fresh (some "/run"), after⟩
    ∃ (final : Registry) (elements : List Json),
      Path (Addressed Advance) (fun _ => none) twoContainers final ∧
      (handlerList Env.calm (some "/run") (some "json") false (directoryOf ["c1", "c2"]) after).1 =
        (if elements = [] then .null else .array elements) ∧
      List.Forall₂ (fun name element => ∃ entry document, final name = some entry ∧
          state name = (true, some (.json document)) ∧ ShowsState name entry document ∧
          ∃ clock, (element.member? "status" = document.member? "status" ↔
            entry.status = .stopped ∨ entry.pid ≠ 0 ∧ (Env.calm.host clock).kill entry.pid 0 = true))
        (["c1", "c2"].filter fun name =>
          (readEntry after.files (directoryOf ["c1", "c2"]) "/run" name).isSome) elements ∧
      ∀ name ∈ ["c1", "c2"], final name = none → ∀ document, (state name).2 ≠ some (.json document) := by
  apply state_agrees_with_listing Env.calm_sequential bundleSys_blank twoContainers twoContainers_sane false
    (directoryOf ["c1", "c2"])
  intro name member
  rcases List.mem_pair.mp member with rfl | rfl
  · exact ⟨proper_c1, by decide⟩
  · exact ⟨proper_c2, by decide⟩

end ClrOci
