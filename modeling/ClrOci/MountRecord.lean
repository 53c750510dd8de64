import ClrOci.Mount
import Mathlib.Data.List.Basic

/-! Whether the record of mounts agrees with the mounts that were made.

Making mounts, recording them and unmaking them happen in different processes. The
record keeps the destinations of the mounts whose ignore flag is clear.
-/

set_option autoImplicit false

namespace ClrOci

open Foundation

variable {env : Env} {root : PathBuffer}

def skipped (host : Host) (mount : Mount) : Bool :=
  match mount.entry.fsname with
  | some source => !mountIgnore mount && sourceMissing host source
  | none => false

def performedDests (env : Env) (root : PathBuffer) : Nat → List Mount → List String
  | _, [] => []
  | clock, mount :: rest =>
    if mountIgnore mount || skipped (env.host clock) mount then performedDests env root (clock + 1) rest
    else (mountDest root mount).text :: performedDests env root (clock + 1) rest

def requiredDests (root : PathBuffer) (mounts : List Mount) : List String :=
  (mounts.filter fun mount => !mountIgnore mount).map fun mount => (mountDest root mount).text

/-- The three ways in which the loop gets past a mount. -/
theorem handleMount_success {mount : Mount} {sys : Sys}
    (ok : (handleMount env root false mount sys).exit = .returned true) :
    let visited := handleMount env root false mount sys
    let placed := { mount with dest := mountDest root mount }
    mountIgnore mount = true ∧ visited.item = { mount with ignoreMount := true } ∧
        visited.state = sys.tick ∨
      mountIgnore mount = false ∧ visited.item = placed ∧
        (skipped (env.host sys.clock) mount = true ∧ visited.state = sys.tick ∨
          skipped (env.host sys.clock) mount = false ∧
            visited.state = sys.tick.mounted placed.dest.text) := by
  unfold handleMount at ok ⊢
  cases ignored : mountIgnore mount with
  | true => simp
  | false =>
    cases source : mount.entry.fsname with
    | none => simp [ignored, source] at ok
    | some path =>
      cases missing : sourceMissing (env.host sys.clock) path with
      | true => simp [ignored, source, missing, skipped]
      | false =>
        simp only [ignored, source, missing, Bool.false_eq_true, ↓reduceIte] at ok ⊢
        split at ok
        · cases ok
        · next made =>
          simp only [performMount, Bool.false_eq_true, ↓reduceIte] at ok ⊢
          split at ok
          · next mounted => simp [made, mounted, skipped, source, missing]
          · cases ok

theorem sweep_mounts {mounts : List Mount} {sys : Sys}
    (fresh : ∀ mount ∈ mounts, mount.ignoreMount = false)
    (ok : (sweep (handleMount env root false) mounts sys).exit = .returned true) :
    let swept := sweep (handleMount env root false) mounts sys
    swept.state.trace = sys.trace ++ (performedDests env root sys.clock mounts).map Event.mount ∧
      recordedDests swept.items = requiredDests root mounts := by
  induction mounts generalizing sys with
  | nil => exact ⟨(List.append_nil sys.trace).symm, rfl⟩
  | cons mount rest ih =>
    obtain ⟨first, others⟩ := sweep_cons_succeeds_iff.mp ok
    obtain ⟨traced, recorded⟩ := ih (fun other member => fresh other (List.mem_cons_of_mem mount member))
      others
    have clear := fresh mount List.mem_cons_self
    rw [sweep_cons_of_success first]
    simp only [recordedDests, requiredDests] at recorded ⊢
    rcases handleMount_success first with ⟨ignored, item, state⟩ | ⟨required, item, rest⟩
    · rw [state] at traced recorded ⊢
      refine ⟨?_, ?_⟩
      · simp [traced, performedDests, ignored]
      · simp [recorded, item, ignored]
    · refine ⟨?_, ?_⟩
      · rcases rest with ⟨missing, state⟩ | ⟨present, state⟩
        · rw [state] at traced ⊢
          simp [traced, performedDests, missing]
        · rw [state] at traced ⊢
          simp [traced, performedDests, required, present]
      · simp [recorded, item, required, clear]

theorem performedDests_sublist (env : Env) (root : PathBuffer) (clock : Nat) (mounts : List Mount) :
    (performedDests env root clock mounts).Sublist (requiredDests root mounts) := by
  induction mounts generalizing clock with
  | nil => exact List.Sublist.refl _
  | cons mount rest ih =>
    have tail := ih (clock + 1)
    simp only [requiredDests] at tail ⊢
    cases ignored : mountIgnore mount with
    | true => simpa [performedDests, ignored] using tail
    | false =>
      cases missing : skipped (env.host clock) mount with
      | true => simpa [performedDests, ignored, missing] using tail.cons _
      | false => simpa [performedDests, ignored, missing] using tail

theorem performedDests_eq_required_iff (clock : Nat) (mounts : List Mount) :
    performedDests env root clock mounts = requiredDests root mounts ↔
      ∀ position mount, mounts[position]? = some mount →
        skipped (env.host (clock + position)) mount = false := by
  induction mounts generalizing clock with
  | nil => simp [performedDests, requiredDests]
  | cons mount rest ih =>
    have split : (∀ position other, (mount :: rest)[position]? = some other →
        skipped (env.host (clock + position)) other = false) ↔
        skipped (env.host clock) mount = false ∧ ∀ position other, rest[position]? = some other →
          skipped (env.host (clock + 1 + position)) other = false := by
      constructor
      · intro all
        refine ⟨all 0 mount rfl, fun position other found => ?_⟩
        have later := all (position + 1) other (by simpa using found)
        rwa [show clock + (position + 1) = clock + 1 + position by omega] at later
      · rintro ⟨head, tail⟩ position other found
        cases position with
        | zero =>
          cases found
          exact head
        | succ position =>
          have later := tail position other (by simpa using found)
          rwa [show clock + 1 + position = clock + (position + 1) by omega] at later
    rw [split, ← ih (clock + 1)]
    have short := (performedDests_sublist env root (clock + 1) rest).length_le
    simp only [requiredDests] at short ⊢
    cases ignored : mountIgnore mount with
    | true =>
      have unskipped : skipped (env.host clock) mount = false := by
        cases source : mount.entry.fsname <;> simp [skipped, source, ignored]
      simp [performedDests, ignored, unskipped]
    | false =>
      cases missing : skipped (env.host clock) mount with
      | true =>
        have longer : performedDests env root (clock + 1) rest ≠ (mountDest root mount).text ::
            (rest.filter fun mount => !mountIgnore mount).map fun mount => (mountDest root mount).text := by
          intro same
          have lengths := congrArg List.length same
          simp only [List.length_cons] at lengths
          omega
        simpa [performedDests, ignored, missing] using longer
      | false => simp [performedDests, ignored, missing]

/-- A delete unmounts exactly what was mounted if and only if no mount that is needed had
a source that was missing when its turn came. -/
theorem unmounts_match_mounts_iff (env after : Env) (world : World) (later : Sys)
    (fresh : ∀ mount ∈ world.config.oci.mounts, mount.ignoreMount = false)
    (real : world.config.dryRunMode = false) (ok : (handleMounts env).Succeeds world) :
    let made := (handleMounts env world).state
    let recorded := reloadMounts made.config.oci.mounts
    let unmade := handleUnmounts after recorded later
    unmade.exit = .returned true →
      (later.umountedSince unmade.state = world.sys.mountedSince made.sys ↔
        ∀ position mount, world.config.oci.mounts[position]? = some mount →
          skipped (env.host (world.sys.clock + position)) mount = false) := by
  intro made recorded unmade done
  have swept : made.sys.trace = world.sys.trace ++ (performedDests env world.config.oci.root.path
        world.sys.clock world.config.oci.mounts).map Event.mount ∧
      recordedDests made.config.oci.mounts =
        requiredDests world.config.oci.root.path world.config.oci.mounts := by
    have ok : (sweep (handleMount env world.config.oci.root.path world.config.dryRunMode)
      world.config.oci.mounts world.sys).exit = .returned true := ok
    simp only [made, handleMounts]
    rw [real] at ok ⊢
    exact sweep_mounts fresh ok
  have mounted : world.sys.mountedSince made.sys =
      performedDests env world.config.oci.root.path world.sys.clock world.config.oci.mounts := by
    rw [Sys.mountedSince, Sys.eventsSince_of_append swept.1, List.filterMap_map]
    exact List.filterMap_some
  have unmounted : later.umountedSince unmade.state =
      requiredDests world.config.oci.root.path world.config.oci.mounts := by
    rw [Sys.umountedSince, Sys.eventsSince_of_append (handleUnmounts_trace after done),
      recordedDests_reloadMounts, swept.2, List.filterMap_map]
    exact List.filterMap_some
  rw [mounted, unmounted, eq_comm]
  exact performedDests_eq_required_iff world.sys.clock world.config.oci.mounts

def bindMount (source dest : String) : Mount where
  entry := { fsname := some source, dir := some dest, type := some "bind" }

def bindWorld (source : String) : World where
  config := {
    oci := { mounts := [bindMount source "/data"], root := { path := Buffer.copy _ "/rootfs" } } }
  sys := { Sys.idle (fun _ => none) with mounts := ["/rootfs/data"] }

theorem unmounts_match_one_mount :
    let made := (handleMounts Env.calm (bindWorld "/source")).state
    let recorded := reloadMounts made.config.oci.mounts
    made.sys.umountedSince (handleUnmounts Env.calm recorded made.sys).state =
      (bindWorld "/source").sys.mountedSince made.sys := by
  refine (unmounts_match_mounts_iff Env.calm Env.calm (bindWorld "/source")
    (handleMounts Env.calm (bindWorld "/source")).state.sys (by decide) rfl (by decide)
    (by decide)).mpr ?_
  intro position mount found
  rcases position with _ | position
  · cases found
    decide
  · cases found

def Env.sourceless : Env :=
  { Env.calm with host := fun _ => { Host.calm with stat := fun _ => none } }

/-- A mount whose source is missing is not made, but recorded: a delete unmounts what
somebody else has mounted at its destination. -/
theorem unmounts_what_was_not_mounted :
    let made := (handleMounts Env.sourceless (bindWorld "/missing")).state
    let unmade := handleUnmounts Env.calm (reloadMounts made.config.oci.mounts) made.sys
    (handleMounts Env.sourceless).Succeeds (bindWorld "/missing") ∧
      unmade.exit = .returned true ∧
      (bindWorld "/missing").sys.mountedSince made.sys = [] ∧
      made.sys.umountedSince unmade.state = ["/rootfs/data"] := by
  decide

end ClrOci
