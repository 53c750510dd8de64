import ClrOci.MountRecord
import ClrOci.Removal

/-! Unmounting in the order of mounting.

The kernel refuses to unmount a path while something is mounted below it. Mounts are
unmade from the first to the last, so a mount stands in the way of the one above it.
-/

set_option autoImplicit false

namespace ClrOci

open Foundation

section Table
variable {env : Env} {root : PathBuffer}

theorem sweep_mounts_table {mounts : List Mount} {sys : Sys}
    (ok : (sweep (handleMount env root false) mounts sys).exit = .returned true) :
    (sweep (handleMount env root false) mounts sys).state.mounts.Perm
      (performedDests env root sys.clock mounts ++ sys.mounts) := by
  induction mounts generalizing sys with
  | nil => exact List.Perm.refl sys.mounts
  | cons mount rest ih =>
    obtain ⟨first, others⟩ := sweep_cons_succeeds_iff.mp ok
    have table := ih others
    rw [sweep_cons_of_success first]
    rcases handleMount_success first with ⟨ignored, _, state⟩ | ⟨required, _, missing | made⟩
    · rw [state] at table ⊢
      simpa [performedDests, ignored] using table
    · rw [missing.2] at table ⊢
      simpa [performedDests, missing.1] using table
    · rw [made.2] at table ⊢
      simp only [performedDests, required, made.1, Bool.or_false, Bool.false_eq_true, ↓reduceIte]
      exact table.trans List.perm_middle

end Table

def NoneSkipped (env : Env) (world : World) : Prop :=
  ∀ position mount, world.config.oci.mounts[position]? = some mount →
    mountIgnore mount = false ∧ skipped (env.host (world.sys.clock + position)) mount = false

def destinations (config : Config) : List String :=
  config.oci.mounts.map fun mount => (mountDest config.oci.root.path mount).text

theorem requiredDests_of_noneSkipped {env : Env} {world : World} (unskipped : NoneSkipped env world) :
    requiredDests world.config.oci.root.path world.config.oci.mounts = destinations world.config := by
  have kept : world.config.oci.mounts.filter (fun mount => !mountIgnore mount) =
      world.config.oci.mounts := by
    refine List.filter_eq_self.mpr fun mount member => ?_
    obtain ⟨position, found⟩ := List.mem_iff_getElem?.mp member
    rw [(unskipped position mount found).1]
    rfl
  rw [requiredDests, kept, destinations]

/-- The rule of the kernel: nothing else may be mounted below what is unmounted. -/
def KernelUmount (env : Env) (below : String → String → Bool) : Prop :=
  ∀ clock, (env.host clock).umount =
    fun mounts dest => mounts.contains dest && !mounts.any (below dest)

/-- Unmounting a list that was mounted in order succeeds, and leaves the mount table as it was
before, if and only if no mount has its destination below that of an earlier one, and nothing
that was mounted before lies below a destination. -/
theorem unmounts_undo_mounts_iff (env later : Env) (below : String → String → Bool)
    (irreflexive : ∀ dest, below dest dest = false) (kernel : KernelUmount later below)
    (world : World) (fresh : ∀ mount ∈ world.config.oci.mounts, mount.ignoreMount = false)
    (real : world.config.dryRunMode = false) (ok : (handleMounts env).Succeeds world)
    (unskipped : NoneSkipped env world) :
    let made := (handleMounts env world).state
    let unmade := handleUnmounts later made.config.oci.mounts made.sys
    unmade.exit = .returned true ∧ unmade.state.mounts.Perm world.sys.mounts ↔
      (destinations world.config).Pairwise (fun first second => below first second = false) ∧
        ∀ dest ∈ destinations world.config, ∀ other ∈ world.sys.mounts, below dest other = false := by
  intro made unmade
  have ok' : (sweep (handleMount env world.config.oci.root.path false) world.config.oci.mounts
      world.sys).exit = .returned true := by
    have swept : (sweep (handleMount env world.config.oci.root.path world.config.dryRunMode)
      world.config.oci.mounts world.sys).exit = .returned true := ok
    rwa [real] at swept
  have state : made = ⟨{ world.config with oci := { world.config.oci with
      mounts := (sweep (handleMount env world.config.oci.root.path false) world.config.oci.mounts
        world.sys).items } }, (sweep (handleMount env world.config.oci.root.path false)
          world.config.oci.mounts world.sys).state⟩ := by
    simp only [made, handleMounts, real]
  have performed : performedDests env world.config.oci.root.path world.sys.clock
      world.config.oci.mounts = requiredDests world.config.oci.root.path world.config.oci.mounts :=
    (performedDests_eq_required_iff world.sys.clock world.config.oci.mounts).mpr
      fun position mount found => (unskipped position mount found).2
  have recorded : recordedDests made.config.oci.mounts = destinations world.config := by
    rw [state]
    exact (sweep_mounts fresh ok').2.trans (requiredDests_of_noneSkipped unskipped)
  have table : made.sys.mounts.Perm (destinations world.config ++ world.sys.mounts) := by
    have stacked := sweep_mounts_table ok'
    rw [performed, requiredDests_of_noneSkipped unskipped] at stacked
    rw [state]
    exact stacked
  obtain ⟨exit, left⟩ := handleUnmounts_drain kernel made.config.oci.mounts made.sys
  rw [show unmade.exit = _ from exit, show unmade.state.mounts = _ from left, recorded,
    Exit.returned.injEq]
  exact drain_stacked_iff irreflexive (fun _ _ => rfl) table

def strictlyBelow (directory path : String) : Bool := path != directory && Sys.below directory path

theorem strictlyBelow_irreflexive (path : String) : strictlyBelow path path = false := by
  simp [strictlyBelow]

def Env.kernel : Env :=
  { Env.calm with host := fun _ => { Host.calm with
      umount := fun mounts dest => mounts.contains dest && !mounts.any (strictlyBelow dest) } }

def bindsWorld (dests : List String) : World where
  config := {
    oci := { mounts := dests.map (bindMount "/source"), root := { path := Buffer.copy _ "/rootfs" } } }
  sys := Sys.idle fun _ => none

theorem unmounts_undo_two_mounts :
    let made := (handleMounts Env.calm (bindsWorld ["/a", "/b"])).state
    (handleUnmounts Env.kernel made.config.oci.mounts made.sys).exit = .returned true := by
  refine ((unmounts_undo_mounts_iff Env.calm Env.kernel strictlyBelow strictlyBelow_irreflexive
    (fun _ => rfl) (bindsWorld ["/a", "/b"]) (by decide) rfl (by decide) ?_).mpr
    (by decide)).1
  intro position mount found
  match position with
  | 0 | 1 =>
    cases found
    decide
  | position + 2 => cases found

/-- The first mount is not unmounted, because the second one lies below it. -/
theorem unmounts_stop_at_nested_mount :
    let made := (handleMounts Env.calm (bindsWorld ["/a", "/a/b"])).state
    let unmade := handleUnmounts Env.kernel made.config.oci.mounts made.sys
    (handleMounts Env.calm).Succeeds (bindsWorld ["/a", "/a/b"]) ∧
      (bindsWorld ["/a", "/a/b"]).sys.mountedSince made.sys = ["/rootfs/a", "/rootfs/a/b"] ∧
      unmade.exit = .returned false ∧ unmade.state.mounts = ["/rootfs/a/b", "/rootfs/a"] := by
  decide

end ClrOci
