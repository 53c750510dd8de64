import ClrOci.Foundation.Steps
import ClrOci.Host

/-! Mounts of a bundle: which are made, which are unmade, and what is recorded. -/

set_option autoImplicit false

namespace ClrOci

open Foundation

def mountsToIgnore : List MountEntry :=
  [{ dir := some "/proc" }, { dir := some "/dev" }, { dir := some "/dev/pts" },
    { dir := some "/dev/shm" }, { dir := some "/dev/mqueue" }, { dir := some "/sys" },
    { dir := some "/sys/fs/cgroup" }]

-- `clr_oci_found_str_mntent_match`: an element the table leaves out matches nothing.
def foundMatch (entry element : Option String) : Bool := entry.isSome && entry == element

/-- The decision of `clr_oci_mount_ignore`. -/
def mountIgnore (mount : Mount) : Bool :=
  mountsToIgnore.any fun entry =>
    foundMatch entry.fsname mount.entry.fsname || foundMatch entry.dir mount.entry.dir ||
      foundMatch entry.type mount.entry.type

-- A source that should exist on the host but does not.
def sourceMissing (host : Host) (source : String) : Bool :=
  isAbsolute source && (host.stat source).isNone

def mountDirectory (host : Host) (source : String) (dest : PathBuffer) : String :=
  match host.stat source with
  | some found => if isAbsolute source && !found.isDir then dirname dest.text else dest.text
  | none => dest.text

def mountDest (root : PathBuffer) (mount : Mount) : PathBuffer :=
  Buffer.copy _ (root.text ++ mount.entry.dir.getD "(null)")

variable (env : Env)

def Sys.mounted (sys : Sys) (dest : String) : Sys :=
  { sys.log (.mount dest) with mounts := dest :: sys.mounts }

@[simp] theorem Sys.mounted_clock (sys : Sys) (dest : String) :
    (sys.mounted dest).clock = sys.clock := rfl

@[simp] theorem Sys.mounted_trace (sys : Sys) (dest : String) :
    (sys.mounted dest).trace = sys.trace ++ [.mount dest] := rfl

-- `clr_oci_perform_mount`.
def performMount (host : Host) (mount : Mount) (dryRun : Bool) (sys : Sys) : Bool × Sys :=
  if dryRun then (true, sys)
  else if host.mount mount then
    (true, sys.mounted mount.dest.text)
  else (false, sys)

-- The body of the loop of `clr_oci_handle_mounts`.
def handleMount (root : PathBuffer) (dryRun : Bool) (mount : Mount) (sys : Sys) :
    Visit Mount Sys :=
  let host := env.host sys.clock
  if mountIgnore mount then ⟨.returned true, { mount with ignoreMount := true }, sys.tick⟩
  else
    let placed := { mount with dest := mountDest root mount }
    match mount.entry.fsname with
    | none => ⟨.aborted, placed, sys.tick⟩
    | some source =>
      -- A missing source is skipped, with the destination already filled in.
      if sourceMissing host source then ⟨.returned true, placed, sys.tick⟩
      else if !host.mkdirWithParents (mountDirectory host source placed.dest) then
        ⟨.returned false, placed, sys.tick⟩
      else
        let made := performMount host placed dryRun sys.tick
        ⟨.returned made.1, placed, made.2⟩

/-- `clr_oci_handle_mounts`. -/
def handleMounts : Action World := fun world =>
  let config := world.config
  let swept := sweep (handleMount env config.oci.root.path config.dryRunMode) config.oci.mounts world.sys
  ⟨swept.exit, { config := { config with oci := { config.oci with mounts := swept.items } },
                 sys := swept.state }⟩

-- `clr_oci_perform_unmount`.
def performUnmount (mount : Mount) (sys : Sys) : Bool × Sys :=
  let dest := mount.dest.text
  if (env.host sys.clock).umount sys.mounts dest then
    (true, { sys.tick.log (.umount dest true) with mounts := sys.mounts.erase dest })
  else (false, sys.tick.log (.umount dest false))

def handleUnmount (mount : Mount) (sys : Sys) : Visit Mount Sys :=
  if mount.ignoreMount then ⟨.returned true, mount, sys⟩
  else
    let unmade := performUnmount env mount sys
    ⟨.returned unmade.1, mount, unmade.2⟩

/-- `clr_oci_handle_unmounts`. -/
def handleUnmounts (mounts : List Mount) (sys : Sys) : Run Sys :=
  let swept := sweep (handleUnmount env) mounts sys
  ⟨swept.exit, swept.state⟩

theorem handleUnmount_success {mount : Mount} {sys : Sys}
    (ok : (handleUnmount env mount sys).exit = .returned true) :
    (handleUnmount env mount sys).item = mount ∧
      (handleUnmount env mount sys).state.trace = sys.trace ++
        if mount.ignoreMount then [] else [.umount mount.dest.text true] := by
  unfold handleUnmount performUnmount at ok ⊢
  cases ignored : mount.ignoreMount with
  | true => simp
  | false =>
    simp only [ignored, Bool.false_eq_true, ↓reduceIte] at ok ⊢
    split at ok
    · next done => simp [done]
    · cases ok

def recordedDests (mounts : List Mount) : List String :=
  (mounts.filter fun mount => !mount.ignoreMount).map fun mount => mount.dest.text

theorem recordedDests_cons_of_ignored {mount : Mount} {rest : List Mount}
    (ignored : mount.ignoreMount = true) : recordedDests (mount :: rest) = recordedDests rest := by
  simp [recordedDests, ignored]

theorem recordedDests_cons_of_made {mount : Mount} {rest : List Mount}
    (made : mount.ignoreMount = false) :
    recordedDests (mount :: rest) = mount.dest.text :: recordedDests rest := by
  simp [recordedDests, made]

/-- `clr_oci_mounts_to_json`. -/
def mountsToJson (mounts : List Mount) : Json :=
  .array ((recordedDests mounts).map Json.string)

/-- `handle_state_mounts_section`: only the destination is kept. -/
def handleStateMountsSection (node : GNode) (mounts : List Mount) : List Mount :=
  match node.data with
  | none => mounts
  | some dest => mounts ++ [{ dest := Buffer.copy _ dest }]

def mountOfDest (dest : String) : Mount := { dest := Buffer.copy _ dest }

/-- A successful run passes every recorded destination to `umount`, in order. -/
theorem handleUnmounts_trace {mounts : List Mount} {sys : Sys}
    (ok : (handleUnmounts env mounts sys).exit = .returned true) :
    (handleUnmounts env mounts sys).state.trace =
      sys.trace ++ (recordedDests mounts).map fun dest => .umount dest true := by
  change (sweep (handleUnmount env) mounts sys).exit = .returned true at ok
  change (sweep (handleUnmount env) mounts sys).state.trace = _
  induction mounts generalizing sys with
  | nil => exact (List.append_nil sys.trace).symm
  | cons mount rest ih =>
    obtain ⟨first, others⟩ := sweep_cons_succeeds_iff.mp ok
    have head := (handleUnmount_success env first).2
    rw [sweep_cons_of_success first]
    simp only [ih others, head]
    cases ignored : mount.ignoreMount <;> simp [recordedDests, ignored]

def reloadMounts (mounts : List Mount) : List Mount :=
  (jsonParseAux (mountsToJson mounts) false).foldl
    (fun seen node => handleStateMountsSection node seen) []

theorem reloadMounts_eq (mounts : List Mount) :
    reloadMounts mounts = (recordedDests mounts).map mountOfDest := by
  have step : ∀ (dests : List String) (seen : List Mount),
      (dests.map fun dest => GNode.node (some dest) [GNode.separator]).foldl
        (fun seen node => handleStateMountsSection node seen) seen =
        seen ++ dests.map mountOfDest := by
    intro dests
    induction dests with
    | nil => exact fun seen => (List.append_nil seen).symm
    | cons dest rest ih =>
      intro seen
      rw [List.map_cons, List.foldl_cons, ih, List.map_cons]
      exact List.append_assoc seen [mountOfDest dest] (rest.map mountOfDest)
  rw [reloadMounts, mountsToJson, jsonParseAux, jsonParseElements_strings, step, List.nil_append]

theorem map_dest_mountOfDest (mounts : List Mount) :
    ((recordedDests mounts).map mountOfDest).map (fun mount => mount.dest.text) =
      recordedDests mounts := by
  rw [recordedDests, List.map_map, List.map_map]
  refine List.map_congr_left fun mount _ => ?_
  simp [mountOfDest]

theorem recordedDests_reloadMounts (mounts : List Mount) :
    recordedDests (reloadMounts mounts) = recordedDests mounts := by
  have clear : ∀ mount ∈ reloadMounts mounts, (!mount.ignoreMount) = true := by
    intro mount member
    rw [reloadMounts_eq] at member
    obtain ⟨dest, _, rfl⟩ := List.mem_map.mp member
    rfl
  rw [recordedDests, List.filter_eq_self.mpr clear, reloadMounts_eq]
  exact map_dest_mountOfDest mounts

end ClrOci
