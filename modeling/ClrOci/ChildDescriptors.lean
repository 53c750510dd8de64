import ClrOci.Foundation.Descriptors
import ClrOci.Launch
import ClrOci.Precedence

/-! What the hypervisor has open.

The child of a launch has null devices for its standard streams, and everything else is to be closed when
it executes the hypervisor. Before that it closes what it has itself, one descriptor after another as they
are listed, and makes the console its standard streams, if it gets that far.
-/

set_option autoImplicit false

namespace ClrOci

open Foundation

inductive Handle where
  | inherited (number : Nat)
  | null
  | descriptorDir
  | terminal (path : String)
  deriving DecidableEq

/-- An open file; those that `exec` closes are marked. -/
structure Held where
  handle : Handle
  closeOnExec : Bool
  deriving DecidableEq

/-- `GSpawnFlags`, as far as they are about descriptors. -/
structure SpawnFlags where
  leaveDescriptorsOpen : Bool := false
  childInheritsStdin : Bool := false
  stdoutToDevNull : Bool := false
  stderrToDevNull : Bool := false

-- The flags of `clr_oci_vm_launch`.
def launchFlags : SpawnFlags := { stdoutToDevNull := true, stderrToDevNull := true }

/-- The child that `g_spawn_async_with_pipes` sets up, when it is asked for no pipes. -/
structure Spawned (flags : SpawnFlags) (table : Descriptors Held) : Prop where
  stdin : flags.childInheritsStdin = false → table.at? 0 = some ⟨.null, false⟩
  stdout : flags.stdoutToDevNull = true → table.at? 1 = some ⟨.null, false⟩
  stderr : flags.stderrToDevNull = true → table.at? 2 = some ⟨.null, false⟩
  others : flags.leaveDescriptorsOpen = false →
    ∀ fd, 3 ≤ fd → ∀ held ∈ table.at? fd, held.closeOnExec = true

-- The loop of `clr_oci_close_fds`, for one entry of the directory.
def closeEntry (dirFd : Nat) (table : Descriptors Held) (name : String) : Descriptors Held :=
  if name = "." ∨ name = ".." then table
  else
    let fd := atoi name
    if fd < 3 ∨ fd.toInt = dirFd then table else table.close fd.toNatClampNeg

/-- `clr_oci_close_fds`, over the names that `/proc/self/fd` has. -/
def clrOciCloseFds (opens : Bool) (names : List String) (table : Descriptors Held) :
    Bool × Descriptors Held :=
  if !opens then (false, table)
  else
    let (dirFd, table) := table.openFile ⟨.descriptorDir, true⟩
    (true, (names.foldl (closeEntry dirFd) table).close dirFd)

/-- `clr_oci_set_child_std_fds`; no table if an assertion fails. -/
def clrOciSetChildStdFds (opens : String → Bool) (tty : Option String) (table : Descriptors Held) :
    Option (Descriptors Held) :=
  match tty with
  | none => none
  | some tty =>
    if !opens tty then some table
    else do
      let (fd, table) := table.openFile ⟨.terminal tty, false⟩
      let table ← table.dup2 fd 0
      let table ← table.dup2 fd 1
      let table ← table.dup2 fd 2
      -- Only standard input is spared.
      pure (if fd ≠ 0 then table.close fd else table)

/-- `clr_oci_setup_child`, in what it does to the descriptors: that of a namespace is closed again. -/
def setupDescriptors (child : Nat → ChildHost) (config : Config) (opensDir : Bool) (names : List String)
    (table : Descriptors Held) : Option (Descriptors Held) :=
  let namespaces := config.oci.namespaces
  if !(nsSetup child namespaces).1 then some table
  else if !(child namespaces.length).traceme then some table
  else
    let table := if config.detachedMode then table else (clrOciCloseFds opensDir names table).2
    if config.useSocketConsole then some table
    else clrOciSetChildStdFds (child (namespaces.length + 1)).openFile config.console table

def execDescriptors (table : Descriptors Held) : Descriptors Handle :=
  table.map fun entry => entry.bind fun held => if held.closeOnExec then none else some held.handle

def ClosesOthers (child : Nat → ChildHost) (config : Config) (opensDir : Bool) : Prop :=
  ChildGranted child config.oci.namespaces ∧ config.detachedMode = false ∧ opensDir = true

def TakesConsole (child : Nat → ChildHost) (config : Config) (tty : String) : Prop :=
  ChildGranted child config.oci.namespaces ∧ config.useSocketConsole = false ∧
    (child (config.oci.namespaces.length + 1)).openFile tty = true

/-- The directory has the descriptors that are open, which are small numbers, in any order. -/
structure Listed (table : Descriptors Held) (names : List String) : Prop where
  entries : ∀ name ∈ names, name = "." ∨ name = ".." ∨
    ∃ fd : Nat, fd < 2147483648 ∧ table.at? fd ≠ none ∧ name = fd.repr
  complete : ∀ fd, table.at? fd ≠ none → fd.repr ∈ names

section Close
variable {dirFd : Nat} {table : Descriptors Held} {names : List String}

theorem repr_not_dots (fd : Nat) : ¬ (fd.repr = "." ∨ fd.repr = "..") := by
  have digits : ∀ c ∈ fd.repr.toList, c.isDigit = true := by
    intro c member
    rw [Nat.repr, String.toList_ofList] at member
    exact Nat.isDigit_of_mem_toDigits (by omega) (by omega) member
  rintro (same | same)
  · rw [same] at digits
    exact absurd (digits '.' (by decide)) (by decide)
  · rw [same] at digits
    exact absurd (digits '.' (by decide)) (by decide)

theorem repr_injective {first second : Nat} (same : first.repr = second.repr) : first = second := by
  have read := congrArg (fun text => leadingDigits text.toList) same
  simp only [Nat.toList_repr, leadingDigits_toDigits] at read
  exact Option.some.inj read

theorem closeEntry_repr {fd : Nat} (small : fd < 2147483648) :
    closeEntry dirFd table fd.repr = if fd < 3 ∨ fd = dirFd then table else table.close fd := by
  have value : (atoi fd.repr).toInt = fd := Identifier.atoi_repr small
  have low : (atoi fd.repr) < 3 ↔ fd < 3 := by
    rw [Int32.lt_iff_toInt_lt, value]
    exact Int.ofNat_lt
  have number : (atoi fd.repr).toNatClampNeg = fd := by
    rw [← Int32.toNat_toInt, value]
    rfl
  simp only [closeEntry, if_neg (repr_not_dots fd), low, value, Int.ofNat_inj, number]

structure Names (names : List String) : Prop where
  entries : ∀ name ∈ names, name = "." ∨ name = ".." ∨ ∃ fd : Nat, fd < 2147483648 ∧ name = fd.repr

theorem Names.tail {name : String} (all : Names (name :: names)) : Names names :=
  ⟨fun other member => all.entries other (List.mem_cons_of_mem name member)⟩

/-- An entry closes at most the descriptor that it names, and neither a standard stream nor the
directory. -/
theorem Names.closeEntry {name : String} (all : Names (name :: names)) (fd : Nat) :
    (ClrOci.closeEntry dirFd table name).at? fd =
      if name = fd.repr ∧ 3 ≤ fd ∧ fd ≠ dirFd then none else table.at? fd := by
  rcases all.entries name List.mem_cons_self with rfl | rfl | ⟨number, small, rfl⟩
  · rw [ClrOci.closeEntry, if_pos (Or.inl rfl), if_neg]
    exact fun same => repr_not_dots fd (Or.inl same.1.symm)
  · rw [ClrOci.closeEntry, if_pos (Or.inr rfl), if_neg]
    exact fun same => repr_not_dots fd (Or.inr same.1.symm)
  · rw [closeEntry_repr small]
    by_cases same : fd = number
    · subst same
      by_cases spared : fd < 3 ∨ fd = dirFd
      · rw [if_pos spared, if_neg]
        omega
      · rw [if_neg spared, Descriptors.at?_close, if_pos rfl, if_pos]
        exact ⟨rfl, by omega, by omega⟩
    · have other : ¬ (number.repr = fd.repr ∧ 3 ≤ fd ∧ fd ≠ dirFd) :=
        fun equal => same (repr_injective equal.1.symm)
      rw [if_neg other]
      split
      · rfl
      · rw [Descriptors.at?_close, if_neg same]

theorem Names.foldl (all : Names names) (fd : Nat) :
    (names.foldl (ClrOci.closeEntry dirFd) table).at? fd =
      if fd.repr ∈ names ∧ 3 ≤ fd ∧ fd ≠ dirFd then none else table.at? fd := by
  induction names generalizing table with
  | nil => exact (if_neg fun named => absurd named.1 List.not_mem_nil).symm
  | cons name rest ih =>
    rw [List.foldl_cons, ih all.tail, all.closeEntry]
    by_cases closes : 3 ≤ fd ∧ fd ≠ dirFd
    · by_cases here : name = fd.repr
      · simp [here, closes]
      · simp [closes, Ne.symm here, here]
    · simp [closes]

theorem Listed.plain (listed : Listed table names) : Names names := by
  refine ⟨fun name member => ?_⟩
  rcases listed.entries name member with dot | dots | ⟨fd, small, _, same⟩
  · exact Or.inl dot
  · exact Or.inr (Or.inl dots)
  · exact Or.inr (Or.inr ⟨fd, small, same⟩)

end Close

section Setup
variable {table : Descriptors Held} {names : List String}

theorem clrOciCloseFds_at (listed : Listed (table.openFile ⟨.descriptorDir, true⟩).2 names) (fd : Nat) :
    (clrOciCloseFds true names table).2.at? fd = if 3 ≤ fd then none else table.at? fd := by
  have free := Descriptors.at?_lowest table
  simp only [clrOciCloseFds, Bool.not_true, Bool.false_eq_true, ↓reduceIte]
  have opened : ∀ other, (table.openFile ⟨.descriptorDir, true⟩).2.at? other =
      if other = table.lowest then some ⟨.descriptorDir, true⟩ else table.at? other :=
    fun other => Descriptors.at?_put table table.lowest (some ⟨.descriptorDir, true⟩) other
  have same : (table.openFile ⟨.descriptorDir, true⟩).1 = table.lowest := rfl
  rw [Descriptors.at?_close, listed.plain.foldl, opened, same]
  by_cases dir : fd = table.lowest
  · subst dir
    simp [free]
  · simp only [dir, ↓reduceIte, not_false_eq_true, ne_eq, and_true]
    by_cases high : 3 ≤ fd
    · simp only [high, and_true, ↓reduceIte]
      split
      · rfl
      · next unnamed =>
        by_contra held
        apply unnamed (listed.complete fd _)
        rw [opened, if_neg dir]
        exact held
    · simp [high]

theorem clrOciSetChildStdFds_at {opens : String → Bool} {tty : String} (opened : opens tty = true)
    (streams : ∀ fd < 3, table.at? fd ≠ none) :
    ∃ after, clrOciSetChildStdFds opens (some tty) table = some after ∧
      ∀ fd, after.at? fd = if fd < 3 then some ⟨.terminal tty, false⟩ else table.at? fd := by
  have high : 3 ≤ table.lowest := by
    by_contra low
    exact streams table.lowest (by omega) (Descriptors.at?_lowest table)
  let terminal : Option Held := some ⟨.terminal tty, false⟩
  let copied := (((table.put table.lowest terminal).put 0 terminal).put 1 terminal).put 2 terminal
  refine ⟨copied.close table.lowest, ?_, fun fd => ?_⟩
  · have first : (table.put table.lowest terminal).at? table.lowest = some ⟨.terminal tty, false⟩ := by
      rw [Descriptors.at?_put, if_pos rfl]
    have second : ((table.put table.lowest terminal).put 0 terminal).at? table.lowest =
        some ⟨.terminal tty, false⟩ := by
      rw [Descriptors.at?_put, if_neg (by omega), first]
    have third : (((table.put table.lowest terminal).put 0 terminal).put 1 terminal).at? table.lowest =
        some ⟨.terminal tty, false⟩ := by
      rw [Descriptors.at?_put, if_neg (by omega), second]
    simp only [clrOciSetChildStdFds, opened, Bool.not_true, Bool.false_eq_true, ↓reduceIte,
      Descriptors.openFile]
    rw [Descriptors.dup2_of_open first, Option.bind_eq_bind, Option.bind_some,
      Descriptors.dup2_of_open second, Option.bind_some, Descriptors.dup2_of_open third, Option.bind_some]
    have other : table.lowest ≠ 0 := by omega
    exact congrArg some (if_pos other)
  · rw [Descriptors.at?_close]
    by_cases lowest : fd = table.lowest
    · rw [if_pos lowest, if_neg (by omega), lowest, Descriptors.at?_lowest]
    · simp only [lowest, ↓reduceIte, copied, terminal, Descriptors.at?_put]
      by_cases low : fd < 3
      · rw [if_pos low]
        split
        · rfl
        · split
          · rfl
          · rw [if_pos (by omega)]
      · simp only [low, show fd ≠ 2 by omega, show fd ≠ 1 by omega, show fd ≠ 0 by omega, ↓reduceIte]

theorem execDescriptors_at (table : Descriptors Held) (fd : Nat) :
    (execDescriptors table).at? fd =
      (table.at? fd).bind fun held => if held.closeOnExec then none else some held.handle := by
  induction table generalizing fd with
  | nil => rfl
  | cons entry rest ih =>
    cases fd with
    | zero => rfl
    | succ fd => exact ih fd

theorem Spawned.streams (spawned : Spawned launchFlags table) {fd : Nat} (low : fd < 3) :
    table.at? fd = some ⟨.null, false⟩ := by
  rcases (by omega : fd = 0 ∨ fd = 1 ∨ fd = 2) with rfl | rfl | rfl
  · exact spawned.stdin rfl
  · exact spawned.stdout rfl
  · exact spawned.stderr rfl

variable {child : Nat → ChildHost} {config : Config} {tty : String} {opensDir : Bool}

structure Readied (child : Nat → ChildHost) (config : Config) (tty : String) (opensDir : Bool)
    (table ready : Descriptors Held) : Prop where
  closed : ClosesOthers child config opensDir → ∀ fd, 3 ≤ fd → ready.at? fd = none
  kept : ¬ ClosesOthers child config opensDir → ∀ fd, 3 ≤ fd → ready.at? fd = table.at? fd
  taken : TakesConsole child config tty → ∀ fd < 3, ready.at? fd = some ⟨.terminal tty, false⟩
  left : ¬ TakesConsole child config tty → ∀ fd < 3, ready.at? fd = some ⟨.null, false⟩

theorem closed_unless_detached (listed : Listed (table.openFile ⟨.descriptorDir, true⟩).2 names)
    (detached : Bool) (fd : Nat) :
    (if detached then table else (clrOciCloseFds opensDir names table).2).at? fd =
      if 3 ≤ fd ∧ detached = false ∧ opensDir = true then none else table.at? fd := by
  cases detached with
  | true => simp
  | false =>
    cases opensDir with
    | false => simp [clrOciCloseFds]
    | true =>
      simp only [Bool.false_eq_true, ↓reduceIte, and_self, and_true]
      exact clrOciCloseFds_at listed fd

theorem setupDescriptors_of_granted (granted : ChildGranted child config.oci.namespaces) :
    setupDescriptors child config opensDir names table =
      let closed := if config.detachedMode then table else (clrOciCloseFds opensDir names table).2
      if config.useSocketConsole then some closed
      else clrOciSetChildStdFds (child (config.oci.namespaces.length + 1)).openFile config.console closed := by
  have entered := nsSetup_true_iff.mpr granted.1
  simp only [setupDescriptors, entered, granted.2, Bool.not_true, Bool.false_eq_true, ↓reduceIte]

/-- A setup that fails returns at once, and the hypervisor is executed all the same. -/
theorem setupDescriptors_of_refused (refused : ¬ ChildGranted child config.oci.namespaces) :
    setupDescriptors child config opensDir names table = some table := by
  rw [ChildGranted, ← nsSetup_true_iff] at refused
  cases entered : (nsSetup child config.oci.namespaces).1 with
  | false => simp [setupDescriptors, entered]
  | true =>
    have untraced : (child config.oci.namespaces.length).traceme = false :=
      Bool.eq_false_iff.mpr fun traced => refused ⟨entered, traced⟩
    simp [setupDescriptors, entered, untraced]

theorem setupDescriptors_readied (console : config.console = some tty) (spawned : Spawned launchFlags table)
    (listed : Listed (table.openFile ⟨.descriptorDir, true⟩).2 names) :
    ∃ ready, setupDescriptors child config opensDir names table = some ready ∧
      Readied child config tty opensDir table ready := by
  by_cases granted : ChildGranted child config.oci.namespaces
  · have closes : ClosesOthers child config opensDir ↔ config.detachedMode = false ∧ opensDir = true :=
      and_iff_right granted
    have takes : TakesConsole child config tty ↔ config.useSocketConsole = false ∧
        (child (config.oci.namespaces.length + 1)).openFile tty = true := and_iff_right granted
    have held := @closed_unless_detached _ _ opensDir listed config.detachedMode
    rw [setupDescriptors_of_granted granted, console]
    dsimp only
    -- From here on only the entries of the closed table matter.
    generalize (if config.detachedMode then table else (clrOciCloseFds opensDir names table).2) = closed at held
    have low (fd : Nat) (below : fd < 3) : closed.at? fd = some ⟨.null, false⟩ := by
      rw [held, if_neg (by omega), spawned.streams below]
    have high (fd : Nat) (above : 3 ≤ fd) : closed.at? fd =
        if config.detachedMode = false ∧ opensDir = true then none else table.at? fd := by
      rw [held]
      simp only [above, true_and]
    by_cases shown : TakesConsole child config tty
    · obtain ⟨plain, opened⟩ := takes.mp shown
      obtain ⟨after, set, whole⟩ := clrOciSetChildStdFds_at opened fun fd below => by rw [low fd below]; simp
      refine ⟨after, by rw [plain, if_neg Bool.false_ne_true, set], ?_, ?_, ?_, fun none => absurd shown none⟩
      · intro all fd above
        rw [whole, if_neg (by omega), high fd above, if_pos (closes.mp all)]
      · intro few fd above
        rw [whole, if_neg (by omega), high fd above, if_neg (mt closes.mpr few)]
      · intro _ fd below
        rw [whole, if_pos below]
    · refine ⟨closed, ?_, ?_, ?_, fun all => absurd all shown, fun _ => low⟩
      · cases socket : config.useSocketConsole with
        | true => rfl
        | false =>
          have refused : (child (config.oci.namespaces.length + 1)).openFile tty = false :=
            Bool.eq_false_iff.mpr fun opened => shown (takes.mpr ⟨socket, opened⟩)
          simp [clrOciSetChildStdFds, refused]
      · exact fun all fd above => by rw [high fd above, if_pos (closes.mp all)]
      · exact fun few fd above => by rw [high fd above, if_neg (mt closes.mpr few)]
  · exact ⟨table, setupDescriptors_of_refused granted, fun all => absurd all.1 granted, fun _ _ _ => rfl,
      fun all => absurd all.1 granted, fun _ fd below => spawned.streams below⟩

/-- Whatever the runtime has open, and in whatever order the directory lists it: the hypervisor has its
standard streams and nothing else, and these are the console exactly if the child gets to take it. What
the child has of the runtime is closed before that, exactly if it gets so far and does not run detached. -/
theorem child_descriptors (child : Nat → ChildHost) (config : Config) {tty : String}
    (console : config.console = some tty) (opensDir : Bool) (table : Descriptors Held)
    (spawned : Spawned launchFlags table)
    (listed : Listed (table.openFile ⟨.descriptorDir, true⟩).2 names) :
    ∃ ready, setupDescriptors child config opensDir names table = some ready ∧
      (ClosesOthers child config opensDir → ∀ fd, 3 ≤ fd → ready.at? fd = none) ∧
      (¬ ClosesOthers child config opensDir → ∀ fd, 3 ≤ fd → ready.at? fd = table.at? fd) ∧
      (∀ fd, 3 ≤ fd → (execDescriptors ready).at? fd = none) ∧
      (TakesConsole child config tty → ∀ fd < 3, (execDescriptors ready).at? fd = some (.terminal tty)) ∧
      (¬ TakesConsole child config tty → ∀ fd < 3, (execDescriptors ready).at? fd = some .null) := by
  obtain ⟨ready, set, readied⟩ := @setupDescriptors_readied _ _ child _ _ opensDir console spawned listed
  refine ⟨ready, set, readied.closed, readied.kept, fun fd above => ?_, fun shown fd below => ?_,
    fun unshown fd below => ?_⟩
  · rw [execDescriptors_at]
    by_cases all : ClosesOthers child config opensDir
    · rw [readied.closed all fd above]
      rfl
    · -- What the child has left open is marked, and `exec` closes it.
      rw [readied.kept all fd above, Option.bind_eq_none_iff]
      exact fun held there => if_pos (spawned.others rfl fd above held there)
  · rw [execDescriptors_at, readied.taken shown fd below]
    rfl
  · rw [execDescriptors_at, readied.left unshown fd below]
    rfl

end Setup

-- A child with null devices, and a log file and a lock of the runtime.
def childTable : Descriptors Held :=
  List.replicate 3 (some ⟨.null, false⟩) ++ [some ⟨.inherited 3, true⟩, some ⟨.inherited 4, true⟩]

def listedNames : List String := [".", "..", "0", "1", "2", "3", "4", "5"]

theorem childTable_spawned : Spawned launchFlags childTable where
  stdin _ := rfl
  stdout _ := rfl
  stderr _ := rfl
  others _ fd _ held there := by
    have each : ∀ fd < 5, 3 ≤ fd → (childTable.at? fd).all Held.closeOnExec = true := by decide
    by_cases small : fd < 5
    · have marked := each fd small (by assumption)
      rw [there] at marked
      exact marked
    · obtain ⟨more, rfl⟩ := Nat.exists_eq_add_of_le (Nat.le_of_not_lt small)
      rw [Nat.add_comm] at there
      cases there

theorem listed_names : Listed (childTable.openFile ⟨.descriptorDir, true⟩).2 listedNames where
  entries := by
    have names : listedNames = [".", ".."] ++ (List.range 6).map Nat.repr := by rfl
    intro name member
    rw [names, List.mem_append, List.mem_cons, List.mem_singleton, List.mem_map] at member
    rcases member with (dot | dots) | ⟨fd, small, same⟩
    · exact Or.inl dot
    · exact Or.inr (Or.inl dots)
    · rw [List.mem_range] at small
      have held : ∀ fd < 6, (childTable.openFile ⟨.descriptorDir, true⟩).2.at? fd ≠ none := by decide
      exact Or.inr (Or.inr ⟨fd, by omega, held fd small, same.symm⟩)
  complete := by
    have names : ∀ fd < 6, fd.repr ∈ listedNames := by decide
    intro fd held
    by_cases small : fd < 6
    · exact names fd small
    · obtain ⟨more, rfl⟩ := Nat.exists_eq_add_of_le (Nat.le_of_not_lt small)
      rw [Nat.add_comm] at held
      exact absurd rfl held

theorem console_replaces_streams :
    ∃ ready, setupDescriptors (fun _ => .calm) { console := some "/dev/pts/0" } true listedNames childTable =
        some ready ∧ (∀ fd, 3 ≤ fd → ready.at? fd = none) ∧
      ∀ fd < 3, (execDescriptors ready).at? fd = some (.terminal "/dev/pts/0") := by
  have granted : ChildGranted (fun _ => .calm) [] := ⟨fun step ns found => by simp at found, rfl⟩
  obtain ⟨ready, set, closed, -, -, streams, -⟩ := child_descriptors (fun _ => .calm)
    { console := some "/dev/pts/0" } rfl true childTable childTable_spawned listed_names
  exact ⟨ready, set, closed ⟨granted, rfl, rfl⟩, streams ⟨granted, rfl, rfl⟩⟩

end ClrOci
