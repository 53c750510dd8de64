import ClrOci.Foundation.Runs
import ClrOci.Marks

/-! The lifecycle of a container under sequences of start, pause, resume and kill. -/

set_option autoImplicit false

namespace ClrOci

open Foundation

inductive Edge : Rewriting → Status → Status → Status → Prop
  | started (data : StartData) (found : Status) : Edge (.start data) found .created .running
  | paused (found : Status) : Edge (.toggle true) found .running .paused
  | resumed (found : Status) : Edge (.toggle false) found .paused .running
  | stopping (found before : Status) : Edge .kill found before .stopping
  | stopped (found : Status) : Edge .kill found .stopping .stopped
  | reverted (found : Status) : Edge .kill found .stopping found

theorem edge_toggle_iff {pause : Bool} {found before : Status} :
    Edge (.toggle pause) found before (toggleDest pause) ↔ before = toggleDest !pause := by
  cases pause with
  | true =>
    constructor
    · rintro ⟨⟩
      rfl
    · rintro rfl
      exact .paused found
  | false =>
    constructor
    · rintro ⟨⟩
      rfl
    · rintro rfl
      exact .resumed found

theorem killMarks_chain (pid : GPid) (signum : Int32) (found : Status) (stopping sent last : Bool) :
    List.IsChain (Edge .kill found)
      (found :: statuses (killMarks pid signum found stopping sent last)) := by
  cases stopping with
  | false => exact .singleton found
  | true =>
    refine .cons_cons (.stopping found found) ?_
    cases sent with
    | true =>
      cases last with
      | true => exact .cons_cons (.stopped found) (.singleton _)
      | false => exact .singleton _
    | false =>
      cases last with
      | true => exact .cons_cons (.reverted found) (.singleton _)
      | false => exact .singleton _

theorem startMarks_chain (pid : GPid) (data : StartData) (sent written : Bool) :
    List.IsChain (Edge (.start data) .created)
      (.created :: statuses (startMarks pid sent written)) := by
  cases sent with
  | false => exact .singleton _
  | true =>
    cases written with
    | true => exact .cons_cons (.started data .created) (.singleton _)
    | false => exact .singleton _

theorem toggleMarks_chain_iff (pause : Bool) (found : Status) (accepted written : Bool) :
    List.IsChain (Edge (.toggle pause) found)
        (found :: statuses (toggleMarks (toggleDest pause) found accepted written)) ↔
      (accepted = true → written = true → found = .running ∨ found = .paused) := by
  have either : (found = .running ∨ found = .paused) ↔
      found = toggleDest pause ∨ found = toggleDest !pause := by
    cases pause <;> simp [toggleDest, or_comm]
  by_cases done : found ≠ toggleDest pause ∧ accepted = true ∧ written = true
  · have put : statuses (toggleMarks (toggleDest pause) found accepted written) =
        [toggleDest pause] := by
      rw [toggleMarks, if_pos done]
      rfl
    rw [put, List.isChain_cons_cons, edge_toggle_iff, either]
    simp [done]
  · have put : statuses (toggleMarks (toggleDest pause) found accepted written) = [] := by
      rw [toggleMarks, if_neg done]
      rfl
    rw [put, either]
    refine ⟨fun _ granted wrote => Or.inl ?_, fun _ => .singleton _⟩
    by_contra other
    exact done ⟨other, granted, wrote⟩

section Sequences
variable (env : Env) (rootDir : Option String) (id : String)

/-- The statuses that a command puts on disk are related, from the one it found on, by the edges
of the lifecycle, and unless the state file is deleted the next command finds the last of them. -/
def FollowsLifecycle (sys : Sys) (invocation : Invocation) : Prop :=
  let path := statePathOf rootDir id
  let after := invocation.perform env rootDir id sys
  let written := statuses (sys.marksSince path after)
  match statusAt sys.files path with
  | some found => List.IsChain (Edge invocation.command found) (found :: written) ∧
    (after.files path = none ∨ statusAt after.files path = some (written.getLastD found))
  | none => written = [] ∧ statusAt after.files path = none

/-- A pause or resume that goes through finds the container running or paused. -/
def Orderly (sys : Sys) (invocation : Invocation) : Prop :=
  ∀ pause fetched, invocation.command = .toggle pause → fetch rootDir id sys = some fetched →
    ¬ (id = "--help" ∨ id = "-h") →
    (env.host sys.clock).qmp (toggleCommand pause) (fetched.state.commsPath.getD "")
      fetched.state.pid = .returned true →
    (env.host (sys.clock + 1)).setContents (statePathOf rootDir id) = true →
    fetched.state.status = .running ∨ fetched.state.status = .paused

variable {env rootDir id} {sys : Sys}

theorem marks_chain_iff {fetched : Fetched} (got : fetch rootDir id sys = some fetched)
    (invocation : Invocation) :
    List.IsChain (Edge invocation.command fetched.state.status)
        (fetched.state.status :: statuses (invocation.marks env rootDir id fetched sys)) ↔
      Orderly env rootDir id sys invocation := by
  obtain ⟨command, rest⟩ := invocation
  rw [Invocation.marks]
  by_cases usage : id = "--help" ∨ id = "-h"
  · rw [if_pos usage]
    exact ⟨fun _ _ _ _ _ named => absurd usage named, fun _ => .singleton _⟩
  rw [if_neg usage]
  cases command with
  | start data =>
    refine ⟨?_, fun _ => ?_⟩
    · intro _ _ _ other
      cases other
    · by_cases created : fetched.state.status = .created
      · rw [created]
        exact startMarks_chain _ data _ _
      · dsimp only
        rw [if_pos created]
        exact .singleton _
  | kill =>
    refine ⟨?_, fun _ => ?_⟩
    · intro _ _ _ other
      cases other
    · dsimp only
      split
      · exact .singleton _
      · exact killMarks_chain _ _ _ _ _ _
  | toggle pause =>
    dsimp only
    rw [toggleMarks_chain_iff]
    constructor
    · intro orderly pause' fetched' named found _ accepted written
      cases named
      cases got.symm.trans found
      exact orderly (decide_eq_true accepted) written
    · intro orderly accepted written
      exact orderly pause fetched rfl got usage (of_decide_eq_true accepted) written

theorem followsLifecycle_iff (sequential : env.Sequential) (kept : Kept rootDir id sys)
    (invocation : Invocation) :
    FollowsLifecycle env rootDir id sys invocation ↔ Orderly env rootDir id sys invocation := by
  cases got : fetch rootDir id sys with
  | none =>
    have idle : statuses (sys.marksSince (statePathOf rootDir id) sys) = [] := by
      rw [(Puts.refl sys : Puts rootDir id 0 [] sys sys).marksSince]
      rfl
    have follows : FollowsLifecycle env rootDir id sys invocation := by
      unfold FollowsLifecycle
      dsimp only
      rw [Invocation.perform_of_missing got, idle]
      split
      · next found => exact ⟨.singleton _, Or.inr found⟩
      · next missing => exact ⟨rfl, missing⟩
    refine ⟨fun _ _ fetched _ found => ?_, fun _ => follows⟩
    rw [got] at found
    cases found
  | some fetched =>
    rcases kept with missing | ⟨pid, status, holding⟩
    · rw [fetch_of_missing missing] at got
      cases got
    obtain ⟨rfl, _⟩ := holding.fetched got
    have leaves := invocation.perform_leaves holding got sequential
    unfold FollowsLifecycle
    dsimp only
    rw [holding.statusAt, leaves.marksSince]
    dsimp only
    rw [marks_chain_iff got]
    refine and_iff_left ((leaves.left _ holding).imp_right fun held => ?_)
    exact held.statusAt

/-- All along a sequence of commands the status on disk moves along the edges of the lifecycle if
and only if every pause and resume that goes through finds the container running or paused: they
do not look at the status they find, as a start does. -/
theorem statuses_follow_lifecycle_iff (sequential : env.Sequential)
    (kept : Kept rootDir id sys) (invocations : List Invocation) :
    Along (Invocation.perform env rootDir id) (FollowsLifecycle env rootDir id) sys invocations ↔
      Along (Invocation.perform env rootDir id) (Orderly env rootDir id) sys invocations :=
  along_congr (Kept rootDir id) (fun _ invocation kept => kept.perform sequential invocation)
    (fun _ invocation kept => followsLifecycle_iff sequential kept invocation) kept

end Sequences

def orderlyRun : List Invocation :=
  [⟨.start {}, []⟩, ⟨.toggle true, []⟩, ⟨.toggle false, []⟩, ⟨.kill, ["SIGTERM"]⟩]

theorem orderly_run_follows_lifecycle :
    Along (Invocation.perform Env.calm (some "/run") "c1")
      (FollowsLifecycle Env.calm (some "/run") "c1") (createdSys []) orderlyRun := by
  have toggled : ∀ (sys : Sys) (pause : Bool) (rest : List String),
      (fetch (some "/run") "c1" sys).all (fun fetched =>
        fetched.state.status = .running ∨ fetched.state.status = .paused) = true →
      Orderly Env.calm (some "/run") "c1" sys ⟨.toggle pause, rest⟩ := by
    intro sys pause rest found pause' fetched _ got _ _ _
    rw [got] at found
    exact of_decide_eq_true found
  refine (statuses_follow_lifecycle_iff Env.calm_sequential
    (Or.inr ⟨4242, .created, createdSys_holding⟩) orderlyRun).mpr ⟨?_, ?_, ?_, ?_, trivial⟩
  · exact fun _ _ other => nomatch other
  · exact toggled _ true [] (by decide +kernel)
  · exact toggled _ false [] (by decide +kernel)
  · exact fun _ _ other => nomatch other

def stoppedThenPaused : List Invocation :=
  [⟨.start {}, []⟩, ⟨.kill, ["SIGCONT"]⟩, ⟨.toggle true, []⟩]

/-- A pause is accepted for a container that is recorded as stopped. -/
theorem pause_leaves_stopped :
    let perform := Invocation.perform Env.calm (some "/run") "c1"
    let after := stoppedThenPaused.foldl perform (createdSys [])
    statuses ((createdSys []).marksSince "/run/c1/state.json" after) =
        [.running, .stopping, .stopped, .paused] ∧
      ¬ Along perform (FollowsLifecycle Env.calm (some "/run") "c1") (createdSys [])
        stoppedThenPaused := by
  intro perform after
  let killed := perform (perform (createdSys []) ⟨.start {}, []⟩) ⟨.kill, ["SIGCONT"]⟩
  have facts : statuses ((createdSys []).marksSince "/run/c1/state.json" after) =
        [.running, .stopping, .stopped, .paused] ∧
      statusAt killed.files (statePathOf (some "/run") "c1") = some .stopped ∧
      statuses (Sys.marksSince (statePathOf (some "/run") "c1") killed
        (perform killed ⟨.toggle true, []⟩)) = [.paused] := by
    decide +kernel
  obtain ⟨all, found, written⟩ := facts
  refine ⟨all, fun follows => ?_⟩
  obtain ⟨_, _, third, _⟩ := follows
  unfold FollowsLifecycle at third
  dsimp only at third
  rw [found, written] at third
  obtain ⟨edge, _⟩ := List.isChain_cons_cons.mp third.1
  nomatch edge

end ClrOci
