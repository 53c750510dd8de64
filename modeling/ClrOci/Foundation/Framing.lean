import Mathlib.Data.List.TakeWhile

/-! Messages in a stream of elements, each ended by a separator.

A search for the separator ends at the first element that stops it. The stream
arrives in pieces; how it is cut has no influence on the messages found in it.
-/

set_option autoImplicit false

namespace ClrOci.Foundation

section Framing
variable {A : Type} [DecidableEq A] (stop : A → Bool) (separator : List A)

def before? : List A → Option (List A)
  | [] => none
  | head :: rest =>
    if separator.isPrefixOf (head :: rest) then some [] else (before? rest).map (head :: ·)

def nextFrame (data : List A) : Option (List A × List A) :=
  (before? separator (data.takeWhile fun element => !stop element)).map fun frame =>
    (frame, data.drop (frame.length + separator.length))

def framesFrom : Nat → List A → List (List A) × List A
  | 0, data => ([], data)
  | fuel + 1, data =>
    match nextFrame stop separator data with
    | none => ([], data)
    | some (frame, rest) =>
      let others := framesFrom fuel rest
      (frame :: others.1, others.2)

def frames (data : List A) : List (List A) × List A := framesFrom stop separator data.length data

variable {stop separator} {data more frame rest : List A}

theorem before?_within (found : before? separator data = some frame) :
    frame ++ separator <+: data := by
  induction data generalizing frame with
  | nil => cases found
  | cons head tail ih =>
    rw [before?] at found
    split at found
    · next here =>
      cases found
      exact List.isPrefixOf_iff_prefix.mp here
    · obtain ⟨shorter, later, rfl⟩ := Option.map_eq_some_iff.mp found
      exact List.cons_prefix_cons.mpr ⟨rfl, ih later⟩

theorem before?_append (found : before? separator data = some frame) (more : List A) :
    before? separator (data ++ more) = some frame := by
  induction data generalizing frame with
  | nil => cases found
  | cons head tail ih =>
    rw [List.cons_append, before?]
    rw [before?] at found
    split at found
    · next here =>
      have longer : separator <+: head :: (tail ++ more) :=
        (List.isPrefixOf_iff_prefix.mp here).trans (List.prefix_append (head :: tail) more)
      rw [if_pos (List.isPrefixOf_iff_prefix.mpr longer)]
      exact found
    · next elsewhere =>
      obtain ⟨shorter, later, rfl⟩ := Option.map_eq_some_iff.mp found
      have room : separator.length ≤ (head :: tail).length := by
        have inside := (before?_within later).length_le
        simp only [List.length_append, List.length_cons] at inside ⊢
        omega
      have still : ¬ separator.isPrefixOf (head :: (tail ++ more)) = true := by
        intro here
        have within := List.prefix_of_prefix_length_le (List.isPrefixOf_iff_prefix.mp here)
          (List.prefix_append (head :: tail) more) room
        exact elsewhere (List.isPrefixOf_iff_prefix.mpr within)
      rw [if_neg still, ih later, Option.map_some]

theorem before?_apart (nonempty : separator ≠ []) (found : before? separator data = some frame) :
    ¬ separator <:+: frame := by
  induction data generalizing frame with
  | nil => cases found
  | cons head tail ih =>
    rw [before?] at found
    split at found
    · cases found
      exact fun inside => nonempty (List.eq_nil_of_infix_nil inside)
    · next elsewhere =>
      obtain ⟨shorter, later, rfl⟩ := Option.map_eq_some_iff.mp found
      intro inside
      rcases List.infix_cons_iff.mp inside with here | deeper
      · have longer : head :: shorter <+: head :: tail :=
          List.cons_prefix_cons.mpr ⟨rfl, (List.prefix_append shorter separator).trans (before?_within later)⟩
        exact elsewhere (List.isPrefixOf_iff_prefix.mpr (here.trans longer))
      · exact ih later deeper

theorem nextFrame_length (found : nextFrame stop separator data = some (frame, rest)) :
    rest.length + frame.length + separator.length = data.length := by
  obtain ⟨_, inside, same⟩ := Option.map_eq_some_iff.mp found
  cases same
  have fits := (before?_within inside).length_le
  have visible := (List.takeWhile_prefix (fun element => !stop element) (l := data)).length_le
  rw [List.length_append] at fits
  rw [List.length_drop]
  omega

theorem nextFrame_append (found : nextFrame stop separator data = some (frame, rest))
    (more : List A) : nextFrame stop separator (data ++ more) = some (frame, rest ++ more) := by
  have size := nextFrame_length found
  obtain ⟨_, inside, same⟩ := Option.map_eq_some_iff.mp found
  cases same
  have visible : ∃ others, (data ++ more).takeWhile (fun element => !stop element) =
      data.takeWhile (fun element => !stop element) ++ others := by
    rw [List.takeWhile_append]
    split
    · next whole =>
      have all := (List.takeWhile_prefix (fun element => !stop element)).eq_of_length whole
      rw [all]
      exact ⟨_, rfl⟩
    · exact ⟨[], (List.append_nil _).symm⟩
  obtain ⟨others, split⟩ := visible
  rw [nextFrame, split, before?_append inside, Option.map_some,
    List.drop_append_of_le_length (by omega)]

/-- A message that is found is followed by the separator, and neither stops the search nor holds it. -/
theorem nextFrame_spec (nonempty : separator ≠ [])
    (found : nextFrame stop separator data = some (frame, rest)) :
    data = frame ++ separator ++ rest ∧ (∀ element ∈ frame, stop element = false) ∧
      ¬ separator <:+: frame := by
  obtain ⟨_, inside, same⟩ := Option.map_eq_some_iff.mp found
  cases same
  have whole := (before?_within inside).trans (List.takeWhile_prefix (fun element => !stop element))
  refine ⟨?_, fun element member => ?_, before?_apart nonempty inside⟩
  · have split := List.prefix_iff_eq_append.mp whole
    rw [List.length_append] at split
    exact split.symm
  · have seen := (before?_within inside).subset (List.mem_append_left separator member)
    simpa using List.mem_takeWhile_imp seen

theorem nextFrame_unstopped (found : nextFrame stop separator data = some (frame, rest)) :
    nextFrame (fun _ => false) separator data = some (frame, rest) := by
  obtain ⟨_, inside, same⟩ := Option.map_eq_some_iff.mp found
  cases same
  have seen : before? separator data = some frame := by
    obtain ⟨hidden, split⟩ := List.takeWhile_prefix (fun element => !stop element) (l := data)
    rw [← split]
    exact before?_append inside hidden
  have all : data.takeWhile (fun _ => !false) = data := List.takeWhile_eq_self_iff.mpr fun _ _ => rfl
  rw [nextFrame, all, seen, Option.map_some]

theorem framesFrom_rest_suffix (fuel : Nat) (data : List A) :
    (framesFrom stop separator fuel data).2 <:+ data := by
  induction fuel generalizing data with
  | zero => exact List.suffix_refl data
  | succ fuel ih =>
    rw [framesFrom]
    cases found : nextFrame stop separator data with
    | none => exact List.suffix_refl data
    | some parts =>
      obtain ⟨_, _, same⟩ := Option.map_eq_some_iff.mp found
      cases same
      exact (ih _).trans (List.drop_suffix _ data)

section Frames
variable (nonempty : separator ≠ [])
include nonempty

theorem framesFrom_of_le {fuel : Nat} (enough : data.length ≤ fuel) :
    framesFrom stop separator fuel data = frames stop separator data := by
  have proper : 0 < separator.length := List.length_pos_iff.mpr nonempty
  have steady : ∀ (limit : Nat) (data : List A), data.length ≤ limit →
      ∀ fuel, data.length ≤ fuel →
        framesFrom stop separator fuel data = framesFrom stop separator data.length data := by
    intro limit
    induction limit with
    | zero =>
      intro data short fuel _
      cases List.length_eq_zero_iff.mp (Nat.le_zero.mp short)
      cases fuel <;> rfl
    | succ limit ih =>
      intro data short fuel enough
      cases found : nextFrame stop separator data with
      | none => cases fuel <;> cases size : data.length <;> simp [framesFrom, found]
      | some parts =>
        obtain ⟨frame, rest⟩ := parts
        have size := nextFrame_length found
        obtain ⟨fuel, rfl⟩ := Nat.exists_eq_add_of_lt (show 0 < fuel by omega)
        obtain ⟨length, same⟩ := Nat.exists_eq_add_of_lt (show 0 < data.length by omega)
        simp only [same, framesFrom, found]
        rw [ih rest (by omega) (0 + fuel) (by omega), ih rest (by omega) (0 + length) (by omega)]
  exact steady data.length data (Nat.le_refl _) fuel enough

theorem frames_of_none (absent : nextFrame stop separator data = none) :
    frames stop separator data = ([], data) := by
  rw [← framesFrom_of_le nonempty (Nat.le_succ data.length), framesFrom, absent]

theorem frames_of_some (found : nextFrame stop separator data = some (frame, rest)) :
    frames stop separator data =
      (frame :: (frames stop separator rest).1, (frames stop separator rest).2) := by
  have size := nextFrame_length found
  rw [← framesFrom_of_le nonempty (Nat.le_succ data.length), framesFrom, found]
  dsimp only
  rw [framesFrom_of_le nonempty (by omega)]

theorem frames_append (data more : List A) :
    frames stop separator (data ++ more) =
      ((frames stop separator data).1 ++ (frames stop separator ((frames stop separator data).2 ++ more)).1,
        (frames stop separator ((frames stop separator data).2 ++ more)).2) := by
  have proper : 0 < separator.length := List.length_pos_iff.mpr nonempty
  induction size : data.length using Nat.strongRecOn generalizing data with
  | ind length ih =>
    cases found : nextFrame stop separator data with
    | none => rw [frames_of_none nonempty found, List.nil_append]
    | some parts =>
      obtain ⟨frame, rest⟩ := parts
      have shorter := nextFrame_length found
      rw [frames_of_some nonempty (nextFrame_append found more), frames_of_some nonempty found,
        ih rest.length (by omega) rest rfl]
      rfl

theorem frames_length_append (data more : List A) :
    (frames stop separator data).1.length ≤ (frames stop separator (data ++ more)).1.length := by
  rw [frames_append nonempty, List.length_append]
  exact Nat.le_add_right _ _

/-- The messages that are found, each with its separator, and what is left are the data again. -/
theorem frames_spec (data : List A) :
    data = ((frames stop separator data).1.map (· ++ separator)).flatten ++ (frames stop separator data).2 ∧
      ∀ frame ∈ (frames stop separator data).1,
        (∀ element ∈ frame, stop element = false) ∧ ¬ separator <:+: frame := by
  have proper : 0 < separator.length := List.length_pos_iff.mpr nonempty
  induction size : data.length using Nat.strongRecOn generalizing data with
  | ind length ih =>
    cases found : nextFrame stop separator data with
    | none =>
      rw [frames_of_none nonempty found]
      exact ⟨rfl, fun _ member => absurd member List.not_mem_nil⟩
    | some parts =>
      obtain ⟨frame, rest⟩ := parts
      have shorter := nextFrame_length found
      obtain ⟨split, fine⟩ := nextFrame_spec nonempty found
      obtain ⟨again, others⟩ := ih rest.length (by omega) rest rfl
      rw [frames_of_some nonempty found]
      refine ⟨?_, List.forall_mem_cons.mpr ⟨fine, others⟩⟩
      rw [List.map_cons, List.flatten_cons, List.append_assoc, ← again]
      exact split

theorem frames_length_unstopped (data : List A) :
    (frames stop separator data).1.length ≤ (frames (fun _ => false) separator data).1.length := by
  have proper : 0 < separator.length := List.length_pos_iff.mpr nonempty
  induction size : data.length using Nat.strongRecOn generalizing data with
  | ind length ih =>
    cases found : nextFrame stop separator data with
    | none =>
      rw [frames_of_none nonempty found]
      exact Nat.zero_le _
    | some parts =>
      obtain ⟨frame, rest⟩ := parts
      have shorter := nextFrame_length found
      rw [frames_of_some nonempty found, frames_of_some nonempty (nextFrame_unstopped found),
        List.length_cons, List.length_cons]
      exact Nat.succ_le_succ (ih rest.length (by omega) rest rfl)

theorem frames_joined {messages : List (List A)} (whole : ∀ message ∈ messages,
      nextFrame stop separator (message ++ separator) = some (message, [])) :
    frames stop separator (messages.map (· ++ separator)).flatten = (messages, []) := by
  induction messages with
  | nil => rfl
  | cons message others ih =>
    have first := nextFrame_append (whole message List.mem_cons_self)
      (others.map (· ++ separator)).flatten
    rw [List.nil_append] at first
    rw [List.map_cons, List.flatten_cons, frames_of_some nonempty first,
      ih fun other member => whole other (List.mem_cons_of_mem message member)]

/-- Once all messages of a stream have been found, nothing more of it is to come. -/
theorem frames_settled {data more : List A} {messages : List (List A)}
    (all : frames stop separator (data ++ more) = (messages, []))
    (count : (frames stop separator data).1.length = messages.length) :
    (frames stop separator data).2 = [] ∧ more = [] := by
  rw [frames_append nonempty, Prod.mk.injEq] at all
  obtain ⟨found, left⟩ := all
  have empty : (frames stop separator ((frames stop separator data).2 ++ more)).1 = [] := by
    have lengths := congrArg List.length found
    rw [List.length_append, count] at lengths
    exact List.length_eq_zero_iff.mp (by omega)
  have absent : nextFrame stop separator ((frames stop separator data).2 ++ more) = none := by
    cases found : nextFrame stop separator ((frames stop separator data).2 ++ more) with
    | none => rfl
    | some parts =>
      obtain ⟨frame, rest⟩ := parts
      rw [frames_of_some nonempty found] at empty
      cases empty
  rw [frames_of_none nonempty absent] at left
  exact List.append_eq_nil_iff.mp left

end Frames

/-- A message without a stopping element and without the separator is cut off by it, when the
separator is a pair of different elements. -/
theorem nextFrame_of_pair {first second : A} (different : first ≠ second)
    (visible : stop first = false ∧ stop second = false) {message : List A}
    (clean : ∀ element ∈ message, stop element = false) (apart : ¬ [first, second] <:+: message) :
    nextFrame stop [first, second] (message ++ [first, second]) = some (message, []) := by
  have seen : (message ++ [first, second]).takeWhile (fun element => !stop element) =
      message ++ [first, second] := by
    refine List.takeWhile_eq_self_iff.mpr fun element member => ?_
    rcases List.mem_append.mp member with inside | ending
    · rw [clean element inside]
      rfl
    · rcases List.mem_cons.mp ending with rfl | last
      · rw [visible.1]
        rfl
      · rw [List.mem_singleton.mp last, visible.2]
        rfl
  have cut : before? [first, second] (message ++ [first, second]) = some message := by
    clear seen clean
    induction message with
    | nil => simp [before?]
    | cons head tail ih =>
      have later := ih fun inside => apart (inside.trans (List.suffix_cons head tail).isInfix)
      have elsewhere : ¬ [first, second] <+: head :: (tail ++ [first, second]) := by
        intro here
        obtain ⟨rfl, next⟩ := List.cons_prefix_cons.mp here
        cases tail with
        | nil => exact different (List.cons_prefix_cons.mp next).1.symm
        | cons other tail =>
          obtain ⟨rfl, _⟩ := List.cons_prefix_cons.mp next
          exact apart ⟨[], tail, rfl⟩
      rw [List.cons_append, before?, if_neg fun here => elsewhere (List.isPrefixOf_iff_prefix.mp here),
        later, Option.map_some]
  rw [nextFrame, seen, cut, Option.map_some]
  congr 2
  exact List.drop_of_length_le (by simp)

end Framing

end ClrOci.Foundation
