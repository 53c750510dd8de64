import ClrOci.Qmp

/-! What a reception comes to, for every stream and every way it is cut into chunks. -/

set_option autoImplicit false

namespace ClrOci

open Foundation

instance (message : Bytes) : Decidable (CleanMessage message) :=
  inferInstanceAs (Decidable (0 ∉ message ∧ ¬ msgSeparator <:+: message))

/-- A stream of messages that is given in chunks is received message by message. -/
theorem qmpMsgRecv_reassembles {count : Nat} {messages chunks : List Bytes} (later : List Receipt)
    (positive : 1 ≤ count) (size : messages.length = count)
    (clean : ∀ message ∈ messages, CleanMessage message)
    (filled : ∀ chunk ∈ chunks, chunk ≠ [] ∧ chunk.length ≤ 2048)
    (arrives : chunks.flatten = (messages.map (· ++ msgSeparator)).flatten) :
    let got := qmpMsgRecv count (chunks.map .bytes ++ later)
    got.exit = .returned true ∧ got.msgs.length = count ∧ got.msgs = messages ∧ got.later = later := by
  subst size
  have some : messages ≠ [] := List.length_pos_iff.mp positive
  intro got
  have all : got = ⟨.returned true, messages, later⟩ :=
    qmpMsgRecv_messages some clean (fun chunk member => (filled chunk member).1) arrives
  rw [all]
  exact ⟨rfl, rfl, rfl, rfl⟩

-- The second message is empty and the first ends in half a separator; the cuts fall inside both.
theorem qmpMsgRecv_reassembles_split :
    let chunks : List Bytes := [[65, 13], [13], [10, 13], [10]]
    let got := qmpMsgRecv 2 (chunks.map .bytes ++ [.failed])
    got.exit = .returned true ∧ got.msgs.length = 2 ∧ got.msgs = [[65, 13], []] ∧
      got.later = [.failed] :=
  qmpMsgRecv_reassembles [.failed] (by decide) rfl
    (by decide) (by decide) (by decide)

inductive Ending where
  | endOfFile | failed
  deriving DecidableEq

def Ending.receipt : Ending → Receipt
  | .endOfFile => .bytes []
  | .failed => .failed

-- What is made of the end by a reception that is still short of messages.
def Ending.exit : Ending → Exit
  | .endOfFile => .aborted
  | .failed => .returned false

def stream (chunks : List Bytes) (ending : Ending) : List Receipt :=
  chunks.map .bytes ++ [ending.receipt]

def completeMessages (bytes : Bytes) : List Bytes := (frames (fun _ => false) msgSeparator bytes).1

/-- The reception ends with a result, which says whether enough messages were complete. -/
def CountsMessages (expected : Nat) (chunks : List Bytes) (ending : Ending) : Prop :=
  let got := qmpMsgRecv expected (stream chunks ending)
  (∃ ok, got.exit = .returned ok) ∧
    (got.exit = .returned true ↔ expected ≤ (completeMessages chunks.flatten).length)

/-- Some of the chunks together are exactly the expected messages, without a zero byte. -/
def Aligned (expected : Nat) (chunks : List Bytes) : Prop :=
  ∃ (taken : Nat) (messages : List Bytes), messages.length = expected ∧
    (∀ message ∈ messages, CleanMessage message) ∧
    (chunks.take taken).flatten = (messages.map (· ++ msgSeparator)).flatten

section Stream
variable {expected : Nat} {chunks : List Bytes} {received seen : Bytes} {total : Nat}
  {msgs : List Bytes} {ending : Ending}

theorem qmpFrames_append (taken : qmpFrames seen = (msgs, received)) (chunk : Bytes) :
    qmpFrames (seen ++ chunk) =
      (msgs ++ (qmpFrames (received ++ chunk)).1, (qmpFrames (received ++ chunk)).2) := by
  have both : qmpFrames (seen ++ chunk) = ((qmpFrames seen).1 ++
      (qmpFrames ((qmpFrames seen).2 ++ chunk)).1, (qmpFrames ((qmpFrames seen).2 ++ chunk)).2) :=
    frames_append (by decide) seen chunk
  rwa [taken] at both

theorem qmpFrames_room (chunk : Bytes) (enough : received.length ≤ total) :
    (qmpFrames (received ++ chunk)).2.length ≤ total + chunk.length := by
  have inside : (qmpFrames (received ++ chunk)).2 <:+ received ++ chunk := framesFrom_rest_suffix _ _
  have short := inside.length_le
  rw [List.length_append] at short
  exact short.trans (Nat.add_le_add_right enough chunk.length)

theorem recvChunks_true (filled : ∀ chunk ∈ chunks, chunk ≠ [])
    (taken : qmpFrames seen = (msgs, received)) (enough : received.length ≤ total)
    (ok : (recvChunks expected (stream chunks ending) received total msgs).exit = .returned true) :
    ∃ count messages, qmpFrames (seen ++ (chunks.take count).flatten) = (messages, []) ∧
      messages.length = expected := by
  induction chunks generalizing received seen total msgs with
  | nil => cases ending <;> cases ok
  | cons chunk rest ih =>
    obtain ⟨here, others⟩ := List.forall_mem_cons.mp filled
    have grown := qmpFrames_append taken chunk
    rw [stream, List.map_cons, List.cons_append, recvChunks_bytes here enough] at ok
    dsimp only at ok
    split at ok
    · next reached =>
      split at ok
      · next done =>
        refine ⟨1, _, ?_, reached⟩
        rw [List.take_succ_cons, List.take_zero, List.flatten_cons, List.flatten_nil,
          List.append_nil, grown, done]
      · cases ok
    · obtain ⟨count, messages, found, size⟩ := ih others grown (qmpFrames_room chunk enough) ok
      refine ⟨count + 1, messages, ?_, size⟩
      rw [List.take_succ_cons, List.flatten_cons, ← List.append_assoc]
      exact found

theorem recvChunks_short (filled : ∀ chunk ∈ chunks, chunk ≠ [])
    (taken : qmpFrames seen = (msgs, received)) (enough : received.length ≤ total)
    (few : (qmpFrames (seen ++ chunks.flatten)).1.length < expected) :
    (recvChunks expected (stream chunks ending) received total msgs).exit = ending.exit := by
  induction chunks generalizing received seen total msgs with
  | nil => cases ending <;> rfl
  | cons chunk rest ih =>
    obtain ⟨here, others⟩ := List.forall_mem_cons.mp filled
    have grown := qmpFrames_append taken chunk
    rw [List.flatten_cons, ← List.append_assoc] at few
    have sofar : (qmpFrames (seen ++ chunk)).1.length ≤
        (qmpFrames (seen ++ chunk ++ rest.flatten)).1.length :=
      frames_length_append (by decide) (seen ++ chunk) rest.flatten
    have short : (msgs ++ (qmpFrames (received ++ chunk)).1).length ≠ expected := by
      rw [grown] at sofar
      exact Nat.ne_of_lt (Nat.lt_of_le_of_lt sofar few)
    rw [stream, List.map_cons, List.cons_append, recvChunks_bytes here enough]
    dsimp only
    rw [if_neg short]
    exact ih others grown (qmpFrames_room chunk enough) few

theorem completeMessages_of_clean {messages : List Bytes}
    (clean : ∀ message ∈ messages, CleanMessage message) :
    completeMessages (messages.map (· ++ msgSeparator)).flatten = messages := by
  refine congrArg Prod.fst (frames_joined (by decide) fun message member => ?_)
  exact nextFrame_of_pair (by decide) ⟨rfl, rfl⟩ (fun _ _ => rfl) (clean message member).2

theorem aligned_complete (aligned : Aligned expected chunks) :
    expected ≤ (completeMessages chunks.flatten).length := by
  obtain ⟨taken, messages, size, clean, arrives⟩ := aligned
  have more : (completeMessages (chunks.take taken).flatten).length ≤
      (completeMessages ((chunks.take taken).flatten ++ (chunks.drop taken).flatten)).length :=
    frames_length_append (by decide) _ _
  rwa [← List.flatten_append, List.take_append_drop, arrives, completeMessages_of_clean clean,
    size] at more

theorem qmpFrames_nil : qmpFrames [] = ([], []) := rfl

/-- A reception succeeds exactly on a stream that some of its chunks cut after the expected messages. -/
theorem qmpMsgRecv_true_iff (positive : expected ≠ 0) (filled : ∀ chunk ∈ chunks, chunk ≠ []) :
    (qmpMsgRecv expected (stream chunks ending)).exit = .returned true ↔ Aligned expected chunks := by
  constructor
  · intro ok
    rw [qmpMsgRecv, if_neg positive] at ok
    obtain ⟨taken, messages, found, size⟩ := recvChunks_true filled qmpFrames_nil (Nat.le_refl 0) ok
    rw [List.nil_append] at found
    have spec : (chunks.take taken).flatten =
        ((qmpFrames (chunks.take taken).flatten).1.map (· ++ msgSeparator)).flatten ++
          (qmpFrames (chunks.take taken).flatten).2 ∧
        ∀ message ∈ (qmpFrames (chunks.take taken).flatten).1,
          (∀ byte ∈ message, (byte == 0) = false) ∧ ¬ msgSeparator <:+: message :=
      frames_spec (by decide) _
    rw [found, List.append_nil] at spec
    obtain ⟨whole, fine⟩ := spec
    refine ⟨taken, messages, size, fun message member => ?_, whole⟩
    obtain ⟨visible, apart⟩ := fine message member
    exact ⟨fun zero => by simpa using visible 0 zero, apart⟩
  · rintro ⟨taken, messages, rfl, clean, arrives⟩
    have some : messages ≠ [] := fun none => positive (congrArg List.length none)
    have parts : stream chunks ending =
        (chunks.take taken).map .bytes ++ stream (chunks.drop taken) ending := by
      rw [stream, stream, ← List.append_assoc, ← List.map_append, List.take_append_drop]
    rw [parts, qmpMsgRecv_messages some clean
      (fun chunk member => filled chunk (List.mem_of_mem_take member)) arrives]

/-- A reception counts correctly exactly if the messages end where a chunk does, or if there are too few
of them and the socket reports an error. -/
theorem qmpMsgRecv_counts_iff (positive : 1 ≤ expected) (filled : ∀ chunk ∈ chunks, chunk ≠ []) :
    CountsMessages expected chunks ending ↔
      Aligned expected chunks ∨
        ((completeMessages chunks.flatten).length < expected ∧ ending = .failed) := by
  have nonzero : expected ≠ 0 := Nat.ne_of_gt positive
  have succeeds : (qmpMsgRecv expected (stream chunks ending)).exit = .returned true ↔
      Aligned expected chunks := qmpMsgRecv_true_iff nonzero filled
  have unfinished (few : (completeMessages chunks.flatten).length < expected) :
      (qmpMsgRecv expected (stream chunks ending)).exit = ending.exit := by
    have visible : (qmpFrames ([] ++ chunks.flatten)).1.length < expected :=
      Nat.lt_of_le_of_lt (frames_length_unstopped (by decide) chunks.flatten) few
    rw [qmpMsgRecv, if_neg nonzero]
    exact recvChunks_short filled qmpFrames_nil (Nat.le_refl 0) visible
  constructor
  · rintro ⟨⟨ok, exit⟩, counts⟩
    rcases Nat.lt_or_ge (completeMessages chunks.flatten).length expected with few | enough
    · refine Or.inr ⟨few, ?_⟩
      rw [unfinished few] at exit
      cases ending with
      | endOfFile => cases exit
      | failed => rfl
    · exact Or.inl (succeeds.mp (counts.mpr enough))
  · rintro (aligned | ⟨few, rfl⟩)
    · have ok := succeeds.mpr aligned
      exact ⟨⟨true, ok⟩, fun _ => aligned_complete aligned, fun _ => ok⟩
    · have exit := unfinished few
      refine ⟨⟨false, exit⟩, fun ok => ?_, fun enough => absurd enough (Nat.not_le.mpr few)⟩
      rw [exit] at ok
      cases ok

end Stream

theorem qmpMsgRecv_counts_split :
    CountsMessages 2 [[65, 13], [10, 66], [13, 10], [67]] .endOfFile ∧
      CountsMessages 2 [[65, 13, 10], [66]] .failed := by
  refine ⟨(qmpMsgRecv_counts_iff (by decide) (by decide)).mpr (Or.inl ⟨3, [[65], [66]], ?_⟩),
    (qmpMsgRecv_counts_iff (by decide) (by decide)).mpr (Or.inr ?_)⟩
  · decide
  · decide

/-- A message is awaited, and one comes with the beginning of the next, or two come at once, or the
peer closes: each time the process is killed. -/
theorem qmpMsgRecv_killed_by_surplus :
    let ends (chunks : List Bytes) := (qmpMsgRecv 1 (stream chunks .endOfFile)).exit
    ends [[65, 13, 10, 66]] = .aborted ∧ ends [[65, 13, 10, 66, 13, 10]] = .aborted ∧
      ends [[65]] = .aborted ∧ (qmpMsgRecv 1 (stream [[65, 13, 10, 66, 13, 10]] .failed)).exit =
        .returned false ∧ ¬ CountsMessages 1 [[65, 13, 10, 66]] .endOfFile := by
  refine ⟨by decide, by decide, by decide, by decide, ?_⟩
  rintro ⟨⟨ok, exit⟩, _⟩
  have killed : (qmpMsgRecv 1 (stream [[65, 13, 10, 66]] .endOfFile)).exit = .aborted := by decide
  rw [killed] at exit
  cases exit

end ClrOci
