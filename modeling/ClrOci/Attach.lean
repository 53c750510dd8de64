import ClrOci.Foundation.Memory
import ClrOci.Util

/-! What passes between the terminal and the console of a container. -/

set_option autoImplicit false

namespace ClrOci

open Foundation

/-- `GIOCondition`, as far as it is looked at. -/
structure IoCondition where
  out : Bool := false
  hup : Bool := false
  deriving DecidableEq

def IoCondition.onlyHup : IoCondition := { hup := true }

/-- What a write that is asked for `length` bytes returns. -/
inductive WriteResult (length : Nat) where
  | normal (written : Fin (length + 1))
  | again
  deriving DecidableEq

namespace WriteResult
variable {length : Nat}

def full : WriteResult length := .normal (Fin.last length)

def nothing : WriteResult length := .normal 0

end WriteResult

section Stdin
variable {length : Nat}

def firstPositions (written : Fin (length + 1)) : List (Fin length) := (List.finRange length).take written

/-- The loop of `watcher_socket_stdin`, by the positions that are passed on. It does not end with the
results that are given if it returns `none`. -/
def writeLoop : List (WriteResult length) → Option (List (Fin length))
  | [] => none
  | .again :: _ => some []
  | .normal written :: rest =>
    if written.val = length then some (firstPositions written)
    else (writeLoop rest).map (firstPositions written ++ ·)

/-- `watcher_socket_stdin`, which hears of a hang-up alone or of room for output: the positions of the
line that reach the socket. -/
def watcherSocketStdin (condition : IoCondition) (line : List UInt8)
    (results : List (WriteResult line.length)) :
    Option (List (Fin line.length)) :=
  if condition = .onlyHup then some [] else writeLoop results

/-- When the line is discarded every byte of it has been passed on once, in order. -/
def PassedOnce (condition : IoCondition) (line : List UInt8)
    (results : List (WriteResult line.length)) : Prop :=
  ∀ positions ∈ watcherSocketStdin condition line results,
    positions = List.finRange line.length ∧ positions.map line.get = line

theorem firstPositions_full {written : Fin (length + 1)} (full : written.val = length) :
    firstPositions written = List.finRange length := by
  rw [firstPositions, full]
  exact List.take_of_length_le (Nat.le_of_eq List.length_finRange)

theorem firstPositions_nothing : firstPositions (0 : Fin (length + 1)) = [] := rfl

def Ends (results : List (WriteResult length)) : Prop := ∃ result ∈ results, result = .again ∨ result = .full

theorem full_iff {written : Fin (length + 1)} :
    WriteResult.normal written = WriteResult.full ↔ written.val = length := by
  rw [WriteResult.full, WriteResult.normal.injEq, Fin.ext_iff, Fin.val_last]

theorem ends_cons_short {written : Fin (length + 1)} (short : written.val ≠ length)
    (rest : List (WriteResult length)) : Ends (.normal written :: rest) ↔ Ends rest := by
  have neither : ¬ (WriteResult.normal written = .again ∨ WriteResult.normal written = .full) := by
    rw [full_iff]
    simpa using short
  simp only [Ends, List.exists_mem_cons_iff, neither, false_or]

theorem writeLoop_isSome_iff (results : List (WriteResult length)) :
    (writeLoop results).isSome = true ↔ Ends results := by
  induction results with
  | nil => simp [writeLoop, Ends]
  | cons result rest ih =>
    cases result with
    | again => exact iff_of_true rfl ⟨.again, List.mem_cons_self, Or.inl rfl⟩
    | normal written =>
      rw [writeLoop]
      split
      · next full => exact iff_of_true rfl ⟨_, List.mem_cons_self, Or.inr (full_iff.mpr full)⟩
      · next short => rw [Option.isSome_map, ih, ends_cons_short short]

theorem firstPositions_begins {written : Fin (length + 1)} {first : Fin length}
    (begins : (firstPositions written).head? = some first) : first.val = 0 := by
  rw [firstPositions, List.head?_take] at begins
  split at begins
  · cases begins
  · cases length with
    | zero => exact first.elim0
    | succ length =>
      rw [List.finRange_succ, List.head?_cons] at begins
      exact congrArg Fin.val (Option.some.inj begins).symm

/-- What is passed on begins with the first position, if it is not empty. -/
theorem writeLoop_begins {results : List (WriteResult length)} {positions : List (Fin length)}
    (ended : writeLoop results = some positions) {first : Fin length} (begins : positions.head? = some first) :
    first.val = 0 := by
  induction results generalizing positions with
  | nil => cases ended
  | cons result rest ih =>
    cases result with
    | again =>
      cases ended
      cases begins
    | normal written =>
      rw [writeLoop] at ended
      split at ended
      · cases ended
        exact firstPositions_begins begins
      · obtain ⟨more, found, rfl⟩ := Option.map_eq_some_iff.mp ended
        rw [List.head?_append, Option.or_eq_some_iff] at begins
        rcases begins with here | ⟨_, later⟩
        · exact firstPositions_begins here
        · exact ih found later

/-- After a short write the rest of the line is not what is passed on next. -/
theorem not_resumed {written : Fin (length + 1)} (progress : written.val ≠ 0) (short : written.val ≠ length)
    {results : List (WriteResult length)} {positions : List (Fin length)}
    (ended : writeLoop results = some positions) :
    firstPositions written ++ positions ≠ List.finRange length := by
  intro whole
  have bound : written.val < length := by omega
  have rest : positions = (List.finRange length).drop written := by
    rw [← List.take_append_drop written.val (List.finRange length)] at whole
    exact List.append_cancel_left whole
  have next : positions.head? = some ⟨written, bound⟩ := by
    rw [rest, List.head?_drop]
    simp [bound]
  exact progress (writeLoop_begins ended next)

/-- The loop passes everything on once exactly if nothing is written before a whole write. -/
theorem writeLoop_once_iff (results : List (WriteResult length)) :
    (∀ positions ∈ writeLoop results, positions = List.finRange length) ↔
      length = 0 ∨ ¬ Ends results ∨ results.find? (· ≠ .nothing) = some .full := by
  induction results with
  | nil => simp [writeLoop, Ends]
  | cons result rest ih =>
    cases result with
    | again =>
      have last : Ends (.again :: rest) := ⟨.again, List.mem_cons_self, Or.inl rfl⟩
      have first : (WriteResult.again :: rest).find? (· ≠ .nothing) = some .again := rfl
      have early : WriteResult.again ≠ (WriteResult.full : WriteResult length) := nofun
      simp only [writeLoop, Option.mem_def, Option.some.injEq, forall_eq', first, last, early, not_true,
        or_false]
      rw [eq_comm, ← List.length_eq_zero_iff, List.length_finRange]
    | normal written =>
      rw [writeLoop]
      split
      · next full =>
        refine iff_of_true (fun positions ended => ?_) ?_
        · rw [← Option.some.inj ended, firstPositions_full full]
        · by_cases empty : length = 0
          · exact Or.inl empty
          · have some : WriteResult.normal written ≠ .nothing := by
              rw [WriteResult.nothing, ne_eq, WriteResult.normal.injEq, Fin.ext_iff, full]
              exact empty
            rw [List.find?_cons_of_pos (by simpa using some), full_iff.mpr full]
            exact Or.inr (Or.inr rfl)
      · next short =>
        rw [ends_cons_short short]
        by_cases nothing : written = 0
        · subst nothing
          have skipped : (WriteResult.normal (0 : Fin (length + 1)) :: rest).find? (· ≠ .nothing) =
              rest.find? (· ≠ .nothing) := List.find?_cons_of_neg (by simp [WriteResult.nothing])
          rw [skipped, ← ih]
          simp only [firstPositions_nothing, List.nil_append, Option.map_id']
        · have progress : written.val ≠ 0 := fun zero => nothing (Fin.ext zero)
          have found : (WriteResult.normal written :: rest).find? (· ≠ .nothing) = some (.normal written) :=
            List.find?_cons_of_pos (by simpa [WriteResult.nothing] using nothing)
          have other : WriteResult.normal written ≠ WriteResult.full := fun same => short (full_iff.mp same)
          have line : length ≠ 0 := by omega
          simp only [found, Option.some.injEq, other, line, false_or, or_false, ← writeLoop_isSome_iff]
          constructor
          · intro once ended
            obtain ⟨positions, ended⟩ := Option.isSome_iff_exists.mp ended
            exact not_resumed progress short ended (once _ (by rw [ended]; rfl))
          · intro running positions ended
            obtain ⟨more, found, _⟩ := Option.map_eq_some_iff.mp ended
            exact absurd (by rw [found]; rfl) running

/-- The socket gets every byte of a line once and in order exactly if the line is empty, or the writes
never end, or nothing is written before a write of all of it. -/
theorem passedOnce_iff (hup : Bool) (line : List UInt8) (results : List (WriteResult line.length)) :
    PassedOnce { out := true, hup := hup } line results ↔
      line.length = 0 ∨ ¬ Ends results ∨ results.find? (· ≠ .nothing) = some .full := by
  rw [← writeLoop_once_iff]
  constructor
  · exact fun once positions ended => (once positions ended).1
  · intro once positions ended
    have whole := once positions ended
    exact ⟨whole, by rw [whole]; exact List.map_get_finRange line⟩

/-- A short write is followed by one of the whole line: its first byte arrives twice. -/
theorem short_write_repeats :
    let line : List UInt8 := [104, 105]
    let results : List (WriteResult 2) := [.normal 1, .normal 2]
    (watcherSocketStdin { out := true } line results).map (fun positions => positions.map line.get) =
        some [104, 104, 105] ∧
      ¬ PassedOnce { out := true } line results := by
  have sent : watcherSocketStdin { out := true } [104, 105] [.normal 1, .normal 2] = some [0, 0, 1] := by decide
  refine ⟨by decide, fun once => ?_⟩
  have whole := (once _ sent).1
  revert whole
  decide

end Stdin

section Stdout

structure Chunk where
  bytes : List UInt8
  fits : bytes.length ≤ lineMax

def Ascii (text : List UInt8) : Prop := ∀ byte ∈ text, byte < 128

instance (text : List UInt8) : Decidable (Ascii text) := List.decidableBAll (· < 128) text

/-- How `g_print` writes a text. The locale is never set, so unless the environment names UTF-8 as the
charset, GLib converts the text to that of the C locale: ASCII stays as it is, and where it first is
something else, something of ASCII comes instead. -/
structure Printer where
  utf8 : Bool
  convert : List UInt8 → List UInt8
  keeps : ∀ text, Ascii text → 0 ∉ text → convert text = text
  replaces : ∀ before byte after, Ascii before → 128 ≤ byte →
    ∃ other < 128, (convert (before ++ byte :: after))[before.length]? = some other
  unterminated : ∀ text, 0 ∉ convert text

namespace Printer
variable {printer : Printer} {text : List UInt8}

def write (printer : Printer) (text : List UInt8) : List UInt8 :=
  if printer.utf8 then text else printer.convert text

def Keeps (printer : Printer) (text : List UInt8) : Prop := printer.utf8 = true ∨ Ascii text

theorem write_of_keeps (keeps : printer.Keeps text) (plain : 0 ∉ text) : printer.write text = text := by
  unfold write
  split
  · rfl
  · next other => exact printer.keeps text (keeps.resolve_left other) plain

theorem write_unterminated (plain : 0 ∉ text) : 0 ∉ printer.write text := by
  unfold write
  split
  · exact plain
  · exact printer.unterminated text

/-- A text that is not kept comes out different, whatever follows it. -/
theorem keeps_of_write {stale more rest : List UInt8}
    (whole : printer.write (text ++ stale) ++ more = text ++ rest) : printer.Keeps text := by
  unfold write at whole
  split at whole
  · next utf8 => exact Or.inl utf8
  · right
    by_contra other
    have some : (text.find? (128 ≤ ·)).isSome = true := by simpa [Ascii, List.find?_isSome] using other
    obtain ⟨byte, found⟩ := Option.isSome_iff_exists.mp some
    obtain ⟨large, before, after, rfl, small⟩ := List.find?_eq_some_iff_append.mp found
    have ascii : Ascii before := fun byte member => by simpa using small byte member
    obtain ⟨shown, less, there⟩ := printer.replaces before byte (after ++ stale) ascii (of_decide_eq_true large)
    -- The bytes at the place of the first one that is not ASCII.
    have same := congrArg (·[before.length]?) whole
    rw [List.append_assoc, List.cons_append] at same
    simp only [List.getElem?_append_left (List.getElem?_eq_some_iff.mp there).1, there, List.append_assoc,
      List.cons_append, List.getElem?_append_right (Nat.le_refl _), Nat.sub_self, List.getElem?_cons_zero,
      Option.some_inj] at same
    exact absurd (of_decide_eq_true large) (by rw [← same]; exact UInt8.not_le.mpr less)

def replacing : Printer where
  utf8 := false
  convert text := text.map fun byte => if 0 < byte ∧ byte < 128 then byte else 63
  keeps text ascii plain := by
    have same : ∀ byte ∈ text, (if 0 < byte ∧ byte < 128 then byte else 63) = id byte := by
      intro byte member
      have positive : byte ≠ 0 := fun zero => plain (zero ▸ member)
      exact if_pos ⟨UInt8.pos_iff_ne_zero.mpr positive, ascii byte member⟩
    rw [List.map_congr_left same, List.map_id]
  replaces before byte after _ large := by
    refine ⟨63, by decide, ?_⟩
    have other : ¬ (0 < byte ∧ byte < 128) := fun both => UInt8.not_le.mpr both.2 large
    simp [other]
  unterminated text inside := by
    obtain ⟨byte, _, same⟩ := List.mem_map.mp inside
    split at same
    · next set => exact absurd set.1 (by rw [same]; decide)
    · cases same

end Printer

structure Frame where
  buffer : List UInt8
  beyond : List UInt8
  sized : buffer.length = lineMax

namespace Frame

-- `g_io_channel_read_chars` into the buffer.
def read (frame : Frame) (chunk : Chunk) : Frame where
  buffer := chunk.bytes ++ frame.buffer.drop chunk.bytes.length
  beyond := frame.beyond
  sized := by
    rw [List.length_append, List.length_drop, frame.sized]
    have fits := chunk.fits
    omega

def terminate (frame : Frame) (position : Nat) : Frame where
  buffer := frame.buffer.set position 0
  beyond := frame.beyond
  sized := by rw [List.length_set, frame.sized]

def text (frame : Frame) : Option (List UInt8) := cstring (frame.buffer ++ frame.beyond)

def take (frame : Frame) (chunk : Chunk) : Frame :=
  if chunk.bytes.length < lineMax then (frame.read chunk).terminate chunk.bytes.length else frame.read chunk

end Frame

/-- The loop of `watcher_socket_stdout`: `none` reads past the end of the memory. -/
def printChunks (printer : Printer) (frame : Frame) : List Chunk → Option (List UInt8)
  | [] => some []
  | chunk :: rest => do
    let text ← (frame.take chunk).text
    let more ← printChunks printer (frame.take chunk) rest
    return printer.write text ++ more

structure Watched where
  printed : Option (List UInt8)
  stays : Bool
  quits : Bool

/-- `watcher_socket_stdout`, with the reads until the channel has nothing more for now. -/
def watcherSocketStdout (printer : Printer) (condition : IoCondition) (running loop : Bool) (frame : Frame)
    (chunks : List Chunk) : Watched :=
  let printed := if condition = .onlyHup then some [] else printChunks printer frame chunks
  if !running && loop then ⟨printed, false, true⟩ else ⟨printed, condition ≠ .onlyHup, false⟩

-- Callbacks one after the other, each with a frame of its own.
def printAll (printer : Printer) (running loop : Bool) (frames : Nat → Frame) :
    List (List Chunk) → Option (List UInt8)
  | [] => some []
  | chunks :: rest => do
    let printed ← (watcherSocketStdout printer { out := true } running loop (frames rest.length) chunks).printed
    let more ← printAll printer running loop frames rest
    return printed ++ more

def PrintsReceived (printer : Printer) (callbacks : List (List Chunk)) : Prop :=
  ∀ (running loop : Bool) (frames : Nat → Frame),
    printAll printer running loop frames callbacks = some (callbacks.flatten.flatMap Chunk.bytes)

section Turn
variable (frame : Frame) {chunk : Chunk}

theorem text_short (short : chunk.bytes.length < lineMax) :
    ∃ stale, (frame.take chunk).text = cstring (chunk.bytes ++ 0 :: stale) := by
  have sized : (frame.buffer.drop chunk.bytes.length).length = lineMax - chunk.bytes.length := by
    rw [List.length_drop, frame.sized]
  unfold Frame.take Frame.text
  rw [if_pos short]
  simp only [Frame.terminate, Frame.read]
  cases rest : frame.buffer.drop chunk.bytes.length with
  | nil =>
    rw [rest] at sized
    simp only [List.length_nil] at sized
    omega
  | cons byte stale =>
    refine ⟨stale ++ frame.beyond, ?_⟩
    rw [List.set_append_right _ _ (Nat.le_refl _), Nat.sub_self, List.set_cons_zero, List.append_assoc,
      List.cons_append]

theorem text_full (full : chunk.bytes.length = lineMax) :
    (frame.take chunk).text = cstring (chunk.bytes ++ frame.beyond) := by
  unfold Frame.take Frame.text
  rw [if_neg (by omega)]
  have used : frame.buffer.drop chunk.bytes.length = [] := by
    rw [List.drop_eq_nil_iff, frame.sized, full]
  simp only [Frame.read, used, List.append_nil]

/-- A chunk that leaves room for the terminator and has none is the text as it is. -/
theorem text_plain (short : chunk.bytes.length < lineMax) (plain : 0 ∉ chunk.bytes) :
    (frame.take chunk).text = some chunk.bytes := by
  obtain ⟨stale, printed⟩ := text_short frame short
  rw [printed, cstring_terminated plain]

theorem take_beyond : (frame.take chunk).beyond = frame.beyond := by
  unfold Frame.take
  split <;> rfl

end Turn

def Becomes (beyond : List UInt8) (chunk : Chunk) (piece : List UInt8) : Prop :=
  ∃ frame : Frame, frame.beyond = beyond ∧ (frame.take chunk).text = some piece

section Pieces
variable {beyond : List UInt8} {chunk : Chunk} {piece : List UInt8}

theorem Becomes.of_plain (short : chunk.bytes.length < lineMax) (plain : 0 ∉ chunk.bytes)
    (becomes : Becomes beyond chunk piece) : piece = chunk.bytes := by
  obtain ⟨frame, _, shown⟩ := becomes
  rw [text_plain frame short plain] at shown
  exact (Option.some.inj shown).symm

theorem Becomes.of_full (full : chunk.bytes.length = lineMax) (plain : 0 ∉ chunk.bytes)
    (becomes : Becomes beyond chunk piece) :
    ∃ stale, cstring beyond = some stale ∧ piece = chunk.bytes ++ stale := by
  obtain ⟨frame, rfl, shown⟩ := becomes
  rw [text_full frame full, cstring_append plain] at shown
  obtain ⟨stale, found, rfl⟩ := Option.map_eq_some_iff.mp shown
  exact ⟨stale, found, rfl⟩

theorem Becomes.longer (plain : 0 ∉ chunk.bytes) (becomes : Becomes beyond chunk piece) :
    ∃ stale, piece = chunk.bytes ++ stale := by
  by_cases short : chunk.bytes.length < lineMax
  · exact ⟨[], by rw [becomes.of_plain short plain, List.append_nil]⟩
  · obtain ⟨stale, _, same⟩ := becomes.of_full (by have fits := chunk.fits; omega) plain
    exact ⟨stale, same⟩

theorem Becomes.unterminated (becomes : Becomes beyond chunk piece) : 0 ∉ piece := by
  obtain ⟨frame, _, shown⟩ := becomes
  exact cstring_unterminated shown

theorem printChunks_pieces {printer : Printer} {frame : Frame} (after : frame.beyond = beyond)
    {chunks : List Chunk} {printed : List UInt8}
    (shown : printChunks printer frame chunks = some printed) :
    ∃ pieces, List.Forall₂ (Becomes beyond) chunks pieces ∧ printed = pieces.flatMap printer.write := by
  induction chunks generalizing frame printed with
  | nil => exact ⟨[], .nil, (Option.some.inj shown).symm⟩
  | cons chunk rest ih =>
    simp only [printChunks, Option.bind_eq_bind, Option.bind_eq_some_iff, Option.pure_def,
      Option.some.injEq] at shown
    obtain ⟨piece, here, more, later, rfl⟩ := shown
    obtain ⟨pieces, matched, rfl⟩ := ih ((take_beyond frame).trans after) later
    exact ⟨piece :: pieces, .cons ⟨frame, after, here⟩ matched, List.flatMap_cons.symm⟩

theorem watcherSocketStdout_printed (printer : Printer) (running loop : Bool) (frame : Frame)
    (chunks : List Chunk) :
    (watcherSocketStdout printer { out := true } running loop frame chunks).printed =
      printChunks printer frame chunks := by
  have readable : ({ out := true } : IoCondition) ≠ .onlyHup := by decide
  simp only [watcherSocketStdout, if_neg readable]
  split <;> rfl

theorem printAll_pieces {printer : Printer} {running loop : Bool} {frames : Nat → Frame}
    (after : ∀ i, (frames i).beyond = beyond) {callbacks : List (List Chunk)} {printed : List UInt8}
    (shown : printAll printer running loop frames callbacks = some printed) :
    ∃ pieces, List.Forall₂ (Becomes beyond) callbacks.flatten pieces ∧
      printed = pieces.flatMap printer.write := by
  induction callbacks generalizing printed with
  | nil => exact ⟨[], .nil, (Option.some.inj shown).symm⟩
  | cons chunks rest ih =>
    simp only [printAll, Option.bind_eq_bind, Option.bind_eq_some_iff, Option.pure_def,
      Option.some.injEq] at shown
    obtain ⟨first, here, more, later, rfl⟩ := shown
    rw [watcherSocketStdout_printed] at here
    obtain ⟨front, matched, rfl⟩ := printChunks_pieces (after _) here
    obtain ⟨back, others, rfl⟩ := ih later
    exact ⟨front ++ back, List.rel_append matched others, List.flatMap_append.symm⟩

end Pieces

section Whole
variable {printer : Printer} {chunks : List Chunk} {frame : Frame}

structure PlainChunk (printer : Printer) (chunk : Chunk) : Prop where
  short : chunk.bytes.length < lineMax
  unterminated : 0 ∉ chunk.bytes
  kept : printer.Keeps chunk.bytes

theorem printChunks_plain (plain : ∀ chunk ∈ chunks, PlainChunk printer chunk) :
    printChunks printer frame chunks = some (chunks.flatMap Chunk.bytes) := by
  induction chunks generalizing frame with
  | nil => rfl
  | cons chunk rest ih =>
    obtain ⟨here, later⟩ := List.forall_mem_cons.mp plain
    simp only [printChunks, text_plain frame here.short here.unterminated, ih later,
      Option.bind_eq_bind, Option.bind_some, Option.pure_def, Printer.write_of_keeps here.kept here.unterminated]
    rfl

theorem printsReceived_of_plain {callbacks : List (List Chunk)}
    (plain : ∀ chunks ∈ callbacks, ∀ chunk ∈ chunks, PlainChunk printer chunk) :
    PrintsReceived printer callbacks := by
  intro running loop frames
  induction callbacks with
  | nil => rfl
  | cons chunks rest ih =>
    obtain ⟨here, later⟩ := List.forall_mem_cons.mp plain
    simp only [printAll, watcherSocketStdout_printed, printChunks_plain here, ih later]
    rw [List.flatten_cons, List.flatMap_append]
    rfl

def blankFrame (beyond : List UInt8) : Frame where
  buffer := List.replicate lineMax 0
  beyond := beyond
  sized := List.length_replicate

theorem PrintsReceived.pieces {callbacks : List (List Chunk)} (received : PrintsReceived printer callbacks)
    (beyond : List UInt8) : ∃ pieces, List.Forall₂ (Becomes beyond) callbacks.flatten pieces ∧
      pieces.flatMap printer.write = callbacks.flatten.flatMap Chunk.bytes := by
  obtain ⟨pieces, matched, whole⟩ :=
    printAll_pieces (fun _ => rfl) (received true true fun _ => blankFrame beyond)
  exact ⟨pieces, matched, whole.symm⟩

-- No terminator is ever printed.
theorem PrintsReceived.unterminated {callbacks : List (List Chunk)} (received : PrintsReceived printer callbacks) :
    ∀ chunk ∈ callbacks.flatten, 0 ∉ chunk.bytes := by
  intro chunk member inside
  obtain ⟨pieces, matched, whole⟩ := received.pieces []
  have printed : 0 ∈ pieces.flatMap printer.write := by
    rw [whole]
    exact List.mem_flatMap.mpr ⟨chunk, member, inside⟩
  obtain ⟨piece, among, written⟩ := List.mem_flatMap.mp printed
  have each : List.Forall₂ (fun piece chunk => 0 ∉ piece ∧ Becomes [] chunk piece) pieces
      callbacks.flatten := matched.flip.imp fun _ _ becomes => ⟨Becomes.unterminated becomes, becomes⟩
  exact Printer.write_unterminated (((List.forall₂_and_left _ _).mp each).1 piece among) written

/-- A chunk after which two memories go on differently, and which is printed as it is both times. -/
theorem PlainChunk.of_written {chunk : Chunk} {piece piece' more more' rest : List UInt8}
    (plain : 0 ∉ chunk.bytes) (first : Becomes [1, 0] chunk piece) (second : Becomes [2, 0] chunk piece')
    (whole : printer.write piece ++ more = chunk.bytes ++ rest)
    (whole' : printer.write piece' ++ more' = chunk.bytes ++ rest) : PlainChunk printer chunk := by
  obtain ⟨stale, same⟩ := first.longer plain
  have kept : printer.Keeps chunk.bytes := Printer.keeps_of_write (same ▸ whole)
  refine ⟨?_, plain, kept⟩
  by_contra long
  have full : chunk.bytes.length = lineMax := by
    have fits := chunk.fits
    omega
  -- What follows in the memory is ASCII, and would be printed too.
  have written {after : UInt8} (ascii : after < 128) (set : after ≠ 0)
      {piece more : List UInt8} (becomes : Becomes [after, 0] chunk piece)
      (whole : printer.write piece ++ more = chunk.bytes ++ rest) : rest.head? = some after := by
    obtain ⟨stale, found, rfl⟩ := becomes.of_full full plain
    have one : cstring [after, 0] = some [after] := @cstring_terminated [after] [] (by simpa using set.symm)
    obtain rfl : stale = [after] := (Option.some.inj (one.symm.trans found)).symm
    have keeps : printer.Keeps (chunk.bytes ++ [after]) := by
      refine kept.imp id fun all byte member => ?_
      rcases List.mem_append.mp member with own | last
      · exact all byte own
      · exact List.mem_singleton.mp last ▸ ascii
    have free : 0 ∉ chunk.bytes ++ [after] := by
      simp [plain, set.symm]
    rw [Printer.write_of_keeps keeps free, List.append_assoc] at whole
    rw [← List.append_cancel_left whole]
    rfl
  have one := written (by decide) (by decide) first whole
  have two := written (by decide) (by decide) second whole'
  rw [one] at two
  cases two

theorem plain_of_written {pieces pieces' : List (List UInt8)} (plain : ∀ chunk ∈ chunks, 0 ∉ chunk.bytes)
    (first : List.Forall₂ (Becomes [1, 0]) chunks pieces)
    (second : List.Forall₂ (Becomes [2, 0]) chunks pieces')
    (whole : pieces.flatMap printer.write = chunks.flatMap Chunk.bytes)
    (whole' : pieces'.flatMap printer.write = chunks.flatMap Chunk.bytes) :
    ∀ chunk ∈ chunks, PlainChunk printer chunk := by
  induction first generalizing pieces' with
  | nil => simp
  | @cons chunk piece rest pieces becomes _ ih =>
    obtain _ | ⟨becomes', matched⟩ := second
    obtain ⟨here, later⟩ := List.forall_mem_cons.mp plain
    simp only [List.flatMap_cons] at whole whole'
    -- The chunk is plain, so both outputs begin with it, and the rest is about the rest.
    have same := PlainChunk.of_written here becomes becomes' whole whole'
    have written {beyond piece : List UInt8} (becomes : Becomes beyond chunk piece) :
        printer.write piece = chunk.bytes := by
      rw [becomes.of_plain same.short here, Printer.write_of_keeps same.kept here]
    rw [written becomes, List.append_cancel_left_eq] at whole
    rw [written becomes', List.append_cancel_left_eq] at whole'
    exact List.forall_mem_cons.mpr ⟨same, ih later matched whole whole'⟩

/-- What is received is printed, whatever the memory holds, exactly if every read leaves room for the
terminator, has none, and has nothing to convert. -/
theorem printsReceived_iff (printer : Printer) (callbacks : List (List Chunk)) :
    PrintsReceived printer callbacks ↔ ∀ chunks ∈ callbacks, ∀ chunk ∈ chunks, PlainChunk printer chunk := by
  constructor
  · intro received chunks member chunk inside
    obtain ⟨_, first, whole⟩ := received.pieces [1, 0]
    obtain ⟨_, second, whole'⟩ := received.pieces [2, 0]
    exact plain_of_written received.unterminated first second whole whole' chunk
      (List.mem_flatten_of_mem member inside)
  · exact printsReceived_of_plain

def terminatedChunk : Chunk := ⟨[72, 0, 105], by decide⟩

/-- Nothing after the terminator is printed. -/
theorem terminated_chunk_is_cut :
    printAll .replacing true true (fun _ => blankFrame []) [[terminatedChunk]] = some [72] ∧
      ¬ PrintsReceived .replacing [[terminatedChunk]] := by
  obtain ⟨stale, short⟩ := text_short (blankFrame []) (show terminatedChunk.bytes.length < lineMax by decide)
  have text : ((blankFrame []).take terminatedChunk).text = some [72] := short.trans rfl
  have shown : printAll .replacing true true (fun _ => blankFrame []) [[terminatedChunk]] = some [72] := by
    simp only [printAll, watcherSocketStdout_printed, printChunks, text]
    rfl
  refine ⟨shown, fun received => ?_⟩
  rw [received] at shown
  cases shown

end Whole

end Stdout

end ClrOci
