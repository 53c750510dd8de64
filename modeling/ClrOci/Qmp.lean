import ClrOci.Container
import ClrOci.Network

/-! What the exchanges over a QMP connection come to.

First the order in which messages go over a connection, then what the result of a
command says about its delivery, and last the order of the messages received.
-/

set_option autoImplicit false

namespace ClrOci

open Foundation

section Reception
variable {expected : Nat} {receipts : List Receipt}

theorem recvChunks_success {receipts : List Receipt} {received : Bytes} {total : Nat}
    {msgs : List Bytes} (ok : (recvChunks expected receipts received total msgs).exit = .returned true) :
    (recvChunks expected receipts received total msgs).msgs.length = expected := by
  induction receipts generalizing received total msgs with
  | nil => cases ok
  | cons receipt later ih =>
    cases receipt with
    | failed => cases ok
    | bytes chunk =>
      cases chunk with
      | nil => cases ok
      | cons first chunk =>
        rw [recvChunks] at ok ⊢
        · split
          · next reached => exact reached
          · next short =>
            rw [if_neg short] at ok
            exact ih ok
        all_goals exact fun impossible => nomatch impossible

theorem qmpMsgRecv_success (ok : (qmpMsgRecv expected receipts).exit = .returned true) :
    (qmpMsgRecv expected receipts).msgs.length = expected := by
  unfold qmpMsgRecv at ok ⊢
  split at ok
  · cases ok
  · next positive =>
    rw [if_neg positive]
    exact recvChunks_success ok

theorem qmpMsgRecv_one (ok : (qmpMsgRecv 1 receipts).exit = .returned true) :
    ∃ reply, (qmpMsgRecv 1 receipts).msgs = [reply] :=
  List.length_eq_one_iff.mp (qmpMsgRecv_success ok)

theorem takeMessages_eq {total fuel : Nat} {received : Bytes} (enough : received.length ≤ total) :
    takeMessages total fuel received = framesFrom (· == 0) msgSeparator fuel received := by
  induction fuel generalizing received with
  | zero => rfl
  | succ fuel ih =>
    have searched : strstrLen received total msgSeparator = (before? msgSeparator
        (received.takeWhile fun byte => !(byte == 0))).map List.length := by
      rw [strstrLen, List.take_of_length_le enough]
    cases found : before? msgSeparator (received.takeWhile fun byte => !(byte == 0)) with
    | none =>
      rw [takeMessages, framesFrom, searched, nextFrame, found]
      rfl
    | some frame =>
      have inside : frame <+: received :=
        ((List.prefix_append frame msgSeparator).trans (before?_within found)).trans
          (List.takeWhile_prefix _)
      have shorter : (received.drop (frame.length + msgSeparator.length)).length ≤ total := by
        rw [List.length_drop]
        omega
      rw [takeMessages, framesFrom, searched, nextFrame, found]
      simp only [Option.map_some, ih shorter]
      rw [← List.prefix_iff_eq_take.mp inside]

/-- A message as the protocol has them: without a zero byte and without the separator. -/
def CleanMessage (message : Bytes) : Prop := 0 ∉ message ∧ ¬ msgSeparator <:+: message

def qmpFrames : Bytes → List Bytes × Bytes := frames (· == 0) msgSeparator

theorem qmpFrames_messages {messages : List Bytes} (clean : ∀ message ∈ messages, CleanMessage message) :
    qmpFrames (messages.map (· ++ msgSeparator)).flatten = (messages, []) := by
  refine frames_joined (by decide) fun message member => ?_
  obtain ⟨visible, apart⟩ := clean message member
  apply nextFrame_of_pair (by decide) (by decide) _ apart
  intro byte inside
  exact beq_eq_false_iff_ne.mpr fun zero => visible (zero ▸ inside)

theorem recvChunks_bytes {chunk received : Bytes} {later : List Receipt} {total : Nat} {msgs : List Bytes}
    (filled : chunk ≠ []) (enough : received.length ≤ total) :
    recvChunks expected (.bytes chunk :: later) received total msgs =
      let taken := qmpFrames (received ++ chunk)
      if (msgs ++ taken.1).length = expected then
        ⟨if taken.2 = [] then .returned true else .aborted, msgs ++ taken.1, later⟩
      else recvChunks expected later taken.2 (total + chunk.length) (msgs ++ taken.1) := by
  have room : (received ++ chunk).length ≤ total + chunk.length := by
    rw [List.length_append]
    omega
  rw [recvChunks]
  · rw [takeMessages_eq room]
    rfl
  · exact filled

theorem recvChunks_messages {messages chunks : List Bytes} {later : List Receipt} {received seen : Bytes}
    {total : Nat} {msgs : List Bytes} (clean : ∀ message ∈ messages, CleanMessage message)
    (filled : ∀ chunk ∈ chunks, chunk ≠ []) (more : chunks ≠ [])
    (arrives : seen ++ chunks.flatten = (messages.map (· ++ msgSeparator)).flatten)
    (taken : qmpFrames seen = (msgs, received)) (enough : received.length ≤ total) :
    recvChunks messages.length (chunks.map .bytes ++ later) received total msgs =
      ⟨.returned true, messages, later⟩ := by
  induction chunks generalizing received seen total msgs with
  | nil => exact absurd rfl more
  | cons chunk rest ih =>
    have nonempty : msgSeparator ≠ [] := by decide
    obtain ⟨here, others⟩ := List.forall_mem_cons.mp filled
    rw [List.flatten_cons, ← List.append_assoc] at arrives
    have all := qmpFrames_messages clean
    rw [← arrives] at all
    have grown : qmpFrames (seen ++ chunk) = (msgs ++ (qmpFrames (received ++ chunk)).1,
        (qmpFrames (received ++ chunk)).2) := by
      have both : qmpFrames (seen ++ chunk) = ((qmpFrames seen).1 ++
          (qmpFrames ((qmpFrames seen).2 ++ chunk)).1, (qmpFrames ((qmpFrames seen).2 ++ chunk)).2) :=
        frames_append nonempty seen chunk
      rwa [taken] at both
    rw [List.map_cons, List.cons_append, recvChunks_bytes here enough]
    dsimp only
    split
    · next reached =>
      have count : (qmpFrames (seen ++ chunk)).1.length = messages.length := by rw [grown, ← reached]
      have last := (frames_settled nonempty all count).2
      have done : rest = [] := List.eq_nil_iff_forall_not_mem.mpr fun next member =>
        others next member (List.flatten_eq_nil_iff.mp last next member)
      rw [last, List.append_nil, grown, Prod.mk.injEq] at all
      rw [if_pos all.2, all.1, done]
      rfl
    · next short =>
      have unfinished : rest ≠ [] := by
        rintro rfl
        rw [List.flatten_nil, List.append_nil, grown, Prod.mk.injEq] at all
        exact short (congrArg List.length all.1)
      have room : (qmpFrames (received ++ chunk)).2.length ≤ total + chunk.length := by
        have inside : (qmpFrames (received ++ chunk)).2 <:+ received ++ chunk :=
          framesFrom_rest_suffix _ _
        have short := inside.length_le
        rw [List.length_append] at short
        exact short.trans (Nat.add_le_add_right enough chunk.length)
      exact ih others unfinished arrives grown room

theorem qmpMsgRecv_messages {messages chunks : List Bytes} {later : List Receipt} (some : messages ≠ [])
    (clean : ∀ message ∈ messages, CleanMessage message) (filled : ∀ chunk ∈ chunks, chunk ≠ [])
    (arrives : chunks.flatten = (messages.map (· ++ msgSeparator)).flatten) :
    qmpMsgRecv messages.length (chunks.map .bytes ++ later) = ⟨.returned true, messages, later⟩ := by
  have more : chunks ≠ [] := by
    rintro rfl
    obtain ⟨message, others, rfl⟩ := List.exists_cons_of_ne_nil some
    simp [msgSeparator] at arrives
  have positive : messages.length ≠ 0 := fun none => some (List.length_eq_zero_iff.mp none)
  rw [qmpMsgRecv, if_neg positive]
  have start : [] ++ chunks.flatten = (messages.map (· ++ msgSeparator)).flatten := arrives
  exact recvChunks_messages clean filled more start rfl (Nat.le_refl 0)

end Reception

section Handshake
variable (parse : JsonLoader)

def emptyReturn (message : Bytes) : Prop :=
  ((parse message).bind fun document => document.member? "return") = some (.object [])

/-- A greeting was received, the capabilities were sent after it, and the next message
received was the reply that confirms them. -/
def Handshake (before : List Exchange) : Prop :=
  ∃ early late greeting reply, before = early ++ .sent capabilities :: .received reply :: late ∧
    .received greeting ∈ early ∧ hasMember parse "QMP" greeting = true ∧ emptyReturn parse reply

/-- Every command on a connection comes after the handshake on that connection. -/
def CommandsFollowHandshake (trace : List Exchange) : Prop :=
  ∀ before after, ∀ command : QmpCommand,
    trace = before ++ .sent command.request.msg :: after → Handshake parse before

structure Call where
  peer : Peer
  request : QmpCommand
  pid : GPid

namespace Call

def greeting (call : Call) : Reception := qmpMsgRecv 1 call.peer.receipts

def answer (call : Call) : Reception := qmpMsgRecv 1 call.greeting.later

def Opens (call : Call) : Prop :=
  call.pid ≠ 0 ∧ call.peer.connects = true ∧ ∃ ok, call.greeting.exit = .returned ok

def Confirmed (call : Call) : Prop :=
  (call.peer.accepts capabilities).isSome ∧ call.answer.exit = .returned true ∧
    ∃ reply, call.answer.msgs = [reply] ∧ qmpCheckResult parse reply true = true

def Regular (call : Call) : Prop :=
  (∃ greeting ∈ call.greeting.msgs, hasMember parse "QMP" greeting = true) ∧
    ∀ reply, call.answer.msgs = [reply] → emptyReturn parse reply

def Sound (call : Call) (initialised : Bool) : Prop :=
  call.Opens → (initialised = true ∨ call.Confirmed parse) →
    (call.peer.accepts call.request.request.msg).isSome →
      initialised = false ∧ call.Regular parse

def run (call : Call) (initialised : Bool) : Run Session :=
  vmCommand parse call.peer call.request call.pid initialised

end Call

def runCalls : Bool → List Call → List (List Exchange)
  | _, [] => []
  | initialised, call :: rest =>
    let ran := call.run parse initialised
    ran.state.trace ::
      match ran.exit with
      | .returned _ => runCalls ran.state.initialised rest
      | _ => []

def SoundCalls : Bool → List Call → Prop
  | _, [] => True
  | initialised, call :: rest =>
    call.Sound parse initialised ∧
      let ran := call.run parse initialised
      match ran.exit with
      | .returned _ => SoundCalls ran.state.initialised rest
      | _ => True

section Trace
variable {parse} {peer : Peer} {session : Session}

theorem QmpCommand.ne_capabilities (command : QmpCommand) : command.request.msg ≠ capabilities := by
  cases command <;> decide

def Commandless (trace : List Exchange) : Prop :=
  ∀ command : QmpCommand, .sent command.request.msg ∉ trace

theorem commandless_received (msgs : List Bytes) : Commandless (msgs.map .received) := by
  intro command member
  obtain ⟨_, _, impossible⟩ := List.mem_map.mp member
  cases impossible

theorem Commandless.append {first second : List Exchange} (early : Commandless first)
    (late : Commandless second) : Commandless (first ++ second) := by
  intro command member
  rcases List.mem_append.mp member with found | found
  · exact early command found
  · exact late command found

theorem commandless_negotiation (msgs : List Bytes) :
    Commandless (.sent capabilities :: msgs.map .received) := by
  intro command member
  rcases List.mem_cons.mp member with same | later
  · injection same with same
    exact command.ne_capabilities same
  · exact commandless_received msgs command later

theorem Commandless.follow {trace : List Exchange} (none : Commandless trace) :
    CommandsFollowHandshake parse trace := by
  rintro before after command rfl
  exact absurd (List.mem_append_right before List.mem_cons_self) (none command)

theorem commandsFollowHandshake_iff {before : List Exchange} (none : Commandless before)
    (command : QmpCommand) (replies : List Bytes) :
    CommandsFollowHandshake parse
        (before ++ .sent command.request.msg :: replies.map .received) ↔ Handshake parse before := by
  constructor
  · exact fun follow => follow before _ command rfl
  · intro handshake first after other same
    obtain ⟨rfl, _, _⟩ := (List.append_cons_inj_of_notMem (none other)
      (commandless_received replies other)).mp same
    exact handshake

variable (parse) (peer)

theorem sendCommand_trace (request : Request) (ret : Bool) (session : Session) :
    (peer.accepts request.msg = none ∧
        (sendCommand parse peer request ret session).state.trace = session.trace) ∨
      ((peer.accepts request.msg).isSome ∧ ∃ replies : List Bytes,
        (sendCommand parse peer request ret session).state.trace =
          session.trace ++ .sent request.msg :: replies.map .received) := by
  cases accepted : peer.accepts request.msg with
  | none => exact Or.inl ⟨rfl, by simp [sendCommand, Session.send, accepted]⟩
  | some count =>
    refine Or.inr ⟨rfl, ?_⟩
    simp only [sendCommand, Session.send, accepted, Bool.not_true, Bool.false_eq_true, ↓reduceIte]
    split
    · exact ⟨[], rfl⟩
    · dsimp only [Session.recv]
      split <;> exact ⟨_, List.append_assoc _ _ _⟩

theorem negotiate_of_initialised (done : session.initialised = true) :
    negotiate parse peer session = ⟨.returned true, session⟩ := by
  rw [negotiate, if_pos done]

/-- The negotiation of a process that has not made one: what makes it succeed, and its trace. -/
theorem negotiate_fresh (fresh : session.initialised = false) :
    let got := qmpMsgRecv 1 session.receipts
    ((negotiate parse peer).Succeeds session ↔ (peer.accepts capabilities).isSome ∧
        got.exit = .returned true ∧
          ∃ reply, got.msgs = [reply] ∧ qmpCheckResult parse reply true = true) ∧
      ((negotiate parse peer).Succeeds session → (negotiate parse peer session).state =
        ⟨true, got.later, session.trace ++ .sent capabilities :: got.msgs.map .received⟩) ∧
      ∃ added, Commandless added ∧
        (negotiate parse peer session).state.trace = session.trace ++ added := by
  intro got
  cases accepted : peer.accepts capabilities with
  | none =>
    have refused : negotiate parse peer session = ⟨.returned false, session⟩ := by
      simp [negotiate, fresh, Session.send, accepted]
    have none : Commandless [] := fun _ member => nomatch member
    simp only [Action.Succeeds, refused]
    exact ⟨by simp, by simp, [], none, (List.append_nil _).symm⟩
  | some count =>
    have sent : session.send peer capabilities =
        (true, { session with trace := session.trace ++ [.sent capabilities] }) := by
      rw [Session.send, accepted]
    have received : Session.recv { session with trace := session.trace ++ [.sent capabilities] } 1 =
        (got, ⟨false, got.later, session.trace ++ .sent capabilities :: got.msgs.map .received⟩) := by
      simp [Session.recv, got, fresh]
    have none := commandless_negotiation got.msgs
    have idle : ¬ session.initialised = true := by simp [fresh]
    unfold Action.Succeeds negotiate
    rw [if_neg idle]
    simp only [sent, received, Bool.not_true, Bool.false_eq_true, ↓reduceIte]
    cases ended : got.exit with
    | returned ok =>
      cases ok with
      | true =>
        obtain ⟨reply, only⟩ := qmpMsgRecv_one ended
        rw [show got.msgs = [reply] from only] at none ⊢
        simp only [List.getElem?_cons_zero, List.cons.injEq, and_true]
        split
        · next confirmed => simpa [confirmed] using none
        · next unconfirmed => simpa [unconfirmed] using none
      | false => simp [none]
    | aborted => simp [none]
    | stuck => simp [none]

end Trace

section Calls
variable {parse} {call : Call} {initialised : Bool}

def Call.opened (call : Call) (initialised : Bool) : Session :=
  ⟨initialised, call.greeting.later, call.greeting.msgs.map .received⟩

theorem Call.run_of_opens (opens : call.Opens) :
    call.run parse initialised =
      qmpMsgSend parse call.peer call.request.request (call.opened initialised) := by
  obtain ⟨running, connected, ok, greeted⟩ := opens
  have welcomed : qmpCheckWelcome ⟨initialised, call.peer.receipts, []⟩ =
      ⟨.returned true, call.opened initialised⟩ := by
    have exit : (qmpMsgRecv 1 call.peer.receipts).exit = .returned ok := greeted
    simp only [qmpCheckWelcome, Session.recv, exit]
    rfl
  have done : qmpCheckWelcome.Succeeds ⟨initialised, call.peer.receipts, []⟩ := by
    rw [Action.Succeeds, welcomed]
  rw [run, vmCommand, if_neg running, connected]
  simp only [Bool.not_true, Bool.false_eq_true, ↓reduceIte]
  rw [Action.andThen_of_succeeds done, welcomed]

theorem Call.commandless_of_not_opens (closed : ¬ call.Opens) :
    Commandless (call.run parse initialised).state.trace := by
  have none : Commandless [] := fun _ member => nomatch member
  rw [run, vmCommand]
  split
  · exact none
  · next running =>
    split
    · exact none
    · next connected =>
      have stops : ¬ qmpCheckWelcome.Succeeds ⟨initialised, call.peer.receipts, []⟩ := by
        intro ok
        unfold Action.Succeeds qmpCheckWelcome at ok
        dsimp only [Session.recv] at ok
        split at ok
        · next verdict exit => exact closed ⟨running, by simpa using connected, verdict, exit⟩
        · next other => exact other true ok
      rw [Action.andThen_of_stops stops, qmpCheckWelcome]
      dsimp only [Session.recv]
      split <;> exact commandless_received _

theorem sent_not_mem_received (message : Bytes) (msgs : List Bytes) :
    Exchange.sent message ∉ msgs.map .received := by
  intro sent
  obtain ⟨_, _, impossible⟩ := List.mem_map.mp sent
  cases impossible

theorem handshake_iff {msgs : List Bytes} {reply : Bytes} :
    Handshake parse (msgs.map .received ++ .sent capabilities :: [reply].map .received) ↔
      (∃ greeting ∈ msgs, hasMember parse "QMP" greeting = true) ∧ emptyReturn parse reply := by
  constructor
  · rintro ⟨early, late, greeting, confirmed, same, greeted, qmp, empty⟩
    obtain ⟨rfl, _, after⟩ := (List.append_cons_inj_of_notMem (sent_not_mem_received _ msgs)
      (sent_not_mem_received _ [reply])).mp same
    cases after
    obtain ⟨message, member, given⟩ := List.mem_map.mp greeted
    exact ⟨⟨message, member, Exchange.received.inj given ▸ qmp⟩, empty⟩
  · rintro ⟨⟨greeting, member, qmp⟩, empty⟩
    exact ⟨_, [], greeting, reply, rfl, List.mem_map_of_mem member, qmp, empty⟩

variable (parse)

theorem Call.negotiated (call : Call) (initialised : Bool) :
    let negotiated := negotiate parse call.peer (call.opened initialised)
    (negotiated.exit = .returned true ↔ initialised = true ∨ call.Confirmed parse) ∧
      Commandless negotiated.state.trace ∧
      (negotiated.exit = .returned true →
        (Handshake parse negotiated.state.trace ↔ initialised = false ∧ call.Regular parse)) := by
  have greeted : Commandless (call.opened initialised).trace := commandless_received _
  cases initialised with
  | true =>
    rw [negotiate_of_initialised parse call.peer rfl]
    refine ⟨by simp, greeted, fun _ => ⟨?_, fun impossible => nomatch impossible.1⟩⟩
    rintro ⟨early, late, _, _, same, _⟩
    have sent : Exchange.sent capabilities ∈ (call.opened true).trace :=
      same ▸ List.mem_append_right early List.mem_cons_self
    exact absurd sent (sent_not_mem_received capabilities call.greeting.msgs)
  | false =>
    obtain ⟨succeeds, state, added, clean, trace⟩ :=
      negotiate_fresh parse call.peer (show (call.opened false).initialised = false from rfl)
    refine ⟨?_, trace ▸ greeted.append clean, fun ok => ?_⟩
    · exact succeeds.trans (by simp [Confirmed, answer, opened])
    · obtain ⟨_, _, reply, only, _⟩ := succeeds.mp ok
      rw [state ok, only]
      have confirmed : call.answer.msgs = [reply] := only
      have regular : call.Regular parse ↔
          (∃ greeting ∈ call.greeting.msgs, hasMember parse "QMP" greeting = true) ∧
            emptyReturn parse reply := by
        simp [Regular, confirmed]
      rw [regular, eq_self_iff_true, true_and]
      exact handshake_iff

/-- The single connection of a call: the command comes after the handshake if and only if
the call is sound. -/
theorem Call.follow_iff (call : Call) (initialised : Bool) :
    CommandsFollowHandshake parse (call.run parse initialised).state.trace ↔
      call.Sound parse initialised := by
  by_cases opens : call.Opens
  · obtain ⟨succeeds, clean, handshake⟩ := call.negotiated parse initialised
    rw [Call.run_of_opens opens, qmpMsgSend]
    by_cases ready : initialised = true ∨ call.Confirmed parse
    · have ok := succeeds.mpr ready
      rw [Action.andThen_of_succeeds ok]
      generalize (negotiate parse call.peer (call.opened initialised)).state = session at *
      rcases sendCommand_trace parse call.peer call.request.request
        (!(call.opened initialised).initialised) session with ⟨refused, same⟩ | ⟨taken, replies, sent⟩
      · rw [same]
        refine ⟨fun _ _ _ taken => ?_, fun _ => clean.follow⟩
        rw [refused] at taken
        cases taken
      · rw [sent, commandsFollowHandshake_iff clean, handshake ok]
        exact ⟨fun sound _ _ _ => sound, fun sound => sound opens ready taken⟩
    · rw [Action.andThen_of_stops fun ok => ready (succeeds.mp ok)]
      exact ⟨fun _ _ negotiated => absurd negotiated ready, fun _ => clean.follow⟩
  · have closed : Commandless (call.run parse initialised).state.trace :=
      Call.commandless_of_not_opens opens
    exact ⟨fun _ opened => absurd opened opens, fun _ => closed.follow⟩

/-- In every process, no command goes over a connection before its handshake if and only if
each call that gets its command through has negotiated itself, with a regular peer. -/
theorem commands_follow_handshake_iff (calls : List Call) :
    (∀ trace ∈ runCalls parse false calls, CommandsFollowHandshake parse trace) ↔
      SoundCalls parse false calls := by
  generalize false = initialised
  induction calls generalizing initialised with
  | nil => simp [runCalls, SoundCalls]
  | cons call rest ih =>
    rw [runCalls, SoundCalls, List.forall_mem_cons, call.follow_iff parse initialised]
    dsimp only
    cases (call.run parse initialised).exit with
    | returned ok => exact and_congr_right' (ih _)
    | aborted => simp
    | stuck => simp

end Calls

def sampleDocuments : List (Bytes × Json) :=
  [(bytesOf "\x7b\"QMP\": \x7b\x7d\x7d", .object [("QMP", .object [])]),
    (bytesOf "\x7b\"return\": \x7b\x7d\x7d", .object [("return", .object [])]),
    (bytesOf "\x7b\"event\": \"STOP\"\x7d", .object [("event", .string "STOP")])]

def sampleLoader : JsonLoader := fun message => sampleDocuments.lookup message

def greetingMessage : Bytes := bytesOf "\x7b\"QMP\": \x7b\x7d\x7d"
def returnMessage : Bytes := bytesOf "\x7b\"return\": \x7b\x7d\x7d"
def eventMessage : Bytes := bytesOf "\x7b\"event\": \"STOP\"\x7d"

def chunksOf (messages : List Bytes) : List Receipt :=
  messages.map fun message => .bytes (message ++ msgSeparator)

def Peer.talking (messages : List Bytes) : Peer where
  connects := true
  accepts := fun message => some message.length
  receipts := chunksOf messages

def pauseThenResume : List Call :=
  [⟨Peer.talking [greetingMessage, returnMessage, eventMessage, returnMessage], .pause, 4242⟩,
    ⟨Peer.talking [greetingMessage, eventMessage, returnMessage], .resume, 4242⟩]

/-- The second connection of a process gets its command without a negotiation. -/
theorem resume_skips_negotiation :
    let traces := runCalls sampleLoader false pauseThenResume
    traces[1]? = some [.received greetingMessage, .sent QmpCommand.resume.request.msg,
        .received eventMessage, .received returnMessage] ∧
      ¬ ∀ trace ∈ traces, CommandsFollowHandshake sampleLoader trace := by
  intro traces
  have second : traces[1]? = some [.received greetingMessage, .sent QmpCommand.resume.request.msg,
      .received eventMessage, .received returnMessage] := by decide +kernel
  refine ⟨second, fun follow => ?_⟩
  obtain ⟨early, late, _, _, same, _⟩ := follow _ (List.mem_of_getElem? second)
    [.received greetingMessage] _ .resume rfl
  have sent : Exchange.sent capabilities ∈ [Exchange.received greetingMessage] :=
    same ▸ List.mem_append_right early List.mem_cons_self
  exact sent_not_mem_received capabilities [greetingMessage] sent

end Handshake

section Delivery
variable (parse : JsonLoader) (peer : Peer)

def HasReturnObject (message : Bytes) : Prop :=
  ∃ members, ((parse message).bind fun document => document.member? "return") = some (.object members)

theorem qmpCheckResult_iff (message : Bytes) (expectEmpty : Bool) :
    qmpCheckResult parse message expectEmpty = true ↔ HasReturnObject parse message := by
  unfold qmpCheckResult HasReturnObject
  split
  · next members found => exact ⟨fun _ => ⟨members, found⟩, fun _ => rfl⟩
  · next other => exact ⟨nofun, fun ⟨members, found⟩ => absurd found (other members)⟩

/-- The messages that answer a request are complete, and the one taken for the reply has a
return object. -/
def Answered (request : Request) (receipts : List Receipt) : Prop :=
  let got := qmpMsgRecv request.expectedRespCount receipts
  got.exit = .returned true ∧ ∃ position reply, replyPosition request.expectedRespCount = some position ∧
    got.msgs[position]? = some reply ∧ HasReturnObject parse reply

variable {parse peer} {request : Request} {session : Session}

theorem sendCommand_refused (ret : Bool) (refused : peer.accepts request.msg = none) :
    sendCommand parse peer request ret session = ⟨.returned ret, session⟩ := by
  simp [sendCommand, Session.send, refused]

theorem sendCommand_accepted (ret : Bool) (taken : (peer.accepts request.msg).isSome)
    (expects : 0 < request.expectedRespCount) :
    ((sendCommand parse peer request ret).Succeeds session ↔ Answered parse request session.receipts) ∧
      (sendCommand parse peer request ret session).state.trace =
        session.trace ++ .sent request.msg ::
          (qmpMsgRecv request.expectedRespCount session.receipts).msgs.map .received := by
  obtain ⟨count, accepted⟩ := Option.isSome_iff_exists.mp taken
  have sent : session.send peer request.msg =
      (true, { session with trace := session.trace ++ [.sent request.msg] }) := by
    rw [Session.send, accepted]
  unfold Action.Succeeds sendCommand Answered
  simp only [sent, Session.recv, Bool.not_true, Bool.false_eq_true, ↓reduceIte, Nat.ne_of_gt expects]
  split
  · next ended =>
    refine ⟨?_, List.append_assoc _ _ _⟩
    simp only [ended, Exit.returned.injEq, Option.any_eq_true, qmpCheckResult_iff, true_and]
    constructor
    · rintro ⟨reply, picked, good⟩
      obtain ⟨position, at_position, found⟩ := Option.bind_eq_some_iff.mp picked
      exact ⟨position, reply, at_position, found, good⟩
    · rintro ⟨position, reply, at_position, found, good⟩
      exact ⟨reply, Option.bind_eq_some_iff.mpr ⟨position, at_position, found⟩, good⟩
  · next other =>
    refine ⟨⟨fun ended => absurd ended other, fun answered => absurd answered.1 other⟩, ?_⟩
    exact List.append_assoc _ _ _

theorem sendCommand_returns (ret : Bool) (ended : (qmpMsgRecv request.expectedRespCount
    session.receipts).exit = .returned true) :
    ∃ ok, (sendCommand parse peer request ret session).exit = .returned ok := by
  cases accepted : peer.accepts request.msg with
  | none => exact ⟨ret, by rw [sendCommand_refused ret accepted]⟩
  | some count =>
    have sent : session.send peer request.msg =
        (true, { session with trace := session.trace ++ [.sent request.msg] }) := by
      rw [Session.send, accepted]
    unfold sendCommand
    simp only [sent, Session.recv, ended, Bool.not_true, Bool.false_eq_true, ↓reduceIte]
    split <;> exact ⟨_, rfl⟩

/-- When a request succeeds: its send may also fail, after a negotiation in the same call. -/
theorem qmpMsgSend_succeeds_iff (expects : 0 < request.expectedRespCount) :
    (qmpMsgSend parse peer request).Succeeds session ↔
      (negotiate parse peer).Succeeds session ∧
        (peer.accepts request.msg = none ∧ session.initialised = false ∨
          (peer.accepts request.msg).isSome ∧
            Answered parse request (negotiate parse peer session).state.receipts) := by
  have both : (qmpMsgSend parse peer request).Succeeds session ↔ _ := Action.andThen_succeeds_iff
  rw [both]
  refine and_congr_right fun _ => ?_
  cases accepted : peer.accepts request.msg with
  | none => simp [Action.Succeeds, sendCommand_refused _ accepted]
  | some count =>
    have taken : (peer.accepts request.msg).isSome := by rw [accepted]; rfl
    rw [(sendCommand_accepted _ taken expects).1]
    simp

variable (parse peer request session)

/-- All bytes of the message were taken, and a reply with a return object came after it. -/
structure Delivered : Prop where
  whole : peer.accepts request.msg = some request.msg.length
  answered : ∃ before after reply, (qmpMsgSend parse peer request session).state.trace =
    before ++ .sent request.msg :: after ∧ .received reply ∈ after ∧ HasReturnObject parse reply

/-- The send of the command fails right after a negotiation that succeeded. -/
def SendLost : Prop :=
  session.initialised = false ∧ (negotiate parse peer).Succeeds session ∧
    peer.accepts request.msg = none

/-- A part of the message only was taken, and answered as if it had been the whole. -/
def ShortSendAnswered : Prop :=
  (∃ count, peer.accepts request.msg = some count ∧ count ≠ request.msg.length) ∧
    (negotiate parse peer).Succeeds session ∧
      Answered parse request (negotiate parse peer session).state.receipts

/-- Pause and resume record a new status for a delivered command only. -/
def TogglesRecordDelivered : Prop :=
  ∀ (env : Env) (world : World) (state : OciState) (pause : Bool),
    let command := if pause then QmpCommand.pause else QmpCommand.resume
    request = command.request →
    (env.host world.sys.clock).qmp command (state.commsPath.getD "") state.pid =
      (qmpMsgSend parse peer request session).exit →
    ∀ path content, .wrote path content ∈ world.sys.eventsSince
      (clrOciToggle env state pause world).state.sys → Delivered parse peer request session

variable {parse peer request session}

theorem Delivered.of_answered (expects : 0 < request.expectedRespCount)
    (negotiated : (negotiate parse peer).Succeeds session)
    (whole : peer.accepts request.msg = some request.msg.length)
    (answered : Answered parse request (negotiate parse peer session).state.receipts) :
    Delivered parse peer request session := by
  have taken : (peer.accepts request.msg).isSome := by rw [whole]; rfl
  obtain ⟨_, position, reply, _, found, good⟩ := answered
  refine ⟨whole, (negotiate parse peer session).state.trace, (qmpMsgRecv request.expectedRespCount
    (negotiate parse peer session).state.receipts).msgs.map .received, reply, ?_, ?_, good⟩
  · rw [qmpMsgSend, Action.andThen_of_succeeds negotiated]
    exact (sendCommand_accepted _ taken expects).2
  · exact List.mem_map_of_mem (List.mem_of_getElem? found)

theorem clrOciToggle_wrote {env : Env} {state : OciState} {pause : Bool} {world : World} {path : String}
    {content : Content} (wrote : .wrote path content ∈ world.sys.eventsSince
      (clrOciToggle env state pause world).state.sys) :
    (env.host world.sys.clock).qmp (if pause then .pause else .resume) (state.commsPath.getD "")
      state.pid = .returned true := by
  have idle : ∀ sys : Sys, sys.trace = world.sys.trace → world.sys.eventsSince sys = [] :=
    fun sys same => Sys.eventsSince_of_append (same.trans (List.append_nil _).symm)
  unfold clrOciToggle at wrote
  generalize (if pause then Status.paused else Status.running) = dest at wrote
  generalize (if pause then QmpCommand.pause else QmpCommand.resume) = command at wrote ⊢
  dsimp only at wrote
  split at wrote
  · rw [idle _ rfl] at wrote
    cases wrote
  · split at wrote
    · next answered => exact answered
    · change Event.wrote path content ∈ world.sys.eventsSince world.sys.tick at wrote
      rw [idle world.sys.tick rfl] at wrote
      cases wrote

/-- The result true means delivery if and only if no send is lost after a negotiation in the
same call, and no part of a message is answered as if it had been the whole. -/
theorem msg_send_delivers_iff (parse : JsonLoader) (peer : Peer) (request : Request) (session : Session)
    (expects : 0 < request.expectedRespCount) :
    ((qmpMsgSend parse peer request session).exit = .returned true →
        Delivered parse peer request session) ∧ TogglesRecordDelivered parse peer request session ↔
      ¬ SendLost parse peer request session ∧ ¬ ShortSendAnswered parse peer request session := by
  have succeeds : (qmpMsgSend parse peer request).Succeeds session ↔ _ :=
    qmpMsgSend_succeeds_iff expects
  constructor
  · rintro ⟨delivers, _⟩
    refine ⟨fun ⟨fresh, negotiated, lost⟩ => ?_, fun ⟨⟨count, taken, short⟩, negotiated, answered⟩ => ?_⟩
    · have whole := (delivers (succeeds.mpr ⟨negotiated, Or.inl ⟨lost, fresh⟩⟩)).whole
      rw [lost] at whole
      cases whole
    · have whole := (delivers (succeeds.mpr ⟨negotiated, Or.inr ⟨by rw [taken]; rfl, answered⟩⟩)).whole
      rw [taken, Option.some.injEq] at whole
      exact short whole
  · rintro ⟨kept, whole⟩
    have delivers : (qmpMsgSend parse peer request session).exit = .returned true →
        Delivered parse peer request session := by
      intro ok
      obtain ⟨negotiated, ⟨lost, fresh⟩ | ⟨taken, answered⟩⟩ := succeeds.mp ok
      · exact absurd ⟨fresh, negotiated, lost⟩ kept
      · obtain ⟨count, accepted⟩ := Option.isSome_iff_exists.mp taken
        have all : count = request.msg.length := by
          by_contra short
          exact whole ⟨⟨count, accepted, short⟩, negotiated, answered⟩
        exact Delivered.of_answered expects negotiated (all ▸ accepted) answered
    refine ⟨delivers, fun env world state pause _ outcome path content wrote => ?_⟩
    exact delivers (outcome.symm.trans (clrOciToggle_wrote wrote))

end Delivery

section Order
variable {parse : JsonLoader} {peer : Peer} {session : Session}

def QmpCommand.events : QmpCommand → Nat
  | .shutdown => 2
  | .pause | .resume => 1

/-- Where the comments of the source expect the reply: before the events of a shutdown, and
behind the event of a pause or a resume. -/
def QmpCommand.documentedPosition : QmpCommand → Nat
  | .shutdown => 0
  | .pause | .resume => 1

theorem QmpCommand.expectedRespCount_eq (command : QmpCommand) :
    command.request.expectedRespCount = command.events + 1 := by
  cases command <;> rfl

theorem QmpCommand.replyPosition_eq (command : QmpCommand) :
    replyPosition command.request.expectedRespCount = some command.documentedPosition := by
  cases command <;> rfl

/-- An asynchronous event: it has an event member, and no return member. -/
def EventMessage (parse : JsonLoader) (message : Bytes) : Prop :=
  hasMember parse "event" message = true ∧ hasMember parse "return" message = false

theorem EventMessage.not_hasReturnObject {message : Bytes} (event : EventMessage parse message) :
    ¬ HasReturnObject parse message := by
  rintro ⟨members, found⟩
  have present : hasMember parse "return" message = true := by
    rw [hasMember, found]
    rfl
  rw [event.2] at present
  cases present

/-- What a peer sends for a command: one reply, and the events of the command before and
after it, cut into chunks in any way. -/
structure Answers (parse : JsonLoader) (command : QmpCommand) (before : List Bytes) (reply : Bytes)
    (after : List Bytes) (chunks : List Bytes) : Prop where
  count : before.length + after.length = command.events
  events : ∀ message ∈ before ++ after, EventMessage parse message
  clean : ∀ message ∈ before ++ reply :: after, CleanMessage message
  filled : ∀ chunk ∈ chunks, chunk ≠ []
  arrives : chunks.flatten = ((before ++ reply :: after).map (· ++ msgSeparator)).flatten

theorem mem_of_elsewhere {A : Type} {before after : List A} {middle found : A} {position : Nat}
    (there : (before ++ middle :: after)[position]? = some found)
    (elsewhere : position ≠ before.length) : found ∈ before ++ after := by
  rw [List.getElem?_append] at there
  split at there
  · exact List.mem_append_left after (List.mem_of_getElem? there)
  · next beyond =>
    obtain ⟨offset, rfl⟩ := Nat.exists_eq_add_of_lt (show before.length < position by omega)
    rw [show before.length + offset + 1 - before.length = offset + 1 by omega,
      List.getElem?_cons_succ] at there
    exact List.mem_append_right before (List.mem_of_getElem? there)

theorem Answers.received {command : QmpCommand} {before after chunks : List Bytes} {reply : Bytes}
    (answers : Answers parse command before reply after chunks) (later : List Receipt) :
    qmpMsgRecv command.request.expectedRespCount (chunks.map .bytes ++ later) =
      ⟨.returned true, before ++ reply :: after, later⟩ := by
  have count : (before ++ reply :: after).length = command.request.expectedRespCount := by
    have events := answers.count
    rw [command.expectedRespCount_eq, List.length_append, List.length_cons]
    omega
  rw [← count]
  exact qmpMsgRecv_messages (by simp) answers.clean answers.filled answers.arrives

/-- A command is answered when the reply has a return object, and comes where it is looked for. -/
theorem Answers.answered_iff {command : QmpCommand} {before after chunks : List Bytes} {reply : Bytes}
    (answers : Answers parse command before reply after chunks) (later : List Receipt) :
    Answered parse command.request (chunks.map .bytes ++ later) ↔
      before.length = command.documentedPosition ∧ HasReturnObject parse reply := by
  simp only [Answered, answers.received, command.replyPosition_eq, Option.some.injEq, true_and]
  constructor
  · rintro ⟨position, found, rfl, there, good⟩
    by_cases place : before.length = command.documentedPosition
    · rw [← place, List.getElem?_append_right (Nat.le_refl _), Nat.sub_self] at there
      cases there
      exact ⟨place, good⟩
    · have event := answers.events found (mem_of_elsewhere there (Ne.symm place))
      exact absurd good event.not_hasReturnObject
  · rintro ⟨place, good⟩
    refine ⟨command.documentedPosition, reply, rfl, ?_, good⟩
    rw [← place, List.getElem?_append_right (Nat.le_refl _), Nat.sub_self]
    rfl

/-- When the socket takes a command after its negotiation and the peer answers it, the send
returns, and it returns true if and only if the reply has a return object and comes where the
source documents it. -/
theorem documented_order_decides (parse : JsonLoader) (peer : Peer) (session : Session)
    (command : QmpCommand) (negotiated : (negotiate parse peer).Succeeds session)
    (taken : (peer.accepts command.request.msg).isSome) {before after chunks : List Bytes}
    {reply : Bytes} (answers : Answers parse command before reply after chunks) (later : List Receipt)
    (receipts : (negotiate parse peer session).state.receipts = chunks.map .bytes ++ later) :
    ∃ ok, (qmpMsgSend parse peer command.request session).exit = .returned ok ∧
      (ok = true ↔ before.length = command.documentedPosition ∧ HasReturnObject parse reply) := by
  have expects : 0 < command.request.expectedRespCount := by
    rw [command.expectedRespCount_eq]
    omega
  rw [qmpMsgSend, Action.andThen_of_succeeds negotiated]
  generalize (negotiate parse peer session).state = ready at receipts ⊢
  have ended : (qmpMsgRecv command.request.expectedRespCount ready.receipts).exit = .returned true := by
    rw [receipts, answers.received]
  have returns : ∃ ok, (sendCommand parse peer command.request (!session.initialised) ready).exit =
      .returned ok := sendCommand_returns _ ended
  obtain ⟨ok, exit⟩ := returns
  have succeeds : (sendCommand parse peer command.request (!session.initialised)).Succeeds ready ↔ _ :=
    (sendCommand_accepted _ taken expects).1
  rw [receipts, answers.answered_iff, Action.Succeeds, exit, Exit.returned.injEq] at succeeds
  exact ⟨ok, exit, succeeds⟩

end Order

-- A process that has negotiated before, on a connection with these messages to come.
def readySession (messages : List Bytes) : Session := ⟨true, chunksOf messages, []⟩

theorem returnMessage_good : HasReturnObject sampleLoader returnMessage :=
  (qmpCheckResult_iff sampleLoader returnMessage false).mp (by decide +kernel)

theorem pause_answered_in_order :
    (qmpMsgSend sampleLoader (Peer.talking []) QmpCommand.pause.request
      (readySession [eventMessage, returnMessage])).exit = .returned true := by
  have answers : Answers sampleLoader .pause [eventMessage] returnMessage []
      [eventMessage ++ msgSeparator, returnMessage ++ msgSeparator] := {
    count := rfl
    events := by unfold EventMessage; decide +kernel
    clean := by unfold CleanMessage; decide +kernel
    filled := by decide
    arrives := by decide +kernel }
  obtain ⟨ok, exit, verdict⟩ := documented_order_decides sampleLoader (Peer.talking [])
    (readySession [eventMessage, returnMessage]) .pause (by decide +kernel) rfl answers [] (by rfl)
  rw [exit, verdict.mpr ⟨rfl, returnMessage_good⟩]

/-- The reply of a pause comes before its event, and the command is taken for a failure. -/
theorem pause_fails_on_early_reply :
    let session := readySession [returnMessage, eventMessage]
    HasReturnObject sampleLoader returnMessage ∧ EventMessage sampleLoader eventMessage ∧
      (qmpMsgSend sampleLoader (Peer.talking []) QmpCommand.pause.request session).exit =
        .returned false :=
  ⟨returnMessage_good, by unfold EventMessage; decide +kernel, by decide +kernel⟩

theorem pause_delivered :
    (qmpMsgSend sampleLoader (Peer.talking []) QmpCommand.pause.request
        (readySession [eventMessage, returnMessage])).exit = .returned true ∧
      Delivered sampleLoader (Peer.talking []) QmpCommand.pause.request
        (readySession [eventMessage, returnMessage]) := by
  have ok : (qmpMsgSend sampleLoader (Peer.talking []) QmpCommand.pause.request
      (readySession [eventMessage, returnMessage])).exit = .returned true := by decide +kernel
  have delivers := (msg_send_delivers_iff sampleLoader (Peer.talking []) QmpCommand.pause.request
    (readySession [eventMessage, returnMessage]) (by decide)).mpr
      ⟨fun lost => (nomatch lost.1), fun short => ?_⟩
  · exact ⟨ok, delivers.1 ok⟩
  · obtain ⟨⟨count, taken, different⟩, _⟩ := short
    cases taken
    exact different rfl

def Peer.lossy : Peer where
  connects := true
  accepts := fun message => if message = capabilities then some message.length else none
  receipts := chunksOf [greetingMessage, returnMessage]

/-- The command of a pause is not sent, and true is returned. -/
theorem pause_reports_lost_command :
    let session : Session := ⟨false, chunksOf [returnMessage], [.received greetingMessage]⟩
    (qmpMsgSend sampleLoader Peer.lossy QmpCommand.pause.request session).exit = .returned true ∧
      (qmpMsgSend sampleLoader Peer.lossy QmpCommand.pause.request session).state.trace =
        [.received greetingMessage, .sent capabilities, .received returnMessage] ∧
      ¬ Delivered sampleLoader Peer.lossy QmpCommand.pause.request session := by
  refine ⟨by decide +kernel, by decide +kernel, fun delivered => ?_⟩
  have whole := delivered.whole
  revert whole
  decide +kernel

end ClrOci
