import ClrOci.Foundation.Framing
import ClrOci.Host

/-! Talking to a running hypervisor over its QMP socket.

A message is one line of JSON, ended by a separator. Parsing is a parameter: it gives
a document, or none for text that is not JSON; an empty document counts as null.
-/

set_option autoImplicit false

namespace ClrOci

open Foundation

abbrev Bytes := List UInt8

def bytesOf (text : String) : Bytes := text.toList.map fun c => UInt8.ofNat c.toNat

-- `CLR_OCI_MSG_SEPARATOR`.
def msgSeparator : Bytes := [13, 10]

/-- What `g_socket_receive` gives: bytes, none at the end of the stream, or an error. -/
inductive Receipt where
  | bytes (chunk : Bytes)
  | failed

/-- `g_strstr_len`: the search ends after the given length, and at a zero byte. -/
def strstrLen (haystack : Bytes) (length : Nat) (needle : Bytes) : Option Nat :=
  (before? needle ((haystack.take length).takeWhile fun byte => !(byte == 0))).map List.length

def takeMessages (total : Nat) : Nat → Bytes → List Bytes × Bytes
  | 0, received => ([], received)
  | fuel + 1, received =>
    match strstrLen received total msgSeparator with
    | none => ([], received)
    | some length =>
      let others := takeMessages total fuel (received.drop (length + msgSeparator.length))
      (received.take length :: others.1, others.2)

structure Reception where
  exit : Exit
  msgs : List Bytes
  -- What the socket has still to give.
  later : List Receipt

-- The loop over the chunks. At the end of the stream there is no error whose message
-- could be printed, and a socket that gives nothing more is waited for.
def recvChunks (expected : Nat) : List Receipt → Bytes → Nat → List Bytes → Reception
  | [], _, _, msgs => ⟨.stuck, msgs, []⟩
  | .failed :: later, _, _, msgs => ⟨.returned false, msgs, later⟩
  | .bytes [] :: later, _, _, msgs => ⟨.aborted, msgs, later⟩
  | .bytes chunk :: later, received, total, msgs =>
    let all := received ++ chunk
    let taken := takeMessages (total + chunk.length) all.length all
    if (msgs ++ taken.1).length = expected then
      -- All received data should have been handled.
      ⟨if taken.2 = [] then .returned true else .aborted, msgs ++ taken.1, later⟩
    else recvChunks expected later taken.2 (total + chunk.length) (msgs ++ taken.1)

/-- `clr_oci_qmp_msg_recv`. -/
def qmpMsgRecv (expected : Nat) (receipts : List Receipt) : Reception :=
  if expected = 0 then ⟨.aborted, [], receipts⟩ else recvChunks expected receipts [] 0 []

abbrev JsonLoader := Bytes → Option Json

def hasMember (parse : JsonLoader) (name : String) (message : Bytes) : Bool :=
  ((parse message).bind fun document => document.member? name).isSome

/-- `clr_oci_qmp_check_result`: members where none are expected are logged, and the
result is still that of the check before. -/
def qmpCheckResult (parse : JsonLoader) (result : Bytes) (_expectEmpty : Bool) : Bool :=
  match (parse result).bind fun document => document.member? "return" with
  | some (.object _) => true
  | _ => false

structure Peer where
  connects : Bool
  -- How many bytes of a message a send takes, or none when it fails.
  accepts : Bytes → Option Nat
  receipts : List Receipt

inductive Exchange where
  | received (message : Bytes)
  | sent (message : Bytes)
  deriving DecidableEq

/-- A connection in use, with what went over it, and the static flag of the process. -/
structure Session where
  initialised : Bool
  receipts : List Receipt
  trace : List Exchange

namespace Session

def recv (session : Session) (expected : Nat) : Reception × Session :=
  let got := qmpMsgRecv expected session.receipts
  (got, { session with
    receipts := got.later, trace := session.trace ++ got.msgs.map .received })

def send (session : Session) (peer : Peer) (message : Bytes) : Bool × Session :=
  match peer.accepts message with
  | none => (false, session)
  | some _ => (true, { session with trace := session.trace ++ [.sent message] })

end Session

structure Request where
  msg : Bytes
  expectedRespCount : Nat
  expectEmpty : Bool

def capabilities : Bytes := bytesOf "\x7b \"execute\": \"qmp_capabilities\" \x7d"

def QmpCommand.request : QmpCommand → Request
  | .shutdown => ⟨bytesOf "\x7b \"execute\": \"system_powerdown\" \x7d", 3, false⟩
  | .pause => ⟨bytesOf "\x7b \"execute\": \"stop\" \x7d", 2, false⟩
  | .resume => ⟨bytesOf "\x7b \"execute\": \"cont\" \x7d", 2, false⟩

def replyPosition : Nat → Option Nat
  | 1 => some 0
  | 2 => some 1
  | 3 => some 0
  | _ => none

variable (parse : JsonLoader) (peer : Peer)

def negotiate : Action Session := fun session =>
  if session.initialised then ⟨.returned true, session⟩
  else
    let sent := session.send peer capabilities
    if !sent.1 then ⟨.returned false, sent.2⟩
    else
      let got := sent.2.recv 1
      match got.1.exit, got.1.msgs[0]? with
      | .returned true, some reply =>
        if qmpCheckResult parse reply true then
          ⟨.returned true, { got.2 with initialised := true }⟩
        else ⟨.returned false, got.2⟩
      | .returned _, _ => ⟨.returned false, got.2⟩
      | stopped, _ => ⟨stopped, got.2⟩

def sendCommand (request : Request) (ret : Bool) : Action Session := fun session =>
  let sent := session.send peer request.msg
  if !sent.1 then ⟨.returned ret, sent.2⟩
  else if request.expectedRespCount = 0 then ⟨.returned true, sent.2⟩
  else
    let got := sent.2.recv request.expectedRespCount
    match got.1.exit with
    | .returned true =>
      let reply := (replyPosition request.expectedRespCount).bind fun position => got.1.msgs[position]?
      ⟨.returned (reply.any fun reply => qmpCheckResult parse reply request.expectEmpty), got.2⟩
    | stopped => ⟨stopped, got.2⟩

/-- `clr_oci_qmp_msg_send`: the result is true from a negotiation on. -/
def qmpMsgSend (request : Request) : Action Session := fun session =>
  (negotiate parse peer).andThen (sendCommand parse peer request (!session.initialised)) session

/-- `clr_oci_qmp_check_welcome`: the greeting is checked, and true is returned anyway. -/
def qmpCheckWelcome : Action Session := fun session =>
  let got := session.recv 1
  match got.1.exit with
  | .returned _ => ⟨.returned true, got.2⟩
  | stopped => ⟨stopped, got.2⟩

def QmpCommand.unconnected : QmpCommand → Exit
  | .shutdown => .returned false
  | .pause | .resume => .aborted

/-- `clr_oci_vm_shutdown`, `clr_oci_vm_pause` and `clr_oci_vm_resume`, each with a
connection of its own from `clr_oci_vm_conn_new`. -/
def vmCommand (request : QmpCommand) (pid : GPid) (initialised : Bool) : Run Session :=
  let session : Session := ⟨initialised, peer.receipts, []⟩
  if pid = 0 then ⟨.aborted, session⟩
  else if !peer.connects then ⟨request.unconnected, session⟩
  else qmpCheckWelcome.andThen (qmpMsgSend parse peer request.request) session

end ClrOci
