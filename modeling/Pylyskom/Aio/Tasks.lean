import Pylyskom.Aio.Client
import Pylyskom.Transitions

/-!
# The tasks of the asynchronous client

Any number of tasks that call `request`, the response receiver and the asyncmsg receiver
share one `AioClient`. A step is what one task does between two points at which it can
be suspended, or something that happens to the stream. Ready tasks step in any order.
-/

namespace Pylyskom

/-- Where a task in `_request` is suspended, or how it has ended. -/
inductive RequestState : Type
  /-- Waits for the send lock. -/
  | starting
  /-- In the `drain` of `send_request`, with the send lock. -/
  | draining (refNo : ℕ)
  /-- Waits for the event of its ref-no. -/
  | waiting (refNo : ℕ)
  /-- `_handle_reply` has returned or raised. -/
  | done (refNo : ℕ) (result : Except Exn RequestResult)
  /-- Ended without a ref-no. -/
  | failed (e : Exn)
  /-- Ended after the request was written, and before it had an event. -/
  | failedDraining (refNo : ℕ) (e : Exn)
  /-- Ended with its event left behind. -/
  | failedWaiting (refNo : ℕ) (e : Exn)

namespace RequestState

/-- The ref-no that the request was given. -/
def refNo : RequestState → Option ℕ
  | starting => none
  | draining refNo => some refNo
  | waiting refNo => some refNo
  | done refNo _ => some refNo
  | failed _ => none
  | failedDraining refNo _ => some refNo
  | failedWaiting refNo _ => some refNo

/-- The ref-no whose event is the request's. -/
def registered : RequestState → Option ℕ
  | waiting refNo => some refNo
  | failedWaiting refNo _ => some refNo
  | _ => none

def holdsLock : RequestState → Bool
  | draining _ => true
  | _ => false

/-- A `CancelledError` at the point of suspension; `async with` releases the lock. -/
def cancel : RequestState → Option RequestState
  | starting => some (failed (.builtinError .cancelledError))
  | draining refNo => some (failedDraining refNo (.builtinError .cancelledError))
  | waiting refNo => some (failedWaiting refNo (.builtinError .cancelledError))
  | _ => none

end RequestState

/-- A task that has called `request`. -/
structure RequestCall where
  request : Request
  state : RequestState

/-- Where the response receiver is suspended. -/
inductive Receiver : Type
  /-- At the call of `read_response`. -/
  | polling
  /-- In `_tcp_stream_reader.read(1024)`. -/
  | reading
  /-- At the call of `_receive_response`. -/
  | received (response : Response × Bytes)
  | ended

/-- The receiver goes on after `_receive_response`, unless that has raised. -/
def Receiver.after : Except Exn Unit → Receiver
  | .ok () => polling
  | .error _ => ended

/-- Where the asyncmsg receiver is suspended. -/
inductive Handler : Type
  /-- In `_asyncmsg_queue.get()`. -/
  | getting
  /-- At the call of `_handle_async_message`. -/
  | holding (msg : AsyncMessage)
  /-- In the handler function. -/
  | handling (msg : AsyncMessage)
  | ended

/-- How far `close` has come. -/
inductive Phase : Type
  | connected
  /-- The two receivers have been cancelled. -/
  | closing
  /-- `_conn` is `None`. -/
  | closed
  deriving DecidableEq

/-- A client, its tasks and the history of the connection. -/
structure System where
  client : AioClient
  phase : Phase
  requests : List RequestCall
  receiver : Receiver
  handler : Handler
  /-- The server has closed its end of the stream. -/
  eof : Bool
  /-- The calls of all requests that were ever given a ref-no. -/
  issued : Dict ℕ ℕ
  /-- The messages that a well-behaved server has sent. -/
  sent : List ServerMessage
  /-- The responses that `_receive_response` was called with. -/
  received : List Response
  /-- The messages that `_handle_async_message` was called with. -/
  handled : List AsyncMessage

/-- The labels of the steps. A number tells the task that takes the step. -/
inductive Action : Type
  | call (request : Request)
  | send (i : ℕ)
  | refuse (i : ℕ)
  | register (i : ℕ)
  | wake (i : ℕ)
  | poll
  | read
  | endOfStream
  | readFails
  | receive
  | serverSends (m : ServerMessage)
  | serverBytes (data : Bytes)
  | serverEof
  | getMessage
  | handle
  | finish (raised : Option Exn)
  | cancel (i : ℕ)
  | drainFails (i : ℕ)
  | closeTasks
  | disconnect

namespace System

/-- The client after `connect`, before any other task has run. -/
def connected (user : Bytes) : System where
  client :=
    { conn := .connected user
      replyQueue := ∅
      outstandingRequestsEvents := ∅
      asyncmsgQueue := [] }
  phase := .connected
  requests := []
  receiver := .polling
  handler := .getting
  eof := false
  issued := ∅
  sent := []
  received := []
  handled := []

def setConn (s : System) (conn : AioConnection) : System :=
  { s with client := { s.client with conn } }

/-- A task comes to a new state. -/
def setState (s : System) (i : ℕ) (q : RequestCall) (state : RequestState) : System :=
  { s with requests := s.requests.set i { q with state } }

/-- No task is inside `async with self._send_lock`. -/
def lockFree (s : System) : Bool := s.requests.all fun q => !q.state.holdsLock

/-- `send_request` up to its `drain`. -/
def send (s : System) (i : ℕ) (q : RequestCall) : System :=
  match s.client.conn.sendRequest q.request with
  | (.error e, conn) => (s.setConn conn).setState i q (.failed e)
  | (.ok refNo, conn) =>
    { (s.setConn conn).setState i q (.draining refNo) with
      issued := s.issued.set refNo q.request.callNo }

/-- From the end of the `drain` up to the wait for the event. -/
def register (s : System) (i : ℕ) (q : RequestCall) (refNo : ℕ) : System :=
  match s.client.addEvent refNo with
  | (.error e, client) => { s with client }.setState i q (.failedDraining refNo e)
  | (.ok (), client) => { s with client }.setState i q (.waiting refNo)

/-- From the wait for the event to the end. -/
def wake (s : System) (i : ℕ) (q : RequestCall) (refNo : ℕ) : System :=
  let call := s.client.endRequest refNo false
  { s with client := call.2 }.setState i q (.done refNo call.1)

/-- One try to parse a response, and what comes of it; an exception ends the receiver. -/
def tryParse (s : System) : System :=
  match s.client.conn.tryParseResponse with
  | .returned response conn => { s.setConn conn with receiver := .received response }
  | .raised _ conn => { s.setConn conn with receiver := .ended }
  | .starved conn => { s.setConn conn with receiver := .reading }

/-- The stream delivers data. -/
def read (s : System) : System :=
  let data := s.client.conn.tcpStreamReader.recv 1024
  (s.setConn (s.client.conn.appendData data.1 data.2)).tryParse

/-- One call of `_receive_response`. -/
def receive (s : System) (response : Response × Bytes) : System :=
  let call := s.client.receiveResponse response
  { s with
    client := call.2
    received := s.received ++ [response.1]
    receiver := .after call.1 }

/-- More bytes are on their way to the client, in any pieces. -/
def arrive (s : System) (tcpStreamReader : Pieces) : System :=
  s.setConn { s.client.conn with tcpStreamReader }

/-- The calls that the server has not answered, under their ref-nos. -/
def unanswered (s : System) (refNo : ℕ) : Option ℕ :=
  if some refNo ∈ s.sent.map ServerMessage.refNo then none else s.issued.get? refNo

end System

/-- One step of the system. -/
inductive Step : System → Action → System → Prop
  | call {s : System} (request : Request) :
      Step s (.call request)
        { s with requests := s.requests ++ [{ request, state := .starting }] }
  | send {s : System} {i : ℕ} {q : RequestCall} (found : s.requests[i]? = some q)
      (starting : q.state = .starting) (free : s.lockFree = true) (usable : s.phase ≠ .closed) :
      Step s (.send i) (s.send i q)
  /-- `self._conn` is `None`. -/
  | refuse {s : System} {i : ℕ} {q : RequestCall} (found : s.requests[i]? = some q)
      (starting : q.state = .starting) (free : s.lockFree = true) (closed : s.phase = .closed) :
      Step s (.refuse i) (s.setState i q (.failed (.builtinError .attributeError)))
  | register {s : System} {i : ℕ} {q : RequestCall} {refNo : ℕ} (found : s.requests[i]? = some q)
      (draining : q.state = .draining refNo) : Step s (.register i) (s.register i q refNo)
  | wake {s : System} {i : ℕ} {q : RequestCall} {refNo : ℕ} (found : s.requests[i]? = some q)
      (waiting : q.state = .waiting refNo)
      (set : s.client.outstandingRequestsEvents.get? refNo = some true) :
      Step s (.wake i) (s.wake i q refNo)
  | poll {s : System} (polling : s.receiver = .polling) : Step s .poll s.tryParse
  | read {s : System} (reading : s.receiver = .reading)
      (data : s.client.conn.tcpStreamReader.bytes ≠ []) : Step s .read s.read
  /-- `len(data) == 0` -/
  | endOfStream {s : System} (reading : s.receiver = .reading)
      (nothing : s.client.conn.tcpStreamReader.bytes = []) (eof : s.eof = true) :
      Step s .endOfStream { s with receiver := .ended }
  | readFails {s : System} (reading : s.receiver = .reading) :
      Step s .readFails { s with receiver := .ended }
  | receive {s : System} {response : Response × Bytes}
      (received : s.receiver = .received response) : Step s .receive (s.receive response)
  /-- A well-behaved server answers a request that it has not answered, or sends an
  asynchronous message. -/
  | serverSends {s : System} {m : ServerMessage} {resp : Response} {line : Bytes}
      {tcpStreamReader : Pieces} (isOpen : s.eof = false) (means : m.Means s.unanswered resp)
      (written : line ∈ m.lines)
      (arriving : tcpStreamReader.bytes = s.client.conn.tcpStreamReader.bytes ++ line) :
      Step s (.serverSends m) { s.arrive tcpStreamReader with sent := s.sent ++ [m] }
  /-- Any server sends any bytes. -/
  | serverBytes {s : System} {data : Bytes} {tcpStreamReader : Pieces} (isOpen : s.eof = false)
      (arriving : tcpStreamReader.bytes = s.client.conn.tcpStreamReader.bytes ++ data) :
      Step s (.serverBytes data) (s.arrive tcpStreamReader)
  | serverEof {s : System} : Step s .serverEof { s with eof := true }
  | getMessage {s : System} {msg : AsyncMessage} {rest : List AsyncMessage}
      (getting : s.handler = .getting) (first : s.client.asyncmsgQueue = msg :: rest) :
      Step s .getMessage
        { s with client := { s.client with asyncmsgQueue := rest }, handler := .holding msg }
  | handle {s : System} {msg : AsyncMessage} (holding : s.handler = .holding msg) :
      Step s .handle { s with handler := .handling msg, handled := s.handled ++ [msg] }
  /-- An exception of the handler function is only logged. -/
  | finish {s : System} {msg : AsyncMessage} (handling : s.handler = .handling msg)
      (raised : Option Exn) : Step s (.finish raised) { s with handler := .getting }
  | cancel {s : System} {i : ℕ} {q : RequestCall} {state : RequestState}
      (found : s.requests[i]? = some q) (cancelled : q.state.cancel = some state) :
      Step s (.cancel i) (s.setState i q state)
  | drainFails {s : System} {i : ℕ} {q : RequestCall} {refNo : ℕ} {e : Exn}
      (found : s.requests[i]? = some q) (draining : q.state = .draining refNo) :
      Step s (.drainFails i) (s.setState i q (.failedDraining refNo e))
  | closeTasks {s : System} (connected : s.phase = .connected) :
      Step s .closeTasks { s with phase := .closing, receiver := .ended, handler := .ended }
  | disconnect {s : System} (closing : s.phase = .closing) :
      Step s .disconnect { s with phase := .closed }

/-- All steps but those of a server that sends anything at all, and of `close`. -/
def Action.orderly : Action → Bool
  | serverBytes _ | closeTasks => false
  | _ => true

/-- The steps of the tasks and of a well-behaved server, and the cancellation of requesting
tasks; the connection is neither lost nor closed. -/
def Action.connected : Action → Bool
  | call _ | send _ | register _ | wake _ | cancel _ => true
  | poll | read | receive | serverSends _ => true
  | getMessage | handle | finish _ => true
  | _ => false

end Pylyskom
