import Pylyskom.Client
import Pylyskom.Wire
import Pylyskom.Transitions

/-!
# Nested requests

The handler function of the blocking client may make requests of its own, and their loops
may run the handler again. The calls that are going on form a stack; only the innermost
one takes steps. A loop that reads the reply to an outer request leaves it in a queue,
where the outer loop finds it.
-/

namespace Pylyskom

/-- A call that is going on. -/
inductive Frame : Type
  /-- `request`, in the loop of `_wait_and_dequeue`. -/
  | waiting (refNo : ℕ) (request : Request)
  /-- The handler function. It catches the error replies of its requests. -/
  | handling (msg : AsyncMessage)

def Frame.refNo : Frame → Option ℕ
  | waiting refNo _ => some refNo
  | handling _ => none

/-- A request that has returned or raised. -/
structure Finished where
  refNo : ℕ
  request : Request
  result : Except Exn OkReply

/-- A client with the calls that are going on, the innermost one first, and the history
of the connection. -/
structure Nest where
  client : Client
  stack : List Frame
  /-- The requests that were given a ref-no. -/
  issued : Dict ℕ Request
  /-- The messages that the server has sent. -/
  sent : List ServerMessage
  /-- The responses that were read. -/
  read : List Response
  finished : List Finished
  /-- An exception that no handler catches has ended the program. -/
  raised : Option Exn

inductive NestAction : Type
  | request (req : Request)
  | read
  | dequeue
  | endHandler
  | serverSends (m : ServerMessage)

namespace Nest

/-- A client on a new connection. -/
def start : Nest where
  client := .init
    { buffer := .init .eof, refNo := 0, outstandingRequests := ∅, written := [] }
  stack := []
  issued := ∅
  sent := []
  read := []
  finished := []
  raised := none

/-- The program, or the handler function, calls `request`. -/
def request (s : Nest) (req : Request) : Nest :=
  match s.client.sendRequest req with
  | (.ok refNo, client) =>
    { s with
      client
      stack := .waiting refNo req :: s.stack
      issued := s.issued.set refNo req }
  | (.error e, client) => { s with client, raised := some e }

/-- A pass of the loop of the innermost request, up to the handler function. -/
def readResponse (s : Nest) : Nest :=
  match s.client.readResponse with
  | (.error e, client) => { s with client, raised := some e }
  | (.ok none, client) => { s with client }
  | (.ok (some msg), client) => { s with client, stack := .handling msg :: s.stack }

/-- The innermost request returns or raises. -/
def dequeue (s : Nest) (refNo : ℕ) (req : Request) (stack : List Frame) : Nest :=
  let call := s.client.dequeue refNo
  { s with
    client := call.2
    stack
    finished := s.finished ++ [{ refNo, request := req, result := call.1 }] }

/-- More bytes are on their way to the client, in any pieces. -/
def arrive (s : Nest) (socket : Pieces) : Nest :=
  { s with client := { s.client with conn := { s.client.conn with
    buffer := { s.client.conn.buffer with socket } } } }

/-- The calls that the server has not answered, under their ref-nos. -/
def unanswered (s : Nest) (refNo : ℕ) : Option ℕ :=
  if s.sent.any fun m => m.refNo = some refNo then none
  else (s.issued.get? refNo).map Request.callNo

end Nest

/-- One step of the innermost call, or of the server. -/
inductive NestStep : Nest → NestAction → Nest → Prop
  /-- The program calls `request`, with no other call going on. -/
  | program {s : Nest} (req : Request) (running : s.raised = none) (idle : s.stack = []) :
      NestStep s (.request req) (s.request req)
  /-- The handler function calls `request`. -/
  | handler {s : Nest} {msg : AsyncMessage} {stack : List Frame} (req : Request)
      (running : s.raised = none) (top : s.stack = .handling msg :: stack) :
      NestStep s (.request req) (s.request req)
  /-- The socket blocks until there is a whole response. -/
  | read {s : Nest} {refNo : ℕ} {req : Request} {stack : List Frame} {resp : Response}
      (running : s.raised = none) (top : s.stack = .waiting refNo req :: stack)
      (waits : s.client.waits refNo = true)
      (arrived : s.client.conn.readResponse.1 = .ok resp) :
      NestStep s .read { s.readResponse with read := s.read ++ [resp] }
  | readFails {s : Nest} {refNo : ℕ} {req : Request} {stack : List Frame} {e : Exn}
      (running : s.raised = none) (top : s.stack = .waiting refNo req :: stack)
      (waits : s.client.waits refNo = true)
      (fails : s.client.conn.readResponse.1 = .error e)
      (notBlocked : e ≠ .localError .receiveError) :
      NestStep s .read s.readResponse
  | dequeue {s : Nest} {refNo : ℕ} {req : Request} {stack : List Frame}
      (running : s.raised = none) (top : s.stack = .waiting refNo req :: stack)
      (queued : s.client.waits refNo = false) :
      NestStep s .dequeue (s.dequeue refNo req stack)
  | endHandler {s : Nest} {msg : AsyncMessage} {stack : List Frame}
      (running : s.raised = none) (top : s.stack = .handling msg :: stack) :
      NestStep s .endHandler { s with stack }
  /-- The server answers a request that it has not answered, or sends an asynchronous
  message. -/
  | serverSends {s : Nest} {m : ServerMessage} {resp : Response} {line : Bytes} {socket : Pieces}
      (means : m.Means s.unanswered resp) (written : line ∈ m.lines)
      (arriving : socket.bytes = s.client.conn.buffer.socket.bytes ++ line) :
      NestStep s (.serverSends m) { s.arrive socket with sent := s.sent ++ [m] }

end Pylyskom
