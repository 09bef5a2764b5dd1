import Pylyskom.Connection

/-!
# The blocking client

`Client` of `cachedconnection.py`. The loop of `_wait_and_dequeue` is taken apart at the
calls of `_read_response`, since one that reads an asynchronous message runs the handler
function, which may use the client itself.
-/

namespace Pylyskom

structure Client where
  conn : Connection
  okQueue : Dict ℕ OkReply
  errorQueue : Dict ℕ ServerError

namespace Client

/-- The client that `__init__` makes. -/
def init (conn : Connection) : Client where
  conn
  okQueue := ∅
  errorQueue := ∅

/-- What `request` does before it waits. -/
def sendRequest (self : Client) (request : Request) : Except Exn ℕ × Client :=
  let call := self.conn.sendRequest request
  (call.1, { self with conn := call.2 })

/-- The condition of the loop of `_wait_and_dequeue`. -/
def waits (self : Client) (refNo : ℕ) : Bool :=
  refNo ∉ self.okQueue ∧ refNo ∉ self.errorQueue

/-- `_read_response` up to the call of the handler function, with the message for it. -/
def readResponse (self : Client) : Except Exn (Option AsyncMessage) × Client :=
  match self.conn.readResponse with
  | (.error e, conn) => (.error e, { self with conn })
  | (.ok (.async msg), conn) => (.ok (some msg), { self with conn })
  | (.ok (.error refNo error), conn) =>
    (.ok none, { self with conn, errorQueue := self.errorQueue.set refNo error })
  | (.ok (.ok refNo resp), conn) =>
    -- ok reply - resp can be None
    (.ok none, { self with conn, okQueue := self.okQueue.set refNo resp })

/-- `_wait_and_dequeue` after its loop. -/
def dequeue (self : Client) (refNo : ℕ) : Except Exn OkReply × Client :=
  match self.okQueue.get? refNo with
  | some resp => (.ok resp, { self with okQueue := self.okQueue.erase refNo })
  | none =>
    match self.errorQueue.get? refNo with
    | some error =>
      (.error (.serverError error), { self with errorQueue := self.errorQueue.erase refNo })
    | none => (.error (.builtinError .runtimeError), self)

end Client

end Pylyskom
