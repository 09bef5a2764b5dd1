import Pylyskom.Aio.Connection

/-!
# The asynchronous client

The state that the tasks of an `AioClient` share, and what they do with it between two
points at which they can be suspended.
-/

namespace Pylyskom

/-- An entry of the reply queue: an ok or an error reply, and the reply bytes. -/
structure QueuedReply where
  reply : Except ServerError OkReply
  replyBytes : Bytes

/-- What `_request` returns: the reply bytes if it was asked for them, else the ok reply. -/
inductive RequestResult : Type
  | reply (okReply : OkReply)
  | bytes (replyBytes : Bytes)
  deriving DecidableEq

/-- Return an ok reply, and raise an error reply. -/
def RequestResult.ofReply : Except ServerError OkReply → Except Exn RequestResult
  | .error errorReply => .error (.serverError errorReply)
  | .ok okReply => .ok (.reply okReply)

structure AioClient where
  conn : AioConnection
  replyQueue : Dict ℕ QueuedReply
  /-- Ref-No to event mapping; a value tells whether the event is set. -/
  outstandingRequestsEvents : Dict ℕ Bool
  asyncmsgQueue : List AsyncMessage

namespace AioClient

/-- Put an ok or error reply on the reply queue, and set the event of its ref-no. -/
def queueReply (self : AioClient) (refNo : ℕ) (reply : QueuedReply) : Except Exn Unit × AioClient :=
  let queued := { self with replyQueue := self.replyQueue.set refNo reply }
  if refNo ∉ self.outstandingRequestsEvents then (.error (.builtinError .assertionError), queued)
  else
    (.ok (), { queued with
      outstandingRequestsEvents := self.outstandingRequestsEvents.set refNo true })

def receiveResponse (self : AioClient) (response : Response × Bytes) :
    Except Exn Unit × AioClient :=
  match response.1 with
  | .async msg => (.ok (), { self with asyncmsgQueue := self.asyncmsgQueue ++ [msg] })
  | .ok refNo okReply => self.queueReply refNo { reply := .ok okReply, replyBytes := response.2 }
  | .error refNo errorReply =>
    self.queueReply refNo { reply := .error errorReply, replyBytes := response.2 }

def handleReply (self : AioClient) (refNo : ℕ) (returnBytes : Bool) :
    Except Exn RequestResult × AioClient :=
  match self.replyQueue.get? refNo with
  | none => (.error (.builtinError .assertionError), self)
  | some queued =>
    let result := if returnBytes then .ok (.bytes queued.replyBytes) else
      match queued.reply with
      | .error errorReply => .error (.serverError errorReply)
      | .ok okReply => .ok (.reply okReply)
    (result, { self with replyQueue := self.replyQueue.erase refNo })

/-- What `_request` does when its request has been sent: a new event for the ref-no. -/
def addEvent (self : AioClient) (refNo : ℕ) : Except Exn Unit × AioClient :=
  if refNo ∈ self.outstandingRequestsEvents then (.error (.builtinError .assertionError), self)
  else
    (.ok (), { self with
      outstandingRequestsEvents := self.outstandingRequestsEvents.set refNo false })

/-- What `_request` does when the event of its ref-no has been set. -/
def endRequest (self : AioClient) (refNo : ℕ) (returnBytes : Bool) :
    Except Exn RequestResult × AioClient :=
  if refNo ∉ self.outstandingRequestsEvents then (.error (.builtinError (.keyError refNo)), self)
  else
    { self with
      outstandingRequestsEvents := self.outstandingRequestsEvents.erase refNo
    }.handleReply refNo returnBytes

/-- A reply goes on the reply queue. -/
theorem receiveResponse_reply (self : AioClient) {resp : Response} {bytes : Bytes} {refNo : ℕ}
    {reply : Except ServerError OkReply} (hreply : resp.reply = some (refNo, reply)) :
    self.receiveResponse (resp, bytes) = self.queueReply refNo { reply, replyBytes := bytes } := by
  cases resp with
  | ok r okReply =>
    cases hreply
    rfl
  | error r errorReply =>
    cases hreply
    rfl
  | async msg => cases hreply

/-- A request whose event has been set ends with the reply from the queue. -/
theorem endRequest_eq {self : AioClient} {refNo : ℕ} {queued : QueuedReply}
    (hevent : refNo ∈ self.outstandingRequestsEvents)
    (hqueued : self.replyQueue.get? refNo = some queued) :
    self.endRequest refNo false =
      (RequestResult.ofReply queued.reply,
        { self with
          outstandingRequestsEvents := self.outstandingRequestsEvents.erase refNo
          replyQueue := self.replyQueue.erase refNo }) := by
  simp only [endRequest, hevent, not_true_eq_false, if_false, handleReply, hqueued,
    Bool.false_eq_true]
  cases queued.reply <;> rfl

/-- A reply that was received is handed out as it came. -/
theorem handleReply_receiveResponse {self : AioClient} {resp : Response} {bytes : Bytes} {refNo : ℕ}
    (hrefNo : resp.refNo = some refNo) :
    ((self.receiveResponse (resp, bytes)).2.handleReply refNo true).1 = .ok (.bytes bytes) := by
  cases resp with
  | ok r reply =>
    cases hrefNo
    by_cases h : refNo ∈ self.outstandingRequestsEvents <;>
      simp [receiveResponse, queueReply, handleReply, h]
  | error r error =>
    cases hrefNo
    by_cases h : refNo ∈ self.outstandingRequestsEvents <;>
      simp [receiveResponse, queueReply, handleReply, h]
  | async msg => cases hrefNo

end AioClient

end Pylyskom
