import Pylyskom.Client
import Pylyskom.Coroutine
import Pylyskom.Aio.Cache

/-!
# The blocking caching client

`CachingClient` of `cachedconnection.py` on top of `Client` and `Connection`, over any
stream. The handler function of the client is `_handle_async_message` of the caching
client, which runs in the middle of the loop that waits for a reply.
-/

namespace Pylyskom

/-- The caches of `CachingClient` are those of `AioCachingClient`. -/
abbrev CachingClient := AioCachingClient

/-- A method of the caching client, over `Client.request`. -/
abbrev CachingM := Coroutine CachingClient Request (fun _ => OkReply) Exn

namespace CachingClient

/-! The handlers of `CachingClient` stand in the source beside those of `AioCachingClient`. -/

def cahNewName (self : CachingClient) (confNo : ℕ) : CachingClient :=
  (self.invalidate .uconferences confNo).invalidate .conferences confNo

def cahLeaveConf (self : CachingClient) (confNo : ℕ) : CachingClient :=
  self.invalidate .conferences confNo

def cahDeletedText (self : CachingClient) (textStat : TextStat) : CachingClient :=
  textStat.miscInfo.recipientList.foldl
    (fun self rcpt => self.invalidate .conferences rcpt.recpt) self

def cahNewText (self : CachingClient) (textStat : TextStat) : CachingClient :=
  textStat.miscInfo.commentToList.foldl (fun self ct => self.invalidate .textstats ct.textNo)
    (textStat.miscInfo.recipientList.foldl
      (fun self rcpt =>
        (self.invalidate .conferences rcpt.recpt).invalidate .uconferences rcpt.recpt) self)

def cahNewRecipient (self : CachingClient) (textNo confNo : ℕ) : CachingClient :=
  ((self.invalidate .conferences confNo).invalidate .uconferences confNo).invalidate
    .textstats textNo

def cahSubRecipient (self : CachingClient) (textNo confNo : ℕ) : CachingClient :=
  (self.invalidate .conferences confNo).invalidate .textstats textNo

def cahNewMembership (self : CachingClient) (confNo : ℕ) : CachingClient :=
  self.invalidate .conferences confNo

/-- `_handle_async_message` with the handlers that `__init__` adds. Other than in
`AioCachingClient`, there is none for a new presentation. -/
def handleAsyncMessage (self : CachingClient) : AsyncMessage → CachingClient
  | .newName confNo _ _ => self.cahNewName confNo
  | .leaveConf confNo => self.cahLeaveConf confNo
  | .deletedText _ textStat => self.cahDeletedText textStat
  | .newText _ textStat => self.cahNewText textStat
  | .newRecipient textNo confNo _ => self.cahNewRecipient textNo confNo
  | .subRecipient textNo confNo _ => self.cahSubRecipient textNo confNo
  | .newMembership _ confNo => self.cahNewMembership confNo
  | _ => self

/-- `Cache.__getitem__` of one of the caches. -/
def getitem (c : CacheName) (no : ℕ) : CachingM OkReply := do
  let present := (← MonadState.get).lookup c no
  modify fun self => self.get c no
  match present with
  | some value => return value
  | none =>
    let value ← Coroutine.request (c.fetch no)
    modify fun self => self.store c no value
    return value

def markText (textNo markType : ℕ) : CachingM Unit := do
  let _ ← Coroutine.request ⟨Requests.MARK_TEXT, [decimal textNo, decimal markType]⟩
  -- `textstat.misc_info.no_of_marks` is now invalid
  modify fun self => self.invalidate .textstats textNo

def unmarkText (textNo : ℕ) : CachingM Unit := do
  let _ ← Coroutine.request ⟨Requests.UNMARK_TEXT, [decimal textNo]⟩
  -- `textstat.misc_info.no_of_marks` is now invalid
  modify fun self => self.invalidate .textstats textNo

end CachingClient

/-- What has happened to a client. -/
inductive ClientEvent : Type
  | read (resp : Response)
  /-- A call of `mark_text` or `unmark_text` has returned. -/
  | marked (textNo : ℕ)

/-- The client below the caches, and its history. -/
structure Link where
  client : Client
  /-- The requests that were given a ref-no. -/
  issued : Dict ℕ Request
  history : List ClientEvent

namespace Link

/-- A new connection, over any stream. -/
def new (socket : Pieces) : Link where
  client := .init
    { buffer := .init socket, refNo := 0, outstandingRequests := ∅, written := [] }
  issued := ∅
  history := []

/-- `_read_response` up to the handler function. -/
def readResponse (link : Link) : Except Exn (Option AsyncMessage) × Link :=
  let call := link.client.readResponse
  (call.1,
    { link with
      client := call.2
      history := link.history ++
        match link.client.conn.readResponse.1 with
        | .ok resp => [.read resp]
        | .error _ => [] })

/-- The bytes of a response are taken from those that are still to be received. -/
theorem length_unread_lt {link : Link} {msg : Option AsyncMessage}
    (h : link.readResponse.1 = .ok msg) :
    link.readResponse.2.client.conn.unread.length < link.client.conn.unread.length := by
  have hconn : link.readResponse.2.client.conn = link.client.conn.readResponse.2 := by
    unfold readResponse Client.readResponse
    rcases link.client.conn.readResponse with ⟨_ | resp, conn⟩
    · rfl
    · cases resp <;> rfl
  rw [hconn]
  rcases link.client.conn.readResponse_cases with
    ⟨resp, conn, hcall, hrun, -⟩ | ⟨e, conn, hcall, -⟩
  · rw [hcall]
    cases hunread : link.client.conn.unread with
    | nil =>
      rw [hunread] at hrun
      cases hrun
    | cons c bytes =>
      rw [hunread] at hrun
      obtain ⟨next, hnext⟩ :
          ∃ next, responseParser link.client.conn.calls = Reader.receiveChar next := ⟨_, rfl⟩
      rw [hnext] at hrun
      obtain ⟨taken, htaken, -⟩ := Reader.run_consume (m := next c) hrun
      change conn.unread.length < (c :: bytes).length
      rw [htaken, List.length_cons, List.length_append]
      omega
  · unfold readResponse Client.readResponse at h
    rw [hcall] at h
    cases h

/-- `_wait_and_dequeue`, with the handler function of the caching client. -/
def waitAndDequeue (refNo : ℕ) (self : CachingClient) (link : Link) :
    Except Exn OkReply × CachingClient × Link :=
  if link.client.waits refNo then
    match _h : link.readResponse.1 with
    | .error e => (.error e, self, link.readResponse.2)
    | .ok none => waitAndDequeue refNo self link.readResponse.2
    | .ok (some msg) => waitAndDequeue refNo (self.handleAsyncMessage msg) link.readResponse.2
  else
    let call := link.client.dequeue refNo
    (call.1, self, { link with client := call.2 })
termination_by link.client.conn.unread.length
decreasing_by all_goals exact length_unread_lt _h

/-- `Client.request` -/
def request (req : Request) (self : CachingClient) (link : Link) :
    Except Exn OkReply × CachingClient × Link :=
  match link.client.sendRequest req with
  | (.error e, client) => (.error e, self, { link with client })
  | (.ok refNo, client) =>
    waitAndDequeue refNo self { link with client, issued := link.issued.set refNo req }

/-- How a request of the caching client is served. -/
def Serves (req : Request) (s : CachingClient × Link) (reply : Except Exn OkReply)
    (t : CachingClient × Link) : Prop :=
  request req s.1 s.2 = (reply, t)

end Link

inductive CachingCall : Type
  | getitem (c : CacheName) (no : ℕ)
  | markText (textNo markType : ℕ)
  | unmarkText (textNo : ℕ)
  | request (req : Request)

/-- A call on the client that returns or raises. -/
inductive CachingClientStep : CachingClient × Link → CachingCall → CachingClient × Link → Prop
  | getitem {s t : CachingClient × Link} {c : CacheName} {no : ℕ} {result : Except Exn OkReply}
      (ends : (CachingClient.getitem c no s.1).Ends Link.Serves s.2 result t) :
      CachingClientStep s (.getitem c no) t
  | markText {s t : CachingClient × Link} {textNo markType : ℕ}
      (ends : (CachingClient.markText textNo markType s.1).Ends Link.Serves s.2 (.ok ()) t) :
      CachingClientStep s (.markText textNo markType)
        (t.1, { t.2 with history := t.2.history ++ [.marked textNo] })
  | markTextFails {s t : CachingClient × Link} {textNo markType : ℕ} {e : Exn}
      (ends : (CachingClient.markText textNo markType s.1).Ends Link.Serves s.2 (.error e) t) :
      CachingClientStep s (.markText textNo markType) t
  | unmarkText {s t : CachingClient × Link} {textNo : ℕ}
      (ends : (CachingClient.unmarkText textNo s.1).Ends Link.Serves s.2 (.ok ()) t) :
      CachingClientStep s (.unmarkText textNo)
        (t.1, { t.2 with history := t.2.history ++ [.marked textNo] })
  | unmarkTextFails {s t : CachingClient × Link} {textNo : ℕ} {e : Exn}
      (ends : (CachingClient.unmarkText textNo s.1).Ends Link.Serves s.2 (.error e) t) :
      CachingClientStep s (.unmarkText textNo) t
  /-- A plain request, as the one that `__init__` makes. -/
  | request {s t : CachingClient × Link} {req : Request} {reply : Except Exn OkReply}
      (serves : Link.Serves req s reply t) : CachingClientStep s (.request req) t

end Pylyskom
