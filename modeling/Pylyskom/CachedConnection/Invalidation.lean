import Pylyskom.CachedConnection
import Pylyskom.Connection.Matching

/-!
# No invalidation is lost

The reply that a loop waits for is the last response that it reads, so nothing comes
between this reply and the store of its value. A message that is read later removes the
entries that it makes invalid.
-/

namespace Pylyskom

/-- The entries that the handlers of `CachingClient` remove. -/
def AsyncMessage.invalidatedBlocking : AsyncMessage → List (CacheName × ℕ)
  | newPresentation .. => []
  | msg => msg.invalidated

/-- The entries that an event makes invalid. -/
def ClientEvent.invalidated : ClientEvent → List (CacheName × ℕ)
  | read (.async msg) => msg.invalidatedBlocking
  | read _ => []
  | marked textNo => [(.textstats, textNo)]

/-- **The handler function removes exactly the entries that a message makes invalid.** -/
theorem CachingClient.clears_handleAsyncMessage (msg : AsyncMessage) :
    AioCachingClient.Clears (fun self => CachingClient.handleAsyncMessage self msg)
      msg.invalidatedBlocking := by
  have hcommon := AioCachingClient.clears_handleAsyncMessage msg
  cases msg with
  | newPresentation confNo old new => exact AioCachingClient.clears_id
  | _ => exact hcommon

/-- A value is that of a reply to a request for its key, and nothing that was read later
makes it invalid. -/
def Link.UpToDate (link : Link) (c : CacheName) (no : ℕ) (value : OkReply) : Prop :=
  ∃ refNo before after, link.history = before ++ .read (.ok refNo value) :: after ∧
    link.issued.get? refNo = some (c.fetch no) ∧
    ∀ event ∈ after, (c, no) ∉ event.invalidated

/-- What holds between two calls, and in the loops. -/
structure CachingClient.Kept (client : CachingClient) (link : Link) : Prop where
  issued_le : ∀ {r : ℕ}, r ∈ link.issued → r ≤ link.client.conn.refNo
  outstanding_le : ∀ {r : ℕ}, r ∈ link.client.conn.outstandingRequests →
    r ≤ link.client.conn.refNo
  okQueue_le : ∀ {r : ℕ}, r ∈ link.client.okQueue → r ≤ link.client.conn.refNo
  cached : ∀ {c : CacheName} {no : ℕ} {value : OkReply},
    client.lookup c no = some value → link.UpToDate c no value

/-- What is dequeued was in a queue. -/
theorem Client.dequeue_ok (client : Client) (refNo : ℕ) :
    (client.dequeue refNo).2.conn = client.conn ∧
      (∀ r, r ∈ (client.dequeue refNo).2.okQueue → r ∈ client.okQueue) ∧
      ∀ reply, (client.dequeue refNo).1 = .ok reply →
        client.okQueue.get? refNo = some reply := by
  unfold Client.dequeue
  cases client.okQueue.get? refNo with
  | some reply => exact ⟨rfl, fun r hr => (Dict.mem_erase.mp hr).2, fun _ => by simp⟩
  | none => cases client.errorQueue.get? refNo <;> simp

namespace Link

/-- What a pass of the loop does: it reads a response, or raises. -/
theorem readResponse_cases (link : Link) :
    (∃ resp conn, link.client.conn.readResponse = (.ok resp, conn) ∧
      conn.refNo = link.client.conn.refNo ∧
      (∀ r, r ∈ conn.outstandingRequests → r ∈ link.client.conn.outstandingRequests) ∧
      (∀ r, resp.refNo = some r → r ∈ link.client.conn.outstandingRequests) ∧
      link.readResponse =
        (.ok resp.asyncMsg,
          { link with
            client := (link.client.readResponse).2
            history := link.history ++ [.read resp] })) ∨
    ∃ e conn, link.readResponse = (.error e, { link with client := { link.client with conn } }) ∧
      conn.refNo = link.client.conn.refNo ∧
      conn.outstandingRequests = link.client.conn.outstandingRequests := by
  rcases link.client.conn.readResponse_cases with
    ⟨resp, conn, hcall, hrun, hrefNo, -, hout⟩ | ⟨e, conn, hcall, hrefNo, -, hout⟩
  · left
    refine ⟨resp, conn, hcall, hrefNo, ?_, ?_, ?_⟩
    · intro r hr
      rw [hout, Dict.mem_iff_isSome, Response.get?_settle] at hr
      split_ifs at hr with heq
      · cases hr
      · exact Dict.mem_iff_isSome.mpr hr
    · intro r hr
      obtain ⟨req, hreq⟩ := link.client.conn.outstanding_of_returned hrun hr
      exact Dict.mem_of_get? hreq
    · unfold readResponse Client.readResponse
      rw [hcall]
      cases resp <;> rfl
  · right
    refine ⟨e, conn, ?_, hrefNo, hout⟩
    unfold readResponse Client.readResponse
    rw [hcall]
    simp

variable {link link' : Link} {c : CacheName} {no : ℕ} {value : OkReply}

/-- An event that does not make a value invalid leaves it up to date. -/
theorem UpToDate.append (h : link.UpToDate c no value) {event : ClientEvent}
    (hissued : link'.issued = link.issued) (hhistory : link'.history = link.history ++ [event])
    (hevent : (c, no) ∉ event.invalidated) : link'.UpToDate c no value := by
  obtain ⟨refNo, before, after, heq, hreq, hafter⟩ := h
  refine ⟨refNo, before, after ++ [event], by simp [hhistory, heq], hissued ▸ hreq, ?_⟩
  intro e he
  rcases List.mem_append.mp he with he | he
  · exact hafter e he
  · rwa [List.mem_singleton.mp he]

theorem UpToDate.congr (h : link.UpToDate c no value)
    (hissued : ∀ r req, link.issued.get? r = some req → link'.issued.get? r = some req)
    (hhistory : link'.history = link.history) : link'.UpToDate c no value := by
  obtain ⟨refNo, before, after, heq, hreq, hafter⟩ := h
  exact ⟨refNo, before, after, hhistory.trans heq, hissued _ _ hreq, hafter⟩

end Link

namespace CachingClient

variable {self : CachingClient} {link : Link}

/-- The caches after the handler function. -/
def handled (self : CachingClient) : Option AsyncMessage → CachingClient
  | some msg => self.handleAsyncMessage msg
  | none => self

theorem clears_handled (resp : Response) :
    AioCachingClient.Clears (fun self => handled self resp.asyncMsg)
      (ClientEvent.read resp).invalidated := by
  cases resp with
  | async msg => exact clears_handleAsyncMessage msg
  | ok | error => exact AioCachingClient.clears_id

/-- A pass of the loop, in which a response is read and its message is handled. -/
theorem Kept.readResponse (h : self.Kept link) {resp : Response} {conn : Connection}
    (hcall : link.client.conn.readResponse = (.ok resp, conn))
    (hrefNo : conn.refNo = link.client.conn.refNo)
    (hout : ∀ r, r ∈ conn.outstandingRequests → r ∈ link.client.conn.outstandingRequests)
    (hresp : ∀ r, resp.refNo = some r → r ∈ link.client.conn.outstandingRequests) :
    (self.handled resp.asyncMsg).Kept
      { link with
        client := (link.client.readResponse).2
        history := link.history ++ [.read resp] } := by
  have hconn : (link.client.readResponse).2.conn = conn := by
    unfold Client.readResponse
    rw [hcall]
    cases resp <;> rfl
  constructor
  · intro r hr
    change r ≤ (link.client.readResponse).2.conn.refNo
    rw [hconn, hrefNo]
    exact h.issued_le hr
  · intro r hr
    change r ≤ (link.client.readResponse).2.conn.refNo
    rw [hconn, hrefNo]
    change r ∈ (link.client.readResponse).2.conn.outstandingRequests at hr
    rw [hconn] at hr
    exact h.outstanding_le (hout r hr)
  · intro r hr
    change r ≤ (link.client.readResponse).2.conn.refNo
    rw [hconn, hrefNo]
    have hqueue : r ∈ link.client.okQueue ∨ resp.refNo = some r := by
      change r ∈ (link.client.readResponse).2.okQueue at hr
      unfold Client.readResponse at hr
      rw [hcall] at hr
      cases resp with
      | ok r' reply =>
        rcases Dict.mem_set.mp hr with rfl | hr
        · exact Or.inr rfl
        · exact Or.inl hr
      | error | async => exact Or.inl hr
    rcases hqueue with hr | hr
    · exact h.okQueue_le hr
    · exact h.outstanding_le (hresp r hr)
  · intro c no value hvalue
    rw [clears_handled resp] at hvalue
    split_ifs at hvalue with hmem
    exact (h.cached hvalue).append rfl rfl hmem

/-- Changes to the connection that leave its ref-nos and the queue of ok replies. -/
theorem Kept.congr (h : self.Kept link) {link' : Link}
    (hissued : link'.issued = link.issued) (hhistory : link'.history = link.history)
    (hrefNo : link'.client.conn.refNo = link.client.conn.refNo)
    (hout : link'.client.conn.outstandingRequests = link.client.conn.outstandingRequests)
    (hqueue : ∀ r, r ∈ link'.client.okQueue → r ∈ link.client.okQueue) : self.Kept link' := by
  constructor
  · intro r hr
    rw [hrefNo]
    exact h.issued_le (hissued ▸ hr)
  · intro r hr
    rw [hrefNo]
    exact h.outstanding_le (hout ▸ hr)
  · intro r hr
    rw [hrefNo]
    exact h.okQueue_le (hqueue r hr)
  · intro c no value hvalue
    exact (h.cached hvalue).congr (fun r req hr => hissued ▸ hr) hhistory

/-- The queue holds a reply to the request that waits only if that reply was read last. -/
def ReadLast (refNo : ℕ) (link : Link) : Prop :=
  ∀ reply, link.client.okQueue.get? refNo = some reply →
    ∃ before, link.history = before ++ [.read (.ok refNo reply)]

/-- What is read while the loop waits is put last. -/
theorem Kept.readNext {refNo : ℕ} {msg : Option AsyncMessage} (h : self.Kept link)
    (hwaits : link.client.waits refNo = true) (hmsg : link.readResponse.1 = .ok msg) :
    (self.handled msg).Kept link.readResponse.2 ∧ ReadLast refNo link.readResponse.2 ∧
      link.readResponse.2.issued = link.issued := by
  rcases link.readResponse_cases with
    ⟨resp, conn, hcall, hrefNo, hout, hresp, heq⟩ | ⟨e, conn, heq, -⟩
  · rw [heq] at hmsg ⊢
    obtain rfl := Except.ok.inj hmsg
    refine ⟨h.readResponse hcall hrefNo hout hresp, ?_, rfl⟩
    intro reply hreply
    have hnone : link.client.okQueue.get? refNo = none := by
      rw [Dict.get?_eq_none_iff]
      simp only [Client.waits, decide_eq_true_eq] at hwaits
      exact hwaits.1
    change (link.client.readResponse).2.okQueue.get? refNo = some reply at hreply
    unfold Client.readResponse at hreply
    rw [hcall] at hreply
    cases resp with
    | ok r reply' =>
      rw [Dict.get?_set] at hreply
      split_ifs at hreply with hr
      · obtain rfl := Option.some.inj hreply
        exact ⟨link.history, by rw [hr]⟩
      · rw [hnone] at hreply
        cases hreply
    | error | async =>
      rw [hnone] at hreply
      cases hreply
  · rw [heq] at hmsg
    cases hmsg

/-- **The loop.** It keeps the caches up to date, and the reply that it returns was read last. -/
theorem Kept.waitAndDequeue (refNo : ℕ) (h : self.Kept link) (hlast : ReadLast refNo link) :
    (Link.waitAndDequeue refNo self link).2.1.Kept (Link.waitAndDequeue refNo self link).2.2 ∧
      (Link.waitAndDequeue refNo self link).2.2.issued = link.issued ∧
      ∀ reply, (Link.waitAndDequeue refNo self link).1 = .ok reply →
        ∃ before, (Link.waitAndDequeue refNo self link).2.2.history =
          before ++ [.read (.ok refNo reply)] := by
  fun_induction Link.waitAndDequeue refNo self link with
  | case1 self link hwaits e herror =>
    rcases link.readResponse_cases with
      ⟨resp, conn, hcall, hrefNo, hout, hresp, heq⟩ | ⟨e', conn, heq, hrefNo, hout⟩
    · rw [heq] at herror
      cases herror
    · refine ⟨?_, by rw [heq], by simp⟩
      rw [heq]
      exact h.congr rfl rfl hrefNo hout fun r => id
  | case2 self link hwaits hmsg ih =>
    obtain ⟨hkept, hlast, hissued⟩ := h.readNext hwaits hmsg
    rw [← hissued]
    exact ih hkept hlast
  | case3 self link hwaits msg hmsg ih =>
    obtain ⟨hkept, hlast, hissued⟩ := h.readNext hwaits hmsg
    rw [← hissued]
    exact ih hkept hlast
  | case4 self link hwaits =>
    obtain ⟨hconn, hokQueue, hreply⟩ := link.client.dequeue_ok refNo
    refine ⟨h.congr rfl rfl ?_ ?_ hokQueue, rfl, fun reply heq => hlast reply (hreply reply heq)⟩
    · change (link.client.dequeue refNo).2.conn.refNo = _
      rw [hconn]
    · change (link.client.dequeue refNo).2.conn.outstandingRequests = _
      rw [hconn]

/-- A request keeps the caches up to date, and the reply that it returns was read last. -/
theorem Kept.request (h : self.Kept link) (req : Request) :
    (Link.request req self link).2.1.Kept (Link.request req self link).2.2 ∧
      ∀ reply, (Link.request req self link).1 = .ok reply →
        ∃ refNo before, (Link.request req self link).2.2.history =
            before ++ [.read (.ok refNo reply)] ∧
          (Link.request req self link).2.2.issued.get? refNo = some req := by
  have hnot : ∀ {r : ℕ}, r ≤ link.client.conn.refNo → r ≠ link.client.conn.refNo + 1 := by
    intro r hr
    omega
  have hout : link.client.conn.refNo + 1 ∉ link.client.conn.outstandingRequests := fun hmem =>
    hnot (h.outstanding_le hmem) rfl
  unfold Link.request Client.sendRequest Connection.sendRequest
  simp only [hout, if_false]
  set sent : Link :=
    { link with
      client := { link.client with conn :=
        { link.client.conn with
          refNo := link.client.conn.refNo + 1
          written := link.client.conn.written ++
            (decimal (link.client.conn.refNo + 1) ++ ascii " " ++ req.toString)
          outstandingRequests :=
            link.client.conn.outstandingRequests.set (link.client.conn.refNo + 1) req } }
      issued := link.issued.set (link.client.conn.refNo + 1) req } with hsent
  have hkept : self.Kept sent := by
    constructor
    · intro r hr
      rcases Dict.mem_set.mp hr with rfl | hr
      · exact Nat.le_refl _
      · exact Nat.le_succ_of_le (h.issued_le hr)
    · intro r hr
      rcases Dict.mem_set.mp hr with rfl | hr
      · exact Nat.le_refl _
      · exact Nat.le_succ_of_le (h.outstanding_le hr)
    · exact fun hr => Nat.le_succ_of_le (h.okQueue_le hr)
    · intro c no value hvalue
      refine (h.cached hvalue).congr (fun r q hr => ?_) rfl
      rw [hsent, Dict.get?_set, if_neg (hnot (h.issued_le (Dict.mem_of_get? hr)))]
      exact hr
  have hlast : ReadLast (link.client.conn.refNo + 1) sent := by
    intro reply hreply
    exact absurd rfl (hnot (h.okQueue_le (Dict.mem_of_get? hreply)))
  obtain ⟨hafter, hissued, hreply⟩ := hkept.waitAndDequeue _ hlast
  refine ⟨hafter, fun reply heq => ?_⟩
  obtain ⟨before, hhistory⟩ := hreply reply heq
  refine ⟨_, before, hhistory, ?_⟩
  rw [hissued, hsent, Dict.get?_set, if_pos rfl]

/-- A change to the caches that brings nothing in. -/
theorem Kept.clears (h : self.Kept link) {client : CachingClient}
    (hlookup : ∀ {c no value}, client.lookup c no = some value → self.lookup c no = some value) :
    client.Kept link :=
  ⟨h.issued_le, h.outstanding_le, h.okQueue_le, fun hvalue => h.cached (hlookup hvalue)⟩

theorem Kept.get (h : self.Kept link) (c : CacheName) (no : ℕ) :
    Kept (AioCachingClient.get self c no) link := by
  apply h.clears
  intro d k value hvalue
  rwa [AioCachingClient.lookup_get] at hvalue

end CachingClient

/-- `__getitem__` returns a value that is present, and otherwise stores the one that is fetched. -/
theorem CachingClient.getitem_eq (self : CachingClient) (c : CacheName) (no : ℕ) :
    getitem c no self =
      (match self.lookup c no with
        | some value => (pure value : CachingM OkReply)
        | none => do
          let value ← Coroutine.request (c.fetch no)
          modify fun self => AioCachingClient.store self c no value
          return value) (AioCachingClient.get self c no) := rfl

theorem CachingClient.Kept.getitem {s t : CachingClient × Link} (h : s.1.Kept s.2)
    {c : CacheName} {no : ℕ} {result : Except Exn OkReply}
    (ends : (CachingClient.getitem c no s.1).Ends Link.Serves s.2 result t) : t.1.Kept t.2 := by
  have hget := h.get c no
  rw [CachingClient.getitem_eq] at ends
  cases hpresent : s.1.lookup c no with
  | some value =>
    rw [hpresent] at ends
    obtain ⟨-, rfl⟩ := ends
    exact hget
  | none =>
    rw [hpresent] at ends
    rcases Suspended.ends_request_bind ends with
      ⟨value, u, hserves, -, rfl⟩ | ⟨e, hserves, -⟩
    · obtain ⟨hafter, hreply⟩ := hget.request (c.fetch no)
      unfold Link.Serves at hserves
      rw [hserves] at hafter hreply
      obtain ⟨refNo, before, hhistory, hissued⟩ := hreply value rfl
      refine ⟨hafter.issued_le, hafter.outstanding_le, hafter.okQueue_le, fun {d k v} hvalue => ?_⟩
      rw [AioCachingClient.lookup_store] at hvalue
      split_ifs at hvalue with hkey
      · obtain ⟨rfl, rfl⟩ := Prod.mk.inj hkey
        obtain rfl := Option.some.inj hvalue
        exact ⟨refNo, before, [], hhistory, hissued, by simp⟩
      · exact hafter.cached hvalue
    · obtain rfl := congrArg Prod.snd hserves
      exact (hget.request (c.fetch no)).1

/-- A request that is followed by an invalidation if it succeeds. -/
private theorem CachingClient.Kept.mark {s t : CachingClient × Link} (h : s.1.Kept s.2)
    {req : Request} {textNo : ℕ} {result : Except Exn Unit}
    (ends : ((do
        let _ ← Coroutine.request req
        modify fun self => AioCachingClient.invalidate self .textstats textNo :
          CachingM Unit) s.1).Ends Link.Serves s.2 result t) :
    t.1.Kept t.2 ∧ (result = .ok () → t.1.lookup .textstats textNo = none) := by
  rcases Suspended.ends_request_bind ends with ⟨reply, u, hserves, rfl, rfl⟩ | ⟨e, hserves, rfl⟩
  · obtain rfl := congrArg Prod.snd hserves
    have hafter := (h.request req).1
    have hclears := AioCachingClient.clears_invalidate .textstats textNo
    refine ⟨hafter.clears ?_, fun _ => ?_⟩
    · intro c no value hvalue
      rw [hclears] at hvalue
      split_ifs at hvalue
      exact hvalue
    · rw [hclears, if_pos (List.mem_singleton_self _)]
  · obtain rfl := congrArg Prod.snd hserves
    exact ⟨(h.request req).1, by simp⟩

/-- A text whose text-stat is not cached is marked. -/
theorem CachingClient.Kept.marked {client : CachingClient} {link : Link} (h : client.Kept link)
    {textNo : ℕ} (hnone : client.lookup .textstats textNo = none) :
    client.Kept { link with history := link.history ++ [.marked textNo] } := by
  refine ⟨h.issued_le, h.outstanding_le, h.okQueue_le, fun {c no value} hvalue => ?_⟩
  refine (h.cached hvalue).append rfl rfl fun hmem => ?_
  obtain ⟨rfl, rfl⟩ := Prod.mk.inj (List.mem_singleton.mp hmem)
  rw [hnone] at hvalue
  cases hvalue

/-- **Each call keeps the caches up to date.** -/
theorem CachingClientStep.kept {s t : CachingClient × Link} {call : CachingCall}
    (hstep : CachingClientStep s call t) (h : s.1.Kept s.2) : t.1.Kept t.2 := by
  cases hstep with
  | getitem ends => exact h.getitem ends
  | markText ends =>
    obtain ⟨hkept, hnone⟩ := h.mark ends
    exact hkept.marked (hnone rfl)
  | markTextFails ends => exact (h.mark ends).1
  | unmarkText ends =>
    obtain ⟨hkept, hnone⟩ := h.mark ends
    exact hkept.marked (hnone rfl)
  | unmarkTextFails ends => exact (h.mark ends).1
  | request serves =>
    obtain rfl := congrArg Prod.snd serves
    exact (h.request _).1

/-- Every call returns or raises: the loop takes bytes from the stream in each pass. -/
theorem CachingClientStep.ends (s : CachingClient × Link) (call : CachingCall) :
    ∃ t, CachingClientStep s call t := by
  have hserves : ∀ req s, ∃ reply t, Link.Serves req s reply t := fun req s => ⟨_, _, rfl⟩
  cases call with
  | getitem c no =>
    obtain ⟨result, t, hends⟩ :=
      Suspended.exists_ends hserves (CachingClient.getitem c no s.1) s.2
    exact ⟨t, .getitem hends⟩
  | markText textNo markType =>
    obtain ⟨result, t, hends⟩ :=
      Suspended.exists_ends hserves (CachingClient.markText textNo markType s.1) s.2
    cases result with
    | ok => exact ⟨_, .markText hends⟩
    | error => exact ⟨t, .markTextFails hends⟩
  | unmarkText textNo =>
    obtain ⟨result, t, hends⟩ :=
      Suspended.exists_ends hserves (CachingClient.unmarkText textNo s.1) s.2
    cases result with
    | ok => exact ⟨_, .unmarkText hends⟩
    | error => exact ⟨t, .unmarkTextFails hends⟩
  | request req => exact ⟨_, .request rfl⟩

/-- **The caches are up to date between two calls.** After every run of cache reads,
`mark_text`, `unmark_text` and plain requests, over any stream, a cached value is that of
a reply to a request for its key, and no message that makes it invalid was read after this
reply, nor did a call of `mark_text` or `unmark_text` for it return. -/
theorem Run.cachesUpToDate {socket : Pieces} {s : CachingClient × Link}
    (h : Run CachingClientStep (fun _ _ => True) (.init, .new socket) s) {c : CacheName} {no : ℕ}
    {value : OkReply} (cached : s.1.lookup c no = some value) : s.2.UpToDate c no value := by
  have hkept : s.1.Kept s.2 := by
    apply h.invariant (P := fun s => s.1.Kept s.2)
    · constructor
      · exact fun hr => (Dict.not_mem_empty _ hr).elim
      · exact fun hr => (Dict.not_mem_empty _ hr).elim
      · exact fun hr => (Dict.not_mem_empty _ hr).elim
      · rintro c no value ⟨⟩
    · exact fun _ hstep hu => hstep.kept hu
  exact hkept.cached cached

/-- The loop ends with the next response if this is the reply. -/
theorem Link.waitAndDequeue_next {link : Link} {refNo : ℕ} {reply : OkReply} {rest : Bytes}
    (self : CachingClient) (hwaits : link.client.waits refNo = true)
    (hrun : (responseParser link.client.conn.calls).run link.client.conn.unread =
      .returned (.ok refNo reply) rest) :
    ∃ link', waitAndDequeue refNo self link = (.ok reply, self, link') := by
  have hspec := link.client.conn.readResponse_spec
  rw [hrun] at hspec
  obtain ⟨conn, hcall, -⟩ := hspec
  have hread : link.readResponse = (.ok none, { link with
      client := { link.client with conn, okQueue := link.client.okQueue.set refNo reply }
      history := link.history ++ [.read (.ok refNo reply)] }) := by
    unfold readResponse Client.readResponse
    rw [hcall]
  rw [waitAndDequeue, if_pos hwaits]
  split
  · next herror => simp [hread] at herror
  · next hnone =>
    rw [hread, waitAndDequeue, if_neg (by simp [Client.waits])]
    simp [Client.dequeue]
  · next hsome => simp [hread] at hsome

/-- A miss whose reply is the next response. -/
theorem Run.cachesUpToDate_miss :
    let value := OkReply.uConference ⟨ascii "Prat", .replicate 8 false, 5, 77⟩
    ∃ s : CachingClient × Link, s.1.lookup .uconferences 6 = some value ∧
      s.2.UpToDate .uconferences 6 value := by
  intro value
  let socket : Pieces := ⟨[ascii "=1 4HPrat 00000000 ", ascii "5 77\n"], by decide⟩
  obtain ⟨link, hrequest⟩ : ∃ link, Link.request (CacheName.uconferences.fetch 6)
      (AioCachingClient.get .init .uconferences 6) (.new socket) = (.ok value, _, link) :=
    Link.waitAndDequeue_next _ rfl rfl
  have hends : (CachingClient.getitem .uconferences 6 .init).Ends Link.Serves (.new socket)
      (.ok value) (AioCachingClient.store _ .uconferences 6 value, link) :=
    ⟨_, _, hrequest, rfl, rfl⟩
  have hlookup : AioCachingClient.lookup (AioCachingClient.store
      (AioCachingClient.get .init .uconferences 6) .uconferences 6 value) .uconferences 6 =
      some value := by
    simp
  exact ⟨_, hlookup, Run.cachesUpToDate (Run.refl.tail trivial (.getitem hends)) hlookup⟩

end Pylyskom
