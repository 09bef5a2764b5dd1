import Pylyskom.Aio.Tasks
import Pylyskom.Collections.Lists

/-!
# Ref-nos and replies in every run

What holds in every state of every run, whatever the server sends and whichever tasks are
cancelled: each ref-no was given to one request, the events are those of the requests
that wait for them, and every reply in the queue or handed out was received.
-/

namespace Pylyskom

/-- The entries of a list after one was replaced. -/
theorem getElem?_set_eq_some_iff {α : Type} {l : List α} {i j : ℕ} {x y z : α}
    (found : l[i]? = some x) :
    (l.set i y)[j]? = some z ↔ (j = i ∧ z = y) ∨ (j ≠ i ∧ l[j]? = some z) := by
  have hlt : i < l.length := (List.getElem?_eq_some_iff.mp found).1
  rw [List.getElem?_set]
  by_cases h : i = j
  · subst h
    simp [hlt, eq_comm]
  · have h' : j ≠ i := fun heq => h heq.symm
    simp [h, h']

/-! ## Ref-nos -/

/-- Each ref-no that was ever given out belongs to one request, and an outstanding one is
kept with the call of this request. -/
structure Owned (refNo : ℕ) (outstanding issued : Dict ℕ ℕ) (requests : List RequestCall) :
    Prop where
  issued_le : ∀ r ∈ issued, r ≤ refNo
  outstanding_issued : ∀ {r callNo : ℕ}, outstanding.get? r = some callNo →
    issued.get? r = some callNo
  call_eq : ∀ {i : ℕ} {q : RequestCall} {r : ℕ}, requests[i]? = some q → q.state.refNo = some r →
    issued.get? r = some q.request.callNo
  owner : ∀ {r : ℕ}, r ∈ issued →
    ∃ (i : ℕ) (q : RequestCall), requests[i]? = some q ∧ q.state.refNo = some r
  unique : ∀ {i j : ℕ} {q p : RequestCall} {r : ℕ}, requests[i]? = some q → requests[j]? = some p →
    q.state.refNo = some r → p.state.refNo = some r → i = j

/-- The invariant of the ref-nos. -/
abbrev System.Owned (s : System) : Prop :=
  Pylyskom.Owned s.client.conn.refNo s.client.conn.outstandingRequests s.issued s.requests

namespace Owned

variable {refNo : ℕ} {outstanding issued : Dict ℕ ℕ} {requests : List RequestCall} {i : ℕ}
  {q : RequestCall} {state : RequestState}

/-- A task that keeps its ref-no moves on. -/
theorem setState (h : Owned refNo outstanding issued requests) (found : requests[i]? = some q)
    (same : state.refNo = q.state.refNo) :
    Owned refNo outstanding issued (requests.set i { q with state }) := by
  have hold : ∀ {j : ℕ} {p : RequestCall}, (requests.set i { q with state })[j]? = some p →
      ∃ p', requests[j]? = some p' ∧ p'.request = p.request ∧ p'.state.refNo = p.state.refNo := by
    intro j p hp
    rcases (getElem?_set_eq_some_iff found).mp hp with ⟨rfl, rfl⟩ | ⟨-, hp⟩
    · exact ⟨q, found, rfl, same.symm⟩
    · exact ⟨p, hp, rfl, rfl⟩
  constructor
  · exact h.issued_le
  · exact h.outstanding_issued
  · intro j p r hp hr
    obtain ⟨p', hp', hrequest, hrefNo⟩ := hold hp
    rw [← hrequest]
    exact h.call_eq hp' (hrefNo.trans hr)
  · intro r hr
    obtain ⟨j, p, hp, hrefNo⟩ := h.owner hr
    by_cases hj : j = i
    · subst hj
      obtain rfl : q = p := Option.some.inj (found.symm.trans hp)
      exact ⟨j, { q with state }, (getElem?_set_eq_some_iff found).mpr (Or.inl ⟨rfl, rfl⟩),
        same.trans hrefNo⟩
    · exact ⟨j, p, (getElem?_set_eq_some_iff found).mpr (Or.inr ⟨hj, hp⟩), hrefNo⟩
  · intro j k p p' r hp hp' hr hr'
    obtain ⟨x, hx, -, hxr⟩ := hold hp
    obtain ⟨y, hy, -, hyr⟩ := hold hp'
    exact h.unique hx hy (hxr.trans hr) (hyr.trans hr')

/-- A new task has no ref-no. -/
theorem append (h : Owned refNo outstanding issued requests) (unnumbered : q.state.refNo = none) :
    Owned refNo outstanding issued (requests ++ [q]) := by
  have hold : ∀ {j : ℕ} {p : RequestCall} {r : ℕ}, (requests ++ [q])[j]? = some p →
      p.state.refNo = some r → requests[j]? = some p := by
    intro j p r hp hr
    rcases getElem?_append_singleton_iff.mp hp with ⟨-, rfl⟩ | hp
    · rw [unnumbered] at hr
      cases hr
    · exact hp
  constructor
  · exact h.issued_le
  · exact h.outstanding_issued
  · intro j p r hp hr
    exact h.call_eq (hold hp hr) hr
  · intro r hr
    obtain ⟨j, p, hp, hrefNo⟩ := h.owner hr
    exact ⟨j, p, getElem?_append_singleton_iff.mpr (Or.inr hp), hrefNo⟩
  · intro j k p p' r hp hp' hr hr'
    exact h.unique (hold hp hr) (hold hp' hr') hr hr'

/-- The next ref-no is new. -/
theorem fresh (h : Owned refNo outstanding issued requests) : refNo + 1 ∉ issued := by
  intro hmem
  have hle := h.issued_le _ hmem
  omega

/-- A request without a ref-no is given the next one. -/
theorem issue (h : Owned refNo outstanding issued requests) (found : requests[i]? = some q)
    (unnumbered : q.state.refNo = none) (next : state.refNo = some (refNo + 1)) :
    Owned (refNo + 1) (outstanding.set (refNo + 1) q.request.callNo)
      (issued.set (refNo + 1) q.request.callNo) (requests.set i { q with state }) := by
  have hfresh : ∀ {j : ℕ} {p : RequestCall} {r : ℕ}, requests[j]? = some p →
      p.state.refNo = some r → r ≠ refNo + 1 := by
    rintro j p r hp hr rfl
    exact h.fresh (Dict.mem_of_get? (h.call_eq hp hr))
  have hnew : ∀ {j : ℕ} {p : RequestCall} {r : ℕ},
      (requests.set i { q with state })[j]? = some p → p.state.refNo = some r →
      (j = i ∧ r = refNo + 1 ∧ p = { q with state }) ∨ requests[j]? = some p := by
    intro j p r hp hr
    rcases (getElem?_set_eq_some_iff found).mp hp with ⟨rfl, rfl⟩ | ⟨-, hp⟩
    · exact Or.inl ⟨rfl, Option.some.inj (hr.symm.trans next), rfl⟩
    · exact Or.inr hp
  constructor
  · intro r hr
    rcases Dict.mem_set.mp hr with rfl | hr
    · exact le_rfl
    · exact (h.issued_le r hr).trans (Nat.le_succ refNo)
  · intro r callNo hr
    rw [Dict.get?_set] at hr ⊢
    split_ifs at hr ⊢
    · exact hr
    · exact h.outstanding_issued hr
  · intro j p r hp hr
    rw [Dict.get?_set]
    rcases hnew hp hr with ⟨rfl, rfl, rfl⟩ | hp
    · simp
    · rw [if_neg (hfresh hp hr)]
      exact h.call_eq hp hr
  · intro r hr
    rcases Dict.mem_set.mp hr with rfl | hr
    · exact ⟨i, { q with state }, (getElem?_set_eq_some_iff found).mpr (Or.inl ⟨rfl, rfl⟩), next⟩
    · obtain ⟨j, p, hp, hrefNo⟩ := h.owner hr
      have hj : j ≠ i := by
        rintro rfl
        obtain rfl : q = p := Option.some.inj (found.symm.trans hp)
        rw [unnumbered] at hrefNo
        cases hrefNo
      exact ⟨j, p, (getElem?_set_eq_some_iff found).mpr (Or.inr ⟨hj, hp⟩), hrefNo⟩
  · intro j k p p' r hp hp' hr hr'
    rcases hnew hp hr with ⟨rfl, rfl, -⟩ | hp
    · rcases hnew hp' hr' with ⟨rfl, -, -⟩ | hp'
      · rfl
      · exact absurd rfl (hfresh hp' hr')
    · rcases hnew hp' hr' with ⟨-, rfl, -⟩ | hp'
      · exact absurd rfl (hfresh hp hr)
      · exact h.unique hp hp' hr hr'

/-- A failed send uses a ref-no up. -/
theorem skip (h : Owned refNo outstanding issued requests) :
    Owned (refNo + 1) outstanding issued requests :=
  ⟨fun r hr => (h.issued_le r hr).trans (Nat.le_succ refNo), h.outstanding_issued, h.call_eq,
    h.owner, h.unique⟩

/-- A response settles its ref-no. -/
theorem settle (h : Owned refNo outstanding issued requests) (resp : Response) :
    Owned refNo (resp.settle outstanding) issued requests := by
  refine ⟨h.issued_le, ?_, h.call_eq, h.owner, h.unique⟩
  intro r callNo hr
  rw [Response.get?_settle] at hr
  split at hr
  · cases hr
  · exact h.outstanding_issued hr

end Owned

/-! ## What a request does -/

namespace System

/-- A send gives the next ref-no to the request, unless this ref-no is outstanding. -/
theorem send_cases (s : System) (i : ℕ) (q : RequestCall) :
    (s.client.conn.refNo + 1 ∈ s.client.conn.outstandingRequests ∧
      s.send i q =
        (s.setConn { s.client.conn with refNo := s.client.conn.refNo + 1 }).setState i q
          (.failed (.builtinError .assertionError))) ∨
    ∃ written, s.send i q =
      { (s.setConn { s.client.conn with
            refNo := s.client.conn.refNo + 1
            outstandingRequests := s.client.conn.outstandingRequests.set
              (s.client.conn.refNo + 1) q.request.callNo
            written }).setState i q (.draining (s.client.conn.refNo + 1)) with
        issued := s.issued.set (s.client.conn.refNo + 1) q.request.callNo } := by
  by_cases hmem : s.client.conn.refNo + 1 ∈ s.client.conn.outstandingRequests
  · refine Or.inl ⟨hmem, ?_⟩
    rw [send, AioConnection.sendRequest, if_pos hmem]
  · refine Or.inr ⟨s.client.conn.written ++
      (decimal (s.client.conn.refNo + 1) ++ ascii " " ++ q.request.toString), ?_⟩
    rw [send, AioConnection.sendRequest, if_neg hmem]

/-- After the `drain` a request waits for its new event, unless its ref-no has one. -/
theorem register_cases (s : System) (i : ℕ) (q : RequestCall) (refNo : ℕ) :
    (refNo ∈ s.client.outstandingRequestsEvents ∧
      s.register i q refNo =
        s.setState i q (.failedDraining refNo (.builtinError .assertionError))) ∨
    s.register i q refNo =
      { s with client := { s.client with
          outstandingRequestsEvents := s.client.outstandingRequestsEvents.set refNo false }
      }.setState i q (.waiting refNo) := by
  by_cases hmem : refNo ∈ s.client.outstandingRequestsEvents
  · refine Or.inl ⟨hmem, ?_⟩
    rw [register, AioClient.addEvent, if_pos hmem]
  · refine Or.inr ?_
    rw [register, AioClient.addEvent, if_neg hmem]

end System

/-! ## One try to parse -/

namespace System

variable {s : System}

/-- The system after a try that returned a response. -/
def parsedTo (s : System) (response : Response × Bytes) (buffer : AioReceiveBuffer) : System :=
  { s.setConn (({ s.client.conn with buffer } : AioConnection).settle response.1) with
    receiver := .received response }

/-- What one try to parse can do to a system. -/
theorem tryParse_cases (s : System) :
    (∃ response buffer, (AioConnection.replyParser s.client.conn.calls).run
          s.client.conn.buffer.current = .returned response buffer.current ∧
        s.tryParse = s.parsedTo response buffer) ∨
      (∃ e buffer, (AioConnection.replyParser s.client.conn.calls).run
          s.client.conn.buffer.current = .raised e buffer.current ∧
        s.tryParse = { s.setConn { s.client.conn with buffer } with receiver := .ended }) ∨
      s.tryParse = { s with receiver := .reading } := by
  have hspec := s.client.conn.tryParseResponse_spec
  cases hrun : (AioConnection.replyParser s.client.conn.calls).run s.client.conn.buffer.current with
  | returned response rest =>
    rw [hrun] at hspec
    obtain ⟨buffer, rfl, htry⟩ := hspec
    exact Or.inl ⟨response, buffer, rfl, by rw [tryParse, htry]; rfl⟩
  | raised e rest =>
    rw [hrun] at hspec
    obtain ⟨buffer, rfl, htry⟩ := hspec
    exact Or.inr (Or.inl ⟨e, buffer, rfl, by rw [tryParse, htry]⟩)
  | starved rest =>
    rw [hrun] at hspec
    change s.client.conn.tryParseResponse = .starved s.client.conn at hspec
    exact Or.inr (Or.inr (by rw [tryParse, hspec]; rfl))

/-- A try returns the response that the bytes in the buffer are read as. -/
theorem tryParse_of_run {response : Response × Bytes} {rest : Bytes}
    (hrun : (AioConnection.replyParser s.client.conn.calls).run s.client.conn.buffer.current =
      .returned response rest) :
    ∃ buffer, buffer.current = rest ∧ s.tryParse = s.parsedTo response buffer := by
  obtain ⟨buffer, hrest, htry⟩ := s.client.conn.tryParseResponse_of_run hrun
  exact ⟨buffer, hrest, by rw [tryParse, htry]; rfl⟩

@[simp] theorem requests_tryParse (s : System) : s.tryParse.requests = s.requests := by
  unfold tryParse
  split <;> rfl

@[simp] theorem events_tryParse (s : System) : s.tryParse.client.outstandingRequestsEvents =
    s.client.outstandingRequestsEvents := by
  unfold tryParse
  split <;> rfl

@[simp] theorem replyQueue_tryParse (s : System) :
    s.tryParse.client.replyQueue = s.client.replyQueue := by
  unfold tryParse
  split <;> rfl

@[simp] theorem received_tryParse (s : System) : s.tryParse.received = s.received := by
  unfold tryParse
  split <;> rfl

@[simp] theorem handled_tryParse (s : System) : s.tryParse.handled = s.handled := by
  unfold tryParse
  split <;> rfl

theorem Owned.tryParse (h : s.Owned) : s.tryParse.Owned := by
  rcases s.tryParse_cases with ⟨response, buffer, -, heq⟩ | ⟨e, buffer, -, heq⟩ | heq
  · rw [heq]
    exact h.settle response.1
  · rw [heq]
    exact h
  · rw [heq]
    exact h

end System

/-! ## What a step does to the client -/

namespace AioClient

variable (self : AioClient)

@[simp] theorem conn_queueReply (refNo : ℕ) (queued : QueuedReply) :
    (self.queueReply refNo queued).2.conn = self.conn := by
  unfold queueReply
  split <;> rfl

@[simp] theorem asyncmsgQueue_queueReply (refNo : ℕ) (queued : QueuedReply) :
    (self.queueReply refNo queued).2.asyncmsgQueue = self.asyncmsgQueue := by
  unfold queueReply
  split <;> rfl

@[simp] theorem conn_receiveResponse (resp : Response) (bytes : Bytes) :
    (self.receiveResponse (resp, bytes)).2.conn = self.conn := by
  cases resp with
  | ok refNo okReply => exact self.conn_queueReply _ _
  | error refNo errorReply => exact self.conn_queueReply _ _
  | async msg => rfl

/-- An asynchronous message is put at the end of the queue. -/
@[simp] theorem asyncmsgQueue_receiveResponse (resp : Response) (bytes : Bytes) :
    (self.receiveResponse (resp, bytes)).2.asyncmsgQueue =
      self.asyncmsgQueue ++ resp.asyncMsg.toList := by
  cases resp with
  | ok refNo okReply => exact (self.asyncmsgQueue_queueReply _ _).trans (List.append_nil _).symm
  | error refNo errorReply =>
    exact (self.asyncmsgQueue_queueReply _ _).trans (List.append_nil _).symm
  | async msg => rfl

@[simp] theorem conn_addEvent (refNo : ℕ) : (self.addEvent refNo).2.conn = self.conn := by
  unfold addEvent
  split <;> rfl

@[simp] theorem conn_endRequest (refNo : ℕ) (returnBytes : Bool) :
    (self.endRequest refNo returnBytes).2.conn = self.conn := by
  unfold endRequest handleReply
  split
  · rfl
  · split <;> rfl

@[simp] theorem asyncmsgQueue_endRequest (refNo : ℕ) (returnBytes : Bool) :
    (self.endRequest refNo returnBytes).2.asyncmsgQueue = self.asyncmsgQueue := by
  unfold endRequest handleReply
  split
  · rfl
  · split <;> rfl

end AioClient

/-- A step keeps the ref-nos in order. -/
theorem Step.owned {s t : System} {a : Action} (hstep : Step s a t) (h : s.Owned) : t.Owned := by
  cases hstep with
  | call request => exact h.append rfl
  | @send i q found starting free usable =>
    have hnone : q.state.refNo = none := by rw [starting]; rfl
    rcases s.send_cases i q with ⟨-, heq⟩ | ⟨written, heq⟩
    · rw [heq]
      exact h.skip.setState found hnone.symm
    · rw [heq]
      exact h.issue found hnone rfl
  | refuse found starting free closed =>
    apply h.setState found
    rw [starting]
    rfl
  | @register i q refNo found draining =>
    have hkeep : ∀ {state : RequestState}, state.refNo = some refNo →
        (s.setState i q state).Owned := by
      intro state hstate
      apply h.setState found
      rw [hstate, draining]
      rfl
    rcases s.register_cases i q refNo with ⟨-, heq⟩ | heq
    · rw [heq]
      exact hkeep rfl
    · rw [heq]
      exact hkeep rfl
  | @wake i q refNo found waiting set =>
    unfold System.wake System.setState
    simp only [System.Owned, AioClient.conn_endRequest]
    apply h.setState found
    rw [waiting]
    rfl
  | poll => exact System.Owned.tryParse h
  | read => exact @System.Owned.tryParse (s.setConn (s.client.conn.appendData _ _)) h
  | @receive response received =>
    rw [System.Owned, ← s.client.conn_receiveResponse response.1 response.2] at h
    exact h
  | cancel found cancelled =>
    apply h.setState found
    revert cancelled
    cases (‹RequestCall› : RequestCall).state <;> rintro ⟨⟩ <;> rfl
  | drainFails found draining =>
    apply h.setState found
    rw [draining]
    rfl
  | endOfStream | readFails | serverSends | serverBytes | serverEof | getMessage | handle | finish
  | closeTasks | disconnect => exact h

/-! ## Replies -/

/-- The events are those of the requests that wait for them, an event that is set has its
reply in the queue, and what is in the queue or was handed out has been received. -/
structure Delivered (events : Dict ℕ Bool) (replyQueue : Dict ℕ QueuedReply)
    (requests : List RequestCall) (received : List Response) : Prop where
  registered : ∀ {r : ℕ}, r ∈ events ↔
    ∃ (i : ℕ) (q : RequestCall), requests[i]? = some q ∧ q.state.registered = some r
  queued : ∀ {r : ℕ}, events.get? r = some true → r ∈ replyQueue
  queue_received : ∀ {r : ℕ} {x : QueuedReply}, replyQueue.get? r = some x →
    ∃ resp ∈ received, resp.reply = some (r, x.reply)
  done_received : ∀ {i : ℕ} {q : RequestCall} {r : ℕ} {result : Except Exn RequestResult},
    requests[i]? = some q → q.state = .done r result →
    ∃ resp ∈ received, ∃ reply, resp.reply = some (r, reply) ∧ result = RequestResult.ofReply reply

/-- The invariant of the replies. -/
abbrev System.Delivered (s : System) : Prop :=
  Pylyskom.Delivered s.client.outstandingRequestsEvents s.client.replyQueue s.requests s.received

theorem RequestState.refNo_of_registered {state : RequestState} {r : ℕ}
    (h : state.registered = some r) : state.refNo = some r := by
  cases state <;> first | exact h | cases h

namespace Delivered

variable {events : Dict ℕ Bool} {replyQueue : Dict ℕ QueuedReply} {requests : List RequestCall}
  {received : List Response} {i : ℕ} {q : RequestCall} {state : RequestState}

/-- The requests with an event, after one request moved on. -/
theorem registered_set (found : requests[i]? = some q) {r : ℕ} :
    (∃ (j : ℕ) (p : RequestCall), (requests.set i { q with state })[j]? = some p ∧
        p.state.registered = some r) ↔
      state.registered = some r ∨ ∃ (j : ℕ) (p : RequestCall), j ≠ i ∧ requests[j]? = some p ∧
        p.state.registered = some r := by
  constructor
  · rintro ⟨j, p, hp, hr⟩
    rcases (getElem?_set_eq_some_iff found).mp hp with ⟨rfl, rfl⟩ | ⟨hj, hp⟩
    · exact Or.inl hr
    · exact Or.inr ⟨j, p, hj, hp, hr⟩
  · rintro (hr | ⟨j, p, hj, hp, hr⟩)
    · exact ⟨i, { q with state }, (getElem?_set_eq_some_iff found).mpr (Or.inl ⟨rfl, rfl⟩), hr⟩
    · exact ⟨j, p, (getElem?_set_eq_some_iff found).mpr (Or.inr ⟨hj, hp⟩), hr⟩

/-- A task that keeps its event, or its lack of one, moves on. -/
theorem setState (h : Delivered events replyQueue requests received)
    (found : requests[i]? = some q) (same : state.registered = q.state.registered)
    (running : ∀ r result, state ≠ .done r result) :
    Delivered events replyQueue (requests.set i { q with state }) received := by
  constructor
  · intro r
    rw [registered_set found, same, h.registered]
    constructor
    · rintro ⟨j, p, hp, hr⟩
      by_cases hj : j = i
      · subst hj
        obtain rfl : q = p := Option.some.inj (found.symm.trans hp)
        exact Or.inl hr
      · exact Or.inr ⟨j, p, hj, hp, hr⟩
    · rintro (hr | ⟨j, p, -, hp, hr⟩)
      · exact ⟨i, q, found, hr⟩
      · exact ⟨j, p, hp, hr⟩
  · exact h.queued
  · exact h.queue_received
  · intro j p r result hp hdone
    rcases (getElem?_set_eq_some_iff found).mp hp with ⟨rfl, rfl⟩ | ⟨-, hp⟩
    · exact absurd hdone (running r result)
    · exact h.done_received hp hdone

/-- A new task has neither an event nor a result. -/
theorem append (h : Delivered events replyQueue requests received)
    (starting : q.state = .starting) : Delivered events replyQueue (requests ++ [q]) received := by
  constructor
  · intro r
    rw [h.registered]
    constructor
    · rintro ⟨j, p, hp, hr⟩
      exact ⟨j, p, getElem?_append_singleton_iff.mpr (Or.inr hp), hr⟩
    · rintro ⟨j, p, hp, hr⟩
      rcases getElem?_append_singleton_iff.mp hp with ⟨-, rfl⟩ | hp
      · rw [starting] at hr
        cases hr
      · exact ⟨j, p, hp, hr⟩
  · exact h.queued
  · exact h.queue_received
  · intro j p r result hp hdone
    rcases getElem?_append_singleton_iff.mp hp with ⟨-, rfl⟩ | hp
    · rw [starting] at hdone
      cases hdone
    · exact h.done_received hp hdone

/-- A request that has been sent gets its event. -/
theorem register (h : Delivered events replyQueue requests received) (found : requests[i]? = some q)
    {refNo : ℕ} (draining : q.state = .draining refNo) :
    Delivered (events.set refNo false) replyQueue
      (requests.set i { q with state := .waiting refNo }) received := by
  constructor
  · intro r
    rw [registered_set found, Dict.mem_set, h.registered]
    constructor
    · rintro (rfl | ⟨j, p, hp, hr⟩)
      · exact Or.inl rfl
      · refine Or.inr ⟨j, p, ?_, hp, hr⟩
        rintro rfl
        obtain rfl : q = p := Option.some.inj (found.symm.trans hp)
        rw [draining] at hr
        cases hr
    · rintro (hr | ⟨j, p, -, hp, hr⟩)
      · exact Or.inl (Option.some.inj hr).symm
      · exact Or.inr ⟨j, p, hp, hr⟩
  · intro r hset
    rw [Dict.get?_set] at hset
    split at hset
    · cases hset
    · exact h.queued hset
  · exact h.queue_received
  · intro j p r result hp hdone
    rcases (getElem?_set_eq_some_iff found).mp hp with ⟨rfl, rfl⟩ | ⟨-, hp⟩
    · cases hdone
    · exact h.done_received hp hdone

/-- A request whose event was set takes its reply, and deletes its event. -/
theorem wake (h : Delivered events replyQueue requests received) (found : requests[i]? = some q)
    {refNo : ℕ} (waiting : q.state = .waiting refNo) {queued : QueuedReply}
    (hqueued : replyQueue.get? refNo = some queued)
    (alone : ∀ {j : ℕ} {p : RequestCall}, requests[j]? = some p → p.state.refNo = some refNo →
      j = i) :
    Delivered (events.erase refNo) (replyQueue.erase refNo)
      (requests.set i { q with state := .done refNo (RequestResult.ofReply queued.reply) })
      received := by
  constructor
  · intro r
    rw [registered_set found, Dict.mem_erase, h.registered]
    constructor
    · rintro ⟨hne, j, p, hp, hr⟩
      refine Or.inr ⟨j, p, ?_, hp, hr⟩
      rintro rfl
      obtain rfl : q = p := Option.some.inj (found.symm.trans hp)
      rw [waiting] at hr
      exact hne (Option.some.inj hr).symm
    · rintro (hr | ⟨j, p, hj, hp, hr⟩)
      · cases hr
      · refine ⟨?_, j, p, hp, hr⟩
        rintro rfl
        exact hj (alone hp (RequestState.refNo_of_registered hr))
  · intro r hset
    rw [Dict.get?_erase] at hset
    split at hset
    · cases hset
    · next hne => exact Dict.mem_erase.mpr ⟨hne, h.queued hset⟩
  · intro r x hx
    rw [Dict.get?_erase] at hx
    split at hx
    · cases hx
    · exact h.queue_received hx
  · intro j p r result hp hdone
    rcases (getElem?_set_eq_some_iff found).mp hp with ⟨rfl, rfl⟩ | ⟨-, hp⟩
    · cases hdone
      obtain ⟨resp, hresp, hreply⟩ := h.queue_received hqueued
      exact ⟨resp, hresp, queued.reply, hreply, rfl⟩
    · exact h.done_received hp hdone

/-- More responses are received. -/
theorem receive (h : Delivered events replyQueue requests received) (resp : Response) :
    Delivered events replyQueue requests (received ++ [resp]) := by
  constructor
  · exact h.registered
  · exact h.queued
  · intro r x hx
    obtain ⟨resp', hresp', hreply⟩ := h.queue_received hx
    exact ⟨resp', List.mem_append_left _ hresp', hreply⟩
  · intro j p r result hp hdone
    obtain ⟨resp', hresp', hreply⟩ := h.done_received hp hdone
    exact ⟨resp', List.mem_append_left _ hresp', hreply⟩

/-- A reply that was received goes on the queue. -/
theorem queue (h : Delivered events replyQueue requests received) {resp : Response} {refNo : ℕ}
    {queued : QueuedReply} (hresp : resp ∈ received)
    (hreply : resp.reply = some (refNo, queued.reply)) :
    Delivered events (replyQueue.set refNo queued) requests received := by
  constructor
  · exact h.registered
  · intro r hset
    exact Dict.mem_set.mpr (Or.inr (h.queued hset))
  · intro r x hx
    rw [Dict.get?_set] at hx
    split at hx
    · next heq =>
      subst heq
      cases hx
      exact ⟨resp, hresp, hreply⟩
    · exact h.queue_received hx
  · exact h.done_received

/-- The event of a queued reply is set. -/
theorem setEvent (h : Delivered events replyQueue requests received) {refNo : ℕ}
    (hevent : refNo ∈ events) (hqueued : refNo ∈ replyQueue) :
    Delivered (events.set refNo true) replyQueue requests received := by
  constructor
  · intro r
    rw [Dict.mem_set, ← h.registered]
    constructor
    · rintro (rfl | hr)
      · exact hevent
      · exact hr
    · exact Or.inr
  · intro r hset
    rw [Dict.get?_set] at hset
    split at hset
    · next heq => exact heq ▸ hqueued
    · exact h.queued hset
  · exact h.queue_received
  · exact h.done_received

end Delivered

namespace System

variable {s : System}

/-- Trying to parse changes neither events nor replies. -/
theorem Delivered.tryParse (h : s.Delivered) : s.tryParse.Delivered := by
  rcases s.tryParse_cases with ⟨response, buffer, -, heq⟩ | ⟨e, buffer, -, heq⟩ | heq
  · rw [heq]
    exact h
  · rw [heq]
    exact h
  · rw [heq]
    exact h

/-- A response is received; a reply without an event is queued all the same. -/
theorem Delivered.receive (h : s.Delivered) (response : Response × Bytes) :
    (s.receive response).Delivered := by
  obtain ⟨resp, bytes⟩ := response
  have hnext := Pylyskom.Delivered.receive h resp
  have hresp : resp ∈ s.received ++ [resp] := by simp
  cases hreply : resp.reply with
  | none =>
    cases resp with
    | async msg => exact hnext
    | ok r okReply => cases hreply
    | error r errorReply => cases hreply
  | some content =>
    obtain ⟨refNo, reply⟩ := content
    have hqueue := @Pylyskom.Delivered.queue _ _ _ _ hnext resp refNo ⟨reply, bytes⟩ hresp hreply
    unfold System.receive
    rw [AioClient.receiveResponse_reply _ hreply, AioClient.queueReply]
    by_cases hevent : refNo ∈ s.client.outstandingRequestsEvents
    · simp only [hevent, not_true_eq_false, if_false]
      exact hqueue.setEvent hevent (Dict.mem_set.mpr (Or.inl rfl))
    · simp only [hevent, not_false_eq_true, if_true]
      exact hqueue

/-- A request with its event set ends with the reply from the queue. -/
theorem wake_eq (h : s.Delivered) {i : ℕ} {q : RequestCall} {refNo : ℕ}
    (set : s.client.outstandingRequestsEvents.get? refNo = some true) :
    ∃ queued, s.client.replyQueue.get? refNo = some queued ∧
      s.wake i q refNo = { s with
          client := { s.client with
            outstandingRequestsEvents := s.client.outstandingRequestsEvents.erase refNo
            replyQueue := s.client.replyQueue.erase refNo }
        }.setState i q (.done refNo (RequestResult.ofReply queued.reply)) := by
  obtain ⟨queued, hqueued⟩ := Option.isSome_iff_exists.mp (Dict.mem_iff_isSome.mp (h.queued set))
  refine ⟨queued, hqueued, ?_⟩
  rw [System.wake, AioClient.endRequest_eq (Dict.mem_of_get? set) hqueued]

/-- A send always gives out the next ref-no. -/
theorem send_eq (howned : s.Owned) (i : ℕ) (q : RequestCall) :
    ∃ written, s.send i q =
      { (s.setConn { s.client.conn with
            refNo := s.client.conn.refNo + 1
            outstandingRequests := s.client.conn.outstandingRequests.set
              (s.client.conn.refNo + 1) q.request.callNo
            written }).setState i q (.draining (s.client.conn.refNo + 1)) with
        issued := s.issued.set (s.client.conn.refNo + 1) q.request.callNo } := by
  rcases s.send_cases i q with ⟨hmem, -⟩ | heq
  · obtain ⟨callNo, hcall⟩ := Option.isSome_iff_exists.mp (Dict.mem_iff_isSome.mp hmem)
    exact absurd (Dict.mem_of_get? (howned.outstanding_issued hcall)) howned.fresh
  · exact heq

/-- A request in its `drain` has no event yet. -/
theorem not_mem_events_of_draining (howned : s.Owned) (hdelivered : s.Delivered) {i : ℕ}
    {q : RequestCall} {r : ℕ} (found : s.requests[i]? = some q)
    (draining : q.state = .draining r) : r ∉ s.client.outstandingRequestsEvents := by
  intro hevent
  obtain ⟨j, p, hp, hregistered⟩ := hdelivered.registered.mp hevent
  have hrefNo : q.state.refNo = some r := by rw [draining]; rfl
  obtain rfl := howned.unique found hp hrefNo (RequestState.refNo_of_registered hregistered)
  obtain rfl : q = p := Option.some.inj (found.symm.trans hp)
  rw [draining] at hregistered
  cases hregistered

/-- What a request does at the end of its `drain`. -/
theorem register_eq (howned : s.Owned) (hdelivered : s.Delivered) {i : ℕ} {q : RequestCall}
    {r : ℕ} (found : s.requests[i]? = some q) (draining : q.state = .draining r) :
    s.register i q r = { s with client := { s.client with
        outstandingRequestsEvents := s.client.outstandingRequestsEvents.set r false }
      }.setState i q (.waiting r) := by
  rcases s.register_cases i q r with ⟨hmem, -⟩ | heq
  · exact absurd hmem (not_mem_events_of_draining howned hdelivered found draining)
  · exact heq

end System

/-- A step keeps the replies in order. -/
theorem Step.delivered {s t : System} {a : Action} (hstep : Step s a t) (howned : s.Owned)
    (h : s.Delivered) : t.Delivered := by
  cases hstep with
  | call request => exact h.append rfl
  | @send i q found starting free usable =>
    have hkeep : ∀ {state : RequestState}, state.registered = none →
        (∀ r result, state ≠ .done r result) → (s.setState i q state).Delivered := by
      intro state hstate hrunning
      apply h.setState found _ hrunning
      rw [hstate, starting]
      rfl
    rcases s.send_cases i q with ⟨-, heq⟩ | ⟨written, heq⟩
    · rw [heq]
      exact hkeep rfl (by simp)
    · rw [heq]
      exact hkeep rfl (by simp)
  | refuse found starting free closed =>
    apply h.setState found
    · rw [starting]
      rfl
    · simp
  | @register i q refNo found draining =>
    rcases s.register_cases i q refNo with ⟨-, heq⟩ | heq
    · rw [heq]
      apply h.setState found
      · rw [draining]
        rfl
      · simp
    · rw [heq]
      exact h.register found draining
  | @wake i q refNo found waiting set =>
    obtain ⟨queued, hqueued, heq⟩ := @System.wake_eq s h i q refNo set
    rw [heq]
    apply h.wake found waiting hqueued
    intro j p hp hrefNo
    exact howned.unique hp found hrefNo (by rw [waiting]; rfl)
  | poll => exact System.Delivered.tryParse h
  | read => exact @System.Delivered.tryParse (s.setConn (s.client.conn.appendData _ _)) h
  | receive => exact System.Delivered.receive h _
  | @cancel i q state found cancelled =>
    apply h.setState found
    · revert cancelled
      cases q.state <;> rintro ⟨⟩ <;> rfl
    · revert cancelled
      cases q.state <;> rintro ⟨⟩ <;> simp
  | drainFails found draining =>
    apply h.setState found
    · rw [draining]
      rfl
    · simp
  | endOfStream | readFails | serverSends | serverBytes | serverEof | getMessage | handle | finish
  | closeTasks | disconnect => exact h

/-! ## Asynchronous messages -/

/-- The message that the asyncmsg receiver is about to handle. -/
def Handler.held : Handler → List AsyncMessage
  | holding msg => [msg]
  | _ => []

/-- The asynchronous messages among the responses received. -/
def System.asyncReceived (s : System) : List AsyncMessage :=
  s.received.filterMap Response.asyncMsg

/-- The messages were handled in the order in which they were received, and the others wait
in the queue unless the asyncmsg receiver has ended. -/
structure System.Ordered (s : System) : Prop where
  handled_prefix : s.handled <+: s.asyncReceived
  waiting : s.handler ≠ .ended →
    s.asyncReceived = s.handled ++ (s.handler.held ++ s.client.asyncmsgQueue)

/-- A response is received; only an asynchronous message is queued. -/
theorem System.Ordered.receive {s : System} (h : s.Ordered) (response : Response × Bytes) :
    (s.receive response).Ordered := by
  obtain ⟨resp, bytes⟩ := response
  have hasync : (s.receive (resp, bytes)).asyncReceived =
      s.asyncReceived ++ resp.asyncMsg.toList := by
    unfold System.asyncReceived System.receive
    cases hmsg : resp.asyncMsg <;> simp [hmsg]
  have hqueue := s.client.asyncmsgQueue_receiveResponse resp bytes
  constructor
  · rw [hasync]
    exact h.handled_prefix.trans (List.prefix_append _ _)
  · intro hrunning
    rw [hasync, h.waiting hrunning, List.append_assoc, List.append_assoc, ← hqueue]
    rfl

/-- Trying to parse handles no message. -/
theorem System.Ordered.tryParse {s : System} (h : s.Ordered) : s.tryParse.Ordered := by
  rcases s.tryParse_cases with ⟨response, buffer, -, heq⟩ | ⟨e, buffer, -, heq⟩ | heq
  · rw [heq]
    exact ⟨h.handled_prefix, h.waiting⟩
  · rw [heq]
    exact ⟨h.handled_prefix, h.waiting⟩
  · rw [heq]
    exact ⟨h.handled_prefix, h.waiting⟩

/-- A step keeps the messages in order. -/
theorem Step.ordered {s t : System} {a : Action} (hstep : Step s a t) (h : s.Ordered) :
    t.Ordered := by
  cases hstep with
  | @send i q found starting free usable =>
    rcases s.send_cases i q with ⟨-, heq⟩ | ⟨written, heq⟩
    · rw [heq]
      exact ⟨h.handled_prefix, h.waiting⟩
    · rw [heq]
      exact ⟨h.handled_prefix, h.waiting⟩
  | @register i q refNo found draining =>
    rcases s.register_cases i q refNo with ⟨-, heq⟩ | heq
    · rw [heq]
      exact ⟨h.handled_prefix, h.waiting⟩
    · rw [heq]
      exact ⟨h.handled_prefix, h.waiting⟩
  | @wake i q refNo found waiting set =>
    refine ⟨h.handled_prefix, fun hrunning => ?_⟩
    change _ = s.handled ++ (s.handler.held ++ (s.client.endRequest refNo false).2.asyncmsgQueue)
    rw [AioClient.asyncmsgQueue_endRequest]
    exact h.waiting hrunning
  | poll => exact h.tryParse
  | read => exact System.Ordered.tryParse ⟨h.handled_prefix, h.waiting⟩
  | receive => exact h.receive _
  | @getMessage msg rest getting first =>
    have hwaiting := h.waiting (by simp [getting])
    rw [getting, first] at hwaiting
    exact ⟨h.handled_prefix, fun _ => hwaiting⟩
  | @handle msg holding =>
    have hwaiting := h.waiting (by simp [holding])
    rw [holding, ← List.append_assoc] at hwaiting
    refine ⟨?_, fun _ => hwaiting⟩
    change s.handled ++ [msg] <+: s.asyncReceived
    rw [hwaiting]
    exact List.prefix_append _ _
  | @finish msg handling raised =>
    have hwaiting := h.waiting (by simp [handling])
    rw [handling] at hwaiting
    exact ⟨h.handled_prefix, fun _ => hwaiting⟩
  | closeTasks => exact ⟨h.handled_prefix, fun hrunning => absurd rfl hrunning⟩
  | call | refuse | endOfStream | readFails | serverSends | serverBytes | serverEof | cancel
  | drainFails | disconnect => exact ⟨h.handled_prefix, h.waiting⟩

/-! ## Runs -/

/-- What holds of ref-nos, replies and messages after every run. -/
theorem Run.invariants {allowed : System → Action → Prop} {user : Bytes} {s : System}
    (h : Run Step allowed (.connected user) s) : s.Owned ∧ s.Delivered ∧ s.Ordered := by
  apply h.invariant (P := fun s => s.Owned ∧ s.Delivered ∧ s.Ordered)
  · refine ⟨?_, ?_, ?_⟩
    · constructor <;> simp [System.connected, AioConnection.connected]
    · constructor <;> simp [System.connected]
    · constructor <;> simp [System.connected, System.asyncReceived, Handler.held]
  · intro s a t _ hstep hs
    exact ⟨hstep.owned hs.1, hstep.delivered hs.1 hs.2.1, hstep.ordered hs.2.2⟩

/-- A run goes on when the stream delivers what the next response is read from. -/
theorem Run.reach_read {allowed : System → Action → Prop} {P : System → Prop} {s : System}
    (response : Response × Bytes) (rest : Bytes) (hallowed : allowed s .read)
    (reading : s.receiver = .reading) (data : s.client.conn.tcpStreamReader.bytes ≠ [])
    (hrun : (AioConnection.replyParser s.client.conn.calls).run (s.client.conn.buffer.current ++
      (s.client.conn.tcpStreamReader.recv 1024).1) = .returned response rest)
    (h : ∀ buffer : AioReceiveBuffer, buffer.current = rest → ∃ t, Run Step allowed
      ((s.setConn (s.client.conn.appendData (s.client.conn.tcpStreamReader.recv 1024).1
        (s.client.conn.tcpStreamReader.recv 1024).2)).parsedTo response buffer) t ∧ P t) :
    ∃ t, Run Step allowed s t ∧ P t := by
  obtain ⟨buffer, hrest, heq⟩ := @System.tryParse_of_run (s.setConn (s.client.conn.appendData
    (s.client.conn.tcpStreamReader.recv 1024).1 (s.client.conn.tcpStreamReader.recv 1024).2))
    response rest hrun
  apply Run.reach hallowed (.read reading data)
  rw [System.read, heq]
  exact h buffer hrest

end Pylyskom
