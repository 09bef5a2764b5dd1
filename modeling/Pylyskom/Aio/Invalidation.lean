import Pylyskom.Aio.Cache

/-!
# Lost invalidations

The tasks of a caching client. A reply wakes the task that is to store its value, while an
invalidation goes through the queue of another task. An invalidation is lost when it is
handled before the value of an earlier reply has been stored, and only then.
-/

namespace Pylyskom

/-- A task in `AioCache.get` whose key was not in the cache, with the number of the task in
`_request` that fetches its value. -/
structure Fetching where
  cache : CacheName
  no : ℕ
  index : ℕ

structure CachingSystem where
  base : System
  client : AioCachingClient
  fetching : List Fetching

inductive CachingAction : Type
  | get (c : CacheName) (no : ℕ)
  | base (a : Action)

/-- All steps but those of a server that sends anything at all, and of `close`. -/
def CachingAction.orderly : CachingAction → Bool
  | get _ _ => true
  | base a => a.orderly

/-- The steps in which neither a value is stored nor a message handled. -/
def Action.leavesCaches : Action → Bool
  | wake _ | handle => false
  | _ => true

namespace CachingSystem

def connected (user : Bytes) : CachingSystem := ⟨.connected user, .init, []⟩

/-- A request ends. If it was to fetch a value and has returned one, the value is stored. -/
def wake (s : CachingSystem) (i : ℕ) (q : RequestCall) (refNo : ℕ) : CachingSystem :=
  { s with
    base := s.base.wake i q refNo
    client :=
      match s.fetching.find? (fun f => f.index = i), (s.base.client.endRequest refNo false).1 with
      | some f, .ok (.reply value) => s.client.store f.cache f.no value
      | _, _ => s.client }

end CachingSystem

/-- One step of a caching client's tasks; tasks are switched only where they are suspended,
so a value is stored in the step in which its request ends. -/
inductive CachingStep : CachingSystem → CachingAction → CachingSystem → Prop
  | hit {s : CachingSystem} {c : CacheName} {no : ℕ} {value : OkReply}
      (present : s.client.lookup c no = some value) :
      CachingStep s (.get c no) { s with client := s.client.get c no }
  | miss {s : CachingSystem} {c : CacheName} {no : ℕ} (absent : s.client.lookup c no = none) :
      CachingStep s (.get c no)
        { base := { s.base with
            requests := s.base.requests ++ [{ request := c.fetch no, state := .starting }] }
          client := s.client.get c no
          fetching := s.fetching ++ [⟨c, no, s.base.requests.length⟩] }
  | wake {s : CachingSystem} {i : ℕ} {q : RequestCall} {refNo : ℕ}
      (found : s.base.requests[i]? = some q) (waiting : q.state = .waiting refNo)
      (set : s.base.client.outstandingRequestsEvents.get? refNo = some true) :
      CachingStep s (.base (.wake i)) (s.wake i q refNo)
  /-- The handler function invalidates before it is suspended. -/
  | handle {s : CachingSystem} {msg : AsyncMessage} (holding : s.base.handler = .holding msg) :
      CachingStep s (.base .handle)
        { s with
          base := { s.base with handler := .handling msg, handled := s.base.handled ++ [msg] }
          client := s.client.handleAsyncMessage msg }
  | other {s : CachingSystem} {a : Action} {t : System} (step : Step s.base a t)
      (leaves : a.leavesCaches = true) : CachingStep s (.base a) { s with base := t }

/-- A step of the caching client is at most one step of the client below it. -/
theorem CachingStep.base_run {s t : CachingSystem} {a : CachingAction} (hstep : CachingStep s a t)
    {allowed : System → Action → Prop} (hcall : ∀ u request, allowed u (.call request))
    (hbase : ∀ b, a = .base b → allowed s.base b) : Run Step allowed s.base t.base := by
  cases hstep with
  | hit => exact Run.refl
  | miss => exact Run.refl.tail (hcall _ _) (.call _)
  | wake found waiting set => exact Run.refl.tail (hbase _ rfl) (.wake found waiting set)
  | handle holding => exact Run.refl.tail (hbase _ rfl) (.handle holding)
  | other step leaves => exact Run.refl.tail (hbase _ rfl) step

/-! ## What a step does to the requests -/

/-- The ref-no whose reply a request still has to take. -/
def RequestState.pending : RequestState → Option ℕ
  | draining refNo => some refNo
  | waiting refNo => some refNo
  | _ => none

/-- A step calls a new request, or moves one request on, which keeps its ref-no once it has
one; only a send brings a new ref-no. -/
theorem Step.requests_cases {s t : System} {a : Action} (hstep : Step s a t) :
    t.requests = s.requests ∨
    (∃ request, t.requests = s.requests ++ [{ request, state := .starting }]) ∨
    ∃ i q state, s.requests[i]? = some q ∧ t.requests = s.requests.set i { q with state } ∧
      (∀ r, q.state.refNo = some r → state.refNo = some r) ∧
      (∀ r, state.pending = some r →
        q.state.pending = some r ∨ r = s.client.conn.refNo + 1) := by
  cases hstep with
  | call request => exact Or.inr (Or.inl ⟨request, rfl⟩)
  | @send i q found starting free usable =>
    right
    right
    rcases s.send_cases i q with ⟨-, heq⟩ | ⟨written, heq⟩
    · rw [heq]
      exact ⟨i, q, _, found, rfl, by simp [starting, RequestState.refNo], by
        simp [RequestState.pending]⟩
    · rw [heq]
      exact ⟨i, q, _, found, rfl, by simp [starting, RequestState.refNo], by
        simp [RequestState.pending, eq_comm]⟩
  | @refuse i q found starting =>
    exact Or.inr (Or.inr ⟨i, q, _, found, rfl, by simp [starting, RequestState.refNo], by
      simp [RequestState.pending]⟩)
  | @register i q refNo found draining =>
    right
    right
    rcases s.register_cases i q refNo with ⟨-, heq⟩ | heq
    · rw [heq]
      exact ⟨i, q, _, found, rfl, by simp [draining, RequestState.refNo], by
        simp [RequestState.pending]⟩
    · rw [heq]
      exact ⟨i, q, _, found, rfl, by simp [draining, RequestState.refNo], by
        simp [draining, RequestState.pending]⟩
  | @wake i q refNo found waiting =>
    exact Or.inr (Or.inr ⟨i, q, _, found, rfl, by simp [waiting, RequestState.refNo], by
      simp [RequestState.pending]⟩)
  | poll | read => exact Or.inl (System.requests_tryParse _)
  | @cancel i q state found cancelled =>
    refine Or.inr (Or.inr ⟨i, q, state, found, rfl, ?_, ?_⟩)
    · revert cancelled
      cases q.state <;> rintro ⟨⟩ <;> simp [RequestState.refNo]
    · revert cancelled
      cases q.state <;> rintro ⟨⟩ <;> simp [RequestState.pending]
  | @drainFails i q refNo e found draining =>
    exact Or.inr (Or.inr ⟨i, q, _, found, rfl, by simp [draining, RequestState.refNo], by
      simp [RequestState.pending]⟩)
  | endOfStream | readFails | receive | serverSends | serverBytes | serverEof | getMessage
  | handle | finish | closeTasks | disconnect => exact Or.inl rfl

/-- A request stays what it is, and keeps its ref-no. -/
theorem Step.persists {s t : System} {a : Action} (hstep : Step s a t) {i : ℕ} {q : RequestCall}
    (hq : s.requests[i]? = some q) : ∃ p, t.requests[i]? = some p ∧ p.request = q.request ∧
      ∀ r, q.state.refNo = some r → p.state.refNo = some r := by
  rcases hstep.requests_cases with heq | ⟨request, heq⟩ | ⟨j, p, state, found, heq, hkeep, -⟩
  · rw [heq]
    exact ⟨q, hq, rfl, fun _ => id⟩
  · rw [heq]
    exact ⟨q, getElem?_append_singleton_iff.mpr (Or.inr hq), rfl, fun _ => id⟩
  · rw [heq]
    by_cases hi : i = j
    · subst hi
      obtain rfl : q = p := Option.some.inj (hq.symm.trans found)
      exact ⟨_, (getElem?_set_eq_some_iff found).mpr (Or.inl ⟨rfl, rfl⟩), rfl, hkeep⟩
    · exact ⟨q, (getElem?_set_eq_some_iff found).mpr (Or.inr ⟨hi, hq⟩), rfl, fun _ => id⟩

/-- A request that still has to take its reply had to before, or has just been sent. -/
theorem Step.pending_before {s t : System} {a : Action} (hstep : Step s a t) {i : ℕ}
    {p : RequestCall} {r : ℕ} (hp : t.requests[i]? = some p) (hr : p.state.pending = some r) :
    (∃ q, s.requests[i]? = some q ∧ q.state.pending = some r) ∨
      r = s.client.conn.refNo + 1 := by
  rcases hstep.requests_cases with heq | ⟨request, heq⟩ | ⟨j, q, state, found, heq, -, hnew⟩
  · rw [heq] at hp
    exact Or.inl ⟨p, hp, hr⟩
  · rw [heq] at hp
    rcases getElem?_append_singleton_iff.mp hp with ⟨-, rfl⟩ | hp
    · cases hr
    · exact Or.inl ⟨p, hp, hr⟩
  · rw [heq] at hp
    rcases (getElem?_set_eq_some_iff found).mp hp with ⟨rfl, rfl⟩ | ⟨-, hp⟩
    · rcases hnew r hr with hr | hr
      · exact Or.inl ⟨q, found, hr⟩
      · exact Or.inr hr
    · exact Or.inl ⟨p, hp, hr⟩

/-- More responses may be received. -/
theorem Step.received_prefix {s t : System} {a : Action} (hstep : Step s a t) :
    ∃ more, t.received = s.received ++ more := by
  cases hstep with
  | @receive response received => exact ⟨[response.1], rfl⟩
  | @send i q =>
    rcases s.send_cases i q with ⟨-, heq⟩ | ⟨written, heq⟩
    · rw [heq]
      exact ⟨[], (List.append_nil _).symm⟩
    · rw [heq]
      exact ⟨[], (List.append_nil _).symm⟩
  | @register i q refNo =>
    rcases s.register_cases i q refNo with ⟨-, heq⟩ | heq
    · rw [heq]
      exact ⟨[], (List.append_nil _).symm⟩
    · rw [heq]
      exact ⟨[], (List.append_nil _).symm⟩
  | poll | read => exact ⟨[], (System.received_tryParse _).trans (List.append_nil _).symm⟩
  | call | refuse | wake | endOfStream | readFails | serverSends | serverBytes | serverEof
  | getMessage | handle | finish | cancel | drainFails | closeTasks | disconnect =>
    exact ⟨[], (List.append_nil _).symm⟩

/-- Messages are handled in one kind of step only. -/
theorem Step.handled_eq {s t : System} {a : Action} (hstep : Step s a t) (hne : a ≠ .handle) :
    t.handled = s.handled := by
  cases hstep with
  | handle => exact absurd rfl hne
  | @send i q =>
    rcases s.send_cases i q with ⟨-, heq⟩ | ⟨written, heq⟩
    · rw [heq]
      rfl
    · rw [heq]
      rfl
  | @register i q refNo =>
    rcases s.register_cases i q refNo with ⟨-, heq⟩ | heq
    · rw [heq]
      rfl
    · rw [heq]
      rfl
  | poll | read => exact System.handled_tryParse _
  | call | refuse | wake | endOfStream | readFails | receive | serverSends | serverBytes
  | serverEof | getMessage | finish | cancel | drainFails | closeTasks | disconnect => rfl

/-! ## Values and invalidations -/

namespace System

/-- The ref-no was given to a request for the value of the key. -/
def Asks (s : System) (c : CacheName) (no r : ℕ) : Prop :=
  ∃ (i : ℕ) (q : RequestCall), s.requests[i]? = some q ∧ q.request = c.fetch no ∧
    q.state.refNo = some r

/-- The response was received, and of the messages received after it none that was handled
invalidates the key. -/
def Uninvalidated (s : System) (c : CacheName) (no : ℕ) (resp : Response) : Prop :=
  ∃ before after, s.received = before ++ resp :: after ∧
    ∀ msg ∈ s.handled.drop (before.filterMap Response.asyncMsg).length, (c, no) ∉ msg.invalidated

/-- The reply to a ref-no was received before the next message to be handled. -/
def RepliedBefore (s : System) (r : ℕ) : Prop :=
  ∃ before resp after, s.received = before ++ resp :: after ∧ resp.refNo = some r ∧
    (before.filterMap Response.asyncMsg).length ≤ s.handled.length

variable {s t : System} {c : CacheName} {no : ℕ} {resp : Response}

/-- Receiving more does not invalidate. -/
theorem Uninvalidated.receive (h : s.Uninvalidated c no resp)
    (hreceived : ∃ more, t.received = s.received ++ more) (hhandled : t.handled = s.handled) :
    t.Uninvalidated c no resp := by
  obtain ⟨before, after, heq, hrest⟩ := h
  obtain ⟨more, hmore⟩ := hreceived
  refine ⟨before, after ++ more, ?_, ?_⟩
  · rw [hmore, heq, List.append_assoc, List.cons_append]
  · rw [hhandled]
    exact hrest

/-- No message that comes after a new response has been handled. -/
theorem uninvalidated_of_new (hordered : s.Ordered) {more : List Response}
    (hreceived : t.received = s.received ++ more) (hhandled : t.handled = s.handled)
    (hresp : resp ∈ more) : t.Uninvalidated c no resp := by
  obtain ⟨front, after, rfl⟩ := List.append_of_mem hresp
  refine ⟨s.received ++ front, after, ?_, ?_⟩
  · rw [hreceived, List.append_assoc]
  · have hle := hordered.handled_prefix.length_le
    have hlen : t.handled.length ≤
        ((s.received ++ front).filterMap Response.asyncMsg).length := by
      rw [hhandled, List.filterMap_append, List.length_append]
      exact hle.trans (Nat.le_add_right _ _)
    rw [List.drop_eq_nil_of_le hlen]
    simp

/-- A message is handled that does not invalidate the key, or came before the response. -/
theorem Uninvalidated.handle (h : s.Uninvalidated c no resp) {msg : AsyncMessage}
    (hreceived : t.received = s.received) (hhandled : t.handled = s.handled ++ [msg])
    (hmsg : (c, no) ∈ msg.invalidated → ∀ before after, s.received = before ++ resp :: after →
      s.handled.length < (before.filterMap Response.asyncMsg).length) :
    t.Uninvalidated c no resp := by
  obtain ⟨before, after, heq, hrest⟩ := h
  refine ⟨before, after, hreceived.trans heq, ?_⟩
  intro m hm
  by_cases hle : (before.filterMap Response.asyncMsg).length ≤ s.handled.length
  · rw [hhandled, List.drop_append_of_le_length hle] at hm
    rcases List.mem_append.mp hm with hm | hm
    · exact hrest m hm
    · obtain rfl := List.mem_singleton.mp hm
      intro hin
      have hlt := hmsg hin before after heq
      omega
  · have hlen : t.handled.length ≤ (before.filterMap Response.asyncMsg).length := by
      rw [hhandled, List.length_append, List.length_singleton]
      omega
    rw [List.drop_eq_nil_of_le hlen] at hm
    cases hm

theorem Asks.persists (h : s.Asks c no r) {a : Action} (hstep : Step s a t) : t.Asks c no r := by
  obtain ⟨i, q, hq, hrequest, hr⟩ := h
  obtain ⟨p, hp, hsame, hkeep⟩ := hstep.persists hq
  exact ⟨i, p, hp, hsame.trans hrequest, hkeep r hr⟩

end System

/-- What is cached, or may yet be, has not been invalidated by a message handled so far. -/
structure CachingSystem.Fresh (s : CachingSystem) : Prop where
  /-- A task that fetches has a request for the value of its key. -/
  fetches : ∀ f ∈ s.fetching, ∃ q, s.base.requests[f.index]? = some q ∧
    q.request = f.cache.fetch f.no
  entries : ∀ {c : CacheName} {no : ℕ} {value : OkReply}, s.client.lookup c no = some value →
    ∃ r, s.base.Asks c no r ∧ s.base.Uninvalidated c no (.ok r value)
  /-- This is so for a reply that has been received and not yet taken, too. -/
  replies : ∀ f ∈ s.fetching, ∀ {q : RequestCall} {r : ℕ}, s.base.requests[f.index]? = some q →
    q.state.pending = some r → ∀ resp ∈ s.base.received, resp.refNo = some r →
    s.base.Uninvalidated f.cache f.no resp

/-- A message is handled only if no task has yet to store a value that the message makes
invalid, and whose reply came before the message. -/
def NoLostInvalidation (s : CachingSystem) : CachingAction → Prop
  | .base .handle => ∀ msg, s.base.handler = .holding msg → ∀ f ∈ s.fetching,
      ∀ (q : RequestCall) (r : ℕ), s.base.requests[f.index]? = some q →
        q.state.pending = some r → (f.cache, f.no) ∈ msg.invalidated → ¬ s.base.RepliedBefore r
  | .base a => a.orderly = true
  | .get _ _ => True

theorem NoLostInvalidation.of_ne {s : CachingSystem} {a : Action} (horderly : a.orderly = true)
    (hne : a ≠ .handle) : NoLostInvalidation s (.base a) := by
  cases a <;> first | exact horderly | exact absurd rfl hne

namespace CachingSystem

variable {s : CachingSystem} {t : System}

/-- A step of the client below in which no message is handled keeps the values fresh. -/
theorem Fresh.step {a : Action} (h : s.Fresh) (hstep : Step s.base a t) (hne : a ≠ .handle)
    (howned : s.base.Owned) (hwired : s.base.Wired) (hordered : s.base.Ordered) :
    Fresh { s with base := t } := by
  obtain ⟨more, hmore⟩ := hstep.received_prefix
  have hhandled := hstep.handled_eq hne
  constructor
  · intro f hf
    obtain ⟨q, hq, hrequest⟩ := h.fetches f hf
    obtain ⟨p, hp, hsame, -⟩ := hstep.persists hq
    exact ⟨p, hp, hsame.trans hrequest⟩
  · intro c no value hvalue
    obtain ⟨r, hasks, hfresh⟩ := h.entries hvalue
    exact ⟨r, hasks.persists hstep, hfresh.receive ⟨more, hmore⟩ hhandled⟩
  · intro f hf p r hp hr resp hresp hrefNo
    change resp ∈ t.received at hresp
    rw [hmore] at hresp
    rcases List.mem_append.mp hresp with hold | hnew
    · rcases hstep.pending_before hp hr with ⟨q, hq, hqr⟩ | rfl
      · exact (h.replies f hf hq hqr resp hold hrefNo).receive ⟨more, hmore⟩ hhandled
      · -- a ref-no that has just been given out has no reply
        obtain ⟨answered, coming, resps, lines, pre, -, hwired⟩ := hwired
        have hissued := hwired.issued_of_parsed
          (List.mem_map.mpr ⟨resp, List.mem_append_left _ hold, hrefNo⟩)
        exact absurd hissued howned.fresh
    · exact System.uninvalidated_of_new hordered hmore hhandled hnew

/-- A `get` that misses starts a request of its own. -/
theorem Fresh.miss (h : s.Fresh) (c : CacheName) (no : ℕ) :
    Fresh
      { base := { s.base with
          requests := s.base.requests ++ [{ request := c.fetch no, state := .starting }] }
        client := s.client.get c no
        fetching := s.fetching ++ [⟨c, no, s.base.requests.length⟩] } := by
  have hstep : Step s.base (.call (c.fetch no)) _ := .call (c.fetch no)
  constructor
  · intro f hf
    rcases List.mem_append.mp hf with hf | hf
    · obtain ⟨q, hq, hrequest⟩ := h.fetches f hf
      exact ⟨q, getElem?_append_singleton_iff.mpr (Or.inr hq), hrequest⟩
    · obtain rfl := List.mem_singleton.mp hf
      exact ⟨_, getElem?_append_singleton_iff.mpr (Or.inl ⟨rfl, rfl⟩), rfl⟩
  · intro d k value hvalue
    change (s.client.get c no).lookup d k = some value at hvalue
    rw [AioCachingClient.lookup_get] at hvalue
    obtain ⟨r, hasks, hfresh⟩ := h.entries hvalue
    exact ⟨r, hasks.persists hstep, hfresh⟩
  · intro f hf p r hp hr resp hresp hrefNo
    rcases getElem?_append_singleton_iff.mp hp with ⟨-, rfl⟩ | hold
    · cases hr
    · rcases List.mem_append.mp hf with hf | hf
      · exact h.replies f hf hold hr resp hresp hrefNo
      · obtain rfl := List.mem_singleton.mp hf
        simp at hold

/-- A fetched value is stored; no message handled since its reply invalidates its key. -/
theorem Fresh.wake {i : ℕ} {q : RequestCall} {refNo : ℕ} (h : s.Fresh)
    (found : s.base.requests[i]? = some q) (waiting : q.state = .waiting refNo)
    (set : s.base.client.outstandingRequestsEvents.get? refNo = some true)
    (howned : s.base.Owned) (hdelivered : s.base.Delivered) (hwired : s.base.Wired)
    (hordered : s.base.Ordered) : (s.wake i q refNo).Fresh := by
  have hstep : Step s.base (.wake i) (s.base.wake i q refNo) := .wake found waiting set
  have hbase := h.step hstep (by simp) howned hwired hordered
  obtain ⟨queued, hqueued⟩ :=
    Option.isSome_iff_exists.mp (Dict.mem_iff_isSome.mp (hdelivered.queued set))
  have hresult := AioClient.endRequest_eq (Dict.mem_of_get? set) hqueued
  refine ⟨hbase.fetches, ?_, hbase.replies⟩
  intro c no value hvalue
  cases hfind : s.fetching.find? (fun f => f.index = i) with
  | none =>
    rw [CachingSystem.wake, hfind] at hvalue
    exact hbase.entries hvalue
  | some f =>
    have hf := List.mem_of_find?_eq_some hfind
    have hindex : f.index = i := by simpa using List.find?_some hfind
    cases hreply : queued.reply with
    | error errorReply =>
      rw [CachingSystem.wake, hfind, hresult, hreply] at hvalue
      exact hbase.entries hvalue
    | ok okReply =>
      rw [CachingSystem.wake, hfind, hresult, hreply] at hvalue
      change (s.client.store f.cache f.no okReply).lookup c no = some value at hvalue
      rw [AioCachingClient.lookup_store] at hvalue
      split at hvalue
      · next heq =>
        cases heq
        cases hvalue
        obtain ⟨resp, hresp, hcontent⟩ := hdelivered.queue_received hqueued
        rw [hreply] at hcontent
        have hrefNo : resp.refNo = some refNo := by
          rw [resp.refNo_eq_reply, hcontent]
          rfl
        have hok : resp = .ok refNo value := Response.eq_ok_of_reply hcontent
        have hpending : q.state.pending = some refNo := by
          rw [waiting]
          rfl
        subst hindex hok
        obtain ⟨q', hq', hrequest⟩ := h.fetches f hf
        obtain rfl : q = q' := Option.some.inj (found.symm.trans hq')
        have hasks : s.base.Asks f.cache f.no refNo :=
          ⟨f.index, q, found, hrequest, by rw [waiting]; rfl⟩
        have hfresh := h.replies f hf found hpending _ hresp hrefNo
        exact ⟨refNo, hasks.persists hstep,
          hfresh.receive hstep.received_prefix (hstep.handled_eq (by simp))⟩
      · exact hbase.entries hvalue

/-- A message is handled; the entries that it makes invalid are removed. -/
theorem Fresh.handle {msg : AsyncMessage} (h : s.Fresh) (holding : s.base.handler = .holding msg)
    (hallowed : NoLostInvalidation s (.base .handle)) :
    Fresh { s with
      base := { s.base with handler := .handling msg, handled := s.base.handled ++ [msg] }
      client := s.client.handleAsyncMessage msg } := by
  constructor
  · exact h.fetches
  · intro c no value hvalue
    have hclears := AioCachingClient.clears_handleAsyncMessage msg s.client c no
    change (s.client.handleAsyncMessage msg).lookup c no = some value at hvalue
    rw [hclears] at hvalue
    split at hvalue
    · cases hvalue
    · next hnot =>
      obtain ⟨r, hasks, hfresh⟩ := h.entries hvalue
      exact ⟨r, hasks, hfresh.handle rfl rfl fun hin => absurd hin hnot⟩
  · intro f hf p r hp hr resp hresp hrefNo
    refine (h.replies f hf hp hr resp hresp hrefNo).handle rfl rfl ?_
    intro hin before after heq
    by_contra hle
    exact hallowed msg holding f hf p r hp hr hin
      ⟨before, resp, after, heq, hrefNo, Nat.le_of_not_lt hle⟩

end CachingSystem

/-- A run of the caching client is a run of the client below it. -/
theorem Run.base {user : Bytes} {s : CachingSystem}
    (h : Run CachingStep NoLostInvalidation (.connected user) s) :
    Run Step (fun _ a => a.orderly = true) (.connected user) s.base := by
  refine Run.simulate CachingSystem.base (fun {u a v} hallowed hstep => ?_) h
  apply hstep.base_run
  · intro _ request
    rfl
  · rintro b rfl
    cases b <;> first | rfl | exact hallowed

/-- In a run that meets the condition, all values stay fresh. -/
theorem Run.fresh {user : Bytes} {s : CachingSystem}
    (h : Run CachingStep NoLostInvalidation (.connected user) s) : s.Fresh := by
  apply h.induct
  · constructor
    · simp [CachingSystem.connected]
    · intro c no value hvalue
      cases hvalue
    · simp [CachingSystem.connected]
  · intro u a v hrun hallowed hstep hu
    obtain ⟨howned, hdelivered, hordered⟩ := hrun.base.invariants
    have hwired := hrun.base.wired fun _ _ ha => ha
    cases hstep with
    | @hit c no value present =>
      refine ⟨hu.fetches, fun hvalue => ?_, hu.replies⟩
      rw [AioCachingClient.lookup_get] at hvalue
      exact hu.entries hvalue
    | @miss c no absent => exact hu.miss c no
    | wake found waiting set => exact hu.wake found waiting set howned hdelivered hwired hordered
    | handle holding => exact hu.handle holding hallowed
    | @other b t step leaves =>
      have hne : b ≠ .handle := by
        rintro rfl
        cases leaves
      exact hu.step step hne howned hwired hordered

namespace CachingSystem

/-- A value is that of a reply to a request for its key, and no received message that
follows the reply makes the key invalid. -/
def UpToDate (s : CachingSystem) (c : CacheName) (no : ℕ) (value : OkReply) : Prop :=
  ∃ before after r, s.base.received = before ++ .ok r value :: after ∧ s.base.Asks c no r ∧
    ∀ msg, .async msg ∈ after → (c, no) ∉ msg.invalidated

/-- No message is left to handle, and no `get` waits for its value. -/
structure Quiet (s : CachingSystem) : Prop where
  queue_empty : s.base.client.asyncmsgQueue = []
  idle : s.base.handler = .getting
  fetched : ∀ f ∈ s.fetching, ∃ q refNo result, s.base.requests[f.index]? = some q ∧
    q.state = .done refNo result

end CachingSystem

/-- **When no invalidation is lost.** In a run in which no message is handled before the
values of earlier replies that it makes invalid have been stored: whenever all messages have
been handled, every value in the cache is up to date. -/
theorem Run.upToDate {user : Bytes} {s : CachingSystem}
    (h : Run CachingStep NoLostInvalidation (.connected user) s)
    (queue_empty : s.base.client.asyncmsgQueue = []) (idle : s.base.handler = .getting) :
    ∀ {c : CacheName} {no : ℕ} {value : OkReply}, s.client.lookup c no = some value →
      s.UpToDate c no value := by
  intro c no value cached
  obtain ⟨r, hasks, before, after, hreceived, hrest⟩ := h.fresh.entries cached
  refine ⟨before, after, r, hreceived, hasks, ?_⟩
  intro msg hmsg
  apply hrest
  have hall := h.base.invariants.2.2.waiting (by simp [idle])
  rw [idle, queue_empty, System.asyncReceived, hreceived, List.filterMap_append,
    List.filterMap_cons_none rfl] at hall
  have hhandled : s.base.handled =
      before.filterMap Response.asyncMsg ++ after.filterMap Response.asyncMsg := by
    simpa [Handler.held] using hall.symm
  rw [hhandled, List.drop_left]
  exact List.mem_filterMap.mpr ⟨.async msg, hmsg, rfl⟩

section Reach

variable {allowed : CachingSystem → CachingAction → Prop} {P : CachingSystem → Prop}
  {s : CachingSystem} {a : Action} {t : System}

/-- A run that begins with a step of the client below. -/
theorem Run.reach_other (hallowed : allowed s (.base a)) (hstep : Step s.base a t)
    (hleaves : a.leavesCaches = true)
    (h : ∃ u, Run CachingStep allowed { s with base := t } u ∧ P u) :
    ∃ u, Run CachingStep allowed s u ∧ P u :=
  Run.reach hallowed (.other hstep hleaves) h

/-- A run that begins with a step in which the receiver parses a response. -/
theorem Run.reach_parse (response : Response × Bytes) (rest : Bytes)
    (hallowed : allowed s (.base a)) (hstep : Step s.base a t.tryParse)
    (hleaves : a.leavesCaches = true)
    (hrun : (AioConnection.replyParser t.client.conn.calls).run t.client.conn.buffer.current =
      .returned response rest)
    (h : ∀ buffer : AioReceiveBuffer, buffer.current = rest → ∃ u, Run CachingStep allowed
      { s with base := t.parsedTo response buffer } u ∧ P u) :
    ∃ u, Run CachingStep allowed s u ∧ P u := by
  obtain ⟨buffer, hrest, heq⟩ := System.tryParse_of_run hrun
  rw [heq] at hstep
  exact Run.reach_other hallowed hstep hleaves (h buffer hrest)

/-- A run that begins with the handling of a message. -/
theorem Run.reach_handled {msg : AsyncMessage} {rest : List AsyncMessage}
    (getting : s.base.handler = .getting)
    (first : s.base.client.asyncmsgQueue = msg :: rest)
    (h : ∃ u, Run CachingStep (fun _ a => a.orderly = true)
      { s with
        base := { s.base with
          client := { s.base.client with asyncmsgQueue := rest }
          handled := s.base.handled ++ [msg]
          handler := .getting }
        client := s.client.handleAsyncMessage msg } u ∧ P u) :
    ∃ u, Run CachingStep (fun _ a => a.orderly = true) s u ∧ P u := by
  refine Run.reach_other rfl (.getMessage getting first) rfl ?_
  refine Run.reach rfl (@CachingStep.handle _ msg rfl) ?_
  exact Run.reach_other rfl (@Step.finish _ msg rfl none) rfl h

end Reach

/-- A conference under its old name. -/
def UConference.renamed : UConference :=
  { name := ascii "a", type := List.Vector.replicate 8 false, highestLocalNo := 0, nice := 0 }

/-- A value that is stored, and then found in the cache. -/
theorem Run.upToDate_fetched :
    ∃ s : CachingSystem, s.client.lookup .uconferences 7 = some (.uConference .renamed) ∧
      s.UpToDate .uconferences 7 (.uConference .renamed) := by
  have hrun : ∃ s, Run CachingStep NoLostInvalidation (.connected (ascii "me")) s ∧
      s.base.client.asyncmsgQueue = [] ∧ s.base.handler = .getting ∧
      s.client.lookup .uconferences 7 = some (.uConference .renamed) := by
    refine Run.reach (a := CachingAction.get .uconferences 7) trivial
      (@CachingStep.miss _ .uconferences 7 rfl) ?_
    refine Run.reach_other (.of_ne rfl (by simp)) (@Step.send _ 0 _ rfl rfl rfl (by decide)) rfl ?_
    refine Run.reach_other (.of_ne rfl (by simp)) (@Step.register _ 0 _ 1 rfl rfl) rfl ?_
    refine Run.reach_other (.of_ne rfl (by simp)) (@Step.poll _ rfl) rfl ?_
    refine Run.reach_other (.of_ne rfl (by simp)) (@Step.serverSends _
      (.ok 1 (.uConference .renamed)) _ (ascii "=1 1Ha 00000000 0 0\n")
      ⟨[ascii "=1 1Ha 00000000 0 0\n"], by decide⟩ rfl (.ok rfl rfl)
      ⟨_, mem_prod_token [ascii "=1", ascii "1Ha", ascii "00000000", ascii "0", ascii "0"],
        by decide⟩ (by decide)) rfl ?_
    refine Run.reach_parse (.ok 1 (.uConference .renamed), ascii "1Ha 00000000 0 0") []
      (.of_ne rfl (by simp)) (@Step.read _ rfl (by decide)) rfl rfl (fun buffer hbuffer => ?_)
    refine Run.reach_other (.of_ne rfl (by simp)) (@Step.receive _ _ rfl) rfl ?_
    refine Run.reach (.of_ne rfl (by simp)) (@CachingStep.wake _ 0 _ 1 rfl rfl rfl) ?_
    exact ⟨_, Run.refl, rfl, rfl, rfl⟩
  obtain ⟨s, hrun, hempty, hidle, hcached⟩ := hrun
  exact ⟨s, hcached, Run.upToDate hrun hempty hidle hcached⟩

/-- Two conferences change their names. The handler is busy with the first of the messages
when the value of the other conference, sent before its message, comes, and then removes the
entry before the value is stored. -/
theorem Run.stale_entry :
    ¬ ∀ (user : Bytes) (s : CachingSystem),
      Run CachingStep (fun _ a => a.orderly = true) (.connected user) s →
      s.Quiet → ∀ (c : CacheName) (no : ℕ) (value : OkReply),
        s.client.lookup c no = some value → s.UpToDate c no value := by
  intro hclaim
  have hrun : ∃ s,
      Run CachingStep (fun _ a => a.orderly = true) (.connected (ascii "me")) s ∧
      s.base.client.asyncmsgQueue = [] ∧ s.base.handler = .getting ∧
      s.fetching = [⟨.uconferences, 7, 0⟩] ∧
      (∃ q refNo result, s.base.requests[0]? = some q ∧ q.state = .done refNo result) ∧
      s.client.lookup .uconferences 7 = some (.uConference .renamed) ∧
      s.base.received = [.async (.newName 9 (ascii "a") (ascii "b")),
        .ok 1 (.uConference .renamed), .async (.newName 7 (ascii "a") (ascii "b"))] := by
    refine Run.reach (a := CachingAction.get .uconferences 7) rfl
      (@CachingStep.miss _ .uconferences 7 rfl) ?_
    refine Run.reach_other rfl (@Step.send _ 0 _ rfl rfl rfl (by decide)) rfl ?_
    refine Run.reach_other rfl (@Step.register _ 0 _ 1 rfl rfl) rfl ?_
    refine Run.reach_other rfl (@Step.poll _ rfl) rfl ?_
    refine Run.reach_other rfl (@Step.serverSends _
      (.async 3 (.newName 9 (ascii "a") (ascii "b"))) _ (ascii ":3 5 9 1Ha 1Hb\n")
      ⟨[ascii ":3 5 9 1Ha 1Hb\n"], by decide⟩ rfl .async
      ⟨_, mem_prod_token [ascii ":3", ascii "5", ascii "9", ascii "1Ha", ascii "1Hb"],
        by decide⟩
      (by decide)) rfl ?_
    refine Run.reach_other rfl (@Step.serverSends _
      (.ok 1 (.uConference .renamed)) _ (ascii "=1 1Ha 00000000 0 0\n")
      ⟨[ascii ":3 5 9 1Ha 1Hb\n=1 1Ha 00000000 0 0\n"], by decide⟩ rfl (.ok rfl rfl)
      ⟨_, mem_prod_token [ascii "=1", ascii "1Ha", ascii "00000000", ascii "0", ascii "0"],
        by decide⟩ (by decide)) rfl ?_
    refine Run.reach_other rfl (@Step.serverSends _
      (.async 3 (.newName 7 (ascii "a") (ascii "b"))) _ (ascii ":3 5 7 1Ha 1Hb\n")
      ⟨[ascii ":3 5 9 1Ha 1Hb\n=1 1Ha 00000000 0 0\n:3 5 7 1Ha 1Hb\n"], by decide⟩ rfl .async
      ⟨_, mem_prod_token [ascii ":3", ascii "5", ascii "7", ascii "1Ha", ascii "1Hb"],
        by decide⟩
      (by decide)) rfl ?_
    refine Run.reach_parse (.async (.newName 9 (ascii "a") (ascii "b")), ascii "3 5 9 1Ha 1H")
      (ascii "\n=1 1Ha 00000000 0 0\n:3 5 7 1Ha 1Hb\n") rfl
      (@Step.read _ rfl (by decide)) rfl rfl (fun buffer hbuffer => ?_)
    refine Run.reach_other rfl (@Step.receive _ _ rfl) rfl ?_
    refine Run.reach_parse (.ok 1 (.uConference .renamed), ascii "1Ha 00000000 0 0")
      (ascii ":3 5 7 1Ha 1Hb\n") rfl
      (@Step.poll _ rfl) rfl ?_ (fun buffer hbuffer => ?_)
    · exact (congrArg (Reader.run _) hbuffer).trans rfl
    refine Run.reach_other rfl (@Step.receive _ _ rfl) rfl ?_
    refine Run.reach_parse (.async (.newName 7 (ascii "a") (ascii "b")), ascii "3 5 7 1Ha 1H")
      (ascii "\n") rfl
      (@Step.poll _ rfl) rfl ?_ (fun buffer hbuffer => ?_)
    · exact (congrArg (Reader.run _) hbuffer).trans rfl
    refine Run.reach_other rfl (@Step.receive _ _ rfl) rfl ?_
    refine Run.reach_handled rfl rfl ?_
    refine Run.reach_handled rfl rfl ?_
    refine Run.reach rfl (@CachingStep.wake _ 0 _ 1 rfl rfl rfl) ?_
    exact ⟨_, Run.refl, rfl, rfl, rfl, ⟨_, 1, _, rfl, rfl⟩, rfl, rfl⟩
  obtain ⟨s, hrun, hempty, hidle, hfetching, hdone, hcached, hreceived⟩ := hrun
  have hquiet : s.Quiet := by
    refine ⟨hempty, hidle, ?_⟩
    intro f hf
    rw [hfetching] at hf
    obtain rfl := List.mem_singleton.mp hf
    exact hdone
  obtain ⟨before, after, r, heq, -, hafter⟩ := hclaim _ s hrun hquiet _ _ _ hcached
  rw [hreceived] at heq
  rcases before with - | ⟨first, - | ⟨second, - | ⟨third, before⟩⟩⟩
  · cases heq
  · cases heq
    exact hafter (.newName 7 (ascii "a") (ascii "b")) (by simp) (by decide)
  · cases heq
  · cases before <;> cases heq
end Pylyskom
