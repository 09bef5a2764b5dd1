import Pylyskom.Aio.Stream

/-!
# Replies that come before the event

A request can be answered as soon as it has been written, but its event is added only after
the `drain`. A reply that is handled before, or whose request was cancelled in the `drain`,
ends the response receiver; no other reply does.
-/

namespace Pylyskom

/-- The request has been written, and its task has not come past the `drain`. -/
def RequestState.sending : RequestState → Bool
  | draining _ => true
  | failedDraining _ _ => true
  | _ => false

/-- The request that was given a ref-no has come past its `drain`. -/
def System.SendCompleted (s : System) (refNo : ℕ) : Prop :=
  ∀ (i : ℕ) (q : RequestCall), s.requests[i]? = some q → q.state.refNo = some refNo →
    q.state.sending = false

/-- The connection stays open, and no reply is handled before its request has come past
the `drain`. -/
def NoEarlyReply (s : System) (a : Action) : Prop :=
  a.connected = true ∧ (a = .receive → ∀ (response : Response × Bytes) (refNo : ℕ),
    s.receiver = .received response → response.1.refNo = some refNo → s.SendCompleted refNo)

theorem NoEarlyReply.of_ne {s : System} {a : Action} (hconnected : a.connected = true)
    (hne : a ≠ .receive) : NoEarlyReply s a :=
  ⟨hconnected, fun heq => absurd heq hne⟩

theorem Action.orderly_of_connected {a : Action} (h : a.connected = true) : a.orderly = true := by
  cases a <;> first | rfl | cases h

/-- The assertion of `_receive_response`. -/
theorem AioClient.receiveResponse_ok_iff (self : AioClient) {resp : Response} {bytes : Bytes}
    {refNo : ℕ} (hrefNo : resp.refNo = some refNo) :
    (self.receiveResponse (resp, bytes)).1 = .ok () ↔ refNo ∈ self.outstandingRequestsEvents := by
  rw [resp.refNo_eq_reply, Option.map_eq_some_iff] at hrefNo
  obtain ⟨⟨r, reply⟩, hreply, rfl⟩ := hrefNo
  rw [self.receiveResponse_reply hreply, queueReply]
  by_cases hmem : r ∈ self.outstandingRequestsEvents
  · simp [hmem]
  · simp [hmem]

/-- A reply finds an event exactly if its request has come past the `drain`. -/
theorem System.mem_events_iff {s : System} (howned : s.Owned) (hdelivered : s.Delivered)
    (hwired : s.Wired) {response : Response × Bytes} {refNo : ℕ}
    (hreceived : s.receiver = .received response) (hrefNo : response.1.refNo = some refNo) :
    refNo ∈ s.client.outstandingRequestsEvents ↔ s.SendCompleted refNo := by
  obtain ⟨answered, coming, resps, lines, pre, -, hwired⟩ := hwired
  have hparsed : s.parsed = s.received ++ [response.1] := by
    rw [System.parsed, hreceived]
    rfl
  constructor
  · intro hevent j p hp hr
    obtain ⟨i, q, hq, hregistered⟩ := hdelivered.registered.mp hevent
    obtain rfl := howned.unique hp hq hr (RequestState.refNo_of_registered hregistered)
    obtain rfl : p = q := Option.some.inj (hp.symm.trans hq)
    cases hstate : p.state <;> simp [hstate, RequestState.registered] at hregistered <;> rfl
  · intro hcompleted
    have hmem : some refNo ∈ s.parsed.map Response.refNo := by
      rw [hparsed, List.map_append, ← hrefNo]
      simp
    obtain ⟨i, q, hq, hr⟩ := howned.owner (hwired.issued_of_parsed hmem)
    have hsending := hcompleted i q hq hr
    apply hdelivered.registered.mpr
    refine ⟨i, q, hq, ?_⟩
    cases hstate : q.state with
    | starting | failed e =>
      rw [hstate] at hr
      cases hr
    | draining r | failedDraining r e =>
      rw [hstate] at hsending
      cases hsending
    | waiting r | failedWaiting r e =>
      rw [hstate] at hr
      exact hr
    | done r result =>
      -- its reply has been received already, and the server does not answer twice
      obtain ⟨resp, hresp, reply, hreply, -⟩ := hdelivered.done_received hq hstate
      rw [hstate] at hr
      obtain rfl : r = refNo := Option.some.inj hr
      have hsame : resp.refNo = some r := by
        rw [resp.refNo_eq_reply, hreply]
        rfl
      have hdistinct := hwired.parsed_distinct
      rw [hparsed, List.filterMap_append, List.nodup_append] at hdistinct
      have hfirst : r ∈ s.received.filterMap Response.refNo :=
        List.mem_filterMap.mpr ⟨resp, hresp, hsame⟩
      have hlast : r ∈ [response.1].filterMap Response.refNo :=
        List.mem_filterMap.mpr ⟨response.1, List.mem_singleton_self _, hrefNo⟩
      exact absurd rfl (hdistinct.2.2 r hfirst r hlast)

/-- A step that meets the condition leaves the receiver running. -/
theorem Step.keeps_serving {s t : System} {a : Action} (hstep : Step s a t)
    (hallowed : NoEarlyReply s a) (howned : s.Owned) (hdelivered : s.Delivered)
    (hwired : s.Wired) (h : s.receiver ≠ .ended) : t.receiver ≠ .ended := by
  obtain ⟨hconnected, hcompleted⟩ := hallowed
  cases hstep with
  | poll polling => exact (hwired.tryParse (by rw [polling]; rfl)).2
  | read reading data => exact (hwired.read (by rw [reading]; rfl)).2
  | @receive response received =>
    obtain ⟨resp, bytes⟩ := response
    have hok : (s.client.receiveResponse (resp, bytes)).1 = .ok () := by
      cases hrefNo : resp.refNo with
      | none =>
        cases resp with
        | async msg => rfl
        | ok r okReply => cases hrefNo
        | error r errorReply => cases hrefNo
      | some refNo =>
        rw [AioClient.receiveResponse_ok_iff _ hrefNo,
          System.mem_events_iff howned hdelivered hwired received hrefNo]
        exact hcompleted rfl _ refNo received hrefNo
    change Receiver.after (s.client.receiveResponse (resp, bytes)).1 ≠ .ended
    rw [hok]
    simp [Receiver.after]
  | @send i q found starting free usable =>
    obtain ⟨written, heq⟩ := @System.send_eq s howned i q
    rw [heq]
    exact h
  | @register i q refNo found draining =>
    rw [System.register_eq howned hdelivered found draining]
    exact h
  | call | wake | serverSends | getMessage | handle | finish | cancel => exact h
  | refuse | endOfStream | readFails | serverBytes | serverEof | drainFails | closeTasks
  | disconnect => cases hconnected

/-- **Which replies end the receiver.** In a run in which no reply is handled before its
request has come past the `drain`, the receiver goes on; and in every state of it, a reply
that is about to be handled has an event, so that the assertion holds, if and only if this
is so for this reply. -/
theorem Run.receiver_serves {user : Bytes} {s : System}
    (h : Run Step NoEarlyReply (.connected user) s) :
    s.receiver ≠ .ended ∧ ∀ (response : Response × Bytes) (refNo : ℕ),
      s.receiver = .received response → response.1.refNo = some refNo →
      (refNo ∈ s.client.outstandingRequestsEvents ↔ s.SendCompleted refNo) ∧
      ((s.client.receiveResponse response).1 = .ok () ↔ s.SendCompleted refNo) := by
  have horderly : ∀ s a, NoEarlyReply s a → a.orderly = true :=
    fun _ _ ha => Action.orderly_of_connected ha.1
  constructor
  · apply h.induct
    · simp [System.connected]
    · intro u a v hrun hallowed hstep hu
      obtain ⟨howned, hdelivered, -⟩ := hrun.invariants
      exact hstep.keeps_serving hallowed howned hdelivered (hrun.wired horderly) hu
  · intro response refNo hreceived hrefNo
    obtain ⟨howned, hdelivered, -⟩ := h.invariants
    have hiff := System.mem_events_iff howned hdelivered (h.wired horderly) hreceived hrefNo
    exact ⟨hiff, (AioClient.receiveResponse_ok_iff _ hrefNo).trans hiff⟩

/-- A request whose reply comes while it waits for its event. -/
theorem Run.receiver_serves_whoAmI :
    ∃ s : System, s.client.outstandingRequestsEvents.get? 1 = some false ∧
      s.receiver ≠ .ended ∧ ∀ (response : Response × Bytes) (refNo : ℕ),
        s.receiver = .received response → response.1.refNo = some refNo →
        (refNo ∈ s.client.outstandingRequestsEvents ↔ s.SendCompleted refNo) ∧
        ((s.client.receiveResponse response).1 = .ok () ↔ s.SendCompleted refNo) := by
  have hrun : ∃ s, Run Step NoEarlyReply (.connected (ascii "me")) s ∧
      s.client.outstandingRequestsEvents.get? 1 = some false := by
    refine Run.reach (.of_ne rfl (by simp)) (.call ⟨Requests.WHO_AM_I, []⟩) ?_
    refine Run.reach (.of_ne rfl (by simp)) (@Step.send _ 0 _ rfl rfl rfl (by decide)) ?_
    refine Run.reach (.of_ne rfl (by simp)) (@Step.register _ 0 _ 1 rfl rfl) ?_
    refine Run.reach (.of_ne rfl (by simp)) (@Step.poll _ rfl) ?_
    refine Run.reach (.of_ne rfl (by simp)) (@Step.serverSends _ (.ok 1 (.sessionNo 17)) _
      (ascii "=1 17\n") ⟨[ascii "=1 17\n"], by decide⟩ rfl (.ok rfl rfl)
      ⟨[ascii "=1", ascii "17"], ⟨_, rfl, _, rfl, by decide⟩, by decide⟩ (by decide)) ?_
    refine Run.reach_read (.ok 1 (.sessionNo 17), ascii "17") [] (.of_ne rfl (by simp)) rfl
      (by decide) rfl ?_
    intro buffer _
    exact ⟨_, Run.refl, rfl⟩
  obtain ⟨s, hrun, hevent⟩ := hrun
  exact ⟨s, hevent, Run.receiver_serves hrun⟩

/-- A request is cancelled in its `drain`. The reply to it is well-formed, and ends the
receiver. -/
theorem Run.receiver_killed :
    ¬ ∀ (user : Bytes) (s : System),
      Run Step (fun _ a => a.connected = true) (.connected user) s →
      s.receiver ≠ .ended ∧ ∀ (response : Response × Bytes) (refNo : ℕ),
        s.receiver = .received response → response.1.refNo = some refNo →
        refNo ∈ s.client.outstandingRequestsEvents := by
  intro hclaim
  have hrun : ∃ s, Run Step (fun _ a => a.connected = true) (.connected (ascii "me")) s ∧
      s.receiver = .ended := by
    refine Run.reach rfl (.call ⟨Requests.WHO_AM_I, []⟩) ?_
    refine Run.reach rfl (@Step.send _ 0 _ rfl rfl rfl (by decide)) ?_
    refine Run.reach rfl (@Step.cancel _ 0 _ _ rfl rfl) ?_
    refine Run.reach rfl (@Step.poll _ rfl) ?_
    refine Run.reach rfl (@Step.serverSends _ (.ok 1 (.sessionNo 17)) _
      (ascii "=1 17\n") ⟨[ascii "=1 17\n"], by decide⟩ rfl (.ok rfl rfl)
      ⟨[ascii "=1", ascii "17"], ⟨_, rfl, _, rfl, by decide⟩, by decide⟩ (by decide)) ?_
    refine Run.reach_read (.ok 1 (.sessionNo 17), ascii "17") [] rfl rfl (by decide) rfl ?_
    intro buffer _
    exact Run.reach rfl (@Step.receive _ _ rfl) ⟨_, Run.refl, rfl⟩
  obtain ⟨s, hrun, hended⟩ := hrun
  exact (hclaim _ s hrun).1 hended

end Pylyskom
