import Pylyskom.Aio.Stream

/-!
# Each request gets its own reply

With a well-behaved server, a request that has ended has the result of the one message
that was sent under its ref-no, read as the reply to its own call. The messages are
handled in the order in which they were sent.
-/

namespace Pylyskom

def ServerMessage.asyncMsg : ServerMessage → Option AsyncMessage
  | async _ msg => some msg
  | _ => none

/-- Messages that stand for responses carry the same asynchronous messages. -/
theorem asyncMsg_of_means {calls : ℕ → Option ℕ} {msgs : List ServerMessage}
    {resps : List Response} (h : List.Forall₂ (ServerMessage.Means calls) msgs resps) :
    resps.filterMap Response.asyncMsg = msgs.filterMap ServerMessage.asyncMsg := by
  induction h with
  | nil => rfl
  | cons hm _ ih =>
    rw [List.filterMap_cons, List.filterMap_cons, ih]
    cases hm <;> rfl

/-- The requests and the handler get what was sent to them. -/
structure System.OwnReplies (s : System) : Prop where
  /-- A request that has ended returned or raised the reply that the server sent under its
  ref-no, of the response type of its call. -/
  own_reply : ∀ {i : ℕ} {q : RequestCall} {r : ℕ} {result : Except Exn RequestResult},
    s.requests[i]? = some q → q.state = .done r result →
    ∃ m resp reply, s.sent.filter (fun m => m.refNo = some r) = [m] ∧
      m.Means (fun _ => some q.request.callNo) resp ∧ resp.reply = some (r, reply) ∧
      result = RequestResult.ofReply reply
  /-- No reply was handed to two requests. -/
  one_request : ∀ {i j : ℕ} {q p : RequestCall} {r : ℕ} {x y : Except Exn RequestResult},
    s.requests[i]? = some q → s.requests[j]? = some p → q.state = .done r x →
    p.state = .done r y → i = j
  /-- The assertion of `_handle_reply` holds whenever a request is about to call it. -/
  in_queue : ∀ {i : ℕ} {q : RequestCall} {r : ℕ}, s.requests[i]? = some q →
    q.state = .waiting r → s.client.outstandingRequestsEvents.get? r = some true →
    r ∈ s.client.replyQueue
  /-- The messages that were handled are the first ones of those received, -/
  in_order : s.handled <+: s.asyncReceived
  /-- which are the first ones of those sent. -/
  as_sent : s.asyncReceived <+: s.sent.filterMap ServerMessage.asyncMsg

/-- The replies are right in every run with a well-behaved server; requests may be
cancelled, and the connection may be lost. -/
theorem Run.ownReplies_of_orderly {user : Bytes} {s : System}
    (h : Run Step (fun _ a => a.orderly = true) (.connected user) s) : s.OwnReplies := by
  obtain ⟨howned, hdelivered, hordered⟩ := h.invariants
  obtain ⟨answered, coming, resps, lines, pre, hsent, hwired⟩ := h.wired fun _ _ ha => ha
  constructor
  · intro i q r result hq hdone
    obtain ⟨resp, hresp, reply, hreply, hresult⟩ := hdelivered.done_received hq hdone
    have hparsed : resp ∈ s.parsed := List.mem_append_left _ hresp
    obtain ⟨m, hm, hmeans⟩ := exists_of_forall₂ hwired.means_parsed hparsed
    have hrefNo : m.refNo = some r := by
      rw [hmeans.refNo_eq, resp.refNo_eq_reply, hreply]
      rfl
    refine ⟨m, resp, reply, ?_, ?_, hreply, hresult⟩
    · rw [hsent]
      exact filter_eq_singleton hwired.distinct (List.mem_append_left _ hm) hrefNo
    · apply hmeans.congr
      intro r' hr'
      obtain rfl : r = r' := Option.some.inj (hrefNo.symm.trans hr')
      exact (howned.call_eq hq (by rw [hdone]; rfl)).symm
  · intro i j q p r x y hq hp hx hy
    apply howned.unique hq hp
    · rw [hx]
      rfl
    · rw [hy]
      rfl
  · intro i q r _ _ hset
    exact hdelivered.queued hset
  · exact hordered.handled_prefix
  · have hfront : s.received <+: s.parsed := List.prefix_append _ _
    have hall := asyncMsg_of_means hwired.means_parsed
    rw [hsent, List.filterMap_append, ← hall]
    exact (hfront.filterMap _).trans (List.prefix_append _ _)

/-! ## Requests that end without a reply -/

/-- The request has ended without a reply. -/
def RequestState.interrupted : RequestState → Bool
  | failed _ | failedDraining _ _ | failedWaiting _ _ => true
  | _ => false

/-- The steps of the tasks and of a well-behaved server; no task is cancelled, no write fails
and the client is not closed. -/
def Action.undisturbed : Action → Bool
  | serverBytes _ | closeTasks | cancel _ | drainFails _ => false
  | _ => true

theorem Action.orderly_of_undisturbed {a : Action} (h : a.undisturbed = true) :
    a.orderly = true := by
  cases a <;> first | rfl | cases h

/-- The client is connected, and all requests go on or have ended with a reply. -/
structure System.Undisturbed (s : System) : Prop where
  connected : s.phase = .connected
  served : ∀ {i : ℕ} {q : RequestCall}, s.requests[i]? = some q → q.state.interrupted = false

namespace System.Undisturbed

variable {s t : System} {i : ℕ} {q : RequestCall} {state : RequestState}

/-- A task that is not interrupted moves on. -/
theorem moves (h : s.Undisturbed) (found : s.requests[i]? = some q) (hphase : t.phase = s.phase)
    (hrequests : t.requests = s.requests.set i { q with state })
    (hstate : state.interrupted = false) : t.Undisturbed := by
  refine ⟨hphase.trans h.connected, ?_⟩
  intro j p hp
  rw [hrequests] at hp
  rcases (getElem?_set_eq_some_iff found).mp hp with ⟨-, rfl⟩ | ⟨-, hp⟩
  · exact hstate
  · exact h.served hp

theorem tryParse (h : s.Undisturbed) : s.tryParse.Undisturbed := by
  rcases s.tryParse_cases with ⟨response, buffer, -, heq⟩ | ⟨e, buffer, -, heq⟩ | heq
  · rw [heq]
    exact ⟨h.connected, h.served⟩
  · rw [heq]
    exact ⟨h.connected, h.served⟩
  · rw [heq]
    exact ⟨h.connected, h.served⟩

end System.Undisturbed

/-- No assertion of `send_request` or `_request` fails. -/
theorem Step.undisturbed {s t : System} {a : Action} (hstep : Step s a t)
    (hallowed : a.undisturbed = true) (howned : s.Owned) (hdelivered : s.Delivered)
    (h : s.Undisturbed) : t.Undisturbed := by
  cases hstep with
  | call request =>
    refine ⟨h.connected, ?_⟩
    intro j p hp
    rcases getElem?_append_singleton_iff.mp hp with ⟨-, rfl⟩ | hp
    · rfl
    · exact h.served hp
  | @send i q found starting free usable =>
    obtain ⟨written, heq⟩ := @System.send_eq s howned i q
    rw [heq]
    exact h.moves found rfl rfl rfl
  | refuse found starting free closed =>
    rw [h.connected] at closed
    cases closed
  | @register i q refNo found draining =>
    rw [System.register_eq howned hdelivered found draining]
    exact h.moves found rfl rfl rfl
  | @wake i q refNo found waiting set =>
    obtain ⟨queued, -, heq⟩ := @System.wake_eq s hdelivered i q refNo set
    rw [heq]
    exact h.moves found rfl rfl rfl
  | poll => exact h.tryParse
  | read => exact System.Undisturbed.tryParse ⟨h.connected, h.served⟩
  | endOfStream | readFails | receive | serverSends | serverEof | getMessage | handle | finish =>
    exact ⟨h.connected, h.served⟩
  | disconnect closing =>
    rw [h.connected] at closing
    cases closing
  | serverBytes | cancel | drainFails | closeTasks => cases hallowed

/-- **Each request gets its own reply.** In every state that any number of requesting
tasks, the two receivers and a well-behaved server can reach by steps in any order, the
requests that have ended have ended with their own replies, and the messages that were
handled are the first ones received. -/
theorem Run.ownReplies {user : Bytes} {s : System}
    (h : Run Step (fun _ a => a.undisturbed = true) (.connected user) s) :
    s.OwnReplies ∧ s.Undisturbed := by
  have horderly : Run Step (fun _ a => a.orderly = true) (.connected user) s :=
    h.mono fun _ _ => Action.orderly_of_undisturbed
  refine ⟨Run.ownReplies_of_orderly horderly, ?_⟩
  apply h.induct
  · constructor
    · rfl
    · simp [System.connected]
  · intro u a v hrun hallowed hstep hu
    obtain ⟨howned, hdelivered, -⟩ := hrun.invariants
    exact hstep.undisturbed hallowed howned hdelivered hu

/-- Two requests, the second of which is answered first. -/
theorem Run.ownReplies_sample :
    ∃ s : System, (s.OwnReplies ∧ s.Undisturbed) ∧ s.requests.map (fun q => q.state) =
      [.waiting 1, .done 2 (.ok (.reply (.string (ascii "hello"))))] := by
  have hrun : ∃ s, Run Step (fun _ a => a.undisturbed = true) (.connected (ascii "me")) s ∧
      s.requests.map (fun q => q.state) =
        [.waiting 1, .done 2 (.ok (.reply (.string (ascii "hello"))))] := by
    refine Run.reach rfl (.call ⟨Requests.WHO_AM_I, []⟩) ?_
    refine Run.reach rfl (.call ⟨Requests.GET_TEXT, [ascii "5", ascii "0", ascii "9"]⟩) ?_
    refine Run.reach rfl (@Step.send _ 0 _ rfl rfl rfl (by decide)) ?_
    refine Run.reach rfl (@Step.register _ 0 _ 1 rfl rfl) ?_
    refine Run.reach rfl (@Step.send _ 1 _ rfl rfl rfl (by decide)) ?_
    refine Run.reach rfl (@Step.register _ 1 _ 2 rfl rfl) ?_
    refine Run.reach rfl (@Step.poll _ rfl) ?_
    refine Run.reach rfl (@Step.serverSends _ (.ok 2 (.string (ascii "hello"))) _
      (ascii "=2 5Hhello\n") ⟨[ascii "=2 5Hhello\n"], by decide⟩ rfl (.ok rfl rfl)
      ⟨[ascii "=2", ascii "5Hhello"], ⟨_, rfl, _, rfl, by decide⟩, by decide⟩ (by decide)) ?_
    refine Run.reach_read (.ok 2 (.string (ascii "hello")), ascii "5Hhell") (ascii "\n") rfl rfl
      (by decide) rfl ?_
    intro buffer _
    refine Run.reach rfl (@Step.receive _ _ rfl) ?_
    refine Run.reach rfl (@Step.wake _ 1 _ 2 rfl rfl rfl) ?_
    exact ⟨_, Run.refl, rfl⟩
  obtain ⟨s, hrun, hstates⟩ := hrun
  exact ⟨s, Run.ownReplies hrun, hstates⟩

end Pylyskom
