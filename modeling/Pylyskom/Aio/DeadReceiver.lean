import Pylyskom.Aio.Invariants

/-!
# Requests that wait for a dead receiver

Only the response receiver sets events. None of the ways in which it can end sets those of
the requests that still wait, so these are left waiting unless their replies have come
before.
-/

namespace Pylyskom

namespace System

/-- Every request that waits has its event set. -/
def AllSet (s : System) : Prop :=
  ∀ (i : ℕ) (q : RequestCall) (r : ℕ), s.requests[i]? = some q → q.state = .waiting r →
    s.client.outstandingRequestsEvents.get? r = some true

/-- The reply to every request that waits is in the reply queue. -/
def AllAnswered (s : System) : Prop :=
  ∀ (i : ℕ) (q : RequestCall) (r : ℕ), s.requests[i]? = some q → q.state = .waiting r →
    r ∈ s.client.replyQueue

/-- No request waits for an event that only the receiver could set, when it has ended. -/
def NoneLeft (s : System) : Prop := s.receiver = .ended → s.AllSet

/-- While the receiver runs, it has set the events of all replies in the queue. -/
def QueueSet (s : System) : Prop :=
  s.receiver ≠ .ended → ∀ r ∈ s.client.replyQueue,
    s.client.outstandingRequestsEvents.get? r = some true

/-- The ways in which the receiver ends: a parse error, a reply without an event, the end
of the stream, a failed read, and its cancellation by `close`. -/
def EndsReceiver (s : System) : Action → Prop
  | .poll => ∃ e conn, s.client.conn.tryParseResponse = .raised e conn
  | .read =>
    let data := s.client.conn.tcpStreamReader.recv 1024
    ∃ e conn, (s.client.conn.appendData data.1 data.2).tryParseResponse = .raised e conn
  | .receive => ∃ response r, s.receiver = .received response ∧ response.1.refNo = some r ∧
      r ∉ s.client.outstandingRequestsEvents
  | .endOfStream | .readFails | .closeTasks => True
  | _ => False

end System

/-- The receiver ends only when the replies to all waiting requests have been received, and
no request comes past its send after that. -/
def Guarded (s : System) (a : Action) : Prop :=
  (s.EndsReceiver a → s.AllAnswered) ∧ (∀ i, a = .register i → s.receiver ≠ .ended)

theorem Guarded.of_goes_on {s : System} {a : Action} (hends : ¬ s.EndsReceiver a)
    (hregister : ∀ i, a ≠ .register i) : Guarded s a :=
  ⟨fun h => absurd h hends, fun i h => absurd h (hregister i)⟩

theorem Guarded.of_running {s : System} {a : Action} (hends : ¬ s.EndsReceiver a)
    (hrunning : s.receiver ≠ .ended) : Guarded s a :=
  ⟨fun h => absurd h hends, fun _ _ => hrunning⟩

namespace System

variable {s : System}

/-- The events that are set are those of the replies received. -/
theorem allSet_iff (hdelivered : s.Delivered) (hqueue : s.QueueSet) (hnone : s.NoneLeft) :
    s.AllSet ↔ s.AllAnswered := by
  constructor
  · intro h i q r hq hwaiting
    exact hdelivered.queued (h i q r hq hwaiting)
  · intro h
    by_cases hended : s.receiver = .ended
    · exact hnone hended
    · intro i q r hq hwaiting
      exact hqueue hended r (h i q r hq hwaiting)

/-- A task that does not come to wait leaves no one waiting. -/
theorem AllSet.setState (h : s.AllSet) {i : ℕ} {q : RequestCall} {state : RequestState}
    (found : s.requests[i]? = some q) (hstate : ∀ r, state ≠ .waiting r) :
    (s.setState i q state).AllSet := by
  intro j p r hp hwaiting
  rcases (getElem?_set_eq_some_iff found).mp hp with ⟨rfl, rfl⟩ | ⟨-, hp⟩
  · exact absurd hwaiting (hstate r)
  · exact h j p r hp hwaiting

/-- One try to parse ends the receiver exactly if it raises. -/
theorem tryParse_ended_iff (s : System) :
    s.tryParse.receiver = .ended ↔ ∃ e conn, s.client.conn.tryParseResponse = .raised e conn := by
  unfold tryParse
  cases s.client.conn.tryParseResponse <;> simp

theorem allSet_tryParse (s : System) : s.tryParse.AllSet ↔ s.AllSet := by
  unfold AllSet
  rw [requests_tryParse, events_tryParse]

end System

/-- A response is an asynchronous message, a reply whose event is set, or a reply without an
event, which ends the receiver. -/
theorem System.receive_cases (s : System) (response : Response × Bytes) :
    (response.1.refNo = none ∧ (s.receive response).receiver = .polling ∧
      (s.receive response).client.replyQueue = s.client.replyQueue ∧
      (s.receive response).client.outstandingRequestsEvents =
        s.client.outstandingRequestsEvents) ∨
    (∃ r queued, response.1.refNo = some r ∧ r ∈ s.client.outstandingRequestsEvents ∧
      (s.receive response).receiver = .polling ∧
      (s.receive response).client.replyQueue = s.client.replyQueue.set r queued ∧
      (s.receive response).client.outstandingRequestsEvents =
        s.client.outstandingRequestsEvents.set r true) ∨
    (∃ r, response.1.refNo = some r ∧ r ∉ s.client.outstandingRequestsEvents ∧
      (s.receive response).receiver = .ended ∧
      (s.receive response).client.outstandingRequestsEvents =
        s.client.outstandingRequestsEvents) := by
  obtain ⟨resp, bytes⟩ := response
  cases hreply : resp.reply with
  | none =>
    cases resp with
    | async msg => exact Or.inl ⟨rfl, rfl, rfl, rfl⟩
    | ok r okReply => cases hreply
    | error r errorReply => cases hreply
  | some content =>
    obtain ⟨refNo, reply⟩ := content
    have hrefNo : resp.refNo = some refNo := by
      rw [resp.refNo_eq_reply, hreply]
      rfl
    unfold System.receive
    rw [s.client.receiveResponse_reply hreply, AioClient.queueReply]
    by_cases hevent : refNo ∈ s.client.outstandingRequestsEvents
    · rw [if_neg (not_not_intro hevent)]
      exact Or.inr (Or.inl ⟨refNo, _, hrefNo, hevent, rfl, rfl, rfl⟩)
    · rw [if_pos hevent]
      exact Or.inr (Or.inr ⟨refNo, hrefNo, hevent, rfl, rfl⟩)

/-- The events of the queued replies stay set. -/
theorem Step.queueSet {s t : System} {a : Action} (hstep : Step s a t) (howned : s.Owned)
    (hdelivered : s.Delivered) (h : s.QueueSet) : t.QueueSet := by
  cases hstep with
  | @send i q found starting free usable =>
    obtain ⟨written, heq⟩ := @System.send_eq s howned i q
    rw [heq]
    exact h
  | @register i q refNo found draining =>
    rw [System.register_eq howned hdelivered found draining]
    intro hrunning r hr
    have hset := h hrunning r hr
    have hne : r ≠ refNo := by
      rintro rfl
      exact System.not_mem_events_of_draining howned hdelivered found draining
        (Dict.mem_of_get? hset)
    change (Dict.set _ refNo false).get? r = some true
    rw [Dict.get?_set, if_neg hne]
    exact hset
  | @wake i q refNo found waiting set =>
    obtain ⟨queued, -, heq⟩ := @System.wake_eq s hdelivered i q refNo set
    rw [heq]
    intro hrunning r hr
    obtain ⟨hne, hr⟩ := Dict.mem_erase.mp hr
    change (Dict.erase _ refNo).get? r = some true
    rw [Dict.get?_erase, if_neg hne]
    exact h hrunning r hr
  | poll polling =>
    intro _ r hr
    rw [System.replyQueue_tryParse] at hr
    rw [System.events_tryParse]
    exact h (by simp [polling]) r hr
  | read reading =>
    intro _ r hr
    rw [System.read, System.replyQueue_tryParse] at hr
    rw [System.read, System.events_tryParse]
    exact h (by simp [reading]) r hr
  | @receive response received =>
    have hrunning : s.receiver ≠ .ended := by simp [received]
    intro hgoes r hr
    rcases s.receive_cases response with ⟨-, -, hqueue, hevents⟩ |
      ⟨r', queued, -, -, -, hqueue, hevents⟩ | ⟨r', -, -, hended, -⟩
    · rw [hqueue] at hr
      rw [hevents]
      exact h hrunning r hr
    · rw [hqueue, Dict.mem_set] at hr
      rw [hevents, Dict.get?_set]
      by_cases heq : r = r'
      · rw [if_pos heq]
      · rw [if_neg heq]
        exact h hrunning r (hr.resolve_left heq)
    · exact absurd hended hgoes
  | endOfStream | readFails | closeTasks => exact fun hrunning => absurd rfl hrunning
  | call | refuse | serverSends | serverBytes | serverEof | getMessage | handle | finish
  | cancel | drainFails | disconnect => exact h

theorem System.receive_ended_iff {s : System} {response : Response × Bytes}
    (received : s.receiver = .received response) :
    (s.receive response).receiver = .ended ↔ s.EndsReceiver .receive := by
  have hsame : ∀ {response' r}, s.receiver = .received response' → response'.1.refNo = some r →
      response.1.refNo = some r := by
    intro response' r hreceived hr
    obtain rfl : response = response' := Receiver.received.inj (received.symm.trans hreceived)
    exact hr
  rcases s.receive_cases response with ⟨hnone, hpolling, -⟩ |
    ⟨r', queued, hr', hevent, hpolling, -⟩ | ⟨r', hr', hevent, hended, -⟩
  · rw [hpolling]
    refine iff_of_false (fun h => nomatch h) ?_
    rintro ⟨response', r, hreceived, hr, -⟩
    have hr := hsame hreceived hr
    rw [hnone] at hr
    cases hr
  · rw [hpolling]
    refine iff_of_false (fun h => nomatch h) ?_
    rintro ⟨response', r, hreceived, hr, hnot⟩
    obtain rfl : r' = r := Option.some.inj (hr'.symm.trans (hsame hreceived hr))
    exact hnot hevent
  · exact iff_of_true hended ⟨response, r', received, hr', hevent⟩

theorem System.allSet_receive {s : System} {response : Response × Bytes}
    (hended : (s.receive response).receiver = .ended) :
    (s.receive response).AllSet ↔ s.AllSet := by
  rcases s.receive_cases response with ⟨-, hpolling, -⟩ | ⟨-, -, -, -, hpolling, -⟩ |
    ⟨-, -, -, -, hevents⟩
  · rw [hpolling] at hended
    cases hended
  · rw [hpolling] at hended
    cases hended
  · unfold AllSet
    rw [hevents]
    rfl

theorem System.noneLeft_wake {s : System} (howned : s.Owned) (hdelivered : s.Delivered)
    (h : s.NoneLeft) {i : ℕ} {q : RequestCall} {refNo : ℕ} (found : s.requests[i]? = some q)
    (waiting : q.state = .waiting refNo)
    (set : s.client.outstandingRequestsEvents.get? refNo = some true) :
    (s.wake i q refNo).NoneLeft := by
  intro hended j p r hp hwaiting
  obtain ⟨queued, -, heq⟩ := @System.wake_eq s hdelivered i q refNo set
  rw [heq] at hended hp ⊢
  rcases (getElem?_set_eq_some_iff found).mp hp with ⟨rfl, rfl⟩ | ⟨hj, hother⟩
  · cases hwaiting
  · have hne : r ≠ refNo := by
      rintro rfl
      exact hj (howned.unique hother found (by rw [hwaiting]; rfl) (by rw [waiting]; rfl))
    change (Dict.erase _ refNo).get? r = some true
    rw [Dict.get?_erase, if_neg hne]
    exact h hended j p r hother hwaiting

/-- A step of the receiver, or of `close`. -/
theorem Guarded.noneLeft_iff {s t : System} {a : Action} (hregister : ∀ i, a ≠ .register i)
    (hended : t.receiver = .ended ↔ s.EndsReceiver a)
    (hanswered : t.receiver = .ended → (t.AllSet ↔ s.AllAnswered)) :
    t.NoneLeft ↔ Guarded s a := by
  constructor
  · intro hnone
    refine ⟨fun hends => ?_, fun i heq => absurd heq (hregister i)⟩
    have hdead := hended.mpr hends
    exact (hanswered hdead).mp (hnone hdead)
  · intro hguarded hdead
    exact (hanswered hdead).mpr (hguarded.1 (hended.mp hdead))

/-- A step leaves no one waiting for a dead receiver exactly if it meets the condition. -/
theorem Step.noneLeft_iff {s t : System} {a : Action} (hstep : Step s a t) (howned : s.Owned)
    (hdelivered : s.Delivered) (hqueue : s.QueueSet) (h : s.NoneLeft) :
    t.NoneLeft ↔ Guarded s a := by
  have hanswered := s.allSet_iff hdelivered hqueue h
  have hkeep : ∀ {i : ℕ} {q : RequestCall} {state : RequestState}, s.requests[i]? = some q →
      (∀ r, state ≠ .waiting r) → (s.setState i q state).NoneLeft :=
    fun found hstate hended => (h hended).setState found hstate
  cases hstep with
  | call request =>
    refine iff_of_true (fun hended j p r hp hwaiting => ?_) (.of_goes_on (by exact id) (by simp))
    rcases getElem?_append_singleton_iff.mp hp with ⟨-, rfl⟩ | hp
    · cases hwaiting
    · exact h hended j p r hp hwaiting
  | @send i q found starting free usable =>
    obtain ⟨written, heq⟩ := @System.send_eq s howned i q
    refine iff_of_true ?_ (.of_goes_on (by exact id) (by simp))
    rw [heq]
    exact hkeep found (by simp)
  | @register i q refNo found draining =>
    rw [System.register_eq howned hdelivered found draining]
    by_cases hended : s.receiver = .ended
    · refine iff_of_false (fun hnone => ?_) (fun hguarded => hguarded.2 i rfl hended)
      have hset := hnone hended i _ refNo
        ((getElem?_set_eq_some_iff found).mpr (Or.inl ⟨rfl, rfl⟩)) rfl
      change (Dict.set _ refNo false).get? refNo = some true at hset
      rw [Dict.get?_set, if_pos rfl] at hset
      cases hset
    · exact iff_of_true (fun hended' => absurd hended' hended)
        ⟨fun hends => hends.elim, fun _ _ => hended⟩
  | wake found waiting set =>
    exact iff_of_true (System.noneLeft_wake howned hdelivered h found waiting set)
      (.of_goes_on (by exact id) (by simp))
  | poll polling =>
    exact Guarded.noneLeft_iff (by simp) s.tryParse_ended_iff
      fun _ => s.allSet_tryParse.trans hanswered
  | read reading data =>
    have hset := System.allSet_tryParse (s.setConn (s.client.conn.appendData
      (s.client.conn.tcpStreamReader.recv 1024).1 (s.client.conn.tcpStreamReader.recv 1024).2))
    exact Guarded.noneLeft_iff (by simp) (System.tryParse_ended_iff _)
      fun _ => hset.trans hanswered
  | receive received =>
    exact Guarded.noneLeft_iff (by simp) (System.receive_ended_iff received)
      fun hended => (System.allSet_receive hended).trans hanswered
  | endOfStream | readFails | closeTasks =>
    exact Guarded.noneLeft_iff (by simp) (iff_of_true rfl trivial) fun _ => hanswered
  | refuse found => exact iff_of_true (hkeep found (by simp)) (.of_goes_on (by exact id) (by simp))
  | drainFails found =>
    exact iff_of_true (hkeep found (by simp)) (.of_goes_on (by exact id) (by simp))
  | @cancel i q state found cancelled =>
    refine iff_of_true (hkeep found ?_) (.of_goes_on (by exact id) (by simp))
    revert cancelled
    cases q.state <;> rintro ⟨⟩ <;> simp
  | serverSends | serverBytes | serverEof | getMessage | handle | finish | disconnect =>
    exact iff_of_true h (.of_goes_on (by exact id) (by simp))

/-- **When requests are left waiting.** Over any stream and with `close` at any point: as
long as the receiver ends only when the replies to all waiting requests have been received,
and no request comes past its send after that, no request waits for a dead receiver. The
first step that breaks this leaves one waiting. -/
theorem Run.noneLeft {user : Bytes} {s : System} (h : Run Step Guarded (.connected user) s) :
    s.NoneLeft ∧ ∀ (a : Action) (t : System), Step s a t → (t.NoneLeft ↔ Guarded s a) := by
  obtain ⟨howned, hdelivered, -⟩ := h.invariants
  have hboth : s.QueueSet ∧ s.NoneLeft := by
    apply h.induct (P := fun s => s.QueueSet ∧ s.NoneLeft)
    · constructor
      · intro _ r hr
        exact absurd hr (Dict.not_mem_empty r)
      · intro hended
        cases hended
    · intro u a v hrun hguarded hstep hu
      obtain ⟨howned, hdelivered, -⟩ := hrun.invariants
      exact ⟨hstep.queueSet howned hdelivered hu.1,
        (hstep.noneLeft_iff howned hdelivered hu.1 hu.2).mpr hguarded⟩
  exact ⟨hboth.2, fun a t hstep => hstep.noneLeft_iff howned hdelivered hboth.1 hboth.2⟩

/-- Data that a response is read from does not end the receiver. -/
theorem System.not_endsReceiver_read {s : System} (response : Response × Bytes) (rest : Bytes)
    (hrun : (AioConnection.replyParser s.client.conn.calls).run (s.client.conn.buffer.current ++
      (s.client.conn.tcpStreamReader.recv 1024).1) = .returned response rest) :
    ¬ s.EndsReceiver .read := by
  rintro ⟨e, conn, hraised⟩
  obtain ⟨buffer, -, hreturned⟩ := (s.client.conn.appendData
    (s.client.conn.tcpStreamReader.recv 1024).1
    (s.client.conn.tcpStreamReader.recv 1024).2).tryParseResponse_of_run hrun
  rw [hreturned] at hraised
  cases hraised

/-- A reply with an event does not end the receiver. -/
theorem System.not_endsReceiver_receive {s : System} {response : Response × Bytes} (refNo : ℕ)
    (received : s.receiver = .received response) (hrefNo : response.1.refNo = some refNo)
    (hevent : refNo ∈ s.client.outstandingRequestsEvents) : ¬ s.EndsReceiver .receive := by
  rintro ⟨response', r, hreceived, hr, hnot⟩
  obtain rfl : response = response' := Receiver.received.inj (received.symm.trans hreceived)
  obtain rfl : refNo = r := Option.some.inj (hrefNo.symm.trans hr)
  exact hnot hevent

/-- A request whose reply has come when the client is closed. -/
theorem Run.noneLeft_answered :
    ∃ s : System, s.receiver = .ended ∧
      s.requests.map (fun q => q.state) = [.waiting 1] ∧ s.NoneLeft ∧
      ∀ (a : Action) (t : System), Step s a t → (t.NoneLeft ↔ Guarded s a) := by
  have hrun : ∃ s, Run Step Guarded (.connected (ascii "me")) s ∧ s.receiver = .ended ∧
      s.requests.map (fun q => q.state) = [.waiting 1] := by
    refine Run.reach ⟨fun _ i q r hq => by simp [System.connected] at hq, by simp⟩
      (@Step.poll _ rfl) ?_
    refine Run.reach (.of_goes_on (by exact id) (by simp)) (.call ⟨Requests.WHO_AM_I, []⟩) ?_
    refine Run.reach (.of_goes_on (by exact id) (by simp))
      (@Step.send _ 0 _ rfl rfl rfl (by decide)) ?_
    refine Run.reach (.of_running (by exact id) ?_) (@Step.register _ 0 _ 1 rfl rfl) ?_
    · exact Receiver.noConfusion
    refine Run.reach (.of_goes_on (by exact id) (by simp))
      (@Step.serverSends _ (.ok 1 (.sessionNo 17)) _
        (ascii "=1 17\n") ⟨[ascii "=1 17\n"], by decide⟩ rfl (.ok rfl rfl)
        ⟨[ascii "=1", ascii "17"], ⟨_, rfl, _, rfl, by decide⟩, by decide⟩ (by decide)) ?_
    refine Run.reach_read (.ok 1 (.sessionNo 17), ascii "17") [] (.of_goes_on ?_ (by simp)) rfl
      (by decide) rfl (fun buffer _ => ?_)
    · exact System.not_endsReceiver_read (.ok 1 (.sessionNo 17), ascii "17") [] rfl
    refine Run.reach (.of_goes_on ?_ (by simp)) (@Step.receive _ _ rfl) ?_
    · apply System.not_endsReceiver_receive 1 rfl rfl
      apply @Dict.mem_of_get? _ _ _ _ _ false
      rfl
    refine Run.reach ⟨fun _ i q r hq hwaiting => ?_, by simp⟩ (.closeTasks rfl) ?_
    · cases i with
      | zero =>
        cases hq
        cases hwaiting
        apply @Dict.mem_of_get? _ _ _ _ _ ⟨.ok (.sessionNo 17), ascii "17"⟩
        rfl
      | succ i => cases hq
    exact ⟨_, Run.refl, rfl, rfl⟩
  obtain ⟨s, hrun, hended, hstates⟩ := hrun
  exact ⟨s, hended, hstates, Run.noneLeft hrun⟩

/-- The stream ends while a request waits. -/
theorem Run.left_waiting :
    ¬ ∀ (user : Bytes) (s : System), Run Step (fun _ _ => True) (.connected user) s →
      s.receiver = .ended → ∀ (i : ℕ) (q : RequestCall) (r : ℕ), s.requests[i]? = some q →
        q.state = .waiting r → s.client.outstandingRequestsEvents.get? r = some true := by
  intro hclaim
  have hrun : ∃ s, Run Step (fun _ _ => True) (.connected (ascii "me")) s ∧
      s.receiver = .ended ∧ s.requests = [⟨⟨Requests.WHO_AM_I, []⟩, .waiting 1⟩] ∧
      s.client.outstandingRequestsEvents.get? 1 = some false := by
    refine Run.reach trivial (.call ⟨Requests.WHO_AM_I, []⟩) ?_
    refine Run.reach trivial (@Step.send _ 0 _ rfl rfl rfl (by decide)) ?_
    refine Run.reach trivial (@Step.register _ 0 _ 1 rfl rfl) ?_
    refine Run.reach trivial (@Step.poll _ rfl) ?_
    refine Run.reach trivial .serverEof ?_
    refine Run.reach trivial (@Step.endOfStream _ rfl rfl rfl) ?_
    exact ⟨_, Run.refl, rfl, rfl, rfl⟩
  obtain ⟨s, hrun, hended, hrequests, hevent⟩ := hrun
  have hset := hclaim _ s hrun hended 0 _ 1 (by rw [hrequests]; rfl) rfl
  rw [hevent] at hset
  cases hset

end Pylyskom
