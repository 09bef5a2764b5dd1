import Pylyskom.Aio.OwnReplies
import Pylyskom.Aio.RequestLines
import Pylyskom.Linearization
import Pylyskom.ServerProgram

/-!
# Concurrent remote calls

Any number of tasks make requests with one asynchronous client, and a server reads them from
the bytes that were written and answers in any order. What the tasks get is what they would
get if the program of the server were called directly, by one task after the other.
-/

namespace Pylyskom

/-! ## What the tasks write -/

namespace System

/-- The ref-nos of the tasks. -/
def refNos (s : System) : List (Option ℕ) := s.requests.map fun q => q.state.refNo

/-- A step that writes nothing and gives out no ref-no. -/
structure Silent (s t : System) : Prop where
  requests : t.requests.map (fun q => q.request) = s.requests.map fun q => q.request
  sent : t.sent = s.sent
  written : t.client.conn.written = s.client.conn.written
  refNo : t.client.conn.refNo = s.client.conn.refNo
  refNos : t.refNos = s.refNos

/-- A step that writes the line of a task and gives it the next ref-no. -/
structure Numbers (s t : System) (i : ℕ) (q : RequestCall) : Prop where
  found : s.requests[i]? = some q
  unnumbered : q.state.refNo = none
  requests : t.requests.map (fun q => q.request) = s.requests.map fun q => q.request
  sent : t.sent = s.sent
  written : t.client.conn.written =
    s.client.conn.written ++ requestLine (s.client.conn.refNo + 1, q.request)
  refNo : t.client.conn.refNo = s.client.conn.refNo + 1
  refNos : t.refNos = s.refNos.set i (some (s.client.conn.refNo + 1))

variable {s : System} {i : ℕ} {q : RequestCall}

theorem Silent.tryParse (s : System) : s.Silent s.tryParse := by
  rcases s.tryParse_cases with ⟨response, buffer, -, heq⟩ | ⟨e, buffer, -, heq⟩ | heq
  · rw [heq]
    exact ⟨rfl, rfl, rfl, rfl, rfl⟩
  · rw [heq]
    exact ⟨rfl, rfl, rfl, rfl, rfl⟩
  · rw [heq]
    exact ⟨rfl, rfl, rfl, rfl, rfl⟩

/-- A task comes to a state with the same ref-no. -/
theorem Silent.setState (found : s.requests[i]? = some q) {state : RequestState}
    (same : state.refNo = q.state.refNo) : s.Silent (s.setState i q state) where
  requests := map_set_of_eq found rfl
  sent := rfl
  written := rfl
  refNo := rfl
  refNos := map_set_of_eq found same

theorem Silent.trans {t u : System} (h : s.Silent t) (h' : t.Silent u) : s.Silent u where
  requests := h'.requests.trans h.requests
  sent := h'.sent.trans h.sent
  written := h'.written.trans h.written
  refNo := h'.refNo.trans h.refNo
  refNos := h'.refNos.trans h.refNos

/-- The task that sends gets the next ref-no. -/
theorem Numbers.send (howned : s.Owned) (found : s.requests[i]? = some q)
    (unnumbered : q.state.refNo = none) : s.Numbers (s.send i q) i q := by
  rw [send_written howned]
  exact ⟨found, unnumbered, map_set_of_eq found rfl, rfl, rfl, rfl, List.map_set⟩

end System

/-- The steps of the tasks that have been called, and the loss of the connection. -/
def Action.ofTasks : Action → Bool
  | call _ | serverSends _ | serverBytes _ | closeTasks => false
  | _ => true

theorem Action.orderly_of_ofTasks {a : Action} (h : a.ofTasks = true) : a.orderly = true := by
  cases a <;> first | rfl | cases h

/-- A step of the tasks writes the line of one of them or nothing. -/
theorem Step.silent_or_numbers {s t : System} {a : Action} (hstep : Step s a t)
    (howned : s.Owned) (ofTasks : a.ofTasks = true) : s.Silent t ∨ ∃ i q, s.Numbers t i q := by
  cases hstep with
  | call | serverSends | serverBytes | closeTasks => cases ofTasks
  | send found starting free usable =>
    exact Or.inr ⟨_, _, .send howned found (by rw [starting]; rfl)⟩
  | refuse found starting free closed =>
    exact Or.inl (.setState found (by rw [starting]; rfl))
  | @register i q refNo found draining =>
    have hkept : ∀ state : RequestState, state.refNo = some refNo →
        s.Silent (s.setState i q state) := fun state hstate =>
      .setState found (by rw [draining, hstate]; rfl)
    rcases s.register_cases i q refNo with ⟨-, heq⟩ | heq
    · rw [heq]
      exact Or.inl (hkept _ rfl)
    · rw [heq]
      have hwaiting := hkept (.waiting refNo) rfl
      exact Or.inl ⟨hwaiting.requests, rfl, rfl, rfl, hwaiting.refNos⟩
  | @wake i q refNo found waiting set =>
    have hdone : s.Silent (s.setState i q (.done refNo (s.client.endRequest refNo false).1)) :=
      .setState found (by rw [waiting]; rfl)
    have hconn := s.client.conn_endRequest refNo false
    exact Or.inl ⟨hdone.requests, rfl, congrArg AioConnection.written hconn,
      congrArg AioConnection.refNo hconn, hdone.refNos⟩
  | poll => exact Or.inl (.tryParse s)
  | read =>
    let data := s.client.conn.tcpStreamReader.recv 1024
    have hdata : s.Silent (s.setConn (s.client.conn.appendData data.1 data.2)) :=
      ⟨rfl, rfl, rfl, rfl, rfl⟩
    exact Or.inl (hdata.trans (.tryParse _))
  | @receive response received =>
    have hconn := s.client.conn_receiveResponse response.1 response.2
    exact Or.inl ⟨rfl, rfl, congrArg AioConnection.written hconn,
      congrArg AioConnection.refNo hconn, rfl⟩
  | @cancel i q state found cancelled =>
    refine Or.inl (.setState found ?_)
    revert cancelled
    cases q.state <;> rintro ⟨⟩ <;> rfl
  | drainFails found draining => exact Or.inl (.setState found (by rw [draining]; rfl))
  | endOfStream | readFails | serverEof | getMessage | handle | finish | disconnect =>
    exact Or.inl ⟨rfl, rfl, rfl, rfl, rfl⟩

/-! ## The tasks and the server -/

structure RemoteTasks (μ : Type) where
  system : System
  /-- The requests of the tasks. -/
  calls : List TypedRequest
  /-- What was written and the server has not read. -/
  inbox : Bytes
  /-- The requests that the server has read. -/
  handled : List (ReadRequest μ)

inductive RemoteTasksAction : Type
  | call (req : TypedRequest)
  | task (a : Action)
  | serverReads
  | serverAnswers (k : ℕ)
  | serverPushes (msg : AsyncMessage)

namespace RemoteTasks

variable {μ : Type}

/-- The server has read the greeting of the user. -/
def start (user : Bytes) : RemoteTasks μ where
  system := .connected user
  calls := []
  inbox := []
  handled := []

/-- More is on its way to the client. -/
def sends (s : RemoteTasks μ) (m : ServerMessage) (tcpStreamReader : Pieces) : RemoteTasks μ :=
  { s with system := { s.system.arrive tcpStreamReader with sent := s.system.sent ++ [m] } }

end RemoteTasks

/-- One step of a task or of the server, whose reader of misc-infos is given. -/
inductive RemoteTasksStep {μ : Type} (readMiscInfo : Parser μ) (program : ServerProgram μ) :
    RemoteTasks μ → RemoteTasksAction → RemoteTasks μ → Prop
  | call {s : RemoteTasks μ} {req : TypedRequest} {t : System} (sendable : req.Sendable)
      (step : Step s.system (.call req.request) t) :
      RemoteTasksStep readMiscInfo program s (.call req)
        { s with system := t, calls := s.calls ++ [req] }
  | task {s : RemoteTasks μ} {a : Action} {t : System} (step : Step s.system a t)
      (ofTasks : a.ofTasks = true) :
      RemoteTasksStep readMiscInfo program s (.task a)
        { s with
          system := t
          inbox := s.inbox ++ t.client.conn.written.drop s.system.client.conn.written.length }
  | serverReads {s : RemoteTasks μ} {req : ReadRequest μ} {rest : Bytes}
      (read : (readRequest readMiscInfo).run s.inbox = .returned req rest) :
      RemoteTasksStep readMiscInfo program s .serverReads
        { s with inbox := rest, handled := s.handled ++ [req] }
  /-- The requests may be answered in any order. -/
  | serverAnswers {s : RemoteTasks μ} {k : ℕ} {req : ReadRequest μ} {line : Bytes}
      {tcpStreamReader : Pieces} (isOpen : s.system.eof = false)
      (handled : s.handled[k]? = some req)
      (unanswered : ∀ m ∈ s.system.sent, m.refNo ≠ some req.refNo)
      (written : line ∈ ((program.answer (s.handled.take k) req).message req.refNo).lines)
      (arriving : tcpStreamReader.bytes =
        s.system.client.conn.tcpStreamReader.bytes ++ line) :
      RemoteTasksStep readMiscInfo program s (.serverAnswers k)
        (s.sends ((program.answer (s.handled.take k) req).message req.refNo) tcpStreamReader)
  | serverPushes {s : RemoteTasks μ} {argumentCount : ℕ} {msg : AsyncMessage} {line : Bytes}
      {tcpStreamReader : Pieces} (isOpen : s.system.eof = false)
      (written : line ∈ (ServerMessage.async argumentCount msg).lines)
      (arriving : tcpStreamReader.bytes =
        s.system.client.conn.tcpStreamReader.bytes ++ line) :
      RemoteTasksStep readMiscInfo program s (.serverPushes msg)
        (s.sends (.async argumentCount msg) tcpStreamReader)

/-! ## Calls -/

/-- A task has returned when it has its reply; its call is its number. -/
def RemoteTasks.taskCalls {μ : Type} :
    CallHistory (RemoteTasks μ) ℕ TypedRequest (Except Exn RequestResult) where
  request s i := s.calls[i]?
  result s i := do
    let q ← s.system.requests[i]?
    match q.state with
    | .done _ result => some result
    | _ => none

/-- The program of the server as an object with one method. -/
def ServerProgram.Returns {μ : Type} (program : ServerProgram μ) (f : CookedMiscInfo → μ)
    (earlier : List TypedRequest) (req : TypedRequest) (result : Except Exn RequestResult) :
    Prop :=
  ∃ okReply : Except Exn OkReply,
    (program.answer (receivedAs f earlier) (req.received f (earlier.length + 1))).Gives okReply ∧
      result = okReply.map RequestResult.reply

/-! ## Invariants -/

/-- The tasks have ref-nos by their places in the order, and what the server has read and sent
belongs to their requests. -/
structure RemoteTasks.Served {μ : Type} (f : CookedMiscInfo → μ) (program : ServerProgram μ)
    (user : Bytes) (s : RemoteTasks μ) (order : List ℕ) : Prop where
  run : Run Step (fun _ a => a.orderly = true) (.connected user) s.system
  calls : s.system.requests.map (fun q => q.request) = s.calls.map TypedRequest.request
  sendable : ∀ req ∈ s.calls, req.Sendable
  length : order.length = s.system.client.conn.refNo
  numbered : ∀ {i r : ℕ}, s.system.refNos[i]? = some (some r) ↔
    ∃ k, r = k + 1 ∧ order[k]? = some i
  server : ∃ reqs, List.Forall₂ (fun i req => s.calls[i]? = some req) order reqs ∧
    ServerSide f program reqs s.inbox s.handled s.system.sent

namespace RemoteTasks.Served

variable {μ : Type} {readMiscInfo : Parser μ} {f : CookedMiscInfo → μ} {program : ServerProgram μ}
  {user : Bytes} {s : RemoteTasks μ} {order : List ℕ}

theorem start : (RemoteTasks.start user : RemoteTasks μ).Served f program user [] where
  run := .refl
  calls := rfl
  sendable := by simp [RemoteTasks.start]
  length := rfl
  numbered := by simp [RemoteTasks.start, System.refNos, System.connected]
  server := ⟨[], .nil, .start⟩

/-- A task is called. -/
theorem call (h : s.Served f program user order) {req : TypedRequest} (sendable : req.Sendable)
    {t : System} (step : Step s.system (.call req.request) t) :
    RemoteTasks.Served f program user { s with system := t, calls := s.calls ++ [req] } order := by
  have hrun := h.run.tail rfl step
  cases step
  obtain ⟨reqs, hreqs, hserver⟩ := h.server
  refine ⟨hrun, ?_, ?_, h.length, ?_, reqs, ?_, hserver⟩
  · simp [h.calls]
  · intro q hq
    rcases List.mem_append.mp hq with hq | hq
    · exact h.sendable q hq
    · rw [List.mem_singleton.mp hq]
      exact sendable
  · intro i r
    rw [← h.numbered]
    simp only [System.refNos, List.map_append, List.map_cons, List.map_nil]
    rw [getElem?_append_singleton_iff]
    constructor
    · rintro (⟨-, hnone⟩ | hold)
      · cases hnone
      · exact hold
    · exact Or.inr
  · exact hreqs.imp fun i q hq => getElem?_append_singleton_iff.mpr (Or.inr hq)

/-- A step that writes nothing. -/
theorem silent (h : s.Served f program user order) {t : System}
    (hrun : Run Step (fun _ a => a.orderly = true) (.connected user) t)
    (hsilent : s.system.Silent t) :
    RemoteTasks.Served f program user
      { s with
        system := t
        inbox := s.inbox ++ t.client.conn.written.drop s.system.client.conn.written.length }
      order := by
  refine ⟨hrun, hsilent.requests.trans h.calls, h.sendable, h.length.trans hsilent.refNo.symm, ?_,
    ?_⟩
  · intro i r
    change t.refNos[i]? = _ ↔ _
    rw [hsilent.refNos, h.numbered]
  · simp only [hsilent.written, hsilent.sent, List.drop_length, List.append_nil]
    exact h.server

/-- A step that gives a ref-no to a task. -/
theorem numbers (h : s.Served f program user order) {t : System}
    (hrun : Run Step (fun _ a => a.orderly = true) (.connected user) t) {i : ℕ} {q : RequestCall}
    (hnumbers : s.system.Numbers t i q) :
    RemoteTasks.Served f program user
      { s with
        system := t
        inbox := s.inbox ++ t.client.conn.written.drop s.system.client.conn.written.length }
      (order ++ [i]) := by
  obtain ⟨reqs, hreqs, hserver⟩ := h.server
  have hrequest : (s.calls.map TypedRequest.request)[i]? = some q.request := by
    rw [← h.calls, List.getElem?_map, hnumbers.found]
    rfl
  rw [List.getElem?_map, Option.map_eq_some_iff] at hrequest
  obtain ⟨typed, htyped, hrequest⟩ := hrequest
  have hlength : reqs.length = s.system.client.conn.refNo := hreqs.length_eq.symm.trans h.length
  have hunnumbered : s.system.refNos[i]? = some none := by
    rw [System.refNos, List.getElem?_map, hnumbers.found]
    exact congrArg some hnumbers.unnumbered
  have hi : i < s.system.refNos.length := (List.getElem?_eq_some_iff.mp hunnumbered).1
  refine ⟨hrun, hnumbers.requests.trans h.calls, h.sendable, ?_, ?_, reqs ++ [typed], ?_, ?_⟩
  · rw [List.length_append, h.length, List.length_singleton]
    exact hnumbers.refNo.symm
  · intro j r
    change t.refNos[j]? = _ ↔ _
    rw [hnumbers.refNos]
    by_cases hj : i = j
    · subst hj
      rw [List.getElem?_set_self hi, Option.some.injEq, Option.some.injEq]
      constructor
      · rintro rfl
        exact ⟨_, rfl, getElem?_append_singleton_iff.mpr (Or.inl ⟨h.length.symm, rfl⟩)⟩
      · rintro ⟨k, rfl, hk⟩
        rcases getElem?_append_singleton_iff.mp hk with ⟨rfl, -⟩ | hold
        · rw [h.length]
        · have hnumbered := h.numbered.mpr ⟨k, rfl, hold⟩
          rw [hunnumbered] at hnumbered
          cases hnumbered
    · rw [List.getElem?_set_ne hj, h.numbered]
      constructor
      · rintro ⟨k, rfl, hk⟩
        exact ⟨k, rfl, getElem?_append_singleton_iff.mpr (Or.inr hk)⟩
      · rintro ⟨k, rfl, hk⟩
        rcases getElem?_append_singleton_iff.mp hk with ⟨-, hlast⟩ | hold
        · exact absurd hlast.symm hj
        · exact ⟨k, rfl, hold⟩
  · exact List.rel_append hreqs (.cons htyped .nil)
  · have hline := hserver.request (h.sendable typed (List.mem_of_getElem? htyped))
    rw [hlength, hrequest] at hline
    change ServerSide f program _ (s.inbox ++
      t.client.conn.written.drop s.system.client.conn.written.length) _ t.sent
    rw [hnumbers.written, List.drop_left, hnumbers.sent]
    exact hline

/-- The server sends what a client waits for, or a message of its own. -/
theorem sends (h : s.Served f program user order) {m : ServerMessage} {resp : Response}
    {line : Bytes} {tcpStreamReader : Pieces} (isOpen : s.system.eof = false)
    (means : m.Means s.system.unanswered resp) (written : line ∈ m.lines)
    (arriving : tcpStreamReader.bytes = s.system.client.conn.tcpStreamReader.bytes ++ line)
    (hserver : ∀ {reqs}, ServerSide f program reqs s.inbox s.handled s.system.sent →
      ServerSide f program reqs s.inbox s.handled (s.system.sent ++ [m])) :
    (s.sends m tcpStreamReader).Served f program user order := by
  obtain ⟨reqs, hreqs, hside⟩ := h.server
  exact ⟨h.run.tail rfl (.serverSends isOpen means written arriving), h.calls, h.sendable, h.length,
    h.numbered, reqs, hreqs, hserver hside⟩

/-- The request of a task with a ref-no. -/
theorem found (h : s.Served f program user order) {k i : ℕ} (hi : order[k]? = some i) :
    ∃ q, s.system.requests[i]? = some q ∧ q.state.refNo = some (k + 1) ∧
      ∃ typed, s.calls[i]? = some typed ∧ typed.request = q.request := by
  have hrefNo := h.numbered.mpr ⟨k, rfl, hi⟩
  rw [System.refNos, List.getElem?_map, Option.map_eq_some_iff] at hrefNo
  obtain ⟨q, hq, hrefNo⟩ := hrefNo
  have hrequest : (s.calls.map TypedRequest.request)[i]? = some q.request := by
    rw [← h.calls, List.getElem?_map, hq]
    rfl
  rw [List.getElem?_map, Option.map_eq_some_iff] at hrequest
  exact ⟨q, hq, hrefNo, hrequest⟩

/-- An answer of the program is one that the client waits for. -/
theorem means (h : s.Served f program user order) {k : ℕ} {req : ReadRequest μ}
    (hreq : s.handled[k]? = some req)
    (unanswered : ∀ m ∈ s.system.sent, m.refNo ≠ some req.refNo) :
    ∃ resp, ((program.answer (s.handled.take k) req).message req.refNo).Means
      s.system.unanswered resp := by
  obtain ⟨reqs, hreqs, hserver⟩ := h.server
  obtain ⟨typed, htyped, rfl⟩ := hserver.of_handled hreq
  obtain ⟨i, hi, hcall⟩ := getElem?_of_forall₂ hreqs htyped
  obtain ⟨q, hq, hrefNo, typed', htyped', hrequest⟩ := h.found hi
  obtain rfl : typed = typed' := Option.some.inj (hcall.symm.trans htyped')
  have hissued := h.run.invariants.1.call_eq hq hrefNo
  apply program.means
  have hnone : ¬ some (k + 1) ∈ s.system.sent.map ServerMessage.refNo := by
    intro hmem
    obtain ⟨m, hm, hm'⟩ := List.mem_map.mp hmem
    exact unanswered m hm hm'
  change s.system.unanswered (k + 1) = some typed.cls.callNo
  rw [System.unanswered, if_neg hnone, hissued, ← hrequest]
  rfl

/-- **Each step keeps the tasks and the server together.** -/
theorem step (hread : ReadsMiscInfo readMiscInfo f) (h : s.Served f program user order)
    {a : RemoteTasksAction} {t : RemoteTasks μ}
    (hstep : RemoteTasksStep readMiscInfo program s a t) :
    ∃ order', t.Served f program user order' ∧ order <+: order' := by
  cases hstep with
  | call sendable step => exact ⟨order, h.call sendable step, List.prefix_rfl⟩
  | task step ofTasks =>
    have hrun := h.run.tail (Action.orderly_of_ofTasks ofTasks) step
    rcases step.silent_or_numbers h.run.invariants.1 ofTasks with hsilent | ⟨i, q, hnumbers⟩
    · exact ⟨order, h.silent hrun hsilent, List.prefix_rfl⟩
    · exact ⟨order ++ [i], h.numbers hrun hnumbers, List.prefix_append _ _⟩
  | serverReads read =>
    obtain ⟨reqs, hreqs, hserver⟩ := h.server
    exact ⟨order, ⟨h.run, h.calls, h.sendable, h.length, h.numbered, reqs, hreqs,
      hserver.serverReads hread read⟩, List.prefix_rfl⟩
  | serverAnswers isOpen handled unanswered written arriving =>
    obtain ⟨resp, hmeans⟩ := h.means handled unanswered
    exact ⟨order, h.sends isOpen hmeans written arriving fun hserver =>
      hserver.sends_answer handled, List.prefix_rfl⟩
  | serverPushes isOpen written arriving =>
    exact ⟨order, h.sends isOpen .async written arriving fun hserver =>
      hserver.sends_async _ _, List.prefix_rfl⟩

theorem unique {order' : List ℕ} (h : s.Served f program user order)
    (h' : s.Served f program user order') : order = order' := by
  have hplace : ∀ {o : List ℕ}, s.Served f program user o → ∀ k i,
      o[k]? = some i ↔ s.system.refNos[i]? = some (some (k + 1)) := by
    intro o ho k i
    rw [ho.numbered]
    constructor
    · exact fun hi => ⟨k, rfl, hi⟩
    · rintro ⟨k', hk, hi⟩
      obtain rfl := Nat.succ.inj hk
      exact hi
  exact List.ext_getElem? fun k => Option.ext fun i => (hplace h k i).trans (hplace h' k i).symm

theorem nodup (h : s.Served f program user order) : order.Nodup := by
  refine List.nodup_iff_getElem?_ne_getElem?.mpr fun j k hjk hk heq => ?_
  have hj : order[j]? = some order[k] := heq.trans (List.getElem?_eq_getElem hk)
  have hfirst := h.numbered.mpr ⟨j, rfl, hj⟩
  have hsecond := h.numbered.mpr ⟨k, rfl, List.getElem?_eq_getElem hk⟩
  have hsame := Option.some.inj (Option.some.inj (hfirst.symm.trans hsecond))
  omega

/-- What a task has got is what the program returns after the requests before its own. -/
theorem explains (h : s.Served f program user order) :
    RemoteTasks.taskCalls.Explains (program.Returns f) s order := by
  obtain ⟨reqs, hreqs, hserver⟩ := h.server
  refine ⟨h.nodup, ?_, ?_⟩
  · intro i hi
    obtain ⟨k, hk⟩ := List.getElem?_of_mem hi
    obtain ⟨-, -, -, typed, htyped, -⟩ := h.found hk
    exact ⟨typed, htyped⟩
  · intro i result hresult
    obtain ⟨q, hq, hdone⟩ := Option.bind_eq_some_iff.mp hresult
    cases hstate : q.state with
    | done r result' =>
      rw [hstate] at hdone
      obtain rfl := Option.some.inj hdone
      have hrefNo : s.system.refNos[i]? = some (some r) := by
        rw [System.refNos, List.getElem?_map, hq]
        exact congrArg some (congrArg RequestState.refNo hstate)
      obtain ⟨k, rfl, hk⟩ := h.numbered.mp hrefNo
      obtain ⟨-, -, -, typed, htyped, -⟩ := h.found hk
      obtain ⟨hlt, hget⟩ := List.getElem?_eq_some_iff.mp hk
      have hplace : reqs[k]? = some typed := by
        obtain ⟨typed', htyped', hcall⟩ := getElem?_of_forall₂ hreqs.flip hk
        rwa [Option.some.inj (htyped.symm.trans hcall)]
      obtain ⟨m, resp, reply, hsent, hmeans, hreply, hofReply⟩ :=
        (Run.ownReplies_of_orderly h.run).own_reply hq hstate
      obtain ⟨hm, hm'⟩ := List.mem_filter.mp (hsent ▸ List.mem_singleton_self m)
      have hgives := hserver.gives hm (by simpa using hm') hplace hmeans hreply
      refine ⟨order.take k, order.drop (k + 1), reqs.take k, typed, ?_,
        List.forall₂_take k hreqs, htyped, ?_⟩
      · rw [← hget, List.cons_getElem_drop_succ, List.take_append_drop]
      · have hlength : (reqs.take k).length = k := by
          rw [List.length_take, ← hreqs.length_eq]
          omega
        refine ⟨reply.mapError .serverError, ?_, ?_⟩
        · rw [receivedAs_take, hlength]
          exact hgives
        · rw [hofReply]
          cases reply <;> rfl
    | _ =>
      rw [hstate] at hdone
      cases hdone

end RemoteTasks.Served

/-- **Concurrent requests are linearizable remote calls.** In every run of any number of tasks,
of which some are cancelled, and of a server that reads what they have written and answers in
any order, the tasks that have returned got what the program of the server returns when it is
called with one request after the other; the server reads the requests in this order, and a
task that had returned when another one was called comes before it. -/
theorem Run.remoteTasks {μ : Type} {readMiscInfo : Parser μ} {f : CookedMiscInfo → μ}
    {program : ServerProgram μ} {user : Bytes} {s : RemoteTasks μ}
    (hread : ReadsMiscInfo readMiscInfo f)
    (h : Run (RemoteTasksStep readMiscInfo program) (fun _ _ => True) (.start user) s) :
    ∃ order reqs, List.Forall₂ (fun i req => s.calls[i]? = some req) order reqs ∧
      s.handled <+: receivedAs f reqs ∧
      RemoteTasks.taskCalls.Linearizes (program.Returns f)
        (RemoteTasksStep readMiscInfo program) (fun _ _ => True) (.start user) s order := by
  have hlog : RemoteTasks.taskCalls.Logs (program.Returns f)
      (RemoteTasksStep readMiscInfo program) (fun _ _ => True)
      (RemoteTasks.Served f program user) :=
    ⟨RemoteTasks.Served.unique, fun _ hstep hu => hu.step hread hstep,
      RemoteTasks.Served.explains⟩
  obtain ⟨order, hserved, hlinear⟩ := hlog.linearizes h .start
  obtain ⟨reqs, hreqs, hserver⟩ := hserved.server
  refine ⟨order, reqs, hreqs, ?_, hlinear⟩
  rw [hserver.handled_eq]
  exact List.take_prefix _ _

/-- The tasks go on while the server does nothing. -/
theorem Run.reach_tasks {μ : Type} {readMiscInfo : Parser μ} {program : ServerProgram μ}
    {s : RemoteTasks μ} {P : System → Prop}
    (h : ∃ t, Run Step (fun _ a => a.ofTasks = true) s.system t ∧ P t) :
    ∃ t : RemoteTasks μ, Run (RemoteTasksStep readMiscInfo program) (fun _ _ => True) s t ∧
      P t.system := by
  obtain ⟨t, hrun, ht⟩ := h
  have hreach : ∃ inbox, Run (RemoteTasksStep readMiscInfo program) (fun _ _ => True) s
      { s with system := t, inbox } := by
    refine hrun.induct (P := fun t => ∃ inbox, Run (RemoteTasksStep readMiscInfo program)
      (fun _ _ => True) s { s with system := t, inbox }) ⟨s.inbox, .refl⟩ ?_
    rintro u a v - hallowed hstep ⟨inbox, hrun⟩
    exact ⟨_, hrun.tail trivial (.task hstep hallowed)⟩
  obtain ⟨inbox, hreach⟩ := hreach
  exact ⟨_, hreach, ht⟩

/-- A task that creates a text. -/
theorem Run.remoteTasks_sample :
    ∃ (s : RemoteTasks CookedMiscInfo) (order : List ℕ) (reqs : List TypedRequest),
      s.system.requests.map (fun q => q.state) = [.done 1 (.ok (.reply (.textNo 1)))] ∧
      List.Forall₂ (fun i req => s.calls[i]? = some req) order reqs ∧
      s.handled <+: receivedAs CookedMiscInfo.sent reqs ∧
      RemoteTasks.taskCalls.Linearizes (textCreator.Returns CookedMiscInfo.sent)
        (RemoteTasksStep CookedMiscInfo.parse textCreator) (fun _ _ => True)
        (.start (ascii "me")) s order := by
  have hread : ReadsMiscInfo CookedMiscInfo.parse CookedMiscInfo.sent :=
    fun _ hinfo => hinfo.parse_reads
  obtain ⟨rest, -, hline⟩ := readRequest_line hread 1 sampleRequest_sendable (Or.inl rfl) []
  have hanswer : ascii "=1 1\n" ∈ ((textCreator.answer []
      (sampleRequest.received CookedMiscInfo.sent 1)).message 1).lines :=
    ⟨[ascii "=1", ascii "1"], ⟨_, rfl, _, rfl, by decide⟩, by decide⟩
  have hrun : ∃ s, Run (RemoteTasksStep CookedMiscInfo.parse textCreator) (fun _ _ => True)
      (.start (ascii "me")) s ∧
      s.system.requests.map (fun q => q.state) = [.done 1 (.ok (.reply (.textNo 1)))] := by
    refine Run.reach trivial (.call sampleRequest_sendable (.call sampleRequest.request)) ?_
    refine Run.reach trivial (.task (@Step.send _ 0 _ rfl rfl rfl (by decide)) rfl) ?_
    refine Run.reach trivial (.task (@Step.register _ 0 _ 1 rfl rfl) rfl) ?_
    refine Run.reach trivial (.task (@Step.poll _ rfl) rfl) ?_
    refine Run.reach trivial (.serverReads hline) ?_
    refine Run.reach trivial (@RemoteTasksStep.serverAnswers _ _ _ _ 0 _ (ascii "=1 1\n")
      ⟨[ascii "=1 1\n"], by decide⟩ rfl rfl (fun _ hm => nomatch hm) hanswer rfl) ?_
    refine Run.reach_tasks (P := fun t => t.requests.map (fun q => q.state) = _) ?_
    refine Run.reach_read (.ok 1 (.textNo 1), ascii "1") [] rfl rfl (fun h => nomatch h) rfl ?_
    intro buffer _
    refine Run.reach rfl (@Step.receive _ _ rfl) ?_
    refine Run.reach rfl (@Step.wake _ 0 _ 1 rfl rfl rfl) ?_
    exact ⟨_, Run.refl, rfl⟩
  obtain ⟨s, hrun, hstates⟩ := hrun
  obtain ⟨order, reqs, hreqs, hhandled, hlinear⟩ := Run.remoteTasks hread hrun
  exact ⟨s, order, reqs, hstates, hreqs, hhandled, hlinear⟩

end Pylyskom
