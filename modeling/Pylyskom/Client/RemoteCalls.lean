import Pylyskom.Client.NestedReplies
import Pylyskom.ServerProgram

/-!
# Remote calls

A blocking client and a server, with a stream of bytes in each direction. The server reads
the requests from the bytes that the client has written, one after the other, and a program
answers them. To the client this is as if it had called the program itself.
-/

namespace Pylyskom

/-! ## The client and the server -/

structure Remote (μ : Type) where
  nest : Nest
  /-- The requests that the client has made. -/
  requests : List TypedRequest
  /-- What the client has written and the server has not read. -/
  inbox : Bytes
  /-- The requests that the server has read. -/
  handled : List (ReadRequest μ)

inductive RemoteAction : Type
  | request (req : TypedRequest)
  | client (a : NestAction)
  | serverReads
  | serverAnswers (k : ℕ)
  | serverPushes (msg : AsyncMessage)

/-- A step of the server. -/
def RemoteAction.OfServer : RemoteAction → Prop
  | request _ => False
  | client _ => False
  | _ => True

namespace Remote

variable {μ : Type}

def start : Remote μ where
  nest := .start
  requests := []
  inbox := []
  handled := []

/-- More is on its way to the client. -/
def sends (s : Remote μ) (m : ServerMessage) (socket : Pieces) : Remote μ :=
  { s with nest := { s.nest.arrive socket with sent := s.nest.sent ++ [m] } }

end Remote

/-- One step of the client or of the server, whose reader of misc-infos is given. -/
inductive RemoteStep {μ : Type} (readMiscInfo : Parser μ) (program : ServerProgram μ) :
    Remote μ → RemoteAction → Remote μ → Prop
  /-- The program or the handler function makes a request, which is written at once. -/
  | request {s : Remote μ} {req : TypedRequest} {t : Nest} (sendable : req.Sendable)
      (step : NestStep s.nest (.request req.request) t) :
      RemoteStep readMiscInfo program s (.request req)
        { s with
          nest := t
          requests := s.requests ++ [req]
          inbox := s.inbox ++ t.client.conn.written.drop s.nest.client.conn.written.length }
  | client {s : Remote μ} {a : NestAction} {t : Nest} (step : NestStep s.nest a t)
      (waits : a = .read ∨ a = .dequeue ∨ a = .endHandler) :
      RemoteStep readMiscInfo program s (.client a) { s with nest := t }
  | serverReads {s : Remote μ} {req : ReadRequest μ} {rest : Bytes}
      (read : (readRequest readMiscInfo).run s.inbox = .returned req rest) :
      RemoteStep readMiscInfo program s .serverReads
        { s with inbox := rest, handled := s.handled ++ [req] }
  /-- The requests may be answered in any order. -/
  | serverAnswers {s : Remote μ} {k : ℕ} {req : ReadRequest μ} {line : Bytes} {socket : Pieces}
      (handled : s.handled[k]? = some req)
      (unanswered : ∀ m ∈ s.nest.sent, m.refNo ≠ some req.refNo)
      (written : line ∈ ((program.answer (s.handled.take k) req).message req.refNo).lines)
      (arriving : socket.bytes = s.nest.client.conn.buffer.socket.bytes ++ line) :
      RemoteStep readMiscInfo program s (.serverAnswers k)
        (s.sends ((program.answer (s.handled.take k) req).message req.refNo) socket)
  | serverPushes {s : Remote μ} {argumentCount : ℕ} {msg : AsyncMessage} {line : Bytes}
      {socket : Pieces} (written : line ∈ (ServerMessage.async argumentCount msg).lines)
      (arriving : socket.bytes = s.nest.client.conn.buffer.socket.bytes ++ line) :
      RemoteStep readMiscInfo program s (.serverPushes msg)
        (s.sends (.async argumentCount msg) socket)

/-! ## Invariants -/

/-- The client goes on, and what the server has read and sent belongs to its requests. -/
structure Remote.Served {μ : Type} (f : CookedMiscInfo → μ) (program : ServerProgram μ)
    (s : Remote μ) : Prop where
  kept : s.nest.Kept
  wired : s.nest.Wired
  running : s.nest.raised = none
  refNo : s.nest.client.conn.refNo = s.requests.length
  issued : ∀ {r : ℕ} {req : Request}, s.nest.issued.get? r = some req ↔
    ∃ k typed, r = k + 1 ∧ s.requests[k]? = some typed ∧ typed.request = req
  server : ServerSide f program s.requests s.inbox s.handled s.nest.sent

namespace Remote.Served

variable {μ : Type} {readMiscInfo : Parser μ} {f : CookedMiscInfo → μ} {program : ServerProgram μ}
  {s : Remote μ}

theorem start : (Remote.start : Remote μ).Served f program where
  kept := Nest.kept_start
  wired := Nest.wired_start
  running := rfl
  refNo := rfl
  issued := by simp [Remote.start, Nest.start]
  server := .start

/-- A request of the client is written as one line. -/
theorem written_request (h : s.Served f program) (req : Request) :
    (s.nest.request req).client.conn.written =
      s.nest.client.conn.written ++ requestLine (s.requests.length + 1, req) := by
  have hnot : s.nest.client.conn.refNo + 1 ∉ s.nest.client.conn.outstandingRequests := by
    intro hmem
    have hle := h.kept.fresh (h.wired.issued_of_outstanding hmem).1
    omega
  unfold Nest.request Client.sendRequest Connection.sendRequest
  simp only [hnot, if_false]
  rw [h.refNo]
  rfl

theorem request (h : s.Served f program) {req : TypedRequest} (sendable : req.Sendable) :
    Remote.Served f program
      { s with
        nest := s.nest.request req.request
        requests := s.requests ++ [req]
        inbox := s.inbox ++ (s.nest.request req.request).client.conn.written.drop
          s.nest.client.conn.written.length } := by
  obtain ⟨written, heq⟩ := Nest.request_eq h.kept h.wired req.request
  constructor
  · exact h.kept.request h.wired req.request
  · exact h.wired.request h.kept req.request
  · rw [heq]
    exact h.running
  · rw [heq]
    simp [h.refNo]
  · intro r q
    rw [heq]
    simp only [Dict.get?_set, h.refNo]
    constructor
    · intro hq
      split_ifs at hq with hr
      · exact ⟨_, req, hr, getElem?_append_singleton_iff.mpr (Or.inl ⟨rfl, rfl⟩),
          Option.some.inj hq⟩
      · obtain ⟨k, typed, hk, htyped, hreq⟩ := h.issued.mp hq
        exact ⟨k, typed, hk, getElem?_append_singleton_iff.mpr (Or.inr htyped), hreq⟩
    · rintro ⟨k, typed, rfl, htyped, rfl⟩
      rcases getElem?_append_singleton_iff.mp htyped with ⟨rfl, rfl⟩ | htyped
      · rw [if_pos rfl]
      · have hk : k < s.requests.length := (List.getElem?_eq_some_iff.mp htyped).1
        rw [if_neg (by omega)]
        exact h.issued.mpr ⟨k, typed, rfl, htyped, rfl⟩
  · change ServerSide f program _ (s.inbox ++ (s.nest.request req.request).client.conn.written.drop
      s.nest.client.conn.written.length) _ _
    rw [h.written_request, List.drop_left, heq]
    exact h.server.request sendable

/-- The client reads or comes back from a call. -/
theorem client (h : s.Served f program) {a : NestAction} {t : Nest} (step : NestStep s.nest a t)
    (waits : a = .read ∨ a = .dequeue ∨ a = .endHandler) :
    Remote.Served f program { s with nest := t } := by
  obtain ⟨hkept, hwired, hrunning⟩ := step.kept ⟨h.kept, h.wired, h.running⟩
  have hsame : t.client.conn.refNo = s.nest.client.conn.refNo ∧ t.issued = s.nest.issued ∧
      t.sent = s.nest.sent := by
    cases step with
    | program req running idle => simp at waits
    | handler req running top => simp at waits
    | @read refNo req stack resp running top _ arrived =>
      rcases h.wired.readResponse_cases with ⟨resp, conn, hcall, hrefNo, -⟩ | ⟨conn, hcall⟩
      · rw [Nest.readResponse_eq hcall]
        cases resp <;> exact ⟨hrefNo, rfl, rfl⟩
      · rw [hcall] at arrived
        cases arrived
    | readFails running top _ fails notBlocked =>
      rcases h.wired.readResponse_cases with ⟨resp, conn, hcall, -⟩ | ⟨conn, hcall⟩
      · rw [hcall] at fails
        cases fails
      · rw [hcall] at fails
        cases fails
        exact absurd rfl notBlocked
    | dequeue running top queued =>
      obtain ⟨reply, resp, -, -, -, hconn, -⟩ := h.kept.dequeue_cases h.wired queued
      exact ⟨congrArg Connection.refNo hconn, rfl, rfl⟩
    | endHandler running top => exact ⟨rfl, rfl, rfl⟩
    | serverSends => simp at waits
  obtain ⟨hrefNo, hissued, hsent⟩ := hsame
  exact ⟨hkept, hwired, hrunning, hrefNo.trans h.refNo, by rw [hissued]; exact h.issued,
    by rw [hsent]; exact h.server⟩

/-- An answer of the program is one that the client waits for. -/
theorem means (h : s.Served f program) {k : ℕ} {req : ReadRequest μ}
    (hreq : s.handled[k]? = some req)
    (unanswered : ∀ m ∈ s.nest.sent, m.refNo ≠ some req.refNo) (earlier : List (ReadRequest μ)) :
    ∃ resp, ((program.answer earlier req).message req.refNo).Means s.nest.unanswered resp := by
  obtain ⟨typed, htyped, rfl⟩ := h.server.of_handled hreq
  have hissued := h.issued.mpr ⟨k, typed, rfl, htyped, rfl⟩
  apply program.means
  have hnone : ∀ m ∈ s.nest.sent, m.refNo ≠ some (k + 1) := unanswered
  have hany : ¬ (s.nest.sent.any fun m => m.refNo = some (k + 1)) = true := by
    simpa using hnone
  change s.nest.unanswered (k + 1) = some typed.cls.callNo
  rw [Nest.unanswered, if_neg hany, hissued]
  rfl

/-- The server sends an answer or a message of its own. -/
theorem sends (h : s.Served f program) {m : ServerMessage} {resp : Response} {line : Bytes}
    {socket : Pieces} (means : m.Means s.nest.unanswered resp) (written : line ∈ m.lines)
    (arriving : socket.bytes = s.nest.client.conn.buffer.socket.bytes ++ line)
    (server : ServerSide f program s.requests s.inbox s.handled (s.nest.sent ++ [m])) :
    (s.sends m socket).Served f program := by
  obtain ⟨hkept, hwired, hrunning⟩ :=
    (NestStep.serverSends means written arriving).kept ⟨h.kept, h.wired, h.running⟩
  exact ⟨hkept, hwired, hrunning, h.refNo, h.issued, server⟩

/-- **Each step keeps the client and the server together.** -/
theorem step (hread : ReadsMiscInfo readMiscInfo f) {a : RemoteAction} {t : Remote μ}
    (hstep : RemoteStep readMiscInfo program s a t) (h : s.Served f program) :
    t.Served f program := by
  cases hstep with
  | @request req t sendable step =>
    have ht : t = s.nest.request req.request := by
      cases step <;> rfl
    rw [ht]
    exact h.request sendable
  | client step waits => exact h.client step waits
  | serverReads read =>
    exact ⟨h.kept, h.wired, h.running, h.refNo, h.issued, h.server.serverReads hread read⟩
  | @serverAnswers k req line socket handled unanswered written arriving =>
    obtain ⟨resp, hmeans⟩ := h.means handled unanswered (s.handled.take k)
    exact h.sends hmeans written arriving (h.server.sends_answer handled)
  | serverPushes written arriving =>
    exact h.sends .async written arriving (h.server.sends_async _ _)

/-- The message that the result of a request comes from. -/
theorem exists_message (h : s.Served f program) {finished : Finished}
    (hfinished : finished ∈ s.nest.finished) :
    ∃ m resp, m ∈ s.nest.sent ∧ m.refNo = some finished.refNo ∧
      m.Means (s.nest.issued.mapValues Request.callNo).get? resp ∧ finished.Gets resp := by
  obtain ⟨-, resp, hresp, hgets⟩ := h.kept.issued_finished hfinished
  obtain ⟨answered, coming, resps, lines, pre, hsent, hwired⟩ := h.wired
  obtain ⟨m, hm, hmeans⟩ := exists_of_forall₂ hwired.means_parsed hresp
  refine ⟨m, resp, ?_, ?_, hmeans, hgets⟩
  · rw [hsent]
    exact List.mem_append_left _ hm
  · obtain ⟨reply, hreply, -⟩ := hgets
    rw [hmeans.refNo_eq, resp.refNo_eq_reply, hreply]
    rfl

/-- What has ended has ended as the program says. -/
theorem gives (h : s.Served f program) {finished : Finished}
    (hfinished : finished ∈ s.nest.finished) :
    ∃ k typed, finished.refNo = k + 1 ∧ s.requests[k]? = some typed ∧
      finished.request = typed.request ∧
      (program.answer ((receivedAs f s.requests).take k) (typed.received f (k + 1))).Gives
        finished.result := by
  obtain ⟨k, typed, hk, htyped, hreq⟩ := h.issued.mp (h.kept.issued_finished hfinished).1
  refine ⟨k, typed, hk, htyped, hreq.symm, ?_⟩
  obtain ⟨m, resp, hm, hrefNo, hmeans, reply, hreply, hresult⟩ := h.exists_message hfinished
  rw [hk] at hrefNo
  rw [hresult]
  exact h.server.gives hm hrefNo htyped hmeans hreply

end Remote.Served

/-! ## Progress -/

namespace Remote

variable {μ : Type} {readMiscInfo : Parser μ} {f : CookedMiscInfo → μ} {program : ServerProgram μ}
  {s : Remote μ}

/-- The requests that have no answer. -/
def unanswered (s : Remote μ) : Finset ℕ :=
  (Finset.range s.requests.length).filter fun k => ∀ m ∈ s.nest.sent, m.refNo ≠ some (k + 1)

/-- How far the calls that are going on are from their ends. An answer is a message to be read,
and one that is read may be a call of the handler function. -/
def distance (s : Remote μ) : ℕ :=
  (s.requests.length - s.handled.length) + 3 * s.unanswered.card +
    2 * (s.nest.sent.length - s.nest.read.length) + s.nest.stack.length

/-- A step of the client leaves the requests and the answers as they are. -/
theorem distance_client {t : Nest} (hsent : t.sent = s.nest.sent) :
    ({ s with nest := t } : Remote μ).distance =
      (s.requests.length - s.handled.length) + 3 * s.unanswered.card +
        2 * (s.nest.sent.length - t.read.length) + t.stack.length := by
  unfold distance unanswered
  simp only [hsent]

theorem distance_sends (m : ServerMessage) (socket : Pieces) :
    (s.sends m socket).distance =
      (s.requests.length - s.handled.length) + 3 * (s.sends m socket).unanswered.card +
        2 * (s.nest.sent.length + 1 - s.nest.read.length) + s.nest.stack.length := by
  have hsent : (s.sends m socket).nest.sent.length = s.nest.sent.length + 1 :=
    List.length_append
  rw [distance, hsent]
  rfl

/-- An answer to a request that had none. -/
theorem unanswered_sends {k : ℕ} (hk : k ∈ s.unanswered) {m : ServerMessage}
    (hm : m.refNo = some (k + 1)) (socket : Pieces) :
    (s.sends m socket).unanswered.card < s.unanswered.card := by
  apply Finset.card_lt_card
  refine (Finset.ssubset_iff_of_subset ?_).mpr ⟨k, hk, ?_⟩
  · intro j hj
    obtain ⟨hj, hnone⟩ := Finset.mem_filter.mp hj
    exact Finset.mem_filter.mpr ⟨hj, fun m hm => hnone m (List.mem_append_left _ hm)⟩
  · intro hmem
    exact (Finset.mem_filter.mp hmem).2 m (List.mem_append_right _ (List.mem_singleton_self m)) hm

namespace Served

theorem length_read_le (h : s.Served f program) : s.nest.read.length ≤ s.nest.sent.length := by
  obtain ⟨answered, coming, resps, lines, pre, hsent, hwired⟩ := h.wired
  rw [hsent, List.length_append, ← hwired.means_parsed.length_eq]
  omega

/-- The server reads or answers while there is a request that has no answer. -/
theorem server_progress (hread : ReadsMiscInfo readMiscInfo f) (h : s.Served f program)
    (writable : ∀ earlier req refNo, ((program.answer earlier req).message refNo).lines.Nonempty)
    (hbusy : s.handled.length < s.requests.length ∨ s.unanswered.Nonempty) :
    ∃ a t, RemoteStep readMiscInfo program s a t ∧ a.OfServer ∧ t.requests = s.requests ∧
      t.distance < s.distance := by
  by_cases hlt : s.handled.length < s.requests.length
  · rcases h.server.run_inbox hread with ⟨heq, -⟩ | ⟨req, pre, -, -, hrun⟩
    · omega
    · refine ⟨_, _, .serverReads hrun, trivial, rfl, ?_⟩
      simp only [distance, unanswered, List.length_append, List.length_singleton]
      omega
  · obtain ⟨k, hk⟩ := hbusy.resolve_left hlt
    obtain ⟨hrange, hnone⟩ := Finset.mem_filter.mp hk
    have hk' : k < s.handled.length := by
      have hk' := Finset.mem_range.mp hrange
      omega
    obtain ⟨typed, htyped, hreq⟩ := h.server.of_handled (List.getElem?_eq_getElem hk')
    obtain ⟨line, hline⟩ := writable (s.handled.take k) s.handled[k] s.handled[k].refNo
    have hrefNo : s.handled[k].refNo = k + 1 := congrArg ReadRequest.refNo hreq
    have harriving : (Pieces.restore (s.nest.client.conn.buffer.socket.bytes ++ line) .eof).bytes =
        s.nest.client.conn.buffer.socket.bytes ++ line := by simp
    refine ⟨_, _, .serverAnswers (List.getElem?_eq_getElem hk') (by rwa [hrefNo]) hline harriving,
      trivial, rfl, ?_⟩
    have hmessage : ((program.answer (s.handled.take k) s.handled[k]).message
        s.handled[k].refNo).refNo = some (k + 1) := by rw [Answer.refNo_message, hrefNo]
    have hless := unanswered_sends hk hmessage
      (.restore (s.nest.client.conn.buffer.socket.bytes ++ line) .eof)
    have hle := h.length_read_le
    rw [distance_sends, distance]
    omega

/-- When every request has its answer, a call that waits has something to read. -/
theorem readResponse_ok (h : s.Served f program) {r : ℕ} (hr : r ∈ s.nest.waiting)
    (hwaits : s.nest.client.waits r = true) (hanswered : s.unanswered = ∅) :
    ∃ resp conn, s.nest.client.conn.readResponse = (.ok resp, conn) := by
  have hspec := s.nest.client.conn.readResponse_spec
  obtain ⟨answered, coming, resps, lines, pre, hsent, hwired⟩ := h.wired
  have hcalls : (s.nest.client.conn.outstandingRequests.mapValues Request.callNo).get? =
      s.nest.client.conn.calls := by
    funext r
    rw [Dict.get?_mapValues]
    rfl
  cases coming with
  | cons m coming =>
    obtain ⟨resp, resps, -, -, rfl⟩ := List.forall₂_cons_left_iff.mp hwired.means_coming
    obtain ⟨line, lines, hline, -, rfl⟩ := List.forall₂_cons_left_iff.mp hwired.written
    obtain ⟨pre', -, hrun⟩ :=
      responseParser_line hwired.means_next hline hwired.leftover lines.flatten
    rw [← List.flatten_cons, ← hwired.unread_eq, hcalls] at hrun
    rw [hrun] at hspec
    obtain ⟨conn, hcall, -⟩ := hspec
    exact ⟨resp, conn, hcall⟩
  | nil =>
    -- the answer was read, so it is in a queue
    obtain ⟨frame, hframe, hrefNo⟩ := List.mem_filterMap.mp hr
    cases frame with
    | handling msg => cases hrefNo
    | waiting r' req =>
      cases hrefNo
      obtain ⟨k, typed, rfl, htyped, -⟩ := h.issued.mp (h.kept.issued_waiting hframe)
      have hk := (List.getElem?_eq_some_iff.mp htyped).1
      have hnot : k ∉ s.unanswered := by simp [hanswered]
      have hex : ∃ m ∈ s.nest.sent, m.refNo = some (k + 1) := by
        by_contra hnone
        refine hnot (Finset.mem_filter.mpr ⟨Finset.mem_range.mpr hk, fun m hm hr => ?_⟩)
        exact hnone ⟨m, hm, hr⟩
      obtain ⟨m, hm, hrefNo⟩ := hex
      rw [hsent, List.append_nil] at hm
      obtain ⟨resp, hresp, hmeans⟩ := exists_of_forall₂ hwired.means_parsed.flip hm
      have hreply : resp.refNo = some (k + 1) := hmeans.refNo_eq.symm.trans hrefNo
      exfalso
      cases resp with
      | ok r reply =>
        cases hreply
        have hqueue := h.kept.okQueue.mpr ⟨hresp, hr⟩
        simp [Client.waits, Dict.mem_of_get? hqueue] at hwaits
      | error r error =>
        cases hreply
        have hqueue := h.kept.errorQueue.mpr ⟨hresp, hr⟩
        simp [Client.waits, Dict.mem_of_get? hqueue] at hwaits
      | async msg => cases hreply

/-- The innermost call reads, if its reply is still to come, or ends. -/
theorem client_progress (h : s.Served f program) (hgoing : s.nest.stack ≠ [])
    (hanswered : s.unanswered = ∅) :
    ∃ a t, RemoteStep readMiscInfo program s (.client a) t ∧ t.requests = s.requests ∧
      t.distance < s.distance := by
  obtain ⟨frame, stack, hstack⟩ := List.exists_cons_of_ne_nil hgoing
  cases frame with
  | handling msg =>
    refine ⟨_, _, .client (.endHandler h.running hstack) (Or.inr (Or.inr rfl)), rfl, ?_⟩
    have hafter := distance_client (s := s) (t := { s.nest with stack }) rfl
    rw [hafter, distance, hstack, List.length_cons]
    dsimp only
    omega
  | waiting r req =>
    cases hwaits : s.nest.client.waits r with
    | false =>
      refine ⟨_, _, .client (.dequeue h.running hstack hwaits) (Or.inr (Or.inl rfl)), rfl, ?_⟩
      have hafter := distance_client (s := s) (t := s.nest.dequeue r req stack) rfl
      rw [hafter, distance, hstack, List.length_cons]
      simp only [Nest.dequeue]
      omega
    | true =>
      have hr : r ∈ s.nest.waiting :=
        List.mem_filterMap.mpr ⟨.waiting r req, by simp [hstack], rfl⟩
      obtain ⟨resp, conn, hcall⟩ := h.readResponse_ok hr hwaits hanswered
      have harrived : s.nest.client.conn.readResponse.1 = .ok resp := by rw [hcall]
      have hstep := NestStep.read h.running hstack hwaits harrived
      have hle := (h.client hstep (Or.inl rfl)).length_read_le
      refine ⟨_, _, .client hstep (Or.inl rfl), rfl, ?_⟩
      have hsent : s.nest.readResponse.sent = s.nest.sent := by rw [Nest.readResponse_eq hcall]
      have hgrown : s.nest.readResponse.stack = Nest.handlerCalls resp ++ s.nest.stack := by
        rw [Nest.readResponse_eq hcall]
      have hcalls : (Nest.handlerCalls resp).length ≤ 1 := by
        cases resp <;> simp [Nest.handlerCalls]
      have hafter := distance_client (s := s)
        (t := { s.nest.readResponse with read := s.nest.read ++ [resp] }) hsent
      rw [hafter, distance]
      dsimp only at hle ⊢
      rw [hgrown, List.length_append, List.length_append, List.length_singleton]
      rw [hsent, List.length_append, List.length_singleton] at hle
      omega

/-- **The calls that are going on can come to their ends.** -/
theorem finish (hread : ReadsMiscInfo readMiscInfo f) (h : s.Served f program)
    (writable : ∀ earlier req refNo, ((program.answer earlier req).message refNo).lines.Nonempty) :
    ∃ t, Run (RemoteStep readMiscInfo program) (fun _ _ => True) s t ∧ t.Served f program ∧
      t.requests = s.requests ∧ t.nest.stack = [] := by
  have hgoal : ∃ t, Run (RemoteStep readMiscInfo program) (fun _ _ => True) s t ∧
      (t.Served f program ∧ t.requests = s.requests) ∧ t.nest.stack = [] := by
    refine Run.exists_goal distance ?_ ⟨h, rfl⟩
    rintro u ⟨hu, hsame⟩ hgoing
    have hstep : ∃ a v, RemoteStep readMiscInfo program u a v ∧ v.requests = u.requests ∧
        v.distance < u.distance := by
      by_cases hbusy : u.handled.length < u.requests.length ∨ u.unanswered.Nonempty
      · obtain ⟨a, v, hstep, -, hv⟩ := hu.server_progress hread writable hbusy
        exact ⟨a, v, hstep, hv⟩
      · rw [not_or, Finset.not_nonempty_iff_eq_empty] at hbusy
        obtain ⟨a, v, hstep, hv⟩ := hu.client_progress hgoing hbusy.2
        exact ⟨.client a, v, hstep, hv⟩
    obtain ⟨a, v, hstep, hrequests, hless⟩ := hstep
    exact ⟨a, v, trivial, hstep, ⟨hu.step hread hstep, hrequests.trans hsame⟩, hless⟩
  obtain ⟨t, hrun, ⟨ht, hsame⟩, hstack⟩ := hgoal
  exact ⟨t, hrun, ht, hsame, hstack⟩

/-- With no call going on, every request has ended. -/
theorem ended (h : s.Served f program) (hidle : s.nest.stack = []) {k : ℕ}
    (hk : k < s.requests.length) : ∃ finished ∈ s.nest.finished, finished.refNo = k + 1 := by
  have hissued := h.issued.mpr ⟨k, s.requests[k], rfl, List.getElem?_eq_getElem hk, rfl⟩
  rcases h.kept.accounted (Dict.mem_of_get? hissued) with hmem | hfinished
  · rw [Nest.waiting, hidle] at hmem
    cases hmem
  · exact hfinished

/-- With no call going on, the server has read every request. -/
theorem handled_eq (h : s.Served f program) (hidle : s.nest.stack = []) :
    s.handled = receivedAs f s.requests := by
  have hlen : s.requests.length ≤ s.handled.length := by
    by_contra hless
    have hlast : s.requests.length - 1 < s.requests.length := by omega
    obtain ⟨finished, hfinished, hrefNo⟩ := h.ended hidle hlast
    obtain ⟨m, -, hm, hmrefNo, -⟩ := h.exists_message hfinished
    obtain ⟨k, req, hk, hreq, -⟩ := h.server.answers m hm _ hmrefNo
    have hlt := (List.getElem?_eq_some_iff.mp hreq).1
    omega
  rw [h.server.handled_eq, List.take_of_length_le]
  simpa [receivedAs] using hlen

end Served

/-- To the client, its requests are calls of the program of the server. -/
structure CallsProgram (readMiscInfo : Parser μ) (f : CookedMiscInfo → μ)
    (program : ServerProgram μ) (s : Remote μ) : Prop where
  /-- Nothing but an error reply was ever raised. -/
  running : s.nest.raised = none
  /-- The server has read the first requests, as they were made and in their order. -/
  handled : s.handled <+: receivedAs f s.requests
  /-- The next request can be read, -/
  readable : ∀ {req}, (receivedAs f s.requests)[s.handled.length]? = some req →
    ∃ rest, (readRequest readMiscInfo).run s.inbox = .returned req rest
  /-- and only a request. -/
  starves : s.handled.length = s.requests.length →
    ∃ rest, (readRequest readMiscInfo).run s.inbox = .starved rest
  /-- A request that has ended returned or raised what the program answers to it, after the
  requests that were made before it. -/
  gives : ∀ {finished}, finished ∈ s.nest.finished → ∃ k typed, finished.refNo = k + 1 ∧
    s.requests[k]? = some typed ∧ finished.request = typed.request ∧
    (program.answer ((receivedAs f s.requests).take k) (typed.received f (k + 1))).Gives
      finished.result

end Remote

section Runs

variable {μ : Type} {readMiscInfo : Parser μ} {f : CookedMiscInfo → μ} {program : ServerProgram μ}
  {s : Remote μ}

theorem Run.served (hread : ReadsMiscInfo readMiscInfo f)
    (h : Run (RemoteStep readMiscInfo program) (fun _ _ => True) .start s) : s.Served f program :=
  h.invariant .start fun _ hstep hu => hu.step hread hstep

/-- **Requests are remote calls.** In every run of a client with a handler function that makes
requests of its own, and of a server that reads the bytes that the client writes and answers
in any order, the requests return and raise what the program of the server answers. -/
theorem Run.remoteCalls (hread : ReadsMiscInfo readMiscInfo f)
    (h : Run (RemoteStep readMiscInfo program) (fun _ _ => True) .start s) :
    s.CallsProgram readMiscInfo f program := by
  have hserved := h.served hread
  constructor
  · exact hserved.running
  · rw [hserved.server.handled_eq]
    exact List.take_prefix _ _
  · intro req hreq
    rcases hserved.server.run_inbox hread with ⟨heq, -⟩ | ⟨req', pre, hreq', -, hrun⟩
    · have hlt := (List.getElem?_eq_some_iff.mp hreq).1
      simp [receivedAs, heq] at hlt
    · obtain rfl := Option.some.inj (hreq.symm.trans hreq')
      exact ⟨_, hrun⟩
  · intro heq
    rcases hserved.server.run_inbox hread with ⟨-, hstarved⟩ | ⟨req, pre, hreq, -⟩
    · exact hstarved
    · have hlt := (List.getElem?_eq_some_iff.mp hreq).1
      simp [receivedAs, heq] at hlt
  · exact hserved.gives

/-- **No run gets stuck.** From every state of every run, each request that has been made can
still come to its end, however deep the calls are nested and whatever has been answered. -/
theorem Run.remoteCalls_end (hread : ReadsMiscInfo readMiscInfo f)
    (h : Run (RemoteStep readMiscInfo program) (fun _ _ => True) .start s)
    (writable : ∀ earlier req refNo, ((program.answer earlier req).message refNo).lines.Nonempty) :
    ∃ t, Run (RemoteStep readMiscInfo program) (fun _ _ => True) s t ∧
      t.requests = s.requests ∧ t.nest.stack = [] ∧
      ∀ k < s.requests.length, ∃ finished ∈ t.nest.finished, finished.refNo = k + 1 := by
  obtain ⟨t, hrun, ht, hsame, hidle⟩ := (h.served hread).finish hread writable
  refine ⟨t, hrun, hsame, hidle, fun k hk => ht.ended hidle ?_⟩
  rwa [hsame]

end Runs

/-- The request whose text looks like another request. -/
def Remote.once : Remote CookedMiscInfo where
  nest := Nest.start.request sampleRequest.request
  requests := [sampleRequest]
  inbox := (Nest.start.request sampleRequest.request).client.conn.written
  handled := []

theorem Remote.run_once :
    Run (RemoteStep CookedMiscInfo.parse textCreator) (fun _ _ => True) .start Remote.once :=
  Run.refl.tail trivial (.request sampleRequest_sendable (.program _ rfl rfl))

theorem Run.remoteCalls_sample :
    ∃ s : Remote CookedMiscInfo,
      s.CallsProgram CookedMiscInfo.parse CookedMiscInfo.sent textCreator ∧
      ∃ finished ∈ s.nest.finished, finished.result = .ok (.textNo 1) := by
  have hread : ReadsMiscInfo CookedMiscInfo.parse CookedMiscInfo.sent :=
    fun _ hinfo => hinfo.parse_reads
  have hserved := Remote.run_once.served hread
  obtain ⟨t, hrun, ht, hsame, hidle⟩ := hserved.finish hread textCreator_writable
  obtain ⟨finished, hfinished, hrefNo⟩ :=
    ht.ended hidle (k := 0) (by rw [hsame]; exact Nat.one_pos)
  refine ⟨t, Run.remoteCalls hread (Remote.run_once.trans hrun), finished, hfinished, ?_⟩
  obtain ⟨k, typed, hk, htyped, -, hgives⟩ := ht.gives hfinished
  obtain rfl : k = 0 := by omega
  rw [hsame] at htyped
  obtain rfl : sampleRequest = typed := Option.some.inj htyped
  exact hgives

theorem Run.remoteCalls_end_sample :
    ∃ t, Run (RemoteStep CookedMiscInfo.parse textCreator) (fun _ _ => True) Remote.once t ∧
      t.requests = [sampleRequest] ∧ t.nest.stack = [] ∧
      ∀ k < 1, ∃ finished ∈ t.nest.finished, finished.refNo = k + 1 :=
  Run.remoteCalls_end (fun _ hinfo => hinfo.parse_reads) Remote.run_once textCreator_writable

end Pylyskom
