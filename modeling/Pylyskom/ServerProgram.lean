import Pylyskom.RequestStream
import Pylyskom.Collections.Lists
import Pylyskom.Responses

/-!
# The server's program

What a server answers to the requests that it reads, one after the other, from the bytes that
a client has written. What it has read and sent is kept in a state that every client of the
following modules shares.
-/

namespace Pylyskom

inductive Answer : Type
  | ok (reply : OkReply)
  | error (errorNo errorStatus : ℕ)

def Answer.message (refNo : ℕ) : Answer → ServerMessage
  | ok reply => .ok refNo reply
  | error errorNo errorStatus => .error refNo errorNo errorStatus

@[simp] theorem Answer.refNo_message (answer : Answer) (refNo : ℕ) :
    (answer.message refNo).refNo = some refNo := by
  cases answer <;> rfl

/-- What a call of the program with this answer returns or raises. -/
def Answer.Gives : Answer → Except Exn OkReply → Prop
  | ok reply, result => result = .ok reply
  | error errorNo errorStatus, result =>
    ∃ cls, errorDict.lookup errorNo = some cls ∧ result = .error (.serverError ⟨cls, errorStatus⟩)

/-- A reply that is read as an answer gives what the answer does. -/
theorem Answer.gives_of_means {answer : Answer} {refNo r : ℕ} {calls : ℕ → Option ℕ}
    {resp : Response} {reply : Except ServerError OkReply}
    (h : (answer.message refNo).Means calls resp) (hreply : resp.reply = some (r, reply)) :
    answer.Gives (reply.mapError .serverError) := by
  cases answer with
  | ok okReply =>
    cases h with
    | ok outstanding typed =>
      obtain ⟨-, rfl⟩ := Prod.mk.inj (Option.some.inj hreply)
      rfl
  | error errorNo errorStatus =>
    cases h with
    | error outstanding known =>
      obtain ⟨-, rfl⟩ := Prod.mk.inj (Option.some.inj hreply)
      exact ⟨_, known, rfl⟩

/-- What a server answers to the requests that it reads; it may remember those that it has
read before. -/
structure ServerProgram (μ : Type) where
  answer : (earlier : List (ReadRequest μ)) → ReadRequest μ → Answer
  reply_type : ∀ {earlier req reply}, answer earlier req = .ok reply →
    responseDict.lookup req.callNo = some reply.type
  error_known : ∀ {earlier req errorNo errorStatus},
    answer earlier req = .error errorNo errorStatus → ∃ cls, errorDict.lookup errorNo = some cls

/-- An answer is one to the call of the request. -/
theorem ServerProgram.means {μ : Type} (program : ServerProgram μ) {calls : ℕ → Option ℕ}
    {req : ReadRequest μ} (hcall : calls req.refNo = some req.callNo)
    (earlier : List (ReadRequest μ)) :
    ∃ resp, ((program.answer earlier req).message req.refNo).Means calls resp := by
  cases hanswer : program.answer earlier req with
  | ok reply => exact ⟨_, .ok hcall (program.reply_type hanswer)⟩
  | error errorNo errorStatus =>
    obtain ⟨cls, hknown⟩ := program.error_known hanswer
    exact ⟨_, .error hcall hknown⟩

/-! ## Requests -/

section

variable {μ : Type} {f : CookedMiscInfo → μ}

/-- The requests as the server reads them. -/
def receivedAs (f : CookedMiscInfo → μ) (reqs : List TypedRequest) : List (ReadRequest μ) :=
  reqs.mapIdx fun i req => req.received f (i + 1)

@[simp] theorem length_receivedAs (reqs : List TypedRequest) :
    (receivedAs f reqs).length = reqs.length := List.length_mapIdx

/-- The requests as the server reads them, with another one. -/
theorem receivedAs_append_singleton (reqs : List TypedRequest) (req : TypedRequest) :
    receivedAs f (reqs ++ [req]) = receivedAs f reqs ++ [req.received f (reqs.length + 1)] := by
  simp [receivedAs, List.mapIdx_append]

theorem receivedAs_take (reqs : List TypedRequest) (k : ℕ) :
    receivedAs f (reqs.take k) = (receivedAs f reqs).take k := by
  refine List.ext_getElem? fun i => ?_
  simp only [receivedAs, List.getElem?_mapIdx, List.getElem?_take]
  split <;> rfl

end

/-! ## The server's side -/

/-- The server has read the first of the requests, and the lines of the others are left; what
it has sent are messages of its own and answers to what it has read. -/
structure ServerSide {μ : Type} (f : CookedMiscInfo → μ) (program : ServerProgram μ)
    (reqs : List TypedRequest) (inbox : Bytes) (handled : List (ReadRequest μ))
    (sent : List ServerMessage) : Prop where
  sendable : ∀ req ∈ reqs, req.Sendable
  handled_eq : handled = (receivedAs f reqs).take handled.length
  leftover : ∃ pre, Leftover pre ∧
    inbox = pre ++ ((requestLines reqs).drop handled.length).flatten
  answers : ∀ m ∈ sent, ∀ r, m.refNo = some r → ∃ k req, r = k + 1 ∧ handled[k]? = some req ∧
    m = (program.answer (handled.take k) req).message r

namespace ServerSide

variable {μ : Type} {readMiscInfo : Parser μ} {f : CookedMiscInfo → μ} {program : ServerProgram μ}
  {reqs : List TypedRequest} {inbox : Bytes} {handled : List (ReadRequest μ)}
  {sent : List ServerMessage}

theorem start : ServerSide f program [] [] [] [] where
  sendable := by simp
  handled_eq := rfl
  leftover := ⟨[], Or.inl rfl, rfl⟩
  answers := by simp

theorem length_handled_le (h : ServerSide f program reqs inbox handled sent) :
    handled.length ≤ reqs.length := by
  have hlen := congrArg List.length h.handled_eq
  rw [List.length_take, length_receivedAs] at hlen
  omega

/-- The line of a request is written. -/
theorem request (h : ServerSide f program reqs inbox handled sent) {req : TypedRequest}
    (sendable : req.Sendable) :
    ServerSide f program (reqs ++ [req])
      (inbox ++ requestLine (reqs.length + 1, req.request)) handled sent where
  sendable := by
    intro q hq
    rcases List.mem_append.mp hq with hq | hq
    · exact h.sendable q hq
    · rw [List.mem_singleton.mp hq]
      exact sendable
  handled_eq := by
    rw [receivedAs_append_singleton, List.take_append_of_le_length]
    · exact h.handled_eq
    · rw [length_receivedAs]
      exact h.length_handled_le
  leftover := by
    obtain ⟨pre, hpre, hinbox⟩ := h.leftover
    refine ⟨pre, hpre, ?_⟩
    rw [requestLines_append_singleton, List.drop_append_of_le_length, hinbox]
    · simp
    · rw [length_requestLines]
      exact h.length_handled_le
  answers := h.answers

/-- What the reader of the server does: it reads the next request, or there is none. -/
theorem run_inbox (hread : ReadsMiscInfo readMiscInfo f)
    (h : ServerSide f program reqs inbox handled sent) :
    (handled.length = reqs.length ∧
      ∃ rest, (readRequest readMiscInfo).run inbox = .starved rest) ∨
    ∃ req pre, (receivedAs f reqs)[handled.length]? = some req ∧ Leftover pre ∧
      (readRequest readMiscInfo).run inbox = .returned req
        (pre ++ ((requestLines reqs).drop (handled.length + 1)).flatten) := by
  obtain ⟨pre, hpre, hinbox⟩ := h.leftover
  rcases Nat.eq_or_lt_of_le h.length_handled_le with heq | hlt
  · have hnone : (requestLines reqs).drop handled.length = [] := by
      simp [requestLines, heq]
    rw [hinbox, hnone, List.flatten_nil, List.append_nil]
    exact Or.inl ⟨heq, readRequest_leftover hpre⟩
  · have hsend := h.sendable _ (List.getElem_mem hlt)
    obtain ⟨pre', hpre', hrun⟩ := readRequest_line hread (handled.length + 1) hsend hpre
      ((requestLines reqs).drop (handled.length + 1)).flatten
    have hnext : (requestLines reqs).drop handled.length =
        requestLine (handled.length + 1, reqs[handled.length].request) ::
          (requestLines reqs).drop (handled.length + 1) := by
      rw [List.drop_eq_getElem_cons (by simpa [requestLines] using hlt)]
      simp [requestLines]
    refine Or.inr ⟨reqs[handled.length].received f (handled.length + 1), pre', ?_, hpre', ?_⟩
    · simp [receivedAs, hlt]
    · rw [hinbox, hnext]
      exact hrun

theorem serverReads (hread : ReadsMiscInfo readMiscInfo f)
    (h : ServerSide f program reqs inbox handled sent) {req : ReadRequest μ} {rest : Bytes}
    (read : (readRequest readMiscInfo).run inbox = .returned req rest) :
    ServerSide f program reqs rest (handled ++ [req]) sent := by
  rcases h.run_inbox hread with ⟨-, rest', hrun⟩ | ⟨req', pre, hreq, hpre, hrun⟩
  · rw [hrun] at read
    cases read
  · rw [hrun] at read
    cases read
    constructor
    · exact h.sendable
    · rw [List.length_append, List.length_singleton, List.take_add_one, hreq, ← h.handled_eq]
      rfl
    · exact ⟨pre, hpre, by simp⟩
    · intro m hm r hr
      obtain ⟨k, q, hk, hq, hmessage⟩ := h.answers m hm r hr
      have hlt := (List.getElem?_eq_some_iff.mp hq).1
      refine ⟨k, q, hk, getElem?_append_singleton_iff.mpr (Or.inr hq), ?_⟩
      rw [List.take_append_of_le_length (by omega)]
      exact hmessage

/-- A request that the server has read is one that the client has made. -/
theorem of_handled (h : ServerSide f program reqs inbox handled sent) {k : ℕ} {req : ReadRequest μ}
    (hreq : handled[k]? = some req) :
    ∃ typed, reqs[k]? = some typed ∧ req = typed.received f (k + 1) := by
  rw [h.handled_eq, List.getElem?_take] at hreq
  split_ifs at hreq with hk
  rw [receivedAs, List.getElem?_mapIdx, Option.map_eq_some_iff] at hreq
  obtain ⟨typed, htyped, rfl⟩ := hreq
  exact ⟨typed, htyped, rfl⟩

/-- The server answers a request that it has read. -/
theorem sends_answer (h : ServerSide f program reqs inbox handled sent) {k : ℕ}
    {req : ReadRequest μ} (hreq : handled[k]? = some req) :
    ServerSide f program reqs inbox handled
      (sent ++ [(program.answer (handled.take k) req).message req.refNo]) := by
  refine ⟨h.sendable, h.handled_eq, h.leftover, ?_⟩
  intro m hm r hr
  rcases List.mem_append.mp hm with hm | hm
  · exact h.answers m hm r hr
  · obtain rfl := List.mem_singleton.mp hm
    rw [Answer.refNo_message, Option.some.injEq] at hr
    subst hr
    obtain ⟨typed, -, rfl⟩ := h.of_handled hreq
    exact ⟨k, _, rfl, hreq, rfl⟩

/-- The server sends a message of its own. -/
theorem sends_async (h : ServerSide f program reqs inbox handled sent) (argumentCount : ℕ)
    (msg : AsyncMessage) :
    ServerSide f program reqs inbox handled (sent ++ [.async argumentCount msg]) := by
  refine ⟨h.sendable, h.handled_eq, h.leftover, ?_⟩
  intro m hm r hr
  rcases List.mem_append.mp hm with hm | hm
  · exact h.answers m hm r hr
  · rw [List.mem_singleton.mp hm] at hr
    cases hr

/-- A reply that is read from what the server has sent gives the answer of the program to the
request, after the requests before it. -/
theorem gives (h : ServerSide f program reqs inbox handled sent) {m : ServerMessage}
    (hm : m ∈ sent) {k : ℕ} (hrefNo : m.refNo = some (k + 1)) {typed : TypedRequest}
    (htyped : reqs[k]? = some typed) {calls : ℕ → Option ℕ} {resp : Response}
    (hmeans : m.Means calls resp) {r : ℕ} {reply : Except ServerError OkReply}
    (hreply : resp.reply = some (r, reply)) :
    (program.answer ((receivedAs f reqs).take k) (typed.received f (k + 1))).Gives
      (reply.mapError .serverError) := by
  obtain ⟨k', req, hk', hreq, rfl⟩ := h.answers m hm _ hrefNo
  obtain rfl : k = k' := Nat.succ.inj hk'
  obtain ⟨typed', htyped', rfl⟩ := h.of_handled hreq
  obtain rfl : typed = typed' := Option.some.inj (htyped.symm.trans htyped')
  have hlt := (List.getElem?_eq_some_iff.mp hreq).1
  have htake : handled.take k = (receivedAs f reqs).take k := by
    rw [h.handled_eq, List.take_take, min_eq_left (by omega)]
  rw [← htake]
  exact Answer.gives_of_means hmeans hreply

end ServerSide

/-- A server that creates texts and does nothing else. -/
def textCreator : ServerProgram CookedMiscInfo where
  answer earlier req :=
    if req.callNo = Requests.CREATE_TEXT then .ok (.textNo (earlier.length + 1)) else .error 2 0
  reply_type := by
    intro earlier req reply hanswer
    split_ifs at hanswer with hcall
    cases hanswer
    rw [hcall]
    rfl
  error_known := by
    intro earlier req errorNo errorStatus hanswer
    split_ifs at hanswer
    cases hanswer
    exact ⟨_, rfl⟩

theorem textCreator_writable (earlier : List (ReadRequest CookedMiscInfo))
    (req : ReadRequest CookedMiscInfo) (refNo : ℕ) :
    ((textCreator.answer earlier req).message refNo).lines.Nonempty := by
  apply ServerMessage.lines_nonempty
  by_cases hcall : req.callNo = Requests.CREATE_TEXT
  · simp only [textCreator, hcall, if_true]
    exact TextForm.writable_token _
  · simp only [textCreator, hcall, if_false]
    exact (TextForm.writable_token _).mul (TextForm.writable_token _)

theorem sampleRequest_sendable : sampleRequest.Sendable := by
  intro info hinfo
  obtain rfl : info = sampleMiscInfo := by simpa [sampleRequest] using hinfo
  exact ⟨by decide, by decide⟩

end Pylyskom
