import Pylyskom.Connection
import Pylyskom.Rejections
import Pylyskom.Transitions

/-!
# Replies are matched with their requests

Any sequence of `send_request` and `read_response` calls on one connection, over any
bytes at all. The outstanding map is what has been sent and not been answered, and each
reply that is returned belongs to it.
-/

namespace Pylyskom

/-- A connection, and what its calls have done so far. -/
structure Exchange where
  conn : Connection
  /-- The requests that were sent, in this order, under their ref-nos. -/
  sent : List (ℕ × Request)
  /-- The responses that were returned. -/
  returned : List Response

namespace Exchange

/-- A call of the connection. -/
inductive Call : Type
  | sendRequest (req : Request)
  | readResponse

/-- The exchange after a call; a call that raises adds nothing to what was done. -/
def call (self : Exchange) : Call → Exchange
  | .sendRequest req =>
    match self.conn.sendRequest req with
    | (.ok refNo, conn) => { self with conn, sent := self.sent ++ [(refNo, req)] }
    | (.error _, conn) => { self with conn }
  | .readResponse =>
    match self.conn.readResponse with
    | (.ok resp, conn) => { self with conn, returned := self.returned ++ [resp] }
    | (.error _, conn) => { self with conn }

/-- A run of calls. -/
abbrev Calls : Exchange → Exchange → Prop := Run (fun s a t => t = s.call a) fun _ _ => True

/-- A new connection, over any stream. -/
def new (socket : Pieces) : Exchange where
  conn := { buffer := .init socket, refNo := 0, outstandingRequests := ∅, written := [] }
  sent := []
  returned := []

/-- The ref-nos that have been answered. -/
def answered (self : Exchange) : List ℕ := self.returned.filterMap Response.refNo

/-- What holds between two calls. -/
structure Matched (s : Exchange) : Prop where
  /-- The ref-nos are `1, 2, 3, ...` in the order sent. -/
  sent_refNos : s.sent.map Prod.fst = List.range' 1 s.conn.refNo
  /-- The outstanding map is what was sent and has not been answered. -/
  outstanding : ∀ refNo req, s.conn.outstandingRequests.get? refNo = some req ↔
    (refNo, req) ∈ s.sent ∧ refNo ∉ s.answered
  /-- Each ref-no is answered at most once, and only after it was sent. -/
  answered_nodup : s.answered.Nodup
  answered_sent : ∀ refNo ∈ s.answered, refNo ∈ s.sent.map Prod.fst

theorem matched_new (socket : Pieces) : (new socket).Matched where
  sent_refNos := rfl
  outstanding := by simp [new, answered]
  answered_nodup := List.nodup_nil
  answered_sent := by simp [new, answered]

namespace Matched

variable {s : Exchange}

theorem le_refNo (h : s.Matched) {refNo : ℕ} {req : Request} (hmem : (refNo, req) ∈ s.sent) :
    refNo ≤ s.conn.refNo := by
  have hfst : refNo ∈ s.sent.map Prod.fst := List.mem_map_of_mem hmem
  rw [h.sent_refNos, List.mem_range'_1] at hfst
  omega

/-- The assertion of `_send_request` never fails. -/
theorem not_outstanding (h : s.Matched) : s.conn.refNo + 1 ∉ s.conn.outstandingRequests := by
  rw [← Dict.get?_eq_none_iff, Option.eq_none_iff_forall_ne_some]
  intro req hreq
  have hle := h.le_refNo ((h.outstanding _ _).mp hreq).1
  omega

theorem sendRequest (h : s.Matched) (req : Request) :
    ∃ conn, s.conn.sendRequest req = (.ok (s.conn.refNo + 1), conn) ∧
      conn.refNo = s.conn.refNo + 1 ∧
      conn.outstandingRequests = s.conn.outstandingRequests.set (s.conn.refNo + 1) req ∧
      conn.written =
        s.conn.written ++ (decimal (s.conn.refNo + 1) ++ ascii " " ++ req.toString) := by
  rw [Connection.sendRequest]
  simp only [h.not_outstanding, if_false]
  exact ⟨_, rfl, rfl, rfl, rfl⟩

/-- Sending a request keeps the match. -/
theorem call_sendRequest (h : s.Matched) (req : Request) : (s.call (.sendRequest req)).Matched := by
  obtain ⟨conn, hcall, hrefNo, hout, -⟩ := h.sendRequest req
  have hnew : s.conn.refNo + 1 ∉ s.answered := by
    intro hmem
    have hsent := h.answered_sent _ hmem
    rw [h.sent_refNos, List.mem_range'_1] at hsent
    omega
  simp only [call, hcall]
  constructor
  · rw [List.map_append, h.sent_refNos, hrefNo, List.range'_1_concat, Nat.add_comm 1]
    rfl
  · intro refNo r
    change conn.outstandingRequests.get? refNo = some r ↔
      (refNo, r) ∈ s.sent ++ [(s.conn.refNo + 1, req)] ∧ refNo ∉ s.answered
    rw [hout, Dict.get?_set, List.mem_append, List.mem_singleton, Prod.mk.injEq]
    split_ifs with heq
    · subst heq
      have hold : (s.conn.refNo + 1, r) ∉ s.sent := fun hmem => by
        have hle := h.le_refNo hmem
        omega
      simp [hold, hnew, eq_comm]
    · simp [heq, h.outstanding]
  · exact h.answered_nodup
  · intro refNo hmem
    rw [List.map_append]
    exact List.mem_append_left _ (h.answered_sent refNo hmem)

/-- Reading a response keeps the match. -/
theorem call_readResponse (h : s.Matched) : (s.call .readResponse).Matched := by
  rcases s.conn.readResponse_cases with
    ⟨resp, conn, hcall, hrun, hrefNo, -, hout⟩ | ⟨e, conn, hcall, hrefNo, -, hout⟩
  · have hanswered : (s.call .readResponse).answered = s.answered ++ resp.refNo.toList := by
      simp only [answered, call, hcall, List.filterMap_append, List.filterMap_cons,
        List.filterMap_nil]
      cases resp.refNo <;> rfl
    have hnew : ∀ refNo, resp.refNo = some refNo →
        refNo ∈ s.sent.map Prod.fst ∧ refNo ∉ s.answered := by
      intro refNo hr
      obtain ⟨req, hreq⟩ := s.conn.outstanding_of_returned hrun hr
      obtain ⟨hsent, hnot⟩ := (h.outstanding refNo req).mp hreq
      exact ⟨List.mem_map_of_mem hsent, hnot⟩
    constructor
    · simp only [call, hcall, hrefNo]
      exact h.sent_refNos
    · intro refNo req
      rw [hanswered]
      simp only [call, hcall, hout, Response.get?_settle, List.mem_append, Option.mem_toList]
      split_ifs with heq
      · simp [heq]
      · simp [heq, h.outstanding]
    · rw [hanswered]
      cases hr : resp.refNo with
      | none => simpa using h.answered_nodup
      | some refNo =>
        have hfresh := (hnew refNo hr).2
        simpa [List.nodup_append, h.answered_nodup] using fun a ha (heq : a = refNo) =>
          hfresh (heq ▸ ha)
    · intro refNo hmem
      rw [hanswered, List.mem_append, Option.mem_toList] at hmem
      simp only [call, hcall]
      rcases hmem with hmem | hmem
      · exact h.answered_sent refNo hmem
      · exact (hnew refNo hmem).1
  · constructor
    · simp only [call, hcall, hrefNo]
      exact h.sent_refNos
    · simp only [call, hcall, hout]
      exact h.outstanding
    · simp only [call, hcall]
      exact h.answered_nodup
    · simp only [call, hcall]
      exact h.answered_sent

end Matched

/-- What a call of `read_response` returns is a reply to a ref-no that was outstanding
then, read with the response type of the request that was sent under it; an exception
leaves the outstanding map as it was. -/
def ReadsOwn (self : Exchange) : Prop :=
  match self.conn.readResponse with
  | (.ok (.ok refNo reply), conn) => ∃ req type mid value,
      (refNo, req) ∈ self.sent ∧ self.conn.outstandingRequests.get? refNo = some req ∧
      responseDict.lookup req.callNo = some type ∧
      readFirstNonWs.run self.conn.unread = .returned '='.toUInt8 mid ∧
      readInt.run mid = .returned refNo value ∧
      type.parse.run value = .returned reply conn.unread
  | (.ok (.error refNo _), _) => ∃ req,
      (refNo, req) ∈ self.sent ∧ self.conn.outstandingRequests.get? refNo = some req
  | (.ok (.async _), conn) => conn.outstandingRequests = self.conn.outstandingRequests
  | (.error _, conn) => conn.outstandingRequests = self.conn.outstandingRequests

/-- A reply to any ref-no that is not outstanding, next in the stream, is rejected. -/
def RejectsOther (self : Exchange) : Prop :=
  ∀ (m : ServerMessage) (refNo : ℕ) (line pre rest : Bytes), m.refNo = some refNo →
    refNo ∉ self.conn.outstandingRequests → line ∈ m.lines → Leftover pre →
    self.conn.unread = pre ++ (line ++ rest) →
    ∃ conn, self.conn.readResponse = (.error (.localError (.badRequestId refNo)), conn) ∧
      conn.outstandingRequests = self.conn.outstandingRequests

theorem Matched.readsOwn {s : Exchange} (h : s.Matched) : s.ReadsOwn := by
  unfold ReadsOwn
  rcases s.conn.readResponse_cases with
    ⟨resp, conn, hcall, hrun, -, -, hout⟩ | ⟨e, conn, hcall, -, -, hout⟩
  · have hread := responseParser_returned hrun
    have hsent : ∀ {refNo req}, s.conn.outstandingRequests.get? refNo = some req →
        (refNo, req) ∈ s.sent := fun hreq => ((h.outstanding _ _).mp hreq).1
    rw [hcall]
    cases resp with
    | ok refNo reply =>
      obtain ⟨callNo, type, mid, value, hcallNo, htype, hfirst, hint, hparse⟩ := hread
      obtain ⟨req, hreq, rfl⟩ := Option.map_eq_some_iff.mp hcallNo
      exact ⟨req, type, mid, value, hsent hreq, hreq, htype, hfirst, hint, hparse⟩
    | error refNo error =>
      obtain ⟨req, hreq⟩ := s.conn.outstanding_of_returned hrun rfl
      exact ⟨req, hsent hreq, hreq⟩
    | async msg => exact hout
  · rw [hcall]
    exact hout

theorem rejectsOther (s : Exchange) : s.RejectsOther := by
  intro m refNo line pre rest hrefNo hnot hline hpre hunread
  have hcalls : s.conn.calls refNo = none := by
    rw [Connection.calls, Dict.get?_eq_none_iff.mpr hnot]
    rfl
  obtain ⟨ts, -, hrun⟩ := responseParser_unknown hrefNo hcalls hline hpre rest
  have hspec := s.conn.readResponse_spec
  rw [hunread, hrun] at hspec
  obtain ⟨conn, hcall, -, hout⟩ := hspec
  exact ⟨conn, hcall, hout⟩

end Exchange

open Exchange in
theorem Run.matched {socket : Pieces} {s : Exchange} (h : Calls (new socket) s) : s.Matched := by
  refine h.invariant (matched_new socket) ?_
  rintro u call v - rfl hu
  cases call with
  | sendRequest req => exact hu.call_sendRequest req
  | readResponse => exact hu.call_readResponse

open Exchange in
/-- **Reply matching is safe.** After every run of calls over any stream, the ref-nos
issued count up from one and the next request is sent under the next of them; the
outstanding map is what was sent and has not been answered, each ref-no having been
answered at most once; and the next call of `read_response` returns only a reply to an
outstanding ref-no, read for the request sent under it, or leaves the outstanding map as
it was, which it does for a reply to any other ref-no, raising `BadRequestId`. -/
theorem Run.matching {socket : Pieces} {s : Exchange} (h : Calls (new socket) s) :
    s.sent.map Prod.fst = List.range' 1 s.sent.length ∧
      (∀ req, ∃ conn, s.conn.sendRequest req = (.ok (s.sent.length + 1), conn)) ∧
      (∀ refNo req, s.conn.outstandingRequests.get? refNo = some req ↔
        (refNo, req) ∈ s.sent ∧ refNo ∉ s.answered) ∧
      s.answered.Nodup ∧ s.ReadsOwn ∧ s.RejectsOther := by
  have hmatched := h.matched
  have hlen : s.conn.refNo = s.sent.length := by
    have hrefNos := congrArg List.length hmatched.sent_refNos
    simpa using hrefNos.symm
  refine ⟨hlen ▸ hmatched.sent_refNos, fun req => ?_, hmatched.outstanding,
    hmatched.answered_nodup, hmatched.readsOwn, s.rejectsOther⟩
  obtain ⟨conn, hcall, -⟩ := hmatched.sendRequest req
  exact ⟨conn, hlen ▸ hcall⟩

open Exchange in
/-- A request that is answered twice: the second answer is rejected. -/
theorem Run.matching_twice :
    let start := new ⟨[ascii "=1 17\n=1 17\n"], by decide⟩
    let s := ((start.call (.sendRequest ⟨Requests.WHO_AM_I, []⟩)).call .readResponse).call
      .readResponse
    s.sent.map Prod.fst = List.range' 1 s.sent.length ∧
      (∀ req, ∃ conn, s.conn.sendRequest req = (.ok (s.sent.length + 1), conn)) ∧
      (∀ refNo req, s.conn.outstandingRequests.get? refNo = some req ↔
        (refNo, req) ∈ s.sent ∧ refNo ∉ s.answered) ∧
      s.answered.Nodup ∧ s.ReadsOwn ∧ s.RejectsOther := by
  intro start s
  have hsent : Calls start (start.call (.sendRequest ⟨Requests.WHO_AM_I, []⟩)) :=
    Run.refl.tail trivial rfl
  exact Run.matching ((hsent.tail (a := .readResponse) trivial rfl).tail trivial rfl)

end Pylyskom
