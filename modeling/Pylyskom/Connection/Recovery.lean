import Pylyskom.Aio.Agreement
import Pylyskom.Rejections

/-!
# After a rejected message

A message that `read_response` rejects is left half read. The calls that follow find the
next message only if the rejected one had nothing left to read, and an error reply with an
unknown error number, which is read whole, stays outstanding.
-/

namespace Pylyskom

/-- The connection answers a rejected message with one exception. The calls that follow
return the messages after it, and if it was an error reply to an outstanding ref-no, this
one is no longer outstanding. -/
def Connection.Recovers (self : Connection) (m : RejectedMessage) (e : Exn)
    (resps : List Response) : Prop :=
  ∃ conn, self.readResponse = (.error e, conn) ∧
    (conn.readResponses resps.length).1 = resps.map .ok ∧
    ∀ refNo, m.errorTo self.calls = some refNo → refNo ∉ conn.outstandingRequests

/-- The results of `n` calls of `read_response`, and the connection after them. -/
def AioConnection.readResponses :
    ℕ → AioConnection → List (Except Exn (Response × Bytes)) × AioConnection
  | 0, self => ([], self)
  | n + 1, self =>
    let call := self.readResponse
    let calls := readResponses n call.2
    (call.1 :: calls.1, calls.2)

/-- As for the blocking connection, whatever the reply bytes are. -/
def AioConnection.Recovers (self : AioConnection) (m : RejectedMessage) (e : Exn)
    (resps : List Response) : Prop :=
  ∃ conn, self.readResponse = (.error e, conn) ∧
    (conn.readResponses resps.length).1.map (Except.map Prod.fst) = resps.map .ok ∧
    ∀ refNo, m.errorTo self.calls = some refNo → refNo ∉ conn.outstandingRequests

namespace RejectedMessage

variable {calls : ℕ → Option ℕ} {m : RejectedMessage} {e : Exn}

theorem errorTo_of_bareAsync (h : m.bareAsync = true) : m.errorTo calls = none := by
  cases m with
  | ok refNo reply => cases h
  | error refNo errorNo errorStatus => cases h
  | async argumentCount msgNo fields => rfl

theorem call_of_errorTo {refNo : ℕ} (h : m.errorTo calls = some refNo) :
    (calls refNo).isSome = true := by
  cases m with
  | ok refNo reply => cases h
  | error r errorNo errorStatus =>
    simp only [errorTo, Option.ite_none_right_eq_some, Option.some.injEq] at h
    obtain ⟨hcall, rfl⟩ := h
    exact hcall
  | async argumentCount msgNo fields => cases h

end RejectedMessage

/-- **When the blocking connection recovers.** -/
theorem Connection.recovers_line_iff {self : Connection} {m : RejectedMessage} {e : Exn}
    (hreject : m.Rejected self.calls e) {line pre : Bytes} (hline : line ∈ m.lines)
    (hpre : Leftover pre) {msgs : List ServerMessage} {resps : List Response}
    {lines : List Bytes} (hmeans : List.Forall₂ (ServerMessage.Means self.calls) msgs resps)
    (hdistinct : (msgs.filterMap ServerMessage.refNo).Nodup)
    (hlines : List.Forall₂ (fun m line => line ∈ m.lines) msgs lines) {later : Bytes}
    (hunread : self.unread = pre ++ (line ++ (lines.flatten ++ later))) :
    self.Recovers m e resps ↔
      m.bareAsync = true ∨ (msgs = [] ∧ m.errorTo self.calls = none) := by
  obtain ⟨left, hrun, hleft⟩ :=
    responseParser_rejected hreject hline hpre (lines.flatten ++ later)
  have hspec := self.readResponse_spec
  rw [hunread, hrun] at hspec
  obtain ⟨conn, hcall, hrest, hout⟩ := hspec
  have hsame : conn.calls = self.calls := by
    funext refNo
    rw [calls, calls, hout]
  unfold Recovers
  simp only [hcall, Prod.mk.injEq, true_and, exists_eq_left']
  by_cases hbare : m.bareAsync = true
  · rw [if_pos (Or.inl hbare)] at hleft
    obtain ⟨conn', -, hcalls, -⟩ := readResponses_lines (hsame ▸ hmeans) hdistinct hlines
      (Or.inl rfl) (hrest.trans hleft)
    rw [hmeans.length_eq] at hcalls
    simp [hbare, hcalls, RejectedMessage.errorTo_of_bareAsync hbare]
  · cases herror : m.errorTo self.calls with
    | some refNo =>
      have hcallNo := RejectedMessage.call_of_errorTo herror
      have hmem : refNo ∈ conn.outstandingRequests := by
        rw [hout, Dict.mem_iff_isSome]
        simpa [calls] using hcallNo
      simp [hbare, hmem]
    | none =>
      rw [if_neg (by simp [hbare, herror])] at hleft
      obtain ⟨c, s, rfl, hc⟩ := hleft
      cases hmeans with
      | nil => simp [readResponses]
      | cons hfirst hothers =>
        have hspec := conn.readResponse_spec
        rw [hrest, responseParser_alien conn.calls hc s] at hspec
        obtain ⟨conn', hcall', -⟩ := hspec
        simp [hbare, readResponses, hcall']

/-! ## The asynchronous connection -/

/-- The blocking connection with the same bytes to read and the same calls outstanding. -/
def AioConnection.blocking (self : AioConnection) : Connection where
  buffer := .init (Pieces.restore self.unread .eof)
  refNo := self.refNo
  outstandingRequests := self.outstandingRequests.mapValues fun callNo => ⟨callNo, []⟩
  written := self.written

theorem AioConnection.agrees_blocking (self : AioConnection) : Agrees self.blocking self where
  unread := by
    change self.unread = (Pieces.restore self.unread .eof).bytes
    rw [Pieces.bytes_restore, Pieces.bytes_eof, List.append_nil]
  outstanding := by
    have hid : self.outstandingRequests.mapValues id = self.outstandingRequests := by
      simp [Dict.mapValues]
    conv_lhs => rw [← hid]
    simp [blocking, Dict.mapValues, Function.comp_def]

/-- Connections in agreement return the same responses. -/
theorem Agrees.readResponses_iff {sync : Connection} {aio : AioConnection} (h : Agrees sync aio)
    (resps : List Response) :
    (aio.readResponses resps.length).1.map (Except.map Prod.fst) = resps.map .ok ↔
      (sync.readResponses resps.length).1 = resps.map .ok := by
  induction resps generalizing sync aio with
  | nil => simp [AioConnection.readResponses, Connection.readResponses]
  | cons resp resps ih =>
    obtain ⟨hfirst, hnext⟩ := h.readResponse
    simp only [List.length_cons, AioConnection.readResponses, Connection.readResponses,
      List.map_cons, List.cons.injEq, hfirst]
    refine and_congr_right fun hok => ih (hnext ?_)
    rw [hok]
    simp

/-- Connections in agreement recover alike. -/
theorem Agrees.recovers_congr {sync : Connection} {aio : AioConnection} (h : Agrees sync aio)
    {m : RejectedMessage} {e : Exn} (he : e ≠ .localError .receiveError)
    (resps : List Response) : aio.Recovers m e resps ↔ sync.Recovers m e resps := by
  obtain ⟨hfirst, hnext⟩ := h.readResponse
  have hcalls := h.calls_eq
  unfold AioConnection.Recovers Connection.Recovers
  cases haio : aio.readResponse with
  | mk r conn =>
  cases hsync : sync.readResponse with
  | mk r' conn' =>
  rw [haio, hsync] at hfirst hnext
  simp only at hfirst hnext
  simp only [Prod.mk.injEq, and_assoc, exists_and_left, exists_eq_left', hcalls]
  have hresult : r = .error e ↔ r' = .error e := by
    rw [← hfirst]
    cases r <;> simp [Except.map]
  rw [hresult]
  refine and_congr_right fun herror => ?_
  have hagrees := hnext (by rw [herror]; simpa using he)
  rw [hagrees.readResponses_iff]
  simp [hagrees.outstanding]

theorem RejectedMessage.Rejected.ne_receiveError {calls : ℕ → Option ℕ} {m : RejectedMessage}
    {e : Exn} (h : m.Rejected calls e) : e ≠ .localError .receiveError := by
  cases h <;> simp

/-- **When a connection recovers from a rejected message.** Of either connection, with the
line of a rejected message next to be read and any messages after it: it recovers exactly
from an asynchronous message without fields, and where nothing follows that could be
misread and the message was no error reply to an outstanding ref-no. -/
theorem recovers_iff {calls : ℕ → Option ℕ} {m : RejectedMessage} {e : Exn}
    (hreject : m.Rejected calls e) {line pre : Bytes} (hline : line ∈ m.lines)
    (hpre : Leftover pre) {msgs : List ServerMessage} {resps : List Response}
    {lines : List Bytes} (hmeans : List.Forall₂ (ServerMessage.Means calls) msgs resps)
    (hdistinct : (msgs.filterMap ServerMessage.refNo).Nodup)
    (hlines : List.Forall₂ (fun m line => line ∈ m.lines) msgs lines) (later : Bytes) :
    (∀ self : Connection, self.calls = calls →
      self.unread = pre ++ (line ++ (lines.flatten ++ later)) →
      (self.Recovers m e resps ↔
        m.bareAsync = true ∨ (msgs = [] ∧ m.errorTo calls = none))) ∧
    ∀ self : AioConnection, self.calls = calls →
      self.unread = pre ++ (line ++ (lines.flatten ++ later)) →
      (self.Recovers m e resps ↔
        m.bareAsync = true ∨ (msgs = [] ∧ m.errorTo calls = none)) := by
  have hsync : ∀ self : Connection, self.calls = calls →
      self.unread = pre ++ (line ++ (lines.flatten ++ later)) →
      (self.Recovers m e resps ↔
        m.bareAsync = true ∨ (msgs = [] ∧ m.errorTo calls = none)) := by
    rintro self rfl hunread
    exact Connection.recovers_line_iff hreject hline hpre hmeans hdistinct hlines hunread
  refine ⟨hsync, fun self hcalls hunread => ?_⟩
  have hagrees := self.agrees_blocking
  rw [hagrees.recovers_congr hreject.ne_receiveError]
  exact hsync self.blocking (hagrees.calls_eq.symm.trans hcalls)
    (hagrees.unread.symm.trans hunread)

/-- A text number for a ref-no that was never issued, and a message after it. -/
theorem recovers_iff_unissued :
    let m : RejectedMessage := .ok 7 (.textNo 3)
    let e : Exn := .localError (.badRequestId 7)
    let resps : List Response := [.async (.leaveConf 8)]
    (∀ self : Connection, self.calls = (fun _ => none) →
      self.unread = [] ++ (ascii "=7 3\n" ++ ([ascii ":1 8 8\n"].flatten ++ [])) →
      (self.Recovers m e resps ↔
        m.bareAsync = true ∨ ([ServerMessage.async 1 (.leaveConf 8)] = [] ∧
          m.errorTo (fun _ => none) = none))) ∧
    ∀ self : AioConnection, self.calls = (fun _ => none) →
      self.unread = [] ++ (ascii "=7 3\n" ++ ([ascii ":1 8 8\n"].flatten ++ [])) →
      (self.Recovers m e resps ↔
        m.bareAsync = true ∨ ([ServerMessage.async 1 (.leaveConf 8)] = [] ∧
          m.errorTo (fun _ => none) = none)) := by
  intro m e resps
  have hline : ascii "=7 3\n" ∈ m.lines :=
    ⟨[ascii "=7", ascii "3"], ⟨_, rfl, _, rfl, by decide⟩, by decide⟩
  have hnext : ascii ":1 8 8\n" ∈ (ServerMessage.async 1 (.leaveConf 8)).lines :=
    ⟨[ascii ":1", ascii "8", ascii "8"], ⟨_, rfl, _, ⟨_, rfl, _, rfl, rfl⟩, by decide⟩, by decide⟩
  exact recovers_iff (.ok rfl (by decide)) hline (Or.inl rfl) (.cons .async .nil) (by decide)
    (.cons hnext .nil) []

/-- The value of the reply is taken for a message: the connection does not return the
message that follows. -/
theorem not_recovers :
    ¬ ∀ (self : Connection) (m : RejectedMessage) (e : Exn) (line : Bytes)
        (msgs : List ServerMessage) (resps : List Response) (lines : List Bytes),
      m.Rejected self.calls e → line ∈ m.lines →
      List.Forall₂ (ServerMessage.Means self.calls) msgs resps →
      (msgs.filterMap ServerMessage.refNo).Nodup →
      List.Forall₂ (fun m line => line ∈ m.lines) msgs lines →
      self.unread = line ++ lines.flatten → self.Recovers m e resps := by
  intro h
  let self : Connection :=
    { buffer := .init ⟨[ascii "=7 3\n:1 8 8\n"], by decide⟩
      refNo := 0
      outstandingRequests := ∅
      written := [] }
  let m : RejectedMessage := .ok 7 (.textNo 3)
  have hreject : m.Rejected self.calls (.localError (.badRequestId 7)) := .ok rfl (by decide)
  have hline : ascii "=7 3\n" ∈ m.lines :=
    ⟨[ascii "=7", ascii "3"], ⟨_, rfl, _, rfl, by decide⟩, by decide⟩
  have hmeans : List.Forall₂ (ServerMessage.Means self.calls) [.async 1 (.leaveConf 8)]
      [.async (.leaveConf 8)] := .cons .async .nil
  have hlines : List.Forall₂ (fun m line => line ∈ m.lines)
      [ServerMessage.async 1 (.leaveConf 8)] [ascii ":1 8 8\n"] :=
    .cons ⟨[ascii ":1", ascii "8", ascii "8"], ⟨_, rfl, _, ⟨_, rfl, _, rfl, rfl⟩, by decide⟩,
      by decide⟩ .nil
  have hrecovers := h self m _ _ _ _ _ hreject hline hmeans (by decide) hlines (by decide)
  have hunread : self.unread = [] ++ (ascii "=7 3\n" ++ ([ascii ":1 8 8\n"].flatten ++ [])) := by
    decide
  have hiff :=
    Connection.recovers_line_iff hreject hline (Or.inl rfl) hmeans (by decide) hlines hunread
  rw [hiff] at hrecovers
  rcases hrecovers with hbare | ⟨hnil, -⟩
  · cases hbare
  · cases hnil

end Pylyskom
