import Pylyskom.Aio.Invariants
import Pylyskom.Wire

/-!
# The stream of a well-behaved server

While the server only answers what it was asked, and the connection stays open, the
responses that have been parsed are those of the first messages sent, and the unread bytes
are the lines of the others. A ref-no is outstanding until its reply has been parsed.
-/

namespace Pylyskom

/-- The response that the receiver is about to handle. -/
def Receiver.held : Receiver → List Response
  | received response => [response.1]
  | _ => []

theorem Receiver.held_after (result : Except Exn Unit) : (Receiver.after result).held = [] := by
  cases result <;> rfl

namespace System

/-- The responses that have been parsed. -/
def parsed (s : System) : List Response := s.received ++ s.receiver.held

end System

/-- The invariant of the stream. -/
def System.Wired (s : System) : Prop :=
  ∃ answered coming resps lines pre, s.sent = answered ++ coming ∧
    Pylyskom.Wired s.client.conn.unread s.client.conn.outstandingRequests s.issued s.parsed
      answered coming resps lines pre

namespace System

variable {s : System}

/-- The unread bytes of a well-behaved server never end the receiver when they are parsed. -/
theorem Wired.tryParse (h : s.Wired) (hheld : s.receiver.held = []) :
    s.tryParse.Wired ∧ s.tryParse.receiver ≠ .ended := by
  obtain ⟨answered, coming, resps, lines, pre, hsent, h⟩ := h
  have hparsed : s.parsed = s.received := by rw [parsed, hheld, List.append_nil]
  have hunread : s.client.conn.unread =
      s.client.conn.buffer.current ++ s.client.conn.tcpStreamReader.bytes := rfl
  have happend : ((AioConnection.replyParser s.client.conn.calls).run
      s.client.conn.buffer.current).Settled → _ := fun hsettled =>
    (AioConnection.replyParser s.client.conn.calls).run_append hsettled
      s.client.conn.tcpStreamReader.bytes
  have hfst : (responseParser s.client.conn.calls).run s.client.conn.unread =
      ((AioConnection.replyParser s.client.conn.calls).run s.client.conn.unread).mapValue
        Prod.fst := by
    rw [← AioConnection.fst_replyParser, Reader.run_map]
  have hnext := h.run_unread
  change (∃ rest, (responseParser s.client.conn.calls).run s.client.conn.unread = _) ∨ _ at hnext
  rcases s.tryParse_cases with ⟨response, buffer, hrun, heq⟩ | ⟨e, buffer, hrun, heq⟩ | heq
  · rw [hrun] at happend
    rw [hunread, happend trivial, ← hunread] at hfst
    rcases hnext with ⟨rest, hnext⟩ | ⟨m, coming', resp, resps', line, lines', pre', rfl, rfl, rfl,
      hpre', hnext⟩
    · rw [hfst] at hnext
      cases hnext
    · change (responseParser s.client.conn.calls).run s.client.conn.unread = _ at hnext
      rw [hfst] at hnext
      obtain ⟨rfl, hrest⟩ := Outcome.returned.inj hnext
      have hafter := h.parse hpre'
      rw [heq]
      refine ⟨⟨answered ++ [m], coming', resps', lines', pre', ?_, ?_⟩, by simp [parsedTo]⟩
      · change s.sent = _
        rw [hsent, List.append_assoc]
        rfl
      · rw [hparsed, ← hrest] at hafter
        exact hafter
  · rw [hrun] at happend
    rw [hunread, happend trivial, ← hunread] at hfst
    rcases hnext with ⟨rest, hnext⟩ | ⟨m, coming', resp, resps', line, lines', pre', -, -, -, -,
      hnext⟩
    · rw [hfst] at hnext
      cases hnext
    · change (responseParser s.client.conn.calls).run s.client.conn.unread = _ at hnext
      rw [hfst] at hnext
      cases hnext
  · rw [heq]
    refine ⟨⟨answered, coming, resps, lines, pre, hsent, ?_⟩, by simp⟩
    rw [hparsed, ← List.append_nil s.received] at h
    exact h

/-- Data from the stream is put behind the bytes in the buffer. -/
theorem Wired.read (h : s.Wired) (hheld : s.receiver.held = []) :
    s.read.Wired ∧ s.read.receiver ≠ .ended := by
  apply Wired.tryParse
  · obtain ⟨answered, coming, resps, lines, pre, hsent, h⟩ := h
    rw [← s.client.conn.unread_appendData 1024] at h
    exact ⟨answered, coming, resps, lines, pre, hsent, h⟩
  · exact hheld

end System

/-- With a well-behaved server every step keeps the stream in order. -/
theorem Step.wired {s t : System} {a : Action} (horderly : a.orderly = true)
    (hstep : Step s a t) (howned : s.Owned) (h : s.Wired) : t.Wired := by
  cases hstep with
  | poll polling => exact (h.tryParse (by rw [polling]; rfl)).1
  | read reading data => exact (h.read (by rw [reading]; rfl)).1
  | @send i q found starting free usable =>
    obtain ⟨answered, coming, resps, lines, pre, hsent, h⟩ := h
    obtain ⟨written, heq⟩ := @System.send_eq s howned i q
    rw [heq]
    exact ⟨answered, coming, resps, lines, pre, hsent, h.issue _ howned.fresh⟩
  | @register i q refNo found draining =>
    rcases s.register_cases i q refNo with ⟨-, heq⟩ | heq
    · rw [heq]
      exact h
    · rw [heq]
      exact h
  | @wake i q refNo found waiting set =>
    obtain ⟨answered, coming, resps, lines, pre, hsent, h⟩ := h
    rw [← s.client.conn_endRequest refNo false] at h
    exact ⟨answered, coming, resps, lines, pre, hsent, h⟩
  | @receive response received =>
    obtain ⟨answered, coming, resps, lines, pre, hsent, h⟩ := h
    refine ⟨answered, coming, resps, lines, pre, hsent, ?_⟩
    have hparsed : (s.receive response).parsed = s.parsed := by
      have hheld : (s.receive response).receiver.held = [] := Receiver.held_after _
      rw [System.parsed, hheld, System.parsed, received, List.append_nil]
      rfl
    rw [hparsed]
    rw [← s.client.conn_receiveResponse response.1 response.2] at h
    exact h
  | @serverSends m resp line tcpStreamReader isOpen means written arriving =>
    obtain ⟨answered, coming, resps, lines, pre, hsent, h⟩ := h
    have hnew : ∀ r, m.refNo = some r →
        some r ∉ (answered ++ coming).map ServerMessage.refNo := by
      intro r hr hmem
      obtain ⟨callNo, hcall⟩ := means.call hr
      rw [System.unanswered, hsent, if_pos hmem] at hcall
      cases hcall
    have hissued : m.Means s.issued.get? resp := by
      apply means.congr
      intro r hr
      rw [System.unanswered, hsent, if_neg (hnew r hr)]
    refine ⟨answered, coming ++ [m], resps ++ [resp], lines ++ [line], pre, ?_, ?_⟩
    · rw [← List.append_assoc, ← hsent]
    · have hunread : (s.arrive tcpStreamReader).client.conn.unread =
          s.client.conn.unread ++ line := by
        change s.client.conn.buffer.current ++ tcpStreamReader.bytes = _
        rw [arriving, ← List.append_assoc]
        rfl
      have hafter := h.send hissued hnew written
      rw [← hunread] at hafter
      exact hafter
  | endOfStream reading | readFails reading =>
    obtain ⟨answered, coming, resps, lines, pre, hsent, h⟩ := h
    rw [System.parsed, reading] at h
    exact ⟨answered, coming, resps, lines, pre, hsent, h⟩
  | call | refuse | serverEof | getMessage | handle | finish | cancel | drainFails
  | disconnect => exact h
  | serverBytes | closeTasks => cases horderly

/-- The stream is in order in every run with a well-behaved server. -/
theorem Run.wired {allowed : System → Action → Prop} {user : Bytes} {s : System}
    (horderly : ∀ s a, allowed s a → a.orderly = true)
    (h : Run Step allowed (.connected user) s) : s.Wired := by
  apply h.induct
  · refine ⟨[], [], [], [], [], rfl, ?_⟩
    exact ⟨.nil, .nil, .nil, .nil, Or.inl rfl, rfl, fun _ => rfl⟩
  · intro u a v hrun hallowed hstep hu
    exact hstep.wired (horderly u a hallowed) hrun.invariants.1 hu

end Pylyskom
