import Pylyskom.Aio.Connection

/-!
# The two connections agree

`AioConnection` parses a message again from its start after every short read, and
`Connection` waits inside the parser. On the same bytes both end their calls of
`read_response` alike, whatever pieces the bytes come in.
-/

namespace Pylyskom

/-- Both connections still have the same bytes to read, and the same calls outstanding
under the same ref-nos. -/
structure Agrees (sync : Connection) (aio : AioConnection) : Prop where
  unread : aio.unread = sync.unread
  outstanding : aio.outstandingRequests = sync.outstandingRequests.mapValues Request.callNo

namespace Agrees

variable {sync : Connection} {aio : AioConnection}

theorem calls_eq (h : Agrees sync aio) : aio.calls = sync.calls := by
  funext refNo
  simp [AioConnection.calls, Connection.calls, h.outstanding]

/-- Without the reply bytes, both connections run the same parser. -/
theorem run_eq (h : Agrees sync aio) :
    (responseParser sync.calls).run sync.unread =
      ((AioConnection.replyParser aio.calls).run aio.unread).mapValue Prod.fst := by
  rw [← h.calls_eq, ← h.unread, ← AioConnection.fst_replyParser, Reader.run_map]

/-- One call has the same result on both connections, and leaves them in agreement unless
it met the end of the stream. -/
theorem readResponse (h : Agrees sync aio) :
    aio.readResponse.1.map Prod.fst = sync.readResponse.1 ∧
      (sync.readResponse.1 ≠ .error (.localError .receiveError) →
        Agrees sync.readResponse.2 aio.readResponse.2) := by
  have hsync := sync.readResponse_spec
  have haio := aio.readResponse_spec
  rw [h.run_eq] at hsync
  cases hrun : (AioConnection.replyParser aio.calls).run aio.unread with
  | returned resp rest =>
    rw [hrun] at hsync haio
    obtain ⟨conn, hcall, hrest, hout⟩ := hsync
    obtain ⟨conn', hcall', hrest', hout'⟩ := haio
    rw [hcall, hcall']
    refine ⟨rfl, fun _ => ⟨hrest'.trans hrest.symm, ?_⟩⟩
    rw [hout, hout', h.outstanding, Response.settle_mapValues]
  | raised e rest =>
    rw [hrun] at hsync haio
    obtain ⟨conn, hcall, hrest, hout⟩ := hsync
    obtain ⟨conn', hcall', hrest', hout'⟩ := haio
    rw [hcall, hcall']
    refine ⟨rfl, fun _ => ⟨hrest'.trans hrest.symm, ?_⟩⟩
    rw [hout, hout', h.outstanding]
  | starved rest =>
    rw [hrun] at hsync haio
    obtain ⟨conn, hcall⟩ := hsync
    obtain ⟨conn', hcall'⟩ := haio
    rw [hcall, hcall']
    exact ⟨rfl, fun hne => absurd rfl hne⟩

end Agrees

/-- The connection after `n` calls of `read_response`. -/
def Connection.afterCalls (self : Connection) (n : ℕ) : Connection :=
  (fun conn => conn.readResponse.2)^[n] self

/-- The connection after `n` calls of `read_response`. -/
def AioConnection.afterCalls (self : AioConnection) (n : ℕ) : AioConnection :=
  (fun conn => conn.readResponse.2)^[n] self

/-- **Restarting the parser is sound.** Over any bytes, cut in any way for either
connection, the calls have the same results up to the first one that meets the end of the
stream, and after each the same bytes are unread and the same ref-nos outstanding. -/
theorem readResponse_agrees {sync : Connection} {aio : AioConnection} (h : Agrees sync aio)
    (n : ℕ) (hlive : ∀ i < n,
      (sync.afterCalls i).readResponse.1 ≠ .error (.localError .receiveError)) :
    (aio.afterCalls n).readResponse.1.map Prod.fst = (sync.afterCalls n).readResponse.1 ∧
      ((sync.afterCalls n).readResponse.1 ≠ .error (.localError .receiveError) →
        Agrees (sync.afterCalls (n + 1)) (aio.afterCalls (n + 1))) := by
  induction n generalizing sync aio with
  | zero => exact h.readResponse
  | succ n ih =>
    have hfirst := h.readResponse.2 (hlive 0 (Nat.succ_pos n))
    exact ih hfirst fun i hi => hlive (i + 1) (Nat.succ_lt_succ hi)

/-- A reply that the socket delivers at once and the stream in three chunks: the second
call gets the `?` on both connections. -/
theorem readResponse_agrees_chunks :
    let sync : Connection :=
      { buffer := .init ⟨[ascii "=1 5Hhello\n?"], by decide⟩
        refNo := 1
        outstandingRequests := ⟨[(1, ⟨Requests.GET_TEXT, []⟩)], by decide⟩
        written := [] }
    let aio : AioConnection :=
      { tcpStreamReader := ⟨[ascii "=", ascii "1 5Hhel", ascii "lo\n?"], by decide⟩
        written := []
        refNo := 1
        outstandingRequests := ⟨[(1, Requests.GET_TEXT)], by decide⟩
        buffer := .init }
    (aio.afterCalls 1).readResponse.1.map Prod.fst = (sync.afterCalls 1).readResponse.1 ∧
      ((sync.afterCalls 1).readResponse.1 ≠ .error (.localError .receiveError) →
        Agrees (sync.afterCalls 2) (aio.afterCalls 2)) := by
  intro sync aio
  refine readResponse_agrees ⟨by decide, rfl⟩ 1 fun i hi => ?_
  obtain rfl : i = 0 := by omega
  have hmeans : (ServerMessage.ok 1 (.string (ascii "hello"))).Means sync.calls
      (.ok 1 (.string (ascii "hello"))) := .ok rfl rfl
  have hline : ascii "=1 5Hhello\n" ∈ (ServerMessage.ok 1 (.string (ascii "hello"))).lines :=
    ⟨[ascii "=1", ascii "5Hhello"], ⟨_, rfl, _, rfl, by decide⟩, by decide⟩
  have hunread : sync.unread = [] ++ (ascii "=1 5Hhello\n" ++ ascii "?") := by decide
  obtain ⟨conn, pre, hcall, -⟩ := Connection.readResponse_line hmeans hline (Or.inl rfl) hunread
  change sync.readResponse.1 ≠ _
  rw [hcall]
  simp

end Pylyskom
