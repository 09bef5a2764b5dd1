import Pylyskom.Client.Nested

/-!
# Nested requests get their own replies

Each ref-no that was given out belongs to one call that is going on or has ended. The
queues hold the replies that were read and whose calls are still going on. With a server
that answers only what it was asked, no call raises anything but its own error reply.
-/

namespace Pylyskom

/-- The ref-nos of the requests that are going on, the innermost one first. -/
def Nest.waiting (s : Nest) : List ℕ := s.stack.filterMap Frame.refNo

/-- What a request does with the reply to it. -/
def Finished.Gets (f : Finished) (resp : Response) : Prop :=
  ∃ reply, resp.reply = some (f.refNo, reply) ∧ f.result = reply.mapError .serverError

/-- The calls, their ref-nos and the queues. -/
structure Nest.Kept (s : Nest) : Prop where
  fresh : ∀ {r : ℕ}, r ∈ s.issued → r ≤ s.client.conn.refNo
  issued_waiting : ∀ {r : ℕ} {req : Request},
    Frame.waiting r req ∈ s.stack → s.issued.get? r = some req
  issued_finished : ∀ {f : Finished}, f ∈ s.finished →
    s.issued.get? f.refNo = some f.request ∧ ∃ resp ∈ s.read, f.Gets resp
  distinct : (s.waiting ++ s.finished.map Finished.refNo).Nodup
  accounted : ∀ {r : ℕ}, r ∈ s.issued → r ∈ s.waiting ∨ ∃ f ∈ s.finished, f.refNo = r
  okQueue : ∀ {r : ℕ} {reply : OkReply}, s.client.okQueue.get? r = some reply ↔
    .ok r reply ∈ s.read ∧ r ∈ s.waiting
  errorQueue : ∀ {r : ℕ} {error : ServerError}, s.client.errorQueue.get? r = some error ↔
    .error r error ∈ s.read ∧ r ∈ s.waiting

/-- The invariant of the stream. -/
def Nest.Wired (s : Nest) : Prop :=
  ∃ answered coming resps lines pre, s.sent = answered ++ coming ∧
    Pylyskom.Wired s.client.conn.unread
      (s.client.conn.outstandingRequests.mapValues Request.callNo)
      (s.issued.mapValues Request.callNo) s.read answered coming resps lines pre

namespace Nest

variable {s : Nest}

theorem kept_start : start.Kept where
  fresh h := (Dict.not_mem_empty _ h).elim
  issued_waiting h := (List.not_mem_nil h).elim
  issued_finished h := (List.not_mem_nil h).elim
  distinct := List.nodup_nil
  accounted h := (Dict.not_mem_empty _ h).elim
  okQueue := by simp [start, Client.init, waiting]
  errorQueue := by simp [start, Client.init, waiting]

theorem wired_start : start.Wired :=
  ⟨[], [], [], [], [], rfl, .nil, .nil, List.nodup_nil, .nil, Or.inl rfl, rfl, fun _ => rfl⟩

namespace Wired

/-- Each ref-no is answered once. -/
theorem read_distinct (h : s.Wired) : (s.read.filterMap Response.refNo).Nodup := by
  obtain ⟨answered, coming, resps, lines, pre, -, h⟩ := h
  exact h.parsed_distinct

/-- A ref-no that was given out is outstanding until its reply has been read. -/
theorem outstanding_eq (h : s.Wired) (r : ℕ) :
    (s.client.conn.outstandingRequests.get? r).map Request.callNo =
      if some r ∈ s.read.map Response.refNo then none
      else (s.issued.get? r).map Request.callNo := by
  obtain ⟨answered, coming, resps, lines, pre, -, h⟩ := h
  have heq := h.outstanding_eq r
  rwa [Dict.get?_mapValues, Dict.get?_mapValues] at heq

theorem issued_of_outstanding (h : s.Wired) {r : ℕ}
    (hr : r ∈ s.client.conn.outstandingRequests) :
    r ∈ s.issued ∧ some r ∉ s.read.map Response.refNo := by
  have heq := h.outstanding_eq r
  rw [Dict.mem_iff_isSome, ← Option.isSome_map (f := Request.callNo), heq] at hr
  split_ifs at hr with hread
  · cases hr
  · rw [Option.isSome_map] at hr
    exact ⟨Dict.mem_iff_isSome.mpr hr, hread⟩

end Wired

/-- The assertion of `_send_request` never fails, and `request` starts to wait. -/
theorem request_eq (hkept : s.Kept) (hwired : s.Wired) (req : Request) :
    ∃ written, s.request req =
      { s with
        client := { s.client with conn := { s.client.conn with
          refNo := s.client.conn.refNo + 1
          written
          outstandingRequests := s.client.conn.outstandingRequests.set
            (s.client.conn.refNo + 1) req } }
        stack := .waiting (s.client.conn.refNo + 1) req :: s.stack
        issued := s.issued.set (s.client.conn.refNo + 1) req } := by
  have hnot : s.client.conn.refNo + 1 ∉ s.client.conn.outstandingRequests := by
    intro hmem
    have hle := hkept.fresh (hwired.issued_of_outstanding hmem).1
    omega
  unfold request Client.sendRequest Connection.sendRequest
  simp only [hnot, if_false]
  exact ⟨_, rfl⟩

/-- Giving out the next ref-no to a call that begins. -/
theorem Kept.request (hkept : s.Kept) (hwired : s.Wired) (req : Request) :
    (s.request req).Kept := by
  obtain ⟨written, heq⟩ := request_eq hkept hwired req
  have hnew : s.client.conn.refNo + 1 ∉ s.issued := by
    intro hmem
    have hle := hkept.fresh hmem
    omega
  have hold : ∀ {r : ℕ} {q : Request}, s.issued.get? r = some q →
      (s.issued.set (s.client.conn.refNo + 1) req).get? r = some q := by
    intro r q hq
    rw [Dict.get?_set, if_neg, hq]
    rintro rfl
    exact hnew (Dict.mem_of_get? hq)
  have hunread : ∀ {resp : Response}, resp ∈ s.read →
      resp.refNo ≠ some (s.client.conn.refNo + 1) := by
    intro resp hresp hr
    obtain ⟨answered, coming, resps, lines, pre, -, hwired⟩ := hwired
    have hmem := hwired.issued_of_parsed (List.mem_map.mpr ⟨resp, hresp, hr⟩)
    exact hnew (Dict.mem_mapValues.mp hmem)
  rw [heq]
  constructor
  · intro r hr
    rcases Dict.mem_set.mp hr with rfl | hr
    · exact Nat.le_refl _
    · exact Nat.le_succ_of_le (hkept.fresh hr)
  · intro r q hq
    rcases List.mem_cons.mp hq with hq | hq
    · cases hq
      rw [Dict.get?_set, if_pos rfl]
    · exact hold (hkept.issued_waiting hq)
  · intro f hf
    obtain ⟨hissued, hgets⟩ := hkept.issued_finished hf
    exact ⟨hold hissued, hgets⟩
  · refine List.nodup_cons.mpr ⟨?_, hkept.distinct⟩
    intro hmem
    rcases List.mem_append.mp hmem with hmem | hmem
    · obtain ⟨frame, hframe, hr⟩ := List.mem_filterMap.mp hmem
      cases frame with
      | waiting r q =>
        cases hr
        exact hnew (Dict.mem_of_get? (hkept.issued_waiting hframe))
      | handling msg => cases hr
    · obtain ⟨f, hf, hr⟩ := List.mem_map.mp hmem
      rw [← hr] at hnew
      exact hnew (Dict.mem_of_get? (hkept.issued_finished hf).1)
  · intro r hr
    rcases Dict.mem_set.mp hr with rfl | hr
    · exact Or.inl List.mem_cons_self
    · exact (hkept.accounted hr).imp_left (List.mem_cons_of_mem _)
  · intro r reply
    refine hkept.okQueue.trans (and_congr_right fun hread => ?_)
    have hne : r ≠ s.client.conn.refNo + 1 := fun hr => hunread hread (congrArg some hr)
    simp [waiting, Frame.refNo, hne]
  · intro r error
    refine hkept.errorQueue.trans (and_congr_right fun hread => ?_)
    have hne : r ≠ s.client.conn.refNo + 1 := fun hr => hunread hread (congrArg some hr)
    simp [waiting, Frame.refNo, hne]

theorem Wired.request (hkept : s.Kept) (hwired : s.Wired) (req : Request) :
    (s.request req).Wired := by
  obtain ⟨written, heq⟩ := request_eq hkept hwired req
  have hnew : s.client.conn.refNo + 1 ∉ s.issued.mapValues Request.callNo := by
    intro hmem
    have hle := hkept.fresh (Dict.mem_mapValues.mp hmem)
    omega
  obtain ⟨answered, coming, resps, lines, pre, hsent, h⟩ := hwired
  have hafter := h.issue req.callNo hnew
  rw [← Dict.mapValues_set, ← Dict.mapValues_set] at hafter
  rw [heq]
  exact ⟨answered, coming, resps, lines, pre, hsent, hafter⟩

/-- The next response of a well-behaved server, or a socket that blocks. -/
theorem Wired.readResponse_cases (h : s.Wired) :
    (∃ resp conn, s.client.conn.readResponse = (.ok resp, conn) ∧
      conn.refNo = s.client.conn.refNo ∧
      conn.outstandingRequests = resp.settle s.client.conn.outstandingRequests ∧
      (∀ r, resp.refNo = some r → r ∈ s.client.conn.outstandingRequests) ∧
      ∀ t : Nest, t.client.conn = conn → t.issued = s.issued → t.sent = s.sent →
        t.read = s.read ++ [resp] → t.Wired) ∨
    ∃ conn, s.client.conn.readResponse = (.error (.localError .receiveError), conn) := by
  obtain ⟨answered, coming, resps, lines, pre, hsent, h⟩ := h
  have hcalls : (s.client.conn.outstandingRequests.mapValues Request.callNo).get? =
      s.client.conn.calls := by
    funext r
    rw [Dict.get?_mapValues]
    rfl
  have hspec := s.client.conn.readResponse_spec
  rcases h.run_unread with ⟨rest, hrun⟩ | ⟨m, coming', resp, resps', line, lines', pre', rfl, rfl,
    rfl, hpre', hrun⟩
  · rw [hcalls] at hrun
    rw [hrun] at hspec
    exact Or.inr hspec
  · rw [hcalls] at hrun
    rw [hrun] at hspec
    obtain ⟨conn, hcall, hunread, hout⟩ := hspec
    have hrefNo : conn.refNo = s.client.conn.refNo := by
      rcases s.client.conn.readResponse_cases with ⟨_, _, heq, -, hrefNo, -⟩ | ⟨_, _, heq, -⟩
      · rw [hcall] at heq
        cases heq
        exact hrefNo
      · rw [hcall] at heq
        cases heq
    have houtstanding : ∀ r, resp.refNo = some r → r ∈ s.client.conn.outstandingRequests := by
      intro r hr
      obtain ⟨callNo, hcallNo⟩ := h.means_next.call
        ((List.forall₂_cons.mp h.means_coming).1.refNo_eq.trans hr)
      rw [Dict.get?_mapValues] at hcallNo
      obtain ⟨req, hreq, -⟩ := Option.map_eq_some_iff.mp hcallNo
      exact Dict.mem_of_get? hreq
    have hafter := h.parse hpre'
    rw [← hunread, Response.settle_mapValues, ← hout] at hafter
    refine Or.inl ⟨resp, conn, hcall, hrefNo, hout, houtstanding, ?_⟩
    intro t hconn hissued ht hread
    refine ⟨answered ++ [m], coming', resps', lines', pre', ?_, ?_⟩
    · rw [ht, List.append_assoc]
      exact hsent
    · rw [hconn, hissued, hread]
      exact hafter

/-- The client after a response. -/
def enqueue (client : Client) : Response → Client
  | .ok refNo reply => { client with okQueue := client.okQueue.set refNo reply }
  | .error refNo error => { client with errorQueue := client.errorQueue.set refNo error }
  | .async _ => client

/-- The calls of the handler function that a response leads to. -/
def handlerCalls : Response → List Frame
  | .async msg => [.handling msg]
  | _ => []

theorem readResponse_eq {resp : Response} {conn : Connection}
    (hcall : s.client.conn.readResponse = (.ok resp, conn)) :
    s.readResponse =
      { s with
        client := enqueue { s.client with conn } resp
        stack := handlerCalls resp ++ s.stack } := by
  unfold readResponse Client.readResponse
  rw [hcall]
  cases resp <;> rfl

/-- A response that was read is to a call that is going on and has no reply yet. -/
theorem Kept.waiting_of_outstanding (hkept : s.Kept) (hwired : s.Wired) {r : ℕ}
    (hr : r ∈ s.client.conn.outstandingRequests) :
    r ∈ s.waiting ∧ some r ∉ s.read.map Response.refNo := by
  obtain ⟨hissued, hread⟩ := hwired.issued_of_outstanding hr
  refine ⟨(hkept.accounted hissued).resolve_right ?_, hread⟩
  rintro ⟨f, hf, rfl⟩
  obtain ⟨-, resp, hresp, reply, hreply, -⟩ := hkept.issued_finished hf
  apply hread
  refine List.mem_map.mpr ⟨resp, hresp, ?_⟩
  rw [resp.refNo_eq_reply, hreply]
  rfl

/-- Reading a response puts a reply in its queue. -/
theorem Kept.readResponse (hkept : s.Kept) (hwired : s.Wired) {resp : Response}
    {conn : Connection} (hcall : s.client.conn.readResponse = (.ok resp, conn))
    (hrefNo : conn.refNo = s.client.conn.refNo)
    (hout : ∀ r, resp.refNo = some r → r ∈ s.client.conn.outstandingRequests) :
    Kept { s.readResponse with read := s.read ++ [resp] } := by
  have hwaiting : ({ s.readResponse with read := s.read ++ [resp] } : Nest).waiting =
      s.waiting := by
    rw [readResponse_eq hcall]
    cases resp <;> rfl
  have hissued : s.readResponse.issued = s.issued := by rw [readResponse_eq hcall]
  have hfinished : s.readResponse.finished = s.finished := by rw [readResponse_eq hcall]
  constructor
  · intro r hr
    have hconn : s.readResponse.client.conn = conn := by
      rw [readResponse_eq hcall]
      cases resp <;> rfl
    change r ≤ s.readResponse.client.conn.refNo
    rw [hconn, hrefNo]
    exact hkept.fresh (hissued ▸ hr)
  · intro r req hmem
    have hmem' : Frame.waiting r req ∈ s.stack := by
      rw [readResponse_eq hcall] at hmem
      cases resp <;> simpa [handlerCalls] using hmem
    rw [← hkept.issued_waiting hmem', ← hissued]
  · intro f hf
    obtain ⟨hreq, resp', hresp', hgets⟩ := hkept.issued_finished (hfinished ▸ hf)
    exact ⟨hissued ▸ hreq, resp', List.mem_append_left _ hresp', hgets⟩
  · rw [hwaiting]
    change (s.waiting ++ s.readResponse.finished.map _).Nodup
    rw [hfinished]
    exact hkept.distinct
  · intro r hr
    rw [hwaiting]
    change _ ∨ ∃ f ∈ s.readResponse.finished, _
    rw [hfinished]
    exact hkept.accounted (hissued ▸ hr)
  · intro r reply
    rw [hwaiting, readResponse_eq hcall]
    cases resp with
    | ok r' reply' =>
      have hnew := hkept.waiting_of_outstanding hwired (hout r' rfl)
      have hold : ∀ reply, Response.ok r' reply ∉ s.read := fun reply hmem =>
        hnew.2 (List.mem_map.mpr ⟨_, hmem, rfl⟩)
      simp only [enqueue, Dict.get?_set, List.mem_append, List.mem_singleton, Response.ok.injEq]
      by_cases hr : r = r'
      · subst hr
        simp [hnew.1, hold, eq_comm]
      · simp [hr, hkept.okQueue]
    | error r' error => simp [enqueue, hkept.okQueue]
    | async msg => simp [enqueue, hkept.okQueue]
  · intro r error
    rw [hwaiting, readResponse_eq hcall]
    cases resp with
    | ok r' reply => simp [enqueue, hkept.errorQueue]
    | error r' error' =>
      have hnew := hkept.waiting_of_outstanding hwired (hout r' rfl)
      have hold : ∀ error, Response.error r' error ∉ s.read := fun error hmem =>
        hnew.2 (List.mem_map.mpr ⟨_, hmem, rfl⟩)
      simp only [enqueue, Dict.get?_set, List.mem_append, List.mem_singleton,
        Response.error.injEq]
      by_cases hr : r = r'
      · subst hr
        simp [hnew.1, hold, eq_comm]
      · simp [hr, hkept.errorQueue]
    | async msg => simp [enqueue, hkept.errorQueue]

/-- What the innermost request returns or raises when its loop has ended. -/
theorem Kept.dequeue_cases (hkept : s.Kept) (hwired : s.Wired) {r : ℕ}
    (queued : s.client.waits r = false) :
    ∃ reply resp, resp ∈ s.read ∧ resp.reply = some (r, reply) ∧
      (s.client.dequeue r).1 = reply.mapError .serverError ∧
      (s.client.dequeue r).2.conn = s.client.conn ∧
      (∀ r', (s.client.dequeue r).2.okQueue.get? r' =
        if r' = r then none else s.client.okQueue.get? r') ∧
      ∀ r', (s.client.dequeue r).2.errorQueue.get? r' =
        if r' = r then none else s.client.errorQueue.get? r' := by
  unfold Client.dequeue
  cases hok : s.client.okQueue.get? r with
  | some reply =>
    obtain ⟨hread, -⟩ := hkept.okQueue.mp hok
    -- a ref-no is not answered twice
    have herror : s.client.errorQueue.get? r = none := by
      rw [Option.eq_none_iff_forall_ne_some]
      intro error herror
      have hread' := (hkept.errorQueue.mp herror).1
      have hsame := filter_eq_singleton hwired.read_distinct hread (b := r) rfl
      have hmem : Response.error r error ∈ s.read.filter (fun resp => resp.refNo = some r) :=
        List.mem_filter.mpr ⟨hread', by simp [Response.refNo]⟩
      rw [hsame, List.mem_singleton] at hmem
      cases hmem
    refine ⟨.ok reply, .ok r reply, hread, rfl, rfl, rfl, fun r' => Dict.get?_erase _ _ _,
      fun r' => ?_⟩
    split_ifs with hr
    · rw [hr, herror]
    · rfl
  | none =>
    have hmem : r ∈ s.client.errorQueue := by
      by_contra hnot
      have hnone := Dict.get?_eq_none_iff.mp hok
      simp [Client.waits, hnone, hnot] at queued
    obtain ⟨error, herror⟩ := Option.isSome_iff_exists.mp (Dict.mem_iff_isSome.mp hmem)
    obtain ⟨hread, -⟩ := hkept.errorQueue.mp herror
    simp only [herror]
    refine ⟨.error error, .error r error, hread, rfl, rfl, trivial, fun r' => ?_,
      fun r' => Dict.get?_erase _ _ _⟩
    split_ifs with hr
    · rw [hr, hok]
    · rfl

/-- A request that ends takes its reply with it. -/
theorem Kept.dequeue (hkept : s.Kept) (hwired : s.Wired) {r : ℕ} {req : Request}
    {stack : List Frame} (top : s.stack = .waiting r req :: stack)
    (queued : s.client.waits r = false) : (s.dequeue r req stack).Kept := by
  obtain ⟨reply, resp, hresp, hreply, hresult, hconn, hokQueue, herrorQueue⟩ :=
    hkept.dequeue_cases hwired queued
  have hwaiting : s.waiting = r :: stack.filterMap Frame.refNo := by
    rw [waiting, top]
    rfl
  have hdistinct := hkept.distinct
  rw [hwaiting, List.cons_append, List.nodup_cons, List.mem_append, not_or] at hdistinct
  obtain ⟨⟨hstack, hfinished⟩, hdistinct⟩ := hdistinct
  have hissued : s.issued.get? r = some req :=
    hkept.issued_waiting (by rw [top]; exact List.mem_cons_self)
  constructor
  · intro r' hr'
    change r' ≤ (s.client.dequeue r).2.conn.refNo
    rw [hconn]
    exact hkept.fresh hr'
  · intro r' req' hmem
    apply hkept.issued_waiting
    rw [top]
    exact List.mem_cons_of_mem _ hmem
  · intro f hf
    rcases List.mem_append.mp hf with hf | hf
    · exact hkept.issued_finished hf
    · obtain rfl := List.mem_singleton.mp hf
      exact ⟨hissued, resp, hresp, reply, hreply, hresult⟩
  · change (stack.filterMap Frame.refNo ++ (s.finished ++ [_]).map Finished.refNo).Nodup
    rw [List.map_append, ← List.append_assoc]
    apply List.Nodup.append hdistinct (List.nodup_singleton _)
    intro r' hr' hmem
    obtain rfl := List.mem_singleton.mp hmem
    exact (List.mem_append.mp hr').elim hstack hfinished
  · intro r' hr'
    rcases hkept.accounted hr' with hmem | ⟨f, hf, hr'⟩
    · rw [hwaiting] at hmem
      rcases List.mem_cons.mp hmem with rfl | hmem
      · exact Or.inr ⟨_, List.mem_append_right _ (List.mem_singleton_self _), rfl⟩
      · exact Or.inl hmem
    · exact Or.inr ⟨f, List.mem_append_left _ hf, hr'⟩
  · intro r' reply'
    change (s.client.dequeue r).2.okQueue.get? r' = _ ↔
      .ok r' reply' ∈ s.read ∧ r' ∈ stack.filterMap Frame.refNo
    rw [hokQueue]
    split_ifs with hr
    · simp [hr, hstack]
    · simp [hkept.okQueue, hwaiting, hr]
  · intro r' error
    change (s.client.dequeue r).2.errorQueue.get? r' = _ ↔
      .error r' error ∈ s.read ∧ r' ∈ stack.filterMap Frame.refNo
    rw [herrorQueue]
    split_ifs with hr
    · simp [hr, hstack]
    · simp [hkept.errorQueue, hwaiting, hr]

/-- The end of the handler function changes no ref-no. -/
theorem Kept.endHandler (hkept : s.Kept) {msg : AsyncMessage} {stack : List Frame}
    (top : s.stack = .handling msg :: stack) : Kept { s with stack } := by
  have hwaiting : ({ s with stack } : Nest).waiting = s.waiting := by
    unfold waiting
    rw [top]
    rfl
  constructor
  · exact hkept.fresh
  · intro r req hmem
    apply hkept.issued_waiting
    rw [top]
    exact List.mem_cons_of_mem _ hmem
  · exact hkept.issued_finished
  · rw [hwaiting]
    exact hkept.distinct
  · rw [hwaiting]
    exact hkept.accounted
  · rw [hwaiting]
    exact hkept.okQueue
  · rw [hwaiting]
    exact hkept.errorQueue

theorem Wired.serverSends (hwired : s.Wired) {m : ServerMessage} {resp : Response}
    {line : Bytes} {socket : Pieces} (means : m.Means s.unanswered resp) (written : line ∈ m.lines)
    (arriving : socket.bytes = s.client.conn.buffer.socket.bytes ++ line) :
    Wired { s.arrive socket with sent := s.sent ++ [m] } := by
  obtain ⟨answered, coming, resps, lines, pre, hsent, h⟩ := hwired
  have hany : ∀ r, (s.sent.any fun m => m.refNo = some r) = true ↔
      some r ∈ s.sent.map ServerMessage.refNo := by simp
  have hnew : ∀ r, m.refNo = some r →
      some r ∉ (answered ++ coming).map ServerMessage.refNo := by
    intro r hr hmem
    obtain ⟨callNo, hcall⟩ := means.call hr
    rw [unanswered, if_pos ((hany r).mpr (hsent ▸ hmem))] at hcall
    cases hcall
  have hissued : m.Means (s.issued.mapValues Request.callNo).get? resp := by
    apply means.congr
    intro r hr
    rw [unanswered, if_neg ((hany r).not.mpr (hsent ▸ hnew r hr)), Dict.get?_mapValues]
  have hafter := h.send hissued hnew written
  have hunread : (s.arrive socket).client.conn.unread = s.client.conn.unread ++ line := by
    change s.client.conn.buffer.rb.drop s.client.conn.buffer.rbPos ++ socket.bytes = _
    rw [arriving, ← List.append_assoc]
    rfl
  rw [← hunread] at hafter
  exact ⟨answered, coming ++ [m], resps ++ [resp], lines ++ [line], pre,
    by rw [← List.append_assoc, ← hsent], hafter⟩

end Nest

/-- Each step keeps the calls and the stream in order, and no exception gets out. -/
theorem NestStep.kept {s t : Nest} {a : NestAction} (hstep : NestStep s a t)
    (h : s.Kept ∧ s.Wired ∧ s.raised = none) : t.Kept ∧ t.Wired ∧ t.raised = none := by
  obtain ⟨hkept, hwired, hraised⟩ := h
  have hrequest : ∀ req, (s.request req).Kept ∧ (s.request req).Wired ∧
      (s.request req).raised = none := by
    intro req
    refine ⟨hkept.request hwired req, hwired.request hkept req, ?_⟩
    obtain ⟨written, heq⟩ := Nest.request_eq hkept hwired req
    rw [heq]
    exact hraised
  cases hstep with
  | program req running idle => exact hrequest req
  | handler req running top => exact hrequest req
  | @read refNo req stack resp running top waits arrived =>
    rcases hwired.readResponse_cases with
      ⟨resp, conn, hcall, hrefNo, -, hout, hafter⟩ | ⟨conn, hcall⟩
    · rw [hcall] at arrived
      obtain rfl := Except.ok.inj arrived
      refine ⟨hkept.readResponse hwired hcall hrefNo hout, hafter _ ?_ ?_ ?_ rfl, ?_⟩
      all_goals rw [Nest.readResponse_eq hcall]
      · cases resp <;> rfl
      · exact hraised
    · rw [hcall] at arrived
      cases arrived
  | readFails running top waits fails notBlocked =>
    rcases hwired.readResponse_cases with ⟨resp, conn, hcall, -⟩ | ⟨conn, hcall⟩
    · rw [hcall] at fails
      cases fails
    · rw [hcall] at fails
      cases fails
      exact absurd rfl notBlocked
  | @dequeue refNo req stack running top queued =>
    obtain ⟨reply, resp, -, -, -, hconn, -⟩ := hkept.dequeue_cases hwired queued
    refine ⟨hkept.dequeue hwired top queued, ?_, hraised⟩
    rw [Nest.Wired, ← hconn] at hwired
    exact hwired
  | endHandler running top => exact ⟨hkept.endHandler top, hwired, hraised⟩
  | serverSends means written arriving =>
    refine ⟨?_, hwired.serverSends means written arriving, hraised⟩
    exact ⟨hkept.fresh, hkept.issued_waiting, hkept.issued_finished, hkept.distinct,
      hkept.accounted, hkept.okQueue, hkept.errorQueue⟩

theorem Run.kept {s : Nest} (h : Run NestStep (fun _ _ => True) .start s) :
    s.Kept ∧ s.Wired ∧ s.raised = none :=
  h.invariant (P := fun s => s.Kept ∧ s.Wired ∧ s.raised = none)
    ⟨Nest.kept_start, Nest.wired_start, rfl⟩ fun _ hstep hu => hstep.kept hu

/-- The calls that have ended and those that go on have what was sent to them. -/
structure Nest.OwnReplies (s : Nest) : Prop where
  /-- Nothing but an error reply was ever raised. -/
  running : s.raised = none
  /-- A request that has ended returned or raised the reply that the server sent under its
  ref-no, of the response type of its call. -/
  own_reply : ∀ {f : Finished}, f ∈ s.finished →
    ∃ m resp, s.sent.filter (fun m => m.refNo = some f.refNo) = [m] ∧
      m.Means (fun _ => some f.request.callNo) resp ∧ f.Gets resp
  /-- No ref-no belongs to two requests. -/
  one_request : (s.waiting ++ s.finished.map Finished.refNo).Nodup
  /-- A request whose loop has ended has its reply. -/
  not_unknown : ∀ {r : ℕ} {req : Request} {stack : List Frame},
    s.stack = .waiting r req :: stack → s.client.waits r = false →
    (s.client.dequeue r).1 ≠ .error (.builtinError .runtimeError)
  /-- The queues hold the replies that were read and whose requests are going on, -/
  okQueue : ∀ {r : ℕ} {reply : OkReply}, s.client.okQueue.get? r = some reply ↔
    .ok r reply ∈ s.read ∧ r ∈ s.waiting
  errorQueue : ∀ {r : ℕ} {error : ServerError}, s.client.errorQueue.get? r = some error ↔
    .error r error ∈ s.read ∧ r ∈ s.waiting
  /-- each once, -/
  read_once : (s.read.filterMap Response.refNo).Nodup
  /-- and in one queue only. -/
  one_queue : ∀ {r : ℕ}, r ∈ s.client.okQueue → r ∉ s.client.errorQueue

/-- **Nested requests each get their own reply.** In every state that can be reached with
a handler function that makes any requests, and a well-behaved server that answers in any
order, the requests that have ended have ended with their own replies, and the queues hold
the other replies that were read. -/
theorem Run.nestedReplies {s : Nest} (h : Run NestStep (fun _ _ => True) .start s) :
    s.OwnReplies := by
  obtain ⟨hkept, hwired, hraised⟩ := h.kept
  have hread_once := hwired.read_distinct
  constructor
  · exact hraised
  · intro f hf
    obtain ⟨hissued, resp, hresp, hgets⟩ := hkept.issued_finished hf
    have hgets' := hgets
    obtain ⟨reply, hreply, -⟩ := hgets'
    obtain ⟨answered, coming, resps, lines, pre, hsent, hwired⟩ := hwired
    obtain ⟨m, hm, hmeans⟩ := exists_of_forall₂ hwired.means_parsed hresp
    have hrefNo : m.refNo = some f.refNo := by
      rw [hmeans.refNo_eq, resp.refNo_eq_reply, hreply]
      rfl
    refine ⟨m, resp, ?_, ?_, hgets⟩
    · rw [hsent]
      exact filter_eq_singleton hwired.distinct (List.mem_append_left _ hm) hrefNo
    · apply hmeans.congr
      intro r hr
      obtain rfl : f.refNo = r := Option.some.inj (hrefNo.symm.trans hr)
      rw [Dict.get?_mapValues, hissued]
      rfl
  · exact hkept.distinct
  · intro r req stack top queued
    obtain ⟨reply, resp, -, -, hresult, -⟩ := hkept.dequeue_cases hwired queued
    rw [hresult]
    cases reply <;> simp [Except.mapError]
  · exact hkept.okQueue
  · exact hkept.errorQueue
  · exact hread_once
  · intro r hok herror
    obtain ⟨reply, hok⟩ := Option.isSome_iff_exists.mp (Dict.mem_iff_isSome.mp hok)
    obtain ⟨error, herror⟩ := Option.isSome_iff_exists.mp (Dict.mem_iff_isSome.mp herror)
    have hsame := filter_eq_singleton hread_once (hkept.okQueue.mp hok).1 (b := r) rfl
    have hmem : Response.error r error ∈ s.read.filter (fun resp => resp.refNo = some r) :=
      List.mem_filter.mpr ⟨(hkept.errorQueue.mp herror).1, by simp [Response.refNo]⟩
    rw [hsame, List.mem_singleton] at hmem
    cases hmem

open Nest in
/-- A run goes on after a response has been read; of the receive buffer only what it still
delivers is known. -/
theorem Run.reach_response {s : Nest} {P : Nest → Prop} {refNo : ℕ} {req : Request}
    {stack : List Frame} (resp : Response) (rest : Bytes) (running : s.raised = none)
    (top : s.stack = .waiting refNo req :: stack) (waits : s.client.waits refNo = true)
    (hrun : (responseParser s.client.conn.calls).run s.client.conn.unread = .returned resp rest)
    (h : ∀ buffer : ReceiveBuffer, buffer.unread = rest →
      ∃ u, Run NestStep (fun _ _ => True)
        { s with
          client := enqueue { s.client with conn := { s.client.conn with
            buffer
            outstandingRequests := resp.settle s.client.conn.outstandingRequests } } resp
          stack := handlerCalls resp ++ s.stack
          read := s.read ++ [resp] } u ∧ P u) :
    ∃ u, Run NestStep (fun _ _ => True) s u ∧ P u := by
  have hspec := s.client.conn.readResponse_spec
  rw [hrun] at hspec
  obtain ⟨⟨buffer, r, out, written⟩, hcall, hunread, hout⟩ := hspec
  have hsame : r = s.client.conn.refNo ∧ written = s.client.conn.written := by
    rcases s.client.conn.readResponse_cases with
      ⟨_, _, heq, -, hrefNo, hwritten, -⟩ | ⟨_, _, heq, -⟩
    · rw [hcall] at heq
      cases heq
      exact ⟨hrefNo, hwritten⟩
    · rw [hcall] at heq
      cases heq
  obtain ⟨rfl, rfl⟩ := hsame
  change out = _ at hout
  subst hout
  refine Run.reach trivial (.read running top waits (by rw [hcall])) ?_
  rw [readResponse_eq hcall]
  exact h buffer hunread

/-- The handler function makes a request while another one waits; the reply to the outer
request comes first. -/
theorem Run.nestedReplies_sample :
    ∃ s : Nest, s.OwnReplies ∧ s.finished.map Finished.result =
      [.ok (.sessionNo 18), .ok (.sessionNo 17)] := by
  have hrun : ∃ s, Run NestStep (fun _ _ => True) .start s ∧ s.finished.map Finished.result =
      [.ok (.sessionNo 18), .ok (.sessionNo 17)] := by
    refine Run.reach trivial (.program ⟨Requests.WHO_AM_I, []⟩ rfl rfl) ?_
    refine Run.reach trivial (@NestStep.serverSends _ (.async 1 (.leaveConf 7)) _
      (ascii ":1 8 7\n") ⟨[ascii ":1 8 7\n"], by decide⟩ .async
      ⟨[ascii ":1", ascii "8", ascii "7"], ⟨_, rfl, _, ⟨_, rfl, _, rfl, rfl⟩, by decide⟩,
        by decide⟩ (by decide)) ?_
    refine Run.reach_response (.async (.leaveConf 7)) [] rfl rfl rfl rfl fun buffer hbuffer => ?_
    refine Run.reach trivial (.handler ⟨Requests.WHO_AM_I, []⟩ rfl rfl) ?_
    have hpush : ∀ (p : Pieces) (line : Bytes),
        (Pieces.restore (p.bytes ++ line) .eof).bytes = p.bytes ++ line := by simp
    refine Run.reach trivial (@NestStep.serverSends _ (.ok 1 (.sessionNo 17)) _
      (ascii "=1 17\n") (.restore (buffer.socket.bytes ++ ascii "=1 17\n") .eof) (.ok rfl rfl)
      ⟨[ascii "=1", ascii "17"], ⟨_, rfl, _, rfl, by decide⟩, by decide⟩ (hpush _ _)) ?_
    refine Run.reach trivial (@NestStep.serverSends _ (.ok 2 (.sessionNo 18)) _
      (ascii "=2 18\n") (.restore (Pieces.bytes (.restore (buffer.socket.bytes ++
        ascii "=1 17\n") .eof) ++ ascii "=2 18\n") .eof) (.ok rfl rfl)
      ⟨[ascii "=2", ascii "18"], ⟨_, rfl, _, rfl, by decide⟩, by decide⟩ (hpush _ _)) ?_
    have hunread : buffer.rb.drop buffer.rbPos ++ Pieces.bytes (.restore (Pieces.bytes (.restore
        (buffer.socket.bytes ++ ascii "=1 17\n") .eof) ++ ascii "=2 18\n") .eof) =
        ascii "=1 17\n=2 18\n" := by
      rw [hpush, hpush, List.append_assoc, ← List.append_assoc]
      change buffer.unread ++ _ = _
      rw [hbuffer]
      decide
    refine Run.reach_response (.ok 1 (.sessionNo 17)) (ascii "=2 18\n") rfl rfl rfl ?_ ?_
    · exact (congrArg (responseParser _).run hunread).trans rfl
    intro buffer' hbuffer'
    refine Run.reach_response (.ok 2 (.sessionNo 18)) [] rfl rfl rfl ?_ ?_
    · exact (congrArg (responseParser _).run hbuffer').trans rfl
    intro buffer'' _
    refine Run.reach trivial (.dequeue rfl rfl rfl) ?_
    refine Run.reach trivial (.endHandler rfl rfl) ?_
    refine Run.reach trivial (.dequeue rfl rfl rfl) ?_
    exact ⟨_, Run.refl, rfl⟩
  obtain ⟨s, hrun, hresults⟩ := hrun
  exact ⟨s, Run.nestedReplies hrun, hresults⟩

end Pylyskom
