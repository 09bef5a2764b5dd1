import Pylyskom.Aio.Invariants
import Pylyskom.RequestStream

/-!
# What concurrent tasks write

A request is written in one piece while its task holds the send lock. So the stream to the
server is one line for each task that was given a ref-no, in the order of the ref-nos,
whatever becomes of the tasks, and the server can read the requests from it.
-/

namespace Pylyskom

namespace System

/-- A task was given the ref-no for the request. -/
def Numbered (s : System) (refNo : ℕ) (req : Request) : Prop :=
  ∃ (i : ℕ) (q : RequestCall), s.requests[i]? = some q ∧ q.state.refNo = some refNo ∧
    q.request = req

/-- No two tasks were given the same ref-no. -/
def NumberedOnce (s : System) : Prop :=
  ∀ {i j : ℕ} {q p : RequestCall} {refNo : ℕ}, s.requests[i]? = some q →
    s.requests[j]? = some p → q.state.refNo = some refNo → p.state.refNo = some refNo → i = j

/-- The requests with ref-nos are those written, one line for each. -/
structure Lines (s : System) (user : Bytes) (wrote : List (ℕ × Request)) : Prop where
  refNos : wrote.map Prod.fst = List.range' 1 s.client.conn.refNo
  numbered : ∀ {refNo : ℕ} {req : Request}, (refNo, req) ∈ wrote ↔ s.Numbered refNo req
  written : s.client.conn.written =
    ascii "A" ++ toHstring user ++ ascii "\n" ++ (wrote.map requestLine).flatten

variable {user : Bytes} {s t : System} {wrote : List (ℕ × Request)}

/-- Nothing is written, and no ref-no is given out. -/
theorem Lines.congr (h : s.Lines user wrote)
    (hrefNo : t.client.conn.refNo = s.client.conn.refNo)
    (hwritten : t.client.conn.written = s.client.conn.written)
    (hnumbered : ∀ {refNo : ℕ} {req : Request}, t.Numbered refNo req ↔ s.Numbered refNo req) :
    t.Lines user wrote where
  refNos := by rw [hrefNo, h.refNos]
  numbered := h.numbered.trans hnumbered.symm
  written := hwritten.trans h.written

/-- The ref-nos of the other tasks, and that of the task that comes to a new state. -/
theorem numbered_setState {i : ℕ} {q : RequestCall} (found : s.requests[i]? = some q)
    (state : RequestState) (refNo : ℕ) (req : Request) :
    (s.setState i q state).Numbered refNo req ↔
      (state.refNo = some refNo ∧ q.request = req) ∨
      ∃ j p, j ≠ i ∧ s.requests[j]? = some p ∧ p.state.refNo = some refNo ∧ p.request = req := by
  constructor
  · rintro ⟨j, p, hp, hrefNo, hreq⟩
    rcases (getElem?_set_eq_some_iff found).mp hp with ⟨-, rfl⟩ | ⟨hj, hp⟩
    · exact Or.inl ⟨hrefNo, hreq⟩
    · exact Or.inr ⟨j, p, hj, hp, hrefNo, hreq⟩
  · rintro (⟨hrefNo, hreq⟩ | ⟨j, p, hj, hp, hrefNo, hreq⟩)
    · exact ⟨i, { q with state }, (getElem?_set_eq_some_iff found).mpr (Or.inl ⟨rfl, rfl⟩),
        hrefNo, hreq⟩
    · exact ⟨j, p, (getElem?_set_eq_some_iff found).mpr (Or.inr ⟨hj, hp⟩), hrefNo, hreq⟩

/-- A task keeps its ref-no. -/
theorem Lines.setState (h : s.Lines user wrote) {i : ℕ} {q : RequestCall}
    (found : s.requests[i]? = some q) {state : RequestState}
    (same : state.refNo = q.state.refNo) : (s.setState i q state).Lines user wrote := by
  refine h.congr rfl rfl fun {refNo req} => ?_
  rw [numbered_setState found, same]
  constructor
  · rintro (⟨hrefNo, hreq⟩ | ⟨j, p, -, hp, hrefNo, hreq⟩)
    · exact ⟨i, q, found, hrefNo, hreq⟩
    · exact ⟨j, p, hp, hrefNo, hreq⟩
  · rintro ⟨j, p, hp, hrefNo, hreq⟩
    by_cases hj : j = i
    · subst hj
      obtain rfl : q = p := Option.some.inj (found.symm.trans hp)
      exact Or.inl ⟨hrefNo, hreq⟩
    · exact Or.inr ⟨j, p, hj, hp, hrefNo, hreq⟩

/-- What a task writes when it is given the next ref-no. -/
theorem send_written (howned : s.Owned) (i : ℕ) (q : RequestCall) :
    s.send i q = { (s.setConn { s.client.conn with
        refNo := s.client.conn.refNo + 1
        outstandingRequests := s.client.conn.outstandingRequests.set
          (s.client.conn.refNo + 1) q.request.callNo
        written := s.client.conn.written ++ requestLine (s.client.conn.refNo + 1, q.request)
      }).setState i q (.draining (s.client.conn.refNo + 1)) with
      issued := s.issued.set (s.client.conn.refNo + 1) q.request.callNo } := by
  have hfresh : s.client.conn.refNo + 1 ∉ s.client.conn.outstandingRequests := by
    intro hmem
    obtain ⟨callNo, hcall⟩ := Option.isSome_iff_exists.mp (Dict.mem_iff_isSome.mp hmem)
    exact howned.fresh (Dict.mem_of_get? (howned.outstanding_issued hcall))
  rw [send, AioConnection.sendRequest, if_neg hfresh]
  rfl

/-- A new line is written for a task that had no ref-no. -/
theorem Lines.send (h : s.Lines user wrote) (howned : s.Owned) {i : ℕ} {q : RequestCall}
    (found : s.requests[i]? = some q) (unnumbered : q.state.refNo = none) :
    (s.send i q).Lines user (wrote ++ [(s.client.conn.refNo + 1, q.request)]) := by
  rw [send_written howned]
  constructor
  · change _ = List.range' 1 (s.client.conn.refNo + 1)
    rw [List.map_append, h.refNos, List.range'_1_concat, Nat.add_comm 1]
    rfl
  · intro refNo req
    have hnumbered := numbered_setState (s := s) found (.draining (s.client.conn.refNo + 1))
      refNo req
    refine Iff.trans ?_ hnumbered.symm
    rw [List.mem_append, h.numbered, List.mem_singleton, Prod.mk.injEq]
    constructor
    · rintro (⟨j, p, hp, hrefNo, hreq⟩ | ⟨rfl, rfl⟩)
      · refine Or.inr ⟨j, p, ?_, hp, hrefNo, hreq⟩
        rintro rfl
        obtain rfl : q = p := Option.some.inj (found.symm.trans hp)
        rw [unnumbered] at hrefNo
        cases hrefNo
      · exact Or.inl ⟨rfl, rfl⟩
    · rintro (⟨hrefNo, hreq⟩ | ⟨j, p, -, hp, hrefNo, hreq⟩)
      · exact Or.inr ⟨(Option.some.inj hrefNo).symm, hreq.symm⟩
      · exact Or.inl ⟨j, p, hp, hrefNo, hreq⟩
  · change s.client.conn.written ++ _ = _
    rw [h.written, List.map_append, List.flatten_append, List.append_assoc]
    simp

/-- Trying to parse writes nothing. -/
theorem Lines.tryParse (h : s.Lines user wrote) : s.tryParse.Lines user wrote := by
  have hnumbered : ∀ {refNo : ℕ} {req : Request},
      s.tryParse.Numbered refNo req ↔ s.Numbered refNo req := fun {refNo req} => by
    unfold Numbered
    rw [requests_tryParse]
  rcases s.tryParse_cases with ⟨response, buffer, -, heq⟩ | ⟨e, buffer, -, heq⟩ | heq
  · exact h.congr (by rw [heq]; rfl) (by rw [heq]; rfl) hnumbered
  · exact h.congr (by rw [heq]; rfl) (by rw [heq]; rfl) hnumbered
  · exact h.congr (by rw [heq]) (by rw [heq]) hnumbered

end System

/-- A step writes one line or nothing. -/
theorem Step.lines {user : Bytes} {s t : System} {a : Action} {wrote : List (ℕ × Request)}
    (hstep : Step s a t) (howned : s.Owned) (h : s.Lines user wrote) :
    ∃ wrote', t.Lines user wrote' := by
  cases hstep with
  | call request =>
    refine ⟨wrote, h.congr rfl rfl fun {refNo req} => ?_⟩
    constructor
    · rintro ⟨j, p, hp, hrefNo, hreq⟩
      rcases getElem?_append_singleton_iff.mp hp with ⟨-, rfl⟩ | hp
      · cases hrefNo
      · exact ⟨j, p, hp, hrefNo, hreq⟩
    · rintro ⟨j, p, hp, hrefNo, hreq⟩
      exact ⟨j, p, getElem?_append_singleton_iff.mpr (Or.inr hp), hrefNo, hreq⟩
  | send found starting free usable => exact ⟨_, h.send howned found (by rw [starting]; rfl)⟩
  | refuse found starting free closed =>
    exact ⟨wrote, h.setState found (by rw [starting]; rfl)⟩
  | @register i q refNo found draining =>
    rcases s.register_cases i q refNo with ⟨-, heq⟩ | heq
    · rw [heq]
      exact ⟨wrote, h.setState found (by rw [draining]; rfl)⟩
    · rw [heq]
      have hkept : (s.setState i q (.waiting refNo)).Lines user wrote :=
        h.setState found (by rw [draining]; rfl)
      exact ⟨wrote, hkept.congr rfl rfl Iff.rfl⟩
  | @wake i q refNo found waiting set =>
    have hkept : (s.setState i q (.done refNo (s.client.endRequest refNo false).1)).Lines user
        wrote := h.setState found (by rw [waiting]; rfl)
    refine ⟨wrote, hkept.congr ?_ ?_ Iff.rfl⟩
    · exact congrArg AioConnection.refNo (s.client.conn_endRequest refNo false)
    · exact congrArg AioConnection.written (s.client.conn_endRequest refNo false)
  | poll => exact ⟨wrote, h.tryParse⟩
  | read => exact ⟨wrote, System.Lines.tryParse (h.congr rfl rfl Iff.rfl)⟩
  | @receive response received =>
    refine ⟨wrote, h.congr ?_ ?_ Iff.rfl⟩
    · exact congrArg AioConnection.refNo (s.client.conn_receiveResponse response.1 response.2)
    · exact congrArg AioConnection.written (s.client.conn_receiveResponse response.1 response.2)
  | cancel found cancelled =>
    refine ⟨wrote, h.setState found ?_⟩
    revert cancelled
    cases (‹RequestCall› : RequestCall).state <;> rintro ⟨⟩ <;> rfl
  | drainFails found draining => exact ⟨wrote, h.setState found (by rw [draining]; rfl)⟩
  | endOfStream | readFails | serverSends | serverBytes | serverEof | getMessage | handle | finish
  | closeTasks | disconnect => exact ⟨wrote, h.congr rfl rfl Iff.rfl⟩

theorem Run.lines {allowed : System → Action → Prop} {user : Bytes} {s : System}
    (h : Run Step allowed (.connected user) s) : ∃ wrote, s.Lines user wrote := by
  refine h.induct (P := fun s => ∃ wrote, s.Lines user wrote) ⟨[], ?_⟩ ?_
  · refine ⟨rfl, ?_, by simp [System.connected, AioConnection.connected]⟩
    simp [System.connected, System.Numbered]
  · rintro u a v hrun - hstep ⟨wrote, hwrote⟩
    exact hstep.lines hrun.invariants.1 hwrote

/-! ## What the server reads -/

/-- The values of a list that are made from others. -/
theorem exists_map_eq {α β γ : Type} {f : β → γ} {g : α → γ} {P : β → Prop} {l : List α}
    (h : ∀ a ∈ l, ∃ b, P b ∧ f b = g a) : ∃ l' : List β, l'.map f = l.map g ∧ ∀ b ∈ l', P b := by
  induction l with
  | nil => exact ⟨[], rfl, by simp⟩
  | cons a l ih =>
    obtain ⟨b, hb, heq⟩ := h a List.mem_cons_self
    obtain ⟨l', hl', hall⟩ := ih fun a ha => h a (List.mem_cons_of_mem _ ha)
    refine ⟨b :: l', by rw [List.map_cons, List.map_cons, heq, hl'], ?_⟩
    exact List.forall_mem_cons.mpr ⟨hb, hall⟩

/-- The lines of requests are read as the requests. -/
theorem recovered_lines {μ : Type} {readMiscInfo : Parser μ} {f : CookedMiscInfo → μ}
    (hread : ReadsMiscInfo readMiscInfo f) {reqs : List TypedRequest}
    (hsend : ∀ req ∈ reqs, req.Sendable) :
    Recovered readMiscInfo f reqs (requestLines reqs).flatten := by
  let numbered := reqs.mapIdx fun i req => (i + 1, req)
  have hnumbered : ∀ x ∈ numbered, x.2.Sendable := by
    intro x hx
    obtain ⟨i, hi, rfl⟩ := List.mem_mapIdx.mp hx
    exact hsend _ (List.getElem_mem hi)
  obtain ⟨rest, hrest, hrun⟩ := readRequests_lines hread hnumbered (Or.inl rfl)
  have hlines : (numbered.map fun x => decimal x.1 ++ ascii " " ++ x.2.request.toString) =
      requestLines reqs :=
    List.ext_getElem (by simp [numbered]) (by simp [numbered, requestLines, requestLine])
  have hvalues : (numbered.map fun x => x.2.received f x.1) =
      reqs.mapIdx fun i req => req.received f (i + 1) :=
    List.ext_getElem (by simp [numbered]) (by simp [numbered])
  have hcount : numbered.length = reqs.length := List.length_mapIdx
  rw [hlines, hvalues, hcount, List.nil_append] at hrun
  exact ⟨rest, hrun, readRequest_leftover hrest⟩

/-- What was written is read as the requests of the tasks with ref-nos. -/
theorem System.Lines.mem_iff {user : Bytes} {s : System} {wrote : List (ℕ × Request)}
    (h : s.Lines user wrote) {refNo : ℕ} {req : Request} :
    s.Numbered refNo req ↔ 1 ≤ refNo ∧ (wrote.map Prod.snd)[refNo - 1]? = some req := by
  have hfst : ∀ {k : ℕ} {x : ℕ × Request}, wrote[k]? = some x → x.1 = k + 1 := by
    intro k x hx
    have hk : (wrote.map Prod.fst)[k]? = some x.1 := by rw [List.getElem?_map, hx]; rfl
    rw [h.refNos, List.getElem?_eq_some_iff] at hk
    obtain ⟨hlt, hk⟩ := hk
    rw [← hk, List.getElem_range', Nat.one_mul, Nat.add_comm]
  rw [← h.numbered]
  constructor
  · intro hmem
    obtain ⟨k, hk⟩ := List.getElem?_of_mem hmem
    obtain rfl : refNo = k + 1 := hfst hk
    refine ⟨by omega, ?_⟩
    rw [List.getElem?_map, Nat.add_sub_cancel, hk]
    rfl
  · rintro ⟨hpos, hreq⟩
    rw [List.getElem?_map, Option.map_eq_some_iff] at hreq
    obtain ⟨x, hx, rfl⟩ := hreq
    have hx1 := hfst hx
    have hpair : (refNo, x.2) = x := Prod.ext (by omega) rfl
    rw [hpair]
    exact List.mem_of_getElem? hx

/-- **Concurrent requests are written whole, one after the other.** In every state of every run,
whichever tasks are cancelled and whatever the server sends, what is written after the greeting
is one whole line for each task that was given a ref-no, in the order of these, no two tasks
have the same one, and the server reads the requests from it. -/
theorem Run.requests_decoded {allowed : System → Action → Prop} {user : Bytes} {s : System}
    (h : Run Step allowed (.connected user) s)
    (htyped : ∀ q ∈ s.requests, ∃ req : TypedRequest, req.Sendable ∧ req.request = q.request) :
    ∃ (reqs : List TypedRequest) (bytes : Bytes),
      s.client.conn.written = ascii "A" ++ toHstring user ++ ascii "\n" ++ bytes ∧
      bytes = (requestLines reqs).flatten ∧
      (∀ refNo req, s.Numbered refNo req ↔
        1 ≤ refNo ∧ (reqs.map TypedRequest.request)[refNo - 1]? = some req) ∧
      s.NumberedOnce ∧
      Recovered readTuples CookedMiscInfo.sentTuples reqs bytes ∧
      Recovered CookedMiscInfo.parse CookedMiscInfo.sent reqs bytes := by
  obtain ⟨wrote, hwrote⟩ := h.lines
  have htyped : ∀ x ∈ wrote, ∃ req : TypedRequest, req.Sendable ∧ req.request = x.2 := by
    rintro ⟨refNo, req⟩ hx
    obtain ⟨i, q, hq, -, rfl⟩ := hwrote.numbered.mp hx
    exact htyped q (List.mem_of_getElem? hq)
  obtain ⟨reqs, hreqs, hsend⟩ := exists_map_eq htyped
  have hbytes : wrote.map requestLine = requestLines reqs := by
    have hlen : wrote.length = reqs.length := by simpa using (congrArg List.length hreqs).symm
    refine List.ext_getElem (by simp [hlen]) fun k hk hk' => ?_
    have hk : k < wrote.length := by simpa using hk
    have hk' : k < reqs.length := by omega
    have hfst : wrote[k].1 = k + 1 := by
      have hget := List.getElem_of_eq hwrote.refNos (i := k) (by simpa using hk)
      simpa [Nat.add_comm] using hget
    have hsnd : wrote[k].2 = reqs[k].request := by
      have hget := List.getElem_of_eq hreqs.symm (i := k) (by simpa using hk)
      simpa using hget
    simp [hfst, hsnd, requestLines, requestLine]
  refine ⟨reqs, _, hwrote.written, by rw [hbytes], fun refNo req => ?_, ?_, ?_, ?_⟩
  · rw [hreqs]
    exact hwrote.mem_iff
  · exact h.invariants.1.unique
  · rw [hbytes]
    exact recovered_lines (fun _ hinfo => hinfo.readTuples_reads) hsend
  · rw [hbytes]
    exact recovered_lines (fun _ hinfo => hinfo.parse_reads) hsend

/-- Two tasks, the first of which is cancelled when its request is written. -/
theorem Run.requests_decoded_sample :
    ∃ (s : System) (reqs : List TypedRequest) (bytes : Bytes),
      s.requests.map (fun q => q.state) =
        [.failedDraining 1 (.builtinError .cancelledError), .draining 2] ∧
      s.client.conn.written = ascii "A" ++ toHstring (ascii "me") ++ ascii "\n" ++ bytes ∧
      bytes = (requestLines reqs).flatten ∧
      (∀ refNo req, s.Numbered refNo req ↔
        1 ≤ refNo ∧ (reqs.map TypedRequest.request)[refNo - 1]? = some req) ∧
      s.NumberedOnce ∧
      Recovered readTuples CookedMiscInfo.sentTuples reqs bytes ∧
      Recovered CookedMiscInfo.parse CookedMiscInfo.sent reqs bytes := by
  have hrun : ∃ s, Run Step (fun _ _ => True) (.connected (ascii "me")) s ∧
      s.requests.map (fun q => q.state) =
        [.failedDraining 1 (.builtinError .cancelledError), .draining 2] ∧
      s.requests.map (fun q => q.request) = [sampleRequest.request, sampleRequest.request] := by
    refine Run.reach trivial (.call sampleRequest.request) ?_
    refine Run.reach trivial (.call sampleRequest.request) ?_
    refine Run.reach trivial (@Step.send _ 0 _ rfl rfl rfl (by decide)) ?_
    refine Run.reach trivial (@Step.cancel _ 0 _ _ rfl rfl) ?_
    refine Run.reach trivial (@Step.send _ 1 _ rfl rfl rfl (by decide)) ?_
    exact ⟨_, Run.refl, rfl, rfl⟩
  have hsend : sampleRequest.Sendable := by
    intro info hinfo
    obtain rfl : info = sampleMiscInfo := by simpa [sampleRequest] using hinfo
    exact ⟨by decide, by decide⟩
  obtain ⟨s, hrun, hstates, hrequests⟩ := hrun
  have htyped : ∀ q ∈ s.requests,
      ∃ req : TypedRequest, req.Sendable ∧ req.request = q.request := by
    intro q hq
    have hmem : q.request ∈ s.requests.map fun q => q.request := List.mem_map_of_mem hq
    rw [hrequests] at hmem
    exact ⟨sampleRequest, hsend, (show q.request = _ by simpa using hmem).symm⟩
  obtain ⟨reqs, bytes, hall⟩ := Run.requests_decoded hrun htyped
  exact ⟨s, reqs, bytes, hstates, hall⟩

end Pylyskom
