import Pylyskom.Responses
import Pylyskom.Reader.Source
import Pylyskom.Reader.Pieces

/-!
# The blocking connection

`ReceiveBuffer` and `Connection` of `connection.py`. The receive buffer is shown to be
a source of the bytes that it holds and that its socket still delivers.
-/

namespace Pylyskom

/-- The buffer and the socket it fills up from. -/
structure ReceiveBuffer where
  socket : Pieces
  /-- Buffer for data received from connection. -/
  rb : Bytes
  /-- Length of the buffer. -/
  rbLen : ℕ
  /-- Position of first unread byte in buffer. -/
  rbPos : ℕ
  rbLen_eq : rbLen = rb.length
  rbPos_le : rbPos ≤ rbLen

namespace ReceiveBuffer

/-- The buffer that `__init__` sets up. -/
def init (socket : Pieces) : ReceiveBuffer where
  socket
  rb := []
  rbLen := 0
  rbPos := 0
  rbLen_eq := rfl
  rbPos_le := Nat.le_refl 0

/-- The bytes that are still to be received, from the buffer and then from the socket. -/
def unread (self : ReceiveBuffer) : Bytes := self.rb.drop self.rbPos ++ self.socket.bytes

/-- Append what the socket delivered to the unread part of the buffer. -/
def refill (self : ReceiveBuffer) (data : Bytes) (socket : Pieces) : ReceiveBuffer where
  socket
  rb := self.rb.drop self.rbPos ++ data
  rbLen := (self.rb.drop self.rbPos ++ data).length
  rbPos := 0
  rbLen_eq := rfl
  rbPos_le := Nat.zero_le _

/-- A buffer that holds at least `size` unread bytes. -/
abbrev Holding (size : ℕ) := { buf : ReceiveBuffer // size ≤ buf.rbLen - buf.rbPos }

/-- Ensure that there are at least `size` bytes in the receive buffer; an error is the
`ReceiveError` at the end of the stream. -/
def ensureReceiveBufferSize (self : ReceiveBuffer) (size : ℕ) :
    Except ReceiveBuffer (Holding size) :=
  let present := self.rbLen - self.rbPos
  if h : size ≤ present then .ok ⟨self, h⟩
  else
    let needed := size - present
    let wanted := max needed 128
    let recv := self.socket.recv wanted
    if _hdata : recv.1 = [] then .error self
    else (self.refill recv.1 recv.2).ensureReceiveBufferSize size
termination_by self.socket.bytes.length
decreasing_by exact Pieces.recv_length_lt _hdata

/-- The slice of `length` bytes from the position on. -/
def slice (self : ReceiveBuffer) (length : ℕ) : Bytes := (self.rb.drop self.rbPos).take length

/-- Move the position past bytes that are in the buffer. -/
def advance {length : ℕ} (buf : Holding length) : ReceiveBuffer where
  socket := buf.1.socket
  rb := buf.1.rb
  rbLen := buf.1.rbLen
  rbPos := buf.1.rbPos + length
  rbLen_eq := buf.1.rbLen_eq
  rbPos_le := by
    have hpos := buf.1.rbPos_le
    have hsize := buf.2
    omega

/-- Get a string from the receive buffer (receiving more if necessary). -/
def receiveString (self : ReceiveBuffer) (length : ℕ) :
    Except ReceiveBuffer (Bytes × ReceiveBuffer) :=
  match self.ensureReceiveBufferSize length with
  | .error buf => .error buf
  | .ok buf => .ok (buf.1.slice length, advance buf)

/-- The first unread byte of a buffer that has one. -/
def first (buf : Holding 1) : UInt8 :=
  have h : buf.1.rbPos < buf.1.rb.length := by
    have hsize := buf.2
    have hlen := buf.1.rbLen_eq
    omega
  buf.1.rb[buf.1.rbPos]

/-- Get a character from the receive buffer (receiving more if necessary). -/
def receiveChar (self : ReceiveBuffer) : Except ReceiveBuffer (UInt8 × ReceiveBuffer) :=
  match self.ensureReceiveBufferSize 1 with
  | .error buf => .error buf
  | .ok buf => .ok (first buf, advance buf)

theorem unread_refill {self : ReceiveBuffer} {data : Bytes} {socket : Pieces}
    (h : data ++ socket.bytes = self.socket.bytes) :
    (self.refill data socket).unread = self.unread := by
  simp [unread, refill, ← h]

/-- The loop ends with enough bytes in the buffer, and with the same bytes unread. -/
theorem ensureReceiveBufferSize_ok {self : ReceiveBuffer} {size : ℕ}
    (h : size ≤ self.unread.length) :
    ∃ buf, self.ensureReceiveBufferSize size = .ok buf ∧ buf.1.unread = self.unread := by
  induction hn : self.socket.bytes.length using Nat.strong_induction_on generalizing self with
  | _ n ih =>
    rw [ensureReceiveBufferSize]
    by_cases hpresent : size ≤ self.rbLen - self.rbPos
    · exact ⟨⟨self, hpresent⟩, by simp [hpresent], rfl⟩
    · simp only [hpresent, dite_false]
      set recv := self.socket.recv (max (size - (self.rbLen - self.rbPos)) 128)
      have hbytes : recv.1 ++ recv.2.bytes = self.socket.bytes := Pieces.recv_bytes _ _
      have hne : recv.1 ≠ [] := by
        intro hnil
        have hempty : self.socket.bytes = [] := (Pieces.recv_eq_nil_iff (by omega)).mp hnil
        have hlen := self.rbLen_eq
        simp only [unread, hempty, List.append_nil, List.length_drop] at h
        omega
      have hunread := unread_refill hbytes
      have hlt : recv.2.bytes.length < n := hn ▸ Pieces.recv_length_lt hne
      obtain ⟨buf, hbuf, hsame⟩ := ih _ hlt (hunread ▸ h) rfl
      exact ⟨buf, by simp [hne, hbuf], hsame.trans hunread⟩

/-- If too few bytes are still to come, the loop meets the end of the stream. -/
theorem ensureReceiveBufferSize_error {self : ReceiveBuffer} {size : ℕ}
    (h : self.unread.length < size) : ∃ buf, self.ensureReceiveBufferSize size = .error buf := by
  induction hn : self.socket.bytes.length using Nat.strong_induction_on generalizing self with
  | _ n ih =>
    rw [ensureReceiveBufferSize]
    have hpresent : ¬ size ≤ self.rbLen - self.rbPos := by
      have hlen := self.rbLen_eq
      simp only [unread, List.length_append, List.length_drop] at h
      omega
    simp only [hpresent, dite_false]
    set recv := self.socket.recv (max (size - (self.rbLen - self.rbPos)) 128)
    by_cases hnil : recv.1 = []
    · exact ⟨self, by simp [hnil]⟩
    · have hbytes : recv.1 ++ recv.2.bytes = self.socket.bytes := Pieces.recv_bytes _ _
      have hunread := unread_refill hbytes
      have hlt : recv.2.bytes.length < n := hn ▸ Pieces.recv_length_lt hnil
      obtain ⟨buf, hbuf⟩ := ih _ hlt (hunread ▸ h) rfl
      exact ⟨buf, by simp [hnil, hbuf]⟩

/-- The bytes in the buffer are the first unread ones. -/
theorem slice_eq {size : ℕ} (buf : Holding size) :
    buf.1.slice size = buf.1.unread.take size ∧ (advance buf).unread = buf.1.unread.drop size := by
  have hsize : size ≤ (buf.1.rb.drop buf.1.rbPos).length := by
    have h := buf.2
    have hlen := buf.1.rbLen_eq
    rw [List.length_drop]
    omega
  constructor
  · rw [slice, unread, List.take_append_of_le_length hsize]
  · rw [unread, unread, List.drop_append_of_le_length hsize, List.drop_drop]
    rfl

/-- The byte at the position is the first unread one. -/
theorem unread_eq_first_cons (buf : Holding 1) :
    buf.1.unread = first buf :: (advance buf).unread := by
  have hpos : buf.1.rbPos < buf.1.rb.length := by
    have hsize := buf.2
    have hlen := buf.1.rbLen_eq
    omega
  rw [unread, List.drop_eq_getElem_cons hpos]
  rfl

/-- **The receive buffer is a source of its unread bytes.** -/
def source : Source ReceiveBuffer where
  unread := unread
  receiveString := receiveString
  receiveChar := receiveChar
  string_ok := by
    intro self n h
    obtain ⟨buf, hbuf, hunread⟩ := ensureReceiveBufferSize_ok h
    obtain ⟨hslice, hrest⟩ := slice_eq buf
    exact ⟨advance buf, by simp [receiveString, hbuf, hslice, hunread],
      hrest.trans (by rw [hunread])⟩
  string_short := by
    intro self n h
    obtain ⟨buf, hbuf⟩ := ensureReceiveBufferSize_error h
    exact ⟨buf, by simp [receiveString, hbuf]⟩
  char_ok := by
    intro self c r h
    have hlen : 1 ≤ self.unread.length := by simp [h]
    obtain ⟨buf, hbuf, hunread⟩ := ensureReceiveBufferSize_ok hlen
    rw [h, unread_eq_first_cons buf, List.cons.injEq] at hunread
    exact ⟨advance buf, by simp [receiveChar, hbuf, hunread.1], hunread.2⟩
  char_short := by
    intro self h
    have hlen : self.unread.length < 1 := by simp [h]
    obtain ⟨buf, hbuf⟩ := ensureReceiveBufferSize_error hlen
    exact ⟨buf, by simp [receiveChar, hbuf]⟩

end ReceiveBuffer

/-! ## The connection -/

/-- A connection after the initial exchange. What it has written so far stands for the
sending half of the socket. -/
structure Connection where
  buffer : ReceiveBuffer
  /-- Last used ID (i.e. increment before use). -/
  refNo : ℕ
  /-- Ref-No to Request mapping. -/
  outstandingRequests : Dict ℕ Request
  written : Bytes

namespace Connection

variable {α : Type}

/-- Let a parser read from the receive buffer. -/
def receive (self : Connection) (m : Parser α) : Outcome Exn α Connection :=
  (ReceiveBuffer.source.exec m self.buffer).mapRest fun buffer => { self with buffer }

/-- `del self._outstanding_requests[ref_no]` -/
def delOutstanding (self : Connection) (refNo : ℕ) : Connection :=
  { self with outstandingRequests := self.outstandingRequests.erase refNo }

def parseOkReply (self : Connection) : Outcome Exn Response Connection :=
  (self.receive readInt).andThen fun refNo self =>
    match self.outstandingRequests.get? refNo with
    | none => .raised (.localError (.badRequestId refNo)) self
    | some req =>
      (self.receive (parseReplyTo req.callNo)).andThen fun resp self =>
        .returned (.ok refNo resp) (self.delOutstanding refNo)

def parseErrorReply (self : Connection) : Outcome Exn Response Connection :=
  (self.receive readInt).andThen fun refNo self =>
    if refNo ∉ self.outstandingRequests then .raised (.localError (.badRequestId refNo)) self
    else
      (self.receive parseError).andThen fun error self =>
        .returned (.error refNo error) (self.delOutstanding refNo)

def parseAsynchronousMessage (self : Connection) : Outcome Exn Response Connection :=
  (self.receive parseAsync).andThen fun msg self => .returned (.async msg) self

def parseResponse (self : Connection) : Outcome Exn Response Connection :=
  (self.receive readFirstNonWs).andThen fun ch self =>
    if ch = '='.toUInt8 then self.parseOkReply
    else if ch = '%'.toUInt8 then self.parseErrorReply
    else if ch = ':'.toUInt8 then self.parseAsynchronousMessage
    else .raised (.localError (.protocolError (some ch))) self

/-- One call: its result and the connection after it. The receive buffer raises
`ReceiveError` at the end of the stream. -/
def readResponse (self : Connection) : Except Exn Response × Connection :=
  match self.parseResponse with
  | .returned resp self => (.ok resp, self)
  | .raised e self => (.error e, self)
  | .starved self => (.error (.localError .receiveError), self)

def sendRequest (self : Connection) (req : Request) : Except Exn ℕ × Connection :=
  let refNo := self.refNo + 1
  if refNo ∈ self.outstandingRequests then
    (.error (.builtinError .assertionError), { self with refNo })
  else
    (.ok refNo,
      { self with
        refNo
        written := self.written ++ (decimal refNo ++ ascii " " ++ req.toString)
        outstandingRequests := self.outstandingRequests.set refNo req })

/-- The call that each outstanding ref-no was sent for. -/
def calls (self : Connection) (refNo : ℕ) : Option ℕ :=
  (self.outstandingRequests.get? refNo).map Request.callNo

/-- The connection after a response. -/
def settle (self : Connection) (resp : Response) : Connection :=
  { self with outstandingRequests := resp.settle self.outstandingRequests }

/-- The bytes that are still to be received. -/
def unread (self : Connection) : Bytes := self.buffer.unread

@[simp] theorem receive_pure (self : Connection) (a : α) :
    self.receive (pure a) = .returned a self := rfl

@[simp] theorem receive_raise (self : Connection) (e : Exn) :
    self.receive (Reader.raise e : Parser α) = .raised e self := rfl

/-- Parsing in sequence is parsing one after the other. -/
theorem receive_bind {β : Type} (self : Connection) (m : Parser α) (f : α → Parser β) :
    self.receive (m >>= f) = (self.receive m).andThen fun a self => self.receive (f a) := by
  unfold receive
  rw [Source.exec_bind]
  cases ReceiveBuffer.source.exec m self.buffer <;> rfl

/-- Parsing changes nothing but the buffer. -/
theorem receive_andThen_congr {β : Type} {self : Connection} {m : Parser α}
    {f g : α → Connection → Outcome Exn β Connection}
    (h : ∀ a buffer, f a { self with buffer } = g a { self with buffer }) :
    (self.receive m).andThen f = (self.receive m).andThen g := by
  unfold receive
  cases ReceiveBuffer.source.exec m self.buffer with
  | returned a buffer => exact h a buffer
  | raised e buffer => rfl
  | starved buffer => rfl

theorem parseOkReply_eq (self : Connection) :
    self.parseOkReply =
      (self.receive (do
        let refNo ← readInt
        let callNo ← callOf self.calls refNo
        let reply ← parseReplyTo callNo
        return .ok refNo reply)).andThen fun resp self => .returned resp (self.settle resp) := by
  rw [parseOkReply, receive_bind, Outcome.andThen_assoc]
  refine receive_andThen_congr fun refNo buffer => ?_
  cases hreq : self.outstandingRequests.get? refNo with
  | none => simp [callOf, calls, hreq]
  | some req =>
    simp only [callOf, calls, hreq, Option.map_some, pure_bind, receive_bind, Outcome.andThen_assoc,
      receive_pure, Outcome.andThen_returned]
    rfl

theorem parseErrorReply_eq (self : Connection) :
    self.parseErrorReply =
      (self.receive (do
        let refNo ← readInt
        let _ ← callOf self.calls refNo
        let error ← parseError
        return .error refNo error)).andThen fun resp self => .returned resp (self.settle resp) := by
  rw [parseErrorReply, receive_bind, Outcome.andThen_assoc]
  refine receive_andThen_congr fun refNo buffer => ?_
  cases hreq : self.outstandingRequests.get? refNo with
  | none => simp [callOf, calls, hreq, Dict.get?_eq_none_iff.mp hreq]
  | some req =>
    simp only [callOf, calls, hreq, Option.map_some, pure_bind, receive_bind, Outcome.andThen_assoc,
      receive_pure, Outcome.andThen_returned, Dict.mem_of_get? hreq, not_true_eq_false, if_false]
    rfl

/-- A call runs the response parser on the receive buffer, and then deletes the ref-no of
a reply. -/
theorem parseResponse_eq (self : Connection) :
    self.parseResponse =
      (self.receive (responseParser self.calls)).andThen fun resp self =>
        .returned resp (self.settle resp) := by
  rw [parseResponse, responseParser, receive_bind, Outcome.andThen_assoc]
  refine receive_andThen_congr fun ch buffer => ?_
  split_ifs
  · exact parseOkReply_eq { self with buffer }
  · exact parseErrorReply_eq { self with buffer }
  · rw [parseAsynchronousMessage, receive_bind, Outcome.andThen_assoc]
    rfl
  · rfl

/-- **A call of `read_response`** ends as the response parser ends on the unread bytes. -/
theorem readResponse_spec (self : Connection) :
    match (responseParser self.calls).run self.unread with
    | .returned resp rest => ∃ conn, self.readResponse = (.ok resp, conn) ∧ conn.unread = rest ∧
        conn.outstandingRequests = resp.settle self.outstandingRequests
    | .raised e rest => ∃ conn, self.readResponse = (.error e, conn) ∧ conn.unread = rest ∧
        conn.outstandingRequests = self.outstandingRequests
    | .starved _ => ∃ conn, self.readResponse = (.error (.localError .receiveError), conn) := by
  have hparse := self.parseResponse_eq
  unfold receive at hparse
  cases hrun : (responseParser self.calls).run self.unread with
  | returned resp rest =>
    obtain ⟨buffer, hexec, hrest⟩ := ReceiveBuffer.source.exec_returned hrun
    rw [hexec] at hparse
    exact ⟨({ self with buffer } : Connection).settle resp, by rw [readResponse, hparse]; rfl,
      hrest, rfl⟩
  | raised e rest =>
    obtain ⟨buffer, hexec, hrest⟩ := ReceiveBuffer.source.exec_raised hrun
    rw [hexec] at hparse
    exact ⟨{ self with buffer }, by rw [readResponse, hparse]; rfl, hrest, rfl⟩
  | starved rest =>
    obtain ⟨buffer, hexec⟩ := ReceiveBuffer.source.exec_starved hrun
    rw [hexec] at hparse
    exact ⟨{ self with buffer }, by rw [readResponse, hparse]; rfl⟩

/-- A call that returns has run the response parser, and settles the response. A call that
raises has only moved the receive buffer. -/
theorem readResponse_cases (self : Connection) :
    (∃ resp conn, self.readResponse = (.ok resp, conn) ∧
      (responseParser self.calls).run self.unread = .returned resp conn.unread ∧
      conn.refNo = self.refNo ∧ conn.written = self.written ∧
      conn.outstandingRequests = resp.settle self.outstandingRequests) ∨
    ∃ e conn, self.readResponse = (.error e, conn) ∧ conn.refNo = self.refNo ∧
      conn.written = self.written ∧ conn.outstandingRequests = self.outstandingRequests := by
  have hparse := self.parseResponse_eq
  unfold receive at hparse
  cases hrun : (responseParser self.calls).run self.unread with
  | returned resp rest =>
    obtain ⟨buffer, hexec, rfl⟩ := ReceiveBuffer.source.exec_returned hrun
    rw [hexec] at hparse
    exact Or.inl ⟨resp, ({ self with buffer } : Connection).settle resp,
      by rw [readResponse, hparse]; rfl, rfl, rfl, rfl, rfl⟩
  | raised e rest =>
    obtain ⟨buffer, hexec, -⟩ := ReceiveBuffer.source.exec_raised hrun
    rw [hexec] at hparse
    exact Or.inr ⟨e, { self with buffer }, by rw [readResponse, hparse]; rfl, rfl, rfl, rfl⟩
  | starved rest =>
    obtain ⟨buffer, hexec⟩ := ReceiveBuffer.source.exec_starved hrun
    rw [hexec] at hparse
    exact Or.inr ⟨.localError .receiveError, { self with buffer },
      by rw [readResponse, hparse]; rfl, rfl, rfl, rfl⟩

/-- A response that is returned is to an outstanding ref-no, if it has one. -/
theorem outstanding_of_returned (self : Connection) {resp : Response} {rest : Bytes}
    (hrun : (responseParser self.calls).run self.unread = .returned resp rest) {refNo : ℕ}
    (hrefNo : resp.refNo = some refNo) :
    ∃ req, self.outstandingRequests.get? refNo = some req := by
  have hread := responseParser_returned hrun
  have hcall : ∃ callNo, self.calls refNo = some callNo := by
    cases resp with
    | ok r reply =>
      cases hrefNo
      obtain ⟨callNo, -, -, -, hcall, -⟩ := hread
      exact ⟨callNo, hcall⟩
    | error r error =>
      cases hrefNo
      exact hread
    | async msg => cases hrefNo
  obtain ⟨callNo, hcall⟩ := hcall
  obtain ⟨req, hreq, -⟩ := Option.map_eq_some_iff.mp hcall
  exact ⟨req, hreq⟩

/-! ## Sequences of calls -/

/-- The results of `n` calls of `read_response`, and the connection after them. -/
def readResponses : ℕ → Connection → List (Except Exn Response) × Connection
  | 0, self => ([], self)
  | n + 1, self =>
    let call := self.readResponse
    let calls := readResponses n call.2
    (call.1 :: calls.1, calls.2)

/-- One message is read from its line, whatever follows and whatever is left of the
message before it. -/
theorem readResponse_line {self : Connection} {m : ServerMessage} {resp : Response}
    (hmeans : m.Means self.calls resp) {line pre rest : Bytes} (hline : line ∈ m.lines)
    (hpre : Leftover pre) (hunread : self.unread = pre ++ (line ++ rest)) :
    ∃ conn pre', self.readResponse = (.ok resp, conn) ∧ Leftover pre' ∧
      conn.unread = pre' ++ rest ∧
      conn.outstandingRequests = resp.settle self.outstandingRequests := by
  obtain ⟨pre', hpre', hrun⟩ := responseParser_line hmeans hline hpre rest
  have hspec := self.readResponse_spec
  rw [hunread, hrun] at hspec
  obtain ⟨conn, hcall, hrest, hout⟩ := hspec
  exact ⟨conn, pre', hcall, hpre', hrest, hout⟩

/-- The step of a run of messages: what is left of them means the same after the first
one has been answered. -/
private theorem means_settle {self conn : Connection} {m : ServerMessage} {resp : Response}
    {msgs : List ServerMessage} {resps : List Response} (hresp : m.refNo = resp.refNo)
    (hdistinct : ((m :: msgs).filterMap ServerMessage.refNo).Nodup)
    (hout : conn.outstandingRequests = resp.settle self.outstandingRequests)
    (h : List.Forall₂ (ServerMessage.Means self.calls) msgs resps) :
    List.Forall₂ (ServerMessage.Means conn.calls) msgs resps := by
  have hmem := (List.forall₂_and_left msgs resps).mpr ⟨fun x (hx : x ∈ msgs) => hx, h⟩
  refine hmem.imp ?_
  rintro x r ⟨hx, hmeans⟩
  refine hmeans.congr fun refNo hrefNo => ?_
  have hne : resp.refNo ≠ some refNo := by
    intro heq
    rw [← hresp] at heq
    rw [List.filterMap_cons_some heq, List.nodup_cons] at hdistinct
    exact hdistinct.1 (List.mem_filterMap.mpr ⟨x, hx, hrefNo⟩)
  simp [calls, hout, Response.get?_settle, hne]

/-- A run of messages is read from their lines, call by call. -/
theorem readResponses_lines {self : Connection} {msgs : List ServerMessage}
    {resps : List Response} {lines : List Bytes}
    (hmeans : List.Forall₂ (ServerMessage.Means self.calls) msgs resps)
    (hdistinct : (msgs.filterMap ServerMessage.refNo).Nodup)
    (hlines : List.Forall₂ (fun m line => line ∈ m.lines) msgs lines)
    {pre later : Bytes} (hpre : Leftover pre)
    (hunread : self.unread = pre ++ (lines.flatten ++ later)) :
    ∃ conn pre', self.readResponses msgs.length = (resps.map .ok, conn) ∧ Leftover pre' ∧
      conn.unread = pre' ++ later ∧ conn.outstandingRequests =
        resps.foldl (fun outstanding resp => resp.settle outstanding) self.outstandingRequests := by
  induction msgs generalizing self resps lines pre with
  | nil =>
    cases hmeans
    cases hlines
    exact ⟨self, pre, rfl, hpre, by simpa using hunread, rfl⟩
  | cons m msgs ih =>
    cases hmeans with
    | @cons _ resp _ resps hm hms =>
    cases hlines with
    | @cons _ line _ lines hline hrest =>
    have hfirst : self.unread = pre ++ (line ++ (lines.flatten ++ later)) := by
      simpa using hunread
    obtain ⟨conn, pre', hcall, hpre', hunread', hout⟩ := readResponse_line hm hline hpre hfirst
    have hmeans' := means_settle hm.refNo_eq hdistinct hout hms
    have hdistinct' : (msgs.filterMap ServerMessage.refNo).Nodup :=
      hdistinct.sublist ((List.sublist_cons_self m msgs).filterMap _)
    obtain ⟨conn', pre'', hcalls, hpre'', hunread'', hout'⟩ :=
      ih hmeans' hdistinct' hrest hpre' hunread'
    refine ⟨conn', pre'', ?_, hpre'', hunread'', ?_⟩
    · simp [readResponses, hcall, hcalls]
    · rw [hout', hout, List.foldl_cons]

/-- **Stream decoding is exact.** Of any messages to the outstanding ref-nos, each written
in any of its text forms, the `i`-th call returns the `i`-th one. It does so whatever
bytes come after the `i`-th message, none at all or those of the messages that follow, and
leaves these unread. The replies' ref-nos, and no others, are no longer outstanding. -/
theorem readResponses_exact {self : Connection} {msgs : List ServerMessage}
    {resps : List Response} {lines : List Bytes}
    (hmeans : List.Forall₂ (ServerMessage.Means self.calls) msgs resps)
    (hdistinct : (msgs.filterMap ServerMessage.refNo).Nodup)
    (hlines : List.Forall₂ (fun m line => line ∈ m.lines) msgs lines)
    (i : ℕ) {later : Bytes} (hunread : self.unread = (lines.take i).flatten ++ later) :
    ∃ conn pre, self.readResponses (min i msgs.length) = ((resps.take i).map .ok, conn) ∧
      Leftover pre ∧ conn.unread = pre ++ later ∧
      ∀ refNo, conn.outstandingRequests.get? refNo =
        if some refNo ∈ (resps.take i).map Response.refNo then none
        else self.outstandingRequests.get? refNo := by
  have hdistinct' : ((msgs.take i).filterMap ServerMessage.refNo).Nodup :=
    hdistinct.sublist ((List.take_sublist i msgs).filterMap _)
  obtain ⟨conn, pre, hcalls, hpre, hrest, hout⟩ := readResponses_lines
    (List.forall₂_take i hmeans) hdistinct' (List.forall₂_take i hlines) (Or.inl rfl) hunread
  rw [List.length_take] at hcalls
  exact ⟨conn, pre, hcalls, hpre, hrest, fun refNo => hout ▸ Response.get?_foldl_settle _ _ refNo⟩

/-- A text and a message, the text's reply cut in two by the socket. -/
theorem readResponses_exact_hello :
    let self : Connection :=
      { buffer := .init ⟨[ascii "=2 5Hhel", ascii "lo\n:1 8 7\n"], by decide⟩
        refNo := 2
        outstandingRequests :=
          ⟨[(1, ⟨Requests.GET_TIME, []⟩), (2, ⟨Requests.GET_TEXT, []⟩)], by decide⟩
        written := [] }
    ∃ conn pre, self.readResponses 2 =
        ([.ok (.ok 2 (.string (ascii "hello"))), .ok (.async (.leaveConf 7))], conn) ∧
      Leftover pre ∧ conn.unread = pre ++ [] ∧
      ∀ refNo, conn.outstandingRequests.get? refNo =
        if some refNo ∈ [some 2, none] then none else self.outstandingRequests.get? refNo := by
  intro self
  refine @readResponses_exact self
    [.ok 2 (.string (ascii "hello")), .async 1 (.leaveConf 7)]
    [.ok 2 (.string (ascii "hello")), .async (.leaveConf 7)]
    [ascii "=2 5Hhello\n", ascii ":1 8 7\n"]
    (.cons (.ok rfl rfl) (.cons .async .nil)) (by decide) ?_ 2 [] (by decide)
  refine .cons ⟨[ascii "=2", ascii "5Hhello"], ?_, by decide⟩
    (.cons ⟨[ascii ":1", ascii "8", ascii "7"], ?_, by decide⟩ .nil)
  · exact ⟨_, rfl, _, rfl, by decide⟩
  · exact ⟨_, rfl, _, ⟨_, rfl, _, rfl, rfl⟩, by decide⟩

end Connection

end Pylyskom
