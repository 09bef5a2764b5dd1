import Pylyskom.Connection

/-!
# The asynchronous connection

`AioReceiveBuffer` and `AioConnection` of `aio.py`. The buffer never waits: a parser
that runs short is started again on a copy of the buffer when more bytes have come.
-/

namespace Pylyskom

/-- The bytes that have come, without a socket to get more from. -/
structure AioReceiveBuffer where
  rb : Bytes
  rbLen : ℕ
  rbPos : ℕ
  rbLen_eq : rbLen = rb.length
  rbPos_le : rbPos ≤ rbLen

namespace AioReceiveBuffer

/-- A buffer with the given bytes, all of them unread. -/
def holding (rb : Bytes) : AioReceiveBuffer where
  rb
  rbLen := rb.length
  rbPos := 0
  rbLen_eq := rfl
  rbPos_le := Nat.zero_le _

/-- The buffer that `__init__` sets up. -/
def init : AioReceiveBuffer := holding []

def copy (self : AioReceiveBuffer) : AioReceiveBuffer where
  rb := self.rb
  rbLen := self.rbLen
  rbPos := self.rbPos
  rbLen_eq := self.rbLen_eq
  rbPos_le := self.rbPos_le

/-- The unread bytes. -/
def current (self : AioReceiveBuffer) : Bytes := self.rb.drop self.rbPos

def append (self : AioReceiveBuffer) (data : Bytes) : AioReceiveBuffer :=
  holding (self.rb.drop self.rbPos ++ data)

/-- Move the position past bytes that are in the buffer. -/
def advance (self : AioReceiveBuffer) (length : ℕ) (h : length ≤ self.rbLen - self.rbPos) :
    AioReceiveBuffer where
  rb := self.rb
  rbLen := self.rbLen
  rbPos := self.rbPos + length
  rbLen_eq := self.rbLen_eq
  rbPos_le := by
    have hpos := self.rbPos_le
    omega

/-- Get a string from the receive buffer; an error is the `NotEnoughDataInBufferError`. -/
def receiveString (self : AioReceiveBuffer) (length : ℕ) :
    Except AioReceiveBuffer (Bytes × AioReceiveBuffer) :=
  let present := self.rbLen - self.rbPos
  if h : length ≤ present then
    .ok ((self.rb.drop self.rbPos).take length, self.advance length h)
  else .error self

/-- Get a character from the receive buffer. -/
def receiveChar (self : AioReceiveBuffer) : Except AioReceiveBuffer (UInt8 × AioReceiveBuffer) :=
  if h : 1 ≤ self.rbLen - self.rbPos then
    have hpos : self.rbPos < self.rb.length := by
      have hlen := self.rbLen_eq
      omega
    .ok (self.rb[self.rbPos], self.advance 1 h)
  else .error self

@[simp] theorem current_append (self : AioReceiveBuffer) (data : Bytes) :
    (self.append data).current = self.current ++ data := rfl

theorem length_current (self : AioReceiveBuffer) :
    self.current.length = self.rbLen - self.rbPos := by
  rw [current, List.length_drop, self.rbLen_eq]

/-- **The receive buffer is a source of its unread bytes.** -/
def source : Source AioReceiveBuffer where
  unread := current
  receiveString := receiveString
  receiveChar := receiveChar
  string_ok := by
    intro self n h
    rw [length_current] at h
    exact ⟨self.advance n h, by simp [receiveString, h, current], by simp [current, advance]⟩
  string_short := by
    intro self n h
    rw [length_current] at h
    exact ⟨self, by simp [receiveString, Nat.not_le.mpr h]⟩
  char_ok := by
    intro self c r h
    have hlen : 1 ≤ self.rbLen - self.rbPos := by
      rw [← length_current, h]
      simp
    have hpos : self.rbPos < self.rb.length := by
      have hlen' := self.rbLen_eq
      omega
    rw [current, List.drop_eq_getElem_cons hpos, List.cons.injEq] at h
    exact ⟨self.advance 1 hlen, by simp [receiveChar, hlen, h.1], h.2⟩
  char_short := by
    intro self h
    have hlen : ¬ 1 ≤ self.rbLen - self.rbPos := by
      rw [← length_current, h]
      simp
    exact ⟨self, by simp [receiveChar, hlen]⟩

/-- A parser that ends has only moved the position. -/
theorem exec_rb {α : Type} (m : Parser α) (self : AioReceiveBuffer)
    (h : (source.exec m self).Settled) : (source.exec m self).rest.rb = self.rb := by
  refine source.exec_preserves (I := fun b => b.rb = self.rb) ?_ ?_ m rfl h
  · intro s s' n cs hs hread
    simp only [source, receiveString] at hread
    split at hread
    · cases hread
      exact hs
    · cases hread
  · intro s s' c hs hread
    simp only [source, receiveChar] at hread
    split at hread
    · cases hread
      exact hs
    · cases hread

/-- The bytes of the buffer between two positions. -/
def slice (self : AioReceiveBuffer) (start stop : ℕ) : Bytes := (self.rb.take stop).drop start

/-- The slice from the position before a parser to the position after it holds the bytes
that the parser took. -/
theorem exec_consume {α : Type} {m : Parser α} {self buffer : AioReceiveBuffer} {a : α}
    (h : source.exec m self = .returned a buffer) :
    source.exec m.consume self = .returned (a, buffer.slice self.rbPos buffer.rbPos) buffer := by
  obtain ⟨taken, hexec, htaken⟩ := source.exec_consume h
  have hrb : buffer.rb = self.rb := by
    have hkeep := exec_rb m self (by rw [h]; trivial)
    rwa [h] at hkeep
  have hself := self.rbPos_le
  have hbuffer := buffer.rbPos_le
  change self.current = taken ++ buffer.current at htaken
  have hlen := congrArg List.length htaken
  rw [List.length_append, length_current, length_current] at hlen
  have hsame : buffer.rbLen = self.rbLen := by rw [buffer.rbLen_eq, self.rbLen_eq, hrb]
  have hslice : buffer.slice self.rbPos buffer.rbPos = taken := by
    rw [slice, hrb, List.drop_take]
    change self.current.take _ = taken
    rw [htaken]
    exact List.take_left' (by omega)
  rw [hexec, hslice]

end AioReceiveBuffer

/-- A connection after the initial exchange. What it has written so far stands for the
stream writer. -/
structure AioConnection where
  tcpStreamReader : Pieces
  written : Bytes
  /-- Last used ID (i.e. increment before use). -/
  refNo : ℕ
  /-- Ref-No to Request mapping: the call numbers of the requests. -/
  outstandingRequests : Dict ℕ ℕ
  buffer : AioReceiveBuffer

namespace AioConnection

/-- The connection that `connect` leaves behind: the initial string has been sent, and the
initial reply has been read. -/
def connected (user : Bytes) : AioConnection where
  tcpStreamReader := .eof
  written := ascii "A" ++ toHstring user ++ ascii "\n"
  refNo := 0
  outstandingRequests := ∅
  buffer := (AioReceiveBuffer.holding (ascii "LysKOM\n")).advance 7 (by decide)

variable {α : Type}

/-- Let a parser read from the receive buffer. -/
def receive (self : AioConnection) (m : Parser α) : Outcome Exn α AioConnection :=
  (AioReceiveBuffer.source.exec m self.buffer).mapRest fun buffer => { self with buffer }

/-- `del self._outstanding_requests[ref_no]` -/
def delOutstanding (self : AioConnection) (refNo : ℕ) : AioConnection :=
  { self with outstandingRequests := self.outstandingRequests.erase refNo }

/-- `self._buffer._rb[buf_start:self._buffer._rb_pos]` -/
def replyBytes (self : AioConnection) (bufStart : ℕ) : Bytes :=
  self.buffer.slice bufStart self.buffer.rbPos

def parseOkReply (self : AioConnection) : Outcome Exn (Response × Bytes) AioConnection :=
  (self.receive readInt).andThen fun refNo self =>
    match self.outstandingRequests.get? refNo with
    | none => .raised (.localError (.badRequestId refNo)) self
    | some callNo =>
      let bufStart := self.buffer.rbPos
      (self.receive (parseReplyTo callNo)).andThen fun okReply self =>
        .returned (.ok refNo okReply, self.replyBytes bufStart) (self.delOutstanding refNo)

def parseErrorReply (self : AioConnection) : Outcome Exn (Response × Bytes) AioConnection :=
  (self.receive readInt).andThen fun refNo self =>
    if refNo ∉ self.outstandingRequests then .raised (.localError (.badRequestId refNo)) self
    else
      let bufStart := self.buffer.rbPos
      (self.receive parseError).andThen fun errorReply self =>
        .returned (.error refNo errorReply, self.replyBytes bufStart) (self.delOutstanding refNo)

def parseAsynchronousMessage (self : AioConnection) :
    Outcome Exn (Response × Bytes) AioConnection :=
  let bufStart := self.buffer.rbPos
  (self.receive parseAsync).andThen fun msg self =>
    .returned (.async msg, self.replyBytes bufStart) self

/-- The response with its reply bytes. -/
def parseResponse (self : AioConnection) : Outcome Exn (Response × Bytes) AioConnection :=
  ((self.receive readFirstNonWs).andThen fun ch self =>
    if ch = '='.toUInt8 then self.parseOkReply
    else if ch = '%'.toUInt8 then self.parseErrorReply
    else if ch = ':'.toUInt8 then self.parseAsynchronousMessage
    else .raised (.localError (.protocolError (some ch))) self).andThen fun resp self =>
      .returned (resp.1, resp.2.dropLast) self -- skip trailing newline

/-- Try to parse a response; without enough data the buffer is restored and the result is
`None`, which is `starved` here. -/
def tryParseResponse (self : AioConnection) : Outcome Exn (Response × Bytes) AioConnection :=
  let bufferCopy := self.buffer.copy
  match self.parseResponse with
  | .returned resp self => .returned resp self
  | .raised e self => .raised e self
  | .starved self => .starved { self with buffer := bufferCopy }

/-- The response parser, with the bytes that it takes after the ref-no or the colon. -/
def slicingParser (calls : ℕ → Option ℕ) : Parser (Response × Bytes) := do
  let ch ← readFirstNonWs
  if ch = '='.toUInt8 then do
    let refNo ← readInt
    let callNo ← callOf calls refNo
    let reply ← (parseReplyTo callNo).consume
    return (.ok refNo reply.1, reply.2)
  else if ch = '%'.toUInt8 then do
    let refNo ← readInt
    let _ ← callOf calls refNo
    let error ← parseError.consume
    return (.error refNo error.1, error.2)
  else if ch = ':'.toUInt8 then do
    let msg ← parseAsync.consume
    return (.async msg.1, msg.2)
  else Reader.raise (.localError (.protocolError (some ch)))

/-- The bytes of a response, less the last one. -/
def replyParser (calls : ℕ → Option ℕ) : Parser (Response × Bytes) := do
  let resp ← slicingParser calls
  return (resp.1, resp.2.dropLast)

/-- Apart from the bytes this is the response parser. -/
theorem fst_replyParser (calls : ℕ → Option ℕ) :
    Prod.fst <$> replyParser calls = responseParser calls := by
  simp only [replyParser, slicingParser, responseParser, map_eq_pure_bind, bind_assoc, pure_bind]
  congr 1
  funext ch
  split_ifs
  · simp only [bind_assoc, pure_bind]
    refine congrArg _ (funext fun refNo => congrArg _ (funext fun callNo => ?_))
    exact Reader.consume_bind_fst _ fun reply => pure (Response.ok refNo reply)
  · simp only [bind_assoc, pure_bind]
    refine congrArg _ (funext fun refNo => congrArg _ (funext fun callNo => ?_))
    exact Reader.consume_bind_fst _ fun error => pure (Response.error refNo error)
  · simp only [bind_assoc, pure_bind]
    exact Reader.consume_bind_fst _ fun msg => pure (Response.async msg)
  · rfl

@[simp] theorem receive_pure (self : AioConnection) (a : α) :
    self.receive (pure a) = .returned a self := rfl

@[simp] theorem receive_raise (self : AioConnection) (e : Exn) :
    self.receive (Reader.raise e : Parser α) = .raised e self := rfl

/-- Parsing in sequence is parsing one after the other. -/
theorem receive_bind {β : Type} (self : AioConnection) (m : Parser α) (f : α → Parser β) :
    self.receive (m >>= f) = (self.receive m).andThen fun a self => self.receive (f a) := by
  unfold receive
  rw [Source.exec_bind]
  cases AioReceiveBuffer.source.exec m self.buffer <;> rfl

/-- Parsing changes nothing but the buffer. -/
theorem receive_andThen_congr {β : Type} {self : AioConnection} {m : Parser α}
    {f g : α → AioConnection → Outcome Exn β AioConnection}
    (h : ∀ a buffer, f a { self with buffer } = g a { self with buffer }) :
    (self.receive m).andThen f = (self.receive m).andThen g := by
  unfold receive
  cases AioReceiveBuffer.source.exec m self.buffer with
  | returned a buffer => exact h a buffer
  | raised e buffer => rfl
  | starved buffer => rfl

/-- Taking the slice after a parser is running the parser that returns its bytes. -/
theorem receive_consume {β : Type} (self : AioConnection) (m : Parser α)
    (f : α → Bytes → AioConnection → Outcome Exn β AioConnection) :
    ((self.receive m).andThen fun a conn => f a (conn.replyBytes self.buffer.rbPos) conn) =
      (self.receive m.consume).andThen fun x conn => f x.1 x.2 conn := by
  have heq := AioReceiveBuffer.source.exec_eq_consume m self.buffer
  unfold receive
  cases hexec : AioReceiveBuffer.source.exec m.consume self.buffer with
  | returned x buffer =>
    obtain ⟨a, bytes⟩ := x
    rw [hexec] at heq
    have hslice := AioReceiveBuffer.exec_consume heq
    rw [hexec, Outcome.returned.injEq, Prod.mk.injEq] at hslice
    rw [heq, hslice.1.2]
    rfl
  | raised e buffer => rw [heq, hexec]; rfl
  | starved buffer => rw [heq, hexec]; rfl

/-- What `send_request` does up to its `drain`. -/
def sendRequest (self : AioConnection) (request : Request) : Except Exn ℕ × AioConnection :=
  let refNo := self.refNo + 1
  if refNo ∈ self.outstandingRequests then
    (.error (.builtinError .assertionError), { self with refNo })
  else
    (.ok refNo,
      { self with
        refNo
        outstandingRequests := self.outstandingRequests.set refNo request.callNo
        written := self.written ++ (decimal refNo ++ ascii " " ++ request.toString) })

/-- The call that each outstanding ref-no was sent for. -/
def calls (self : AioConnection) (refNo : ℕ) : Option ℕ := self.outstandingRequests.get? refNo

/-- The connection after a response. -/
def settle (self : AioConnection) (resp : Response) : AioConnection :=
  { self with outstandingRequests := resp.settle self.outstandingRequests }

/-- A parse runs the reply parser on the receive buffer, and then deletes the ref-no of a
reply. -/
theorem parseResponse_eq (self : AioConnection) :
    self.parseResponse =
      (self.receive (replyParser self.calls)).andThen fun resp self =>
        .returned resp (self.settle resp.1) := by
  rw [parseResponse, replyParser, receive_bind, slicingParser, receive_bind]
  simp only [Outcome.andThen_assoc, receive_pure, Outcome.andThen_returned]
  refine receive_andThen_congr fun ch buffer => ?_
  split_ifs
  · rw [parseOkReply, receive_bind, Outcome.andThen_assoc, Outcome.andThen_assoc]
    refine receive_andThen_congr fun refNo buffer => ?_
    cases hcall : self.outstandingRequests.get? refNo with
    | none => simp [callOf, calls, hcall]
    | some callNo =>
      simp only [callOf, calls, hcall, pure_bind, receive_bind, Outcome.andThen_assoc,
        receive_pure, Outcome.andThen_returned]
      exact receive_consume { self with buffer } (parseReplyTo callNo) fun reply bytes self =>
        .returned (Response.ok refNo reply, bytes.dropLast) (self.delOutstanding refNo)
  · rw [parseErrorReply, receive_bind, Outcome.andThen_assoc, Outcome.andThen_assoc]
    refine receive_andThen_congr fun refNo buffer => ?_
    cases hcall : self.outstandingRequests.get? refNo with
    | none => simp [callOf, calls, hcall, Dict.get?_eq_none_iff.mp hcall]
    | some callNo =>
      simp only [callOf, calls, hcall, pure_bind, receive_bind, Outcome.andThen_assoc,
        receive_pure, Outcome.andThen_returned, Dict.mem_of_get? hcall, not_true_eq_false, if_false]
      exact receive_consume { self with buffer } parseError fun error bytes self =>
        .returned (Response.error refNo error, bytes.dropLast) (self.delOutstanding refNo)
  · rw [parseAsynchronousMessage, receive_bind, Outcome.andThen_assoc, Outcome.andThen_assoc]
    simp only [receive_pure, Outcome.andThen_returned]
    exact receive_consume { self with buffer } parseAsync fun msg bytes self =>
      .returned (Response.async msg, bytes.dropLast) self
  · rfl

/-- One try ends as the reply parser ends on the bytes in the buffer; without a response
the connection is as before. -/
theorem tryParseResponse_spec (self : AioConnection) :
    match (replyParser self.calls).run self.buffer.current with
    | .returned resp rest => ∃ buffer, buffer.current = rest ∧
        self.tryParseResponse =
          .returned resp (({ self with buffer } : AioConnection).settle resp.1)
    | .raised e rest => ∃ buffer, buffer.current = rest ∧
        self.tryParseResponse = .raised e { self with buffer }
    | .starved _ => self.tryParseResponse = .starved self := by
  have hparse := self.parseResponse_eq
  unfold receive at hparse
  cases hrun : (replyParser self.calls).run self.buffer.current with
  | returned resp rest =>
    obtain ⟨buffer, hexec, hrest⟩ := AioReceiveBuffer.source.exec_returned hrun
    rw [hexec] at hparse
    exact ⟨buffer, hrest, by rw [tryParseResponse, hparse]; rfl⟩
  | raised e rest =>
    obtain ⟨buffer, hexec, hrest⟩ := AioReceiveBuffer.source.exec_raised hrun
    rw [hexec] at hparse
    exact ⟨buffer, hrest, by rw [tryParseResponse, hparse]; rfl⟩
  | starved rest =>
    obtain ⟨buffer, hexec⟩ := AioReceiveBuffer.source.exec_starved hrun
    rw [hexec] at hparse
    change self.tryParseResponse = .starved self
    rw [tryParseResponse, hparse]
    rfl

/-- A try that returns a response returns it to a connection with the rest of the bytes. -/
theorem tryParseResponse_of_run {self : AioConnection} {response : Response × Bytes} {rest : Bytes}
    (hrun : (replyParser self.calls).run self.buffer.current = .returned response rest) :
    ∃ buffer, buffer.current = rest ∧ self.tryParseResponse =
      .returned response (({ self with buffer } : AioConnection).settle response.1) := by
  have hspec := self.tryParseResponse_spec
  rw [hrun] at hspec
  exact hspec

theorem tryParseResponse_starved {self conn : AioConnection}
    (h : self.tryParseResponse = .starved conn) : conn = self := by
  have hspec := self.tryParseResponse_spec
  cases hrun : (replyParser self.calls).run self.buffer.current with
  | returned resp rest =>
    rw [hrun] at hspec
    obtain ⟨buffer, -, htry⟩ := hspec
    simp [htry] at h
  | raised e rest =>
    rw [hrun] at hspec
    obtain ⟨buffer, -, htry⟩ := hspec
    simp [htry] at h
  | starved rest =>
    rw [hrun] at hspec
    change self.tryParseResponse = .starved self at hspec
    rw [hspec] at h
    cases h
    rfl

/-- What `_buffer.append(data)` does after `data = await _tcp_stream_reader.read(1024)`. -/
def appendData (self : AioConnection) (data : Bytes) (tcpStreamReader : Pieces) : AioConnection :=
  { self with buffer := self.buffer.append data, tcpStreamReader }

/-- One call: its result and the connection after it. The loop tries to parse first, in case
there already is unparsed data in the buffer. -/
def readResponse (self : AioConnection) : Except Exn (Response × Bytes) × AioConnection :=
  match _h : self.tryParseResponse with
  | .returned resp self => (.ok resp, self)
  | .raised e self => (.error e, self)
  | .starved conn =>
    let data := conn.tcpStreamReader.recv 1024
    if _hdata : data.1 = [] then (.error (.localError .receiveError), conn)
    else (conn.appendData data.1 data.2).readResponse
termination_by self.tcpStreamReader.bytes.length
decreasing_by
  rw [← tryParseResponse_starved _h]
  exact Pieces.recv_length_lt _hdata

theorem readResponse_of_returned {self conn : AioConnection} {resp : Response × Bytes}
    (h : self.tryParseResponse = .returned resp conn) : self.readResponse = (.ok resp, conn) := by
  rw [readResponse]
  split <;> simp_all

theorem readResponse_of_raised {self conn : AioConnection} {e : Exn}
    (h : self.tryParseResponse = .raised e conn) : self.readResponse = (.error e, conn) := by
  rw [readResponse]
  split <;> simp_all

theorem readResponse_of_starved {self : AioConnection} (h : self.tryParseResponse = .starved self) :
    self.readResponse =
      let data := self.tcpStreamReader.recv 1024
      if data.1 = [] then (.error (.localError .receiveError), self)
      else (self.appendData data.1 data.2).readResponse := by
  rw [readResponse]
  split
  · simp_all
  · simp_all
  · next heq =>
    rw [h] at heq
    cases heq
    simp only [dite_eq_ite]

/-- The bytes that are still to be received, from the buffer and then from the stream. -/
def unread (self : AioConnection) : Bytes := self.buffer.current ++ self.tcpStreamReader.bytes

/-- Fetching data does not change what is unread. -/
theorem unread_appendData (self : AioConnection) (wanted : ℕ) :
    (self.appendData (self.tcpStreamReader.recv wanted).1
      (self.tcpStreamReader.recv wanted).2).unread = self.unread := by
  simp only [unread, appendData, AioReceiveBuffer.current_append, List.append_assoc]
  rw [Pieces.recv_bytes]

/-- **A call of `read_response`** ends as the reply parser ends on the unread bytes: trying
again on a longer buffer makes no difference. -/
theorem readResponse_spec (self : AioConnection) :
    match (replyParser self.calls).run self.unread with
    | .returned resp rest => ∃ conn, self.readResponse = (.ok resp, conn) ∧ conn.unread = rest ∧
        conn.outstandingRequests = resp.1.settle self.outstandingRequests
    | .raised e rest => ∃ conn, self.readResponse = (.error e, conn) ∧ conn.unread = rest ∧
        conn.outstandingRequests = self.outstandingRequests
    | .starved _ => ∃ conn, self.readResponse = (.error (.localError .receiveError), conn) := by
  induction hn : self.tcpStreamReader.bytes.length using Nat.strong_induction_on
    generalizing self with
  | _ n ih =>
    have htry := self.tryParseResponse_spec
    have happend : ((replyParser self.calls).run self.buffer.current).Settled → _ := fun h =>
      (replyParser self.calls).run_append h self.tcpStreamReader.bytes
    cases hrun : (replyParser self.calls).run self.buffer.current with
    | returned resp rest =>
      rw [hrun] at htry happend
      obtain ⟨buffer, rfl, htry⟩ := htry
      rw [unread, happend trivial]
      exact ⟨_, readResponse_of_returned htry, rfl, rfl⟩
    | raised e rest =>
      rw [hrun] at htry happend
      obtain ⟨buffer, rfl, htry⟩ := htry
      rw [unread, happend trivial]
      exact ⟨_, readResponse_of_raised htry, rfl, rfl⟩
    | starved rest =>
      rw [hrun] at htry
      rw [readResponse_of_starved htry]
      by_cases hdata : (self.tcpStreamReader.recv 1024).1 = []
      · have heof := (Pieces.recv_eq_nil_iff (by omega)).mp hdata
        rw [unread, heof, List.append_nil, hrun]
        exact ⟨self, by simp [hdata]⟩
      · simp only [hdata, if_false]
        have hlt : (self.tcpStreamReader.recv 1024).2.bytes.length < n :=
          hn ▸ Pieces.recv_length_lt hdata
        rw [← self.unread_appendData 1024]
        exact ih _ hlt (self.appendData _ _) rfl

end AioConnection

end Pylyskom
