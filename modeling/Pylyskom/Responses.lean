import Pylyskom.TextReads

/-!
# Responses

What `read_response` returns, and one program that reads it. The program knows of the
connection only which call each outstanding ref-no was sent for; both kinds of
connection are shown to run it.
-/

namespace Pylyskom

/-- An ok reply or an error reply with its ref-no, or a message without one. -/
inductive Response : Type
  | ok (refNo : ℕ) (reply : OkReply)
  | error (refNo : ℕ) (error : ServerError)
  | async (msg : AsyncMessage)
  deriving DecidableEq

def Response.refNo : Response → Option ℕ
  | ok refNo _ => some refNo
  | error refNo _ => some refNo
  | async _ => none

/-- The ref-no and the content of a reply. -/
def Response.reply : Response → Option (ℕ × Except ServerError OkReply)
  | ok refNo okReply => some (refNo, .ok okReply)
  | error refNo errorReply => some (refNo, .error errorReply)
  | async _ => none

theorem Response.refNo_eq_reply (resp : Response) : resp.refNo = resp.reply.map Prod.fst := by
  cases resp <;> rfl

theorem Response.eq_ok_of_reply {resp : Response} {refNo : ℕ} {okReply : OkReply}
    (hreply : resp.reply = some (refNo, .ok okReply)) : resp = .ok refNo okReply := by
  cases resp with
  | ok r reply =>
    cases hreply
    rfl
  | error r errorReply => cases hreply
  | async msg => cases hreply

/-- The message of a response that is no reply. -/
def Response.asyncMsg : Response → Option AsyncMessage
  | async msg => some msg
  | _ => none

/-- Remove the ref-no that a response answers. -/
def Response.settle {ν : Type} (resp : Response) (outstanding : Dict ℕ ν) : Dict ℕ ν :=
  match resp.refNo with
  | some refNo => outstanding.erase refNo
  | none => outstanding

theorem Response.settle_mapValues {ν μ : Type} (resp : Response) (outstanding : Dict ℕ ν)
    (f : ν → μ) :
    resp.settle (outstanding.mapValues f) = (resp.settle outstanding).mapValues f := by
  unfold settle
  split
  · exact (outstanding.mapValues_erase f _).symm
  · rfl

theorem Response.get?_settle {ν : Type} (resp : Response) (outstanding : Dict ℕ ν) (refNo : ℕ) :
    (resp.settle outstanding).get? refNo =
      if resp.refNo = some refNo then none else outstanding.get? refNo := by
  cases resp <;> simp [settle, Response.refNo, eq_comm]

theorem Response.get?_foldl_settle {ν : Type} (resps : List Response) (outstanding : Dict ℕ ν)
    (refNo : ℕ) :
    (resps.foldl (fun outstanding resp => resp.settle outstanding) outstanding).get? refNo =
      if some refNo ∈ resps.map Response.refNo then none else outstanding.get? refNo := by
  induction resps generalizing outstanding with
  | nil => simp
  | cons resp resps ih =>
    rw [List.foldl_cons, ih, get?_settle]
    by_cases h : resp.refNo = some refNo
    · simp [h]
    · have h' : some refNo ≠ resp.refNo := fun heq => h heq.symm
      simp [h, h']

/-- The entry of a table, or the `KeyError` of a missing key. -/
def subscript {α : Type} (table : List (ℕ × α)) (key : ℕ) : Parser α :=
  match table.lookup key with
  | some value => pure value
  | none => Reader.raise (.builtinError (.keyError key))

/-- The value of an ok reply to a call. -/
def parseReplyTo (callNo : ℕ) : Parser OkReply := do
  let type ← subscript responseDict callNo
  type.parse

/-- The number and the status of an error reply. -/
def parseError : Parser ServerError := do
  let errorNo ← readInt
  let errorStatus ← readInt
  let cls ← subscript errorDict errorNo
  return { cls, errorStatus }

/-- An asynchronous message after its colon. -/
def parseAsync : Parser AsyncMessage := do
  let _ ← readInt -- read number of arguments (but we don't need it)
  let msgNo ← readInt
  match asyncDict.lookup msgNo with
  | none => Reader.raise (.localError (.unimplementedAsync msgNo))
  | some parse => parse

/-- The call that an outstanding ref-no was sent for. -/
def callOf (calls : ℕ → Option ℕ) (refNo : ℕ) : Parser ℕ :=
  match calls refNo with
  | none => Reader.raise (.localError (.badRequestId refNo))
  | some callNo => pure callNo

/-- The whole response, given the call of each outstanding ref-no. -/
def responseParser (calls : ℕ → Option ℕ) : Parser Response := do
  let ch ← readFirstNonWs
  if ch = '='.toUInt8 then do
    let refNo ← readInt
    let callNo ← callOf calls refNo
    let reply ← parseReplyTo callNo
    return .ok refNo reply
  else if ch = '%'.toUInt8 then do
    let refNo ← readInt
    let _ ← callOf calls refNo
    let error ← parseError
    return .error refNo error
  else if ch = ':'.toUInt8 then do
    let msg ← parseAsync
    return .async msg
  else Reader.raise (.localError (.protocolError (some ch)))

/-- The response that a message of the server stands for, to a client with the given
calls outstanding: replies go to outstanding ref-nos, with a value of the type of the
call or with a known error number. -/
inductive ServerMessage.Means (calls : ℕ → Option ℕ) : ServerMessage → Response → Prop
  | ok {refNo callNo : ℕ} {reply : OkReply} (outstanding : calls refNo = some callNo)
      (typed : responseDict.lookup callNo = some reply.type) :
      Means calls (.ok refNo reply) (.ok refNo reply)
  | error {refNo callNo errorNo errorStatus : ℕ} {cls : ServerErrorClass}
      (outstanding : calls refNo = some callNo) (known : errorDict.lookup errorNo = some cls) :
      Means calls (.error refNo errorNo errorStatus) (.error refNo { cls, errorStatus })
  | async {argumentCount : ℕ} {msg : AsyncMessage} :
      Means calls (.async argumentCount msg) (.async msg)

/-- The ref-no of a reply. -/
def ServerMessage.refNo : ServerMessage → Option ℕ
  | ok refNo _ => some refNo
  | error refNo _ _ => some refNo
  | async _ _ => none

/-- What may be left of a message when it has been read: nothing or its newline. -/
def Leftover (pre : Bytes) : Prop := pre = [] ∨ pre = ascii "\n"

/-- What is left is skipped before the next message. -/
theorem Leftover.skip {pre : Bytes} (h : Leftover pre) :
    ∀ c ∈ pre, whitespace.contains c = true := by
  rcases h with rfl | rfl
  · simp
  · intro c hc
    obtain rfl : c = '\n'.toUInt8 := by simpa [ascii] using hc
    decide

namespace ServerMessage

variable {calls calls' : ℕ → Option ℕ} {m : ServerMessage} {resp : Response}

theorem Means.refNo_eq (h : m.Means calls resp) : m.refNo = resp.refNo := by
  cases h <;> rfl

/-- A reply is to a ref-no with a call. -/
theorem Means.call (h : m.Means calls resp) {refNo : ℕ} (hrefNo : m.refNo = some refNo) :
    ∃ callNo, calls refNo = some callNo := by
  cases h with
  | @ok r callNo reply outstanding typed =>
    cases hrefNo
    exact ⟨callNo, outstanding⟩
  | @error r callNo errorNo errorStatus cls outstanding known =>
    cases hrefNo
    exact ⟨callNo, outstanding⟩
  | async => cases hrefNo

/-- Only the call of the message's own ref-no matters. -/
theorem Means.congr (h : m.Means calls resp)
    (hcalls : ∀ refNo, m.refNo = some refNo → calls' refNo = calls refNo) :
    m.Means calls' resp := by
  cases h with
  | ok outstanding typed => exact .ok ((hcalls _ rfl).trans outstanding) typed
  | error outstanding known => exact .error ((hcalls _ rfl).trans outstanding) known
  | async => exact .async

end ServerMessage

open Spacing

/-- A byte that stands directly before a token. -/
theorem sigil_reads {α : Type} {c : UInt8} (hc : whitespace.contains c = false) {t : Bytes}
    {L : TextForm} {f : UInt8 → Parser α} {a : α} {eats : Bool}
    (h : spacing.Reads (f c) a (token t * L) eats) :
    spacing.Reads (readFirstNonWs >>= f) a (token (c :: t) * L) eats := by
  rintro ts hts
  obtain ⟨_, rfl, us, hus, rfl⟩ := Language.mem_mul.mp hts
  refine ⟨by simp, fun pre hpre d hd rest => ?_⟩
  obtain ⟨_, hrun⟩ := h ([t] ++ us) (Language.mem_mul.mpr ⟨_, rfl, us, hus, rfl⟩)
  have hfirst := run_readFirstNonWs hpre hc (spacing.text (t :: us) ++ d :: rest)
  rw [Reader.run_bind]
  simp only [List.cons_append, List.nil_append, text_cons_cons, List.append_assoc] at hfirst hrun ⊢
  rw [hfirst]
  exact hrun [] (by simp) d hd rest

/-- The value of a reply is read for a call of its type. -/
theorem parseReplyTo_reads {callNo : ℕ} {reply : OkReply}
    (typed : responseDict.lookup callNo = some reply.type) :
    spacing.ReadsTail (parseReplyTo callNo) reply reply.text reply.type.endsWithNumber := by
  have hparse : parseReplyTo callNo = reply.type.parse := by
    simp [parseReplyTo, subscript, typed]
  rw [hparse]
  exact reply.reads

theorem parseError_reads {errorNo errorStatus : ℕ} {cls : ServerErrorClass}
    (known : errorDict.lookup errorNo = some cls) :
    spacing.Reads parseError { cls, errorStatus } (Int.text errorNo * Int.text errorStatus)
      true := by
  refine (readInt_reads errorNo).bind ((readInt_reads errorStatus).bind_of_eq_pure ?_)
  simp [subscript, known]

theorem parseAsync_reads (argumentCount : ℕ) (msg : AsyncMessage) :
    ∃ eats, spacing.Reads parseAsync msg
      (Int.text argumentCount * (Int.text msg.msgNo * msg.text)) eats := by
  obtain ⟨parse, eats, hlookup, hreads⟩ := msg.reads
  refine ⟨eats, (readInt_reads argumentCount).bind ((readInt_reads msg.msgNo).bind_tail ?_)⟩
  simpa only [hlookup] using hreads

/-- A response is read from the line of a message that stands for it. -/
theorem responseParser_reads {calls : ℕ → Option ℕ} {m : ServerMessage} {resp : Response}
    (h : m.Means calls resp) : ∃ eats, spacing.Reads (responseParser calls) resp m.text eats := by
  cases h with
  | @ok refNo callNo reply outstanding typed =>
    refine ⟨reply.type.endsWithNumber, sigil_reads (by decide) ?_⟩
    refine (readInt_reads refNo).bind_tail ?_
    simpa [callOf, outstanding, ServerMessage.value] using
      (parseReplyTo_reads typed).bind_pure (g := Response.ok refNo)
  | @error refNo callNo errorNo errorStatus cls outstanding known =>
    refine ⟨true, sigil_reads (by decide) ?_⟩
    refine (readInt_reads refNo).bind ?_
    simpa [callOf, outstanding, ServerMessage.value] using
      (parseError_reads known).bind_pure (g := Response.error refNo)
  | @async argumentCount msg =>
    obtain ⟨eats, hreads⟩ := parseAsync_reads argumentCount msg
    exact ⟨eats, sigil_reads (by decide) hreads.bind_pure⟩

/-- A response is read from its line, whatever follows and whatever is left of the message
before it. -/
theorem responseParser_line {calls : ℕ → Option ℕ} {m : ServerMessage} {resp : Response}
    (h : m.Means calls resp) {line pre : Bytes} (hline : line ∈ m.lines) (hpre : Leftover pre)
    (rest : Bytes) : ∃ pre', Leftover pre' ∧
      (responseParser calls).run (pre ++ (line ++ rest)) = .returned resp (pre' ++ rest) := by
  obtain ⟨ts, hts, rfl⟩ := hline
  obtain ⟨eats, hreads⟩ := responseParser_reads h
  obtain ⟨_, hrun⟩ := hreads ts hts
  have hbytes := hrun pre hpre.skip '\n'.toUInt8 (by decide) rest
  have hsame : pre ++ (spacing.text ts ++ ascii "\n" ++ rest) =
      pre ++ spacing.text ts ++ '\n'.toUInt8 :: rest := by
    simp [ascii]
  rw [hsame, hbytes]
  cases eats with
  | true => exact ⟨[], Or.inl rfl, by simp⟩
  | false => exact ⟨ascii "\n", Or.inr rfl, by simp [ascii]⟩

/-- How a response is read from bytes: a reply is to a ref-no with a call, and the value of
an ok reply is read by the parser of the type of this call, from the byte after the
ref-no's delimiter. -/
def Response.ReadFrom (calls : ℕ → Option ℕ) (bytes rest : Bytes) : Response → Prop
  | ok refNo reply => ∃ callNo type mid value, calls refNo = some callNo ∧
      responseDict.lookup callNo = some type ∧
      readFirstNonWs.run bytes = .returned '='.toUInt8 mid ∧
      readInt.run mid = .returned refNo value ∧ type.parse.run value = .returned reply rest
  | error refNo _ => ∃ callNo, calls refNo = some callNo
  | async _ => True

theorem responseParser_returned {calls : ℕ → Option ℕ} {resp : Response} {bytes rest : Bytes}
    (h : (responseParser calls).run bytes = .returned resp rest) :
    resp.ReadFrom calls bytes rest := by
  rw [responseParser, Reader.run_bind, Outcome.andThen_eq_returned] at h
  obtain ⟨ch, mid, hch, h⟩ := h
  split_ifs at h with hok herror hasync
  · subst hok
    rw [Reader.run_bind, Outcome.andThen_eq_returned] at h
    obtain ⟨refNo, value, hrefNo, h⟩ := h
    cases hcall : calls refNo with
    | none => simp [callOf, hcall] at h
    | some callNo =>
      cases htype : responseDict.lookup callNo with
      | none => simp [callOf, hcall, parseReplyTo, subscript, htype] at h
      | some type =>
        simp only [callOf, hcall, parseReplyTo, subscript, htype, pure_bind, Reader.run_bind,
          Outcome.andThen_eq_returned, Reader.run_pure, Outcome.returned.injEq] at h
        obtain ⟨reply, s, hreply, rfl, rfl⟩ := h
        exact ⟨callNo, type, mid, value, hcall, htype, hch, hrefNo, hreply⟩
  · rw [Reader.run_bind, Outcome.andThen_eq_returned] at h
    obtain ⟨refNo, s, -, h⟩ := h
    cases hcall : calls refNo with
    | none => simp [callOf, hcall] at h
    | some callNo =>
      simp only [callOf, hcall, pure_bind, Reader.run_bind, Outcome.andThen_eq_returned,
        Reader.run_pure, Outcome.returned.injEq] at h
      obtain ⟨error, s, -, rfl, -⟩ := h
      exact ⟨callNo, hcall⟩
  · simp only [Reader.run_bind, Outcome.andThen_eq_returned, Reader.run_pure,
      Outcome.returned.injEq] at h
    obtain ⟨msg, s, -, rfl, -⟩ := h
    trivial
  · simp at h

/-- No response is read from what is left of a message. -/
theorem responseParser_leftover (calls : ℕ → Option ℕ) {pre : Bytes} (hpre : Leftover pre) :
    ∃ rest, (responseParser calls).run pre = .starved rest := by
  rcases hpre with rfl | rfl
  · exact ⟨[], rfl⟩
  · exact ⟨[], rfl⟩

end Pylyskom
