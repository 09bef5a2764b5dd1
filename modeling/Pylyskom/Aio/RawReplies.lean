import Pylyskom.Aio.Client

/-!
# Raw replies

The reply bytes are cut from the buffer after the ref-no, and one byte is dropped from
them, which is to be the trailing newline. It is the newline only for the types whose
parser has taken it; of all other values the last byte is lost.
-/

namespace Pylyskom

open Spacing

/-- The line of a message with the given tokens after the first one. -/
def ServerMessage.line (m : ServerMessage) (ts : List Bytes) : Bytes :=
  spacing.text (m.head :: ts) ++ ascii "\n"

/-- The reply ends with a number or a bit string, as every error reply does. -/
def ServerMessage.endsWithNumber : ServerMessage → Bool
  | ok _ reply => reply.type.endsWithNumber
  | error _ _ _ => true
  | async _ _ => false

/-- What is left of a value's bytes when the last byte taken has been dropped. -/
def keptBytes (eats : Bool) (ts : List Bytes) : Bytes :=
  if eats then spacing.text ts else (spacing.text ts).dropLast

/-- The parser of a value starts after the ref-no's delimiter, and takes the value, with
the newline if it eats it. -/
theorem run_value {α : Type} {body : Parser α} {a : α} {L : TextForm} {eats : Bool}
    (h : spacing.ReadsTail body a L eats) {ts : List Bytes} (hts : ts ∈ L) (refNo : ℕ)
    (rest : Bytes) :
    ∃ mid taken, readInt.run (spacing.text (decimal refNo :: ts) ++ '\n'.toUInt8 :: rest) =
        .returned refNo mid ∧
      body.consume.run mid = .returned (a, taken) (leave eats '\n'.toUInt8 rest) ∧
      taken.dropLast = keptBytes eats ts := by
  have hint : ∀ {d : UInt8}, whitespace.contains d = true → ∀ s,
      readInt.run (decimal refNo ++ d :: s) = .returned refNo s := by
    intro d hd s
    have hnil : ∀ c ∈ ([] : Bytes), whitespace.contains c = true := by simp
    have hrun := run_readIntAndNext hnil refNo (not_digit_of_whitespace hd) s
    rw [List.nil_append] at hrun
    rw [readInt, Reader.run_bind, hrun]
    rfl
  rcases h with ⟨rfl, rfl, rfl⟩ | h
  · obtain rfl : ts = [] := hts
    exact ⟨rest, [], by simpa using hint (by decide) rest, rfl, rfl⟩
  · have hne := (h ts hts).1
    refine ⟨_, _, ?_, h.consume hts (d := '\n'.toUInt8) (by decide) rest, ?_⟩
    · rw [text_cons _ hne, List.append_assoc]
      exact hint (by decide) _
    · cases eats <;> simp [keptBytes]

/-- The reply parser on the line of a reply. -/
theorem run_replyParser {calls : ℕ → Option ℕ} {m : ServerMessage} {resp : Response} {refNo : ℕ}
    (hmeans : m.Means calls resp) (hrefNo : m.refNo = some refNo) {ts : List Bytes}
    (hts : ts ∈ m.value) {pre : Bytes} (hpre : Leftover pre) (rest : Bytes) :
    (AioConnection.replyParser calls).run (pre ++ (m.line ts ++ rest)) =
      .returned (resp, keptBytes m.endsWithNumber ts)
        (leave m.endsWithNumber '\n'.toUInt8 rest) := by
  have hskip := hpre.skip
  cases hmeans with
  | @ok r callNo reply outstanding typed =>
    obtain ⟨mid, taken, hint, hbody, hkept⟩ := run_value (parseReplyTo_reads typed) hts r rest
    have hfirst := run_readFirstNonWs hskip (c := '='.toUInt8) (by decide)
      (spacing.text (decimal r :: ts) ++ '\n'.toUInt8 :: rest)
    have hline : pre ++ ((ServerMessage.ok r reply).line ts ++ rest) =
        pre ++ '='.toUInt8 :: (spacing.text (decimal r :: ts) ++ '\n'.toUInt8 :: rest) := by
      simp [ServerMessage.line, ServerMessage.head, ascii, text_cons_cons]
    rw [hline, AioConnection.replyParser, AioConnection.slicingParser]
    simp only [Reader.run_bind, hfirst, Outcome.andThen_returned, if_true, hint, callOf,
      outstanding, Reader.run_pure, hbody, hkept]
    rfl
  | @error r callNo errorNo errorStatus cls outstanding known =>
    obtain ⟨mid, taken, hint, hbody, hkept⟩ := run_value (parseError_reads known).tail hts r rest
    have hfirst := run_readFirstNonWs hskip (c := '%'.toUInt8) (by decide)
      (spacing.text (decimal r :: ts) ++ '\n'.toUInt8 :: rest)
    have hline : pre ++ ((ServerMessage.error r errorNo errorStatus).line ts ++ rest) =
        pre ++ '%'.toUInt8 :: (spacing.text (decimal r :: ts) ++ '\n'.toUInt8 :: rest) := by
      simp [ServerMessage.line, ServerMessage.head, ascii, text_cons_cons]
    have hne : '%'.toUInt8 ≠ '='.toUInt8 := by decide
    rw [hline, AioConnection.replyParser, AioConnection.slicingParser]
    simp only [Reader.run_bind, hfirst, Outcome.andThen_returned, if_true, hne, if_false, hint,
      callOf, outstanding, Reader.run_pure, hbody, hkept]
    rfl
  | async => cases hrefNo

/-! ## Texts are not empty -/

/-- No text of the form is empty. -/
def Nonblank (L : TextForm) : Prop := ∀ ts ∈ L, spacing.text ts ≠ []

/-- Only an empty response is written as nothing. -/
theorem OkReply.nonblank (reply : OkReply) (h : reply.type ≠ .emptyResponse) :
    Nonblank reply.text := by
  intro ts hts
  obtain ⟨c, s, htext, -⟩ := reply.startsWithDigit h ts hts
  rw [htext]
  exact List.cons_ne_nil c s

/-- Exactly the values that end with a number keep all their bytes. -/
theorem keptBytes_eq_iff {m : ServerMessage} {refNo : ℕ} (hrefNo : m.refNo = some refNo)
    {ts : List Bytes} (hts : ts ∈ m.value) :
    keptBytes m.endsWithNumber ts = spacing.text ts ↔ m.endsWithNumber = true := by
  cases hends : m.endsWithNumber with
  | true => simp [keptBytes]
  | false =>
    have hne : spacing.text ts ≠ [] := by
      cases m with
      | ok r reply =>
        refine reply.nonblank ?_ ts hts
        intro htype
        simp [ServerMessage.endsWithNumber, htype, ResponseType.endsWithNumber] at hends
      | error r errorNo errorStatus => cases hends
      | async n msg => cases hrefNo
    have hlen : (spacing.text ts).dropLast.length = (spacing.text ts).length - 1 :=
      List.length_dropLast
    have hpos := List.length_pos_iff.mpr hne
    constructor
    · intro h
      have := congrArg List.length h
      simp only [keptBytes, Bool.false_eq_true, if_false] at this
      omega
    · intro h
      cases h

/-- A call of `read_response` on the line of a reply. -/
theorem AioConnection.readResponse_reply {self : AioConnection} {m : ServerMessage}
    {resp : Response} {refNo : ℕ} (hmeans : m.Means self.calls resp)
    (hrefNo : m.refNo = some refNo) {ts : List Bytes} (hts : ts ∈ m.value) {pre rest : Bytes}
    (hpre : Leftover pre) (hunread : self.unread = pre ++ (m.line ts ++ rest)) :
    ∃ conn, self.readResponse = (.ok (resp, keptBytes m.endsWithNumber ts), conn) := by
  have hspec := self.readResponse_spec
  rw [hunread, run_replyParser hmeans hrefNo hts hpre rest] at hspec
  obtain ⟨conn, hcall, -⟩ := hspec
  exact ⟨conn, hcall⟩

/-- **Which raw replies are exact.** The reply bytes of a reply, and with them what a raw
request returns, are the bytes between the ref-no's separator and the newline if and only
if the reply is an error reply, or carries no value or one that ends with a number or a
bit string. -/
theorem rawReply_exact_iff {self : AioConnection} {m : ServerMessage} {resp : Response}
    {refNo : ℕ} (hmeans : m.Means self.calls resp) (hrefNo : m.refNo = some refNo)
    {ts : List Bytes} (hts : ts ∈ m.value) {pre rest : Bytes} (hpre : Leftover pre)
    (hunread : self.unread = pre ++ (m.line ts ++ rest)) (client : AioClient) :
    ∃ conn replyBytes, self.readResponse = (.ok (resp, replyBytes), conn) ∧
      ((client.receiveResponse (resp, replyBytes)).2.handleReply refNo true).1 =
        .ok (.bytes replyBytes) ∧
      (replyBytes = spacing.text ts ↔ m.endsWithNumber = true) := by
  obtain ⟨conn, hcall⟩ := self.readResponse_reply hmeans hrefNo hts hpre hunread
  refine ⟨conn, _, hcall, ?_, keptBytes_eq_iff hrefNo hts⟩
  exact AioClient.handleReply_receiveResponse (hmeans.refNo_eq ▸ hrefNo)

/-- A session number is returned whole. -/
theorem rawReply_exact_iff_whoAmI :
    let self : AioConnection :=
      { tcpStreamReader := ⟨[ascii "=2 1", ascii "7\n"], by decide⟩
        written := []
        refNo := 2
        outstandingRequests := ⟨[(2, Requests.WHO_AM_I)], by decide⟩
        buffer := .init }
    let client : AioClient := ⟨self, ∅, ∅, []⟩
    ∃ conn replyBytes, self.readResponse = (.ok (.ok 2 (.sessionNo 17), replyBytes), conn) ∧
      ((client.receiveResponse (.ok 2 (.sessionNo 17), replyBytes)).2.handleReply 2 true).1 =
        .ok (.bytes replyBytes) ∧
      (replyBytes = spacing.text [ascii "17"] ↔ true = true) := by
  intro self client
  have hmeans : (ServerMessage.ok 2 (.sessionNo 17)).Means self.calls (.ok 2 (.sessionNo 17)) :=
    .ok rfl rfl
  have hunread :
      self.unread = [] ++ ((ServerMessage.ok 2 (.sessionNo 17)).line [ascii "17"] ++ []) := by
    decide
  exact rawReply_exact_iff hmeans rfl rfl (Or.inl rfl) hunread client

/-- The reply to `get-text` loses the last byte of the text. -/
theorem rawReply_cut :
    ¬ ∀ (self : AioConnection) (m : ServerMessage) (resp : Response) (refNo : ℕ)
        (ts : List Bytes) (rest : Bytes),
      m.Means self.calls resp → m.refNo = some refNo → ts ∈ m.value →
      self.unread = m.line ts ++ rest →
      ∃ conn, self.readResponse = (.ok (resp, spacing.text ts), conn) := by
  intro h
  let self : AioConnection :=
    { tcpStreamReader := ⟨[ascii "=1 5Hhello\n"], by decide⟩
      written := []
      refNo := 1
      outstandingRequests := ⟨[(1, Requests.GET_TEXT)], by decide⟩
      buffer := .init }
  let m : ServerMessage := .ok 1 (.string (ascii "hello"))
  have hmeans : m.Means self.calls (.ok 1 (.string (ascii "hello"))) := .ok rfl rfl
  have hts : [ascii "5Hhello"] ∈ m.value := rfl
  have hunread : self.unread = [] ++ (m.line [ascii "5Hhello"] ++ []) := by decide
  obtain ⟨conn, hcall⟩ := h self m _ 1 [ascii "5Hhello"] [] hmeans rfl hts hunread
  obtain ⟨conn', hcut⟩ := self.readResponse_reply hmeans rfl hts (Or.inl rfl) hunread
  rw [hcut] at hcall
  have hbytes : keptBytes m.endsWithNumber [ascii "5Hhello"] ≠ spacing.text [ascii "5Hhello"] := by
    decide
  simp only [Prod.mk.injEq, Except.ok.injEq, true_and] at hcall
  exact hbytes hcall.1

end Pylyskom
