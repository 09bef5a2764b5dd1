import Pylyskom.Responses

/-!
# Rejected messages

Messages of the server that `read_response` answers with an exception, and what it leaves
unread of them. It stops where it finds the error, which for most of them is before the
end of the line.
-/

namespace Pylyskom

open Spacing

/-! ## The messages -/

/-- The tokens that Protocol A writes the fields of a message with. -/
inductive FieldToken : Bytes → Prop
  | int (n : ℕ) : FieldToken (decimal n)
  | string (s : Bytes) : FieldToken (toHstring s)
  | bits {length : ℕ} (bits : Bitstring (length + 1)) :
      FieldToken (bits.toList.map fun b => if b then '1'.toUInt8 else '0'.toUInt8)
  | float {t : Bytes} {x : PyFloat} (chars : t.all floatChars.contains)
      (denotes : PyFloat.ofBytes t = some x) : FieldToken t
  | openBrace : FieldToken ['{'.toUInt8]
  | closeBrace : FieldToken ['}'.toUInt8]
  | star : FieldToken ['*'.toUInt8]

/-- A message that `read_response` may reject. -/
inductive RejectedMessage : Type
  /-- A reply with a value. -/
  | ok (refNo : ℕ) (reply : OkReply)
  | error (refNo errorNo errorStatus : ℕ)
  /-- An asynchronous message with the tokens of its fields. -/
  | async (argumentCount msgNo : ℕ) (fields : List Bytes)

namespace RejectedMessage

/-- The messages that are rejected, and the exceptions, when the given calls are
outstanding. -/
inductive Rejected (calls : ℕ → Option ℕ) : RejectedMessage → Exn → Prop
  | ok {refNo : ℕ} {reply : OkReply} (unknown : calls refNo = none)
      (value : reply.type ≠ .emptyResponse) :
      Rejected calls (.ok refNo reply) (.localError (.badRequestId refNo))
  | error {refNo errorNo errorStatus : ℕ} (unknown : calls refNo = none) :
      Rejected calls (.error refNo errorNo errorStatus) (.localError (.badRequestId refNo))
  | errorNo {refNo callNo errorNo errorStatus : ℕ} (outstanding : calls refNo = some callNo)
      (unknown : errorDict.lookup errorNo = none) :
      Rejected calls (.error refNo errorNo errorStatus) (.builtinError (.keyError errorNo))
  | async {argumentCount msgNo : ℕ} {fields : List Bytes}
      (unknown : asyncDict.lookup msgNo = none) (wellFormed : ∀ t ∈ fields, FieldToken t) :
      Rejected calls (.async argumentCount msgNo fields) (.localError (.unimplementedAsync msgNo))

def text : RejectedMessage → TextForm
  | ok refNo reply => (ServerMessage.ok refNo reply).text
  | error refNo errorNo errorStatus => (ServerMessage.error refNo errorNo errorStatus).text
  | async argumentCount msgNo fields =>
    {(ascii ":" ++ decimal argumentCount) :: decimal msgNo :: fields}

/-- The lines that the server may send for a message, each ended by a newline. -/
def lines (m : RejectedMessage) : Set Bytes :=
  {line | ∃ ts ∈ m.text, line = spacing.text ts ++ ascii "\n"}

/-- The ref-no of an error reply to an outstanding request. -/
def errorTo (calls : ℕ → Option ℕ) : RejectedMessage → Option ℕ
  | error refNo _ _ => if (calls refNo).isSome then some refNo else none
  | _ => none

/-- An asynchronous message without fields. -/
def bareAsync : RejectedMessage → Bool
  | async _ _ [] => true
  | _ => false

end RejectedMessage

/-! ## What is left of a rejected message -/

/-- A byte that cannot start a message and that is not skipped before one. -/
def Alien (c : UInt8) : Prop :=
  whitespace.contains c = false ∧ c ≠ '='.toUInt8 ∧ c ≠ '%'.toUInt8 ∧ c ≠ ':'.toUInt8

theorem alien_digit {c : UInt8} (h : digits.contains c = true) : Alien c := by
  have hne : ∀ d : UInt8, digits.contains d = false → c ≠ d := by
    rintro d hd rfl
    rw [h] at hd
    cases hd
  exact ⟨not_whitespace_of_digit h, hne _ (by decide), hne _ (by decide), hne _ (by decide)⟩

theorem alien_floatChar {c : UInt8} (h : floatChars.contains c = true) : Alien c := by
  have hne : ∀ d : UInt8, floatChars.contains d = false → c ≠ d := by
    rintro d hd rfl
    rw [h] at hd
    cases hd
  exact ⟨not_contains_of_all (by decide) h, hne _ (by decide), hne _ (by decide),
    hne _ (by decide)⟩

/-- No field looks like the start of a message. -/
theorem FieldToken.first {t : Bytes} (h : FieldToken t) : ∃ c s, t = c :: s ∧ Alien c := by
  cases h with
  | int n =>
    obtain ⟨c, s, hdec, hc⟩ := decimal_eq_cons n
    exact ⟨c, s, hdec, alien_digit hc⟩
  | string s =>
    obtain ⟨c, t, hdec, hc⟩ := decimal_eq_cons s.length
    refine ⟨c, t ++ (ascii "H" ++ s), ?_, alien_digit hc⟩
    rw [toHstring, hdec, List.append_assoc]
    rfl
  | bits bits =>
    refine ⟨_, _, by rw [← bits.cons_head_tail]; rfl, ?_⟩
    apply alien_digit
    cases bits.head <;> decide
  | float chars denotes =>
    cases t with
    | nil => cases denotes
    | cons c s =>
      exact ⟨c, s, rfl, alien_floatChar (List.all_eq_true.mp chars c List.mem_cons_self)⟩
  | openBrace => exact ⟨_, _, rfl, by unfold Alien; decide⟩
  | closeBrace => exact ⟨_, _, rfl, by unfold Alien; decide⟩
  | star => exact ⟨_, _, rfl, by unfold Alien; decide⟩

/-- Such a byte is rejected by itself. -/
theorem responseParser_alien (calls : ℕ → Option ℕ) {c : UInt8} (hc : Alien c) (s : Bytes) :
    (responseParser calls).run (c :: s) = .raised (.localError (.protocolError (some c))) s := by
  obtain ⟨hskip, hok, herror, hasync⟩ := hc
  have hnone : ∀ d ∈ ([] : Bytes), whitespace.contains d = true := by simp
  have hfirst := run_readFirstNonWs hnone hskip s
  rw [List.nil_append] at hfirst
  rw [responseParser, Reader.run_bind, hfirst, Outcome.andThen_returned, if_neg hok,
    if_neg herror, if_neg hasync, Reader.run_raise]

/-- What is left of a line when its first token has been read with the byte after it. -/
def afterToken (ts : List Bytes) (rest : Bytes) : Bytes :=
  if ts = [] then rest else spacing.text ts ++ '\n'.toUInt8 :: rest

/-- A number is read up to the byte after it, whether this is a space or the newline. -/
theorem run_readInt_line (n : ℕ) (ts : List Bytes) (rest : Bytes) :
    readInt.run (spacing.text (decimal n :: ts) ++ '\n'.toUInt8 :: rest) =
      .returned n (afterToken ts rest) := by
  have hint : ∀ {d : UInt8}, whitespace.contains d = true → ∀ s,
      readInt.run (decimal n ++ d :: s) = .returned n s := by
    intro d hd s
    have hnil : ∀ c ∈ ([] : Bytes), whitespace.contains c = true := by simp
    have hrun := run_readIntAndNext hnil n (not_digit_of_whitespace hd) s
    rw [List.nil_append] at hrun
    rw [readInt, Reader.run_bind, hrun]
    rfl
  by_cases hts : ts = []
  · subst hts
    rw [text_singleton, afterToken, if_pos rfl]
    exact hint (by decide) rest
  · rw [text_cons _ hts, afterToken, if_neg hts, List.append_assoc]
    exact hint (by decide) _

/-- The byte that opens a line is read, whatever is left of the message before it, and the
number after it. -/
theorem run_readFirstNonWs_line {α : Type} {c : UInt8} (hc : whitespace.contains c = false)
    {pre : Bytes} (hpre : Leftover pre) (n : ℕ) (ts : List Bytes) (rest : Bytes)
    (f : UInt8 → Parser α) {g : ℕ → Parser α} (hf : f c = readInt >>= g) :
    (readFirstNonWs >>= f).run
        (pre ++ (spacing.text ((c :: decimal n) :: ts) ++ ascii "\n" ++ rest)) =
      (g n).run (afterToken ts rest) := by
  have hline : pre ++ (spacing.text ((c :: decimal n) :: ts) ++ ascii "\n" ++ rest) =
      pre ++ c :: (spacing.text (decimal n :: ts) ++ '\n'.toUInt8 :: rest) := by
    simp [ascii, text_cons_cons]
  rw [hline, Reader.run_bind, run_readFirstNonWs hpre.skip hc, Outcome.andThen_returned, hf,
    Reader.run_bind, run_readInt_line, Outcome.andThen_returned]

/-- The first token of the values of a text form is left. -/
theorem StartsWithDigit.afterToken {L : TextForm} (h : StartsWithDigit L) {ts : List Bytes}
    (hts : ts ∈ L) (rest : Bytes) : ∃ c s, afterToken ts rest = c :: s ∧ Alien c := by
  obtain ⟨c, s, htext, hc⟩ := h ts hts
  have hne : ts ≠ [] := by
    rintro rfl
    cases htext
  exact ⟨c, s ++ '\n'.toUInt8 :: rest, by rw [Pylyskom.afterToken, if_neg hne, htext]; rfl,
    alien_digit hc⟩

theorem FieldToken.afterToken {t : Bytes} (h : FieldToken t) (ts : List Bytes) (rest : Bytes) :
    ∃ c s, afterToken (t :: ts) rest = c :: s ∧ Alien c := by
  obtain ⟨c, s, rfl, hc⟩ := h.first
  refine ⟨c, spacing.text (s :: ts) ++ '\n'.toUInt8 :: rest, ?_, hc⟩
  rw [Pylyskom.afterToken, if_neg (List.cons_ne_nil _ _), text_cons_cons]
  rfl

/-- A reply to a ref-no that is not outstanding is rejected after its ref-no. -/
theorem responseParser_unknown {calls : ℕ → Option ℕ} {m : ServerMessage} {refNo : ℕ}
    (hrefNo : m.refNo = some refNo) (unknown : calls refNo = none) {line pre : Bytes}
    (hline : line ∈ m.lines) (hpre : Leftover pre) (rest : Bytes) :
    ∃ ts ∈ m.value, (responseParser calls).run (pre ++ (line ++ rest)) =
      .raised (.localError (.badRequestId refNo)) (afterToken ts rest) := by
  obtain ⟨ts, hts, rfl⟩ := hline
  obtain ⟨_, rfl, vs, hvs, rfl⟩ := Language.mem_mul.mp hts
  refine ⟨vs, hvs, ?_⟩
  cases m with
  | ok r reply =>
    cases hrefNo
    refine (run_readFirstNonWs_line (by decide) hpre refNo vs rest _ (if_pos rfl)).trans ?_
    rw [callOf, unknown, Reader.raise_bind, Reader.run_raise]
  | error r errorNo errorStatus =>
    cases hrefNo
    refine (run_readFirstNonWs_line (by decide) hpre refNo vs rest _ rfl).trans ?_
    rw [callOf, unknown, Reader.raise_bind, Reader.run_raise]
  | async argumentCount msg => cases hrefNo

/-- **What a rejected message leaves unread**: nothing, if it has no fields or is an error
reply to an outstanding ref-no, which is read whole; otherwise bytes of its value, which do
not look like a message. -/
theorem responseParser_rejected {calls : ℕ → Option ℕ} {m : RejectedMessage} {e : Exn}
    (h : m.Rejected calls e) {line pre : Bytes} (hline : line ∈ m.lines) (hpre : Leftover pre)
    (rest : Bytes) :
    ∃ left, (responseParser calls).run (pre ++ (line ++ rest)) = .raised e left ∧
      if m.bareAsync = true ∨ (m.errorTo calls).isSome = true then left = rest
      else ∃ c s, left = c :: s ∧ Alien c := by
  cases h with
  | @ok refNo reply unknown value =>
    obtain ⟨vs, hvs, hrun⟩ := responseParser_unknown rfl unknown hline hpre rest
    exact ⟨afterToken vs rest, hrun, (reply.startsWithDigit value).afterToken hvs rest⟩
  | @error refNo errorNo errorStatus unknown =>
    obtain ⟨vs, hvs, hrun⟩ := responseParser_unknown rfl unknown hline hpre rest
    refine ⟨afterToken vs rest, hrun, ?_⟩
    simp only [RejectedMessage.bareAsync, RejectedMessage.errorTo, unknown]
    exact ((startsWithDigit_int errorNo).mul _).afterToken hvs rest
  | @errorNo refNo callNo errorNo errorStatus outstanding unknown =>
    obtain ⟨ts, hts, rfl⟩ := hline
    obtain ⟨_, rfl, _, ⟨_, rfl, _, rfl, rfl⟩, rfl⟩ := Language.mem_mul.mp hts
    refine ⟨rest, ?_, by simp [RejectedMessage.errorTo, outstanding]⟩
    refine (run_readFirstNonWs_line (by decide) hpre refNo
      [decimal errorNo, decimal errorStatus] rest _ rfl).trans ?_
    have hstatus : afterToken [decimal errorNo, decimal errorStatus] rest =
        spacing.text [decimal errorNo, decimal errorStatus] ++ '\n'.toUInt8 :: rest := rfl
    have hend : afterToken [decimal errorStatus] rest =
        spacing.text [decimal errorStatus] ++ '\n'.toUInt8 :: rest := rfl
    rw [callOf, outstanding, hstatus]
    simp only [pure_bind, parseError, bind_assoc, Reader.run_bind, run_readInt_line,
      Outcome.andThen_returned, hend, subscript, unknown, Reader.run_raise,
      Outcome.andThen_raised]
    rfl
  | @async argumentCount msgNo fields unknown wellFormed =>
    obtain ⟨_, rfl, rfl⟩ := hline
    have hfields : afterToken (decimal msgNo :: fields) rest =
        spacing.text (decimal msgNo :: fields) ++ '\n'.toUInt8 :: rest := rfl
    refine ⟨afterToken fields rest, ?_, ?_⟩
    · obtain ⟨parse, hparse, hunknown⟩ : ∃ parse : ℕ → Parser AsyncMessage,
          parseAsync = (readInt >>= fun _ => readInt >>= parse) ∧
            ∀ n, asyncDict.lookup n = none →
              parse n = Reader.raise (.localError (.unimplementedAsync n)) :=
        ⟨_, rfl, fun n hnone => by rw [hnone]⟩
      have hasync : (do return Response.async (← parseAsync) : Parser Response) =
          readInt >>= fun _ => readInt >>= fun n => parse n >>= fun msg => pure (.async msg) := by
        rw [hparse, bind_assoc]
        exact congrArg _ (funext fun _ => bind_assoc _ _ _)
      refine (run_readFirstNonWs_line (by decide) hpre argumentCount (decimal msgNo :: fields)
        rest _ hasync).trans ?_
      rw [hfields, Reader.run_bind, run_readInt_line]
      simp only [Outcome.andThen_returned, hunknown msgNo unknown, Reader.raise_bind,
        Reader.run_raise]
    · cases fields with
      | nil => rfl
      | cons t ts => exact (wellFormed t List.mem_cons_self).afterToken ts rest

end Pylyskom
