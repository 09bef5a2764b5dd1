import Pylyskom.Aio.RawReplies
import Pylyskom.Reader.Separators

/-!
# Outcomes of raw requests

A raw request returns the reply bytes whether the reply is an ok reply or an error reply, and
the byte that tells the two apart is not among them. The bytes of an error reply are two
numbers. Of all values only a scheduling-info is written so, which the caller cannot tell
from an error with these numbers.
-/

namespace Pylyskom

open Spacing

namespace AioClient

/-- What `_request` returns for a raw request that waits for the event of its ref-no, when the
response receiver takes the next response; `none` if it gets none. -/
def rawOutcome (self : AioClient) (refNo : ℕ) : Option (Except Exn RequestResult) :=
  match self.conn.readResponse with
  | (.ok response, conn) =>
    some (({ self with conn }.receiveResponse response).2.endRequest refNo true).1
  | (.error _, _) => none

/-- A raw request of a call waits under a ref-no, and the next message has the value `ts`. -/
structure Awaits (client : AioClient) (refNo callNo : ℕ) (m : ServerMessage)
    (ts : List Bytes) : Prop where
  event : refNo ∈ client.outstandingRequestsEvents
  outstanding : client.conn.calls refNo = some callNo
  written : ts ∈ m.value
  next : ∃ pre rest, Leftover pre ∧ client.conn.unread = pre ++ (m.line ts ++ rest)

/-- A raw request whose event has been set returns the bytes from the queue. -/
theorem endRequest_raw {self : AioClient} {refNo : ℕ} {queued : QueuedReply}
    (hevent : refNo ∈ self.outstandingRequestsEvents)
    (hqueued : self.replyQueue.get? refNo = some queued) :
    (self.endRequest refNo true).1 = .ok (.bytes queued.replyBytes) := by
  simp only [endRequest, hevent, not_true_eq_false, if_false, handleReply, hqueued, if_true]

/-- The bytes of either reply are returned. -/
theorem rawOutcome_eq {client : AioClient} {refNo callNo : ℕ} {m : ServerMessage}
    {ts : List Bytes} {resp : Response} (h : client.Awaits refNo callNo m ts)
    (hmeans : m.Means client.conn.calls resp) (hrefNo : m.refNo = some refNo) :
    client.rawOutcome refNo = some (.ok (.bytes (keptBytes m.endsWithNumber ts))) := by
  obtain ⟨pre, rest, hpre, hunread⟩ := h.next
  obtain ⟨conn, hread⟩ := AioConnection.readResponse_reply hmeans hrefNo h.written hpre hunread
  obtain ⟨reply, hreply⟩ : ∃ reply, resp.reply = some (refNo, reply) := by
    cases hmeans with
    | ok => cases hrefNo; exact ⟨_, rfl⟩
    | error => cases hrefNo; exact ⟨_, rfl⟩
    | async => cases hrefNo
  have hevent : refNo ∈ { client with conn }.outstandingRequestsEvents := h.event
  rw [rawOutcome, hread]
  simp only [receiveResponse_reply _ hreply, queueReply, hevent, not_true_eq_false, if_false]
  let queued : QueuedReply := { reply, replyBytes := keptBytes m.endsWithNumber ts }
  have hqueued : (client.replyQueue.set refNo queued).get? refNo = some queued := by simp
  exact congrArg some (@endRequest_raw _ refNo queued (Dict.mem_set.mpr (Or.inl rfl)) hqueued)

end AioClient

/-! ## The bytes of the values -/

/-- The bytes of an error reply. -/
def errorBytes (errorNo errorStatus : ℕ) : Bytes :=
  decimal errorNo ++ ' '.toUInt8 :: decimal errorStatus

theorem keptBytes_numbers (p q : ℕ) : keptBytes true [decimal p, decimal q] = errorBytes p q := by
  simp [keptBytes, errorBytes, text_cons, spacing]

theorem space_not_mem_decimal (n : ℕ) : ' '.toUInt8 ∉ decimal n := by
  intro h
  have hdigit := contains_digits_of_mem_decimal h
  revert hdigit
  decide

theorem count_errorBytes (errorNo errorStatus : ℕ) :
    (errorBytes errorNo errorStatus).count ' '.toUInt8 = 1 := by
  rw [errorBytes, List.count_append, List.count_cons_self,
    List.count_eq_zero_of_not_mem (space_not_mem_decimal errorNo),
    List.count_eq_zero_of_not_mem (space_not_mem_decimal errorStatus)]

theorem run_decimal_space (n : ℕ) (s : Bytes) :
    readIntAndNext.run (decimal n ++ ' '.toUInt8 :: s) = .returned (n, ' '.toUInt8) s := by
  have hnil : ∀ c ∈ ([] : Bytes), whitespace.contains c = true := by simp
  exact run_readIntAndNext hnil n (by decide) s

theorem decimal_injective : Function.Injective decimal := by
  intro n n' h
  have heq := run_decimal_space n []
  rw [h, run_decimal_space n'] at heq
  injection heq with hpair
  exact (Prod.mk.inj hpair).1.symm

/-- Two pairs of numbers are written differently. -/
theorem errorBytes_inj {p q p' q' : ℕ} (h : errorBytes p q = errorBytes p' q') :
    p = p' ∧ q = q' := by
  have heq := run_decimal_space p (decimal q)
  change readIntAndNext.run (errorBytes p q) = _ at heq
  rw [h, errorBytes, run_decimal_space p'] at heq
  injection heq with hpair hrest
  exact ⟨(Prod.mk.inj hpair).1.symm, decimal_injective hrest.symm⟩

/-! ## Values of three or more tokens -/

theorem gaps_int (n : ℕ) : spacing.Gaps 0 (Int.text n) := gaps_token (decimal_ne_nil n)

theorem gaps_string (s : Bytes) : spacing.Gaps 0 (String.text s) := by
  apply gaps_token
  rw [toHstring, List.append_assoc]
  exact List.append_ne_nil_of_left_ne_nil (decimal_ne_nil _) _

theorem gaps_bitstring {n : ℕ} (bits : Bitstring (n + 1)) :
    spacing.Gaps 0 (Bitstring.text bits) := by
  apply gaps_token
  apply List.ne_nil_of_length_pos
  rw [List.length_map, List.Vector.toList_length]
  exact Nat.succ_pos n

/-- A form that begins with three tokens has two separators. -/
theorem gaps_three {A B C : TextForm} (hA : spacing.Gaps 0 A) (hB : spacing.Gaps 0 B)
    (hC : spacing.Gaps 0 C) (rest : TextForm) : spacing.Gaps 2 (A * (B * (C * rest))) :=
  hA.mul (hB.mul (hC.mul_right rest))

theorem gaps_time (t : Time) : spacing.Gaps 2 (Time.text t) :=
  gaps_three (gaps_int _) (gaps_int _) (gaps_int _) _

/-- An array is written in braces, with two separators, or as `0 *`. -/
theorem gaps_braces (n : ℕ) (elements : TextForm) :
    spacing.Gaps 2 (token (decimal n) *
      (token ['{'.toUInt8] * (elements * token ['}'.toUInt8]))) :=
  (gaps_int n).mul ((gaps_token (List.cons_ne_nil _ _)).mul
    ((gaps_token (List.cons_ne_nil _ _)).mul_left elements))

theorem gaps_array {α : Type} (element : α → TextForm) (obj : List α) :
    spacing.Gaps 1 (Array.text element obj) := by
  apply Gaps.add
  · exact (gaps_braces _ _).mono (Nat.le_succ 1)
  · split
    · exact (gaps_token (List.cons_ne_nil _ _)).mul (gaps_token (List.cons_ne_nil _ _))
    · exact fun ts hts => absurd hts (Language.notMem_zero ts)

/-- Separators before the last byte are kept. -/
theorem count_keptBytes {k : ℕ} {L : TextForm} (h : spacing.Gaps k L) {ts : List Bytes}
    (hts : ts ∈ L) (eats : Bool) : k ≤ (keptBytes eats ts).count ' '.toUInt8 := by
  have hle := (h ts hts).2
  cases eats with
  | false => exact hle
  | true => exact hle.trans (count_dropLast_le _)

/-- An error reply has one separator. -/
theorem ne_errorBytes_of_gaps {L : TextForm} (h : spacing.Gaps 2 L) {ts : List Bytes}
    (hts : ts ∈ L) (eats : Bool) (errorNo errorStatus : ℕ) :
    keptBytes eats ts ≠ errorBytes errorNo errorStatus := by
  intro heq
  have hcount := count_keptBytes h hts eats
  rw [heq, count_errorBytes] at hcount
  omega

/-! ## Other values -/

theorem ne_errorBytes_of_int {n : ℕ} {ts : List Bytes} (hts : ts ∈ Int.text n)
    (errorNo errorStatus : ℕ) : keptBytes true ts ≠ errorBytes errorNo errorStatus := by
  obtain rfl : ts = [decimal n] := hts
  intro heq
  have hcount := count_errorBytes errorNo errorStatus
  rw [← heq, keptBytes, if_pos rfl, text_singleton,
    List.count_eq_zero_of_not_mem (space_not_mem_decimal n)] at hcount
  cases hcount

/-- An error reply is written with digits and a space. -/
theorem mem_errorBytes {errorNo errorStatus : ℕ} {c : UInt8}
    (hc : c ∈ errorBytes errorNo errorStatus) : digits.contains c = true ∨ c = ' '.toUInt8 := by
  rcases List.mem_append.mp hc with hc | hc
  · exact Or.inl (contains_digits_of_mem_decimal hc)
  · rcases List.mem_cons.mp hc with rfl | hc
    · exact Or.inr rfl
    · exact Or.inl (contains_digits_of_mem_decimal hc)

/-- A string has its `H`, unless it is empty and the `H` is the byte that is cut. -/
theorem ne_errorBytes_of_string {s : Bytes} {ts : List Bytes} (hts : ts ∈ String.text s)
    (errorNo errorStatus : ℕ) : keptBytes false ts ≠ errorBytes errorNo errorStatus := by
  obtain rfl : ts = [toHstring s] := hts
  intro heq
  rw [keptBytes, if_neg Bool.false_ne_true, text_singleton, toHstring] at heq
  cases s with
  | nil =>
    have hcount := count_errorBytes errorNo errorStatus
    rw [← heq] at hcount
    revert hcount
    decide
  | cons c s =>
    have hmem : 'H'.toUInt8 ∈ errorBytes errorNo errorStatus := by
      rw [← heq, List.dropLast_append_of_ne_nil (List.cons_ne_nil c s)]
      exact List.mem_append_left _ (List.mem_append_right _ List.mem_cons_self)
    have hdigit := mem_errorBytes hmem
    revert hdigit
    decide

/-- An array that is written as `0 *` is cut to a number and a space. -/
theorem ne_errorBytes_of_array {α : Type} {element : α → TextForm} {obj : List α}
    {ts : List Bytes} (hts : ts ∈ Array.text element obj) (errorNo errorStatus : ℕ) :
    keptBytes false ts ≠ errorBytes errorNo errorStatus := by
  rcases hts with hts | hts
  · exact ne_errorBytes_of_gaps (gaps_braces _ _) hts false errorNo errorStatus
  · split at hts
    · obtain ⟨us, rfl, vs, rfl, rfl⟩ := Language.mem_mul.mp hts
      intro heq
      -- there is a number after the space of an error reply
      have hnumbers : [decimal errorNo, decimal errorStatus] ∈
          Int.text errorNo * Int.text errorStatus :=
        Language.mem_mul.mpr ⟨_, rfl, _, rfl, rfl⟩
      obtain ⟨-, hcount⟩ := (gaps_int errorNo).mul (gaps_int errorStatus) _ hnumbers
      have htext : spacing.text [decimal errorNo, decimal errorStatus] =
          errorBytes errorNo errorStatus := keptBytes_numbers errorNo errorStatus
      rw [htext, ← heq] at hcount
      revert hcount
      decide
    · exact absurd hts (Language.notMem_zero ts)

/-- **The bytes of an ok reply are not those of an error reply**, unless its value is a
scheduling-info. -/
theorem OkReply.ne_errorBytes {reply : OkReply} (hne : reply.type ≠ .schedulingInfo)
    {ts : List Bytes} (hts : ts ∈ reply.text) (errorNo errorStatus : ℕ) :
    keptBytes reply.type.endsWithNumber ts ≠ errorBytes errorNo errorStatus := by
  cases reply with
  | emptyResponse =>
    obtain rfl : ts = [] := hts
    intro heq
    have hcount := count_errorBytes errorNo errorStatus
    rw [← heq] at hcount
    cases hcount
  | textNo value | confNo value | persNo value | sessionNo value =>
    exact ne_errorBytes_of_int hts errorNo errorStatus
  | string value => exact ne_errorBytes_of_string hts errorNo errorStatus
  | arrayMark value | arrayMember value | arrayMembership11 value | arrayMembership10 value
  | arrayStats value | arrayConfNo value | arrayInt32 value | arrayConfZInfo value
  | arrayDynamicSessionInfo value => exact ne_errorBytes_of_array hts errorNo errorStatus
  | schedulingInfo value => exact absurd rfl hne
  | staticServerInfo value | textStat value =>
    exact ne_errorBytes_of_gaps ((gaps_time _).mul_right _) hts _ errorNo errorStatus
  | time value => exact ne_errorBytes_of_gaps (gaps_time value) hts _ errorNo errorStatus
  | conference value =>
    refine ne_errorBytes_of_gaps ?_ hts _ errorNo errorStatus
    exact gaps_three (gaps_string _) (gaps_bitstring _) ((gaps_time _).mono (Nat.zero_le 2)) _
  | person value =>
    refine ne_errorBytes_of_gaps ?_ hts _ errorNo errorStatus
    exact gaps_three (gaps_string _) (gaps_bitstring _) (gaps_bitstring _) _
  | uConference value =>
    refine ne_errorBytes_of_gaps ?_ hts _ errorNo errorStatus
    exact gaps_three (gaps_string _) (gaps_bitstring _) (gaps_int _) _
  | staticSessionInfo value =>
    refine ne_errorBytes_of_gaps ?_ hts _ errorNo errorStatus
    exact gaps_three (gaps_string _) (gaps_string _) (gaps_string _) _
  | info value | textMapping value =>
    refine ne_errorBytes_of_gaps ?_ hts _ errorNo errorStatus
    exact gaps_three (gaps_int _) (gaps_int _) (gaps_int _) _
  | versionInfo value =>
    refine ne_errorBytes_of_gaps ?_ hts _ errorNo errorStatus
    exact gaps_three (gaps_int _) (gaps_string _) (gaps_string _) _
  | membership11 value | membership10 value =>
    refine ne_errorBytes_of_gaps ?_ hts _ errorNo errorStatus
    exact gaps_three (gaps_int _) ((gaps_time _).mono (Nat.zero_le 2)) (gaps_int _) _
  | textList value =>
    refine ne_errorBytes_of_gaps ?_ hts _ errorNo errorStatus
    exact (gaps_int _).mul ((gaps_array _ _).mul_right _)
  | statsDescription value =>
    refine ne_errorBytes_of_gaps ?_ hts _ errorNo errorStatus
    exact (gaps_array _ _).mul (((gaps_array _ _).mul_right _).mono (Nat.zero_le 1))

/-- A scheduling-info is written as its two numbers, and keeps its bytes. -/
theorem keptBytes_schedulingInfo {value : SchedulingInfo} {ts : List Bytes}
    (hts : ts ∈ SchedulingInfo.text value) :
    keptBytes true ts = errorBytes value.priority value.weight := by
  obtain ⟨us, rfl, vs, hvs, rfl⟩ := Language.mem_mul.mp hts
  obtain ⟨us, rfl, vs, rfl, rfl⟩ := Language.mem_mul.mp hvs
  exact keptBytes_numbers value.priority value.weight

/-- The bytes of an ok reply are those of an error reply exactly if its value is the
scheduling-info with the numbers of the error reply. -/
theorem OkReply.eq_errorBytes_iff {reply : OkReply} {ts : List Bytes} (hts : ts ∈ reply.text)
    (errorNo errorStatus : ℕ) :
    keptBytes reply.type.endsWithNumber ts = errorBytes errorNo errorStatus ↔
      reply = .schedulingInfo ⟨errorNo, errorStatus⟩ := by
  constructor
  · intro heq
    by_cases htype : reply.type = .schedulingInfo
    · cases reply with
      | schedulingInfo value =>
        obtain ⟨rfl, rfl⟩ := errorBytes_inj ((keptBytes_schedulingInfo hts).symm.trans heq)
        rfl
      | _ => cases htype
    · exact absurd heq (ne_errorBytes htype hts errorNo errorStatus)
  · rintro rfl
    exact keptBytes_schedulingInfo hts

/-! ## Which outcomes differ -/

/-- **When the outcomes of a raw request differ.** For every call, every value of its response
type and every error reply, a raw request of the call returns bytes, and these are different
ones for the two replies if and only if the value is not a scheduling-info with the numbers
of the error reply. -/
theorem AioClient.rawOutcome_ne_iff {client client' : AioClient} {refNo refNo' callNo : ℕ}
    {reply : OkReply} {errorNo errorStatus : ℕ} {cls : ServerErrorClass} {ts ts' : List Bytes}
    (typed : responseDict.lookup callNo = some reply.type)
    (known : errorDict.lookup errorNo = some cls)
    (hok : client.Awaits refNo callNo (.ok refNo reply) ts)
    (herror : client'.Awaits refNo' callNo (.error refNo' errorNo errorStatus) ts') :
    (∃ replyBytes, client.rawOutcome refNo = some (.ok (.bytes replyBytes))) ∧
    (∃ replyBytes, client'.rawOutcome refNo' = some (.ok (.bytes replyBytes))) ∧
    (client.rawOutcome refNo ≠ client'.rawOutcome refNo' ↔
      reply ≠ .schedulingInfo ⟨errorNo, errorStatus⟩) := by
  have houtcome := rawOutcome_eq hok (.ok hok.outstanding typed) rfl
  have houtcome' := rawOutcome_eq herror (.error herror.outstanding known) rfl
  refine ⟨⟨_, houtcome⟩, ⟨_, houtcome'⟩, ?_⟩
  obtain rfl : ts' = [decimal errorNo, decimal errorStatus] := by
    obtain ⟨us, rfl, vs, rfl, rfl⟩ := Language.mem_mul.mp herror.written
    rfl
  have hbytes := OkReply.eq_errorBytes_iff hok.written errorNo errorStatus
  rw [← keptBytes_numbers] at hbytes
  rw [Ne, Ne, ← hbytes, houtcome, houtcome']
  simp [ServerMessage.endsWithNumber]

section

/-- A client with a raw `get-scheduling` under ref-no 2, and a line on its way. -/
private def waitingClient (line : Bytes) (hline : line ≠ []) : AioClient where
  conn :=
    { tcpStreamReader := ⟨[line], by simpa using hline⟩
      written := []
      refNo := 2
      outstandingRequests := ⟨[(2, Requests.GET_SCHEDULING)], by decide⟩
      buffer := .init }
  replyQueue := ∅
  outstandingRequestsEvents := ⟨[(2, false)], by decide⟩
  asyncmsgQueue := []

private theorem waitingClient_awaits {m : ServerMessage} {ts : List Bytes} (hts : ts ∈ m.value)
    (hline : m.line ts ≠ []) :
    (waitingClient (m.line ts) hline).Awaits 2 Requests.GET_SCHEDULING m ts where
  event := List.mem_cons_self
  outstanding := rfl
  written := hts
  next := by
    refine ⟨[], [], Or.inl rfl, ?_⟩
    simp [AioConnection.unread, waitingClient, AioReceiveBuffer.init, AioReceiveBuffer.holding,
      AioReceiveBuffer.current, Pieces.bytes]

/-- Priority 42 and weight 8, and an undefined session 7. -/
theorem AioClient.rawOutcome_ne_scheduling :
    (waitingClient (ascii "=2 42 8\n") (by decide)).rawOutcome 2 ≠
      (waitingClient (ascii "%2 42 7\n") (by decide)).rawOutcome 2 := by
  have hok : [decimal 42, decimal 8] ∈ (ServerMessage.ok 2 (.schedulingInfo ⟨42, 8⟩)).value :=
    mem_prod_token [decimal 42, decimal 8]
  have herror : [decimal 42, decimal 7] ∈ (ServerMessage.error 2 42 7).value :=
    Language.mem_mul.mpr ⟨_, rfl, _, rfl, rfl⟩
  exact (rawOutcome_ne_iff rfl rfl (waitingClient_awaits hok (by decide))
    (waitingClient_awaits herror (by decide))).2.2.mpr (by decide)

/-- Priority 42 and weight 7, and an undefined session 7. -/
theorem AioClient.not_rawOutcome_ne :
    ¬ ∀ (client client' : AioClient) (refNo callNo : ℕ) (reply : OkReply)
        (errorNo errorStatus : ℕ) (cls : ServerErrorClass) (ts ts' : List Bytes),
      responseDict.lookup callNo = some reply.type → errorDict.lookup errorNo = some cls →
      client.Awaits refNo callNo (.ok refNo reply) ts →
      client'.Awaits refNo callNo (.error refNo errorNo errorStatus) ts' →
      client.rawOutcome refNo ≠ client'.rawOutcome refNo := by
  intro hclaim
  have hok : [decimal 42, decimal 7] ∈ (ServerMessage.ok 2 (.schedulingInfo ⟨42, 7⟩)).value :=
    mem_prod_token [decimal 42, decimal 7]
  have herror : [decimal 42, decimal 7] ∈ (ServerMessage.error 2 42 7).value :=
    Language.mem_mul.mpr ⟨_, rfl, _, rfl, rfl⟩
  have hawaits := waitingClient_awaits hok (by decide)
  have hawaits' := waitingClient_awaits herror (by decide)
  apply hclaim _ _ 2 _ _ 42 7 .undefinedSession _ _ rfl rfl hawaits hawaits'
  have hmeans : ServerMessage.Means _ (.error 2 42 7) (.error 2 ⟨.undefinedSession, 7⟩) :=
    .error hawaits'.outstanding rfl
  rw [rawOutcome_eq hawaits (.ok hawaits.outstanding rfl) rfl,
    rawOutcome_eq hawaits' hmeans rfl]
  rfl

end

end Pylyskom
