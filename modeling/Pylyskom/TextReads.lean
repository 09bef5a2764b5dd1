import Pylyskom.MiscInfo
import Mathlib.Data.Vector.Basic

/-!
# The parsers read the text form

Every `parse` returns a value from each of the value's text forms. Parsers whose last
field is a number or a bit string also take the byte that follows; those whose last
field is a string or an array leave it unread.
-/

namespace Pylyskom

open Spacing

/-! ## Simple types -/

theorem readInt_reads (n : ℕ) : spacing.Reads readInt n (Int.text n) true := by
  rintro ts rfl
  refine ⟨by simp, fun pre hpre d hd rest => ?_⟩
  have hrun := run_readIntAndNext hpre n (not_digit_of_whitespace hd) rest
  simp only [readInt, Reader.run_bind, text_singleton, hrun, Outcome.andThen_returned]
  rfl

theorem Int.reads (n : ℕ) : spacing.Reads Int.parse n (Int.text n) true := readInt_reads n

/-- The `H` of a string ends its length; the content is taken by count. -/
theorem String.reads (s : Bytes) : spacing.Reads String.parse s (String.text s) false := by
  rintro ts rfl
  refine ⟨by simp, fun pre hpre d hd rest => ?_⟩
  have hlen := run_readIntAndNext hpre s.length (d := 'H'.toUInt8) (by decide) (s ++ d :: rest)
  have hbytes : pre ++ spacing.text [toHstring s] ++ d :: rest =
      pre ++ decimal s.length ++ 'H'.toUInt8 :: (s ++ d :: rest) := by
    simp [toHstring, ascii]
  rw [hbytes, String.parse, Reader.run_bind, hlen]
  simp

/-- A single byte token is what `read_first_non_ws` returns. -/
theorem readFirstNonWs_reads {c : UInt8} (hc : whitespace.contains c = false) :
    spacing.Reads readFirstNonWs c (token [c]) false := by
  rintro ts rfl
  refine ⟨by simp, fun pre hpre d hd rest => ?_⟩
  simpa using run_readFirstNonWs hpre hc (d :: rest)

theorem Float.reads (x : PyFloat) : spacing.Reads Float.parse x (Float.text x) true := by
  rintro ts ⟨t, rfl, ht, hx⟩
  refine ⟨by simp, fun pre hpre d hd rest => ?_⟩
  have hws : ∀ c, floatChars.contains c = true → whitespace.contains c = false :=
    fun c hc => not_contains_of_all (by decide) hc
  have hend : floatChars.contains d = false := not_contains_of_all (s := whitespace) (by decide) hd
  cases t with
  | nil => simp [PyFloat.ofBytes, PyFloat.takeSign, PyFloat.takeFraction] at hx
  | cons c cs =>
    have hfloat : ∀ y ∈ c :: cs, floatChars.contains y = true := List.all_eq_true.mp ht
    have hfirst := run_readFirstNonWs hpre (hws c (hfloat c (by simp))) (cs ++ d :: rest)
    have hscan := Reader.scanList_append (s := rest) (hfloat c (by simp))
      (fun y hy => hfloat y (List.mem_cons_of_mem c hy)) hend
    have hfold : ∀ l acc : Bytes, l.foldl (fun digs c => digs ++ [c]) acc = acc ++ l := by
      intro l
      induction l with
      | nil => simp
      | cons y l ih => simp [ih]
    simp only [Float.parse, readFloat, Reader.run_bind, text_singleton, List.append_assoc,
      List.cons_append, hfirst, Outcome.andThen_returned, Reader.whileIn, Reader.run, hscan,
      hfold, List.nil_append, hx, leave_true]
    rfl

theorem openBrace_reads : spacing.Reads readFirstNonWs '{'.toUInt8 (token ['{'.toUInt8]) false :=
  readFirstNonWs_reads (by decide)

theorem closeBrace_reads : spacing.Reads readFirstNonWs '}'.toUInt8 (token ['}'.toUInt8]) false :=
  readFirstNonWs_reads (by decide)

theorem star_reads : spacing.Reads readFirstNonWs '*'.toUInt8 (token ['*'.toUInt8]) false :=
  readFirstNonWs_reads (by decide)

/-- An array is read from both notations of the empty array, and element by element
otherwise. The closing brace is the last byte that is read. -/
theorem Array.reads {α : Type} {element : Parser α} {text : α → TextForm} {eats : Bool}
    (obj : List α) (h : ∀ a ∈ obj, spacing.Reads element a (text a) eats) :
    spacing.Reads (Array.parse element) obj (Array.text text obj) false := by
  have hbraces : spacing.Reads (Array.parse element) obj
      (token (decimal obj.length) * (token ['{'.toUInt8] * ((obj.map text).prod *
        token ['}'.toUInt8]))) false := by
    refine (readInt_reads _).bind (openBrace_reads.bind ?_)
    exact Reads.times h (closeBrace_reads.bind_of_eq_pure rfl)
  have hstar : obj.length = 0 → spacing.Reads (Array.parse element) obj
      (token (ascii "0") * token ['*'.toUInt8]) false := by
    intro hlength
    obtain rfl := List.eq_nil_of_length_eq_zero hlength
    exact (readInt_reads 0).bind (star_reads.bind_of_eq_pure rfl)
  refine hbraces.add ?_
  split
  · next hlength => exact hstar hlength
  · exact Reads.zero

/-- The bytes of a bit string. -/
def Bitstring.bytes {length : ℕ} (bits : Bitstring length) : Bytes :=
  bits.toList.map fun b => if b then '1'.toUInt8 else '0'.toUInt8

/-- The loop has read one byte ahead all the time; it ends with the byte after the bits. -/
theorem Bitstring.run_parseBits {i : ℕ} (bits : Bitstring i) {c d : UInt8} {s rest : Bytes}
    (h : c :: s = bytes bits ++ d :: rest) :
    (parseBits i c).run s = .returned bits rest := by
  induction i generalizing c s with
  | zero =>
    obtain rfl : bits = .nil := Subtype.ext (List.eq_nil_of_length_eq_zero bits.2)
    obtain ⟨rfl, rfl⟩ : c = d ∧ s = rest := by simpa [bytes] using h
    rfl
  | succ i ih =>
    obtain ⟨b, bits, rfl⟩ := bits.exists_eq_cons
    have hbytes : bytes (b ::ᵥ bits) = (if b then '1'.toUInt8 else '0'.toUInt8) :: bytes bits := by
      simp [bytes]
    rw [hbytes, List.cons_append, List.cons.injEq] at h
    obtain ⟨hc, hs⟩ := h
    obtain ⟨c', s', hcs⟩ : ∃ c' s', bytes bits ++ d :: rest = c' :: s' :=
      List.exists_cons_of_ne_nil (by simp)
    have hrec := ih bits hcs.symm
    rw [hs, hcs]
    have hone : '1'.toUInt8 ≠ '0'.toUInt8 := by decide
    cases b <;> simp [parseBits, hc, hrec, hone]

theorem Bitstring.reads {length : ℕ} (hlength : 0 < length) (bits : Bitstring length) :
    spacing.Reads (Bitstring.parse length) bits (Bitstring.text bits) true := by
  rintro ts rfl
  refine ⟨by simp, fun pre hpre d hd rest => ?_⟩
  obtain ⟨c, s, hcs⟩ : ∃ c s, bytes bits ++ d :: rest = c :: s :=
    List.exists_cons_of_ne_nil (by simp)
  have hc : whitespace.contains c = false := by
    have hmem : c ∈ bytes bits := by
      cases hbits : bytes bits with
      | nil =>
        have hlen : (bytes bits).length = length := by simp [bytes]
        simp [hbits] at hlen
        omega
      | cons b bs => simp_all
    obtain ⟨b, _, rfl⟩ := List.mem_map.mp hmem
    cases b <;> decide
  have htext : pre ++ spacing.text [bytes bits] ++ d :: rest = pre ++ c :: s := by simp [hcs]
  change (Bitstring.parse length).run (pre ++ spacing.text [bytes bits] ++ d :: rest) = _
  rw [htext, Bitstring.parse, Reader.run_bind, run_readFirstNonWs hpre hc s]
  exact run_parseBits bits hcs.symm

theorem Time.reads (obj : Time) : spacing.Reads Time.parse obj (Time.text obj) true := by
  simp only [Time.text, List.prod_cons, List.prod_nil]
  refine (Int.reads _).bind <| (Int.reads _).bind <| (Int.reads _).bind <| (Int.reads _).bind <|
    (Int.reads _).bind <| (Int.reads _).bind <| (Int.reads _).bind <| (Int.reads _).bind ?_
  exact (Int.reads _).prod_one.bind_pure

theorem ConfZInfo.reads (obj : ConfZInfo) :
    spacing.Reads ConfZInfo.parse obj (ConfZInfo.text obj) true := by
  simp only [ConfZInfo.text, List.prod_cons, List.prod_nil]
  refine (String.reads _).bind <| (Bitstring.reads (by omega) _).bind ?_
  exact (Int.reads _).prod_one.bind_pure

/-! ## Misc-info -/

theorem RawMiscInfo.reads (obj : RawMiscInfo) :
    spacing.Reads RawMiscInfo.parse obj (RawMiscInfo.text obj) true := by
  cases obj with
  | number type data h =>
    refine (Int.reads type).bind ?_
    rw [dif_neg h]
    exact (Int.reads data).bind_pure
  | time type data h =>
    refine (Int.reads type).bind ?_
    rw [dif_pos h]
    exact (Time.reads data).bind_pure

theorem CookedMiscInfo.reads (obj : CookedMiscInfo) :
    spacing.Reads CookedMiscInfo.parse obj (CookedMiscInfo.text obj) false := by
  rintro ts ⟨raw, hraw, hts⟩
  have hreads : spacing.Reads CookedMiscInfo.parse obj (Array.text RawMiscInfo.text raw) false := by
    refine (Array.reads raw fun a _ => RawMiscInfo.reads a).bind_of_eq_pure ?_
    rw [cook_items hraw]
  exact hreads ts hts

/-! ## Records -/

theorem AuxItem.reads (obj : AuxItem) :
    spacing.Reads AuxItem.parse obj (AuxItem.text obj) false := by
  simp only [AuxItem.text, List.prod_cons, List.prod_nil]
  refine (Int.reads _).bind <| (Int.reads _).bind <| (Int.reads _).bind <|
    (Time.reads _).bind <| (Bitstring.reads (by omega) _).bind <| (Int.reads _).bind ?_
  exact (String.reads _).prod_one.bind_pure

/-- The old format ends with the misc-info and stands for no aux-items. -/
theorem TextStat.reads_old (obj : TextStat) :
    spacing.Reads (TextStat.parse true) obj (TextStat.text true obj) false := by
  simp only [TextStat.text, List.prod_cons, List.prod_nil, if_true]
  split
  · next haux =>
    simp only [mul_one]
    refine (Time.reads _).bind <| (Int.reads _).bind <| (Int.reads _).bind <|
      (Int.reads _).bind <| (Int.reads _).bind ?_
    refine (CookedMiscInfo.reads _).bind_of_eq_pure ?_
    rw [← haux]
    rfl
  · simp only [zero_mul, mul_zero]
    exact Reads.zero

theorem TextStat.reads (obj : TextStat) :
    spacing.Reads (TextStat.parse false) obj (TextStat.text false obj) false := by
  simp only [TextStat.text, List.prod_cons, List.prod_nil]
  refine (Time.reads _).bind <| (Int.reads _).bind <| (Int.reads _).bind <| (Int.reads _).bind <|
    (Int.reads _).bind <| (CookedMiscInfo.reads _).bind ?_
  exact (Array.reads _ fun a _ => AuxItem.reads a).prod_one.bind_pure

theorem Conference.reads (obj : Conference) :
    spacing.Reads Conference.parse obj (Conference.text obj) false := by
  simp only [Conference.text, List.prod_cons, List.prod_nil]
  refine (String.reads _).bind <| (Bitstring.reads (by omega) _).bind <| (Time.reads _).bind <|
    (Time.reads _).bind <| (Int.reads _).bind <| (Int.reads _).bind <| (Int.reads _).bind <|
    (Int.reads _).bind <| (Int.reads _).bind <| (Int.reads _).bind <| (Int.reads _).bind <|
    (Int.reads _).bind <| (Int.reads _).bind <| (Int.reads _).bind <| (Int.reads _).bind <|
    (Int.reads _).bind ?_
  exact (Array.reads _ fun a _ => AuxItem.reads a).prod_one.bind_pure

theorem UConference.reads (obj : UConference) :
    spacing.Reads UConference.parse obj (UConference.text obj) true := by
  simp only [UConference.text, List.prod_cons, List.prod_nil]
  refine (String.reads _).bind <| (Bitstring.reads (by omega) _).bind <| (Int.reads _).bind ?_
  exact (Int.reads _).prod_one.bind_pure

theorem Person.reads (obj : Person) :
    spacing.Reads Person.parse obj (Person.text obj) true := by
  simp only [Person.text, List.prod_cons, List.prod_nil]
  refine (String.reads _).bind <| (Bitstring.reads (by omega) _).bind <|
    (Bitstring.reads (by omega) _).bind <| (Time.reads _).bind <| (Int.reads _).bind <|
    (Int.reads _).bind <| (Int.reads _).bind <| (Int.reads _).bind <| (Int.reads _).bind <|
    (Int.reads _).bind <| (Int.reads _).bind <| (Int.reads _).bind <| (Int.reads _).bind <|
    (Int.reads _).bind <| (Int.reads _).bind <| (Int.reads _).bind ?_
  exact (Int.reads _).prod_one.bind_pure

theorem Membership10.reads (obj : Membership10) :
    spacing.Reads Membership10.parse obj (Membership10.text obj) true := by
  simp only [Membership10.text, List.prod_cons, List.prod_nil]
  refine (Int.reads _).bind <| (Time.reads _).bind <| (Int.reads _).bind <|
    (Int.reads _).bind <| (Int.reads _).bind <| (Array.reads _ fun a _ => Int.reads a).bind <|
    (Int.reads _).bind <| (Time.reads _).bind ?_
  exact (Bitstring.reads (by omega) _).prod_one.bind_pure

theorem ReadRange.reads (obj : ReadRange) :
    spacing.Reads ReadRange.parse obj (ReadRange.text obj) true := by
  simp only [ReadRange.text, List.prod_cons, List.prod_nil]
  refine (Int.reads _).bind ?_
  exact (Int.reads _).prod_one.bind_pure

theorem Membership11.reads (obj : Membership11) :
    spacing.Reads Membership11.parse obj (Membership11.text obj) true := by
  simp only [Membership11.text, List.prod_cons, List.prod_nil]
  refine (Int.reads _).bind <| (Time.reads _).bind <| (Int.reads _).bind <|
    (Int.reads _).bind <| (Array.reads _ fun a _ => ReadRange.reads a).bind <|
    (Int.reads _).bind <| (Time.reads _).bind ?_
  exact (Bitstring.reads (by omega) _).prod_one.bind_pure

theorem Member.reads (obj : Member) :
    spacing.Reads Member.parse obj (Member.text obj) true := by
  simp only [Member.text, List.prod_cons, List.prod_nil]
  refine (Int.reads _).bind <| (Int.reads _).bind <| (Time.reads _).bind ?_
  exact (Bitstring.reads (by omega) _).prod_one.bind_pure

theorem TextList.reads (obj : TextList) :
    spacing.Reads TextList.parse obj (TextList.text obj) false := by
  simp only [TextList.text, List.prod_cons, List.prod_nil]
  refine (Int.reads _).bind ?_
  exact (Array.reads _ fun a _ => Int.reads a).prod_one.bind_pure

theorem TextNumberPair.reads (obj : TextNumberPair) :
    spacing.Reads TextNumberPair.parse obj (TextNumberPair.text obj) true := by
  simp only [TextNumberPair.text, List.prod_cons, List.prod_nil]
  refine (Int.reads _).bind ?_
  exact (Int.reads _).prod_one.bind_pure

theorem TextMapping.reads (obj : TextMapping) :
    spacing.Reads TextMapping.parse obj (TextMapping.text obj) false := by
  obtain ⟨rangeBegin, rangeEnd, laterTextsExists, block⟩ := obj
  simp only [TextMapping.text, List.prod_cons, List.prod_nil, mul_one]
  refine (Int.reads _).bind <| (Int.reads _).bind <| (Int.reads _).bind ?_
  cases block with
  | sparse sparseList =>
    simp only [TextMappingBlock.text, List.prod_cons, List.prod_nil]
    refine (Int.reads 0).bind ?_
    exact (Array.reads _ fun a _ => TextNumberPair.reads a).prod_one.bind_pure
  | dense denseFirst denseTexts =>
    simp only [TextMappingBlock.text, List.prod_cons, List.prod_nil]
    refine (Int.reads 1).bind <| (Int.reads denseFirst).bind ?_
    exact (Array.reads _ fun a _ => Int.reads a).prod_one.bind_pure

theorem Mark.reads (obj : Mark) :
    spacing.Reads Mark.parse obj (Mark.text obj) true := by
  simp only [Mark.text, List.prod_cons, List.prod_nil]
  refine (Int.reads _).bind ?_
  exact (Int.reads _).prod_one.bind_pure

theorem Info.reads (obj : Info) :
    spacing.Reads Info.parse obj (Info.text obj) false := by
  simp only [Info.text, List.prod_cons, List.prod_nil]
  refine (Int.reads _).bind <| (Int.reads _).bind <| (Int.reads _).bind <|
    (Int.reads _).bind <| (Int.reads _).bind <| (Int.reads _).bind ?_
  exact (Array.reads _ fun a _ => AuxItem.reads a).prod_one.bind_pure

theorem VersionInfo.reads (obj : VersionInfo) :
    spacing.Reads VersionInfo.parse obj (VersionInfo.text obj) false := by
  simp only [VersionInfo.text, List.prod_cons, List.prod_nil]
  refine (Int.reads _).bind <| (String.reads _).bind ?_
  exact (String.reads _).prod_one.bind_pure

theorem StaticServerInfo.reads (obj : StaticServerInfo) :
    spacing.Reads StaticServerInfo.parse obj (StaticServerInfo.text obj) true := by
  simp only [StaticServerInfo.text, List.prod_cons, List.prod_nil]
  refine (Time.reads _).bind <| (Time.reads _).bind <| (String.reads _).bind <|
    (Int.reads _).bind <| (Int.reads _).bind <| (Int.reads _).bind <| (Int.reads _).bind ?_
  exact (Int.reads _).prod_one.bind_pure

theorem DynamicSessionInfo.reads (obj : DynamicSessionInfo) :
    spacing.Reads DynamicSessionInfo.parse obj (DynamicSessionInfo.text obj) false := by
  simp only [DynamicSessionInfo.text, List.prod_cons, List.prod_nil]
  refine (Int.reads _).bind <| (Int.reads _).bind <| (Int.reads _).bind <|
    (Int.reads _).bind <| (Bitstring.reads (by omega) _).bind ?_
  exact (String.reads _).prod_one.bind_pure

theorem StaticSessionInfo.reads (obj : StaticSessionInfo) :
    spacing.Reads StaticSessionInfo.parse obj (StaticSessionInfo.text obj) true := by
  simp only [StaticSessionInfo.text, List.prod_cons, List.prod_nil]
  refine (String.reads _).bind <| (String.reads _).bind <| (String.reads _).bind ?_
  exact (Time.reads _).prod_one.bind_pure

theorem SchedulingInfo.reads (obj : SchedulingInfo) :
    spacing.Reads SchedulingInfo.parse obj (SchedulingInfo.text obj) true := by
  simp only [SchedulingInfo.text, List.prod_cons, List.prod_nil]
  refine (Int.reads _).bind ?_
  exact (Int.reads _).prod_one.bind_pure

theorem WhoInfo.reads (obj : WhoInfo) :
    spacing.Reads WhoInfo.parse obj (WhoInfo.text obj) false := by
  simp only [WhoInfo.text, List.prod_cons, List.prod_nil]
  refine (Int.reads _).bind <| (Int.reads _).bind <| (Int.reads _).bind <|
    (String.reads _).bind ?_
  exact (String.reads _).prod_one.bind_pure

theorem StatsDescription.reads (obj : StatsDescription) :
    spacing.Reads StatsDescription.parse obj (StatsDescription.text obj) false := by
  simp only [StatsDescription.text, List.prod_cons, List.prod_nil]
  refine (Array.reads _ fun a _ => String.reads a).bind ?_
  exact (Array.reads _ fun a _ => Int.reads a).prod_one.bind_pure

theorem Stats.reads (obj : Stats) :
    spacing.Reads Stats.parse obj (Stats.text obj) true := by
  simp only [Stats.text, List.prod_cons, List.prod_nil]
  refine (Float.reads _).bind <| (Float.reads _).bind ?_
  exact (Float.reads _).prod_one.bind_pure

/-! ## Messages -/

/-- The `parse` of a message's number reads the fields of the message. -/
theorem AsyncMessage.reads (msg : AsyncMessage) :
    ∃ parse eats, asyncDict.lookup msg.msgNo = some parse ∧
      spacing.ReadsTail parse msg msg.text eats := by
  cases msg with
  | newTextOld =>
    refine ⟨_, false, rfl, ?_⟩
    simp only [text, List.prod_cons, List.prod_nil]
    refine Reads.tail <| (Int.reads _).bind ?_
    exact (TextStat.reads_old _).prod_one.bind_pure
  | newName =>
    refine ⟨_, false, rfl, ?_⟩
    simp only [text, List.prod_cons, List.prod_nil]
    refine Reads.tail <| (Int.reads _).bind <| (String.reads _).bind ?_
    exact (String.reads _).prod_one.bind_pure
  | iAmOn =>
    refine ⟨_, false, rfl, ?_⟩
    exact (WhoInfo.reads _).bind_pure.tail
  | syncDB =>
    refine ⟨_, true, rfl, ?_⟩
    exact ReadsTail.pure
  | leaveConf =>
    refine ⟨_, true, rfl, ?_⟩
    exact (Int.reads _).bind_pure.tail
  | login =>
    refine ⟨_, true, rfl, ?_⟩
    simp only [text, List.prod_cons, List.prod_nil]
    refine Reads.tail <| (Int.reads _).bind ?_
    exact (Int.reads _).prod_one.bind_pure
  | rejectedConnection =>
    refine ⟨_, true, rfl, ?_⟩
    exact ReadsTail.pure
  | sendMessage =>
    refine ⟨_, false, rfl, ?_⟩
    simp only [text, List.prod_cons, List.prod_nil]
    refine Reads.tail <| (Int.reads _).bind <| (Int.reads _).bind ?_
    exact (String.reads _).prod_one.bind_pure
  | logout =>
    refine ⟨_, true, rfl, ?_⟩
    simp only [text, List.prod_cons, List.prod_nil]
    refine Reads.tail <| (Int.reads _).bind ?_
    exact (Int.reads _).prod_one.bind_pure
  | deletedText =>
    refine ⟨_, false, rfl, ?_⟩
    simp only [text, List.prod_cons, List.prod_nil]
    refine Reads.tail <| (Int.reads _).bind ?_
    exact (TextStat.reads _).prod_one.bind_pure
  | newText =>
    refine ⟨_, false, rfl, ?_⟩
    simp only [text, List.prod_cons, List.prod_nil]
    refine Reads.tail <| (Int.reads _).bind ?_
    exact (TextStat.reads _).prod_one.bind_pure
  | newRecipient =>
    refine ⟨_, true, rfl, ?_⟩
    simp only [text, List.prod_cons, List.prod_nil]
    refine Reads.tail <| (Int.reads _).bind <| (Int.reads _).bind ?_
    exact (Int.reads _).prod_one.bind_pure
  | subRecipient =>
    refine ⟨_, true, rfl, ?_⟩
    simp only [text, List.prod_cons, List.prod_nil]
    refine Reads.tail <| (Int.reads _).bind <| (Int.reads _).bind ?_
    exact (Int.reads _).prod_one.bind_pure
  | newMembership =>
    refine ⟨_, true, rfl, ?_⟩
    simp only [text, List.prod_cons, List.prod_nil]
    refine Reads.tail <| (Int.reads _).bind ?_
    exact (Int.reads _).prod_one.bind_pure
  | newUserArea =>
    refine ⟨_, true, rfl, ?_⟩
    simp only [text, List.prod_cons, List.prod_nil]
    refine Reads.tail <| (Int.reads _).bind <| (Int.reads _).bind ?_
    exact (Int.reads _).prod_one.bind_pure
  | newPresentation =>
    refine ⟨_, true, rfl, ?_⟩
    simp only [text, List.prod_cons, List.prod_nil]
    refine Reads.tail <| (Int.reads _).bind <| (Int.reads _).bind ?_
    exact (Int.reads _).prod_one.bind_pure
  | newMotd =>
    refine ⟨_, true, rfl, ?_⟩
    simp only [text, List.prod_cons, List.prod_nil]
    refine Reads.tail <| (Int.reads _).bind <| (Int.reads _).bind ?_
    exact (Int.reads _).prod_one.bind_pure
  | textAuxChanged =>
    refine ⟨_, false, rfl, ?_⟩
    simp only [text, List.prod_cons, List.prod_nil]
    refine Reads.tail <| (Int.reads _).bind <| (Array.reads _ fun a _ => AuxItem.reads a).bind ?_
    exact (Array.reads _ fun a _ => AuxItem.reads a).prod_one.bind_pure

/-- The `parse` of a reply's type reads the value of the reply. -/
theorem OkReply.reads (reply : OkReply) :
    spacing.ReadsTail reply.type.parse reply reply.text reply.type.endsWithNumber := by
  cases reply with
  | emptyResponse => exact ReadsTail.pure
  | textNo value => exact (Int.reads value).map.tail
  | confNo value => exact (Int.reads value).map.tail
  | persNo value => exact (Int.reads value).map.tail
  | staticServerInfo value => exact (StaticServerInfo.reads value).map.tail
  | string value => exact (String.reads value).map.tail
  | conference value => exact (Conference.reads value).map.tail
  | info value => exact (Info.reads value).map.tail
  | textList value => exact (TextList.reads value).map.tail
  | arrayMark value => exact (Array.reads value fun a _ => Mark.reads a).map.tail
  | arrayMember value => exact (Array.reads value fun a _ => Member.reads a).map.tail
  | arrayMembership11 value => exact (Array.reads value fun a _ => Membership11.reads a).map.tail
  | arrayMembership10 value => exact (Array.reads value fun a _ => Membership10.reads a).map.tail
  | person value => exact (Person.reads value).map.tail
  | schedulingInfo value => exact (SchedulingInfo.reads value).map.tail
  | staticSessionInfo value => exact (StaticSessionInfo.reads value).map.tail
  | arrayStats value => exact (Array.reads value fun a _ => Stats.reads a).map.tail
  | statsDescription value => exact (StatsDescription.reads value).map.tail
  | textStat value => exact (TextStat.reads value).map.tail
  | time value => exact (Time.reads value).map.tail
  | uConference value => exact (UConference.reads value).map.tail
  | arrayConfNo value => exact (Array.reads value fun a _ => Int.reads a).map.tail
  | versionInfo value => exact (VersionInfo.reads value).map.tail
  | textMapping value => exact (TextMapping.reads value).map.tail
  | arrayConfZInfo value => exact (Array.reads value fun a _ => ConfZInfo.reads a).map.tail
  | arrayInt32 value => exact (Array.reads value fun a _ => Int.reads a).map.tail
  | membership11 value => exact (Membership11.reads value).map.tail
  | membership10 value => exact (Membership10.reads value).map.tail
  | sessionNo value => exact (Int.reads value).map.tail
  | arrayDynamicSessionInfo value =>
    exact (Array.reads value fun a _ => DynamicSessionInfo.reads a).map.tail

end Pylyskom
