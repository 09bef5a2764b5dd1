import Pylyskom.Requests
import Pylyskom.Reader.Tokens

/-!
# The text form of Protocol A

What the server writes for a value: a set of token lists, written with one space
between two tokens. The forms are stated from the protocol's notation, field by
field, and not from the parsers.
-/

namespace Pylyskom

/-- Tokens are separated by a space; any white space is skipped before a token. -/
def spacing : Spacing where
  skip := whitespace.contains
  sep := ' '.toUInt8
  skip_sep := by decide

/-- The token lists that a value may be written as. -/
abbrev TextForm := Language Bytes

/-- A fixed token. -/
def token (t : Bytes) : TextForm := {[t]}

/-- Fixed tokens in sequence. -/
theorem mem_prod_token (ts : List Bytes) : ts ∈ (ts.map token).prod := by
  induction ts with
  | nil => rfl
  | cons t ts ih => exact ⟨[t], rfl, ts, ih, rfl⟩

/-! ## Simple types -/

def Int.text (n : ℕ) : TextForm := token (decimal n)

def String.text (s : Bytes) : TextForm := token (toHstring s)

/-- Any literal that denotes the number. -/
def Float.text (x : PyFloat) : TextForm :=
  {ts | ∃ t, ts = [t] ∧ t.all floatChars.contains ∧ PyFloat.ofBytes t = some x}

/-- `n { e1 ... en }`, and also `0 *` for the empty array. -/
def Array.text {α : Type} (element : α → TextForm) (obj : List α) : TextForm :=
  token (decimal obj.length) *
      (token ['{'.toUInt8] * ((obj.map element).prod * token ['}'.toUInt8])) +
    if obj.length = 0 then token (ascii "0") * token ['*'.toUInt8] else 0

def Bitstring.text {length : ℕ} (bits : Bitstring length) : TextForm :=
  token (bits.toList.map fun b => if b then '1'.toUInt8 else '0'.toUInt8)

def Time.text (obj : Time) : TextForm :=
  [Int.text obj.seconds, Int.text obj.minutes, Int.text obj.hours, Int.text obj.day,
   Int.text obj.month, Int.text obj.year, Int.text obj.dayOfWeek, Int.text obj.dayOfYear,
   Int.text obj.isDst].prod

def ConfZInfo.text (obj : ConfZInfo) : TextForm :=
  [String.text obj.name, Bitstring.text obj.type, Int.text obj.confNo].prod

/-! ## Misc-info -/

def RawMiscInfo.text : RawMiscInfo → TextForm
  | number type data _ => Int.text type * Int.text data
  | time type data _ => Int.text type * Time.text data

/-- The items that follow a recipient in its group. -/
def MIRecipient.additional (self : MIRecipient) : List RawMiscInfo :=
  (self.locNo.map fun data => RawMiscInfo.number MI_LOC_NO data (by decide)).toList ++
  (self.recTime.map fun data => RawMiscInfo.time MI_REC_TIME data (by decide)).toList ++
  (self.sentBy.map fun data => RawMiscInfo.number MI_SENT_BY data (by decide)).toList ++
  (self.sentAt.map fun data => RawMiscInfo.time MI_SENT_AT data (by decide)).toList

/-- The items that follow a comment link in its group. -/
def MICommentTo.additional (self : MICommentTo) : List RawMiscInfo :=
  (self.sentBy.map fun data => RawMiscInfo.number MI_SENT_BY data (by decide)).toList ++
  (self.sentAt.map fun data => RawMiscInfo.time MI_SENT_AT data (by decide)).toList

/-- A group of misc-info items. The types of `MICommentIn` are those of the links in the
other direction. -/
inductive MiscGroup : Type
  | recipient (r : MIRecipient) (isRecipient : r.type ∈ [MI_RECPT, MI_CC_RECPT, MI_BCC_RECPT])
  | commentTo (ct : MICommentTo) (isCommentTo : ct.type ∈ [MI_COMM_TO, MI_FOOTN_TO])
  | commentIn (ci : MICommentIn) (isCommentTo : ci.type ∈ [MI_COMM_TO, MI_FOOTN_TO])

namespace MiscGroup

def recipient? : MiscGroup → Option MIRecipient
  | recipient r _ => some r
  | _ => none

def commentTo? : MiscGroup → Option MICommentTo
  | commentTo ct _ => some ct
  | _ => none

def commentIn? : MiscGroup → Option MICommentIn
  | commentIn ci _ => some ci
  | _ => none

theorem not_isTimeItem_recipient {type : ℕ} (h : type ∈ [MI_RECPT, MI_CC_RECPT, MI_BCC_RECPT]) :
    ¬ isTimeItem type := by
  revert type
  decide

theorem not_isTimeItem_commentTo {type : ℕ} (h : type ∈ [MI_COMM_TO, MI_FOOTN_TO]) :
    ¬ isTimeItem type := by
  revert type
  decide

theorem not_isTimeItem_commentIn {type : ℕ} (h : type ∈ [MI_COMM_TO, MI_FOOTN_TO]) :
    ¬ isTimeItem (type + 1) := by
  revert type
  decide

/-- The item that opens a group. -/
def head : MiscGroup → RawMiscInfo
  | recipient r h => .number r.type r.recpt (not_isTimeItem_recipient h)
  | commentTo ct h => .number ct.type ct.textNo (not_isTimeItem_commentTo h)
  | commentIn ci h => .number (ci.type + 1) ci.textNo (not_isTimeItem_commentIn h)

/-- The further items of a group. -/
def additional : MiscGroup → List RawMiscInfo
  | recipient r _ => r.additional
  | commentTo ct _ => ct.additional
  | commentIn _ _ => []

/-- A group is its first item and then the others, in any order. -/
def items (g : MiscGroup) : Language RawMiscInfo :=
  {raw | ∃ extra, extra.Perm g.additional ∧ raw = g.head :: extra}

end MiscGroup

/-- The misc-info of a sequence of groups. -/
def CookedMiscInfo.ofGroups (groups : List MiscGroup) : CookedMiscInfo where
  recipientList := groups.filterMap MiscGroup.recipient?
  commentToList := groups.filterMap MiscGroup.commentTo?
  commentInList := groups.filterMap MiscGroup.commentIn?

/-- The item lists of a misc-info: its groups in any order that keeps each of its lists. -/
def CookedMiscInfo.items (obj : CookedMiscInfo) : Language RawMiscInfo :=
  {raw | ∃ groups, ofGroups groups = obj ∧ raw ∈ (groups.map MiscGroup.items).prod}

def CookedMiscInfo.text (obj : CookedMiscInfo) : TextForm :=
  {ts | ∃ raw ∈ obj.items, ts ∈ Array.text RawMiscInfo.text raw}

/-! ## Records -/

def AuxItem.text (obj : AuxItem) : TextForm :=
  [Int.text obj.auxNo, Int.text obj.tag, Int.text obj.creator, Time.text obj.createdAt,
   Bitstring.text obj.flags, Int.text obj.inheritLimit, String.text obj.data].prod

/-- The old format has no aux-items, so a text-stat with some has no old text form. -/
def TextStat.text (oldFormat : Bool) (obj : TextStat) : TextForm :=
  [Time.text obj.creationTime, Int.text obj.author, Int.text obj.noOfLines,
   Int.text obj.noOfChars, Int.text obj.noOfMarks, CookedMiscInfo.text obj.miscInfo,
   if oldFormat then (if obj.auxItems = [] then 1 else 0)
   else Array.text AuxItem.text obj.auxItems].prod

def Conference.text (obj : Conference) : TextForm :=
  [String.text obj.name, Bitstring.text obj.type, Time.text obj.creationTime,
   Time.text obj.lastWritten, Int.text obj.creator, Int.text obj.presentation,
   Int.text obj.supervisor, Int.text obj.permittedSubmitters, Int.text obj.superConf,
   Int.text obj.msgOfDay, Int.text obj.nice, Int.text obj.keepCommented,
   Int.text obj.noOfMembers, Int.text obj.firstLocalNo, Int.text obj.noOfTexts,
   Int.text obj.expire, Array.text AuxItem.text obj.auxItems].prod

def UConference.text (obj : UConference) : TextForm :=
  [String.text obj.name, Bitstring.text obj.type, Int.text obj.highestLocalNo,
   Int.text obj.nice].prod

def Person.text (obj : Person) : TextForm :=
  [String.text obj.username, Bitstring.text obj.privileges, Bitstring.text obj.flags,
   Time.text obj.lastLogin, Int.text obj.userArea, Int.text obj.totalTimePresent,
   Int.text obj.sessions, Int.text obj.createdLines, Int.text obj.createdBytes,
   Int.text obj.readTexts, Int.text obj.noOfTextFetches, Int.text obj.createdPersons,
   Int.text obj.createdConfs, Int.text obj.firstCreatedLocalNo, Int.text obj.noOfCreatedTexts,
   Int.text obj.noOfMarks, Int.text obj.noOfConfs].prod

def Membership10.text (obj : Membership10) : TextForm :=
  [Int.text obj.position, Time.text obj.lastTimeRead, Int.text obj.conference,
   Int.text obj.priority, Int.text obj.lastTextRead, Array.text Int.text obj.readTexts,
   Int.text obj.addedBy, Time.text obj.addedAt, Bitstring.text obj.type].prod

def ReadRange.text (obj : ReadRange) : TextForm :=
  [Int.text obj.firstRead, Int.text obj.lastRead].prod

def Membership11.text (obj : Membership11) : TextForm :=
  [Int.text obj.position, Time.text obj.lastTimeRead, Int.text obj.conference,
   Int.text obj.priority, Array.text ReadRange.text obj.readRanges, Int.text obj.addedBy,
   Time.text obj.addedAt, Bitstring.text obj.type].prod

def Member.text (obj : Member) : TextForm :=
  [Int.text obj.member, Int.text obj.addedBy, Time.text obj.addedAt, Bitstring.text obj.type].prod

def TextList.text (obj : TextList) : TextForm :=
  [Int.text obj.firstLocalNo, Array.text Int.text obj.texts].prod

def TextNumberPair.text (obj : TextNumberPair) : TextForm :=
  [Int.text obj.localNumber, Int.text obj.globalNumber].prod

def TextMappingBlock.text : TextMappingBlock → TextForm
  | sparse sparseList => [Int.text 0, Array.text TextNumberPair.text sparseList].prod
  | dense denseFirst denseTexts =>
    [Int.text 1, Int.text denseFirst, Array.text Int.text denseTexts].prod

def TextMapping.text (obj : TextMapping) : TextForm :=
  [Int.text obj.rangeBegin, Int.text obj.rangeEnd, Int.text obj.laterTextsExists,
   TextMappingBlock.text obj.block].prod

def Mark.text (obj : Mark) : TextForm := [Int.text obj.textNo, Int.text obj.type].prod

def Info.text (obj : Info) : TextForm :=
  [Int.text obj.version, Int.text obj.confPresConf, Int.text obj.persPresConf,
   Int.text obj.motdConf, Int.text obj.komNewsConf, Int.text obj.motdOfLyskom,
   Array.text AuxItem.text obj.auxItemList].prod

def VersionInfo.text (obj : VersionInfo) : TextForm :=
  [Int.text obj.protocolVersion, String.text obj.serverSoftware,
   String.text obj.softwareVersion].prod

def StaticServerInfo.text (obj : StaticServerInfo) : TextForm :=
  [Time.text obj.bootTime, Time.text obj.saveTime, String.text obj.dbStatus,
   Int.text obj.existingTexts, Int.text obj.highestTextNo, Int.text obj.existingConfs,
   Int.text obj.existingPersons, Int.text obj.highestConfNo].prod

def DynamicSessionInfo.text (obj : DynamicSessionInfo) : TextForm :=
  [Int.text obj.session, Int.text obj.person, Int.text obj.workingConference,
   Int.text obj.idleTime, Bitstring.text obj.flags, String.text obj.whatAmIDoing].prod

def StaticSessionInfo.text (obj : StaticSessionInfo) : TextForm :=
  [String.text obj.username, String.text obj.hostname, String.text obj.identUser,
   Time.text obj.bufectionTime].prod

def SchedulingInfo.text (obj : SchedulingInfo) : TextForm :=
  [Int.text obj.priority, Int.text obj.weight].prod

def WhoInfo.text (obj : WhoInfo) : TextForm :=
  [Int.text obj.person, Int.text obj.workingConference, Int.text obj.session,
   String.text obj.whatAmIDoing, String.text obj.username].prod

def StatsDescription.text (obj : StatsDescription) : TextForm :=
  [Array.text String.text obj.what, Array.text Int.text obj.when].prod

def Stats.text (obj : Stats) : TextForm :=
  [Float.text obj.average, Float.text obj.ascentRate, Float.text obj.descentRate].prod

/-! ## Messages -/

/-- The fields of an asynchronous message. -/
def AsyncMessage.text : AsyncMessage → TextForm
  | newTextOld textNo textStat => [Int.text textNo, TextStat.text true textStat].prod
  | newName confNo old new => [Int.text confNo, String.text old, String.text new].prod
  | iAmOn info => WhoInfo.text info
  | syncDB => 1
  | leaveConf confNo => Int.text confNo
  | login personNo sessionNo => [Int.text personNo, Int.text sessionNo].prod
  | rejectedConnection => 1
  | sendMessage recipient sender message =>
    [Int.text recipient, Int.text sender, String.text message].prod
  | logout personNo sessionNo => [Int.text personNo, Int.text sessionNo].prod
  | deletedText textNo textStat => [Int.text textNo, TextStat.text false textStat].prod
  | newText textNo textStat => [Int.text textNo, TextStat.text false textStat].prod
  | newRecipient textNo confNo type => [Int.text textNo, Int.text confNo, Int.text type].prod
  | subRecipient textNo confNo type => [Int.text textNo, Int.text confNo, Int.text type].prod
  | newMembership personNo confNo => [Int.text personNo, Int.text confNo].prod
  | newUserArea personNo old new => [Int.text personNo, Int.text old, Int.text new].prod
  | newPresentation confNo old new => [Int.text confNo, Int.text old, Int.text new].prod
  | newMotd confNo old new => [Int.text confNo, Int.text old, Int.text new].prod
  | textAuxChanged textNo deleted added =>
    [Int.text textNo, Array.text AuxItem.text deleted, Array.text AuxItem.text added].prod

/-- The types whose last field is a number or a bit string, so that reading a value takes
the byte after it. For an empty response this byte follows the ref-no. -/
def ResponseType.endsWithNumber : ResponseType → Bool
  | emptyResponse | textNo | confNo | persNo | sessionNo => true
  | staticServerInfo | person | schedulingInfo | staticSessionInfo | time => true
  | uConference | membership11 | membership10 => true
  | string | conference | info | textList | statsDescription | textStat => false
  | versionInfo | textMapping => false
  | arrayMark | arrayMember | arrayMembership11 | arrayMembership10 | arrayStats => false
  | arrayConfNo | arrayConfZInfo | arrayInt32 | arrayDynamicSessionInfo => false

/-- The value of an ok reply; there are no tokens where the reply carries no value. -/
def OkReply.text : OkReply → TextForm
  | emptyResponse => 1
  | textNo value | confNo value | persNo value | sessionNo value => Int.text value
  | staticServerInfo value => StaticServerInfo.text value
  | string value => String.text value
  | conference value => Conference.text value
  | info value => Info.text value
  | textList value => TextList.text value
  | arrayMark value => Array.text Mark.text value
  | arrayMember value => Array.text Member.text value
  | arrayMembership11 value => Array.text Membership11.text value
  | arrayMembership10 value => Array.text Membership10.text value
  | person value => Person.text value
  | schedulingInfo value => SchedulingInfo.text value
  | staticSessionInfo value => StaticSessionInfo.text value
  | arrayStats value => Array.text Stats.text value
  | statsDescription value => StatsDescription.text value
  | textStat value => TextStat.text false value
  | time value => Time.text value
  | uConference value => UConference.text value
  | arrayConfNo value | arrayInt32 value => Array.text Int.text value
  | versionInfo value => VersionInfo.text value
  | textMapping value => TextMapping.text value
  | arrayConfZInfo value => Array.text ConfZInfo.text value
  | membership11 value => Membership11.text value
  | membership10 value => Membership10.text value
  | arrayDynamicSessionInfo value => Array.text DynamicSessionInfo.text value

/-- A message of the server. The number of arguments of an asynchronous message stands
before its number. -/
inductive ServerMessage : Type
  | ok (refNo : ℕ) (reply : OkReply)
  | error (refNo errorNo errorStatus : ℕ)
  | async (argumentCount : ℕ) (msg : AsyncMessage)

/-- The first token: the kind of the message, with the ref-no of a reply. -/
def ServerMessage.head : ServerMessage → Bytes
  | ok refNo _ => ascii "=" ++ decimal refNo
  | error refNo _ _ => ascii "%" ++ decimal refNo
  | async argumentCount _ => ascii ":" ++ decimal argumentCount

/-- What follows the first token. -/
def ServerMessage.value : ServerMessage → TextForm
  | ok _ reply => reply.text
  | error _ errorNo errorStatus => Int.text errorNo * Int.text errorStatus
  | async _ msg => Int.text msg.msgNo * msg.text

def ServerMessage.text (m : ServerMessage) : TextForm := token m.head * m.value

/-- The lines that the server may send for a message, each ended by a newline. -/
def ServerMessage.lines (m : ServerMessage) : Set Bytes :=
  {line | ∃ ts ∈ m.text, line = spacing.text ts ++ ascii "\n"}

/-! ## First bytes -/

/-- A text of the form is not empty, and starts with a digit. -/
def StartsWithDigit (L : TextForm) : Prop :=
  ∀ ts ∈ L, ∃ c s, spacing.text ts = c :: s ∧ digits.contains c = true

theorem decimal_eq_cons (n : ℕ) : ∃ c s, decimal n = c :: s ∧ digits.contains c = true := by
  obtain ⟨c, s, hdec⟩ := List.exists_cons_of_ne_nil (decimal_ne_nil n)
  exact ⟨c, s, hdec, contains_digits_of_mem_decimal (n := n) (hdec ▸ List.mem_cons_self)⟩

theorem startsWithDigit_token {t : Bytes} (h : ∃ c s, t = c :: s ∧ digits.contains c = true) :
    StartsWithDigit (token t) := by
  rintro ts rfl
  rwa [Spacing.text_singleton]

theorem startsWithDigit_int (n : ℕ) : StartsWithDigit (Int.text n) :=
  startsWithDigit_token (decimal_eq_cons n)

theorem startsWithDigit_string (s : Bytes) : StartsWithDigit (String.text s) := by
  obtain ⟨c, t, hdec, hc⟩ := decimal_eq_cons s.length
  refine startsWithDigit_token ⟨c, t ++ (ascii "H" ++ s), ?_, hc⟩
  rw [toHstring, hdec, List.append_assoc]
  rfl

theorem StartsWithDigit.mul {L : TextForm} (h : StartsWithDigit L) (M : TextForm) :
    StartsWithDigit (L * M) := by
  rintro ts hts
  obtain ⟨us, hus, vs, -, rfl⟩ := Language.mem_mul.mp hts
  obtain ⟨c, s, htext, hc⟩ := h us hus
  by_cases hvs : vs = []
  · exact ⟨c, s, by rw [hvs, List.append_nil, htext], hc⟩
  · have hus : us ≠ [] := by
      rintro rfl
      cases htext
    refine ⟨c, s ++ spacing.sep :: spacing.text vs, ?_, hc⟩
    rw [Spacing.text_append _ hus hvs, htext]
    rfl

theorem startsWithDigit_time (t : Time) : StartsWithDigit (Time.text t) :=
  (startsWithDigit_int _).mul _

theorem startsWithDigit_array {α : Type} (element : α → TextForm) (obj : List α) :
    StartsWithDigit (Array.text element obj) := by
  rintro ts (hts | hts)
  · exact (startsWithDigit_int _).mul _ ts hts
  · split at hts
    · exact (startsWithDigit_token ⟨_, _, rfl, by decide⟩).mul _ ts hts
    · exact absurd hts (Language.notMem_zero ts)

/-- Only an empty response is written as nothing; all others start with a number, with the
length of a string or with that of an array. -/
theorem OkReply.startsWithDigit (reply : OkReply) (h : reply.type ≠ .emptyResponse) :
    StartsWithDigit reply.text := by
  cases reply with
  | emptyResponse => exact absurd rfl h
  | textNo value | confNo value | persNo value | sessionNo value => exact startsWithDigit_int value
  | string value => exact startsWithDigit_string value
  | arrayMark value | arrayMember value | arrayMembership11 value | arrayMembership10 value
  | arrayStats value | arrayConfNo value | arrayInt32 value | arrayConfZInfo value
  | arrayDynamicSessionInfo value => exact startsWithDigit_array _ value
  | staticServerInfo value | textStat value => exact (startsWithDigit_time _).mul _
  | time value => exact startsWithDigit_time value
  | conference value | person value | uConference value | staticSessionInfo value =>
    exact (startsWithDigit_string _).mul _
  | info value | textList value | schedulingInfo value | versionInfo value | textMapping value
  | membership11 value | membership10 value => exact (startsWithDigit_int _).mul _
  | statsDescription value => exact (startsWithDigit_array _ _).mul _

/-! ## Values that can be written -/

/-- The value can be written. -/
def TextForm.Writable (L : TextForm) : Prop := ∃ ts, ts ∈ L

namespace TextForm

theorem writable_token (t : Bytes) : Writable (token t) := ⟨[t], rfl⟩

theorem Writable.mul {L M : TextForm} (hL : Writable L) (hM : Writable M) : Writable (L * M) := by
  obtain ⟨ts, hts⟩ := hL
  obtain ⟨us, hus⟩ := hM
  exact ⟨ts ++ us, Language.append_mem_mul hts hus⟩

theorem writable_prod {fields : List TextForm} (h : ∀ L ∈ fields, Writable L) :
    Writable fields.prod := by
  induction fields with
  | nil => exact ⟨[], rfl⟩
  | cons L fields ih =>
    rw [List.prod_cons]
    exact (h L List.mem_cons_self).mul (ih fun M hM => h M (List.mem_cons_of_mem _ hM))

theorem writable_array {α : Type} {element : α → TextForm} {obj : List α}
    (h : ∀ a ∈ obj, Writable (element a)) : Writable (Array.text element obj) := by
  have helements : Writable (obj.map element).prod := writable_prod (List.forall_mem_map.mpr h)
  obtain ⟨ts, hts⟩ :=
    (writable_token _).mul ((writable_token _).mul (helements.mul (writable_token _)))
  exact ⟨ts, Or.inl hts⟩

theorem writable_time (obj : Time) : Writable (Time.text obj) :=
  writable_prod (by simp [Int.text, writable_token])

theorem writable_rawMiscInfo (raw : RawMiscInfo) : Writable (RawMiscInfo.text raw) := by
  cases raw with
  | number type data _ => exact (writable_token _).mul (writable_token _)
  | time type data _ => exact (writable_token _).mul (writable_time data)

theorem writable_miscInfo (groups : List MiscGroup) :
    Writable (CookedMiscInfo.text (.ofGroups groups)) := by
  have hitems : ∃ raw, raw ∈ (groups.map MiscGroup.items).prod := by
    induction groups with
    | nil => exact ⟨[], rfl⟩
    | cons g groups ih =>
      obtain ⟨raw, hraw⟩ := ih
      rw [List.map_cons, List.prod_cons]
      exact ⟨(g.head :: g.additional) ++ raw, Language.append_mem_mul ⟨_, .refl _, rfl⟩ hraw⟩
  obtain ⟨raw, hraw⟩ := hitems
  obtain ⟨ts, hts⟩ := writable_array fun info (_ : info ∈ raw) => writable_rawMiscInfo info
  exact ⟨ts, raw, ⟨groups, rfl, hraw⟩, hts⟩

theorem writable_auxItem (obj : AuxItem) : Writable (AuxItem.text obj) :=
  writable_prod (by simp [Int.text, String.text, Bitstring.text, writable_token, writable_time])

theorem writable_textStat {obj : TextStat}
    (h : ∃ groups, CookedMiscInfo.ofGroups groups = obj.miscInfo) :
    Writable (TextStat.text false obj) := by
  obtain ⟨groups, hgroups⟩ := h
  have hinfo := writable_miscInfo groups
  rw [hgroups] at hinfo
  have hauxItems := writable_array fun item (_ : item ∈ obj.auxItems) => writable_auxItem item
  exact writable_prod (by simp [Int.text, writable_token, writable_time, hinfo, hauxItems])

theorem writable_conference (obj : Conference) : Writable (Conference.text obj) := by
  have hauxItems := writable_array fun item (_ : item ∈ obj.auxItems) => writable_auxItem item
  exact writable_prod
    (by simp [Int.text, String.text, Bitstring.text, writable_token, writable_time, hauxItems])

theorem writable_person (obj : Person) : Writable (Person.text obj) :=
  writable_prod (by simp [Int.text, String.text, Bitstring.text, writable_token, writable_time])

theorem writable_uConference (obj : UConference) : Writable (UConference.text obj) :=
  writable_prod (by simp [Int.text, String.text, Bitstring.text, writable_token])

theorem writable_membership11 (obj : Membership11) : Writable (Membership11.text obj) := by
  have hranges : Writable (Array.text ReadRange.text obj.readRanges) :=
    writable_array fun _ _ => (writable_token _).mul ((writable_token _).mul ⟨[], rfl⟩)
  exact writable_prod
    (by simp [Int.text, Bitstring.text, writable_token, writable_time, hranges])

theorem writable_arrayInt (obj : List ℕ) : Writable (Array.text Int.text obj) :=
  writable_array fun n _ => writable_token (decimal n)

theorem writable_textMapping (obj : TextMapping) : Writable (TextMapping.text obj) := by
  have hblock : Writable (TextMappingBlock.text obj.block) := by
    cases obj.block with
    | sparse sparseList =>
      refine (writable_token _).mul ((writable_array fun _ _ => ?_).mul ⟨[], rfl⟩)
      exact (writable_token _).mul ((writable_token _).mul ⟨[], rfl⟩)
    | dense denseFirst denseTexts =>
      exact (writable_token _).mul ((writable_token _).mul
        ((writable_arrayInt denseTexts).mul ⟨[], rfl⟩))
  exact writable_prod (by simp [Int.text, writable_token, hblock])

end TextForm

theorem ServerMessage.lines_nonempty {m : ServerMessage} (h : TextForm.Writable m.value) :
    m.lines.Nonempty := by
  obtain ⟨ts, hts⟩ := h
  exact ⟨_, _, Language.append_mem_mul (Set.mem_singleton _) hts, rfl⟩

end Pylyskom
