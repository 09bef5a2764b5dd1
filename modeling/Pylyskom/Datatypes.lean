import Pylyskom.Protocol
import Pylyskom.Collections.Dict
import Mathlib.Data.Vector.Defs

/-!
# The datatypes of Protocol A

The classes of `datatypes.py` that the server sends, with their class methods `parse`.
A `parse` reads its fields in the order in which the class does.
-/

namespace Pylyskom

def MI_RECPT : ℕ := 0
def MI_CC_RECPT : ℕ := 1
def MI_COMM_TO : ℕ := 2
def MI_COMM_IN : ℕ := 3
def MI_FOOTN_TO : ℕ := 4
def MI_FOOTN_IN : ℕ := 5
def MI_LOC_NO : ℕ := 6
def MI_REC_TIME : ℕ := 7
def MI_SENT_BY : ℕ := 8
def MI_SENT_AT : ℕ := 9
def MI_BCC_RECPT : ℕ := 15

/-- `raise ProtocolError()` -/
def protocolError {α : Type} : Parser α := Reader.raise (.localError (.protocolError none))

/-! ## Simple types -/

def EmptyResponse.parse : Parser Unit := pure ()

/-- Parse a string (Hollerith notation). -/
def String.parse : Parser Bytes := do
  let (length, h) ← readIntAndNext
  if h ≠ 'H'.toUInt8 then protocolError
  else Reader.string length

def Float.parse : Parser PyFloat := readFloat

def Int.parse : Parser ℕ := readInt

def Bool.parse : Parser ℕ := Int.parse
def Int8.parse : Parser ℕ := Int.parse
def Int16.parse : Parser ℕ := Int.parse
def Int32.parse : Parser ℕ := Int.parse
def AuxNo.parse : Parser ℕ := Int32.parse
def ConfNo.parse : Parser ℕ := Int16.parse
def PersNo.parse : Parser ℕ := ConfNo.parse
def TextNo.parse : Parser ℕ := Int32.parse
def LocalTextNo.parse : Parser ℕ := Int32.parse
def SessionNo.parse : Parser ℕ := Int32.parse
def GarbNice.parse : Parser ℕ := Int32.parse

/-- `Array.parse` for a subclass with the given element class. -/
def Array.parse {α : Type} (elementClass : Parser α) : Parser (List α) := do
  let length ← readInt
  let left ← readFirstNonWs
  if left = '*'.toUInt8 then
    -- Empty or special case of unwanted data
    return []
  else if left ≠ '{'.toUInt8 then protocolError
  else do
    let obj ← elementClass.times length
    let right ← readFirstNonWs
    if right ≠ '}'.toUInt8 then protocolError
    else return obj

def ArrayInt32.parse : Parser (List ℕ) := Array.parse Int32.parse
def ArrayLocalTextNo.parse : Parser (List ℕ) := Array.parse LocalTextNo.parse
def ArrayTextNo.parse : Parser (List ℕ) := Array.parse TextNo.parse
def ArrayString.parse : Parser (List Bytes) := Array.parse String.parse
def ArrayConfNo.parse : Parser (List ℕ) := Array.parse ConfNo.parse

/-- A bit string of the length that its class declares. -/
abbrev Bitstring (length : ℕ) := List.Vector Bool length

/-- The loop of `Bitstring.parse` for the last `i` bits, with `char` read. -/
def Bitstring.parseBits : (i : ℕ) → UInt8 → Parser (Bitstring i)
  | 0, _ => return .nil
  | i + 1, char =>
    if char = '0'.toUInt8 then do
      let char ← Reader.char
      let bits ← parseBits i char
      return .cons false bits
    else if char = '1'.toUInt8 then do
      let char ← Reader.char
      let bits ← parseBits i char
      return .cons true bits
    else protocolError

def Bitstring.parse (length : ℕ) : Parser (Bitstring length) := do
  let char ← readFirstNonWs
  parseBits length char

def ConfType.parse : Parser (Bitstring 4) := Bitstring.parse 4
def ExtendedConfType.parse : Parser (Bitstring 8) := Bitstring.parse 8
def AuxItemFlags.parse : Parser (Bitstring 8) := Bitstring.parse 8
def PrivBits.parse : Parser (Bitstring 16) := Bitstring.parse 16
def PersonalFlags.parse : Parser (Bitstring 8) := Bitstring.parse 8
def MembershipType.parse : Parser (Bitstring 8) := Bitstring.parse 8
def SessionFlags.parse : Parser (Bitstring 8) := Bitstring.parse 8

/-- Assumes all dates are in UTC timezone. -/
structure Time where
  seconds : ℕ
  minutes : ℕ
  hours : ℕ
  day : ℕ
  month : ℕ
  year : ℕ
  dayOfWeek : ℕ
  dayOfYear : ℕ
  isDst : ℕ
  deriving DecidableEq, Repr

def Time.parse : Parser Time := do
  let seconds ← Int32.parse
  let minutes ← Int32.parse
  let hours ← Int32.parse
  let day ← Int32.parse
  let month ← Int32.parse
  let year ← Int32.parse
  let dayOfWeek ← Int32.parse
  let dayOfYear ← Int32.parse
  let isDst ← Bool.parse
  return { seconds, minutes, hours, day, month, year, dayOfWeek, dayOfYear, isDst }

/-- Result from lookup-z-name. -/
structure ConfZInfo where
  name : Bytes
  type : Bitstring 4
  confNo : ℕ
  deriving DecidableEq

def ConfZInfo.parse : Parser ConfZInfo := do
  let name ← String.parse
  let type ← ConfType.parse
  let confNo ← ConfNo.parse
  return { name, type, confNo }

/-! ## Misc-info -/

/-- The types of misc-info items that carry a time. -/
def isTimeItem (type : ℕ) : Prop := type = MI_REC_TIME ∨ type = MI_SENT_AT

instance (type : ℕ) : Decidable (isTimeItem type) :=
  inferInstanceAs (Decidable (_ ∨ _))

/-- A misc-info item as it is in Protocol A: its type and its data, which is a time for
two of the types and a number for all others. -/
inductive RawMiscInfo : Type
  | number (type data : ℕ) (isNumber : ¬ isTimeItem type)
  | time (type : ℕ) (data : Time) (isTime : isTimeItem type)
  deriving DecidableEq

def RawMiscInfo.type : RawMiscInfo → ℕ
  | number type _ _ => type
  | time type _ _ => type

def RawMiscInfo.parse : Parser RawMiscInfo := do
  let type ← Int32.parse
  if h : isTimeItem type then do
    let data ← Time.parse
    return .time type data h
  else do
    let data ← Int32.parse
    return .number type data h

def ArrayRawMiscInfo.parse : Parser (List RawMiscInfo) := Array.parse RawMiscInfo.parse

structure MIRecipient where
  type : ℕ
  recpt : ℕ
  locNo : Option ℕ := none
  recTime : Option Time := none
  sentBy : Option ℕ := none
  sentAt : Option Time := none
  deriving DecidableEq

/-- The items are those from index `i` on; the result pairs the recipient with the items
from the returned index on. -/
def MIRecipient.decodeAdditional (self : MIRecipient) :
    List RawMiscInfo → MIRecipient × List RawMiscInfo
  | [] => (self, [])
  | .number type data h :: raw =>
    if type = MI_LOC_NO then { self with locNo := some data }.decodeAdditional raw
    else if type = MI_SENT_BY then { self with sentBy := some data }.decodeAdditional raw
    else (self, .number type data h :: raw)
  | .time type data h :: raw =>
    if type = MI_REC_TIME then { self with recTime := some data }.decodeAdditional raw
    else if type = MI_SENT_AT then { self with sentAt := some data }.decodeAdditional raw
    else (self, .time type data h :: raw)

structure MICommentTo where
  type : ℕ
  textNo : ℕ
  sentBy : Option ℕ := none
  sentAt : Option Time := none
  deriving DecidableEq

def MICommentTo.decodeAdditional (self : MICommentTo) :
    List RawMiscInfo → MICommentTo × List RawMiscInfo
  | [] => (self, [])
  | .number type data h :: raw =>
    if type = MI_SENT_BY then { self with sentBy := some data }.decodeAdditional raw
    else (self, .number type data h :: raw)
  | .time type data h :: raw =>
    if type = MI_SENT_AT then { self with sentAt := some data }.decodeAdditional raw
    else (self, .time type data h :: raw)

structure MICommentIn where
  type : ℕ
  textNo : ℕ
  deriving DecidableEq

/-- The whole misc-info array of a text, not just one item. -/
structure CookedMiscInfo where
  recipientList : List MIRecipient := []
  commentToList : List MICommentTo := []
  commentInList : List MICommentIn := []
  deriving DecidableEq

theorem MIRecipient.length_decodeAdditional (self : MIRecipient) (raw : List RawMiscInfo) :
    (self.decodeAdditional raw).2.length ≤ raw.length := by
  induction raw generalizing self with
  | nil => simp [decodeAdditional]
  | cons item raw ih =>
    cases item <;> simp only [decodeAdditional, List.length_cons] <;> split_ifs <;>
      first | exact Nat.le_succ_of_le (ih _) | exact Nat.le_refl _

theorem MICommentTo.length_decodeAdditional (self : MICommentTo) (raw : List RawMiscInfo) :
    (self.decodeAdditional raw).2.length ≤ raw.length := by
  induction raw generalizing self with
  | nil => simp [decodeAdditional]
  | cons item raw ih =>
    cases item <;> simp only [decodeAdditional, List.length_cons] <;> split_ifs <;>
      first | exact Nat.le_succ_of_le (ih _) | exact Nat.le_refl _

/-- The loop of `CookedMiscInfo.parse` over the items from index `i` on; `none` is the
`ProtocolError` it raises for an item that starts no group. -/
def CookedMiscInfo.cook (obj : CookedMiscInfo) : List RawMiscInfo → Option CookedMiscInfo
  | [] => some obj
  | .time _ _ _ :: _ => none
  | .number type data _ :: raw =>
    if type ∈ [MI_RECPT, MI_CC_RECPT, MI_BCC_RECPT] then
      let r := ({ type, recpt := data } : MIRecipient).decodeAdditional raw
      cook { obj with recipientList := obj.recipientList ++ [r.1] } r.2
    else if type ∈ [MI_COMM_TO, MI_FOOTN_TO] then
      let ct := ({ type, textNo := data } : MICommentTo).decodeAdditional raw
      cook { obj with commentToList := obj.commentToList ++ [ct.1] } ct.2
    else if type ∈ [MI_COMM_IN, MI_FOOTN_IN] then
      let ci : MICommentIn := { type := type - 1, textNo := data } -- KLUDGE :-)
      cook { obj with commentInList := obj.commentInList ++ [ci] } raw
    else none
termination_by raw => raw.length
decreasing_by
  · exact Nat.lt_succ_of_le (MIRecipient.length_decodeAdditional _ _)
  · exact Nat.lt_succ_of_le (MICommentTo.length_decodeAdditional _ _)
  · exact Nat.lt_succ_self _

def CookedMiscInfo.parse : Parser CookedMiscInfo := do
  let raw ← ArrayRawMiscInfo.parse
  match cook {} raw with
  | some obj => return obj
  | none => protocolError

/-! ## Aux-items, texts, conferences and persons -/

structure AuxItem where
  auxNo : ℕ
  tag : ℕ
  creator : ℕ
  createdAt : Time
  flags : Bitstring 8
  inheritLimit : ℕ
  data : Bytes
  deriving DecidableEq

def AuxItem.parse : Parser AuxItem := do
  let auxNo ← AuxNo.parse
  let tag ← Int32.parse
  let creator ← PersNo.parse
  let createdAt ← Time.parse
  let flags ← AuxItemFlags.parse
  let inheritLimit ← Int32.parse
  let data ← String.parse
  return { auxNo, tag, creator, createdAt, flags, inheritLimit, data }

def ArrayAuxItem.parse : Parser (List AuxItem) := Array.parse AuxItem.parse

structure TextStat where
  creationTime : Time
  author : ℕ
  noOfLines : ℕ
  noOfChars : ℕ
  noOfMarks : ℕ
  miscInfo : CookedMiscInfo
  auxItems : List AuxItem
  deriving DecidableEq

def TextStat.parse (oldFormat : Bool) : Parser TextStat := do
  let creationTime ← Time.parse
  let author ← PersNo.parse
  let noOfLines ← Int32.parse
  let noOfChars ← Int32.parse
  let noOfMarks ← Int16.parse
  let miscInfo ← CookedMiscInfo.parse
  if oldFormat then
    return { creationTime, author, noOfLines, noOfChars, noOfMarks, miscInfo, auxItems := [] }
  else do
    let auxItems ← ArrayAuxItem.parse
    return { creationTime, author, noOfLines, noOfChars, noOfMarks, miscInfo, auxItems }

structure Conference where
  name : Bytes
  type : Bitstring 8
  creationTime : Time
  lastWritten : Time
  creator : ℕ
  presentation : ℕ
  supervisor : ℕ
  permittedSubmitters : ℕ
  superConf : ℕ
  msgOfDay : ℕ
  nice : ℕ
  keepCommented : ℕ
  noOfMembers : ℕ
  firstLocalNo : ℕ
  noOfTexts : ℕ
  expire : ℕ
  auxItems : List AuxItem
  deriving DecidableEq

def Conference.parse : Parser Conference := do
  let name ← String.parse
  let type ← ExtendedConfType.parse
  let creationTime ← Time.parse
  let lastWritten ← Time.parse
  let creator ← PersNo.parse
  let presentation ← TextNo.parse
  let supervisor ← ConfNo.parse
  let permittedSubmitters ← ConfNo.parse
  let superConf ← ConfNo.parse
  let msgOfDay ← TextNo.parse
  let nice ← GarbNice.parse
  let keepCommented ← GarbNice.parse
  let noOfMembers ← Int16.parse
  let firstLocalNo ← LocalTextNo.parse
  let noOfTexts ← Int32.parse
  let expire ← GarbNice.parse
  let auxItems ← ArrayAuxItem.parse
  return { name, type, creationTime, lastWritten, creator, presentation, supervisor,
           permittedSubmitters, superConf, msgOfDay, nice, keepCommented, noOfMembers,
           firstLocalNo, noOfTexts, expire, auxItems }

structure UConference where
  name : Bytes
  type : Bitstring 8
  highestLocalNo : ℕ
  nice : ℕ
  deriving DecidableEq

def UConference.parse : Parser UConference := do
  let name ← String.parse
  let type ← ExtendedConfType.parse
  let highestLocalNo ← LocalTextNo.parse
  let nice ← GarbNice.parse
  return { name, type, highestLocalNo, nice }

structure Person where
  username : Bytes
  privileges : Bitstring 16
  flags : Bitstring 8
  lastLogin : Time
  userArea : ℕ
  totalTimePresent : ℕ
  sessions : ℕ
  createdLines : ℕ
  createdBytes : ℕ
  readTexts : ℕ
  noOfTextFetches : ℕ
  createdPersons : ℕ
  createdConfs : ℕ
  firstCreatedLocalNo : ℕ
  noOfCreatedTexts : ℕ
  noOfMarks : ℕ
  noOfConfs : ℕ
  deriving DecidableEq

def Person.parse : Parser Person := do
  let username ← String.parse
  let privileges ← PrivBits.parse
  let flags ← PersonalFlags.parse
  let lastLogin ← Time.parse
  let userArea ← TextNo.parse
  let totalTimePresent ← Int32.parse
  let sessions ← Int32.parse
  let createdLines ← Int32.parse
  let createdBytes ← Int32.parse
  let readTexts ← Int32.parse
  let noOfTextFetches ← Int32.parse
  let createdPersons ← Int16.parse
  let createdConfs ← Int16.parse
  let firstCreatedLocalNo ← Int32.parse
  let noOfCreatedTexts ← Int32.parse
  let noOfMarks ← Int16.parse
  let noOfConfs ← Int16.parse
  return { username, privileges, flags, lastLogin, userArea, totalTimePresent, sessions,
           createdLines, createdBytes, readTexts, noOfTextFetches, createdPersons, createdConfs,
           firstCreatedLocalNo, noOfCreatedTexts, noOfMarks, noOfConfs }

/-! ## Memberships -/

structure Membership10 where
  position : ℕ
  lastTimeRead : Time
  conference : ℕ
  priority : ℕ
  lastTextRead : ℕ
  readTexts : List ℕ
  addedBy : ℕ
  addedAt : Time
  type : Bitstring 8
  deriving DecidableEq

def Membership10.parse : Parser Membership10 := do
  let position ← Int32.parse
  let lastTimeRead ← Time.parse
  let conference ← ConfNo.parse
  let priority ← Int8.parse
  let lastTextRead ← LocalTextNo.parse
  let readTexts ← ArrayLocalTextNo.parse
  let addedBy ← PersNo.parse
  let addedAt ← Time.parse
  let type ← MembershipType.parse
  return { position, lastTimeRead, conference, priority, lastTextRead, readTexts, addedBy,
           addedAt, type }

structure ReadRange where
  firstRead : ℕ
  lastRead : ℕ
  deriving DecidableEq, Repr

def ReadRange.parse : Parser ReadRange := do
  let firstRead ← LocalTextNo.parse
  let lastRead ← LocalTextNo.parse
  return { firstRead, lastRead }

def ArrayReadRange.parse : Parser (List ReadRange) := Array.parse ReadRange.parse

structure Membership11 where
  position : ℕ
  lastTimeRead : Time
  conference : ℕ
  priority : ℕ
  readRanges : List ReadRange
  addedBy : ℕ
  addedAt : Time
  type : Bitstring 8
  deriving DecidableEq

abbrev Membership := Membership11

def Membership11.parse : Parser Membership11 := do
  let position ← Int32.parse
  let lastTimeRead ← Time.parse
  let conference ← ConfNo.parse
  let priority ← Int8.parse
  let readRanges ← ArrayReadRange.parse
  let addedBy ← PersNo.parse
  let addedAt ← Time.parse
  let type ← MembershipType.parse
  return { position, lastTimeRead, conference, priority, readRanges, addedBy, addedAt, type }

structure Member where
  member : ℕ
  addedBy : ℕ
  addedAt : Time
  type : Bitstring 8
  deriving DecidableEq

def Member.parse : Parser Member := do
  let member ← PersNo.parse
  let addedBy ← PersNo.parse
  let addedAt ← Time.parse
  let type ← MembershipType.parse
  return { member, addedBy, addedAt, type }

/-! ## Text lists and mappings -/

structure TextList where
  firstLocalNo : ℕ
  texts : List ℕ
  deriving DecidableEq

def TextList.parse : Parser TextList := do
  let firstLocalNo ← LocalTextNo.parse
  let texts ← ArrayTextNo.parse
  return { firstLocalNo, texts }

structure TextNumberPair where
  localNumber : ℕ
  globalNumber : ℕ
  deriving DecidableEq

def TextNumberPair.parse : Parser TextNumberPair := do
  let localNumber ← LocalTextNo.parse
  let globalNumber ← TextNo.parse
  return { localNumber, globalNumber }

def ArrayTextNumberPair.parse : Parser (List TextNumberPair) := Array.parse TextNumberPair.parse

/-- The two forms of a text mapping, block types 0 and 1. -/
inductive TextMappingBlock : Type
  | sparse (sparseList : List TextNumberPair)
  | dense (denseFirst : ℕ) (denseTexts : List ℕ)
  deriving DecidableEq

structure TextMapping where
  rangeBegin : ℕ
  /-- The first local number after the range. -/
  rangeEnd : ℕ
  laterTextsExists : ℕ
  block : TextMappingBlock
  deriving DecidableEq

/-- The attribute `list` for a dense block whose next local number is `localNumber`. -/
def TextMapping.denseList (localNumber : ℕ) : List ℕ → List (ℕ × ℕ)
  | [] => []
  | globalNumber :: texts => (localNumber, globalNumber) :: denseList (localNumber + 1) texts

/-- The attribute `list`: pairs of a local and a global number. -/
def TextMapping.list (obj : TextMapping) : List (ℕ × ℕ) :=
  match obj.block with
  | .sparse sparseList => sparseList.map fun tnp => (tnp.localNumber, tnp.globalNumber)
  | .dense denseFirst denseTexts => denseList denseFirst denseTexts

/-- The attribute `dict`, which the same loops fill. -/
def TextMapping.dict (obj : TextMapping) : Dict ℕ ℕ :=
  obj.list.foldl (fun d p => d.set p.1 p.2) ∅

def TextMapping.parse : Parser TextMapping := do
  let rangeBegin ← LocalTextNo.parse
  let rangeEnd ← LocalTextNo.parse
  let laterTextsExists ← Bool.parse
  let blockType ← Int32.parse
  if blockType = 0 then do
    let sparseList ← ArrayTextNumberPair.parse
    return { rangeBegin, rangeEnd, laterTextsExists, block := .sparse sparseList }
  else if blockType = 1 then do
    let denseFirst ← LocalTextNo.parse
    let denseTexts ← ArrayInt32.parse
    return { rangeBegin, rangeEnd, laterTextsExists, block := .dense denseFirst denseTexts }
  else protocolError

/-! ## Marks, server and session information -/

structure Mark where
  textNo : ℕ
  type : ℕ
  deriving DecidableEq

def Mark.parse : Parser Mark := do
  let textNo ← TextNo.parse
  let type ← Int8.parse
  return { textNo, type }

structure Info where
  version : ℕ
  confPresConf : ℕ
  persPresConf : ℕ
  motdConf : ℕ
  komNewsConf : ℕ
  motdOfLyskom : ℕ
  auxItemList : List AuxItem
  deriving DecidableEq

def Info.parse : Parser Info := do
  let version ← Int32.parse
  let confPresConf ← ConfNo.parse
  let persPresConf ← ConfNo.parse
  let motdConf ← ConfNo.parse
  let komNewsConf ← ConfNo.parse
  let motdOfLyskom ← TextNo.parse
  let auxItemList ← ArrayAuxItem.parse
  return { version, confPresConf, persPresConf, motdConf, komNewsConf, motdOfLyskom, auxItemList }

structure VersionInfo where
  protocolVersion : ℕ
  serverSoftware : Bytes
  softwareVersion : Bytes
  deriving DecidableEq

def VersionInfo.parse : Parser VersionInfo := do
  let protocolVersion ← Int32.parse
  let serverSoftware ← String.parse
  let softwareVersion ← String.parse
  return { protocolVersion, serverSoftware, softwareVersion }

structure StaticServerInfo where
  bootTime : Time
  saveTime : Time
  dbStatus : Bytes
  existingTexts : ℕ
  highestTextNo : ℕ
  existingConfs : ℕ
  existingPersons : ℕ
  highestConfNo : ℕ
  deriving DecidableEq

def StaticServerInfo.parse : Parser StaticServerInfo := do
  let bootTime ← Time.parse
  let saveTime ← Time.parse
  let dbStatus ← String.parse
  let existingTexts ← Int32.parse
  let highestTextNo ← TextNo.parse
  let existingConfs ← Int32.parse
  let existingPersons ← Int32.parse
  let highestConfNo ← ConfNo.parse
  return { bootTime, saveTime, dbStatus, existingTexts, highestTextNo, existingConfs,
           existingPersons, highestConfNo }

structure DynamicSessionInfo where
  session : ℕ
  person : ℕ
  workingConference : ℕ
  idleTime : ℕ
  flags : Bitstring 8
  whatAmIDoing : Bytes
  deriving DecidableEq

def DynamicSessionInfo.parse : Parser DynamicSessionInfo := do
  let session ← SessionNo.parse
  let person ← PersNo.parse
  let workingConference ← ConfNo.parse
  let idleTime ← Int32.parse
  let flags ← SessionFlags.parse
  let whatAmIDoing ← String.parse
  return { session, person, workingConference, idleTime, flags, whatAmIDoing }

structure StaticSessionInfo where
  username : Bytes
  hostname : Bytes
  identUser : Bytes
  bufectionTime : Time
  deriving DecidableEq

def StaticSessionInfo.parse : Parser StaticSessionInfo := do
  let username ← String.parse
  let hostname ← String.parse
  let identUser ← String.parse
  let bufectionTime ← Time.parse
  return { username, hostname, identUser, bufectionTime }

structure SchedulingInfo where
  priority : ℕ
  weight : ℕ
  deriving DecidableEq

def SchedulingInfo.parse : Parser SchedulingInfo := do
  let priority ← Int16.parse
  let weight ← Int16.parse
  return { priority, weight }

structure WhoInfo where
  person : ℕ
  workingConference : ℕ
  session : ℕ
  whatAmIDoing : Bytes
  username : Bytes
  deriving DecidableEq

def WhoInfo.parse : Parser WhoInfo := do
  let person ← PersNo.parse
  let workingConference ← ConfNo.parse
  let session ← SessionNo.parse
  let whatAmIDoing ← String.parse
  let username ← String.parse
  return { person, workingConference, session, whatAmIDoing, username }

structure StatsDescription where
  what : List Bytes
  when : List ℕ
  deriving DecidableEq

def StatsDescription.parse : Parser StatsDescription := do
  let what ← ArrayString.parse
  let when ← ArrayInt32.parse
  return { what, when }

structure Stats where
  average : PyFloat
  ascentRate : PyFloat
  descentRate : PyFloat
  deriving DecidableEq

def Stats.parse : Parser Stats := do
  let average ← Float.parse
  let ascentRate ← Float.parse
  let descentRate ← Float.parse
  return { average, ascentRate, descentRate }

def ArrayMark.parse : Parser (List Mark) := Array.parse Mark.parse
def ArrayMember.parse : Parser (List Member) := Array.parse Member.parse
def ArrayMembership11.parse : Parser (List Membership11) := Array.parse Membership11.parse
def ArrayMembership10.parse : Parser (List Membership10) := Array.parse Membership10.parse
def ArrayStats.parse : Parser (List Stats) := Array.parse Stats.parse
def ArrayConfZInfo.parse : Parser (List ConfZInfo) := Array.parse ConfZInfo.parse
def ArrayDynamicSessionInfo.parse : Parser (List DynamicSessionInfo) :=
  Array.parse DynamicSessionInfo.parse

end Pylyskom
