import Pylyskom.Mime
import Pylyskom.Datatypes

/-!
# Texts of a session

`KomText` of `komsession.py`: a text from the server with its subject and body decoded,
and the encoded form of a new text.
-/

namespace Pylyskom

def AI_CONTENT_TYPE : ℕ := 1
def AI_CREATING_SOFTWARE : ℕ := 15

def MIR_TO : ℕ := MI_RECPT
def MIR_CC : ℕ := MI_CC_RECPT
def MIR_BCC : ℕ := MI_BCC_RECPT

def MIC_COMMENT : ℕ := MI_COMM_TO
def MIC_FOOTNOTE : ℕ := MI_FOOTN_TO

def MIRecipientStrToType (type : Str) : Except Exn ℕ :=
  if type = "to".toList then .ok MIR_TO
  else if type = "cc".toList then .ok MIR_CC
  else if type = "bcc".toList then .ok MIR_BCC
  else .error (.builtinError (.missingKey type))

def MICommentToStrToType (type : Str) : Except Exn ℕ :=
  if type = "comment".toList then .ok MIC_COMMENT
  else if type = "footnote".toList then .ok MIC_FOOTNOTE
  else .error (.builtinError (.missingKey type))

/-- An argument that may be a byte string or a text string. -/
inductive BytesOrStr : Type
  | bytes (s : Bytes)
  | str (s : Str)
  deriving DecidableEq

/-- `KomPerson` of the sync session, `KomPersonName` of the other. -/
structure KomPersonName where
  persNo : ℕ
  username : Str
  deriving DecidableEq

structure KomAuxItem where
  auxItem : AuxItem
  creator : KomPersonName
  deriving DecidableEq

/-- The flags have their default, no flag set. -/
structure AuxItemInput where
  tag : ℕ
  flags : Bitstring 8 := List.Vector.replicate 8 false
  inheritLimit : ℕ := 0
  data : Bytes
  deriving DecidableEq

/-- A text made from its text-stat. -/
structure KomText where
  textNo : ℕ
  text : Option Bytes
  auxItems : List KomAuxItem
  author : KomPersonName
  /-- The content type of the encoded text. -/
  textContentType : Str
  /-- The content type of the decoded text, without charset. -/
  contentType : Str
  subject : Option Str
  body : Option BytesOrStr
  creationTime : Time
  noOfMarks : ℕ
  recipientList : List MIRecipient
  commentToList : List MICommentTo
  commentInList : List MICommentIn
  deriving DecidableEq

namespace KomText

def decodeText (codecs : Codecs) (text : Option Bytes) (mimeType : MimeType)
    (encoding : Option Str) : Except Exn (Option Str × Option BytesOrStr) :=
  match text with
  | none => .ok (none, none)
  | some text =>
    if mimeType.type = "x-kom".toList ∧ mimeType.subtype = "user-area".toList then do
      let body ← Pylyskom.decodeText codecs text encoding
      return (none, some (.str body))
    else do
      let (subject, rawbody) ←
        match text.span (· ≠ '\n'.toUInt8) with
        -- If a text has no linefeeds, it only has a body
        | (_, []) => pure ([], text)
        | (rawsubject, _ :: rawbody) => do
          let subject ← Pylyskom.decodeText codecs rawsubject encoding
          pure (subject, rawbody)
      if mimeType.type = "text".toList then do
        let body ← Pylyskom.decodeText codecs rawbody encoding
        return (some subject, some (.str body))
      else return (some subject, some (.bytes rawbody))

def getContentTypeFromTextStat (textStat : TextStat) : Str :=
  match textStat.auxItems.find? fun x => x.tag = AI_CONTENT_TYPE with
  | some auxItem => latin1Decode auxItem.data
  | none => "text/plain".toList

/-- `KomText(text_no, text, text_stat=text_stat, aux_items=aux_items, author=author)` -/
def ofTextStat (codecs : Codecs) (textNo : ℕ) (text : Option Bytes) (textStat : TextStat)
    (auxItems : List KomAuxItem) (author : KomPersonName) : Except Exn KomText := do
  let textContentType := getContentTypeFromTextStat textStat
  let (mimeType, encoding) ← parseContentType textContentType
  let (subject, body) ← decodeText codecs text mimeType encoding
  return { textNo, text, auxItems, author, textContentType
           contentType := mimeTypeTupleToStr mimeType
           subject, body
           creationTime := textStat.creationTime
           noOfMarks := textStat.noOfMarks
           recipientList := textStat.miscInfo.recipientList
           commentToList := textStat.miscInfo.commentToList
           commentInList := textStat.miscInfo.commentInList }

/-- The attributes of a `KomText` that `create_new_text` sets. -/
structure New where
  subject : Option Str
  body : BytesOrStr
  contentType : Str
  text : Bytes
  recipientList : List MIRecipient
  commentToList : List MICommentTo
  textContentType : Str
  auxItems : List AuxItemInput
  deriving DecidableEq

/-- `s.encode('latin-1')`, also where `s` is no text string. -/
def encodeLatin1 : Option BytesOrStr → Except Exn Bytes
  | some (.str s) =>
    match latin1Encode s with
    | some s => .ok s
    | none => .error (.builtinError .unicodeEncodeError)
  | _ => .error (.builtinError .attributeError)

/-- The encoded text of a new text, with the mime type that it gets. -/
def fulltext (subject : Option Str) (body : BytesOrStr) (mimeType : MimeType) :
    Except Exn (Bytes × MimeType) :=
  if mimeType.type = "text".toList then
    match subject, body with
    | some subject, .str body =>
      -- We hard code utf-8 because it is The Correct Encoding. :)
      .ok (utf8Encode (subject ++ ['\n'] ++ body),
        { mimeType with params := mimeType.params.set "charset".toList "utf-8".toList })
    | _, _ => .error (.builtinError .typeError)
  else if mimeType.type = "x-kom".toList ∧ mimeType.subtype = "user-area".toList then do
    -- Charset doesn't seem to be specified for user areas, but in reality they contain
    -- Latin 1 text.
    let fulltext ← encodeLatin1 (some body)
    return (fulltext, mimeType)
  else if mimeType.type = "image".toList then do
    let rawsubject ← encodeLatin1 (subject.map .str)
    match body with
    | .bytes body => return (rawsubject ++ ['\n'.toUInt8] ++ body, mimeType)
    | .str _ => .error (.builtinError .typeError)
  else
    .error (.komSessionError
      (.unhandledContentType mimeType.type mimeType.subtype mimeType.params.items))

/-- The recipients have a type and a `conf_no`, the comment links a type and a `text_no`. -/
def createNewText (subject : Option Str) (body : BytesOrStr) (contentType : Str)
    (creatingSoftware : Option Str) (recipientList commentToList : List (Str × ℕ)) :
    Except Exn New := do
  let (mimeType, _) ← parseContentType contentType
  let mimeType ← parseMimeType (mimeTypeTupleToStr mimeType)
  let (fulltext, mimeType) ← fulltext subject body mimeType
  let miscInfoRecipientList ← recipientList.mapM fun r => do
    let type ← MIRecipientStrToType r.1
    return ({ type, recpt := r.2 } : MIRecipient)
  let miscInfoCommentToList ← commentToList.mapM fun ct => do
    let type ← MICommentToStrToType ct.1
    return ({ type, textNo := ct.2 } : MICommentTo)
  -- We need to make sure all aux items are encoded.
  let softwareItems : List AuxItemInput := creatingSoftware.toList.map fun software =>
    { tag := AI_CREATING_SOFTWARE, data := utf8Encode software }
  let finalContentType := mimeTypeTupleToStr mimeType
  return { subject, body, contentType
           text := fulltext
           recipientList := miscInfoRecipientList
           commentToList := miscInfoCommentToList
           textContentType := finalContentType
           auxItems := softwareItems ++
             [{ tag := AI_CONTENT_TYPE, data := utf8Encode finalContentType }] }

end KomText

end Pylyskom
