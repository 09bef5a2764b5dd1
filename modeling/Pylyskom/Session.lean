import Pylyskom.KomText
import Pylyskom.UserArea

/-!
# Sessions

The methods of `KomSession` and `AioKomSession` that read and create texts, and those
for the blocks of a user area, over what the calls of their client return. The two classes
differ in how they look up names.
-/

namespace Pylyskom

/-- What the calls of `self._client` return or raise. -/
structure SessionClient where
  textstats : ℕ → Except Exn TextStat
  uconferences : ℕ → Except Exn UConference
  getPersonStat : ℕ → Except Exn Person
  getText : ℕ → Except Exn Bytes
  createText : (text : Bytes) → CookedMiscInfo → List AuxItemInput → Except Exn ℕ
  setUserArea : (persNo userArea : ℕ) → Except Exn Unit

/-- The requests by which a session changes the server's data. -/
inductive Sent : Type
  | createText (text : Bytes) (miscInfo : CookedMiscInfo) (auxItems : List AuxItemInput)
  | setUserArea (persNo userArea : ℕ)
  deriving DecidableEq

structure KomSession where
  client : SessionClient
  clientName : Str
  clientVersion : Str
  codecs : Codecs

abbrev AioKomSession := KomSession

/-- A method of a session, with the requests sent so far; `none` when a loop of it needs
more fuel. -/
abbrev SessionM := ExceptT Exn (StateT (List Sent) Option)

/-- A call that returns or raises what is given. -/
def SessionM.ofExcept {α : Type} (x : Except Exn α) : SessionM α := ExceptT.mk (pure x)

/-- A function with loops. -/
def SessionM.ofLoops {α : Type} (x : Loops α) : SessionM α := ExceptT.mk (StateT.lift x.run)

/-- A request that changes the server's data. -/
def SessionM.request {α : Type} (sent : Sent) (reply : Except Exn α) : SessionM α :=
  ExceptT.mk (modifyGet fun log => (reply, log ++ [sent]))

namespace SessionM

variable {α β : Type}

@[simp] theorem ofExcept_ok (a : α) : ofExcept (.ok a) = pure a := rfl

@[simp] theorem ofExcept_pure (a : α) : ofExcept (pure a) = pure a := rfl

@[simp] theorem ofExcept_error (e : Exn) : ofExcept (.error e : Except Exn α) = throw e := rfl

@[simp] theorem ofLoops_pure (a : α) : ofLoops (pure a) = pure a := rfl

@[simp] theorem throw_bind (e : Exn) (f : α → SessionM β) :
    (throw e : SessionM α) >>= f = throw e := rfl

theorem run_throw (e : Exn) (log : List Sent) :
    (throw e : SessionM α).run.run log = some (.error e, log) := rfl

/-- A request is sent whether or not it succeeds. -/
theorem run_request_bind (sent : Sent) (a : α) (f : α → SessionM β) (log : List Sent) :
    (request sent (.ok a) >>= f).run.run log = (f a).run.run (log ++ [sent]) := rfl

end SessionM

namespace KomSession

variable (self : KomSession)

/-- `_get_person` never fails: `conf_name` has a default name for every exception. -/
def getPerson (persNo : ℕ) : Except Exn KomPersonName :=
  match self.client.uconferences persNo with
  | .ok uconf => .ok ⟨persNo, latin1Decode uconf.name⟩
  | .error _ => .ok ⟨persNo, []⟩

/-- `get_text`, with the session's way to look up the name of a person. -/
def getTextWith (getPerson : ℕ → Except Exn KomPersonName) (textNo : ℕ) : Except Exn KomText := do
  let textStat ← self.client.textstats textNo
  let text ← self.client.getText textNo
  let author ← getPerson textStat.author
  let auxItems ← textStat.auxItems.mapM fun auxItem => do
    let creator ← getPerson auxItem.creator
    return (⟨auxItem, creator⟩ : KomAuxItem)
  KomText.ofTextStat self.codecs textNo (some text) textStat auxItems author

def getText (textNo : ℕ) : Except Exn KomText := self.getTextWith self.getPerson textNo

/-- Decode if not already unicode (assuming utf-8). -/
def decodeUtf8 : BytesOrStr → Except Exn Str
  | .str s => .ok s
  | .bytes s =>
    match utf8Decode s with
    | some s => .ok s
    | none => .error (.builtinError .unicodeDecodeError)

def createText (subject : Option BytesOrStr) (body contentType : BytesOrStr)
    (contentEncoding : Option Str) (recipientList commentToList : List (Str × ℕ)) :
    SessionM ℕ := do
  let subject ← SessionM.ofExcept (subject.mapM decodeUtf8)
  let body ← SessionM.ofExcept (decodeUtf8 body)
  let contentType ← SessionM.ofExcept (decodeUtf8 contentType)
  let body ← SessionM.ofExcept <|
    match contentEncoding with
    | none => .ok (.str body)
    | some encoding =>
      if encoding = "base64".toList then
        match b64decode body with
        | some body => .ok (.bytes body)
        | none => .error (.builtinError .valueError)
      else .error (.builtinError .valueError)
  let creatingSoftware := self.clientName ++ [' '] ++ self.clientVersion
  let komtext ← SessionM.ofExcept <|
    KomText.createNewText subject body contentType (some creatingSoftware) recipientList
      commentToList
  let miscInfo : CookedMiscInfo :=
    { recipientList := komtext.recipientList, commentToList := komtext.commentToList }
  SessionM.request (.createText komtext.text miscInfo komtext.auxItems)
    (self.client.createText komtext.text miscInfo komtext.auxItems)

/-- The blocks of the user area of a person, and none if there is no user area. -/
def userAreaBlocks (getText : ℕ → Except Exn KomText) (fuel persNo : ℕ) :
    SessionM (Dict Bytes (Option Bytes)) := do
  let personStat ← SessionM.ofExcept (self.client.getPersonStat persNo)
  if personStat.userArea = 0 then
    -- No existing user area, initiate a new dictionary of blocks.
    return ∅
  else do
    let userArea ← SessionM.ofExcept (getText personStat.userArea)
    if userArea.contentType ≠ "x-kom/user-area".toList then
      throw (.komSessionError (.unknownContentType userArea.contentType))
    else do
      let body ← SessionM.ofExcept (KomText.encodeLatin1 userArea.body)
      SessionM.ofLoops (decodeUserArea fuel body)

/-- `set_user_area_block` with `json_encode=False`. -/
def setUserAreaBlockWith (getText : ℕ → Except Exn KomText) (fuel persNo : ℕ)
    (blockName block : Bytes) : SessionM Unit := do
  let blocks ← self.userAreaBlocks getText fuel persNo
  let body ← SessionM.ofExcept (encodeUserArea (blocks.set blockName (some block)))
  let newUserAreaTextNo ← self.createText none (.bytes body)
    (.str "x-kom/user-area".toList) none [] []
  SessionM.request (.setUserArea persNo newUserAreaTextNo)
    (self.client.setUserArea persNo newUserAreaTextNo)

def setUserAreaBlock (fuel persNo : ℕ) (blockName block : Bytes) : SessionM Unit :=
  self.setUserAreaBlockWith self.getText fuel persNo blockName block

end KomSession

namespace AioKomSession

variable (self : AioKomSession)

/-- Does not raise if the person does not exist, nor if the number is 0. -/
def getPersonName (persNo : ℕ) : Except Exn KomPersonName :=
  match self.client.uconferences persNo with
  | .ok uconf => .ok ⟨persNo, latin1Decode uconf.name⟩
  | .error (.serverError e) =>
    if e.cls = .undefinedConference then
      .ok ⟨persNo, "Person ".toList ++ Nat.toDigits 10 persNo ++ " (does not exist).".toList⟩
    else if e.cls = .conferenceZero then .ok ⟨persNo, "Anonymous person".toList⟩
    else .error (.serverError e)
  | .error e => .error e

def getText (textNo : ℕ) : Except Exn KomText :=
  KomSession.getTextWith self self.getPersonName textNo

def setUserAreaBlock (fuel persNo : ℕ) (blockName block : Bytes) : SessionM Unit :=
  KomSession.setUserAreaBlockWith self self.getText fuel persNo blockName block

end AioKomSession

end Pylyskom
