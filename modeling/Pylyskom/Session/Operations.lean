import Pylyskom.Session.Calls

/-!
# The operations of a session

The methods of `KomSession` and `AioKomSession` with the decorators `check_connection` and
`async_check_connection`. Most are alike in the two classes; these have the class as a
parameter.
-/

namespace Pylyskom

inductive SessionClass : Type
  | komSession
  | aioKomSession
  deriving DecidableEq

structure SessionState where
  client : Option ClientState
  sessionNo : Option ℕ
  clientName : Option Str
  clientVersion : Option Str

/-- A session that `__init__` makes, or `close` leaves. -/
def SessionState.init : SessionState := ⟨none, none, none, none⟩

/-- A method of a session. -/
abbrev SessionOp := Coroutine SessionState ClientCall ClientCall.Reply Exn

/-- What the code takes from the libraries of Python. -/
structure PythonLibrary where
  /-- What `text.decode(encoding)` returns or raises. -/
  decode : (encoding : Str) → (text : List UInt8) → Except BuiltinError Str
  Json : Type
  loads : Str → Except BuiltinError Json
  /-- `json.dumps(obj).encode('latin1')` -/
  dumps : Json → Except BuiltinError Bytes

def PythonLibrary.codecs (lib : PythonLibrary) : Codecs := fun encoding text =>
  (lib.decode encoding text).mapError Exn.builtinError

/-- Those that mean that the connection is lost. -/
def Errno.isLost : Errno → Bool
  | other _ => false
  | _ => true

/-! ## What the operations return -/

structure KomConferenceName where
  confNo : ℕ
  name : Str
  deriving DecidableEq

/-- The conferences named in a conference: `KomSession` reads them, `AioKomSession` only
their names. -/
inductive NamedConference : Type
  | uconference (conference : KomUConference)
  | name (conference : KomConferenceName)
  deriving DecidableEq

structure KomConference where
  confNo : ℕ
  creator : KomPersonName
  supervisor : Option NamedConference
  permittedSubmitters : Option KomUConference
  superConf : Option NamedConference
  auxItems : List KomAuxItem
  name : Str
  type : Bitstring 8
  creationTime : Time
  lastWritten : Time
  presentation : ℕ
  msgOfDay : ℕ
  nice : ℕ
  keepCommented : ℕ
  noOfMembers : ℕ
  firstLocalNo : ℕ
  noOfTexts : ℕ
  expire : ℕ
  deriving DecidableEq

def KomConference.ofConf (confNo : ℕ) (conf : Conference) (creator : KomPersonName)
    (supervisor : Option NamedConference) (permittedSubmitters : Option KomUConference)
    (superConf : Option NamedConference) (auxItems : List KomAuxItem) : KomConference where
  confNo
  creator
  supervisor
  permittedSubmitters
  superConf
  auxItems
  name := latin1Decode conf.name
  type := conf.type
  creationTime := conf.creationTime
  lastWritten := conf.lastWritten
  presentation := conf.presentation
  msgOfDay := conf.msgOfDay
  nice := conf.nice
  keepCommented := conf.keepCommented
  noOfMembers := conf.noOfMembers
  firstLocalNo := conf.firstLocalNo
  noOfTexts := conf.noOfTexts
  expire := conf.expire

structure KomTextStat where
  textNo : ℕ
  author : KomPersonName
  creationTime : Time
  noOfMarks : ℕ
  recipientList : List MIRecipient
  commentToList : List MICommentTo
  commentInList : List MICommentIn
  auxItems : List KomAuxItem
  deriving DecidableEq

def KomTextStat.ofTextStat (textNo : ℕ) (textStat : TextStat) (auxItems : List KomAuxItem)
    (author : KomPersonName) : KomTextStat where
  textNo
  author
  creationTime := textStat.creationTime
  noOfMarks := textStat.noOfMarks
  recipientList := textStat.miscInfo.recipientList
  commentToList := textStat.miscInfo.commentToList
  commentInList := textStat.miscInfo.commentInList
  auxItems

structure KomMembershipUnread where
  persNo : ℕ
  confNo : ℕ
  noOfUnread : ℕ
  unreadTexts : List ℕ
  deriving DecidableEq

structure KomServerInfo where
  version : ℕ
  confPresConf : Option KomConferenceName
  persPresConf : Option KomConferenceName
  motdConf : Option KomConferenceName
  komNewsConf : Option KomConferenceName
  motdOfLyskom : ℕ
  deriving DecidableEq

namespace SessionOp

/-- A call of a method of `self._client`, which has no methods if it is `None`. -/
def client {α : Type} (m : ClientM α) : SessionOp α := fun s =>
  match s.client with
  | none => .done (.error (.builtinError .attributeError)) s
  | some client =>
    (m client).zoom (fun s => s.client.getD client)
      (fun client s => { s with client := s.client.map fun _ => client })
      (fun call => call) (fun _ reply => reply) s

/-- The call is a method of the session, where there is a client. -/
theorem client_of_some {α : Type} {m : ClientM α} {s : SessionState} {self : ClientState}
    (hclient : s.client = some self) :
    client m s = (m (s.client.getD self)).zoom (fun s => s.client.getD self)
      (fun client s => { s with client := s.client.map fun _ => client })
      (fun call => call) (fun _ reply => reply) s := by
  obtain ⟨client, sessionNo, clientName, clientVersion⟩ := s
  subst hclient
  rfl

def request (req : ClientRequest) : SessionOp req.Reply := client (ClientState.request req)

theorem putClient_getD (s : SessionState) (self : ClientState) :
    { s with client := s.client.map fun _ => s.client.getD self } = s := by
  obtain ⟨client, sessionNo, clientName, clientVersion⟩ := s
  cases client <;> rfl

/-- Where there is a client, a request of it is one of the session. -/
theorem request_of_some {req : ClientRequest} {s : SessionState} {self : ClientState}
    (hclient : s.client = some self) :
    request req s = Coroutine.request (⟨false, req⟩ : ClientCall) s := by
  rw [request, client_of_some hclient]
  change Suspended.await _ _ (fun reply t => Suspended.done _ _) =
    Suspended.await _ _ fun reply t => Suspended.done reply t
  congr 1
  · exact putClient_getD s self
  · funext reply t
    congr 1
    · cases reply <;> rfl
    · exact putClient_getD t self

def person {α : Type} (inTry : Bool) (m : PersonM α) : SessionOp α :=
  client (ClientState.ofPerson inTry m)

/-- `close`, when the socket can be closed. -/
def close : SessionOp Unit := set SessionState.init

end SessionOp

open SessionOp

namespace SessionClass

variable (cls : SessionClass) (lib : PythonLibrary)

def isConnected (s : SessionState) : Bool :=
  match cls, s.client with
  | _, none => false
  | komSession, some _ => true
  | aioKomSession, some client => client.connected

/-- What becomes of an exception under the decorators. -/
def onError {α : Type} : Exn → SessionOp α
  | .socketError errno =>
    -- An error that indicates that the connection has failed closes the session.
    if errno.isLost then do
      close
      throw .komSessionNotConnected
    else throw (.komSessionException errno)
  | e => throw e

/-- `check_connection` and `async_check_connection`. -/
def checkConnection {α : Type} (f : SessionOp α) : SessionOp α := do
  if !cls.isConnected (← get) then throw .komSessionNotConnected
  else tryCatch f onError

theorem onError_of_lost {α : Type} {errno : Errno} (hlost : errno.isLost = true) :
    (onError (.socketError errno) : SessionOp α) =
      close >>= fun _ => throw .komSessionNotConnected := by
  simp only [onError, if_pos hlost]

theorem onError_of_kept {α : Type} {errno : Errno} (hkept : errno.isLost = false) :
    (onError (.socketError errno) : SessionOp α) = throw (.komSessionException errno) := by
  simp only [onError, hkept, Bool.false_eq_true, if_false]

theorem checkConnection_of_connected {cls : SessionClass} {α : Type} {f : SessionOp α}
    {s : SessionState} (hconnected : cls.isConnected s = true) :
    cls.checkConnection f s = (f s).handle onError := by
  unfold checkConnection
  change (if !cls.isConnected s then throw .komSessionNotConnected else _ : SessionOp α) s = _
  rw [hconnected]
  rfl

theorem checkConnection_of_unconnected {cls : SessionClass} {α : Type} {f : SessionOp α}
    {s : SessionState} (hunconnected : cls.isConnected s = false) :
    cls.checkConnection f s = .done (.error .komSessionNotConnected) s := by
  unfold checkConnection
  change (if !cls.isConnected s then throw .komSessionNotConnected else _ : SessionOp α) s = _
  rw [hunconnected]
  rfl

/-! ## Names -/

/-- `_get_person` of `KomSession`, `_get_person_name` of `AioKomSession`. Neither raises if
the person does not exist, nor if the number is 0. -/
def getPersonName (persNo : ℕ) : SessionOp KomPersonName :=
  match cls with
  | komSession => person true (PersonSession.getPerson persNo)
  | aioKomSession => person false (AioPersonSession.getPersonName persNo)

/-- `_get_person` of `AioKomSession`. -/
def aioGetPerson (persNo : ℕ) : PersonM KomPersonName := do
  let uconf ← CachingPersonClient.uconference persNo
  return ⟨persNo, latin1Decode uconf.name⟩

/-- `_get_person` -/
def getPersonUnchecked (persNo : ℕ) : SessionOp KomPersonName :=
  match cls with
  | komSession => person true (PersonSession.getPerson persNo)
  | aioKomSession => person false (aioGetPerson persNo)

/-- `_get_uconference` -/
def getUconference (confNo : ℕ) : SessionOp KomUConference :=
  person false (Pylyskom.getUconference confNo)

/-- The name of a conference in `AioKomSession`; there is one for an undefined conference. -/
def aioConfName (confNo : ℕ) : PersonM KomConferenceName := do
  let name ← tryCatch
    (do
      let uconf ← CachingPersonClient.uconference confNo
      return latin1Decode uconf.name)
    fun e =>
      match e with
      | .serverError error =>
        if error.cls = .undefinedConference then
          return "Conference ".toList ++ Nat.toDigits 10 confNo ++ " (does not exist).".toList
        else throw e
      | e => throw e
  return ⟨confNo, name⟩

/-- `get_conf_name`; that of `KomSession` returns just the name. -/
def getConfName (confNo : ℕ) : SessionOp KomConferenceName :=
  cls.checkConnection <|
    match cls with
    | komSession => do
      let name ← person true (PersonSession.confName confNo)
      return ⟨confNo, name⟩
    | aioKomSession => person false (aioConfName confNo)

/-- `_get_komauxitem` -/
def getKomAuxItem (auxItem : AuxItem) : SessionOp KomAuxItem := do
  let creator ← cls.getPersonName auxItem.creator
  return ⟨auxItem, creator⟩

/-! ## The session and its person -/

def disconnect (sessionNo : ℕ) : SessionOp Unit :=
  cls.checkConnection do
    request (.disconnect sessionNo)
    -- Check if we disconnected our own session or not.
    if sessionNo = 0 ∨ some sessionNo = (← get).sessionNo then close

def lookupName (name : BytesOrStr) (wantPers wantConfs : Bool) : SessionOp (List (ℕ × Str)) :=
  cls.checkConnection do
    let name ← ofExcept (KomSession.decodeUtf8 name)
    client (ClientState.lookupName name wantPers wantConfs)

def reLookupName (regexp : Str) (wantPers wantConfs : Bool) : SessionOp (List (ℕ × Str)) :=
  cls.checkConnection (client (ClientState.regexpLookup regexp wantPers wantConfs))

def exactLookupMatch (lookup : Str) (found : List (ℕ × Str)) : Except Exn ℕ :=
  match found with
  | [] => .error (.komSessionError (.nameNotFound lookup))
  | [(no, _)] => .ok no
  | _ => .error (.komSessionError (.ambiguousName lookup))

def lookupNameExact (name : Str) (wantPers wantConfs : Bool) : SessionOp ℕ := do
  let found ← cls.lookupName (.str name) wantPers wantConfs
  ofExcept (exactLookupMatch name found)

def reLookupNameExact (regexp : Str) (wantPers wantConfs : Bool) : SessionOp ℕ := do
  let found ← cls.reLookupName regexp wantPers wantConfs
  ofExcept (exactLookupMatch regexp found)

/-- `AioKomSession` can log in a person by name as well. -/
def personToLogin : ℕ ⊕ Str → SessionOp ℕ
  | .inl persNo => pure persNo
  | .inr persName => cls.lookupNameExact persName true false

def login (who : ℕ ⊕ Str) (password : BytesOrStr) : SessionOp KomPersonName :=
  cls.checkConnection do
    let persNo ← cls.personToLogin who
    let password ← ofExcept (KomSession.decodeUtf8 password)
    let password ← ofExcept (ClientState.string password)
    person false (CachingPersonClient.login persNo password)
    cls.getPersonUnchecked persNo

def logout : SessionOp Unit :=
  cls.checkConnection (person false CachingPersonClient.logout)

/-- `get_current_person_no` of `AioKomSession`, and `is_logged_in` with it. -/
def getCurrentPersonNo : SessionOp ℕ :=
  cls.checkConnection <| client do
    return (← get).person.persNo

def isLoggedIn : SessionOp Bool :=
  cls.checkConnection <| client do
    return (← get).person.persNo ≠ 0

def whoAmI : SessionOp ℕ := cls.checkConnection (request .whoAmI)

def userIsActive : SessionOp Unit := cls.checkConnection (request .userIsActive)

def rawRequest (requestBytes : Bytes) : SessionOp Bytes :=
  cls.checkConnection (request (.raw requestBytes))

def changeConference (confNo : ℕ) : SessionOp Unit :=
  cls.checkConnection (person false (CachingPersonClient.changeConference confNo))

def createPerson (name passwd : BytesOrStr) : SessionOp KomPersonName :=
  cls.checkConnection do
    let name ← ofExcept (KomSession.decodeUtf8 name)
    let passwd ← ofExcept (KomSession.decodeUtf8 passwd)
    let name ← ofExcept (ClientState.string name)
    let passwd ← ofExcept (ClientState.string passwd)
    let persNo ← request (.createPerson name passwd)
    cls.getPersonUnchecked persNo

/-- `get_person_name` of `AioKomSession`. -/
def getPersonNameChecked (persNo : ℕ) : SessionOp KomPersonName :=
  cls.checkConnection (cls.getPersonName persNo)

def getPerson (persNo : ℕ) : SessionOp KomPersonName :=
  cls.checkConnection (cls.getPersonUnchecked persNo)

def setPasswd (persNo : ℕ) (oldPwd newPwd : Str) : SessionOp Unit :=
  cls.checkConnection do
    let oldPwd ← ofExcept (ClientState.string oldPwd)
    let newPwd ← ofExcept (ClientState.string newPwd)
    request (.setPasswd persNo oldPwd newPwd)

/-! ## Conferences -/

def createConference (name : BytesOrStr) (auxItems : List AuxItemInput) : SessionOp ℕ :=
  cls.checkConnection do
    let name ← ofExcept (KomSession.decodeUtf8 name)
    match latin1Encode name with
    | some name => request (.createConf name auxItems)
    | none => throw (.builtinError .unicodeEncodeError)

def deleteConference (confNo : ℕ) : SessionOp Unit :=
  cls.checkConnection (request (.deleteConf confNo))

/-- A conference that is only read if its number is not 0. -/
def optional {α : Type} (read : ℕ → SessionOp α) (confNo : ℕ) : SessionOp (Option α) :=
  if confNo ≠ 0 then some <$> read confNo else pure none

/-- The super conference or the supervisor of a conference. -/
def getNamedConference (confNo : ℕ) : SessionOp NamedConference :=
  match cls with
  | komSession => .uconference <$> getUconference confNo
  | aioKomSession => .name <$> cls.getConfName confNo

def getSupervisor (confNo : ℕ) : SessionOp (Option NamedConference) :=
  match cls with
  | komSession => some <$> cls.getNamedConference confNo
  | aioKomSession => optional cls.getNamedConference confNo

/-- `_get_conference` -/
def getConferenceFull (confNo : ℕ) : SessionOp KomConference := do
  let conf ← client (ClientState.conference confNo)
  let auxItems ← conf.auxItems.mapM cls.getKomAuxItem
  -- super_conf can be 0, but invalid to get conf-stat for it.
  let superConf ← optional cls.getNamedConference conf.superConf
  -- if permitted_submitters is 0, anyone can submit articles
  let permittedSubmitters ← optional getUconference conf.permittedSubmitters
  let creator ← cls.getPersonName conf.creator
  let supervisor ← cls.getSupervisor conf.supervisor
  return .ofConf confNo conf creator supervisor permittedSubmitters superConf auxItems

/-- `get_conference`, which returns a `KomUConference` if `micro` is set. -/
def getConference (confNo : ℕ) (micro : Bool) : SessionOp (KomUConference ⊕ KomConference) :=
  cls.checkConnection do
    if micro then return .inl (← getUconference confNo)
    else return .inr (← cls.getConferenceFull confNo)

def setPresentation (confNo textNo : ℕ) : SessionOp Unit :=
  cls.checkConnection (request (.setPresentation confNo textNo))

def deletePresentation (confNo : ℕ) : SessionOp Unit :=
  cls.checkConnection (request (.setPresentation confNo 0))

def getServerInfo : SessionOp KomServerInfo :=
  cls.checkConnection do
    let info ← request .getInfo
    let confPresConf ← optional cls.getConfName info.confPresConf
    let persPresConf ← optional cls.getConfName info.persPresConf
    let motdConf ← optional cls.getConfName info.motdConf
    let komNewsConf ← optional cls.getConfName info.komNewsConf
    return { version := info.version, confPresConf, persPresConf, motdConf, komNewsConf
             motdOfLyskom := info.motdOfLyskom }

/-! ## Memberships -/

def addMembership (persNo confNo priority wherePos : ℕ) : SessionOp Unit :=
  cls.checkConnection (request (.addMember confNo persNo priority wherePos))

def deleteMembership (persNo confNo : ℕ) : SessionOp Unit :=
  cls.checkConnection (request (.subMember confNo persNo))

/-- The person that added a membership; `KomSession` takes the person with the number 0 as
well. -/
def getAddedBy (addedBy : ℕ) : SessionOp (Option KomPersonName) :=
  match cls with
  | komSession => some <$> cls.getPersonName addedBy
  | aioKomSession =>
    -- If the membership was created before protocol 10, added_by is 0.
    optional cls.getPersonName addedBy

/-- `_create_kom_membership` of `AioKomSession`, and what `KomSession` does in two places. -/
def createKomMembership (persNo confNo : ℕ) (membership : Membership) :
    SessionOp KomMembership := do
  let addedBy ← cls.getAddedBy membership.addedBy
  let conference ← getUconference confNo
  return .ofMembership persNo membership addedBy conference

def getMembership (persNo confNo : ℕ) : SessionOp KomMembership :=
  cls.checkConnection do
    let membership ← person false (CachingPersonClient.getMembership persNo confNo false)
    let confNo :=
      match cls with
      | komSession => confNo
      | aioKomSession => membership.conference
    cls.createKomMembership persNo confNo membership

def getMembershipUnread (fuel persNo confNo : ℕ) : SessionOp KomMembershipUnread :=
  cls.checkConnection do
    let membership ← person false (CachingPersonClient.getMembership persNo confNo true)
    let unreadTexts ← client (ClientState.getUnreadTextsFromMembership fuel membership)
    return ⟨persNo, confNo, unreadTexts.length, unreadTexts⟩

def getMemberships (persNo first noOfConfs : ℕ) (unread passive : Bool) :
    SessionOp (List KomMembership × Bool) :=
  cls.checkConnection do
    if unread then
      -- The request never returns passive memberships, so that combination is not valid.
      if passive then throw (.builtinError .assertionError)
      let confNos ← request (.person (.getUnreadConfs persNo))
      let memberships ← confNos.mapM fun confNo => cls.getMembership persNo confNo
      return (memberships, false)
    else
      let msList ← person false
        (CachingPersonClient.getMemberships persNo first noOfConfs false)
      let hasMore := !decide (msList.length < noOfConfs)
      let shown := msList.filter fun membership =>
        passive || !MembershipType.passive membership.type
      let memberships ← shown.mapM fun membership =>
        cls.createKomMembership persNo membership.conference membership
      return (memberships, hasMore)

def getMembershipUnreads (fuel persNo : ℕ) : SessionOp (List KomMembershipUnread) :=
  cls.checkConnection do
    let confNos ← request (.person (.getUnreadConfs persNo))
    let memberships ← confNos.mapM fun confNo => cls.getMembershipUnread fuel persNo confNo
    return memberships.filter fun m => m.noOfUnread > 0

/-! ## Texts -/

/-- `_get_komtextstat` -/
def getKomTextStat (textNo : ℕ) (textStat : TextStat) : SessionOp KomTextStat := do
  let author ← cls.getPersonName textStat.author
  let auxItems ← textStat.auxItems.mapM cls.getKomAuxItem
  return .ofTextStat textNo textStat auxItems author

/-- `_get_komtext` -/
def getKomText (textNo : ℕ) (text : Option Bytes) (textStat : TextStat) : SessionOp KomText := do
  let ks ← cls.getKomTextStat textNo textStat
  ofExcept (KomText.ofTextStat lib.codecs textNo text textStat ks.auxItems ks.author)

def getTextStat (textNo : ℕ) : SessionOp KomTextStat :=
  cls.checkConnection do
    let textStat ← client (ClientState.textstat textNo)
    cls.getKomTextStat textNo textStat

def getText (textNo : ℕ) : SessionOp KomText :=
  cls.checkConnection do
    let textStat ← client (ClientState.textstat textNo)
    let text ← request (.getText textNo)
    cls.getKomText lib textNo (some text) textStat

def getLastTexts (confNo noOfTexts : ℕ) : SessionOp (List KomText) :=
  cls.checkConnection do
    let textMapping ← request (.localToGlobalReverse confNo 0 noOfTexts)
    let texts ← textMapping.texts.mapM fun textNo => do
      let textStat ← client (ClientState.textstat textNo)
      cls.getKomText lib textNo none textStat
    return texts.reverse

/-- `"%s"` of an attribute that may be `None`. -/
def format (s : Option Str) : Str := s.getD "None".toList

def createText (subject : Option BytesOrStr) (body contentType : BytesOrStr)
    (contentEncoding : Option Str) (recipientList commentToList : List (Str × ℕ)) :
    SessionOp ℕ :=
  cls.checkConnection do
    let subject ← ofExcept (subject.mapM KomSession.decodeUtf8)
    let body ← ofExcept (KomSession.decodeUtf8 body)
    let contentType ← ofExcept (KomSession.decodeUtf8 contentType)
    let body ← ofExcept <|
      match contentEncoding with
      | none => .ok (.str body)
      | some encoding =>
        if encoding = "base64".toList then
          match b64decode body with
          | some body => .ok (.bytes body)
          | none => .error (.builtinError .valueError)
        else .error (.builtinError .valueError)
    let self ← get
    let creatingSoftware := format self.clientName ++ [' '] ++ format self.clientVersion
    let komtext ← ofExcept <|
      KomText.createNewText subject body contentType (some creatingSoftware) recipientList
        commentToList
    let miscInfo : CookedMiscInfo :=
      { recipientList := komtext.recipientList, commentToList := komtext.commentToList }
    request (.createText komtext.text miscInfo komtext.auxItems)

def markAsRead (textNo : ℕ) : SessionOp Unit :=
  cls.checkConnection do
    let textStat ← client (ClientState.textstat textNo)
    textStat.miscInfo.recipientList.forM fun mi =>
      client (ClientState.markAsReadLocal mi.recpt mi.locNo)

def markAsUnread (textNo : ℕ) : SessionOp Unit :=
  cls.checkConnection do
    let textStat ← client (ClientState.textstat textNo)
    textStat.miscInfo.recipientList.forM fun mi =>
      client (ClientState.markAsUnreadLocal mi.recpt mi.locNo)

def setUnread (confNo noOfUnread : ℕ) : SessionOp Unit :=
  cls.checkConnection (request (.setUnread confNo noOfUnread))

def getMarks : SessionOp (List Mark) := cls.checkConnection (request .getMarks)

def markText (textNo markType : ℕ) : SessionOp Unit :=
  cls.checkConnection (client (ClientState.markText textNo markType))

def unmarkText (textNo : ℕ) : SessionOp Unit :=
  cls.checkConnection (client (ClientState.unmarkText textNo))

/-! ## User areas -/

/-- The blocks of a user area. -/
def userAreaBlocks (fuel userArea : ℕ) : SessionOp (Dict Bytes (Option Bytes)) := do
  let text ← cls.getText lib userArea
  if text.contentType ≠ "x-kom/user-area".toList then
    throw (.komSessionError (.unknownContentType text.contentType))
  else do
    let body ← ofExcept (KomText.encodeLatin1 text.body)
    client (ClientState.ofLoops (decodeUserArea fuel body))

/-- The block is decoded if `json_decode` is set. -/
def getUserAreaBlock (fuel persNo : ℕ) (blockName : Bytes) (jsonDecode : Bool) :
    SessionOp (Option (Bytes ⊕ lib.Json)) :=
  cls.checkConnection do
    let personStat ← request (.getPersonStat persNo)
    if personStat.userArea = 0 then
      -- No user area
      return none
    else do
      let blocks ← cls.userAreaBlocks lib fuel personStat.userArea
      match (blocks.get? blockName).join with
      | none => return none
      | some block =>
        if jsonDecode then do
          let value ← ofExcept ((lib.loads (latin1Decode block)).mapError Exn.builtinError)
          return some (.inr value)
        else return some (.inl block)

/-- The block is either given as bytes, or as a value that is encoded. -/
def blockBytes : Bytes ⊕ lib.Json → Except Exn Bytes
  | .inl block => .ok block
  | .inr value => (lib.dumps value).mapError Exn.builtinError

/-- The blocks that are to be changed. -/
def blocksOfPerson (fuel : ℕ) (personStat : Person) : SessionOp (Dict Bytes (Option Bytes)) :=
  -- No existing user area, initiate a new dictionary of blocks.
  if personStat.userArea = 0 then pure ∅ else cls.userAreaBlocks lib fuel personStat.userArea

def setUserAreaBlock (fuel persNo : ℕ) (blockName : Bytes) (block : Bytes ⊕ lib.Json) :
    SessionOp Unit :=
  cls.checkConnection do
    let personStat ← request (.getPersonStat persNo)
    let blocks ← cls.blocksOfPerson lib fuel personStat
    let block ← ofExcept (blockBytes lib block)
    let body ← ofExcept (encodeUserArea (blocks.set blockName (some block)))
    let newUserAreaTextNo ← cls.createText none (.bytes body)
      (.str "x-kom/user-area".toList) none [] []
    request (.setUserArea persNo newUserAreaTextNo)

end SessionClass
end Pylyskom
