import Pylyskom.Client.Methods
import Pylyskom.Session.Uncached

/-!
# The requests of a session on the wire

Each request of a session is made by the constructor of its class, and its reply comes as the
response type of its call. The messages that the blocking client handles in between take
entries out of the caches.
-/

namespace Pylyskom

/-! ## Requests -/

/-- A bit string with no bit set. -/
def noBits : ArgValue CookedMiscInfo := .bitstring (List.replicate 8 false)

def ofBool (b : Bool) : ArgValue CookedMiscInfo := .int b.toNat

theorem reqCreateText_mem : ReqCreateText ∈ requestClasses := by simp [requestClasses]

/-- The class that a request is made of, and the arguments that its constructor is called
with. A request in bytes is no object of a class, and neither is what opens a connection. The
numbers of the arguments are those that a server can read, which are not negative. -/
def ClientRequest.construction :
    ClientRequest → Option ({cls // cls ∈ requestClasses} × List (ArgValue CookedMiscInfo))
  | acceptAsync msgNos => some (⟨ReqAcceptAsync, by simp [requestClasses]⟩, [.arrayInt msgNos])
  | setClientVersion clientName clientVersion =>
    some (⟨ReqSetClientVersion, by simp [requestClasses]⟩,
      [.string clientName, .string clientVersion])
  | setConnectionTimeFormat useUtc =>
    some (⟨ReqSetConnectionTimeFormat, by simp [requestClasses]⟩, [.int useUtc])
  | person (.login persNo password invisible) =>
    some (⟨ReqLogin, by simp [requestClasses]⟩, [.int persNo, .string password, .int invisible])
  | person .logout => some (⟨ReqLogout, by simp [requestClasses]⟩, [])
  | person (.changeConference confNo) =>
    some (⟨ReqChangeConference, by simp [requestClasses]⟩, [.int confNo])
  | person (.getMembership11 persNo first noOfConfs wantReadRanges maxRanges) =>
    some (⟨ReqGetMembership11, by simp [requestClasses]⟩,
      [.int persNo, .int first, .int noOfConfs, .int wantReadRanges, .int maxRanges])
  | person (.queryReadTexts11 persNo conference wantReadRanges maxRanges) =>
    some (⟨ReqQueryReadTexts11, by simp [requestClasses]⟩,
      [.int persNo, .int conference, .int wantReadRanges, .int maxRanges])
  | person (.getUconfStat confNo) =>
    some (⟨ReqGetUconfStat, by simp [requestClasses]⟩, [.int confNo])
  | person (.getUnreadConfs persNo) =>
    some (⟨ReqGetUnreadConfs, by simp [requestClasses]⟩, [.int persNo])
  | disconnect sessionNo => some (⟨ReqDisconnect, by simp [requestClasses]⟩, [.int sessionNo])
  | whoAmI => some (⟨ReqWhoAmI, by simp [requestClasses]⟩, [])
  | userIsActive => some (⟨ReqUserActive, by simp [requestClasses]⟩, [])
  | createPerson name passwd =>
    some (⟨ReqCreatePerson, by simp [requestClasses]⟩,
      [.string name, .string passwd, noBits, .arrayAuxItemInput []])
  | createConf name auxItems =>
    some (⟨ReqCreateConf, by simp [requestClasses]⟩,
      [.string name, noBits, .arrayAuxItemInput auxItems])
  | deleteConf confNo => some (⟨ReqDeleteConf, by simp [requestClasses]⟩, [.int confNo])
  | lookupZName name wantPers wantConfs =>
    some (⟨ReqLookupZName, by simp [requestClasses]⟩,
      [.string name, ofBool wantPers, ofBool wantConfs])
  | reZLookup regexp wantPersons wantConfs =>
    some (⟨ReqReZLookup, by simp [requestClasses]⟩,
      [.string regexp, ofBool wantPersons, ofBool wantConfs])
  | getConfStat confNo => some (⟨ReqGetConfStat, by simp [requestClasses]⟩, [.int confNo])
  | getPersonStat persNo => some (⟨ReqGetPersonStat, by simp [requestClasses]⟩, [.int persNo])
  | getTextStat textNo => some (⟨ReqGetTextStat, by simp [requestClasses]⟩, [.int textNo])
  | getText textNo => some (⟨ReqGetText, by simp [requestClasses]⟩, [.int textNo])
  | localToGlobal confNo firstLocalNo n =>
    some (⟨ReqLocalToGlobal, by simp [requestClasses]⟩, [.int confNo, .int firstLocalNo, .int n])
  | localToGlobalReverse confNo localNoCeiling n =>
    some (⟨ReqLocalToGlobalReverse, by simp [requestClasses]⟩,
      [.int confNo, .int localNoCeiling, .int n])
  | addMember confNo persNo priority wherePos =>
    some (⟨ReqAddMember, by simp [requestClasses]⟩,
      [.int confNo, .int persNo, .int priority, .int wherePos, noBits])
  | subMember confNo persNo =>
    some (⟨ReqSubMember, by simp [requestClasses]⟩, [.int confNo, .int persNo])
  | createText text miscInfo auxItems =>
    some (⟨ReqCreateText, reqCreateText_mem⟩,
      [.string text, .miscInfo miscInfo, .arrayAuxItemInput auxItems])
  | markAsRead confNo texts => (texts.mapM id).map fun texts =>
    (⟨ReqMarkAsRead, by simp [requestClasses]⟩, [.int confNo, .arrayInt texts])
  | markAsUnread confNo textNo => textNo.map fun textNo =>
    (⟨ReqMarkAsUnread, by simp [requestClasses]⟩, [.int confNo, .int textNo])
  | setUnread confNo noOfUnread =>
    some (⟨ReqSetUnread, by simp [requestClasses]⟩, [.int confNo, .int noOfUnread])
  | getMarks => some (⟨ReqGetMarks, by simp [requestClasses]⟩, [])
  | markText textNo markType =>
    some (⟨ReqMarkText, by simp [requestClasses]⟩, [.int textNo, .int markType])
  | unmarkText textNo => some (⟨ReqUnmarkText, by simp [requestClasses]⟩, [.int textNo])
  | setUserArea persNo userArea =>
    some (⟨ReqSetUserArea, by simp [requestClasses]⟩, [.int persNo, .int userArea])
  | getInfo => some (⟨ReqGetInfo, by simp [requestClasses]⟩, [])
  | setPresentation confNo textNo =>
    some (⟨ReqSetPresentation, by simp [requestClasses]⟩, [.int confNo, .int textNo])
  | setPasswd persNo oldPwd newPwd =>
    some (⟨ReqSetPasswd, by simp [requestClasses]⟩, [.int persNo, .string oldPwd, .string newPwd])
  | person (.getNegativeUconfStat _) => none
  | openConnection | sendInitialString _ | receiveInitialReply | raw _ | loop => none

/-- The request that is sent, if its constructor does not raise. -/
def ClientRequest.typed (req : ClientRequest) : Option TypedRequest := do
  let (cls, args) ← req.construction
  (TypedRequest.init cls.1 cls.2 args ∅).toOption

/-- What the response type parses for a reply. -/
def ClientRequest.okReply : (req : ClientRequest) → req.Reply → OkReply
  | person (.getMembership11 ..), memberships => .arrayMembership11 memberships
  | person (.queryReadTexts11 ..), membership => .membership11 membership
  | person (.getUconfStat _), uconf => .uConference uconf
  | person (.getUnreadConfs _), confNos => .arrayConfNo confNos
  | whoAmI, sessionNo => .sessionNo sessionNo
  | createPerson .., persNo => .persNo persNo
  | createConf .., confNo => .confNo confNo
  | lookupZName .., found => .arrayConfZInfo found
  | reZLookup .., found => .arrayConfZInfo found
  | getConfStat _, conf => .conference conf
  | getPersonStat _, stat => .person stat
  | getTextStat _, textStat => .textStat textStat
  | getText _, text => .string text
  | localToGlobal .., mapping => .textMapping mapping
  | localToGlobalReverse .., mapping => .textMapping mapping
  | createText .., textNo => .textNo textNo
  | getMarks, marks => .arrayMark marks
  | getInfo, info => .info info
  | _, _ => .emptyResponse

theorem TypedRequest.cls_of_init {cls : RequestClass} {isClass : cls ∈ requestClasses}
    {args : List (ArgValue CookedMiscInfo)} {kwargs : Dict String (ArgValue CookedMiscInfo)}
    {req : TypedRequest} (h : TypedRequest.init cls isClass args kwargs = .ok req) :
    req.cls = cls := by
  unfold TypedRequest.init at h
  split_ifs at h
  obtain ⟨typed, -, htyped⟩ := bind_eq_ok_iff.mp h
  cases htyped
  rfl

/-- A request is of the class that it is made of. -/
theorem ClientRequest.cls_typed {req : ClientRequest} {typedReq : TypedRequest}
    (h : req.typed = some typedReq) :
    ∃ construction, req.construction = some construction ∧ typedReq.cls = construction.1.1 := by
  obtain ⟨construction, hconstruction, hinit⟩ := Option.bind_eq_some_iff.mp h
  refine ⟨construction, hconstruction, ?_⟩
  cases hmade : TypedRequest.init construction.1.1 construction.1.2 construction.2 ∅ with
  | error e =>
    simp only [hmade] at hinit
    cases hinit
  | ok made =>
    simp only [hmade] at hinit
    obtain rfl := Option.some.inj hinit
    exact TypedRequest.cls_of_init hmade

/-- The response type of the call of a request. -/
def ClientRequest.responseType : ClientRequest → ResponseType
  | person (.getMembership11 ..) => .arrayMembership11
  | person (.queryReadTexts11 ..) => .membership11
  | person (.getUconfStat _) => .uConference
  | person (.getUnreadConfs _) => .arrayConfNo
  | whoAmI => .sessionNo
  | createPerson .. => .persNo
  | createConf .. => .confNo
  | lookupZName .. | reZLookup .. => .arrayConfZInfo
  | getConfStat _ => .conference
  | getPersonStat _ => .person
  | getTextStat _ => .textStat
  | getText _ => .string
  | localToGlobal .. | localToGlobalReverse .. => .textMapping
  | createText .. => .textNo
  | getMarks => .arrayMark
  | getInfo => .info
  | _ => .emptyResponse

theorem ClientRequest.lookup_responseDict {req : ClientRequest}
    {construction : {cls // cls ∈ requestClasses} × List (ArgValue CookedMiscInfo)}
    (h : req.construction = some construction) :
    responseDict.lookup construction.1.1.callNo = some req.responseType := by
  cases req with
  | person req =>
    cases req with
    | getNegativeUconfStat n => cases h
    | _ => cases h; rfl
  | markAsRead confNo texts =>
    obtain ⟨texts, -, rfl⟩ := Option.map_eq_some_iff.mp h
    rfl
  | markAsUnread confNo textNo =>
    obtain ⟨textNo, -, rfl⟩ := Option.map_eq_some_iff.mp h
    rfl
  | _ => cases h <;> rfl

/-- A reply of the response type has a value of the type of the replies. -/
theorem ClientRequest.exists_value {req : ClientRequest} {reply : OkReply}
    (sent : req.construction ≠ none) (htype : reply.type = req.responseType) :
    ∃ value, reply = req.okReply value := by
  cases req with
  | person req =>
    cases req with
    | getNegativeUconfStat n => exact absurd rfl sent
    | _ =>
      cases reply <;> first
        | (cases htype; done)
        | exact ⟨(), rfl⟩
        | exact ⟨_, rfl⟩
  | loop => exact absurd rfl sent
  | raw => exact absurd rfl sent
  | receiveInitialReply => exact absurd rfl sent
  | _ =>
    cases reply <;> first
      | (cases htype; done)
      | exact ⟨(), rfl⟩
      | exact ⟨_, rfl⟩

theorem ClientRequest.type_okReply (req : ClientRequest) (value : req.Reply) :
    (req.okReply value).type = req.responseType := by
  cases req with
  | person req => cases req <;> rfl
  | _ => rfl

theorem ClientRequest.okReply_injective {req : ClientRequest} (sent : req.construction ≠ none) :
    Function.Injective req.okReply := by
  intro a b h
  cases req with
  | person req =>
    cases req with
    | getNegativeUconfStat n => exact nomatch a
    | _ => first
      | rfl
      | (cases h; rfl)
  | receiveInitialReply => exact absurd rfl sent
  | raw => exact absurd rfl sent
  | loop => exact absurd rfl sent
  | _ => first
      | rfl
      | (cases h; rfl)

/-- The calls of a session, as requests to the server. -/
def sessionCoding : Coding ClientCall ClientCall.Reply where
  typed call := call.req.typed
  reply call := call.req.okReply
  exists_value := by
    intro call typedReq reply htyped htype
    obtain ⟨construction, hconstruction, hcls⟩ := ClientRequest.cls_typed htyped
    rw [hcls, ClientRequest.lookup_responseDict hconstruction] at htype
    have hsent : call.req.construction ≠ none := by simp [hconstruction]
    exact ClientRequest.exists_value hsent (Option.some.inj htype).symm

/-! ## Messages -/

/-- Some entries are taken out of a cache. -/
def Cache.invalidateEach {ν : Type} (self : Cache ν) (nos : List ℕ) : Cache ν :=
  nos.foldl Cache.invalidate self

theorem Cache.get?_of_invalidateEach {ν : Type} {self : Cache ν} {nos : List ℕ} {no : ℕ} {value : ν}
    (h : (self.invalidateEach nos).dict.get? no = some value) :
    self.dict.get? no = some value := by
  induction nos generalizing self with
  | nil => exact h
  | cons first nos ih =>
    have hfirst := ih h
    rw [Cache.get?_invalidate] at hfirst
    split_ifs at hfirst
    exact hfirst

def TextStat.recipients (self : TextStat) : List ℕ := self.miscInfo.recipientList.map (·.recpt)

/-- The conferences whose cached statuses a message makes invalid. -/
def AsyncMessage.conferences : AsyncMessage → List ℕ
  | newName confNo _ _ | leaveConf confNo | newRecipient _ confNo _ | subRecipient _ confNo _
  | newMembership _ confNo => [confNo]
  | deletedText _ textStat | newText _ textStat => textStat.recipients
  | _ => []

/-- The texts whose cached text-stats a message makes invalid. -/
def AsyncMessage.texts : AsyncMessage → List ℕ
  | newText _ textStat => textStat.miscInfo.commentToList.map (·.textNo)
  | newRecipient textNo _ _ | subRecipient textNo _ _ => [textNo]
  | _ => []

/-- `_handle_async_message` of the blocking client, with the handlers that `__init__` adds. -/
def ClientState.handleAsyncMessage (self : ClientState) (msg : AsyncMessage) : ClientState :=
  { self with
    person := self.person.handleAsyncMessage msg
    conferences := self.conferences.invalidateEach msg.conferences
    textstats := self.textstats.invalidateEach msg.texts }

def SessionState.handleAsyncMessage (self : SessionState) (msg : AsyncMessage) : SessionState :=
  { self with client := self.client.map fun client => client.handleAsyncMessage msg }

theorem CachingPersonClient.get?_of_handleAsyncMessage {self : CachingPersonClient}
    {msg : AsyncMessage} {no : ℕ} {uconf : UConference}
    (h : (self.handleAsyncMessage msg).uconferences.dict.get? no = some uconf) :
    self.uconferences.dict.get? no = some uconf := by
  cases msg with
  | newName confNo oldName newName =>
    have hone : (self.uconferences.invalidateEach [confNo]).dict.get? no = some uconf := h
    exact Cache.get?_of_invalidateEach hone
  | newRecipient textNo confNo type =>
    have hone : (self.uconferences.invalidateEach [confNo]).dict.get? no = some uconf := h
    exact Cache.get?_of_invalidateEach hone
  | newText textNo textStat =>
    have heach : (self.uconferences.invalidateEach textStat.recipients).dict.get? no =
        some uconf := by
      rwa [Cache.invalidateEach, TextStat.recipients, List.foldl_map]
    exact Cache.get?_of_invalidateEach heach
  | _ => exact h

theorem ClientState.forgets_handleAsyncMessage (self : ClientState) (msg : AsyncMessage) :
    self.Forgets (self.handleAsyncMessage msg) where
  connected := rfl
  uconferences := CachingPersonClient.get?_of_handleAsyncMessage
  conferences := Cache.get?_of_invalidateEach
  textstats := Cache.get?_of_invalidateEach

theorem ClientState.Forgets.trans {client left last : ClientState} (h : client.Forgets left)
    (h' : left.Forgets last) : client.Forgets last where
  connected := h'.connected.trans h.connected
  uconferences hget := h.uconferences (h'.uconferences hget)
  conferences hget := h.conferences (h'.conferences hget)
  textstats hget := h.textstats (h'.textstats hget)

/-- Whatever messages are handled, a session only forgets. -/
theorem SessionState.forgets_foldl (s : SessionState) (msgs : List AsyncMessage) :
    s.Forgets (msgs.foldl SessionState.handleAsyncMessage s) := by
  induction msgs generalizing s with
  | nil => exact .refl s
  | cons msg msgs ih =>
    intro client hclient
    have hfirst : (s.handleAsyncMessage msg).client = some (client.handleAsyncMessage msg) := by
      rw [SessionState.handleAsyncMessage, hclient]
      rfl
    obtain ⟨left, hleft, hforgets⟩ := ih (s.handleAsyncMessage msg) _ hfirst
    exact ⟨left, hleft, (client.forgets_handleAsyncMessage msg).trans hforgets⟩

end Pylyskom
