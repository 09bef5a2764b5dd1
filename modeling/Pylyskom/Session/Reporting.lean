import Pylyskom.Session.Relaying

/-!
# How an operation reports a lost connection

With its decorator, each operation of a session closes the session and raises
`KomSessionNotConnected` when it learns at one of its requests that the connection is lost.
-/

namespace Pylyskom

variable {cls : SessionClass}

/-! ## The decorators -/

def sessionAlarm (cls : SessionClass) : Alarm SessionState ClientCall Exn where
  keeps s := cls.isConnected s = true
  raised call e := call.inTry = false ∧ e.isLost = true
  other call e := e ≠ .komSessionNotConnected ∧ (e.isLost = true → call.inTry = true)

/-- What becomes of a lost connection outside the decorators. -/
def Reported (cls : SessionClass) (e : Exn) (s : SessionState) : Prop :=
  e = .komSessionNotConnected ∧ cls.isConnected s = false

/-- What a part of an operation does, which may have its own decorator. -/
abbrev OpRelays (cls : SessionClass) {α : Type} (op : SessionOp α) : Prop :=
  Relays (sessionAlarm cls) (fun e s => e.isLost = true ∨ Reported cls e s) Exn.Quiet op

/-- What a decorated operation does. -/
abbrev OpReports (cls : SessionClass) {α : Type} (op : SessionOp α) : Prop :=
  Relays (sessionAlarm cls) (Reported cls) Exn.Quiet op

theorem OpReports.relays {α : Type} {op : SessionOp α} (hop : OpReports cls op) :
    OpRelays cls op :=
  hop.imp (fun _ _ => Or.inr) fun _ => id

theorem isConnected_close : cls.isConnected .init = false := by
  cases cls <;> rfl

/-- The decorators, whatever they find of the session when an operation returns. -/
theorem Suspended.Relays.checkConnection {α : Type} {op : SessionOp α} {K : SessionState → Prop}
    {s : SessionState}
    (hop : (op s).Relays (sessionAlarm cls) (fun e s => e.isLost = true ∨ Reported cls e s)
      fun result t => K t ∧ ∀ e, result = .error e → e.Quiet)
    (hs : cls.isConnected s = true) :
    (cls.checkConnection op s).Relays (sessionAlarm cls) (Reported cls)
      fun result t => K t ∧ ∀ e, result = .error e → e.Quiet := by
  rw [SessionClass.checkConnection_of_connected hs]
  apply hop.handle
  · exact fun a t ht => ⟨ht.1, fun e he => nomatch he⟩
  · rintro e t ⟨ht, he⟩
    have hquiet := he e rfl
    cases e with
    | socketError errno =>
      rw [SessionClass.onError_of_kept hquiet.1]
      refine ⟨ht, fun e' he' => ?_⟩
      rw [← Except.error.inj he']
      exact ⟨rfl, fun h => nomatch h⟩
    | _ =>
      refine ⟨ht, fun e' he' => ?_⟩
      rw [← Except.error.inj he']
      exact hquiet
  · rintro e t (hlost | ⟨rfl, ht⟩)
    · cases e with
      | socketError errno =>
        rw [SessionClass.onError_of_lost hlost]
        exact ⟨.komSessionNotConnected, .init, rfl, rfl, isConnected_close⟩
      | _ => exact nomatch hlost
    · exact ⟨.komSessionNotConnected, t, rfl, rfl, ht⟩

theorem OpRelays.checkConnection {α : Type} {op : SessionOp α} (hop : OpRelays cls op) :
    OpReports cls (cls.checkConnection op) :=
  fun s hs => (hop s hs).checkConnection hs

namespace OpRelays

theorem client {α : Type} {m : ClientM α} (hm : ClientRelays cls m) :
    OpRelays cls (SessionOp.client m) := by
  intro s hs
  have hsome : ∀ s, cls.isConnected s = true → ∃ client, s.client = some client ∧
      (clientAlarm cls).keeps client := by
    intro s hs
    unfold SessionClass.isConnected at hs
    cases hclient : s.client with
    | none =>
      rw [hclient] at hs
      exact nomatch hs
    | some client =>
      rw [hclient] at hs
      refine ⟨client, rfl, ?_⟩
      rintro rfl
      exact hs
  obtain ⟨self, hself, hkeeps⟩ := hsome s hs
  have hget : ∀ t, cls.isConnected t = true → (clientAlarm cls).keeps (t.client.getD self) := by
    intro t ht
    obtain ⟨client, hclient, hclientKeeps⟩ := hsome t ht
    rw [hclient]
    exact hclientKeeps
  rw [SessionOp.client_of_some hself]
  refine (hm _ (hget s hs)).zoom hget ?_ ?_ ?_ ?_ hs
  · exact fun call e he => he
  · exact fun call e he => he
  · exact fun e client t _ he => Or.inl he
  · rintro result client t ht ⟨hclient, hquiet⟩
    refine ⟨?_, hquiet⟩
    obtain ⟨other, hother, -⟩ := hsome t ht
    change cls.isConnected { t with client := t.client.map fun _ => client } = true
    cases cls with
    | komSession => simp only [SessionClass.isConnected, hother, Option.map_some]
    | aioKomSession =>
      simp only [SessionClass.isConnected, hother, Option.map_some]
      exact hclient rfl

theorem request (req : ClientRequest) : OpRelays cls (SessionOp.request req) :=
  client (.request req)

theorem person {α : Type} {m : PersonM α} (hm : PersonRelays m) :
    OpRelays cls (SessionOp.person false m) := client (.ofRelays hm)

theorem personCatches {α : Type} {m : PersonM α} (hm : PersonCatches m) :
    OpRelays cls (SessionOp.person true m) := client (.ofCatches hm)

theorem ofExcept {α : Type} {x : Except Exn α} (hx : RaisesQuiet x) :
    OpRelays cls (ofExcept x : SessionOp α) := Relays.ofExcept hx

/-! ## Names and conferences -/

theorem getPersonName (persNo : ℕ) : OpRelays cls (cls.getPersonName persNo) := by
  cases cls with
  | komSession => exact personCatches (.getPerson persNo)
  | aioKomSession => exact person (.aioGetPersonName persNo)

theorem getPersonUnchecked (persNo : ℕ) : OpRelays cls (cls.getPersonUnchecked persNo) := by
  cases cls with
  | komSession => exact personCatches (.getPerson persNo)
  | aioKomSession => exact person (.aioGetPerson persNo)

theorem getUconference (confNo : ℕ) : OpRelays cls (SessionClass.getUconference confNo) :=
  person (.getUconference confNo)

end OpRelays

/-- The methods of the client that a session uses unchanged. -/
theorem OpReports.client {α : Type} {m : ClientM α} (hm : ClientRelays cls m) :
    OpReports cls (cls.checkConnection (SessionOp.client m)) :=
  (OpRelays.client hm).checkConnection

theorem OpReports.request (req : ClientRequest) :
    OpReports cls (cls.checkConnection (SessionOp.request req)) :=
  (OpRelays.request req).checkConnection

theorem OpReports.getConfName (confNo : ℕ) : OpReports cls (cls.getConfName confNo) := by
  apply OpRelays.checkConnection
  cases cls with
  | komSession => exact (OpRelays.personCatches (.confName confNo)).bind fun name => .pure
  | aioKomSession => exact OpRelays.person (.aioConfName confNo)

theorem OpRelays.getKomAuxItem (auxItem : AuxItem) : OpRelays cls (cls.getKomAuxItem auxItem) :=
  (getPersonName auxItem.creator).bind fun _ => .pure

/-! ## The session and its person -/

/-- That closes the session as well when it succeeds. -/
theorem OpReports.disconnect (sessionNo : ℕ) {s : SessionState}
    (hs : cls.isConnected s = true) :
    (cls.disconnect sessionNo s).Relays (sessionAlarm cls) (Reported cls)
      fun result _ => ∀ e, result = .error e → e.Quiet := by
  have hclose : ∀ t, ((do
      if sessionNo = 0 ∨ some sessionNo = (← MonadState.get).sessionNo then SessionOp.close :
      SessionOp Unit) t).Relays (sessionAlarm cls)
        (fun e s => e.isLost = true ∨ Reported cls e s)
        fun result _ => True ∧ ∀ e, result = .error e → e.Quiet := by
    intro t
    change ((if sessionNo = 0 ∨ some sessionNo = t.sessionNo then SessionOp.close
      else pure PUnit.unit : SessionOp Unit) t).Relays _ _ _
    split
    · exact ⟨trivial, fun e he => nomatch he⟩
    · exact ⟨trivial, fun e he => nomatch he⟩
  have hbody := (OpRelays.request (.disconnect sessionNo) s hs).andThen (fun _ t _ => hclose t)
    fun e t he => ⟨trivial, fun e' he' => he.2 e' (by rw [Except.error.inj he'])⟩
  exact (hbody.checkConnection hs).imp (fun _ _ h => h) fun _ _ h => h.2

theorem OpReports.lookupName (name : BytesOrStr) (wantPers wantConfs : Bool) :
    OpReports cls (cls.lookupName name wantPers wantConfs) := by
  apply OpRelays.checkConnection
  apply (OpRelays.ofExcept (.decodeUtf8 name)).bind
  exact fun name => OpRelays.client (.lookupName name wantPers wantConfs)

theorem OpRelays.lookupNameExact (name : Str) (wantPers wantConfs : Bool) :
    OpRelays cls (cls.lookupNameExact name wantPers wantConfs) := by
  apply (OpReports.lookupName (.str name) wantPers wantConfs).relays.bind
  exact fun found => ofExcept (.exactLookupMatch name found)

theorem OpRelays.personToLogin (who : ℕ ⊕ Str) : OpRelays cls (cls.personToLogin who) := by
  cases who with
  | inl persNo => exact .pure
  | inr persName => exact lookupNameExact persName true false

theorem OpReports.login (who : ℕ ⊕ Str) (password : BytesOrStr) :
    OpReports cls (cls.login who password) := by
  apply OpRelays.checkConnection
  apply (OpRelays.personToLogin who).bind
  intro persNo
  apply (OpRelays.ofExcept (.decodeUtf8 password)).bind
  intro password
  apply (OpRelays.ofExcept (.string password)).bind
  intro password
  apply (OpRelays.person (.login persNo password)).bind
  exact fun _ => OpRelays.getPersonUnchecked persNo

theorem OpReports.createPerson (name passwd : BytesOrStr) :
    OpReports cls (cls.createPerson name passwd) := by
  apply OpRelays.checkConnection
  apply (OpRelays.ofExcept (.decodeUtf8 name)).bind
  intro name
  apply (OpRelays.ofExcept (.decodeUtf8 passwd)).bind
  intro passwd
  apply (OpRelays.ofExcept (.string name)).bind
  intro name
  apply (OpRelays.ofExcept (.string passwd)).bind
  intro passwd
  apply (OpRelays.request (.createPerson name passwd)).bind
  exact fun persNo => OpRelays.getPersonUnchecked persNo

theorem OpReports.setPasswd (persNo : ℕ) (oldPwd newPwd : Str) :
    OpReports cls (cls.setPasswd persNo oldPwd newPwd) := by
  apply OpRelays.checkConnection
  apply (OpRelays.ofExcept (.string oldPwd)).bind
  intro oldPwd
  apply (OpRelays.ofExcept (.string newPwd)).bind
  exact fun newPwd => OpRelays.request (.setPasswd persNo oldPwd newPwd)

/-! ## Conferences -/

theorem OpReports.createConference (name : BytesOrStr) (auxItems : List AuxItemInput) :
    OpReports cls (cls.createConference name auxItems) := by
  apply OpRelays.checkConnection
  apply (OpRelays.ofExcept (.decodeUtf8 name)).bind
  intro name
  split
  · exact OpRelays.request _
  · exact .throw (.builtinError _)

theorem OpRelays.optional {α : Type} {read : ℕ → SessionOp α}
    (hread : ∀ no, OpRelays cls (read no)) (confNo : ℕ) :
    OpRelays cls (SessionClass.optional read confNo) := by
  unfold SessionClass.optional
  split
  · exact (hread confNo).map
  · exact .pure

theorem OpRelays.getNamedConference (confNo : ℕ) :
    OpRelays cls (cls.getNamedConference confNo) := by
  cases cls with
  | komSession => exact (getUconference confNo).map
  | aioKomSession => exact (OpReports.getConfName confNo).relays.map

theorem OpRelays.getSupervisor (confNo : ℕ) : OpRelays cls (cls.getSupervisor confNo) := by
  cases cls with
  | komSession => exact (getNamedConference confNo).map
  | aioKomSession => exact optional getNamedConference confNo

theorem OpRelays.getConferenceFull (confNo : ℕ) :
    OpRelays cls (cls.getConferenceFull confNo) := by
  apply (client (.conference confNo)).bind
  intro conf
  apply (Relays.mapM getKomAuxItem).bind
  intro auxItems
  apply (optional getNamedConference conf.superConf).bind
  intro superConf
  apply (optional getUconference conf.permittedSubmitters).bind
  intro permittedSubmitters
  apply (getPersonName conf.creator).bind
  intro creator
  exact (getSupervisor conf.supervisor).bind fun supervisor => .pure

theorem OpReports.getConference (confNo : ℕ) (micro : Bool) :
    OpReports cls (cls.getConference confNo micro) := by
  apply OpRelays.checkConnection
  split
  · exact (OpRelays.getUconference confNo).bind fun conference => .pure
  · exact (OpRelays.getConferenceFull confNo).bind fun conference => .pure

theorem OpReports.getServerInfo : OpReports cls cls.getServerInfo := by
  have hname : ∀ confNo, OpRelays cls (cls.getConfName confNo) :=
    fun confNo => (OpReports.getConfName confNo).relays
  apply OpRelays.checkConnection
  apply (OpRelays.request .getInfo).bind
  intro info
  apply (OpRelays.optional hname info.confPresConf).bind
  intro confPresConf
  apply (OpRelays.optional hname info.persPresConf).bind
  intro persPresConf
  apply (OpRelays.optional hname info.motdConf).bind
  intro motdConf
  exact (OpRelays.optional hname info.komNewsConf).bind fun komNewsConf => .pure

/-! ## Memberships -/

theorem OpRelays.getAddedBy (addedBy : ℕ) : OpRelays cls (cls.getAddedBy addedBy) := by
  cases cls with
  | komSession => exact (getPersonName addedBy).map
  | aioKomSession => exact optional getPersonName addedBy

theorem OpRelays.createKomMembership (persNo confNo : ℕ) (membership : Membership) :
    OpRelays cls (cls.createKomMembership persNo confNo membership) := by
  apply (getAddedBy membership.addedBy).bind
  intro addedBy
  exact (getUconference confNo).bind fun conference => .pure

theorem OpReports.getMembership (persNo confNo : ℕ) :
    OpReports cls (cls.getMembership persNo confNo) := by
  apply OpRelays.checkConnection
  apply (OpRelays.person (.getMembership persNo confNo false)).bind
  exact fun membership => OpRelays.createKomMembership persNo _ membership

theorem OpReports.getMembershipUnread (fuel persNo confNo : ℕ) :
    OpReports cls (cls.getMembershipUnread fuel persNo confNo) := by
  apply OpRelays.checkConnection
  apply (OpRelays.person (.getMembership persNo confNo true)).bind
  intro membership
  apply (OpRelays.client (.getUnreadTextsFromMembership fuel membership)).bind
  exact fun unreadTexts => .pure

theorem OpReports.getMemberships (persNo first noOfConfs : ℕ) (unread passive : Bool) :
    OpReports cls (cls.getMemberships persNo first noOfConfs unread passive) := by
  apply OpRelays.checkConnection
  split
  · have hread : OpRelays cls (do
        let confNos ← SessionOp.request (.person (.getUnreadConfs persNo))
        let memberships ← confNos.mapM fun confNo => cls.getMembership persNo confNo
        return (memberships, false)) := by
      apply (OpRelays.request _).bind
      intro confNos
      apply (Relays.mapM fun confNo => (OpReports.getMembership persNo confNo).relays).bind
      exact fun memberships => .pure
    split
    · exact (Relays.throw (.builtinError _)).bind fun _ => hread
    · exact hread
  · apply (OpRelays.person (.getMemberships persNo first noOfConfs false)).bind
    intro msList
    have hcreate : ∀ membership : Membership,
        OpRelays cls (cls.createKomMembership persNo membership.conference membership) :=
      fun membership => OpRelays.createKomMembership persNo membership.conference membership
    exact (Relays.mapM hcreate).bind fun memberships => .pure

theorem OpReports.getMembershipUnreads (fuel persNo : ℕ) :
    OpReports cls (cls.getMembershipUnreads fuel persNo) := by
  apply OpRelays.checkConnection
  apply (OpRelays.request _).bind
  intro confNos
  apply (Relays.mapM fun confNo => (OpReports.getMembershipUnread fuel persNo confNo).relays).bind
  exact fun memberships => .pure

/-! ## Texts -/

variable {lib : PythonLibrary}

theorem OpRelays.getKomTextStat (textNo : ℕ) (textStat : TextStat) :
    OpRelays cls (cls.getKomTextStat textNo textStat) := by
  apply (getPersonName textStat.author).bind
  intro author
  exact (Relays.mapM getKomAuxItem).bind fun auxItems => .pure

theorem OpRelays.getKomText (textNo : ℕ) (text : Option Bytes) (textStat : TextStat) :
    OpRelays cls (cls.getKomText lib textNo text textStat) := by
  apply (getKomTextStat textNo textStat).bind
  exact fun ks => ofExcept (.ofTextStat lib textNo text textStat ks.auxItems ks.author)

theorem OpReports.getTextStat (textNo : ℕ) : OpReports cls (cls.getTextStat textNo) := by
  apply OpRelays.checkConnection
  apply (OpRelays.client (.textstat textNo)).bind
  exact fun textStat => OpRelays.getKomTextStat textNo textStat

theorem OpReports.getText (textNo : ℕ) : OpReports cls (cls.getText lib textNo) := by
  apply OpRelays.checkConnection
  apply (OpRelays.client (.textstat textNo)).bind
  intro textStat
  apply (OpRelays.request (.getText textNo)).bind
  exact fun text => OpRelays.getKomText textNo (some text) textStat

theorem OpReports.getLastTexts (confNo noOfTexts : ℕ) :
    OpReports cls (cls.getLastTexts lib confNo noOfTexts) := by
  apply OpRelays.checkConnection
  apply (OpRelays.request (.localToGlobalReverse confNo 0 noOfTexts)).bind
  intro textMapping
  have htext : ∀ textNo, OpRelays cls (do
      let textStat ← SessionOp.client (ClientState.textstat textNo)
      cls.getKomText lib textNo none textStat) := by
    intro textNo
    apply (OpRelays.client (.textstat textNo)).bind
    exact fun textStat => OpRelays.getKomText textNo none textStat
  exact (Relays.mapM htext).bind fun texts => .pure

theorem RaisesQuiet.decodeSubject (subject : Option BytesOrStr) :
    RaisesQuiet (subject.mapM KomSession.decodeUtf8) := by
  cases subject with
  | none => exact .ok
  | some subject =>
    rw [Option.mapM_some]
    exact (decodeUtf8 subject).bind fun subject => .ok

theorem OpReports.createText (subject : Option BytesOrStr) (body contentType : BytesOrStr)
    (contentEncoding : Option Str) (recipientList commentToList : List (Str × ℕ)) :
    OpReports cls (cls.createText subject body contentType contentEncoding recipientList
      commentToList) := by
  apply OpRelays.checkConnection
  apply (OpRelays.ofExcept (.decodeSubject subject)).bind
  intro subject
  apply (OpRelays.ofExcept (.decodeUtf8 body)).bind
  intro body
  apply (OpRelays.ofExcept (.decodeUtf8 contentType)).bind
  intro contentType
  refine Relays.bind (OpRelays.ofExcept ?_) fun body => ?_
  · split
    · exact .ok
    · split
      · split
        · exact .ok
        · exact .builtinError
      · exact .builtinError
  · apply Relays.get.bind
    intro self
    apply (OpRelays.ofExcept (.createNewText subject body contentType _ recipientList
      commentToList)).bind
    exact fun komtext => OpRelays.request _

/-- Marking at each recipient of a text. -/
theorem OpReports.forRecipients (textNo : ℕ) {mark : ℕ → Option ℕ → ClientM Unit}
    (hmark : ∀ confNo localTextNo, ClientRelays cls (mark confNo localTextNo)) :
    OpReports cls (cls.checkConnection do
      let textStat ← SessionOp.client (ClientState.textstat textNo)
      textStat.miscInfo.recipientList.forM fun mi =>
        SessionOp.client (mark mi.recpt mi.locNo)) := by
  apply OpRelays.checkConnection
  apply (OpRelays.client (.textstat textNo)).bind
  exact fun textStat => .forM fun mi => OpRelays.client (hmark mi.recpt mi.locNo)

theorem OpReports.markAsRead (textNo : ℕ) : OpReports cls (cls.markAsRead textNo) :=
  forRecipients textNo fun _ _ => .unlessNotMember (.request _)

theorem OpReports.markAsUnread (textNo : ℕ) : OpReports cls (cls.markAsUnread textNo) :=
  forRecipients textNo fun _ _ => .unlessNotMember (.request _)

/-! ## User areas -/

theorem OpRelays.userAreaBlocks (fuel userArea : ℕ) :
    OpRelays cls (cls.userAreaBlocks lib fuel userArea) := by
  apply (OpReports.getText userArea).relays.bind
  intro text
  split
  · exact .throw (.komSessionError _)
  · apply (ofExcept (.encodeLatin1 text.body)).bind
    exact fun body => client (.ofLoops (.decodeUserArea fuel body))

theorem OpReports.getUserAreaBlock (fuel persNo : ℕ) (blockName : Bytes) (jsonDecode : Bool) :
    OpReports cls (cls.getUserAreaBlock lib fuel persNo blockName jsonDecode) := by
  apply OpRelays.checkConnection
  apply (OpRelays.request (.getPersonStat persNo)).bind
  intro personStat
  split
  · exact .pure
  · apply (OpRelays.userAreaBlocks fuel personStat.userArea).bind
    intro blocks
    split
    · exact .pure
    · split
      · exact (OpRelays.ofExcept .mapError).bind fun value => .pure
      · exact .pure

theorem OpRelays.blocksOfPerson (fuel : ℕ) (personStat : Person) :
    OpRelays cls (cls.blocksOfPerson lib fuel personStat) := by
  unfold SessionClass.blocksOfPerson
  split
  · exact .pure
  · exact userAreaBlocks fuel personStat.userArea

theorem RaisesQuiet.blockBytes (block : Bytes ⊕ lib.Json) :
    RaisesQuiet (SessionClass.blockBytes lib block) := by
  cases block with
  | inl block => exact .ok
  | inr value => exact .mapError

theorem OpReports.setUserAreaBlock (fuel persNo : ℕ) (blockName : Bytes)
    (block : Bytes ⊕ lib.Json) :
    OpReports cls (cls.setUserAreaBlock lib fuel persNo blockName block) := by
  apply OpRelays.checkConnection
  apply (OpRelays.request (.getPersonStat persNo)).bind
  intro personStat
  apply (OpRelays.blocksOfPerson fuel personStat).bind
  intro blocks
  apply (OpRelays.ofExcept (.blockBytes block)).bind
  intro block
  apply (OpRelays.ofExcept (.encodeUserArea _)).bind
  intro body
  apply (OpReports.createText none (.bytes body) _ none [] []).relays.bind
  exact fun newUserAreaTextNo => OpRelays.request _

end Pylyskom
