import Pylyskom.Session.Servers

/-!
# The operations refine the methods over replies

The methods that read and create texts and set a block of a user area stand in `Session`
over what the calls of the client return, and in `Session.Operations` over its requests and
its caches. With caches that agree with these replies, an operation ends as the method does,
and sends the same requests that change the server's data.
-/

namespace Pylyskom

/-- How the requests of a session are replied to, and what has been sent after it: what the
caches hold is fetched from the server's data. The methods make no other requests. -/
def SessionClient.Handles (client : SessionClient) (data : ServerData) : Handling (List Sent)
  | log, .getPersonStat persNo, reply, after => reply = client.getPersonStat persNo ∧ after = log
  | log, .getText textNo, reply, after => reply = client.getText textNo ∧ after = log
  | log, .createText text miscInfo auxItems, reply, after =>
    reply = client.createText text miscInfo auxItems ∧
      after = log ++ [.createText text miscInfo auxItems]
  | log, .setUserArea persNo userArea, reply, after =>
    reply = client.setUserArea persNo userArea ∧ after = log ++ [.setUserArea persNo userArea]
  | log, req, reply, after => req.Reads ∧ data.Replies req reply ∧ after = log

theorem SessionClient.handles_of_reads {client : SessionClient} {data : ServerData}
    {log after : List Sent} {req : ClientRequest} (hreads : req.Reads)
    {reply : Except Exn req.Reply} :
    client.Handles data log req reply after ↔ data.Replies req reply ∧ after = log := by
  rcases hreads.cases with ⟨no, rfl⟩ | ⟨no, rfl⟩ | ⟨no, rfl⟩ <;> exact and_iff_right trivial

/-- Go on with the value that is returned, and with what has been sent. -/
theorem SessionM.run_bind {α β : Type} (m : SessionM α) (f : α → SessionM β) (log : List Sent) :
    (m >>= f).run.run log = (m.run.run log).bind fun ended =>
      match ended.1 with
      | .ok a => (f a).run.run ended.2
      | .error e => some (.error e, ended.2) := by
  change (m.run.run log).bind _ = _
  congr 1
  funext ended
  obtain ⟨result, sent⟩ := ended
  cases result <;> rfl

theorem SessionM.ofExcept_bind {α β : Type} (x : Except Exn α) (f : α → Except Exn β) :
    SessionM.ofExcept (x >>= f) = SessionM.ofExcept x >>= fun a => SessionM.ofExcept (f a) := by
  cases x <;> rfl

theorem SessionM.ofExcept_mapM {α β : Type} (f : α → Except Exn β) (l : List α) :
    SessionM.ofExcept (l.mapM f) = l.mapM fun a => SessionM.ofExcept (f a) := by
  induction l with
  | nil => rfl
  | cons a l ih =>
    rw [List.mapM_cons, List.mapM_cons, ofExcept_bind]
    congr 1
    funext b
    rw [ofExcept_bind, ih]
    rfl

namespace KomSession

variable (session : KomSession) (data : ServerData)

/-- The client's caches are read as the server's data. -/
structure Reads : Prop where
  textstats : ∀ no, session.client.textstats no = data.getTextStat no
  uconferences : ∀ no, session.client.uconferences no = data.getUconfStat no

/-- The state of the session, with caches that agree with the data. -/
structure Represents (s : SessionState) : Prop where
  mirrored : data.Mirrored s
  clientName : s.clientName = some session.clientName
  clientVersion : s.clientVersion = some session.clientVersion

/-- While a session waits, messages may remove entries from its caches. -/
def Serves (call : ClientCall) (s : SessionState × List Sent) (reply : Except Exn call.Reply)
    (t : SessionState × List Sent) : Prop :=
  (s.1.Forgets t.1 ∧ t.1.clientName = s.1.clientName ∧ t.1.clientVersion = s.1.clientVersion) ∧
    session.client.Handles data s.2 call.req reply t.2

/-- Where the method ends, with no exception of the socket, the operation always ends as the
method does and has sent what it sends. -/
def Refines {α : Type} (op : SessionOp α) (m : SessionM α) : Prop :=
  ∀ log result log', m.run.run log = some (result, log') →
    (∀ errno, result ≠ .error (.socketError errno)) →
    Triple (session.Serves data) (fun s => session.Represents data s.1 ∧ s.2 = log) op
      fun ended s => ended = result ∧ session.Represents data s.1 ∧ s.2 = log'

variable {session data} {α β : Type}

theorem Represents.serves {call : ClientCall} {s t : SessionState × List Sent}
    {reply : Except Exn call.Reply} (h : session.Represents data s.1)
    (hserves : session.Serves data call s reply t) : session.Represents data t.1 where
  mirrored := h.mirrored.forgets hserves.1.1
  clientName := hserves.1.2.1.trans h.clientName
  clientVersion := hserves.1.2.2.trans h.clientVersion

/-! ## Rules -/

namespace Refines

variable {op : SessionOp α} {m : SessionM α} {f : α → SessionOp β} {g : α → SessionM β}

theorem bind (hop : session.Refines data op m) (hf : ∀ a, session.Refines data (f a) (g a)) :
    session.Refines data (op >>= f) (m >>= g) := by
  intro log result log' hrun hsocket
  rw [SessionM.run_bind, Option.bind_eq_some_iff] at hrun
  obtain ⟨⟨first, sent⟩, hfirst, hrest⟩ := hrun
  cases first with
  | ok a =>
    have hfirst := hop log _ sent hfirst fun _ h => nomatch h
    refine hfirst.bind (fun b => Triple.of_imp fun hb => ?_) ?_
    · obtain rfl := Except.ok.inj hb
      exact hf b sent result log' hrest hsocket
    · rintro e s ⟨he, -⟩
      cases he
  | error e =>
    obtain ⟨rfl, rfl⟩ := Prod.mk.inj (Option.some.inj hrest)
    have hfirst := hop log _ sent hfirst fun errno h => hsocket errno (by rw [Except.error.inj h])
    refine hfirst.bind (fun b => Triple.of_imp fun hb => ?_) ?_
    · cases hb
    · rintro e' s ⟨he, hs⟩
      exact ⟨by rw [Except.error.inj he], hs⟩

/-- A method that sends nothing, and whose result is that of the operation. -/
theorem of_result {op : SessionOp α} {x : Except Exn α}
    (hop : ∀ log, Triple (session.Serves data) (fun s => session.Represents data s.1 ∧ s.2 = log) op
      fun ended s => ended = x ∧ session.Represents data s.1 ∧ s.2 = log) :
    session.Refines data op (SessionM.ofExcept x) := by
  rintro log result log' hrun -
  obtain ⟨rfl, rfl⟩ := Prod.mk.inj (Option.some.inj hrun)
  exact hop log

theorem value (x : Except Exn α) :
    session.Refines data (ofExcept x) (SessionM.ofExcept x) := by
  refine of_result fun log => ?_
  cases x with
  | ok a => exact Triple.pure fun s hs => ⟨rfl, hs⟩
  | error e => exact Triple.throw fun s hs => ⟨rfl, hs⟩

theorem mapM {l : List α} {f : α → SessionOp β} {g : α → SessionM β}
    (hf : ∀ a, session.Refines data (f a) (g a)) :
    session.Refines data (l.mapM f) (l.mapM g) := by
  induction l with
  | nil => exact value (.ok [])
  | cons a l ih =>
    rw [List.mapM_cons, List.mapM_cons]
    exact (hf a).bind fun b => ih.bind fun bs => value (.ok (b :: bs))

/-- The decorators pass on what does not come from the socket. -/
theorem checkConnection (cls : SessionClass) (hop : session.Refines data op m) :
    session.Refines data (cls.checkConnection op) m := by
  intro log result log' hrun hsocket
  apply SessionClass.triple_checkConnection (fun s hs => hs.1.mirrored.isConnected)
    (hop log result log' hrun hsocket)
  rintro e s ⟨rfl, -⟩ errno rfl
  exact hsocket errno rfl

/-- The name and the version of the session are those that are read. -/
theorem get {f : SessionState → SessionOp α} (hf : ∀ s, s.clientName = some session.clientName →
      s.clientVersion = some session.clientVersion → session.Refines data (f s) m) :
    session.Refines data (MonadState.get >>= f) m := by
  rintro log result log' hrun hsocket s w ⟨hs, hw⟩
  exact hf s hs.clientName hs.clientVersion log result log' hrun hsocket s w ⟨hs, hw⟩

/-- A request, with the reply of the client and what has been sent after it. -/
theorem request {req : ClientRequest} {m : SessionM req.Reply} (reply : Except Exn req.Reply)
    (sent : List Sent → List Sent)
    (hrun : ∀ log, m.run.run log = some (reply, sent log))
    (hhandles : ∀ {log answer after}, session.client.Handles data log req answer after ↔
      answer = reply ∧ after = sent log) :
    session.Refines data (SessionOp.request req) m := by
  rintro log result log' hresult -
  rw [hrun] at hresult
  obtain ⟨rfl, rfl⟩ := Prod.mk.inj (Option.some.inj hresult)
  apply Triple.congr (Coroutine.request (⟨false, req⟩ : ClientCall))
  · apply Triple.request
    rintro ⟨s, w⟩ ⟨hs, rfl⟩
    refine ⟨⟨reply, (s, sent w), ⟨.refl s, rfl, rfl⟩, hhandles.mpr ⟨rfl, rfl⟩⟩, ?_⟩
    rintro answer t hserves
    obtain ⟨hreply, hafter⟩ := hhandles.mp hserves.2
    exact ⟨hreply, hs.serves hserves, hafter⟩
  · rintro ⟨s, w⟩ ⟨hs, -⟩
    obtain ⟨client, hclient, -⟩ := hs.mirrored
    exact SessionOp.request_of_some hclient

/-- What only reads the data ends as it does without caches. -/
theorem client {op : ClientM α} {x : Except Exn α} (hop : Computes data.clientService op x) :
    session.Refines data (SessionOp.client op) (SessionM.ofExcept x) := by
  refine of_result fun log => ?_
  have hcomputes : Computes { data.sessionService with keeps := session.Represents data }
      (SessionOp.client op) x := by
    refine ServerData.computes_client_of (fun s hs => hs.mirrored) ?_ hop
    intro s client hs hclient
    obtain ⟨other, hother, -⟩ := hs.mirrored
    exact ⟨⟨client, by rw [hother]; rfl, hclient⟩, hs.clientName, hs.clientVersion⟩
  refine hcomputes.triple (P := (· = log)) ?_
  rintro call s w hs rfl hreads
  obtain ⟨reply, hreply⟩ := data.exists_reply call.req
  constructor
  · exact ⟨reply, (s, w), ⟨.refl s, rfl, rfl⟩,
      (SessionClient.handles_of_reads hreads).mpr ⟨hreply, rfl⟩⟩
  · rintro reply t hserves
    obtain ⟨hreply, hlog⟩ := (SessionClient.handles_of_reads hreads).mp hserves.2
    exact ⟨hs.serves hserves, hreply, hlog⟩

end Refines

/-! ## Names and texts -/

variable {cls : SessionClass} {lib : PythonLibrary} {getPerson : ℕ → Except Exn KomPersonName}

/-- The methods of the classes to look up the name of a person have the names without caches. -/
theorem getPerson_eq (hreads : session.Reads data) (persNo : ℕ) :
    session.getPerson persNo = .ok (data.personName .komSession persNo) := by
  unfold KomSession.getPerson ServerData.personName ServerData.username
  rw [hreads.uconferences]
  cases data.getUconfStat persNo <;> rfl

theorem getPersonName_eq (hreads : session.Reads data) (persNo : ℕ) :
    AioKomSession.getPersonName session persNo = .ok (data.personName .aioKomSession persNo) := by
  unfold AioKomSession.getPersonName ServerData.personName ServerData.username
  rw [hreads.uconferences]
  rcases data.getUconfStat_cases persNo with ⟨uconf, huconf⟩ | hundefined
  · rw [huconf]
  · rw [hundefined, ServerData.undefinedConference]
    by_cases hzero : persNo = 0
    · simp [hzero]
    · simp [hzero]

theorem refines_getPersonName (hnames : ∀ n, getPerson n = .ok (data.personName cls n))
    (persNo : ℕ) :
    session.Refines data (cls.getPersonName persNo) (SessionM.ofExcept (getPerson persNo)) := by
  rw [hnames]
  cases cls with
  | komSession =>
    exact Refines.client (ServerData.computes_ofPerson (data.computes_getPerson persNo) true)
  | aioKomSession =>
    exact Refines.client (ServerData.computes_ofPerson (data.computes_getPersonName persNo) false)

theorem refines_getTextWith (hreads : session.Reads data) (hcodecs : session.codecs = lib.codecs)
    (hnames : ∀ n, getPerson n = .ok (data.personName cls n)) (textNo : ℕ) :
    session.Refines data (cls.getText lib textNo)
      (SessionM.ofExcept (session.getTextWith getPerson textNo)) := by
  unfold getTextWith SessionClass.getText SessionClass.getKomText SessionClass.getKomTextStat
  simp only [SessionM.ofExcept_bind, SessionM.ofExcept_mapM, bind_assoc, pure_bind]
  rw [hreads.textstats, hcodecs]
  refine Refines.checkConnection cls ?_
  refine (Refines.client (data.computes_textstat textNo)).bind fun textStat => ?_
  refine (Refines.request _ id (fun log => rfl) Iff.rfl).bind fun text => ?_
  refine (refines_getPersonName hnames textStat.author).bind fun author => ?_
  refine (Refines.mapM fun auxItem => ?_).bind fun auxItems => Refines.value _
  refine (refines_getPersonName hnames auxItem.creator).bind fun creator => ?_
  exact Refines.value (.ok (⟨auxItem, creator⟩ : KomAuxItem))

theorem refines_getText (hreads : session.Reads data) (hcodecs : session.codecs = lib.codecs)
    (textNo : ℕ) :
    session.Refines data (SessionClass.getText .komSession lib textNo)
        (SessionM.ofExcept (KomSession.getText session textNo)) ∧
      session.Refines data (SessionClass.getText .aioKomSession lib textNo)
        (SessionM.ofExcept (AioKomSession.getText session textNo)) :=
  ⟨refines_getTextWith hreads hcodecs (getPerson_eq hreads) textNo,
    refines_getTextWith hreads hcodecs (getPersonName_eq hreads) textNo⟩

theorem refines_createText (subject : Option BytesOrStr) (body contentType : BytesOrStr)
    (contentEncoding : Option Str) (recipientList commentToList : List (Str × ℕ)) :
    session.Refines data
      (cls.createText subject body contentType contentEncoding recipientList commentToList)
      (session.createText subject body contentType contentEncoding recipientList
        commentToList) := by
  unfold SessionClass.createText KomSession.createText
  refine Refines.checkConnection cls ?_
  refine (Refines.value _).bind fun subject => ?_
  refine (Refines.value _).bind fun body => ?_
  refine (Refines.value _).bind fun contentType => ?_
  refine (Refines.value _).bind fun body => ?_
  refine Refines.get fun s hclientName hclientVersion => ?_
  rw [hclientName, hclientVersion]
  refine (Refines.value _).bind fun komtext => ?_
  exact Refines.request _ (fun log => log ++ [_]) (fun log => rfl) Iff.rfl

/-! ## User areas -/

/-- Loops that do not end in the operation do not end in the method. -/
theorem refines_ofLoops (x : Loops α) :
    session.Refines data (SessionOp.client (ClientState.ofLoops x)) (SessionM.ofLoops x) := by
  cases hx : x.run with
  | none =>
    intro log result log' hrun
    change x.run.bind _ = _ at hrun
    rw [hx] at hrun
    cases hrun
  | some result =>
    have hop : ClientState.ofLoops x = ofExcept result := by
      unfold ClientState.ofLoops
      rw [hx]
    have hm : SessionM.ofLoops x = SessionM.ofExcept result := by
      unfold SessionM.ofLoops
      rw [hx]
      rfl
    rw [hop, hm]
    apply Refines.client
    cases result with
    | ok a => exact Computes.pure a
    | error e => exact Computes.throw e

theorem refines_blocksOfPerson (hreads : session.Reads data)
    (hcodecs : session.codecs = lib.codecs)
    (hnames : ∀ n, getPerson n = .ok (data.personName cls n)) (fuel persNo : ℕ) :
    session.Refines data
      (do
        let personStat ← SessionOp.request (.getPersonStat persNo)
        cls.blocksOfPerson lib fuel personStat)
      (session.userAreaBlocks (session.getTextWith getPerson) fuel persNo) := by
  unfold KomSession.userAreaBlocks SessionClass.blocksOfPerson SessionClass.userAreaBlocks
  refine (Refines.request _ id (fun log => rfl) Iff.rfl).bind fun personStat => ?_
  split
  · exact Refines.value (.ok ∅)
  · refine (refines_getTextWith hreads hcodecs hnames personStat.userArea).bind fun userArea => ?_
    split
    · exact Refines.value (.error _)
    · exact (Refines.value _).bind fun body => refines_ofLoops _

/-- **The two models of `set_user_area_block` do the same**, with the names of persons that the
class looks up. -/
theorem refines_setUserAreaBlockWith (hreads : session.Reads data)
    (hcodecs : session.codecs = lib.codecs)
    (hnames : ∀ n, getPerson n = .ok (data.personName cls n)) (fuel persNo : ℕ)
    (blockName block : Bytes) :
    session.Refines data (cls.setUserAreaBlock lib fuel persNo blockName (.inl block))
      (session.setUserAreaBlockWith (session.getTextWith getPerson) fuel persNo blockName
        block) := by
  unfold SessionClass.setUserAreaBlock KomSession.setUserAreaBlockWith
  refine Refines.checkConnection cls ?_
  rw [← bind_assoc]
  refine (refines_blocksOfPerson hreads hcodecs hnames fuel persNo).bind fun blocks => ?_
  change session.Refines data
    (ofExcept (encodeUserArea (blocks.set blockName (some block))) >>= _) _
  refine (Refines.value _).bind fun body => ?_
  refine (refines_createText _ _ _ _ _ _).bind fun newUserAreaTextNo => ?_
  exact Refines.request _ (fun log => log ++ [_]) (fun log => rfl) Iff.rfl

theorem refines_setUserAreaBlock (hreads : session.Reads data)
    (hcodecs : session.codecs = lib.codecs) (fuel persNo : ℕ) (blockName block : Bytes) :
    session.Refines data
        (SessionClass.setUserAreaBlock .komSession lib fuel persNo blockName (.inl block))
        (KomSession.setUserAreaBlock session fuel persNo blockName block) ∧
      session.Refines data
        (SessionClass.setUserAreaBlock .aioKomSession lib fuel persNo blockName (.inl block))
        (AioKomSession.setUserAreaBlock session fuel persNo blockName block) :=
  ⟨refines_setUserAreaBlockWith hreads hcodecs (getPerson_eq hreads) fuel persNo blockName block,
    refines_setUserAreaBlockWith hreads hcodecs (getPersonName_eq hreads) fuel persNo blockName
      block⟩

end KomSession
end Pylyskom
