import Pylyskom.AsyncMessages
import Pylyskom.Session.Operations

/-!
# Connecting a session

`connect` of `KomSession` and `AioKomSession`, with what the layers below store of it: a
blocking session has a client when the client has been set up, the other one has a client
before, which is connected as soon as it has its streams.
-/

namespace Pylyskom

open AsyncMessages SessionOp

/-! ## The source -/

namespace SessionClass

variable (cls : SessionClass)

/-- A step of setting up a client, which does not go through `self._client`. -/
def setUpRequest (req : ClientRequest) : SessionOp req.Reply :=
  Coroutine.request (⟨false, req⟩ : ClientCall)

/-- The initial string, and the reply to it. -/
def handshake (user : Str) : SessionOp Unit := do
  let user ← ofExcept (KomText.encodeLatin1 (some (.str user)))
  setUpRequest (.sendInitialString user)
  let resp ← setUpRequest .receiveInitialReply
  if resp ≠ ascii "LysKOM\n" then throw (.localError .badInitialResponse) else pure ()

/-- The messages that the clients have handlers for. -/
def asyncHandlerMessages : List ℕ :=
  [NEW_NAME, LEAVE_CONF, DELETED_TEXT, NEW_TEXT, NEW_RECIPIENT, SUB_RECIPIENT, NEW_MEMBERSHIP] ++
    match cls with
    | komSession => []
    | aioKomSession => [NEW_PRESENTATION]

/-- `create_client`, and `connect` of the client of `AioKomSession`. -/
def createClient (user : Str) : SessionOp Unit :=
  match cls with
  | komSession => do
    setUpRequest .openConnection
    handshake user
    -- The two classes of the client send a request each.
    setUpRequest (.acceptAsync cls.asyncHandlerMessages)
    setUpRequest (.acceptAsync cls.asyncHandlerMessages)
    modify fun self => { self with client := some { ClientState.init with connected := true } }
  | aioKomSession => do
    modify fun self => { self with client := some ClientState.init }
    setUpRequest .openConnection
    modify fun self =>
      { self with client := self.client.map fun client => { client with connected := true } }
    handshake user
    setUpRequest (.acceptAsync cls.asyncHandlerMessages)

/-- What `connect` does with a client that has been set up. -/
def startSession (clientName clientVersion : Str) : SessionOp Unit := do
  let name ← ofExcept (ClientState.string clientName)
  let version ← ofExcept (ClientState.string clientVersion)
  request (.setClientVersion name version)
  modify fun self =>
    { self with clientName := some clientName, clientVersion := some clientVersion }
  let sessionNo ← cls.whoAmI
  modify fun self => { self with sessionNo := some sessionNo }
  request (.setConnectionTimeFormat 1)

def connect (username hostname : Str) (clientName clientVersion : BytesOrStr) :
    SessionOp Unit := do
  if cls.isConnected (← get) then throw (.builtinError .assertionError)
  else
    let clientName ← ofExcept (KomSession.decodeUtf8 clientName)
    let clientVersion ← ofExcept (KomSession.decodeUtf8 clientVersion)
    cls.createClient (username ++ ['%'] ++ hostname)
    cls.startSession clientName clientVersion

end SessionClass

/-! ## What may happen -/

/-- What is stored of the connection of a session. -/
structure SessionStatus where
  /-- Whether its client is connected, if there is a client. -/
  connected : Option Bool
  sessionNo : Option ℕ
  clientName : Option Str
  clientVersion : Option Str

def SessionState.status (s : SessionState) : SessionStatus :=
  ⟨s.client.map ClientState.connected, s.sessionNo, s.clientName, s.clientVersion⟩

/-- What becomes of each step of setting up a connection, if it comes to it. -/
structure SetUp where
  openConnection : Except Exn Unit
  sendInitialString : Except Exn Unit
  receiveInitialReply : Except Exn Bytes
  /-- The request may be made more than once. -/
  acceptAsync : ℕ → Except Exn Unit
  setClientVersion : Except Exn Unit
  whoAmI : Except Exn ℕ
  setConnectionTimeFormat : Except Exn Unit

namespace SetUp

variable (setUp : SetUp)

/-- The reply to a request, with the number of accept-async requests before it. -/
def Replies (accepted : ℕ) : (req : ClientRequest) → Except Exn req.Reply → Prop
  | .openConnection, reply => reply = setUp.openConnection
  | .sendInitialString _, reply => reply = setUp.sendInitialString
  | .receiveInitialReply, reply => reply = setUp.receiveInitialReply
  | .acceptAsync _, reply => reply = setUp.acceptAsync accepted
  | .setClientVersion _ _, reply => reply = setUp.setClientVersion
  | .whoAmI, reply => reply = setUp.whoAmI
  | .setConnectionTimeFormat _, reply => reply = setUp.setConnectionTimeFormat
  | _, _ => True

def accepted : ClientRequest → ℕ → ℕ
  | .acceptAsync _, n => n + 1
  | _, n => n

/-- While the session waits, messages may be handled, which does not change its status. -/
def Serves (call : ClientCall) (s : SessionState × ℕ) (reply : Except Exn call.Reply)
    (t : SessionState × ℕ) : Prop :=
  t.1.status = s.1.status ∧ setUp.Replies s.2 call.req reply ∧ t.2 = accepted call.req s.2

/-! ## Steps -/

/-- However `m` goes when it is called with this status, it has this result, and leaves this
status. -/
def Gives {α : Type} (m : SessionOp α) (status : SessionStatus) (n : ℕ) (x : Except Exn α)
    (left : SessionStatus) (n' : ℕ) : Prop :=
  ∀ s result t, s.status = status → (m s).Ends setUp.Serves n result t →
    result = x ∧ t.1.status = left ∧ t.2 = n'

/-- However `m` goes, it raises an exception, and leaves this status. -/
def Raises {α : Type} (m : SessionOp α) (status : SessionStatus) (n : ℕ)
    (left : SessionStatus) : Prop :=
  ∃ e n', setUp.Gives m status n (.error e) left n'

variable {setUp : SetUp} {α β : Type} {m : SessionOp α} {f : α → SessionOp β}
  {status mid left : SessionStatus} {n n' n'' : ℕ}

theorem Gives.pure {a : α} : setUp.Gives (pure a) status n (.ok a) status n := by
  rintro s result t hs ⟨rfl, rfl⟩
  exact ⟨rfl, hs, rfl⟩

theorem Gives.throw {e : Exn} :
    setUp.Gives (throw e : SessionOp α) status n (.error e) status n := by
  rintro s result t hs ⟨rfl, rfl⟩
  exact ⟨rfl, hs, rfl⟩

theorem Gives.ofExcept {x : Except Exn α} : setUp.Gives (ofExcept x) status n x status n := by
  cases x with
  | ok a => exact Gives.pure
  | error e => exact Gives.throw

theorem Gives.modify {g : SessionState → SessionState}
    (hg : ∀ s, s.status = status → (g s).status = left) :
    setUp.Gives (modify g) status n (.ok ⟨⟩) left n := by
  rintro s result t hs ⟨rfl, rfl⟩
  exact ⟨rfl, hg s hs, rfl⟩

theorem Gives.bind {x : Except Exn α} {y : Except Exn β} {a : α}
    (hm : setUp.Gives m status n x mid n') (hx : x = .ok a)
    (hf : setUp.Gives (f a) mid n' y left n'') : setUp.Gives (m >>= f) status n y left n'' := by
  subst hx
  intro s result t hs hends
  rcases Suspended.ends_of_andThen hends with ⟨a', u, hm', hf'⟩ | ⟨e, hm', -⟩
  · obtain ⟨ha, hu, hn⟩ := hm s _ u hs hm'
    obtain rfl := Except.ok.inj ha
    rw [hn] at hf'
    exact hf u.1 result t hu hf'
  · exact nomatch (hm s _ t hs hm').1

theorem Raises.of_gives {x : Except Exn α} {e : Exn} (hm : setUp.Gives m status n x left n')
    (hx : x = .error e) : setUp.Raises m status n left := by
  subst hx
  exact ⟨e, n', hm⟩

theorem Raises.bind_left (hm : setUp.Raises m status n left) :
    setUp.Raises (m >>= f) status n left := by
  obtain ⟨e, n', hm⟩ := hm
  refine ⟨e, n', fun s result t hs hends => ?_⟩
  rcases Suspended.ends_of_andThen hends with ⟨a, u, hm', -⟩ | ⟨e', hm', rfl⟩
  · exact nomatch (hm s _ u hs hm').1
  · obtain ⟨he, ht⟩ := hm s _ t hs hm'
    rw [Except.error.inj he]
    exact ⟨rfl, ht⟩

theorem Raises.bind {x : Except Exn α} {a : α} (hm : setUp.Gives m status n x mid n')
    (hx : x = .ok a) (hf : setUp.Raises (f a) mid n' left) :
    setUp.Raises (m >>= f) status n left := by
  obtain ⟨e, n'', hf⟩ := hf
  exact ⟨e, n'', hm.bind hx hf⟩

/-- A step whose outcome is known. -/
theorem Gives.setUpRequest {req : ClientRequest} {x : Except Exn req.Reply}
    (hx : ∀ reply, setUp.Replies n req reply → reply = x) :
    setUp.Gives (SessionClass.setUpRequest req) status n x status (accepted req n) := by
  rintro s result t rfl ⟨reply, u, ⟨hu, hreply, hn⟩, rfl, rfl⟩
  exact ⟨hx _ hreply, hu, hn⟩

/-- A request of the client is such a step as well. -/
theorem Gives.request {req : ClientRequest} {x : Except Exn req.Reply}
    (hconnected : status.connected = some true)
    (hx : ∀ reply, setUp.Replies n req reply → reply = x) :
    setUp.Gives (SessionOp.request req) status n x status (accepted req n) := by
  rintro s result t rfl hends
  obtain ⟨client, hclient, -⟩ := Option.map_eq_some_iff.mp hconnected
  rw [SessionOp.request_of_some hclient] at hends
  exact Gives.setUpRequest hx s result t rfl hends

/-! ## The client -/

theorem gives_openConnection :
    setUp.Gives (SessionClass.setUpRequest .openConnection) status n setUp.openConnection status
      n :=
  Gives.setUpRequest fun _ hreply => hreply

theorem gives_acceptAsync {msgNos : List ℕ} :
    setUp.Gives (SessionClass.setUpRequest (.acceptAsync msgNos)) status n (setUp.acceptAsync n)
      status (n + 1) :=
  Gives.setUpRequest fun _ hreply => hreply

theorem gives_sendInitialString {user : Bytes} :
    setUp.Gives (SessionClass.setUpRequest (.sendInitialString user)) status n
      setUp.sendInitialString status n :=
  Gives.setUpRequest fun _ hreply => hreply

theorem gives_receiveInitialReply :
    setUp.Gives (SessionClass.setUpRequest .receiveInitialReply) status n
      setUp.receiveInitialReply status n :=
  Gives.setUpRequest fun _ hreply => hreply

/-- The user can be sent, and the server replies as it should. -/
def HandshakeDone (setUp : SetUp) (user : Str) : Prop :=
  (∃ bytes, KomText.encodeLatin1 (some (.str user)) = .ok bytes) ∧
    setUp.sendInitialString = .ok () ∧ setUp.receiveInitialReply = .ok (ascii "LysKOM\n")

theorem gives_handshake {user : Str} (hdone : setUp.HandshakeDone user) :
    setUp.Gives (SessionClass.handshake user) status n (.ok ()) status n := by
  obtain ⟨⟨bytes, hbytes⟩, hsend, hreply⟩ := hdone
  apply Gives.ofExcept.bind hbytes
  apply gives_sendInitialString.bind hsend
  apply gives_receiveInitialReply.bind hreply
  exact Gives.pure

theorem raises_handshake {user : Str} (hdone : ¬ setUp.HandshakeDone user) :
    setUp.Raises (SessionClass.handshake user) status n status := by
  cases hbytes : KomText.encodeLatin1 (some (.str user)) with
  | error e => exact (Raises.of_gives Gives.ofExcept hbytes).bind_left
  | ok bytes =>
    apply Raises.bind Gives.ofExcept hbytes
    cases hsend : setUp.sendInitialString with
    | error e => exact (Raises.of_gives gives_sendInitialString hsend).bind_left
    | ok value =>
      apply Raises.bind gives_sendInitialString hsend
      cases hreply : setUp.receiveInitialReply with
      | error e => exact (Raises.of_gives gives_receiveInitialReply hreply).bind_left
      | ok resp =>
        apply Raises.bind gives_receiveInitialReply hreply
        have hresp : resp ≠ ascii "LysKOM\n" := by
          rintro rfl
          exact hdone ⟨⟨bytes, hbytes⟩, hsend, hreply⟩
        rw [if_pos hresp]
        exact Raises.of_gives Gives.throw rfl

/-- All that it takes to set up the client. -/
def ClientDone (setUp : SetUp) (cls : SessionClass) (user : Str) : Prop :=
  setUp.openConnection = .ok () ∧ setUp.HandshakeDone user ∧ setUp.acceptAsync 0 = .ok () ∧
    (cls = .komSession → setUp.acceptAsync 1 = .ok ())

variable {cls : SessionClass} {user : Str}

/-- The client of `AioKomSession`, before it has its streams. -/
theorem gives_newClient :
    setUp.Gives (modify fun self => { self with client := some ClientState.init }) status n
      (.ok ⟨⟩) { status with connected := some false } n := by
  apply Gives.modify
  rintro s rfl
  rfl

theorem gives_streams (hclient : status.connected = some false) :
    setUp.Gives
      (modify fun self =>
        { self with client := self.client.map fun client => { client with connected := true } })
      status n (.ok ⟨⟩) { status with connected := some true } n := by
  apply Gives.modify
  rintro s rfl
  obtain ⟨client, hsome, -⟩ := Option.map_eq_some_iff.mp hclient
  simp only [SessionState.status, hsome, Option.map_some]

theorem gives_createClient (hdone : setUp.ClientDone cls user) :
    ∃ n', setUp.Gives (cls.createClient user) status 0 (.ok ())
      { status with connected := some true } n' := by
  obtain ⟨hopen, hhandshake, haccept, hagain⟩ := hdone
  cases cls with
  | komSession =>
    refine ⟨2, ?_⟩
    apply gives_openConnection.bind hopen
    apply (gives_handshake hhandshake).bind rfl
    apply gives_acceptAsync.bind haccept
    apply gives_acceptAsync.bind (hagain rfl)
    apply Gives.modify
    rintro s rfl
    rfl
  | aioKomSession =>
    refine ⟨1, ?_⟩
    apply gives_newClient.bind rfl
    apply gives_openConnection.bind hopen
    apply (gives_streams rfl).bind rfl
    apply (gives_handshake hhandshake).bind rfl
    exact haccept ▸ gives_acceptAsync

/-- `KomSession` stores nothing of a client that could not be set up. -/
theorem raises_createClient (hdone : ¬ setUp.ClientDone .komSession user) :
    setUp.Raises (SessionClass.komSession.createClient user) status 0 status := by
  cases hopen : setUp.openConnection with
  | error e => exact (Raises.of_gives gives_openConnection hopen).bind_left
  | ok value =>
    apply Raises.bind gives_openConnection hopen
    by_cases hhandshake : setUp.HandshakeDone user
    · apply Raises.bind (gives_handshake hhandshake) rfl
      cases haccept : setUp.acceptAsync 0 with
      | error e => exact (Raises.of_gives gives_acceptAsync haccept).bind_left
      | ok value =>
        apply Raises.bind gives_acceptAsync haccept
        cases hagain : setUp.acceptAsync 1 with
        | error e => exact (Raises.of_gives gives_acceptAsync hagain).bind_left
        | ok value => exact absurd ⟨hopen, hhandshake, haccept, fun _ => hagain⟩ hdone
    · exact (raises_handshake hhandshake).bind_left

/-- `AioKomSession` has a client without streams when they cannot be opened. -/
theorem raises_aioCreateClient {e : Exn} (hopen : setUp.openConnection = .error e) :
    setUp.Raises (SessionClass.aioKomSession.createClient user) status 0
      { status with connected := some false } := by
  apply Raises.bind gives_newClient rfl
  exact (Raises.of_gives gives_openConnection hopen).bind_left

/-- From then on, the client is connected. -/
theorem raises_aioCreateClient_opened (hopen : setUp.openConnection = .ok ())
    (hdone : ¬ setUp.ClientDone .aioKomSession user) :
    setUp.Raises (SessionClass.aioKomSession.createClient user) status 0
      { status with connected := some true } := by
  apply Raises.bind gives_newClient rfl
  apply Raises.bind gives_openConnection hopen
  apply Raises.bind (gives_streams rfl) rfl
  by_cases hhandshake : setUp.HandshakeDone user
  · apply Raises.bind (gives_handshake hhandshake) rfl
    cases haccept : setUp.acceptAsync 0 with
    | error e => exact Raises.of_gives gives_acceptAsync haccept
    | ok value => exact absurd ⟨hopen, hhandshake, haccept, fun h => nomatch h⟩ hdone
  · exact (raises_handshake hhandshake).bind_left

/-! ## The session -/

theorem isConnected_of_status {s : SessionState} (hs : s.status.connected = some true) :
    cls.isConnected s = true := by
  obtain ⟨client, hclient, hconnected⟩ := Option.map_eq_some_iff.mp hs
  cases cls with
  | komSession => simp only [SessionClass.isConnected, hclient]
  | aioKomSession => simp only [SessionClass.isConnected, hclient, hconnected]

theorem gives_whoAmI {no : ℕ} (hconnected : status.connected = some true)
    (hno : setUp.whoAmI = .ok no) :
    setUp.Gives cls.whoAmI status n (.ok no) status n := by
  rintro s result t rfl hends
  have hrequest : setUp.Gives (SessionOp.request .whoAmI) s.status n setUp.whoAmI s.status n :=
    Gives.request hconnected fun _ hreply => hreply
  rw [hno] at hrequest
  rw [SessionClass.whoAmI, SessionClass.checkConnection_of_connected
    (isConnected_of_status hconnected)] at hends
  rcases Suspended.ends_of_handle hends with ⟨no', hreplied, rfl⟩ | ⟨e, u, hends, -⟩
  · exact hrequest s _ t rfl hreplied
  · exact nomatch (hrequest s _ u rfl hends).1

/-- The decorator of `who_am_i` closes the session, if the connection is lost. -/
theorem raises_whoAmI {e : Exn} (hconnected : status.connected = some true)
    (he : setUp.whoAmI = .error e) :
    (∀ errno, e = .socketError errno → errno.isLost = true →
      setUp.Raises cls.whoAmI status n SessionState.init.status) ∧
    ((∀ errno, e = .socketError errno → errno.isLost = false) →
      setUp.Raises cls.whoAmI status n status) := by
  have hhandle : ∀ {left}, setUp.Raises (SessionClass.onError e : SessionOp ℕ) status n left →
      setUp.Raises cls.whoAmI status n left := by
    rintro left ⟨e', n', herror⟩
    refine ⟨e', n', ?_⟩
    rintro s result t rfl hends
    have hrequest : setUp.Gives (SessionOp.request .whoAmI) s.status n setUp.whoAmI s.status n :=
      Gives.request hconnected fun _ hreply => hreply
    rw [he] at hrequest
    rw [SessionClass.whoAmI, SessionClass.checkConnection_of_connected
      (isConnected_of_status hconnected)] at hends
    rcases Suspended.ends_of_handle hends with ⟨no, hends, -⟩ | ⟨e'', u, hends, hhandled⟩
    · exact nomatch (hrequest s _ t rfl hends).1
    · obtain ⟨he'', hu, hn⟩ := hrequest s _ u rfl hends
      obtain rfl := Except.error.inj he''
      rw [hn] at hhandled
      exact herror u.1 result t hu hhandled
  constructor
  · rintro errno rfl hlost
    apply hhandle
    rw [SessionClass.onError_of_lost hlost]
    have hclose : setUp.Gives SessionOp.close status n (.ok ()) SessionState.init.status n := by
      rintro s result t - ⟨rfl, rfl⟩
      exact ⟨rfl, rfl, rfl⟩
    exact Raises.bind hclose rfl (Raises.of_gives Gives.throw rfl)
  · intro hkept
    apply hhandle
    cases e with
    | socketError errno =>
      rw [SessionClass.onError_of_kept (hkept errno rfl)]
      exact Raises.of_gives Gives.throw rfl
    | _ => exact Raises.of_gives Gives.throw rfl

/-- The name and the version of the client have been accepted. -/
def VersionSet (setUp : SetUp) (clientName clientVersion : Str) : Prop :=
  (∃ name, ClientState.string clientName = .ok name) ∧
    (∃ version, ClientState.string clientVersion = .ok version) ∧ setUp.setClientVersion = .ok ()

/-- All that it takes to start the session, once the client has been set up. -/
def SessionDone (setUp : SetUp) (clientName clientVersion : Str) : Prop :=
  setUp.VersionSet clientName clientVersion ∧ (∃ no, setUp.whoAmI = .ok no) ∧
    setUp.setConnectionTimeFormat = .ok ()

/-- The connection is lost when the session asks for its number. -/
def SessionLost (setUp : SetUp) (clientName clientVersion : Str) : Prop :=
  setUp.VersionSet clientName clientVersion ∧
    ∃ errno, errno.isLost = true ∧ setUp.whoAmI = .error (.socketError errno)

variable {clientName clientVersion : Str}

theorem gives_setClientVersion {name version : Bytes} (hconnected : status.connected = some true) :
    setUp.Gives (SessionOp.request (.setClientVersion name version)) status n
      setUp.setClientVersion status n :=
  Gives.request hconnected fun _ hreply => hreply

theorem gives_setConnectionTimeFormat {useUtc : ℕ} (hconnected : status.connected = some true) :
    setUp.Gives (SessionOp.request (.setConnectionTimeFormat useUtc)) status n
      setUp.setConnectionTimeFormat status n :=
  Gives.request hconnected fun _ hreply => hreply

/-- The status when the name and the version have been stored. -/
abbrev named (status : SessionStatus) (clientName clientVersion : Str) : SessionStatus :=
  { status with clientName := some clientName, clientVersion := some clientVersion }

theorem gives_setNames :
    setUp.Gives
      (modify fun self =>
        { self with clientName := some clientName, clientVersion := some clientVersion })
      status n (.ok ⟨⟩) (named status clientName clientVersion) n := by
  apply Gives.modify
  rintro s rfl
  rfl

theorem gives_setNo {no : ℕ} :
    setUp.Gives (modify fun self => { self with sessionNo := some no }) status n (.ok ⟨⟩)
      { status with sessionNo := some no } n := by
  apply Gives.modify
  rintro s rfl
  rfl

theorem gives_startSession (hconnected : status.connected = some true)
    (hdone : setUp.SessionDone clientName clientVersion) :
    ∃ no, setUp.Gives (cls.startSession clientName clientVersion) status n (.ok ())
      ⟨some true, some no, some clientName, some clientVersion⟩ n := by
  obtain ⟨⟨⟨name, hname⟩, ⟨version, hversion⟩, hset⟩, ⟨no, hno⟩, hformat⟩ := hdone
  refine ⟨no, ?_⟩
  apply Gives.ofExcept.bind hname
  apply Gives.ofExcept.bind hversion
  apply (gives_setClientVersion hconnected).bind hset
  apply gives_setNames.bind rfl
  have hnamed : (named status clientName clientVersion).connected = some true := hconnected
  apply (gives_whoAmI hnamed hno).bind rfl
  apply gives_setNo.bind rfl
  rw [← hconnected]
  exact hformat ▸ gives_setConnectionTimeFormat hconnected

/-- The steps of `startSession` up to the name and the version. -/
theorem raises_startSession_of {left : SessionStatus} (hconnected : status.connected = some true)
    (hset : setUp.VersionSet clientName clientVersion)
    (hrest : setUp.Raises
      (cls.whoAmI >>= fun sessionNo => do
        modify fun self => { self with sessionNo := some sessionNo }
        SessionOp.request (.setConnectionTimeFormat 1))
      (named status clientName clientVersion) n left) :
    setUp.Raises (cls.startSession clientName clientVersion) status n left := by
  obtain ⟨⟨name, hname⟩, ⟨version, hversion⟩, hset⟩ := hset
  apply Raises.bind Gives.ofExcept hname
  apply Raises.bind Gives.ofExcept hversion
  apply Raises.bind (gives_setClientVersion hconnected) hset
  exact Raises.bind gives_setNames rfl hrest

theorem raises_startSession_lost (hconnected : status.connected = some true)
    (hlost : setUp.SessionLost clientName clientVersion) :
    setUp.Raises (cls.startSession clientName clientVersion) status n
      SessionState.init.status := by
  obtain ⟨hset, errno, herrno, hwho⟩ := hlost
  have hnamed : (named status clientName clientVersion).connected = some true := hconnected
  apply raises_startSession_of hconnected hset
  exact ((raises_whoAmI hnamed hwho).1 errno rfl herrno).bind_left

/-- Whatever else fails leaves the client connected. -/
theorem raises_startSession (hconnected : status.connected = some true)
    (hdone : ¬ setUp.SessionDone clientName clientVersion)
    (hlost : ¬ setUp.SessionLost clientName clientVersion) :
    ∃ left, left.connected = some true ∧
      setUp.Raises (cls.startSession clientName clientVersion) status n left := by
  by_cases hset : setUp.VersionSet clientName clientVersion
  · have hnamed : (named status clientName clientVersion).connected = some true := hconnected
    cases hwho : setUp.whoAmI with
    | error e =>
      refine ⟨_, hnamed, raises_startSession_of hconnected hset ?_⟩
      refine ((raises_whoAmI hnamed hwho).2 fun errno he => ?_).bind_left
      rw [← Bool.not_eq_true]
      intro herrno
      exact hlost ⟨hset, errno, herrno, he ▸ hwho⟩
    | ok no =>
      refine ⟨{ named status clientName clientVersion with sessionNo := some no }, hconnected,
        raises_startSession_of hconnected hset ?_⟩
      apply Raises.bind (gives_whoAmI hnamed hwho) rfl
      apply Raises.bind gives_setNo rfl
      cases hformat : setUp.setConnectionTimeFormat with
      | error e => exact Raises.of_gives (gives_setConnectionTimeFormat hconnected) hformat
      | ok value => exact absurd ⟨hset, ⟨no, hwho⟩, hformat⟩ hdone
  · refine ⟨status, hconnected, ?_⟩
    cases hname : ClientState.string clientName with
    | error e => exact (Raises.of_gives Gives.ofExcept hname).bind_left
    | ok name =>
      apply Raises.bind Gives.ofExcept hname
      cases hversion : ClientState.string clientVersion with
      | error e => exact (Raises.of_gives Gives.ofExcept rfl).bind_left
      | ok version =>
        apply Raises.bind Gives.ofExcept rfl
        cases hsent : setUp.setClientVersion with
        | error e => exact (Raises.of_gives (gives_setClientVersion hconnected) hsent).bind_left
        | ok value => exact absurd ⟨⟨name, hname⟩, ⟨version, hversion⟩, hsent⟩ hset

end SetUp

/-! ## All or nothing -/

/-- A call of `connect` does not fail its assertion. -/
def SessionClass.Accepts (cls : SessionClass) (s : SessionState) : Prop :=
  ∀ username hostname clientName clientVersion,
    cls.connect username hostname clientName clientVersion s ≠
      .done (.error (.builtinError .assertionError)) s

/-- A session is connected, with all that belongs to it, or it is not and can be connected. -/
def SessionClass.AllOrNothing (cls : SessionClass) (result : Except Exn Unit) (s : SessionState) :
    Prop :=
  (∀ e, result = .error e → cls.isConnected s = false ∧ cls.Accepts s) ∧
    (result = .ok () → cls.isConnected s = true ∧ s.sessionNo.isSome ∧ s.clientName.isSome ∧
      s.clientVersion.isSome)

namespace SetUp

/-- Nothing fails while the session counts as connected, or the connection is lost when it asks
for its number. A blocking session counts as connected when its client has been set up, the other
one when its streams have been opened. -/
def Clean (setUp : SetUp) (cls : SessionClass) (user : Str) (clientName clientVersion : Str) :
    Prop :=
  (cls = .komSession ∧ ¬ setUp.ClientDone cls user) ∨
    (cls = .aioKomSession ∧ setUp.openConnection ≠ .ok ()) ∨
    (setUp.ClientDone cls user ∧ (setUp.SessionDone clientName clientVersion ∨
      setUp.SessionLost clientName clientVersion))

variable {setUp : SetUp} {cls : SessionClass} {s : SessionState} {result : Except Exn Unit}
  {t : SessionState × ℕ} {username hostname clientName clientVersion : Str}
  {name version : BytesOrStr}

theorem decodeUtf8_error {x : BytesOrStr} {e : Exn} (hx : KomSession.decodeUtf8 x = .error e) :
    e = .builtinError .unicodeDecodeError := by
  unfold KomSession.decodeUtf8 at hx
  split at hx
  · cases hx
  · split at hx
    · cases hx
    · exact (Except.error.inj hx).symm

theorem connect_of_disconnected (hs : cls.isConnected s = false) :
    cls.connect username hostname name version s = (do
      let clientName ← ofExcept (KomSession.decodeUtf8 name)
      let clientVersion ← ofExcept (KomSession.decodeUtf8 version)
      cls.createClient (username ++ ['%'] ++ hostname)
      cls.startSession clientName clientVersion : SessionOp Unit) s := by
  unfold SessionClass.connect
  change (if cls.isConnected s then throw (.builtinError .assertionError) else _ : SessionOp Unit)
    s = _
  rw [hs]
  rfl

/-- The names have to be text before anything is done. -/
theorem connect_undecodable (hs : cls.isConnected s = false)
    (htext : ∀ clientName clientVersion, KomSession.decodeUtf8 name = .ok clientName →
      KomSession.decodeUtf8 version ≠ .ok clientVersion) :
    cls.connect username hostname name version s =
      .done (.error (.builtinError .unicodeDecodeError)) s := by
  rw [connect_of_disconnected hs]
  cases hname : KomSession.decodeUtf8 name with
  | error e =>
    rw [decodeUtf8_error hname]
    rfl
  | ok clientName =>
    cases hversion : KomSession.decodeUtf8 version with
    | error e =>
      rw [decodeUtf8_error hversion]
      rfl
    | ok clientVersion => exact absurd hversion (htext clientName clientVersion hname)

theorem connect_decoded (hs : cls.isConnected s = false)
    (hname : KomSession.decodeUtf8 name = .ok clientName)
    (hversion : KomSession.decodeUtf8 version = .ok clientVersion) :
    cls.connect username hostname name version s =
      (cls.createClient (username ++ ['%'] ++ hostname) >>= fun _ =>
        cls.startSession clientName clientVersion) s := by
  rw [connect_of_disconnected hs, hname, hversion]
  rfl

theorem accepts_iff : cls.Accepts s ↔ cls.isConnected s = false := by
  constructor
  · intro haccepts
    rw [← Bool.not_eq_true]
    intro hconnected
    apply haccepts [] [] (.str []) (.str [])
    unfold SessionClass.connect
    change (if cls.isConnected s then throw (.builtinError .assertionError) else _ : SessionOp Unit)
      s = _
    rw [hconnected]
    rfl
  · intro hs username hostname name version hrefused
    by_cases htext : ∃ clientName clientVersion, KomSession.decodeUtf8 name = .ok clientName ∧
        KomSession.decodeUtf8 version = .ok clientVersion
    · obtain ⟨clientName, clientVersion, hname, hversion⟩ := htext
      rw [connect_decoded hs hname hversion] at hrefused
      cases cls with
      | komSession => exact nomatch hrefused
      | aioKomSession => exact nomatch hrefused
    · rw [connect_undecodable hs fun clientName clientVersion hname hversion =>
        htext ⟨clientName, clientVersion, hname, hversion⟩] at hrefused
      exact nomatch hrefused

/-- What a session is like after `connect` has raised or returned. -/
theorem allOrNothing_iff :
    cls.AllOrNothing result s ↔
      (∀ e, result = .error e → cls.isConnected s = false) ∧
        (result = .ok () → cls.isConnected s = true ∧ s.sessionNo.isSome ∧ s.clientName.isSome ∧
          s.clientVersion.isSome) := by
  unfold SessionClass.AllOrNothing
  simp only [accepts_iff, and_self]

theorem isConnected_of_connected_none (hs : s.status.connected = none) :
    cls.isConnected s = false := by
  have hclient : s.client = none := Option.map_eq_none_iff.mp hs
  cases cls <;> simp only [SessionClass.isConnected, hclient]

theorem isConnected_of_connected_false (hs : s.status.connected = some false) :
    SessionClass.aioKomSession.isConnected s = false := by
  obtain ⟨client, hclient, hconnected⟩ := Option.map_eq_some_iff.mp hs
  simp only [SessionClass.isConnected, hclient, hconnected]

/-- After an exception, it is the status that counts. -/
theorem Raises.allOrNothing_iff {m : SessionOp Unit} {status left : SessionStatus} {n : ℕ}
    (hm : setUp.Raises m status n left) (hs : s.status = status)
    (hends : (m s).Ends setUp.Serves n result t) :
    (cls.AllOrNothing result t.1 ↔ cls.isConnected t.1 = false) ∧ t.1.status = left := by
  obtain ⟨e, n', hm⟩ := hm
  obtain ⟨rfl, ht, -⟩ := hm s result t hs hends
  refine ⟨?_, ht⟩
  rw [SetUp.allOrNothing_iff]
  constructor
  · exact fun h => h.1 e rfl
  · exact fun h => ⟨fun _ _ => h, fun hok => nomatch hok⟩

theorem Raises.allOrNothing {m : SessionOp Unit} {status left : SessionStatus} {n : ℕ}
    (hm : setUp.Raises m status n left) (hs : s.status = status)
    (hends : (m s).Ends setUp.Serves n result t) (hleft : left.connected = none) :
    cls.AllOrNothing result t.1 := by
  obtain ⟨hiff, ht⟩ := hm.allOrNothing_iff hs hends
  apply hiff.mpr
  apply isConnected_of_connected_none
  rw [ht, hleft]

theorem Raises.not_allOrNothing {m : SessionOp Unit} {status left : SessionStatus} {n : ℕ}
    (hm : setUp.Raises m status n left) (hs : s.status = status)
    (hends : (m s).Ends setUp.Serves n result t) (hleft : left.connected = some true) :
    ¬ cls.AllOrNothing result t.1 := by
  obtain ⟨hiff, ht⟩ := hm.allOrNothing_iff hs hends
  rw [hiff, isConnected_of_status (by rw [ht, hleft])]
  decide

/-- With a client that has been set up, it depends on the start of the session. -/
theorem allOrNothing_of_clientDone {user : Str} (hdone : setUp.ClientDone cls user)
    (hends : ((cls.createClient user >>= fun _ => cls.startSession clientName clientVersion)
      s).Ends setUp.Serves 0 result t) :
    cls.AllOrNothing result t.1 ↔
      setUp.SessionDone clientName clientVersion ∨ setUp.SessionLost clientName clientVersion := by
  let created : SessionStatus := { s.status with connected := some true }
  have hconnected : created.connected = some true := rfl
  obtain ⟨n, hcreate⟩ : ∃ n, setUp.Gives (cls.createClient user) s.status 0 (.ok ()) created n :=
    gives_createClient hdone
  by_cases hsession : setUp.SessionDone clientName clientVersion
  · refine iff_of_true ?_ (Or.inl hsession)
    obtain ⟨no, hstart⟩ := gives_startSession hconnected hsession
    obtain ⟨rfl, ht, -⟩ := (hcreate.bind rfl hstart) s result t rfl hends
    rw [SetUp.allOrNothing_iff]
    have hconnected : t.1.status.connected = some true := congrArg SessionStatus.connected ht
    have hno : t.1.sessionNo = some no := congrArg SessionStatus.sessionNo ht
    have hname : t.1.clientName = some clientName := congrArg SessionStatus.clientName ht
    have hversion : t.1.clientVersion = some clientVersion :=
      congrArg SessionStatus.clientVersion ht
    constructor
    · intro e he
      cases he
    · intro _
      rw [hno, hname, hversion]
      exact ⟨isConnected_of_status hconnected, rfl, rfl, rfl⟩
  · by_cases hlost : setUp.SessionLost clientName clientVersion
    · refine iff_of_true ?_ (Or.inr hlost)
      have hstart : setUp.Raises (cls.startSession clientName clientVersion) created n
          SessionState.init.status := raises_startSession_lost hconnected hlost
      exact (Raises.bind hcreate rfl hstart).allOrNothing rfl hends rfl
    · refine iff_of_false ?_ (not_or.mpr ⟨hsession, hlost⟩)
      obtain ⟨left, hleft, hstart⟩ := raises_startSession hconnected hsession hlost
      exact (Raises.bind hcreate rfl hstart).not_allOrNothing rfl hends hleft

/-- `connect` with a name and a version that are text. -/
theorem allOrNothing_iff_clean {user : Str} (hs : cls.isConnected s = false)
    (hends : ((cls.createClient user >>= fun _ => cls.startSession clientName clientVersion)
      s).Ends setUp.Serves 0 result t) :
    cls.AllOrNothing result t.1 ↔ setUp.Clean cls user clientName clientVersion := by
  unfold Clean
  by_cases hdone : setUp.ClientDone cls user
  · rw [allOrNothing_of_clientDone hdone hends]
    constructor
    · exact fun h => Or.inr (Or.inr ⟨hdone, h⟩)
    · rintro (⟨-, hnot⟩ | ⟨-, hopen⟩ | ⟨-, h⟩)
      · exact absurd hdone hnot
      · exact absurd hdone.1 hopen
      · exact h
  · cases cls with
    | komSession =>
      have hclient : s.status.connected = none := by
        unfold SessionClass.isConnected at hs
        cases hclient : s.client with
        | none => simp only [SessionState.status, hclient, Option.map_none]
        | some client =>
          rw [hclient] at hs
          exact nomatch hs
      refine iff_of_true ?_ (Or.inl ⟨rfl, hdone⟩)
      exact (raises_createClient hdone).bind_left.allOrNothing rfl hends hclient
    | aioKomSession =>
      cases hopen : setUp.openConnection with
      | error e =>
        refine iff_of_true ?_ (Or.inr (Or.inl ⟨rfl, fun h => nomatch h⟩))
        obtain ⟨hiff, ht⟩ :=
          (raises_aioCreateClient hopen).bind_left.allOrNothing_iff rfl hends
        apply hiff.mpr
        apply isConnected_of_connected_false
        rw [ht]
      | ok value =>
        refine iff_of_false ?_ ?_
        · exact (raises_aioCreateClient_opened hopen hdone).bind_left.not_allOrNothing rfl hends rfl
        · rintro (⟨hcls, -⟩ | ⟨-, hnot⟩ | ⟨hclient, -⟩)
          · exact nomatch hcls
          · exact hnot rfl
          · exact hdone hclient

/-- A session is connected as a whole or not at all exactly when the set-up is clean. -/
theorem connect_allOrNothing_iff (hs : cls.isConnected s = false)
    (hends : (cls.connect username hostname name version s).Ends setUp.Serves 0 result t) :
    cls.AllOrNothing result t.1 ↔
      ∀ clientName clientVersion, KomSession.decodeUtf8 name = .ok clientName →
        KomSession.decodeUtf8 version = .ok clientVersion →
          setUp.Clean cls (username ++ ['%'] ++ hostname) clientName clientVersion := by
  by_cases htext : ∃ clientName clientVersion, KomSession.decodeUtf8 name = .ok clientName ∧
      KomSession.decodeUtf8 version = .ok clientVersion
  · obtain ⟨clientName, clientVersion, hname, hversion⟩ := htext
    rw [connect_decoded hs hname hversion] at hends
    rw [allOrNothing_iff_clean hs hends]
    constructor
    · intro hclean clientName' clientVersion' hname' hversion'
      obtain rfl := Except.ok.inj (hname.symm.trans hname')
      obtain rfl := Except.ok.inj (hversion.symm.trans hversion')
      exact hclean
    · exact fun h => h clientName clientVersion hname hversion
  · have hnot : ∀ clientName clientVersion, KomSession.decodeUtf8 name = .ok clientName →
        KomSession.decodeUtf8 version ≠ .ok clientVersion :=
      fun clientName clientVersion hname hversion =>
        htext ⟨clientName, clientVersion, hname, hversion⟩
    rw [connect_undecodable hs hnot] at hends
    obtain ⟨rfl, rfl⟩ := hends
    refine iff_of_true ?_ fun clientName clientVersion hname hversion =>
      absurd hversion (hnot clientName clientVersion hname)
    rw [SetUp.allOrNothing_iff]
    exact ⟨fun _ _ => hs, fun h => nomatch h⟩

theorem exists_serves (setUp : SetUp) (call : ClientCall) (s : SessionState × ℕ) :
    ∃ reply t, setUp.Serves call s reply t := by
  have hreply : ∃ reply, setUp.Replies s.2 call.req reply := by
    cases call.req with
    | openConnection => exact ⟨_, rfl⟩
    | sendInitialString user => exact ⟨_, rfl⟩
    | receiveInitialReply => exact ⟨_, rfl⟩
    | acceptAsync msgNos => exact ⟨_, rfl⟩
    | setClientVersion name version => exact ⟨_, rfl⟩
    | whoAmI => exact ⟨_, rfl⟩
    | setConnectionTimeFormat useUtc => exact ⟨_, rfl⟩
    | _ => exact ⟨.error (.builtinError .valueError), trivial⟩
  obtain ⟨reply, hreply⟩ := hreply
  exact ⟨reply, (s.1, accepted call.req s.2), rfl, hreply, rfl⟩

/-- Every step succeeds, up to the last two. -/
def sample (setClientVersion : Except Exn Unit) : SetUp where
  openConnection := .ok ()
  sendInitialString := .ok ()
  receiveInitialReply := .ok (ascii "LysKOM\n")
  acceptAsync _ := .ok ()
  setClientVersion
  whoAmI := .ok 17
  setConnectionTimeFormat := .ok ()

theorem clientDone_sample (setClientVersion : Except Exn Unit) :
    (sample setClientVersion).ClientDone cls "anna%host".toList :=
  ⟨rfl, ⟨⟨_, rfl⟩, rfl, rfl⟩, rfl, fun _ => rfl⟩

theorem connect_allOrNothing_sample :
    ∃ result t, (SessionClass.aioKomSession.connect "anna".toList "host".toList
        (.str "kom".toList) (.str "1".toList) .init).Ends (sample (.ok ())).Serves 0 result t ∧
      SessionClass.aioKomSession.AllOrNothing result t.1 := by
  obtain ⟨result, t, hends⟩ := Suspended.exists_ends (sample (.ok ())).exists_serves
    (SessionClass.aioKomSession.connect "anna".toList "host".toList (.str "kom".toList)
      (.str "1".toList) .init) 0
  refine ⟨result, t, hends, (connect_allOrNothing_iff rfl hends).mpr ?_⟩
  intro clientName clientVersion hname hversion
  obtain rfl := Except.ok.inj hname
  obtain rfl := Except.ok.inj hversion
  refine Or.inr (Or.inr ⟨clientDone_sample (.ok ()), Or.inl ⟨?_, ⟨17, rfl⟩, rfl⟩⟩)
  exact ⟨⟨_, rfl⟩, ⟨_, rfl⟩, rfl⟩

/-- A refusal of the client's version leaves `KomSession` connected. -/
theorem not_allOrNothing_refused :
    ¬ ∀ (cls : SessionClass) (setUp : SetUp) (s : SessionState) (username hostname : Str)
      (name version : BytesOrStr) (result : Except Exn Unit) (t : SessionState × ℕ),
      cls.isConnected s = false →
      (cls.connect username hostname name version s).Ends setUp.Serves 0 result t →
        cls.AllOrNothing result t.1 := by
  intro h
  let refused : SetUp := sample (.error (.serverError ⟨.stringTooLong, 0⟩))
  obtain ⟨result, t, hends⟩ := Suspended.exists_ends refused.exists_serves
    (SessionClass.komSession.connect "anna".toList "host".toList (.str "kom".toList)
      (.str "1".toList) .init) 0
  have hall := h _ _ _ _ _ _ _ _ _ rfl hends
  rw [connect_decoded rfl rfl rfl] at hends
  rcases (allOrNothing_of_clientDone (clientDone_sample _) hends).mp hall with
    ⟨⟨-, -, hset⟩, -⟩ | ⟨⟨-, -, hset⟩, -⟩
  · exact nomatch hset
  · exact nomatch hset

end SetUp
end Pylyskom
