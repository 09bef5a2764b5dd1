import Pylyskom.Session.Operations

/-!
# What a session without caches would return

The data of a server, the results that an operation would have if it asked the server for
everything, and that it has them as long as its caches agree with the server.
-/

namespace Pylyskom

/-- What the server holds. Persons have conferences of their own, with the same numbers. -/
structure ServerData where
  conferences : ℕ → Option (UConference × Conference)
  textStats : ℕ → Option TextStat
  conferences_zero : conferences 0 = none

namespace ServerData

variable (server : ServerData) (cls : SessionClass)

/-! ## Replies -/

def undefinedConference (no : ℕ) : Exn :=
  .serverError ⟨if no = 0 then .conferenceZero else .undefinedConference, no⟩

def getUconfStat (no : ℕ) : Except Exn UConference :=
  match server.conferences no with
  | some (uconf, _) => .ok uconf
  | none => .error (undefinedConference no)

def getConfStat (no : ℕ) : Except Exn Conference :=
  match server.conferences no with
  | some (_, conf) => .ok conf
  | none => .error (undefinedConference no)

def getTextStat (no : ℕ) : Except Exn TextStat :=
  match server.textStats no with
  | some textStat => .ok textStat
  | none => .error (.serverError ⟨if no = 0 then .textZero else .noSuchText, no⟩)

/-- How the server replies; it does not matter here what it replies to other requests. -/
def Replies : (req : ClientRequest) → Except Exn req.Reply → Prop
  | .person (.getUconfStat no), reply => reply = server.getUconfStat no
  | .getConfStat no, reply => reply = server.getConfStat no
  | .getTextStat no, reply => reply = server.getTextStat no
  | _, _ => True

theorem getUconfStat_cases (no : ℕ) :
    (∃ uconf, server.getUconfStat no = .ok uconf) ∨
      server.getUconfStat no = .error (undefinedConference no) := by
  unfold getUconfStat
  cases server.conferences no with
  | some conf => exact Or.inl ⟨conf.1, rfl⟩
  | none => exact Or.inr rfl

/-! ## Results -/

/-- The name of a person in `_get_person` of `KomSession` and in `_get_person_name` of
`AioKomSession`. -/
def username (persNo : ℕ) : Str :=
  match server.getUconfStat persNo, cls with
  | .ok uconf, _ => latin1Decode uconf.name
  | .error _, .komSession => []
  | .error _, .aioKomSession =>
    if persNo = 0 then "Anonymous person".toList
    else "Person ".toList ++ Nat.toDigits 10 persNo ++ " (does not exist).".toList

def personName (persNo : ℕ) : KomPersonName := ⟨persNo, server.username cls persNo⟩

def uconference (confNo : ℕ) : Except Exn KomUConference :=
  (server.getUconfStat confNo).map (.ofUconf confNo)

/-- `get_conf_name` of `AioKomSession`. -/
def confName (confNo : ℕ) : Except Exn KomConferenceName :=
  match server.getUconfStat confNo with
  | .ok uconf => .ok ⟨confNo, latin1Decode uconf.name⟩
  | .error e =>
    if confNo = 0 then .error e
    else .ok ⟨confNo,
      "Conference ".toList ++ Nat.toDigits 10 confNo ++ " (does not exist).".toList⟩

def auxItem (auxItem : AuxItem) : KomAuxItem := ⟨auxItem, server.personName cls auxItem.creator⟩

def namedConference (confNo : ℕ) : Except Exn NamedConference :=
  match cls with
  | .komSession => (server.uconference confNo).map .uconference
  | .aioKomSession => (server.confName confNo).map .name

/-- A conference that may be 0. -/
def optional {α : Type} (read : ℕ → Except Exn α) (confNo : ℕ) : Except Exn (Option α) :=
  if confNo ≠ 0 then (read confNo).map some else .ok none

def supervisor (confNo : ℕ) : Except Exn (Option NamedConference) :=
  match cls with
  | .komSession => (server.namedConference .komSession confNo).map some
  | .aioKomSession => optional (server.namedConference .aioKomSession) confNo

def conference (confNo : ℕ) : Except Exn KomConference := do
  let conf ← server.getConfStat confNo
  let superConf ← optional (server.namedConference cls) conf.superConf
  let permittedSubmitters ← optional server.uconference conf.permittedSubmitters
  let supervisor ← server.supervisor cls conf.supervisor
  return .ofConf confNo conf (server.personName cls conf.creator) supervisor permittedSubmitters
    superConf (conf.auxItems.map (server.auxItem cls))

def komTextStat (textNo : ℕ) : Except Exn KomTextStat := do
  let textStat ← server.getTextStat textNo
  return .ofTextStat textNo textStat (textStat.auxItems.map (server.auxItem cls))
    (server.personName cls textStat.author)

/-- `get_conference` -/
def getConference (confNo : ℕ) (micro : Bool) : Except Exn (KomUConference ⊕ KomConference) :=
  if micro then (server.uconference confNo).map .inl else (server.conference cls confNo).map .inr

/-! ## Caches that agree with the server -/

/-- What is cached is what the server holds. -/
structure Agrees (server : ServerData) (client : ClientState) : Prop where
  uconferences : ∀ {no uconf}, client.person.uconferences.dict.get? no = some uconf →
    server.getUconfStat no = .ok uconf
  conferences : ∀ {no conf}, client.conferences.dict.get? no = some conf →
    server.getConfStat no = .ok conf
  textstats : ∀ {no textStat}, client.textstats.dict.get? no = some textStat →
    server.getTextStat no = .ok textStat

/-- A connected client whose caches agree with the server. -/
def MirroredClient (client : ClientState) : Prop :=
  client.connected = true ∧ server.Agrees client

/-- A session with such a client. -/
def Mirrored (s : SessionState) : Prop :=
  ∃ client, s.client = some client ∧ server.MirroredClient client

end ServerData

/-- Messages that are handled while a client waits may remove entries from its caches. -/
structure ClientState.Forgets (client left : ClientState) : Prop where
  connected : left.connected = client.connected
  uconferences : ∀ {no uconf}, left.person.uconferences.dict.get? no = some uconf →
    client.person.uconferences.dict.get? no = some uconf
  conferences : ∀ {no conf}, left.conferences.dict.get? no = some conf →
    client.conferences.dict.get? no = some conf
  textstats : ∀ {no textStat}, left.textstats.dict.get? no = some textStat →
    client.textstats.dict.get? no = some textStat

theorem ClientState.Forgets.refl (client : ClientState) : client.Forgets client :=
  ⟨rfl, id, id, id⟩

/-- The session keeps its client meanwhile. -/
def SessionState.Forgets (s t : SessionState) : Prop :=
  ∀ client, s.client = some client → ∃ left, t.client = some left ∧ client.Forgets left

theorem SessionState.Forgets.refl (s : SessionState) : s.Forgets s :=
  fun client hclient => ⟨client, hclient, .refl client⟩

namespace ServerData

variable {server : ServerData} {cls : SessionClass}

theorem Mirrored.forgets {s t : SessionState} (hs : server.Mirrored s) (ht : s.Forgets t) :
    server.Mirrored t := by
  obtain ⟨client, hclient, hconnected, hagrees⟩ := hs
  obtain ⟨left, hleft, hforgets⟩ := ht client hclient
  refine ⟨left, hleft, hforgets.connected.trans hconnected, ?_, ?_, ?_⟩
  · exact fun hget => hagrees.uconferences (hforgets.uconferences hget)
  · exact fun hget => hagrees.conferences (hforgets.conferences hget)
  · exact fun hget => hagrees.textstats (hforgets.textstats hget)

theorem Mirrored.isConnected {s : SessionState} (hs : server.Mirrored s) :
    cls.isConnected s = true := by
  obtain ⟨client, hclient, hconnected, -⟩ := hs
  cases cls with
  | komSession => simp only [SessionClass.isConnected, hclient]
  | aioKomSession => simp only [SessionClass.isConnected, hclient, hconnected]

/-- How the requests of a session are served, while the server stays as it is. -/
def Serves (server : ServerData) (call : ClientCall) (s : SessionState × Unit)
    (reply : Except Exn call.Reply) (t : SessionState × Unit) : Prop :=
  s.1.Forgets t.1 ∧ server.Replies call.req reply

/-- A session that has just been connected has nothing in its caches. -/
theorem mirrored_connected (sessionNo : Option ℕ) (clientName clientVersion : Option Str) :
    server.Mirrored
      ⟨some { ClientState.init with connected := true }, sessionNo, clientName, clientVersion⟩ := by
  refine ⟨_, rfl, rfl, ?_, ?_, ?_⟩
  · intro no uconf hget
    cases hget
  · intro no conf hget
    cases hget
  · intro no textStat hget
    cases hget

end ServerData

/-- The requests that only read what the server holds. -/
def ClientRequest.Reads : ClientRequest → Prop
  | person (.getUconfStat _) => True
  | getConfStat _ => True
  | getTextStat _ => True
  | _ => False

theorem ClientRequest.Reads.cases {req : ClientRequest} (h : req.Reads) :
    (∃ no, req = .person (.getUconfStat no)) ∨ (∃ no, req = .getConfStat no) ∨
      ∃ no, req = .getTextStat no := by
  cases req with
  | person req =>
    cases req with
    | getUconfStat no => exact Or.inl ⟨no, rfl⟩
    | _ => exact h.elim
  | getConfStat no => exact Or.inr (Or.inl ⟨no, rfl⟩)
  | getTextStat no => exact Or.inr (Or.inr ⟨no, rfl⟩)
  | _ => exact h.elim

/-- A value that is fetched and stored, if it is not present. -/
theorem Cache.computes_getitem {σ ρ ε ν : Type} {μ : ρ → Type} {cache : σ → Cache ν}
    {update : (Cache ν → Cache ν) → σ → σ} {fetcher : ℕ → Coroutine σ ρ μ ε ν} {no : ℕ}
    {S : Service σ ρ μ ε} {x : Except ε ν}
    (hpresent : ∀ {s value}, S.keeps s → (cache s).dict.get? no = some value → x = .ok value)
    (hfetch : Computes S (fetcher no) x)
    (hcount : ∀ {s} (f : Cache ν → Cache ν), (∀ c : Cache ν, (f c).dict = c.dict) → S.keeps s →
      S.keeps (update f s))
    (hstore : ∀ {s value}, x = .ok value → S.keeps s →
      S.keeps (update (fun c => c.setitem no value) s)) :
    Computes S (Cache.getitem cache update fetcher no) x := by
  intro s hs
  cases hget : (cache s).dict.get? no with
  | some value =>
    rw [Cache.getitem_hit hget]
    exact ⟨hcount _ (fun _ => rfl) hs, (hpresent hs hget).symm⟩
  | none =>
    rw [Cache.getitem_miss hget]
    have hmiss : S.keeps (update (fun self => { self with uncached := self.uncached + 1 }) s) :=
      hcount _ (fun _ => rfl) hs
    have hrest : Computes S (do
        let value ← fetcher no
        modify (update fun self => self.setitem no value)
        return value) x := by
      cases x with
      | ok value =>
        apply hfetch.bind_ok
        exact (Computes.modify fun _ => hstore rfl).bind_ok (Computes.pure value)
      | error e => exact hfetch.bind_error
    exact hrest _ hmiss

namespace ServerData

variable {server : ServerData} {cls : SessionClass}

/-- How the person client is served while its cached conferences agree. -/
abbrev personService (server : ServerData) :
    Service CachingPersonClient PersonRequest PersonRequest.Reply Exn where
  keeps person := ∀ no uconf, person.uconferences.dict.get? no = some uconf →
    server.getUconfStat no = .ok uconf
  sends req := (ClientRequest.person req).Reads
  replies req reply := server.Replies (.person req) reply

abbrev clientService (server : ServerData) :
    Service ClientState ClientCall ClientCall.Reply Exn where
  keeps := server.MirroredClient
  sends call := call.req.Reads
  replies call reply := server.Replies call.req reply

abbrev sessionService (server : ServerData) :
    Service SessionState ClientCall ClientCall.Reply Exn where
  keeps := server.Mirrored
  sends call := call.req.Reads
  replies call reply := server.Replies call.req reply

theorem computes_uconference (no : ℕ) :
    Computes server.personService (CachingPersonClient.uconference no)
      (server.getUconfStat no) := by
  apply Cache.computes_getitem
  · intro person uconf hperson hget
    exact hperson no uconf hget
  · exact Computes.request trivial fun _ hreply => hreply
  · intro person f hf hperson k uconf hget
    apply hperson k
    change (f person.uconferences).dict.get? k = some uconf at hget
    rwa [hf] at hget
  · intro person value hvalue hperson k uconf hget
    change (person.uconferences.setitem no value).dict.get? k = some uconf at hget
    exact Cache.of_get?_setitem (P := fun no uconf => server.getUconfStat no = .ok uconf) hvalue
      (hperson k uconf) hget

/-- The name of a conference, if there is one. -/
theorem computes_uconfName (no : ℕ) :
    Computes server.personService
      (do
        let uconf ← CachingPersonClient.uconference no
        return latin1Decode uconf.name)
      ((server.getUconfStat no).map fun uconf => latin1Decode uconf.name) := by
  have hbind := (server.computes_uconference no).bind fun uconf _ =>
    Computes.pure (latin1Decode uconf.name)
  cases hreply : server.getUconfStat no with
  | ok uconf =>
    rw [hreply] at hbind
    exact hbind
  | error e =>
    rw [hreply] at hbind
    exact hbind

theorem computes_getUconference (no : ℕ) :
    Computes server.personService (getUconference no) (server.uconference no) := by
  have hbind := (server.computes_uconference no).bind fun uconf _ =>
    Computes.pure (KomUConference.ofUconf no uconf)
  unfold uconference
  cases hreply : server.getUconfStat no with
  | ok uconf =>
    rw [hreply] at hbind
    exact hbind
  | error e =>
    rw [hreply] at hbind
    exact hbind

/-- `conf_name` raises nothing. -/
theorem computes_confName (no : ℕ) :
    Computes server.personService (PersonSession.confName no)
      (.ok (server.username .komSession no)) := by
  have hname := server.computes_uconfName no
  unfold PersonSession.confName username
  rcases server.getUconfStat_cases no with ⟨uconf, hreply⟩ | hreply
  · rw [hreply] at hname ⊢
    exact hname.tryCatch_ok
  · rw [hreply] at hname ⊢
    exact hname.tryCatch_error (Computes.pure [])

theorem computes_getPerson (persNo : ℕ) :
    Computes server.personService (PersonSession.getPerson persNo)
      (.ok (server.personName .komSession persNo)) :=
  (server.computes_confName persNo).bind_ok (Computes.pure _)

/-- Neither does the other class for the name of a person. -/
theorem computes_getPersonName (persNo : ℕ) :
    Computes server.personService (AioPersonSession.getPersonName persNo)
      (.ok (server.personName .aioKomSession persNo)) := by
  have hname := server.computes_uconfName persNo
  unfold AioPersonSession.getPersonName
  refine Computes.bind_ok ?_ (Computes.pure _)
  unfold username
  rcases server.getUconfStat_cases persNo with ⟨uconf, hreply⟩ | hreply
  · rw [hreply] at hname ⊢
    exact hname.tryCatch_ok
  · rw [hreply] at hname ⊢
    apply hname.tryCatch_error
    unfold undefinedConference
    by_cases hzero : persNo = 0
    · simp only [hzero, if_true]
      exact Computes.pure _
    · simp only [hzero, if_false]
      exact Computes.pure _

/-- Nor does it for the name of a conference, unless the number is 0. -/
theorem computes_aioConfName (confNo : ℕ) :
    Computes server.personService (SessionClass.aioConfName confNo) (server.confName confNo) := by
  have hname := server.computes_uconfName confNo
  unfold SessionClass.aioConfName confName
  rcases server.getUconfStat_cases confNo with ⟨uconf, hreply⟩ | hreply
  · rw [hreply] at hname ⊢
    exact hname.tryCatch_ok.bind_ok (Computes.pure _)
  · rw [hreply] at hname ⊢
    unfold undefinedConference at hname ⊢
    by_cases hzero : confNo = 0
    · simp only [hzero, if_true] at hname ⊢
      apply Computes.bind_error
      apply hname.tryCatch_error
      exact Computes.throw _
    · simp only [hzero, if_false] at hname ⊢
      refine Computes.bind_ok ?_ (Computes.pure _)
      apply hname.tryCatch_error
      exact Computes.pure _

/-! ## Exceptions that come from the server -/

def FromServer {α : Type} (x : Except Exn α) : Prop :=
  ∀ e, x = .error e → ∃ error, e = .serverError error

namespace FromServer

variable {α β : Type} {x : Except Exn α}

theorem ok {a : α} : FromServer (.ok a) := fun _ h => nomatch h

theorem bind {f : α → Except Exn β} (hx : FromServer x) (hf : ∀ a, FromServer (f a)) :
    FromServer (x >>= f) := by
  cases x with
  | ok a => exact hf a
  | error e =>
    intro e' he'
    obtain rfl := Except.error.inj he'
    exact hx e rfl

theorem map {f : α → β} (hx : FromServer x) : FromServer (x.map f) := by
  cases x with
  | ok a => exact ok
  | error e =>
    intro e' he'
    obtain rfl := Except.error.inj he'
    exact hx e rfl

theorem optional {read : ℕ → Except Exn α} (hread : ∀ confNo, FromServer (read confNo))
    (confNo : ℕ) : FromServer (optional read confNo) := by
  unfold ServerData.optional
  split
  · exact (hread confNo).map
  · exact ok

end FromServer

theorem fromServer_getUconfStat (no : ℕ) : FromServer (server.getUconfStat no) := by
  intro e he
  rcases server.getUconfStat_cases no with ⟨uconf, hreply⟩ | hreply
  · rw [hreply] at he
    exact nomatch he
  · rw [hreply] at he
    exact ⟨_, (Except.error.inj he).symm⟩

theorem fromServer_getConfStat (no : ℕ) : FromServer (server.getConfStat no) := by
  unfold getConfStat
  cases server.conferences no with
  | some conf => exact .ok
  | none => exact fun e he => ⟨_, (Except.error.inj he).symm⟩

theorem fromServer_getTextStat (no : ℕ) : FromServer (server.getTextStat no) := by
  unfold getTextStat
  cases server.textStats no with
  | some textStat => exact .ok
  | none => exact fun e he => ⟨_, (Except.error.inj he).symm⟩

theorem fromServer_uconference (confNo : ℕ) : FromServer (server.uconference confNo) :=
  (fromServer_getUconfStat confNo).map

theorem fromServer_confName (confNo : ℕ) : FromServer (server.confName confNo) := by
  have hstat := server.fromServer_getUconfStat confNo
  unfold confName
  cases hreply : server.getUconfStat confNo with
  | ok uconf => exact .ok
  | error e =>
    rw [hreply] at hstat
    by_cases hzero : confNo = 0
    · simp only [hzero, if_true]
      exact fun e' he' => hstat e' (by rw [Except.error.inj he'])
    · simp only [hzero, if_false]
      exact .ok

theorem fromServer_namedConference (confNo : ℕ) :
    FromServer (server.namedConference cls confNo) := by
  cases cls with
  | komSession => exact (fromServer_uconference confNo).map
  | aioKomSession => exact (fromServer_confName confNo).map

theorem fromServer_supervisor (confNo : ℕ) : FromServer (server.supervisor cls confNo) := by
  cases cls with
  | komSession => exact (fromServer_namedConference confNo).map
  | aioKomSession => exact .optional fromServer_namedConference confNo

theorem fromServer_conference (confNo : ℕ) : FromServer (server.conference cls confNo) := by
  apply (fromServer_getConfStat confNo).bind
  intro conf
  apply (FromServer.optional fromServer_namedConference conf.superConf).bind
  intro superConf
  apply (FromServer.optional fromServer_uconference conf.permittedSubmitters).bind
  intro permittedSubmitters
  apply (fromServer_supervisor conf.supervisor).bind
  intro supervisor
  exact .ok

/-! ## Operations of a session -/

/-- A method of the client has the same result as an operation of the session, whatever else
is kept of the session besides its client. -/
theorem computes_client_of {α : Type} {m : ClientM α} {x : Except Exn α}
    {keeps : SessionState → Prop} (hkeeps : ∀ s, keeps s → server.Mirrored s)
    (hput : ∀ s client, keeps s → server.MirroredClient client →
      keeps { s with client := s.client.map fun _ => client })
    (hm : Computes server.clientService m x) :
    Computes { server.sessionService with keeps } (SessionOp.client m) x := by
  intro s hs
  obtain ⟨client, hclient, hmirrored⟩ := hkeeps s hs
  have hget : ∀ s, keeps s → server.MirroredClient (s.client.getD client) := by
    intro s hs
    obtain ⟨other, hother, hmirrored⟩ := hkeeps s hs
    rw [hother]
    exact hmirrored
  rw [SessionOp.client_of_some hclient]
  refine Suspended.Computes.zoom (hm _ (hget s hs)) hget ?_ ?_ ?_ hs
  · exact fun client s hs hmirrored => hput s client hs hmirrored
  · exact fun call hreads => hreads
  · intro call reply hreply
    cases reply <;> exact hreply

theorem computes_client {α : Type} {m : ClientM α} {x : Except Exn α}
    (hm : Computes server.clientService m x) :
    Computes server.sessionService (SessionOp.client m) x := by
  refine computes_client_of (fun _ hs => hs) ?_ hm
  rintro s client ⟨other, hother, -⟩ hmirrored
  exact ⟨client, by rw [hother]; rfl, hmirrored⟩

theorem computes_ofPerson {α : Type} {m : PersonM α} {x : Except Exn α}
    (hm : Computes server.personService m x) (inTry : Bool) :
    Computes server.clientService (ClientState.ofPerson inTry m) x := by
  intro client hclient
  have hget : ∀ client, server.MirroredClient client → server.personService.keeps client.person :=
    fun client hclient no uconf hget => hclient.2.uconferences hget
  unfold ClientState.ofPerson
  refine Suspended.Computes.zoom (hm _ (hget client hclient)) hget ?_ ?_ ?_ hclient
  · rintro person client ⟨hconnected, hagrees⟩ hperson
    exact ⟨hconnected, fun hget => hperson _ _ hget, hagrees.conferences, hagrees.textstats⟩
  · exact fun req hreads => hreads
  · intro req reply hreply
    cases reply <;> exact hreply

theorem computes_person {α : Type} {m : PersonM α} {x : Except Exn α}
    (hm : Computes server.personService m x) (inTry : Bool) :
    Computes server.sessionService (SessionOp.person inTry m) x :=
  computes_client (computes_ofPerson hm inTry)

theorem computes_conference (no : ℕ) :
    Computes server.clientService (ClientState.conference no) (server.getConfStat no) := by
  apply Cache.computes_getitem
  · intro client conf hclient hget
    exact hclient.2.conferences hget
  · exact Computes.request trivial fun _ hreply => hreply
  · rintro client f hf ⟨hconnected, hagrees⟩
    refine ⟨hconnected, ⟨hagrees.uconferences, fun {k conf} hget => ?_, hagrees.textstats⟩⟩
    rw [hf] at hget
    exact hagrees.conferences hget
  · rintro client value hvalue ⟨hconnected, hagrees⟩
    refine ⟨hconnected, ⟨hagrees.uconferences, fun {k conf} hget => ?_, hagrees.textstats⟩⟩
    exact Cache.of_get?_setitem (P := fun no conf => server.getConfStat no = .ok conf) hvalue
      hagrees.conferences hget

theorem computes_textstat (no : ℕ) :
    Computes server.clientService (ClientState.textstat no) (server.getTextStat no) := by
  apply Cache.computes_getitem
  · intro client textStat hclient hget
    exact hclient.2.textstats hget
  · exact Computes.request trivial fun _ hreply => hreply
  · rintro client f hf ⟨hconnected, hagrees⟩
    refine ⟨hconnected, ⟨hagrees.uconferences, hagrees.conferences, fun {k textStat} hget => ?_⟩⟩
    rw [hf] at hget
    exact hagrees.textstats hget
  · rintro client value hvalue ⟨hconnected, hagrees⟩
    refine ⟨hconnected, ⟨hagrees.uconferences, hagrees.conferences, fun {k textStat} hget => ?_⟩⟩
    exact Cache.of_get?_setitem (P := fun no textStat => server.getTextStat no = .ok textStat)
      hvalue hagrees.textstats hget

/-- The decorator changes nothing, unless the connection fails. -/
theorem computes_checkConnection {α : Type} {op : SessionOp α} {x : Except Exn α}
    (hop : Computes server.sessionService op x) (hx : FromServer x) :
    Computes server.sessionService (cls.checkConnection op) x := by
  have hcaught : Computes server.sessionService (tryCatch op SessionClass.onError) x := by
    cases x with
    | ok a => exact hop.tryCatch_ok
    | error e =>
      apply hop.tryCatch_error
      obtain ⟨error, rfl⟩ := hx e rfl
      exact Computes.throw _
  intro s hs
  rw [SessionClass.checkConnection_of_connected hs.isConnected]
  exact hcaught s hs

theorem computes_getPersonNameOp (persNo : ℕ) :
    Computes server.sessionService (cls.getPersonName persNo)
      (.ok (server.personName cls persNo)) := by
  cases cls with
  | komSession => exact computes_person (server.computes_getPerson persNo) true
  | aioKomSession => exact computes_person (server.computes_getPersonName persNo) false

theorem computes_getKomAuxItem (auxItem : AuxItem) :
    Computes server.sessionService (cls.getKomAuxItem auxItem) (.ok (server.auxItem cls auxItem)) :=
  (computes_getPersonNameOp auxItem.creator).bind_ok (Computes.pure _)

theorem computes_auxItems (auxItems : List AuxItem) :
    Computes server.sessionService (auxItems.mapM cls.getKomAuxItem)
      (.ok (auxItems.map (server.auxItem cls))) := by
  have hitems := Computes.mapM (l := auxItems)
    (g := fun auxItem => .ok (server.auxItem cls auxItem))
    fun auxItem _ => computes_getKomAuxItem auxItem
  rwa [show auxItems.mapM (fun auxItem => (.ok (server.auxItem cls auxItem) : Except Exn _)) =
    .ok (auxItems.map (server.auxItem cls)) from List.mapM_pure] at hitems

theorem computes_getUconferenceOp (confNo : ℕ) :
    Computes server.sessionService (SessionClass.getUconference confNo)
      (server.uconference confNo) :=
  computes_person (server.computes_getUconference confNo) false

/-- The class that asks for names checks its connection once more. -/
theorem computes_getConfName (confNo : ℕ) :
    Computes server.sessionService (SessionClass.getConfName .aioKomSession confNo)
      (server.confName confNo) :=
  computes_checkConnection (computes_person (server.computes_aioConfName confNo) false)
    (fromServer_confName confNo)

theorem computes_optional {α : Type} {read : ℕ → SessionOp α} {x : ℕ → Except Exn α}
    (hread : ∀ confNo, Computes server.sessionService (read confNo) (x confNo)) (confNo : ℕ) :
    Computes server.sessionService (SessionClass.optional read confNo) (optional x confNo) := by
  unfold SessionClass.optional optional
  by_cases hzero : confNo ≠ 0
  · rw [if_pos hzero, if_pos hzero]
    exact (hread confNo).map
  · rw [if_neg hzero, if_neg hzero]
    exact Computes.pure none

theorem computes_getNamedConference (confNo : ℕ) :
    Computes server.sessionService (cls.getNamedConference confNo)
      (server.namedConference cls confNo) := by
  cases cls with
  | komSession => exact (computes_getUconferenceOp confNo).map
  | aioKomSession => exact (computes_getConfName confNo).map

theorem computes_getSupervisor (confNo : ℕ) :
    Computes server.sessionService (cls.getSupervisor confNo) (server.supervisor cls confNo) := by
  cases cls with
  | komSession => exact (computes_getNamedConference confNo).map
  | aioKomSession => exact computes_optional computes_getNamedConference confNo

theorem computes_getConferenceFull (confNo : ℕ) :
    Computes server.sessionService (cls.getConferenceFull confNo)
      (server.conference cls confNo) := by
  apply (computes_client (server.computes_conference confNo)).bind
  intro conf _
  apply (computes_auxItems conf.auxItems).bind_ok
  apply (computes_optional computes_getNamedConference conf.superConf).bind
  intro superConf _
  apply (computes_optional computes_getUconferenceOp conf.permittedSubmitters).bind
  intro permittedSubmitters _
  apply (computes_getPersonNameOp conf.creator).bind_ok
  apply (computes_getSupervisor conf.supervisor).bind
  intro supervisor _
  exact Computes.pure _

theorem computes_getKomTextStat (textNo : ℕ) (textStat : TextStat) :
    Computes server.sessionService (cls.getKomTextStat textNo textStat)
      (.ok (.ofTextStat textNo textStat (textStat.auxItems.map (server.auxItem cls))
        (server.personName cls textStat.author))) := by
  apply (computes_getPersonNameOp textStat.author).bind_ok
  apply (computes_auxItems textStat.auxItems).bind_ok
  exact Computes.pure _

theorem computes_getConference (confNo : ℕ) (micro : Bool) :
    Computes server.sessionService (cls.getConference confNo micro)
      (server.getConference cls confNo micro) := by
  unfold SessionClass.getConference getConference
  cases micro with
  | true =>
    apply computes_checkConnection _ (fromServer_uconference confNo).map
    exact (computes_getUconferenceOp confNo).map
  | false =>
    apply computes_checkConnection _ (fromServer_conference confNo).map
    exact (computes_getConferenceFull confNo).map

theorem computes_getTextStat (textNo : ℕ) :
    Computes server.sessionService (cls.getTextStat textNo) (server.komTextStat cls textNo) := by
  apply computes_checkConnection
  · apply (computes_client (server.computes_textstat textNo)).bind
    intro textStat _
    exact computes_getKomTextStat textNo textStat
  · apply (fromServer_getTextStat textNo).bind
    intro textStat
    exact .ok

end ServerData
end Pylyskom
