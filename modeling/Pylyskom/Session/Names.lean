import Pylyskom.Coroutine.Sessions
import Pylyskom.Session.Servers

/-!
# Names of conferences and persons

A session looks up names, regular expressions and numbers with a server that knows what they
stand for. The numbers are looked up in a cache that agrees with the server, which must not
show.
-/

namespace Pylyskom

/-! ## The server -/

/-- A server that finds conferences, in an order of its own, by name and by regular expression. -/
structure NameServer where
  data : ServerData
  named : Bytes → List ℕ
  matching : Bytes → List ℕ

theorem letterbox_lt_length : 3 < 8 := by decide

/-- Whether a conference is of the wanted kind; the letterboxes are those of the persons. -/
def Wanted (type : Bitstring 8) (wantPers wantConfs : Bool) : Bool :=
  (wantPers && type.get ⟨3, letterbox_lt_length⟩) ||
    (wantConfs && !type.get ⟨3, letterbox_lt_length⟩)

namespace NameServer

variable (server : NameServer)

/-- The conferences among these that exist and are of the wanted kind. -/
def wanted (nos : List ℕ) (wantPers wantConfs : Bool) : List (ℕ × UConference) :=
  nos.filterMap fun no => (server.data.conferences no).bind fun conf =>
    if Wanted conf.1.type wantPers wantConfs then some (no, conf.1) else none

/-- What is sent of a conference that was found. -/
def info (no : ℕ) (uconf : UConference) : ConfZInfo := ⟨uconf.name, uconf.type.take 4, no⟩

/-- How the server handles a request. That for a conference with a negative number it refuses
with any error, if `negative` says that it can be made at all. -/
def Handles (negative : Prop) : Handling Unit
  | _, .lookupZName name wantPers wantConfs, reply, _ =>
    reply = .ok ((server.wanted (server.named name) wantPers wantConfs).map fun x => info x.1 x.2)
  | _, .reZLookup regexp wantPersons wantConfs, reply, _ =>
    reply = .ok
      ((server.wanted (server.matching regexp) wantPersons wantConfs).map fun x => info x.1 x.2)
  | _, .person (.getNegativeUconfStat _), _, _ => negative
  | _, req, reply, _ => req.Reads ∧ server.data.Replies req reply

abbrev Serves (negative : Prop) := Handling.Serves (server.Handles negative)

/-! ## What is found -/

open Classical in
/-- The number that is written after a number sign, if there is one. -/
noncomputable def numbersOf (name : Str) : List ℕ :=
  if h : ∃ no : ℕ, Writes decimalValue isBlank (name.drop 1) no then [h.choose] else []

/-- A number stands for itself, and anything else is sent in latin-1. -/
noncomputable def sought (find : Bytes → List ℕ) (name : Str) : Except Exn (List ℕ) :=
  if name.take 1 = ['#'] then .ok (numbersOf name) else (ClientState.string name).map find

/-- What should be found. -/
noncomputable def found (find : Bytes → List ℕ) (name : Str) (wantPers wantConfs : Bool) :
    Except Exn (List (ℕ × Str)) :=
  (sought find name).map fun nos =>
    (server.wanted nos wantPers wantConfs).map fun x => (x.1, latin1Decode x.2.name)

end NameServer

inductive LookupCall : Type
  | lookupName (name : Str) (wantPers wantConfs : Bool)
  | reLookupName (regexp : Str) (wantPers wantConfs : Bool)
  | lookupNameExact (name : Str) (wantPers wantConfs : Bool)
  | reLookupNameExact (regexp : Str) (wantPers wantConfs : Bool)

namespace LookupCall

def name : LookupCall → Str
  | lookupName name _ _ | reLookupName name _ _ => name
  | lookupNameExact name _ _ | reLookupNameExact name _ _ => name

abbrev Result : LookupCall → Type
  | lookupName .. | reLookupName .. => List (ℕ × Str)
  | lookupNameExact .. | reLookupNameExact .. => ℕ

def body (cls : SessionClass) : (call : LookupCall) → SessionOp call.Result
  | lookupName name wantPers wantConfs => cls.lookupName (.str name) wantPers wantConfs
  | reLookupName regexp wantPers wantConfs => cls.reLookupName regexp wantPers wantConfs
  | lookupNameExact name wantPers wantConfs => cls.lookupNameExact name wantPers wantConfs
  | reLookupNameExact regexp wantPers wantConfs => cls.reLookupNameExact regexp wantPers wantConfs

/-- What the call should return or raise. -/
noncomputable def answer (server : NameServer) : (call : LookupCall) → Except Exn call.Result
  | lookupName name wantPers wantConfs => server.found server.named name wantPers wantConfs
  | reLookupName regexp wantPers wantConfs =>
    server.found server.matching regexp wantPers wantConfs
  | lookupNameExact name wantPers wantConfs =>
    server.found server.named name wantPers wantConfs >>= SessionClass.exactLookupMatch name
  | reLookupNameExact regexp wantPers wantConfs =>
    server.found server.matching regexp wantPers wantConfs >>=
      SessionClass.exactLookupMatch regexp

end LookupCall

/-! ## Lookups -/

/-- A request of the client and what is made of its reply. -/
theorem SessionOp.client_request_map {α : Type} {req : ClientRequest} {g : req.Reply → α}
    {s : SessionState} {self : ClientState} (hclient : s.client = some self) :
    SessionOp.client (do
        let reply ← ClientState.request req
        return g reply) s =
      (do
        let reply ← SessionOp.request req
        return g reply : SessionOp α) s := by
  change _ = (SessionOp.request req s).andThen fun reply => (pure (g reply) : SessionOp α)
  rw [SessionOp.request_of_some hclient, SessionOp.client_of_some hclient]
  change Suspended.await _ _ (fun reply t => _) = Suspended.await _ _ fun reply t => _
  congr 1
  · exact putClient_getD s self
  · funext reply t
    cases reply with
    | ok reply => exact congrArg (Suspended.done _) (putClient_getD t self)
    | error e => exact congrArg (Suspended.done _) (putClient_getD t self)

/-- A lookup of a negative number asks the server for it, and finds nothing. -/
theorem SessionOp.client_lookupNumber_negSucc {name : Str} {wantPers wantConfs : Bool} {n : ℕ}
    (hparse : parseInt (name.drop 1) = .ok (.negSucc n)) {s : SessionState} {self : ClientState}
    (hclient : s.client = some self) :
    SessionOp.client (ClientState.ofPerson true
        (ClientState.lookupNumber name wantPers wantConfs)) s =
      .await s (⟨true, .person (.getNegativeUconfStat n)⟩ : ClientCall)
        fun _ t => .done (.ok []) t := by
  have hlookup : ∀ person, ClientState.lookupNumber name wantPers wantConfs person =
      .await person (.getNegativeUconfStat n) fun _ t => .done (.ok []) t := by
    intro person
    unfold ClientState.lookupNumber
    rw [hparse]
    change Suspended.await _ _ _ = Suspended.await _ _ _
    congr 1
    funext reply t
    cases reply with
    | ok found => exact nomatch found
    | error e => rfl
  rw [SessionOp.client_of_some hclient, ClientState.ofPerson, hlookup]
  change Suspended.await _ _ (fun reply t => _) = Suspended.await _ _ fun reply t => _
  congr 1
  · exact putClient_getD s self
  · funext reply t
    exact congrArg (Suspended.done _) (putClient_getD t self)

namespace NameServer

variable {server : NameServer} {cls : SessionClass} {negative : Prop}

theorem mem_numbersOf {name : Str} {no : ℕ} :
    no ∈ numbersOf name ↔ parseInt (name.drop 1) = .ok no := by
  rw [parseInt_eq_ok_iff, numbersOf]
  split
  · next h =>
    rw [List.mem_singleton]
    constructor
    · rintro rfl
      exact h.choose_spec
    · exact fun hno => Int.ofNat.inj (hno.unique separate_decimalValue h.choose_spec)
  · next h => exact ⟨fun hmem => absurd hmem List.not_mem_nil, fun hno => absurd ⟨no, hno⟩ h⟩

/-- The number that `int` reads. -/
theorem numbersOf_of_parseInt {name : Str} {no : ℕ} (h : parseInt (name.drop 1) = .ok no) :
    numbersOf name = [no] := by
  have hwrites : ∃ no : ℕ, Writes decimalValue isBlank (name.drop 1) no :=
    ⟨no, parseInt_eq_ok_iff.mp h⟩
  have hmem := mem_numbersOf.mpr h
  rw [numbersOf, dif_pos hwrites, List.mem_singleton] at hmem
  rw [numbersOf, dif_pos hwrites, ← hmem]

theorem numbersOf_eq_nil {name : Str} (h : ∀ no : ℕ, parseInt (name.drop 1) ≠ .ok no) :
    numbersOf name = [] :=
  List.eq_nil_iff_forall_not_mem.mpr fun no hmem => h no (mem_numbersOf.mp hmem)

/-- A name that is not a number sign with a negative number. -/
def NotNegative (name : Str) : Prop :=
  name.take 1 = ['#'] → ∀ n : ℤ, Writes decimalValue isBlank (name.drop 1) n → 0 ≤ n

/-- A connected session whose cached conferences are those of the server. -/
abbrev At (server : NameServer) (s : SessionState × Unit) : Prop :=
  server.data.Mirrored s.1 ∧ True

theorem computes_lookupNumber {name : Str} {wantPers wantConfs : Bool} {x : Except Exn ℤ}
    (hparse : parseInt (name.drop 1) = x) (hx : ∀ n, x ≠ .ok (.negSucc n)) :
    Computes server.data.personService (ClientState.lookupNumber name wantPers wantConfs)
      (.ok ((server.wanted (numbersOf name) wantPers wantConfs).map
        fun x => (x.1, latin1Decode x.2.name))) := by
  unfold ClientState.lookupNumber
  rw [hparse]
  match x with
  | .error e =>
    rw [numbersOf_eq_nil fun no hno => nomatch hparse.symm.trans hno]
    exact Computes.tryCatch_error (Computes.bind_error (Computes.throw e)) (Computes.pure [])
  | .ok (.negSucc n) => exact absurd rfl (hx n)
  | .ok (.ofNat no) =>
    rw [numbersOf_of_parseInt hparse]
    have hread := server.data.computes_uconference no
    unfold wanted
    unfold ServerData.getUconfStat at hread
    cases hconf : server.data.conferences no with
    | none =>
      simp only [hconf] at hread
      simp only [List.filterMap_cons, hconf, Option.bind_none]
      refine Computes.tryCatch_error (e := ServerData.undefinedConference no) ?_
        (Computes.pure [])
      exact Computes.bind_ok (Computes.pure (no : ℤ)) hread.bind_error
    | some conf =>
      simp only [hconf] at hread
      simp only [List.filterMap_cons, hconf, Option.bind_some]
      refine Computes.tryCatch_ok ?_
      refine Computes.bind_ok (Computes.pure (no : ℤ)) (hread.bind_ok (hread.bind_ok ?_))
      change Computes _ (if Wanted conf.1.type wantPers wantConfs = true then _ else _) _
      by_cases hwanted : Wanted conf.1.type wantPers wantConfs
      · rw [if_pos hwanted, if_pos hwanted]
        exact Computes.pure _
      · rw [if_neg hwanted, if_neg hwanted]
        exact Computes.pure _

theorem handles_of_reads {w after : Unit} {req : ClientRequest} (hreads : req.Reads)
    {reply : Except Exn req.Reply} :
    server.Handles negative w req reply after ↔ after = w ∧ server.data.Replies req reply := by
  rcases hreads.cases with ⟨no, rfl⟩ | ⟨no, rfl⟩ | ⟨no, rfl⟩ <;>
    exact ⟨fun h => ⟨rfl, h.2⟩, fun h => ⟨trivial, h.2⟩⟩

theorem triple_client {α : Type} {m : ClientM α} {x : Except Exn α}
    (hm : Computes server.data.clientService m x) :
    Triple (server.Serves negative) server.At (SessionOp.client m)
      fun result s => result = x ∧ server.At s :=
  Handling.triple_data (server.Handles negative) (P := fun _ => True)
    (ServerData.computes_client hm)
    fun _ hreads => handles_of_reads hreads

/-- A number is looked up in the cache. -/
theorem triple_lookupNumber {name : Str} (hname : negative ∨ NotNegative name)
    (hnumber : name.take 1 = ['#']) (wantPers wantConfs : Bool) :
    Triple (server.Serves negative) server.At
      (SessionOp.client (ClientState.ofPerson true
        (ClientState.lookupNumber name wantPers wantConfs)))
      fun result s => result = .ok ((server.wanted (numbersOf name) wantPers wantConfs).map
        fun x => (x.1, latin1Decode x.2.name)) ∧ server.At s := by
  by_cases hparse : ∃ n, parseInt (name.drop 1) = .ok (.negSucc n)
  · obtain ⟨n, hparse⟩ := hparse
    have hnegative : negative := by
      refine hname.resolve_right fun hname => ?_
      exact absurd (hname hnumber _ (parseInt_eq_ok_iff.mp hparse)) (by simp)
    have hnone : numbersOf name = [] := numbersOf_eq_nil fun no hno => by
      cases hparse.symm.trans hno
    rintro s w ⟨hs, -⟩
    have ⟨client, hclient, _⟩ := hs
    rw [SessionOp.client_lookupNumber_negSucc hparse hclient, hnone]
    refine ⟨⟨.error (.builtinError .valueError), (s, w), .refl s, hnegative⟩, ?_⟩
    exact fun reply t hserved => ⟨rfl, hs.forgets hserved.1, trivial⟩
  · rw [not_exists] at hparse
    exact triple_client (ServerData.computes_ofPerson (computes_lookupNumber rfl hparse) true)

/-- The server is asked for what it finds. -/
theorem triple_request {α : Type} (req : ClientRequest) (g : req.Reply → α) {value : req.Reply}
    (hhandles : ∀ reply, server.Handles negative () req reply () ↔ reply = .ok value) :
    Triple (server.Serves negative) server.At
      (SessionOp.client do
        let reply ← ClientState.request req
        return g reply)
      fun result s => result = .ok (g value) ∧ server.At s := by
  apply Triple.congr (do
    let reply ← SessionOp.request req
    return g reply)
  · have hrequest := @Handling.triple_request _ (server.Handles negative) server.data
      (fun _ => True)
      ⟨false, req⟩ (SessionOp.request req) (fun reply _ => reply = .ok value)
      (fun s client hclient => SessionOp.request_of_some hclient) fun _ _ =>
        ⟨⟨.ok value, (), (hhandles _).mpr rfl⟩, fun reply _ h => (hhandles reply).mp h⟩
    refine hrequest.bind (fun reply => ?_) ?_
    · exact Triple.pure fun s hs => ⟨by rw [Except.ok.inj hs.1], hs.2, trivial⟩
    · rintro e s ⟨he, -⟩
      cases he
  · rintro s ⟨⟨client, hclient, -⟩, -⟩
    exact SessionOp.client_request_map hclient

theorem matchesOf_map_info (found : List (ℕ × UConference)) :
    ClientState.matchesOf (found.map fun x => info x.1 x.2) =
      found.map fun x => (x.1, latin1Decode x.2.name) := by
  unfold ClientState.matchesOf
  rw [List.map_map]
  rfl

theorem triple_clientLookupName {name : Str} (hname : negative ∨ NotNegative name)
    (wantPers wantConfs : Bool) :
    Triple (server.Serves negative) server.At
      (SessionOp.client (ClientState.lookupName name wantPers wantConfs))
      fun result s => result = server.found server.named name wantPers wantConfs ∧
        server.At s := by
  unfold ClientState.lookupName found sought
  by_cases hnumber : name.take 1 = ['#']
  · rw [if_pos hnumber, if_pos hnumber]
    exact triple_lookupNumber hname hnumber wantPers wantConfs
  · rw [if_neg hnumber, if_neg hnumber]
    cases ClientState.string name with
    | error e => exact triple_client (Computes.bind_error (Computes.throw e))
    | ok bytes =>
      have hrequest : Triple (server.Serves negative) _ _ _ := triple_request
        (.lookupZName bytes wantPers wantConfs) ClientState.matchesOf fun reply => Iff.rfl
      rw [matchesOf_map_info] at hrequest
      exact hrequest

theorem triple_clientRegexpLookup {regexp : Str} (hname : negative ∨ NotNegative regexp)
    (wantPers wantConfs : Bool) :
    Triple (server.Serves negative) server.At
      (SessionOp.client (ClientState.regexpLookup regexp wantPers wantConfs))
      fun result s => result = server.found server.matching regexp wantPers wantConfs ∧
        server.At s := by
  unfold ClientState.regexpLookup
  by_cases hnumber : regexp.take 1 = ['#']
  · rw [if_pos hnumber]
    have hlookup : Triple (server.Serves negative) _ _ _ :=
      triple_clientLookupName hname wantPers wantConfs
    unfold found sought at hlookup ⊢
    rw [if_pos hnumber] at hlookup ⊢
    exact hlookup
  · unfold found sought
    rw [if_neg hnumber, if_neg hnumber]
    cases ClientState.string regexp with
    | error e => exact triple_client (Computes.bind_error (Computes.throw e))
    | ok bytes =>
      have hrequest : Triple (server.Serves negative) _ _ _ := triple_request
        (.reZLookup bytes wantPers wantConfs) ClientState.matchesOf fun reply => Iff.rfl
      rw [matchesOf_map_info] at hrequest
      exact hrequest

/-- Nothing that a lookup raises comes from the socket. -/
theorem found_not_socketError {find : Bytes → List ℕ} {name : Str} {wantPers wantConfs : Bool}
    {e : Exn} (h : server.found find name wantPers wantConfs = .error e) (errno : Errno) :
    e ≠ .socketError errno := by
  rintro rfl
  unfold found sought ClientState.string at h
  split at h
  · cases h
  · split at h
    · cases h
    · cases h

theorem triple_lookupName {name : Str} (hname : negative ∨ NotNegative name)
    (wantPers wantConfs : Bool) :
    Triple (server.Serves negative) server.At (cls.lookupName (.str name) wantPers wantConfs)
      fun result s => result = server.found server.named name wantPers wantConfs ∧
        server.At s := by
  apply SessionClass.triple_checkConnection fun s hs => hs.1.isConnected
  · exact triple_clientLookupName hname wantPers wantConfs
  · exact fun e s he => found_not_socketError he.1.symm

theorem triple_reLookupName {regexp : Str} (hname : negative ∨ NotNegative regexp)
    (wantPers wantConfs : Bool) :
    Triple (server.Serves negative) server.At (cls.reLookupName regexp wantPers wantConfs)
      fun result s => result = server.found server.matching regexp wantPers wantConfs ∧
        server.At s := by
  apply SessionClass.triple_checkConnection fun s hs => hs.1.isConnected
  · exact triple_clientRegexpLookup hname wantPers wantConfs
  · exact fun e s he => found_not_socketError he.1.symm

/-- The match of a lookup is taken, if it is the only one. -/
theorem triple_exact {op : SessionOp (List (ℕ × Str))} {x : Except Exn (List (ℕ × Str))}
    (name : Str)
    (hop : Triple (server.Serves negative) server.At op fun result s => result = x ∧ server.At s) :
    Triple (server.Serves negative) server.At
      (do
        let found ← op
        ofExcept (SessionClass.exactLookupMatch name found))
      fun result s => result = x >>= SessionClass.exactLookupMatch name ∧ server.At s := by
  refine hop.bind (fun found => Triple.of_imp ?_) ?_
  · rintro rfl
    change Triple _ _ _ fun result s => result = SessionClass.exactLookupMatch name found ∧ _
    cases SessionClass.exactLookupMatch name found with
    | ok no => exact Triple.pure fun s hs => ⟨rfl, hs⟩
    | error e => exact Triple.throw fun s hs => ⟨rfl, hs⟩
  · rintro e s ⟨rfl, hs⟩
    exact ⟨rfl, hs⟩

/-- Each call has its answer. -/
theorem triple_body (call : LookupCall) (hcall : negative ∨ NotNegative call.name) :
    Triple (server.Serves negative) server.At (call.body cls)
      fun result s => result = call.answer server ∧ server.At s := by
  cases call with
  | lookupName name wantPers wantConfs => exact triple_lookupName hcall wantPers wantConfs
  | reLookupName regexp wantPers wantConfs => exact triple_reLookupName hcall wantPers wantConfs
  | lookupNameExact name wantPers wantConfs =>
    exact triple_exact name (triple_lookupName hcall wantPers wantConfs)
  | reLookupNameExact regexp wantPers wantConfs =>
    exact triple_exact regexp (triple_reLookupName hcall wantPers wantConfs)

/-! ## What the answers say -/

theorem mem_wanted {nos : List ℕ} {wantPers wantConfs : Bool} {no : ℕ} {uconf : UConference} :
    (no, uconf) ∈ server.wanted nos wantPers wantConfs ↔
      no ∈ nos ∧ (∃ conf, server.data.conferences no = some (uconf, conf)) ∧
        Wanted uconf.type wantPers wantConfs = true := by
  unfold wanted
  simp only [List.mem_filterMap, Option.bind_eq_some_iff]
  constructor
  · rintro ⟨other, hmem, ⟨found, conf⟩, hconf, hfound⟩
    split at hfound
    · next hwanted =>
      obtain ⟨rfl, rfl⟩ := Prod.mk.inj (Option.some.inj hfound)
      exact ⟨hmem, ⟨conf, hconf⟩, hwanted⟩
    · cases hfound
  · rintro ⟨hmem, ⟨conf, hconf⟩, hwanted⟩
    exact ⟨no, hmem, (uconf, conf), hconf, if_pos hwanted⟩

/-- The number that an exact lookup returns is that of a conference of the wanted kind, and no
other one was found. -/
theorem exists_of_exact {find : Bytes → List ℕ} {name : Str} {wantPers wantConfs : Bool} {no : ℕ}
    (h : server.found find name wantPers wantConfs >>= SessionClass.exactLookupMatch name =
      .ok no) :
    ∃ uconf conf, server.data.conferences no = some (uconf, conf) ∧
      Wanted uconf.type wantPers wantConfs = true ∧
      server.found find name wantPers wantConfs = .ok [(no, latin1Decode uconf.name)] := by
  obtain ⟨found, hfound, hexact⟩ := bind_eq_ok_iff.mp h
  have hone : ∃ shown, found = [(no, shown)] := by
    unfold SessionClass.exactLookupMatch at hexact
    split at hexact
    · cases hexact
    · obtain rfl := Except.ok.inj hexact
      exact ⟨_, rfl⟩
    · cases hexact
  obtain ⟨shown, rfl⟩ := hone
  have hall := hfound
  unfold NameServer.found at hfound
  cases hnos : sought find name with
  | error e =>
    rw [hnos] at hfound
    cases hfound
  | ok nos =>
    rw [hnos] at hfound
    have hmap := Except.ok.inj hfound
    obtain ⟨⟨other, uconf⟩, hwanted, heq⟩ := List.map_eq_singleton_iff.mp hmap
    obtain ⟨rfl, rfl⟩ := Prod.mk.inj heq
    have hmem : (other, uconf) ∈ server.wanted nos wantPers wantConfs := by
      rw [hwanted]
      exact List.mem_singleton_self _
    obtain ⟨-, ⟨conf, hconf⟩, hkind⟩ := mem_wanted.mp hmem
    exact ⟨uconf, conf, hconf, hkind, hall⟩

end NameServer

/-! ## Runs -/

abbrev LookupEvent : Type := CallEvent Exn LookupCall.Result

/-- A session that looks up names. -/
def LookupCall.session (cls : SessionClass) (calls : List LookupCall) :
    SessionOp (List LookupEvent) :=
  Coroutine.session (LookupCall.body cls) calls

/-- Calls with the answers that they should get. -/
noncomputable def LookupCall.answered (server : NameServer) (calls : List LookupCall) :
    List LookupEvent :=
  calls.map fun call => ⟨call, call.answer server⟩

/-- A lookup changes nothing at the server. -/
abbrev LookupCall.Right (server : NameServer) (_ : Unit) (call : LookupCall)
    (result : Except Exn call.Result) (_ : Unit) : Prop :=
  result = call.answer server

theorem LookupCall.eq_answered {server : NameServer} {a b : Unit} {events : List LookupEvent}
    (h : Trace (LookupCall.Right server) a events b) :
    events = LookupCall.answered server (events.map CallEvent.call) := by
  induction h with
  | nil a => rfl
  | @cons a b c event events hright _ ih =>
    obtain ⟨call, result⟩ := event
    obtain rfl : result = call.answer server := hright
    exact congrArg (_ :: ·) ih

section

variable {server : NameServer} {cls : SessionClass} {s : SessionState} {calls : List LookupCall}

theorem NameServer.triple_session {negative : Prop}
    (hcalls : ∀ call ∈ calls, negative ∨ NotNegative call.name) :
    Triple (server.Serves negative) server.At (LookupCall.session cls calls)
      (Returning fun events _ => events = LookupCall.answered server calls) := by
  have hbody : ∀ (_ : ℕ) (a : Unit), ∀ call ∈ calls, Triple (server.Serves negative) server.At
      (LookupCall.body cls call) fun result s => ∃ b, LookupCall.Right server a call result b ∧
        server.At s := by
    intro _ a call hmem
    refine (NameServer.triple_body call (hcalls call hmem)).weaken ?_
    exact fun result s hresult => ⟨(), hresult⟩
  have hsession := Triple.session (J := fun _ _ => server.At) hbody (n := 0) (a := ())
  refine hsession.weaken ?_
  rintro (e | events) t h
  · exact h
  · obtain ⟨hdone, _, htrace, -⟩ := h
    have hevents := LookupCall.eq_answered htrace
    rwa [hdone] at hevents

/-- **Lookups** return what the server knows, whatever is in the caches if it agrees with the
server: the session comes to an end, and each of its calls has got its answer. -/
theorem lookups_right (hs : server.data.Mirrored s) :
    (LookupCall.session cls calls s).Achieves (server.Serves True) () fun result _ =>
      result = .ok (LookupCall.answered server calls) := by
  refine Suspended.Achieves.mono
    (server.triple_session (fun _ _ => Or.inl trivial) s () ⟨hs, trivial⟩) ?_
  rintro (e | events) t hend
  · exact hend.elim
  · exact congrArg Except.ok hend

end

/-! ## A sample -/

/-- It finds the conference 1 for every name that begins with "In". -/
def sampleNames : NameServer where
  data := ServerData.sampleServer
  named name := if name.take 2 = ascii "In" then [1] else []
  matching _ := []

def sampleLookups : List LookupCall :=
  [.lookupName "#1".toList false true, .lookupNameExact "Inb".toList false true,
    .reLookupNameExact "O.*".toList false true]

def sampleAnswers : List LookupEvent :=
  [⟨.lookupName "#1".toList false true, .ok [(1, "Inbox".toList)]⟩,
    ⟨.lookupNameExact "Inb".toList false true, .ok 1⟩,
    ⟨.reLookupNameExact "O.*".toList false true,
      .error (.komSessionError (.nameNotFound "O.*".toList))⟩]

theorem answered_sampleLookups :
    LookupCall.answered sampleNames sampleLookups = sampleAnswers := by
  have hone : NameServer.numbersOf "#1".toList = [1] := NameServer.numbersOf_of_parseInt rfl
  simp only [LookupCall.answered, sampleLookups, List.map_cons, LookupCall.answer,
    NameServer.found, NameServer.sought, hone]
  rfl

/-- A negative number is that of no conference. -/
theorem answer_negative : LookupCall.answer sampleNames (.lookupName "#-1".toList false true) =
    .ok [] := by
  have hnone : NameServer.numbersOf "#-1".toList = [] :=
    NameServer.numbersOf_eq_nil fun no h => by cases h
  simp only [LookupCall.answer, NameServer.found, NameServer.sought, hnone]
  rfl

theorem lookups_right_sample :
    ∃ t, (LookupCall.session .komSession
        (.lookupName "#-1".toList false true :: sampleLookups)
        ⟨some { ClientState.init with connected := true }, some 1, none, none⟩).Ends
      (sampleNames.Serves True) ()
      (.ok (⟨.lookupName "#-1".toList false true, .ok []⟩ :: sampleAnswers)) t := by
  have hachieves := @lookups_right sampleNames .komSession _
    (.lookupName "#-1".toList false true :: sampleLookups)
    (ServerData.mirrored_connected (some 1) none none)
  obtain ⟨result, t, hends⟩ := hachieves.exists_ends
  obtain rfl := hachieves.of_ends hends
  rw [LookupCall.answered, List.map_cons, answer_negative] at hends
  rw [← answered_sampleLookups]
  exact ⟨t, hends⟩

end Pylyskom
