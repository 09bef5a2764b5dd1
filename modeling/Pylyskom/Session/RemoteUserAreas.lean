import Pylyskom.Session.Remote
import Pylyskom.Session.UserAreas

/-!
# User areas over the wire

A program for a server that keeps texts and user areas, and a session that sets and gets blocks
of user areas with it, through the blocking client and the two streams of bytes.
-/

namespace Pylyskom

namespace UserAreaServer

variable {μ : Type}

open Requests

/-- The request that a session has made. It asks for whole texts. -/
def request (req : ReadRequest μ) : Option ClientRequest :=
  match req.args with
  | [.int no] =>
    (readRequests no ++ [(GET_PERSON_STAT, ClientRequest.getPersonStat no)]).lookup req.callNo
  | [.int persNo, .int userArea] =>
    [(SET_USER_AREA, .setUserArea persNo userArea)].lookup req.callNo
  | [.int textNo, .int startChar, .int endChar] =>
    if startChar = 0 ∧ endChar = MAX_TEXT_SIZE then [(GET_TEXT, .getText textNo)].lookup req.callNo
    else none
  | [.string text, .miscInfo _, .arrayAuxItemInput auxItems] =>
    [(CREATE_TEXT, .createText text {} auxItems)].lookup req.callNo
  | _ => none

theorem lookup_of_request {req : ReadRequest μ} {made : ClientRequest}
    (h : request req = some made) : responseDict.lookup req.callNo = some made.responseType := by
  unfold request at h
  split at h
  · exact ((answerable_readRequests _).append (.single rfl)).lookup h
  · exact (Answerable.single rfl).lookup h
  · split_ifs at h
    exact (Answerable.single rfl).lookup h
  · exact (Answerable.single rfl).lookup h
  · cases h

variable (server : UserAreaServer)

/-- This server refuses nothing. -/
def reply (store : TextStore) : (req : ClientRequest) → Except Exn req.Reply
  | .getTextStat no => (server.data store).getTextStat no
  | .getConfStat no => (server.data store).getConfStat no
  | .person (.getUconfStat no) => (server.data store).getUconfStat no
  | .getPersonStat no => (store.persons no).elim (.error (undefinedPerson no)) .ok
  | .getText no => store.getText no
  | .createText .. => .ok (store.highest + 1)
  | .setUserArea persNo _ =>
    if (store.persons persNo).isSome then .ok () else .error (undefinedPerson persNo)
  | _ => .error (.serverError ⟨.notImplemented, 0⟩)

def storeAfter (store : TextStore) : ClientRequest → TextStore
  | .createText text _ auxItems =>
    store.create (Nat.lt_succ_self store.highest) (newTextStat auxItems) text
  | .setUserArea persNo userArea =>
    if (store.persons persNo).isSome then store.setUserArea persNo userArea else store
  | _ => store

variable {server} {store after : TextStore} {req : ClientRequest}

theorem fromServer_reply (store : TextStore) (req : ClientRequest) :
    ServerData.FromServer (server.reply store req) := by
  have herror : ∀ {α : Type} (error : ServerError),
      ServerData.FromServer (.error (.serverError error) : Except Exn α) :=
    fun _ _ he => ⟨_, (Except.error.inj he).symm⟩
  unfold reply
  split
  · exact (server.data store).fromServer_getTextStat _
  · exact (server.data store).fromServer_getConfStat _
  · exact (server.data store).fromServer_getUconfStat _
  · next no =>
    cases store.persons no with
    | some person => exact .ok
    | none => exact herror _
  · unfold TextStore.getText
    split
    · exact .ok
    · exact herror _
  · exact .ok
  · split
    · exact .ok
    · exact herror _
  · exact herror _

/-! ## The program -/

def stateServer (server : UserAreaServer) : StateServer TextStore μ where
  request := request
  lookup := lookup_of_request
  reply := server.reply
  fromServer := fromServer_reply
  next := storeAfter

/-- The program of a server that begins with the given texts and user areas. -/
def program (server : UserAreaServer) (store : TextStore) : ServerProgram μ :=
  server.stateServer.program store

/-- What the server handles can be sent to it, and it sees what the session has asked for. -/
theorem Handles.sees (f : CookedMiscInfo → μ) {reply : Except Exn req.Reply}
    (h : server.Handles store req reply after) : server.stateServer.Sees f req := by
  cases req with
  | getPersonStat no =>
    exact StateServer.sees_of_construction rfl (.cons rfl .nil) (by simp) fun _ => rfl
  | getText no =>
    exact ⟨⟨ReqGetText, by simp [requestClasses], ⟨[.int no, .int 0, .int MAX_TEXT_SIZE],
      .cons rfl (.cons rfl (.cons rfl .nil))⟩⟩, rfl, fun info hinfo => by simp at hinfo,
      fun _ => rfl⟩
  | createText text miscInfo auxItems =>
    obtain ⟨rfl, -⟩ := h
    exact StateServer.sees_of_construction rfl (.cons rfl (.cons rfl (.cons rfl .nil)))
      (by simp [CookedMiscInfo.Sendable]) fun _ => rfl
  | setUserArea persNo userArea =>
    exact StateServer.sees_of_construction rfl (.cons rfl (.cons rfl .nil)) (by simp) fun _ => rfl
  | person req =>
    cases req with
    | getUconfStat no =>
      exact StateServer.sees_of_construction rfl (.cons rfl .nil) (by simp) fun _ => rfl
    | _ => exact h.1.elim
  | getConfStat no =>
    exact StateServer.sees_of_construction rfl (.cons rfl .nil) (by simp) fun _ => rfl
  | getTextStat no =>
    exact StateServer.sees_of_construction rfl (.cons rfl .nil) (by simp) fun _ => rfl
  | _ => exact h.1.elim

/-- The program handles what such a server handles. -/
theorem handles_reply {reply : Except Exn req.Reply} (h : server.Handles store req reply after) :
    server.Handles store req (server.reply store req) (storeAfter store req) := by
  cases req with
  | getPersonStat no => exact ⟨rfl, rfl⟩
  | getText no => exact ⟨rfl, rfl⟩
  | createText text miscInfo auxItems =>
    exact ⟨h.1, Or.inl ⟨_, newTextStat auxItems, Nat.lt_succ_self store.highest,
      map_newTextStat auxItems, rfl, rfl⟩⟩
  | setUserArea persNo userArea =>
    by_cases hperson : (store.persons persNo).isSome
    · exact Or.inl ⟨hperson, if_pos hperson, if_pos hperson⟩
    · exact Or.inr (Or.inl ⟨Option.not_isSome_iff_eq_none.mp hperson, if_neg hperson,
        if_neg hperson⟩)
  | person req =>
    cases req with
    | getUconfStat no => exact ⟨trivial, rfl, rfl⟩
    | _ => exact h.1.elim
  | getConfStat no => exact ⟨trivial, rfl, rfl⟩
  | getTextStat no => exact ⟨trivial, rfl, rfl⟩
  | _ => exact h.1.elim

theorem implementedBy_program (server : UserAreaServer) (f : CookedMiscInfo → μ)
    (store : TextStore) : Handling.ImplementedBy server.Handles f (server.program store) store :=
  Handling.implementedBy_program store (fun ⟨_, _, hhandled⟩ => hhandled.sees f)
    fun ⟨_, _, hhandled⟩ => handles_reply hhandled

/-! ## Answers -/

/-- The texts that the server keeps can be sent to a client. -/
def Sendable (store : TextStore) : Prop :=
  ∀ {no textStat text}, store.texts no = some (textStat, text) →
    ∃ groups, CookedMiscInfo.ofGroups groups = textStat.miscInfo

theorem sendable_storeAfter (hstore : Sendable store) : Sendable (storeAfter store req) := by
  unfold storeAfter
  split
  · next auxItems =>
    intro no textStat text htext
    change Function.update store.texts (store.highest + 1) _ no = some (textStat, text) at htext
    by_cases hno : no = store.highest + 1
    · rw [hno, Function.update_self] at htext
      obtain ⟨rfl, -⟩ := Prod.mk.inj (Option.some.inj htext)
      exact ⟨[], rfl⟩
    · rw [Function.update_of_ne hno] at htext
      exact hstore htext
  · split
    · exact hstore
    · exact hstore
  · exact hstore

open TextForm in
theorem writable_reply (hstore : Sendable store) {value : req.Reply}
    (h : server.reply store req = .ok value) : Writable (req.okReply value).text := by
  unfold reply at h
  split at h
  · refine ServerData.writable_getTextStat (fun no textStat hstat => ?_) h
    obtain ⟨⟨_, text⟩, htext, rfl⟩ := Option.map_eq_some_iff.mp hstat
    exact hstore htext
  · exact writable_conference _
  · exact writable_uConference _
  · exact writable_person _
  · exact writable_token _
  · exact writable_token _
  · exact ⟨[], rfl⟩
  · cases h

/-- Every answer of the program can be written. -/
theorem writable_program (server : UserAreaServer) (hstore : Sendable store)
    (earlier : List (ReadRequest μ)) (req : ReadRequest μ) (refNo : ℕ) :
    (((server.program store).answer earlier req).message refNo).lines.Nonempty :=
  StateServer.writable_program (I := Sendable) hstore sendable_storeAfter
    (fun hstore hvalue => writable_reply hstore hvalue) earlier req refNo

end UserAreaServer

/-! ## Over the wire -/

section

variable {μ : Type}

variable {readMiscInfo : Parser μ} {f : CookedMiscInfo → μ} {program : ServerProgram μ}
  {server : UserAreaServer} {lib : PythonLibrary} {store : TextStore} {areas : UserAreas}
  {fuel : ℕ} {s : SessionState} {calls : List (UserAreaCall lib)}

/-- The session on the wire, which has been connected. -/
abbrev UserAreaCall.remoteSession (fuel : ℕ) (calls : List (UserAreaCall lib))
    (s : SessionState) :
    Calling SessionState ClientCall ClientCall.Reply (List (UserAreaEvent lib)) μ :=
  .start (UserAreaCall.session .komSession fuel calls s)

/-- **User areas over the wire.** In every run, whatever messages come in between and in
whichever order the client and the server take their steps, what the calls of the session
return and raise is right by the blocks; and every run can be continued until the last call has
ended. -/
theorem Run.userAreas_remote (hread : ReadsMiscInfo readMiscInfo f)
    (hserver : Handling.ImplementedBy server.Handles f program store)
    (writable : ∀ earlier req refNo, ((program.answer earlier req).message refNo).lines.Nonempty)
    (hlib : lib.DumpsAscii) (hs : (server.data store).Mirrored s)
    (hareas : areas.Represents fuel store) (hroom : areas.Room fuel calls.length)
    {c : Calling SessionState ClientCall ClientCall.Reply (List (UserAreaEvent lib)) μ}
    (h : Run (CallStep sessionCoding SessionState.handleAsyncMessage readMiscInfo program)
      (fun _ _ => True) (UserAreaCall.remoteSession fuel calls s) c) :
    (∀ result t, c.method = .running (.done result t) → ∃ events areas', result = .ok events ∧
      events.map CallEvent.call = calls ∧ UserAreaTrace server areas events areas') ∧
    ∃ d result t, Run (CallStep sessionCoding SessionState.handleAsyncMessage readMiscInfo program)
      (fun _ _ => True) c d ∧ d.method = .running (.done result t) := by
  have hsendable : Handling.Sendable server.Handles :=
    Handling.sendable_of_sees fun ⟨_, _, hhandled⟩ => hhandled.sees f
  obtain ⟨hends, hprogress⟩ := Handling.remote hread hserver hsendable writable
    (server.triple_session hlib calls) ⟨hs, hareas, hroom⟩ h
  refine ⟨fun result t hdone => ?_, hprogress⟩
  obtain ⟨events, now, hresult, hcalls, areas', htrace, -⟩ := hends result t hdone
  exact ⟨events, areas', hresult, hcalls, htrace⟩

/-- A value is set and got over the wire. -/
theorem Run.userAreas_remote_sample :
    ∃ c t, Run (CallStep sessionCoding SessionState.handleAsyncMessage CookedMiscInfo.parse
        (sampleAreaServer.program sampleTextStore)) (fun _ _ => True)
      (UserAreaCall.remoteSession 5 sampleCalls
        ⟨some { ClientState.init with connected := true }, some 1, none, none⟩) c ∧
      c.method = .running (.done (.ok sampleEvents) t) := by
  have hread : ReadsMiscInfo CookedMiscInfo.parse CookedMiscInfo.sent :=
    fun _ hinfo => hinfo.parse_reads
  have hstore : UserAreaServer.Sendable sampleTextStore := by
    intro no textStat text htext
    cases htext
  have hsession := fun c => @Run.userAreas_remote _ _ _ _ _ sampleJson _ sampleAreas 5 _
    sampleCalls hread (UserAreaServer.implementedBy_program sampleAreaServer _ sampleTextStore)
    (sampleAreaServer.writable_program hstore) dumpsAscii_sampleJson
    (ServerData.mirrored_connected (some 1) none none) represents_sampleAreas room_sampleAreas c
  obtain ⟨-, c, result, t, hrun, hdone⟩ := hsession _ .refl
  obtain ⟨events, areas, rfl, hcalls, htrace⟩ := (hsession c hrun).1 result t hdone
  rw [eq_sampleEvents hcalls htrace] at hdone
  exact ⟨c, t, hrun, hdone⟩

end

end Pylyskom
