import Pylyskom.Session.Names
import Pylyskom.Session.Remote

/-!
# Names over the wire

A program for a server that knows names, and a session that looks them up with it, through the
blocking client and the two streams of bytes.
-/

namespace Pylyskom

namespace NameServer

variable {μ : Type}

open Requests

/-- The request that a session has made. -/
def request (req : ReadRequest μ) : Option ClientRequest :=
  match req.args with
  | [.int no] => (readRequests no).lookup req.callNo
  | [.string text, .int wantPers, .int wantConfs] =>
    [(LOOKUP_Z_NAME, .lookupZName text (wantPers ≠ 0) (wantConfs ≠ 0)),
      (RE_Z_LOOKUP, .reZLookup text (wantPers ≠ 0) (wantConfs ≠ 0))].lookup req.callNo
  | _ => none

theorem lookup_of_request {req : ReadRequest μ} {made : ClientRequest}
    (h : request req = some made) : responseDict.lookup req.callNo = some made.responseType := by
  unfold request at h
  split at h
  · exact (answerable_readRequests _).lookup h
  · exact ((Answerable.single rfl).append (.single rfl)).lookup h
  · cases h

variable (server : NameServer)

def reply (_ : Unit) : (req : ClientRequest) → Except Exn req.Reply
  | .getTextStat no => server.data.getTextStat no
  | .getConfStat no => server.data.getConfStat no
  | .person (.getUconfStat no) => server.data.getUconfStat no
  | .lookupZName name wantPers wantConfs =>
    .ok ((server.wanted (server.named name) wantPers wantConfs).map fun x => info x.1 x.2)
  | .reZLookup regexp wantPersons wantConfs =>
    .ok ((server.wanted (server.matching regexp) wantPersons wantConfs).map
      fun x => info x.1 x.2)
  | _ => .error (.serverError ⟨.notImplemented, 0⟩)

variable {server} {req : ClientRequest}

theorem fromServer_reply (w : Unit) (req : ClientRequest) :
    ServerData.FromServer (server.reply w req) := by
  unfold reply
  split
  · exact server.data.fromServer_getTextStat _
  · exact server.data.fromServer_getConfStat _
  · exact server.data.fromServer_getUconfStat _
  · exact .ok
  · exact .ok
  · exact fun e he => ⟨_, (Except.error.inj he).symm⟩

/-! ## The program -/

def stateServer (server : NameServer) : StateServer Unit μ where
  request := request
  lookup := lookup_of_request
  reply := server.reply
  fromServer := fromServer_reply
  next _ _ := ()

def program (server : NameServer) : ServerProgram μ := server.stateServer.program ()

/-- What the server handles can be sent to it, and it sees what the session has asked for. -/
theorem Handles.sees (f : CookedMiscInfo → μ) {reply : Except Exn req.Reply}
    (h : server.Handles False () req reply ()) : server.stateServer.Sees f req := by
  cases req with
  | lookupZName name wantPers wantConfs =>
    refine StateServer.sees_of_construction rfl (.cons rfl (.cons rfl (.cons rfl .nil)))
      (by simp [ofBool]) fun _ => ?_
    cases wantPers <;> cases wantConfs <;> rfl
  | reZLookup regexp wantPersons wantConfs =>
    refine StateServer.sees_of_construction rfl (.cons rfl (.cons rfl (.cons rfl .nil)))
      (by simp [ofBool]) fun _ => ?_
    cases wantPersons <;> cases wantConfs <;> rfl
  | person req =>
    cases req with
    | getUconfStat no =>
      exact StateServer.sees_of_construction rfl (.cons rfl .nil) (by simp) fun _ => rfl
    | getNegativeUconfStat n => exact h.elim
    | _ => exact h.1.elim
  | getConfStat no =>
    exact StateServer.sees_of_construction rfl (.cons rfl .nil) (by simp) fun _ => rfl
  | getTextStat no =>
    exact StateServer.sees_of_construction rfl (.cons rfl .nil) (by simp) fun _ => rfl
  | _ => exact h.1.elim

/-- The program handles what such a server handles. -/
theorem handles_reply {reply : Except Exn req.Reply} (h : server.Handles False () req reply ()) :
    server.Handles False () req (server.reply () req) () := by
  cases req with
  | lookupZName name wantPers wantConfs => rfl
  | reZLookup regexp wantPersons wantConfs => rfl
  | person req =>
    cases req with
    | getUconfStat no => exact ⟨trivial, rfl⟩
    | getNegativeUconfStat n => exact h.elim
    | _ => exact h.1.elim
  | getConfStat no => exact ⟨trivial, rfl⟩
  | getTextStat no => exact ⟨trivial, rfl⟩
  | _ => exact h.1.elim

theorem implementedBy_program (server : NameServer) (f : CookedMiscInfo → μ) :
    Handling.ImplementedBy (server.Handles False) f server.program () :=
  Handling.implementedBy_program () (fun ⟨_, _, hhandled⟩ => Handles.sees f hhandled)
    fun ⟨_, _, hhandled⟩ => handles_reply hhandled

open TextForm in
theorem writable_reply (hinfos : ∀ no textStat, server.data.textStats no = some textStat →
    ∃ groups, CookedMiscInfo.ofGroups groups = textStat.miscInfo) {value : req.Reply}
    (h : server.reply () req = .ok value) : Writable (req.okReply value).text := by
  have hfound : ∀ infos : List ConfZInfo, Writable (Array.text ConfZInfo.text infos) :=
    fun infos => writable_array fun info _ => writable_prod
      (by simp [Int.text, String.text, Bitstring.text, writable_token])
  unfold reply at h
  split at h
  · exact ServerData.writable_getTextStat hinfos h
  · exact writable_conference _
  · exact writable_uConference _
  · exact hfound _
  · exact hfound _
  · cases h

/-- Every answer of the program can be written. -/
theorem writable_program (hinfos : ∀ no textStat, server.data.textStats no = some textStat →
    ∃ groups, CookedMiscInfo.ofGroups groups = textStat.miscInfo)
    (earlier : List (ReadRequest μ)) (req : ReadRequest μ) (refNo : ℕ) :
    ((server.program.answer earlier req).message refNo).lines.Nonempty :=
  StateServer.writable_program (I := fun _ => True) trivial (fun _ => trivial)
    (fun _ hvalue => writable_reply hinfos hvalue) earlier req refNo

end NameServer

/-! ## Over the wire -/

section

variable {μ : Type}

variable {readMiscInfo : Parser μ} {f : CookedMiscInfo → μ} {program : ServerProgram μ}
  {server : NameServer} {s : SessionState} {calls : List LookupCall}

/-- The session on the wire, which has been connected. -/
abbrev LookupCall.remoteSession (calls : List LookupCall) (s : SessionState) :
    Calling SessionState ClientCall ClientCall.Reply (List LookupEvent) μ :=
  .start (LookupCall.session .komSession calls s)

/-- **Lookups over the wire.** In every run, whatever messages come in between and in whichever
order the client and the server take their steps, each call of the session gets its answer; and
every run can be continued until the last call has ended. No call is for a negative number, as
the server could not read its request. -/
theorem Run.lookups_remote (hread : ReadsMiscInfo readMiscInfo f)
    (hserver : Handling.ImplementedBy (server.Handles False) f program ())
    (writable : ∀ earlier req refNo, ((program.answer earlier req).message refNo).lines.Nonempty)
    (hs : server.data.Mirrored s)
    (hcalls : ∀ call ∈ calls, NameServer.NotNegative call.name)
    {c : Calling SessionState ClientCall ClientCall.Reply (List LookupEvent) μ}
    (h : Run (CallStep sessionCoding SessionState.handleAsyncMessage readMiscInfo program)
      (fun _ _ => True) (LookupCall.remoteSession calls s) c) :
    (∀ result t, c.method = .running (.done result t) →
      result = .ok (LookupCall.answered server calls)) ∧
    ∃ d result t, Run (CallStep sessionCoding SessionState.handleAsyncMessage readMiscInfo program)
      (fun _ _ => True) c d ∧ d.method = .running (.done result t) := by
  have hsendable : Handling.Sendable (server.Handles False) :=
    Handling.sendable_of_sees fun ⟨_, _, hhandled⟩ => NameServer.Handles.sees f hhandled
  obtain ⟨hends, hprogress⟩ := Handling.remote hread hserver hsendable writable
    (server.triple_session fun call hmem => Or.inr (hcalls call hmem)) ⟨hs, trivial⟩ h
  refine ⟨fun result t hdone => ?_, hprogress⟩
  obtain ⟨events, now, hresult, rfl⟩ := hends result t hdone
  exact hresult

theorem notNegative_sampleLookups :
    ∀ call ∈ sampleLookups, NameServer.NotNegative call.name := by
  have hone : ∀ n : ℤ, Writes decimalValue isBlank ("#1".toList.drop 1) n → 0 ≤ n := by
    intro n h
    have hparse : parseInt ("#1".toList.drop 1) = .ok 1 := rfl
    rw [h.unique separate_decimalValue (parseInt_eq_ok_iff.mp hparse)]
    decide
  simp only [sampleLookups, List.forall_mem_cons]
  refine ⟨fun _ => hone, fun h => absurd h (by decide), fun h => absurd h (by decide), ?_⟩
  exact fun _ hmem => absurd hmem List.not_mem_nil

/-- A number, a name and a regular expression that matches nothing. -/
theorem Run.lookups_remote_sample :
    ∃ c t, Run (CallStep sessionCoding SessionState.handleAsyncMessage CookedMiscInfo.parse
        sampleNames.program) (fun _ _ => True)
      (LookupCall.remoteSession sampleLookups
        ⟨some { ClientState.init with connected := true }, some 1, none, none⟩) c ∧
      c.method = .running (.done (.ok sampleAnswers) t) := by
  have hread : ReadsMiscInfo CookedMiscInfo.parse CookedMiscInfo.sent :=
    fun _ hinfo => hinfo.parse_reads
  have hinfos : ∀ no textStat, sampleNames.data.textStats no = some textStat →
      ∃ groups, CookedMiscInfo.ofGroups groups = textStat.miscInfo := by
    intro no textStat hstat
    cases hstat
  have hsession := fun c => @Run.lookups_remote _ _ _ _ _ _ sampleLookups hread
    (NameServer.implementedBy_program sampleNames _) (NameServer.writable_program hinfos)
    (ServerData.mirrored_connected (some 1) none none) notNegative_sampleLookups c
  obtain ⟨-, c, result, t, hrun, hdone⟩ := hsession _ .refl
  obtain rfl := (hsession c hrun).1 result t hdone
  rw [answered_sampleLookups] at hdone
  exact ⟨c, t, hrun, hdone⟩

end

end Pylyskom
