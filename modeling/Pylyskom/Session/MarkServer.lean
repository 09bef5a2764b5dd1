import Pylyskom.Session.ReadMarks
import Pylyskom.Session.Remote

/-!
# A server that keeps marks

The requests that a session makes to read and to mark texts, and a program for the server that
answers them: it keeps the marks, and finds them again in the requests that it has read.
-/

namespace Pylyskom

/-- Numbers none of which is `None`. -/
theorem exists_map_some {texts : List (Option ℕ)} (h : none ∉ texts) :
    ∃ ns : List ℕ, texts = ns.map some := by
  induction texts with
  | nil => exact ⟨[], rfl⟩
  | cons text texts ih =>
    cases text with
    | none => simp at h
    | some n =>
      obtain ⟨ns, rfl⟩ := ih fun hmem => h (List.mem_cons_of_mem _ hmem)
      exact ⟨n :: ns, rfl⟩

theorem mapM_map_some (ns : List ℕ) : (ns.map some).mapM id = some ns := by
  induction ns with
  | nil => rfl
  | cons n ns ih =>
    rw [List.map_cons, List.mapM_cons, ih]
    rfl

namespace TextServer

variable {μ : Type}

open Requests

/-- The request that a session has made. -/
def request (req : ReadRequest μ) : Option ClientRequest :=
  match req.args with
  | [.int no] =>
    (readRequests no ++
      [(GET_UNREAD_CONFS, ClientRequest.person (.getUnreadConfs no))]).lookup req.callNo
  | [.int confNo, .int localNo] =>
    [(MARK_AS_UNREAD, .markAsUnread confNo (some localNo))].lookup req.callNo
  | [.int confNo, .arrayInt texts] =>
    [(MARK_AS_READ, .markAsRead confNo (texts.map some))].lookup req.callNo
  | [.int confNo, .int firstLocalNo, .int n] =>
    [(LOCAL_TO_GLOBAL, .localToGlobal confNo firstLocalNo n)].lookup req.callNo
  | [.int persNo, .int confNo, .int wantReadRanges, .int maxRanges] =>
    [(QUERY_READ_TEXTS, .person (.queryReadTexts11 persNo confNo wantReadRanges maxRanges))].lookup
      req.callNo
  | _ => none

theorem lookup_of_request {req : ReadRequest μ} {made : ClientRequest}
    (h : request req = some made) : responseDict.lookup req.callNo = some made.responseType := by
  unfold request at h
  split at h
  · exact ((answerable_readRequests _).append (.single rfl)).lookup h
  · exact (Answerable.single rfl).lookup h
  · exact (Answerable.single rfl).lookup h
  · exact (Answerable.single rfl).lookup h
  · exact (Answerable.single rfl).lookup h
  · cases h

variable (server : TextServer)

/-- What only a member of a conference gets. -/
def toMember {α : Type} (confNo : ℕ) (a : α) : Except Exn α :=
  if confNo ∈ server.memberOf then .ok a else .error (notMember confNo)

def reply (marks : ReadMarks) : (req : ClientRequest) → Except Exn req.Reply
  | .getTextStat no => server.data.getTextStat no
  | .getConfStat no => server.data.getConfStat no
  | .person (.getUconfStat no) => server.data.getUconfStat no
  | .person (.getUnreadConfs _) => .ok server.memberOf
  | .person (.queryReadTexts11 _ confNo _ _) =>
    server.toMember confNo (server.membership marks confNo)
  | .localToGlobal confNo firstLocalNo n => server.localToGlobal confNo firstLocalNo n
  | .markAsRead confNo _ => server.toMember confNo ()
  | .markAsUnread confNo _ => server.toMember confNo ()
  | _ => .error (.serverError ⟨.notImplemented, 0⟩)

def marksAfter (marks : ReadMarks) : ClientRequest → ReadMarks
  | .markAsRead confNo texts =>
    if confNo ∈ server.memberOf then marks.set confNo texts true else marks
  | .markAsUnread confNo textNo =>
    if confNo ∈ server.memberOf then marks.set confNo [textNo] false else marks
  | _ => marks

variable {server} {marks after : ReadMarks} {req : ClientRequest}

theorem fromServer_toMember {α : Type} (confNo : ℕ) (a : α) :
    ServerData.FromServer (server.toMember confNo a) := by
  unfold toMember
  split
  · exact .ok
  · exact fun e he => ⟨_, (Except.error.inj he).symm⟩

theorem fromServer_localToGlobal (confNo firstLocalNo n : ℕ) :
    ServerData.FromServer (server.localToGlobal confNo firstLocalNo n) := by
  intro e he
  rcases Nat.lt_or_ge (server.locals confNo).highest firstLocalNo with hbeyond | hwithin
  · obtain ⟨e', heq, hclass⟩ := (server.window confNo).beyond firstLocalNo n hbeyond
    obtain rfl := Except.error.inj (heq.symm.trans he)
    cases e' with
    | serverError error => exact ⟨error, rfl⟩
    | _ => cases hclass
  · obtain ⟨mapping, heq, -⟩ := (server.window confNo).window firstLocalNo n hwithin
    exact nomatch heq.symm.trans he

theorem fromServer_reply (marks : ReadMarks) (req : ClientRequest) :
    ServerData.FromServer (server.reply marks req) := by
  unfold reply
  split
  · exact server.data.fromServer_getTextStat _
  · exact server.data.fromServer_getConfStat _
  · exact server.data.fromServer_getUconfStat _
  · exact .ok
  · exact fromServer_toMember _ _
  · exact fromServer_localToGlobal _ _ _
  · exact fromServer_toMember _ _
  · exact fromServer_toMember _ _
  · exact fun e he => ⟨_, (Except.error.inj he).symm⟩

/-! ## The program -/

def stateServer (server : TextServer) : StateServer ReadMarks μ where
  request := request
  lookup := lookup_of_request
  reply := server.reply
  fromServer := fromServer_reply
  next := server.marksAfter

/-- The program of a server that begins with the given marks. -/
def program (server : TextServer) (marks : ReadMarks) : ServerProgram μ :=
  server.stateServer.program marks

/-- What the server handles can be sent to it, and it sees what the session has asked for. -/
theorem Handles.sees (f : CookedMiscInfo → μ) {reply : Except Exn req.Reply}
    (h : server.Handles marks req reply after) : server.stateServer.Sees f req := by
  cases req with
  | markAsRead confNo texts =>
    obtain ⟨ns, rfl⟩ := exists_map_some h.1
    refine StateServer.sees_of_construction
      (by rw [ClientRequest.construction, mapM_map_some]; rfl) ?_ (by simp) fun _ => rfl
    exact .cons rfl (.cons rfl .nil)
  | markAsUnread confNo textNo =>
    cases textNo with
    | none => exact absurd rfl h.1
    | some textNo =>
      exact StateServer.sees_of_construction rfl (.cons rfl (.cons rfl .nil)) (by simp)
        fun _ => rfl
  | localToGlobal confNo first n =>
    exact StateServer.sees_of_construction rfl (.cons rfl (.cons rfl (.cons rfl .nil))) (by simp)
      fun _ => rfl
  | person req =>
    cases req with
    | queryReadTexts11 persNo confNo wantReadRanges maxRanges =>
      exact StateServer.sees_of_construction rfl
        (.cons rfl (.cons rfl (.cons rfl (.cons rfl .nil)))) (by simp) fun _ => rfl
    | getUnreadConfs persNo =>
      exact StateServer.sees_of_construction rfl (.cons rfl .nil) (by simp) fun _ => rfl
    | getUconfStat confNo =>
      exact StateServer.sees_of_construction rfl (.cons rfl .nil) (by simp) fun _ => rfl
    | _ => exact h.1.elim
  | getConfStat confNo =>
    exact StateServer.sees_of_construction rfl (.cons rfl .nil) (by simp) fun _ => rfl
  | getTextStat textNo =>
    exact StateServer.sees_of_construction rfl (.cons rfl .nil) (by simp) fun _ => rfl
  | _ => exact h.1.elim

theorem sets_toMember (marks : ReadMarks) (confNo : ℕ) (texts : List (Option ℕ)) (value : Bool) :
    server.Sets marks confNo texts value (server.toMember confNo ())
      (if confNo ∈ server.memberOf then marks.set confNo texts value else marks) := by
  unfold Sets toMember
  split
  · exact ⟨rfl, rfl⟩
  · exact ⟨rfl, rfl⟩

/-- The program handles what such a server handles. -/
theorem handles_reply {reply : Except Exn req.Reply} (h : server.Handles marks req reply after) :
    server.Handles marks req (server.reply marks req) (server.marksAfter marks req) := by
  cases req with
  | markAsRead confNo texts => exact ⟨h.1, sets_toMember marks confNo texts true⟩
  | markAsUnread confNo textNo => exact ⟨h.1, sets_toMember marks confNo [textNo] false⟩
  | localToGlobal confNo first n => exact ⟨rfl, rfl⟩
  | person req =>
    cases req with
    | queryReadTexts11 persNo confNo wantReadRanges maxRanges =>
      refine ⟨rfl, fun _ => ?_⟩
      by_cases hmember : confNo ∈ server.memberOf
      · rw [if_pos hmember]
        exact ⟨_, if_pos hmember, shows_membership marks confNo wantReadRanges⟩
      · rw [if_neg hmember]
        exact if_neg hmember
    | getUnreadConfs persNo => exact ⟨rfl, fun _ => ⟨_, rfl, listsUnread_memberOf marks⟩⟩
    | getUconfStat confNo => exact ⟨trivial, rfl, rfl⟩
    | _ => exact h.1.elim
  | getConfStat confNo => exact ⟨trivial, rfl, rfl⟩
  | getTextStat textNo => exact ⟨trivial, rfl, rfl⟩
  | _ => exact h.1.elim

/-- The program keeps marks, and handles with them every request that such a server handles. -/
def ImplementedBy (server : TextServer) (f : CookedMiscInfo → μ) (program : ServerProgram μ)
    (marks : ReadMarks) : Prop :=
  Handling.ImplementedBy server.Handles f program marks

theorem implementedBy_program (server : TextServer) (f : CookedMiscInfo → μ) (marks : ReadMarks) :
    server.ImplementedBy f (server.program marks) marks :=
  Handling.implementedBy_program marks (fun ⟨_, _, hhandled⟩ => hhandled.sees f)
    fun ⟨_, _, hhandled⟩ => handles_reply hhandled

open TextForm in
theorem writable_reply (hinfos : ∀ no textStat, server.data.textStats no = some textStat →
    ∃ groups, CookedMiscInfo.ofGroups groups = textStat.miscInfo) {marks : ReadMarks}
    {req : ClientRequest} {value : req.Reply} (h : server.reply marks req = .ok value) :
    Writable (req.okReply value).text := by
  unfold reply at h
  split at h
  · exact ServerData.writable_getTextStat hinfos h
  · exact writable_conference _
  · exact writable_uConference _
  · exact writable_arrayInt _
  · exact writable_membership11 _
  · exact writable_textMapping _
  · exact ⟨[], rfl⟩
  · exact ⟨[], rfl⟩
  · cases h

/-- Every answer of the program can be written. -/
theorem writable_program (hinfos : ∀ no textStat, server.data.textStats no = some textStat →
    ∃ groups, CookedMiscInfo.ofGroups groups = textStat.miscInfo) (marks : ReadMarks)
    (earlier : List (ReadRequest μ)) (req : ReadRequest μ) (refNo : ℕ) :
    (((server.program marks).answer earlier req).message refNo).lines.Nonempty :=
  StateServer.writable_program (I := fun _ => True) trivial (fun _ => trivial)
    (fun _ hvalue => writable_reply hinfos hvalue) earlier req refNo

end TextServer
end Pylyskom
