import Pylyskom.Coroutine.Sessions
import Pylyskom.Session.Servers
import Pylyskom.Session.UnreadTexts
import Pylyskom.Unread.Window

/-!
# Marking texts as read

The server keeps, for each conference of a person, which of its local texts have been read.
A session marks a text in all conferences that it was sent to, and passes over those that
the person is not a member of. To the person a text in a conference is read or not: this
is the abstract view, and what the session returns is right by it.
-/

namespace Pylyskom

/-- The texts that a server holds, and the conferences of the person that is logged in. It is an
assumption on the server that it takes `no_of_existing_texts` for the length of a window of
local numbers: with one that counts existing texts the client misses unread texts. -/
structure TextServer where
  data : ServerData
  locals : ℕ → LocalTexts
  localToGlobal : (confNo firstLocal n : ℕ) → Except Exn TextMapping
  persNo : ℕ
  memberOf : List ℕ
  /-- `ReqLocalToGlobal` is answered by windows of local numbers. -/
  window : ∀ confNo, (locals confNo).WindowServer (localToGlobal confNo)
  memberOf_nodup : memberOf.Nodup
  /-- A text is a local text of its recipients. -/
  recipients : ∀ {textNo textStat}, data.textStats textNo = some textStat → ∀ {confNo localNo},
    (∃ mi ∈ textStat.miscInfo.recipientList, mi.recpt = confNo ∧ mi.locNo = some localNo) ↔
      (locals confNo).existing localNo = true ∧ (locals confNo).globalNo localNo = textNo
  numbered : ∀ {textNo textStat}, data.textStats textNo = some textStat →
    ∀ mi ∈ textStat.miscInfo.recipientList, mi.locNo ≠ none
  isText : ∀ {confNo localNo}, (locals confNo).existing localNo = true →
    (data.textStats ((locals confNo).globalNo localNo)).isSome

/-- Which local texts of a conference are marked as read. -/
abbrev ReadMarks := ℕ → ℕ → Bool

def ReadMarks.set (read : ReadMarks) (confNo : ℕ) (texts : List (Option ℕ)) (value : Bool) :
    ReadMarks :=
  fun no localNo => if no = confNo ∧ texts.contains (some localNo) then value else read no localNo

namespace TextServer

variable (server : TextServer)

/-! ## The server -/

def notMember (confNo : ℕ) : Exn := .serverError ⟨.notMember, confNo⟩

/-- The reply to a request that marks texts, or the opposite. -/
def Sets (read : ReadMarks) (confNo : ℕ) (texts : List (Option ℕ)) (value : Bool)
    (reply : Except Exn Unit) (after : ReadMarks) : Prop :=
  if confNo ∈ server.memberOf then reply = .ok () ∧ after = read.set confNo texts value
  else reply = .error (notMember confNo) ∧ after = read

/-- A record of the membership; its read ranges may cover texts that do not exist. -/
def Shows (read : ReadMarks) (confNo wantReadRanges : ℕ) (membership : Membership) : Prop :=
  membership.conference = confNo ∧ (wantReadRanges = 1 →
    SortedRanges membership.readRanges ∧ ∀ localNo,
      (server.locals confNo).existing localNo = true →
        isRead membership.readRanges localNo = read confNo localNo)

/-- The server may list conferences without unread texts as well. -/
def ListsUnread (read : ReadMarks) (confNos : List ℕ) : Prop :=
  confNos.Nodup ∧ (∀ confNo ∈ confNos, confNo ∈ server.memberOf) ∧
    ∀ confNo ∈ server.memberOf, ∀ localNo, (server.locals confNo).existing localNo = true →
      read confNo localNo = false → confNo ∈ confNos

/-- How the server handles a request, while the person has the given marks. Of the requests
that change nothing, these are the ones that the methods below make. -/
def Handles (read : ReadMarks) :
    (req : ClientRequest) → Except Exn req.Reply → ReadMarks → Prop
  | .markAsRead confNo texts, reply, after =>
    none ∉ texts ∧ server.Sets read confNo texts true reply after
  | .markAsUnread confNo textNo, reply, after =>
    textNo ≠ none ∧ server.Sets read confNo [textNo] false reply after
  | .person (.queryReadTexts11 persNo confNo wantReadRanges _), reply, after =>
    after = read ∧ (persNo = server.persNo →
      if confNo ∈ server.memberOf then
        ∃ membership, reply = .ok membership ∧ server.Shows read confNo wantReadRanges membership
      else reply = .error (notMember confNo))
  | .person (.getUnreadConfs persNo), reply, after =>
    after = read ∧ (persNo = server.persNo →
      ∃ confNos, reply = .ok confNos ∧ server.ListsUnread read confNos)
  | .localToGlobal confNo firstLocal n, reply, after =>
    after = read ∧ reply = server.localToGlobal confNo firstLocal n
  | req, reply, after => req.Reads ∧ after = read ∧ server.data.Replies req reply

/-- While a session waits, messages may remove entries from its caches. -/
def Serves (call : ClientCall) (s : SessionState × ReadMarks) (reply : Except Exn call.Reply)
    (t : SessionState × ReadMarks) : Prop :=
  s.1.Forgets t.1 ∧ server.Handles s.2 call.req reply t.2

end TextServer

/-! ## The abstract view -/

/-- Which texts of a conference a person has read. -/
abbrev ReadTexts := ℕ → ℕ → Bool

namespace TextServer

variable (server : TextServer)

/-- All texts of a conference, in the order in which they came to it. -/
def texts (confNo : ℕ) : List ℕ :=
  ((server.locals confNo).onwards 1).map (server.locals confNo).globalNo

def unreadTexts (read : ReadTexts) (confNo : ℕ) : List ℕ :=
  (server.texts confNo).filter fun textNo => !read confNo textNo

def membershipUnread (read : ReadTexts) (confNo : ℕ) : KomMembershipUnread :=
  ⟨server.persNo, confNo, (server.unreadTexts read confNo).length, server.unreadTexts read confNo⟩

/-- The marks of existing texts tell what the person has read. -/
def Represents (read : ReadTexts) (marks : ReadMarks) : Prop :=
  ∀ confNo ∈ server.memberOf, ∀ localNo, (server.locals confNo).existing localNo = true →
    marks confNo localNo = read confNo ((server.locals confNo).globalNo localNo)

end TextServer

inductive ReadCall : Type
  | getTextStat (textNo : ℕ)
  | markAsRead (textNo : ℕ)
  | markAsUnread (textNo : ℕ)
  | getMembershipUnread (confNo : ℕ)
  | getMembershipUnreads

namespace ReadCall

abbrev Result : ReadCall → Type
  | getTextStat _ => KomTextStat
  | getMembershipUnread _ => KomMembershipUnread
  | getMembershipUnreads => List KomMembershipUnread
  | _ => Unit

def body (cls : SessionClass) (persNo fuel : ℕ) : (call : ReadCall) → SessionOp call.Result
  | getTextStat textNo => cls.getTextStat textNo
  | markAsRead textNo => cls.markAsRead textNo
  | markAsUnread textNo => cls.markAsUnread textNo
  | getMembershipUnread confNo => cls.getMembershipUnread fuel persNo confNo
  | getMembershipUnreads => cls.getMembershipUnreads fuel persNo

/-- What the person has read after the call. A text is read or unread everywhere. -/
def apply : ReadCall → ReadTexts → ReadTexts
  | markAsRead textNo, read => fun confNo no => if no = textNo then true else read confNo no
  | markAsUnread textNo, read => fun confNo no => if no = textNo then false else read confNo no
  | _, read => read

/-- What the call should return or raise. -/
def Right (server : TextServer) (cls : SessionClass) (read : ReadTexts) :
    (call : ReadCall) → Except Exn call.Result → Prop
  | getTextStat textNo, result => result = server.data.komTextStat cls textNo
  | markAsRead textNo, result => result = (server.data.getTextStat textNo).map fun _ => ()
  | markAsUnread textNo, result => result = (server.data.getTextStat textNo).map fun _ => ()
  | getMembershipUnread confNo, result =>
    result =
      if confNo ∈ server.memberOf then .ok (server.membershipUnread read confNo)
      else .error (TextServer.notMember confNo)
  | getMembershipUnreads, result =>
    ∃ confNos : List ℕ, confNos.Nodup ∧
      (∀ confNo, confNo ∈ confNos ↔
        confNo ∈ server.memberOf ∧ server.unreadTexts read confNo ≠ []) ∧
      result = .ok (confNos.map (server.membershipUnread read))

end ReadCall

/-! ## What the server shows -/

/-- Read ranges that show a set of local texts. -/
def LocalTexts.ranges (L : LocalTexts) (read : ℕ → Bool) : List ReadRange :=
  (between read 1 (L.highest + 1)).map fun i => ⟨i, i⟩

theorem LocalTexts.sortedRanges (L : LocalTexts) (read : ℕ → Bool) :
    SortedRanges (L.ranges read) := by
  refine ⟨?_, ?_⟩
  · intro r hr
    obtain ⟨i, hi, rfl⟩ := List.mem_map.mp hr
    exact ⟨(mem_between.mp hi).1, Nat.le_refl i⟩
  · exact List.pairwise_map.mpr (pairwise_between read 1 (L.highest + 1))

theorem LocalTexts.isRead_ranges (L : LocalTexts) (read : ℕ → Bool) {localNo : ℕ}
    (hexisting : L.existing localNo = true) : isRead (L.ranges read) localNo = read localNo := by
  have hbounds := L.existing_bounds localNo hexisting
  apply Bool.eq_iff_iff.mpr
  unfold isRead ranges
  simp only [List.any_map, List.any_eq_true, Function.comp_apply, decide_eq_true_eq]
  constructor
  · rintro ⟨i, hi, hle, hge⟩
    obtain rfl : i = localNo := Nat.le_antisymm hle hge
    exact (mem_between.mp hi).2.2
  · intro hread
    have hmem : localNo ∈ between read 1 (L.highest + 1) :=
      mem_between.mpr ⟨hbounds.1, by omega, hread⟩
    exact ⟨localNo, hmem, Nat.le_refl _, Nat.le_refl _⟩

namespace TextServer

variable {server : TextServer} {cls : SessionClass} {read : ReadTexts} {marks after : ReadMarks}
  {confNo fuel : ℕ}

theorem handles_of_reads {req : ClientRequest} (hreads : req.Reads) {reply : Except Exn req.Reply} :
    server.Handles marks req reply after ↔ after = marks ∧ server.data.Replies req reply := by
  rcases hreads.cases with ⟨no, rfl⟩ | ⟨no, rfl⟩ | ⟨no, rfl⟩ <;> exact and_iff_right trivial

/-- A membership that shows what the person has read. -/
def ShowsRead (server : TextServer) (read : ReadTexts) (confNo : ℕ) (membership : Membership) :
    Prop :=
  membership.conference = confNo ∧ SortedRanges membership.readRanges ∧
    ∀ localNo, (server.locals confNo).existing localNo = true →
      isRead membership.readRanges localNo =
        read confNo ((server.locals confNo).globalNo localNo)

/-- A record that shows the marks of a conference. -/
def membership (server : TextServer) (marks : ReadMarks) (confNo : ℕ) : Membership where
  position := 0
  lastTimeRead := ⟨0, 0, 0, 0, 0, 0, 0, 0, 0⟩
  conference := confNo
  priority := 0
  readRanges := (server.locals confNo).ranges (marks confNo)
  addedBy := 0
  addedAt := ⟨0, 0, 0, 0, 0, 0, 0, 0, 0⟩
  type := List.Vector.replicate 8 false

theorem shows_membership (marks : ReadMarks) (confNo wantReadRanges : ℕ) :
    server.Shows marks confNo wantReadRanges (server.membership marks confNo) :=
  ⟨rfl, fun _ => ⟨(server.locals confNo).sortedRanges _, fun _ hexisting =>
    (server.locals confNo).isRead_ranges _ hexisting⟩⟩

/-- It suffices to list all conferences of the person. -/
theorem listsUnread_memberOf (marks : ReadMarks) : server.ListsUnread marks server.memberOf :=
  ⟨server.memberOf_nodup, fun _ h => h, fun _ h _ _ _ => h⟩

theorem exists_sets (marks : ReadMarks) (confNo : ℕ) (texts : List (Option ℕ)) (value : Bool) :
    ∃ reply after, server.Sets marks confNo texts value reply after := by
  unfold Sets
  by_cases hmember : confNo ∈ server.memberOf
  · simp only [if_pos hmember]
    exact ⟨_, _, rfl, rfl⟩
  · simp only [if_neg hmember]
    exact ⟨_, _, rfl, rfl⟩

theorem Sets.cases {texts : List (Option ℕ)} {value : Bool} {reply : Except Exn Unit}
    (h : server.Sets marks confNo texts value reply after) :
    (confNo ∈ server.memberOf ∧ reply = .ok () ∧ after = marks.set confNo texts value) ∨
      confNo ∉ server.memberOf ∧ reply = .error (notMember confNo) ∧ after = marks := by
  unfold Sets at h
  by_cases hmember : confNo ∈ server.memberOf
  · rw [if_pos hmember] at h
    exact Or.inl ⟨hmember, h⟩
  · rw [if_neg hmember] at h
    exact Or.inr ⟨hmember, h⟩

/-- The unread texts are those outside the read ranges. -/
theorem map_unread {membership : Membership} (h : server.ShowsRead read confNo membership) :
    ((server.locals confNo).unread membership.readRanges).map (server.locals confNo).globalNo =
      server.unreadTexts read confNo := by
  unfold LocalTexts.unread unreadTexts texts LocalTexts.onwards
  rw [List.filter_map, between, between, List.filter_filter]
  congr 1
  refine List.filter_congr fun localNo _ => ?_
  cases hexisting : (server.locals confNo).existing localNo with
  | false => simp
  | true => simp [h.2.2 localNo hexisting]

end TextServer

/-- The loops fetch the unread texts, with as much fuel as there are local numbers. -/
theorem LocalTexts.WindowServer.getUnreadTexts {L : LocalTexts}
    {request : ℕ → ℕ → ℕ → Except Exn TextMapping} {membership : Membership}
    (h : L.WindowServer (request membership.conference))
    (hranges : SortedRanges membership.readRanges) {fuel : ℕ} (hfuel : L.highest + 1 < fuel) :
    Unread.getUnreadTexts fuel request membership =
      some (.ok ((L.unread membership.readRanges).map L.globalNo)) := by
  have hsorted := hranges.sortedFrom
  obtain ⟨more, hgaps, hmore⟩ := h.fetchGaps hsorted.sortedGaps []
    (show 1 = 0 → L.highest < 1 by omega)
  have htail : (if more = 0 then [] else L.onwards (lastFrom 1 membership.readRanges)) =
      L.onwards (lastFrom 1 membership.readRanges) := by
    split
    · next hzero => rw [L.onwards_of_lt (hmore hzero)]
    · rfl
  have hlast : L.highest + 1 - lastFrom 1 membership.readRanges < fuel := by omega
  have hkept : ∀ i ∈ L.unread membership.readRanges, L.existing i = true := by
    intro i hi
    have hunread := (mem_between.mp hi).2.2
    exact (Bool.and_eq_true_iff.mp hunread).1
  simp only [Unread.getUnreadTexts, readRangesToGapsAndLast_eq, hgaps, h.pages.fetchTail _ _ hlast,
    htail]
  rw [List.nil_append, ← List.map_append, LocalTexts.onwards,
    ← between_unread (fun i hi => L.existing_lt hi) hsorted]
  simp only [Option.map_some, Except.map]
  exact congrArg (fun texts => some (Except.ok texts)) (L.filter_globalNo hkept)

/-! ## Operations -/

/-- A request of the person client, as an operation of the session. -/
theorem SessionOp.person_request_of_some {inTry : Bool} {req : PersonRequest} {s : SessionState}
    {self : ClientState} (hclient : s.client = some self) :
    SessionOp.person inTry (CachingPersonClient.request req) s =
      Coroutine.request (⟨inTry, .person req⟩ : ClientCall) s := by
  rw [SessionOp.person, SessionOp.client_of_some hclient]
  change Suspended.await _ _ (fun reply t => Suspended.done _ _) =
    Suspended.await _ _ fun reply t => Suspended.done reply t
  congr 1
  · exact SessionOp.putClient_getD s self
  · funext reply t
    congr 1
    · cases reply <;> rfl
    · exact SessionOp.putClient_getD t self

namespace TextServer

variable {server : TextServer} {cls : SessionClass} {read : ReadTexts} {confNo fuel : ℕ}
  {α : Type} {P P' : ReadMarks → Prop}

/-- What only reads the texts of the server leaves the marks as they are. -/
theorem triple_data {op : SessionOp α} {x : Except Exn α}
    (hop : Computes server.data.sessionService op x) :
    Triple server.Serves (fun s => server.data.Mirrored s.1 ∧ P s.2) op
      fun result s => result = x ∧ server.data.Mirrored s.1 ∧ P s.2 := by
  exact Handling.triple_data server.Handles hop fun _ hreads =>
    handles_of_reads hreads

/-- The decorator passes on what does not come from the socket. -/
theorem triple_checkConnection {op : SessionOp α}
    {Q : Except Exn α → SessionState × ReadMarks → Prop}
    (hop : Triple server.Serves (fun s => server.data.Mirrored s.1 ∧ P s.2) op Q)
    (hQ : ∀ e s, Q (.error e) s → ∃ error, e = .serverError error) :
    Triple server.Serves (fun s => server.data.Mirrored s.1 ∧ P s.2)
      (cls.checkConnection op) Q := by
  refine SessionClass.triple_checkConnection (fun s hs => hs.1.isConnected) hop ?_
  rintro e s he errno rfl
  obtain ⟨error, herror⟩ := hQ _ s he
  cases herror

/-! ## Unread texts -/

/-- The texts are fetched while the marks stay as they are. -/
theorem triple_getUnreadTexts {membership : Membership}
    (h : server.ShowsRead read confNo membership)
    (hfuel : (server.locals confNo).highest + 1 < fuel) :
    Triple server.Serves (fun s => server.data.Mirrored s.1 ∧ P s.2)
      (SessionOp.client (ClientState.getUnreadTextsFromMembership fuel membership))
      (Returning fun texts s => texts = server.unreadTexts read confNo ∧
        server.data.Mirrored s.1 ∧ P s.2) := by
  have hwindow : (server.locals confNo).WindowServer
      (server.localToGlobal membership.conference) := by
    rw [h.1]
    exact server.window confNo
  have htexts := hwindow.getUnreadTexts h.2.1 hfuel
  rw [map_unread h] at htexts
  have hop : Computes (SessionState.service
      (ClientState.mappingService server.data.MirroredClient server.localToGlobal))
      (SessionOp.client (ClientState.getUnreadTextsFromMembership fuel membership))
      (.ok (server.unreadTexts read confNo)) :=
    SessionOp.computes_client (ClientState.computes_getUnreadTexts htexts)
  refine (hop.triple ?_).weaken ?_
  · rintro _ s marks hs _ ⟨no, first, n, rfl⟩
    constructor
    · exact ⟨_, (s, marks), .refl s, rfl, rfl⟩
    · rintro reply t ⟨hforgets, hmarks, hreply⟩
      exact ⟨ServerData.Mirrored.forgets hs hforgets, hreply, hmarks⟩
  · rintro result s ⟨rfl, hs⟩
    exact ⟨rfl, hs⟩

/-- An operation that is a request, with what is known of its reply and of the marks. -/
theorem triple_request (call : ClientCall) (op : SessionOp call.Reply)
    {Q : Except Exn call.Reply → ReadMarks → Prop}
    (hop : ∀ s client, s.client = some client → op s = Coroutine.request call s)
    (hserves : ∀ marks, P marks → (∃ reply after, server.Handles marks call.req reply after) ∧
      ∀ reply after, server.Handles marks call.req reply after → Q reply after) :
    Triple server.Serves (fun s => server.data.Mirrored s.1 ∧ P s.2) op
      fun result s => Q result s.2 ∧ server.data.Mirrored s.1 :=
  Handling.triple_request server.Handles call op hop hserves

/-- `get_membership` with read ranges asks the server. -/
theorem triple_getMembership (confNo : ℕ) :
    Triple server.Serves
      (fun s => server.data.Mirrored s.1 ∧ server.Represents read s.2)
      (SessionOp.person false (CachingPersonClient.getMembership server.persNo confNo true))
      fun result s =>
        ((if confNo ∈ server.memberOf then
          ∃ membership, result = .ok membership ∧ server.ShowsRead read confNo membership
        else result = .error (notMember confNo)) ∧ server.Represents read s.2) ∧
        server.data.Mirrored s.1 := by
  let call : ClientCall := ⟨false, .person (.queryReadTexts11 server.persNo confNo 1 0)⟩
  have hserves : ∀ marks, server.Represents read marks →
      (∃ reply after, server.Handles marks call.req reply after) ∧
        ∀ reply after, server.Handles marks call.req reply after →
          (if confNo ∈ server.memberOf then
            ∃ membership, reply = .ok membership ∧ server.ShowsRead read confNo membership
          else reply = .error (notMember confNo)) ∧ server.Represents read after := by
    intro marks hmarks
    constructor
    · by_cases hmember : confNo ∈ server.memberOf
      · refine ⟨.ok (server.membership marks confNo), marks, rfl, fun _ => ?_⟩
        rw [if_pos hmember]
        exact ⟨_, rfl, shows_membership marks confNo 1⟩
      · refine ⟨.error (notMember confNo), marks, rfl, fun _ => ?_⟩
        rw [if_neg hmember]
    · rintro reply after ⟨rfl, hreply⟩
      refine ⟨?_, hmarks⟩
      have hreply := hreply rfl
      by_cases hmember : confNo ∈ server.memberOf
      · rw [if_pos hmember] at hreply ⊢
        obtain ⟨membership, hreply, hconference, hranges⟩ := hreply
        refine ⟨membership, hreply, hconference, (hranges rfl).1, fun localNo hexisting => ?_⟩
        rw [(hranges rfl).2 localNo hexisting, hmarks confNo hmember localNo hexisting]
      · rw [if_neg hmember] at hreply ⊢
        exact hreply
  exact triple_request call
    (SessionOp.person false (CachingPersonClient.getMembership server.persNo confNo true))
    (fun s client hclient => SessionOp.person_request_of_some hclient) hserves

/-- A connected session whose caches agree with the server, and marks that represent what
has been read. -/
abbrev Reading (server : TextServer) (read : ReadTexts) (s : SessionState × ReadMarks) : Prop :=
  server.data.Mirrored s.1 ∧ server.Represents read s.2

/-- What `get_membership_unread` should return or raise. -/
def unreadReply (server : TextServer) (read : ReadTexts) (confNo : ℕ) :
    Except Exn KomMembershipUnread :=
  if confNo ∈ server.memberOf then .ok (server.membershipUnread read confNo)
  else .error (notMember confNo)

theorem triple_getMembershipUnread
    (hfuel : confNo ∈ server.memberOf → (server.locals confNo).highest + 1 < fuel) :
    Triple server.Serves (server.Reading read)
      (cls.getMembershipUnread fuel server.persNo confNo)
      fun result s => result = server.unreadReply read confNo ∧ server.Reading read s := by
  unfold unreadReply
  apply triple_checkConnection
  · apply (triple_getMembership confNo).bind
    · intro membership
      by_cases hmember : confNo ∈ server.memberOf
      · simp only [if_pos hmember, Except.ok.injEq, exists_eq_left']
        rintro s marks ⟨⟨hshows, hmarks⟩, hs⟩
        refine (triple_getUnreadTexts hshows (hfuel hmember)).andThen ?_ s marks ⟨hs, hmarks⟩
        intro texts
        apply Triple.of_imp
        rintro rfl
        exact Triple.pure fun _ ht => ⟨rfl, ht⟩
      · simp only [if_neg hmember, reduceCtorEq, false_and]
        exact fun _ _ hfalse => hfalse.elim
    · rintro e s ⟨⟨hresult, hmarks⟩, hs⟩
      refine ⟨?_, hs, hmarks⟩
      by_cases hmember : confNo ∈ server.memberOf
      · rw [if_pos hmember] at hresult
        obtain ⟨_, hreply, -⟩ := hresult
        cases hreply
      · rw [if_neg hmember] at hresult ⊢
        rw [Except.error.inj hresult]
  · rintro e s ⟨hresult, -⟩
    by_cases hmember : confNo ∈ server.memberOf
    · rw [if_pos hmember] at hresult
      cases hresult
    · rw [if_neg hmember] at hresult
      exact ⟨_, Except.error.inj hresult⟩

/-- The conferences that the server lists, and then the unread texts of each of them. -/
theorem triple_getMembershipUnreads
    (hfuel : ∀ confNo ∈ server.memberOf, (server.locals confNo).highest + 1 < fuel) :
    Triple server.Serves (server.Reading read) (cls.getMembershipUnreads fuel server.persNo)
      fun result s => ReadCall.getMembershipUnreads.Right server cls read result ∧
        server.Reading read s := by
  let call : ClientCall := ⟨false, .person (.getUnreadConfs server.persNo)⟩
  have hserves : ∀ marks, server.Represents read marks →
      (∃ reply after, server.Handles marks call.req reply after) ∧
        ∀ reply after, server.Handles marks call.req reply after →
          (∃ confNos, reply = .ok confNos ∧ server.ListsUnread after confNos) ∧
            server.Represents read after := by
    intro marks hmarks
    constructor
    · exact ⟨.ok server.memberOf, marks, rfl, fun _ => ⟨_, rfl, listsUnread_memberOf marks⟩⟩
    · rintro reply after ⟨rfl, hreply⟩
      exact ⟨hreply rfl, hmarks⟩
  have hlists := triple_request call (SessionOp.request call.req)
    (fun s client hclient => SessionOp.request_of_some hclient) hserves
  apply triple_checkConnection
  · apply hlists.bind
    · rintro confNos s marks ⟨⟨⟨_, heq, hunread⟩, hmarks⟩, hs⟩
      obtain rfl := Except.ok.inj heq
      obtain ⟨hnodup, hmember, hlisted⟩ := hunread
      have hall : Triple server.Serves (server.Reading read)
          (confNos.mapM fun confNo => cls.getMembershipUnread fuel server.persNo confNo)
          (Returning fun ms s => ms = confNos.map (server.membershipUnread read) ∧
            server.Reading read s) := by
        refine Triple.mapM fun no hno => ?_
        refine (triple_getMembershipUnread fun hmember => hfuel no hmember).weaken ?_
        rintro result t ⟨rfl, ht⟩
        rw [unreadReply, if_pos (hmember no hno)]
        exact ⟨rfl, ht⟩
      refine hall.andThen (fun ms => Triple.of_imp ?_) s marks ⟨hs, hmarks⟩
      rintro rfl
      refine Triple.pure fun t ht => ⟨⟨confNos.filter fun no => server.unreadTexts read no ≠ [],
        hnodup.filter _, fun no => ?_, ?_⟩, ht⟩
      · rw [List.mem_filter, decide_eq_true_eq]
        constructor
        · exact fun h => ⟨hmember no h.1, h.2⟩
        · rintro ⟨hno, hne⟩
          refine ⟨?_, hne⟩
          obtain ⟨textNo, htext⟩ := List.exists_mem_of_ne_nil _ hne
          obtain ⟨htext, hread⟩ := List.mem_filter.mp htext
          obtain ⟨localNo, hlocal, rfl⟩ := List.mem_map.mp htext
          have hexisting := (server.locals no).existing_of_mem_between hlocal
          refine hlisted no hno localNo hexisting ?_
          rw [hmarks no hno localNo hexisting]
          simpa using hread
      · rw [List.filter_map]
        simp only [Function.comp_def, membershipUnread, List.length_pos_iff_ne_nil, gt_iff_lt]
    · rintro e s ⟨⟨⟨_, heq, -⟩, -⟩, -⟩
      cases heq
  · rintro e s ⟨⟨_, -, -, heq⟩, -⟩
    cases heq

/-! ## Marks -/

/-- One request to mark a text in a conference, where it does not matter whether the person
is a member. -/
theorem triple_unlessNotMember {m : ClientM Unit} (call : ClientCall) {texts : List (Option ℕ)}
    {value : Bool} (hm : ∀ client, m client = .once client call fun _ client => ((), client))
    (hprogress : ∀ marks, ∃ reply after, server.Handles marks call.req reply after)
    (hhandles : ∀ marks reply after, server.Handles marks call.req reply after →
      (confNo ∈ server.memberOf ∧ (∃ done, reply = .ok done) ∧
          after = marks.set confNo texts value) ∨
        confNo ∉ server.memberOf ∧ reply = .error (notMember confNo) ∧ after = marks)
    (hset : ∀ marks, P marks → confNo ∈ server.memberOf → P' (marks.set confNo texts value))
    (hkept : ∀ marks, P marks → confNo ∉ server.memberOf → P' marks) :
    Triple server.Serves (fun s => server.data.Mirrored s.1 ∧ P s.2)
      (SessionOp.client (ClientState.unlessNotMember m))
      (Returning fun _ s => server.data.Mirrored s.1 ∧ P' s.2) := by
  rintro s marks ⟨hs, hmarks⟩
  obtain ⟨client, hclient, -⟩ := id hs
  have hbody : ∀ client, ClientState.unlessNotMember m client =
      (Suspended.once client call fun _ client => ((), client)).handle _ :=
    fun client => congrArg (Suspended.handle · _) (hm client)
  rw [SessionOp.client_of_some hclient, hbody]
  have hput : ∀ s : SessionState,
      { s with client := s.client.map fun _ => s.client.getD client } = s :=
    fun s => SessionOp.putClient_getD s client
  constructor
  · obtain ⟨reply, after, hreply⟩ := hprogress marks
    refine ⟨reply, (s, after), ?_, hreply⟩
    change SessionState.Forgets { s with client := s.client.map fun _ => s.client.getD client } s
    rw [hput]
    exact .refl s
  · rintro reply ⟨t, after⟩ ⟨hforgets, hreply⟩
    change SessionState.Forgets { s with client := s.client.map fun _ => s.client.getD client } t
      at hforgets
    rw [hput] at hforgets
    have ht := hs.forgets hforgets
    have hend : server.data.Mirrored
        { t with client := t.client.map fun _ => t.client.getD client } := by rwa [hput]
    rcases hhandles marks reply after hreply with ⟨hmember, ⟨done, rfl⟩, rfl⟩ | ⟨hmember, rfl, rfl⟩
    · exact ⟨hend, hset marks hmarks hmember⟩
    · exact ⟨hend, hkept _ hmarks hmember⟩

/-- The marks of a text under some of its recipients have been set. -/
def SetFor (server : TextServer) (read : ReadTexts) (value : Bool) (done : List MIRecipient)
    (marks : ReadMarks) : Prop :=
  ∀ no ∈ server.memberOf, ∀ localNo, (server.locals no).existing localNo = true →
    marks no localNo =
      if ∃ mi ∈ done, mi.recpt = no ∧ mi.locNo = some localNo then value
      else read no ((server.locals no).globalNo localNo)

theorem SetFor.set {value : Bool} {done : List MIRecipient} {mi : MIRecipient} {marks : ReadMarks}
    (h : server.SetFor read value done marks) :
    server.SetFor read value (done ++ [mi]) (marks.set mi.recpt [mi.locNo] value) := by
  intro no hno localNo hexisting
  have hlocal := h no hno localNo hexisting
  unfold ReadMarks.set
  by_cases hmi : mi.recpt = no ∧ mi.locNo = some localNo
  · have hnow : no = mi.recpt ∧ [mi.locNo].contains (some localNo) := by simp [hmi]
    have hdone : ∃ x ∈ done ++ [mi], x.recpt = no ∧ x.locNo = some localNo := ⟨mi, by simp, hmi⟩
    rw [if_pos hnow, if_pos hdone]
  · have hnow : ¬ (no = mi.recpt ∧ [mi.locNo].contains (some localNo)) := by
      rintro ⟨hrecpt, hlocNo⟩
      exact hmi ⟨hrecpt.symm, (List.mem_singleton.mp (List.contains_iff_mem.mp hlocNo)).symm⟩
    rw [if_neg hnow, hlocal]
    simp only [List.mem_append, List.mem_singleton, or_and_right, exists_or, exists_eq_left, hmi,
      or_false]

/-- A conference that the person is not a member of has no marks. -/
theorem SetFor.skip {value : Bool} {done : List MIRecipient} {mi : MIRecipient} {marks : ReadMarks}
    (h : server.SetFor read value done marks) (hmember : mi.recpt ∉ server.memberOf) :
    server.SetFor read value (done ++ [mi]) marks := by
  intro no hno localNo hexisting
  have hmi : ¬ (mi.recpt = no ∧ mi.locNo = some localNo) := fun hmi => hmember (hmi.1 ▸ hno)
  rw [h no hno localNo hexisting]
  simp only [List.mem_append, List.mem_singleton, or_and_right, exists_or, exists_eq_left, hmi,
    or_false]

theorem textStats_of_getTextStat {data : ServerData} {textNo : ℕ} {textStat : TextStat}
    (h : data.getTextStat textNo = .ok textStat) : data.textStats textNo = some textStat := by
  unfold ServerData.getTextStat at h
  cases hstat : data.textStats textNo with
  | none =>
    rw [hstat] at h
    cases h
  | some found =>
    rw [hstat] at h
    rw [Except.ok.inj h]

/-- The loop over the recipients of a text, for either of the two marks. -/
theorem triple_setMarks {value : Bool} {textNo : ℕ} {m : MIRecipient → ClientM Unit}
    (hm : ∀ {mi}, mi.locNo ≠ none → ∀ {P P' : ReadMarks → Prop},
      (∀ marks, P marks → mi.recpt ∈ server.memberOf →
        P' (marks.set mi.recpt [mi.locNo] value)) →
      (∀ marks, P marks → mi.recpt ∉ server.memberOf → P' marks) →
      Triple server.Serves (fun s => server.data.Mirrored s.1 ∧ P s.2)
        (SessionOp.client (m mi)) (Returning fun _ s => server.data.Mirrored s.1 ∧ P' s.2)) :
    Triple server.Serves (server.Reading read)
      (cls.checkConnection do
        let textStat ← SessionOp.client (ClientState.textstat textNo)
        textStat.miscInfo.recipientList.forM fun mi => SessionOp.client (m mi))
      fun result s => result = (server.data.getTextStat textNo).map (fun _ => ()) ∧
        server.Reading (fun confNo no => if no = textNo then value else read confNo no) s := by
  apply triple_checkConnection
  · apply (triple_data (ServerData.computes_client (server.data.computes_textstat textNo))).bind
    · intro textStat
      apply Triple.of_imp
      intro hstat
      have htext := textStats_of_getTextStat hstat.symm
      have hloop := @Triple.forM _ _ _ _ _ _ server.Serves textStat.miscInfo.recipientList
        (fun mi => SessionOp.client (m mi))
        (fun done s => server.data.Mirrored s.1 ∧ server.SetFor read value done s.2) ?_
      · refine hloop.mono ?_ ?_
        · intro s hs
          exact ⟨hs.1, fun no hno localNo hexisting => by simp [hs.2 no hno localNo hexisting]⟩
        · rintro (e | done) s hs
          · exact hs.elim
          · refine ⟨by rw [← hstat]; rfl, hs.1, fun no hno localNo hexisting => ?_⟩
            rw [hs.2 no hno localNo hexisting]
            simp only [server.recipients htext, hexisting, true_and]
      · intro before mi after hall
        have hmi : mi ∈ textStat.miscInfo.recipientList := by simp [hall]
        exact hm (server.numbered htext mi hmi) (fun _ h _ => h.set) fun _ h hmember =>
          h.skip hmember
    · rintro e s ⟨hstat, hs, hmarks⟩
      refine ⟨by rw [← hstat]; rfl, hs, fun no hno localNo hexisting => ?_⟩
      have hne : (server.locals no).globalNo localNo ≠ textNo := by
        rintro rfl
        obtain ⟨textStat, htext⟩ := Option.isSome_iff_exists.mp (server.isText hexisting)
        rw [ServerData.getTextStat, htext] at hstat
        cases hstat
      exact (hmarks no hno localNo hexisting).trans (if_neg hne).symm
  · rintro e s ⟨hresult, -⟩
    have hserver : ServerData.FromServer ((server.data.getTextStat textNo).map fun _ => ()) :=
      (ServerData.fromServer_getTextStat textNo).map
    exact hserver e hresult.symm

theorem triple_markAsRead (textNo : ℕ) :
    Triple server.Serves (server.Reading read) (cls.markAsRead textNo)
      fun result s => result = (server.data.getTextStat textNo).map (fun _ => ()) ∧
        server.Reading ((ReadCall.markAsRead textNo).apply read) s := by
  refine triple_setMarks fun {mi} hmi {P P'} hset hkept => ?_
  refine triple_unlessNotMember ⟨false, .markAsRead mi.recpt [mi.locNo]⟩
    (fun client => ?_) (fun marks => ?_) (fun marks reply after hhandles => ?_) hset hkept
  · exact Suspended.await_eq_once (fun _ _ => rfl) fun _ _ => rfl
  · obtain ⟨reply, after, hsets⟩ := exists_sets marks mi.recpt [mi.locNo] true
    exact ⟨reply, after, by simpa using hmi.symm, hsets⟩
  · rcases hhandles.2.cases with ⟨hmember, rfl, rfl⟩ | hnot
    · exact Or.inl ⟨hmember, ⟨(), rfl⟩, rfl⟩
    · exact Or.inr hnot

theorem triple_markAsUnread (textNo : ℕ) :
    Triple server.Serves (server.Reading read) (cls.markAsUnread textNo)
      fun result s => result = (server.data.getTextStat textNo).map (fun _ => ()) ∧
        server.Reading ((ReadCall.markAsUnread textNo).apply read) s := by
  refine triple_setMarks fun {mi} hmi {P P'} hset hkept => ?_
  refine triple_unlessNotMember ⟨false, .markAsUnread mi.recpt mi.locNo⟩
    (fun client => ?_) (fun marks => ?_) (fun marks reply after hhandles => ?_) hset hkept
  · exact Suspended.await_eq_once (fun _ _ => rfl) fun _ _ => rfl
  · obtain ⟨reply, after, hsets⟩ := exists_sets marks mi.recpt [mi.locNo] false
    exact ⟨reply, after, hmi, hsets⟩
  · rcases hhandles.2.cases with ⟨hmember, rfl, rfl⟩ | hnot
    · exact Or.inl ⟨hmember, ⟨(), rfl⟩, rfl⟩
    · exact Or.inr hnot

/-! ## Runs -/

/-- Each call returns what is right by the abstract view, and takes the marks with it. -/
theorem triple_body (call : ReadCall)
    (hfuel : ∀ confNo ∈ server.memberOf, (server.locals confNo).highest + 1 < fuel) :
    Triple server.Serves (server.Reading read) (call.body cls server.persNo fuel)
      fun result s => call.Right server cls read result ∧ server.Reading (call.apply read) s := by
  cases call with
  | getTextStat textNo => exact triple_data (ServerData.computes_getTextStat textNo)
  | markAsRead textNo => exact triple_markAsRead textNo
  | markAsUnread textNo => exact triple_markAsUnread textNo
  | getMembershipUnread confNo => exact triple_getMembershipUnread (hfuel confNo)
  | getMembershipUnreads => exact triple_getMembershipUnreads hfuel

end TextServer

abbrev ReadEvent : Type := CallEvent Exn ReadCall.Result

/-- A session that marks texts and asks for unread texts. -/
def ReadCall.session (cls : SessionClass) (persNo fuel : ℕ) (calls : List ReadCall) :
    SessionOp (List ReadEvent) :=
  Coroutine.session (ReadCall.body cls persNo fuel) calls

/-- What a call returns or raises is right, and afterwards the person has read what it says. -/
abbrev ReadCall.Takes (server : TextServer) (cls : SessionClass) (read : ReadTexts)
    (call : ReadCall) (result : Except Exn call.Result) (after : ReadTexts) : Prop :=
  call.Right server cls read result ∧ after = call.apply read

/-- What the calls return and raise is right by the abstract view, from the first to the last. -/
abbrev ReadTrace (server : TextServer) (cls : SessionClass) :
    ReadTexts → List ReadEvent → ReadTexts → Prop :=
  Trace (ReadCall.Takes server cls)

section

variable {server : TextServer} {cls : SessionClass} {fuel : ℕ} {s : SessionState}
  {marks : ReadMarks} {read read' : ReadTexts} {calls : List ReadCall} {textNo confNo : ℕ}

theorem ReadCall.apply_of_ne_markAsUnread {call : ReadCall} (hcall : call ≠ .markAsUnread textNo)
    (hread : read confNo textNo = true) : call.apply read confNo textNo = true := by
  cases call with
  | markAsRead no =>
    change (if textNo = no then true else read confNo textNo) = true
    rw [hread, ite_self]
  | markAsUnread no =>
    have hne : textNo ≠ no := fun h => hcall (h ▸ rfl)
    exact (if_neg hne).trans hread
  | _ => exact hread

/-- A text that was marked as read is not listed as unread, until it is marked as unread. -/
theorem ReadTrace.not_listed {before between after : List ReadEvent}
    {result : Except Exn Unit} {listed : KomMembershipUnread}
    (h : ReadTrace server cls read (before ++ ⟨.markAsRead textNo, result⟩ :: between ++
      ⟨.getMembershipUnread confNo, .ok listed⟩ :: after) read')
    (hbetween : ∀ result, ⟨.markAsUnread textNo, result⟩ ∉ between) :
    textNo ∉ listed.unreadTexts := by
  obtain ⟨now, _, hbefore, ⟨hlisted, -⟩, -⟩ := h.split
  obtain ⟨_, _, -, ⟨-, rfl⟩, hmeanwhile⟩ := hbefore.split
  have hread : now confNo textNo = true := by
    refine hmeanwhile.keeps (I := fun read => read confNo textNo = true) ?_ (if_pos rfl)
    rintro read _ ⟨call, result⟩ hmem ⟨-, rfl⟩ hread
    refine ReadCall.apply_of_ne_markAsUnread ?_ hread
    rintro rfl
    exact hbetween result hmem
  change Except.ok listed = _ at hlisted
  split at hlisted
  · rw [Except.ok.inj hlisted]
    intro hmem
    have hunread := (List.mem_filter.mp hmem).2
    rw [hread] at hunread
    cases hunread
  · cases hlisted

theorem TextServer.triple_session
    (hfuel : ∀ confNo ∈ server.memberOf, (server.locals confNo).highest + 1 < fuel) :
    Triple server.Serves (server.Reading read) (ReadCall.session cls server.persNo fuel calls)
      (Returning fun events s => events.map CallEvent.call = calls ∧
        ∃ read', ReadTrace server cls read events read' ∧ server.Reading read' s) := by
  have hbody : ∀ (_ : ℕ) (read : ReadTexts), ∀ call ∈ calls,
      Triple server.Serves (server.Reading read) (ReadCall.body cls server.persNo fuel call)
        fun result s => ∃ after, ReadCall.Takes server cls read call result after ∧
          server.Reading after s := by
    intro _ read call _
    refine (TextServer.triple_body call hfuel).weaken ?_
    exact fun result s hs => ⟨call.apply read, ⟨hs.1, rfl⟩, hs.2⟩
  exact Triple.session (J := fun _ => server.Reading) hbody (n := 0)

/-- **Marking texts as read** is right by the abstract view: the session comes to an end, and
then each list of unread texts consists of the existing texts of the conference, in order, that
were not last marked as read. -/
theorem readMarks_right (hs : server.data.Mirrored s) (hmarks : server.Represents read marks)
    (hfuel : ∀ confNo ∈ server.memberOf, (server.locals confNo).highest + 1 < fuel) :
    (ReadCall.session cls server.persNo fuel calls s).Achieves server.Serves marks
      fun result t => ∃ events read', result = .ok events ∧ events.map CallEvent.call = calls ∧
        ReadTrace server cls read events read' ∧ server.Represents read' t.2 := by
  refine Suspended.Achieves.mono (TextServer.triple_session hfuel s marks ⟨hs, hmarks⟩) ?_
  rintro (e | events) t hend
  · exact hend.elim
  · obtain ⟨hcalls, read', htrace, -, hrepresents⟩ := hend
    exact ⟨events, read', rfl, hcalls, htrace, hrepresents⟩

end

/-- No local texts. -/
def LocalTexts.empty : LocalTexts where
  existing _ := false
  highest := 0
  globalNo := id
  existing_bounds _ h := nomatch h
  globalNo_injective _ _ h := nomatch h
  globalNo_ne_zero _ h := nomatch h

def sampleTextStat (localNo : ℕ) : TextStat where
  creationTime := ⟨0, 0, 0, 0, 0, 0, 0, 0, 0⟩
  author := 6
  noOfLines := 0
  noOfChars := 0
  noOfMarks := 0
  miscInfo := { recipientList := [⟨0, 7, some localNo, none, none, none⟩] }
  auxItems := []

/-- The texts 99, 98 and 96. -/
def sampleTextData : ServerData where
  conferences _ := none
  textStats no :=
    if sampleTexts.existing (100 - no) = true then some (sampleTextStat (100 - no)) else none
  conferences_zero := rfl

theorem textStats_sampleTextData {textNo : ℕ} {textStat : TextStat}
    (h : sampleTextData.textStats textNo = some textStat) :
    sampleTexts.existing (100 - textNo) = true ∧ textStat = sampleTextStat (100 - textNo) := by
  unfold sampleTextData at h
  dsimp only at h
  split at h
  · next hexisting => exact ⟨hexisting, (Option.some.inj h).symm⟩
  · cases h

open LocalTexts in
/-- The texts were sent to the conference 7. -/
def sampleTextServer : TextServer where
  data := sampleTextData
  locals no := if no = 7 then sampleTexts else .empty
  localToGlobal no := createLocalToGlobalHandler (if no = 7 then sampleTexts else .empty)
  persNo := 5
  memberOf := [7]
  window no := createLocalToGlobalHandler_window _
  memberOf_nodup := by decide
  recipients := by
    intro textNo textStat hstat confNo localNo
    obtain ⟨hexisting, rfl⟩ := textStats_sampleTextData hstat
    have hbounds := sampleTexts.existing_bounds _ hexisting
    by_cases hconf : confNo = 7
    · subst hconf
      simp only [sampleTextStat, List.mem_singleton, exists_eq_left, Option.some.injEq, true_and,
        if_true]
      constructor
      · rintro rfl
        exact ⟨hexisting, by simp only [sampleTexts] at hbounds ⊢; omega⟩
      · rintro ⟨hlocal, rfl⟩
        have hlocal := sampleTexts.existing_bounds _ hlocal
        simp only [sampleTexts] at hlocal ⊢
        omega
    · simp [sampleTextStat, hconf, Ne.symm hconf, LocalTexts.empty]
  numbered := by
    intro textNo textStat hstat mi hmi
    obtain ⟨-, rfl⟩ := textStats_sampleTextData hstat
    obtain rfl := List.mem_singleton.mp hmi
    simp
  isText := by
    intro confNo localNo hexisting
    split at hexisting
    · next hconf =>
      have hbounds := sampleTexts.existing_bounds _ hexisting
      have hlocal : 100 - sampleTexts.globalNo localNo = localNo := by
        simp only [sampleTexts] at hbounds ⊢
        omega
      simp only [hconf, if_true, sampleTextData, hlocal, hexisting, Option.isSome_some]
    · cases hexisting

def sampleReadCalls : List ReadCall := [.markAsRead 98, .getMembershipUnread 7]

/-- The text 98 is marked as read, and then the texts 99 and 96 are unread. -/
def sampleReadEvents : List ReadEvent :=
  [⟨.markAsRead 98, .ok ()⟩, ⟨.getMembershipUnread 7, .ok ⟨5, 7, 2, [99, 96]⟩⟩]

theorem eq_sampleReadEvents {events : List ReadEvent} {read : ReadTexts}
    (hcalls : events.map CallEvent.call = sampleReadCalls)
    (htrace : ReadTrace sampleTextServer .komSession (fun _ _ => false) events read) :
    events = sampleReadEvents := by
  match events, hcalls with
  | [⟨_, marked⟩, ⟨_, listed⟩], rfl =>
    cases htrace with
    | cons hmarked hrest =>
      obtain ⟨hmarked, rfl⟩ := hmarked
      obtain rfl : marked = .ok () := hmarked
      cases hrest with
      | cons hlisted _ =>
        obtain rfl : listed = .ok ⟨5, 7, 2, [99, 96]⟩ := hlisted.1.trans (by rfl)
        rfl

theorem readMarks_right_sample :
    ∃ t, (ReadCall.session .komSession 5 6 sampleReadCalls
        ⟨some { ClientState.init with connected := true }, some 1, none, none⟩).Ends
      sampleTextServer.Serves (fun _ _ => false) (.ok sampleReadEvents) t := by
  have hachieves := @readMarks_right sampleTextServer .komSession 6 _ (fun _ _ => false)
    (fun _ _ => false) sampleReadCalls (ServerData.mirrored_connected (some 1) none none)
    (fun _ _ _ _ => rfl) (by decide)
  obtain ⟨result, t, hends⟩ := hachieves.exists_ends
  obtain ⟨events, read', rfl, hcalls, htrace, -⟩ := hachieves.of_ends hends
  rw [eq_sampleReadEvents hcalls htrace] at hends
  exact ⟨t, hends⟩

end Pylyskom
