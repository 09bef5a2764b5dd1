import Pylyskom.Coroutine
import Pylyskom.AsyncMessages
import Pylyskom.Collections.Dict
import Pylyskom.Errors
import Mathlib.Data.List.Forall2

/-!
# The person client

`CachingPersonClient` of `cachedconnection.py` and `AioCachingPersonClient` of `aio.py`.
The two classes have the same methods; in one a method blocks while it waits for a reply,
in the other it lets other tasks run. Memberships of the current person are kept in two
caches, one by conference and one by position.
-/

namespace Pylyskom

/-! ## Caches -/

/-- `Cache` and `AioCache`, for values of any type. -/
structure Cache (ν : Type) where
  dict : Dict ℕ ν
  cached : ℕ
  uncached : ℕ

namespace Cache

variable {ν : Type}

def init : Cache ν := ⟨∅, 0, 0⟩

def setitem (self : Cache ν) (no : ℕ) (val : ν) : Cache ν :=
  { self with dict := self.dict.set no val }

def invalidate (self : Cache ν) (no : ℕ) : Cache ν :=
  if no ∈ self.dict then { self with dict := self.dict.erase no } else self

def invalidateAll (self : Cache ν) : Cache ν := { self with dict := ∅ }

/-- `__getitem__` of a cache that is an attribute of a client, with its `fetcher`. -/
def getitem {σ ρ ε : Type} {μ : ρ → Type} (cache : σ → Cache ν)
    (update : (Cache ν → Cache ν) → σ → σ) (fetcher : ℕ → Coroutine σ ρ μ ε ν) (no : ℕ) :
    Coroutine σ ρ μ ε ν := do
  match (cache (← get)).dict.get? no with
  | some value =>
    modify (update fun self => { self with cached := self.cached + 1 })
    return value
  | none =>
    modify (update fun self => { self with uncached := self.uncached + 1 })
    let value ← fetcher no
    modify (update fun self => self.setitem no value)
    return value

section getitem

variable {σ ρ ε : Type} {μ : ρ → Type} {cache : σ → Cache ν} {update : (Cache ν → Cache ν) → σ → σ}
  {fetcher : ℕ → Coroutine σ ρ μ ε ν} {no : ℕ} {s : σ}

private theorem getitem_eq :
    getitem cache update fetcher no s =
      (match (cache s).dict.get? no with
        | some value => (do
          modify (update fun self => { self with cached := self.cached + 1 })
          return value : Coroutine σ ρ μ ε ν)
        | none => do
          modify (update fun self => { self with uncached := self.uncached + 1 })
          let value ← fetcher no
          modify (update fun self => self.setitem no value)
          return value) s := rfl

/-- A value that is present is returned at once. -/
theorem getitem_hit {value : ν} (h : (cache s).dict.get? no = some value) :
    getitem cache update fetcher no s =
      .done (.ok value) (update (fun self => { self with cached := self.cached + 1 }) s) := by
  rw [getitem_eq, h]
  rfl

/-- A value that is absent is fetched and stored. -/
theorem getitem_miss (h : (cache s).dict.get? no = none) :
    getitem cache update fetcher no s =
      (do
        let value ← fetcher no
        modify (update fun self => self.setitem no value)
        return value : Coroutine σ ρ μ ε ν)
      (update (fun self => { self with uncached := self.uncached + 1 }) s) := by
  rw [getitem_eq, h]
  rfl

end getitem

@[simp] theorem get?_setitem (self : Cache ν) (no k : ℕ) (val : ν) :
    (self.setitem no val).dict.get? k = if k = no then some val else self.dict.get? k := by
  simp [setitem]

/-- What holds of a value that is stored, and of those that are there, holds of all of them. -/
theorem of_get?_setitem {self : Cache ν} {no k : ℕ} {val v : ν} {P : ℕ → ν → Prop}
    (hval : P no val) (hself : self.dict.get? k = some v → P k v)
    (hget : (self.setitem no val).dict.get? k = some v) : P k v := by
  rw [get?_setitem] at hget
  split_ifs at hget with hk
  · obtain rfl := Option.some.inj hget
    rwa [hk]
  · exact hself hget

@[simp] theorem get?_invalidate (self : Cache ν) (no k : ℕ) :
    (self.invalidate no).dict.get? k = if k = no then none else self.dict.get? k := by
  unfold invalidate
  by_cases hmem : no ∈ self.dict
  · simp [hmem]
  · rw [if_neg hmem]
    split
    · next heq => rw [heq, Dict.get?_eq_none_iff.mpr hmem]
    · rfl

end Cache

/-! ## Requests -/

/-- The requests of the methods below, with the arguments of their classes. -/
inductive PersonRequest : Type
  | login (persNo : ℕ) (password : Bytes) (invisible : ℕ)
  | logout
  | changeConference (confNo : ℕ)
  | getMembership11 (person first noOfConfs wantReadRanges maxRanges : ℕ)
  | queryReadTexts11 (person conference wantReadRanges maxRanges : ℕ)
  | getUconfStat (confNo : ℕ)
  /-- `ReqGetUconfStat(-(n + 1))`; a conference never has such a number. -/
  | getNegativeUconfStat (n : ℕ)
  | getUnreadConfs (persNo : ℕ)
  deriving DecidableEq

/-- What the response type of a request parses. -/
abbrev PersonRequest.Reply : PersonRequest → Type
  | getMembership11 .. => List Membership
  | queryReadTexts11 .. => Membership
  | getUconfStat _ => UConference
  | getNegativeUconfStat _ => Empty
  | getUnreadConfs _ => List ℕ
  | _ => Unit

/-! ## The client -/

structure CachingPersonClient where
  /-- Current person number. -/
  persNo : ℕ
  /-- Current conference (change-conference). -/
  currentConferenceNo : ℕ
  uconferences : Cache UConference
  memberships : Cache Membership
  /-- The keys are the positions in the membership list. -/
  membershipsByPosition : Dict ℕ Membership

/-- A method of the person client. -/
abbrev PersonM := Coroutine CachingPersonClient PersonRequest PersonRequest.Reply Exn

namespace CachingPersonClient

def init : CachingPersonClient where
  persNo := 0
  currentConferenceNo := 0
  uconferences := .init
  memberships := .init
  membershipsByPosition := ∅

/-- The cached memberships if all of them are there. -/
def getCachedMembershipsByPosition (self : CachingPersonClient) (first noOfConfs : ℕ) :
    Option (List Membership) :=
  (List.range' first noOfConfs).mapM self.membershipsByPosition.get?

def updateCachedMembershipsByPosition (self : CachingPersonClient)
    (memberships : List Membership) : CachingPersonClient :=
  { self with
    membershipsByPosition :=
      memberships.foldl (fun dict m => dict.set m.position m) self.membershipsByPosition }

/-- The first position found is deleted, if there is one. -/
def invalidateMembership (self : CachingPersonClient) (confNo : ℕ) : CachingPersonClient :=
  let foundAt := self.membershipsByPosition.items.find? fun item => item.2.conference = confNo
  { self with
    memberships := self.memberships.invalidate confNo
    membershipsByPosition :=
      match foundAt with
      | some (pos, _) => self.membershipsByPosition.erase pos
      | none => self.membershipsByPosition }

def request (req : PersonRequest) : PersonM req.Reply := Coroutine.request req

def uconference (no : ℕ) : PersonM UConference :=
  Cache.getitem uconferences
    (fun f (self : CachingPersonClient) => { self with uconferences := f self.uconferences })
    (fun no => request (.getUconfStat no)) no

def login (persNo : ℕ) (password : Bytes) : PersonM Unit := do
  request (.login persNo password 0)
  -- The current person is needed to have and to invalidate caches.
  modify fun self => { self with persNo }

def logout : PersonM Unit := do
  request .logout
  -- Invalidate caches that are/were for the current person.
  modify fun self =>
    { self with
      persNo := 0
      membershipsByPosition := ∅
      memberships := self.memberships.invalidateAll }

/-- The server updates `last-time-read` for the membership of the *previous* conference. -/
def changeConference (confNo : ℕ) : PersonM Unit := do
  let prevConfNo := (← get).currentConferenceNo
  request (.changeConference confNo)
  modify fun self => { self with currentConferenceNo := confNo }
  if prevConfNo ≠ 0 then modify fun self => self.invalidateMembership prevConfNo

def getMemberships (persNo first noOfConfs : ℕ) (wantReadRanges : Bool) :
    PersonM (List Membership) := do
  if wantReadRanges then
    request (.getMembership11 persNo 0 noOfConfs 1 0)
  else
    let self ← get
    if persNo = self.persNo then
      match self.getCachedMembershipsByPosition first noOfConfs with
      | some memberships => return memberships
      | none =>
        let memberships ←
          request (.getMembership11 self.persNo first noOfConfs 0 0)
        modify fun self => self.updateCachedMembershipsByPosition memberships
        return memberships
    else
      request (.getMembership11 persNo 0 noOfConfs 0 0)

/-- The membership of the current person, without read ranges. -/
def fetchMembership (confNo : ℕ) : PersonM Membership := do
  request (.queryReadTexts11 (← get).persNo confNo 0 0)

def getMembership (persNo confNo : ℕ) (wantReadRanges : Bool) : PersonM Membership := do
  if wantReadRanges then
    request (.queryReadTexts11 persNo confNo 1 0)
  else
    let self ← get
    if persNo = self.persNo then
      Cache.getitem memberships
        (fun f (self : CachingPersonClient) => { self with memberships := f self.memberships })
        fetchMembership confNo
    else
      request (.queryReadTexts11 persNo confNo 0 0)

/-- All memberships by position are invalidated, since positions may change. -/
def cpahLeaveConf (self : CachingPersonClient) (confNo : ℕ) : CachingPersonClient :=
  { self with
    memberships := self.memberships.invalidate confNo
    membershipsByPosition := ∅ }

def cpahNewMembership (self : CachingPersonClient) : CachingPersonClient :=
  { self with membershipsByPosition := ∅ }

/-- `_handle_async_message` with the handlers of both classes that `__init__` adds, as far
as they concern the caches above. -/
def handleAsyncMessage (self : CachingPersonClient) : AsyncMessage → CachingPersonClient
  | .newName confNo _ _ =>
    { self with uconferences := self.uconferences.invalidate confNo }
  | .newText _ textStat =>
    { self with
      uconferences := textStat.miscInfo.recipientList.foldl
        (fun uconferences rcpt => uconferences.invalidate rcpt.recpt) self.uconferences }
  | .newRecipient _ confNo _ =>
    { self with uconferences := self.uconferences.invalidate confNo }
  | .leaveConf confNo => self.cpahLeaveConf confNo
  | .newMembership _ _ => self.cpahNewMembership
  | _ => self

theorem getCachedMembershipsByPosition_eq_some {self : CachingPersonClient}
    {first noOfConfs : ℕ} {ms : List Membership} :
    self.getCachedMembershipsByPosition first noOfConfs = some ms ↔
      List.Forall₂ (fun pos m => self.membershipsByPosition.get? pos = some m)
        (List.range' first noOfConfs) ms := by
  unfold getCachedMembershipsByPosition
  induction noOfConfs generalizing first ms with
  | zero => simp [eq_comm]
  | succ n ih =>
    rw [List.range'_succ, List.mapM_cons, List.forall₂_cons_left_iff]
    cases hfirst : self.membershipsByPosition.get? first with
    | none => simp
    | some m =>
      cases hrest : (List.range' (first + 1) n).mapM self.membershipsByPosition.get? with
      | none => simp [← ih, hrest]
      | some rest =>
        have hms : some (m :: rest) = some ms ↔ ∃ ms', rest = ms' ∧ ms = m :: ms' := by
          simp [eq_comm]
        simpa [← ih, hrest] using hms

end CachingPersonClient

/-! ## Calls -/

/-- A call of a method; those that return nothing are taken to return no memberships. -/
inductive PersonCall : Type
  | login (persNo : ℕ) (password : Bytes)
  | logout
  | changeConference (confNo : ℕ)
  | getMemberships (persNo first noOfConfs : ℕ) (wantReadRanges : Bool)
  | getMembership (persNo confNo : ℕ) (wantReadRanges : Bool)

open CachingPersonClient in
def PersonCall.body : PersonCall → PersonM (List Membership)
  | .login persNo password => do
    CachingPersonClient.login persNo password
    return []
  | .logout => do
    CachingPersonClient.logout
    return []
  | .changeConference confNo => do
    CachingPersonClient.changeConference confNo
    return []
  | .getMemberships persNo first noOfConfs wantReadRanges =>
    CachingPersonClient.getMemberships persNo first noOfConfs wantReadRanges
  | .getMembership persNo confNo wantReadRanges => do
    let membership ← CachingPersonClient.getMembership persNo confNo wantReadRanges
    return [membership]

namespace PersonCall

open CachingPersonClient

variable (s : CachingPersonClient)

/-! What each call does: it ends at once, or it sends one request. -/

theorem body_login (persNo : ℕ) (password : Bytes) :
    (login persNo password).body s =
      .once s (.login persNo password 0) fun _ s => ([], { s with persNo }) :=
  Suspended.await_eq_once (fun _ _ => rfl) fun _ _ => rfl

theorem body_logout :
    logout.body s = .once s .logout fun _ s => ([],
      { s with
        persNo := 0
        membershipsByPosition := ∅
        memberships := s.memberships.invalidateAll }) :=
  Suspended.await_eq_once (fun _ _ => rfl) fun _ _ => rfl

/-- The client when the cache by conference has had a hit. -/
def hit (s : CachingPersonClient) : CachingPersonClient :=
  { s with memberships := { s.memberships with cached := s.memberships.cached + 1 } }

/-- The client when the cache by conference has had a miss. -/
def missed (s : CachingPersonClient) : CachingPersonClient :=
  { s with memberships := { s.memberships with uncached := s.memberships.uncached + 1 } }

/-- The client when the membership of a conference has been fetched. -/
def stored (confNo : ℕ) (membership : Membership) (s : CachingPersonClient) :
    CachingPersonClient :=
  { s with memberships := s.memberships.setitem confNo membership }

/-- The client when `change_conference` is done, with the conference that was the current
one when it was called. -/
def changed (prevConfNo confNo : ℕ) (s : CachingPersonClient) : CachingPersonClient :=
  if prevConfNo ≠ 0 then
    { s with currentConferenceNo := confNo }.invalidateMembership prevConfNo
  else { s with currentConferenceNo := confNo }

theorem body_changeConference (confNo : ℕ) :
    (changeConference confNo).body s =
      .once s (.changeConference confNo) fun _ t =>
        ([], changed s.currentConferenceNo confNo t) := by
  apply Suspended.await_eq_once
  · intro _ t
    unfold changed
    by_cases hprev : s.currentConferenceNo ≠ 0
    · rw [if_pos hprev, if_pos hprev]
      rfl
    · rw [if_neg hprev, if_neg hprev]
      rfl
  · intro _ _
    rfl

/-- With read ranges the server is asked, and not for the memberships from `first` on. -/
theorem body_getMemberships_ranges (persNo first noOfConfs : ℕ) :
    (getMemberships persNo first noOfConfs true).body s =
      .once s (.getMembership11 persNo 0 noOfConfs 1 0) fun memberships t => (memberships, t) :=
  Suspended.await_eq_once (fun _ _ => rfl) fun _ _ => rfl

/-- So it is for another person. -/
theorem body_getMemberships_other {persNo : ℕ} (hother : persNo ≠ s.persNo)
    (first noOfConfs : ℕ) :
    (getMemberships persNo first noOfConfs false).body s =
      .once s (.getMembership11 persNo 0 noOfConfs 0 0) fun memberships t => (memberships, t) := by
  change ((if persNo = s.persNo then _ else _ : PersonM (List Membership)) s) = _
  rw [if_neg hother]
  exact Suspended.await_eq_once (fun _ _ => rfl) fun _ _ => rfl

theorem body_getMemberships_own (first noOfConfs : ℕ) :
    (getMemberships s.persNo first noOfConfs false).body s =
      match s.getCachedMembershipsByPosition first noOfConfs with
      | some memberships => .done (.ok memberships) s
      | none => .once s (.getMembership11 s.persNo first noOfConfs 0 0) fun memberships t =>
        (memberships, t.updateCachedMembershipsByPosition memberships) := by
  change ((if s.persNo = s.persNo then _ else _ : PersonM (List Membership)) s) = _
  rw [if_pos rfl]
  cases s.getCachedMembershipsByPosition first noOfConfs with
  | some memberships => rfl
  | none => exact Suspended.await_eq_once (fun _ _ => rfl) fun _ _ => rfl

/-- The current person's memberships are all found in the cache, or the server is asked. -/
theorem ends_getMemberships_own {ω : Type} {s : CachingPersonClient} {w : ω}
    {serves : (req : PersonRequest) → CachingPersonClient × ω → Except Exn req.Reply →
      CachingPersonClient × ω → Prop}
    {first noOfConfs : ℕ} {result : Except Exn (List Membership)} {t : CachingPersonClient × ω}
    (ends : ((getMemberships s.persNo first noOfConfs false).body s).Ends serves w result t) :
    (∃ memberships, s.getCachedMembershipsByPosition first noOfConfs = some memberships ∧
      result = .ok memberships ∧ t = (s, w)) ∨
    (Suspended.once s (PersonRequest.getMembership11 s.persNo first noOfConfs 0 0)
      fun memberships t => (memberships, t.updateCachedMembershipsByPosition memberships)).Ends
        serves w result t := by
  rw [body_getMemberships_own] at ends
  cases hcached : s.getCachedMembershipsByPosition first noOfConfs with
  | some memberships =>
    rw [hcached] at ends
    obtain ⟨hresult, ht⟩ := ends
    exact Or.inl ⟨memberships, rfl, hresult, ht⟩
  | none =>
    rw [hcached] at ends
    exact Or.inr ends

theorem body_getMembership_ranges (persNo confNo : ℕ) :
    (getMembership persNo confNo true).body s =
      .once s (.queryReadTexts11 persNo confNo 1 0) fun membership t => ([membership], t) :=
  Suspended.await_eq_once (fun _ _ => rfl) fun _ _ => rfl

theorem body_getMembership_other {persNo : ℕ} (hother : persNo ≠ s.persNo) (confNo : ℕ) :
    (getMembership persNo confNo false).body s =
      .once s (.queryReadTexts11 persNo confNo 0 0) fun membership t => ([membership], t) := by
  change Suspended.andThen ((if persNo = s.persNo then _ else _ : PersonM Membership) s) _ = _
  rw [if_neg hother]
  exact Suspended.await_eq_once (fun _ _ => rfl) fun _ _ => rfl

theorem body_getMembership_own (confNo : ℕ) :
    (getMembership s.persNo confNo false).body s =
      match s.memberships.dict.get? confNo with
      | some membership => .done (.ok [membership]) (hit s)
      | none => .once (missed s) (.queryReadTexts11 s.persNo confNo 0 0) fun membership t =>
        ([membership], stored confNo membership t) := by
  change Suspended.andThen ((if s.persNo = s.persNo then _ else _ : PersonM Membership) s) _ = _
  rw [if_pos rfl]
  cases hpresent : s.memberships.dict.get? confNo with
  | some membership =>
    rw [Cache.getitem_hit hpresent]
    rfl
  | none =>
    rw [Cache.getitem_miss hpresent]
    exact Suspended.await_eq_once (fun _ _ => rfl) fun _ _ => rfl

theorem ends_getMembership_own {ω : Type} {s : CachingPersonClient} {w : ω}
    {serves : (req : PersonRequest) → CachingPersonClient × ω → Except Exn req.Reply →
      CachingPersonClient × ω → Prop}
    {confNo : ℕ} {result : Except Exn (List Membership)} {t : CachingPersonClient × ω}
    (ends : ((getMembership s.persNo confNo false).body s).Ends serves w result t) :
    (∃ membership, s.memberships.dict.get? confNo = some membership ∧
      result = .ok [membership] ∧ t = (hit s, w)) ∨
    (Suspended.once (missed s) (PersonRequest.queryReadTexts11 s.persNo confNo 0 0)
      fun membership t => ([membership], stored confNo membership t)).Ends
        serves w result t := by
  rw [body_getMembership_own] at ends
  cases hcached : s.memberships.dict.get? confNo with
  | some membership =>
    rw [hcached] at ends
    obtain ⟨hresult, ht⟩ := ends
    exact Or.inl ⟨membership, rfl, hresult, ht⟩
  | none =>
    rw [hcached] at ends
    exact Or.inr ends

end PersonCall

/-! ## Runs of calls -/

/-- A call, with the server's decision on its request, and with its result. -/
structure PersonAction where
  call : PersonCall
  refused : Bool
  result : Except Exn (List Membership)

/-- A server that refuses a request with an error and does nothing, or answers it. -/
def PersonRequest.Served {ω : Type} (answers : (req : PersonRequest) → ω → req.Reply → ω → Prop)
    (refused : Bool) (req : PersonRequest) (s : CachingPersonClient × ω)
    (reply : Except Exn req.Reply) (t : CachingPersonClient × ω) : Prop :=
  t.1 = s.1 ∧
    match reply with
    | .ok value => refused = false ∧ answers req s.2 value t.2
    | .error e => refused = true ∧ t.2 = s.2 ∧ ∃ error, e = .serverError error

/-- A call with no other going on. -/
inductive PersonStep {ω : Type} (answers : (req : PersonRequest) → ω → req.Reply → ω → Prop) :
    CachingPersonClient × ω → PersonAction → CachingPersonClient × ω → Prop
  | call {s t : CachingPersonClient × ω} {call : PersonCall} {refused : Bool}
      {result : Except Exn (List Membership)}
      (ends : (call.body s.1).Ends (PersonRequest.Served answers refused) s.2 result t) :
      PersonStep answers s { call, refused, result } t

/-- A method that sends one request is refused, or finishes with the answer. -/
theorem PersonRequest.ends_once {ω α : Type}
    {answers : (req : PersonRequest) → ω → req.Reply → ω → Prop} {refused : Bool}
    {s : CachingPersonClient} {w : ω} {req : PersonRequest}
    {finish : req.Reply → CachingPersonClient → α × CachingPersonClient}
    {result : Except Exn α} {t : CachingPersonClient × ω} :
    (Suspended.once s req finish).Ends (Served answers refused) w result t ↔
      (refused = false ∧ ∃ value, answers req w value t.2 ∧ result = .ok (finish value s).1 ∧
        t.1 = (finish value s).2) ∨
      (refused = true ∧ t = (s, w) ∧ ∃ error, result = .error (.serverError error)) := by
  rw [Suspended.ends_once]
  constructor
  · rintro (⟨value, u, ⟨rfl, hrefused, hanswers⟩, rfl, rfl⟩ |
      ⟨e, ⟨hclient, hrefused, hworld, error, rfl⟩, rfl⟩)
    · exact Or.inl ⟨hrefused, value, hanswers, rfl, rfl⟩
    · exact Or.inr ⟨hrefused, Prod.ext hclient hworld, error, rfl⟩
  · rintro (⟨hrefused, value, hanswers, rfl, hclient⟩ | ⟨hrefused, rfl, error, rfl⟩)
    · exact Or.inl ⟨value, (s, t.2), ⟨rfl, hrefused, hanswers⟩, rfl, Prod.ext hclient rfl⟩
    · exact Or.inr ⟨.serverError error, ⟨rfl, hrefused, rfl, error, rfl⟩, rfl⟩

/-- The step of a call whose one request is answered. -/
theorem PersonStep.answered {ω : Type}
    {answers : (req : PersonRequest) → ω → req.Reply → ω → Prop} {call : PersonCall}
    {s t : CachingPersonClient} {v : ω} {req : PersonRequest}
    {finish : req.Reply → CachingPersonClient → List Membership × CachingPersonClient}
    (value : req.Reply) (w : ω) (hbody : call.body s = .once t req finish)
    (hanswers : answers req v value w) :
    PersonStep answers (s, v) ⟨call, false, .ok (finish value t).1⟩ ((finish value t).2, w) := by
  apply PersonStep.call
  rw [hbody]
  exact PersonRequest.ends_once.mpr (Or.inl ⟨rfl, value, hanswers, rfl, rfl⟩)

/-- A membership that was last read at a given hour. -/
def membershipAt (position conference hours : ℕ) : Membership where
  position
  lastTimeRead := ⟨0, 0, hours, 1, 4, 124, 6, 152, 0⟩
  conference
  priority := 100
  readRanges := []
  addedBy := 7
  addedAt := ⟨0, 0, 0, 1, 4, 124, 6, 152, 0⟩
  type := .replicate 8 false

end Pylyskom
