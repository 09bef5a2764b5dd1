import Pylyskom.CachedConnection.Invalidation
import Pylyskom.PersonClient

/-!
# Handler tables

The handlers that `CachingPersonClient` and `AioCachingPersonClient` add to their tables, and
the six caches that these handlers change. The two tables are alike, except that only the
second has a handler for a new presentation.
-/

namespace Pylyskom

/-- The caches of a `CachingPersonClient` or an `AioCachingPersonClient`. -/
structure PersonCaches where
  /-- `uconferences`, `conferences`, `persons` and `textstats`. -/
  base : AioCachingClient
  memberships : Cache Membership
  membershipsByPosition : Dict ℕ Membership

/-- The handlers for asynchronous messages of `CachingPersonClient` and its base class. -/
inductive AsyncHandler : Type
  | cahNewName | cahLeaveConf | cahDeletedText | cahNewText | cahNewRecipient | cahSubRecipient
  | cahNewMembership | cpahLeaveConf | cpahNewMembership
  deriving DecidableEq

/-- Those of `AioCachingPersonClient` and its base class. -/
inductive AioAsyncHandler : Type
  | cahNewName | cahLeaveConf | cahDeletedText | cahNewText | cahNewRecipient | cahSubRecipient
  | cahNewMembership | cahNewPresentation | cpahLeaveConf | cpahNewMembership
  deriving DecidableEq

namespace PersonCaches

/-- `CachingPersonClient._cpah_leave_conf` -/
def cpahLeaveConf (self : PersonCaches) (confNo : ℕ) : PersonCaches :=
  { self with
    memberships := self.memberships.invalidate confNo
    membershipsByPosition := ∅ }

/-- `CachingPersonClient._cpah_new_membership` -/
def cpahNewMembership (self : PersonCaches) : PersonCaches :=
  { self with membershipsByPosition := ∅ }

/-- `AioCachingPersonClient._cpah_leave_conf` -/
def aioCpahLeaveConf (self : PersonCaches) (confNo : ℕ) : PersonCaches :=
  { self with
    memberships := self.memberships.invalidate confNo
    membershipsByPosition := ∅ }

/-- `AioCachingPersonClient._cpah_new_membership` -/
def aioCpahNewMembership (self : PersonCaches) : PersonCaches :=
  { self with membershipsByPosition := ∅ }

end PersonCaches

/-- A call of a handler; `none` for a message without the fields that it reads. -/
def AsyncHandler.call (self : PersonCaches) : AsyncHandler → AsyncMessage → Option PersonCaches
  | cahNewName, .newName confNo _ _ =>
    some { self with base := CachingClient.cahNewName self.base confNo }
  | cahLeaveConf, .leaveConf confNo =>
    some { self with base := CachingClient.cahLeaveConf self.base confNo }
  | cahDeletedText, .deletedText _ textStat =>
    some { self with base := CachingClient.cahDeletedText self.base textStat }
  | cahNewText, .newText _ textStat =>
    some { self with base := CachingClient.cahNewText self.base textStat }
  | cahNewRecipient, .newRecipient textNo confNo _ =>
    some { self with base := CachingClient.cahNewRecipient self.base textNo confNo }
  | cahSubRecipient, .subRecipient textNo confNo _ =>
    some { self with base := CachingClient.cahSubRecipient self.base textNo confNo }
  | cahNewMembership, .newMembership _ confNo =>
    some { self with base := CachingClient.cahNewMembership self.base confNo }
  | cpahLeaveConf, .leaveConf confNo => some (self.cpahLeaveConf confNo)
  | cpahNewMembership, .newMembership _ _ => some self.cpahNewMembership
  | _, _ => none

def AioAsyncHandler.call (self : PersonCaches) :
    AioAsyncHandler → AsyncMessage → Option PersonCaches
  | cahNewName, .newName confNo _ _ => some { self with base := self.base.cahNewName confNo }
  | cahLeaveConf, .leaveConf confNo => some { self with base := self.base.cahLeaveConf confNo }
  | cahDeletedText, .deletedText _ textStat =>
    some { self with base := self.base.cahDeletedText textStat }
  | cahNewText, .newText _ textStat => some { self with base := self.base.cahNewText textStat }
  | cahNewRecipient, .newRecipient textNo confNo _ =>
    some { self with base := self.base.cahNewRecipient textNo confNo }
  | cahSubRecipient, .subRecipient textNo confNo _ =>
    some { self with base := self.base.cahSubRecipient textNo confNo }
  | cahNewMembership, .newMembership _ confNo =>
    some { self with base := self.base.cahNewMembership confNo }
  | cahNewPresentation, .newPresentation confNo oldPresentation newPresentation =>
    some { self with base := self.base.cahNewPresentation confNo oldPresentation newPresentation }
  | cpahLeaveConf, .leaveConf confNo => some (self.aioCpahLeaveConf confNo)
  | cpahNewMembership, .newMembership _ _ => some self.aioCpahNewMembership
  | _, _ => none

/-- The handlers of a client, by the type of the messages that they are called for. -/
abbrev AsyncHandlers (Handler : Type) := Dict ℕ (List Handler)

namespace AsyncHandlers

variable {Handler : Type}

/-- `_add_async_handler`; `none` if the type of message is not implemented. -/
def addAsyncHandler (self : AsyncHandlers Handler) (msgNo : ℕ) (handler : Handler) :
    Option (AsyncHandlers Handler) :=
  if msgNo ∉ asyncDict.map Prod.fst then none
  else
    match self.get? msgNo with
    | some handlers => some (self.set msgNo (handlers ++ [handler]))
    | none => some (self.set msgNo [handler])

/-- Each handler is called in the order in which they were added. -/
def handleAsyncMessage (self : AsyncHandlers Handler)
    (call : PersonCaches → Handler → AsyncMessage → Option PersonCaches) (caches : PersonCaches)
    (msg : AsyncMessage) : Option PersonCaches :=
  match self.get? msg.msgNo with
  | some handlers => handlers.foldlM (fun caches handler => call caches handler msg) caches
  | none => some caches

end AsyncHandlers

open AsyncMessages

/-- `CachingClient.__init__` -/
def CachingClient.addHandlers (handlers : AsyncHandlers AsyncHandler) :
    Option (AsyncHandlers AsyncHandler) := do
  let handlers ← handlers.addAsyncHandler NEW_NAME .cahNewName
  let handlers ← handlers.addAsyncHandler LEAVE_CONF .cahLeaveConf
  let handlers ← handlers.addAsyncHandler DELETED_TEXT .cahDeletedText
  let handlers ← handlers.addAsyncHandler NEW_TEXT .cahNewText
  let handlers ← handlers.addAsyncHandler NEW_RECIPIENT .cahNewRecipient
  let handlers ← handlers.addAsyncHandler SUB_RECIPIENT .cahSubRecipient
  handlers.addAsyncHandler NEW_MEMBERSHIP .cahNewMembership

/-- `AioCachingClient.__init__` -/
def AioCachingClient.addHandlers (handlers : AsyncHandlers AioAsyncHandler) :
    Option (AsyncHandlers AioAsyncHandler) := do
  let handlers ← handlers.addAsyncHandler NEW_NAME .cahNewName
  let handlers ← handlers.addAsyncHandler LEAVE_CONF .cahLeaveConf
  let handlers ← handlers.addAsyncHandler DELETED_TEXT .cahDeletedText
  let handlers ← handlers.addAsyncHandler NEW_TEXT .cahNewText
  let handlers ← handlers.addAsyncHandler NEW_RECIPIENT .cahNewRecipient
  let handlers ← handlers.addAsyncHandler SUB_RECIPIENT .cahSubRecipient
  let handlers ← handlers.addAsyncHandler NEW_MEMBERSHIP .cahNewMembership
  handlers.addAsyncHandler NEW_PRESENTATION .cahNewPresentation

/-- What `CachingPersonClient.__init__` adds to the handlers of the base class. -/
def CachingPersonClient.addHandlers (handlers : AsyncHandlers AsyncHandler) :
    Option (AsyncHandlers AsyncHandler) := do
  let handlers ← handlers.addAsyncHandler LEAVE_CONF .cpahLeaveConf
  handlers.addAsyncHandler NEW_MEMBERSHIP .cpahNewMembership

/-- What `AioCachingPersonClient.__init__` adds to the handlers of the base class. -/
def AioCachingPersonClient.addHandlers (handlers : AsyncHandlers AioAsyncHandler) :
    Option (AsyncHandlers AioAsyncHandler) := do
  let handlers ← handlers.addAsyncHandler LEAVE_CONF .cpahLeaveConf
  handlers.addAsyncHandler NEW_MEMBERSHIP .cpahNewMembership

namespace PersonCaches

/-- A `CachingPersonClient` handles a message. -/
def handleAsyncMessage (self : PersonCaches) (msg : AsyncMessage) : Option PersonCaches := do
  let handlers ← CachingClient.addHandlers ∅
  let handlers ← CachingPersonClient.addHandlers handlers
  handlers.handleAsyncMessage AsyncHandler.call self msg

/-- An `AioCachingPersonClient` handles a message. -/
def aioHandleAsyncMessage (self : PersonCaches) (msg : AsyncMessage) : Option PersonCaches := do
  let handlers ← AioCachingClient.addHandlers ∅
  let handlers ← AioCachingPersonClient.addHandlers handlers
  handlers.handleAsyncMessage AioAsyncHandler.call self msg

/-- What the handlers of the person clients do with a message. -/
def cpah (self : PersonCaches) : AsyncMessage → PersonCaches
  | .leaveConf confNo => self.cpahLeaveConf confNo
  | .newMembership _ _ => self.cpahNewMembership
  | _ => self

/-- No handler of the table raises, and each cache is changed by one class only. -/
theorem handleAsyncMessage_eq (self : PersonCaches) (msg : AsyncMessage) :
    self.handleAsyncMessage msg =
      some { self.cpah msg with base := CachingClient.handleAsyncMessage self.base msg } := by
  cases msg <;> rfl

theorem aioHandleAsyncMessage_eq (self : PersonCaches) (msg : AsyncMessage) :
    self.aioHandleAsyncMessage msg =
      some { self.cpah msg with base := self.base.handleAsyncMessage msg } := by
  cases msg <;> rfl

/-- The memberships change as in the client that has but the person's caches. -/
theorem cpah_eq_handleAsyncMessage {self : PersonCaches} {client : CachingPersonClient}
    (hmemberships : self.memberships = client.memberships)
    (hbyPosition : self.membershipsByPosition = client.membershipsByPosition)
    (msg : AsyncMessage) :
    (self.cpah msg).memberships = (client.handleAsyncMessage msg).memberships ∧
      (self.cpah msg).membershipsByPosition =
        (client.handleAsyncMessage msg).membershipsByPosition := by
  cases msg with
  | leaveConf confNo => exact ⟨congrArg (·.invalidate confNo) hmemberships, rfl⟩
  | newMembership personNo confNo => exact ⟨hmemberships, rfl⟩
  | _ => exact ⟨hmemberships, hbyPosition⟩

/-! ## Sequences of messages -/

/-- A `CachingPersonClient` handles the messages of a sequence. -/
def handleAll (self : PersonCaches) (msgs : List AsyncMessage) : Option PersonCaches :=
  msgs.foldlM handleAsyncMessage self

/-- An `AioCachingPersonClient` handles the messages of a sequence. -/
def aioHandleAll (self : PersonCaches) (msgs : List AsyncMessage) : Option PersonCaches :=
  msgs.foldlM aioHandleAsyncMessage self

/-- The same memberships are cached. -/
structure SameMemberships (s t : PersonCaches) : Prop where
  memberships : s.memberships.dict.Same t.memberships.dict
  byPosition : s.membershipsByPosition.Same t.membershipsByPosition

/-- The same entries are cached. -/
structure SameEntries (s t : PersonCaches) : Prop extends SameMemberships s t where
  lookup : ∀ c no, s.base.lookup c no = t.base.lookup c no

variable {s t : PersonCaches}

theorem SameMemberships.cpah (h : SameMemberships s t) (msg : AsyncMessage) :
    SameMemberships (s.cpah msg) (t.cpah msg) := by
  cases msg with
  | leaveConf confNo =>
    refine ⟨fun k => ?_, Dict.Same.refl _⟩
    simp only [PersonCaches.cpah, cpahLeaveConf, Cache.get?_invalidate, h.memberships k]
  | newMembership personNo confNo => exact ⟨h.memberships, Dict.Same.refl _⟩
  | _ => exact h

/-- No message is left without being handled, and the memberships stay the same. -/
theorem handleAll_spec (h : SameMemberships s t) (msgs : List AsyncMessage) :
    ∃ s' t', s.handleAll msgs = some s' ∧ t.aioHandleAll msgs = some t' ∧
      SameMemberships s' t' ∧
      s'.base = msgs.foldl CachingClient.handleAsyncMessage s.base ∧
      t'.base = msgs.foldl AioCachingClient.handleAsyncMessage t.base := by
  unfold handleAll aioHandleAll
  induction msgs generalizing s t with
  | nil => exact ⟨s, t, rfl, rfl, h, rfl, rfl⟩
  | cons msg msgs ih =>
    have hnext : SameMemberships
        { s.cpah msg with base := CachingClient.handleAsyncMessage s.base msg }
        { t.cpah msg with base := t.base.handleAsyncMessage msg } :=
      ⟨(h.cpah msg).memberships, (h.cpah msg).byPosition⟩
    rw [List.foldlM_cons, List.foldlM_cons, handleAsyncMessage_eq, aioHandleAsyncMessage_eq]
    exact ih hnext

/-- What a sequence removes from the first four caches. -/
theorem lookup_handleAll (msgs : List AsyncMessage) (base : CachingClient) (c : CacheName)
    (no : ℕ) :
    (msgs.foldl CachingClient.handleAsyncMessage base).lookup c no =
      if (c, no) ∈ msgs.flatMap AsyncMessage.invalidatedBlocking then none
      else base.lookup c no :=
  AioCachingClient.Clears.foldl CachingClient.clears_handleAsyncMessage msgs base c no

theorem lookup_aioHandleAll (msgs : List AsyncMessage) (base : AioCachingClient) (c : CacheName)
    (no : ℕ) :
    (msgs.foldl AioCachingClient.handleAsyncMessage base).lookup c no =
      if (c, no) ∈ msgs.flatMap AsyncMessage.invalidated then none else base.lookup c no :=
  AioCachingClient.Clears.foldl AioCachingClient.clears_handleAsyncMessage msgs base c no

/-- Only a new presentation invalidates entries in one class and not in the other. -/
theorem mem_invalidated_iff {msg : AsyncMessage} {key : CacheName × ℕ} :
    key ∈ msg.invalidated ↔ key ∈ msg.invalidatedBlocking ∨
      ∃ confNo old new, msg = .newPresentation confNo old new ∧
        key ∈ (AsyncMessage.newPresentation confNo old new).invalidated := by
  cases msg with
  | newPresentation confNo old new =>
    constructor
    · exact fun hkey => Or.inr ⟨confNo, old, new, rfl, hkey⟩
    · rintro (hkey | ⟨_, _, _, heq, hkey⟩)
      · cases hkey
      · cases heq
        exact hkey
  | _ =>
    constructor
    · exact Or.inl
    · rintro (hkey | ⟨_, _, _, heq, -⟩)
      · exact hkey
      · cases heq

/-- Every entry that the handler for a new presentation would remove is absent, or is
removed by another handler, in the course of a sequence. -/
def PresentationsCovered (self : PersonCaches) (msgs : List AsyncMessage) : Prop :=
  ∀ confNo old new, .newPresentation confNo old new ∈ msgs →
    ∀ c no, (c, no) ∈ (AsyncMessage.newPresentation confNo old new).invalidated →
      self.base.lookup c no = none ∨ ∃ msg ∈ msgs, (c, no) ∈ msg.invalidatedBlocking

/-- **When the two clients agree.** From caches with the same entries, both clients handle
every sequence of messages, and they come to the same entries exactly if no presentation
leaves an entry behind in the blocking client. -/
theorem sameEntries_handleAll_iff (same : SameEntries s t) (msgs : List AsyncMessage) :
    (∃ s' t', s.handleAll msgs = some s' ∧ t.aioHandleAll msgs = some t' ∧ SameEntries s' t') ↔
      s.PresentationsCovered msgs := by
  obtain ⟨s', t', hs, ht, hmemberships, hbase, haio⟩ := handleAll_spec same.toSameMemberships msgs
  have hentries : (∀ c no, s'.base.lookup c no = t'.base.lookup c no) ↔
      s.PresentationsCovered msgs := by
    rw [hbase, haio]
    constructor
    · intro hsame confNo old new hmsg c no hkey
      by_contra hnot
      obtain ⟨hpresent, huncovered⟩ := not_or.mp hnot
      have heq := hsame c no
      have hblocking : (c, no) ∉ msgs.flatMap AsyncMessage.invalidatedBlocking := by
        rw [List.mem_flatMap]
        exact huncovered
      have hinvalidated : (c, no) ∈ msgs.flatMap AsyncMessage.invalidated :=
        List.mem_flatMap.mpr ⟨_, hmsg, hkey⟩
      rw [lookup_handleAll, lookup_aioHandleAll, if_neg hblocking, if_pos hinvalidated] at heq
      exact hpresent heq
    · intro hcovered c no
      rw [lookup_handleAll, lookup_aioHandleAll, ← same.lookup]
      by_cases hblocking : (c, no) ∈ msgs.flatMap AsyncMessage.invalidatedBlocking
      · obtain ⟨msg, hmsg, hkey⟩ := List.mem_flatMap.mp hblocking
        have hinvalidated : (c, no) ∈ msgs.flatMap AsyncMessage.invalidated :=
          List.mem_flatMap.mpr ⟨msg, hmsg, mem_invalidated_iff.mpr (Or.inl hkey)⟩
        rw [if_pos hblocking, if_pos hinvalidated]
      · rw [if_neg hblocking]
        split_ifs with hinvalidated
        · obtain ⟨msg, hmsg, hkey⟩ := List.mem_flatMap.mp hinvalidated
          rcases mem_invalidated_iff.mp hkey with hkey | ⟨confNo, old, new, rfl, hkey⟩
          · exact absurd (List.mem_flatMap.mpr ⟨msg, hmsg, hkey⟩) hblocking
          · rcases hcovered confNo old new hmsg c no hkey with hnone | ⟨other, hother, hkey⟩
            · exact hnone
            · exact absurd (List.mem_flatMap.mpr ⟨other, hother, hkey⟩) hblocking
        · rfl
  rw [← hentries]
  constructor
  · rintro ⟨s'', t'', hs'', ht'', hsame⟩
    obtain rfl := Option.some.inj (hs.symm.trans hs'')
    obtain rfl := Option.some.inj (ht.symm.trans ht'')
    exact hsame.lookup
  · intro hsame
    exact ⟨s', t', hs, ht, hmemberships, hsame⟩

/-- A conference without a presentation, in the caches of otherwise new clients. -/
def unpresented : PersonCaches where
  base := AioCachingClient.store .init .conferences 6 <| .conference
    { name := ascii "Prat", type := .replicate 8 false
      creationTime := ⟨0, 0, 0, 1, 4, 124, 6, 152, 0⟩
      lastWritten := ⟨0, 0, 0, 1, 4, 124, 6, 152, 0⟩
      creator := 5, presentation := 0, supervisor := 5, permittedSubmitters := 0, superConf := 0
      msgOfDay := 0, nice := 77, keepCommented := 77, noOfMembers := 1, firstLocalNo := 1
      noOfTexts := 0, expire := 0, auxItems := [] }
  memberships := .init
  membershipsByPosition := ∅

theorem sameEntries_unpresented : SameEntries unpresented unpresented :=
  ⟨⟨Dict.Same.refl _, Dict.Same.refl _⟩, fun _ _ => rfl⟩

/-- A new name of the conference makes up for the missing handler. -/
theorem sameEntries_handleAll_renamed :
    ∃ s' t', unpresented.handleAll [.newPresentation 6 0 7, .newName 6 [] []] = some s' ∧
      unpresented.aioHandleAll [.newPresentation 6 0 7, .newName 6 [] []] = some t' ∧
      SameEntries s' t' := by
  apply (sameEntries_handleAll_iff sameEntries_unpresented _).mpr
  intro confNo old new hmsg c no hkey
  have hnew : AsyncMessage.newPresentation confNo old new = .newPresentation 6 0 7 := by
    simpa using hmsg
  rw [hnew] at hkey
  rcases List.mem_cons.mp hkey with heq | hkey
  · cases heq
    exact Or.inr ⟨.newName 6 [] [], by simp, by decide⟩
  · left
    simp only [List.mem_cons, List.not_mem_nil, or_false] at hkey
    rcases hkey with heq | heq
    · cases heq
      rfl
    · cases heq
      rfl

/-- A conference that is cached gets a new presentation. -/
theorem not_sameEntries_newPresentation :
    ¬ ∀ (s t : PersonCaches), SameEntries s t → ∀ msgs : List AsyncMessage,
      ∃ s' t', s.handleAll msgs = some s' ∧ t.aioHandleAll msgs = some t' ∧
        SameEntries s' t' := by
  intro hclaim
  obtain ⟨s', t', hs, ht, hsame⟩ :=
    hclaim _ _ sameEntries_unpresented [.newPresentation 6 0 7]
  obtain rfl := Option.some.inj hs
  obtain rfl := Option.some.inj ht
  have heq := congrArg Option.isSome (hsame.lookup .conferences 6)
  exact absurd heq (by decide)

end PersonCaches
end Pylyskom
