import Pylyskom.CachedConnection.Invalidation
import Pylyskom.CachedConnection.ServerTexts
import Pylyskom.Collections.Lists

/-!
# Cached text-stats

A `CachingClient` that reads text-stats while texts are created and deleted, and while
recipients are added and removed. Everything that the server sends arrives in the order in
which it was sent. The handler for a deleted text leaves the cached text-stats as they are,
so they follow the server only if it finds none of those that the deletion changes.
-/

namespace Pylyskom

/-- Something that the server has sent to the client. -/
inductive FromServer : Type
  | message (msg : AsyncMessage)
  /-- The reply to the request for the text-stat of a text. -/
  | reply (no : ℕ) (reply : Except Exn OkReply)

/-- A call of `textstats[no]` that waits for its reply. -/
structure TextStatCall where
  no : ℕ
  answered : Bool
  resume : Except Exn OkReply → CachingClient → Suspended CachingClient Request
    (fun _ => OkReply) Exn OkReply

structure TextSystem where
  texts : Texts
  /-- What has been sent and not yet delivered, oldest first. -/
  inFlight : List FromServer
  client : CachingClient
  call : Option TextStatCall

namespace TextSystem

/-- A new client. -/
def new (texts : Texts) : TextSystem where
  texts
  inFlight := []
  client := AioCachingClient.init
  call := none

/-- All messages sent so far have been handled. -/
def AllHandled (s : TextSystem) : Prop := ∀ msg, .message msg ∉ s.inFlight

end TextSystem

/-- What the server replies to a request for a text-stat. -/
def Texts.getTextStat (self : Texts) (no : ℕ) : Except Exn OkReply :=
  match self no with
  | some stat => .ok (.textStat stat)
  | none => .error (.serverError ⟨.noSuchText, no⟩)

inductive TextAction : Type
  | change
  | read (no : ℕ)
  | answer
  | handle (msg : AsyncMessage)
  | receive

inductive TextStep : TextSystem → TextAction → TextSystem → Prop
  | change {s : TextSystem} {msg : AsyncMessage} {texts : Texts}
      (change : TextChange s.texts msg texts) :
      TextStep s .change { s with texts, inFlight := s.inFlight ++ [.message msg] }
  | hit {s : TextSystem} {no : ℕ} {value : OkReply} {client : CachingClient}
      (idle : s.call = none)
      (hit : CachingClient.getitem .textstats no s.client = .done (.ok value) client) :
      TextStep s (.read no) { s with client }
  | miss {s : TextSystem} {no : ℕ} {client : CachingClient}
      {resume : Except Exn OkReply → CachingClient → Suspended CachingClient Request
        (fun _ => OkReply) Exn OkReply}
      (idle : s.call = none)
      (miss : CachingClient.getitem .textstats no s.client =
        .await client (CacheName.textstats.fetch no) resume) :
      TextStep s (.read no) { s with client, call := some ⟨no, false, resume⟩ }
  | answer {s : TextSystem} {call : TextStatCall} (waiting : s.call = some call)
      (unanswered : call.answered = false) :
      TextStep s .answer
        { s with
          call := some { call with answered := true }
          inFlight := s.inFlight ++ [.reply call.no (s.texts.getTextStat call.no)] }
  | handle {s : TextSystem} {msg : AsyncMessage} {rest : List FromServer}
      (first : s.inFlight = .message msg :: rest) :
      TextStep s (.handle msg)
        { s with client := s.client.handleAsyncMessage msg, inFlight := rest }
  | receive {s : TextSystem} {call : TextStatCall} {reply : Except Exn OkReply}
      {rest : List FromServer} {result : Except Exn OkReply} {client : CachingClient}
      (first : s.inFlight = .reply call.no reply :: rest) (waiting : s.call = some call)
      (ends : call.resume reply s.client = .done result client) :
      TextStep s .receive { s with client, call := none, inFlight := rest }

/-- The texts whose text-stats change with a deletion. -/
def AsyncMessage.unlinks : AsyncMessage → List ℕ
  | deletedText no stat => no :: stat.links
  | _ => []

/-- A deletion is handled only when none of the text-stats that it changes is cached, but for
those that a message on its way invalidates. -/
def DeletionsUncached (s : TextSystem) : TextAction → Prop
  | .handle msg => ∀ t ∈ msg.unlinks, s.client.lookup .textstats t = none ∨
      ∃ later, .message later ∈ s.inFlight ∧ (.textstats, t) ∈ later.invalidatedBlocking
  | _ => True

/-! ## What a change announces -/

/-- The text-stat of the text is invalidated, or changed by a deletion. -/
def AsyncMessage.Announces (msg : AsyncMessage) (t : ℕ) : Prop :=
  (.textstats, t) ∈ msg.invalidatedBlocking ∨ t ∈ msg.unlinks

/-- **A text-stat that a change makes invalid is one that the message announces.** -/
theorem TextChange.holds {texts texts' : Texts} {msg : AsyncMessage}
    (h : TextChange texts msg texts') (hlinked : texts.Linked) {t : ℕ} {value : TextStat}
    (hvalue : texts.Holds t value) : texts'.Holds t value ∨ msg.Announces t := by
  obtain ⟨stat, hstat, hsame⟩ := hvalue
  cases h with
  | @create no new unused uncommented exist =>
    have hne : t ≠ no := by
      rintro rfl
      rw [unused] at hstat
      cases hstat
    by_cases hcomment : ∃ ct ∈ new.miscInfo.commentToList, ct.textNo = t
    · obtain ⟨ct, hct, rfl⟩ := hcomment
      refine Or.inr (Or.inl ?_)
      apply List.mem_append_right
      exact List.mem_flatMap.mpr ⟨ct, hct, List.mem_singleton_self _⟩
    · refine Or.inl ⟨stat, ?_, hsame⟩
      have hsameText := @TextStat.commentedBy_of_not_mem stat no t new.miscInfo.commentToList
        fun ct hct heq => hcomment ⟨ct, hct, heq⟩
      unfold Texts.create
      rw [if_neg hne, hstat, Option.map_some, hsameText]
  | @delete no deleted found =>
    by_cases hunlinks : t ∈ no :: deleted.links
    · exact Or.inr (Or.inr hunlinks)
    · rw [List.mem_cons, not_or] at hunlinks
      refine Or.inl ⟨stat, ?_, hsame⟩
      -- a link to the deleted text would be recorded there as well
      have hnot : no ∉ stat.links := by
        intro hmem
        apply hunlinks.2
        rcases List.mem_append.mp hmem with hmem | hmem
        · obtain ⟨ct, hct, rfl⟩ := List.mem_map.mp hmem
          obtain ⟨b, hb, ci, hci, hback⟩ := hlinked.commentTo hstat ct hct
          obtain rfl := Option.some.inj (found.symm.trans hb)
          exact List.mem_append_right _ (List.mem_map.mpr ⟨ci, hci, hback⟩)
        · obtain ⟨ci, hci, rfl⟩ := List.mem_map.mp hmem
          obtain ⟨b, hb, ct, hct, hback⟩ := hlinked.commentIn hstat ci hci
          obtain rfl := Option.some.inj (found.symm.trans hb)
          exact List.mem_append_left _ (List.mem_map.mpr ⟨ct, hct, hback⟩)
      unfold Texts.delete
      rw [if_neg hunlinks.1, hstat, Option.map_some, TextStat.unlink_of_not_mem hnot]
  | @addRecipient no rcpt found =>
    by_cases ht : t = no
    · subst ht
      exact Or.inr (Or.inl (by simp [AsyncMessage.invalidatedBlocking, AsyncMessage.invalidated]))
    · exact Or.inl ⟨stat, (if_neg ht).trans hstat, hsame⟩
  | @subRecipient no holder rcpt found recipient =>
    by_cases ht : t = no
    · subst ht
      exact Or.inr (Or.inl (by simp [AsyncMessage.invalidatedBlocking, AsyncMessage.invalidated]))
    · exact Or.inl ⟨stat, (if_neg ht).trans hstat, hsame⟩

/-! ## The invariant -/

namespace TextSystem

/-- Some message to be delivered announces a change of the text-stat. -/
def Announced (later : List FromServer) (t : ℕ) : Prop :=
  ∃ msg, .message msg ∈ later ∧ msg.Announces t

/-- A value is that of an existing text. -/
def Valid (s : TextSystem) (t : ℕ) (value : OkReply) : Prop :=
  ∃ stat, value = .textStat stat ∧ s.texts.Holds t stat

/-- A value is either valid, or about to be invalidated. -/
structure Kept (s : TextSystem) : Prop where
  linked : s.texts.Linked
  entries : ∀ {t : ℕ} {value : OkReply}, s.client.lookup .textstats t = some value →
    s.Valid t value ∨ Announced s.inFlight t
  replies : ∀ {before after : List FromServer} {t : ℕ} {value : OkReply},
    s.inFlight = before ++ .reply t (.ok value) :: after → s.Valid t value ∨ Announced after t
  /-- What waits stores the value that it gets. -/
  stores : ∀ {call : TextStatCall} {reply result : Except Exn OkReply}
    {client client' : CachingClient}, s.call = some call →
    call.resume reply client = .done result client' →
    ∀ {t value}, client'.lookup .textstats t = some value →
      (t = call.no ∧ reply = .ok value) ∨ client.lookup .textstats t = some value

theorem Announced.append {later : List FromServer} {t : ℕ} (h : Announced later t)
    (item : FromServer) : Announced (later ++ [item]) t := by
  obtain ⟨msg, hmem, hannounces⟩ := h
  exact ⟨msg, List.mem_append_left _ hmem, hannounces⟩

variable {s : TextSystem}

theorem Kept.change (h : s.Kept) {msg : AsyncMessage} {texts : Texts}
    (change : TextChange s.texts msg texts) :
    Kept { s with texts, inFlight := s.inFlight ++ [.message msg] } := by
  have hvalid : ∀ {t value}, s.Valid t value →
      Valid { s with texts, inFlight := s.inFlight ++ [.message msg] } t value ∨
        msg.Announces t := by
    rintro t value ⟨stat, hvalue, hholds⟩
    rcases change.holds h.linked hholds with hholds | hannounces
    · exact Or.inl ⟨stat, hvalue, hholds⟩
    · exact Or.inr hannounces
  constructor
  · exact change.linked h.linked
  · intro t value hcached
    rcases h.entries hcached with hentry | hannounced
    · rcases hvalid hentry with hentry | hannounces
      · exact Or.inl hentry
      · exact Or.inr ⟨msg, by simp, hannounces⟩
    · exact Or.inr (hannounced.append _)
  · intro before after t value heq
    rcases append_singleton_eq_append_cons heq with ⟨-, hmessage, -⟩ | ⟨rest, rfl, hbefore⟩
    · cases hmessage
    · rcases h.replies hbefore with hreply | hannounced
      · rcases hvalid hreply with hreply | hannounces
        · exact Or.inl hreply
        · exact Or.inr ⟨msg, by simp, hannounces⟩
      · exact Or.inr (hannounced.append _)
  · exact h.stores

/-- The server answers with what it holds then. -/
theorem Kept.answer (h : s.Kept) {call : TextStatCall} (waiting : s.call = some call) :
    Kept { s with
      call := some { call with answered := true }
      inFlight := s.inFlight ++ [.reply call.no (s.texts.getTextStat call.no)] } := by
  constructor
  · exact h.linked
  · intro t value hcached
    rcases h.entries hcached with hentry | hannounced
    · exact Or.inl hentry
    · exact Or.inr (hannounced.append _)
  · intro before after t value heq
    rcases append_singleton_eq_append_cons heq with ⟨-, hreply, -⟩ | ⟨rest, rfl, hbefore⟩
    · left
      obtain ⟨rfl, hvalue⟩ := FromServer.reply.inj hreply
      unfold Texts.getTextStat at hvalue
      cases hstat : s.texts call.no with
      | none =>
        rw [hstat] at hvalue
        cases hvalue
      | some stat =>
        rw [hstat] at hvalue
        exact ⟨stat, Except.ok.inj hvalue, stat, hstat, rfl⟩
    · rcases h.replies hbefore with hreply | hannounced
      · exact Or.inl hreply
      · exact Or.inr (hannounced.append _)
  · intro call' reply result client client' hcall hdone t value hcached
    cases hcall
    exact h.stores waiting hdone hcached

/-- A message that was announced is the first one, or comes later. -/
theorem Announced.tail {msg : AsyncMessage} {rest : List FromServer} {t : ℕ}
    (h : Announced (.message msg :: rest) t) : msg.Announces t ∨ Announced rest t := by
  obtain ⟨later, hmem, hannounces⟩ := h
  rcases List.mem_cons.mp hmem with heq | hmem
  · obtain rfl := FromServer.message.inj heq
    exact Or.inl hannounces
  · exact Or.inr ⟨later, hmem, hannounces⟩

/-- A message is handled: what it makes invalid is removed, or was not there. -/
theorem Kept.handle (h : s.Kept) {msg : AsyncMessage} {rest : List FromServer}
    (first : s.inFlight = .message msg :: rest) (allowed : DeletionsUncached s (.handle msg)) :
    Kept { s with client := s.client.handleAsyncMessage msg, inFlight := rest } := by
  constructor
  · exact h.linked
  · intro t value hcached
    change (s.client.handleAsyncMessage msg).lookup .textstats t = some value at hcached
    rw [CachingClient.clears_handleAsyncMessage msg] at hcached
    split_ifs at hcached with hinvalidated
    rcases h.entries hcached with hentry | hannounced
    · exact Or.inl hentry
    · right
      rw [first] at hannounced
      rcases hannounced.tail with (hmem | hunlinks) | hlater
      · exact absurd hmem hinvalidated
      · rcases allowed t hunlinks with hnone | ⟨later, hlater, hmem⟩
        · rw [hnone] at hcached
          cases hcached
        · rw [first] at hlater
          rcases List.mem_cons.mp hlater with heq | hlater
          · obtain rfl := FromServer.message.inj heq
            exact absurd hmem hinvalidated
          · exact ⟨later, hlater, Or.inl hmem⟩
      · exact hlater
  · intro before after t value heq
    have hbefore : s.inFlight = (.message msg :: before) ++ .reply t (.ok value) :: after :=
      first.trans (congrArg _ heq)
    exact h.replies hbefore
  · exact h.stores

/-- The value of a reply is stored; it is valid, or about to be invalidated. -/
theorem Kept.receive (h : s.Kept) {call : TextStatCall} {reply result : Except Exn OkReply}
    {rest : List FromServer} {client : CachingClient}
    (first : s.inFlight = .reply call.no reply :: rest) (waiting : s.call = some call)
    (ends : call.resume reply s.client = .done result client) :
    Kept { s with client, call := none, inFlight := rest } := by
  constructor
  · exact h.linked
  · intro t value hcached
    rcases h.stores waiting ends hcached with ⟨rfl, rfl⟩ | hcached
    · exact @Kept.replies _ h [] rest call.no value first
    · rcases h.entries hcached with hentry | ⟨msg, hmem, hannounces⟩
      · exact Or.inl hentry
      · right
        rw [first] at hmem
        rcases List.mem_cons.mp hmem with heq | hmem
        · cases heq
        · exact ⟨msg, hmem, hannounces⟩
  · intro before after t value heq
    have hbefore : s.inFlight = (.reply call.no reply :: before) ++ .reply t (.ok value) :: after :=
      first.trans (congrArg _ heq)
    exact h.replies hbefore
  · rintro call' reply' result' client client' ⟨⟩

end TextSystem

/-- A value is found in a cache, or a request for it is sent, and what it returns is stored. -/
theorem CachingClient.getitem_cases (self : CachingClient) (c : CacheName) (no : ℕ) :
    (∃ value, self.lookup c no = some value ∧
      getitem c no self = .done (.ok value) (AioCachingClient.get self c no)) ∨
    self.lookup c no = none ∧
      getitem c no self = .once (AioCachingClient.get self c no) (c.fetch no) fun value client =>
        (value, AioCachingClient.store client c no value) := by
  rw [CachingClient.getitem_eq]
  cases self.lookup c no with
  | some value => exact Or.inl ⟨value, rfl, rfl⟩
  | none => exact Or.inr ⟨rfl, Suspended.await_eq_once (fun _ _ => rfl) fun _ _ => rfl⟩

/-- A client that has only counted a hit or a miss. -/
theorem TextSystem.Kept.congr {s : TextSystem} (h : s.Kept) {client : CachingClient}
    (hlookup : ∀ t, client.lookup .textstats t = s.client.lookup .textstats t) :
    Kept { s with client } := by
  refine ⟨h.linked, fun {t value} hcached => ?_, h.replies, h.stores⟩
  change client.lookup .textstats t = some value at hcached
  rw [hlookup] at hcached
  exact h.entries hcached

/-- **Each step of the condition keeps the entries valid, or about to be invalidated.** -/
theorem TextStep.kept {s t : TextSystem} {a : TextAction} (hstep : TextStep s a t)
    (allowed : DeletionsUncached s a) (h : s.Kept) : t.Kept := by
  cases hstep with
  | change change => exact h.change change
  | @hit no value client idle hit =>
    apply h.congr
    intro k
    rcases CachingClient.getitem_cases s.client .textstats no with ⟨v, -, heq⟩ | ⟨-, heq⟩
    · rw [hit] at heq
      obtain ⟨-, rfl⟩ := Suspended.done.inj heq
      exact AioCachingClient.lookup_get _ _ _ _ _
    · rw [hit] at heq
      cases heq
  | @miss no client resume idle miss =>
    rcases CachingClient.getitem_cases s.client .textstats no with ⟨v, -, heq⟩ | ⟨-, heq⟩
    · rw [miss] at heq
      cases heq
    · rw [miss] at heq
      obtain ⟨rfl, -, hresume⟩ := Suspended.await.inj heq
      obtain rfl := eq_of_heq hresume
      have hget := h.congr fun k => AioCachingClient.lookup_get s.client .textstats .textstats k no
      refine ⟨hget.linked, hget.entries, hget.replies, ?_⟩
      intro call reply result client client' hcall hdone k value hcached
      obtain rfl := Option.some.inj hcall
      cases reply with
      | error e =>
        obtain ⟨-, rfl⟩ := Suspended.done.inj hdone
        exact Or.inr hcached
      | ok stored =>
        obtain ⟨-, rfl⟩ := Suspended.done.inj hdone
        rw [AioCachingClient.lookup_store] at hcached
        split_ifs at hcached with hkey
        · obtain ⟨-, rfl⟩ := Prod.mk.inj hkey
          obtain rfl := Option.some.inj hcached
          exact Or.inl ⟨rfl, rfl⟩
        · exact Or.inr hcached
  | answer waiting => exact h.answer waiting
  | handle first => exact h.handle first allowed
  | receive first waiting ends => exact h.receive first waiting ends

theorem TextSystem.kept_new {texts : Texts} (hlinked : texts.Linked) : (new texts).Kept := by
  constructor
  · exact hlinked
  · intro t value hcached
    cases hcached
  · intro before after t value heq
    cases before <;> cases heq
  · rintro call reply result client client' ⟨⟩

/-- **When cached text-stats follow the server.** In every run of changes, reads and
deliveries in which no deletion is handled while a text-stat that it changes is cached:
whenever all messages sent so far have been handled, each cached text-stat is that of an
existing text, with the recipients and the comment links that the server holds for it. -/
theorem Run.textStatsFollow {texts : Texts} {s : TextSystem} (linked : texts.Linked)
    (h : Run TextStep DeletionsUncached (.new texts) s) (handled : s.AllHandled) {t : ℕ}
    {value : OkReply} (cached : s.client.lookup .textstats t = some value) : s.Valid t value := by
  have hkept : s.Kept :=
    h.invariant (TextSystem.kept_new linked) fun allowed hstep hu => hstep.kept allowed hu
  rcases hkept.entries cached with hvalid | ⟨msg, hmem, -⟩
  · exact hvalid
  · exact absurd hmem (handled msg)

/-- A text that was sent to one conference. -/
def TextStat.plain : TextStat where
  creationTime := ⟨0, 0, 0, 1, 4, 124, 6, 152, 0⟩
  author := 5
  noOfLines := 1
  noOfChars := 4
  noOfMarks := 0
  miscInfo := { recipientList := [{ type := MI_RECPT, recpt := 6 }] }
  auxItems := []

/-- A server that holds one text. -/
def Texts.single : Texts := fun t => if t = 1 then some .plain else none

theorem Texts.linked_single : single.Linked := by
  constructor
  · intro t a ha ct hct
    unfold single at ha
    split_ifs at ha
    cases ha
    cases hct
  · intro t a ha ci hci
    unfold single at ha
    split_ifs at ha
    cases ha
    cases hci

/-- The text is read by a new client. -/
theorem Run.read_single : ∃ s : TextSystem,
    Run TextStep DeletionsUncached (.new .single) s ∧ s.texts = .single ∧ s.inFlight = [] ∧
      s.client.lookup .textstats 1 = some (.textStat .plain) := by
  refine Run.reach (a := TextAction.read 1) trivial (.miss rfl rfl) ?_
  refine Run.reach (a := TextAction.answer) trivial (.answer rfl rfl) ?_
  refine Run.reach (a := TextAction.receive) trivial
      (@TextStep.receive _ ⟨1, true, _⟩ (.ok (.textStat .plain)) [] _ _ rfl rfl rfl) ?_
  exact ⟨_, Run.refl, rfl, rfl, rfl⟩

/-- It follows the server. -/
theorem Run.textStatsFollow_single : ∃ s : TextSystem,
    s.client.lookup .textstats 1 = some (.textStat .plain) ∧ s.Valid 1 (.textStat .plain) := by
  obtain ⟨s, hrun, -, hnone, hcached⟩ := Run.read_single
  have hhandled : s.AllHandled := by simp [TextSystem.AllHandled, hnone]
  exact ⟨s, hcached, Run.textStatsFollow Texts.linked_single hrun hhandled hcached⟩

/-- A text that is cached is deleted. -/
theorem Run.stale_textStat :
    ¬ ∀ (texts : Texts) (s : TextSystem), texts.Linked →
      Run TextStep (fun _ _ => True) (.new texts) s → s.AllHandled →
      ∀ (t : ℕ) (value : OkReply), s.client.lookup .textstats t = some value →
        s.Valid t value := by
  intro hclaim
  obtain ⟨s, hread, htexts, hnone, hcached⟩ := Run.read_single
  have hrun : Run TextStep (fun _ _ => True) (.new .single) s := hread.mono fun _ _ _ => trivial
  have hfound : s.texts 1 = some .plain := by
    rw [htexts]
    rfl
  have hdelete := hrun.tail trivial (.change (.delete hfound))
  let client := CachingClient.handleAsyncMessage s.client (.deletedText 1 .plain)
  have hhandle : Run TextStep (fun _ _ => True) (.new .single)
      ⟨s.texts.delete 1, [], client, s.call⟩ :=
    hdelete.tail trivial (.handle (by rw [hnone, List.nil_append]))
  have hlookup : client.lookup .textstats 1 = some (.textStat .plain) := by
    rw [CachingClient.clears_handleAsyncMessage, if_neg (by decide)]
    exact hcached
  obtain ⟨stat, -, other, hother, -⟩ :=
    hclaim _ _ Texts.linked_single hhandle (fun _ => List.not_mem_nil) 1 _ hlookup
  simp [Texts.delete] at hother

end Pylyskom
